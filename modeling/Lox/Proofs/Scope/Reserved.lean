import Lox.Proofs.Scope.Sound
import Mathlib.Data.List.Forall2

namespace Lox

def reservedNames : List String := ["this", "super"]

namespace Resolver

variable {α β : Type}

def Sparing (walk : Resolver α) : Prop :=
  ∀ σ : Scopes, ∀ name ∈ reservedNames,
    (walk.after σ).outline.head?.map (· name) = σ.outline.head?.map (· name)

lemma Sparing.bind {walk : Resolver α} {next : α → Resolver β} (h : Sparing walk)
    (h' : ∀ x, Sparing (next x)) : Sparing (walk >>= next) :=
  fun σ name hname => (h' _ _ name hname).trans (h σ name hname)

lemma Declaring.sparing {walk : Resolver α} {t : Option Token} (h : Declaring t walk)
    (ht : ∀ t' ∈ t, t'.IsName) : Sparing walk := by
  intro σ name hname
  have hother : ∀ status, Scopes.passing t status name = status name :=
    Scopes.passing_of_ne fun t' ht' => (ht t' ht').ne_reserved hname
  rw [(h σ).outline]
  cases σ.outline with
  | nil => rfl
  | cons status outer => exact congrArg some (hother status)

lemma Keeping.sparing {walk : Resolver α} (h : Keeping walk) : Sparing walk :=
  h.declaring.sparing fun _ ht => nomatch ht

lemma sparing_resolveStmts (around : Surroundings) {body : List Stmt} (h : allWellFormed body) :
    Sparing (resolveStmts around body) := by
  induction body with
  | nil => exact (keeping_pure _).sparing
  | cons st body ih =>
    have hst := (declaring_resolveStmt around st h.1).sparing (Site.isName_declared h.1)
    exact hst.bind fun _ => (ih h.2).bind fun _ => (keeping_pure _).sparing

end Resolver

open Resolver

namespace Site

def Spares (p : Site) : Prop :=
  List.Forall₂ (fun scope status => ∀ name ∈ reservedNames, Scope.status scope name = status name)
    p.closing p.scopes.outline

variable {p q : Site} {n m : Piece}

lemma Spares.modifyHead {g : (String → Option Bool) → String → Option Bool} (h : p.Spares)
    (hg : ∀ name ∈ reservedNames, ∀ status, g status name = status name)
    (hclosing : q.closing = p.closing) (houtline : q.scopes.outline = p.scopes.outline.modifyHead g) :
    q.Spares := by
  unfold Spares at h ⊢
  rw [hclosing, houtline]
  generalize p.scopes.outline = outline at h ⊢
  generalize p.closing = closing at h ⊢
  cases h with
  | nil => exact .nil
  | cons hhead htail =>
    refine .cons (fun name hname => ?_) htail
    rw [hg name hname, hhead name hname]

lemma Spares.same (h : p.Spares) (hclosing : q.closing = p.closing)
    (houtline : q.scopes.outline = p.scopes.outline) : q.Spares := by
  unfold Spares at h ⊢
  rwa [hclosing, houtline]

theorem Spares.inside {α : Type} {opening : Resolver Unit} {walk : Resolver α} (h : p.Spares)
    {status : String → Option Bool}
    (hopening : (opening.after p.scopes.enter).outline = status :: p.scopes.outline)
    (hwalk : Sparing walk) : (p.inside opening walk).Spares := by
  have hspared := hwalk (opening.after p.scopes.enter)
  unfold Spares Site.inside
  dsimp only
  rw [hopening] at hspared ⊢
  refine .cons (fun name hname => ?_) h
  have hname := hspared name hname
  unfold Scopes.outline at hname
  cases hstack : (walk.after (opening.after p.scopes.enter)).stack with
  | nil =>
    rw [hstack] at hname
    cases hname
  | cons scope outer =>
    rw [hstack] at hname
    exact Option.some.inj hname

lemma Spares.inMembers (h : p.Spares) (hasSuper : Bool) {methods statics : List Function}
    (hm : allWellFormedMember methods) (hs : allWellFormedMember statics) :
    (p.inMembers hasSuper methods statics).Spares := by
  have hboth := (keeping_bothMembers (p.classSurroundings hasSuper) hm hs)
  cases hasSuper with
  | false =>
    exact Spares.inside (p := { p with around := _ }) h (outline_implicitly _ _) hboth.sparing
  | true =>
    have hmembers := ((growing_declareImplicit "this").bind fun _ => hboth.growing).inScope
    have hinside := h.inside (outline_implicitly "super" p.scopes) hmembers.sparing
    exact Spares.inside (p := { p.inSuper true methods statics with around := _ }) hinside
      (outline_implicitly _ _) hboth.sparing

end Site

variable {p q : Site} {n m : Piece}

theorem Enters.Shift.spares (h : Shift p n q m) (hclosing : q.closing = p.closing)
    (hp : p.Spares) : q.Spares := by
  cases h with
  | same t ht _ haround houtline =>
    exact hp.modifyHead (fun name hname =>
      Scopes.passing_of_ne fun t' ht' => (ht t' ht').ne_reserved hname) hclosing houtline
  | init t e ht hn hm hq =>
    subst hq
    exact hp.modifyHead (fun name hname =>
      Scopes.setStatus_of_ne (ht.ne_reserved hname) false) rfl (Scopes.outline_declare _ t true)
  | scope status scope hready hthis hsuper hscope =>
    have hlength := congrArg List.length (hclosing.symm.trans hscope)
    simp at hlength
  | members t ht hasSuper inner hinner hinside =>
    have hlength := congrArg List.length (hclosing.symm.trans hinside)
    rw [List.length_append, hinner] at hlength
    cases hasSuper <;> simp at hlength

lemma Site.Spares.inClass (h : p.Spares) {name : Token} {superclass : Option Reference}
    (line : Nat) {methods statics : List Function}
    (hwell : (Stmt.classDecl name superclass line methods statics).WellFormed) :
    (p.inClass name superclass methods statics).Spares := by
  refine Spares.inMembers ?_ _ hwell.2.2.1 hwell.2.2.2
  refine h.modifyHead (fun other hother => Scopes.passing_of_ne ?_) rfl
    (p.outline_afterSuperclass name superclass)
  rintro _ ⟨⟩
  exact hwell.1.ne_reserved hother

lemma Enters.spares (h : Enters p n q m) (hn : n.WellFormed) (hp : p.Spares) : q.Spares := by
  have hshift := h.shift hn
  cases h with
  | block => exact hp.inside rfl (sparing_resolveStmts p.around hn)
  | @body routine head params line body =>
    exact Site.Spares.inside (p := { p with around := _ }) hp
      (outline_declareParams ((params.map Params.names).getD []) p.scopes.enter)
      (sparing_resolveStmts _ hn.2.1)
  | @methods name superclass line methods statics => exact hp.inClass line hn
  | @statics name superclass line methods statics =>
    exact (hp.inClass line hn).same rfl (keeping_resolveMembers _ false methods hn.2.2.1 _).outline
  | _ => exact hshift.spares rfl hp

lemma Visits.spares {sources : List String} (hsound : AllSound sources)
    (h : Visits sources p n) : p.Spares := by
  obtain ⟨source, hmem, hreaches⟩ := h
  have htop := Site.sound_top (hsound source hmem)
  induction hreaches with
  | here => exact .nil
  | enter hreaches h' ih => exact h'.spares (hreaches.sound htop).wellFormed ih

end Lox
