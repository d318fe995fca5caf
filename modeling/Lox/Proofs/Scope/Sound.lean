import Lox.Proofs.Scope.Visit

/-! Sound visits: what is known wherever the walk comes in a program without errors. -/

namespace Lox

open Resolver

namespace Piece

def WellFormed : Piece → Prop
  | expr e => e.WellFormed
  | exprs es => allWellFormedExpr es
  | stmt s => s.WellFormed
  | stmts body => allWellFormed body
  | function _ f => f.WellFormed
  | members _ fs => allWellFormedMember fs

def after (around : Surroundings) : Piece → Scopes → Scopes
  | expr e => (resolveExpr around e).after
  | exprs es => (resolveExprs around es).after
  | stmt s => (resolveStmt around s).after
  | stmts body => (resolveStmts around body).after
  | function routine f => (resolveFunction around routine f).after
  | members isStatic fs => (resolveMembers around isStatic fs).after

end Piece

def Covers : List Scope → List (String → Option Bool) → Prop
  | [], [] => True
  | scope :: closing, status :: outer =>
    (∀ name, (status name).isSome → scope.binds name) ∧ Covers closing outer
  | _, _ => False

namespace Site

def leaving (p : Site) (n : Piece) : Scopes := n.after p.around p.scopes

def KnowsReceiver (p : Site) : Prop :=
  p.around.membership ≠ .noClass →
    ∃ depth, Scopes.nearest? "this" p.scopes.outline = some (depth, true) ∧
      (p.around.membership = .subclass →
        Scopes.nearest? "super" p.scopes.outline = some (depth + 1, true))

structure Leaves (p : Site) (σ : Scopes) : Prop where
  clean : Diagnostic.hasError σ.reports = false
  covers : Covers p.closing σ.outline

structure Sound (p : Site) (n : Piece) : Prop where
  wellFormed : n.WellFormed
  leaves : p.Leaves (p.leaving n)
  receiver : p.KnowsReceiver

end Site

/-! Declarations of parameters. -/

def Scopes.declaring (params : List Token) (status : String → Option Bool) (name : String) :
    Option Bool :=
  if name ∈ params.map Token.lexeme then some true else status name

lemma Resolver.outline_declareParams (params : List Token) (σ : Scopes) :
    ((declareParams params).after σ).outline =
      σ.outline.modifyHead (Scopes.declaring params) := by
  induction params generalizing σ with
  | nil =>
    have hnil : Scopes.declaring [] = id := by
      funext status name
      simp [Scopes.declaring]
    rw [hnil, List.modifyHead_id]
    rfl
  | cons param more ih =>
    have hcons : Scopes.declaring more ∘ Scopes.passing (some param) =
        Scopes.declaring (param :: more) := by
      funext status name
      simp only [Function.comp_apply, Scopes.declaring, Scopes.passing, Scopes.setStatus,
        List.map_cons, List.mem_cons]
      by_cases hm : name ∈ more.map Token.lexeme
      · simp [hm]
      · by_cases hp : param.lexeme = name
        · simp [hp]
        · simp [hm, hp, Ne.symm hp]
    have hparam := (declaring_declareReady param false σ).outline
    rw [← hcons, ← List.modifyHead_modifyHead, ← hparam]
    exact ih _

lemma Diagnostic.hasError_of_prefix {ds more : List Diagnostic} (h : ds <+: more)
    (hmore : hasError more = false) : hasError ds = false := by
  obtain ⟨rest, rfl⟩ := h
  rw [hasError, List.any_append] at hmore
  exact (Bool.or_eq_false_iff.mp hmore).1

/-! What is covered stays covered in the parts. -/

lemma Covers.length {closing : List Scope} {outline : List (String → Option Bool)}
    (h : Covers closing outline) : closing.length = outline.length := by
  induction closing generalizing outline with
  | nil =>
    cases outline with
    | nil => rfl
    | cons => cases h
  | cons scope closing ih =>
    cases outline with
    | nil => cases h
    | cons status outer => simp [ih h.2]

lemma Covers.tail {closing : List Scope} {outline : List (String → Option Bool)}
    (h : Covers closing outline) : Covers closing.tail outline.tail := by
  cases outline with
  | nil =>
    cases closing with
    | nil => exact h
    | cons => cases h
  | cons status outer =>
    cases closing with
    | nil => cases h
    | cons scope closing => exact h.2

lemma Covers.getElem? {closing : List Scope} {outline : List (String → Option Bool)}
    (h : Covers closing outline) {i : Nat} {status : String → Option Bool}
    (hi : outline[i]? = some status) :
    ∃ scope, closing[i]? = some scope ∧ ∀ name, (status name).isSome → scope.binds name := by
  induction closing generalizing outline i with
  | nil =>
    cases outline with
    | nil => cases hi
    | cons => cases h
  | cons scope closing ih =>
    cases outline with
    | nil => cases h
    | cons first outer =>
      cases i with
      | zero =>
        cases hi
        exact ⟨scope, rfl, h.1⟩
      | succ i => exact ih h.2 hi

lemma Covers.of_grows {closing : List Scope} {σ τ : Scopes} (h : Covers closing τ.outline)
    (hgrows : σ.Grows τ) : Covers closing σ.outline := by
  have houter := hgrows.outer
  have hlength := hgrows.length
  have hnames := hgrows.names
  cases hσ : σ.outline with
  | nil =>
    rw [hσ] at hlength
    rwa [List.length_eq_zero_iff.mp hlength] at h
  | cons status outer =>
    cases hτ : τ.outline with
    | nil =>
      rw [hσ, hτ] at hlength
      cases hlength
    | cons status' outer' =>
      rw [hσ, hτ, List.tail_cons, List.tail_cons] at houter
      rw [hτ] at h
      cases closing with
      | nil => cases h
      | cons scope closing =>
        refine ⟨fun name hname => h.1 name ?_, houter ▸ h.2⟩
        exact hnames status (by rw [hσ]; rfl) status' (by rw [hτ]; rfl) name hname

namespace Site

variable {p q : Site} {n m : Piece} {σ τ : Scopes}

lemma Leaves.of_grows (h : p.Leaves τ) (hgrows : σ.Grows τ) : p.Leaves σ :=
  ⟨Diagnostic.hasError_of_prefix hgrows.reports h.clean, h.covers.of_grows hgrows⟩

lemma Leaves.of_closing (h : p.Leaves σ) (hq : q.closing = p.closing) : q.Leaves σ :=
  ⟨h.clean, hq ▸ h.covers⟩

theorem Leaves.inside {α : Type} {opening : Resolver Unit} {walk : Resolver α}
    (hopening : Growing opening) (hwalk : Growing walk)
    (h : p.Leaves ((inScope (opening >>= fun _ => walk)).after p.scopes)) :
    (p.inside opening walk).Leaves (walk.after (p.inside opening walk).scopes) := by
  have hgrows := (hopening.bind fun _ => hwalk) p.scopes.enter
  rw [after_inScope] at h
  have hclean := h.clean
  rw [Scopes.reports_leave] at hclean
  refine ⟨hclean, ?_⟩
  have hcovers := h.covers
  rw [Scopes.outline_leave] at hcovers
  have hlength := hgrows.length
  unfold Site.inside
  change Covers (((walk.after (opening.after p.scopes.enter)).stack.headD .empty) :: p.closing)
    (walk.after (opening.after p.scopes.enter)).outline
  change Covers p.closing (walk.after (opening.after p.scopes.enter)).outline.tail at hcovers
  change (walk.after (opening.after p.scopes.enter)).outline.length = _ at hlength
  generalize walk.after (opening.after p.scopes.enter) = τ at *
  unfold Scopes.outline at *
  cases hs : τ.stack with
  | nil =>
    rw [hs] at hlength
    cases hlength
  | cons scope outer =>
    rw [hs] at hcovers
    refine ⟨fun name hname => ?_, hcovers⟩
    rw [List.headD_cons, Scope.binds_eq]
    exact hname

theorem Sound.part (h : p.Sound n) (hwell : m.WellFormed) (hclosing : q.closing = p.closing)
    (hgrows : (q.leaving m).Grows (p.leaving n)) (hreceiver : q.KnowsReceiver) : q.Sound m := by
  exact ⟨hwell, (h.leaves.of_grows hgrows).of_closing hclosing, hreceiver⟩

lemma KnowsReceiver.same {g : (String → Option Bool) → String → Option Bool}
    (h : p.KnowsReceiver)
    (hg : ∀ name ∈ ["this", "super"], ∀ status, g status name = status name)
    (haround : q.around.membership = p.around.membership)
    (houtline : q.scopes.outline = p.scopes.outline.modifyHead g) : q.KnowsReceiver := by
  unfold KnowsReceiver at h ⊢
  rwa [haround, houtline, Scopes.nearest?_modifyHead (hg "this" (by decide)),
    Scopes.nearest?_modifyHead (hg "super" (by decide))]

lemma KnowsReceiver.scope {status : String → Option Bool} (h : p.KnowsReceiver)
    (hthis : status "this" = none) (hsuper : status "super" = none)
    (haround : q.around.membership = p.around.membership)
    (houtline : q.scopes.outline = status :: p.scopes.outline) : q.KnowsReceiver := by
  intro hq
  rw [haround] at hq
  obtain ⟨depth, hfound, hfound'⟩ := h hq
  rw [haround, houtline, Scopes.nearest?_cons_of_none hthis, Scopes.nearest?_cons_of_none hsuper]
  refine ⟨depth + 1, by rw [hfound]; rfl, fun hsub => ?_⟩
  rw [hfound' hsub]
  rfl

lemma afterOperands_keeps (around : Surroundings) {e : Expr} (h : e.WellFormed) (σ : Scopes) :
    ((resolveExprs around e.operands).after σ).Keeps ((resolveExpr around e).after σ) := by
  cases e with
  | literal | get | set | conditional | comma | binary | logical | unary | call | grouping | list
  | invalid => exact .refl _
  | ref | lambda | this | super => exact keeping_resolveExpr around _ h σ
  | assign target value line => exact keeping_find target false _

lemma wellFormed_operands {e : Expr} (h : e.WellFormed) : allWellFormedExpr e.operands := by
  cases e with
  | literal | ref | lambda | this | super | invalid => exact trivial
  | assign => exact ⟨h.2.2, trivial⟩
  | get => exact ⟨h.1, trivial⟩
  | set => exact ⟨h.1, h.2.2, trivial⟩
  | conditional => exact ⟨h.1, h.2.1, h.2.2, trivial⟩
  | comma => exact ⟨h.1, h.2, trivial⟩
  | binary | logical => exact ⟨h.2.1, h.2.2, trivial⟩
  | unary => exact ⟨h.2, trivial⟩
  | call => exact h
  | grouping => exact ⟨h, trivial⟩
  | list => exact h

lemma wellFormed_leading {s : Stmt} {e : Expr} (h : s.WellFormed) (he : s.leading? = some e) :
    e.WellFormed := by
  cases s with
  | expression | print =>
    cases he
    exact h
  | whileLoop =>
    cases he
    exact h.1
  | ifElse keyword c yes no =>
    cases he
    cases no <;> exact h.1
  | _ => cases he

theorem isName_declared {s : Stmt} (h : s.WellFormed) : ∀ t ∈ s.declared?, t.IsName := by
  rintro t ht
  cases s with
  | var name init =>
    cases ht
    cases init with
    | none => exact h
    | some => exact h.1
  | function f =>
    cases ht
    exact h.1
  | classDecl =>
    cases ht
    exact h.1
  | _ => cases ht

end Site

def Scopes.only (name : String) : String → Option Bool := setStatus name true fun _ => none

def Scopes.ofMembers (hasSuper : Bool) (outer : List (String → Option Bool)) :
    List (String → Option Bool) :=
  only "this" :: if hasSuper then only "super" :: outer else outer

lemma Resolver.outline_implicitly (name : String) (σ : Scopes) :
    ((implicitly name).after σ.enter).outline = Scopes.only name :: σ.outline :=
  (Scopes.outline_declareImplicit σ.enter name).trans rfl

namespace Site

lemma outline_inMembers (p : Site) (hasSuper : Bool) (methods statics : List Function) :
    (p.inMembers hasSuper methods statics).scopes.outline =
      Scopes.ofMembers hasSuper p.scopes.outline := by
  cases hasSuper with
  | false => exact outline_implicitly _ _
  | true =>
    rw [Scopes.ofMembers, if_pos rfl, ← outline_implicitly]
    exact outline_implicitly _ _

lemma closing_inMembers (p : Site) (hasSuper : Bool) (methods statics : List Function) :
    ∃ inner, inner.length = (if hasSuper then 2 else 1) ∧
      (p.inMembers hasSuper methods statics).closing = inner ++ p.closing := by
  cases hasSuper with
  | false => exact ⟨[_], rfl, rfl⟩
  | true => exact ⟨[_, _], rfl, rfl⟩

end Site

inductive Enters.Shift (p : Site) (n : Piece) (q : Site) (m : Piece) : Prop where
  | same (t : Option Token) (ht : ∀ t' ∈ t, t'.IsName) (hclosing : q.closing = p.closing)
    (haround : q.around.membership = p.around.membership)
    (houtline : q.scopes.outline = p.scopes.outline.modifyHead (Scopes.passing t))
  | init (t : Token) (e : Expr) (ht : t.IsName) (hn : n = .stmt (.var t (some e)))
    (hm : m = .expr e) (hq : q = p.passed (modify (·.declare t true)))
  | scope (status : String → Option Bool) (scope : Scope) (hready : ∀ name, status name ≠ some false)
    (hthis : status "this" = none) (hsuper : status "super" = none)
    (hclosing : q.closing = scope :: p.closing)
    (haround : q.around.membership = p.around.membership)
    (houtline : q.scopes.outline = status :: p.scopes.outline)
  | members (t : Token) (ht : t.IsName) (hasSuper : Bool) (inner : List Scope)
    (hinner : inner.length = if hasSuper then 2 else 1) (hclosing : q.closing = inner ++ p.closing)
    (haround : q.around.membership = if hasSuper then .subclass else .rootClass)
    (houtline : q.scopes.outline =
      Scopes.ofMembers hasSuper (p.scopes.outline.modifyHead (Scopes.passing (some t))))

lemma Resolver.Keeping.shift {p q : Site} {n m : Piece} {α : Type} {walk : Resolver α}
    (h : Keeping walk) (hq : q = p.passed walk) : Enters.Shift p n q m := by
  subst hq
  exact .same none (fun _ ht => nomatch ht) rfl rfl (h p.scopes).declares.outline

lemma Enters.Shift.refl (p : Site) (n m : Piece) : Enters.Shift p n p m :=
  .same none (fun _ ht => nomatch ht) rfl rfl (Scopes.Keeps.refl p.scopes).declares.outline

lemma Site.outline_afterSuperclass (p : Site) (name : Token) (superclass : Option Reference) :
    (p.afterSuperclass name superclass).scopes.outline =
      p.scopes.outline.modifyHead (Scopes.passing (some name)) :=
  (keeping_resolveSuperclass name superclass _).outline.trans
    (declaring_declareReady name true p.scopes).outline

lemma Enters.shift {p q : Site} {n m : Piece} (h : Enters p n q m) (hn : n.WellFormed) :
    Shift p n q m := by
  cases h with
  | operands | headExpr | lambda | leading | headStmt | headMember => exact .refl _ _ _
  | tailExprs => exact (keeping_resolveExpr p.around _ hn.1).shift rfl
  | yes | loopBody =>
    exact (keeping_resolveExpr p.around _ (Site.wellFormed_leading hn rfl)).shift rfl
  | no =>
    exact ((keeping_resolveExpr p.around _ hn.1).bind fun _ =>
      (declaring_resolveStmt p.around _ hn.2.1.1).branch hn.2.1.2).shift rfl
  | returned => exact (keeping_checkReturn _ _ _).shift rfl
  | tailMembers => exact (keeping_resolveFunction p.around _ _ hn.1).shift rfl
  | tailStmts =>
    exact .same _ (Site.isName_declared hn.1) rfl rfl
      (declaring_resolveStmt p.around _ hn.1 p.scopes).outline
  | named =>
    refine .same (some _) ?_ rfl rfl (declaring_declareReady _ true p.scopes).outline
    rintro _ ⟨⟩
    exact hn.1
  | init => exact .init _ _ hn.1 rfl rfl rfl
  | block => exact .scope (fun _ => none) _ (fun _ hf => nomatch hf) rfl rfl rfl rfl rfl
  | @body routine head params line body =>
    have houtline := outline_declareParams ((params.map Params.names).getD []) p.scopes.enter
    have hnames : ∀ t ∈ (params.map Params.names).getD [], t.IsName := by
      cases params with
      | none => exact fun t ht => absurd ht List.not_mem_nil
      | some params => exact hn.1 params rfl
    have hreserved : ∀ name ∈ ["this", "super"],
        Scopes.declaring ((params.map Params.names).getD []) (fun _ => none) name = none := by
      intro name hname
      rw [Scopes.declaring, if_neg]
      intro hmem
      obtain ⟨t, ht, rfl⟩ := List.mem_map.mp hmem
      simp only [List.mem_cons, List.not_mem_nil, or_false] at hname
      exact hname.elim (hnames t ht).2.1 (hnames t ht).2.2
    refine .scope _ _ (fun name hname => ?_) (hreserved "this" (by decide))
      (hreserved "super" (by decide)) rfl rfl houtline
    unfold Scopes.declaring at hname
    split at hname <;> cases hname
  | @methods name superclass line methods statics =>
    obtain ⟨inner, hinner, hclosing⟩ := (p.afterSuperclass name superclass).closing_inMembers
      (p.hasSuper name superclass) methods statics
    refine .members name hn.1 (p.hasSuper name superclass) inner hinner hclosing rfl ?_
    rw [← p.outline_afterSuperclass name superclass]
    exact Site.outline_inMembers _ _ _ _
  | @statics name superclass line methods statics =>
    obtain ⟨inner, hinner, hclosing⟩ := (p.afterSuperclass name superclass).closing_inMembers
      (p.hasSuper name superclass) methods statics
    refine .members name hn.1 (p.hasSuper name superclass) inner hinner hclosing rfl ?_
    rw [← p.outline_afterSuperclass name superclass]
    exact (keeping_resolveMembers _ false methods hn.2.2.1 _).outline.trans
      (Site.outline_inMembers _ _ _ _)

lemma Token.IsName.ne_reserved {t : Token} (h : t.IsName) {name : String}
    (hname : name ∈ ["this", "super"]) : t.lexeme ≠ name := by
  rintro rfl
  simp only [List.mem_cons, List.not_mem_nil, or_false] at hname
  exact hname.elim h.2.1 h.2.2

lemma Enters.Shift.receiver {p q : Site} {n m : Piece} (h : Shift p n q m)
    (hp : p.KnowsReceiver) : q.KnowsReceiver := by
  cases h with
  | same t ht hclosing haround houtline =>
    exact hp.same (fun name hname status =>
      Scopes.passing_of_ne (fun t' ht' => (ht t' ht').ne_reserved hname) status) haround houtline
  | init t e ht hn hm hq =>
    subst hq
    exact hp.same (fun name hname status =>
      Scopes.setStatus_of_ne (ht.ne_reserved hname) false status) rfl
      (Scopes.outline_declare p.scopes t true)
  | scope status scope hready hthis hsuper hclosing haround houtline =>
    exact hp.scope hthis hsuper haround houtline
  | members t ht hasSuper inner hinner hclosing haround houtline =>
    intro _
    rw [houtline, haround]
    have hthis : Scopes.nearest? "this" (Scopes.ofMembers hasSuper
        (p.scopes.outline.modifyHead (Scopes.passing (some t)))) = some (0, true) :=
      Scopes.nearest?_cons_of_some rfl
    refine ⟨0, hthis, fun hsub => ?_⟩
    cases hasSuper with
    | false => cases hsub
    | true =>
      rw [Scopes.ofMembers, Scopes.nearest?_cons_of_none rfl, if_pos rfl,
        Scopes.nearest?_cons_of_some rfl]
      rfl

lemma Resolver.keeping_bothMembers (around : Surroundings) {methods statics : List Function}
    (hm : allWellFormedMember methods) (hs : allWellFormedMember statics) :
    Keeping (bothMembers around methods statics) :=
  (keeping_resolveMembers around false methods hm).bind fun _ =>
    (keeping_resolveMembers around true statics hs).bind fun _ => keeping_pure _

namespace Site

lemma inMembers_leaves {p : Site} {hasSuper : Bool} {methods statics : List Function}
    (hm : allWellFormedMember methods) (hs : allWellFormedMember statics)
    (h : p.Leaves ((inMemberScopes hasSuper
      (bothMembers (p.classSurroundings hasSuper) methods statics)).after p.scopes)) :
    (p.inMembers hasSuper methods statics).Leaves
      ((bothMembers (p.classSurroundings hasSuper) methods statics).after
        (p.inMembers hasSuper methods statics).scopes) := by
  have hboth := (keeping_bothMembers (p.classSurroundings hasSuper) hm hs).growing
  have hthis := growing_declareImplicit "this"
  cases hasSuper with
  | false => exact Leaves.inside hthis hboth (h.of_closing rfl)
  | true =>
    have hsuper := h.inside (growing_declareImplicit "super")
      (hthis.bind fun _ => hboth).inScope.growing
    exact Leaves.inside hthis hboth (hsuper.of_closing rfl)

lemma inClass_leaves {p : Site} {name : Token} {superclass : Option Reference} {line : Nat}
    {methods statics : List Function} (hm : allWellFormedMember methods)
    (hs : allWellFormedMember statics)
    (h : p.Leaves (p.leaving (.stmt (.classDecl name superclass line methods statics)))) :
    let q := p.inClass name superclass methods statics
    q.Leaves ((bothMembers q.around methods statics).after q.scopes) :=
  (inMembers_leaves (p := p.afterSuperclass name superclass) hm hs (h.of_closing rfl)).of_closing rfl

end Site

theorem Piece.grows (around : Surroundings) {n : Piece} (h : n.WellFormed) (σ : Scopes) :
    σ.Grows (n.after around σ) := by
  cases n with
  | expr e => exact (keeping_resolveExpr around e h σ).grows
  | exprs es => exact (keeping_resolveExprs around es h σ).grows
  | stmt s => exact (declaring_resolveStmt around s h σ).grows
  | stmts body => exact growing_resolveStmts around body h σ
  | function routine f => exact (keeping_resolveFunction around routine f h σ).grows
  | members isStatic fs => exact (keeping_resolveMembers around isStatic fs h σ).grows

lemma Site.Sound.covers {p : Site} {n : Piece} (h : p.Sound n) :
    Covers p.closing p.scopes.outline :=
  h.leaves.covers.of_grows (n.grows p.around h.wellFormed p.scopes)

theorem Enters.sound {p q : Site} {n m : Piece} (h : Enters p n q m) (hp : p.Sound n) :
    q.Sound m := by
  have hn := hp.wellFormed
  have hreceiver := (h.shift hn).receiver hp.receiver
  cases h with
  | operands =>
    exact hp.part (Site.wellFormed_operands hn) rfl
      (Site.afterOperands_keeps p.around hn p.scopes).grows hreceiver
  | headExpr =>
    have hrest := (keeping_resolveExprs p.around _ hn.2).bind fun es => keeping_pure es
    exact hp.part hn.1 rfl (hrest _).grows hreceiver
  | tailExprs => exact hp.part hn.2 rfl (.refl _) hreceiver
  | lambda => exact hp.part hn rfl (.refl _) hreceiver
  | @leading s e he =>
    refine hp.part (Site.wellFormed_leading hn he) rfl (Scopes.Keeps.grows ?_) hreceiver
    cases s with
    | expression | print =>
      cases he
      exact .refl _
    | ifElse keyword c yes no =>
      cases he
      cases no with
      | none =>
        exact (((declaring_resolveStmt p.around _ hn.2.1).branch hn.2.2).bind fun _ =>
          keeping_pure _) _
      | some no =>
        exact (((declaring_resolveStmt p.around _ hn.2.1.1).branch hn.2.1.2).bind fun _ =>
          ((declaring_resolveStmt p.around _ hn.2.2.1).branch hn.2.2.2).bind fun _ =>
            keeping_pure _) _
    | whileLoop =>
      cases he
      exact (((declaring_resolveStmt p.around _ hn.2.1).branch hn.2.2).bind fun _ =>
        keeping_pure _) _
    | _ => cases he
  | @init name e =>
    have hinit := keeping_resolveExpr p.around e hn.2 (p.scopes.declare name true)
    exact hp.part hn.2 rfl hinit.declares_define.grows hreceiver
  | block =>
    have hwalk := growing_resolveStmts p.around _ hn
    have hopening : Growing (pure () : Resolver Unit) := (keeping_pure ()).growing
    exact ⟨hn, hp.leaves.inside hopening hwalk, hreceiver⟩
  | @yes keyword c yes no =>
    cases no with
    | none => exact hp.part hn.2.1 rfl (.refl _) hreceiver
    | some no =>
      have hrest := ((declaring_resolveStmt p.around _ hn.2.2.1).branch hn.2.2.2).bind fun no =>
        keeping_pure no
      exact hp.part hn.2.1.1 rfl (hrest _).grows hreceiver
  | no => exact hp.part hn.2.2.1 rfl (.refl _) hreceiver
  | loopBody => exact hp.part hn.2.1 rfl (.refl _) hreceiver
  | returned => exact hp.part hn rfl (.refl _) hreceiver
  | named => exact hp.part hn.2 rfl (.refl _) hreceiver
  | methods =>
    have hleaves := Site.inClass_leaves hn.2.2.1 hn.2.2.2 hp.leaves
    have hrest := fun around =>
      (keeping_resolveMembers around true _ hn.2.2.2).bind fun fs => keeping_pure fs
    exact ⟨hn.2.2.1, hleaves.of_grows (hrest _ _).grows, hreceiver⟩
  | statics =>
    have hleaves := Site.inClass_leaves hn.2.2.1 hn.2.2.2 hp.leaves
    exact ⟨hn.2.2.2, hleaves.of_closing rfl, hreceiver⟩
  | headStmt =>
    have hrest := (growing_resolveStmts p.around _ hn.2).bind fun body => (keeping_pure body).growing
    exact hp.part hn.1 rfl (hrest _) hreceiver
  | tailStmts => exact hp.part hn.2 rfl (.refl _) hreceiver
  | @body routine head params line body =>
    have hwalk := growing_resolveStmts { p.around with routine } body hn.2.1
    have hleaves := Site.Leaves.inside (growing_declareParams _) hwalk (hp.leaves.of_closing rfl)
    exact ⟨hn.2.1, hleaves.of_closing rfl, hreceiver⟩
  | @headMember isStatic f fs =>
    have hrest := (keeping_resolveMembers p.around isStatic fs hn.2).bind fun fs => keeping_pure fs
    exact hp.part hn.1 rfl (hrest _).grows hreceiver
  | tailMembers => exact hp.part hn.2 rfl (.refl _) hreceiver

lemma Reaches.sound {p q : Site} {n m : Piece} (h : Reaches p n q m) (hp : p.Sound n) :
    q.Sound m := by
  induction h with
  | here => exact hp
  | enter h h' ih => exact h'.sound ih

theorem Program.compile_body {source : String} (h : (compile source).hasError = false) :
    (ofSource source).hasError = false ∧
      (compile source).body = Site.top.stmts (ofSource source).body ∧
      Diagnostic.hasError (Site.top.leaving (.stmts (ofSource source).body)).reports = false := by
  cases herror : (ofSource source).hasError with
  | true =>
    rw [compile, resolveIfSound, if_pos herror, herror] at h
    cases h
  | false =>
    rw [compile, resolveIfSound, if_neg (by rw [herror]; exact Bool.false_ne_true)] at h ⊢
    refine ⟨rfl, rfl, ?_⟩
    have hreports : Diagnostic.hasError (Resolver.program (ofSource source).body).2 = false := by
      rw [hasError, Diagnostic.hasError, resolve, List.any_append] at h
      exact (Bool.or_eq_false_iff.mp h).2
    change Diagnostic.hasError (Scopes.reportUnused _).reports = false at hreports
    rw [Diagnostic.hasError, Scopes.reportUnused, List.any_append] at hreports
    exact (Bool.or_eq_false_iff.mp hreports).1

lemma Site.sound_top {source : String} (h : (Program.compile source).hasError = false) :
    top.Sound (.stmts (Program.ofSource source).body) := by
  obtain ⟨hread, -, hclean⟩ := Program.compile_body h
  have hwell := (Program.wellFormed hread).1
  have hgrows := growing_resolveStmts outermost _ hwell .start
  refine ⟨hwell, ⟨hclean, ?_⟩, fun hclass => absurd rfl hclass⟩
  have houtline : (top.leaving (.stmts (Program.ofSource source).body)).outline = [] :=
    List.length_eq_zero_iff.mp hgrows.length
  rw [houtline]
  exact trivial

def AllSound (sources : List String) : Prop :=
  ∀ source ∈ sources, (Program.compile source).hasError = false

lemma Visits.sound {sources : List String} (hs : AllSound sources) {p : Site} {n : Piece}
    (h : Visits sources p n) : p.Sound n := by
  obtain ⟨source, hmem, hreaches⟩ := h
  exact hreaches.sound (Site.sound_top (hs source hmem))

lemma Visits.enter {sources : List String} {p q : Site} {n m : Piece} (h : Visits sources p n)
    (h' : Enters p n q m) : Visits sources q m := by
  obtain ⟨source, hmem, hreaches⟩ := h
  exact ⟨source, hmem, hreaches.enter h'⟩

/-! Names that are not ready. -/

lemma Scopes.unready_of_modifyHead {g : (String → Option Bool) → String → Option Bool}
    {outline : List (String → Option Bool)} {name : String}
    (hg : ∀ status, g status name = some false → status name = some false) {i : Nat}
    {status : String → Option Bool} (hi : (outline.modifyHead g)[i]? = some status)
    (hname : status name = some false) :
    ∃ old, outline[i]? = some old ∧ old name = some false := by
  cases outline with
  | nil => cases hi
  | cons first outer =>
    cases i with
    | zero =>
      cases hi
      exact ⟨first, rfl, hg first hname⟩
    | succ i => exact ⟨status, hi, hname⟩

lemma Scopes.unready_setStatus {name other : String} {ready : Bool}
    {status : String → Option Bool} (h : setStatus other ready status name = some false) :
    (other = name ∧ ready = false) ∨ status name = some false := by
  unfold setStatus at h
  split at h
  · next heq =>
    cases h
    exact .inl ⟨heq, rfl⟩
  · exact .inr h

lemma Scopes.unready_passing {name : String} {t : Option Token} {status : String → Option Bool}
    (h : passing t status name = some false) : status name = some false := by
  cases t with
  | none => exact h
  | some t =>
    rcases unready_setStatus h with ⟨-, hready⟩ | h
    · cases hready
    · exact h

lemma Scopes.unready_ofMembers {outer : List (String → Option Bool)} {hasSuper : Bool}
    {i : Nat} {status : String → Option Bool} {name : String}
    (hi : (ofMembers hasSuper outer)[i]? = some status) (hname : status name = some false) :
    ∃ j, i = (if hasSuper then 2 else 1) + j ∧ outer[j]? = some status := by
  have honly : ∀ other, only other name ≠ some false := by
    intro other h
    rcases unready_setStatus h with ⟨-, h⟩ | h <;> cases h
  cases i with
  | zero =>
    cases hi
    exact absurd hname (honly _)
  | succ i =>
    cases hasSuper with
    | false => exact ⟨i, Nat.add_comm i 1, hi⟩
    | true =>
      cases i with
      | zero =>
        cases hi
        exact absurd hname (honly _)
      | succ i => exact ⟨i, Nat.add_comm i 2, hi⟩

theorem Reaches.initializing {p q : Site} {n m : Piece} (h : Reaches p n q m) (hp : p.Sound n)
    (htop : p.scopes.outline = []) {i : Nat} {status : String → Option Bool} {name : String}
    (hi : q.scopes.outline[i]? = some status) (hname : status name = some false) :
    ∃ (r : Site) (t : Token) (e : Expr), Reaches p n r (.stmt (.var t (some e))) ∧
      t.lexeme = name ∧ Reaches (r.passed (modify (·.declare t true))) (.expr e) q m ∧
      r.closing = q.closing.drop i := by
  induction h generalizing i status with
  | here =>
    rw [htop] at hi
    cases hi
  | @enter q r m o h h' ih =>
    -- The variable has been declared before, unless its initializer is entered just now.
    suffices hold : (∃ j old, q.scopes.outline[j]? = some old ∧ old name = some false ∧
        q.closing.drop j = r.closing.drop i) ∨
        ∃ t e, t.lexeme = name ∧ m = .stmt (.var t (some e)) ∧ o = .expr e ∧ i = 0 ∧
          r = q.passed (modify (·.declare t true)) by
      rcases hold with ⟨j, old, hj, hold, hdrop⟩ | ⟨t, e, ht, rfl, rfl, rfl, rfl⟩
      · obtain ⟨s, t, e, hs, ht, hreaches, hclosing⟩ := ih hj hold
        exact ⟨s, t, e, hs, ht, hreaches.enter h', hclosing.trans hdrop⟩
      · exact ⟨q, t, e, h, ht, .here, rfl⟩
    cases h'.shift (h.sound hp).wellFormed with
    | same t ht hclosing haround houtline =>
      rw [houtline] at hi
      obtain ⟨old, hold, hname⟩ :=
        Scopes.unready_of_modifyHead (fun _ => Scopes.unready_passing) hi hname
      exact .inl ⟨i, old, hold, hname, by rw [hclosing]⟩
    | init t e ht hn hm hq =>
      subst hq
      change (Scopes.declare q.scopes t true).outline[i]? = some status at hi
      rw [Scopes.outline_declare] at hi
      by_cases hfresh : t.lexeme = name ∧ i = 0
      · exact .inr ⟨t, e, hfresh.1, hn, hm, hfresh.2, rfl⟩
      · left
        cases ho : q.scopes.outline with
        | nil =>
          rw [ho] at hi
          cases hi
        | cons first outer =>
          rw [ho] at hi
          cases i with
          | succ i => exact ⟨i + 1, status, hi, hname, rfl⟩
          | zero =>
            cases hi
            rcases Scopes.unready_setStatus hname with ⟨heq, -⟩ | hname
            · exact absurd ⟨heq, rfl⟩ hfresh
            · exact ⟨0, first, rfl, hname, rfl⟩
    | scope new scope hready hthis hsuper hclosing haround houtline =>
      rw [houtline] at hi
      cases i with
      | zero =>
        cases hi
        exact absurd hname (hready name)
      | succ i => exact .inl ⟨i, status, hi, hname, by rw [hclosing, List.drop_succ_cons]⟩
    | members t ht hasSuper inner hinner hclosing haround houtline =>
      rw [houtline] at hi
      obtain ⟨j, hj, hi⟩ := Scopes.unready_ofMembers hi hname
      obtain ⟨old, hold, hname⟩ :=
        Scopes.unready_of_modifyHead (fun _ => Scopes.unready_passing) hi hname
      refine .inl ⟨j, old, hold, hname, ?_⟩
      rw [hclosing, hj, ← hinner, List.drop_length_add_append]

end Lox
