import Lox.Proofs.Scope.Marks
import Lox.Proofs.Scope.Walk

/-! Visits beside walks. A visit mirrors a walk over the program if it comes to an end in every
state, with the tree of what the walk gives, with the scopes and reports of the walk, and inside of
what it was inside of before. Every step of a visitor mirrors one of the walk: a name is marked as
ready only where it has been declared, and a scope is left only after it has been entered. -/

namespace Lox

namespace Progress

def scopes (v : Progress) : Scopes := ⟨v.stack, v.reports, v.unused.filterMap Binding.token⟩

def around (v : Progress) : Surroundings := ⟨v.setting.routine, v.membership⟩

end Progress

protected lemma Resolver.get_bind {α : Type} (next : Scopes → Resolver α) (σ : Scopes) :
    (get >>= next) σ = next σ σ := rfl

namespace Visitor

open Resolver

variable {α β γ δ : Type} {S : List Scope → List Scope → Prop} {v w : Progress}

lemma get_bind (next : Progress → Visitor α) (v : Progress) : (get >>= next) v = next v v := rfl

lemma modify_bind (change : Progress → Progress) (next : Unit → Visitor α) (v : Progress) :
    (modify change >>= next) v = next () (change v) := rfl

lemma bind_of_ok {visit : Visitor α} {x : α} (h : visit v = .ok x w) (next : α → Visitor β) :
    (visit >>= next) v = next x w := by
  simp only [bind, EStateM.bind, h]

structure Arrives (S : List Scope → List Scope → Prop) (v : Progress) (σ : Scopes)
    (setting : Setting) (membership : Membership) (w : Progress) : Prop where
  scopes : w.scopes = σ
  setting : w.setting = setting
  membership : w.membership = membership
  stack : S v.stack w.stack
  unused : Reportable v.unused w.unused

def Gives (S : List Scope → List Scope → Prop) (v : Progress) (visit : Visitor α) (x : α)
    (σ : Scopes) (setting : Setting) (membership : Membership) : Prop :=
  ∃ w, visit v = .ok x w ∧ Arrives S v σ setting membership w

def Mirrors (S : List Scope → List Scope → Prop) (f : β → α) (visit : Visitor α)
    (walk : Surroundings → Resolver β) : Prop :=
  ∀ v : Progress, Gives S v visit (f ((walk v.around).result v.scopes))
    ((walk v.around).after v.scopes) v.setting v.membership

section

variable {x : α} {y : β} {σ τ : Scopes} {s s' : Setting} {m m' : Membership}
  {visit : Visitor α} {next : α → Visitor β}

protected lemma Gives.pure [IsPreorder _ S] (v : Progress) (x : α) :
    Gives S v (pure x) x v.scopes v.setting v.membership :=
  ⟨v, rfl, rfl, rfl, rfl, refl v.stack, .refl _⟩

lemma Gives.congr {visit' : Visitor α} (h : Gives S v visit x σ s m)
    (hvisit : visit' v = visit v) : Gives S v visit' x σ s m := by
  obtain ⟨w, hw⟩ := h
  exact ⟨w, hvisit.trans hw.1, hw.2⟩

theorem Gives.followed {T U : List Scope → List Scope → Prop}
    (hU : ∀ {l l' l''}, S l l' → T l' l'' → U l l'') (h : Gives S v visit x σ s m)
    (h' : ∀ w, Arrives S v σ s m w → Gives T w (next x) y τ s' m') :
    Gives U v (visit >>= next) y τ s' m' := by
  obtain ⟨w, hvisit, hw⟩ := h
  obtain ⟨u, hnext, hu⟩ := h' w hw
  exact ⟨u, (bind_of_ok hvisit next).trans hnext, hu.scopes, hu.setting, hu.membership,
    hU hw.stack hu.stack, hw.unused.trans hu.unused⟩

protected lemma Gives.bind [IsPreorder _ S] (h : Gives S v visit x σ s m)
    (h' : ∀ w, Arrives S v σ s m w → Gives S w (next x) y τ s' m') :
    Gives S v (visit >>= next) y τ s' m' := h.followed (IsTrans.trans _ _ _) h'

lemma Gives.andThen [IsPreorder _ S] {step : Visitor Unit} {visit : Visitor β}
    {g : Scopes → Scopes} (h : Gives S v step () σ s m)
    (h' : ∀ w, Gives S w visit y (g w.scopes) w.setting w.membership) :
    Gives S v (step >>= fun _ => visit) y (g σ) s m := by
  refine h.bind fun w hw => ?_
  rw [← hw.scopes, ← hw.setting, ← hw.membership]
  exact h' w

protected theorem Arrives.pure [IsPreorder _ S] {T : List Scope → List Scope → Prop}
    (hw : Arrives T v σ s m w) (x : α) : Gives S w (pure x) x σ s m := by
  rw [← hw.scopes, ← hw.setting, ← hw.membership]
  exact .pure w x

lemma Gives.grown (h : Gives Steady v visit x σ s m) : Gives Grown v visit x σ s m := by
  obtain ⟨w, hvisit, hw⟩ := h
  exact ⟨w, hvisit, hw.scopes, hw.setting, hw.membership, hw.stack.grown, hw.unused⟩

end

def InnermostBinds (name : String) (l : List Scope) : Prop := ∀ s ∈ l.head?, s.binds name = true

lemma InnermostBinds.steady {name : String} {l l' : List Scope} (h : InnermostBinds name l)
    (hl : Steady l l') : InnermostBinds name l' := by
  cases hl with
  | nil => exact nofun
  | cons hs _ =>
    intro t ht
    cases ht
    rw [hs.binds]
    exact h _ rfl

lemma innermostBinds_declare (σ : Scopes) (name : Token) (tracked : Bool) :
    InnermostBinds name.lexeme (σ.declare name tracked).stack := by
  have hput : ∀ τ : Scopes, InnermostBinds name.lexeme
      (τ.updateInnermost (·.put name.lexeme ⟨some name, false, false, tracked⟩)).stack := by
    intro τ s hs
    unfold Scopes.updateInnermost at hs
    split at hs
    · cases hs
      exact Scope.binds_put_self _ _ _
    · next hempty =>
      rw [hempty] at hs
      cases hs
  exact hput _

lemma gives_report (v : Progress) (t : Token) (problem : Problem) :
    Gives Steady v (report t problem) () (v.scopes.report t problem) v.setting v.membership :=
  ⟨_, rfl, rfl, rfl, rfl, Steady.refl _, .refl _⟩

lemma gives_setMembership (v : Progress) (membership : Membership) :
    Gives Steady v (setMembership membership) () v.scopes v.setting membership :=
  ⟨_, rfl, rfl, rfl, rfl, Steady.refl _, .refl _⟩

lemma scopes_changeInnermost (v : Progress) (f : Scope → Scope) :
    Progress.scopes { v with stack := v.stack.modifyHead f } = v.scopes.updateInnermost f := by
  unfold Progress.scopes Scopes.updateInnermost
  cases v.stack <;> rfl

lemma gives_changeInnermost (v : Progress) {f : Scope → Scope}
    (hf : ∀ s, Scope.Named s → Scope.Named (f s)) :
    Gives Grown v (changeInnermost f) () (v.scopes.updateInnermost f) v.setting v.membership :=
  ⟨_, rfl, scopes_changeInnermost v f, rfl, rfl, grown_modifyHead hf _, .refl _⟩

lemma scopes_declare (σ : Scopes) (name : Token) (tracked : Bool) :
    σ.declare name tracked =
      (if (σ.innermost? name.lexeme).isSome then σ.report name .declaredTwice
        else σ).updateInnermost (·.put name.lexeme ⟨some name, false, false, tracked⟩) := rfl

lemma gives_declare (v : Progress) (name : Token) (tracked : Bool) :
    Gives Grown v (declare name tracked) () (v.scopes.declare name tracked) v.setting
      v.membership := by
  have hput := fun w => gives_changeInnermost w fun s hs =>
    hs.put name.lexeme (b := ⟨some name, false, false, tracked⟩) fun _ => rfl
  cases hv : v.stack with
  | nil =>
    have hnone : v.scopes.declare name tracked = v.scopes := by
      simp [Scopes.declare, Scopes.innermost?, Scopes.updateInnermost, Progress.scopes, hv]
    rw [hnone]
    refine (Gives.pure v ()).congr ?_
    simp only [declare, get_bind, hv]
  | cons scope outer =>
    have hinnermost : (v.scopes.innermost? name.lexeme).isSome = scope.binds name.lexeme := by
      simp [Scopes.innermost?, Progress.scopes, hv, Table.binds]
    rw [scopes_declare, hinnermost]
    -- The new declaration takes the place of an earlier one, which is reported before.
    by_cases h : scope.binds name.lexeme = true
    · rw [if_pos h]
      have hreport := (gives_report v name .declaredTwice).grown
      refine (hreport.andThen (g := (·.updateInnermost _)) hput).congr ?_
      simp only [declare, get_bind, hv, h]
      rfl
    · rw [if_neg h]
      refine (hput v).congr ?_
      simp only [declare, get_bind, hv, h]
      rfl

lemma gives_define {name : Token} (h : InnermostBinds name.lexeme v.stack) :
    Gives Grown v (define name) () (v.scopes.define name) v.setting v.membership := by
  have hready := gives_changeInnermost v fun s hs => hs.ready name.lexeme
  cases hv : v.stack with
  | nil =>
    have hnone : v.scopes.define name = v.scopes := by
      simp [Scopes.define, Scopes.updateInnermost, Progress.scopes, hv]
    rw [hnone]
    refine (Gives.pure v ()).congr ?_
    simp only [define, get_bind, hv]
  | cons scope outer =>
    have hbinds : scope.binds name.lexeme = true := h scope (by rw [hv]; rfl)
    refine hready.congr ?_
    simp only [define, get_bind, hv, hbinds]
    rfl

example (name : Token) (v : Progress) :
    define name { v with stack := [.empty] } =
      .error (.undeclared name.lexeme) { v with stack := [.empty] } := rfl

section

variable {f : β → α} {g : δ → γ} {visit : Visitor α} {walk : Surroundings → Resolver β}
  {next : α → Visitor γ} {next' : Surroundings → β → Resolver δ}

protected lemma Mirrors.pure [IsPreorder _ S] (y : β) :
    Mirrors S f (pure (f y)) (fun _ => pure y) :=
  fun v => .pure v (f y)

theorem Mirrors.goesOn (h : Mirrors S f visit walk) {T : List Scope → List Scope → Prop}
    {σ : Scopes} {s : Setting} {m : Membership} (hw : Arrives T v σ s m w) :
    Gives S w visit (f ((walk ⟨s.routine, m⟩).result σ)) ((walk ⟨s.routine, m⟩).after σ) s m := by
  rw [← hw.scopes, ← hw.setting, ← hw.membership]
  exact h w

protected lemma Mirrors.bind [IsPreorder _ S] (h : Mirrors S f visit walk)
    (h' : ∀ y, (∃ around σ, y = (walk around).result σ) →
      Mirrors S g (next (f y)) (fun around => next' around y)) :
    Mirrors S g (visit >>= next) (fun around => walk around >>= next' around) :=
  fun v => (h v).bind fun _ hw => (h' _ ⟨v.around, v.scopes, rfl⟩).goesOn hw

lemma Mirrors.andThen [IsPreorder _ S] {step : Visitor Unit}
    {step' : Surroundings → Resolver Unit} (h : Mirrors S id step step')
    (h' : Mirrors S f visit walk) :
    Mirrors S f (step >>= fun _ => visit) (fun around => step' around >>= fun _ => walk around) :=
  h.bind fun _ _ => h'

theorem Mirrors.gives {visit' : Visitor α} {walk' : Resolver β} (h : Mirrors S f visit walk)
    (v : Progress) (hvisit : visit' v = visit v)
    (hwalk : walk' v.scopes = walk v.around v.scopes) :
    Gives S v visit' (f (walk'.result v.scopes)) (walk'.after v.scopes) v.setting v.membership := by
  unfold Resolver.result Resolver.after
  rw [hwalk]
  exact (h v).congr hvisit

lemma Mirrors.grown (h : Mirrors Steady f visit walk) : Mirrors Grown f visit walk :=
  fun v => (h v).grown

end

lemma mirrors_report (t : Token) (problem : Problem) :
    Mirrors Steady id (report t problem) (fun _ => Resolver.report t problem) :=
  fun v => gives_report v t problem

lemma mirrors_markUsed (depth : Nat) (name : String) :
    Mirrors Steady id
      (modify fun v =>
        { v with stack := v.stack.modify depth (·.update name fun b => { b with used := true }) })
      (fun _ => modify (·.markUsed depth name)) :=
  fun v => ⟨_, rfl, rfl, rfl, rfl, steady_modify v.stack depth name, .refl _⟩

lemma mirrors_find (target : Reference) (isRead : Bool) :
    Mirrors Steady Reference.depth (find target isRead) (fun _ => Resolver.find target isRead) := by
  intro v
  have hdepth : v.scopes.depth? target.name.lexeme =
      v.stack.findIdx? (·.binds target.name.lexeme) := rfl
  cases hfound : v.stack.findIdx? (·.binds target.name.lexeme) with
  | none =>
    refine (Mirrors.pure target).gives v ?_ ?_
    · simp only [find, get_bind, hfound]
    · simp only [Resolver.find, Resolver.get_bind, hdepth, hfound]
  | some depth =>
    have hdone : Mirrors Steady Reference.depth (pure (some depth))
        (fun _ => pure { target with depth := some depth }) := Mirrors.pure _
    cases isRead with
    | false =>
      refine hdone.gives v ?_ ?_
      · simp only [find, get_bind, hfound]
        rfl
      · simp only [Resolver.find, Resolver.get_bind, hdepth, hfound]
        rfl
    | true =>
      refine ((mirrors_markUsed depth target.name.lexeme).andThen hdone).gives v ?_ ?_
      · simp only [find, get_bind, hfound]
        rfl
      · simp only [Resolver.find, Resolver.get_bind, hdepth, hfound]
        rfl

lemma mirrors_readName (target : Reference) :
    Mirrors Steady Reference.depth (readName target) (fun _ => Resolver.readName target) := by
  intro v
  have hfind := mirrors_find target true
  have hinnermost : v.stack.head?.bind (·.find? target.name.lexeme) =
      v.scopes.innermost? target.name.lexeme := rfl
  -- Only a name that is not ready yet is reported before it is looked for.
  cases hb : v.scopes.innermost? target.name.lexeme with
  | none =>
    refine hfind.gives v ?_ ?_
    · simp only [readName, get_bind, hinnermost, hb]
    · simp only [Resolver.readName, Resolver.get_bind, hb]
  | some b =>
    cases hready : b.ready with
    | true =>
      refine hfind.gives v ?_ ?_
      · simp only [readName, get_bind, hinnermost, hb, hready]
        rfl
      · simp only [Resolver.readName, Resolver.get_bind, hb, hready]
        rfl
    | false =>
      refine ((mirrors_report target.name .readInInitializer).andThen hfind).gives v ?_ ?_
      · simp only [readName, get_bind, hinnermost, hb, hready]
        rfl
      · simp only [Resolver.readName, Resolver.get_bind, hb, hready]
        rfl

lemma mirrors_refuse (target : Reference) (problem : Problem) :
    Mirrors Steady Reference.depth
      (do
        report target.name problem
        return target.depth)
      (fun _ => do
        Resolver.report target.name problem
        return target) :=
  (mirrors_report target.name problem).andThen (.pure target)

lemma mirrors_readThis (target : Reference) :
    Mirrors Steady Reference.depth (readThis target)
      (fun around => Resolver.readThis around target) := by
  rintro ⟨stack, reports, unused, setting, membership⟩
  cases membership with
  | noClass => exact (mirrors_refuse target .thisOutsideClass).gives _ rfl rfl
  | rootClass | subclass => exact (mirrors_find target true).gives _ rfl rfl

lemma mirrors_readSuper (target : Reference) :
    Mirrors Steady Reference.depth (readSuper target)
      (fun around => Resolver.readSuper around target) := by
  rintro ⟨stack, reports, unused, setting, membership⟩
  cases membership with
  | noClass => exact (mirrors_refuse target .superOutsideClass).gives _ rfl rfl
  | rootClass => exact (mirrors_refuse target .superWithoutSuperclass).gives _ rfl rfl
  | subclass => exact (mirrors_find target true).gives _ rfl rfl

lemma mirrors_checkReturn (keyword : Token) (hasValue : Bool) :
    Mirrors Steady id (checkReturn keyword hasValue)
      (fun around => Resolver.checkReturn around keyword hasValue) := by
  rintro ⟨stack, reports, unused, setting, membership⟩
  have hreport := mirrors_report keyword
  have hnothing : Mirrors Steady id (pure ()) (fun _ => pure ()) := Mirrors.pure ()
  cases hasValue with
  | false =>
    cases setting with
    | topLevel => exact (hreport _).gives _ rfl rfl
    | named | lambda | method | initializer => exact hnothing.gives _ rfl rfl
  | true =>
    cases setting with
    | topLevel | initializer => exact (hreport _).gives _ rfl rfl
    | named | lambda | method => exact hnothing.gives _ rfl rfl

lemma Arrives.innermostBinds {σ : Scopes} {name : Token} {tracked : Bool} {s : Setting}
    {m : Membership} (hw : Arrives S v (σ.declare name tracked) s m w) :
    InnermostBinds name.lexeme w.stack := by
  have hstack : w.stack = w.scopes.stack := rfl
  rw [hstack, hw.scopes]
  exact innermostBinds_declare σ name tracked

lemma Arrives.define {σ : Scopes} {name : Token} {s : Setting} {m : Membership}
    (hw : Arrives S v σ s m w) (h : InnermostBinds name.lexeme w.stack) :
    Gives Grown w (define name) () (σ.define name) s m := by
  rw [← hw.scopes, ← hw.setting, ← hw.membership]
  exact gives_define h

lemma mirrors_declareReady (name : Token) (tracked : Bool) :
    Mirrors Grown id (declareReady name tracked) (fun _ => Resolver.declareReady name tracked) :=
  fun v => (gives_declare v name tracked).bind fun _ hw => hw.define hw.innermostBinds

theorem Mirrors.initializing {f : β → α} {visit : Visitor α} {walk : Surroundings → Resolver β}
    (h : Mirrors Steady f visit walk) (name : Token) (tracked : Bool) {k : β → δ} {r : δ → γ}
    {g : α → γ} (hg : ∀ y, r (k y) = g (f y)) :
    Mirrors Grown r
      (do
        declare name tracked
        let x ← visit
        define name
        return g x)
      (fun around => do
        modify (·.declare name tracked)
        let y ← walk around
        modify (·.define name)
        return k y) := by
  refine fun v => (gives_declare v name tracked).bind fun w hw => ?_
  refine (h.goesOn hw).followed (fun h h' => h.grown.trans h') fun u hu => ?_
  refine (hu.define (hw.innermostBinds.steady hu.stack)).bind fun t ht => ?_
  rw [← hg]
  exact ht.pure _

lemma mirrors_declareParams (names : List Token) :
    Mirrors Grown id (declareParams names) (fun _ => Resolver.declareParams names) := by
  induction names with
  | nil => exact Mirrors.pure ()
  | cons name more ih => exact (mirrors_declareReady name false).andThen ih

section

variable {visit : Visitor α} {x : α}

lemma leave_eq {scope : Scope} {outer : List Scope} (h : v.stack = scope :: outer) :
    leave v = .ok () { v with stack := outer, unused := v.unused ++ scope.unread } := by
  simp only [leave, get_bind, h]
  rfl

lemma inScope_eq {scope : Scope} {outer : List Scope}
    (h : visit { v with stack := .empty :: v.stack } = .ok x w) (hw : w.stack = scope :: outer) :
    inScope visit v = .ok x { w with stack := outer, unused := w.unused ++ scope.unread } := by
  rw [inScope, enter, modify_bind, bind_of_ok h, bind_of_ok (leave_eq hw)]
  rfl

lemma inFunction_eq {setting : Setting} (h : inScope visit { v with setting } = .ok x w) :
    inFunction setting visit v = .ok x { w with setting := v.setting } := by
  rw [inFunction, get_bind, setSetting, modify_bind, bind_of_ok h, setSetting, modify_bind]
  rfl

lemma inClass_eq (h : visit { v with membership := .rootClass } = .ok x w) :
    inClass visit v = .ok x { w with membership := v.membership } := by
  rw [inClass, get_bind, setMembership, modify_bind, bind_of_ok h, setMembership, modify_bind]
  rfl

end

section

variable {f : β → α} {visit : Visitor α} {walk : Surroundings → Resolver β}

protected theorem Gives.inScope {x : α} {σ : Scopes} {s : Setting} {m : Membership}
    (h : Gives Grown { v with stack := .empty :: v.stack } visit x σ s m) :
    Gives Steady v (inScope visit) x σ.leave s m := by
  obtain ⟨w, hvisit, hw⟩ := h
  have hgrown : Grown (.empty :: v.stack) w.stack := hw.stack
  generalize hstack : w.stack = l at hgrown
  cases hgrown with
  | @cons _ scope _ outer hnamed houter =>
    have hunread := (hnamed Scope.named_empty).isSome_unread
    refine ⟨_, inScope_eq hvisit hstack, ?_, hw.setting, hw.membership, houter,
      hw.unused.append hunread⟩
    rw [← hw.scopes]
    simp [Progress.scopes, Scopes.leave, hstack, Scope.unused_eq_unread]

protected theorem Mirrors.inScope (h : Mirrors Grown f visit walk) :
    Mirrors Steady f (inScope visit) (fun around => Resolver.inScope (walk around)) :=
  fun v => Gives.inScope (h { v with stack := .empty :: v.stack })

lemma gives_declareImplicit (name : String) (hv : v.stack ≠ []) :
    Gives Grown v (declareImplicit name) () (v.scopes.declareImplicit name) v.setting
      v.membership := by
  obtain ⟨scope, outer, hstack⟩ := List.exists_cons_of_ne_nil hv
  have hput := gives_changeInnermost v fun s hs =>
    hs.put name (b := ⟨none, true, false, false⟩) nofun
  refine hput.congr ?_
  simp only [declareImplicit, get_bind, hstack]

protected lemma Mirrors.inImplicit (h : Mirrors Grown f visit walk) (name : String) :
    Mirrors Steady f (inImplicit name visit) (fun around => Resolver.inScope do
      modify (·.declareImplicit name)
      walk around) := by
  intro v
  have himplicit := gives_declareImplicit (v := { v with stack := .empty :: v.stack }) name
    (List.cons_ne_nil _ _)
  exact Gives.inScope (himplicit.bind fun _ hw => h.goesOn hw)

protected lemma Mirrors.inMemberScopes (h : Mirrors Grown f visit walk) (hasSuper : Bool) :
    Mirrors Steady f (inMemberScopes hasSuper visit)
      (fun around => Resolver.inMemberScopes hasSuper (walk around)) := by
  cases hasSuper with
  | false => exact h.inImplicit "this"
  | true => exact (h.inImplicit "this").grown.inImplicit "super"

protected lemma Mirrors.inFunction (h : Mirrors Grown f visit walk) (setting : Setting) :
    Mirrors Steady f (inFunction setting visit)
      (fun around => Resolver.inScope (walk { around with routine := setting.routine })) := by
  intro v
  obtain ⟨w, hvisit, hw⟩ := h.inScope { v with setting }
  exact ⟨_, inFunction_eq hvisit, hw.scopes, rfl, hw.membership, hw.stack, hw.unused⟩

protected theorem Gives.inClass {x : α} {σ : Scopes} {s : Setting} {m : Membership}
    (h : Gives S { v with membership := .rootClass } visit x σ s m) :
    Gives S v (inClass visit) x σ s v.membership := by
  obtain ⟨w, hvisit, hw⟩ := h
  exact ⟨_, inClass_eq hvisit, hw.scopes, hw.setting, rfl, hw.stack, hw.unused⟩

end

end Visitor

end Lox
