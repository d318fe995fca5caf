import Lox.Proofs.Eval.Invoke
import Lox.Proofs.Session.Hierarchy

/-! Initializers and new objects: an initializer gives the object that it is bound to, and a class
that is called makes an object like no other and has it set up once. -/

namespace Lox

namespace Evaluator

structure Creates (E : Evaluator) (c : Class) (args : List Value) (s : Store) (o : Object)
    (s' : Store) : Prop where
  cls : o.cls = c
  fresh : s.fields.size ≤ o.id
  new : ∀ v, s.Includes (.cls c :: args) v → Eval.fields? v ≠ some o.id
  unshared : ∀ v, s'.Includes (.object o :: args) v → Eval.fields? v = some o.id → v = .object o
  setUp :
    match c.nearest? false "init" with
    | none => s' = s.newFields.2
    | some m => ∃ f s₁ v, Eval.bind m (.object o) s.newFields.2 = .ok f s₁ ∧
      f.function = m.function ∧ s₁.lookup? f.frame Eval.thisName = some ⟨.object o, true⟩ ∧
        E.invoke f args s₁ = .ok v s'

structure SetsUp (E : Evaluator) (sources : List String) (frame : FrameId) (e : Expr)
    (s : Store) : Prop where
  places : ∀ v s', E.evalExpr frame e s = .ok v s' →
    s.fields.size ≤ s'.fields.size ∧ s'.Distinct [v]
  invokes : ∀ f args s', E.Invokes frame s e f args s' → (Value.function f).Classified sources s' ∧
    (f.isInitializer = true → ∃ o, E.Initializes f args s' o)
  creates : ∀ callee paren arguments c args s₁ s₂ v s', e = .call callee paren arguments →
    E.eval frame callee s = .ok (.cls c) s₁ → E.evalAll frame arguments s₁ = .ok args s₂ →
      E.evalExpr frame e s = .ok v s' → ∃ o, v = .object o ∧ E.Creates c args s₂ o s'

theorem instantiate_ok {E : Evaluator} {c : Class} {args : List Value} {s s' : Store} {v : Value}
    (h : E.instantiate c args s = .ok v s') :
    v = .object ⟨s.fields.size, c⟩ ∧
      match c.initializer? with
      | none => s' = s.newFields.2
      | some m => ∃ f s₁ u, Eval.bind m (.object ⟨s.fields.size, c⟩) s.newFields.2 = .ok f s₁ ∧
        E.invoke f args s₁ = .ok u s' := by
  have hnew : Eval.newFields s = .ok s.fields.size s.newFields.2 := rfl
  unfold instantiate at h
  rw [Eval.bind_of_ok hnew] at h
  cases hm : c.initializer? with
  | none =>
    rw [hm] at h
    cases h
    exact ⟨rfl, rfl⟩
  | some m =>
    rw [hm] at h
    obtain ⟨f, s₁, hbind, h⟩ := Eval.bind_ok h
    obtain ⟨u, s₂, hinvoke, h⟩ := Eval.bind_ok h
    cases h
    exact ⟨rfl, f, s₁, u, hbind, hinvoke⟩

lemma call_cls_ok {E : Evaluator} {first paren : Token} {c : Class} {args : List Value}
    {s s' : Store} {v : Value} (h : E.call first paren (.cls c) args s = .ok v s') :
    args.length = c.arity ∧ E.instantiate c args s = .ok v s' := by
  unfold call at h
  dsimp only [Value.arity?] at h
  split at h
  · cases h
  · next hlength => exact ⟨Decidable.not_not.mp hlength, h⟩

end Evaluator

variable {sources : List String} {w : World} {s : Store} {E F : Evaluator} {frame : FrameId}
  {p : Site}

lemma Later.size_le {w' : World} {s' : Store} (hl : Later w s w' s') (hs : s.Fits sources w)
    (hs' : s'.Fits sources w') : s.fields.size ≤ s'.fields.size := by
  rw [hs.places, hs'.places]
  exact hl.owners.length_le

namespace Agrees

theorem creates (hE : Agrees sources E F) (hsound : AllSound sources) (hs : s.Fits sources w)
    {c : Class} (hc : c.Fits sources w s false) {args : List Value}
    (hargs : ∀ v ∈ args, v.Fits sources w s) (hlength : args.length = c.arity) {v : Value}
    {s' : Store} (h : E.instantiate c args s = .ok v s') :
    v = .object ⟨s.fields.size, c⟩ ∧ E.Creates c args s ⟨s.fields.size, c⟩ s' := by
  obtain ⟨w', hl, hs', hv⟩ := (hE.left.instantiate hsound hc hargs hlength).ok hs h
  obtain ⟨rfl, hsetUp⟩ := Evaluator.instantiate_ok h
  have hbefore : s.Distinct (.cls c :: args) :=
    hs.distinct (List.forall_mem_cons.mpr ⟨.cls hc, hargs⟩)
  have hafter : s'.Distinct (.object ⟨s.fields.size, c⟩ :: args) :=
    hs'.distinct (List.forall_mem_cons.mpr ⟨hv, fun u hu => (hargs u hu).later hl⟩)
  refine ⟨rfl, rfl, Nat.le_refl _, fun u hu hid => ?_, fun u hu hid => ?_, ?_⟩
  · exact Nat.lt_irrefl _ (hbefore.placed u _ hu hid)
  · exact hafter.single u _ _ hu (.given List.mem_cons_self) hid rfl
  · rw [← Class.findMethod?_eq_nearest?]
    change match c.initializer? with | none => _ | some m => _
    cases hm : c.initializer? with
    | none =>
      rw [hm] at hsetUp
      exact hsetUp
    | some m =>
      rw [hm] at hsetUp
      obtain ⟨f, s₁, u, hbind, hinvoke⟩ := hsetUp
      obtain ⟨w₁, hgiven⟩ := hc.setsUp hsound hs hargs hlength hm hbind
      exact ⟨f, s₁, u, hbind, hgiven.function, hgiven.receiver, hinvoke⟩

lemma setsUp (hE : Agrees sources E F) (hsound : AllSound sources) {e : Expr}
    (hst : Stands sources w s frame p (.expr e)) (hs : s.Fits sources w) :
    E.SetsUp sources frame (p.expr e) s where
  places v s' h := by
    obtain ⟨w', hl, hs', hv⟩ := (hE.left.evalExpr hsound hst).ok hs h
    exact ⟨hl.size_le hs hs', hs'.distinct (List.forall_mem_singleton.mpr hv)⟩
  invokes f args s' h := by
    obtain ⟨w', hs', hready⟩ := hE.invoked hsound hst hs h
    exact ⟨(Value.Fits.function hready.closure).classified, hE.initializes hsound hs' hready⟩
  creates callee paren arguments c args s₁ s₂ v s' he hcallee hargs h := by
    obtain ⟨w₂, hs₂, hc, hargsFit⟩ := hE.fits_callee hsound hst he hs hcallee hargs
    have hcall : E.call callee.firstToken paren (.cls c) args s₂ = .ok v s' := by
      rw [he] at h
      exact (((Eval.bind_of_ok hcallee _).trans (Eval.bind_of_ok hargs _)).symm.trans h)
    obtain ⟨hlength, hmade⟩ := Evaluator.call_cls_ok hcall
    cases hc with
    | cls hc => exact ⟨_, hE.creates hsound hs₂ hc hargsFit hlength hmade⟩

end Agrees

/-- Where a node is evaluated, the objects and classes of the store have places of their own and its
functions and members are initializers just where the walk came to them as such. Evaluating an
expression sets up objects as it should, whatever room there is for it. -/
def SettingUp (sources : List String) (frame : FrameId) (node : Node) (s : Store) : Prop :=
  s.Distinct [] ∧ (∀ v, s.Includes [] v → v.Classified sources s) ∧
    ∀ e, node = .expr e → ∀ turns levels, (Evaluator.deep turns levels).SetsUp sources frame e s

lemma Store.Fits.settled (hs : s.Fits sources w) :
    s.Distinct [] ∧ ∀ v, s.Includes [] v → v.Classified sources s :=
  have hnone : ∀ v ∈ ([] : List Value), v.Fits sources w s := List.forall_mem_nil _
  ⟨hs.distinct hnone, fun _ hv => (hs.of_includes hnone hv).classified⟩

lemma holds_settingUp (hsound : AllSound sources) : Holds sources (SettingUp sources) where
  expr hs hst := by
    refine ⟨hs.settled.1, hs.settled.2, fun e he turns levels => ?_⟩
    cases he
    exact (agrees_deep hsound turns levels).setsUp hsound hst hs
  stmt hs _ := ⟨hs.settled.1, hs.settled.2, fun _ he => nomatch he⟩

/-- In a session in which only sources without errors have been run, all evaluation sets up objects as
it should: a watch for this never interferes. The walk and evaluation take the same members for
initializers. Whatever an expression runs, it invokes in one of the ways that are watched. -/
theorem Session.initializers_give_objects {session : Session} {source : String}
    (h : Reached sources session) (hsource : (Program.compile source).hasError = false) :
    let after := (session.force (.compile source)).session.store
    (∀ alarm, session.forceWatched (SettingUp (source :: sources)) alarm (.compile source) =
        session.force (.compile source)) ∧
      (after.Distinct [] ∧ ∀ v, after.Includes [] v → v.Classified (source :: sources) after) ∧
      (∀ (isStatic : Bool) (f : Function), f.isInitializer isStatic = true ↔
        Resolver.memberRoutine isStatic f = .initializer) ∧
      ∀ (E : Evaluator) (frame : FrameId) (e : Expr) (s : Store)
        (run : FrameId → Stmt → Eval Completion),
        (∀ f args s', E.Invokes frame s e f args s' →
          (E.running run).invoke f args s' = E.invoke f args s') →
        (E.running run).evalExpr frame e s = E.evalExpr frame e s := by
  have hsound : AllSound (source :: sources) := List.forall_mem_cons.mpr ⟨hsource, h.allSound⟩
  intro after
  refine ⟨fun alarm => ?_, ?_, Resolver.isInitializer_iff, fun E frame e s run => ?_⟩
  · exact forceWatched_eq h hsource (holds_settingUp hsound) alarm
  · have hafter : Reached (source :: sources) (session.run source).session := h.run hsource
    obtain ⟨w, hs⟩ := hafter.fits (List.Subset.refl _) hsound
    rw [session_run .off hsource] at hs
    exact hs.settled
  · exact Evaluator.evalExpr_running

def Value.isInitializer : Value → Bool
  | .function f => f.isInitializer
  | _ => false

theorem Session.initializers_give_objects_kept :
    let first := "class A \x7b init(x) \x7b if (x) return; this.x = x; \x7d two \x7b return 2; \x7d \x7d"
    let second := "class B < A \x7b init(x) \x7b super.init(x); \x7d \x7d var m = B(nil).init; m(true);"
    let session := (Session.run ⟨false, .standard, .initial 0⟩ first).session
    let after := (session.force (.compile second)).session.store
    Reached [first] session ∧ (Program.compile second).hasError = false ∧
      (∀ alarm, session.forceWatched (SettingUp [second, first]) alarm (.compile second) =
        session.force (.compile second)) ∧
      after.Distinct [] ∧ ∃ f o, after.Includes [] (.function f) ∧ f.isInitializer = true ∧
        after.lookup? f.frame Eval.thisName = some ⟨.object o, true⟩ := by
  intro first second session after
  have hreached : Reached [first] session := .run (.new false .standard 0) (by decide +kernel)
  have hsecond : (Program.compile second).hasError = false := by decide +kernel
  obtain ⟨hwatched, ⟨hdistinct, hclassified⟩, -⟩ := initializers_give_objects hreached hsecond
  refine ⟨hreached, hsecond, hwatched, hdistinct, ?_⟩
  have hkept : ((after.lookup? Store.globals "m").any fun x => x.value.isInitializer) = true := by
    decide +kernel
  obtain ⟨⟨v, assigned⟩, hx, hinit⟩ := (Option.any_eq_true _ _).mp hkept
  cases v with
  | function f =>
    have hincludes : after.Includes [] (.function f) := .binding hx
    obtain ⟨o, hthis⟩ := (hclassified _ hincludes).2 hinit
    exact ⟨f, o, hincludes, hinit, hthis⟩
  | _ => cases hinit

end Lox
