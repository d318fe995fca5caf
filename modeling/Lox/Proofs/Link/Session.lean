import Lox.Proofs.Link.Execute
import Lox.Proofs.Session.Reached

/-! Stores in which nothing refers outside, and evaluation that is checked after every piece. What
follows from a link holds wherever evaluation comes in a session. -/

namespace Lox

def Link.Terms.strict : Link.Terms := ⟨fun _ _ => False, True⟩

def Link.Terms.loose : Link.Terms := ⟨fun _ _ => False, False⟩

def Store.Closed (s : Store) : Prop := ∃ L : Link, s.Linked .strict L s

variable {stale : List String} {K : Link.Terms} {L : Link} {s t : Store}

namespace Store

lemma LinkedBut.withOutput (h : s.LinkedBut stale K L t) (output : String) :
    LinkedBut stale K L { s with output } { t with output } := { h with output := rfl }

lemma LinkedBut.withTime (h : s.LinkedBut stale K L t) (time : Float) :
    LinkedBut stale K L { s with time } { t with time } := { h with time := rfl }

lemma LinkedBut.loosen (h : s.LinkedBut stale K L t) : s.LinkedBut stale .loose L t :=
  { h with hidden := fun hi => hi.elim, same := fun hs => hs.elim }

def atStart : Link where
  frames i i' := i = globals ∧ i' = globals
  functions _ _ := False
  classes _ _ _ := False

lemma linked_initial (time : Float) : (initial time).Linked .strict atStart (initial time) where
  sound :=
    { frames := fun hi hj => iff_of_true (hi.1.trans hj.1.symm) (hi.2.trans hj.2.symm)
      functions := fun hi => hi.elim
      classes := fun hc => hc.elim }
  globals := ⟨rfl, rfl⟩
  total i hi := ⟨globals, Nat.lt_one_iff.mp hi, rfl⟩
  frames := by
    rintro i i' ⟨rfl, rfl⟩
    exact ⟨Nat.one_pos, Nat.one_pos⟩
  parent? := by
    rintro i i' ⟨rfl, rfl⟩
    exact .none
  lookup? := by
    rintro i i' ⟨rfl, rfl⟩ name -
    cases hx : (initial time).lookup? globals name with
    | none => exact .none
    | some x =>
      obtain ⟨native, -, rfl⟩ := lookup?_initial hx
      exact .some ⟨.native native, rfl⟩
  hidden := fun hi => hi.elim
  functions := fun hi => hi.elim
  sizeFields := rfl
  field? _ _ := .none
  classes := fun hc => hc.elim
  older := fun hc => hc.elim
  parallel := fun hc => hc.elim
  unique := fun hc => hc.elim
  same _ := ⟨rfl, rfl, fun hi => hi.2.trans hi.1.symm, fun hi => hi.elim, fun hc => hc.elim⟩
  time := rfl
  output := rfl

end Store

namespace Session

variable {session : Session}

lemma closed_perform {act : Eval Value} {Q : Link → Value → Value → Prop}
    (h : session.store.Closed) (hact : ∀ L : Link, L.Runs .strict act act Q) :
    (session.perform act).session.store.Closed := by
  obtain ⟨L, hs⟩ := h
  have hends := hact L _ _ (hs.withOutput "")
  unfold perform
  cases hr : act { session.store with output := "" } with
  | ok v s =>
    rw [hr] at hends
    cases hends with
    | ok L' _ hs' _ => exact ⟨L', hs'⟩
  | error e s =>
    rw [hr] at hends
    cases hends with
    | error L' _ hs' _ => exact ⟨L', hs'⟩

lemma closed_force (h : session.store.Closed) (p : Program) :
    (session.force p).session.store.Closed := by
  rw [force, evaluator_eq]
  exact closed_perform h fun _ => Eval.linked_program (Evaluator.linked_deep _ _) p.body .nil

end Session

lemma Reached.closed {sources : List String} {session : Session}
    (h : Reached sources session) : session.store.Closed := by
  induction h with
  | new hasPrelude limits time => exact ⟨_, Store.linked_initial time⟩
  | setTime _ time ih =>
    obtain ⟨L, hs⟩ := ih
    exact ⟨L, hs.withTime time⟩
  | run _ hsource ih =>
    rw [Session.session_run .off hsource]
    exact Session.closed_force ih _

def Completion.value : Completion → Value
  | .returned v => v
  | _ => .nil

open Classical in
noncomputable def Eval.vet (proper : Value → Store → Prop) (alarm : Abort) (v : Value) :
    Eval Unit := fun s => if proper v s then .ok () s else .error alarm s

namespace Evaluator

noncomputable def vetted (proper : Value → Store → Prop) (alarm : Abort) (E : Evaluator) :
    Evaluator where
  eval := fun frame e => do
    let v ← E.eval frame e
    Eval.vet proper alarm v
    return v
  exec := fun frame st => do
    let outcome ← E.exec frame st
    Eval.vet proper alarm outcome.value
    return outcome
  levels := E.levels
  turns := E.turns

noncomputable def deepVetted (proper : Value → Store → Prop) (alarm : Abort) (turns : Nat) :
    Nat → Evaluator
  | 0 => exhausted turns
  | levels + 1 => (within (deepVetted proper alarm turns levels)).vetted proper alarm

end Evaluator

/-- Runs a program under checks. -/
noncomputable def Session.forceVetted (session : Session) (proper : Value → Store → Prop)
    (alarm : Abort) (p : Program) : Step Value :=
  session.perform <| Eval.program
    (.deepVetted proper alarm session.limits.turns session.limits.levels) .nil p.body

def Link.Grants (proper : Value → Store → Prop) : Prop :=
  ∀ {K : Terms} {L : Link} {s t : Store} {v v' : Value}, s.Linked K L t → v.Linked L v' → proper v s

section

variable {proper : Value → Store → Prop} (hproper : Link.Grants proper) (alarm : Abort)

include hproper

theorem Link.Runs.vet {α : Type} {Q : Link → α → α → Prop} {x x' : Eval α} (h : L.Runs K x x' Q)
    (value : α → Value) (hvalue : ∀ L' a a', Q L' a a' → (value a).Linked L' (value a')) :
    L.Runs K (do let a ← x; Eval.vet proper alarm (value a); return a) x' Q := by
  intro s t hs
  have hends := h s t hs
  change L.Ends K Q ((EStateM.bind x fun a =>
    EStateM.bind (Eval.vet proper alarm (value a)) fun _ => EStateM.pure a) s) (x' t)
  unfold EStateM.bind
  generalize x s = r at hends ⊢
  generalize x' t = r' at hends ⊢
  cases hends with
  | ok L' hl hs' ha =>
    dsimp only [Eval.vet]
    rw [if_pos (hproper hs' (hvalue _ _ _ ha))]
    exact .ok L' hl hs' ha
  | error L' hl hs' he => exact .error L' hl hs' he

lemma Evaluator.Linked.vetted {E F : Evaluator} (hE : Evaluator.Linked E F) :
    Evaluator.Linked (E.vetted proper alarm) F where
  levels := hE.levels
  turns := hE.turns
  eval hframe e := (hE.eval hframe e).vet hproper alarm id fun _ _ _ hv => hv
  exec hframe st := by
    refine (hE.exec hframe st).vet hproper alarm Completion.value fun _ _ _ ho => ?_
    cases ho with
    | returned hv => exact hv
    | normal => exact .nil
    | broke => exact .nil

lemma Evaluator.linked_deepVetted (turns levels : Nat) :
    Evaluator.Linked (.deepVetted proper alarm turns levels) (.deep turns levels) := by
  induction levels with
  | zero => exact linked_exhausted turns
  | succ levels ih => exact ih.within.vetted hproper alarm

theorem Session.forceVetted_quiet {session : Session} {sources : List String} {source : String}
    (h : Reached sources session) (hsource : (Program.compile source).hasError = false)
    (d : Defect) :
    (session.forceVetted proper alarm (.compile source)).result ≠ .error (.defect d) := by
  obtain ⟨L, hs⟩ := h.closed
  have hvetted := Evaluator.linked_deepVetted hproper alarm session.limits.turns
    session.limits.levels
  have hends := Eval.linked_program hvetted (Program.compile source).body .nil _ _
    (hs.withOutput "")
  intro hdefect
  have hforce : ∀ d', (session.force (.compile source)).result ≠ .error (.defect d') :=
    fun d' hd' => harmless_force h hsource hd'
  simp only [force, evaluator_eq] at hforce
  unfold perform at hforce
  unfold forceVetted perform at hdefect
  generalize Eval.program (.deepVetted proper alarm _ _) _ _ _ = r at hends hdefect
  generalize Eval.program (.deep _ _) _ _ _ = r' at hends hforce
  cases hends with
  | ok => cases hdefect
  | error _ _ _ he =>
    cases he with
    | same => exact hforce d hdefect
    | @escaped v v' _ => exact hforce (.escapedReturn v') rfl

lemma Session.proper_force {session : Session} (h : session.store.Closed) (p : Program)
    {v : Value} (hv : (session.force p).result = .ok v ∨ v = .nil) :
    proper v (session.force p).session.store := by
  obtain ⟨L, hs⟩ := h
  have hends := Eval.linked_program (Evaluator.linked_deep session.limits.turns
    session.limits.levels) p.body .nil _ _ (hs.withOutput "")
  rw [force, evaluator_eq] at hv ⊢
  unfold perform at hv ⊢
  generalize Eval.program (.deep _ _) _ _ _ = r at hends hv ⊢
  cases hends with
  | ok L' _ hs' hv' =>
    rcases hv with hv | rfl
    · cases hv
      exact hproper hs' hv'
    · exact hproper hs' .nil
  | error L' _ hs' _ =>
    rcases hv with hv | rfl
    · cases hv
    · exact hproper hs' .nil

end

end Lox
