import Lox.Proofs.Link.Session
import Lox.Proofs.Prelude.Tree

/-! Loading the prelude: the global variables get new functions, and nothing else changes. What
they held before does not matter afterwards. -/

namespace Lox

def Store.declareGlobal (s : Store) (f : Function) : Store :=
  s.newFunction.2.define globals f.name ⟨.function ⟨s.functions, f, globals, false⟩, true⟩

theorem Eval.program_functions (turns levels : Nat) (v : Value) (fs : List Function) (s : Store) :
    program (.deep turns (levels + 1)) v (fs.map Stmt.function) s =
      .ok v (fs.foldl Store.declareGlobal s) := by
  induction fs generalizing s with
  | nil => rfl
  | cons f fs ih => exact ih (s.declareGlobal f)

def Prelude.names : List String := functions.map Function.name

namespace Session

def fresh (session : Session) : Store := { session.store with output := "" }

lemma store_loadPrelude (session : Session) (hprelude : session.hasPrelude = true)
    (h : 0 < session.limits.levels) :
    session.loadPrelude =
      { session with store := Prelude.functions.foldl Store.declareGlobal session.fresh } := by
  obtain ⟨levels, hlevels⟩ := Nat.exists_eq_succ_of_ne_zero (Nat.ne_of_gt h)
  have hrun : Eval.program session.evaluator .nil (Prelude.functions.map Stmt.function)
      { session.store with output := "" } =
        .ok .nil (Prelude.functions.foldl Store.declareGlobal session.fresh) := by
    rw [evaluator, Limits.evaluator, hlevels]
    exact Eval.program_functions session.limits.turns levels .nil Prelude.functions session.fresh
  rw [loadPrelude, if_pos hprelude, force, Prelude.body_program, perform, hrun]

lemma loadPrelude_of_not (session : Session) (hprelude : session.hasPrelude = false) :
    session.loadPrelude = session := by
  rw [loadPrelude, hprelude, if_neg Bool.false_ne_true]

end Session

namespace Store.LinkedBut

variable {stale : List String} {K : Link.Terms} {L : Link} {s t : Store}

lemma declareGlobal {f : Function} (h : s.LinkedBut (f.name :: stale) K L t) :
    ∃ L', L.Sub L' ∧ (s.declareGlobal f).LinkedBut stale K L' (t.declareGlobal f) := by
  obtain ⟨L', hl, hid, -, hs⟩ := h.newFunction
  have hf : Closure.Linked L' ⟨s.functions, f, Store.globals, false⟩
      ⟨t.functions, f, Store.globals, false⟩ := ⟨hid, rfl, hs.globals, rfl⟩
  have hx : Variable.Linked L' ⟨.function ⟨s.functions, f, Store.globals, false⟩, true⟩
      ⟨.function ⟨t.functions, f, Store.globals, false⟩, true⟩ := ⟨.function hf, rfl⟩
  refine ⟨L', hl, hs.define hs.globals hx fun n hn => ?_⟩
  rcases List.mem_cons.mp hn with rfl | hn
  · exact .inr ⟨rfl, rfl⟩
  · exact .inl hn

theorem declareGlobals {fs : List Function} (h : s.LinkedBut (fs.map Function.name) K L t) :
    ∃ L', L.Sub L' ∧
      (fs.foldl Store.declareGlobal s).Linked K L' (fs.foldl Store.declareGlobal t) := by
  induction fs generalizing L s t with
  | nil => exact ⟨L, .refl L, h⟩
  | cons f fs ih =>
    obtain ⟨L₁, h₁, hs₁⟩ := h.declareGlobal
    obtain ⟨L₂, h₂, hs₂⟩ := ih hs₁
    exact ⟨L₂, h₁.trans h₂, hs₂⟩

theorem declareGlobals_left (hK : ¬ K.same) {fs : List Function} (h : s.LinkedBut stale K L t)
    (hfs : ∀ f ∈ fs, f.name ∈ stale) : (fs.foldl Store.declareGlobal s).LinkedBut stale K L t := by
  induction fs generalizing s with
  | nil => exact h
  | cons f fs ih =>
    rw [List.forall_mem_cons] at hfs
    exact ih ((h.newFunction_left hK).define_left hfs.1 _) hfs.2

end Store.LinkedBut

end Lox
