import Lox.Store
import Mathlib.Tactic.Lemma

namespace Lox.Store

def lookup? (s : Store) (id : FrameId) (name : String) : Option Variable :=
  s.frames[id]?.bind (·.variables.find? name)

variable (s : Store) (id other : FrameId) (name name' : String) (x : Variable) (f : Frame)

lemma binds_eq : s.binds id name = (s.lookup? id name).isSome := by
  unfold binds lookup?
  cases s.frames[id]? <;> rfl

lemma readIn_eq :
    s.readIn id name =
      match s.lookup? id name with
      | some x => if x.assigned then .ok x.value else .error (.unassignedVariable name)
      | none => .error (.undefinedVariable name) := by
  unfold readIn lookup?
  cases s.frames[id]? <;> rfl

variable {s id name}

lemma lt_of_binds (h : s.binds id name) : id < s.frames.size := by
  unfold binds at h
  by_cases hlt : id < s.frames.size
  · exact hlt
  · rw [Array.getElem?_eq_none (Nat.le_of_not_lt hlt)] at h
    cases h

lemma binds_of_lookup? {x : Variable} (h : s.lookup? id name = some x) : s.binds id name := by
  rw [binds_eq, h]
  rfl

lemma readIn_of_lookup? {v : Value} (h : s.lookup? id name = some ⟨v, true⟩) :
    s.readIn id name = .ok v := by
  rw [readIn_eq, h]
  rfl

lemma lt_of_lookup? {x : Variable} (h : s.lookup? id name = some x) : id < s.frames.size :=
  lt_of_binds (binds_of_lookup? h)

lemma lt_of_parent? {parent : FrameId} (h : s.parent? id = some parent) :
    id < s.frames.size := by
  unfold parent? at h
  by_cases hlt : id < s.frames.size
  · exact hlt
  · rw [Array.getElem?_eq_none (Nat.le_of_not_lt hlt)] at h
    cases h

variable (s id name)

lemma size_define : (s.define id name x).frames.size = s.frames.size := Array.size_modify

lemma parent?_define : (s.define id name x).parent? other = s.parent? other := by
  unfold parent? define
  rw [Array.getElem?_modify]
  split
  · cases s.frames[other]? <;> rfl
  · rfl

lemma lookup?_define :
    (s.define id name x).lookup? other name' =
      if id = other ∧ name = name' ∧ id < s.frames.size then some x
      else s.lookup? other name' := by
  unfold lookup? define
  rw [Array.getElem?_modify]
  by_cases hid : id = other
  · subst hid
    by_cases hlt : id < s.frames.size
    · rw [Array.getElem?_eq_getElem hlt]
      simp only [hlt, if_pos, Option.map_some, Option.bind_some, Frame.define, Table.find?_put,
        true_and, and_true]
    · simp [hlt]
  · simp [hid]

lemma size_newFrame : (s.newFrame f).2.frames.size = s.frames.size + 1 := Array.size_push f

lemma parent?_newFrame :
    (s.newFrame f).2.parent? other =
      if other = s.frames.size then f.parent else s.parent? other := by
  unfold parent? newFrame
  rw [Array.getElem?_push]
  split <;> rfl

lemma lookup?_newFrame :
    (s.newFrame f).2.lookup? other name =
      if other = s.frames.size then f.variables.find? name else s.lookup? other name := by
  unfold lookup? newFrame
  rw [Array.getElem?_push]
  split <;> rfl

end Lox.Store
