import Lox.Value.Apply
import Mathlib.Tactic.Lemma

namespace Lox

structure Value.Hereditary (P : Value → Prop) : Prop where
  nil : P .nil
  bool : ∀ b, P (.bool b)
  number : ∀ x, P (.number x)
  string : ∀ s, P (.string s)
  list : ∀ items, P (.list items) ↔ ∀ v ∈ items, P v

namespace Value.Hereditary

variable {P : Value → Prop} (hP : Hereditary P)

include hP

lemma ofLiteral (l : Literal) : P (.ofLiteral l) := by
  cases l with
  | nil => exact hP.nil
  | bool b => exact hP.bool b
  | number x => exact hP.number x
  | string s => exact hP.string s

lemma unary {op : Token} {v u : Value} (h : v.unary op = .ok u) : P u := by
  unfold Value.unary at h
  split at h
  · cases v <;> cases h
    exact hP.number _
  · cases h
    exact hP.bool _
  · cases h

lemma ofNumbers {op : Token} {x y : Float} {u : Value}
    (h : Value.ofNumbers op x y = .ok (some u)) : P u := by
  unfold Value.ofNumbers at h
  split at h
  · cases h
    exact hP.number _
  · cases h
    exact hP.number _
  · split at h <;> cases h
    exact hP.number _
  · split at h
    · cases h
    · obtain ⟨z, -, rfl⟩ := Option.map_eq_some_iff.mp (Except.ok.inj h)
      exact hP.number z
  all_goals cases h
  all_goals exact hP.bool _

lemma binary {op : Token} {a b u : Value} (h : a.binary op b = .ok (some u)) : P u := by
  unfold Value.binary at h
  split at h
  · cases h
    exact hP.bool _
  · cases h
    exact hP.bool _
  · unfold add at h
    split at h <;> cases h
    · exact hP.number _
    · exact hP.string _
  · split at h
    · exact hP.ofNumbers h
    · cases h

lemma ofSequence {native : Native} {ofItems : List Value → Value} {ofChars : List Char → Value}
    {v u : Value} (hv : P v) (hitems : ∀ items, (∀ v ∈ items, P v) → P (ofItems items))
    (hchars : ∀ chars, P (ofChars chars))
    (h : native.ofSequence ofItems ofChars v = .ok u) : P u := by
  cases v with
  | list items =>
    cases h
    exact hitems items ((hP.list items).mp hv)
  | string s =>
    cases h
    exact hchars _
  | _ => cases h

lemma apply {native : Native} {args : List Value} (hargs : ∀ v ∈ args, P v) {time : Float}
    {u : Value} (h : native.apply time args = .ok u) : P u := by
  have hfirst : P (args.head?.getD .nil) := by
    cases args with
    | nil => exact hP.nil
    | cons v args => exact hargs v List.mem_cons_self
  have hsecond : P (args[1]?.getD Value.nil) := by
    cases harg : args[1]? with
    | none => exact hP.nil
    | some v => exact hargs v (List.mem_of_getElem? harg)
  unfold Native.apply at h
  cases native with
  | clock =>
    cases h
    exact hP.number time
  | cons =>
    dsimp only at h
    generalize args[1]?.getD Value.nil = second at hsecond h
    cases second with
    | list items =>
      cases h
      exact (hP.list _).mpr (List.forall_mem_cons.mpr ⟨hfirst, (hP.list items).mp hsecond⟩)
    | _ => cases h
  | empty => exact hP.ofSequence hfirst (fun _ _ => hP.bool _) (fun _ => hP.bool _) h
  | first =>
    refine hP.ofSequence hfirst (fun items hitems => ?_) (fun chars => ?_) h
    · cases items with
      | nil => exact hP.nil
      | cons v items => exact hitems v List.mem_cons_self
    · cases chars with
      | nil => exact hP.nil
      | cons c chars => exact hP.string _
  | rest =>
    refine hP.ofSequence hfirst (fun items hitems => ?_) (fun _ => hP.string _) h
    exact (hP.list _).mpr fun v hv => hitems v (List.mem_of_mem_drop hv)
  | length => exact hP.ofSequence hfirst (fun _ _ => hP.number _) (fun _ => hP.number _) h

end Value.Hereditary

end Lox
