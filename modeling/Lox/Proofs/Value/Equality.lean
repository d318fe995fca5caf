import Lox.Value
import Mathlib.Data.List.Forall2
import Mathlib.Tactic.Lemma

/-! Equality of values is symmetric and transitive, and it is reflexive but for the values that
hold NaN. -/

namespace Lox

open Float.Model (UnpackedFloat)

namespace Number

def content? : UnpackedFloat → Option (Option UnpackedFloat.Sign × Nat × Int)
  | .notANumber => none
  | .infinity sign => some (some sign, 0, 0)
  | .zero _ => some (none, 0, 0)
  | .finite sign mantissa exponent _ => some (some sign, mantissa, exponent)

lemma compare_eq_iff {x y : UnpackedFloat} :
    x.compare y = some .eq ↔ ∃ c, content? x = some c ∧ content? y = some c := by
  rcases x with (_ | _) | _ | (_ | _) | ⟨(_ | _), m, e, hm⟩ <;>
    rcases y with (_ | _) | _ | (_ | _) | ⟨(_ | _), n, d, hn⟩ <;>
    dsimp only [UnpackedFloat.compare, content?]
  all_goals simp
  all_goals first | rfl | omega

lemma beq_iff {x y : Float} : (x == y) = true ↔
    ∃ c, content? x.toModel.unpack = some c ∧ content? y.toModel.unpack = some c := by
  rw [← compare_eq_iff]
  exact beq_iff_eq (a := x.toModel.unpack.compare y.toModel.unpack)

lemma isNaN_iff {x : Float} : x.isNaN = true ↔ content? x.toModel.unpack = none := by
  change x.toModel.unpack.isNaN = true ↔ _
  cases x.toModel.unpack with
  | notANumber => exact ⟨fun _ => rfl, fun _ => rfl⟩
  | _ => exact ⟨nofun, nofun⟩

lemma beq_comm (x y : Float) : (x == y) = (y == x) := by
  rw [Bool.eq_iff_iff, beq_iff, beq_iff]
  exact exists_congr fun _ => and_comm

lemma beq_trans {x y z : Float} (hxy : (x == y) = true) (hyz : (y == z) = true) :
    (x == z) = true := by
  obtain ⟨c, hx, hy⟩ := beq_iff.mp hxy
  obtain ⟨d, hy', hz⟩ := beq_iff.mp hyz
  obtain rfl := Option.some.inj (hy.symm.trans hy')
  exact beq_iff.mpr ⟨c, hx, hz⟩

lemma beq_self (x : Float) : (x == x) = !x.isNaN := by
  rw [Bool.eq_iff_iff, beq_iff, Bool.not_eq_true', ← Bool.not_eq_true, isNaN_iff]
  cases content? x.toModel.unpack <;> simp

end Number

namespace Value

inductive Kind where
  | nil | bool | number | string | list | function | native | cls | object
deriving DecidableEq

def kind : Value → Kind
  | nil => .nil
  | bool _ => .bool
  | number _ => .number
  | string _ => .string
  | list _ => .list
  | function _ => .function
  | native _ => .native
  | cls _ => .cls
  | object _ => .object

mutual

/-- Whether the value is NaN or, as a list, holds NaN at any depth. -/
def holdsNaN : Value → Bool
  | number x => x.isNaN
  | list items => itemsHoldNaN items
  | _ => false

def itemsHoldNaN : List Value → Bool
  | [] => false
  | v :: more => v.holdsNaN || itemsHoldNaN more

end

theorem items_induction {P : Value → Prop} (single : ∀ v, v.kind ≠ .list → P v)
    (list : ∀ items, (∀ v ∈ items, P v) → P (.list items)) (v : Value) : P v := by
  refine Value.rec (motive_2 := fun items => ∀ v ∈ items, P v) ?_ ?_ ?_ ?_ list ?_ ?_ ?_ ?_ ?_ ?_ v
  case refine_9 => exact List.forall_mem_nil P
  case refine_10 => exact fun _ _ h hs => List.forall_mem_cons.mpr ⟨h, hs⟩
  all_goals
    intros
    exact single _ (by simp [kind])

lemma itemsHoldNaN_eq_any (items : List Value) : itemsHoldNaN items = items.any holdsNaN := by
  induction items with
  | nil => rfl
  | cons v more ih => rw [itemsHoldNaN, ih, List.any_cons]

lemma kind_of_equals {a b : Value} (h : a.equals b = true) : a.kind = b.kind := by
  cases a <;> cases b <;> first | rfl | cases h

lemma equalItems_iff_forall₂ {xs ys : List Value} :
    equalItems xs ys = true ↔ List.Forall₂ (fun x y => x.equals y = true) xs ys := by
  induction xs generalizing ys with
  | nil => cases ys <;> simp [equalItems]
  | cons x xs ih => cases ys <;> simp [equalItems, ih]

theorem equals_list_iff {xs ys : List Value} : (list xs).equals (list ys) = true ↔
    xs.length = ys.length ∧ ∀ i (h : i < xs.length) (h' : i < ys.length),
      xs[i].equals ys[i] = true := by
  rw [equals, equalItems_iff_forall₂, List.forall₂_iff_get]
  rfl

lemma equals_comm (a b : Value) : a.equals b = b.equals a := by
  induction a using items_induction generalizing b with
  | single a ha =>
    cases a <;> cases b <;> first
      | rfl
      | exact absurd rfl ha
      | exact Number.beq_comm _ _
      | exact Bool.beq_comm
  | list xs ih =>
    cases b with
    | list ys =>
      rw [Bool.eq_iff_iff, equals_list_iff, equals_list_iff]
      refine and_congr eq_comm ⟨fun h i hy hx => ?_, fun h i hx hy => ?_⟩
      · rw [← ih _ (List.getElem_mem hx)]
        exact h i hx hy
      · rw [ih _ (List.getElem_mem hx)]
        exact h i hy hx
    | _ => rfl

lemma equals_trans {a b c : Value} (hab : a.equals b = true) (hbc : b.equals c = true) :
    a.equals c = true := by
  induction a using items_induction generalizing b c with
  | single a ha =>
    cases a <;> cases b <;> first
      | exact absurd hab Bool.false_ne_true
      | cases c <;> first
        | exact absurd hbc Bool.false_ne_true
        | rfl
        | exact absurd rfl ha
        | exact Number.beq_trans hab hbc
        | exact beq_iff_eq.mpr ((beq_iff_eq.mp hab).trans (beq_iff_eq.mp hbc))
  | list xs ih =>
    cases b with
    | list ys =>
      cases c with
      | list zs =>
        obtain ⟨hn, hxy⟩ := equals_list_iff.mp hab
        obtain ⟨hm, hyz⟩ := equals_list_iff.mp hbc
        refine equals_list_iff.mpr ⟨hn.trans hm, fun i hx hz => ?_⟩
        have hy : i < ys.length := hn ▸ hx
        exact ih _ (List.getElem_mem hx) (hxy i hx hy) (hyz i hy hz)
      | _ => cases hbc
    | _ => cases hab

lemma equals_self (a : Value) : a.equals a = !a.holdsNaN := by
  induction a using items_induction with
  | single a ha =>
    cases a with
    | number x => exact Number.beq_self x
    | list xs => exact absurd rfl ha
    | nil => rfl
    | _ => exact beq_self_eq_true _
  | list xs ih =>
    rw [Bool.eq_iff_iff, equals_list_iff, Bool.not_eq_true', holdsNaN, itemsHoldNaN_eq_any,
      List.any_eq_false]
    refine ⟨fun h v hv => ?_, fun h => ⟨rfl, fun i hi _ => ?_⟩⟩
    · obtain ⟨i, hi, rfl⟩ := List.getElem_of_mem hv
      simpa [ih _ hv] using h.2 i hi hi
    · simpa [ih _ (List.getElem_mem hi)] using h _ (List.getElem_mem hi)

/-- Equality is a partial equivalence, which is reflexive at the values that do not hold NaN. Equal
values are of one kind, and lists are equal if their lengths are and their items in each place. -/
theorem equals_partial_equivalence :
    (∀ a b : Value, a.equals b = b.equals a) ∧
    (∀ a b c : Value, a.equals b = true → b.equals c = true → a.equals c = true) ∧
    (∀ a : Value, a.equals a = true ↔ a.holdsNaN = false) ∧
    (∀ a b : Value, a.kind ≠ b.kind → a.equals b = false) ∧
    ∀ xs ys : List Value, (list xs).equals (list ys) = true ↔
      xs.length = ys.length ∧ ∀ i (h : i < xs.length) (h' : i < ys.length),
        xs[i].equals ys[i] = true := by
  refine ⟨equals_comm, fun a b c => equals_trans, fun a => ?_, fun a b h => ?_,
    fun xs ys => equals_list_iff⟩
  · rw [equals_self, Bool.not_eq_true']
  · exact Bool.eq_false_iff.mpr fun heq => h (kind_of_equals heq)

theorem equals_partial_equivalence_nested :
    (list [list [number (-0)], nil]).equals (list [list [number (-0)], nil]) = true ∧
    (list [list [number (0 / 0)]]).equals (list [list [number (0 / 0)]]) = false ∧
    (list [nil]).equals (list [bool false]) = false := by
  obtain ⟨comm, trans, refl, kinds, items⟩ := equals_partial_equivalence
  have zeros : (list [list [number (-0)], nil]).equals (list [list [number 0], nil]) = true := by
    decide +kernel
  refine ⟨trans _ _ _ zeros ((comm _ _).trans zeros), ?_, ?_⟩
  · rw [Bool.eq_false_iff, Ne, refl]
    decide +kernel
  · rw [Bool.eq_false_iff, Ne, items]
    rintro ⟨-, h⟩
    exact Bool.eq_false_iff.mp (kinds nil (bool false) (by decide)) (h 0 (by decide) (by decide))

end Value

end Lox
