import Mathlib.Data.List.Forall2
import Lox.Proofs.Scope.Walk
import Lox.Proofs.Token.Join

namespace Lox

section Sorting

variable {α : Type} {le : α → α → Bool}

lemma takeWhile_append_of_neg {p : α → Bool} {xs ys : List α} (hx : ∀ x ∈ xs, p x = true)
    (hy : ∀ y ∈ ys, p y = false) : (xs ++ ys).takeWhile p = xs := by
  rw [List.takeWhile_append_of_pos hx]
  cases ys with
  | nil => simp
  | cons y ys => simp [hy y List.mem_cons_self]

theorem mergeSort_append (htrans : ∀ a b c, le a b = true → le b c = true → le a c = true)
    (htotal : ∀ a b, (le a b || le b a) = true) {xs ys : List α}
    (h : ∀ x ∈ xs, ∀ y ∈ ys, le x y = true) :
    (xs ++ ys).mergeSort le = xs.mergeSort le ++ ys.mergeSort le := by
  induction xs with
  | nil => simp
  | cons x xs ih =>
    obtain ⟨hx, hxs⟩ := List.forall_mem_cons.mp h
    obtain ⟨l, r, hall, hmore, hl⟩ := List.mergeSort_cons htrans htotal x (xs ++ ys)
    obtain ⟨l', r', hall', hmore', hl'⟩ := List.mergeSort_cons htrans htotal x xs
    have hbehind : ∀ {l r zs : List α}, (x :: zs).mergeSort le = l ++ x :: r →
        ∀ y ∈ r, (!le x y) = false := by
      intro l r zs hsort y hy
      have hsorted := List.pairwise_mergeSort htrans htotal (x :: zs)
      rw [hsort] at hsorted
      have htail := (List.pairwise_cons.mp (List.pairwise_append.mp hsorted).2.1).1 y hy
      rw [htail]
      rfl
    have hend : ∀ y ∈ r' ++ ys.mergeSort le, (!le x y) = false := by
      intro y hy
      rcases List.mem_append.mp hy with hy | hy
      · exact hbehind hall' y hy
      · rw [hx y ((List.mergeSort_perm ys le).mem_iff.mp hy)]
        rfl
    -- Both times `x` stands behind those that it does not precede.
    have hsplit : l ++ r = l' ++ (r' ++ ys.mergeSort le) := by
      rw [← hmore, ih hxs, hmore', List.append_assoc]
    have hleft : l = l' := by
      have htake := congrArg (List.takeWhile fun y => !le x y) hsplit
      rwa [takeWhile_append_of_neg hl (hbehind hall), takeWhile_append_of_neg hl' hend] at htake
    have hright := List.append_cancel_left (hleft ▸ hsplit)
    rw [List.cons_append, hall, hall', hleft, hright, List.append_assoc, List.cons_append]

theorem forall₂_mergeSort {β : Type} {le' : β → β → Bool} {R : α → β → Prop}
    (hle : ∀ a b a' b', R a a' → R b b' → le a b = le' a' b') {xs : List α} {ys : List β}
    (h : List.Forall₂ R xs ys) : List.Forall₂ R (xs.mergeSort le) (ys.mergeSort le') := by
  let pairs := (xs.zip ys).mergeSort fun p q => le p.1 q.1
  have hmem : ∀ p ∈ xs.zip ys, R p.1 p.2 := fun _ hp => List.forall₂_zip h hp
  have hfst : pairs.map Prod.fst = xs.mergeSort le := by
    have hmap := List.map_fst_zip (Nat.le_of_eq h.length_eq)
    rw [← congrArg (List.mergeSort · le) hmap]
    exact List.map_mergeSort fun _ _ _ _ => rfl
  have hsnd : pairs.map Prod.snd = ys.mergeSort le' := by
    have hmap := List.map_snd_zip (Nat.le_of_eq h.length_eq.symm)
    rw [← congrArg (List.mergeSort · le') hmap]
    exact List.map_mergeSort fun p hp q hq => hle _ _ _ _ (hmem p hp) (hmem q hq)
  rw [← hfst, ← hsnd, List.forall₂_map_left_iff, List.forall₂_map_right_iff, List.forall₂_same]
  exact fun p hp => hmem p ((List.mergeSort_perm _ _).mem_iff.mp hp)

end Sorting

namespace Scopes

lemma before_trans (a b c : Token) (h : before a b = true) (h' : before b c = true) :
    before a c = true := by
  simp only [before, Bool.or_eq_true, Bool.and_eq_true, decide_eq_true_eq] at *
  omega

lemma before_total (a b : Token) : (before a b || before b a) = true := by
  simp only [before, Bool.or_eq_true, Bool.and_eq_true, decide_eq_true_eq]
  omega

lemma before_down (n : Nat) (a b : Token) : before (a.down n) (b.down n) = before a b := by
  rw [Bool.eq_iff_iff]
  simp only [before, Bool.or_eq_true, Bool.and_eq_true, decide_eq_true_eq]
  simp [Token.down]

def warnings (unused : List Token) : List Diagnostic :=
  (unused.mergeSort before).map fun t => .atToken t (.unusedLocal t.lexeme)

lemma warnings_append {ts us : List Token} (h : ∀ t ∈ ts, ∀ u ∈ us, t.line < u.line) :
    warnings (ts ++ us) = warnings ts ++ warnings us := by
  unfold warnings
  rw [mergeSort_append before_trans before_total, List.map_append]
  intro t ht u hu
  simp [before, h t ht u hu]

lemma warnings_down (n : Nat) (ts : List Token) :
    warnings (ts.map (Token.down n)) = (warnings ts).map (Diagnostic.down n) := by
  unfold warnings
  rw [← List.map_mergeSort fun a _ b _ => (before_down n a b).symm, List.map_map, List.map_map]
  rfl

end Scopes

end Lox
