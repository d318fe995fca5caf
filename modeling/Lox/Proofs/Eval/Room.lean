import Lox.Proofs.Eval.Congruence

namespace Lox

mutual

lemma Value.nestsWithin_mono : (v : Value) → {levels levels' : Nat} → levels ≤ levels' →
    v.nestsWithin levels = true → v.nestsWithin levels' = true
  | .list _, 0, _, _, h => nomatch h
  | .list items, _ + 1, _ + 1, hle, h =>
    nestItemsWithin_mono items (Nat.le_of_succ_le_succ hle) h
  | .nil, _, _, _, _ | .bool _, _, _, _, _ | .number _, _, _, _, _ | .string _, _, _, _, _
  | .function _, _, _, _, _ | .native _, _, _, _, _ | .cls _, _, _, _, _
  | .object _, _, _, _, _ => rfl

lemma nestItemsWithin_mono : (items : List Value) → {levels levels' : Nat} → levels ≤ levels' →
    Value.nestItemsWithin levels items = true → Value.nestItemsWithin levels' items = true
  | [], _, _, _, _ => rfl
  | v :: more, levels, levels', hle, h => by
    rw [Value.nestItemsWithin, Bool.and_eq_true] at h ⊢
    exact ⟨v.nestsWithin_mono hle h.1, nestItemsWithin_mono more hle h.2⟩

end

def Congruence.lasting : Congruence Bool where
  Rel x := ∀ s v s', x false s = .ok v s' → x true s = .ok v s'
  same _ _ _ _ h := h
  bind hx hk s v s' h := by
    obtain ⟨a, s₁, ha, hv⟩ := Eval.bind_ok h
    exact (Eval.bind_of_ok (hx s a s₁ ha) _).trans (hk a s₁ v s' hv)

namespace Evaluator

open Congruence (lasting)

lemma turns_deep (turns n : Nat) : (deep turns n).turns = turns := by
  induction n with
  | zero => rfl
  | succ n ih => exact ih

variable {turns turns' levels levels' : Nat}

lemma lasting_guardEither (hle : levels ≤ levels') (a b : Value) :
    lasting.Rel fun i => guardEither (cond i levels' levels) a b := by
  intro s v s' h
  change guardEither levels a b s = .ok v s' at h
  change guardEither levels' a b s = .ok v s'
  unfold guardEither at h ⊢
  by_cases hfits : (a.nestsWithin levels || b.nestsWithin levels) = true
  · have hmore : (a.nestsWithin levels' || b.nestsWithin levels') = true := by
      rw [Bool.or_eq_true] at hfits ⊢
      exact hfits.imp (a.nestsWithin_mono hle) (b.nestsWithin_mono hle)
    rw [if_pos hfits] at h
    rwa [if_pos hmore]
  · rw [if_neg hfits] at h
    cases h

lemma lasting_loop {condition : Bool → Eval Bool} {body : Bool → Eval Completion}
    (hc : lasting.Rel condition) (hb : lasting.Rel body) (hle : turns ≤ turns') :
    lasting.Rel fun i => loop (condition i) (body i) (cond i turns' turns) := by
  induction turns generalizing turns' with
  | zero => exact fun s v s' h => nomatch h
  | succ turns ih =>
    obtain ⟨turns', rfl⟩ := Nat.exists_eq_succ_of_ne_zero (Nat.ne_of_gt (Nat.zero_lt_of_lt hle))
    have hturn : (fun i => loop (condition i) (body i) (cond i (turns' + 1) (turns + 1))) =
        fun i => loop (condition i) (body i) (cond i turns' turns + 1) := by
      funext i
      cases i <;> rfl
    rw [hturn]
    refine lasting.bind hc fun goesOn => ?_
    split
    · refine lasting.bind hb fun outcome => ?_
      cases outcome with
      | normal => exact ih (Nat.le_of_succ_le_succ hle)
      | _ => exact lasting.same _
    · exact lasting.same _

lemma congruent_deep (hturns : turns ≤ turns') (hlevels : levels ≤ levels') :
    Congruent lasting fun i => cond i (deep turns' levels') (deep turns levels) := by
  induction levels generalizing levels' with
  | zero =>
    refine ⟨fun around a b => ?_, fun hc hb => ?_, fun frame e s v s' h => ?_,
      fun frame st s v s' h => ?_⟩
    · exact lasting_guardEither (Nat.add_le_add_right (Nat.zero_le _) around) a b
    · exact lasting_loop hc hb ((turns_deep turns' levels').symm ▸ hturns)
    · cases h
    · cases h
  | succ levels ih =>
    cases levels' with
    | zero => exact absurd hlevels (Nat.not_succ_le_zero levels)
    | succ levels' =>
      have hwithin := (ih (Nat.le_of_succ_le_succ hlevels)).within
      exact ⟨hwithin.guards, hwithin.loops, hwithin.eval, hwithin.exec⟩

theorem call_lasts (hturns : turns ≤ turns') (hlevels : levels ≤ levels') {first paren : Token}
    {callee v : Value} {args : List Value} {s s' : Store}
    (h : (deep turns levels).call first paren callee args s = .ok v s') :
    (deep turns' levels').call first paren callee args s = .ok v s' :=
  (congruent_deep hturns hlevels).call first paren callee args s v s' h

end Evaluator

end Lox
