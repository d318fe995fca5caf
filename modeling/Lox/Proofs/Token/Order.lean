import Lox.Proofs.Token.Partition

namespace Lox

namespace Position

def Before (p q : Position) : Prop := p.line < q.line ∨ p.line = q.line ∧ p.column < q.column

lemma Before.trans {p q r : Position} (h : p.Before q) (h' : q.Before r) : p.Before r := by
  unfold Before at *
  omega

lemma before_advance (p : Position) (c : Char) : p.Before (p.advance c) := by
  unfold advance
  split
  · exact .inl (Nat.lt_succ_self _)
  · exact .inr ⟨rfl, Nat.lt_succ_self _⟩

lemma before_after (p : Position) {text : List Char} (h : text ≠ []) :
    p.Before (p.after text) := by
  induction text generalizing p with
  | nil => exact absurd rfl h
  | cons c rest ih =>
    have hfirst := before_advance p c
    cases rest with
    | nil => exact hfirst
    | cons d rest => exact hfirst.trans (ih (p.advance c) (List.cons_ne_nil d rest))

end Position

namespace Segment

theorem before_of_mem_place {p : Position} {segments : List Segment}
    (hne : ∀ s ∈ segments, s.text ≠ []) {entry : Position × Segment}
    (h : entry ∈ place p segments) :
    (entry.1 = p ∨ p.Before entry.1) ∧ entry.1.Before (p.after (segments.flatMap text)) := by
  induction segments generalizing p with
  | nil => cases h
  | cons s more ih =>
    obtain ⟨hs, hmore⟩ := List.forall_mem_cons.mp hne
    have hpass := Position.before_after p hs
    rw [List.flatMap_cons, Position.after_append]
    rcases List.mem_cons.mp h with rfl | h
    · refine ⟨.inl rfl, ?_⟩
      by_cases hlast : more.flatMap text = []
      · rw [hlast]
        exact hpass
      · exact hpass.trans (Position.before_after _ hlast)
    · obtain ⟨hstart, hend⟩ := ih hmore h
      rcases hstart with hstart | hstart
      · exact ⟨.inr (hstart ▸ hpass), hend⟩
      · exact ⟨.inr (hpass.trans hstart), hend⟩

lemma pairwise_place (p : Position) {segments : List Segment}
    (hne : ∀ s ∈ segments, s.text ≠ []) :
    (place p segments).Pairwise fun entry entry' => entry.1.Before entry'.1 := by
  induction segments generalizing p with
  | nil => exact .nil
  | cons s more ih =>
    obtain ⟨hs, hmore⟩ := List.forall_mem_cons.mp hne
    refine .cons (fun entry h => ?_) (ih _ hmore)
    have hpass := Position.before_after p hs
    rcases (before_of_mem_place hmore h).1 with hstart | hstart
    · exact hstart ▸ hpass
    · exact hpass.trans hstart

lemma position_of_token? {entry : Position × Segment} {t : Token} (h : token? entry = some t) :
    t.position = entry.1 := by
  obtain ⟨p, shape, text⟩ := entry
  cases shape <;> cases h
  rfl

end Segment

namespace Scan

open Segment

lemma pairwise_tokens (source : List Char) :
    (ofChars source).tokens.Pairwise fun t t' => t.position.Before t'.position := by
  have hplace := pairwise_place .start (partition_cut source).nonempty
  refine hplace.filterMap token? fun entry entry' h t ht t' ht' => ?_
  rw [position_of_token? ht, position_of_token? ht']
  exact h

theorem line_of_mem_tokens {source : List Char} {t : Token} (h : t ∈ (ofChars source).tokens) :
    1 ≤ t.line ∧ t.line ≤ 1 + source.count '\n' := by
  obtain ⟨entry, hmem, ht⟩ := List.mem_filterMap.mp h
  have hbounds := before_of_mem_place (partition_cut source).nonempty hmem
  rw [flatMap_text_cut, Position.after_start, ← position_of_token? ht] at hbounds
  obtain ⟨hstart, hend⟩ := hbounds
  have hstart : Position.start.line ≤ t.position.line := by
    rcases hstart with hstart | hstart | ⟨hline, -⟩
    · exact Nat.le_of_eq (congrArg Position.line hstart.symm)
    · exact Nat.le_of_lt hstart
    · exact Nat.le_of_eq hline
  refine ⟨hstart, ?_⟩
  rcases hend with hend | ⟨hline, -⟩
  · exact Nat.le_of_lt hend
  · exact Nat.le_of_eq hline

end Scan

end Lox
