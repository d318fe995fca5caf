import Lox.Prompt.Highlight
import Lox.Proofs.Token.Respace

/-! Highlighting loses nothing: the fragments of a line are the line, and the lines are the text,
whatever the scanner makes of them. -/

namespace Lox.Prompt.Fragment

variable {word text before after : List Char} {ts : List Token} {f : Fragment}

lemma splitAt?_eq_some (h : splitAt? word text = some (before, after)) :
    text = before ++ (word ++ after) := by
  induction text generalizing before with
  | nil =>
    simp only [splitAt?, Option.ite_none_right_eq_some, List.isEmpty_iff, Option.some.injEq,
      Prod.mk.injEq] at h
    obtain ⟨rfl, rfl, rfl⟩ := h
    rfl
  | cons c text ih =>
    rw [splitAt?] at h
    split at h
    · next hprefix =>
      cases h
      exact List.prefix_iff_eq_append.mp (List.isPrefixOf_iff_prefix.mp hprefix) |>.symm
    · obtain ⟨⟨front, back⟩, hfind, hcut⟩ := Option.map_eq_some_iff.mp h
      cases hcut
      rw [ih hfind, List.cons_append]

lemma flatMap_text_gap (text : List Char) : (gap text).flatMap Fragment.text = text := by
  cases text <;> simp [gap]

lemma text_ne_nil_of_mem_gap (h : f ∈ gap text) : f.text ≠ [] := by
  cases text with
  | nil => cases h
  | cons c text =>
    obtain rfl := List.mem_singleton.mp h
    exact List.cons_ne_nil c text

lemma flatMap_text_ofTokens (before : Option Kind) (text : List Char) (ts : List Token) :
    (ofTokens before text ts).flatMap Fragment.text = text := by
  induction ts generalizing before text with
  | nil => exact flatMap_text_gap text
  | cons t ts ih =>
    rw [ofTokens]
    split
    · next skipped rest hfind =>
      rw [List.flatMap_append, flatMap_text_gap, List.flatMap_cons, ih]
      exact (splitAt?_eq_some hfind).symm
    · exact ih _ _

lemma text_ne_nil_of_mem_ofTokens {before : Option Kind} (hts : ∀ t ∈ ts, t.lexeme.toList ≠ [])
    (h : f ∈ ofTokens before text ts) : f.text ≠ [] := by
  induction ts generalizing before text with
  | nil => exact text_ne_nil_of_mem_gap h
  | cons t ts ih =>
    obtain ⟨ht, hts⟩ := List.forall_mem_cons.mp hts
    rw [ofTokens] at h
    split at h
    · rcases List.mem_append.mp h with h | h
      · exact text_ne_nil_of_mem_gap h
      · rcases List.mem_cons.mp h with rfl | h
        · exact ht
        · exact ih hts h
    · exact ih hts h

lemma lexeme_ne_nil {source : List Char} {t : Token} (h : t ∈ (Scan.ofChars source).tokens) :
    t.lexeme.toList ≠ [] :=
  (Scan.written_of_mem_tokens h).ne_nil

lemma lines_ne_nil (text : List Char) : lines text ≠ [] := by
  fun_induction lines text <;> simp

lemma intercalate_lines (text : List Char) : ['\n'].intercalate (lines text) = text := by
  induction text with
  | nil => rfl
  | cons c text ih =>
    obtain ⟨line, more, hlines⟩ := List.exists_cons_of_ne_nil (lines_ne_nil text)
    rw [hlines] at ih
    by_cases hc : c = '\n'
    · rw [lines, if_pos hc, hlines, List.intercalate_cons_cons, ih, hc]
      rfl
    · rw [lines, if_neg hc, hlines]
      cases more <;> simp_all [List.intercalate]

lemma length_lines (text : List Char) : (lines text).length = text.count '\n' + 1 := by
  induction text with
  | nil => rfl
  | cons c text ih =>
    obtain ⟨line, more, hlines⟩ := List.exists_cons_of_ne_nil (lines_ne_nil text)
    by_cases hc : c = '\n' <;> simp_all [lines]

lemma not_mem_of_mem_lines {line : List Char} (h : line ∈ lines text) : '\n' ∉ line := by
  induction text generalizing line with
  | nil => simp_all [lines]
  | cons c text ih =>
    obtain ⟨first, more, hlines⟩ := List.exists_cons_of_ne_nil (lines_ne_nil text)
    rw [hlines] at ih
    by_cases hc : c = '\n'
    · rw [lines, if_pos hc, hlines] at h
      rcases List.mem_cons.mp h with rfl | h
      · exact List.not_mem_nil
      · exact ih h
    · rw [lines, if_neg hc, hlines] at h
      rcases List.mem_cons.mp h with rfl | h
      · rw [List.mem_cons, not_or]
        exact ⟨Ne.symm hc, ih List.mem_cons_self⟩
      · exact ih (List.mem_cons_of_mem first h)

lemma flatMap_text_ofLine (line : List Char) : (ofLine line).flatMap Fragment.text = line := by
  unfold ofLine
  split
  · next h => simp [List.isEmpty_iff.mp h]
  · exact flatMap_text_ofTokens none line _

/-- The fragments of a line put together are the line, and only an empty line has an empty one. The
lines of a text put together are the text, as many as it has ends of lines and one more. -/
theorem fragments_join :
    (∀ line, (ofLine line).flatMap Fragment.text = line ∧
      ∀ f ∈ ofLine line, f.text = [] → line = []) ∧
    ∀ text, ['\n'].intercalate ((ofText text).map fun fs => fs.flatMap Fragment.text) = text ∧
      (ofText text).length = text.count '\n' + 1 ∧
      ∀ fs ∈ ofText text, '\n' ∉ fs.flatMap Fragment.text := by
  refine ⟨fun line => ⟨flatMap_text_ofLine line, fun f hf hnil => ?_⟩, fun text => ?_⟩
  · unfold ofLine at hf
    split at hf
    · next h => exact List.isEmpty_iff.mp h
    · exact absurd hnil (text_ne_nil_of_mem_ofTokens (fun _ => lexeme_ne_nil) hf)
  · have hmap : (ofText text).map (fun fs => fs.flatMap Fragment.text) = lines text := by
      rw [ofText, List.map_map]
      exact List.map_id'' flatMap_text_ofLine _
    refine ⟨by rw [hmap, intercalate_lines], by rw [ofText, List.length_map, length_lines], ?_⟩
    intro fs hfs
    obtain ⟨line, hline, rfl⟩ := List.mem_map.mp hfs
    rw [flatMap_text_ofLine]
    exact not_mem_of_mem_lines hline

end Lox.Prompt.Fragment
