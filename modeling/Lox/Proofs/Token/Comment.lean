import Lox.Proofs.Token.Order
import Lox.Proofs.Token.Reword

/-! Line comments. A comment reaches from its two slashes up to the end of the line or to a null
character, and what is written in it leaves no trace in the rest of the text. -/

namespace Lox

namespace Segment

variable {α : Type} {f : Position × Segment → Option α} {first : Char}
  {rest text comment before : List Char}

def SkipsComments (f : Position × Segment → Option α) : Prop :=
  ∀ p text, f (p, ⟨.comment, text⟩) = none

lemma skipsComments_token? : SkipsComments token? := fun _ _ => rfl

lemma skipsComments_diagnostic? : SkipsComments diagnostic? := fun _ _ => rfl

lemma extent_slashes (rest : List Char) :
    extent '/' ('/' :: rest) = (.comment, (rest.takeWhile inLineComment).length + 1) := by
  have hgap : isGap '/' = false := by decide
  have hslash : inLineComment '/' = true := by decide
  simp [extent, hgap, hslash]

theorem readFrom_slashes (hf : SkipsComments f) (p : Position) (rest : List Char) :
    readFrom f p ('/' :: '/' :: rest) =
      readFrom f (p.after ('/' :: '/' :: rest.takeWhile inLineComment))
        (rest.dropWhile inLineComment) := by
  rw [readFrom_cons, extent_slashes, hf, List.take_succ_cons, List.drop_succ_cons,
    take_length_takeWhile, drop_length_takeWhile]
  rfl

/-- The texts in front of which two slashes belong to what comes before them: a comment that goes
on, or one that starts with a slash more. -/
def Slashed (text : List Char) : Prop :=
  ∃ body, text ++ ['/', '/'] = '/' :: '/' :: body ∧ ∀ c ∈ body, inLineComment c = true

lemma extent_before_slashes (hfirst : isGap first = false) {text : List Char}
    (hopen : isOpen ⟨(extent first rest).1, text⟩ = false) (hslashed : ¬Slashed (first :: rest))
    (comment : List Char) :
    extent first (rest ++ '/' :: '/' :: comment) = extent first rest := by
  refine extent_behind ⟨by decide +kernel, by decide, by decide, by decide⟩ hfirst hopen ?_ ?_
  · rintro rfl rfl
    exact absurd ⟨['/'], rfl, List.forall_mem_singleton.mpr (by decide)⟩ hslashed
  · rintro rfl hhead
    obtain ⟨body, rfl⟩ := List.head?_eq_some_iff.mp hhead
    -- A line comment that the slashes would go on stops before the end of the text.
    by_cases hbody : ∀ c ∈ body, inLineComment c = true
    · refine absurd ⟨body ++ ['/', '/'], rfl, ?_⟩ hslashed
      simpa [or_imp, forall_and] using ⟨hbody, by decide⟩
    · have hslash : inLineComment '/' = true := by decide
      rw [List.cons_append, List.takeWhile_cons_of_pos hslash, List.takeWhile_cons_of_pos hslash,
        takeWhile_append_of_not_all hbody]

theorem readFrom_comment (hblanks : SkipsBlanks f) (hf : SkipsComments f) (p : Position)
    (before comment : List Char) (h : readFrom diagnostic? p before = []) :
    readFrom f p (before ++ '/' :: '/' :: comment) =
      readFrom f p (before ++ ['/', '/']) ++
        readFrom f (p.after (before ++ '/' :: '/' :: comment.takeWhile inLineComment))
          (comment.dropWhile inLineComment) := by
  cases before with
  | nil =>
    rw [List.nil_append, readFrom_slashes hf, List.nil_append, readFrom_slashes hf p []]
    exact congrArg (· ++ _) (readFrom_nil _).symm
  | cons first rest =>
    by_cases hfirst : isGap first = true
    · rw [readFrom_gap skipsBlanks_diagnostic? hfirst] at h
      rw [List.cons_append, readFrom_gap hblanks hfirst, List.cons_append,
        readFrom_gap hblanks hfirst, readFrom_comment hblanks hf _ rest comment h]
      rfl
    by_cases hslashed : Slashed (first :: rest)
    · obtain ⟨body, hbody, hline⟩ := hslashed
      have hwhole (comment : List Char) :
          first :: rest ++ '/' :: '/' :: comment = '/' :: '/' :: (body ++ comment) := by
        rw [List.append_cons, List.append_cons, List.append_assoc (first :: rest)]
        exact congrArg (· ++ comment) hbody
      have hread (comment : List Char) :=
        readFrom_slashes hf p (body ++ comment)
      simp only [List.takeWhile_append_of_pos hline, List.dropWhile_append_of_pos hline] at hread
      rw [hwhole, hwhole [], hwhole, hread, hread, List.dropWhile_nil, readFrom_nil,
        List.nil_append]
    · rw [readFrom_cons, List.append_eq_nil_iff] at h
      have hopen : isOpen ⟨(extent first rest).1, first :: rest.take (extent first rest).2⟩ =
          false := by
        cases hshape : (extent first rest).1 <;> simp_all [isOpen, diagnostic?]
      have hextent := extent_before_slashes (Bool.eq_false_iff.mpr hfirst) hopen hslashed
      have hle := extent_le first rest
      have htext : first :: rest.take (extent first rest).2 ++
          (rest.drop (extent first rest).2 ++ '/' :: '/' :: comment.takeWhile inLineComment) =
          first :: rest ++ '/' :: '/' :: comment.takeWhile inLineComment := by
        rw [← List.append_assoc, List.cons_append, List.take_append_drop]
      rw [List.cons_append, readFrom_cons, hextent, List.take_append_of_le_length hle,
        List.drop_append_of_le_length hle, readFrom_comment hblanks hf _ _ comment h.2,
        List.cons_append, readFrom_cons, hextent, List.take_append_of_le_length hle,
        List.drop_append_of_le_length hle, List.append_assoc, ← Position.after_append, htext]
termination_by before.length

theorem extent_null (rest : List Char) : extent '\x00' rest = (.stray, 0) := by
  have hpair : rest.head?.bind (Kind.ofPair? '\x00') = none := by
    refine Option.bind_eq_none_iff.mpr fun d _ => ?_
    unfold Kind.ofPair?
    split <;> simp_all
  have hgap : isGap '\x00' = false := by decide
  have hdigit : Text.isAsciiDigit '\x00' = false := by decide
  have hname : opensName '\x00' = false := by decide +kernel
  simp [extent, hgap, hdigit, hname, operatorExtent, hpair, Kind.ofChar?]

theorem line_of_mem_diagnostics {p : Position} {source : List Char} {d : Diagnostic}
    (h : d ∈ readFrom diagnostic? p source) : p.line ≤ d.line := by
  obtain ⟨⟨q, shape, text⟩, hmem, hd⟩ := List.mem_filterMap.mp h
  have hq : p.line ≤ q.line := by
    rcases (before_of_mem_place (partition_cut source).nonempty hmem).1 with hq | hq | ⟨hline, -⟩
    · exact Nat.le_of_eq (congrArg Position.line hq.symm)
    · exact Nat.le_of_lt hq
    · exact Nat.le_of_eq hline
  cases shape <;> cases hd
  case openString => exact Nat.le_trans hq (Position.line_after q text ▸ Nat.le_add_right _ _)
  all_goals exact hq

end Segment

namespace Scan

open Segment

variable {before comment after : List Char}

lemma all_inLineComment (hline : '\n' ∉ comment) (hnull : '\x00' ∉ comment) :
    ∀ c ∈ comment, inLineComment c = true := by
  intro c hc
  simp only [inLineComment, Bool.and_eq_true, decide_eq_true_eq]
  exact ⟨ne_of_mem_of_not_mem hc hline, ne_of_mem_of_not_mem hc hnull⟩

lemma lines_comment (hline : '\n' ∉ comment) :
    lines (before ++ '/' :: '/' :: comment) = lines before := by
  simp [lines, List.count_eq_zero_of_not_mem hline]

lemma after_comment (hline : '\n' ∉ comment) :
    (Position.start.after (before ++ '/' :: '/' :: comment)).advance '\n' =
      Position.start.down (lines before) := by
  rw [← lines_comment hline, ← after_newline, Position.after_append _ _ ['\n']]
  rfl

theorem readFrom_commented {α : Type} {f : Position × Segment → Option α} (hblanks : SkipsBlanks f)
    (hf : SkipsComments f) (h : (ofChars before).diagnostics = []) (hline : '\n' ∉ comment)
    (hnull : '\x00' ∉ comment) (after : List Char) :
    readFrom f .start (before ++ '/' :: '/' :: (comment ++ '\n' :: after)) =
      readFrom f .start (before ++ ['/', '/']) ++
        readFrom f (Position.start.down (lines before)) after := by
  have hall := all_inLineComment hline hnull
  have hstop : inLineComment '\n' = false := by decide
  rw [readFrom_comment hblanks hf _ _ _ h, List.takeWhile_append_of_pos hall,
    List.dropWhile_append_of_pos hall, List.takeWhile_cons_of_neg (by simp [hstop]),
    List.dropWhile_cons_of_neg (by simp [hstop]), List.append_nil, readFrom_gap hblanks (by decide),
    after_comment hline]

theorem ofChars_commented (h : (ofChars before).diagnostics = []) (hline : '\n' ∉ comment)
    (hnull : '\x00' ∉ comment) (after : List Char) :
    ofChars (before ++ '/' :: '/' :: (comment ++ '\n' :: after)) =
      { tokens := readFrom token? .start (before ++ ['/', '/']) ++
          readFrom token? (Position.start.down (lines before)) after
        finish := finishAt ((Position.start.down (lines before)).after after)
        diagnostics := readFrom diagnostic? .start (before ++ ['/', '/']) ++
          readFrom diagnostic? (Position.start.down (lines before)) after } := by
  have hafter : Position.start.after (before ++ '/' :: '/' :: (comment ++ '\n' :: after)) =
      (Position.start.down (lines before)).after after := by
    rw [← after_comment hline, ← List.cons_append, ← List.cons_append, ← List.append_assoc,
      Position.after_append]
    rfl
  rw [← readFrom_commented skipsBlanks_token? skipsComments_token? h hline hnull,
    ← readFrom_commented skipsBlanks_diagnostic? skipsComments_diagnostic? h hline hnull, ← hafter]
  rfl

theorem mem_diagnostics_of_null (h : (ofChars before).diagnostics = []) (hline : '\n' ∉ comment)
    (hnull : '\x00' ∈ comment) (after : List Char) :
    ∃ more, readFrom diagnostic? .start (before ++ '/' :: '/' :: (comment ++ '\n' :: after)) =
      readFrom diagnostic? .start (before ++ ['/', '/']) ++
        .onLine (lines before) .strayCharacter :: more := by
  obtain ⟨body, tail, rfl, hbody⟩ := List.eq_append_cons_of_mem hnull
  rw [List.mem_append, not_or] at hline
  have hall := all_inLineComment hline.1 hbody
  have hstop : inLineComment '\x00' = false := by decide
  have hplace : (Position.start.after (before ++ '/' :: '/' :: body)).line = lines before := by
    rw [← lines_comment hline.1, Position.after_start, lines, Nat.add_comm]
    rfl
  rw [readFrom_comment skipsBlanks_diagnostic? skipsComments_diagnostic? _ _ _ h,
    List.append_assoc, List.takeWhile_append_of_pos hall, List.dropWhile_append_of_pos hall,
    List.cons_append, List.takeWhile_cons_of_neg (by simp [hstop]),
    List.dropWhile_cons_of_neg (by simp [hstop]), List.append_nil, readFrom_cons, extent_null,
    ← hplace]
  exact ⟨_, rfl⟩

/-- A comment that holds no null character can be exchanged for another one without any trace in
the tokens, their places and what is reported, and only for another one of that kind: a null
character ends a comment, and is reported. -/
theorem comment_inert_iff {before comment comment' after : String}
    (h : (ofString before).diagnostics = []) (hline : '\n' ∉ comment.toList)
    (hline' : '\n' ∉ comment'.toList) (hnull' : '\x00' ∉ comment'.toList) :
    ofString (before ++ "//" ++ comment ++ "\n" ++ after) =
        ofString (before ++ "//" ++ comment' ++ "\n" ++ after) ↔
      '\x00' ∉ comment.toList := by
  have htext (comment : String) : (before ++ "//" ++ comment ++ "\n" ++ after).toList =
      before.toList ++ '/' :: '/' :: (comment.toList ++ '\n' :: after.toList) := by simp
  simp only [ofString, htext]
  rw [ofChars_commented h hline' hnull']
  constructor
  · intro heq hnull
    obtain ⟨more, hdiagnostics⟩ := mem_diagnostics_of_null h hline hnull after.toList
    have hsame := hdiagnostics.symm.trans (congrArg Scan.diagnostics heq)
    -- What is reported about the text behind the comment is reported on a later line.
    have hmem := List.append_cancel_left hsame ▸ List.mem_cons_self (l := more)
    have hlater := line_of_mem_diagnostics hmem
    simp only [Position.down, Position.start, Diagnostic.onLine] at hlater
    omega
  · exact fun hnull => ofChars_commented h hline hnull after.toList

theorem comment_inert_quotes :
    ofString ("a /" ++ "//" ++ " \" */ é" ++ "\n" ++ "+ b") =
      ofString ("a /" ++ "//" ++ "" ++ "\n" ++ "+ b") :=
  (comment_inert_iff (by decide +kernel) (by decide +kernel) (by decide +kernel)
    (by decide +kernel)).mpr (by decide +kernel)

theorem comment_null_reported :
    (ofString "").diagnostics = [] ∧ '\n' ∉ " a\x00b".toList ∧ '\n' ∉ "".toList ∧
      (ofString ("" ++ "//" ++ " a\x00b" ++ "\n" ++ "print 1;")).tokens =
        ⟨.identifier, "b", 1, 6⟩ ::
          (ofString ("" ++ "//" ++ "" ++ "\n" ++ "print 1;")).tokens ∧
      (ofString ("" ++ "//" ++ " a\x00b" ++ "\n" ++ "print 1;")).diagnostics =
        [.onLine 1 .strayCharacter] ∧
      (ofString ("" ++ "//" ++ "" ++ "\n" ++ "print 1;")).diagnostics = [] := by
  decide +kernel

end Scan

end Lox
