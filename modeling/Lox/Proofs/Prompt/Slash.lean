import Mathlib.Data.List.TakeWhile
import Lox.Prompt
import Lox.Proofs.Grammar.Single
import Lox.Proofs.Syntax.WellFormed
import Lox.Proofs.Token.Respace

/-! Lines that start with a slash. A program or an expression starts with one only where it starts
with a comment: such a line is taken for a directive, and every other one is answered. -/

namespace Lox

namespace Text

variable {c : Char} {front : List Char}

lemma Ranges.not_holds_of_disjoint {s t : Ranges}
    (h : ∀ r ∈ s, ∀ q ∈ t, r.2 < q.1 ∨ q.2 < r.1) (hc : s.holds c = true) : t.holds c = false := by
  refine Bool.eq_false_iff.mpr fun ht => ?_
  obtain ⟨r, hr, hlow, hhigh⟩ := Ranges.holds_iff.mp hc
  obtain ⟨q, hq, hlow', hhigh'⟩ := Ranges.holds_iff.mp ht
  have hdisjoint := h r hr q hq
  omega

lemma not_isBlank_of_isLetter (h : isLetter c = true) : isBlank c = false :=
  Ranges.not_holds_of_disjoint (by decide +kernel) h

lemma trimEnd_cons (hc : isBlank c = false) (rest : List Char) :
    trimEnd (c :: rest) = c :: trimEnd rest := by
  simp [trimEnd, List.dropWhile_append, hc]

lemma trim_eq (hfront : ∀ c ∈ front, isBlank c = true) (hc : isBlank c = false)
    (rest : List Char) : trim (front ++ c :: rest) = c :: trimEnd rest := by
  rw [trim, trimStart, List.dropWhile_append_of_pos hfront,
    List.dropWhile_cons_of_neg (by simp [hc]), trimEnd_cons hc]

end Text

namespace Segment

variable {c : Char}

lemma isBlank_of_isGap (h : isGap c = true) : Text.isBlank c = true := by
  rcases isGap_cases h with rfl | rfl | rfl | rfl <;> decide

lemma not_isBlank_of_opensName (h : opensName c = true) : Text.isBlank c = false := by
  rcases Bool.or_eq_true_iff.mp h with hletter | hline
  · exact Text.not_isBlank_of_isLetter hletter
  · rw [of_decide_eq_true hline]
    decide

lemma not_isBlank_of_isAsciiDigit (h : Text.isAsciiDigit c = true) : Text.isBlank c = false := by
  simp only [Text.isAsciiDigit, Bool.and_eq_true, decide_eq_true_eq] at h
  have hlow : 48 ≤ c.toNat := h.1
  have hhigh : c.toNat ≤ 57 := h.2
  have hdigit : Text.Ranges.holds [(48, 57)] c = true :=
    Text.Ranges.holds_iff.mpr ⟨(48, 57), List.mem_singleton_self _, hlow, hhigh⟩
  exact Text.Ranges.not_holds_of_disjoint (by decide) hdigit

lemma not_isBlank_of_ofChar? {k : Kind} (h : Kind.ofChar? c = some k) :
    Text.isBlank c = false := by
  unfold Kind.ofChar? at h
  split at h <;> first | decide | cases h

lemma not_isBlank_of_ofPair? {d : Char} {k : Kind} (h : Kind.ofPair? c d = some k) :
    Text.isBlank c = false := by
  unfold Kind.ofPair? at h
  split at h <;> first | decide | cases h

theorem Written.not_isBlank {k : Kind} {text : List Char} (h : Written k (c :: text)) :
    Text.isBlank c = false := by
  generalize hword : c :: text = word at h
  cases h with
  | fixed hk hne =>
    subst hword
    rcases Kind.cases_of_text? hk (by simp) with hkeyword | ⟨d, hd, hchar⟩ | ⟨d, e, hde, hpair⟩
    · exact not_isBlank_of_opensName (opensName_of_mem_keywords hkeyword c List.mem_cons_self)
    · obtain ⟨rfl, -⟩ := List.cons.inj (String.ofList_injective hd)
      exact not_isBlank_of_ofChar? hchar
    · obtain ⟨rfl, -⟩ := List.cons.inj (String.ofList_injective hde)
      exact not_isBlank_of_ofPair? hpair
  | name hfirst _ _ =>
    obtain ⟨rfl, -⟩ := List.cons.inj hword
    exact not_isBlank_of_opensName hfirst
  | whole _ hdigits =>
    subst hword
    exact not_isBlank_of_isAsciiDigit (hdigits c List.mem_cons_self)
  | decimal hne _ hdigits _ =>
    obtain ⟨first, digits, rfl⟩ := List.exists_cons_of_ne_nil hne
    obtain ⟨rfl, -⟩ := List.cons.inj hword
    exact not_isBlank_of_isAsciiDigit (hdigits c List.mem_cons_self)
  | string _ =>
    obtain ⟨rfl, -⟩ := List.cons.inj hword
    decide

end Segment

namespace Spells

variable {level : Level} {e : Expr} {body : List Stmt} {ts : List Token} {b : Bool}

lemma following_ne_slash (h : Spells (.expression level e) ts) : following ts ≠ .slash := by
  have hstarts : Kind.slash ∉ level.starts := by cases level <;> decide
  exact ne_of_mem_of_not_mem h.following_mem_starts hstarts

end Spells

namespace Segment

variable {c : Char} {more : List Char}

def OpensComment (c : Char) (more : List Char) : Prop :=
  c = '/' ∧ (more.head? = some '/' ∨ more.head? = some '*')

lemma extent_slash (h : ¬OpensComment '/' more) : extent '/' more = (.token .slash, 0) := by
  have hhead : more.head? ≠ some '/' ∧ more.head? ≠ some '*' := by
    simpa [OpensComment, not_or] using h
  have hpair : more.head?.bind (Kind.ofPair? '/') = none :=
    Option.bind_eq_none_iff.mpr fun d _ => rfl
  rw [extent_of_operator (by decide) fun _ => hhead, operatorExtent, hpair]
  rfl

theorem written_of_readFrom {p : Position} (h : readFrom diagnostic? p (c :: more) = [])
    (hc : isGap c = false) (hcomment : ¬OpensComment c more) :
    ∃ k, Written k (c :: more.take (extent c more).2) := by
  rw [readFrom_cons] at h
  have hnone := (List.append_eq_nil_iff.mp h).1
  have hformed := formed_extent c more
  have hsplit := List.take_append_drop (extent c more).2 more
  generalize more.take (extent c more).2 = taken at hnone hformed hsplit ⊢
  generalize (extent c more).1 = shape at hnone hformed
  generalize hword : c :: taken = word at hnone hformed ⊢
  cases hformed with
  | token hwritten => exact ⟨_, hwritten⟩
  | stray | openString | openComment => cases hnone
  | blanks _ hblanks =>
    rw [hblanks c (hword ▸ List.mem_cons_self)] at hc
    cases hc
  | lineComment | blockComment =>
    obtain ⟨rfl, rfl⟩ := List.cons.inj hword
    refine absurd ⟨rfl, ?_⟩ hcomment
    rw [← hsplit]
    simp

end Segment

namespace Prompt

open Segment

variable {text gap more : List Char} {c d : Char}

/-- Whether a text starts with a comment, blanks apart. -/
def startsWithComment (text : List Char) : Bool :=
  match text.dropWhile isGap with
  | '/' :: c :: _ => c = '/' || c = '*'
  | _ => false

lemma startsWithComment_append (hgap : ∀ c ∈ gap, isGap c = true) (hc : isGap c = false) :
    startsWithComment (gap ++ c :: more) = true ↔ OpensComment c more := by
  rw [startsWithComment, List.dropWhile_append_of_pos hgap,
    List.dropWhile_cons_of_neg (by simp [hc])]
  cases more with
  | nil => simp [OpensComment]
  | cons d more =>
    by_cases hslash : c = '/'
    · subst hslash
      simp [OpensComment]
    · simp [hslash, OpensComment]

theorem opening_of_sound (hgap : ∀ c ∈ gap, isGap c = true) (hc : isGap c = false)
    (hdiagnostics : (Scan.ofChars (gap ++ c :: more)).diagnostics = [])
    (htokens : following (Scan.ofChars (gap ++ c :: more)).tokens ≠ .slash) :
    Text.isBlank c = false ∧ (c = '/' ↔ OpensComment c more) := by
  by_cases hcomment : OpensComment c more
  · rw [hcomment.1]
    exact ⟨by decide, by simp [hcomment.1 ▸ hcomment]⟩
  have hdiagnostics : readFrom diagnostic? .start (gap ++ c :: more) = [] := hdiagnostics
  have htokens : following (readFrom token? .start (gap ++ c :: more)) ≠ .slash := htokens
  rw [readFrom_gaps skipsBlanks_diagnostic? hgap] at hdiagnostics
  rw [readFrom_gaps skipsBlanks_token? hgap] at htokens
  obtain ⟨k, hwritten⟩ := written_of_readFrom hdiagnostics hc hcomment
  refine ⟨hwritten.not_isBlank, iff_of_false ?_ hcomment⟩
  rintro rfl
  rw [readFrom_cons, extent_slash hcomment] at htokens
  exact htokens rfl

namespace Directive

lemma ofWords_comment (hd : d = '/' ∨ d = '*') (word : List Char) (argument : String) :
    ofWords (String.ofList ('/' :: d :: word)) argument =
      unknown (String.ofList ('/' :: d :: word)) := by
  have hname : ∀ name ∈ directives.map Prod.fst, String.ofList ('/' :: d :: word) ≠ name := by
    intro name hname heq
    have hsecond : ∀ name ∈ directives.map Prod.fst, name.toList[1]? ≠ some '/' ∧
        name.toList[1]? ≠ some '*' := by decide +kernel
    have hchars : name.toList = '/' :: d :: word := by rw [← heq, String.toList_ofList]
    have := hsecond name hname
    rw [hchars] at this
    simp_all
  rw [ofWords, if_neg (hname _ (by decide)), if_neg (hname _ (by decide)),
    if_neg (hname _ (by decide))]

theorem ofLine?_of_opensComment (hgap : ∀ c ∈ gap, isGap c = true) (h : OpensComment c more) :
    ofLine? (gap ++ c :: more) =
      some (unknown (String.ofList (Text.splitWord (Text.trim (gap ++ c :: more))).1)) := by
  obtain ⟨rfl, hhead⟩ := h
  obtain ⟨d, rest, rfl⟩ : ∃ d rest, more = d :: rest := by
    cases more with
    | nil => simp at hhead
    | cons d rest => exact ⟨d, rest, rfl⟩
  have hd : d = '/' ∨ d = '*' := by simpa using hhead
  have hslash : Text.isBlank '/' = false := by decide
  have hblank : Text.isBlank d = false := by rcases hd with rfl | rfl <;> decide
  have htrim : Text.trim (gap ++ '/' :: d :: rest) = '/' :: d :: Text.trimEnd rest := by
    rw [Text.trim_eq (fun c hc => isBlank_of_isGap (hgap c hc)) hslash, Text.trimEnd_cons hblank]
  simp only [ofLine?, htrim, Text.splitWord, List.takeWhile_cons, hslash, hblank, Bool.not_false,
    if_true, ofWords_comment hd]

lemma ofLine?_of_ne_slash (hgap : ∀ c ∈ gap, isGap c = true) (hblank : Text.isBlank c = false)
    (hc : c ≠ '/') : ofLine? (gap ++ c :: more) = none := by
  rw [ofLine?, Text.trim_eq (fun c hc => isBlank_of_isGap (hgap c hc)) hblank]
  split
  · next heq => exact absurd (List.cons.inj heq).1 hc
  · rfl

end Directive

theorem following_ne_slash_of_sound {source : String}
    (h : (Program.ofSource source).hasError = false ∨
      (Grammar.bareExpression? (Scan.ofString source)).isSome = true) :
    (Scan.ofString source).diagnostics = [] ∧
      following (Scan.ofString source).tokens ≠ .slash := by
  rcases h with hprogram | hexpression
  · obtain ⟨hdiagnostics, hspells⟩ := Program.spells_of_sound hprogram
    exact ⟨hdiagnostics, hspells.following_declarations.2⟩
  · obtain ⟨e, he⟩ := Option.isSome_iff_exists.mp hexpression
    obtain ⟨hdiagnostics, hspells⟩ := (Grammar.bareExpression?_eq_some_iff rfl).mp he
    exact ⟨hdiagnostics, hspells.following_ne_slash⟩

lemma normalize_eq_self_iff : normalize text = text ↔ ∀ c ∈ text, c ∉ invisible := by
  simp [normalize]

theorem submit_filled (p : Prompt) {source : String}
    (hinvisible : ∀ c ∈ source.toList, c ∉ invisible)
    (hfilled : (Text.trim source.toList).isEmpty = false) :
    p.submit (some source) =
      (Directive.ofLine? source.toList).elim (p.evaluate source) p.obey := by
  rw [submit, normalize_eq_self_iff.mpr hinvisible, hfilled, String.ofList_toList]
  cases Directive.ofLine? source.toList <;> rfl

theorem exists_opening (h : ∃ c ∈ text, Text.isBlank c = false) :
    ∃ gap c more, text = gap ++ c :: more ∧ (∀ c ∈ gap, isGap c = true) ∧ isGap c = false := by
  have hgap : ∀ c ∈ text.takeWhile isGap, isGap c = true := fun c => of_mem_takeWhile
  have hsplit := (List.takeWhile_append_dropWhile (p := isGap) (l := text)).symm
  cases hrest : text.dropWhile isGap with
  | nil =>
    obtain ⟨c, hc, hblank⟩ := h
    rw [isBlank_of_isGap (List.dropWhile_eq_nil_iff.mp hrest c hc)] at hblank
    cases hblank
  | cons c more =>
    refine ⟨text.takeWhile isGap, c, more, hrest ▸ hsplit, hgap, ?_⟩
    have hhead := List.head?_dropWhile_not isGap text
    rw [hrest] at hhead
    simpa using hhead

/-- A program or an expression is answered as one unless it starts with a comment. Then it is taken
for a directive that is not known, and nothing else happens. -/
theorem answered_unless_comment (p : Prompt) {source : String}
    (hinvisible : ∀ c ∈ source.toList, c ∉ invisible)
    (hblank : ∃ c ∈ source.toList, Text.isBlank c = false)
    (hsound : (Program.ofSource source).hasError = false ∨
      (Grammar.bareExpression? (Scan.ofString source)).isSome = true) :
    (Directive.ofLine? (normalize source.toList) = none ↔
      startsWithComment source.toList = false) ∧
    p.submit (some source) =
      if startsWithComment source.toList then
        p.say "" ("Unknown command: " ++
          String.ofList (Text.splitWord (Text.trim source.toList)).1 ++ "\n")
      else p.evaluate source := by
  obtain ⟨hdiagnostics, htokens⟩ := following_ne_slash_of_sound hsound
  obtain ⟨gap, c, more, hsource, hgap, hc⟩ := exists_opening hblank
  rw [Scan.ofString, hsource] at hdiagnostics htokens
  obtain ⟨hcblank, hslash⟩ := opening_of_sound hgap hc hdiagnostics htokens
  have hblanks : ∀ c ∈ gap, Text.isBlank c = true := fun c hc => isBlank_of_isGap (hgap c hc)
  have hfilled : (Text.trim source.toList).isEmpty = false := by
    rw [hsource, Text.trim_eq hblanks hcblank]
    rfl
  rw [p.submit_filled hinvisible hfilled, normalize_eq_self_iff.mpr hinvisible, hsource]
  by_cases hcomment : OpensComment c more
  · rw [Directive.ofLine?_of_opensComment hgap hcomment,
      (startsWithComment_append hgap hc).mpr hcomment]
    exact ⟨by simp, rfl⟩
  · have hplain : startsWithComment (gap ++ c :: more) = false :=
      Bool.eq_false_iff.mpr (mt (startsWithComment_append hgap hc).mp hcomment)
    rw [Directive.ofLine?_of_ne_slash hgap hcblank (mt hslash.mp hcomment), hplain]
    exact ⟨by simp, rfl⟩

theorem answered_unless_comment_division :
    let p := Prompt.start false false 0
    let source := " 6\n/ 2 // a half"
    (∀ c ∈ source.toList, c ∉ invisible) ∧ (∃ c ∈ source.toList, Text.isBlank c = false) ∧
      (Grammar.bareExpression? (Scan.ofString source)).isSome = true ∧
      p.submit (some source) = p.evaluate source := by
  intro p source
  have hinvisible : ∀ c ∈ source.toList, c ∉ invisible :=
    normalize_eq_self_iff.mp (by decide +kernel)
  have hblank : ∃ c ∈ source.toList, Text.isBlank c = false :=
    ⟨'6', by decide +kernel, by decide⟩
  have hexpression : (Grammar.bareExpression? (Scan.ofString source)).isSome = true := by
    decide +kernel
  obtain ⟨-, hsubmit⟩ := answered_unless_comment p hinvisible hblank (.inr hexpression)
  refine ⟨hinvisible, hblank, hexpression, ?_⟩
  rw [hsubmit, if_neg (by decide +kernel)]

theorem sum_behind_comment_unknown :
    let p := Prompt.start false false 0
    let source := "/* sum */ 1 + 2"
    (∀ c ∈ source.toList, c ∉ invisible) ∧ (∃ c ∈ source.toList, Text.isBlank c = false) ∧
      (Grammar.bareExpression? (Scan.ofString source)).isSome = true ∧
      Directive.ofLine? (normalize source.toList) = some (.unknown "/*") ∧
      p.submit (some source) = p.say "" "Unknown command: /*\n" := by
  intro p source
  have hline : Directive.ofLine? (normalize source.toList) = some (.unknown "/*") := by
    decide +kernel
  have hfilled : (Text.trim (normalize source.toList)).isEmpty = false := by decide +kernel
  refine ⟨normalize_eq_self_iff.mp (by decide +kernel), ⟨'1', by decide +kernel, by decide⟩,
    by decide +kernel, hline, ?_⟩
  simp only [submit, hfilled, hline]
  rfl

end Prompt

end Lox
