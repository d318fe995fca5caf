import Lox.Token.Segment
import Mathlib.Tactic.Lemma

namespace Lox

namespace Kind

def text? : Kind → Option String
  | leftParen => some "("
  | rightParen => some ")"
  | leftBrace => some "\x7b"
  | rightBrace => some "\x7d"
  | leftBracket => some "["
  | rightBracket => some "]"
  | comma => some ","
  | dot => some "."
  | semicolon => some ";"
  | question => some "?"
  | colon => some ":"
  | minus => some "-"
  | plus => some "+"
  | slash => some "/"
  | star => some "*"
  | percent => some "%"
  | bang => some "!"
  | bangEqual => some "!="
  | equal => some "="
  | equalEqual => some "=="
  | greater => some ">"
  | greaterEqual => some ">="
  | less => some "<"
  | lessEqual => some "<="
  | identifier | string | number => none
  | andWord => some "and"
  | breakWord => some "break"
  | classWord => some "class"
  | elseWord => some "else"
  | falseWord => some "false"
  | funWord => some "fun"
  | forWord => some "for"
  | ifWord => some "if"
  | nilWord => some "nil"
  | orWord => some "or"
  | printWord => some "print"
  | returnWord => some "return"
  | superWord => some "super"
  | thisWord => some "this"
  | trueWord => some "true"
  | varWord => some "var"
  | whileWord => some "while"
  | finish => some ""

lemma text?_of_mem_keywords {word : String} {k : Kind} (h : (word, k) ∈ keywords) :
    k.text? = some word := by
  have hall : ∀ entry ∈ keywords, entry.2.text? = some entry.1 := by decide
  exact hall _ h

lemma text?_ofChar? {c : Char} {k : Kind} (h : ofChar? c = some k) :
    k.text? = some (String.ofList [c]) := by
  unfold ofChar? at h
  split at h <;> cases h <;> rfl

lemma text?_ofPair? {c d : Char} {k : Kind} (h : ofPair? c d = some k) :
    k.text? = some (String.ofList [c, d]) := by
  unfold ofPair? at h
  split at h <;> cases h <;> rfl

theorem ofWord_cases (word : String) :
    (word, ofWord word) ∈ keywords ∨
      ofWord word = identifier ∧ ∀ entry ∈ keywords, entry.1 ≠ word := by
  unfold ofWord
  cases h : keywords.lookup word with
  | none =>
    refine .inr ⟨rfl, fun entry hentry heq => ?_⟩
    have hne := List.lookup_eq_none_iff.mp h entry hentry
    simp [heq] at hne
  | some k =>
    obtain ⟨before, after, hkeywords, -⟩ := List.lookup_eq_some_iff.mp h
    rw [hkeywords]
    exact .inl (List.mem_append_right _ List.mem_cons_self)

end Kind

namespace Segment

inductive Written : Kind → List Char → Prop
  | fixed {k : Kind} {text : List Char} (hk : k.text? = some (String.ofList text))
      (hne : text ≠ []) : Written k text
  | name {first : Char} {more : List Char} (hfirst : opensName first = true)
      (hmore : ∀ c ∈ more, continuesName c = true)
      (hword : ∀ entry ∈ Kind.keywords, entry.1 ≠ String.ofList (first :: more)) :
      Written .identifier (first :: more)
  | whole {digits : List Char} (hne : digits ≠ [])
      (hdigits : ∀ c ∈ digits, Text.isAsciiDigit c = true) : Written .number digits
  | decimal {digits fraction : List Char} (hne : digits ≠ []) (hne' : fraction ≠ [])
      (hdigits : ∀ c ∈ digits, Text.isAsciiDigit c = true)
      (hfraction : ∀ c ∈ fraction, Text.isAsciiDigit c = true) :
      Written .number (digits ++ '.' :: fraction)
  | string {inner : List Char} (hinner : '"' ∉ inner) : Written .string ('"' :: (inner ++ ['"']))

def closing : List Char := ['*', '/']

def StartsNothing (c : Char) : Prop :=
  isGap c = false ∧ c ≠ '"' ∧ Text.isAsciiDigit c = false ∧ opensName c = false ∧
    Kind.ofChar? c = none

/-- How segments of a shape are written. -/
inductive Formed : Segment → Prop
  | blanks {text : List Char} (hne : text ≠ []) (htext : ∀ c ∈ text, isGap c = true) :
      Formed ⟨.blanks, text⟩
  | lineComment {body : List Char} (hbody : ∀ c ∈ body, inLineComment c = true) :
      Formed ⟨.comment, '/' :: '/' :: body⟩
  | blockComment {body : List Char} (hbody : ¬closing <:+: body) :
      Formed ⟨.comment, '/' :: '*' :: (body ++ closing)⟩
  | token {k : Kind} {text : List Char} (htext : Written k text) : Formed ⟨.token k, text⟩
  | stray {c : Char} (hc : StartsNothing c) : Formed ⟨.stray, [c]⟩
  | openString {body : List Char} (hbody : '"' ∉ body) : Formed ⟨.openString, '"' :: body⟩
  | openComment {body : List Char} (hbody : ¬closing <:+: body) :
      Formed ⟨.openComment, '/' :: '*' :: body⟩

lemma Written.ne_nil {k : Kind} {text : List Char} (h : Written k text) : text ≠ [] := by
  cases h with
  | fixed _ hne => exact hne
  | whole hne _ => exact hne
  | decimal | name | string => simp

lemma Formed.ne_nil {s : Segment} (h : s.Formed) : s.text ≠ [] := by
  cases h with
  | blanks hne _ => exact hne
  | token htext => exact htext.ne_nil
  | lineComment | blockComment | stray | openString | openComment => simp

lemma take_length_takeWhile {p : Char → Bool} (s : List Char) :
    s.take (s.takeWhile p).length = s.takeWhile p :=
  (List.prefix_iff_eq_take.mp (List.takeWhile_prefix p)).symm

lemma of_mem_takeWhile {p : Char → Bool} {s : List Char} {c : Char} (h : c ∈ s.takeWhile p) :
    p c = true := by
  have hall := List.all_takeWhile (l := s) (p := p)
  exact List.all_eq_true.mp hall c h

lemma throughClose_eq_none {s : List Char} (h : throughClose s = none) : ¬closing <:+: s := by
  induction s with
  | nil => simp [closing]
  | cons c rest ih =>
    rw [List.infix_cons_iff, not_or]
    unfold throughClose at h
    split at h
    · cases h
    · next hopen =>
      refine ⟨fun hprefix => ?_, ih (Option.map_eq_none_iff.mp h)⟩
      obtain ⟨more, hmore⟩ := hprefix
      cases hmore
      exact hopen more rfl rfl

theorem throughClose_eq_some {s : List Char} {n : Nat} (h : throughClose s = some n) :
    ∃ body, s.take n = body ++ closing ∧ ¬closing <:+: body := by
  induction s generalizing n with
  | nil => cases h
  | cons c rest ih =>
    unfold throughClose at h
    split at h
    · cases h
      exact ⟨[], rfl, by simp [closing]⟩
    · next hopen =>
      obtain ⟨m, hm, rfl⟩ := Option.map_eq_some_iff.mp h
      obtain ⟨body, htake, hbody⟩ := ih hm
      refine ⟨c :: body, by simp [htake], ?_⟩
      rw [List.infix_cons_iff, not_or]
      refine ⟨fun hprefix => ?_, hbody⟩
      obtain ⟨more, hmore⟩ := hprefix
      cases hmore
      have hrest : rest = '/' :: (more ++ closing ++ rest.drop m) := by
        have hsplit := List.take_append_drop m rest
        rw [htake] at hsplit
        simpa using hsplit.symm
      exact hopen _ rfl hrest

lemma throughQuote_eq_none {s : List Char} (h : throughQuote s = none) : '"' ∉ s := by
  unfold throughQuote at h
  have hnone := List.findIdx?_eq_none_iff.mp (Option.map_eq_none_iff.mp h)
  intro hmem
  simpa using hnone _ hmem

lemma throughQuote_eq_some {s : List Char} {n : Nat} (h : throughQuote s = some n) :
    ∃ inner, s.take n = inner ++ ['"'] ∧ '"' ∉ inner := by
  obtain ⟨i, hi, rfl⟩ := Option.map_eq_some_iff.mp h
  obtain ⟨hlt, hquote, hbefore⟩ := List.findIdx?_eq_some_iff_getElem.mp hi
  refine ⟨s.take i, ?_, fun hmem => ?_⟩
  · have hget : s[i] = '"' := by simpa using hquote
    rw [List.take_succ_eq_append_getElem hlt, hget]
  · obtain ⟨j, hj, hget⟩ := List.mem_iff_getElem.mp hmem
    rw [List.length_take] at hj
    rw [List.getElem_take] at hget
    have hne := hbefore j (by omega)
    simp [hget] at hne

lemma formed_comment (rest : List Char) :
    Formed ⟨(commentExtent ('*' :: rest)).1,
      '/' :: ('*' :: rest).take (commentExtent ('*' :: rest)).2⟩ := by
  unfold commentExtent
  simp only [List.drop_succ_cons, List.drop_zero]
  cases h : throughClose rest with
  | none =>
    rw [List.take_length]
    exact .openComment (throughClose_eq_none h)
  | some n =>
    obtain ⟨body, htake, hbody⟩ := throughClose_eq_some h
    dsimp only
    rw [List.take_succ_cons, htake]
    exact .blockComment hbody

lemma formed_string (rest : List Char) :
    Formed ⟨(stringExtent rest).1, '"' :: rest.take (stringExtent rest).2⟩ := by
  unfold stringExtent
  cases h : throughQuote rest with
  | none =>
    dsimp only
    rw [List.take_length]
    exact .openString (throughQuote_eq_none h)
  | some n =>
    obtain ⟨inner, htake, hinner⟩ := throughQuote_eq_some h
    dsimp only
    rw [htake]
    exact .token (.string hinner)

lemma written_number {first : Char} (hfirst : Text.isAsciiDigit first = true)
    (rest : List Char) : Written .number (first :: rest.take (numberExtent rest)) := by
  have hwhole : ∀ c ∈ first :: rest.takeWhile Text.isAsciiDigit, Text.isAsciiDigit c = true :=
    List.forall_mem_cons.mpr ⟨hfirst, fun c => of_mem_takeWhile⟩
  unfold numberExtent
  dsimp only
  split
  · next digit more hrest =>
    split
    · next hdigit =>
      have htake : rest.take ((rest.takeWhile Text.isAsciiDigit).length + 2 +
          (more.takeWhile Text.isAsciiDigit).length) =
          rest.takeWhile Text.isAsciiDigit ++ '.' :: digit :: more.takeWhile Text.isAsciiDigit := by
        rw [Nat.add_assoc, List.take_add, hrest, take_length_takeWhile, Nat.add_comm 2,
          List.take_succ_cons, List.take_succ_cons, take_length_takeWhile]
      rw [htake, ← List.cons_append]
      refine .decimal (by simp) (by simp) hwhole ?_
      exact List.forall_mem_cons.mpr ⟨hdigit, fun c => of_mem_takeWhile⟩
    · rw [take_length_takeWhile]
      exact .whole (by simp) hwhole
  · rw [take_length_takeWhile]
    exact .whole (by simp) hwhole

lemma formed_name {first : Char} (hfirst : opensName first = true) (rest : List Char) :
    Formed ⟨(nameExtent first rest).1, first :: rest.take (nameExtent first rest).2⟩ := by
  unfold nameExtent
  dsimp only
  rw [take_length_takeWhile]
  refine .token ?_
  rcases Kind.ofWord_cases (String.ofList (first :: rest.takeWhile continuesName)) with h | h
  · exact .fixed (Kind.text?_of_mem_keywords h) (by simp)
  · rw [h.1]
    exact .name hfirst (fun c => of_mem_takeWhile) h.2

lemma formed_operator {first : Char} (rest : List Char)
    (h : Kind.ofChar? first = none → StartsNothing first) :
    Formed ⟨(operatorExtent first rest).1, first :: rest.take (operatorExtent first rest).2⟩ := by
  unfold operatorExtent
  split
  · next k hk =>
    obtain ⟨d, hd, hpair⟩ := Option.bind_eq_some_iff.mp hk
    obtain ⟨more, rfl⟩ := List.head?_eq_some_iff.mp hd
    exact .token (.fixed (Kind.text?_ofPair? hpair) (by simp))
  · cases hk : Kind.ofChar? first with
    | some k => exact .token (.fixed (Kind.text?_ofChar? hk) (by simp))
    | none => exact .stray (h hk)

theorem formed_extent (first : Char) (rest : List Char) :
    Formed ⟨(extent first rest).1, first :: rest.take (extent first rest).2⟩ := by
  unfold extent
  split
  · next hgap =>
    dsimp only
    rw [take_length_takeWhile]
    exact .blanks (by simp) (List.forall_mem_cons.mpr ⟨hgap, fun c => of_mem_takeWhile⟩)
  next hgap =>
  split
  · next hline =>
    simp only [Bool.and_eq_true, decide_eq_true_eq] at hline
    obtain ⟨rfl, hhead⟩ := hline
    obtain ⟨more, rfl⟩ := List.head?_eq_some_iff.mp hhead
    have hslash : inLineComment '/' = true := by decide
    dsimp only
    rw [take_length_takeWhile, List.takeWhile_cons_of_pos hslash]
    exact .lineComment fun c => of_mem_takeWhile
  split
  · next hblock =>
    simp only [Bool.and_eq_true, decide_eq_true_eq] at hblock
    obtain ⟨rfl, hhead⟩ := hblock
    obtain ⟨more, rfl⟩ := List.head?_eq_some_iff.mp hhead
    exact formed_comment more
  split
  · next hquote =>
    obtain rfl : first = '"' := by simpa using hquote
    exact formed_string rest
  next hquote =>
  split
  · next hdigit => exact .token (written_number hdigit rest)
  next hdigit =>
  split
  · next hname => exact formed_name hname rest
  next hname =>
  refine formed_operator rest fun hk => ?_
  exact ⟨by simpa using hgap, by simpa using hquote, by simpa using hdigit, by simpa using hname, hk⟩

lemma formed_of_mem_cut {source : List Char} {s : Segment} (h : s ∈ cut source) : s.Formed := by
  fun_induction cut source with
  | case1 => cases h
  | case2 first rest shape n he ih =>
    rcases List.mem_cons.mp h with rfl | h
    · have hformed := formed_extent first rest
      rwa [he] at hformed
    · exact ih h

end Segment

end Lox
