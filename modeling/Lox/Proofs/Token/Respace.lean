import Lox.Proofs.Token.Reword

/-! Tokens written out again with blanks between them. Each lexeme is read as itself whatever blank
stands behind it, and no blank is more than a blank, so that the text is read as the same tokens. -/

namespace Lox

namespace Kind

theorem cases_of_text? {k : Kind} {word : String} (h : k.text? = some word) (hne : word ≠ "") :
    (word, k) ∈ keywords ∨ (∃ c, word = String.ofList [c] ∧ ofChar? c = some k) ∨
      ∃ c d, word = String.ofList [c, d] ∧ ofPair? c d = some k := by
  cases k <;> cases h
  case finish => exact absurd rfl hne
  case bangEqual | equalEqual | greaterEqual | lessEqual => exact .inr (.inr ⟨_, _, rfl, rfl⟩)
  case andWord | breakWord | classWord | elseWord | falseWord | funWord | forWord | ifWord |
      nilWord | orWord | printWord | returnWord | superWord | thisWord | trueWord | varWord |
      whileWord => exact .inl (by decide)
  all_goals exact .inr (.inl ⟨_, rfl, rfl⟩)

lemma ofWord_of_mem_keywords {word : String} {k : Kind} (h : (word, k) ∈ keywords) :
    ofWord word = k := by
  have hall : ∀ entry ∈ keywords, ofWord entry.1 = entry.2 := by decide
  exact hall _ h

end Kind

namespace Segment

variable {first c : Char} {text more word : List Char} {k : Kind}

lemma isGap_cases (h : isGap c = true) : c = ' ' ∨ c = '\t' ∨ c = '\r' ∨ c = '\n' := by
  simpa [isGap, or_assoc] using h

def Breaks (more : List Char) : Prop := ∀ c ∈ more.head?, isGap c = true

lemma Breaks.any {p : Char → Bool} (h : Breaks more)
    (hp : p ' ' = false ∧ p '\t' = false ∧ p '\r' = false ∧ p '\n' = false) :
    more.head?.any p = false := by
  cases more with
  | nil => rfl
  | cons c more => rcases isGap_cases (h c rfl) with rfl | rfl | rfl | rfl <;> simp [hp]

lemma Breaks.head? (h : Breaks more) (hc : isGap c = false) : more.head? ≠ some c := by
  intro hhead
  rw [h c hhead] at hc
  cases hc

lemma Breaks.ofPair? (h : Breaks more) (first : Char) :
    more.head?.bind (Kind.ofPair? first) = none := by
  refine Option.bind_eq_none_iff.mpr fun d hd => ?_
  have hequal : d ≠ '=' := fun heq => h.head? (c := '=') (by decide) (heq ▸ hd)
  unfold Kind.ofPair?
  split <;> first | rfl | exact absurd rfl hequal

lemma extent_of_isAsciiDigit (h : Text.isAsciiDigit first = true) (rest : List Char) :
    extent first rest = (.token .number, numberExtent rest) := by
  have hgap : isGap first = false := by
    refine Bool.eq_false_iff.mpr fun hgap => ?_
    rcases isGap_cases hgap with rfl | rfl | rfl | rfl <;> cases h
  have hslash : first ≠ '/' := fun heq => by cases heq; cases h
  have hquote : first ≠ '"' := fun heq => by cases heq; cases h
  simp [extent, hgap, hslash, hquote, h]

lemma extent_of_quote (rest : List Char) : extent '"' rest = stringExtent rest := by
  have hgap : isGap '"' = false := by decide
  simp [extent, hgap]

theorem extent_of_operator (h : Kind.ofChar? first ≠ none) {rest : List Char}
    (hslash : first = '/' → rest.head? ≠ some '/' ∧ rest.head? ≠ some '*') :
    extent first rest = operatorExtent first rest := by
  have hplain : isGap first = false ∧ first ≠ '"' ∧ Text.isAsciiDigit first = false ∧
      opensName first = false := by
    unfold Kind.ofChar? at h
    split at h <;> first | decide +kernel | exact absurd rfl h
  obtain ⟨hgap, hquote, hdigit, hname⟩ := hplain
  by_cases hfirst : first = '/'
  · obtain ⟨hline, hblock⟩ := hslash hfirst
    simp [extent, hgap, hquote, hdigit, hname, hline, hblock]
  · simp [extent, hgap, hquote, hdigit, hname, hfirst]

lemma numberExtent_digits (h : ∀ c ∈ text, Text.isAsciiDigit c = true) (rest : List Char) :
    numberExtent (text ++ rest) = text.length + numberExtent rest := by
  induction text with
  | nil => simp
  | cons c text ih =>
    obtain ⟨hc, htext⟩ := List.forall_mem_cons.mp h
    rw [List.cons_append, numberExtent_cons hc, ih htext, List.length_cons, Nat.add_right_comm]

lemma Breaks.numberExtent (h : Breaks more) : numberExtent more = 0 :=
  numberExtent_eq_zero_iff.mpr
    ⟨h.any (by decide), fun hdot => absurd hdot (h.head? (by decide))⟩

lemma throughQuote_quote {inner : List Char} (h : '"' ∉ inner) :
    throughQuote (inner ++ ['"']) = some (inner.length + 1) := by
  have hnone : inner.findIdx? (· = '"') = none :=
    List.findIdx?_eq_none_iff.mpr fun c hc => by simpa using ne_of_mem_of_not_mem hc h
  simp [throughQuote, List.findIdx?_append, hnone]

lemma opensName_of_mem_keywords (h : (String.ofList word, k) ∈ Kind.keywords) :
    ∀ c ∈ word, opensName c = true := by
  have hkeywords : ∀ entry ∈ Kind.keywords, entry.1.toList.all opensName = true := by
    decide +kernel
  have hletters := List.all_eq_true.mp (hkeywords _ h)
  rwa [String.toList_ofList] at hletters

lemma extent_keyword (h : (String.ofList (first :: text), k) ∈ Kind.keywords)
    (hmore : Breaks more) : extent first (text ++ more) = (.token k, text.length) := by
  obtain ⟨hfirst, htext⟩ := List.forall_mem_cons.mp (opensName_of_mem_keywords h)
  have hword : (text ++ more).takeWhile continuesName = text :=
    takeWhile_append_eq_iff.mpr
      ⟨fun c hc => continuesName_of_opensName (htext c hc), hmore.any (by decide +kernel)⟩
  rw [extent_of_opensName hfirst, nameExtent, hword, Kind.ofWord_of_mem_keywords h]

lemma extent_pair {d : Char} (h : Kind.ofPair? first d = some k) :
    extent first (d :: more) = (.token k, 1) := by
  unfold Kind.ofPair? at h
  split at h <;> cases h <;>
    rw [extent_of_operator (by decide) fun hslash => absurd hslash (by decide)] <;> rfl

lemma extent_char (h : Kind.ofChar? first = some k) (hmore : Breaks more) :
    extent first more = (.token k, 0) := by
  rw [extent_of_operator (by simp [h])
      fun _ => ⟨hmore.head? (by decide), hmore.head? (by decide)⟩,
    operatorExtent, hmore.ofPair? first, h]

theorem Written.extent (h : Written k (first :: text)) (hmore : Breaks more) :
    extent first (text ++ more) = (.token k, text.length) := by
  generalize hword : first :: text = word at h
  cases h with
  | fixed hk hne =>
    subst hword
    rcases Kind.cases_of_text? hk (by simp) with hkeyword | ⟨c, hc, hchar⟩ | ⟨c, d, hcd, hpair⟩
    · exact extent_keyword hkeyword hmore
    · obtain ⟨rfl, rfl⟩ := List.cons.inj (String.ofList_injective hc)
      exact extent_char hchar hmore
    · obtain ⟨rfl, rfl⟩ := List.cons.inj (String.ofList_injective hcd)
      exact extent_pair hpair
  | name hfirst hmore' hnew =>
    obtain ⟨rfl, rfl⟩ := List.cons.inj hword
    exact extent_of_written (.name hfirst hmore' hnew) (hmore.any (by decide +kernel))
  | whole _ hdigits =>
    subst hword
    obtain ⟨hfirst, htext⟩ := List.forall_mem_cons.mp hdigits
    rw [extent_of_isAsciiDigit hfirst, numberExtent_digits htext, hmore.numberExtent,
      Nat.add_zero]
  | @decimal digits fraction hne hne' hdigits hfraction =>
    obtain ⟨first', digits, rfl⟩ := List.exists_cons_of_ne_nil hne
    obtain ⟨rfl, rfl⟩ := List.cons.inj hword
    obtain ⟨hfirst, hdigits⟩ := List.forall_mem_cons.mp hdigits
    obtain ⟨c, fraction, rfl⟩ := List.exists_cons_of_ne_nil hne'
    obtain ⟨hc, hfraction⟩ := List.forall_mem_cons.mp hfraction
    have hstop : (fraction ++ more).takeWhile Text.isAsciiDigit = fraction :=
      takeWhile_append_eq_iff.mpr ⟨hfraction, hmore.any (by decide)⟩
    rw [List.append_eq, List.append_assoc, extent_of_isAsciiDigit hfirst,
      numberExtent_digits hdigits, List.cons_append, List.cons_append, numberExtent_point hc, hstop]
    simp [Nat.add_comm 2]
  | string hinner =>
    obtain ⟨rfl, rfl⟩ := List.cons.inj hword
    rw [extent_of_quote, stringExtent, throughQuote_append (throughQuote_quote hinner)]
    simp

variable {α : Type} {f : Position × Segment → Option α}

lemma readFrom_written (h : Written k word) (hmore : Breaks more) (p : Position) :
    readFrom f p (word ++ more) =
      (f (p, ⟨.token k, word⟩)).toList ++ readFrom f (p.after word) more := by
  obtain ⟨first, text, rfl⟩ := List.exists_cons_of_ne_nil h.ne_nil
  rw [List.cons_append, readFrom_cons, h.extent hmore, List.take_left, List.drop_left]

lemma readFrom_gaps (hf : SkipsBlanks f) {gap : List Char} (h : ∀ c ∈ gap, isGap c = true)
    (p : Position) (more : List Char) :
    readFrom f p (gap ++ more) = readFrom f (p.after gap) more := by
  induction gap generalizing p with
  | nil => rfl
  | cons c gap ih =>
    obtain ⟨hc, hgap⟩ := List.forall_mem_cons.mp h
    rw [List.cons_append, readFrom_gap hf hc, ih hgap]
    rfl

end Segment

/-- One or more blanks. -/
structure Gap where
  text : List Char
  nonempty : text ≠ []
  blank : ∀ c ∈ text, Segment.isGap c = true

namespace Gap

lemma breaks (gap : Gap) (more : List Char) : Segment.Breaks (gap.text ++ more) := by
  obtain ⟨c, text, htext⟩ := List.exists_cons_of_ne_nil gap.nonempty
  intro d hd
  rw [htext] at hd
  cases hd
  exact gap.blank c (htext ▸ List.mem_cons_self)

def behind (gaps : Nat → Gap) : List (List Char) → List Char
  | [] => []
  | word :: more => (gaps 0).text ++ (word ++ behind (fun n => gaps (n + 1)) more)

def join (gaps : Nat → Gap) : List (List Char) → List Char
  | [] => []
  | word :: more => word ++ behind gaps more

lemma breaks_behind (gaps : Nat → Gap) (words : List (List Char)) :
    Segment.Breaks (behind gaps words) := by
  cases words with
  | nil => exact fun _ hc => nomatch hc
  | cons word more => exact (gaps 0).breaks _

end Gap

def Token.content (t : Token) : Kind × String × Option Literal := (t.kind, t.lexeme, t.literal?)

/-- The lexemes of tokens, written out with the given gaps. -/
def Token.writeOut (gaps : Nat → Gap) (tokens : List Token) : String :=
  String.ofList (Gap.join gaps (tokens.map fun t => t.lexeme.toList))

namespace Scan

open Segment

theorem written_of_mem_tokens {source : List Char} {t : Token}
    (h : t ∈ (ofChars source).tokens) : Written t.kind t.lexeme.toList := by
  obtain ⟨⟨p, shape, text⟩, hmem, ht⟩ := List.mem_filterMap.mp h
  cases shape <;> cases ht
  cases formed_of_mem_cut (mem_of_mem_place hmem) with
  | token htext =>
    rw [String.toList_ofList]
    exact htext

variable {tokens : List Token}

section

variable {α β : Type} {f : Position × Segment → Option α} {g : α → β}
  {c : Kind → List Char → List β}
  (hf : SkipsBlanks f)
  (hcontent : ∀ p k text, (f (p, ⟨.token k, text⟩)).toList.map g = c k text)

include hf hcontent

lemma readFrom_behind (h : ∀ t ∈ tokens, Written t.kind t.lexeme.toList) (gaps : Nat → Gap)
    (p : Position) :
    (readFrom f p (Gap.behind gaps (tokens.map fun t => t.lexeme.toList))).map g =
      tokens.flatMap fun t => c t.kind t.lexeme.toList := by
  induction tokens generalizing gaps p with
  | nil => exact congrArg (List.map g) (readFrom_nil p)
  | cons t tokens ih =>
    obtain ⟨ht, htokens⟩ := List.forall_mem_cons.mp h
    rw [List.map_cons, Gap.behind, readFrom_gaps hf (gaps 0).blank,
      readFrom_written ht (Gap.breaks_behind _ _), List.map_append, hcontent, ih htokens,
      List.flatMap_cons]

theorem readFrom_join (h : ∀ t ∈ tokens, Written t.kind t.lexeme.toList) (gaps : Nat → Gap)
    (p : Position) :
    (readFrom f p (Gap.join gaps (tokens.map fun t => t.lexeme.toList))).map g =
      tokens.flatMap fun t => c t.kind t.lexeme.toList := by
  cases tokens with
  | nil => exact congrArg (List.map g) (readFrom_nil p)
  | cons t tokens =>
    obtain ⟨ht, htokens⟩ := List.forall_mem_cons.mp h
    rw [List.map_cons, Gap.join, readFrom_written ht (Gap.breaks_behind _ _), List.map_append,
      hcontent, readFrom_behind hf hcontent htokens, List.flatMap_cons]

end

variable {source : List Char}

lemma content_writeOut (gaps : Nat → Gap) :
    (ofString (Token.writeOut gaps (ofChars source).tokens)).tokens.map Token.content =
      (ofChars source).tokens.map Token.content := by
  have hjoin := readFrom_join (g := Token.content)
    (c := fun k text => [Token.content ⟨k, String.ofList text, 1, 1⟩])
    skipsBlanks_token? (fun p k text => rfl) (@written_of_mem_tokens source)
    gaps .start
  rw [ofString, Token.writeOut, String.toList_ofList]
  refine hjoin.trans ?_
  rw [List.map_eq_flatMap]
  simp only [Token.content, String.ofList_toList]
  rfl

lemma diagnostics_writeOut (gaps : Nat → Gap) :
    (ofString (Token.writeOut gaps (ofChars source).tokens)).diagnostics = [] := by
  have hjoin := readFrom_join (g := id) (c := fun _ _ => [])
    skipsBlanks_diagnostic? (fun p k text => rfl) (@written_of_mem_tokens source)
    gaps .start
  rw [List.map_id] at hjoin
  rw [ofString, Token.writeOut, String.toList_ofList]
  exact hjoin.trans (List.flatMap_eq_nil_iff.mpr fun _ _ => rfl)

lemma finish_join {a b : List Char} :
    (ofChars (a ++ '\n' :: b)).finish = (ofChars b).finish.down (lines a) := by
  have hafter : Position.start.after (a ++ '\n' :: b) = (Position.start.after b).down (lines a) := by
    rw [← Position.after_down, ← after_newline, ← Position.after_append, List.append_assoc,
      List.singleton_append]
  simp only [ofChars, hafter]
  rfl

/-- The tokens of a text that nothing is wrong with are read again where they are written out with
any blanks between them, and in front of a line break the text is read as on its own, with whatever
follows further down. -/
theorem reads_written {source : String} (h : (ofString source).diagnostics = [])
    (gaps : Nat → Gap) (more : String) :
    ((ofString (Token.writeOut gaps (ofString source).tokens)).diagnostics = [] ∧
      (ofString (Token.writeOut gaps (ofString source).tokens)).tokens.map Token.content =
        (ofString source).tokens.map Token.content) ∧
    (ofString (source ++ "\n" ++ more)).all =
      (ofString source).tokens ++ (ofString more).all.map (Token.down (lines source.toList)) ∧
    (ofString (source ++ "\n" ++ more)).diagnostics =
      (ofString more).diagnostics.map (Diagnostic.down (lines source.toList)) := by
  have hjoin : (source ++ "\n" ++ more).toList = source.toList ++ '\n' :: more.toList := by simp
  refine ⟨⟨diagnostics_writeOut gaps, content_writeOut gaps⟩, ?_, ?_⟩
  · rw [all, ofString, hjoin, tokens_join h, finish_join, List.append_assoc, all, List.map_append]
    rfl
  · rw [ofString, hjoin, diagnostics_join h]
    rfl

theorem reads_written_operators :
    let source := "s=\"// a\n/*\";!=!= =1.5.f/*b*//=2.//c"
    let gaps (n : Nat) : Gap :=
      if n % 2 = 0 then ⟨['\r', '\n'], by decide, List.all_eq_true.mp (by decide)⟩
      else ⟨[' '], by decide, List.all_eq_true.mp (by decide)⟩
    (ofString source).diagnostics = [] ∧
      Token.writeOut gaps (ofString source).tokens =
        "s\r\n= \"// a\n/*\"\r\n; !=\r\n!= =\r\n1.5 .\r\nf /\r\n= 2\r\n." ∧
      (ofString (Token.writeOut gaps (ofString source).tokens)).tokens.map Token.content =
        (ofString source).tokens.map Token.content ∧
      (ofString (source ++ "\n" ++ "more")).all.length = 16 := by
  intro source gaps
  have hscan : (ofString source).diagnostics = [] := by decide +kernel
  obtain ⟨⟨-, hagain⟩, hjoined, -⟩ := reads_written hscan gaps "more"
  refine ⟨hscan, by decide +kernel, hagain, ?_⟩
  rw [hjoined]
  decide +kernel

end Scan

end Lox
