import Lox.Proofs.Token.Partition

/-! Texts put together with a line break between them: the scanner reads the first as it reads it
alone, if nothing is wrong with it, and the second as on its own, but further down. -/

namespace Lox

namespace Position

def down (n : Nat) (p : Position) : Position := ⟨p.line + n, p.column⟩

lemma advance_down (n : Nat) (p : Position) (c : Char) :
    (p.down n).advance c = (p.advance c).down n := by
  unfold advance
  split
  · simp [down, Nat.add_right_comm]
  · rfl

lemma after_down (n : Nat) (p : Position) (text : List Char) :
    (p.down n).after text = (p.after text).down n := by
  induction text generalizing p with
  | nil => rfl
  | cons c rest ih =>
    calc (p.down n).after (c :: rest)
        = ((p.advance c).down n).after rest := by rw [← advance_down]; rfl
      _ = (p.after (c :: rest)).down n := by rw [ih]; rfl

end Position

def Token.down (n : Nat) (t : Token) : Token := { t with line := t.line + n }

def Diagnostic.down (n : Nat) (d : Diagnostic) : Diagnostic := { d with line := d.line + n }

namespace Segment

variable {α : Type} {first : Char} {rest source more : List Char} {n : Nat}

lemma takeWhile_append_stop {p : Char → Bool} {c : Char} (hc : p c = false) (s t : List Char) :
    (s ++ c :: t).takeWhile p = s.takeWhile p := by
  induction s with
  | nil => simp [hc]
  | cons d s ih => simp [List.takeWhile_cons, ih]

lemma takeWhile_append_of_not_all {p : Char → Bool} {s : List Char} (h : ¬∀ c ∈ s, p c = true)
    (t : List Char) : (s ++ t).takeWhile p = s.takeWhile p := by
  induction s with
  | nil => exact absurd (fun _ hc => nomatch hc) h
  | cons c s ih =>
    by_cases hc : p c = true
    · rw [List.forall_mem_cons, not_and] at h
      rw [List.cons_append, List.takeWhile_cons_of_pos hc, List.takeWhile_cons_of_pos hc, ih (h hc)]
    · rw [List.cons_append, List.takeWhile_cons_of_neg hc, List.takeWhile_cons_of_neg hc]

lemma drop_length_takeWhile (p : Char → Bool) (s : List Char) :
    s.drop (s.takeWhile p).length = s.dropWhile p := by
  conv => lhs; arg 2; rw [← List.takeWhile_append_dropWhile (p := p) (l := s)]
  exact List.drop_left

lemma length_takeWhile_le (p : Char → Bool) (s : List Char) : (s.takeWhile p).length ≤ s.length :=
  (List.takeWhile_prefix p).length_le

lemma throughClose_le {s : List Char} (h : throughClose s = some n) : n ≤ s.length := by
  induction s generalizing n with
  | nil => cases h
  | cons c s ih =>
    unfold throughClose at h
    split at h
    · cases h
      simp
    · obtain ⟨m, hm, rfl⟩ := Option.map_eq_some_iff.mp h
      exact Nat.succ_le_succ (ih hm)

lemma throughClose_append {s : List Char} (h : throughClose s = some n) (t : List Char) :
    throughClose (s ++ t) = some n := by
  induction s generalizing n with
  | nil => cases h
  | cons c s ih =>
    unfold throughClose at h
    split at h
    · cases h
      rfl
    · next hopen =>
      obtain ⟨m, hm, rfl⟩ := Option.map_eq_some_iff.mp h
      rw [List.cons_append, throughClose]
      · rw [ih hm]
        rfl
      · rintro rest rfl hrest
        cases s with
        | nil => cases hm
        | cons d s =>
          cases hrest
          exact hopen s rfl rfl

lemma throughQuote_le {s : List Char} (h : throughQuote s = some n) : n ≤ s.length := by
  obtain ⟨i, hi, rfl⟩ := Option.map_eq_some_iff.mp h
  exact (List.findIdx?_eq_some_iff_getElem.mp hi).1

lemma throughQuote_append {s : List Char} (h : throughQuote s = some n) (t : List Char) :
    throughQuote (s ++ t) = some n := by
  obtain ⟨i, hi, rfl⟩ := Option.map_eq_some_iff.mp h
  simp [throughQuote, List.findIdx?_append, hi]

lemma numberExtent_le (rest : List Char) : numberExtent rest ≤ rest.length := by
  have hwhole := length_takeWhile_le Text.isAsciiDigit rest
  unfold numberExtent
  dsimp only
  split
  · next digit more hdrop =>
    split
    · have hmore := length_takeWhile_le Text.isAsciiDigit more
      have hlength := congrArg List.length hdrop
      simp only [List.length_drop, List.length_cons] at hlength
      omega
    · exact hwhole
  · exact hwhole

structure Ends (c : Char) : Prop where
  name : continuesName c = false
  digit : Text.isAsciiDigit c = false
  point : c ≠ '.'
  equal : c ≠ '='

variable {stop : Char}

lemma numberExtent_append (hstop : Ends stop) (rest more : List Char) :
    numberExtent (rest ++ stop :: more) = numberExtent rest := by
  unfold numberExtent
  dsimp only
  rw [takeWhile_append_stop hstop.digit,
    List.drop_append_of_le_length (length_takeWhile_le _ rest)]
  rcases rest.drop (rest.takeWhile Text.isAsciiDigit).length with _ | ⟨c, _ | ⟨d, tail⟩⟩
  · simp [hstop.point]
  · by_cases hc : c = '.'
    · subst hc
      simp [hstop.digit]
    · simp [hc]
  · by_cases hc : c = '.'
    · subst hc
      simp [takeWhile_append_stop hstop.digit]
    · simp [hc]

lemma operatorExtent_append (hstop : Ends stop) (first : Char) (rest more : List Char) :
    operatorExtent first (rest ++ stop :: more) = operatorExtent first rest := by
  cases rest with
  | cons => rfl
  | nil =>
    have hpair : Kind.ofPair? first stop = none := by
      have hequal := hstop.equal
      unfold Kind.ofPair?
      split <;> simp_all
    simp [operatorExtent, hpair]

lemma extent_le (first : Char) (rest : List Char) : (extent first rest).2 ≤ rest.length := by
  unfold extent
  split
  · exact length_takeWhile_le _ _
  split
  · exact length_takeWhile_le _ _
  split
  · unfold commentExtent
    split
    · next n hclose =>
      have hle := throughClose_le hclose
      cases rest with
      | nil => cases hclose
      | cons => simpa using hle
    · exact Nat.le_refl _
  split
  · unfold stringExtent
    split
    · next n hquote => exact throughQuote_le hquote
    · exact Nat.le_refl _
  split
  · exact numberExtent_le rest
  split
  · exact length_takeWhile_le _ _
  · unfold operatorExtent
    split
    · next hpair =>
      cases rest with
      | nil => cases hpair
      | cons => simp
    · split <;> exact Nat.zero_le _

theorem extent_behind (hstop : Ends stop) (hfirst : isGap first = false) {text : List Char}
    (hopen : isOpen ⟨(extent first rest).1, text⟩ = false)
    (hslash : first = '/' → rest = [] → stop ≠ '/' ∧ stop ≠ '*')
    (hline : first = '/' → rest.head? = some '/' →
      (rest ++ stop :: more).takeWhile inLineComment = rest.takeWhile inLineComment) :
    extent first (rest ++ stop :: more) = extent first rest := by
  have hhead (c : Char) (hc : c = '/' ∨ c = '*') :
      (first = '/' && (rest ++ stop :: more).head? = some c : Bool) =
        (first = '/' && rest.head? = some c) := by
    by_cases hfirst : first = '/'
    · cases rest with
      | nil => rcases hc with rfl | rfl <;> simp [hslash hfirst rfl]
      | cons => rfl
    · simp [hfirst]
  unfold extent at hopen ⊢
  simp only [hfirst, hhead '/' (.inl rfl), hhead '*' (.inr rfl), Bool.false_eq_true, if_false]
    at hopen ⊢
  split
  · next hcomment =>
    simp only [Bool.and_eq_true, decide_eq_true_eq] at hcomment
    rw [hline hcomment.1 hcomment.2]
  next hcomment =>
  rw [if_neg hcomment] at hopen
  split
  · next hblock =>
    rw [if_pos hblock] at hopen
    simp only [Bool.and_eq_true, decide_eq_true_eq] at hblock
    obtain ⟨-, hhead⟩ := hblock
    obtain ⟨tail, rfl⟩ := List.head?_eq_some_iff.mp hhead
    unfold commentExtent at hopen ⊢
    simp only [List.cons_append, List.drop_succ_cons, List.drop_zero] at hopen ⊢
    cases hclose : throughClose tail with
    | none => simp [hclose, isOpen] at hopen
    | some n => rw [throughClose_append hclose]
  next hblock =>
  rw [if_neg hblock] at hopen
  split
  · next hstring =>
    rw [if_pos hstring] at hopen
    unfold stringExtent at hopen ⊢
    cases hquote : throughQuote rest with
    | none => simp [hquote, isOpen] at hopen
    | some n => rw [throughQuote_append hquote]
  split
  · rw [numberExtent_append hstop]
  split
  · unfold nameExtent
    rw [takeWhile_append_stop hstop.name]
  · exact operatorExtent_append hstop first rest more

theorem extent_append (hfirst : isGap first = false) {text : List Char}
    (hopen : isOpen ⟨(extent first rest).1, text⟩ = false) :
    extent first (rest ++ '\n' :: more) = extent first rest :=
  extent_behind ⟨by decide +kernel, by decide, by decide, by decide⟩ hfirst hopen
    (fun _ _ => by decide) fun _ _ => takeWhile_append_stop (by decide) rest more

def readFrom (f : Position × Segment → Option α) (p : Position) (source : List Char) : List α :=
  (place p (cut source)).filterMap f

def SkipsBlanks (f : Position × Segment → Option α) : Prop :=
  ∀ p text, f (p, ⟨.blanks, text⟩) = none

lemma skipsBlanks_token? : SkipsBlanks token? := fun _ _ => rfl

lemma skipsBlanks_diagnostic? : SkipsBlanks diagnostic? := fun _ _ => rfl

variable {f : Position × Segment → Option α}

lemma readFrom_nil (p : Position) : readFrom f p [] = [] := by
  rw [readFrom, cut_nil]
  rfl

lemma readFrom_cons (p : Position) (first : Char) (rest : List Char) :
    readFrom f p (first :: rest) =
      (f (p, ⟨(extent first rest).1, first :: rest.take (extent first rest).2⟩)).toList ++
        readFrom f (p.after (first :: rest.take (extent first rest).2))
          (rest.drop (extent first rest).2) := by
  rw [readFrom, cut_cons, place, List.filterMap_cons, readFrom]
  cases f (p, _) <;> rfl

lemma readFrom_blanks (hf : SkipsBlanks f) (hfirst : isGap first = true) (p : Position)
    (rest : List Char) :
    readFrom f p (first :: rest) =
      readFrom f (p.after (first :: rest.takeWhile isGap)) (rest.dropWhile isGap) := by
  have hextent : extent first rest = (.blanks, (rest.takeWhile isGap).length) := by
    rw [extent, if_pos hfirst]
  rw [readFrom_cons, hextent, hf, take_length_takeWhile, drop_length_takeWhile]
  rfl

theorem readFrom_gap (hf : SkipsBlanks f) {c : Char} (hc : isGap c = true) (p : Position)
    (source : List Char) : readFrom f p (c :: source) = readFrom f (p.advance c) source := by
  rw [readFrom_blanks hf hc]
  cases source with
  | nil => rfl
  | cons d rest =>
    by_cases hd : isGap d = true
    · rw [List.takeWhile_cons_of_pos hd, List.dropWhile_cons_of_pos hd, readFrom_blanks hf hd]
      rfl
    · rw [List.takeWhile_cons_of_neg hd, List.dropWhile_cons_of_neg hd]
      rfl

theorem readFrom_append (hf : SkipsBlanks f) (p : Position) (source more : List Char)
    (h : readFrom diagnostic? p source = []) :
    readFrom f p (source ++ '\n' :: more) =
      readFrom f p source ++ readFrom f (p.after (source ++ ['\n'])) more := by
  cases source with
  | nil =>
    rw [List.nil_append, readFrom_gap hf (by decide), readFrom_nil]
    rfl
  | cons first rest =>
    by_cases hfirst : isGap first = true
    · rw [readFrom_gap skipsBlanks_diagnostic? hfirst] at h
      rw [List.cons_append, readFrom_gap hf hfirst, readFrom_gap hf hfirst,
        readFrom_append hf _ rest more h]
      rfl
    · rw [readFrom_cons, List.append_eq_nil_iff] at h
      have hopen : isOpen ⟨(extent first rest).1, first :: rest.take (extent first rest).2⟩ =
          false := by
        cases hshape : (extent first rest).1 <;> simp_all [isOpen, diagnostic?]
      have hextent : extent first (rest ++ '\n' :: more) = extent first rest :=
        extent_append (Bool.eq_false_iff.mpr hfirst) hopen
      have hle := extent_le first rest
      have htext : first :: rest.take (extent first rest).2 ++
          (rest.drop (extent first rest).2 ++ ['\n']) = first :: rest ++ ['\n'] := by
        rw [← List.append_assoc, List.cons_append, List.take_append_drop]
      rw [List.cons_append, readFrom_cons, readFrom_cons, hextent,
        List.take_append_of_le_length hle, List.drop_append_of_le_length hle,
        readFrom_append hf _ _ more h.2, List.append_assoc, ← Position.after_append, htext]
termination_by source.length

lemma place_down (n : Nat) (p : Position) (segments : List Segment) :
    place (p.down n) segments = (place p segments).map fun entry => (entry.1.down n, entry.2) := by
  induction segments generalizing p with
  | nil => rfl
  | cons s more ih => simp [place, Position.after_down, ih]

lemma token?_down (n : Nat) (entry : Position × Segment) :
    token? (entry.1.down n, entry.2) = (token? entry).map (Token.down n) := by
  obtain ⟨p, shape, text⟩ := entry
  cases shape <;> rfl

lemma diagnostic?_down (n : Nat) (entry : Position × Segment) :
    diagnostic? (entry.1.down n, entry.2) = (diagnostic? entry).map (Diagnostic.down n) := by
  obtain ⟨p, shape, text⟩ := entry
  cases shape with
  | openString =>
    simp only [diagnostic?, Position.after_down]
    rfl
  | _ => rfl

lemma readFrom_down {g : α → α}
    (hg : ∀ entry : Position × Segment, f (entry.1.down n, entry.2) = (f entry).map g)
    (p : Position) (source : List Char) :
    readFrom f (p.down n) source = (readFrom f p source).map g := by
  rw [readFrom, place_down, List.filterMap_map, readFrom, List.map_filterMap]
  exact congrArg (List.filterMap · _) (funext hg)

end Segment

namespace Scan

open Segment

def lines (source : List Char) : Nat := source.count '\n' + 1

lemma after_newline (source : List Char) :
    Position.start.after (source ++ ['\n']) = Position.start.down (lines source) := by
  rw [Position.after_start]
  simp [Position.behind, Position.down, Position.start, lines]

variable {a b : List Char}

lemma tokens_join (h : (ofChars a).diagnostics = []) :
    (ofChars (a ++ '\n' :: b)).tokens =
      (ofChars a).tokens ++ (ofChars b).tokens.map (Token.down (lines a)) := by
  have happend := readFrom_append skipsBlanks_token? .start a b h
  rw [after_newline, readFrom_down (token?_down _)] at happend
  exact happend

lemma diagnostics_join (h : (ofChars a).diagnostics = []) :
    (ofChars (a ++ '\n' :: b)).diagnostics =
      (ofChars b).diagnostics.map (Diagnostic.down (lines a)) := by
  have happend := readFrom_append skipsBlanks_diagnostic? .start a b h
  rw [after_newline, readFrom_down (diagnostic?_down _)] at happend
  have ha : readFrom diagnostic? .start a = [] := h
  rw [ha] at happend
  exact happend

end Scan

end Lox
