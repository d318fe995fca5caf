import Mathlib.Data.List.Infix
import Lox.Proofs.Prompt.Highlight
import Lox.Proofs.Token.Partition

/-! What highlighting shows: all tokens of a line, in their order. Each of them is looked for behind
the one before it, so that it is shown in its place unless a comment in between holds its text. -/

namespace Lox

namespace Position

lemma after_of_not_mem {text : List Char} (h : '\n' ∉ text) (p : Position) :
    p.after text = ⟨p.line, p.column + text.length⟩ := by
  induction text generalizing p with
  | nil => rfl
  | cons c text ih =>
    rw [List.mem_cons, not_or] at h
    calc p.after (c :: text)
        = (p.advance c).after text := rfl
      _ = (⟨p.line, p.column + 1⟩ : Position).after text := by rw [advance, if_neg (Ne.symm h.1)]
      _ = ⟨p.line, p.column + (c :: text).length⟩ := by
        rw [ih h.2, List.length_cons, Nat.add_assoc, Nat.add_comm 1]

end Position

namespace Segment

def styles (before : Option Kind) : List Segment → List Prompt.Style
  | [] => []
  | ⟨.token kind, text⟩ :: more =>
    List.replicate text.length (.ofKind before kind) ++ styles (some kind) more
  | s :: more => List.replicate s.text.length .plain ++ styles before more

/-- Whether no text of a token starts at an earlier place than the token, behind the one before it.
What has been passed since the last token is given. -/
def InPlace (skipped : List Char) : List Segment → Prop
  | [] => True
  | ⟨.token _, text⟩ :: more => ¬text <:+: skipped ++ text.dropLast ∧ InPlace [] more
  | s :: more => InPlace (skipped ++ s.text) more

instance InPlace.decidable (skipped : List Char) :
    (segments : List Segment) → Decidable (InPlace skipped segments)
  | [] => .isTrue trivial
  | ⟨.token _, text⟩ :: more =>
    have := decidable [] more
    inferInstanceAs (Decidable (¬text <:+: skipped ++ text.dropLast ∧ InPlace [] more))
  | ⟨.blanks, text⟩ :: more => decidable (skipped ++ text) more
  | ⟨.comment, text⟩ :: more => decidable (skipped ++ text) more
  | ⟨.stray, text⟩ :: more => decidable (skipped ++ text) more
  | ⟨.openString, text⟩ :: more => decidable (skipped ++ text) more
  | ⟨.openComment, text⟩ :: more => decidable (skipped ++ text) more

end Segment

namespace Prompt

/-- A fragment together with the token that it shows, if it shows one. -/
structure Marked where
  token : Option Token
  fragment : Fragment

namespace Marked

def gap (text : List Char) : List Marked := (Fragment.gap text).map (⟨none, ·⟩)

def ofTokens (before : Option Kind) (text : List Char) : List Token → List Marked
  | [] => gap text
  | t :: more =>
    match Fragment.splitAt? t.lexeme.toList text with
    | some (skipped, rest) =>
      gap skipped ++
        ⟨some t, .ofKind before t.kind, t.lexeme.toList⟩ :: ofTokens (some t.kind) rest more
    | none => ofTokens (some t.kind) text more

def ofLine (line : List Char) : List Marked :=
  if line.isEmpty then [⟨none, .plain, []⟩] else ofTokens none line (Scan.ofChars line).tokens

def places (offset : Nat) : List Marked → List (Nat × Token)
  | [] => []
  | m :: more =>
    (m.token.map fun t => (offset, t)).toList ++ places (offset + m.fragment.text.length) more

lemma map_fragment_gap (text : List Char) : (gap text).map fragment = Fragment.gap text := by
  rw [gap, List.map_map]
  exact List.map_id _

lemma map_fragment_ofTokens (before : Option Kind) (text : List Char) (ts : List Token) :
    (ofTokens before text ts).map fragment = Fragment.ofTokens before text ts := by
  induction ts generalizing before text with
  | nil => exact map_fragment_gap text
  | cons t ts ih =>
    rw [ofTokens, Fragment.ofTokens]
    cases Fragment.splitAt? t.lexeme.toList text with
    | none => exact ih _ _
    | some cut =>
      obtain ⟨skipped, rest⟩ := cut
      rw [List.map_append, map_fragment_gap, List.map_cons, ih]

theorem map_fragment_ofLine (line : List Char) :
    (ofLine line).map fragment = Fragment.ofLine line := by
  unfold ofLine Fragment.ofLine
  split
  · rfl
  · exact map_fragment_ofTokens _ _ _

def Agrees (m : Marked) : Prop :=
  match m.token with
  | some t => m.fragment.text = t.lexeme.toList
  | none => m.fragment.style = .plain

lemma agrees_gap (text : List Char) : ∀ m ∈ gap text, m.Agrees := by
  cases text with
  | nil => exact nofun
  | cons c text => exact List.forall_mem_singleton.mpr rfl

lemma agrees_ofTokens (before : Option Kind) (text : List Char) (ts : List Token) :
    ∀ m ∈ ofTokens before text ts, m.Agrees := by
  induction ts generalizing before text with
  | nil => exact agrees_gap text
  | cons t ts ih =>
    rw [ofTokens]
    split
    · exact List.forall_mem_append.mpr
        ⟨agrees_gap _, List.forall_mem_cons.mpr ⟨rfl, ih _ _⟩⟩
    · exact ih _ _

lemma agrees_ofLine (line : List Char) : ∀ m ∈ ofLine line, m.Agrees := by
  unfold ofLine
  split
  · exact List.forall_mem_singleton.mpr rfl
  · exact agrees_ofTokens _ _ _

lemma places_gap (offset : Nat) (text : List Char) (more : List Marked) :
    places offset (gap text ++ more) = places (offset + text.length) more := by
  cases text with
  | nil => rfl
  | cons c text => rfl

lemma places_gap_nil (offset : Nat) (text : List Char) : places offset (gap text) = [] := by
  cases text <;> rfl

end Marked

namespace Fragment

def styles (fs : List Fragment) : List Style :=
  fs.flatMap fun f => List.replicate f.text.length f.style

lemma styles_gap (text : List Char) : styles (gap text) = List.replicate text.length .plain := by
  cases text <;> simp [styles, gap]

lemma styles_append (fs gs : List Fragment) : styles (fs ++ gs) = styles fs ++ styles gs :=
  List.flatMap_append

lemma styles_cons (f : Fragment) (fs : List Fragment) :
    styles (f :: fs) = List.replicate f.text.length f.style ++ styles fs :=
  List.flatMap_cons

variable {word : List Char}

theorem splitAt?_eq_iff (hword : word ≠ []) (skipped rest : List Char) :
    splitAt? word (skipped ++ (word ++ rest)) = some (skipped, rest) ↔
      ¬word <:+: skipped ++ word.dropLast := by
  have hshort : word.dropLast.length < word.length := by
    have hlength := List.length_pos_of_ne_nil hword
    rw [List.length_dropLast]
    omega
  induction skipped with
  | nil =>
    have hlong : ¬word <:+: word.dropLast := fun h => absurd h.length_le (by omega)
    obtain ⟨c, more, rfl⟩ := List.exists_cons_of_ne_nil hword
    exact iff_of_true (by simp [splitAt?]) (by simpa using hlong)
  | cons c skipped ih =>
    have hprefix : word <+: c :: (skipped ++ (word ++ rest)) ↔
        word <+: c :: (skipped ++ word.dropLast) := by
      have hfront : c :: (skipped ++ word.dropLast) <+: c :: (skipped ++ (word ++ rest)) := by
        refine (List.prefix_cons_inj c).mpr ((List.prefix_append_right_inj skipped).mpr ?_)
        exact (List.dropLast_prefix word).trans (List.prefix_append word rest)
      refine ⟨fun h => List.prefix_of_prefix_length_le h hfront ?_, fun h => h.trans hfront⟩
      simp
      omega
    rw [List.cons_append, List.cons_append, List.infix_cons_iff, ← hprefix, splitAt?]
    by_cases hp : word <+: c :: (skipped ++ (word ++ rest))
    · rw [if_pos (List.isPrefixOf_iff_prefix.mpr hp)]
      exact iff_of_false (by simp) (not_not.mpr (.inl hp))
    · rw [if_neg (mt List.isPrefixOf_iff_prefix.mp hp), or_iff_right hp]
      refine Iff.trans ?_ ih
      simp

theorem exists_splitAt? (hword : word ≠ []) (skipped rest : List Char) :
    ∃ before extra, splitAt? word (skipped ++ (word ++ rest)) = some (before, extra ++ rest) ∧
      before.length + extra.length = skipped.length ∧
      (extra = [] ↔ ¬word <:+: skipped ++ word.dropLast) := by
  obtain ⟨before, extra, hfind, hlength⟩ : ∃ before extra,
      splitAt? word (skipped ++ (word ++ rest)) = some (before, extra ++ rest) ∧
        before.length + extra.length = skipped.length := by
    induction skipped with
    | nil =>
      obtain ⟨c, more, rfl⟩ := List.exists_cons_of_ne_nil hword
      exact ⟨[], [], by simp [splitAt?], rfl⟩
    | cons c skipped ih =>
      obtain ⟨before, extra, hfind, hlength⟩ := ih
      by_cases hprefix : word.isPrefixOf (c :: (skipped ++ (word ++ rest))) = true
      · -- The word starts at once, and may reach into the place where it stands.
        refine ⟨[], (c :: (skipped ++ word)).drop word.length, ?_, by simp; omega⟩
        rw [List.cons_append, splitAt?, if_pos hprefix,
          ← List.drop_append_of_le_length (by simp; omega)]
        simp
      · refine ⟨c :: before, extra, ?_, by simp; omega⟩
        rw [List.cons_append, splitAt?, if_neg hprefix, hfind]
        rfl
  refine ⟨before, extra, hfind, hlength, ?_⟩
  rw [← splitAt?_eq_iff hword skipped rest, hfind]
  constructor
  · rintro rfl
    have htext := splitAt?_eq_some hfind
    rw [List.append_inj_left htext hlength.symm, List.nil_append]
  · intro h
    have hbefore : before = skipped := congrArg Prod.fst (Option.some.inj h)
    rw [hbefore] at hlength
    exact List.length_eq_zero_iff.mp (by omega)

end Fragment

end Prompt

inductive Segment.Laid : Nat → List Segment → List Token → Prop
  | nil {column} : Laid column [] []
  | token {column t more ts} : t.lexeme.toList ≠ [] → t.column = column →
      Laid (column + t.lexeme.toList.length) more ts →
      Laid column (⟨.token t.kind, t.lexeme.toList⟩ :: more) (t :: ts)
  | other {column s more ts} : (∀ k, s.shape ≠ .token k) → Laid (column + s.text.length) more ts →
      Laid column (s :: more) ts

namespace Segment

variable {s : Segment} {segments : List Segment} {skipped : List Char}

lemma inPlace_cons (hs : ∀ k, s.shape ≠ .token k) :
    InPlace skipped (s :: segments) ↔ InPlace (skipped ++ s.text) segments := by
  obtain ⟨shape, text⟩ := s
  cases shape with
  | token k => exact absurd rfl (hs k)
  | _ => exact Iff.rfl

lemma styles_cons (hs : ∀ k, s.shape ≠ .token k) (before : Option Kind) :
    styles before (s :: segments) =
      List.replicate s.text.length .plain ++ styles before segments := by
  obtain ⟨shape, text⟩ := s
  cases shape with
  | token k => exact absurd rfl (hs k)
  | _ => rfl

lemma laid_place (hne : ∀ s ∈ segments, s.text ≠ [])
    (hline : '\n' ∉ segments.flatMap text) (p : Position) :
    Laid p.column segments ((place p segments).filterMap token?) := by
  induction segments generalizing p with
  | nil => exact .nil
  | cons s segments ih =>
    obtain ⟨hs, hne⟩ := List.forall_mem_cons.mp hne
    rw [List.flatMap_cons, List.mem_append, not_or] at hline
    have hmore := ih hne hline.2 (p.after s.text)
    have hcolumn : (p.after s.text).column = p.column + s.text.length := by
      rw [Position.after_of_not_mem hline.1]
    rw [hcolumn] at hmore
    obtain ⟨shape, text⟩ := s
    cases shape with
    | token k =>
      obtain ⟨lexeme, rfl⟩ : ∃ lexeme : String, lexeme.toList = text := ⟨.ofList text, by simp⟩
      have htoken : token? (p, ⟨.token k, lexeme.toList⟩) = some ⟨k, lexeme, p.line, p.column⟩ := by
        simp [token?]
      rw [place, List.filterMap_cons, htoken]
      exact .token (t := ⟨k, lexeme, p.line, p.column⟩) hs rfl hmore
    | _ => exact .other (fun k hk => by cases hk) hmore

lemma laid_cut {line : List Char} (hline : '\n' ∉ line) :
    Laid 1 (cut line) (Scan.ofChars line).tokens :=
  laid_place (fun _ h => (formed_of_mem_cut h).ne_nil) (by rwa [flatMap_text_cut]) .start

lemma StartsNothing.extent {c : Char} (h : StartsNothing c) (rest : List Char) :
    Segment.extent c rest = (.stray, 0) := by
  obtain ⟨hgap, hquote, hdigit, hname, hchar⟩ := h
  have hslash : c ≠ '/' := by
    rintro rfl
    cases hchar
  have hpair : rest.head?.bind (Kind.ofPair? c) = none := by
    refine Option.bind_eq_none_iff.mpr fun d _ => ?_
    unfold Kind.ofPair?
    split <;> first | rfl | cases hchar
  simp [Segment.extent, operatorExtent, hgap, hslash, hquote, hdigit, hname, hpair, hchar]

theorem Written.not_infix {k : Kind} {word : List Char} (hword : Written k word)
    (hskipped : ∀ c ∈ skipped, isGap c = true ∨ StartsNothing c) :
    ¬word <:+: skipped ++ word.dropLast := by
  rintro ⟨front, back, htext⟩
  obtain ⟨first, text, rfl⟩ := List.exists_cons_of_ne_nil hword.ne_nil
  have hmem : first ∈ skipped := by
    have hlength := congrArg List.length htext
    have hfirst := congrArg (fun text => text[front.length]?) htext
    simp only [List.length_append, List.length_cons, List.length_dropLast] at hlength
    rw [List.getElem?_append_left (by simp), List.getElem?_append_right (Nat.le_refl _),
      List.getElem?_append_left (by omega), Nat.sub_self, List.getElem?_cons_zero] at hfirst
    exact List.mem_of_getElem? hfirst.symm
  have hbreaks : Breaks [] := fun _ h => nomatch h
  have hread := hword.extent hbreaks
  rw [List.append_nil] at hread
  rcases hskipped first hmem with hgap | hstray
  · rw [Segment.extent, if_pos hgap] at hread
    cases hread
  · rw [hstray.extent] at hread
    cases hread

lemma inPlace_of_no_token (h : ∀ s ∈ segments, ∀ k, s.shape ≠ .token k) (skipped : List Char) :
    InPlace skipped segments := by
  induction segments generalizing skipped with
  | nil => trivial
  | cons s segments ih =>
    obtain ⟨hs, h⟩ := List.forall_mem_cons.mp h
    exact (inPlace_cons hs).mpr (ih h _)

theorem inPlace_of_comments_last (hformed : ∀ s ∈ segments, s.Formed)
    (hclosed : ∀ s ∈ segments.dropLast, s.isOpen = false)
    (hcomments : segments.Pairwise fun s u => s.shape = .comment → ∀ k, u.shape ≠ .token k)
    (hskipped : ∀ c ∈ skipped, isGap c = true ∨ StartsNothing c) : InPlace skipped segments := by
  induction segments generalizing skipped with
  | nil => trivial
  | cons s segments ih =>
    obtain ⟨hs, hformed⟩ := List.forall_mem_cons.mp hformed
    obtain ⟨hcomment, hcomments⟩ := List.pairwise_cons.mp hcomments
    cases segments with
    | nil =>
      cases hs with
      | token hword => exact ⟨hword.not_infix hskipped, trivial⟩
      | _ => trivial
    | cons u more =>
      rw [List.dropLast_cons_cons, List.forall_mem_cons] at hclosed
      obtain ⟨hopen, hclosed⟩ := hclosed
      have hmore (text : List Char) (htext : ∀ c ∈ text, isGap c = true ∨ StartsNothing c) :=
        ih hformed hclosed hcomments htext
      cases hs with
      | token hword => exact ⟨hword.not_infix hskipped, hmore [] nofun⟩
      | lineComment | blockComment => exact inPlace_of_no_token (fun u hu => hcomment u hu rfl) _
      | openString | openComment => cases hopen
      | blanks _ htext =>
        exact hmore _ (List.forall_mem_append.mpr ⟨hskipped, fun c hc => .inl (htext c hc)⟩)
      | stray hc =>
        exact hmore _ (List.forall_mem_append.mpr
          ⟨hskipped, List.forall_mem_singleton.mpr (.inr hc)⟩)

end Segment

namespace Prompt

open Segment

variable {column : Nat} {segments : List Segment} {ts : List Token} {skipped : List Char}

namespace Marked

theorem places_ofTokens (h : Laid column segments ts) {offset : Nat}
    (hcolumn : column = offset + skipped.length + 1) (before : Option Kind) :
    List.Forall₂ (fun place t => place.2 = t ∧ place.1 < t.column)
      (places offset (ofTokens before (skipped ++ segments.flatMap Segment.text) ts)) ts := by
  induction h generalizing before skipped offset with
  | nil =>
    rw [ofTokens, places_gap_nil]
    exact .nil
  | @token column t more ts ht hc _ ih =>
    obtain ⟨front, extra, hfind, hlength, -⟩ :=
      Fragment.exists_splitAt? ht skipped (more.flatMap Segment.text)
    rw [List.flatMap_cons, ofTokens, hfind, places_gap]
    have hplace : offset + front.length < t.column := by omega
    refine .cons ⟨rfl, hplace⟩ (ih ?_ _)
    dsimp only
    omega
  | @other column s more ts hs _ ih =>
    rw [List.flatMap_cons, ← List.append_assoc]
    exact ih (by simp; omega) before

theorem places_ofTokens_iff (h : Laid column segments ts) {offset : Nat}
    (hcolumn : column = offset + skipped.length + 1) (before : Option Kind) :
    places offset (ofTokens before (skipped ++ segments.flatMap Segment.text) ts) =
      ts.map (fun t => (t.column - 1, t)) ↔ InPlace skipped segments := by
  induction h generalizing before skipped offset with
  | nil =>
    rw [ofTokens, places_gap_nil]
    exact iff_of_true rfl trivial
  | @token column t more ts ht hc _ ih =>
    obtain ⟨front, extra, hfind, hlength, hplace⟩ :=
      Fragment.exists_splitAt? ht skipped (more.flatMap Segment.text)
    have hmore : places (offset + front.length + t.lexeme.toList.length)
        (ofTokens (some t.kind) (extra ++ more.flatMap Segment.text) ts) =
          ts.map (fun t => (t.column - 1, t)) ↔ InPlace extra more :=
      ih (by omega) (some t.kind)
    have hhead : offset + front.length = t.column - 1 ↔ extra = [] := by
      rw [← List.length_eq_zero_iff]
      omega
    rw [List.flatMap_cons, ofTokens, hfind, places_gap, InPlace, ← hplace, List.map_cons]
    change (offset + front.length, t) :: places _ _ = _ ↔ _
    rw [List.cons.injEq, Prod.mk.injEq, hhead, and_iff_left rfl]
    refine and_congr_right fun hextra => ?_
    rw [← hextra]
    exact hmore
  | @other column s more ts hs _ ih =>
    rw [List.flatMap_cons, ← List.append_assoc, inPlace_cons hs]
    exact ih (by simp; omega) before

end Marked

theorem Fragment.styles_ofTokens (h : Laid column segments ts) (hplace : InPlace skipped segments)
    (before : Option Kind) :
    styles (ofTokens before (skipped ++ segments.flatMap Segment.text) ts) =
      List.replicate skipped.length .plain ++ Segment.styles before segments := by
  induction h generalizing before skipped with
  | nil => simp [ofTokens, styles_gap, Segment.styles]
  | @token column t more ts ht hc _ ih =>
    obtain ⟨hfirst, hplace⟩ := hplace
    have hfind := (splitAt?_eq_iff ht skipped (more.flatMap Segment.text)).mpr hfirst
    have hmore := ih hplace (some t.kind)
    rw [List.nil_append, List.length_nil, List.replicate_zero, List.nil_append] at hmore
    rw [List.flatMap_cons, ofTokens, hfind]
    dsimp only
    rw [styles_append, styles_gap, styles_cons, hmore]
    rfl
  | @other column s more ts hs _ ih =>
    rw [inPlace_cons hs] at hplace
    rw [List.flatMap_cons, ← List.append_assoc, ih hplace before, Segment.styles_cons hs,
      List.length_append, ← List.replicate_append_replicate, List.append_assoc]

/-- The fragments of a line show its tokens, each in its place, and nothing else: every character
has the style of the segment that it belongs to. -/
structure Faithful (line : List Char) : Prop where
  places : Marked.places 0 (Marked.ofLine line) =
    (Scan.ofChars line).tokens.map fun t => (t.column - 1, t)
  styles : Fragment.styles (Fragment.ofLine line) = Segment.styles none (cut line)

variable {line : List Char}

lemma Marked.ofLine_of_ne_nil (h : line ≠ []) : Marked.ofLine line =
    Marked.ofTokens none ([] ++ (cut line).flatMap Segment.text) (Scan.ofChars line).tokens := by
  rw [Marked.ofLine, if_neg (by simpa using h), List.nil_append, flatMap_text_cut]

lemma faithful_iff (hline : '\n' ∉ line) : Faithful line ↔ InPlace [] (cut line) := by
  have hlaid := laid_cut hline
  by_cases hne : line = []
  · subst hne
    have hempty : Faithful [] := ⟨by simp [Marked.ofLine, Marked.places, Scan.ofChars, place],
      by simp [Fragment.ofLine, Fragment.styles, Segment.styles]⟩
    exact iff_of_true hempty (by rw [cut_nil]; trivial)
  · have hcolumn : 1 = 0 + ([] : List Char).length + 1 := rfl
    have hiff := Marked.places_ofTokens_iff hlaid hcolumn none
    rw [← Marked.ofLine_of_ne_nil hne] at hiff
    refine ⟨fun h => hiff.mp h.places, fun h => ⟨hiff.mpr h, ?_⟩⟩
    have hstyles := Fragment.styles_ofTokens hlaid h none
    rw [List.nil_append, flatMap_text_cut] at hstyles
    rw [Fragment.ofLine, if_neg (by simpa using hne), hstyles]
    rfl

lemma places_ofLine (hline : '\n' ∉ line) :
    List.Forall₂ (fun place t => place.2 = t ∧ place.1 < t.column)
      (Marked.places 0 (Marked.ofLine line)) (Scan.ofChars line).tokens := by
  by_cases hne : line = []
  · subst hne
    simp [Marked.ofLine, Marked.places, Scan.ofChars, place]
  · rw [Marked.ofLine_of_ne_nil hne]
    exact Marked.places_ofTokens (laid_cut hline) rfl none

/-- The fragments of a line show all of its tokens in their order, none behind its place. They show
them in their places and nothing besides them exactly if none of them is written earlier, behind
the token before it; so they do wherever the comments of a line come after its tokens. -/
theorem shown_in_place_iff (hline : '\n' ∉ line) :
    (Marked.ofLine line).map Marked.fragment = Fragment.ofLine line ∧
      (∀ m ∈ Marked.ofLine line, m.Agrees) ∧
      List.Forall₂ (fun place t => place.2 = t ∧ place.1 < t.column)
        (Marked.places 0 (Marked.ofLine line)) (Scan.ofChars line).tokens ∧
      (Faithful line ↔ InPlace [] (cut line)) ∧
      ((cut line).Pairwise (fun s u => s.shape = .comment → ∀ k, u.shape ≠ .token k) →
        Faithful line) := by
  refine ⟨Marked.map_fragment_ofLine line, Marked.agrees_ofLine line, places_ofLine hline,
    faithful_iff hline, fun h => (faithful_iff hline).mpr ?_⟩
  exact inPlace_of_comments_last (fun _ => formed_of_mem_cut) (closed_cut line) h nofun

theorem shown_in_place_iff_comment :
    let line := "a /* b + a */ - b // 1".toList
    '\n' ∉ line ∧ InPlace [] (cut line) ∧ Faithful line := by
  intro line
  have hline : '\n' ∉ line := by decide
  have hplace : InPlace [] (cut line) := by decide +kernel
  exact ⟨hline, hplace, (shown_in_place_iff hline).2.2.2.1.mpr hplace⟩

theorem shown_within_comment :
    '\n' ∉ "/* 1 */ 1".toList ∧ Fragment.ofLine "/* 1 */ 1".toList =
        [⟨.plain, "/* ".toList⟩, ⟨.number, ['1']⟩, ⟨.plain, " */ 1".toList⟩] ∧
      ¬Faithful "/* 1 */ 1".toList := by
  refine ⟨by decide, by decide +kernel, fun h => ?_⟩
  have hplaces := h.places
  revert hplaces
  decide +kernel

end Prompt

end Lox
