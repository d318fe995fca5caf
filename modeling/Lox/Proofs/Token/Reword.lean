import Mathlib.Data.List.Forall2
import Lox.Proofs.Token.Join

namespace Lox

namespace Segment

variable {first c : Char} {text more more' source : List Char} {shape : Shape} {n : Nat}

lemma isGap_of_opensName (h : opensName c = true) : isGap c = false := by
  refine Bool.eq_false_iff.mpr fun hgap => ?_
  simp only [isGap, Bool.or_eq_true, decide_eq_true_eq] at hgap
  rcases hgap with ((rfl | rfl) | rfl) | rfl <;> revert h <;> decide +kernel

lemma inLineComment_of_opensName (h : opensName c = true) : inLineComment c = true := by
  simp only [inLineComment, Bool.and_eq_true, decide_eq_true_eq]
  constructor <;> rintro rfl <;> revert h <;> decide +kernel

lemma continuesName_of_opensName (h : opensName c = true) : continuesName c = true := by
  simp only [opensName, continuesName, Bool.or_eq_true] at h ⊢
  exact h.imp_left .inl

lemma isAsciiDigit_of_opensName (h : opensName c = true) : Text.isAsciiDigit c = false := by
  refine Bool.eq_false_iff.mpr fun hdigit => ?_
  simp only [Text.isAsciiDigit, Bool.and_eq_true, decide_eq_true_eq] at hdigit
  obtain ⟨hlow, hhigh⟩ := hdigit
  have hdigits : ∀ k < 10, opensName (Char.ofNat (48 + k)) = false := by decide +kernel
  have hlow : 48 ≤ c.toNat := hlow
  have hhigh : c.toNat ≤ 57 := hhigh
  have hclosed := hdigits (c.toNat - 48) (by omega)
  rw [Nat.add_sub_cancel' hlow, Char.ofNat_toNat, h] at hclosed
  cases hclosed

lemma ofPair?_of_opensName (first : Char) (h : opensName c = true) :
    Kind.ofPair? first c = none := by
  have hequal : c ≠ '=' := by
    rintro rfl
    revert h
    decide +kernel
  unfold Kind.ofPair?
  split <;> first | rfl | exact absurd rfl hequal

lemma extent_of_opensName (h : opensName first = true) (rest : List Char) :
    extent first rest = nameExtent first rest := by
  have hslash : first ≠ '/' := by
    rintro rfl
    revert h
    decide +kernel
  have hquote : first ≠ '"' := by
    rintro rfl
    revert h
    decide +kernel
  simp [extent, isGap_of_opensName h, isAsciiDigit_of_opensName h, h, hslash, hquote]

def Heads (more more' : List Char) : Prop :=
  Option.Rel (fun c c' => c = c' ∨ opensName c = true ∧ opensName c' = true) more.head? more'.head?

lemma Heads.refl (more : List Char) : Heads more more := by
  unfold Heads
  cases more.head? with
  | none => exact .none
  | some c => exact .some (.inl rfl)

lemma Heads.append (h : Heads more more') (text : List Char) :
    Heads (text ++ more) (text ++ more') := by
  cases text with
  | nil => exact h
  | cons c text => exact .some (.inl rfl)

theorem Heads.any {p : Char → Bool} {b : Bool} (hp : ∀ c, opensName c = true → p c = b)
    (h : Heads more more') : more'.head?.any p = more.head?.any p := by
  unfold Heads at h
  generalize more.head? = head at h ⊢
  generalize more'.head? = head' at h ⊢
  cases h with
  | none => rfl
  | some hc =>
    rcases hc with rfl | ⟨hc, hc'⟩
    · rfl
    · exact (hp _ hc').trans (hp _ hc).symm

lemma Heads.head?_eq_some (h : Heads more more') (hc : opensName c = false) :
    more'.head? = some c ↔ more.head? = some c := by
  have hany := h.any (p := (· == c)) fun d hd => beq_false_of_ne fun heq => by simp [heq, hc] at hd
  cases more <;> cases more' <;> simp_all

lemma Heads.ofPair? (h : Heads more more') (first : Char) :
    more'.head?.bind (Kind.ofPair? first) = more.head?.bind (Kind.ofPair? first) := by
  unfold Heads at h
  generalize more.head? = head at h ⊢
  generalize more'.head? = head' at h ⊢
  cases h with
  | none => rfl
  | some hc =>
    rcases hc with rfl | ⟨hc, hc'⟩
    · rfl
    · exact (ofPair?_of_opensName first hc').trans (ofPair?_of_opensName first hc).symm

structure Meets (more more' : List Char) : Prop where
  heads : Heads more more'
  behindPoint : more.head? = some '.' → Heads more.tail more'.tail

lemma takeWhile_append_eq_iff {p : Char → Bool} :
    (text ++ more).takeWhile p = text ↔ (∀ c ∈ text, p c = true) ∧ more.head?.any p = false := by
  induction text with
  | nil =>
    cases more with
    | nil => simp
    | cons c more => by_cases hc : p c = true <;> simp [hc]
  | cons c text ih => by_cases hc : p c = true <;> simp [hc, ih]

lemma takeWhile_append_eq {p : Char → Bool}
    (h : ((text ++ more).takeWhile p).length = text.length) :
    (text ++ more).takeWhile p = text := by
  rw [← take_length_takeWhile, h, List.take_left]

lemma Heads.takeWhile {p : Char → Bool} {b : Bool} (hp : ∀ c, opensName c = true → p c = b)
    (hm : Heads more more') (h : ((text ++ more).takeWhile p).length = text.length) :
    (text ++ more').takeWhile p = text := by
  obtain ⟨htext, hmore⟩ := takeWhile_append_eq_iff.mp (takeWhile_append_eq h)
  exact takeWhile_append_eq_iff.mpr ⟨htext, (hm.any hp).trans hmore⟩

lemma throughClose_of_append (h : throughClose (text ++ more) = some n)
    (hn : n ≤ text.length) : throughClose text = some n := by
  cases htext : throughClose text with
  | some m => rw [← h, throughClose_append htext]
  | none =>
    obtain ⟨body, htake, -⟩ := throughClose_eq_some h
    rw [List.take_append_of_le_length hn] at htake
    have hclosing : closing <:+: text.take n := htake ▸ (List.suffix_append body _).isInfix
    exact absurd (hclosing.trans (List.take_prefix n text).isInfix) (throughClose_eq_none htext)

lemma throughQuote_of_append (h : throughQuote (text ++ more) = some n)
    (hn : n ≤ text.length) : throughQuote text = some n := by
  cases htext : throughQuote text with
  | some m => rw [← h, throughQuote_append htext]
  | none =>
    obtain ⟨inner, htake, -⟩ := throughQuote_eq_some h
    rw [List.take_append_of_le_length hn] at htake
    have hquote : '"' ∈ text.take n := htake ▸ List.mem_append_right inner List.mem_cons_self
    exact absurd (List.mem_of_mem_take hquote) (throughQuote_eq_none htext)

lemma Heads.eq_of_length (hm : Heads more more')
    (h : (text ++ more).length = text.length) : more = [] ∧ more' = [] := by
  obtain rfl : more = [] := by simpa using h
  cases more' with
  | nil => exact ⟨rfl, rfl⟩
  | cons c more' => cases hm

lemma commentExtent_heads (hm : Heads more more')
    (h : commentExtent (text ++ more) = (shape, text.length)) :
    commentExtent (text ++ more') = (shape, text.length) := by
  unfold commentExtent at h
  split at h
  · next n hclose =>
    obtain ⟨rfl, hn⟩ := Prod.mk.inj h
    cases text with
    | nil => cases hn
    | cons c text =>
      obtain rfl := Nat.succ.inj hn
      have htext := throughClose_of_append hclose (Nat.le_refl _)
      have hclose' : throughClose ((c :: text ++ more').drop 1) = some text.length :=
        throughClose_append htext more'
      rw [commentExtent, hclose']
      rfl
  · next hopen =>
    obtain ⟨rfl, hlength⟩ := Prod.mk.inj h
    obtain ⟨rfl, rfl⟩ := hm.eq_of_length hlength
    rw [commentExtent, hopen, hlength]

lemma stringExtent_heads (hm : Heads more more')
    (h : stringExtent (text ++ more) = (shape, text.length)) :
    stringExtent (text ++ more') = (shape, text.length) := by
  unfold stringExtent at h
  split at h
  · next n hquote =>
    obtain ⟨rfl, rfl⟩ := Prod.mk.inj h
    have htext := throughQuote_of_append hquote (Nat.le_refl _)
    rw [stringExtent, throughQuote_append htext]
  · next hopen =>
    obtain ⟨rfl, hlength⟩ := Prod.mk.inj h
    obtain ⟨rfl, rfl⟩ := hm.eq_of_length hlength
    rw [stringExtent, hopen, hlength]

lemma numberExtent_cons (hc : Text.isAsciiDigit c = true) (rest : List Char) :
    numberExtent (c :: rest) = numberExtent rest + 1 := by
  unfold numberExtent
  simp only [List.takeWhile_cons_of_pos hc, List.length_cons, List.drop_succ_cons]
  split
  · split <;> omega
  · rfl

lemma numberExtent_point (hc : Text.isAsciiDigit c = true) (rest : List Char) :
    numberExtent ('.' :: c :: rest) = 2 + (rest.takeWhile Text.isAsciiDigit).length := by
  have hpoint : Text.isAsciiDigit '.' = false := by decide
  simp [numberExtent, hpoint, hc]

lemma numberExtent_eq_zero_iff : numberExtent more = 0 ↔
    more.head?.any Text.isAsciiDigit = false ∧
      (more.head? = some '.' → more.tail.head?.any Text.isAsciiDigit = false) := by
  have hpoint : Text.isAsciiDigit '.' = false := by decide
  rcases more with _ | ⟨c, more⟩
  · simp [numberExtent]
  by_cases hc : Text.isAsciiDigit c = true
  · simp [numberExtent_cons hc, hc]
  by_cases hdot : c = '.'
  · subst hdot
    rcases more with _ | ⟨d, more⟩
    · simp [numberExtent, hpoint]
    by_cases hd : Text.isAsciiDigit d = true
    · simp [numberExtent_point hd, hd]
    · simp [numberExtent, hpoint, hd]
  · simp [numberExtent, hc, hdot]

lemma numberExtent_meets (hm : Meets more more')
    (h : numberExtent (text ++ more) = text.length) :
    numberExtent (text ++ more') = text.length := by
  have hdigit : ∀ c, opensName c = true → Text.isAsciiDigit c = false :=
    fun _ => isAsciiDigit_of_opensName
  induction text with
  | nil =>
    obtain ⟨hhead, hpoint⟩ := numberExtent_eq_zero_iff.mp h
    refine numberExtent_eq_zero_iff.mpr ⟨(hm.heads.any hdigit).trans hhead, fun hdot => ?_⟩
    have hdot := (hm.heads.head?_eq_some (by decide +kernel)).mp hdot
    exact ((hm.behindPoint hdot).any hdigit).trans (hpoint hdot)
  | cons c text ih =>
    by_cases hc : Text.isAsciiDigit c = true
    · rw [List.cons_append, numberExtent_cons hc] at h ⊢
      rw [ih (Nat.succ.inj h), List.length_cons]
    -- What starts with no digit is a fraction if it reaches anywhere.
    have hne : numberExtent (c :: text ++ more) ≠ 0 := h ▸ Nat.succ_ne_zero _
    rw [Ne, numberExtent_eq_zero_iff, List.cons_append, List.head?_cons] at hne
    have hfraction : c = '.' ∧ (text ++ more).head?.any Text.isAsciiDigit = true := by
      simpa [hc] using hne
    obtain ⟨rfl, hfraction⟩ := hfraction
    cases text with
    | nil =>
      cases more with
      | nil => cases hfraction
      | cons d more =>
        rw [List.cons_append, List.nil_append, numberExtent_point hfraction] at h
        simp at h
        omega
    | cons d text =>
      have hd : Text.isAsciiDigit d = true := hfraction
      rw [List.cons_append, List.cons_append, numberExtent_point hd] at h ⊢
      rw [hm.heads.takeWhile hdigit (by simpa [Nat.add_comm 2] using h)]
      exact Nat.add_comm 2 _

lemma extent_meets (hm : Meets more more')
    (h : extent first (text ++ more) = (shape, text.length)) :
    extent first (text ++ more') = (shape, text.length) := by
  have hslash := (hm.heads.append text).head?_eq_some (c := '/') (by decide +kernel)
  have hstar := (hm.heads.append text).head?_eq_some (c := '*') (by decide +kernel)
  unfold extent at h ⊢
  simp only [hslash, hstar]
  split
  · next hgap =>
    rw [if_pos hgap] at h
    obtain ⟨rfl, hlength⟩ := Prod.mk.inj h
    rw [hm.heads.takeWhile (fun _ => isGap_of_opensName) hlength]
  next hgap =>
  rw [if_neg hgap] at h
  split
  · next hline =>
    rw [if_pos hline] at h
    obtain ⟨rfl, hlength⟩ := Prod.mk.inj h
    rw [hm.heads.takeWhile (fun _ => inLineComment_of_opensName) hlength]
  next hline =>
  rw [if_neg hline] at h
  split
  · next hblock =>
    rw [if_pos hblock] at h
    exact commentExtent_heads hm.heads h
  next hblock =>
  rw [if_neg hblock] at h
  split
  · next hquote =>
    rw [if_pos hquote] at h
    exact stringExtent_heads hm.heads h
  next hquote =>
  rw [if_neg hquote] at h
  split
  · next hdigit =>
    rw [if_pos hdigit] at h
    obtain ⟨rfl, hlength⟩ := Prod.mk.inj h
    rw [numberExtent_meets hm hlength]
  next hdigit =>
  rw [if_neg hdigit] at h
  split
  · next hname =>
    rw [if_pos hname] at h
    obtain ⟨rfl, hlength⟩ := Prod.mk.inj h
    rw [nameExtent, hm.heads.takeWhile (fun _ => continuesName_of_opensName) hlength,
      takeWhile_append_eq hlength]
  next hname =>
  rw [if_neg hname] at h
  unfold operatorExtent at h ⊢
  rwa [(hm.heads.append text).ofPair? first]

lemma Written.opensName {text : List Char} (h : Written .identifier text) :
    ∃ first more, text = first :: more ∧ opensName first = true ∧
      (∀ c ∈ more, continuesName c = true) ∧
      Kind.ofWord (String.ofList (first :: more)) = .identifier := by
  cases h with
  | fixed hk => cases hk
  | @name first more hfirst hmore hword =>
    refine ⟨first, more, rfl, hfirst, hmore, ?_⟩
    rcases Kind.ofWord_cases (String.ofList (first :: more)) with hkeyword | ⟨hk, -⟩
    · exact absurd rfl (hword _ hkeyword)
    · exact hk

lemma Written.count_newline {text : List Char} (h : Written .identifier text) :
    text.count '\n' = 0 := by
  obtain ⟨first, more, rfl, hfirst, hmore, -⟩ := h.opensName
  refine List.count_eq_zero_of_not_mem fun hmem => ?_
  have hall : ∀ c ∈ first :: more, continuesName c = true :=
    List.forall_mem_cons.mpr ⟨continuesName_of_opensName hfirst, hmore⟩
  have hstop : continuesName '\n' = false := by decide +kernel
  exact absurd (hall _ hmem) (by simp [hstop])

inductive Rewords : Segment → Segment → Prop
  | same (s : Segment) : Rewords s s
  | name {text text' : List Char} (h : Written .identifier text) (h' : Written .identifier text') :
      Rewords ⟨.token .identifier, text⟩ ⟨.token .identifier, text'⟩

lemma Rewords.count_newline {s s' : Segment} (h : Rewords s s') :
    s'.text.count '\n' = s.text.count '\n' := by
  cases h with
  | same => rfl
  | name h h' => rw [h.count_newline, h'.count_newline]

lemma Rewords.heads {s s' : Segment} (h : Rewords s s') (hm : Heads more more') :
    Heads (s.text ++ more) (s'.text ++ more') := by
  cases h with
  | same s => exact hm.append s.text
  | name h h' =>
    obtain ⟨first, text, rfl, hfirst, -⟩ := h.opensName
    obtain ⟨first', text', rfl, hfirst', -⟩ := h'.opensName
    exact .some (.inr ⟨hfirst, hfirst'⟩)

lemma Rewords.meets {s s' : Segment} (h : Rewords s s') (hne : s.text ≠ [])
    (hm : Heads more more') : Meets (s.text ++ more) (s'.text ++ more') := by
  refine ⟨h.heads hm, fun hdot => ?_⟩
  cases h with
  | same s =>
    obtain ⟨c, text, htext⟩ := List.exists_cons_of_ne_nil hne
    rw [htext]
    exact hm.append text
  | name h h' =>
    obtain ⟨first, text, rfl, hfirst, -⟩ := h.opensName
    obtain rfl : first = '.' := Option.some.inj hdot
    exact absurd hfirst (by decide +kernel)

variable {segments segments' : List Segment}

lemma heads_flatMap (h : List.Forall₂ Rewords segments segments') :
    Heads (segments.flatMap Segment.text) (segments'.flatMap Segment.text) := by
  induction h with
  | nil => exact .refl []
  | cons hs _ ih => exact hs.heads ih

lemma meets_flatMap (h : List.Forall₂ Rewords segments segments')
    (hne : ∀ s ∈ segments, s.text ≠ []) :
    Meets (segments.flatMap Segment.text) (segments'.flatMap Segment.text) := by
  cases h with
  | nil => exact ⟨.refl [], fun _ => .refl []⟩
  | cons hs hmore => exact hs.meets (hne _ List.mem_cons_self) (heads_flatMap hmore)

theorem extent_of_written {text : List Char} (h : Written .identifier (first :: text))
    (hmore : more.head?.any continuesName = false) :
    extent first (text ++ more) = (.token .identifier, text.length) := by
  obtain ⟨_, _, heq, hfirst, htext, hk⟩ := h.opensName
  cases heq
  rw [extent_of_opensName hfirst, nameExtent, takeWhile_append_eq_iff.mpr ⟨htext, hmore⟩]
  rw [hk]

lemma head_of_written {text : List Char} (h : Written .identifier (first :: text))
    (hextent : extent first (text ++ more) = (shape, text.length)) :
    more.head?.any continuesName = false := by
  obtain ⟨_, _, heq, hfirst, -⟩ := h.opensName
  cases heq
  rw [extent_of_opensName hfirst] at hextent
  exact (takeWhile_append_eq_iff.mp (takeWhile_append_eq (Prod.mk.inj hextent).2)).2

lemma cut_append (h : extent first (text ++ more) = (shape, text.length)) :
    cut (first :: text ++ more) = ⟨shape, first :: text⟩ :: cut more := by
  rw [List.cons_append, cut_cons, h, List.take_left, List.drop_left]

theorem cut_flatMap (h : List.Forall₂ Rewords (cut source) segments) :
    cut (segments.flatMap Segment.text) = segments := by
  fun_induction cut source generalizing segments with
  | case1 =>
    cases h
    exact cut_nil
  | case2 first rest shape n he ih =>
    cases h with
    | @cons _ s' _ segments hs hmore =>
      have hmeets := meets_flatMap hmore (partition_cut _).nonempty
      rw [flatMap_text_cut] at hmeets
      have hn : (rest.take n).length = n := by
        have hle := extent_le first rest
        rw [he] at hle
        exact List.length_take_of_le hle
      have hextent : extent first (rest.take n ++ rest.drop n) = (shape, (rest.take n).length) := by
        rw [List.take_append_drop, he, hn]
      rw [List.flatMap_cons]
      cases hs with
      | same => rw [cut_append (extent_meets hmeets hextent), ih hmore]
      | name hname hname' =>
        have hstop := head_of_written hname hextent
        have hstop' := (hmeets.heads.any fun _ => continuesName_of_opensName).trans hstop
        obtain ⟨first', text', rfl, -⟩ := hname'.opensName
        rw [cut_append (extent_of_written hname' hstop'), ih hmore]

def reword (occurrences : List Token) (name : String) (entry : Position × Segment) : Segment :=
  match token? entry with
  | some t => if t ∈ occurrences then { entry.2 with text := name.toList } else entry.2
  | none => entry.2

variable {occurrences : List Token} {name : String}

lemma rewords_reword (hnames : ∀ t ∈ occurrences, t.kind = .identifier)
    (hname : Written .identifier name.toList) (p : Position) {s : Segment} (hs : s.Formed) :
    Rewords s (reword occurrences name (p, s)) := by
  unfold reword
  split
  · next t ht =>
    split
    · next hmem =>
      have hk := hnames t hmem
      cases hs with
      | token htext =>
        cases ht
        cases hk
        exact .name htext hname
      | _ => cases ht
    · exact .same s
  · exact .same s

end Segment

structure Token.Respelled (occurrences : List Token) (name : String) (t t' : Token) : Prop where
  kind : t'.kind = t.kind
  lexeme : t'.lexeme = if t ∈ occurrences then name else t.lexeme
  line : t'.line = t.line

lemma Position.line_after (p : Position) (text : List Char) :
    (p.after text).line = p.line + text.count '\n' := by
  induction text generalizing p with
  | nil => rfl
  | cons c text ih =>
    have hafter : p.after (c :: text) = (p.advance c).after text := rfl
    rw [hafter, ih, advance]
    by_cases hc : c = '\n'
    · simp [hc, Nat.add_assoc, Nat.add_comm 1]
    · simp [hc]

namespace Segment

variable {occurrences : List Token} {name : String} {p p' : Position} {segments : List Segment}

lemma token?_reword (occurrences : List Token) (name : String) (hp : p'.line = p.line)
    (s : Segment) :
    Option.Rel (Token.Respelled occurrences name) (token? (p, s))
      (token? (p', reword occurrences name (p, s))) := by
  obtain ⟨shape, text⟩ := s
  cases shape with
  | token kind =>
    let t : Token := ⟨kind, String.ofList text, p.line, p.column⟩
    have hreword : reword occurrences name (p, ⟨.token kind, text⟩) =
        if t ∈ occurrences then ⟨.token kind, name.toList⟩ else ⟨.token kind, text⟩ := rfl
    rw [hreword]
    by_cases hmem : t ∈ occurrences
    · rw [if_pos hmem]
      exact .some ⟨rfl, String.ofList_toList.trans (if_pos hmem).symm, hp⟩
    · rw [if_neg hmem]
      exact .some ⟨rfl, (if_neg hmem).symm, hp⟩
  | _ => exact .none

lemma diagnostics_of_rewords {segments' : List Segment}
    (h : List.Forall₂ Rewords segments segments')
    (hnone : (place p segments).filterMap diagnostic? = []) :
    (place p' segments').filterMap diagnostic? = [] := by
  rw [List.filterMap_eq_nil_iff] at hnone ⊢
  induction h generalizing p p' with
  | nil => exact fun _ hentry => nomatch hentry
  | @cons s s' _ _ hs _ ih =>
    obtain ⟨hfirst, hmore⟩ := List.forall_mem_cons.mp hnone
    refine List.forall_mem_cons.mpr ⟨?_, ih hmore⟩
    cases hs with
    | same =>
      obtain ⟨shape, text⟩ := s
      cases shape <;> first | rfl | cases hfirst
    | name => rfl

variable (hnames : ∀ t ∈ occurrences, t.kind = .identifier)
  (hname : Written .identifier name.toList) (hformed : ∀ s ∈ segments, s.Formed)

include hnames hname hformed

lemma forall₂_rewords :
    List.Forall₂ Rewords segments ((place p segments).map (reword occurrences name)) := by
  induction segments generalizing p with
  | nil => exact .nil
  | cons s more ih =>
    obtain ⟨hs, hmore⟩ := List.forall_mem_cons.mp hformed
    exact .cons (rewords_reword hnames hname p hs) (ih hmore)

lemma forall₂_respelled (hp : p'.line = p.line) :
    List.Forall₂ (Token.Respelled occurrences name) ((place p segments).filterMap token?)
      ((place p' ((place p segments).map (reword occurrences name))).filterMap token?) := by
  induction segments generalizing p p' with
  | nil => exact .nil
  | cons s more ih =>
    obtain ⟨hs, hmore⟩ := List.forall_mem_cons.mp hformed
    have hrewords := rewords_reword hnames hname p hs
    have hline : (p'.after (reword occurrences name (p, s)).text).line = (p.after s.text).line := by
      rw [Position.line_after, Position.line_after, hrewords.count_newline, hp]
    have htail := ih hmore hline
    have hhead := token?_reword occurrences name hp s
    simp only [place, List.map_cons, List.filterMap_cons]
    generalize token? (p, s) = t at hhead ⊢
    generalize token? (p', reword occurrences name (p, s)) = t' at hhead ⊢
    cases hhead with
    | none => exact htail
    | some ht => exact .cons ht htail

end Segment

namespace Scan

open Segment

def reword (source : String) (occurrences : List Token) (name : String) : String :=
  String.ofList (((place .start (cut source.toList)).map
    (Segment.reword occurrences name)).flatMap Segment.text)

variable {name : String} {occurrences : List Token}
  (hnames : ∀ t ∈ occurrences, t.kind = .identifier) (hname : Written .identifier name.toList)

include hnames hname

lemma cut_reword (source : String) : cut (reword source occurrences name).toList =
    (place .start (cut source.toList)).map (Segment.reword occurrences name) := by
  rw [reword, String.toList_ofList]
  exact cut_flatMap (forall₂_rewords hnames hname (partition_cut _).formed)

lemma tokens_reword (source : String) :
    List.Forall₂ (Token.Respelled occurrences name) (ofString source).tokens
      (ofString (reword source occurrences name)).tokens := by
  have hcut := cut_reword hnames hname source
  simp only [ofString, ofChars, hcut]
  exact forall₂_respelled hnames hname (partition_cut _).formed rfl

lemma diagnostics_reword {source : String} (h : (ofString source).diagnostics = []) :
    (ofString (reword source occurrences name)).diagnostics = [] := by
  have hcut := cut_reword hnames hname source
  simp only [ofString, ofChars, hcut]
  exact diagnostics_of_rewords (forall₂_rewords hnames hname (partition_cut _).formed) h

end Scan

end Lox
