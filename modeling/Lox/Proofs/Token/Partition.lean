import Lox.Proofs.Token.Lexeme
import Lox.Proofs.Token.Word

/-! The scanner cuts a text into segments without a rest. Every token lies where the newlines in
front of it say, and every segment that cannot be read is reported once. -/

namespace Lox

namespace Position

def behind (text : List Char) : Position :=
  ⟨1 + text.count '\n', 1 + (text.reverse.takeWhile (· ≠ '\n')).length⟩

lemma advance_behind (text : List Char) (c : Char) :
    (behind text).advance c = behind (text ++ [c]) := by
  by_cases hc : c = '\n'
  · subst hc
    simp [behind, advance, Nat.add_assoc]
  · simp [behind, advance, hc, Nat.add_assoc]

lemma after_behind (before text : List Char) :
    (behind before).after text = behind (before ++ text) := by
  induction text generalizing before with
  | nil => simp [after]
  | cons c rest ih =>
    calc (behind before).after (c :: rest)
        = ((behind before).advance c).after rest := rfl
      _ = (behind (before ++ [c])).after rest := by rw [advance_behind]
      _ = behind (before ++ c :: rest) := by rw [ih, List.append_assoc, List.singleton_append]

lemma after_start (text : List Char) : start.after text = behind text := after_behind [] text

end Position

namespace Segment

def isOpen (s : Segment) : Bool := s.shape = .openString || s.shape = .openComment

/-- The segments that make up a text. Only the last of them may lack its end. -/
structure Partition (source : List Char) (segments : List Segment) : Prop where
  text : segments.flatMap Segment.text = source
  nonempty : ∀ s ∈ segments, s.text ≠ []
  formed : ∀ s ∈ segments, s.Formed
  closed : ∀ s ∈ segments.dropLast, s.isOpen = false

def spread (before : List Char) : List Segment → List (List Char × Segment)
  | [] => []
  | s :: more => (before, s) :: spread (before ++ s.text) more

def tokenBehind? : List Char × Segment → Option Token
  | (before, ⟨.token kind, text⟩) =>
    some ⟨kind, String.ofList text, (Position.behind before).line, (Position.behind before).column⟩
  | _ => none

def problemBehind? : List Char × Segment → Option Diagnostic
  | (before, ⟨.stray, _⟩) => some (.onLine (Position.behind before).line .strayCharacter)
  | (before, ⟨.openString, text⟩) =>
    some (.onLine (Position.behind (before ++ text)).line .openString)
  | (before, ⟨.openComment, _⟩) => some (.onLine (Position.behind before).line .openComment)
  | _ => none

lemma place_behind (before : List Char) (segments : List Segment) :
    place (.behind before) segments =
      (spread before segments).map fun entry => (.behind entry.1, entry.2) := by
  induction segments generalizing before with
  | nil => rfl
  | cons s more ih => simp [place, spread, Position.after_behind, ih]

lemma token?_behind (entry : List Char × Segment) :
    token? (.behind entry.1, entry.2) = tokenBehind? entry := by
  obtain ⟨before, shape, text⟩ := entry
  cases shape <;> rfl

lemma diagnostic?_behind (entry : List Char × Segment) :
    diagnostic? (.behind entry.1, entry.2) = problemBehind? entry := by
  obtain ⟨before, shape, text⟩ := entry
  cases shape <;> simp [diagnostic?, problemBehind?, Position.after_behind]

lemma filterMap_place_start {α : Type} (f : Position × Segment → Option α)
    (segments : List Segment) :
    (place .start segments).filterMap f =
      (spread [] segments).filterMap fun entry => f (.behind entry.1, entry.2) := by
  have hplace : place .start segments = _ := place_behind [] segments
  rw [hplace, List.filterMap_map]
  rfl

theorem extent_of_isOpen {first : Char} {rest text : List Char} {shape : Shape} {n : Nat}
    (h : extent first rest = (shape, n)) (hopen : isOpen ⟨shape, text⟩ = true) :
    n = rest.length := by
  unfold extent at h
  split at h
  · cases h
    cases hopen
  split at h
  · cases h
    cases hopen
  split at h
  · unfold commentExtent at h
    split at h <;> cases h
    · cases hopen
    · rfl
  split at h
  · unfold stringExtent at h
    split at h <;> cases h
    · cases hopen
    · rfl
  split at h
  · cases h
    cases hopen
  split at h
  · cases h
    cases hopen
  · unfold operatorExtent at h
    split at h
    · cases h
      cases hopen
    · split at h <;> cases h <;> cases hopen

lemma closed_cut (source : List Char) : ∀ s ∈ (cut source).dropLast, s.isOpen = false := by
  fun_induction cut source with
  | case1 => simp
  | case2 first rest shape n he ih =>
    intro s hs
    cases hmore : cut (rest.drop n) with
    | nil => simp [hmore] at hs
    | cons t more =>
      rw [hmore, List.dropLast_cons_cons] at hs
      rcases List.mem_cons.mp hs with rfl | hs
      · rw [Bool.eq_false_iff]
        intro hopen
        have hn : n = rest.length := extent_of_isOpen he hopen
        simp [hn] at hmore
      · exact ih s (by rwa [hmore])

lemma partition_cut (source : List Char) : Partition source (cut source) where
  text := flatMap_text_cut source
  nonempty _ h := (formed_of_mem_cut h).ne_nil
  formed _ h := formed_of_mem_cut h
  closed := closed_cut source

lemma Written.kind_ne_finish {k : Kind} {text : List Char} (h : Written k text) :
    k ≠ .finish := by
  rintro rfl
  cases h with
  | fixed hk hne => exact hne (String.ofList_injective (Option.some.inj hk).symm)

end Segment

namespace Scan

open Segment

lemma kind_ne_finish {source : List Char} {t : Token} (h : t ∈ (ofChars source).tokens) :
    t.kind ≠ .finish := by
  obtain ⟨⟨p, shape, text⟩, hmem, ht⟩ := List.mem_filterMap.mp h
  cases shape <;> cases ht
  cases formed_of_mem_cut (mem_of_mem_place hmem) with
  | token htext => exact htext.kind_ne_finish

/-- The tokens of a text are those among the segments that make it up, in their order and with
their positions, and then its end. The reports are those about the other segments. -/
theorem ofString_partition (source : String) :
    ∃ segments, Partition source.toList segments ∧
      (ofString source).all = (spread [] segments).filterMap tokenBehind? ++
        [⟨.finish, "", (Position.behind source.toList).line,
          (Position.behind source.toList).column⟩] ∧
      (∀ t ∈ (ofString source).tokens, t.kind ≠ .finish) ∧
      (ofString source).diagnostics = (spread [] segments).filterMap problemBehind? := by
  refine ⟨cut source.toList, partition_cut _, ?_, fun t => kind_ne_finish, ?_⟩
  · have htokens := filterMap_place_start token? (cut source.toList)
    simp only [token?_behind] at htokens
    simp only [ofString, ofChars, all, finishAt, htokens, Position.after_start]
  · have hreports := filterMap_place_start diagnostic? (cut source.toList)
    simp only [diagnostic?_behind] at hreports
    exact hreports

end Scan

end Lox
