import Lox.Token.Scan
import Mathlib.Tactic.Lemma

namespace Lox

namespace Kind

def isWord (k : Kind) : Bool := k = .identifier || keywords.any fun entry => entry.2 = k

lemma isWord_ofPair? {c d : Char} {k : Kind} (h : ofPair? c d = some k) : k.isWord = false := by
  unfold ofPair? at h
  split at h <;> cases h <;> rfl

lemma isWord_ofChar? {c : Char} {k : Kind} (h : ofChar? c = some k) : k.isWord = false := by
  unfold ofChar? at h
  split at h <;> cases h <;> rfl

end Kind

namespace Segment

lemma kind_of_operatorExtent {first : Char} {rest : List Char} {k : Kind} {n : Nat}
    (h : operatorExtent first rest = (.token k, n)) : k.isWord = false := by
  unfold operatorExtent at h
  split at h
  · next kind hk =>
    cases h
    obtain ⟨d, -, hd⟩ := Option.bind_eq_some_iff.mp hk
    exact Kind.isWord_ofPair? hd
  · split at h
    · next kind hk =>
      cases h
      exact Kind.isWord_ofChar? hk
    · cases h

theorem kind_of_extent {first : Char} {rest : List Char} {k : Kind} {n : Nat}
    (h : extent first rest = (.token k, n)) (hk : k.isWord = true) :
    k = Kind.ofWord (String.ofList (first :: rest.take n)) := by
  unfold extent at h
  split at h
  · cases h
  split at h
  · cases h
  split at h
  · unfold commentExtent at h
    split at h <;> cases h
  split at h
  · unfold stringExtent at h
    split at h <;> cases h
    cases hk
  split at h
  · cases h
    cases hk
  split at h
  · unfold nameExtent at h
    cases h
    rw [← List.prefix_iff_eq_take.mp (List.takeWhile_prefix _)]
  · rw [kind_of_operatorExtent h] at hk
    cases hk

lemma kind_of_mem_cut {source : List Char} {s : Segment} {k : Kind} (h : s ∈ cut source)
    (hs : s.shape = .token k) (hk : k.isWord = true) : k = Kind.ofWord (String.ofList s.text) := by
  fun_induction cut source with
  | case1 => cases h
  | case2 first rest shape n he ih =>
    rcases List.mem_cons.mp h with rfl | h
    · cases hs
      exact kind_of_extent he hk
    · exact ih h

lemma mem_of_mem_place {p q : Position} {segments : List Segment} {s : Segment}
    (h : (q, s) ∈ place p segments) : s ∈ segments := by
  induction segments generalizing p with
  | nil => cases h
  | cons t more ih =>
    rcases List.mem_cons.mp h with h | h
    · cases h
      exact List.mem_cons_self
    · exact List.mem_cons_of_mem _ (ih h)

end Segment

theorem Scan.kind_of_mem_tokens {source : List Char} {t : Token}
    (h : t ∈ (Scan.ofChars source).tokens) (hk : t.kind.isWord = true) :
    t.kind = Kind.ofWord t.lexeme := by
  obtain ⟨⟨p, shape, text⟩, hmem, ht⟩ := List.mem_filterMap.mp h
  cases shape <;> cases ht
  exact Segment.kind_of_mem_cut (Segment.mem_of_mem_place hmem) rfl hk

end Lox
