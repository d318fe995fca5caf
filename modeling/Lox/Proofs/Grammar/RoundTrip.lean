import Lox.Proofs.Grammar.Single
import Lox.Proofs.Grammar.Spelling

namespace Lox.Grammar

def terminators : List Kind := [.semicolon, .rightParen, .rightBracket, .colon, .finish]

lemma not_continues_of_terminators {k : Kind} (h : k ∈ terminators) :
    k ∉ Level.comma.continues := by
  have hall : ∀ k ∈ terminators, k ∉ Level.comma.continues := by decide
  exact hall k h

/-- The tokens of an expression that is read without a report are those that it is read from. A
tree that respects the tiers is read from its own tokens, and from no more of them. -/
theorem expression_round_trip :
    (∀ (s : Scan) (e : Expr) (c : Cursor), s.finish.kind = .finish →
      expression s = ⟨.ok e, c⟩ → c.reports = [] →
        ∃ ts, s.tokens = ts ++ c.rest ∧ (IsPlain ts → Rendered e.tokens ts)) ∧
    ∀ (s : Scan) (e : Expr) (rest : List Token), s.finish.kind = .finish → e.Tiered →
      s.tokens = e.tokens ++ rest → following rest ∈ terminators →
        ∃ e' c, expression s = ⟨.ok e', c⟩ ∧ e'.lineless = e.lineless ∧ c.reports = [] ∧
          c.rest = rest := by
  refine ⟨fun s e c hs h hc => ?_, fun s e rest hs he htokens hrest => ?_⟩
  · obtain ⟨ts, htokens, hspells⟩ := spells_of_expression hs h hc
    exact ⟨ts, htokens, hspells.renders⟩
  · obtain ⟨e', heq, hspells⟩ := (he.spelled e).at_comma
    obtain ⟨c, hread, hcrest, hreports⟩ :=
      expression_of_spells hs htokens hspells (not_continues_of_terminators hrest)
    exact ⟨e', c, hread, heq, hreports, hcrest⟩

theorem expression_round_trip_conditional :
    let a : Token := ⟨.identifier, "a", 1, 1⟩
    let mark : Token := ⟨.question, "?", 1, 3⟩
    let b : Token := ⟨.identifier, "b", 1, 5⟩
    let colon : Token := .ofKind .colon
    let c : Token := ⟨.identifier, "c", 1, 9⟩
    let semicolon : Token := ⟨.semicolon, ";", 1, 10⟩
    let s : Scan := ⟨[a, mark, b, colon, c, semicolon], Scan.finishAt ⟨1, 11⟩, []⟩
    let e : Expr := .conditional (.ref ⟨a, none⟩) mark (.ref ⟨b, none⟩) (.ref ⟨c, none⟩)
    (∃ d : Cursor, ∃ ts, expression s = ⟨.ok e, d⟩ ∧ s.tokens = ts ++ d.rest ∧
      (IsPlain ts → Rendered e.tokens ts)) ∧
    ∃ e' d, expression s = ⟨.ok e', d⟩ ∧ e'.lineless = e.lineless ∧ d.reports = [] ∧
      d.rest = [semicolon] := by
  intro a mark b colon c semicolon s e
  have hread : expression s = ⟨.ok e, ⟨[semicolon], c, Scan.finishAt ⟨1, 11⟩, []⟩⟩ := rfl
  have htiered : e.Tiered :=
    ⟨⟨by decide, rfl, rfl⟩, rfl, ⟨rfl, rfl⟩, by decide, rfl, rfl⟩
  obtain ⟨ts, htokens, hrendered⟩ := expression_round_trip.1 s e _ rfl hread rfl
  exact ⟨⟨_, ts, hread, htokens, hrendered⟩,
    expression_round_trip.2 s e [semicolon] rfl htiered rfl (by decide)⟩

end Lox.Grammar
