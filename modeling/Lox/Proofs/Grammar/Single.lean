import Lox.Proofs.Grammar.Complete
import Lox.Proofs.Grammar.Sound

namespace Lox.Grammar

open Reader

variable {s : Scan} {e : Expr}

theorem spells_of_expression {c : Cursor} (hs : s.finish.kind = .finish)
    (h : expression s = ⟨.ok e, c⟩) (hc : c.reports = []) :
    ∃ ts, s.tokens = ts ++ c.rest ∧ Spells (.expression .comma e) ts := by
  have hsound := (Readers.areSound_nested (s.tokens.length + 1)).expression (start s) hs trivial
  change read (Readers.nested (s.tokens.length + 1)).expression (start s) = _ at h
  unfold read at h
  cases hm : (Readers.nested (s.tokens.length + 1)).expression (start s) with
  | error e d => simp [hm] at h
  | ok e' d =>
    simp only [hm, Reading.mk.injEq, Except.ok.injEq] at hsound h
    obtain ⟨rfl, rfl⟩ := h
    obtain ⟨ts, new, hpass, hspells⟩ := hsound
    have hnew : new = [] := by
      have := hpass.reports
      simpa [hc, start, Cursor.start] using this
    exact ⟨ts, hpass.rest, hspells hnew⟩

theorem expression_of_spells {ts rest : List Token} (hs : s.finish.kind = .finish)
    (htokens : s.tokens = ts ++ rest) (h : Spells (.expression .comma e) ts)
    (hrest : following rest ∉ Level.comma.continues) :
    ∃ c, expression s = ⟨.ok e, c⟩ ∧ c.rest = rest ∧ c.reports = [] := by
  have hlength : ts.length ≤ s.tokens.length + 1 := by
    rw [htokens, List.length_append]
    omega
  obtain ⟨d, hd, hpass, hdrest⟩ :=
    (Readers.areComplete_nested (s.tokens.length + 1)).expression e ts h hlength (start s) rest
      htokens hs ⟨hrest, by simp, by simp⟩
  refine ⟨d, ?_, hdrest, ?_⟩
  · change read (Readers.nested (s.tokens.length + 1)).expression (start s) = _
    unfold read
    rw [hd]
  · simpa [start, Cursor.start] using hpass.reports

theorem bareExpression?_eq_some_iff (hs : s.finish.kind = .finish) :
    bareExpression? s = some e ↔ s.diagnostics = [] ∧ Spells (.expression .comma e) s.tokens := by
  constructor
  · intro h
    unfold bareExpression? at h
    cases hm : expression s with
    | mk outcome c =>
      cases outcome with
      | error => simp [hm] at h
      | ok e' =>
        simp only [hm, Option.ite_none_right_eq_some, Bool.and_eq_true, List.isEmpty_iff,
          Option.some.injEq] at h
        obtain ⟨⟨⟨hdiagnostics, hreports⟩, hend⟩, rfl⟩ := h
        obtain ⟨ts, htokens, hspells⟩ := spells_of_expression hs hm hreports
        have hrest : c.rest = [] := List.isEmpty_iff.mp hend
        rw [hrest, List.append_nil] at htokens
        exact ⟨hdiagnostics, htokens ▸ hspells⟩
  · rintro ⟨hdiagnostics, hspells⟩
    obtain ⟨c, hread, hrest, hreports⟩ :=
      expression_of_spells hs (List.append_nil _).symm hspells (by decide)
    simp [bareExpression?, hread, hdiagnostics, hreports, Cursor.atEnd, hrest]

end Lox.Grammar
