import Lox.Proofs.Grammar.Ambiguity
import Lox.Proofs.Grammar.Complete
import Lox.Proofs.Grammar.Sound

/-! The reader of programs accepts what the grammar derives, and nothing else. -/

namespace Lox.Grammar

/-- Reading a program gives no report exactly if the grammar derives its tokens. -/
theorem reports_eq_nil_iff_derives {s : Scan} (hs : s.finish.kind = .finish) :
    (program s).2 = [] ↔ Derives .program (s.all.map Token.kind) := by
  constructor
  · intro h
    have hbody := (spells_of_program hs h).derived
    simpa [Scan.all, hs] using Derives.program hbody
  · intro h
    obtain ⟨us, last, body, hall, -, hbody⟩ := h.spelled s.all rfl
    obtain ⟨rfl, -⟩ := List.append_inj' hall rfl
    rw [program_of_spells hs hbody]

theorem not_derives_stray_break : ¬Derives .program [.breakWord, .semicolon, .finish] := by
  let s : Scan := ⟨[⟨.breakWord, "break", 1, 1⟩, ⟨.semicolon, ";", 1, 6⟩],
    Scan.finishAt ⟨1, 7⟩, []⟩
  intro h
  have hreports : (program s).2 = [] := (reports_eq_nil_iff_derives (s := s) rfl).mpr h
  exact absurd hreports (by decide)

end Lox.Grammar
