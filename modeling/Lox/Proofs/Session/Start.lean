import Lox.Proofs.Session.Reached

namespace Lox

lemma Prelude.toList_source :
    source.toList = ['\n'].intercalate (lines.map String.toList) ++ ['\n'] := by
  simp [source, String.toList_intercalate]

set_option maxRecDepth 20000 in
lemma Prelude.hasError_source : (Program.compile source).hasError = false := by
  unfold Program.compile Program.ofSource Scan.ofString
  rw [toList_source]
  simp only [lines, List.map, String.reduceToList]
  decide +kernel

lemma Reached.start (hasPrelude : Bool) (time : Float) :
    Reached (if hasPrelude then [Prelude.source] else []) (.start hasPrelude time) := by
  have hnew : Reached [] ⟨hasPrelude, .standard, .initial time⟩ := .new hasPrelude .standard time
  cases hasPrelude with
  | false => exact hnew
  | true =>
    have hrun := hnew.run Prelude.hasError_source
    rw [Session.session_run .off Prelude.hasError_source] at hrun
    rw [Session.start, Session.loadPrelude, if_pos rfl, if_pos rfl, Prelude.program]
    exact hrun

end Lox
