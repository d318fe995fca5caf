import Lox.Proofs.Scope.Mirrored
import Lox.Proofs.Session.Identity

/-! Resolving what has been parsed. Whatever a parse returns, also with placeholders or misplaced
names in it, each visit comes to its end with the scopes as they were, and all visits together give
the trees and reports of the walk that the interpreter goes by. -/

namespace Lox

open Visitor

namespace Parsed

def visits : Parsed → Visitor (List Tree)
  | .program body => visitProgram (body.map Stmt.tree)
  | .expression e => (e.map Expr.tree).toList.mapM visit

def reports : Parsed → List Diagnostic
  | .program body => (Resolver.program body).2
  | .expression e => (e.map fun e => (Resolver.expression e).2).getD []

lemma visit_balanced {x : Parsed} {t : Tree} (h : t ∈ x.trees) (v : Progress) :
    ∃ t' w, visit t v = .ok t' w ∧ v.Balanced w := by
  cases x with
  | program body =>
    obtain ⟨s, -, rfl⟩ := List.mem_map.mp h
    obtain ⟨w, hvisit, hw, -⟩ := (mirrors_stmt s v).balanced
    exact ⟨_, w, hvisit, hw⟩
  | expression e =>
    obtain ⟨e, -, rfl⟩ := Option.map_eq_some_iff.mp (Option.mem_toList.mp h)
    obtain ⟨w, hvisit, hw, -⟩ := (mirrors_expr e v).grown.balanced
    exact ⟨_, w, hvisit, hw⟩

lemma visits_eq (x : Parsed) :
    ∃ w, x.visits start = .ok x.resolve.trees w ∧ start.Balanced w ∧ w.reports = x.reports := by
  cases x with
  | program body => exact visitProgram_eq body
  | expression e =>
    cases e with
    | none => exact ⟨start, rfl, ⟨rfl, rfl, rfl, .nil, .refl []⟩, rfl⟩
    | some e =>
      obtain ⟨w, hvisit, hw⟩ := visit_expression_eq e
      refine ⟨w, ?_, hw⟩
      have hvisits : (Parsed.expression (some e)).visits = do return [← visit e.tree] := rfl
      rw [hvisits, bind_of_ok hvisit]
      rfl

end Parsed

/-- No visit to a tree that a parse returns breaks off, whatever has been visited before, and each
leaves the scopes in balance; the visits to all of these trees do what resolving does. -/
theorem Parse.visits_balanced (r : Parse) :
    (∀ t ∈ r.parsed.trees, ∀ v : Progress, ∃ t' w, visit t v = .ok t' w ∧ v.Balanced w) ∧
      ∃ w, r.parsed.visits start = .ok r.parsed.resolve.trees w ∧ start.Balanced w ∧
        w.reports = r.parsed.reports :=
  ⟨fun _ ht v => r.parsed.visit_balanced ht v, r.parsed.visits_eq⟩

theorem Parse.visits_balanced_misplaced :
    let r : Parse := ⟨.program, Scan.ofString "\x7b var a = a; var = 1; return this; \x7d", true⟩
    let v : Progress := ⟨[.empty], [], [], .initializer, .rootClass⟩
    ∃ t ∈ r.parsed.trees, "invalid_stmt" ∈ t.labels ∧
      (∃ t' w, visit t v = .ok t' w ∧ v.Balanced w) ∧
      ∃ w, r.parsed.visits start = .ok r.parsed.resolve.trees w ∧ w.reports.length = 3 := by
  intro r v
  have hlabel : "invalid_stmt" ∈ r.parsed.trees.flatMap Tree.labels := by decide +kernel
  obtain ⟨t, ht, hlabel⟩ := List.mem_flatMap.mp hlabel
  have hreports : r.parsed.reports.length = 3 := by decide +kernel
  obtain ⟨hvisit, w, hvisits, -, hw⟩ := r.visits_balanced
  exact ⟨t, ht, hlabel, hvisit t ht v, w, hvisits, hw ▸ hreports⟩

end Lox
