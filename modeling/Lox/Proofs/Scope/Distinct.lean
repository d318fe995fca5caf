import Mathlib.Data.List.Nodup
import Lox.Proofs.Scope.Use

namespace Lox

open Resolver

structure Fresh (status : String → Option Bool) (ts : List Token) : Prop where
  nodup : (ts.map Token.lexeme).Nodup
  unknown : ∀ t ∈ ts, status t.lexeme = none

namespace Fresh

variable {status : String → Option Bool} {ts us : List Token} {t u : Token}

lemma nil : Fresh status [] := ⟨.nil, fun _ ht => absurd ht List.not_mem_nil⟩

lemma cons (ht : status t.lexeme = none) (h : Fresh (Scopes.passing (some t) status) ts) :
    Fresh status (t :: ts) := by
  have hother : ∀ u ∈ ts, t.lexeme ≠ u.lexeme := by
    intro u hu heq
    have hunknown := h.unknown u hu
    rw [Scopes.passing, Scopes.setStatus, if_pos heq] at hunknown
    cases hunknown
  refine ⟨List.nodup_cons.mpr ⟨fun hmem => ?_, h.nodup⟩, List.forall_mem_cons.mpr ⟨ht, fun u hu => ?_⟩⟩
  · obtain ⟨u, hu, heq⟩ := List.mem_map.mp hmem
    exact hother u hu heq.symm
  · rw [← h.unknown u hu]
    exact (Scopes.setStatus_of_ne (hother u hu) true status).symm

lemma append (h : Fresh status ts) (h' : Fresh (Scopes.declaring ts status) us) :
    Fresh status (ts ++ us) := by
  have hother : ∀ u ∈ us, u.lexeme ∉ ts.map Token.lexeme ∧ status u.lexeme = none := by
    intro u hu
    have hunknown := h'.unknown u hu
    unfold Scopes.declaring at hunknown
    split at hunknown
    · cases hunknown
    · next hnew => exact ⟨hnew, hunknown⟩
  refine ⟨?_, List.forall_mem_append.mpr ⟨h.unknown, fun u hu => (hother u hu).2⟩⟩
  rw [List.map_append]
  refine List.nodup_append.mpr ⟨h.nodup, h'.nodup, fun name hname name' hname' heq => ?_⟩
  obtain ⟨u, hu, rfl⟩ := List.mem_map.mp hname'
  exact (hother u hu).1 (heq ▸ hname)

lemma eq_of_lexeme (h : Fresh status ts) (ht : t ∈ ts) (hu : u ∈ ts)
    (hl : t.lexeme = u.lexeme) : t = u := List.inj_on_of_nodup_map h.nodup ht hu hl

end Fresh

namespace Scopes

variable {σ : Scopes}

theorem innermost?_of_declare {t : Token} {tracked : Bool}
    (h : Diagnostic.hasError (σ.declare t tracked).reports = false) :
    σ.innermost? t.lexeme = none := by
  cases hold : σ.innermost? t.lexeme with
  | none => rfl
  | some b =>
    rw [declare, hold, Option.isSome_some, if_pos rfl, reports_updateInnermost] at h
    rw [Resolver.isError_report σ t rfl] at h
    cases h

lemma Declares.head? {τ : Scopes} {t : Option Token} (h : σ.Declares t τ)
    {status : String → Option Bool} (hstatus : status ∈ σ.outline.head?) :
    passing t status ∈ τ.outline.head? := by
  rw [h.outline, List.head?_modifyHead]
  exact Option.mem_map_of_mem _ hstatus

lemma status_of_declare {t : Token} {tracked : Bool}
    (h : Diagnostic.hasError (σ.declare t tracked).reports = false) :
    ∀ status ∈ σ.outline.head?, status t.lexeme = none := by
  intro status hstatus
  have hready := innermost?_map_ready σ t.lexeme
  rw [innermost?_of_declare h, hstatus] at hready
  exact hready.symm

end Scopes

theorem Resolver.reports_declared {s : Stmt} (hw : s.WellFormed) {t : Token}
    (ht : s.declared? = some t) (around : Surroundings) (σ : Scopes) :
    (σ.declare t true).reports <+: ((resolveStmt around s).after σ).reports := by
  have hready : (σ.declare t true).reports <+: ((declareReady t true).after σ).reports :=
    (Scopes.Keeps.refl (σ.declare t true)).declares_define.reports
  cases s with
  | var name init =>
    cases ht
    cases init with
    | none => exact hready
    | some e =>
      have hinit := keeping_resolveExpr around e hw.2 (σ.declare t true)
      exact hinit.reports.trans hinit.declares_define.reports
  | function f =>
    cases ht
    have hrest := (keeping_resolveFunction around .ordinary f hw.2).bind fun f =>
      keeping_pure (Stmt.function f)
    exact hready.trans (hrest _).reports
  | classDecl name parent line methods statics =>
    cases ht
    have hmembers (hasSuper : Bool) : Keeping (inMemberScopes hasSuper (bothMembers
        { around with membership := if hasSuper then .subclass else .rootClass }
        methods statics)) :=
      (keeping_bothMembers _ hw.2.2.1 hw.2.2.2).growing.inMemberScopes
    have hrest := (keeping_resolveSuperclass t parent).bind fun parent =>
      (hmembers parent.isSome).bind fun members =>
        keeping_pure (Stmt.classDecl t parent line members.1 members.2)
    exact hready.trans (hrest _).reports
  | _ => cases ht

theorem Resolver.fresh_declareParams {ps : List Token} {σ : Scopes}
    (h : Diagnostic.hasError ((declareParams ps).after σ).reports = false) :
    ∀ status ∈ σ.outline.head?, Fresh status ps := by
  induction ps generalizing σ with
  | nil => exact fun _ _ => .nil
  | cons p ps ih =>
    intro status hstatus
    have hmore := (growing_declareParams ps ((declareReady p false).after σ)).reports
    have hdeclared := Diagnostic.hasError_of_prefix hmore h
    have hready := (Scopes.Keeps.refl (σ.declare p false)).declares_define.reports
    have hfresh := Scopes.status_of_declare (Diagnostic.hasError_of_prefix hready hdeclared) _ hstatus
    exact .cons hfresh (ih h _ ((declaring_declareReady p false σ).head? hstatus))

namespace Site.Sound

variable {p : Site}

theorem fresh {body : List Stmt} (h : p.Sound (.stmts body)) :
    ∀ status ∈ p.scopes.outline.head?, Fresh status (body.filterMap Stmt.declared?) := by
  induction body generalizing p with
  | nil => exact fun _ _ => .nil
  | cons s body ih =>
    intro status hstatus
    have hs := Enters.headStmt.sound h
    have hdeclares := declaring_resolveStmt p.around s hs.wellFormed p.scopes
    have hrest := ih (Enters.tailStmts.sound h) _ (hdeclares.head? hstatus)
    cases ht : s.declared? with
    | none =>
      rw [ht] at hrest
      rwa [List.filterMap_cons_none ht]
    | some t =>
      rw [ht] at hrest
      rw [List.filterMap_cons_some ht]
      have hreports := reports_declared hs.wellFormed ht p.around p.scopes
      have hclean := Diagnostic.hasError_of_prefix hreports hs.leaves.clean
      exact .cons (Scopes.status_of_declare hclean status hstatus) hrest

lemma fresh_block {line : Nat} {body : List Stmt} (h : p.Sound (.stmt (.block line body))) :
    Fresh (fun _ => none) (body.filterMap Stmt.declared?) :=
  (Enters.block.sound h).fresh _ rfl

lemma fresh_function {routine : Routine} {head : Token} {params : Option Params} {line : Nat}
    {body : List Stmt} (h : p.Sound (.function routine (.mk head params line body))) :
    Fresh (fun _ => none)
      ((params.map Params.names).getD [] ++ body.filterMap Stmt.declared?) := by
  have hbody := Enters.body.sound h
  have hgrows := growing_resolveStmts { p.around with routine } body hbody.wellFormed
    (p.inFunction routine params body).scopes
  have hclean := Diagnostic.hasError_of_prefix hgrows.reports hbody.leaves.clean
  refine (fresh_declareParams hclean _ rfl).append (hbody.fresh _ ?_)
  change _ ∈ ((declareParams _).after p.scopes.enter).outline.head?
  rw [outline_declareParams]
  rfl

end Site.Sound

end Lox
