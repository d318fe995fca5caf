import Lox.Proofs.Eval.Runs
import Lox.Proofs.Scope.Use

namespace Lox

structure Stands (sources : List String) (w : World) (s : Store) (frame : FrameId) (p : Site)
    (n : Piece) : Prop where
  visits : Visits sources p n
  follows : Follows w s frame p.scopes.outline p.closing

namespace Stands

variable {sources : List String} {w w' : World} {s s' : Store} {frame : FrameId} {p q : Site}
  {n m : Piece}

lemma later (h : Stands sources w s frame p n) (hl : Later w s w' s') :
    Stands sources w' s' frame p n := ⟨h.visits, h.follows.later hl⟩

theorem part (h : Stands sources w s frame p n) (h' : Enters p n q m)
    (hclosing : q.closing = p.closing) (houtline : q.scopes.outline = p.scopes.outline) :
    Stands sources w s frame q m :=
  ⟨h.visits.enter h', by rw [houtline, hclosing]; exact h.follows⟩

lemma head {e : Expr} {es : List Expr} (h : Stands sources w s frame p (.exprs (e :: es))) :
    Stands sources w s frame p (.expr e) := h.part .headExpr rfl rfl

lemma tail (hsound : AllSound sources) {e : Expr} {es : List Expr}
    (h : Stands sources w s frame p (.exprs (e :: es))) :
    Stands sources w s frame (p.afterExpr e) (.exprs es) :=
  h.part .tailExprs rfl
    (Resolver.keeping_resolveExpr p.around e (h.visits.sound hsound).wellFormed.1 _).outline

lemma operands {e : Expr} (h : Stands sources w s frame p (.expr e)) :
    Stands sources w s frame p (.exprs e.operands) := h.part .operands rfl rfl

lemma leading {st : Stmt} {e : Expr} (h : Stands sources w s frame p (.stmt st))
    (he : st.leading? = some e) : Stands sources w s frame p (.expr e) :=
  h.part (.leading he) rfl rfl

end Stands

variable {sources : List String} {w : World} {s : Store} {frame : FrameId}
  {outline : List (String → Option Bool)} {closing : List Scope}

theorem Follows.scope {t : Token} (h : Follows w s frame outline closing)
    (hcovers : Covers closing (outline.modifyHead (Scopes.passing (some t)))) :
    frame ≠ Store.globals → ∃ scope, w.scopes[frame]? = some scope ∧ scope.binds t.lexeme := by
  intro hframe
  cases outline with
  | nil =>
    cases closing with
    | nil => exact absurd h hframe
    | cons => cases h
  | cons status outer =>
    cases closing with
    | nil => cases h
    | cons scope closing =>
      refine ⟨scope, h.1, hcovers.1 t.lexeme ?_⟩
      simp [Scopes.passing, Scopes.setStatus]

theorem Follows.passing {t : Token} (h : Follows w s frame outline closing)
    (hbinds : s.binds frame t.lexeme) :
    Follows w s frame (outline.modifyHead (Scopes.passing (some t))) closing := by
  cases outline with
  | nil => exact h
  | cons status outer =>
    cases closing with
    | nil => cases h
    | cons scope closing =>
      obtain ⟨hworld, hready, hparent⟩ := h
      refine ⟨hworld, fun name hname => ?_, hparent⟩
      by_cases heq : t.lexeme = name
      · rw [← heq]
        exact hbinds
      · rw [Scopes.passing, Scopes.setStatus_of_ne heq] at hname
        exact hready name hname

theorem Follows.only {parent : FrameId} {scope : Scope} {name : String}
    (houter : Follows w s parent outline closing) (hparent : s.parent? frame = some parent)
    (hworld : w.scopes[frame]? = some scope) (hbound : s.binds frame name) :
    Follows w s frame (Scopes.only name :: outline) (scope :: closing) := by
  refine ⟨hworld, fun other hname => ?_, parent, hparent, houter⟩
  unfold Scopes.only Scopes.setStatus at hname
  split at hname
  · next heq => exact heq ▸ hbound
  · cases hname

lemma Stands.declaring (hsound : AllSound sources) {p : Site} {st : Stmt} {t : Token}
    (h : Stands sources w s frame p (.stmt st)) (ht : st.declared? = some t) :
    (p.afterStmt st).scopes.outline = p.scopes.outline.modifyHead (Scopes.passing (some t)) ∧
      (frame ≠ Store.globals → ∃ scope, w.scopes[frame]? = some scope ∧ scope.binds t.lexeme) := by
  have hst := h.visits.sound hsound
  have houtline := (Resolver.declaring_resolveStmt p.around st hst.wellFormed p.scopes).outline
  rw [ht] at houtline
  refine ⟨houtline, h.follows.scope ?_⟩
  rw [← houtline]
  exact hst.leaves.covers

theorem Stands.undeclaring (hsound : AllSound sources) {p : Site} {st : Stmt}
    (h : Stands sources w s frame p (.stmt st)) (ht : st.declared? = none) :
    (p.afterStmt st).scopes.outline = p.scopes.outline := by
  have hst := h.visits.sound hsound
  have hdeclares := Resolver.declaring_resolveStmt p.around st hst.wellFormed p.scopes
  rw [ht] at hdeclares
  exact hdeclares.keeps.outline

namespace Eval

lemma runs_readName {σ : Scopes} (h : Follows w s frame σ.outline closing)
    (target : Reference) :
    Runs sources w s (readName frame (target.at σ)) (readName frame (target.at σ)) fun w' s' v =>
      v.FitsAs sources w' s' target.name.lexeme := by
  unfold readName Reference.at
  rw [Scopes.depth?_eq]
  cases hn : Scopes.nearest? target.name.lexeme σ.outline with
  | none => exact runs_readNearest target.name
  | some found =>
    obtain ⟨depth, ready⟩ := found
    obtain ⟨status, hstatus, -⟩ := Scopes.getElem?_of_nearest? hn
    exact runs_readAt h hstatus target.name

lemma runs_assignName {σ : Scopes} (h : Follows w s frame σ.outline closing)
    (hcovers : Covers closing σ.outline) {target : Reference} (ht : target.name.IsName) {v : Value}
    (hv : v.Fits sources w s) :
    Runs sources w s (assignName frame (target.at σ) v) (assignName frame (target.at σ) v)
      fun _ _ _ => True := by
  unfold assignName Reference.at
  rw [Scopes.depth?_eq]
  cases hn : Scopes.nearest? target.name.lexeme σ.outline with
  | none => exact runs_assignNearest ht hv
  | some found =>
    obtain ⟨depth, ready⟩ := found
    obtain ⟨status, hstatus, hready⟩ := Scopes.getElem?_of_nearest? hn
    obtain ⟨scope, hscope, hbinds⟩ := hcovers.getElem? hstatus
    exact runs_assignAt h hstatus hscope ht (hbinds _ (by rw [hready]; rfl)) hv

lemma runs_newFrame (parent : FrameId) (scope : Scope) :
    Runs sources w s (newFrame (.empty parent)) (newFrame (.empty parent)) fun w' s' id =>
      w'.scopes[id]? = some scope ∧ s'.parent? id = some parent ∧ id < s'.frames.size ∧
        ∀ name, s'.lookup? id name = none := by
  refine .step rfl fun hs => ?_
  obtain ⟨hl, hs', hnew⟩ := hs.newFrame parent scope
  exact ⟨_, hl, hs', hnew⟩

lemma runs_closure (f : Function) (isInitializer : Bool) :
    Runs sources w s (closure f frame isInitializer) (closure f frame isInitializer)
      fun _ _ c => c.function = f ∧ c.frame = frame ∧ c.isInitializer = isInitializer := by
  refine .step rfl fun hs => ?_
  obtain ⟨hl, hs'⟩ : Later w s w s.newFunction.2 ∧ s.newFunction.2.Fits sources w :=
    hs.congr rfl rfl
  exact ⟨w, hl, hs', rfl, rfl, rfl⟩

theorem runs_newFields (owner : ObjectId → Value) :
    Runs sources w s newFields newFields fun w' _ id => w'.owners[id]? = some (owner id) := by
  refine .step rfl fun hs => ?_
  obtain ⟨hl, hs', howner⟩ := hs.newFields (owner s.fields.size)
  exact ⟨_, hl, hs', howner⟩

lemma runs_newClass (name : String) (superclass metaclass : Option Class)
    (methods : Table Method) :
    Runs sources w s (newClass name superclass metaclass methods)
      (newClass name superclass metaclass methods)
      fun w' _ c => ∃ id, c = .mk id name superclass metaclass methods ∧
        w'.owners[id]? = some (.cls c) :=
  (runs_newFields fun id => .cls (.mk id name superclass metaclass methods)).bind
    fun _ _ id _ howner => .pure ⟨id, rfl, howner⟩

end Eval

end Lox
