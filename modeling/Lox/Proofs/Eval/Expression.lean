import Lox.Proofs.Eval.Call
import Lox.Proofs.Eval.Parts

namespace Lox

variable {sources : List String} {w : World} {s : Store} {E F : Evaluator} {frame : FrameId}
  {p : Site}

lemma Value.isOrdinary_unary {op : Token} {v : Value} {fault : Fault}
    (hop : op.kind ∈ [.bang, .minus]) (h : v.unary op = .error fault) :
    fault.isOrdinary = true := by
  unfold unary at h
  simp only [List.mem_cons, List.not_mem_nil, or_false] at hop
  rcases hop with hop | hop <;> rw [hop] at h
  · cases h
  · cases v <;> cases h <;> rfl

lemma Value.isOrdinary_ofNumbers {op : Token} {x y : Float} {fault : Fault}
    (hop : op.kind ∈ [.greater, .greaterEqual, .less, .lessEqual, .minus, .slash, .star, .percent])
    (h : ofNumbers op x y = .error fault) : fault.isOrdinary = true := by
  unfold ofNumbers at h
  split at h
  · cases h
  · cases h
  · split at h <;> cases h
    rfl
  · split at h <;> cases h
    rfl
  · cases h
  · cases h
  · cases h
  · cases h
  · simp_all

lemma Value.isOrdinary_binary {op : Token} {a b : Value} {fault : Fault}
    (hop : op.kind ∈ binaryOperators) (h : a.binary op b = .error fault) :
    fault.isOrdinary = true := by
  unfold binary at h
  split at h
  · cases h
  · cases h
  · unfold add at h
    split at h <;> cases h
    rfl
  · next hequal hbang hplus =>
    split at h
    · refine isOrdinary_ofNumbers ?_ h
      simp_all [binaryOperators]
    · cases h
      rfl

lemma Evaluator.runs_assignProperty {object v : Value} (hv : v.Fits sources w s)
    (name : Token) :
    Runs sources w s (Evaluator.assignProperty object name v)
      (Evaluator.assignProperty object name v) fun w' s' v => v.Fits sources w' s' := by
  unfold Evaluator.assignProperty
  split
  · exact .fail rfl name
  · next id _ =>
    refine .step rfl fun hs => ?_
    obtain ⟨hl, hs'⟩ := hs.setField hv
    exact ⟨w, hl, hs', hv.later hl⟩

theorem Stands.runs_super (hsound : AllSound sources) {target : Reference} {method : Token}
    (h : Stands sources w s frame p (.expr (.super target method))) :
    ∃ depth, (target.at p.scopes).depth = some (depth + 1) ∧
      Runs sources w s (Eval.readAt frame (depth + 1) target.name)
        (Eval.readAt frame (depth + 1) target.name)
        (fun w' s' v => ∃ c, v = .cls c ∧ c.Fits sources w' s' false) ∧
      ∀ {w' s'} {t : Token}, Later w s w' s' →
        Runs sources w' s' (Eval.readAt frame depth t) (Eval.readAt frame depth t)
          fun w'' s'' v => v.FitsAs sources w'' s'' t.lexeme := by
  have hsite := h.visits.sound hsound
  have hname : target.name.lexeme = Eval.superName := hsite.wellFormed.2.1
  obtain ⟨-, depth, hthis, hsuper⟩ := hsite.super
  obtain ⟨thisStatus, hthisStatus, -⟩ := Scopes.getElem?_of_nearest? hthis
  obtain ⟨superStatus, hsuperStatus, -⟩ := Scopes.getElem?_of_nearest? hsuper
  refine ⟨depth, ?_, ?_, fun hl => Eval.runs_readAt (h.follows.later hl) hthisStatus _⟩
  · rw [Reference.at, Scopes.depth?_eq, hname, Eval.superName, hsuper]
    rfl
  · refine (Eval.runs_readAt h.follows hsuperStatus target.name).mono fun w' s' v _ _ hv => ?_
    obtain ⟨c, rfl⟩ := hv.superclass hname
    cases hv.fits with
    | cls hc => exact ⟨c, rfl, hc⟩

namespace Agrees

lemma readProperty (hE : Agrees sources E F) (hsound : AllSound sources) {object : Value}
    (h : object.Fits sources w s) (name : Token) :
    Runs sources w s (E.readProperty object name) (F.readProperty object name)
      fun w' s' v => v.Fits sources w' s' := by
  unfold Evaluator.readProperty
  split
  · exact .fail rfl name
  · next id _ =>
    refine .get fun hs => ?_
    split
    · next v hv => exact .pure (hs.fields id _ v hv)
    · split
      · next m hm =>
        obtain ⟨⟨_, hfits⟩, hthis⟩ := h.member? hm
        exact hE.access hsound hfits h hthis
      · exact .fail rfl name

lemma readSuper (hE : Agrees sources E F) (hsound : AllSound sources) {target : Reference}
    {method : Token} (h : Stands sources w s frame p (.expr (.super target method))) :
    Runs sources w s (E.readSuper frame (target.at p.scopes) method)
      (F.readSuper frame (target.at p.scopes) method) fun w' s' v => v.Fits sources w' s' := by
  obtain ⟨depth, hdepth, hsuper, hthis⟩ := h.runs_super hsound
  unfold Evaluator.readSuper
  rw [hdepth]
  refine hsuper.bind fun w₁ s₁ parent h₁ hv => (hthis h₁).bind fun w₂ s₂ object h₂ hobject => ?_
  obtain ⟨c, rfl, hc⟩ := hv
  change Runs _ _ _ (E.accessFound (c.inherited? object method.lexeme) object method)
    (F.accessFound (c.inherited? object method.lexeme) object method) _
  cases hm : c.inherited? object method.lexeme with
  | none => exact .fail rfl method
  | some m =>
    obtain ⟨⟨_, hfits⟩, hreceives⟩ := (hc.later h₂).inherited? (hobject.receiver rfl) hm
    exact hE.access hsound hfits hobject.fits hreceives

lemma applyBinary (hE : Agrees sources E F) {op : Token} (hop : op.kind ∈ binaryOperators)
    (a b : Value) :
    Runs sources w s (E.applyBinary op a b) (F.applyBinary op a b)
      fun w' s' v => v.Fits sources w' s' := by
  have hvalue : ∀ {w s}, Runs sources w s (Eval.operate op a b) (Eval.operate op a b)
      fun w' s' v => v.Fits sources w' s' := by
    intro w s
    unfold Eval.operate
    refine (Runs.located (Q := fun _ _ x => a.binary op b = .ok x)
      (fun fault hf => Value.isOrdinary_binary hop hf) fun x hx => hx).bind fun w₁ s₁ x _ hx => ?_
    cases x with
    | some v => exact .pure ((Value.hereditary_fits sources w₁ s₁).binary hx)
    | none => exact .throw trivial
  unfold Evaluator.applyBinary
  rw [hE.levels]
  split
  · split
    · exact (hE.guardDepth a).bind fun _ _ _ _ _ => hvalue
    · exact hvalue
  · exact hvalue

theorem evalExpr (hE : Agrees sources E F) (hsound : AllSound sources) {e : Expr}
    (h : Stands sources w s frame p (.expr e)) :
    Runs sources w s (E.evalExpr frame (p.expr e)) (F.evalExpr frame (p.expr e))
      fun w' s' v => v.Fits sources w' s' := by
  have hsite := h.visits.sound hsound
  have hwell := hsite.wellFormed
  have hparts := h.operands
  cases e with
  | literal token value => exact .pure ((Value.hereditary_fits sources w s).ofLiteral value)
  | ref target =>
    rw [hsite.ref.1]
    exact (Eval.runs_readName h.follows target).mono fun w' s' v _ _ hv => hv.fits
  | assign target value line =>
    rw [hsite.assign]
    refine (hE.eval hparts.head).bind fun w₁ s₁ v h₁ hv => ?_
    refine (Eval.runs_assignName (h.follows.later h₁) hsite.covers hwell.2.1 hv).bind
      fun w₂ s₂ _ h₂ _ => .pure ?_
    exact hv.later h₂
  | get object name =>
    exact (hE.eval hparts.head).bind fun w₁ s₁ v _ hv => hE.readProperty hsound hv name
  | set object name value line =>
    refine (hE.eval hparts.head).bind fun w₁ s₁ v h₁ _ => ?_
    refine (hE.eval ((hparts.tail hsound).head.later h₁)).bind fun w₂ s₂ u _ hu => ?_
    exact Evaluator.runs_assignProperty hu name
  | conditional condition mark yes no =>
    have hrest := hparts.tail hsound
    refine (hE.eval hparts.head).bind fun w₁ s₁ v h₁ _ => ?_
    split
    · exact hE.eval (hrest.head.later h₁)
    · exact hE.eval ((hrest.tail hsound).head.later h₁)
  | lambda f =>
    refine (Eval.runs_closure (p.function .ordinary f) false).bind fun w₁ s₁ c h₁ hc => .pure ?_
    obtain ⟨hfunction, hframe, hinit⟩ := hc
    refine .function ⟨⟨p, .ordinary, f, h.visits.enter .lambda, hfunction, ?_, ?_⟩, fun hi => ?_⟩
    · simp [hinit]
    · rw [hframe]
      exact h.follows.later h₁
    · rw [hinit] at hi
      cases hi
  | comma left op right =>
    exact (hE.eval hparts.head).bind fun w₁ s₁ v h₁ _ =>
      hE.eval ((hparts.tail hsound).head.later h₁)
  | binary left op right =>
    refine (hE.eval hparts.head).bind fun w₁ s₁ a h₁ _ => ?_
    refine (hE.eval ((hparts.tail hsound).head.later h₁)).bind fun w₂ s₂ b _ _ => ?_
    exact hE.applyBinary hwell.1 a b
  | logical left op right =>
    refine (hE.eval hparts.head).bind fun w₁ s₁ v h₁ hv => ?_
    split
    · exact .pure hv
    · exact hE.eval ((hparts.tail hsound).head.later h₁)
  | unary op operand =>
    refine (hE.eval hparts.head).bind fun w₁ s₁ v _ _ => ?_
    exact .located (fun fault hf => Value.isOrdinary_unary hwell.1 hf)
      fun u hu => (Value.hereditary_fits sources w₁ s₁).unary hu
  | call callee paren arguments =>
    refine (hE.eval hparts.head).bind fun w₁ s₁ f h₁ hf => ?_
    refine (hE.evalAll hsound ((hparts.tail hsound).later h₁)).bind fun w₂ s₂ args h₂ hargs => ?_
    exact hE.call hsound _ paren (hf.later h₂) hargs
  | this target =>
    rw [hsite.this.1]
    exact (Eval.runs_readName h.follows target).mono fun w' s' v _ _ hv => hv.fits
  | super target method =>
    rw [hsite.super.1]
    exact hE.readSuper hsound h
  | grouping paren inner => exact hE.eval hparts.head
  | list bracket elements =>
    exact (hE.evalAll hsound hparts).bind fun w₁ s₁ vs _ hvs => .pure (.list hvs)
  | invalid token => exact hwell.elim

end Agrees

end Lox
