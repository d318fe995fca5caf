import Lox.Proofs.Alike.Run
import Lox.Proofs.Eval.Parts

namespace Lox

inductive Completion.Alike {V : Variation} (W : Naming V) : Completion → Completion → Prop
  | normal : Completion.Alike W .normal .normal
  | returned {v v'} : v.Alike W v' → Completion.Alike W (.returned v) (.returned v')
  | broke : Completion.Alike W .broke .broke

structure Evaluator.Uniform (V : Variation) (earlier : String) (E : Evaluator) : Prop where
  eval : ∀ {W : Naming V} {frame e e'}, W.known frame → e.Alike V.resolved (W.names frame) e' →
    Together W earlier (E.eval frame e) (E.eval frame e') Value.Alike
  exec : ∀ {W : Naming V} {frame s s'}, W.known frame → s.Alike V.resolved (W.names frame) s' →
    Together W earlier (E.exec frame s) (E.exec frame s') Completion.Alike

variable {V : Variation} {W : Naming V} {earlier : String} {E : Evaluator} {frame : FrameId}

lemma Value.Alike.ofLiteral (W : Naming V) (l : Literal) :
    (Value.ofLiteral l).Alike W (.ofLiteral l) := by
  cases l
  · exact .nil
  · exact .bool _
  · exact .number _
  · exact .string _

lemma Value.Alike.unary {op op' : Token} (hop : Token.Alike V id op op') {v v' : Value}
    (h : v.Alike W v') : AlikeResult V (Value.Alike W) (v.unary op) (v'.unary op') := by
  unfold Value.unary
  rw [hop.kind, hop.lexeme, h.isTruthy]
  split
  · cases h with
    | number x => exact .ok (.number _)
    | _ => exact .error (.same _)
  · exact .ok (.bool _)
  · exact .error (.same _)

abbrev AlikeOperation (V : Variation) (W : Naming V) :
    Except Fault (Option Value) → Except Fault (Option Value) → Prop :=
  AlikeResult V (Option.Rel (Value.Alike W))

lemma Value.alike_ofNumbers {op op' : Token} (hop : Token.Alike V id op op') (x y : Float) :
    AlikeOperation V W (ofNumbers op x y) (ofNumbers op' x y) := by
  unfold ofNumbers
  rw [hop.kind, hop.lexeme]
  split
  · exact .ok (.some (.number _))
  · exact .ok (.some (.number _))
  · split
    · exact .error (.same _)
    · exact .ok (.some (.number _))
  · split
    · exact .error (.same _)
    · cases Number.remainder? x y with
      | none => exact .ok .none
      | some z => exact .ok (.some (.number z))
  · exact .ok (.some (.bool _))
  · exact .ok (.some (.bool _))
  · exact .ok (.some (.bool _))
  · exact .ok (.some (.bool _))
  · exact .error (.same _)

lemma Value.Alike.add {op op' : Token} (hop : Token.Alike V id op op') {a a' b b' : Value}
    (ha : a.Alike W a') (hb : b.Alike W b') :
    AlikeOperation V W (a.add op b) (a'.add op' b') := by
  have herror : AlikeOperation V W (.error (.operandsNotAddable op.lexeme))
      (.error (.operandsNotAddable op'.lexeme)) := by
    rw [hop.lexeme]
    exact .error (.same _)
  cases ha with
  | number x =>
    cases hb with
    | number y => exact .ok (.some (.number _))
    | _ => exact herror
  | string s =>
    cases hb with
    | string t => exact .ok (.some (.string _))
    | _ => exact herror
  | _ => exact herror

lemma Value.Alike.binary {op op' : Token} (hop : Token.Alike V id op op') {a a' b b' : Value}
    (ha : a.Alike W a') (hb : b.Alike W b') :
    AlikeOperation V W (a.binary op b) (a'.binary op' b') := by
  unfold Value.binary
  rw [hop.kind, ha.equals _ _ hb]
  split
  · exact .ok (.some (.bool _))
  · exact .ok (.some (.bool _))
  · exact ha.add hop hb
  · have herror : AlikeOperation V W (.error (.operandsNotNumbers op.lexeme))
        (.error (.operandsNotNumbers op'.lexeme)) := by
      rw [hop.lexeme]
      exact .error (.same _)
    cases ha with
    | number x =>
      cases hb with
      | number y => exact alike_ofNumbers hop x y
      | _ => exact herror
    | _ => exact herror

namespace AlikeValues

variable {vs vs' : List Value}

lemma length (h : AlikeValues W vs vs') : vs'.length = vs.length := by
  induction vs generalizing vs' with
  | nil =>
    cases h
    rfl
  | cons v vs ih =>
    cases h with
    | cons _ h => exact congrArg Nat.succ (ih h)

lemma getElem? (h : AlikeValues W vs vs') (i : Nat) :
    (vs[i]?.getD .nil).Alike W (vs'[i]?.getD .nil) := by
  induction vs generalizing vs' i with
  | nil =>
    cases h
    exact .nil
  | cons v vs ih =>
    cases h with
    | cons hv h =>
      cases i with
      | zero => exact hv
      | succ i => simpa using ih h i

lemma head? (h : AlikeValues W vs vs') : (vs.head?.getD .nil).Alike W (vs'.head?.getD .nil) := by
  simpa only [List.head?_eq_getElem?] using h.getElem? 0

lemma tail (h : AlikeValues W vs vs') : AlikeValues W (vs.drop 1) (vs'.drop 1) := by
  cases h with
  | nil => exact .nil
  | cons _ h => exact h

end AlikeValues

lemma Native.alike_ofSequence {native : Native} {ofItems : List Value → Value}
    {ofChars : List Char → Value}
    (hitems : ∀ vs vs', AlikeValues W vs vs' → (ofItems vs).Alike W (ofItems vs'))
    (hchars : ∀ cs, (ofChars cs).Alike W (ofChars cs)) {v v' : Value} (h : v.Alike W v') :
    AlikeResult V (Value.Alike W) (native.ofSequence ofItems ofChars v)
      (native.ofSequence ofItems ofChars v') := by
  cases h with
  | list hs => exact .ok (hitems _ _ hs)
  | string s => exact .ok (hchars _)
  | _ => exact .error (.same _)

lemma Native.alike_apply (time : Float) (native : Native) {args args' : List Value}
    (h : AlikeValues W args args') :
    AlikeResult V (Value.Alike W) (native.apply time args) (native.apply time args') := by
  have hfirst := h.head?
  unfold Native.apply
  dsimp only
  cases native with
  | clock => exact .ok (.number _)
  | cons =>
    have hlist := h.getElem? 1
    dsimp only
    generalize args[1]?.getD .nil = v at hlist ⊢
    generalize args'[1]?.getD .nil = v' at hlist ⊢
    cases hlist with
    | list hs => exact .ok (.list (.cons hfirst hs))
    | _ => exact .error (.same _)
  | empty =>
    refine alike_ofSequence (fun _ _ hs => ?_) (fun _ => .bool _) hfirst
    cases hs <;> exact .bool _
  | first =>
    refine alike_ofSequence (fun _ _ hs => hs.head?) (fun cs => ?_) hfirst
    cases cs
    · exact .nil
    · exact .string _
  | rest => exact alike_ofSequence (fun _ _ hs => .list hs.tail) (fun _ => .string _) hfirst
  | length =>
    refine alike_ofSequence (fun _ _ hs => ?_) (fun _ => .number _) hfirst
    rw [hs.length]
    exact .number _

namespace Evaluator.Uniform

lemma guardDepth (E : Evaluator) {v v' : Value} (h : v.Alike W v') :
    Together W earlier (E.guardDepth v) (E.guardDepth v') fun _ _ _ => True := by
  unfold Evaluator.guardDepth
  rw [h.nestsWithin]
  split
  · exact .pure trivial
  · exact .throw .tooDeep

lemma evalAll (hE : E.Uniform V earlier) (hframe : W.known frame) {es es' : List Expr}
    (h : AlikeExprs V.resolved (W.names frame) es es') :
    Together W earlier (E.evalAll frame es) (E.evalAll frame es') AlikeValues := by
  induction es generalizing W es' with
  | nil =>
    cases h
    exact .pure .nil
  | cons e es ih =>
    cases h with
    | cons he hes =>
      refine (hE.eval hframe he).bind fun W₁ v v' h₁ hv => ?_
      rw [← (h₁ _ hframe).2] at hes
      refine (ih (h₁ _ hframe).1 hes).bind fun W₂ vs vs' h₂ hvs => ?_
      exact .pure (.cons (hv.later h₂ _ _) hvs)

lemma execAll (hE : E.Uniform V earlier) (hframe : W.known frame) {body body' : List Stmt}
    (h : AlikeStmts V.resolved (W.names frame) body body') :
    Together W earlier (E.execAll frame body) (E.execAll frame body') Completion.Alike := by
  induction body generalizing W body' with
  | nil =>
    cases h
    exact .pure .normal
  | cons s body ih =>
    cases h with
    | cons hs hbody =>
      refine (hE.exec hframe hs).bind fun W₁ o o' h₁ ho => ?_
      rw [← (h₁ _ hframe).2] at hbody
      cases ho with
      | normal => exact ih (h₁ _ hframe).1 hbody
      | returned hv => exact .pure (.returned hv)
      | broke => exact .pure .broke

lemma invoke (hE : E.Uniform V earlier) {f f' : Closure} (hf : f.Alike W f')
    {args args' : List Value} (hargs : AlikeValues W args args') :
    Together W earlier (E.invoke f args) (E.invoke f' args') Value.Alike := by
  obtain ⟨place, ⟨head, params, line, body⟩, outer, isInitializer⟩ := f
  obtain ⟨place', ⟨head', params', line', body'⟩, outer', isInitializer'⟩ := f'
  have hfunction := hf.function
  cases hf.frame
  cases hf.isInitializer
  cases hfunction with
  | mk ht henter hparams hbody =>
    obtain ⟨r, rfl⟩ := henter
    unfold Evaluator.invoke
    refine (Eval.together_newFrame hf.known r).bind fun W₁ _ inside h₁ h => ?_
    obtain ⟨rfl, hknown, hnames⟩ := h
    rw [← hnames] at hparams hbody
    have hlist : List.Forall₂ (Token.Alike V (W₁.names inside 0))
        ((params.map Params.names).getD []) ((params'.map Params.names).getD []) := by
      cases hparams with
      | none => exact .nil
      | some hp => exact hp
    refine (Eval.together_bindArguments hknown hlist (hargs.later h₁ _ _)).bind fun W₂ _ _ h₂ _ => ?_
    rw [← (h₂ _ hknown).2] at hbody
    refine (hE.execAll (h₂ _ hknown).1 hbody).bind fun W₃ o o' h₃ ho => ?_
    split
    · exact Eval.together_receiver (hf.later ((h₁.trans h₂).trans h₃))
    · cases ho with
      | normal => exact .pure .nil
      | returned hv => exact .pure hv
      | broke => exact .defect .breakFromBody fun _ => nofun

lemma access (hE : E.Uniform V earlier) {m m' : Method} (hm : m.Alike W m') {v v' : Value}
    (hv : v.Alike W v') :
    Together W earlier (E.access m v) (E.access m' v') Value.Alike := by
  refine (Eval.together_bind hm hv).bind fun W₁ f f' _ h => ?_
  obtain ⟨hf, -, -⟩ := h
  rw [hf.function.isGetter]
  split
  · exact hE.invoke hf .nil
  · exact .pure (.function hf)

lemma instantiate (hE : E.Uniform V earlier) {c c' : Class} (hc : c.Alike W c')
    {args args' : List Value} (hargs : AlikeValues W args args') :
    Together W earlier (E.instantiate c args) (E.instantiate c' args') Value.Alike := by
  refine Eval.together_newFields.bind fun W₁ place place' h₁ h => ?_
  cases h
  have hobject : (Value.object ⟨place, c⟩).Alike W₁ (.object ⟨place, c'⟩) :=
    .object (hc.later h₁ _ _)
  have hm := (hc.later h₁ _ _).findMethod? "init" _ _
  unfold Class.initializer?
  generalize c.findMethod? "init" = m at hm ⊢
  generalize c'.findMethod? "init" = m' at hm ⊢
  cases hm with
  | none => exact .pure hobject
  | some hm =>
    refine (Eval.together_bind hm hobject).bind fun W₂ f f' h₂ hf => ?_
    refine (hE.invoke hf.1 (hargs.later (h₁.trans h₂) _ _)).bind fun W₃ _ _ h₃ _ => ?_
    exact .pure (hobject.later (h₂.trans h₃) _ _)

lemma call (hE : E.Uniform V earlier) {first first' paren paren' : Token}
    (hfirst : V.place first first') (hparen : V.place paren paren')
    {v v' : Value} (hv : v.Alike W v') {args args' : List Value}
    (hargs : AlikeValues W args args') :
    Together W earlier (E.call first paren v args) (E.call first' paren' v' args')
      Value.Alike := by
  unfold Evaluator.call
  rw [hv.arity?, hargs.length]
  split
  · exact .fail (.same _) hparen
  · split
    · exact .fail (.same _) hparen
    · cases hv with
      | function hf => exact hE.invoke hf hargs
      | cls hc => exact hE.instantiate hc hargs
      | native f =>
        refine .get fun s s' hs => .located hfirst ?_
        rw [hs.time]
        exact f.alike_apply s.time hargs
      | _ => exact .fail (.same _) hparen

lemma readProperty (hE : E.Uniform V earlier) {v v' : Value} (hv : v.Alike W v')
    {t t' : Token} (ht : Token.Alike V id t t') :
    Together W earlier (E.readProperty v t) (E.readProperty v' t') Value.Alike := by
  have hname : t'.lexeme = t.lexeme := ht.lexeme
  unfold Evaluator.readProperty
  rw [hv.fields?, hname]
  split
  · exact .fail (.same _) ht.place
  · next place _ =>
    refine .get fun s s' hs => ?_
    have hfield := hs.fields place t.lexeme
    generalize s.field? place t.lexeme = x at hfield ⊢
    generalize s'.field? place t.lexeme = x' at hfield ⊢
    cases hfield with
    | some hx => exact .pure hx
    | none =>
      have hm := hv.member? t.lexeme
      dsimp only
      generalize Eval.member? t.lexeme v = m at hm ⊢
      generalize Eval.member? t.lexeme v' = m' at hm ⊢
      cases hm with
      | none => exact .fail (.same _) ht.place
      | some hm => exact hE.access hm hv

lemma assignProperty {object object' v v' : Value} (ho : object.Alike W object')
    (hv : v.Alike W v') {t t' : Token} (ht : Token.Alike V id t t') :
    Together W earlier (Evaluator.assignProperty object t v)
      (Evaluator.assignProperty object' t' v') Value.Alike := by
  have hname : t'.lexeme = t.lexeme := ht.lexeme
  unfold Evaluator.assignProperty
  rw [ho.fields?, hname]
  split
  · exact .fail (.same _) ht.place
  · next place _ =>
    refine (Together.change fun s s' hs => hs.setField hv place t.lexeme).bind fun W₁ _ _ h₁ _ => ?_
    exact .pure (hv.later h₁ _ _)

lemma readSuper (hE : E.Uniform V earlier) (hframe : W.known frame)
    {target target' : Reference} (h : V.resolved.use (W.names frame) target target')
    {t t' : Token} (ht : Token.Alike V id t t') :
    Together W earlier (E.readSuper frame target t) (E.readSuper frame target' t')
      Value.Alike := by
  obtain ⟨name, depth⟩ := target
  obtain ⟨name', depth'⟩ := target'
  obtain ⟨hdepth, hname⟩ := h
  have hmethod : t'.lexeme = t.lexeme := ht.lexeme
  cases hdepth
  unfold Evaluator.readSuper
  cases depth with
  | none => exact .defect .superUnresolved fun _ => nofun
  | some depth =>
    refine (Eval.together_readAt hframe hname).bind fun W₁ parent parent' h₁ hparent => ?_
    have hthis : Token.Alike V (W₁.names frame (depth - 1))
        { name with kind := .thisWord, lexeme := Eval.thisName }
        { name' with kind := .thisWord, lexeme := Eval.thisName } :=
      ⟨rfl, (V.this (W₁.names frame (depth - 1)).property).symm, V.place_this hname.place⟩
    refine (Eval.together_readAt (h₁ _ hframe).1 hthis).bind fun W₂ object object' h₂ ho => ?_
    cases hparent with
    | cls hc =>
      have hc := hc.later h₂ _ _
      have hmember : ∀ m m', Option.Rel (Method.Alike W₂) m m' →
          Together W₂ earlier (E.accessFound m object t) (E.accessFound m' object' t')
            Value.Alike := by
        intro m m' hm
        unfold Evaluator.accessFound
        cases hm with
        | none =>
          rw [hmethod]
          exact .fail (.same _) ht.place
        | some hm => exact hE.access hm ho
      unfold Evaluator.accessFound at hmember
      rw [hmethod] at hmember ⊢
      cases ho with
      | cls _ => exact hmember _ _ (alikeClass_findMethod? hc.metaclass? t.lexeme)
      | _ => exact hmember _ _ (alikeClass_findMethod? (.some hc) t.lexeme)
    | _ => exact .defect .superNotClass fun _ => nofun

lemma applyBinary (E : Evaluator) {op op' : Token} (hop : Token.Alike V id op op')
    {a a' b b' : Value} (ha : a.Alike W a') (hb : b.Alike W b') :
    Together W earlier (E.applyBinary op a b) (E.applyBinary op' a' b') Value.Alike := by
  have hvalue : ∀ W' : Naming V, W.Later W' →
      Together W' earlier (Eval.operate op a b) (Eval.operate op' a' b') Value.Alike := by
    intro W' hl
    unfold Eval.operate
    refine (Together.located (Q := fun W => Option.Rel (Value.Alike W)) hop.place
      ((ha.later hl _ _).binary hop (hb.later hl _ _))).bind fun W₁ x x' _ hx => ?_
    cases hx with
    | none => exact .throw .noRemainder
    | some hv => exact .pure hv
  unfold Evaluator.applyBinary
  rw [hop.kind, hb.nestsWithin]
  split
  · split
    · exact (guardDepth E ha).bind fun W₁ _ _ h₁ _ => hvalue W₁ h₁
    · exact hvalue W (.refl W)
  · exact hvalue W (.refl W)

end Evaluator.Uniform

end Lox
