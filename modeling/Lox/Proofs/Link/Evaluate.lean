import Lox.Proofs.Eval.Parts
import Lox.Proofs.Link.Run

namespace Lox

structure Evaluator.Linked (E F : Evaluator) : Prop where
  levels : F.levels = E.levels
  turns : F.turns = E.turns
  eval : ∀ {K : Link.Terms} {L : Link} {frame frame'}, L.frames frame frame' → ∀ e,
    L.Runs K (E.eval frame e) (F.eval frame' e) Value.Linked
  exec : ∀ {K : Link.Terms} {L : Link} {frame frame'}, L.frames frame frame' → ∀ st,
    L.Runs K (E.exec frame st) (F.exec frame' st) Completion.Linked

variable {K : Link.Terms} {L : Link} {E F : Evaluator} {frame frame' : FrameId}

lemma Value.Linked.ofLiteral (L : Link) (l : Literal) :
    (Value.ofLiteral l).Linked L (.ofLiteral l) := by
  cases l with
  | nil => exact .nil
  | bool b => exact .bool b
  | number x => exact .number x
  | string s => exact .string s

namespace Value.Linked

variable {a a' b b' v v' : Value}

lemma unary (h : v.Linked L v') (op : Token) :
    Except.Linked (Value.Linked L) (v.unary op) (v'.unary op) := by
  unfold Value.unary
  rw [h.isTruthy]
  split
  · cases h with
    | number x => exact .ok (.number _)
    | _ => exact .error _
  · exact .ok (.bool _)
  · exact .error _

lemma ofNumbers (L : Link) (op : Token) (x y : Float) :
    Except.Linked (Option.Rel (Value.Linked L)) (Value.ofNumbers op x y)
      (Value.ofNumbers op x y) := by
  unfold Value.ofNumbers
  split
  · exact .ok (.some (.number _))
  · exact .ok (.some (.number _))
  · split
    · exact .error _
    · exact .ok (.some (.number _))
  · split
    · exact .error _
    · cases Number.remainder? x y with
      | none => exact .ok .none
      | some z => exact .ok (.some (.number z))
  · exact .ok (.some (.bool _))
  · exact .ok (.some (.bool _))
  · exact .ok (.some (.bool _))
  · exact .ok (.some (.bool _))
  · exact .error _

lemma add (ha : a.Linked L a') (hb : b.Linked L b') (op : Token) :
    Except.Linked (Option.Rel (Value.Linked L)) (a.add op b) (a'.add op b') := by
  cases ha with
  | number x =>
    cases hb with
    | number y => exact .ok (.some (.number _))
    | _ => exact .error _
  | string s =>
    cases hb with
    | string t => exact .ok (.some (.string _))
    | _ => exact .error _
  | _ => exact .error _

lemma binary (hL : L.Sound) (ha : a.Linked L a') (hb : b.Linked L b') (op : Token) :
    Except.Linked (Option.Rel (Value.Linked L)) (a.binary op b) (a'.binary op b') := by
  unfold Value.binary
  rw [ha.equals hL _ _ hb]
  split
  · exact .ok (.some (.bool _))
  · exact .ok (.some (.bool _))
  · exact ha.add hb op
  · cases ha with
    | number x =>
      cases hb with
      | number y => exact ofNumbers L op x y
      | _ => exact .error _
    | _ => exact .error _

end Value.Linked

variable {vs vs' : List Value}

lemma linkedValues_getD (h : List.Forall₂ (Value.Linked L) vs vs') (i : Nat) :
    (vs[i]?.getD .nil).Linked L (vs'[i]?.getD .nil) := by
  induction h generalizing i with
  | nil => exact .nil
  | cons hv _ ih =>
    cases i with
    | zero => exact hv
    | succ i => simpa using ih i

lemma linkedValues_head (h : List.Forall₂ (Value.Linked L) vs vs') :
    (vs.head?.getD .nil).Linked L (vs'.head?.getD .nil) := by
  simpa only [List.head?_eq_getElem?] using linkedValues_getD h 0

namespace Native

lemma linked_ofSequence {native : Native} {ofItems : List Value → Value}
    {ofChars : List Char → Value}
    (hitems : ∀ vs vs', List.Forall₂ (Value.Linked L) vs vs' → (ofItems vs).Linked L (ofItems vs'))
    (hchars : ∀ cs, (ofChars cs).Linked L (ofChars cs)) {v v' : Value} (h : v.Linked L v') :
    Except.Linked (Value.Linked L) (native.ofSequence ofItems ofChars v)
      (native.ofSequence ofItems ofChars v') := by
  cases h with
  | list hs => exact .ok (hitems _ _ hs)
  | string s => exact .ok (hchars _)
  | _ => exact .error _

lemma linked_apply (time : Float) (native : Native) {args args' : List Value}
    (h : List.Forall₂ (Value.Linked L) args args') :
    Except.Linked (Value.Linked L) (native.apply time args) (native.apply time args') := by
  have hfirst := linkedValues_head h
  unfold Native.apply
  dsimp only
  cases native with
  | clock => exact .ok (.number _)
  | cons =>
    have hlist := linkedValues_getD h 1
    dsimp only
    generalize args[1]?.getD .nil = v at hlist ⊢
    generalize args'[1]?.getD .nil = v' at hlist ⊢
    cases hlist with
    | list hs => exact .ok (.list (.cons hfirst hs))
    | _ => exact .error _
  | empty =>
    refine linked_ofSequence (fun _ _ hs => ?_) (fun _ => .bool _) hfirst
    cases hs with
    | nil => exact .bool _
    | cons _ _ => exact .bool _
  | first =>
    refine linked_ofSequence (fun _ _ hs => linkedValues_head hs) (fun cs => ?_) hfirst
    cases cs with
    | nil => exact .nil
    | cons _ _ => exact .string _
  | rest =>
    refine linked_ofSequence (fun _ _ hs => .list ?_) (fun _ => .string _) hfirst
    cases hs with
    | nil => exact .nil
    | cons _ hs => exact hs
  | length =>
    refine linked_ofSequence (fun _ _ hs => ?_) (fun _ => .number _) hfirst
    rw [hs.length_eq]
    exact .number _

end Native

namespace Evaluator.Linked

lemma guardDepth (hE : Linked E F) {v v' : Value} (h : v.Linked L v') :
    L.Runs K (E.guardDepth v) (F.guardDepth v') fun _ _ _ => True := by
  unfold Evaluator.guardDepth
  rw [h.nestsWithin, hE.levels]
  split
  · exact .pure trivial
  · exact .throw (.same _)

lemma evalAll (hE : Linked E F) (hframe : L.frames frame frame') (es : List Expr) :
    L.Runs K (E.evalAll frame es) (F.evalAll frame' es)
      fun L' vs vs' => List.Forall₂ (Value.Linked L') vs vs' := by
  induction es generalizing L with
  | nil => exact .pure .nil
  | cons e es ih =>
    refine (hE.eval hframe e).bind fun L₁ v v' h₁ hv => ?_
    refine (ih (h₁.frames hframe)).bind fun L₂ vs vs' h₂ hvs => ?_
    exact .pure (.cons (hv.mono h₂ _ _) hvs)

lemma execAll (hE : Linked E F) (hframe : L.frames frame frame') (body : List Stmt) :
    L.Runs K (E.execAll frame body) (F.execAll frame' body) Completion.Linked := by
  induction body generalizing L with
  | nil => exact .pure .normal
  | cons st body ih =>
    refine (hE.exec hframe st).bind fun L₁ o o' h₁ ho => ?_
    cases ho with
    | normal => exact ih (h₁.frames hframe)
    | returned hv => exact .pure (.returned hv)
    | broke => exact .pure .broke

lemma invoke (hE : Linked E F) {f f' : Closure} (hf : f.Linked L f') {args args' : List Value}
    (hargs : List.Forall₂ (Value.Linked L) args args') :
    L.Runs K (E.invoke f args) (F.invoke f' args') Value.Linked := by
  unfold Evaluator.invoke
  rw [hf.function, hf.isInitializer]
  refine (Eval.linked_newFrame hf.frame).bind fun L₁ i i' h₁ hi => ?_
  refine (Eval.linked_bindArguments hi (linkedValues_mono h₁ _ _ hargs)).bind fun L₂ _ _ h₂ _ => ?_
  refine (hE.execAll (h₂.frames hi) f.function.body).bind fun L₃ o o' h₃ ho => ?_
  split
  · exact Eval.linked_receiver (hf.mono ((h₁.trans h₂).trans h₃))
  · cases ho with
    | normal => exact .pure .nil
    | returned hv => exact .pure hv
    | broke => exact .defect .breakFromBody

lemma access (hE : Linked E F) {m m' : Method} (hm : m.Linked L m') {v v' : Value}
    (hv : v.Linked L v') : L.Runs K (E.access m v) (F.access m' v') Value.Linked := by
  refine (Eval.linked_bind hm hv).bind fun L₁ f f' _ hf => ?_
  rw [hf.function]
  split
  · exact hE.invoke hf .nil
  · exact .pure (.function hf)

lemma instantiate (hE : Linked E F) {c c' : Class} (hc : L.classes false c c')
    {args args' : List Value} (hargs : List.Forall₂ (Value.Linked L) args args') :
    L.Runs K (E.instantiate c args) (F.instantiate c' args') Value.Linked := by
  refine Eval.linked_newFields.bind fun L₁ place place' h₁ h => .sound fun hL => ?_
  cases h
  have hobject : (Value.object ⟨place, c⟩).Linked L₁ (.object ⟨place, c'⟩) :=
    .object (h₁.classes hc)
  have hm := Class.Linked.findMethod? hL "init" c c' (h₁.classes hc)
  unfold Class.initializer?
  generalize c.findMethod? "init" = m at hm ⊢
  generalize c'.findMethod? "init" = m' at hm ⊢
  cases hm with
  | none => exact .pure hobject
  | some hm =>
    refine (Eval.linked_bind hm hobject).bind fun L₂ f f' h₂ hf => ?_
    have hargs₂ := linkedValues_mono (h₁.trans h₂) _ _ hargs
    refine (hE.invoke hf hargs₂).bind fun L₃ _ _ h₃ _ => ?_
    exact .pure (hobject.mono (h₂.trans h₃) _ _)

lemma call (hE : Linked E F) (first paren : Token) {v v' : Value} (hv : v.Linked L v')
    {args args' : List Value} (hargs : List.Forall₂ (Value.Linked L) args args') :
    L.Runs K (E.call first paren v args) (F.call first paren v' args') Value.Linked := by
  refine .sound fun hL => ?_
  unfold Evaluator.call
  rw [hv.arity? hL, ← hargs.length_eq]
  split
  · exact .fail _ paren
  · split
    · exact .fail _ paren
    · cases hv with
      | function hf => exact hE.invoke hf hargs
      | cls hc => exact hE.instantiate hc hargs
      | native f =>
        refine .get fun s t hs => .located ?_ first
        rw [hs.time]
        exact f.linked_apply s.time hargs
      | _ => exact .fail _ paren

theorem member (hE : Linked E F) {v v' : Value} (hv : v.Linked L v') {m m' : Option Method}
    (hm : Option.Rel (Method.Linked L) m m') (name : Token) :
    L.Runs K
      (match m with
        | some m => E.access m v
        | none => Eval.fail (.undefinedProperty name.lexeme) name)
      (match m' with
        | some m' => F.access m' v'
        | none => Eval.fail (.undefinedProperty name.lexeme) name) Value.Linked := by
  cases hm with
  | none => exact .fail _ name
  | some hm => exact hE.access hm hv

lemma readProperty (hE : Linked E F) {v v' : Value} (hv : v.Linked L v') (name : Token) :
    L.Runs K (E.readProperty v name) (F.readProperty v' name) Value.Linked := by
  refine .sound fun hL => ?_
  unfold Evaluator.readProperty
  rw [hv.fields? hL]
  split
  · exact .fail _ name
  · next place _ =>
    refine .get fun s t hs => ?_
    have hfield := hs.field? place name.lexeme
    generalize s.field? place name.lexeme = x at hfield ⊢
    generalize t.field? place name.lexeme = x' at hfield ⊢
    cases hfield with
    | some hx => exact .pure hx
    | none => exact hE.member hv (hv.member? hL name.lexeme) name

lemma assignProperty {object object' v v' : Value} (ho : object.Linked L object')
    (hv : v.Linked L v') (name : Token) :
    L.Runs K (Evaluator.assignProperty object name v) (Evaluator.assignProperty object' name v')
      Value.Linked := by
  refine .sound fun hL => ?_
  unfold Evaluator.assignProperty
  rw [ho.fields? hL]
  split
  · exact .fail _ name
  · next place _ =>
    have hset : L.Runs K (modify (·.setField place name.lexeme v))
        (modify (·.setField place name.lexeme v')) fun _ _ _ => True :=
      .change fun s t hs => Store.Linked.setField hs hv place name.lexeme
    exact hset.bind fun L₁ _ _ h₁ _ => .pure (hv.mono h₁ _ _)

lemma readSuper (hE : Linked E F) (hframe : L.frames frame frame') (target : Reference)
    (method : Token) :
    L.Runs K (E.readSuper frame target method) (F.readSuper frame' target method) Value.Linked := by
  unfold Evaluator.readSuper
  cases target.depth with
  | none => exact .defect .superUnresolved
  | some depth =>
    refine (Eval.linked_readAt hframe depth target.name).bind fun L₁ parent parent' h₁ hp => ?_
    refine (Eval.linked_readAt (h₁.frames hframe) (depth - 1) _).bind fun L₂ object object' h₂ ho =>
      .sound fun hL => ?_
    cases hp with
    | cls hc =>
      have hc := h₂.classes hc
      have hobject := ho
      cases ho with
      | cls _ =>
        have hmeta := (hL.classes hc).metaclass
        exact hE.member hobject (Class.Linked.findIn? hL hmeta method.lexeme) method
      | _ => exact hE.member hobject (Class.Linked.findIn? hL (.some hc) method.lexeme) method
    | _ => exact .defect .superNotClass

lemma applyBinary (hE : Linked E F) (op : Token) {a a' b b' : Value} (ha : a.Linked L a')
    (hb : b.Linked L b') :
    L.Runs K (E.applyBinary op a b) (F.applyBinary op a' b') Value.Linked := by
  have hvalue : ∀ L', L.Sub L' →
      L'.Runs K (Eval.operate op a b) (Eval.operate op a' b') Value.Linked := by
    refine fun L' hl => .sound fun hL => ?_
    unfold Eval.operate
    have hbinary := (ha.mono hl _ _).binary hL (hb.mono hl _ _) op
    refine (Link.Runs.located (Q := fun L => Option.Rel (Value.Linked L)) hbinary op).bind
      fun L₁ x x' _ hx => ?_
    cases hx with
    | none => exact .throw (.same _)
    | some hv => exact .pure hv
  unfold Evaluator.applyBinary
  rw [hb.nestsWithin, hE.levels]
  split
  · split
    · exact (hE.guardDepth ha).bind fun L₁ _ _ h₁ _ => hvalue L₁ h₁
    · exact hvalue L (.refl L)
  · exact hvalue L (.refl L)

end Evaluator.Linked

end Lox
