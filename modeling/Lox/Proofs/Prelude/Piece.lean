import Lox.Proofs.Eval.Room
import Lox.Proofs.Link.Aside
import Lox.Proofs.Prelude.Load

namespace Lox

def Value.elements? : Value → Option (List Value)
  | .list items => some items
  | .string s => some (s.toList.map Native.ofChar)
  | _ => none

namespace Native

variable {v : Value} {items : List Value} (h : v.elements? = some items) (time : Float)

include h

lemma apply_empty : empty.apply time [v] = .ok (.bool items.isEmpty) := by
  cases v <;> cases h
  · simp [apply, ofSequence]
  · rfl

lemma apply_first {x : Value} {more : List Value} (hitems : items = x :: more) :
    first.apply time [v] = .ok x := by
  subst hitems
  cases v with
  | string s =>
    obtain ⟨c, cs, hs, rfl, -⟩ := List.map_eq_cons_iff.mp (Option.some.inj h)
    simp [apply, ofSequence, hs]
  | list vs =>
    cases h
    rfl
  | _ => cases h

lemma apply_rest : ∃ v', rest.apply time [v] = .ok v' ∧ v'.elements? = some items.tail := by
  cases v with
  | string s =>
    cases h
    refine ⟨_, rfl, ?_⟩
    simp [Value.elements?]
  | list vs =>
    cases h
    exact ⟨_, rfl, by simp [Value.elements?]⟩
  | _ => cases h

end Native

theorem Value.Linked.elements? {L : Link} {v v' : Value} {items : List Value} (h : v.Linked L v')
    (hv : v.elements? = some items) :
    ∃ items', v'.elements? = some items' ∧ List.Forall₂ (Value.Linked L) items items' := by
  cases h with
  | string s =>
    refine ⟨items, hv, ?_⟩
    cases hv
    rw [List.forall₂_map_left_iff, List.forall₂_map_right_iff, List.forall₂_same]
    exact fun _ _ => .string _
  | list hs =>
    cases hv
    exact ⟨_, rfl, hs⟩
  | _ => cases hv

/-- The prelude is loaded, and neither its functions nor the native functions that they use have
been set to anything else. -/
structure Store.HasPrelude (s : Store) : Prop where
  functions : ∀ f ∈ Prelude.functions, ∃ id,
    s.lookup? globals f.name = some ⟨.function ⟨id, f, globals, false⟩, true⟩
  natives : ∀ n ∈ [Native.cons, .empty, .first, .rest],
    s.lookup? globals n.name = some ⟨.native n, true⟩

lemma Store.HasPrelude.closure {s : Store} (h : s.HasPrelude) (f : Function)
    (hf : f ∈ Prelude.functions) {callee : Value}
    (hcallee : s.lookup? globals f.name = some ⟨callee, true⟩) :
    ∃ id, callee = .function ⟨id, f, globals, false⟩ := by
  obtain ⟨id, hid⟩ := h.functions f hf
  cases hcallee.symm.trans hid
  exact ⟨id, rfl⟩

lemma Store.Linked.lookup?_assigned {K : Link.Terms} {L : Link} {s t : Store} {name : String}
    {v : Value} (hs : s.Linked K L t) (hv : s.lookup? globals name = some ⟨v, true⟩) :
    ∃ v', t.lookup? globals name = some ⟨v', true⟩ ∧ v.Linked L v' := by
  obtain ⟨⟨v', assigned'⟩, hx, hv', rfl⟩ :=
    exists_of_optionRel (Store.Linked.lookup? hs hs.globals name) hv
  exact ⟨v', hx, hv'⟩

theorem Store.HasPrelude.linked {K : Link.Terms} {L : Link} {s t : Store} (h : s.HasPrelude)
    (hs : s.Linked K L t) : t.HasPrelude where
  functions f hf := by
    obtain ⟨id, hid⟩ := h.functions f hf
    obtain ⟨v', hv', hv⟩ := hs.lookup?_assigned hid
    cases hv with
    | @function _ c hc =>
      obtain ⟨id', f', frame', initializer'⟩ := c
      obtain ⟨-, hfunction, hframe, hinitializer⟩ := hc
      cases hfunction
      cases hinitializer
      cases (hs.sound.frames hs.globals hframe).mp rfl
      exact ⟨id', hv'⟩
  natives n hn := by
    obtain ⟨v', hv', hv⟩ := hs.lookup?_assigned (h.natives n hn)
    cases hv
    exact hv'

namespace Store

variable {s : Store} (hs : globals < s.frames.size)

include hs

lemma lookup?_declareGlobal (f : Function) (name : String) :
    (s.declareGlobal f).lookup? globals name =
      if f.name = name then some ⟨.function ⟨s.functions, f, globals, false⟩, true⟩
      else s.lookup? globals name := by
  unfold declareGlobal
  rw [lookup?_define]
  by_cases hname : f.name = name
  · rw [if_pos ⟨rfl, hname, hs⟩, if_pos hname]
  · rw [if_neg fun h => hname h.2.1, if_neg hname]
    rfl

lemma lookup?_declareGlobals {fs : List Function} {name : String}
    (hname : name ∉ fs.map Function.name) :
    (fs.foldl declareGlobal s).lookup? globals name = s.lookup? globals name := by
  induction fs generalizing s with
  | nil => rfl
  | cons f fs ih =>
    rw [List.map_cons, List.mem_cons, not_or] at hname
    have hsize : globals < (s.declareGlobal f).frames.size := by
      unfold declareGlobal
      rwa [size_define]
    rw [List.foldl_cons, ih hsize hname.2, lookup?_declareGlobal hs, if_neg (Ne.symm hname.1)]

theorem exists_declareGlobals {fs : List Function} (hnames : (fs.map Function.name).Nodup)
    {f : Function} (hf : f ∈ fs) :
    ∃ id, (fs.foldl declareGlobal s).lookup? globals f.name =
      some ⟨.function ⟨id, f, globals, false⟩, true⟩ := by
  induction fs generalizing s with
  | nil => cases hf
  | cons g fs ih =>
    obtain ⟨hg, hnames⟩ := List.nodup_cons.mp hnames
    have hsize : globals < (s.declareGlobal g).frames.size := by
      unfold declareGlobal
      rwa [size_define]
    rcases List.mem_cons.mp hf with rfl | hf
    · refine ⟨s.functions, ?_⟩
      rw [List.foldl_cons, lookup?_declareGlobals hsize hg, lookup?_declareGlobal hs, if_pos rfl]
    · exact ih hsize hnames hf

lemma hasPrelude_declareGlobals
    (hnatives : ∀ n ∈ [Native.cons, .empty, .first, .rest],
      s.lookup? globals n.name = some ⟨.native n, true⟩) :
    (Prelude.functions.foldl declareGlobal s).HasPrelude where
  functions f hf := exists_declareGlobals hs (by decide) hf
  natives n hn := by
    have hname : n.name ∉ Prelude.functions.map Function.name := by
      revert n
      decide
    rw [lookup?_declareGlobals hs hname]
    exact hnatives n hn

end Store

theorem Session.hasPrelude_start (time : Float) : (Session.start true time).store.HasPrelude := by
  have hstart := store_loadPrelude ⟨true, .standard, .initial time⟩ rfl (Nat.succ_pos _)
  rw [Session.start, hstart]
  refine Store.hasPrelude_declareGlobals Nat.one_pos fun n hn => ?_
  simp only [List.mem_cons, List.not_mem_nil, or_false] at hn
  rcases hn with rfl | rfl | rfl | rfl <;> rfl

namespace Eval

variable {t : Store} {F G : FrameId} {f g : Frame} {name : Token} {v : Value}

lemma readName_here (hF : t.frames[F]? = some f)
    (hv : f.variables.find? name.lexeme = some ⟨v, true⟩) :
    readName F ⟨name, some 0⟩ t = .ok v t := by
  have hread : t.readIn F name.lexeme = .ok v := by
    rw [Store.readIn, hF]
    simp [Frame.read, hv]
  change located name (t.readIn F name.lexeme) t = .ok v t
  rw [hread]
  rfl

lemma ancestor_outside (hG : t.frames[G]? = some g) (hg : g.parent = some F) :
    ancestor G 1 t = .ok F t := by
  refine ancestor_of_ancestor? ?_
  simp [Store.ancestor?, Store.parent?, hG, hg]

lemma readName_outside (hG : t.frames[G]? = some g) (hg : g.parent = some F)
    (hF : t.frames[F]? = some f) (hv : f.variables.find? name.lexeme = some ⟨v, true⟩) :
    readName G ⟨name, some 1⟩ t = .ok v t :=
  (bind_of_ok (ancestor_outside hG hg) _).trans (readName_here hF hv)

lemma assignName_outside (hG : t.frames[G]? = some g) (hg : g.parent = some F) :
    assignName G ⟨name, some 1⟩ v t = .ok () (t.assign F name.lexeme v) :=
  bind_of_ok (ancestor_outside hG hg) _

lemma readName_global (hv : t.lookup? Store.globals name.lexeme = some ⟨v, true⟩) :
    readName F ⟨name, none⟩ t = .ok v t := by
  have hbinds : t.binds Store.globals name.lexeme := by
    rw [Store.binds_eq, hv]
    rfl
  have hread : t.readNearest Store.globals name.lexeme = .ok v := by
    rw [Store.readNearest, Store.Alike.holder?_globals, if_pos hbinds]
    change t.readIn Store.globals name.lexeme = .ok v
    rw [Store.readIn_eq, hv]
    rfl
  change located name (t.readNearest Store.globals name.lexeme) t = .ok v t
  rw [hread]
  rfl

end Eval

def Frame.given (parent : FrameId) (params : List Token) (args : List Value) : Frame :=
  (params.zip args).foldl (fun f pv => f.define pv.1.lexeme ⟨pv.2, true⟩) (.empty parent)

lemma Eval.bindArguments_newFrame (t : Store) (f : Frame) (params : List Token)
    (args : List Value) :
    bindArguments t.frames.size params args (t.newFrame f).2 =
      .ok () (t.newFrame
        ((params.zip args).foldl (fun f pv => f.define pv.1.lexeme ⟨pv.2, true⟩) f)).2 := by
  induction params generalizing f args with
  | nil => cases args <;> rfl
  | cons param params ih =>
    cases args with
    | nil => rfl
    | cons v args =>
      have hdefine : define t.frames.size param.lexeme v (t.newFrame f).2 =
          .ok () (t.newFrame (f.define param.lexeme ⟨v, true⟩)).2 := by
        have hframes : (t.frames.push f).modify t.frames.size (·.define param.lexeme ⟨v, true⟩) =
            t.frames.push (f.define param.lexeme ⟨v, true⟩) := by
          refine Array.ext_getElem? fun i => ?_
          rw [Array.getElem?_modify, Array.getElem?_push, Array.getElem?_push]
          by_cases hi : i = t.frames.size
          · simp [hi]
          · simp [hi, Ne.symm hi]
        exact congrArg (fun frames => EStateM.Result.ok () { t with frames }) hframes
      exact (bind_of_ok hdefine _).trans (ih _ args)

namespace Evaluator

variable {E : Evaluator} {t t₁ t₂ : Store} {frame outside : FrameId} {f g : Frame} {lexeme : String}
  {first paren : Token} {v callee : Value} {args : List Value} {turns n row column : Nat}

lemma eval_here (hf : t.frames[frame]? = some f)
    (hv : f.variables.find? lexeme = some ⟨v, true⟩) :
    (deep turns (n + 1)).eval frame (Prelude.bound 0 lexeme row column) t = .ok v t :=
  Eval.readName_here hf hv

lemma eval_outside (hg : t.frames[frame]? = some g) (houtside : g.parent = some outside)
    (hf : t.frames[outside]? = some f) (hv : f.variables.find? lexeme = some ⟨v, true⟩) :
    (deep turns (n + 1)).eval frame (Prelude.bound 1 lexeme row column) t = .ok v t :=
  Eval.readName_outside hg houtside hf hv

lemma eval_global (hv : t.lookup? Store.globals lexeme = some ⟨v, true⟩) :
    (deep turns (n + 1)).eval frame (Prelude.global lexeme row column) t = .ok v t :=
  Eval.readName_global (F := frame) hv

lemma evalAll_nil : E.evalAll frame [] t = .ok [] t := rfl

lemma evalAll_cons {e : Expr} {es : List Expr} (he : E.eval frame e t = .ok v t₁)
    (hes : E.evalAll frame es t₁ = .ok args t₂) :
    E.evalAll frame (e :: es) t = .ok (v :: args) t₂ :=
  (Eval.bind_of_ok he _).trans (Eval.bind_of_ok hes _)

lemma evalExpr_call {e : Expr} {arguments : List Expr} (he : E.eval frame e t = .ok callee t₁)
    (hargs : E.evalAll frame arguments t₁ = .ok args t₂) :
    E.evalExpr frame (.call e paren arguments) t = E.call e.firstToken paren callee args t₂ :=
  (Eval.bind_of_ok he _).trans (Eval.bind_of_ok hargs _)

lemma call_native {native : Native} (hargs : args.length = native.arity)
    (hv : native.apply t.time args = .ok v) :
    E.call first paren (.native native) args t = .ok v t := by
  unfold call
  simp only [Value.arity?, hargs, ne_eq, not_true, if_false]
  change Eval.located first (native.apply t.time args) t = .ok v t
  rw [hv]
  rfl

theorem eval_native (native : Native) (ht : t.HasPrelude)
    (hnative : native ∈ [Native.cons, .empty, .first, .rest]) {arguments : List Expr}
    (hargs : (deep turns (n + 1)).evalAll frame arguments t = .ok args t)
    (hlength : args.length = native.arity) (hv : native.apply t.time args = .ok v) :
    (deep turns (n + 2)).eval frame (.call (Prelude.global native.name row column) paren arguments)
      t = .ok v t :=
  (evalExpr_call (eval_global (ht.natives native hnative)) hargs).trans (call_native hlength hv)

lemma loop_stop {condition : Eval Bool} (h : condition t = .ok false t)
    (body : Eval Completion) (rounds : Nat) :
    loop condition body (rounds + 1) t = .ok .normal t := Eval.bind_of_ok h _

lemma loop_turn {condition : Eval Bool} (h : condition t = .ok true t)
    (body : Eval Completion) (rounds : Nat) :
    loop condition body (rounds + 1) t =
      (body >>= fun outcome =>
        match outcome with
        | .normal => loop condition body rounds
        | .broke => pure .normal
        | .returned v => pure (.returned v)) t := Eval.bind_of_ok h _

lemma call_function {f : Closure} (hargs : args.length = f.function.arity) :
    E.call first paren (.function f) args = E.invoke f args := by
  unfold call
  simp only [Value.arity?, hargs, ne_eq, not_true, if_false]

theorem invoke_eq {f : Closure} (hf : f.isInitializer = false) :
    E.invoke f args t =
      (E.execAll t.frames.size f.function.body >>= fun outcome =>
        match outcome with
        | .normal => pure .nil
        | .returned v => pure v
        | .broke => Eval.defect .breakFromBody)
      (t.newFrame (.given f.frame f.function.paramNames args)).2 := by
  have hbind := Eval.bindArguments_newFrame t (.empty f.frame) f.function.paramNames args
  refine (Eval.bind_of_ok hbind _).trans ?_
  rw [hf]
  rfl

theorem call_giveBack {id : Nat} {head : Token} {params : Params} {line row column : Nat}
    {value : Expr} (hargs : args.length = params.names.length) :
    (deep turns (n + 1)).call first paren
        (.function ⟨id, .mk head (some params) line [Prelude.giveBack row column value], frame,
          false⟩) args t =
      (deep turns n).eval t.frames.size value (t.newFrame (.given frame params.names args)).2 := by
  have hbody : ((deep turns (n + 1)).execAll t.frames.size [Prelude.giveBack row column value] >>=
      fun outcome => match outcome with
        | .normal => pure .nil
        | .returned v => pure v
        | .broke => Eval.defect .breakFromBody) = (deep turns n).eval t.frames.size value := by
    change (((deep turns n).eval t.frames.size value >>= fun v => pure (Completion.returned v)) >>=
      _) >>= _ = _
    simp only [bind_assoc, pure_bind, bind_pure]
  rw [call_function hargs, invoke_eq rfl]
  exact congrFun hbody _

end Evaluator

end Lox
