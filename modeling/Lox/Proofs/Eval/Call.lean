import Lox.Proofs.Eval.Agree
import Lox.Proofs.Value.Hereditary

namespace Lox

variable {sources : List String} {w : World} {s : Store}

theorem Eval.runs_bindArguments {frame : FrameId} {scope : Scope} {params : List Token}
    {args : List Value} (hframe : w.scopes[frame]? = some scope) (hlt : frame < s.frames.size)
    (hnames : ∀ t ∈ params, t.IsName ∧ scope.binds t.lexeme)
    (hargs : ∀ v ∈ args, v.Fits sources w s) (hlength : args.length = params.length) :
    Runs sources w s (bindArguments frame params args) (bindArguments frame params args)
      fun _ s' _ => ∀ t ∈ params, s'.binds frame t.lexeme := by
  induction params generalizing w s args with
  | nil => exact .pure fun t ht => absurd ht List.not_mem_nil
  | cons param params ih =>
    cases args with
    | nil => cases hlength
    | cons v args =>
      rw [List.forall_mem_cons] at hnames hargs
      have hparam := hnames.1
      refine (runs_define hlt (fun _ => ⟨scope, hframe, hparam.2⟩) (fun hl _ => hargs.1.later hl)
        hparam.1.2.1 fun hsuper => absurd hsuper hparam.1.2.2).bind fun w₁ s₁ _ h₁ hbinds => ?_
      refine (ih (getElem?_mono h₁.world hframe) (Store.lt_of_binds hbinds) hnames.2
        (fun u hu => (hargs.2 u hu).later h₁) (Nat.succ.inj hlength)).mono
        fun w₂ s₂ _ h₂ _ hmore => ?_
      exact List.forall_mem_cons.mpr ⟨h₂.binds _ _ hbinds, hmore⟩

theorem Eval.receiver_eq {f : Closure} {v : Value}
    (h : s.lookup? f.frame thisName = some ⟨v, true⟩) : receiver f s = .ok v s := by
  have hget : (get : Eval Store) s = .ok s s := rfl
  unfold receiver
  rw [bind_of_ok hget, Store.readIn_of_lookup? h]
  rfl

lemma Function.paramNames_resolved (p : Site) (routine : Routine) (g : Function) :
    (p.function routine g).paramNames = g.paramNames := by
  cases g
  rfl

lemma Function.isInitializer_resolved (p : Site) (routine : Routine) (g : Function)
    (isStatic : Bool) :
    (p.function routine g).isInitializer isStatic = g.isInitializer isStatic := by
  cases g
  rfl

theorem Site.outline_inFunction (p : Site) (routine : Routine) (params : Option Params)
    (body : List Stmt) :
    (p.inFunction routine params body).scopes.outline =
      Scopes.declaring ((params.map Params.names).getD []) (fun _ => none) :: p.scopes.outline :=
  Resolver.outline_declareParams _ p.scopes.enter

def Evaluator.runBody (E : Evaluator) (f : Closure) (args : List Value) : Eval Completion := do
  let frame ← Eval.newFrame (.empty f.frame)
  Eval.bindArguments frame f.function.paramNames args
  E.execAll frame f.function.body

def Eval.conclude (f : Closure) (outcome : Completion) : Eval Value :=
  if f.isInitializer then receiver f
  else
    match outcome with
    | .normal => return .nil
    | .returned v => return v
    | .broke => defect .breakFromBody

lemma Evaluator.invoke_eq_runBody (E : Evaluator) (f : Closure) (args : List Value) :
    E.invoke f args = E.runBody f args >>= Eval.conclude f := by
  unfold invoke runBody
  simp only [bind_assoc]
  rfl

def Concludes (sources : List String) (f : Closure) : Outcome Completion := fun w s outcome =>
  match outcome with
  | .normal => True
  | .returned v => v.Fits sources w s ∧ (f.isInitializer = true → v = .nil)
  | .broke => False

namespace Agrees

variable {E F : Evaluator}

lemma runBody (hE : Agrees sources E F) (hsound : AllSound sources) {f : Closure}
    {args : List Value} (hf : f.Fits sources w s) (hargs : ∀ v ∈ args, v.Fits sources w s)
    (hlength : args.length = f.function.paramNames.length) :
    Runs sources w s (E.runBody f args) (F.runBody f args) (Concludes sources f) := by
  obtain ⟨⟨p, routine, ⟨head, params, line, body⟩, hvisits, hfunction, hroutine, hfollows⟩, -⟩ := hf
  have hbody := hvisits.enter .body
  have hwell := (hvisits.sound hsound).wellFormed
  have hcovers := (hbody.sound hsound).covers
  have houtline := p.outline_inFunction routine params body
  have hparams : f.function.paramNames = (params.map Params.names).getD [] := by
    rw [hfunction, Function.paramNames_resolved]
    rfl
  obtain ⟨scope, hclosing⟩ : ∃ scope,
      (p.inFunction routine params body).closing = scope :: p.closing := ⟨_, rfl⟩
  rw [houtline, hclosing] at hcovers
  rw [hparams] at hlength
  unfold Evaluator.runBody
  rw [hparams]
  have hnames : ∀ t ∈ (params.map Params.names).getD [], t.IsName ∧ scope.binds t.lexeme := by
    intro t ht
    refine ⟨?_, hcovers.1 t.lexeme ?_⟩
    · cases params with
      | none => exact absurd ht List.not_mem_nil
      | some params => exact hwell.1 params rfl t ht
    · rw [Scopes.declaring, if_pos (List.mem_map_of_mem ht)]
      rfl
  refine (Eval.runs_newFrame f.frame scope).bind fun w₁ s₁ id h₁ hid => ?_
  obtain ⟨hworld, hparent, hlt, -⟩ := hid
  refine (Eval.runs_bindArguments hworld hlt hnames (fun v hv => (hargs v hv).later h₁)
    hlength).bind fun w₂ s₂ _ h₂ hbound => ?_
  have hstands : Stands sources w₂ s₂ id (p.inFunction routine params body) (.stmts body) := by
    refine ⟨hbody, ?_⟩
    rw [houtline, hclosing]
    refine ⟨getElem?_mono h₂.world hworld, fun name hname => ?_, f.frame,
      h₂.parent _ _ hparent, hfollows.later (h₁.trans h₂)⟩
    unfold Scopes.declaring at hname
    split at hname
    · next hmem =>
      obtain ⟨t, ht, rfl⟩ := List.mem_map.mp hmem
      exact hbound t ht
    · cases hname
  rw [hfunction, Site.function_mk]
  refine (hE.execAll hstands).mono fun w₃ s₃ outcome _ _ ho => ?_
  cases outcome with
  | normal => trivial
  | returned v =>
    have hv := ho.1 v rfl
    exact ⟨hv.fits, fun hinit => hv.initializer (hroutine.mp hinit)⟩
  | broke =>
    have hbreaks := ho.2 rfl
    rw [hwell.2.2] at hbreaks
    cases hbreaks

lemma invoke (hE : Agrees sources E F) (hsound : AllSound sources) {f : Closure}
    {args : List Value} (hf : f.Fits sources w s) (hargs : ∀ v ∈ args, v.Fits sources w s)
    (hlength : args.length = f.function.paramNames.length) :
    Runs sources w s (E.invoke f args) (F.invoke f args) fun w' s' v => v.Fits sources w' s' := by
  rw [E.invoke_eq_runBody, F.invoke_eq_runBody]
  refine (hE.runBody hsound hf hargs hlength).bind fun w₁ s₁ outcome h₁ ho => ?_
  unfold Eval.conclude
  split
  · next hinit =>
    obtain ⟨o, hthis⟩ := hf.2 hinit
    have hthis₁ := h₁.receiver _ _ hthis
    exact .step (Eval.receiver_eq hthis₁) fun hs₁ =>
      ⟨w₁, .refl w₁ s₁, hs₁, (hs₁.variables _ _ _ hthis₁).value.fits⟩
  · cases outcome with
    | normal => exact .pure .nil
    | returned v => exact .pure ho.1
    | broke => exact ho.elim

end Agrees

lemma Class.Fits.findMethod? {isMeta : Bool} {c : Class} (h : c.Fits sources w s isMeta)
    {name : String} {m : Method} (hm : c.findMethod? name = some m) :
    m.Fits sources w s isMeta := by
  induction h with
  | @mk _ _ _ superclass _ _ _ _ _ hmethods ih _ =>
    cases superclass with
    | none => exact hmethods name m hm
    | some parent =>
      rcases Option.or_eq_some_iff.mp hm with hm | ⟨-, hm⟩
      · exact hmethods name m hm
      · exact ih parent rfl hm

lemma Class.Fits.findStatic? {c : Class} (h : c.Fits sources w s false) {name : String}
    {m : Method} (hm : c.metaclass?.bind (·.findMethod? name) = some m) :
    m.Fits sources w s true := by
  obtain @⟨_, _, _, _, _, _, _, _, hmeta, _⟩ := h
  obtain ⟨mc, hmc, hfound⟩ := Option.bind_eq_some_iff.mp hm
  exact (hmeta mc hmc).findMethod? hfound

theorem Method.Fits.receives_of_static {m : Method} (h : m.Fits sources w s true) {v : Value}
    (hv : v.Receives false) : v.Receives m.isInitializer := by
  obtain ⟨p, outer, ⟨g, -, -, hinit⟩, -⟩ := h
  rw [hinit]
  exact hv

theorem Value.Fits.member? {v : Value} (h : v.Fits sources w s) {name : String} {m : Method}
    (hm : Eval.member? name v = some m) :
    (∃ isStatic, m.Fits sources w s isStatic) ∧ v.Receives m.isInitializer := by
  cases h with
  | cls h =>
    have hfits := h.findStatic? hm
    exact ⟨⟨true, hfits⟩, hfits.receives_of_static rfl⟩
  | object _ h => exact ⟨⟨false, h.findMethod? hm⟩, trivial⟩
  | _ => cases hm

lemma Value.Receives.ofInitializer {isInitializer : Bool} {v : Value}
    (h : v.Receives isInitializer) : v.Receives false := by
  cases v with
  | cls => rfl
  | object => trivial
  | _ => exact h

lemma Value.Receives.exists_object {v : Value} (h : v.Receives true) : ∃ o, v = .object o := by
  cases v with
  | object o => exact ⟨o, rfl⟩
  | cls => cases h
  | _ => exact h.elim

lemma Class.Fits.inherited? {c : Class} (h : c.Fits sources w s false) {v : Value}
    (hv : v.Receives false) {name : String} {m : Method} (hm : c.inherited? v name = some m) :
    (∃ isStatic, m.Fits sources w s isStatic) ∧ v.Receives m.isInitializer := by
  cases v with
  | cls =>
    have hfits := h.findStatic? hm
    exact ⟨⟨true, hfits⟩, hfits.receives_of_static hv⟩
  | object => exact ⟨⟨false, h.findMethod? hm⟩, trivial⟩
  | _ => exact hv.elim

theorem Eval.runs_bind (hsound : AllSound sources) {isStatic : Bool} {m : Method}
    {receiver : Value} (hm : m.Fits sources w s isStatic) (hv : receiver.Fits sources w s)
    (hthis : receiver.Receives m.isInitializer) :
    Runs sources w s (bind m receiver) (bind m receiver)
      fun w' s' f => f.Fits sources w' s' ∧ f.function = m.function ∧
        f.isInitializer = m.isInitializer ∧
          s'.lookup? f.frame thisName = some ⟨receiver, true⟩ := by
  obtain ⟨p, outer, ⟨g, hvisits, hfunction, hinit⟩, houtline, hfollows⟩ := hm
  have hcovers := (hvisits.sound hsound).covers
  rw [houtline] at hcovers
  obtain ⟨scope, closing, hclosing⟩ : ∃ scope closing, p.closing = scope :: closing := by
    cases hc : p.closing with
    | nil =>
      rw [hc] at hcovers
      cases hcovers
    | cons scope closing => exact ⟨scope, closing, rfl⟩
  rw [hclosing] at hcovers hfollows
  refine (runs_newFrame m.frame scope).bind fun w₁ s₁ id h₁ hid => ?_
  obtain ⟨hworld, hparent, hlt, hfresh⟩ := hid
  refine (runs_defineThis hlt (fun _ => ⟨scope, hworld, hcovers.1 thisName rfl⟩)
    (hfresh thisName) (hv.later h₁) hthis.ofInitializer).bind fun w₂ s₂ _ h₂ hbound => ?_
  refine (runs_closure m.function m.isInitializer).mono fun w₃ s₃ f h₃ _ hf => ?_
  obtain ⟨hf, rfl, hflag⟩ := hf
  have hbound₃ : s₃.lookup? f.frame thisName = some ⟨receiver, true⟩ := h₃.receiver _ _ hbound
  refine ⟨⟨⟨p, _, g, hvisits, hf.trans hfunction, ?_, ?_⟩, fun hi => ?_⟩, hf, hflag, hbound₃⟩
  · rw [hflag, hinit]
    exact Resolver.isInitializer_iff isStatic g
  · rw [houtline, hclosing]
    have hl := h₂.trans h₃
    exact (hfollows.later (h₁.trans hl)).only (hl.parent _ _ hparent)
      (getElem?_mono hl.world hworld) (Store.binds_of_lookup? hbound₃)
  · rw [hflag] at hi
    rw [hi] at hthis
    obtain ⟨o, rfl⟩ := hthis.exists_object
    exact ⟨o, hbound₃⟩

lemma Value.hereditary_fits (sources : List String) (w : World) (s : Store) :
    Value.Hereditary fun v => v.Fits sources w s where
  nil := .nil
  bool := .bool
  number := .number
  string := .string
  list items := by
    refine ⟨fun h => ?_, .list⟩
    cases h with
    | list h => exact h

lemma Native.isOrdinary_ofSequence {native : Native} {ofItems : List Value → Value}
    {ofChars : List Char → Value} {v : Value} {fault : Fault}
    (h : native.ofSequence ofItems ofChars v = .error fault) : fault.isOrdinary = true := by
  cases v <;> cases h <;> rfl

lemma Native.isOrdinary_apply {native : Native} {args : List Value} {time : Float}
    {fault : Fault} (h : native.apply time args = .error fault) : fault.isOrdinary = true := by
  unfold apply at h
  cases native with
  | clock => cases h
  | cons =>
    dsimp only at h
    split at h <;> cases h
    rfl
  | empty | first | rest | length => exact isOrdinary_ofSequence h

lemma Function.paramNames_of_isGetter {f : Function} (h : f.isGetter = true) :
    f.paramNames = [] := by
  rw [isGetter, Option.isNone_iff_eq_none] at h
  rw [paramNames, h]
  rfl

namespace Agrees

variable {E F : Evaluator}

lemma access (hE : Agrees sources E F) (hsound : AllSound sources) {isStatic : Bool}
    {m : Method} {receiver : Value} (hm : m.Fits sources w s isStatic)
    (hv : receiver.Fits sources w s) (hthis : receiver.Receives m.isInitializer) :
    Runs sources w s (E.access m receiver) (F.access m receiver)
      fun w' s' v => v.Fits sources w' s' := by
  refine (Eval.runs_bind hsound hm hv hthis).bind fun w₁ s₁ f _ hf => ?_
  split
  · next hgetter =>
    refine hE.invoke hsound hf.1 (fun v hv => absurd hv List.not_mem_nil) ?_
    rw [Function.paramNames_of_isGetter hgetter]
    rfl
  · exact .pure (.function hf.1)

lemma instantiate (hE : Agrees sources E F) (hsound : AllSound sources) {c : Class}
    {args : List Value} (hc : c.Fits sources w s false) (hargs : ∀ v ∈ args, v.Fits sources w s)
    (hlength : args.length = c.arity) :
    Runs sources w s (E.instantiate c args) (F.instantiate c args)
      fun w' s' v => v.Fits sources w' s' := by
  refine (Eval.runs_newFields fun id => .object ⟨id, c⟩).bind fun w₁ s₁ id h₁ howner => ?_
  have hobject : (Value.object ⟨id, c⟩).Fits sources w₁ s₁ := .object howner (hc.later h₁)
  cases hm : c.initializer? with
  | none => exact .pure hobject
  | some m =>
    have hfits : m.Fits sources w₁ s₁ false := (hc.findMethod? hm).later h₁
    refine (Eval.runs_bind hsound hfits hobject trivial).bind fun w₂ s₂ f h₂ hf => ?_
    have hcount : args.length = f.function.paramNames.length := by
      rw [hlength, Class.arity, hm, hf.2.1]
      rfl
    have hargs₂ : ∀ v ∈ args, v.Fits sources w₂ s₂ :=
      fun v hv => (hargs v hv).later (h₁.trans h₂)
    refine (hE.invoke hsound hf.1 hargs₂ hcount).bind fun w₃ s₃ _ h₃ _ => ?_
    exact .pure (hobject.later (h₂.trans h₃))

lemma call (hE : Agrees sources E F) (hsound : AllSound sources) (first paren : Token)
    {callee : Value} {args : List Value} (hf : callee.Fits sources w s)
    (hargs : ∀ v ∈ args, v.Fits sources w s) :
    Runs sources w s (E.call first paren callee args) (F.call first paren callee args)
      fun w' s' v => v.Fits sources w' s' := by
  unfold Evaluator.call
  split
  · exact .fail rfl paren
  · next expected hexpected =>
    split
    · exact .fail rfl paren
    · next hlength =>
      have hlength := Decidable.not_not.mp hlength
      cases hf with
      | function hf =>
        cases hexpected
        exact hE.invoke hsound hf hargs hlength
      | cls hc =>
        cases hexpected
        exact hE.instantiate hsound hc hargs hlength
      | native f =>
        refine .get fun _ => .located (fun fault hf => f.isOrdinary_apply hf) fun v hv => ?_
        exact (Value.hereditary_fits sources w s).apply hargs hv
      | _ => cases hexpected

end Agrees

end Lox
