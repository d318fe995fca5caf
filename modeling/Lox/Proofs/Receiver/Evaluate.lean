import Lox.Proofs.Eval.Parts
import Lox.Proofs.Receiver.Run
import Lox.Proofs.Value.Hereditary

namespace Lox

def Completion.Owned (s : Store) : Completion → Prop
  | .returned v => v.Owned s
  | _ => True

structure Evaluator.Tracked (d : Defect) (E F : Evaluator) : Prop where
  levels : F.levels = E.levels
  turns : F.turns = E.turns
  eval : ∀ {s : Store} {frame : FrameId} {e : Expr}, s.Situates frame (.expr e) →
    Tracks d s (E.eval frame e) (F.eval frame e) fun s' v => v.Owned s'
  exec : ∀ {s : Store} {frame : FrameId} {st : Stmt}, s.Situates frame (.stmt st) →
    Tracks d s (E.exec frame st) (F.exec frame st) fun s' o => o.Owned s'

lemma Value.hereditary_owned (s : Store) : Value.Hereditary fun v => v.Owned s where
  nil := .nil
  bool := .bool
  number := .number
  string := .string
  list items := by
    refine ⟨fun h => ?_, .list⟩
    cases h with
    | list h => exact h

variable {d : Defect} {s : Store} {E F : Evaluator} {frame : FrameId}

namespace Evaluator.Tracked

lemma guardDepth (hE : Tracked d E F) (v : Value) :
    Tracks d s (E.guardDepth v) (F.guardDepth v) fun _ _ => True := by
  unfold Evaluator.guardDepth
  rw [hE.levels]
  split
  · exact .pure trivial
  · exact .throw _

lemma evalAll (hE : Tracked d E F) {es : List Expr} (h : ∀ e ∈ es, s.Situates frame (.expr e)) :
    Tracks d s (E.evalAll frame es) (F.evalAll frame es) fun s' vs => ∀ v ∈ vs, v.Owned s' := by
  induction es generalizing s with
  | nil => exact .pure fun v hv => absurd hv List.not_mem_nil
  | cons e es ih =>
    rw [List.forall_mem_cons] at h
    refine (hE.eval h.1).bind fun s₁ v h₁ hv => ?_
    refine (ih fun e he => (h.2 e he).mono h₁).bind fun s₂ vs h₂ hvs => ?_
    exact .pure (List.forall_mem_cons.mpr ⟨hv.mono h₂, hvs⟩)

lemma execAll (hE : Tracked d E F) {body : List Stmt}
    (h : ∀ st ∈ body, s.Situates frame (.stmt st)) :
    Tracks d s (E.execAll frame body) (F.execAll frame body) fun s' o => o.Owned s' := by
  induction body generalizing s with
  | nil => exact .pure trivial
  | cons st body ih =>
    rw [List.forall_mem_cons] at h
    refine (hE.exec h.1).bind fun s₁ o h₁ ho => ?_
    cases o with
    | normal => exact ih fun st hst => (h.2 st hst).mono h₁
    | returned v => exact .pure ho
    | broke => exact .pure trivial

lemma invoke (hE : Tracked d E F) {f : Closure} (hf : f.Owned s) {args : List Value}
    (hargs : ∀ v ∈ args, v.Owned s) :
    Tracks d s (E.invoke f args) (F.invoke f args) fun s' v => v.Owned s' := by
  unfold Evaluator.invoke
  refine (Eval.tracks_newFrame hf.lt).bind fun s₁ id h₁ hid => ?_
  obtain ⟨hlt, hparent, hempty⟩ := hid
  have hinside : ∀ st ∈ f.function.body, s₁.Situates id (.stmt st) := by
    intro st hst
    exact ⟨hlt, hempty _, ((hf.within st hst).mono hf.lt h₁).enter (hempty _) hparent⟩
  refine (Eval.tracks_bindArguments id hf.named fun v hv => (hargs v hv).mono h₁).bind
    fun s₂ _ h₂ _ => ?_
  refine (hE.execAll fun st hst => (hinside st hst).mono h₂).bind fun s₃ o _ ho => ?_
  split
  · exact Eval.tracks_receiver f
  · cases o with
    | normal => exact .pure .nil
    | returned v => exact .pure ho
    | broke => exact .defect .breakFromBody

lemma access (hE : Tracked d E F) {m : Method} {v : Value} (hm : m.Suits s v) (hv : v.Owned s) :
    Tracks d s (E.access m v) (F.access m v) fun s' v => v.Owned s' := by
  refine (Eval.tracks_bind hm hv).bind fun s₁ f _ hf => ?_
  split
  · exact hE.invoke hf.2 fun v hv => absurd hv List.not_mem_nil
  · exact .pure (.function hf.2)

lemma instantiate (hE : Tracked d E F) {c : Class} (hc : c.Owned s) {args : List Value}
    (hargs : ∀ v ∈ args, v.Owned s) :
    Tracks d s (E.instantiate c args) (F.instantiate c args) fun s' v => v.Owned s' := by
  refine Eval.tracks_newFields.bind fun s₁ id h₁ _ => ?_
  have hc₁ := hc.mono h₁
  have hobject : ∀ {s'}, s₁.Extends s' → (Value.object ⟨id, c⟩).Owned s' :=
    fun hl => .object (hc₁.mono hl)
  cases hm : c.initializer? with
  | none => exact .pure (hobject (.refl s₁))
  | some m =>
    have hsuits : m.Suits s₁ (.object ⟨id, c⟩) := hc₁.findMethod? ⟨[], rfl⟩ hm id
    refine (Eval.tracks_bind hsuits (hobject (.refl s₁))).bind fun s₂ f h₂ hf => ?_
    refine (hE.invoke hf.2 fun v hv => (hargs v hv).mono (h₁.trans h₂)).bind fun s₃ _ h₃ _ => ?_
    exact .pure (hobject (h₂.trans h₃))

lemma call (hE : Tracked d E F) (first paren : Token) {callee : Value} {args : List Value}
    (hcallee : callee.Owned s) (hargs : ∀ v ∈ args, v.Owned s) :
    Tracks d s (E.call first paren callee args) (F.call first paren callee args)
      fun s' v => v.Owned s' := by
  unfold Evaluator.call
  split
  · exact .fail _ paren
  · split
    · exact .fail _ paren
    · cases hcallee with
      | function hf => exact hE.invoke hf hargs
      | cls hc => exact hE.instantiate hc hargs
      | native f =>
        refine .get fun _ => .located (fun v hv => ?_) first
        exact (Value.hereditary_owned s).apply hargs hv
      | _ => exact .fail _ paren

lemma readProperty (hE : Tracked d E F) {v : Value} (hv : v.Owned s) (name : Token) :
    Tracks d s (E.readProperty v name) (F.readProperty v name) fun s' v => v.Owned s' := by
  unfold Evaluator.readProperty
  split
  · exact .fail _ name
  · next id _ =>
    refine .get fun hs => ?_
    split
    · next u hu => exact .pure (hs.fields id name.lexeme u hu)
    · split
      · next m hm => exact hE.access (hv.member? hm) hv
      · exact .fail _ name

lemma assignProperty (object : Value) (name : Token) {v : Value} (hv : v.Owned s) :
    Tracks d s (Evaluator.assignProperty object name v)
      (Evaluator.assignProperty object name v) fun s' v => v.Owned s' := by
  unfold Evaluator.assignProperty
  split
  · exact .fail _ name
  · next id _ =>
    refine .step rfl fun hs => ?_
    obtain ⟨hl, hs'⟩ := hs.setField hv id name.lexeme
    exact ⟨hl, hs', hv.mono hl⟩

lemma applyBinary (hE : Tracked d E F) (op : Token) (a b : Value) :
    Tracks d s (E.applyBinary op a b) (F.applyBinary op a b) fun s' v => v.Owned s' := by
  have hvalue : ∀ s : Store, Tracks d s (Eval.operate op a b) (Eval.operate op a b)
      fun s' v => v.Owned s' := by
    intro s
    unfold Eval.operate
    refine (Tracks.located (Q := fun _ x => a.binary op b = .ok x) (fun x hx => hx) op).bind
      fun s₁ x _ hx => ?_
    cases x with
    | none => exact .throw _
    | some v => exact .pure ((Value.hereditary_owned s₁).binary hx)
  unfold Evaluator.applyBinary
  rw [hE.levels]
  split
  · split
    · exact (hE.guardDepth a).bind fun s₁ _ _ _ => hvalue s₁
    · exact hvalue s
  · exact hvalue s

end Evaluator.Tracked

end Lox
