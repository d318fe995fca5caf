import Lox.Proofs.Receiver.Evaluate

namespace Lox

def Value.lineage : Value → List Class
  | .object o => o.cls.ancestry
  | .cls c => c.ancestry
  | _ => []

def Class.findMember? (isStatic : Bool) (name : String) (c : Class) : Option Method :=
  (if isStatic then c.metaclass? else some c).bind (·.findMethod? name)

def Evaluator.Delivers (E : Evaluator) (act : Eval Value) (s : Store) (found : Option Method)
    (object : Value) (name : Token) : Prop :=
  match found with
  | some m => ∃ (f : Closure) (s' : Store), Eval.bind m object s = .ok f s' ∧
      f.function = m.function ∧ s'.readIn f.frame Eval.thisName = .ok object ∧
      s'.parent? f.frame = some m.frame ∧
      act s = if m.function.isGetter then E.invoke f [] s' else .ok (.function f) s'
  | none => act s = .error (.failure ⟨.undefinedProperty name.lexeme, some name⟩) s

structure UsesSuper (sources : List String) (s : Store) (frame : FrameId) (target : Reference)
    (method : Token) (b : Member) (parent : Class) (object : Value) : Prop where
  declared : b.IsDeclared
  encloses : b.method.function.Encloses (.expr (.super target method))
  inherits : b.cls.superclass? = some parent
  admits : b.Admits object
  above : ∃ below, object.lineage = below ++ b.cls :: parent.ancestry
  other : object.lineage.head? ≠ some parent
  reaches : ∃ depth holder, target.depth = some (depth + 1) ∧
    s.ancestor? frame depth = some holder ∧ s.parent? holder = some b.method.frame ∧
    s.readIn holder Eval.thisName = .ok object ∧
    s.readIn b.method.frame Eval.superName = .ok (.cls parent)
  receiver : ∃ p raw, Visits sources p (.expr raw) ∧ p.expr raw = .super target method ∧
    ∀ t : Token, t.lexeme = Eval.thisName →
      Eval.readName frame (Reference.at ⟨t, none⟩ p.scopes) s = .ok object s
  delivers : ∀ E : Evaluator, E.Delivers (E.evalExpr frame (.super target method)) s
    (parent.findMember? b.isStatic method.lexeme) object method

/-- Uses of the superclass mean what the text around them says. -/
def SuperIsLexical (sources : List String) (frame : FrameId) (node : Node) (s : Store) : Prop :=
  match node with
  | .expr (.super target method) =>
    ∃ (b : Member) (parent : Class) (object : Value),
      UsesSuper sources s frame target method b parent object
  | _ => True

def Node.Named : Node → Prop
  | .expr (.assign target _ _) => target.name.IsName
  | .expr (.lambda f) => f.Named
  | .stmt (.var name _) => name.IsName
  | .stmt (.function f) => f.head.IsName ∧ f.Named
  | .stmt (.classDecl name _ _ methods statics) =>
    name.IsName ∧ (∀ f ∈ methods, f.Named) ∧ ∀ f ∈ statics, f.Named
  | _ => True

structure Store.FindsSuper (s : Store) (frame : FrameId) (target : Reference) (depth : Nat)
    (holder inside : FrameId) : Prop where
  name : target.name.lexeme = Eval.superName
  recorded : target.depth = some (depth + 1)
  ancestor : s.ancestor? frame depth = some holder
  around : s.Around frame holder
  parent : s.parent? holder = some inside
  binds : s.binds inside Eval.superName

def Node.SeesSuper (sources : List String) (frame : FrameId) (s : Store) : Node → Prop
  | .expr (.super target method) =>
    ∃ p raw depth holder inside, Visits sources p (.expr raw) ∧
      p.expr raw = .super target method ∧ p.scopes.depth? Eval.thisName = some depth ∧
      s.FindsSuper frame target depth holder inside
  | _ => True

structure Node.Seen (sources : List String) (frame : FrameId) (node : Node) (s : Store) : Prop where
  named : node.Named
  super : node.SeesSuper sources frame s

variable {sources : List String} {s : Store} {frame holder inside : FrameId} {target : Reference}
  {method : Token} {depth : Nat} {parent : Class} {object : Value}

lemma Store.ancestor?_succ (h : s.ancestor? frame depth = some holder) :
    s.ancestor? frame (depth + 1) = s.parent? holder := by
  induction depth generalizing frame with
  | zero =>
    cases h
    change (s.parent? holder).bind some = s.parent? holder
    cases s.parent? holder <;> rfl
  | succ depth ih =>
    rw [Store.ancestor?] at h ⊢
    cases hparent : s.parent? frame with
    | none =>
      rw [hparent] at h
      cases h
    | some outer =>
      rw [hparent] at h
      exact ih h

lemma Eval.readAt_of_readIn {t : Token} {v : Value} (h : s.ancestor? frame depth = some holder)
    (hv : s.readIn holder t.lexeme = .ok v) : Eval.readAt frame depth t s = .ok v s := by
  refine (Eval.bind_of_ok (ancestor_of_ancestor? h) _).trans ?_
  change Eval.located t (s.readIn holder t.lexeme) s = _
  rw [hv]
  rfl

lemma Class.inherited?_eq {isStatic : Bool} (h : isStatic = true ↔ ∃ c, object = .cls c)
    (name : String) : parent.inherited? object name = parent.findMember? isStatic name := by
  cases isStatic with
  | true =>
    obtain ⟨c, rfl⟩ := h.mp rfl
    rfl
  | false =>
    cases object with
    | cls c => exact absurd (h.mpr ⟨c, rfl⟩) Bool.false_ne_true
    | _ => rfl

lemma Evaluator.readSuper_eq (E : Evaluator) (method : Token)
    (h : s.FindsSuper frame target depth holder inside)
    (hobject : s.readIn holder Eval.thisName = .ok object)
    (hclass : s.readIn inside Eval.superName = .ok (.cls parent)) :
    E.readSuper frame target method s =
      E.accessFound (parent.inherited? object method.lexeme) object method s := by
  have hinside : s.ancestor? frame (depth + 1) = some inside :=
    (Store.ancestor?_succ h.ancestor).trans h.parent
  have hread := Eval.readAt_of_readIn (t := target.name) hinside (h.name ▸ hclass)
  have hthis := Eval.readAt_of_readIn
    (t := { target.name with kind := .thisWord, lexeme := Eval.thisName }) h.ancestor hobject
  unfold Evaluator.readSuper
  rw [h.recorded]
  refine (Eval.bind_of_ok hread _).trans ?_
  exact Eval.bind_of_ok hthis _

lemma Evaluator.delivers (E : Evaluator) {act : Eval Value} {found : Option Method}
    (hact : act s = E.accessFound found object method s) : E.Delivers act s found object method := by
  cases found with
  | none => exact hact
  | some m =>
    have hbind := Eval.bind_eq m object s
    refine ⟨_, _, hbind, rfl, Store.readIn_of_lookup? ?_, ?_, ?_⟩
    · exact (s.lookup?_enclose m.frame s.frames.size Eval.thisName Eval.thisName object).trans
        ((if_pos rfl).trans (if_pos rfl))
    · exact (s.parent?_enclose m.frame s.frames.size Eval.thisName object).trans (if_pos rfl)
    · refine hact.trans ((Eval.bind_of_ok hbind _).trans ?_)
      dsimp only
      split <;> rfl

lemma Member.Admits.isStatic_iff {b : Member} (h : b.Admits object) :
    b.isStatic = true ↔ ∃ c, object = .cls c := by
  cases object with
  | object o => simp [h.1]
  | cls c => simp [h.1]
  | _ => exact h.elim

lemma Member.Admits.mem_lineage {b : Member} (h : b.Admits object) : b.cls ∈ object.lineage := by
  cases object with
  | object | cls => exact h.2
  | _ => exact h.elim

theorem Value.exists_below {c : Class} (hc : c ∈ object.lineage)
    (hparent : c.superclass? = some parent) :
    (∃ below, object.lineage = below ++ c :: parent.ancestry) ∧
      object.lineage.head? ≠ some parent := by
  have hclass : ∃ d : Class, object.lineage = d.ancestry := by
    cases object with
    | object o => exact ⟨o.cls, rfl⟩
    | cls c => exact ⟨c, rfl⟩
    | _ => cases hc
  obtain ⟨d, hd⟩ := hclass
  rw [hd] at hc ⊢
  obtain ⟨below, hbelow⟩ := Class.exists_below d hc
  rw [Class.ancestry_of_superclass? hparent] at hbelow
  refine ⟨⟨below, hbelow⟩, fun hhead => ?_⟩
  have hself : d = parent := Option.some.inj (d.head?_ancestry.symm.trans hhead)
  have hlength := congrArg List.length hbelow
  rw [hself, List.length_append, List.length_cons] at hlength
  omega

theorem Node.Seen.exists_member
    (h : Node.Seen sources frame (.expr (.super target method)) s)
    (hframe : s.Situates frame (.expr (.super target method))) :
    ∃ (b : Member) (parent : Class) (object : Value) (depth : Nat) (holder : FrameId),
      b.Receives s holder ∧ b.method.function.Encloses (.expr (.super target method)) ∧
      b.cls.superclass? = some parent ∧ b.Admits object ∧
      s.lookup? holder Eval.thisName = some ⟨object, true⟩ ∧
      s.readIn b.method.frame Eval.superName = .ok (.cls parent) ∧
      s.FindsSuper frame target depth holder b.method.frame ∧
      ∃ p raw, Visits sources p (.expr raw) ∧ p.expr raw = .super target method ∧
        p.scopes.depth? Eval.thisName = some depth := by
  obtain ⟨p, raw, depth, holder, inside, hvisits, hraw, hthis, hfinds⟩ := h.super
  obtain ⟨b, hb, hencloses⟩ := hframe.within holder hfinds.around
  obtain ⟨object, hobject, hadmits⟩ := hb.receiver
  obtain ⟨-, -, hsuper⟩ := Member.method_of_owned hb.owned hb.declared
  have hinside : inside = b.method.frame := Option.some.inj (hfinds.parent.symm.trans hb.parent)
  subst hinside
  cases hparent : b.cls.superclass? with
  | none =>
    -- The frame around the members of such a class does not bind a superclass.
    have hbinds := hfinds.binds
    rw [Store.binds_eq, hsuper, hparent] at hbinds
    cases hbinds
  | some parent =>
    rw [hparent] at hsuper
    exact ⟨b, parent, object, depth, holder, hb, hencloses, hparent, hadmits, hobject,
      Store.readIn_of_lookup? hsuper, hfinds, p, raw, hvisits, hraw, hthis⟩

lemma Node.Seen.usesSuper
    (h : Node.Seen sources frame (.expr (.super target method)) s)
    (hframe : s.Situates frame (.expr (.super target method))) :
    ∃ (b : Member) (parent : Class) (object : Value),
      UsesSuper sources s frame target method b parent object := by
  obtain ⟨b, parent, object, depth, holder, hb, hencloses, hparent, hadmits, hobject, hclass,
    hfinds, p, raw, hvisits, hraw, hthis⟩ := h.exists_member hframe
  have hread := Store.readIn_of_lookup? hobject
  obtain ⟨hbelow, hother⟩ := Value.exists_below hadmits.mem_lineage hparent
  refine ⟨b, parent, object, hb.declared, hencloses, hparent, hadmits, hbelow, hother,
    ⟨depth, holder, hfinds.recorded, hfinds.ancestor, hb.parent, hread, hclass⟩,
    ⟨p, raw, hvisits, hraw, fun t ht => ?_⟩, fun E => ?_⟩
  · have hdepth : (Reference.at ⟨t, none⟩ p.scopes).depth = some depth := by
      rw [Reference.at, ht, hthis]
    rw [Eval.readName, hdepth]
    exact Eval.readAt_of_readIn hfinds.ancestor (ht.symm ▸ hread)
  · have hlookup := E.readSuper_eq method hfinds hread hclass
    rw [Class.inherited?_eq hadmits.isStatic_iff] at hlookup
    exact E.delivers hlookup

lemma Value.Owned.inherited? (hv : object.Owned s)
    (hbelow : ∃ below, object.lineage = below ++ parent.ancestry) {name : String} {m : Method}
    (hm : parent.inherited? object name = some m) : m.Suits s object := by
  cases hv with
  | cls hc =>
    obtain ⟨mc, hmeta, hm⟩ := Option.bind_eq_some_iff.mp hm
    exact hc.findStatic? hbelow hmeta hm
  | @object o hc => exact hc.findMethod? hbelow hm o.id
  | _ =>
    obtain ⟨below, hbelow⟩ := hbelow
    have hhead := parent.head?_ancestry
    rw [(List.append_eq_nil_iff.mp hbelow.symm).2] at hhead
    cases hhead

lemma Evaluator.Tracked.readSuper {d : Defect} {E F : Evaluator} (hE : Tracked d E F)
    (h : Node.Seen sources frame (.expr (.super target method)) s)
    (hframe : s.Situates frame (.expr (.super target method))) :
    Tracks d s (E.readSuper frame target method) (F.readSuper frame target method)
      fun s' v => v.Owned s' := by
  obtain ⟨b, parent, object, depth, holder, hb, -, hparent, hadmits, hobject, hclass, hfinds, -⟩ :=
    h.exists_member hframe
  have hread := Store.readIn_of_lookup? hobject
  obtain ⟨below, hbelow⟩ := (Value.exists_below hadmits.mem_lineage hparent).1
  have habove : ∃ below, object.lineage = below ++ parent.ancestry :=
    ⟨below ++ [b.cls], by rw [hbelow, List.append_assoc, List.singleton_append]⟩
  intro hs
  have hv : object.Owned s := hs.readIn hread
  rw [E.readSuper_eq method hfinds hread hclass, F.readSuper_eq method hfinds hread hclass]
  cases hm : parent.inherited? object method.lexeme with
  | none => exact Tracks.fail _ method hs
  | some m => exact hE.access (hv.inherited? habove hm) hv hs

end Lox
