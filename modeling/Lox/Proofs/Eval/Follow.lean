import Lox.Eval.Abort
import Lox.Proofs.Scope.Sound
import Lox.Proofs.Store.Variable

/-! Frames that follow scopes: in every store that a program can reach, the frames around a piece
of it stand for the scopes in which the walk came to it. -/

namespace Lox

structure World where
  scopes : List Scope
  owners : List Value

structure Later (w : World) (s : Store) (w' : World) (s' : Store) : Prop where
  world : w.scopes <+: w'.scopes
  owners : w.owners <+: w'.owners
  parent : ∀ id parent, s.parent? id = some parent → s'.parent? id = some parent
  binds : ∀ id name, s.binds id name → s'.binds id name
  receiver : ∀ id x, s.lookup? id Eval.thisName = some x → s'.lookup? id Eval.thisName = some x

def Follows (w : World) (s : Store) :
    FrameId → List (String → Option Bool) → List Scope → Prop
  | frame, [], [] => frame = Store.globals
  | frame, status :: outer, scope :: closing =>
    w.scopes[frame]? = some scope ∧ (∀ name, status name = some true → s.binds frame name) ∧
      ∃ parent, s.parent? frame = some parent ∧ Follows w s parent outer closing
  | _, _, _ => False

def Closure.Fits (sources : List String) (w : World) (s : Store) (f : Closure) : Prop :=
  (∃ p routine g, Visits sources p (.function routine g) ∧ f.function = p.function routine g ∧
      (f.isInitializer = true ↔ routine = .initializer) ∧
      Follows w s f.frame p.scopes.outline p.closing) ∧
    (f.isInitializer = true → ∃ o, s.lookup? f.frame Eval.thisName = some ⟨.object o, true⟩)

def Method.Declared (sources : List String) (isStatic : Bool) (m : Method) (p : Site) : Prop :=
  ∃ g, Visits sources p (.function (Resolver.memberRoutine isStatic g) g) ∧
    m.function = p.function (Resolver.memberRoutine isStatic g) g ∧
      m.isInitializer = g.isInitializer isStatic

def Method.Fits (sources : List String) (w : World) (s : Store) (isStatic : Bool) (m : Method) :
    Prop :=
  ∃ p outer, m.Declared sources isStatic p ∧ p.scopes.outline = Scopes.only Eval.thisName :: outer ∧
    Follows w s m.frame outer p.closing.tail

inductive Class.Fits (sources : List String) (w : World) (s : Store) : Bool → Class → Prop where
  | mk {isMeta : Bool} {id : ObjectId} {name : String} {superclass metaclass : Option Class}
      {methods : Table Method}
      (howner : w.owners[id]? = some (.cls (.mk id name superclass metaclass methods)))
      (hsuper : ∀ parent, superclass = some parent → parent.Fits sources w s isMeta)
      (hmeta : ∀ mc, metaclass = some mc → mc.Fits sources w s true)
      (hmethods : ∀ key m, methods.find? key = some m → m.Fits sources w s isMeta) :
    Class.Fits sources w s isMeta (.mk id name superclass metaclass methods)

inductive Value.Fits (sources : List String) (w : World) (s : Store) : Value → Prop where
  | nil : Value.Fits sources w s .nil
  | bool (b : Bool) : Value.Fits sources w s (.bool b)
  | number (x : Float) : Value.Fits sources w s (.number x)
  | string (text : String) : Value.Fits sources w s (.string text)
  | list {items : List Value} (h : ∀ v ∈ items, v.Fits sources w s) :
    Value.Fits sources w s (.list items)
  | function {f : Closure} (h : f.Fits sources w s) : Value.Fits sources w s (.function f)
  | native (f : Native) : Value.Fits sources w s (.native f)
  | cls {c : Class} (h : c.Fits sources w s false) : Value.Fits sources w s (.cls c)
  | object {o : Object} (howner : w.owners[o.id]? = some (.object o))
      (h : o.cls.Fits sources w s false) : Value.Fits sources w s (.object o)

def Value.Receives (initializers : Bool) : Value → Prop
  | .object _ => True
  | .cls _ => initializers = false
  | _ => False

structure Value.FitsAs (sources : List String) (w : World) (s : Store) (name : String)
    (v : Value) : Prop where
  fits : v.Fits sources w s
  receiver : name = Eval.thisName → v.Receives false
  superclass : name = Eval.superName → ∃ c, v = .cls c

structure Variable.Fits (sources : List String) (w : World) (s : Store) (name : String)
    (x : Variable) : Prop where
  value : x.value.FitsAs sources w s name
  assigned : name = Eval.thisName ∨ name = Eval.superName → x.assigned = true

structure Store.Fits (sources : List String) (w : World) (s : Store) : Prop where
  size : s.frames.size = w.scopes.length
  places : s.fields.size = w.owners.length
  root : s.parent? Store.globals = none
  rooted : 0 < s.frames.size
  names : ∀ id name, id ≠ Store.globals → s.binds id name →
    ∃ scope, w.scopes[id]? = some scope ∧ scope.binds name
  «variables» : ∀ id name x, s.lookup? id name = some x → x.Fits sources w s name
  fields : ∀ id name v, s.field? id name = some v → v.Fits sources w s

variable {sources : List String} {w w' w'' : World} {s s' s'' : Store}

lemma Later.refl (w : World) (s : Store) : Later w s w s :=
  ⟨List.prefix_refl _, List.prefix_refl _, fun _ _ h => h, fun _ _ h => h, fun _ _ h => h⟩

lemma Later.trans (h : Later w s w' s') (h' : Later w' s' w'' s'') : Later w s w'' s'' where
  world := h.world.trans h'.world
  owners := h.owners.trans h'.owners
  parent id parent hp := h'.parent id parent (h.parent id parent hp)
  binds id name hb := h'.binds id name (h.binds id name hb)
  receiver id x hx := h'.receiver id x (h.receiver id x hx)

lemma getElem?_mono {α : Type} {xs ys : List α} (h : xs <+: ys) {i : Nat} {x : α}
    (hi : xs[i]? = some x) : ys[i]? = some x := by
  obtain ⟨more, rfl⟩ := h
  rw [List.getElem?_append_left (List.getElem?_eq_some_iff.mp hi).1]
  exact hi

lemma Follows.later {frame : FrameId} {outline : List (String → Option Bool)}
    {closing : List Scope} (h : Follows w s frame outline closing) (hl : Later w s w' s') :
    Follows w' s' frame outline closing := by
  induction outline generalizing frame closing with
  | nil =>
    cases closing with
    | nil => exact h
    | cons => cases h
  | cons status outer ih =>
    cases closing with
    | nil => cases h
    | cons scope closing =>
      obtain ⟨hworld, hready, parent, hparent, houter⟩ := h
      refine ⟨getElem?_mono hl.world hworld, fun name hname => ?_, parent, ?_, ih houter⟩
      · exact hl.binds frame name (hready name hname)
      · exact hl.parent frame parent hparent

lemma Closure.Fits.later {f : Closure} (h : f.Fits sources w s) (hl : Later w s w' s') :
    f.Fits sources w' s' := by
  obtain ⟨⟨p, routine, g, hvisits, hf, hroutine, hfollows⟩, hthis⟩ := h
  refine ⟨⟨p, routine, g, hvisits, hf, hroutine, hfollows.later hl⟩, fun hinit => ?_⟩
  obtain ⟨o, ho⟩ := hthis hinit
  exact ⟨o, hl.receiver _ _ ho⟩

lemma Method.Fits.later {isStatic : Bool} {m : Method} (h : m.Fits sources w s isStatic)
    (hl : Later w s w' s') : m.Fits sources w' s' isStatic := by
  obtain ⟨p, outer, hdeclared, houtline, hfollows⟩ := h
  exact ⟨p, outer, hdeclared, houtline, hfollows.later hl⟩

lemma Class.Fits.later {isMeta : Bool} {c : Class} (h : c.Fits sources w s isMeta)
    (hl : Later w s w' s') : c.Fits sources w' s' isMeta := by
  induction h with
  | mk howner _ _ hmethods ihsuper ihmeta =>
    exact .mk (getElem?_mono hl.owners howner) ihsuper ihmeta
      fun key m hm => (hmethods key m hm).later hl

lemma Value.Fits.later {v : Value} (h : v.Fits sources w s) (hl : Later w s w' s') :
    v.Fits sources w' s' := by
  induction h with
  | nil => exact .nil
  | bool b => exact .bool b
  | number x => exact .number x
  | string text => exact .string text
  | list _ ih => exact .list ih
  | function h => exact .function (h.later hl)
  | native f => exact .native f
  | cls h => exact .cls (h.later hl)
  | object howner h => exact .object (getElem?_mono hl.owners howner) (h.later hl)

lemma Variable.Fits.later {name : String} {x : Variable} (h : x.Fits sources w s name)
    (hl : Later w s w' s') : x.Fits sources w' s' name :=
  ⟨⟨h.value.fits.later hl, h.value.receiver, h.value.superclass⟩, h.assigned⟩

lemma Follows.ancestor {frame : FrameId} {outline : List (String → Option Bool)}
    {closing : List Scope} (h : Follows w s frame outline closing) {depth : Nat}
    {status : String → Option Bool} (hd : outline[depth]? = some status) :
    ∃ holder, s.ancestor? frame depth = some holder ∧ w.scopes[holder]? = closing[depth]? ∧
      (∀ name, status name = some true → s.binds holder name) ∧
      Follows w s holder (outline.drop depth) (closing.drop depth) := by
  induction outline generalizing frame closing depth with
  | nil => cases hd
  | cons first outer ih =>
    cases closing with
    | nil => cases h
    | cons scope closing =>
      cases depth with
      | zero =>
        cases hd
        exact ⟨frame, rfl, h.1, h.2.1, h⟩
      | succ depth =>
        obtain ⟨hworld, hready, parent, hparent, houter⟩ := h
        obtain ⟨holder, hholder, hrest⟩ := ih houter hd
        refine ⟨holder, ?_, hrest⟩
        rw [Store.ancestor?, hparent]
        exact hholder

lemma Follows.lt_size {frame : FrameId} {outline : List (String → Option Bool)}
    {closing : List Scope} (h : Follows w s frame outline closing) (hs : s.Fits sources w) :
    frame < s.frames.size := by
  cases outline with
  | nil =>
    cases closing with
    | nil =>
      cases h
      exact hs.rooted
    | cons => cases h
  | cons status outer =>
    cases closing with
    | nil => cases h
    | cons scope closing =>
      obtain ⟨-, -, parent, hparent, -⟩ := h
      exact Store.lt_of_parent? hparent

end Lox
