import Lox.Proofs.Eval.Watch
import Lox.Proofs.Scope.Reserved
import Lox.Proofs.Session.Hierarchy
import Lox.Proofs.Store.Chain

/-! Members and their receivers: what runs inside a class member runs in frames around which the
nearest receiver is that of the member, which some class above the receiver declares. -/

namespace Lox

inductive Node.Part : Node → Node → Prop
  | operand {e e' : Expr} (h : e' ∈ e.operands) : Part (.expr e) (.expr e')
  | lambda {f : Function} {st : Stmt} (h : st ∈ f.body) : Part (.expr (.lambda f)) (.stmt st)
  | leading {st : Stmt} {e : Expr} (h : st.leading? = some e) : Part (.stmt st) (.expr e)
  | init {name : Token} {e : Expr} : Part (.stmt (.var name (some e))) (.expr e)
  | block {line : Nat} {body : List Stmt} {st : Stmt} (h : st ∈ body) :
    Part (.stmt (.block line body)) (.stmt st)
  | yes {keyword : Token} {c : Expr} {yes : Stmt} {no : Option Stmt} :
    Part (.stmt (.ifElse keyword c yes no)) (.stmt yes)
  | no {keyword : Token} {c : Expr} {yes no : Stmt} :
    Part (.stmt (.ifElse keyword c yes (some no))) (.stmt no)
  | loopBody {keyword : Token} {c : Expr} {body : Stmt} :
    Part (.stmt (.whileLoop keyword c body)) (.stmt body)
  | returned {keyword : Token} {e : Expr} : Part (.stmt (.returnValue keyword (some e))) (.expr e)
  | named {f : Function} {st : Stmt} (h : st ∈ f.body) : Part (.stmt (.function f)) (.stmt st)

inductive Function.Encloses (f : Function) : Node → Prop
  | body {st : Stmt} (h : st ∈ f.body) : f.Encloses (.stmt st)
  | part {n m : Node} (h : f.Encloses n) (h' : n.Part m) : f.Encloses m

def Function.Named (f : Function) : Prop := ∀ t ∈ f.paramNames, t.IsName

/-- A member with the class that declares it. -/
structure Member where
  cls : Class
  isStatic : Bool
  method : Method

namespace Member

def IsDeclared (b : Member) : Prop := ∃ key, (b.cls.members b.isStatic).find? key = some b.method

def Admits (b : Member) : Value → Prop
  | .object o => b.isStatic = false ∧ b.cls ∈ o.cls.ancestry
  | .cls c => b.isStatic = true ∧ b.cls ∈ c.ancestry
  | _ => False

end Member

/-- The nearest frame with a receiver. -/
inductive Store.Around (s : Store) : FrameId → FrameId → Prop
  | here {id : FrameId} (h : s.binds id Eval.thisName) : s.Around id id
  | outer {id parent holder : FrameId} (h : ¬ s.binds id Eval.thisName)
    (hparent : s.parent? id = some parent) (houter : s.Around parent holder) : s.Around id holder

structure Store.Extends (s s' : Store) : Prop where
  size : s.frames.size ≤ s'.frames.size
  parent? : ∀ id < s.frames.size, s'.parent? id = s.parent? id
  lookup? : ∀ id < s.frames.size, ∀ name ∈ reservedNames, s'.lookup? id name = s.lookup? id name
  around : ∀ id < s.frames.size, ∀ holder, s'.Around id holder → s.Around id holder

/-- The frame around the members of a class, static or not, knows what the class extends, and the
metaclass stands above those of the classes that the class stands above. -/
inductive Class.Owned (s : Store) : Class → Prop
  | mk {c mc : Class} {inside : FrameId} (hmeta : c.metaclass? = some mc)
    (habove : mc.superclass? = c.superclass?.bind metaclass?)
    (hparent : ∀ parent, c.superclass? = some parent → parent.Owned s)
    (hinside : inside < s.frames.size)
    (hsuper : s.lookup? inside Eval.superName = c.superclass?.map fun c => ⟨.cls c, true⟩)
    (hmembers : ∀ isStatic key m, (c.members isStatic).find? key = some m →
      m.frame = inside ∧ m.function.Named) : Class.Owned s c

structure Member.Receives (b : Member) (s : Store) (holder : FrameId) : Prop where
  owned : b.cls.Owned s
  declared : b.IsDeclared
  parent : s.parent? holder = some b.method.frame
  receiver : ∃ v, s.lookup? holder Eval.thisName = some ⟨v, true⟩ ∧ b.Admits v

def Store.Within (s : Store) (frame : FrameId) (n : Node) : Prop :=
  ∀ holder, s.Around frame holder →
    ∃ b : Member, b.Receives s holder ∧ b.method.function.Encloses n

structure Store.Situates (s : Store) (frame : FrameId) (n : Node) : Prop where
  lt : frame < s.frames.size
  super : s.lookup? frame Eval.superName = none
  within : s.Within frame n

structure Closure.Owned (s : Store) (f : Closure) : Prop where
  named : f.function.Named
  lt : f.frame < s.frames.size
  within : ∀ st ∈ f.function.body, s.Within f.frame (.stmt st)

inductive Value.Owned (s : Store) : Value → Prop
  | nil : Value.Owned s .nil
  | bool (b : Bool) : Value.Owned s (.bool b)
  | number (x : Float) : Value.Owned s (.number x)
  | string (text : String) : Value.Owned s (.string text)
  | list {items : List Value} (h : ∀ v ∈ items, v.Owned s) : Value.Owned s (.list items)
  | function {f : Closure} (h : f.Owned s) : Value.Owned s (.function f)
  | native (f : Native) : Value.Owned s (.native f)
  | cls {c : Class} (h : c.Owned s) : Value.Owned s (.cls c)
  | object {o : Object} (h : o.cls.Owned s) : Value.Owned s (.object o)

structure Store.Owned (s : Store) : Prop where
  rooted : 0 < s.frames.size
  outermost : s.parent? Store.globals = none
  unreserved : ∀ name ∈ reservedNames, s.lookup? Store.globals name = none
  descends : s.Descends
  «variables» : ∀ id name x, s.lookup? id name = some x → x.value.Owned s
  fields : ∀ id name v, s.field? id name = some v → v.Owned s

variable {s s' s'' : Store} {frame holder : FrameId} {n m : Node}

namespace Store

lemma Extends.refl (s : Store) : s.Extends s :=
  ⟨Nat.le_refl _, fun _ _ => rfl, fun _ _ _ _ => rfl, fun _ _ _ h => h⟩

lemma Extends.trans (h : s.Extends s') (h' : s'.Extends s'') : s.Extends s'' where
  size := Nat.le_trans h.size h'.size
  parent? id hid := (h'.parent? id (Nat.lt_of_lt_of_le hid h.size)).trans (h.parent? id hid)
  lookup? id hid name hname :=
    (h'.lookup? id (Nat.lt_of_lt_of_le hid h.size) name hname).trans (h.lookup? id hid name hname)
  around id hid holder haround :=
    h.around id hid holder (h'.around id (Nat.lt_of_lt_of_le hid h.size) holder haround)

lemma Owned.bounded (hs : s.Owned) {id parent : FrameId} (hp : s.parent? id = some parent) :
    parent < s.frames.size :=
  Nat.lt_trans (hs.descends id parent hp) (lt_of_parent? hp)

lemma Owned.extends (hs : s.Owned) (hsize : s.frames.size ≤ s'.frames.size)
    (hparent : ∀ id < s.frames.size, s'.parent? id = s.parent? id)
    (hlookup : ∀ id < s.frames.size, ∀ name ∈ reservedNames,
      s'.lookup? id name = s.lookup? id name) : s.Extends s' := by
  refine ⟨hsize, hparent, hlookup, fun id hid holder haround => ?_⟩
  have hbinds : ∀ i < s.frames.size, s'.binds i Eval.thisName = s.binds i Eval.thisName := by
    intro i hi
    rw [binds_eq, binds_eq, hlookup i hi _ (by decide)]
  induction haround with
  | here h => exact .here (by rwa [← hbinds _ hid])
  | outer h hp _ ih =>
    rw [hbinds _ hid] at h
    rw [hparent _ hid] at hp
    exact .outer h hp (ih (hs.bounded hp))

end Store

lemma Class.Owned.mono {c : Class} (h : c.Owned s) (hl : s.Extends s') : c.Owned s' := by
  induction h with
  | mk hmeta habove _ hinside hsuper hmembers ih =>
    refine .mk hmeta habove ih (Nat.lt_of_lt_of_le hinside hl.size) ?_ hmembers
    rw [hl.lookup? _ hinside _ (by decide), hsuper]

lemma Member.Receives.mono {b : Member} (h : b.Receives s holder) (hl : s.Extends s') :
    b.Receives s' holder := by
  obtain ⟨v, hv, hadmits⟩ := h.receiver
  have hlt := Store.lt_of_lookup? hv
  refine ⟨h.owned.mono hl, h.declared, (hl.parent? _ hlt).trans h.parent, v, ?_, hadmits⟩
  rw [hl.lookup? _ hlt _ (by decide), hv]

lemma Store.Within.mono (h : s.Within frame n) (hlt : frame < s.frames.size)
    (hl : s.Extends s') : s'.Within frame n := by
  intro holder haround
  obtain ⟨b, hb, hn⟩ := h holder (hl.around frame hlt holder haround)
  exact ⟨b, hb.mono hl, hn⟩

lemma Store.Situates.mono (h : s.Situates frame n) (hl : s.Extends s') :
    s'.Situates frame n where
  lt := Nat.lt_of_lt_of_le h.lt hl.size
  super := (hl.lookup? frame h.lt _ (by decide)).trans h.super
  within := h.within.mono h.lt hl

lemma Closure.Owned.mono {f : Closure} (h : f.Owned s) (hl : s.Extends s') : f.Owned s' where
  named := h.named
  lt := Nat.lt_of_lt_of_le h.lt hl.size
  within st hst := (h.within st hst).mono h.lt hl

lemma Value.Owned.mono {v : Value} (h : v.Owned s) (hl : s.Extends s') : v.Owned s' := by
  induction h with
  | nil => exact .nil
  | bool b => exact .bool b
  | number x => exact .number x
  | string text => exact .string text
  | list _ ih => exact .list ih
  | function h => exact .function (h.mono hl)
  | native f => exact .native f
  | cls h => exact .cls (h.mono hl)
  | object h => exact .object (h.mono hl)

lemma Store.Within.part (h : s.Within frame n) (hm : n.Part m) : s.Within frame m := by
  intro holder haround
  obtain ⟨b, hb, hn⟩ := h holder haround
  exact ⟨b, hb, hn.part hm⟩

lemma Store.Situates.part (h : s.Situates frame n) (hm : n.Part m) : s.Situates frame m :=
  ⟨h.lt, h.super, h.within.part hm⟩

namespace Class

variable {c d : Class}

lemma head?_ancestry (c : Class) : c.ancestry.head? = some c := by
  obtain ⟨_, _, _ | _, _, _⟩ := c <;> rfl

lemma ancestry_of_superclass? {parent : Class} (h : c.superclass? = some parent) :
    c.ancestry = c :: parent.ancestry := by
  obtain ⟨_, _, _, _, _⟩ := c
  cases h
  rfl

lemma ancestry_of_root (h : c.superclass? = none) : c.ancestry = [c] := by
  obtain ⟨_, _, _, _, _⟩ := c
  cases h
  rfl

lemma Owned.of_mem_ancestry (h : d.Owned s) (hc : c ∈ d.ancestry) : c.Owned s := by
  induction h with
  | @mk d mc inside hmeta habove hparent hinside hsuper hmembers ih =>
    have hself : d.Owned s := .mk hmeta habove hparent hinside hsuper hmembers
    cases hd : d.superclass? with
    | none =>
      rw [ancestry_of_root hd] at hc
      exact List.mem_singleton.mp hc ▸ hself
    | some parent =>
      rw [ancestry_of_superclass? hd] at hc
      rcases List.mem_cons.mp hc with rfl | hc
      · exact hself
      · exact ih parent hd hc

theorem exists_below : (d : Class) → c ∈ d.ancestry → ∃ below, d.ancestry = below ++ c.ancestry
  | .mk _ _ none _ _, hc => by
    cases List.mem_singleton.mp hc
    exact ⟨[], rfl⟩
  | .mk _ _ (some parent) _ _, hc => by
    rcases List.mem_cons.mp hc with rfl | hc
    · exact ⟨[], rfl⟩
    · obtain ⟨below, hbelow⟩ := exists_below parent hc
      exact ⟨_ :: below, congrArg (_ :: ·) hbelow⟩

lemma Owned.exists_metaclass (h : c.Owned s) :
    ∃ mc, c.metaclass? = some mc ∧ mc.ancestry.map some = c.ancestry.map metaclass? := by
  induction h with
  | @mk c mc _ hmeta habove _ _ _ _ ih =>
    refine ⟨mc, hmeta, ?_⟩
    cases hc : c.superclass? with
    | none => exact ancestry_metaclass_root hmeta hc (by rw [habove, hc]; rfl)
    | some parent =>
      obtain ⟨pmc, hpmc, hancestry⟩ := ih parent hc
      refine ancestry_metaclass hmeta hc ?_ hancestry
      rw [habove, hc, Option.bind_some, hpmc]

end Class

namespace Member

variable {b : Member}

lemma method_of_owned (h : b.cls.Owned s) (hb : b.IsDeclared) :
    b.method.function.Named ∧ b.method.frame < s.frames.size ∧
      s.lookup? b.method.frame Eval.superName =
        b.cls.superclass?.map fun c => ⟨.cls c, true⟩ := by
  obtain ⟨key, hkey⟩ := hb
  cases h with
  | mk _ _ _ hinside hsuper hmembers =>
    obtain ⟨rfl, hnamed⟩ := hmembers _ key _ hkey
    exact ⟨hnamed, hinside, hsuper⟩

end Member

def Method.Suits (s : Store) (m : Method) (v : Value) : Prop :=
  ∃ b : Member, b.method = m ∧ b.cls.Owned s ∧ b.IsDeclared ∧ b.Admits v

lemma Method.Suits.mono {m : Method} {v : Value} (h : m.Suits s v) (hl : s.Extends s') :
    m.Suits s' v := by
  obtain ⟨b, hm, howned, hrest⟩ := h
  exact ⟨b, hm, howned.mono hl, hrest⟩

theorem Class.Owned.exists_nearest {c d : Class} {isStatic : Bool} {name : String} {m : Method}
    (hd : d.Owned s) (hc : ∃ below, d.ancestry = below ++ c.ancestry)
    (h : c.nearest? isStatic name = some m) :
    ∃ k ∈ d.ancestry, k.Owned s ∧ (k.members isStatic).find? name = some m := by
  obtain ⟨k, hk, hm⟩ := List.exists_of_findSome?_eq_some h
  obtain ⟨below, hbelow⟩ := hc
  have hmem : k ∈ d.ancestry := by
    rw [hbelow]
    exact List.mem_append_right below hk
  exact ⟨k, hmem, hd.of_mem_ancestry hmem, hm⟩

lemma Class.Owned.findMethod? {c d : Class} {name : String} {m : Method} (hd : d.Owned s)
    (hc : ∃ below, d.ancestry = below ++ c.ancestry) (h : c.findMethod? name = some m)
    (id : ObjectId) : m.Suits s (.object ⟨id, d⟩) := by
  rw [findMethod?_eq_nearest?] at h
  obtain ⟨k, hmem, howned, hm⟩ := hd.exists_nearest hc h
  exact ⟨⟨k, false, m⟩, rfl, howned, ⟨name, hm⟩, rfl, hmem⟩

theorem Class.Owned.findStatic? {c d mc : Class} {name : String} {m : Method} (hd : d.Owned s)
    (hc : ∃ below, d.ancestry = below ++ c.ancestry) (hmeta : c.metaclass? = some mc)
    (h : mc.findMethod? name = some m) : m.Suits s (.cls d) := by
  obtain ⟨below, hbelow⟩ := hc
  have hmem : c ∈ d.ancestry := by
    rw [hbelow]
    exact List.mem_append_right below (List.mem_of_mem_head? c.head?_ancestry)
  obtain ⟨_, hmeta', hancestry⟩ := (hd.of_mem_ancestry hmem).exists_metaclass
  cases hmeta.symm.trans hmeta'
  rw [findMethod?_of_ancestry hancestry] at h
  obtain ⟨k, hmem, howned, hm⟩ := hd.exists_nearest ⟨below, hbelow⟩ h
  exact ⟨⟨k, true, m⟩, rfl, howned, ⟨name, hm⟩, rfl, hmem⟩

lemma Value.Owned.member? {v : Value} (h : v.Owned s) {name : String} {m : Method}
    (hm : Eval.member? name v = some m) : m.Suits s v := by
  cases h with
  | cls hc =>
    obtain ⟨mc, hmeta, hm⟩ := Option.bind_eq_some_iff.mp hm
    exact hc.findStatic? ⟨[], rfl⟩ hmeta hm
  | @object o hc => exact hc.findMethod? ⟨[], rfl⟩ hm o.id
  | _ => cases hm

end Lox
