import Lox.Proofs.Eval.Follow
import Lox.Proofs.Eval.Parts

/-! What a store holds: the values that can be reached in it, the places of fields that belong to
them, and what the walk has taken their functions and members for. -/

namespace Lox

/-- What can be reached from the variables and the fields of a store and from given values. -/
inductive Store.Includes (s : Store) (vs : List Value) : Value → Prop where
  | given {v : Value} (h : v ∈ vs) : s.Includes vs v
  | binding {id : FrameId} {name : String} {x : Variable} (hx : s.lookup? id name = some x) :
    s.Includes vs x.value
  | field {id : ObjectId} {name : String} {v : Value} (hv : s.field? id name = some v) :
    s.Includes vs v
  | item {items : List Value} {v : Value} (h : s.Includes vs (.list items)) (hv : v ∈ items) :
    s.Includes vs v
  | classOf {o : Object} (h : s.Includes vs (.object o)) : s.Includes vs (.cls o.cls)
  | superclass {c parent : Class} (h : s.Includes vs (.cls c))
      (hparent : c.superclass? = some parent) : s.Includes vs (.cls parent)

/-- Every object and every class has a place of fields in the store, and no two have the same. -/
structure Store.Distinct (s : Store) (vs : List Value) : Prop where
  placed : ∀ v id, s.Includes vs v → Eval.fields? v = some id → id < s.fields.size
  single : ∀ u v id, s.Includes vs u → s.Includes vs v → Eval.fields? u = some id →
    Eval.fields? v = some id → u = v

def Value.Classified (sources : List String) (s : Store) : Value → Prop
  | .function f =>
    (∃ p routine g, Visits sources p (.function routine g) ∧ f.function = p.function routine g ∧
      (f.isInitializer = true ↔ routine = .initializer)) ∧
    (f.isInitializer = true → ∃ o, s.lookup? f.frame Eval.thisName = some ⟨.object o, true⟩)
  | .cls c => ∀ isStatic name m, (c.members isStatic).find? name = some m → ∃ p g,
    let routine := Resolver.memberRoutine isStatic g
    Visits sources p (.function routine g) ∧ m.function = p.function routine g ∧
      (m.isInitializer = true ↔ routine = .initializer)
  | _ => True

variable {sources : List String} {w : World} {s : Store} {v : Value} {vs : List Value}

lemma Store.Fits.of_includes (hs : s.Fits sources w) (hvs : ∀ v ∈ vs, v.Fits sources w s)
    (h : s.Includes vs v) : v.Fits sources w s := by
  induction h with
  | given h => exact hvs _ h
  | binding hx => exact (hs.variables _ _ _ hx).value.fits
  | field hv => exact hs.fields _ _ _ hv
  | item _ hv ih =>
    cases ih with
    | list hitems => exact hitems _ hv
  | classOf _ ih =>
    cases ih with
    | object _ hc => exact .cls hc
  | superclass _ hparent ih =>
    cases ih with
    | cls hc =>
      cases hc with
      | mk _ hsuper => exact .cls (hsuper _ hparent)

theorem Value.Fits.owner (h : v.Fits sources w s) {id : ObjectId}
    (hid : Eval.fields? v = some id) : w.owners[id]? = some v := by
  cases h with
  | cls h =>
    cases h with
    | mk howner =>
      cases hid
      exact howner
  | object howner =>
    cases hid
    exact howner
  | _ => cases hid

lemma Store.Fits.distinct (hs : s.Fits sources w) (hvs : ∀ v ∈ vs, v.Fits sources w s) :
    s.Distinct vs where
  placed v id hv hid := by
    have howner := (hs.of_includes hvs hv).owner hid
    rw [hs.places]
    exact (List.getElem?_eq_some_iff.mp howner).1
  single u v id hu hv hid hid' := by
    have howner := (hs.of_includes hvs hu).owner hid
    exact Option.some.inj (howner.symm.trans ((hs.of_includes hvs hv).owner hid'))

lemma Value.Fits.classified (h : v.Fits sources w s) : v.Classified sources s := by
  cases h with
  | function h =>
    obtain ⟨⟨p, routine, g, hvisits, hf, hroutine, -⟩, hthis⟩ := h
    exact ⟨⟨p, routine, g, hvisits, hf, hroutine⟩, hthis⟩
  | cls h =>
    intro isStatic name m hm
    have hfits : m.Fits sources w s isStatic := by
      obtain @⟨_, _, _, _, metaclass, _, _, _, hmeta, hmethods⟩ := h
      cases isStatic with
      | false => exact hmethods name m hm
      | true =>
        cases metaclass with
        | none => cases hm
        | some mc =>
          cases hmeta mc rfl with
          | mk _ _ _ hmethods => exact hmethods name m hm
    obtain ⟨p, -, ⟨g, hvisits, hf, hinit⟩, -⟩ := hfits
    refine ⟨p, g, hvisits, hf, ?_⟩
    rw [hinit]
    exact Resolver.isInitializer_iff isStatic g
  | _ => trivial

end Lox
