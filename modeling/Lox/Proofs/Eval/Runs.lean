import Lox.Proofs.Eval.Fitting
import Lox.Proofs.Eval.Parts

namespace Lox

def Fault.isOrdinary : Fault → Bool
  | unknownOperator _ | unknownUnaryOperator _ => false
  | _ => true

def Abort.Harmless : Abort → Prop
  | failure f => f.fault.isOrdinary = true
  | defect _ => False
  | noRemainder | tooDeep | endless => True

abbrev Outcome (α : Type) := World → Store → α → Prop

def Ends {α : Type} (sources : List String) (w : World) (s : Store) (Q : Outcome α) :
    EStateM.Result Abort Store α → Prop
  | .ok x s' => ∃ w', Later w s w' s' ∧ s'.Fits sources w' ∧ Q w' s' x
  | .error e s' => e.Harmless ∧ ∃ w', Later w s w' s' ∧ s'.Fits sources w'

def Runs {α : Type} (sources : List String) (w : World) (s : Store) (act act' : Eval α)
    (Q : Outcome α) : Prop :=
  s.Fits sources w → act' s = act s ∧ Ends sources w s Q (act s)

namespace Runs

variable {α β : Type} {sources : List String} {w : World} {s : Store} {Q : Outcome α}
  {R : Outcome β}

lemma pure {x : α} (h : Q w s x) : Runs sources w s (pure x) (pure x) Q :=
  fun hs => ⟨rfl, w, .refl w s, hs, h⟩

lemma throw {e : Abort} (h : e.Harmless) :
    Runs sources w s (throw e : Eval α) (MonadExcept.throw e) Q :=
  fun hs => ⟨rfl, h, w, .refl w s, hs⟩

lemma bind {x x' : Eval α} {f f' : α → Eval β} (h : Runs sources w s x x' Q)
    (h' : ∀ w' s' a, Later w s w' s' → Q w' s' a → Runs sources w' s' (f a) (f' a) R) :
    Runs sources w s (x >>= f) (x' >>= f') R := by
  intro hs
  obtain ⟨heq, hends⟩ := h hs
  change (EStateM.bind x' f') s = (EStateM.bind x f) s ∧
    Ends sources w s R ((EStateM.bind x f) s)
  unfold EStateM.bind
  rw [heq]
  cases hx : x s with
  | ok a s' =>
    rw [hx] at hends
    obtain ⟨w', hl, hs', ha⟩ := hends
    obtain ⟨heq', hends'⟩ := h' w' s' a hl ha hs'
    refine ⟨heq', ?_⟩
    dsimp only
    cases hf : f a s' with
    | ok b s'' =>
      rw [hf] at hends'
      obtain ⟨w'', hl', hs'', hb⟩ := hends'
      exact ⟨w'', hl.trans hl', hs'', hb⟩
    | error e s'' =>
      rw [hf] at hends'
      obtain ⟨he, w'', hl', hs''⟩ := hends'
      exact ⟨he, w'', hl.trans hl', hs''⟩
  | error e s' =>
    rw [hx] at hends
    exact ⟨rfl, hends⟩

lemma mono {Q' : Outcome α} {x x' : Eval α} (h : Runs sources w s x x' Q)
    (hQ : ∀ w' s' a, Later w s w' s' → s'.Fits sources w' → Q w' s' a → Q' w' s' a) :
    Runs sources w s x x' Q' := by
  intro hs
  obtain ⟨heq, hends⟩ := h hs
  refine ⟨heq, ?_⟩
  cases hx : x s with
  | ok a s' =>
    rw [hx] at hends
    obtain ⟨w', hl, hs', ha⟩ := hends
    exact ⟨w', hl, hs', hQ w' s' a hl hs' ha⟩
  | error e s' =>
    rw [hx] at hends
    exact hends

theorem ok {act act' : Eval α} {x : α} {s' : Store} (h : Runs sources w s act act' Q)
    (hs : s.Fits sources w) (hact : act s = .ok x s') :
    ∃ w', Later w s w' s' ∧ s'.Fits sources w' ∧ Q w' s' x := by
  have hends := (h hs).2
  rwa [hact] at hends

theorem step {act : Eval α} {x : α} {s' : Store} (hact : act s = .ok x s')
    (h : s.Fits sources w → ∃ w', Later w s w' s' ∧ s'.Fits sources w' ∧ Q w' s' x) :
    Runs sources w s act act Q := by
  intro hs
  rw [hact]
  exact ⟨rfl, h hs⟩

theorem get {f f' : Store → Eval β} (h : s.Fits sources w → Runs sources w s (f s) (f' s) R) :
    Runs sources w s (MonadState.get >>= f) (MonadState.get >>= f') R :=
  fun hs => h hs hs

theorem fitting {x x' : Eval α} (h : s.Fits sources w → Runs sources w s x x' Q) :
    Runs sources w s x x' Q := fun hs => h hs hs

lemma fail {fault : Fault} (h : fault.isOrdinary = true) (t : Token) :
    Runs sources w s (Eval.fail fault t : Eval α) (Eval.fail fault t) Q := throw h

lemma located {r : Except Fault α} {t : Token}
    (herror : ∀ fault, r = .error fault → fault.isOrdinary = true)
    (hok : ∀ x, r = .ok x → Q w s x) :
    Runs sources w s (Eval.located t r) (Eval.located t r) Q := by
  cases r with
  | ok x => exact pure (hok x rfl)
  | error fault => exact fail (herror fault rfl) t

theorem reportingDepth {x x' : Eval α} (h : Runs sources w s x x' Q) (t : Option Token) :
    Runs sources w s (Eval.reportingDepth t x) (Eval.reportingDepth t x') Q := by
  intro hs
  obtain ⟨heq, hends⟩ := h hs
  unfold Eval.reportingDepth
  rw [heq]
  refine ⟨rfl, ?_⟩
  cases hx : x s with
  | ok a s' =>
    rw [hx] at hends
    exact hends
  | error e s' =>
    rw [hx] at hends
    cases e with
    | tooDeep => exact ⟨rfl, hends.2⟩
    | _ => exact hends

end Runs

lemma Store.isOrdinary_readIn {s : Store} {id : FrameId} {name : String} {fault : Fault}
    (h : s.readIn id name = .error fault) : fault.isOrdinary = true := by
  rw [readIn_eq] at h
  split at h
  · split at h <;> cases h
    rfl
  · cases h
    rfl

lemma Store.Fits.readIn {sources : List String} {w : World} {s : Store} (h : s.Fits sources w)
    {id : FrameId} {name : String} {v : Value} (hv : s.readIn id name = .ok v) :
    v.FitsAs sources w s name := by
  rw [readIn_eq] at hv
  split at hv
  · next x hx =>
    split at hv
    · cases hv
      exact (h.variables id name x hx).value
    · cases hv
  · cases hv

namespace Eval

variable {sources : List String} {w : World} {s : Store} {frame : FrameId}
  {outline : List (String → Option Bool)} {closing : List Scope}

lemma runs_ancestor {holder : FrameId} {depth : Nat}
    (h : s.ancestor? frame depth = some holder) :
    Runs sources w s (ancestor frame depth) (ancestor frame depth) fun _ _ a => a = holder := by
  refine .get fun _ => ?_
  rw [h]
  exact .pure rfl

theorem runs_readAt (h : Follows w s frame outline closing) {depth : Nat}
    {status : String → Option Bool} (hd : outline[depth]? = some status) (t : Token) :
    Runs sources w s (readAt frame depth t) (readAt frame depth t) fun w' s' v =>
      v.FitsAs sources w' s' t.lexeme := by
  obtain ⟨holder, hholder, -⟩ := h.ancestor hd
  refine (runs_ancestor hholder).bind fun w' s' a _ _ => ?_
  exact .get fun hs' => .located (fun fault hf => Store.isOrdinary_readIn hf) fun v hv => hs'.readIn hv

lemma runs_readNearest (t : Token) :
    Runs sources w s (readNearest frame t) (readNearest frame t) fun w' s' v =>
      v.FitsAs sources w' s' t.lexeme := by
  refine .get fun hs => .located (fun fault hf => ?_) fun v hv => ?_
  · unfold Store.readNearest at hf
    split at hf
    · exact Store.isOrdinary_readIn hf
    · cases hf
      rfl
  · unfold Store.readNearest at hv
    split at hv
    · exact hs.readIn hv
    · cases hv

lemma runs_define {id : FrameId} {name : String} {v : Value} (hid : id < s.frames.size)
    (hname : id ≠ Store.globals → ∃ scope, w.scopes[id]? = some scope ∧ scope.binds name)
    (hv : ∀ {s'}, Later w s w s' → s'.binds id name → v.Fits sources w s')
    (hthis : name ≠ thisName) (hsuper : name = superName → ∃ c, v = .cls c) :
    Runs sources w s (define id name v) (define id name v) fun _ s' _ => s'.binds id name := by
  refine .step rfl fun hs => ?_
  obtain ⟨hl, hbound⟩ := Store.later_define (x := ⟨v, true⟩) w s hid (absurd · hthis)
  have hbinds := Store.binds_of_lookup? hbound
  have hvalue : v.FitsAs sources w (s.define id name ⟨v, true⟩) name :=
    ⟨hv hl hbinds, (absurd · hthis), hsuper⟩
  exact ⟨w, hl, hs.define hid (absurd · hthis) hname ⟨hvalue, fun _ => rfl⟩, hbinds⟩

theorem runs_defineThis {id : FrameId} {v : Value} (hid : id < s.frames.size)
    (hname : id ≠ Store.globals → ∃ scope, w.scopes[id]? = some scope ∧ scope.binds thisName)
    (hfresh : s.lookup? id thisName = none) (hv : v.Fits sources w s) (hthis : v.Receives false) :
    Runs sources w s (define id thisName v) (define id thisName v)
      fun _ s' _ => s'.lookup? id thisName = some ⟨v, true⟩ := by
  refine .step rfl fun hs => ?_
  obtain ⟨hl, hbound⟩ := Store.later_define (x := ⟨v, true⟩) w s hid fun _ => hfresh
  have hvalue : v.FitsAs sources w (s.define id thisName ⟨v, true⟩) thisName :=
    ⟨hv.later hl, fun _ => hthis, fun hsuper => absurd hsuper (by decide)⟩
  exact ⟨w, hl, hs.define hid (fun _ => hfresh) hname ⟨hvalue, fun _ => rfl⟩, hbound⟩

theorem runs_declare {id : FrameId} {t : Token} (hid : id < s.frames.size)
    (hname : id ≠ Store.globals → ∃ scope, w.scopes[id]? = some scope ∧ scope.binds t.lexeme)
    (ht : t.IsName) :
    Runs sources w s (declare id t.lexeme) (declare id t.lexeme)
      fun _ s' _ => s'.binds id t.lexeme := by
  refine .step rfl fun hs => ?_
  obtain ⟨hl, hbound⟩ := Store.later_define (x := ⟨.nil, false⟩) w s hid (absurd · ht.2.1)
  have hvalue : Value.FitsAs sources w (s.define id t.lexeme ⟨.nil, false⟩) t.lexeme .nil :=
    ⟨.nil, (absurd · ht.2.1), (absurd · ht.2.2)⟩
  refine ⟨w, hl, hs.define hid (absurd · ht.2.1) hname ⟨hvalue, fun h => ?_⟩,
    Store.binds_of_lookup? hbound⟩
  exact h.elim (absurd · ht.2.1) (absurd · ht.2.2)

theorem runs_assignAt (h : Follows w s frame outline closing) {depth : Nat}
    {scope : Scope} {status : String → Option Bool} (hd : outline[depth]? = some status)
    (hscope : closing[depth]? = some scope) {t : Token} (ht : t.IsName)
    (hbinds : scope.binds t.lexeme) {v : Value} (hv : v.Fits sources w s) :
    Runs sources w s (assignAt frame depth t v) (assignAt frame depth t v) fun _ _ _ => True := by
  obtain ⟨holder, hholder, hworld, -, hfollows⟩ := h.ancestor hd
  refine (runs_ancestor hholder).bind fun w' s' a hl ha => .fitting fun hs' => ?_
  subst ha
  have hworld' : w'.scopes[a]? = some scope := getElem?_mono hl.world (hworld.trans hscope)
  refine (runs_define ((hfollows.later hl).lt_size hs') (fun _ => ⟨scope, hworld', hbinds⟩)
    (fun hl' _ => hv.later (hl.trans hl')) ht.2.1 fun hsuper => ?_).mono fun _ _ _ _ _ _ => trivial
  exact absurd hsuper ht.2.2

theorem runs_assignNearest {t : Token} (ht : t.IsName) {v : Value} (hv : v.Fits sources w s) :
    Runs sources w s (assignNearest Store.globals t v) (assignNearest Store.globals t v)
      fun _ _ _ => True := by
  refine .get fun hs => ?_
  have hholder : ∀ holder, s.holder? Store.globals t.lexeme = some holder →
      holder = Store.globals := by
    intro holder hh
    change s.holderWithin t.lexeme 1 Store.globals = some holder at hh
    unfold Store.holderWithin at hh
    split at hh
    · exact (Option.some.inj hh).symm
    · rw [hs.root] at hh
      cases hh
  cases hh : s.holder? Store.globals t.lexeme with
  | none => exact .fail rfl t
  | some holder =>
    rw [hholder holder hh]
    refine (runs_define hs.rooted (fun hne => absurd rfl hne) (fun hl _ => hv.later hl) ht.2.1
      fun hsuper => ?_).mono fun _ _ _ _ _ _ => trivial
    exact absurd hsuper ht.2.2

end Eval

end Lox
