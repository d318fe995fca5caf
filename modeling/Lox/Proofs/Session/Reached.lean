import Lox.Proofs.Eval.Attach
import Lox.Proofs.Eval.Watch
import Lox.Session

/-! Reached sessions: the states in which error-free sources leave a session, one after another. -/

namespace Lox

/-- A session in which the given sources, none of which has an error, have been run, the latest
first; each of them may have ended early. -/
inductive Reached : List String → Session → Prop where
  | new (hasPrelude : Bool) (limits : Limits) (time : Float) :
    Reached [] ⟨hasPrelude, limits, .initial time⟩
  | setTime {sources : List String} {session : Session} (h : Reached sources session)
      (time : Float) : Reached sources (session.setTime time)
  | run {sources : List String} {session : Session} {source : String} (h : Reached sources session)
      (hsource : (Program.compile source).hasError = false) :
    Reached (source :: sources) (session.run source).session

lemma Step.session_catchFailure {α : Type} (x : α) (trace : Trace) (step : Step α) :
    (step.catchFailure x trace).session = step.session := by
  unfold catchFailure
  split <;> rfl

namespace Session

variable {session : Session} {source : String}

lemma execute?_eq (h : (Program.compile source).hasError = false) :
    session.execute? (.compile source) = some (session.force (.compile source)) := by
  rw [execute?, h, if_neg Bool.false_ne_true]

lemma evaluator_eq (session : Session) :
    session.evaluator = .deep session.limits.turns session.limits.levels :=
  session.limits.evaluator_eq

lemma session_run (trace : Trace) (h : (Program.compile source).hasError = false) :
    (session.run source trace).session = (session.force (.compile source)).session := by
  simp only [run, execute?_eq h]
  exact Step.session_catchFailure _ _ _

end Session

lemma Reached.allSound {sources : List String} {session : Session}
    (h : Reached sources session) : AllSound sources := by
  induction h with
  | new => exact fun source hsource => absurd hsource List.not_mem_nil
  | setTime _ _ ih => exact ih
  | run _ hsource ih => exact List.forall_mem_cons.mpr ⟨hsource, ih⟩

variable {sources : List String} {w : World}

theorem Store.lookup?_initial {time : Float} {id : FrameId} {name : String} {x : Variable}
    (hx : (Store.initial time).lookup? id name = some x) :
    ∃ native : Native, native.name = name ∧ x = ⟨.native native, true⟩ := by
  have hnative : ∀ natives : List Native,
      Table.findIn name (natives.map fun native => (native.name, Variable.mk (.native native) true)) =
        some x → ∃ native ∈ natives, native.name = name ∧ x = ⟨.native native, true⟩ := by
    intro natives hx
    induction natives with
    | nil => cases hx
    | cons native natives ih =>
      rw [List.map_cons, Table.findIn] at hx
      split at hx
      · next hname => exact ⟨native, List.mem_cons_self, hname, (Option.some.inj hx).symm⟩
      · obtain ⟨other, hother, hrest⟩ := ih hx
        exact ⟨other, List.mem_cons_of_mem native hother, hrest⟩
  cases id with
  | zero =>
    obtain ⟨native, -, hrest⟩ := hnative Native.all hx
    exact ⟨native, hrest⟩
  | succ id => cases hx

lemma Store.fits_initial (sources : List String) (time : Float) :
    (Store.initial time).Fits sources ⟨[.empty], []⟩ := by
  refine ⟨rfl, rfl, rfl, Nat.one_pos, fun id name hid hb => ?_, fun id name x hx => ?_,
    fun id name v hv => ?_⟩
  · cases id with
    | zero => exact absurd rfl hid
    | succ id => cases hb
  · obtain ⟨native, hname, rfl⟩ := lookup?_initial hx
    have hreserved : name ≠ Eval.thisName ∧ name ≠ Eval.superName := by
      rw [← hname]
      cases native <;> decide
    exact ⟨⟨.native native, (absurd · hreserved.1), (absurd · hreserved.2)⟩, fun _ => rfl⟩
  · cases hv

lemma Store.Fits.same {s s' : Store} (h : s.Fits sources w) (hframes : s'.frames = s.frames)
    (hfields : s'.fields = s.fields) : s'.Fits sources w := (h.congr hframes hfields).2

theorem Stands.top {s : Store} {source : String} (h : source ∈ sources) :
    Stands sources w s Store.globals .top (.stmts (Program.ofSource source).body) :=
  ⟨⟨source, h, .here⟩, rfl⟩

theorem Session.runs_body (session : Session) (w : World) (hsound : AllSound sources)
    {source : String} (h : source ∈ sources)
    {proper : FrameId → Node → Store → Prop} (hproper : Holds sources proper) (alarm : Abort) :
    let store := { session.store with output := "" }
    Runs sources w store
      (Eval.program session.evaluator .nil (Program.compile source).body)
      (Eval.program
        (.deepWatched proper alarm session.limits.turns session.limits.levels) .nil
        (Program.compile source).body)
      fun w' s' v => v.Fits sources w' s' := by
  intro store
  obtain ⟨hread, hbody, -⟩ := Program.compile_body (hsound source h)
  rw [hbody, evaluator_eq]
  exact (agrees_deepWatched hsound hproper alarm _ _).program hsound (.top h) rfl
    (Program.wellFormed hread).2 .nil

lemma Session.ends_force {session : Session} (hs : session.store.Fits sources w)
    (hsound : AllSound sources) {source : String} (h : source ∈ sources) :
    Ends sources w { session.store with output := "" } (fun _ _ _ => True)
      (Eval.program session.evaluator .nil (Program.compile source).body
        { session.store with output := "" }) := by
  have hstart : Store.Fits sources w { session.store with output := "" } := hs.same rfl rfl
  have hruns := session.runs_body w hsound h (holds_true sources) .endless
  exact ((hruns.mono fun _ _ _ _ _ _ => trivial) hstart).2

theorem Reached.fits {session : Session} (h : Reached sources session) {more : List String}
    (hmore : sources ⊆ more) (hsound : AllSound more) : ∃ w, session.store.Fits more w := by
  induction h with
  | new hasPrelude limits time => exact ⟨_, Store.fits_initial more time⟩
  | @setTime sources session _ time ih =>
    obtain ⟨w, hw⟩ := ih hmore
    exact ⟨w, hw.same rfl rfl⟩
  | @run sources session source _ hsource ih =>
    obtain ⟨w, hw⟩ := ih fun x hx => hmore (List.mem_cons_of_mem source hx)
    have hends := session.ends_force hw hsound (hmore List.mem_cons_self)
    rw [Session.session_run .off hsource]
    unfold Session.force Session.perform
    cases hact : Eval.program session.evaluator .nil (Program.compile source).body
        { session.store with output := "" } with
    | ok v s' =>
      rw [hact] at hends
      obtain ⟨w', -, hs', -⟩ := hends
      exact ⟨w', hs'⟩
    | error e s' =>
      rw [hact] at hends
      obtain ⟨-, w', -, hs'⟩ := hends
      exact ⟨w', hs'⟩

theorem Session.harmless_force {session : Session} {source : String} (h : Reached sources session)
    (hsource : (Program.compile source).hasError = false) {e : Abort}
    (he : (session.force (.compile source)).result = .error e) : e.Harmless := by
  have hsound : AllSound (source :: sources) := List.forall_mem_cons.mpr ⟨hsource, h.allSound⟩
  obtain ⟨w, hw⟩ := h.fits (List.subset_cons_self source sources) hsound
  have hends := session.ends_force hw hsound List.mem_cons_self
  unfold Session.force Session.perform at he
  cases hact : Eval.program session.evaluator .nil (Program.compile source).body
      { session.store with output := "" } with
  | ok v s' =>
    rw [hact] at he
    cases he
  | error e' s' =>
    rw [hact] at he hends
    cases he
    exact hends.1

/-- Runs a program under a watch. -/
noncomputable def Session.forceWatched (session : Session)
    (proper : FrameId → Node → Store → Prop) (alarm : Abort) (p : Program) : Step Value :=
  session.perform <| Eval.program
    (.deepWatched proper alarm session.limits.turns session.limits.levels) .nil p.body

lemma Session.forceWatched_eq {session : Session} {source : String} (h : Reached sources session)
    (hsource : (Program.compile source).hasError = false)
    {proper : FrameId → Node → Store → Prop} (hproper : Holds (source :: sources) proper)
    (alarm : Abort) :
    session.forceWatched proper alarm (.compile source) = session.force (.compile source) := by
  have hsound : AllSound (source :: sources) := List.forall_mem_cons.mpr ⟨hsource, h.allSound⟩
  obtain ⟨w, hw⟩ := h.fits (List.subset_cons_self source sources) hsound
  have hstart : Store.Fits (source :: sources) w { session.store with output := "" } :=
    hw.same rfl rfl
  have hruns := session.runs_body w hsound List.mem_cons_self hproper alarm hstart
  unfold forceWatched force perform
  rw [hruns.1]

end Lox
