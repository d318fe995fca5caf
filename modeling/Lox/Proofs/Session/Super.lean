import Lox.Proofs.Receiver.Execute
import Lox.Proofs.Session.Frames

/-! Sessions and superclasses: wherever a program uses the superclass, the lookup starts where the text
around the use says, and what it finds has the receiver that `this` stands for there. -/

namespace Lox

variable {sources : List String} {w : World} {s : Store} {frame : FrameId} {p : Site} {n : Piece}

lemma Visits.named (hsound : AllSound sources) {routine : Routine} {f : Function}
    (h : Visits sources p (.function routine f)) : (p.function routine f).Named := by
  have hparams := (h.sound hsound).wellFormed
  intro t ht
  rw [Function.paramNames_resolved] at ht
  obtain ⟨head, _ | params, line, body⟩ := f
  · exact absurd ht List.not_mem_nil
  · exact hparams.1 params rfl t ht

lemma Visits.named_members (hsound : AllSound sources) {isStatic : Bool} {fs : List Function}
    (h : Visits sources p (.members isStatic fs)) : ∀ f ∈ p.members isStatic fs, f.Named := by
  intro f hf
  obtain ⟨q, g, hvisits, rfl, -⟩ := h.mem_members hsound hf
  exact hvisits.named hsound

theorem Follows.around {outline : List (String → Option Bool)} {closing : List Scope}
    (h : Follows w s frame outline closing) (hs : s.Fits sources w)
    (hspares : List.Forall₂ (fun scope status =>
      ∀ name ∈ reservedNames, Scope.status scope name = status name) closing outline) {depth : Nat}
    (hn : Scopes.nearest? Eval.thisName outline = some (depth, true)) :
    ∃ holder, s.ancestor? frame depth = some holder ∧ s.Around frame holder := by
  induction hspares generalizing frame depth with
  | nil => cases hn
  | @cons scope status closing outer hscope _ ih =>
    obtain ⟨hworld, hready, parent, hparent, houter⟩ := h
    cases hstatus : status Eval.thisName with
    | some ready =>
      rw [Scopes.nearest?_cons_of_some hstatus] at hn
      cases hn
      exact ⟨frame, rfl, .here (hready _ hstatus)⟩
    | none =>
      rw [Scopes.nearest?_cons_of_none hstatus] at hn
      obtain ⟨⟨further, ready⟩, hfound, heq⟩ := Option.map_eq_some_iff.mp hn
      cases heq
      obtain ⟨holder, hholder, haround⟩ := ih houter hfound
      have hfree : ¬ s.binds frame Eval.thisName := by
        intro hbinds
        have hframe : frame ≠ Store.globals := by
          rintro rfl
          rw [hs.root] at hparent
          cases hparent
        obtain ⟨scope', hworld', hbound⟩ := hs.names frame _ hframe hbinds
        rw [hworld] at hworld'
        cases hworld'
        rw [Scope.binds_eq, hscope _ (by decide), hstatus] at hbound
        cases hbound
      refine ⟨holder, ?_, .outer hfree hparent haround⟩
      rw [Store.ancestor?, hparent]
      exact hholder

lemma Stands.findsSuper (h : Stands sources w s frame p n) (hsound : AllSound sources)
    (hs : s.Fits sources w) (target : Reference) (htarget : target.name.lexeme = Eval.superName)
    {depth : Nat} (hthis : Scopes.nearest? Eval.thisName p.scopes.outline = some (depth, true))
    (hsuper : Scopes.nearest? Eval.superName p.scopes.outline = some (depth + 1, true)) :
    ∃ holder inside, s.FindsSuper frame (target.at p.scopes) depth holder inside := by
  obtain ⟨holder, hholder, haround⟩ := h.follows.around hs (h.visits.spares hsound) hthis
  obtain ⟨inside, hinside, hbinds⟩ := h.findsAt hsuper
  refine ⟨holder, inside, htarget, ?_, hholder, haround, ?_, hbinds⟩
  · rw [Reference.at, Scopes.depth?_eq, htarget, hsuper]
    rfl
  · rw [← Store.ancestor?_succ hholder, hinside]

lemma holds_seen (hsound : AllSound sources) : Holds sources (Node.Seen sources) where
  expr {w s frame p e} hs h := by
    have hsite := h.visits.sound hsound
    cases e with
    | assign target value line =>
      rw [hsite.assign]
      exact ⟨hsite.wellFormed.2.1, trivial⟩
    | lambda f => exact ⟨(h.visits.enter .lambda).named hsound, trivial⟩
    | super target method =>
      obtain ⟨heq, depth, hthis, hsuper⟩ := hsite.super
      obtain ⟨holder, inside, hfinds⟩ :=
        h.findsSuper hsound hs target hsite.wellFormed.2.1 hthis hsuper
      have hdepth : p.scopes.depth? Eval.thisName = some depth :=
        (Scopes.depth?_eq p.scopes Eval.thisName).trans (congrArg (Option.map Prod.fst) hthis)
      rw [heq]
      exact ⟨trivial, p, _, depth, holder, inside, h.visits, heq, hdepth, hfinds⟩
    | _ => exact ⟨trivial, trivial⟩
  stmt {w s frame p st} hs h := by
    have hwell := (h.visits.sound hsound).wellFormed
    cases st with
    | var name init => cases init with
      | none => exact ⟨hwell, trivial⟩
      | some init => exact ⟨hwell.1, trivial⟩
    | function f =>
      refine ⟨⟨?_, (h.visits.enter .named).named hsound⟩, trivial⟩
      cases f
      exact hwell.1
    | classDecl name target line methods statics =>
      rw [Site.stmt_classDecl]
      exact ⟨⟨hwell.1, (h.visits.enter .methods).named_members hsound,
        (h.visits.enter .statics).named_members hsound⟩, trivial⟩
    | ifElse keyword c yes no => cases no <;> exact ⟨trivial, trivial⟩
    | returnValue keyword value => cases value <;> exact ⟨trivial, trivial⟩
    | _ => exact ⟨trivial, trivial⟩

lemma grants_superIsLexical (sources : List String) :
    Evaluator.Grants sources (SuperIsLexical sources) := by
  intro frame node s hseen h
  cases node with
  | stmt st => exact trivial
  | expr e =>
    cases e with
    | super target method => exact hseen.usesSuper h
    | _ => exact trivial

theorem Store.owned_initial (time : Float) : (Store.initial time).Owned where
  rooted := Nat.one_pos
  outermost := rfl
  unreserved name hname := by
    cases hx : (initial time).lookup? globals name with
    | none => rfl
    | some x =>
      obtain ⟨native, rfl, -⟩ := lookup?_initial hx
      cases native <;> exact absurd hname (by decide)
  descends := Store.descends_initial time
  «variables» id name x hx := by
    obtain ⟨native, -, rfl⟩ := lookup?_initial hx
    exact .native native
  fields id name v hv := by cases hv

lemma Store.Owned.same {s' : Store} (h : s.Owned) (hframes : s'.frames = s.frames)
    (hfields : s'.fields = s.fields) : s'.Owned := (h.congr hframes hfields).2

namespace Session

variable {session : Session} {source : String} {proper : FrameId → Node → Store → Prop}

theorem tracks_forceWatched (h : Reached sources session)
    (hsource : (Program.compile source).hasError = false) (hs : session.store.Owned)
    (hproper : Evaluator.Grants (source :: sources) proper) (alarm : Abort) :
    session.forceWatched proper alarm (.compile source) = session.force (.compile source) ∧
      (session.force (.compile source)).session.store.Owned := by
  have hsound : AllSound (source :: sources) := List.forall_mem_cons.mpr ⟨hsource, h.allSound⟩
  have hseen := forceWatched_eq h hsource (holds_seen hsound) (.defect .superUnresolved)
  have hstart : Store.Owned { session.store with output := "" } := hs.same rfl rfl
  have htracked := Evaluator.tracked_deepWatched hproper .superUnresolved alarm
    session.limits.turns session.limits.levels
  rcases htracked.program (Program.compile source).body .nil hstart with
    ⟨s', halarm⟩ | ⟨hsame, hend⟩
  · -- The alarm would be a defect, and the run under the first watch is that without one.
    have hdefect : (session.force (.compile source)).result =
        .error (.defect .superUnresolved) := by
      rw [← hseen, forceWatched, perform, halarm]
    exact (harmless_force h hsource hdefect).elim
  · rw [← hseen]
    unfold forceWatched perform
    refine ⟨by rw [hsame], ?_⟩
    split
    · next hact =>
      rw [hact] at hend
      exact hend.2.1
    · next hact =>
      rw [hact] at hend
      exact hend.2

end Session

theorem Reached.owned {session : Session} (h : Reached sources session) :
    session.store.Owned := by
  induction h with
  | new hasPrelude limits time => exact Store.owned_initial time
  | setTime _ time ih => exact ih.same rfl rfl
  | run h hsource ih =>
    rw [Session.session_run .off hsource]
    exact (Session.tracks_forceWatched h hsource ih (grants_superIsLexical _) .endless).2

theorem Reached.descends {session : Session} (h : Reached sources session) :
    session.store.Descends :=
  h.owned.descends

/-- In a session in which only sources without errors have been run, every use of the superclass
means what the text around it says. It stands in a member of a class that extends another one; the
lookup starts there, and finds nothing or a member that is given the receiver that `this` stands for
at that place. A watch for this never interferes, whatever alarm it would raise; and the distances that
the walk has recorded lead to frames in which receiver and superclass are found. -/
theorem Session.super_is_lexical {session : Session} {source : String}
    (h : Reached sources session) (hsource : (Program.compile source).hasError = false) :
    (∀ alarm, session.forceWatched (SuperIsLexical (source :: sources)) alarm (.compile source) =
      session.force (.compile source)) ∧
      ∀ d ∈ [Defect.superUnresolved, .superNotClass, .receiverMissing, .depthTooLarge],
        (session.force (.compile source)).result ≠ .error (.defect d) := by
  refine ⟨fun alarm => ?_, fun d _ hdefect => harmless_force h hsource hdefect⟩
  exact (tracks_forceWatched h hsource h.owned (grants_superIsLexical _) alarm).1

theorem Session.super_is_lexical_extended :
    let first := "class A \x7b n \x7b return 1; \x7d class m() \x7b return this(); \x7d \x7d"
    let second := "class B < A \x7b n \x7b return (fun () \x7b return super.n; \x7d)(); \x7d" ++
      "class m() \x7b return super.m(); \x7d \x7d print B.m().n;"
    let session := (Session.run ⟨false, .standard, .initial 0⟩ first).session
    Reached [first] session ∧ (Program.compile second).hasError = false ∧
      (∀ alarm, session.forceWatched (SuperIsLexical [second, first]) alarm (.compile second) =
        session.force (.compile second)) ∧
      ∀ d ∈ [Defect.superUnresolved, .superNotClass, .receiverMissing, .depthTooLarge],
        (session.force (.compile second)).result ≠ .error (.defect d) := by
  intro first second session
  have hreached : Reached [first] session := .run (.new false .standard 0) (by decide +kernel)
  have hsecond : (Program.compile second).hasError = false := by decide +kernel
  exact ⟨hreached, hsecond, super_is_lexical hreached hsecond⟩

end Lox
