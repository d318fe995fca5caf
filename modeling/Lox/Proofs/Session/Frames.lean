import Lox.Proofs.Session.Reached

/-! Frames and scopes: wherever evaluation stands, the frames around it are those of the scopes that
the walk has seen there, and every name with a recorded depth is found at that depth. -/

namespace Lox

/-- The frames from one out to the global variables: there is one for each scope, and it binds only
what that scope declares. -/
def Store.Chain (s : Store) : FrameId → List Scope → Prop
  | frame, [] => frame = globals ∧ s.parent? frame = none
  | frame, scope :: outer =>
    frame ≠ globals ∧ (∀ name, s.binds frame name → scope.binds name) ∧
      ∃ parent, s.parent? frame = some parent ∧ s.Chain parent outer

def Initializing (sources : List String) (p : Site) (n : Piece) (s : Store) (holder : FrameId)
    (name : String) : Prop :=
  ∃ (q : Site) (t : Token) (e : Expr), Visits sources q (.stmt (.var t (some e))) ∧
    t.lexeme = name ∧ Reaches (q.passed (modify (·.declare t true))) (.expr e) p n ∧
      s.Chain holder q.closing

def FindsRead (sources : List String) (p : Site) (n : Piece) (s : Store) (frame : FrameId)
    (target : Reference) : Prop :=
  ∀ depth, target.depth = some depth → ∃ holder, s.ancestor? frame depth = some holder ∧
    (s.binds holder target.name.lexeme ∨ Initializing sources p n s holder target.name.lexeme)

def FindsDeclared (p : Site) (s : Store) (frame : FrameId) (target : Reference) : Prop :=
  ∀ depth, target.depth = some depth → ∃ holder scope, s.ancestor? frame depth = some holder ∧
    p.closing[depth]? = some scope ∧ scope.binds target.name.lexeme

def FindsAt (s : Store) (frame : FrameId) (depth : Nat) (name : String) : Prop :=
  ∃ holder, s.ancestor? frame depth = some holder ∧ s.binds holder name

def Expr.Finds (sources : List String) (p : Site) (n : Piece) (s : Store) (frame : FrameId) :
    Expr → Prop
  | .ref target => FindsRead sources p n s frame target
  | .assign target _ _ => FindsDeclared p s frame target
  | .this target => ∃ depth, target.depth = some depth ∧ FindsAt s frame depth "this"
  | .super target _ =>
    ∃ depth, target.depth = some (depth + 1) ∧ FindsAt s frame (depth + 1) "super" ∧
      FindsAt s frame depth "this"
  | _ => True

def Stmt.Finds (sources : List String) (p : Site) (n : Piece) (s : Store) (frame : FrameId) :
    Stmt → Prop
  | .classDecl _ (some target) _ _ _ => FindsRead sources p n s frame target
  | _ => True

structure Placed (sources : List String) (s : Store) (frame : FrameId) (p : Site) (n : Piece) :
    Prop where
  visits : Visits sources p n
  length : p.closing.length = p.scopes.stack.length
  chain : s.Chain frame p.closing

/-- A node that is evaluated in a frame is in its place. -/
def InPlace (sources : List String) (frame : FrameId) (node : Node) (s : Store) : Prop :=
  match node with
  | .expr e => ∃ p raw, Placed sources s frame p (.expr raw) ∧ e = p.expr raw ∧
      e.Finds sources p (.expr raw) s frame
  | .stmt st => ∃ p raw, Placed sources s frame p (.stmt raw) ∧ st = p.stmt raw ∧
      st.Finds sources p (.stmt raw) s frame

variable {sources : List String} {w : World} {s : Store} {frame : FrameId} {p : Site} {n : Piece}

lemma Follows.chain {outline : List (String → Option Bool)} {closing : List Scope}
    (h : Follows w s frame outline closing) (hs : s.Fits sources w) : s.Chain frame closing := by
  induction outline generalizing frame closing with
  | nil =>
    cases closing with
    | nil =>
      cases h
      exact ⟨rfl, hs.root⟩
    | cons => cases h
  | cons status outer ih =>
    cases closing with
    | nil => cases h
    | cons scope closing =>
      obtain ⟨hworld, -, parent, hparent, houter⟩ := h
      have hframe : frame ≠ Store.globals := by
        rintro rfl
        rw [hs.root] at hparent
        cases hparent
      refine ⟨hframe, fun name hname => ?_, parent, hparent, ih houter⟩
      obtain ⟨scope', hworld', hbinds⟩ := hs.names frame name hframe hname
      rw [hworld] at hworld'
      cases hworld'
      exact hbinds

lemma Stands.placed (h : Stands sources w s frame p n) (hsound : AllSound sources)
    (hs : s.Fits sources w) : Placed sources s frame p n where
  visits := h.visits
  length := by
    rw [(h.visits.sound hsound).covers.length, Scopes.length_outline]
  chain := h.follows.chain hs

lemma Stands.findsAt (h : Stands sources w s frame p n) {name : String} {depth : Nat}
    (hn : Scopes.nearest? name p.scopes.outline = some (depth, true)) :
    FindsAt s frame depth name := by
  obtain ⟨status, hstatus, hready⟩ := Scopes.getElem?_of_nearest? hn
  obtain ⟨holder, hholder, -, hbinds, -⟩ := h.follows.ancestor hstatus
  exact ⟨holder, hholder, hbinds name hready⟩

lemma Stands.findsRead (h : Stands sources w s frame p n) (hsound : AllSound sources)
    (hs : s.Fits sources w) (target : Reference) :
    FindsRead sources p n s frame (target.at p.scopes) := by
  intro depth hdepth
  rw [Reference.at, Scopes.depth?_eq] at hdepth
  obtain ⟨⟨d, ready⟩, hn, rfl⟩ := Option.map_eq_some_iff.mp hdepth
  obtain ⟨status, hstatus, hready⟩ := Scopes.getElem?_of_nearest? hn
  obtain ⟨holder, hholder, -, hbinds, hfollows⟩ := h.follows.ancestor hstatus
  refine ⟨holder, hholder, ?_⟩
  cases ready with
  | true => exact .inl (hbinds _ hready)
  | false =>
    obtain ⟨source, hmem, hreaches⟩ := h.visits
    obtain ⟨q, t, e, hq, ht, hinside, hclosing⟩ :=
      hreaches.initializing (Site.sound_top (hsound source hmem)) rfl hstatus hready
    refine .inr ⟨q, t, e, ⟨source, hmem, hq⟩, ht, hinside, ?_⟩
    rw [hclosing]
    exact hfollows.chain hs

lemma holds_inPlace (hsound : AllSound sources) : Holds sources (InPlace sources) where
  expr {w s frame p e} hs h := by
    have hsite := h.visits.sound hsound
    refine ⟨p, e, h.placed hsound hs, rfl, ?_⟩
    cases e with
    | ref target =>
      rw [hsite.ref.1]
      exact h.findsRead hsound hs target
    | assign target value line =>
      rw [hsite.assign]
      intro depth hdepth
      rw [Reference.at, Scopes.depth?_eq] at hdepth
      obtain ⟨⟨d, ready⟩, hn, rfl⟩ := Option.map_eq_some_iff.mp hdepth
      obtain ⟨status, hstatus, hready⟩ := Scopes.getElem?_of_nearest? hn
      obtain ⟨holder, hholder, -⟩ := h.follows.ancestor hstatus
      obtain ⟨scope, hscope, hbinds⟩ := hsite.covers.getElem? hstatus
      exact ⟨holder, scope, hholder, hscope, hbinds target.name.lexeme (by rw [hready]; rfl)⟩
    | this target =>
      obtain ⟨heq, depth, hn⟩ := hsite.this
      rw [heq]
      refine ⟨depth, ?_, h.findsAt hn⟩
      have hname : target.name.lexeme = "this" := hsite.wellFormed.2
      rw [Reference.at, Scopes.depth?_eq, hname, hn]
      rfl
    | super target method =>
      obtain ⟨heq, depth, hthis, hsuper⟩ := hsite.super
      rw [heq]
      refine ⟨depth, ?_, h.findsAt hsuper, h.findsAt hthis⟩
      have hname : target.name.lexeme = "super" := hsite.wellFormed.2.1
      rw [Reference.at, Scopes.depth?_eq, hname, hsuper]
      rfl
    | _ => exact trivial
  stmt {w s frame p st} hs h := by
    refine ⟨p, st, h.placed hsound hs, rfl, ?_⟩
    cases st with
    | classDecl name target line methods statics =>
      rw [Site.stmt_classDecl]
      cases target with
      | none => exact trivial
      | some parent =>
        rw [(h.visits.sound hsound).superclass.1]
        exact h.findsRead hsound hs parent
    | var name init => cases init <;> exact trivial
    | ifElse keyword c yes no => cases no <;> exact trivial
    | returnValue keyword value => cases value <;> exact trivial
    | _ => exact trivial

/-- In a session in which only sources without errors have been run, every evaluation of a node
takes place in frames that correspond one by one to the scopes that were open where the walk met
the node: a watch for this never interferes, whatever alarm it would raise. -/
theorem Session.frames_follow_scopes {session : Session} {source : String}
    (h : Reached sources session) (hsource : (Program.compile source).hasError = false) :
    (∀ alarm, session.forceWatched (InPlace (source :: sources)) alarm (.compile source) =
      session.force (.compile source)) ∧
      (session.force (.compile source)).result ≠ .error (.defect .depthTooLarge) := by
  have hsound : AllSound (source :: sources) := List.forall_mem_cons.mpr ⟨hsource, h.allSound⟩
  refine ⟨fun alarm => forceWatched_eq h hsource (holds_inPlace hsound) alarm, fun hdefect => ?_⟩
  exact harmless_force h hsource hdefect

theorem Session.frames_follow_scopes_twice :
    let first := "fun twice(f) \x7b return f() + f(); \x7d"
    let second := "\x7b var a = 2; print twice(fun () \x7b return a; \x7d); \x7d"
    let session := (Session.run ⟨false, .standard, .initial 0⟩ first).session
    Reached [first] session ∧ (Program.compile second).hasError = false ∧
      (∀ alarm, session.forceWatched (InPlace [second, first]) alarm (.compile second) =
        session.force (.compile second)) ∧
      (session.force (.compile second)).result ≠ .error (.defect .depthTooLarge) := by
  intro first second session
  have hreached : Reached [first] session := .run (.new false .standard 0) (by decide +kernel)
  have hsecond : (Program.compile second).hasError = false := by decide +kernel
  exact ⟨hreached, hsecond, frames_follow_scopes hreached hsecond⟩

end Lox
