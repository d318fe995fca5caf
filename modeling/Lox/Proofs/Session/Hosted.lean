import Lox.Proofs.Session.Alike
import Lox.Proofs.Session.Identity
import Lox.Proofs.Syntax.Dispatch

/-! Sessions in a process. The process counts the nodes of all trees, whatever session they are for,
and knows the native functions once they are registered. A session evaluates the trees that a parse
has returned, with the depths that its interpreter finds for their nodes. That comes to what the
session does with the program itself. -/

namespace Lox

/-! Machines. -/

/-- What outlives the sessions of a process. The table of depths is that of the latest
interpreter. -/
structure Machine where
  process : Process
  -- The native functions, once they are registered.
  natives : Option (List Native)

namespace Machine

def fresh : Machine := ⟨.start, none⟩

def parse (m : Machine) (r : Parse) : Machine := { m with process := m.process.parse r }

def parses (m : Machine) (rs : List Parse) : Machine := rs.foldl parse m

def renew (m : Machine) : Machine :=
  ⟨{ m.process with locals := [] }, some (m.natives.getD Native.all)⟩

def store (m : Machine) (time : Float) : Store :=
  let root : Frame := ⟨none, ⟨(m.natives.getD []).map fun native =>
    (native.name, ⟨.native native, true⟩)⟩⟩
  ⟨#[root], #[], 0, time, ""⟩

structure Sound (m : Machine) : Prop where
  distinct : m.process.Distinct
  natives : ∀ ns, m.natives = some ns → ns = Native.all

variable {m : Machine}

lemma sound_fresh : fresh.Sound := ⟨Process.distinct_start, fun _ h => nomatch h⟩

lemma Sound.parse (h : m.Sound) (r : Parse) : (m.parse r).Sound := ⟨h.distinct.parse r, h.natives⟩

lemma Sound.parses (h : m.Sound) (rs : List Parse) : (m.parses rs).Sound := by
  induction rs generalizing m with
  | nil => exact h
  | cons r rs ih => exact ih (h.parse r)

lemma parses_append (m : Machine) (rs rs' : List Parse) :
    m.parses (rs ++ rs') = (m.parses rs).parses rs' := List.foldl_append

lemma process_parses (m : Machine) (rs : List Parse) :
    (m.parses rs).process = m.process.runFrom rs := by
  induction rs generalizing m with
  | nil => rfl
  | cons r rs ih => exact ih (m.parse r)

lemma Sound.getD_natives (h : m.Sound) : m.natives.getD Native.all = Native.all := by
  cases hns : m.natives with
  | none => rfl
  | some ns => exact h.natives ns hns

lemma Sound.renew (h : m.Sound) : m.renew.Sound where
  distinct :=
    { below := h.distinct.below
      nodup := h.distinct.nodup
      recorded := fun _ hn => nomatch hn
      once := List.nodup_nil }
  natives _ hns := Option.some.inj hns ▸ h.getD_natives

lemma Sound.store_renew (h : m.Sound) (time : Float) : m.renew.store time = .initial time := by
  unfold Machine.renew store
  rw [h.getD_natives]
  rfl

end Machine

/-! Parses. -/

def Part.statement? : Part → Option Stmt
  | .stmt st => some st
  | .expr e => some (.expression e.firstToken.line e)
  | _ => none

def Tree.statements (ts : List Tree) : List Stmt := ts.filterMap fun t => t.part.statement?

lemma Tree.statements_program (body : List Stmt) : statements (body.map Stmt.tree) = body := by
  have hpart : ∀ st : Stmt, st.tree.part.statement? = some st := fun st => by
    rw [st.part_tree]
    rfl
  rw [statements, List.filterMap_map]
  exact (List.filterMap_congr fun st _ => hpart st).trans List.filterMap_some

namespace Parse

def ofPrelude : Parse := ⟨.program, .ofString Prelude.source, true⟩

def ofRun (source : String) : Parse :=
  ⟨.program, .ofString source, !(Program.compile source).hasError⟩

def ofInput (source : String) : Parse :=
  match Grammar.bareExpression? (Scan.ofString source) with
  | some e =>
    ⟨.bareExpression, .ofString source, !Diagnostic.hasError (Resolver.expression e).2⟩
  | none => ⟨.program, .ofString source, !(Program.ofSource source).hasError⟩

def attempts (source : String) : List Parse :=
  match Grammar.bareExpression? (Scan.ofString source) with
  | some _ => []
  | none =>
    if (Scan.ofString source).diagnostics.isEmpty then
      [⟨.bareExpression, .ofString source, false⟩]
    else []

def Yields (r : Parse) (p : Program) : Prop :=
  p.hasError = false → Tree.statements r.known.trees = p.body

end Parse

variable {source : String}

lemma Program.hasError_ofSource (h : (compile source).hasError = false) :
    (ofSource source).hasError = false := by
  cases hread : (ofSource source).hasError with
  | false => rfl
  | true =>
    rw [compile, resolveIfSound, if_pos hread, hread] at h
    exact h

lemma Program.body_compile (h : (compile source).hasError = false) :
    (compile source).body = (Resolver.program (ofSource source).body).1 := by
  rw [compile, resolveIfSound, hasError_ofSource h, if_neg Bool.false_ne_true]
  rfl

namespace Parse

lemma yields_program {isResolved : Bool}
    (hresolved : (Program.compile source).hasError = false → isResolved = true) :
    Yields ⟨.program, .ofString source, isResolved⟩ (.compile source) := by
  intro h
  have hknown : known ⟨.program, .ofString source, isResolved⟩ =
      .program (Resolver.program (Program.ofSource source).body).1 := by
    rw [hresolved h]
    rfl
  rw [hknown, Program.body_compile h]
  exact Tree.statements_program _

lemma yields_ofPrelude : ofPrelude.Yields Prelude.program := yields_program fun _ => rfl

lemma yields_ofRun (source : String) : (ofRun source).Yields (.compile source) :=
  yields_program fun h => by rw [h]; rfl

lemma yields_ofInput (source : String) : (ofInput source).Yields (.ofInput source) := by
  unfold ofInput Program.ofInput
  cases he : Grammar.bareExpression? (Scan.ofString source) with
  | none => exact yields_program fun h => by rw [Program.hasError_ofSource h]; rfl
  | some e =>
    intro h
    have hresolved : Diagnostic.hasError (Resolver.expression e).2 = false := h
    have hknown : known ⟨.bareExpression, .ofString source,
        !Diagnostic.hasError (Resolver.expression e).2⟩ =
        .expression (some (Resolver.expression e).1) := by
      rw [hresolved]
      simp only [known, parsed, he]
      rfl
    rw [hknown]
    change Tree.statements [(Resolver.expression e).1.tree] = _
    rw [Tree.statements, List.filterMap_cons, Expr.part_tree]
    rfl

end Parse

/-! Dumps. -/

namespace Tree

mutual

lemma pretty_bare (level : Nat) : (t : Tree) → t.bare.pretty level = t.pretty level
  | .node _ _ _ [] => rfl
  | .node label _ _ [leaf] => congrArg (indentation level ++ label ++ ·) (onlyLeaf_bare level leaf)
  | .node label _ _ (leaf :: leaf' :: more) =>
    congrArg (indentation level ++ label ++ "\n" ++ ·)
      (prettyLeaves_bare (level + 1) (leaf :: leaf' :: more))

lemma onlyLeaf_bare (level : Nat) : (l : Leaf) → onlyLeaf level (bareLeaf l) = onlyLeaf level l
  | .tree t => congrArg ("\n" ++ ·) (pretty_bare (level + 1) t)
  | .token _ | .value _ | .absent => rfl

lemma prettyLeaf_bare (level : Nat) :
    (l : Leaf) → prettyLeaf level (bareLeaf l) = prettyLeaf level l
  | .tree t => pretty_bare level t
  | .token _ | .value _ | .absent => rfl

lemma prettyLeaves_bare (level : Nat) :
    (ls : List Leaf) → prettyLeaves level (bareLeaves ls) = prettyLeaves level ls
  | [] => rfl
  | l :: ls => congrArg₂ (· ++ ·) (prettyLeaf_bare level l) (prettyLeaves_bare level ls)

end

lemma map_pretty_bare (ts : List Tree) : (ts.map bare).map (pretty 0) = ts.map (pretty 0) := by
  rw [List.map_map]
  exact List.map_congr_left fun t _ => pretty_bare 0 t

end Tree

/-! Sessions. -/

lemma Session.force_body (s : Session) (p : Program) (ds : List Diagnostic) :
    s.force ⟨p.body, ds⟩ = s.force p := rfl

structure Hosted where
  machine : Machine
  session : Session

namespace Hosted

def parse (h : Hosted) (r : Parse) : Hosted := { h with machine := h.machine.parse r }

def parses (h : Hosted) (rs : List Parse) : Hosted := { h with machine := h.machine.parses rs }

def found (h : Hosted) (r : Parse) : List Tree :=
  (r.build h.machine.process.next).1.map (Numbered.plain (h.machine.process.parse r).depth)

def conclude {β : Type} (h : Hosted) (r : Parse) (ds : List Diagnostic) (f : Value → β)
    (rejected failed : β) (trace : Trace) : Step β × Machine :=
  ((h.session.conclude ⟨Tree.statements (h.found r), ds⟩ f rejected failed trace).reporting ds,
    h.machine.parse r)

def loadPrelude (h : Hosted) : Hosted :=
  if h.session.hasPrelude then
    let body := Tree.statements (h.found .ofPrelude)
    ⟨h.machine.parse .ofPrelude, (h.session.force ⟨body, []⟩).session⟩
  else h

def start (m : Machine) (hasPrelude : Bool) (time : Float) : Hosted :=
  loadPrelude ⟨m.renew, ⟨hasPrelude, .standard, m.renew.store time⟩⟩

def run (h : Hosted) (source : String) (trace : Trace := .off) : Step ExitCode × Machine :=
  h.conclude (.ofRun source) (Program.compile source).diagnostics (fun _ => .success) .rejected
    .failed trace

def answer (h : Hosted) (source : String) (trace : Trace := .off) : Step (Option Value) × Machine :=
  (h.loadPrelude.parses (Parse.attempts source)).conclude (.ofInput source)
    (Program.ofInput source).diagnostics (Session.answered source) none none trace

variable {h : Hosted} (hm : h.machine.Sound)

include hm

lemma found_eq (r : Parse) : h.found r = r.known.trees := hm.distinct.plain_parse r

lemma statements_found {r : Parse} {p : Program} (hr : r.Yields p) (hp : p.hasError = false) :
    Tree.statements (h.found r) = p.body := by
  rw [found_eq hm]
  exact hr hp

lemma conclude_eq {β : Type} {r : Parse} {p : Program} (hr : r.Yields p) (f : Value → β)
    (x y : β) (trace : Trace) :
    h.conclude r p.diagnostics f x y trace =
      ((h.session.conclude p f x y trace).reporting p.diagnostics, h.machine.parse r) := by
  unfold conclude Session.conclude
  change (Step.reporting _ (if p.hasError then _ else _), _) = _
  cases hp : p.hasError with
  | true => rfl
  | false => rw [statements_found hm hr hp]

lemma loadPrelude_eq : h.loadPrelude =
    ⟨h.machine.parses (if h.session.hasPrelude then [.ofPrelude] else []),
      h.session.loadPrelude⟩ := by
  have hbody : Tree.statements (h.found .ofPrelude) = Prelude.program.body :=
    statements_found hm Parse.yields_ofPrelude Prelude.hasError_source
  have hforce := h.session.force_body Prelude.program []
  unfold loadPrelude Session.loadPrelude
  dsimp only
  rw [hbody, hforce]
  split <;> rfl

lemma run_eq (source : String) (trace : Trace) :
    h.run source trace = (h.session.run source trace, h.machine.parse (.ofRun source)) := by
  rw [run, conclude_eq hm (Parse.yields_ofRun source), ← Session.run_eq]

lemma answer_eq (source : String) (trace : Trace) :
    h.answer source trace = (h.session.answer source trace,
      h.machine.parses ((if h.session.hasPrelude then [.ofPrelude] else []) ++
        Parse.attempts source ++ [.ofInput source])) := by
  have hparses := (hm.parses (if h.session.hasPrelude then [.ofPrelude] else [])).parses
    (Parse.attempts source)
  rw [answer, loadPrelude_eq hm, parses, conclude_eq hparses (Parse.yields_ofInput source),
    ← Session.answer_eq, Machine.parses_append, Machine.parses_append]
  rfl

omit hm

lemma start_eq {m : Machine} (hm : m.Sound) (hasPrelude : Bool) (time : Float) :
    start m hasPrelude time =
      ⟨m.renew.parses (if hasPrelude then [.ofPrelude] else []), .start hasPrelude time⟩ := by
  rw [start, loadPrelude_eq hm.renew, hm.store_renew]
  rfl

end Hosted

/-! Requests. -/

def Request.parses (hasPrelude : Bool) : Request → List Parse
  | .run source => [.ofRun source]
  | .answer source =>
    (if hasPrelude then [.ofPrelude] else []) ++ Parse.attempts source ++ [.ofInput source]
  | .dump source => [⟨.program, .ofString source, false⟩]
  | .setTime _ => []

namespace Hosted

def dump (h : Hosted) (source : String) : Step ExitCode × Machine :=
  let ds := (Program.compile source).diagnostics
  let r : Parse := ⟨.program, .ofString source, false⟩
  let step : Step ExitCode :=
    if Diagnostic.hasError ds then h.session.idle .rejected
    else ⟨.ok .success, ⟨String.join ((h.found r).map (Tree.pretty 0)), ""⟩, h.session⟩
  (step.reporting ds, h.machine.parse r)

def serve (h : Hosted) : Request → Step Seen × Machine
  | .run source => let (step, m) := h.run source; (step.map .code, m)
  | .answer source =>
    let (step, m) := h.answer source; (step.map fun v => .text (v.map Value.text), m)
  | .dump source => let (step, m) := h.dump source; (step.map .code, m)
  | .setTime time => ((h.session.setTime time).idle .nothing, h.machine)

def next (h : Hosted) (r : Request) : Hosted :=
  let (step, m) := h.serve r
  ⟨m, step.session⟩

def after (h : Hosted) (rs : List Request) : Hosted := rs.foldl next h

def responses (h : Hosted) : List Request → List Response
  | [] => []
  | r :: more =>
    let step := (h.serve r).1
    ⟨step.result.mapError Abort.message, step.written⟩ :: (h.next r).responses more

variable {h : Hosted} (hm : h.machine.Sound)

include hm

lemma dump_eq (source : String) : h.dump source =
    (h.session.dump source, h.machine.parse ⟨.program, .ofString source, false⟩) := by
  have hdump : h.session.dump source =
      Step.reporting (Program.compile source).diagnostics
        (if (Program.compile source).hasError then h.session.idle .rejected
        else ⟨.ok .success, ⟨String.join ((Program.compile source).body.map fun st =>
          st.tree.pretty 0), ""⟩, h.session⟩) := by
    unfold Session.dump
    dsimp only
    split <;> rfl
  rw [dump, hdump]
  change (Step.reporting _ (if (Program.compile source).hasError then _ else _), _) = _
  cases hsource : (Program.compile source).hasError with
  | true => simp only [if_true]
  | false =>
    have hbare := Resolver.bare_program (Program.ofSource source).body
    have htext : (h.found ⟨.program, .ofString source, false⟩).map (Tree.pretty 0) =
        (Program.compile source).body.map fun st => st.tree.pretty 0 := by
      rw [found_eq hm, Program.body_compile hsource, ← Tree.map_pretty_bare]
      refine Eq.trans (congrArg (List.map (Tree.pretty 0)) hbare.symm) ?_
      rw [Tree.map_pretty_bare, List.map_map]
      rfl
    simp only [Bool.false_eq_true, if_false, htext]

lemma serve_eq (r : Request) : h.serve r =
    (h.session.serve r, h.machine.parses (r.parses h.session.hasPrelude)) := by
  cases r with
  | run source =>
    rw [serve, run_eq hm]
    rfl
  | answer source =>
    rw [serve, answer_eq hm]
    rfl
  | dump source =>
    rw [serve, dump_eq hm]
    rfl
  | setTime time => rfl

end Hosted

lemma Session.serve_keeps (s : Session) (r : Request) :
    (s.serve r).session.hasPrelude = s.hasPrelude := by
  cases r with
  | run source => exact s.run_keeps source .off
  | answer source => exact s.answer_keeps source .off
  | dump source =>
    unfold serve dump
    dsimp only
    split <;> rfl
  | setTime time => rfl

namespace Hosted

structure Follows (h : Hosted) (rs : List Request) : Prop where
  responses : h.responses rs = h.session.responses rs
  session : (h.after rs).session = h.session.after rs
  machine : (h.after rs).machine =
    h.machine.parses (rs.flatMap (Request.parses h.session.hasPrelude))

lemma follows {h : Hosted} (hm : h.machine.Sound) (rs : List Request) : h.Follows rs := by
  induction rs generalizing h with
  | nil => exact ⟨rfl, rfl, rfl⟩
  | cons r rs ih =>
    have hserve := serve_eq hm r
    have hnext : h.next r =
        ⟨h.machine.parses (r.parses h.session.hasPrelude), (h.session.serve r).session⟩ := by
      rw [next, hserve]
    have hmore := ih (h := h.next r) (by
      rw [hnext]
      exact hm.parses _)
    rw [hnext] at hmore
    refine ⟨?_, ?_, ?_⟩
    · rw [responses, hserve, hnext, hmore.responses]
      rfl
    · rw [after, List.foldl_cons, hnext]
      exact hmore.session
    · rw [after, List.foldl_cons, hnext, List.flatMap_cons, Machine.parses_append]
      have hmachine := hmore.machine
      rwa [Session.serve_keeps] at hmachine

end Hosted

structure Hosted.Parses (h : Hosted) (parses : List Parse) (rs : List Request) : Prop where
  process : (h.after rs).machine.process = .run parses
  kept : ∀ before r after, parses = before ++ r :: after →
    (r.build (Process.run before).next).1.map
      (Numbered.plain (h.after rs).machine.process.depth) = r.known.trees
  prelude : Parse.ofPrelude.Yields Prelude.program
  run : ∀ source, (Parse.ofRun source).Yields (.compile source)
  input : ∀ source, (Parse.ofInput source).Yields (.ofInput source)

lemma Session.requests_are_parses (hasPrelude : Bool) (time : Float) (rs : List Request) :
    let h := Hosted.start .fresh hasPrelude time
    let parses := (if hasPrelude then [Parse.ofPrelude] else []) ++
      rs.flatMap (Request.parses hasPrelude)
    h.responses rs = (start hasPrelude time).responses rs ∧
      (h.after rs).session = (start hasPrelude time).after rs ∧ h.Parses parses rs := by
  intro h parses
  have hstart : h = _ := Hosted.start_eq Machine.sound_fresh hasPrelude time
  have hkeeps : (start hasPrelude time).hasPrelude = hasPrelude := (loadPrelude_keeps _).1
  have hsound : h.machine.Sound := by
    rw [hstart]
    exact Machine.sound_fresh.renew.parses _
  have hsession : h.session = start hasPrelude time := by rw [hstart]
  obtain ⟨hresponses, hafter, hmachine⟩ := Hosted.follows hsound rs
  rw [hsession] at hresponses hafter hmachine
  have hprocess : (h.after rs).machine.process = .run parses := by
    rw [hmachine, hstart, hkeeps, ← Machine.parses_append, Machine.process_parses]
    rfl
  refine ⟨hresponses, hafter, hprocess, fun before r after hparses => ?_,
    Parse.yields_ofPrelude, Parse.yields_ofRun, Parse.yields_ofInput⟩
  have hdistinct : (Process.run before).Distinct := Process.distinct_start.runFrom before
  rw [hprocess, hparses, Process.run, Process.runFrom, List.foldl_append]
  exact hdistinct.plain_runFrom r after

/-! Answers. -/

namespace Session

variable {s : Session} {source : String}

lemma AnswersRun.written {trace : Trace} (h : s.AnswersRun source trace trace) :
    (s.answer source trace).written = (s.run source trace).written := by
  obtain ⟨herr, herr'⟩ := h.err
  exact congrArg₂ Written.mk h.out (herr.trans herr'.symm)

/-- In a session without a prelude, whatever its process has parsed before, an input that is an
expression does what it does as a program, but for the warnings, and has the value of that program.
Any other input does what it does when it is run, and writes the same. -/
theorem answer_agrees_with_run (s : Session) (m : Machine) (source : String)
    (hs : s.hasPrelude = false) (hm : m.Sound) :
    (∀ trace, Hosted.answer ⟨m, s⟩ source trace =
        (s.answer source trace, m.parses (Parse.attempts source ++ [.ofInput source]))) ∧
      (∀ program trace, Hosted.run ⟨m, s⟩ program trace =
        (s.run program trace, m.parse (.ofRun program))) ∧
      (∀ e, Grammar.bareExpression? (Scan.ofString source) = some e →
        ∀ trace trace', s.AnswersProgram source trace trace') ∧
      (Grammar.bareExpression? (Scan.ofString source) = none →
        (∀ trace trace', s.AnswersRun source trace trace') ∧
          ∀ trace, (s.answer source trace).written = (s.run source trace).written) := by
  have hload : s.loadPrelude = s := by simp [loadPrelude, hs]
  refine ⟨fun trace => ?_, fun program trace => Hosted.run_eq hm program trace,
    fun e he => answersProgram hload he, fun he => ?_⟩
  · have hanswer := Hosted.answer_eq (h := ⟨m, s⟩) hm source trace
    rwa [hs] at hanswer
  · have hruns := answersRun hload he
    exact ⟨hruns, fun trace => (hruns trace trace).written⟩

theorem answer_agrees_with_run_comment :
    let s : Session := ⟨false, .standard, .initial 0⟩
    let m := Machine.fresh.parse (.ofRun "\x7b var a; \x7d")
    let source := "nil // nothing"
    (Grammar.bareExpression? (Scan.ofString source)).isSome = true ∧
      (Hosted.answer ⟨m, s⟩ source).1 = s.answer source ∧
      s.AnswersProgram source .off .off := by
  intro s m source
  have hsome : (Grammar.bareExpression? (Scan.ofString source)).isSome = true := by
    decide +kernel
  obtain ⟨e, he⟩ := Option.isSome_iff_exists.mp hsome
  obtain ⟨hanswer, -, hprogram, -⟩ :=
    answer_agrees_with_run s m source rfl (Machine.sound_fresh.parse _)
  exact ⟨hsome, congrArg Prod.fst (hanswer .off), hprogram e he .off .off⟩

end Session

end Lox
