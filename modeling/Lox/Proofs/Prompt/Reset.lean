import Lox.Prompt
import Lox.Proofs.Session.Hosted
import Lox.Proofs.Session.Rejected

/-! Resetting the prompt: whatever was answered before, the lines after a reset are answered as they
are at the start. What outlives a reset is what the process keeps beside its session: the switch for
tracing, the counter of nodes with the trees that have been returned, and the native functions. -/

namespace Lox

lemma Store.declareGlobals_withTime (fs : List Function) (s : Store) (time : Float) :
    fs.foldl declareGlobal { s with time } = { fs.foldl declareGlobal s with time } := by
  induction fs generalizing s with
  | nil => rfl
  | cons f fs ih => exact ih (s.declareGlobal f)

lemma Session.start_true (time : Float) :
    start true time =
      ⟨true, .standard, Prelude.functions.foldl Store.declareGlobal (.initial time)⟩ :=
  store_loadPrelude ⟨true, .standard, .initial time⟩ rfl (Nat.succ_pos _)

theorem Session.setTime_start (hasPrelude : Bool) (time time' later : Float) :
    (start hasPrelude time).setTime later = (start hasPrelude time').setTime later := by
  cases hasPrelude with
  | false => rfl
  | true =>
    have hset : ∀ t : Float, (start true t).setTime later =
        ⟨true, .standard, Prelude.functions.foldl Store.declareGlobal (.initial later)⟩ := by
      intro t
      rw [start_true, setTime, ← Store.declareGlobals_withTime]
      rfl
    rw [hset time, hset time']

namespace Prompt

/-- A line, and what the clock answers while it is served; without a text it is an interrupt. -/
structure Line where
  time : Float
  text : Option String

def concernsTracing (text : Option String) : Bool :=
  match text.bind fun text => Directive.ofLine? (normalize text.toList) with
  | some (.trace _) => true
  | _ => false

def serve (p : Prompt) (line : Line) : Reply :=
  { p with session := p.session.setTime line.time }.submit line.text

def replies (p : Prompt) : List Line → List Reply
  | [] => []
  | line :: more =>
    let reply := p.serve line
    match reply.abort with
    | some _ => [reply]
    | none => reply :: reply.prompt.replies more

structure Keeps (p q : Prompt) : Prop where
  hasPrelude : q.session.hasPrelude = p.session.hasPrelude
  host : q.host = p.host

lemma Keeps.refl (p : Prompt) : p.Keeps p := ⟨rfl, rfl⟩

lemma Keeps.trans {p q r : Prompt} (h : p.Keeps q) (h' : q.Keeps r) : p.Keeps r :=
  ⟨h'.hasPrelude.trans h.hasPrelude, h'.host.trans h.host⟩

variable {hasPrelude tracing : Bool} {time : Float} {stack : Stack} {text : Option String}

lemma keeps_reply (p : Prompt) {step : Step (Option Value)}
    (h : step.session.hasPrelude = p.session.hasPrelude) : p.Keeps (p.reply step).prompt := by
  unfold reply
  dsimp only
  split
  · split <;> exact ⟨h, rfl⟩
  · exact ⟨h, rfl⟩
  · exact ⟨h, rfl⟩

lemma keeps_evaluate (p : Prompt) (source : String) : p.Keeps (p.evaluate source).prompt :=
  p.keeps_reply (p.session.answer_keeps source _)

lemma keeps_obey (p : Prompt) {d : Directive} (h : ∀ switch, d ≠ .trace switch) :
    p.Keeps (p.obey d).prompt := by
  cases d with
  | clear => exact .refl p
  | trace switch => exact absurd rfl (h switch)
  | reset => exact ⟨(Session.loadPrelude_keeps _).1, rfl⟩
  | unknown name => exact .refl p

theorem keeps_submit (p : Prompt) (h : concernsTracing text = false) :
    p.Keeps (p.submit text).prompt := by
  cases text with
  | none => exact .refl p
  | some text =>
    unfold submit
    dsimp only
    split
    · exact .refl p
    · cases hd : Directive.ofLine? (normalize text.toList) with
      | none => exact p.keeps_evaluate _
      | some d =>
        refine p.keeps_obey fun switch htrace => ?_
        simp only [concernsTracing, Option.bind_some, hd, htrace, reduceCtorEq] at h

theorem submit_reset {p : Prompt} (h : (start hasPrelude tracing time stack).Keeps p) :
    p.submit (some resetName) = ⟨none, ⟨"Environment reset.\n", ""⟩,
      start hasPrelude tracing p.session.store.time stack⟩ := by
  have hprelude : p.session.hasPrelude = hasPrelude :=
    h.hasPrelude.trans (Session.loadPrelude_keeps _).1
  have hhost : p.host = ⟨tracing, stack⟩ := h.host
  have hline : (Text.trim (normalize resetName.toList)).isEmpty = false := by decide
  have hdirective : Directive.ofLine? (normalize resetName.toList) = some .reset := by decide
  rw [start, ← hprelude, ← hhost]
  simp only [submit, hline, hdirective, Bool.false_eq_true, if_false]
  rfl

theorem replies_start (hasPrelude tracing : Bool) (time time' : Float) (stack : Stack)
    (lines : List Line) :
    (start hasPrelude tracing time stack).replies lines =
      (start hasPrelude tracing time' stack).replies lines := by
  cases lines with
  | nil => rfl
  | cons line more =>
    have hserve : (start hasPrelude tracing time stack).serve line =
        (start hasPrelude tracing time' stack).serve line := by
      unfold serve start
      dsimp only
      rw [Session.setTime_start hasPrelude time time' line.time]
    rw [replies, replies, hserve]

theorem replies_append {p : Prompt} {A : List Line} (hdone : ∀ r ∈ p.replies A, r.abort = none)
    (htrace : ∀ line ∈ A, concernsTracing line.text = false) :
    ∃ q : Prompt, p.Keeps q ∧ ∀ more, p.replies (A ++ more) = p.replies A ++ q.replies more := by
  induction A generalizing p with
  | nil => exact ⟨p, .refl p, fun _ => rfl⟩
  | cons line A ih =>
    rw [List.forall_mem_cons] at htrace
    have hkeeps : p.Keeps (p.serve line).prompt :=
      have hsubmit := keeps_submit { p with session := p.session.setTime line.time } htrace.1
      ⟨hsubmit.hasPrelude, hsubmit.host⟩
    cases habort : (p.serve line).abort with
    | some e =>
      have hmem : p.serve line ∈ p.replies (line :: A) := by simp only [replies, habort,
        List.mem_singleton]
      rw [hdone _ hmem] at habort
      cases habort
    | none =>
      simp only [replies, habort, List.forall_mem_cons] at hdone
      obtain ⟨q, hq, hmore⟩ := ih hdone.2 htrace.2
      refine ⟨q, hkeeps.trans hq, fun more => ?_⟩
      simp only [List.cons_append, replies, habort, hmore]

theorem submitAll_append {p : Prompt} {A : List (Option String)} {written : List Written}
    (hdone : p.submitAll A = (written, none))
    (htrace : ∀ text ∈ A, concernsTracing text = false) :
    ∃ (before : List Written) (q : Prompt), p.Keeps q ∧ written = before ++ [⟨farewell, ""⟩] ∧
      ∀ more, p.submitAll (A ++ more) =
        (before ++ (q.submitAll more).1, (q.submitAll more).2) := by
  induction A generalizing p written with
  | nil =>
    cases hdone
    exact ⟨[], p, .refl p, rfl, fun _ => rfl⟩
  | cons text A ih =>
    rw [List.forall_mem_cons] at htrace
    have hkeeps := p.keeps_submit htrace.1
    cases habort : (p.submit text).abort with
    | some e =>
      simp only [submitAll, habort, Prod.mk.injEq, reduceCtorEq, and_false] at hdone
    | none =>
      simp only [submitAll, habort, Prod.mk.injEq] at hdone
      obtain ⟨before, q, hq, hend, hmore⟩ := ih (Prod.ext rfl hdone.2) htrace.2
      refine ⟨(p.submit text).written :: before, q, hkeeps.trans hq, ?_, fun more => ?_⟩
      · exact hdone.1.symm.trans (congrArg (_ :: ·) hend)
      · simp only [List.cons_append, submitAll, habort, hmore]

theorem replies_reset (hasPrelude tracing : Bool) (time : Float) (stack : Stack) {A : List Line}
    (hdone : ∀ r ∈ (start hasPrelude tracing time stack).replies A, r.abort = none)
    (htrace : ∀ line ∈ A, concernsTracing line.text = false) (B : List Line)
    (resetAt time' : Float) :
    ∃ r : Reply, r.abort = none ∧ r.written = ⟨"Environment reset.\n", ""⟩ ∧
      (start hasPrelude tracing time stack).replies (A ++ ⟨resetAt, some "/reset"⟩ :: B) =
        (start hasPrelude tracing time stack).replies A ++
          r :: (start hasPrelude tracing time' stack).replies B := by
  obtain ⟨q, hq, hmore⟩ := replies_append hdone htrace
  let timed : Prompt := { q with session := q.session.setTime resetAt }
  have hreset := submit_reset (p := timed) ⟨hq.hasPrelude, hq.host⟩
  refine ⟨timed.submit (some resetName), ?_, ?_, (hmore _).trans (congrArg _ ?_)⟩
  · rw [hreset]
  · rw [hreset]
  · have hserve : q.serve ⟨resetAt, some "/reset"⟩ = timed.submit (some resetName) := rfl
    rw [replies, hserve, hreset]
    exact congrArg _ (replies_start hasPrelude tracing resetAt time' stack B)

lemma submitAll_reset (hasPrelude tracing : Bool) (time : Float) (stack : Stack)
    {A : List (Option String)} {written : List Written}
    (hdone : (start hasPrelude tracing time stack).submitAll A = (written, none))
    (htrace : ∀ text ∈ A, concernsTracing text = false) (B : List (Option String)) :
    ∃ (before : List Written) (resetAt : Float), written = before ++ [⟨farewell, ""⟩] ∧
      (start hasPrelude tracing time stack).submitAll (A ++ some "/reset" :: B) =
        (before ++ ⟨"Environment reset.\n", ""⟩ ::
            ((start hasPrelude tracing resetAt stack).submitAll B).1,
          ((start hasPrelude tracing resetAt stack).submitAll B).2) := by
  obtain ⟨before, q, hq, hend, hmore⟩ := submitAll_append hdone htrace
  refine ⟨before, q.session.store.time, hend, (hmore _).trans ?_⟩
  have hreset : q.submit (some "/reset") = _ := submit_reset hq
  rw [submitAll, hreset]

end Prompt

structure HostedPrompt where
  machine : Machine
  prompt : Prompt

namespace HostedPrompt

open Prompt (Directive Reply Line concernsTracing)

def start (m : Machine) (hasPrelude tracing : Bool) (time : Float) (stack : Stack := .unknown) :
    HostedPrompt :=
  let h := Hosted.start m hasPrelude time
  ⟨h.machine, h.session, tracing, stack⟩

def reset (p : HostedPrompt) : HostedPrompt :=
  start p.machine p.prompt.session.hasPrelude p.prompt.host.tracing p.prompt.session.store.time
    p.prompt.host.stack

def evaluate (p : HostedPrompt) (source : String) : Reply × Machine :=
  let trace := p.prompt.host.trace .answer p.prompt.session source
  let (step, m) := Hosted.answer ⟨p.machine, p.prompt.session⟩ source trace
  (p.prompt.reply step, m)

def submit (p : HostedPrompt) : Option String → Reply × Machine
  | none => (p.prompt.say "KeyboardInterrupt\n" "", p.machine)
  | some text =>
    let line := Prompt.normalize text.toList
    if (Text.trim line).isEmpty then (p.prompt.say "" "", p.machine)
    else
      match Directive.ofLine? line with
      | some .reset => (p.reset.prompt.say "Environment reset.\n" "", p.reset.machine)
      | some directive => (p.prompt.obey directive, p.machine)
      | none => p.evaluate (String.ofList line)

def serve (p : HostedPrompt) (line : Line) : Reply × Machine :=
  { p with prompt.session := p.prompt.session.setTime line.time }.submit line.text

def replies (p : HostedPrompt) : List Line → List Reply
  | [] => []
  | line :: more =>
    let (reply, m) := p.serve line
    match reply.abort with
    | some _ => [reply]
    | none => reply :: replies ⟨m, reply.prompt⟩ more

def submitAll (p : HostedPrompt) : List (Option String) → List Written × Option Abort
  | [] => ([⟨Prompt.farewell, ""⟩], none)
  | line :: more =>
    let (reply, m) := p.submit line
    match reply.abort with
    | some e => ([reply.written], some e)
    | none =>
      let (written, abort) := submitAll ⟨m, reply.prompt⟩ more
      (reply.written :: written, abort)

variable {m : Machine} {p : HostedPrompt}

lemma start_eq (hm : m.Sound) (hasPrelude tracing : Bool) (time : Float) (stack : Stack) :
    ∃ m', m'.Sound ∧ start m hasPrelude tracing time stack =
      ⟨m', .start hasPrelude tracing time stack⟩ := by
  rw [start, Hosted.start_eq hm]
  exact ⟨_, hm.renew.parses _, rfl⟩

lemma submit_eq (hm : p.machine.Sound) (text : Option String) :
    ∃ m', m'.Sound ∧ p.submit text = (p.prompt.submit text, m') := by
  cases text with
  | none => exact ⟨p.machine, hm, rfl⟩
  | some text =>
    unfold submit Prompt.submit
    dsimp only
    split
    · exact ⟨p.machine, hm, rfl⟩
    · cases Directive.ofLine? (Prompt.normalize text.toList) with
      | none =>
        dsimp only
        rw [evaluate, Hosted.answer_eq hm]
        exact ⟨_, hm.parses _, rfl⟩
      | some directive =>
        cases directive with
        | reset =>
          obtain ⟨m', hm', hstart⟩ := start_eq hm p.prompt.session.hasPrelude
            p.prompt.host.tracing p.prompt.session.store.time p.prompt.host.stack
          refine ⟨m', hm', ?_⟩
          dsimp only
          rw [reset, hstart]
          rfl
        | _ => exact ⟨p.machine, hm, rfl⟩

lemma replies_eq (hm : p.machine.Sound) (lines : List Line) :
    p.replies lines = p.prompt.replies lines := by
  induction lines generalizing p with
  | nil => rfl
  | cons line more ih =>
    obtain ⟨m', hm', hserve⟩ : ∃ m', m'.Sound ∧ p.serve line = (p.prompt.serve line, m') :=
      submit_eq (p := ⟨p.machine, { p.prompt with session := p.prompt.session.setTime line.time }⟩)
        hm line.text
    have hmore := ih (p := ⟨m', (p.prompt.serve line).prompt⟩) hm'
    simp only [replies, Prompt.replies, hserve, hmore]

lemma submitAll_eq (hm : p.machine.Sound) (lines : List (Option String)) :
    p.submitAll lines = p.prompt.submitAll lines := by
  induction lines generalizing p with
  | nil => rfl
  | cons line more ih =>
    obtain ⟨m', hm', hsubmit⟩ := submit_eq hm line
    have hmore := ih (p := ⟨m', (p.prompt.submit line).prompt⟩) hm'
    rw [submitAll, Prompt.submitAll, hsubmit]
    dsimp only
    cases (p.prompt.submit line).abort with
    | none => rw [hmore]
    | some e => rfl

lemma replies_start (hm : m.Sound) (hasPrelude tracing : Bool) (time : Float) (stack : Stack)
    (lines : List Line) : (start m hasPrelude tracing time stack).replies lines =
      (Prompt.start hasPrelude tracing time stack).replies lines := by
  obtain ⟨_, hsound, hstart⟩ := start_eq hm hasPrelude tracing time stack
  rw [hstart, replies_eq hsound]

lemma submitAll_start (hm : m.Sound) (hasPrelude tracing : Bool) (time : Float) (stack : Stack)
    (lines : List (Option String)) : (start m hasPrelude tracing time stack).submitAll lines =
      (Prompt.start hasPrelude tracing time stack).submitAll lines := by
  obtain ⟨_, hsound, hstart⟩ := start_eq hm hasPrelude tracing time stack
  rw [hstart, submitAll_eq hsound]

end HostedPrompt

end Lox
