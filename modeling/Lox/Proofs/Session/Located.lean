import Lox.Proofs.Eval.Unwind
import Lox.Proofs.Grammar.Single
import Lox.Proofs.Scope.Source
import Lox.Proofs.Session.Answer
import Lox.Proofs.Session.Frames
import Lox.Proofs.Token.Order

/-! Located failures: every failure that gets out of a program or of an expression is put down to a
token of a source that has been run, and unwinds from where it is raised without a change. -/

namespace Lox

def Token.IsOf (sources : List String) (t : Token) : Prop :=
  ∃ source ∈ sources, t ∈ (Scan.ofString source).tokens

/-- Put down to a token of one of the sources, and reported with its line. -/
def Failure.Located (sources : List String) (f : Failure) : Prop :=
  ∃ t, f.token = some t ∧ t.IsOf sources ∧ 1 ≤ t.line ∧
    f.report = f.fault.message ++ "\n[line " ++ toString t.line ++ "]"

def Stmt.topNode : Stmt → Node
  | .expression _ value => .expr value
  | st => .stmt st

/-- A failure that gets out of a top-level piece. Either the piece is nested too deep and the failure
is put down to its first token, or it unwinds from a piece that is to blame. -/
inductive Escapes (limits : Limits) (f : Failure) (s : Store) (node : Node) : Prop
  | overflow {before : Store}
      (h : limits.evaluator.BreaksOff ⟨Store.globals, node, before⟩ .tooDeep s)
      (hf : f = ⟨.stackOverflow, node.tree.tokens.head?⟩)
  | unwinds {before : Store} {origin : Moment}
      (h : Unwinds limits.turns f s limits.levels ⟨Store.globals, node, before⟩ origin)
      (hblames : origin.node.Blames f)

mutual

/-- How many blocks stand in each other. -/
def Stmt.blockDepth : Stmt → Nat
  | .block _ body => blockDepthOf body + 1
  | _ => 0

def blockDepthOf : List Stmt → Nat
  | [] => 0
  | st :: more => max st.blockDepth (blockDepthOf more)

end

variable {sources : List String} {w : World} {s s' : Store} {frame : FrameId} {p : Site}
  {T : Token → Prop} {f : Failure}

lemma Step.result_of_failure? {α : Type} {step : Step α} (h : step.failure? = some f) :
    step.result = .error (.failure f) := by
  unfold failure? at h
  split at h
  · next hresult =>
    cases h
    exact hresult
  · cases h

namespace Evaluator

lemma normal_execAll {E : Evaluator} {body : List Stmt}
    (h : ∀ st ∈ body, ∀ s, ∃ s', E.exec frame st s = .ok .normal s') (s : Store) :
    ∃ s', E.execAll frame body s = .ok .normal s' := by
  induction body generalizing s with
  | nil => exact ⟨s, rfl⟩
  | cons st body ih =>
    have hall := List.forall_mem_cons.mp h
    obtain ⟨s₁, hst⟩ := hall.1 s
    obtain ⟨s', hbody⟩ := ih hall.2 s₁
    exact ⟨s', (Eval.bind_of_ok hst _).trans hbody⟩

lemma hollow_of_mem {body : List Stmt} (h : firstTokenOf? body = none) {st : Stmt}
    (hst : st ∈ body) : st.firstToken? = none ∧ st.blockDepth ≤ blockDepthOf body := by
  induction body with
  | nil => exact absurd hst List.not_mem_nil
  | cons first body ih =>
    rw [firstTokenOf?, Option.or_eq_none_iff] at h
    rcases List.mem_cons.mp hst with rfl | hst
    · exact ⟨h.1, Nat.le_max_left _ _⟩
    · have hmore := ih h.2 hst
      exact ⟨hmore.1, Nat.le_trans hmore.2 (Nat.le_max_right _ _)⟩

theorem normal_of_firstToken? {turns levels : Nat} {st : Stmt} (h : st.firstToken? = none)
    (hdepth : st.blockDepth ≤ levels) (s : Store) :
    ∃ s', (deep turns levels).exec frame st s = .ok .normal s' := by
  induction levels generalizing frame st s with
  | zero =>
    cases st with
    | block => exact absurd hdepth (Nat.not_succ_le_zero _)
    | _ => cases h
  | succ levels ih =>
    cases st with
    | block line body =>
      refine normal_execAll (E := deep turns levels) (fun st hst s => ?_) _
      obtain ⟨hhollow, hle⟩ := hollow_of_mem h hst
      exact ih hhollow (Nat.le_trans hle (Nat.le_of_succ_le_succ hdepth)) s
    | _ => cases h

end Evaluator

theorem FindsAt.reads {depth : Nat} {t : Token} (h : FindsAt s frame depth t.lexeme)
    (hs : s.Fits sources w) (ht : t.lexeme = Eval.thisName ∨ t.lexeme = Eval.superName) :
    ∃ v, Eval.readAt frame depth t s = .ok v s := by
  obtain ⟨holder, hholder, hbinds⟩ := h
  rw [Store.binds_eq] at hbinds
  obtain ⟨x, hx⟩ := Option.isSome_iff_exists.mp hbinds
  have hread : s.readIn holder t.lexeme = .ok x.value := by
    rw [Store.readIn_eq, hx]
    exact if_pos ((hs.variables holder _ x hx).assigned ht)
  refine ⟨x.value, (Eval.bind_of_ok (Eval.ancestor_of_ancestor? hholder) _).trans ?_⟩
  change Eval.located t (s.readIn holder t.lexeme) s = _
  rw [hread]
  rfl

lemma Stands.grounded {e : Expr} (h : Stands sources w s frame p (.expr e))
    (hsound : AllSound sources) (hs : s.Fits sources w) : (Node.expr (p.expr e)).Grounded frame s := by
  intro target method depth hnode hdepth
  cases e with
  | super raw method =>
    have hsite := h.visits.sound hsound
    have hname : raw.name.lexeme = Eval.superName := hsite.wellFormed.2.1
    obtain ⟨heq, outer, hthis, hsuper⟩ := hsite.super
    rw [heq] at hnode
    cases hnode
    rw [Reference.at, Scopes.depth?_eq, hname, Eval.superName, hsuper] at hdepth
    cases hdepth
    refine ⟨FindsAt.reads ?_ hs (.inr hname), FindsAt.reads ?_ hs (.inl rfl)⟩
    · exact hname ▸ h.findsAt hsuper
    · exact h.findsAt hthis
  | _ => cases hnode

theorem holds_sourced (hsound : AllSound sources)
    (hsources : ∀ source ∈ sources, allSourced T (Program.ofSource source).body) :
    Holds sources fun frame node s => node.Sourced T ∧ node.Grounded frame s where
  expr {w s frame p e} hs h := by
    exact ⟨Expr.Sourced.node (h.visits.sourced hsources) p, h.grounded hsound hs⟩
  stmt {w s frame p st} hs h := by
    refine ⟨Stmt.Sourced.node (h.visits.sourced hsources) p, ?_⟩
    intro target method depth hnode
    cases hnode

theorem Site.begins_stmts {body : List Stmt} (h : ∀ st ∈ body, st.Begins T) (p : Site) :
    ∀ st ∈ p.stmts body, ∀ t ∈ st.firstToken?, T t := by
  induction body generalizing p with
  | nil => exact fun st hst => absurd hst List.not_mem_nil
  | cons first body ih =>
    have hall := List.forall_mem_cons.mp h
    refine List.forall_mem_cons.mpr ⟨fun t ht => ?_, ih hall.2 (p.afterStmt first)⟩
    exact hall.1.2 t ((p.firstToken?_stmt first).symm.trans ht)

lemma Stmt.head?_topNode (st : Stmt) : st.topNode.tree.tokens.head? = st.firstToken? := by
  cases st with
  | expression line value => exact value.head?_tokens
  | _ => exact Stmt.head?_tokens _

lemma Stmt.topNode_cases (st : Stmt) :
    (∃ line value, st = .expression line value) ∨ st.topNode = .stmt st ∧
      ∀ (E : Evaluator) (last : Value) (body : List Stmt), Eval.program E last (st :: body) =
        Eval.reportingDepth st.firstToken? (E.exec Store.globals st) >>=
          Eval.proceed E last body := by
  cases st with
  | expression line value => exact .inl ⟨line, value, rfl⟩
  | _ => exact .inr ⟨rfl, fun _ _ _ => rfl⟩

lemma Eval.reportingDepth_failure {α : Type} {act : Eval α} {t : Option Token}
    (h : reportingDepth t act s = .error (.failure f) s') :
    act s = .error (.failure f) s' ∨ act s = .error .tooDeep s' ∧ f = ⟨.stackOverflow, t⟩ := by
  unfold reportingDepth at h
  split at h
  · next hact =>
    cases h
    exact .inr ⟨hact, rfl⟩
  · exact .inl h

theorem Eval.program_failure {E : Evaluator} {last : Value} {body : List Stmt}
    (h : program E last body s = .error (.failure f) s') :
    ∃ st ∈ body, ∃ before, E.BreaksOff ⟨Store.globals, st.topNode, before⟩ (.failure f) s' ∨
      E.BreaksOff ⟨Store.globals, st.topNode, before⟩ .tooDeep s' ∧
        f = ⟨.stackOverflow, st.firstToken?⟩ := by
  induction body generalizing s last with
  | nil => cases h
  | cons st body ih =>
    have hlater {last s} (h : program E last body s = .error (.failure f) s') :=
      (ih h).imp fun st' hst' => And.imp_left (List.mem_cons_of_mem st) hst'
    rcases st.topNode_cases with ⟨line, value, rfl⟩ | ⟨htop, hcons⟩
    · rcases bind_error h with h | ⟨v, s₁, -, h⟩
      · exact ⟨_, List.mem_cons_self, s, reportingDepth_failure h⟩
      · exact hlater h
    · rw [hcons] at h
      rcases bind_error h with h | ⟨outcome, s₁, -, h⟩
      · refine ⟨st, List.mem_cons_self, s, ?_⟩
        rw [htop]
        exact reportingDepth_failure h
      · cases outcome with
        | normal => exact hlater h
        | _ => cases h

theorem Stmt.exists_firstToken? {limits : Limits} {st : Stmt}
    (hfits : st.firstToken? = none → st.blockDepth ≤ limits.levels)
    (h : limits.evaluator.BreaksOff ⟨Store.globals, st.topNode, s⟩ .tooDeep s') :
    ∃ t, st.firstToken? = some t := by
  cases hfirst : st.firstToken? with
  | some t => exact ⟨t, rfl⟩
  | none =>
    cases st with
    | block line body =>
      rw [limits.evaluator_eq] at h
      obtain ⟨after, hnormal⟩ := Evaluator.normal_of_firstToken? hfirst (hfits hfirst) s
      cases hnormal.symm.trans h
    | _ => cases hfirst

namespace Session

variable {session : Session} {source : String}

theorem escapes (h : Reached sources session) (hsource : (Program.compile source).hasError = false)
    (hsources : ∀ s ∈ source :: sources, allSourced T (Program.ofSource s).body)
    (hbegins : ∀ st ∈ (Program.compile source).body, ∀ t ∈ st.firstToken?, T t)
    (hfits : ∀ st ∈ (Program.compile source).body,
      st.firstToken? = none → st.blockDepth ≤ session.limits.levels)
    (hf : (session.force (.compile source)).result = .error (.failure f)) :
    (∃ t, f.token = some t ∧ T t) ∧ ∃ st ∈ (Program.compile source).body,
      Escapes session.limits f (session.force (.compile source)).session.store st.topNode := by
  have hsound : AllSound (source :: sources) := List.forall_mem_cons.mpr ⟨hsource, h.allSound⟩
  rw [← forceWatched_eq h hsource (holds_sourced hsound hsources) .endless] at hf ⊢
  unfold forceWatched perform at hf ⊢
  split at hf
  · cases hf
  next e store hrun =>
  cases hf
  obtain ⟨st, hst, before, hfails | ⟨hdeep, rfl⟩⟩ := Eval.program_failure hrun
  · obtain ⟨origin, hunwinds, ⟨hsourced, -⟩, hblames⟩ :=
      Evaluator.exists_unwinds (fun frame node s h => h.2) hfails
    exact ⟨hsourced.token hblames, st, hst, .unwinds hunwinds hblames⟩
  · have hdeep := (Evaluator.watches_deepWatched _ _ _).breaksOff hdeep nofun
    rw [← session.limits.evaluator_eq] at hdeep
    obtain ⟨t, ht⟩ := Stmt.exists_firstToken? (hfits st hst) hdeep
    refine ⟨⟨t, ht, hbegins st hst t ht⟩, st, hst, .overflow hdeep ?_⟩
    rw [st.head?_topNode]

lemma located_of_token (h : ∃ t, f.token = some t ∧ t.IsOf sources) : f.Located sources := by
  obtain ⟨t, htoken, source, hsource, ht⟩ := h
  refine ⟨t, htoken, ⟨source, hsource, ht⟩, (Scan.line_of_mem_tokens ht).1, ?_⟩
  simp [Failure.report, Failure.line?, htoken]

/-- In a session in which only sources without errors have been run, every failure that gets out of
another one, or of an expression, is put down to a token of one of these sources, and so is reported
with a line. Either it is a stack overflow, put down to the first token of what stands at the top
level, or it is raised by one piece, and every piece around that one fails with the same failure. A
fault that a native function finds is raised by a call, and put down to the first token of it. Blocks
that hold no token at all have to fit in the levels; to read them takes as much room as to run them. -/
theorem failures_are_located (h : Reached sources session) :
    (∀ source f, (Program.compile source).hasError = false →
      (∀ st ∈ (Program.compile source).body,
        st.firstToken? = none → st.blockDepth ≤ session.limits.levels) →
      let step := session.force (.compile source)
      step.result = .error (.failure f) →
      f.Located (source :: sources) ∧ ∃ st ∈ (Program.compile source).body,
        Escapes session.limits f step.session.store st.topNode) ∧
    ∀ source e f, Grammar.bareExpression? (Scan.ofString source) = some e →
      Diagnostic.hasError (Resolver.expression e).2 = false →
      let resolved := (Resolver.expression e).1
      let step := session.perform (Eval.expression session.evaluator resolved)
      step.result = .error (.failure f) →
      f.Located (source :: sources) ∧
        Escapes session.limits f step.session.store (.expr resolved) := by
  have hearlier (source : String) : ∀ s ∈ sources,
      allSourced (Token.IsOf (source :: sources)) (Program.ofSource s).body := by
    intro s hs
    have hbody := Program.spells_body (Program.compile_body (h.allSound s hs)).1
    exact allSourced_of_begins (hbody.sourced fun t ht => ⟨s, List.mem_cons_of_mem source hs, ht⟩)
  constructor
  · intro source f hsource hfits step hf
    obtain ⟨hread, hcompiled, -⟩ := Program.compile_body hsource
    have hbody : ∀ st ∈ (Program.ofSource source).body, st.Begins (Token.IsOf (source :: sources)) :=
      (Program.spells_body hread).sourced fun t ht => ⟨source, List.mem_cons_self, ht⟩
    have hsources : ∀ s ∈ source :: sources,
        allSourced (Token.IsOf (source :: sources)) (Program.ofSource s).body :=
      List.forall_mem_cons.mpr ⟨allSourced_of_begins hbody, hearlier source⟩
    have hbegins := Site.begins_stmts hbody .top
    rw [← hcompiled] at hbegins
    exact (escapes h hsource hsources hbegins hfits hf).imp_left located_of_token
  · intro source e f he hclean resolved step hf
    obtain ⟨line, warnings, hwarnings, hp⟩ := Program.compile_of_bareExpression he
    obtain ⟨line', hread⟩ := Program.ofSource_of_bareExpression he
    have hbegins : e.Begins (Token.IsOf (source :: sources)) :=
      ((Grammar.bareExpression?_eq_some_iff rfl).mp he).2.sourced
        fun t ht => ⟨source, List.mem_cons_self, ht⟩
    have hsource : (Program.compile (source ++ "\n;")).hasError = false := by
      rw [hp]
      exact (Diagnostic.hasError_append_warnings hwarnings).trans hclean
    have hsources : ∀ s ∈ (source ++ "\n;") :: sources,
        allSourced (Token.IsOf (source :: sources)) (Program.ofSource s).body := by
      refine List.forall_mem_cons.mpr ⟨?_, hearlier source⟩
      rw [hread]
      exact ⟨hbegins.1, trivial⟩
    have hforce : step = session.force (.compile (source ++ "\n;")) := by
      rw [hp, force_expression]
    have hfirst : resolved.firstToken = e.firstToken := Site.firstToken_expr e .top
    have hescapes := escapes h hsource hsources (f := f)
    rw [← hforce, hp] at hescapes
    obtain ⟨htoken, st, hst, hst'⟩ := hescapes
      (List.forall_mem_singleton.mpr fun t ht => Option.some.inj ht ▸ hfirst ▸ hbegins.2)
      (List.forall_mem_singleton.mpr fun hnone => nomatch hnone) hf
    cases List.mem_singleton.mp hst
    exact ⟨located_of_token htoken, hst'⟩

theorem failures_are_located_callback :
    let first := "fun each(f, xs) \x7b return f(xs); \x7d"
    let second := "class A \x7b head \x7b\nreturn each(fun (n) \x7b\nreturn first(n); \x7d, 1); \x7d \x7d A().head;"
    let expression := "each(first, true)"
    let session := (Session.run ⟨false, .standard, .initial 0⟩ first).session
    let inside : Failure := ⟨.notSequence .first "number", some ⟨.identifier, "first", 3, 8⟩⟩
    let outside : Failure := ⟨.notSequence .first "boolean", some ⟨.identifier, "f", 1, 26⟩⟩
    (session.force (.compile second)).result = .error (.failure inside) ∧
      inside.Located [second, first] ∧
      ∃ e, Grammar.bareExpression? (Scan.ofString expression) = some e ∧
        (session.perform (Eval.expression session.evaluator (Resolver.expression e).1)).result =
          .error (.failure outside) ∧
        outside.Located [expression, first] := by
  intro first second expression session inside outside
  have hreached : Reached [first] session := .run (.new false .standard 0) (by decide +kernel)
  have hlocated := failures_are_located hreached
  have hinside : (session.force (.compile second)).result = .error (.failure inside) :=
    Step.result_of_failure? (by decide +kernel)
  refine ⟨hinside, ?_, ?_⟩
  · exact (hlocated.1 second inside (by decide +kernel) (by decide +kernel) hinside).1
  · have hsome : (Grammar.bareExpression? (Scan.ofString expression)).isSome = true := by
      decide +kernel
    have hclean : ∀ e ∈ Grammar.bareExpression? (Scan.ofString expression),
        Diagnostic.hasError (Resolver.expression e).2 = false ∧
          (session.perform
            (Eval.expression session.evaluator (Resolver.expression e).1)).failure? =
              some outside := by
      decide +kernel
    obtain ⟨e, he⟩ := Option.isSome_iff_exists.mp hsome
    obtain ⟨hclean, hfailure⟩ := hclean e he
    have houtside := Step.result_of_failure? hfailure
    exact ⟨e, he, houtside, (hlocated.2 expression e outside he hclean houtside).1⟩

end Session

end Lox
