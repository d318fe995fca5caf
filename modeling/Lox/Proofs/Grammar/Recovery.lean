import Lox.Proofs.Grammar.Settled

/-! Reading a program always recovers and ends: every turn of every loop takes a token, every error
is caught by the declaration that it stands in, and loops are counted within their function. -/

namespace Lox

namespace Reader

variable {α β : Type}

/-- A loop that reads items until it stops or an item fails. Every item takes a token. -/
inductive Repeats (stop : Cursor → Bool) (item : Reader α) :
    Cursor → EStateM.Result Misread Cursor (List α) → Prop
  | stop {c} : stop c = true → Repeats stop item c (.ok [] c)
  | fail {c m d} : stop c = false → item c = .error m d → Repeats stop item c (.error m d)
  | turn {c x d xs e} : stop c = false → item c = .ok x d → d.rest.length < c.rest.length →
      Repeats stop item d (.ok xs e) → Repeats stop item c (.ok (x :: xs) e)
  | failLater {c x d m e} : stop c = false → item c = .ok x d → d.rest.length < c.rest.length →
      Repeats stop item d (.error m e) → Repeats stop item c (.error m e)

variable {stop : Cursor → Bool} {item : Reader α} {c d : Cursor} {n : Nat}

lemma Repeats.stops {xs : List α} (h : Repeats stop item c (.ok xs d)) : stop d = true := by
  generalize hx : EStateM.Result.ok xs d = x at h
  induction h generalizing xs with
  | stop hc =>
    cases hx
    exact hc
  | turn _ _ _ _ ih =>
    cases hx
    exact ih rfl
  | fail | failLater => cases hx

theorem Repeats.ok {x : EStateM.Result Misread Cursor (List α)} (h : Repeats stop item c x)
    (hitem : ∀ c, stop c = false → ∃ x d, item c = .ok x d) : ∃ xs d, x = .ok xs d := by
  induction h with
  | stop | turn => exact ⟨_, _, rfl⟩
  | fail hc hm =>
    obtain ⟨x, d, hx⟩ := hitem _ hc
    rw [hx] at hm
    cases hm
  | failLater _ _ _ _ ih =>
    obtain ⟨_, _, hx⟩ := ih
    cases hx

theorem repeats_collect (stop : Cursor → Bool) (h : SettledOn (stop · = false) n 1 item item)
    (hstop : ∀ c, stop c = false → c.rest ≠ []) (hc : c.finish.kind = .finish)
    (hlt : c.rest.length < n) : Repeats stop item c (collect stop item c) := by
  have go (bound : Nat) (c : Cursor) (hc : c.finish.kind = .finish) (hlt : c.rest.length < n)
      (hle : c.rest.length ≤ bound) : Repeats stop item c (collect.go stop item bound c) := by
    induction bound generalizing c with
    | zero =>
      have hrest := List.eq_nil_of_length_eq_zero (Nat.le_zero.mp hle)
      exact .stop (Bool.of_not_eq_false fun hf => hstop c hf hrest)
    | succ bound ih =>
      change Repeats stop item c
        ((if stop c then pure [] else item >>= fun x => collect.go stop item bound >>= fun more =>
          pure (x :: more)) c)
      cases hs : stop c with
      | true => exact .stop hs
      | false =>
        have hends := (h c hc hlt hs).2
        change Repeats stop item c (EStateM.bind item _ c)
        unfold EStateM.bind
        cases hm : item c with
        | error m d => exact .fail hs hm
        | ok x d =>
          rw [hm] at hends
          obtain ⟨⟨ts, new, hd⟩, htaken⟩ := hends
          have hrest := ih d (hd.finish ▸ hc) (by omega) (by omega)
          dsimp only
          change Repeats stop item c (EStateM.bind _ _ d)
          unfold EStateM.bind
          cases hm' : collect.go stop item bound d with
          | ok xs e => exact .turn hs hm htaken (hm' ▸ hrest)
          | error m e => exact .failLater hs hm htaken (hm' ▸ hrest)
  exact go _ c hc hlt (Nat.le_refl _)

end Reader

/-- Readers that keep the count of the loops around them in their function. -/
abbrev Counting := EStateM Misread (Cursor × Nat)

namespace Counting

open Reader

variable {α β : Type}

def ofReader (r : Bool → Reader α) : Counting α := fun (c, loops) =>
  match r (loops ≠ 0) c with
  | .ok x d => .ok x (d, loops)
  | .error m d => .error m (d, loops)

abbrev plain (r : Reader α) : Counting α := ofReader fun _ => r

def withinLoop (r : Counting α) : Counting α := fun (c, loops) =>
  match r (c, loops + 1) with
  | .ok x (d, inner) => .ok x (d, inner - 1)
  | .error m (d, inner) => .error m (d, inner - 1)

def withinFunction (r : Counting α) : Counting α := fun (c, loops) =>
  match r (c, 0) with
  | .ok x (d, _) => .ok x (d, loops)
  | .error m (d, _) => .error m (d, loops)

def orElse (r recovery : Counting α) : Counting α := fun c =>
  match r c with
  | .ok x d => .ok x d
  | .error _ d => recovery d

def count : Counting Nat := return (← get).2

def Keeps (r : Counting α) : Prop :=
  ∀ c loops, match r (c, loops) with
    | .ok _ (_, after) => after = loops
    | .error _ (_, after) => after = loops

lemma keeps_ofReader (r : Bool → Reader α) : Keeps (ofReader r) := by
  intro c loops
  unfold ofReader
  dsimp only
  cases r (loops ≠ 0) c <;> rfl

lemma ofReader_bind (r : Bool → Reader α) (f : Bool → α → Reader β) :
    (ofReader fun b => r b >>= f b) = ofReader r >>= fun x => ofReader fun b => f b x := by
  funext ⟨c, loops⟩
  change ofReader (fun b => EStateM.bind (r b) (f b)) (c, loops) = EStateM.bind (ofReader r) _ _
  unfold EStateM.bind ofReader
  dsimp only
  cases r (loops ≠ 0) c <;> rfl

lemma ofReader_orElse (r : Bool → Reader α) (recovery : Reader α) :
    (ofReader fun b => Reader.orElse (r b) recovery) = orElse (ofReader r) (plain recovery) := by
  funext ⟨c, loops⟩
  simp only [ofReader, orElse, Reader.orElse]
  cases r (loops ≠ 0) c <;> rfl

lemma withinLoop_ofReader (r : Bool → Reader α) : withinLoop (ofReader r) = plain (r true) := by
  funext ⟨c, loops⟩
  have hin : decide (loops + 1 ≠ 0) = true := decide_eq_true (Nat.succ_ne_zero loops)
  simp only [withinLoop, ofReader, hin]
  cases r true c <;> rfl

lemma withinFunction_ofReader (r : Bool → Reader α) :
    withinFunction (ofReader r) = plain (r false) := by
  funext ⟨c, loops⟩
  have hout : decide (0 ≠ 0) = false := rfl
  simp only [withinFunction, ofReader, hout]
  cases r false c <;> rfl

end Counting

namespace Readers

open Reader Counting

/-- The places where loops are counted: around what a loop repeats, around the body of a function,
and at `break`. A declaration goes on after an error with the count as it is there, and in the end
the count is what it was before. -/
structure CountsLoops (inner : Readers) : Prop where
  whileLoop : ∀ keyword, plain (inner.readWhile keyword) = do
    let _ ← plain (expect .whileParen)
    let condition ← plain inner.readExpression
    let _ ← plain (expect .whileClosing)
    let body ← withinLoop (ofReader inner.statement)
    return .whileLoop keyword condition body
  forLoop : ∀ keyword, plain (inner.readFor keyword) = do
    let _ ← plain (expect .forParen)
    let init ← plain inner.readForInit
    let condition ← plain do
      if ← sees .semicolon then pure none else some <$> inner.readExpression
    let _ ← plain (expect .conditionEnd)
    let increment ← plain do
      if ← sees .rightParen then pure none else some <$> inner.readExpression
    let _ ← plain (expect .forClosing)
    let body ← withinLoop (ofReader inner.statement)
    return expandFor keyword init condition increment body
  body : ∀ brace head params, plain (inner.readBody brace head params) = do
    let body ← withinFunction (ofReader inner.readBlock)
    return .mk head params brace.line body
  breakLoop : ∀ keyword, (ofReader fun inLoop => readBreak inLoop keyword) = do
    if (← count) = 0 then plain (report keyword .breakOutsideLoop)
    let _ ← plain (expect .breakEnd)
    return .breakLoop keyword
  declaration : ofReader inner.readDeclaration =
    Counting.orElse (ofReader inner.readDeclared) (plain recover)
  keeps : Keeps (ofReader inner.readDeclared) ∧
    Keeps (Counting.orElse (ofReader inner.readDeclared) (plain recover))

lemma countsLoops (inner : Readers) : CountsLoops inner where
  whileLoop keyword := by
    simp only [withinLoop_ofReader]
    unfold readWhile
    simp only [plain, ofReader_bind]
    rfl
  forLoop keyword := by
    rw [readFor_eq]
    simp only [withinLoop_ofReader, plain, ofReader_bind, bind_assoc]
    rfl
  body brace head params := by
    simp only [withinFunction_ofReader]
    unfold readBody
    simp only [plain, ofReader_bind]
    rfl
  breakLoop keyword := by
    have hread (b : Bool) : readBreak b keyword =
        (if !b then report keyword .breakOutsideLoop else pure ()) >>= fun _ =>
          expect .breakEnd >>= fun _ => pure (.breakLoop keyword) := by
      cases b <;> rfl
    have hcount : (ofReader fun b => if !b then report keyword .breakOutsideLoop else pure ()) =
        count >>= fun n => if n = 0 then plain (report keyword .breakOutsideLoop) else pure () := by
      funext ⟨c, loops⟩
      cases loops <;> rfl
    simp only [hread, ofReader_bind, hcount, bind_assoc]
    congr
    funext n
    by_cases hn : n = 0
    · rw [if_pos hn, if_pos hn]
      rfl
    · rw [if_neg hn, if_neg hn]
      rfl
  declaration := ofReader_orElse _ _
  keeps := by
    rw [← ofReader_orElse]
    exact ⟨keeps_ofReader _, keeps_ofReader _⟩

structure Recovers (declared : Reader Stmt) (c : Cursor) (x : Stmt) (d : Cursor) : Prop where
  takes : c.rest ≠ [] → d.rest.length < c.rest.length
  outcome : declared c = .ok x d ∨ ∃ m e before, declared c = .error m e ∧
    e.reports = c.reports ++ before ++ [.atToken m.token m.problem] ∧ m.token = e.peek ∧
    x = .invalid e.peek ∧ d = e.skipStatement ∧ d.reports = e.reports

/-- Readers that go on after every error, and whose loops end by themselves, wherever at most `n`
tokens are left. -/
structure AlwaysEnd (n : Nat) (inner : Readers) : Prop where
  declaration : ∀ (b : Bool) (c : Cursor), c.finish.kind = .finish → c.rest.length ≤ n →
    ∃ x d, inner.readDeclaration b c = .ok x d ∧ Recovers (inner.readDeclared b) c x d
  block : ∀ (b : Bool) (c : Cursor), c.finish.kind = .finish → c.rest.length < n →
    ∃ body d, collect endsBraces (inner.declaration b) c = .ok body d ∧
      Repeats endsBraces (inner.declaration b) c (.ok body d)
  members : ∀ c : Cursor, c.finish.kind = .finish → c.rest.length < n →
    Repeats endsBraces inner.readMember c (collect endsBraces inner.readMember c)
  operands : ∀ (level : Level) (left : Expr) (bound : Nat) (c : Cursor), c.finish.kind = .finish →
    c.rest.length ≤ n → c.rest.length ≤ bound →
    chain.go level.ops level.join (inner.tier level.next) bound left c =
      chain.go level.ops level.join (inner.tier level.next) c.rest.length left c
  suffixes : ∀ (e : Expr) (bound : Nat) (c : Cursor), c.finish.kind = .finish →
    c.rest.length ≤ n → c.rest.length ≤ bound →
    inner.readSuffixes bound e c = inner.readSuffixes c.rest.length e c
  items : ∀ tooMany ∈ [none, some Problem.tooManyArguments], ∀ (count bound : Nat) (c : Cursor),
    c.finish.kind = .finish → c.rest.length < n → c.rest.length < bound →
    commaList.go tooMany inner.ternary bound count c =
      commaList.go tooMany inner.ternary (c.rest.length + 1) count c
  names : ∀ (count bound : Nat) (c : Cursor), c.finish.kind = .finish → c.rest.length < bound →
    commaList.go (some .tooManyParameters) (expect .parameterName) bound count c =
      commaList.go (some .tooManyParameters) (expect .parameterName) (c.rest.length + 1) count c

variable {n : Nat} {inner : Readers}

lemma recovers_readDeclaration (h : AreSettled n inner inner) (b : Bool) {c : Cursor}
    (hc : c.finish.kind = .finish) (hle : c.rest.length ≤ n) :
    ∃ x d, inner.readDeclaration b c = .ok x d ∧ Recovers (inner.readDeclared b) c x d := by
  have hlt := Nat.lt_succ_of_le hle
  have hends := (settled_readDeclared h b c hc hlt trivial).2
  have htakes (hne : c.rest ≠ []) := (settled_readDeclaration h b c hc hlt hne).2
  unfold readDeclaration Reader.orElse at htakes ⊢
  cases hm : inner.readDeclared b c with
  | ok x d =>
    rw [hm] at hends htakes
    exact ⟨x, d, rfl, fun hne => (htakes hne).2, .inl hm⟩
  | error m e =>
    rw [hm] at hends htakes
    obtain ⟨⟨ts, before, he⟩, htoken⟩ := hends
    obtain ⟨us, hskip⟩ := e.passes_skipStatement
    refine ⟨.invalid e.peek, e.skipStatement, rfl, fun hne => (htakes hne).2, .inr ?_⟩
    exact ⟨m, e, before, hm, by simpa using he.reports, htoken, rfl, rfl,
      by simpa using hskip.reports⟩

lemma AreSettled.alwaysEnd (h : AreSettled n inner inner)
    (hok : 0 < n → ∀ b c, ∃ x d, inner.declaration b c = .ok x d) :
    AlwaysEnd n inner where
  declaration b c hc hle := recovers_readDeclaration h b hc hle
  block b c hc hlt := by
    have hrepeats := repeats_collect endsBraces
      ((h.declaration b).weaken (fun _ => rest_ne_nil_of_endsBraces) (Nat.le_refl _)
        (Nat.le_refl _)) (fun _ => rest_ne_nil_of_endsBraces) hc hlt
    obtain ⟨body, d, hbody⟩ := hrepeats.ok fun e _ => hok (Nat.zero_lt_of_lt hlt) b e
    exact ⟨body, d, hbody, hbody ▸ hrepeats⟩
  members c hc hlt :=
    repeats_collect endsBraces (settled_readMember h).on (fun _ => rest_ne_nil_of_endsBraces) hc hlt
  operands level left bound c hc hle hbound :=
    (settled_chain_go (by cases level <;> simp [Level.ops]) (settled_tier h level.next) _ _ left c
      hc (Nat.lt_succ_of_le hle) ⟨Nat.le_refl _, hbound⟩).1
  suffixes e bound c hc hle hbound :=
    (settled_readSuffixes h _ _ e c hc (Nat.lt_succ_of_le hle) ⟨Nat.le_refl _, hbound⟩).1
  items tooMany hp count bound c hc hlt hbound := by
    refine (settled_commaList_go ?_ h.ternary _ _ count c hc hlt ⟨Nat.lt_succ_self _, hbound⟩).1
    simp only [List.mem_cons, List.not_mem_nil, or_false] at hp
    obtain rfl | rfl := hp <;> simp [Problem.severity]
  names count bound c hc hbound :=
    (settled_commaList_go (by simp [Problem.severity]) (Settled.untaken settled_expect) _ _ count c
      hc (Nat.lt_succ_self _) ⟨Nat.lt_succ_self _, hbound⟩).1

lemma readDeclaration_ok (inner : Readers) (b : Bool) (c : Cursor) :
    ∃ x d, inner.readDeclaration b c = .ok x d := by
  unfold readDeclaration Reader.orElse
  cases inner.readDeclared b c with
  | ok x d => exact ⟨x, d, rfl⟩
  | error m d => exact ⟨_, _, rfl⟩

lemma alwaysEnd_iterate (base : Readers) (n : Nat) : AlwaysEnd n (within^[n] base) := by
  refine (areSettled_iterate base base n).alwaysEnd fun hn b c => ?_
  obtain ⟨n, rfl⟩ := Nat.exists_eq_succ_of_ne_zero (Nat.ne_of_gt hn)
  rw [Function.iterate_succ_apply']
  exact readDeclaration_ok _ b c

end Readers

namespace Grammar

open Reader Readers

variable {s : Scan}

lemma readers_eq_iterate (s : Scan) : readers s = within^[s.tokens.length + 1] empty :=
  nested_eq_iterate _

theorem repeats_readProgram (hs : s.finish.kind = .finish) :
    ∃ d, readProgram (readers s) (start s) = .ok (program s).1 d ∧ d.rest = [] ∧
      (program s).2 = d.reports ∧
      Repeats Cursor.atEnd ((readers s).declaration false) (start s) (.ok (program s).1 d) := by
  have hsettled := (areSettled_iterate empty empty (s.tokens.length + 1)).declaration false
  rw [← readers_eq_iterate] at hsettled
  have hne (c : Cursor) (hc : c.atEnd = false) : c.rest ≠ [] := by
    simpa [Cursor.atEnd] using hc
  have hrepeats := repeats_collect Cursor.atEnd
    (hsettled.weaken hne (Nat.le_refl _) (Nat.le_refl _)) hne (c := start s) hs (Nat.lt_succ_self _)
  obtain ⟨body, d, hbody⟩ := hrepeats.ok fun c _ => readDeclaration_ok _ false c
  have hprogram : program s = (body, d.reports) := by
    unfold program readProgram
    rw [hbody]
  rw [hprogram]
  rw [hbody] at hrepeats
  have hstop := hrepeats.stops
  exact ⟨d, hbody, by simpa [Cursor.atEnd] using hstop, rfl, hrepeats⟩

theorem readProgram_iterate (hs : s.finish.kind = .finish) (base : Readers) {n : Nat}
    (hn : s.tokens.length < n) :
    readProgram (within^[n] base) (start s) = readProgram (readers s) (start s) := by
  obtain ⟨k, rfl⟩ := Nat.exists_eq_add_of_le hn
  rw [Function.iterate_add_apply, readers_eq_iterate]
  have hsettled := areSettled_iterate empty (within^[k] base) (s.tokens.length + 1)
  refine (settled_collect Cursor.atEnd ((hsettled.declaration false).weaken ?_
    (Nat.le_refl _) (Nat.le_refl _)) (start s) hs (Nat.lt_succ_self s.tokens.length) trivial).1
  intro c hc
  simpa [Cursor.atEnd] using hc

/-- Whatever its tokens are, a program is read up to its end, without an error that goes unreported
or uncaught, and without a bound that is met: not the one on how deep constructs are nested, nor the
one on the turns of a loop. A declaration takes a token where there is one, and leaves the count of
the loops around it as it was. -/
theorem program_always_ends (s : Scan) (hs : s.finish.kind = .finish) :
    (∃ d, readProgram (readers s) (start s) = .ok (program s).1 d ∧ d.rest = [] ∧
      (program s).2 = d.reports ∧
      Repeats Cursor.atEnd ((readers s).declaration false) (start s) (.ok (program s).1 d)) ∧
    (∀ base n, s.tokens.length < n →
      readProgram (within^[n] base) (start s) = readProgram (readers s) (start s)) ∧
    (∀ base n, AlwaysEnd n (within^[n] base)) ∧ ∀ inner, CountsLoops inner :=
  ⟨repeats_readProgram hs, fun base _ hn => readProgram_iterate hs base hn, alwaysEnd_iterate,
    countsLoops⟩

theorem program_always_ends_after_errors :
    let s := Scan.ofString
      "for (;;) \x7b break 1; \x7d if (fun () \x7b break; \x7d) else print == ; var"
    s.finish.kind = .finish ∧
      (program s).2.map (·.problem) = [.expected .breakEnd, .breakOutsideLoop, .noExpression,
        .noLeftOperand, .noExpression, .expected .variableName] ∧
      ∃ d, readProgram (readers s) (start s) = .ok (program s).1 d ∧ d.rest = [] ∧
        (program s).2 = d.reports ∧
        Repeats Cursor.atEnd ((readers s).declaration false) (start s) (.ok (program s).1 d) :=
  ⟨rfl, by decide +kernel, (program_always_ends _ rfl).1⟩

end Grammar

end Lox
