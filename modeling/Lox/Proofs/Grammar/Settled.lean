import Mathlib.Logic.Function.Iterate
import Lox.Grammar
import Lox.Proofs.Grammar.Sound

/-! Readers that never get to the end of what they are built from. Each reader that is used within
another has a token less to read, so with enough levels the lowest one is not reached, whatever
stands there. Along the way: a reader that fails has just reported why, at the token where the
cursor is left. -/

namespace Lox

namespace Cursor

variable {c : Cursor}

lemma length_rest_advance (h : c.rest ≠ []) : c.advance.rest.length + 1 = c.rest.length := by
  obtain ⟨t, rest, hrest⟩ := List.exists_cons_of_ne_nil h
  simp [advance, hrest]

lemma length_skipFrom_le (last : Token) (ts : List Token) :
    (skipFrom last ts).2.length ≤ ts.length := by
  obtain ⟨us, hus⟩ := skipFrom_append last ts
  have := congrArg List.length hus
  rw [List.length_append] at this
  omega

theorem length_skipStatement_lt (h : c.rest ≠ []) :
    c.skipStatement.rest.length < c.rest.length :=
  calc c.skipStatement.rest.length ≤ c.advance.rest.length := length_skipFrom_le _ _
    _ < c.rest.length := Nat.lt_of_succ_le (Nat.le_of_eq (length_rest_advance h))

end Cursor

namespace Reader

variable {α β : Type}

/-- Where a reader ends: past at least `k` tokens, or else where its last report says. -/
def Ends (k : Nat) (c : Cursor) : EStateM.Result Misread Cursor α → Prop
  | .ok _ d => (∃ ts new, c.Passes ts new d) ∧ d.rest.length + k ≤ c.rest.length
  | .error m d =>
    (∃ ts new, c.Passes ts (new ++ [.atToken m.token m.problem]) d) ∧ m.token = d.peek

def SettledOn (pre : Cursor → Prop) (n k : Nat) (r r' : Reader α) : Prop :=
  ∀ c : Cursor, c.finish.kind = .finish → c.rest.length < n → pre c → r' c = r c ∧ Ends k c (r c)

abbrev Settled (n k : Nat) (r r' : Reader α) : Prop := SettledOn (fun _ => True) n k r r'

variable {pre q : Cursor → Prop} {n m j k l : Nat} {r r' : Reader α}

lemma Ends.mono {c : Cursor} {x : EStateM.Result Misread Cursor α} (h : Ends k c x)
    (hk : l ≤ k) : Ends l c x := by
  cases x with
  | ok x d => exact ⟨h.1, by have := h.2; omega⟩
  | error m d => exact h

lemma SettledOn.weaken (h : SettledOn pre n k r r') (hp : ∀ c, q c → pre c) (hn : m ≤ n)
    (hk : l ≤ k) : SettledOn q m l r r' := fun c hc hlt ht =>
  have hr := h c hc (Nat.lt_of_lt_of_le hlt hn) (hp c ht)
  ⟨hr.1, hr.2.mono hk⟩

lemma Settled.on (h : Settled n k r r') : SettledOn pre n k r r' :=
  h.weaken (fun _ _ => trivial) (Nat.le_refl _) (Nat.le_refl _)

theorem Settled.lower (h : Settled (n + 1) k r r') : Settled n 0 r r' :=
  h.weaken (fun _ h => h) (Nat.le_succ n) (Nat.zero_le k)

lemma Settled.untaken (h : Settled n k r r') : Settled n 0 r r' :=
  h.weaken (fun _ h => h) (Nat.le_refl _) (Nat.zero_le k)

lemma settled_pure {x : α} : SettledOn pre n 0 (pure x) (pure x) :=
  fun c _ _ _ => ⟨rfl, ⟨[], [], .refl c⟩, (Nat.le_refl _)⟩

lemma SettledOn.bind {f f' : α → Reader β}
    (hpre : ∀ {c d : Cursor}, pre c → d.rest.length + j ≤ c.rest.length → q d)
    (h : SettledOn pre n j r r') (hf : ∀ x, SettledOn q n (k - j) (f x) (f' x)) :
    SettledOn pre n k (r >>= f) (r' >>= f') := by
  intro c hc hlt hp
  obtain ⟨heq, hends⟩ := h c hc hlt hp
  change EStateM.bind r' f' c = EStateM.bind r f c ∧ Ends k c (EStateM.bind r f c)
  unfold EStateM.bind
  rw [heq]
  cases hm : r c with
  | error m d => exact ⟨rfl, by rwa [hm] at hends⟩
  | ok x d =>
    rw [hm] at hends
    obtain ⟨⟨ts, new, hd⟩, hle⟩ := hends
    obtain ⟨heq', hends'⟩ := hf x d (hd.finish ▸ hc) (by omega) (hpre hp hle)
    refine ⟨heq', ?_⟩
    dsimp only
    cases hm' : f x d with
    | ok y e =>
      rw [hm'] at hends'
      obtain ⟨⟨us, more, he⟩, hle'⟩ := hends'
      exact ⟨⟨_, _, hd.trans he⟩, by omega⟩
    | error m e =>
      rw [hm'] at hends'
      obtain ⟨⟨us, more, he⟩, htoken⟩ := hends'
      exact ⟨⟨ts ++ us, new ++ more, by simpa using hd.trans he⟩, htoken⟩

lemma Settled.bind {f f' : α → Reader β} (h : SettledOn pre n j r r')
    (hf : ∀ x, Settled n (k - j) (f x) (f' x)) : SettledOn pre n k (r >>= f) (r' >>= f') :=
  SettledOn.bind (fun _ _ => trivial) h hf

lemma SettledOn.map {f : α → β} (h : SettledOn pre n k r r') :
    SettledOn pre n k (f <$> r) (f <$> r') := by
  intro c hc hlt hp
  obtain ⟨heq, hends⟩ := h c hc hlt hp
  change EStateM.map f r' c = EStateM.map f r c ∧ Ends k c (EStateM.map f r c)
  unfold EStateM.map
  rw [heq]
  cases hm : r c <;> exact ⟨rfl, by rwa [hm] at hends⟩

lemma settled_look {f f' : Token → Reader α} (h : ∀ t, SettledOn (·.peek = t) n k (f t) (f' t)) :
    SettledOn pre n k (look >>= f) (look >>= f') :=
  fun c hc hlt _ => h c.peek c hc hlt rfl

lemma settled_get {f f' : Cursor → Reader α}
    (h : ∀ d, pre d → SettledOn (· = d) n k (f d) (f' d)) :
    SettledOn pre n k (get >>= f) (get >>= f') :=
  fun c hc hlt hp => h c hp c hc hlt rfl

theorem settled_skip {t : Token} (ht : t.kind ≠ .finish) (h : Settled n (k - 1) r r') :
    SettledOn (·.peek = t) (n + 1) k (skip >>= fun _ => r) (skip >>= fun _ => r') := by
  rintro c hc hlt rfl
  have hd := Cursor.passes_advance hc ht
  have hlen : c.rest.length = c.advance.rest.length + 1 := by
    simpa using congrArg List.length hd.rest
  obtain ⟨heq, hends⟩ := h c.advance (hd.finish ▸ hc) (by omega) trivial
  refine ⟨heq, ?_⟩
  change Ends k c (r c.advance)
  cases hm : r c.advance with
  | ok x e =>
    rw [hm] at hends
    obtain ⟨⟨us, new, he⟩, hle⟩ := hends
    exact ⟨⟨_, _, hd.trans he⟩, by omega⟩
  | error m e =>
    rw [hm] at hends
    obtain ⟨⟨us, new, he⟩, htoken⟩ := hends
    exact ⟨⟨_, new, by simpa using hd.trans he⟩, htoken⟩

lemma settled_report {t : Token} {problem : Problem} (h : problem.severity = .error) :
    SettledOn pre n 0 (report t problem) (report t problem) :=
  fun c _ _ _ => ⟨rfl, ⟨[], _, passes_report c t h⟩, (Nat.le_refl _)⟩

lemma settled_fail {t : Token} {problem : Problem} (h : problem.severity = .error) :
    SettledOn (·.peek = t) n k (fail t problem : Reader α) (fail t problem) := by
  rintro c _ _ rfl
  exact ⟨rfl, ⟨[], [], passes_report c _ h⟩, rfl⟩

lemma settled_sees {kind : Kind} : SettledOn pre n 0 (sees kind) (sees kind) :=
  fun c _ _ _ => ⟨rfl, ⟨[], [], .refl c⟩, (Nat.le_refl _)⟩

lemma settled_seesOneOf {kinds : List Kind} :
    SettledOn pre n 0 (seesOneOf kinds) (seesOneOf kinds) :=
  fun c _ _ _ => ⟨rfl, ⟨[], [], .refl c⟩, (Nat.le_refl _)⟩

lemma settled_ite {b : Bool} {s s' : Reader α} (h : SettledOn pre n k r r')
    (h' : SettledOn pre n k s s') :
    SettledOn pre n k (if b then r else s) (if b then r' else s') := by
  cases b
  · exact h'
  · exact h

lemma accept?_of_mem {kinds : List Kind} {c : Cursor} (h : c.peek.kind ∈ kinds) :
    accept? kinds c = .ok (some c.peek) c.advance := by
  change (if kinds.contains c.peek.kind then skip >>= fun _ => pure (some c.peek)
    else pure none : Reader (Option Token)) c = _
  rw [if_pos (by simpa using h)]
  rfl

lemma accept?_of_notMem {kinds : List Kind} {c : Cursor} (h : c.peek.kind ∉ kinds) :
    accept? kinds c = .ok none c := by
  change (if kinds.contains c.peek.kind then skip >>= fun _ => pure (some c.peek)
    else pure none : Reader (Option Token)) c = _
  rw [if_neg (by simpa using h)]
  rfl

theorem SettledOn.accept {kinds : List Kind} {f f' : Option Token → Reader α}
    (hkinds : .finish ∉ kinds)
    (hpre : ∀ {c d : Cursor}, pre c → d.rest.length < c.rest.length → q d)
    (hsome : ∀ t, SettledOn q n (k - 1) (f (some t)) (f' (some t)))
    (hnone : SettledOn pre (n + 1) k (f none) (f' none)) :
    SettledOn pre (n + 1) k (accept? kinds >>= f) (accept? kinds >>= f') := by
  intro c hc hlt hp
  change EStateM.bind _ f' c = EStateM.bind _ f c ∧ Ends k c (EStateM.bind _ f c)
  unfold EStateM.bind
  by_cases hk : c.peek.kind ∈ kinds
  · have hd := Cursor.passes_advance hc (fun hf => hkinds (hf ▸ hk))
    have hlen : c.rest.length = c.advance.rest.length + 1 := by
      simpa using congrArg List.length hd.rest
    obtain ⟨heq, hends⟩ :=
      hsome c.peek c.advance (hd.finish ▸ hc) (by omega) (hpre hp (by omega))
    rw [accept?_of_mem hk]
    refine ⟨heq, ?_⟩
    dsimp only
    cases hm : f (some c.peek) c.advance with
    | ok x e =>
      rw [hm] at hends
      obtain ⟨⟨us, new, he⟩, hle⟩ := hends
      exact ⟨⟨_, _, hd.trans he⟩, by omega⟩
    | error m e =>
      rw [hm] at hends
      obtain ⟨⟨us, new, he⟩, htoken⟩ := hends
      exact ⟨⟨_, new, by simpa using hd.trans he⟩, htoken⟩
  · rw [accept?_of_notMem hk]
    exact hnone c hc hlt hp

lemma Settled.accept {kinds : List Kind} {f f' : Option Token → Reader α}
    (hkinds : .finish ∉ kinds) (hsome : ∀ t, Settled n (k - 1) (f (some t)) (f' (some t)))
    (hnone : SettledOn pre (n + 1) k (f none) (f' none)) :
    SettledOn pre (n + 1) k (accept? kinds >>= f) (accept? kinds >>= f') :=
  SettledOn.accept hkinds (fun _ _ => trivial) hsome hnone

lemma settled_expect {what : Expectation} : SettledOn pre n 1 (expect what) (expect what) := by
  cases n with
  | zero => exact fun c _ hlt => absurd hlt (Nat.not_lt_zero _)
  | succ n =>
    refine settled_look fun t => ?_
    split
    · next ht =>
      refine settled_skip ?_ settled_pure
      rw [ht]
      cases what <;> simp [Expectation.kind]
    · exact settled_fail rfl

lemma settled_zero : SettledOn pre 0 k r r' := fun _ _ hlt => absurd hlt (Nat.not_lt_zero _)

section Loops

variable {ops : List Kind} {join : α → Token → α → α} {operand operand' : Reader α}
  {item item' : Reader α}

theorem chain_go_of_rest_nil {c : Cursor} (hops : .finish ∉ ops) (hc : c.finish.kind = .finish)
    (hrest : c.rest = []) (bound : Nat) (left : α) :
    chain.go ops join operand bound left c = .ok left c := by
  cases bound with
  | zero => rfl
  | succ bound =>
    have hnone : accept? ops c = .ok none c :=
      accept?_of_notMem (by simpa [Cursor.peek_kind hc, hrest] using hops)
    change EStateM.bind (accept? ops) _ c = _
    simp only [EStateM.bind, hnone]
    rfl

theorem settled_chain_go (hops : .finish ∉ ops) (h : Settled n 0 operand operand')
    (bound bound' : Nat) (left : α) :
    SettledOn (fun c => c.rest.length ≤ bound ∧ c.rest.length ≤ bound') n 0
      (chain.go ops join operand bound left) (chain.go ops join operand' bound' left) := by
  induction bound generalizing n bound' left with
  | zero =>
    rintro c hc - ⟨hle, -⟩
    have hrest := List.eq_nil_of_length_eq_zero (Nat.le_zero.mp hle)
    simp only [chain_go_of_rest_nil hops hc hrest]
    exact ⟨trivial, ⟨[], [], .refl c⟩, Nat.le_refl _⟩
  | succ bound ih =>
    cases bound' with
    | zero =>
      rintro c hc - ⟨-, hle⟩
      have hrest := List.eq_nil_of_length_eq_zero (Nat.le_zero.mp hle)
      simp only [chain_go_of_rest_nil hops hc hrest]
      exact ⟨trivial, ⟨[], [], .refl c⟩, Nat.le_refl _⟩
    | succ bound' =>
      cases n with
      | zero => exact settled_zero
      | succ n =>
        refine SettledOn.accept (q := fun c => c.rest.length ≤ bound ∧ c.rest.length ≤ bound')
          hops (fun hp hlt => by omega) (fun op => ?_) settled_pure
        exact SettledOn.bind (fun hp hle => by omega) h.lower.on fun right => ih h.lower _ _

lemma settled_chain (hops : .finish ∉ ops) (h : Settled n 0 operand operand') :
    Settled n 0 (chain ops join operand) (chain ops join operand') := by
  refine Settled.bind h fun first => Settled.bind settled_seesOneOf fun b => ?_
  refine settled_ite (settled_get fun d _ => ?_) settled_pure
  exact (settled_chain_go hops h _ _ first).weaken (by simp) (Nat.le_refl _) (Nat.le_refl _)

theorem settled_past (tooMany : Option Problem) (count : Nat) :
    (∀ p ∈ tooMany, p.severity = .error) → SettledOn pre n 0
      (match tooMany with
        | some problem =>
          if maxArguments ≤ count then look >>= fun t => report t problem else pure ()
        | none => pure ())
      (match tooMany with
        | some problem =>
          if maxArguments ≤ count then look >>= fun t => report t problem else pure ()
        | none => pure ()) := by
  intro hp
  cases tooMany with
  | none => exact settled_pure
  | some problem =>
    dsimp only
    split
    · exact settled_look fun t => settled_report (hp problem rfl)
    · exact settled_pure

lemma settled_commaList_go {tooMany : Option Problem} (hp : ∀ p ∈ tooMany, p.severity = .error)
    (h : Settled n 0 item item') (bound bound' count : Nat) :
    SettledOn (fun c => c.rest.length < bound ∧ c.rest.length < bound') n 0
      (commaList.go tooMany item bound count) (commaList.go tooMany item' bound' count) := by
  induction bound generalizing n bound' count with
  | zero => exact fun c _ _ hlt => absurd hlt.1 (Nat.not_lt_zero _)
  | succ bound ih =>
    cases bound' with
    | zero => exact fun c _ _ hlt => absurd hlt.2 (Nat.not_lt_zero _)
    | succ bound' =>
      simp only [commaList_go_succ]
      have hle {c d : Cursor} (hp : c.rest.length < bound + 1 ∧ c.rest.length < bound' + 1)
          (hd : d.rest.length ≤ c.rest.length) :
          d.rest.length < bound + 1 ∧ d.rest.length < bound' + 1 := by omega
      refine SettledOn.bind hle (settled_past tooMany count hp) fun _ =>
        SettledOn.bind hle h.on fun x => ?_
      cases n with
      | zero => exact settled_zero
      | succ n =>
        refine SettledOn.accept (q := fun c => c.rest.length < bound ∧ c.rest.length < bound')
          (by simp) (fun hp hlt => by omega) (fun _ => ?_) settled_pure
        exact Settled.bind (ih h.lower _ _) fun more => settled_pure

lemma settled_commaList {tooMany : Option Problem} (hp : ∀ p ∈ tooMany, p.severity = .error)
    (h : Settled n 0 item item') :
    Settled n 0 (commaList tooMany item) (commaList tooMany item') :=
  settled_get fun _ _ =>
    (settled_commaList_go hp h _ _ 0).weaken (by simp) (Nat.le_refl _) (Nat.le_refl _)

lemma settled_collect (stop : Cursor → Bool) (h : SettledOn (stop · = false) n k item item') :
    Settled n 0 (collect stop item) (collect stop item') := by
  have go (bound : Nat) :
      Settled n 0 (collect.go stop item bound) (collect.go stop item' bound) := by
    induction bound with
    | zero => exact settled_pure
    | succ bound ih =>
      refine settled_get fun d _ => ?_
      cases hd : stop d with
      | true => exact settled_pure
      | false =>
        refine Settled.bind (h.weaken ?_ (Nat.le_refl _) (Nat.zero_le _)) fun x =>
          Settled.bind ih fun more => settled_pure
        rintro c rfl
        exact hd
  exact settled_get fun d _ => (go d.rest.length).on

end Loops

end Reader

namespace Readers

open Reader

structure AreSettled (n : Nat) (inner inner' : Readers) : Prop where
  expression : Settled n 0 inner.expression inner'.expression
  ternary : Settled n 0 inner.ternary inner'.ternary
  equality : Settled n 0 inner.equality inner'.equality
  comparison : Settled n 0 inner.comparison inner'.comparison
  sum : Settled n 0 inner.sum inner'.sum
  product : Settled n 0 inner.product inner'.product
  sign : Settled n 0 inner.sign inner'.sign
  statement : ∀ b, Settled n 0 (inner.statement b) (inner'.statement b)
  -- At the end of the tokens there is none to take.
  declaration : ∀ b, SettledOn (·.rest ≠ []) n 1 (inner.declaration b) (inner'.declaration b)

def endsBraces (c : Cursor) : Bool := c.sees .rightBrace || c.atEnd

lemma rest_ne_nil_of_endsBraces {c : Cursor} (h : endsBraces c = false) : c.rest ≠ [] := by
  intro hrest
  simp [endsBraces, Cursor.atEnd, hrest] at h

variable {n : Nat} {inner inner' : Readers}

/-! Functions. -/

lemma settled_readBlock (h : AreSettled n inner inner') (b : Bool) :
    Settled n 0 (inner.readBlock b) (inner'.readBlock b) := by
  refine Settled.bind (settled_collect endsBraces (k := 1) ?_) fun body =>
    Settled.bind settled_expect fun _ => settled_pure
  exact (h.declaration b).weaken (fun _ => rest_ne_nil_of_endsBraces) (Nat.le_refl _)
    (Nat.le_refl _)

lemma settled_readParams (paren : Token) :
    Settled n 0 (readParams paren) (readParams paren) := by
  rw [readParams_eq]
  refine Settled.bind settled_sees fun b => Settled.bind (settled_ite settled_pure ?_) fun names =>
    Settled.bind settled_expect fun _ => settled_pure
  exact settled_commaList (by simp [Problem.severity]) (Settled.untaken settled_expect)

lemma settled_readBody (h : AreSettled n inner inner') (brace head : Token)
    (params : Option Params) :
    Settled n 0 (inner.readBody brace head params) (inner'.readBody brace head params) :=
  Settled.bind (settled_readBlock h false) fun _ => settled_pure

lemma settled_readLambda (h : AreSettled n inner inner') (keyword : Token) :
    Settled n 0 (inner.readLambda keyword) (inner'.readLambda keyword) :=
  Settled.bind settled_expect fun paren => Settled.bind (settled_readParams paren) fun params =>
    Settled.bind settled_expect fun brace =>
    Settled.bind (settled_readBody h brace keyword (some params)) fun _ => settled_pure

lemma settled_readFunction (h : AreSettled n inner inner') (what : Declared) :
    Settled n 1 (inner.readFunction what) (inner'.readFunction what) := by
  rw [readFunction_eq, readFunction_eq]
  refine Settled.bind settled_expect fun name => Settled.bind settled_sees fun b =>
    Settled.bind (settled_ite ?_ settled_pure) fun params =>
    Settled.bind settled_expect fun brace => settled_readBody h brace name params
  exact Settled.bind settled_expect fun paren => (settled_readParams paren).map

/-! Expressions. -/

lemma settled_readArguments (h : AreSettled n inner inner') :
    Settled n 0 inner.readArguments inner'.readArguments :=
  Settled.bind settled_sees fun b => settled_ite settled_pure
    (settled_commaList (by simp [Problem.severity]) h.ternary)

lemma settled_readList (h : AreSettled n inner inner') (bracket : Token) :
    Settled n 0 (inner.readList bracket) (inner'.readList bracket) := by
  rw [readList_eq, readList_eq]
  exact Settled.bind settled_sees fun b =>
    Settled.bind (settled_ite settled_pure (settled_commaList (by simp) h.ternary)) fun es =>
    Settled.bind settled_expect fun _ => settled_pure

lemma settled_readGrouping (h : AreSettled n inner inner') (paren : Token) :
    Settled n 0 (inner.readGrouping paren) (inner'.readGrouping paren) :=
  Settled.bind h.expression fun _ => Settled.bind settled_expect fun _ => settled_pure

lemma settled_readSuper (keyword : Token) :
    Settled n 0 (readSuper keyword) (readSuper keyword) :=
  Settled.bind settled_expect fun _ => Settled.bind settled_expect fun _ => settled_pure

lemma settled_readOrphan {operand operand' : Reader Expr} (op : Token)
    (h : Settled n 0 operand operand') :
    Settled n 0 (readOrphan op operand) (readOrphan op operand') :=
  Settled.bind (settled_report rfl) fun _ => Settled.bind h fun _ =>
    settled_look fun _ => settled_pure

lemma settled_readPrimary (h : AreSettled n inner inner') :
    Settled (n + 1) 0 inner.readPrimary inner'.readPrimary := by
  refine settled_look fun t => ?_
  cases hl : t.literal? with
  | some value => exact settled_skip (kind_ne_finish_of_literal hl) settled_pure
  | none =>
    dsimp only
    split
    case h_1 hk | h_2 hk => exact settled_skip (by simp [hk]) settled_pure
    case h_3 hk => exact settled_skip (by simp [hk]) (settled_readSuper t)
    case h_4 hk => exact settled_skip (by simp [hk]) (settled_readGrouping h t)
    case h_5 hk => exact settled_skip (by simp [hk]) (settled_readList h t)
    case h_6 hk | h_7 hk => exact settled_skip (by simp [hk]) (settled_readOrphan t h.equality)
    case h_8 hk | h_9 hk | h_10 hk | h_11 hk =>
      exact settled_skip (by simp [hk]) (settled_readOrphan t h.comparison)
    case h_12 hk => exact settled_skip (by simp [hk]) (settled_readOrphan t h.sum)
    case h_13 hk | h_14 hk | h_15 hk =>
      exact settled_skip (by simp [hk]) (settled_readOrphan t h.product)
    case h_16 => exact settled_fail rfl

theorem readSuffixes_of_rest_nil {c : Cursor} (hc : c.finish.kind = .finish) (hrest : c.rest = [])
    (bound : Nat) (e : Expr) : inner.readSuffixes bound e c = .ok e c := by
  cases bound with
  | zero => rfl
  | succ bound =>
    have hnone (kind : Kind) (hk : .finish ≠ kind) : accept? [kind] c = .ok none c :=
      accept?_of_notMem (by simpa [Cursor.peek_kind hc, hrest] using hk)
    change EStateM.bind (accept? [.leftParen]) _ c = _
    simp only [EStateM.bind, hnone .leftParen (by simp)]
    change EStateM.bind (accept? [.dot]) _ c = _
    simp only [EStateM.bind, hnone .dot (by simp)]
    rfl

lemma AreSettled.lower (h : AreSettled (n + 1) inner inner') : AreSettled n inner inner' where
  expression := h.expression.lower
  ternary := h.ternary.lower
  equality := h.equality.lower
  comparison := h.comparison.lower
  sum := h.sum.lower
  product := h.product.lower
  sign := h.sign.lower
  statement b := (h.statement b).lower
  declaration b := (h.declaration b).weaken (fun _ h => h) (Nat.le_succ n) (Nat.le_refl _)

theorem settled_readSuffixes (h : AreSettled n inner inner') (bound bound' : Nat) (e : Expr) :
    SettledOn (fun c => c.rest.length ≤ bound ∧ c.rest.length ≤ bound') (n + 1) 0
      (inner.readSuffixes bound e) (inner'.readSuffixes bound' e) := by
  induction bound generalizing n bound' e with
  | zero =>
    rintro c hc - ⟨hle, -⟩
    have hrest := List.eq_nil_of_length_eq_zero (Nat.le_zero.mp hle)
    simp only [readSuffixes_of_rest_nil hc hrest]
    exact ⟨trivial, ⟨[], [], .refl c⟩, Nat.le_refl _⟩
  | succ bound ih =>
    cases bound' with
    | zero =>
      rintro c hc - ⟨-, hle⟩
      have hrest := List.eq_nil_of_length_eq_zero (Nat.le_zero.mp hle)
      simp only [readSuffixes_of_rest_nil hc hrest]
      exact ⟨trivial, ⟨[], [], .refl c⟩, Nat.le_refl _⟩
    | succ bound' =>
      have next (e : Expr) : SettledOn (fun c => c.rest.length ≤ bound ∧ c.rest.length ≤ bound') n 0
          (inner.readSuffixes bound e) (inner'.readSuffixes bound' e) := by
        cases n with
        | zero => exact settled_zero
        | succ n => exact ih h.lower bound' e
      refine SettledOn.accept (q := fun c => c.rest.length ≤ bound ∧ c.rest.length ≤ bound')
        (by simp) (fun hp hlt => by omega) (fun _ => ?_)
        (SettledOn.accept (q := fun c => c.rest.length ≤ bound ∧ c.rest.length ≤ bound')
          (by simp) (fun hp hlt => by omega) (fun _ => ?_) settled_pure)
      · exact SettledOn.bind (q := fun c => c.rest.length ≤ bound ∧ c.rest.length ≤ bound')
          (fun hp hle => by omega) (settled_readArguments h).on fun es =>
          SettledOn.bind (fun hp hle => by omega) settled_expect fun closing => next _
      · exact SettledOn.bind (fun hp hle => by omega) settled_expect fun name => next _

lemma settled_readCall (h : AreSettled n inner inner') :
    Settled (n + 1) 0 inner.readCall inner'.readCall := by
  refine Settled.bind (settled_readPrimary h) fun e => Settled.bind settled_seesOneOf fun b => ?_
  refine settled_ite (settled_get fun d _ => ?_) settled_pure
  exact (settled_readSuffixes h _ _ e).weaken (by simp) (Nat.le_refl _) (Nat.le_refl _)

lemma settled_readSign (h : AreSettled n inner inner') :
    Settled (n + 1) 0 inner.readSign inner'.readSign :=
  Settled.accept (by simp) (fun _ => Settled.bind h.sign fun _ => settled_pure) (settled_readCall h)

lemma settled_readProduct (h : AreSettled n inner inner') :
    Settled (n + 1) 0 inner.readProduct inner'.readProduct :=
  settled_chain (by simp) (settled_readSign h)

lemma settled_readSum (h : AreSettled n inner inner') :
    Settled (n + 1) 0 inner.readSum inner'.readSum :=
  settled_chain (by simp) (settled_readProduct h)

lemma settled_readComparison (h : AreSettled n inner inner') :
    Settled (n + 1) 0 inner.readComparison inner'.readComparison :=
  settled_chain (by simp) (settled_readSum h)

lemma settled_readEquality (h : AreSettled n inner inner') :
    Settled (n + 1) 0 inner.readEquality inner'.readEquality :=
  settled_chain (by simp) (settled_readComparison h)

lemma settled_readAnd (h : AreSettled n inner inner') :
    Settled (n + 1) 0 inner.readAnd inner'.readAnd :=
  settled_chain (by simp) (settled_readEquality h)

lemma settled_readOr (h : AreSettled n inner inner') :
    Settled (n + 1) 0 inner.readOr inner'.readOr :=
  settled_chain (by simp) (settled_readAnd h)

lemma settled_finishAssignment (h : AreSettled n inner inner') (target : Expr) (equals : Token) :
    Settled n 0 (inner.finishAssignment target equals) (inner'.finishAssignment target equals) := by
  refine Settled.bind h.ternary fun value => ?_
  cases target
  case ref | get => exact settled_pure
  all_goals exact Settled.bind (settled_report rfl) fun _ => settled_pure

lemma settled_readAssignment (h : AreSettled n inner inner') :
    Settled (n + 1) 0 inner.readAssignment inner'.readAssignment :=
  Settled.bind (settled_readOr h) fun target =>
    Settled.accept (by simp) (fun equals => settled_finishAssignment h target equals) settled_pure

lemma settled_finishConditional (h : AreSettled n inner inner') (c : Expr) (mark : Token) :
    Settled n 0 (inner.finishConditional c mark) (inner'.finishConditional c mark) :=
  Settled.bind h.expression fun _ => Settled.bind settled_expect fun _ =>
    Settled.bind h.ternary fun _ => settled_pure

lemma settled_readTernary (h : AreSettled n inner inner') :
    Settled (n + 1) 0 inner.readTernary inner'.readTernary :=
  Settled.accept (by simp) (fun keyword => settled_readLambda h keyword)
    (Settled.bind (settled_readAssignment h) fun e => Settled.accept (by simp)
      (fun mark => settled_finishConditional h e mark) settled_pure)

lemma settled_readExpression (h : AreSettled n inner inner') :
    Settled (n + 1) 0 inner.readExpression inner'.readExpression :=
  settled_chain (by simp) (settled_readTernary h)

def tier (inner : Readers) : Level → Reader Expr
  | .comma => inner.readExpression
  | .ternary => inner.readTernary
  | .assignment => inner.readAssignment
  | .or => inner.readOr
  | .and => inner.readAnd
  | .equality => inner.readEquality
  | .comparison => inner.readComparison
  | .sum => inner.readSum
  | .product => inner.readProduct
  | .sign => inner.readSign
  | .call => inner.readCall
  | .primary => inner.readPrimary

lemma settled_tier (h : AreSettled n inner inner') (level : Level) :
    Settled (n + 1) 0 (inner.tier level) (inner'.tier level) := by
  cases level with
  | comma => exact settled_readExpression h
  | ternary => exact settled_readTernary h
  | assignment => exact settled_readAssignment h
  | or => exact settled_readOr h
  | and => exact settled_readAnd h
  | equality => exact settled_readEquality h
  | comparison => exact settled_readComparison h
  | sum => exact settled_readSum h
  | product => exact settled_readProduct h
  | sign => exact settled_readSign h
  | call => exact settled_readCall h
  | primary => exact settled_readPrimary h

/-! Statements. -/

lemma settled_optional (h : AreSettled n inner inner') {b : Bool} :
    Settled (n + 1) 0 (if b then pure none else some <$> inner.readExpression)
      (if b then pure none else some <$> inner'.readExpression) :=
  settled_ite settled_pure (settled_readExpression h).map

lemma settled_readVar (h : AreSettled n inner inner') :
    Settled (n + 1) 1 inner.readVar inner'.readVar := by
  rw [readVar_eq, readVar_eq]
  have hend {m : Nat} (name : Token) (init : Option Expr) :
      Settled m 0 (expect .variableEnd >>= fun _ => pure (Stmt.var name init))
        (expect .variableEnd >>= fun _ => pure (Stmt.var name init)) :=
    Settled.bind settled_expect fun _ => settled_pure
  exact Settled.bind settled_expect fun name => Settled.accept (by simp)
    (fun _ => Settled.bind (settled_readExpression h).lower.map fun _ => hend name _) (hend name _)

lemma settled_readExpressionStmt (h : AreSettled n inner inner') :
    Settled (n + 1) 1 inner.readExpressionStmt inner'.readExpressionStmt :=
  settled_look fun _ => Settled.bind (settled_readExpression h).on fun _ =>
    Settled.bind settled_expect fun _ => settled_pure

lemma settled_readPrint (h : AreSettled n inner inner') (keyword : Token) :
    Settled n 0 (inner.readPrint keyword) (inner'.readPrint keyword) :=
  Settled.bind (settled_readExpression h).lower fun _ => Settled.bind settled_expect fun _ =>
    settled_pure

lemma settled_readReturn (h : AreSettled n inner inner') (keyword : Token) :
    Settled n 0 (inner.readReturn keyword) (inner'.readReturn keyword) := by
  rw [readReturn_eq, readReturn_eq]
  exact Settled.bind settled_sees fun b => Settled.bind (settled_optional h).lower fun _ =>
    Settled.bind settled_expect fun _ => settled_pure

lemma settled_readBreak (inLoop : Bool) (keyword : Token) :
    Settled n 0 (readBreak inLoop keyword) (readBreak inLoop keyword) := by
  cases inLoop
  · exact Settled.bind (settled_report rfl) fun _ => Settled.bind settled_expect fun _ =>
      settled_pure
  · exact Settled.bind settled_expect fun _ => settled_pure

lemma settled_readIf (h : AreSettled n inner inner') (inLoop : Bool) (keyword : Token) :
    Settled n 0 (inner.readIf inLoop keyword) (inner'.readIf inLoop keyword) := by
  rw [readIf_eq, readIf_eq]
  refine Settled.bind settled_expect fun _ => Settled.bind (settled_readExpression h).lower
    fun c => Settled.bind settled_expect fun _ => Settled.bind (h.statement inLoop) fun yes => ?_
  cases n with
  | zero => exact settled_zero
  | succ n =>
    exact Settled.accept (by simp)
      (fun _ => Settled.bind (h.lower.statement inLoop).map fun _ => settled_pure)
      (Settled.bind settled_pure fun _ => settled_pure)

lemma settled_readWhile (h : AreSettled n inner inner') (keyword : Token) :
    Settled n 0 (inner.readWhile keyword) (inner'.readWhile keyword) :=
  Settled.bind settled_expect fun _ => Settled.bind (settled_readExpression h).lower fun _ =>
    Settled.bind settled_expect fun _ => Settled.bind (h.statement true) fun _ => settled_pure

lemma settled_readForInit (h : AreSettled n inner inner') :
    Settled (n + 1) 0 inner.readForInit inner'.readForInit :=
  Settled.accept (by simp) (fun _ => settled_pure) (Settled.accept (by simp)
    (fun _ => (settled_readVar h).lower.map) (settled_readExpressionStmt h).untaken.map)

lemma settled_readFor (h : AreSettled n inner inner') (keyword : Token) :
    Settled n 0 (inner.readFor keyword) (inner'.readFor keyword) := by
  rw [readFor_eq, readFor_eq]
  exact Settled.bind settled_expect fun _ => Settled.bind (settled_readForInit h).lower fun _ =>
    Settled.bind settled_sees fun _ => Settled.bind (settled_optional h).lower fun _ =>
    Settled.bind settled_expect fun _ => Settled.bind settled_sees fun _ =>
    Settled.bind (settled_optional h).lower fun _ => Settled.bind settled_expect fun _ =>
    Settled.bind (h.statement true) fun _ => settled_pure

lemma settled_readStatement (h : AreSettled n inner inner') (inLoop : Bool) :
    Settled (n + 1) 1 (inner.readStatement inLoop) (inner'.readStatement inLoop) := by
  refine settled_look fun t => ?_
  split
  case h_1 hk => exact settled_skip (by simp [hk]) (settled_readBreak inLoop t)
  case h_2 hk => exact settled_skip (by simp [hk]) (settled_readFor h t)
  case h_3 hk => exact settled_skip (by simp [hk]) (settled_readIf h inLoop t)
  case h_4 hk =>
    exact settled_skip (by simp [hk]) (Settled.bind (settled_readBlock h inLoop) fun _ =>
      settled_pure)
  case h_5 hk => exact settled_skip (by simp [hk]) (settled_readPrint h t)
  case h_6 hk => exact settled_skip (by simp [hk]) (settled_readReturn h t)
  case h_7 hk => exact settled_skip (by simp [hk]) (settled_readWhile h t)
  case h_8 => exact (settled_readExpressionStmt h).on

/-! Declarations. -/

lemma settled_readMember (h : AreSettled n inner inner') :
    Settled n 1 inner.readMember inner'.readMember := by
  cases n with
  | zero => exact settled_zero
  | succ n =>
    exact Settled.accept (by simp)
      (fun _ => Settled.bind (settled_readFunction h .staticMethod).lower fun _ => settled_pure)
      (Settled.bind (settled_readFunction h .method) fun _ => settled_pure)

lemma settled_readSuperclass : Settled n 0 readSuperclass readSuperclass := by
  cases n with
  | zero => exact settled_zero
  | succ n =>
    exact Settled.accept (by simp) (fun _ => Settled.bind settled_expect fun _ => settled_pure)
      settled_pure

lemma settled_readClass (h : AreSettled n inner inner') :
    Settled n 0 inner.readClass inner'.readClass :=
  Settled.bind settled_expect fun _ => Settled.bind settled_readSuperclass fun _ =>
    Settled.bind settled_expect fun _ =>
    Settled.bind (settled_collect endsBraces (settled_readMember h).on) fun _ =>
    Settled.bind settled_expect fun _ => settled_pure

lemma settled_readDeclared (h : AreSettled n inner inner') (inLoop : Bool) :
    Settled (n + 1) 1 (inner.readDeclared inLoop) (inner'.readDeclared inLoop) := by
  refine Settled.accept (by simp) (fun _ => settled_readClass h) (settled_get fun d _ => ?_)
  by_cases hd : declaresFunction d = true
  · rw [if_pos hd, if_pos hd]
    have hk := kind_peek_of_declaresFunction hd
    refine (settled_skip (t := d.peek) (by simp [hk]) (Settled.bind
      (settled_readFunction h .function) fun _ => settled_pure)).weaken ?_ (Nat.le_refl _)
      (Nat.le_refl _)
    exact fun c hc => congrArg Cursor.peek hc
  · rw [if_neg hd, if_neg hd]
    exact Settled.accept (by simp) (fun _ => (settled_readVar h).lower)
      (settled_readStatement h inLoop).on

theorem settled_readDeclaration (h : AreSettled n inner inner') (inLoop : Bool) :
    SettledOn (·.rest ≠ []) (n + 1) 1 (inner.readDeclaration inLoop)
      (inner'.readDeclaration inLoop) := by
  intro c hc hlt hne
  obtain ⟨heq, hends⟩ := settled_readDeclared h inLoop c hc hlt trivial
  unfold readDeclaration orElse
  rw [heq]
  cases hm : inner.readDeclared inLoop c with
  | ok x d =>
    rw [hm] at hends
    exact ⟨rfl, hends⟩
  | error m d =>
    rw [hm] at hends
    obtain ⟨⟨ts, new, hd⟩, -⟩ := hends
    obtain ⟨us, hskip⟩ := d.passes_skipStatement
    refine ⟨rfl, ⟨_, _, hd.trans hskip⟩, ?_⟩
    by_cases hrest : d.rest = []
    · have hpos := List.length_pos_iff.mpr hne
      have hskipped := hskip.length_le
      rw [hrest] at hskipped
      simp only [List.length_nil] at hskipped
      omega
    · exact Nat.lt_of_lt_of_le (Cursor.length_skipStatement_lt hrest) hd.length_le

lemma AreSettled.within (h : AreSettled n inner inner') :
    AreSettled (n + 1) (within inner) (within inner') where
  expression := settled_readExpression h
  ternary := settled_readTernary h
  equality := settled_readEquality h
  comparison := settled_readComparison h
  sum := settled_readSum h
  product := settled_readProduct h
  sign := settled_readSign h
  statement b := (settled_readStatement h b).untaken
  declaration := settled_readDeclaration h

lemma areSettled_zero : AreSettled 0 inner inner' where
  expression := settled_zero
  ternary := settled_zero
  equality := settled_zero
  comparison := settled_zero
  sum := settled_zero
  product := settled_zero
  sign := settled_zero
  statement _ := settled_zero
  declaration _ := settled_zero

theorem areSettled_iterate (base base' : Readers) (n : Nat) :
    AreSettled n (within^[n] base) (within^[n] base') := by
  induction n with
  | zero => exact areSettled_zero
  | succ n ih =>
    rw [Function.iterate_succ_apply', Function.iterate_succ_apply']
    exact ih.within

lemma nested_eq_iterate (n : Nat) : nested n = within^[n] empty := by
  induction n with
  | zero => rfl
  | succ n ih => rw [Function.iterate_succ_apply', ← ih, nested]

end Readers

end Lox
