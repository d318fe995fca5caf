import Lox.Grammar
import Lox.Proofs.Grammar.Following

/-! Whatever spells a phrase is read without a report. Readers that are nested as deep as a phrase
has tokens read all of it. -/

namespace Lox

namespace Readers

open Reader

def EndsStatement (takesElse : Bool) (rest : List Token) : Prop :=
  takesElse = true → following rest ≠ .elseWord

structure AreComplete (inner : Readers) (n : Nat) : Prop where
  expression : ∀ e ts, Spells (.expression .comma e) ts → ts.length ≤ n →
    Reads inner.expression ts e (Level.Ends .comma e <| following ·)
  ternary : ∀ e ts, Spells (.expression .ternary e) ts → ts.length ≤ n →
    Reads inner.ternary ts e (Level.Ends .ternary e <| following ·)
  sign : ∀ e ts, Spells (.expression .sign e) ts → ts.length ≤ n →
    Reads inner.sign ts e (Level.Ends .sign e <| following ·)
  statement : ∀ b o s ts, Spells (.statement b o s) ts → ts.length ≤ n →
    Reads (inner.statement b) ts s (EndsStatement o)
  declaration : ∀ b s ts, Spells (.declaration b s) ts → ts.length ≤ n →
    Reads (inner.declaration b) ts s (EndsStatement true)

variable {inner : Readers} {n : Nat} {ts : List Token}

/-! Lists. -/

lemma listed_expressions {es : List Expr} (h : Spells (.expressions es) ts)
    (hn : ts.length ≤ n) :
    Listed (fun e us => Spells (.expression .ternary e) us ∧ us.length ≤ n) es ts := by
  generalize hφ : Phrase.expressions es = φ at h
  induction h generalizing es with
  | lastExpression he =>
    cases hφ
    exact .last ⟨he, hn⟩
  | moreExpressions hk he _ _ ih =>
    cases hφ
    simp only [List.length_append, List.length_cons] at hn
    exact .more hk ⟨he, by omega⟩ (ih (by omega) rfl)
  | _ => cases hφ

lemma listed_names {ps : List Token} (h : Spells (.names ps) ts) :
    Listed (fun p us => us = [p] ∧ p.kind = .identifier) ps ts := by
  generalize hφ : Phrase.names ps = φ at h
  induction h generalizing ps with
  | lastName hp =>
    cases hφ
    exact .last ⟨rfl, hp⟩
  | moreNames hp hk _ ih =>
    cases hφ
    exact Listed.more (R := fun p us => us = [p] ∧ p.kind = .identifier) hk ⟨rfl, hp⟩ (ih rfl)
  | _ => cases hφ

lemma sequence_declarations {b : Bool} {body : List Stmt}
    (h : Spells (.declarations b body) ts) (hn : ts.length ≤ n) :
    Sequence (fun s us => Spells (.declaration b s) us ∧ us.length ≤ n) body ts := by
  generalize hφ : Phrase.declarations b body = φ at h
  induction h generalizing body with
  | noDeclarations =>
    cases hφ
    exact .nil
  | declarations hs _ _ ih =>
    cases hφ
    simp only [List.length_append] at hn
    exact .cons ⟨hs, by omega⟩ (ih (by omega) rfl)
  | _ => cases hφ

/-! Functions. -/

lemma reads_declarations (h : inner.AreComplete n) {b : Bool} {body : List Stmt}
    {stop : Cursor → Bool} {S : List Token → Prop} (hbody : Spells (.declarations b body) ts)
    (hn : ts.length ≤ n) (hends : ∀ rest, S rest → following rest ≠ .elseWord)
    (hstart : ∀ c : Cursor, c.finish.kind = .finish → following c.rest ∉ [.finish, .rightBrace] →
      stop c = false)
    (hstop : ∀ c : Cursor, c.finish.kind = .finish → S c.rest → stop c = true) :
    Reads (collect stop (inner.declaration b)) ts body S := by
  have hfollowing {s : Stmt} {us : List Token} (hs : Spells (.declaration b s) us)
      (rest : List Token) : following (us ++ rest) ∉ [.finish, .rightBrace, .elseWord, .slash] := by
    rw [following_append (hs.ne_nil Nat.one_pos)]
    exact hs.following_declaration
  refine reads_collect (fun s us hs => h.declaration b s us hs.1 hs.2)
    (fun s us hs => hs.1.ne_nil Nat.one_pos) (fun rest hk _ => hends rest hk)
    (fun s us rest hs _ => ?_) (fun c s us rest hf hs hc => hstart c hf ?_) hstop
    (sequence_declarations hbody hn)
  · have := hfollowing hs.1 rest
    simp_all
  · have := hfollowing hs.1 rest
    simp_all

lemma atBrace_eq_false {c : Cursor} (hf : c.finish.kind = .finish)
    (hk : following c.rest ∉ [.finish, .rightBrace]) :
    (c.sees .rightBrace || c.atEnd) = false := by
  simp only [List.mem_cons, List.not_mem_nil, or_false, not_or] at hk
  have hrest : c.rest ≠ [] := fun hnil => hk.1 (by simp [hnil])
  simp [Cursor.sees, Cursor.peek_kind hf, hk.2, Cursor.atEnd, hrest]

lemma reads_readBlock (h : inner.AreComplete n) {b : Bool} {body : List Stmt} {closing : Token}
    (hbody : Spells (.declarations b body) ts) (hc : closing.kind = .rightBrace)
    (hn : ts.length ≤ n) :
    Reads (inner.readBlock b) (ts ++ [closing]) body fun _ => True := by
  refine (reads_declarations h (S := fun rest => following rest = .rightBrace) hbody hn ?_ ?_
    ?_).bind (by simp [hc]) (reads_expect hc reads_pure)
  · intro rest hk
    simp [hk]
  · exact fun c => atBrace_eq_false
  · intro c hf hk
    simp [Cursor.sees, Cursor.peek_kind hf, hk]

lemma reads_readParams {ps : Params} {paren : Token}
    (hps : Spells (.parameters ps) (paren :: ts)) :
    Reads (readParams paren) ts ps fun _ => True := by
  rw [readParams_eq]
  cases hps with
  | noParameters _ hc =>
    exact reads_sees true (by simp [hc]) (reads_pure_bind (reads_expect hc reads_pure))
  | @parameters _ _ ps us _ hc hle hps =>
    refine reads_sees false (fun rest _ => ?_) ?_
    · cases hps with
      | lastName hp | moreNames hp => simp [hp]
    · refine (reads_commaList (S := fun rest => following rest = .rightParen)
        (E := fun _ _ => True) ?_ (fun _ _ _ => trivial) (fun _ _ _ _ _ => trivial)
        (fun rest hk => by simp [hk]) (listed_names hps) fun _ => hle).bind
        (fun rest _ => by simp [hc]) (reads_expect hc reads_pure)
      rintro p _ ⟨rfl, hp⟩
      exact reads_expected hp

lemma reads_readBody (h : inner.AreComplete n) {brace head : Token} {params : Option Params}
    {line : Nat} {body : List Stmt} (hbody : Spells (.rest none line body) (brace :: ts))
    (hn : ts.length ≤ n) :
    Reads (inner.readBody brace head params) ts (.mk head params line body) fun _ => True := by
  cases hbody with
  | getter _ hc hbody =>
    exact (reads_readBlock h hbody hc (by simp at hn; omega)).bind_pure

lemma reads_readLambda (h : inner.AreComplete n) {keyword : Token} {params : Params}
    {line : Nat} {body : List Stmt} (hf : Spells (.rest (some params) line body) ts)
    (hn : ts.length ≤ n) :
    Reads (inner.readLambda keyword) ts (.lambda (.mk keyword (some params) line body))
      fun _ => True := by
  cases hf with
  | @rest _ _ _ us vs hps hbody =>
    rw [List.length_append] at hn
    obtain ⟨paren, us, rfl, hp⟩ := hps.paren_of_parameters
    obtain ⟨brace, vs, rfl, hb⟩ := hbody.brace_of_rest
    refine reads_expect hp ((reads_readParams hps).bind (fun _ _ => trivial) (reads_expect hb ?_))
    exact (reads_readBody h hbody (by simp at hn; omega)).bind_pure

lemma reads_readFunction (h : inner.AreComplete n) {what : Declared} {name : Token}
    {params : Option Params} {line : Nat} {body : List Stmt} (hname : name.kind = .identifier)
    (hf : Spells (.rest params line body) ts) (hn : ts.length ≤ n)
    (hsome : what = .function → params.isSome) :
    Reads (inner.readFunction what) (name :: ts) (.mk name params line body) fun _ => True := by
  rw [readFunction_eq]
  refine reads_expect hname ?_
  cases hf with
  | getter hb hc hbody =>
    refine reads_sees true (by simp [hb]) ?_
    rw [if_neg (by cases what <;> simp_all)]
    exact reads_pure_bind (reads_expect hb (reads_readBody h (.getter hb hc hbody)
      (by simp at hn ⊢; omega)))
  | @rest _ _ _ us vs hps hbody =>
    rw [List.length_append] at hn
    obtain ⟨paren, us, rfl, hp⟩ := hps.paren_of_parameters
    obtain ⟨brace, vs, rfl, hb⟩ := hbody.brace_of_rest
    refine reads_sees false (by simp [hp]) ?_
    rw [if_pos (by simp), bind_assoc]
    refine reads_expect hp ((reads_readParams hps).map.bind (fun _ _ => trivial) ?_)
    exact reads_expect hb (reads_readBody h hbody (by simp at hn; omega))

/-! Expressions. -/

lemma reads_items (h : inner.AreComplete n) {tooMany : Option Problem} {es : List Expr}
    (kind : Kind) (hes : Spells (.expressions es) ts) (hn : ts.length ≤ n)
    (hk : kind ∈ [.rightParen, .rightBracket])
    (hcount : tooMany.isSome → es.length ≤ maxArguments) :
    Reads (commaList tooMany inner.ternary) ts es fun rest => following rest = kind := by
  refine reads_commaList (E := fun e k => Level.Ends .ternary e k)
    (fun e us he => h.ternary e us he.1 he.2) (fun _ _ _ => Level.ends_ternary (by simp))
    (fun _ _ rest _ hrest => Level.ends_ternary (by simp_all)) (fun rest hrest => ?_)
    (listed_expressions hes hn) hcount
  rintro hc
  simp [← hrest, hc] at hk

lemma following_expressions {es : List Expr} (h : Spells (.expressions es) ts)
    (rest : List Token) : following (ts ++ rest) ∉ [.rightParen, .rightBracket] := by
  have hstarts : ∀ k ∈ Level.starts .ternary, k ∉ [.rightParen, .rightBracket] := by decide
  rw [following_append (h.ne_nil Nat.one_pos)]
  cases h with
  | lastExpression he => exact hstarts _ he.following_mem_starts
  | moreExpressions _ he _ =>
    rw [following_append (he.ne_nil Nat.one_pos)]
    exact hstarts _ he.following_mem_starts

lemma reads_readArguments (h : inner.AreComplete n) {es : List Expr}
    (hes : Spells (.items es) ts) (hn : ts.length ≤ n) (hcount : es.length ≤ maxArguments) :
    Reads inner.readArguments ts es fun rest => following rest = .rightParen := by
  cases hes with
  | noItems => exact reads_sees true (by simp) reads_pure
  | items hes =>
    refine reads_sees false (fun rest _ => ?_) 
      (reads_items h .rightParen hes hn (by simp) fun _ => hcount)
    have := following_expressions hes rest
    simp_all

lemma reads_readList (h : inner.AreComplete n) {es : List Expr} {opening closing : Token}
    (hc : closing.kind = .rightBracket) (hes : Spells (.items es) ts) (hn : ts.length ≤ n) :
    Reads (inner.readList opening) (ts ++ [closing]) (.list opening es) fun _ => True := by
  rw [readList_eq]
  cases hes with
  | noItems =>
    exact reads_sees true (by simp [hc]) (reads_pure_bind (reads_expect hc reads_pure))
  | items hes =>
    refine reads_sees false (fun rest _ => ?_) 
      ((reads_items h .rightBracket hes hn (by simp) (by simp)).bind (fun rest _ => by simp [hc])
        (reads_expect hc reads_pure))
    have := following_expressions hes ([closing] ++ rest)
    simp_all

lemma reads_readGrouping (h : inner.AreComplete n) {e : Expr} {opening closing : Token}
    (hc : closing.kind = .rightParen) (he : Spells (.expression .comma e) ts)
    (hn : ts.length ≤ n) :
    Reads (inner.readGrouping opening) (ts ++ [closing]) (.grouping opening e) fun _ => True :=
  (h.expression e ts he hn).bind (fun _ _ => Level.ends_comma (by simp [hc]))
    (reads_expect hc reads_pure)

lemma reads_readPrimary (h : inner.AreComplete n) {e : Expr}
    (he : Spells (.expression .primary e) ts) (hn : ts.length ≤ n + 1) :
    Reads inner.readPrimary ts e fun _ => True := by
  unfold readPrimary
  cases he with
  | pass hl => exact absurd rfl hl
  | join hop => simp [Level.ops] at hop
  | literal hl =>
    refine reads_look ?_
    simp only [hl]
    exact reads_skip reads_pure
  | this hk | ref hk =>
    refine reads_look ?_
    simp only [Token.literal?, hk]
    exact reads_skip reads_pure
  | super hk hd hm =>
    refine reads_look ?_
    simp only [Token.literal?, hk]
    exact reads_skip (reads_expect hd (reads_expect hm reads_pure))
  | grouping hk hc he =>
    refine reads_look ?_
    simp only [Token.literal?, hk]
    exact reads_skip (reads_readGrouping h hc he (by simp at hn; omega))
  | list hk hc hes =>
    refine reads_look ?_
    simp only [Token.literal?, hk]
    exact reads_skip (reads_readList h hc hes (by simp at hn; omega))

inductive Suffixed : Expr → List Token → Expr → Prop
  | nil {e} : Suffixed e [] e
  | call {e e' es opening closing ts us} : opening.kind = .leftParen →
      closing.kind = .rightParen → es.length ≤ maxArguments → Spells (.items es) ts →
      Suffixed (.call e closing es) us e' → Suffixed e (opening :: (ts ++ closing :: us)) e'
  | get {e e' name dot ts} : dot.kind = .dot → name.kind = .identifier →
      Suffixed (.get e name) ts e' → Suffixed e (dot :: name :: ts) e'

lemma Suffixed.trans {e e' e'' : Expr} {us : List Token} (h : Suffixed e ts e')
    (h' : Suffixed e' us e'') : Suffixed e (ts ++ us) e'' := by
  induction h with
  | nil => exact h'
  | call ho hc hle hes _ ih => simpa using Suffixed.call ho hc hle hes (ih h')
  | get hd hn _ ih => exact .get hd hn (ih h')

lemma exists_suffixed {e : Expr} (h : Spells (.expression .call e) ts) :
    ∃ first us vs, ts = us ++ vs ∧ Spells (.expression .primary first) us ∧
      Suffixed first vs e := by
  generalize hφ : Phrase.expression .call e = φ at h
  induction h generalizing e with
  | pass hl he =>
    obtain ⟨rfl, rfl⟩ := Phrase.expression.inj hφ
    exact ⟨e, _, [], by simp, he, .nil⟩
  | join hop =>
    obtain ⟨rfl, rfl⟩ := Phrase.expression.inj hφ
    simp [Level.ops] at hop
  | call ho hc hle _ hes ih =>
    cases hφ
    obtain ⟨first, us, vs, rfl, hfirst, hvs⟩ := ih rfl
    exact ⟨first, us, _, by simp, hfirst, hvs.trans (.call ho hc hle hes .nil)⟩
  | get hd hn _ ih =>
    cases hφ
    obtain ⟨first, us, vs, rfl, hfirst, hvs⟩ := ih rfl
    exact ⟨first, us, _, by simp, hfirst, hvs.trans (.get hd hn .nil)⟩
  | _ => cases hφ

lemma reads_readSuffixes (h : inner.AreComplete n) {e e' : Expr} (hs : Suffixed e ts e')
    (hn : ts.length ≤ n + 1) (bound : Nat) (hb : ts.length ≤ bound) :
    Reads (inner.readSuffixes bound e) ts e' fun rest => following rest ∉ [.leftParen, .dot] := by
  induction hs generalizing bound with
  | nil =>
    cases bound with
    | zero => exact reads_pure
    | succ bound =>
      exact reads_accept_none (by simp_all) (reads_accept_none (by simp_all) reads_pure)
  | call ho hc hle hes _ ih =>
    simp only [List.length_cons, List.length_append] at hn hb
    obtain ⟨bound, rfl⟩ := Nat.exists_eq_succ_of_ne_zero (n := bound) (by omega)
    refine reads_accept (by simp [ho]) ((reads_readArguments h hes (by omega) hle).bind ?_ ?_)
    · simp [hc]
    · exact reads_expect hc (ih (by omega) bound (by omega))
  | get hd hname _ ih =>
    simp only [List.length_cons] at hn hb
    obtain ⟨bound, rfl⟩ := Nat.exists_eq_succ_of_ne_zero (n := bound) (by omega)
    refine reads_accept_none (by simp [hd]) (reads_accept (by simp [hd]) ?_)
    exact reads_expect hname (ih (by omega) bound (by omega))

lemma reads_readCall (h : inner.AreComplete n) {e : Expr}
    (he : Spells (.expression .call e) ts) (hn : ts.length ≤ n + 1) :
    Reads inner.readCall ts e (Level.Ends .call e <| following ·) := by
  obtain ⟨first, us, vs, rfl, hfirst, hs⟩ := exists_suffixed he
  rw [List.length_append] at hn
  refine Reads.mono (S := fun rest => following rest ∉ [.leftParen, .dot]) ?_ fun rest =>
    Level.ends_call.mp
  refine (reads_readPrimary h hfirst (by omega)).bind (fun _ _ => trivial) ?_
  have hsuffixes := reads_readSuffixes h hs (by omega)
  cases hs with
  | nil => exact reads_seesOneOf false (by simp) reads_pure
  | call hk | get hk =>
    refine reads_seesOneOf true (by simp [hk]) (reads_get fun c _ hc _ _ => ?_)
    exact hsuffixes _ (by simp [hc])

lemma reads_readSign (h : inner.AreComplete n) {e : Expr}
    (he : Spells (.expression .sign e) ts) (hn : ts.length ≤ n + 1) :
    Reads inner.readSign ts e (Level.Ends .sign e <| following ·) := by
  cases he with
  | pass _ he =>
    refine reads_accept_none (fun rest _ => ?_) ((reads_readCall h he hn).mono fun rest hk =>
      Level.ends_call.mpr (Level.ends_sign.mp hk))
    have hstarts : ∀ k ∈ Level.starts .call, k ∉ [.bang, .minus] := by decide
    rw [following_append (he.ne_nil Nat.one_pos)]
    exact hstarts _ he.following_mem_starts
  | join hop => simp [Level.ops] at hop
  | sign hop he =>
    refine reads_accept hop ((h.sign _ _ he (by simp at hn; omega)).mono fun rest hk =>
      Level.ends_sign.mpr (Level.ends_sign.mp hk)).bind_pure

lemma exists_chained {level : Level} {e : Expr} (h : Spells (.expression level e) ts)
    (hops : level.ops ≠ []) (hn : ts.length ≤ n) :
    ∃ first us vs, ts = us ++ vs ∧ (Spells (.expression level.next first) us ∧ us.length ≤ n) ∧
      Chained level.ops level.join
        (fun e us => Spells (.expression level.next e) us ∧ us.length ≤ n) first vs e := by
  generalize hφ : Phrase.expression level e = φ at h
  induction h generalizing level e with
  | pass _ he =>
    obtain ⟨rfl, rfl⟩ := Phrase.expression.inj hφ
    exact ⟨e, _, [], by simp, ⟨he, hn⟩, .nil⟩
  | join hop _ hr ih =>
    obtain ⟨rfl, rfl⟩ := Phrase.expression.inj hφ
    simp only [List.length_append, List.length_cons] at hn
    obtain ⟨first, us, vs, rfl, hfirst, hvs⟩ := ih hops (by omega) rfl
    exact ⟨first, us, _, by simp, hfirst, hvs.snoc hop ⟨hr, by omega⟩⟩
  | _ => cases hφ <;> exact absurd rfl hops

theorem reads_tier (level : Level) (hops : level.ops ≠ []) {operand : Reader Expr}
    (h : ∀ e us, Spells (.expression level.next e) us ∧ us.length ≤ n →
      Reads operand us e (level.next.Ends e <| following ·))
    {e : Expr} (he : Spells (.expression level e) ts) (hn : ts.length ≤ n) :
    Reads (chain level.ops level.join operand) ts e (level.Ends e <| following ·) := by
  obtain ⟨first, us, vs, rfl, hfirst, hvs⟩ := exists_chained he hops hn
  exact reads_chain h (fun _ _ _ _ => Level.ends_of_mem_ops)
    (fun x _ _ _ hk => (hk.operand hops x).1) (fun rest hk => (hk.operand hops e).2) hfirst hvs

lemma reads_readProduct (h : inner.AreComplete n) {e : Expr}
    (he : Spells (.expression .product e) ts) (hn : ts.length ≤ n + 1) :
    Reads inner.readProduct ts e (Level.Ends .product e <| following ·) :=
  reads_tier .product (by simp [Level.ops]) (fun _ _ hr => reads_readSign h hr.1 hr.2) he hn

lemma reads_readSum (h : inner.AreComplete n) {e : Expr}
    (he : Spells (.expression .sum e) ts) (hn : ts.length ≤ n + 1) :
    Reads inner.readSum ts e (Level.Ends .sum e <| following ·) :=
  reads_tier .sum (by simp [Level.ops]) (fun _ _ hr => reads_readProduct h hr.1 hr.2) he hn

lemma reads_readComparison (h : inner.AreComplete n) {e : Expr}
    (he : Spells (.expression .comparison e) ts) (hn : ts.length ≤ n + 1) :
    Reads inner.readComparison ts e (Level.Ends .comparison e <| following ·) :=
  reads_tier .comparison (by simp [Level.ops]) (fun _ _ hr => reads_readSum h hr.1 hr.2) he hn

lemma reads_readEquality (h : inner.AreComplete n) {e : Expr}
    (he : Spells (.expression .equality e) ts) (hn : ts.length ≤ n + 1) :
    Reads inner.readEquality ts e (Level.Ends .equality e <| following ·) :=
  reads_tier .equality (by simp [Level.ops]) (fun _ _ hr => reads_readComparison h hr.1 hr.2) he hn

lemma reads_readAnd (h : inner.AreComplete n) {e : Expr}
    (he : Spells (.expression .and e) ts) (hn : ts.length ≤ n + 1) :
    Reads inner.readAnd ts e (Level.Ends .and e <| following ·) :=
  reads_tier .and (by simp [Level.ops]) (fun _ _ hr => reads_readEquality h hr.1 hr.2) he hn

lemma reads_readOr (h : inner.AreComplete n) {e : Expr}
    (he : Spells (.expression .or e) ts) (hn : ts.length ≤ n + 1) :
    Reads inner.readOr ts e (Level.Ends .or e <| following ·) :=
  reads_tier .or (by simp [Level.ops]) (fun _ _ hr => reads_readAnd h hr.1 hr.2) he hn

lemma reads_readAssignment (h : inner.AreComplete n) {e : Expr}
    (he : Spells (.expression .assignment e) ts) (hn : ts.length ≤ n + 1) :
    Reads inner.readAssignment ts e (Level.Ends .assignment e <| following ·) := by
  cases he with
  | pass _ he =>
    refine (reads_readOr h he hn).bind_last (fun rest hk => hk.target.1) ?_
    exact reads_accept_none (fun rest hk => by simpa using hk.target.2) reads_pure
  | join hop => simp [Level.ops] at hop
  | assign hk ht hv | set hk ht hv =>
    simp only [List.length_append, List.length_cons] at hn
    refine (reads_readOr h ht (by omega)).bind
      (fun rest _ => by simpa [hk] using Level.ends_equal) (reads_accept (by simp [hk]) ?_)
    exact ((h.ternary _ _ hv (by omega)).mono fun rest hr => hr.value rfl).bind_pure

lemma reads_readTernary (h : inner.AreComplete n) {e : Expr}
    (he : Spells (.expression .ternary e) ts) (hn : ts.length ≤ n + 1) :
    Reads inner.readTernary ts e (Level.Ends .ternary e <| following ·) := by
  have hstarts {c : Expr} {us : List Token} (hc : Spells (.expression .assignment c) us)
      (rest : List Token) : following (us ++ rest) ∉ [.funWord] := by
    have hstarts : ∀ k ∈ Level.starts .assignment, k ∉ [.funWord] := by decide
    rw [following_append (hc.ne_nil Nat.one_pos)]
    exact hstarts _ hc.following_mem_starts
  cases he with
  | pass _ he =>
    have hmark := he.takesMark (by simp [Level.next])
    refine reads_accept_none (fun rest _ => hstarts he rest) ?_
    refine (reads_readAssignment h he hn).bind_last (fun rest hk => (hk.condition hmark).1) ?_
    exact reads_accept_none (fun rest hk => by simpa using (hk.condition hmark).2) reads_pure
  | join hop => simp [Level.ops] at hop
  | lambda hk hf =>
    exact reads_accept (by simp [hk])
      ((reads_readLambda h hf (by simp at hn; omega)).mono fun _ _ => trivial)
  | conditional hm hcolon hl hc hyes hno =>
    simp only [List.length_append, List.length_cons] at hn
    refine reads_accept_none (fun rest _ => by simpa using hstarts hc _) ?_
    refine (reads_readAssignment h hc (by omega)).bind
      (fun rest _ => by simpa [hm] using Level.ends_question hl) (reads_accept (by simp [hm]) ?_)
    refine (h.expression _ _ hyes (by omega)).bind
      (fun rest _ => Level.ends_comma (by simp [hcolon])) (reads_expect hcolon ?_)
    exact ((h.ternary _ _ hno (by omega)).mono fun rest hr => hr.no).bind_pure

lemma reads_readExpression (h : inner.AreComplete n) {e : Expr}
    (he : Spells (.expression .comma e) ts) (hn : ts.length ≤ n + 1) :
    Reads inner.readExpression ts e (Level.Ends .comma e <| following ·) :=
  reads_tier .comma (by simp [Level.ops]) (fun _ _ hr => reads_readTernary h hr.1 hr.2) he hn

/-! Statements. -/

theorem reads_optional (h : inner.AreComplete n) {α : Type} {S : List Token → Prop}
    {e : Option Expr} {last : Token} {kind : Kind} {what : Expectation} {y : α}
    {f : Option Expr → Token → Reader α} {us : List Token} (he : Spells (.optional e) ts)
    (hn : ts.length ≤ n + 1) (hkind : kind ∈ [.semicolon, .rightParen])
    (hlast : last.kind = kind) (hwhat : what.kind = kind) (hf : Reads (f e last) us y S) :
    Reads (sees kind >>= fun b => (if b then pure none else some <$> inner.readExpression) >>=
      fun e => expect what >>= f e) (ts ++ last :: us) y S := by
  have hexpect : last.kind = what.kind := hlast.trans hwhat.symm
  cases he with
  | absent =>
    exact reads_sees true (by simp [hlast]) (reads_pure_bind (reads_expect hexpect hf))
  | present he =>
    have hstarts : ∀ k ∈ Level.starts .comma, k ∉ [.semicolon, .rightParen] := by decide
    have hends : ∀ k ∈ [Kind.semicolon, .rightParen], k ∈ [Kind.rightParen, .semicolon, .colon] := by
      decide
    refine reads_sees false (fun rest _ => ?_) ((reads_readExpression h he hn).map.bind
      (fun _ _ => Level.ends_comma (by simpa [hlast] using hends _ hkind)) (reads_expect hexpect hf))
    rw [List.append_assoc, following_append (he.ne_nil Nat.one_pos)]
    exact decide_eq_false fun hk => hstarts _ he.following_mem_starts (hk ▸ hkind)

lemma reads_readVar (h : inner.AreComplete n) {s : Stmt} (hs : Spells (.binding s) ts)
    (hn : ts.length ≤ n + 1) : Reads inner.readVar ts s fun _ => True := by
  rw [readVar_eq]
  cases hs with
  | uninitialized hname hend =>
    refine reads_expect hname (reads_accept_none (by simp [hend]) ?_)
    exact reads_pure_bind (reads_expect hend reads_pure)
  | initialized hname hk hend he =>
    simp only [List.length_cons, List.length_append] at hn
    refine reads_expect hname (reads_accept (by simp [hk]) ?_)
    exact (reads_readExpression h he (by omega)).map.bind
      (fun _ _ => Level.ends_comma (by simp [hend])) (reads_expect hend reads_pure)

lemma reads_readExpressionStmt (h : inner.AreComplete n) {s : Stmt}
    (hs : Spells (.expressionStatement s) ts) (hn : ts.length ≤ n + 1) :
    Reads inner.readExpressionStmt ts s fun _ => True := by
  cases hs with
  | expressionStatement hend he =>
    refine reads_look ?_
    rw [← List.cons_append]
    exact (reads_readExpression h he (by simp at hn ⊢; omega)).bind
      (fun _ _ => Level.ends_comma (by simp [hend])) (reads_expect hend reads_pure)

lemma reads_readForInit (h : inner.AreComplete n) {s : Option Stmt}
    (hs : Spells (.forStart s) ts) (hn : ts.length ≤ n + 1) :
    Reads inner.readForInit ts s fun _ => True := by
  cases hs with
  | forNothing hk => exact reads_accept (by simp [hk]) reads_pure
  | forVariable hk hv =>
    refine reads_accept_none (by simp [hk]) (reads_accept (by simp [hk]) ?_)
    exact (reads_readVar h hv (by simp at hn; omega)).map
  | forExpression he =>
    have hstarts : ∀ k ∈ Level.starts .comma, k ∉ [.semicolon] ∧ k ∉ [.varWord] := by decide
    have hts := hstarts _ he.following_expressionStatement
    have hfollowing := following_append (he.ne_nil Nat.one_pos)
    refine reads_accept_none (fun rest _ => hfollowing rest ▸ hts.1)
      (reads_accept_none (fun rest _ => hfollowing rest ▸ hts.2) ?_)
    exact (reads_readExpressionStmt h he hn).map

lemma reads_readIf (h : inner.AreComplete n) {b o : Bool} {keyword opening closing : Token}
    {c : Expr} {yes : Stmt} {us : List Token} (ho : opening.kind = .leftParen)
    (hp : closing.kind = .rightParen) (hc : Spells (.expression .comma c) ts)
    (hyes : Spells (.statement b o yes) us) (hn : (ts ++ us).length ≤ n) :
    Reads (inner.readIf b keyword) (opening :: (ts ++ closing :: us)) (.ifElse keyword c yes none)
      (EndsStatement true) := by
  rw [List.length_append] at hn
  rw [readIf_eq]
  refine reads_expect ho ((reads_readExpression h hc (by omega)).bind
    (fun _ _ => Level.ends_comma (by simp [hp])) (reads_expect hp ?_))
  refine (h.statement b o yes us hyes (by omega)).bind_last (fun rest hk _ => hk rfl) ?_
  exact reads_accept_none (fun rest hk => by simpa using hk rfl) (reads_pure_bind reads_pure)

lemma reads_readIfElse (h : inner.AreComplete n) {b o : Bool}
    {keyword opening closing word : Token} {c : Expr} {yes no : Stmt} {us vs : List Token}
    (ho : opening.kind = .leftParen) (hp : closing.kind = .rightParen)
    (hw : word.kind = .elseWord) (hc : Spells (.expression .comma c) ts)
    (hyes : Spells (.statement b false yes) us) (hno : Spells (.statement b o no) vs)
    (hn : (ts ++ us ++ vs).length ≤ n) :
    Reads (inner.readIf b keyword) (opening :: (ts ++ closing :: (us ++ word :: vs)))
      (.ifElse keyword c yes (some no)) (EndsStatement o) := by
  simp only [List.length_append] at hn
  rw [readIf_eq]
  refine reads_expect ho ((reads_readExpression h hc (by omega)).bind
    (fun _ _ => Level.ends_comma (by simp [hp])) (reads_expect hp ?_))
  refine (h.statement b false yes us hyes (by omega)).bind (fun rest _ hf => by simp at hf) ?_
  exact reads_accept (by simp [hw]) (h.statement b o no vs hno (by omega)).map.bind_pure

lemma reads_readWhile (h : inner.AreComplete n) {o : Bool} {keyword opening closing : Token}
    {c : Expr} {body : Stmt} {us : List Token} (ho : opening.kind = .leftParen)
    (hp : closing.kind = .rightParen) (hc : Spells (.expression .comma c) ts)
    (hbody : Spells (.statement true o body) us) (hn : (ts ++ us).length ≤ n) :
    Reads (inner.readWhile keyword) (opening :: (ts ++ closing :: us)) (.whileLoop keyword c body)
      (EndsStatement o) := by
  rw [List.length_append] at hn
  refine reads_expect ho ((reads_readExpression h hc (by omega)).bind
    (fun _ _ => Level.ends_comma (by simp [hp])) (reads_expect hp ?_))
  exact (h.statement true o body us hbody (by omega)).bind_pure

lemma reads_readFor (h : inner.AreComplete n) {o : Bool}
    {keyword opening semicolon closing : Token} {start : Option Stmt} {c step : Option Expr}
    {body : Stmt} {us vs ws : List Token} (ho : opening.kind = .leftParen)
    (hs : semicolon.kind = .semicolon) (hp : closing.kind = .rightParen)
    (hstart : Spells (.forStart start) ts) (hc : Spells (.optional c) us)
    (hstep : Spells (.optional step) vs) (hbody : Spells (.statement true o body) ws)
    (hn : (ts ++ us ++ vs ++ ws).length ≤ n) :
    Reads (inner.readFor keyword)
      (opening :: (ts ++ (us ++ semicolon :: (vs ++ closing :: ws))))
      (expandFor keyword start c step body) (EndsStatement o) := by
  simp only [List.length_append] at hn
  rw [readFor_eq]
  refine reads_expect ho ((reads_readForInit h hstart (by omega)).bind (fun _ _ => trivial) ?_)
  refine reads_optional h hc (by omega) (by simp) hs rfl ?_
  refine reads_optional h hstep (by omega) (by simp) hp rfl ?_
  exact (h.statement true o body ws hbody (by omega)).bind_pure

lemma reads_readStatement (h : inner.AreComplete n) {b o : Bool} {s : Stmt}
    (hs : Spells (.statement b o s) ts) (hn : ts.length ≤ n + 1) :
    Reads (inner.readStatement b) ts s (EndsStatement o) := by
  unfold readStatement
  cases hs with
  | expression he =>
    have hts := he.following_expressionStatement
    obtain ⟨t, us, rfl⟩ := List.exists_cons_of_ne_nil (he.ne_nil Nat.one_pos)
    refine reads_look ?_
    have hr : Reads inner.readExpressionStmt (t :: us) s (EndsStatement false) :=
      (reads_readExpressionStmt h he hn).mono fun _ _ => trivial
    split <;> simp_all [Level.starts, Level.primaries, constants]
  | breakLoop hk hend =>
    refine reads_look ?_
    simp only [hk]
    exact reads_skip (reads_expect hend reads_pure)
  | print hk hend he =>
    refine reads_look ?_
    simp only [hk]
    exact reads_skip ((reads_readExpression h he (by simp at hn; omega)).bind
      (fun _ _ => Level.ends_comma (by simp [hend])) (reads_expect hend reads_pure))
  | returnValue hk hend he =>
    refine reads_look ?_
    simp only [hk, readReturn_eq]
    exact reads_skip (reads_optional h he (by simp at hn; omega) (by simp) hend rfl reads_pure)
  | block hk hc hbody =>
    refine reads_look ?_
    simp only [hk]
    refine reads_skip ((reads_readBlock h hbody hc (by simp at hn; omega)).mono
      fun _ _ => trivial).bind_pure
  | ifOnly hk ho hp hc hyes =>
    refine reads_look ?_
    simp only [hk]
    exact reads_skip (reads_readIf h ho hp hc hyes (by simp at hn ⊢; omega))
  | ifElse hk ho hp hw hc hyes hno =>
    refine reads_look ?_
    simp only [hk]
    exact reads_skip (reads_readIfElse h ho hp hw hc hyes hno (by simp at hn ⊢; omega))
  | whileLoop hk ho hp hc hbody =>
    refine reads_look ?_
    simp only [hk]
    exact reads_skip (reads_readWhile h ho hp hc hbody (by simp at hn ⊢; omega))
  | forLoop hk ho hs hp hstart hc hstep hbody =>
    refine reads_look ?_
    simp only [hk]
    exact reads_skip (reads_readFor h ho hs hp hstart hc hstep hbody (by simp at hn ⊢; omega))

/-! Declarations. -/

lemma sequence_members {ms : List (Bool × Function)} (h : Spells (.members ms) ts)
    (hn : ts.length ≤ n) :
    Sequence (fun m us => Spells (.members [m]) us ∧ us.length ≤ n) ms ts := by
  generalize hφ : Phrase.members ms = φ at h
  induction h generalizing ms with
  | noMembers =>
    cases hφ
    exact .nil
  | @method name _ _ _ _ ts _ hname hf _ _ ih =>
    cases hφ
    simp only [List.length_append, List.length_cons] at hn
    have hm := Spells.method hname hf .noMembers
    rw [List.append_nil] at hm
    exact Sequence.cons (R := fun m us => Spells (.members [m]) us ∧ us.length ≤ n)
      ⟨hm, by simp only [List.length_cons]; omega⟩ (ih (by omega) rfl)
  | @staticMember keyword name _ _ _ _ ts _ hk hname hf _ _ ih =>
    cases hφ
    simp only [List.length_append, List.length_cons] at hn
    have hm := Spells.staticMember hk hname hf .noMembers
    rw [List.append_nil] at hm
    exact Sequence.cons (R := fun m us => Spells (.members [m]) us ∧ us.length ≤ n)
      ⟨hm, by simp only [List.length_cons]; omega⟩ (ih (by omega) rfl)
  | _ => cases hφ

lemma reads_readMember (h : inner.AreComplete n) {m : Bool × Function}
    (hm : Spells (.members [m]) ts) (hn : ts.length ≤ n) :
    Reads inner.readMember ts m fun _ => True := by
  cases hm with
  | method hname hf hms =>
    cases hms
    simp only [List.append_nil, List.length_cons] at hn ⊢
    refine reads_accept_none (by simp [hname]) ?_
    exact (reads_readFunction h hname hf (by omega) (by simp)).bind_pure
  | staticMember hk hname hf hms =>
    cases hms
    simp only [List.append_nil, List.length_cons] at hn ⊢
    refine reads_accept (by simp [hk]) ?_
    exact (reads_readFunction h hname hf (by omega) (by simp)).bind_pure

lemma following_members {m : Bool × Function} (h : Spells (.members [m]) ts)
    (rest : List Token) : following (ts ++ rest) ∉ [.finish, .rightBrace] := by
  cases h with
  | method hk | staticMember hk => simp [hk]

lemma reads_readClass (h : inner.AreComplete n) {name opening closing : Token}
    {parent : Option Reference} {ms : List (Bool × Function)} {us : List Token}
    (hname : name.kind = .identifier) (ho : opening.kind = .leftBrace)
    (hc : closing.kind = .rightBrace) (hparent : Spells (.superclass parent) ts)
    (hms : Spells (.members ms) us) (hn : us.length ≤ n) :
    Reads inner.readClass (name :: (ts ++ opening :: (us ++ [closing])))
      (.classDecl name parent opening.line (membersOf false ms) (membersOf true ms))
      fun _ => True := by
  have hsuperclass : Reads readSuperclass ts parent fun rest => following rest = .leftBrace := by
    cases hparent with
    | noSuperclass => exact reads_accept_none (by simp_all) reads_pure
    | superclass hk hp => exact reads_accept (by simp [hk]) (reads_expect hp reads_pure)
  have hmembers : Reads (collect (fun c => c.sees .rightBrace || c.atEnd) inner.readMember) us ms
      fun rest => following rest = .rightBrace := by
    refine reads_collect (E := fun _ => True) (fun m _ hm => reads_readMember h hm.1 hm.2)
      (fun m us hm => hm.1.ne_nil (by simp [Phrase.weight])) (fun _ _ => trivial)
      (fun _ _ _ _ => trivial) (fun c m us rest hf hm hrest => ?_) (fun c hf hk => ?_)
      (sequence_members hms hn)
    · exact atBrace_eq_false hf (hrest ▸ following_members hm.1 rest)
    · simp [Cursor.sees, Cursor.peek_kind hf, hk]
  refine reads_expect hname (hsuperclass.bind (by simp [ho]) (reads_expect ho ?_))
  refine hmembers.bind (by simp [hc]) (reads_expect hc ?_)
  rw [← membersOf_false]
  exact reads_pure

lemma declaresFunction_eq_false {c : Cursor} (h : following c.rest = .funWord →
    ∃ keyword paren us, c.rest = keyword :: paren :: us ∧ paren.kind = .leftParen) :
    declaresFunction c = false := by
  unfold declaresFunction
  split
  · next t name rest hc =>
    by_cases ht : t.kind = .funWord
    · obtain ⟨_, paren, _, hc', hp⟩ := h (by simp [hc, ht])
      rw [hc] at hc'
      obtain ⟨rfl, rfl, rfl⟩ : _ ∧ _ ∧ _ := by simpa using hc'
      simp [hp]
    · simp [ht]
  · rfl

lemma reads_readDeclared (h : inner.AreComplete n) {b : Bool} {s : Stmt}
    (hs : Spells (.declaration b s) ts) (hn : ts.length ≤ n + 1) :
    Reads (inner.readDeclared b) ts s (EndsStatement true) := by
  cases hs with
  | classDecl hk hname ho hc hparent hms =>
    simp only [List.length_cons, List.length_append] at hn
    exact reads_accept (by simp [hk])
      ((reads_readClass h hname ho hc hparent hms (by omega)).mono fun _ _ => trivial)
  | function hk hname hf =>
    simp only [List.length_cons] at hn
    refine reads_accept_none (by simp [hk]) (reads_get fun c rest hc _ _ => ?_)
    rw [if_pos (by simp [declaresFunction, hc, hk, hname])]
    exact reads_skip ((reads_readFunction h hname hf (by omega) (by simp)).mono
      fun _ _ => trivial).bind_pure
  | variableDecl hk hv =>
    simp only [List.length_cons] at hn
    refine reads_accept_none (by simp [hk]) (reads_get fun c rest hc _ _ => ?_)
    rw [if_neg (by simp [declaresFunction_eq_false, hc, hk])]
    exact reads_accept (by simp [hk]) ((reads_readVar h hv (by omega)).mono fun _ _ => trivial)
  | @statement _ o _ _ hs =>
    have hstarts : ∀ k ∈ Level.starts .comma ++ Spells.statementWords,
        k ∉ [.classWord] ∧ k ∉ [.varWord] := by decide
    have hts := hstarts _ (List.mem_append.mpr hs.following_statement)
    have hfollowing := following_append (hs.ne_nil Nat.one_pos)
    refine reads_accept_none (fun rest _ => hfollowing rest ▸ hts.1)
      (reads_get fun c rest hc _ _ => ?_)
    have hd : declaresFunction c = false := declaresFunction_eq_false fun hk => by
      rw [hc, hfollowing] at hk
      obtain ⟨keyword, paren, us, rfl, hp⟩ := hs.paren_of_statement hk
      exact ⟨keyword, paren, us ++ rest, hc, hp⟩
    rw [if_neg (by simp [hd])]
    refine reads_accept_none (fun rest _ => hfollowing rest ▸ hts.2) ?_
    exact (reads_readStatement h hs hn).mono fun rest hk _ => hk rfl

lemma AreComplete.within (h : inner.AreComplete n) : (within inner).AreComplete (n + 1) where
  expression _ _ he hn := reads_readExpression h he hn
  ternary _ _ he hn := reads_readTernary h he hn
  sign _ _ he hn := reads_readSign h he hn
  statement _ _ _ _ hs hn := reads_readStatement h hs hn
  declaration _ _ _ hs hn := (reads_readDeclared h hs hn).orElse

lemma areComplete_nested (depth : Nat) : (nested depth).AreComplete depth := by
  induction depth with
  | zero =>
    have hempty {φ : Phrase} {ts : List Token} (h : Spells φ ts) (hφ : 0 < φ.weight)
        (hn : ts.length ≤ 0) : False :=
      h.ne_nil hφ (List.eq_nil_of_length_eq_zero (Nat.le_zero.mp hn))
    exact ⟨fun _ _ h hn => (hempty h Nat.one_pos hn).elim,
      fun _ _ h hn => (hempty h Nat.one_pos hn).elim,
      fun _ _ h hn => (hempty h Nat.one_pos hn).elim,
      fun _ _ _ _ h hn => (hempty h Nat.one_pos hn).elim,
      fun _ _ _ h hn => (hempty h Nat.one_pos hn).elim⟩
  | succ depth ih => exact ih.within

end Readers

namespace Grammar

open Reader

theorem program_of_spells {s : Scan} {body : List Stmt} (hs : s.finish.kind = .finish)
    (h : Spells (.declarations false body) s.tokens) : program s = (body, []) := by
  have hr : Reads (readProgram (readers s)) s.tokens body fun rest => rest = [] := by
    refine Readers.reads_declarations (Readers.areComplete_nested (s.tokens.length + 1)) h (by omega)
      (by simp) (fun c hf hk => ?_) (fun c hf hk => by simp [Cursor.atEnd, hk])
    cases hc : c.rest with
    | nil => simp [hc] at hk
    | cons => simp [Cursor.atEnd, hc]
  obtain ⟨d, hd, hpass, -⟩ := hr (start s) [] (by simp [start, Cursor.start]) hs rfl
  unfold program
  rw [hd]
  simp [hpass.reports, start, Cursor.start]

end Grammar

end Lox
