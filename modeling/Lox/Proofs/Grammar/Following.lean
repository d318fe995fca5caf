import Lox.Proofs.Grammar.Accepting

namespace Lox

lemma following_append {ts : List Token} (h : ts ≠ []) (us : List Token) :
    following (ts ++ us) = following ts := by
  cases ts with
  | nil => contradiction
  | cons t ts => rfl

namespace Level

def primaries : List Kind := constants ++ [.identifier, .superWord, .leftParen, .leftBracket]

def starts : Level → List Kind
  | comma | ternary => [.funWord, .bang, .minus] ++ primaries
  | call | primary => primaries
  | _ => [.bang, .minus] ++ primaries

def andTighter (level : Level) : List Level :=
  [comma, ternary, assignment, or, and, equality, comparison, sum, product, sign, call,
    primary].dropWhile (· ≠ level)

def extensions : Level → List Kind
  | comma => [.question, .comma]
  | assignment => [.equal]
  | call => [.leftParen, .dot]
  | level => level.ops

def continues (level : Level) : List Kind := level.andTighter.flatMap extensions

def Ends (level : Level) (e : Expr) (k : Kind) : Prop :=
  k ∉ level.continues ∧ (level = .ternary → e.takesMark = true → k ≠ .question) ∧
    (level = .assignment → e.leavesMark = false → k ≠ .question)

variable {level : Level} {e : Expr} {k : Kind}

lemma ends_comma (h : k ∈ [.rightParen, .semicolon, .colon]) : comma.Ends e k := by
  have hk : ∀ k ∈ [Kind.rightParen, .semicolon, .colon], k ∉ comma.continues := by decide
  exact ⟨hk k h, by simp, by simp⟩

lemma ends_ternary (h : k ∈ [.comma, .rightParen, .rightBracket]) : ternary.Ends e k := by
  have hk : ∀ k ∈ [Kind.comma, .rightParen, .rightBracket],
      k ∉ ternary.continues ∧ k ≠ .question := by decide
  exact ⟨(hk k h).1, fun _ _ => (hk k h).2, by simp⟩

theorem ends_of_mem_ops (h : k ∈ level.ops) : level.next.Ends e k := by
  have hk : ∀ k ∈ level.ops, k ∉ level.next.continues ∧ k ≠ .question := by
    cases level <;> decide
  exact ⟨(hk k h).1, fun _ _ => (hk k h).2, fun _ _ => (hk k h).2⟩

theorem Ends.operand (h : level.Ends e k) (hops : level.ops ≠ []) (e' : Expr) :
    level.next.Ends e' k ∧ k ∉ level.ops := by
  have hnext : level.next.continues ⊆ level.continues ∧ level.ops ⊆ level.continues := by
    revert hops
    cases level <;> decide
  have hquestion : level.next = .ternary ∨ level.next = .assignment → k ≠ .question := by
    have hmem : level.next = .ternary ∨ level.next = .assignment →
        .question ∈ level.continues := by
      revert hops
      cases level <;> decide
    rintro hn rfl
    exact h.1 (hmem hn)
  exact ⟨⟨fun hk => h.1 (hnext.1 hk), fun hl _ => hquestion (.inl hl),
    fun hl _ => hquestion (.inr hl)⟩, fun hk => h.1 (hnext.2 hk)⟩

lemma Ends.condition (h : ternary.Ends e k) (he : e.takesMark = true) :
    assignment.Ends e k ∧ k ≠ .question :=
  ⟨⟨h.1, by simp, fun _ _ => h.2.1 rfl he⟩, h.2.1 rfl he⟩

lemma ends_question (he : e.leavesMark = true) : assignment.Ends e .question :=
  ⟨by decide, by simp, by simp [he]⟩

lemma Ends.no {c yes : Expr} {mark : Token} (h : ternary.Ends (.conditional c mark yes e) k) :
    ternary.Ends e k :=
  ⟨h.1, fun _ he => h.2.1 rfl he, by simp⟩

lemma Ends.target (h : assignment.Ends e k) : or.Ends e k ∧ k ≠ .equal := by
  have hc : or.continues ⊆ assignment.continues ∧ .equal ∈ assignment.continues := by decide
  refine ⟨⟨fun hk => h.1 (hc.1 hk), by simp, by simp⟩, ?_⟩
  rintro rfl
  exact h.1 hc.2

lemma ends_equal : or.Ends e .equal := ⟨by decide, by simp, by simp⟩

lemma Ends.value {assignment' : Expr} (h : assignment.Ends assignment' k)
    (hv : assignment'.leavesMark = !e.takesMark) : ternary.Ends e k :=
  ⟨h.1, fun _ he => h.2.2 rfl (by simp [hv, he]), by simp⟩

lemma ends_sign : sign.Ends e k ↔ k ∉ [.leftParen, .dot] := by
  have hc : sign.continues = [.leftParen, .dot] := by decide
  simp [Ends, hc]

lemma ends_call : call.Ends e k ↔ k ∉ [.leftParen, .dot] := by
  have hc : call.continues = [.leftParen, .dot] := by decide
  simp [Ends, hc]

lemma starts_next_subset : level.next.starts ⊆ level.starts := by
  cases level <;> decide

end Level

namespace Spells

variable {level : Level} {e : Expr} {ts : List Token}

lemma following_mem_starts (h : Spells (.expression level e) ts) :
    following ts ∈ level.starts := by
  generalize hφ : Phrase.expression level e = φ at h
  induction h generalizing level e with
  | pass _ _ ih =>
    obtain ⟨rfl, rfl⟩ := Phrase.expression.inj hφ
    exact Level.starts_next_subset (ih rfl)
  | join _ hl _ ih _ =>
    obtain ⟨rfl, rfl⟩ := Phrase.expression.inj hφ
    rw [following_append (hl.ne_nil Nat.one_pos)]
    exact ih rfl
  | lambda hk =>
    cases hφ
    simp [hk, Level.starts]
  | conditional _ _ _ hc _ _ ih =>
    cases hφ
    rw [following_append (hc.ne_nil Nat.one_pos)]
    exact Level.starts_next_subset (ih rfl)
  | assign _ ht _ ih =>
    cases hφ
    rw [following_append (ht.ne_nil Nat.one_pos)]
    exact Level.starts_next_subset (ih rfl)
  | set _ ht _ ih =>
    cases hφ
    rw [following_append (ht.ne_nil Nat.one_pos)]
    exact Level.starts_next_subset (ih rfl)
  | call _ _ _ hc _ ih | get _ _ hc ih =>
    cases hφ
    rw [following_append (hc.ne_nil Nat.one_pos)]
    exact ih rfl
  | literal ht =>
    cases hφ
    unfold Token.literal? at ht
    split at ht <;> simp_all [Level.starts, Level.primaries, constants]
  | sign hop =>
    cases hφ
    exact List.mem_append_left _ hop
  | this hk | ref hk | super hk | grouping hk | list hk =>
    cases hφ
    simp [hk, Level.starts, Level.primaries, constants]
  | _ => cases hφ

theorem takesMark (h : Spells (.expression level e) ts) (hlevel : level ∉ [.comma, .ternary]) :
    e.takesMark = true := by
  by_cases hassignment : level = .assignment
  · subst hassignment
    cases h with
    | pass _ h => exact Expr.takesMark_of_isTight (h.isTight (by decide))
    | join hop => simp [Level.ops] at hop
    | assign | set => rfl
  · exact Expr.takesMark_of_isTight (h.isTight (by simp_all))

lemma paren_of_parameters {params : Params} (h : Spells (.parameters params) ts) :
    ∃ paren us, ts = paren :: us ∧ paren.kind = .leftParen := by
  cases h with
  | noParameters ho | parameters ho => exact ⟨_, _, rfl, ho⟩

lemma paren_of_rest {params : Params} {line : Nat} {body : List Stmt}
    (h : Spells (.rest (some params) line body) ts) :
    ∃ paren us, ts = paren :: us ∧ paren.kind = .leftParen := by
  cases h with
  | rest hp _ =>
    obtain ⟨paren, us, rfl, hk⟩ := hp.paren_of_parameters
    exact ⟨paren, _, rfl, hk⟩

lemma brace_of_rest {line : Nat} {body : List Stmt} (h : Spells (.rest none line body) ts) :
    ∃ brace us, ts = brace :: us ∧ brace.kind = .leftBrace := by
  cases h with
  | getter ho => exact ⟨_, _, rfl, ho⟩

theorem paren_of_following_eq_fun (h : Spells (.expression level e) ts)
    (hts : following ts = .funWord) :
    ∃ keyword paren us, ts = keyword :: paren :: us ∧ paren.kind = .leftParen := by
  generalize hφ : Phrase.expression level e = φ at h
  induction h generalizing level e with
  | pass _ _ ih =>
    obtain ⟨rfl, rfl⟩ := Phrase.expression.inj hφ
    exact ih hts rfl
  | lambda hk hr =>
    obtain ⟨paren, us, rfl, hp⟩ := hr.paren_of_rest
    exact ⟨_, paren, us, rfl, hp⟩
  | join _ hx _ ih | conditional _ _ _ hx _ _ ih | assign _ hx _ ih | set _ hx _ ih
  | call _ _ _ hx _ ih | get _ _ hx ih =>
    cases hφ
    rw [following_append (hx.ne_nil Nat.one_pos)] at hts
    obtain ⟨keyword, paren, us, rfl, hp⟩ := ih hts rfl
    exact ⟨keyword, paren, _, rfl, hp⟩
  | literal ht =>
    unfold Token.literal? at ht
    simp_all
  | _ => simp_all

def statementWords : List Kind :=
  [.breakWord, .forWord, .ifWord, .leftBrace, .printWord, .returnWord, .whileWord]

lemma following_expressionStatement {s : Stmt} (h : Spells (.expressionStatement s) ts) :
    following ts ∈ Level.starts .comma := by
  cases h with
  | expressionStatement _ he => exact he.following_mem_starts

lemma following_statement {b o : Bool} {s : Stmt} (h : Spells (.statement b o s) ts) :
    following ts ∈ Level.starts .comma ∨ following ts ∈ statementWords := by
  cases h with
  | expression he => exact .inl he.following_expressionStatement
  | breakLoop hk | print hk | returnValue hk | block hk | ifOnly hk | ifElse hk | whileLoop hk
  | forLoop hk =>
    right
    simp [hk, statementWords]

lemma paren_of_statement {b o : Bool} {s : Stmt} (h : Spells (.statement b o s) ts)
    (hts : following ts = .funWord) :
    ∃ keyword paren us, ts = keyword :: paren :: us ∧ paren.kind = .leftParen := by
  cases h with
  | expression he =>
    cases he with
    | expressionStatement _ he =>
      obtain ⟨keyword, paren, us, hus, hp⟩ := he.paren_of_following_eq_fun hts
      rw [← List.cons_append, hus]
      exact ⟨keyword, paren, _, rfl, hp⟩
  | breakLoop hk | print hk | returnValue hk | block hk | ifOnly hk | ifElse hk | whileLoop hk
  | forLoop hk => simp [hk] at hts

lemma following_declaration {b : Bool} {s : Stmt} (h : Spells (.declaration b s) ts) :
    following ts ∉ [.finish, .rightBrace, .elseWord, .slash] := by
  cases h with
  | classDecl hk | function hk | variableDecl hk => simp [hk]
  | statement hs =>
    have hstarts : ∀ k ∈ Level.starts .comma ++ statementWords,
        k ∉ [.finish, .rightBrace, .elseWord, .slash] := by decide
    exact hstarts _ (List.mem_append.mpr hs.following_statement)

lemma following_declarations {b : Bool} {body : List Stmt}
    (h : Spells (.declarations b body) ts) : following ts ≠ .elseWord ∧ following ts ≠ .slash := by
  cases h with
  | noDeclarations => simp
  | declarations hs _ =>
    rw [following_append (hs.ne_nil Nat.one_pos)]
    have hfirst := hs.following_declaration
    simp_all

end Spells

end Lox
