import Lox.Grammar.Statement
import Lox.Proofs.Grammar.Derivation
import Mathlib.Tactic.Lemma

/-! Phrases: which tokens spell which piece of syntax. Here, unlike in the grammar, every phrase is
spelled in one way: a mark or an `else` belongs to the innermost phrase that can take it. -/

namespace Lox

namespace Level

def join : Level → Expr → Token → Expr → Expr
  | comma => .comma
  | or | and => .logical
  | _ => .binary

end Level

namespace Expr

/-- Whether a conditional's mark that follows the expression belongs to it. -/
def takesMark : Expr → Bool
  | .lambda _ => false
  | .conditional _ _ _ no => no.takesMark
  | _ => true

/-- Whether a mark that follows makes the expression, possibly an assignment, a condition. -/
def leavesMark : Expr → Bool
  | .assign _ value _ => !value.takesMark
  | .set _ _ value _ => !value.takesMark
  | _ => true

def isTight : Expr → Bool
  | .assign _ _ _ | .set _ _ _ _ | .conditional _ _ _ _ | .lambda _ => false
  | _ => true

lemma leavesMark_of_isTight {e : Expr} (h : e.isTight = true) : e.leavesMark = true := by
  cases e <;> first | rfl | cases h

lemma takesMark_of_isTight {e : Expr} (h : e.isTight = true) : e.takesMark = true := by
  cases e <;> first | rfl | cases h

def assignee : Expr → Assignee
  | .ref _ => .name
  | .get _ _ => .property
  | _ => .other

end Expr

inductive Phrase where
  | expression (level : Level) (e : Expr)
  | optional (e : Option Expr)
  -- One or more expressions with commas between them.
  | expressions (es : List Expr)
  -- A list of arguments or elements without its brackets.
  | items (es : List Expr)
  -- Names with commas between them.
  | names (ps : List Token)
  | parameters (ps : Params)
  -- What follows the name of a function or the keyword of a lambda.
  | rest (params : Option Params) (line : Nat) (body : List Stmt)
  | members (ms : List (Bool × Function))
  | superclass (parent : Option Reference)
  -- A variable declaration without its keyword.
  | binding (s : Stmt)
  | expressionStatement (s : Stmt)
  | forStart (s : Option Stmt)
  -- The second flag tells whether an `else` that follows belongs to the statement.
  | statement (inLoop takesElse : Bool) (s : Stmt)
  | declaration (inLoop : Bool) (s : Stmt)
  | declarations (inLoop : Bool) (body : List Stmt)

def membersOf (isStatic : Bool) (ms : List (Bool × Function)) : List Function :=
  ms.filterMap fun m => if m.1 = isStatic then some m.2 else none

lemma membersOf_false (ms : List (Bool × Function)) :
    membersOf false ms = ms.filterMap fun m => if m.1 then none else some m.2 := by
  refine congrArg (ms.filterMap ·) (funext fun m => ?_)
  cases m.1 <;> rfl

inductive Spells : Phrase → List Token → Prop
  | pass {level e ts} : level ≠ .primary → Spells (.expression level.next e) ts →
      Spells (.expression level e) ts
  | join {level l r op ts us} : op.kind ∈ level.ops → Spells (.expression level l) ts →
      Spells (.expression level.next r) us →
      Spells (.expression level (level.join l op r)) (ts ++ op :: us)
  | lambda {keyword params line body ts} : keyword.kind = .funWord →
      Spells (.rest (some params) line body) ts →
      Spells (.expression .ternary (.lambda (.mk keyword (some params) line body)))
        (keyword :: ts)
  | conditional {c yes no mark colon ts us vs} : mark.kind = .question → colon.kind = .colon →
      c.leavesMark = true → Spells (.expression .assignment c) ts →
      Spells (.expression .comma yes) us → Spells (.expression .ternary no) vs →
      Spells (.expression .ternary (.conditional c mark yes no)) (ts ++ mark :: (us ++ colon :: vs))
  | assign {target value equals ts us} : equals.kind = .equal →
      Spells (.expression .or (.ref target)) ts → Spells (.expression .ternary value) us →
      Spells (.expression .assignment (.assign target value equals.line)) (ts ++ equals :: us)
  | set {object name value equals ts us} : equals.kind = .equal →
      Spells (.expression .or (.get object name)) ts → Spells (.expression .ternary value) us →
      Spells (.expression .assignment (.set object name value equals.line)) (ts ++ equals :: us)
  | sign {op e ts} : op.kind ∈ [.bang, .minus] → Spells (.expression .sign e) ts →
      Spells (.expression .sign (.unary op e)) (op :: ts)
  | call {callee es opening closing ts us} : opening.kind = .leftParen →
      closing.kind = .rightParen → es.length ≤ maxArguments →
      Spells (.expression .call callee) ts → Spells (.items es) us →
      Spells (.expression .call (.call callee closing es)) (ts ++ opening :: (us ++ [closing]))
  | get {object name dot ts} : dot.kind = .dot → name.kind = .identifier →
      Spells (.expression .call object) ts →
      Spells (.expression .call (.get object name)) (ts ++ [dot, name])
  | literal {t value} : t.literal? = some value →
      Spells (.expression .primary (.literal t value)) [t]
  | this {t} : t.kind = .thisWord → Spells (.expression .primary (.this ⟨t, none⟩)) [t]
  | ref {t} : t.kind = .identifier → Spells (.expression .primary (.ref ⟨t, none⟩)) [t]
  | super {t dot method} : t.kind = .superWord → dot.kind = .dot → method.kind = .identifier →
      Spells (.expression .primary (.super ⟨t, none⟩ method)) [t, dot, method]
  | grouping {opening closing e ts} : opening.kind = .leftParen → closing.kind = .rightParen →
      Spells (.expression .comma e) ts →
      Spells (.expression .primary (.grouping opening e)) (opening :: (ts ++ [closing]))
  | list {opening closing es ts} : opening.kind = .leftBracket → closing.kind = .rightBracket →
      Spells (.items es) ts →
      Spells (.expression .primary (.list opening es)) (opening :: (ts ++ [closing]))
  | absent : Spells (.optional none) []
  | present {e ts} : Spells (.expression .comma e) ts → Spells (.optional (some e)) ts
  | lastExpression {e ts} : Spells (.expression .ternary e) ts → Spells (.expressions [e]) ts
  | moreExpressions {e es comma ts us} : comma.kind = .comma →
      Spells (.expression .ternary e) ts → Spells (.expressions es) us →
      Spells (.expressions (e :: es)) (ts ++ comma :: us)
  | noItems : Spells (.items []) []
  | items {es ts} : Spells (.expressions es) ts → Spells (.items es) ts
  -- Functions and classes.
  | lastName {name} : name.kind = .identifier → Spells (.names [name]) [name]
  | moreNames {name comma ps ts} : name.kind = .identifier → comma.kind = .comma →
      Spells (.names ps) ts → Spells (.names (name :: ps)) (name :: comma :: ts)
  | noParameters {opening closing} : opening.kind = .leftParen → closing.kind = .rightParen →
      Spells (.parameters ⟨opening.line, []⟩) [opening, closing]
  | parameters {opening closing ps ts} : opening.kind = .leftParen →
      closing.kind = .rightParen → ps.length ≤ maxArguments → Spells (.names ps) ts →
      Spells (.parameters ⟨opening.line, ps⟩) (opening :: (ts ++ [closing]))
  | getter {opening closing body ts} : opening.kind = .leftBrace → closing.kind = .rightBrace →
      Spells (.declarations false body) ts →
      Spells (.rest none opening.line body) (opening :: (ts ++ [closing]))
  | rest {params line body ts us} : Spells (.parameters params) ts →
      Spells (.rest none line body) us → Spells (.rest (some params) line body) (ts ++ us)
  | noMembers : Spells (.members []) []
  | method {name params line body ms ts us} : name.kind = .identifier →
      Spells (.rest params line body) ts → Spells (.members ms) us →
      Spells (.members ((false, .mk name params line body) :: ms)) (name :: (ts ++ us))
  | staticMember {keyword name params line body ms ts us} : keyword.kind = .classWord →
      name.kind = .identifier → Spells (.rest params line body) ts → Spells (.members ms) us →
      Spells (.members ((true, .mk name params line body) :: ms)) (keyword :: name :: (ts ++ us))
  | noSuperclass : Spells (.superclass none) []
  | superclass {less name} : less.kind = .less → name.kind = .identifier →
      Spells (.superclass (some ⟨name, none⟩)) [less, name]
  | classDecl {b keyword name opening closing parent ms ts us} : keyword.kind = .classWord →
      name.kind = .identifier → opening.kind = .leftBrace → closing.kind = .rightBrace →
      Spells (.superclass parent) ts → Spells (.members ms) us →
      Spells (.declaration b
        (.classDecl name parent opening.line (membersOf false ms) (membersOf true ms)))
        (keyword :: name :: (ts ++ opening :: (us ++ [closing])))
  | function {b keyword name params line body ts} : keyword.kind = .funWord →
      name.kind = .identifier → Spells (.rest (some params) line body) ts →
      Spells (.declaration b (.function (.mk name (some params) line body)))
        (keyword :: name :: ts)
  -- Statements.
  | uninitialized {name semicolon} : name.kind = .identifier → semicolon.kind = .semicolon →
      Spells (.binding (.var name none)) [name, semicolon]
  | initialized {name equals semicolon init ts} : name.kind = .identifier →
      equals.kind = .equal → semicolon.kind = .semicolon → Spells (.expression .comma init) ts →
      Spells (.binding (.var name (some init))) (name :: equals :: (ts ++ [semicolon]))
  | variableDecl {b keyword s ts} : keyword.kind = .varWord → Spells (.binding s) ts →
      Spells (.declaration b s) (keyword :: ts)
  | statement {b o s ts} : Spells (.statement b o s) ts → Spells (.declaration b s) ts
  | expressionStatement {e first ts semicolon} : semicolon.kind = .semicolon →
      Spells (.expression .comma e) (first :: ts) →
      Spells (.expressionStatement (.expression first.line e)) (first :: (ts ++ [semicolon]))
  | expression {b s ts} : Spells (.expressionStatement s) ts → Spells (.statement b false s) ts
  | breakLoop {keyword semicolon} : keyword.kind = .breakWord → semicolon.kind = .semicolon →
      Spells (.statement true false (.breakLoop keyword)) [keyword, semicolon]
  | print {b keyword semicolon e ts} : keyword.kind = .printWord →
      semicolon.kind = .semicolon → Spells (.expression .comma e) ts →
      Spells (.statement b false (.print keyword e)) (keyword :: (ts ++ [semicolon]))
  | returnValue {b keyword semicolon e ts} : keyword.kind = .returnWord →
      semicolon.kind = .semicolon → Spells (.optional e) ts →
      Spells (.statement b false (.returnValue keyword e)) (keyword :: (ts ++ [semicolon]))
  | block {b opening closing body ts} : opening.kind = .leftBrace →
      closing.kind = .rightBrace → Spells (.declarations b body) ts →
      Spells (.statement b false (.block opening.line body)) (opening :: (ts ++ [closing]))
  | ifOnly {b o keyword opening closing c yes ts us} : keyword.kind = .ifWord →
      opening.kind = .leftParen → closing.kind = .rightParen →
      Spells (.expression .comma c) ts → Spells (.statement b o yes) us →
      Spells (.statement b true (.ifElse keyword c yes none))
        (keyword :: opening :: (ts ++ closing :: us))
  | ifElse {b o keyword opening closing word c yes no ts us vs} : keyword.kind = .ifWord →
      opening.kind = .leftParen → closing.kind = .rightParen → word.kind = .elseWord →
      Spells (.expression .comma c) ts → Spells (.statement b false yes) us →
      Spells (.statement b o no) vs →
      Spells (.statement b o (.ifElse keyword c yes (some no)))
        (keyword :: opening :: (ts ++ closing :: (us ++ word :: vs)))
  | whileLoop {b o keyword opening closing c body ts us} : keyword.kind = .whileWord →
      opening.kind = .leftParen → closing.kind = .rightParen →
      Spells (.expression .comma c) ts → Spells (.statement true o body) us →
      Spells (.statement b o (.whileLoop keyword c body))
        (keyword :: opening :: (ts ++ closing :: us))
  | forNothing {semicolon} : semicolon.kind = .semicolon →
      Spells (.forStart none) [semicolon]
  | forVariable {keyword s ts} : keyword.kind = .varWord → Spells (.binding s) ts →
      Spells (.forStart (some s)) (keyword :: ts)
  | forExpression {s ts} : Spells (.expressionStatement s) ts → Spells (.forStart (some s)) ts
  | forLoop {b o keyword opening semicolon closing start c step body ts us vs ws} :
      keyword.kind = .forWord → opening.kind = .leftParen → semicolon.kind = .semicolon →
      closing.kind = .rightParen → Spells (.forStart start) ts → Spells (.optional c) us →
      Spells (.optional step) vs → Spells (.statement true o body) ws →
      Spells (.statement b o (Readers.expandFor keyword start c step body))
        (keyword :: opening :: (ts ++ (us ++ semicolon :: (vs ++ closing :: ws))))
  | noDeclarations {b} : Spells (.declarations b []) []
  | declarations {b s body ts us} : Spells (.declaration b s) ts →
      Spells (.declarations b body) us → Spells (.declarations b (s :: body)) (ts ++ us)

def Phrase.weight : Phrase → Nat
  | optional _ | items _ | superclass _ => 0
  | members ms => ms.length
  | declarations _ body => body.length
  | _ => 1

lemma Spells.weight_le {φ : Phrase} {ts : List Token} (h : Spells φ ts) :
    φ.weight ≤ ts.length := by
  induction h <;> simp only [Phrase.weight, List.length_append, List.length_cons,
    List.length_nil] at * <;> omega

lemma Spells.ne_nil {φ : Phrase} {ts : List Token} (h : Spells φ ts) (hφ : 0 < φ.weight) :
    ts ≠ [] :=
  List.ne_nil_of_length_pos (Nat.lt_of_lt_of_le hφ h.weight_le)

lemma Spells.isTight {level : Level} {e : Expr} {ts : List Token}
    (h : Spells (.expression level e) ts) (hlevel : level ∉ [.comma, .ternary, .assignment]) :
    e.isTight = true := by
  generalize hφ : Phrase.expression level e = φ at h
  induction h generalizing level e with
  | pass _ _ ih =>
    obtain ⟨rfl, rfl⟩ := Phrase.expression.inj hφ
    exact ih (by cases level <;> simp_all [Level.next]) rfl
  | join hop _ _ _ _ =>
    obtain ⟨rfl, rfl⟩ := Phrase.expression.inj hφ
    cases level <;> rfl
  | assign | set | lambda | conditional => simp_all
  | _ =>
    cases hφ
    try rfl

theorem Spells.leavesMark {level : Level} {e : Expr} {ts : List Token}
    (h : Spells (.expression level e) ts) (hlevel : level ∉ [.comma, .ternary, .assignment]) :
    e.leavesMark = true :=
  Expr.leavesMark_of_isTight (h.isTight hlevel)

end Lox
