import Lox.Proofs.Alike.Words
import Lox.Proofs.Grammar.Ambiguity
import Lox.Proofs.Grammar.Complete
import Lox.Proofs.Grammar.Tiered

namespace Lox

open Token (ofKind kind_ofKind)
open Likeness (words words_reflexive)
open Readers (EndsStatement expandFor alwaysTrue)

/-- The tokens of a `for` statement by its parts. The start ends with a semicolon of its own. -/
structure ForParts where
  keyword : Token
  opening : Token
  start : List Token
  condition : List Token
  semicolon : Token
  step : List Token
  closing : Token
  body : List Token

namespace ForParts

def tokens (p : ForParts) : List Token :=
  p.keyword :: p.opening ::
    (p.start ++ (p.condition ++ p.semicolon :: (p.step ++ p.closing :: p.body)))

def whileCondition (p : ForParts) : List Token :=
  if p.condition = [] then [ofKind .trueWord] else p.condition

def whileBody (p : ForParts) : List Token :=
  if p.step = [] then p.body
  else ofKind .leftBrace :: (p.body ++ (p.step ++ [ofKind .semicolon, ofKind .rightBrace]))

def whileLoop (p : ForParts) : List Token :=
  ofKind .whileWord :: ofKind .leftParen ::
    (p.whileCondition ++ ofKind .rightParen :: p.whileBody)

/-- A start that is more than a semicolon comes first in a block around the loop. -/
def whileForm (p : ForParts) : List Token :=
  if following p.start = .semicolon then p.whileLoop
  else ofKind .leftBrace :: (p.start ++ (p.whileLoop ++ [ofKind .rightBrace]))

structure Denotes (p : ForParts) (takesElse : Bool) (s : Stmt) : Prop where
  keyword : p.keyword.kind = .forWord
  opening : p.opening.kind = .leftParen
  semicolon : p.semicolon.kind = .semicolon
  closing : p.closing.kind = .rightParen
  parts : ∃ start c step body, Spells (.forStart start) p.start ∧
    Spells (.optional c) p.condition ∧ Spells (.optional step) p.step ∧
    Spells (.statement true takesElse body) p.body ∧ s = expandFor p.keyword start c step body

variable {p : ForParts} {o : Bool} {s : Stmt}

lemma Denotes.statement (h : p.Denotes o s) (b : Bool) : Spells (.statement b o s) p.tokens := by
  obtain ⟨start, c, step, body, hstart, hc, hstep, hbody, rfl⟩ := h.parts
  exact .forLoop h.keyword h.opening h.semicolon h.closing hstart hc hstep hbody

theorem exists_of_statement {b : Bool} {ts : List Token} (h : Spells (.statement b o s) ts)
    (hts : following ts = .forWord) : ∃ p : ForParts, ts = p.tokens ∧ p.Denotes o s := by
  cases h with
  | forLoop hk ho hs hp hstart hc hstep hbody =>
    exact ⟨⟨_, _, _, _, _, _, _, _⟩, rfl, hk, ho, hs, hp, _, _, _, _, hstart, hc, hstep, hbody, rfl⟩
  | expression he =>
    have hstarts : Kind.forWord ∉ Level.starts .comma := by decide
    exact absurd (hts ▸ he.following_expressionStatement) hstarts
  | breakLoop hk | print hk | returnValue hk | block hk | ifOnly hk | ifElse hk | whileLoop hk =>
    simp [hk] at hts

lemma spells_whileCondition {c : Option Expr} (h : Spells (.optional c) p.condition) :
    ∃ e, Spells (.expression .comma e) p.whileCondition ∧
      (c.getD (alwaysTrue p.keyword)).Alike words () e := by
  unfold whileCondition
  cases c with
  | none =>
    have hnil : p.condition = [] := by
      generalize p.condition = ts at h
      cases h
      rfl
    rw [if_pos hnil]
    have hliteral : (ofKind .trueWord).literal? = some (.bool true) := rfl
    have htext : (ofKind .trueWord).lexeme = "true" := by decide
    exact ⟨_, (Spells.literal hliteral).loosen (by decide), .literal ⟨rfl, htext⟩⟩
  | some e =>
    cases h with
    | present he =>
      rw [if_neg (he.ne_nil Nat.one_pos)]
      exact ⟨e, he, e.alike_self words_reflexive⟩

lemma spells_expressionStatement {b : Bool} {e : Expr} {ts : List Token}
    (h : Spells (.expression .comma e) ts) :
    ∃ line, Spells (.declaration b (.expression line e)) (ts ++ [ofKind .semicolon]) := by
  obtain ⟨t, ts, rfl⟩ := List.exists_cons_of_ne_nil (h.ne_nil Nat.one_pos)
  exact ⟨t.line, .statement (.expression (.expressionStatement (kind_ofKind .semicolon) h))⟩

def withStep (line : Nat) (body : Stmt) : Option Expr → Stmt
  | some step => .block line [body, .expression line step]
  | none => body

lemma spells_whileBody (line : Nat) {step : Option Expr} {body : Stmt}
    (hstep : Spells (.optional step) p.step) (hbody : Spells (.statement true o body) p.body) :
    ∃ o' body', (o' = true → o = true) ∧ Spells (.statement true o' body') p.whileBody ∧
      (withStep line body step).Alike words () body' := by
  unfold whileBody
  cases step with
  | none =>
    have hnil : p.step = [] := by
      generalize p.step = ts at hstep
      cases hstep
      rfl
    rw [if_pos hnil]
    exact ⟨o, body, id, hbody, body.alike_self words_reflexive⟩
  | some step =>
    cases hstep with
    | present he =>
      rw [if_neg (he.ne_nil Nat.one_pos)]
      obtain ⟨line', hlast⟩ := spells_expressionStatement (b := true) he
      have hend := Spells.declarations hlast .noDeclarations
      have hboth := Spells.declarations (.statement hbody) hend
      have hblock := Spells.block (kind_ofKind .leftBrace) (kind_ofKind .rightBrace) hboth
      exact ⟨false, _, by simp, by simpa using hblock,
        .block trivial (.cons (body.alike_self words_reflexive)
          (.cons (.expression (step.alike_self words_reflexive)) .nil))⟩

lemma spells_whileLoop (b : Bool) (line : Nat) {keyword : Token} {c step : Option Expr}
    {body : Stmt} (hkeyword : keyword.kind = .forWord) (hc : Spells (.optional c) p.condition)
    (hstep : Spells (.optional step) p.step) (hbody : Spells (.statement true o body) p.body) :
    ∃ o' s', (o' = true → o = true) ∧ Spells (.statement b o' s') p.whileLoop ∧
      (Stmt.whileLoop keyword (c.getD (alwaysTrue p.keyword)) (withStep line body step)).Alike
        words () s' := by
  obtain ⟨e, he, halike⟩ := spells_whileCondition hc
  obtain ⟨o', body', ho, hs, hbody'⟩ := spells_whileBody line hstep hbody
  exact ⟨o', _, ho, .whileLoop (kind_ofKind .whileWord) (kind_ofKind .leftParen)
    (kind_ofKind .rightParen) he hs, .whileLoop (.inr ⟨hkeyword, rfl⟩) halike hbody'⟩

lemma expandFor_eq (keyword : Token) (start : Option Stmt) (c step : Option Expr) (body : Stmt) :
    expandFor keyword start c step body =
      let loop := .whileLoop keyword (c.getD (alwaysTrue keyword))
        (withStep keyword.line body step)
      match start with
      | some first => .block keyword.line [first, loop]
      | none => loop := by
  cases step <;> rfl

lemma spells_first {b : Bool} {first : Stmt} {ts : List Token}
    (h : Spells (.forStart (some first)) ts) :
    Spells (.declaration b first) ts ∧ following ts ≠ .semicolon := by
  cases h with
  | forVariable hk hs => exact ⟨.variableDecl hk hs, by simp [hk]⟩
  | forExpression hs =>
    have hstarts : Kind.semicolon ∉ Level.starts .comma := by decide
    exact ⟨.statement (.expression hs), fun h => hstarts (h ▸ hs.following_expressionStatement)⟩

theorem Denotes.whileForm (h : p.Denotes o s) (b : Bool) :
    ∃ o' s', (o' = true → o = true) ∧ Spells (.statement b o' s') p.whileForm ∧
      s.Alike words () s' := by
  obtain ⟨start, c, step, body, hstart, hc, hstep, hbody, rfl⟩ := h.parts
  rw [expandFor_eq]
  unfold ForParts.whileForm
  cases start with
  | none =>
    have hempty : following p.start = .semicolon := by
      generalize p.start = ts at hstart
      cases hstart with
      | forNothing hk => exact hk
    rw [if_pos hempty]
    exact spells_whileLoop b p.keyword.line h.keyword hc hstep hbody
  | some first =>
    obtain ⟨hfirst, hne⟩ := spells_first (b := b) hstart
    rw [if_neg hne]
    obtain ⟨o', s', -, hloop, halike⟩ := 
      spells_whileLoop b p.keyword.line h.keyword hc hstep hbody
    have hend := Spells.declarations (.statement hloop) .noDeclarations
    have hblock := Spells.block (kind_ofKind .leftBrace) (kind_ofKind .rightBrace)
      (.declarations hfirst hend)
    exact ⟨false, _, by simp, by simpa using hblock,
      .block trivial (.cons (first.alike_self words_reflexive) (.cons halike .nil))⟩

end ForParts

end Lox
