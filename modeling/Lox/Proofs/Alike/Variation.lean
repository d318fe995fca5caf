import Mathlib.Logic.Function.Basic
import Lox.Proofs.Alike.Tree

/-! Variations: how the places of tokens and the names in the scopes of a program may change without
a change in what the program does. -/

namespace Lox

structure Variation where
  -- What may become of a token, as far as messages tell its place.
  place : Token → Token → Prop
  -- The keyword of a loop is seen in nothing but its place.
  loop : Token → Token → Prop
  -- What may be done to the names of one scope.
  Renames : (String → String) → Prop
  -- The names that programs use.
  Occurs : String → Prop
  place_of_loop : ∀ {t t'}, loop t t' → place t t'
  loop_of_place : ∀ {t t' : Token}, t'.kind = t.kind → t'.lexeme = t.lexeme → place t t' → loop t t'
  -- The receiver of a method is read by a word that stands in the place of another.
  place_this : ∀ {t t' : Token}, place t t' →
    place { t with kind := .thisWord, lexeme := "this" } { t' with kind := .thisWord, lexeme := "this" }
  renames_id : Renames id
  injective : ∀ {r}, Renames r → Function.Injective r
  this : ∀ {r}, Renames r → r "this" = "this"
  super : ∀ {r}, Renames r → r "super" = "super"
  occurs_this : Occurs "this"
  occurs_super : Occurs "super"
  -- Names of different scopes do not fall together.
  apart : ∀ {r r' name name'}, Renames r → Renames r' → Occurs name → Occurs name' →
    r name = r' name' → name = name'

namespace Variation

abbrev Renaming (V : Variation) : Type := {r : String → String // V.Renames r}

abbrev Names (V : Variation) : Type := Nat → V.Renaming

variable (V : Variation)

def same : V.Renaming := ⟨id, V.renames_id⟩

def plain : V.Names := fun _ => V.same

variable {V}

namespace Names

def cons (r : V.Renaming) (ν : V.Names) : V.Names
  | 0 => r
  | depth + 1 => ν depth

def under (ν : V.Names) : Option Nat → String → String
  | some depth => ν depth
  | none => id

lemma cons_same_plain : cons V.same V.plain = V.plain := by
  funext depth
  cases depth <;> rfl

end Names

end Variation

structure Token.Alike (V : Variation) (r : String → String) (t t' : Token) : Prop where
  kind : t'.kind = t.kind
  lexeme : t'.lexeme = r t.lexeme
  place : V.place t t'

lemma Token.Alike.loop {V : Variation} {t t' : Token} (h : t.Alike V id t') : V.loop t t' :=
  V.loop_of_place h.kind h.lexeme h.place

namespace Variation

variable (V : Variation)

def unresolved (T : Token → Token → Prop) : Likeness V.Names where
  token := Token.Alike V id
  loop := V.loop
  use ν r r' :=
    Token.Alike V (Names.under ν r.depth) r.name r'.name ∧ V.Occurs r.name.lexeme ∧ r'.depth = none
  binder ν t t' := Token.Alike V (ν 0) t t' ∧ V.Occurs t.lexeme ∧ T t t'
  title ν t t' :=
    Token.Alike V id t t' ∧ (ν 0).val t.lexeme = t.lexeme ∧ V.Occurs t.lexeme ∧ T t t'
  enter ν ν' := ∃ r, ν' = .cons r ν
  members hasSuper ν := .cons V.same (if hasSuper then .cons V.same ν else ν)

def resolved : Likeness V.Names where
  token := Token.Alike V id
  loop := V.loop
  use ν r r' := r'.depth = r.depth ∧ Token.Alike V (Names.under ν r.depth) r.name r'.name
  binder ν := Token.Alike V (ν 0)
  title ν t t' := Token.Alike V id t t' ∧ (ν 0).val t.lexeme = t.lexeme
  enter ν ν' := ∃ r, ν' = .cons r ν
  members hasSuper ν := .cons V.same (if hasSuper then .cons V.same ν else ν)

end Variation

lemma Expr.Alike.place_firstToken {V : Variation} {ν : V.Names} :
    (e e' : Expr) → e.Alike V.resolved ν e' → V.place e.firstToken e'.firstToken
  | .literal _ _, _, .literal ht => ht.place
  | .ref _, _, .ref hr => hr.2.place
  | .assign _ _ _, _, .assign hr _ => hr.2.place
  | .get object _, _, .get ho _ => ho.place_firstToken object _
  | .set object _ _ _, _, .set ho _ _ => ho.place_firstToken object _
  | .conditional c _ _ _, _, .conditional hc _ _ _ => hc.place_firstToken c _
  | .lambda _, _, .lambda (.mk ht _ _ _) => ht.place
  | .comma l _ _, _, .comma hl _ _ => hl.place_firstToken l _
  | .binary l _ _, _, .binary hl _ _ => hl.place_firstToken l _
  | .logical l _ _, _, .logical hl _ _ => hl.place_firstToken l _
  | .unary _ _, _, .unary ht _ => ht.place
  | .call callee _ _, _, .call hc _ _ => hc.place_firstToken callee _
  | .this _, _, .this hr => hr.2.place
  | .super _ _, _, .super hr _ => hr.2.place
  | .grouping _ _, _, .grouping ht _ => ht.place
  | .list _ _, _, .list ht _ => ht.place
  | .invalid _, _, .invalid ht => ht.place

mutual

lemma Stmt.Alike.place_firstToken? {V : Variation} {ν : V.Names} :
    (s s' : Stmt) → s.Alike V.resolved ν s' →
      Option.Rel V.place s.firstToken? s'.firstToken?
  | .expression _ e, _, .expression he => .some (he.place_firstToken e _)
  | .print _ _, _, .print ht _ => .some ht.place
  | .var _ _, _, .declare ht => .some ht.place
  | .var _ _, _, .define ht _ => .some ht.place
  | .block _ body, _, .block _ hbody => hbody.place_firstTokenOf? body _
  | .ifElse _ _ _ _, _, .ifOnly ht _ _ => .some ht.place
  | .ifElse _ _ _ _, _, .ifElse ht _ _ _ => .some ht.place
  | .whileLoop _ _ _, _, .whileLoop ht _ _ => .some (V.place_of_loop ht)
  | .breakLoop _, _, .breakLoop ht => .some ht.place
  | .returnValue _ _, _, .returnNothing ht => .some ht.place
  | .returnValue _ _, _, .returnValue ht _ => .some ht.place
  | .function _, _, .function ht _ => .some ht.1.place
  | .classDecl _ _ _ _ _, _, .classDecl ht _ _ _ => .some ht.1.place
  | .invalid _, _, .invalid ht => .some ht.place

lemma AlikeStmts.place_firstTokenOf? {V : Variation} {ν : V.Names} :
    (body body' : List Stmt) → AlikeStmts V.resolved ν body body' →
      Option.Rel V.place (firstTokenOf? body)
        (firstTokenOf? body')
  | [], _, .nil => .none
  | s :: body, _, .cons hs hbody =>
    optionRel_or (hs.place_firstToken? s _) (hbody.place_firstTokenOf? body _)

end

end Lox
