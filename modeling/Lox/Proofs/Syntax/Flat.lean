import Lox.Proofs.Token.Lexeme
import Lox.Syntax

namespace Lox

namespace Token

def ofKind (k : Kind) : Token := ⟨k, k.text?.getD "", 0, 0⟩

lemma kind_ofKind (k : Kind) : (ofKind k).kind = k := rfl

def Renders (t u : Token) : Prop := t = u ∨ t = .ofKind u.kind ∧ u.kind.text?.isSome

lemma Renders.refl (t : Token) : t.Renders t := .inl rfl

lemma renders_ofKind {u : Token} {k : Kind} (hu : u.kind = k) (hk : k.text?.isSome) :
    (ofKind k).Renders u := by
  subst hu
  exact .inr ⟨rfl, hk⟩

def listed : List Token → List Token
  | [] => []
  | [name] => [name]
  | name :: next :: more => name :: ofKind .comma :: listed (next :: more)

end Token

def Params.tokens (p : Params) : List Token :=
  .ofKind .leftParen :: (Token.listed p.names ++ [.ofKind .rightParen])

mutual

def Expr.tokens : Expr → List Token
  | .literal token _ => [token]
  | .ref target => [target.name]
  | .assign target value _ => target.name :: .ofKind .equal :: value.tokens
  | .get object name => object.tokens ++ [.ofKind .dot, name]
  | .set object name value _ =>
    object.tokens ++ .ofKind .dot :: name :: .ofKind .equal :: value.tokens
  | .conditional condition mark yes no =>
    condition.tokens ++ mark :: (yes.tokens ++ .ofKind .colon :: no.tokens)
  | .lambda function => function.tokens
  | .comma left op right => left.tokens ++ op :: right.tokens
  | .binary left op right => left.tokens ++ op :: right.tokens
  | .logical left op right => left.tokens ++ op :: right.tokens
  | .unary op operand => op :: operand.tokens
  | .call callee paren arguments =>
    callee.tokens ++ .ofKind .leftParen :: (listTokens arguments ++ [paren])
  | .this target => [target.name]
  | .super target method => [target.name, .ofKind .dot, method]
  | .grouping paren inner => paren :: (inner.tokens ++ [.ofKind .rightParen])
  | .list bracket elements => bracket :: (listTokens elements ++ [.ofKind .rightBracket])
  | .invalid token => [token]

def listTokens : List Expr → List Token
  | [] => []
  | [e] => e.tokens
  | e :: next :: more => e.tokens ++ .ofKind .comma :: listTokens (next :: more)

def Stmt.tokens : Stmt → List Token
  | .expression _ value => value.tokens ++ [.ofKind .semicolon]
  | .print keyword value => keyword :: (value.tokens ++ [.ofKind .semicolon])
  | .var name none => [.ofKind .varWord, name, .ofKind .semicolon]
  | .var name (some init) =>
    .ofKind .varWord :: name :: .ofKind .equal :: (init.tokens ++ [.ofKind .semicolon])
  | .block _ body => .ofKind .leftBrace :: (bodyTokens body ++ [.ofKind .rightBrace])
  | .ifElse keyword condition yes none =>
    keyword :: .ofKind .leftParen :: (condition.tokens ++ .ofKind .rightParen :: yes.tokens)
  | .ifElse keyword condition yes (some no) =>
    keyword :: .ofKind .leftParen :: (condition.tokens ++ .ofKind .rightParen ::
      (yes.tokens ++ .ofKind .elseWord :: no.tokens))
  | .whileLoop keyword condition body =>
    keyword :: .ofKind .leftParen :: (condition.tokens ++ .ofKind .rightParen :: body.tokens)
  | .breakLoop keyword => [keyword, .ofKind .semicolon]
  | .returnValue keyword none => [keyword, .ofKind .semicolon]
  | .returnValue keyword (some value) => keyword :: (value.tokens ++ [.ofKind .semicolon])
  | .function function => .ofKind .funWord :: function.tokens
  | .classDecl name superclass _ methods statics =>
    .ofKind .classWord :: name ::
      ((superclass.map fun parent => [.ofKind .less, parent.name]).getD [] ++
        .ofKind .leftBrace ::
          (memberTokens [] methods ++ memberTokens [.ofKind .classWord] statics ++
            [.ofKind .rightBrace]))
  | .invalid token => [token]

def bodyTokens : List Stmt → List Token
  | [] => []
  | s :: more => s.tokens ++ bodyTokens more

def Function.tokens : Function → List Token
  | .mk head params _ body =>
    head :: ((params.map Params.tokens).getD [] ++
      .ofKind .leftBrace :: (bodyTokens body ++ [.ofKind .rightBrace]))

def memberTokens (front : List Token) : List Function → List Token
  | [] => []
  | f :: more => front ++ (f.tokens ++ memberTokens front more)

end

end Lox
