import Lox.Syntax.Tree
import Mathlib.Tactic.Lemma

namespace Lox

mutual

def Tree.tokens : Tree → List Token
  | .node _ _ _ children => tokensBelow children

def Leaf.tokens : Leaf → List Token
  | .tree t => t.tokens
  | .token t => [t]
  | .value _ => []
  | .absent => []

def tokensBelow : List Leaf → List Token
  | [] => []
  | leaf :: more => leaf.tokens ++ tokensBelow more

end

theorem head?_tokensBelow {tree : Tree} {t : Token} (h : tree.tokens.head? = some t)
    (more : List Leaf) : (tokensBelow (.tree tree :: more)).head? = some t := by
  rw [tokensBelow, Leaf.tokens, List.head?_append, h]
  rfl

lemma Expr.head?_tokens : (e : Expr) → e.tree.tokens.head? = some e.firstToken
  | .literal _ _ | .ref _ | .assign _ _ _ | .unary _ _ | .this _ | .super _ _ | .grouping _ _
  | .list _ _ | .invalid _ => rfl
  | .lambda (.mk _ _ _ _) => rfl
  | .get object _ => head?_tokensBelow object.head?_tokens _
  | .set object _ _ _ => head?_tokensBelow object.head?_tokens _
  | .conditional condition _ _ _ => head?_tokensBelow condition.head?_tokens _
  | .comma left _ _ => head?_tokensBelow left.head?_tokens _
  | .binary left _ _ => head?_tokensBelow left.head?_tokens _
  | .logical left _ _ => head?_tokensBelow left.head?_tokens _
  | .call callee _ _ => head?_tokensBelow callee.head?_tokens _

mutual

lemma Stmt.head?_tokens : (st : Stmt) → st.tree.tokens.head? = st.firstToken?
  | .print _ _ | .var _ none | .var _ (some _) | .ifElse _ _ _ none | .ifElse _ _ _ (some _)
  | .whileLoop _ _ _ | .breakLoop _ | .returnValue _ none | .returnValue _ (some _)
  | .classDecl _ _ _ _ _ | .invalid _ => rfl
  | .function (.mk _ _ _ _) => rfl
  | .expression _ value => head?_tokensBelow value.head?_tokens _
  | .block _ body => head?_stmtLeaves body

lemma head?_stmtLeaves : (body : List Stmt) →
    (tokensBelow (stmtLeaves body)).head? = firstTokenOf? body
  | [] => rfl
  | st :: body => by
    have hst := st.head?_tokens
    have hbody := head?_stmtLeaves body
    change (st.tree.tokens ++ tokensBelow (stmtLeaves body)).head? = _
    rw [List.head?_append, hst, hbody]
    rfl

end

end Lox
