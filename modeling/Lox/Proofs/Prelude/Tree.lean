import Lox.Proofs.Session.Start
import Lox.Proofs.Syntax.Same

namespace Lox.Prelude

def name (lexeme : String) (line column : Nat) : Token := ⟨.identifier, lexeme, line, column⟩

def paren (line column : Nat) : Token := ⟨.rightParen, ")", line, column⟩

def global (lexeme : String) (line column : Nat) : Expr := .ref ⟨name lexeme line column, none⟩

def bound (depth : Nat) (lexeme : String) (line column : Nat) : Expr :=
  .ref ⟨name lexeme line column, some depth⟩

def setOutside (lexeme : String) (line column : Nat) (value : Expr) : Stmt :=
  .expression line (.assign ⟨name lexeme line column, some 1⟩ value line)

def giveBack (line column : Nat) (value : Expr) : Stmt :=
  .returnValue ⟨.returnWord, "return", line, column⟩ (some value)

def emptyList (line column : Nat) : Expr := .list ⟨.leftBracket, "[", line, column⟩ []

def digit (lexeme : Char) (line column : Nat) : Expr :=
  .literal ⟨.number, String.singleton lexeme, line, column⟩ (.number (Literal.readNumber [lexeme]))

def step (line column : Nat) (value : Expr) : Function :=
  .mk ⟨.funWord, "fun", line, column⟩
    (some ⟨line, [name "acc" line (column + 5), name "x" line (column + 10)]⟩) line
    [giveBack line (column + 15) value]

def consCall (line column : Nat) : Expr :=
  .call (global "cons" line column) (paren line (column + 11))
    [bound 0 "x" line (column + 5), bound 0 "acc" line (column + 8)]

def foldlCondition : Expr :=
  .unary ⟨.bang, "!", 7, 10⟩ (.call (global "empty" 7 11) (paren 7 19) [bound 0 "xs" 7 17])

def foldlElement : Expr := .call (global "first" 8 18) (paren 8 26) [bound 1 "xs" 8 24]

def foldlCall : Expr :=
  .call (bound 1 "f" 8 11) (paren 8 27) [bound 1 "acc" 8 13, foldlElement]

def foldlRest : Expr := .call (global "rest" 9 10) (paren 9 17) [bound 1 "xs" 9 15]

def foldlBody : Stmt :=
  .block 7 [setOutside "acc" 8 5 foldlCall, setOutside "xs" 9 5 foldlRest]

def foldlLoop : Stmt := .whileLoop ⟨.whileWord, "while", 7, 3⟩ foldlCondition foldlBody

def foldl : Function :=
  .mk (name "foldl" 6 5) (some ⟨6, [name "f" 6 11, name "acc" 6 14, name "xs" 6 19]⟩) 6
    [foldlLoop, giveBack 11 3 (bound 0 "acc" 11 10)]

def reverseStep : Function := step 15 16 (consCall 15 38)

def reverseValue : Expr :=
  .call (global "foldl" 15 10) (paren 15 61)
    [.lambda reverseStep, emptyList 15 55, bound 0 "xs" 15 59]

def reverse : Function :=
  .mk (name "reverse" 14 5) (some ⟨14, [name "xs" 14 13]⟩) 14 [giveBack 15 3 reverseValue]

def reversedFold (f : Function) (line column : Nat) : Expr :=
  .call (global "reverse" line 10) (paren line (column + 7))
    [.call (global "foldl" line 18) (paren line (column + 6))
      [.lambda f, emptyList line column, bound 0 "xs" line (column + 4)]]

def mapCall : Expr := .call (bound 1 "f" 19 51) (paren 19 54) [bound 0 "x" 19 53]

def mapStep : Function :=
  step 19 24 (.call (global "cons" 19 46) (paren 19 60) [mapCall, bound 0 "acc" 19 57])

def map : Function :=
  .mk (name "map" 18 5) (some ⟨18, [name "f" 18 9, name "xs" 18 12]⟩) 18
    [giveBack 19 3 (reversedFold mapStep 19 66)]

def filterCall : Expr := .call (bound 1 "pred" 23 46) (paren 23 52) [bound 0 "x" 23 51]

def filterStep : Function :=
  step 23 24 (.conditional filterCall ⟨.question, "?", 23, 54⟩ (consCall 23 56)
    (bound 0 "acc" 23 71))

def filter : Function :=
  .mk (name "filter" 22 5) (some ⟨22, [name "pred" 22 12, name "xs" 22 18]⟩) 22
    [giveBack 23 3 (reversedFold filterStep 23 79)]

def nth : Function :=
  .mk (name "nth" 26 5) (some ⟨26, [name "xs" 26 9, name "n" 26 13]⟩) 26
    [.whileLoop ⟨.whileWord, "while", 27, 3⟩
      (.binary (bound 0 "n" 27 10) ⟨.greater, ">", 27, 12⟩ (digit '0' 27 14))
      (.block 27
        [setOutside "xs" 28 5 (.call (global "rest" 28 10) (paren 28 17) [bound 1 "xs" 28 15]),
         setOutside "n" 29 5 (.binary (bound 1 "n" 29 9) ⟨.minus, "-", 29, 11⟩ (digit '1' 29 13))]),
     giveBack 31 3 (.call (global "first" 31 10) (paren 31 18) [bound 0 "xs" 31 16])]

def appendStep : Function := step 35 16 (consCall 35 38)

def appendValue : Expr :=
  .call (global "foldl" 35 10) (paren 35 70)
    [.lambda appendStep, bound 0 "ys" 35 55,
     .call (global "reverse" 35 59) (paren 35 69) [bound 0 "xs" 35 67]]

def append : Function :=
  .mk (name "append" 34 5) (some ⟨34, [name "xs" 34 12, name "ys" 34 16]⟩) 34
    [giveBack 35 3 appendValue]

def functions : List Function := [foldl, reverse, map, filter, nth, append]

set_option maxRecDepth 20000 in
theorem body_program : program.body = functions.map Stmt.function := by
  apply eq_of_sameStmts
  unfold program Program.compile Program.ofSource Scan.ofString
  rw [toList_source]
  simp only [lines, List.map, String.reduceToList]
  decide +kernel

end Lox.Prelude
