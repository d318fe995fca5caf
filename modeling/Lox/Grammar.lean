import Lox.Grammar.Statement
import Lox.Token.Scan

/-! Reading whole programs and single expressions from scanned tokens. -/

namespace Lox

namespace Readers

def within (inner : Readers) : Readers where
  expression := inner.readExpression
  ternary := inner.readTernary
  equality := inner.readEquality
  comparison := inner.readComparison
  sum := inner.readSum
  product := inner.readProduct
  sign := inner.readSign
  statement := inner.readStatement
  declaration := inner.readDeclaration

def noExpression {α : Type} : Reader α := do Reader.fail (← Reader.look) .noExpression

def empty : Readers where
  expression := noExpression
  ternary := noExpression
  equality := noExpression
  comparison := noExpression
  sum := noExpression
  product := noExpression
  sign := noExpression
  statement := fun _ => noExpression
  declaration := fun _ => noExpression

def nested : Nat → Readers
  | 0 => empty
  | depth + 1 => within (nested depth)

end Readers

namespace Grammar

/-- What inner readers read is shorter than the whole, so the count of tokens bounds the depth. -/
def readers (s : Scan) : Readers := Readers.nested (s.tokens.length + 1)

def start (s : Scan) : Cursor := Cursor.start s.tokens s.finish

structure Reading (α : Type) where
  outcome : Except Misread α
  cursor : Cursor

def read {α : Type} (reader : Reader α) (c : Cursor) : Reading α :=
  match reader c with
  | .ok x c => ⟨.ok x, c⟩
  | .error e c => ⟨.error e, c⟩

def readProgram (readers : Readers) : Reader (List Stmt) :=
  Reader.collect Cursor.atEnd (readers.declaration false)

def program (s : Scan) : List Stmt × List Diagnostic :=
  match readProgram (readers s) (start s) with
  | .ok body c => (body, c.reports)
  | .error _ c => ([], c.reports)

def expression (s : Scan) : Reading Expr := read (readers s).expression (start s)

def bareExpression? (s : Scan) : Option Expr :=
  let reading := expression s
  match reading.outcome with
  | .ok e =>
    if s.diagnostics.isEmpty && reading.cursor.reports.isEmpty && reading.cursor.atEnd then some e
    else none
  | .error _ => none

end Grammar

end Lox
