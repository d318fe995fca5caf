import Lox.Diagnostic

/-! A cursor over the tokens of a program, and the readers that move it. A reader that fails has
reported why; it leaves the cursor at the token that it could not use. -/

namespace Lox

structure Cursor where
  rest : List Token
  -- The token read last.
  last : Token
  -- Stands for the end of the tokens.
  finish : Token
  reports : List Diagnostic

namespace Cursor

def start (tokens : List Token) (finish : Token) : Cursor := ⟨tokens, finish, finish, []⟩

def atEnd (c : Cursor) : Bool := c.rest.isEmpty

def peek (c : Cursor) : Token := c.rest.head?.getD c.finish

def sees (c : Cursor) (kind : Kind) : Bool := c.peek.kind = kind

def advance (c : Cursor) : Cursor :=
  match c.rest with
  | t :: rest => { c with rest, last := t }
  | [] => c

def report (c : Cursor) (t : Token) (problem : Problem) : Cursor :=
  { c with reports := c.reports ++ [.atToken t problem] }

def startsStatement : Kind → Bool
  | .classWord | .funWord | .varWord | .forWord | .ifWord | .whileWord | .printWord
  | .returnWord => true
  | _ => false

def skipFrom (last : Token) : List Token → Token × List Token
  | [] => (last, [])
  | t :: rest =>
    if last.kind = .semicolon || startsStatement t.kind then (last, t :: rest)
    else skipFrom t rest

def skipStatement (c : Cursor) : Cursor :=
  let c := c.advance
  let (last, rest) := skipFrom c.last c.rest
  { c with last, rest }

end Cursor

structure Misread where
  problem : Problem
  token : Token
  deriving Repr, DecidableEq

def Misread.message (m : Misread) : String :=
  m.problem.message ++ " at line " ++ toString m.token.line ++ ", col " ++ toString m.token.column

abbrev Reader := EStateM Misread Cursor

namespace Reader

def look : Reader Token := return (← get).peek

def sees (kind : Kind) : Reader Bool := return (← get).sees kind

def seesOneOf (kinds : List Kind) : Reader Bool := return kinds.contains (← get).peek.kind

def skip : Reader Unit := modify Cursor.advance

def report (t : Token) (problem : Problem) : Reader Unit := modify fun c => c.report t problem

def fail {α : Type} (t : Token) (problem : Problem) : Reader α := do
  report t problem
  throw ⟨problem, t⟩

def accept? (kinds : List Kind) : Reader (Option Token) := do
  let t ← look
  if kinds.contains t.kind then
    skip
    return some t
  else return none

def expect (what : Expectation) : Reader Token := do
  let t ← look
  if t.kind = what.kind then
    skip
    return t
  else fail t (.expected what)

def orElse {α : Type} (reader recovery : Reader α) : Reader α := fun c =>
  match reader c with
  | .ok x c => .ok x c
  | .error _ c => recovery c

/-- Reads items until the cursor is where a list of them ends. Each item takes a token, so the
count of tokens left bounds the count of items. -/
def collect {α : Type} (stop : Cursor → Bool) (item : Reader α) : Reader (List α) := do
  go (← get).rest.length
where
  go : Nat → Reader (List α)
    | 0 => return []
    | bound + 1 => do
      if stop (← get) then return []
      else
        let x ← item
        let more ← go bound
        return x :: more

def commaList {α : Type} (tooMany : Option Problem) (item : Reader α) : Reader (List α) := do
  go ((← get).rest.length + 1) 0
where
  go : Nat → Nat → Reader (List α)
    | 0, _ => return []
    | bound + 1, count => do
      if let some problem := tooMany then
        if maxArguments ≤ count then report (← look) problem
      let x ← item
      match ← accept? [.comma] with
      | some _ =>
        let more ← go bound (count + 1)
        return x :: more
      | none => return [x]

def chain {α : Type} (ops : List Kind) (join : α → Token → α → α) (operand : Reader α) :
    Reader α := do
  let first ← operand
  if ← seesOneOf ops then go (← get).rest.length first else return first
where
  go : Nat → α → Reader α
    | 0, left => return left
    | bound + 1, left => do
      match ← accept? ops with
      | some op =>
        let right ← operand
        go bound (join left op right)
      | none => return left

end Reader

end Lox
