import Lox.Token.Scan

namespace Lox

namespace Kind

def opens : Kind → Bool
  | leftParen | leftBracket | leftBrace => true
  | _ => false

def closes : Kind → Bool
  | rightParen | rightBracket | rightBrace => true
  | _ => false

end Kind

namespace Prompt

/-- A bracket that closes nothing does not count. -/
def depthAfter (depth : Nat) (t : Token) : Nat :=
  if t.kind.opens then depth + 1 else if t.kind.closes then depth - 1 else depth

def openDepth (text : List Char) : Nat := (Scan.ofChars text).tokens.foldl depthAfter 0

def indentation (text : List Char) : List Char := List.replicate (2 * openDepth text) ' '

end Prompt

end Lox
