import Lox.Token.Scan

/-! Highlighting: each line of an input cut into fragments with a style each. -/

namespace Lox.Prompt

inductive Style where
  | plain | keyword | constant | number | string | function | type
  deriving Repr, DecidableEq

namespace Style

def name : Style → String
  | plain => ""
  | keyword => "bold ansicyan"
  | constant => "ansicyan"
  | number => "ansimagenta"
  | string => "ansigreen"
  | function => "bold ansiyellow"
  | type => "bold ansiblue"

def ofName : Option Kind → Style
  | some .funWord => function
  | some .classWord | some .less => type
  | _ => plain

def ofKind (before : Option Kind) : Kind → Style
  | .andWord | .breakWord | .classWord | .elseWord | .forWord | .funWord | .ifWord | .orWord
  | .printWord | .returnWord | .superWord | .thisWord | .varWord | .whileWord => keyword
  | .trueWord | .falseWord | .nilWord => constant
  | .number => number
  | .string => string
  | .identifier => ofName before
  | _ => plain

end Style

structure Fragment where
  style : Style
  text : List Char
  deriving Repr, DecidableEq

namespace Fragment

def gap (text : List Char) : List Fragment := if text.isEmpty then [] else [⟨.plain, text⟩]

def splitAt? (word : List Char) : List Char → Option (List Char × List Char)
  | [] => if word.isEmpty then some ([], []) else none
  | c :: rest =>
    if word.isPrefixOf (c :: rest) then some ([], (c :: rest).drop word.length)
    else (splitAt? word rest).map fun (before, after) => (c :: before, after)

/-- Each token is looked for from the end of the one before; one that is not found is left out. -/
def ofTokens (before : Option Kind) (text : List Char) : List Token → List Fragment
  | [] => gap text
  | t :: more =>
    match splitAt? t.lexeme.toList text with
    | some (skipped, rest) =>
      gap skipped ++ ⟨.ofKind before t.kind, t.lexeme.toList⟩ :: ofTokens (some t.kind) rest more
    | none => ofTokens (some t.kind) text more

def ofLine (line : List Char) : List Fragment :=
  if line.isEmpty then [⟨.plain, []⟩] else ofTokens none line (Scan.ofChars line).tokens

def lines : List Char → List (List Char)
  | [] => [[]]
  | c :: rest =>
    if c = '\n' then [] :: lines rest
    else
      match lines rest with
      | line :: more => (c :: line) :: more
      | [] => [[c]]

def ofText (text : List Char) : List (List Fragment) := (lines text).map ofLine

end Fragment

end Lox.Prompt
