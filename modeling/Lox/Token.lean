import Lox.Text.Numeral

namespace Lox

inductive Kind where
  | leftParen | rightParen | leftBrace | rightBrace | leftBracket | rightBracket
  | comma | dot | semicolon | question | colon
  | minus | plus | slash | star | percent
  | bang | bangEqual | equal | equalEqual | greater | greaterEqual | less | lessEqual
  | identifier | string | number
  | andWord | breakWord | classWord | elseWord | falseWord | funWord | forWord | ifWord | nilWord
  | orWord | printWord | returnWord | superWord | thisWord | trueWord | varWord | whileWord
  | finish
  deriving Repr, DecidableEq, Inhabited

namespace Kind

def keywords : List (String × Kind) :=
  [("and", andWord), ("break", breakWord), ("class", classWord), ("else", elseWord),
   ("false", falseWord), ("for", forWord), ("fun", funWord), ("if", ifWord), ("nil", nilWord),
   ("or", orWord), ("print", printWord), ("return", returnWord), ("super", superWord),
   ("this", thisWord), ("true", trueWord), ("var", varWord), ("while", whileWord)]

def ofWord (word : String) : Kind := (keywords.lookup word).getD identifier

def ofPair? : Char → Char → Option Kind
  | '!', '=' => some bangEqual
  | '=', '=' => some equalEqual
  | '<', '=' => some lessEqual
  | '>', '=' => some greaterEqual
  | _, _ => none

def ofChar? : Char → Option Kind
  | '(' => some leftParen
  | ')' => some rightParen
  | '{' => some leftBrace
  | '}' => some rightBrace
  | '[' => some leftBracket
  | ']' => some rightBracket
  | ',' => some comma
  | '.' => some dot
  | '-' => some minus
  | '+' => some plus
  | ';' => some semicolon
  | '/' => some slash
  | '*' => some star
  | '%' => some percent
  | '?' => some question
  | ':' => some colon
  | '!' => some bang
  | '=' => some equal
  | '<' => some less
  | '>' => some greater
  | _ => none

end Kind

structure Position where
  line : Nat
  column : Nat
  deriving Repr, DecidableEq, Inhabited

namespace Position

def start : Position := ⟨1, 1⟩

def advance (p : Position) (c : Char) : Position :=
  if c = '\n' then ⟨p.line + 1, 1⟩ else ⟨p.line, p.column + 1⟩

def after (p : Position) (text : List Char) : Position := text.foldl advance p

theorem after_append (p : Position) (s t : List Char) :
    p.after (s ++ t) = (p.after s).after t := by
  simp [after]

end Position

structure Token where
  kind : Kind
  lexeme : String
  line : Nat
  column : Nat
  deriving Repr, DecidableEq, Inhabited

inductive Literal where
  | nil
  | bool (value : Bool)
  | number (value : Float)
  | string (value : String)
  deriving Repr, DecidableEq, Inhabited

namespace Literal

def readNumber (text : List Char) : Float :=
  let value (digits : List Char) (start : Nat) : Nat :=
    digits.foldl (fun n c => n * 10 + Text.asciiDigitValue c) start
  let whole := text.takeWhile Text.isAsciiDigit
  let fraction := (text.dropWhile Text.isAsciiDigit).drop 1
  Float.ofScientific (value fraction (value whole 0)) true fraction.length

def unquote (text : List Char) : String := String.ofList (text.drop 1).dropLast

end Literal

namespace Token

def position (t : Token) : Position := ⟨t.line, t.column⟩

def literal? (t : Token) : Option Literal :=
  match t.kind with
  | .falseWord => some (.bool false)
  | .trueWord => some (.bool true)
  | .nilWord => some .nil
  | .number => some (.number (Literal.readNumber t.lexeme.toList))
  | .string => some (.string (Literal.unquote t.lexeme.toList))
  | _ => none

end Token

end Lox
