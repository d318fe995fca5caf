import Lox.Text.Letter
import Lox.Token

/-! Source text cut into segments: blanks, comments, tokens, and what cannot be read. Put together
again, the segments are the text. -/

namespace Lox

inductive Shape where
  | blanks
  | comment
  | token (kind : Kind)
  -- A character that starts nothing.
  | stray
  -- A string whose closing quote is missing.
  | openString
  -- A block comment that is never closed.
  | openComment
  deriving Repr, DecidableEq

structure Segment where
  shape : Shape
  text : List Char
  deriving Repr, DecidableEq

namespace Segment

def isGap (c : Char) : Bool := c = ' ' || c = '\t' || c = '\r' || c = '\n'

def opensName (c : Char) : Bool := Text.isLetter c || c = '_'

def continuesName (c : Char) : Bool := Text.isLetter c || Text.isNumeral c || c = '_'

/-- A line comment reaches up to the end of its line, or up to a null character. -/
def inLineComment (c : Char) : Bool := c ≠ '\n' && c ≠ '\x00'

def throughClose : List Char → Option Nat
  | [] => none
  | c :: rest =>
    match c, rest with
    | '*', '/' :: _ => some 2
    | _, _ => (throughClose rest).map (· + 1)

def throughQuote (s : List Char) : Option Nat := (s.findIdx? (· = '"')).map (· + 1)

def numberExtent (rest : List Char) : Nat :=
  let whole := (rest.takeWhile Text.isAsciiDigit).length
  match rest.drop whole with
  | '.' :: digit :: more =>
    if Text.isAsciiDigit digit then whole + 2 + (more.takeWhile Text.isAsciiDigit).length
    else whole
  | _ => whole

def commentExtent (rest : List Char) : Shape × Nat :=
  match throughClose (rest.drop 1) with
  | some n => (.comment, n + 1)
  | none => (.openComment, rest.length)

def stringExtent (rest : List Char) : Shape × Nat :=
  match throughQuote rest with
  | some n => (.token .string, n)
  | none => (.openString, rest.length)

def nameExtent (first : Char) (rest : List Char) : Shape × Nat :=
  let more := rest.takeWhile continuesName
  (.token (Kind.ofWord (String.ofList (first :: more))), more.length)

def operatorExtent (first : Char) (rest : List Char) : Shape × Nat :=
  match rest.head?.bind (Kind.ofPair? first) with
  | some kind => (.token kind, 1)
  | none =>
    match Kind.ofChar? first with
    | some kind => (.token kind, 0)
    | none => (.stray, 0)

def extent (first : Char) (rest : List Char) : Shape × Nat :=
  if isGap first then (.blanks, (rest.takeWhile isGap).length)
  else if first = '/' && rest.head? = some '/' then
    (.comment, (rest.takeWhile inLineComment).length)
  else if first = '/' && rest.head? = some '*' then commentExtent rest
  else if first = '"' then stringExtent rest
  else if Text.isAsciiDigit first then (.token .number, numberExtent rest)
  else if opensName first then nameExtent first rest
  else operatorExtent first rest

def cut : List Char → List Segment
  | [] => []
  | first :: rest =>
    let (shape, n) := extent first rest
    ⟨shape, first :: rest.take n⟩ :: cut (rest.drop n)
termination_by s => s.length
decreasing_by simp only [List.length_drop, List.length_cons]; omega

@[simp] theorem cut_nil : cut [] = [] := by simp [cut]

theorem cut_cons (first : Char) (rest : List Char) :
    cut (first :: rest) =
      ⟨(extent first rest).1, first :: rest.take (extent first rest).2⟩ ::
        cut (rest.drop (extent first rest).2) := by
  rw [cut]

theorem flatMap_text_cut (s : List Char) : (cut s).flatMap text = s := by
  fun_induction cut s with
  | case1 => rfl
  | case2 first rest shape n _ ih => simp [ih]

/-- The segments together with the positions where they start. -/
def place (p : Position) : List Segment → List (Position × Segment)
  | [] => []
  | s :: more => (p, s) :: place (p.after s.text) more

end Segment

end Lox
