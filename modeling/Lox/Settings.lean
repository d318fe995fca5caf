import Lox.Text.Blank
import Lox.Text.Numeral
import Lox.Text.Quoted

/-! Settings: what the variables of the environment ask for. -/

namespace Lox

abbrev Environment := List (String × String)

namespace Settings

def traceName : String := "LOX_DEBUG_PY_TRACE"

def noPreludeName : String := "LOX_NO_PRELUDE"

def depthName : String := "LOX_RECURSION_LIMIT"

def yesWords : List String := ["1", "true", "yes", "on"]

def isYes (raw : String) : Bool :=
  yesWords.contains (String.ofList (Text.lower (Text.trim raw.toList)))

def isSet (env : Environment) (name : String) : Bool := (env.lookup name).any isYes

def tracing (env : Environment) : Bool := isSet env traceName

def noPrelude (env : Environment) : Bool := isSet env noPreludeName

inductive Problem where
  | notInteger (raw : String)
  | notPositive (value : Int)
  | tooLarge
  deriving Repr, DecidableEq

def Problem.message : Problem → String
  | notInteger raw =>
    depthName ++ " must be an integer, got " ++ String.ofList (Text.Quoted.encode raw.toList)
  | notPositive value => depthName ++ " must be positive, got " ++ toString value
  | tooLarge => "Python int too large to convert to C int"

def surroundsInteger (c : Char) : Bool :=
  Text.isBlank c && !(decide (0x1C ≤ c.toNat) && decide (c.toNat ≤ 0x1F))

def moreDigits? : List Char → Option (List Nat)
  | [] => some []
  | '_' :: c :: more => do return (← Text.decimalValue? c) :: (← moreDigits? more)
  | c :: more => do return (← Text.decimalValue? c) :: (← moreDigits? more)

def digits? : List Char → Option (List Nat)
  | [] => none
  | c :: more => do return (← Text.decimalValue? c) :: (← moreDigits? more)

def maxDigits : Nat := 4300

def natural? (text : List Char) : Option Nat := do
  let digits ← digits? text
  if digits.length ≤ maxDigits then return digits.foldl (fun n d => 10 * n + d) 0 else none

def integer? (text : List Char) : Option Int :=
  let text := text.dropWhile surroundsInteger
  match (text.reverse.dropWhile surroundsInteger).reverse with
  | '-' :: digits => (natural? digits).map fun n => -(n : Int)
  | '+' :: digits => (natural? digits).map fun n => (n : Int)
  | digits => (natural? digits).map fun n => (n : Int)

def standardDepth : Nat := 20000

def depth (env : Environment) : Except Problem Nat :=
  let raw := (env.lookup depthName).getD ""
  if (Text.trim raw.toList).isEmpty then .ok standardDepth
  else
    match integer? raw.toList with
    | some value => if value ≤ 0 then .error (.notPositive value) else .ok value.toNat
    | none => .error (.notInteger raw)

/-- A depth that does not fit into 32 bits cannot be set. -/
def checkDepth (env : Environment) : Except Problem Unit := do
  if Nat.pow 2 31 ≤ (← depth env) then throw .tooLarge

end Settings

end Lox
