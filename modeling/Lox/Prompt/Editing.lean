import Lox.Prompt.Directive
import Lox.Prompt.Nesting

namespace Lox.Prompt

structure Completion where
  text : String
  -- How many characters before the cursor are replaced.
  replaced : Nat
  description : String
  deriving Repr, DecidableEq

def completions (text : String) : List Completion :=
  if text.startsWith "/" then
    (directives.filter fun (name, _) => name.startsWith text).map fun (name, description) =>
      ⟨name, text.length, description⟩
  else []

inductive Key where
  | enter
  | backspace
  deriving Repr, DecidableEq

inductive Effect where
  | accept
  | complete
  deriving Repr, DecidableEq

def isFinished (text : List Char) : Bool :=
  (Text.trimStart text).head? = some '/' || openDepth text = 0

def press (text : List Char) : Key → List Char × Option Effect
  | .enter =>
    if isFinished text then (text, some .accept) else (text ++ '\n' :: indentation text, none)
  | .backspace =>
    let text := text.dropLast
    (text, if text.head? = some '/' then some .complete else none)

def pressAll (text : List Char) : List Key → List Char × List Effect
  | [] => (text, [])
  | key :: more =>
    let (text, effect) := press text key
    let (text, effects) := pressAll text more
    (text, effect.toList ++ effects)

end Lox.Prompt
