import Lox.Text.Blank

namespace Lox.Prompt

inductive Switch where
  | on | off | toggle
  deriving Repr, DecidableEq

namespace Switch

def ofWord? (word : String) : Option Switch :=
  if word = "" then some toggle
  else if ["on", "1", "true", "yes"].contains word then some on
  else if ["off", "0", "false", "no"].contains word then some off
  else none

def apply : Switch → Bool → Bool
  | on, _ => true
  | off, _ => false
  | toggle, b => !b

end Switch

inductive Directive where
  | clear
  | trace (switch : Option Switch)
  | reset
  | unknown (name : String)
  deriving Repr, DecidableEq

def clearName : String := "/clear"

def traceName : String := "/py-traceback"

def resetName : String := "/reset"

def directives : List (String × String) :=
  [(clearName, "Clear the terminal screen"), (traceName, "Toggle Python traceback on errors"),
   (resetName, "Reset the REPL environment")]

namespace Directive

def ofWords (name argument : String) : Directive :=
  if name = clearName then clear
  else if name = traceName then
    trace (Switch.ofWord? (String.ofList (Text.lower argument.toList)))
  else if name = resetName then reset
  else unknown name

/-- A line is a directive if its first character that is not blank is a slash. -/
def ofLine? (line : List Char) : Option Directive :=
  match Text.trim line with
  | '/' :: rest =>
    let (name, argument) := Text.splitWord ('/' :: rest)
    some (ofWords (String.ofList name) (String.ofList argument))
  | _ => none

end Directive

end Lox.Prompt
