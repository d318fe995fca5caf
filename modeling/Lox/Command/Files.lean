namespace Lox

inductive ReadFailure where
  | notFound | isDirectory | notDirectory | nameTooLong | other (reason : String)
  deriving Repr, DecidableEq

def ReadFailure.reason : ReadFailure → String
  | notFound => "No such file or directory"
  | isDirectory => "Is a directory"
  | notDirectory => "Not a directory"
  | nameTooLong => "File name too long"
  | other reason => reason

abbrev Path := List String

abbrev Files := List (Path × Option String)

namespace Files

def path (text : String) : Path :=
  (text.splitOn "/").filter fun name => name ≠ "" && name ≠ "."

def ofTexts (texts : List (String × String)) : Files :=
  texts.map fun (name, text) => (path name, if name.endsWith "/" then none else some text)

def find? (files : Files) (at_ : Path) : Option (Option String) :=
  match files.lookup at_ with
  | some entry => some entry
  | none => if files.any fun (other, _) => at_.isPrefixOf other then some none else none

def maxNameLength : Nat := 255

def walk (files : Files) (here : Path) : Path → Except ReadFailure String
  | [] => .error .isDirectory
  | name :: more =>
    if name = ".." then
      if here.isEmpty then (if more.isEmpty then .error .isDirectory else .error .notFound)
      else walk files here.dropLast more
    else if maxNameLength < name.utf8ByteSize then .error .nameTooLong
    else
      match files.find? (here ++ [name]) with
      | none => .error .notFound
      | some none => walk files (here ++ [name]) more
      | some (some text) => if more.isEmpty then .ok text else .error .notDirectory

def read (files : Files) (text : String) : Except ReadFailure String :=
  let names := path text
  if text.startsWith "/" && !names.isEmpty then .error .notFound else files.walk [] names

end Files

end Lox
