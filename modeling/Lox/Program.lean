import Lox.Grammar
import Lox.Scope.Resolve

namespace Lox

structure Program where
  body : List Stmt
  diagnostics : List Diagnostic

namespace Program

def hasError (p : Program) : Bool := Diagnostic.hasError p.diagnostics

def ofScan (s : Scan) : Program :=
  let (body, reports) := Grammar.program s
  ⟨body, s.diagnostics ++ reports⟩

def ofSource (source : String) : Program := ofScan (Scan.ofString source)

def resolve (p : Program) : Program :=
  let (body, reports) := Resolver.program p.body
  ⟨body, p.diagnostics ++ reports⟩

def resolveIfSound (p : Program) : Program := if p.hasError then p else p.resolve

def compile (source : String) : Program := (ofSource source).resolveIfSound

def holdsInvalid (p : Program) : Bool := anyInvalid p.body

end Program

end Lox
