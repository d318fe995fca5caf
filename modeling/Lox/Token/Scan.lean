import Lox.Diagnostic
import Lox.Token.Segment

namespace Lox

namespace Segment

def token? : Position × Segment → Option Token
  | (p, ⟨.token kind, text⟩) => some ⟨kind, String.ofList text, p.line, p.column⟩
  | _ => none

def diagnostic? : Position × Segment → Option Diagnostic
  | (p, ⟨.stray, _⟩) => some (.onLine p.line .strayCharacter)
  | (p, ⟨.openString, text⟩) => some (.onLine (p.after text).line .openString)
  | (p, ⟨.openComment, _⟩) => some (.onLine p.line .openComment)
  | _ => none

end Segment

structure Scan where
  tokens : List Token
  finish : Token
  diagnostics : List Diagnostic
  deriving Repr

namespace Scan

def finishAt (p : Position) : Token := ⟨.finish, "", p.line, p.column⟩

def ofChars (source : List Char) : Scan :=
  let placed := Segment.place .start (Segment.cut source)
  { tokens := placed.filterMap Segment.token?
    finish := finishAt (Position.start.after source)
    diagnostics := placed.filterMap Segment.diagnostic? }

def ofString (source : String) : Scan := ofChars source.toList

def all (s : Scan) : List Token := s.tokens ++ [s.finish]

end Scan

end Lox
