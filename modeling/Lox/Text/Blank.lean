import Lox.Text.Ranges

namespace Lox.Text

def blanks : Ranges :=
  [(0x9, 0xD), (0x1C, 0x20), (0x85, 0x85), (0xA0, 0xA0), (0x1680, 0x1680), (0x2000, 0x200A),
   (0x2028, 0x2029), (0x202F, 0x202F), (0x205F, 0x205F), (0x3000, 0x3000)]

def isBlank (c : Char) : Bool := blanks.holds c

def trimStart (s : List Char) : List Char := s.dropWhile isBlank

def trimEnd (s : List Char) : List Char := (s.reverse.dropWhile isBlank).reverse

def trim (s : List Char) : List Char := trimEnd (trimStart s)

def splitWord (s : List Char) : List Char × List Char :=
  (s.takeWhile (!isBlank ·), trimStart (s.dropWhile (!isBlank ·)))

def lower (s : List Char) : List Char := s.map Char.toLower

end Lox.Text
