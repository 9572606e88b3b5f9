import Mathlib.Data.List.Basic

/-!
# Text

Python's notion of white space on text, `str.strip`, and the cases of letters as far as
ASCII letters are concerned.
-/

namespace Corvus.Text

/-- `str.isspace` of a single character. -/
def isSpace (c : Char) : Bool :=
  let n := c.toNat
  (9 ≤ n && n ≤ 13) || (28 ≤ n && n ≤ 32) || n == 0x85 || n == 0xA0 || n == 0x1680 ||
    (0x2000 ≤ n && n ≤ 0x200A) || n == 0x2028 || n == 0x2029 || n == 0x202F || n == 0x205F ||
    n == 0x3000

/-- `str.strip`: the text without leading and trailing white space. -/
def strip (s : String) : String :=
  String.ofList (((s.toList.dropWhile isSpace).reverse.dropWhile isSpace).reverse)

/-! ## Cases -/

def lowerAscii (c : Char) : Char := if 'A' ≤ c ∧ c ≤ 'Z' then Char.ofNat (c.toNat + 32) else c

/-- `str.lower` of one character. Of the characters beyond ASCII only two give an ASCII
letter; the others stand for themselves here. -/
def lowerChar (c : Char) : List Char :=
  if c.toNat = 0x212A then ['k']
  else if c.toNat = 0x130 then ['i', Char.ofNat 0x307]
  else [lowerAscii c]

def lower (s : List Char) : List Char := s.flatMap lowerChar

/-- The ASCII letter that a character is the same as when a pattern ignores case. -/
def foldCase (c : Char) : Char :=
  let n := c.toNat
  if n = 0x212A then 'k'
  else if n = 0x130 ∨ n = 0x131 then 'i'
  else if n = 0x17F then 's'
  else lowerAscii c

def isLowerAscii (c : Char) : Bool := 'a' ≤ c && c ≤ 'z'

def isDigitAscii (c : Char) : Bool := '0' ≤ c && c ≤ '9'

end Corvus.Text
