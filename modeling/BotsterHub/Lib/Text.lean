import Mathlib.Algebra.Group.Nat.Defs
import Mathlib.Data.List.Infix

/-!
Texts: the tests that validation makes on them, and numbers.
-/

namespace Text

def isWhitespace (c : Char) : Bool :=
  let n := c.toNat
  (0x09 ≤ n && n ≤ 0x0d) || n == 0x20 || n == 0x85 || n == 0xa0 || n == 0x1680 ||
    (0x2000 ≤ n && n ≤ 0x200a) || n == 0x2028 || n == 0x2029 || n == 0x202f || n == 0x205f ||
    n == 0x3000

def isBlank (text : String) : Bool := text.toList.all isWhitespace

def contains (text : String) (c : Char) : Bool := text.toList.contains c

def startsWith (text start : String) : Bool := start.toList.isPrefixOf text.toList

def strip? (text start : String) : Option String :=
  if startsWith text start then some (String.ofList (text.toList.drop start.toList.length))
  else none

/-- An unsigned number of 64 bits in decimal digits. A leading `+` is read over. -/
def parseU64 (text : String) : Option ℕ :=
  let digits := match text.toList with
    | '+' :: digits => digits
    | digits => digits
  if digits ≠ [] ∧ digits.all Char.isDigit then
    let n := digits.foldl (fun n c => 10 * n + (c.toNat - 0x30)) 0
    if n < 2 ^ 64 then some n else none
  else none

def split (text : String) (c : Char) : List String := (text.toList.splitOn c).map String.ofList

end Text
