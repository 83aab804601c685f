namespace HoareProof
namespace Text

/-!
Blank characters and the operations that drop them.  The class is the Unicode
one: the ASCII controls that separate text, the space, and the separators of
the other scripts.  A zero-width space and a byte order mark are not blank.
Numerals accept a smaller class around their digits, because the four ASCII
information separators never stand beside a number.
-/

/-- A character that separates words and may be trimmed from either end of a
text. -/
def isBlank (c : Char) : Bool :=
  let n := c.toNat
  (9 ≤ n && n ≤ 13) || (28 ≤ n && n ≤ 32) || n == 0x85 || n == 0xA0 ||
    n == 0x1680 || (0x2000 ≤ n && n ≤ 0x200A) || n == 0x2028 || n == 0x2029 ||
    n == 0x202F || n == 0x205F || n == 0x3000

/-- A blank that may pad a numeral: every blank but the information
separators. -/
def isPadding (c : Char) : Bool :=
  isBlank c && !(28 ≤ c.toNat && c.toNat ≤ 31)

/-- Drops the characters of a class from both ends. -/
def trimWhile (discard : Char -> Bool) (chars : List Char) : List Char :=
  ((chars.dropWhile discard).reverse.dropWhile discard).reverse

def trim (text : String) : String :=
  String.ofList (trimWhile isBlank text.toList)

def withoutBlanks (chars : List Char) : List Char :=
  chars.filter fun c => !isBlank c

end Text
end HoareProof
