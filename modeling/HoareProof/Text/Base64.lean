namespace HoareProof
namespace Text

/-!
Bytes in base sixty-four.  Each character of the alphabet stands for six bits,
and four of them for three bytes.  Characters outside the alphabet are passed
over.  The sign for padding ends the text once it fills up a group of four that
has begun with two characters at least; a group that stays open is a fault.
-/

def sixBits? (c : Char) : Option Nat :=
  if c.isUpper then some (c.toNat - 'A'.toNat)
  else if c.isLower then some (c.toNat - 'a'.toNat + 26)
  else if c.isDigit then some (c.toNat - '0'.toNat + 52)
  else if c = '+' then some 62
  else if c = '/' then some 63
  else none

/-- The bytes of a text inside a group: the characters of the group so far, the
bits that belong to the next byte, and the signs for padding just passed. -/
def groupBytes? (count bits padding : Nat) : List Char -> Option (List Nat)
  | [] => if count = 0 then some [] else none
  | c :: rest =>
    if c = '=' then
      if count < 2 then groupBytes? count bits padding rest
      else if 4 ≤ count + padding + 1 then some []
      else groupBytes? count bits (padding + 1) rest
    else
      match sixBits? c, count with
      | none, _ => groupBytes? count bits padding rest
      | some six, 0 => groupBytes? 1 six 0 rest
      | some six, 1 => (groupBytes? 2 (six % 16) 0 rest).map ((4 * bits + six / 16) :: ·)
      | some six, 2 => (groupBytes? 3 (six % 4) 0 rest).map ((16 * bits + six / 4) :: ·)
      | some six, _ => (groupBytes? 0 0 0 rest).map ((64 * bits + six) :: ·)

def base64Bytes? (chars : List Char) : Option (List Nat) :=
  groupBytes? 0 0 0 chars

end Text
end HoareProof
