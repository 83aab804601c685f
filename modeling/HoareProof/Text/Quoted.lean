import HoareProof.Text.Printable

namespace HoareProof
namespace Text

/-!
A text between quotation marks, as it appears inside a message.  Apostrophes
are the marks unless the text has an apostrophe and no double quotation mark.
The mark and the backslash are escaped, and so is every character that does
not show: line ends and tabs by a letter, all others by their code point in
two, four or eight hexadecimal digits.
-/

/-- The lower-case hexadecimal digits of a number, padded with zeros on the
left to a width. -/
def hexDigits (width value : Nat) : List Char :=
  let digits := Nat.toDigits 16 value
  List.replicate (width - digits.length) '0' ++ digits

def quotedChar (mark c : Char) : List Char :=
  if c = mark || c = '\\' then ['\\', c]
  else if c = '\n' then ['\\', 'n']
  else if c = '\r' then ['\\', 'r']
  else if c = '\t' then ['\\', 't']
  else if isPrintable c then [c]
  else if c.toNat < 0x100 then '\\' :: 'x' :: hexDigits 2 c.toNat
  else if c.toNat < 0x10000 then '\\' :: 'u' :: hexDigits 4 c.toNat
  else '\\' :: 'U' :: hexDigits 8 c.toNat

/-- The mark that needs the least escaping. -/
def quotationMark (chars : List Char) : Char :=
  if chars.contains '\x27' && !chars.contains '\x22' then '\x22' else '\x27'

def quoted (text : String) : String :=
  let chars := text.toList
  let mark := quotationMark chars
  String.ofList (mark :: chars.flatMap (quotedChar mark) ++ [mark])

/-- Bytes between quotation marks, after a letter that tells them from a text.
Only bytes of printable ASCII characters show. -/
def quotedBytes (bytes : List Nat) : String :=
  let chars := bytes.map Char.ofNat
  let mark := quotationMark chars
  let quotedByte (c : Char) : List Char :=
    if c.toNat < 0x80 then quotedChar mark c else '\\' :: 'x' :: hexDigits 2 c.toNat
  String.ofList ('b' :: mark :: chars.flatMap quotedByte ++ [mark])

end Text
end HoareProof
