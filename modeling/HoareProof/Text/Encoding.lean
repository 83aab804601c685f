import HoareProof.Text.Quoted

namespace HoareProof
namespace Text

/-!
Text from bytes.  A file holds text in UTF-8; bytes that are none are reported
with their place and with what is wrong: a byte that starts no character, a
byte that does not continue one, or an end inside a character.  The longest
run of bytes that could still have become a character is blamed together.
Line ends of all systems are read as one line feed.
-/

inductive EncodingFault where
  | startByte
  | continuationByte
  | unexpectedEnd
deriving DecidableEq, Repr

/-- A fault with the bytes it blames. -/
structure EncodingError where
  fault : EncodingFault
  position : Nat
  blamed : List Nat
deriving DecidableEq, Repr

def EncodingFault.message : EncodingFault -> String
  | .startByte => "invalid start byte"
  | .continuationByte => "invalid continuation byte"
  | .unexpectedEnd => "unexpected end of data"

def EncodingError.message (error : EncodingError) : String :=
  let place := match error.blamed with
    | [byte] =>
      "byte 0x" ++ String.ofList (hexDigits 2 byte) ++ " in position " ++ toString error.position
    | bytes =>
      "bytes in position " ++ toString error.position ++ "-" ++
        toString (error.position + bytes.length - 1)
  "'utf-8' codec can't decode " ++ place ++ ": " ++ error.fault.message

/-- The number of bytes that follow a start byte, the bits it contributes, and
the range of the byte after it, which rules out overlong forms and surrogates. -/
def startByte? (byte : Nat) : Option (Nat × Nat × Nat × Nat) :=
  if byte < 0x80 then some (0, byte, 0, 0)
  else if byte < 0xC2 then none
  else if byte < 0xE0 then some (1, byte - 0xC0, 0x80, 0xBF)
  else if byte < 0xF0 then
    some (2, byte - 0xE0, if byte = 0xE0 then 0xA0 else 0x80, if byte = 0xED then 0x9F else 0xBF)
  else if byte < 0xF5 then
    some (3, byte - 0xF0, if byte = 0xF0 then 0x90 else 0x80, if byte = 0xF4 then 0x8F else 0xBF)
  else none

/-- A character of which some bytes have been read: the bytes, how many are
still to come, the bits so far, and the range of the next byte. -/
structure PartialChar where
  bytes : List Nat
  pending : Nat
  bits : Nat
  least : Nat
  greatest : Nat

/-- The characters of bytes, the first of which has an index. -/
def decodeBytes (index : Nat) (started : Option PartialChar) :
    List Nat -> Except EncodingError (List Char)
  | [] =>
    match started with
    | none => .ok []
    | some char => .error ⟨.unexpectedEnd, index - char.bytes.length, char.bytes⟩
  | byte :: rest =>
    match started with
    | none =>
      match startByte? byte with
      | none => .error ⟨.startByte, index, [byte]⟩
      | some (0, bits, _, _) => (decodeBytes (index + 1) none rest).map (Char.ofNat bits :: ·)
      | some (pending, bits, least, greatest) =>
        decodeBytes (index + 1) (some ⟨[byte], pending, bits, least, greatest⟩) rest
    | some char =>
      if char.least ≤ byte && byte ≤ char.greatest then
        let bits := char.bits * 64 + (byte - 0x80)
        if char.pending ≤ 1 then
          (decodeBytes (index + 1) none rest).map (Char.ofNat bits :: ·)
        else
          decodeBytes (index + 1)
            (some ⟨char.bytes ++ [byte], char.pending - 1, bits, 0x80, 0xBF⟩) rest
      else .error ⟨.continuationByte, index - char.bytes.length, char.bytes⟩

def decode (bytes : List Nat) : Except EncodingError String :=
  (decodeBytes 0 none bytes).map String.ofList

/-- A text in which every line ends in a line feed alone. -/
def normalizeLineEnds : List Char -> List Char
  | [] => []
  | '\r' :: '\n' :: rest => '\n' :: normalizeLineEnds rest
  | '\r' :: rest => '\n' :: normalizeLineEnds rest
  | c :: rest => c :: normalizeLineEnds rest

end Text
end HoareProof
