import HoareProof.Text.Encoding
import HoareProof.Yaml.Token
import HoareProof.Yaml.Token.Literal

namespace HoareProof
namespace Yaml

/-!
What is said about a node beside its content: the name by which it is known
elsewhere, and a tag that tells its kind.  Tags may be shortened by handles,
which directives at the head of a document explain.
-/

def isNameChar (c : Char) : Bool :=
  c.isAlphanum || c = '-' || c = '_'

def followsAnchor : Option Char -> Bool
  | none => true
  | some c => endsWord (some c) || ['?', ':', ',', ']', '\x7d', '%', '@', '\x60'].contains c

/-- A name after the sign that announces it. -/
def anchorName (cursor : Cursor) : Except Fault (String × Cursor) :=
  let name := cursor.advance.run isNameChar
  let after := cursor.advance.skip isNameChar
  if name.isEmpty || !followsAnchor after.next? then .error .malformed
  else .ok (String.ofList name, after)

/-- A character of a tag, percent signs aside. -/
def isTagChar (c : Char) : Bool :=
  c.isAlphanum || "-;/?:@&=+$,_.!~*'()[]".toList.contains c

/-- Bytes written in hexadecimal digits after percent signs. -/
def percentBytes : Nat -> Cursor -> Except Fault (List Nat × Cursor)
  | 0, cursor => .ok ([], cursor)
  | bound + 1, cursor =>
    match cursor.rest with
    | '%' :: high :: low :: _ =>
      match Json.hexNumber? [high, low] with
      | some byte => do
        let (bytes, after) ← percentBytes bound (cursor.advanceBy 3)
        return (byte :: bytes, after)
      | none => .error .malformed
    | '%' :: _ => .error .malformed
    | _ => .ok ([], cursor)

/-- The text of a tag: characters, and bytes of characters after percent
signs. -/
def tagText : Nat -> List Char -> TextReader
  | 0, _, _ => .error .malformed
  | bound + 1, text, cursor =>
    let longer := text ++ cursor.run isTagChar
    let after := cursor.skip isTagChar
    if after.next? = some '%' then do
      let (bytes, next) ← percentBytes after.bound after
      match Text.decode bytes with
      | .ok chars => tagText bound (longer ++ chars.toList) next
      | .error _ => .error .malformed
    else if longer.isEmpty then .error .malformed
    else .ok (longer, after)

def tagTextAt (cursor : Cursor) : Except Fault (String × Cursor) :=
  (tagText cursor.bound [] cursor).map fun (text, after) => (String.ofList text, after)

/-- A handle: an exclamation mark, or a name between two of them. -/
def tagHandle (cursor : Cursor) : Except Fault (String × Cursor) :=
  match cursor.rest with
  | ['!'] => .error .malformed
  | '!' :: ' ' :: _ => .ok ("!", cursor.advance)
  | '!' :: rest =>
    let name := rest.takeWhile isNameChar
    match rest.drop name.length with
    | '!' :: _ => .ok (String.ofList ('!' :: name ++ ['!']), cursor.advanceBy (name.length + 2))
    | _ => .error .malformed
  | _ => .error .malformed

/-- Whether a line or a word ends here, where a tab does not count. -/
def endsTag (c : Option Char) : Bool :=
  endsLine c || c = some ' '

/-- Whether the tag after its first mark has another one before it ends. -/
def hasSecondMark : List Char -> Bool
  | [] => false
  | c :: rest => if endsTag (some c) then false else c = '!' || hasSecondMark rest

/-- The tag at a place, as a handle with a name, or as a name of its own. -/
def tagAt (cursor : Cursor) : Except Fault (Token × Cursor) := do
  let (tag, after) ← match cursor.second? with
    | some '<' => do
      let (name, after) ← tagTextAt (cursor.advanceBy 2)
      if after.next? = some '>' then pure (Token.tag none name, after.advance)
      else .error .malformed
    | second =>
      if endsWord second then pure (Token.tag none "!", cursor.advance)
      else do
        let (handle, afterHandle) ←
          if hasSecondMark (cursor.rest.drop 1) then tagHandle cursor
          else pure ("!", cursor.advance)
        let (name, after) ← tagTextAt afterHandle
        pure (Token.tag (some handle) name, after)
  if endsTag after.next? then return (tag, after) else .error .malformed

def versionNumber (cursor : Cursor) : Except Fault (Nat × Cursor) :=
  match Numeral.readWhole (String.ofList (cursor.run Json.isDigit)) with
  | .ok number => .ok (number, cursor.skip Json.isDigit)
  | .error (.tooLong digits) => .error (.numeral (.tooLong digits))
  | .error _ => .error .malformed

/-- What a directive says, from the place after its name. -/
def directiveContent (name : String) (cursor : Cursor) : Except Fault (Directive × Cursor) :=
  if name = "YAML" then do
    let (major, afterMajor) ← versionNumber cursor.skipSpaces
    if afterMajor.next? = some '.' then
      let (_, after) ← versionNumber afterMajor.advance
      if endsTag after.next? then return (.version major, after) else .error .malformed
    else .error .malformed
  else if name = "TAG" then do
    let (handle, afterHandle) ← tagHandle cursor.skipSpaces
    if afterHandle.next? = some ' ' then
      let (meaning, after) ← tagTextAt afterHandle.skipSpaces
      if endsTag after.next? then return (.tag handle meaning, after) else .error .malformed
    else .error .malformed
  else .ok (.other, cursor.skip (!isBreak ·))

def directiveAt (cursor : Cursor) : Except Fault (Directive × Cursor) := do
  let name := cursor.advance.run isNameChar
  let afterName := cursor.advance.skip isNameChar
  if name.isEmpty || !endsTag afterName.next? then .error .malformed
  else
    let (directive, afterContent) ← directiveContent (String.ofList name) afterName
    let after ← afterContent.skipLine
    return (directive, after)

end Yaml
end HoareProof
