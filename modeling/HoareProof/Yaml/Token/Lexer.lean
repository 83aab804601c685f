import HoareProof.Yaml.Token.Property

namespace HoareProof
namespace Yaml

/-!
Cutting a document into tokens.  A block opens where an entry stands deeper than
the blocks around it, and closes where a line stands less deep.  A key is known
as one only when its colon comes, so the place of every token that could be a
key is kept; the tokens that announce the key go in front of it later.  Such a
place is given up at the end of its line, and after 1024 characters.
-/

/-- A place where a key may have started: the number of tokens before it, and
whether nothing but a key can stand there. -/
structure KeyPlace where
  tokens : Nat
  required : Bool
  index : Nat
  line : Nat
  column : Nat

/-- The greatest length of a key that no mark announces. -/
def keyLimit : Nat := 1024

/-- What has been read of a document. -/
structure Lexing where
  cursor : Cursor
  tokens : List Token
  flowDepth : Nat
  indent : Int
  outerIndents : List Int
  keyAllowed : Bool
  keyPlaces : List (Nat × KeyPlace)

namespace Lexing

def start (chars : List Char) : Lexing :=
  ⟨.start chars, [], 0, -1, [], true, []⟩

def inFlow (lexing : Lexing) : Bool :=
  0 < lexing.flowDepth

def emit (lexing : Lexing) (token : Token) : Lexing :=
  { lexing with tokens := lexing.tokens ++ [token] }

def move (lexing : Lexing) (cursor : Cursor) : Lexing :=
  { lexing with cursor := cursor }

def allowKey (lexing : Lexing) (allowed : Bool) : Lexing :=
  { lexing with keyAllowed := allowed }

/-- Passes over blanks, comments and line ends.  Outside brackets a key may
start on every new line. -/
def skipVoid : Nat -> Lexing -> Lexing
  | 0, lexing => lexing
  | bound + 1, lexing =>
    let after := lexing.cursor.skipSpaces.skipComment
    match after.next? with
    | some c =>
      if isBreak c then
        skipVoid bound ((lexing.allowKey (lexing.keyAllowed || !lexing.inFlow)).move after.advance)
      else lexing.move after
    | none => lexing.move after

/-- Gives up the places of keys that can no longer be keys. -/
def dropStale (lexing : Lexing) : Except Fault Lexing :=
  let isStale (entry : Nat × KeyPlace) : Bool :=
    entry.2.line != lexing.cursor.line || keyLimit < lexing.cursor.index - entry.2.index
  if lexing.keyPlaces.any fun entry => isStale entry && entry.2.required then .error .malformed
  else .ok { lexing with keyPlaces := lexing.keyPlaces.filter fun entry => !isStale entry }

/-- Gives up the place of a key at the present depth of brackets. -/
def dropKey (lexing : Lexing) : Except Fault Lexing :=
  match lexing.keyPlaces.lookup lexing.flowDepth with
  | some place =>
    if place.required then .error .malformed
    else .ok { lexing with
      keyPlaces := lexing.keyPlaces.filter fun entry => entry.1 != lexing.flowDepth }
  | none => .ok lexing

/-- Keeps the present place as one where a key may start. -/
def keepKey (lexing : Lexing) : Except Fault Lexing :=
  if lexing.keyAllowed then do
    let cleared ← lexing.dropKey
    let place : KeyPlace := ⟨cleared.tokens.length,
      !cleared.inFlow && cleared.indent = cleared.cursor.column,
      cleared.cursor.index, cleared.cursor.line, cleared.cursor.column⟩
    return { cleared with keyPlaces := (cleared.flowDepth, place) :: cleared.keyPlaces }
  else .ok lexing

/-- Closes the given outer blocks as long as the innermost block is deeper than a
column. -/
def closeFrom (column : Int) : List Int -> Lexing -> Lexing
  | [], lexing => lexing
  | outer :: rest, lexing =>
    if column < lexing.indent then
      closeFrom column rest { lexing.emit .blockEnd with indent := outer, outerIndents := rest }
    else lexing

/-- Closes the blocks that are deeper than a column, outside brackets. -/
def closeBlocks (lexing : Lexing) (column : Int) : Lexing :=
  if lexing.inFlow then lexing else closeFrom column lexing.outerIndents lexing

/-- Opens a block at a column, if no block is open there, and puts its token in
front of the token with a number. -/
def openBlock (lexing : Lexing) (column number : Nat) (token : Token) : Lexing :=
  if lexing.indent < column then
    { lexing with
      indent := column
      outerIndents := lexing.indent :: lexing.outerIndents
      tokens := lexing.tokens.take number ++ token :: lexing.tokens.drop number }
  else lexing

/-- Opens a block at the present place, outside brackets.  It must be a place
where a key could start. -/
def openHere (lexing : Lexing) (token : Token) : Except Fault Lexing :=
  if lexing.inFlow then .ok lexing
  else if lexing.keyAllowed then
    .ok (lexing.openBlock lexing.cursor.column lexing.tokens.length token)
  else .error .malformed

def endBlocks (lexing : Lexing) : Except Fault Lexing := do
  let closed ← (lexing.closeBlocks (-1)).dropKey
  return closed.allowKey false

/-- Reads a mark at which a document starts or ends. -/
def documentMark (lexing : Lexing) (token : Token) : Except Fault Lexing := do
  let closed ← lexing.endBlocks
  return (closed.emit token).move (closed.cursor.advanceBy 3)

def directive (lexing : Lexing) : Except Fault Lexing := do
  let closed ← lexing.endBlocks
  let (content, after) ← directiveAt closed.cursor
  return (closed.emit (.directive content)).move after

/-- Passes over a sign and adds its token. -/
def sign (lexing : Lexing) (token : Token) : Lexing :=
  (lexing.emit token).move lexing.cursor.advance

def openBracket (lexing : Lexing) (token : Token) : Except Fault Lexing := do
  let kept ← lexing.keepKey
  return ({ kept with flowDepth := kept.flowDepth + 1 }.allowKey true).sign token

def closeBracket (lexing : Lexing) (token : Token) : Except Fault Lexing := do
  let cleared ← lexing.dropKey
  return ({ cleared with flowDepth := cleared.flowDepth - 1 }.allowKey false).sign token

def comma (lexing : Lexing) : Except Fault Lexing := do
  let cleared ← lexing.dropKey
  return (cleared.allowKey true).sign .comma

def item (lexing : Lexing) : Except Fault Lexing := do
  let opened ← lexing.openHere .blockListStart
  let cleared ← opened.dropKey
  return (cleared.allowKey true).sign .item

def key (lexing : Lexing) : Except Fault Lexing := do
  let opened ← lexing.openHere .blockMapStart
  let cleared ← opened.dropKey
  return (cleared.allowKey (!cleared.inFlow)).sign .key

/-- Reads the colon after a key.  If the key was not announced, its tokens go in
front of it now. -/
def value (lexing : Lexing) : Except Fault Lexing :=
  match lexing.keyPlaces.lookup lexing.flowDepth with
  | some place =>
    let announced := { lexing with
      keyPlaces := lexing.keyPlaces.filter fun entry => entry.1 != lexing.flowDepth
      tokens := lexing.tokens.take place.tokens ++ Token.key :: lexing.tokens.drop place.tokens }
    let opened :=
      if announced.inFlow then announced
      else announced.openBlock place.column place.tokens .blockMapStart
    .ok ((opened.allowKey false).sign .value)
  | none => do
    let opened ← lexing.openHere .blockMapStart
    let cleared ← opened.dropKey
    return (cleared.allowKey (!cleared.inFlow)).sign .value

/-- Reads a token that may be, or start, a key. -/
def keyLike (lexing : Lexing) (read : Cursor -> Except Fault (Token × Cursor)) :
    Except Fault Lexing := do
  let kept ← lexing.keepKey
  let (token, after) ← read kept.cursor
  return ((kept.allowKey false).emit token).move after

def lines (lexing : Lexing) (fold : Bool) : Except Fault Lexing := do
  let cleared ← lexing.dropKey
  let (text, after) ← literal fold cleared.indent cleared.cursor
  return ((cleared.allowKey true).emit (.scalar false (String.ofList text))).move after

/-- Reads a plain scalar.  After one that ends on a new line a key may start. -/
def plain (lexing : Lexing) : Except Fault Lexing := do
  let kept ← lexing.keepKey
  let scalar := kept.cursor.plain kept.inFlow (kept.indent + 1)
  return ((kept.allowKey scalar.crossesLine).emit
    (.scalar true (String.ofList scalar.text))).move scalar.after

def token (lexing : Lexing) (c : Char) : Except Fault Lexing :=
  let cursor := lexing.cursor
  let atWordEnd := endsWord cursor.second?
  let name (make : String -> Token) (cursor : Cursor) : Except Fault (Token × Cursor) :=
    (anchorName cursor).map fun (name, after) => (make name, after)
  let quoted (double : Bool) (cursor : Cursor) : Except Fault (Token × Cursor) :=
    (quotedScalar double cursor).map fun (text, after) =>
      (.scalar false (String.ofList text), after)
  if c = '%' && cursor.column = 0 then lexing.directive
  else if cursor.column = 0 && cursor.atMark '-' then lexing.documentMark .documentStart
  else if cursor.column = 0 && cursor.atMark '.' then lexing.documentMark .documentEnd
  else if c = '[' then lexing.openBracket .listStart
  else if c = '\x7b' then lexing.openBracket .mapStart
  else if c = ']' then lexing.closeBracket .listEnd
  else if c = '\x7d' then lexing.closeBracket .mapEnd
  else if c = ',' then lexing.comma
  else if c = '-' && atWordEnd then lexing.item
  else if c = '?' && (lexing.inFlow || atWordEnd) then lexing.key
  else if c = ':' && (lexing.inFlow || atWordEnd) then lexing.value
  else if c = '*' then lexing.keyLike (name .reference)
  else if c = '&' then lexing.keyLike (name .anchor)
  else if c = '!' then lexing.keyLike tagAt
  else if c = '|' && !lexing.inFlow then lexing.lines false
  else if c = '>' && !lexing.inFlow then lexing.lines true
  else if c = '\x27' then lexing.keyLike (quoted false)
  else if c = '\x22' then lexing.keyLike (quoted true)
  else if cursor.startsPlain lexing.inFlow then lexing.plain
  else .error .malformed

/-- Reads the next token, or the end of the text, for which there is no new
state. -/
def step (lexing : Lexing) : Except Fault (List Token ⊕ Lexing) := do
  let present ← (skipVoid lexing.cursor.bound lexing).dropStale
  let closed := present.closeBlocks present.cursor.column
  match closed.cursor.next? with
  | none => do
    let ended ← closed.endBlocks
    return .inl ended.tokens
  | some c => do
    let next ← closed.token c
    return .inr next

/-- Reads tokens to the end of the text or to the first fault. -/
def finish : Nat -> Lexing -> List Token
  | 0, lexing => lexing.tokens ++ [.broken .malformed]
  | bound + 1, lexing =>
    match lexing.step with
    | .error fault => lexing.tokens ++ [.broken fault]
    | .ok (.inl tokens) => tokens
    | .ok (.inr next) => finish bound next

end Lexing

/-- A character that a document may hold. -/
def isAllowed (c : Char) : Bool :=
  let n := c.toNat
  n = 9 || n = 10 || n = 13 || (32 ≤ n && n ≤ 126) || n = 0x85 || (0xA0 ≤ n && n ≤ 0xFFFD) ||
    0x10000 ≤ n

/-- The tokens of a text.  A byte order mark at its head is passed over. -/
def Token.ofText (text : String) : List Token :=
  let chars := text.toList
  if chars.all isAllowed then
    let start := Lexing.start chars
    let cursor := start.cursor
    Lexing.finish cursor.bound
      (start.move (if cursor.next? = some '\uFEFF' then cursor.advance else cursor))
  else [.broken .malformed]

end Yaml
end HoareProof
