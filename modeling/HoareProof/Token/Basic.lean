namespace HoareProof

/-!
Tokens of the assertion and statement language.  A token keeps the text it was
read from, because messages quote it and because two spellings of one operator
are the same kind of token.
-/

/-- A place in a text.  Lines and columns count from one, columns in
characters. -/
structure Position where
  line : Nat
  column : Nat
deriving DecidableEq, Repr

namespace Position

def start : Position := ⟨1, 1⟩

def advance (position : Position) (c : Char) : Position :=
  if c = '\n' then ⟨position.line + 1, 1⟩ else ⟨position.line, position.column + 1⟩

end Position

/-- A place in a named text, as records carry it.  A record may come from
elsewhere, so nothing bounds its line and column. -/
structure Location where
  line : Int
  column : Int
  file : String
deriving DecidableEq, Repr

namespace Location

/-- The name of a text that was not read from a file. -/
def anonymous : String := "<input>"

def text (location : Location) : String :=
  location.file ++ ":" ++ toString location.line ++ ":" ++ toString location.column

end Location

/-- A place of a text as a place in the text of a name. -/
def Position.within (position : Position) (file : String) : Location :=
  ⟨position.line, position.column, file⟩

/-- The kinds of tokens.  The end of the text is no token of its own: a text
that is read ends where its tokens do. -/
inductive TokenKind where
  | skipWord | ifWord | thenWord | elseWord | whileWord | doWord | trueWord | falseWord
  | whole | decimal | name
  | plus | minus | star
  | equal | atLeast | atMost | greater | less
  | and | or | not
  | assign | openParen | closeParen | semicolon
deriving DecidableEq, Repr

namespace TokenKind

def label : TokenKind -> String
  | .skipWord => "SKIP"
  | .ifWord => "IF"
  | .thenWord => "THEN"
  | .elseWord => "ELSE"
  | .whileWord => "WHILE"
  | .doWord => "DO"
  | .trueWord => "TRUE"
  | .falseWord => "FALSE"
  | .whole => "INT_LIT"
  | .decimal => "FLOAT_LIT"
  | .name => "IDENT"
  | .plus => "PLUS"
  | .minus => "MINUS"
  | .star => "STAR"
  | .equal => "EQ"
  | .atLeast => "GTE"
  | .atMost => "LTE"
  | .greater => "GT"
  | .less => "LT"
  | .and => "AND"
  | .or => "OR"
  | .not => "NOT"
  | .assign => "ASSIGN"
  | .openParen => "LPAREN"
  | .closeParen => "RPAREN"
  | .semicolon => "SEMICOLON"

def endLabel : String := "EOF"

end TokenKind

/-- A token with its text and the place of its first character. -/
structure Token where
  kind : TokenKind
  text : String
  position : Position
deriving DecidableEq, Repr

end HoareProof
