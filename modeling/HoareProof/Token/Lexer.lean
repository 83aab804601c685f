import HoareProof.Text.Digit
import HoareProof.Text.Quoted
import HoareProof.Token.Basic

namespace HoareProof
namespace Token

/-!
Tokens from text.  `lexeme?` looks at the characters from one place on and says
which token starts there and how many characters it has; `scan` walks over the
text once, asking at each place where a token can start and passing over the
characters of the token found.  A number is the longest run of digits with at
most one point inside and an exponent behind it; a name is the longest run of
ASCII letters, digits and underscores.
-/

def keywords : List (String × TokenKind) := [
  ("skip", .skipWord), ("if", .ifWord), ("then", .thenWord), ("else", .elseWord),
  ("while", .whileWord), ("do", .doWord), ("true", .trueWord), ("false", .falseWord),
  ("and", .and), ("or", .or), ("not", .not)]

/-- The four characters that separate tokens. -/
def isSpace (c : Char) : Bool :=
  c = ' ' || c = '\t' || c = '\r' || c = '\n'

def startsName (c : Char) : Bool :=
  ('a' ≤ c && c ≤ 'z') || ('A' ≤ c && c ≤ 'Z') || c = '_'

def continuesName (c : Char) : Bool :=
  startsName c || Text.isAsciiDigit c

def wordKind (word : List Char) : TokenKind :=
  (keywords.lookup (String.ofList word)).getD .name

/-- The fraction at the head of a text: a point that a digit follows, and the
digits after it. -/
def fraction : List Char -> List Char
  | '.' :: rest =>
    let digits := rest.takeWhile Text.isDigit
    if digits.isEmpty then [] else '.' :: digits
  | _ => []

/-- The exponent at the head of a text: its mark, an optional sign, and digits
of which the first is an ASCII digit. -/
def exponent : List Char -> List Char
  | [] => []
  | mark :: rest =>
    if mark = 'e' || mark = 'E' then
      let sign := match rest with
        | '+' :: _ => ['+']
        | '-' :: _ => ['-']
        | _ => []
      match rest.drop sign.length with
      | digit :: more =>
        if Text.isAsciiDigit digit then
          mark :: sign ++ (digit :: more).takeWhile Text.isDigit
        else []
      | [] => []
    else []

/-- The number at the head of a text that starts with a digit. -/
def number (chars : List Char) : TokenKind × List Char :=
  let digits := chars.takeWhile Text.isDigit
  let afterDigits := chars.dropWhile Text.isDigit
  let fractionPart := fraction afterDigits
  let exponentPart := exponent (afterDigits.drop fractionPart.length)
  let kind :=
    if fractionPart.isEmpty && exponentPart.isEmpty then TokenKind.whole else .decimal
  (kind, digits ++ fractionPart ++ exponentPart)

/-- Why no token starts at a place. -/
inductive LexicalCause where
  | unexpected (c : Char)
  | loneColon
deriving DecidableEq, Repr

def LexicalCause.message : LexicalCause -> String
  | .unexpected c => "Unexpected character '" ++ String.singleton c ++ "'"
  | .loneColon => "Expected ':=' after ':'"

/-- The symbol that starts with a character, given the characters after it. -/
def symbol? : Char -> List Char -> Except LexicalCause (TokenKind × List Char)
  | '+', _ => .ok (.plus, ['+'])
  | '-', _ => .ok (.minus, ['-'])
  | '*', _ => .ok (.star, ['*'])
  | '∧', _ => .ok (.and, ['∧'])
  | '∨', _ => .ok (.or, ['∨'])
  | '¬', _ => .ok (.not, ['¬'])
  | '≤', _ => .ok (.atMost, ['≤'])
  | '≥', _ => .ok (.atLeast, ['≥'])
  | '(', _ => .ok (.openParen, ['('])
  | ')', _ => .ok (.closeParen, [')'])
  | ';', _ => .ok (.semicolon, [';'])
  | '!', _ => .ok (.not, ['!'])
  | '=', '=' :: _ => .ok (.equal, ['=', '='])
  | '=', _ => .ok (.equal, ['='])
  | ':', '=' :: _ => .ok (.assign, [':', '='])
  | ':', _ => .error .loneColon
  | '>', '=' :: _ => .ok (.atLeast, ['>', '='])
  | '>', _ => .ok (.greater, ['>'])
  | '<', '=' :: _ => .ok (.atMost, ['<', '='])
  | '<', _ => .ok (.less, ['<'])
  | '&', '&' :: _ => .ok (.and, ['&', '&'])
  | '|', '|' :: _ => .ok (.or, ['|', '|'])
  | c, _ => .error (.unexpected c)

/-- The kind and the characters of the token that starts with a character, given
the characters after it.  The first character is no space. -/
def lexeme? (c : Char) (rest : List Char) : Except LexicalCause (TokenKind × List Char) :=
  if Text.isAsciiDigit c then .ok (number (c :: rest))
  else if startsName c then
    let word := c :: rest.takeWhile continuesName
    .ok (wordKind word, word)
  else symbol? c rest

structure LexicalError where
  cause : LexicalCause
  position : Position
deriving DecidableEq, Repr

/-- The tokens of a text and the place of its end. -/
structure Stream where
  tokens : List Token
  stop : Position
deriving DecidableEq, Repr

/-- Scans a text from a place on; the first `pending` characters belong to a
token that has been read already. -/
def scan (pending : Nat) (position : Position) : List Char -> Except LexicalError Stream
  | [] => .ok ⟨[], position⟩
  | c :: rest =>
    match pending with
    | pending + 1 => scan pending (position.advance c) rest
    | 0 =>
      if isSpace c then scan 0 (position.advance c) rest
      else
        match lexeme? c rest with
        | .error cause => .error ⟨cause, position⟩
        | .ok (kind, lexeme) =>
          match scan (lexeme.length - 1) (position.advance c) rest with
          | .error e => .error e
          | .ok stream => .ok { stream with
              tokens := ⟨kind, String.ofList lexeme, position⟩ :: stream.tokens }

def ofText (text : String) : Except LexicalError Stream :=
  scan 0 .start text.toList

/-- An entry in a listing of tokens: the name of the kind, the text, and the
place. -/
structure Entry where
  label : String
  text : String
  position : Position

/-- The entry of the first token, or of the end if there is none. -/
def Stream.head (stream : Stream) : Entry :=
  match stream.tokens with
  | token :: _ => ⟨token.kind.label, token.text, token.position⟩
  | [] => ⟨TokenKind.endLabel, "", stream.stop⟩

def Stream.listing (stream : Stream) : List Entry :=
  stream.tokens.map (fun token => ⟨token.kind.label, token.text, token.position⟩) ++
    [⟨TokenKind.endLabel, "", stream.stop⟩]

/-- An entry in one line, for the text of a given name. -/
def Entry.display (file : String) (entry : Entry) : String :=
  "Token(" ++ entry.label ++ ", " ++ Text.quoted entry.text ++ ", " ++
    (entry.position.within file).text ++ ")"

end Token
end HoareProof
