import HoareProof.Number.Numeral
import HoareProof.Token.Lexer

namespace HoareProof
namespace Parsing

/-!
Reading values from tokens.  A parser takes the tokens that are left and gives
a value with the tokens after it, or the reason why there is none.  A reason
names the token at which it was found, and no token when the text has ended;
the place of the end is known only to the whole text, so it is filled in when
a text is parsed as a whole.  Two kinds of failure are kept apart: a text
outside the grammar, and a number that has no value.
-/

/-- Why tokens do not fit the grammar. -/
inductive Cause where
  | expected (kind : TokenKind)
  | numberExpected
  | noAssertion
  | noTerm
  | unknownOperator
  | unbalanced
  | argumentCount (count : Nat)
  | noStatement
deriving DecidableEq, Repr

/-- A cause and the token it refers to, which is missing at the end of the
text. -/
structure Misfit where
  cause : Cause
  found : Option Token
deriving DecidableEq, Repr

/-- The text of the token referred to, or the name of the end. -/
def Misfit.foundText (misfit : Misfit) : String :=
  match misfit.found with
  | some token => token.text
  | none => TokenKind.endLabel

def Misfit.message (misfit : Misfit) : String :=
  let quotedText := match misfit.found with
    | some token => token.text
    | none => ""
  let label := match misfit.found with
    | some token => token.kind.label
    | none => TokenKind.endLabel
  match misfit.cause with
  | .expected kind =>
    "Expected " ++ kind.label ++ ", got " ++ label ++ " ('" ++ quotedText ++ "')"
  | .numberExpected => "Expected a number after '-'"
  | .noAssertion => "Unexpected token '" ++ misfit.foundText ++ "' in assertion"
  | .noTerm => "Unexpected token '" ++ misfit.foundText ++ "'"
  | .unknownOperator => "Unknown operator '" ++ quotedText ++ "'"
  | .unbalanced => "Unbalanced parentheses"
  | .argumentCount count =>
    "Wrong number of arguments (" ++ toString count ++ ") for '" ++ quotedText ++ "'"
  | .noStatement => "Expected a statement, got '" ++ misfit.foundText ++ "'"

inductive ParseError where
  | misfit (error : Misfit)
  | numeral (error : NumeralError)
deriving DecidableEq, Repr

abbrev Parser (α : Type) := List Token -> Except ParseError (α × List Token)

/-- Fails at the first of the tokens that are left. -/
def failAt {α : Type} (cause : Cause) (tokens : List Token) :
    Except ParseError (α × List Token) :=
  .error (.misfit ⟨cause, tokens.head?⟩)

/-- Passes over a token of one kind. -/
def expect (kind : TokenKind) : List Token -> Except ParseError (List Token)
  | [] => .error (.misfit ⟨.expected kind, none⟩)
  | token :: rest =>
    if token.kind = kind then .ok rest else .error (.misfit ⟨.expected kind, some token⟩)

def wholeValue (token : Token) : Except ParseError Nat :=
  match Numeral.readWhole token.text with
  | .ok value => .ok value
  | .error e => .error (.numeral e)

def decimalValue (token : Token) : Except ParseError Binary64 :=
  match Numeral.readDecimal token.text with
  | .ok value => .ok value
  | .error e => .error (.numeral e)

/-- Why a text cannot be read, with the place of the fault. -/
inductive TextError where
  | lexical (error : Token.LexicalError)
  | misfit (error : Misfit) (position : Position)
  | numeral (error : NumeralError)
deriving DecidableEq, Repr

/-- Puts the place of a fault to a parser's error, given the end of the
text. -/
def ParseError.locate (stop : Position) : ParseError -> TextError
  | .misfit error => .misfit error ((error.found.map (·.position)).getD stop)
  | .numeral error => .numeral error

/-- Reads a value from the tokens of a text after the first `skipped` ones, and
leaves the tokens after it. -/
def readFrom {α : Type} (skipped : Nat) (parser : Parser α) (text : String) :
    Except TextError (α × Token.Stream) :=
  match Token.ofText text with
  | .error e => .error (.lexical e)
  | .ok stream =>
    match parser (stream.tokens.drop skipped) with
    | .error e => .error (e.locate stream.stop)
    | .ok (value, rest) => .ok (value, ⟨rest, stream.stop⟩)

/-- Reads a text as a whole.  A text outside the grammar has no value; a number
without a value is an error. -/
def readAll? {α : Type} (parser : Parser α) (text : String) :
    Except NumeralError (Option α) :=
  match readFrom 0 parser text with
  | .ok (value, rest) => .ok (if rest.tokens.isEmpty then some value else none)
  | .error (.numeral e) => .error e
  | .error _ => .ok none

end Parsing
end HoareProof
