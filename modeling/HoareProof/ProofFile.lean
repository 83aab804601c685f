import HoareProof.Data.Basic
import HoareProof.Derivation.Basic
import HoareProof.Expr.Reader
import HoareProof.Issue
import HoareProof.Json.Reader
import HoareProof.Stmt.Reader

namespace HoareProof
namespace ProofFile

/-!
Derivations as JSON documents.  A node is an object with the texts of its
triple, the name of its rule, whether its side conditions are proved, and its
premises.  Rule, flag and premises may be left out.  Reading parses every text
again, checks a node before its premises and the premises in order, and names
the first node that is ill-formed.
-/

/-- Why a derivation has no document. -/
inductive Unwritable where
  | missingNode
  | unrecognisedStep
deriving DecidableEq, Repr

def stepField : Step -> Except Unwritable Json
  | .pending => .ok .null
  | .applied rule => .ok (.string rule.tag)
  | .unrecognised _ => .error .unrecognisedStep

mutual

def encode : Derivation -> Except Unwritable Json
  | .missing => .error .missingNode
  | .node conclusion step proved premises => do
    let rule ← stepField step
    let children ← encodeAll premises
    return .object [
      ("pre", .string conclusion.pre.human),
      ("stmt", .string conclusion.stmt.text),
      ("post", .string conclusion.post.human),
      ("rule", rule),
      ("obligations_proved", .bool proved),
      ("children", .array children)]

def encodeAll : List Derivation -> Except Unwritable (List Json)
  | [] => .ok []
  | derivation :: rest => do
    let first ← encode derivation
    let more ← encodeAll rest
    return first :: more

end

/-- Why a value is no well-formed node. -/
inductive NodeFault where
  | notObject
  | absent (field : String)
  | unreadable (field text : String)
  | unknownRule (value : Json)
  | premisesNotList
  | flagNotBool

def NodeFault.message : NodeFault -> String
  | .notObject => "expected an object"
  | .absent field => "missing '" ++ field ++ "'"
  | .unreadable field text => "cannot parse " ++ field ++ " '" ++ text ++ "'"
  | .unknownRule value => "unknown rule '" ++ (Data.ofJson value).display ++ "'"
  | .premisesNotList => "'children' must be a list"
  | .flagNotBool => "'obligations_proved' must be true or false"

/-- Why a document has no derivation: an ill-formed node at a path, a number
without a value, or something that should be the name of a rule and cannot even
be displayed. -/
inductive DecodeError where
  | illFormed (path : Path) (fault : NodeFault)
  | numeral (error : NumeralError)
  | undisplayable

def illFormedMessage (path : Path) (fault : NodeFault) : String :=
  "node " ++ path.text ++ ": " ++ fault.message

/-- The rule that a value names by its display. -/
def ruleOf? (value : Json) : Option Rule :=
  match value with
  | .null => none
  | value =>
    let data := Data.ofJson value
    if data.isDisplayable then Rule.ofText? data.display else none

def textField {α : Type} (read : String -> Except NumeralError (Option α)) (path : Path)
    (fields : List (String × Json)) (field : String) : Except DecodeError α :=
  match fields.lookup field with
  | some (.string text) =>
    match read text with
    | .ok (some value) => .ok value
    | .ok none => .error (.illFormed path (.unreadable field text))
    | .error e => .error (.numeral e)
  | _ => .error (.illFormed path (.absent field))

def stepOf (path : Path) (fields : List (String × Json)) : Except DecodeError Step :=
  match fields.lookup "rule" with
  | none => .ok .pending
  | some .null => .ok .pending
  | some value =>
    match ruleOf? value with
    | some rule => .ok (.applied rule)
    | none =>
      if (Data.ofJson value).isDisplayable then .error (.illFormed path (.unknownRule value))
      else .error .undisplayable

/-- Checks that the premises of a node are a list, if they are given. -/
def checkPremises (path : Path) (fields : List (String × Json)) : Except DecodeError Unit :=
  match fields.lookup "children" with
  | none => .ok ()
  | some .null => .ok ()
  | some (.array _) => .ok ()
  | some _ => .error (.illFormed path .premisesNotList)

def flagOf (path : Path) (fields : List (String × Json)) : Except DecodeError Bool :=
  match fields.lookup "obligations_proved" with
  | none => .ok false
  | some (.bool value) => .ok value
  | some _ => .error (.illFormed path .flagNotBool)

/-- Reads everything of a node but its premises. -/
def headOf (path : Path) (fields : List (String × Json)) :
    Except DecodeError (Triple × Step × Bool) := do
  let pre ← textField (Expr.ofText? .infixed) path fields "pre"
  let post ← textField (Expr.ofText? .infixed) path fields "post"
  let stmt ← textField Stmt.ofText? path fields "stmt"
  let step ← stepOf path fields
  checkPremises path fields
  let proved ← flagOf path fields
  return (⟨pre, stmt, post⟩, step, proved)

mutual

def decodeAt (path : Path) : Json -> Except DecodeError Derivation
  | .object fields => do
    let (conclusion, step, proved) ← headOf path fields
    let premises ← decodePremises path fields
    return .node conclusion step proved premises
  | _ => .error (.illFormed path .notObject)

def decodePremises (path : Path) : List (String × Json) -> Except DecodeError (List Derivation)
  | [] => .ok []
  | (name, value) :: rest =>
    if name = "children" then
      match value with
      | .array items => decodeItems path 0 items
      | _ => .ok []
    else decodePremises path rest

/-- The derivations of consecutive premises, the first of which has an
index. -/
def decodeItems (path : Path) (index : Nat) : List Json -> Except DecodeError (List Derivation)
  | [] => .ok []
  | item :: rest => do
    let first ← decodeAt (path ++ [(index : Int)]) item
    let more ← decodeItems path (index + 1) rest
    return first :: more

end

def decode (value : Json) : Except DecodeError Derivation :=
  decodeAt [] value

/-- Why the text of a file has no derivation: an issue to report, a number
without a value, or a value that cannot be displayed. -/
inductive LoadError where
  | issue (issue : Issue)
  | numeral (error : NumeralError)
  | undisplayable

def DecodeError.report (file : String) : DecodeError -> LoadError
  | .illFormed path fault => .issue (.ofFile (illFormedMessage path fault) file)
  | .numeral error => .numeral error
  | .undisplayable => .undisplayable

/-- Reads a derivation from the text of a file. -/
def load (text file : String) : Except LoadError Derivation :=
  match Json.ofText text with
  | .error (.numeral error) => .error (.numeral error)
  | .error (.malformed fault position index) =>
    .error (.issue (.ofFile ("invalid JSON: " ++ Json.malformedMessage fault position index) file))
  | .ok value =>
    match decode value with
    | .ok derivation => .ok derivation
    | .error error => .error (error.report file)

/-- Writes a derivation with the text that indents each level. -/
def write (indent : Option String) (derivation : Derivation) : Except Unwritable String := do
  let value ← encode derivation
  return value.write ⟨indent, false⟩

end ProofFile
end HoareProof
