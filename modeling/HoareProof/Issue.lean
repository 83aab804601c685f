import HoareProof.Derivation.Check
import HoareProof.Json.Writer
import HoareProof.Parsing
import HoareProof.Session

namespace HoareProof

/-!
Issues: errors as records that programs can read.  An issue has a kind and a
message; it may point to a node of a derivation or to a place in a text, and it
may carry details.  The causes of errors are types of their own elsewhere; this
module gives each of them its record.
-/

inductive IssueKind where
  | syntaxError
  | ruleMismatch
  | stalePath
  | oracleError
  | invalidStep
  | fileError
deriving DecidableEq, Repr

namespace IssueKind

def all : List IssueKind :=
  [.syntaxError, .ruleMismatch, .stalePath, .oracleError, .invalidStep, .fileError]

def name : IssueKind -> String
  | .syntaxError => "syntax_error"
  | .ruleMismatch => "rule_mismatch"
  | .stalePath => "stale_path"
  | .oracleError => "oracle_error"
  | .invalidStep => "invalid_step"
  | .fileError => "file_error"

def ofName? (name : String) : Option IssueKind :=
  all.find? fun kind => kind.name == name

end IssueKind

structure Issue where
  kind : IssueKind
  message : String
  path : Option Path
  location : Option Location
  details : List (String × Json)

namespace Issue

/-- The fields of an issue; those that it does not have are left out. -/
def toJson (issue : Issue) : Json :=
  let path := match issue.path with
    | some path => [("path", .string path.text)]
    | none => []
  let location := match issue.location with
    | some location => [("location", .object [
        ("file", .string location.file),
        ("line", .whole location.line),
        ("column", .whole location.column)])]
    | none => []
  let details := if issue.details.isEmpty then [] else [("details", .object issue.details)]
  .object ([("kind", .string issue.kind.name), ("message", .string issue.message)] ++
    path ++ location ++ details)

/-- An issue in one line, with the node or else the place it is about. -/
def text (issue : Issue) : String :=
  let place := match issue.path, issue.location with
    | some path, _ => " at node " ++ path.text
    | none, some location => " at " ++ location.text
    | none, none => ""
  "[" ++ issue.kind.name ++ "]" ++ place ++ ": " ++ issue.message

/-- Several issues, a line each. -/
def allText (issues : List Issue) : String :=
  Text.joinWith "\n" (issues.map text)

def allJson (issues : List Issue) : Json :=
  .array (issues.map toJson)

/-- An issue of a kind with nothing but a message. -/
def plain (kind : IssueKind) (message : String) : Issue :=
  ⟨kind, message, none, none, []⟩

/-- A text that does not fit its grammar, at a place. -/
def misfit (message : String) (file : String) (position : Position) : Issue :=
  ⟨.syntaxError, message, none, some (position.within file), []⟩

/-- A text in which no token starts at some place. -/
def ofLexical (file : String) (error : Token.LexicalError) : Issue :=
  misfit error.cause.message file error.position

def ofFailure (failure : Derivation.Failure) : Issue :=
  let rule := match failure.rule with
    | some rule => Json.string rule.tag
    | none => .null
  ⟨.invalidStep, failure.reason.message, some failure.path, none,
    [("rule", rule), ("triple", .string failure.conclusion.text)]⟩

/-- A query that could not be made. -/
def ofQuery (status : Status) (messages : List String) (path : Path) : Issue :=
  ⟨.oracleError, "Oracle returned " ++ status.name, some path, none,
    [("status", .string status.name), ("messages", .array (messages.map .string))]⟩

def ofFile (message file : String) : Issue :=
  ⟨.fileError, message, none, none, [("file", .string file)]⟩

def malformedPath (text : String) : Issue :=
  plain .syntaxError ("Malformed path '" ++ Text.trim text ++ "' (expected e.g. 0.1)")

end Issue

/-- The record of a question that cannot be asked.  A constant beyond the range
of the solver form has none. -/
def AskError.issue? : AskError -> Option Issue
  | .noNode path => some (.ofQuery .error ["no node at " ++ path.listText] path)
  | .notConsequence path => some (.ofQuery .error ["node is not a consequence step"] path)
  | .tooLarge _ => none

end HoareProof
