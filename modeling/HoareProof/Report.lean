import HoareProof.ProofFile

namespace HoareProof
namespace Report

/-!
Reports about derivations: for people as an indented tree with a mark at each
node, for programs as a JSON document.
-/

inductive Colour where
  | red
  | green
  | yellow
  | bold
  | dim

def Colour.code : Colour -> String
  | .red => "31"
  | .green => "32"
  | .yellow => "33"
  | .bold => "1"
  | .dim => "2"

/-- A text in a colour, where colours are wanted. -/
def paint (coloured : Bool) (colour : Colour) (text : String) : String :=
  if coloured then "\x1b[" ++ colour.code ++ "m" ++ text ++ "\x1b[0m" else text

def failedMark (coloured : Bool) : String := paint coloured .red "✖"

def validMark (coloured : Bool) : String := paint coloured .green "✔"

def pendingMark (coloured : Bool) : String := paint coloured .yellow "○"

def verdictMark (coloured valid : Bool) : String :=
  if valid then validMark coloured else failedMark coloured

def nodeMark (coloured : Bool) (strictness : Derivation.Strictness) (node : Derivation) : String :=
  match node with
  | .node _ .pending _ [] => pendingMark coloured
  | node => verdictMark coloured (node.isValid strictness)

def indentation (depth : Nat) : String :=
  String.ofList (List.replicate (3 * depth) ' ')

/-- The lines about a node itself: its mark, path, triple and rule, and below
them why its step fails. -/
def nodeLines (coloured : Bool) (strictness : Derivation.Strictness) (path : Path) :
    Derivation -> Except ProofFile.Unwritable (List String)
  | .missing => .error .missingNode
  | .node _ (.unrecognised _) _ _ => .error .unrecognisedStep
  | .node conclusion step proved premises =>
    let node := Derivation.node conclusion step proved premises
    let indent := indentation path.length
    let label := match step.name? with
      | some name => paint coloured .dim ("[" ++ name ++ "]")
      | none => paint coloured .dim "[open]"
    let line := " " ++ indent ++ nodeMark coloured strictness node ++ "  " ++
      paint coloured .dim path.text ++ " " ++ conclusion.text ++ "  " ++ label
    match step, node.localFailure strictness with
    | .pending, _ => .ok [line]
    | _, none => .ok [line]
    | _, some reason =>
      .ok [line, " " ++ indent ++ "      " ++ paint coloured .red reason.message]

def walkLines (coloured : Bool) (strictness : Derivation.Strictness) :
    List (Path × Derivation) -> Except ProofFile.Unwritable (List String)
  | [] => .ok []
  | (path, node) :: rest => do
    let lines ← nodeLines coloured strictness path node
    let more ← walkLines coloured strictness rest
    return lines ++ more

/-- A derivation as a tree: each conclusion first and its premises below it. -/
def tree (coloured : Bool) (strictness : Derivation.Strictness) (root : Derivation) :
    Except ProofFile.Unwritable String := do
  let lines ← walkLines coloured strictness root.walk
  return Text.joinWith "\n" lines

def ruler (coloured : Bool) : String :=
  " " ++ paint coloured .dim (String.ofList (List.replicate 50 '─'))

def remaining (count : Nat) : String :=
  toString count ++ " unjustified step" ++ (if count = 1 then "" else "s")

def conclusionText : Derivation -> String
  | .missing => ""
  | .node conclusion _ _ _ => conclusion.text

/-- The report for people.  It is headed by the name of a file, or by the
conclusion if there is none. -/
def pretty (coloured : Bool) (strictness : Derivation.Strictness) (file : Option String)
    (failures : List Derivation.Failure) (root : Derivation) :
    Except ProofFile.Unwritable String := do
  let valid := root.isValid strictness
  let title := match file with
    | some name => if name.isEmpty then conclusionText root else name
    | none => conclusionText root
  let body ← tree coloured strictness root
  let verdict :=
    if valid then paint coloured .green "Proof complete."
    else paint coloured .red (remaining failures.length)
  return Text.joinWith "\n" [
    "\n " ++ verdictMark coloured valid ++ "  " ++ paint coloured .bold title,
    ruler coloured, body, ruler coloured, "   " ++ verdict ++ "\n"]

def outcomeLine (coloured : Bool) (path : Path) (outcome : Outcome) : String :=
  " " ++ verdictMark coloured outcome.proved ++ "  " ++ paint coloured .dim path.text ++ " " ++
    outcome.summary

def outcomeJson (outcome : Outcome) : Json :=
  .object [
    ("status", .string outcome.status.name),
    ("results", .array (outcome.results.map .string)),
    ("errors", .array (outcome.errors.map .string))]

/-- The report for programs, with the outcomes of queries by path if there were
any. -/
def document (strictness : Derivation.Strictness) (failures : List Derivation.Failure)
    (outcomes : List (String × Outcome)) (root : Derivation) : Json :=
  let queries :=
    if outcomes.isEmpty then []
    else [("oracle", .object (outcomes.map fun entry => (entry.1, outcomeJson entry.2)))]
  .object ([
    ("valid", .bool (root.isValid strictness)),
    ("root", .string (conclusionText root)),
    ("failures", .array (failures.map fun failure => (Issue.ofFailure failure).toJson))] ++
    queries)

end Report
end HoareProof
