import HoareProof.Obligation

namespace HoareProof

/-!
Asking a solver.  A script is cut into blocks, each of which ends where it asks
for an answer; what stands after the last question belongs to no block.  The
solver answers block by block.  Only when it has answered every block that the
formula is satisfiable are the obligations proved; every other outcome leaves
them open.

The solver works while the query waits for it.  A budget that is not positive
leaves it no time, and a very long one cannot be waited for; with such a budget
the answers count only if the solver is through before the wait begins.
-/

/-- What a solver does with a block. -/
inductive Answer where
  | sat
  | unsat
  | unknown (reason : String)
  | refused (message : String)
  | crashed (kind message : String)
  | silent

/-- A solver, by its answers to blocks, and by the lists of blocks that it is
through with before anybody waits for it. -/
structure Solver where
  answer : String -> Answer
  isPrompt : List String -> Bool

/-- What a solver does with the blocks of one script, by their place in it and
their text.  A block that stands there twice may be answered in two ways. -/
structure Responses where
  answer : Nat -> String -> Answer
  isPrompt : Bool

def Solver.responses (solver : Solver) (blocks : List String) : Responses :=
  ⟨fun _ => solver.answer, solver.isPrompt blocks⟩

inductive Status where
  | valid
  | invalid
  | unknown
  | noSolver
  | timeout
  | error
deriving DecidableEq, Repr

namespace Status

def all : List Status := [.valid, .invalid, .unknown, .noSolver, .timeout, .error]

def name : Status -> String
  | .valid => "Valid"
  | .invalid => "Invalid"
  | .unknown => "Unknown"
  | .noSolver => "NoSolver"
  | .timeout => "Timeout"
  | .error => "Error"

def ofName? (name : String) : Option Status :=
  all.find? fun status => status.name == name

end Status

/-- An outcome with the answers to the single blocks and what went wrong. -/
structure Outcome where
  status : Status
  results : List String
  errors : List String
deriving DecidableEq, Repr

namespace Outcome

/-- Only a valid outcome proves anything. -/
def proved (outcome : Outcome) : Bool :=
  outcome.status == .valid

def summary (outcome : Outcome) : String :=
  match outcome.status with
  | .valid => "All obligations proved (Valid)"
  | .invalid => "At least one obligation is invalid"
  | .unknown => "Solver returned unknown"
  | .noSolver => "Solver not available (install z3-solver)"
  | .timeout => "Solver timed out"
  | .error =>
    let detail := Text.joinWith "; " outcome.errors
    "Solver error: " ++ (if detail.isEmpty then "unknown failure" else detail)

end Outcome

namespace Query

/-- Cuts a script into blocks, the first of which goes on from some lines. -/
def blocksFrom (current : List String) : List String -> List String
  | [] => []
  | line :: rest =>
    if Text.trim line = askLine then
      Text.joinWith "\n" current :: blocksFrom [] rest
    else blocksFrom (current ++ [line]) rest

def blocks (lines : List String) : List String :=
  blocksFrom [] lines

/-- The status of a query from the answers to its blocks. -/
def interpret (results : List String) : Status :=
  if !results.isEmpty && results.all (· == "sat") then .valid
  else if results.any (· == "unsat") then .invalid
  else .unknown

/-- The word for an answer that ended normally. -/
def resultWord : Answer -> String
  | .sat => "sat"
  | .unsat => "unsat"
  | _ => "unknown"

def ranOutOfTime : Answer -> Bool
  | .unknown reason => reason == "timeout" || reason == "canceled"
  | _ => false

/-- Why the run over the blocks ended early. -/
inductive Interruption where
  | failed (message : String)
  | timedOut

def interruption? : Answer -> Option Interruption
  | .refused message => some (.failed message)
  | .crashed kind message => some (.failed (kind ++ ": " ++ message))
  | .silent => some .timedOut
  | _ => none

/-- The answers to blocks in order, up to the first interruption. -/
def answers : List Answer -> Except Interruption (List Answer)
  | [] => .ok []
  | answer :: rest =>
    match interruption? answer with
    | some reason => .error reason
    | none =>
      match answers rest with
      | .error reason => .error reason
      | .ok more => .ok (answer :: more)

def timeoutMessage (budget : Int) : String :=
  "timeout after " ++ Number.wholeText budget ++ " ms"

def defaultBudget : Int := 6000

/-- The least budget that is too long to wait for. -/
def waitLimit : Int := 9223372036855

/-- A budget that no clock can measure ends a query before any answer. -/
def unmeasurable : Outcome :=
  ⟨.error, [], ["OverflowError: int too large to convert to float"]⟩

/-- Whether a wait gives the solver any time. -/
def canWait (budget : Int) : Bool :=
  0 < budget && budget < waitLimit

/-- The outcome of a query that gets no answer: it ends with the budget, unless
that is too long to wait for. -/
def silence (budget : Int) : Outcome :=
  if waitLimit ≤ budget then
    ⟨.error, [], ["OverflowError: timestamp out of range for platform time_t"]⟩
  else ⟨.timeout, [], [timeoutMessage budget]⟩

/-- The outcome of a query from what the solver does with its blocks. -/
def settle (budget : Int) (given : List Answer) : Outcome :=
  match answers given with
  | .error (.failed message) => ⟨.error, [], [message]⟩
  | .error .timedOut => silence budget
  | .ok answers =>
    let results := answers.map resultWord
    if answers.any ranOutOfTime then ⟨.timeout, results, [timeoutMessage budget]⟩
    else ⟨interpret results, results, []⟩

/-- Asks about a script, if there is a solver. -/
def ask (responses? : Option Responses) (budget : Int) (lines : List String) : Outcome :=
  match responses? with
  | none => ⟨.noSolver, [], ["z3 not available"]⟩
  | some responses =>
    match blocks lines with
    | [] => ⟨.error, [], ["no (check-sat) in script"]⟩
    | blocks =>
      if (Number.whole budget).exceedsDoubles then unmeasurable
      else if responses.isPrompt || canWait budget then
        settle budget (blocks.mapIdx responses.answer)
      else silence budget

def run (solver? : Option Solver) (budget : Int) (lines : List String) : Outcome :=
  ask (solver?.map fun solver => solver.responses (blocks lines)) budget lines

/-- Asks a solver about both side conditions of a node in one query. -/
def prove (solver? : Option Solver) (budget : Int) (node : Derivation) :
    Except ConstantTooLarge Outcome :=
  match node.obligations with
  | [] => .ok ⟨.error, [], ["node is not a consequence step"]⟩
  | obligations => do
    let lines ← Obligation.script obligations
    return run solver? budget lines

end Query
end HoareProof
