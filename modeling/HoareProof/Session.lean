import HoareProof.Derivation.Check
import HoareProof.Derivation.Edit
import HoareProof.Query

namespace HoareProof

/-!
Sessions: a current root and the roots before it.  Every accepted edit puts the
old root into the history, and undoing takes it back.  A query about a node is
answered later, when the derivation may have changed; the answer is recorded
only if it is valid and the same question would be asked of the node that is at
the path now.
-/

/-- The state of a session.  The history has the most recent root first. -/
structure Session where
  root : Option Derivation
  history : List Derivation

/-- A question about the node at a path, with the node as it was when the
question was asked. -/
structure Question where
  path : Path
  asked : Derivation

/-- Why no question can be asked. -/
inductive AskError where
  | noNode (path : Path)
  | notConsequence (path : Path)
  | tooLarge (error : ConstantTooLarge)

namespace Session

def start (root : Option Derivation) : Session :=
  ⟨root, []⟩

/-- Puts a new root in place of the current one, which goes into the
history. -/
def swap (session : Session) (root : Derivation) : Session :=
  ⟨some root, session.root.toList ++ session.history⟩

/-- Makes an edit of the current root, if there is one and the edit fits. -/
def edit? (session : Session) (change : Derivation -> Option Derivation) : Option Session :=
  match session.root with
  | none => none
  | some root => (change root).map session.swap

def create? (session : Session) (pre : Expr) (stmt : Stmt) (post : Expr) :
    Option (Derivation × Session) :=
  (Derivation.create? pre stmt post).map fun root => (root, session.swap root)

def refine? (session : Session) (path : Path) (rule : Rule) (given : Derivation.RuleInput) :
    Option Session :=
  session.edit? fun root => root.refine? path rule given

def update? (session : Session) (path : Path) (change : Derivation -> Option Derivation) :
    Option Session :=
  session.edit? fun root => root.update? path change

/-- Goes back to the root before the last change, if there was one. -/
def undo? (session : Session) : Option Session :=
  match session.history with
  | [] => none
  | root :: earlier => some ⟨some root, earlier⟩

/-- Whether the current derivation is valid.  Without one the answer is no. -/
def isValid (session : Session) (strictness : Derivation.Strictness) : Bool :=
  match session.root with
  | none => false
  | some root => root.isValid strictness

def at? (session : Session) (path : Path) : Option Derivation :=
  match session.root with
  | none => none
  | some root => root.at? path

/-- Asks about the side conditions of the node at a path, and gives the script
to send. -/
def ask (session : Session) (path : Path) : Except AskError (Question × List String) :=
  match session.at? path with
  | none => .error (.noNode path)
  | some target =>
    match target.obligations with
    | [] => .error (.notConsequence path)
    | obligations =>
      match Obligation.script obligations with
      | .error e => .error (.tooLarge e)
      | .ok lines => .ok (⟨path, target⟩, lines)

/-- Whether two nodes raise the same question. -/
def sameQuestion : Derivation -> Derivation -> Bool
  | .node c₁ s₁ p₁ ds₁, .node c₂ s₂ p₂ ds₂ =>
    s₁.sameValue s₂ &&
      Obligation.sameValues (Derivation.node c₁ s₁ p₁ ds₁).obligations
        (Derivation.node c₂ s₂ p₂ ds₂).obligations &&
      c₁.stmt.sameValue c₂.stmt
  | _, _ => false

/-- Records the answer to a question, if it proves anything and the question
still stands. -/
def record? (session : Session) (question : Question) (status : Status) : Option Session :=
  if status = .valid then
    match session.at? question.path with
    | none => none
    | some current =>
      if sameQuestion current question.asked then
        session.update? question.path fun target => some target.markProved
      else none
  else none

end Session
end HoareProof
