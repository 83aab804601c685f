import HoareProof.Derivation.Navigation

namespace HoareProof
namespace Derivation

/-!
Edits of derivations.  An edit gives the new root, or nothing when it does not
fit: the path leads nowhere, the rule is not about the statement, or an
assertion that the rule needs is missing.  An edit that is accepted counts as a
change even when the new root has the same value as the old one.
-/

/-- The assertions that some rules need besides the conclusion: the one in the
middle of a sequence, and the ones to which consequence moves. -/
structure RuleInput where
  intermediate : Expr
  newPre : Expr
  newPost : Expr

/-- The premises that a rule asks for a conclusion, if the rule is about its
statement and the input is complete. -/
def expand? (rule : Rule) (conclusion : Triple) (given : RuleInput) : Option (List Derivation) :=
  match rule, conclusion.stmt with
  | .skip, .skip => some []
  | .assign, .assign .complete _ _ => some []
  | .sequence, .seq .complete first second =>
    if given.intermediate.isComplete then
      some [leaf ⟨conclusion.pre, first, given.intermediate⟩,
        leaf ⟨given.intermediate, second, conclusion.post⟩]
    else none
  | .conditional, .cond .complete guard thenBranch elseBranch =>
    some [leaf ⟨.conj conclusion.pre guard, thenBranch, conclusion.post⟩,
      leaf ⟨.conj conclusion.pre (.negate guard), elseBranch, conclusion.post⟩]
  | .loop, .loop .complete guard body =>
    some [leaf ⟨.conj conclusion.pre guard, body, conclusion.pre⟩]
  | .consequence, stmt =>
    if given.newPre.isComplete && given.newPost.isComplete then
      some [leaf ⟨given.newPre, stmt, given.newPost⟩]
    else none
  | _, _ => none

/-- Applies a rule to the node at a path.  The node keeps its triple, what was
derived below it is dropped, and the premises are still to be derived. -/
def refine? (root : Derivation) (path : Path) (rule : Rule) (given : RuleInput) :
    Option Derivation :=
  match root.at? path with
  | some (.node conclusion _ _ _) =>
    match expand? rule conclusion given with
    | some premises => root.replace? path (.node conclusion (.applied rule) false premises)
    | none => none
  | _ => none

/-- Applies a change to the node at a path.  A change that gives nothing leaves
the node as it is: at the root that is no edit, and below the root the nodes on
the way are rebuilt around it. -/
def update? (root : Derivation) (path : Path) (change : Derivation -> Option Derivation) :
    Option Derivation :=
  match root.at? path with
  | none => none
  | some target =>
    match change target with
    | some changed => root.replace? path changed
    | none => if path.isEmpty then none else root.replace? path target

/-- Starts a derivation of a triple of which nothing is missing. -/
def create? (pre : Expr) (stmt : Stmt) (post : Expr) : Option Derivation :=
  match stmt.finalize with
  | some complete =>
    if pre.isComplete && post.isComplete then some (leaf ⟨pre, complete, post⟩) else none
  | none => none

def markProved : Derivation -> Derivation
  | .missing => .missing
  | .node conclusion step _ premises => .node conclusion step true premises

end Derivation
end HoareProof
