import HoareProof.Derivation.Navigation
import HoareProof.Expr.Normalized
import HoareProof.Text.Quoted

namespace HoareProof
namespace Derivation

/-!
Checking derivations step by step.  For each rule, one function compares the
conclusion of a node with its premises and says what does not fit first.  The
comparison is by shape; only the boundaries of conditionals and loops may also
be compared leniently, by normalized text, and a boundary that cannot be written
makes its node malformed.  The side conditions of consequence are not decided
here: the node records whether they have been proved.

A derivation is valid when no step in it has a failure.
-/

/-- How the boundaries of conditionals and loops are compared. -/
inductive Boundary where
  | structural
  | normalized
deriving DecidableEq, Repr

/-- The choices of the checker.  With `loopExit`, the postcondition of a loop
must be its invariant and the negated guard. -/
structure Strictness where
  boundary : Boundary
  loopExit : Bool
deriving DecidableEq, Repr

/-- Boundaries by shape, and any postcondition for a loop. -/
def Strictness.standard : Strictness := ⟨.structural, false⟩

def Boundary.name : Boundary -> String
  | .structural => "structural"
  | .normalized => "normalized"

/-- Comparison of two boundaries.  Boundaries that cannot be written have no
text to compare. -/
def Boundary.agree : Boundary -> Expr -> Expr -> Bool
  | .structural, a, b => a.sameShape b
  | .normalized, a, b =>
    a.isPrintable && b.isPrintable &&
      Expr.normalizedText a.human == Expr.normalizedText b.human

def Boundary.canCompare : Boundary -> Expr -> Expr -> Bool
  | .structural, _, _ => true
  | .normalized, a, b => a.isPrintable && b.isPrintable

inductive Reason where
  | noRule
  | unknownRule (name : String)
  | inapplicable (rule : Rule) (stmt : Stmt)
  | premiseCount (rule : Rule) (found : Nat)
  | skipAssertions
  | assignPrecondition (needed : Expr)
  | sequenceStatements
  | sequenceStart
  | sequenceMiddle
  | sequenceEnd
  | branchStatements
  | thenPrecondition
  | elsePrecondition
  | branchEnds
  | bodyStatement
  | bodyPrecondition
  | bodyPostcondition
  | loopPostcondition
  | consequenceStatement
  | sideConditions
  | missingPremise
  | missingNode
  | malformed

def Reason.message : Reason -> String
  | .noRule => "no rule applied"
  | .unknownRule name => "unknown rule " ++ Text.quoted name
  | .inapplicable rule stmt => rule.tag ++ " rule does not apply to '" ++ stmt.text ++ "'"
  | .premiseCount rule found =>
    rule.tag ++ " rule needs " ++ toString rule.arity ++ " premise(s), found " ++ toString found
  | .skipAssertions => "skip axiom needs identical pre- and postcondition"
  | .assignPrecondition needed => "assignment axiom needs precondition " ++ needed.human
  | .sequenceStatements => "sequence premises must be about S1 and S2"
  | .sequenceStart => "first premise must start from the precondition"
  | .sequenceMiddle => "premises must share the intermediate assertion"
  | .sequenceEnd => "second premise must end in the postcondition"
  | .branchStatements => "conditional premises must be about the two branches"
  | .thenPrecondition => "then-branch precondition must be P ∧ b"
  | .elsePrecondition => "else-branch precondition must be P ∧ ¬b"
  | .branchEnds => "both branches must end in the postcondition"
  | .bodyStatement => "while premise must be about the loop body"
  | .bodyPrecondition => "loop body precondition must be I ∧ b"
  | .bodyPostcondition => "loop body must re-establish the invariant"
  | .loopPostcondition => "loop postcondition must be I ∧ ¬b"
  | .consequenceStatement => "consequence premise must be about the same statement"
  | .sideConditions => "side conditions P ⇒ P' and Q' ⇒ Q are not proved"
  | .missingPremise => "premise is missing"
  | .missingNode => "node is missing"
  | .malformed => "malformed proof node"

/-- What a rule says of the number of its premises. -/
def wrongCount (rule : Rule) (premises : List Derivation) : Option Reason :=
  some (.premiseCount rule premises.length)

def skipFailure (conclusion : Triple) (premises : List Derivation) : Option Reason :=
  match conclusion.stmt with
  | .skip =>
    match premises with
    | [] => if conclusion.pre.sameShape conclusion.post then none else some .skipAssertions
    | _ => wrongCount .skip premises
  | stmt => some (.inapplicable .skip stmt)

/-- The axiom for assignment: the precondition is the postcondition with the
value put for the target. -/
def assignFailure (conclusion : Triple) (premises : List Derivation) : Option Reason :=
  match conclusion.stmt with
  | .assign .complete target value =>
    match premises with
    | [] =>
      let needed := conclusion.post.subst target value
      if conclusion.pre.sameShape needed then none else some (.assignPrecondition needed)
    | _ => wrongCount .assign premises
  | stmt => some (.inapplicable .assign stmt)

def sequenceBoundaries (conclusion left right : Triple) : Option Reason :=
  if !left.pre.sameShape conclusion.pre then some .sequenceStart
  else if !left.post.sameShape right.pre then some .sequenceMiddle
  else if !right.post.sameShape conclusion.post then some .sequenceEnd
  else none

def sequenceFailure (conclusion : Triple) (premises : List Derivation) : Option Reason :=
  match conclusion.stmt with
  | .seq .complete first second =>
    match premises with
    | [.node left _ _ _, .node right _ _ _] =>
      if !(left.stmt.sameValue first && right.stmt.sameValue second) then
        some .sequenceStatements
      else sequenceBoundaries conclusion left right
    | [.node left _ _ _, .missing] =>
      if left.stmt.sameValue first then some .missingPremise else some .sequenceStatements
    | [.missing, _] => some .missingPremise
    | _ => wrongCount .sequence premises
  | stmt => some (.inapplicable .sequence stmt)

/-- What is wrong with two boundaries that should agree. -/
def Boundary.misfit? (boundary : Boundary) (a b : Expr) (reason : Reason) : Option Reason :=
  if boundary.agree a b then none
  else if boundary.canCompare a b then some reason
  else some .malformed

def branchBoundaries (boundary : Boundary) (guard : Expr) (conclusion left right : Triple) :
    Option Reason :=
  (boundary.misfit? left.pre (.conj conclusion.pre guard) .thenPrecondition)
    <|> (boundary.misfit? right.pre (.conj conclusion.pre (.negate guard)) .elsePrecondition)
    <|> (boundary.misfit? left.post conclusion.post .branchEnds)
    <|> (boundary.misfit? right.post conclusion.post .branchEnds)

def conditionalFailure (boundary : Boundary) (conclusion : Triple)
    (premises : List Derivation) : Option Reason :=
  match conclusion.stmt with
  | .cond .complete guard thenBranch elseBranch =>
    match premises with
    | [.node left _ _ _, .node right _ _ _] =>
      if !(left.stmt.sameValue thenBranch && right.stmt.sameValue elseBranch) then
        some .branchStatements
      else branchBoundaries boundary guard conclusion left right
    | [.node left _ _ _, .missing] =>
      if left.stmt.sameValue thenBranch then some .missingPremise else some .branchStatements
    | [.missing, _] => some .missingPremise
    | _ => wrongCount .conditional premises
  | stmt => some (.inapplicable .conditional stmt)

/-- Whether a postcondition is an invariant and a negated guard, in either
order. -/
def isLoopExit (boundary : Boundary) (invariant guard post : Expr) : Bool :=
  boundary.agree post (.conj invariant (.negate guard)) ||
    boundary.agree post (.conj (.negate guard) invariant)

/-- The postcondition of a loop.  Both orders have the same constants, so the
two can be compared with it or neither can. -/
def exitMisfit? (boundary : Boundary) (invariant guard post : Expr) : Option Reason :=
  if isLoopExit boundary invariant guard post then none
  else boundary.misfit? post (.conj invariant (.negate guard)) .loopPostcondition

def loopBoundaries (strictness : Strictness) (guard : Expr) (conclusion body : Triple) :
    Option Reason :=
  (strictness.boundary.misfit? body.pre (.conj conclusion.pre guard) .bodyPrecondition)
    <|> (strictness.boundary.misfit? body.post conclusion.pre .bodyPostcondition)
    <|> (if strictness.loopExit then
        exitMisfit? strictness.boundary conclusion.pre guard conclusion.post
      else none)

def loopFailure (strictness : Strictness) (conclusion : Triple)
    (premises : List Derivation) : Option Reason :=
  match conclusion.stmt with
  | .loop .complete guard body =>
    match premises with
    | [.node premise _ _ _] =>
      if !premise.stmt.sameValue body then some .bodyStatement
      else loopBoundaries strictness guard conclusion premise
    | [.missing] => some .missingPremise
    | _ => wrongCount .loop premises
  | stmt => some (.inapplicable .loop stmt)

def consequenceFailure (conclusion : Triple) (proved : Bool)
    (premises : List Derivation) : Option Reason :=
  match premises with
  | [.node premise _ _ _] =>
    if !premise.stmt.sameValue conclusion.stmt then some .consequenceStatement
    else if proved then none
    else some .sideConditions
  | [.missing] => some .missingPremise
  | _ => wrongCount .consequence premises

/-- Why the step at a node fails, its premises apart. -/
def localFailure (strictness : Strictness) : Derivation -> Option Reason
  | .missing => some .missingNode
  | .node _ .pending _ _ => some .noRule
  | .node _ (.unrecognised name) _ _ => some (.unknownRule name)
  | .node conclusion (.applied rule) proved premises =>
    match rule with
    | .skip => skipFailure conclusion premises
    | .assign => assignFailure conclusion premises
    | .sequence => sequenceFailure conclusion premises
    | .conditional => conditionalFailure strictness.boundary conclusion premises
    | .loop => loopFailure strictness conclusion premises
    | .consequence => consequenceFailure conclusion proved premises

mutual

/-- Whether no step of a derivation fails. -/
def isValid (strictness : Strictness) : Derivation -> Bool
  | .missing => false
  | .node conclusion step proved premises =>
    (localFailure strictness (.node conclusion step proved premises)).isNone &&
      allValid strictness premises

def allValid (strictness : Strictness) : List Derivation -> Bool
  | [] => true
  | derivation :: rest => isValid strictness derivation && allValid strictness rest

end

/-- Whether a triple without premises is an instance of an axiom, whatever step
is claimed for it.  A missing node has no answer. -/
def isAxiom? : Derivation -> Option Bool
  | .missing => none
  | .node _ _ _ (_ :: _) => some false
  | .node conclusion _ _ [] =>
    match conclusion.stmt with
    | .skip => some (conclusion.pre.sameShape conclusion.post)
    | .assign .complete target value =>
      some (conclusion.pre.sameShape (conclusion.post.subst target value))
    | _ => some false

/-- A node whose step fails. -/
structure Failure where
  path : Path
  conclusion : Triple
  rule : Option Rule
  reason : Reason

def failureAt? (strictness : Strictness) : Path × Derivation -> Option Failure
  | (_, .missing) => none
  | (path, .node conclusion step proved premises) =>
    (localFailure strictness (.node conclusion step proved premises)).map fun reason =>
      ⟨path, conclusion, step.rule?, reason⟩

/-- The nodes whose steps fail, each before its premises. -/
def failures (strictness : Strictness) (root : Derivation) : List Failure :=
  root.walk.filterMap (failureAt? strictness)

/-- The nodes whose steps fail, unless a node is missing. -/
def failures? (strictness : Strictness) (root : Derivation) : Option (List Failure) :=
  if root.hasMissing then none else some (root.failures strictness)

end Derivation
end HoareProof
