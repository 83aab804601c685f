import HoareProof.Proofs.Rules
import HoareProof.Proofs.Sessions

namespace HoareProof
namespace Derivation

/-!
Marking nodes.  Recording an answer sets the flag of one node and rebuilds the nodes
on the way to it.  Here the flags of all nodes that a selection of paths names are set
at once.  A flag set by a selection changes no triple, no step and no premise, so a
marked derivation has the same nodes at the same paths and raises the same questions.

The main statement is that recording an answer in a marked derivation gives the
derivation marked at one path more.  Selections do not know in which order their paths
came to be selected.
-/

mutual

/-- The derivation with the flags set at the selected paths.  Flags that are set
already stay, and nothing else changes. -/
def markWhere (select : Path -> Bool) : Derivation -> Derivation
  | .missing => .missing
  | .node conclusion step proved premises =>
      .node conclusion step (proved || select []) (markPremises select 0 premises)

/-- Consecutive premises, the first of which has an index, with the flags set at the
selected paths. -/
def markPremises (select : Path -> Bool) (index : Nat) : List Derivation -> List Derivation
  | [] => []
  | premise :: rest =>
      markWhere (fun path => select ((index : Int) :: path)) premise ::
        markPremises select (index + 1) rest

end

@[simp] theorem markWhere_missing (select : Path -> Bool) :
    Derivation.missing.markWhere select = .missing := rfl

theorem markWhere_node (select : Path -> Bool) (conclusion : Triple) (step : Step)
    (proved : Bool) (premises : List Derivation) :
    (Derivation.node conclusion step proved premises).markWhere select =
      .node conclusion step (proved || select []) (markPremises select 0 premises) := rfl

theorem getElem?_markPremises (select : Path -> Bool) (premises : List Derivation)
    (index position : Nat) :
    (markPremises select index premises)[position]? =
      premises[position]?.map
        (markWhere fun path => select (((index + position : Nat) : Int) :: path)) := by
  induction premises generalizing index position with
  | nil => rfl
  | cons premise rest inductionHypothesis =>
      cases position with
      | zero => rfl
      | succ position =>
          rw [markPremises, List.getElem?_cons_succ, List.getElem?_cons_succ, inductionHypothesis,
            Nat.add_right_comm, Nat.add_assoc]

@[simp] theorem conclusion?_markWhere (select : Path -> Bool) (derivation : Derivation) :
    (derivation.markWhere select).conclusion? = derivation.conclusion? := by
  cases derivation <;> rfl

theorem map_conclusion?_markPremises (select : Path -> Bool) (index : Nat)
    (premises : List Derivation) :
    (markPremises select index premises).map conclusion? = premises.map conclusion? := by
  induction premises generalizing index with
  | nil => rfl
  | cons premise rest inductionHypothesis =>
      rw [markPremises, List.map_cons, List.map_cons, inductionHypothesis, conclusion?_markWhere]

theorem length_markPremises (select : Path -> Bool) (index : Nat) (premises : List Derivation) :
    (markPremises select index premises).length = premises.length := by
  simpa using congrArg List.length (map_conclusion?_markPremises select index premises)

@[simp] theorem obligations_markWhere (select : Path -> Bool) (node : Derivation) :
    (node.markWhere select).obligations = node.obligations := by
  cases node with
  | missing => rfl
  | node conclusion step proved premises =>
      exact obligations_congr (map_conclusion?_markPremises select 0 premises)

/-- The node at a path of a marked derivation is the node that was there, marked by the
rest of the selection. -/
theorem at?_markWhere (root : Derivation) (select : Path -> Bool) (path : Path) :
    (root.markWhere select).at? path =
      (root.at? path).map (markWhere fun rest => select (path ++ rest)) := by
  induction path generalizing root select with
  | nil => cases root <;> rfl
  | cons index path inductionHypothesis =>
      cases root with
      | missing => rw [markWhere_missing, at?_missing]; rfl
      | node conclusion step proved premises =>
          cases index with
          | negSucc position => rfl
          | ofNat position =>
              rw [markWhere_node, Int.ofNat_eq_natCast, at?_node_cons, at?_node_cons,
                getElem?_markPremises, Nat.zero_add]
              cases premises[position]? with
              | none => rfl
              | some premise => exact inductionHypothesis premise _

theorem at?_markWhere_of_found {root node : Derivation} {path : Path} (select : Path -> Bool)
    (found : root.at? path = some node) :
    (root.markWhere select).at? path =
      some (node.markWhere fun rest => select (path ++ rest)) := by
  rw [at?_markWhere, found]
  rfl

theorem markPremises_false (index : Nat) (premises : List Derivation)
    (unchanged : forall premise, premise ∈ premises ->
      premise.markWhere (fun _ => false) = premise) :
    markPremises (fun _ => false) index premises = premises := by
  induction premises generalizing index with
  | nil => rfl
  | cons premise rest inductionHypothesis =>
      rw [markPremises, unchanged premise List.mem_cons_self,
        inductionHypothesis (index + 1) fun other member =>
          unchanged other (List.mem_cons_of_mem _ member)]

/-- Nothing selected, nothing marked. -/
theorem markWhere_false (root : Derivation) : root.markWhere (fun _ => false) = root := by
  induction root using nodeInduction with
  | missing => rfl
  | node conclusion step proved premises inductionHypothesis =>
      rw [markWhere_node, Bool.or_false, markPremises_false 0 premises inductionHypothesis]

/-- Selecting the node itself besides changes nothing below it. -/
theorem markPremises_or_root (select : Path -> Bool) (index : Nat) (premises : List Derivation) :
    markPremises (fun path => select path || path == []) index premises =
      markPremises select index premises := by
  apply List.ext_getElem?
  intro position
  rw [getElem?_markPremises, getElem?_markPremises]
  simp

/-- Selecting a node below one premise besides changes this premise only. -/
theorem markPremises_or_below (select : Path -> Bool) (premises : List Derivation)
    (position : Nat) (path : Path) {premise : Derivation}
    (atPosition : premises[position]? = some premise) :
    markPremises (fun other => select other || other == (position : Int) :: path) 0 premises =
      (markPremises select 0 premises).set position
        (premise.markWhere fun rest => select ((position : Int) :: rest) || rest == path) := by
  apply List.ext_getElem?
  intro other
  have bound : position < (markPremises select 0 premises).length := by
    rw [length_markPremises]
    exact (List.getElem?_eq_some_iff.mp atPosition).1
  by_cases same : position = other
  · subst same
    rw [List.getElem?_set_self bound, getElem?_markPremises, atPosition, Nat.zero_add]
    simp
  · rw [List.getElem?_set_ne same, getElem?_markPremises, getElem?_markPremises, Nat.zero_add]
    have different : ((other : Int) == (position : Int)) = false :=
      beq_false_of_ne fun equal => same (Int.ofNat.inj equal).symm
    simp [different]

/-- Setting the flag of the node at a path of a marked derivation selects one path
more. -/
theorem replace?_markWhere {root node : Derivation} (select : Path -> Bool) {path : Path}
    (found : root.at? path = some node) :
    (root.markWhere select).replace? path
        (node.markWhere fun rest => select (path ++ rest)).markProved =
      some (root.markWhere fun other => select other || other == path) := by
  induction path generalizing root select with
  | nil =>
      have isRoot := eq_of_at?_nil found
      subst isRoot
      cases root with
      | missing => cases found
      | node conclusion step proved premises =>
          rw [markWhere_node (fun other => select other || other == []), markPremises_or_root,
            BEq.rfl, Bool.or_true, Bool.or_true]
          rfl
  | cons index path inductionHypothesis =>
      rcases exists_premise_of_at?_cons found with
        ⟨conclusion, step, proved, premises, position, premise, rfl, rfl, atPosition, below⟩
      apply replace?_cons_eq_some_iff.mpr
      refine ⟨conclusion, step, proved || select [], markPremises select 0 premises,
        position, _, _, rfl, rfl, ?_,
        inductionHypothesis (fun rest => select ((position : Int) :: rest)) below, ?_⟩
      · rw [getElem?_markPremises, atPosition, Nat.zero_add]
        rfl
      · rw [markWhere_node, markPremises_or_below select premises position path atPosition]
        simp

end Derivation

namespace Session

open HoareProof.Derivation

/-- However a node is marked, it raises the same question. -/
theorem sameQuestion_markWhere {node : Derivation} (present : node ≠ .missing)
    (select other : Path -> Bool) :
    sameQuestion (node.markWhere select) (node.markWhere other) = true := by
  cases node with
  | missing => exact absurd rfl present
  | node conclusion step proved premises =>
      apply sameQuestion_iff.mpr
      refine ⟨_, _, _, _, _, _, _, _, rfl, rfl, Step.sameValue_refl step, ?_,
        Stmt.sameValue_refl conclusion.stmt⟩
      rw [obligations_markWhere, obligations_markWhere]
      exact Obligation.sameValues_refl _

theorem record?_eq_none_of_ne_valid {session : Session} {question : Question} {status : Status}
    (notValid : status ≠ .valid) : session.record? question status = none := by
  rw [record?, if_neg notValid]

variable {session : Session} {root node : Derivation} {select other : Path -> Bool}
  {question : Question} {path : Path}

theorem at?_markWhere (rooted : session.root = some (root.markWhere select))
    (found : root.at? path = some node) :
    session.at? path = some (node.markWhere fun rest => select (path ++ rest)) :=
  at?_eq_some_iff.mpr ⟨_, rooted, at?_markWhere_of_found select found⟩

/-- A node of a marked session comes from the node of the original derivation at its
path. -/
theorem exists_unmarked {found : Derivation}
    (rooted : session.root = some (root.markWhere select))
    (atPath : session.at? path = some found) :
    ∃ node other, root.at? path = some node ∧ found = node.markWhere other := by
  rcases at?_eq_some_iff.mp atPath with ⟨marked, isMarked, inMarked⟩
  cases rooted.symm.trans isMarked
  rw [Derivation.at?_markWhere, Option.map_eq_some_iff] at inMarked
  rcases inMarked with ⟨node, inRoot, isFound⟩
  exact ⟨node, _, inRoot, isFound.symm⟩

/-- Where the original derivation has side conditions that can be written down, a marked
session can ask about them. -/
theorem ask_markWhere {lines : List String}
    (rooted : session.root = some (root.markWhere select)) (found : root.at? path = some node)
    (raises : node.obligations ≠ [])
    (written : Obligation.script node.obligations = .ok lines) :
    session.ask path =
      .ok (⟨path, node.markWhere fun rest => select (path ++ rest)⟩, lines) := by
  apply ask_eq_ok_iff.mpr
  refine ⟨rfl, at?_markWhere rooted found, ?_, ?_⟩
  · rw [obligations_markWhere]
    exact raises
  · rw [obligations_markWhere]
    exact written

/-- A valid answer about a node of a marked derivation is recorded at this node, whatever
has been marked since the question was asked. -/
theorem record?_markWhere (rooted : session.root = some (root.markWhere select))
    (found : root.at? question.path = some node)
    (isAsked : question.asked = node.markWhere other) :
    session.record? question .valid =
      some (session.swap (root.markWhere fun path => select path || path == question.path)) := by
  apply record?_eq_some_iff.mpr
  refine ⟨rfl, _, _, _, rooted, at?_markWhere_of_found select found, ?_,
    replace?_markWhere select found, rfl⟩
  rw [isAsked]
  exact sameQuestion_markWhere (ne_missing_of_at? found) _ _

/-- An answer of any status leaves a marked derivation behind.  It selects its own path if
it is valid, and otherwise nothing. -/
theorem root_record?_markWhere (question : Question)
    (rooted : session.root = some (root.markWhere select))
    (found : root.at? question.path = some node)
    (isAsked : question.asked = node.markWhere other) (status : Status) :
    ((session.record? question status).getD session).root =
      some (root.markWhere fun path =>
        select path || (path == question.path && status == .valid)) := by
  by_cases valid : status = .valid
  · subst valid
    rw [record?_markWhere rooted found isAsked]
    simp [swap]
  · rw [record?_eq_none_of_ne_valid valid, Option.getD_none, rooted, beq_false_of_ne valid]
    simp

end Session
end HoareProof
