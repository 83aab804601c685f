import HoareProof.Proofs.Equivalence
import HoareProof.Proofs.Soundness
import Mathlib.Data.List.Forall2

namespace HoareProof

/-!
What a valid derivation is about.  A step of consequence repeats the statement of its
premise, and every other step takes one statement apart.  So if the steps of consequence
are left out, a walk through a valid derivation meets the parts of the program in the order
in which the program is read: every part once, under the rule for its form, and nothing
else.  In particular no part is missing or still a draft, because no rule but consequence
is about such a statement and steps of consequence cannot go on forever.

The statements of premises are compared by value, so the parts are met by value as well.
-/

/-! ## Programs and their parts -/

namespace Stmt

/-- The statements of which a statement is composed. -/
def pieces : Stmt -> List Stmt
  | .hole => []
  | .skip => []
  | .assign _ _ _ => []
  | .seq _ first second => [first, second]
  | .cond _ _ thenBranch elseBranch => [thenBranch, elseBranch]
  | .loop _ _ body => [body]

/-- A statement and all statements inside of it, each before the ones inside of it. -/
def parts : Stmt -> List Stmt
  | .hole => [.hole]
  | .skip => [.skip]
  | .assign stage target value => [.assign stage target value]
  | .seq stage first second => .seq stage first second :: (first.parts ++ second.parts)
  | .cond stage guard thenBranch elseBranch =>
      .cond stage guard thenBranch elseBranch :: (thenBranch.parts ++ elseBranch.parts)
  | .loop stage guard body => .loop stage guard body :: body.parts

/-- Whether a statement is neither missing nor a draft, whatever is inside of it. -/
def isFinished : Stmt -> Bool
  | .hole => false
  | .skip => true
  | .assign stage _ _ => stage == .complete
  | .seq stage _ _ => stage == .complete
  | .cond stage _ _ _ => stage == .complete
  | .loop stage _ _ => stage == .complete

theorem parts_eq (stmt : Stmt) : stmt.parts = stmt :: stmt.pieces.flatMap parts := by
  cases stmt <;> simp [parts, pieces]

end Stmt

namespace Derivation

/-! ## Steps that are not steps of consequence -/

/-- Whether a node is no step of consequence. -/
def isDirect : Derivation -> Bool
  | .missing => true
  | .node _ step _ _ => !step.isConsequence

/-- The nodes that are no steps of consequence, each before the ones below it. -/
def directSteps (root : Derivation) : List Derivation :=
  (root.walk.map (·.2)).filter isDirect

theorem map_walkPremises (index : Nat) (premises : List Derivation) :
    (walkPremises index premises).map (·.2) =
      premises.flatMap fun premise => premise.walk.map (·.2) := by
  induction premises generalizing index with
  | nil => rfl
  | cons premise rest inductionHypothesis =>
      rw [walkPremises, List.map_append, List.map_map, inductionHypothesis, List.flatMap_cons]
      rfl

theorem directSteps_node (conclusion : Triple) (step : Step) (proved : Bool)
    (premises : List Derivation) :
    (Derivation.node conclusion step proved premises).directSteps =
      (if step.isConsequence then [] else [.node conclusion step proved premises]) ++
        premises.flatMap directSteps := by
  have below : ((walkPremises 0 premises).map (·.2)).filter isDirect =
      premises.flatMap directSteps := by
    rw [map_walkPremises, List.filter_flatMap]
    rfl
  rw [directSteps, walk, List.map_cons, List.filter_cons, below, isDirect]
  cases step.isConsequence <;> rfl

/-! ## A step and the pieces of its statement -/

/-- A derivation about a statement of the same value. -/
def IsAbout (derivation : Derivation) (stmt : Stmt) : Prop :=
  ∃ triple, derivation.conclusion? = some triple ∧ stmt.sameValue triple.stmt = true

/-- A step that treats a statement by the rule for its form. -/
def Treats (node : Derivation) (part : Stmt) : Prop :=
  ∃ conclusion rule proved premises, node = .node conclusion (.applied rule) proved premises ∧
    rule ≠ .consequence ∧ rule.appliesTo part = true ∧ conclusion.stmt.sameValue part = true

theorem isAbout_node {triple : Triple} {step : Step} {proved : Bool} {premises : List Derivation}
    {stmt piece : Stmt} (isPiece : triple.stmt.sameValue piece = true)
    (same : stmt.sameValue piece = true) : IsAbout (.node triple step proved premises) stmt :=
  ⟨triple, rfl, Stmt.sameValue_of_common same isPiece⟩

/-- A step that is no step of consequence is about a finished statement of the form of its
rule, and its premises are about the pieces of the statement. -/
theorem Justified.pieces {strictness : Strictness} {conclusion : Triple} {step : Step}
    {proved : Bool} {premises : List Derivation} {stmt : Stmt}
    (justified : Justified strictness (.node conclusion step proved premises))
    (direct : step.isConsequence = false) (same : stmt.sameValue conclusion.stmt = true) :
    stmt.isFinished = true ∧ Treats (.node conclusion step proved premises) stmt ∧
      List.Forall₂ IsAbout premises stmt.pieces := by
  have sameBack := Stmt.sameValue_symm same
  cases justified with
  | skip _ =>
      cases Stmt.eq_skip_of_sameValue same
      exact ⟨rfl, ⟨_, .skip, _, _, rfl, by decide, rfl, sameBack⟩, .nil⟩
  | assign _ =>
      rcases Stmt.exists_assign_of_sameValue same with ⟨value', rfl, _⟩
      exact ⟨rfl, ⟨_, .assign, _, _, rfl, by decide, rfl, sameBack⟩, .nil⟩
  | sequence isFirst isSecond _ _ _ =>
      rcases Stmt.exists_seq_of_sameValue same with ⟨first', second', rfl, sameFirst, sameSecond⟩
      exact ⟨rfl, ⟨_, .sequence, _, _, rfl, by decide, rfl, sameBack⟩,
        .cons (isAbout_node isFirst sameFirst) (.cons (isAbout_node isSecond sameSecond) .nil)⟩
  | conditional isThen isElse _ _ _ _ =>
      rcases Stmt.exists_cond_of_sameValue same with
        ⟨guard', then', else', rfl, _, sameThen, sameElse⟩
      exact ⟨rfl, ⟨_, .conditional, _, _, rfl, by decide, rfl, sameBack⟩,
        .cons (isAbout_node isThen sameThen) (.cons (isAbout_node isElse sameElse) .nil)⟩
  | loop isBody _ _ _ =>
      rcases Stmt.exists_loop_of_sameValue same with ⟨guard', body', rfl, _, sameBody⟩
      exact ⟨rfl, ⟨_, .loop, _, _, rfl, by decide, rfl, sameBack⟩,
        .cons (isAbout_node isBody sameBody) .nil⟩
  | consequence _ => cases direct

/-- A step of consequence has one premise, which is about the same statement. -/
theorem Justified.repeated {strictness : Strictness} {conclusion : Triple} {step : Step}
    {proved : Bool} {premises : List Derivation} {stmt : Stmt}
    (justified : Justified strictness (.node conclusion step proved premises))
    (isConsequence : step.isConsequence = true)
    (same : stmt.sameValue conclusion.stmt = true) :
    ∃ premise, premises = [premise] ∧ IsAbout premise stmt := by
  cases justified with
  | consequence isStatement =>
      exact ⟨_, rfl, _, rfl, Stmt.sameValue_of_common same isStatement⟩
  | skip _ => cases isConsequence
  | assign _ => cases isConsequence
  | sequence _ _ _ _ _ => cases isConsequence
  | conditional _ _ _ _ _ _ => cases isConsequence
  | loop _ _ _ _ => cases isConsequence

/-! ## Valid derivations -/

/-- A program of which no part is missing or a draft, and whose parts are treated one after
another by the steps of a derivation. -/
structure Covers (root : Derivation) (stmt : Stmt) : Prop where
  finished : forall part, part ∈ stmt.parts -> part.isFinished = true
  treated : List.Forall₂ Treats root.directSteps stmt.parts

/-- A step for a statement together with derivations that cover its pieces covers the
statement. -/
theorem covers_of_pieces {conclusion : Triple} {step : Step} {proved : Bool}
    {premises : List Derivation} {stmt : Stmt} (direct : step.isConsequence = false)
    (finished : stmt.isFinished = true)
    (treats : Treats (.node conclusion step proved premises) stmt)
    (covers : List.Forall₂ Covers premises stmt.pieces) :
    Covers (.node conclusion step proved premises) stmt := by
  constructor
  · intro part member
    rw [Stmt.parts_eq, List.mem_cons, List.mem_flatMap] at member
    rcases member with isWhole | ⟨piece, isPiece, inside⟩
    · rw [isWhole]
      exact finished
    · rcases List.mem_iff_getElem.mp isPiece with ⟨index, bound, rfl⟩
      exact (covers.get (covers.length_eq ▸ bound) bound).finished part inside
  · rw [directSteps_node, Stmt.parts_eq, direct]
    refine .cons treats ?_
    exact List.rel_flatMap covers fun premise piece coversPiece => coversPiece.treated

theorem covers_of_isValid {strictness : Strictness} {root : Derivation} {stmt : Stmt}
    (valid : root.isValid strictness = true) (about : root.IsAbout stmt) : root.Covers stmt := by
  -- The statement is kept general, because the premises are about the pieces by value only.
  induction root using nodeInduction generalizing stmt with
  | missing => cases valid
  | node conclusion step proved premises inductionHypothesis =>
      rcases about with ⟨triple, isConclusion, same⟩
      cases isConclusion
      rcases (isValid_node_iff _ _ _ _ _).mp valid with ⟨justified, premisesValid⟩
      cases isConsequence : step.isConsequence with
      | true =>
          rcases justified.repeated isConsequence same with ⟨premise, rfl, aboutSame⟩
          have covers := inductionHypothesis premise List.mem_cons_self
            (premisesValid premise List.mem_cons_self) aboutSame
          refine ⟨covers.finished, ?_⟩
          rw [directSteps_node, isConsequence, if_pos rfl, List.flatMap_singleton]
          exact covers.treated
      | false =>
          rcases justified.pieces isConsequence same with ⟨finished, treats, about⟩
          apply covers_of_pieces isConsequence finished treats
          have aboutMembers := (List.forall₂_and_left premises stmt.pieces).mpr
            ⟨fun _ member => member, about⟩
          exact aboutMembers.imp fun premise piece ⟨member, aboutPiece⟩ =>
            inductionHypothesis premise member (premisesValid premise member) aboutPiece

/-- A valid derivation covers its program exactly once, whatever the strictness.  No part of
the program is missing or a draft.  The nodes that are no steps of consequence, in the
order of a walk, and the parts of the program, in the order of reading, match one for one:
each node is about the part, by value, and its rule is the rule for the form of the part. -/
theorem valid_covers_once (strictness : Strictness) (root : Derivation)
    (valid : root.isValid strictness = true) :
    ∃ conclusion, root.conclusion? = some conclusion ∧
      (forall part, part ∈ conclusion.stmt.parts -> part.isFinished = true) ∧
        List.Forall₂ Treats root.directSteps conclusion.stmt.parts := by
  cases root with
  | missing => cases valid
  | node conclusion step proved premises =>
      have covers := covers_of_isValid valid ⟨conclusion, rfl, Stmt.sameValue_refl _⟩
      exact ⟨conclusion, rfl, covers.finished, covers.treated⟩

/-- Counting down has two parts, the loop and its body, and two steps besides the step of
consequence between them. -/
theorem countdown_covers_once :
    countdown.isValid .full = true ∧ countdown.directSteps.length = 2 ∧
      ∃ conclusion, countdown.conclusion? = some conclusion ∧
        (forall part, part ∈ conclusion.stmt.parts -> part.isFinished = true) ∧
          List.Forall₂ Treats countdown.directSteps conclusion.stmt.parts := by
  have valid : countdown.isValid .full = true := by decide +kernel
  exact ⟨valid, rfl, valid_covers_once .full countdown valid⟩

end Derivation
end HoareProof
