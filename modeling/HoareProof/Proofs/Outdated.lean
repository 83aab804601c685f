import HoareProof.Proofs.Sessions
import HoareProof.Proofs.Soundness

namespace HoareProof
namespace Derivation

/-!
Flags that a change leaves behind.  The flag of a step of consequence stands for side
conditions that somebody has checked, and these speak of the assertions of the node and
of those of its premise.  Changing a node touches the flags of the changed node only as
far as the change itself does, and no other flag at all.  So a flag can outlive the side
conditions that it was given for.

The main statement says at which paths that happens.  It happens inside of the changed
node, where the change is to be blamed, and at the node right above it, whose side
conditions speak of the assertions of the changed node.  It happens at no other path.
In particular, giving other assertions to a node outdates at most two flags.
-/

/-- The root after a change of the node at a path.  It is the old root where the change
does not fit. -/
def updated (root : Derivation) (path : Path) (change : Derivation -> Option Derivation) :
    Derivation :=
  (root.update? path change).getD root

/-- The node that is in the place of another one after a change.  A change that gives
nothing keeps the node, and so does one that would leave no node there. -/
def revised (target : Derivation) (change : Derivation -> Option Derivation) : Derivation :=
  ((change target).bind present?).getD target

/-- The flag of the node at a path.  Where no node is, nothing is flagged. -/
def flagAt (root : Derivation) (path : Path) : Bool :=
  (root.at? path).any isProved

/-- Whether a node is a step of consequence, with any number of premises. -/
def isConsequence : Derivation -> Bool
  | .missing => false
  | .node _ step _ _ => step.isConsequence

/-- The flag at a path is outdated: it is set at a step of consequence, but no node with
these side conditions was at the path before. -/
def Outdated (before after : Derivation) (path : Path) : Prop :=
  ∃ node, after.at? path = some node ∧ node.isConsequence = true ∧ node.isProved = true ∧
    forall old, before.at? path = some old ->
      Obligation.sameValues node.obligations old.obligations = false

/-- Both nodes have a triple, and its assertions have the same values. -/
def SameAssertions (before after : Derivation) : Prop :=
  ∃ old new, before.conclusion? = some old ∧ after.conclusion? = some new ∧
    new.pre.sameValue old.pre = true ∧ new.post.sameValue old.post = true

/-- The node at a path is right above a node that is replaced by one with other
assertions, and it is marked as proved for side conditions that speak of them. -/
def Undermined (root : Derivation) (path : Path) (target replacement : Derivation)
    (other : Path) : Prop :=
  ∃ index above, path = other ++ [index] ∧ root.at? other = some above ∧
    above.isProved = true ∧ above.obligations ≠ [] ∧ ¬ SameAssertions target replacement

theorem not_outdated_of_at?_eq {before after : Derivation} {path : Path}
    (same : after.at? path = before.at? path) : ¬ Outdated before after path := by
  rintro ⟨node, found, _, _, differs⟩
  have sameConditions := differs node (same.symm.trans found)
  rw [Obligation.sameValues_refl] at sameConditions
  cases sameConditions

/-- The flag of a node that keeps its step and its flag is outdated exactly when it is set
for side conditions, and these do not keep their values. -/
theorem outdated_nil_iff {before after : Derivation} {same : Prop}
    (sameIff : Obligation.sameValues after.obligations before.obligations = true ↔
      before.obligations = [] ∨ same)
    (sameStep : after.isConsequence = before.isConsequence)
    (sameFlag : after.isProved = before.isProved) :
    Outdated before after [] ↔ before.isProved = true ∧ before.obligations ≠ [] ∧ ¬ same := by
  have differIff : Obligation.sameValues after.obligations before.obligations = false ↔
      before.obligations ≠ [] ∧ ¬ same := by
    rw [← Bool.not_eq_true, sameIff, not_or]
  constructor
  · rintro ⟨node, found, _, isProved, differs⟩
    cases eq_of_at?_nil found
    rw [sameFlag] at isProved
    cases before with
    | missing => cases isProved
    | node conclusion step proved premises => exact ⟨isProved, differIff.mp (differs _ rfl)⟩
  · rintro ⟨isProved, raises, differ⟩
    rcases obligations_ne_nil_iff.mp raises with ⟨_, _, _, _, _, _, _, rfl, isConsequence⟩
    cases after with
    | missing => cases sameFlag.trans isProved
    | node conclusion step proved premises =>
        refine ⟨_, rfl, sameStep.trans isConsequence, sameFlag.trans isProved, ?_⟩
        intro old isOld
        cases isOld
        exact differIff.mpr ⟨raises, differ⟩

/-- Only a step with exactly one premise has side conditions. -/
theorem obligations_of_length_ne {conclusion : Triple} {step : Step} {proved : Bool}
    {premises : List Derivation} (notSingle : premises.length ≠ 1) :
    (Derivation.node conclusion step proved premises).obligations = [] := by
  by_contra raises
  rcases obligations_ne_nil_iff.mp raises with ⟨_, _, _, _, _, _, _, isNode, _⟩
  cases isNode
  exact notSingle rfl

/-! ## One premise in the place of another -/

section Premise

variable (conclusion : Triple) (step : Step) (proved : Bool) {premises : List Derivation}
  {position : Nat} {premise : Derivation} (changed : Derivation)

/-- A step has side conditions about its only premise, and these keep their values exactly
when the assertions of the premise do. -/
theorem sameValues_obligations_set_iff (atPosition : premises[position]? = some premise)
    (presentBefore : premise ≠ .missing) (presentAfter : changed ≠ .missing) :
    Obligation.sameValues
        (Derivation.node conclusion step proved (premises.set position changed)).obligations
        (Derivation.node conclusion step proved premises).obligations = true ↔
      ((Derivation.node conclusion step proved premises).obligations = [] ∨
        SameAssertions premise changed) := by
  by_cases single : premises.length = 1
  · rcases List.length_eq_one_iff.mp single with ⟨only, rfl⟩
    cases position with
    | succ position => cases atPosition
    | zero =>
        cases atPosition
        cases premise with
        | missing => exact absurd rfl presentBefore
        | node old oldStep oldProved oldPremises =>
            cases changed with
            | missing => exact absurd rfl presentAfter
            | node new newStep newProved newPremises =>
                cases isConsequence : step.isConsequence <;>
                  simp [obligations, isConsequence, SameAssertions, conclusion?,
                    Obligation.sameValues, Obligation.sameValue]
  · have stillNotSingle : (premises.set position changed).length ≠ 1 := by
      rw [List.length_set]
      exact single
    rw [obligations_of_length_ne single, obligations_of_length_ne stillNotSingle]
    exact iff_of_true rfl (Or.inl rfl)

theorem outdated_cons_iff (atPosition : premises[position]? = some premise) (index : Int)
    (rest : Path) :
    Outdated (.node conclusion step proved premises)
        (.node conclusion step proved (premises.set position changed)) (index :: rest) ↔
      index = (position : Int) ∧ Outdated premise changed rest := by
  by_cases through : index = (position : Int)
  · subst through
    simp only [Outdated, at?_set_cons _ _ _ _ atPosition, if_true, at?_node_cons, atPosition,
      Option.bind_some, true_and]
  · have same := at?_set_cons conclusion step proved changed atPosition index rest
    rw [if_neg through] at same
    exact iff_of_false (not_outdated_of_at?_eq same) fun both => through both.1

end Premise

/-! ## Replacing below -/

section Replacing

variable {root target replacement result : Derivation} {path : Path}

/-- Replacing below a node keeps its triple. -/
theorem sameAssertions_of_replace?_cons {index : Int}
    (replaced : root.replace? (index :: path) replacement = some result) :
    SameAssertions root result := by
  rcases replace?_cons_eq_some_iff.mp replaced with ⟨triple, _, _, _, _, _, _, rfl, _, _, _, rfl⟩
  exact ⟨triple, triple, rfl, rfl, Expr.sameValue_refl _, Expr.sameValue_refl _⟩

/-- A replacement with the flags of the old node leaves every flag as it was. -/
theorem flagAt_of_replace? (found : root.at? path = some target)
    (replaced : root.replace? path replacement = some result)
    (keeps : forall rest, replacement.flagAt rest = target.flagAt rest) (other : Path) :
    result.flagAt other = root.flagAt other := by
  induction path generalizing root result other with
  | nil =>
      cases eq_of_at?_nil found
      cases eq_of_replace?_nil replaced
      exact keeps other
  | cons index path inductionHypothesis =>
      rcases replace?_cons_eq_some_iff.mp replaced with
        ⟨conclusion, step, proved, premises, position, premise, changed, rfl, rfl, atPosition,
          below, rfl⟩
      rw [at?_node_cons, atPosition] at found
      cases other with
      | nil => rfl
      | cons otherIndex rest =>
          rw [flagAt, flagAt, at?_set_cons _ _ _ _ atPosition]
          split
          · rename_i through
            subst through
            rw [at?_node_cons, atPosition]
            exact inductionHypothesis found below rest
          · rfl

/-- Replacing a node outdates the flags that are outdated inside of the replacement, and
the flag right above it if the node there relied on assertions that are no longer there. -/
theorem outdated_of_replace?_iff (found : root.at? path = some target)
    (replaced : root.replace? path replacement = some result) (other : Path) :
    Outdated root result other ↔
      (∃ rest, other = path ++ rest ∧ Outdated target replacement rest) ∨
        Undermined root path target replacement other := by
  induction path generalizing root result other with
  | nil =>
      cases eq_of_at?_nil found
      cases eq_of_replace?_nil replaced
      constructor
      · intro outdated
        exact Or.inl ⟨other, rfl, outdated⟩
      · rintro (⟨rest, rfl, outdated⟩ | ⟨index, _, isPath, _⟩)
        · exact outdated
        · exact absurd isPath.symm (List.append_ne_nil_of_right_ne_nil _ (List.cons_ne_nil _ _))
  | cons index path inductionHypothesis =>
      rcases replace?_cons_eq_some_iff.mp replaced with
        ⟨conclusion, step, proved, premises, position, premise, changed, rfl, rfl, atPosition,
          below, rfl⟩
      rw [at?_node_cons, atPosition] at found
      cases other with
      | nil =>
          have presentBefore : premise ≠ .missing := by
            rintro rfl
            rw [Option.bind_some, at?_missing] at found
            cases found
          have sameIff := sameValues_obligations_set_iff conclusion step proved changed atPosition
            presentBefore (ne_missing_of_replace? below)
          rw [outdated_nil_iff sameIff rfl rfl]
          cases path with
          | nil =>
              cases eq_of_at?_nil found
              cases eq_of_replace?_nil below
              constructor
              · rintro ⟨isProved, raises, differ⟩
                exact Or.inr ⟨position, _, rfl, rfl, isProved, raises, differ⟩
              · rintro (⟨rest, isPath, _⟩ | ⟨_, above, _, foundAbove, isProved, raises, differ⟩)
                · cases isPath
                · cases foundAbove
                  exact ⟨isProved, raises, differ⟩
          | cons next path =>
              -- The replaced node is too deep to be seen from here.
              have same := sameAssertions_of_replace?_cons below
              refine iff_of_false (fun undermined => undermined.2.2 same) ?_
              rintro (⟨rest, isPath, _⟩ | ⟨_, _, isPath, _⟩)
              · cases isPath
              · cases isPath
      | cons otherIndex rest =>
          rw [outdated_cons_iff _ _ _ _ atPosition, inductionHypothesis found below]
          constructor
          · rintro ⟨rfl, ⟨inside, rfl, outdated⟩ | ⟨last, above, rfl, foundAbove, relies⟩⟩
            · exact Or.inl ⟨inside, rfl, outdated⟩
            · refine Or.inr ⟨last, above, rfl, ?_, relies⟩
              rw [at?_node_cons, atPosition]
              exact foundAbove
          · rintro (⟨inside, isPath, outdated⟩ | ⟨last, above, isPath, foundAbove, relies⟩)
            · cases isPath
              exact ⟨rfl, Or.inl ⟨inside, rfl, outdated⟩⟩
            · cases isPath
              rw [at?_node_cons, atPosition] at foundAbove
              exact ⟨rfl, Or.inr ⟨last, above, rfl, foundAbove, relies⟩⟩

end Replacing

/-! ## Changing a node -/

variable {root target : Derivation} {path : Path} {change : Derivation -> Option Derivation}

theorem updated_of_at?_eq_none (nowhere : root.at? path = none) :
    root.updated path change = root := by
  simp only [updated, update?, nowhere, Option.getD_none]

/-- Changing a node puts the changed node in its place. -/
theorem replace?_revised (found : root.at? path = some target) :
    root.replace? path (target.revised change) = some (root.updated path change) := by
  have unchanged := replace?_self found
  simp only [updated, revised, update?, found]
  cases change target with
  | none =>
      cases path <;> simp [unchanged]
  | some changed =>
      cases changed with
      | missing => simp [replace?_missing, unchanged, present?]
      | node conclusion step proved premises =>
          rcases exists_replace? found
            (Derivation.noConfusion : Derivation.node conclusion step proved premises ≠ .missing)
            with ⟨result, replaced⟩
          simp [replaced, present?]

/-- The flags of a derivation are outdated at a path after a change exactly when they are
outdated inside of the changed node, or the node right above it is undermined. -/
theorem outdated_updated_iff (other : Path) :
    Outdated root (root.updated path change) other ↔
      ∃ target, root.at? path = some target ∧
        ((∃ rest, other = path ++ rest ∧ Outdated target (target.revised change) rest) ∨
          Undermined root path target (target.revised change) other) := by
  cases found : root.at? path with
  | none =>
      rw [updated_of_at?_eq_none found]
      refine iff_of_false (not_outdated_of_at?_eq rfl) ?_
      rintro ⟨_, isTarget, _⟩
      cases isTarget
  | some target =>
      rw [outdated_of_replace?_iff found (replace?_revised found)]
      simp only [Option.some.injEq, exists_eq_left']

/-! ## Other assertions -/

/-- Gives a node other assertions, and nothing else. -/
def reworded (pre post : Expr) : Derivation -> Option Derivation
  | .missing => none
  | .node conclusion step proved premises =>
      some (.node ⟨pre, conclusion.stmt, post⟩ step proved premises)

theorem flagAt_reworded (target : Derivation) (pre post : Expr) (path : Path) :
    (target.revised (reworded pre post)).flagAt path = target.flagAt path := by
  cases target with
  | missing => rfl
  | node conclusion step proved premises =>
      cases path with
      | nil => rfl
      | cons index path => cases index <;> rfl

theorem sameValues_obligations_reworded_iff (target : Derivation) (pre post : Expr) :
    Obligation.sameValues (target.revised (reworded pre post)).obligations target.obligations =
        true ↔
      target.obligations = [] ∨ SameAssertions target (target.revised (reworded pre post)) := by
  cases target with
  | missing => exact iff_of_true rfl (Or.inl rfl)
  | node conclusion step proved premises =>
      by_cases single : premises.length = 1
      · rcases List.length_eq_one_iff.mp single with ⟨only, rfl⟩
        cases only with
        | missing => exact iff_of_true rfl (Or.inl rfl)
        | node premise premiseStep premiseProved below =>
            cases isConsequence : step.isConsequence <;>
              simp [revised, reworded, present?, obligations, isConsequence, SameAssertions,
                conclusion?, Obligation.sameValues, Obligation.sameValue]
      · refine iff_of_true ?_ (Or.inl (obligations_of_length_ne single))
        rw [obligations_of_length_ne single]
        exact congrArg (Obligation.sameValues · []) (obligations_of_length_ne single)

/-- Other assertions can outdate the flag of the node itself, but no flag below it. -/
theorem outdated_reworded_iff (target : Derivation) (pre post : Expr) (path : Path) :
    Outdated target (target.revised (reworded pre post)) path ↔
      path = [] ∧ target.isProved = true ∧ target.obligations ≠ [] ∧
        ¬ SameAssertions target (target.revised (reworded pre post)) := by
  cases target with
  | missing =>
      refine iff_of_false (not_outdated_of_at?_eq rfl) ?_
      rintro ⟨_, isProved, _⟩
      cases isProved
  | node conclusion step proved premises =>
      cases path with
      | cons index path =>
          refine iff_of_false (not_outdated_of_at?_eq ?_) (fun both => nomatch both.1)
          cases index <;> rfl
      | nil =>
          rw [outdated_nil_iff (sameValues_obligations_reworded_iff _ pre post) rfl rfl]
          exact (and_iff_right rfl).symm

/-- Other assertions outdate at most two flags, that of the node and that of the node right
above it.  Each of them is outdated exactly when it is set for side conditions and an
assertion changes its value. -/
theorem outdated_updated_reworded_iff (root : Derivation) (path : Path) (pre post : Expr)
    (other : Path) :
    Outdated root (root.updated path (reworded pre post)) other ↔
      ∃ target reliant, root.at? path = some target ∧ root.at? other = some reliant ∧
        (path = other ∨ ∃ index, path = other ++ [index]) ∧ reliant.isProved = true ∧
          reliant.obligations ≠ [] ∧
            ¬ SameAssertions target (target.revised (reworded pre post)) := by
  rw [outdated_updated_iff]
  constructor
  · rintro ⟨target, found, ⟨rest, rfl, outdated⟩ | ⟨index, above, rfl, foundAbove, relies⟩⟩
    · rcases (outdated_reworded_iff target pre post rest).mp outdated with ⟨rfl, relies⟩
      rw [List.append_nil]
      exact ⟨target, target, found, found, Or.inl rfl, relies⟩
    · exact ⟨target, above, found, foundAbove, Or.inr ⟨index, rfl⟩, relies⟩
  · rintro ⟨target, reliant, found, foundReliant, rfl | ⟨index, rfl⟩, relies⟩
    · cases found.symm.trans foundReliant
      refine ⟨target, found, Or.inl ⟨[], (List.append_nil _).symm, ?_⟩⟩
      exact (outdated_reworded_iff target pre post []).mpr ⟨rfl, relies⟩
    · exact ⟨target, found, Or.inr ⟨index, reliant, rfl, foundReliant, relies⟩⟩

/-- A session keeps what a change of its root gives. -/
theorem root_of_session_update? {session : Session} (isRoot : session.root = some root) :
    ((session.update? path change).getD session).root = some (root.updated path change) := by
  simp only [Session.update?, Session.edit?, isRoot, updated]
  cases root.update? path change with
  | none => exact isRoot
  | some result => rfl

/-- A change that does not itself touch flags keeps every flag of the derivation, also those
whose side conditions it changes.  Outdated are exactly the flags inside of the changed
node whose side conditions the change itself makes new, and the flag right above the
changed node if it is set for side conditions and the changed node has other assertions.
The root of a session is changed in the same way. -/
theorem update_outdates_iff (root : Derivation) (path : Path)
    (change : Derivation -> Option Derivation)
    (keeps : forall target, root.at? path = some target ->
      forall rest, (target.revised change).flagAt rest = target.flagAt rest) :
    (forall other, (root.updated path change).flagAt other = root.flagAt other) ∧
      (forall other, Outdated root (root.updated path change) other ↔
        ∃ target, root.at? path = some target ∧
          ((∃ rest, other = path ++ rest ∧ Outdated target (target.revised change) rest) ∨
            Undermined root path target (target.revised change) other)) ∧
      forall session : Session, session.root = some root ->
        ((session.update? path change).getD session).root = some (root.updated path change) := by
  refine ⟨?_, outdated_updated_iff, fun session => root_of_session_update?⟩
  intro other
  cases found : root.at? path with
  | none => rw [updated_of_at?_eq_none found]
  | some target => exact flagAt_of_replace? found (replace?_revised found) (keeps target found) other

/-- Writes a constant in the precondition of the body of the countdown as a double. -/
def respelled : Derivation -> Option Derivation :=
  reworded (.conj (atLeastConst 0) (.binary .atLeast (.var "x") (.const unitDouble)))
    (atLeastConst 0)

/-- Another spelling of a precondition keeps the flag of the body, and outdates none. -/
theorem countdown_respelled_current :
    countdown.updated [0] respelled ≠ countdown ∧
      (countdown.updated [0] respelled).flagAt [0] = true ∧
        forall other, ¬ Outdated countdown (countdown.updated [0] respelled) other := by
  rcases update_outdates_iff countdown [0] respelled (fun target _ => flagAt_reworded target _ _)
    with ⟨sameFlags, outdatedIff, _⟩
  refine ⟨by decide +kernel, sameFlags [0], ?_⟩
  intro other outdated
  rcases (outdatedIff other).mp outdated with ⟨target, found, inside | above⟩
  · rcases inside with ⟨rest, _, outdatedInside⟩
    rcases (outdated_reworded_iff target _ _ rest).mp outdatedInside with ⟨_, _, _, differ⟩
    cases found
    exact differ ⟨_, _, rfl, rfl, by decide +kernel, by decide +kernel⟩
  · rcases above with ⟨_, _, _, _, _, _, differ⟩
    cases found
    exact differ ⟨_, _, rfl, rfl, by decide +kernel, by decide +kernel⟩

/-! ## A flag for the wrong side conditions -/

/-- A step of consequence that was rightly marked as proved. -/
def assured : Derivation :=
  .node ⟨atLeastConst 1, .skip, atLeastConst 0⟩ (.applied .consequence) true [
    .node ⟨atLeastConst 0, .skip, atLeastConst 0⟩ (.applied .skip) false []]

/-- The same step after its precondition has been taken away. -/
def unguarded : Derivation :=
  assured.updated [] (reworded (.truth true) (atLeastConst 0))

theorem not_correct_skip :
    ¬ Evaluation.arithmetic.Correct ⟨.truth true, .skip, atLeastConst 0⟩ := by
  intro correct
  have satisfied := correct (fun _ => -1) (fun _ => -1) ((truthRational_ne_zero true).mpr rfl) .skip
  have bound : ((0 : Int) : ℚ) ≤ -1 :=
    (Evaluation.arithmetic_satisfies_atLeast _ _ _).mp satisfied
  norm_num at bound

/-- Taking the precondition away touches no flag, but it outdates one.  The derivation is
still accepted, and it derives a triple that is not correct.  The flag is outdated as well
when the premise gets other assertions. -/
theorem assured_outdated :
    (forall other, unguarded.flagAt other = assured.flagAt other) ∧
      Outdated assured unguarded [] ∧ isValid .full unguarded = true ∧
      unguarded.conclusion? = some ⟨.truth true, .skip, atLeastConst 0⟩ ∧
      ¬ Evaluation.arithmetic.Correct ⟨.truth true, .skip, atLeastConst 0⟩ ∧
      Outdated assured (assured.updated [0] (reworded (atLeastConst 2) (atLeastConst 2))) [] := by
  refine ⟨flagAt_reworded assured _ _, ?_, by decide +kernel, rfl, not_correct_skip, ?_⟩
  · apply (outdated_updated_reworded_iff _ _ _ _ _).mpr
    refine ⟨_, _, rfl, rfl, Or.inl rfl, rfl, List.cons_ne_nil _ _, ?_⟩
    rintro ⟨_, _, isOld, isNew, samePre, _⟩
    cases isOld
    cases isNew
    cases samePre
  · apply (outdated_updated_reworded_iff _ _ _ _ _).mpr
    refine ⟨_, _, rfl, rfl, Or.inr ⟨0, rfl⟩, rfl, List.cons_ne_nil _ _, ?_⟩
    rintro ⟨_, _, isOld, isNew, samePre, _⟩
    cases isOld
    cases isNew
    revert samePre
    decide

end Derivation
end HoareProof
