import HoareProof.Derivation.Check
import HoareProof.Proofs.Paths

namespace HoareProof
namespace Derivation

/-!
The rules of the logic as rules.  The checker names the first thing that is wrong
with a step; here a step is right when it has the form that its rule displays.
The two descriptions agree, for every strictness, so whatever is to be shown of
accepted steps can be shown rule by rule, without going through the order in which
the checker makes its comparisons.
-/

/-- A step that is an instance of its rule.  Nothing is said about the derivations
of its premises. -/
inductive Justified (strictness : Strictness) : Derivation -> Prop
  | skip {pre post : Expr} {proved : Bool} :
      pre.sameShape post = true ->
      Justified strictness (.node ⟨pre, .skip, post⟩ (.applied .skip) proved [])
  | assign {pre post value : Expr} {target : String} {proved : Bool} :
      pre.sameShape (post.subst target value) = true ->
      Justified strictness
        (.node ⟨pre, .assign .complete target value, post⟩ (.applied .assign) proved [])
  | sequence {pre post : Expr} {first second : Stmt} {left right : Triple}
      {leftStep rightStep : Step} {proved leftProved rightProved : Bool}
      {leftPremises rightPremises : List Derivation} :
      left.stmt.sameValue first = true ->
      right.stmt.sameValue second = true ->
      left.pre.sameShape pre = true ->
      left.post.sameShape right.pre = true ->
      right.post.sameShape post = true ->
      Justified strictness
        (.node ⟨pre, .seq .complete first second, post⟩ (.applied .sequence) proved
          [.node left leftStep leftProved leftPremises,
            .node right rightStep rightProved rightPremises])
  | conditional {pre post guard : Expr} {thenBranch elseBranch : Stmt} {left right : Triple}
      {leftStep rightStep : Step} {proved leftProved rightProved : Bool}
      {leftPremises rightPremises : List Derivation} :
      left.stmt.sameValue thenBranch = true ->
      right.stmt.sameValue elseBranch = true ->
      strictness.boundary.agree left.pre (.conj pre guard) = true ->
      strictness.boundary.agree right.pre (.conj pre (.negate guard)) = true ->
      strictness.boundary.agree left.post post = true ->
      strictness.boundary.agree right.post post = true ->
      Justified strictness
        (.node ⟨pre, .cond .complete guard thenBranch elseBranch, post⟩ (.applied .conditional)
          proved [.node left leftStep leftProved leftPremises,
            .node right rightStep rightProved rightPremises])
  | loop {pre post guard : Expr} {body : Stmt} {premise : Triple} {step : Step}
      {proved premiseProved : Bool} {premises : List Derivation} :
      premise.stmt.sameValue body = true ->
      strictness.boundary.agree premise.pre (.conj pre guard) = true ->
      strictness.boundary.agree premise.post pre = true ->
      (strictness.loopExit = true -> isLoopExit strictness.boundary pre guard post = true) ->
      Justified strictness
        (.node ⟨pre, .loop .complete guard body, post⟩ (.applied .loop) proved
          [.node premise step premiseProved premises])
  | consequence {conclusion premise : Triple} {step : Step} {premiseProved : Bool}
      {premises : List Derivation} :
      premise.stmt.sameValue conclusion.stmt = true ->
      Justified strictness
        (.node conclusion (.applied .consequence) true [.node premise step premiseProved premises])

/-- One comparison of the checker: a failed one gives its reason, and a passed one
leaves the result to the comparisons after it. -/
theorem comparison_eq_none_iff (passes : Bool) (reason : Reason) (rest : Option Reason) :
    (if !passes then some reason else rest) = none ↔ passes = true ∧ rest = none := by
  cases passes <;> simp

/-- The last comparison of a step. -/
theorem lastComparison_eq_none_iff (passes : Bool) (reason : Reason) :
    (if passes then none else some reason) = none ↔ passes = true := by
  cases passes <;> simp

/-- Nothing is wrong with two boundaries exactly when they agree, whether or not they can be
compared otherwise. -/
theorem Boundary.misfit?_eq_none_iff {boundary : Boundary} {a b : Expr} {reason : Reason} :
    boundary.misfit? a b reason = none ↔ boundary.agree a b = true := by
  unfold Boundary.misfit?
  cases boundary.agree a b <;> cases boundary.canCompare a b <;> simp

theorem Boundary.agree_normalized_iff {a b : Expr} :
    Boundary.normalized.agree a b = true ↔
      (a.isPrintable = true ∧ b.isPrintable = true) ∧
        Expr.normalizedText a.human = Expr.normalizedText b.human := by
  rw [Boundary.agree, Bool.and_eq_true, Bool.and_eq_true, beq_iff_eq]

section Inversion

variable {strictness : Strictness} {conclusion : Triple} {proved : Bool}
  {premises : List Derivation}

theorem justified_of_skipFailure (passed : skipFailure conclusion premises = none) :
    Justified strictness (.node conclusion (.applied .skip) proved premises) := by
  rcases conclusion with ⟨pre, stmt, post⟩
  unfold skipFailure at passed
  split at passed
  · rename_i shape
    cases premises with
    | cons premise rest => cases passed
    | nil =>
        cases shape
        exact .skip ((lastComparison_eq_none_iff _ _).mp passed)
  · cases passed

theorem justified_of_assignFailure (passed : assignFailure conclusion premises = none) :
    Justified strictness (.node conclusion (.applied .assign) proved premises) := by
  rcases conclusion with ⟨pre, stmt, post⟩
  unfold assignFailure at passed
  split at passed
  · rename_i target value shape
    cases premises with
    | cons premise rest => cases passed
    | nil =>
        cases shape
        exact .assign ((lastComparison_eq_none_iff _ _).mp passed)
  · cases passed

theorem sequenceBoundaries_eq_none_iff (left right : Triple) :
    sequenceBoundaries conclusion left right = none ↔
      left.pre.sameShape conclusion.pre = true ∧ left.post.sameShape right.pre = true ∧
        right.post.sameShape conclusion.post = true := by
  simp only [sequenceBoundaries, comparison_eq_none_iff, and_true]

theorem justified_of_sequenceFailure (passed : sequenceFailure conclusion premises = none) :
    Justified strictness (.node conclusion (.applied .sequence) proved premises) := by
  rcases conclusion with ⟨pre, stmt, post⟩
  unfold sequenceFailure at passed
  split at passed
  · rename_i first second shape
    split at passed
    · have compared := (comparison_eq_none_iff _ _ _).mp passed
      have statements := Bool.and_eq_true_iff.mp compared.1
      have boundaries := (sequenceBoundaries_eq_none_iff _ _).mp compared.2
      cases shape
      exact .sequence statements.1 statements.2 boundaries.1 boundaries.2.1 boundaries.2.2
    · split at passed <;> cases passed
    · cases passed
    · cases passed
  · cases passed

theorem branchBoundaries_eq_none_iff (boundary : Boundary) (guard : Expr) (left right : Triple) :
    branchBoundaries boundary guard conclusion left right = none ↔
      boundary.agree left.pre (.conj conclusion.pre guard) = true ∧
        boundary.agree right.pre (.conj conclusion.pre (.negate guard)) = true ∧
          boundary.agree left.post conclusion.post = true ∧
            boundary.agree right.post conclusion.post = true := by
  simp [branchBoundaries, Boundary.misfit?_eq_none_iff]

theorem justified_of_conditionalFailure
    (passed : conditionalFailure strictness.boundary conclusion premises = none) :
    Justified strictness (.node conclusion (.applied .conditional) proved premises) := by
  rcases conclusion with ⟨pre, stmt, post⟩
  unfold conditionalFailure at passed
  split at passed
  · rename_i guard thenBranch elseBranch shape
    split at passed
    · have compared := (comparison_eq_none_iff _ _ _).mp passed
      have statements := Bool.and_eq_true_iff.mp compared.1
      have boundaries := (branchBoundaries_eq_none_iff _ _ _ _).mp compared.2
      cases shape
      exact .conditional statements.1 statements.2 boundaries.1 boundaries.2.1
        boundaries.2.2.1 boundaries.2.2.2
    · split at passed <;> cases passed
    · cases passed
    · cases passed
  · cases passed

theorem exitMisfit?_eq_none_iff {boundary : Boundary} {invariant guard post : Expr} :
    exitMisfit? boundary invariant guard post = none ↔
      isLoopExit boundary invariant guard post = true := by
  unfold exitMisfit?
  cases exits : isLoopExit boundary invariant guard post with
  | true => simp
  | false =>
      have differs : boundary.agree post (.conj invariant (.negate guard)) = false :=
        (Bool.or_eq_false_iff.mp exits).1
      simp [Boundary.misfit?_eq_none_iff, differs]

theorem loopBoundaries_eq_none_iff (guard : Expr) (body : Triple) :
    loopBoundaries strictness guard conclusion body = none ↔
      strictness.boundary.agree body.pre (.conj conclusion.pre guard) = true ∧
        strictness.boundary.agree body.post conclusion.pre = true ∧
          (strictness.loopExit = true ->
            isLoopExit strictness.boundary conclusion.pre guard conclusion.post = true) := by
  unfold loopBoundaries
  cases strictness.loopExit <;> simp [Boundary.misfit?_eq_none_iff, exitMisfit?_eq_none_iff]

theorem justified_of_loopFailure (passed : loopFailure strictness conclusion premises = none) :
    Justified strictness (.node conclusion (.applied .loop) proved premises) := by
  rcases conclusion with ⟨pre, stmt, post⟩
  unfold loopFailure at passed
  split at passed
  · rename_i guard body shape
    split at passed
    · have compared := (comparison_eq_none_iff _ _ _).mp passed
      have boundaries := (loopBoundaries_eq_none_iff _ _).mp compared.2
      cases shape
      exact .loop compared.1 boundaries.1 boundaries.2.1 boundaries.2.2
    · cases passed
    · cases passed
  · cases passed

theorem justified_of_consequenceFailure
    (passed : consequenceFailure conclusion proved premises = none) :
    Justified strictness (.node conclusion (.applied .consequence) proved premises) := by
  unfold consequenceFailure at passed
  split at passed
  · have compared := (comparison_eq_none_iff _ _ _).mp passed
    have flagged := (lastComparison_eq_none_iff _ _).mp compared.2
    cases flagged
    exact .consequence compared.1
  · cases passed
  · cases passed

end Inversion

/-- The checker finds nothing wrong with a step exactly when the step is an
instance of its rule. -/
theorem localFailure_eq_none_iff (strictness : Strictness) (node : Derivation) :
    localFailure strictness node = none ↔ Justified strictness node := by
  constructor
  · intro passed
    cases node with
    | missing => cases passed
    | node conclusion step proved premises =>
        cases step with
        | pending => cases passed
        | unrecognised name => cases passed
        | applied rule =>
            cases rule with
            | skip => exact justified_of_skipFailure passed
            | assign => exact justified_of_assignFailure passed
            | sequence => exact justified_of_sequenceFailure passed
            | conditional => exact justified_of_conditionalFailure passed
            | loop => exact justified_of_loopFailure passed
            | consequence => exact justified_of_consequenceFailure passed
  · intro justified
    cases justified with
    | skip same => exact (lastComparison_eq_none_iff _ _).mpr same
    | assign same => exact (lastComparison_eq_none_iff _ _).mpr same
    | sequence first second start middle final =>
        exact (comparison_eq_none_iff _ _ _).mpr ⟨Bool.and_eq_true_iff.mpr ⟨first, second⟩,
          (sequenceBoundaries_eq_none_iff _ _).mpr ⟨start, middle, final⟩⟩
    | conditional first second thenPre elsePre thenPost elsePost =>
        exact (comparison_eq_none_iff _ _ _).mpr ⟨Bool.and_eq_true_iff.mpr ⟨first, second⟩,
          (branchBoundaries_eq_none_iff _ _ _ _).mpr ⟨thenPre, elsePre, thenPost, elsePost⟩⟩
    | loop body bodyPre bodyPost exit =>
        exact (comparison_eq_none_iff _ _ _).mpr ⟨body,
          (loopBoundaries_eq_none_iff _ _).mpr ⟨bodyPre, bodyPost, exit⟩⟩
    | consequence same => exact (comparison_eq_none_iff _ _ _).mpr ⟨same, rfl⟩

/-- A valid derivation is one whose steps are all justified, premises included. -/
theorem isValid_node_iff (strictness : Strictness) (conclusion : Triple) (step : Step)
    (proved : Bool) (premises : List Derivation) :
    isValid strictness (.node conclusion step proved premises) = true ↔
      Justified strictness (.node conclusion step proved premises) ∧
        forall premise, premise ∈ premises -> isValid strictness premise = true := by
  have all : forall derivations : List Derivation, allValid strictness derivations = true ↔
      forall premise, premise ∈ derivations -> isValid strictness premise = true := by
    intro derivations
    induction derivations with
    | nil => simp [allValid]
    | cons derivation rest inductionHypothesis => simp [allValid, inductionHypothesis]
  rw [isValid, Bool.and_eq_true_iff, all, Option.isNone_iff_eq_none, localFailure_eq_none_iff]

theorem Justified.premise_present {strictness : Strictness} {conclusion : Triple} {step : Step}
    {proved : Bool} {premises : List Derivation}
    (justified : Justified strictness (.node conclusion step proved premises))
    {premise : Derivation} (member : premise ∈ premises) : premise ≠ .missing := by
  rintro rfl
  cases justified <;> simp at member

/-- A node is valid when every step in it is justified. -/
theorem isValid_iff_everywhere {strictness : Strictness} {root : Derivation}
    (present : root ≠ .missing) :
    root.isValid strictness = true ↔ Everywhere (Justified strictness) root := by
  induction root using nodeInduction with
  | missing => exact absurd rfl present
  | node conclusion step proved premises inductionHypothesis =>
      rw [isValid_node_iff, everywhere_node_iff]
      refine and_congr_right fun justified => forall_congr' fun premise =>
        forall_congr' fun member => ?_
      exact inductionHypothesis premise member (justified.premise_present member)

/-! ## Flags and failures -/

/-- Only the rule of consequence looks at the flag of its node. -/
theorem justified_iff_flag (strictness : Strictness) (conclusion : Triple) (step : Step)
    (proved : Bool) (premises : List Derivation) :
    Justified strictness (.node conclusion step proved premises) ↔
      Justified strictness (.node conclusion step true premises) ∧
        (step.isConsequence = true -> proved = true) := by
  constructor
  · intro justified
    cases justified with
    | skip same => exact ⟨.skip same, fun isConsequence => by cases isConsequence⟩
    | assign same => exact ⟨.assign same, fun isConsequence => by cases isConsequence⟩
    | sequence first second start middle final =>
        exact ⟨.sequence first second start middle final, fun isConsequence => by
          cases isConsequence⟩
    | conditional first second thenPre elsePre thenPost elsePost =>
        exact ⟨.conditional first second thenPre elsePre thenPost elsePost, fun isConsequence => by
          cases isConsequence⟩
    | loop body bodyPre bodyPost exit =>
        exact ⟨.loop body bodyPre bodyPost exit, fun isConsequence => by cases isConsequence⟩
    | consequence same => exact ⟨.consequence same, fun _ => rfl⟩
  · rintro ⟨justified, flagged⟩
    cases justified with
    | skip same => exact .skip same
    | assign same => exact .assign same
    | sequence first second start middle final => exact .sequence first second start middle final
    | conditional first second thenPre elsePre thenPost elsePost =>
        exact .conditional first second thenPre elsePre thenPost elsePost
    | loop body bodyPre bodyPost exit => exact .loop body bodyPre bodyPost exit
    | consequence same =>
        cases flagged rfl
        exact .consequence same

theorem eq_node_of_conclusion? {derivation : Derivation} {triple : Triple}
    (derives : derivation.conclusion? = some triple) :
    ∃ step proved premises, derivation = .node triple step proved premises := by
  cases derivation with
  | missing => cases derives
  | node conclusion step proved premises =>
      cases derives
      exact ⟨step, proved, premises, rfl⟩

/-- A step does not look further than at the triples of its premises. -/
theorem Justified.of_premises {strictness : Strictness} {conclusion : Triple} {step : Step}
    {proved : Bool} {premises others : List Derivation}
    (justified : Justified strictness (.node conclusion step proved premises))
    (same : others.map conclusion? = premises.map conclusion?) :
    Justified strictness (.node conclusion step proved others) := by
  cases justified with
  | skip sameAssertions =>
      cases List.map_eq_nil_iff.mp same
      exact .skip sameAssertions
  | assign sameAssertions =>
      cases List.map_eq_nil_iff.mp same
      exact .assign sameAssertions
  | sequence first second start middle final =>
      rcases List.map_eq_cons_iff.mp same with ⟨left, rest, rfl, isLeft, sameRest⟩
      rcases List.map_eq_singleton_iff.mp sameRest with ⟨right, rfl, isRight⟩
      rcases eq_node_of_conclusion? isLeft with ⟨_, _, _, rfl⟩
      rcases eq_node_of_conclusion? isRight with ⟨_, _, _, rfl⟩
      exact .sequence first second start middle final
  | conditional first second thenPre elsePre thenPost elsePost =>
      rcases List.map_eq_cons_iff.mp same with ⟨left, rest, rfl, isLeft, sameRest⟩
      rcases List.map_eq_singleton_iff.mp sameRest with ⟨right, rfl, isRight⟩
      rcases eq_node_of_conclusion? isLeft with ⟨_, _, _, rfl⟩
      rcases eq_node_of_conclusion? isRight with ⟨_, _, _, rfl⟩
      exact .conditional first second thenPre elsePre thenPost elsePost
  | loop body bodyPre bodyPost exit =>
      rcases List.map_eq_singleton_iff.mp same with ⟨premise, rfl, isPremise⟩
      rcases eq_node_of_conclusion? isPremise with ⟨_, _, _, rfl⟩
      exact .loop body bodyPre bodyPost exit
  | consequence sameStatement =>
      rcases List.map_eq_singleton_iff.mp same with ⟨premise, rfl, isPremise⟩
      rcases eq_node_of_conclusion? isPremise with ⟨_, _, _, rfl⟩
      exact .consequence sameStatement

theorem failureAt?_eq_none_iff (strictness : Strictness) {path : Path} {node : Derivation}
    (present : node ≠ .missing) :
    failureAt? strictness (path, node) = none ↔ Justified strictness node := by
  rw [← localFailure_eq_none_iff]
  cases node with
  | missing => exact absurd rfl present
  | node conclusion step proved premises => rw [failureAt?, Option.map_eq_none_iff]

/-- A node whose step is not justified is among the failures, under its own path. -/
theorem exists_failure {strictness : Strictness} {root node : Derivation} {path : Path}
    (found : root.at? path = some node) (unjustified : ¬ Justified strictness node) :
    ∃ failure, failure ∈ root.failures strictness ∧ failure.path = path := by
  have present := ne_missing_of_at? found
  cases fails : failureAt? strictness (path, node) with
  | none => exact absurd ((failureAt?_eq_none_iff strictness present).mp fails) unjustified
  | some failure =>
      refine ⟨failure, List.mem_filterMap.mpr ⟨(path, node), mem_walk_of_at? found, fails⟩, ?_⟩
      cases node with
      | missing => exact absurd rfl present
      | node conclusion step proved premises =>
          rcases Option.map_eq_some_iff.mp fails with ⟨reason, _, isFailure⟩
          rw [← isFailure]

/-- Nothing fails exactly when every step is justified. -/
theorem failures_eq_nil_iff (strictness : Strictness) (root : Derivation) :
    root.failures strictness = [] ↔ Everywhere (Justified strictness) root := by
  constructor
  · intro empty path node found
    have passes := List.filterMap_eq_nil_iff.mp empty (path, node) (mem_walk_of_at? found)
    exact (failureAt?_eq_none_iff strictness (ne_missing_of_at? found)).mp passes
  · intro everywhere
    apply List.filterMap_eq_nil_iff.mpr
    rintro ⟨path, node⟩ member
    have found := at?_of_mem_walk member
    cases node with
    | missing => rfl
    | node conclusion step proved premises =>
        exact (failureAt?_eq_none_iff strictness (by simp)).mpr (everywhere path _ found)

end Derivation
end HoareProof
