import HoareProof.Proofs.Arithmetic
import HoareProof.Proofs.Equivalence
import HoareProof.Proofs.Rules
import Mathlib.Tactic.Linarith

namespace HoareProof

/-!
Soundness of the checker.  A derivation that the checker accepts, with boundaries
compared by shape and loop exits checked, derives only triples that are correct for
every evaluation, as long as the implications of its consequence steps hold in every
store.  Each rule is sound on its own; the derivation then follows by induction over
its nodes.

The recorded flags are not trusted for this: the implications are a hypothesis about
the evaluation, and a flag only says that somebody has answered for them.
-/

universe u

namespace Evaluation

variable {Value : Type u} {evaluation : Evaluation Value}

/-! ## The rules one by one -/

theorem correct_skip {pre post : Expr} (same : pre.sameShape post = true) :
    evaluation.Correct ⟨pre, .skip, post⟩ := by
  intro start final satisfied executes
  cases executes
  exact (satisfies_iff_of_sameShape same start).mp satisfied

theorem correct_assign {pre post value : Expr} {target : String}
    (complete : post.isComplete = true)
    (same : pre.sameShape (post.subst target value) = true) :
    evaluation.Correct ⟨pre, .assign .complete target value, post⟩ := by
  intro start final satisfied executes
  cases executes
  have substituted := (satisfies_iff_of_sameShape same start).mp satisfied
  have numeric := Expr.isNumeric_of_subst (Expr.isNumeric_of_sameShape same).2
  rw [Satisfies, eval_subst complete numeric] at substituted
  exact substituted

theorem correct_sequence {pre post : Expr} {first second : Stmt} {left right : Triple}
    (sameFirst : left.stmt.sameValue first = true)
    (sameSecond : right.stmt.sameValue second = true)
    (starts : left.pre.sameShape pre = true)
    (meets : left.post.sameShape right.pre = true)
    (ends : right.post.sameShape post = true)
    (leftCorrect : evaluation.Correct left) (rightCorrect : evaluation.Correct right) :
    evaluation.Correct ⟨pre, .seq .complete first second, post⟩ := by
  intro start final satisfied executes
  cases executes with
  | @seq _ _ _ middle _ firstExecutes secondExecutes =>
      have leftPre := (satisfies_iff_of_sameShape starts start).mpr satisfied
      have leftPost := leftCorrect start middle leftPre
        (executes_of_sameValue firstExecutes sameFirst)
      have rightPre := (satisfies_iff_of_sameShape meets middle).mp leftPost
      have rightPost := rightCorrect middle final rightPre
        (executes_of_sameValue secondExecutes sameSecond)
      exact (satisfies_iff_of_sameShape ends final).mp rightPost

theorem satisfies_of_sameShape_conj {boundary left right : Expr}
    (same : boundary.sameShape (.conj left right) = true) {store : Store Value}
    (leftHolds : evaluation.Satisfies store left)
    (rightHolds : evaluation.Satisfies store right) : evaluation.Satisfies store boundary :=
  (satisfies_iff_of_sameShape same store).mpr
    ((evaluation.conj_holds left right store).mpr ⟨leftHolds, rightHolds⟩)

theorem correct_conditional {pre post guard : Expr} {thenBranch elseBranch : Stmt}
    {left right : Triple}
    (sameThen : left.stmt.sameValue thenBranch = true)
    (sameElse : right.stmt.sameValue elseBranch = true)
    (thenStarts : left.pre.sameShape (.conj pre guard) = true)
    (elseStarts : right.pre.sameShape (.conj pre (.negate guard)) = true)
    (thenEnds : left.post.sameShape post = true)
    (elseEnds : right.post.sameShape post = true)
    (leftCorrect : evaluation.Correct left) (rightCorrect : evaluation.Correct right) :
    evaluation.Correct ⟨pre, .cond .complete guard thenBranch elseBranch, post⟩ := by
  intro start final satisfied executes
  cases executes with
  | condTrue guardHolds branchExecutes =>
      have branchPre := satisfies_of_sameShape_conj thenStarts satisfied guardHolds
      have branchPost := leftCorrect start final branchPre
        (executes_of_sameValue branchExecutes sameThen)
      exact (satisfies_iff_of_sameShape thenEnds final).mp branchPost
  | condFalse guardFails branchExecutes =>
      have negated := (evaluation.negate_holds guard start).mpr guardFails
      have branchPre := satisfies_of_sameShape_conj elseStarts satisfied negated
      have branchPost := rightCorrect start final branchPre
        (executes_of_sameValue branchExecutes sameElse)
      exact (satisfies_iff_of_sameShape elseEnds final).mp branchPost

/-- An assertion that the body of a loop keeps whenever the guard holds is kept by
the loop, and the guard fails at its end.  The induction is on the execution of the
loop. -/
theorem loop_keeps {invariant guard : Expr} {body : Stmt}
    (keeps : forall start final, evaluation.Satisfies start invariant ->
      evaluation.Satisfies start guard -> evaluation.Executes body start final ->
        evaluation.Satisfies final invariant)
    {start final : Store Value}
    (executes : evaluation.Executes (.loop .complete guard body) start final)
    (satisfied : evaluation.Satisfies start invariant) :
    evaluation.Satisfies final invariant ∧ ¬ evaluation.Satisfies final guard := by
  generalize shape : Stmt.loop .complete guard body = stmt at executes
  induction executes with
  | skip => cases shape
  | assign => cases shape
  | seq => cases shape
  | condTrue => cases shape
  | condFalse => cases shape
  | loopDone guardFails =>
      cases shape
      exact ⟨satisfied, guardFails⟩
  | loopAgain guardHolds bodyExecutes _ _ inductionHypothesis =>
      cases shape
      exact inductionHypothesis (keeps _ _ satisfied guardHolds bodyExecutes) rfl

theorem correct_loop {pre post guard : Expr} {body : Stmt} {premise : Triple}
    (sameBody : premise.stmt.sameValue body = true)
    (starts : premise.pre.sameShape (.conj pre guard) = true)
    (ends : premise.post.sameShape pre = true)
    (exits : Derivation.isLoopExit .structural pre guard post = true)
    (premiseCorrect : evaluation.Correct premise) :
    evaluation.Correct ⟨pre, .loop .complete guard body, post⟩ := by
  intro start final satisfied executes
  have kept : evaluation.Satisfies final pre ∧ ¬ evaluation.Satisfies final guard := by
    apply loop_keeps _ executes satisfied
    intro before after invariantHolds guardHolds bodyExecutes
    have bodyPre := satisfies_of_sameShape_conj starts invariantHolds guardHolds
    have bodyPost := premiseCorrect before after bodyPre
      (executes_of_sameValue bodyExecutes sameBody)
    exact (satisfies_iff_of_sameShape ends after).mp bodyPost
  have negated := (evaluation.negate_holds guard final).mpr kept.2
  rcases Bool.or_eq_true_iff.mp exits with invariantFirst | guardFirst
  · exact satisfies_of_sameShape_conj invariantFirst kept.1 negated
  · exact satisfies_of_sameShape_conj guardFirst negated kept.1

theorem correct_consequence {conclusion premise : Triple} {preName postName : String}
    (sameStmt : premise.stmt.sameValue conclusion.stmt = true)
    (strengthens : evaluation.Entails ⟨preName, conclusion.pre, premise.pre⟩)
    (weakens : evaluation.Entails ⟨postName, premise.post, conclusion.post⟩)
    (premiseCorrect : evaluation.Correct premise) : evaluation.Correct conclusion := by
  intro start final satisfied executes
  have premisePost := premiseCorrect start final (strengthens start satisfied)
    (executes_of_sameValue executes sameStmt)
  exact weakens final premisePost

end Evaluation

namespace Derivation

variable {Value : Type u}

/-- The strictness under which a valid derivation is a proof. -/
def Strictness.full : Strictness := ⟨.structural, true⟩

/-- The side conditions of a node hold in every store. -/
def SideConditionsHold (evaluation : Evaluation Value) (node : Derivation) : Prop :=
  forall obligation, obligation ∈ node.obligations -> evaluation.Entails obligation

/-- A justified step derives a correct triple from premises with correct triples. -/
theorem Justified.correct {evaluation : Evaluation Value} {conclusion : Triple} {step : Step}
    {proved : Bool} {premises : List Derivation}
    (justified : Justified .full (.node conclusion step proved premises))
    (complete : conclusion.post.isComplete = true)
    (entailed : SideConditionsHold evaluation (.node conclusion step proved premises))
    (premisesCorrect : forall premise, premise ∈ premises -> forall triple,
      premise.conclusion? = some triple -> evaluation.Correct triple) :
    evaluation.Correct conclusion := by
  cases justified with
  | skip same => exact Evaluation.correct_skip same
  | assign same => exact Evaluation.correct_assign complete same
  | sequence sameFirst sameSecond starts meets ends =>
      have leftCorrect := premisesCorrect _ List.mem_cons_self _ rfl
      have rightCorrect := premisesCorrect _ (List.mem_cons_of_mem _ List.mem_cons_self) _ rfl
      exact Evaluation.correct_sequence sameFirst sameSecond starts meets ends
        leftCorrect rightCorrect
  | conditional sameThen sameElse thenStarts elseStarts thenEnds elseEnds =>
      have leftCorrect := premisesCorrect _ List.mem_cons_self _ rfl
      have rightCorrect := premisesCorrect _ (List.mem_cons_of_mem _ List.mem_cons_self) _ rfl
      exact Evaluation.correct_conditional sameThen sameElse thenStarts elseStarts
        thenEnds elseEnds leftCorrect rightCorrect
  | loop sameBody starts ends exits =>
      have premiseCorrect := premisesCorrect _ List.mem_cons_self _ rfl
      exact Evaluation.correct_loop sameBody starts ends (exits rfl) premiseCorrect
  | consequence sameStmt =>
      have premiseCorrect := premisesCorrect _ List.mem_cons_self _ rfl
      have strengthens := entailed _ List.mem_cons_self
      have weakens := entailed _ (List.mem_cons_of_mem _ List.mem_cons_self)
      exact Evaluation.correct_consequence sameStmt strengthens weakens premiseCorrect

/-- Whatever a valid derivation of complete assertions derives is correct, for every
evaluation in which the side conditions of all its nodes hold. -/
theorem isValid_sound (evaluation : Evaluation Value) (root : Derivation)
    (complete : Everywhere (fun node => node.hasCompleteAssertions = true) root)
    (valid : isValid .full root = true)
    (entailed : Everywhere (SideConditionsHold evaluation) root) (conclusion : Triple)
    (derived : root.conclusion? = some conclusion) : evaluation.Correct conclusion := by
  induction root using nodeInduction generalizing conclusion with
  | missing => cases derived
  | node triple step proved premises inductionHypothesis =>
      cases derived
      have accepted := (isValid_node_iff _ _ _ _ _).mp valid
      have assertions := Bool.and_eq_true_iff.mp complete.root
      apply accepted.1.correct assertions.2 entailed.root
      intro premise member derivedTriple derivedPremise
      exact inductionHypothesis premise member (complete.premise member)
        (accepted.2 premise member) (entailed.premise member) derivedTriple derivedPremise

/-! ## A loop that counts down -/

/-- The double that is one. -/
def unitDouble : Number := .double (.finite false Binary64.unitsPerOne (by decide +kernel))

/-- The assertion that `x` is at least a constant. -/
def atLeastConst (bound : Int) : Expr :=
  .binary .atLeast (.var "x") (.const (.whole bound))

/-- Counting `x` down by a constant. -/
def countBy (amount : Number) : Stmt :=
  .assign .complete "x" (.binary .sub (.var "x") (.const amount))

/-- The derivation of a loop that counts `x` down while it is at least one.  The body
of the loop subtracts a whole one, and the derivation of the body a double. -/
def countdown : Derivation :=
  .node ⟨atLeastConst 0, .loop .complete (atLeastConst 1) (countBy (.whole 1)),
      .conj (atLeastConst 0) (.negate (atLeastConst 1))⟩ (.applied .loop) false [
    .node ⟨.conj (atLeastConst 0) (atLeastConst 1), countBy unitDouble, atLeastConst 0⟩
      (.applied .consequence) true [
      .node ⟨.binary .atLeast (.binary .sub (.var "x") (.const unitDouble)) (.const (.whole 0)),
        countBy unitDouble, atLeastConst 0⟩ (.applied .assign) false []]]

theorem countdown_complete :
    Everywhere (fun node => node.hasCompleteAssertions = true) countdown := by
  refine everywhere_node_iff.mpr ⟨rfl, ?_⟩
  intro body isBody
  cases List.mem_singleton.mp isBody
  refine everywhere_node_iff.mpr ⟨rfl, ?_⟩
  intro assignment isAssignment
  cases List.mem_singleton.mp isAssignment
  exact everywhere_node_iff.mpr ⟨rfl, fun _ member => absurd member List.not_mem_nil⟩

theorem countdown_strengthens : Evaluation.arithmetic.Entails ⟨"P_to_Pp",
    .conj (atLeastConst 0) (atLeastConst 1),
    .binary .atLeast (.binary .sub (.var "x") (.const unitDouble)) (.const (.whole 0))⟩ := by
  intro store satisfied
  have unit : unitDouble.rational = 1 :=
    Number.rational_eq_of_sameNumber (b := .whole 1) (by decide +kernel)
  have conjunct := ((Evaluation.arithmetic.conj_holds _ _ store).mp satisfied).2
  have bound : (1 : Int) ≤ store "x" :=
    (Evaluation.arithmetic_satisfies_atLeast store _ _).mp conjunct
  apply (Evaluation.arithmetic_satisfies_atLeast store _ _).mpr
  change ((0 : Int) : ℚ) ≤ store "x" - unitDouble.rational
  rw [unit]
  push_cast at bound ⊢
  linarith

theorem countdown_sideConditions :
    Everywhere (SideConditionsHold Evaluation.arithmetic) countdown := by
  refine everywhere_node_iff.mpr ⟨fun _ member => absurd member List.not_mem_nil, ?_⟩
  intro body isBody
  cases List.mem_singleton.mp isBody
  refine everywhere_node_iff.mpr ⟨?_, ?_⟩
  · intro obligation member
    rcases List.mem_cons.mp member with isPre | isPost
    · cases isPre
      exact countdown_strengthens
    · cases List.mem_singleton.mp isPost
      exact fun _ satisfied => satisfied
  · intro assignment isAssignment
    cases List.mem_singleton.mp isAssignment
    exact everywhere_node_iff.mpr ⟨fun _ member => absurd member List.not_mem_nil,
      fun _ member => absurd member List.not_mem_nil⟩

/-- Counting down from a number that is not negative ends between zero and one. -/
theorem countdown_correct :
    isValid .full countdown = true ∧ Evaluation.arithmetic.Correct
      ⟨atLeastConst 0, .loop .complete (atLeastConst 1) (countBy (.whole 1)),
        .conj (atLeastConst 0) (.negate (atLeastConst 1))⟩ :=
  ⟨by decide +kernel, isValid_sound Evaluation.arithmetic countdown countdown_complete
    (by decide +kernel) countdown_sideConditions _ rfl⟩

end Derivation
end HoareProof
