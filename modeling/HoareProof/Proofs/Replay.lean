import HoareProof.Proofs.Edits
import HoareProof.Proofs.Equivalence
import Mathlib.Data.List.Forall2

namespace HoareProof
namespace Derivation

/-!
Valid derivations are rebuilt by edits.  Walk through a valid derivation, and apply at
every node the rule that stands there, with the assertions that its first premise shows.
The checks leave no choice: the premises that a rule accepts are the ones it asks for,
except that a constant may be written as another constant of the same number.  So no edit
is rejected, and what is built has the value of what was walked through.  Only the flags
are not rebuilt, because every edit clears the flag of its node.

An edit below a premise does to the premise what it would do to it alone.  A walk goes
through the premises one after another, so they are rebuilt one after another as well.
-/

/-! ## Edits that are all accepted -/

/-- The root after several edits, if none of them is rejected. -/
def editAll? (root : Derivation) (edits : List Edit) : Option Derivation :=
  edits.foldlM edit? root

theorem editAll?_cons (root : Derivation) (edit : Edit) (edits : List Edit) :
    root.editAll? (edit :: edits) = (root.edit? edit).bind fun changed => changed.editAll? edits :=
  List.foldlM_cons

theorem editAll?_append (root : Derivation) (first second : List Edit) :
    root.editAll? (first ++ second) =
      (root.editAll? first).bind fun changed => changed.editAll? second :=
  List.foldlM_append

/-- The same edit of a premise. -/
def Edit.below (index : Nat) (edit : Edit) : Edit :=
  { edit with path := (index : Int) :: edit.path }

section

variable (conclusion : Triple) (step : Step) (proved : Bool) (before : List Derivation)
  (premise : Derivation) (after : List Derivation)

theorem at?_below (path : Path) :
    (Derivation.node conclusion step proved (before ++ premise :: after)).at?
      ((before.length : Int) :: path) = premise.at? path := by
  rw [at?_node_cons]
  simp

theorem replace?_below (path : Path) (replacement : Derivation) :
    (Derivation.node conclusion step proved (before ++ premise :: after)).replace?
      ((before.length : Int) :: path) replacement =
        (premise.replace? path replacement).map fun changed =>
          .node conclusion step proved (before ++ changed :: after) := by
  have isPremise : (Derivation.node conclusion step proved (before ++ premise :: after)).premise?
      (before.length : Int) = some premise := by
    change (before ++ premise :: after)[before.length]? = some premise
    simp
  simp only [replace?, isPremise]
  cases premise.replace? path replacement with
  | none => rfl
  | some changed => simp [premises, withPremises]

/-- An edit below a premise changes nothing but the premise. -/
theorem edit?_below (edit : Edit) :
    (Derivation.node conclusion step proved (before ++ premise :: after)).edit?
      (edit.below before.length) =
        (premise.edit? edit).map fun changed =>
          .node conclusion step proved (before ++ changed :: after) := by
  rcases edit with ⟨path, rule, given⟩
  cases rule with
  | none => rfl
  | some rule =>
      simp only [edit?, Edit.below, Option.bind_some, refine?, at?_below, replace?_below]
      cases premise.at? path with
      | none => rfl
      | some target =>
          cases target with
          | missing => rfl
          | node triple _ _ _ =>
              simp only
              cases expand? rule triple given <;> rfl

theorem editAll?_below (edits : List Edit) :
    (Derivation.node conclusion step proved (before ++ premise :: after)).editAll?
      (edits.map (Edit.below before.length)) =
        (premise.editAll? edits).map fun changed =>
          .node conclusion step proved (before ++ changed :: after) := by
  induction edits generalizing premise with
  | nil => rfl
  | cons edit edits inductionHypothesis =>
      rw [List.map_cons, editAll?_cons, editAll?_cons, edit?_below]
      cases premise.edit? edit with
      | none => rfl
      | some changed => exact inductionHypothesis changed

end

/-! ## Walks as edits -/

/-- The assertions that the step of a node was given, as its first premise shows them. -/
def shownInput : Derivation -> RuleInput
  | .node _ (.applied .sequence) _ (.node first _ _ _ :: _) => ⟨first.post, .hole, .hole⟩
  | .node _ (.applied .consequence) _ (.node first _ _ _ :: _) => ⟨.hole, first.pre, first.post⟩
  | _ => ⟨.hole, .hole, .hole⟩

/-- The rule that a node claims. -/
def rule? : Derivation -> Option Rule
  | .missing => none
  | .node _ step _ _ => step.rule?

/-- The edit that makes the step of a node again. -/
def redo (entry : Path × Derivation) : Edit :=
  ⟨entry.1, entry.2.rule?, entry.2.shownInput⟩

/-- The edits that make all steps of a derivation again, each before the steps of its
premises. -/
def redoAll (derivation : Derivation) : List Edit :=
  derivation.walk.map redo

mutual

/-- A derivation with no side conditions recorded as proved. -/
def unflagged : Derivation -> Derivation
  | .missing => .missing
  | .node conclusion step _ premises => .node conclusion step false (unflaggedAll premises)

/-- Derivations with no side conditions recorded as proved. -/
def unflaggedAll : List Derivation -> List Derivation
  | [] => []
  | derivation :: rest => derivation.unflagged :: unflaggedAll rest

end

theorem map_redo_walkPremises_cons (index : Nat) (premise : Derivation) (rest : List Derivation) :
    (walkPremises index (premise :: rest)).map redo =
      premise.redoAll.map (Edit.below index) ++ (walkPremises (index + 1) rest).map redo := by
  rw [walkPremises, List.map_append, redoAll, List.map_map, List.map_map]
  rfl

/-- A derivation is rebuilt, up to flags, from a triple that was asked for. -/
def Rebuilds (derivation : Derivation) (asked : Triple) : Prop :=
  ∃ result, (leaf asked).editAll? derivation.redoAll = some result ∧
    result.sameValue derivation.unflagged = true

/-- Premises that can be rebuilt one by one are rebuilt below their node. -/
theorem editAll?_walkPremises (conclusion : Triple) (step : Step) (proved : Bool)
    (before : List Derivation) {premises : List Derivation} {triples : List Triple}
    (rebuilds : List.Forall₂ Rebuilds premises triples) :
    ∃ results, (Derivation.node conclusion step proved (before ++ triples.map leaf)).editAll?
        ((walkPremises before.length premises).map redo) =
          some (.node conclusion step proved (before ++ results)) ∧
      sameValues results (unflaggedAll premises) = true := by
  induction rebuilds generalizing before with
  | nil => exact ⟨[], rfl, rfl⟩
  | @cons premise asked premises triples rebuildsFirst _ inductionHypothesis =>
      rcases rebuildsFirst with ⟨result, rebuilt, sameFirst⟩
      -- The rebuilt premise joins the ones before it.
      rcases inductionHypothesis (before ++ [result]) with ⟨results, rebuiltRest, sameRest⟩
      refine ⟨result :: results, ?_, ?_⟩
      · rw [map_redo_walkPremises_cons, editAll?_append, List.map_cons, editAll?_below, rebuilt]
        simpa using rebuiltRest
      · rw [unflaggedAll, sameValues, sameFirst, sameRest]
        rfl

/-! ## What a valid step leaves open -/

/-- A premise derives what was asked for, by value. -/
def Answers (premise : Derivation) (asked : Triple) : Prop :=
  ∃ triple, premise.conclusion? = some triple ∧ asked.sameValue triple = true

theorem answers_node {triple asked : Triple} {step : Step} {proved : Bool}
    {premises : List Derivation} (samePre : asked.pre.sameValue triple.pre = true)
    (sameStmt : asked.stmt.sameValue triple.stmt = true)
    (samePost : asked.post.sameValue triple.post = true) :
    Answers (.node triple step proved premises) asked :=
  ⟨triple, rfl, Triple.sameValue_iff.mpr ⟨samePre, sameStmt, samePost⟩⟩

/-- A justified step can be made again, and its premises derive what its rule asks for. -/
theorem Justified.expands {loopExit : Bool} {conclusion asked : Triple} {step : Step}
    {proved : Bool} {premises : List Derivation}
    (justified : Justified ⟨.structural, loopExit⟩ (.node conclusion step proved premises))
    (complete : forall premise, premise ∈ premises -> premise.hasCompleteAssertions = true)
    (same : asked.sameValue conclusion = true) :
    ∃ rule triples, step = .applied rule ∧
      Expands rule asked (shownInput (.node conclusion step proved premises)) triples ∧
        List.Forall₂ Answers premises triples := by
  rcases asked with ⟨pre', stmt', post'⟩
  rcases Triple.sameValue_iff.mp same with ⟨samePre, sameStmt, samePost⟩
  cases justified with
  | skip _ =>
      cases Stmt.eq_skip_of_sameValue sameStmt
      exact ⟨.skip, [], rfl, .skip, .nil⟩
  | assign _ =>
      rcases Stmt.exists_assign_of_sameValue sameStmt with ⟨value', rfl, _⟩
      exact ⟨.assign, [], rfl, .assign, .nil⟩
  | @sequence pre post first second left right _ _ _ _ _ _ _ isFirst isSecond start middle final =>
      rcases Stmt.exists_seq_of_sameValue sameStmt with
        ⟨first', second', rfl, sameFirst, sameSecond⟩
      have leftComplete := Bool.and_eq_true_iff.mp (complete _ List.mem_cons_self)
      refine ⟨.sequence, _, rfl, .sequence leftComplete.2, .cons ?_ (.cons ?_ .nil)⟩
      · exact answers_node (Expr.sameValue_of_commonShape samePre start)
          (Stmt.sameValue_of_common sameFirst isFirst) left.post.sameValue_refl
      · exact answers_node (Expr.sameValue_of_sameShape middle)
          (Stmt.sameValue_of_common sameSecond isSecond)
          (Expr.sameValue_of_commonShape samePost final)
  | conditional isThen isElse thenPre elsePre thenPost elsePost =>
      rcases Stmt.exists_cond_of_sameValue sameStmt with
        ⟨guard', then', else', rfl, sameGuard, sameThen, sameElse⟩
      have sameThenPre := Expr.sameValue_conj samePre sameGuard
      have sameElsePre := Expr.sameValue_conj samePre (Expr.sameValue_negate sameGuard)
      refine ⟨.conditional, _, rfl, .conditional, .cons ?_ (.cons ?_ .nil)⟩
      · exact answers_node (Expr.sameValue_of_commonShape sameThenPre thenPre)
          (Stmt.sameValue_of_common sameThen isThen) (Expr.sameValue_of_commonShape samePost thenPost)
      · exact answers_node (Expr.sameValue_of_commonShape sameElsePre elsePre)
          (Stmt.sameValue_of_common sameElse isElse) (Expr.sameValue_of_commonShape samePost elsePost)
  | loop isBody bodyPre bodyPost _ =>
      rcases Stmt.exists_loop_of_sameValue sameStmt with ⟨guard', body', rfl, sameGuard, sameBody⟩
      have sameBodyPre := Expr.sameValue_conj samePre sameGuard
      refine ⟨.loop, _, rfl, .loop, .cons ?_ .nil⟩
      exact answers_node (Expr.sameValue_of_commonShape sameBodyPre bodyPre)
        (Stmt.sameValue_of_common sameBody isBody) (Expr.sameValue_of_commonShape samePre bodyPost)
  | @consequence _ premise _ _ _ isStatement =>
      have premiseComplete := Bool.and_eq_true_iff.mp (complete _ List.mem_cons_self)
      refine ⟨.consequence, _, rfl, .consequence premiseComplete.1 premiseComplete.2,
        .cons ?_ .nil⟩
      exact answers_node premise.pre.sameValue_refl
        (Stmt.sameValue_of_common sameStmt isStatement) premise.post.sameValue_refl

/-! ## Rebuilding -/

/-- The first edit of a triple that was asked for. -/
theorem edit?_leaf {rule : Rule} {asked : Triple} {given : RuleInput} {triples : List Triple}
    (expands : Expands rule asked given triples) :
    (leaf asked).edit? ⟨[], some rule, given⟩ =
      some (.node asked (.applied rule) false (triples.map leaf)) := by
  apply edit?_eq_some_iff.mpr
  exact ⟨rule, rfl, refine?_eq_some_iff.mpr ⟨asked, _, _, _, triples, rfl, expands, rfl⟩⟩

theorem hasCompleteAssertions_of_isValid {strictness : Strictness} {derivation : Derivation}
    (valid : isValid strictness derivation = true)
    (complete : Everywhere (fun node => node.hasCompleteAssertions = true) derivation) :
    derivation.hasCompleteAssertions = true := by
  cases derivation with
  | missing => cases valid
  | node conclusion step proved premises => exact complete.root

theorem rebuilds_of_isValid {loopExit : Bool} {derivation : Derivation} {asked triple : Triple}
    (valid : isValid ⟨.structural, loopExit⟩ derivation = true)
    (complete : Everywhere (fun node => node.hasCompleteAssertions = true) derivation)
    (derives : derivation.conclusion? = some triple) (same : asked.sameValue triple = true) :
    Rebuilds derivation asked := by
  -- The triple that was asked for is kept general: it has the value of the conclusion only.
  induction derivation using nodeInduction generalizing asked triple with
  | missing => cases derives
  | node conclusion step proved premises inductionHypothesis =>
      cases derives
      rcases (isValid_node_iff _ _ _ _ _).mp valid with ⟨justified, premisesValid⟩
      have premisesComplete : forall premise, premise ∈ premises ->
          premise.hasCompleteAssertions = true := by
        intro premise member
        exact hasCompleteAssertions_of_isValid (premisesValid premise member)
          (complete.premise member)
      rcases justified.expands premisesComplete same with ⟨rule, triples, rfl, expands, answers⟩
      have rebuilds : List.Forall₂ Rebuilds premises triples := by
        apply ((List.forall₂_and_left premises triples).mpr ⟨fun _ member => member, answers⟩).imp
        rintro premise wanted ⟨member, found, premiseDerives, premiseSame⟩
        exact inductionHypothesis premise member (premisesValid premise member)
          (complete.premise member) premiseDerives premiseSame
      rcases editAll?_walkPremises asked (.applied rule) false [] rebuilds with
        ⟨results, rebuilt, sameResults⟩
      refine ⟨.node asked (.applied rule) false results, ?_, ?_⟩
      · have first := edit?_leaf expands
        rw [redoAll, walk, List.map_cons, editAll?_cons, redo]
        simp only [rule?, Step.rule?]
        rw [first]
        exact rebuilt
      · simp [unflagged, sameValue, same, sameResults]

/-- Whatever valid derivation is walked through, the edits that make its steps again are
accepted one after another, and they build it again, with constants compared by number
and without its flags. -/
theorem rebuilt_by_edits {loopExit : Bool} {root : Derivation} {pre post : Expr} {stmt : Stmt}
    (derives : root.conclusion? = some ⟨pre, stmt, post⟩)
    (valid : isValid ⟨.structural, loopExit⟩ root = true)
    (complete : Everywhere (fun node => node.hasCompleteAssertions = true) root)
    (final : stmt.finalize = some stmt) :
    ∃ start result, create? pre stmt post = some start ∧
      start.editAll? root.redoAll = some result ∧
        result.sameValue root.unflagged = true := by
  have rootComplete := hasCompleteAssertions_of_isValid valid complete
  rcases eq_node_of_conclusion? derives with ⟨step, proved, premises, rfl⟩
  rcases Bool.and_eq_true_iff.mp rootComplete with ⟨preComplete, postComplete⟩
  have created := create?_eq_some_iff.mpr ⟨stmt, final, preComplete, postComplete, rfl⟩
  have same : (Triple.mk pre stmt post).sameValue ⟨pre, stmt, post⟩ = true := by
    simp [Triple.sameValue]
  rcases rebuilds_of_isValid valid complete derives same with ⟨result, rebuilt, sameResult⟩
  exact ⟨_, result, created, rebuilt, sameResult⟩

/-- The assertion that `x` is the double two. -/
def xEqualsDouble : Expr :=
  .binary .equal (.var "x") (.const (.double (Binary64.ofDecimal false 2 0)))

/-- A derivation of `{x = 1} x := x + 1; skip {x = 2}`.  Between its premises a double stands
for the whole number. -/
def steppedUp : Derivation :=
  .node ⟨xEquals 1, .seq .complete (increment .complete) .skip, xEquals 2⟩ (.applied .sequence)
    false [
    .node ⟨xEquals 1, increment .complete, xEquals 2⟩ (.applied .consequence) true [
      .node ⟨(xEquals 2).subst "x" (.binary .add (.var "x") (.const (.whole 1))),
        increment .complete, xEquals 2⟩ (.applied .assign) false []],
    .node ⟨xEqualsDouble, .skip, xEquals 2⟩ (.applied .skip) false []]

theorem steppedUp_rebuilt_by_edits :
    steppedUp.conclusion? =
        some ⟨xEquals 1, .seq .complete (increment .complete) .skip, xEquals 2⟩ ∧
      isValid ⟨.structural, true⟩ steppedUp = true ∧
        Everywhere (fun node => node.hasCompleteAssertions = true) steppedUp ∧
          ∃ start result, create? (xEquals 1) (.seq .complete (increment .complete) .skip)
              (xEquals 2) = some start ∧
            start.editAll? steppedUp.redoAll = some result ∧
              result.sameValue steppedUp.unflagged = true := by
  have valid : isValid ⟨.structural, true⟩ steppedUp = true := by decide +kernel
  have complete : Everywhere (fun node => node.hasCompleteAssertions = true) steppedUp := by
    simp only [steppedUp, everywhere_node_iff, List.mem_cons, List.not_mem_nil, or_false,
      forall_eq_or_imp, forall_eq, false_implies, implies_true]
    decide +kernel
  exact ⟨rfl, valid, complete, rebuilt_by_edits rfl valid complete (by decide +kernel)⟩

end Derivation
end HoareProof
