import HoareProof.ProofFile
import HoareProof.Proofs.Edits

namespace HoareProof
namespace Derivation

/-!
What applying a rule does.  An edit names a node by a path and a rule by a value, which need
not name one, and brings the assertions that some rules need.  It is rejected for one of five
reasons and for no other.  Otherwise the node keeps its triple and has the premises that the
rule asks for, nothing outside of the node changes, and a check finds at the node only what no
edit can settle, however strict it is: an unproved side condition, or an assertion that the check
does not find equal to itself.
-/

/-! ## Rejected edits -/

/-- Why an edit is rejected. -/
inductive Rejected (root : Derivation) (edit : Edit) : Prop
  | noNode : root.at? edit.path = none -> Rejected root edit
  | noRule : edit.rule = none -> Rejected root edit
  | inapplicable {rule : Rule} {node : Derivation} {conclusion : Triple} :
      edit.rule = some rule -> root.at? edit.path = some node ->
      node.conclusion? = some conclusion -> rule.appliesTo conclusion.stmt = false ->
      Rejected root edit
  | noIntermediate :
      edit.rule = some .sequence -> edit.given.intermediate.isComplete = false ->
      Rejected root edit
  | noAssertions :
      edit.rule = some .consequence ->
      (edit.given.newPre.isComplete && edit.given.newPost.isComplete) = false ->
      Rejected root edit

section

variable {rule : Rule} {conclusion : Triple} {given : RuleInput} {triples : List Triple}

/-- A rule asks for premises of every statement that it is about, if the assertions that it
needs are complete. -/
theorem exists_expands (applies : rule.appliesTo conclusion.stmt = true)
    (intermediate : rule = .sequence -> given.intermediate.isComplete = true)
    (assertions : rule = .consequence ->
      (given.newPre.isComplete && given.newPost.isComplete) = true) :
    ∃ triples, Expands rule conclusion given triples := by
  rcases conclusion with ⟨pre, stmt, post⟩
  unfold Rule.appliesTo at applies
  split at applies
  next shape =>
    cases shape
    exact ⟨_, .skip⟩
  next shape =>
    cases shape
    exact ⟨_, .assign⟩
  next shape =>
    cases shape
    exact ⟨_, .sequence (intermediate rfl)⟩
  next shape =>
    cases shape
    exact ⟨_, .conditional⟩
  next shape =>
    cases shape
    exact ⟨_, .loop⟩
  · rcases Bool.and_eq_true_iff.mp (assertions rfl) with ⟨preComplete, postComplete⟩
    exact ⟨_, .consequence preComplete postComplete⟩
  · cases applies

theorem Expands.intermediate_complete (expands : Expands rule conclusion given triples)
    (isSequence : rule = .sequence) : given.intermediate.isComplete = true := by
  cases expands with
  | sequence complete => exact complete
  | skip | assign | conditional | loop | consequence => cases isSequence

theorem Expands.assertions_complete (expands : Expands rule conclusion given triples)
    (isConsequence : rule = .consequence) :
    (given.newPre.isComplete && given.newPost.isComplete) = true := by
  cases expands with
  | consequence preComplete postComplete =>
      exact Bool.and_eq_true_iff.mpr ⟨preComplete, postComplete⟩
  | skip | assign | sequence | conditional | loop => cases isConsequence

/-- An edit whose rule asks for premises at the node of its path is accepted. -/
theorem exists_refine? {root : Derivation} {path : Path} {step : Step} {proved : Bool}
    {below : List Derivation} (found : root.at? path = some (.node conclusion step proved below))
    (expands : Expands rule conclusion given triples) :
    ∃ result, root.refine? path rule given = some result := by
  have present : Derivation.node conclusion (.applied rule) false (triples.map leaf) ≠ .missing :=
    Derivation.noConfusion
  rcases exists_replace? found present with ⟨result, replaced⟩
  exact ⟨result, refine?_eq_some_iff.mpr
    ⟨conclusion, step, proved, below, triples, found, expands, replaced⟩⟩

end

theorem Rejected.edit?_eq_none {root : Derivation} {edit : Edit} (rejected : Rejected root edit) :
    root.edit? edit = none := by
  apply Option.eq_none_iff_forall_ne_some.mpr
  intro result accepted
  rcases edit?_eq_some_iff.mp accepted with ⟨rule, isRule, refined⟩
  rcases refine?_eq_some_iff.mp refined with ⟨conclusion, _, _, _, _, found, expands, _⟩
  cases rejected with
  | noNode nowhere =>
      rw [nowhere] at found
      cases found
  | noRule unknown =>
      rw [unknown] at isRule
      cases isRule
  | inapplicable isOther foundToo derives other =>
      cases isRule.symm.trans isOther
      cases found.symm.trans foundToo
      cases derives
      rw [expands.appliesTo] at other
      cases other
  | noIntermediate isSequence incomplete =>
      cases isRule.symm.trans isSequence
      rw [expands.intermediate_complete rfl] at incomplete
      cases incomplete
  | noAssertions isConsequence incomplete =>
      cases isRule.symm.trans isConsequence
      rw [expands.assertions_complete rfl] at incomplete
      cases incomplete

/-- There is no sixth reason: an edit for which none of the five holds is accepted. -/
theorem rejected_of_edit?_eq_none {root : Derivation} {edit : Edit}
    (refused : root.edit? edit = none) : Rejected root edit := by
  rcases edit with ⟨path, rule?, given⟩
  cases rule? with
  | none => exact .noRule rfl
  | some rule =>
      cases found : root.at? path with
      | none => exact .noNode found
      | some node =>
          cases node with
          | missing => exact absurd rfl (ne_missing_of_at? found)
          | node conclusion step proved below =>
              apply Classical.byContradiction
              intro unrejected
              have applies : rule.appliesTo conclusion.stmt = true := by
                apply Bool.of_not_eq_false
                intro other
                exact unrejected (.inapplicable rfl found rfl other)
              have intermediate : rule = .sequence -> given.intermediate.isComplete = true := by
                rintro rfl
                apply Bool.of_not_eq_false
                intro incomplete
                exact unrejected (.noIntermediate rfl incomplete)
              have assertions : rule = .consequence ->
                  (given.newPre.isComplete && given.newPost.isComplete) = true := by
                rintro rfl
                apply Bool.of_not_eq_false
                intro incomplete
                exact unrejected (.noAssertions rfl incomplete)
              rcases exists_expands applies intermediate assertions with ⟨triples, expands⟩
              rcases exists_refine? found expands with ⟨result, refined⟩
              have accepted := edit?_eq_some_iff.mpr
                ⟨rule, (rfl : Edit.rule ⟨path, some rule, given⟩ = some rule), refined⟩
              rw [refused] at accepted
              cases accepted

/-! ## Accepted edits -/

/-- What a check says about a node to which a rule has just been applied, with the triples that
are asked for.  The two axioms are left to their assertions. -/
structure FreshVerdict (strictness : Strictness) (rule : Rule) (conclusion : Triple)
    (triples : List Triple) : Prop where
  inner : rule = .sequence ∨ rule = .conditional ∨ rule = .loop ∧ strictness.loopExit = false ->
    (localFailure strictness (.node conclusion (.applied rule) false (triples.map leaf)) = none ↔
      forall triple, triple ∈ triples -> (strictness.boundaryOf rule).accepts triple = true)
  consequence : rule = .consequence ->
    localFailure strictness (.node conclusion (.applied rule) false (triples.map leaf)) =
      some .sideConditions

theorem Expands.freshVerdict {rule : Rule} {conclusion : Triple} {given : RuleInput}
    {triples : List Triple} (expands : Expands rule conclusion given triples)
    (strictness : Strictness) : FreshVerdict strictness rule conclusion triples := by
  constructor
  · intro isInner
    rw [localFailure_eq_none_iff]
    exact expands.justified_iff strictness isInner false
  · rintro rfl
    cases expands with
    | consequence =>
        simp only [List.map_cons, List.map_nil, leaf, localFailure, consequenceFailure,
          Stmt.sameValue_refl]
        rfl

/-- What applying a rule does, whatever names the rule.  The edit is rejected exactly when the
path leads to no node, the value names no rule, the rule is not about the statement of the node,
or an assertion that the rule needs is missing or incomplete.  Otherwise the node has the triple
it had, the rule, no proof of side conditions, and as many premises as the rule has, all of them
still to be derived; no path that does not go through the node leads to anything else than
before; and a check of the node finds that a sequence and a conditional fit, and a loop unless its
end is looked at, exactly when it finds the assertions of the premises equal to themselves, and
that the side conditions of a consequence are not proved. -/
theorem applied_exactly (root : Derivation) (path : Path) (value : Json) (given : RuleInput) :
    (root.edit? ⟨path, ProofFile.ruleOf? value, given⟩ = none ↔
      Rejected root ⟨path, ProofFile.ruleOf? value, given⟩) ∧
    forall result, root.edit? ⟨path, ProofFile.ruleOf? value, given⟩ = some result ->
      ∃ (rule : Rule) (conclusion : Triple) (step : Step) (proved : Bool)
          (below : List Derivation) (triples : List Triple),
        ProofFile.ruleOf? value = some rule ∧
        root.at? path = some (.node conclusion step proved below) ∧
        result.at? path = some (.node conclusion (.applied rule) false (triples.map leaf)) ∧
        Expands rule conclusion given triples ∧
        triples.length = rule.arity ∧
        SameOutside path root result ∧
        forall strictness, FreshVerdict strictness rule conclusion triples := by
  refine ⟨⟨rejected_of_edit?_eq_none, Rejected.edit?_eq_none⟩, ?_⟩
  intro result accepted
  rcases edit?_eq_some_iff.mp accepted with ⟨rule, isRule, refined⟩
  rcases refine?_eq_some_iff.mp refined with
    ⟨conclusion, step, proved, below, triples, found, expands, replaced⟩
  have atPath := at?_append_of_replace? replaced []
  rw [List.append_nil] at atPath
  exact ⟨rule, conclusion, step, proved, below, triples, isRule, found, atPath, expands,
    expands.length_eq, sameOutside_of_replace? found (by rfl) replaced, expands.freshVerdict⟩

/-- A derivation of `{x = 1} x := x + 1; skip {x = 2}` with a step at its first premise. -/
def halfway : Derivation :=
  .node ⟨xEquals 1, .seq .complete (increment .complete) .skip, xEquals 2⟩ (.applied .sequence) true
    [.node ⟨xEquals 1, increment .complete, xEquals 2⟩ (.applied .assign) true [],
      leaf ⟨xEquals 2, .skip, xEquals 2⟩]

/-- The assertions for a step of consequence at the first premise. -/
def halfwayInput : RuleInput :=
  ⟨.hole, .truth true, xEquals 2⟩

theorem halfway_applied_exactly :
    Rejected halfway ⟨[0], ProofFile.ruleOf? (.string "sequence"), halfwayInput⟩ ∧
      ∃ result, halfway.edit? ⟨[0], ProofFile.ruleOf? (.string " Consequence"), halfwayInput⟩ =
          some result ∧
        SameOutside [0] halfway result ∧ result.at? [1] = halfway.at? [1] ∧
          forall node, result.at? [0] = some node -> forall strictness,
            localFailure strictness node = some .sideConditions := by
  have isConsequence : ProofFile.ruleOf? (.string " Consequence") = some .consequence := by
    decide +kernel
  have refused :
      halfway.edit? ⟨[0], ProofFile.ruleOf? (.string "sequence"), halfwayInput⟩ = none := by
    decide +kernel
  refine ⟨(applied_exactly halfway [0] (.string "sequence") halfwayInput).1.mp refused, ?_⟩
  have accepted : (halfway.edit?
      ⟨[0], ProofFile.ruleOf? (.string " Consequence"), halfwayInput⟩).isSome = true := by
    decide +kernel
  rcases Option.isSome_iff_exists.mp accepted with ⟨result, isResult⟩
  rcases (applied_exactly halfway [0] (.string " Consequence") halfwayInput).2 result isResult with
    ⟨rule, conclusion, step, proved, below, triples, isRule, _, atPath, _, _, outside, verdict⟩
  refine ⟨result, isResult, outside, (outside [1] (by decide)).2 (by decide), ?_⟩
  intro node found strictness
  cases atPath.symm.trans found
  exact (verdict strictness).consequence (Option.some.inj (isRule.symm.trans isConsequence))

/-- The triple `{p} if x < nan then skip else skip {p}`, with nothing derived. -/
def undecided : Derivation :=
  leaf ⟨.var "p", .cond .complete belowNoNumber .skip .skip, .var "p"⟩

/-- A conditional whose guard has a constant that is not a number does not fit its rule when it
has just been applied, unless boundaries are compared leniently. -/
theorem undecided_applied_misfits :
    ∃ result, undecided.edit? ⟨[], ProofFile.ruleOf? (.string "conditional"), halfwayInput⟩ =
        some result ∧
      forall loopExit, localFailure ⟨.structural, loopExit⟩ result = some .thenPrecondition ∧
        localFailure ⟨.normalized, loopExit⟩ result = none := by
  have isConditional : ProofFile.ruleOf? (.string "conditional") = some .conditional := by
    decide +kernel
  rw [isConditional]
  refine ⟨_, rfl, fun loopExit => ⟨rfl, ?_⟩⟩
  cases loopExit <;> decide +kernel

end Derivation
end HoareProof
