import HoareProof.Proofs.Rules
import HoareProof.Proofs.Values

namespace HoareProof

/-!
Derivations that were built by edits.  An editor and a checker were written apart: the
one says which premises a rule asks for, the other which premises it accepts.  Here they
meet.  Whatever edits are made, at whatever paths and with whatever input, a node that
has a rule shows exactly the premises that the rule asked for when it was applied, because
no later edit changes the triple of a node.  So every step fits its rule, and a check finds
only what no edit can settle: nodes without a rule, side conditions without a proof, axioms
whose assertions do not match, and assertions that do not even match themselves, because a
constant in them is not a number.
-/

/-! ## Complete statements -/

namespace Stmt

variable {stage : Stage}

attribute [local simp] finalize

theorem finalize_assign {target : String} {value : Expr} {final : Stmt}
    (finalized : (Stmt.assign stage target value).finalize = some final) :
    final = .assign .complete target value ∧ target.isEmpty = false ∧ value.isComplete = true := by
  simp only [finalize] at finalized
  split at finalized
  · cases finalized
  next nothingMissing =>
    cases finalized
    simpa using nothingMissing

theorem finalize_seq {first second final : Stmt}
    (finalized : (Stmt.seq stage first second).finalize = some final) :
    ∃ first' second', final = .seq .complete first' second' ∧ first.finalize = some first' ∧
      second.finalize = some second' := by
  simp only [finalize] at finalized
  split at finalized
  next first' second' isFirst isSecond =>
    cases finalized
    exact ⟨first', second', rfl, isFirst, isSecond⟩
  · cases finalized

theorem finalize_cond {guard : Expr} {thenBranch elseBranch final : Stmt}
    (finalized : (Stmt.cond stage guard thenBranch elseBranch).finalize = some final) :
    ∃ then' else', final = .cond .complete guard then' else' ∧ guard.isComplete = true ∧
      thenBranch.finalize = some then' ∧ elseBranch.finalize = some else' := by
  simp only [finalize] at finalized
  split at finalized
  next complete =>
    split at finalized
    next then' else' isThen isElse =>
      cases finalized
      exact ⟨then', else', rfl, complete, isThen, isElse⟩
    · cases finalized
  · cases finalized

theorem finalize_loop {guard : Expr} {body final : Stmt}
    (finalized : (Stmt.loop stage guard body).finalize = some final) :
    ∃ body', final = .loop .complete guard body' ∧ guard.isComplete = true ∧
      body.finalize = some body' := by
  simp only [finalize] at finalized
  split at finalized
  next complete =>
    split at finalized
    next body' isBody =>
      cases finalized
      exact ⟨body', rfl, complete, isBody⟩
    · cases finalized
  · cases finalized

/-- A finalized statement is final. -/
theorem finalize_finalize {stmt final : Stmt} (finalized : stmt.finalize = some final) :
    final.finalize = some final := by
  induction stmt generalizing final with
  | hole => cases finalized
  | skip =>
      cases finalized
      rfl
  | assign stage target value =>
      rcases finalize_assign finalized with ⟨rfl, named, complete⟩
      simp [named, complete]
  | seq stage first second firstHypothesis secondHypothesis =>
      rcases finalize_seq finalized with ⟨first', second', rfl, isFirst, isSecond⟩
      simp [firstHypothesis isFirst, secondHypothesis isSecond]
  | cond stage guard thenBranch elseBranch thenHypothesis elseHypothesis =>
      rcases finalize_cond finalized with ⟨then', else', rfl, complete, isThen, isElse⟩
      simp [complete, thenHypothesis isThen, elseHypothesis isElse]
  | loop stage guard body inductionHypothesis =>
      rcases finalize_loop finalized with ⟨body', rfl, complete, isBody⟩
      simp [complete, inductionHypothesis isBody]

end Stmt

/-- A triple of which nothing is missing. -/
structure Triple.Whole (triple : Triple) : Prop where
  pre : triple.pre.isComplete = true
  stmt : triple.stmt.finalize = some triple.stmt
  post : triple.post.isComplete = true

theorem Expr.isComplete_conj {left right : Expr} (leftComplete : left.isComplete = true)
    (rightComplete : right.isComplete = true) : (Expr.conj left right).isComplete = true := by
  simp [Expr.conj, Expr.isComplete, Operator.isBinary, leftComplete, rightComplete]

theorem Expr.isComplete_negate {operand : Expr} (complete : operand.isComplete = true) :
    (Expr.negate operand).isComplete = true := by
  simp [Expr.negate, Expr.isComplete, Operator.isUnary, complete]

namespace Derivation

/-! ## What a rule asks for -/

/-- The triples that a rule asks to be derived for a conclusion, given the assertions it
needs besides. -/
inductive Expands : Rule -> Triple -> RuleInput -> List Triple -> Prop
  | skip {pre post : Expr} {given : RuleInput} : Expands .skip ⟨pre, .skip, post⟩ given []
  | assign {pre post value : Expr} {target : String} {given : RuleInput} :
      Expands .assign ⟨pre, .assign .complete target value, post⟩ given []
  | sequence {pre post : Expr} {first second : Stmt} {given : RuleInput} :
      given.intermediate.isComplete = true ->
      Expands .sequence ⟨pre, .seq .complete first second, post⟩ given
        [⟨pre, first, given.intermediate⟩, ⟨given.intermediate, second, post⟩]
  | conditional {pre post guard : Expr} {thenBranch elseBranch : Stmt} {given : RuleInput} :
      Expands .conditional ⟨pre, .cond .complete guard thenBranch elseBranch, post⟩ given
        [⟨.conj pre guard, thenBranch, post⟩, ⟨.conj pre (.negate guard), elseBranch, post⟩]
  | loop {pre post guard : Expr} {body : Stmt} {given : RuleInput} :
      Expands .loop ⟨pre, .loop .complete guard body, post⟩ given [⟨.conj pre guard, body, pre⟩]
  | consequence {conclusion : Triple} {given : RuleInput} :
      given.newPre.isComplete = true -> given.newPost.isComplete = true ->
      Expands .consequence conclusion given [⟨given.newPre, conclusion.stmt, given.newPost⟩]

theorem expand?_eq_some_iff {rule : Rule} {conclusion : Triple} {given : RuleInput}
    {premises : List Derivation} :
    expand? rule conclusion given = some premises ↔
      ∃ triples, premises = triples.map leaf ∧ Expands rule conclusion given triples := by
  rcases conclusion with ⟨pre, stmt, post⟩
  constructor
  · intro expanded
    unfold expand? at expanded
    split at expanded
    next shape =>
      cases expanded
      cases shape
      exact ⟨[], rfl, .skip⟩
    next shape =>
      cases expanded
      cases shape
      exact ⟨[], rfl, .assign⟩
    next shape =>
      split at expanded
      next complete =>
        cases expanded
        cases shape
        exact ⟨[_, _], rfl, .sequence complete⟩
      · cases expanded
    next shape =>
      cases expanded
      cases shape
      exact ⟨[_, _], rfl, .conditional⟩
    next shape =>
      cases expanded
      cases shape
      exact ⟨[_], rfl, .loop⟩
    next =>
      split at expanded
      next complete =>
        cases expanded
        have parts := Bool.and_eq_true_iff.mp complete
        exact ⟨[_], rfl, .consequence parts.1 parts.2⟩
      · cases expanded
    · cases expanded
  · rintro ⟨triples, rfl, expands⟩
    cases expands with
    | skip | assign | conditional | loop => rfl
    | sequence complete => simp [expand?, complete]
    | consequence preComplete postComplete => simp [expand?, preComplete, postComplete]

section

variable {rule : Rule} {conclusion : Triple} {given : RuleInput} {triples : List Triple}

theorem Expands.appliesTo (expands : Expands rule conclusion given triples) :
    rule.appliesTo conclusion.stmt = true := by
  cases expands <;> rfl

theorem Expands.length_eq (expands : Expands rule conclusion given triples) :
    triples.length = rule.arity := by
  cases expands <;> rfl

/-- If nothing is missing in the conclusion, nothing is missing in what the rule asks
for. -/
theorem Expands.whole (expands : Expands rule conclusion given triples)
    (whole : conclusion.Whole) : forall triple, triple ∈ triples -> triple.Whole := by
  intro triple member
  cases expands with
  | skip | assign => cases member
  | sequence complete =>
      rcases Stmt.finalize_seq whole.stmt with ⟨first', second', same, isFirst, isSecond⟩
      cases same
      simp only [List.mem_cons, List.not_mem_nil, or_false] at member
      rcases member with rfl | rfl
      · exact ⟨whole.pre, isFirst, complete⟩
      · exact ⟨complete, isSecond, whole.post⟩
  | conditional =>
      rcases Stmt.finalize_cond whole.stmt with ⟨then', else', same, complete, isThen, isElse⟩
      cases same
      simp only [List.mem_cons, List.not_mem_nil, or_false] at member
      rcases member with rfl | rfl
      · exact ⟨Expr.isComplete_conj whole.pre complete, isThen, whole.post⟩
      · exact ⟨Expr.isComplete_conj whole.pre (Expr.isComplete_negate complete), isElse, whole.post⟩
  | loop =>
      rcases Stmt.finalize_loop whole.stmt with ⟨body', same, complete, isBody⟩
      cases same
      cases List.mem_singleton.mp member
      exact ⟨Expr.isComplete_conj whole.pre complete, isBody, whole.pre⟩
  | consequence preComplete postComplete =>
      cases List.mem_singleton.mp member
      exact ⟨preComplete, whole.stmt, postComplete⟩

/-- The triples both of whose assertions a comparison finds equal to themselves. -/
def Boundary.accepts : Boundary -> Triple -> Bool
  | .structural, triple => triple.pre.isNumeric && triple.post.isNumeric
  | .normalized, triple => triple.pre.isPrintable && triple.post.isPrintable

theorem Boundary.accepts_iff {boundary : Boundary} {triple : Triple} :
    boundary.accepts triple = true ↔
      boundary.agree triple.pre triple.pre = true ∧
        boundary.agree triple.post triple.post = true := by
  cases boundary <;> simp [accepts, agree]

/-- The comparison that a rule makes of the boundaries of its premises. -/
def Strictness.boundaryOf (strictness : Strictness) : Rule -> Boundary
  | .sequence => .structural
  | _ => strictness.boundary

/-- The premises of a sequence, a conditional or a loop that a rule asked for are premises
that the check accepts, unless it looks at the end of a loop, or an assertion of them is one
that it does not find equal to itself. -/
theorem Expands.justified_iff (strictness : Strictness)
    (expands : Expands rule conclusion given triples)
    (inner : rule = .sequence ∨ rule = .conditional ∨ rule = .loop ∧ strictness.loopExit = false)
    (proved : Bool) :
    Justified strictness (.node conclusion (.applied rule) proved (triples.map leaf)) ↔
      forall triple, triple ∈ triples -> (strictness.boundaryOf rule).accepts triple = true := by
  simp only [Boundary.accepts_iff]
  cases expands with
  | skip | assign | consequence => simp at inner
  | sequence complete =>
      simp only [List.forall_mem_cons, List.not_mem_nil, false_implies, implies_true, and_true,
        Strictness.boundaryOf]
      constructor
      · intro justified
        cases justified with
        | sequence _ _ start middle final => exact ⟨⟨start, middle⟩, middle, final⟩
      · rintro ⟨⟨start, middle⟩, _, final⟩
        exact .sequence (Stmt.sameValue_refl _) (Stmt.sameValue_refl _) start middle final
  | conditional =>
      simp only [List.forall_mem_cons, List.not_mem_nil, false_implies, implies_true, and_true,
        Strictness.boundaryOf]
      constructor
      · intro justified
        cases justified with
        | conditional _ _ thenPre elsePre thenPost elsePost =>
            exact ⟨⟨thenPre, thenPost⟩, elsePre, elsePost⟩
      · rintro ⟨⟨thenPre, thenPost⟩, elsePre, elsePost⟩
        exact .conditional (Stmt.sameValue_refl _) (Stmt.sameValue_refl _) thenPre elsePre thenPost
          elsePost
  | loop =>
      have unchecked : strictness.loopExit = false := by simpa using inner
      simp only [List.forall_mem_singleton, Strictness.boundaryOf]
      constructor
      · intro justified
        cases justified with
        | loop _ bodyPre bodyPost _ => exact ⟨bodyPre, bodyPost⟩
      · rintro ⟨bodyPre, bodyPost⟩
        refine .loop (Stmt.sameValue_refl _) bodyPre bodyPost ?_
        rw [unchecked]
        intro impossible
        cases impossible

end

/-! ## Edits -/

/-- One call of the editor.  A rule that was named but does not exist is `none`. -/
structure Edit where
  path : Path
  rule : Option Rule
  given : RuleInput

/-- The root after an edit, unless the edit is rejected. -/
def edit? (root : Derivation) (edit : Edit) : Option Derivation :=
  edit.rule.bind fun rule => root.refine? edit.path rule edit.given

/-- The root after several edits, of which the rejected ones change nothing. -/
def edited (root : Derivation) (edits : List Edit) : Derivation :=
  edits.foldl (fun root edit => (root.edit? edit).getD root) root

theorem refine?_eq_some_iff {root result : Derivation} {path : Path} {rule : Rule}
    {given : RuleInput} :
    root.refine? path rule given = some result ↔
      ∃ conclusion step proved below triples,
        root.at? path = some (.node conclusion step proved below) ∧
          Expands rule conclusion given triples ∧
            root.replace? path (.node conclusion (.applied rule) false (triples.map leaf)) =
              some result := by
  unfold refine?
  constructor
  · intro refined
    split at refined
    next conclusion step proved below found =>
      split at refined
      next premises expanded =>
        rcases expand?_eq_some_iff.mp expanded with ⟨triples, rfl, expands⟩
        exact ⟨conclusion, step, proved, below, triples, found, expands, refined⟩
      · cases refined
    · cases refined
  · rintro ⟨conclusion, step, proved, below, triples, found, expands, replaced⟩
    have expanded := expand?_eq_some_iff.mpr ⟨triples, rfl, expands⟩
    simp only [found, expanded]
    exact replaced

/-- A node as edits leave it: without a rule and without premises, or with the premises
that its rule asked for, however they have been derived since. -/
inductive Grown : Derivation -> Prop
  | pending {conclusion : Triple} : conclusion.Whole -> Grown (leaf conclusion)
  | applied {conclusion : Triple} {rule : Rule} {given : RuleInput} {triples : List Triple}
      {premises : List Derivation} :
      conclusion.Whole ->
      Expands rule conclusion given triples ->
      premises.map conclusion? = triples.map some ->
      Grown (.node conclusion (.applied rule) false premises)

theorem map_conclusion?_leaf (triples : List Triple) :
    (triples.map leaf).map conclusion? = triples.map some := by
  rw [List.map_map]
  rfl

/-- What edits leave can be seen in the face of a node. -/
theorem Grown.of_face {old node : Derivation} (sameFace : old.face? = node.face?)
    (grown : Grown old) : Grown node := by
  cases node with
  | missing => cases grown <;> cases sameFace
  | node conclusion step proved premises =>
      cases grown with
      | pending whole =>
          simp only [leaf, face?, Option.some.injEq, Face.mk.injEq] at sameFace
          rcases sameFace with ⟨rfl, rfl, rfl, samePremises⟩
          cases List.map_eq_nil_iff.mp samePremises.symm
          exact .pending whole
      | applied whole expands shown =>
          simp only [face?, Option.some.injEq, Face.mk.injEq] at sameFace
          rcases sameFace with ⟨rfl, rfl, rfl, samePremises⟩
          exact .applied whole expands (samePremises ▸ shown)

theorem Grown.whole {conclusion : Triple} {step : Step} {proved : Bool}
    {premises : List Derivation} (grown : Grown (.node conclusion step proved premises)) :
    conclusion.Whole := by
  cases grown with
  | pending whole => exact whole
  | applied whole => exact whole

theorem refine?_grown {root result : Derivation} {path : Path} {rule : Rule} {given : RuleInput}
    (grown : Everywhere Grown root) (refined : root.refine? path rule given = some result) :
    Everywhere Grown result := by
  rcases refine?_eq_some_iff.mp refined with
    ⟨conclusion, step, proved, below, triples, found, expands, replaced⟩
  have whole := (grown path _ found).whole
  -- The node keeps its triple, so every face outside the new subtree stays as it was.
  apply grown.of_replace? (fun _ _ sameFace => Grown.of_face sameFace) found replaced rfl
  refine everywhere_node_iff.mpr ⟨.applied whole expands (map_conclusion?_leaf triples), ?_⟩
  intro premise member
  rcases List.mem_map.mp member with ⟨triple, isAsked, rfl⟩
  exact everywhere_leaf (.pending (expands.whole whole triple isAsked))

theorem edit?_eq_some_iff {root result : Derivation} {edit : Edit} :
    root.edit? edit = some result ↔
      ∃ rule, edit.rule = some rule ∧ root.refine? edit.path rule edit.given = some result :=
  Option.bind_eq_some_iff

/-- What one accepted edit keeps, any number of edits keep, accepted or not. -/
theorem edited_induction {motive : Derivation -> Prop} {root : Derivation} (atStart : motive root)
    (kept : forall {root result : Derivation} {path : Path} {rule : Rule} {given : RuleInput},
      motive root -> root.refine? path rule given = some result -> motive result)
    (edits : List Edit) : motive (root.edited edits) := by
  induction edits generalizing root with
  | nil => exact atStart
  | cons edit edits inductionHypothesis =>
      have afterOne : motive ((root.edit? edit).getD root) := by
        cases accepted : root.edit? edit with
        | none => exact atStart
        | some result =>
            rcases edit?_eq_some_iff.mp accepted with ⟨rule, _, refined⟩
            exact kept atStart refined
      exact inductionHypothesis afterOne

theorem edited_grown {root : Derivation} (grown : Everywhere Grown root) (edits : List Edit) :
    Everywhere Grown (root.edited edits) :=
  edited_induction grown refine?_grown edits

/-- Edits do not change what a derivation derives. -/
theorem edited_conclusion? (root : Derivation) (edits : List Edit) :
    (root.edited edits).conclusion? = root.conclusion? := by
  apply edited_induction (motive := fun result => result.conclusion? = root.conclusion?) rfl
  intro before after path rule given sameBefore refined
  rcases refine?_eq_some_iff.mp refined with ⟨_, _, _, _, _, found, _, replaced⟩
  have sameAfter := conclusion?_of_replace? found (by rfl) replaced
  exact sameAfter.trans sameBefore

theorem create?_eq_some_iff {pre post : Expr} {stmt : Stmt} {root : Derivation} :
    create? pre stmt post = some root ↔
      ∃ final, stmt.finalize = some final ∧ pre.isComplete = true ∧ post.isComplete = true ∧
        root = leaf ⟨pre, final, post⟩ := by
  unfold create?
  cases stmt.finalize with
  | none => simp
  | some final =>
      cases pre.isComplete <;> cases post.isComplete <;> simp [eq_comm]

theorem create?_grown {pre post : Expr} {stmt : Stmt} {root : Derivation}
    (created : create? pre stmt post = some root) : Everywhere Grown root := by
  rcases create?_eq_some_iff.mp created with ⟨final, finalized, preComplete, postComplete, rfl⟩
  exact everywhere_leaf (.pending ⟨preComplete, Stmt.finalize_finalize finalized, postComplete⟩)

/-! ## What a check finds -/

theorem anyMissing_eq_false_iff {derivations : List Derivation} :
    anyMissing derivations = false ↔
      forall derivation, derivation ∈ derivations -> derivation.hasMissing = false := by
  induction derivations with
  | nil => simp [anyMissing]
  | cons derivation rest inductionHypothesis => simp [anyMissing, inductionHypothesis]

theorem hasMissing_of_grown {root : Derivation} {triple : Triple}
    (derives : root.conclusion? = some triple) (grown : Everywhere Grown root) :
    root.hasMissing = false := by
  induction root using nodeInduction generalizing triple with
  | missing => cases derives
  | node conclusion step proved premises inductionHypothesis =>
      apply anyMissing_eq_false_iff.mpr
      intro premise member
      cases grown.root with
      | pending => cases member
      | applied _ _ shown =>
          have isAsked : premise.conclusion? ∈ premises.map conclusion? :=
            List.mem_map_of_mem member
          rw [shown] at isAsked
          rcases List.mem_map.mp isAsked with ⟨asked, _, isTriple⟩
          exact inductionHypothesis premise member isTriple.symm (grown.premise member)

/-- What edits leave unsettled at a node, and the reason a check gives for it. -/
inductive Unsettled : Derivation -> Reason -> Prop
  | pending {conclusion : Triple} : Unsettled (leaf conclusion) .noRule
  | unproved {conclusion : Triple} {premises : List Derivation} :
      Unsettled (.node conclusion (.applied .consequence) false premises) .sideConditions
  | skip {pre post : Expr} :
      pre.sameShape post = false ->
      Unsettled (.node ⟨pre, .skip, post⟩ (.applied .skip) false []) .skipAssertions
  | assign {pre post value : Expr} {target : String} :
      pre.sameShape (post.subst target value) = false ->
      Unsettled (.node ⟨pre, .assign .complete target value, post⟩ (.applied .assign) false [])
        (.assignPrecondition (post.subst target value))
  | unequal {conclusion triple : Triple} {rule : Rule} {premises : List Derivation}
      {premise : Derivation} {reason : Reason} :
      (rule = .sequence ∨ rule = .conditional ∨ rule = .loop) ->
      premise ∈ premises ->
      premise.conclusion? = some triple ->
      Boundary.structural.accepts triple = false ->
      Unsettled (.node conclusion (.applied rule) false premises) reason

theorem lastComparison_eq_some_iff {passes : Bool} {reason found : Reason} :
    (if passes then none else some reason) = some found ↔ passes = false ∧ reason = found := by
  cases passes <;> simp

theorem exists_premise_iff {premises : List Derivation} {triples : List Triple}
    (shown : premises.map conclusion? = triples.map some) {triple : Triple} :
    (∃ premise, premise ∈ premises ∧ premise.conclusion? = some triple) ↔ triple ∈ triples := by
  rw [← List.mem_map, shown]
  simp

/-- A sequence, a conditional or a loop fits its rule exactly when every constant in the
assertions of its premises is a number. -/
theorem Expands.fits_iff {rule : Rule} {conclusion : Triple} {given : RuleInput}
    {triples : List Triple} {premises : List Derivation}
    (expands : Expands rule conclusion given triples)
    (shown : premises.map conclusion? = triples.map some)
    (inner : rule = .sequence ∨ rule = .conditional ∨ rule = .loop) (proved : Bool) :
    localFailure .standard (.node conclusion (.applied rule) proved premises) = none ↔
      forall premise triple, premise ∈ premises -> premise.conclusion? = some triple ->
        Boundary.structural.accepts triple = true := by
  have unchecked : rule = .sequence ∨ rule = .conditional ∨
      rule = .loop ∧ Strictness.standard.loopExit = false := by
    simpa [Strictness.standard] using inner
  have structural : Strictness.standard.boundaryOf rule = .structural := by cases rule <;> rfl
  have sameTriples : premises.map conclusion? = (triples.map leaf).map conclusion? := by
    rw [shown, map_conclusion?_leaf]
  have asLeaves : Justified .standard (.node conclusion (.applied rule) proved premises) ↔
      Justified .standard (.node conclusion (.applied rule) proved (triples.map leaf)) :=
    ⟨fun justified => justified.of_premises sameTriples.symm,
      fun justified => justified.of_premises sameTriples⟩
  rw [localFailure_eq_none_iff, asLeaves, expands.justified_iff .standard unchecked,
    structural]
  constructor
  · intro accepts premise triple member derives
    exact accepts triple ((exists_premise_iff shown).mp ⟨premise, member, derives⟩)
  · intro accepts triple isAsked
    rcases (exists_premise_iff shown).mpr isAsked with ⟨premise, member, derives⟩
    exact accepts premise triple member derives

theorem Grown.unsettled {node : Derivation} {reason : Reason} (grown : Grown node)
    (fails : localFailure .standard node = some reason) : Unsettled node reason := by
  cases grown with
  | pending =>
      cases fails
      exact .pending
  | applied whole expands shown =>
      have passes := fun inner => expands.fits_iff shown inner false
      cases expands with
      | skip =>
          cases List.map_eq_nil_iff.mp shown
          rcases lastComparison_eq_some_iff.mp fails with ⟨differs, rfl⟩
          exact .skip differs
      | assign =>
          cases List.map_eq_nil_iff.mp shown
          rcases lastComparison_eq_some_iff.mp fails with ⟨differs, rfl⟩
          exact .assign differs
      | sequence | conditional | loop =>
          -- The step does not pass, so some assertion of a premise is not equal to itself.
          have refused := (not_congr (passes (by simp))).mp (by simp [fails])
          simp only [Classical.not_forall, Bool.not_eq_true] at refused
          rcases refused with ⟨premise, triple, member, derives, differs⟩
          exact .unequal (by simp) member derives differs
      | consequence =>
          rcases List.map_eq_singleton_iff.mp shown with ⟨premise, rfl, isPremise⟩
          rcases eq_node_of_conclusion? isPremise with ⟨_, _, _, rfl⟩
          simp only [localFailure, consequenceFailure, Stmt.sameValue_refl] at fails
          cases fails
          exact .unproved

/-- A node at which nothing is missing, and which has no rule yet or fits its rule.  A sequence,
a conditional or a loop fits as long as every constant in the assertions of its premises is a
number. -/
inductive Settled : Derivation -> Prop
  | pending {conclusion : Triple} : conclusion.Whole -> Settled (leaf conclusion)
  | applied {conclusion : Triple} {rule : Rule} {proved : Bool} {premises : List Derivation} :
      conclusion.Whole ->
      rule.appliesTo conclusion.stmt = true ->
      premises.length = rule.arity ->
      (rule = .sequence ∨ rule = .conditional ∨ rule = .loop ->
        (localFailure .standard (.node conclusion (.applied rule) proved premises) = none ↔
          forall premise triple, premise ∈ premises -> premise.conclusion? = some triple ->
            Boundary.structural.accepts triple = true)) ->
      (rule = .consequence -> forall reason,
        localFailure .standard (.node conclusion (.applied rule) proved premises) = some reason ->
          reason = .sideConditions) ->
      Settled (.node conclusion (.applied rule) proved premises)

theorem Grown.settled {node : Derivation} (grown : Grown node) : Settled node := by
  have unsettled := fun reason fails => @Grown.unsettled node reason grown fails
  cases grown with
  | pending whole => exact .pending whole
  | applied whole expands shown =>
      have length : _ = _ := congrArg List.length shown
      rw [List.length_map, List.length_map, expands.length_eq] at length
      refine .applied whole expands.appliesTo length ?_ ?_
      · intro inner
        exact expands.fits_iff shown inner false
      · rintro rfl reason fails
        cases unsettled reason fails with
        | unproved => rfl
        | unequal inner => simp at inner

/-- After any edits, every node fits its rule or has none yet, and a check finds nothing but
nodes without a rule, side conditions without a proof, axioms whose assertions do not match, and
steps with a constant that is not a number in an assertion of a premise. -/
theorem edited_fits {pre post : Expr} {stmt : Stmt} {root : Derivation}
    (created : create? pre stmt post = some root) (edits : List Edit) :
    (root.edited edits).hasMissing = false ∧ Everywhere Settled (root.edited edits) ∧
      ∃ failures, (root.edited edits).failures? .standard = some failures ∧
        forall failure, failure ∈ failures ->
          ∃ node, (root.edited edits).at? failure.path = some node ∧
            node.conclusion? = some failure.conclusion ∧ Unsettled node failure.reason := by
  have grown := edited_grown (create?_grown created) edits
  have present : (root.edited edits).hasMissing = false := by
    rcases create?_eq_some_iff.mp created with ⟨_, _, _, _, rfl⟩
    exact hasMissing_of_grown (edited_conclusion? _ edits) grown
  refine ⟨present, fun path node found => (grown path node found).settled, ?_⟩
  refine ⟨(root.edited edits).failures .standard, by rw [failures?, present]; rfl, ?_⟩
  intro failure member
  rcases List.mem_filterMap.mp member with ⟨⟨path, node⟩, walked, fails⟩
  cases node with
  | missing => cases fails
  | node conclusion step proved premises =>
      have found := at?_of_mem_walk walked
      rcases Option.map_eq_some_iff.mp fails with ⟨reason, isReason, rfl⟩
      exact ⟨_, found, rfl, (grown path _ found).unsettled isReason⟩

/-- The assertion that `x` is a number. -/
def xEquals (n : Int) : Expr :=
  .binary .equal (.var "x") (.const (.whole n))

/-- The statement `x := x + 1`. -/
def increment (stage : Stage) : Stmt :=
  .assign stage "x" (.binary .add (.var "x") (.const (.whole 1)))

/-- The triple `{x = 1} x := x + 1; skip {x = 2}`, with nothing derived. -/
def stepUp : Derivation :=
  leaf ⟨xEquals 1, .seq .complete (increment .complete) .skip, xEquals 2⟩

/-- Six edits, of which the first has no intermediate assertion, the fifth no node, and the
last no rule. -/
def stepUpEdits : List Edit :=
  [⟨[], some .sequence, ⟨.hole, .hole, .hole⟩⟩,
    ⟨[], some .sequence, ⟨xEquals 2, .hole, .hole⟩⟩,
    ⟨[0], some .consequence, ⟨.hole, .truth true, xEquals 2⟩⟩,
    ⟨[0, 0], some .assign, ⟨.hole, .hole, .hole⟩⟩,
    ⟨[0, 1], some .skip, ⟨.hole, .hole, .hole⟩⟩,
    ⟨[1], none, ⟨.hole, .hole, .hole⟩⟩]

theorem stepUp_edited_fits :
    create? (xEquals 1) (.seq .draft (increment .draft) .skip) (xEquals 2) = some stepUp ∧
      (stepUp.edited stepUpEdits).hasMissing = false ∧
        Everywhere Settled (stepUp.edited stepUpEdits) ∧
          ∃ failures, (stepUp.edited stepUpEdits).failures? .standard = some failures ∧
            failures.map Failure.path = [[0], [0, 0], [1]] ∧
              forall failure, failure ∈ failures ->
                ∃ node, (stepUp.edited stepUpEdits).at? failure.path = some node ∧
                  node.conclusion? = some failure.conclusion ∧ Unsettled node failure.reason := by
  have created : create? (xEquals 1) (.seq .draft (increment .draft) .skip) (xEquals 2) =
      some stepUp := by
    decide +kernel
  have paths : ((stepUp.edited stepUpEdits).failures? .standard).map (List.map Failure.path) =
      some [[0], [0, 0], [1]] := by
    decide +kernel
  rcases edited_fits created stepUpEdits with ⟨present, settled, failures, isFailures, unsettled⟩
  rw [isFailures] at paths
  exact ⟨created, present, settled, failures, isFailures, Option.some.inj paths, unsettled⟩

/-- The assertion that `x` is below something that is not a number. -/
def belowNoNumber : Expr :=
  .binary .less (.var "x") (.const (.notANumber false 0))

/-- The triple `{x < nan} skip; skip {true}`, with nothing derived. -/
def idleTwice : Derivation :=
  leaf ⟨belowNoNumber, .seq .complete .skip .skip, .truth true⟩

/-- A sequence whose precondition has a constant that is not a number does not fit its rule,
although the edit is accepted. -/
theorem idleTwice_edited_misfits :
    create? belowNoNumber (.seq .draft .skip .skip) (.truth true) = some idleTwice ∧
      (idleTwice.edit? ⟨[], some .sequence, ⟨.truth true, .hole, .hole⟩⟩).isSome = true ∧
        ((idleTwice.edited [⟨[], some .sequence, ⟨.truth true, .hole, .hole⟩⟩]).failures?
          .standard).map (List.map fun failure => (failure.path, failure.reason.message)) =
            some [([], "first premise must start from the precondition"),
              ([0], "no rule applied"), ([1], "no rule applied")] := by
  decide +kernel

end Derivation
end HoareProof
