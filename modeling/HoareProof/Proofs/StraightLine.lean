import HoareProof.Proofs.Application
import HoareProof.Proofs.Congruence
import HoareProof.Proofs.Coverage
import HoareProof.Proofs.Replay
import HoareProof.Proofs.Substitution

namespace HoareProof

/-!
Programs without branches and loops.  Going backwards through such a program turns a
postcondition into a precondition, by one substitution for each assignment.  Without steps
of consequence there is no other precondition: every valid derivation has this one.  And this
one is always derived: at every node the statement says which rule to apply and which
assertion stands in the middle, and the edits that follow it are accepted, in whatever order
they are made, and end in a valid derivation, unless a constant in it is not a number.
-/

/-- A program made of `skip`, assignments and sequences, nested in any way. -/
inductive StraightLine where
  | skip
  | assign (target : String) (value : Expr)
  | seq (first second : StraightLine)

namespace StraightLine

/-- The program as a statement. -/
def stmt : StraightLine -> Stmt
  | .skip => .skip
  | .assign target value => .assign .complete target value
  | .seq first second => .seq .complete first.stmt second.stmt

/-- The precondition that is found by going backwards from a postcondition. -/
def back : StraightLine -> Expr -> Expr
  | .skip, post => post
  | .assign target value, post => post.subst target value
  | .seq first second, post => first.back (second.back post)

/-- The triple with the precondition that is found by going backwards. -/
def triple (program : StraightLine) (post : Expr) : Triple :=
  ⟨program.back post, program.stmt, post⟩

/-- The rule for the form of a program. -/
def rule : StraightLine -> Rule
  | .skip => .skip
  | .assign _ _ => .assign
  | .seq _ _ => .sequence

/-- What the rule is given: in the middle of a sequence stands the precondition of its second
half. -/
def input : StraightLine -> Expr -> Derivation.RuleInput
  | .seq _ second, post => ⟨second.back post, .hole, .hole⟩
  | _, _ => ⟨.hole, .hole, .hole⟩

/-- The triples that the rule then asks for. -/
def asked : StraightLine -> Expr -> List Triple
  | .seq first second, post => [first.triple (second.back post), second.triple post]
  | _, _ => []

/-- A program in which no assertion is missing and every assignment has a target. -/
def IsFinal (program : StraightLine) : Prop :=
  program.stmt.finalize = some program.stmt

theorem stmt_injective : Function.Injective stmt := by
  intro program other same
  induction program generalizing other with
  | skip =>
      cases other with
      | skip => rfl
      | assign | seq => cases same
  | assign target value =>
      cases other with
      | assign target' value' =>
          cases same
          rfl
      | skip | seq => cases same
  | seq first second firstHypothesis secondHypothesis =>
      cases other with
      | seq first' second' =>
          rcases Stmt.seq.inj same with ⟨_, sameFirst, sameSecond⟩
          rw [firstHypothesis sameFirst, secondHypothesis sameSecond]
      | skip | assign => cases same

theorem IsFinal.first {first second : StraightLine} (final : (seq first second).IsFinal) :
    first.IsFinal := by
  rcases Stmt.finalize_seq final with ⟨first', second', same, isFirst, _⟩
  cases same
  exact isFirst

theorem IsFinal.second {first second : StraightLine} (final : (seq first second).IsFinal) :
    second.IsFinal := by
  rcases Stmt.finalize_seq final with ⟨first', second', same, _, isSecond⟩
  cases same
  exact isSecond

end StraightLine

/-- Going backwards keeps assertions complete. -/
theorem StraightLine.isComplete_back {program : StraightLine} (final : program.IsFinal)
    {post : Expr} (complete : post.isComplete = true) : (program.back post).isComplete = true := by
  induction program generalizing post with
  | skip => exact complete
  | assign target value =>
      rcases Stmt.finalize_assign final with ⟨_, _, valueComplete⟩
      exact Expr.isComplete_subst_iff.mpr ⟨complete, .inr valueComplete⟩
  | seq first second firstHypothesis secondHypothesis =>
      exact firstHypothesis final.first (secondHypothesis final.second complete)

/-- Going backwards keeps the constants of the postcondition. -/
theorem StraightLine.isNumeric_of_back {program : StraightLine} {post : Expr}
    (numeric : (program.back post).isNumeric = true) : post.isNumeric = true := by
  induction program generalizing post with
  | skip => exact numeric
  | assign target value => exact Expr.isNumeric_of_subst numeric
  | seq first second firstHypothesis secondHypothesis =>
      exact secondHypothesis (firstHypothesis numeric)

namespace Derivation

/-! ## No other precondition -/

/-- A derivation without steps of consequence has the precondition that is found by going
backwards. -/
theorem sameShape_back_of_isValid {strictness : Strictness} {program : StraightLine}
    {root : Derivation} {conclusion : Triple} {post : Expr}
    (valid : root.isValid strictness = true)
    (direct : Everywhere (fun node => node.isDirect = true) root)
    (derives : root.conclusion? = some conclusion)
    (sameStmt : conclusion.stmt.sameValue program.stmt = true)
    (samePost : conclusion.post.sameValue post = true) :
    conclusion.pre.sameShape (program.back post) = true := by
  rcases eq_node_of_conclusion? derives with ⟨step, proved, premises, rfl⟩
  clear derives
  induction program generalizing conclusion step proved premises post with
  | skip =>
      have justified := ((isValid_node_iff _ _ _ _ _).mp valid).1
      rcases conclusion with ⟨pre, stmt, post'⟩
      cases Stmt.eq_skip_of_sameValue sameStmt
      cases justified with
      | skip sameAssertions => exact Expr.sameShape_trans_sameValue sameAssertions samePost
      | consequence _ => cases direct.root
  | assign target value =>
      have justified := ((isValid_node_iff _ _ _ _ _).mp valid).1
      rcases conclusion with ⟨pre, stmt, post'⟩
      rcases Stmt.exists_assign_of_sameValue sameStmt with ⟨value', isAssign, sameValue⟩
      cases isAssign
      cases justified with
      | assign sameAssertions =>
          exact Expr.sameShape_trans_sameValue sameAssertions
            (Expr.sameValue_subst samePost target sameValue)
      | consequence _ => cases direct.root
  | seq first second firstHypothesis secondHypothesis =>
      rcases (isValid_node_iff _ _ _ _ _).mp valid with ⟨justified, premisesValid⟩
      rcases conclusion with ⟨pre, stmt, post'⟩
      rcases Stmt.exists_seq_of_sameValue sameStmt with
        ⟨first', second', isSeq, sameFirst, sameSecond⟩
      cases isSeq
      cases justified with
      | consequence _ => cases direct.root
      | sequence isFirst isSecond start middle final =>
          have rightValid := premisesValid _ (List.mem_cons_of_mem _ List.mem_cons_self)
          have rightDirect := direct.premise (List.mem_cons_of_mem _ List.mem_cons_self)
          have rightPre := secondHypothesis (Stmt.sameValue_trans isSecond sameSecond)
            (Expr.sameValue_of_sameShape (Expr.sameShape_trans_sameValue final samePost)) _ _ _
            rightValid rightDirect
          have leftPre := firstHypothesis (Stmt.sameValue_trans isFirst sameFirst)
            (Expr.sameValue_of_sameShape (Expr.sameShape_trans middle rightPre)) _ _ _
            (premisesValid _ List.mem_cons_self) (direct.premise List.mem_cons_self)
          exact Expr.sameShape_trans (Expr.sameShape_symm start) leftPre

/-! ## Edits that go backwards -/

/-- The edit of the node at a path that goes backwards through a program. -/
def backEdit (program : StraightLine) (post : Expr) (path : Path) : Edit :=
  ⟨path, some program.rule, program.input post⟩

/-- An edit that goes backwards through the statement of the node at its path. -/
def GoesBack (root : Derivation) (edit : Edit) : Prop :=
  ∃ path program pre post step proved premises,
    root.at? path = some (.node ⟨pre, StraightLine.stmt program, post⟩ step proved premises) ∧
      edit = backEdit program post path

/-- Edits, one after another, that all go backwards and are all accepted. -/
inductive GoneBack : Derivation -> List Edit -> Derivation -> Prop
  | nil {root : Derivation} : GoneBack root [] root
  | cons {root next result : Derivation} {edit : Edit} {edits : List Edit} :
      GoesBack root edit ->
      root.edit? edit = some next ->
      GoneBack next edits result ->
      GoneBack root (edit :: edits) result

/-- Whether the step of a node is still to be chosen. -/
def isPending : Derivation -> Bool
  | .node _ .pending _ _ => true
  | _ => false

/-- The rule for the form of a program asks for what is found by going backwards. -/
theorem expands_asked {program : StraightLine} (final : program.IsFinal) {post : Expr}
    (complete : post.isComplete = true) :
    Expands program.rule (program.triple post) (program.input post) (program.asked post) := by
  cases program with
  | skip => exact .skip
  | assign target value => exact .assign
  | seq first second => exact .sequence (StraightLine.isComplete_back final.second complete)

/-- A node of a program that is treated backwards: it has the precondition that is found by
going backwards, and it is still open, or its premises are the ones that its rule asks
for. -/
inductive Treated : Derivation -> Prop
  | pending {program : StraightLine} {post : Expr} :
      program.IsFinal -> post.isComplete = true -> Treated (leaf (program.triple post))
  | applied {program : StraightLine} {post : Expr} {premises : List Derivation} :
      program.IsFinal -> post.isComplete = true ->
      premises.map conclusion? = (program.asked post).map some ->
      Treated (.node (program.triple post) (.applied program.rule) false premises)

theorem Treated.of_face {old node : Derivation} (sameFace : old.face? = node.face?)
    (treated : Treated old) : Treated node := by
  cases node with
  | missing => cases treated <;> cases sameFace
  | node conclusion step proved premises =>
      cases treated with
      | pending final complete =>
          simp only [leaf, face?, Option.some.injEq, Face.mk.injEq] at sameFace
          rcases sameFace with ⟨rfl, rfl, rfl, samePremises⟩
          cases List.map_eq_nil_iff.mp samePremises.symm
          exact .pending final complete
      | applied final complete shown =>
          simp only [face?, Option.some.injEq, Face.mk.injEq] at sameFace
          rcases sameFace with ⟨rfl, rfl, rfl, samePremises⟩
          exact .applied final complete (samePremises ▸ shown)

theorem Treated.exists_triple {conclusion : Triple} {step : Step} {proved : Bool}
    {premises : List Derivation} (treated : Treated (.node conclusion step proved premises)) :
    ∃ program post, conclusion = StraightLine.triple program post ∧ program.IsFinal ∧
      post.isComplete = true := by
  cases treated with
  | pending final complete => exact ⟨_, _, rfl, final, complete⟩
  | applied final complete _ => exact ⟨_, _, rfl, final, complete⟩

/-- What is asked for can be treated backwards in its turn. -/
theorem treated_leaf_of_asked {program : StraightLine} (final : program.IsFinal) {post : Expr}
    (complete : post.isComplete = true) {triple : Triple} (isAsked : triple ∈ program.asked post) :
    Treated (leaf triple) := by
  cases program with
  | skip | assign => cases isAsked
  | seq first second =>
      simp only [StraightLine.asked, List.mem_cons, List.not_mem_nil, or_false] at isAsked
      rcases isAsked with rfl | rfl
      · exact .pending final.first (StraightLine.isComplete_back final.second complete)
      · exact .pending final.second complete

/-- Where a program is treated backwards, the edit that goes backwards is accepted, and what
it leaves is treated backwards again. -/
theorem edit?_backEdit {root : Derivation} (treated : Everywhere Treated root) {path : Path}
    {program : StraightLine} {pre post : Expr} {step : Step} {proved : Bool}
    {premises : List Derivation}
    (found : root.at? path = some (.node ⟨pre, program.stmt, post⟩ step proved premises)) :
    ∃ next, root.edit? (backEdit program post path) = some next ∧
      next.conclusion? = root.conclusion? ∧ Everywhere Treated next := by
  rcases (treated path _ found).exists_triple with ⟨other, post', same, final, complete⟩
  rcases Triple.mk.inj same with ⟨rfl, sameStmt, rfl⟩
  cases StraightLine.stmt_injective sameStmt
  have expands := expands_asked final complete
  have present : Derivation.node (program.triple post) (.applied program.rule) false
      ((program.asked post).map leaf) ≠ .missing :=
    Derivation.noConfusion
  rcases exists_replace? found present with ⟨next, replaced⟩
  refine ⟨next, ?_, conclusion?_of_replace? found (by rfl) replaced, ?_⟩
  · exact edit?_eq_some_iff.mpr ⟨program.rule, rfl, refine?_eq_some_iff.mpr
      ⟨program.triple post, step, proved, premises, program.asked post, found, expands, replaced⟩⟩
  · -- The node keeps its triple, so every face outside the new subtree stays as it was.
    apply treated.of_replace? (fun _ _ sameFace => Treated.of_face sameFace) found replaced rfl
    refine everywhere_node_iff.mpr ⟨.applied final complete (map_conclusion?_leaf _), ?_⟩
    intro premise member
    rcases List.mem_map.mp member with ⟨triple, isAsked, rfl⟩
    exact everywhere_leaf (treated_leaf_of_asked final complete isAsked)

theorem GoneBack.treated {root result : Derivation} {edits : List Edit}
    (gone : GoneBack root edits result) (treated : Everywhere Treated root) :
    result.conclusion? = root.conclusion? ∧ Everywhere Treated result := by
  induction gone with
  | nil => exact ⟨rfl, treated⟩
  | cons goes accepted _ inductionHypothesis =>
      rcases goes with ⟨path, program, pre, post, step, proved, premises, found, rfl⟩
      rcases edit?_backEdit treated found with ⟨next, isNext, sameConclusion, treatedNext⟩
      cases accepted.symm.trans isNext
      rcases inductionHypothesis treatedNext with ⟨sameResult, treatedResult⟩
      exact ⟨sameResult.trans sameConclusion, treatedResult⟩

/-- At every node of a program that is treated backwards, the edit that goes backwards is
accepted. -/
theorem exists_goesBack {root node : Derivation} (treated : Everywhere Treated root) {path : Path}
    (found : root.at? path = some node) :
    ∃ edit next, edit.path = path ∧ GoesBack root edit ∧ root.edit? edit = some next := by
  cases node with
  | missing => exact absurd rfl (ne_missing_of_at? found)
  | node conclusion step proved premises =>
      rcases (treated path _ found).exists_triple with ⟨program, post, rfl, _, _⟩
      rcases edit?_backEdit treated found with ⟨next, isNext, _, _⟩
      exact ⟨_, next, rfl, ⟨path, program, _, post, step, proved, premises, found, rfl⟩, isNext⟩

/-! ## Closed derivations -/

theorem Treated.isDirect {node : Derivation} (treated : Treated node)
    (closed : node.isPending = false) : node.isDirect = true := by
  cases treated with
  | pending => cases closed
  | @applied program post premises final complete shown => cases program <;> rfl

/-- What is asked for when going backwards has numbers for constants if the precondition has. -/
theorem accepts_of_asked {program : StraightLine} {post : Expr}
    (numeric : (program.back post).isNumeric = true) {triple : Triple}
    (isAsked : triple ∈ program.asked post) : Boundary.structural.accepts triple = true := by
  cases program with
  | skip | assign => cases isAsked
  | seq first second =>
      have middleNumeric : (second.back post).isNumeric = true :=
        StraightLine.isNumeric_of_back numeric
      have postNumeric := StraightLine.isNumeric_of_back middleNumeric
      simp only [StraightLine.asked, List.mem_cons, List.not_mem_nil, or_false] at isAsked
      rcases isAsked with rfl | rfl
      · exact Bool.and_eq_true_iff.mpr ⟨numeric, middleNumeric⟩
      · exact Bool.and_eq_true_iff.mpr ⟨middleNumeric, postNumeric⟩

/-- A node that has been treated backwards is justified if every constant of its precondition is a
number, and then the preconditions of its premises are such assertions again. -/
theorem Treated.justified {conclusion : Triple} {step : Step} {proved : Bool}
    {premises : List Derivation} (treated : Treated (.node conclusion step proved premises))
    (closed : (node conclusion step proved premises).isPending = false)
    (numeric : conclusion.pre.isNumeric = true) (strictness : Strictness) :
    Justified strictness (.node conclusion step proved premises) ∧
      forall premise triple, premise ∈ premises -> premise.conclusion? = some triple ->
        triple.pre.isNumeric = true := by
  cases treated with
  | pending => cases closed
  | @applied program post _ final complete shown =>
      refine ⟨?_, fun premise triple member derives => ?_⟩
      · cases program with
        | skip =>
            cases List.map_eq_nil_iff.mp shown
            exact .skip ((Expr.sameShape_self _).trans numeric)
        | assign target value =>
            cases List.map_eq_nil_iff.mp shown
            exact .assign ((Expr.sameShape_self _).trans numeric)
        | seq first second =>
            have fits := (expands_asked final complete).justified_iff strictness (Or.inl rfl) false
            refine (fits.mpr fun triple isAsked => accepts_of_asked numeric isAsked).of_premises ?_
            rw [shown, map_conclusion?_leaf]
      · have isAsked := (exists_premise_iff shown).mp ⟨premise, member, derives⟩
        exact (Bool.and_eq_true_iff.mp (accepts_of_asked numeric isAsked)).1

theorem isValid_of_treated {root : Derivation} {triple : Triple}
    (derives : root.conclusion? = some triple) (numeric : triple.pre.isNumeric = true)
    (treated : Everywhere Treated root)
    (closed : Everywhere (fun node => node.isPending = false) root) (strictness : Strictness) :
    root.isValid strictness = true := by
  induction root using nodeInduction generalizing triple with
  | missing => cases derives
  | node conclusion step proved premises inductionHypothesis =>
      cases derives
      rcases treated.root.justified closed.root numeric strictness with ⟨justified, below⟩
      refine (isValid_node_iff _ _ _ _ _).mpr ⟨justified, fun premise member => ?_⟩
      cases premise with
      | missing => exact absurd rfl (justified.premise_present member)
      | node triple step' proved' premises' =>
          exact inductionHypothesis _ member rfl (below _ triple member rfl)
            (treated.premise member) (closed.premise member)

theorem GoneBack.append {root middle result : Derivation} {first second : List Edit}
    (gone : GoneBack root first middle) (goesOn : GoneBack middle second result) :
    GoneBack root (first ++ second) result := by
  induction gone with
  | nil => exact goesOn
  | cons goes accepted _ inductionHypothesis =>
      exact .cons goes accepted (inductionHypothesis goesOn)

/-- Edits of a premise are edits of its node, made below. -/
theorem GoneBack.inPremise {premise changed : Derivation} {edits : List Edit}
    (gone : GoneBack premise edits changed) (conclusion : Triple) (step : Step) (proved : Bool)
    (before after : List Derivation) :
    GoneBack (.node conclusion step proved (before ++ premise :: after))
      (edits.map (Edit.below before.length))
      (.node conclusion step proved (before ++ changed :: after)) := by
  induction gone with
  | nil => exact .nil
  | @cons premise next _ edit edits goes accepted _ inductionHypothesis =>
      rcases goes with ⟨path, program, pre, post, targetStep, targetProved, below, found, rfl⟩
      refine .cons ⟨(before.length : Int) :: path, program, pre, post, targetStep, targetProved,
        below, ?_, rfl⟩ ?_ inductionHypothesis
      · rw [at?_below]
        exact found
      · rw [edit?_below, accepted]
        rfl

/-- The first edit of a triple, which leaves the triples that are asked for. -/
theorem goneBack_first {program : StraightLine} (final : program.IsFinal) {post : Expr}
    (complete : post.isComplete = true) :
    GoneBack (leaf (program.triple post)) [backEdit program post []]
      (.node (program.triple post) (.applied program.rule) false
        ((program.asked post).map leaf)) :=
  .cons ⟨[], program, _, post, _, _, _, rfl, rfl⟩ (edit?_leaf (expands_asked final complete)) .nil

/-- A program can be treated backwards until no node is open. -/
theorem exists_goneBack {program : StraightLine} (final : program.IsFinal) {post : Expr}
    (complete : post.isComplete = true) :
    ∃ edits result, GoneBack (leaf (program.triple post)) edits result ∧
      Everywhere (fun node => node.isPending = false) result := by
  induction program generalizing post with
  | skip =>
      exact ⟨_, _, goneBack_first final complete,
        everywhere_node_iff.mpr ⟨rfl, fun _ member => absurd member List.not_mem_nil⟩⟩
  | assign target value =>
      exact ⟨_, _, goneBack_first final complete,
        everywhere_node_iff.mpr ⟨rfl, fun _ member => absurd member List.not_mem_nil⟩⟩
  | seq first second firstHypothesis secondHypothesis =>
      have middleComplete := StraightLine.isComplete_back final.second complete
      rcases firstHypothesis final.first middleComplete with
        ⟨firstEdits, firstResult, firstGone, firstClosed⟩
      rcases secondHypothesis final.second complete with
        ⟨secondEdits, secondResult, secondGone, secondClosed⟩
      -- The second premise is treated when the first one is closed.
      have below := (firstGone.inPremise ((first.seq second).triple post) (.applied .sequence) false
        [] [leaf (second.triple post)]).append
          (secondGone.inPremise _ _ _ [firstResult] [])
      refine ⟨_, _, (goneBack_first final complete).append below, ?_⟩
      refine everywhere_node_iff.mpr ⟨rfl, ?_⟩
      intro premise member
      rcases List.mem_cons.mp member with rfl | isSecond
      · exact firstClosed
      · cases List.mem_singleton.mp isSecond
        exact secondClosed

/-- A program made of `skip`, assignments and sequences has exactly one precondition for a
postcondition, if no step of consequence is used: the one that is found by going backwards.
Every valid derivation without such steps has it, whatever the strictness.  If nothing is missing
in the program and the postcondition, the triple with this precondition can be started from, at
every node the edit that goes backwards is accepted, whatever has been edited backwards before,
and once no node is left open the derivation has no step of consequence, and under every
strictness it is valid exactly when every constant of the precondition is a number.  Such edits can
be made until no node is left open. -/
theorem straight_line_precondition (program : StraightLine) (post : Expr) :
    (forall strictness root pre, isValid strictness root = true ->
      Everywhere (fun node => node.isDirect = true) root ->
      root.conclusion? = some ⟨pre, program.stmt, post⟩ ->
        pre.sameShape (program.back post) = true) ∧
    (program.stmt.finalize = some program.stmt -> post.isComplete = true ->
      ∃ start, create? (program.back post) program.stmt post = some start ∧
        (forall edits result, GoneBack start edits result ->
          (forall path node, result.at? path = some node ->
            ∃ edit next, edit.path = path ∧ GoesBack result edit ∧
              result.edit? edit = some next) ∧
          (Everywhere (fun node => node.isPending = false) result ->
            result.conclusion? = some ⟨program.back post, program.stmt, post⟩ ∧
              Everywhere (fun node => node.isDirect = true) result ∧
                forall strictness, result.isValid strictness = true ↔
                  (program.back post).isNumeric = true)) ∧
        ∃ edits result, GoneBack start edits result ∧
          Everywhere (fun node => node.isPending = false) result) := by
  have unique : forall strictness root pre, isValid strictness root = true ->
      Everywhere (fun node => node.isDirect = true) root ->
      root.conclusion? = some ⟨pre, program.stmt, post⟩ ->
        pre.sameShape (program.back post) = true := by
    intro strictness root pre valid direct derives
    exact sameShape_back_of_isValid valid direct derives (Stmt.sameValue_refl _)
      (Expr.sameValue_refl _)
  refine ⟨unique, ?_⟩
  intro final complete
  have backComplete := StraightLine.isComplete_back final complete
  refine ⟨leaf (program.triple post), ?_, ?_, exists_goneBack final complete⟩
  · exact create?_eq_some_iff.mpr ⟨program.stmt, final, backComplete, complete, rfl⟩
  · intro edits result gone
    rcases gone.treated (everywhere_leaf (.pending final complete)) with ⟨derives, treated⟩
    refine ⟨fun path node found => exists_goesBack treated found, fun closed => ?_⟩
    have direct : Everywhere (fun node => node.isDirect = true) result :=
      fun path node found => (treated path node found).isDirect (closed path node found)
    refine ⟨derives, direct, fun strictness => ⟨fun valid => ?_, fun numeric => ?_⟩⟩
    · exact (Expr.isNumeric_of_sameShape (unique strictness result _ valid direct derives)).1
    · exact isValid_of_treated derives numeric treated closed strictness

/-- The program `x := x - 1; skip`. -/
def lowering : StraightLine :=
  .seq (.assign "x" (.binary .sub (.var "x") (.const (.whole 1)))) .skip

theorem lowering_straight_line_precondition :
    (lowered unitDouble).conclusion? =
        some ⟨enough unitDouble, lowering.stmt, atLeastConst 0⟩ ∧
      (lowered unitDouble).isValid .full = true ∧
        (enough unitDouble).sameShape (lowering.back (atLeastConst 0)) = true ∧
          ∃ start edits result,
            create? (lowering.back (atLeastConst 0)) lowering.stmt (atLeastConst 0) = some start ∧
              GoneBack start edits result ∧ forall strictness, result.isValid strictness = true := by
  have valid : (lowered unitDouble).isValid .full = true := by decide +kernel
  have direct : Everywhere (fun node => node.isDirect = true) (lowered unitDouble) :=
    (everywhere_lowered_iff _ _).mpr ⟨rfl, rfl, rfl⟩
  rcases straight_line_precondition lowering (atLeastConst 0) with ⟨unique, treatable⟩
  rcases treatable (by decide +kernel) (by decide +kernel) with
    ⟨start, created, leads, edits, result, gone, closed⟩
  refine ⟨rfl, valid, unique .full _ _ valid direct rfl, start, edits, result, created, gone, ?_⟩
  intro strictness
  exact (((leads edits result gone).2 closed).2.2 strictness).mpr (by decide +kernel)

/-- The derivation of `{x < nan} skip {x < nan}` that is found by going backwards. -/
def idleOnce : Derivation :=
  .node ⟨belowNoNumber, .skip, belowNoNumber⟩ (.applied .skip) false []

/-- A postcondition with a constant that is not a number has no precondition: the derivation that
is found by going backwards is not valid. -/
theorem idleOnce_gone_back_invalid :
    StraightLine.skip.stmt.finalize = some StraightLine.skip.stmt ∧
      belowNoNumber.isComplete = true ∧
      create? (StraightLine.skip.back belowNoNumber) .skip belowNoNumber =
        some (leaf (StraightLine.skip.triple belowNoNumber)) ∧
      GoneBack (leaf (StraightLine.skip.triple belowNoNumber))
        [backEdit .skip belowNoNumber []] idleOnce ∧
      Everywhere (fun node => node.isPending = false) idleOnce ∧
      forall strictness, idleOnce.isValid strictness = false :=
  ⟨rfl, rfl, rfl, goneBack_first (show StraightLine.skip.IsFinal from rfl) rfl,
    everywhere_node_iff.mpr ⟨rfl, fun _ member => absurd member List.not_mem_nil⟩, fun _ => rfl⟩

end Derivation
end HoareProof
