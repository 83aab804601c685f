import HoareProof.Proofs.Arithmetic
import HoareProof.Proofs.Inquiry
import HoareProof.Proofs.Outcomes
import HoareProof.Proofs.ScriptReader
import HoareProof.Proofs.Substitution

namespace HoareProof

/-!
What a solver is asked, and what its answers prove.  A script is text, so a mistake in it
would be seen by nobody: a variable that is not bound, the two sides of an implication
exchanged, or an answer taken for that of another question.  Here the blocks of a script are
read again, by a reader that knows nothing of side conditions, and what is read has a meaning
of its own: a block is satisfiable when the variables that no quantifier binds have values
with which its formula holds for all values of those that are bound.

A solver is reliable when it finds only satisfiable blocks satisfiable.  Since every
variable of a side condition is bound, the answers of a reliable solver prove the side
conditions in every state of whole numbers.
-/

/-! ## The blocks of a script -/

namespace Text

theorem withoutBlanks_dropWhile (chars : List Char) :
    withoutBlanks (chars.dropWhile isBlank) = withoutBlanks chars := by
  induction chars with
  | nil => rfl
  | cons c rest inductionHypothesis =>
      cases blank : isBlank c with
      | true =>
          rw [List.dropWhile_cons_of_pos blank, inductionHypothesis]
          simp [withoutBlanks, blank]
      | false => rw [List.dropWhile_cons_of_neg (by simp [blank])]

/-- Trimming takes away nothing but blanks. -/
theorem withoutBlanks_trim (text : String) :
    withoutBlanks (trim text).toList = withoutBlanks text.toList := by
  have reversed : forall chars : List Char,
      withoutBlanks chars.reverse = (withoutBlanks chars).reverse := by
    intro chars
    exact List.filter_reverse
  rw [trim, String.toList_ofList, trimWhile, reversed, withoutBlanks_dropWhile, reversed,
    List.reverse_reverse, withoutBlanks_dropWhile]

end Text

namespace Obligation

/-- The implication as one assertion: the conclusion holds, or the premise does not. -/
def implication (obligation : Obligation) : Expr :=
  .disj obligation.conclusion (.negate obligation.premise)

/-- The variables of an implication. -/
def names (obligation : Obligation) : List String :=
  Expr.distinctNames (obligation.premise.occurrences ++ obligation.conclusion.occurrences)

theorem mem_names {obligation : Obligation} {name : String} :
    name ∈ obligation.names ↔
      name ∈ obligation.premise.occurrences ∨ name ∈ obligation.conclusion.occurrences := by
  rw [names, Expr.mem_distinctNames, List.mem_append]

/-- The block that asks about an implication, as its lines from the comment to the assertion. -/
def block (obligation : Obligation) (formula : String) : String :=
  "; " ++ obligation.name ++ "\n" ++ ("(assert " ++ formula ++ ")")

/-- Both sides of an implication can be written for a solver. -/
structure Sendable (obligation : Obligation) : Prop where
  premise : obligation.premise.Legible Number.Sendable
  conclusion : obligation.conclusion.Legible Number.Sendable

/-- The formula of an implication is written, and it is read as the implication for all whole
values of its variables. -/
theorem exists_formula {obligation : Obligation} (sendable : obligation.Sendable) :
    ∃ text, obligation.formula = .ok text ∧ forall rest, Token.Bounded rest ->
      Token.Spells text.toList (Script.Reads Script.formulaParser
        (Script.closure obligation.names obligation.implication)) rest := by
  have conclusionSent := Expr.sent_of_legible sendable.conclusion
  have premiseSent := Expr.sent_of_legible sendable.premise
  have sent : obligation.implication.Sent :=
    Expr.sent_binary rfl conclusionSent (Expr.sent_negate premiseSent)
  rcases conclusionSent with ⟨conclusion, conclusionWritten, _⟩
  rcases premiseSent with ⟨premise, premiseWritten, _⟩
  rcases sent with ⟨body, written, spells⟩
  have named : forall name, name ∈ obligation.names -> Token.isName name = true := by
    intro name member
    rcases mem_names.mp member with ofPremise | ofConclusion
    · exact sendable.premise.names name ofPremise
    · exact sendable.conclusion.names name ofConclusion
  have isBody : "(or " ++ conclusion ++ " (not " ++ premise ++ "))" = body := by
    rw [implication, Expr.disj, Expr.negate, Expr.solver, Expr.solver, conclusionWritten,
      premiseWritten] at written
    apply String.toList_inj.mp
    rw [← Except.ok.inj written]
    simp [Operator.solver]
  refine ⟨Script.closureText obligation.names body, ?_, ?_⟩
  · rw [formula, conclusionWritten, premiseWritten, ok_bind, ok_bind, isBody, Script.closureText]
    change (if obligation.names.isEmpty then _ else _) = _
    split <;> rfl
  · intro rest bounded
    exact Script.spells_closure named spells bounded

/-- What a block of a script asks about an implication: its comment is the name of the
implication, and it asserts the implication for all whole values of its variables, each of
which is bound once. -/
def AskedBy (obligation : Obligation) (text : String) : Prop :=
  ∃ names : List String,
    Script.Block.ofText? text =
        some ⟨obligation.name, Script.closure names obligation.implication⟩ ∧
      names.Pairwise (· < ·) ∧
        forall name, name ∈ names ↔
          name ∈ obligation.premise.occurrences ∨ name ∈ obligation.conclusion.occurrences

theorem askedBy_block {obligation : Obligation} {formula : String}
    (oneLine : forall c, c ∈ obligation.name.toList -> (c != '\n') = true)
    (spells : forall rest, Token.Bounded rest ->
      Token.Spells formula.toList (Script.Reads Script.formulaParser
        (Script.closure obligation.names obligation.implication)) rest) :
    obligation.AskedBy (obligation.block formula) :=
  ⟨obligation.names,
    Script.ofText?_block oneLine (spells _ (Token.bounded_cons rfl _)),
    Expr.pairwise_distinctNames _, fun _ => mem_names⟩

end Obligation

namespace Query

theorem trim_ne_askLine {line : String}
    (differs : Text.withoutBlanks line.toList ≠ askLine.toList) : Text.trim line ≠ askLine := by
  intro asks
  have kept := Text.withoutBlanks_trim line
  rw [asks] at kept
  exact differs kept.symm

/-- The lines of an implication are one block, whatever stands behind them. -/
theorem blocks_lines (obligation : Obligation) (formula : String) (rest : List String) :
    blocks (["; " ++ obligation.name, "(assert " ++ formula ++ ")", askLine] ++ rest) =
      obligation.block formula :: blocks rest := by
  have comment : Text.trim ("; " ++ obligation.name) ≠ askLine :=
    trim_ne_askLine (by simp [Text.withoutBlanks, askLine, Text.isBlank])
  have assertion : Text.trim ("(assert " ++ formula ++ ")") ≠ askLine :=
    trim_ne_askLine (by simp [Text.withoutBlanks, askLine, Text.isBlank])
  have asks : Text.trim askLine = askLine := by decide +kernel
  rw [blocks, List.cons_append, List.cons_append, List.cons_append, blocksFrom, if_neg comment,
    blocksFrom, if_neg assertion, blocksFrom, if_pos asks]
  rfl

/-- The script of implications has one block for each of them, in their order. -/
theorem exists_script {obligations : List Obligation}
    (sendable : forall obligation, obligation ∈ obligations -> obligation.Sendable)
    (oneLine : forall obligation, obligation ∈ obligations ->
      forall c, c ∈ obligation.name.toList -> (c != '\n') = true) :
    ∃ lines, Obligation.script obligations = .ok lines ∧
      List.Forall₂ Obligation.AskedBy obligations (blocks lines) := by
  induction obligations with
  | nil => exact ⟨[], rfl, .nil⟩
  | cons obligation more inductionHypothesis =>
      rcases inductionHypothesis (fun other member => sendable other (.tail _ member))
        (fun other member => oneLine other (.tail _ member)) with ⟨lines, written, asked⟩
      rcases Obligation.exists_formula (sendable obligation List.mem_cons_self) with
        ⟨formula, isFormula, spells⟩
      refine ⟨["; " ++ obligation.name, "(assert " ++ formula ++ ")", askLine] ++ lines, ?_, ?_⟩
      · rw [Obligation.script, Obligation.lines, isFormula, written]
        rfl
      · rw [blocks_lines]
        exact .cons (Obligation.askedBy_block (oneLine obligation List.mem_cons_self) spells) asked

/-- A valid outcome has a solver behind it that found every block satisfiable. -/
theorem sat_of_run_valid {solver? : Option Solver} {budget : Int} {lines : List String}
    (valid : (run solver? budget lines).status = .valid) :
    ∃ solver, solver? = some solver ∧
      forall block, block ∈ blocks lines -> solver.answer block = .sat := by
  rcases ask_valid_iff.mp valid with ⟨responses, isResponses, _, _, allSat⟩
  obtain ⟨solver, isSolver, rfl⟩ := Option.map_eq_some_iff.mp isResponses
  refine ⟨solver, isSolver, ?_⟩
  intro block member
  obtain ⟨index, inBounds, rfl⟩ := List.mem_iff_getElem.mp member
  apply allSat
  exact List.mem_mapIdx.mpr ⟨index, inBounds, rfl⟩

end Query

/-! ## What the answers prove -/

namespace Script

/-- The variables that no quantifier binds have values with which the formula holds for all
whole values of those that are bound. -/
def Formula.Satisfiable (formula : Formula) : Prop :=
  ∃ free : Store ℚ, forall store : Store ℚ,
    (forall name, name ∉ formula.binders.map Prod.fst -> store name = free name) ->
      (forall name, name ∈ formula.binders.map Prod.fst -> ∃ n : Int, store name = n) ->
        Evaluation.arithmetic.Satisfies store formula.body

/-- A solver that finds a block about whole numbers satisfiable only if what it asserts is. -/
def Reliable (solver : Solver) : Prop :=
  forall text block, Block.ofText? text = some block ->
    (forall binder, binder ∈ block.formula.binders -> binder.2 = "Int") ->
      solver.answer text = .sat -> block.formula.Satisfiable

theorem binders_closure (names : List String) (body : Expr) :
    (closure names body).binders = names.map fun name => (name, "Int") := by
  cases names <;> rfl

theorem body_closure (names : List String) (body : Expr) :
    (closure names body).body = body := by
  cases names <;> rfl

/-- If all variables of an assertion are bound, it holds in every state of whole numbers. -/
theorem satisfies_of_satisfiable {names : List String} {body : Expr}
    (bound : forall name, name ∈ body.occurrences -> name ∈ names)
    (satisfiable : (closure names body).Satisfiable) (state : Store Int) :
    Evaluation.arithmetic.Satisfies (Store.ofWhole state) body := by
  rcases satisfiable with ⟨free, holds⟩
  rw [binders_closure, body_closure] at holds
  -- The bound variables have the values of the state and all others those of the solver.
  let store : Store ℚ := fun name => if name ∈ names then Store.ofWhole state name else free name
  have holdsThere : Evaluation.arithmetic.Satisfies store body := by
    apply holds
    · intro name unbound
      exact if_neg fun member => unbound (by simpa using member)
    · intro name member
      have isBound : name ∈ names := by simpa using member
      exact ⟨state name, if_pos isBound⟩
  have sameValue : body.rational store = body.rational (Store.ofWhole state) := by
    apply Expr.rational_congr
    intro name occurs
    exact if_pos (bound name occurs)
  rw [Evaluation.arithmetic_satisfies_iff] at holdsThere ⊢
  rwa [← sameValue]

end Script

theorem Obligation.AskedBy.entails {obligation : Obligation} {text : String} {solver : Solver}
    (asked : obligation.AskedBy text) (reliable : Script.Reliable solver)
    (answer : solver.answer text = .sat) (state : Store Int)
    (premise : Evaluation.arithmetic.Satisfies (Store.ofWhole state) obligation.premise) :
    Evaluation.arithmetic.Satisfies (Store.ofWhole state) obligation.conclusion := by
  rcases asked with ⟨names, reads, _, covers⟩
  have bound : forall name, name ∈ obligation.implication.occurrences -> name ∈ names := by
    intro name occurs
    rw [covers, Or.comm]
    exact List.mem_append.mp occurs
  have whole : forall binder,
      binder ∈ (Script.closure names obligation.implication).binders -> binder.2 = "Int" := by
    rw [Script.binders_closure]
    simp
  have holds := Script.satisfies_of_satisfiable bound (reliable _ _ reads whole answer) state
  rcases (Evaluation.arithmetic_satisfies_disj _ _ _).mp holds with conclusion | fails
  · exact conclusion
  · exact absurd premise ((Evaluation.arithmetic.negate_holds _ _).mp fails)

namespace Derivation

/-- The side conditions of a step of consequence are asked for one by one, each under its name
and about all its variables, and an outcome that a reliable solver makes valid proves both of
them in every state of whole numbers. -/
theorem side_conditions_proved {conclusion premise : Triple} {step : Step} (premiseStep : Step)
    (proved premiseProved : Bool) (premises : List Derivation)
    (isConsequence : step.isConsequence = true)
    (sendable : forall assertion,
      assertion ∈ [conclusion.pre, conclusion.post, premise.pre, premise.post] ->
        assertion.Legible Number.Sendable) :
    let node := Derivation.node conclusion step proved
      [.node premise premiseStep premiseProved premises]
    (∃ lines first second, Obligation.script node.obligations = .ok lines ∧
        Query.blocks lines = [first, second] ∧
        Obligation.AskedBy ⟨"P_to_Pp", conclusion.pre, premise.pre⟩ first ∧
        Obligation.AskedBy ⟨"Qp_to_Q", premise.post, conclusion.post⟩ second) ∧
      forall (solver? : Option Solver) (budget : Int),
        (forall solver, solver? = some solver -> Script.Reliable solver) ->
          ∃ outcome, Query.prove solver? budget node = .ok outcome ∧
            (outcome.status = .valid -> forall state : Store Int,
              (Evaluation.arithmetic.Satisfies (Store.ofWhole state) conclusion.pre ->
                Evaluation.arithmetic.Satisfies (Store.ofWhole state) premise.pre) ∧
              (Evaluation.arithmetic.Satisfies (Store.ofWhole state) premise.post ->
                Evaluation.arithmetic.Satisfies (Store.ofWhole state) conclusion.post)) := by
  intro node
  have conditions : node.obligations =
      [⟨"P_to_Pp", conclusion.pre, premise.pre⟩, ⟨"Qp_to_Q", premise.post, conclusion.post⟩] := by
    simp [node, obligations, isConsequence]
  have bothSendable : forall obligation, obligation ∈ node.obligations -> obligation.Sendable := by
    rw [conditions]
    rintro _ (_ | ⟨_, _ | ⟨_, ⟨⟩⟩⟩)
    · exact ⟨sendable _ (by simp), sendable _ (by simp)⟩
    · exact ⟨sendable _ (by simp), sendable _ (by simp)⟩
  have oneLine : forall obligation, obligation ∈ node.obligations ->
      forall c, c ∈ obligation.name.toList -> (c != '\n') = true := by
    rw [conditions]
    rintro _ (_ | ⟨_, _ | ⟨_, ⟨⟩⟩⟩)
    · exact List.all_eq_true.mp (by decide +kernel : "P_to_Pp".toList.all (· != '\n') = true)
    · exact List.all_eq_true.mp (by decide +kernel : "Qp_to_Q".toList.all (· != '\n') = true)
  rcases Query.exists_script bothSendable oneLine with ⟨lines, written, asked⟩
  rw [conditions] at asked
  generalize areBlocks : Query.blocks lines = blocks at asked
  rcases asked with _ | ⟨askedFirst, _ | ⟨askedSecond, ⟨⟩⟩⟩
  rename_i first second
  refine ⟨⟨lines, first, second, written, areBlocks, askedFirst, askedSecond⟩, ?_⟩
  intro solver? budget reliable
  refine ⟨Query.run solver? budget lines,
    (Inquiry.prove_eq_ok_iff (by simp [conditions])).mpr ⟨lines, written, rfl⟩, ?_⟩
  intro valid state
  rcases Query.sat_of_run_valid valid with ⟨solver, isSolver, answers⟩
  rw [areBlocks] at answers
  have isReliable := reliable solver isSolver
  constructor
  · exact askedFirst.entails isReliable (answers first (by simp)) state
  · exact askedSecond.entails isReliable (answers second (by simp)) state

/-- The assertion `x > y`. -/
def exceeds : Expr := .binary .greater (.var "x") (.var "y")

/-- The assertion `(x - y) > -1`. -/
def gap : Expr :=
  .binary .greater (.binary .sub (.var "x") (.var "y")) (.const (.whole (-1)))

/-- The assertion `1 == 1`. -/
def unity : Expr := .binary .equal (.const (.whole 1)) (.const (.whole 1))

/-- The triple `{x > y} skip {true}`. -/
def claimed : Triple := ⟨exceeds, .skip, .truth true⟩

/-- The triple `{(x - y) > -1} skip {1 == 1}`. -/
def shown : Triple := ⟨gap, .skip, unity⟩

/-- A step of consequence with two side conditions, the second of which has no variables. -/
def loosening : Derivation :=
  .node claimed (.applied .consequence) false [.node shown .pending false []]

/-- A solver that knows two facts, and gives up on everything else. -/
def cautious : Solver where
  answer text :=
    if Script.Block.ofText? text =
          some ⟨"P_to_Pp", .forAll [("x", "Int"), ("y", "Int")] (.disj gap (.negate exceeds))⟩ ∨
        Script.Block.ofText? text =
          some ⟨"Qp_to_Q", .plain (.disj (.truth true) (.negate unity))⟩ then .sat
    else .unknown "incomplete"
  isPrompt _ := false

theorem reliable_cautious : Script.Reliable cautious := by
  intro text block reads _ answer
  dsimp only [cautious] at answer
  rw [reads] at answer
  split at answer
  next known =>
    rcases known with isGap | isTruth
    · cases isGap
      refine ⟨fun _ => 0, fun store _ _ => ?_⟩
      rw [Script.Formula.body, Evaluation.arithmetic_satisfies_disj]
      by_cases greater : store "y" < store "x"
      · left
        rw [gap, Evaluation.arithmetic_satisfies_greater]
        simp only [Expr.rational, Operator.onRationals, Number.rational]
        push_cast
        exact neg_one_lt_zero.trans (sub_pos.mpr greater)
      · right
        apply (Evaluation.arithmetic.negate_holds _ _).mpr
        exact fun holds => greater ((Evaluation.arithmetic_satisfies_greater _ _ _).mp holds)
    · cases isTruth
      refine ⟨fun _ => 0, fun store _ _ => ?_⟩
      rw [Script.Formula.body, Evaluation.arithmetic_satisfies_disj]
      left
      exact (truthRational_ne_zero true).mpr rfl
  next => cases answer

theorem loosening_side_conditions_proved :
    Script.Reliable cautious ∧
      (∃ outcome, Query.prove (some cautious) Query.defaultBudget loosening = .ok outcome ∧
        outcome.status = .valid) ∧
      forall state : Store Int,
        (Evaluation.arithmetic.Satisfies (Store.ofWhole state) exceeds ->
          Evaluation.arithmetic.Satisfies (Store.ofWhole state) gap) ∧
        (Evaluation.arithmetic.Satisfies (Store.ofWhole state) unity ->
          Evaluation.arithmetic.Satisfies (Store.ofWhole state) (.truth true)) := by
  have sendable : forall assertion,
      assertion ∈ [claimed.pre, claimed.post, shown.pre, shown.post] ->
        assertion.Legible Number.Sendable := by
    decide +kernel
  have answered : (Query.prove (some cautious) Query.defaultBudget loosening).toOption =
      some ⟨.valid, ["sat", "sat"], []⟩ := by
    decide +kernel
  have reliable : forall solver, some cautious = some solver -> Script.Reliable solver := by
    rintro _ ⟨⟩
    exact reliable_cautious
  have isConsequence : (Step.applied .consequence).isConsequence = true := rfl
  have sound := side_conditions_proved .pending false false [] isConsequence sendable
  rcases sound.2 (some cautious) Query.defaultBudget reliable with ⟨outcome, proves, entails⟩
  have isOutcome : outcome = ⟨.valid, ["sat", "sat"], []⟩ := by
    rw [loosening, proves] at answered
    exact Option.some.inj answered
  have valid : outcome.status = .valid := by rw [isOutcome]
  exact ⟨reliable_cautious, ⟨outcome, proves, valid⟩, entails valid⟩

end Derivation
end HoareProof
