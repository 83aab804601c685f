import HoareProof.Proofs.Verdicts

namespace HoareProof

/-!
The two verdicts about a derivation.  One is a single answer for a node and everything
below it, and stops at the first step that fails.  The other is the list of the steps that
fail, each on its own, from a walk over all nodes.  They are computed apart, and a report
shows both: its exit code comes from the list, and its verdict from the answer.

They agree at every node.  A walk names each node once, in the lexicographic order of
paths, and a node is valid exactly when nothing fails at a path that goes through it.
-/

namespace Path

/-- The lexicographic order of paths.  A path comes before all that go on from it. -/
def Before (first second : Path) : Prop :=
  List.Lex (fun index other : Int => index < other) first second

theorem Before.root {index : Int} {path : Path} : Before [] (index :: path) :=
  .nil

theorem Before.below {index : Int} {first second : Path} (before : Before first second) :
    Before (index :: first) (index :: second) :=
  .cons before

theorem Before.beside {index other : Int} (less : index < other) {first second : Path} :
    Before (index :: first) (other :: second) :=
  .rel less

theorem Before.ne {first second : Path} (before : Before first second) : first ≠ second := by
  rintro rfl
  exact List.lex_irrefl Int.lt_irrefl first before

end Path

namespace Derivation

/-! ## The order of a walk -/

theorem pairwise_walkPremises {premises : List Derivation}
    (each : forall premise, premise ∈ premises ->
      premise.walk.Pairwise fun entry later => Path.Before entry.1 later.1) (index : Nat) :
    (walkPremises index premises).Pairwise fun entry later => Path.Before entry.1 later.1 := by
  induction premises generalizing index with
  | nil => exact .nil
  | cons premise rest inductionHypothesis =>
      rw [walkPremises]
      apply List.pairwise_append.mpr
      refine ⟨?_, ?_, ?_⟩
      · apply List.pairwise_map.mpr
        exact (each premise List.mem_cons_self).imp Path.Before.below
      · exact inductionHypothesis
          (fun other member => each other (List.mem_cons_of_mem _ member)) (index + 1)
      · -- What stands further back is below a premise with a greater index.
        rintro entry isEntry ⟨laterPath, later⟩ isLater
        rcases List.mem_map.mp isEntry with ⟨below, _, rfl⟩
        rcases mem_walkPremises_iff.mp isLater with ⟨position, _, path, _, rfl, _⟩
        apply Path.Before.beside
        omega

/-- A walk goes through the nodes in the order of their paths. -/
theorem pairwise_walk (root : Derivation) :
    root.walk.Pairwise fun entry later => Path.Before entry.1 later.1 := by
  induction root using nodeInduction with
  | missing => exact List.pairwise_singleton _ _
  | node conclusion step proved premises inductionHypothesis =>
      rw [walk]
      apply List.Pairwise.cons
      · rintro ⟨path, node⟩ member
        rcases mem_walkPremises_iff.mp member with ⟨position, premise, rest, _, rfl, _⟩
        exact Path.Before.root
      · exact pairwise_walkPremises inductionHypothesis 0

/-! ## The list of failures -/

theorem failureAt?_eq_some_iff {strictness : Strictness} {path : Path} {node : Derivation}
    {failure : Failure} :
    failureAt? strictness (path, node) = some failure ↔
      ∃ conclusion step proved premises reason,
        node = .node conclusion step proved premises ∧
          localFailure strictness node = some reason ∧
            failure = ⟨path, conclusion, step.rule?, reason⟩ := by
  cases node with
  | missing => simp [failureAt?]
  | node conclusion step proved premises =>
      rw [failureAt?, Option.map_eq_some_iff]
      constructor
      · rintro ⟨reason, fails, isFailure⟩
        exact ⟨conclusion, step, proved, premises, reason, rfl, fails, isFailure.symm⟩
      · rintro ⟨_, _, _, _, reason, shape, fails, isFailure⟩
        cases shape
        exact ⟨reason, fails, isFailure.symm⟩

theorem path_of_failureAt? {strictness : Strictness} {entry : Path × Derivation}
    {failure : Failure} (fails : failureAt? strictness entry = some failure) :
    failure.path = entry.1 := by
  rcases failureAt?_eq_some_iff.mp fails with ⟨_, _, _, _, _, _, _, rfl⟩
  rfl

/-- The failures are in the order of their paths, so no path is listed twice. -/
theorem pairwise_failures (strictness : Strictness) (root : Derivation) :
    (root.failures strictness).Pairwise fun failure later =>
      Path.Before failure.path later.path := by
  rw [failures, List.pairwise_filterMap]
  refine root.pairwise_walk.imp ?_
  intro entry later before failure isFailure laterFailure isLater
  rw [path_of_failureAt? isFailure, path_of_failureAt? isLater]
  exact before

/-- Every failure is about the node at its path, and says what is wrong with its step. -/
theorem localFailure_of_mem_failures {strictness : Strictness} {root : Derivation}
    {failure : Failure} (member : failure ∈ root.failures strictness) :
    ∃ node, root.at? failure.path = some node ∧
      localFailure strictness node = some failure.reason := by
  rcases List.mem_filterMap.mp member with ⟨⟨path, node⟩, visited, fails⟩
  rcases failureAt?_eq_some_iff.mp fails with
    ⟨conclusion, step, proved, premises, reason, rfl, isReason, rfl⟩
  exact ⟨_, at?_of_mem_walk visited, isReason⟩

/-- The paths of the failures are those of the nodes whose steps fail. -/
theorem mem_failures_path_iff {strictness : Strictness} {root : Derivation} {path : Path} :
    path ∈ (root.failures strictness).map (·.path) ↔
      ∃ node, root.at? path = some node ∧ localFailure strictness node ≠ none := by
  rw [List.mem_map]
  constructor
  · rintro ⟨failure, member, rfl⟩
    rcases localFailure_of_mem_failures member with ⟨node, found, isReason⟩
    exact ⟨node, found, by simp [isReason]⟩
  · rintro ⟨node, found, fails⟩
    apply exists_failure found
    rwa [← localFailure_eq_none_iff]

/-! ## The single answer -/

/-- A node is valid exactly when nothing fails at a path through it. -/
theorem isValid_iff_no_failure {strictness : Strictness} {root node : Derivation} {path : Path}
    (found : root.at? path = some node) :
    node.isValid strictness = true ↔
      forall failure, failure ∈ root.failures strictness -> ¬ path <+: failure.path := by
  rw [isValid_iff_everywhere (ne_missing_of_at? found)]
  constructor
  · rintro everywhere failure member ⟨rest, isPath⟩
    rcases localFailure_of_mem_failures member with ⟨below, foundBelow, isReason⟩
    rw [← isPath, at?_append, found] at foundBelow
    have passes := (localFailure_eq_none_iff _ _).mpr (everywhere rest below foundBelow)
    rw [isReason] at passes
    cases passes
  · intro none rest below foundBelow
    apply Classical.byContradiction
    intro unjustified
    have foundInRoot : root.at? (path ++ rest) = some below := by
      rw [at?_append, found]
      exact foundBelow
    rcases exists_failure foundInRoot unjustified with ⟨failure, member, isPath⟩
    exact none failure member ⟨rest, isPath.symm⟩

theorem isValid_iff_failures_eq_nil {strictness : Strictness} {root : Derivation}
    (present : root ≠ .missing) :
    root.isValid strictness = true ↔ root.failures strictness = [] := by
  rw [isValid_iff_everywhere present, failures_eq_nil_iff]

theorem ne_missing_of_hasMissing {root : Derivation} (whole : root.hasMissing = false) :
    root ≠ .missing := by
  rintro rfl
  cases whole

end Derivation

/-! ## What a check reports -/

namespace CommandLine

open HoareProof.Derivation

/-- A document was printed whose verdict is that of the exit code. -/
def Result.AgreesWith (result : Result) (document : Json) : Prop :=
  result.output = document.write Json.reportStyle ++ "\n" ∧
    document.field? "valid" = some (.bool (result.exitCode == 0))

theorem agreesWith_of_reportCheck {surroundings : Surroundings} {strictness : Strictness}
    {file : String} {outcomes : List (Path × Outcome)} {root : Derivation} {result : Result}
    (present : root ≠ .missing)
    (reported : reportCheck surroundings strictness file .json outcomes root = .ok result) :
    result.AgreesWith (Report.document strictness (root.failures strictness)
      (outcomes.map fun entry => (entry.1.text, entry.2)) root) := by
  have sameVerdict : root.isValid strictness = (result.exitCode == 0) := by
    rw [Bool.eq_iff_iff, isValid_iff_failures_eq_nil present, beq_iff_eq]
    exact (Inquiry.exitCode_reportCheck reported).symm
  constructor
  · cases reported
    simp [Surroundings.printed]
  · rw [← sameVerdict]
    rfl

/-- A check reports on the derivation of its file, in which at most flags have been set. -/
theorem exists_reported_of_check {surroundings : Surroundings} {settings : Settings}
    {request : CheckRequest} {root : Derivation} {result : Result}
    (loaded : readProof surroundings.disk request.file = .ok root)
    (checked : check surroundings settings request = .ok result) :
    ∃ outcomes select,
      reportCheck surroundings (strictnessOf settings request) request.file
        (request.format.getD settings.outputFormat) outcomes (root.markWhere select) =
          .ok result := by
  rw [Inquiry.check_eq_checkRoot loaded] at checked
  by_cases proves : request.prove = true
  · rcases Inquiry.exists_answeredBy_of_checkRoot proves checked with ⟨verdict, answeredBy⟩
    rw [Inquiry.checkRoot_eq_reportCheck _ proves answeredBy] at checked
    exact ⟨_, _, checked⟩
  · rw [checkRoot, if_neg proves] at checked
    refine ⟨[], fun _ => false, ?_⟩
    rw [markWhere_false]
    exact checked

end CommandLine

namespace Derivation

/-- The verdicts agree.  For a derivation in which no node is missing, the failures are
listed under the paths of exactly the nodes whose steps fail, each path once and in
lexicographic order, with what is wrong there; a node is valid exactly when no failure is
listed under a path that goes through it, so the root is valid exactly when the list is
empty.  The exit code of a check is therefore the verdict that its report shows. -/
theorem verdicts_agree (root : Derivation) (whole : root.hasMissing = false) :
    (forall strictness, ∃ failures, root.failures? strictness = some failures ∧
      (forall path, path ∈ failures.map (·.path) ↔
        ∃ node, root.at? path = some node ∧ localFailure strictness node ≠ none) ∧
      (forall failure, failure ∈ failures -> ∃ node, root.at? failure.path = some node ∧
        localFailure strictness node = some failure.reason) ∧
      (failures.map (·.path)).Nodup ∧ (failures.map (·.path)).Pairwise Path.Before ∧
      (forall path node, root.at? path = some node ->
        (node.isValid strictness = true ↔
          forall failure, failure ∈ failures -> ¬ path <+: failure.path)) ∧
      (root.isValid strictness = true ↔ failures = [])) ∧
    forall surroundings settings request result,
      CommandLine.readProof surroundings.disk request.file = .ok root ->
      request.format.getD settings.outputFormat = .json ->
      CommandLine.check surroundings settings request = .ok result ->
      ∃ select outcomes,
        let strictness := CommandLine.strictnessOf settings request
        let final := root.markWhere select
        result.AgreesWith (Report.document strictness (final.failures strictness) outcomes final) ∧
          (result.exitCode = 0 ↔ final.isValid strictness = true) := by
  have present := ne_missing_of_hasMissing whole
  constructor
  · intro strictness
    have ordered := root.pairwise_failures strictness
    refine ⟨root.failures strictness, ?_, fun path => mem_failures_path_iff, ?_, ?_, ?_, ?_, ?_⟩
    · rw [failures?, whole]
      rfl
    · intro failure member
      exact localFailure_of_mem_failures member
    · exact List.pairwise_map.mpr (ordered.imp Path.Before.ne)
    · exact List.pairwise_map.mpr ordered
    · intro path node found
      exact isValid_iff_no_failure found
    · exact isValid_iff_failures_eq_nil present
  · intro surroundings settings request result loaded isJson checked
    rcases CommandLine.exists_reported_of_check loaded checked with ⟨outcomes, select, reported⟩
    have finalPresent : root.markWhere select ≠ .missing := by
      cases root with
      | missing => exact absurd rfl present
      | node conclusion step proved premises => exact Derivation.noConfusion
    rw [isJson] at reported
    have agrees := CommandLine.agreesWith_of_reportCheck finalPresent reported
    refine ⟨select, _, agrees, ?_⟩
    rw [Inquiry.exitCode_reportCheck reported, isValid_iff_failures_eq_nil finalPresent]

/-! ## A derivation of which a part is valid -/

/-- A sequence whose first premise is derived and whose second premise is a draft, with a
step that is no rule. -/
def patchwork : Derivation :=
  .node ⟨.var "p", .seq .complete .skip (.loop .draft .hole .skip), .hole⟩ (.applied .sequence)
    false [
    .node ⟨.var "p", .skip, .var "p"⟩ (.applied .skip) false [],
    .node ⟨.var "p", .loop .draft .hole .skip, .hole⟩ (.unrecognised "while") false [
      .node ⟨.var "p", .skip, .hole⟩ .pending false []]]

/-- A check for programs of the file that vouches for itself. -/
def vouchedReport : CommandLine.CheckRequest :=
  ⟨"f", true, none, some .json, false, false⟩

theorem patchwork_verdicts_agree :
    patchwork.hasMissing = false ∧
      (patchwork.failures .standard).map (·.path) = [[1], [1, 0]] ∧
      patchwork.isValid .standard = false ∧
      (forall node, patchwork.at? [0] = some node -> node.isValid .standard = true) ∧
      ∃ result select outcomes,
        CommandLine.check (Inquiry.vouching .unsat) .standard vouchedReport = .ok result ∧
          result.exitCode = 0 ∧
          (Report.document .standard ((Inquiry.vouched.markWhere select).failures .standard)
            outcomes (Inquiry.vouched.markWhere select)).field? "valid" = some (.bool true) := by
  have whole : patchwork.hasMissing = false := rfl
  have listed : (patchwork.failures .standard).map (·.path) = [[1], [1, 0]] := by decide +kernel
  rcases (verdicts_agree patchwork whole).1 .standard with
    ⟨failures, isFailures, _, _, _, _, atNodes, atRoot⟩
  have same : failures = patchwork.failures .standard := (Option.some.inj isFailures).symm
  rw [same] at atNodes atRoot
  refine ⟨whole, listed, ?_, ?_, ?_⟩
  · rw [← Bool.not_eq_true, atRoot]
    intro empty
    rw [empty] at listed
    cases listed
  · intro node found
    apply (atNodes [0] node found).mpr
    intro failure member ⟨rest, isPath⟩
    have isListed : failure.path ∈ (patchwork.failures .standard).map (·.path) :=
      List.mem_map_of_mem member
    rw [listed, ← isPath] at isListed
    simp at isListed
  · have evaluated : (CommandLine.checkRoot (Inquiry.vouching .unsat) .standard vouchedReport .json
        Inquiry.vouched).toOption.map (·.exitCode) = some 0 := by
      decide +kernel
    rcases Option.map_eq_some_iff.mp evaluated with ⟨result, isResult, isZero⟩
    have loaded : CommandLine.readProof (Inquiry.vouching .unsat).disk vouchedReport.file =
        .ok Inquiry.vouched := Inquiry.vouched_loads .unsat
    have checked : CommandLine.check (Inquiry.vouching .unsat) .standard vouchedReport =
        .ok result := by
      rw [Inquiry.check_eq_checkRoot loaded]
      exact eq_ok_of_toOption isResult
    rcases (verdicts_agree Inquiry.vouched rfl).2 (Inquiry.vouching .unsat) .standard vouchedReport
      result loaded rfl checked with ⟨select, outcomes, agrees, _⟩
    refine ⟨result, select, outcomes, checked, isZero, ?_⟩
    have verdict := agrees.2
    rw [isZero] at verdict
    exact verdict

end Derivation
end HoareProof
