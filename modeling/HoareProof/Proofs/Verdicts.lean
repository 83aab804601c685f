import HoareProof.Proofs.Inquiry

namespace HoareProof

/-!
When a check passes.  A check that asks a solver passes when no step fails in the
derivation that the answers leave behind.  Only the steps of consequence depend on the
answers, and they depend on them through their flags: a flag is set by a valid answer, or it
was set in the file before anything was asked.

The second possibility matters.  No answer clears a flag, so a file can vouch for its own
side conditions, and the check passes although the solver refuted them.  The main statement
says exactly when a check passes, and that the steps of consequence were all found valid
exactly when those that the file vouches for were.
-/

namespace Derivation

/-- Whether a node is a step of consequence with one premise. -/
def isWeakening : Derivation -> Bool
  | .node _ step _ [_] => step.isConsequence
  | _ => false

theorem isWeakening_iff {node : Derivation} :
    node.isWeakening = true ↔
      ∃ conclusion step proved premise, node = .node conclusion step proved [premise] ∧
        step.isConsequence = true := by
  constructor
  · intro weakening
    unfold isWeakening at weakening
    split at weakening
    · rename_i conclusion step proved premise
      exact ⟨conclusion, step, proved, premise, rfl, weakening⟩
    · cases weakening
  · rintro ⟨conclusion, step, proved, premise, rfl, isConsequence⟩
    exact isConsequence

theorem Justified.obligations_ne_nil {strictness : Strictness} {conclusion : Triple}
    {step : Step} {proved : Bool} {premises : List Derivation}
    (justified : Justified strictness (.node conclusion step proved premises))
    (isConsequence : step.isConsequence = true) :
    (Derivation.node conclusion step proved premises).obligations ≠ [] := by
  cases justified with
  | consequence same =>
      exact obligations_ne_nil_iff.mpr ⟨_, _, _, _, _, _, _, rfl, isConsequence⟩
  | skip same => cases isConsequence
  | assign same => cases isConsequence
  | sequence first second start middle final => cases isConsequence
  | conditional first second thenPre elsePre thenPost elsePost => cases isConsequence
  | loop body bodyPre bodyPost exit => cases isConsequence

theorem isWeakening_of_obligations {node : Derivation} (raises : node.obligations ≠ []) :
    node.isWeakening = true := by
  rcases obligations_ne_nil_iff.mp raises with ⟨_, _, _, _, _, _, _, rfl, isConsequence⟩
  exact isConsequence

/-- A justified step of consequence has side conditions, however its node is marked. -/
theorem obligations_ne_nil_of_marked {strictness : Strictness} {select : Path -> Bool}
    {node : Derivation} (justified : Justified strictness (node.markWhere select))
    (weakening : node.isWeakening = true) : node.obligations ≠ [] := by
  rcases isWeakening_iff.mp weakening with
    ⟨conclusion, step, proved, premise, rfl, isConsequence⟩
  rw [← obligations_markWhere select]
  exact Justified.obligations_ne_nil justified isConsequence

/-- What holds everywhere in a marked derivation, said of the original nodes. -/
theorem everywhere_markWhere_iff {property : Derivation -> Prop} {root : Derivation}
    {select : Path -> Bool} :
    Everywhere property (root.markWhere select) ↔
      forall path node, root.at? path = some node ->
        property (node.markWhere fun rest => select (path ++ rest)) := by
  constructor
  · intro everywhere path node found
    exact everywhere path _ (at?_markWhere_of_found select found)
  · intro original path marked foundMarked
    rw [at?_markWhere, Option.map_eq_some_iff] at foundMarked
    rcases foundMarked with ⟨node, found, isMarked⟩
    rw [← isMarked]
    exact original path node found

/-- Marks decide about the steps of consequence and about nothing else. -/
theorem justified_markWhere_iff (strictness : Strictness) (select : Path -> Bool)
    (node : Derivation) :
    Justified strictness (node.markWhere select) ↔
      Justified strictness (node.markWhere fun _ => true) ∧
        (node.isWeakening = true -> node.isProved = true ∨ select [] = true) := by
  cases node with
  | missing =>
      constructor
      · intro justified
        cases justified
      · rintro ⟨justified, _⟩
        cases justified
  | node conclusion step proved premises =>
      have samePremises : forall first second : Path -> Bool,
          (markPremises first 0 premises).map conclusion? =
            (markPremises second 0 premises).map conclusion? := by
        intro first second
        rw [map_conclusion?_markPremises, map_conclusion?_markPremises]
      rw [markWhere_node, markWhere_node, justified_iff_flag, Bool.or_true]
      constructor
      · rintro ⟨justified, flagged⟩
        refine ⟨justified.of_premises (samePremises _ _), ?_⟩
        intro weakening
        rcases isWeakening_iff.mp weakening with ⟨_, _, _, _, shape, isConsequence⟩
        cases shape
        exact Bool.or_eq_true_iff.mp (flagged isConsequence)
      · rintro ⟨justified, settled⟩
        refine ⟨justified.of_premises (samePremises _ _), ?_⟩
        intro isConsequence
        have original : Justified strictness (.node conclusion step true premises) :=
          justified.of_premises (map_conclusion?_markPremises _ 0 premises).symm
        have weakening := isWeakening_of_obligations (original.obligations_ne_nil isConsequence)
        rcases isWeakening_iff.mp weakening with ⟨_, _, _, _, shape, _⟩
        cases shape
        exact Bool.or_eq_true_iff.mpr (settled isConsequence)

/-- All steps are right once their flags are set, and every step of consequence has its flag
or a valid answer. -/
def PassesWith (strictness : Strictness) (valid : Path -> Prop) (root : Derivation) : Prop :=
  (root.markWhere fun _ => true).failures strictness = [] ∧
    forall path node, root.at? path = some node -> node.isWeakening = true ->
      node.isProved = true ∨ valid path

/-- Every step of consequence has a valid answer. -/
def AllValid (valid : Path -> Prop) (root : Derivation) : Prop :=
  forall path node, root.at? path = some node -> node.isWeakening = true -> valid path

/-- Every step of consequence whose flag is set has a valid answer all the same. -/
def FlaggedValid (valid : Path -> Prop) (root : Derivation) : Prop :=
  forall path node, root.at? path = some node -> node.isWeakening = true ->
    node.isProved = true -> valid path

/-- The node at a path is found valid by a solver. -/
def ReceivesValid (root : Derivation) (solver? : Option Solver) (budget : Int) (path : Path) :
    Prop :=
  ∃ node outcome, root.at? path = some node ∧ Query.prove solver? budget node = .ok outcome ∧
    outcome.status = .valid

/-- Only the answers to questions count, because a step of consequence without side
conditions fails in any case. -/
theorem passesWith_congr {strictness : Strictness} {valid other : Path -> Prop}
    {root : Derivation} (same : forall path node, root.at? path = some node ->
      node.obligations ≠ [] -> (valid path ↔ other path)) :
    root.PassesWith strictness valid ↔ root.PassesWith strictness other := by
  refine and_congr_right fun fits => ?_
  rw [failures_eq_nil_iff, everywhere_markWhere_iff] at fits
  refine forall_congr' fun path => forall_congr' fun node => forall_congr' fun found =>
    forall_congr' fun weakening => ?_
  have raises := obligations_ne_nil_of_marked (fits path node found) weakening
  rw [same path node found raises]

theorem PassesWith.allValid_iff {strictness : Strictness} {valid : Path -> Prop}
    {root : Derivation} (passes : root.PassesWith strictness valid) :
    root.AllValid valid ↔ root.FlaggedValid valid := by
  constructor
  · intro all path node found weakening _
    exact all path node found weakening
  · intro flagged path node found weakening
    rcases passes.2 path node found weakening with isProved | isValid
    · exact flagged path node found weakening isProved
    · exact isValid

end Derivation

namespace Inquiry

open HoareProof.Derivation

variable {root : Derivation} {verdict : Path -> Outcome}

theorem confirmed_eq_true_iff {paths : List Path} {path : Path} :
    confirmed verdict paths path = true ↔ path ∈ paths ∧ (verdict path).status = .valid := by
  simp [confirmed, Outcome.proved]

/-- What is left behind by the answers has no failure exactly when the derivation passes with
them. -/
theorem failures_confirmed_eq_nil_iff (strictness : Strictness) :
    (root.markWhere (confirmed verdict root.questionPaths)).failures strictness = [] ↔
      root.PassesWith strictness fun path => (verdict path).status = .valid := by
  rw [PassesWith, failures_eq_nil_iff, failures_eq_nil_iff, everywhere_markWhere_iff,
    everywhere_markWhere_iff]
  constructor
  · intro justified
    refine ⟨fun path node found => ?_, fun path node found weakening => ?_⟩
    · exact ((justified_markWhere_iff strictness _ node).mp (justified path node found)).1
    · rcases ((justified_markWhere_iff strictness _ node).mp (justified path node found)).2
        weakening with isProved | isConfirmed
      · exact Or.inl isProved
      · rw [List.append_nil] at isConfirmed
        exact Or.inr (confirmed_eq_true_iff.mp isConfirmed).2
  · rintro ⟨fits, settled⟩ path node found
    refine (justified_markWhere_iff strictness _ node).mpr ⟨fits path node found, ?_⟩
    intro weakening
    rcases settled path node found weakening with isProved | isValid
    · exact Or.inl isProved
    · refine Or.inr ?_
      rw [List.append_nil]
      refine confirmed_eq_true_iff.mpr ⟨mem_questionPaths_iff.mpr ⟨node, found, ?_⟩, isValid⟩
      exact obligations_ne_nil_of_marked (fits path node found) weakening

/-- The exit code of a report says whether a step fails. -/
theorem exitCode_reportCheck {surroundings : CommandLine.Surroundings} {strictness : Strictness}
    {file : String} {format : OutputFormat} {outcomes : List (Path × Outcome)}
    {result : CommandLine.Result}
    (reported : CommandLine.reportCheck surroundings strictness file format outcomes root =
      .ok result) :
    result.exitCode = 0 ↔ root.failures strictness = [] := by
  have isExitCode : result.exitCode = if (root.failures strictness).isEmpty then 0 else 1 := by
    unfold CommandLine.reportCheck at reported
    cases format with
    | json =>
        cases reported
        rfl
    | pretty =>
        simp only at reported
        split at reported
        · cases reported
          rfl
        · cases reported
  rw [isExitCode]
  cases root.failures strictness with
  | nil => simp
  | cons failure rest => simp

section Command

variable {solver? : Option Solver} {budget : Int} {session : Session} {select : Path -> Bool}

/-- Asking about everything succeeds only if every question can be written down. -/
theorem prove_of_proveAll {proved : List (Path × Outcome) × Session}
    (entries : List (Path × Derivation))
    (located : forall path node, (path, node) ∈ entries -> root.at? path = node.present?)
    (rooted : session.root = some (root.markWhere select))
    (proves : CommandLine.proveAll solver? budget session (entries.map (·.1)) = .ok proved) :
    forall path node, (path, node) ∈ entries -> node.obligations ≠ [] ->
      ∃ outcome, Query.prove solver? budget node = .ok outcome := by
  induction entries generalizing session select proved with
  | nil =>
      intro path node member
      cases member
  | cons entry entries inductionHypothesis =>
      rcases entry with ⟨first, asked⟩
      have atFirst := located first asked List.mem_cons_self
      have locatedRest : forall path node, (path, node) ∈ entries ->
          root.at? path = node.present? := by
        intro path node member
        exact located path node (List.mem_cons_of_mem _ member)
      rw [List.map_cons] at proves
      intro path node member raises
      by_cases quiet : asked.obligations = []
      · rw [proveAll_cons_of_quiet rooted atFirst quiet] at proves
        rcases List.mem_cons.mp member with isFirst | isRest
        · cases isFirst
          exact absurd quiet raises
        · exact inductionHypothesis locatedRest rooted proves path node isRest raises
      · have found := atFirst.trans (present?_of_obligations quiet)
        cases written : Obligation.script asked.obligations with
        | error error =>
            rw [proveAll_cons_of_tooLarge rooted found quiet written] at proves
            cases proves
        | ok lines =>
            rcases List.mem_cons.mp member with isFirst | isRest
            · cases isFirst
              exact ⟨_, (prove_eq_ok_iff quiet).mpr ⟨lines, written, rfl⟩⟩
            · rw [proveAll_cons_of_written rooted found quiet written] at proves
              have nowRooted := Session.root_record?_markWhere
                ⟨first, asked.markWhere fun below => select (first ++ below)⟩ rooted found rfl
                (Query.run solver? budget lines).status
              cases rest : CommandLine.proveAll solver? budget
                  ((session.record? ⟨first, asked.markWhere fun below => select (first ++ below)⟩
                    (Query.run solver? budget lines).status).getD session)
                  (entries.map (·.1)) with
              | error fault =>
                  rw [rest] at proves
                  cases proves
              | ok provedRest =>
                  exact inductionHypothesis locatedRest nowRooted rest path node isRest raises

theorem exists_answeredBy {proved : List (Path × Outcome) × Session}
    (proves : CommandLine.proveAll solver? budget (.start (some root)) (root.walk.map (·.1)) =
      .ok proved) :
    ∃ verdict, root.AnsweredBy solver? budget verdict := by
  have rooted := (start_faithful root fun _ => ⟨.error, [], []⟩).rooted
  have each : forall path, ∃ outcome, forall node, root.at? path = some node ->
      node.obligations ≠ [] -> Query.prove solver? budget node = .ok outcome := by
    intro path
    by_cases asks : ∃ node, root.at? path = some node ∧ node.obligations ≠ []
    · rcases asks with ⟨node, found, raises⟩
      rcases prove_of_proveAll root.walk (fun _ _ => at?_of_mem_walk) rooted proves path node
        (mem_walk_of_at? found) raises with ⟨outcome, isOutcome⟩
      refine ⟨outcome, ?_⟩
      intro other foundOther _
      cases found.symm.trans foundOther
      exact isOutcome
    · exact ⟨⟨.error, [], []⟩, fun node found raises => absurd ⟨node, found, raises⟩ asks⟩
  exact ⟨fun path => Classical.choose (each path), fun path node found raises =>
    Classical.choose_spec (each path) node found raises⟩

theorem check_eq_checkRoot {surroundings : CommandLine.Surroundings} {settings : Settings}
    {request : CommandLine.CheckRequest}
    (loaded : CommandLine.readProof surroundings.disk request.file = .ok root) :
    CommandLine.check surroundings settings request =
      CommandLine.checkRoot surroundings settings request
        (request.format.getD settings.outputFormat) root := by
  rw [CommandLine.check, loaded]
  change CommandLine.settle _ _ ((CommandLine.checkRoot _ _ _ _ root).mapError .fault) = _
  cases CommandLine.checkRoot surroundings settings request
      (request.format.getD settings.outputFormat) root with
  | error fault => rfl
  | ok result => rfl

theorem exists_answeredBy_of_checkRoot {surroundings : CommandLine.Surroundings}
    {settings : Settings} {request : CommandLine.CheckRequest} {format : OutputFormat}
    {result : CommandLine.Result} (proves : request.prove = true)
    (checked : CommandLine.checkRoot surroundings settings request format root = .ok result) :
    ∃ verdict, root.AnsweredBy surroundings.solver? (CommandLine.budgetOf settings request)
      verdict := by
  rw [CommandLine.checkRoot, if_pos proves] at checked
  cases proved : CommandLine.proveAll surroundings.solver?
      (CommandLine.budgetOf settings request) (.start (some root)) (root.walk.map (·.1)) with
  | error fault =>
      rw [proved] at checked
      cases checked
  | ok all => exact exists_answeredBy proved

/-- A check that gives a result has had an answer to every question, and reports on what the
answers leave behind. -/
theorem exists_verdict_of_check {surroundings : CommandLine.Surroundings} {settings : Settings}
    {request : CommandLine.CheckRequest} {result : CommandLine.Result}
    (proves : request.prove = true)
    (loaded : CommandLine.readProof surroundings.disk request.file = .ok root)
    (checked : CommandLine.check surroundings settings request = .ok result) :
    ∃ verdict, root.AnsweredBy surroundings.solver? (CommandLine.budgetOf settings request)
        verdict ∧
      (result.exitCode = 0 ↔ root.PassesWith (CommandLine.strictnessOf settings request)
        fun path => (verdict path).status = .valid) := by
  rw [check_eq_checkRoot loaded] at checked
  rcases exists_answeredBy_of_checkRoot proves checked with ⟨verdict, answeredBy⟩
  rw [checkRoot_eq_reportCheck _ proves answeredBy] at checked
  refine ⟨verdict, answeredBy, ?_⟩
  rw [exitCode_reportCheck checked, failures_confirmed_eq_nil_iff]

end Command

/-- When a check passes.  After any finished inquiry, whatever the verdicts and their order,
the exit code is zero exactly when all steps are right once their flags are set and every step
of consequence had its flag from the beginning or got a valid verdict; a step that had neither
is among the failures.  The command behaves in this way with every solver.  So when it
passes, all steps of consequence were found valid exactly when those whose flags the file
had set were found valid. -/
theorem passed_iff_flagged_or_valid (root : Derivation) :
    (forall verdict final, Run verdict (start root) final -> final.Finished ->
      forall surroundings strictness file format outcomes result,
        CommandLine.reportCheck surroundings strictness file format outcomes
          (final.session.root.getD root) = .ok result ->
        (result.exitCode = 0 ↔
          root.PassesWith strictness fun path => (verdict path).status = .valid) ∧
        forall path node, root.at? path = some node -> node.isWeakening = true ->
          node.isProved = false -> (verdict path).status ≠ .valid ->
            ∃ failure, failure ∈ (final.session.root.getD root).failures strictness ∧
              failure.path = path) ∧
    forall surroundings settings request result, request.prove = true ->
      CommandLine.readProof surroundings.disk request.file = .ok root ->
      CommandLine.check surroundings settings request = .ok result ->
      (result.exitCode = 0 ↔ root.PassesWith (CommandLine.strictnessOf settings request)
        (root.ReceivesValid surroundings.solver? (CommandLine.budgetOf settings request))) ∧
      (result.exitCode = 0 ->
        (root.AllValid (root.ReceivesValid surroundings.solver?
            (CommandLine.budgetOf settings request)) ↔
          root.FlaggedValid (root.ReceivesValid surroundings.solver?
            (CommandLine.budgetOf settings request)))) := by
  constructor
  · intro verdict final run finished surroundings strictness file format outcomes result reported
    have isRoot := (((start_faithful root verdict).run run).finished finished).2
    rw [isRoot, Option.getD_some] at reported ⊢
    constructor
    · rw [exitCode_reportCheck reported, failures_confirmed_eq_nil_iff]
    · intro path node found weakening unproved notValid
      apply exists_failure (at?_markWhere_of_found _ found)
      intro justified
      rcases ((justified_markWhere_iff strictness _ node).mp justified).2 weakening with
        isProved | isConfirmed
      · rw [unproved] at isProved
        cases isProved
      · rw [List.append_nil] at isConfirmed
        exact notValid (confirmed_eq_true_iff.mp isConfirmed).2
  · intro surroundings settings request result proves loaded checked
    rcases exists_verdict_of_check proves loaded checked with ⟨verdict, answeredBy, passed⟩
    have sameAnswers : forall path node, root.at? path = some node -> node.obligations ≠ [] ->
        ((verdict path).status = .valid ↔ root.ReceivesValid surroundings.solver?
          (CommandLine.budgetOf settings request) path) := by
      intro path node found raises
      have isVerdict := answeredBy path node found raises
      constructor
      · intro isValid
        exact ⟨node, verdict path, found, isVerdict, isValid⟩
      · rintro ⟨other, outcome, foundOther, isOutcome, isValid⟩
        cases found.symm.trans foundOther
        cases isVerdict.symm.trans isOutcome
        exact isValid
    rw [passesWith_congr sameAnswers] at passed
    exact ⟨passed, fun isZero => (passed.mp isZero).allValid_iff⟩

/-! ## A file that vouches for itself -/

/-- A file that derives one assertion from another and claims that this has been proved. -/
def vouchingDisk : Disk :=
  ⟨[], [(["f"], .text (
    "\x7b\"pre\":\"p\",\"stmt\":\"skip\",\"post\":\"q\",\"rule\":\"consequence\"," ++
    "\"obligations_proved\":true," ++
    "\"children\":[\x7b\"pre\":\"p\",\"stmt\":\"skip\",\"post\":\"p\",\"rule\":\"skip\"\x7d]\x7d"))]⟩

/-- The derivation in the file. -/
def vouched : Derivation :=
  .node ⟨.var "p", .skip, .var "q"⟩ (.applied .consequence) true
    [.node ⟨.var "p", .skip, .var "p"⟩ (.applied .skip) false []]

/-- The file, and a solver that always gives the same answer. -/
def vouching (answer : Answer) : CommandLine.Surroundings :=
  ⟨vouchingDisk, some ⟨fun _ => answer, fun _ => false⟩, false⟩

/-- A check of the file that asks the solver. -/
def vouchedRequest : CommandLine.CheckRequest :=
  ⟨"f", true, none, none, false, false⟩

theorem vouched_loads (answer : Answer) :
    CommandLine.readProof (vouching answer).disk vouchedRequest.file = .ok vouched := by
  change CommandLine.readProof vouchingDisk "f" = .ok vouched
  apply eq_ok_of_toOption
  decide +kernel

theorem vouched_passes (answer : Answer)
    (evaluated : (CommandLine.checkRoot (vouching answer) .standard vouchedRequest .pretty
      vouched).toOption.map (·.exitCode) = some 0) :
    ∃ result, CommandLine.check (vouching answer) .standard vouchedRequest = .ok result ∧
      result.exitCode = 0 := by
  rcases Option.map_eq_some_iff.mp evaluated with ⟨result, isResult, isZero⟩
  refine ⟨result, ?_, isZero⟩
  rw [check_eq_checkRoot (vouched_loads answer)]
  exact eq_ok_of_toOption isResult

theorem vouched_flagged_confirmed :
    ∃ result, CommandLine.check (vouching .sat) .standard vouchedRequest = .ok result ∧
      result.exitCode = 0 ∧ vouched.AllValid (vouched.ReceivesValid (vouching .sat).solver?
        (CommandLine.budgetOf .standard vouchedRequest)) := by
  rcases vouched_passes .sat (by decide +kernel) with ⟨result, checked, isZero⟩
  refine ⟨result, checked, isZero, ?_⟩
  apply (((passed_iff_flagged_or_valid vouched).2 (vouching .sat) .standard vouchedRequest result
    rfl (vouched_loads .sat) checked).2 isZero).mpr
  intro path node found weakening _
  have visited : (path, node) ∈ [([], vouched), ([0], _)] := mem_walk_of_at? found
  rcases List.mem_cons.mp visited with isRoot | isPremise
  · cases isRoot
    have confirms : (Query.prove (vouching .sat).solver?
        (CommandLine.budgetOf .standard vouchedRequest) vouched).toOption =
          some ⟨.valid, ["sat", "sat"], []⟩ := by
      decide +kernel
    exact ⟨vouched, _, rfl, eq_ok_of_toOption confirms, rfl⟩
  · cases List.mem_singleton.mp isPremise
    cases weakening

/-- The check of the file passes although the solver refutes both side conditions. -/
theorem vouched_passes_refuted :
    CommandLine.readProof (vouching .unsat).disk vouchedRequest.file = .ok vouched ∧
      (∃ result, CommandLine.check (vouching .unsat) .standard vouchedRequest = .ok result ∧
        result.exitCode = 0) ∧
      ¬ vouched.AllValid (vouched.ReceivesValid (vouching .unsat).solver?
        (CommandLine.budgetOf .standard vouchedRequest)) := by
  refine ⟨vouched_loads .unsat, vouched_passes .unsat (by decide +kernel), ?_⟩
  intro all
  rcases all [] vouched rfl rfl with ⟨node, outcome, found, isOutcome, isValid⟩
  have refutes : (Query.prove (vouching .unsat).solver?
      (CommandLine.budgetOf .standard vouchedRequest) vouched).toOption =
        some ⟨.invalid, ["unsat", "unsat"], []⟩ := by
    decide +kernel
  cases found
  cases isOutcome.symm.trans (eq_ok_of_toOption refutes)
  cases isValid

end Inquiry
end HoareProof
