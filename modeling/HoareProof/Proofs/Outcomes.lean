import HoareProof.Query
import Mathlib.Data.List.Forall2

namespace HoareProof

/-!
What the outcome of a query says about the answers behind it.  A query can end in six ways,
and they are decided one after the other: no solver, no question, a budget that no clock
measures, a wait that leaves the solver no time, a block that is refused, crashes the solver or
is never answered, a block that ran out of time, and only then the answers themselves.  A partial
answer that slipped through one of these gates would be taken for a proof.

The outcomes that say something about the formulas are characterised here by the answers
alone.  A query is valid when every block of it is satisfiable and there is at least one, and
invalid when all blocks are answered in time and one of them is not satisfiable.  Both need
answers that are waited for: the budget is measurable, and it is one that can be waited for or
the solver is through at once.  Otherwise the answers are not even looked at.
-/

/-- The word for an answer that ended normally.  A block that is refused, crashes the solver or
is never answered has none. -/
inductive Answer.Reported : Answer -> String -> Prop where
  | sat : Reported .sat "sat"
  | unsat : Reported .unsat "unsat"
  | unknown (reason : String) : Reported (.unknown reason) "unknown"

namespace Query

/-! ## Blocks of a script -/

/-- A line that asks for an answer. -/
def Asks (line : String) : Prop :=
  Text.trim line = askLine

/-- A script is cut behind every line that asks.  Such a line belongs to no block, and neither
does what stands behind the last one. -/
inductive Cut : List String -> List String -> Prop where
  | rest {lines : List String} (quiet : forall line, line ∈ lines -> ¬ Asks line) : Cut lines []
  | block {body rest blocks : List String} {line : String}
      (quiet : forall other, other ∈ body -> ¬ Asks other) (asks : Asks line)
      (more : Cut rest blocks) :
      Cut (body ++ line :: rest) (Text.joinWith "\n" body :: blocks)

theorem blocksFrom_cons_of_asks {line : String} (asks : Asks line) (current rest : List String) :
    blocksFrom current (line :: rest) = Text.joinWith "\n" current :: blocks rest := by
  rw [blocksFrom]
  exact if_pos asks

theorem blocksFrom_cons_of_not_asks {line : String} (quiet : ¬ Asks line)
    (current rest : List String) :
    blocksFrom current (line :: rest) = blocksFrom (current ++ [line]) rest := by
  rw [blocksFrom]
  exact if_neg quiet

theorem blocksFrom_of_quiet {lines : List String} (quiet : forall line, line ∈ lines -> ¬ Asks line)
    (current : List String) : blocksFrom current lines = [] := by
  induction lines generalizing current with
  | nil => rfl
  | cons line rest inductionHypothesis =>
      rw [blocksFrom_cons_of_not_asks (quiet line List.mem_cons_self)]
      exact inductionHypothesis (fun other member => quiet other (.tail _ member)) _

theorem blocksFrom_block {body : List String} (quiet : forall other, other ∈ body -> ¬ Asks other)
    {line : String} (asks : Asks line) (rest current : List String) :
    blocksFrom current (body ++ line :: rest) =
      Text.joinWith "\n" (current ++ body) :: blocks rest := by
  induction body generalizing current with
  | nil => rw [List.nil_append, blocksFrom_cons_of_asks asks, List.append_nil]
  | cons first more inductionHypothesis =>
      rw [List.cons_append, blocksFrom_cons_of_not_asks (quiet first List.mem_cons_self),
        inductionHypothesis fun other member => quiet other (.tail _ member),
        List.append_assoc, List.singleton_append]

/-- A script is cut in one way only. -/
theorem Cut.eq_blocks {lines parts : List String} (cut : Cut lines parts) :
    blocks lines = parts := by
  induction cut with
  | rest quiet => exact blocksFrom_of_quiet quiet []
  | block quiet asks _ inductionHypothesis =>
      rw [blocks, blocksFrom_block quiet asks, inductionHypothesis, List.nil_append]

theorem cut_blocksFrom (lines : List String) {current : List String}
    (quiet : forall line, line ∈ current -> ¬ Asks line) :
    Cut (current ++ lines) (blocksFrom current lines) := by
  induction lines generalizing current with
  | nil =>
      rw [List.append_nil]
      exact .rest quiet
  | cons line rest inductionHypothesis =>
      by_cases asks : Asks line
      · rw [blocksFrom_cons_of_asks asks]
        have none : forall other, other ∈ ([] : List String) -> ¬ Asks other :=
          fun _ member => absurd member List.not_mem_nil
        exact .block quiet asks (inductionHypothesis none)
      · rw [blocksFrom_cons_of_not_asks asks, List.append_cons]
        apply inductionHypothesis
        intro other member
        rcases List.mem_append.mp member with inCurrent | isLine
        · exact quiet other inCurrent
        · rwa [List.mem_singleton.mp isLine]

theorem cut_blocks (lines : List String) : Cut lines (blocks lines) :=
  cut_blocksFrom lines fun _ member => absurd member List.not_mem_nil

theorem Cut.append {lines parts : List String} (cut : Cut lines parts) {tail : List String}
    (quiet : forall line, line ∈ tail -> ¬ Asks line) : Cut (lines ++ tail) parts := by
  induction cut with
  | rest quietLines =>
      apply Cut.rest
      intro line member
      rcases List.mem_append.mp member with inLines | inTail
      · exact quietLines line inLines
      · exact quiet line inTail
  | block quietBody asks _ inductionHypothesis =>
      rw [List.append_assoc, List.cons_append]
      exact .block quietBody asks inductionHypothesis

/-- What stands behind the last question belongs to no block. -/
theorem blocks_append_of_quiet (lines : List String) {tail : List String}
    (quiet : forall line, line ∈ tail -> ¬ Asks line) : blocks (lines ++ tail) = blocks lines :=
  ((cut_blocks lines).append quiet).eq_blocks

theorem blocks_ne_nil_iff {lines : List String} :
    blocks lines ≠ [] ↔ ∃ line, line ∈ lines ∧ Asks line := by
  constructor
  · intro hasBlock
    by_contra nobody
    exact hasBlock (blocksFrom_of_quiet (fun line member asks => nobody ⟨line, member, asks⟩) [])
  · rintro ⟨line, member, asks⟩ noBlock
    have cut := cut_blocks lines
    rw [noBlock] at cut
    cases cut with
    | rest quiet => exact quiet line member asks

/-! ## Answers -/

theorem interruption?_eq_none_iff {answer : Answer} :
    interruption? answer = none ↔ ∃ word, answer.Reported word := by
  constructor
  · intro ends
    cases answer with
    | sat => exact ⟨_, .sat⟩
    | unsat => exact ⟨_, .unsat⟩
    | unknown reason => exact ⟨_, .unknown reason⟩
    | refused | crashed | silent => cases ends
  · rintro ⟨_, reported⟩
    cases reported <;> rfl

theorem reported_resultWord {answer : Answer} (ends : ∃ word, answer.Reported word) :
    answer.Reported (resultWord answer) := by
  rcases ends with ⟨_, reported⟩
  cases reported with
  | sat => exact .sat
  | unsat => exact .unsat
  | unknown reason => exact .unknown reason

theorem resultWord_eq_sat_iff {answer : Answer} : resultWord answer = "sat" ↔ answer = .sat := by
  cases answer <;> simp [resultWord]

theorem resultWord_eq_unsat_iff {answer : Answer} :
    resultWord answer = "unsat" ↔ answer = .unsat := by
  cases answer <;> simp [resultWord]

theorem ranOutOfTime_iff {answer : Answer} :
    ranOutOfTime answer = true ↔ answer = .unknown "timeout" ∨ answer = .unknown "canceled" := by
  cases answer <;> simp [ranOutOfTime]

/-- All answers are there when each of them ended normally. -/
theorem answers_of_reported {given : List Answer}
    (reported : forall answer, answer ∈ given -> ∃ word, answer.Reported word) :
    answers given = .ok given := by
  induction given with
  | nil => rfl
  | cons answer rest inductionHypothesis =>
      simp only [answers, interruption?_eq_none_iff.mpr (reported answer List.mem_cons_self),
        inductionHypothesis fun other member => reported other (.tail _ member)]

theorem reported_of_answers {given found : List Answer} (answered : answers given = .ok found) :
    forall answer, answer ∈ given -> ∃ word, answer.Reported word := by
  induction given generalizing found with
  | nil => nofun
  | cons answer rest inductionHypothesis =>
      rw [answers] at answered
      split at answered
      · cases answered
      next ends =>
        split at answered
        · cases answered
        next more ofRest =>
          intro other member
          rcases List.mem_cons.mp member with rfl | later
          · exact interruption?_eq_none_iff.mp ends
          · exact inductionHypothesis ofRest other later

theorem interpret_eq_valid_iff {given : List Answer} :
    interpret (given.map resultWord) = .valid ↔
      given ≠ [] ∧ forall answer, answer ∈ given -> answer = .sat := by
  have proves : (!(given.map resultWord).isEmpty &&
      (given.map resultWord).all (· == "sat")) = true ↔
      given ≠ [] ∧ forall answer, answer ∈ given -> answer = .sat := by
    simp [resultWord_eq_sat_iff]
  rw [← proves, interpret]
  split
  next holds => exact iff_of_true rfl holds
  next fails =>
    split
    · exact iff_of_false (by decide) fails
    · exact iff_of_false (by decide) fails

theorem interpret_eq_invalid_iff {given : List Answer} :
    interpret (given.map resultWord) = .invalid ↔ Answer.unsat ∈ given := by
  have refutes : (given.map resultWord).any (· == "unsat") = true ↔ Answer.unsat ∈ given := by
    simp [resultWord_eq_unsat_iff]
  rw [← refutes, interpret]
  split
  next holds =>
    rw [Bool.and_eq_true, List.all_eq_true] at holds
    apply iff_of_false (by decide)
    rw [List.any_eq_true]
    rintro ⟨word, member, isUnsat⟩
    rw [beq_iff_eq.mp (holds.2 word member)] at isUnsat
    exact absurd isUnsat (by decide)
  next =>
    split
    next holds => exact iff_of_true rfl holds
    next fails => exact iff_of_false (by decide) fails

/-! ## The gates of a query -/

theorem status_silence (budget : Int) :
    (silence budget).status = .error ∨ (silence budget).status = .timeout := by
  rw [silence]
  split
  · exact .inl rfl
  · exact .inr rfl

theorem status_settle_of_error {given : List Answer} {reason : Interruption}
    (ended : answers given = .error reason) (budget : Int) :
    (settle budget given).status = .error ∨ (settle budget given).status = .timeout := by
  rw [settle, ended]
  cases reason with
  | failed message => exact .inl rfl
  | timedOut => exact status_silence budget

theorem settle_of_reported {given : List Answer}
    (reported : forall answer, answer ∈ given -> ∃ word, answer.Reported word) (budget : Int) :
    settle budget given =
      if given.any ranOutOfTime then ⟨.timeout, given.map resultWord, [timeoutMessage budget]⟩
      else ⟨interpret (given.map resultWord), given.map resultWord, []⟩ := by
  rw [settle, answers_of_reported reported]

/-- If a status is that of answers, then all blocks were answered, and in time. -/
theorem status_settle_iff {status : Status} (notError : status ≠ .error)
    (notTimeout : status ≠ .timeout) {budget : Int} {given : List Answer} :
    (settle budget given).status = status ↔
      (forall answer, answer ∈ given -> ∃ word, answer.Reported word) ∧
        given.any ranOutOfTime = false ∧ interpret (given.map resultWord) = status := by
  cases ended : answers given with
  | error reason =>
      apply iff_of_false
      · intro isStatus
        rcases status_settle_of_error ended budget with isError | isTimeout
        · exact notError (isStatus.symm.trans isError)
        · exact notTimeout (isStatus.symm.trans isTimeout)
      · rintro ⟨reported, _⟩
        rw [answers_of_reported reported] at ended
        cases ended
  | ok found =>
      have reported := reported_of_answers ended
      rw [settle_of_reported reported, and_iff_right reported]
      split
      next late => simp [late, notTimeout.symm]
      next inTime => simp [inTime]

theorem settle_valid_iff {budget : Int} {given : List Answer} :
    (settle budget given).status = .valid ↔
      given ≠ [] ∧ forall answer, answer ∈ given -> answer = .sat := by
  rw [status_settle_iff (by decide) (by decide), interpret_eq_valid_iff]
  constructor
  · rintro ⟨_, _, allSat⟩
    exact allSat
  · rintro ⟨hasAnswer, allSat⟩
    refine ⟨fun answer member => ⟨"sat", allSat answer member ▸ .sat⟩, ?_, hasAnswer, allSat⟩
    rw [List.any_eq_false]
    intro answer member
    rw [allSat answer member]
    exact Bool.false_ne_true

theorem settle_invalid_iff {budget : Int} {given : List Answer} :
    (settle budget given).status = .invalid ↔
      (forall answer, answer ∈ given -> ∃ word, answer.Reported word) ∧
        Answer.unknown "timeout" ∉ given ∧ Answer.unknown "canceled" ∉ given ∧
          Answer.unsat ∈ given := by
  have inTime : given.any ranOutOfTime = false ↔
      Answer.unknown "timeout" ∉ given ∧ Answer.unknown "canceled" ∉ given := by
    simp only [List.any_eq_false, ranOutOfTime_iff]
    grind
  rw [status_settle_iff (by decide) (by decide), interpret_eq_invalid_iff, inTime, and_assoc]

theorem results_settle {given : List Answer}
    (reported : forall answer, answer ∈ given -> ∃ word, answer.Reported word) (budget : Int) :
    List.Forall₂ Answer.Reported given (settle budget given).results := by
  have words : (settle budget given).results = given.map resultWord := by
    rw [settle_of_reported reported]
    split <;> rfl
  rw [words, List.forall₂_map_right_iff, List.forall₂_same]
  exact fun answer member => reported_resultWord (reported answer member)

/-- A budget that a clock can measure. -/
def Measurable (budget : Int) : Prop :=
  budget.natAbs < Number.doubleLimit

instance (budget : Int) : Decidable (Measurable budget) :=
  inferInstanceAs (Decidable (_ < _))

/-- The answers of a solver count: the budget can be measured, and the solver is through before
the wait begins, or the wait leaves it some time. -/
def Awaited (responses : Responses) (budget : Int) : Prop :=
  Measurable budget ∧ (responses.isPrompt = true ∨ 0 < budget ∧ budget < waitLimit)

/-- A budget that can be waited for can be measured. -/
theorem awaited_of_canWait {budget : Int} (positive : 0 < budget) (below : budget < waitLimit)
    (responses : Responses) : Awaited responses budget := by
  have limits : waitLimit.natAbs < Number.doubleLimit := by decide +kernel
  have bounded : budget.natAbs < waitLimit.natAbs := by omega
  exact ⟨Nat.lt_trans bounded limits, .inr ⟨positive, below⟩⟩

/-- The answers of a solver to the blocks of a script, in their order. -/
def answered (responses : Responses) (lines : List String) : List Answer :=
  (blocks lines).mapIdx responses.answer

theorem ask_of_measurable {budget : Int} (measurable : Measurable budget) (responses : Responses)
    {lines : List String} (hasBlock : blocks lines ≠ []) :
    ask (some responses) budget lines =
      if responses.isPrompt || canWait budget then settle budget (answered responses lines)
      else silence budget := by
  have inRange : (Number.whole budget).exceedsDoubles = false := by
    simpa [Number.exceedsDoubles, Measurable] using measurable
  rw [ask, answered]
  split
  next noBlock => exact absurd noBlock hasBlock
  next => rw [inRange, if_neg Bool.false_ne_true]

theorem ask_of_awaited {budget : Int} {responses : Responses} (awaited : Awaited responses budget)
    {lines : List String} (hasBlock : blocks lines ≠ []) :
    ask (some responses) budget lines = settle budget (answered responses lines) := by
  rw [ask_of_measurable awaited.1 responses hasBlock, if_pos]
  simpa [canWait] using awaited.2

theorem ask_of_not_measurable {budget : Int} (immeasurable : ¬ Measurable budget)
    (responses : Responses) {lines : List String} (hasBlock : blocks lines ≠ []) :
    ask (some responses) budget lines = unmeasurable := by
  have beyond : (Number.whole budget).exceedsDoubles = true := by
    simpa [Number.exceedsDoubles, Measurable] using immeasurable
  rw [ask]
  split
  next noBlock => exact absurd noBlock hasBlock
  next => rw [if_pos beyond]

/-- Without a wait that leaves the solver some time, no answer is looked at. -/
theorem ask_of_not_awaited {budget : Int} {responses : Responses}
    (unawaited : ¬ Awaited responses budget) {lines : List String} (hasBlock : blocks lines ≠ []) :
    ask (some responses) budget lines = unmeasurable ∨
      ask (some responses) budget lines = silence budget := by
  by_cases measurable : Measurable budget
  · right
    rw [ask_of_measurable measurable responses hasBlock, if_neg]
    simpa [Awaited, measurable, canWait] using unawaited
  · exact .inl (ask_of_not_measurable measurable responses hasBlock)

theorem ask_of_no_block {lines : List String} (noBlock : blocks lines = [])
    (responses : Responses) (budget : Int) :
    ask (some responses) budget lines = ⟨.error, [], ["no (check-sat) in script"]⟩ := by
  rw [ask, noBlock]

theorem answered_ne_nil_iff {responses : Responses} {lines : List String} :
    answered responses lines ≠ [] ↔ blocks lines ≠ [] := by
  rw [answered, ne_eq, List.mapIdx_eq_nil_iff]

/-- If a status is that of answers, then there is a solver, the script asks, the answers are waited
for, and they decide. -/
theorem status_ask_iff {status : Status} (notError : status ≠ .error)
    (notMissing : status ≠ .noSolver) (notTimeout : status ≠ .timeout)
    {responses? : Option Responses} {budget : Int} {lines : List String} :
    (ask responses? budget lines).status = status ↔
      ∃ responses, responses? = some responses ∧ Awaited responses budget ∧
        answered responses lines ≠ [] ∧
          (settle budget (answered responses lines)).status = status := by
  cases responses? with
  | none =>
      simp only [ask, reduceCtorEq, false_and, exists_false, iff_false]
      exact notMissing.symm
  | some responses =>
      simp only [Option.some.injEq, exists_eq_left', answered_ne_nil_iff]
      by_cases hasBlock : blocks lines = []
      · rw [ask_of_no_block hasBlock]
        simp [hasBlock, notError.symm]
      · by_cases awaited : Awaited responses budget
        · rw [ask_of_awaited awaited hasBlock]
          simp [awaited, hasBlock]
        · have neither : (ask (some responses) budget lines).status = .error ∨
              (ask (some responses) budget lines).status = .timeout := by
            rcases ask_of_not_awaited awaited hasBlock with outcome | outcome
            · exact .inl (congrArg Outcome.status outcome)
            · exact outcome ▸ status_silence budget
          apply iff_of_false
          · rintro rfl
            exact neither.elim notError notTimeout
          · exact fun decided => awaited decided.1

theorem ask_append_of_quiet (responses? : Option Responses) (budget : Int) (lines : List String)
    {tail : List String} (quiet : forall line, line ∈ tail -> ¬ Asks line) :
    ask responses? budget (lines ++ tail) = ask responses? budget lines := by
  cases responses? with
  | none => rfl
  | some responses => simp only [ask, blocks_append_of_quiet lines quiet]

theorem ask_valid_iff {responses? : Option Responses} {budget : Int} {lines : List String} :
    (ask responses? budget lines).status = .valid ↔
      ∃ responses, responses? = some responses ∧ Awaited responses budget ∧
        (∃ line, line ∈ lines ∧ Asks line) ∧
          forall answer, answer ∈ answered responses lines -> answer = .sat := by
  rw [status_ask_iff (by decide) (by decide) (by decide)]
  simp only [settle_valid_iff, answered_ne_nil_iff, blocks_ne_nil_iff, and_self_left]

theorem ask_invalid_iff {responses? : Option Responses} {budget : Int} {lines : List String} :
    (ask responses? budget lines).status = .invalid ↔
      ∃ responses, responses? = some responses ∧ Awaited responses budget ∧
        (forall answer, answer ∈ answered responses lines -> ∃ word, answer.Reported word) ∧
          Answer.unknown "timeout" ∉ answered responses lines ∧
            Answer.unknown "canceled" ∉ answered responses lines ∧
              Answer.unsat ∈ answered responses lines := by
  rw [status_ask_iff (by decide) (by decide) (by decide)]
  simp only [settle_invalid_iff]
  grind

theorem results_ask {budget : Int} {responses : Responses} (awaited : Awaited responses budget)
    {lines : List String}
    (reported : forall answer, answer ∈ answered responses lines -> ∃ word, answer.Reported word) :
    List.Forall₂ Answer.Reported (answered responses lines)
      (ask (some responses) budget lines).results := by
  by_cases hasBlock : blocks lines = []
  · rw [ask_of_no_block hasBlock, answered, hasBlock]
    exact .nil
  · rw [ask_of_awaited awaited hasBlock]
    exact results_settle reported budget

/-- The outcome of a query, whatever the budget is and whatever the solver does with each block.
It is valid exactly if there is a solver, its answers are waited for, the script asks, and every
block is satisfiable; it is invalid exactly if there is a solver, its answers are waited for, all
blocks are answered, none of them late, and one is not satisfiable.  All blocks that are answered
are reported, in their order, if the answers are waited for, and nothing behind the last question
matters. -/
theorem outcome_decided (responses? : Option Responses) (budget : Int) (lines : List String) :
    Cut lines (blocks lines) ∧
      ((ask responses? budget lines).status = .valid ↔
        ∃ responses, responses? = some responses ∧ Awaited responses budget ∧
          (∃ line, line ∈ lines ∧ Asks line) ∧
            forall answer, answer ∈ answered responses lines -> answer = .sat) ∧
      ((ask responses? budget lines).status = .invalid ↔
        ∃ responses, responses? = some responses ∧ Awaited responses budget ∧
          (forall answer, answer ∈ answered responses lines -> ∃ word, answer.Reported word) ∧
            Answer.unknown "timeout" ∉ answered responses lines ∧
              Answer.unknown "canceled" ∉ answered responses lines ∧
                Answer.unsat ∈ answered responses lines) ∧
      (forall responses, responses? = some responses -> Awaited responses budget ->
        (forall answer, answer ∈ answered responses lines -> ∃ word, answer.Reported word) ->
          List.Forall₂ Answer.Reported (answered responses lines)
            (ask responses? budget lines).results) ∧
      forall tail, (forall line, line ∈ tail -> ¬ Asks line) ->
        ask responses? budget (lines ++ tail) = ask responses? budget lines := by
  refine ⟨cut_blocks lines, ask_valid_iff, ask_invalid_iff, ?_, ?_⟩
  · rintro responses rfl awaited reported
    exact results_ask awaited reported
  · intro tail quiet
    exact ask_append_of_quiet responses? budget lines quiet

/-- A script in which one block stands twice. -/
def repeated : List String :=
  ["(assert p)", " (check-sat)\t", "(assert p)", askLine]

/-- A solver that takes its time and changes its mind about a block. -/
def wavering : Responses := ⟨fun index _ => if index = 0 then .sat else .unsat, false⟩

theorem repeated_outcome_decided :
    Awaited wavering defaultBudget ∧ ¬ Asks "; (check-sat)" ∧
      (ask (some wavering) defaultBudget repeated).status = .invalid ∧
        List.Forall₂ Answer.Reported [.sat, .unsat]
          (ask (some wavering) defaultBudget repeated).results ∧
        ask (some wavering) defaultBudget (repeated ++ ["; (check-sat)"]) =
          ask (some wavering) defaultBudget repeated := by
  have awaited : Awaited wavering defaultBudget := awaited_of_canWait (by decide) (by decide) _
  have quiet : ¬ Asks "; (check-sat)" := by
    rw [Asks]
    decide +kernel
  have twoBlocks : blocks repeated = ["(assert p)", "(assert p)"] := by decide +kernel
  have twoAnswers : answered wavering repeated = [.sat, .unsat] := by
    rw [answered, twoBlocks]
    rfl
  have reported : forall answer, answer ∈ answered wavering repeated ->
      ∃ word, answer.Reported word := by
    rw [twoAnswers]
    rintro _ (_ | ⟨_, _ | ⟨_, ⟨⟩⟩⟩)
    · exact ⟨_, .sat⟩
    · exact ⟨_, .unsat⟩
  obtain ⟨_, _, invalid, results, unmoved⟩ :=
    outcome_decided (some wavering) defaultBudget repeated
  refine ⟨awaited, quiet, ?_, ?_, ?_⟩
  · refine invalid.mpr ⟨wavering, rfl, awaited, reported, ?_⟩
    rw [twoAnswers]
    simp
  · rw [← twoAnswers]
    exact results wavering rfl awaited reported
  · exact unmoved _ fun line member => List.mem_singleton.mp member ▸ quiet

/-- The least budget that no clock can measure. -/
def endless : Int := Number.doubleLimit

/-- A solver that is through with everything at once. -/
def assenting : Responses := ⟨fun _ _ => .sat, true⟩

/-- With an endless budget a query is not valid, although its only block is satisfiable and is
answered so at once. -/
theorem endless_outcome :
    ¬ Measurable endless ∧ (∃ line, line ∈ [askLine] ∧ Asks line) ∧
      (forall answer, answer ∈ answered assenting [askLine] -> answer = .sat) ∧
        ask (some assenting) endless [askLine] = unmeasurable ∧
          unmeasurable.status ≠ .valid := by
  have asks : Asks askLine := by
    rw [Asks]
    decide +kernel
  have oneBlock : blocks [askLine] = [""] := by decide +kernel
  have immeasurable : ¬ Measurable endless := by decide +kernel
  refine ⟨immeasurable, ⟨askLine, List.mem_singleton_self _, asks⟩, ?_, ?_, by decide⟩
  · rw [answered, oneBlock]
    simp [assenting]
  · exact ask_of_not_measurable immeasurable _ (by simp [oneBlock])

end Query
end HoareProof
