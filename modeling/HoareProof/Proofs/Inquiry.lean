import HoareProof.CommandLine.Run
import HoareProof.Proofs.Marking
import Mathlib.Logic.Relation

namespace HoareProof

/-!
Asking about all side conditions of a derivation at once.  The questions are sent one
after another, in the order of a walk, and each answer is recorded when it arrives,
which may be before other questions have been sent.  An inquiry is a state of this
process, and its next state is not determined: any question that is open may be
answered next.

What comes of an inquiry is determined all the same.  The root is at every moment the
original derivation, marked at the paths answered as valid so far, because a question is
not changed by any marking.  Asking and answering in turn, as the command does, is one
of the possible runs, so its report is the report after any other run.
-/

namespace Derivation

/-- The paths of some nodes that have side conditions. -/
def questionsAmong (entries : List (Path × Derivation)) : List Path :=
  (entries.filter fun entry => !entry.2.obligations.isEmpty).map (·.1)

/-- The paths of all nodes that have side conditions, in the order of a walk. -/
def questionPaths (root : Derivation) : List Path :=
  questionsAmong root.walk

theorem questionsAmong_cons_of_nil {path : Path} {node : Derivation}
    (entries : List (Path × Derivation)) (quiet : node.obligations = []) :
    questionsAmong ((path, node) :: entries) = questionsAmong entries := by
  simp [questionsAmong, quiet]

theorem questionsAmong_cons_of_ne_nil {path : Path} {node : Derivation}
    (entries : List (Path × Derivation)) (raises : node.obligations ≠ []) :
    questionsAmong ((path, node) :: entries) = path :: questionsAmong entries := by
  simp [questionsAmong, raises]

theorem mem_questionPaths_iff {root : Derivation} {path : Path} :
    path ∈ root.questionPaths ↔ ∃ node, root.at? path = some node ∧ node.obligations ≠ [] := by
  simp only [questionPaths, questionsAmong, List.mem_map, List.mem_filter]
  constructor
  · rintro ⟨⟨place, node⟩, ⟨member, raises⟩, isPath⟩
    subst isPath
    have nonempty : node.obligations ≠ [] := by simpa using raises
    exact ⟨node, (at?_of_mem_walk member).trans (present?_of_obligations nonempty), nonempty⟩
  · rintro ⟨node, found, raises⟩
    exact ⟨(path, node), ⟨mem_walk_of_at? found, by simpa using raises⟩, rfl⟩

/-- The side conditions of every node can be written down for a solver. -/
def Renderable (root : Derivation) : Prop :=
  Everywhere (fun node => ∃ lines, Obligation.script node.obligations = .ok lines) root

/-- A solver gives the verdict of every node that has side conditions. -/
def AnsweredBy (root : Derivation) (solver? : Option Solver) (budget : Int)
    (verdict : Path -> Outcome) : Prop :=
  forall path node, root.at? path = some node -> node.obligations ≠ [] ->
    Query.prove solver? budget node = .ok (verdict path)

end Derivation

theorem eq_ok_of_toOption {Error Value : Type} {attempt : Except Error Value} {value : Value}
    (succeeds : attempt.toOption = some value) : attempt = .ok value := by
  cases attempt with
  | error error => cases succeeds
  | ok found =>
      cases succeeds
      rfl

/-- A session in which questions are being asked: the paths still to be asked about, the
questions still open, and the paths answered so far, the latest first. -/
structure Inquiry where
  session : Session
  unasked : List Path
  pending : List Question
  answered : List Path

namespace Inquiry

open HoareProof.Derivation

/-- Nothing has been asked yet. -/
def start (root : Derivation) : Inquiry :=
  ⟨.start (some root), root.questionPaths, [], []⟩

/-- What can happen next: the next question is asked, or one of the open questions gets its
verdict. -/
inductive Next (verdict : Path -> Outcome) : Inquiry -> Inquiry -> Prop
  | ask {session : Session} {path : Path} {unasked : List Path} {pending : List Question}
      {answered : List Path} {question : Question} {lines : List String} :
      session.ask path = .ok (question, lines) ->
      Next verdict ⟨session, path :: unasked, pending, answered⟩
        ⟨session, unasked, pending ++ [question], answered⟩
  | answer {session : Session} {unasked : List Path} {before after : List Question}
      {question : Question} {answered : List Path} :
      Next verdict ⟨session, unasked, before ++ question :: after, answered⟩
        ⟨(session.record? question (verdict question.path).status).getD session, unasked,
          before ++ after, question.path :: answered⟩

/-- Any number of things happen, one after another. -/
abbrev Run (verdict : Path -> Outcome) : Inquiry -> Inquiry -> Prop :=
  Relation.ReflTransGen (Next verdict)

/-- Every question has been asked and answered. -/
def Finished (inquiry : Inquiry) : Prop :=
  inquiry.unasked = [] ∧ inquiry.pending = []

/-- The paths among some answered ones whose verdict is valid. -/
def confirmed (verdict : Path -> Outcome) (answered : List Path) (path : Path) : Bool :=
  answered.contains path && (verdict path).proved

theorem confirmed_nil (verdict : Path -> Outcome) :
    confirmed verdict [] = fun _ => false := rfl

theorem confirmed_cons (verdict : Path -> Outcome) (answered : List Path) (path : Path) :
    confirmed verdict (path :: answered) = fun other =>
      confirmed verdict answered other || (other == path && (verdict path).status == .valid) := by
  funext other
  rw [confirmed, confirmed, List.contains_cons, Outcome.proved]
  by_cases same : other = path
  · subst same
    cases answered.contains other <;> simp
  · rw [beq_false_of_ne same]
    simp

theorem confirmed_perm (verdict : Path -> Outcome) {answered others : List Path}
    (same : answered.Perm others) : confirmed verdict answered = confirmed verdict others := by
  funext path
  rw [confirmed, confirmed, same.contains_eq]

/-! ## The invariant of an inquiry -/

/-- The root is the original one with the marks of the answers so far, the open questions
are about its nodes, and no path is lost or counted twice. -/
structure Faithful (root : Derivation) (verdict : Path -> Outcome) (inquiry : Inquiry) :
    Prop where
  rooted : inquiry.session.root = some (root.markWhere (confirmed verdict inquiry.answered))
  asked : forall question, question ∈ inquiry.pending ->
    ∃ node select, root.at? question.path = some node ∧ question.asked = node.markWhere select
  conserved : (inquiry.unasked ++ (inquiry.pending.map (·.path) ++ inquiry.answered)).Perm
    root.questionPaths

theorem start_faithful (root : Derivation) (verdict : Path -> Outcome) :
    Faithful root verdict (start root) := by
  constructor
  · change some root = some (root.markWhere (confirmed verdict []))
    rw [confirmed_nil, markWhere_false]
  · intro question member
    cases member
  · change (root.questionPaths ++ ([] ++ [])).Perm root.questionPaths
    rw [List.append_nil, List.append_nil]

variable {root : Derivation} {verdict : Path -> Outcome} {inquiry later : Inquiry}

theorem Faithful.next (faithful : Faithful root verdict inquiry)
    (step : Next verdict inquiry later) : Faithful root verdict later := by
  cases step with
  | @ask session path unasked pending answered question lines asks =>
      rcases Session.ask_eq_ok_iff.mp asks with ⟨isPath, atPath, _, _⟩
      subst isPath
      refine ⟨faithful.rooted, ?_, ?_⟩
      · intro other member
        rcases List.mem_append.mp member with isOld | isNew
        · exact faithful.asked other isOld
        · cases List.mem_singleton.mp isNew
          exact Session.exists_unmarked faithful.rooted atPath
      · refine List.Perm.trans ?_ faithful.conserved
        apply List.perm_iff_count.mpr
        intro other
        simp only [List.count_append, List.count_cons, List.map_append, List.map_cons,
          List.map_nil, List.count_nil]
        omega
  | @answer session unasked before after question answered =>
      rcases faithful.asked question (by simp) with ⟨node, select, found, isAsked⟩
      refine ⟨?_, ?_, ?_⟩
      · change ((session.record? question (verdict question.path).status).getD session).root =
          some (root.markWhere (confirmed verdict (question.path :: answered)))
        rw [confirmed_cons]
        exact Session.root_record?_markWhere question faithful.rooted found isAsked _
      · intro other member
        apply faithful.asked other
        rcases List.mem_append.mp member with isBefore | isAfter
        · exact List.mem_append_left _ isBefore
        · exact List.mem_append_right _ (List.mem_cons_of_mem _ isAfter)
      · refine List.Perm.trans ?_ faithful.conserved
        apply List.perm_iff_count.mpr
        intro other
        simp only [List.count_append, List.count_cons, List.map_append, List.map_cons]
        omega

theorem Faithful.run (faithful : Faithful root verdict inquiry)
    (run : Run verdict inquiry later) : Faithful root verdict later := by
  induction run with
  | refl => exact faithful
  | tail _ step inductionHypothesis => exact inductionHypothesis.next step

/-- When an inquiry is finished, every question has had its answer, and the marks are those
of the valid verdicts. -/
theorem Faithful.finished (faithful : Faithful root verdict inquiry)
    (finished : inquiry.Finished) :
    inquiry.answered.Perm root.questionPaths ∧
      inquiry.session.root = some (root.markWhere (confirmed verdict root.questionPaths)) := by
  have all : inquiry.answered.Perm root.questionPaths := by
    have conserved := faithful.conserved
    rw [finished.1, finished.2] at conserved
    exact conserved
  refine ⟨all, ?_⟩
  rw [faithful.rooted, confirmed_perm verdict all]

/-! ## Every inquiry can be finished -/

theorem asks_all (renderable : root.Renderable) {session : Session} {unasked : List Path}
    {pending : List Question} {answered : List Path}
    (faithful : Faithful root verdict ⟨session, unasked, pending, answered⟩) :
    ∃ questions, Run verdict ⟨session, unasked, pending, answered⟩
      ⟨session, [], questions, answered⟩ := by
  induction unasked generalizing pending with
  | nil => exact ⟨pending, .refl⟩
  | cons path unasked inductionHypothesis =>
      have member : path ∈ root.questionPaths := faithful.conserved.subset List.mem_cons_self
      rcases mem_questionPaths_iff.mp member with ⟨node, found, raises⟩
      rcases renderable path node found with ⟨lines, written⟩
      have step : Next verdict ⟨session, path :: unasked, pending, answered⟩ _ :=
        .ask (Session.ask_markWhere faithful.rooted found raises written)
      rcases inductionHypothesis (faithful.next step) with ⟨questions, run⟩
      exact ⟨questions, .head step run⟩

theorem answers_all (session : Session) (pending : List Question) (answered : List Path) :
    ∃ last paths, Run verdict ⟨session, [], pending, answered⟩ ⟨last, [], [], paths⟩ := by
  induction pending generalizing session answered with
  | nil => exact ⟨session, answered, .refl⟩
  | cons question pending inductionHypothesis =>
      have step : Next verdict ⟨session, [], [] ++ question :: pending, answered⟩ _ := .answer
      rcases inductionHypothesis _ _ with ⟨last, paths, run⟩
      exact ⟨last, paths, .head step run⟩

theorem Faithful.can_finish (renderable : root.Renderable)
    (faithful : Faithful root verdict inquiry) :
    ∃ final, Run verdict inquiry final ∧ final.Finished := by
  rcases asks_all renderable faithful with ⟨questions, asking⟩
  rcases answers_all inquiry.session questions inquiry.answered with ⟨last, paths, answering⟩
  exact ⟨_, asking.trans answering, rfl, rfl⟩

/-! ## Asking and answering in turn -/

theorem prove_eq_ok_iff {solver? : Option Solver} {budget : Int} {node : Derivation}
    {outcome : Outcome} (raises : node.obligations ≠ []) :
    Query.prove solver? budget node = .ok outcome ↔
      ∃ lines, Obligation.script node.obligations = .ok lines ∧
        Query.run solver? budget lines = outcome := by
  cases conditions : node.obligations with
  | nil => exact absurd conditions raises
  | cons first rest =>
      simp only [Query.prove, conditions]
      cases Obligation.script (first :: rest) with
      | error e => simp [bind, Except.bind]
      | ok lines => simp [bind, Except.bind, pure, Except.pure]

section InTurn

variable {solver? : Option Solver} {budget : Int} {session : Session} {select : Path -> Bool}
  {path : Path} {node : Derivation}

theorem proveAll_cons_of_quiet (rooted : session.root = some (root.markWhere select))
    (located : root.at? path = node.present?) (quiet : node.obligations = [])
    (rest : List Path) :
    CommandLine.proveAll solver? budget session (path :: rest) =
      CommandLine.proveAll solver? budget session rest := by
  have quietNow : forall now, session.at? path = some now -> now.obligations = [] := by
    intro now atPath
    rcases Session.exists_unmarked rooted atPath with ⟨original, other, found, isNow⟩
    rw [isNow, obligations_markWhere]
    rw [located] at found
    cases node with
    | missing => cases found
    | node conclusion step proved premises =>
        cases found
        exact quiet
  rw [CommandLine.proveAll]
  rcases Session.ask_of_quiet quietNow with asks | asks
  · rw [asks]
  · rw [asks]

theorem proveAll_cons_of_tooLarge {error : ConstantTooLarge}
    (rooted : session.root = some (root.markWhere select)) (found : root.at? path = some node)
    (raises : node.obligations ≠ [])
    (unwritten : Obligation.script node.obligations = .error error) (rest : List Path) :
    CommandLine.proveAll solver? budget session (path :: rest) = .error (.tooLarge error) := by
  rw [CommandLine.proveAll, Session.ask_of_tooLarge (Session.at?_markWhere rooted found)
    (by rw [obligations_markWhere]; exact raises)
    (by rw [obligations_markWhere]; exact unwritten)]

/-- One turn: a question is asked, its answer is recorded at once, and the rest goes on from
there. -/
theorem proveAll_cons_of_written {lines : List String}
    (rooted : session.root = some (root.markWhere select)) (found : root.at? path = some node)
    (raises : node.obligations ≠ [])
    (written : Obligation.script node.obligations = .ok lines) (rest : List Path) :
    CommandLine.proveAll solver? budget session (path :: rest) =
      (CommandLine.proveAll solver? budget
        ((session.record? ⟨path, node.markWhere fun below => select (path ++ below)⟩
          (Query.run solver? budget lines).status).getD session) rest).map
        fun (outcomes, last) => ((path, Query.run solver? budget lines) :: outcomes, last) := by
  rw [CommandLine.proveAll, Session.ask_markWhere rooted found raises written]

theorem run_turn (verdict : Path -> Outcome) {question : Question} {lines : List String}
    (asks : session.ask path = .ok (question, lines)) (unasked answered : List Path) :
    Run verdict ⟨session, path :: unasked, [], answered⟩
      ⟨(session.record? question (verdict question.path).status).getD session, unasked, [],
        question.path :: answered⟩ := by
  have answers : Next verdict ⟨session, unasked, [] ++ question :: [], answered⟩ _ := .answer
  exact .head (.ask asks) (.single answers)

/-- Asking and answering in turn is a run of the inquiry, and it gives every question the
verdict of the solver. -/
theorem proveAll_runs (answeredBy : root.AnsweredBy solver? budget verdict)
    (entries : List (Path × Derivation))
    (located : forall path node, (path, node) ∈ entries -> root.at? path = node.present?)
    (rooted : session.root = some (root.markWhere select)) (answered : List Path) :
    ∃ last, CommandLine.proveAll solver? budget session (entries.map (·.1)) =
        .ok ((questionsAmong entries).map fun path => (path, verdict path), last) ∧
      Run verdict ⟨session, questionsAmong entries, [], answered⟩
        ⟨last, [], [], (questionsAmong entries).reverse ++ answered⟩ := by
  induction entries generalizing session select answered with
  | nil => exact ⟨session, rfl, .refl⟩
  | cons entry entries inductionHypothesis =>
      rcases entry with ⟨path, node⟩
      have atPath := located path node List.mem_cons_self
      have locatedRest : forall path node, (path, node) ∈ entries ->
          root.at? path = node.present? := by
        intro place below member
        exact located place below (List.mem_cons_of_mem _ member)
      by_cases quiet : node.obligations = []
      · rw [questionsAmong_cons_of_nil entries quiet, List.map_cons,
          proveAll_cons_of_quiet rooted atPath quiet]
        exact inductionHypothesis locatedRest rooted answered
      · have found := atPath.trans (present?_of_obligations quiet)
        rcases (prove_eq_ok_iff quiet).mp (answeredBy path node found quiet) with
          ⟨lines, written, isVerdict⟩
        rw [questionsAmong_cons_of_ne_nil entries quiet, List.map_cons, List.map_cons,
          proveAll_cons_of_written rooted found quiet written, isVerdict, List.reverse_cons,
          List.append_assoc]
        have nowRooted := Session.root_record?_markWhere
          ⟨path, node.markWhere fun below => select (path ++ below)⟩ rooted found rfl
          (verdict path).status
        rcases inductionHypothesis locatedRest nowRooted ([path] ++ answered) with
          ⟨last, proves, run⟩
        refine ⟨last, ?_, ?_⟩
        · rw [proves]
          rfl
        · have turn := run_turn verdict (Session.ask_markWhere rooted found quiet written)
            (questionsAmong entries) answered
          exact turn.trans run

end InTurn

/-- The command reports on the original derivation with the marks of the valid verdicts. -/
theorem checkRoot_eq_reportCheck {surroundings : CommandLine.Surroundings} {settings : Settings}
    {request : CommandLine.CheckRequest} (format : OutputFormat) (proves : request.prove = true)
    (answeredBy : root.AnsweredBy surroundings.solver? (CommandLine.budgetOf settings request)
      verdict) :
    CommandLine.checkRoot surroundings settings request format root =
      CommandLine.reportCheck surroundings (CommandLine.strictnessOf settings request)
        request.file format (root.questionPaths.map fun path => (path, verdict path))
        (root.markWhere (confirmed verdict root.questionPaths)) := by
  have faithful := start_faithful root verdict
  rcases proveAll_runs answeredBy root.walk (fun _ _ => at?_of_mem_walk) faithful.rooted [] with
    ⟨last, proved, inTurn⟩
  have isRoot := ((faithful.run inTurn).finished ⟨rfl, rfl⟩).2
  rw [CommandLine.checkRoot, if_pos proves]
  change (CommandLine.proveAll surroundings.solver? _ (start root).session _ >>= _) = _
  rw [proved]
  change CommandLine.reportCheck _ _ _ _ _ (last.root.getD root) = _
  rw [isRoot]
  rfl

/-- The order in which answers arrive does not matter.  Whatever the verdicts are, an inquiry
into a derivation whose side conditions can be written down never gets stuck, and once it is
finished each question has been answered once and the root is the original one with the
flags of exactly the valid verdicts set.  So the report after it is the one that the command
gives when it asks a solver with these verdicts. -/
theorem finished_order_independent (root : Derivation) (verdict : Path -> Outcome)
    (renderable : root.Renderable) :
    (forall inquiry, Run verdict (start root) inquiry ->
      ∃ final, Run verdict inquiry final ∧ final.Finished) ∧
    forall final, Run verdict (start root) final -> final.Finished ->
      final.answered.Perm root.questionPaths ∧
      final.session.root = some (root.markWhere (confirmed verdict root.questionPaths)) ∧
      forall surroundings settings request format, request.prove = true ->
        root.AnsweredBy surroundings.solver? (CommandLine.budgetOf settings request) verdict ->
        CommandLine.checkRoot surroundings settings request format root =
          CommandLine.reportCheck surroundings (CommandLine.strictnessOf settings request)
            request.file format (root.questionPaths.map fun path => (path, verdict path))
            (final.session.root.getD root) := by
  have faithful := start_faithful root verdict
  constructor
  · intro inquiry run
    exact (faithful.run run).can_finish renderable
  · intro final run finished
    rcases (faithful.run run).finished finished with ⟨all, isRoot⟩
    refine ⟨all, isRoot, ?_⟩
    intro surroundings settings request format proves answeredBy
    rw [isRoot]
    exact checkRoot_eq_reportCheck format proves answeredBy

/-! ## Three questions, one of them refuted -/

/-- A step of consequence above a sequence of two more, with their three flags. -/
def disputed (above left right : Bool) : Derivation :=
  .node ⟨.var "p", .seq .complete .skip .skip, .var "s"⟩ (.applied .consequence) above
    [.node ⟨.var "q", .seq .complete .skip .skip, .var "r"⟩ (.applied .sequence) false
      [.node ⟨.var "q", .skip, .var "m"⟩ (.applied .consequence) left
          [.node ⟨.var "q", .skip, .var "q"⟩ (.applied .skip) false []],
        .node ⟨.var "m", .skip, .var "r"⟩ (.applied .consequence) right
          [.node ⟨.var "m", .skip, .var "m"⟩ (.applied .skip) false []]]]

/-- A solver that refutes that the first assertion implies the middle one. -/
def skeptic : Solver where
  answer block :=
    if block = "; Qp_to_Q\n(assert (forall ((m Int) (q Int)) (or m (not q))))" then .unsat
    else .sat
  isPrompt _ := false

/-- The verdicts of this solver. -/
def disputedVerdict (path : Path) : Outcome :=
  if path = [0, 0] then ⟨.invalid, ["sat", "unsat"], []⟩ else ⟨.valid, ["sat", "sat"], []⟩

/-- The surroundings with this solver, and no files. -/
def skeptical : CommandLine.Surroundings :=
  ⟨⟨[], []⟩, some skeptic, false⟩

/-- A check that asks this solver. -/
def disputedRequest : CommandLine.CheckRequest :=
  ⟨"", true, none, none, false, false⟩

theorem disputed_renderable : (disputed false false false).Renderable := by
  have written : forall entry, entry ∈ (disputed false false false).walk ->
      (Obligation.script entry.2.obligations).toOption.isSome = true := by
    decide +kernel
  intro path node found
  rcases Option.isSome_iff_exists.mp (written (path, node) (mem_walk_of_at? found)) with
    ⟨lines, isScript⟩
  exact ⟨lines, eq_ok_of_toOption isScript⟩

theorem disputed_answeredBy :
    (disputed false false false).AnsweredBy skeptical.solver?
      (CommandLine.budgetOf .standard disputedRequest) disputedVerdict := by
  have answers : forall path, path ∈ (disputed false false false).questionPaths ->
      (((disputed false false false).at? path).bind fun node =>
        (Query.prove skeptical.solver? (CommandLine.budgetOf .standard disputedRequest)
          node).toOption) = some (disputedVerdict path) := by
    decide +kernel
  intro path node found raises
  have answer := answers path (mem_questionPaths_iff.mpr ⟨node, found, raises⟩)
  rw [found] at answer
  exact eq_ok_of_toOption answer

theorem disputed_order_independent :
    ∃ final, Run disputedVerdict (start (disputed false false false)) final ∧ final.Finished ∧
      final.answered.Perm [[], [0, 0], [0, 1]] ∧
      final.session.root = some (disputed true false true) ∧
      CommandLine.checkRoot skeptical .standard disputedRequest .pretty
          (disputed false false false) =
        CommandLine.reportCheck skeptical .standard "" .pretty
          ([[], [0, 0], [0, 1]].map fun path => (path, disputedVerdict path))
          (disputed true false true) := by
  rcases finished_order_independent (disputed false false false) disputedVerdict
    disputed_renderable with ⟨canFinish, whenFinished⟩
  rcases canFinish _ .refl with ⟨final, run, finished⟩
  rcases whenFinished final run finished with ⟨all, isRoot, sameReport⟩
  have report := sameReport skeptical .standard disputedRequest .pretty rfl disputed_answeredBy
  rw [isRoot] at report
  exact ⟨final, run, finished, all, isRoot, report⟩

end Inquiry
end HoareProof
