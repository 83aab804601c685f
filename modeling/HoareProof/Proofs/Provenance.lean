import HoareProof.Proofs.Edits
import HoareProof.Proofs.Sessions

namespace HoareProof

/-!
Where the flags of a session come from.  Questions are answered late, in any order,
and the derivation may have been edited, undone or replaced in between.  A dialogue is
a session with the questions that are still open and, for the theory only, the
questions that a valid answer has confirmed.

A flag is backed when a confirmed question asked exactly what the flagged node says.
All flags are backed after every dialogue that starts without flags: refining a node
clears its flag and keeps the triples that the flag of its parent speaks about, and an
answer is recorded only where its question would be asked again.
-/

/-- A session with its open questions and the questions answered as valid so far. -/
structure Dialogue where
  session : Session
  pending : List Question
  confirmed : List Question

namespace Dialogue

/-- What can happen next.  A rule that was named but does not exist is `none`; an
answer names its question by the place among the open ones. -/
inductive Event where
  | create (pre : Expr) (stmt : Stmt) (post : Expr)
  | refine (path : Path) (rule : Option Rule) (given : Derivation.RuleInput)
  | undo
  | ask (path : Path)
  | answer (index : Nat) (status : Status)

/-- A dialogue that has not begun. -/
def start (root : Option Derivation) : Dialogue :=
  ⟨.start root, [], []⟩

/-- The dialogue after an edit, which may have been rejected. -/
def edited (dialogue : Dialogue) (session : Option Session) : Dialogue :=
  { dialogue with session := session.getD dialogue.session }

/-- The dialogue after an event. -/
def next (dialogue : Dialogue) : Event -> Dialogue
  | .create pre stmt post =>
      dialogue.edited ((dialogue.session.create? pre stmt post).map (·.2))
  | .refine path rule given =>
      dialogue.edited (rule.bind fun rule => dialogue.session.refine? path rule given)
  | .undo => dialogue.edited dialogue.session.undo?
  | .ask path =>
      match dialogue.session.ask path with
      | .error _ => dialogue
      | .ok (question, _) => { dialogue with pending := dialogue.pending ++ [question] }
  | .answer index status =>
      match dialogue.pending[index]? with
      | none => dialogue
      | some question =>
          ⟨(dialogue.session.record? question status).getD dialogue.session,
            dialogue.pending.eraseIdx index,
            if status = .valid then question :: dialogue.confirmed else dialogue.confirmed⟩

/-- The dialogue after several events. -/
def run (dialogue : Dialogue) (events : List Event) : Dialogue :=
  events.foldl next dialogue

end Dialogue

namespace Derivation

/-- A question that asked what the node says: its statement and its side conditions
have the same values. -/
def AskedBy (node : Derivation) (question : Question) : Prop :=
  Obligation.sameValues node.obligations question.asked.obligations = true ∧
    ∃ triple asked, node.conclusion? = some triple ∧ question.asked.conclusion? = some asked ∧
      triple.stmt.sameValue asked.stmt = true

/-- A flag that some confirmed question accounts for. -/
def Backed (confirmed : List Question) (node : Derivation) : Prop :=
  node.isProved = true ->
    ∃ conclusion step premise, node = .node conclusion step true [premise] ∧
      step.isConsequence = true ∧ ∃ question, question ∈ confirmed ∧ node.AskedBy question

theorem backed_of_unproved {confirmed : List Question} {node : Derivation}
    (unproved : node.isProved = false) : Backed confirmed node := by
  intro proved
  rw [unproved] at proved
  cases proved

theorem Backed.mono {confirmed more : List Question} {node : Derivation}
    (included : forall question, question ∈ confirmed -> question ∈ more)
    (backed : Backed confirmed node) : Backed more node := by
  intro proved
  rcases backed proved with
    ⟨conclusion, step, premise, shape, isConsequence, question, member, asks⟩
  exact ⟨conclusion, step, premise, shape, isConsequence, question, included question member, asks⟩

/-- Whether a flag is backed can be seen in the face of its node. -/
theorem Backed.of_face {confirmed : List Question} {old node : Derivation}
    (sameFace : old.face? = node.face?) (backed : Backed confirmed old) :
    Backed confirmed node := by
  cases node with
  | missing => exact backed_of_unproved rfl
  | node conclusion step proved premises =>
      cases old with
      | missing => cases sameFace
      | node oldConclusion oldStep oldProved oldPremises =>
          simp only [face?, Option.some.injEq, Face.mk.injEq] at sameFace
          rcases sameFace with ⟨rfl, rfl, rfl, samePremises⟩
          intro isProved
          rcases backed isProved with ⟨_, _, premise, shape, isConsequence, question, member, asks⟩
          cases shape
          rcases List.length_eq_one_iff.mp (by
            simpa using (congrArg List.length samePremises).symm) with ⟨newPremise, rfl⟩
          refine ⟨_, _, newPremise, rfl, isConsequence, question, member, ?_⟩
          rw [AskedBy, ← obligations_congr samePremises]
          exact asks

/-! ## Edits keep flags backed -/

/-- A refined node and its premises have no flags, and no other flag speaks of
anything else than before. -/
theorem refine?_backed {confirmed : List Question} {root result : Derivation} {path : Path}
    {rule : Rule} {given : RuleInput} (backed : Everywhere (Backed confirmed) root)
    (refined : root.refine? path rule given = some result) :
    Everywhere (Backed confirmed) result := by
  rcases refine?_eq_some_iff.mp refined with
    ⟨conclusion, step, proved, below, triples, found, _, replaced⟩
  apply backed.of_replace? (fun _ _ sameFace => Backed.of_face sameFace) found replaced rfl
  refine everywhere_node_iff.mpr ⟨backed_of_unproved rfl, ?_⟩
  intro premise member
  rcases List.mem_map.mp member with ⟨triple, _, rfl⟩
  exact everywhere_leaf (backed_of_unproved rfl)

/-- Marking a node keeps all flags backed, if a confirmed question asked what the node
says. -/
theorem markProved_backed {confirmed : List Question} {root current result : Derivation}
    {question : Question} {path : Path} (backed : Everywhere (Backed confirmed) root)
    (found : root.at? path = some current) (member : question ∈ confirmed)
    (nonempty : question.asked.obligations ≠ [])
    (same : Session.sameQuestion current question.asked = true)
    (replaced : root.replace? path current.markProved = some result) :
    Everywhere (Backed confirmed) result := by
  rcases Session.sameQuestion_iff.mp same with
    ⟨triple, step, proved, premises, asked, _, _, _, rfl, isAsked, _, sameConditions, sameStmt⟩
  have conditions : (Derivation.node triple step proved premises).obligations ≠ [] := by
    intro empty
    rw [empty] at sameConditions
    cases askedConditions : question.asked.obligations with
    | nil => exact nonempty askedConditions
    | cons first rest =>
        rw [askedConditions] at sameConditions
        cases sameConditions
  rcases obligations_ne_nil_iff.mp conditions with
    ⟨_, _, _, premise, premiseStep, premiseProved, _, shape, isConsequence⟩
  cases shape
  apply backed.of_replace? (fun _ _ sameFace => Backed.of_face sameFace) found replaced rfl
  refine everywhere_node_iff.mpr ⟨?_, ?_⟩
  · intro _
    refine ⟨triple, step, _, rfl, isConsequence, question, member, sameConditions, triple, asked,
      rfl, ?_, sameStmt⟩
    rw [isAsked]
    rfl
  · intro below isBelow
    exact (backed.below found).premise isBelow

end Derivation

/-! ## Every step of a dialogue keeps flags backed -/

namespace Dialogue

open HoareProof.Derivation

/-- Every flag of every root is backed, and every open question has been asked of a
node with side conditions. -/
structure Accounted (dialogue : Dialogue) : Prop where
  backed : forall root, root ∈ dialogue.session.roots ->
    Everywhere (Backed dialogue.confirmed) root
  asks : forall question, question ∈ dialogue.pending -> question.asked.obligations ≠ []

theorem start_accounted {root : Option Derivation}
    (unproved : forall tree, root = some tree ->
      Everywhere (fun node => node.isProved = false) tree) :
    (start root).Accounted := by
  constructor
  · intro tree member
    cases root with
    | none => cases member
    | some root =>
        cases List.mem_singleton.mp member
        intro path node found
        exact backed_of_unproved (unproved tree rfl path node found)
  · intro question member
    cases member

variable {dialogue : Dialogue}

theorem Accounted.swapped (accounted : dialogue.Accounted) {root : Derivation}
    (backed : Everywhere (Backed dialogue.confirmed) root) :
    (dialogue.edited (some (dialogue.session.swap root))).Accounted := by
  constructor
  · intro tree member
    rcases List.mem_cons.mp member with isRoot | isOld
    · subst isRoot
      exact backed
    · exact accounted.backed tree isOld
  · exact accounted.asks

theorem Accounted.created (accounted : dialogue.Accounted) (pre : Expr) (stmt : Stmt)
    (post : Expr) : (dialogue.next (.create pre stmt post)).Accounted := by
  rw [next, Session.create?, Derivation.create?]
  cases stmt.finalize with
  | none => exact accounted
  | some complete =>
      cases pre.isComplete && post.isComplete with
      | false => exact accounted
      | true => exact accounted.swapped (everywhere_leaf (backed_of_unproved rfl))

theorem Accounted.refined (accounted : dialogue.Accounted) (path : Path) (rule : Option Rule)
    (given : RuleInput) : (dialogue.next (.refine path rule given)).Accounted := by
  rw [next]
  cases change : rule.bind fun rule => dialogue.session.refine? path rule given with
  | none => exact accounted
  | some changed =>
      rcases Option.bind_eq_some_iff.mp change with ⟨known, _isKnown, edited⟩
      rcases Session.edit?_eq_some_iff.mp edited with ⟨root, result, isRoot, refined, swapped⟩
      subst swapped
      have member : root ∈ dialogue.session.roots := by
        simp [Session.roots, isRoot]
      exact accounted.swapped (refine?_backed (accounted.backed root member) refined)

theorem Accounted.undone (accounted : dialogue.Accounted) : (dialogue.next .undo).Accounted := by
  rw [next, Session.undo?]
  cases history : dialogue.session.history with
  | nil => exact accounted
  | cons root earlier =>
      constructor
      · intro tree member
        apply accounted.backed tree
        rw [Session.roots, history]
        exact List.mem_append_right _ member
      · exact accounted.asks

theorem Accounted.asked (accounted : dialogue.Accounted) (path : Path) :
    (dialogue.next (.ask path)).Accounted := by
  rw [next]
  cases asks : dialogue.session.ask path with
  | error e => exact accounted
  | ok sent =>
      constructor
      · exact accounted.backed
      · intro question member
        rcases List.mem_append.mp member with isOld | isNew
        · exact accounted.asks question isOld
        · cases List.mem_singleton.mp isNew
          exact (Session.ask_eq_ok_iff.mp asks).2.2.1

/-- An answer marks a node only together with a confirmed question, and a question that
is confirmed without being recorded marks nothing. -/
theorem Accounted.answered (accounted : dialogue.Accounted) (index : Nat) (status : Status) :
    (dialogue.next (.answer index status)).Accounted := by
  rw [next]
  cases isOpen : dialogue.pending[index]? with
  | none => exact accounted
  | some question =>
      have member := List.mem_of_getElem? isOpen
      have asksStill : forall other, other ∈ dialogue.pending.eraseIdx index ->
          other.asked.obligations ≠ [] := by
        intro other isOther
        exact accounted.asks other (List.mem_of_mem_eraseIdx isOther)
      have grows : forall other, other ∈ dialogue.confirmed ->
          other ∈ (if status = .valid then question :: dialogue.confirmed
            else dialogue.confirmed) := by
        intro other isOther
        split
        · exact List.mem_cons_of_mem _ isOther
        · exact isOther
      have keeps : forall tree, tree ∈ dialogue.session.roots ->
          Everywhere (Backed (if status = .valid then question :: dialogue.confirmed
            else dialogue.confirmed)) tree := by
        intro tree isTree path node found
        exact (accounted.backed tree isTree path node found).mono grows
      change Accounted ⟨(dialogue.session.record? question status).getD dialogue.session, _, _⟩
      cases recorded : dialogue.session.record? question status with
      | none => exact ⟨keeps, asksStill⟩
      | some changed =>
          rcases Session.record?_eq_some_iff.mp recorded with
            ⟨rfl, root, current, result, isRoot, found, same, replaced, swapped⟩
          subst swapped
          refine ⟨?_, asksStill⟩
          intro tree isTree
          rcases List.mem_cons.mp isTree with isResult | isOld
          · subst isResult
            have rootMember : root ∈ dialogue.session.roots := by
              simp [Session.roots, isRoot]
            exact markProved_backed (keeps root rootMember) found List.mem_cons_self
              (accounted.asks question member) same replaced
          · exact keeps tree isOld

theorem Accounted.next (accounted : dialogue.Accounted) (event : Event) :
    (dialogue.next event).Accounted := by
  cases event with
  | create pre stmt post => exact accounted.created pre stmt post
  | refine path rule given => exact accounted.refined path rule given
  | undo => exact accounted.undone
  | ask path => exact accounted.asked path
  | answer index status => exact accounted.answered index status

theorem Accounted.run (accounted : dialogue.Accounted) (events : List Event) :
    (dialogue.run events).Accounted := by
  induction events generalizing dialogue with
  | nil => exact accounted
  | cons event events inductionHypothesis => exact inductionHypothesis (accounted.next event)

/-! ## Confirmed questions are answered questions -/

theorem confirmed_next {question : Question} {event : Event}
    (member : question ∈ (dialogue.next event).confirmed) :
    question ∈ dialogue.confirmed ∨
      ∃ index, event = .answer index .valid ∧ dialogue.pending[index]? = some question := by
  cases event with
  | create pre stmt post => exact Or.inl member
  | refine path rule given => exact Or.inl member
  | undo => exact Or.inl member
  | ask path =>
      rw [Dialogue.next] at member
      cases asks : dialogue.session.ask path with
      | error e =>
          rw [asks] at member
          exact Or.inl member
      | ok sent =>
          rw [asks] at member
          exact Or.inl member
  | answer index status =>
      rw [Dialogue.next] at member
      cases isOpen : dialogue.pending[index]? with
      | none =>
          rw [isOpen] at member
          exact Or.inl member
      | some asked =>
          rw [isOpen] at member
          by_cases valid : status = .valid
          · subst valid
            rcases List.mem_cons.mp member with isAsked | isOld
            · subst isAsked
              exact Or.inr ⟨index, rfl, isOpen⟩
            · exact Or.inl isOld
          · simp only [if_neg valid] at member
            exact Or.inl member

/-- A question is confirmed only by a valid answer that arrived while it was open. -/
theorem confirmed_run {question : Question} {events : List Event}
    (member : question ∈ (dialogue.run events).confirmed) :
    question ∈ dialogue.confirmed ∨
      ∃ before index after, events = before ++ .answer index .valid :: after ∧
        (dialogue.run before).pending[index]? = some question := by
  induction events generalizing dialogue with
  | nil => exact Or.inl member
  | cons event events inductionHypothesis =>
      rcases inductionHypothesis member with atOnce | ⟨before, index, after, split, isOpen⟩
      · rcases confirmed_next atOnce with old | ⟨index, isAnswer, isOpen⟩
        · exact Or.inl old
        · exact Or.inr ⟨[], index, events, by rw [isAnswer]; rfl, isOpen⟩
      · exact Or.inr ⟨event :: before, index, after, by rw [split]; rfl, isOpen⟩

/-- An answer to a question that the node at its path no longer asks changes nothing. -/
theorem answer_dropped {index : Nat} {status : Status} {question : Question}
    {current : Derivation} (isOpen : dialogue.pending[index]? = some question)
    (found : dialogue.session.at? question.path = some current)
    (changed : ¬ current.AskedBy question) :
    (dialogue.next (.answer index status)).session = dialogue.session := by
  simp only [Dialogue.next, isOpen]
  cases recorded : dialogue.session.record? question status with
  | none => rfl
  | some session =>
      rcases Session.record?_eq_some_iff.mp recorded with
        ⟨_, root, now, _, isRoot, foundNow, same, _, _⟩
      have isNow := found.symm.trans (Session.at?_eq_some_iff.mpr ⟨root, isRoot, foundNow⟩)
      cases isNow
      rcases Session.sameQuestion_iff.mp same with
        ⟨triple, _, _, _, asked, _, _, _, isCurrent, isAsked, _, sameConditions, sameStmt⟩
      refine absurd ⟨sameConditions, triple, asked, ?_, ?_, sameStmt⟩ changed
      · rw [isCurrent]
        rfl
      · rw [isAsked]
        rfl

/-- In a session that starts without flags, every flag ever seen, in the current root or
in one that can be gone back to, stands at a step of consequence with one premise, and
an answer that arrived before said that the side conditions of this very node are valid.
An answer about what a node no longer says changes nothing. -/
theorem flags_confirmed (root : Option Derivation)
    (unproved : forall tree, root = some tree -> Everywhere (fun node => node.isProved = false) tree)
    (events : List Event) :
    (forall tree, tree ∈ ((start root).run events).session.roots ->
      forall path node, tree.at? path = some node -> node.isProved = true ->
        (∃ conclusion step premise, node = .node conclusion step true [premise] ∧
          step.isConsequence = true) ∧
        ∃ before index after question, events = before ++ .answer index .valid :: after ∧
          ((start root).run before).pending[index]? = some question ∧ node.AskedBy question) ∧
    forall index status question current,
      ((start root).run events).pending[index]? = some question ->
      ((start root).run events).session.at? question.path = some current ->
      ¬ current.AskedBy question ->
        (((start root).run events).next (.answer index status)).session =
          ((start root).run events).session := by
  constructor
  · intro tree member path node found proved
    have accounted := (start_accounted unproved).run events
    rcases accounted.backed tree member path node found proved with
      ⟨conclusion, step, premise, shape, isConsequence, question, confirmed, asks⟩
    refine ⟨⟨conclusion, step, premise, shape, isConsequence⟩, ?_⟩
    rcases confirmed_run confirmed with atStart | ⟨before, index, after, split, isOpen⟩
    · cases atStart
    · exact ⟨before, index, after, question, split, isOpen, asks⟩
  · intro index status question current isOpen found changed
    exact answer_dropped isOpen found changed

/-! ## An answer that outlives a refinement -/

/-- A step of consequence that weakens nothing to everything. -/
def questionable : Derivation :=
  .node ⟨.truth false, .skip, .truth true⟩ (.applied .consequence) false
    [leaf ⟨.truth true, .skip, .truth true⟩]

/-- A question is asked, the node is refined, the refinement is undone, and only then
the answer arrives. -/
def lateAnswer : List Event :=
  [.ask [], .refine [] (some .consequence) ⟨.hole, .truth false, .truth false⟩, .undo,
    .answer 0 .valid]

theorem questionable_unproved : Everywhere (fun node => node.isProved = false) questionable :=
  everywhere_node_iff.mpr ⟨rfl, fun _ member => by
    cases List.mem_singleton.mp member
    exact everywhere_leaf rfl⟩

theorem lateAnswer_confirmed :
    ∃ tree node, tree ∈ ((start (some questionable)).run lateAnswer).session.roots ∧
      tree.at? [] = some node ∧ node.isProved = true ∧
      ∃ before index after question, lateAnswer = before ++ .answer index .valid :: after ∧
        ((start (some questionable)).run before).pending[index]? = some question ∧
          node.AskedBy question := by
  refine ⟨questionable.markProved, questionable.markProved, List.mem_cons_self, rfl, rfl, ?_⟩
  exact ((flags_confirmed (some questionable) (fun tree isTree => by
    cases isTree
    exact questionable_unproved) lateAnswer).1 _ List.mem_cons_self [] _ rfl rfl).2

end Dialogue
end HoareProof
