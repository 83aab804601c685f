import HoareProof.Proofs.Provenance

namespace HoareProof

/-!
Going back in a session.  Every change that is accepted puts exactly one root into the
history, and a change that is refused, dropped or broken off leaves the session as it is.
So the number of accepted changes is the number of times one has to go back to be where
one was, with the same root and the same history.

A change counts by being accepted, not by its value: an answer about a node that is already
marked is recorded again, and going back once takes only the second record back.
-/

/-- What a change makes of a node: it breaks off, gives back the very node it got, or gives
another one. -/
inductive Revision where
  | brokenOff
  | unchanged
  | changed (node : Derivation)

namespace Session

/-- Changes the node at a path, unless the change breaks off. -/
def revise? (session : Session) (path : Path) (revise : Derivation -> Revision) :
    Option Session :=
  match (session.at? path).map revise with
  | none => none
  | some .brokenOff => none
  | some .unchanged => session.update? path fun _ => none
  | some (.changed node) => session.update? path fun _ => some node

/-- Goes back several times, if there are that many roots to go back to. -/
def undoTimes : Nat -> Session -> Option Session
  | 0, session => some session
  | times + 1, session => session.undo?.bind (undoTimes times)

theorem undoTimes_add (first second : Nat) (session : Session) :
    undoTimes (first + second) session = (undoTimes first session).bind (undoTimes second) := by
  induction first generalizing session with
  | zero => rw [Nat.zero_add]; rfl
  | succ first inductionHypothesis =>
      rw [Nat.add_right_comm, undoTimes, undoTimes, Option.bind_assoc]
      exact congrArg _ (funext inductionHypothesis)

theorem undo?_eq_none_iff (session : Session) : session.undo? = none ↔ session.history = [] := by
  rw [undo?]
  cases session.history <;> simp

variable {session changed : Session} {root : Derivation}

/-- Going back right after a change gives back the session before it. -/
theorem undo?_swap (isRoot : session.root = some root) (result : Derivation) :
    (session.swap result).undo? = some session := by
  rcases session with ⟨_, history⟩
  cases isRoot
  rfl

theorem history_swap (isRoot : session.root = some root) (result : Derivation) :
    (session.swap result).history = root :: session.history := by
  rw [swap, isRoot]
  rfl

theorem exists_swap_of_edit? {change : Derivation -> Option Derivation}
    (edited : session.edit? change = some changed) : ∃ result, session.swap result = changed := by
  rcases edit?_eq_some_iff.mp edited with ⟨_, result, _, _, swapped⟩
  exact ⟨result, swapped⟩

theorem exists_swap_of_create? {pre post : Expr} {stmt : Stmt}
    (created : (session.create? pre stmt post).map (·.2) = some changed) :
    ∃ result, session.swap result = changed := by
  rw [create?, Option.map_map, Option.map_eq_some_iff] at created
  rcases created with ⟨result, _, swapped⟩
  exact ⟨result, swapped⟩

theorem exists_swap_of_revise? {path : Path} {revise : Derivation -> Revision}
    (revised : session.revise? path revise = some changed) :
    ∃ result, session.swap result = changed := by
  unfold revise? at revised
  split at revised
  · cases revised
  · cases revised
  · exact exists_swap_of_edit? revised
  · exact exists_swap_of_edit? revised

theorem exists_swap_of_record? {question : Question} {status : Status}
    (recorded : session.record? question status = some changed) :
    ∃ result, session.swap result = changed := by
  rcases record?_eq_some_iff.mp recorded with ⟨_, _, _, result, _, _, _, _, swapped⟩
  exact ⟨result, swapped⟩

end Session

namespace Dialogue

/-! ## Moves -/

/-- What can be done in a dialogue, changes of a node by any function included. -/
inductive Move where
  | event (event : Event)
  | revise (path : Path) (revise : Derivation -> Revision)

/-- The session that a move puts in the place of the current one.  Asking puts none there,
and neither does a move that is rejected. -/
def accepted? (dialogue : Dialogue) : Move -> Option Session
  | .event (.create pre stmt post) => (dialogue.session.create? pre stmt post).map (·.2)
  | .event (.refine path rule given) =>
      rule.bind fun rule => dialogue.session.refine? path rule given
  | .event .undo => dialogue.session.undo?
  | .event (.ask _) => none
  | .event (.answer index status) =>
      dialogue.pending[index]?.bind fun question => dialogue.session.record? question status
  | .revise path revise => dialogue.session.revise? path revise

/-- The dialogue after a move. -/
def moved (dialogue : Dialogue) : Move -> Dialogue
  | .event event => dialogue.next event
  | .revise path revise => dialogue.edited (dialogue.session.revise? path revise)

/-- The dialogue after several moves. -/
def played (dialogue : Dialogue) (moves : List Move) : Dialogue :=
  moves.foldl moved dialogue

/-- How many of several moves are accepted. -/
def acceptedCount (dialogue : Dialogue) : List Move -> Nat
  | [] => 0
  | move :: moves =>
      (if (dialogue.accepted? move).isSome then 1 else 0) +
        (dialogue.moved move).acceptedCount moves

variable {dialogue : Dialogue} {move : Move}

/-- A move leads to the session that it puts in place, or leaves the session alone. -/
theorem session_moved (dialogue : Dialogue) (move : Move) :
    (dialogue.moved move).session = (dialogue.accepted? move).getD dialogue.session := by
  cases move with
  | revise path revise => rfl
  | event event =>
      cases event with
      | create pre stmt post => rfl
      | refine path rule given => rfl
      | undo => rfl
      | ask path =>
          simp only [moved, next, accepted?, Option.getD_none]
          cases dialogue.session.ask path <;> rfl
      | answer index status =>
          simp only [moved, next, accepted?]
          cases dialogue.pending[index]? <;> rfl

/-- An accepted move that does not go back puts a new root in front of the current one. -/
theorem exists_swap_of_accepted? {changed : Session} (forward : move ≠ .event .undo)
    (accepted : dialogue.accepted? move = some changed) :
    ∃ result, dialogue.session.swap result = changed := by
  cases move with
  | revise path revise => exact Session.exists_swap_of_revise? accepted
  | event event =>
      cases event with
      | create pre stmt post => exact Session.exists_swap_of_create? accepted
      | refine path rule given =>
          rcases Option.bind_eq_some_iff.mp accepted with ⟨known, _, refined⟩
          exact Session.exists_swap_of_edit? refined
      | undo => exact absurd rfl forward
      | ask path => cases accepted
      | answer index status =>
          rcases Option.bind_eq_some_iff.mp accepted with ⟨question, _, recorded⟩
          exact Session.exists_swap_of_record? recorded

/-! ## Going back over moves -/

/-- What a move that does not go back can do: it is not accepted and leaves the session
alone, or it puts a new root in front of the current one. -/
theorem moved_cases (dialogue : Dialogue) (forward : move ≠ .event .undo) :
    (dialogue.accepted? move = none ∧ (dialogue.moved move).session = dialogue.session) ∨
      ∃ result, dialogue.accepted? move = some (dialogue.session.swap result) ∧
        (dialogue.moved move).session = dialogue.session.swap result := by
  rw [session_moved]
  cases accepted : dialogue.accepted? move with
  | none => exact Or.inl ⟨rfl, rfl⟩
  | some changed =>
      rcases exists_swap_of_accepted? forward accepted with ⟨result, rfl⟩
      exact Or.inr ⟨result, rfl, rfl⟩

theorem rooted_moved {root : Derivation} (isRoot : dialogue.session.root = some root)
    (forward : move ≠ .event .undo) :
    ∃ current, (dialogue.moved move).session.root = some current := by
  rcases dialogue.moved_cases forward with ⟨_, kept⟩ | ⟨result, _, swapped⟩
  · exact ⟨root, kept ▸ isRoot⟩
  · exact ⟨result, swapped ▸ rfl⟩

/-- Going back after a move, once if it was accepted and not at all otherwise, gives back
the session before it. -/
theorem undoTimes_moved {root : Derivation} (isRoot : dialogue.session.root = some root)
    (forward : move ≠ .event .undo) :
    Session.undoTimes (if (dialogue.accepted? move).isSome then 1 else 0)
      (dialogue.moved move).session = some dialogue.session := by
  rcases dialogue.moved_cases forward with ⟨rejected, kept⟩ | ⟨result, accepted, swapped⟩
  · rw [rejected, kept]
    rfl
  · rw [accepted, swapped, Option.isSome_some, if_pos rfl, Session.undoTimes,
      Session.undo?_swap isRoot]
    rfl

theorem undoTimes_played {root : Derivation} (isRoot : dialogue.session.root = some root)
    {moves : List Move} (forward : forall move, move ∈ moves -> move ≠ .event .undo) :
    Session.undoTimes (dialogue.acceptedCount moves) (dialogue.played moves).session =
      some dialogue.session := by
  induction moves generalizing dialogue root with
  | nil => rfl
  | cons move moves inductionHypothesis =>
      have forwardNow := forward move List.mem_cons_self
      rcases rooted_moved isRoot forwardNow with ⟨current, isCurrent⟩
      have back := inductionHypothesis isCurrent fun other member =>
        forward other (List.mem_cons_of_mem _ member)
      -- First the later moves are taken back, then this one.
      rw [acceptedCount, Nat.add_comm, Session.undoTimes_add]
      change (Session.undoTimes _ ((dialogue.moved move).played moves).session).bind _ = _
      rw [back]
      exact undoTimes_moved isRoot forwardNow

theorem history_moved {root : Derivation} (isRoot : dialogue.session.root = some root)
    (forward : move ≠ .event .undo) (accepted : (dialogue.accepted? move).isSome = true) :
    (dialogue.moved move).session.history = root :: dialogue.session.history := by
  rcases dialogue.moved_cases forward with ⟨rejected, _⟩ | ⟨result, _, swapped⟩
  · rw [rejected] at accepted
    cases accepted
  · rw [swapped]
    exact Session.history_swap isRoot result

theorem session_moved_of_rejected (rejected : dialogue.accepted? move = none) :
    (dialogue.moved move).session = dialogue.session := by
  rw [session_moved, rejected]
  rfl

/-- Going back is the exact inverse of going on.  From any session with a root, after any
moves none of which goes back itself, going back as many times as moves were accepted
succeeds every time and leads to the session at the start, with its root and its history.
Each accepted move puts the current root into the history and nothing else, and a move that
is not accepted changes neither the root nor the history.  Going back fails exactly when
the history is empty, and then changes nothing. -/
theorem undo_inverts_moves (dialogue : Dialogue) (root : Derivation)
    (isRoot : dialogue.session.root = some root) (moves : List Move)
    (forward : forall move, move ∈ moves -> move ≠ .event .undo) :
    Session.undoTimes (dialogue.acceptedCount moves) (dialogue.played moves).session =
        some dialogue.session ∧
      (forall (now : Dialogue) move current, now.session.root = some current ->
        move ≠ .event .undo -> (now.accepted? move).isSome = true ->
          (now.moved move).session.history = current :: now.session.history) ∧
      (forall (now : Dialogue) move, now.accepted? move = none ->
        (now.moved move).session = now.session) ∧
      forall now : Dialogue, (now.session.undo? = none ↔ now.session.history = []) ∧
        (now.session.history = [] -> (now.moved (.event .undo)).session = now.session) := by
  refine ⟨undoTimes_played isRoot forward, ?_, ?_, ?_⟩
  · intro now move current isCurrent forwardNow accepted
    exact history_moved isCurrent forwardNow accepted
  · intro now move rejected
    exact session_moved_of_rejected rejected
  · intro now
    refine ⟨now.session.undo?_eq_none_iff, ?_⟩
    intro empty
    exact session_moved_of_rejected ((now.session.undo?_eq_none_iff).mpr empty)

/-! ## A question that is answered twice -/

/-- The same question is asked twice and both answers arrive, with an edit of a missing
node, a change that breaks off and one that changes nothing between them; then a change
below the root that gives back what it got. -/
def doubleAnswer : List Move :=
  [.event (.ask []), .event (.ask []), .event (.answer 0 .valid),
    .event (.refine [1] (some .skip) ⟨.hole, .hole, .hole⟩), .revise [0] fun _ => .brokenOff,
    .revise [] fun _ => .unchanged, .event (.answer 0 .valid), .revise [0] fun _ => .unchanged]

theorem doubleAnswer_undo_inverts_moves :
    (start (some questionable)).acceptedCount doubleAnswer = 3 ∧
      Session.undoTimes 3 ((start (some questionable)).played doubleAnswer).session =
        some (Session.start (some questionable)) := by
  have three : (start (some questionable)).acceptedCount doubleAnswer = 3 := by decide +kernel
  have forward : forall move, move ∈ doubleAnswer -> move ≠ .event .undo := by
    intro move member isUndo
    subst isUndo
    simp [doubleAnswer] at member
  refine ⟨three, ?_⟩
  rw [← three]
  exact (undo_inverts_moves (start (some questionable)) questionable rfl doubleAnswer forward).1

end Dialogue
end HoareProof
