import HoareProof.Proofs.Paths
import HoareProof.Proofs.Values
import HoareProof.Session

namespace HoareProof
namespace Session

/-!
What the operations of a session do.  An edit puts the new root in front of all roots
that the session had, so whatever holds of every root is kept by an edit whose new root
has it.  A question is about the node that stood at its path, and an answer to it marks
the node that stands there now, provided the same question would be asked again.
-/

/-- The current root, if there is one, and all roots that can be gone back to. -/
def roots (session : Session) : List Derivation :=
  session.root.toList ++ session.history

theorem edit?_eq_some_iff {session changed : Session} {change : Derivation -> Option Derivation} :
    session.edit? change = some changed ↔
      ∃ root result, session.root = some root ∧ change root = some result ∧
        session.swap result = changed := by
  rcases session with ⟨root, history⟩
  cases root with
  | none => simp [edit?]
  | some root => simp [edit?]

theorem at?_eq_some_iff {session : Session} {path : Path} {node : Derivation} :
    session.at? path = some node ↔
      ∃ root, session.root = some root ∧ root.at? path = some node := by
  rcases session with ⟨root, history⟩
  cases root <;> simp [Session.at?]

/-- A question can be asked exactly where a node has side conditions that can be
written down. -/
theorem ask_eq_ok_iff {session : Session} {path : Path} {question : Question}
    {lines : List String} :
    session.ask path = .ok (question, lines) ↔
      question.path = path ∧ session.at? path = some question.asked ∧
        question.asked.obligations ≠ [] ∧
          Obligation.script question.asked.obligations = .ok lines := by
  rcases question with ⟨place, asked⟩
  constructor
  · intro asks
    unfold ask at asks
    split at asks
    · cases asks
    · rename_i target found
      split at asks
      · cases asks
      · rename_i nonempty
        split at asks
        · cases asks
        · rename_i script written
          cases asks
          exact ⟨rfl, found, nonempty, written⟩
  · rintro ⟨rfl, found, nonempty, written⟩
    simp only [ask, found, written]

/-- Where no node has side conditions, no question is asked, and nothing is said about
constants. -/
theorem ask_of_quiet {session : Session} {path : Path}
    (quiet : forall node, session.at? path = some node -> node.obligations = []) :
    session.ask path = .error (.noNode path) ∨
      session.ask path = .error (.notConsequence path) := by
  cases atPath : session.at? path with
  | none =>
      refine Or.inl ?_
      simp only [ask, atPath]
  | some node =>
      refine Or.inr ?_
      simp only [ask, atPath, quiet node atPath]

theorem ask_of_tooLarge {session : Session} {path : Path} {node : Derivation}
    {error : ConstantTooLarge} (atPath : session.at? path = some node)
    (raises : node.obligations ≠ [])
    (unwritten : Obligation.script node.obligations = .error error) :
    session.ask path = .error (.tooLarge error) := by
  cases conditions : node.obligations with
  | nil => exact absurd conditions raises
  | cons first rest =>
      rw [conditions] at unwritten
      simp only [ask, atPath, conditions, unwritten]

/-- An answer changes a session exactly when it is valid and the node that is at the
path now raises the question that was asked. -/
theorem record?_eq_some_iff {session changed : Session} {question : Question}
    {status : Status} :
    session.record? question status = some changed ↔
      status = .valid ∧ ∃ root current result, session.root = some root ∧
        root.at? question.path = some current ∧
          sameQuestion current question.asked = true ∧
            root.replace? question.path current.markProved = some result ∧
              session.swap result = changed := by
  constructor
  · intro recorded
    unfold record? at recorded
    split at recorded
    · rename_i valid
      split at recorded
      · cases recorded
      · rename_i current found
        split at recorded
        · rename_i same
          rcases at?_eq_some_iff.mp found with ⟨root, isRoot, foundIn⟩
          rcases edit?_eq_some_iff.mp recorded with ⟨_, result, isRoot', replaced, swapped⟩
          cases isRoot.symm.trans isRoot'
          simp only [Derivation.update?, foundIn] at replaced
          exact ⟨valid, root, current, result, isRoot, foundIn, same, replaced, swapped⟩
        · cases recorded
    · cases recorded
  · rintro ⟨rfl, root, current, result, isRoot, foundIn, same, replaced, swapped⟩
    have found := at?_eq_some_iff.mpr ⟨root, isRoot, foundIn⟩
    simp only [record?, if_true, found, same]
    apply edit?_eq_some_iff.mpr
    refine ⟨root, result, isRoot, ?_, swapped⟩
    simp only [Derivation.update?, foundIn, replaced]

theorem sameQuestion_iff {current asked : Derivation} :
    sameQuestion current asked = true ↔
      ∃ triple step proved premises triple' step' proved' premises',
        current = .node triple step proved premises ∧
          asked = .node triple' step' proved' premises' ∧ step.sameValue step' = true ∧
            Obligation.sameValues current.obligations asked.obligations = true ∧
              triple.stmt.sameValue triple'.stmt = true := by
  constructor
  · intro same
    cases current with
    | missing => cases same
    | node triple step proved premises =>
        cases asked with
        | missing => cases same
        | node triple' step' proved' premises' =>
            simp only [sameQuestion, Bool.and_eq_true] at same
            exact ⟨triple, step, proved, premises, triple', step', proved', premises', rfl, rfl,
              same.1.1, same.1.2, same.2⟩
  · rintro ⟨triple, step, proved, premises, triple', step', proved', premises', rfl, rfl,
      sameStep, sameConditions, sameStmt⟩
    simp only [sameQuestion, Bool.and_eq_true]
    exact ⟨⟨sameStep, sameConditions⟩, sameStmt⟩

end Session
end HoareProof
