import HoareProof.Proofs.Coverage
import HoareProof.Proofs.Edits

namespace HoareProof

/-!
Finalizing drafts.  Drafts, complete statements and holes may be mixed in any way, and a
complete statement may well have a hole inside of it.  Finalizing looks at every part and gives
up where anything is missing; where nothing is, it changes the stage of the parts and nothing
else.  So it has one of two results: none, or the statement with every part settled.
-/

namespace Stmt

/-- Whether something is missing at a statement itself: all of it, its target, its value or its
guard.  The statements inside of it are parts of their own. -/
def lacks : Stmt -> Bool
  | .hole => true
  | .skip => false
  | .assign _ target value => target.isEmpty || !value.isComplete
  | .seq _ _ _ => false
  | .cond _ guard _ _ => !guard.isComplete
  | .loop _ guard _ => !guard.isComplete

/-- Something is missing somewhere in a statement. -/
def Lacking (stmt : Stmt) : Prop :=
  ∃ part, part ∈ stmt.parts ∧ part.lacks = true

/-- Whether a statement itself is a draft. -/
def isDraft : Stmt -> Bool
  | .hole => false
  | .skip => false
  | .assign stage _ _ => stage == .draft
  | .seq stage _ _ => stage == .draft
  | .cond stage _ _ _ => stage == .draft
  | .loop stage _ _ => stage == .draft

/-- No part of a statement is a draft. -/
def DraftFree (stmt : Stmt) : Prop :=
  forall part, part ∈ stmt.parts -> part.isDraft = false

/-- The statement with every part taken as complete, also where something is missing. -/
def settled : Stmt -> Stmt
  | .hole => .hole
  | .skip => .skip
  | .assign _ target value => .assign .complete target value
  | .seq _ first second => .seq .complete first.settled second.settled
  | .cond _ guard thenBranch elseBranch =>
      .cond .complete guard thenBranch.settled elseBranch.settled
  | .loop _ guard body => .loop .complete guard body.settled

/-! ## Holes -/

/-- Something is missing in a statement when it is missing at the statement itself or in one of
the statements it is composed of. -/
theorem lacking_iff (stmt : Stmt) :
    stmt.Lacking ↔ stmt.lacks = true ∨ ∃ piece, piece ∈ stmt.pieces ∧ piece.Lacking := by
  unfold Lacking
  rw [parts_eq]
  simp only [List.mem_cons, List.mem_flatMap]
  constructor
  · rintro ⟨part, rfl | ⟨piece, isPiece, inPiece⟩, lacks⟩
    · exact .inl lacks
    · exact .inr ⟨piece, isPiece, part, inPiece, lacks⟩
  · rintro (lacks | ⟨piece, isPiece, part, inPiece, lacks⟩)
    · exact ⟨stmt, .inl rfl, lacks⟩
    · exact ⟨part, .inr ⟨piece, isPiece, inPiece⟩, lacks⟩

/-- Finalizing gives up where something is missing, and settles the statement where nothing
is. -/
theorem finalize_cases (stmt : Stmt) :
    stmt.Lacking ∧ stmt.finalize = none ∨
      ¬ stmt.Lacking ∧ stmt.finalize = some stmt.settled := by
  rw [lacking_iff]
  induction stmt with
  | hole | skip => simp [lacks, pieces, finalize, settled]
  | assign stage target value =>
      cases named : target.isEmpty <;> cases complete : value.isComplete <;>
        simp [lacks, pieces, finalize, settled, named, complete]
  | seq stage first second firstCases secondCases =>
      simp only [← lacking_iff] at firstCases secondCases
      rcases firstCases with ⟨lacking, gives⟩ | ⟨whole, gives⟩ <;>
        rcases secondCases with ⟨lacking', gives'⟩ | ⟨whole', gives'⟩ <;>
          simp [lacks, pieces, finalize, settled, *]
  | cond stage guard thenBranch elseBranch thenCases elseCases =>
      simp only [← lacking_iff] at thenCases elseCases
      rcases thenCases with ⟨lacking, gives⟩ | ⟨whole, gives⟩ <;>
        rcases elseCases with ⟨lacking', gives'⟩ | ⟨whole', gives'⟩ <;>
          cases complete : guard.isComplete <;> simp [lacks, pieces, finalize, settled, *]
  | loop stage guard body bodyCases =>
      simp only [← lacking_iff] at bodyCases
      rcases bodyCases with ⟨lacking, gives⟩ | ⟨whole, gives⟩ <;>
        cases complete : guard.isComplete <;> simp [lacks, pieces, finalize, settled, *]

theorem finalize_eq_none_iff (stmt : Stmt) : stmt.finalize = none ↔ stmt.Lacking := by
  rcases stmt.finalize_cases with ⟨lacking, gives⟩ | ⟨whole, gives⟩
  · simp [lacking, gives]
  · simp [whole, gives]

/-! ## What is settled -/

theorem draftFree_iff (stmt : Stmt) :
    stmt.DraftFree ↔
      stmt.isDraft = false ∧ forall piece, piece ∈ stmt.pieces -> piece.DraftFree := by
  unfold DraftFree
  rw [parts_eq]
  simp only [List.mem_cons, List.mem_flatMap]
  constructor
  · intro free
    exact ⟨free stmt (.inl rfl), fun piece isPiece part inPiece =>
      free part (.inr ⟨piece, isPiece, inPiece⟩)⟩
  · rintro ⟨atRoot, inPieces⟩ part (rfl | ⟨piece, isPiece, inPiece⟩)
    · exact atRoot
    · exact inPieces piece isPiece part inPiece

theorem draftFree_settled (stmt : Stmt) : stmt.settled.DraftFree := by
  induction stmt with
  | hole | skip | assign =>
      rw [draftFree_iff]
      simp [settled, isDraft, pieces]
  | seq stage first second firstFree secondFree =>
      rw [draftFree_iff]
      simpa [settled, isDraft, pieces] using ⟨firstFree, secondFree⟩
  | cond stage guard thenBranch elseBranch thenFree elseFree =>
      rw [draftFree_iff]
      simpa [settled, isDraft, pieces] using ⟨thenFree, elseFree⟩
  | loop stage guard body bodyFree =>
      rw [draftFree_iff]
      simpa [settled, isDraft, pieces] using bodyFree

theorem parenthesized_settled (stmt : Stmt) (inner : String) :
    parenthesized stmt.settled inner = parenthesized stmt inner := by
  cases stmt <;> rfl

/-- The text of a statement does not show its stage. -/
theorem text_settled (stmt : Stmt) : stmt.settled.text = stmt.text := by
  induction stmt with
  | hole | skip | assign => rfl
  | seq stage first second firstText secondText =>
      simp only [settled, text, parenthesized_settled, firstText, secondText]
  | cond stage guard thenBranch elseBranch thenText elseText =>
      simp only [settled, text, parenthesized_settled, thenText, elseText]
  | loop stage guard body bodyText =>
      simp only [settled, text, parenthesized_settled, bodyText]

theorem eq_complete_of_noDraft {stage : Stage} (noDraft : (stage == .draft) = false) :
    stage = .complete := by
  cases stage with
  | draft => cases noDraft
  | complete => rfl

/-- Where there is no draft, nothing has to be settled. -/
theorem DraftFree.settled_eq {stmt : Stmt} (free : stmt.DraftFree) : stmt.settled = stmt := by
  induction stmt with
  | hole | skip => rfl
  | assign stage target value =>
      rcases (draftFree_iff _).mp free with ⟨noDraft, _⟩
      rw [settled, eq_complete_of_noDraft noDraft]
  | seq stage first second firstHypothesis secondHypothesis =>
      rcases (draftFree_iff _).mp free with ⟨noDraft, inside⟩
      have sameFirst := firstHypothesis (inside first (by simp [pieces]))
      have sameSecond := secondHypothesis (inside second (by simp [pieces]))
      rw [settled, sameFirst, sameSecond, eq_complete_of_noDraft noDraft]
  | cond stage guard thenBranch elseBranch thenHypothesis elseHypothesis =>
      rcases (draftFree_iff _).mp free with ⟨noDraft, inside⟩
      have sameThen := thenHypothesis (inside thenBranch (by simp [pieces]))
      have sameElse := elseHypothesis (inside elseBranch (by simp [pieces]))
      rw [settled, sameThen, sameElse, eq_complete_of_noDraft noDraft]
  | loop stage guard body bodyHypothesis =>
      rcases (draftFree_iff _).mp free with ⟨noDraft, inside⟩
      have sameBody := bodyHypothesis (inside body (by simp [pieces]))
      rw [settled, sameBody, eq_complete_of_noDraft noDraft]

/-- What is to be said of a statement that has been finalized. -/
structure FinalizedTo (stmt final : Stmt) : Prop where
  draftFree : final.DraftFree
  idempotent : final.finalize = some final
  sameText : final.text = stmt.text
  unchanged : stmt.DraftFree -> final = stmt

theorem finalizedTo_settled {stmt : Stmt} (finalized : stmt.finalize = some stmt.settled) :
    FinalizedTo stmt stmt.settled where
  draftFree := stmt.draftFree_settled
  idempotent := finalize_finalize finalized
  sameText := stmt.text_settled
  unchanged := DraftFree.settled_eq

end Stmt

namespace Derivation

/-- A derivation can be started for a triple of which nothing is missing. -/
theorem create?_isSome_iff (pre : Expr) (stmt : Stmt) (post : Expr) :
    (create? pre stmt post).isSome = true ↔
      pre.isComplete = true ∧ post.isComplete = true ∧ ¬ stmt.Lacking := by
  rcases stmt.finalize_cases with ⟨lacking, gives⟩ | ⟨whole, gives⟩
  · simp [create?, lacking, gives]
  · cases preComplete : pre.isComplete <;> cases postComplete : post.isComplete <;>
      simp [create?, whole, gives, preComplete, postComplete]

end Derivation

namespace Stmt

/-- A statement is finalized unless something is missing in it, and then it has no draft left,
is final, reads as before, and is the same as before if it had no draft.  Nothing else keeps a
derivation from being started. -/
theorem drafts_finalize_exactly (stmt : Stmt) :
    (stmt.finalize = none ↔ stmt.Lacking) ∧
      (¬ stmt.Lacking -> ∃ final, stmt.finalize = some final ∧ FinalizedTo stmt final) ∧
        forall pre post, (Derivation.create? pre stmt post).isSome = true ↔
          pre.isComplete = true ∧ post.isComplete = true ∧ ¬ stmt.Lacking := by
  refine ⟨stmt.finalize_eq_none_iff, fun whole => ?_, fun pre post =>
    Derivation.create?_isSome_iff pre stmt post⟩
  rcases stmt.finalize_cases with ⟨lacking, _⟩ | ⟨_, gives⟩
  · exact absurd lacking whole
  · exact ⟨stmt.settled, gives, finalizedTo_settled gives⟩

/-- A complete conditional around a draft of a loop, whose body is composed of a draft and a
complete statement. -/
def patched : Stmt :=
  .cond .complete (.var "b")
    (.loop .draft (.truth true)
      (.seq .complete (.assign .draft "x" (.const (.whole 1))) (.assign .complete "y" (.var "x"))))
    .skip

theorem patched_finalizes_exactly :
    ¬ patched.Lacking ∧ ¬ patched.DraftFree ∧
      (∃ final, patched.finalize = some final ∧ FinalizedTo patched final ∧ final ≠ patched) ∧
        Lacking (.seq .complete patched .hole) ∧
          Stmt.finalize (.seq .complete patched .hole) = none := by
  have whole : ¬ patched.Lacking := by
    simp [Lacking, patched, parts, lacks, Expr.isComplete]
  have drafted : ¬ patched.DraftFree := by
    simp [DraftFree, patched, parts, isDraft]
  have lacking : Lacking (.seq .complete patched .hole) := by
    simp [Lacking, parts, lacks]
  rcases (drafts_finalize_exactly patched).2.1 whole with ⟨final, gives, finalizedTo⟩
  refine ⟨whole, drafted, ⟨final, gives, finalizedTo, ?_⟩, lacking,
    (drafts_finalize_exactly _).1.mpr lacking⟩
  rintro rfl
  exact drafted finalizedTo.draftFree

end Stmt
end HoareProof
