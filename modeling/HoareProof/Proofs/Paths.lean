import HoareProof.Derivation.Edit
import HoareProof.Obligation

namespace HoareProof
namespace Derivation

/-!
The nodes of a derivation.  A derivation is the collection of the nodes its paths
lead to, and most statements about derivations say that something holds at every
one of them.  Such a statement is passed from a node to its premises, so it can be
used along the induction over derivations.
-/

/-- Induction over derivations.  A node has as many induction hypotheses as it has
premises. -/
@[elab_as_elim]
theorem nodeInduction {motive : Derivation -> Prop} (missing : motive .missing)
    (node : forall conclusion step proved premises,
      (forall premise, premise ∈ premises -> motive premise) ->
        motive (.node conclusion step proved premises)) :
    forall derivation, motive derivation
  | .missing => missing
  | .node conclusion step proved premises =>
      node conclusion step proved premises fun premise _member =>
        nodeInduction missing node premise
termination_by derivation => sizeOf derivation
decreasing_by
  have smaller := List.sizeOf_lt_of_mem _member
  simp only [Derivation.node.sizeOf_spec]
  omega

@[simp] theorem at?_missing (path : Path) : Derivation.missing.at? path = none := by
  cases path with
  | nil => rfl
  | cons index path => cases index <;> rfl

/-- Below a node, a path goes on at the premise that its first index names. -/
theorem at?_node_cons (conclusion : Triple) (step : Step) (proved : Bool)
    (premises : List Derivation) (index : Nat) (path : Path) :
    (Derivation.node conclusion step proved premises).at? ((index : Int) :: path) =
      premises[index]?.bind fun premise => premise.at? path := by
  have isPremise : (Derivation.node conclusion step proved premises).premise? (index : Int) =
      premises[index]? := rfl
  rw [at?, isPremise]
  cases premises[index]? <;> rfl

/-- A path that goes on leads to a node with premises, and through one of them. -/
theorem exists_premise_of_at?_cons {root node : Derivation} {index : Int} {path : Path}
    (found : root.at? (index :: path) = some node) :
    ∃ conclusion step proved premises position premise,
      root = .node conclusion step proved premises ∧ index = (position : Nat) ∧
        premises[position]? = some premise ∧ premise.at? path = some node := by
  cases root with
  | missing =>
      rw [at?_missing] at found
      cases found
  | node conclusion step proved premises =>
      cases index with
      | negSucc position => cases found
      | ofNat position =>
          rw [Int.ofNat_eq_natCast, at?_node_cons, Option.bind_eq_some_iff] at found
          rcases found with ⟨premise, atPosition, foundBelow⟩
          exact ⟨conclusion, step, proved, premises, position, premise, rfl, rfl, atPosition,
            foundBelow⟩

/-- The triple that a derivation derives. -/
def conclusion? : Derivation -> Option Triple
  | .missing => none
  | .node conclusion _ _ _ => some conclusion

/-- Whether the side conditions of a node are recorded as proved. -/
def isProved : Derivation -> Bool
  | .missing => false
  | .node _ _ proved _ => proved

/-- Whether the pre- and the postcondition of a node are complete. -/
def hasCompleteAssertions : Derivation -> Bool
  | .missing => false
  | .node conclusion _ _ _ => conclusion.pre.isComplete && conclusion.post.isComplete

/-- What holds at every node that a path leads to. -/
def Everywhere (property : Derivation -> Prop) (root : Derivation) : Prop :=
  forall path node, root.at? path = some node -> property node

theorem Everywhere.root {property : Derivation -> Prop} {conclusion : Triple} {step : Step}
    {proved : Bool} {premises : List Derivation}
    (everywhere : Everywhere property (.node conclusion step proved premises)) :
    property (.node conclusion step proved premises) :=
  everywhere [] _ rfl

theorem Everywhere.premise {property : Derivation -> Prop} {conclusion : Triple} {step : Step}
    {proved : Bool} {premises : List Derivation} {premise : Derivation}
    (everywhere : Everywhere property (.node conclusion step proved premises))
    (member : premise ∈ premises) : Everywhere property premise := by
  intro path node found
  rcases List.mem_iff_getElem?.mp member with ⟨index, atIndex⟩
  apply everywhere ((index : Int) :: path) node
  rw [at?_node_cons, atIndex]
  exact found

/-- A property holds everywhere in a derivation when it holds at the root and
everywhere in the premises. -/
theorem everywhere_node_iff {property : Derivation -> Prop} {conclusion : Triple} {step : Step}
    {proved : Bool} {premises : List Derivation} :
    Everywhere property (.node conclusion step proved premises) ↔
      property (.node conclusion step proved premises) ∧
        forall premise, premise ∈ premises -> Everywhere property premise := by
  constructor
  · intro everywhere
    exact ⟨everywhere.root, fun premise member => everywhere.premise member⟩
  · rintro ⟨atRoot, atPremises⟩ path node found
    cases path with
    | nil =>
        cases found
        exact atRoot
    | cons index path =>
        rcases exists_premise_of_at?_cons found with
          ⟨_, _, _, _, _, premise, isNode, _, atPosition, foundBelow⟩
        cases isNode
        exact atPremises premise (List.mem_of_getElem? atPosition) path node foundBelow

theorem everywhere_leaf {property : Derivation -> Prop} {conclusion : Triple}
    (atLeaf : property (leaf conclusion)) : Everywhere property (leaf conclusion) :=
  everywhere_node_iff.mpr ⟨atLeaf, fun _ member => absurd member List.not_mem_nil⟩

/-- A path leads through the nodes that its beginnings lead to. -/
theorem at?_append (root : Derivation) (path rest : Path) :
    root.at? (path ++ rest) = (root.at? path).bind fun node => node.at? rest := by
  induction path generalizing root with
  | nil =>
      cases root with
      | missing => rw [List.nil_append, at?_missing, at?_missing]; rfl
      | node conclusion step proved premises => rfl
  | cons index path inductionHypothesis =>
      cases root with
      | missing => rw [at?_missing, at?_missing]; rfl
      | node conclusion step proved premises =>
          cases index with
          | negSucc index => rfl
          | ofNat index =>
              rw [List.cons_append, Int.ofNat_eq_natCast, at?_node_cons, at?_node_cons]
              cases premises[index]? with
              | none => rfl
              | some premise => exact inductionHypothesis premise

theorem Everywhere.below {property : Derivation -> Prop} {root node : Derivation} {path : Path}
    (everywhere : Everywhere property root) (found : root.at? path = some node) :
    Everywhere property node := by
  intro rest below foundBelow
  apply everywhere (path ++ rest) below
  rw [at?_append, found]
  exact foundBelow

/-! ## Replacing -/

theorem eq_of_replace?_nil {root replacement result : Derivation}
    (replaced : root.replace? [] replacement = some result) : replacement = result := by
  cases replacement with
  | missing => cases replaced
  | node conclusion step proved premises => exact Option.some.inj replaced

theorem eq_of_at?_nil {root node : Derivation} (found : root.at? [] = some node) :
    root = node := by
  cases root with
  | missing => cases found
  | node conclusion step proved premises => exact Option.some.inj found

/-- Replacing below a node keeps everything of the node but one premise. -/
theorem replace?_cons_eq_some_iff {root replacement result : Derivation} {index : Int}
    {path : Path} :
    root.replace? (index :: path) replacement = some result ↔
      ∃ conclusion step proved premises position premise changed,
        root = .node conclusion step proved premises ∧ index = (position : Nat) ∧
          premises[position]? = some premise ∧ premise.replace? path replacement = some changed ∧
            result = .node conclusion step proved (premises.set position changed) := by
  constructor
  · intro replaced
    cases root with
    | missing => cases index <;> cases replaced
    | node conclusion step proved premises =>
        cases index with
        | negSucc position => cases replaced
        | ofNat position =>
            simp only [replace?, premise?, Derivation.premises] at replaced
            split at replaced
            · cases replaced
            · rename_i premise atPosition
              split at replaced
              · cases replaced
              · rename_i changed below
                exact ⟨conclusion, step, proved, premises, position, premise, changed, rfl, rfl,
                  atPosition, below, (Option.some.inj replaced).symm⟩
  · rintro ⟨conclusion, step, proved, premises, position, premise, changed, rfl, rfl, atPosition,
      below, rfl⟩
    simp only [replace?, premise?, Derivation.premises, atPosition, below]
    rfl

/-- Only the paths through the changed premise lead to other nodes than before. -/
theorem at?_set_cons (conclusion : Triple) (step : Step) (proved : Bool)
    {premises : List Derivation} {position : Nat} {premise : Derivation} (changed : Derivation)
    (atPosition : premises[position]? = some premise) (index : Int) (rest : Path) :
    (Derivation.node conclusion step proved (premises.set position changed)).at?
        (index :: rest) =
      if index = (position : Int) then changed.at? rest
      else (Derivation.node conclusion step proved premises).at? (index :: rest) := by
  cases index with
  | negSucc index => rfl
  | ofNat index =>
      rw [Int.ofNat_eq_natCast, at?_node_cons, at?_node_cons]
      by_cases same : index = position
      · subst same
        have bound := (List.getElem?_eq_some_iff.mp atPosition).1
        rw [if_pos rfl, List.getElem?_set_self bound]
        rfl
      · rw [if_neg (by omega), List.getElem?_set_ne (Ne.symm same)]

theorem ne_missing_of_replace? {root replacement result : Derivation} {path : Path}
    (replaced : root.replace? path replacement = some result) : result ≠ .missing := by
  cases path with
  | nil =>
      intro isMissing
      rw [← eq_of_replace?_nil replaced] at isMissing
      subst isMissing
      cases replaced
  | cons index path =>
      rcases replace?_cons_eq_some_iff.mp replaced with ⟨_, _, _, _, _, _, _, _, _, _, _, rfl⟩
      exact Derivation.noConfusion

/-- Replacing a node by itself changes nothing. -/
theorem replace?_self {root target : Derivation} {path : Path}
    (found : root.at? path = some target) : root.replace? path target = some root := by
  induction path generalizing root with
  | nil =>
      cases eq_of_at?_nil found
      exact found
  | cons index path inductionHypothesis =>
      rcases exists_premise_of_at?_cons found with
        ⟨conclusion, step, proved, premises, position, premise, rfl, rfl, atPosition, foundBelow⟩
      refine replace?_cons_eq_some_iff.mpr ⟨conclusion, step, proved, premises, position,
        premise, premise, rfl, rfl, atPosition, inductionHypothesis foundBelow, ?_⟩
      rcases List.getElem?_eq_some_iff.mp atPosition with ⟨bound, rfl⟩
      rw [List.set_getElem_self]

/-- A node cannot be left out by replacing it. -/
theorem replace?_missing (root : Derivation) (path : Path) :
    root.replace? path .missing = none := by
  induction path generalizing root with
  | nil => rfl
  | cons index path inductionHypothesis =>
      cases replaced : root.replace? (index :: path) .missing with
      | none => rfl
      | some result =>
          rcases replace?_cons_eq_some_iff.mp replaced with
            ⟨_, _, _, _, _, premise, _, _, _, _, below, _⟩
          rw [inductionHypothesis premise] at below
          cases below

/-! ## Walks -/

theorem mem_walkPremises_iff {premises : List Derivation} {index : Nat} {path : Path}
    {node : Derivation} :
    (path, node) ∈ walkPremises index premises ↔
      ∃ position premise rest, premises[position]? = some premise ∧
        path = ((index + position : Nat) : Int) :: rest ∧ (rest, node) ∈ premise.walk := by
  induction premises generalizing index with
  | nil => simp [walkPremises]
  | cons first others inductionHypothesis =>
      rw [walkPremises, List.mem_append, List.mem_map, inductionHypothesis]
      constructor
      · rintro (⟨⟨rest, found⟩, member, isEntry⟩ |
          ⟨position, premise, rest, atPosition, isPath, member⟩)
        · cases isEntry
          exact ⟨0, first, rest, rfl, rfl, member⟩
        · refine ⟨position + 1, premise, rest, atPosition, ?_, member⟩
          rw [isPath, Nat.add_right_comm, Nat.add_assoc]
      · rintro ⟨position, premise, rest, atPosition, isPath, member⟩
        cases position with
        | zero =>
            cases atPosition
            exact Or.inl ⟨(rest, node), member, by rw [isPath]; rfl⟩
        | succ position =>
            refine Or.inr ⟨position, premise, rest, atPosition, ?_, member⟩
            rw [isPath, Nat.add_right_comm, Nat.add_assoc]

/-- A walk comes to every node that a path leads to. -/
theorem mem_walk_of_at? {root node : Derivation} {path : Path}
    (found : root.at? path = some node) : (path, node) ∈ root.walk := by
  induction path generalizing root with
  | nil =>
      have isRoot := eq_of_at?_nil found
      subst isRoot
      cases root with
      | missing => cases found
      | node conclusion step proved premises => exact List.mem_cons_self
  | cons index path inductionHypothesis =>
      rcases exists_premise_of_at?_cons found with
        ⟨conclusion, step, proved, premises, position, premise, rfl, rfl, atPosition, foundBelow⟩
      apply List.mem_cons_of_mem
      apply mem_walkPremises_iff.mpr
      refine ⟨position, premise, path, atPosition, ?_, inductionHypothesis foundBelow⟩
      rw [Nat.zero_add]

/-- A walk names every node by the path that leads to it. -/
theorem at?_of_mem_walk {root node : Derivation} {path : Path}
    (member : (path, node) ∈ root.walk) : root.at? path = node.present? := by
  induction root using nodeInduction generalizing path with
  | missing =>
      cases List.mem_singleton.mp member
      rfl
  | node conclusion step proved premises inductionHypothesis =>
      rcases List.mem_cons.mp member with isRoot | below
      · cases isRoot
        rfl
      · rcases mem_walkPremises_iff.mp below with
          ⟨position, premise, rest, atPosition, isPath, memberBelow⟩
        subst isPath
        rw [at?_node_cons, Nat.zero_add, atPosition]
        exact inductionHypothesis premise (List.mem_of_getElem? atPosition) memberBelow

theorem ne_missing_of_at? {root node : Derivation} {path : Path}
    (found : root.at? path = some node) : node ≠ .missing := by
  intro isMissing
  have atPath := at?_of_mem_walk (mem_walk_of_at? found)
  rw [found, isMissing] at atPath
  cases atPath

/-! ## Faces -/

/-- What a node shows of itself: its triple, its step, its flag, and the triples of
its premises, but nothing of how the premises are derived. -/
structure Face where
  conclusion : Triple
  step : Step
  proved : Bool
  premises : List (Option Triple)

/-- The face of a node. -/
def face? : Derivation -> Option Face
  | .missing => none
  | .node conclusion step proved premises =>
      some ⟨conclusion, step, proved, premises.map conclusion?⟩

/-- Only a step of consequence with one premise has side conditions. -/
theorem obligations_ne_nil_iff {node : Derivation} :
    node.obligations ≠ [] ↔
      ∃ conclusion step proved premise premiseStep premiseProved premises,
        node = .node conclusion step proved
          [.node premise premiseStep premiseProved premises] ∧ step.isConsequence = true := by
  constructor
  · intro nonempty
    unfold obligations at nonempty
    split at nonempty
    · rename_i conclusion step proved premise premiseStep premiseProved premises
      split at nonempty
      · rename_i isConsequence
        exact ⟨conclusion, step, proved, premise, premiseStep, premiseProved, premises, rfl,
          isConsequence⟩
      · exact absurd rfl nonempty
    · exact absurd rfl nonempty
  · rintro ⟨conclusion, step, proved, premise, premiseStep, premiseProved, premises, rfl,
      isConsequence⟩
    simp [obligations, isConsequence]

theorem present?_of_obligations {node : Derivation} (raises : node.obligations ≠ []) :
    node.present? = some node := by
  cases node with
  | missing => exact absurd rfl raises
  | node conclusion step proved premises => rfl

theorem obligations_cons_cons (conclusion : Triple) (step : Step) (proved : Bool)
    (first second : Derivation) (rest : List Derivation) :
    (Derivation.node conclusion step proved (first :: second :: rest)).obligations = [] := by
  cases first <;> rfl

/-- The side conditions of a node can be seen in its face, whatever its flag is. -/
theorem obligations_congr {conclusion : Triple} {step : Step} {proved proved' : Bool}
    {premises premises' : List Derivation}
    (same : premises.map conclusion? = premises'.map conclusion?) :
    (Derivation.node conclusion step proved premises).obligations =
      (Derivation.node conclusion step proved' premises').obligations := by
  match premises, premises' with
  | [], [] => rfl
  | [.missing], [.missing] => rfl
  | [.node left _ _ _], [.node right _ _ _] =>
      simp only [List.map_cons, conclusion?, List.map_nil, List.cons.injEq, Option.some.injEq,
        and_true] at same
      subst same
      rfl
  | [.missing], [.node _ _ _ _] => cases same
  | [.node _ _ _ _], [.missing] => cases same
  | _ :: _ :: _, _ :: _ :: _ => rw [obligations_cons_cons, obligations_cons_cons]
  | [], _ :: _ => cases same
  | _ :: _, [] => cases same
  | [_], _ :: _ :: _ => simp at same
  | _ :: _ :: _, [_] => simp at same

theorem conclusion?_of_replace? {root target replacement result : Derivation} {path : Path}
    (found : root.at? path = some target)
    (sameTriple : replacement.conclusion? = target.conclusion?)
    (replaced : root.replace? path replacement = some result) :
    result.conclusion? = root.conclusion? := by
  cases path with
  | nil =>
      cases eq_of_at?_nil found
      cases eq_of_replace?_nil replaced
      exact sameTriple
  | cons index path =>
      rcases replace?_cons_eq_some_iff.mp replaced with
        ⟨conclusion, step, proved, premises, position, premise, changed, rfl, rfl, atPosition,
          below, rfl⟩
      rfl

/-- A path that leads to a node leads to its replacement, and what is below it is what is
below the replacement. -/
theorem at?_append_of_replace? {root replacement result : Derivation} {path : Path}
    (replaced : root.replace? path replacement = some result) (rest : Path) :
    result.at? (path ++ rest) = replacement.at? rest := by
  induction path generalizing root result with
  | nil =>
      cases eq_of_replace?_nil replaced
      rfl
  | cons index path inductionHypothesis =>
      rcases replace?_cons_eq_some_iff.mp replaced with
        ⟨conclusion, step, proved, premises, position, premise, changed, rfl, rfl, atPosition,
          below, rfl⟩
      have bound := (List.getElem?_eq_some_iff.mp atPosition).1
      rw [List.cons_append, at?_node_cons, List.getElem?_set_self bound]
      exact inductionHypothesis below

/-- A node can be replaced wherever a path leads to one. -/
theorem exists_replace? {root target replacement : Derivation} {path : Path}
    (found : root.at? path = some target) (present : replacement ≠ .missing) :
    ∃ result, root.replace? path replacement = some result := by
  induction path generalizing root with
  | nil =>
      cases replacement with
      | missing => exact absurd rfl present
      | node conclusion step proved premises => exact ⟨_, rfl⟩
  | cons index path inductionHypothesis =>
      rcases exists_premise_of_at?_cons found with
        ⟨conclusion, step, proved, premises, position, premise, rfl, rfl, atPosition, foundBelow⟩
      rcases inductionHypothesis foundBelow with ⟨changed, below⟩
      exact ⟨_, replace?_cons_eq_some_iff.mpr ⟨conclusion, step, proved, premises, position,
        premise, changed, rfl, rfl, atPosition, below, rfl⟩⟩

/-- A premise that derives what the old one derived leaves the triples of the premises as
they were. -/
theorem map_conclusion?_set {premises : List Derivation} {position : Nat}
    {premise changed : Derivation} (atPosition : premises[position]? = some premise)
    (sameTriple : changed.conclusion? = premise.conclusion?) :
    (premises.set position changed).map conclusion? = premises.map conclusion? := by
  rcases List.getElem?_eq_some_iff.mp atPosition with ⟨bound, isPremise⟩
  subst isPremise
  rw [List.map_set, sameTriple, ← List.getElem_map conclusion? (h := by simpa using bound),
    List.set_getElem_self]

/-- Two derivations show the same at every path that does not go through a given path, and
are the same there unless the path leads towards the given one. -/
def SameOutside (path : Path) (before after : Derivation) : Prop :=
  forall other, ¬ path <+: other ->
    (after.at? other).bind face? = (before.at? other).bind face? ∧
      (¬ other <+: path -> after.at? other = before.at? other)

/-- Replacing a node by one with the same triple changes nothing outside of it. -/
theorem sameOutside_of_replace? {root target replacement result : Derivation} {path : Path}
    (found : root.at? path = some target)
    (sameTriple : replacement.conclusion? = target.conclusion?)
    (replaced : root.replace? path replacement = some result) : SameOutside path root result := by
  induction path generalizing root result with
  | nil =>
      intro other apart
      exact absurd List.nil_prefix apart
  | cons index path inductionHypothesis =>
      rcases replace?_cons_eq_some_iff.mp replaced with
        ⟨conclusion, step, proved, premises, position, premise, changed, rfl, rfl, atPosition,
          below, rfl⟩
      rw [at?_node_cons, atPosition] at found
      intro other apart
      cases other with
      | nil =>
          have samePremises :=
            map_conclusion?_set atPosition (conclusion?_of_replace? found sameTriple below)
          refine ⟨?_, fun notAbove => absurd List.nil_prefix notAbove⟩
          simp only [at?, present?, Option.bind_some, face?, samePremises]
      | cons otherIndex rest =>
          rw [at?_set_cons _ _ _ _ atPosition]
          split
          · rename_i through
            subst through
            have apartBelow : ¬ path <+: rest := by
              intro through
              exact apart (List.cons_prefix_cons.mpr ⟨rfl, through⟩)
            rcases inductionHypothesis found below rest apartBelow with ⟨sameFace, sameNode⟩
            rw [at?_node_cons, atPosition]
            refine ⟨sameFace, fun notAbove => sameNode fun above => notAbove ?_⟩
            exact List.cons_prefix_cons.mpr ⟨rfl, above⟩
          · exact ⟨rfl, fun _ => rfl⟩

theorem exists_face?_of_at? {root node : Derivation} {path : Path}
    (found : root.at? path = some node) : ∃ face, node.face? = some face := by
  cases node with
  | missing => exact absurd rfl (ne_missing_of_at? found)
  | node conclusion step proved premises => exact ⟨_, rfl⟩

/-- Where the nodes come from after a node has been replaced by one with the same
triple: a node is the replacement or lies below it, or it shows the face that the old
node at its path showed. -/
theorem at?_of_replace? {root target replacement result : Derivation} {path : Path}
    (found : root.at? path = some target)
    (sameTriple : replacement.conclusion? = target.conclusion?)
    (replaced : root.replace? path replacement = some result)
    {other : Path} {node : Derivation} (foundAfter : result.at? other = some node) :
    (∃ old, root.at? other = some old ∧ old.face? = node.face?) ∨
      ∃ rest, other = path ++ rest ∧ replacement.at? rest = some node := by
  by_cases through : path <+: other
  · rcases through with ⟨rest, rfl⟩
    rw [at?_append_of_replace? replaced] at foundAfter
    exact Or.inr ⟨rest, rfl, foundAfter⟩
  · rcases exists_face?_of_at? foundAfter with ⟨face, isFace⟩
    have sameFace := (sameOutside_of_replace? found sameTriple replaced other through).1
    rw [foundAfter, Option.bind_some, isFace] at sameFace
    rcases Option.bind_eq_some_iff.mp sameFace.symm with ⟨old, foundOld, isOldFace⟩
    exact Or.inl ⟨old, foundOld, isOldFace.trans isFace.symm⟩

/-- A property that can be seen in the faces of nodes is kept by replacing a node, if
it holds everywhere in the replacement. -/
theorem Everywhere.of_replace? {property : Derivation -> Prop}
    {root target replacement result : Derivation} {path : Path}
    (everywhere : Everywhere property root)
    (visible : forall old node, old.face? = node.face? -> property old -> property node)
    (found : root.at? path = some target)
    (replaced : root.replace? path replacement = some result)
    (sameTriple : replacement.conclusion? = target.conclusion?)
    (inReplacement : Everywhere property replacement) : Everywhere property result := by
  intro other node foundAfter
  rcases at?_of_replace? found sameTriple replaced foundAfter with
    ⟨old, foundOld, sameFace⟩ | ⟨rest, _isRest, foundRest⟩
  · exact visible old node sameFace (everywhere other old foundOld)
  · exact inReplacement rest node foundRest

end Derivation
end HoareProof
