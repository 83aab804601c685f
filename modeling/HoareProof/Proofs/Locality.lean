import HoareProof.Proofs.Agreement
import HoareProof.Proofs.Edits
import HoareProof.Proofs.Sessions

namespace HoareProof
namespace Derivation

/-!
What a change of a derivation can do to its failures.  The check of a step reads the
triples of the premises and nothing that is below them.  So when a node is replaced by
one with the same triple, the failures of everything around it stay what they were, and
between them stand the failures of the new node in the place of those of the old one.
-/

/-! ## What a step is checked against -/

/-- A premise of which nothing is known but its triple. -/
def bare : Option Triple -> Derivation
  | none => .missing
  | some triple => leaf triple

/-- A step is checked against the triples of its premises. -/
theorem localFailure_bare (strictness : Strictness) (conclusion : Triple) (step : Step)
    (proved : Bool) (premises : List Derivation) :
    localFailure strictness (.node conclusion step proved premises) =
      localFailure strictness
        (.node conclusion step proved ((premises.map conclusion?).map bare)) := by
  cases step with
  | pending => rfl
  | unrecognised name => rfl
  | applied rule =>
      match premises with
      | [] => rfl
      | [.missing] => cases rule <;> rfl
      | [.node _ _ _ _] => cases rule <;> rfl
      | [.missing, .missing] => cases rule <;> rfl
      | [.missing, .node _ _ _ _] => cases rule <;> rfl
      | [.node _ _ _ _, .missing] => cases rule <;> rfl
      | [.node _ _ _ _, .node _ _ _ _] => cases rule <;> rfl
      | first :: second :: third :: rest =>
          -- No rule has three premises, so only their number is reported.
          cases first <;> cases second <;> cases rule <;>
            simp [localFailure, skipFailure, assignFailure, sequenceFailure, conditionalFailure,
              loopFailure, consequenceFailure, wrongCount, conclusion?, bare, leaf]

theorem localFailure_congr {strictness : Strictness} {conclusion : Triple} {step : Step}
    {proved : Bool} {premises premises' : List Derivation}
    (same : premises.map conclusion? = premises'.map conclusion?) :
    localFailure strictness (.node conclusion step proved premises) =
      localFailure strictness (.node conclusion step proved premises') := by
  rw [localFailure_bare, same, ← localFailure_bare]

/-! ## Failures by position -/

/-- A failure as it is listed from further up: its path begins with the path to the node
below which it was found. -/
def Failure.under (path : Path) (failure : Failure) : Failure :=
  { failure with path := path ++ failure.path }

theorem failureAt?_under (strictness : Strictness) (path rest : Path) (node : Derivation) :
    failureAt? strictness (path ++ rest, node) =
      (failureAt? strictness (rest, node)).map (Failure.under path) := by
  cases node with
  | missing => rfl
  | node conclusion step proved premises =>
      rw [failureAt?, failureAt?, Option.map_map]
      rfl

/-- The failures of consecutive premises, the first of which has an index. -/
def failuresFrom (strictness : Strictness) (index : Nat) (premises : List Derivation) :
    List Failure :=
  (walkPremises index premises).filterMap (failureAt? strictness)

section

variable {strictness : Strictness}

theorem failuresFrom_cons (index : Nat) (premise : Derivation) (rest : List Derivation) :
    failuresFrom strictness index (premise :: rest) =
      (premise.failures strictness).map (Failure.under [(index : Int)]) ++
        failuresFrom strictness (index + 1) rest := by
  have below : (fun entry : Path × Derivation =>
      failureAt? strictness ((index : Int) :: entry.1, entry.2)) =
        fun entry => (failureAt? strictness entry).map (Failure.under [(index : Int)]) := by
    funext entry
    exact failureAt?_under strictness [(index : Int)] entry.1 entry.2
  rw [failuresFrom, walkPremises, List.filterMap_append, List.filterMap_map, failures,
    List.map_filterMap, ← below]
  rfl

theorem failuresFrom_append (index : Nat) (front back : List Derivation) :
    failuresFrom strictness index (front ++ back) =
      failuresFrom strictness index front ++
        failuresFrom strictness (index + front.length) back := by
  induction front generalizing index with
  | nil => rfl
  | cons premise rest inductionHypothesis =>
      rw [List.cons_append, failuresFrom_cons, failuresFrom_cons, inductionHypothesis,
        List.append_assoc, List.length_cons, Nat.add_right_comm, Nat.add_assoc index]

/-- The failures of a node are its own, if it has one, and those of its premises. -/
theorem failures_node (conclusion : Triple) (step : Step) (proved : Bool)
    (premises : List Derivation) :
    (Derivation.node conclusion step proved premises).failures strictness =
      (failureAt? strictness ([], .node conclusion step proved premises)).toList ++
        failuresFrom strictness 0 premises := by
  rw [failures, walk, List.filterMap_cons]
  cases failureAt? strictness ([], .node conclusion step proved premises) <;> rfl

theorem head_of_mem_failuresFrom {index : Nat} {premises : List Derivation} {failure : Failure}
    (member : failure ∈ failuresFrom strictness index premises) :
    ∃ position rest, position < premises.length ∧
      failure.path = ((index + position : Nat) : Int) :: rest := by
  rcases List.mem_filterMap.mp member with ⟨⟨path, node⟩, visited, fails⟩
  rcases mem_walkPremises_iff.mp visited with ⟨position, premise, rest, atPosition, rfl, _⟩
  exact ⟨position, rest, (List.getElem?_eq_some_iff.mp atPosition).1, path_of_failureAt? fails⟩

end

/-! ## What is around a node -/

/-- The failures around the node at a path are given: those that are listed before the
failures of the node, and those that are listed after them. -/
structure Around (strictness : Strictness) (path : Path) (before after : List Failure)
    (root target : Derivation) : Prop where
  split : root.failures strictness =
    before ++ (target.failures strictness).map (Failure.under path) ++ after
  apart : forall failure, failure ∈ before ++ after -> ¬ path <+: failure.path

theorem around_self (strictness : Strictness) (root : Derivation) :
    Around strictness [] [] [] root root := by
  have unchanged : Failure.under [] = id := rfl
  refine ⟨?_, nofun⟩
  rw [unchanged, List.map_id, List.nil_append, List.append_nil]

/-- What is around a node below a premise is what is around it in the premise, the step
above, and the other premises. -/
theorem Around.below {strictness : Strictness} {path : Path} {before after : List Failure}
    {premise target : Derivation} (around : Around strictness path before after premise target)
    (conclusion : Triple) (step : Step) (proved : Bool) (front back : List Derivation) :
    Around strictness ((front.length : Int) :: path)
      ((failureAt? strictness
          ([], .node conclusion step proved (front ++ premise :: back))).toList ++
        failuresFrom strictness 0 front ++ before.map (Failure.under [(front.length : Int)]))
      (after.map (Failure.under [(front.length : Int)]) ++
        failuresFrom strictness (front.length + 1) back)
      (.node conclusion step proved (front ++ premise :: back)) target := by
  constructor
  · rw [failures_node, failuresFrom_append, failuresFrom_cons, around.split, Nat.zero_add]
    simp only [List.map_append, List.map_map, List.append_assoc]
    rfl
  · intro failure member through
    rcases through with ⟨rest, isPath⟩
    simp only [List.mem_append, Option.mem_toList, List.mem_map] at member
    rcases member with ((atRoot | inFront) | ⟨inner, isBefore, rfl⟩) |
      (⟨inner, isAfter, rfl⟩ | inBack)
    · rw [path_of_failureAt? atRoot] at isPath
      cases isPath
    · rcases head_of_mem_failuresFrom inFront with ⟨position, other, bound, isHead⟩
      rw [isHead, List.cons_append, List.cons.injEq] at isPath
      omega
    · apply around.apart inner (List.mem_append_left _ isBefore)
      exact ⟨rest, (List.cons.inj isPath).2⟩
    · apply around.apart inner (List.mem_append_right _ isAfter)
      exact ⟨rest, (List.cons.inj isPath).2⟩
    · rcases head_of_mem_failuresFrom inBack with ⟨position, other, bound, isHead⟩
      rw [isHead, List.cons_append, List.cons.injEq] at isPath
      omega

/-- Replacing below a node puts a new premise between the premises in front of the old one
and those behind it. -/
theorem replace?_cons_cases {root target replacement result : Derivation} {index : Int}
    {path : Path} (found : root.at? (index :: path) = some target)
    (replaced : root.replace? (index :: path) replacement = some result) :
    ∃ conclusion step proved front premise changed back,
      root = .node conclusion step proved (front ++ premise :: back) ∧
        index = (front.length : Int) ∧ premise.at? path = some target ∧
          premise.replace? path replacement = some changed ∧
            result = .node conclusion step proved (front ++ changed :: back) := by
  rcases replace?_cons_eq_some_iff.mp replaced with
    ⟨conclusion, step, proved, premises, position, premise, changed, rfl, rfl, atPosition, below,
      rfl⟩
  rw [at?_node_cons, atPosition] at found
  rcases List.getElem?_eq_some_iff.mp atPosition with ⟨bound, rfl⟩
  have parts : ∃ front back, premises = front ++ premises[position] :: back ∧
      front.length = position ∧ premises.set position changed = front ++ changed :: back :=
    List.exists_of_set bound
  rcases parts with ⟨front, back, isSplit, rfl, isSet⟩
  refine ⟨conclusion, step, proved, front, _, changed, back, ?_, rfl, found, below, ?_⟩
  · rw [← isSplit]
  · rw [isSet]

section

variable {root target replacement result : Derivation} {path : Path}

/-- What is around a node is also around what is put in its place, if the triple stays the
same. -/
theorem exists_around_of_replace? (strictness : Strictness) (found : root.at? path = some target)
    (sameTriple : replacement.conclusion? = target.conclusion?)
    (replaced : root.replace? path replacement = some result) :
    ∃ before after, Around strictness path before after root target ∧
      Around strictness path before after result replacement := by
  induction path generalizing root result with
  | nil =>
      cases eq_of_at?_nil found
      cases eq_of_replace?_nil replaced
      exact ⟨[], [], around_self strictness _, around_self strictness _⟩
  | cons index path inductionHypothesis =>
      rcases replace?_cons_cases found replaced with
        ⟨conclusion, step, proved, front, premise, changed, back, rfl, rfl, foundBelow, below, rfl⟩
      rcases inductionHypothesis foundBelow below with ⟨before, after, around, aroundNew⟩
      have sameTriples : (front ++ premise :: back).map conclusion? =
          (front ++ changed :: back).map conclusion? := by
        simp [conclusion?_of_replace? foundBelow sameTriple below]
      -- The step above sees the same triples, so it fails or not as it did.
      have sameStep : failureAt? strictness
          ([], .node conclusion step proved (front ++ premise :: back)) =
            failureAt? strictness
              ([], .node conclusion step proved (front ++ changed :: back)) := by
        rw [failureAt?, failureAt?, localFailure_congr sameTriples]
      refine ⟨_, _, around.below conclusion step proved front back, ?_⟩
      rw [sameStep]
      exact aroundNew.below conclusion step proved front back

theorem anyMissing_append (front back : List Derivation) :
    anyMissing (front ++ back) = (anyMissing front || anyMissing back) := by
  induction front with
  | nil => rfl
  | cons premise rest inductionHypothesis =>
      rw [List.cons_append, anyMissing, anyMissing, inductionHypothesis, Bool.or_assoc]

/-- In a derivation in which nothing is missing, a replacement brings all that is missing
afterwards. -/
theorem hasMissing_of_replace? (whole : root.hasMissing = false)
    (found : root.at? path = some target)
    (replaced : root.replace? path replacement = some result) :
    result.hasMissing = replacement.hasMissing := by
  induction path generalizing root result with
  | nil => rw [eq_of_replace?_nil replaced]
  | cons index path inductionHypothesis =>
      rcases replace?_cons_cases found replaced with
        ⟨conclusion, step, proved, front, premise, changed, back, rfl, rfl, foundBelow, below, rfl⟩
      simp only [hasMissing, anyMissing_append, anyMissing, Bool.or_eq_false_iff] at whole
      rcases whole with ⟨frontWhole, premiseWhole, backWhole⟩
      rw [hasMissing, anyMissing_append, anyMissing, frontWhole, backWhole,
        inductionHypothesis premiseWhole foundBelow below, Bool.false_or, Bool.or_false]

end

/-! ## Failures outside of a node -/

/-- The failures at the paths that do not go through a given one. -/
def failuresOutside (strictness : Strictness) (path : Path) (root : Derivation) : List Failure :=
  (root.failures strictness).filter fun failure => decide (¬ path <+: failure.path)

theorem Around.failuresOutside_eq {strictness : Strictness} {path : Path}
    {before after : List Failure} {root target : Derivation}
    (around : Around strictness path before after root target) :
    root.failuresOutside strictness path = before ++ after := by
  have none : ((target.failures strictness).map (Failure.under path)).filter
      (fun failure => decide (¬ path <+: failure.path)) = [] := by
    apply List.filter_eq_nil_iff.mpr
    intro failure member
    rcases List.mem_map.mp member with ⟨inner, _, rfl⟩
    simp [Failure.under]
  have all : (before ++ after).filter (fun failure => decide (¬ path <+: failure.path)) =
      before ++ after := by
    apply List.filter_eq_self.mpr
    intro failure member
    exact decide_eq_true (around.apart failure member)
  rw [List.filter_append] at all
  rw [failuresOutside, around.split, List.filter_append, List.filter_append, none,
    List.append_nil, all]

section

variable {root target replacement result : Derivation} {path : Path}

theorem failuresOutside_of_replace? (strictness : Strictness) (found : root.at? path = some target)
    (sameTriple : replacement.conclusion? = target.conclusion?)
    (replaced : root.replace? path replacement = some result) :
    result.failuresOutside strictness path = root.failuresOutside strictness path := by
  rcases exists_around_of_replace? strictness found sameTriple replaced with
    ⟨before, after, around, aroundNew⟩
  rw [around.failuresOutside_eq, aroundNew.failuresOutside_eq]

theorem failuresOutside_of_refine? (strictness : Strictness) {rule : Rule} {given : RuleInput}
    (refined : root.refine? path rule given = some result) :
    result.failuresOutside strictness path = root.failuresOutside strictness path := by
  rcases refine?_eq_some_iff.mp refined with
    ⟨conclusion, step, proved, below, triples, found, _, replaced⟩
  exact failuresOutside_of_replace? strictness found (by rfl) replaced

theorem conclusion?_markProved (node : Derivation) :
    node.markProved.conclusion? = node.conclusion? := by
  cases node <;> rfl

theorem failuresOutside_of_record? (strictness : Strictness) {session changed : Session}
    {question : Question} {status : Status} (isRoot : session.root = some root)
    (recorded : session.record? question status = some changed) :
    ∃ marked, changed.root = some marked ∧
      marked.failuresOutside strictness question.path =
        root.failuresOutside strictness question.path := by
  rcases Session.record?_eq_some_iff.mp recorded with
    ⟨_, old, current, marked, isOld, found, _, replaced, swapped⟩
  cases isRoot.symm.trans isOld
  subst swapped
  exact ⟨marked, rfl, failuresOutside_of_replace? strictness found
    (conclusion?_markProved current) replaced⟩

theorem ne_missing_of_conclusion?_eq {node other : Derivation}
    (same : node.conclusion? = other.conclusion?) (present : other ≠ .missing) :
    node ≠ .missing := by
  rintro rfl
  cases other with
  | missing => exact present rfl
  | node conclusion step proved premises => cases same

/-- Putting one valid derivation of a triple for another leaves the verdict on the whole as
it was. -/
theorem isValid_of_replace? {strictness : Strictness} (present : root ≠ .missing)
    (found : root.at? path = some target)
    (sameTriple : replacement.conclusion? = target.conclusion?)
    (replaced : root.replace? path replacement = some result)
    (targetValid : target.isValid strictness = true)
    (replacementValid : replacement.isValid strictness = true) :
    result.isValid strictness = root.isValid strictness := by
  have targetPresent := ne_missing_of_at? found
  have replacementPresent := ne_missing_of_conclusion?_eq sameTriple targetPresent
  have resultPresent :=
    ne_missing_of_conclusion?_eq (conclusion?_of_replace? found sameTriple replaced) present
  rcases exists_around_of_replace? strictness found sameTriple replaced with
    ⟨before, after, around, aroundNew⟩
  rw [Bool.eq_iff_iff, isValid_iff_failures_eq_nil resultPresent,
    isValid_iff_failures_eq_nil present, around.split, aroundNew.split,
    (isValid_iff_failures_eq_nil targetPresent).mp targetValid,
    (isValid_iff_failures_eq_nil replacementPresent).mp replacementValid]

end

/-- Changes that keep a triple are local.  When nothing is missing in a derivation, the
node at a path can be replaced by any other with the same triple, and the failures are
then those of the old derivation at paths that do not go through this one, with those of
the replacement between them, listed under the path; all are in the order of their paths.
So neither refining a node nor recording an answer about it brings or removes a failure
anywhere else, and one valid derivation of the triple is as good as another. -/
theorem failures_local (root target replacement : Derivation) (path : Path)
    (whole : root.hasMissing = false) (found : root.at? path = some target)
    (sameTriple : replacement.conclusion? = target.conclusion?) :
    (∃ result, root.replace? path replacement = some result ∧
      (forall strictness, ∃ before after,
        root.failuresOutside strictness path = before ++ after ∧
          root.failures? strictness =
            some (before ++ (target.failures strictness).map (Failure.under path) ++ after) ∧
          (result.failures? strictness = (replacement.failures? strictness).map fun inner =>
            before ++ inner.map (Failure.under path) ++ after) ∧
          (result.failures strictness).Pairwise fun failure later =>
            Path.Before failure.path later.path) ∧
      forall strictness, target.isValid strictness = true ->
        replacement.isValid strictness = true ->
          result.isValid strictness = root.isValid strictness) ∧
    (forall strictness rule given refined, root.refine? path rule given = some refined ->
      refined.failuresOutside strictness path = root.failuresOutside strictness path) ∧
    forall (strictness : Strictness) (session changed : Session) (question : Question)
        (status : Status), session.root = some root -> question.path = path ->
      session.record? question status = some changed ->
        ∃ marked, changed.root = some marked ∧
          marked.failuresOutside strictness path = root.failuresOutside strictness path := by
  refine ⟨?_, ?_, ?_⟩
  · have present := ne_missing_of_conclusion?_eq sameTriple (ne_missing_of_at? found)
    rcases exists_replace? found present with ⟨result, replaced⟩
    refine ⟨result, replaced, ?_, ?_⟩
    · intro strictness
      rcases exists_around_of_replace? strictness found sameTriple replaced with
        ⟨before, after, around, aroundNew⟩
      refine ⟨before, after, around.failuresOutside_eq, ?_, ?_, pairwise_failures strictness result⟩
      · rw [failures?, whole, around.split]
        rfl
      · rw [failures?, failures?, hasMissing_of_replace? whole found replaced, aroundNew.split]
        cases replacement.hasMissing <;> rfl
    · intro strictness targetValid replacementValid
      exact isValid_of_replace? (ne_missing_of_hasMissing whole) found sameTriple replaced
        targetValid replacementValid
  · intro strictness rule given refined isRefined
    exact failuresOutside_of_refine? strictness isRefined
  · rintro strictness session changed question status isRoot rfl recorded
    exact failuresOutside_of_record? strictness isRoot recorded

/-! ## A replacement in front of failures -/

/-- A derivation for the first premise of the sequence that goes a step further than
needed, and is not finished. -/
def detour : Derivation :=
  .node ⟨.var "p", .skip, .var "p"⟩ (.applied .consequence) false
    [leaf ⟨.var "p", .skip, .var "p"⟩]

theorem patchwork_failures_local :
    (patchwork.failuresOutside .standard [0]).map (·.path) = [[1], [1, 0]] ∧
      (detour.failures .standard).map (·.path) = [[], [0]] ∧
      ∃ result, patchwork.replace? [0] detour = some result ∧
        ∃ before after, patchwork.failuresOutside .standard [0] = before ++ after ∧
          result.failures? .standard =
            some (before ++ (detour.failures .standard).map (Failure.under [0]) ++ after) := by
  refine ⟨by decide +kernel, by decide +kernel, ?_⟩
  rcases (failures_local patchwork _ detour [0] rfl rfl rfl).1 with ⟨result, replaced, listed, _⟩
  rcases listed .standard with ⟨before, after, outside, _, isListed, _⟩
  exact ⟨result, replaced, before, after, outside, isListed⟩

end Derivation
end HoareProof
