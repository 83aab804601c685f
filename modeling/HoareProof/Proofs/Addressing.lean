import HoareProof.Proofs.Agreement
import HoareProof.Proofs.Edits

namespace HoareProof

/-!
Paths as addresses.  Looking up a path and replacing what it leads to are two walks along the
same indices, and they agree on which paths lead anywhere.  A replacement is seen at its path and
below it, and nowhere else: a node on the way keeps everything but one of its premises, and what
stands beside the path is not touched.  So a later replacement at the same path is all that
counts, and replacements that stand beside each other may be made in either order.

The listing of all nodes names every path that leads to one, once and in order.
-/

namespace Path

/-- Two paths of which neither goes through the other. -/
def Apart (first second : Path) : Prop :=
  ¬ first <+: second ∧ ¬ second <+: first

theorem Apart.symm {first second : Path} (apart : Apart first second) : Apart second first :=
  ⟨apart.2, apart.1⟩

theorem not_apart_nil (path : Path) : ¬ Apart [] path :=
  fun apart => apart.1 List.nil_prefix

theorem apart_cons_iff {index : Int} {first second : Path} :
    Apart (index :: first) (index :: second) ↔ Apart first second := by
  simp [Apart, List.cons_prefix_cons]

end Path

namespace Derivation

variable {root replacement result : Derivation} {path : Path}

/-! ## Where a node can be replaced -/

/-- Below a node, a replacement goes on at the premise that the first index names, and puts what
it gives in the place of that premise. -/
theorem replace?_node_cons (conclusion : Triple) (step : Step) (proved : Bool)
    (premises : List Derivation) (index : Nat) (path : Path) (replacement : Derivation) :
    (Derivation.node conclusion step proved premises).replace? ((index : Int) :: path)
        replacement =
      premises[index]?.bind fun premise => (premise.replace? path replacement).map fun changed =>
        .node conclusion step proved (premises.set index changed) := by
  have isPremise : (Derivation.node conclusion step proved premises).premise? (index : Int) =
      premises[index]? := rfl
  simp only [replace?, isPremise]
  cases premises[index]? with
  | none => rfl
  | some premise =>
      simp only [Option.bind_some]
      cases premise.replace? path replacement <;> rfl

theorem replace?_missing_cons (index : Int) (path : Path) (replacement : Derivation) :
    Derivation.missing.replace? (index :: path) replacement = none := by
  cases index <;> rfl

theorem replace?_negSucc (root : Derivation) (index : Nat) (path : Path)
    (replacement : Derivation) : root.replace? (Int.negSucc index :: path) replacement = none := by
  cases root <;> rfl

theorem hasMissing_premise {conclusion : Triple} {step : Step} {proved : Bool}
    {premises : List Derivation} {premise : Derivation}
    (whole : (Derivation.node conclusion step proved premises).hasMissing = false)
    (member : premise ∈ premises) : premise.hasMissing = false :=
  anyMissing_eq_false_iff.mp whole premise member

/-- Where nothing is missing, a replacement fails exactly where a look-up does. -/
theorem replace?_eq_none_iff (whole : root.hasMissing = false) (present : replacement ≠ .missing) :
    root.replace? path replacement = none ↔ root.at? path = none := by
  induction path generalizing root with
  | nil =>
      cases root with
      | missing => cases whole
      | node conclusion step proved premises =>
          cases replacement with
          | missing => exact absurd rfl present
          | node => simp [replace?, at?, present?]
  | cons index path inductionHypothesis =>
      cases root with
      | missing => cases whole
      | node conclusion step proved premises =>
          cases index with
          | negSucc index => exact ⟨fun _ => rfl, fun _ => rfl⟩
          | ofNat index =>
              rw [Int.ofNat_eq_natCast, replace?_node_cons, at?_node_cons]
              cases atIndex : premises[index]? with
              | none => simp
              | some premise =>
                  have premiseWhole := hasMissing_premise whole (List.mem_of_getElem? atIndex)
                  rw [Option.bind_some, Option.bind_some, Option.map_eq_none_iff]
                  exact inductionHypothesis premiseWhole

/-! ## What a replacement changes -/

/-- What stands beside a path is not touched by a replacement at the path. -/
theorem at?_of_replace?_apart (replaced : root.replace? path replacement = some result)
    {other : Path} (apart : Path.Apart path other) : result.at? other = root.at? other := by
  induction path generalizing root result other with
  | nil => exact absurd apart (Path.not_apart_nil other)
  | cons index path inductionHypothesis =>
      cases other with
      | nil => exact absurd apart.symm (Path.not_apart_nil _)
      | cons otherIndex other =>
          rcases replace?_cons_eq_some_iff.mp replaced with
            ⟨conclusion, step, proved, premises, position, premise, changed, rfl, rfl, atPosition,
              below, rfl⟩
          rw [at?_set_cons _ _ _ _ atPosition]
          split
          next through =>
            subst through
            rw [at?_node_cons, atPosition]
            exact inductionHypothesis below (Path.apart_cons_iff.mp apart)
          next => rfl

/-- A node on the way to a replacement keeps everything but its premises, and keeps their
number. -/
theorem at?_of_replace?_above (replaced : root.replace? path replacement = some result)
    {above : Path} (leads : above <+: path) (proper : above ≠ path) :
    ∃ conclusion step proved before after,
      root.at? above = some (.node conclusion step proved before) ∧
        result.at? above = some (.node conclusion step proved after) ∧
          after.length = before.length := by
  induction path generalizing root result above with
  | nil => exact absurd (List.prefix_nil.mp leads) proper
  | cons index path inductionHypothesis =>
      rcases replace?_cons_eq_some_iff.mp replaced with
        ⟨conclusion, step, proved, premises, position, premise, changed, rfl, rfl, atPosition,
          below, rfl⟩
      cases above with
      | nil => exact ⟨conclusion, step, proved, premises, _, rfl, rfl, List.length_set⟩
      | cons aboveIndex above =>
          rcases List.cons_prefix_cons.mp leads with ⟨rfl, leadsBelow⟩
          have properBelow : above ≠ path := fun same => proper (by rw [same])
          have bound := (List.getElem?_eq_some_iff.mp atPosition).1
          rw [at?_node_cons, at?_node_cons, atPosition, List.getElem?_set_self bound]
          exact inductionHypothesis below leadsBelow properBelow

/-- A premise that has been put into its place is replaced like any other, and the one that was
there before is forgotten. -/
theorem replace?_set_cons (conclusion : Triple) (step : Step) (proved : Bool)
    {premises : List Derivation} {index : Nat} (bound : index < premises.length)
    (changed : Derivation) (path : Path) (replacement : Derivation) :
    (Derivation.node conclusion step proved (premises.set index changed)).replace?
        ((index : Int) :: path) replacement =
      (changed.replace? path replacement).map fun later =>
        .node conclusion step proved (premises.set index later) := by
  rw [replace?_node_cons, List.getElem?_set_self bound, Option.bind_some]
  simp only [List.set_set]

/-- Of two replacements at the same path the second one counts. -/
theorem replace?_of_replace? (replaced : root.replace? path replacement = some result)
    (second : Derivation) : result.replace? path second = root.replace? path second := by
  induction path generalizing root result with
  | nil => rfl
  | cons index path inductionHypothesis =>
      rcases replace?_cons_eq_some_iff.mp replaced with
        ⟨conclusion, step, proved, premises, position, premise, changed, rfl, rfl, atPosition,
          below, rfl⟩
      have bound := (List.getElem?_eq_some_iff.mp atPosition).1
      rw [replace?_set_cons _ _ _ bound, inductionHypothesis below, replace?_node_cons, atPosition,
        Option.bind_some]

/-! ## Two replacements -/

section

variable (conclusion : Triple) (step : Step) (proved : Bool) {premises : List Derivation}

/-- Replacements below the same premise can be made in either order if they can in the premise. -/
theorem replace?_comm_below {index : Nat} {premise : Derivation}
    (atIndex : premises[index]? = some premise) {first second : Path} {left right : Derivation}
    (commutes : ((premise.replace? first left).bind fun changed => changed.replace? second right) =
      (premise.replace? second right).bind fun changed => changed.replace? first left) :
    (((Derivation.node conclusion step proved premises).replace? ((index : Int) :: first)
        left).bind fun changed => changed.replace? ((index : Int) :: second) right) =
      ((Derivation.node conclusion step proved premises).replace? ((index : Int) :: second)
        right).bind fun changed => changed.replace? ((index : Int) :: first) left := by
  have bound := (List.getElem?_eq_some_iff.mp atIndex).1
  have inPlace : forall (attempt : Option Derivation) (path : Path) (replacement : Derivation),
      (attempt.bind fun changed => (changed.replace? path replacement).map fun later =>
        Derivation.node conclusion step proved (premises.set index later)) =
      (attempt.bind fun changed => changed.replace? path replacement).map fun later =>
        Derivation.node conclusion step proved (premises.set index later) := by
    intro attempt path replacement
    cases attempt <;> rfl
  simp only [replace?_node_cons, atIndex, Option.bind_some, Option.bind_map, Function.comp_def,
    replace?_set_cons conclusion step proved bound]
  rw [inPlace, inPlace, commutes]

/-- Replacements below different premises can be made in either order. -/
theorem replace?_comm_beside {index other : Nat} (different : index ≠ other) (first second : Path)
    (left right : Derivation) :
    (((Derivation.node conclusion step proved premises).replace? ((index : Int) :: first)
        left).bind fun changed => changed.replace? ((other : Int) :: second) right) =
      ((Derivation.node conclusion step proved premises).replace? ((other : Int) :: second)
        right).bind fun changed => changed.replace? ((index : Int) :: first) left := by
  rw [replace?_node_cons, replace?_node_cons]
  cases atIndex : premises[index]? with
  | none =>
      cases atOther : premises[other]? with
      | none => rfl
      | some otherPremise =>
          cases isRight : otherPremise.replace? second right <;>
            simp [replace?_node_cons, List.getElem?_set_ne different.symm, atIndex, isRight]
  | some premise =>
      cases atOther : premises[other]? with
      | none =>
          cases isLeft : premise.replace? first left <;>
            simp [replace?_node_cons, List.getElem?_set_ne different, atOther, isLeft]
      | some otherPremise =>
          cases isLeft : premise.replace? first left <;>
            cases isRight : otherPremise.replace? second right <;>
              simp [replace?_node_cons, List.getElem?_set_ne different,
                List.getElem?_set_ne different.symm, atIndex, atOther, isLeft, isRight,
                List.set_comm _ _ different]

end

/-- Replacements that stand beside each other can be made in either order. -/
theorem replace?_comm {first second : Path} (apart : Path.Apart first second) (root : Derivation)
    (left right : Derivation) :
    ((root.replace? first left).bind fun changed => changed.replace? second right) =
      (root.replace? second right).bind fun changed => changed.replace? first left := by
  induction first generalizing root second with
  | nil => exact absurd apart (Path.not_apart_nil second)
  | cons index first inductionHypothesis =>
      cases second with
      | nil => exact absurd apart.symm (Path.not_apart_nil _)
      | cons other second =>
          cases root with
          | missing => simp [replace?_missing_cons]
          | node conclusion step proved premises =>
              cases index with
              | negSucc index => simp [replace?_negSucc]
              | ofNat index =>
                  cases other with
                  | negSucc other => simp [replace?_negSucc]
                  | ofNat other =>
                      by_cases same : index = other
                      · subst same
                        have apartBelow := Path.apart_cons_iff.mp apart
                        cases atIndex : premises[index]? with
                        | none => simp [replace?_node_cons, atIndex]
                        | some premise =>
                            exact replace?_comm_below conclusion step proved atIndex
                              (inductionHypothesis apartBelow premise)
                      · exact replace?_comm_beside conclusion step proved same first second left
                          right

/-! ## Listing all nodes -/

theorem ne_missing_of_mem_walk (whole : root.hasMissing = false) {node : Derivation}
    (member : (path, node) ∈ root.walk) : node ≠ .missing := by
  induction root using nodeInduction generalizing path with
  | missing => cases whole
  | node conclusion step proved premises inductionHypothesis =>
      rcases List.mem_cons.mp member with isRoot | below
      · cases isRoot
        exact Derivation.noConfusion
      · rcases mem_walkPremises_iff.mp below with
          ⟨position, premise, rest, atPosition, _, memberBelow⟩
        have isPremise := List.mem_of_getElem? atPosition
        exact inductionHypothesis premise isPremise (hasMissing_premise whole isPremise) memberBelow

/-- Where nothing is missing, the listing is that of all paths that lead to a node. -/
theorem mem_walk_iff (whole : root.hasMissing = false) {node : Derivation} :
    (path, node) ∈ root.walk ↔ root.at? path = some node := by
  refine ⟨fun member => ?_, mem_walk_of_at?⟩
  have present := ne_missing_of_mem_walk whole member
  rw [at?_of_mem_walk member]
  cases node with
  | missing => exact absurd rfl present
  | node conclusion step proved premises => rfl

theorem nodup_walk (root : Derivation) : (root.walk.map Prod.fst).Nodup :=
  List.pairwise_map.mpr (root.pairwise_walk.imp Path.Before.ne)

/-! ## The laws of paths -/

/-- What a replacement at a path gives, seen from all other paths, and what a second one at the
same path makes of it. -/
structure ReplacedAt (root : Derivation) (path : Path) (replacement result : Derivation) :
    Prop where
  below : forall rest, result.at? (path ++ rest) = replacement.at? rest
  beside : forall other, Path.Apart path other -> result.at? other = root.at? other
  above : forall above, above <+: path -> above ≠ path ->
    ∃ conclusion step proved before after,
      root.at? above = some (.node conclusion step proved before) ∧
        result.at? above = some (.node conclusion step proved after) ∧
          after.length = before.length
  again : forall second, result.replace? path second = root.replace? path second

theorem replacedAt_of_replace? (replaced : root.replace? path replacement = some result) :
    ReplacedAt root path replacement result where
  below := at?_append_of_replace? replaced
  beside _ apart := at?_of_replace?_apart replaced apart
  above _ leads proper := at?_of_replace?_above replaced leads proper
  again := replace?_of_replace? replaced

/-- The laws of paths in a derivation of which nothing is missing: a node can be replaced exactly
where one is found; a replacement is seen at its path and below it only, and is forgotten by the
next one there; replacements beside each other commute; a node replaced by itself changes nothing;
and the listing of all nodes is that of all paths that lead to one, each once and in
lexicographic order. -/
theorem paths_are_lawful (root : Derivation) (whole : root.hasMissing = false) :
    (forall path replacement, replacement ≠ .missing ->
      (root.replace? path replacement = none ↔ root.at? path = none)) ∧
    (forall path replacement result, root.replace? path replacement = some result ->
      ReplacedAt root path replacement result) ∧
    (forall first second, Path.Apart first second -> forall left right,
      ((root.replace? first left).bind fun changed => changed.replace? second right) =
        (root.replace? second right).bind fun changed => changed.replace? first left) ∧
    (forall path target, root.at? path = some target -> root.replace? path target = some root) ∧
    (forall path node, (path, node) ∈ root.walk ↔ root.at? path = some node) ∧
    (root.walk.map Prod.fst).Nodup ∧ (root.walk.map Prod.fst).Pairwise Path.Before := by
  refine ⟨?_, ?_, ?_, ?_, ?_, root.nodup_walk, List.pairwise_map.mpr root.pairwise_walk⟩
  · exact fun path replacement present => replace?_eq_none_iff whole present
  · exact fun path replacement result replaced => replacedAt_of_replace? replaced
  · exact fun first second apart left right => replace?_comm apart root left right
  · exact fun path target found => replace?_self found
  · exact fun path node => mem_walk_iff whole

/-- In the patchwork, a negative index leads nowhere, the node below the second premise can be
replaced without a change to the first, and nodes below the two premises can be replaced in either
order. -/
theorem patchwork_paths_are_lawful :
    patchwork.hasMissing = false ∧ Path.Apart [1, 0] [0] ∧
      patchwork.replace? [1, -1] (leaf ⟨.hole, .skip, .hole⟩) = none ∧
      (∃ result, patchwork.replace? [1, 0] (leaf ⟨.hole, .skip, .hole⟩) = some result ∧
        ReplacedAt patchwork [1, 0] (leaf ⟨.hole, .skip, .hole⟩) result ∧
          result.at? [0] = patchwork.at? [0]) ∧
      (forall left right,
        ((patchwork.replace? [1, 0] left).bind fun changed => changed.replace? [0] right) =
          (patchwork.replace? [0] right).bind fun changed => changed.replace? [1, 0] left) ∧
      (patchwork.walk.map Prod.fst).Nodup ∧ (patchwork.walk.map Prod.fst).Pairwise Path.Before := by
  have whole : patchwork.hasMissing = false := rfl
  have apart : Path.Apart [1, 0] [0] := by simp [Path.Apart]
  have present : leaf ⟨.hole, .skip, .hole⟩ ≠ .missing := Derivation.noConfusion
  rcases paths_are_lawful patchwork whole with ⟨fails, replaces, commutes, _, _, listed⟩
  have replaceable : patchwork.replace? [1, 0] (leaf ⟨.hole, .skip, .hole⟩) ≠ none := by
    intro failed
    cases (fails [1, 0] _ present).mp failed
  rcases Option.ne_none_iff_exists'.mp replaceable with ⟨result, replaced⟩
  have laws := replaces _ _ _ replaced
  exact ⟨whole, apart, (fails [1, -1] _ present).mpr rfl,
    ⟨result, replaced, laws, laws.beside _ apart⟩, commutes _ _ apart, listed⟩

end Derivation
end HoareProof
