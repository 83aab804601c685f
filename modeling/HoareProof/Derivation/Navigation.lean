import HoareProof.Derivation.Basic

namespace HoareProof
namespace Derivation

/-!
Nodes by their paths.  A path resolves when every index on it names a premise
and the node it ends at is not missing.  Replacing rebuilds the nodes on the
way from the root and shares everything else.
-/

def premise? (derivation : Derivation) : Int -> Option Derivation
  | .ofNat index => derivation.premises[index]?
  | .negSucc _ => none

/-- The derivation itself, unless it is missing. -/
def present? : Derivation -> Option Derivation
  | .missing => none
  | .node conclusion step proved premises => some (.node conclusion step proved premises)

def at? (root : Derivation) : Path -> Option Derivation
  | [] => root.present?
  | index :: path =>
    match root.premise? index with
    | none => none
    | some premise => premise.at? path

def withPremises (premises : List Derivation) : Derivation -> Derivation
  | .missing => .missing
  | .node conclusion step proved _ => .node conclusion step proved premises

/-- The root with the derivation at a path replaced, if the path resolves. -/
def replace? (root : Derivation) (path : Path) (replacement : Derivation) : Option Derivation :=
  match path with
  | [] => replacement.present?
  | index :: path =>
    match root.premise? index with
    | none => none
    | some premise =>
      match premise.replace? path replacement with
      | none => none
      | some premise => some (root.withPremises (root.premises.set index.toNat premise))

/-- Whether a path goes on below a missing node. -/
def passesMissing (root : Derivation) : Path -> Bool
  | [] => false
  | index :: path =>
    match root with
    | .missing => decide (0 ≤ index)
    | .node _ _ _ _ =>
      match root.premise? index with
      | none => false
      | some premise => premise.passesMissing path

mutual

/-- All nodes with their paths, each before its premises. -/
def walk : Derivation -> List (Path × Derivation)
  | .missing => [([], .missing)]
  | .node conclusion step proved premises =>
    ([], .node conclusion step proved premises) :: walkPremises 0 premises

/-- All nodes of consecutive premises, the first of which has an index. -/
def walkPremises (index : Nat) : List Derivation -> List (Path × Derivation)
  | [] => []
  | premise :: rest =>
    premise.walk.map (fun entry => ((index : Int) :: entry.1, entry.2)) ++
      walkPremises (index + 1) rest

end

mutual

def hasMissing : Derivation -> Bool
  | .missing => true
  | .node _ _ _ premises => anyMissing premises

def anyMissing : List Derivation -> Bool
  | [] => false
  | derivation :: rest => derivation.hasMissing || anyMissing rest

end

end Derivation
end HoareProof
