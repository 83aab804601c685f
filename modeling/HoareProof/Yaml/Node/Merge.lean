import HoareProof.Yaml.Fault
import HoareProof.Yaml.Node

namespace HoareProof
namespace Yaml
namespace Graph

/-!
Merge keys.  Under such a key a map takes over the entries of another map, or of
several; they come before its own, so that its own ones win.  The maps taken
over are merged first.  A merge key is gone before its value is looked at, so
maps that refer to each other come to an end.
-/

/-- The maps whose entries a merge key takes over. -/
def mergeSources (graph : Graph) (number : Nat) : Option (List Nat) :=
  let isMap (source : Nat) : Bool :=
    match graph.content source with
    | .map _ => true
    | _ => false
  match graph.content number with
  | .map _ => some [number]
  | .list items => if items.all isMap then some items else none
  | .scalar _ => none

/-- Makes the keys that stand for a default value texts. -/
def withPlainKeys (graph : Graph) (entries : List (Nat × Nat)) : Graph :=
  entries.foldl (fun graph entry =>
    if graph.tag entry.1 == .standard then graph.setTag entry.1 .text else graph) graph

/-- Carries out the merge keys of a map after some entries have been taken over.
Of several sources the entries of the last one come first.  Every step uses up a
merge key, so there are no more steps than entries. -/
def mergeFrom : Nat -> Nat -> List (Nat × Nat) -> Graph -> Except Fault Graph
  | 0, _, _, _ => .error .malformed
  | bound + 1, number, taken, graph =>
    let entries := graph.entries number
    let isMerge (entry : Nat × Nat) : Bool := graph.tag entry.1 == .merge
    match entries.find? isMerge with
    | none => .ok ((graph.withPlainKeys entries).setEntries number (taken ++ entries))
    | some entry => do
      let left := entries.takeWhile (fun e => !isMerge e) ++
        (entries.dropWhile fun e => !isMerge e).drop 1
      let shorter := graph.setEntries number left
      match shorter.mergeSources entry.2 with
      | none => .error .malformed
      | some sources =>
        let (merged, found) ← sources.foldlM (fun (graph, found) source => do
          let merged ← mergeFrom bound source [] graph
          return (merged, merged.entries source ++ found)) (shorter, [])
        mergeFrom bound number (taken ++ found) merged

def merge (graph : Graph) (number : Nat) : Except Fault Graph :=
  mergeFrom (graph.entryCount + 1) number [] graph

end Graph
end Yaml
end HoareProof
