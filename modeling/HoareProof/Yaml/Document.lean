import HoareProof.Yaml.Node.Reader
import HoareProof.Yaml.Value

namespace HoareProof
namespace Yaml

/-!
Documents and what they hold.  The values of a document are looked up in the map
at its root.
-/

/-- A document, by the values of its nodes and the number of its root. -/
structure Document where
  values : Making
  root : Nat

/-- The document in a text that holds at most one. -/
def Document.ofText? (text : String) : Except Fault (Option Document) := do
  let found ← Graph.ofTokens? (Token.ofText text)
  match found with
  | some (graph, root) =>
    let values ← Making.ofRoot graph root
    return some ⟨values, root⟩
  | none => return none

/-- The number of the node under a text key of the root, if there is one. -/
def Document.find? (document : Document) (key : String) : Option Nat :=
  match document.values.value? document.root with
  | some (.map entries) =>
    (entries.find? fun entry =>
      match document.values.data? entry.1 with
      | some (.text name) => name == key
      | _ => false).map (·.2)
  | _ => none

end Yaml
end HoareProof
