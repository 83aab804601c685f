import HoareProof.Yaml.Tag

namespace HoareProof
namespace Yaml

/-!
Nodes of documents.  A document is a graph, because a node with a name can be
met in several places, also inside itself.  The nodes of a graph have numbers,
and a node refers to its parts by theirs.
-/

/-- What a node holds: a text, or the numbers of its parts. -/
inductive Content where
  | scalar (text : String)
  | list (items : List Nat)
  | map (entries : List (Nat × Nat))

structure Node where
  tag : Tag
  content : Content

/-- The nodes of a document, by their numbers. -/
structure Graph where
  nodes : Array Node

namespace Graph

def empty : Graph := ⟨#[]⟩

def size (graph : Graph) : Nat :=
  graph.nodes.size

/-- The node with a number; there is nothing at other numbers. -/
def node (graph : Graph) (number : Nat) : Node :=
  (graph.nodes[number]?).getD ⟨.null, .scalar ""⟩

def tag (graph : Graph) (number : Nat) : Tag :=
  (graph.node number).tag

def content (graph : Graph) (number : Nat) : Content :=
  (graph.node number).content

def entries (graph : Graph) (number : Nat) : List (Nat × Nat) :=
  match graph.content number with
  | .map entries => entries
  | _ => []

def add (graph : Graph) (node : Node) : Graph :=
  ⟨graph.nodes.push node⟩

/-- Puts a node in the place of the one with a number. -/
def set (graph : Graph) (number : Nat) (node : Node) : Graph :=
  ⟨graph.nodes.setIfInBounds number node⟩

def setEntries (graph : Graph) (number : Nat) (entries : List (Nat × Nat)) : Graph :=
  graph.set number ⟨graph.tag number, .map entries⟩

def setTag (graph : Graph) (number : Nat) (tag : Tag) : Graph :=
  graph.set number ⟨tag, graph.content number⟩

def entryCount (graph : Graph) : Nat :=
  graph.nodes.toList.foldl (fun count node =>
    match node.content with
    | .map entries => count + entries.length
    | _ => count) 0

end Graph
end Yaml
end HoareProof
