import HoareProof.Data.SetOrder
import HoareProof.Yaml.Node.Merge
import HoareProof.Yaml.Scalar

namespace HoareProof
namespace Yaml

/-!
Values of the nodes of a document.  They are made level by level, from the
outside in, and each node gets its value once; the first fault in that order is
the fault of the document.  A list or map is known to be one before its parts
are looked at, so it may be among its own parts, and for that reason none can be
a key.
-/

/-- The value of a node, in which parts are numbers of nodes.  A list or map is
open until its parts have been looked at. -/
inductive Value where
  | scalar (data : Data)
  | list (items : List Nat)
  | map (entries : List (Nat × Nat))
  | set (members : List Nat)
  | pairs (entries : List (Nat × Nat))
  | unfinished

/-- The values made so far, and the open lists and maps in the order in which
they were met. -/
structure Making where
  graph : Graph
  values : Array (Option Value)
  waiting : List Nat

namespace Making

def start (graph : Graph) : Making :=
  ⟨graph, Array.replicate graph.size none, []⟩

def value? (making : Making) (number : Nat) : Option Value :=
  (making.values[number]?).join

def setValue (making : Making) (number : Nat) (value : Value) : Making :=
  { making with values := making.values.setIfInBounds number (some value) }

def wait (making : Making) (number : Nat) : Making :=
  { making.setValue number .unfinished with waiting := making.waiting ++ [number] }

/-- The text of a scalar.  A map stands for the value of its key for a default
value, if it has such a key. -/
def scalarText (graph : Graph) : Nat -> Nat -> Except Fault String
  | 0, _ => .error .malformed
  | bound + 1, number =>
    match graph.content number with
    | .scalar text => .ok text
    | .list _ => .error .malformed
    | .map entries =>
      match entries.find? fun entry => graph.tag entry.1 == .standard with
      | some entry => scalarText graph bound entry.2
      | none => .error .malformed

/-- The value of a node of a scalar kind.  A date is read from the node itself,
never from the default value of a map. -/
def scalarData (graph : Graph) (number : Nat) : Except Fault Data := do
  let text ← scalarText graph (graph.size + 1) number
  match graph.tag number, graph.content number with
  | .date, .map _ => .error .dateFromMap
  | tag, _ => scalarValue tag text

/-- Makes the value of a node unless it has one. -/
def make (number : Nat) (making : Making) : Except Fault Making :=
  match making.value? number with
  | some _ => .ok making
  | none =>
    match making.graph.tag number with
    | .list | .map | .set | .pairs => .ok (making.wait number)
    | _ => (scalarData making.graph number).map fun data =>
        making.setValue number (.scalar data)

def makeAll (numbers : List Nat) (making : Making) : Except Fault Making :=
  numbers.foldlM (fun making number => making.make number) making

def data? (making : Making) (number : Nat) : Option Data :=
  match making.value? number with
  | some (.scalar data) => some data
  | _ => none

/-- Whether two nodes are the same key. -/
def sameKey (making : Making) (a b : Nat) : Bool :=
  a == b ||
    match making.data? a, making.data? b with
    | some first, some second => first.sameKey second
    | _, _ => false

/-- Sets an entry of a map; a key that is there already keeps its place. -/
def setEntry (making : Making) (key value : Nat) : List (Nat × Nat) -> List (Nat × Nat)
  | [] => [(key, value)]
  | entry :: rest =>
    if making.sameKey entry.1 key then (entry.1, value) :: rest
    else entry :: making.setEntry key value rest

/-- Makes the keys and values of a map.  Of equal keys the last value counts. -/
def makeEntries (known : List (Nat × Nat)) :
    List (Nat × Nat) -> Making -> Except Fault (List (Nat × Nat) × Making)
  | [], making => .ok (known, making)
  | (key, value) :: rest, making => do
    let withKey ← making.make key
    if (withKey.data? key).isSome then
      let withValue ← withKey.make value
      makeEntries (withValue.setEntry key value known) rest withValue
    else .error .malformed

/-- Makes the keys and values of the maps in a list, each of which has one
entry. -/
def makePairs : List Nat -> Making -> Except Fault (List (Nat × Nat) × Making)
  | [], making => .ok ([], making)
  | item :: rest, making =>
    match making.graph.content item with
    | .map [(key, value)] => do
      let made ← making.makeAll [key, value]
      let (pairs, last) ← makePairs rest made
      return ((key, value) :: pairs, last)
    | _ => .error .malformed

/-- The entries of a map, merge keys carried out. -/
def mapEntries (number : Nat) (making : Making) :
    Except Fault (List (Nat × Nat) × Making) := do
  let merged ← making.graph.merge number
  makeEntries [] (merged.entries number) { making with graph := merged }

/-- Looks at the parts of an open list or map. -/
def finish (number : Nat) (making : Making) : Except Fault Making :=
  match making.graph.tag number, making.graph.content number with
  | .list, .list items => do
    let made ← making.makeAll items
    return made.setValue number (.list items)
  | .map, .map _ => do
    let (entries, made) ← making.mapEntries number
    return made.setValue number (.map entries)
  | .set, .map _ => do
    let (entries, made) ← making.mapEntries number
    return made.setValue number (.set (entries.map (·.1)))
  | .pairs, .list items => do
    let (pairs, made) ← making.makePairs items
    return made.setValue number (.pairs pairs)
  | _, _ => .error .malformed

/-- Looks at all open lists and maps, and at those that come up.  Each node comes
up once, so there are no more steps than nodes. -/
def finishAll : Nat -> Making -> Except Fault Making
  | 0, making => .ok making
  | bound + 1, making =>
    match making.waiting with
    | [] => .ok making
    | number :: rest => do
      let made ← finish number { making with waiting := rest }
      finishAll bound made

def ofRoot (graph : Graph) (root : Nat) : Except Fault Making := do
  let made ← (start graph).make root
  finishAll (graph.size + 1) made

/-- The value of a node as it is seen from there, inside nodes around it.  A list
or map around it is not entered again; so no more levels are entered than there
are nodes. -/
def view (making : Making) : Nat -> List Nat -> Nat -> Data
  | 0, _, _ => .null
  | bound + 1, around, number =>
    let part := view making bound (number :: around)
    let isAround := around.contains number
    match making.value? number with
    | some (.scalar data) => data
    | some (.list items) => if isAround then .outerList else .list (items.map part)
    | some (.map entries) =>
      if isAround then .outerMap
      else .map (entries.map fun entry => (part entry.1, part entry.2))
    | some (.set members) => .set (Data.setOrder (members.map part))
    | some (.pairs entries) =>
      if isAround then .outerList
      else .list (entries.map fun entry => .pair (part entry.1) (part entry.2))
    | some .unfinished => .null
    | none => .null

def data (making : Making) (number : Nat) : Data :=
  making.view (making.graph.size + 1) [] number

/-- The value of a node with nothing in the places of its parts.  It is made in
few steps also where the parts are shared many times. -/
def outline (making : Making) (number : Nat) : Data :=
  making.view 1 [] number

end Making
end Yaml
end HoareProof
