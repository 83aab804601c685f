import HoareProof.Yaml.Node
import HoareProof.Yaml.Token.Lexer

namespace HoareProof
namespace Yaml

/-!
Nodes from tokens.  A node with an anchor can be referred to by its name later
in the document, and inside itself.  What a reference means is settled while the
tokens are read, so a graph holds no names.
-/

/-- What is known while a document is read: the tokens left, the meanings of tag
handles, the nodes met so far, and the numbers of those with names. -/
structure Progress where
  tokens : List Token
  handles : List (String × String)
  graph : Graph
  names : List (String × Nat)

abbrev Reading (α : Type) := StateT Progress (Except Fault) α

namespace Reading

/-- The handles that every document knows. -/
def standardHandles : List (String × String) := [("!", "!"), ("!!", Tag.space)]

def fail {α : Type} (fault : Fault) : Reading α := fun _ => .error fault

/-- The next token, unless the text ends.  A fault of the text comes to light
where it is reached. -/
def next? : Reading (Option Token) := fun progress =>
  match progress.tokens with
  | .broken fault :: _ => .error fault
  | token :: _ => .ok (some token, progress)
  | [] => .ok (none, progress)

def pass : Reading Unit :=
  modify fun progress => { progress with tokens := progress.tokens.drop 1 }

/-- The number of tokens left, which bounds what can still be read. -/
def bound : Reading Nat := do
  return (← get).tokens.length + 1

/-- What a name refers to. -/
def resolve (name : String) : Reading Nat := do
  match (← get).names.lookup name with
  | some number => return number
  | none => fail .malformed

def add (node : Node) : Reading Nat := do
  let progress ← get
  set { progress with graph := progress.graph.add node }
  return progress.graph.size

/-- Fills in what a node holds. -/
def fill (number : Nat) (content : Content) : Reading Unit :=
  modify fun progress => { progress with
    graph := progress.graph.set number ⟨progress.graph.tag number, content⟩ }

/-- The node that stands for a value that is left out. -/
def addEmpty : Reading Nat :=
  add ⟨.null, .scalar ""⟩

/-- What is said about a node before its content. -/
structure Properties where
  name : Option String
  tag : Option String

def fullTag (handle : Option String) (name : String) : Reading String := do
  match handle with
  | none => return name
  | some handle =>
    match (← get).handles.lookup handle with
    | some meaning => return meaning ++ name
    | none => fail .malformed

def tag? : Reading (Option (Option String × String)) := do
  match ← next? with
  | some (.tag handle name) =>
    pass
    return some (handle, name)
  | _ => return none

def anchor? : Reading (Option String) := do
  match ← next? with
  | some (.anchor name) =>
    pass
    return some name
  | _ => return none

/-- The anchor and the tag of a node, in either order. -/
def properties : Reading Properties := do
  let first ← anchor?
  let tag ← tag?
  let name ← match first with
    | some name => pure (some name)
    | none => if tag.isSome then anchor? else pure none
  match tag with
  | some (handle, suffix) => return ⟨name, some (← fullTag handle suffix)⟩
  | none => return ⟨name, none⟩

def collectiveTag (usual : Tag) (properties : Properties) : Tag :=
  match properties.tag with
  | none => usual
  | some name => if name = "!" then usual else .ofName name

/-- The kind of a scalar.  A lone exclamation mark makes every scalar one that is
judged by its looks. -/
def scalarTag (plain : Bool) (text : String) (properties : Properties) : Tag :=
  match properties.tag with
  | none => if plain then .ofPlain text else .text
  | some name => if name = "!" then .ofPlain text else .ofName name

/-- Adds a node and gives it its name.  No name is given twice. -/
def addNamed (properties : Properties) (node : Node) : Reading Nat := do
  match properties.name with
  | none => add node
  | some name =>
    if ((← get).names.lookup name).isSome then fail .malformed
    else
      let number ← add node
      modify fun progress => { progress with names := (name, number) :: progress.names }
      return number

/-- A node, or the empty one where a token stands before which it is left
out. -/
def orEmpty (stops : Token -> Bool) (read : Reading Nat) : Reading Nat := do
  match ← next? with
  | some token => if stops token then addEmpty else read
  | none => read

/-- The tokens before which an item of a block list is left out. -/
def stopsItem : Token -> Bool
  | .item | .blockEnd => true
  | _ => false

/-- The tokens before which an item of a list in the column of its key is left
out. -/
def stopsInnerItem : Token -> Bool
  | .item | .key | .value | .blockEnd => true
  | _ => false

/-- The tokens before which a key or a value of a block is left out. -/
def stopsEntry : Token -> Bool
  | .key | .value | .blockEnd => true
  | _ => false

def stopsFlowKey : Token -> Bool
  | .value | .comma | .listEnd | .mapEnd => true
  | _ => false

def stopsFlowValue : Token -> Bool
  | .comma | .listEnd | .mapEnd => true
  | _ => false

def blockItems (node : Reading Nat) : Nat -> Reading (List Nat)
  | 0 => fail .malformed
  | bound + 1 => do
    match ← next? with
    | some .item =>
      pass
      let first ← orEmpty stopsItem node
      let rest ← blockItems node bound
      return first :: rest
    | some .blockEnd =>
      pass
      return []
    | _ => fail .malformed

/-- The items of a list in the column of its key.  Nothing marks its end. -/
def innerItems (node : Reading Nat) : Nat -> Reading (List Nat)
  | 0 => fail .malformed
  | bound + 1 => do
    match ← next? with
    | some .item =>
      pass
      let first ← orEmpty stopsInnerItem node
      let rest ← innerItems node bound
      return first :: rest
    | _ => return []

/-- The value after a colon, if there is one. -/
def valueAfter (stops : Token -> Bool) (node : Reading Nat) : Reading Nat := do
  match ← next? with
  | some .value =>
    pass
    orEmpty stops node
  | _ => addEmpty

def blockEntries (node : Reading Nat) : Nat -> Reading (List (Nat × Nat))
  | 0 => fail .malformed
  | bound + 1 => do
    match ← next? with
    | some .key =>
      pass
      let key ← orEmpty stopsEntry node
      let value ← valueAfter stopsEntry node
      let rest ← blockEntries node bound
      return (key, value) :: rest
    | some .blockEnd =>
      pass
      return []
    | _ => fail .malformed

/-- The items of a list in brackets.  An item with a colon is a map of one
entry. -/
def flowItems (node : Reading Nat) : Nat -> Bool -> Reading (List Nat)
  | 0, _ => fail .malformed
  | bound + 1, afterItem => do
    match ← next? with
    | some .listEnd =>
      pass
      return []
    | some .comma =>
      if afterItem then
        pass
        flowItems node bound false
      else fail .malformed
    | some .key =>
      if afterItem then fail .malformed
      else
        pass
        let single ← add ⟨.map, .map []⟩
        let key ← orEmpty stopsFlowKey node
        let value ← valueAfter stopsFlowValue node
        fill single (.map [(key, value)])
        let rest ← flowItems node bound true
        return single :: rest
    | _ =>
      if afterItem then fail .malformed
      else
        let first ← node
        let rest ← flowItems node bound true
        return first :: rest

/-- The entries of a map in brackets.  A key may stand alone. -/
def flowEntries (node : Reading Nat) : Nat -> Bool -> Reading (List (Nat × Nat))
  | 0, _ => fail .malformed
  | bound + 1, afterEntry => do
    match ← next? with
    | some .mapEnd =>
      pass
      return []
    | some .comma =>
      if afterEntry then
        pass
        flowEntries node bound false
      else fail .malformed
    | some .key =>
      if afterEntry then fail .malformed
      else
        pass
        let key ← orEmpty stopsFlowKey node
        let value ← valueAfter stopsFlowValue node
        let rest ← flowEntries node bound true
        return (key, value) :: rest
    | _ =>
      if afterEntry then fail .malformed
      else
        let key ← node
        let value ← addEmpty
        let rest ← flowEntries node bound true
        return (key, value) :: rest

/-- Where a node stands, which decides what it may be: in brackets, as an item
of a block, or as a key or a value of one, where a list may start in the column
of the key. -/
inductive Setting where
  | flow
  | block
  | entry
deriving DecidableEq

def scalar (plain : Bool) (text : String) (properties : Properties) : Reading Nat :=
  addNamed properties ⟨scalarTag plain text properties, .scalar text⟩

def list (properties : Properties) (read : Nat -> Reading (List Nat)) : Reading Nat := do
  let number ← addNamed properties ⟨collectiveTag .list properties, .list []⟩
  let items ← read (← bound)
  fill number (.list items)
  return number

def map (properties : Properties) (read : Nat -> Reading (List (Nat × Nat))) : Reading Nat := do
  let number ← addNamed properties ⟨collectiveTag .map properties, .map []⟩
  let entries ← read (← bound)
  fill number (.map entries)
  return number

/-- A node without content.  It must have an anchor or a tag. -/
def bare (properties : Properties) : Reading Nat :=
  if properties.name.isSome || properties.tag.isSome then scalar true "" properties
  else fail .malformed

def content (node : Setting -> Reading Nat) (setting : Setting) (properties : Properties) :
    Reading Nat := do
  match ← next? with
  | some .item =>
    if setting = .entry then list properties (innerItems (node .block)) else bare properties
  | some (.scalar plain text) =>
    pass
    scalar plain text properties
  | some .listStart =>
    pass
    list properties fun bound => flowItems (node .flow) bound false
  | some .mapStart =>
    pass
    map properties fun bound => flowEntries (node .flow) bound false
  | some .blockListStart =>
    if setting = .flow then bare properties
    else
      pass
      list properties (blockItems (node .block))
  | some .blockMapStart =>
    if setting = .flow then bare properties
    else
      pass
      map properties (blockEntries (node .entry))
  | _ => bare properties

/-- A node, in which nodes nest at most as deep as the bound. -/
def node : Nat -> Setting -> Reading Nat
  | 0, _ => fail .malformed
  | bound + 1, setting => do
    match ← next? with
    | some (.reference name) =>
      pass
      resolve name
    | _ =>
      let properties ← properties
      content (node bound) setting properties

def directives : Nat -> Bool -> List (String × String) -> Reading (List (String × String))
  | 0, _, _ => fail .malformed
  | bound + 1, hasVersion, handles => do
    match ← next? with
    | some (.directive content) =>
      pass
      match content with
      | .version major =>
        if hasVersion || major != 1 then fail .malformed else directives bound true handles
      | .tag handle meaning =>
        if (handles.lookup handle).isSome then fail .malformed
        else directives bound hasVersion ((handle, meaning) :: handles)
      | .other => directives bound hasVersion handles
    | _ => return handles

/-- Whether a document without content ends at a token. -/
def endsDocument : Token -> Bool
  | .directive _ | .documentStart | .documentEnd => true
  | _ => false

def passEnds : Nat -> Reading Unit
  | 0 => fail .malformed
  | bound + 1 => do
    match ← next? with
    | some .documentEnd =>
      pass
      passEnds bound
    | _ => return ()

/-- The only document of a text.  There may be none, but not two. -/
def document : Reading (Option Nat) := do
  let root := do node (← bound) .block
  let found ← match ← next? with
    | none => pure none
    | some (.directive _) | some .documentStart => do
      let handles ← directives (← bound) false []
      match ← next? with
      | some .documentStart => do
        pass
        modify fun progress => { progress with handles := handles ++ standardHandles }
        match ← next? with
        | none => some <$> addEmpty
        | some token => if endsDocument token then some <$> addEmpty else some <$> root
      | _ => fail .malformed
    | some _ => some <$> root
  passEnds (← bound)
  match ← next? with
  | none => return found
  | some _ => fail .malformed

end Reading

/-- The graph of the only document among tokens with the number of its root, if
there is a document. -/
def Graph.ofTokens? (tokens : List Token) : Except Fault (Option (Graph × Nat)) := do
  let (root, progress) ← Reading.document.run ⟨tokens, Reading.standardHandles, .empty, []⟩
  return root.map fun number => (progress.graph, number)

end Yaml
end HoareProof
