import HoareProof.Yaml.Fault

namespace HoareProof
namespace Yaml

/-!
Tokens of documents.  Indentation has become tokens that open and close blocks,
and a key is announced by a token in front of it.  A text that cannot be cut to
its end gives the tokens before the fault and the fault as the last one.
-/

/-- A line that speaks about the document after it. -/
inductive Directive where
  | version (major : Nat)
  | tag (handle meaning : String)
  | other

inductive Token where
  | directive (content : Directive)
  | documentStart
  | documentEnd
  | blockListStart
  | blockMapStart
  | blockEnd
  | listStart
  | listEnd
  | mapStart
  | mapEnd
  | item
  | comma
  | key
  | value
  | reference (name : String)
  | anchor (name : String)
  | tag (handle : Option String) (name : String)
  | scalar (plain : Bool) (text : String)
  | broken (fault : Fault)

end Yaml
end HoareProof
