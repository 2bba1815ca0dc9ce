import Scriptorium.Yaml.Scalar

/-!
# YAML nodes

What a YAML document says, without its layout.  An alias is the node that it names; inside that
node itself it is a `loop`, which has no value.
-/

namespace Scriptorium.Yaml

/-- A text with the form it was written in and its tag. -/
structure Scalar where
  text : String
  form : Form := .plain
  tag : Option String := none
  deriving Repr, DecidableEq, Inhabited

/-- A node of a document. -/
inductive Node where
  | scalar (s : Scalar)
  | sequence (items : List Node)
  | mapping (entries : List (Node × Node))
  | loop
  deriving Repr, Inhabited

namespace Node

def empty : Node := .scalar { text := "" }

end Node

end Scriptorium.Yaml
