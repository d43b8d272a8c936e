namespace ScriptEngine.Yaml

/-!
# YAML nodes

A document is a tree of scalars, lists and mappings.  Each node has a tag, the kind
of value it stands for, and the line it starts on, counted from one.  A reference
tells the place of the anchored node it refers to, which may be one around the
reference; the document keeps its anchored nodes by their places.
-/

/-- The forms of nodes. -/
inductive NodeForm where
  | scalar
  | sequence
  | mapping
  | reference
  deriving DecidableEq, Repr

/-- An anchored node: where it starts, its form and its tag. -/
structure Anchored where
  place : Nat
  form : NodeForm
  tag : String
  deriving DecidableEq, Repr

mutual

/-- A node of a document. -/
inductive Node where
  | scalar (tag : String) (isPlain : Bool) (text : String) (line : Nat)
  | sequence (tag : String) (items : List Node) (line : Nat)
  | mapping (tag : String) (pairs : List Pair) (line : Nat)
  /-- A reference is told from others by its own place. -/
  | reference (place : Nat) (name : String) (target : Anchored) (line : Nat)

/-- A key with its value. -/
inductive Pair where
  | mk (key value : Node)

end

/-- A document: its outermost node, its anchored nodes and the number of its references. -/
structure Document where
  root : Node
  anchored : List (Nat × Node) := []
  references : Nat := 0

namespace Tag

/-- The tag of nothing. -/
def null : String :=
  "!!null"

/-- The tag of truth values. -/
def boolean : String :=
  "!!bool"

/-- The tag of whole numbers. -/
def integer : String :=
  "!!int"

/-- The tag of numbers. -/
def float : String :=
  "!!float"

/-- The tag of texts. -/
def string : String :=
  "!!str"

/-- The tag of texts written in base 64. -/
def binary : String :=
  "!!binary"

/-- The tag of points in time. -/
def moment : String :=
  "!!timestamp"

/-- The tag of a key that stands for the keys of another mapping. -/
def merge : String :=
  "!!merge"

/-- The tag of lists. -/
def sequence : String :=
  "!!seq"

/-- The tag of mappings. -/
def mapping : String :=
  "!!map"

/-- What the long form of a standard tag starts with. -/
def standardStart : List Char :=
  "tag:yaml.org,2002:".toList

/-- The short form of a tag. -/
def short (tag : String) : String :=
  if standardStart.isPrefixOf tag.toList then
    "!!" ++ String.ofList (tag.toList.drop standardStart.length)
  else tag

end Tag

namespace Node

/-- The form of a node. -/
def form : Node → NodeForm
  | scalar .. => .scalar
  | sequence .. => .sequence
  | mapping .. => .mapping
  | reference .. => .reference

/-- The line a node starts on. -/
def line : Node → Nat
  | scalar _ _ _ line | sequence _ _ line | mapping _ _ line | reference _ _ _ line => line

/-- The text of a scalar or the name of a reference; nothing for other nodes. -/
def text : Node → String
  | scalar _ _ text _ => text
  | reference _ name _ _ => name
  | _ => ""

/-- The tag of a node or of the node it refers to. -/
def tag : Node → String
  | scalar tag _ _ _ | sequence tag _ _ | mapping tag _ _ => tag
  | reference _ _ target _ => target.tag

/-- Whether a node is the key that stands for the keys of another mapping. -/
def isMerge : Node → Bool
  | scalar tag _ text _ => text == "<<" && tag == Tag.merge
  | _ => false

/-- Whether a node is a mapping or refers to one. -/
def yieldsMapping : Node → Bool
  | mapping .. => true
  | reference _ _ target _ => target.form == .mapping
  | _ => false

end Node

namespace Pair

/-- The key of a pair. -/
def key : Pair → Node
  | mk key _ => key

/-- The value of a pair. -/
def value : Pair → Node
  | mk _ value => value

end Pair

end ScriptEngine.Yaml
