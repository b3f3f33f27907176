import FormulaLint.Yaml.Token

/-!
# Node graphs

A document is a graph of nodes: scalars, sequences and mappings.  Nodes are known by their numbers,
because an alias makes one node a part of several others, or even of itself.
-/

namespace FormulaLint.Yaml

/-- What a node holds; the parts of a collection are given by their numbers. -/
inductive Content where
  | scalar (text : String) (style : ScalarStyle)
  | sequence (items : List Nat)
  | mapping (entries : List (Nat × Nat))
deriving DecidableEq, Repr

/-- A node: its tag, the place where it starts and what it holds. -/
structure Node where
  tag : Tag
  mark : Mark
  content : Content
deriving DecidableEq, Repr

/-- The nodes of a document and the number of its root. -/
structure Graph where
  nodes : Array Node
  root : Nat
deriving DecidableEq, Repr

namespace Graph

/-- The node with a number. -/
def node? (g : Graph) (id : Nat) : Option Node :=
  g.nodes[id]?

/-- What the node with a number holds. -/
def content? (g : Graph) (id : Nat) : Option Content :=
  (g.node? id).map (·.content)

/-- The text of a scalar node. -/
def text? (g : Graph) (id : Nat) : Option String :=
  match g.content? id with
  | some (.scalar text _) => some text
  | _ => none

/-- The entries of a mapping node. -/
def entries? (g : Graph) (id : Nat) : Option (List (Nat × Nat)) :=
  match g.content? id with
  | some (.mapping entries) => some entries
  | _ => none

end Graph

end FormulaLint.Yaml
