import PawnQuery.Yaml.Token.Basic

/-!
# Nodes

The tree that a YAML document stands for.  A node may be given a name and be referred to later, so
that a document is a tree together with the nodes that have names.
-/

namespace PawnQuery.Yaml

abbrev AnchorId := Nat

inductive Node where
  | scalar (text : String) (style : Style) (tag : Option String)
  | sequence (items : List Node)
  | mapping (entries : List (Node × Node))
  | alias (target : AnchorId)
deriving Repr, Inhabited

structure Document where
  /-- The tree; none if the text holds no document. -/
  root : Option Node := none
  anchors : List (AnchorId × Node) := []
deriving Repr, Inhabited

namespace Document

/-- The node itself, or the one that it stands for. -/
def resolve (d : Document) (node : Node) : Node :=
  match node with
  | .alias target => ((d.anchors.find? fun a => a.1 == target).map (·.2)).getD node
  | node => node

@[simp] theorem resolve_sequence (d : Document) (items : List Node) :
    d.resolve (.sequence items) = .sequence items := rfl

@[simp] theorem resolve_mapping (d : Document) (entries : List (Node × Node)) :
    d.resolve (.mapping entries) = .mapping entries := rfl

end Document

def standardTags : String := "tag:yaml.org,2002:"

end PawnQuery.Yaml
