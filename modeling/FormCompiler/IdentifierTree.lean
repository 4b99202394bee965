import FormCompiler.Entries
import FormCompiler.Form
import FormCompiler.Path

/-!
# FormCompiler.IdentifierTree

How the items of lists are identified, as a tree over the names of paths.
A node stands for a path; it holds the identifier recorded for that path, if
any, and its children in key order.
-/

namespace FormCompiler

/-- How the items of a list are identified. -/
structure ListIdentifier where
  /-- The request as it was hinted. -/
  id : Json
  format : IdentifierFormat

/-- Identifiers by path. -/
inductive IdentifierTree where
  | node (identifier : Option ListIdentifier) (children : List (String × IdentifierTree))

namespace IdentifierTree

def empty : IdentifierTree := node none []

instance : Inhabited IdentifierTree := ⟨empty⟩

def identifier : IdentifierTree → Option ListIdentifier
  | node identifier _ => identifier

def children : IdentifierTree → List (String × IdentifierTree)
  | node _ children => children

/-- Records an identifier under names, with the nodes on the way. -/
def recordAt : List String → ListIdentifier → IdentifierTree → IdentifierTree
  | [], ident, node _ children => node (some ident) children
  | name :: names, ident, node identifier children =>
    node identifier
      (alterEntry name (fun child => recordAt names ident (child.getD empty)) children)

/-- Records an identifier at a path. -/
def record (tree : IdentifierTree) (path : Path) (ident : ListIdentifier) : IdentifierTree :=
  recordAt path.segments ident tree

/-- The node under names. -/
def descend? : List String → IdentifierTree → Option IdentifierTree
  | [], tree => some tree
  | name :: names, node _ children => (children.lookup name).bind (descend? names)

/-- The key of an identifier, and the name of the hidden field for it. -/
def identifierKey : String := "_id"

/-- An identifier as a member that may be left out. -/
def identifierMember : Option ListIdentifier → List (String × Json)
  | none => []
  | some ident =>
    [(identifierKey, .object [("id", ident.id), ("format", .string ident.format.tag)])]

mutual

/-- The tree as an object: the children by name, then the identifier. -/
def toJson : IdentifierTree → Json
  | node identifier children => .object (childrenToJson children ++ identifierMember identifier)

def childrenToJson : List (String × IdentifierTree) → List (String × Json)
  | [] => []
  | (name, tree) :: children => (name, toJson tree) :: childrenToJson children

end

end IdentifierTree

end FormCompiler
