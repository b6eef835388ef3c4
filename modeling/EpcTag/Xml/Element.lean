-- SUMMARY: Elements: local names, attributes without prefixes, and children.
import EpcTag.Text.Basic

/-!
# Elements

What is left of a document once it is read: a tree of elements. Name spaces are
resolved and gone. An element goes by its local name, and the only attributes it
keeps are those without a prefix.
-/

namespace EpcTag.Xml

inductive Element where
  | node (name : Text) (attributes : List (Text × Text)) (children : List Element)
  deriving Repr

namespace Element

/-- The local name of an element. -/
def name : Element → Text
  | .node name _ _ => name

/-- The attributes of an element. -/
def attributes : Element → List (Text × Text)
  | .node _ attributes _ => attributes

/-- The elements directly inside an element. -/
def children : Element → List Element
  | .node _ _ children => children

/-- The value of an attribute. -/
def get? (element : Element) (attribute_ : Text) : Option Text :=
  element.attributes.lookup attribute_

/-- The children with a local name. -/
def childrenNamed (element : Element) (name : Text) : List Element :=
  element.children.filter fun child => child.name = name

/-- The element and all elements inside it, in the order of their opening tags. -/
def descendants : Element → List Element
  | .node name attributes children =>
    .node name attributes children :: ofChildren children
where
  /-- The elements of a list and all elements inside them. -/
  ofChildren : List Element → List Element
    | [] => []
    | child :: rest => descendants child ++ ofChildren rest

/-- The elements with a local name among an element and those inside it. -/
def descendantsNamed (element : Element) (name : Text) : List Element :=
  element.descendants.filter fun inner => inner.name = name

end Element

end EpcTag.Xml
