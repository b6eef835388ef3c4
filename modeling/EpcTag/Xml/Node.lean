-- SUMMARY: Content as a tree, before entities and name spaces are resolved.
import EpcTag.Xml.Markup

/-!
# Nodes

The tags of content must nest: every element that is opened is closed under the
same name, inside the element in which it was opened. Content that keeps this
rule is a list of nodes.
-/

namespace EpcTag.Xml

inductive Node where
  | element (name : QName) (attributes : WrittenAttributes) (children : List Node)
  | reference (entity : Text)
  | characters
  deriving Repr

namespace Node

/-- An element that is open: its tag, and the nodes in front of it, last first. -/
structure Open where
  name : QName
  attributes : WrittenAttributes
  before : List Node

/-- The nodes of a row of markup, given the open elements, innermost first, and the
    nodes read inside the innermost one, last first. -/
def assemble? : List Open → List Node → List Markup → Option (List Node)
  | [], done, [] => some done.reverse
  | _ :: _, _, [] => none
  | stack, done, .opening name attributes :: rest =>
    assemble? (⟨name, attributes, done⟩ :: stack) [] rest
  | stack, done, .empty name attributes :: rest =>
    assemble? stack (.element name attributes [] :: done) rest
  | [], _, .closing _ :: _ => none
  | top :: stack, done, .closing name :: rest =>
    if top.name = name then
      assemble? stack (.element name top.attributes done.reverse :: top.before) rest
    else none
  | stack, done, .reference entity :: rest => assemble? stack (.reference entity :: done) rest
  | stack, done, .characters :: rest => assemble? stack (.characters :: done) rest

/-- The nodes of some content. -/
def ofContent? (text : Text) : Option (List Node) := do
  assemble? [] [] (← Markup.scan? text)

end Node

end EpcTag.Xml
