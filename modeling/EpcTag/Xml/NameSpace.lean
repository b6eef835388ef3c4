-- SUMMARY: Name spaces: what prefixes stand for, and the resolution of nodes to elements.
import EpcTag.Xml.Declaration
import EpcTag.Xml.Element
import EpcTag.Xml.Node

/-!
# Name spaces

An attribute `xmlns:p` gives the prefix `p` a name space inside its element. A
prefix without a name space cannot be used, and two attributes of an element
must differ in name space or local name. The prefix `xml` always has the name
space of XML itself, and no other prefix can have it; the name space of the
declaring attributes can have no prefix at all. Resolving a node also replaces
the entities in it and adds the default values of attributes.
-/

namespace EpcTag.Xml

/-- The name space of a name. -/
inductive NameSpace where
  /-- The name has no prefix. -/
  | none
  /-- The name space of XML itself. -/
  | xml
  | named (identifier : Text)
  deriving DecidableEq, Repr

/-- The name of the attributes that declare name spaces. -/
def declaringName : Text := "xmlns"

/-- The prefix of the name space of XML itself. -/
def xmlPrefix : Text := "xml"

/-! ## Reserved name spaces -/

/-- The identifier of a name space that XML reserves: an address at the host that
    keeps the definition of XML. -/
def reservedIdentifier (path : List Text) : Text :=
  Text.joinWith "/" ("http:".toList :: [] :: Text.joinWith "." ["www", "w3", "org"] :: path)

/-- The identifier of the name space of XML itself. -/
def xmlIdentifier : Text := reservedIdentifier ["XML", "1998", "namespace"]

/-- The identifier of the name space of the attributes that declare name spaces. -/
def declaringIdentifier : Text := reservedIdentifier ["2000", "xmlns", ""]

/-! ## Scopes -/

/-- The prefixes that stand for a name space, innermost first. -/
abbrev Scope := List (Text × NameSpace)

namespace Scope

/-- The prefixes outside all elements. -/
def outermost : Scope := [(xmlPrefix, .xml)]

/-- May a name space that is declared have this identifier? It must not be reserved,
    and a closing brace in it would be taken for the end of the identifier. -/
def mayIdentify (identifier : Text) : Bool :=
  !identifier.contains '\x7d' && identifier ≠ xmlIdentifier && identifier ≠ declaringIdentifier

/-- The scope in which a prefix has the name space of an identifier. Only the
    default name space can be taken back by an empty identifier. -/
def bind? (scope : Scope) (spacePrefix identifier : Text) : Option Scope :=
  if spacePrefix = xmlPrefix then
    if identifier = xmlIdentifier then some scope else none
  else if spacePrefix = declaringName ∨ identifier = [] ∨ !mayIdentify identifier then none
  else some ((spacePrefix, .named identifier) :: scope)

/-- The scope inside an element with the given attributes. -/
def extend? (scope : Scope) : List (QName × Text) → Option Scope
  | [] => some scope
  | (name, value) :: rest =>
    if name = .plain declaringName then
      if mayIdentify value then extend? scope rest else none
    else if name.spacePrefix? = some declaringName then do
      extend? (← scope.bind? name.name value) rest
    else extend? scope rest

/-- The name space of a name, if its prefix has one. -/
def space? (scope : Scope) (name : QName) : Option NameSpace :=
  match name.spacePrefix? with
  | none => some .none
  | some spacePrefix => scope.lookup spacePrefix

/-- The attributes that declare no name spaces, with their own name spaces. -/
def resolve? (scope : Scope) (attributes : List (QName × Text)) :
    Option (List ((NameSpace × Text) × Text)) :=
  (attributes.filter fun (name, _) =>
      name ≠ .plain declaringName ∧ name.spacePrefix? ≠ some declaringName).mapM
    fun (name, value) => do some ((← scope.space? name, name.name), value)

end Scope

/-! ## Attributes -/

/-- The attributes of an element: those that its tag gives, and the declared ones
    that have a default value. -/
def Declarations.complete? (decls : Declarations) (element : QName)
    (written : WrittenAttributes) : Option (List (QName × Text)) := do
  if ¬ (written.map Prod.fst).Nodup then none
  else
    let given ← written.mapM fun (name, pieces) => do
      let value ← decls.expand? pieces
      match decls.attribute? element name with
      | some declared => some (name, if declared.isTokenized then collapse value else value)
      | none => some (name, value)
    let declared := decls.attributes.filterMap fun declared =>
      if declared.element = element ∧ ¬ written.any (fun (name, _) => name = declared.name) then
        declared.fallback.map (declared.name, ·)
      else none
    some (given ++ declared)

/-! ## Nodes -/

/-- The elements that a node stands for. The first argument gives the elements that
    an entity stands for in a scope. -/
def Node.resolve? (decls : Declarations) (entity : Scope → Text → Option (List Element)) :
    Scope → Node → Option (List Element)
  | _, .characters => some []
  | scope, .reference name => entity scope name
  | scope, .element name written children => do
    let attributes ← decls.complete? name written
    let scope ← scope.extend? attributes
    let resolved ← scope.resolve? attributes
    let _ ← scope.space? name
    if ¬ (resolved.map Prod.fst).Nodup then none
    else
      let inner ← resolveAll? scope children
      let kept := resolved.filterMap fun ((space, name), value) =>
        if space = .none then some (name, value) else none
      some [.node name.name kept inner]
where
  /-- The elements that nodes stand for. -/
  resolveAll? : Scope → List Node → Option (List Element)
    | _, [] => some []
    | scope, node :: rest => do
      some ((← Node.resolve? decls entity scope node) ++ (← resolveAll? scope rest))

/-- The elements that an entity stands for, nested in other entities up to a
    depth. The text of an entity is content of its own, so what it opens it must
    close. -/
def Declarations.entityElements? (decls : Declarations) :
    Nat → Scope → Text → Option (List Element)
  | depth, scope, name =>
    if (predefined? name).isSome then some []
    else match depth, decls.entities.lookup name with
      | depth + 1, some (.internal text) => do
        Node.resolve?.resolveAll? decls (decls.entityElements? depth) scope
          (← Node.ofContent? text)
      | _, _ => none

end EpcTag.Xml
