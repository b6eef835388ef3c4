-- SUMMARY: The document type declaration: entities, defaults of attributes, and the form of the rest.
import EpcTag.Xml.Markup

/-!
# Declarations

A document may declare its type. The declaration names entities and their
texts, and for the attributes of an element their types and default values.
Declarations of elements and notations leave no trace, but they must have the
right form. Nothing outside the document is read: an entity without a text of
its own has none, and from the first reference to a parameter entity on, a
document that may depend on others declares nothing more.
-/

namespace EpcTag.Xml

/-! ## Parts of a declaration -/

/-- A part of a declaration, between two spaces or at a mark. -/
inductive Part where
  | name (name : QName)
  /-- A name with `?`, `*` or `+` behind it. -/
  | counted (name : QName)
  /-- Characters of names that form no name. -/
  | token (token : Text)
  /-- A name behind `#`. -/
  | keyword (name : Text)
  | quoted (raw : Text)
  | mark (c : Char)
  /-- A closing parenthesis with a mark behind it. -/
  | countedClose (c : Char)
  deriving DecidableEq, Repr

namespace Part

/-- Is `c` a mark that says how often something occurs? -/
def isCount (c : Char) : Bool := c == '?' || c == '*' || c == '+'

/-- Do characters of names end in front of this text? -/
def endsName (rest : Text) : Bool :=
  match rest with
  | [] => false
  | c :: _ => isSpace c || c == '>' || c == ')' || c == ',' || c == '|' || c == '['

/-- The part that characters of names form. -/
def ofNameChars (run : Text) : Part :=
  match Text.splitAll ':' run with
  | [only] => if (readName? only).isSome then .name ⟨none, only⟩ else .token run
  | [first, second] =>
    if (readName? first).isSome ∧ second ≠ [] then .name ⟨some first, second⟩ else .token run
  | _ => .token run

/-- The part at the start of a text without spaces in front, and the text behind
    it. -/
def read? (text : Text) : Option (Part × Text) :=
  match text with
  | [] => none
  | c :: rest =>
    if c = '"' ∨ c = '\'' then do
      let (raw, rest) ← Text.splitFirst c rest
      if raw.all isCharacter ∧
          rest.head?.any (fun c => isSpace c || c == '>' || c == '[') then some (.quoted raw, rest)
      else none
    else if c = '(' ∨ c = '|' ∨ c = ',' then some (.mark c, rest)
    else if c = ')' then
      match rest with
      | d :: after =>
        if isCount d then some (.countedClose d, after)
        else if isSpace d ∨ d = '>' ∨ d = ',' ∨ d = '|' ∨ d = ')' then some (.mark ')', rest)
        else none
      | [] => none
    else if c = '%' then
      if rest.head?.any isSpace then some (.mark '%', rest) else none
    else if c = '#' then do
      let (word, rest) ← readName? rest
      if rest.head?.any (fun c => isSpace c || c == ')' || c == '>' || c == '|') then
        some (.keyword word, rest)
      else none
    else
      let run := text.takeWhile fun c => isNameChar c || c == ':'
      let after := text.dropWhile fun c => isNameChar c || c == ':'
      if run = [] then none
      else if endsName after then some (ofNameChars run, after)
      else match ofNameChars run, after with
        | .name label, d :: after => if isCount d then some (.counted label, after) else none
        | _, _ => none

/-- The parts up to one of the given ends, the end that was found, and the text
    behind it. The first argument bounds the number of parts. -/
def readUntil? (ends : List Char) : Nat → Text → Option (List Part × Char × Text)
  | 0, _ => none
  | bound + 1, text =>
    match skipSpace text with
    | [] => none
    | c :: rest =>
      if c ∈ ends then some ([], c, rest)
      else do
        let (part, rest) ← read? (c :: rest)
        let (parts, last, rest) ← readUntil? ends bound rest
        some (part :: parts, last, rest)

/-- The part that a plain word forms. -/
def ofWord (word : Text) : Part := .name (.plain word)

end Part

/-! ## What is declared -/

/-- Where the replacement of an entity is. -/
inductive EntityValue where
  | internal (text : Text)
  | external
  deriving DecidableEq, Repr

/-- An attribute of an element type. The spaces in the value of a tokenized
    attribute only separate its tokens. -/
structure AttributeDeclaration where
  element : QName
  name : QName
  isTokenized : Bool
  fallback : Option Text
  deriving DecidableEq, Repr

/-- What a document declares. -/
structure Declarations where
  /-- Does the document say that it depends on no other? -/
  standalone : Bool := false
  entities : List (Text × EntityValue) := []
  attributes : List AttributeDeclaration := []
  /-- Does the declaration refer to declarations elsewhere? -/
  hasUnread : Bool := false
  /-- Has nothing unread come before, so that declarations count? -/
  counts : Bool := true
  deriving DecidableEq, Repr

namespace Declarations

/-! ## Values of attributes -/

/-- The text of a value, in which entities inside entities are replaced up to a
    depth. An entity that is not declared counts as empty if it may be declared
    elsewhere. -/
def expandUpTo? (decls : Declarations) : Nat → List Piece → Option Text
  | depth, pieces => do
    let parts ← pieces.mapM fun
      | .character c => some [c]
      | .entity name =>
        match predefined? name with
        | some c => some [c]
        | none =>
          match depth, decls.entities.lookup name with
          | depth + 1, some (.internal text) => do
            expandUpTo? decls depth (← readValue?.valuePieces? text)
          | _, none => if decls.hasUnread && !decls.standalone then some [] else none
          | _, _ => none
    some parts.flatten

/-- The text of a value. Entities that do not contain themselves are nested at most
    as deep as their number. -/
def expand? (decls : Declarations) (pieces : List Piece) : Option Text :=
  decls.expandUpTo? (decls.entities.length + 1) pieces

/-- The tokens of a value with one space between two of them. -/
def collapse (value : Text) : Text :=
  Text.joinWith " " ((Text.splitAll ' ' value).filter (· ≠ []))

/-- The declaration of an attribute. -/
def attribute? (decls : Declarations) (element name : QName) : Option AttributeDeclaration :=
  decls.attributes.find? fun a => a.element = element ∧ a.name = name

/-! ## Entities and notations -/

/-- May `c` stand in a public identifier? -/
def isPublicChar (c : Char) : Bool :=
  c.isAlphanum || " \n\r-'()+,./:=?;!*#@$_%".toList.contains c

/-- Do the parts say where something outside the document is? The given parts may
    follow. -/
def isExternal (parts following : List Part) : Bool :=
  match parts with
  | .name ⟨none, word⟩ :: .quoted first :: rest =>
    if word = "SYSTEM" then rest = following
    else if word = "PUBLIC" then
      first.all isPublicChar &&
        match rest with
        | .quoted _ :: rest => rest = following
        | _ => false
    else false
  | _ => false

/-- The entity that a declaration adds. -/
def addEntity? (decls : Declarations) (parts : List Part) : Option Declarations :=
  match parts with
  | [.mark '%', .name ⟨none, _⟩, .quoted raw] =>
    if decls.counts then (entityText? raw).map fun _ => decls else some decls
  | .mark '%' :: .name ⟨none, _⟩ :: rest => if isExternal rest [] then some decls else none
  | [.name ⟨none, name⟩, .quoted raw] =>
    if decls.counts then do
      let text ← entityText? raw
      some { decls with entities := decls.entities ++ [(name, .internal text)] }
    else some decls
  | .name ⟨none, name⟩ :: rest =>
    let unparsed := match rest.getLast? with
      | some (.name ⟨none, notation_⟩) => isExternal rest [.ofWord "NDATA", .ofWord notation_]
      | _ => false
    if isExternal rest [] || unparsed then
      if decls.counts then
        some { decls with entities := decls.entities ++ [(name, .external)] }
      else some decls
    else none
  | _ => none

/-- Is this the form of the declaration of a notation? -/
def isNotation (parts : List Part) : Bool :=
  match parts with
  | [.name ⟨none, _⟩, .name ⟨none, word⟩, .quoted identifier] =>
    word = "SYSTEM" || (word = "PUBLIC" && identifier.all isPublicChar)
  | .name ⟨none, _⟩ :: rest => isExternal rest []
  | _ => false

/-! ## Elements -/

/-- Is this a content model, read from a place where an item must come
    (`wantsItem`) or from behind one? The stack holds, for each group that is
    open, the mark that separates its items, once there is one. -/
def isModel : Bool → List (Option Char) → List Part → Bool
  | _, _, [] => false
  | true, groups, part :: rest =>
    match part with
    | .mark '(' => isModel true (none :: groups) rest
    | .name _ => isModel false groups rest
    | .counted _ => isModel false groups rest
    | _ => false
  | false, [], _ => false
  | false, group :: groups, part :: rest =>
    match part with
    | .mark ')' => if groups.isEmpty then rest.isEmpty else isModel false groups rest
    | .countedClose _ => if groups.isEmpty then rest.isEmpty else isModel false groups rest
    | .mark c =>
      (c = ',' || c = '|') && (group.isNone || group = some c) &&
        isModel true (some c :: groups) rest
    | _ => false

/-- Is this the rest of a model of characters mixed with elements? -/
def isMixed : List Part → Bool
  | [.countedClose '*'] => true
  | .mark '|' :: .name _ :: rest => isMixed rest
  | _ => false

/-- Is this the form of the declaration of an element? -/
def isElement (parts : List Part) : Bool :=
  match parts with
  | [.name _, .name ⟨none, word⟩] => word = "EMPTY" || word = "ANY"
  | [.name _, .mark '(', .keyword word, .mark ')'] => word = "PCDATA"
  | .name _ :: .mark '(' :: .keyword word :: rest => word = "PCDATA" && isMixed rest
  | .name _ :: .mark '(' :: rest => isModel true [none] rest
  | _ => false

/-! ## Attributes -/

/-- The types of attributes that are written as one word. -/
def attributeTypes : List Text :=
  ["CDATA", "ID", "IDREF", "IDREFS", "ENTITY", "ENTITIES", "NMTOKEN", "NMTOKENS"]

/-- The parts behind a list of alternatives; `plainOnly` asks for names without a
    prefix. -/
def afterAlternatives? (plainOnly : Bool) : List Part → Option (List Part)
  | item :: .mark c :: rest =>
    let isItem := match item with
      | .name ⟨spacePrefix, _⟩ => !plainOnly || spacePrefix.isNone
      | .token _ => !plainOnly
      | _ => false
    if !isItem then none
    else if c = ')' then some rest
    else if c = '|' then afterAlternatives? plainOnly rest
    else none
  | _ => none

/-- Is the type of an attribute tokenized, and the parts behind the type. -/
def readType? (parts : List Part) : Option (Bool × List Part) :=
  match parts with
  | .name ⟨none, word⟩ :: rest =>
    if word = "NOTATION" then
      match rest with
      | .mark '(' :: rest => (afterAlternatives? true rest).map (true, ·)
      | _ => none
    else if attributeTypes.contains word then some (word ≠ "CDATA".toList, rest)
    else none
  | .mark '(' :: rest => (afterAlternatives? false rest).map (true, ·)
  | _ => none

/-- Whether an attribute has a default value as it is written, and the parts behind
    that. -/
def readFallback? (parts : List Part) : Option (Option Text × List Part) :=
  match parts with
  | .quoted raw :: rest => some (some raw, rest)
  | .keyword word :: rest =>
    if word = "IMPLIED" ∨ word = "REQUIRED" then some (none, rest)
    else match rest with
      | .quoted raw :: rest => if word = "FIXED" then some (some raw, rest) else none
      | _ => none
  | _ => none

/-- The declarations with that of an attribute; the first declaration of an
    attribute counts. -/
def addAttribute (decls : Declarations) (declared : AttributeDeclaration) : Declarations :=
  if (decls.attribute? declared.element declared.name).isSome then decls
  else { decls with attributes := decls.attributes ++ [declared] }

/-- The attributes that a declaration adds to an element. The first argument bounds
    their number. -/
def addAttributes? (element : QName) : Nat → Declarations → List Part → Option Declarations
  | _, decls, [] => some decls
  | bound + 1, decls, .name name :: rest => do
    let (isTokenized, rest) ← readType? rest
    let (raw, rest) ← readFallback? rest
    if decls.counts then
      let fallback ← (match raw with
        | none => some none
        | some raw => do
          let value ← decls.expand? (← readValue?.valuePieces? raw)
          some (some (if isTokenized then collapse value else value)))
      let decls := decls.addAttribute ⟨element, name, isTokenized, fallback⟩
      addAttributes? element bound decls rest
    else addAttributes? element bound decls rest
  | _, _, _ => none

/-! ## The document type declaration -/

/-- The declarations with those of one more declaration. -/
def add? (decls : Declarations) (kind : Text) (parts : List Part) : Option Declarations :=
  if kind = "ENTITY" then decls.addEntity? parts
  else if kind = "ATTLIST" then
    match parts with
    | .name element :: rest => addAttributes? element rest.length decls rest
    | _ => none
  else if kind = "ELEMENT" then if isElement parts then some decls else none
  else if kind = "NOTATION" then if isNotation parts then some decls else none
  else none

/-- The declarations between brackets, given the text behind the opening one, and
    the text behind the closing one. The first argument bounds their number. -/
def readSubset? : Nat → Declarations → Text → Option (Declarations × Text)
  | 0, _, _ => none
  | bound + 1, decls, text =>
    match skipSpace text with
    | ']' :: rest => some (decls, rest)
    | '%' :: rest => do
      let (_, rest) ← readName? rest
      match rest with
      | ';' :: rest =>
        readSubset? bound
          { decls with hasUnread := true, counts := decls.standalone } rest
      | _ => none
    | '<' :: '?' :: rest => do readSubset? bound decls (← afterInstruction? rest)
    | '<' :: '!' :: '-' :: '-' :: rest => do readSubset? bound decls (← afterComment? rest)
    | '<' :: '!' :: rest => do
      let (kind, rest) ← readName? rest
      if rest.head?.any isSpace then
        let (parts, _, rest) ← Part.readUntil? ['>'] (rest.length + 1) rest
        readSubset? bound (← decls.add? kind parts) rest
      else none
    | _ => none

/-- The document type declaration, given the text behind `<!DOCTYPE`, and the text
    behind the declaration. -/
def readDocumentType? (decls : Declarations) (text : Text) : Option (Declarations × Text) := do
  if text.head?.any isSpace then
    let (parts, last, rest) ← Part.readUntil? ['>', '['] (text.length + 1) text
    match parts with
    | .name _ :: source =>
      let decls ← (if source = [] then some decls
        else if isExternal source [] then some { decls with hasUnread := true }
        else none)
      if last = '>' then some (decls, rest)
      else
        let (decls, rest) ← readSubset? (rest.length + 1) decls rest
        match skipSpace rest with
        | '>' :: rest => some (decls, rest)
        | _ => none
    | _ => none
  else none

end Declarations

end EpcTag.Xml
