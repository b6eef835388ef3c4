-- SUMMARY: The markup of element content, one item after the other.
import EpcTag.Xml.Reference

/-!
# Markup

Content is a row of tags, references to entities and characters. Comments,
instructions and white space leave no trace, and of all other characters only
that there are some: a document is read for its elements and attributes.
-/

namespace EpcTag.Xml

/-- The attributes of a tag as they are written. -/
abbrev WrittenAttributes := List (QName × List Piece)

/-- An item of content. -/
inductive Markup where
  | opening (name : QName) (attributes : WrittenAttributes)
  | empty (name : QName) (attributes : WrittenAttributes)
  | closing (name : QName)
  | reference (entity : Text)
  | characters
  deriving DecidableEq, Repr

/-! ## Comments, instructions and sections -/

/-- The text behind a comment, given the text behind `<!--`. Two hyphens end a
    comment and nothing else. -/
def afterComment? (text : Text) : Option Text := do
  let (body, rest) ← Text.splitAround? "--" text
  match rest with
  | '>' :: rest => if body.all isCharacter then some rest else none
  | _ => none

/-- The name of the instruction that only starts a document. -/
def declarationTarget : Text := "xml"

/-- The text behind an instruction, given the text behind `<?`. Its name is not
    `xml` in any case, and white space stands between the name and the rest. -/
def afterInstruction? (text : Text) : Option Text := do
  let (body, rest) ← Text.splitAround? "?>" text
  let (target, tail) ← readName? body
  if target.map Char.toLower ≠ declarationTarget ∧ (tail.head?.all isSpace) ∧
      tail.all isCharacter then some rest
  else none

/-- What stands behind `<!` at the start of a section of plain characters. -/
def sectionStart : Text := "[CDATA["

/-- The text behind a section of plain characters, given the text behind its
    start. -/
def afterSection? (text : Text) : Option Text := do
  let (body, rest) ← Text.splitAround? "]]>" text
  if body.all isCharacter then some rest else none

/-! ## Tags -/

/-- The value of an attribute with its quotes, and the text behind it. White space
    of any kind counts as a space, and `<` is refused. -/
def readValue? (text : Text) : Option (List Piece × Text) :=
  match text with
  | [] => none
  | quote :: rest =>
    if quote = '"' ∨ quote = '\'' then do
      let (raw, rest) ← Text.splitFirst quote rest
      some (← valuePieces? raw, rest)
    else none
where
  /-- The pieces of a value. -/
  valuePieces? (raw : Text) : Option (List Piece) :=
    if raw.contains '<' then none
    else pieces? (raw.map fun c => if isSpace c then ' ' else c)

/-- The attributes up to the end of a tag, whether the tag is empty, and the text
    behind it. The first argument bounds the number of attributes. -/
def readAttributes? : Nat → Text → Option (WrittenAttributes × Bool × Text)
  | 0, _ => none
  | bound + 1, text =>
    match skipSpace text with
    | '>' :: rest => some ([], false, rest)
    | '/' :: '>' :: rest => some ([], true, rest)
    | start =>
      if text.head?.any isSpace then do
        let (name, rest) ← readQName? start
        match skipSpace rest with
        | '=' :: rest =>
          let (value, rest) ← readValue? (skipSpace rest)
          let (others, isEmpty, rest) ← readAttributes? bound rest
          some ((name, value) :: others, isEmpty, rest)
        | _ => none
      else none

/-- A tag that opens an element, given the text behind `<`, and the text behind the
    tag. -/
def readTag? (text : Text) : Option (Markup × Text) := do
  let (name, rest) ← readQName? text
  let (attributes, isEmpty, rest) ← readAttributes? (rest.length + 1) rest
  some (if isEmpty then .empty name attributes else .opening name attributes, rest)

/-- A tag that closes an element, given the text behind `</`, and the text behind
    the tag. -/
def readClosing? (text : Text) : Option (Markup × Text) := do
  let (name, rest) ← readQName? text
  match skipSpace rest with
  | '>' :: rest => some (.closing name, rest)
  | _ => none

/-! ## Content -/

/-- The items of a text without tags. The end of a section must not stand in it. -/
def Markup.ofRun? (run : Text) : Option (List Markup) := do
  if (Text.splitAround? "]]>" run).isSome then none
  else if run.all isSpace then some []
  else
    let pieces ← pieces? run
    some (.characters :: pieces.filterMap fun
      | .entity name => some (.reference name)
      | .character _ => none)

/-- The items of content that has at most as many characters as the first argument
    says. -/
def Markup.scanUpTo? : Nat → Text → Option (List Markup)
  | _, [] => some []
  | 0, _ => none
  | bound + 1, text =>
    match text with
    | '<' :: '/' :: rest => do
      let (tag, rest) ← readClosing? rest
      some (tag :: (← scanUpTo? bound rest))
    | '<' :: '?' :: rest => do scanUpTo? bound (← afterInstruction? rest)
    | '<' :: '!' :: '-' :: '-' :: rest => do scanUpTo? bound (← afterComment? rest)
    | '<' :: '!' :: rest => do
      let rest ← (if Text.startsWith rest sectionStart then
        afterSection? (rest.drop sectionStart.length) else none)
      some (.characters :: (← scanUpTo? bound rest))
    | '<' :: rest => do
      let (tag, rest) ← readTag? rest
      some (tag :: (← scanUpTo? bound rest))
    | text => do
      let run ← ofRun? (text.takeWhile (· ≠ '<'))
      some (run ++ (← scanUpTo? bound (text.dropWhile (· ≠ '<'))))

/-- The items of some content. -/
def Markup.scan? (text : Text) : Option (List Markup) := scanUpTo? text.length text

example : Markup.scan? "<a b='1'>x<!-- y --></a>" =
    some [.opening (.plain "a") [(.plain "b", [.character '1'])], .characters,
      .closing (.plain "a")] := by decide

end EpcTag.Xml
