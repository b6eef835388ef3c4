-- SUMMARY: Output grammars: literals in quotes and names of fields.
import EpcTag.Context
import EpcTag.Traced
import EpcTag.UriEscape
import EpcTag.Text.Blank

/-!
# Grammars

A grammar says how an output is put together. It is a list of tokens separated
by white space: a token in single quotes is copied, and any other token is the
name of a field, whose value takes its place. In a URI the values are escaped.
-/

namespace EpcTag

/-- A piece of a grammar. -/
inductive GrammarPiece where
  | literal (text : Text)
  | field (name : Text)
  deriving DecidableEq, Repr

namespace Grammar

/-! ## Tokens -/

/-- The tokens of a grammar that has at most as many characters as the first
    argument says. A quote that is closed later starts a quoted token, which may
    hold white space; any other visible character starts a token that ends at the
    next white space. -/
def tokensUpTo : Nat → Text → List Text
  | 0, _ => []
  | _, [] => []
  | bound + 1, c :: rest =>
    let word := (c :: rest).takeWhile (!Text.isBlank ·)
    let afterWord := (c :: rest).dropWhile (!Text.isBlank ·)
    if Text.isBlank c then tokensUpTo bound rest
    else if c = '\'' then
      match Text.splitFirst '\'' rest with
      | some (inner, after) => ('\'' :: inner ++ ['\'']) :: tokensUpTo bound after
      | none => word :: tokensUpTo bound afterWord
    else word :: tokensUpTo bound afterWord

/-- The tokens of a grammar. -/
def tokens (grammar : Text) : List Text := tokensUpTo grammar.length grammar

/-- A token as a piece: what stands between its quotes, if it has them, or the
    name of a field. -/
def piece (token : Text) : GrammarPiece :=
  if 2 ≤ token.length ∧ token.head? = some '\'' ∧ token.getLast? = some '\'' then
    .literal (token.drop 1).dropLast
  else .field token

/-- The pieces of a grammar. -/
def pieces (grammar : Text) : List GrammarPiece := (tokens grammar).map piece

/-! ## Rendering -/

/-- What stands for a piece of a grammar: the text of a literal, or the value of a
    field. -/
def renderPiece (grammar : Text) (escaped : Bool) (context : Context) :
    GrammarPiece → Except Error Scalar
  | .literal text => .ok (.text text)
  | .field name =>
    match context.field? name with
    | some value =>
      if escaped then value.subject.map fun text => .text (UriEscape.escape text) else .ok value
    | none => .error (.missingField (.inGrammar name grammar))

/-- The texts that stand for the pieces of a grammar, one after the other. All
    fields must have values before the values are joined. -/
def renderPieces (grammar : Text) (escaped : Bool) (context : Context)
    (pieces : List GrammarPiece) : Except Error Text := do
  let values ← pieces.mapM (renderPiece grammar escaped context)
  pure (Text.join (← values.mapM Scalar.operand))

/-- Are the values of a level of this name escaped? -/
def isEscapedAt (level : Text) : Bool :=
  match LevelType.ofName? level with
  | some type => type.isUri
  | none => false

/-- The output that a grammar describes at the level of the given name, with the
    values of the context for its fields. -/
def render (grammar : Text) (context : Context) (level : Text) : Traced Text := do
  let result ← Traced.ofExcept (renderPieces grammar (isEscapedAt level) context (pieces grammar))
  Traced.record (.grammarRendered grammar result)
  pure result

example : tokens "a\t'b c'd 'e" = ["a".toList, "'b c'".toList, "d".toList, "'e".toList] := by
  decide

example : pieces "'gtin=' gtin" = [.literal "gtin=", .field "gtin"] := by decide

end Grammar

end EpcTag
