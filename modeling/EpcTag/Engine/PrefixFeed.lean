-- SUMMARY: Reading company prefixes from the lines of a feed.
import EpcTag.Engine.Basic

/-!
# Company prefix feeds

A feed has one entry in a line: an index and a company prefix, separated by a
comma, or a company prefix alone. Blank lines and comments do not count, and a
line that is neither is skipped with notice. Lines may be given as bytes, which
must be ASCII; a feed is read up to the first line that is not.
-/

namespace EpcTag

/-- A line of a feed, as text or as bytes. -/
inductive FeedLine where
  | text (line : Text)
  | bytes (line : List UInt8)
  deriving DecidableEq, Repr

/-- The text of a line, if it is text or all its bytes are ASCII. -/
def FeedLine.text? : FeedLine → Option Text
  | .text line => some line
  | .bytes line =>
    if line.all (· < 128) then some (line.map fun byte => Char.ofNat byte.toNat) else none

/-- What a line says. -/
inductive FeedEntry where
  /-- The line is blank or a comment. -/
  | nothing
  | malformed (line : Text)
  | known (companyPrefix : Text)
  | indexed (index companyPrefix : Text)
  deriving DecidableEq, Repr

/-- What the text of a line says. Only the first two of its parts are looked at. -/
def FeedEntry.parse (text : Text) : FeedEntry :=
  let line := Text.trim text
  if line.isEmpty ∨ line.head? = some '#' then .nothing
  else
    let parts := (Text.splitAll ',' line).map Text.trim
    if (parts.take 2).all Numeral.isDecimal then
      match parts with
      | index :: companyPrefix :: _ => .indexed index companyPrefix
      | [companyPrefix] => .known companyPrefix
      | [] => .nothing
    else .malformed line

/-- A table after a feed was read into it, with the number of the entries that were
    added. -/
structure FeedRun where
  table : CompanyPrefixTable
  run : Traced Nat

namespace CompanyPrefixTable

/-- Reads lines into a table. `number` is the number of the first line, and `count`
    the number of entries added before. -/
def feedFrom (number count : Nat) (table : CompanyPrefixTable) : List FeedLine → FeedRun
  | [] => ⟨table, do Traced.record (.feedFinished count); pure count⟩
  | line :: rest =>
    match line.text? with
    | none => ⟨table, Traced.fail (.fault .notAscii)⟩
    | some text =>
      match FeedEntry.parse text with
      | .nothing => feedFrom (number + 1) count table rest
      | .malformed line =>
        let after := feedFrom (number + 1) count table rest
        ⟨after.table, do Traced.record (.feedLineSkipped number line); after.run⟩
      | .known companyPrefix =>
        feedFrom (number + 1) (count + 1) (table.addKnown companyPrefix) rest
      | .indexed index companyPrefix =>
        let index := Text.ofNat (Numeral.value 10 index)
        feedFrom (number + 1) (count + 1) (table.addEntry index companyPrefix) rest

/-- Reads the lines of a feed into a table. -/
def feed (table : CompanyPrefixTable) (lines : List FeedLine) : FeedRun :=
  feedFrom 1 0 table lines

end CompanyPrefixTable

/-- The engine after a feed was read into its company prefix table, and the number
    of entries added. -/
def Engine.addCompanyPrefixes (engine : Engine) (lines : List FeedLine) : Engine × Traced Nat :=
  let result := engine.companyPrefixes.feed lines
  ({ engine with companyPrefixes := result.table }, result.run)

end EpcTag
