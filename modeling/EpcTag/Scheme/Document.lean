-- SUMMARY: Definition documents: schemes as they are written down, before anything is checked.
import EpcTag.Scalar

/-!
# Definition documents

A definition document describes one scheme. Each of its parts is a record of
attributes; an attribute may be missing, and one that is there holds a scalar of
any sort. Where a document lists parts, there may be a scalar in place of the
list. Nothing in a document is checked before it is built.
-/

namespace EpcTag

/-- An attribute of a document: missing, or there with a value. -/
abbrev Attribute := Option Scalar

/-- The parts that a document lists; `none` if it has something else there. A list
    that is missing is empty. -/
abbrev Parts (α : Type) := Option (List α)

structure FieldDocument where
  name : Attribute := none
  seq : Attribute := none
  length : Attribute := none
  bitLength : Attribute := none
  padChar : Attribute := none
  padDir : Attribute := none
  bitPadDir : Attribute := none
  compaction : Attribute := none
  characterSet : Attribute := none
  decimalMinimum : Attribute := none
  decimalMaximum : Attribute := none
  deriving DecidableEq, Repr

structure RuleDocument where
  type : Attribute := none
  seq : Attribute := none
  newFieldName : Attribute := none
  function : Attribute := none
  tableUrl : Attribute := none
  tableXPath : Attribute := none
  deriving DecidableEq, Repr

structure OptionDocument where
  optionKey : Attribute := none
  pattern : Attribute := none
  grammar : Attribute := none
  fields : Parts FieldDocument := some []
  deriving DecidableEq, Repr

structure LevelDocument where
  type : Attribute := none
  prefixMatch : Attribute := none
  options : Parts OptionDocument := some []
  rules : Parts RuleDocument := some []
  deriving DecidableEq, Repr

structure SchemeDocument where
  name : Attribute := none
  tagLength : Attribute := none
  optionKey : Attribute := none
  levels : Parts LevelDocument := some []
  deriving DecidableEq, Repr

/-- An attribute with the given text. -/
def Attribute.text (value : Text) : Attribute := some (.text value)

/-- An attribute with the given number. -/
def Attribute.number (value : Int) : Attribute := some (.integer value)

end EpcTag
