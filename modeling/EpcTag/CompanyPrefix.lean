-- SUMMARY: The table of company prefixes: their indexes in both directions, and the known prefixes.
import EpcTag.Context
import EpcTag.Error
import EpcTag.PrefixTree

/-!
# Company prefixes

A tag of 64 bits holds the index of a company prefix instead of the prefix
itself. The table leads from an index to its prefix and from a prefix to its
index, and it knows the prefixes that can start a GS1 key.
-/

namespace EpcTag

/-- Company prefixes by index, indexes by company prefix, and the tree of all
    known prefixes. An index is the text of an integer without leading zeros. -/
structure CompanyPrefixTable where
  prefixes : Pairs Text Text := []
  indexes : Pairs Text Text := []
  known : PrefixTree Text := PrefixTree.empty

namespace CompanyPrefixTable

/-- The name of the column of company prefixes. -/
def prefixColumn : Text := "companyprefix"

/-- The name of the column of indexes. -/
def indexColumn : Text := "companyprefixindex"

/-- An index as the table holds it. -/
def normalIndex (index : Scalar) : Except Error Text := index.toInteger.map Text.ofInt

/-- The table that also knows a company prefix. -/
def addKnown (table : CompanyPrefixTable) (companyPrefix : Text) : CompanyPrefixTable :=
  { table with known := table.known.insert companyPrefix companyPrefix }

/-- The table with an entry for an index that is in normal form. -/
def addEntry (table : CompanyPrefixTable) (index companyPrefix : Text) : CompanyPrefixTable :=
  addKnown { table with
    prefixes := table.prefixes.insert index companyPrefix
    indexes := table.indexes.insert companyPrefix index } companyPrefix

/-- The table with an entry for an index. -/
def add (table : CompanyPrefixTable) (index : Scalar) (companyPrefix : Text) :
    Except Error CompanyPrefixTable := do
  pure (table.addEntry (← normalIndex index) companyPrefix)

/-- The table of the given indexes and company prefixes, added in their order. -/
def ofEntries (entries : List (Scalar × Text)) : Except Error CompanyPrefixTable :=
  entries.foldlM (fun table (index, companyPrefix) => table.add index companyPrefix) {}

/-- The company prefix of an index. -/
def companyPrefix? (table : CompanyPrefixTable) (index : Scalar) : Except Error (Option Text) := do
  pure (table.prefixes.get? (← normalIndex index))

/-- The index of a company prefix. -/
def index? (table : CompanyPrefixTable) (companyPrefix : Text) : Option Text :=
  table.indexes.get? companyPrefix

/-- The answer to a look-up between the two columns. An index is looked up only if
    it is a decimal number. -/
def find? (table : CompanyPrefixTable) (input output : Text) (value : Scalar) :
    Except Error (Option Text) :=
  if input = indexColumn ∧ output = prefixColumn then do
    let index ← value.operand
    if Numeral.isDecimal index then table.companyPrefix? (.text index) else .ok none
  else if input = prefixColumn ∧ output = indexColumn then .ok (value.text?.bind table.index?)
  else .error (.lookup (.columns input output))

/-- The answer to a look-up between the two columns, or the error that there is
    none. -/
def lookup (table : CompanyPrefixTable) (input output : Text) (value : Scalar) :
    Except Error Text := do
  match ← table.find? input output value with
  | some answer => .ok answer
  | none => .error (.lookup (.noPrefixEntry input output value))

/-- The length of the longest known company prefix that starts some digits. -/
def prefixLength? (table : CompanyPrefixTable) (digits : Text) : Option Nat :=
  (table.known.longest digits).head?.map List.length

/-- The number of indexes. -/
def size (table : CompanyPrefixTable) : Nat := table.prefixes.length

end CompanyPrefixTable

end EpcTag
