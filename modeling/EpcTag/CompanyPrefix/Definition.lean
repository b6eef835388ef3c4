-- SUMMARY: Company prefix tables in XML.
import EpcTag.CompanyPrefix
import EpcTag.Traced
import EpcTag.Xml.Source

/-!
# Company prefix tables in XML

A table is the row of the elements `entry` of a document, wherever they stand. An
entry has an index and a company prefix as its attributes.
-/

namespace EpcTag.CompanyPrefixTable

open Xml (Element Source)

/-- The table with the entry that an element stands for. -/
def addElement (table : CompanyPrefixTable) (entry : Element) : Except Error CompanyPrefixTable :=
  match entry.get? "index", entry.get? "companyPrefix" with
  | some index, some companyPrefix => table.add (.text index) companyPrefix
  | _, _ => .error (.definition .incompleteEntry)

/-- The company prefix table of a source. -/
def parse (source : Source) : Traced CompanyPrefixTable := do
  let element ← Traced.ofExcept source.element
  let table ← Traced.ofExcept ((element.descendantsNamed "entry").foldlM addElement {})
  Traced.record (.tableLoaded table.size)
  pure table

end EpcTag.CompanyPrefixTable
