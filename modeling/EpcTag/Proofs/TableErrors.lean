-- SUMMARY: What reading a company prefix table ends with: a table, a definition error, or a fault after an encoding that cannot be read or an index that is no integer.
import EpcTag.CompanyPrefix.Definition
import EpcTag.Proofs.Text

/-!
# Company prefix tables with errors

A document that is not well-formed and an entry that lacks an attribute are reported as
definition errors. Two *lapses* are not: the document declares an encoding that cannot be
read, or an entry has an index that is no integer. The entries are read in their order,
and the first one that cannot be read decides.
-/

namespace EpcTag

/-! ## Documents -/

namespace Xml

/-- A document without the mark that it may start with. -/
def unmarked : Text → Text
  | c :: rest => if c = byteOrderMark then rest else c :: rest
  | [] => []

/-- The document names its encoding so. -/
def Source.Declares (source : Source) (name : Text) : Prop :=
  ∃ declaration rest, XmlDeclaration.read? (unmarked source.document) = some (declaration, rest) ∧
    declaration.encoding = some name

theorem Encoding.ofName_eq_error {name : Text} {error : ReadError} (h : ofName name = .error error) :
    error = .malformed ∨ error = .unknownEncoding name ∨ error = .wideEncoding name := by
  unfold ofName at h
  dsimp only at h
  split at h
  · cases h
  · split at h
    · cases h
      exact .inl rfl
    · split at h
      · cases h
      · split at h <;> cases h
        · exact .inr (.inr rfl)
        · exact .inr (.inl rfl)

/-- The encoding of a document; one that is not named is that of the text itself. -/
def XmlDeclaration.readEncoding (declaration : XmlDeclaration) : Except ReadError Encoding :=
  match declaration.encoding with
  | none => .ok .utf8
  | some name => Encoding.ofName name

/-- The declaration of a document comes first, then its encoding, then the element. -/
theorem parse_eq (document : Text) :
    parse document = match XmlDeclaration.read? (unmarked document) with
      | none => .error .malformed
      | some (declaration, rest) => declaration.readEncoding.bind fun encoding =>
        match (encoding.reread? rest).bind fun text =>
          readBody? declaration.standalone (Text.normalLines text) with
        | some element => .ok element
        | none => .error .malformed := by
  cases document <;> rfl

/-- The form of a document apart, reading it fails exactly if it names an encoding that
    cannot be read. -/
theorem parse_eq_error_iff {source : Source} {error : ReadError} (herror : error ≠ .malformed) :
    parse source.document = .error error ↔
      ∃ name, source.Declares name ∧ Encoding.ofName name = .error error := by
  rw [parse_eq]
  constructor
  · intro h
    split at h
    · cases h
      exact absurd rfl herror
    · next declaration rest hread =>
      rcases bind_eq_error_iff.mp h with h | ⟨encoding, -, h⟩
      · unfold XmlDeclaration.readEncoding at h
        split at h
        · cases h
        · next name hname => exact ⟨name, ⟨declaration, rest, hread, hname⟩, h⟩
      · split at h <;> cases h
        exact absurd rfl herror
  · rintro ⟨name, ⟨declaration, rest, hread, hname⟩, hencoding⟩
    rw [hread]
    refine bind_eq_error_iff.mpr (.inl ?_)
    rw [XmlDeclaration.readEncoding, hname]
    exact hencoding

/-- The faults of a document that names an encoding which cannot be read. -/
inductive Source.Unreadable (source : Source) : Fault → Prop
  | unknownEncoding {name : Text} (hname : source.Declares name)
      (h : Encoding.ofName name = .error (.unknownEncoding name)) :
      Unreadable source (.unknownEncoding name)
  | wideEncoding {name : Text} (hname : source.Declares name)
      (h : Encoding.ofName name = .error (.wideEncoding name)) :
      Unreadable source (.wideEncoding name)

/-- A document that gives no element is reported, or it names an encoding that cannot be
    read. -/
theorem Source.element_eq_error {source : Source} {error : Error}
    (h : source.element = .error error) :
    error = .definition (.unreadableXml source.name) ∨
      ∃ fault, error = .fault fault ∧ source.Unreadable fault := by
  unfold element at h
  split at h
  · cases h
  · cases h
    exact .inl rfl
  · next name hparse =>
    cases h
    obtain ⟨declared, hdeclared, hname⟩ := (parse_eq_error_iff (by simp)).mp hparse
    obtain h | h | h := Encoding.ofName_eq_error hname <;> cases h
    exact .inr ⟨_, rfl, .unknownEncoding hdeclared hname⟩
  · next name hparse =>
    cases h
    obtain ⟨declared, hdeclared, hname⟩ := (parse_eq_error_iff (by simp)).mp hparse
    obtain h | h | h := Encoding.ofName_eq_error hname <;> cases h
    exact .inr ⟨_, rfl, .wideEncoding hdeclared hname⟩

theorem Source.Unreadable.element_eq {source : Source} {fault : Fault}
    (h : source.Unreadable fault) : source.element = .error (.fault fault) := by
  cases h with
  | unknownEncoding hname h =>
    rw [element, (parse_eq_error_iff (by simp)).mpr ⟨_, hname, h⟩]
  | wideEncoding hname h =>
    rw [element, (parse_eq_error_iff (by simp)).mpr ⟨_, hname, h⟩]

end Xml

/-! ## Entries -/

namespace CompanyPrefixTable

open Xml (Element Source)

/-- An entry with both its attributes, the index an integer. -/
def Readable (entry : Element) : Prop :=
  ∃ index companyPrefix n, entry.get? "index" = some index ∧
    entry.get? "companyPrefix" = some companyPrefix ∧ Numeral.readInteger? 10 index = some n

/-- An entry with both its attributes, the index no integer. -/
def Unnumbered (entry : Element) (index : Text) : Prop :=
  entry.get? "index" = some index ∧ (∃ text, entry.get? "companyPrefix" = some text) ∧
    Numeral.readInteger? 10 index = none

theorem Readable.exists_addElement {entry : Element} (h : Readable entry)
    (table : CompanyPrefixTable) : ∃ next, table.addElement entry = .ok next := by
  obtain ⟨index, companyPrefix, n, hindex, hcompany, hinteger⟩ := h
  have hnormal : normalIndex (.text index) = .ok (Text.ofInt n) := by
    rw [normalIndex, Scalar.toInteger, hinteger]
    rfl
  refine ⟨table.addEntry (Text.ofInt n) companyPrefix, ?_⟩
  simp only [addElement, hindex, hcompany, add, hnormal]
  rfl

theorem Unnumbered.addElement_eq {entry : Element} {index : Text} (h : Unnumbered entry index)
    (table : CompanyPrefixTable) :
    table.addElement entry = .error (.fault (.invalidLiteral 10 index)) := by
  obtain ⟨hindex, ⟨companyPrefix, hcompany⟩, hinteger⟩ := h
  have hnormal : normalIndex (.text index) = .error (.fault (.invalidLiteral 10 index)) := by
    rw [normalIndex, Scalar.toInteger, hinteger]
    rfl
  simp only [addElement, hindex, hcompany, add, hnormal]
  rfl

/-- An entry can be read, or it lacks an attribute and is reported, or its index is no
    integer. -/
theorem readable_cases (entry : Element) :
    Readable entry ∨
      (∀ table : CompanyPrefixTable,
        table.addElement entry = .error (.definition .incompleteEntry)) ∨
      ∃ index, Unnumbered entry index := by
  cases hindex : entry.get? "index" with
  | none => exact .inr (.inl fun table => by simp only [addElement, hindex])
  | some index =>
    cases hcompany : entry.get? "companyPrefix" with
    | none => exact .inr (.inl fun table => by simp only [addElement, hindex, hcompany])
    | some companyPrefix =>
      cases hinteger : Numeral.readInteger? 10 index with
      | none => exact .inr (.inr ⟨index, hindex, ⟨companyPrefix, hcompany⟩, hinteger⟩)
      | some n => exact .inl ⟨index, companyPrefix, n, hindex, hcompany, hinteger⟩

/-- Entries that can be read are all read. -/
theorem exists_foldlM_addElement {entries : List Element} (h : ∀ entry ∈ entries, Readable entry)
    (table : CompanyPrefixTable) : ∃ next, entries.foldlM addElement table = .ok next := by
  induction entries generalizing table with
  | nil => exact ⟨table, rfl⟩
  | cons entry entries ih =>
    obtain ⟨next, hnext⟩ := (h entry List.mem_cons_self).exists_addElement table
    obtain ⟨last, hlast⟩ := ih (fun entry hentry => h entry (List.mem_cons_of_mem _ hentry)) next
    rw [List.foldlM_cons]
    exact ⟨last, bind_eq_ok_iff.mpr ⟨next, hnext, hlast⟩⟩

/-- The first entry that is refused ends the reading. -/
theorem foldlM_addElement_eq_error {earlier later : List Element} {entry : Element} {error : Error}
    (hearlier : ∀ entry ∈ earlier, Readable entry)
    (h : ∀ table : CompanyPrefixTable, table.addElement entry = .error error)
    (table : CompanyPrefixTable) :
    (earlier ++ entry :: later).foldlM addElement table = .error error := by
  obtain ⟨next, hnext⟩ := exists_foldlM_addElement hearlier table
  have hstop : (entry :: later).foldlM addElement next = .error error := by
    rw [List.foldlM_cons]
    exact bind_eq_error_iff.mpr (.inl (h next))
  rw [List.foldlM_append]
  exact bind_eq_error_iff.mpr (.inr ⟨next, hnext, hstop⟩)

/-- Either all entries can be read, or there is a first one that cannot. -/
theorem exists_first_unreadable (entries : List Element) :
    (∀ entry ∈ entries, Readable entry) ∨
      ∃ earlier entry later, entries = earlier ++ entry :: later ∧
        (∀ entry ∈ earlier, Readable entry) ∧ ¬ Readable entry := by
  induction entries with
  | nil => exact .inl (by simp)
  | cons entry entries ih =>
    by_cases hentry : Readable entry
    · rcases ih with hall | ⟨earlier, first, later, rfl, hearlier, hfirst⟩
      · exact .inl (List.forall_mem_cons.mpr ⟨hentry, hall⟩)
      · exact .inr ⟨entry :: earlier, first, later, rfl,
          List.forall_mem_cons.mpr ⟨hentry, hearlier⟩, hfirst⟩
    · exact .inr ⟨[], entry, entries, rfl, by simp, hentry⟩

/-! ## Tables -/

/-- The entries of a document, wherever they stand. -/
def Entries (source : Source) (entries : List Element) : Prop :=
  ∃ root, source.element = .ok root ∧ root.descendantsNamed "entry" = entries

/-- The faults that a document can cause when it is read as a table: it names an encoding
    that cannot be read, or the first entry that cannot be read has both its attributes, and
    an index that is no integer. -/
inductive Lapse (source : Source) : Fault → Prop
  | encoding {fault : Fault} (h : source.Unreadable fault) : Lapse source fault
  | index {earlier later : List Element} {entry : Element} {index : Text}
      (hentries : Entries source (earlier ++ entry :: later))
      (hearlier : ∀ entry ∈ earlier, Readable entry) (h : Unnumbered entry index) :
      Lapse source (.invalidLiteral 10 index)

theorem parse_outcome (source : Source) :
    (parse source).outcome = source.element.bind fun root =>
      (root.descendantsNamed "entry").foldlM addElement {} := by
  simp only [parse, Traced.bind_outcome, Traced.ofExcept_outcome, Traced.record_outcome,
    Traced.pure_outcome]
  refine congrArg _ (funext fun root => ?_)
  cases (root.descendantsNamed "entry").foldlM addElement {} <;> rfl

theorem Entries.parse_outcome {source : Source} {entries : List Element}
    (h : Entries source entries) :
    (parse source).outcome = entries.foldlM addElement {} := by
  obtain ⟨root, hroot, rfl⟩ := h
  rw [CompanyPrefixTable.parse_outcome, hroot]
  rfl

theorem Lapse.parse_outcome {source : Source} {fault : Fault} (h : Lapse source fault) :
    (parse source).outcome = .error (.fault fault) := by
  cases h with
  | encoding h =>
    rw [CompanyPrefixTable.parse_outcome, h.element_eq]
    rfl
  | index hentries hearlier h =>
    rw [hentries.parse_outcome]
    exact foldlM_addElement_eq_error hearlier h.addElement_eq _

/-- The entries of a document can all be read, or what is wrong is reported, or the document
    has a lapse. -/
theorem entries_cases (source : Source) :
    (∃ entries, Entries source entries ∧ ∀ entry ∈ entries, Readable entry) ∨
      (∃ cause, (parse source).outcome = .error (.definition cause)) ∨
      ∃ fault, Lapse source fault := by
  cases hroot : source.element with
  | error error =>
    rcases Source.element_eq_error hroot with rfl | ⟨fault, rfl, hfault⟩
    · refine .inr (.inl ⟨.unreadableXml source.name, ?_⟩)
      rw [parse_outcome, hroot]
      rfl
    · exact .inr (.inr ⟨fault, .encoding hfault⟩)
  | ok root =>
    have hentries : Entries source (root.descendantsNamed "entry") := ⟨root, hroot, rfl⟩
    rcases exists_first_unreadable (root.descendantsNamed "entry") with
      hall | ⟨earlier, entry, later, hsplit, hearlier, hentry⟩
    · exact .inl ⟨_, hentries, hall⟩
    · rw [hsplit] at hentries
      rcases readable_cases entry with hreadable | hincomplete | ⟨index, hindex⟩
      · exact absurd hreadable hentry
      · refine .inr (.inl ⟨.incompleteEntry, ?_⟩)
        rw [hentries.parse_outcome]
        exact foldlM_addElement_eq_error hearlier hincomplete _
      · exact .inr (.inr ⟨_, .index hentries hearlier hindex⟩)

/-- A table with a letter as an index. -/
def letterIndex : Source where
  name := "table.xml"
  document := "<GEPC64Table><entry index=\"x\" companyPrefix=\"0614141\"/></GEPC64Table>"

end CompanyPrefixTable

end EpcTag
