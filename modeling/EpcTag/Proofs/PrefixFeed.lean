-- SUMMARY: Feeds of company prefixes: the lines that add an entry, and what a feed leaves in the table up to the first line that is not ASCII.
import EpcTag.Engine.PrefixFeed
import EpcTag.Proofs.Blanks
import EpcTag.Proofs.KnownPrefixes

/-!
# Feeds of company prefixes

A line adds an entry if it is a company prefix, or an index and a company prefix with a comma
between them, each with any blanks around it; what stands behind a second comma does not
matter. All other lines, blank ones and comments among them, add nothing. So a feed leaves
the additions of its lines in their order, and counts them, up to the first line of bytes
that are not ASCII, which ends it with a fault.
-/

namespace EpcTag

/-! ## Numbers with blanks around them -/

namespace Text

variable {text part : Text}

/-- The text is `part` with blanks around it. -/
def InMargins (part text : Text) : Prop :=
  ∃ before after, Blank before ∧ Blank after ∧ text = before ++ (part ++ after)

/-- A number in margins is what a trim leaves. -/
theorem inMargins_iff (h : Numeral.isDecimal part = true) :
    InMargins part text ↔ trim text = part := by
  have hpart : trim part = part := trimBy_eq_self fun c hc =>
    isBlank_of_digit (((Numeral.isDecimal_iff part).mp h).2 c hc)
  constructor
  · rintro ⟨before, after, hbefore, hafter, rfl⟩
    rw [trim_append hbefore hafter, hpart]
  · rintro rfl
    obtain ⟨before, after, hbefore, hafter, htext⟩ := exists_trim text
    exact ⟨before, after, hbefore, hafter, htext⟩

/-- A text that starts with a number in margins starts with a digit when it is trimmed,
    whatever stands behind the number. -/
theorem InMargins.exists_head?_trim (h : InMargins part text)
    (hpart : Numeral.isDecimal part = true) (rest : Text) :
    ∃ c, isAsciiDigit c = true ∧ (trim (text ++ rest)).head? = some c := by
  obtain ⟨before, after, hbefore, -, rfl⟩ := h
  obtain ⟨hne, hdigits⟩ := (Numeral.isDecimal_iff part).mp hpart
  obtain ⟨c, part, rfl⟩ := List.exists_cons_of_ne_nil hne
  have hc := (Numeral.digits_cons.mp hdigits).1
  refine ⟨c, (Numeral.isAsciiDigit_iff c).mpr hc, ?_⟩
  have hhead := head?_trim hbefore (isBlank_of_digit hc) (part ++ (after ++ rest))
  simpa using hhead

end Text

/-! ## Lines -/

namespace FeedEntry

open CompanyPrefixTable (Addition)

variable {text : Text} {addition : Addition}

/-- The addition that an entry asks for. -/
def addition? : FeedEntry → Option Addition
  | .known companyPrefix => some (.known companyPrefix)
  | .indexed index companyPrefix => some (.indexed (.text index) companyPrefix)
  | .nothing | .malformed _ => none

/-- How an addition is written in a line. -/
inductive Written : Addition → Text → Prop
  | known {companyPrefix line : Text} (hcompany : Numeral.isDecimal companyPrefix = true)
      (hline : Text.InMargins companyPrefix line) : Written (.known companyPrefix) line
  | indexed {index companyPrefix first second tail : Text}
      (hindex : Numeral.isDecimal index = true) (hcompany : Numeral.isDecimal companyPrefix = true)
      (hfirst : Text.InMargins index first) (hsecond : Text.InMargins companyPrefix second)
      (htail : tail = [] ∨ tail.head? = some ',') :
      Written (.indexed (.text index) companyPrefix) (first ++ ',' :: (second ++ tail))

theorem isBlank_comma : Text.isBlank ',' = false := by decide

theorem not_mem_of_inMargins {part : Text} (h : Text.InMargins part text)
    (hpart : Numeral.isDecimal part = true) : ',' ∉ text := by
  obtain ⟨before, after, hbefore, hafter, rfl⟩ := h
  have hdigits := ((Numeral.isDecimal_iff part).mp hpart).2
  have hcomma : ',' ∉ part := fun hmem => absurd (hdigits ',' hmem).1 (by decide)
  simp [hbefore.not_mem isBlank_comma, hafter.not_mem isBlank_comma, hcomma]

/-- What a line says that has the given parts between commas. -/
def ofParts (line : Text) (parts : List Text) : FeedEntry :=
  if (parts.take 2).all Numeral.isDecimal then
    match parts with
    | index :: companyPrefix :: _ => .indexed index companyPrefix
    | [companyPrefix] => .known companyPrefix
    | [] => .nothing
  else .malformed line

/-- The blanks around a line need not be taken off before the line is cut. -/
theorem parse_eq (text : Text) :
    parse text =
      if (Text.trim text).isEmpty ∨ (Text.trim text).head? = some '#' then .nothing
      else ofParts (Text.trim text) ((Text.splitAll ',' text).map Text.trim) := by
  rw [parse, Text.map_trim_splitAll_trim isBlank_comma]
  rfl

/-- A line that starts with a digit is neither blank nor a comment. -/
theorem parse_of_head? {c : Char} (hc : Text.isAsciiDigit c = true)
    (hhead : (Text.trim text).head? = some c) :
    parse text = ofParts (Text.trim text) ((Text.splitAll ',' text).map Text.trim) := by
  rw [parse_eq, if_neg]
  rintro (hempty | hcomment)
  · rw [List.isEmpty_iff.mp hempty] at hhead
    cases hhead
  · obtain rfl : c = '#' := Option.some.inj (hhead.symm.trans hcomment)
    exact absurd hc (by decide)

theorem Written.addition?_parse (h : Written addition text) :
    (parse text).addition? = some addition := by
  cases h with
  | @known companyPrefix line hcompany hline =>
    obtain ⟨c, hc, hhead⟩ := hline.exists_head?_trim hcompany []
    rw [List.append_nil] at hhead
    rw [parse_of_head? hc hhead, Text.splitAll_of_not_mem (not_mem_of_inMargins hline hcompany),
      List.map_singleton, (Text.inMargins_iff hcompany).mp hline, ofParts,
      if_pos (by simpa using hcompany)]
    rfl
  | @indexed index companyPrefix first second tail hindex hcompany hfirst hsecond htail =>
    obtain ⟨c, hc, hhead⟩ := hfirst.exists_head?_trim hindex (',' :: (second ++ tail))
    have hcomma := not_mem_of_inMargins hsecond hcompany
    obtain ⟨others, hothers⟩ : ∃ others, Text.splitAll ',' (second ++ tail) = second :: others := by
      rcases htail with rfl | htail
      · exact ⟨[], by rw [List.append_nil, Text.splitAll_of_not_mem hcomma]⟩
      · obtain ⟨rest, rfl⟩ := List.head?_eq_some_iff.mp htail
        exact ⟨_, Text.splitAll_append hcomma rest⟩
    rw [parse_of_head? hc hhead, Text.splitAll_append (not_mem_of_inMargins hfirst hindex), hothers,
      List.map_cons, List.map_cons, (Text.inMargins_iff hindex).mp hfirst,
      (Text.inMargins_iff hcompany).mp hsecond, ofParts, if_pos (by simp [hindex, hcompany])]
    rfl

/-- A line asks for the addition that is written in it. -/
theorem addition?_parse_eq_some_iff : (parse text).addition? = some addition ↔ Written addition text := by
  refine ⟨fun h => ?_, Written.addition?_parse⟩
  rw [parse_eq] at h
  split at h
  · cases h
  unfold ofParts at h
  split at h
  · next hdecimal =>
    cases hsplit : Text.splitAll ',' text with
    | nil => exact absurd hsplit (Text.splitAll_ne_nil ',' text)
    | cons first others =>
      -- with no comma the line is a company prefix, with one there is an index before it
      obtain ⟨-, ⟨rfl, rfl⟩ | ⟨rest, hrest, rfl⟩⟩ := Text.splitAll_eq_cons_iff.mp hsplit
      · have hfirst : Numeral.isDecimal (Text.trim text) = true := by simpa [hsplit] using hdecimal
        simp only [hsplit, List.map_cons, List.map_nil] at h
        cases h
        exact .known hfirst ((Text.inMargins_iff hfirst).mpr rfl)
      · cases others with
        | nil => exact absurd hrest (Text.splitAll_ne_nil ',' rest)
        | cons second others =>
          have hboth : Numeral.isDecimal (Text.trim first) = true ∧
              Numeral.isDecimal (Text.trim second) = true := by simpa [hsplit] using hdecimal
          simp only [hsplit, List.map_cons] at h
          cases h
          have hfirst : Text.InMargins (Text.trim first) first :=
            (Text.inMargins_iff hboth.1).mpr rfl
          have hsecond : Text.InMargins (Text.trim second) second :=
            (Text.inMargins_iff hboth.2).mpr rfl
          obtain ⟨-, ⟨-, rfl⟩ | ⟨tail, -, rfl⟩⟩ := Text.splitAll_eq_cons_iff.mp hrest
          · have hwritten := Written.indexed hboth.1 hboth.2 hfirst hsecond (.inl rfl)
            rwa [List.append_nil] at hwritten
          · exact .indexed hboth.1 hboth.2 hfirst hsecond (.inr rfl)
  · cases h

theorem not_written (h : (parse text).addition? = none) (addition : Addition) :
    ¬ Written addition text := by
  intro hwritten
  rw [hwritten.addition?_parse] at h
  cases h

end FeedEntry

/-! ## Feeds -/

namespace FeedLine

open CompanyPrefixTable (Addition)
open FeedEntry (Written)

/-- How a feed goes: the additions that its lines make, and whether a line stops it that is
    not ASCII. -/
inductive Feeds : List FeedLine → List Addition → Bool → Prop
  | done : Feeds [] [] false
  | stopped {line : FeedLine} {later : List FeedLine} (h : line.text? = none) :
      Feeds (line :: later) [] true
  | skipped {line : FeedLine} {text : Text} {later : List FeedLine} {additions : List Addition}
      {isStopped : Bool} (htext : line.text? = some text) (h : ∀ addition, ¬ Written addition text)
      (hlater : Feeds later additions isStopped) : Feeds (line :: later) additions isStopped
  | added {line : FeedLine} {text : Text} {later : List FeedLine} {addition : Addition}
      {additions : List Addition} {isStopped : Bool} (htext : line.text? = some text)
      (h : Written addition text) (hlater : Feeds later additions isStopped) :
      Feeds (line :: later) (addition :: additions) isStopped

variable {lines : List FeedLine} {additions : List Addition} {isStopped : Bool}

theorem exists_feeds (lines : List FeedLine) : ∃ additions isStopped, Feeds lines additions isStopped := by
  induction lines with
  | nil => exact ⟨[], false, .done⟩
  | cons line later ih =>
    obtain ⟨additions, isStopped, hlater⟩ := ih
    cases htext : line.text? with
    | none => exact ⟨[], true, .stopped htext⟩
    | some text =>
      by_cases h : ∃ addition, Written addition text
      · obtain ⟨addition, h⟩ := h
        exact ⟨addition :: additions, isStopped, .added htext h hlater⟩
      · exact ⟨additions, isStopped, .skipped htext (not_exists.mp h) hlater⟩

/-- A line of bytes above ASCII, and no other, stops a feed. -/
theorem text?_eq_none_iff {line : FeedLine} :
    line.text? = none ↔ ∃ bytes, line = .bytes bytes ∧ ∃ byte ∈ bytes, 128 ≤ byte := by
  cases line with
  | text line => simp [text?]
  | bytes bytes => simp [text?]

theorem Feeds.isStopped_iff (h : Feeds lines additions isStopped) :
    isStopped = true ↔ ∃ line ∈ lines, line.text? = none := by
  induction h with
  | done => simp
  | stopped h => simp [h]
  | skipped htext h hlater ih => simp [htext, ih]
  | added htext h hlater ih => simp [htext, ih]

end FeedLine

namespace CompanyPrefixTable

open FeedEntry (Written)
open FeedLine (Feeds)

variable {number count : Nat} {table : CompanyPrefixTable} {line : FeedLine} {text : Text}
  {lines later : List FeedLine} {addition : Addition} {additions : List Addition} {isStopped : Bool}

theorem normalIndex_of_isDecimal {index : Text} (h : Numeral.isDecimal index = true) :
    normalIndex (.text index) = .ok (Text.ofNat (Numeral.value 10 index)) := by
  obtain ⟨hne, hdigits⟩ := (Numeral.isDecimal_iff index).mp h
  exact normalIndex_of_integer? (Numeral.readInteger?_digits le_rfl hne hdigits)

/-- An addition that is written in a line does not fail, as its index is an integer. -/
theorem exists_added?_of_written (h : Written addition text) :
    ∃ companyPrefix, addition.added? = some companyPrefix := by
  cases h with
  | @known companyPrefix => exact ⟨companyPrefix, rfl⟩
  | @indexed index companyPrefix first second tail hindex =>
    refine ⟨companyPrefix, ?_⟩
    rw [Addition.added?, entryOf?, normalIndex_of_isDecimal hindex]
    rfl

theorem feedFrom_of_stopped (h : line.text? = none) :
    feedFrom number count table (line :: later) = ⟨table, Traced.fail (.fault .notAscii)⟩ := by
  rw [feedFrom, h]

/-- A line with an addition makes it and is counted. -/
theorem feedFrom_of_written (htext : line.text? = some text) (h : Written addition text) :
    feedFrom number count table (line :: later) =
      feedFrom (number + 1) (count + 1) (table.afterAddition addition) later := by
  have hentry := h.addition?_parse
  rw [feedFrom, htext]
  dsimp only
  cases hparse : FeedEntry.parse text with
  | nothing => simp [hparse, FeedEntry.addition?] at hentry
  | malformed rest => simp [hparse, FeedEntry.addition?] at hentry
  | known companyPrefix =>
    obtain rfl : Addition.known companyPrefix = addition := by
      simpa [hparse, FeedEntry.addition?] using hentry
    rfl
  | indexed index companyPrefix =>
    obtain rfl : Addition.indexed (.text index) companyPrefix = addition := by
      simpa [hparse, FeedEntry.addition?] using hentry
    cases h with
    | indexed hindex =>
      rw [afterAddition, attempt_of_ok (normalIndex_of_isDecimal hindex)]

/-- Any other line is passed over. -/
theorem feedFrom_of_not_written (htext : line.text? = some text)
    (h : ∀ addition, ¬ Written addition text) :
    (feedFrom number count table (line :: later)).table =
        (feedFrom (number + 1) count table later).table ∧
      (feedFrom number count table (line :: later)).run.outcome =
        (feedFrom (number + 1) count table later).run.outcome := by
  have hentry : ∀ addition, (FeedEntry.parse text).addition? ≠ some addition :=
    fun addition heq => h addition (FeedEntry.addition?_parse_eq_some_iff.mp heq)
  rw [feedFrom, htext]
  dsimp only
  cases hparse : FeedEntry.parse text with
  | nothing => exact ⟨rfl, rfl⟩
  | malformed rest => exact ⟨rfl, rfl⟩
  | known companyPrefix => exact absurd (by rw [hparse]; rfl) (hentry (.known companyPrefix))
  | indexed index companyPrefix =>
    exact absurd (by rw [hparse]; rfl) (hentry (.indexed (.text index) companyPrefix))

/-- A feed leaves its additions in the table and ends with their number, unless a line stops
    it. -/
theorem feedFrom_of_feeds (h : Feeds lines additions isStopped) (number count : Nat)
    (table : CompanyPrefixTable) :
    (feedFrom number count table lines).table = additions.foldl afterAddition table ∧
      (feedFrom number count table lines).run.outcome =
        if isStopped then .error (.fault .notAscii) else .ok (count + additions.length) := by
  induction h generalizing number count table with
  | done => exact ⟨rfl, rfl⟩
  | stopped h =>
    rw [feedFrom_of_stopped h]
    exact ⟨rfl, rfl⟩
  | skipped htext h hlater ih =>
    rw [(feedFrom_of_not_written htext h).1, (feedFrom_of_not_written htext h).2]
    exact ih (number + 1) count table
  | @added line text later addition additions isStopped htext h hlater ih =>
    rw [feedFrom_of_written htext h, List.length_cons, Nat.add_comm additions.length,
      ← Nat.add_assoc]
    exact ih (number + 1) (count + 1) (table.afterAddition addition)

theorem exists_added?_of_feeds (h : Feeds lines additions isStopped) :
    ∀ addition ∈ additions, ∃ companyPrefix, addition.added? = some companyPrefix := by
  induction h with
  | done => simp
  | stopped h => simp
  | skipped htext h hlater ih => exact ih
  | added htext h hlater ih => exact List.forall_mem_cons.mpr ⟨exists_added?_of_written h, ih⟩

end CompanyPrefixTable

namespace Engine

open CompanyPrefixTable (Addition afterAddition)
open FeedLine (Feeds)

/-- An engine without schemes. -/
def bare : Engine where
  schemes := []
  index := LevelIndex.ofSchemes []
  companyPrefixes := {}
  tables := []
  validator := {}

/-- A feed with an accent in a comment, which is not written in ASCII. -/
def accentedLines : List FeedLine :=
  [.text "# index,prefix\n", .text " 158 ,\t0073796,x\n", .text "0037000;\n",
    .bytes [0x30, 0x30, 0x33, 0x37, 0x30, 0x30, 0x30, 0x0A], .bytes [0x23, 0xC3, 0xA9, 0x0A],
    .text "0614141\n"]

end Engine

end EpcTag
