-- SUMMARY: The company prefix table: indexes and company prefixes that lead to each other, and when they do.
import EpcTag.Engine.Basic
import EpcTag.Proofs.Numeral

/-!
# Indexes of company prefixes

The table has a map for each direction, and an entry goes into both. An entry that
comes later takes the place of one with the same index or the same company prefix in
one of the maps only, so the maps are inverse to each other as long as the indexes and
the prefixes of all entries are different. After any row of calls that add entries, each
map holds the latest entry of each key, and from this follows after which rows the maps
are inverse to each other.
-/

namespace EpcTag

namespace Pairs

variable {κ α : Type} [DecidableEq κ]

/-- Of the values that are given for a name the latest counts. -/
theorem get?_insertAll_eq_some_iff {values : List (κ × α)} {name : κ} {value : α} :
    (insertAll [] values).get? name = some value ↔
      ∃ earlier later, values = earlier ++ (name, value) :: later ∧
        name ∉ later.map Prod.fst := by
  constructor
  · intro h
    -- from the back, since the last value counts unless it is given for another name
    induction values using List.reverseRecOn with
    | nil => cases h
    | append_singleton values last ih =>
      obtain ⟨key, latest⟩ := last
      rw [insertAll_append] at h
      change ((insertAll [] values).insert key latest).get? name = some value at h
      by_cases hkey : name = key
      · subst hkey
        rw [get?_insert_self] at h
        obtain rfl := Option.some.inj h
        exact ⟨values, [], rfl, by simp⟩
      · rw [get?_insert_of_ne latest hkey] at h
        obtain ⟨earlier, later, rfl, hlater⟩ := ih h
        exact ⟨earlier, later ++ [(key, latest)], by simp, by simpa using ⟨by simpa using hlater, hkey⟩⟩
  · rintro ⟨earlier, later, rfl, hlater⟩
    rw [insertAll_append]
    exact (get?_insertAll_of_not_mem hlater _).trans (get?_insert_self _ name value)

/-- A name that is given values gets one of them, whatever it had before. -/
theorem exists_get?_insertAll_of_mem {values : List (κ × α)} {name : κ}
    (h : name ∈ values.map Prod.fst) (pairs : Pairs κ α) :
    ∃ value, (name, value) ∈ values ∧ (pairs.insertAll values).get? name = some value := by
  induction values generalizing pairs with
  | nil => cases h
  | cons entry values ih =>
    obtain ⟨key, value⟩ := entry
    by_cases hlater : name ∈ values.map Prod.fst
    · obtain ⟨latest, hmem, hget⟩ := ih hlater (pairs.insert key value)
      exact ⟨latest, List.mem_cons_of_mem _ hmem, hget⟩
    · obtain rfl : name = key := by
        rw [List.map_cons, List.mem_cons] at h
        exact h.resolve_right hlater
      exact ⟨value, List.mem_cons_self,
        (get?_insertAll_of_not_mem hlater _).trans (get?_insert_self _ name value)⟩

end Pairs

/-- A scalar that stands for an integer is read as it. -/
theorem Scalar.toInteger_of_integer? {value : Scalar} {n : Int} (h : value.integer? = some n) :
    value.toInteger = .ok n := by
  cases value with
  | null => cases h
  | text text =>
    change Numeral.readInteger? 10 text = _ at h
    rw [toInteger, h]
  | _ =>
    change Except.ok (Option.getD (integer? _) 0) = _
    rw [h]
    rfl

namespace CompanyPrefixTable

variable {table : CompanyPrefixTable} {index companyPrefix : Text}

/-! ## Entries -/

/-- An index and a company prefix lead to each other. -/
def Links (table : CompanyPrefixTable) (index companyPrefix : Text) : Prop :=
  table.prefixes.get? index = some companyPrefix ∧ table.indexes.get? companyPrefix = some index

theorem links_addEntry (table : CompanyPrefixTable) (index companyPrefix : Text) :
    (table.addEntry index companyPrefix).Links index companyPrefix :=
  ⟨Pairs.get?_insert_self _ _ _, Pairs.get?_insert_self _ _ _⟩

/-- An entry stays as long as neither its index nor its prefix comes again. -/
theorem Links.addEntry (h : table.Links index companyPrefix) {index' companyPrefix' : Text}
    (hindex : index ≠ index') (hcompany : companyPrefix ≠ companyPrefix') :
    (table.addEntry index' companyPrefix').Links index companyPrefix :=
  ⟨(Pairs.get?_insert_of_ne _ hindex).trans h.1, (Pairs.get?_insert_of_ne _ hcompany).trans h.2⟩

/-- Entries of different indexes, which fit into `width` bits, and different company
    prefixes of six to twelve digits. -/
structure Indexed (width : Nat) (entries : List (Scalar × Text)) : Prop where
  index : ∀ entry ∈ entries, ∃ n < 2 ^ width, entry.1.integer? = some ((n : Nat) : Int)
  digits : ∀ entry ∈ entries, Numeral.Digits 10 entry.2
  length : ∀ entry ∈ entries, 6 ≤ entry.2.length ∧ entry.2.length ≤ 12
  indexes : (entries.map fun entry => entry.1.integer?).Nodup
  prefixes : (entries.map Prod.snd).Nodup

theorem normalIndex_of_integer? {index : Scalar} {n : Nat} (h : index.integer? = some (n : Int)) :
    normalIndex index = .ok (Text.ofNat n) := by
  rw [normalIndex, Scalar.toInteger_of_integer? h]
  rfl

/-- The table of entries has all of them in both directions. -/
theorem Indexed.exists_ofEntries {width : Nat} {entries : List (Scalar × Text)}
    (h : Indexed width entries) :
    ∃ table, ofEntries entries = .ok table ∧ ∀ entry ∈ entries, ∃ n < 2 ^ width,
      entry.1.integer? = some ((n : Nat) : Int) ∧ table.Links (Text.ofNat n) entry.2 := by
  -- from the back, since the last entry is added to the table of the ones before it
  induction entries using List.reverseRecOn with
  | nil => exact ⟨{}, rfl, by simp⟩
  | append_singleton entries last ih =>
    have hindexes := h.indexes
    have hprefixes := h.prefixes
    rw [List.map_append, List.nodup_append] at hindexes hprefixes
    obtain ⟨table, htable, hlinks⟩ := ih
      { index entry hentry := h.index entry (by simp [hentry])
        digits entry hentry := h.digits entry (by simp [hentry])
        length entry hentry := h.length entry (by simp [hentry])
        indexes := hindexes.1
        prefixes := hprefixes.1 }
    obtain ⟨n, hn, hinteger⟩ := h.index last (by simp)
    refine ⟨table.addEntry (Text.ofNat n) last.2, ?_, fun entry hentry => ?_⟩
    · rw [ofEntries, List.foldlM_append]
      change (ofEntries entries >>= _) = _
      rw [htable]
      change (table.add last.1 last.2 >>= pure) = _
      rw [bind_pure, add, normalIndex_of_integer? hinteger]
      rfl
    · rcases List.mem_append.mp hentry with hentry | hentry
      · obtain ⟨m, hm, hinteger', hlink⟩ := hlinks entry hentry
        refine ⟨m, hm, hinteger', hlink.addEntry ?_ ?_⟩
        · intro heq
          have hsame : m = n := by
            have := congrArg (Numeral.readInteger? 10) heq
            simpa [Numeral.readInteger?_ofNat] using this
          subst hsame
          exact hindexes.2.2 _ (List.mem_map_of_mem hentry) _ (by simp)
            (hinteger'.trans hinteger.symm)
        · exact hprefixes.2.2 _ (List.mem_map_of_mem hentry) _ (by simp)
      · obtain rfl := List.mem_singleton.mp hentry
        exact ⟨n, hn, hinteger, links_addEntry table _ _⟩

/-! ## Look-ups -/

/-- What is looked up for an index is the company prefix that the table has for it. -/
theorem lookup_index_eq_ok_iff {n : Nat} :
    table.lookup indexColumn prefixColumn (.text (Text.ofNat n)) = .ok companyPrefix ↔
      table.prefixes.get? (Text.ofNat n) = some companyPrefix := by
  have hdecimal : Numeral.isDecimal (Text.ofNat n) = true :=
    (Numeral.isDecimal_iff _).mpr
      ⟨Nat.toDigits_ne_nil, Numeral.digits_toDigits (by decide) le_rfl n⟩
  have hindex : normalIndex (.text (Text.ofNat n)) = .ok (Text.ofNat n) :=
    normalIndex_of_integer? (Numeral.readInteger?_ofNat n)
  have hfind : table.find? indexColumn prefixColumn (.text (Text.ofNat n)) =
      .ok (table.prefixes.get? (Text.ofNat n)) := by
    rw [find?, if_pos ⟨rfl, rfl⟩]
    change (if Numeral.isDecimal (Text.ofNat n) = true then _ else _) = _
    rw [if_pos hdecimal, companyPrefix?, hindex]
    rfl
  rw [lookup, hfind]
  cases hfound : table.prefixes.get? (Text.ofNat n) with
  | none => exact ⟨fun h => (by cases h), fun h => (by cases h)⟩
  | some found => exact ⟨fun h => congrArg some (Except.ok.inj h), fun h => by cases h; rfl⟩

/-- The index of a company prefix is looked up. -/
theorem Links.lookup_prefix (h : table.Links index companyPrefix) :
    table.lookup prefixColumn indexColumn (.text companyPrefix) = .ok index := by
  have hfind : table.find? prefixColumn indexColumn (.text companyPrefix) = .ok (some index) := by
    rw [find?, if_neg (by decide), if_pos ⟨rfl, rfl⟩]
    exact congrArg Except.ok h.2
  rw [lookup, hfind]
  rfl

/-! ## Rows of calls -/

/-- The entry that a call to add one makes, unless its index is no integer. -/
def entryOf? (call : Scalar × Text) : Option (Text × Text) :=
  (normalIndex call.1).toOption.map fun index => (index, call.2)

/-- The table after a call to add an entry. A call that fails leaves it as it is. -/
def attempt (table : CompanyPrefixTable) (call : Scalar × Text) : CompanyPrefixTable :=
  match table.add call.1 call.2 with
  | .ok next => next
  | .error _ => table

/-- The table after a row of calls. -/
def afterCalls (calls : List (Scalar × Text)) : CompanyPrefixTable := calls.foldl attempt {}

/-- A company prefix that the table has for an index has that index, and the other way
    round. -/
structure Bidirectional (table : CompanyPrefixTable) : Prop where
  index_of_prefix : ∀ index companyPrefix,
    table.companyPrefix? index = .ok (some companyPrefix) →
      ∃ normal, normalIndex index = .ok normal ∧ table.index? companyPrefix = some normal
  prefix_of_index : ∀ companyPrefix index, table.index? companyPrefix = some index →
    table.companyPrefix? (.text index) = .ok (some companyPrefix)

theorem attempt_of_ok {index : Scalar} {normal : Text} (h : normalIndex index = .ok normal)
    (table : CompanyPrefixTable) (companyPrefix : Text) :
    table.attempt (index, companyPrefix) = table.addEntry normal companyPrefix := by
  have hadd : table.add index companyPrefix = .ok (table.addEntry normal companyPrefix) := by
    rw [add, h]
    rfl
  rw [attempt, hadd]

theorem attempt_of_error {index : Scalar} {error : Error} (h : normalIndex index = .error error)
    (table : CompanyPrefixTable) (companyPrefix : Text) :
    table.attempt (index, companyPrefix) = table := by
  have hadd : table.add index companyPrefix = .error error := by
    rw [add, h]
    rfl
  rw [attempt, hadd]

theorem attempt_maps (table : CompanyPrefixTable) (call : Scalar × Text) :
    (table.attempt call).prefixes = table.prefixes.insertAll (entryOf? call).toList ∧
      (table.attempt call).indexes =
        table.indexes.insertAll ((entryOf? call).toList.map Prod.swap) := by
  obtain ⟨index, companyPrefix⟩ := call
  cases hindex : normalIndex index with
  | error error =>
    rw [attempt_of_error hindex, entryOf?, hindex]
    exact ⟨rfl, rfl⟩
  | ok normal =>
    rw [attempt_of_ok hindex, entryOf?, hindex]
    exact ⟨rfl, rfl⟩

/-- Both maps of the table hold the entries of all calls, the latest for each key. -/
theorem afterCalls_maps (calls : List (Scalar × Text)) :
    (afterCalls calls).prefixes = Pairs.insertAll [] (calls.filterMap entryOf?) ∧
      (afterCalls calls).indexes =
        Pairs.insertAll [] ((calls.filterMap entryOf?).map Prod.swap) := by
  have hrun (table : CompanyPrefixTable) :
      (calls.foldl attempt table).prefixes = table.prefixes.insertAll (calls.filterMap entryOf?) ∧
        (calls.foldl attempt table).indexes =
          table.indexes.insertAll ((calls.filterMap entryOf?).map Prod.swap) := by
    induction calls generalizing table with
    | nil => exact ⟨rfl, rfl⟩
    | cons call calls ih =>
      obtain ⟨hprefixes, hindexes⟩ := table.attempt_maps call
      have hentries : (call :: calls).filterMap entryOf? =
          (entryOf? call).toList ++ calls.filterMap entryOf? := by
        cases hentry : entryOf? call <;> simp [hentry]
      rw [List.foldl_cons, hentries, List.map_append, Pairs.insertAll_append,
        Pairs.insertAll_append, ← hprefixes, ← hindexes]
      exact ih _
  exact hrun {}

theorem normalIndex_eq_ok_iff {index : Scalar} {normal : Text} :
    normalIndex index = .ok normal ↔ ∃ n, index.toInteger = .ok n ∧ Text.ofInt n = normal := by
  rw [normalIndex]
  cases index.toInteger <;> simp [Except.map]

/-- The index of an entry is in normal form. -/
theorem normalIndex_of_mem {calls : List (Scalar × Text)} {index companyPrefix : Text}
    (h : (index, companyPrefix) ∈ calls.filterMap entryOf?) :
    normalIndex (.text index) = .ok index := by
  obtain ⟨call, -, hentry⟩ := List.mem_filterMap.mp h
  obtain ⟨normal, hnormal, heq⟩ := Option.map_eq_some_iff.mp hentry
  obtain ⟨rfl, -⟩ := Prod.mk.inj heq
  obtain ⟨n, -, rfl⟩ := normalIndex_eq_ok_iff.mp (eq_ok_of_toOption hnormal)
  rw [normalIndex, Scalar.toInteger, Numeral.readInteger?_ofInt]
  rfl

theorem companyPrefix?_of_normalIndex {table : CompanyPrefixTable} {index : Scalar} {normal : Text}
    (h : normalIndex index = .ok normal) :
    table.companyPrefix? index = .ok (table.prefixes.get? normal) := by
  rw [companyPrefix?, h]
  rfl

/-- An index leads to the company prefix of the latest entry that has the index. -/
theorem prefixes_afterCalls_iff {calls : List (Scalar × Text)} {index companyPrefix : Text} :
    (afterCalls calls).prefixes.get? index = some companyPrefix ↔
      ∃ earlier later, calls.filterMap entryOf? = earlier ++ (index, companyPrefix) :: later ∧
        index ∉ later.map Prod.fst := by
  rw [(afterCalls_maps calls).1]
  exact Pairs.get?_insertAll_eq_some_iff

/-- A company prefix leads to the index of the latest entry that has the prefix. -/
theorem indexes_afterCalls_iff {calls : List (Scalar × Text)} {index companyPrefix : Text} :
    (afterCalls calls).indexes.get? companyPrefix = some index ↔
      ∃ earlier later, calls.filterMap entryOf? = earlier ++ (index, companyPrefix) :: later ∧
        companyPrefix ∉ later.map Prod.snd := by
  rw [(afterCalls_maps calls).2, Pairs.get?_insertAll_eq_some_iff]
  constructor
  · rintro ⟨earlier, later, hsplit, hlater⟩
    obtain ⟨earlier, rest, hsplit, rfl, hrest⟩ := List.map_eq_append_iff.mp hsplit
    obtain ⟨entry, later, rfl, hentry, rfl⟩ := List.map_eq_cons_iff.mp hrest
    obtain rfl : entry = (index, companyPrefix) := by
      rw [← Prod.swap_swap entry, hentry]
      rfl
    exact ⟨earlier, later, hsplit, by simpa using hlater⟩
  · rintro ⟨earlier, later, hsplit, hlater⟩
    exact ⟨earlier.map Prod.swap, later.map Prod.swap, by simp [hsplit], by simpa using hlater⟩

theorem exists_prefixes_of_mem {calls : List (Scalar × Text)} {earlier later : List (Text × Text)}
    {index : Text} (h : calls.filterMap entryOf? = earlier ++ later)
    (hindex : index ∈ later.map Prod.fst) :
    ∃ companyPrefix, (index, companyPrefix) ∈ later ∧
      (afterCalls calls).prefixes.get? index = some companyPrefix := by
  rw [(afterCalls_maps calls).1, h, Pairs.insertAll_append]
  exact Pairs.exists_get?_insertAll_of_mem hindex _

theorem exists_indexes_of_mem {calls : List (Scalar × Text)} {earlier later : List (Text × Text)}
    {companyPrefix : Text} (h : calls.filterMap entryOf? = earlier ++ later)
    (hcompany : companyPrefix ∈ later.map Prod.snd) :
    ∃ index, (index, companyPrefix) ∈ later ∧
      (afterCalls calls).indexes.get? companyPrefix = some index := by
  rw [(afterCalls_maps calls).2, h, List.map_append, Pairs.insertAll_append]
  have hswapped : companyPrefix ∈ (later.map Prod.swap).map Prod.fst := by simpa using hcompany
  obtain ⟨index, hmem, hget⟩ := Pairs.exists_get?_insertAll_of_mem hswapped _
  exact ⟨index, by simpa using hmem, hget⟩

/-- A table whose indexes are in normal form leads both ways if its maps are inverse to
    each other. -/
theorem bidirectional_iff {table : CompanyPrefixTable}
    (h : ∀ index companyPrefix, table.prefixes.get? index = some companyPrefix ∨
      table.indexes.get? companyPrefix = some index → normalIndex (.text index) = .ok index) :
    table.Bidirectional ↔ ∀ index companyPrefix, table.prefixes.get? index = some companyPrefix ↔
      table.indexes.get? companyPrefix = some index := by
  constructor
  · intro hboth index companyPrefix
    constructor
    · intro hcompany
      -- the look-up puts the index into normal form, which it is in
      have hnormal := h index companyPrefix (.inl hcompany)
      obtain ⟨normal, hnormal', hindex⟩ := hboth.index_of_prefix (.text index) companyPrefix
        (by rw [companyPrefix?_of_normalIndex hnormal, hcompany])
      rw [hnormal] at hnormal'
      cases hnormal'
      exact hindex
    · intro hindex
      have hcompany := hboth.prefix_of_index companyPrefix index hindex
      rw [companyPrefix?_of_normalIndex (h index companyPrefix (.inr hindex))] at hcompany
      exact Except.ok.inj hcompany
  · intro hmaps
    constructor
    · intro index companyPrefix hlookup
      obtain ⟨normal, hnormal, hcompany⟩ := bind_eq_ok_iff.mp hlookup
      exact ⟨normal, hnormal, (hmaps normal companyPrefix).mp (Except.ok.inj hcompany)⟩
    · intro companyPrefix index hindex
      rw [companyPrefix?_of_normalIndex (h index companyPrefix (.inr hindex))]
      exact congrArg Except.ok ((hmaps index companyPrefix).mpr hindex)

/-- The two directions of the table agree exactly if every entry whose index comes again
    has its company prefix come again, and the other way round: an entry takes the place of
    an earlier one in each direction by itself. -/
theorem bidirectional_afterCalls_iff (calls : List (Scalar × Text)) :
    (afterCalls calls).Bidirectional ↔
      ∀ earlier index companyPrefix later,
        calls.filterMap entryOf? = earlier ++ (index, companyPrefix) :: later →
          (index ∈ later.map Prod.fst ↔ companyPrefix ∈ later.map Prod.snd) := by
  -- the indexes of the table are normal ones
  have hnormal (index companyPrefix : Text)
      (h : (afterCalls calls).prefixes.get? index = some companyPrefix ∨
        (afterCalls calls).indexes.get? companyPrefix = some index) :
      normalIndex (.text index) = .ok index := by
    rw [prefixes_afterCalls_iff, indexes_afterCalls_iff] at h
    rcases h with ⟨earlier, later, hsplit, -⟩ | ⟨earlier, later, hsplit, -⟩ <;>
      exact normalIndex_of_mem (by rw [hsplit]; exact List.mem_append_cons_self)
  rw [bidirectional_iff hnormal]
  constructor
  · intro hmaps earlier index companyPrefix later hsplit
    have hafter : calls.filterMap entryOf? = (earlier ++ [(index, companyPrefix)]) ++ later := by
      rw [hsplit, List.append_assoc, List.singleton_append]
    constructor
    · -- Were the prefix not to come again, it would still lead to the index.
      intro hindex
      by_contra hcompany
      have hlinked := (hmaps index companyPrefix).mpr
        (indexes_afterCalls_iff.mpr ⟨earlier, later, hsplit, hcompany⟩)
      obtain ⟨latest, hmem, hlatest⟩ := exists_prefixes_of_mem hafter hindex
      obtain rfl := Option.some.inj (hlinked.symm.trans hlatest)
      exact hcompany (List.mem_map_of_mem hmem)
    · intro hcompany
      by_contra hindex
      have hlinked := (hmaps index companyPrefix).mp
        (prefixes_afterCalls_iff.mpr ⟨earlier, later, hsplit, hindex⟩)
      obtain ⟨latest, hmem, hlatest⟩ := exists_indexes_of_mem hafter hcompany
      obtain rfl := Option.some.inj (hlinked.symm.trans hlatest)
      exact hindex (List.mem_map_of_mem hmem)
  · intro h index companyPrefix
    rw [prefixes_afterCalls_iff, indexes_afterCalls_iff]
    refine exists_congr fun earlier => exists_congr fun later => and_congr_right fun hsplit => ?_
    exact not_congr (h earlier index companyPrefix later hsplit)

/-- Two company prefixes, one after the other under the same index. -/
def reusedIndex : List (Scalar × Text) := [(.text "1", "0614141"), (.text "1", "0037000")]

/-- The first of the two still leads to the index, which leads to the second. -/
theorem not_bidirectional_reusedIndex :
    (afterCalls reusedIndex).index? "0614141" = some "1".toList ∧
      (afterCalls reusedIndex).companyPrefix? (.text "1") = .ok (some "0037000".toList) ∧
      ¬ (afterCalls reusedIndex).Bidirectional := by
  have hindex : (afterCalls reusedIndex).index? "0614141" = some "1".toList := by decide
  have hcompany : (afterCalls reusedIndex).companyPrefix? (.text "1") =
      .ok (some "0037000".toList) := by rfl
  refine ⟨hindex, hcompany, fun h => ?_⟩
  have hback := h.prefix_of_index _ _ hindex
  rw [hcompany] at hback
  exact absurd (Except.ok.inj hback) (by decide)

end CompanyPrefixTable

end EpcTag
