-- SUMMARY: Tags in hexadecimal text: which leading bits are dropped, and that bits written in hexadecimal are converted as before.
import EpcTag.Engine.Gs1Keys
import EpcTag.Proofs.BinaryOutput
import EpcTag.Proofs.Hexadecimal

/-!
# Tags in hexadecimal text

A hexadecimal text stands for a multiple of four bits, so leading bits are dropped
until the rest is a tag. Bits are a tag only if their number is the tag length of a
scheme, since the binary options of all schemes match nothing of another length.
The tag lengths are 64, 96 and 198, so either no bits are dropped or exactly two. What
the two bits are is not looked at.
-/

namespace EpcTag

/-! ## Bits of another length -/

namespace TagForm

variable {Place : Type} {form : TagForm Place} {parts : Place → List Part} {place : Place}
  {bits : Text}

/-- No template reads bits of another length than that of the tags. -/
theorem Fills.read?_eq_none (h : form.Fills parts) (hplace : place ∈ form.places)
    (hbits : Numeral.Digits 2 bits) (hlen : bits.length ≠ form.tagLength) :
    (form.binary.template place).read? bits = none := by
  refine Option.eq_none_iff_forall_ne_some.mpr fun captures hread => hlen ?_
  obtain ⟨hfits, hvalue⟩ :=
    Template.text_of_read?_digits (h.follows place hplace).separated hbits hread
  rw [h.slots place hplace] at hfits
  have hlength := (h.isTag hplace hfits).length
  rw [← hvalue] at hlength
  exact Int.ofNat.inj hlength

/-- Bits of another length than that of the tags match no option. -/
theorem Fills.read_of_length (h : form.Fills parts) {engine : Engine} {inputLevel : Option Text}
    {hint : Scalar} {params : Params} (hbits : Numeral.Digits 2 bits)
    (hlen : bits.length ≠ form.tagLength)
    (hresolve : (engine.index.resolve (Engine.plainValue bits) hint inputLevel).outcome =
      .ok ⟨form.scheme, form.level form.binary⟩) :
    engine.read bits inputLevel hint params =
      .error (.noMatch (.noOption form.name .binary bits)) := by
  have hself : (form.level form.binary).type.selfDescribing = true :=
    congrArg LevelType.selfDescribing h.type
  have hselect (context : Context) : Engine.select form.scheme (form.level form.binary) bits
      context = .error (.noMatch (.noOption form.name form.binary.type bits)) :=
    Engine.select_of_unread hself rfl h.follows fun other hother =>
      h.read?_eq_none hother hbits hlen
  rw [Engine.plainValue_of_digits hbits] at hresolve
  simp only [Engine.read, Engine.plainValue_of_digits hbits, hresolve, ok_bind, hselect,
    error_bind, h.type]

end TagForm

namespace Builtin

/-- A level of a built-in scheme is found by its type. -/
theorem level?_type {scheme : Scheme} (hscheme : scheme ∈ schemes) {level : Level}
    (hlevel : level ∈ scheme.levels) : scheme.level? level.type = some level := by
  have htypes : ∀ scheme ∈ schemes, (scheme.levels.map Level.type).Nodup := by decide
  exact Scheme.level?_eq_of_mem (htypes scheme hscheme) hlevel

/-- The numbers of bits that tags have. -/
def tagLengths : List Nat := [64, 96, 198]

theorem tagLength_mem : ∀ scheme ∈ schemes, ∀ count : Nat, scheme.tagLength = count →
    count ∈ tagLengths := by
  have hlengths : ∀ scheme ∈ schemes, ∃ count ∈ tagLengths, scheme.tagLength = (count : Int) := by
    decide
  intro scheme hscheme count hcount
  obtain ⟨other, hother, heq⟩ := hlengths scheme hscheme
  rwa [Int.ofNat.inj (hcount.symm.trans heq)]

/-- The binary levels are told apart by their starts. -/
theorem prefixFree_binary :
    LevelIndex.PrefixFree ((LevelIndex.entries schemes .binary).map Prod.fst) ∧
      ((LevelIndex.entries schemes .binary).map Prod.fst).Nodup := by decide +kernel

end Builtin

namespace Engine

variable {settings : Settings} {engine : Engine} {params : Params} {bits hex result : Text}

/-- Bits that are not as many as a tag has match nothing. -/
theorem binaryToPureIdentity_of_length (hengine : (Engine.builtin settings).outcome = .ok engine)
    (hbits : Numeral.Digits 2 bits) (hlen : bits.length ∉ Builtin.tagLengths) (params : Params) :
    ∃ cause, (engine.binaryToPureIdentity bits params).outcome = .error (.noMatch cause) := by
  suffices hread : ∃ cause, engine.read bits (some LevelType.binary.name) (.integer bits.length)
      params = .error (.noMatch cause) by
    obtain ⟨cause, hread⟩ := hread
    refine ⟨cause, ?_⟩
    rw [binaryToPureIdentity, convertFromLevel_outcome, hread]
    rfl
  have hindex : engine.index = LevelIndex.ofSchemes Builtin.schemes := by
    rw [engine.index_eq, schemes_of_builtin hengine]
  have hhint : LevelIndex.IsHint (.integer bits.length) := .inr ⟨_, rfl⟩
  have hcases := @LevelIndex.resolve_typed_cases Builtin.schemes (plainValue bits) .binary _ hhint
    Builtin.prefixFree_binary.1 Builtin.prefixFree_binary.2
  rw [← hindex] at hcases
  -- no level starts like the bits, or one alone, and then the bits are too few or too many for it
  rcases hcases with hnone | ⟨⟨start, scheme, level⟩, hentry, hone⟩
  · refine ⟨.noLevel (plainValue bits), ?_⟩
    simp only [read, hnone, error_bind]
  · obtain ⟨hscheme, hlevel, htype, -⟩ := LevelIndex.mem_entries_iff.mp hentry
    obtain ⟨Place, form, parts, rfl, hfills⟩ := Builtin.exists_fills hscheme
    have hfound := Builtin.level?_type hscheme hlevel
    rw [htype, hfills.level?_eq] at hfound
    cases hfound
    refine ⟨_, hfills.read_of_length hbits (fun heq => hlen ?_) hone⟩
    exact Builtin.tagLength_mem _ hscheme _ (congrArg Nat.cast heq.symm)

/-- Bits that are converted to a pure identity URI are as many as a tag has. -/
theorem length_of_binaryToPureIdentity (hengine : (Engine.builtin settings).outcome = .ok engine)
    (hbits : Numeral.Digits 2 bits)
    (h : (engine.binaryToPureIdentity bits params).outcome = .ok result) :
    bits.length ∈ Builtin.tagLengths := by
  by_contra hlen
  obtain ⟨cause, herror⟩ := binaryToPureIdentity_of_length hengine hbits hlen params
  rw [herror] at h
  cases h

/-! ## Dropping bits -/

/-- As many bits are dropped as it takes: with fewer ones dropped nothing matches. -/
theorem dropToPureIdentity_eq_ok_iff {drop more : Nat} :
    (engine.dropToPureIdentity bits params drop more).outcome = .ok result ↔
      ∃ count ≤ more,
        (engine.binaryToPureIdentity (bits.drop (drop + count)) params).outcome = .ok result ∧
        ∀ fewer < count, ∃ cause,
          (engine.binaryToPureIdentity (bits.drop (drop + fewer)) params).outcome =
            .error (.noMatch cause) := by
  induction more generalizing drop with
  | zero =>
    rw [dropToPureIdentity]
    constructor
    · intro h
      exact ⟨0, le_rfl, h, fun _ hlt => absurd hlt (Nat.not_lt_zero _)⟩
    · rintro ⟨count, hcount, h, -⟩
      obtain rfl : count = 0 := Nat.le_zero.mp hcount
      exact h
  | succ more ih =>
    rw [dropToPureIdentity]
    dsimp only
    split
    · next cause hfirst =>
      -- nothing matches, so one more bit is dropped, and every count is one more than from there
      rw [ih]
      constructor
      · rintro ⟨count, hcount, h, hfewer⟩
        refine ⟨count + 1, by omega, by rwa [Nat.add_comm count, ← Nat.add_assoc], ?_⟩
        rintro (_ | fewer) hlt
        · exact ⟨cause, hfirst⟩
        · rw [Nat.add_comm fewer, ← Nat.add_assoc]
          exact hfewer fewer (by omega)
      · rintro ⟨_ | count, hcount, h, hfewer⟩
        · rw [Nat.add_zero, hfirst] at h
          cases h
        · refine ⟨count, by omega, by rwa [Nat.add_assoc, Nat.add_comm 1], fun fewer hlt => ?_⟩
          rw [Nat.add_assoc, Nat.add_comm 1]
          exact hfewer (fewer + 1) (by omega)
    · next hfirst =>
      constructor
      · intro h
        exact ⟨0, Nat.zero_le _, h, fun _ hlt => absurd hlt (Nat.not_lt_zero _)⟩
      · rintro ⟨_ | count, -, h, hfewer⟩
        · exact h
        · obtain ⟨cause, hcause⟩ := hfewer 0 (Nat.succ_pos _)
          exact absurd hcause (hfirst cause)

/-- A hexadecimal text is converted exactly if its bits are, or if they are without the two
    that stand in front of a tag of 198 bits. -/
theorem hexToPureIdentity_eq_ok_iff (hengine : (Engine.builtin settings).outcome = .ok engine) :
    (engine.hexToPureIdentity hex params).outcome = .ok result ↔
      ∃ dropped bits, Bits.ofHex hex = .ok (dropped ++ bits) ∧
        (dropped = [] ∨ dropped.length = 2 ∧ bits.length = 198) ∧
        (engine.binaryToPureIdentity bits params).outcome = .ok result := by
  simp only [hexToPureIdentity, Traced.bind_outcome_eq_ok_iff, Traced.ofExcept_outcome,
    dropToPureIdentity_eq_ok_iff, Nat.zero_add]
  constructor
  · rintro ⟨whole, hwhole, count, hcount, h, -⟩
    obtain ⟨hdigits, hdvd⟩ := Bits.digits_ofHex hwhole
    have hlen := length_of_binaryToPureIdentity hengine (hdigits.drop count) h
    refine ⟨whole.take count, whole.drop count, ?_, ?_, h⟩
    · rw [List.take_append_drop, hwhole]
    · simp only [Builtin.tagLengths, List.length_drop, List.mem_cons, List.not_mem_nil,
        or_false] at hlen
      rw [List.length_take, List.length_drop, List.take_eq_nil_iff]
      omega
  · rintro ⟨dropped, bits, hwhole, hcases, h⟩
    have hfew : dropped.length ≤ 3 := by
      rcases hcases with rfl | ⟨hlen, -⟩
      · exact Nat.zero_le _
      · omega
    refine ⟨_, hwhole, dropped.length, hfew, by rwa [List.drop_left], fun fewer hlt => ?_⟩
    -- with fewer bits dropped there are more than any tag has
    refine binaryToPureIdentity_of_length hengine ((Bits.digits_ofHex hwhole).1.drop fewer) ?_ params
    rcases hcases with rfl | ⟨hlen, hbits⟩
    · cases hlt
    · simp only [Builtin.tagLengths, List.length_drop, List.length_append, List.mem_cons,
        List.not_mem_nil, or_false]
      omega

/-- The bits that are written as a hexadecimal text in upper case are a tag exactly if the
    bits that were dropped are zeros. -/
theorem exists_toHex_iff (hengine : (Engine.builtin settings).outcome = .ok engine)
    {dropped : Text} (hwhole : Bits.ofHex hex = .ok (dropped ++ bits))
    (hcases : dropped = [] ∨ dropped.length = 2 ∧ bits.length = 198)
    (h : (engine.binaryToPureIdentity bits params).outcome = .ok result) :
    (∃ written, Bits.toHex written = .ok (Text.upper hex) ∧
        (engine.binaryToPureIdentity written params).outcome = .ok result) ↔
      ∀ c ∈ dropped, c = '0' := by
  constructor
  · rintro ⟨written, htoHex, hwritten⟩
    obtain ⟨hdigits, hnibbles⟩ := (Bits.toHex_eq_upper_iff hwhole).mp htoHex
    have hlen := length_of_binaryToPureIdentity hengine hdigits hwritten
    rcases hcases with rfl | ⟨htwo, hbits⟩
    · simp
    · -- no other number of bits is a tag that two bits stand in front of
      have hfill : (4 - written.length % 4) % 4 = dropped.length := by
        have htotal := congrArg List.length hnibbles
        simp only [Bits.wholeNibbles, List.length_append, List.length_replicate] at htotal
        simp only [Builtin.tagLengths, List.mem_cons, List.not_mem_nil, or_false] at hlen
        omega
      rw [Bits.wholeNibbles, hfill] at hnibbles
      have hzeros := List.append_inj_left hnibbles (List.length_replicate ..)
      rw [← hzeros]
      exact fun c hc => List.eq_of_mem_replicate hc
  · intro hzeros
    obtain ⟨hdigits, hdvd⟩ := Bits.digits_ofHex hwhole
    refine ⟨bits, (Bits.toHex_eq_upper_iff hwhole).mpr
      ⟨(Numeral.digits_append.mp hdigits).2, ?_⟩, h⟩
    have hfill : (4 - bits.length % 4) % 4 = dropped.length := by
      rw [List.length_append] at hdvd
      rcases hcases with rfl | ⟨htwo, hbits⟩
      · simp only [List.length_nil] at hdvd ⊢
        omega
      · omega
    rw [Bits.wholeNibbles, hfill, ← List.eq_replicate_of_mem hzeros]

end Engine

/-! ## Tags -/

/-- Bits that are a tag are converted to the same pure identity URI if they are written in
    hexadecimal first. -/
theorem hexToPureIdentity_of_toHex {settings : Engine.Settings} {engine : Engine}
    (hengine : (Engine.builtin settings).outcome = .ok engine) {bits result : Text}
    {params : Params} (hbits : Numeral.Digits 2 bits)
    (h : (engine.binaryToPureIdentity bits params).outcome = .ok result) :
    ∃ hex, Bits.toHex bits = .ok hex ∧
      (engine.hexToPureIdentity hex params).outcome = .ok result := by
  have hlen := Engine.length_of_binaryToPureIdentity hengine hbits h
  obtain ⟨hex, hhex, hback⟩ := Bits.exists_toHex hbits
  refine ⟨hex, hhex, (Engine.hexToPureIdentity_eq_ok_iff hengine).mpr ⟨_, bits, hback, ?_, h⟩⟩
  simp only [Builtin.tagLengths, List.mem_cons, List.not_mem_nil, or_false] at hlen
  rcases hlen with hlen | hlen | hlen
  · simp [hlen]
  · simp [hlen]
  · simp [hlen]

/-- The bits of a trade item with a serial number of one character: header, filter,
    partition, company prefix, item reference and the filled up serial number. -/
def itemSerialBits : Text := Text.join
  ["00110110", "001", "101", "000010010101111011111101", "10101101111010011001", "1000001",
   List.replicate 133 '0']

/-- The pure identity URI of the trade item. -/
def itemSerialUri : Text := "urn:epc:id:sgtin:0614141.712345.A"

/-- A tag of 198 bits, the first digit of which has two bits. -/
theorem hexToPureIdentity_of_toHex_serial :
    ∃ engine, (Engine.builtin { strict := true }).outcome = .ok engine ∧
      ∃ hex, Bits.toHex itemSerialBits = .ok hex ∧
        (engine.hexToPureIdentity hex []).outcome = .ok itemSerialUri :=
  ⟨_, Engine.builtin_outcome _, hexToPureIdentity_of_toHex (Engine.builtin_outcome _)
    (by decide +kernel) (eq_ok_of_toOption (by decide +kernel))⟩

/-- A hexadecimal text that is converted has the bits of a tag, in front of which at most
    two bits are dropped, and those only of a tag of 198 bits. The tag is written as the
    text in upper case exactly if the dropped bits are zeros. -/
theorem exists_dropped_of_hexToPureIdentity {settings : Engine.Settings} {engine : Engine}
    (hengine : (Engine.builtin settings).outcome = .ok engine) {hex result : Text}
    {params : Params} (h : (engine.hexToPureIdentity hex params).outcome = .ok result) :
    ∃ dropped bits, Bits.ofHex hex = .ok (dropped ++ bits) ∧
      (engine.binaryToPureIdentity bits params).outcome = .ok result ∧
      (dropped = [] ∨ dropped.length = 2 ∧ bits.length = 198) ∧
      ((∃ written, Bits.toHex written = .ok (Text.upper hex) ∧
          (engine.binaryToPureIdentity written params).outcome = .ok result) ↔
        ∀ c ∈ dropped, c = '0') := by
  obtain ⟨dropped, bits, hwhole, hcases, hbits⟩ :=
    (Engine.hexToPureIdentity_eq_ok_iff hengine).mp h
  exact ⟨dropped, bits, hwhole, hbits, hcases,
    Engine.exists_toHex_iff hengine hwhole hcases hbits⟩

/-- Two ones and the bits of the trade item, in hexadecimal text. -/
def itemHexAfterOnes : Text := "cd8d095efdade9982000000000000000000000000000000000"

/-- The two ones are dropped. -/
theorem exists_dropped_of_hexToPureIdentity_ones :
    ∃ engine, (Engine.builtin { strict := true }).outcome = .ok engine ∧
      ∃ dropped bits, Bits.ofHex itemHexAfterOnes = .ok (dropped ++ bits) ∧
        (engine.binaryToPureIdentity bits []).outcome = .ok itemSerialUri ∧
        (dropped = [] ∨ dropped.length = 2 ∧ bits.length = 198) ∧
        ((∃ written, Bits.toHex written = .ok (Text.upper itemHexAfterOnes) ∧
            (engine.binaryToPureIdentity written []).outcome = .ok itemSerialUri) ↔
          ∀ c ∈ dropped, c = '0') :=
  ⟨_, Engine.builtin_outcome _, exists_dropped_of_hexToPureIdentity (Engine.builtin_outcome _)
    (eq_ok_of_toOption (by decide +kernel))⟩

/-- Not every hexadecimal text that is converted is how a tag is written: two ones are
    dropped as zeros are. -/
theorem not_exists_toHex_of_hexToPureIdentity :
    ¬ ∀ (settings : Engine.Settings) (engine : Engine),
      (Engine.builtin settings).outcome = .ok engine →
      ∀ (hex result : Text) (params : Params),
        (engine.hexToPureIdentity hex params).outcome = .ok result →
        ∃ bits, Bits.toHex bits = .ok (Text.upper hex) ∧
          (engine.binaryToPureIdentity bits params).outcome = .ok result := by
  intro h
  obtain ⟨engine, hengine, hresult⟩ :
      ∃ engine, (Engine.builtin { strict := true }).outcome = .ok engine ∧
        (engine.binaryToPureIdentity itemSerialBits []).outcome = .ok itemSerialUri :=
    ⟨_, Engine.builtin_outcome _, eq_ok_of_toOption (by decide +kernel)⟩
  have hwhole : Bits.ofHex itemHexAfterOnes = .ok (['1', '1'] ++ itemSerialBits) :=
    eq_ok_of_toOption (by decide +kernel)
  have hcases : ['1', '1'] = [] ∨ ['1', '1'].length = 2 ∧ itemSerialBits.length = 198 :=
    .inr ⟨rfl, by decide +kernel⟩
  have hhex := (Engine.hexToPureIdentity_eq_ok_iff hengine).mpr ⟨_, _, hwhole, hcases, hresult⟩
  have hzeros := (Engine.exists_toHex_iff hengine hwhole hcases hresult).mp
    (h _ _ hengine _ _ _ hhex)
  exact absurd (hzeros '1' (by simp)) (by decide)

end EpcTag
