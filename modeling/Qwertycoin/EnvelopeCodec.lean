import Qwertycoin.Lib.Varint
import Qwertycoin.Envelope

/-
# Envelopes are encoded in one way

What the encoder writes and what the parser accepts is described by one relation between a list of
records, a byte string and a budget.  Both functions compute it, the encoder from the records and
the parser from the bytes, so each of them undoes the other.
-/

namespace Qwertycoin

open Bytes

/-! ## Variable-length integers -/

/-- A group sequence that fits in 64 bits and ten bytes is read to its end. -/
lemma readCanonicalVarintFrom_marked {bs : List UInt8} (h : Marked bs) (index acc : ℕ)
    (hlen : index + bs.length ≤ 10) (hvalue : groupsValue bs < 2 ^ (64 - 7 * index))
    (tail : List UInt8) :
    readCanonicalVarintFrom index acc (bs ++ tail) =
      some ((acc + groupsValue bs * 2 ^ (7 * index),
        decide ((varint (acc + groupsValue bs * 2 ^ (7 * index))).length = index + bs.length)),
        tail) := by
  induction h generalizing index acc with
  | @last b hb =>
    have hmod : b.toNat % 128 = b.toNat := Nat.mod_eq_of_lt hb
    simp only [List.length_cons, List.length_nil] at hlen
    simp only [groupsValue, hmod, mul_zero, add_zero] at hvalue
    have hnine : ¬(index = 9 ∧ 2 ≤ b.toNat) := by
      rintro ⟨rfl, hlarge⟩
      omega
    simp only [List.cons_append, List.nil_append, readCanonicalVarintFrom, groupsValue, hmod,
      mul_zero, add_zero, List.length_cons, List.length_nil]
    rw [if_neg (by omega), if_neg hnine, if_pos hb]
  | @more b bs hb hmarked ih =>
    have hpos := List.length_pos_iff.mpr hmarked.ne_nil
    simp only [List.length_cons] at hlen
    have hstep : (2 : ℕ) ^ (64 - 7 * index) = 128 * 2 ^ (64 - 7 * (index + 1)) := by
      rw [show 64 - 7 * index = 64 - 7 * (index + 1) + 7 by omega, pow_add, mul_comm]
      norm_num
    have hhigh : groupsValue bs < 2 ^ (64 - 7 * (index + 1)) := by
      simp only [groupsValue, hstep] at hvalue
      omega
    have hsum : acc + b.toNat % 128 * 2 ^ (7 * index) +
        groupsValue bs * 2 ^ (7 * (index + 1)) =
        acc + groupsValue (b :: bs) * 2 ^ (7 * index) := by
      rw [groupsValue, show 7 * (index + 1) = 7 * index + 7 by omega, pow_add]
      ring
    have hlength : index + 1 + bs.length = index + (b :: bs).length := by
      simp only [List.length_cons]
      omega
    have hread := ih (index + 1) (acc + b.toNat % 128 * 2 ^ (7 * index)) (by omega) hhigh
    rw [hsum, hlength] at hread
    rw [List.cons_append, readCanonicalVarintFrom, if_neg (by omega), if_neg (by omega),
      if_neg (by omega)]
    exact hread

lemma exists_marked_of_readCanonicalVarintFrom {index acc value : ℕ} {canonical : Bool}
    {input tail : List UInt8} (hindex : index ≤ 10)
    (h : readCanonicalVarintFrom index acc input = some ((value, canonical), tail)) :
    ∃ bs, Marked bs ∧ input = bs ++ tail ∧ index + bs.length ≤ 10 ∧
      groupsValue bs < 2 ^ (64 - 7 * index) := by
  induction input generalizing index acc with
  | nil => cases h
  | cons b input ih =>
    rw [readCanonicalVarintFrom] at h
    split_ifs at h with hten hnine hlast
    · obtain ⟨-, rfl⟩ := Prod.mk.inj (Option.some.inj h)
      refine ⟨[b], .last hlast, rfl, by simp only [List.length_cons, List.length_nil]; omega, ?_⟩
      have hmod : groupsValue [b] = b.toNat := by
        simp only [groupsValue]
        omega
      rw [hmod]
      by_cases hindex : index = 9
      · subst hindex
        omega
      · calc b.toNat < 2 ^ 7 := hlast
          _ ≤ 2 ^ (64 - 7 * index) := Nat.pow_le_pow_right (by norm_num) (by omega)
    · obtain ⟨bs, hmarked, rfl, hlen, hvalue⟩ := ih (by omega) h
      have hstep : index ≤ 8 := by
        have hpos := List.length_pos_iff.mpr hmarked.ne_nil
        omega
      refine ⟨b :: bs, .more (by omega) hmarked, rfl, by rw [List.length_cons]; omega, ?_⟩
      rw [groupsValue, show 64 - 7 * index = 64 - 7 * (index + 1) + 7 by omega, pow_add]
      omega

/-- `read_canonical_varint` accepts as canonical exactly what `append_varint` writes for a 64-bit
number. -/
lemma readCanonicalVarint_eq_some_iff {value : ℕ} {input tail : List UInt8} :
    readCanonicalVarint input = some ((value, true), tail) ↔
      value < 2 ^ 64 ∧ input = varint value ++ tail := by
  constructor
  · intro h
    obtain ⟨bs, hmarked, rfl, hlen, hvalue⟩ :=
      exists_marked_of_readCanonicalVarintFrom (Nat.zero_le 10) h
    have hread := readCanonicalVarintFrom_marked hmarked 0 0 hlen hvalue tail
    obtain ⟨hvalue', hcanonical⟩ :=
      Prod.mk.inj (Prod.mk.inj (Option.some.inj (h.symm.trans hread))).1
    simp only [mul_zero, pow_zero, mul_one, zero_add] at hvalue' hcanonical
    subst hvalue'
    refine ⟨by simpa using hvalue, ?_⟩
    have hshortest : bs = varint (groupsValue bs) :=
      hmarked.eq_groups (of_decide_eq_true hcanonical.symm)
    rw [← hshortest]
  · rintro ⟨hvalue, rfl⟩
    obtain ⟨hmarked, hgroups⟩ := marked_varint hvalue
    have hread := readCanonicalVarintFrom_marked hmarked 0 0
      (by simpa using length_varint_le value) (by simpa [hgroups] using hvalue) tail
    simpa [hgroups, readCanonicalVarint] using hread

/-! ## Records -/

/-- The budget that is left when the records are charged one after the other. -/
inductive Charged (limits : EnvelopeLimitsV2) :
    EnvelopeBudgetV2 → List EnvelopeRecordV2 → EnvelopeBudgetV2 → Prop
  | nil {budget : EnvelopeBudgetV2} : Charged limits budget [] budget
  | cons {budget next final : EnvelopeBudgetV2} {record : EnvelopeRecordV2}
      {records : List EnvelopeRecordV2} : validateRecord limits record budget = .ok next →
      Charged limits next records final → Charged limits budget (record :: records) final

/-- The size of records with their headers. -/
def encodedSize (records : List EnvelopeRecordV2) : ℕ :=
  (records.map fun record => recordHeaderSize + record.payload.length).sum

@[simp] lemma encodedSize_nil : encodedSize [] = 0 := rfl

@[simp] lemma encodedSize_cons (record : EnvelopeRecordV2) (records : List EnvelopeRecordV2) :
    encodedSize (record :: records) =
      recordHeaderSize + record.payload.length + encodedSize records := by
  simp [encodedSize]

@[simp] lemma EnvelopeRecordV2.length_bytes (record : EnvelopeRecordV2) :
    record.bytes.length = recordHeaderSize + record.payload.length := by
  simp only [EnvelopeRecordV2.bytes, List.length_cons, List.length_append, length_u16, length_u32,
    recordHeaderSize]
  omega

lemma length_flatten_bytes (records : List EnvelopeRecordV2) :
    (records.map EnvelopeRecordV2.bytes).flatten.length = encodedSize records := by
  simp [encodedSize, List.length_flatten, Function.comp_def]

variable {limits : EnvelopeLimitsV2} {records : List EnvelopeRecordV2}
  {budget budget' : EnvelopeBudgetV2}

lemma Charged.eq_of_nil (h : Charged limits budget [] budget') : budget' = budget := by
  cases h
  rfl

lemma validateRecords_eq_ok_iff {size size' : ℕ} :
    validateRecords limits records budget size = .ok (budget', size') ↔
      Charged limits budget records budget' ∧ size' = size + encodedSize records ∧
        (records ≠ [] → size' ≤ 0xffffffff) := by
  induction records generalizing budget size with
  | nil =>
    simp only [validateRecords, Except.ok.injEq, Prod.mk.injEq, encodedSize_nil, add_zero]
    constructor
    · rintro ⟨rfl, rfl⟩
      exact ⟨.nil, rfl, fun h => absurd rfl h⟩
    · rintro ⟨hcharged, rfl, -⟩
      exact ⟨hcharged.eq_of_nil.symm, rfl⟩
  | cons record records ih =>
    simp only [validateRecords, except_bind_eq_ok_iff, encodedSize_cons]
    constructor
    · rintro ⟨next, hvalidate, h⟩
      split_ifs at h with hlarge
      obtain ⟨hcharged, rfl, hsize⟩ := ih.mp h
      refine ⟨.cons hvalidate hcharged, by omega, fun _ => ?_⟩
      by_cases hnil : records = []
      · subst hnil
        simp only [encodedSize_nil] at hlarge ⊢
        omega
      · exact hsize hnil
    · rintro ⟨hcharged, rfl, hsize⟩
      obtain _ | ⟨hvalidate, hcharged⟩ := hcharged
      have hsize := hsize (List.cons_ne_nil _ _)
      refine ⟨_, hvalidate, ?_⟩
      rw [if_neg (by omega), ih]
      exact ⟨hcharged, by omega, fun _ => hsize⟩

lemma readRecordHeader_bytes (record : EnvelopeRecordV2) (rest : List UInt8) :
    readRecordHeader (record.bytes ++ rest) =
      some ((record.type, record.version, 0, UInt32.ofNat record.payload.length),
        record.payload ++ rest) := by
  have hread : readRecordHeader.run (record.bytes ++ rest) =
      some ((record.type, record.version, 0, UInt32.ofNat record.payload.length),
        record.payload ++ rest) := by
    simp [readRecordHeader, EnvelopeRecordV2.bytes, List.append_assoc]
  exact hread

lemma eq_append_of_readRecordHeader {type version : UInt8} {flags : UInt16} {size : UInt32}
    {bytes rest : List UInt8}
    (h : readRecordHeader bytes = some ((type, version, flags, size), rest)) :
    bytes = type :: version :: (u16 flags ++ u32 size ++ rest) := by
  have h : readRecordHeader.run bytes = some ((type, version, flags, size), rest) := h
  simp only [readRecordHeader, StateT.run_bind, StateT.run_pure, Option.bind_eq_bind,
    Option.bind_eq_some_iff, Prod.exists, Option.pure_def, Option.some.injEq, Prod.mk.injEq] at h
  obtain ⟨type', rest₁, htype, version', rest₂, hversion, flags', rest₃, hflags, size', rest₄, hsize,
    ⟨rfl, rfl, rfl, rfl⟩, rfl⟩ := h
  rw [Reader.eq_cons_of_run_byte htype, Reader.eq_cons_of_run_byte hversion,
    Reader.eq_append_of_run_u16 hflags, Reader.eq_append_of_run_u32 hsize, List.append_assoc]

lemma payload_le_of_validateRecord {record : EnvelopeRecordV2}
    (h : validateRecord limits record budget = .ok budget') :
    record.payload.length ≤ limits.maxRecordPayloadBytes := by
  simp only [validateRecord] at h
  split_ifs at h
  omega

lemma parseRecords_eq_ok_iff {n : ℕ} {bytes rest : List UInt8} :
    parseRecords limits n budget bytes = .ok (records, budget', rest) ↔
      records.length = n ∧ bytes = (records.map EnvelopeRecordV2.bytes).flatten ++ rest ∧
        Charged limits budget records budget' ∧
        ∀ record ∈ records, record.payload.length < 2 ^ 32 := by
  induction n generalizing budget bytes records with
  | zero =>
    simp only [parseRecords, Except.ok.injEq, Prod.mk.injEq, List.length_eq_zero_iff]
    constructor
    · rintro ⟨rfl, rfl, rfl⟩
      exact ⟨rfl, rfl, .nil, by simp⟩
    · rintro ⟨rfl, rfl, hcharged, -⟩
      exact ⟨rfl, hcharged.eq_of_nil.symm, rfl⟩
  | succ n ih =>
    constructor
    · intro h
      simp only [parseRecords] at h
      split at h
      · cases h
      rename_i type version flags size body hheader
      split_ifs at h with hflags hlarge hshort
      obtain ⟨next, hvalidate, h⟩ := except_bind_eq_ok_iff.mp h
      obtain ⟨⟨tail, final, rest'⟩, htail, h⟩ := except_bind_eq_ok_iff.mp h
      cases h
      obtain ⟨hlength, hbody, hcharged, hsizes⟩ := ih.mp htail
      have hpayload : (body.take size.toNat).length = size.toNat :=
        List.length_take_of_le (by omega)
      refine ⟨by rw [List.length_cons, hlength], ?_, .cons hvalidate hcharged, ?_⟩
      · rw [eq_append_of_readRecordHeader hheader, not_not.mp hflags, List.map_cons,
          List.flatten_cons, EnvelopeRecordV2.bytes]
        simp only [hpayload, UInt32.ofNat_toNat, List.cons_append, List.append_assoc, ← hbody,
          List.take_append_drop]
      · rw [List.forall_mem_cons]
        refine ⟨?_, hsizes⟩
        rw [hpayload]
        exact size.toNat_lt
    · rintro ⟨hlength, rfl, hcharged, hsizes⟩
      obtain _ | ⟨hvalidate, hcharged⟩ := hcharged
      · cases hlength
      rename_i next record records
      obtain ⟨hsize, hsizes⟩ := List.forall_mem_cons.mp hsizes
      have htoNat : (UInt32.ofNat record.payload.length).toNat = record.payload.length :=
        UInt32.toNat_ofNat_of_lt' hsize
      have htail := ih.mpr ⟨Nat.succ.inj hlength, rfl, hcharged, hsizes⟩
      rw [parseRecords, List.map_cons, List.flatten_cons, List.append_assoc, readRecordHeader_bytes]
      simp only [htoNat]
      rw [if_neg (by simp), if_neg (by
        have := payload_le_of_validateRecord hvalidate
        omega), if_neg (by simp)]
      simp only [List.take_left, List.drop_left, hvalidate, htail, bind, Except.bind, pure,
        Except.pure]

/-! ## Envelopes -/

/-- The header of an envelope, before its records. -/
def envelopeHeader (count : UInt16) (size : UInt32) : List UInt8 :=
  ascii "QEP2" ++ [eposeEnvelopeVersionV2, 0] ++ u16 count ++ u32 size

lemma length_envelopeHeader (count : UInt16) (size : UInt32) :
    (envelopeHeader count size).length = envelopeHeaderSize := by
  have hmagic : (ascii "QEP2").length = 4 := by decide
  simp [envelopeHeader, hmagic, envelopeHeaderSize]

lemma eq_append_of_magic {encoded : List UInt8} (hmagic : encoded.take 4 = ascii "QEP2")
    (hversion : encoded[4]? = some eposeEnvelopeVersionV2)
    (hflags : encoded[5]? = some 0) :
    encoded = ascii "QEP2" ++ [eposeEnvelopeVersionV2, 0] ++ encoded.drop 6 := by
  obtain ⟨h4, hversion⟩ := List.getElem?_eq_some_iff.mp hversion
  obtain ⟨h5, hflags⟩ := List.getElem?_eq_some_iff.mp hflags
  have hdrop : encoded.drop 4 = [eposeEnvelopeVersionV2, 0] ++ encoded.drop 6 := by
    rw [List.drop_eq_getElem_cons h4, List.drop_eq_getElem_cons h5, hversion, hflags]
    rfl
  rw [List.append_assoc, ← hdrop, ← hmagic, List.take_append_drop]

lemma readEnvelopeHeader_eq_ok_iff {encoded body : List UInt8} {count : ℕ} :
    readEnvelopeHeader encoded limits = .ok (count, body) ↔
      limits.valid = true ∧ encoded.length ≤ limits.maxEnvelopeBytes ∧ 0 < count ∧
        count ≤ limits.maxRecords ∧ count ≤ 0xffff ∧ body.length ≤ 0xffffffff ∧
        count ≤ body.length / recordHeaderSize ∧
        encoded = envelopeHeader (UInt16.ofNat count) (UInt32.ofNat body.length) ++ body := by
  constructor
  · intro h
    unfold readEnvelopeHeader at h
    split_ifs at h with hvalid hlarge hshort hmagic hversion hflags
    split at h
    · cases h
    rename_i count' size body' hread
    split_ifs at h with hcount hzero hsize hmany
    obtain ⟨rfl, rfl⟩ := Prod.mk.inj (Except.ok.inj h)
    have hread : (do return (← Reader.u16, ← Reader.u32) : Reader (UInt16 × UInt32)).run
        (encoded.drop 6) = some ((count', size), body') := hread
    simp only [StateT.run_bind, StateT.run_pure, Option.bind_eq_bind, Option.bind_eq_some_iff,
      Prod.exists, Option.pure_def, Option.some.injEq, Prod.mk.injEq] at hread
    obtain ⟨count'', rest, hcount', size', rest', hsize', ⟨rfl, rfl⟩, rfl⟩ := hread
    have hsize := not_not.mp hsize
    have hpos : 0 < count''.toNat := by
      refine Nat.pos_of_ne_zero fun hnat => hzero ?_
      exact UInt16.toNat_inj.mp hnat
    have hcount16 := count''.toNat_lt
    have hsize32 := size'.toNat_lt
    rw [hsize] at hmany hsize32
    refine ⟨by simpa using hvalid, by omega, hpos, by omega, by omega, by omega, by omega, ?_⟩
    rw [eq_append_of_magic (not_not.mp hmagic) (not_not.mp hversion) (not_not.mp hflags),
      Reader.eq_append_of_run_u16 hcount', Reader.eq_append_of_run_u32 hsize', ← hsize,
      UInt16.ofNat_toNat, UInt32.ofNat_toNat, envelopeHeader]
    simp only [List.append_assoc]
  · rintro ⟨hvalid, hlarge, hpos, hcount, hcount16, hsize32, hmany, rfl⟩
    have hcount' : (UInt16.ofNat count).toNat = count :=
      UInt16.toNat_ofNat_of_lt' (Nat.lt_of_le_of_lt hcount16 (by decide))
    have hsize' : (UInt32.ofNat body.length).toNat = body.length :=
      UInt32.toNat_ofNat_of_lt' (Nat.lt_of_le_of_lt hsize32 (by decide))
    have hzero : UInt16.ofNat count ≠ 0 := by
      intro hzero
      rw [hzero] at hcount'
      exact absurd hcount'.symm (Nat.pos_iff_ne_zero.mp hpos)
    have hmagic : ascii "QEP2" = [81, 69, 80, 50] := by decide
    have hread : (do return (← Reader.u16, ← Reader.u32) : Reader (UInt16 × UInt32)).run
        (u16 (UInt16.ofNat count) ++ (u32 (UInt32.ofNat body.length) ++ body)) =
        some ((UInt16.ofNat count, UInt32.ofNat body.length), body) := by
      simp
    have hdrop : (envelopeHeader (UInt16.ofNat count) (UInt32.ofNat body.length) ++ body).drop 6 =
        u16 (UInt16.ofNat count) ++ (u32 (UInt32.ofNat body.length) ++ body) := by
      simp [envelopeHeader, hmagic]
    have hlength := length_envelopeHeader (UInt16.ofNat count) (UInt32.ofNat body.length)
    unfold readEnvelopeHeader
    rw [if_neg (by simp [hvalid]), if_neg (by omega), if_neg (by rw [List.length_append]; omega),
      if_neg (by simp [envelopeHeader, hmagic]), if_neg (by simp [envelopeHeader, hmagic]),
      if_neg (by simp [envelopeHeader, hmagic]), hdrop]
    rw [StateT.run] at hread
    rw [hread]
    simp only [hcount', hsize']
    rw [if_neg (by omega), if_neg hzero, if_neg (by simp), if_neg (by omega)]

/-- The records, the bytes and the budget of one envelope. -/
structure EnvelopeOf (limits : EnvelopeLimitsV2) (records : List EnvelopeRecordV2)
    (encoded : List UInt8) (budget : EnvelopeBudgetV2) : Prop where
  valid : limits.valid = true
  nonempty : records ≠ []
  count_le : records.length ≤ limits.maxRecords
  count_fits : records.length ≤ 0xffff
  size_fits : encodedSize records ≤ 0xffffffff
  size_le : envelopeHeaderSize + encodedSize records ≤ limits.maxEnvelopeBytes
  encoded_eq : encoded = envelopeBytes records (encodedSize records)
  charged : ∃ charge, Charged limits {} records charge ∧
    budget = { charge with bytes := encoded.length, records := records.length }

lemma encodeEnvelopeV2_eq_ok_iff {encoded : List UInt8} :
    encodeEnvelopeV2 records limits = .ok (encoded, budget) ↔
      EnvelopeOf limits records encoded budget := by
  constructor
  · intro h
    unfold encodeEnvelopeV2 at h
    split_ifs at h with hvalid hnil hcount
    obtain ⟨⟨charge, size⟩, hvalidate, h⟩ := except_bind_eq_ok_iff.mp h
    obtain ⟨hcharged, hsize, hfits⟩ := validateRecords_eq_ok_iff.mp hvalidate
    rw [zero_add] at hsize
    subst hsize
    dsimp only at h
    split_ifs at h with hlarge
    obtain ⟨rfl, rfl⟩ := Prod.mk.inj (Except.ok.inj h)
    exact ⟨by simpa using hvalid, hnil, by omega, by omega, hfits hnil, by omega, rfl,
      charge, hcharged, rfl⟩
  · rintro ⟨hvalid, hnil, hcount, hcount16, hfits, hlarge, rfl, charge, hcharged, rfl⟩
    have hvalidate : validateRecords limits records {} 0 = .ok (charge, encodedSize records) :=
      validateRecords_eq_ok_iff.mpr ⟨hcharged, by omega, fun _ => hfits⟩
    unfold encodeEnvelopeV2
    rw [if_neg (by simp [hvalid]), if_neg hnil, if_neg (by omega), hvalidate]
    dsimp only [bind, Except.bind]
    rw [if_neg (by omega)]

lemma length_le_of_encodedSize (records : List EnvelopeRecordV2) :
    records.length ≤ encodedSize records / recordHeaderSize := by
  induction records with
  | nil => simp
  | cons record records ih =>
    rw [encodedSize_cons, List.length_cons]
    simp only [recordHeaderSize] at ih ⊢
    omega

lemma payload_le_encodedSize {record : EnvelopeRecordV2} (h : record ∈ records) :
    record.payload.length ≤ encodedSize records := by
  have hsize : recordHeaderSize + record.payload.length ≤ encodedSize records :=
    List.le_sum_of_mem (List.mem_map_of_mem h)
  omega

lemma parseEnvelopeV2_eq_ok_iff {encoded : List UInt8} :
    parseEnvelopeV2 encoded limits = .ok (records, budget) ↔
      EnvelopeOf limits records encoded budget := by
  simp only [parseEnvelopeV2, except_bind_eq_ok_iff, Prod.exists]
  constructor
  · rintro ⟨count, body, hheader, parsed, charge, rest, hparse, h⟩
    split_ifs at h with hrest
    obtain ⟨rfl, rfl⟩ := Prod.mk.inj (Except.ok.inj h)
    obtain rfl := not_not.mp hrest
    obtain ⟨hvalid, hlarge, hpos, hcount, hcount16, hsize, -, rfl⟩ :=
      readEnvelopeHeader_eq_ok_iff.mp hheader
    obtain ⟨rfl, hbody, hcharged, -⟩ := parseRecords_eq_ok_iff.mp hparse
    rw [List.append_nil] at hbody
    have hlength := length_flatten_bytes parsed
    rw [← hbody] at hlength
    rw [hlength] at hsize
    rw [List.length_append, length_envelopeHeader, hlength] at hlarge
    refine ⟨hvalid, List.length_pos_iff.mp hpos, hcount, hcount16, hsize, hlarge, ?_,
      charge, hcharged, rfl⟩
    rw [hlength, hbody]
    rfl
  · rintro ⟨hvalid, hnil, hcount, hcount16, hfits, hlarge, rfl, charge, hcharged, rfl⟩
    have hlength := length_flatten_bytes records
    have hbytes : envelopeBytes records (encodedSize records) =
        envelopeHeader (UInt16.ofNat records.length)
          (UInt32.ofNat (records.map EnvelopeRecordV2.bytes).flatten.length) ++
          (records.map EnvelopeRecordV2.bytes).flatten := by
      rw [hlength]
      rfl
    refine ⟨records.length, (records.map EnvelopeRecordV2.bytes).flatten, ?_, records, charge, [],
      ?_, ?_⟩
    · rw [readEnvelopeHeader_eq_ok_iff]
      refine ⟨hvalid, ?_, List.length_pos_iff.mpr hnil, hcount, hcount16, by omega, ?_, hbytes⟩
      · rw [hbytes, List.length_append, length_envelopeHeader, hlength]
        exact hlarge
      · rw [hlength]
        exact length_le_of_encodedSize records
    · refine parseRecords_eq_ok_iff.mpr ⟨rfl, (List.append_nil _).symm, hcharged, ?_⟩
      intro record hmem
      have := payload_le_encodedSize hmem
      omega
    · rw [if_neg (by simp)]

/-! ## Fields -/

/-- `encode_tx_extra_envelope_field_v2` -/
def encodeTxExtraEnvelopeFieldV2 (records : List EnvelopeRecordV2) (limits : EnvelopeLimitsV2) :
    Except EnvelopeStatusV2 (List UInt8 × EnvelopeBudgetV2) := do
  let (envelope, budget) ← encodeEnvelopeV2 records limits
  let field := framedEnvelope envelope
  return (field, { budget with bytes := field.length })

lemma EnvelopeOf.length_eq {encoded : List UInt8} (h : EnvelopeOf limits records encoded budget) :
    encoded.length = envelopeHeaderSize + encodedSize records := by
  rw [h.encoded_eq, ← length_flatten_bytes, ← length_envelopeHeader (UInt16.ofNat records.length)
    (UInt32.ofNat (encodedSize records)), ← List.length_append]
  rfl

/-- The records, the bytes and the budget of an envelope behind its tag and its size. -/
lemma parseTxExtraEnvelopeFieldV2_eq_ok_iff {field : List UInt8} :
    parseTxExtraEnvelopeFieldV2 field limits = .ok (records, budget) ↔
      ∃ envelope charge, EnvelopeOf limits records envelope charge ∧
        field = framedEnvelope envelope ∧ budget = { charge with bytes := field.length } := by
  have htag : eposeTxExtraTagV2 < 2 ^ 64 := by decide
  constructor
  · intro h
    simp only [parseTxExtraEnvelopeFieldV2] at h
    split_ifs at h
    split at h
    · cases h
    rename_i tag canonical rest hread
    split_ifs at h with hcanonical htag
    split at h
    · cases h
    rename_i size canonical' envelope hread'
    split_ifs at h with hcanonical' hlarge hsize
    obtain ⟨⟨parsed, charge⟩, hparse, h⟩ := except_bind_eq_ok_iff.mp h
    obtain ⟨rfl, rfl⟩ := Prod.mk.inj (Except.ok.inj h)
    obtain rfl : canonical = true := by simpa using hcanonical
    obtain rfl : canonical' = true := by simpa using hcanonical'
    obtain rfl := not_not.mp htag
    obtain rfl := not_not.mp hsize
    refine ⟨envelope, charge, parseEnvelopeV2_eq_ok_iff.mp hparse, ?_, rfl⟩
    rw [(readCanonicalVarint_eq_some_iff.mp hread).2, (readCanonicalVarint_eq_some_iff.mp hread').2,
      framedEnvelope, List.append_assoc]
  · rintro ⟨envelope, charge, henvelope, rfl, rfl⟩
    have hlength := henvelope.length_eq
    have hsize := henvelope.size_fits
    have hle := henvelope.size_le
    have hread : readCanonicalVarint (framedEnvelope envelope) =
        some ((eposeTxExtraTagV2, true), varint envelope.length ++ envelope) :=
      readCanonicalVarint_eq_some_iff.mpr ⟨htag, by rw [framedEnvelope, List.append_assoc]⟩
    have hread' : readCanonicalVarint (varint envelope.length ++ envelope) =
        some ((envelope.length, true), envelope) :=
      readCanonicalVarint_eq_some_iff.mpr ⟨by simp only [envelopeHeaderSize] at hlength; omega, rfl⟩
    rw [parseTxExtraEnvelopeFieldV2, if_neg (by simp [henvelope.valid]), hread]
    dsimp only
    rw [if_neg (by simp), if_neg (by simp), hread']
    dsimp only
    rw [if_neg (by simp), if_neg (by omega), if_neg (by simp),
      parseEnvelopeV2_eq_ok_iff.mpr henvelope]
    rfl

lemma encodeTxExtraEnvelopeFieldV2_eq_ok_iff {field : List UInt8} :
    encodeTxExtraEnvelopeFieldV2 records limits = .ok (field, budget) ↔
      ∃ envelope charge, EnvelopeOf limits records envelope charge ∧
        field = framedEnvelope envelope ∧ budget = { charge with bytes := field.length } := by
  simp only [encodeTxExtraEnvelopeFieldV2, except_bind_eq_ok_iff, Prod.exists,
    encodeEnvelopeV2_eq_ok_iff]
  constructor
  · rintro ⟨envelope, charge, henvelope, h⟩
    obtain ⟨rfl, rfl⟩ := Prod.mk.inj (Except.ok.inj h)
    exact ⟨envelope, charge, henvelope, rfl, rfl⟩
  · rintro ⟨envelope, charge, henvelope, rfl, rfl⟩
    exact ⟨envelope, charge, henvelope, rfl⟩

/-- **Envelopes and fields are encoded in one way.**  For all limits, a list of records is encoded
as a byte string exactly when the byte string is parsed to these records, with the same budget; the
same holds with the tag and the size in front.  The varints in front are read as canonical exactly
when they are what is written for a 64-bit number. -/
theorem envelope_codecs_are_inverse (limits : EnvelopeLimitsV2) :
    (∀ records encoded budget, encodeEnvelopeV2 records limits = .ok (encoded, budget) ↔
      parseEnvelopeV2 encoded limits = .ok (records, budget)) ∧
    (∀ records field budget, encodeTxExtraEnvelopeFieldV2 records limits = .ok (field, budget) ↔
      parseTxExtraEnvelopeFieldV2 field limits = .ok (records, budget)) ∧
    ∀ input value rest, readCanonicalVarint input = some ((value, true), rest) ↔
      value < 2 ^ 64 ∧ input = varint value ++ rest :=
  ⟨fun _ _ _ => encodeEnvelopeV2_eq_ok_iff.trans parseEnvelopeV2_eq_ok_iff.symm,
    fun _ _ _ => encodeTxExtraEnvelopeFieldV2_eq_ok_iff.trans
      parseTxExtraEnvelopeFieldV2_eq_ok_iff.symm,
    fun _ _ _ => readCanonicalVarint_eq_some_iff⟩

end Qwertycoin
