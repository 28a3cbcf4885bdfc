import Qwertycoin.Lib.Varint
import Qwertycoin.TxExtra

/-
# The extra field is serialized in one way

A canonical extra field is the serialization of fields that can be read back: their sizes fit, and
padding, which runs to the end of the input, is the last of them.  An extra field that is parsed
and serialized as it was is the serialization of such fields, and of no others.
-/

namespace Qwertycoin

open Bytes

/-! ## Reading back what was written -/

/-- The archive reads groups up to 64 bits; only the first group may be zero. -/
lemma readVarintFrom_groups {k v : ℕ} (index acc : ℕ) (hindex : index + k = 9)
    (hvalue : v < 2 ^ (64 - 7 * index)) (hzero : v = 0 → index = 0) (rest : List UInt8) :
    readVarintFrom (7 * index) acc (groups k v ++ rest) =
      some (acc + v * 2 ^ (7 * index), rest) := by
  induction k generalizing v index acc with
  | zero =>
    obtain rfl : index = 9 := by omega
    have hv : v < 2 := by simpa using hvalue
    have hbyte := toNat_lastGroup (v := v) (by omega)
    have hne : ¬(UInt8.ofNat v = 0 ∧ 7 * 9 ≠ 0) := by
      rintro ⟨hnull, -⟩
      rw [hnull] at hbyte
      exact absurd (hzero hbyte.symm) (by omega)
    rw [groups, List.cons_append, List.nil_append, readVarintFrom, hbyte, if_neg (by omega),
      if_neg hne, if_pos (by omega)]
  | succ k ih =>
    by_cases hv : v < 128
    · have hbyte := toNat_lastGroup hv
      have hpow : (2 : ℕ) ^ 7 ≤ 2 ^ (64 - 7 * index) :=
        Nat.pow_le_pow_right (by norm_num) (by omega)
      have hne : ¬(UInt8.ofNat v = 0 ∧ 7 * index ≠ 0) := by
        rintro ⟨hnull, hshift⟩
        rw [hnull] at hbyte
        exact hshift (by rw [hzero hbyte.symm])
      rw [groups_of_lt _ hv, List.cons_append, List.nil_append, readVarintFrom, hbyte,
        if_neg (by omega), if_neg hne, if_pos hv]
    · have hbyte := toNat_markedGroup v
      have hne : ¬(UInt8.ofNat (v % 128 + 128) = 0 ∧ 7 * index ≠ 0) := by
        rintro ⟨hnull, -⟩
        rw [hnull] at hbyte
        have : (0 : UInt8).toNat = 0 := rfl
        omega
      have hstep : (2 : ℕ) ^ (64 - 7 * index) = 128 * 2 ^ (64 - 7 * (index + 1)) := by
        rw [show 64 - 7 * index = 64 - 7 * (index + 1) + 7 by omega, pow_add, mul_comm]
        norm_num
      have hhigh : v / 128 < 2 ^ (64 - 7 * (index + 1)) :=
        Nat.div_lt_of_lt_mul (by rw [← hstep]; exact hvalue)
      have hlow : (v % 128 + 128) % 128 = v % 128 := by omega
      have hsum : acc + v % 128 * 2 ^ (7 * index) + v / 128 * 2 ^ (7 * (index + 1)) =
          acc + v * 2 ^ (7 * index) := by
        conv_rhs => rw [← Nat.mod_add_div v 128]
        rw [show 7 * (index + 1) = 7 * index + 7 by omega, pow_add]
        ring
      have hread := ih (index + 1) (acc + v % 128 * 2 ^ (7 * index)) (by omega) hhigh
        (fun h => absurd h (by omega))
      rw [groups, if_neg hv, List.cons_append, readVarintFrom, hbyte, if_neg (by omega),
        if_neg hne, if_neg (by omega), hlow, ← hsum, ← hread]
      rfl

lemma readVarint_varint {v : ℕ} (h : v < 2 ^ 64) (rest : List UInt8) :
    readVarint (varint v ++ rest) = some (v, rest) := by
  have hread := readVarintFrom_groups (k := 9) 0 0 rfl (by simpa using h) (fun _ => rfl) rest
  simpa [readVarint, varint] using hread

lemma readVarintFrom_lt {shift acc v : ℕ} {input rest : List UInt8} (hshift : shift ≤ 63)
    (hacc : acc < 2 ^ shift) (h : readVarintFrom shift acc input = some (v, rest)) :
    v < 2 ^ 64 := by
  induction input generalizing shift acc with
  | nil =>
    rw [readVarintFrom] at h
    split_ifs at h
    obtain ⟨rfl, -⟩ := Prod.mk.inj (Option.some.inj h)
    exact hacc.trans_le (Nat.pow_le_pow_right (by norm_num) (by omega))
  | cons b input ih =>
    rw [readVarintFrom] at h
    split_ifs at h with hoverflow hrepresent hlast
    · obtain ⟨rfl, -⟩ := Prod.mk.inj (Option.some.inj h)
      have hb : b.toNat < 2 ^ (64 - shift) := by
        by_cases hlarge : 64 ≤ shift + 7
        · exact not_le.mp fun hle => hoverflow ⟨hlarge, hle⟩
        · have hpow : (2 : ℕ) ^ 7 ≤ 2 ^ (64 - shift) :=
            Nat.pow_le_pow_right (by norm_num) (by omega)
          omega
      have hpow : (2 : ℕ) ^ 64 = 2 ^ (64 - shift) * 2 ^ shift := by
        rw [← pow_add]
        congr 1
        omega
      nlinarith [Nat.two_pow_pos shift]
    · have hsmall : shift + 7 ≤ 63 := by
        by_contra hlarge
        have hpow : (2 : ℕ) ^ (64 - shift) ≤ 2 ^ 7 :=
          Nat.pow_le_pow_right (by norm_num) (by omega)
        exact hoverflow ⟨by omega, by omega⟩
      refine ih hsmall ?_ h
      have hmod : b.toNat % 128 < 2 ^ 7 := Nat.mod_lt _ (by norm_num)
      rw [pow_add]
      nlinarith [Nat.two_pow_pos shift]

lemma readVarint_lt {v : ℕ} {input rest : List UInt8} (h : readVarint input = some (v, rest)) :
    v < 2 ^ 64 :=
  readVarintFrom_lt (Nat.zero_le 63) (by norm_num) h

lemma readString_writeString {data : List UInt8} (h : data.length < 2 ^ 64) (rest : List UInt8) :
    readString (writeString data ++ rest) = some (data, rest) := by
  have hread := readVarint_varint h (data ++ rest)
  have hrun : readString.run (writeString data ++ rest) = some (data, rest) := by
    rw [readString, writeString, List.append_assoc, StateT.run_bind, StateT.run, hread]
    simp [StateT.run]
  exact hrun

lemma length_lt_of_readString {data input rest : List UInt8}
    (h : readString input = some (data, rest)) : data.length < 2 ^ 64 := by
  have h : readString.run input = some (data, rest) := h
  rw [readString, StateT.run_bind] at h
  obtain ⟨⟨size, body⟩, hsize, h⟩ := Option.bind_eq_some_iff.mp h
  have hlt := readVarint_lt hsize
  simp only [StateT.run] at h
  split_ifs at h
  obtain ⟨rfl, rfl⟩ := Prod.mk.inj (Option.some.inj h)
  rw [List.length_take]
  omega

lemma readKeys_flatten (keys : List PublicKey) (rest : List UInt8) :
    readKeys keys.length ((keys.map Block.data).flatten ++ rest) = some (keys, rest) := by
  have hrun : (readKeys keys.length).run ((keys.map Block.data).flatten ++ rest) =
      some (keys, rest) := by
    induction keys with
    | nil => rfl
    | cons key keys ih =>
      rw [List.length_cons, readKeys, List.map_cons, List.flatten_cons, List.append_assoc]
      simp [ih]
  exact hrun

lemma length_readKeys {n : ℕ} {keys : List PublicKey} {input rest : List UInt8}
    (h : readKeys n input = some (keys, rest)) : keys.length = n := by
  have h : (readKeys n).run input = some (keys, rest) := h
  induction n generalizing keys input with
  | zero =>
    obtain ⟨rfl, -⟩ := Prod.mk.inj (Option.some.inj h)
    rfl
  | succ n ih =>
    simp only [readKeys, StateT.run_bind, StateT.run_pure, Option.bind_eq_bind,
      Option.bind_eq_some_iff, Prod.exists, Option.pure_def, Option.some.injEq, Prod.mk.injEq] at h
    obtain ⟨key, input', -, tail, input'', htail, rfl, rfl⟩ := h
    rw [List.length_cons, ih htail htail]

/-! ## Fields -/

def TxExtraField.isPadding : TxExtraField → Bool
  | padding _ => true
  | _ => false

/-- The sizes that the archive can write and read. -/
def TxExtraField.Bounded : TxExtraField → Prop
  | .padding size => 1 ≤ size ∧ size ≤ 255
  | .nonce data => data.length ≤ 255
  | .additionalPubKeys data => data.length < 2 ^ 64
  | .eposeV2 data => data.length < 2 ^ 64
  | .mysteriousMinergate data => data.length < 2 ^ 64
  | _ => True

lemma readPaddingFrom_replicate (size n : ℕ) (h : size + n ≤ 255) :
    readPaddingFrom size (List.replicate n 0) = some (size + n, []) := by
  induction n generalizing size with
  | zero => rw [List.replicate_zero, readPaddingFrom, if_pos (by omega), add_zero]
  | succ n ih =>
    rw [List.replicate_succ, readPaddingFrom, if_pos ⟨by omega, rfl⟩, ih (size + 1) (by omega)]
    congr 2
    omega

lemma readPaddingFrom_eq_some {size size' : ℕ} {input rest : List UInt8}
    (h : readPaddingFrom size input = some (size', rest)) :
    size ≤ size' ∧ size' ≤ 255 ∧ rest = [] := by
  induction input generalizing size with
  | nil =>
    rw [readPaddingFrom] at h
    split_ifs at h with hsize
    obtain ⟨rfl, rfl⟩ := Prod.mk.inj (Option.some.inj h)
    exact ⟨le_rfl, hsize, rfl⟩
  | cons b input ih =>
    rw [readPaddingFrom] at h
    split_ifs at h
    obtain ⟨hle, hsize, rfl⟩ := ih h
    exact ⟨by omega, hsize, rfl⟩

lemma readField_writeField {field : TxExtraField} {bytes rest : List UInt8}
    (hbounded : field.Bounded) (hwrite : writeField field = some bytes)
    (hpadding : field.isPadding = true → rest = []) :
    readField (bytes ++ rest) = some (field, rest) := by
  have hrun : readField.run (bytes ++ rest) = some (field, rest) := by
    cases field with
    | padding size =>
      obtain ⟨hpos, hsize⟩ := hbounded
      obtain rfl := hpadding rfl
      rw [writeField, if_neg (by omega)] at hwrite
      obtain rfl := Option.some.inj hwrite
      have hread : StateT.run (readPaddingFrom 1) (List.replicate (size - 1) 0) =
          some (size, []) := by
        have hread := readPaddingFrom_replicate 1 (size - 1) (by omega)
        rwa [Nat.add_sub_cancel' hpos] at hread
      simp [readField, hread]
    | pubKey key =>
      obtain rfl := Option.some.inj hwrite
      simp [readField]
    | nonce data =>
      have hbounded : data.length ≤ 255 := hbounded
      rw [writeField, if_neg (by omega)] at hwrite
      obtain rfl := Option.some.inj hwrite
      have hread : readString.run (writeString data ++ rest) = some (data, rest) :=
        readString_writeString (by omega) rest
      have hfits : ¬255 < data.length := by omega
      simp [readField, hread, hfits]
    | mergeMiningTag depth root =>
      obtain rfl := Option.some.inj hwrite
      have hlength : (varint depth.toNat ++ root.data).length < 2 ^ 64 := by
        have := length_varint_le depth.toNat
        rw [List.length_append, root.length_data]
        omega
      have hread : readString.run (writeString (varint depth.toNat ++ root.data) ++ rest) =
          some (varint depth.toNat ++ root.data, rest) := readString_writeString hlength rest
      have htag : readMergeMiningTag (varint depth.toNat ++ root.data) =
          some (.mergeMiningTag depth root) := by
        have hroot : Reader.block 32 root.data = some (root, []) := by
          simpa [StateT.run] using Reader.run_block_append root []
        rw [readMergeMiningTag, readVarint_varint depth.toNat_lt]
        simp [hroot]
      simp [readField, hread, htag]
    | additionalPubKeys data =>
      have hbounded : data.length < 2 ^ 64 := hbounded
      obtain rfl := Option.some.inj hwrite
      have hread : readKeyVector.run (varint data.length ++ (data.map Block.data).flatten ++ rest) =
          some (data, rest) := by
        have hlength : ¬((data.map Block.data).flatten ++ rest).length < data.length := by
          simp [List.length_flatten, Function.comp_def]
          omega
        rw [readKeyVector, List.append_assoc, StateT.run_bind, StateT.run,
          readVarint_varint hbounded]
        simp only [Option.bind_eq_bind, Option.bind_some, StateT.run, if_neg hlength]
        exact readKeys_flatten data rest
      rw [List.append_assoc] at hread
      simp [readField, hread]
    | eposeV2 data =>
      obtain rfl := Option.some.inj hwrite
      have hread : readString.run (writeString data ++ rest) = some (data, rest) :=
        readString_writeString hbounded rest
      simp [readField, hread]
    | mysteriousMinergate data =>
      obtain rfl := Option.some.inj hwrite
      have hread : readString.run (writeString data ++ rest) = some (data, rest) :=
        readString_writeString hbounded rest
      simp [readField, hread]
  exact hrun

lemma exists_of_run_map {α β : Type} {read : Reader α} {f : α → β} {b : β}
    {input rest : List UInt8}
    (h : (do return f (← read) : Reader β).run input = some (b, rest)) :
    ∃ a, read.run input = some (a, rest) ∧ f a = b := by
  rw [StateT.run_bind] at h
  obtain ⟨⟨a, rest'⟩, hread, h⟩ := Option.bind_eq_some_iff.mp h
  obtain ⟨rfl, rfl⟩ := Prod.mk.inj (Option.some.inj h)
  exact ⟨a, hread, rfl⟩

lemma length_lt_of_readKeyVector {keys : List PublicKey} {input rest : List UInt8}
    (h : readKeyVector input = some (keys, rest)) : keys.length < 2 ^ 64 := by
  have h : readKeyVector.run input = some (keys, rest) := h
  rw [readKeyVector, StateT.run_bind] at h
  obtain ⟨⟨count, body⟩, hcount, h⟩ := Option.bind_eq_some_iff.mp h
  simp only [StateT.run] at h
  split_ifs at h
  rw [length_readKeys h]
  exact readVarint_lt hcount

lemma exists_of_readMergeMiningTag {input : List UInt8} {field : TxExtraField}
    (h : readMergeMiningTag input = some field) :
    ∃ depth root, field = .mergeMiningTag depth root := by
  simp only [readMergeMiningTag, Option.bind_eq_bind, Option.bind_eq_some_iff, Prod.exists] at h
  obtain ⟨depth, rest, -, root, rest', -, h⟩ := h
  split_ifs at h
  exact ⟨_, _, (Option.some.inj h).symm⟩

lemma bounded_of_readField {field : TxExtraField} {input rest : List UInt8}
    (h : readField input = some (field, rest)) :
    field.Bounded ∧ (field.isPadding = true → rest = []) := by
  obtain _ | ⟨tag, input⟩ := input
  · cases h
  have h : (if tag = 0x00 then (do return .padding (← readPaddingFrom 1) : Reader TxExtraField)
      else if tag = 0x01 then do return .pubKey (← Reader.block 32)
      else if tag = 0x02 then do
        let nonce ← readString
        if 255 < nonce.length then failure else return .nonce nonce
      else if tag = 0x03 then do
        let field ← readString
        StateT.lift (readMergeMiningTag field)
      else if tag = 0x04 then do return .additionalPubKeys (← readKeyVector)
      else if tag = 0x05 then do return .eposeV2 (← readString)
      else if tag = 0xde then do return .mysteriousMinergate (← readString)
      else failure : Reader TxExtraField).run input = some (field, rest) := h
  split_ifs at h
  · obtain ⟨size, hread, rfl⟩ := exists_of_run_map h
    obtain ⟨hpos, hsize, hrest⟩ := readPaddingFrom_eq_some hread
    exact ⟨⟨hpos, hsize⟩, fun _ => hrest⟩
  · obtain ⟨key, -, rfl⟩ := exists_of_run_map h
    exact ⟨trivial, fun h => by cases h⟩
  · rw [StateT.run_bind] at h
    obtain ⟨⟨nonce, rest'⟩, -, h⟩ := Option.bind_eq_some_iff.mp h
    dsimp only at h
    split_ifs at h with hlarge
    · cases h
    · obtain ⟨rfl, rfl⟩ := Prod.mk.inj (Option.some.inj h)
      exact ⟨not_lt.mp hlarge, fun h => by cases h⟩
  · rw [StateT.run_bind] at h
    obtain ⟨⟨data, rest'⟩, -, h⟩ := Option.bind_eq_some_iff.mp h
    rw [StateT.run_lift] at h
    obtain ⟨field', hfield, h⟩ := Option.bind_eq_some_iff.mp h
    obtain ⟨rfl, rfl⟩ := Prod.mk.inj (Option.some.inj h)
    obtain ⟨depth, root, rfl⟩ := exists_of_readMergeMiningTag hfield
    exact ⟨trivial, fun h => by cases h⟩
  · obtain ⟨data, hread, rfl⟩ := exists_of_run_map h
    exact ⟨length_lt_of_readKeyVector hread, fun h => by cases h⟩
  · obtain ⟨data, hread, rfl⟩ := exists_of_run_map h
    exact ⟨length_lt_of_readString hread, fun h => by cases h⟩
  · obtain ⟨data, hread, rfl⟩ := exists_of_run_map h
    exact ⟨length_lt_of_readString hread, fun h => by cases h⟩
  · cases h

/-! ## Sequences of fields -/

/-- The fields of a canonical extra field: their sizes fit, padding can only be the last of them,
and they are serialized to these bytes. -/
structure Canonical (fields : List TxExtraField) (extra : List UInt8) : Prop where
  bounded : ∀ field ∈ fields, field.Bounded
  padding_last : fields.Pairwise fun field _ => field.isPadding = false
  serialized : serializeExtraFields fields = some extra

lemma writeField_ne_nil {field : TxExtraField} {bytes : List UInt8}
    (h : writeField field = some bytes) : bytes ≠ [] := by
  cases field <;> simp only [writeField] at h <;> try split_ifs at h
  all_goals
    obtain rfl := Option.some.inj h
    exact List.cons_ne_nil _ _

lemma serializeExtraFields_append {fields fields' : List TxExtraField} {bytes : List UInt8} :
    serializeExtraFields (fields ++ fields') = some bytes ↔
      ∃ left right, serializeExtraFields fields = some left ∧
        serializeExtraFields fields' = some right ∧ bytes = left ++ right := by
  induction fields generalizing bytes with
  | nil => simp [serializeExtraFields, eq_comm]
  | cons field fields ih =>
    simp only [List.cons_append, serializeExtraFields, Option.bind_eq_bind,
      Option.bind_eq_some_iff, ih, Option.pure_def, Option.some.injEq]
    constructor
    · rintro ⟨first, hfirst, rest, ⟨left, right, hleft, hright, rfl⟩, rfl⟩
      exact ⟨first ++ left, right, ⟨first, hfirst, left, hleft, rfl⟩, hright,
        (List.append_assoc ..).symm⟩
    · rintro ⟨left, right, ⟨first, hfirst, rest, hrest, rfl⟩, hright, rfl⟩
      exact ⟨first, hfirst, rest ++ right, ⟨rest, right, hrest, hright, rfl⟩,
        (List.append_assoc ..).symm⟩

lemma serializeExtraFields_singleton (field : TxExtraField) :
    serializeExtraFields [field] = writeField field := by
  cases h : writeField field <;> simp [serializeExtraFields, h]

lemma length_le_of_serializeExtraFields {fields : List TxExtraField} {bytes : List UInt8}
    (h : serializeExtraFields fields = some bytes) : fields.length ≤ bytes.length := by
  induction fields generalizing bytes with
  | nil => simp
  | cons field fields ih =>
    simp only [serializeExtraFields, Option.bind_eq_bind, Option.bind_eq_some_iff,
      Option.pure_def, Option.some.injEq] at h
    obtain ⟨first, hfirst, rest, hrest, rfl⟩ := h
    have hpos := List.length_pos_iff.mpr (writeField_ne_nil hfirst)
    have hle := ih hrest
    rw [List.length_cons, List.length_append]
    omega

/-- The parser goes over fields that are not padding, and on with what follows them. -/
lemma parseFields_append {fields : List TxExtraField} {bytes : List UInt8}
    (hbounded : ∀ field ∈ fields, field.Bounded)
    (hpadding : ∀ field ∈ fields, field.isPadding = false)
    (hserialized : serializeExtraFields fields = some bytes) {rest : List UInt8}
    (hrest : rest ≠ []) (fuel : ℕ) :
    parseFields true (fields.length + fuel) (bytes ++ rest) =
      ((parseFields true fuel rest).1, fields ++ (parseFields true fuel rest).2) := by
  induction fields generalizing bytes with
  | nil =>
    obtain rfl := Option.some.inj hserialized
    simp
  | cons field fields ih =>
    simp only [serializeExtraFields, Option.bind_eq_bind, Option.bind_eq_some_iff,
      Option.pure_def, Option.some.injEq] at hserialized
    obtain ⟨first, hfirst, tail, htail, rfl⟩ := hserialized
    obtain ⟨hfield, hfields⟩ := List.forall_mem_cons.mp hbounded
    obtain ⟨hnot, hnots⟩ := List.forall_mem_cons.mp hpadding
    have hread : readField (first ++ (tail ++ rest)) = some (field, tail ++ rest) :=
      readField_writeField hfield hfirst fun h => by simp [hnot] at h
    have hne : tail ++ rest ≠ [] := by simp [hrest]
    rw [List.length_cons, Nat.add_right_comm, parseFields, List.append_assoc, hread]
    simp only [Bool.not_true, Bool.false_and, Bool.false_eq_true, if_false, if_neg hne,
      ih hfields hnots htail, List.cons_append]

lemma parseFields_eq_true {allow : Bool} {fuel : ℕ} {input : List UInt8}
    {fields : List TxExtraField} (h : parseFields allow fuel input = (true, fields)) :
    (∀ field ∈ fields, field.Bounded) ∧
      fields.Pairwise fun field _ => field.isPadding = false := by
  induction fuel generalizing input fields with
  | zero => cases h
  | succ fuel ih =>
    rw [parseFields] at h
    split at h
    · cases h
    rename_i field rest hread
    obtain ⟨hbounded, hpadding⟩ := bounded_of_readField hread
    split_ifs at h with hepose hrest
    · cases h
    · obtain ⟨-, rfl⟩ := Prod.mk.inj h
      simpa using hbounded
    · obtain ⟨hok, rfl⟩ := Prod.mk.inj h
      obtain ⟨hfields, hlast⟩ := ih (Prod.ext hok rfl)
      refine ⟨List.forall_mem_cons.mpr ⟨hbounded, hfields⟩, List.pairwise_cons.mpr ⟨?_, hlast⟩⟩
      intro _ _
      by_contra hpad
      exact hrest (hpadding (by simpa using hpad))

/-- An extra field that is read to its end and serialized as it was is canonical, and there is one
way to read it. -/
lemma parseTxExtraStrict_eq_some_iff {extra : List UInt8} {fields : List TxExtraField} :
    parseTxExtraStrict extra true = some fields ∧ serializeExtraFields fields = some extra ↔
      Canonical fields extra := by
  constructor
  · rintro ⟨hparse, hserialized⟩
    unfold parseTxExtraStrict parseTxExtra at hparse
    split_ifs at hparse with hnil
    · obtain rfl := Option.some.inj hparse
      exact ⟨by simp, .nil, hserialized⟩
    · split at hparse
      · rename_i parsed hparsed
        obtain rfl := Option.some.inj hparse
        obtain ⟨hbounded, hlast⟩ := parseFields_eq_true hparsed
        exact ⟨hbounded, hlast, hserialized⟩
      · cases hparse
  · rintro ⟨hbounded, hlast, hserialized⟩
    refine ⟨?_, hserialized⟩
    obtain rfl | ⟨init, last, rfl⟩ := List.eq_nil_or_concat fields
    · obtain rfl := Option.some.inj hserialized
      rfl
    rw [List.concat_eq_append] at *
    have hlength := length_le_of_serializeExtraFields hserialized
    obtain ⟨left, right, hinit, hwrite, rfl⟩ := serializeExtraFields_append.mp hserialized
    rw [serializeExtraFields_singleton] at hwrite
    have hne := writeField_ne_nil hwrite
    obtain ⟨-, -, hnot⟩ := List.pairwise_append.mp hlast
    have hread : readField (right ++ []) = some (last, []) :=
      readField_writeField (hbounded last (by simp)) hwrite fun _ => rfl
    rw [List.append_nil] at hread
    have hparse := parseFields_append (fun field hmem => hbounded field (by simp [hmem]))
      (fun field hmem => hnot field hmem last (by simp)) hinit hne
    obtain ⟨fuel, hfuel⟩ := Nat.exists_eq_add_of_le hlength
    have hone : parseFields true (1 + fuel) right = (true, [last]) := by
      rw [Nat.add_comm, parseFields, hread]
      simp
    have hfuel : (left ++ right).length = init.length + (1 + fuel) := by
      rw [hfuel, List.length_append, List.length_singleton, Nat.add_assoc]
    have hall := hparse (1 + fuel)
    rw [hone] at hall
    unfold parseTxExtraStrict parseTxExtra
    rw [if_neg (by simp [hne]), hfuel, hall]

end Qwertycoin
