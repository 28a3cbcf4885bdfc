import Qwertycoin.ExtraCodec

/-
# Appending to the extra field

A field is appended to an extra field byte by byte, behind the fields that are there.  The parser
then reads the old fields as before, unless the last of them took the end of the input for its own
end.  Padding does so, and so does a length that is cut off by the end of the input: the archive
accepts it with the groups it has, and what is appended continues it.

`sort_tx_extra` reads all fields and writes them in a fixed order of their types.
-/

namespace Qwertycoin

open Bytes

/-! ## Lengths that are cut off -/

section Varint

variable {shift acc v : ℕ} {input rest : List UInt8}

/-- A number that was read is read in the same way from a longer input, or all its groups are marked
to be continued. -/
lemma readVarintFrom_append (h : readVarintFrom shift acc input = some (v, rest)) :
    (∀ more, readVarintFrom shift acc (input ++ more) = some (v, rest ++ more)) ∨
      (rest = [] ∧ ∀ b ∈ input, 128 ≤ b.toNat) := by
  induction input generalizing shift acc with
  | nil =>
    rw [readVarintFrom] at h
    split_ifs at h
    obtain ⟨-, rfl⟩ := Prod.mk.inj (Option.some.inj h)
    exact Or.inr ⟨rfl, fun b hb => absurd hb List.not_mem_nil⟩
  | cons b input ih =>
    rw [readVarintFrom] at h
    split_ifs at h with hoverflow hrepresent hlast
    · obtain ⟨rfl, rfl⟩ := Prod.mk.inj (Option.some.inj h)
      refine Or.inl fun more => ?_
      rw [List.cons_append, readVarintFrom, if_neg hoverflow, if_neg hrepresent, if_pos hlast]
    · rcases ih h with hread | ⟨hrest, hmarked⟩
      · refine Or.inl fun more => ?_
        rw [List.cons_append, readVarintFrom, if_neg hoverflow, if_neg hrepresent, if_neg hlast]
        exact hread more
      · exact Or.inr ⟨hrest, List.forall_mem_cons.mpr ⟨not_lt.mp hlast, hmarked⟩⟩

lemma readVarintFrom_continued {b : UInt8} {w : ℕ} {more rest' : List UInt8}
    (h : readVarintFrom shift acc input = some (v, [])) (hmarked : ∀ b ∈ input, 128 ≤ b.toNat)
    (hb : b.toNat < 128)
    (h' : readVarintFrom shift acc (input ++ b :: more) = some (w, rest')) :
    w = v + b.toNat * 2 ^ (shift + 7 * input.length) ∧ rest' = more := by
  induction input generalizing shift acc with
  | nil =>
    rw [readVarintFrom] at h
    split_ifs at h
    obtain ⟨rfl, -⟩ := Prod.mk.inj (Option.some.inj h)
    rw [List.nil_append, readVarintFrom, if_pos hb] at h'
    split_ifs at h'
    obtain ⟨rfl, rfl⟩ := Prod.mk.inj (Option.some.inj h')
    exact ⟨rfl, rfl⟩
  | cons c input ih =>
    obtain ⟨hc, hmarked⟩ := List.forall_mem_cons.mp hmarked
    rw [readVarintFrom, if_neg (not_lt.mpr hc)] at h
    rw [List.cons_append, readVarintFrom, if_neg (not_lt.mpr hc)] at h'
    split_ifs at h h'
    obtain ⟨rfl, hrest⟩ := ih h hmarked h'
    refine ⟨?_, hrest⟩
    rw [List.length_cons]
    congr 3
    omega

/-- A number that is zero and was not cut off ends in a zero byte. -/
lemma getLast?_of_readVarintFrom (h : readVarintFrom shift acc input = some (0, []))
    (hopen : ¬∀ b ∈ input, 128 ≤ b.toNat) : input.getLast? = some 0 := by
  induction input generalizing shift acc with
  | nil => exact absurd (fun b hb => absurd hb List.not_mem_nil) hopen
  | cons b input ih =>
    rw [readVarintFrom] at h
    split_ifs at h with hoverflow hrepresent hlast
    · obtain ⟨hzero, rfl⟩ := Prod.mk.inj (Option.some.inj h)
      have hpow := Nat.two_pow_pos shift
      have hb : b.toNat = 0 := by
        rcases Nat.mul_eq_zero.mp (Nat.eq_zero_of_add_eq_zero_left hzero) with hb | hb
        · exact hb
        · omega
      rw [List.getLast?_singleton, ← UInt8.toNat_inj.mp (hb.trans UInt8.toNat_zero.symm)]
    · have hopen' : ¬∀ b ∈ input, 128 ≤ b.toNat := fun hmarked =>
        hopen (List.forall_mem_cons.mpr ⟨not_lt.mp hlast, hmarked⟩)
      have hlast := ih h hopen'
      rw [List.getLast?_cons, hlast]
      rfl

lemma suffix_of_readVarintFrom (h : readVarintFrom shift acc input = some (v, rest)) :
    rest <:+ input := by
  induction input generalizing shift acc with
  | nil =>
    rw [readVarintFrom] at h
    split_ifs at h
    obtain ⟨-, rfl⟩ := Prod.mk.inj (Option.some.inj h)
    exact List.suffix_rfl
  | cons b input ih =>
    rw [readVarintFrom] at h
    split_ifs at h
    · obtain ⟨-, rfl⟩ := Prod.mk.inj (Option.some.inj h)
      exact List.suffix_cons b _
    · exact (ih h).trans (List.suffix_cons b input)

end Varint

/-- The input is a length that its end cuts off, with the value zero. -/
structure CutOff (input : List UInt8) : Prop where
  read_eq : readVarint input = some (0, [])
  marked : ∀ b ∈ input, 128 ≤ b.toNat

lemma CutOff.ne_nil {input : List UInt8} (h : CutOff input) : input ≠ [] := by
  rintro rfl
  have hread := h.read_eq
  simp [readVarint, readVarintFrom] at hread

lemma CutOff.getLast? {input : List UInt8} (h : CutOff input) : input.getLast? ≠ some 0 := by
  intro hlast
  have hmarked := h.marked 0 (List.mem_of_getLast? hlast)
  exact absurd hmarked (by decide)

/-- A length that was cut off becomes at least 256 when a nonce is appended. -/
lemma CutOff.continued {input more rest : List UInt8} {w : ℕ} (h : CutOff input)
    (h' : readVarint (input ++ 0x02 :: more) = some (w, rest)) : 256 ≤ w ∧ rest = more := by
  obtain ⟨hw, hrest⟩ := readVarintFrom_continued h.read_eq h.marked (by decide) h'
  have hlen := List.length_pos_of_ne_nil h.ne_nil
  have hpow : (2 : ℕ) ^ 7 ≤ 2 ^ (0 + 7 * input.length) :=
    Nat.pow_le_pow_right (by norm_num) (by omega)
  have htwo : (0x02 : UInt8).toNat = 2 := rfl
  rw [htwo] at hw
  exact ⟨by omega, hrest⟩

/-! ## Fields of a longer input -/

section Fields

variable {input rest : List UInt8}

lemma readString_eq_some_iff {data : List UInt8} :
    readString input = some (data, rest) ↔ ∃ size body, readVarint input = some (size, body) ∧
      size ≤ body.length ∧ body.take size = data ∧ body.drop size = rest := by
  have hrun : readString input = (readVarint input).bind fun part =>
      if part.2.length < part.1 then none
      else some (part.2.take part.1, part.2.drop part.1) := rfl
  rw [hrun, Option.bind_eq_some_iff, Prod.exists]
  refine exists_congr fun size => exists_congr fun body => and_congr_right fun _ => ?_
  split_ifs with hshort
  · exact ⟨fun h => (by cases h), fun h => absurd h.1 (not_le.mpr hshort)⟩
  · rw [Option.some.injEq, Prod.mk.injEq]
    exact ⟨fun h => ⟨not_lt.mp hshort, h⟩, fun h => h.2⟩

/-- A string is read as before from a longer input, or its length was cut off. -/
lemma readString_append {data : List UInt8} (h : readString input = some (data, rest)) :
    (∀ more, readString (input ++ more) = some (data, rest ++ more)) ∨
      (data = [] ∧ rest = [] ∧ CutOff input) := by
  obtain ⟨size, body, hsize, hle, rfl, rfl⟩ := readString_eq_some_iff.mp h
  rcases readVarintFrom_append hsize with hread | ⟨rfl, hmarked⟩
  · refine Or.inl fun more => readString_eq_some_iff.mpr ⟨size, body ++ more, hread more, ?_, ?_, ?_⟩
    · rw [List.length_append]
      omega
    · rw [List.take_append_of_le_length hle]
    · rw [List.drop_append_of_le_length hle]
  · obtain rfl := Nat.le_zero.mp hle
    exact Or.inr ⟨rfl, rfl, hsize, hmarked⟩

lemma readKeys_append {n : ℕ} {keys : List PublicKey} (h : readKeys n input = some (keys, rest)) :
    (∃ keys, input = keys ++ rest ∧ keys.length = 32 * n) ∧
      ∀ more, readKeys n (input ++ more) = some (keys, rest ++ more) := by
  induction n generalizing input keys with
  | zero =>
    obtain ⟨rfl, rfl⟩ := Prod.mk.inj (Option.some.inj h)
    exact ⟨⟨[], rfl, rfl⟩, fun more => rfl⟩
  | succ n ih =>
    have hrun : (readKeys (n + 1)).run input = some (keys, rest) := h
    obtain ⟨key, middle, rfl, hkeys⟩ := Reader.of_run_bind_block hrun
    obtain ⟨tail, middle', htail, heq⟩ := Reader.of_run_bind hkeys
    obtain ⟨rfl, rfl⟩ := Prod.mk.inj (Option.some.inj heq)
    obtain ⟨⟨keys, rfl, hlength⟩, hmore⟩ := ih htail
    refine ⟨⟨key.data ++ keys, (List.append_assoc ..).symm, ?_⟩, fun more => ?_⟩
    · rw [List.length_append, key.length_data, hlength]
      omega
    have happend : (readKeys (n + 1)).run (key.data ++ (keys ++ middle' ++ more)) =
        some (key :: tail, middle' ++ more) := by
      rw [readKeys, Reader.run_bind_block, StateT.run_bind, StateT.run, hmore more]
      rfl
    rw [List.append_assoc]
    exact happend

lemma readKeyVector_eq_some_iff {keys : List PublicKey} :
    readKeyVector input = some (keys, rest) ↔ ∃ count body,
      readVarint input = some (count, body) ∧ count ≤ body.length ∧
        readKeys count body = some (keys, rest) := by
  have hrun : readKeyVector input = (readVarint input).bind fun part =>
      if part.2.length < part.1 then none else readKeys part.1 part.2 := rfl
  rw [hrun, Option.bind_eq_some_iff, Prod.exists]
  refine exists_congr fun count => exists_congr fun body => and_congr_right fun _ => ?_
  split_ifs with hshort
  · exact ⟨fun h => (by cases h), fun h => absurd h.1 (not_le.mpr hshort)⟩
  · exact ⟨fun h => ⟨not_lt.mp hshort, h⟩, fun h => h.2⟩

lemma readKeyVector_append {keys : List PublicKey}
    (h : readKeyVector input = some (keys, rest)) :
    (∀ more, readKeyVector (input ++ more) = some (keys, rest ++ more)) ∨
      (rest = [] ∧ CutOff input) := by
  obtain ⟨count, body, hcount, hle, hkeys⟩ := readKeyVector_eq_some_iff.mp h
  obtain ⟨⟨front, hfront, hlength⟩, hmore⟩ := readKeys_append hkeys
  rcases readVarintFrom_append hcount with hread | ⟨rfl, hmarked⟩
  · refine Or.inl fun more => readKeyVector_eq_some_iff.mpr
      ⟨count, body ++ more, hread more, ?_, hmore more⟩
    rw [List.length_append]
    omega
  · obtain rfl := Nat.le_zero.mp hle
    obtain ⟨-, rfl⟩ := List.append_eq_nil_iff.mp hfront.symm
    exact Or.inr ⟨rfl, hcount, hmarked⟩

/-- The bytes behind a tag. -/
def readFieldOf (tag : UInt8) : Reader TxExtraField :=
  if tag = 0x00 then do return .padding (← readPaddingFrom 1)
  else if tag = 0x01 then do return .pubKey (← Reader.block 32)
  else if tag = 0x02 then do
    let nonce ← readString
    if 255 < nonce.length then failure else return .nonce nonce
  else if tag = 0x03 then do
    let field ← readString
    StateT.lift (readMergeMiningTag field)
  else if tag = 0x04 then do return .additionalPubKeys (← readKeyVector)
  else if tag = 0x05 then do return .eposeV2 (← readString)
  else if tag = 0xde then do return .mysteriousMinergate (← readString)
  else failure

lemma readField_cons (tag : UInt8) (input : List UInt8) :
    readField (tag :: input) = (readFieldOf tag).run input := rfl

lemma run_map_eq_some {α β : Type} {read : Reader α} {f : α → β} {a : α}
    (h : read.run input = some (a, rest)) :
    (do return f (← read) : Reader β).run input = some (f a, rest) := by
  rw [StateT.run_bind, h]
  rfl

/-- Reading a field goes on as before in a longer input, unless the field ends where the input
does: then it is padding, or its length was cut off. -/
lemma readField_append {tag : UInt8} {field : TxExtraField}
    (h : readField (tag :: input) = some (field, rest)) :
    (∀ more, readField (tag :: input ++ more) = some (field, rest ++ more)) ∨
      rest = [] ∧ (tag = 0x00 ∨
        CutOff input ∧ (tag = 0x02 ∨ tag = 0x04 ∨ tag = 0x05 ∨ tag = 0xde)) := by
  have h : (readFieldOf tag).run input = some (field, rest) := h
  simp only [List.cons_append, readField_cons]
  rw [readFieldOf] at h ⊢
  split_ifs at h ⊢ with hpad hkey hnonce hmerge hkeys hepose hminergate
  · obtain ⟨size, hread, -⟩ := exists_of_run_map h
    obtain ⟨-, -, rfl⟩ := readPaddingFrom_eq_some hread
    exact Or.inr ⟨rfl, Or.inl hpad⟩
  · obtain ⟨key, hread, rfl⟩ := exists_of_run_map h
    obtain rfl := Reader.eq_append_of_run_block hread
    refine Or.inl fun more => run_map_eq_some ?_
    rw [List.append_assoc, Reader.run_block_append]
  · obtain ⟨nonce, middle, hread, hrest⟩ := Reader.of_run_bind h
    split_ifs at hrest with hlarge
    · cases hrest
    obtain ⟨rfl, rfl⟩ := Prod.mk.inj (Option.some.inj hrest)
    rcases readString_append hread with hmore | ⟨-, rfl, hcut⟩
    · refine Or.inl fun more => ?_
      rw [StateT.run_bind, StateT.run, hmore more]
      exact congrArg (fun reader : Reader TxExtraField => reader.run _) (if_neg hlarge)
    · exact Or.inr ⟨rfl, Or.inr ⟨hcut, Or.inl hnonce⟩⟩
  · obtain ⟨data, middle, hread, hrest⟩ := Reader.of_run_bind h
    rw [StateT.run_lift] at hrest
    obtain ⟨field', hfield, hrest⟩ := Option.bind_eq_some_iff.mp hrest
    obtain ⟨rfl, rfl⟩ := Prod.mk.inj (Option.some.inj hrest)
    rcases readString_append hread with hmore | ⟨rfl, -, -⟩
    · refine Or.inl fun more => ?_
      rw [StateT.run_bind, StateT.run, hmore more]
      exact (congrArg (fun result => result.bind fun a => some (a, middle ++ more)) hfield)
    · -- the tag does not fit in an empty string
      cases hfield
  · obtain ⟨data, hread, rfl⟩ := exists_of_run_map h
    exact (readKeyVector_append hread).imp (fun hmore more => run_map_eq_some (hmore more))
      fun ⟨hrest, hcut⟩ => ⟨hrest, Or.inr ⟨hcut, Or.inr (Or.inl hkeys)⟩⟩
  · obtain ⟨data, hread, rfl⟩ := exists_of_run_map h
    exact (readString_append hread).imp (fun hmore more => run_map_eq_some (hmore more))
      fun ⟨_, hrest, hcut⟩ => ⟨hrest, Or.inr ⟨hcut, Or.inr (Or.inr (Or.inl hepose))⟩⟩
  · obtain ⟨data, hread, rfl⟩ := exists_of_run_map h
    exact (readString_append hread).imp (fun hmore more => run_map_eq_some (hmore more))
      fun ⟨_, hrest, hcut⟩ => ⟨hrest, Or.inr ⟨hcut, Or.inr (Or.inr (Or.inr hminergate))⟩⟩
  · cases h

end Fields

/-! ## What a cut-off length swallows -/

section Continued

variable {input rest : List UInt8}

lemma eq_zero_of_readPaddingFrom {size size' : ℕ}
    (h : readPaddingFrom size input = some (size', rest)) : ∀ b ∈ input, b = 0 := by
  induction input generalizing size with
  | nil => exact fun b hb => absurd hb List.not_mem_nil
  | cons b input ih =>
    rw [readPaddingFrom] at h
    split_ifs at h with hzero
    exact List.forall_mem_cons.mpr ⟨hzero.2, ih h⟩

lemma readString_of_readField {tag : UInt8} {data : List UInt8}
    (h : readField (tag :: input) = some (.mysteriousMinergate data, rest)) :
    tag = 0xde ∧ readString input = some (data, rest) := by
  have h : (readFieldOf tag).run input = some (.mysteriousMinergate data, rest) := h
  rw [readFieldOf] at h
  split_ifs at h with hpad hkey hnonce hmerge hkeys hepose hminergate
  · obtain ⟨_, -, heq⟩ := exists_of_run_map h
    cases heq
  · obtain ⟨_, -, heq⟩ := exists_of_run_map h
    cases heq
  · obtain ⟨nonce, middle, -, hrest⟩ := Reader.of_run_bind h
    split_ifs at hrest <;> cases hrest
  · obtain ⟨data', middle, -, hrest⟩ := Reader.of_run_bind h
    rw [StateT.run_lift] at hrest
    obtain ⟨field', hfield, hrest⟩ := Option.bind_eq_some_iff.mp hrest
    obtain ⟨rfl, -⟩ := Prod.mk.inj (Option.some.inj hrest)
    obtain ⟨depth, root, heq⟩ := exists_of_readMergeMiningTag hfield
    cases heq
  · obtain ⟨_, -, heq⟩ := exists_of_run_map h
    cases heq
  · obtain ⟨_, -, heq⟩ := exists_of_run_map h
    cases heq
  · obtain ⟨_, hread, heq⟩ := exists_of_run_map h
    cases heq
    exact ⟨hminergate, hread⟩
  · cases h

/-- The length of an empty field was cut off by the end of the input: it is not the zero byte that
a complete length of zero is. -/
def EndsInsideLength (extra : List UInt8) (fields : List TxExtraField) : Prop :=
  fields.getLast? = some (.mysteriousMinergate []) ∧ extra.getLast? ≠ some 0

instance (extra : List UInt8) (fields : List TxExtraField) :
    Decidable (EndsInsideLength extra fields) := inferInstanceAs (Decidable (_ ∧ _))

/-- A cut-off length is the length of the old and, continued, of a much larger field. -/
lemma CutOff.readString_continued {data more : List UInt8} (hcut : CutOff input)
    (h : readString (input ++ 0x02 :: more) = some (data, rest)) : 256 ≤ data.length := by
  obtain ⟨size, body, hsize, hle, rfl, -⟩ := readString_eq_some_iff.mp h
  rw [List.length_take_of_le hle]
  exact (hcut.continued hsize).1

/-- An empty field that stays empty when a nonce is appended ends in a zero byte. -/
lemma getLast?_of_readField {tag : UInt8} {more : List UInt8}
    (h : readField (tag :: input) = some (.mysteriousMinergate [], []))
    (h' : readField (tag :: input ++ 0x02 :: more) = some (.mysteriousMinergate [], rest)) :
    (tag :: input).getLast? = some 0 := by
  obtain ⟨-, hread⟩ := readString_of_readField h
  obtain ⟨-, hread'⟩ := readString_of_readField h'
  obtain ⟨size, body, hsize, hle, htake, hdrop⟩ := readString_eq_some_iff.mp hread
  obtain rfl : body = [] := by rw [← List.take_append_drop size body, htake, hdrop]; rfl
  obtain rfl := Nat.le_zero.mp hle
  by_cases hmarked : ∀ b ∈ input, 128 ≤ b.toNat
  · exact absurd (CutOff.readString_continued ⟨hsize, hmarked⟩ hread') (by simp)
  · have hlast := getLast?_of_readVarintFrom hsize hmarked
    rw [List.getLast?_cons, hlast]
    rfl

/-- When a nonce is appended to an input whose last field ended with it, reading fails or needs many
more bytes, or the field was an empty one that now swallows what was appended. -/
lemma readField_continued {tag : UInt8} {field field' : TxExtraField} {more rest' : List UInt8}
    (h : readField (tag :: input) = some (field, rest)) (hepose : field.isEposeV2 = false)
    (hopen : tag = 0x00 ∨ CutOff input ∧ (tag = 0x02 ∨ tag = 0x04 ∨ tag = 0x05 ∨ tag = 0xde))
    (hshort : more.length < 8192)
    (h' : readField (tag :: input ++ 0x02 :: more) = some (field', rest')) :
    field = .mysteriousMinergate [] ∧ CutOff input ∧
      ∃ data, 256 ≤ data.length ∧ field' = .mysteriousMinergate data := by
  have h : (readFieldOf tag).run input = some (field, rest) := h
  have h' : (readFieldOf tag).run (input ++ 0x02 :: more) = some (field', rest') := h'
  rcases hopen with rfl | ⟨hcut, rfl | rfl | rfl | rfl⟩
  · obtain ⟨size, hread, -⟩ := exists_of_run_map h'
    exact absurd (eq_zero_of_readPaddingFrom hread 0x02 (by simp)) (by decide)
  · obtain ⟨nonce, middle, hread, hrest⟩ := Reader.of_run_bind h'
    have hlarge := hcut.readString_continued hread
    rw [if_pos (by omega)] at hrest
    cases hrest
  · obtain ⟨keys, hread, -⟩ := exists_of_run_map h'
    obtain ⟨count, body, hcount, -, hkeys⟩ := readKeyVector_eq_some_iff.mp hread
    obtain ⟨hlarge, rfl⟩ := hcut.continued hcount
    obtain ⟨⟨front, rfl, hlength⟩, -⟩ := readKeys_append hkeys
    rw [List.length_append] at hshort
    omega
  · obtain ⟨data, -, rfl⟩ := exists_of_run_map h
    cases hepose
  · obtain ⟨data, hread, rfl⟩ := exists_of_run_map h
    obtain ⟨data', hread', rfl⟩ := exists_of_run_map h'
    refine ⟨?_, hcut, data', hcut.readString_continued hread', rfl⟩
    obtain ⟨size, body, hsize, hle, rfl, -⟩ := readString_eq_some_iff.mp hread
    have hzero := hcut.read_eq
    rw [hsize] at hzero
    obtain ⟨rfl, -⟩ := Prod.mk.inj (Option.some.inj hzero)
    rfl

end Continued

lemma suffix_of_readString {data input rest : List UInt8}
    (h : readString input = some (data, rest)) : rest <:+ input := by
  obtain ⟨size, body, hsize, -, -, rfl⟩ := readString_eq_some_iff.mp h
  exact (List.drop_suffix size body).trans (suffix_of_readVarintFrom hsize)

lemma suffix_of_readField {tag : UInt8} {field : TxExtraField} {input rest : List UInt8}
    (h : readField (tag :: input) = some (field, rest)) : rest <:+ input := by
  have h : (readFieldOf tag).run input = some (field, rest) := h
  rw [readFieldOf] at h
  split_ifs at h
  · obtain ⟨size, hread, -⟩ := exists_of_run_map h
    obtain ⟨-, -, rfl⟩ := readPaddingFrom_eq_some hread
    exact List.nil_suffix
  · obtain ⟨key, hread, -⟩ := exists_of_run_map h
    obtain rfl := Reader.eq_append_of_run_block hread
    exact List.suffix_append _ _
  · obtain ⟨nonce, middle, hread, hrest⟩ := Reader.of_run_bind h
    split_ifs at hrest
    · cases hrest
    obtain ⟨-, rfl⟩ := Prod.mk.inj (Option.some.inj hrest)
    exact suffix_of_readString hread
  · obtain ⟨data, middle, hread, hrest⟩ := Reader.of_run_bind h
    rw [StateT.run_lift] at hrest
    obtain ⟨field', -, hrest⟩ := Option.bind_eq_some_iff.mp hrest
    obtain ⟨-, rfl⟩ := Prod.mk.inj (Option.some.inj hrest)
    exact suffix_of_readString hread
  · obtain ⟨keys, hread, -⟩ := exists_of_run_map h
    obtain ⟨count, body, hcount, -, hkeys⟩ := readKeyVector_eq_some_iff.mp hread
    obtain ⟨⟨front, rfl, -⟩, -⟩ := readKeys_append hkeys
    exact (List.suffix_append _ _).trans (suffix_of_readVarintFrom hcount)
  · obtain ⟨data, hread, -⟩ := exists_of_run_map h
    exact suffix_of_readString hread
  · obtain ⟨data, hread, -⟩ := exists_of_run_map h
    exact suffix_of_readString hread
  · cases h

/-! ## Sequences of fields -/

/-- The extra field is read to its end as these fields, none of which is an EPoSE field. -/
inductive Reads : List UInt8 → List TxExtraField → Prop
  | nil : Reads [] []
  | cons {input rest : List UInt8} {field : TxExtraField} {fields : List TxExtraField} :
    readField input = some (field, rest) → field.isEposeV2 = false → Reads rest fields →
      Reads input (field :: fields)

lemma Reads.of_parseFields {fuel : ℕ} {input : List UInt8} {fields : List TxExtraField}
    (h : parseFields false fuel input = (true, fields)) : Reads input fields := by
  induction fuel generalizing input fields with
  | zero => cases h
  | succ fuel ih =>
    rw [parseFields] at h
    split at h
    · cases h
    rename_i field rest hread
    split_ifs at h with hepose hrest
    · cases h
    · obtain ⟨-, rfl⟩ := Prod.mk.inj h
      subst hrest
      exact .cons hread (by simpa using hepose) .nil
    · obtain ⟨hok, rfl⟩ := Prod.mk.inj h
      exact .cons hread (by simpa using hepose) (ih (Prod.ext hok rfl))

lemma Reads.of_parseTxExtra {extra : List UInt8} {fields : List TxExtraField}
    (h : parseTxExtra extra false = (true, fields)) : Reads extra fields := by
  rw [parseTxExtra] at h
  split_ifs at h with hnil
  · obtain ⟨-, rfl⟩ := Prod.mk.inj h
    subst hnil
    exact .nil
  · exact .of_parseFields h

section Reads

variable {extra more : List UInt8} {fields : List TxExtraField}

lemma Reads.of_readField {field : TxExtraField} {rest : List UInt8} (h : Reads extra fields)
    (hread : readField extra = some (field, rest)) :
    ∃ tail, fields = field :: tail ∧ Reads rest tail := by
  cases h with
  | nil => cases hread
  | cons hread' _ htail =>
    rw [hread'] at hread
    obtain ⟨rfl, rfl⟩ := Prod.mk.inj (Option.some.inj hread)
    exact ⟨_, rfl, htail⟩

lemma Reads.unique {fields' : List TxExtraField} (h : Reads extra fields)
    (h' : Reads extra fields') : fields' = fields := by
  induction h generalizing fields' with
  | nil =>
    cases h' with
    | nil => rfl
    | cons hread => cases hread
  | cons hread _ _ ih =>
    obtain ⟨tail, rfl, htail⟩ := h'.of_readField hread
    rw [ih htail]

lemma Reads.bounded (h : Reads extra fields) :
    (∀ field ∈ fields, field.Bounded) ∧
      fields.Pairwise fun field _ => field.isPadding = false := by
  induction h with
  | nil => exact ⟨fun field hfield => absurd hfield List.not_mem_nil, .nil⟩
  | @cons input rest field fields hread _ htail ih =>
    obtain ⟨hbounded, hpadding⟩ := bounded_of_readField hread
    refine ⟨List.forall_mem_cons.mpr ⟨hbounded, ih.1⟩, List.pairwise_cons.mpr ⟨?_, ih.2⟩⟩
    intro other hother
    by_contra hpad
    obtain rfl := hpadding (Bool.not_eq_false _ ▸ hpad)
    cases htail with
    | nil => exact absurd hother List.not_mem_nil
    | cons hread' => cases hread'

lemma Reads.isEposeV2_eq_false (h : Reads extra fields) :
    ∀ field ∈ fields, field.isEposeV2 = false := by
  induction h with
  | nil => exact fun field hfield => absurd hfield List.not_mem_nil
  | cons _ hepose _ ih => exact List.forall_mem_cons.mpr ⟨hepose, ih⟩

lemma Reads.exists_last (h : Reads extra fields) (hne : fields ≠ []) :
    ∃ init last bs, fields = init ++ [last] ∧ readField bs = some (last, []) ∧
      last.isEposeV2 = false ∧ extra.getLast? = bs.getLast? ∧
      ∀ more all, Reads (extra ++ more) all →
        ∃ behind, all = init ++ behind ∧ Reads (bs ++ more) behind := by
  induction h with
  | nil => exact absurd rfl hne
  | @cons input rest field fields hread hepose htail ih =>
    by_cases hnil : fields = []
    · subst hnil
      cases htail with
      | nil => exact ⟨[], field, input, rfl, hread, hepose, rfl, fun more all hall => ⟨all, rfl, hall⟩⟩
    · have hrest : rest ≠ [] := by
        rintro rfl
        cases htail with
        | nil => exact hnil rfl
        | cons hread' => cases hread'
      obtain ⟨init, last, bs, rfl, hlast, hlastEpose, hend, hmore⟩ := ih hnil
      obtain _ | ⟨tag, input⟩ := input
      · cases hread
      refine ⟨field :: init, last, bs, rfl, hlast, hlastEpose, ?_, fun more all hall => ?_⟩
      · obtain ⟨front, rfl⟩ := suffix_of_readField hread
        rw [← hend, List.getLast?_cons_of_ne_nil (by simp [hrest]),
          List.getLast?_append_of_ne_nil _ hrest]
      · have hread' := (readField_append hread).resolve_right (fun hopen => hrest hopen.1) more
        obtain ⟨tail, rfl, hreads⟩ := hall.of_readField hread'
        obtain ⟨behind, rfl, hbehind⟩ := hmore more tail hreads
        exact ⟨behind, rfl, hbehind⟩

/-- When fields that start with a nonce are appended and everything can be read, then the old fields
are read as before, without padding among them, or the old extra field ended inside the length of an
empty field which has become a field of at least 256 bytes. -/
lemma Reads.append (h : Reads extra fields) {appended all : List TxExtraField}
    (hmore : Reads (0x02 :: more) appended) (hshort : more.length < 8192)
    (hall : Reads (extra ++ 0x02 :: more) all) :
    (¬EndsInsideLength extra fields ∧ all = fields ++ appended ∧
      ∀ field ∈ fields, field.isPadding = false) ∨
    (EndsInsideLength extra fields ∧ ∃ init data behind,
      fields = init ++ [.mysteriousMinergate []] ∧
        all = init ++ .mysteriousMinergate data :: behind ∧ 256 ≤ data.length) := by
  by_cases hne : fields = []
  · subst hne
    cases h with
    | nil => exact Or.inl ⟨fun hends => (by cases hends.1), hmore.unique hall, by simp⟩
  have hinit := h.bounded.2
  obtain ⟨init, last, bs, rfl, hlast, hepose, hend, hbehind⟩ := h.exists_last hne
  obtain ⟨behind, rfl, hread⟩ := hbehind _ _ hall
  obtain _ | ⟨tag, input⟩ := bs
  · cases hlast
  rcases readField_append hlast with hsettled | ⟨-, hopen⟩
  · have hlonger := hsettled (0x02 :: more)
    obtain ⟨tail, rfl, htail⟩ := hread.of_readField hlonger
    refine Or.inl ⟨fun hends => ?_, by rw [hmore.unique htail]; simp, ?_⟩
    · obtain ⟨hempty, hzero⟩ := hends
      rw [List.getLast?_append_of_ne_nil _ (List.cons_ne_nil _ _), List.getLast?_singleton] at hempty
      obtain rfl := Option.some.inj hempty
      exact hzero (hend.trans (getLast?_of_readField hlast hlonger))
    · intro field hfield
      rcases List.mem_append.mp hfield with hold | hold
      · exact (List.pairwise_append.mp hinit).2.2 field hold last (List.mem_singleton_self _)
      · rw [List.mem_singleton.mp hold]
        by_contra hpad
        cases (bounded_of_readField hlonger).2 (Bool.not_eq_false _ ▸ hpad)
  · cases hread with
    | cons hlonger =>
      obtain ⟨rfl, hcut, data, hlarge, rfl⟩ :=
        readField_continued hlast hepose hopen hshort hlonger
      refine Or.inr ⟨⟨by simp, ?_⟩, init, data, _, rfl, rfl, hlarge⟩
      rw [hend, List.getLast?_cons_of_ne_nil hcut.ne_nil]
      exact hcut.getLast?

end Reads

/-! ## Writing the fields in order -/

/-- The turn in which `sort_tx_extra` picks the fields of a type. -/
def TxExtraField.turn : TxExtraField → ℕ
  | .pubKey _ => 0
  | .additionalPubKeys _ => 1
  | .eposeV2 _ => 2
  | .nonce _ => 3
  | .mergeMiningTag _ _ => 4
  | .mysteriousMinergate _ => 5
  | .padding _ => 6

lemma TxExtraField.turn_lt (field : TxExtraField) : field.turn < 7 := by
  cases field <;> simp [turn]

lemma TxExtraField.turn_eq_six_iff (field : TxExtraField) :
    field.turn = 6 ↔ field.isPadding = true := by
  cases field <;> simp [turn, isPadding]

/-- The fields by type, those of one type in the order they had. -/
def sortFields (fields : List TxExtraField) : List TxExtraField :=
  (List.range 7).flatMap fun turn => fields.filter fun field => field.turn = turn

/-- `sort_tx_extra` of an extra field that has to be readable to its end. -/
def sortTxExtra (extra : List UInt8) (allowEposeV2 : Bool) : Option (List UInt8) :=
  match parseTxExtra extra allowEposeV2 with
  | (true, fields) => serializeExtraFields (sortFields fields)
  | (false, _) => none

section Sorted

variable {fields : List TxExtraField} {extra : List UInt8}

lemma perm_turns (fields : List TxExtraField) (n : ℕ) :
    ((List.range n).flatMap fun turn => fields.filter fun field => field.turn = turn).Perm
      (fields.filter fun field => field.turn < n) := by
  induction n with
  | zero => simp
  | succ n ih =>
    have hsplit := List.filter_append_perm (fun field => decide (field.turn < n))
      (fields.filter fun field => field.turn < n + 1)
    rw [List.filter_filter, List.filter_filter] at hsplit
    rw [List.range_succ, List.flatMap_append, List.flatMap_singleton]
    refine (ih.append_right _).trans (List.Perm.trans (List.Perm.of_eq ?_) hsplit)
    congr 1 <;> refine List.filter_congr fun field _ => ?_
    · rw [Bool.eq_iff_iff]
      simp only [decide_eq_true_eq, Bool.and_eq_true]
      omega
    · rw [Bool.eq_iff_iff]
      simp only [decide_eq_true_eq, Bool.and_eq_true, Bool.not_eq_true', decide_eq_false_iff_not]
      omega

lemma perm_sortFields (fields : List TxExtraField) : (sortFields fields).Perm fields := by
  refine (perm_turns fields 7).trans (List.Perm.of_eq ?_)
  exact List.filter_eq_self.mpr fun field _ => by simpa using field.turn_lt

lemma filter_sortFields (p : TxExtraField → Bool) (fields : List TxExtraField) :
    (sortFields fields).filter p = sortFields (fields.filter p) := by
  rw [sortFields, List.filter_flatMap, sortFields]
  refine List.flatMap_congr fun turn _ => ?_
  rw [List.filter_filter, List.filter_filter]
  exact List.filter_congr fun field _ => Bool.and_comm _ _

/-- Padding stays the last field, because it is picked last. -/
lemma pairwise_sortFields (h : fields.Pairwise fun field _ => field.isPadding = false) :
    (sortFields fields).Pairwise fun field _ => field.isPadding = false := by
  rw [sortFields, List.range_succ, List.flatMap_append, List.flatMap_singleton,
    List.pairwise_append]
  have hearly : ∀ field ∈ (List.range 6).flatMap fun turn =>
      fields.filter fun field => field.turn = turn, field.isPadding = false := by
    intro field hfield
    obtain ⟨turn, hturn, hmem⟩ := List.mem_flatMap.mp hfield
    have heq : field.turn = turn := of_decide_eq_true (List.mem_filter.mp hmem).2
    have hlt := List.mem_range.mp hturn
    by_contra hpad
    have hsix := field.turn_eq_six_iff.mpr (Bool.not_eq_false _ ▸ hpad)
    omega
  exact ⟨List.pairwise_of_forall_mem_list fun field hfield _ _ => hearly field hfield,
    h.filter _, fun field hfield _ _ => hearly field hfield⟩

/-- An extra field without EPoSE fields is read in the same way when they are not allowed. -/
lemma parseFields_false_of_true {fuel : ℕ} (h : parseFields true fuel extra = (true, fields))
    (hepose : ∀ field ∈ fields, field.isEposeV2 = false) :
    parseFields false fuel extra = (true, fields) := by
  induction fuel generalizing extra fields with
  | zero => cases h
  | succ fuel ih =>
    rw [parseFields] at h ⊢
    split at h
    · cases h
    rename_i field rest hread
    simp only [Bool.not_true, Bool.false_and, Bool.false_eq_true, if_false] at h
    split_ifs at h with hrest
    · obtain ⟨-, rfl⟩ := Prod.mk.inj h
      simp [hrest, hepose field (List.mem_singleton_self _)]
    · obtain ⟨hok, rfl⟩ := Prod.mk.inj h
      obtain ⟨hfield, htail⟩ := List.forall_mem_cons.mp hepose
      have hparse := ih (Prod.ext hok rfl) htail
      simp [hrest, hfield, hparse]

/-- Fields that were read and are written in order are read in that order. -/
lemma Reads.parse_sorted {sorted : List UInt8} (h : Reads extra fields)
    (hsorted : serializeExtraFields (sortFields fields) = some sorted) :
    parseTxExtra sorted false = (true, sortFields fields) := by
  obtain ⟨hbounded, hpadding⟩ := h.bounded
  have hmem : ∀ field, field ∈ sortFields fields ↔ field ∈ fields :=
    fun field => (perm_sortFields fields).mem_iff
  have hcanonical : Canonical (sortFields fields) sorted :=
    ⟨fun field hfield => hbounded field ((hmem field).mp hfield), pairwise_sortFields hpadding,
      hsorted⟩
  have hepose : ∀ field ∈ sortFields fields, field.isEposeV2 = false :=
    fun field hfield => h.isEposeV2_eq_false field ((hmem field).mp hfield)
  have hparse := (parseTxExtraStrict_eq_some_iff.mpr hcanonical).1
  rw [parseTxExtraStrict] at hparse
  split at hparse
  · rename_i parsed hparsed
    obtain rfl := Option.some.inj hparse
    rw [parseTxExtra] at hparsed ⊢
    split_ifs at hparsed ⊢
    · exact hparsed
    · exact parseFields_false_of_true hparsed hepose
  · cases hparse

end Sorted

/-! ## Appending a nonce -/

def addExtraNonceToTxExtra (txExtra extraNonce : List UInt8) : Option (List UInt8) :=
  if 255 < extraNonce.length then none
  else some (txExtra ++ 0x02 :: (varint extraNonce.length ++ extraNonce))

/-- The bytes of nonce fields. -/
def nonceFields (nonces : List (List UInt8)) : List UInt8 :=
  nonces.flatMap fun nonce => 0x02 :: writeString nonce

lemma foldlM_addExtraNonce {nonces : List (List UInt8)} (h : ∀ nonce ∈ nonces, nonce.length ≤ 255)
    (extra : List UInt8) :
    nonces.foldlM addExtraNonceToTxExtra extra = some (extra ++ nonceFields nonces) := by
  induction nonces generalizing extra with
  | nil => exact congrArg some (List.append_nil extra).symm
  | cons nonce nonces ih =>
    obtain ⟨hnonce, hnonces⟩ := List.forall_mem_cons.mp h
    rw [List.foldlM_cons, addExtraNonceToTxExtra, if_neg (not_lt.mpr hnonce)]
    refine (ih hnonces _).trans ?_
    rw [nonceFields, nonceFields, List.flatMap_cons, List.append_assoc]
    rfl

lemma reads_nonceFields {nonces : List (List UInt8)} (h : ∀ nonce ∈ nonces, nonce.length ≤ 255) :
    Reads (nonceFields nonces) (nonces.map .nonce) := by
  induction nonces with
  | nil => exact .nil
  | cons nonce nonces ih =>
    obtain ⟨hnonce, hnonces⟩ := List.forall_mem_cons.mp h
    have hwrite : writeField (.nonce nonce) = some (0x02 :: writeString nonce) :=
      if_neg (not_lt.mpr hnonce)
    rw [nonceFields, List.flatMap_cons, List.map_cons]
    exact .cons (readField_writeField hnonce hwrite fun hpad => by cases hpad) rfl (ih hnonces)

end Qwertycoin
