import Qwertycoin.Lib.Encoding
import Qwertycoin.QmsMessage

/-
# UTF-8

The loop of `valid_utf8` reads the text by index: the class of the first byte of a code point gives
the number of bytes, the others are read after a comparison with the size of the text, and the
decoded number is checked at the end.  Here a read behind the end of the text is a failure of its
own, so that the loop can be shown never to make one, and the texts it accepts are compared with
the encodings of the Unicode scalar values, which are the characters of Lean.
-/

namespace Qwertycoin.Qms

/-! ## The loop over the indices -/

/-- The bits of a first byte that belong to the number, and the number of bytes. -/
def leadByte (b : UInt8) : Option (ℕ × ℕ) :=
  if b ≤ 0x7f then some (b.toNat, 1)
  else if b &&& 0xe0 = 0xc0 then some ((b &&& 0x1f).toNat, 2)
  else if b &&& 0xf0 = 0xe0 then some ((b &&& 0x0f).toNat, 3)
  else if b &&& 0xf8 = 0xf0 then some ((b &&& 0x07).toNat, 4)
  else none

/-- The inner loop, for some indices: the number with the bits of the bytes there, or nothing if
one of them does not continue.  The outer option is that of a read in the text. -/
def readContinuation (text : List UInt8) : List ℕ → ℕ → Option (Option ℕ)
  | [], cp => some (some cp)
  | i :: indices, cp => do
    let b ← text[i]?
    if isContinuation b then readContinuation text indices (cp * 64 + lowBits b) else some none

/-- The check of a number that was decoded from `n` bytes. -/
def badCodePoint (n cp : ℕ) : Bool :=
  (n = 2 && cp < 0x80) || (n = 3 && cp < 0x800) || (n = 4 && cp < 0x10000) || 0x10ffff < cp ||
    (0xd800 ≤ cp && cp ≤ 0xdfff)

/-- The loop of `valid_utf8` from an index on.  It fails on a read behind the end of the text, and
when it is not given enough turns. -/
def scanUtf8 (text : List UInt8) : ℕ → ℕ → Option Bool
  | 0, _ => none
  | turns + 1, i =>
    if text.length ≤ i then some true
    else do
      let b ← text[i]?
      match leadByte b with
      | none => some false
      | some (cp, n) =>
        if text.length < i + n then some false
        else
          match ← readContinuation text ((List.range' 1 (n - 1)).map (i + ·)) cp with
          | none => some false
          | some cp => if badCodePoint n cp then some false else scanUtf8 text turns (i + n)

/-! ## Bytes as numbers -/

section Masks

lemma forall_byte {P : UInt8 → Prop} (h : ∀ n < 256, P (UInt8.ofNat n)) (b : UInt8) : P b := by
  have hb := h b.toNat b.toNat_lt
  rwa [UInt8.ofNat_toNat] at hb

/-- The masks of the lead bytes and of the continuation bytes pick out ranges. -/
lemma masks_iff (b : UInt8) :
    (b &&& 0xe0 = 0xc0 ↔ 192 ≤ b.toNat ∧ b.toNat < 224) ∧
      (b &&& 0xf0 = 0xe0 ↔ 224 ≤ b.toNat ∧ b.toNat < 240) ∧
      (b &&& 0xf8 = 0xf0 ↔ 240 ≤ b.toNat ∧ b.toNat < 248) ∧
      (b &&& 0xc0 = 0x80 ↔ 128 ≤ b.toNat ∧ b.toNat < 192) := by
  revert b
  exact forall_byte (by decide +kernel)

lemma leadTwo_iff (b : UInt8) : b &&& 0xe0 = 0xc0 ↔ 192 ≤ b.toNat ∧ b.toNat < 224 :=
  (masks_iff b).1

lemma leadThree_iff (b : UInt8) : b &&& 0xf0 = 0xe0 ↔ 224 ≤ b.toNat ∧ b.toNat < 240 :=
  (masks_iff b).2.1

lemma leadFour_iff (b : UInt8) : b &&& 0xf8 = 0xf0 ↔ 240 ≤ b.toNat ∧ b.toNat < 248 :=
  (masks_iff b).2.2.1

lemma isContinuation_iff (b : UInt8) :
    isContinuation b = true ↔ 128 ≤ b.toNat ∧ b.toNat < 192 := by
  rw [← (masks_iff b).2.2.2]
  simp [isContinuation]

lemma toNat_and_five (b : UInt8) : (b &&& 0x1f).toNat = b.toNat % 32 := by
  rw [UInt8.toNat_and]
  exact Nat.and_two_pow_sub_one_eq_mod b.toNat 5

lemma toNat_and_four (b : UInt8) : (b &&& 0x0f).toNat = b.toNat % 16 := by
  rw [UInt8.toNat_and]
  exact Nat.and_two_pow_sub_one_eq_mod b.toNat 4

lemma toNat_and_three (b : UInt8) : (b &&& 0x07).toNat = b.toNat % 8 := by
  rw [UInt8.toNat_and]
  exact Nat.and_two_pow_sub_one_eq_mod b.toNat 3

lemma lowBits_eq (b : UInt8) : lowBits b = b.toNat % 64 := by
  rw [lowBits, UInt8.toNat_and]
  exact Nat.and_two_pow_sub_one_eq_mod b.toNat 6

lemma leadOne_iff (b : UInt8) : b ≤ 0x7f ↔ b.toNat < 128 := by
  rw [UInt8.le_iff_toNat_le]
  exact Nat.lt_succ_iff.symm

end Masks

/-! ## The loop makes no read behind the end -/

lemma readContinuation_drop (text : List UInt8) (i : ℕ) (indices : List ℕ) (cp : ℕ) :
    readContinuation text (indices.map (i + ·)) cp =
      readContinuation (text.drop i) indices cp := by
  induction indices generalizing cp with
  | nil => rfl
  | cons j indices ih => simp only [List.map_cons, readContinuation, List.getElem?_drop, ih]

lemma leadByte_eq_some {b : UInt8} {cp n : ℕ} (h : leadByte b = some (cp, n)) :
    (n = 1 ∧ b.toNat < 128 ∧ cp = b.toNat) ∨
      (n = 2 ∧ 192 ≤ b.toNat ∧ b.toNat < 224 ∧ cp = b.toNat % 32) ∨
      (n = 3 ∧ 224 ≤ b.toNat ∧ b.toNat < 240 ∧ cp = b.toNat % 16) ∨
      (n = 4 ∧ 240 ≤ b.toNat ∧ b.toNat < 248 ∧ cp = b.toNat % 8) := by
  simp only [leadByte, leadOne_iff, leadTwo_iff, leadThree_iff, leadFour_iff, toNat_and_five,
    toNat_and_four, toNat_and_three] at h
  split_ifs at h <;> grind

lemma scanUtf8_of_drop_eq_cons {text rest : List UInt8} {b : UInt8} {i : ℕ} (turns : ℕ)
    (hdrop : text.drop i = b :: rest) :
    scanUtf8 text (turns + 1) i =
      match leadByte b with
      | none => some false
      | some (cp, n) =>
        if rest.length + 1 < n then some false
        else
          (readContinuation (b :: rest) (List.range' 1 (n - 1)) cp).bind fun
            | none => some false
            | some cp => if badCodePoint n cp then some false else scanUtf8 text turns (i + n) := by
  have hlength : text.length - i = rest.length + 1 := by
    rw [← List.length_drop, hdrop, List.length_cons]
  have hread : text[i]? = some b := by
    rw [← Nat.add_zero i, ← List.getElem?_drop, hdrop, List.getElem?_cons_zero]
  rw [scanUtf8, if_neg (by omega), hread]
  show (match leadByte b with
      | none => some false
      | some (cp, n) => if text.length < i + n then some false else _) = _
  cases leadByte b with
  | none => rfl
  | some lead =>
    obtain ⟨cp, n⟩ := lead
    have hsize : text.length < i + n ↔ rest.length + 1 < n := by omega
    simp only [hsize, readContinuation_drop, hdrop]
    rfl

lemma validUtf8_one {b : UInt8} {rest : List UInt8} (hb : b.toNat < 128) :
    validUtf8 (b :: rest) = validUtf8 rest := by
  rw [validUtf8.eq_def]
  exact if_pos ((leadOne_iff b).mpr hb)

lemma validUtf8_two {b : UInt8} {rest : List UInt8} (hlo : 192 ≤ b.toNat) (hhi : b.toNat < 224) :
    validUtf8 (b :: rest) =
      match rest with
      | b₁ :: rest =>
        isContinuation b₁ && 0x80 ≤ b.toNat % 32 * 64 + lowBits b₁ && validUtf8 rest
      | _ => false := by
  rw [validUtf8.eq_def]
  cases rest <;>
    simp only [if_neg (fun h => absurd ((leadOne_iff b).mp h) (by omega)),
      if_pos ((leadTwo_iff b).mpr ⟨hlo, hhi⟩), toNat_and_five]

lemma validUtf8_three {b : UInt8} {rest : List UInt8} (hlo : 224 ≤ b.toNat) (hhi : b.toNat < 240) :
    validUtf8 (b :: rest) =
      match rest with
      | b₁ :: b₂ :: rest =>
        let cp := (b.toNat % 16 * 64 + lowBits b₁) * 64 + lowBits b₂
        isContinuation b₁ && isContinuation b₂ && 0x800 ≤ cp &&
          !(0xd800 ≤ cp && cp ≤ 0xdfff) && validUtf8 rest
      | _ => false := by
  rw [validUtf8.eq_def]
  rcases rest with _ | ⟨b₁, _ | ⟨b₂, rest⟩⟩ <;>
    simp only [if_neg (fun h => absurd ((leadOne_iff b).mp h) (by omega)),
      if_neg (fun h => absurd ((leadTwo_iff b).mp h) (by omega)),
      if_pos ((leadThree_iff b).mpr ⟨hlo, hhi⟩), toNat_and_four]

lemma validUtf8_four {b : UInt8} {rest : List UInt8} (hlo : 240 ≤ b.toNat) (hhi : b.toNat < 248) :
    validUtf8 (b :: rest) =
      match rest with
      | b₁ :: b₂ :: b₃ :: rest =>
        let cp := ((b.toNat % 8 * 64 + lowBits b₁) * 64 + lowBits b₂) * 64 + lowBits b₃
        isContinuation b₁ && isContinuation b₂ && isContinuation b₃ && 0x10000 ≤ cp &&
          cp ≤ 0x10ffff && validUtf8 rest
      | _ => false := by
  rw [validUtf8.eq_def]
  rcases rest with _ | ⟨b₁, _ | ⟨b₂, _ | ⟨b₃, rest⟩⟩⟩ <;>
    simp only [if_neg (fun h => absurd ((leadOne_iff b).mp h) (by omega)),
      if_neg (fun h => absurd ((leadTwo_iff b).mp h) (by omega)),
      if_neg (fun h => absurd ((leadThree_iff b).mp h) (by omega)),
      if_pos ((leadFour_iff b).mpr ⟨hlo, hhi⟩), toNat_and_three]

lemma validUtf8_of_leadByte_eq_none {b : UInt8} {rest : List UInt8} (h : leadByte b = none) :
    validUtf8 (b :: rest) = false := by
  rw [leadByte] at h
  rw [validUtf8.eq_def]
  split_ifs at h with h₁ h₂ h₃ h₄
  simp only [if_neg h₁, if_neg h₂, if_neg h₃, if_neg h₄]

lemma lowBits_lt (b : UInt8) : lowBits b < 64 := by
  rw [lowBits_eq]
  exact Nat.mod_lt _ (by decide)

/-- The end of a turn: a number that is bad ends the loop, one that is not hands over to the
rest. -/
lemma ite_badCodePoint {n cp : ℕ} {good rest : Bool} (h : badCodePoint n cp = !good) :
    (if badCodePoint n cp then some false else some rest) = some (good && rest) := by
  rw [h]
  cases good <;> rfl

/-- A text whose first byte is that of a code point of some number of bytes. -/
lemma validUtf8_of_leadByte_eq_some {b : UInt8} {rest : List UInt8} {cp n : ℕ}
    (h : leadByte b = some (cp, n)) :
    some (validUtf8 (b :: rest)) =
      if rest.length + 1 < n then some false
      else
        (readContinuation (b :: rest) (List.range' 1 (n - 1)) cp).bind fun
          | none => some false
          | some cp =>
            if badCodePoint n cp then some false else some (validUtf8 (rest.drop (n - 1))) := by
  obtain ⟨rfl, hb, rfl⟩ | ⟨rfl, hlo, hhi, rfl⟩ | ⟨rfl, hlo, hhi, rfl⟩ | ⟨rfl, hlo, hhi, rfl⟩ :=
    leadByte_eq_some h
  · have hgood : badCodePoint 1 b.toNat = false := by
      simp [badCodePoint]; omega
    simp [validUtf8_one hb, readContinuation, hgood]
  · rw [validUtf8_two hlo hhi]
    rcases rest with _ | ⟨b₁, rest⟩
    · rfl
    · have h₁ := lowBits_lt b₁
      have hbad : badCodePoint 2 (b.toNat % 32 * 64 + lowBits b₁) =
          !decide (0x80 ≤ b.toNat % 32 * 64 + lowBits b₁) := by
        grind [badCodePoint]
      cases hc₁ : isContinuation b₁ <;> simp [readContinuation, hc₁, ite_badCodePoint hbad]
  · rw [validUtf8_three hlo hhi]
    rcases rest with _ | ⟨b₁, _ | ⟨b₂, rest⟩⟩
    · rfl
    · rfl
    · have h₁ := lowBits_lt b₁
      have h₂ := lowBits_lt b₂
      have hbad : badCodePoint 3 ((b.toNat % 16 * 64 + lowBits b₁) * 64 + lowBits b₂) =
          !(decide (0x800 ≤ (b.toNat % 16 * 64 + lowBits b₁) * 64 + lowBits b₂) &&
            !(decide (0xd800 ≤ (b.toNat % 16 * 64 + lowBits b₁) * 64 + lowBits b₂) &&
              decide ((b.toNat % 16 * 64 + lowBits b₁) * 64 + lowBits b₂ ≤ 0xdfff))) := by
        grind [badCodePoint]
      cases hc₁ : isContinuation b₁ <;> cases hc₂ : isContinuation b₂ <;>
        simp [List.range', readContinuation, hc₁, hc₂, ite_badCodePoint hbad]
  · rw [validUtf8_four hlo hhi]
    rcases rest with _ | ⟨b₁, _ | ⟨b₂, _ | ⟨b₃, rest⟩⟩⟩
    · rfl
    · rfl
    · rfl
    · have hbad : badCodePoint 4
            (((b.toNat % 8 * 64 + lowBits b₁) * 64 + lowBits b₂) * 64 + lowBits b₃) =
          !(decide (0x10000 ≤ ((b.toNat % 8 * 64 + lowBits b₁) * 64 + lowBits b₂) * 64 +
              lowBits b₃) &&
            decide (((b.toNat % 8 * 64 + lowBits b₁) * 64 + lowBits b₂) * 64 + lowBits b₃ ≤
              0x10ffff)) := by
        grind [badCodePoint]
      cases hc₁ : isContinuation b₁ <;> cases hc₂ : isContinuation b₂ <;>
        cases hc₃ : isContinuation b₃ <;>
          simp [List.range', readContinuation, hc₁, hc₂, hc₃, ite_badCodePoint hbad]

/-- The loop reads the text to its end, or to the first byte that is wrong. -/
lemma scanUtf8_eq (text : List UInt8) {turns i : ℕ} (hi : i ≤ text.length)
    (hturns : text.length < i + turns) :
    scanUtf8 text turns i = some (validUtf8 (text.drop i)) := by
  induction turns generalizing i with
  | zero => omega
  | succ turns ih =>
    rcases hdrop : text.drop i with _ | ⟨b, rest⟩
    · rw [scanUtf8, if_pos (List.drop_eq_nil_iff.mp hdrop), validUtf8]
    · have hlength : text.length - i = rest.length + 1 := by
        rw [← List.length_drop, hdrop, List.length_cons]
      rw [scanUtf8_of_drop_eq_cons turns hdrop]
      cases hlead : leadByte b with
      | none => rw [validUtf8_of_leadByte_eq_none hlead]
      | some lead =>
        obtain ⟨cp, n⟩ := lead
        have hn : 1 ≤ n := by
          obtain ⟨rfl, -⟩ | ⟨rfl, -⟩ | ⟨rfl, -⟩ | ⟨rfl, -⟩ := leadByte_eq_some hlead <;> decide
        rw [validUtf8_of_leadByte_eq_some hlead]
        by_cases hsize : rest.length + 1 < n
        · simp only [if_pos hsize]
        · have hrest : rest.drop (n - 1) = text.drop (i + n) := by
            rw [← List.drop_drop, hdrop]
            obtain ⟨k, rfl⟩ := Nat.exists_eq_add_of_le' hn
            rfl
          simp only [if_neg hsize, hrest, ih (i := i + n) (by omega) (by omega)]

/-! ## Encodings of characters -/

/-- The number of a character. -/
def scalar (c : Char) : ℕ := c.val.toNat

lemma scalar_valid (c : Char) : scalar c < 0xd800 ∨ (0xdfff < scalar c ∧ scalar c < 0x110000) :=
  c.valid

lemma scalar_injective : Function.Injective scalar :=
  fun _ _ h => Char.val_inj.mp (UInt32.toNat_inj.mp h)

lemma exists_scalar_eq (n : ℕ) (h : n < 0xd800 ∨ (0xdfff < n ∧ n < 0x110000)) :
    ∃ c : Char, scalar c = n := by
  have hn : n < 2 ^ 32 := by omega
  refine ⟨⟨UInt32.ofNat n, ?_⟩, UInt32.toNat_ofNat_of_lt' hn⟩
  show Nat.isValidChar (UInt32.ofNat n).toNat
  rwa [UInt32.toNat_ofNat_of_lt' hn]

lemma utf8EncodeChar_eq (c : Char) :
    String.utf8EncodeChar c =
      if scalar c ≤ 0x7f then [UInt8.ofNat (scalar c)]
      else if scalar c ≤ 0x7ff then
        [UInt8.ofNat (scalar c / 64 % 32 + 192), UInt8.ofNat (scalar c % 64 + 128)]
      else if scalar c ≤ 0xffff then
        [UInt8.ofNat (scalar c / 4096 % 16 + 224), UInt8.ofNat (scalar c / 64 % 64 + 128),
          UInt8.ofNat (scalar c % 64 + 128)]
      else
        [UInt8.ofNat (scalar c / 262144 % 8 + 240), UInt8.ofNat (scalar c / 4096 % 64 + 128),
          UInt8.ofNat (scalar c / 64 % 64 + 128), UInt8.ofNat (scalar c % 64 + 128)] :=
  rfl

lemma toNat_ofNat_byte {n : ℕ} (h : n < 256) : (UInt8.ofNat n).toNat = n :=
  UInt8.toNat_ofNat_of_lt' h

lemma ofNat_byte_inj {m n : ℕ} (hm : m < 256) (hn : n < 256) :
    UInt8.ofNat m = UInt8.ofNat n ↔ m = n := by
  rw [← UInt8.toNat_inj, toNat_ofNat_byte hm, toNat_ofNat_byte hn]

lemma isContinuation_ofNat (v : ℕ) : isContinuation (UInt8.ofNat (v % 64 + 128)) = true := by
  rw [isContinuation_iff, toNat_ofNat_byte (by omega)]
  omega

lemma lowBits_ofNat (v : ℕ) : lowBits (UInt8.ofNat (v % 64 + 128)) = v % 64 := by
  rw [lowBits_eq, toNat_ofNat_byte (by omega)]
  omega

lemma readable_utf8EncodeChar : Bytes.Readable (fun _ => True) String.utf8EncodeChar := by
  intro c d _ _ x y heq
  have hc := scalar_valid c
  have hd := scalar_valid d
  suffices h : scalar c = scalar d ∧ x = y from ⟨scalar_injective h.1, h.2⟩
  rw [utf8EncodeChar_eq, utf8EncodeChar_eq] at heq
  split_ifs at heq <;>
    simp (disch := omega) only [List.cons_append, List.nil_append, List.cons.injEq,
      ofNat_byte_inj] at heq <;>
    first
    | omega
    | exact ⟨by omega, by simp only [heq]⟩

lemma utf8EncodeChar_ne_nil (c : Char) : String.utf8EncodeChar c ≠ [] := by
  rw [utf8EncodeChar_eq]
  split_ifs <;> exact List.cons_ne_nil _ _

lemma validUtf8_utf8EncodeChar_append (c : Char) (rest : List UInt8) :
    validUtf8 (String.utf8EncodeChar c ++ rest) = validUtf8 rest := by
  have hc := scalar_valid c
  rw [utf8EncodeChar_eq]
  split_ifs with h₁ h₂ h₃
  · exact validUtf8_one (by rw [toNat_ofNat_byte (by omega)]; omega)
  · have hlead : (UInt8.ofNat (scalar c / 64 % 32 + 192)).toNat = scalar c / 64 % 32 + 192 :=
      toNat_ofNat_byte (by omega)
    rw [List.cons_append, validUtf8_two (by omega) (by omega)]
    have hcp : 0x80 ≤ (scalar c / 64 % 32 + 192) % 32 * 64 + scalar c % 64 := by omega
    simp only [List.cons_append, List.nil_append, hlead, isContinuation_ofNat, lowBits_ofNat, hcp,
      decide_true, Bool.true_and]
  · have hlead : (UInt8.ofNat (scalar c / 4096 % 16 + 224)).toNat = scalar c / 4096 % 16 + 224 :=
      toNat_ofNat_byte (by omega)
    rw [List.cons_append, validUtf8_three (by omega) (by omega)]
    have hcp : ((scalar c / 4096 % 16 + 224) % 16 * 64 + scalar c / 64 % 64) * 64 +
        scalar c % 64 = scalar c := by omega
    simp only [List.cons_append, List.nil_append, hlead, isContinuation_ofNat, lowBits_ofNat, hcp]
    grind
  · have hlead : (UInt8.ofNat (scalar c / 262144 % 8 + 240)).toNat =
        scalar c / 262144 % 8 + 240 := toNat_ofNat_byte (by omega)
    rw [List.cons_append, validUtf8_four (by omega) (by omega)]
    have hcp : (((scalar c / 262144 % 8 + 240) % 8 * 64 + scalar c / 4096 % 64) * 64 +
        scalar c / 64 % 64) * 64 + scalar c % 64 = scalar c := by omega
    simp only [List.cons_append, List.nil_append, hlead, isContinuation_ofNat, lowBits_ofNat, hcp]
    grind

lemma ofNat_eq_of_toNat_eq {n : ℕ} (b : UInt8) (h : n = b.toNat) : UInt8.ofNat n = b := by
  rw [h, UInt8.ofNat_toNat]

lemma exists_char_of_validUtf8 {b : UInt8} {rest : List UInt8} (h : validUtf8 (b :: rest) = true) :
    ∃ c rest', b :: rest = String.utf8EncodeChar c ++ rest' ∧ validUtf8 rest' = true := by
  cases hlead : leadByte b with
  | none => rw [validUtf8_of_leadByte_eq_none hlead] at h; cases h
  | some lead =>
    obtain ⟨cp, n⟩ := lead
    obtain ⟨-, hb, -⟩ | ⟨-, hlo, hhi, -⟩ | ⟨-, hlo, hhi, -⟩ | ⟨-, hlo, hhi, -⟩ :=
      leadByte_eq_some hlead
    · rw [validUtf8_one hb] at h
      obtain ⟨c, hc⟩ := exists_scalar_eq (b.toNat) (by omega)
      refine ⟨c, rest, ?_, h⟩
      rw [utf8EncodeChar_eq, if_pos (by omega), hc, UInt8.ofNat_toNat]
      rfl
    · rw [validUtf8_two hlo hhi] at h
      rcases rest with _ | ⟨b₁, rest⟩
      · cases h
      simp only [lowBits_eq, Bool.and_eq_true, decide_eq_true_eq, isContinuation_iff] at h
      obtain ⟨⟨h₁, hlow⟩, hrest⟩ := h
      obtain ⟨c, hc⟩ := exists_scalar_eq (b.toNat % 32 * 64 + b₁.toNat % 64) (by omega)
      refine ⟨c, rest, ?_, hrest⟩
      rw [utf8EncodeChar_eq, if_neg (by omega), if_pos (by omega),
        ofNat_eq_of_toNat_eq b (by omega), ofNat_eq_of_toNat_eq b₁ (by omega)]
      rfl
    · rw [validUtf8_three hlo hhi] at h
      rcases rest with _ | ⟨b₁, _ | ⟨b₂, rest⟩⟩
      · cases h
      · cases h
      simp only [lowBits_eq, Bool.and_eq_true, decide_eq_true_eq, isContinuation_iff,
        Bool.not_eq_true', Bool.and_eq_false_iff, decide_eq_false_iff_not] at h
      obtain ⟨⟨⟨⟨h₁, h₂⟩, hlow⟩, hsurrogate⟩, hrest⟩ := h
      obtain ⟨c, hc⟩ := exists_scalar_eq
        ((b.toNat % 16 * 64 + b₁.toNat % 64) * 64 + b₂.toNat % 64) (by omega)
      refine ⟨c, rest, ?_, hrest⟩
      rw [utf8EncodeChar_eq, if_neg (by omega), if_neg (by omega), if_pos (by omega),
        ofNat_eq_of_toNat_eq b (by omega), ofNat_eq_of_toNat_eq b₁ (by omega),
        ofNat_eq_of_toNat_eq b₂ (by omega)]
      rfl
    · rw [validUtf8_four hlo hhi] at h
      rcases rest with _ | ⟨b₁, _ | ⟨b₂, _ | ⟨b₃, rest⟩⟩⟩
      · cases h
      · cases h
      · cases h
      simp only [lowBits_eq, Bool.and_eq_true, decide_eq_true_eq, isContinuation_iff] at h
      obtain ⟨⟨⟨⟨⟨h₁, h₂⟩, h₃⟩, hlow⟩, hhigh⟩, hrest⟩ := h
      obtain ⟨c, hc⟩ := exists_scalar_eq
        (((b.toNat % 8 * 64 + b₁.toNat % 64) * 64 + b₂.toNat % 64) * 64 + b₃.toNat % 64)
        (by omega)
      refine ⟨c, rest, ?_, hrest⟩
      rw [utf8EncodeChar_eq, if_neg (by omega), if_neg (by omega), if_neg (by omega),
        ofNat_eq_of_toNat_eq b (by omega), ofNat_eq_of_toNat_eq b₁ (by omega),
        ofNat_eq_of_toNat_eq b₂ (by omega), ofNat_eq_of_toNat_eq b₃ (by omega)]
      rfl

lemma validUtf8_flatMap (chars : List Char) :
    validUtf8 (chars.flatMap String.utf8EncodeChar) = true := by
  induction chars with
  | nil => rw [List.flatMap_nil, validUtf8]
  | cons c chars ih => rw [List.flatMap_cons, validUtf8_utf8EncodeChar_append, ih]

lemma exists_chars_of_validUtf8 {text : List UInt8} (h : validUtf8 text = true) :
    ∃ chars : List Char, chars.flatMap String.utf8EncodeChar = text := by
  -- every character takes at least one byte, so the rest of the text is shorter
  induction hn : text.length using Nat.strong_induction_on generalizing text with
  | _ n ih =>
    cases text with
    | nil => exact ⟨[], rfl⟩
    | cons b rest =>
      obtain ⟨c, rest', heq, hrest⟩ := exists_char_of_validUtf8 h
      have hlength : rest'.length < n := by
        have hc := List.length_pos_of_ne_nil (utf8EncodeChar_ne_nil c)
        rw [← hn, heq, List.length_append]
        omega
      obtain ⟨chars, hchars⟩ := ih _ hlength hrest rfl
      exact ⟨c :: chars, by rw [List.flatMap_cons, hchars, heq]⟩

/-- **`valid_utf8` is exact.**  Its loop ends on every text without a read behind the end.  It
accepts the texts that are concatenations of encodings of characters and no others, and there is
one way to write such a text as a concatenation. -/
theorem valid_utf8_is_exact (text : List UInt8) :
    scanUtf8 text (text.length + 1) 0 = some (validUtf8 text) ∧
      (validUtf8 text = true ↔ ∃ chars : List Char, chars.flatMap String.utf8EncodeChar = text) ∧
      (∀ chars chars' : List Char, chars.flatMap String.utf8EncodeChar = text →
        chars'.flatMap String.utf8EncodeChar = text → chars = chars') := by
  refine ⟨scanUtf8_eq text (Nat.zero_le _) (by omega), ⟨exists_chars_of_validUtf8, ?_⟩, ?_⟩
  · rintro ⟨chars, rfl⟩
    exact validUtf8_flatMap chars
  · intro chars chars' h h'
    exact readable_utf8EncodeChar.flatMap_injective (fun c _ => utf8EncodeChar_ne_nil c)
      (fun _ _ => trivial) (fun _ _ => trivial) (h.trans h'.symm)

end Qwertycoin.Qms
