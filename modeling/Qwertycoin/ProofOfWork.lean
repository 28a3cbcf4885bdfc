import Qwertycoin.Lib.Words
import Qwertycoin.Crypto

/-
# The comparison of a hash with a difficulty

A hash passes a difficulty if their product stays below `2 ^ 256`.  For difficulties of one word
the code never forms that product: it multiplies the four words of the hash one by one and follows
the carry.  The multiplication of two words is itself written twice, once for each platform.
-/

namespace Qwertycoin

open Bytes Words

/-! ## Multiplication of words -/

/-- `mul128`: the low and the high word of a product.  The halves are `lo_dword` and
`hi_dword`. -/
def mul128 (multiplier multiplicand : UInt64) : UInt64 × UInt64 :=
  let a := highHalf multiplier
  let b := lowHalf multiplier
  let c := highHalf multiplicand
  let d := lowHalf multiplicand
  let ac := a * c
  let ad := a * d
  let bc := b * c
  let bd := b * d
  let adbc := ad + bc
  let adbcCarry : UInt64 := if adbc < ad then 1 else 0
  let productLo := bd + adbc <<< 32
  let productLoCarry : UInt64 := if productLo < bd then 1 else 0
  (productLo, ac + highHalf adbc + adbcCarry <<< 32 + productLoCarry)

/-- `mul` where `mul128` is not used for it. -/
def mulPortable (a b : UInt64) : UInt64 × UInt64 :=
  let aLow := lowHalf a
  let aHigh := highHalf a
  let bLow := lowHalf b
  let bHigh := highHalf b
  let res := aLow * bLow
  let lowRes1 := lowHalf res
  let carry := highHalf res
  let res := aHigh * bLow + carry
  let highResHigh1 := highHalf res
  let highResLow1 := lowHalf res
  let res := aLow * bHigh
  let lowRes2 := lowHalf res
  let carry := highHalf res
  let res := aHigh * bHigh + carry
  let highResHigh2 := highHalf res
  let highResLow2 := lowHalf res
  let r := highResLow1 + lowRes2
  let carry := highHalf r
  let low := r <<< 32 ||| lowRes1
  let r := highResHigh1 + highResLow2 + carry
  let d3 := lowHalf r
  let carry := highHalf r
  let r := highResHigh2 + carry
  (low, d3 ||| r <<< 32)

/-- Which of the two bodies of `mul` is compiled. -/
inductive Platform
  | x86
  | other
deriving DecidableEq

/-- `mul` -/
def Platform.mul : Platform → UInt64 → UInt64 → UInt64 × UInt64
  | .x86 => mul128
  | .other => mulPortable

/-- A multiplication of words that loses nothing. -/
def ExactMul (mul : UInt64 → UInt64 → UInt64 × UInt64) : Prop :=
  ∀ a b, (mul a b).2.toNat * 2 ^ 64 + (mul a b).1.toNat = a.toNat * b.toNat

/-! ## The check -/

/-- `cadd` -/
def cadd (a b : UInt64) : Bool := a + b < a

/-- `cadc` -/
def cadc (a b : UInt64) (c : Bool) : Bool := a + b < a || (c && a + b = uint64Max)

/-- A word of a hash, the lowest first. -/
def hashWord (hash : Hash) (i : ℕ) : UInt64 :=
  UInt64.ofNat (leValue ((hash.data.drop (8 * i)).take 8))

/-- `check_hash_64` with a multiplication of words. -/
def checkHash64 (mul : UInt64 → UInt64 → UInt64 × UInt64) (hash : Hash) (difficulty : UInt64) :
    Bool :=
  let (top, high) := mul (hashWord hash 3) difficulty
  if high ≠ 0 then false
  else
    let (_, cur) := mul (hashWord hash 0) difficulty
    let (low, high) := mul (hashWord hash 1) difficulty
    let carry := cadd cur low
    let cur := high
    let (low, high) := mul (hashWord hash 2) difficulty
    let carry := cadc cur low carry
    let carry := cadc high top carry
    !carry

/-- `difficulty_type` -/
abbrev DifficultyType := BitVec 128

/-- `check_hash_128` -/
def checkHash128 (hash : Hash) (difficulty : DifficultyType) : Bool :=
  let hashVal : BitVec 512 :=
    (List.range 4).foldl
      (fun hashVal i => hashVal <<< 64 ||| (hashWord hash (3 - i)).toBitVec.setWidth 512) 0
  hashVal * difficulty.setWidth 512 ≤ BitVec.ofNat 512 (2 ^ 256 - 1)

/-- `check_hash` with a multiplication of words. -/
def checkHash (mul : UInt64 → UInt64 → UInt64 × UInt64) (hash : Hash)
    (difficulty : DifficultyType) : Bool :=
  if difficulty ≤ BitVec.ofNat 128 (2 ^ 64 - 1) then
    checkHash64 mul hash (UInt64.ofBitVec (difficulty.setWidth 64))
  else checkHash128 hash difficulty

/-- The number a hash is compared as. -/
def hashValue (hash : Hash) : ℕ := leValue hash.data

/-! ## Both multiplications are exact -/

/-- The sums of `mul128`, for any four words whose weighted sum fits into two words. -/
lemma mul128_sums_exact {ac ad bc bd : UInt64}
    (hlt : ac.toNat * 2 ^ 64 + (ad.toNat + bc.toNat) * 2 ^ 32 + bd.toNat < 2 ^ 128) :
    (ac + highHalf (ad + bc) + (if ad + bc < ad then 1 else 0 : UInt64) <<< 32 +
          (if bd + (ad + bc) <<< 32 < bd then 1 else 0)).toNat * 2 ^ 64 +
        (bd + (ad + bc) <<< 32).toNat =
      ac.toNat * 2 ^ 64 + (ad.toNat + bc.toNat) * 2 ^ 32 + bd.toNat := by
  have hadbc := toNat_add_carry ad bc
  have hlo := toNat_add_carry bd ((ad + bc) <<< 32)
  have hsum := (ad + bc).toNat_lt
  rw [toNat_shiftLeft_half] at hlo
  rw [UInt64.toNat_add (_ + _ + _), UInt64.toNat_add (ac + _), UInt64.toNat_add ac,
    toNat_highHalf, toNat_shiftLeft_half, toNat_carry, toNat_carry]
  split_ifs at hadbc hlo ⊢ <;> omega

lemma mul128_exact : ExactMul mul128 := by
  intro x y
  have hlt := mul_lt_two_words x y
  rw [← products_of_halves] at hlt ⊢
  exact mul128_sums_exact hlt

/-- The sums of the portable multiplication, for four products of halves. -/
lemma mulPortable_sums_exact {ac ad bc bd : UInt64}
    (hac : ac.toNat ≤ (2 ^ 32 - 1) * (2 ^ 32 - 1)) (had : ad.toNat ≤ (2 ^ 32 - 1) * (2 ^ 32 - 1))
    (hlt : ac.toNat * 2 ^ 64 + (ad.toNat + bc.toNat) * 2 ^ 32 + bd.toNat < 2 ^ 128) :
    let first := ad + highHalf bd
    let second := ac + highHalf bc
    let r := lowHalf first + lowHalf bc
    let r' := highHalf first + lowHalf second + highHalf r
    (lowHalf r' ||| (highHalf second + highHalf r') <<< 32).toNat * 2 ^ 64 +
        (r <<< 32 ||| lowHalf bd).toNat =
      ac.toNat * 2 ^ 64 + (ad.toNat + bc.toNat) * 2 ^ 32 + bd.toNat := by
  intro first second r r'
  have hbc := bc.toNat_lt
  have hbd := bd.toNat_lt
  have hfirst : first.toNat = ad.toNat + bd.toNat / 2 ^ 32 := by
    rw [UInt64.toNat_add, toNat_highHalf]
    omega
  have hsecond : second.toNat = ac.toNat + bc.toNat / 2 ^ 32 := by
    rw [UInt64.toNat_add, toNat_highHalf]
    omega
  have hr : r.toNat = first.toNat % 2 ^ 32 + bc.toNat % 2 ^ 32 := by
    rw [UInt64.toNat_add, toNat_lowHalf, toNat_lowHalf]
    omega
  have hr' : r'.toNat = first.toNat / 2 ^ 32 + second.toNat % 2 ^ 32 + r.toNat / 2 ^ 32 := by
    rw [UInt64.toNat_add, UInt64.toNat_add, toNat_highHalf, toNat_highHalf, toNat_lowHalf]
    omega
  have htop : (highHalf second + highHalf r').toNat =
      second.toNat / 2 ^ 32 + r'.toNat / 2 ^ 32 := by
    rw [UInt64.toNat_add, toNat_highHalf, toNat_highHalf]
    omega
  rw [toNat_or_shiftLeft (toNat_lowHalf_lt _), toNat_shiftLeft_or (toNat_lowHalf_lt _),
    toNat_lowHalf, toNat_lowHalf, htop]
  omega

lemma mulPortable_exact : ExactMul mulPortable := by
  intro x y
  have hlt := mul_lt_two_words x y
  rw [← products_of_halves] at hlt ⊢
  exact mulPortable_sums_exact
    (toNat_mul_halves_le (toNat_highHalf_lt x) (toNat_highHalf_lt y))
    (toNat_mul_halves_le (toNat_highHalf_lt x) (toNat_lowHalf_lt y)) hlt

/-! ## Carries -/

lemma cadd_eq (a b : UInt64) : cadd a b = decide (2 ^ 64 ≤ a.toNat + b.toNat) := by
  rw [cadd, decide_eq_decide]
  exact add_lt_left_iff a b

lemma cadc_eq (a b : UInt64) (c : Bool) :
    cadc a b c = decide (2 ^ 64 ≤ a.toNat + b.toNat + c.toNat) := by
  have ha := a.toNat_lt
  have hb := b.toNat_lt
  have hmax : a + b = uint64Max ↔ (a.toNat + b.toNat) % 2 ^ 64 = 2 ^ 64 - 1 := by
    rw [← UInt64.toNat_inj, UInt64.toNat_add]
    rfl
  rw [Bool.eq_iff_iff, decide_eq_true_eq]
  simp only [cadc, Bool.or_eq_true, Bool.and_eq_true, decide_eq_true_eq, add_lt_left_iff, hmax]
  cases c
  · simp
  · simp only [true_and, Bool.toNat_true]
    omega

/-! ## The words of a hash -/

lemma leValue_append (as bs : List UInt8) :
    leValue (as ++ bs) = leValue as + 256 ^ as.length * leValue bs := by
  induction as with
  | nil => simp [leValue]
  | cons a as ih =>
    rw [List.cons_append, leValue, leValue, ih, List.length_cons]
    ring

lemma toNat_hashWord (hash : Hash) (i : ℕ) :
    (hashWord hash i).toNat = leValue ((hash.data.drop (8 * i)).take 8) := by
  have hlt := leValue_lt ((hash.data.drop (8 * i)).take 8)
  have hlen : ((hash.data.drop (8 * i)).take 8).length ≤ 8 := List.length_take_le _ _
  have hle : 256 ^ ((hash.data.drop (8 * i)).take 8).length ≤ 256 ^ 8 :=
    Nat.pow_le_pow_right (by norm_num) hlen
  exact UInt64.toNat_ofNat_of_lt' (by simpa using lt_of_lt_of_le hlt hle)

/-- The next eight bytes of a hash and what follows them. -/
lemma leValue_drop_eq (hash : Hash) {i : ℕ} (hi : i < 4) :
    leValue (hash.data.drop (8 * i)) =
      (hashWord hash i).toNat + 2 ^ 64 * leValue (hash.data.drop (8 * (i + 1))) := by
  have hlen : ((hash.data.drop (8 * i)).take 8).length = 8 := by
    rw [List.length_take, List.length_drop, hash.length_data]
    omega
  conv_lhs => rw [← List.take_append_drop 8 (hash.data.drop (8 * i)), leValue_append, hlen]
  rw [toNat_hashWord, List.drop_drop]
  rfl

lemma hashValue_eq (hash : Hash) :
    hashValue hash = (hashWord hash 0).toNat + 2 ^ 64 * (hashWord hash 1).toNat +
      2 ^ 128 * (hashWord hash 2).toNat + 2 ^ 192 * (hashWord hash 3).toNat := by
  have hend : leValue (hash.data.drop (8 * (3 + 1))) = 0 := by
    rw [List.drop_eq_nil_of_le (le_of_eq hash.length_data)]
    rfl
  calc hashValue hash = leValue (hash.data.drop (8 * 0)) := rfl
    _ = _ := by
      rw [leValue_drop_eq hash (show 0 < 4 by norm_num),
        leValue_drop_eq hash (show 0 + 1 < 4 by norm_num),
        leValue_drop_eq hash (show 0 + 1 + 1 < 4 by norm_num),
        leValue_drop_eq hash (show 0 + 1 + 1 + 1 < 4 by norm_num), hend]
      ring

/-! ## The checks are exact -/

lemma toNat_decide (p : Prop) [Decidable p] : (decide p).toNat = if p then 1 else 0 := by
  split_ifs with h <;> simp [h]

lemma checkHash64_iff {mul : UInt64 → UInt64 → UInt64 × UInt64} (hmul : ExactMul mul)
    (hash : Hash) (difficulty : UInt64) :
    checkHash64 mul hash difficulty = true ↔ hashValue hash * difficulty.toNat < 2 ^ 256 := by
  have h₀ := hmul (hashWord hash 0) difficulty
  have h₁ := hmul (hashWord hash 1) difficulty
  have h₂ := hmul (hashWord hash 2) difficulty
  have h₃ := hmul (hashWord hash 3) difficulty
  have hvalue : hashValue hash * difficulty.toNat =
      (hashWord hash 0).toNat * difficulty.toNat +
        2 ^ 64 * ((hashWord hash 1).toNat * difficulty.toNat) +
        2 ^ 128 * ((hashWord hash 2).toNat * difficulty.toNat) +
        2 ^ 192 * ((hashWord hash 3).toNat * difficulty.toNat) := by
    rw [hashValue_eq]
    ring
  rw [hvalue, ← h₀, ← h₁, ← h₂, ← h₃]
  unfold checkHash64
  obtain ⟨low₀, high₀⟩ := mul (hashWord hash 0) difficulty
  obtain ⟨low₁, high₁⟩ := mul (hashWord hash 1) difficulty
  obtain ⟨low₂, high₂⟩ := mul (hashWord hash 2) difficulty
  obtain ⟨top, high₃⟩ := mul (hashWord hash 3) difficulty
  have hlow₀ := low₀.toNat_lt
  have hlow₁ := low₁.toNat_lt
  have hhigh₀ := high₀.toNat_lt
  have hlow₂ := low₂.toNat_lt
  have hhigh₁ := high₁.toNat_lt
  have htop := top.toNat_lt
  have hhigh₂ := high₂.toNat_lt
  by_cases hhigh : high₃ = 0
  · subst hhigh
    simp only [ne_eq, not_true_eq_false, if_false, cadd_eq, cadc_eq, Bool.not_eq_true',
      decide_eq_false_iff_not, toNat_decide, UInt64.toNat_zero]
    split_ifs <;> omega
  · have hpos : 0 < high₃.toNat := by
      rw [Nat.pos_iff_ne_zero, ne_eq, ← UInt64.toNat_zero, UInt64.toNat_inj]
      exact hhigh
    simp only [ne_eq, hhigh, not_false_eq_true, if_true, Bool.false_eq_true, false_iff]
    omega

/-- One turn of the loop of `check_hash_128`, for numbers of any width. -/
lemma toNat_shiftLeft_or_word {n k : ℕ} {v : BitVec n} (hv : v.toNat < 2 ^ k) (hk : k + 64 ≤ n)
    (w : UInt64) :
    (v <<< 64 ||| w.toBitVec.setWidth n).toNat = v.toNat * 2 ^ 64 + w.toNat ∧
      (v <<< 64 ||| w.toBitVec.setWidth n).toNat < 2 ^ (k + 64) := by
  have hw := w.toNat_lt
  have hpow : 2 ^ (k + 64) ≤ 2 ^ n := Nat.pow_le_pow_right (by norm_num) hk
  have hbound : v.toNat * 2 ^ 64 + w.toNat < 2 ^ (k + 64) := by
    rw [pow_add]
    omega
  have hword : (w.toBitVec.setWidth n).toNat = w.toNat := by
    rw [BitVec.toNat_setWidth, UInt64.toNat_toBitVec]
    exact Nat.mod_eq_of_lt (by omega)
  have hshift : (v <<< 64).toNat = 2 ^ 64 * v.toNat := by
    have hfits : v.toNat * 2 ^ 64 < 2 ^ n :=
      lt_of_le_of_lt (Nat.le_add_right _ _) (lt_of_lt_of_le hbound hpow)
    rw [BitVec.toNat_shiftLeft, Nat.shiftLeft_eq, Nat.mod_eq_of_lt hfits,
      Nat.mul_comm v.toNat]
  have heq : (v <<< 64 ||| w.toBitVec.setWidth n).toNat = v.toNat * 2 ^ 64 + w.toNat := by
    rw [BitVec.toNat_or, hword, hshift, ← Nat.two_pow_add_eq_or_of_lt hw,
      Nat.mul_comm v.toNat]
  exact ⟨heq, heq ▸ hbound⟩

lemma toNat_foldl_hashWord (hash : Hash) {n : ℕ} (hn : 256 ≤ n) :
    ((List.range 4).foldl
      (fun (hashVal : BitVec n) i =>
        hashVal <<< 64 ||| (hashWord hash (3 - i)).toBitVec.setWidth n) 0).toNat =
      hashValue hash := by
  have hzero : (0 : BitVec n).toNat = 0 := by simp
  have hlt : (0 : BitVec n).toNat < 2 ^ 0 := by rw [hzero]; norm_num
  obtain ⟨h₃, hlt₃⟩ := toNat_shiftLeft_or_word hlt (by omega) (hashWord hash 3)
  obtain ⟨h₂, hlt₂⟩ := toNat_shiftLeft_or_word hlt₃ (by omega) (hashWord hash 2)
  obtain ⟨h₁, hlt₁⟩ := toNat_shiftLeft_or_word hlt₂ (by omega) (hashWord hash 1)
  obtain ⟨h₀, -⟩ := toNat_shiftLeft_or_word hlt₁ (by omega) (hashWord hash 0)
  have hrange : List.range 4 = [0, 1, 2, 3] := rfl
  simp only [hrange, List.foldl_cons, List.foldl_nil, Nat.sub_zero, Nat.reduceSub, Nat.sub_self]
  rw [h₀, h₁, h₂, h₃, hashValue_eq, hzero]
  ring

lemma hashValue_lt (hash : Hash) : hashValue hash < 2 ^ 256 := by
  have hlt := leValue_lt hash.data
  rw [hash.length_data] at hlt
  exact lt_of_lt_of_eq hlt (by norm_num)

/-- The product of `check_hash_128` fits, whatever the width it is formed in. -/
lemma mul_le_max256_iff {n : ℕ} (hn : 256 + 128 ≤ n) (hash : Hash) (difficulty : DifficultyType)
    {v : BitVec n} (hv : v.toNat = hashValue hash) :
    v * difficulty.setWidth n ≤ BitVec.ofNat n (2 ^ 256 - 1) ↔
      hashValue hash * difficulty.toNat < 2 ^ 256 := by
  have hwide {m : ℕ} (hm : m ≤ 256 + 128) : 2 ^ m ≤ 2 ^ n :=
    Nat.pow_le_pow_right (by norm_num) (by omega)
  have hlt : hashValue hash * difficulty.toNat < 2 ^ n := by
    refine lt_of_lt_of_le ?_ (hwide le_rfl)
    rw [pow_add]
    exact Nat.mul_lt_mul'' (hashValue_lt hash) difficulty.isLt
  have hdifficulty : (difficulty.setWidth n).toNat = difficulty.toNat := by
    rw [BitVec.toNat_setWidth]
    exact Nat.mod_eq_of_lt (lt_of_lt_of_le difficulty.isLt (hwide (by norm_num)))
  have hmax : (BitVec.ofNat n (2 ^ 256 - 1)).toNat = 2 ^ 256 - 1 := by
    rw [BitVec.toNat_ofNat]
    exact Nat.mod_eq_of_lt (lt_of_lt_of_le (Nat.sub_lt (by norm_num) one_pos)
      (hwide (by norm_num)))
  rw [BitVec.le_def, BitVec.toNat_mul, hv, hdifficulty, hmax, Nat.mod_eq_of_lt hlt]
  exact Nat.le_sub_one_iff_lt (by norm_num)

lemma checkHash128_iff (hash : Hash) (difficulty : DifficultyType) :
    checkHash128 hash difficulty = true ↔ hashValue hash * difficulty.toNat < 2 ^ 256 := by
  unfold checkHash128
  rw [decide_eq_true_eq]
  exact mul_le_max256_iff (by norm_num) hash difficulty (toNat_foldl_hashWord hash (by norm_num))

lemma checkHash_iff {mul : UInt64 → UInt64 → UInt64 × UInt64} (hmul : ExactMul mul)
    (hash : Hash) (difficulty : DifficultyType) :
    checkHash mul hash difficulty = true ↔ hashValue hash * difficulty.toNat < 2 ^ 256 := by
  unfold checkHash
  split_ifs with hsmall
  · rw [checkHash64_iff hmul]
    have hword : (UInt64.ofBitVec (difficulty.setWidth 64)).toNat = difficulty.toNat := by
      show (difficulty.setWidth 64).toNat = _
      rw [BitVec.toNat_setWidth, Nat.mod_eq_of_lt]
      rw [BitVec.le_def] at hsmall
      exact Nat.lt_of_le_of_lt hsmall (by decide)
    rw [hword]
  · exact checkHash128_iff hash difficulty

lemma Platform.mul_exact (platform : Platform) : ExactMul platform.mul := by
  cases platform with
  | x86 => exact mul128_exact
  | other => exact mulPortable_exact

/-- **The comparison of a hash with a difficulty is exact.**  On either platform a hash passes a
difficulty if their product is below `2 ^ 256`, and the check for one word agrees with the one for
two words. -/
theorem check_hash_is_exact (platform : Platform) (hash : Hash) :
    (∀ difficulty : DifficultyType,
      checkHash platform.mul hash difficulty = true ↔
        hashValue hash * difficulty.toNat < 2 ^ 256) ∧
    (∀ difficulty : UInt64,
      checkHash64 platform.mul hash difficulty =
        checkHash128 hash (difficulty.toBitVec.setWidth 128)) := by
  refine ⟨fun difficulty => checkHash_iff platform.mul_exact hash difficulty, ?_⟩
  intro difficulty
  have hword : (difficulty.toBitVec.setWidth 128).toNat = difficulty.toNat := by
    rw [BitVec.toNat_setWidth]
    exact Nat.mod_eq_of_lt (lt_of_lt_of_le difficulty.toNat_lt (by norm_num))
  rw [Bool.eq_iff_iff, checkHash64_iff platform.mul_exact, checkHash128_iff, hword]

end Qwertycoin
