import Mathlib

/-
# Products of machine words

Portable code multiplies two 64-bit words by way of their halves, and adds words whose sum may
wrap.  Here is what the operations it uses compute as natural numbers, what a comparison after an
addition says about the carry, and that the product of the halves is the product of the words.
-/

namespace Words

variable {x y : UInt64}

/-! ## Halves -/

def lowHalf (x : UInt64) : UInt64 := x &&& 0xFFFFFFFF

def highHalf (x : UInt64) : UInt64 := x >>> 32

lemma toNat_lowHalf (x : UInt64) : (lowHalf x).toNat = x.toNat % 2 ^ 32 := by
  rw [lowHalf, UInt64.toNat_and]
  exact Nat.and_two_pow_sub_one_eq_mod x.toNat 32

lemma toNat_highHalf (x : UInt64) : (highHalf x).toNat = x.toNat / 2 ^ 32 := by
  rw [highHalf, UInt64.toNat_shiftRight]
  exact Nat.shiftRight_eq_div_pow x.toNat 32

lemma toNat_lowHalf_lt (x : UInt64) : (lowHalf x).toNat < 2 ^ 32 := by
  rw [toNat_lowHalf]
  exact Nat.mod_lt _ (by norm_num)

lemma toNat_highHalf_lt (x : UInt64) : (highHalf x).toNat < 2 ^ 32 := by
  have hx := x.toNat_lt
  rw [toNat_highHalf]
  omega

lemma toNat_shiftLeft_half (x : UInt64) : (x <<< 32).toNat = x.toNat % 2 ^ 32 * 2 ^ 32 := by
  rw [UInt64.toNat_shiftLeft]
  show x.toNat <<< 32 % 2 ^ 64 = _
  rw [Nat.shiftLeft_eq]
  omega

/-- Two halves put together. -/
lemma toNat_shiftLeft_or (hx : x.toNat < 2 ^ 32) :
    (y <<< 32 ||| x).toNat = y.toNat % 2 ^ 32 * 2 ^ 32 + x.toNat := by
  rw [UInt64.toNat_or, toNat_shiftLeft_half, Nat.mul_comm, Nat.two_pow_add_eq_or_of_lt hx]

lemma toNat_or_shiftLeft (hx : x.toNat < 2 ^ 32) :
    (x ||| y <<< 32).toNat = y.toNat % 2 ^ 32 * 2 ^ 32 + x.toNat := by
  rw [UInt64.or_comm, toNat_shiftLeft_or hx]

lemma toNat_mul_of_halves (hx : x.toNat < 2 ^ 32) (hy : y.toNat < 2 ^ 32) :
    (x * y).toNat = x.toNat * y.toNat := by
  rw [UInt64.toNat_mul, Nat.mod_eq_of_lt]
  calc x.toNat * y.toNat < 2 ^ 32 * 2 ^ 32 := Nat.mul_lt_mul'' hx hy
    _ = 2 ^ 64 := by norm_num

/-! ## Carries -/

lemma add_lt_left_iff (x y : UInt64) : x + y < x ↔ 2 ^ 64 ≤ x.toNat + y.toNat := by
  have hx := x.toNat_lt
  have hy := y.toNat_lt
  rw [UInt64.lt_iff_toNat_lt, UInt64.toNat_add]
  omega

/-- A wrapped sum is the sum less the carry. -/
lemma toNat_add_carry (x y : UInt64) :
    (x + y).toNat + (if x + y < x then 2 ^ 64 else 0) = x.toNat + y.toNat := by
  have hx := x.toNat_lt
  have hy := y.toNat_lt
  rw [if_congr (add_lt_left_iff x y) rfl rfl, UInt64.toNat_add]
  split_ifs <;> omega

lemma toNat_carry (p : Prop) [Decidable p] :
    (if p then 1 else 0 : UInt64).toNat = if p then 1 else 0 := by
  split_ifs <;> rfl

/-! ## The product of two words -/

/-- The four products of halves make up the product of the words. -/
lemma products_of_halves (x y : UInt64) :
    (highHalf x * highHalf y).toNat * 2 ^ 64 +
        ((highHalf x * lowHalf y).toNat + (lowHalf x * highHalf y).toNat) * 2 ^ 32 +
          (lowHalf x * lowHalf y).toNat =
      x.toNat * y.toNat := by
  have hxh := toNat_highHalf_lt x
  have hxl := toNat_lowHalf_lt x
  have hyh := toNat_highHalf_lt y
  have hyl := toNat_lowHalf_lt y
  rw [toNat_mul_of_halves hxh hyh, toNat_mul_of_halves hxh hyl, toNat_mul_of_halves hxl hyh,
    toNat_mul_of_halves hxl hyl, toNat_highHalf, toNat_highHalf, toNat_lowHalf, toNat_lowHalf]
  conv_rhs => rw [← Nat.div_add_mod x.toNat (2 ^ 32), ← Nat.div_add_mod y.toNat (2 ^ 32)]
  ring

/-- A product of two halves leaves room for two more. -/
lemma toNat_mul_halves_le (hx : x.toNat < 2 ^ 32) (hy : y.toNat < 2 ^ 32) :
    (x * y).toNat ≤ (2 ^ 32 - 1) * (2 ^ 32 - 1) := by
  rw [toNat_mul_of_halves hx hy]
  exact Nat.mul_le_mul (Nat.le_pred_of_lt hx) (Nat.le_pred_of_lt hy)

lemma mul_lt_two_words (x y : UInt64) : x.toNat * y.toNat < 2 ^ 128 :=
  calc x.toNat * y.toNat < 2 ^ 64 * 2 ^ 64 := Nat.mul_lt_mul'' x.toNat_lt y.toNat_lt
    _ = 2 ^ 128 := by norm_num

end Words
