import Qwertycoin.ProofOfWork
import Qwertycoin.Supply

/-
# The penalty of a heavy block

A block heavier than the median loses part of its reward, by a quotient whose denominator is the
square of the median.  The code never forms that square: it multiplies into two words and divides
twice by the median.  Here the words hold the exact value, and the value falls with the weight of
the block and with the coins generated before.
-/

namespace Qwertycoin

open Words

/-! ## The reward by its parts -/

/-- The reward of a block that is not too heavy. -/
def baseReward (alreadyGeneratedCoins : UInt64) (version : UInt8) : UInt64 :=
  let target := if version < 2 then difficultyTargetV1 else difficultyTargetV2
  let targetMinutes := target / 60
  let emissionSpeedFactor := emissionSpeedFactorPerMinute - (targetMinutes - 1)
  let speedReward := (moneySupply - alreadyGeneratedCoins) >>> emissionSpeedFactor
  if speedReward < finalSubsidyPerMinute * targetMinutes then finalSubsidyPerMinute * targetMinutes
  else speedReward

/-- The median, not below the full reward zone. -/
def effectiveMedianWeight (medianWeight : UInt64) (version : UInt8) : UInt64 :=
  if medianWeight < getMinBlockWeight version then getMinBlockWeight version else medianWeight

/-- The first factor of the reward of a heavy block, as the code computes it. -/
def penaltyMultiplicand (medianWeight currentBlockWeight : UInt64) : UInt64 :=
  (2 * medianWeight - currentBlockWeight) * currentBlockWeight

/-- `div128_64`: the high and the low word of a quotient. -/
def div128By64 (dividendHi dividendLo divisor : UInt64) : UInt64 × UInt64 :=
  let q := (dividendHi.toNat * 2 ^ 64 + dividendLo.toNat) / divisor.toNat
  (UInt64.ofNat (q / 2 ^ 64), UInt64.ofNat (q % 2 ^ 64))

/-- The two words the second division leaves. -/
def penaltyWords (baseReward medianWeight currentBlockWeight : UInt64) : UInt64 × UInt64 :=
  let (productLo, productHi) :=
    mul128 baseReward (penaltyMultiplicand medianWeight currentBlockWeight)
  let (rewardHi, rewardLo) := div128By64 productHi productLo medianWeight
  div128By64 rewardHi rewardLo medianWeight

lemma getBlockReward_eq (medianWeight weight coins : UInt64) (version : UInt8) :
    getBlockReward medianWeight weight coins version =
      if weight ≤ effectiveMedianWeight medianWeight version then some (baseReward coins version)
      else if 2 * effectiveMedianWeight medianWeight version < weight then none
      else some (UInt64.ofNat ((baseReward coins version).toNat *
        (penaltyMultiplicand (effectiveMedianWeight medianWeight version) weight).toNat /
          (effectiveMedianWeight medianWeight version).toNat /
            (effectiveMedianWeight medianWeight version).toNat)) :=
  rfl

/-! ## The penalty as a number -/

/-- What is left of a reward at a weight. -/
def penalised (base median weight : ℕ) : ℕ :=
  if weight ≤ median then base else base * ((2 * median - weight) * weight) / median ^ 2

/-- The parabola that the penalty follows falls behind the median. -/
lemma parabola_antitone {median weight weight' : ℕ} (hmedian : median ≤ weight)
    (hle : weight ≤ weight') :
    (2 * median - weight') * weight' ≤ (2 * median - weight) * weight := by
  by_cases hend : 2 * median ≤ weight'
  · rw [Nat.sub_eq_zero_of_le hend, Nat.zero_mul]
    exact Nat.zero_le _
  · obtain ⟨k, rfl⟩ := Nat.exists_eq_add_of_le hle
    obtain ⟨m, rfl⟩ := Nat.exists_eq_add_of_le hmedian
    obtain ⟨r, hr⟩ := Nat.exists_eq_add_of_le (Nat.le_of_not_le hend)
    have h₁ : 2 * median - (median + m + k) = r := by omega
    have h₂ : 2 * median - (median + m) = r + k := by omega
    rw [h₁, h₂]
    nlinarith

lemma parabola_le_sq {median weight : ℕ} (hheavy : median ≤ weight) :
    (2 * median - weight) * weight ≤ median ^ 2 := by
  have hfall := parabola_antitone le_rfl hheavy
  rwa [two_mul, Nat.add_sub_cancel, ← sq, ← two_mul] at hfall

lemma penalised_le_base (base median weight : ℕ) : penalised base median weight ≤ base := by
  unfold penalised
  split_ifs with hlight
  · exact le_rfl
  · refine Nat.div_le_of_le_mul ?_
    rw [Nat.mul_comm (median ^ 2)]
    exact Nat.mul_le_mul_left base (parabola_le_sq (Nat.le_of_not_le hlight))

lemma penalised_antitone_weight (base median : ℕ) {weight weight' : ℕ} (hle : weight ≤ weight') :
    penalised base median weight' ≤ penalised base median weight := by
  by_cases hlight : weight ≤ median
  · calc penalised base median weight' ≤ base := penalised_le_base base median weight'
      _ = penalised base median weight := (if_pos hlight).symm
  · rw [penalised, penalised, if_neg hlight, if_neg (by omega)]
    exact Nat.div_le_div_right
      (Nat.mul_le_mul_left base (parabola_antitone (Nat.le_of_not_le hlight) hle))

lemma penalised_monotone_base (median weight : ℕ) {base base' : ℕ} (hle : base ≤ base') :
    penalised base median weight ≤ penalised base' median weight := by
  unfold penalised
  split_ifs with hlight
  · exact hle
  · exact Nat.div_le_div_right (Nat.mul_le_mul_right _ hle)

/-! ## The words hold the penalty -/

lemma toNat_div128By64 (dividendHi dividendLo divisor : UInt64) :
    (div128By64 dividendHi dividendLo divisor).1.toNat * 2 ^ 64 +
        (div128By64 dividendHi dividendLo divisor).2.toNat =
      (dividendHi.toNat * 2 ^ 64 + dividendLo.toNat) / divisor.toNat := by
  have hhi := dividendHi.toNat_lt
  have hlo := dividendLo.toNat_lt
  have hq : (dividendHi.toNat * 2 ^ 64 + dividendLo.toNat) / divisor.toNat < 2 ^ 128 :=
    lt_of_le_of_lt (Nat.div_le_self _ _) (by omega)
  unfold div128By64
  generalize (dividendHi.toNat * 2 ^ 64 + dividendLo.toNat) / divisor.toNat = q at hq
  show (UInt64.ofNat (q / 2 ^ 64)).toNat * 2 ^ 64 + (UInt64.ofNat (q % 2 ^ 64)).toNat = q
  rw [UInt64.toNat_ofNat_of_lt' (by norm_num; omega), UInt64.toNat_ofNat_of_lt' (by norm_num; omega)]
  omega

lemma toNat_penaltyWords (base median weight : UInt64) :
    (penaltyWords base median weight).1.toNat * 2 ^ 64 +
        (penaltyWords base median weight).2.toNat =
      base.toNat * (penaltyMultiplicand median weight).toNat / median.toNat / median.toNat := by
  have hmul := mul128_exact base (penaltyMultiplicand median weight)
  set product := mul128 base (penaltyMultiplicand median weight) with hproduct
  have hfirst := toNat_div128By64 product.2 product.1 median
  rw [hmul] at hfirst
  rw [← hfirst]
  exact toNat_div128By64 (div128By64 product.2 product.1 median).1
    (div128By64 product.2 product.1 median).2 median

section Bounds

variable {median weight : UInt64}

lemma toNat_two_mul (hmedian : median.toNat < 2 ^ 32) : (2 * median).toNat = 2 * median.toNat := by
  rw [UInt64.toNat_mul]
  exact Nat.mod_eq_of_lt (by show 2 * median.toNat < 2 ^ 64; omega)

lemma toNat_penaltyMultiplicand (hmedian : median.toNat < 2 ^ 32)
    (hheavy : median.toNat < weight.toNat) (hend : weight.toNat ≤ 2 * median.toNat) :
    (penaltyMultiplicand median weight).toNat =
      (2 * median.toNat - weight.toNat) * weight.toNat := by
  have hsub : (2 * median - weight).toNat = 2 * median.toNat - weight.toNat := by
    rw [UInt64.toNat_sub_of_le _ _ (by rwa [UInt64.le_iff_toNat_le, toNat_two_mul hmedian]),
      toNat_two_mul hmedian]
  have hfits : (2 * median.toNat - weight.toNat) * weight.toNat < 2 ^ 64 :=
    calc (2 * median.toNat - weight.toNat) * weight.toNat ≤ median.toNat ^ 2 :=
          parabola_le_sq hheavy.le
      _ < (2 ^ 32) ^ 2 := Nat.pow_lt_pow_left hmedian two_ne_zero
      _ = 2 ^ 64 := by norm_num
  rw [penaltyMultiplicand, UInt64.toNat_mul, hsub]
  exact Nat.mod_eq_of_lt hfits

lemma penaltyWords_eq (base : UInt64) (hmedian : median.toNat < 2 ^ 32)
    (hheavy : median.toNat < weight.toNat) (hend : weight.toNat ≤ 2 * median.toNat) :
    (penaltyWords base median weight).1 = 0 ∧
      (penaltyWords base median weight).2.toNat =
        penalised base.toNat median.toNat weight.toNat := by
  have hwords := toNat_penaltyWords base median weight
  have hvalue : base.toNat * (penaltyMultiplicand median weight).toNat / median.toNat /
      median.toNat = penalised base.toNat median.toNat weight.toNat := by
    rw [toNat_penaltyMultiplicand hmedian hheavy hend, Nat.div_div_eq_div_mul, ← sq, penalised,
      if_neg (by omega)]
  have hle := penalised_le_base base.toNat median.toNat weight.toNat
  have hbase := base.toNat_lt
  rw [hvalue] at hwords
  refine ⟨UInt64.toNat_inj.mp ?_, ?_⟩
  · show _ = 0
    omega
  · omega

end Bounds

/-! ## The reward -/

section Reward

variable {version : UInt8}

lemma toNat_baseReward {coins : UInt64} (hversion : 5 ≤ version) (hcoins : coins ≤ moneySupply) :
    (baseReward coins version).toNat =
      max ((moneySupply.toNat - coins.toNat) / 2 ^ 19) (finalSubsidyPerMinute.toNat * 2) := by
  have htarget : (if version < 2 then difficultyTargetV1 else difficultyTargetV2) =
      difficultyTargetV2 := by
    refine if_neg fun hlt => ?_
    rw [UInt8.le_iff_toNat_le] at hversion
    rw [UInt8.lt_iff_toNat_lt] at hlt
    exact absurd (hversion.trans hlt.le) (by decide)
  have hminutes : difficultyTargetV2 / 60 = 2 := by decide
  have hfactor : emissionSpeedFactorPerMinute - (2 - 1) = 19 := by decide
  have hsubsidy : finalSubsidyPerMinute * 2 = 60000000 := by decide
  have hshift : ((moneySupply - coins) >>> 19).toNat =
      (moneySupply.toNat - coins.toNat) / 2 ^ 19 := by
    rw [UInt64.toNat_shiftRight, UInt64.toNat_sub_of_le _ _ hcoins]
    exact Nat.shiftRight_eq_div_pow _ 19
  unfold baseReward
  simp only [htarget, hminutes, hfactor, hsubsidy]
  show _ = max _ 60000000
  rw [← hshift]
  split_ifs with hlow
  · rw [UInt64.lt_iff_toNat_lt] at hlow
    exact (max_eq_right hlow.le).symm
  · rw [UInt64.not_lt, UInt64.le_iff_toNat_le] at hlow
    exact (max_eq_left hlow).symm

lemma toNat_effectiveMedianWeight (medianWeight : UInt64) (version : UInt8) :
    (effectiveMedianWeight medianWeight version).toNat =
      max medianWeight.toNat (getMinBlockWeight version).toNat := by
  unfold effectiveMedianWeight
  split_ifs with hlow
  · rw [UInt64.lt_iff_toNat_lt] at hlow
    exact (max_eq_right hlow.le).symm
  · rw [UInt64.not_lt, UInt64.le_iff_toNat_le] at hlow
    exact (max_eq_left hlow).symm

lemma getMinBlockWeight_lt (version : UInt8) : (getMinBlockWeight version).toNat < 2 ^ 32 := by
  unfold getMinBlockWeight
  split_ifs <;> decide

lemma effectiveMedianWeight_lt {medianWeight : UInt64} (hmedian : medianWeight.toNat < 2 ^ 32)
    (version : UInt8) : (effectiveMedianWeight medianWeight version).toNat < 2 ^ 32 := by
  rw [toNat_effectiveMedianWeight]
  exact max_lt hmedian (getMinBlockWeight_lt version)

lemma getBlockReward_cases {medianWeight : UInt64} (hmedian : medianWeight.toNat < 2 ^ 32)
    (weight coins : UInt64) (version : UInt8) :
    let median := effectiveMedianWeight medianWeight version
    (2 * median.toNat < weight.toNat ∧ getBlockReward medianWeight weight coins version = none) ∨
      (weight.toNat ≤ 2 * median.toNat ∧ ∃ reward,
        getBlockReward medianWeight weight coins version = some reward ∧
          reward.toNat = penalised (baseReward coins version).toNat median.toNat weight.toNat) := by
  intro median
  have hlt := effectiveMedianWeight_lt hmedian version
  rw [getBlockReward_eq]
  by_cases hlight : weight ≤ median
  · have hle := UInt64.le_iff_toNat_le.mp hlight
    exact .inr ⟨by omega, _, if_pos hlight, (if_pos hle).symm⟩
  · have hheavy := UInt64.lt_iff_toNat_lt.mp (UInt64.not_le.mp hlight)
    rw [if_neg hlight]
    by_cases hend : 2 * median < weight
    · rw [UInt64.lt_iff_toNat_lt, toNat_two_mul hlt] at hend
      exact .inl ⟨hend, if_pos (UInt64.lt_iff_toNat_lt.mpr (by rwa [toNat_two_mul hlt]))⟩
    · have hle : weight.toNat ≤ 2 * median.toNat := by
        rwa [UInt64.lt_iff_toNat_lt, toNat_two_mul hlt, Nat.not_lt] at hend
      refine .inr ⟨hle, _, if_neg hend, ?_⟩
      obtain ⟨hhi, hlo⟩ := penaltyWords_eq (baseReward coins version) hlt hheavy hle
      have hwords := toNat_penaltyWords (baseReward coins version) median weight
      rw [hhi, UInt64.toNat_zero, Nat.zero_mul, Nat.zero_add] at hwords
      rw [← hwords, UInt64.ofNat_toNat, hlo]

/-- **The penalty is exact and monotone.**  A block reward exists up to twice the median.  It is
the base reward up to the median, and the exact quotient behind it, which the low word of the
second division holds while the high word is empty.  It falls with the weight of the block and with
the coins generated before, and the base reward does not fall below the final subsidy. -/
theorem block_reward_penalty_is_exact {medianWeight coins : UInt64} (hversion : 5 ≤ version)
    (hcoins : coins ≤ moneySupply) (hmedian : medianWeight.toNat < 2 ^ 32) (weight : UInt64) :
    let median := effectiveMedianWeight medianWeight version
    let base := baseReward coins version
    let reward := getBlockReward medianWeight weight coins version
    median.toNat = max medianWeight.toNat (getMinBlockWeight version).toNat ∧
    base.toNat =
      max ((moneySupply.toNat - coins.toNat) / 2 ^ 19) (finalSubsidyPerMinute.toNat * 2) ∧
    (reward = none ↔ 2 * median.toNat < weight.toNat) ∧
    (weight.toNat ≤ median.toNat → reward = some base) ∧
    (median.toNat < weight.toNat → weight.toNat ≤ 2 * median.toNat →
      (penaltyMultiplicand median weight).toNat =
        (2 * median.toNat - weight.toNat) * weight.toNat ∧
      (penaltyWords base median weight).1 = 0 ∧
      reward = some (penaltyWords base median weight).2 ∧
      (penaltyWords base median weight).2.toNat =
        base.toNat * ((2 * median.toNat - weight.toNat) * weight.toNat) / median.toNat ^ 2) ∧
    (∀ amount, reward = some amount → amount.toNat ≤ base.toNat) ∧
    (∀ weight' amount amount', weight.toNat ≤ weight'.toNat → reward = some amount →
      getBlockReward medianWeight weight' coins version = some amount' →
        amount'.toNat ≤ amount.toNat) ∧
    (∀ coins' amount amount', coins.toNat ≤ coins'.toNat → coins' ≤ moneySupply →
      reward = some amount → getBlockReward medianWeight weight coins' version = some amount' →
        (baseReward coins' version).toNat ≤ base.toNat ∧ amount'.toNat ≤ amount.toNat) := by
  intro median base reward
  have hlt : median.toNat < 2 ^ 32 := effectiveMedianWeight_lt hmedian version
  have hsome : ∀ {weight coins amount : UInt64},
      getBlockReward medianWeight weight coins version = some amount →
        amount.toNat = penalised (baseReward coins version).toNat median.toNat weight.toNat := by
    intro weight coins amount hamount
    obtain ⟨-, hnone⟩ | ⟨-, amount', hamount', hvalue⟩ :=
      getBlockReward_cases hmedian weight coins version
    · cases hnone.symm.trans hamount
    · rwa [Option.some.inj (hamount.symm.trans hamount')]
  refine ⟨toNat_effectiveMedianWeight medianWeight version, toNat_baseReward hversion hcoins,
    ?_, ?_, ?_, ?_, ?_, ?_⟩
  · obtain ⟨hend, hnone⟩ | ⟨hend, amount, hamount, -⟩ :=
      getBlockReward_cases hmedian weight coins version
    · exact ⟨fun _ => hend, fun _ => hnone⟩
    · refine ⟨fun hnone => ?_, fun hheavy => absurd hend (Nat.not_le.mpr hheavy)⟩
      cases hnone.symm.trans hamount
  · intro hlight
    exact (getBlockReward_eq medianWeight weight coins version).trans
      (if_pos (UInt64.le_iff_toNat_le.mpr hlight))
  · intro hheavy hend
    obtain ⟨hhi, hlo⟩ := penaltyWords_eq base hlt hheavy hend
    have hquotient : penalised base.toNat median.toNat weight.toNat =
        base.toNat * ((2 * median.toNat - weight.toNat) * weight.toNat) / median.toNat ^ 2 :=
      if_neg (Nat.not_le.mpr hheavy)
    refine ⟨toNat_penaltyMultiplicand hlt hheavy hend, hhi, ?_, hlo.trans hquotient⟩
    obtain ⟨hend', -⟩ | ⟨-, amount, hamount, hvalue⟩ :=
      getBlockReward_cases hmedian weight coins version
    · exact absurd hend (Nat.not_le.mpr hend')
    · exact hamount.trans (congrArg some (UInt64.toNat_inj.mp (hvalue.trans hlo.symm)))
  · intro amount hamount
    rw [hsome hamount]
    exact penalised_le_base _ _ _
  · intro weight' amount amount' hle hamount hamount'
    rw [hsome hamount, hsome hamount']
    exact penalised_antitone_weight _ _ hle
  · intro coins' amount amount' hle hcoins' hamount hamount'
    have hbase : (baseReward coins' version).toNat ≤ base.toNat := by
      rw [toNat_baseReward hversion hcoins', toNat_baseReward hversion hcoins]
      exact max_le_max (Nat.div_le_div_right (Nat.sub_le_sub_left hle _)) le_rfl
    rw [hsome hamount, hsome hamount']
    exact ⟨hbase, penalised_monotone_base _ _ hbase⟩

/-- A block one and a half times as heavy as the median loses a quarter of its reward. -/
theorem block_reward_penalty_sample :
    getBlockReward 400000 600000 0 17 = some (penaltyWords (baseReward 0 17) 400000 600000).2 ∧
      (penaltyWords (baseReward 0 17) 400000 600000).2.toNat =
        (baseReward 0 17).toNat * 3 / 4 := by
  have hmedian : effectiveMedianWeight 400000 17 = 400000 := by decide
  obtain ⟨-, -, -, -, hheavy, -⟩ := block_reward_penalty_is_exact
    (show (5 : UInt8) ≤ 17 by decide) (show (0 : UInt64) ≤ moneySupply by decide)
    (show (400000 : UInt64).toNat < 2 ^ 32 by decide) 600000
  rw [hmedian] at hheavy
  obtain ⟨-, -, hreward, hvalue⟩ := hheavy (by decide) (by decide)
  refine ⟨hreward, hvalue.trans ?_⟩
  decide +kernel

end Reward

end Qwertycoin
