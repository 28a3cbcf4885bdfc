import Qwertycoin.Crypto

/-
# Epoch timing

Epoch `e` covers the heights from `e * epochLength` on.  Its committee is fixed `anchorDepth`
blocks before it starts and its evidence is settled `anchorDepth` blocks before it ends.  The
functions of the source compute these heights in 64-bit arithmetic and fail on overflow; each
comes with its meaning over the natural numbers.
-/

namespace Qwertycoin

lemma passed_of_ite {α : Type} {check : Prop} [Decidable check] {stop rest result : α}
    (hstop : stop ≠ result) (h : (if check then stop else rest) = result) :
    ¬check ∧ rest = result := by
  split_ifs at h with hcheck
  exacts [absurd h hstop, ⟨hcheck, h⟩]

/-! ## Checked arithmetic -/

lemma toNat_ofNat_of_fits {n : ℕ} (h : n < 2 ^ 64) : (UInt64.ofNat n).toNat = n :=
  UInt64.toNat_ofNat_of_lt' (h.trans_eq (by norm_num [UInt64.size]))

def checkedAdd (left right : UInt64) : Option UInt64 :=
  if uint64Max - right < left then none else some (left + right)

def checkedMul (left right : UInt64) : Option UInt64 :=
  if left ≠ 0 ∧ uint64Max / left < right then none else some (left * right)

lemma checkedAdd_eq_some_iff {a b c : UInt64} :
    checkedAdd a b = some c ↔ a.toNat + b.toNat = c.toNat := by
  have ha := a.toNat_lt
  have hb := b.toNat_lt
  have hc := c.toNat_lt
  have hsub : (uint64Max - b).toNat = 2 ^ 64 - 1 - b.toNat := by
    rw [UInt64.toNat_sub_of_le _ _ (UInt64.le_iff_toNat_le.mpr (by simp; omega))]
    simp
  unfold checkedAdd
  split
  · rename_i h
    rw [UInt64.lt_iff_toNat_lt, hsub] at h
    simp only [reduceCtorEq, false_iff]
    omega
  · rename_i h
    rw [UInt64.lt_iff_toNat_lt, hsub] at h
    rw [Option.some.injEq, ← UInt64.toNat_inj, UInt64.toNat_add]
    omega

lemma checkedMul_eq_some_iff {a b c : UInt64} :
    checkedMul a b = some c ↔ a.toNat * b.toNat = c.toNat := by
  have hc := c.toNat_lt
  have hzero : a ≠ 0 ↔ a.toNat ≠ 0 := by rw [ne_eq, ← UInt64.toNat_inj]; rfl
  unfold checkedMul
  split
  · rename_i h
    rw [hzero, UInt64.lt_iff_toNat_lt, UInt64.toNat_div, toNat_uint64Max] at h
    have hover : 2 ^ 64 - 1 < b.toNat * a.toNat := (Nat.div_lt_iff_lt_mul (by omega)).mp h.2
    rw [Nat.mul_comm] at hover
    simp only [reduceCtorEq, false_iff]
    omega
  · rename_i h
    rw [hzero, UInt64.lt_iff_toNat_lt, UInt64.toNat_div, toNat_uint64Max, not_and, not_lt] at h
    have hfits : a.toNat * b.toNat < 2 ^ 64 := by
      rcases Nat.eq_zero_or_pos a.toNat with h0 | hpos
      · simp [h0]
      · have := (Nat.le_div_iff_mul_le hpos).mp (h (by omega))
        rw [Nat.mul_comm]
        omega
    rw [Option.some.injEq, ← UInt64.toNat_inj, UInt64.toNat_mul, Nat.mod_eq_of_lt hfits]

/-! ## Heights of an epoch -/

structure EpochTimingV2 where
  activationHeight : UInt64 := 0
  epochLength : UInt64 := 720
  anchorDepth : UInt64 := 60
deriving DecidableEq

namespace EpochTimingV2

def valid (t : EpochTimingV2) : Bool :=
  0 < t.epochLength && 0 < t.anchorDepth && t.anchorDepth < t.epochLength &&
    t.activationHeight % t.epochLength = 0

def activationEpoch (t : EpochTimingV2) : Option UInt64 :=
  if t.valid then some (t.activationHeight / t.epochLength) else none

def firstServiceEpoch (t : EpochTimingV2) : Option UInt64 := do
  checkedAdd (← t.activationEpoch) 1

def epochStart (t : EpochTimingV2) (epoch : UInt64) : Option UInt64 :=
  if t.valid then checkedMul epoch t.epochLength else none

def firstPayoutHeight (t : EpochTimingV2) : Option UInt64 := do
  let serviceEpoch ← t.firstServiceEpoch
  let payoutEpoch ← checkedAdd serviceEpoch 1
  t.epochStart payoutEpoch

def epochEnd (t : EpochTimingV2) (epoch : UInt64) : Option UInt64 := do
  checkedAdd (← t.epochStart epoch) (t.epochLength - 1)

def enrollmentCutoff (t : EpochTimingV2) (epoch : UInt64) : Option UInt64 := do
  let start ← t.epochStart epoch
  if start ≤ t.anchorDepth then none else some (start - t.anchorDepth - 1)

def committeeAnchor (t : EpochTimingV2) (epoch : UInt64) : Option UInt64 := do
  let start ← t.epochStart epoch
  if start < t.anchorDepth then none else some (start - t.anchorDepth)

def evidenceDeadline (t : EpochTimingV2) (epoch : UInt64) : Option UInt64 := do
  let finish ← t.epochEnd epoch
  if finish < t.anchorDepth then none else some (finish - t.anchorDepth)

/-! ## Their meaning -/

/-- The epoch length as a number. -/
def len (t : EpochTimingV2) : ℕ := t.epochLength.toNat

/-- The anchor depth as a number. -/
def depth (t : EpochTimingV2) : ℕ := t.anchorDepth.toNat

/-- The first epoch that is served: the one after the epoch of activation. -/
def firstService (t : EpochTimingV2) : ℕ := t.activationHeight.toNat / t.len + 1

variable {t : EpochTimingV2} {e h : UInt64}

lemma valid_iff : t.valid = true ↔
    0 < t.depth ∧ t.depth < t.len ∧ t.activationHeight.toNat % t.len = 0 := by
  simp only [valid, Bool.and_eq_true, decide_eq_true_eq, UInt64.lt_iff_toNat_lt,
    ← UInt64.toNat_inj, UInt64.toNat_mod, depth, len]
  constructor
  · rintro ⟨⟨⟨-, h1⟩, h2⟩, h3⟩
    exact ⟨h1, h2, h3⟩
  · rintro ⟨h1, h2, h3⟩
    exact ⟨⟨⟨Nat.lt_of_le_of_lt (Nat.zero_le _) h2, h1⟩, h2⟩, h3⟩

lemma epochStart_eq_some_iff (hv : t.valid = true) :
    t.epochStart e = some h ↔ e.toNat * t.len = h.toNat := by
  rw [epochStart, if_pos hv, checkedMul_eq_some_iff, len]

lemma epochEnd_eq_some_iff (hv : t.valid = true) :
    t.epochEnd e = some h ↔ (e.toNat + 1) * t.len = h.toNat + 1 := by
  have hd := (valid_iff.mp hv).2.1
  have hL := t.epochLength.toNat_lt
  have hh := h.toNat_lt
  have hpred : (t.epochLength - 1).toNat = t.len - 1 := by
    rw [UInt64.toNat_sub_of_le _ _ (UInt64.le_iff_toNat_le.mpr ?_)]
    · rfl
    · simp only [len] at hd
      simpa using by omega
  have hexp : (e.toNat + 1) * t.len = e.toNat * t.len + t.len := by ring
  simp only [epochEnd, Option.bind_eq_bind, Option.bind_eq_some_iff, epochStart_eq_some_iff hv,
    checkedAdd_eq_some_iff, hpred]
  constructor
  · rintro ⟨start, h1, h2⟩
    omega
  · intro h1
    refine ⟨UInt64.ofNat (e.toNat * t.len), ?_, ?_⟩ <;>
      rw [toNat_ofNat_of_fits (by omega)]
    omega

lemma len_gt_one (hv : t.valid = true) : 1 < t.len := by
  obtain ⟨h1, h2, -⟩ := valid_iff.mp hv
  omega

/-- The first service epoch is always representable, since an epoch has at least two blocks. -/
lemma firstServiceEpoch_eq_some_iff (hv : t.valid = true) :
    t.firstServiceEpoch = some e ↔ e.toNat = t.firstService := by
  simp only [firstServiceEpoch, activationEpoch, if_pos hv, Option.bind_eq_bind,
    Option.bind_some, checkedAdd_eq_some_iff, UInt64.toNat_div, firstService, len]
  exact eq_comm

lemma exists_firstServiceEpoch (hv : t.valid = true) :
    ∃ e, t.firstServiceEpoch = some e ∧ e.toNat = t.firstService := by
  have hlen := len_gt_one hv
  have hA := t.activationHeight.toNat_lt
  have hfits : t.firstService < 2 ^ 64 := by
    have : t.activationHeight.toNat / t.len ≤ t.activationHeight.toNat / 2 :=
      Nat.div_le_div_left hlen (by norm_num)
    rw [firstService]
    omega
  have hof : (UInt64.ofNat t.firstService).toNat = t.firstService :=
    toNat_ofNat_of_fits hfits
  exact ⟨_, (firstServiceEpoch_eq_some_iff hv).mpr hof, hof⟩

/-- The activation height is the start of the epoch before the first service epoch. -/
lemma activationHeight_add_len (hv : t.valid = true) :
    t.activationHeight.toNat + t.len = t.firstService * t.len := by
  have hmod := (valid_iff.mp hv).2.2
  have hdiv := Nat.div_add_mod t.activationHeight.toNat t.len
  rw [hmod, Nat.add_zero, Nat.mul_comm] at hdiv
  rw [firstService, Nat.succ_mul, hdiv]

lemma firstPayoutHeight_eq_some_iff (hv : t.valid = true) :
    t.firstPayoutHeight = some h ↔ (t.firstService + 1) * t.len = h.toNat := by
  obtain ⟨fs, hfs, hfs'⟩ := exists_firstServiceEpoch hv
  have hh := h.toNat_lt
  have hlen := len_gt_one hv
  simp only [firstPayoutHeight, hfs, Option.bind_eq_bind, Option.bind_some,
    Option.bind_eq_some_iff, checkedAdd_eq_some_iff, epochStart_eq_some_iff hv, hfs',
    UInt64.toNat_one]
  constructor
  · rintro ⟨p, hp, hstart⟩
    rw [hp, hstart]
  · intro hstart
    have hfits : t.firstService + 1 < 2 ^ 64 := by
      have : t.firstService + 1 ≤ (t.firstService + 1) * t.len := Nat.le_mul_of_pos_right _ (by omega)
      omega
    have hof : (UInt64.ofNat (t.firstService + 1)).toNat = t.firstService + 1 :=
      toNat_ofNat_of_fits hfits
    exact ⟨_, hof.symm, by rw [hof, hstart]⟩

lemma enrollmentCutoff_eq_some_iff (hv : t.valid = true) :
    t.enrollmentCutoff e = some h ↔
      e.toNat * t.len = h.toNat + t.depth + 1 ∧ h.toNat + t.depth + 1 < 2 ^ 64 := by
  have hcut : ∀ start : UInt64, (if start ≤ t.anchorDepth then none
      else some (start - t.anchorDepth - 1)) = some h ↔ start.toNat = h.toNat + t.depth + 1 := by
    intro start
    have hh := h.toNat_lt
    have hs := start.toNat_lt
    split
    · rename_i hle
      rw [UInt64.le_iff_toNat_le] at hle
      simp only [reduceCtorEq, false_iff, depth]
      omega
    · rename_i hlt
      rw [UInt64.le_iff_toNat_le] at hlt
      rw [Option.some.injEq, ← UInt64.toNat_inj, UInt64.toNat_sub_of_le, UInt64.toNat_sub_of_le,
        UInt64.toNat_one, depth]
      · omega
      · rw [UInt64.le_iff_toNat_le]
        omega
      · rw [UInt64.le_iff_toNat_le, UInt64.toNat_sub_of_le _ _ (UInt64.le_iff_toNat_le.mpr
          (by omega)), UInt64.toNat_one]
        omega
  simp only [enrollmentCutoff, Option.bind_eq_bind, Option.bind_eq_some_iff,
    epochStart_eq_some_iff hv, hcut]
  constructor
  · rintro ⟨start, h1, h2⟩
    have := start.toNat_lt
    omega
  · rintro ⟨h1, h2⟩
    have hof : (UInt64.ofNat (e.toNat * t.len)).toNat = e.toNat * t.len :=
      toNat_ofNat_of_fits (by omega)
    exact ⟨_, hof.symm, by omega⟩

/-- `start - anchorDepth`, the shape `committeeAnchor` and `evidenceDeadline` share. -/
private lemma sub_depth_eq_some_iff (start : UInt64) :
    (if start < t.anchorDepth then none else some (start - t.anchorDepth)) = some h ↔
      start.toNat = h.toNat + t.depth := by
  have hs := start.toNat_lt
  split
  · rename_i hlt
    rw [UInt64.lt_iff_toNat_lt] at hlt
    simp only [reduceCtorEq, false_iff, depth]
    omega
  · rename_i hle
    rw [UInt64.lt_iff_toNat_lt] at hle
    rw [Option.some.injEq, ← UInt64.toNat_inj, UInt64.toNat_sub_of_le _ _
      (UInt64.le_iff_toNat_le.mpr (by omega)), depth]
    omega

lemma committeeAnchor_eq_some_iff (hv : t.valid = true) :
    t.committeeAnchor e = some h ↔
      e.toNat * t.len = h.toNat + t.depth ∧ h.toNat + t.depth < 2 ^ 64 := by
  simp only [committeeAnchor, Option.bind_eq_bind, Option.bind_eq_some_iff,
    epochStart_eq_some_iff hv, sub_depth_eq_some_iff]
  constructor
  · rintro ⟨start, h1, h2⟩
    have := start.toNat_lt
    omega
  · rintro ⟨h1, h2⟩
    have hof : (UInt64.ofNat (e.toNat * t.len)).toNat = e.toNat * t.len :=
      toNat_ofNat_of_fits (by omega)
    exact ⟨_, hof.symm, by omega⟩

lemma exists_committeeAnchor (hv : t.valid = true) (hpos : 0 < e.toNat)
    (hfits : e.toNat * t.len < 2 ^ 64) :
    ∃ anchor, t.committeeAnchor e = some anchor ∧ anchor.toNat + t.depth = e.toNat * t.len := by
  have hdepth := (valid_iff.mp hv).2.1
  have hle : 1 * t.len ≤ e.toNat * t.len := Nat.mul_le_mul_right _ hpos
  have htoNat := toNat_ofNat_of_fits (show e.toNat * t.len - t.depth < 2 ^ 64 by omega)
  refine ⟨UInt64.ofNat (e.toNat * t.len - t.depth), (committeeAnchor_eq_some_iff hv).mpr ?_, ?_⟩ <;>
    rw [htoNat] <;> omega

lemma evidenceDeadline_eq_some_iff (hv : t.valid = true) :
    t.evidenceDeadline e = some h ↔
      (e.toNat + 1) * t.len = h.toNat + t.depth + 1 ∧ h.toNat + t.depth < 2 ^ 64 := by
  simp only [evidenceDeadline, Option.bind_eq_bind, Option.bind_eq_some_iff,
    epochEnd_eq_some_iff hv, sub_depth_eq_some_iff]
  constructor
  · rintro ⟨finish, h1, h2⟩
    have := finish.toNat_lt
    omega
  · rintro ⟨h1, h2⟩
    have hof : (UInt64.ofNat (h.toNat + t.depth)).toNat = h.toNat + t.depth :=
      toNat_ofNat_of_fits (by omega)
    exact ⟨_, by omega, hof⟩

end EpochTimingV2

end Qwertycoin
