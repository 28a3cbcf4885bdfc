import Qwertycoin.Evidence

/-
# Receipt windows

A receipt of a round may be included from the block after its anchor to the block before the next
anchor, and in the last round to the evidence deadline.  The heights are computed with checks
against overflow, and a window that would be empty does not exist.  The constructor of the pipeline
compares the last offset with the length of an epoch and wants the offsets to increase; that keeps
the windows apart, but it does not keep them from being empty.
-/

namespace Qwertycoin

lemma ordered_eq_some_iff {α : Type*} [LE α] {a b x y : α} [Decidable (a ≤ b)] :
    (if a ≤ b then some (a, b) else none) = some (x, y) ↔ a = x ∧ b = y ∧ x ≤ y := by
  constructor
  · intro h
    split_ifs at h with hle
    obtain ⟨rfl, rfl⟩ := Prod.mk.inj (Option.some.inj h)
    exact ⟨rfl, rfl, hle⟩
  · rintro ⟨rfl, rfl, hle⟩
    exact if_pos hle

/-! ## Round offsets -/

lemma pairwise_lt_of_zip_tail {offsets : List UInt64}
    (h : ((offsets.zip offsets.tail).all fun (left, right) => left < right) = true) :
    offsets.Pairwise (· < ·) := by
  rw [← List.isChain_iff_pairwise]
  induction offsets with
  | nil => exact .nil
  | cons left offsets ih =>
    cases offsets with
    | nil => exact .singleton left
    | cons right offsets =>
      rw [List.tail_cons, List.zip_cons_cons, List.all_cons, Bool.and_eq_true,
        decide_eq_true_eq] at h
      exact .cons_cons h.1 (ih h.2)

namespace SemanticParametersV2

variable {p : SemanticParametersV2} {epoch round first last : UInt64}

/-- What the constructor of the pipeline has checked about the offsets of the rounds. -/
structure RoundsFit (p : SemanticParametersV2) : Prop where
  timing : p.timing.valid = true
  policy : p.committeePolicy.valid = true
  length : p.committeePolicy.roundOffsets.length = p.committeePolicy.roundCount.toNat
  head : p.committeePolicy.roundOffsets[0]? = some 0
  increasing : p.committeePolicy.roundOffsets.Pairwise (· < ·)
  inside : ∀ offset ∈ p.committeePolicy.roundOffsets, offset.toNat + p.timing.depth < p.timing.len

lemma roundsFit (hp : p.membershipValid = true) : p.RoundsFit := by
  simp only [membershipValid, Bool.and_eq_true] at hp
  obtain ⟨⟨⟨⟨⟨htiming, -⟩, hpolicy⟩, hlast⟩, -⟩, -⟩ := hp
  have hchecks := hpolicy
  simp only [CommitteePolicyV2.valid, Bool.and_eq_true, decide_eq_true_eq] at hchecks
  obtain ⟨⟨⟨-, hlength⟩, hhead⟩, hzip⟩ := hchecks
  have hpairwise := pairwise_lt_of_zip_tail hzip
  refine ⟨htiming, hpolicy, hlength, ?_, hpairwise, ?_⟩
  · rw [← List.head?_eq_getElem?]
    exact hhead
  · intro offset hmem
    obtain ⟨_, hdepth, -⟩ := EpochTimingV2.valid_iff.mp htiming
    cases hoffsets : p.committeePolicy.roundOffsets.getLast? with
    | none => rw [hoffsets] at hlast; cases hlast
    | some finish =>
      rw [hoffsets, Option.any_some, decide_eq_true_eq, UInt64.lt_iff_toNat_lt,
        UInt64.toNat_sub_of_le _ _ (UInt64.le_iff_toNat_le.mpr (le_of_lt hdepth))] at hlast
      have hle : offset.toNat ≤ finish.toNat := by
        obtain ⟨before, hbefore⟩ := List.getLast?_eq_some_iff.mp hoffsets
        rw [hbefore, List.pairwise_append] at hpairwise
        rw [hbefore, List.mem_append, List.mem_singleton] at hmem
        rcases hmem with hmem | rfl
        · exact (UInt64.lt_iff_toNat_lt.mp
            (hpairwise.2.2 offset hmem finish List.mem_cons_self)).le
        · exact le_rfl
      simp only [EpochTimingV2.len, EpochTimingV2.depth] at *
      omega

namespace RoundsFit

lemma getElem?_lt (h : p.RoundsFit) {i j : ℕ} {left right : UInt64}
    (hi : p.committeePolicy.roundOffsets[i]? = some left)
    (hj : p.committeePolicy.roundOffsets[j]? = some right) (hij : i < j) :
    left.toNat < right.toNat := by
  obtain ⟨hilt, rfl⟩ := List.getElem?_eq_some_iff.mp hi
  obtain ⟨hjlt, rfl⟩ := List.getElem?_eq_some_iff.mp hj
  exact UInt64.lt_iff_toNat_lt.mp (List.pairwise_iff_getElem.mp h.increasing i j hilt hjlt hij)

lemma getElem?_inside (h : p.RoundsFit) {i : ℕ} {offset : UInt64}
    (hi : p.committeePolicy.roundOffsets[i]? = some offset) :
    offset.toNat + p.timing.depth < p.timing.len :=
  h.inside offset (List.mem_of_getElem? hi)

end RoundsFit

/-! ## The heights of a window -/

/-- The first height of the window of a round with an offset. -/
def windowStart (p : SemanticParametersV2) (epoch round offset : ℕ) : ℕ :=
  epoch * p.timing.len + offset + if round = 0 then 0 else 1

/-- The last height of the window of a round, from the offset of the next round if there is
one. -/
def windowEnd (p : SemanticParametersV2) (epoch : ℕ) : Option UInt64 → ℕ
  | some next => epoch * p.timing.len + next.toNat - 1
  | none => (epoch + 1) * p.timing.len - 1 - p.timing.depth

lemma receiptInclusionWindowV2_of_heights (hp : p.RoundsFit) {offset start deadline : UInt64}
    (hround : ¬p.committeePolicy.roundCount ≤ round)
    (hoffset : p.committeePolicy.roundOffsets[round.toNat]? = some offset)
    (hstart : p.timing.epochStart epoch = some start)
    (hdeadline : p.timing.evidenceDeadline epoch = some deadline)
    {anchor lower upper : UInt64} (hanchor : checkedAdd start offset = some anchor)
    (hlower : if round = 0 then lower = anchor else checkedAdd anchor 1 = some lower)
    (hupper : if round + 1 < p.committeePolicy.roundCount then
      ∃ next nextAnchor, p.committeePolicy.roundOffsets[(round + 1).toNat]? = some next ∧
        checkedAdd start next = some nextAnchor ∧ nextAnchor ≠ 0 ∧ upper = nextAnchor - 1
      else upper = deadline) :
    receiptInclusionWindowV2 p.timing p.committeePolicy epoch round =
      if lower ≤ upper then some (lower, upper) else none := by
  delta receiptInclusionWindowV2
  simp only [hp.timing, hp.policy, Bool.not_true, Bool.false_or]
  rw [if_neg (by simpa using hround), hoffset, Option.bind_eq_bind, Option.bind_some, hstart,
    Option.bind_some, hdeadline, Option.bind_some, hanchor, Option.bind_some]
  -- the rest of the function, from the first height on
  have hrest :
      (if round + 1 < p.committeePolicy.roundCount then
        (p.committeePolicy.roundOffsets[(round + 1).toNat]?).bind fun nextOffset =>
          (checkedAdd start nextOffset).bind fun nextRoundAnchor =>
            if nextRoundAnchor = 0 then
              (none : Option UInt64).bind fun lastHeight =>
                if lower ≤ lastHeight then some (lower, lastHeight) else none
            else
              (some (nextRoundAnchor - 1)).bind fun lastHeight =>
                if lower ≤ lastHeight then some (lower, lastHeight) else none
      else
        (some deadline).bind fun lastHeight =>
          if lower ≤ lastHeight then some (lower, lastHeight) else none) =
        if lower ≤ upper then some (lower, upper) else none := by
    by_cases hnext : round + 1 < p.committeePolicy.roundCount
    · rw [if_pos hnext] at hupper ⊢
      obtain ⟨next, nextAnchor, hoffset', hsum, hne, rfl⟩ := hupper
      rw [hoffset', Option.bind_some, hsum, Option.bind_some, if_neg hne, Option.bind_some]
    · rw [if_neg hnext] at hupper ⊢
      rw [Option.bind_some, hupper]
  by_cases hzero : round = 0
  · rw [if_pos hzero] at hlower ⊢
    rw [Option.bind_some, ← hlower]
    exact hrest
  · rw [if_neg hzero] at hlower ⊢
    rw [hlower, Option.bind_some]
    exact hrest

lemma receiptInclusionWindowV2_of_le (hp : p.RoundsFit)
    (hround : p.committeePolicy.roundCount ≤ round) :
    receiptInclusionWindowV2 p.timing p.committeePolicy epoch round = none := by
  delta receiptInclusionWindowV2
  simp only [hp.timing, hp.policy, Bool.not_true, Bool.false_or]
  rw [if_pos (by simpa using hround)]
  rfl

lemma receiptInclusionWindowV2_of_overflow (hp : p.RoundsFit)
    (hround : ¬p.committeePolicy.roundCount ≤ round) {offset : UInt64}
    (hoffset : p.committeePolicy.roundOffsets[round.toNat]? = some offset)
    (hdeadline : p.timing.evidenceDeadline epoch = none) :
    receiptInclusionWindowV2 p.timing p.committeePolicy epoch round = none := by
  delta receiptInclusionWindowV2
  simp only [hp.timing, hp.policy, Bool.not_true, Bool.false_or]
  rw [if_neg (by simpa using hround), hoffset, Option.bind_eq_bind, Option.bind_some]
  cases p.timing.epochStart epoch with
  | none => rw [Option.bind_none]
  | some start => rw [Option.bind_some, hdeadline, Option.bind_none]

lemma exists_evidenceDeadline_iff (hv : p.timing.valid = true) :
    (∃ deadline, p.timing.evidenceDeadline epoch = some deadline) ↔
      (epoch.toNat + 1) * p.timing.len ≤ 2 ^ 64 := by
  obtain ⟨-, hdepth, -⟩ := EpochTimingV2.valid_iff.mp hv
  have hmul : (epoch.toNat + 1) * p.timing.len = epoch.toNat * p.timing.len + p.timing.len :=
    Nat.add_one_mul _ _
  simp only [EpochTimingV2.evidenceDeadline_eq_some_iff hv]
  constructor
  · rintro ⟨deadline, hend, hfits⟩
    omega
  · intro hfits
    refine ⟨UInt64.ofNat ((epoch.toNat + 1) * p.timing.len - 1 - p.timing.depth), ?_⟩
    rw [toNat_ofNat_of_fits (by omega)]
    omega

lemma windowStart_lt (hp : p.RoundsFit) {offset : UInt64}
    (hoffset : p.committeePolicy.roundOffsets[round.toNat]? = some offset)
    (hfits : (epoch.toNat + 1) * p.timing.len ≤ 2 ^ 64) :
    p.windowStart epoch.toNat round.toNat offset.toNat < 2 ^ 64 := by
  have hinside := hp.getElem?_inside hoffset
  obtain ⟨hpos, -, -⟩ := EpochTimingV2.valid_iff.mp hp.timing
  have hmul := Nat.add_one_mul epoch.toNat p.timing.len
  unfold windowStart
  split_ifs <;> omega

lemma receiptInclusionWindowV2_eq (hp : p.RoundsFit) {offset : UInt64}
    (hoffset : p.committeePolicy.roundOffsets[round.toNat]? = some offset)
    (hfits : (epoch.toNat + 1) * p.timing.len ≤ 2 ^ 64) :
    ∃ lower upper : UInt64,
      lower.toNat = p.windowStart epoch.toNat round.toNat offset.toNat ∧
      upper.toNat = p.windowEnd epoch.toNat p.committeePolicy.roundOffsets[round.toNat + 1]? ∧
      receiptInclusionWindowV2 p.timing p.committeePolicy epoch round =
        if lower ≤ upper then some (lower, upper) else none := by
  have hlt : round.toNat < p.committeePolicy.roundCount.toNat := by
    rw [← hp.length]
    exact (List.getElem?_eq_some_iff.mp hoffset).1
  have hround : ¬p.committeePolicy.roundCount ≤ round := by
    rwa [UInt64.le_iff_toNat_le, Nat.not_le]
  have hsucc : (round + 1).toNat = round.toNat + 1 := by
    have hcount := p.committeePolicy.roundCount.toNat_lt
    rw [UInt64.toNat_add, UInt64.toNat_one]
    omega
  obtain ⟨-, hdepth, -⟩ := EpochTimingV2.valid_iff.mp hp.timing
  have hmul := Nat.add_one_mul epoch.toNat p.timing.len
  have hinside := hp.getElem?_inside hoffset
  obtain ⟨deadline, hdeadline⟩ := (exists_evidenceDeadline_iff hp.timing).mpr hfits
  obtain ⟨hend, -⟩ := (EpochTimingV2.evidenceDeadline_eq_some_iff hp.timing).mp hdeadline
  have hstart : (UInt64.ofNat (epoch.toNat * p.timing.len)).toNat = epoch.toNat * p.timing.len :=
    toNat_ofNat_of_fits (by omega)
  have hanchor : (UInt64.ofNat (epoch.toNat * p.timing.len + offset.toNat)).toNat =
      epoch.toNat * p.timing.len + offset.toNat := toNat_ofNat_of_fits (by omega)
  have hsum : checkedAdd (UInt64.ofNat (epoch.toNat * p.timing.len)) offset =
      some (UInt64.ofNat (epoch.toNat * p.timing.len + offset.toNat)) :=
    checkedAdd_eq_some_iff.mpr (by rw [hstart, hanchor])
  have hlower := toNat_ofNat_of_fits (windowStart_lt hp hoffset hfits)
  have hupper : (UInt64.ofNat (p.windowEnd epoch.toNat
      p.committeePolicy.roundOffsets[round.toNat + 1]?)).toNat =
      p.windowEnd epoch.toNat p.committeePolicy.roundOffsets[round.toNat + 1]? := by
    refine toNat_ofNat_of_fits ?_
    cases hnext : p.committeePolicy.roundOffsets[round.toNat + 1]? with
    | none => rw [windowEnd]; omega
    | some next =>
      have hinside' := hp.getElem?_inside hnext
      rw [windowEnd]
      omega
  refine ⟨_, _, hlower, hupper, receiptInclusionWindowV2_of_heights hp hround hoffset
    ((EpochTimingV2.epochStart_eq_some_iff hp.timing).mpr hstart.symm) hdeadline hsum ?_ ?_⟩
  · by_cases hzero : round = 0
    · rw [if_pos hzero, windowStart, hzero, UInt64.toNat_zero, if_pos rfl, Nat.add_zero]
    · have hne : round.toNat ≠ 0 := fun h => hzero (UInt64.toNat_inj.mp h)
      rw [if_neg hzero, checkedAdd_eq_some_iff, hlower, hanchor, windowStart, if_neg hne,
        UInt64.toNat_one]
  · by_cases hnext : round + 1 < p.committeePolicy.roundCount
    · have hmem : round.toNat + 1 < p.committeePolicy.roundOffsets.length := by
        rw [hp.length, ← hsucc]
        exact UInt64.lt_iff_toNat_lt.mp hnext
      have hoffsets := List.getElem?_eq_getElem hmem
      have hincreasing := hp.getElem?_lt hoffset hoffsets (Nat.lt_succ_self _)
      have hinside' := hp.getElem?_inside hoffsets
      generalize p.committeePolicy.roundOffsets[round.toNat + 1] = next at *
      have hnextAnchor : (UInt64.ofNat (epoch.toNat * p.timing.len + next.toNat)).toNat =
          epoch.toNat * p.timing.len + next.toNat := toNat_ofNat_of_fits (by omega)
      rw [if_pos hnext]
      refine ⟨next, UInt64.ofNat (epoch.toNat * p.timing.len + next.toNat), by rw [hsucc, hoffsets],
        checkedAdd_eq_some_iff.mpr (by rw [hstart, hnextAnchor]), ?_, ?_⟩
      · rw [ne_eq, ← UInt64.toNat_inj, hnextAnchor, UInt64.toNat_zero]
        omega
      · rw [← UInt64.toNat_inj, hupper, hoffsets, windowEnd, UInt64.toNat_sub_of_le, hnextAnchor,
          UInt64.toNat_one]
        rw [UInt64.le_iff_toNat_le, hnextAnchor, UInt64.toNat_one]
        omega
    · have hlast : p.committeePolicy.roundOffsets[round.toNat + 1]? = none := by
        rw [List.getElem?_eq_none_iff, hp.length, ← hsucc]
        exact UInt64.le_iff_toNat_le.mp (UInt64.not_lt.mp hnext)
      rw [if_neg hnext, ← UInt64.toNat_inj, hupper, hlast, windowEnd]
      omega

/-- A window without the checks against overflow, which are passed when the epoch ends in
range. -/
lemma receiptInclusionWindowV2_eq_some_iff (hp : p.RoundsFit) :
    receiptInclusionWindowV2 p.timing p.committeePolicy epoch round = some (first, last) ↔
      ∃ offset, p.committeePolicy.roundOffsets[round.toNat]? = some offset ∧
        (epoch.toNat + 1) * p.timing.len ≤ 2 ^ 64 ∧
        first.toNat = p.windowStart epoch.toNat round.toNat offset.toNat ∧
        last.toNat = p.windowEnd epoch.toNat
          p.committeePolicy.roundOffsets[round.toNat + 1]? ∧
        first.toNat ≤ last.toNat := by
  by_cases hround : p.committeePolicy.roundCount ≤ round
  · have hnone : p.committeePolicy.roundOffsets[round.toNat]? = none := by
      rw [List.getElem?_eq_none_iff, hp.length]
      exact UInt64.le_iff_toNat_le.mp hround
    rw [receiptInclusionWindowV2_of_le hp hround]
    simp [hnone]
  have hlt := UInt64.lt_iff_toNat_lt.mp (UInt64.not_le.mp hround)
  obtain ⟨offset, hoffset⟩ :
      ∃ offset, p.committeePolicy.roundOffsets[round.toNat]? = some offset :=
    ⟨_, List.getElem?_eq_getElem (by rwa [hp.length])⟩
  by_cases hfits : (epoch.toNat + 1) * p.timing.len ≤ 2 ^ 64
  · obtain ⟨lower, upper, hlower, hupper, heq⟩ := receiptInclusionWindowV2_eq hp hoffset hfits
    rw [heq, ordered_eq_some_iff]
    constructor
    · rintro ⟨rfl, rfl, hle⟩
      exact ⟨offset, hoffset, hfits, hlower, hupper, UInt64.le_iff_toNat_le.mp hle⟩
    · rintro ⟨offset', hoffset', -, hfirst, hlast, hle⟩
      obtain rfl := Option.some.inj (hoffset.symm.trans hoffset')
      exact ⟨UInt64.toNat_inj.mp (hlower.trans hfirst.symm),
        UInt64.toNat_inj.mp (hupper.trans hlast.symm), UInt64.le_iff_toNat_le.mpr hle⟩
  · have hnone : p.timing.evidenceDeadline epoch = none := by
      rw [Option.eq_none_iff_forall_ne_some]
      exact fun deadline h => hfits ((exists_evidenceDeadline_iff hp.timing).mp ⟨deadline, h⟩)
    rw [receiptInclusionWindowV2_of_overflow hp hround hoffset hnone]
    constructor
    · intro h
      cases h
    · rintro ⟨offset', -, hfits', -⟩
      exact absurd hfits' hfits

/-! ## Windows are apart -/

/-- A window lies in its epoch and ends by the evidence deadline. -/
lemma window_inside (hp : p.RoundsFit)
    (h : receiptInclusionWindowV2 p.timing p.committeePolicy epoch round = some (first, last)) :
    epoch.toNat * p.timing.len ≤ first.toNat ∧
      last.toNat + p.timing.depth + 1 ≤ (epoch.toNat + 1) * p.timing.len ∧
      (epoch.toNat + 1) * p.timing.len ≤ 2 ^ 64 := by
  obtain ⟨offset, hoffset, hfits, hfirst, hlast, hle⟩ :=
    (receiptInclusionWindowV2_eq_some_iff hp).mp h
  obtain ⟨-, hdepth, -⟩ := EpochTimingV2.valid_iff.mp hp.timing
  have hmul := Nat.add_one_mul epoch.toNat p.timing.len
  rw [windowStart] at hfirst
  refine ⟨by omega, ?_, hfits⟩
  cases hnext : p.committeePolicy.roundOffsets[round.toNat + 1]? with
  | none =>
    rw [hnext, windowEnd] at hlast
    omega
  | some next =>
    have hinside := hp.getElem?_inside hnext
    have hincreasing := hp.getElem?_lt hoffset hnext (Nat.lt_succ_self _)
    rw [hnext, windowEnd] at hlast
    omega

/-- The window of a round ends before that of a later round of the same epoch starts. -/
lemma window_lt_window (hp : p.RoundsFit) {round' first' last' : UInt64}
    (h : receiptInclusionWindowV2 p.timing p.committeePolicy epoch round = some (first, last))
    (h' : receiptInclusionWindowV2 p.timing p.committeePolicy epoch round' =
      some (first', last')) (hlt : round.toNat < round'.toNat) : last.toNat < first'.toNat := by
  obtain ⟨offset, hoffset, -, -, hlast, -⟩ := (receiptInclusionWindowV2_eq_some_iff hp).mp h
  obtain ⟨offset', hoffset', -, hfirst', -, -⟩ := (receiptInclusionWindowV2_eq_some_iff hp).mp h'
  have hmem : round.toNat + 1 < p.committeePolicy.roundOffsets.length :=
    lt_of_le_of_lt hlt (List.getElem?_eq_some_iff.mp hoffset').1
  have hnext := List.getElem?_eq_getElem hmem
  rw [hnext, windowEnd] at hlast
  rw [windowStart, if_neg (by omega)] at hfirst'
  have hle : p.committeePolicy.roundOffsets[round.toNat + 1].toNat ≤ offset'.toNat := by
    rcases Nat.eq_or_lt_of_le (Nat.succ_le_of_lt hlt) with heq | hlt'
    · rw [← heq] at hoffset'
      rw [Option.some.inj (hnext.symm.trans hoffset')]
    · exact (hp.getElem?_lt hnext hoffset' hlt').le
  omega

lemma window_unique (hp : p.RoundsFit) {epoch' round' first' last' height : UInt64}
    (h : receiptInclusionWindowV2 p.timing p.committeePolicy epoch round = some (first, last))
    (h' : receiptInclusionWindowV2 p.timing p.committeePolicy epoch' round' =
      some (first', last'))
    (hin : first ≤ height ∧ height ≤ last) (hin' : first' ≤ height ∧ height ≤ last') :
    epoch = epoch' ∧ round = round' := by
  simp only [UInt64.le_iff_toNat_le] at hin hin'
  obtain ⟨hlo, hhi, -⟩ := window_inside hp h
  obtain ⟨hlo', hhi', -⟩ := window_inside hp h'
  -- both epochs are the quotient of the height
  have hepoch : epoch = epoch' := by
    refine UInt64.toNat_inj.mp ?_
    calc epoch.toNat = height.toNat / p.timing.len :=
          (Nat.div_eq_of_lt_le (by omega) (by omega)).symm
      _ = epoch'.toNat := Nat.div_eq_of_lt_le (by omega) (by omega)
  subst hepoch
  refine ⟨rfl, UInt64.toNat_inj.mp ?_⟩
  rcases Nat.lt_trichotomy round.toNat round'.toNat with hlt | heq | hgt
  · have hbefore := window_lt_window hp h h' hlt
    omega
  · exact heq
  · have hbefore := window_lt_window hp h' h hgt
    omega

lemma anchor_lt_window (hp : p.RoundsFit)
    (h : receiptInclusionWindowV2 p.timing p.committeePolicy epoch round = some (first, last)) :
    (round = 0 → epoch ≠ 0 → ∃ anchor, p.timing.committeeAnchor epoch = some anchor ∧
      anchor < first) ∧
    (round ≠ 0 → ∃ start offset anchor, p.timing.epochStart epoch = some start ∧
      p.committeePolicy.roundOffsets[round.toNat]? = some offset ∧
      checkedAdd start offset = some anchor ∧ anchor < first) := by
  obtain ⟨offset, hoffset, hfits, hfirst, -, -⟩ := (receiptInclusionWindowV2_eq_some_iff hp).mp h
  obtain ⟨hpos, hdepth, -⟩ := EpochTimingV2.valid_iff.mp hp.timing
  have hmul := Nat.add_one_mul epoch.toNat p.timing.len
  have hinside := hp.getElem?_inside hoffset
  have hlt := first.toNat_lt
  constructor
  · rintro - hepoch
    have hone : 1 ≤ epoch.toNat := Nat.one_le_iff_ne_zero.mpr fun h =>
      hepoch (UInt64.toNat_inj.mp h)
    have hlen : p.timing.len ≤ epoch.toNat * p.timing.len := Nat.le_mul_of_pos_left _ hone
    have hanchor := toNat_ofNat_of_fits
      (show epoch.toNat * p.timing.len - p.timing.depth < 2 ^ 64 by omega)
    rw [windowStart] at hfirst
    refine ⟨_, (EpochTimingV2.committeeAnchor_eq_some_iff hp.timing).mpr ?_,
      UInt64.lt_iff_toNat_lt.mpr (lt_of_eq_of_lt hanchor (by omega))⟩
    rw [hanchor]
    omega
  · intro hround
    have hne : round.toNat ≠ 0 := fun h => hround (UInt64.toNat_inj.mp h)
    have hstart := toNat_ofNat_of_fits (show epoch.toNat * p.timing.len < 2 ^ 64 by omega)
    have hanchor := toNat_ofNat_of_fits
      (show epoch.toNat * p.timing.len + offset.toNat < 2 ^ 64 by omega)
    rw [windowStart, if_neg hne] at hfirst
    exact ⟨_, offset, _, (EpochTimingV2.epochStart_eq_some_iff hp.timing).mpr hstart.symm, hoffset,
      checkedAdd_eq_some_iff.mpr ((congrArg (· + offset.toNat) hstart).trans hanchor.symm),
      UInt64.lt_iff_toNat_lt.mpr (lt_of_eq_of_lt hanchor (by omega))⟩

lemma frozen_lt_window (hp : p.membershipValid = true)
    (h : receiptInclusionWindowV2 p.timing p.committeePolicy epoch round = some (first, last))
    {cr : Crypto} {m : MembershipPipelineV2} {undo : MembershipPipelineV2.UndoJournal} {height : UInt64}
    {anchorHash : Hash} {authorizedMembers : List FrozenMemberV2}
    (hstatus : (m.freezeMembership cr p undo epoch height anchorHash authorizedMembers).status =
      .accepted) : height < first := by
  have hfit := roundsFit hp
  obtain ⟨hpos, -, -⟩ := EpochTimingV2.valid_iff.mp hfit.timing
  obtain ⟨hinside, -⟩ := window_inside hfit h
  obtain ⟨status, hne, -, heq⟩ | ⟨frozen, hfreezes, -⟩ :=
    MembershipPipelineV2.freezeMembership_cases cr hp m undo epoch height anchorHash
      authorizedMembers
  · rw [heq] at hstatus
    exact absurd hstatus hne
  · obtain ⟨hanchor, -⟩ :=
      (EpochTimingV2.committeeAnchor_eq_some_iff hfit.timing).mp hfreezes.anchor
    rw [UInt64.lt_iff_toNat_lt]
    omega

/-- A pipeline has the snapshots of the epochs whose windows have opened. -/
lemma snapshot_of_window (hp : p.RoundsFit)
    (h : receiptInclusionWindowV2 p.timing p.committeePolicy epoch round = some (first, last))
    {m : MembershipPipelineV2} {height : ℕ}
    (hfrozen : BlockTransitionV2.FrozenBelow p.timing height m)
    (hserved : p.timing.firstService ≤ epoch.toNat) (hopen : first.toNat ≤ height) :
    epoch ∈ m.snapshots := by
  obtain ⟨hpos, hdepth, -⟩ := EpochTimingV2.valid_iff.mp hp.timing
  obtain ⟨hinside, -, hfits⟩ := window_inside hp h
  have hmul := Nat.add_one_mul epoch.toNat p.timing.len
  exact (hfrozen epoch).mpr ⟨hserved, by omega, by omega⟩

end SemanticParametersV2

open SemanticParametersV2 MembershipPipelineV2 in
/-- **Receipt windows are apart.**  With parameters the pipeline accepts, a window lies in its epoch
and ends by the evidence deadline.  It starts above the block that anchors its round and above the
block that froze the snapshot, so that the snapshot exists when the window opens.  No height is in
two windows, so the receipts that are accepted at a height are all of one epoch and round. -/
theorem receipt_windows_are_apart {p : SemanticParametersV2} (hp : p.membershipValid = true) :
    (∀ epoch round first last,
      receiptInclusionWindowV2 p.timing p.committeePolicy epoch round = some (first, last) →
      (round = 0 → epoch ≠ 0 → ∃ anchor, p.timing.committeeAnchor epoch = some anchor ∧
        anchor < first) ∧
      (round ≠ 0 → ∃ start offset anchor, p.timing.epochStart epoch = some start ∧
        p.committeePolicy.roundOffsets[round.toNat]? = some offset ∧
        checkedAdd start offset = some anchor ∧ anchor < first) ∧
      (∀ cr m undo height anchorHash members,
        (freezeMembership cr p m undo epoch height anchorHash members).status = .accepted →
          height < first) ∧
      (∀ cr limits rule chain t, TransitionParametersV2.valid ⟨p, limits⟩ = true →
        BlockTransitionV2.Runs cr ⟨p, limits⟩ rule chain t →
        p.timing.firstService ≤ epoch.toNat →
        first.toNat ≤ BlockTransitionV2.nextHeight ⟨p, limits⟩ t.toTransitionCoreV2 →
          epoch ∈ t.state.membership.snapshots) ∧
      (∃ deadline, p.timing.evidenceDeadline epoch = some deadline ∧ last ≤ deadline) ∧
      (∃ start finish, p.timing.epochStart epoch = some start ∧
        p.timing.epochEnd epoch = some finish ∧ start ≤ first ∧ last ≤ finish)) ∧
    (∀ epoch round first last epoch' round' first' last',
      receiptInclusionWindowV2 p.timing p.committeePolicy epoch round = some (first, last) →
      receiptInclusionWindowV2 p.timing p.committeePolicy epoch' round' = some (first', last') →
      ∀ height, first ≤ height ∧ height ≤ last → first' ≤ height ∧ height ≤ last' →
        epoch = epoch' ∧ round = round') ∧
    (∀ cr m undo receipt anchor m' undo' receipt' anchor' height,
      (applyAuthenticatedReceipt cr p m undo receipt height anchor).status = .accepted →
      (applyAuthenticatedReceipt cr p m' undo' receipt' height anchor').status = .accepted →
        receipt.challenge.epoch = receipt'.challenge.epoch ∧
          receipt.challenge.round = receipt'.challenge.round) := by
  have hfit := roundsFit hp
  refine ⟨?_, ?_, ?_⟩
  · intro epoch round first last h
    obtain ⟨hinside, hend, hfits⟩ := window_inside hfit h
    obtain ⟨hfirst, hlater⟩ := anchor_lt_window hfit h
    have hmul := Nat.add_one_mul epoch.toNat p.timing.len
    obtain ⟨-, hdepth, -⟩ := EpochTimingV2.valid_iff.mp hfit.timing
    refine ⟨hfirst, hlater, ?_, ?_, ?_, ?_⟩
    · intro cr m undo height anchorHash members hstatus
      exact frozen_lt_window hp h hstatus
    · intro cr limits rule chain t hvalid hruns hserved hopen
      exact snapshot_of_window hfit h (hruns.epochInvariant hvalid).frozen hserved hopen
    · obtain ⟨deadline, hdeadline⟩ := (exists_evidenceDeadline_iff hfit.timing).mpr hfits
      obtain ⟨heq, -⟩ := (EpochTimingV2.evidenceDeadline_eq_some_iff hfit.timing).mp hdeadline
      exact ⟨deadline, hdeadline, UInt64.le_iff_toNat_le.mpr (by omega)⟩
    · have hstart := toNat_ofNat_of_fits (show epoch.toNat * p.timing.len < 2 ^ 64 by omega)
      have hfinish := toNat_ofNat_of_fits
        (show (epoch.toNat + 1) * p.timing.len - 1 < 2 ^ 64 by omega)
      refine ⟨_, _, (EpochTimingV2.epochStart_eq_some_iff hfit.timing).mpr hstart.symm,
        (EpochTimingV2.epochEnd_eq_some_iff hfit.timing).mpr ?_,
        UInt64.le_iff_toNat_le.mpr (hstart.trans_le hinside),
        UInt64.le_iff_toNat_le.mpr (le_of_le_of_eq ?_ hfinish.symm)⟩
      · rw [hfinish]
        omega
      · omega
  · intro epoch round first last epoch' round' first' last' h h' height hin hin'
    exact window_unique hfit h h' hin hin'
  · intro cr m undo receipt anchor m' undo' receipt' anchor' height hstatus hstatus'
    have hwindow : ∀ {m : MembershipPipelineV2} {undo : MembershipPipelineV2.UndoJournal}
        {receipt : AuthenticatedServiceReceiptV2} {anchor : Hash},
        (applyAuthenticatedReceipt cr p m undo receipt height anchor).status = .accepted →
        ∃ first last, receiptInclusionWindowV2 p.timing p.committeePolicy receipt.challenge.epoch
          receipt.challenge.round = some (first, last) ∧ first ≤ height ∧ height ≤ last := by
      intro m undo receipt anchor hstatus
      obtain ⟨status, signatures, hne, heq⟩ | ⟨signatures, haccepts, -⟩ :=
        applyAuthenticatedReceipt_cases cr p m undo receipt height anchor
      · rw [heq] at hstatus
        exact absurd hstatus hne
      · exact (receiptFits_of_precheck haccepts.precheck).in_window
    obtain ⟨first, last, h, hin⟩ := hwindow hstatus
    obtain ⟨first', last', h', hin'⟩ := hwindow hstatus'
    exact window_unique hfit h h' hin hin'

/-- Epochs of ten blocks with rounds at some offsets. -/
def SemanticParametersV2.sampleRounds (offsets : List UInt64) : SemanticParametersV2 :=
  { TransitionParametersV2.sample.toSemanticParametersV2 with
    timing := ⟨0, 10, 2⟩
    committeePolicy :=
      { TransitionParametersV2.sample.committeePolicy with
        roundCount := UInt64.ofNat offsets.length
        roundsRequired := UInt64.ofNat offsets.length
        roundOffsets := offsets } }

open SemanticParametersV2 in
/-- The second round of epoch 1 has the heights 14 and 15, above its anchor at 13. -/
theorem receipt_windows_are_apart_sample :
    receiptInclusionWindowV2 (sampleRounds [0, 3, 6]).timing (sampleRounds [0, 3, 6]).committeePolicy
      1 1 = some (14, 15) ∧
    ∃ start offset anchor, (sampleRounds [0, 3, 6]).timing.epochStart 1 = some start ∧
      (sampleRounds [0, 3, 6]).committeePolicy.roundOffsets[1]? = some offset ∧
      checkedAdd start offset = some anchor ∧ anchor < 14 := by
  have hwindow : receiptInclusionWindowV2 (sampleRounds [0, 3, 6]).timing
      (sampleRounds [0, 3, 6]).committeePolicy 1 1 = some (14, 15) := by decide +kernel
  exact ⟨hwindow, ((receipt_windows_are_apart (by decide +kernel)).1 1 1 14 15 hwindow).2.1
    (by decide)⟩

end Qwertycoin
