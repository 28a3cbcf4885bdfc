import Qwertycoin.Payout

/-
# The shares of a block's reward

How much of a subsidy goes to the service, and whose turn it is to receive it.  The division of a
subsidy is exact in 64 bits: nothing wraps, nothing is lost between the shares, and the only
amounts that are refused are those whose total does not fit.  The rotation over the qualified
nodes is fair: they take turns, in an order that depends on the set of nodes alone.
-/

namespace Qwertycoin

/-! ## Dividing a subsidy -/

section Allocation

/-- The sums at the end of `calculate_reward_allocation_v2`, both checked. -/
def withTotals (next : RewardAllocationV2) : Option RewardAllocationV2 := do
  let issuedSubsidy ← checkedAdd next.minerSubsidy next.serviceReward
  let coinbaseTotal ← checkedAdd issuedSubsidy next.transactionFees
  return { next with issuedSubsidy, coinbaseTotal }

/-- The end of `calculate_reward_allocation_v2`: the out-parameter is written when both sums fit. -/
def settleAllocation (allocation next : RewardAllocationV2) :
    RewardAllocationV2 × Except RewardStatusV2 Unit :=
  (withTotals next).elim (allocation, .error .arithmeticOverflow) fun next => (next, .ok ())

/-- `calculate_reward_allocation_v2` with its out-parameter: what the caller finds in it after the
call, and the status. -/
def calculateRewardAllocationV2Into (_allocation : RewardAllocationV2)
    (scheduledSubsidy transactionFees : UInt64) (hasQualifiedPayee : Bool)
    (emptyPolicy : EmptyQualificationPolicyV2) (serviceRewardBps : UInt64) :
    RewardAllocationV2 × Except RewardStatusV2 Unit :=
  let allocation : RewardAllocationV2 := {}
  if 10000 < serviceRewardBps then (allocation, .error .invalidBasisPoints)
  else
    let serviceAllocation := basisPoints scheduledSubsidy serviceRewardBps
    let next : RewardAllocationV2 :=
      { scheduledSubsidy, transactionFees, minerFees := transactionFees
        emissionAdvance := scheduledSubsidy }
    if hasQualifiedPayee then
      settleAllocation allocation { next with
        minerSubsidy := scheduledSubsidy - serviceAllocation, serviceReward := serviceAllocation }
    else
      match emptyPolicy with
      | .unset => (allocation, .error .unresolvedEmptyPolicy)
      | .minerFallback => settleAllocation allocation { next with minerSubsidy := scheduledSubsidy }
      | .permanentNonissuance =>
        settleAllocation allocation { next with
          minerSubsidy := scheduledSubsidy - serviceAllocation
          permanentlyUnissued := serviceAllocation }

variable {allocation allocation₀ : RewardAllocationV2} {scheduledSubsidy transactionFees bps : UInt64}
  {hasPayee : Bool} {policy : EmptyQualificationPolicyV2}

/-- What the caller finds in a cleared out-parameter. -/
def written : Except RewardStatusV2 RewardAllocationV2 →
    RewardAllocationV2 × Except RewardStatusV2 Unit
  | .ok allocation => (allocation, .ok ())
  | .error status => ({}, .error status)

lemma ok_bind {α : Type} (value : α) (f : α → Except RewardStatusV2 RewardAllocationV2) :
    (Except.ok value >>= f) = f value := rfl

lemma settleAllocation_eq (split : SubsidySplit) :
    settleAllocation {} { split with
        scheduledSubsidy, transactionFees, minerFees := transactionFees
        emissionAdvance := scheduledSubsidy } =
      written (do
        let issuedSubsidy ← okOr .arithmeticOverflow
          (checkedAdd split.minerSubsidy split.serviceReward)
        let coinbaseTotal ← okOr .arithmeticOverflow (checkedAdd issuedSubsidy transactionFees)
        return { split with
          scheduledSubsidy, transactionFees, minerFees := transactionFees, issuedSubsidy
          coinbaseTotal, emissionAdvance := scheduledSubsidy }) := by
  rw [settleAllocation, withTotals]
  cases checkedAdd split.minerSubsidy split.serviceReward with
  | none =>
    rw [Option.bind_eq_bind, Option.bind_none, okOr]
    rfl
  | some issued =>
    rw [Option.bind_eq_bind, Option.bind_some, okOr, ok_bind]
    cases checkedAdd issued transactionFees with
    | none => rfl
    | some total => rfl

/-- The out-parameter holds the allocation of an accepted call, and is cleared by a refused one. -/
lemma calculateRewardAllocationV2Into_eq :
    calculateRewardAllocationV2Into allocation₀ scheduledSubsidy transactionFees hasPayee policy bps =
      written (calculateRewardAllocationV2 scheduledSubsidy transactionFees hasPayee policy bps) := by
  by_cases hbps : 10000 < bps
  · rw [calculateRewardAllocationV2Into, if_pos hbps, calculateRewardAllocationV2, if_pos hbps]
    rfl
  · rw [calculateRewardAllocationV2Into, if_neg hbps, calculateRewardAllocationV2, if_neg hbps]
    generalize basisPoints scheduledSubsidy bps = share
    cases hasPayee with
    | true =>
      have hsplit : splitSubsidy scheduledSubsidy share true policy =
        .ok ⟨scheduledSubsidy - share, share, 0⟩ := rfl
      rw [hsplit, ok_bind]
      simp only [if_true]
      exact settleAllocation_eq ⟨scheduledSubsidy - share, share, 0⟩
    | false =>
      cases policy with
      | unset => rfl
      | minerFallback =>
        have hsplit : splitSubsidy scheduledSubsidy share false .minerFallback =
          .ok ⟨scheduledSubsidy, 0, 0⟩ := rfl
        rw [hsplit, ok_bind]
        simp only [Bool.false_eq_true, if_false]
        exact settleAllocation_eq ⟨scheduledSubsidy, 0, 0⟩
      | permanentNonissuance =>
        have hsplit : splitSubsidy scheduledSubsidy share false .permanentNonissuance =
          .ok ⟨scheduledSubsidy - share, 0, share⟩ := rfl
        rw [hsplit, ok_bind]
        simp only [Bool.false_eq_true, if_false]
        exact settleAllocation_eq ⟨scheduledSubsidy - share, 0, share⟩

/-- The Coinbase total without a bound: the fees and what is issued of the subsidy. -/
def exactCoinbaseTotal (scheduledSubsidy transactionFees bps : ℕ) (hasPayee : Bool)
    (policy : EmptyQualificationPolicyV2) : ℕ :=
  if hasPayee = false ∧ policy = .permanentNonissuance then
    scheduledSubsidy - scheduledSubsidy * bps / 10000 + transactionFees
  else scheduledSubsidy + transactionFees

lemma splitSubsidy_exact {share : UInt64} (hshare : share.toNat ≤ scheduledSubsidy.toNat)
    (hpolicy : hasPayee = true ∨ policy ≠ .unset) :
    ∃ split, splitSubsidy scheduledSubsidy share hasPayee policy = .ok split ∧
      split.minerSubsidy.toNat + split.serviceReward.toNat + split.permanentlyUnissued.toNat =
        scheduledSubsidy.toNat ∧
      scheduledSubsidy.toNat - share.toNat ≤ split.minerSubsidy.toNat ∧
      split.permanentlyUnissued.toNat =
        if hasPayee = false ∧ policy = .permanentNonissuance then share.toNat else 0 := by
  have hrest := UInt64.toNat_sub_of_le _ _ (UInt64.le_iff_toNat_le.mpr hshare)
  cases hasPayee with
  | true => exact ⟨_, rfl, by simp [hrest, hshare], by simp [hrest], by simp⟩
  | false =>
    cases policy with
    | unset => simp at hpolicy
    | minerFallback => exact ⟨_, rfl, by simp, by simp, by simp⟩
    | permanentNonissuance => exact ⟨_, rfl, by simp [hrest, hshare], by simp [hrest], by simp⟩

variable (scheduledSubsidy transactionFees) in
/-- An allocation is refused only for a total that does not fit, and divides the subsidy exactly
when it is accepted. -/
lemma calculateRewardAllocationV2_exact (hbps : bps ≤ 10000)
    (hpolicy : hasPayee = true ∨ policy ≠ .unset) :
    let result := calculateRewardAllocationV2 scheduledSubsidy transactionFees hasPayee policy bps
    let total := exactCoinbaseTotal scheduledSubsidy.toNat transactionFees.toNat bps.toNat hasPayee
      policy
    (2 ^ 64 ≤ total ∧ result = .error .arithmeticOverflow) ∨
      (total < 2 ^ 64 ∧ ∃ allocation, result = .ok allocation ∧
        allocation.minerSubsidy.toNat + allocation.serviceReward.toNat +
          allocation.permanentlyUnissued.toNat = scheduledSubsidy.toNat ∧
        scheduledSubsidy.toNat - scheduledSubsidy.toNat * bps.toNat / 10000 ≤
          allocation.minerSubsidy.toNat ∧
        allocation.minerFees = transactionFees ∧
        allocation.issuedSubsidy.toNat + transactionFees.toNat = allocation.coinbaseTotal.toNat ∧
        allocation.coinbaseTotal.toNat = total) := by
  have hshare := toNat_basisPoints scheduledSubsidy hbps
  obtain ⟨split, hsplit, hsum, hminer, hunissued⟩ :=
    splitSubsidy_exact (toNat_basisPoints_le scheduledSubsidy hbps) hpolicy
  have hle := toNat_basisPoints_le scheduledSubsidy hbps
  have hsubsidy := scheduledSubsidy.toNat_lt
  rw [hshare] at hminer hunissued hle
  -- the issued part always fits; only the fees can carry the total over
  obtain ⟨issued, hissued⟩ : ∃ issued : UInt64,
      split.minerSubsidy.toNat + split.serviceReward.toNat = issued.toNat :=
    ⟨_, (toNat_ofNat_of_fits (by omega)).symm⟩
  have htotal : exactCoinbaseTotal scheduledSubsidy.toNat transactionFees.toNat bps.toNat hasPayee
      policy = issued.toNat + transactionFees.toNat := by
    unfold exactCoinbaseTotal
    split_ifs at hunissued ⊢ <;> omega
  dsimp only
  rw [calculateRewardAllocationV2, if_neg (UInt64.not_lt.mpr hbps), hsplit, htotal, ok_bind,
    checkedAdd_eq_some_iff.mpr hissued, okOr, ok_bind]
  by_cases hfits : issued.toNat + transactionFees.toNat < 2 ^ 64
  · obtain ⟨total, hcoinbase⟩ : ∃ total : UInt64,
        issued.toNat + transactionFees.toNat = total.toNat :=
      ⟨_, (toNat_ofNat_of_fits hfits).symm⟩
    rw [checkedAdd_eq_some_iff.mpr hcoinbase]
    exact Or.inr ⟨hfits, _, rfl, hsum, hminer, rfl, hcoinbase, hcoinbase.symm⟩
  · have hnone : checkedAdd issued transactionFees = none := by
      by_contra hsome
      obtain ⟨sum, hsum⟩ := Option.ne_none_iff_exists'.mp hsome
      have hlt := sum.toNat_lt
      rw [checkedAdd_eq_some_iff] at hsum
      omega
    rw [hnone]
    exact Or.inl ⟨not_lt.mp hfits, rfl⟩

/-- **The allocation of a reward is exact and conservative.**  For every subsidy, every fee total,
every share of at most 10000 basis points, with a payee or with a settled policy for the lack of
one: the products behind the share do not wrap and the share is the exact one, rounded down; the
call is accepted exactly when the Coinbase total fits into 64 bits; then the shares sum to the
subsidy, the issued part and the fees to the Coinbase total, and the miner gets at least what the
service share leaves, and all fees.  A refused call clears the out-parameter. -/
theorem reward_allocation_is_exact (allocation₀ : RewardAllocationV2)
    (scheduledSubsidy transactionFees bps : UInt64) (hasPayee : Bool)
    (policy : EmptyQualificationPolicyV2) (hbps : bps ≤ 10000)
    (hpolicy : hasPayee = true ∨ policy ≠ .unset) :
    let called := calculateRewardAllocationV2Into allocation₀ scheduledSubsidy transactionFees
      hasPayee policy bps
    let share := scheduledSubsidy.toNat * bps.toNat / 10000
    (scheduledSubsidy.toNat / 10000 * bps.toNat < 2 ^ 64 ∧
        scheduledSubsidy.toNat % 10000 * bps.toNat < 2 ^ 64 ∧
        scheduledSubsidy.toNat / 10000 * bps.toNat +
          scheduledSubsidy.toNat % 10000 * bps.toNat / 10000 < 2 ^ 64 ∧
        (basisPoints scheduledSubsidy bps).toNat = share) ∧
      (called.2 = .ok () ↔ exactCoinbaseTotal scheduledSubsidy.toNat transactionFees.toNat
        bps.toNat hasPayee policy < 2 ^ 64) ∧
      (called.2 = .ok () →
        called.1.minerSubsidy.toNat + called.1.serviceReward.toNat +
            called.1.permanentlyUnissued.toNat = scheduledSubsidy.toNat ∧
          called.1.issuedSubsidy.toNat + transactionFees.toNat = called.1.coinbaseTotal.toNat ∧
          scheduledSubsidy.toNat - share + transactionFees.toNat ≤
            called.1.minerSubsidy.toNat + called.1.minerFees.toNat) ∧
      (called.2 ≠ .ok () → called.1 = {}) := by
  intro called share
  obtain ⟨hquotient, hremainder, hsum⟩ := basisPoints_fits scheduledSubsidy hbps
  have hlt := scheduledSubsidy.toNat_lt
  refine ⟨⟨hquotient, hremainder, by omega, toNat_basisPoints scheduledSubsidy hbps⟩, ?_⟩
  have hcalled : called = written (calculateRewardAllocationV2 scheduledSubsidy transactionFees
    hasPayee policy bps) := calculateRewardAllocationV2Into_eq
  obtain ⟨htotal, hresult⟩ | ⟨htotal, allocation, hresult, hsubsidy, hminer, hfees, hissued, -⟩ :=
    calculateRewardAllocationV2_exact scheduledSubsidy transactionFees hbps hpolicy
  · rw [hresult, written] at hcalled
    rw [hcalled]
    exact ⟨by simpa using htotal, by simp, fun _ => rfl⟩
  · rw [hresult, written] at hcalled
    rw [hcalled]
    refine ⟨by simpa using htotal, fun _ => ⟨hsubsidy, hissued, ?_⟩, by simp⟩
    dsimp only
    rw [hfees]
    omega

theorem reward_allocation_is_exact_sample :
    (calculateRewardAllocationV2Into {} 12345 7 true .unset 1000).2 = .ok () ∧
      (calculateRewardAllocationV2Into {} 12345 7 true .unset 1000).1.serviceReward = 1234 ∧
      (basisPoints 12345 1000).toNat = 12345 * 1000 / 10000 :=
  ⟨by decide, by decide,
    (reward_allocation_is_exact {} 12345 7 1000 true .unset (by decide) (by decide)).1.2.2.2⟩

end Allocation

/-! ## Taking turns -/

section Rotation

variable {cr : Crypto} {qualification : QualificationSetV2}
  {payoutSeed genesisHash parameterSetHash : Hash} {timing : EpochTimingV2}
  {payoutEpoch height start finish : UInt64} {payee : PublicKey}

lemma strictWeak_rankedLess : Sorting.StrictWeak rankedLess := by
  have hlex := (Bytes.strictWeak_memLess.comap (Prod.fst : Hash × PublicKey → Hash)).lex
    (Bytes.strictWeak_memLess.comap (Prod.snd : Hash × PublicKey → PublicKey))
  have heq : rankedLess = fun left right =>
      if Bytes.memLess left.1.data right.1.data then true
      else if Bytes.memLess right.1.data left.1.data then false
      else Bytes.memLess left.2.data right.2.data := by
    funext left right
    unfold rankedLess
    by_cases hscore : left.1 = right.1
    · simp [hscore, Bytes.memLess_irrefl]
    · obtain hlt | hgt := Bytes.apart_memLess hscore
      · simp [hscore, hlt]
      · simp [hscore, hgt, Bytes.strictWeak_memLess.asymm hgt]
  rw [heq]
  exact hlex

lemma apart_rankedLess {left right : Hash × PublicKey} (h : left.2 ≠ right.2) :
    Sorting.Apart rankedLess left right := by
  unfold Sorting.Apart rankedLess
  by_cases hscore : left.1 = right.1
  · obtain hlt | hgt := Bytes.apart_memLess h
    · exact Or.inl (by simp [hscore, hlt])
    · exact Or.inr (by simp [hscore, hgt])
  · obtain hlt | hgt := Bytes.apart_memLess hscore
    · exact Or.inl (by simp [hscore, hlt])
    · exact Or.inr (by simp [Ne.symm hscore, hgt])

lemma rankedNodes_eq_of_perm {nodes : List PublicKey}
    (hnodup : qualification.qualifiedNodes.Nodup) (hperm : nodes.Perm qualification.qualifiedNodes) :
    rankedNodes cr { qualification with qualifiedNodes := nodes } payoutSeed genesisHash
        parameterSetHash payoutEpoch =
      rankedNodes cr qualification payoutSeed genesisHash parameterSetHash payoutEpoch := by
  unfold rankedNodes
  refine congrArg _ (strictWeak_rankedLess.sort_eq_of_perm ?_ (hperm.map _))
  rw [List.pairwise_map]
  refine (hperm.nodup_iff.mpr hnodup).imp fun {left right} hne => ?_
  exact apart_rankedLess hne

/-- Inside the payout epoch the nodes take turns, block by block. -/
lemma PaysIn.select_iff
    (h : PaysIn cr qualification payoutSeed genesisHash parameterSetHash timing payoutEpoch start
      finish) (hfirst : start ≤ height) (hlast : height ≤ finish) :
    selectServicePayeeV2 cr qualification payoutSeed genesisHash parameterSetHash timing
        payoutEpoch height = .ok payee ↔
      Rotation.turn (rankedNodes cr qualification payoutSeed genesisHash parameterSetHash
        payoutEpoch) (height.toNat - start.toNat) = some payee := by
  rw [selectServicePayeeV2_eq_ok_iff, ← UInt64.toNat_sub_of_le _ _ hfirst]
  constructor
  · rintro ⟨start', finish', h', -, -, hturn⟩
    obtain rfl : start = start' := Option.some.inj (h.starts.symm.trans h'.starts)
    exact hturn
  · exact fun hturn => ⟨start, finish, h, hfirst, hlast, hturn⟩

lemma PaysIn.finish_eq
    (h : PaysIn cr qualification payoutSeed genesisHash parameterSetHash timing payoutEpoch start
      finish) : finish.toNat + 1 = start.toNat + timing.len := by
  have hstart := (EpochTimingV2.epochStart_eq_some_iff h.timing_valid).mp h.starts
  have hfinish := (EpochTimingV2.epochEnd_eq_some_iff h.timing_valid).mp h.ends
  rw [← hfinish, Nat.succ_mul, hstart]

lemma PaysIn.select_add_iff
    (h : PaysIn cr qualification payoutSeed genesisHash parameterSetHash timing payoutEpoch start
      finish) {first : UInt64} (hfirst : start ≤ first) {i : ℕ}
    (hlast : first.toNat + i ≤ finish.toNat) :
    selectServicePayeeV2 cr qualification payoutSeed genesisHash parameterSetHash timing
        payoutEpoch (first + UInt64.ofNat i) = .ok payee ↔
      Rotation.turn (rankedNodes cr qualification payoutSeed genesisHash parameterSetHash
        payoutEpoch) (first.toNat - start.toNat + i) = some payee := by
  have hfinish := finish.toNat_lt
  have hstart := UInt64.le_iff_toNat_le.mp hfirst
  have hheight : (first + UInt64.ofNat i).toNat = first.toNat + i := by
    rw [UInt64.toNat_add, toNat_ofNat_of_fits (by omega), Nat.mod_eq_of_lt (by omega)]
  rw [h.select_iff (by rw [UInt64.le_iff_toNat_le]; omega)
    (by rw [UInt64.le_iff_toNat_le]; omega), hheight]
  have hoffset : first.toNat + i - start.toNat = first.toNat - start.toNat + i := by omega
  rw [hoffset]

lemma PaysIn.existsUnique_select
    (h : PaysIn cr qualification payoutSeed genesisHash parameterSetHash timing payoutEpoch start
      finish) {first : UInt64} (hfirst : start ≤ first)
    (hfits : first.toNat + qualification.qualifiedNodes.length ≤ finish.toNat + 1)
    (hkey : payee ∈ qualification.qualifiedNodes) :
    ∃! i, i < qualification.qualifiedNodes.length ∧
      selectServicePayeeV2 cr qualification payoutSeed genesisHash parameterSetHash timing
        payoutEpoch (first + UInt64.ofNat i) = .ok payee := by
  have hperm : (rankedNodes cr qualification payoutSeed genesisHash parameterSetHash
    payoutEpoch).Perm qualification.qualifiedNodes := rankedNodes_perm
  have hround := Rotation.existsUnique_turn (hperm.nodup_iff.mpr h.nodup) (hperm.mem_iff.mpr hkey)
    (first.toNat - start.toNat)
  rw [hperm.length_eq] at hround
  refine (existsUnique_congr fun i => ?_).mp hround
  refine and_congr_right fun hi => (h.select_add_iff hfirst ?_).symm
  omega

lemma PaysIn.count_select
    (h : PaysIn cr qualification payoutSeed genesisHash parameterSetHash timing payoutEpoch start
      finish) (hkey : payee ∈ qualification.qualifiedNodes) :
    let blocks := Nat.count (fun i => selectServicePayeeV2 cr qualification payoutSeed genesisHash
      parameterSetHash timing payoutEpoch (start + UInt64.ofNat i) = .ok payee)
      timing.epochLength.toNat
    blocks = timing.epochLength.toNat / qualification.qualifiedNodes.length ∨
      blocks = (timing.epochLength.toNat + qualification.qualifiedNodes.length - 1) /
        qualification.qualifiedNodes.length := by
  have hperm : (rankedNodes cr qualification payoutSeed genesisHash parameterSetHash
    payoutEpoch).Perm qualification.qualifiedNodes := rankedNodes_perm
  have hshare := Rotation.count_turn (hperm.nodup_iff.mpr h.nodup) (hperm.mem_iff.mpr hkey)
    timing.epochLength.toNat
  have hblocks : Nat.count (fun i => selectServicePayeeV2 cr qualification payoutSeed genesisHash
      parameterSetHash timing payoutEpoch (start + UInt64.ofNat i) = .ok payee)
      timing.epochLength.toNat =
    Nat.count (fun i => Rotation.turn (rankedNodes cr qualification payoutSeed genesisHash
      parameterSetHash payoutEpoch) i = some payee) timing.epochLength.toNat := by
    rw [Nat.count_eq_card_filter_range, Nat.count_eq_card_filter_range]
    congr 1
    refine Finset.filter_congr fun i hi => ?_
    have hend := h.finish_eq
    rw [Finset.mem_range, ← EpochTimingV2.len] at hi
    rw [h.select_add_iff (UInt64.le_refl _) (by omega), Nat.sub_self, Nat.zero_add]
  rw [hperm.length_eq, ← hblocks] at hshare
  exact hshare

lemma select_iff_of_perm {nodes : List PublicKey}
    (hperm : nodes.Perm qualification.qualifiedNodes) :
    selectServicePayeeV2 cr { qualification with qualifiedNodes := nodes } payoutSeed genesisHash
        parameterSetHash timing payoutEpoch height = .ok payee ↔
      selectServicePayeeV2 cr qualification payoutSeed genesisHash parameterSetHash timing
        payoutEpoch height = .ok payee := by
  have hpays : ∀ start finish, PaysIn cr { qualification with qualifiedNodes := nodes } payoutSeed
      genesisHash parameterSetHash timing payoutEpoch start finish ↔
      PaysIn cr qualification payoutSeed genesisHash parameterSetHash timing payoutEpoch start
        finish := by
    intro start finish
    constructor
    · exact fun h => { h with
        valid := fun key hkey => h.valid key (hperm.mem_iff.mpr hkey)
        nodup := hperm.nodup_iff.mp h.nodup }
    · exact fun h => { h with
        valid := fun key hkey => h.valid key (hperm.mem_iff.mp hkey)
        nodup := hperm.nodup_iff.mpr h.nodup }
  rw [selectServicePayeeV2_eq_ok_iff, selectServicePayeeV2_eq_ok_iff]
  refine exists_congr fun start => exists_congr fun finish => ?_
  rw [hpays]
  refine and_congr_right fun h => ?_
  rw [rankedNodes_eq_of_perm h.nodup hperm]

/-- Whoever is selected is selected in the epoch after the one of the set. -/
lemma inside_of_select
    (h : selectServicePayeeV2 cr qualification payoutSeed genesisHash parameterSetHash timing
      payoutEpoch height = .ok payee) :
    (qualification.epoch.toNat + 1) * timing.epochLength.toNat ≤ height.toNat ∧
      height.toNat < (qualification.epoch.toNat + 2) * timing.epochLength.toNat := by
  obtain ⟨start, finish, hpays, hfirst, hlast, -⟩ := selectServicePayeeV2_eq_ok_iff.mp h
  have hepoch : qualification.epoch.toNat + 1 = payoutEpoch.toNat := by
    simpa using checkedAdd_eq_some_iff.mp hpays.epoch
  have hstart := (EpochTimingV2.epochStart_eq_some_iff hpays.timing_valid).mp hpays.starts
  have hfinish := (EpochTimingV2.epochEnd_eq_some_iff hpays.timing_valid).mp hpays.ends
  rw [UInt64.le_iff_toNat_le] at hfirst hlast
  rw [← hepoch] at hstart hfinish
  rw [EpochTimingV2.len] at hstart hfinish
  rw [← Nat.add_assoc (qualification.epoch.toNat) 1 1]
  omega

/-- **The rotation of payees is fair.**  Take a qualified set of distinct valid keys that pays in an
epoch.  As many consecutive blocks of the epoch as there are qualified nodes pay each of them
exactly once, and the whole epoch pays each of them its even share of the blocks, rounded down or
up.  The order in which the set lists its nodes does not matter, and outside the epoch after the
one of the set nobody is selected. -/
theorem payee_rotation_is_fair (cr : Crypto) (qualification : QualificationSetV2)
    (payoutSeed genesisHash parameterSetHash : Hash) (timing : EpochTimingV2) :
    let select (nodes : List PublicKey) (payoutEpoch height : UInt64) :=
      selectServicePayeeV2 cr { qualification with qualifiedNodes := nodes } payoutSeed genesisHash
        parameterSetHash timing payoutEpoch height
    let nodes := qualification.qualifiedNodes
    (∀ payoutEpoch start finish, PaysIn cr qualification payoutSeed genesisHash parameterSetHash
        timing payoutEpoch start finish →
      (∀ first : UInt64, start ≤ first → first.toNat + nodes.length ≤ finish.toNat + 1 →
        ∀ key ∈ nodes, ∃! i, i < nodes.length ∧
          select nodes payoutEpoch (first + UInt64.ofNat i) = .ok key) ∧
      ∀ key ∈ nodes,
        let blocks := Nat.count (fun i => select nodes payoutEpoch (start + UInt64.ofNat i) =
          .ok key) timing.epochLength.toNat
        blocks = timing.epochLength.toNat / nodes.length ∨
          blocks = (timing.epochLength.toNat + nodes.length - 1) / nodes.length) ∧
    (∀ nodes' payoutEpoch height key, nodes'.Perm nodes →
      (select nodes' payoutEpoch height = .ok key ↔ select nodes payoutEpoch height = .ok key)) ∧
    ∀ payoutEpoch height : UInt64,
      ¬((qualification.epoch.toNat + 1) * timing.epochLength.toNat ≤ height.toNat ∧
        height.toNat < (qualification.epoch.toNat + 2) * timing.epochLength.toNat) →
      ∃ status, select nodes payoutEpoch height = .error status := by
  intro select nodes
  refine ⟨fun payoutEpoch start finish h => ⟨?_, ?_⟩, ?_, ?_⟩
  · intro first hfirst hfits key hkey
    exact h.existsUnique_select hfirst hfits hkey
  · intro key hkey
    exact h.count_select hkey
  · intro nodes' payoutEpoch height key hperm
    exact select_iff_of_perm hperm
  · intro payoutEpoch height houtside
    cases hselect : select nodes payoutEpoch height with
    | error status => exact ⟨status, rfl⟩
    | ok payee => exact absurd (inside_of_select hselect) houtside

/-- A set of two nodes, for concrete runs. -/
def sampleQualification : QualificationSetV2 where
  epoch := 1
  snapshotHash := Bytes.Block.ofNat 32 1
  qualifiedNodes := [sampleKey 1, sampleKey 2]
  qualificationHash := Bytes.Block.ofNat 32 2
  closedHeight := 4

theorem payee_rotation_is_fair_sample :
    PaysIn .sample sampleQualification (Bytes.Block.ofNat 32 3) (Bytes.Block.ofNat 32 4)
        (Bytes.Block.ofNat 32 5) ⟨0, 3, 1⟩ 2 6 8 ∧
      ∃! i, i < 2 ∧ selectServicePayeeV2 .sample sampleQualification (Bytes.Block.ofNat 32 3)
        (Bytes.Block.ofNat 32 4) (Bytes.Block.ofNat 32 5) ⟨0, 3, 1⟩ 2 (7 + UInt64.ofNat i) =
          .ok (sampleKey 2) := by
  have hpays : PaysIn .sample sampleQualification (Bytes.Block.ofNat 32 3)
      (Bytes.Block.ofNat 32 4) (Bytes.Block.ofNat 32 5) ⟨0, 3, 1⟩ 2 6 8 := by
    constructor <;> decide +kernel
  exact ⟨hpays, (payee_rotation_is_fair .sample sampleQualification (Bytes.Block.ofNat 32 3)
    (Bytes.Block.ofNat 32 4) (Bytes.Block.ofNat 32 5) ⟨0, 3, 1⟩).1 2 6 8 hpays |>.1 7 (by decide)
      (by decide) (sampleKey 2) (by decide +kernel)⟩

end Rotation

end Qwertycoin
