import Qwertycoin.Quiet

/-
# The reward of a historic block

`get_epose_block_reward_mapping_v2` plans the reward of a stored block again, from the coordinator
as it is at the time of the query and from what the database has about the block.  The settled
epoch it reads has not changed since, so the plan is the one of the time the block was connected.
What it needs in addition are the transactions of the block in full, for their fees: a pruned
database no longer has them.
-/

namespace Qwertycoin

open ConsensusCoordinatorV2

/-- `epose_block_reward_mapping_v2`; the payment is there if there is a service payee. -/
structure EposeBlockRewardMappingV2 where
  height : UInt64
  payoutEpoch : UInt64
  sourceEpoch : UInt64
  qualifiedCount : ℕ
  blockHash : Hash
  parentHash : Hash
  qualificationHash : Hash
  allocation : RewardAllocationV2
  payment : Option ServicePaymentContextV2
deriving DecidableEq

/-- `get_epose_reward_source_epoch_v2` -/
def getEposeRewardSourceEpochV2 (timing : EpochTimingV2) (height : UInt64) : Option UInt64 :=
  if !timing.valid || height < timing.activationHeight then none
  else
    let payoutEpoch := (height - timing.activationHeight) / timing.epochLength
    some (if payoutEpoch ≠ 0 then payoutEpoch - 1 else 0)

section Query

variable (cr : Crypto) (p : ConsensusParametersV2)

/-- The payment of a stored block under a plan, verified again. -/
def plannedPayment (b : MainChainBlock) (plan : CoordinatorRewardPlanV2) :
    Option (Option ServicePaymentContextV2) :=
  match plan.expectation with
  | none => some none
  | some expected =>
    (verifyCoinbaseServicePaymentV2 cr (p.extraLimits b.majorVersion) b.minerTx
      expected).1.toOption.map some

/-- The mapping of a stored block, once its subsidy and fees are known. -/
def mappingOf (l : Ledger) (height : ℕ) (b : MainChainBlock) (scheduledSubsidy fees : UInt64) :
    Option EposeBlockRewardMappingV2 := do
  let plan ← (planReward cr p (canonicalContexts p l.ids) l.chain.coordinator.state
    (UInt64.ofNat height) b.prevId scheduledSubsidy fees).toOption
  let actualCoinbaseTotal ← sumOutputs b.minerTx.vout 0
  if actualCoinbaseTotal ≠ plan.allocation.coinbaseTotal then none
  else do
    let payment ← plannedPayment cr p b plan
    let sourceEpoch ← getEposeRewardSourceEpochV2 p.timing (UInt64.ofNat height)
    let qualification ← l.chain.coordinator.state.membership.qualification sourceEpoch
    if plan.expectation.any (·.qualificationHash ≠ qualification.qualificationHash) then none
    else
      some {
        height := UInt64.ofNat height
        payoutEpoch := (plan.expectation.map (·.payoutEpoch)).getD (sourceEpoch + 1)
        sourceEpoch
        qualifiedCount := qualification.qualifiedNodes.length
        blockHash := b.blockHash
        parentHash := b.prevId
        qualificationHash := qualification.qualificationHash
        allocation := plan.allocation
        payment }

/-- `get_epose_block_reward_mapping_v2`.  The database may have pruned transactions:
`hasPrunable` says which ones it can still return in full. -/
def Ledger.getEposeBlockRewardMappingV2 (l : Ledger) (hasPrunable : Transaction → Bool)
    (blockHash : Hash) : Option EposeBlockRewardMappingV2 :=
  if blockHash = nullHash then none
  else do
    let height ← l.ids.idxOf? blockHash
    let stored ← l.blocks[height]?
    if stored.block.blockHash ≠ blockHash ∨ stored.block.majorVersion ≠ hfVersionQwcEpose then none
    else if !stored.block.transactions.all hasPrunable then none
    else do
      let fees ← totalFees stored.block.fees
      let scheduledSubsidy ← l.replaySubsidy height stored.block
      mappingOf cr p l height stored.block scheduledSubsidy fees

end Query

/-- What a block at a height was given when it was connected, from the qualified set that was
settled then. -/
def ConnectedBlock.mapping (entry : ConnectedBlock) (timing : EpochTimingV2) (k : ℕ)
    (qualification : QualificationSetV2) : EposeBlockRewardMappingV2 where
  height := UInt64.ofNat k
  payoutEpoch := UInt64.ofNat k / timing.epochLength
  sourceEpoch := UInt64.ofNat k / timing.epochLength - 1
  qualifiedCount := qualification.qualifiedNodes.length
  blockHash := entry.stored.block.blockHash
  parentHash := entry.stored.block.prevId
  qualificationHash := qualification.qualificationHash
  allocation := entry.result.reward
  payment := entry.result.payment

variable {cr : Crypto} {p : ConsensusParametersV2} {l : Ledger} {history : List ConnectedBlock}
  {k : ℕ} {entry : ConnectedBlock} {firstPayoutHeight : UInt64}

lemma planReward_qualification {contexts : CanonicalContextSourceV2} {s : SemanticStateV2}
    {height : UInt64} {parentHash : Hash} {scheduledSubsidy transactionFees : UInt64}
    {plan : CoordinatorRewardPlanV2}
    (h : planReward cr p contexts s height parentHash scheduledSubsidy transactionFees = .ok plan)
    (hfirst : p.timing.firstPayoutHeight = some firstPayoutHeight)
    (hheight : firstPayoutHeight ≤ height) :
    p.valid = true ∧ ∃ qualification, s.membership.qualification
      ((height - p.timing.activationHeight) / p.timing.epochLength - 1) = some qualification := by
  unfold planReward at h
  split at h
  · cases h
  rename_i hvalid
  rw [hfirst] at h
  dsimp only at h
  rw [if_neg (UInt64.not_lt.mpr hheight)] at h
  split at h
  · cases h
  split at h
  · cases h
  split at h
  · cases h
  rename_i qualification hqualification
  exact ⟨by simpa using hvalid, qualification, hqualification⟩

lemma seed_eq_of_take (hp : p.valid = true)
    (hfirst : p.timing.firstPayoutHeight = some firstPayoutHeight)
    (hheight : firstPayoutHeight ≤ UInt64.ofNat k) (ids : List Hash) :
    (p.timing.committeeAnchor (UInt64.ofNat k / p.timing.epochLength)).bind
        (canonicalContexts p ids).blockHash =
      (p.timing.committeeAnchor (UInt64.ofNat k / p.timing.epochLength)).bind
        (canonicalContexts p (ids.take k)).blockHash := by
  have hv := BlockTransitionV2.timing_valid (valid_iff.mp hp).2
  obtain ⟨-, -, hstart, -⟩ := payoutEpoch_spec hp hfirst hheight
  cases hanchor : p.timing.committeeAnchor (UInt64.ofNat k / p.timing.epochLength) with
  | none => rfl
  | some anchor =>
    have hdepth := (EpochTimingV2.valid_iff.mp hv).1
    have heq := ((EpochTimingV2.committeeAnchor_eq_some_iff hv).mp hanchor).1
    have hle : (UInt64.ofNat k).toNat ≤ k := by
      rw [UInt64.toNat_ofNat']
      exact Nat.mod_le _ _
    have hlt : anchor.toNat < k := by omega
    simp [canonicalContexts, List.getElem?_take_of_lt hlt]

lemma getEposeRewardSourceEpochV2_eq (hp : p.valid = true)
    (hfirst : p.timing.firstPayoutHeight = some firstPayoutHeight) {height : UInt64}
    (hheight : firstPayoutHeight ≤ height) :
    getEposeRewardSourceEpochV2 p.timing height = some (height / p.timing.epochLength - 1) := by
  have hv := BlockTransitionV2.timing_valid (valid_iff.mp hp).2
  have hactivation := activationHeight_eq_zero hp
  have hpayout := (payoutEpoch_spec hp hfirst hheight).2.1
  have hne : height / p.timing.epochLength ≠ 0 := by
    intro hzero
    rw [hzero] at hpayout
    simp at hpayout
  simp [getEposeRewardSourceEpochV2, hv, hactivation, hne]

lemma plannedPayment_eq {block : CoordinatorBlockV2} {b : MainChainBlock}
    {plan : CoordinatorRewardPlanV2} {validated : Option ValidatedServicePaymentV2}
    {signatures : ℕ} (hversion : block.majorVersion = b.majorVersion)
    (h : validatePayment cr p block b.minerTx plan = .ok (validated, signatures)) :
    plannedPayment cr p b plan = some (validated.map (·.context)) := by
  unfold plannedPayment
  obtain ⟨hnone, rfl, -⟩ | ⟨expected, payment, proof, hsome, rfl, hpays, -⟩ := validatePayment_ok h
  · rw [hnone]
    rfl
  · rw [hsome]
    rw [hversion] at hpays
    have hverify := verifyCoinbaseServicePaymentV2_eq_ok_iff.mpr ⟨⟨proof, hpays⟩, rfl⟩
    dsimp only
    rw [hverify]
    rfl

/-- The mapping of a block, asked for later with its subsidy and fees, is what it was given. -/
lemma mappingOf_eq (h : Ledger.Traced cr p history l) (hentry : history[k]? = some entry)
    (hfirst : p.timing.firstPayoutHeight = some firstPayoutHeight)
    (hheight : firstPayoutHeight ≤ UInt64.ofNat k) :
    ∃ qualification,
      entry.before.membership.qualification (UInt64.ofNat k / p.timing.epochLength - 1) =
        some qualification ∧
      mappingOf cr p l k entry.stored.block entry.subsidy entry.stored.block.fees.sum =
        some (entry.mapping p.timing k qualification) := by
  obtain ⟨calls, -, hrun, hentries⟩ := h.run
  obtain ⟨core, us, hreplay, hat⟩ := hentries k entry hentry
  obtain ⟨t, rfl, hconnect⟩ := hat.connected
  obtain ⟨coinbase, plan, validated, signatures, hprepare, -, -⟩ := connectBlock_ok hconnect
  obtain ⟨hcoinbase, -, hplan, htotal, hvalidate⟩ := preparePayment_ok hprepare
  obtain ⟨hreward, hpayment⟩ := connectBlock_result hconnect hprepare
  obtain rfl : entry.stored.block.minerTx = coinbase := Option.some.inj hcoinbase
  have hplan' : planReward cr p (canonicalContexts p (l.ids.take k)) t.state (UInt64.ofNat k)
      entry.stored.block.prevId entry.subsidy entry.stored.block.fees.sum = .ok plan := hplan
  obtain ⟨hp, qualification, hqualification⟩ := planReward_qualification hplan' hfirst hheight
  obtain ⟨-, hexpected⟩ := planReward_eq_ok hplan'
  have hactivation := activationHeight_eq_zero hp
  -- the epoch was settled before the block, so it is the same now
  obtain ⟨full, hfull, -⟩ := hrun.replay
  rw [← List.take_append_drop k calls] at hfull
  have hagree := BlockTransitionV2.agreeOn_of_replay (valid_iff.mp hp).2 hreplay hqualification
    hfull
  have hnow : planReward cr p (canonicalContexts p l.ids) l.chain.coordinator.state
      (UInt64.ofNat k) entry.stored.block.prevId entry.subsidy entry.stored.block.fees.sum =
        .ok plan := by
    rw [planReward_congr hfirst hheight hagree ?_]
    · exact hplan'
    · rw [hactivation, UInt64.sub_zero]
      exact seed_eq_of_take hp hfirst hheight l.ids
  rw [hactivation, UInt64.sub_zero] at hqualification hagree
  refine ⟨qualification, by rw [hat.before]; exact hqualification, ?_⟩
  have hsettled := hagree.qualification.trans hqualification
  have hhash : plan.expectation.any (·.qualificationHash ≠ qualification.qualificationHash) =
      false := by
    cases hsome : plan.expectation with
    | none => rfl
    | some expected =>
      obtain ⟨-, -, -, -, hepoch, ⟨settled, hsettled', heq⟩, -⟩ := hexpected expected hsome
      rw [hepoch, hactivation, UInt64.sub_zero, hqualification] at hsettled'
      simp [heq, Option.some.inj hsettled']
  have hepoch : (plan.expectation.map (·.payoutEpoch)).getD
      (UInt64.ofNat k / p.timing.epochLength - 1 + 1) = UInt64.ofNat k / p.timing.epochLength := by
    cases hsome : plan.expectation with
    | none => simp
    | some expected =>
      obtain ⟨-, -, -, -, hepoch, -⟩ := hexpected expected hsome
      rw [hactivation, UInt64.sub_zero] at hepoch
      exact hepoch
  have hpay := plannedPayment_eq (b := entry.stored.block) rfl hvalidate
  rw [mappingOf, hnow]
  simp only [Except.toOption, Option.bind_eq_bind, Option.bind_some, htotal, ne_eq,
    not_true_eq_false, if_false, hpay, getEposeRewardSourceEpochV2_eq hp hfirst hheight, hsettled]
  rw [hhash, if_neg (by simp), hepoch, ConnectedBlock.mapping, hreward, hpayment]

lemma Ledger.Traced.idxOf?_eq (h : Ledger.Traced cr p history l)
    (hentry : history[k]? = some entry) :
    l.ids.idxOf? entry.stored.block.blockHash = some k ∧ l.blocks[k]? = some entry.stored := by
  have hstored : l.blocks[k]? = some entry.stored := by
    rw [h.blocks, List.getElem?_map, hentry]
    rfl
  refine ⟨?_, hstored⟩
  have hid : l.ids[k]? = some entry.stored.block.blockHash := by
    rw [Ledger.ids, List.getElem?_map, hstored]
    rfl
  obtain ⟨hlt, hget⟩ := List.getElem?_eq_some_iff.mp hid
  refine List.idxOf?_eq_some_iff.mpr ⟨hlt, hget, fun j hj heq => ?_⟩
  rw [← hget] at heq
  exact absurd ((List.Nodup.getElem_inj_iff h.nodup).mp heq) (by omega)

lemma Ledger.ConnectedAt.blockHash_ne {core : TransitionCoreV2}
    (h : Ledger.ConnectedAt cr p l k entry core) : entry.stored.block.blockHash ≠ nullHash := by
  obtain ⟨t, -, hconnect⟩ := h.connected
  obtain ⟨coinbase, plan, validated, signatures, hprepare, -, -⟩ := connectBlock_ok hconnect
  have hshape := (preparePayment_ok hprepare).2.1
  simp only [blockShapeValid, Bool.and_eq_true, decide_eq_true_eq] at hshape
  exact hshape.1.1.1.2

/-- What can be read back for a block at a later tip. -/
lemma getEposeBlockRewardMappingV2_eq_some_iff (h : Ledger.Traced cr p history l)
    (hentry : history[k]? = some entry)
    (hfirst : p.timing.firstPayoutHeight = some firstPayoutHeight)
    (hheight : firstPayoutHeight ≤ UInt64.ofNat k) (hasPrunable : Transaction → Bool) :
    ∃ qualification,
      entry.before.membership.qualification (UInt64.ofNat k / p.timing.epochLength - 1) =
        some qualification ∧
      ∀ mapping, l.getEposeBlockRewardMappingV2 cr p hasPrunable entry.stored.block.blockHash =
          some mapping ↔
        ((∀ tx ∈ entry.stored.block.transactions, hasPrunable tx = true) ∧
          (entry.stored.block.fees.map (·.toNat)).sum < 2 ^ 64 ∧ SurgeFits (l.blocks.take k)) ∧
          mapping = entry.mapping p.timing k qualification := by
  obtain ⟨calls, -, -, hentries⟩ := h.run
  obtain ⟨core, us, -, hat⟩ := hentries k entry hentry
  obtain ⟨hfound, hstored⟩ := h.idxOf?_eq hentry
  obtain ⟨qualification, hqualification, hmapping⟩ := mappingOf_eq h hentry hfirst hheight
  have hlength : k ≤ l.blocks.length := (List.getElem?_eq_some_iff.mp hstored).1.le
  refine ⟨qualification, hqualification, fun mapping => ?_⟩
  rw [Ledger.getEposeBlockRewardMappingV2, if_neg hat.blockHash_ne, hfound]
  simp only [Option.bind_eq_bind, Option.bind_some, hstored, hat.version, ne_eq,
    not_true_eq_false, or_self, if_false]
  by_cases hall : entry.stored.block.transactions.all hasPrunable = true
  · rw [if_neg (by simp [hall])]
    simp only [Option.bind_eq_some_iff, totalFees_eq_some_iff, Ledger.replaySubsidy, hat.version,
      Option.bind_eq_bind, replayMedian_eq_some_iff hlength]
    constructor
    · rintro ⟨_, ⟨hfees, rfl⟩, subsidy, ⟨medianWeight, ⟨hfits, hmedian⟩, hsubsidy⟩, h⟩
      rw [hmedian, hat.reward] at hsubsidy
      obtain rfl := Option.some.inj hsubsidy
      exact ⟨⟨List.all_eq_true.mp hall, hfees, hfits⟩,
        (Option.some.inj (hmapping.symm.trans h)).symm⟩
    · rintro ⟨⟨-, hfees, hfits⟩, rfl⟩
      exact ⟨entry.stored.block.fees.sum, ⟨hfees, rfl⟩, entry.subsidy,
        ⟨updateNextCumulativeWeightLimit hfVersionQwcEpose (l.blocks.take k), ⟨hfits, rfl⟩,
          hat.reward⟩, hmapping⟩
  · rw [if_pos (by simpa using hall)]
    simp only [reduceCtorEq, false_iff]
    rintro ⟨⟨hpresent, -⟩, -⟩
    exact hall (List.all_eq_true.mpr hpresent)

open Bytes

/-- `CRYPTONOTE_PRUNING_TIP_BLOCKS` -/
def pruningTipBlocks : ℕ := 5500
/-- `CRYPTONOTE_PRUNING_STRIPE_SIZE` -/
def pruningStripeSize : ℕ := 4096
/-- `CRYPTONOTE_PRUNING_LOG_STRIPES` -/
def pruningLogStripes : ℕ := 3

/-- `get_pruning_stripe` of a block; zero is kept by everyone. -/
def getPruningStripe (blockHeight blockchainHeight : ℕ) : ℕ :=
  if blockchainHeight ≤ blockHeight + pruningTipBlocks then 0
  else blockHeight / pruningStripeSize % 2 ^ pruningLogStripes + 1

/-- `has_unpruned_block`, for the stripe of a node; a node that does not prune has stripe zero. -/
def hasUnprunedBlock (blockHeight blockchainHeight stripe : ℕ) : Bool :=
  stripe = 0 || getPruningStripe blockHeight blockchainHeight = 0 ||
    getPruningStripe blockHeight blockchainHeight = stripe

/-- A transaction that spends a key. -/
def Transaction.sampleSpend : Transaction where
  version := 2
  unlockTime := 0
  vin := [.toKey 0 [1] (sampleKey 55)]
  vout := [⟨0, .toTaggedKey (sampleKey 56) 0⟩]
  extra := []
  signatures := [0]

/-- A chain with a transaction in the block at the first payout height, far below the tip. -/
lemma Ledger.exists_deepSpend : ∃ history l entry,
    Ledger.Runs .sample (.sample 3) history l ∧ history[6]? = some entry ∧
      entry.stored.block.transactions = [.sampleSpend] ∧ l.blocks.length = 5600 := by
  obtain ⟨history, l₁, hruns₁, hquiet₁⟩ :=
    Ledger.quiet_fresh.exists_runs .fresh (show 0 + 6 ≤ 2 ^ 64 by norm_num)
  obtain ⟨l₂, entry, hhandle, hquiet₂, htransactions⟩ := hquiet₁.exists_handleBlock (by norm_num)
    (show ∀ tx ∈ [Transaction.sampleSpend], _ by decide)
  obtain ⟨later, l₃, hruns₃, hquiet₃⟩ :=
    hquiet₂.exists_runs (hruns₁.handle hhandle) (show 0 + 6 + 1 + 5593 ≤ 2 ^ 64 by norm_num)
  have hlength : history.length = 6 := by
    have hblocks := congrArg List.length hruns₁.traced.blocks
    rw [hquiet₁.blocks, List.length_map] at hblocks
    exact hblocks.symm
  refine ⟨_, l₃, entry, hruns₃, ?_, htransactions, hquiet₃.blocks⟩
  simp [hlength]

end Qwertycoin
