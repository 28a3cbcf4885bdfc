import Qwertycoin.BlockTransition

/-
# The consensus coordinator

The coordinator derives from the settled state what the Coinbase of the next block must pay,
checks the Coinbase against it, and applies the block.
-/

namespace Qwertycoin

/-- `consensus_parameters_v2` -/
structure ConsensusParametersV2 extends TransitionParametersV2 where
  emptyPolicy : EmptyQualificationPolicyV2
  serviceRewardBps : UInt64
  stateCommitmentSchema : UInt8
deriving DecidableEq

/-- `consensus_parameters_v2::valid` -/
def ConsensusParametersV2.parametersValid (p : ConsensusParametersV2) : Bool :=
  p.net.valid && p.timing.valid && p.timing.activationHeight = 0 && p.admissionPolicy.valid &&
    p.committeePolicy.valid && p.limits.valid &&
    (p.emptyPolicy = .minerFallback || p.emptyPolicy = .permanentNonissuance) &&
    p.serviceRewardBps = eposeServiceRewardBpsV2 && p.stateCommitmentSchema = 1

/-- `valid_` of the coordinator. -/
def ConsensusParametersV2.valid (p : ConsensusParametersV2) : Bool :=
  p.parametersValid && p.toTransitionParametersV2.valid

/-! ## Compiled parameters -/

/-- `MAINNET_FINAL_GENESIS_HASH_V2` -/
def mainnetFinalGenesisHashV2 : Hash :=
  ⟨[0x4f, 0x95, 0x85, 0x75, 0x86, 0xe2, 0xc6, 0x60, 0x63, 0xc2, 0x77, 0x37, 0x0e, 0xda, 0x99, 0xcd,
    0x75, 0x89, 0x7d, 0x77, 0x3a, 0xf0, 0x9f, 0x0c, 0x3c, 0xd1, 0xe2, 0x2f, 0x7e, 0x87, 0xdb, 0x39],
    rfl⟩

/-- `MAINNET_FINAL_PARAMETER_SET_HASH_V2` -/
def mainnetFinalParameterSetHashV2 : Hash :=
  ⟨[0x2c, 0x26, 0x75, 0x50, 0x94, 0x53, 0x58, 0x71, 0xdd, 0x3e, 0xde, 0x7b, 0xd1, 0xb5, 0x0a, 0xba,
    0x82, 0xa9, 0xfb, 0x68, 0x31, 0xf0, 0xa1, 0x7f, 0x32, 0x96, 0x8e, 0xb0, 0x38, 0x51, 0x45, 0xc6],
    rfl⟩

/-- The parameters the release is compiled with. -/
def mainnetParametersV2 : ConsensusParametersV2 where
  net := ⟨.mainnet, mainnetFinalGenesisHashV2, mainnetFinalParameterSetHashV2⟩
  timing := ⟨0, 720, 60⟩
  admissionPolicy := ⟨.randomx, 18, 1⟩
  committeePolicy :=
    { committeeSize := 9, threshold := 6, roundCount := 3, roundsRequired := 2
      serviceKind := serviceKindCanonicalObject, roundOffsets := [0, 200, 400]
      maxActivePopulation := 100 }
  limits := mainnetLimitsV2
  emptyPolicy := .minerFallback
  serviceRewardBps := eposeServiceRewardBpsV2
  stateCommitmentSchema := 1

def compiledConsensusParametersV2 (nettype : NetworkType) (genesisHash : Hash) :
    Option ConsensusParametersV2 :=
  if nettype ≠ .mainnet ∨ genesisHash ≠ mainnetFinalGenesisHashV2 then none
  else if mainnetParametersV2.parametersValid then some mainnetParametersV2 else none

/-! ## Planning a reward -/

/-- `coordinator_status_v2`; `accepted` is the success of an `Except`. -/
inductive CoordinatorStatusV2
  | invalidConfiguration
  | invalidBlock
  | missingQualification
  | invalidPayoutState
  | unresolvedRewardPolicy
  | invalidCoinbaseAmount
  | invalidPaymentProof
  | transitionFailed
  | arithmeticOverflow
deriving DecidableEq

/-- `coordinator_reward_plan_v2`: the expectation is there when a service payee is. -/
structure CoordinatorRewardPlanV2 where
  allocation : RewardAllocationV2
  expectation : Option ServicePaymentExpectationV2
deriving DecidableEq

def CoordinatorRewardPlanV2.hasServicePayee (plan : CoordinatorRewardPlanV2) : Bool :=
  plan.expectation.isSome

namespace ConsensusCoordinatorV2

variable (cr : Crypto) (p : ConsensusParametersV2) (contexts : CanonicalContextSourceV2)

/-- Whether a descriptor is still the one that was frozen as a member. -/
def descriptorMatches (descriptor : IdentityDescriptorV2) (payee : PublicKey)
    (member : FrozenMemberV2) : Bool :=
  descriptor.servicePublicKey = payee && descriptor.sequence = member.sequence &&
    hashIdentityDescriptorV2 cr p.net descriptor = member.descriptorHash &&
    hashRewardBindingV2 cr p.net descriptor.rewardAddress = member.rewardBindingHash

/-- The payee of a payout block and the address the state binds it to. -/
def servicePayee (s : SemanticStateV2) (qualification : QualificationSetV2)
    (payoutEpoch sourceEpoch height : UInt64) :
    Except CoordinatorStatusV2 (PublicKey × AccountPublicAddress) :=
  match (p.timing.committeeAnchor payoutEpoch).bind contexts.blockHash with
  | none => .error .invalidPayoutState
  | some payoutSeed =>
    if payoutSeed = nullHash then .error .invalidPayoutState
    else
      match selectServicePayeeV2 cr qualification payoutSeed p.net.genesisHash
        p.net.parameterSetHash p.timing payoutEpoch height with
      | .error _ => .error .invalidPayoutState
      | .ok payee =>
        match s.membership.snapshot sourceEpoch with
        | none => .error .invalidPayoutState
        | some snapshot =>
          match snapshot.members.find? fun candidate => candidate.servicePublicKey = payee with
          | none => .error .invalidPayoutState
          | some member =>
            match s.lifecycle.descriptorForEpoch member.identityId sourceEpoch with
            | none => .error .invalidPayoutState
            | some descriptor =>
              if !descriptorMatches cr p descriptor payee member then .error .invalidPayoutState
              else .ok (payee, descriptor.rewardAddress)

/-- The payee that is due, if any node qualified. -/
def duePayee (s : SemanticStateV2) (qualification : QualificationSetV2)
    (payoutEpoch sourceEpoch height : UInt64) :
    Except CoordinatorStatusV2 (Option (PublicKey × AccountPublicAddress)) :=
  if qualification.qualifiedNodes = [] then .ok none
  else some <$> servicePayee cr p contexts s qualification payoutEpoch sourceEpoch height

/-- The allocation before the first payout: everything goes to the miner. -/
def minerAllocation (scheduledSubsidy transactionFees coinbaseTotal : UInt64) :
    RewardAllocationV2 :=
  { scheduledSubsidy, transactionFees, minerSubsidy := scheduledSubsidy
    minerFees := transactionFees, issuedSubsidy := scheduledSubsidy
    emissionAdvance := scheduledSubsidy, coinbaseTotal }

def planReward (s : SemanticStateV2) (height : UInt64) (parentHash : Hash)
    (scheduledSubsidy transactionFees : UInt64) :
    Except CoordinatorStatusV2 CoordinatorRewardPlanV2 :=
  if !p.valid then .error .invalidConfiguration
  else
    match p.timing.firstPayoutHeight with
    | none => .error .arithmeticOverflow
    | some firstPayoutHeight =>
      if height < firstPayoutHeight then
        match checkedAdd scheduledSubsidy transactionFees with
        | none => .error .arithmeticOverflow
        | some coinbaseTotal =>
          .ok ⟨minerAllocation scheduledSubsidy transactionFees coinbaseTotal, none⟩
      else if height < p.timing.activationHeight ∨ parentHash = nullHash then .error .invalidBlock
      else
        let payoutEpoch := (height - p.timing.activationHeight) / p.timing.epochLength
        if payoutEpoch = 0 then .error .invalidPayoutState
        else
          let sourceEpoch := payoutEpoch - 1
          match s.membership.qualification sourceEpoch with
          | none => .error .missingQualification
          | some qualification => do
            let payee ← duePayee cr p contexts s qualification payoutEpoch sourceEpoch height
            match calculateRewardAllocationV2 scheduledSubsidy transactionFees payee.isSome
              p.emptyPolicy p.serviceRewardBps with
            | .error .unresolvedEmptyPolicy => .error .unresolvedRewardPolicy
            | .error _ => .error .arithmeticOverflow
            | .ok allocation =>
              .ok ⟨allocation, payee.map fun (payeeServicePublicKey, rewardAddress) =>
                { net := p.net, height, parentHash, payoutEpoch
                  qualificationHash := qualification.qualificationHash
                  payeeServicePublicKey, rewardAddress
                  serviceReward := allocation.serviceReward }⟩

end ConsensusCoordinatorV2

/-! ## Connecting a block -/

structure CoordinatorBlockV2 where
  majorVersion : UInt8
  height : UInt64
  blockHash : Hash
  parentHash : Hash
  scheduledSubsidy : UInt64
  transactionFees : UInt64
  /-- `none` is the null pointer. -/
  coinbase : Option Transaction
  transactions : List (Option Transaction)
deriving DecidableEq

structure CoordinatorResultV2 where
  reward : RewardAllocationV2
  payment : Option ServicePaymentContextV2
  transition : BlockApplySummaryV2
  stateCommitmentSchema : UInt8
  stateHash : Hash
  parameterSetHash : Hash
deriving DecidableEq

namespace ConsensusCoordinatorV2

variable (cr : Crypto) (p : ConsensusParametersV2) (contexts : CanonicalContextSourceV2)

/-- The checks of `connect_block` on the block as such. -/
def blockShapeValid (block : CoordinatorBlockV2) : Bool :=
  isQwcEposeV2Hardfork block.majorVersion && block.blockHash ≠ nullHash &&
    (block.height = p.timing.activationHeight || block.parentHash ≠ nullHash) &&
    block.coinbase.any isCoinbase &&
    block.transactions.all fun transaction => transaction.any (!isCoinbase ·)

/-- The block as `apply_block` receives it. -/
def transitionInput (block : CoordinatorBlockV2) (coinbase : Transaction)
    (validated : Option ValidatedServicePaymentV2) : BlockInputV2 where
  majorVersion := block.majorVersion
  height := block.height
  blockHash := block.blockHash
  transactions := ⟨some coinbase, true, none, validated⟩ ::
    block.transactions.map fun transaction => ⟨transaction, false, none, none⟩

/-- The Coinbase payment of a block: its validated form, if a payee is due, and the signatures
that were checked for it. -/
def validatePayment (block : CoordinatorBlockV2) (coinbase : Transaction)
    (plan : CoordinatorRewardPlanV2) :
    Except CoordinatorStatusV2 (Option ValidatedServicePaymentV2 × ℕ) :=
  match plan.expectation with
  | none => .ok (none, 0)
  | some expected =>
    if plan.allocation.serviceReward = 0 then .error .invalidPayoutState
    else
      match validateCoinbaseServicePaymentV2 cr (p.extraLimits block.majorVersion) coinbase
        expected with
      | (.error _, _) => .error .invalidPaymentProof
      | (.ok validated, signatures) => .ok (some validated, signatures)

/-- What `connect_block` establishes before it touches the state. -/
def preparePayment (s : SemanticStateV2) (block : CoordinatorBlockV2) :
    Except CoordinatorStatusV2
      (Transaction × CoordinatorRewardPlanV2 × Option ValidatedServicePaymentV2 × ℕ) :=
  if !p.valid then .error .invalidConfiguration
  else if !blockShapeValid p block then .error .invalidBlock
  else
    match block.coinbase with
    | none => .error .invalidBlock
    | some coinbase => do
      let plan ← planReward cr p contexts s block.height block.parentHash
        block.scheduledSubsidy block.transactionFees
      match sumOutputs coinbase.vout 0 with
      | none => .error .arithmeticOverflow
      | some actualCoinbaseTotal =>
        if actualCoinbaseTotal ≠ plan.allocation.coinbaseTotal then .error .invalidCoinbaseAmount
        else do
          let (validated, signatures) ← validatePayment cr p block coinbase plan
          return (coinbase, plan, validated, signatures)

/-- `disconnect_tip` of the coordinator. -/
def disconnectTip (t : BlockTransitionV2) (height : UInt64) :
    BlockTransitionV2 × BlockTransitionStatusV2 :=
  t.disconnectTip p.toTransitionParametersV2 height

/-- The part of `connect_block` after the payment was checked: the block is applied, and when a
payee is due the verification of its proof is accounted for; a failure of that disconnects the
block again. -/
def settleBlock (t : BlockTransitionV2) (block : CoordinatorBlockV2) (coinbase : Transaction)
    (plan : CoordinatorRewardPlanV2) (validated : Option ValidatedServicePaymentV2)
    (paymentSignatures : ℕ) : BlockTransitionV2 × Except CoordinatorStatusV2 CoordinatorResultV2 :=
  let applied := t.applyBlock cr p.toTransitionParametersV2 contexts
    (transitionInput block coinbase validated)
  let undone := (disconnectTip p applied.transition block.height).1
  let result (signatures : ℕ) : CoordinatorResultV2 :=
    { reward := plan.allocation, payment := validated.map (·.context)
      transition := { applied.summary with
        semantic := { applied.summary.semantic with
          verifications := { applied.summary.semantic.verifications with signatures } } }
      stateCommitmentSchema := p.stateCommitmentSchema
      stateHash := applied.transition.state.stateHash cr p.toSemanticParametersV2
      parameterSetHash := p.net.parameterSetHash }
  let signatures := applied.summary.semantic.verifications.signatures
  if applied.status ≠ .accepted then (applied.transition, .error .transitionFailed)
  else if !plan.hasServicePayee then (applied.transition, .ok (result signatures))
  else if paymentSignatures ≠ 1 then (undone, .error .transitionFailed)
  else if sizeMax - paymentSignatures < signatures then (undone, .error .arithmeticOverflow)
  else if applied.summary.charged.signatureVerifications < signatures + paymentSignatures then
    (undone, .error .transitionFailed)
  else (applied.transition, .ok (result (signatures + paymentSignatures)))

/-- `connect_block`: the coordinator after the call, and the result. -/
def connectBlock (t : BlockTransitionV2) (block : CoordinatorBlockV2) :
    BlockTransitionV2 × Except CoordinatorStatusV2 CoordinatorResultV2 :=
  match preparePayment cr p contexts t.state block with
  | .error status => (t, .error status)
  | .ok (coinbase, plan, validated, paymentSignatures) =>
    settleBlock cr p contexts t block coinbase plan validated paymentSignatures

section Connect

variable {cr p contexts} {s : SemanticStateV2} {t : BlockTransitionV2} {block : CoordinatorBlockV2}

lemma preparePayment_ok {coinbase : Transaction} {plan : CoordinatorRewardPlanV2}
    {validated : Option ValidatedServicePaymentV2} {signatures : ℕ}
    (h : preparePayment cr p contexts s block = .ok (coinbase, plan, validated, signatures)) :
    block.coinbase = some coinbase ∧ blockShapeValid p block = true ∧
      planReward cr p contexts s block.height block.parentHash block.scheduledSubsidy
        block.transactionFees = .ok plan ∧
      sumOutputs coinbase.vout 0 = some plan.allocation.coinbaseTotal ∧
      validatePayment cr p block coinbase plan = .ok (validated, signatures) := by
  unfold preparePayment at h
  split at h
  · cases h
  split at h
  · cases h
  rename_i hshape
  split at h
  · cases h
  rename_i coinbase' hcoinbase
  obtain ⟨plan', hplan, h⟩ := except_bind_eq_ok_iff.mp h
  split at h
  · cases h
  rename_i total hsum
  split at h
  · cases h
  rename_i htotal
  obtain ⟨⟨validated', signatures'⟩, hvalidate, h⟩ := except_bind_eq_ok_iff.mp h
  cases h
  exact ⟨hcoinbase, by simpa using hshape, hplan, not_not.mp htotal ▸ hsum, hvalidate⟩

/-- When a payee is due, the payment of the block was verified with one signature. -/
lemma validatePayment_ok {coinbase : Transaction} {plan : CoordinatorRewardPlanV2}
    {validated : Option ValidatedServicePaymentV2} {signatures : ℕ}
    (h : validatePayment cr p block coinbase plan = .ok (validated, signatures)) :
    (plan.expectation = none ∧ validated = none ∧ signatures = 0) ∨
      ∃ expected payment proof, plan.expectation = some expected ∧ validated = some payment ∧
        PaysService cr (p.extraLimits block.majorVersion) coinbase expected payment.context proof ∧
        signatures = 1 := by
  unfold validatePayment at h
  split at h
  · rename_i hnone
    cases h
    exact Or.inl ⟨hnone, rfl, rfl⟩
  · rename_i expected hsome
    split at h
    · cases h
    split at h
    · cases h
    rename_i payment signatures' hvalidate
    cases h
    obtain ⟨⟨proof, hpays⟩, hone⟩ := validateCoinbaseServicePaymentV2_ok hvalidate
    exact Or.inr ⟨expected, payment, proof, hsome, rfl, hpays, hone⟩

lemma connectBlock_of_error {status : CoordinatorStatusV2}
    (h : preparePayment cr p contexts t.state block = .error status) :
    connectBlock cr p contexts t block = (t, .error status) := by
  delta connectBlock
  rw [h]

lemma connectBlock_of_prepared {coinbase : Transaction} {plan : CoordinatorRewardPlanV2}
    {validated : Option ValidatedServicePaymentV2} {signatures : ℕ}
    (h : preparePayment cr p contexts t.state block = .ok (coinbase, plan, validated, signatures)) :
    connectBlock cr p contexts t block =
      settleBlock cr p contexts t block coinbase plan validated signatures := by
  delta connectBlock
  rw [h]

end Connect

end ConsensusCoordinatorV2

end Qwertycoin
