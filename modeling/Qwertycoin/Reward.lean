import Qwertycoin.RecordCodec
import Qwertycoin.Transaction

/-
# Service rewards

The service reward of a block is a share of its subsidy.  It goes to one of the nodes that
qualified in the epoch before, chosen by a rotation over the qualified nodes in the order of
their scores.  The Coinbase proves that it pays the reward: it carries one proof record, whose
derivation must produce the keys of outputs that sum to exactly the reward.
-/

namespace Qwertycoin

open Bytes

/-- `EPOSE_SERVICE_REWARD_BPS_V2` -/
def eposeServiceRewardBpsV2 : UInt64 := 1000

/-- `empty_qualification_policy_v2` -/
inductive EmptyQualificationPolicyV2
  | unset
  | minerFallback
  | permanentNonissuance
deriving DecidableEq

/-- `reward_status_v2`; `accepted` is the success of an `Except`. -/
inductive RewardStatusV2
  | invalidBasisPoints
  | unresolvedEmptyPolicy
  | arithmeticOverflow
  | invalidHeight
  | emptyQualification
  | invalidContext
  | invalidTransactionKey
  | invalidDerivation
  | invalidOutputAllocation
  | invalidPaymentProof
deriving DecidableEq

def basisPoints (amount bps : UInt64) : UInt64 :=
  amount / 10000 * bps + amount % 10000 * bps / 10000

section BasisPoints

variable (amount : UInt64) {bps : UInt64}

/-- The two products that a share is computed from, and their sum, stay below the amount. -/
lemma basisPoints_fits (hbps : bps ≤ 10000) :
    amount.toNat / 10000 * bps.toNat < 2 ^ 64 ∧ amount.toNat % 10000 * bps.toNat < 2 ^ 64 ∧
      amount.toNat / 10000 * bps.toNat + amount.toNat % 10000 * bps.toNat / 10000 ≤
        amount.toNat := by
  have hamount := amount.toNat_lt
  have hbps : bps.toNat ≤ 10000 := UInt64.le_iff_toNat_le.mp hbps
  have hdiv := Nat.div_add_mod amount.toNat 10000
  have hmod := Nat.mod_lt amount.toNat (show 0 < 10000 by norm_num)
  have hquotient := Nat.mul_le_mul_left (amount.toNat / 10000) hbps
  have hremainder := Nat.mul_le_mul_left (amount.toNat % 10000) hbps
  omega

lemma toNat_basisPoints (hbps : bps ≤ 10000) :
    (basisPoints amount bps).toNat = amount.toNat * bps.toNat / 10000 := by
  obtain ⟨hquotient, hremainder, hsum⟩ := basisPoints_fits amount hbps
  have hamount := amount.toNat_lt
  have hunit : (10000 : UInt64).toNat = 10000 := rfl
  simp only [basisPoints, UInt64.toNat_add, UInt64.toNat_mul, UInt64.toNat_div, UInt64.toNat_mod,
    hunit]
  rw [Nat.mod_eq_of_lt hquotient, Nat.mod_eq_of_lt hremainder, Nat.mod_eq_of_lt (by omega)]
  calc amount.toNat / 10000 * bps.toNat + amount.toNat % 10000 * bps.toNat / 10000
      = (amount.toNat % 10000 * bps.toNat + 10000 * (amount.toNat / 10000 * bps.toNat)) / 10000 := by
        rw [Nat.add_mul_div_left _ _ (by norm_num), Nat.add_comm]
    _ = (10000 * (amount.toNat / 10000) + amount.toNat % 10000) * bps.toNat / 10000 := by
        congr 1
        ring
    _ = amount.toNat * bps.toNat / 10000 := by rw [Nat.div_add_mod]

lemma toNat_basisPoints_le (hbps : bps ≤ 10000) :
    (basisPoints amount bps).toNat ≤ amount.toNat := by
  rw [toNat_basisPoints amount hbps]
  refine Nat.div_le_of_le_mul ?_
  rw [Nat.mul_comm]
  exact Nat.mul_le_mul_right _ (UInt64.le_iff_toNat_le.mp hbps)

end BasisPoints

/-- How a subsidy is divided. -/
structure SubsidySplit where
  minerSubsidy : UInt64 := 0
  serviceReward : UInt64 := 0
  permanentlyUnissued : UInt64 := 0
deriving DecidableEq

/-- `reward_allocation_v2` -/
structure RewardAllocationV2 extends SubsidySplit where
  scheduledSubsidy : UInt64 := 0
  transactionFees : UInt64 := 0
  minerFees : UInt64 := 0
  issuedSubsidy : UInt64 := 0
  coinbaseTotal : UInt64 := 0
  emissionAdvance : UInt64 := 0
deriving DecidableEq

def splitSubsidy (scheduledSubsidy serviceAllocation : UInt64) (hasQualifiedPayee : Bool)
    (emptyPolicy : EmptyQualificationPolicyV2) : Except RewardStatusV2 SubsidySplit :=
  if hasQualifiedPayee then .ok ⟨scheduledSubsidy - serviceAllocation, serviceAllocation, 0⟩
  else
    match emptyPolicy with
    | .unset => .error .unresolvedEmptyPolicy
    | .minerFallback => .ok ⟨scheduledSubsidy, 0, 0⟩
    | .permanentNonissuance => .ok ⟨scheduledSubsidy - serviceAllocation, 0, serviceAllocation⟩

/-- The value of a checked computation, or the status of its failure. -/
def okOr {ε α : Type} (status : ε) : Option α → Except ε α
  | none => .error status
  | some value => .ok value

lemma okOr_eq_ok_iff {ε α : Type} {status : ε} {x : Option α} {value : α} :
    okOr status x = .ok value ↔ x = some value := by
  cases x <;> simp [okOr]

def calculateRewardAllocationV2 (scheduledSubsidy transactionFees : UInt64)
    (hasQualifiedPayee : Bool) (emptyPolicy : EmptyQualificationPolicyV2)
    (serviceRewardBps : UInt64) : Except RewardStatusV2 RewardAllocationV2 :=
  if 10000 < serviceRewardBps then .error .invalidBasisPoints
  else do
    let split ← splitSubsidy scheduledSubsidy (basisPoints scheduledSubsidy serviceRewardBps)
      hasQualifiedPayee emptyPolicy
    let issuedSubsidy ← okOr .arithmeticOverflow (checkedAdd split.minerSubsidy split.serviceReward)
    let coinbaseTotal ← okOr .arithmeticOverflow (checkedAdd issuedSubsidy transactionFees)
    return { split with
      scheduledSubsidy, transactionFees, minerFees := transactionFees, issuedSubsidy
      coinbaseTotal, emissionAdvance := scheduledSubsidy }

/-! ## The payee -/

/-- The score of a qualified node in a payout epoch. -/
def payoutScore (cr : Crypto) (qualification : QualificationSetV2) (payoutSeed genesisHash
    parameterSetHash : Hash) (payoutEpoch : UInt64) (key : PublicKey) : Hash :=
  cr.cnFastHash (ascii "QWC_EPOSE_PAYOUT_V2" ++ genesisHash.data ++ parameterSetHash.data ++
    u64 qualification.epoch ++ qualification.qualificationHash.data ++ u64 payoutEpoch ++
    payoutSeed.data ++ key.data)

/-- The order of the rotation: score, then key. -/
def rankedLess (left right : Hash × PublicKey) : Bool :=
  if left.1 ≠ right.1 then memLess left.1.data right.1.data
  else memLess left.2.data right.2.data

/-- The keys in `seen` are valid and pairwise different. -/
def distinctValidKeys (cr : Crypto) : List PublicKey → List PublicKey → Bool
  | [], _ => true
  | key :: keys, seen =>
    if !cr.validKey key || seen.contains key then false
    else distinctValidKeys cr keys (seen ++ [key])

def selectServicePayeeV2 (cr : Crypto) (qualification : QualificationSetV2)
    (payoutSeed genesisHash parameterSetHash : Hash) (timing : EpochTimingV2)
    (payoutEpoch height : UInt64) : Except RewardStatusV2 PublicKey :=
  if qualification.qualifiedNodes = [] then .error .emptyQualification
  else
    match checkedAdd qualification.epoch 1, timing.epochStart payoutEpoch,
      timing.epochEnd payoutEpoch with
    | some expectedPayoutEpoch, some payoutEpochStart, some payoutEpochEnd =>
      if payoutEpoch ≠ expectedPayoutEpoch ∨ timing.valid = false ∨ payoutSeed = nullHash ∨
          genesisHash = nullHash ∨ parameterSetHash = nullHash ∨
          qualification.snapshotHash = nullHash ∨ qualification.qualificationHash = nullHash ∨
          qualification.closedHeight = 0 then .error .invalidContext
      else if height < payoutEpochStart ∨ payoutEpochEnd < height then .error .invalidHeight
      else if !distinctValidKeys cr qualification.qualifiedNodes [] then .error .invalidContext
      else
        let nodes := (qualification.qualifiedNodes.map fun key =>
          (payoutScore cr qualification payoutSeed genesisHash parameterSetHash payoutEpoch key,
            key)).insertionSort fun left right => rankedLess right left = false
        match nodes[(height - payoutEpochStart).toNat % nodes.length]? with
        | some (_, key) => .ok key
        | none => .error .invalidContext
    | _, _, _ => .error .invalidContext

/-! ## The payment context -/

structure ServicePaymentOutputV2 where
  outputIndex : UInt32
  amount : UInt64
  outputPublicKey : PublicKey
deriving DecidableEq

/-- `service_payment_expectation_v2`: what the state prescribes for the payment of a block. -/
structure ServicePaymentExpectationV2 where
  net : Scope
  height : UInt64
  parentHash : Hash
  payoutEpoch : UInt64
  qualificationHash : Hash
  payeeServicePublicKey : PublicKey
  rewardAddress : AccountPublicAddress
  serviceReward : UInt64
deriving DecidableEq

/-- `service_payment_context_v2`: the expectation together with what the Coinbase does. -/
structure ServicePaymentContextV2 extends ServicePaymentExpectationV2 where
  transactionPublicKey : PublicKey
  coinbaseCommitment : Hash
  outputs : List ServicePaymentOutputV2
deriving DecidableEq

/-- The loop of `context_shape_valid` over the outputs: their sum, if they are well formed, from
the sum, the previous index and the keys seen so far. -/
def paymentOutputsSum (cr : Crypto) : List ServicePaymentOutputV2 → UInt64 → Option UInt32 →
    List PublicKey → Option UInt64
  | [], sum, _, _ => some sum
  | output :: outputs, sum, previousIndex, keys =>
    if !cr.validKey output.outputPublicKey || output.amount = 0 ||
        previousIndex.any (output.outputIndex ≤ ·) then none
    else do
      let sum ← checkedAdd sum output.amount
      if keys.contains output.outputPublicKey then none
      else
        paymentOutputsSum cr outputs sum (some output.outputIndex)
          (keys ++ [output.outputPublicKey])

def contextShapeValid (cr : Crypto) (context : ServicePaymentContextV2) : Bool :=
  context.net.valid && context.parentHash ≠ nullHash && context.qualificationHash ≠ nullHash &&
    context.coinbaseCommitment ≠ nullHash && context.serviceReward ≠ 0 && context.outputs ≠ [] &&
    cr.validKey context.payeeServicePublicKey &&
    cr.validKey context.rewardAddress.viewPublicKey &&
    cr.validKey context.rewardAddress.spendPublicKey &&
    cr.validKey context.transactionPublicKey &&
    paymentOutputsSum cr context.outputs 0 none [] = some context.serviceReward

def hashServicePaymentContextV2 (cr : Crypto) (context : ServicePaymentContextV2)
    (derivation : PublicKey) : Hash :=
  cr.cnFastHash (ascii "QWC_EPOSE_PAYMENT_PROOF_V2" ++ context.net.bytes ++ u64 context.height ++
    context.parentHash.data ++ u64 context.payoutEpoch ++ context.qualificationHash.data ++
    context.payeeServicePublicKey.data ++ context.rewardAddress.viewPublicKey.data ++
    context.rewardAddress.spendPublicKey.data ++ u64 context.serviceReward ++
    context.transactionPublicKey.data ++ context.coinbaseCommitment.data ++
    u64 (UInt64.ofNat context.outputs.length) ++
    (context.outputs.flatMap fun output => u32 output.outputIndex ++ u64 output.amount ++
      output.outputPublicKey.data) ++ derivation.data)

/-- The secret key `one` of `cofactor_cleared_view_key`. -/
def scalarOne : SecretKey := ⟨1 :: List.replicate 31 0, rfl⟩

def cofactorClearedViewKey (cr : Crypto) (viewKey : PublicKey) : Option PublicKey :=
  cr.generateKeyDerivation viewKey scalarOne

/-- Every output of a context has the key that the derivation gives at its index. -/
def outputsDerived (cr : Crypto) (context : ServicePaymentContextV2)
    (derivation : KeyDerivation) : Bool :=
  context.outputs.all fun output =>
    cr.derivePublicKey derivation output.outputIndex.toNat context.rewardAddress.spendPublicKey =
      some output.outputPublicKey

def generateScopedPaymentProofV2 (cr : Crypto) (context : ServicePaymentContextV2)
    (transactionSecretKey : SecretKey) : Except RewardStatusV2 ScopedPaymentProofV2 :=
  if !contextShapeValid cr context then .error .invalidContext
  else if cr.secretKeyToPublicKey transactionSecretKey ≠ some context.transactionPublicKey then
    .error .invalidTransactionKey
  else
    match cr.generateKeyDerivation context.rewardAddress.viewPublicKey transactionSecretKey with
    | none => .error .invalidDerivation
    | some derivation =>
      if !outputsDerived cr context derivation then .error .invalidOutputAllocation
      else
        let transcript := hashServicePaymentContextV2 cr context derivation
        match cofactorClearedViewKey cr context.rewardAddress.viewPublicKey with
        | none => .error .invalidDerivation
        | some clearedViewKey =>
          .ok ⟨derivation, cr.generateTxProof transcript context.transactionPublicKey
            clearedViewKey derivation transactionSecretKey⟩

/-- `verify_scoped_payment_proof_v2`: the verdict and the number of signatures checked. -/
def verifyScopedPaymentProofV2 (cr : Crypto) (context : ServicePaymentContextV2)
    (proof : ScopedPaymentProofV2) : Except RewardStatusV2 Unit × ℕ :=
  if !contextShapeValid cr context then (.error .invalidContext, 0)
  else if !cr.validKey proof.derivation then (.error .invalidDerivation, 0)
  else
    let transcript := hashServicePaymentContextV2 cr context proof.derivation
    match cofactorClearedViewKey cr context.rewardAddress.viewPublicKey with
    | none => (.error .invalidDerivation, 0)
    | some clearedViewKey =>
      if !cr.checkTxProof transcript context.transactionPublicKey clearedViewKey
          proof.derivation proof.proof then (.error .invalidPaymentProof, 1)
      else if !outputsDerived cr context proof.derivation then
        (.error .invalidOutputAllocation, 1)
      else (.ok (), 1)

/-! ## The Coinbase -/

/-- The limits under which the extra field of a transaction is parsed. -/
structure ExtraLimits where
  majorVersion : UInt8
  maxEnvelopesPerTransaction : ℕ
  envelope : EnvelopeLimitsV2
deriving DecidableEq

/-- `parse_transaction_extra_v2` under bundled limits. -/
def ExtraLimits.parse (limits : ExtraLimits) (extra : List UInt8) :
    Except EnvelopeStatusV2 (List EnvelopeRecordV2 × EnvelopeBudgetV2) :=
  parseTransactionExtraV2 extra limits.majorVersion limits.maxEnvelopesPerTransaction
    limits.envelope

/-- `canonical_coinbase_commitment_v2`: the hash of the Coinbase without its payment proofs, and
how many were left out. -/
def canonicalCoinbaseCommitmentV2 (cr : Crypto) (limits : ExtraLimits) (coinbase : Transaction) :
    Except RewardStatusV2 (Hash × ℕ) :=
  if !isCoinbase coinbase then .error .invalidContext
  else
    match stripTransactionRecordTypeV2 coinbase.extra limits.majorVersion
      limits.maxEnvelopesPerTransaction limits.envelope .servicePaymentProof with
    | .error _ => .error .invalidContext
    | .ok (strippedExtra, removed) =>
      let bytes := txToBlob { coinbase with extra := strippedExtra }
      if bytes = [] then .error .invalidContext
      else
        let commitment := cr.cnFastHash bytes
        if commitment = nullHash then .error .invalidContext else .ok (commitment, removed)

/-- The outputs whose key the derivation gives at their index.  The verifier refuses such an
output with a zero amount, the producer does not look at amounts. -/
def paymentOutputs (cr : Crypto) (derivation : KeyDerivation) (spendPublicKey : PublicKey)
    (refuseZero : Bool) : List TxOut → ℕ → Except RewardStatusV2 (List ServicePaymentOutputV2)
  | [], _ => .ok []
  | out :: outs, index =>
    if 0xffffffff < index then .error .invalidOutputAllocation
    else
      match getOutputPublicKey out with
      | none => .error .invalidOutputAllocation
      | some outputPublicKey =>
        match cr.derivePublicKey derivation index spendPublicKey with
        | none => .error .invalidDerivation
        | some expectedOutputKey =>
          if outputPublicKey = expectedOutputKey then
            if refuseZero && out.amount = 0 then .error .invalidOutputAllocation
            else do
              let outputs ← paymentOutputs cr derivation spendPublicKey refuseZero outs (index + 1)
              return ⟨UInt32.ofNat index, out.amount, outputPublicKey⟩ :: outputs
          else paymentOutputs cr derivation spendPublicKey refuseZero outs (index + 1)

/-- The record loop of `verify_coinbase_service_payment_v2`: the only payment proof. -/
def findPaymentProof : List EnvelopeRecordV2 → Option ScopedPaymentProofV2 →
    Except RewardStatusV2 (Option ScopedPaymentProofV2)
  | [], found => .ok found
  | record :: records, found =>
    if record.type ≠ RecordTypeV2.servicePaymentProof.code then findPaymentProof records found
    else
      match found, decodePaymentProofRecordStructureV2 record with
      | none, .ok proof => findPaymentProof records (some proof)
      | _, _ => .error .invalidPaymentProof

/-- The parts of an expectation that are checked before the Coinbase is read. -/
def expectationValid (cr : Crypto) (expected : ServicePaymentExpectationV2) : Bool :=
  expected.net.valid && expected.parentHash ≠ nullHash &&
    expected.qualificationHash ≠ nullHash && expected.serviceReward ≠ 0 &&
    cr.validKey expected.payeeServicePublicKey &&
    cr.validKey expected.rewardAddress.viewPublicKey &&
    cr.validKey expected.rewardAddress.spendPublicKey

/-- The context `verify_coinbase_service_payment_v2` builds, with the proof it found. -/
def coinbasePaymentContext (cr : Crypto) (limits : ExtraLimits) (coinbase : Transaction)
    (expected : ServicePaymentExpectationV2) :
    Except RewardStatusV2 (ServicePaymentContextV2 × ScopedPaymentProofV2) :=
  if !isCoinbase coinbase || !expectationValid cr expected then .error .invalidContext
  else
    match limits.parse coinbase.extra with
    | .error _ => .error .invalidContext
    | .ok (records, _) => do
      match ← findPaymentProof records none with
      | none => .error .invalidPaymentProof
      | some proof =>
        let transactionPublicKey := getTxPubKeyFromExtra coinbase.extra
        if !cr.validKey proof.derivation then .error .invalidPaymentProof
        else if !cr.validKey transactionPublicKey then .error .invalidTransactionKey
        else
          match canonicalCoinbaseCommitmentV2 cr limits coinbase with
          | .error _ => .error .invalidPaymentProof
          | .ok (coinbaseCommitment, removed) =>
            if removed ≠ 1 then .error .invalidPaymentProof
            else do
              let outputs ← paymentOutputs cr proof.derivation
                expected.rewardAddress.spendPublicKey true coinbase.vout 0
              return ({ expected with transactionPublicKey, coinbaseCommitment, outputs }, proof)

/-- `verify_coinbase_service_payment_v2`: the context and the number of signatures checked. -/
def verifyCoinbaseServicePaymentV2 (cr : Crypto) (limits : ExtraLimits) (coinbase : Transaction)
    (expected : ServicePaymentExpectationV2) : Except RewardStatusV2 ServicePaymentContextV2 × ℕ :=
  match coinbasePaymentContext cr limits coinbase expected with
  | .error status => (.error status, 0)
  | .ok (context, proof) =>
    match verifyScopedPaymentProofV2 cr context proof with
    | (.error _, signatures) => (.error .invalidPaymentProof, signatures)
    | (.ok (), signatures) => (.ok context, signatures)

/-- `validated_service_payment_v2` -/
structure ValidatedServicePaymentV2 where
  context : ServicePaymentContextV2
  recordHash : Hash
deriving DecidableEq

def paymentRecordHash (cr : Crypto) (record : EnvelopeRecordV2) : Hash :=
  cr.cnFastHash (ascii "QWC_EPOSE_VALIDATED_PAYMENT_RECORD_V2" ++ [record.type, record.version] ++
    u64 (UInt64.ofNat record.payload.length) ++ record.payload)

/-- `matches` of a validated payment. -/
def ValidatedServicePaymentV2.matchesRecord (cr : Crypto) (validated : ValidatedServicePaymentV2)
    (record : EnvelopeRecordV2) : Bool :=
  validated.recordHash ≠ nullHash && paymentRecordHash cr record = validated.recordHash

/-- `validate_coinbase_service_payment_v2` -/
def validateCoinbaseServicePaymentV2 (cr : Crypto) (limits : ExtraLimits)
    (coinbase : Transaction) (expected : ServicePaymentExpectationV2) :
    Except RewardStatusV2 ValidatedServicePaymentV2 × ℕ :=
  match verifyCoinbaseServicePaymentV2 cr limits coinbase expected with
  | (.error status, signatures) => (.error status, signatures)
  | (.ok context, signatures) =>
    match limits.parse coinbase.extra with
    | .error _ => (.error .invalidPaymentProof, signatures)
    | .ok (records, _) =>
      match records.find? fun record =>
        record.type = RecordTypeV2.servicePaymentProof.code with
      | none => (.error .invalidPaymentProof, signatures)
      | some proof => (.ok ⟨context, paymentRecordHash cr proof⟩, signatures)

/-- `decode_payment_proof_record_v2`: the verdict and the number of signatures checked. -/
def decodePaymentProofRecordV2 (cr : Crypto) (record : EnvelopeRecordV2)
    (context : ServicePaymentContextV2) : Except RecordCodecStatusV2 ScopedPaymentProofV2 × ℕ :=
  match decodePaymentProofRecordStructureV2 record with
  | .error status => (.error status, 0)
  | .ok proof =>
    match verifyScopedPaymentProofV2 cr context proof with
    | (.error _, signatures) => (.error .invalidRecord, signatures)
    | (.ok (), signatures) => (.ok proof, signatures)

/-- `encode_payment_proof_record_v2` -/
def encodePaymentProofRecordV2 (cr : Crypto) (proof : ScopedPaymentProofV2)
    (context : ServicePaymentContextV2) : Except RecordCodecStatusV2 EnvelopeRecordV2 :=
  match (verifyScopedPaymentProofV2 cr context proof).1 with
  | .error _ => .error .invalidRecord
  | .ok () =>
    if proof.payload.length ≠ paymentProofPayloadBytesV2 then .error .wrongSize
    else .ok ⟨RecordTypeV2.servicePaymentProof.code, eposeRecordVersionV2, proof.payload⟩

/-- `append_coinbase_service_payment_proof_v2`: the Coinbase with the proof appended, and its
verified context. -/
def appendCoinbaseServicePaymentProofV2 (cr : Crypto) (limits : ExtraLimits)
    (coinbase : Transaction) (transactionSecretKey : SecretKey)
    (expected : ServicePaymentExpectationV2) :
    Except RewardStatusV2 (Transaction × ServicePaymentContextV2) :=
  if !isCoinbase coinbase then .error .invalidContext
  else
    match cr.secretKeyToPublicKey transactionSecretKey with
    | none => .error .invalidTransactionKey
    | some transactionPublicKey =>
      if transactionPublicKey ≠ getTxPubKeyFromExtra coinbase.extra then
        .error .invalidTransactionKey
      else
        match canonicalCoinbaseCommitmentV2 cr limits coinbase with
        | .error _ => .error .invalidPaymentProof
        | .ok (coinbaseCommitment, existingProofs) =>
          if existingProofs ≠ 0 then .error .invalidPaymentProof
          else
            match cr.generateKeyDerivation expected.rewardAddress.viewPublicKey
              transactionSecretKey with
            | none => .error .invalidDerivation
            | some derivation => do
              let outputs ← paymentOutputs cr derivation expected.rewardAddress.spendPublicKey
                false coinbase.vout 0
              let signing : ServicePaymentContextV2 :=
                { expected with transactionPublicKey, coinbaseCommitment, outputs }
              let proof ← generateScopedPaymentProofV2 cr signing transactionSecretKey
              match encodePaymentProofRecordV2 cr proof signing with
              | .error _ => .error .invalidPaymentProof
              | .ok record =>
                match appendTransactionEnvelopeV2 [record] limits.majorVersion
                  limits.maxEnvelopesPerTransaction limits.envelope coinbase.extra with
                | .error _ => .error .invalidPaymentProof
                | .ok (extra, _) => do
                  let candidate := { coinbase with extra }
                  let verified ← (verifyCoinbaseServicePaymentV2 cr limits candidate expected).1
                  return (candidate, verified)

/-! ## What an accepted payment satisfies -/

section Accepted

variable {cr : Crypto} {limits : ExtraLimits} {coinbase : Transaction}
  {expected : ServicePaymentExpectationV2} {context : ServicePaymentContextV2}
  {proof : ScopedPaymentProofV2}

lemma verifyScopedPaymentProofV2_eq_ok_iff {signatures : ℕ} :
    verifyScopedPaymentProofV2 cr context proof = (.ok (), signatures) ↔
      contextShapeValid cr context = true ∧ cr.validKey proof.derivation = true ∧
        (∃ clearedViewKey,
          cofactorClearedViewKey cr context.rewardAddress.viewPublicKey = some clearedViewKey ∧
          cr.checkTxProof (hashServicePaymentContextV2 cr context proof.derivation)
            context.transactionPublicKey clearedViewKey proof.derivation proof.proof = true) ∧
        outputsDerived cr context proof.derivation = true ∧ signatures = 1 := by
  simp only [verifyScopedPaymentProofV2]
  cases contextShapeValid cr context <;> cases cr.validKey proof.derivation <;>
    cases cofactorClearedViewKey cr context.rewardAddress.viewPublicKey <;>
    simp only [Bool.not_true, Bool.not_false, Bool.false_eq_true, if_true, if_false,
      Prod.mk.injEq, reduceCtorEq, false_and, and_false, exists_false, true_and,
      Option.some.injEq, exists_eq_left']
  rename_i clearedViewKey
  cases cr.checkTxProof (hashServicePaymentContextV2 cr context proof.derivation)
    context.transactionPublicKey clearedViewKey proof.derivation proof.proof <;>
    cases outputsDerived cr context proof.derivation <;>
    simp [eq_comm]

/-- What `verify_coinbase_service_payment_v2` has checked of a Coinbase when it accepts it with a
context, for the proof it found. -/
structure PaysService (cr : Crypto) (limits : ExtraLimits) (coinbase : Transaction)
    (expected : ServicePaymentExpectationV2) (context : ServicePaymentContextV2)
    (proof : ScopedPaymentProofV2) : Prop where
  is_coinbase : isCoinbase coinbase = true
  expectation : expectationValid cr expected = true
  proof_found : ∃ records budget, limits.parse coinbase.extra = .ok (records, budget) ∧
    findPaymentProof records none = .ok (some proof)
  transaction_key : cr.validKey (getTxPubKeyFromExtra coinbase.extra) = true
  commitment : canonicalCoinbaseCommitmentV2 cr limits coinbase =
    .ok (context.coinbaseCommitment, 1)
  outputs : paymentOutputs cr proof.derivation expected.rewardAddress.spendPublicKey true
    coinbase.vout 0 = .ok context.outputs
  context_eq : context =
    { expected with
      transactionPublicKey := getTxPubKeyFromExtra coinbase.extra
      coinbaseCommitment := context.coinbaseCommitment
      outputs := context.outputs }
  verified : verifyScopedPaymentProofV2 cr context proof = (.ok (), 1)

lemma PaysService.derivation (h : PaysService cr limits coinbase expected context proof) :
    cr.validKey proof.derivation = true :=
  (verifyScopedPaymentProofV2_eq_ok_iff.mp h.verified).2.1

lemma coinbasePaymentContext_eq_ok_iff :
    coinbasePaymentContext cr limits coinbase expected = .ok (context, proof) ↔
      isCoinbase coinbase = true ∧ expectationValid cr expected = true ∧
      (∃ records budget, limits.parse coinbase.extra = .ok (records, budget) ∧
        findPaymentProof records none = .ok (some proof)) ∧
      cr.validKey proof.derivation = true ∧
      cr.validKey (getTxPubKeyFromExtra coinbase.extra) = true ∧
      canonicalCoinbaseCommitmentV2 cr limits coinbase = .ok (context.coinbaseCommitment, 1) ∧
      paymentOutputs cr proof.derivation expected.rewardAddress.spendPublicKey true
        coinbase.vout 0 = .ok context.outputs ∧
      context =
        { expected with
          transactionPublicKey := getTxPubKeyFromExtra coinbase.extra
          coinbaseCommitment := context.coinbaseCommitment
          outputs := context.outputs } := by
  constructor
  · intro h
    unfold coinbasePaymentContext at h
    split at h
    · cases h
    rename_i hhead
    simp only [Bool.or_eq_true, Bool.not_eq_true', not_or, Bool.not_eq_false] at hhead
    split at h
    · cases h
    rename_i records budget hparse
    obtain ⟨found, hfound, h⟩ := except_bind_eq_ok_iff.mp h
    cases found with
    | none => cases h
    | some found =>
      dsimp only at h
      split at h
      · cases h
      rename_i hderivation
      split at h
      · cases h
      rename_i hkey
      split at h
      · cases h
      rename_i commitment removed hcommitment
      split at h
      · cases h
      rename_i hremoved
      obtain ⟨outputs, houtputs, h⟩ := except_bind_eq_ok_iff.mp h
      cases h
      obtain rfl := not_not.mp hremoved
      exact ⟨hhead.1, hhead.2, ⟨records, budget, hparse, hfound⟩, by simpa using hderivation,
        by simpa using hkey, hcommitment, houtputs, rfl⟩
  · rintro ⟨hcoinbase, hexpected, ⟨records, budget, hparse, hfound⟩, hderivation, hkey,
      hcommitment, houtputs, hcontext⟩
    unfold coinbasePaymentContext
    rw [if_neg (by simp [hcoinbase, hexpected]), hparse]
    dsimp only
    rw [hfound]
    change (if (!cr.validKey proof.derivation) = true then _ else _) = _
    rw [if_neg (by simp [hderivation]), if_neg (by simp [hkey]), hcommitment]
    dsimp only
    rw [if_neg (by simp), houtputs, hcontext]
    rfl

/-- The verifier accepts a Coinbase exactly when it pays the service, and then it has checked one
signature. -/
lemma verifyCoinbaseServicePaymentV2_eq_ok_iff {signatures : ℕ} :
    verifyCoinbaseServicePaymentV2 cr limits coinbase expected = (.ok context, signatures) ↔
      (∃ proof, PaysService cr limits coinbase expected context proof) ∧ signatures = 1 := by
  constructor
  · intro h
    unfold verifyCoinbaseServicePaymentV2 at h
    split at h
    · cases h
    rename_i context' proof hcontext
    split at h
    · cases h
    rename_i signatures' hverify
    cases h
    obtain ⟨hcoinbase, hexpected, hfound, -, hkey, hcommitment, houtputs, heq⟩ :=
      coinbasePaymentContext_eq_ok_iff.mp hcontext
    have hone := (verifyScopedPaymentProofV2_eq_ok_iff.mp hverify).2.2.2.2
    subst hone
    exact ⟨⟨proof, hcoinbase, hexpected, hfound, hkey, hcommitment, houtputs, heq, hverify⟩, rfl⟩
  · rintro ⟨⟨proof, h⟩, rfl⟩
    have hcontext := coinbasePaymentContext_eq_ok_iff.mpr ⟨h.is_coinbase, h.expectation,
      h.proof_found, h.derivation, h.transaction_key, h.commitment, h.outputs, h.context_eq⟩
    unfold verifyCoinbaseServicePaymentV2
    rw [hcontext]
    dsimp only
    rw [h.verified]

lemma exists_of_findPaymentProof {records : List EnvelopeRecordV2}
    (h : findPaymentProof records none = .ok (some proof)) :
    ∃ record ∈ records, record.type = RecordTypeV2.servicePaymentProof.code := by
  induction records with
  | nil => cases h
  | cons record records ih =>
    by_cases htype : record.type = RecordTypeV2.servicePaymentProof.code
    · exact ⟨record, List.mem_cons_self, htype⟩
    · rw [findPaymentProof.eq_def] at h
      simp only [ne_eq, htype, not_false_eq_true, if_true] at h
      obtain ⟨other, hmem, hother⟩ := ih h
      exact ⟨other, List.mem_cons_of_mem _ hmem, hother⟩

lemma validateCoinbaseServicePaymentV2_ok {validated : ValidatedServicePaymentV2} {signatures : ℕ}
    (h : validateCoinbaseServicePaymentV2 cr limits coinbase expected =
      (.ok validated, signatures)) :
    (∃ proof, PaysService cr limits coinbase expected validated.context proof) ∧
      signatures = 1 := by
  unfold validateCoinbaseServicePaymentV2 at h
  split at h
  · cases h
  rename_i context' signatures' hverify
  split at h
  · cases h
  split at h
  · cases h
  cases h
  exact verifyCoinbaseServicePaymentV2_eq_ok_iff.mp hverify

lemma verifyScopedPaymentProofV2_signatures_le :
    (verifyScopedPaymentProofV2 cr context proof).2 ≤ 1 := by
  unfold verifyScopedPaymentProofV2
  split
  · exact Nat.zero_le _
  split
  · exact Nat.zero_le _
  dsimp only
  split
  · exact Nat.zero_le _
  · split
    · exact le_rfl
    · split <;> exact le_rfl

lemma decodePaymentProofRecordV2_signatures_le {record : EnvelopeRecordV2} :
    (decodePaymentProofRecordV2 cr record context).2 ≤ 1 := by
  unfold decodePaymentProofRecordV2
  split
  · exact Nat.zero_le _
  rename_i proof _
  have hle : (verifyScopedPaymentProofV2 cr context proof).2 ≤ 1 :=
    verifyScopedPaymentProofV2_signatures_le
  split <;> rename_i hverify <;> rw [hverify] at hle <;> exact hle

end Accepted

end Qwertycoin
