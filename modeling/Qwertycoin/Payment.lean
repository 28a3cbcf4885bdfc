import Qwertycoin.Lib.Encoding
import Qwertycoin.Carried
import Qwertycoin.Payout

/-
# What an accepted payment proves

A payee is due: the Coinbase carries one payment proof, the outputs that the derivation of the
proof produces for the payee's address sum to the service reward, and no other record of the block
is a payment proof.  The proof signs a transcript of everything the state prescribes, together with
the Coinbase it stands in without its payment proofs, so that it is of no use in another block.
-/

namespace Qwertycoin

open Bytes

/-! ## The proof record -/

/-- The payment proofs among the records of a transaction. -/
def paymentProofRecords (records : List EnvelopeRecordV2) : List EnvelopeRecordV2 :=
  records.filter fun record => record.type = RecordTypeV2.servicePaymentProof.code

lemma findPaymentProof_of_found {records : List EnvelopeRecordV2} {proof : ScopedPaymentProofV2}
    {found : Option ScopedPaymentProofV2} (h : findPaymentProof records (some proof) = .ok found) :
    found = some proof ∧ paymentProofRecords records = [] := by
  induction records with
  | nil =>
    cases h
    exact ⟨rfl, rfl⟩
  | cons record records ih =>
    rw [findPaymentProof.eq_def] at h
    dsimp only at h
    split at h
    · rename_i htype
      obtain ⟨hfound, hnone⟩ := ih h
      exact ⟨hfound, by rw [paymentProofRecords, List.filter_cons_of_neg (by simpa using htype)]
                        exact hnone⟩
    · cases h

lemma findPaymentProof_eq_ok {records : List EnvelopeRecordV2} {proof : ScopedPaymentProofV2}
    (h : findPaymentProof records none = .ok (some proof)) :
    ∃ record, paymentProofRecords records = [record] ∧
      decodePaymentProofRecordStructureV2 record = .ok proof := by
  induction records with
  | nil => cases h
  | cons record records ih =>
    rw [findPaymentProof.eq_def] at h
    dsimp only at h
    split at h
    · rename_i htype
      obtain ⟨found, hfound, hdecode⟩ := ih h
      refine ⟨found, ?_, hdecode⟩
      rw [paymentProofRecords, List.filter_cons_of_neg (by simpa using htype)]
      exact hfound
    · rename_i htype
      split at h
      · rename_i decoded _ hdecode
        obtain ⟨heq, hnone⟩ := findPaymentProof_of_found h
        cases heq
        refine ⟨record, ?_, hdecode⟩
        rw [paymentProofRecords, List.filter_cons_of_pos (by simpa using htype)]
        exact congrArg (record :: ·) hnone
      · cases h

/-! ## The outputs -/

section Outputs

variable {cr : Crypto} {derivation : KeyDerivation} {spendPublicKey : PublicKey}

/-- Whether the key of an output is the one a derivation gives at its index. -/
def derivedAt (cr : Crypto) (derivation : KeyDerivation) (spendPublicKey : PublicKey)
    (out : TxOut × ℕ) : Bool :=
  (getOutputPublicKey out.1).any fun key =>
    cr.derivePublicKey derivation out.2 spendPublicKey = some key

/-- The outputs of a transaction, with their indices, that a derivation gives to a spend key. -/
def derivedOutputs (cr : Crypto) (derivation : KeyDerivation) (spendPublicKey : PublicKey)
    (vout : List TxOut) : List (TxOut × ℕ) :=
  vout.zipIdx.filter (derivedAt cr derivation spendPublicKey)

/-- An output as a payment context lists it. -/
def paymentOutput (out : TxOut × ℕ) : ServicePaymentOutputV2 :=
  ⟨UInt32.ofNat out.2, out.1.amount, (getOutputPublicKey out.1).getD nullPkey⟩

/-- The verifier lists the derived outputs, of a Coinbase whose outputs are all keys and have
32-bit indices. -/
lemma paymentOutputs_eq_ok {outs : List TxOut} {index : ℕ} {outputs : List ServicePaymentOutputV2}
    (h : paymentOutputs cr derivation spendPublicKey true outs index = .ok outputs) :
    outputs = ((outs.zipIdx index).filter (derivedAt cr derivation spendPublicKey)).map
        paymentOutput ∧
      (∀ out ∈ outs, (getOutputPublicKey out).isSome) ∧
      (outs ≠ [] → index + outs.length ≤ 2 ^ 32) := by
  induction outs generalizing index outputs with
  | nil =>
    cases h
    simp
  | cons out outs ih =>
    rw [paymentOutputs.eq_def] at h
    dsimp only at h
    split at h
    · cases h
    rename_i hindex
    split at h
    · cases h
    rename_i key hkey
    split at h
    · cases h
    rename_i expected hexpected
    have hlength : (outs ≠ [] → index + 1 + outs.length ≤ 2 ^ 32) →
        index + (out :: outs).length ≤ 2 ^ 32 := by
      intro htail
      by_cases hnil : outs = []
      · subst hnil
        simp
        omega
      · have := htail hnil
        simp
        omega
    split at h
    · rename_i hequal
      split at h
      · cases h
      obtain ⟨rest, hrest, h⟩ := except_bind_eq_ok_iff.mp h
      cases h
      obtain ⟨rfl, hkeys, htail⟩ := ih hrest
      refine ⟨?_, ?_, fun _ => hlength htail⟩
      · have hderived : derivedAt cr derivation spendPublicKey (out, index) = true := by
          simp [derivedAt, hkey, hexpected, hequal]
        rw [List.zipIdx_cons, List.filter_cons_of_pos hderived, List.map_cons]
        simp [paymentOutput, hkey]
      · simpa [hkey] using hkeys
    · rename_i hequal
      obtain ⟨rfl, hkeys, htail⟩ := ih h
      refine ⟨?_, ?_, fun _ => hlength htail⟩
      · have hderived : ¬derivedAt cr derivation spendPublicKey (out, index) = true := by
          simp [derivedAt, hkey, hexpected, Ne.symm hequal]
        rw [List.zipIdx_cons, List.filter_cons_of_neg hderived]
      · simpa [hkey] using hkeys

/-- The outputs of a payment context add up without overflow, and their keys are distinct. -/
lemma paymentOutputsSum_eq_some {outputs : List ServicePaymentOutputV2} {sum total : UInt64}
    {previous : Option UInt32} {keys : List PublicKey}
    (h : paymentOutputsSum cr outputs sum previous keys = some total) :
    total.toNat = sum.toNat + (outputs.map (·.amount.toNat)).sum ∧
      (∀ output ∈ outputs, output.outputPublicKey ∉ keys) ∧
      (outputs.map (·.outputPublicKey)).Nodup := by
  induction outputs generalizing sum previous keys with
  | nil =>
    cases h
    simp
  | cons output outputs ih =>
    simp only [paymentOutputsSum] at h
    split at h
    · cases h
    obtain ⟨next, hnext, h⟩ := Option.bind_eq_some_iff.mp h
    split at h
    · cases h
    rename_i hfresh
    obtain ⟨htotal, hnew, hnodup⟩ := ih h
    have hsum := checkedAdd_eq_some_iff.mp hnext
    simp only [List.contains_iff_mem] at hfresh
    refine ⟨?_, ?_, ?_⟩
    · rw [htotal, ← hsum, List.map_cons, List.sum_cons, Nat.add_assoc]
    · rintro other (_ | ⟨_, hmem⟩)
      · exact hfresh
      · exact fun hin => hnew other hmem (List.mem_append_left _ hin)
    · rw [List.map_cons, List.nodup_cons]
      refine ⟨fun hin => ?_, hnodup⟩
      obtain ⟨other, hmem, heq⟩ := List.mem_map.mp hin
      exact hnew other hmem (by simp [heq])

end Outputs

lemma sumOutputs_eq_some {vout : List TxOut} {sum total : UInt64}
    (h : sumOutputs vout sum = some total) :
    total.toNat = sum.toNat + (vout.map (·.amount.toNat)).sum := by
  induction vout generalizing sum with
  | nil =>
    cases h
    simp
  | cons out vout ih =>
    simp only [sumOutputs] at h
    split at h
    · cases h
    rename_i hfits
    have hfits : sum.toNat + out.amount.toNat < 2 ^ 64 := by
      have hamount := out.amount.toNat_lt
      rw [UInt64.lt_iff_toNat_lt, UInt64.toNat_sub_of_le _ _ (UInt64.le_iff_toNat_le.mpr (by
        rw [toNat_uint64Max]; omega)), toNat_uint64Max] at hfits
      omega
    rw [ih h, UInt64.toNat_add, Nat.mod_eq_of_lt hfits, List.map_cons, List.sum_cons,
      Nat.add_assoc]

/-! ## The plan -/

lemma calculateRewardAllocationV2_total {scheduledSubsidy transactionFees bps : UInt64}
    {hasPayee : Bool} {policy : EmptyQualificationPolicyV2} {allocation : RewardAllocationV2}
    (h : calculateRewardAllocationV2 scheduledSubsidy transactionFees hasPayee policy bps =
      .ok allocation) :
    allocation.coinbaseTotal.toNat = allocation.issuedSubsidy.toNat + transactionFees.toNat := by
  simp only [calculateRewardAllocationV2] at h
  split at h
  · cases h
  obtain ⟨split, -, h⟩ := except_bind_eq_ok_iff.mp h
  obtain ⟨issued, -, h⟩ := except_bind_eq_ok_iff.mp h
  obtain ⟨total, htotal, h⟩ := except_bind_eq_ok_iff.mp h
  cases h
  exact (checkedAdd_eq_some_iff.mp (okOr_eq_ok_iff.mp htotal)).symm

namespace ConsensusCoordinatorV2

variable {cr : Crypto} {p : ConsensusParametersV2} {contexts : CanonicalContextSourceV2}
  {s : SemanticStateV2}

/-- A payee is a member of the snapshot of an epoch, at an address that the registry has for it and
whose hash was frozen with it. -/
structure FrozenPayee (cr : Crypto) (p : ConsensusParametersV2) (s : SemanticStateV2)
    (sourceEpoch : UInt64) (payee : PublicKey) (address : AccountPublicAddress)
    (frozen : MembershipSnapshotV2) (member : FrozenMemberV2) (descriptor : IdentityDescriptorV2) :
    Prop where
  snapshot : s.membership.snapshot sourceEpoch = some frozen
  member_mem : member ∈ frozen.members
  payee_eq : member.servicePublicKey = payee
  current : s.lifecycle.descriptorForEpoch member.identityId sourceEpoch = some descriptor
  unchanged : descriptorMatches cr p descriptor payee member = true
  address_eq : descriptor.rewardAddress = address

lemma servicePayee_frozen {qualification : QualificationSetV2}
    {payoutEpoch sourceEpoch height : UInt64} {payee : PublicKey} {address : AccountPublicAddress}
    (h : servicePayee cr p contexts s qualification payoutEpoch sourceEpoch height =
      .ok (payee, address)) :
    payee ∈ qualification.qualifiedNodes ∧ ∃ frozen member descriptor,
      FrozenPayee cr p s sourceEpoch payee address frozen member descriptor := by
  unfold servicePayee at h
  split at h
  · cases h
  split at h
  · cases h
  split at h
  · cases h
  rename_i payee' hselect
  split at h
  · cases h
  rename_i frozen hfrozen
  split at h
  · cases h
  rename_i member hfind
  split at h
  · cases h
  rename_i descriptor hdescriptor
  split at h
  · cases h
  rename_i hmatches
  cases h
  obtain ⟨start, finish, -, -, -, hturn⟩ := selectServicePayeeV2_eq_ok_iff.mp hselect
  exact ⟨rankedNodes_perm.mem_iff.mp (Rotation.mem_of_turn hturn), frozen, member, descriptor,
    hfrozen, List.mem_of_find?_eq_some hfind, by simpa using List.find?_some hfind, hdescriptor,
    by simpa using hmatches, rfl⟩

/-- What a plan says: the Coinbase is the issued subsidy and the fees, and what is expected of the
payment is the block's place in the chain, the settled set of the epoch before and a payee that is
in the set and frozen in that epoch. -/
lemma planReward_eq_ok {height : UInt64} {parentHash : Hash}
    {scheduledSubsidy transactionFees : UInt64} {plan : CoordinatorRewardPlanV2}
    (h : planReward cr p contexts s height parentHash scheduledSubsidy transactionFees = .ok plan) :
    plan.allocation.coinbaseTotal.toNat =
        plan.allocation.issuedSubsidy.toNat + transactionFees.toNat ∧
      ∀ expected, plan.expectation = some expected →
        expected.net = p.net ∧ expected.height = height ∧ expected.parentHash = parentHash ∧
          expected.serviceReward = plan.allocation.serviceReward ∧
          expected.payoutEpoch = (height - p.timing.activationHeight) / p.timing.epochLength ∧
          (∃ qualification, s.membership.qualification (expected.payoutEpoch - 1) =
              some qualification ∧ expected.qualificationHash = qualification.qualificationHash ∧
            expected.payeeServicePublicKey ∈ qualification.qualifiedNodes) ∧
          ∃ frozen member descriptor, FrozenPayee cr p s (expected.payoutEpoch - 1)
            expected.payeeServicePublicKey expected.rewardAddress frozen member descriptor := by
  unfold planReward at h
  split at h
  · cases h
  split at h
  · cases h
  split at h
  · split at h
    · cases h
    rename_i total htotal
    cases h
    exact ⟨(checkedAdd_eq_some_iff.mp htotal).symm, fun _ hnone => by cases hnone⟩
  split at h
  · cases h
  dsimp only at h
  split at h
  · cases h
  split at h
  · cases h
  rename_i qualification hqualification
  obtain ⟨payee, hpayee, h⟩ := except_bind_eq_ok_iff.mp h
  split at h
  · cases h
  · cases h
  rename_i allocation hallocation
  cases h
  refine ⟨calculateRewardAllocationV2_total hallocation, fun expected hexpected => ?_⟩
  obtain ⟨⟨key, address⟩, rfl, rfl⟩ := Option.map_eq_some_iff.mp hexpected
  unfold duePayee at hpayee
  split at hpayee
  · cases hpayee
  cases hservice : servicePayee cr p contexts s qualification
      ((height - p.timing.activationHeight) / p.timing.epochLength)
      ((height - p.timing.activationHeight) / p.timing.epochLength - 1) height with
  | error status =>
    rw [hservice] at hpayee
    cases hpayee
  | ok result =>
    rw [hservice] at hpayee
    cases hpayee
    obtain ⟨hqualified, hfrozen⟩ := servicePayee_frozen hservice
    exact ⟨rfl, rfl, rfl, rfl, rfl, ⟨qualification, hqualification, rfl, hqualified⟩, hfrozen⟩

end ConsensusCoordinatorV2

/-! ## What is signed -/

/-- The bytes the transcript of a payment is the hash of. -/
def ServicePaymentContextV2.transcript (context : ServicePaymentContextV2)
    (derivation : PublicKey) : List UInt8 :=
  ascii "QWC_EPOSE_PAYMENT_PROOF_V2" ++ context.net.bytes ++ u64 context.height ++
    context.parentHash.data ++ u64 context.payoutEpoch ++ context.qualificationHash.data ++
    context.payeeServicePublicKey.data ++ context.rewardAddress.viewPublicKey.data ++
    context.rewardAddress.spendPublicKey.data ++ u64 context.serviceReward ++
    context.transactionPublicKey.data ++ context.coinbaseCommitment.data ++
    u64 (UInt64.ofNat context.outputs.length) ++
    (context.outputs.flatMap fun output => u32 output.outputIndex ++ u64 output.amount ++
      output.outputPublicKey.data) ++ derivation.data

lemma hashServicePaymentContextV2_eq (cr : Crypto) (context : ServicePaymentContextV2)
    (derivation : PublicKey) : hashServicePaymentContextV2 cr context derivation =
      cr.cnFastHash (context.transcript derivation) := rfl

/-- A transcript determines what the state prescribes and the commitment to the Coinbase. -/
lemma transcript_inj {left right : ServicePaymentContextV2} {derivation derivation' : PublicKey}
    (hnet : left.net = right.net)
    (h : left.transcript derivation = right.transcript derivation') :
    left.toServicePaymentExpectationV2 = right.toServicePaymentExpectationV2 ∧
      left.coinbaseCommitment = right.coinbaseCommitment := by
  simp only [ServicePaymentContextV2.transcript, hnet, List.append_assoc] at h
  have h := List.append_cancel_left (List.append_cancel_left h)
  obtain ⟨hheight, h⟩ := readable_u64 trivial trivial h
  obtain ⟨hparent, h⟩ := readable_block trivial trivial h
  obtain ⟨hepoch, h⟩ := readable_u64 trivial trivial h
  obtain ⟨hqualification, h⟩ := readable_block trivial trivial h
  obtain ⟨hpayee, h⟩ := readable_block trivial trivial h
  obtain ⟨hview, h⟩ := readable_block trivial trivial h
  obtain ⟨hspend, h⟩ := readable_block trivial trivial h
  obtain ⟨hreward, h⟩ := readable_u64 trivial trivial h
  obtain ⟨-, h⟩ := readable_block trivial trivial h
  obtain ⟨hcommitment, -⟩ := readable_block trivial trivial h
  obtain ⟨⟨_, _, _, _, _, _, ⟨_, _⟩, _⟩, _, _, _⟩ := left
  obtain ⟨⟨_, _, _, _, _, _, ⟨_, _⟩, _⟩, _, _, _⟩ := right
  simp_all

/-! ## The Coinbase without its proofs -/

/-- A Coinbase as `canonical_coinbase_commitment_v2` serializes it. -/
def strippedCoinbase (limits : ExtraLimits) (coinbase : Transaction) : Option Transaction :=
  match stripTransactionRecordTypeV2 coinbase.extra limits.majorVersion
    limits.maxEnvelopesPerTransaction limits.envelope .servicePaymentProof with
  | .error _ => none
  | .ok (extra, _) => some { coinbase with extra }

lemma canonicalCoinbaseCommitmentV2_eq_ok {cr : Crypto} {limits : ExtraLimits}
    {coinbase : Transaction} {commitment : Hash} {removed : ℕ}
    (h : canonicalCoinbaseCommitmentV2 cr limits coinbase = .ok (commitment, removed)) :
    ∃ stripped, strippedCoinbase limits coinbase = some stripped ∧
      commitment = cr.cnFastHash (txToBlob stripped) := by
  unfold canonicalCoinbaseCommitmentV2 at h
  split at h
  · cases h
  split at h
  · cases h
  rename_i extra removed' hstrip
  dsimp only at h
  split at h
  · cases h
  split at h
  · cases h
  cases h
  exact ⟨{ coinbase with extra }, by rw [strippedCoinbase, hstrip], rfl⟩

lemma exists_of_strippedCoinbase {limits : ExtraLimits} {coinbase stripped : Transaction}
    (h : strippedCoinbase limits coinbase = some stripped) :
    ∃ extra, stripped = { coinbase with extra } := by
  unfold strippedCoinbase at h
  split at h
  · cases h
  · rename_i extra _ _
    cases h
    exact ⟨extra, rfl⟩

/-- A transaction as it can be read from the network: its version is known to the serializer, and
its sizes are machine integers. -/
structure Transaction.Serializable (tx : Transaction) : Prop where
  version : tx.version = 1 ∨ tx.version = 2
  height : ∀ height, TxIn.gen height ∈ tx.vin → height < 2 ^ 64
  extra : tx.extra.length < 2 ^ 64

/-- Outputs to keys. -/
def Transaction.PaysToKeys (tx : Transaction) : Prop :=
  tx.vout.length ≤ 2 ^ 32 ∧ ∀ out ∈ tx.vout, (getOutputPublicKey out).isSome = true

lemma readable_txOut :
    Readable (fun out => (getOutputPublicKey out).isSome = true) TxOut.bytes := by
  rintro ⟨amount, target⟩ ⟨amount', target'⟩ hkey hkey' x y h
  simp only [TxOut.bytes, List.append_assoc] at h
  obtain ⟨hamount, htarget⟩ := readable_varint amount.toNat_lt amount'.toNat_lt h
  obtain rfl := UInt64.toNat_inj.mp hamount
  cases target with
  | script data => cases hkey
  | toKey key =>
    cases target' with
    | script data => cases hkey'
    | toKey key' =>
      obtain ⟨rfl, hrest⟩ := readable_block trivial trivial (List.cons.inj htarget).2
      exact ⟨rfl, hrest⟩
    | toTaggedKey key' tag' => exact absurd (List.cons.inj htarget).1 (by decide)
  | toTaggedKey key tag =>
    cases target' with
    | script data => cases hkey'
    | toKey key' => exact absurd (List.cons.inj htarget).1 (by decide)
    | toTaggedKey key' tag' =>
      simp only [List.cons_append, List.append_assoc] at htarget
      obtain ⟨rfl, hrest⟩ := readable_block trivial trivial (List.cons.inj htarget).2
      obtain ⟨rfl, htail⟩ := List.cons.inj hrest
      exact ⟨rfl, htail⟩

lemma exists_height_of_isCoinbase {tx : Transaction} (h : isCoinbase tx = true) :
    ∃ height, tx.vin = [.gen height] := by
  unfold isCoinbase at h
  split at h
  · rename_i height hvin
    exact ⟨height, hvin⟩
  · cases h

lemma txToBlob_inj {left right : Transaction} (hleft : left.Serializable)
    (hright : right.Serializable) (hcoinbase : isCoinbase left = true)
    (hcoinbase' : isCoinbase right = true) (hkeys : left.PaysToKeys) (hkeys' : right.PaysToKeys)
    (h : txToBlob left = txToBlob right) : left = right := by
  obtain ⟨height, hvin⟩ := exists_height_of_isCoinbase hcoinbase
  obtain ⟨height', hvin'⟩ := exists_height_of_isCoinbase hcoinbase'
  have hknown : ∀ {tx : Transaction}, tx.Serializable →
      tx.version < 2 ^ 64 ∧ ¬(tx.version = 0 ∨ 2 < tx.version) := by
    intro tx htx
    rcases htx.version with hversion | hversion <;> rw [hversion] <;> decide
  unfold txToBlob at h
  rw [if_neg (hknown hleft).2, if_neg (hknown hright).2, hvin, hvin'] at h
  obtain ⟨hversion, h⟩ := readable_varint (hknown hleft).1 (hknown hright).1 h
  simp only [List.append_assoc] at h
  obtain ⟨hunlock, h⟩ := readable_varint left.unlockTime.toNat_lt right.unlockTime.toNat_lt h
  obtain ⟨-, h⟩ := readable_varint (show [TxIn.gen height].length < 2 ^ 64 by simp)
    (show [TxIn.gen height'].length < 2 ^ 64 by simp) h
  simp only [List.flatMap_cons, List.flatMap_nil, List.append_nil, TxIn.bytes,
    List.cons_append] at h
  obtain ⟨hheight, h⟩ := readable_varint (hleft.height height (by simp [hvin]))
    (hright.height height' (by simp [hvin'])) (List.cons.inj h).2
  have hcount : ∀ {tx : Transaction}, tx.PaysToKeys → tx.vout.length < 2 ^ 64 := fun htx =>
    htx.1.trans_lt (by norm_num)
  obtain ⟨hlength, h⟩ := readable_varint (hcount hkeys) (hcount hkeys') h
  obtain ⟨hvout, h⟩ := readable_txOut.flatMap hlength hkeys.2 hkeys'.2 h
  obtain ⟨hextraLength, h⟩ := readable_varint hleft.extra hright.extra h
  obtain ⟨hextra, hsignatures⟩ := List.append_inj h hextraLength
  obtain ⟨_, _, _, _, _, _⟩ := left
  obtain ⟨_, _, _, _, _, _⟩ := right
  simp only [UInt64.toNat_inj] at hunlock
  simp_all

/-! ## Records of an accepted block -/

namespace SemanticStateV2

variable {cr : Crypto} {p : SemanticParametersV2} {contexts : CanonicalContextSourceV2}
  {transaction : SemanticTransactionContextV2} {inclusionEpoch minimumEffectiveEpoch : UInt64}

lemma applyPaymentProof_refused (w : Work) (record : EnvelopeRecordV2)
    (h : transaction.coinbase = false ∨
      transaction.payment = none ∧ transaction.validatedPayment = none) :
    (applyPaymentProof cr p transaction w record).2 = .paymentProofWrongCarrier := by
  unfold applyPaymentProof
  obtain hcoinbase | ⟨hpayment, hvalidated⟩ := h
  · simp [hcoinbase]
  · simp only [hpayment, hvalidated]
    split <;> rfl

lemma applyRecords_no_proof
    (htransaction : transaction.coinbase = false ∨
      transaction.payment = none ∧ transaction.validatedPayment = none)
    {records : List EnvelopeRecordV2} {w w' : Work}
    (h : applyRecords cr p contexts transaction inclusionEpoch minimumEffectiveEpoch records w =
      (w', .accepted)) : paymentProofRecords records = [] := by
  induction records generalizing w with
  | nil => rfl
  | cons record records ih =>
    simp only [applyRecords] at h
    split at h
    · rename_i w₁ happly
      have htype : record.type ≠ RecordTypeV2.servicePaymentProof.code := by
        intro htype
        rw [applyRecord, RecordTypeV2.ofCode_eq_some_iff.mpr htype] at happly
        have hrefused : (applyPaymentProof cr p transaction w record).2 =
          .paymentProofWrongCarrier := applyPaymentProof_refused w record htransaction
        rw [show applyPaymentProof cr p transaction w record = (w₁, .accepted) from happly]
          at hrefused
        cases hrefused
      rw [paymentProofRecords, List.filter_cons_of_neg (by simpa using htype)]
      exact ih h
    · rename_i hstatus _
      exact absurd (congrArg Prod.snd h) hstatus

lemma applyTransaction_no_proof
    (htransaction : transaction.coinbase = false ∨
      transaction.payment = none ∧ transaction.validatedPayment = none)
    {s : SemanticStateV2} {blockUndo : Option UndoJournal} {records : List EnvelopeRecordV2}
    (h : (s.applyTransaction cr p contexts blockUndo records transaction).status = .accepted) :
    paymentProofRecords records = [] := by
  simp only [applyTransaction] at h
  split at h
  · cases h
  split at h
  · cases h
  split at h
  · rename_i status hstatus
    dsimp only at h
    subst h
    exact absurd hstatus inclusionEpochs_ne_error_accepted
  split at h
  · rename_i hnil
    rw [hnil]
    rfl
  split at h
  · rename_i happly
    exact applyRecords_no_proof htransaction happly
  · rename_i hstatus _
    exact absurd h hstatus

end SemanticStateV2

namespace BlockTransitionV2

variable {cr : Crypto} {p : TransitionParametersV2} {contexts : CanonicalContextSourceV2}

lemma transactionsPhase_no_proof {height : UInt64}
    {txs : List (BlockTransactionContextV2 × List EnvelopeRecordV2)} {w w' : Work}
    {total total' : SemanticApplySummaryV2}
    (h : transactionsPhase cr p contexts height txs w total = (w', .accepted, total')) :
    ∀ tx ∈ txs, tx.1.coinbase = false ∨ tx.1.payment = none ∧ tx.1.validatedPayment = none →
      paymentProofRecords tx.2 = [] := by
  induction txs generalizing w total with
  | nil => simp
  | cons tx txs ih =>
    obtain ⟨tx, records⟩ := tx
    simp only [transactionsPhase] at h
    split at h
    · cases h
    rename_i hstatus
    split at h
    · cases h
    rintro other (_ | ⟨_, hmem⟩) hother
    · exact SemanticStateV2.applyTransaction_no_proof hother (not_not.mp hstatus)
    · exact ih h other hmem hother

/-- The records of every transaction of a block are what its extra field parses to. -/
lemma structuralPass_parses {majorVersion : UInt8} {txs : List BlockTransactionContextV2}
    {budget charged : EnvelopeBudgetV2} {parsed : List (List EnvelopeRecordV2)}
    (h : structuralPass p majorVersion txs budget = .ok (parsed, charged)) :
    ∀ tx ∈ txs, ∃ records transactionBudget, (tx, records) ∈ txs.zip parsed ∧
      (p.extraLimits majorVersion).parse ((tx.transaction.map (·.extra)).getD []) =
        .ok (records, transactionBudget) := by
  induction txs generalizing budget parsed with
  | nil => simp
  | cons tx txs ih =>
    simp only [structuralPass] at h
    split at h
    · cases h
    rename_i records transactionBudget hparse
    split at h
    · cases h
    obtain ⟨⟨tail, final⟩, htail, h⟩ := except_bind_eq_ok_iff.mp h
    cases h
    rintro other (_ | ⟨_, hmem⟩)
    · exact ⟨records, transactionBudget, by simp, hparse⟩
    · obtain ⟨records', budget', hzip, hparse'⟩ := ih htail other hmem
      exact ⟨records', budget', by simp [hzip], hparse'⟩

/-- No transaction of an accepted block carries a payment proof, unless it is a Coinbase with a
payment to check. -/
lemma BlockAccepted.no_proof {t : TransitionCoreV2} {b : BlockInputV2}
    {parsed : List (List EnvelopeRecordV2)} {summary : BlockApplySummaryV2} {w₁ w₂ w₃ : Work}
    (h : BlockAccepted cr p contexts t b parsed summary w₁ w₂ w₃) :
    ∀ tx ∈ b.transactions, ∃ records transactionBudget,
      (p.extraLimits b.majorVersion).parse ((tx.transaction.map (·.extra)).getD []) =
        .ok (records, transactionBudget) ∧
      (tx.coinbase = false ∨ tx.payment = none ∧ tx.validatedPayment = none →
        paymentProofRecords records = []) := by
  intro tx hmem
  obtain ⟨records, transactionBudget, hzip, hparse⟩ := structuralPass_parses h.structural tx hmem
  exact ⟨records, transactionBudget, hparse, transactionsPhase_no_proof h.transactions _ hzip⟩

end BlockTransitionV2

/-! ## Accepted payments -/

/-- What is hashed for a payment: its transcript, and the Coinbase without its payment proofs. -/
def paymentMessages (limits : ExtraLimits) (coinbase : Transaction)
    (context : ServicePaymentContextV2) (derivation : PublicKey) : Set (List UInt8) :=
  {message | message = context.transcript derivation ∨
    ∃ stripped, strippedCoinbase limits coinbase = some stripped ∧ message = txToBlob stripped}

section Pays

variable {cr : Crypto} {limits : ExtraLimits} {coinbase : Transaction}
  {expected : ServicePaymentExpectationV2} {context : ServicePaymentContextV2}
  {proof : ScopedPaymentProofV2}

lemma PaysService.expectation_eq (h : PaysService cr limits coinbase expected context proof) :
    context.toServicePaymentExpectationV2 = expected := by
  rw [h.context_eq]

lemma PaysService.outputs_eq (h : PaysService cr limits coinbase expected context proof) :
    context.outputs = (derivedOutputs cr proof.derivation expected.rewardAddress.spendPublicKey
      coinbase.vout).map paymentOutput :=
  (paymentOutputs_eq_ok h.outputs).1

lemma PaysService.paysToKeys (h : PaysService cr limits coinbase expected context proof) :
    coinbase.PaysToKeys := by
  obtain ⟨-, hkeys, hlength⟩ := paymentOutputs_eq_ok h.outputs
  refine ⟨?_, hkeys⟩
  by_cases hnil : coinbase.vout = []
  · simp [hnil]
  · have := hlength hnil
    omega

/-- The outputs of the context sum to the service reward, and have distinct keys. -/
lemma PaysService.outputs_sum (h : PaysService cr limits coinbase expected context proof) :
    (context.outputs.map (·.amount.toNat)).sum = expected.serviceReward.toNat ∧
      (context.outputs.map (·.outputPublicKey)).Nodup := by
  have hshape := (verifyScopedPaymentProofV2_eq_ok_iff.mp h.verified).1
  simp only [contextShapeValid, Bool.and_eq_true, decide_eq_true_eq] at hshape
  obtain ⟨hsum, -, hnodup⟩ := paymentOutputsSum_eq_some hshape.2
  have hreward : context.serviceReward = expected.serviceReward :=
    congrArg ServicePaymentExpectationV2.serviceReward h.expectation_eq
  rw [← hreward, hsum]
  exact ⟨by simp, hnodup⟩

lemma PaysService.stripped (h : PaysService cr limits coinbase expected context proof)
    {stripped : Transaction} (hstripped : strippedCoinbase limits coinbase = some stripped) :
    isCoinbase stripped = true ∧ stripped.PaysToKeys ∧
      context.coinbaseCommitment = cr.cnFastHash (txToBlob stripped) := by
  obtain ⟨extra, rfl⟩ := exists_of_strippedCoinbase hstripped
  obtain ⟨stripped', hstripped', hcommitment⟩ := canonicalCoinbaseCommitmentV2_eq_ok h.commitment
  obtain rfl := Option.some.inj (hstripped'.symm.trans hstripped)
  exact ⟨h.is_coinbase, h.paysToKeys, hcommitment⟩

/-- **A payment proof binds its payment.** -/
theorem PaysService.binds {limits' : ExtraLimits} {coinbase' stripped stripped' : Transaction}
    {expected' : ServicePaymentExpectationV2} {context' : ServicePaymentContextV2}
    (h : PaysService cr limits coinbase expected context proof)
    (h' : PaysService cr limits' coinbase' expected' context' proof)
    (hnet : expected.net = expected'.net)
    (hstripped : strippedCoinbase limits coinbase = some stripped)
    (hstripped' : strippedCoinbase limits' coinbase' = some stripped')
    (hserializable : stripped.Serializable) (hserializable' : stripped'.Serializable)
    (hinj : Set.InjOn cr.cnFastHash (paymentMessages limits coinbase context proof.derivation ∪
      paymentMessages limits' coinbase' context' proof.derivation))
    (hbinds : ∀ message message' key key' viewKey viewKey',
      cr.checkTxProof message key viewKey proof.derivation proof.proof = true →
      cr.checkTxProof message' key' viewKey' proof.derivation proof.proof = true →
      message = message') :
    context.toServicePaymentExpectationV2 = context'.toServicePaymentExpectationV2 ∧
      stripped = stripped' := by
  obtain ⟨-, -, ⟨_, -, hcheck⟩, -, -⟩ := verifyScopedPaymentProofV2_eq_ok_iff.mp h.verified
  obtain ⟨-, -, ⟨_, -, hcheck'⟩, -, -⟩ := verifyScopedPaymentProofV2_eq_ok_iff.mp h'.verified
  have hhash := hbinds _ _ _ _ _ _ hcheck hcheck'
  have htranscript := hinj (Or.inl (Or.inl rfl)) (Or.inr (Or.inl rfl)) hhash
  have hnet : context.net = context'.net := by
    rw [h.context_eq, h'.context_eq]
    exact hnet
  obtain ⟨hexpectation, hcommitment⟩ := transcript_inj hnet htranscript
  refine ⟨hexpectation, ?_⟩
  obtain ⟨hcoinbase, hkeys, hblob⟩ := h.stripped hstripped
  obtain ⟨hcoinbase', hkeys', hblob'⟩ := h'.stripped hstripped'
  rw [hblob, hblob'] at hcommitment
  exact txToBlob_inj hserializable hserializable' hcoinbase hcoinbase' hkeys hkeys'
    (hinj (Or.inl (Or.inr ⟨stripped, hstripped, rfl⟩))
      (Or.inr (Or.inr ⟨stripped', hstripped', rfl⟩)) hcommitment)

end Pays

namespace ConsensusCoordinatorV2

variable {cr : Crypto} {p : ConsensusParametersV2} {contexts : CanonicalContextSourceV2}
  {t : BlockTransitionV2} {block : CoordinatorBlockV2} {result : CoordinatorResultV2}

/-- The result of an accepted block reports the plan and the payment that was validated. -/
lemma connectBlock_result (h : (connectBlock cr p contexts t block).2 = .ok result)
    {coinbase : Transaction} {plan : CoordinatorRewardPlanV2}
    {validated : Option ValidatedServicePaymentV2} {signatures : ℕ}
    (hprepare : preparePayment cr p contexts t.state block =
      .ok (coinbase, plan, validated, signatures)) :
    result.reward = plan.allocation ∧ result.payment = validated.map (·.context) := by
  rw [connectBlock_of_prepared hprepare] at h
  unfold settleBlock at h
  dsimp only at h
  split_ifs at h <;> cases h <;> exact ⟨rfl, rfl⟩

/-- What is accepted and paid does not depend on the undo stack. -/
lemma connectBlock_of_core (h : (connectBlock cr p contexts t block).2 = .ok result)
    {t' : BlockTransitionV2} (hcore : t'.toTransitionCoreV2 = t.toTransitionCoreV2) :
    ∃ result', (connectBlock cr p contexts t' block).2 = .ok result' ∧
      result'.payment = result.payment ∧
      (connectBlock cr p contexts t' block).1.toTransitionCoreV2 =
        (connectBlock cr p contexts t block).1.toTransitionCoreV2 := by
  obtain ⟨coinbase, plan, validated, signatures, hprepare, -, -⟩ := connectBlock_ok h
  have hconnects := connects_of_connectBlock h
  rw [← hcore] at hconnects
  obtain ⟨result', hresult', hcore'⟩ := hconnects.connectBlock_ok
  have hstate : t'.state = t.state := congrArg TransitionCoreV2.state hcore
  have hpayment := (connectBlock_result hresult' (hstate ▸ hprepare)).2
  exact ⟨result', hresult', hpayment.trans (connectBlock_result h hprepare).2.symm, hcore'⟩

/-- An accepted block has a plan, and pays the service when a payee is due. -/
lemma connectBlock_pays (h : (connectBlock cr p contexts t block).2 = .ok result) :
    ∃ coinbase plan, block.coinbase = some coinbase ∧
      planReward cr p contexts t.state block.height block.parentHash block.scheduledSubsidy
        block.transactionFees = .ok plan ∧
      sumOutputs coinbase.vout 0 = some plan.allocation.coinbaseTotal ∧
      (plan.expectation = none ∧ result.payment = none ∨
        ∃ expected context proof, plan.expectation = some expected ∧
          result.payment = some context ∧
          PaysService cr (p.extraLimits block.majorVersion) coinbase expected context proof) := by
  obtain ⟨coinbase, plan, validated, signatures, hprepare, -, -⟩ := connectBlock_ok h
  obtain ⟨hcoinbase, -, hplan, htotal, hvalidate⟩ := preparePayment_ok hprepare
  obtain ⟨-, hpayment⟩ := connectBlock_result h hprepare
  refine ⟨coinbase, plan, hcoinbase, hplan, htotal, ?_⟩
  obtain ⟨hnone, rfl, -⟩ | ⟨expected, payment, proof, hsome, rfl, hpays, -⟩ :=
    validatePayment_ok hvalidate
  · exact Or.inl ⟨hnone, hpayment⟩
  · exact Or.inr ⟨expected, payment.context, proof, hsome, hpayment, hpays⟩

/-- The Coinbase of an accepted block may carry payment proofs when a payee is due only, the other
transactions never. -/
lemma connectBlock_proofs (h : (connectBlock cr p contexts t block).2 = .ok result) :
    (∀ transaction, some transaction ∈ block.transactions → ∃ records budget,
      (p.extraLimits block.majorVersion).parse transaction.extra = .ok (records, budget) ∧
        paymentProofRecords records = []) ∧
    ∀ coinbase, block.coinbase = some coinbase → ∃ records budget,
      (p.extraLimits block.majorVersion).parse coinbase.extra = .ok (records, budget) ∧
        (result.payment = none → paymentProofRecords records = []) := by
  obtain ⟨coinbase, plan, validated, signatures, hprepare, happly, -⟩ := connectBlock_ok h
  obtain ⟨-, hpayment⟩ := connectBlock_result h hprepare
  obtain ⟨parsed, w₁, w₂, w₃, hblock, -⟩ := BlockTransitionV2.applyBlock_accepted happly
  constructor
  · intro transaction hmem
    obtain ⟨records, budget, hparse, hnone⟩ := hblock.no_proof ⟨some transaction, false, none, none⟩
      (List.mem_cons_of_mem _ (List.mem_map.mpr ⟨some transaction, hmem, rfl⟩))
    exact ⟨records, budget, hparse, hnone (Or.inl rfl)⟩
  · intro coinbase' hcoinbase'
    obtain rfl := Option.some.inj ((preparePayment_ok hprepare).1.symm.trans hcoinbase')
    obtain ⟨records, budget, hparse, hnone⟩ := hblock.no_proof ⟨some coinbase, true, none, validated⟩
      List.mem_cons_self
    refine ⟨records, budget, hparse, fun hpayment' => hnone (Or.inr ⟨rfl, ?_⟩)⟩
    rw [hpayment] at hpayment'
    exact Option.map_eq_none_iff.mp hpayment'

/-- The payment of an accepted block was proved by the proof record of its Coinbase. -/
lemma connectBlock_paysService (h : (connectBlock cr p contexts t block).2 = .ok result)
    {coinbase : Transaction} (hcoinbase : block.coinbase = some coinbase)
    {context : ServicePaymentContextV2} (hpayment : result.payment = some context)
    {records : List EnvelopeRecordV2} {budget : EnvelopeBudgetV2}
    (hparse : (p.extraLimits block.majorVersion).parse coinbase.extra = .ok (records, budget))
    {record : EnvelopeRecordV2} (hmem : record ∈ records)
    (htype : record.type = RecordTypeV2.servicePaymentProof.code) {proof : ScopedPaymentProofV2}
    (hdecode : decodePaymentProofRecordStructureV2 record = .ok proof) :
    ∃ expected, expected.net = p.net ∧
      PaysService cr (p.extraLimits block.majorVersion) coinbase expected context proof := by
  obtain ⟨coinbase', plan, hcoinbase', hplan, -, hpays⟩ := connectBlock_pays h
  obtain rfl := Option.some.inj (hcoinbase'.symm.trans hcoinbase)
  obtain ⟨-, hnone⟩ | ⟨expected, context', proof', hsome, hpayment', hpays⟩ := hpays
  · rw [hnone] at hpayment
    cases hpayment
  obtain rfl := Option.some.inj (hpayment'.symm.trans hpayment)
  obtain ⟨records', budget', hparse', hfound⟩ := hpays.proof_found
  obtain ⟨rfl, -⟩ := Prod.mk.inj (Except.ok.inj (hparse.symm.trans hparse'))
  obtain ⟨only, honly, hdecode'⟩ := findPaymentProof_eq_ok hfound
  have honly : record ∈ [only] := honly ▸ List.mem_filter.mpr ⟨hmem, by simpa using htype⟩
  obtain rfl := List.mem_singleton.mp honly
  obtain rfl := Except.ok.inj (hdecode'.symm.trans hdecode)
  exact ⟨expected, ((planReward_eq_ok hplan).2 expected hsome).1, hpays⟩

/-- A Coinbase that pays a service reward out of 1000 with some transaction key, and proves it. -/
def payingCoinbase (secret : SecretKey) (version : ℕ) (unlockTime : UInt64)
    (target : PublicKey → TxOutTarget) (expected : ServicePaymentExpectationV2) : Transaction :=
  let address := expected.rewardAddress
  let key := (Crypto.sample.generateKeyDerivation address.viewPublicKey secret).bind
    fun derivation => Crypto.sample.derivePublicKey derivation 0 address.spendPublicKey
  let coinbase : Transaction :=
    { version, unlockTime, vin := [.gen expected.height.toNat]
      vout := [⟨expected.serviceReward, target (key.getD nullPkey)⟩,
        ⟨1000 - expected.serviceReward, target (sampleKey 99)⟩]
      extra := 1 :: secret.data, signatures := [] }
  match appendCoinbaseServicePaymentProofV2 .sample
    ((ConsensusParametersV2.sample 3).extraLimits hfVersionQwcEpose) coinbase secret expected with
  | .ok (coinbase, _) => coinbase
  | .error _ => coinbase

/-- A block that pays what a state prescribes for it. -/
def samplePayout (s : SemanticStateV2) (height : UInt64)
    (coinbase : ServicePaymentExpectationV2 → Transaction) : CoordinatorBlockV2 :=
  match planReward .sample (.sample 3) .sample s height (Block.ofNat 32 height.toNat) 1000 0 with
  | .ok ⟨_, some expected⟩ => .sample height 1000 (coinbase expected)
  | _ => .idle height

/-- The state of the concrete run when its first payout is due. -/
def sampleDue : BlockTransitionV2 := ⟨(sampleQualified 3).1, []⟩

lemma sampleDue_core : sampleDue.toTransitionCoreV2 = (sampleQualified 3).1 :=
  -- for a variable, or the kernel evaluates the run to see it
  have hcore : ∀ core, (⟨core, []⟩ : BlockTransitionV2).toTransitionCoreV2 = core := fun _ => rfl
  hcore _

/-- The first payout with the transaction key 5, and a Coinbase of some version and unlock
time. -/
def sampleFirstPayout (version : ℕ) (unlockTime : UInt64) : CoordinatorBlockV2 :=
  samplePayout sampleDue.state 6 (payingCoinbase (sampleKey 5) version unlockTime .toKey)

/-- The messages of a payment do not collide under the hash of concrete runs. -/
lemma injOn_paymentMessages {limits limits' : ExtraLimits} {coinbase coinbase' : Transaction}
    {context context' : ServicePaymentContextV2} {derivation : PublicKey}
    (transcript blob : List UInt8) (hne : Crypto.sample.cnFastHash transcript ≠
      Crypto.sample.cnFastHash blob)
    (htranscript : context.transcript derivation = transcript)
    (htranscript' : context'.transcript derivation = transcript)
    (hblob : ∀ stripped, strippedCoinbase limits coinbase = some stripped →
      txToBlob stripped = blob)
    (hblob' : ∀ stripped, strippedCoinbase limits' coinbase' = some stripped →
      txToBlob stripped = blob) :
    Set.InjOn Crypto.sample.cnFastHash (paymentMessages limits coinbase context derivation ∪
      paymentMessages limits' coinbase' context' derivation) := by
  have hmem : ∀ message, message ∈ paymentMessages limits coinbase context derivation ∪
      paymentMessages limits' coinbase' context' derivation →
      message = transcript ∨ message = blob := by
    rintro message ((rfl | ⟨stripped, hstripped, rfl⟩) | (rfl | ⟨stripped, hstripped, rfl⟩))
    · exact Or.inl htranscript
    · exact Or.inr (hblob stripped hstripped)
    · exact Or.inl htranscript'
    · exact Or.inr (hblob' stripped hstripped)
  intro left hleft right hright heq
  obtain rfl | rfl := hmem left hleft <;> obtain rfl | rfl := hmem right hright
  · rfl
  · exact absurd heq hne
  · exact absurd heq.symm hne
  · rfl

lemma sample_checkTxProof_binds {message message' : Hash} {key key' viewKey viewKey'
    derivation : PublicKey} {signature : Signature}
    (h : Crypto.sample.checkTxProof message key viewKey derivation signature = true)
    (h' : Crypto.sample.checkTxProof message' key' viewKey' derivation signature = true) :
    message = message' := by
  simp only [Crypto.sample, Bool.and_eq_true, decide_eq_true_eq] at h h'
  exact (readable_block trivial trivial (h.1.symm.trans h'.1)).1

lemma samplePayout_majorVersion {s : SemanticStateV2} {height : UInt64}
    {coinbase : ServicePaymentExpectationV2 → Transaction} :
    (samplePayout s height coinbase).majorVersion = hfVersionQwcEpose := by
  unfold samplePayout
  split <;> rfl

/-- The limits of concrete runs. -/
def sampleLimits : ExtraLimits := (ConsensusParametersV2.sample 3).extraLimits hfVersionQwcEpose

/-- The context that is reported for a block on the state that is due, if it is accepted. -/
def samplePayment (block : CoordinatorBlockV2) : Option ServicePaymentContextV2 :=
  (connectBlock .sample (.sample 3) .sample sampleDue block).2.toOption.bind (·.payment)

lemma exists_of_samplePayment {block : CoordinatorBlockV2} {context : ServicePaymentContextV2}
    (h : samplePayment block = some context) :
    ∃ result, (connectBlock .sample (.sample 3) .sample sampleDue block).2 = .ok result ∧
      result.payment = some context := by
  unfold samplePayment at h
  cases hresult : (connectBlock .sample (.sample 3) .sample sampleDue block).2 with
  | error status =>
    rw [hresult] at h
    cases h
  | ok result =>
    rw [hresult] at h
    exact ⟨result, rfl, h⟩

/-- The derivations that the payment proofs of a Coinbase state. -/
def statedDerivations (coinbase : Transaction) : Option (List (Option KeyDerivation)) :=
  (sampleLimits.parse coinbase.extra).toOption.map fun parsed =>
    (paymentProofRecords parsed.1).map fun record =>
      (decodePaymentProofRecordStructureV2 record).toOption.map (·.derivation)

lemma exists_proof_of_samplePayment {block : CoordinatorBlockV2}
    {context : ServicePaymentContextV2} (hversion : block.majorVersion = hfVersionQwcEpose)
    (h : samplePayment block = some context) :
    ∃ coinbase records budget record proof stripped,
      block.coinbase = some coinbase ∧
      sampleLimits.parse coinbase.extra = .ok (records, budget) ∧ record ∈ records ∧
      record.type = RecordTypeV2.servicePaymentProof.code ∧
      decodePaymentProofRecordStructureV2 record = .ok proof ∧
      strippedCoinbase sampleLimits coinbase = some stripped ∧
      statedDerivations coinbase = some [some proof.derivation] := by
  obtain ⟨result, hresult, hpayment⟩ := exists_of_samplePayment h
  obtain ⟨coinbase, plan, hcoinbase, -, -, hpays⟩ := connectBlock_pays hresult
  obtain ⟨-, hnone⟩ | ⟨expected, context', proof, -, -, hpays⟩ := hpays
  · rw [hnone] at hpayment
    cases hpayment
  rw [hversion] at hpays
  obtain ⟨records, budget, hparse, hfound⟩ := hpays.proof_found
  obtain ⟨record, honly, hdecode⟩ := findPaymentProof_eq_ok hfound
  obtain ⟨stripped, hstripped, -⟩ := canonicalCoinbaseCommitmentV2_eq_ok hpays.commitment
  have hrecord : record ∈ paymentProofRecords records := by simp [honly]
  obtain ⟨hmem, htype⟩ := List.mem_filter.mp hrecord
  refine ⟨coinbase, records, budget, record, proof, stripped, hcoinbase, hparse, hmem,
    by simpa using htype, hdecode, hstripped, ?_⟩
  have hparse : sampleLimits.parse coinbase.extra = .ok (records, budget) := hparse
  simp [statedDerivations, hparse, honly, hdecode, Except.toOption]

lemma sampleFirstPayout_facts :
    ((samplePayment (sampleFirstPayout 3 0)).isSome = true ∧
      samplePayment (sampleFirstPayout 3 0) = samplePayment (sampleFirstPayout 3 1) ∧
      (samplePayment (sampleFirstPayout 3 0)).all (fun context => Crypto.sample.cnFastHash
        (context.transcript (sampleKey 11)) ≠ Crypto.sample.cnFastHash [3]) = true ∧
      (sampleFirstPayout 3 0).coinbase.bind statedDerivations = some [some (sampleKey 11)] ∧
      (sampleFirstPayout 3 0).coinbase.map (fun coinbase => (coinbase.version,
        coinbase.unlockTime)) = some (3, 0) ∧
      (sampleFirstPayout 3 1).coinbase =
        (sampleFirstPayout 3 0).coinbase.map fun coinbase => { coinbase with unlockTime := 1 }) ∧
    ((samplePayment (sampleFirstPayout 2 0)).isSome = true ∧
      (samplePayment (sampleFirstPayout 2 0)).all (fun context =>
        ((sampleFirstPayout 2 0).coinbase.bind (strippedCoinbase sampleLimits)).all fun stripped =>
          Crypto.sample.cnFastHash (context.transcript (sampleKey 11)) ≠
            Crypto.sample.cnFastHash (txToBlob stripped)) = true ∧
      (sampleFirstPayout 2 0).coinbase.bind statedDerivations = some [some (sampleKey 11)] ∧
      ((sampleFirstPayout 2 0).coinbase.bind (strippedCoinbase sampleLimits)).map (fun stripped =>
        (stripped.version, stripped.vin, stripped.extra.length)) = some (2, [.gen 6], 33) ∧
      (planReward .sample (.sample 3) .sample sampleDue.state (sampleFirstPayout 2 0).height
        (sampleFirstPayout 2 0).parentHash (sampleFirstPayout 2 0).scheduledSubsidy
        (sampleFirstPayout 2 0).transactionFees).toOption.map (fun plan =>
          (plan.expectation.isSome, plan.allocation.serviceReward)) = some (true, 100)) := by
  decide +kernel

end ConsensusCoordinatorV2

end Qwertycoin
