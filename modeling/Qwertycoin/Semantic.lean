import Qwertycoin.Reward

/-
# Semantic application of records

The canonical state is the lifecycle registry together with the membership pipeline.  The records
of a transaction are applied one after the other; each is decoded, bound to its context and
handed to the component it changes.  The first refused record takes the whole transaction back.
-/

namespace Qwertycoin

/-- `canonical_context_source_v2`: what the chain answers about its own blocks. -/
structure CanonicalContextSourceV2 where
  blockHash : UInt64 → Option Hash
  roundAnchor : UInt64 → UInt64 → Option Hash

/-- A source for concrete runs: the hash of a block is one more than its height. -/
def CanonicalContextSourceV2.sample : CanonicalContextSourceV2 where
  blockHash height := some (Bytes.Block.ofNat 32 (height.toNat + 1))
  roundAnchor _ _ := some (Bytes.Block.ofNat 32 3)

structure SemanticTransactionContextV2 where
  inclusionHeight : UInt64
  coinbase : Bool
  payment : Option ServicePaymentContextV2
  validatedPayment : Option ValidatedServicePaymentV2

structure SemanticApplySummaryV2 where
  lifecycleRecords : ℕ := 0
  admissionRecords : ℕ := 0
  receiptRecords : ℕ := 0
  paymentProofRecords : ℕ := 0
  verifications : VerificationCountersV2 := {}
deriving DecidableEq

/-- `semantic_status_v2` -/
inductive SemanticStatusV2
  | accepted
  | invalidConfiguration
  | beforeActivation
  | contextUnavailable
  | invalidRecord
  | invalidLifecycle
  | lifecycleBindingMismatch
  | invalidAdmission
  | invalidReceipt
  | invalidPaymentProof
  | paymentProofWrongCarrier
  | duplicatePaymentProof
  | arithmeticOverflow
deriving DecidableEq

/-- `semantic_state_v2`: its mutable part. -/
structure SemanticStateV2 where
  lifecycle : LifecycleRegistryV2 := {}
  membership : MembershipPipelineV2 := {}

namespace SemanticStateV2

/-- `semantic_state_v2::undo_journal` -/
structure UndoJournal where
  lifecycle : LifecycleRegistryV2.UndoJournal
  membership : MembershipPipelineV2.UndoJournal
deriving DecidableEq

def checkpoint (s : SemanticStateV2) : UndoJournal :=
  ⟨s.lifecycle.checkpoint, s.membership.checkpoint⟩

def rollback (s : SemanticStateV2) (undo : UndoJournal) : SemanticStateV2 :=
  ⟨s.lifecycle.rollback undo.lifecycle, s.membership.rollback undo.membership⟩

/-- `append_undo`: the log of a transaction joins the log of its block. -/
def UndoJournal.append (target source : UndoJournal) : UndoJournal where
  lifecycle :=
    { target.lifecycle with
      recordSizes := target.lifecycle.recordSizes ++ source.lifecycle.recordSizes }
  membership :=
    { target.membership with
      replacedLeases := target.membership.replacedLeases ++ source.membership.replacedLeases
      insertedSnapshots :=
        target.membership.insertedSnapshots ++ source.membership.insertedSnapshots
      insertedQualifications :=
        target.membership.insertedQualifications ++ source.membership.insertedQualifications }

def stateHash (cr : Crypto) (p : SemanticParametersV2) (s : SemanticStateV2) : Hash :=
  cr.cnFastHash (ascii "QWC_EPOSE_SEMANTIC_STATE_V2" ++ (s.lifecycle.stateHash cr p.net).data ++
    (s.membership.stateHash cr p).data)

end SemanticStateV2

/-- The member a descriptor stands for. -/
def IdentityDescriptorV2.member (cr : Crypto) (net : Scope) (descriptor : IdentityDescriptorV2) :
    FrozenMemberV2 where
  servicePublicKey := descriptor.servicePublicKey
  identityId := descriptor.identityId
  operatorAuthorizationPublicKey := descriptor.operatorAuthorizationPublicKey
  descriptorHash := hashIdentityDescriptorV2 cr net descriptor
  rewardBindingHash := hashRewardBindingV2 cr net descriptor.rewardAddress
  endpointDescriptorHash := descriptor.endpointDescriptorHash
  sequence := descriptor.sequence

namespace SemanticStateV2

variable (cr : Crypto) (p : SemanticParametersV2) (contexts : CanonicalContextSourceV2)

/-- The state while the records of a transaction are applied. -/
structure Work where
  state : SemanticStateV2
  undo : UndoJournal
  summary : SemanticApplySummaryV2 := {}

/-- What the height of a block fixes for the lifecycle records in it: the epoch it lies in and
the first epoch a record may take effect in. -/
def inclusionEpochs (timing : EpochTimingV2) (inclusionHeight : UInt64) :
    Except SemanticStatusV2 (UInt64 × UInt64) :=
  let inclusionEpoch := inclusionHeight / timing.epochLength
  if inclusionEpoch = uint64Max then .error .arithmeticOverflow
  else
    let minimumEffectiveEpoch := inclusionEpoch + 1
    if (timing.enrollmentCutoff minimumEffectiveEpoch).any (inclusionHeight ≤ ·) then
      .ok (inclusionEpoch, minimumEffectiveEpoch)
    else if minimumEffectiveEpoch = uint64Max then .error .arithmeticOverflow
    else .ok (inclusionEpoch, minimumEffectiveEpoch + 1)

/-- A lifecycle record, given the two epochs of `inclusionEpochs`. -/
def applyLifecycle (inclusionEpoch minimumEffectiveEpoch : UInt64) (w : Work)
    (record : EnvelopeRecordV2) : Work × SemanticStatusV2 :=
  match decodeLifecycleRecordStructureV2 record with
  | .error _ => (w, .invalidRecord)
  | .ok lifecycle =>
    let applied := w.state.lifecycle.apply cr p.net w.undo.lifecycle lifecycle inclusionEpoch
      minimumEffectiveEpoch
    let verifications := { w.summary.verifications with
      signatures := w.summary.verifications.signatures + applied.signatures }
    let w := { w with
      state := { w.state with lifecycle := applied.registry }
      undo := { w.undo with lifecycle := applied.undo }
      summary := { w.summary with verifications } }
    if applied.status = .accepted ∨ applied.status = .idempotentDuplicate then
      ({ w with summary := { w.summary with
        lifecycleRecords := w.summary.lifecycleRecords + 1 } }, .accepted)
    else (w, .invalidLifecycle)

/-- The height whose block hash seeds the work of a lease, if the lease can be included. -/
def admissionContextHeight (inclusionHeight : UInt64) (lease : AdmissionLeaseV2) :
    Option UInt64 := do
  let offset := p.admissionPolicy.contextEpochOffset
  let firstServiceEpoch ← p.timing.firstServiceEpoch
  if lease.targetEpoch < firstServiceEpoch ∨ lease.targetEpoch < offset then none
  else
    let expectedContextHeight ← p.timing.epochStart (lease.targetEpoch - offset)
    let enrollmentCutoff ← p.timing.enrollmentCutoff lease.targetEpoch
    if lease.admissionContextHeight ≠ expectedContextHeight ∨ enrollmentCutoff < inclusionHeight
    then none
    else some expectedContextHeight

/-- Whether a lease names exactly what the registry has for its identity in its epoch. -/
def leaseBound (s : SemanticStateV2) (lease : AdmissionLeaseV2) : Bool :=
  let member := lease.member
  (s.lifecycle.descriptorForEpoch member.identityId lease.targetEpoch).any fun descriptor =>
    descriptor.servicePublicKey = member.servicePublicKey &&
      descriptor.operatorAuthorizationPublicKey = member.operatorAuthorizationPublicKey &&
      descriptor.sequence = member.sequence &&
      hashIdentityDescriptorV2 cr p.net descriptor = member.descriptorHash &&
      hashRewardBindingV2 cr p.net descriptor.rewardAddress = member.rewardBindingHash &&
      descriptor.endpointDescriptorHash = member.endpointDescriptorHash

/-- An admission lease. -/
def applyAdmissionLease (inclusionHeight : UInt64) (w : Work) (record : EnvelopeRecordV2) :
    Work × SemanticStatusV2 :=
  match decodeAdmissionLeaseRecordStructureV2 record with
  | .error _ => (w, .invalidRecord)
  | .ok lease =>
    match admissionContextHeight p inclusionHeight lease with
    | none => (w, .invalidAdmission)
    | some contextHeight =>
      if !leaseBound cr p w.state lease then (w, .lifecycleBindingMismatch)
      else
        match contexts.blockHash contextHeight with
        | none => (w, .contextUnavailable)
        | some contextHash =>
          if contextHash = nullHash then (w, .contextUnavailable)
          else
            let applied := w.state.membership.applyAdmission cr p w.undo.membership lease
              ⟨p.net, contextHeight, contextHash⟩ inclusionHeight
            let verifications := { w.summary.verifications with
              randomx := w.summary.verifications.randomx + applied.verifications }
            let w := { w with
              state := { w.state with membership := applied.pipeline }
              undo := { w.undo with membership := applied.undo }
              summary := { w.summary with verifications } }
            if applied.status = .accepted ∨ applied.status = .idempotentDuplicate then
              ({ w with summary := { w.summary with
                admissionRecords := w.summary.admissionRecords + 1 } }, .accepted)
            else (w, .invalidAdmission)

/-- A service receipt. -/
def applyReceipt (inclusionHeight : UInt64) (w : Work) (record : EnvelopeRecordV2) :
    Work × SemanticStatusV2 :=
  match decodeServiceReceiptRecordStructureV2 record with
  | .error _ => (w, .invalidRecord)
  | .ok receipt =>
    match contexts.roundAnchor receipt.challenge.epoch receipt.challenge.round with
    | none => (w, .contextUnavailable)
    | some roundAnchor =>
      if roundAnchor = nullHash then (w, .contextUnavailable)
      else
        let applied := w.state.membership.applyAuthenticatedReceipt cr p w.undo.membership receipt
          inclusionHeight roundAnchor
        let verifications := { w.summary.verifications with
          signatures := w.summary.verifications.signatures + applied.verifications }
        let w := { w with
          state := { w.state with membership := applied.pipeline }
          undo := { w.undo with membership := applied.undo }
          summary := { w.summary with verifications } }
        if applied.status = .accepted ∨ applied.status = .idempotentDuplicate then
          ({ w with summary := { w.summary with
            receiptRecords := w.summary.receiptRecords + 1 } }, .accepted)
        else (w, .invalidReceipt)

/-- A payment proof, which only a Coinbase may carry, with exactly one of the two kinds of
payment it can be checked against. -/
def applyPaymentProof (transaction : SemanticTransactionContextV2) (w : Work)
    (record : EnvelopeRecordV2) : Work × SemanticStatusV2 :=
  let inScope (payment : ServicePaymentContextV2) : Bool :=
    payment.net = p.net && payment.height = transaction.inclusionHeight
  let count (w : Work) : Work := { w with summary := { w.summary with
    paymentProofRecords := w.summary.paymentProofRecords + 1 } }
  if !transaction.coinbase then (w, .paymentProofWrongCarrier)
  else
    match transaction.payment, transaction.validatedPayment with
    | none, none => (w, .paymentProofWrongCarrier)
    | some _, some _ => (w, .paymentProofWrongCarrier)
    | none, some validated =>
      if w.summary.paymentProofRecords ≠ 0 then (w, .duplicatePaymentProof)
      else if !inScope validated.context then (w, .invalidPaymentProof)
      else if !validated.matchesRecord cr record then (w, .invalidPaymentProof)
      else (count w, .accepted)
    | some payment, none =>
      if w.summary.paymentProofRecords ≠ 0 then (w, .duplicatePaymentProof)
      else if !inScope payment then (w, .invalidPaymentProof)
      else
        let (decoded, signatures) := decodePaymentProofRecordV2 cr record payment
        let verifications := { w.summary.verifications with
          signatures := w.summary.verifications.signatures + signatures }
        let w := { w with summary := { w.summary with verifications } }
        match decoded with
        | .error _ => (w, .invalidPaymentProof)
        | .ok _ => (count w, .accepted)

/-- One turn of the record loop of `apply_transaction`. -/
def applyRecord (transaction : SemanticTransactionContextV2)
    (inclusionEpoch minimumEffectiveEpoch : UInt64) (w : Work) (record : EnvelopeRecordV2) :
    Work × SemanticStatusV2 :=
  match RecordTypeV2.ofCode record.type with
  | some .identityDescriptor | some .descriptorLifecycle =>
    applyLifecycle cr p inclusionEpoch minimumEffectiveEpoch w record
  | some .admissionLease => applyAdmissionLease cr p contexts transaction.inclusionHeight w record
  | some .serviceReceipt => applyReceipt cr p contexts transaction.inclusionHeight w record
  | some .servicePaymentProof => applyPaymentProof cr p transaction w record
  | none => (w, .invalidRecord)

/-- The record loop: it stops at the first record that is refused. -/
def applyRecords (transaction : SemanticTransactionContextV2)
    (inclusionEpoch minimumEffectiveEpoch : UInt64) :
    List EnvelopeRecordV2 → Work → Work × SemanticStatusV2
  | [], w => (w, .accepted)
  | record :: records, w =>
    match applyRecord cr p contexts transaction inclusionEpoch minimumEffectiveEpoch w record with
    | (w, .accepted) =>
      applyRecords transaction inclusionEpoch minimumEffectiveEpoch records w
    | (w, status) => (w, status)

/-- Outcome of `apply_transaction`: the state and the journal of the block after the call. -/
structure Applied where
  state : SemanticStateV2
  blockUndo : Option UndoJournal
  status : SemanticStatusV2
  summary : SemanticApplySummaryV2 := {}

def applyTransaction (s : SemanticStateV2) (blockUndo : Option UndoJournal)
    (records : List EnvelopeRecordV2) (transaction : SemanticTransactionContextV2) : Applied :=
  if !p.valid then ⟨s, blockUndo, .invalidConfiguration, {}⟩
  else if transaction.inclusionHeight < p.timing.activationHeight then
    ⟨s, blockUndo, .beforeActivation, {}⟩
  else
    match inclusionEpochs p.timing transaction.inclusionHeight with
    | .error status => ⟨s, blockUndo, status, {}⟩
    | .ok (inclusionEpoch, minimumEffectiveEpoch) =>
      if records = [] then ⟨s, blockUndo, .accepted, {}⟩
      else
        match applyRecords cr p contexts transaction inclusionEpoch minimumEffectiveEpoch records
          ⟨s, s.checkpoint, {}⟩ with
        | (w, .accepted) =>
          ⟨w.state, blockUndo.map (·.append w.undo), .accepted, w.summary⟩
        | (w, status) =>
          -- attempted verifications stay visible, the records are taken back
          ⟨w.state.rollback w.undo, blockUndo, status,
            { verifications := w.summary.verifications }⟩

/-- The members the registry authorizes for an epoch. -/
def authorizedMembers (s : SemanticStateV2) (epoch : UInt64) : List FrozenMemberV2 :=
  (s.lifecycle.descriptorsForEpoch epoch).map (·.member cr p.net)

/-- `freeze_membership`: the state and the journal after the call, and the status. -/
def freezeMembership (s : SemanticStateV2) (undo : UndoJournal) (epoch height : UInt64)
    (anchorHash : Hash) : SemanticStateV2 × UndoJournal × PipelineStatusV2 :=
  let applied := s.membership.freezeMembership cr p undo.membership epoch height anchorHash
    (s.authorizedMembers cr p epoch)
  ({ s with membership := applied.pipeline }, { undo with membership := applied.undo },
    applied.status)

/-- `close_qualification`: the state and the journal after the call, and the status. -/
def closeQualification (s : SemanticStateV2) (undo : UndoJournal) (epoch height : UInt64) :
    SemanticStateV2 × UndoJournal × PipelineStatusV2 :=
  let applied := s.membership.closeQualification cr p undo.membership epoch height
  ({ s with membership := applied.pipeline }, { undo with membership := applied.undo },
    applied.status)

/-! ### What a record does -/

/-- An accepted record changes the state in one of three ways, and the journal with it. -/
inductive RecordStep (height : UInt64) :
    SemanticStateV2 × UndoJournal → SemanticStateV2 × UndoJournal → Prop
  | lifecycle {s undo record inclusionEpoch minimumEffectiveEpoch} :
      inclusionEpochs p.timing height = .ok (inclusionEpoch, minimumEffectiveEpoch) →
      s.lifecycle.Accepts cr p.net record inclusionEpoch minimumEffectiveEpoch →
      RecordStep height (s, undo)
        ({ s with lifecycle := (s.lifecycle.store undo.lifecycle record).1 },
          { undo with lifecycle := (s.lifecycle.store undo.lifecycle record).2 })
  | admission {s undo lease contextHeight contextHash} :
      admissionContextHeight p height lease = some contextHeight →
      leaseBound cr p s lease = true →
      contexts.blockHash contextHeight = some contextHash →
      s.membership.AdmissionAccepts cr p lease ⟨p.net, contextHeight, contextHash⟩ height →
      RecordStep height (s, undo)
        ({ s with membership := (s.membership.storeLease undo.membership lease height).1 },
          { undo with membership := (s.membership.storeLease undo.membership lease height).2 })
  | receipt {s undo receipt roundAnchor} :
      contexts.roundAnchor receipt.challenge.epoch receipt.challenge.round = some roundAnchor →
      s.membership.ReceiptAccepts cr p receipt height roundAnchor →
      RecordStep height (s, undo)
        ({ s with
          membership := s.membership.addReceipt (MembershipPipelineV2.storedReceipt cr p.net receipt height) }, undo)

/-- The states that accepted records lead to from a state, at one height. -/
def Evolves (height : UInt64) : SemanticStateV2 → SemanticStateV2 → Prop :=
  Relation.ReflTransGen fun s s' =>
    ∃ undo undo', RecordStep cr p contexts height (s, undo) (s', undo')

section RecordSteps

variable {cr p contexts} {height inclusionEpoch minimumEffectiveEpoch : UInt64} {w : Work}
  {record : EnvelopeRecordV2} {transaction : SemanticTransactionContextV2}

open Relation

lemma applyLifecycle_step (hp : p.valid = true)
    (hepochs : inclusionEpochs p.timing height = .ok (inclusionEpoch, minimumEffectiveEpoch)) :
    let w' := (applyLifecycle cr p inclusionEpoch minimumEffectiveEpoch w record).1
    ReflGen (RecordStep cr p contexts height) (w.state, w.undo) (w'.state, w'.undo) := by
  have hnet : p.net.valid = true := by
    simp only [SemanticParametersV2.valid, Bool.and_eq_true] at hp
    exact hp.1
  simp only [applyLifecycle]
  cases decodeLifecycleRecordStructureV2 record with
  | error => exact .refl
  | ok lifecycle =>
    obtain ⟨status, signatures, hstatus, happly⟩ | ⟨signatures, hacc, happly⟩ :=
      w.state.lifecycle.apply_cases cr hnet w.undo.lifecycle lifecycle inclusionEpoch
        minimumEffectiveEpoch
    · simp only [happly]
      split_ifs <;> exact .refl
    · simp only [happly]
      exact .single (.lifecycle hepochs hacc)

lemma applyAdmissionLease_step :
    let w' := (applyAdmissionLease cr p contexts height w record).1
    ReflGen (RecordStep cr p contexts height) (w.state, w.undo) (w'.state, w'.undo) := by
  simp only [applyAdmissionLease]
  split
  · exact .refl
  rename_i lease _
  split
  · exact .refl
  rename_i contextHeight hheight
  split_ifs with hbound
  · exact .refl
  split
  · exact .refl
  rename_i contextHash hhash
  obtain ⟨status, randomx, hstatus, happly⟩ | ⟨randomx, hacc, happly⟩ :=
    w.state.membership.applyAdmission_cases cr p w.undo.membership lease
      ⟨p.net, contextHeight, contextHash⟩ height
  · simp only [happly]
    split_ifs <;> exact .refl
  · simp only [happly, true_or, if_true]
    split_ifs
    · exact .refl
    · exact .single (.admission hheight (by simpa using hbound) hhash hacc)

lemma applyReceipt_step :
    let w' := (applyReceipt cr p contexts height w record).1
    ReflGen (RecordStep cr p contexts height) (w.state, w.undo) (w'.state, w'.undo) := by
  simp only [applyReceipt]
  split
  · exact .refl
  rename_i receipt _
  split
  · exact .refl
  rename_i roundAnchor hanchor
  obtain ⟨status, signatures, hstatus, happly⟩ | ⟨signatures, hacc, happly⟩ :=
    w.state.membership.applyAuthenticatedReceipt_cases cr p w.undo.membership receipt height
      roundAnchor
  · simp only [happly]
    split_ifs <;> exact .refl
  · simp only [happly, true_or, if_true]
    split_ifs
    · exact .refl
    · exact .single (.receipt hanchor hacc)

/-- A payment proof is checked, not stored. -/
lemma applyPaymentProof_state :
    (applyPaymentProof cr p transaction w record).1.state = w.state ∧
      (applyPaymentProof cr p transaction w record).1.undo = w.undo := by
  simp only [applyPaymentProof]
  cases transaction.payment <;> cases transaction.validatedPayment <;> dsimp only <;>
    repeat' split
  all_goals exact ⟨rfl, rfl⟩

lemma applyRecord_step (cr : Crypto) (contexts : CanonicalContextSourceV2) (hp : p.valid = true)
    (hepochs : inclusionEpochs p.timing transaction.inclusionHeight =
      .ok (inclusionEpoch, minimumEffectiveEpoch)) (w : Work) (record : EnvelopeRecordV2) :
    let w' := (applyRecord cr p contexts transaction inclusionEpoch minimumEffectiveEpoch w
      record).1
    ReflGen (RecordStep cr p contexts transaction.inclusionHeight) (w.state, w.undo)
      (w'.state, w'.undo) := by
  simp only [applyRecord]
  split
  · exact applyLifecycle_step hp hepochs
  · exact applyLifecycle_step hp hepochs
  · exact applyAdmissionLease_step
  · exact applyReceipt_step
  · rw [applyPaymentProof_state.1, applyPaymentProof_state.2]
  · exact .refl

lemma inclusionEpochs_ne_error_accepted {timing : EpochTimingV2} :
    inclusionEpochs timing height ≠ .error .accepted := by
  simp only [inclusionEpochs]
  split_ifs <;> simp

/-- The record loop takes record steps, whether or not it reaches the end. -/
lemma applyRecords_steps (cr : Crypto) (contexts : CanonicalContextSourceV2)
    (hp : p.valid = true)
    (hepochs : inclusionEpochs p.timing transaction.inclusionHeight =
      .ok (inclusionEpoch, minimumEffectiveEpoch)) (records : List EnvelopeRecordV2) (w : Work) :
    let w' := (applyRecords cr p contexts transaction inclusionEpoch minimumEffectiveEpoch records
      w).1
    ReflTransGen (RecordStep cr p contexts transaction.inclusionHeight) (w.state, w.undo)
      (w'.state, w'.undo) := by
  induction records generalizing w with
  | nil => exact .refl
  | cons record records ih =>
    have hstep := applyRecord_step cr contexts hp hepochs w record
    simp only [applyRecords]
    split
    · rename_i w' happly
      rw [happly] at hstep
      exact hstep.to_reflTransGen.trans (ih w')
    · rename_i w' status _ happly
      rw [happly] at hstep
      exact hstep.to_reflTransGen

lemma evolves_of_recordSteps {x y : SemanticStateV2 × UndoJournal}
    (h : ReflTransGen (RecordStep cr p contexts height) x y) :
    Evolves cr p contexts height x.1 y.1 :=
  h.lift Prod.fst fun a b hstep => ⟨a.2, b.2, hstep⟩

lemma Evolves.invariant {P : SemanticStateV2 → Prop} {s s' : SemanticStateV2}
    (hstep : ∀ {s undo s' undo'}, RecordStep cr p contexts height (s, undo) (s', undo') →
      P s → P s') (h : Evolves cr p contexts height s s') (hs : P s) : P s' := by
  induction h with
  | refl => exact hs
  | tail _ hlast ih =>
    obtain ⟨undo, undo', hlast⟩ := hlast
    exact hstep hlast ih

/-- Epochs have at least two blocks, so the epochs of a height are representable. -/
lemma inclusionEpochs_ok {timing : EpochTimingV2} (hv : timing.valid = true) (height : UInt64) :
    ∃ epochs, inclusionEpochs timing height = .ok epochs := by
  have hlen := EpochTimingV2.len_gt_one hv
  have hquot : (height / timing.epochLength).toNat = height.toNat / timing.len := UInt64.toNat_div ..
  have hle : height.toNat / timing.len ≤ height.toNat / 2 := Nat.div_le_div_left hlen (by norm_num)
  have hlt := height.toNat_lt
  have hsucc : (height / timing.epochLength + 1).toNat = height.toNat / timing.len + 1 := by
    rw [UInt64.toNat_add, hquot, UInt64.toNat_one]
    omega
  simp only [inclusionEpochs]
  split_ifs with hmax hcutoff hmax'
  · rw [← UInt64.toNat_inj, hquot, toNat_uint64Max] at hmax
    omega
  · exact ⟨_, rfl⟩
  · rw [← UInt64.toNat_inj, hsucc, toNat_uint64Max] at hmax'
    omega
  · exact ⟨_, rfl⟩

lemma applyTransaction_nil (cr : Crypto) (contexts : CanonicalContextSourceV2)
    (hp : p.valid = true) (s : SemanticStateV2) (blockUndo : Option UndoJournal)
    (hactive : p.timing.activationHeight ≤ transaction.inclusionHeight) :
    s.applyTransaction cr p contexts blockUndo [] transaction = ⟨s, blockUndo, .accepted, {}⟩ := by
  have hv : p.timing.valid = true := by
    simp only [SemanticParametersV2.valid, SemanticParametersV2.membershipValid,
      Bool.and_eq_true] at hp
    exact hp.2.1.1.1.1.1
  obtain ⟨epochs, hepochs⟩ := inclusionEpochs_ok hv transaction.inclusionHeight
  unfold applyTransaction
  rw [if_neg (by simp [hp]), if_neg (UInt64.not_lt.mpr hactive), hepochs]
  rfl

lemma applyTransaction_record {s : SemanticStateV2} (hp : p.valid = true)
    (hactive : p.timing.activationHeight ≤ transaction.inclusionHeight)
    (hepochs : inclusionEpochs p.timing transaction.inclusionHeight =
      .ok (inclusionEpoch, minimumEffectiveEpoch)) (blockUndo : Option UndoJournal) :
    (s.applyTransaction cr p contexts blockUndo [record] transaction).status =
      (applyRecord cr p contexts transaction inclusionEpoch minimumEffectiveEpoch
        ⟨s, s.checkpoint, {}⟩ record).2 := by
  unfold applyTransaction
  rw [if_neg (by simp [hp]), if_neg (UInt64.not_lt.mpr hactive), hepochs]
  dsimp only
  rw [if_neg (by simp), applyRecords]
  cases applyRecord cr p contexts transaction inclusionEpoch minimumEffectiveEpoch
    ⟨s, s.checkpoint, {}⟩ record with
  | mk w status => cases status <;> rfl

end RecordSteps

end SemanticStateV2

end Qwertycoin
