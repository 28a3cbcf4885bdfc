import Qwertycoin.Lifecycle
import Qwertycoin.Receipt

/-
# Admission, snapshots and qualification

An identity asks to serve an epoch with an admission lease, which carries proof of work.  At the
anchor of the epoch the leases that match the lifecycle registry are frozen into a snapshot; the
members of the snapshot earn receipts from committees drawn from it; at the evidence deadline
the members with enough receipts are the qualified nodes of the epoch.
-/

namespace Qwertycoin

open Bytes

/-! ## Policies -/

structure CommitteePolicyV2 where
  committeeSize : ℕ
  threshold : ℕ
  roundCount : UInt64
  roundsRequired : UInt64
  serviceKind : UInt8
  roundOffsets : List UInt64
  maxActivePopulation : ℕ
deriving DecidableEq

/-- `admission_work_algorithm_v2`; `randomx` is its only value. -/
inductive AdmissionWorkAlgorithmV2
  | randomx
deriving DecidableEq

def AdmissionWorkAlgorithmV2.code : AdmissionWorkAlgorithmV2 → UInt8
  | randomx => 1

structure AdmissionPolicyV2 where
  algorithm : AdmissionWorkAlgorithmV2
  leadingZeroBits : UInt8
  contextEpochOffset : UInt64
deriving DecidableEq

def AdmissionPolicyV2.valid (policy : AdmissionPolicyV2) : Bool :=
  policy.algorithm = .randomx && 0 < policy.leadingZeroBits && policy.contextEpochOffset = 1

def requiredReceiptsForCommitteeSizeV2 (actualCommitteeSize : ℕ) : ℕ :=
  actualCommitteeSize - actualCommitteeSize / 3

def CommitteePolicyV2.valid (policy : CommitteePolicyV2) : Bool :=
  0 < policy.committeeSize && 0 < policy.threshold &&
    policy.threshold = requiredReceiptsForCommitteeSizeV2 policy.committeeSize &&
    0 < policy.roundCount && 0 < policy.roundsRequired &&
    policy.roundsRequired ≤ policy.roundCount && policy.serviceKind ≠ 0 &&
    policy.committeeSize ≤ policy.maxActivePopulation &&
    policy.roundOffsets.length = policy.roundCount.toNat &&
    policy.roundOffsets.head? = some 0 &&
    (policy.roundOffsets.zip policy.roundOffsets.tail).all fun (left, right) => left < right

/-- What a `semantic_state_v2` is constructed with. -/
structure SemanticParametersV2 where
  net : Scope
  timing : EpochTimingV2
  admissionPolicy : AdmissionPolicyV2
  committeePolicy : CommitteePolicyV2
deriving DecidableEq

/-- `valid_` of the membership pipeline. -/
def SemanticParametersV2.membershipValid (p : SemanticParametersV2) : Bool :=
  p.timing.valid && p.admissionPolicy.valid && p.committeePolicy.valid &&
    p.committeePolicy.roundOffsets.getLast?.any
      (fun offset => offset < p.timing.epochLength - p.timing.anchorDepth) &&
    p.net.genesisHash ≠ nullHash && p.net.parameterSetHash ≠ nullHash

/-- `valid_` of the semantic state: the lifecycle registry and the pipeline are valid. -/
def SemanticParametersV2.valid (p : SemanticParametersV2) : Bool :=
  p.net.valid && p.membershipValid

/-- `receipt_inclusion_window_v2`: the first and the last height at which a receipt of a round
may be included. -/
def receiptInclusionWindowV2 (timing : EpochTimingV2) (policy : CommitteePolicyV2)
    (epoch round : UInt64) : Option (UInt64 × UInt64) := do
  if !timing.valid || !policy.valid || policy.roundCount ≤ round then failure
  let offset ← policy.roundOffsets[round.toNat]?
  let epochStart ← timing.epochStart epoch
  let evidenceDeadline ← timing.evidenceDeadline epoch
  let anchor ← checkedAdd epochStart offset
  let firstHeight ← if round = 0 then some anchor else checkedAdd anchor 1
  let lastHeight ←
    if round + 1 < policy.roundCount then do
      let nextOffset ← policy.roundOffsets[(round + 1).toNat]?
      let nextRoundAnchor ← checkedAdd epochStart nextOffset
      if nextRoundAnchor = 0 then none else some (nextRoundAnchor - 1)
    else some evidenceDeadline
  if firstHeight ≤ lastHeight then some (firstHeight, lastHeight) else none

/-! ## Leases -/

structure FrozenMemberV2 where
  servicePublicKey : PublicKey
  identityId : Hash
  operatorAuthorizationPublicKey : PublicKey
  descriptorHash : Hash
  rewardBindingHash : Hash
  endpointDescriptorHash : Hash
  sequence : UInt64
deriving DecidableEq

structure AdmissionLeaseV2 where
  member : FrozenMemberV2
  targetEpoch : UInt64
  workAlgorithm : UInt8
  leadingZeroBits : UInt8
  admissionContextHeight : UInt64
  admissionContextHash : Hash
  nonce : UInt64
  workHash : Hash
  leaseHash : Hash
deriving DecidableEq

structure AdmissionContextV2 where
  net : Scope
  height : UInt64
  blockHash : Hash
deriving DecidableEq

def FrozenMemberV2.bytes (member : FrozenMemberV2) : List UInt8 :=
  member.servicePublicKey.data ++ member.identityId.data ++
    member.operatorAuthorizationPublicKey.data ++ member.descriptorHash.data ++
    member.rewardBindingHash.data ++ member.endpointDescriptorHash.data ++ u64 member.sequence

/-- The part of a lease that both of its hashes cover. -/
def AdmissionLeaseV2.workBytes (lease : AdmissionLeaseV2) : List UInt8 :=
  lease.member.bytes ++ u64 lease.targetEpoch ++ [lease.workAlgorithm, lease.leadingZeroBits] ++
    u64 lease.admissionContextHeight ++ lease.admissionContextHash.data ++ u64 lease.nonce

def calculateAdmissionWorkV2 (cr : Crypto) (lease : AdmissionLeaseV2)
    (context : AdmissionContextV2) : Hash :=
  if context.net.nettype = .undefined ∨ context.blockHash = nullHash then nullHash
  else
    cr.rxSlowHash context.blockHash (ascii "QWC_EPOSE_ADMISSION_WORK_V2" ++ context.net.bytes ++
      u64 context.height ++ context.blockHash.data ++ lease.workBytes)

def calculateAdmissionLeaseHashV2 (cr : Crypto) (lease : AdmissionLeaseV2)
    (context : AdmissionContextV2) : Hash :=
  cr.cnFastHash (ascii "QWC_EPOSE_ADMISSION_LEASE_V2" ++ context.net.bytes ++ lease.workBytes ++
    lease.workHash.data)

/-- The number of zero bits a byte string starts with. -/
def leadingZeroBits : List UInt8 → ℕ
  | [] => 0
  | byte :: bytes => if byte = 0 then 8 + leadingZeroBits bytes else 7 - byte.toNat.log2

def admissionWorkMeetsTargetV2 (workHash : Hash) (requiredBits : UInt8) : Bool :=
  0 < requiredBits && requiredBits.toNat ≤ leadingZeroBits workHash.data

/-- `validate_admission_lease_v2`: the verdict and the number of RandomX evaluations. -/
def validateAdmissionLeaseV2 (cr : Crypto) (lease : AdmissionLeaseV2)
    (context : AdmissionContextV2) (policy : AdmissionPolicyV2) : Bool × ℕ :=
  let member := lease.member
  if !policy.valid || !context.net.valid || context.blockHash = nullHash ||
      !cr.checkKey member.servicePublicKey || member.identityId = nullHash ||
      !cr.checkKey member.operatorAuthorizationPublicKey ||
      member.servicePublicKey = member.operatorAuthorizationPublicKey ||
      deriveIdentityIdV2 cr context.net member.operatorAuthorizationPublicKey
        ≠ member.identityId ||
      member.descriptorHash = nullHash || member.rewardBindingHash = nullHash ||
      member.endpointDescriptorHash = nullHash || lease.targetEpoch = 0 ||
      lease.workAlgorithm ≠ policy.algorithm.code ||
      lease.leadingZeroBits ≠ policy.leadingZeroBits ||
      lease.admissionContextHeight ≠ context.height ||
      lease.admissionContextHash ≠ context.blockHash then (false, 0)
  else
    let expectedWork := calculateAdmissionWorkV2 cr lease context
    (expectedWork = lease.workHash &&
        admissionWorkMeetsTargetV2 expectedWork policy.leadingZeroBits &&
        calculateAdmissionLeaseHashV2 cr lease context = lease.leaseHash, 1)

/-- `same_lease`.  Equal members are equal in every field `same_member` compares. -/
def sameLease (left right : AdmissionLeaseV2) : Bool :=
  left.targetEpoch = right.targetEpoch && left.member = right.member &&
    left.leaseHash = right.leaseHash

/-- `member_less` -/
def memberLess (left right : FrozenMemberV2) : Bool :=
  if memLess left.servicePublicKey.data right.servicePublicKey.data then true
  else if memLess right.servicePublicKey.data left.servicePublicKey.data then false
  else left.sequence < right.sequence

/-! ## The pipeline -/

structure MembershipSnapshotV2 where
  epoch : UInt64
  cutoffHeight : UInt64
  anchorHeight : UInt64
  anchorHash : Hash
  members : List FrozenMemberV2
  snapshotHash : Hash
deriving DecidableEq

structure VerifierAssignmentV2 where
  verifierPublicKey : PublicKey
  selectionScore : Hash
deriving DecidableEq

structure QualificationSetV2 where
  epoch : UInt64
  closedHeight : UInt64
  snapshotHash : Hash
  qualifiedNodes : List PublicKey
  qualificationHash : Hash
deriving DecidableEq

structure StoredLease where
  lease : AdmissionLeaseV2
  inclusionHeight : UInt64
deriving DecidableEq

structure StoredReceipt where
  epoch : UInt64
  round : UInt64
  serviceKind : UInt8
  subjectPublicKey : PublicKey
  verifierPublicKey : PublicKey
  receiptHash : Hash
  inclusionHeight : UInt64
deriving DecidableEq

/-- `pipeline_status_v2` -/
inductive PipelineStatusV2
  | accepted
  | idempotentDuplicate
  | invalidConfiguration
  | beforeActivation
  | invalidEpoch
  | tooLate
  | invalidMember
  | conflictingRecord
  | populationLimitExceeded
  | snapshotMissing
  | snapshotAlreadyFrozen
  | wrongBoundary
  | receiptNotPrevalidated
  | subjectNotInSnapshot
  | verifierNotInSnapshot
  | verifierNotSelected
  | receiptSlotConflict
  | invalidServiceKind
  | qualificationAlreadyClosed
deriving DecidableEq

/-- `membership_pipeline_v2`: its mutable part. -/
structure MembershipPipelineV2 where
  leases : List StoredLease := []
  snapshots : Std.ExtTreeMap UInt64 MembershipSnapshotV2 := ∅
  receipts : List StoredReceipt := []
  qualifications : Std.ExtTreeMap UInt64 QualificationSetV2 := ∅

namespace MembershipPipelineV2

/-- `lease_change`: the lease that was replaced. -/
structure LeaseChange where
  index : ℕ
  stored : StoredLease
deriving DecidableEq

/-- `membership_pipeline_v2::undo_journal` -/
structure UndoJournal where
  leasesSize : ℕ
  receiptsSize : ℕ
  replacedLeases : List LeaseChange
  insertedSnapshots : List UInt64
  insertedQualifications : List UInt64
deriving DecidableEq

def checkpoint (m : MembershipPipelineV2) : UndoJournal :=
  ⟨m.leases.length, m.receipts.length, [], [], []⟩

/-- The change that puts the replaced lease back. -/
def LeaseChange.restore (change : LeaseChange) (_ : StoredLease) : StoredLease := change.stored

def rollback (m : MembershipPipelineV2) (undo : UndoJournal) : MembershipPipelineV2 where
  leases := UndoLog.rewind LeaseChange.index LeaseChange.restore undo.leasesSize
    undo.replacedLeases m.leases
  receipts := m.receipts.take undo.receiptsSize
  snapshots := UndoLog.eraseKeys undo.insertedSnapshots m.snapshots
  qualifications := UndoLog.eraseKeys undo.insertedQualifications m.qualifications

def snapshot (m : MembershipPipelineV2) (epoch : UInt64) : Option MembershipSnapshotV2 :=
  m.snapshots[epoch]?

def qualification (m : MembershipPipelineV2) (epoch : UInt64) : Option QualificationSetV2 :=
  m.qualifications[epoch]?

def hasAdmission (m : MembershipPipelineV2) (identityId : Hash) (targetEpoch : UInt64) : Bool :=
  m.leases.any fun stored =>
    stored.lease.targetEpoch = targetEpoch && stored.lease.member.identityId = identityId

def hasReceiptSlot (m : MembershipPipelineV2) (epoch round : UInt64)
    (subjectPublicKey verifierPublicKey : PublicKey) : Bool :=
  m.receipts.any fun stored =>
    stored.epoch = epoch && stored.round = round &&
      stored.subjectPublicKey = subjectPublicKey && stored.verifierPublicKey = verifierPublicKey

/-- Outcome of an operation on the pipeline: the pipeline and the journal after the call, the
status and the verifications that were attempted. -/
structure Applied where
  pipeline : MembershipPipelineV2
  undo : UndoJournal
  status : PipelineStatusV2
  verifications : ℕ

/-- The checks of `apply_admission` that come before the lease itself is validated. -/
def admissionPrecheck (cr : Crypto) (p : SemanticParametersV2) (m : MembershipPipelineV2)
    (lease : AdmissionLeaseV2) (context : AdmissionContextV2) (inclusionHeight : UInt64) :
    PipelineStatusV2 :=
  if !p.membershipValid then .invalidConfiguration
  else if context.net ≠ p.net ∨ inclusionHeight ≤ context.height then .invalidMember
  else if inclusionHeight < p.timing.activationHeight then .beforeActivation
  else
    let offset := p.admissionPolicy.contextEpochOffset
    match p.timing.firstServiceEpoch, p.timing.epochStart (lease.targetEpoch - offset),
      p.timing.enrollmentCutoff lease.targetEpoch with
    | some firstService, some expectedContextHeight, some cutoff =>
      if lease.targetEpoch < firstService ∨ lease.targetEpoch < offset ∨
          context.height ≠ expectedContextHeight then .invalidEpoch
      else if cutoff < inclusionHeight then .tooLate
      else if !cr.checkKey lease.member.servicePublicKey ||
          !cr.checkKey lease.member.operatorAuthorizationPublicKey ||
          lease.member.servicePublicKey = lease.member.operatorAuthorizationPublicKey ||
          lease.member.identityId = nullHash then .invalidMember
      else if lease.targetEpoch ∈ m.snapshots then .tooLate
      else .accepted
    | _, _, _ => .invalidEpoch

/-- Whether a stored lease is for the epoch and the identity of a lease. -/
def sameSlot (lease : AdmissionLeaseV2) (stored : StoredLease) : Bool :=
  stored.lease.targetEpoch = lease.targetEpoch &&
    stored.lease.member.identityId = lease.member.identityId

/-- Whether another identity holds the service key of a lease in its epoch. -/
def keyConflict (lease : AdmissionLeaseV2) (stored : StoredLease) : Bool :=
  stored.lease.targetEpoch = lease.targetEpoch &&
    stored.lease.member.identityId ≠ lease.member.identityId &&
    stored.lease.member.servicePublicKey = lease.member.servicePublicKey

/-- How many leases are stored for an epoch. -/
def epochPopulation (m : MembershipPipelineV2) (epoch : UInt64) : ℕ :=
  m.leases.countP fun stored => stored.lease.targetEpoch = epoch

/-- The status `apply_admission` returns and the number of RandomX evaluations it makes. -/
def admissionStatus (cr : Crypto) (p : SemanticParametersV2) (m : MembershipPipelineV2)
    (lease : AdmissionLeaseV2) (context : AdmissionContextV2) (inclusionHeight : UInt64) :
    PipelineStatusV2 × ℕ :=
  let precheck := admissionPrecheck cr p m lease context inclusionHeight
  let validated := validateAdmissionLeaseV2 cr lease context p.admissionPolicy
  if precheck ≠ .accepted then (precheck, 0)
  else if validated.1 = false then (.invalidMember, validated.2)
  else if m.leases.any (keyConflict lease) then (.conflictingRecord, validated.2)
  else
    match m.leases.find? (sameSlot lease) with
    | some stored =>
      if sameLease stored.lease lease then (.idempotentDuplicate, validated.2)
      else if stored.lease.member.sequence < lease.member.sequence then (.accepted, validated.2)
      else (.conflictingRecord, validated.2)
    | none =>
      if p.committeePolicy.maxActivePopulation ≤ m.epochPopulation lease.targetEpoch then
        (.populationLimitExceeded, validated.2)
      else (.accepted, validated.2)

/-- The mutation at the end of `apply_admission`: a lease of the same identity and epoch is
replaced, after it was logged; otherwise the lease is appended. -/
def storeLease (m : MembershipPipelineV2) (undo : UndoJournal) (lease : AdmissionLeaseV2)
    (inclusionHeight : UInt64) : MembershipPipelineV2 × UndoJournal :=
  match m.leases.find? (sameSlot lease) with
  | some stored =>
    let index := m.leases.findIdx (sameSlot lease)
    ({ m with leases := m.leases.modify index fun _ => ⟨lease, inclusionHeight⟩ },
      { undo with replacedLeases := undo.replacedLeases ++ [⟨index, stored⟩] })
  | none => ({ m with leases := m.leases ++ [⟨lease, inclusionHeight⟩] }, undo)

def applyAdmission (cr : Crypto) (p : SemanticParametersV2) (m : MembershipPipelineV2)
    (undo : UndoJournal) (lease : AdmissionLeaseV2) (context : AdmissionContextV2)
    (inclusionHeight : UInt64) : Applied :=
  let (status, randomx) := m.admissionStatus cr p lease context inclusionHeight
  if status = .accepted then
    let (pipeline, undo) := m.storeLease undo lease inclusionHeight
    ⟨pipeline, undo, status, randomx⟩
  else ⟨m, undo, status, randomx⟩

section Admission

variable {cr : Crypto} {p : SemanticParametersV2} {m : MembershipPipelineV2} {undo : UndoJournal}
  {lease : AdmissionLeaseV2} {context : AdmissionContextV2} {inclusionHeight : UInt64}

/-- What `apply_admission` has checked when it stores a lease. -/
structure AdmissionAccepts (cr : Crypto) (p : SemanticParametersV2) (m : MembershipPipelineV2)
    (lease : AdmissionLeaseV2) (context : AdmissionContextV2) (inclusionHeight : UInt64) :
    Prop where
  precheck : admissionPrecheck cr p m lease context inclusionHeight = .accepted
  validated : (validateAdmissionLeaseV2 cr lease context p.admissionPolicy).1 = true
  key_free : ∀ stored ∈ m.leases, keyConflict lease stored = false
  newer : ∀ stored, m.leases.find? (sameSlot lease) = some stored →
    sameLease stored.lease lease = false ∧ stored.lease.member.sequence < lease.member.sequence
  room : m.leases.find? (sameSlot lease) = none →
    m.epochPopulation lease.targetEpoch < p.committeePolicy.maxActivePopulation

lemma admissionStatus_eq_accepted_iff :
    (m.admissionStatus cr p lease context inclusionHeight).1 = .accepted ↔
      AdmissionAccepts cr p m lease context inclusionHeight := by
  simp only [admissionStatus]
  constructor
  · intro h
    cases hfind : m.leases.find? (sameSlot lease) with
    | none =>
      simp only [hfind] at h
      split_ifs at h with hpre hval hkey hroom
      · exact absurd h hpre
      · simp only [ne_eq, not_not, Bool.not_eq_false] at hpre hval
        simp only [List.any_eq_true, not_exists, not_and, Bool.not_eq_true] at hkey
        exact ⟨hpre, hval, hkey, fun other hother => by simp [hfind] at hother,
          fun _ => not_le.mp hroom⟩
    | some stored =>
      simp only [hfind] at h
      split_ifs at h with hpre hval hkey hsame hseq
      · exact absurd h hpre
      · simp only [ne_eq, not_not, Bool.not_eq_false] at hpre hval
        simp only [List.any_eq_true, not_exists, not_and, Bool.not_eq_true] at hkey
        refine ⟨hpre, hval, hkey, fun other hother => ?_, fun hnone => ?_⟩
        · obtain rfl := Option.some.inj (hfind.symm.trans hother)
          exact ⟨Bool.eq_false_iff.mpr hsame, hseq⟩
        · simp [hfind] at hnone
  · rintro ⟨hpre, hval, hkey, hnewer, hroom⟩
    have hany : m.leases.any (keyConflict lease) = false := by
      simpa only [List.any_eq_false, Bool.not_eq_true] using hkey
    simp only [hpre, hval, hany, ne_eq, not_true_eq_false, if_false, Bool.true_eq_false,
      Bool.false_eq_true]
    cases hfind : m.leases.find? (sameSlot lease) with
    | none => simp [not_le.mpr (hroom hfind)]
    | some stored =>
      obtain ⟨hsame, hseq⟩ := hnewer stored hfind
      simp [hsame, hseq]

/-- `apply_admission` either changes nothing or stores the lease it accepted. -/
lemma applyAdmission_cases (cr : Crypto) (p : SemanticParametersV2) (m : MembershipPipelineV2)
    (undo : UndoJournal) (lease : AdmissionLeaseV2) (context : AdmissionContextV2) (inclusionHeight : UInt64) :
    (∃ status randomx, status ≠ .accepted ∧
        m.applyAdmission cr p undo lease context inclusionHeight = ⟨m, undo, status, randomx⟩) ∨
      ∃ randomx, m.AdmissionAccepts cr p lease context inclusionHeight ∧
        m.applyAdmission cr p undo lease context inclusionHeight =
          ⟨(m.storeLease undo lease inclusionHeight).1,
            (m.storeLease undo lease inclusionHeight).2, .accepted, randomx⟩ := by
  simp only [applyAdmission]
  split
  · rename_i h
    exact Or.inr ⟨_, admissionStatus_eq_accepted_iff.mp h, by rw [h]⟩
  · rename_i h
    exact Or.inl ⟨_, _, h, rfl⟩

lemma validateAdmissionLeaseV2_randomx_le :
    (validateAdmissionLeaseV2 cr lease context p.admissionPolicy).2 ≤ 1 := by
  simp only [validateAdmissionLeaseV2]
  split <;> simp

lemma applyAdmission_randomx_le :
    (m.applyAdmission cr p undo lease context inclusionHeight).verifications ≤ 1 := by
  have h : (m.admissionStatus cr p lease context inclusionHeight).2 ≤ 1 := by
    have hval : (validateAdmissionLeaseV2 cr lease context p.admissionPolicy).2 ≤ 1 :=
      validateAdmissionLeaseV2_randomx_le
    simp only [admissionStatus]
    cases m.leases.find? (sameSlot lease) <;> dsimp only <;> split_ifs <;>
      first | exact Nat.zero_le 1 | exact hval
  simp only [applyAdmission]
  split <;> exact h

end Admission

/-! ### Freezing -/

/-- Whether a stored lease enters the snapshot of an epoch: it targets the epoch, was included by
the cutoff, and is the member the lifecycle registry authorizes for its identity. -/
def eligible (epoch cutoff : UInt64) (authorizedMembers : List FrozenMemberV2)
    (stored : StoredLease) : Bool :=
  stored.lease.targetEpoch = epoch && stored.inclusionHeight ≤ cutoff &&
    authorizedMembers.find? (fun member => member.identityId = stored.lease.member.identityId) =
      some stored.lease.member

/-- The loop of `freeze_membership_impl` over the leases, from the members collected so far. -/
def collectMembers (epoch cutoff : UInt64) (authorizedMembers : List FrozenMemberV2)
    (maxActivePopulation : ℕ) :
    List StoredLease → List FrozenMemberV2 → Except PipelineStatusV2 (List FrozenMemberV2)
  | [], members => .ok members
  | stored :: leases, members =>
    if !eligible epoch cutoff authorizedMembers stored then
      collectMembers epoch cutoff authorizedMembers maxActivePopulation leases members
    else if members.any (fun member => member.identityId = stored.lease.member.identityId ||
        member.servicePublicKey = stored.lease.member.servicePublicKey) then
      .error .conflictingRecord
    else if maxActivePopulation < members.length + 1 then .error .populationLimitExceeded
    else
      collectMembers epoch cutoff authorizedMembers maxActivePopulation leases
        (members ++ [stored.lease.member])

def hashSnapshot (cr : Crypto) (net : Scope) (epoch cutoffHeight anchorHeight : UInt64)
    (anchorHash : Hash) (members : List FrozenMemberV2) : Hash :=
  cr.cnFastHash (ascii "QWC_EPOSE_SNAPSHOT_V2" ++ net.bytes ++ u64 epoch ++ u64 cutoffHeight ++
    u64 anchorHeight ++ anchorHash.data ++ u64 (UInt64.ofNat members.length) ++
    members.flatMap FrozenMemberV2.bytes)

/-- The snapshot `freeze_membership` takes, given the members the lifecycle registry
authorizes. -/
def frozenSnapshot (cr : Crypto) (p : SemanticParametersV2) (m : MembershipPipelineV2)
    (epoch height : UInt64) (anchorHash : Hash) (authorizedMembers : List FrozenMemberV2) :
    Except PipelineStatusV2 MembershipSnapshotV2 :=
  if !p.membershipValid then .error .invalidConfiguration
  else if epoch ∈ m.snapshots then .error .snapshotAlreadyFrozen
  else
    match p.timing.firstServiceEpoch, p.timing.enrollmentCutoff epoch,
      p.timing.committeeAnchor epoch with
    | some firstService, some cutoff, some expectedAnchor =>
      if epoch < firstService then .error .invalidEpoch
      else if height ≠ expectedAnchor then .error .wrongBoundary
      else do
        let collected ← collectMembers epoch cutoff authorizedMembers
          p.committeePolicy.maxActivePopulation m.leases []
        let members := collected.insertionSort fun left right => memberLess right left = false
        return { epoch, cutoffHeight := cutoff, anchorHeight := height, anchorHash, members
                 snapshotHash := hashSnapshot cr p.net epoch cutoff height anchorHash members }
    | _, _, _ => .error .invalidEpoch

/-- The mutation at the end of `freeze_membership_impl`, with its log entry. -/
def storeSnapshot (m : MembershipPipelineV2) (undo : UndoJournal) (epoch : UInt64)
    (frozen : MembershipSnapshotV2) : MembershipPipelineV2 × UndoJournal :=
  ({ m with snapshots := m.snapshots.insert epoch frozen },
    { undo with insertedSnapshots := undo.insertedSnapshots ++ [epoch] })

lemma mem_storeSnapshot {m : MembershipPipelineV2} {undo : UndoJournal} {epoch epoch' : UInt64}
    {frozen : MembershipSnapshotV2} :
    epoch' ∈ (m.storeSnapshot undo epoch frozen).1.snapshots ↔
      epoch' = epoch ∨ epoch' ∈ m.snapshots := by
  rw [show (m.storeSnapshot undo epoch frozen).1.snapshots = m.snapshots.insert epoch frozen
    from rfl, Std.ExtTreeMap.mem_insert, Std.compare_eq_iff_eq, eq_comm]

def freezeMembership (cr : Crypto) (p : SemanticParametersV2) (m : MembershipPipelineV2)
    (undo : UndoJournal) (epoch height : UInt64) (anchorHash : Hash)
    (authorizedMembers : List FrozenMemberV2) : Applied :=
  match m.frozenSnapshot cr p epoch height anchorHash authorizedMembers with
  | .error status => ⟨m, undo, status, 0⟩
  | .ok frozen =>
    let (pipeline, undo) := m.storeSnapshot undo epoch frozen
    ⟨pipeline, undo, .accepted, 0⟩

section Freezing

variable {cr : Crypto} {p : SemanticParametersV2} {m : MembershipPipelineV2} {undo : UndoJournal}
  {epoch cutoff height : UInt64} {anchorHash : Hash} {authorizedMembers : List FrozenMemberV2}

/-- Two members of a snapshot differ in their identity and in their service key. -/
def DistinctMembers (left right : FrozenMemberV2) : Prop :=
  left.identityId ≠ right.identityId ∧ left.servicePublicKey ≠ right.servicePublicKey

/-- The members of the leases that enter a snapshot, in the order of the leases. -/
def eligibleMembers (epoch cutoff : UInt64) (authorizedMembers : List FrozenMemberV2)
    (leases : List StoredLease) : List FrozenMemberV2 :=
  (leases.filter (eligible epoch cutoff authorizedMembers)).map (·.lease.member)

/-- The loop succeeds exactly when the eligible members are distinct and not too many, and then
collects all of them. -/
lemma collectMembers_eq_ok_iff {max : ℕ} {leases : List StoredLease}
    {members collected : List FrozenMemberV2} (hdist : members.Pairwise DistinctMembers)
    (hlen : members.length ≤ max) :
    collectMembers epoch cutoff authorizedMembers max leases members = .ok collected ↔
      collected = members ++ eligibleMembers epoch cutoff authorizedMembers leases ∧
        collected.Pairwise DistinctMembers ∧ collected.length ≤ max := by
  induction leases generalizing members with
  | nil =>
    simp only [collectMembers, eligibleMembers, List.filter_nil, List.map_nil, List.append_nil,
      Except.ok.injEq]
    constructor
    · rintro rfl
      exact ⟨rfl, hdist, hlen⟩
    · rintro ⟨rfl, -, -⟩
      rfl
  | cons stored leases ih =>
    simp only [collectMembers]
    by_cases helig : eligible epoch cutoff authorizedMembers stored = true
    · have hcons : eligibleMembers epoch cutoff authorizedMembers (stored :: leases) =
          stored.lease.member :: eligibleMembers epoch cutoff authorizedMembers leases := by
        simp [eligibleMembers, helig]
      rw [hcons, if_neg (by simp [helig])]
      split_ifs with hdup hmax
      -- a clash with a member that was collected before
      · simp only [false_iff]
        rintro ⟨rfl, hpair, -⟩
        rw [List.pairwise_append] at hpair
        obtain ⟨member, hmem, hclash⟩ := List.any_eq_true.mp hdup
        have hne := hpair.2.2 member hmem stored.lease.member (by simp)
        simp [hne.1, hne.2] at hclash
      · simp only [false_iff]
        rintro ⟨rfl, -, hle⟩
        simp only [List.length_append, List.length_cons] at hle
        omega
      · have hdist' : (members ++ [stored.lease.member]).Pairwise DistinctMembers := by
          rw [List.pairwise_append]
          refine ⟨hdist, List.pairwise_singleton _ _, fun member hmem other hother => ?_⟩
          obtain rfl := List.mem_singleton.mp hother
          simp only [List.any_eq_true, not_exists, not_and, Bool.or_eq_true, not_or,
            decide_eq_true_eq] at hdup
          exact hdup member hmem
        rw [ih hdist' (by simpa using hmax), List.append_assoc, List.singleton_append]
    · have hskip : eligibleMembers epoch cutoff authorizedMembers (stored :: leases) =
          eligibleMembers epoch cutoff authorizedMembers leases := by
        simp [eligibleMembers, helig]
      rw [hskip, if_pos (by simp [helig]), ih hdist hlen]

/-- The snapshot of the given members. -/
def snapshotOf (cr : Crypto) (net : Scope) (epoch cutoff height : UInt64) (anchorHash : Hash)
    (collected : List FrozenMemberV2) : MembershipSnapshotV2 :=
  let members := collected.insertionSort fun left right => memberLess right left = false
  { epoch, cutoffHeight := cutoff, anchorHeight := height, anchorHash, members
    snapshotHash := hashSnapshot cr net epoch cutoff height anchorHash members }

/-- What `freeze_membership` has checked when it stores a snapshot. -/
structure Freezes (cr : Crypto) (p : SemanticParametersV2) (m : MembershipPipelineV2)
    (epoch height : UInt64) (anchorHash : Hash) (authorizedMembers : List FrozenMemberV2)
    (frozen : MembershipSnapshotV2) : Prop where
  fresh : epoch ∉ m.snapshots
  service : ∃ firstService, p.timing.firstServiceEpoch = some firstService ∧ firstService ≤ epoch
  anchor : p.timing.committeeAnchor epoch = some height
  members : ∃ cutoff, p.timing.enrollmentCutoff epoch = some cutoff ∧
    (eligibleMembers epoch cutoff authorizedMembers m.leases).Pairwise DistinctMembers ∧
    (eligibleMembers epoch cutoff authorizedMembers m.leases).length ≤
      p.committeePolicy.maxActivePopulation ∧
    frozen = snapshotOf cr p.net epoch cutoff height anchorHash
      (eligibleMembers epoch cutoff authorizedMembers m.leases)

lemma frozenSnapshot_eq_ok_iff (hp : p.membershipValid = true) {frozen : MembershipSnapshotV2} :
    m.frozenSnapshot cr p epoch height anchorHash authorizedMembers = .ok frozen ↔
      Freezes cr p m epoch height anchorHash authorizedMembers frozen := by
  unfold frozenSnapshot
  rw [if_neg (by simp [hp])]
  constructor
  · intro h
    by_cases hfresh : epoch ∈ m.snapshots
    · rw [if_pos hfresh] at h
      cases h
    rw [if_neg hfresh] at h
    split at h
    · rename_i first cutoff anchor hfirst hcutoff hanchor
      by_cases hservice : epoch < first
      · rw [if_pos hservice] at h
        cases h
      rw [if_neg hservice] at h
      by_cases hheight : height = anchor
      · rw [if_neg (not_not.mpr hheight)] at h
        subst hheight
        cases hcollect : collectMembers epoch cutoff authorizedMembers
          p.committeePolicy.maxActivePopulation m.leases [] with
        | error status =>
          rw [hcollect] at h
          cases h
        | ok collected =>
          rw [hcollect] at h
          obtain ⟨rfl, hdist, hlen⟩ :=
            (collectMembers_eq_ok_iff List.Pairwise.nil (Nat.zero_le _)).mp hcollect
          refine ⟨hfresh, ⟨first, hfirst, UInt64.not_lt.mp hservice⟩, hanchor, cutoff, hcutoff,
            hdist, hlen, ?_⟩
          cases h
          rfl
      · rw [if_pos hheight] at h
        cases h
    · cases h
  · rintro ⟨hfresh, ⟨first, hfirst, hservice⟩, hanchor, cutoff, hcutoff, hdist, hlen, rfl⟩
    have hcollect := (collectMembers_eq_ok_iff List.Pairwise.nil (Nat.zero_le _)).mpr
      ⟨rfl, hdist, hlen⟩
    rw [if_neg hfresh, hfirst, hcutoff, hanchor]
    dsimp only
    rw [if_neg (UInt64.not_lt.mpr hservice), if_neg (not_not.mpr rfl), hcollect]
    rfl

lemma collectMembers_ne_error_accepted {max : ℕ} {leases : List StoredLease}
    {members : List FrozenMemberV2} :
    collectMembers epoch cutoff authorizedMembers max leases members ≠ .error .accepted := by
  induction leases generalizing members with
  | nil => simp [collectMembers]
  | cons stored leases ih =>
    simp only [collectMembers]
    split_ifs
    · exact ih
    · simp
    · simp
    · exact ih

lemma frozenSnapshot_ne_error_accepted :
    m.frozenSnapshot cr p epoch height anchorHash authorizedMembers ≠ .error .accepted := by
  unfold frozenSnapshot
  split
  · simp
  split
  · simp
  split
  · split
    · simp
    split
    · simp
    rename_i cutoff _ _ _ _ _ _
    cases h : collectMembers epoch cutoff authorizedMembers
        p.committeePolicy.maxActivePopulation m.leases [] with
    | error status =>
      intro heq
      cases heq
      exact collectMembers_ne_error_accepted h
    | ok collected =>
      intro heq
      cases heq
  · simp

/-- `freeze_membership` either changes nothing or stores the snapshot it took. -/
lemma freezeMembership_cases (cr : Crypto) (hp : p.membershipValid = true)
    (m : MembershipPipelineV2) (undo : UndoJournal) (epoch height : UInt64) (anchorHash : Hash)
    (authorizedMembers : List FrozenMemberV2) :
    (∃ status, status ≠ .accepted ∧
        (∀ frozen, ¬m.Freezes cr p epoch height anchorHash authorizedMembers frozen) ∧
        m.freezeMembership cr p undo epoch height anchorHash authorizedMembers =
          ⟨m, undo, status, 0⟩) ∨
      ∃ frozen, Freezes cr p m epoch height anchorHash authorizedMembers frozen ∧
        m.freezeMembership cr p undo epoch height anchorHash authorizedMembers =
          ⟨(m.storeSnapshot undo epoch frozen).1, (m.storeSnapshot undo epoch frozen).2,
            .accepted, 0⟩ := by
  delta freezeMembership
  cases h : m.frozenSnapshot cr p epoch height anchorHash authorizedMembers with
  | error status =>
    refine Or.inl ⟨status, fun hs => frozenSnapshot_ne_error_accepted (hs ▸ h), ?_, rfl⟩
    intro frozen hfreezes
    rw [(frozenSnapshot_eq_ok_iff hp).mpr hfreezes] at h
    cases h
  | ok frozen => exact Or.inr ⟨frozen, (frozenSnapshot_eq_ok_iff hp).mp h, rfl⟩

end Freezing

/-! ### Receipts -/

/-- `contains_member`: a binary search for a service key in the sorted members. -/
def containsMember (frozen : MembershipSnapshotV2) (key : PublicKey) : Bool :=
  match frozen.members.dropWhile fun member => memLess member.servicePublicKey.data key.data with
  | [] => false
  | member :: _ => !memLess key.data member.servicePublicKey.data

/-- The score by which a candidate is drawn into the committee of a subject. -/
def selectionScore (cr : Crypto) (net : Scope) (frozen : MembershipSnapshotV2)
    (epoch round : UInt64) (roundAnchorHash : Hash) (subject candidate : PublicKey) : Hash :=
  cr.cnFastHash (ascii "QWC_EPOSE_SELECT_V2" ++ net.bytes ++ frozen.snapshotHash.data ++
    u64 epoch ++ u64 round ++ roundAnchorHash.data ++ subject.data ++ candidate.data)

/-- The order committees are sorted by: score, then key. -/
def assignmentLess (left right : VerifierAssignmentV2) : Bool :=
  if memLess left.selectionScore.data right.selectionScore.data then true
  else if memLess right.selectionScore.data left.selectionScore.data then false
  else memLess left.verifierPublicKey.data right.verifierPublicKey.data

def committee (cr : Crypto) (p : SemanticParametersV2) (m : MembershipPipelineV2)
    (epoch round : UInt64) (subjectPublicKey : PublicKey) (roundAnchorHash : Hash) :
    List VerifierAssignmentV2 :=
  match m.snapshot epoch with
  | none => []
  | some frozen =>
    if !p.membershipValid || p.committeePolicy.roundCount ≤ round || roundAnchorHash = nullHash ||
        (round = 0 && roundAnchorHash ≠ frozen.anchorHash) ||
        !containsMember frozen subjectPublicKey || frozen.members.length ≤ 1 then []
    else
      let candidates := frozen.members.filter fun member =>
        member.servicePublicKey ≠ subjectPublicKey
      let scored := candidates.map fun member => VerifierAssignmentV2.mk member.servicePublicKey
        (selectionScore cr p.net frozen epoch round roundAnchorHash subjectPublicKey
          member.servicePublicKey)
      (scored.insertionSort fun left right => assignmentLess right left = false).take
        p.committeePolicy.committeeSize

/-- The checks of `apply_authenticated_receipt` that come before the signatures. -/
def receiptPrecheck (cr : Crypto) (p : SemanticParametersV2) (m : MembershipPipelineV2)
    (receipt : AuthenticatedServiceReceiptV2) (inclusionHeight : UInt64)
    (canonicalRoundAnchorHash : Hash) : PipelineStatusV2 :=
  let challenge := receipt.challenge
  if !p.membershipValid then .invalidConfiguration
  else if challenge.serviceKind ≠ p.committeePolicy.serviceKind then .invalidServiceKind
  else
    match m.snapshot challenge.epoch with
    | none => .snapshotMissing
    | some frozen =>
      if challenge.snapshotHash ≠ frozen.snapshotHash ∨ canonicalRoundAnchorHash = nullHash ∨
          challenge.anchorHash ≠ canonicalRoundAnchorHash ∨
          (challenge.round = 0 ∧ challenge.anchorHash ≠ frozen.anchorHash) then
        .receiptNotPrevalidated
      else
        match receiptInclusionWindowV2 p.timing p.committeePolicy challenge.epoch
          challenge.round with
        | none => .invalidEpoch
        | some (firstInclusion, roundEnd) =>
          if inclusionHeight < firstInclusion then .invalidEpoch
          else if roundEnd < inclusionHeight then .tooLate
          else
            match frozen.members.find? fun member =>
              member.servicePublicKey = challenge.subjectPublicKey with
            | none => .subjectNotInSnapshot
            | some subject =>
              if challenge.endpointDescriptorHash ≠ subject.endpointDescriptorHash then
                .receiptNotPrevalidated
              else if !containsMember frozen challenge.verifierPublicKey then
                .verifierNotInSnapshot
              else if !(m.committee cr p challenge.epoch challenge.round
                  challenge.subjectPublicKey challenge.anchorHash).any
                  (fun assignment => assignment.verifierPublicKey = challenge.verifierPublicKey) then
                .verifierNotSelected
              else .accepted

/-- Whether a stored receipt fills the slot of a challenge. -/
def fillsSlot (challenge : ServiceChallengeV2) (stored : StoredReceipt) : Bool :=
  stored.epoch = challenge.epoch && stored.round = challenge.round &&
    stored.serviceKind = challenge.serviceKind &&
    stored.subjectPublicKey = challenge.subjectPublicKey &&
    stored.verifierPublicKey = challenge.verifierPublicKey

/-- The status `apply_authenticated_receipt` returns and the number of signatures it checks; the
context of the receipt is the scope of the pipeline. -/
def receiptStatus (cr : Crypto) (p : SemanticParametersV2) (m : MembershipPipelineV2)
    (receipt : AuthenticatedServiceReceiptV2) (inclusionHeight : UInt64)
    (canonicalRoundAnchorHash : Hash) : PipelineStatusV2 × ℕ :=
  let precheck := receiptPrecheck cr p m receipt inclusionHeight canonicalRoundAnchorHash
  let validated := validateAuthenticatedServiceReceiptV2 cr p.net receipt
  if precheck ≠ .accepted then (precheck, 0)
  -- authenticate before a race for a slot is classified
  else if validated.1 = false then (.receiptNotPrevalidated, validated.2)
  else
    match m.receipts.find? (fillsSlot receipt.challenge) with
    | some stored =>
      if stored.receiptHash ≠ hashAuthenticatedServiceReceiptV2 cr p.net receipt then
        (.receiptSlotConflict, validated.2)
      else (.idempotentDuplicate, validated.2)
    | none =>
      if receipt.challenge.epoch ∈ m.qualifications then
        (.qualificationAlreadyClosed, validated.2)
      else (.accepted, validated.2)

/-- The receipt as it is stored. -/
def storedReceipt (cr : Crypto) (net : Scope) (receipt : AuthenticatedServiceReceiptV2)
    (inclusionHeight : UInt64) : StoredReceipt where
  epoch := receipt.challenge.epoch
  round := receipt.challenge.round
  serviceKind := receipt.challenge.serviceKind
  subjectPublicKey := receipt.challenge.subjectPublicKey
  verifierPublicKey := receipt.challenge.verifierPublicKey
  receiptHash := hashAuthenticatedServiceReceiptV2 cr net receipt
  inclusionHeight := inclusionHeight

/-- The mutation at the end of `apply_authenticated_receipt`; an append needs no log entry. -/
def addReceipt (m : MembershipPipelineV2) (stored : StoredReceipt) : MembershipPipelineV2 :=
  { m with receipts := m.receipts ++ [stored] }

def applyAuthenticatedReceipt (cr : Crypto) (p : SemanticParametersV2) (m : MembershipPipelineV2)
    (undo : UndoJournal) (receipt : AuthenticatedServiceReceiptV2) (inclusionHeight : UInt64)
    (canonicalRoundAnchorHash : Hash) : Applied :=
  let (status, signatures) := m.receiptStatus cr p receipt inclusionHeight canonicalRoundAnchorHash
  if status = .accepted then
    ⟨m.addReceipt (storedReceipt cr p.net receipt inclusionHeight), undo, status, signatures⟩
  else ⟨m, undo, status, signatures⟩

section Receipts

variable {cr : Crypto} {p : SemanticParametersV2} {m : MembershipPipelineV2} {undo : UndoJournal}
  {receipt : AuthenticatedServiceReceiptV2} {inclusionHeight : UInt64}
  {canonicalRoundAnchorHash : Hash}

/-- What `apply_authenticated_receipt` has checked when it stores a receipt. -/
structure ReceiptAccepts (cr : Crypto) (p : SemanticParametersV2) (m : MembershipPipelineV2)
    (receipt : AuthenticatedServiceReceiptV2) (inclusionHeight : UInt64)
    (canonicalRoundAnchorHash : Hash) : Prop where
  precheck : receiptPrecheck cr p m receipt inclusionHeight canonicalRoundAnchorHash = .accepted
  validated : (validateAuthenticatedServiceReceiptV2 cr p.net receipt).1 = true
  slot_free : m.receipts.find? (fillsSlot receipt.challenge) = none
  still_open : receipt.challenge.epoch ∉ m.qualifications

lemma receiptStatus_eq_accepted_iff :
    (m.receiptStatus cr p receipt inclusionHeight canonicalRoundAnchorHash).1 = .accepted ↔
      ReceiptAccepts cr p m receipt inclusionHeight canonicalRoundAnchorHash := by
  simp only [receiptStatus]
  constructor
  · intro h
    cases hfind : m.receipts.find? (fillsSlot receipt.challenge) with
    | none =>
      simp only [hfind] at h
      split_ifs at h with hpre hval hclosed
      · exact absurd h hpre
      · simp only [ne_eq, not_not, Bool.not_eq_false] at hpre hval
        exact ⟨hpre, hval, hfind, hclosed⟩
    | some stored =>
      simp only [hfind] at h
      split_ifs at h with hpre
      exact absurd h hpre
  · rintro ⟨hpre, hval, hfree, hopen⟩
    simp [hpre, hval, hfree, hopen]

/-- `apply_authenticated_receipt` either changes nothing or appends the receipt it accepted. -/
lemma applyAuthenticatedReceipt_cases (cr : Crypto) (p : SemanticParametersV2)
    (m : MembershipPipelineV2) (undo : UndoJournal)
    (receipt : AuthenticatedServiceReceiptV2) (inclusionHeight : UInt64)
    (canonicalRoundAnchorHash : Hash) :
    (∃ status signatures, status ≠ .accepted ∧
        m.applyAuthenticatedReceipt cr p undo receipt inclusionHeight canonicalRoundAnchorHash =
          ⟨m, undo, status, signatures⟩) ∨
      ∃ signatures,
        m.ReceiptAccepts cr p receipt inclusionHeight canonicalRoundAnchorHash ∧
        m.applyAuthenticatedReceipt cr p undo receipt inclusionHeight canonicalRoundAnchorHash =
          ⟨m.addReceipt (storedReceipt cr p.net receipt inclusionHeight), undo, .accepted,
            signatures⟩ := by
  simp only [applyAuthenticatedReceipt]
  split
  · rename_i h
    exact Or.inr ⟨_, receiptStatus_eq_accepted_iff.mp h, by rw [h]⟩
  · rename_i h
    exact Or.inl ⟨_, _, h, rfl⟩

lemma applyAuthenticatedReceipt_signatures_le :
    (m.applyAuthenticatedReceipt cr p undo receipt inclusionHeight
      canonicalRoundAnchorHash).verifications ≤ 2 := by
  have h : (m.receiptStatus cr p receipt inclusionHeight canonicalRoundAnchorHash).2 ≤ 2 := by
    have hval : (validateAuthenticatedServiceReceiptV2 cr p.net receipt).2 ≤ 2 :=
      validateAuthenticatedServiceReceiptV2_signatures_le
    simp only [receiptStatus]
    cases m.receipts.find? (fillsSlot receipt.challenge) <;> dsimp only <;> split_ifs <;>
      first | exact Nat.zero_le 2 | exact hval
  simp only [applyAuthenticatedReceipt]
  split <;> exact h

end Receipts

/-! ### Closing -/

/-- The number of different verifiers with a receipt for a subject in a round. -/
def voterCount (m : MembershipPipelineV2) (epoch round : UInt64) (subject : PublicKey) : ℕ :=
  ((m.receipts.filter fun stored => stored.epoch = epoch && stored.round = round &&
    stored.subjectPublicKey = subject).map (·.verifierPublicKey)).dedup.length

/-- The number of rounds in which a subject has enough receipts. -/
def passingRounds (m : MembershipPipelineV2) (roundCount epoch : UInt64) (requiredReceipts : ℕ)
    (subject : PublicKey) : ℕ :=
  (List.range roundCount.toNat).countP fun round =>
    requiredReceipts ≤ m.voterCount epoch (UInt64.ofNat round) subject

/-- The members that qualify, in the order of the snapshot. -/
def qualifiedNodes (m : MembershipPipelineV2) (policy : CommitteePolicyV2) (epoch : UInt64)
    (members : List FrozenMemberV2) : List PublicKey :=
  if members.length ≤ 1 then []
  else
    let actualCommitteeSize := min policy.committeeSize (members.length - 1)
    let requiredReceipts := requiredReceiptsForCommitteeSizeV2 actualCommitteeSize
    (members.map (·.servicePublicKey)).filter fun subject =>
      policy.roundsRequired.toNat ≤ m.passingRounds policy.roundCount epoch requiredReceipts subject

def hashQualification (cr : Crypto) (net : Scope) (snapshotHash : Hash)
    (epoch closedHeight : UInt64) (nodes : List PublicKey) : Hash :=
  cr.cnFastHash (ascii "QWC_EPOSE_QUALIFICATION_V2" ++ net.bytes ++ snapshotHash.data ++
    u64 epoch ++ u64 closedHeight ++ u64 (UInt64.ofNat nodes.length) ++ nodes.flatMap Block.data)

/-- The set `close_qualification` settles. -/
def closedQualification (cr : Crypto) (p : SemanticParametersV2) (m : MembershipPipelineV2)
    (epoch height : UInt64) : Except PipelineStatusV2 QualificationSetV2 :=
  if !p.membershipValid then .error .invalidConfiguration
  else if epoch ∈ m.qualifications then .error .qualificationAlreadyClosed
  else
    match m.snapshot epoch, p.timing.evidenceDeadline epoch with
    | none, _ => .error .snapshotMissing
    | some _, none => .error .invalidEpoch
    | some frozen, some deadline =>
      if height ≠ deadline then .error .wrongBoundary
      else
        let nodes := m.qualifiedNodes p.committeePolicy epoch frozen.members
        .ok { epoch, closedHeight := height, snapshotHash := frozen.snapshotHash
              qualifiedNodes := nodes
              qualificationHash := hashQualification cr p.net frozen.snapshotHash epoch height nodes }

/-- The mutation at the end of `close_qualification`, with its log entry. -/
def storeQualification (m : MembershipPipelineV2) (undo : UndoJournal) (epoch : UInt64)
    (closed : QualificationSetV2) : MembershipPipelineV2 × UndoJournal :=
  ({ m with qualifications := m.qualifications.insert epoch closed },
    { undo with insertedQualifications := undo.insertedQualifications ++ [epoch] })

lemma mem_storeQualification {m : MembershipPipelineV2} {undo : UndoJournal}
    {epoch epoch' : UInt64} {closed : QualificationSetV2} :
    epoch' ∈ (m.storeQualification undo epoch closed).1.qualifications ↔
      epoch' = epoch ∨ epoch' ∈ m.qualifications := by
  rw [show (m.storeQualification undo epoch closed).1.qualifications =
    m.qualifications.insert epoch closed from rfl, Std.ExtTreeMap.mem_insert,
    Std.compare_eq_iff_eq, eq_comm]

def closeQualification (cr : Crypto) (p : SemanticParametersV2) (m : MembershipPipelineV2)
    (undo : UndoJournal) (epoch height : UInt64) : Applied :=
  match m.closedQualification cr p epoch height with
  | .error status => ⟨m, undo, status, 0⟩
  | .ok closed =>
    let (pipeline, undo) := m.storeQualification undo epoch closed
    ⟨pipeline, undo, .accepted, 0⟩

section Closing

variable {cr : Crypto} {p : SemanticParametersV2} {m : MembershipPipelineV2} {undo : UndoJournal}
  {epoch height : UInt64}

/-- What `close_qualification` has checked when it settles a set. -/
structure Closes (cr : Crypto) (p : SemanticParametersV2) (m : MembershipPipelineV2)
    (epoch height : UInt64) (closed : QualificationSetV2) : Prop where
  fresh : epoch ∉ m.qualifications
  deadline : p.timing.evidenceDeadline epoch = some height
  nodes : ∃ frozen, m.snapshot epoch = some frozen ∧
    closed = { epoch, closedHeight := height, snapshotHash := frozen.snapshotHash
               qualifiedNodes := m.qualifiedNodes p.committeePolicy epoch frozen.members
               qualificationHash := hashQualification cr p.net frozen.snapshotHash epoch height
                 (m.qualifiedNodes p.committeePolicy epoch frozen.members) }

lemma closedQualification_eq_ok_iff (hp : p.membershipValid = true)
    {closed : QualificationSetV2} :
    m.closedQualification cr p epoch height = .ok closed ↔
      Closes cr p m epoch height closed := by
  unfold closedQualification
  rw [if_neg (by simp [hp])]
  constructor
  · intro h
    split_ifs at h with hfresh
    cases hfrozen : m.snapshot epoch with
    | none => simp [hfrozen] at h
    | some frozen =>
      cases hdeadline : p.timing.evidenceDeadline epoch with
      | none => simp [hfrozen, hdeadline] at h
      | some deadline =>
        simp only [hfrozen, hdeadline] at h
        split_ifs at h with hheight
        obtain rfl := not_not.mp hheight
        exact ⟨hfresh, hdeadline, frozen, hfrozen, (Except.ok.inj h).symm⟩
  · rintro ⟨hfresh, hdeadline, frozen, hfrozen, rfl⟩
    simp [hfresh, hdeadline, hfrozen]

lemma closedQualification_ne_error_accepted :
    m.closedQualification cr p epoch height ≠ .error .accepted := by
  unfold closedQualification
  split
  · simp
  split
  · simp
  cases m.snapshot epoch with
  | none => simp
  | some frozen =>
    cases p.timing.evidenceDeadline epoch with
    | none => simp
    | some deadline =>
      dsimp only
      split <;> simp

/-- `close_qualification` either changes nothing or stores the set it settled. -/
lemma closeQualification_cases (cr : Crypto) (hp : p.membershipValid = true)
    (m : MembershipPipelineV2) (undo : UndoJournal) (epoch height : UInt64) :
    (∃ status, status ≠ .accepted ∧ (∀ closed, ¬m.Closes cr p epoch height closed) ∧
        m.closeQualification cr p undo epoch height = ⟨m, undo, status, 0⟩) ∨
      ∃ closed, Closes cr p m epoch height closed ∧
        m.closeQualification cr p undo epoch height =
          ⟨(m.storeQualification undo epoch closed).1, (m.storeQualification undo epoch closed).2,
            .accepted, 0⟩ := by
  delta closeQualification
  cases h : m.closedQualification cr p epoch height with
  | error status =>
    refine Or.inl ⟨status, fun hs => closedQualification_ne_error_accepted (hs ▸ h), ?_, rfl⟩
    intro closed hcloses
    rw [(closedQualification_eq_ok_iff hp).mpr hcloses] at h
    cases h
  | ok closed => exact Or.inr ⟨closed, (closedQualification_eq_ok_iff hp).mp h, rfl⟩

end Closing

/-! ### State hash -/

/-- The order leases are hashed in: target epoch, then member. -/
def leaseLess (left right : StoredLease) : Bool :=
  if left.lease.targetEpoch ≠ right.lease.targetEpoch then
    left.lease.targetEpoch < right.lease.targetEpoch
  else memberLess left.lease.member right.lease.member

/-- The order receipts are hashed in: epoch, round, subject, verifier. -/
def receiptLess (left right : StoredReceipt) : Bool :=
  if left.epoch ≠ right.epoch then left.epoch < right.epoch
  else if left.round ≠ right.round then left.round < right.round
  else if memLess left.subjectPublicKey.data right.subjectPublicKey.data then true
  else if memLess right.subjectPublicKey.data left.subjectPublicKey.data then false
  else memLess left.verifierPublicKey.data right.verifierPublicKey.data

def stateHash (cr : Crypto) (p : SemanticParametersV2) (m : MembershipPipelineV2) : Hash :=
  let policy := p.committeePolicy
  let leases := m.leases.insertionSort fun left right => leaseLess right left = false
  let receipts := m.receipts.insertionSort fun left right => receiptLess right left = false
  cr.cnFastHash (ascii "QWC_EPOSE_PIPELINE_STATE_V2" ++ p.net.bytes ++
    u64 p.timing.activationHeight ++ u64 p.timing.epochLength ++ u64 p.timing.anchorDepth ++
    u64 (UInt64.ofNat policy.committeeSize) ++ u64 (UInt64.ofNat policy.threshold) ++
    u64 policy.roundCount ++ u64 policy.roundsRequired ++ [policy.serviceKind] ++
    u64 (UInt64.ofNat policy.roundOffsets.length) ++ policy.roundOffsets.flatMap u64 ++
    u64 (UInt64.ofNat leases.length) ++
    (leases.flatMap fun stored => u64 stored.lease.targetEpoch ++ stored.lease.member.bytes ++
      stored.lease.leaseHash.data ++ u64 stored.inclusionHeight) ++
    u64 (UInt64.ofNat m.snapshots.size) ++
    (m.snapshots.toList.flatMap fun entry => entry.2.snapshotHash.data) ++
    u64 (UInt64.ofNat receipts.length) ++
    (receipts.flatMap fun stored => u64 stored.epoch ++ u64 stored.round ++
      [stored.serviceKind] ++ stored.subjectPublicKey.data ++ stored.verifierPublicKey.data ++
      stored.receiptHash.data ++ u64 stored.inclusionHeight) ++
    u64 (UInt64.ofNat m.qualifications.size) ++
    m.qualifications.toList.flatMap fun entry => entry.2.qualificationHash.data)

end MembershipPipelineV2

end Qwertycoin
