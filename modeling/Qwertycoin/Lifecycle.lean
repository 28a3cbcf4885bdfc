import Qwertycoin.Timing
import Qwertycoin.Lib.UndoLog

/-
# Identity lifecycles

An identity is known by the hash of its operator key.  Its history is the list of the lifecycle
records accepted for it, oldest first; each record carries the descriptor that is in force from
its effective epoch on.  The registry appends records, logs how to undo that, and answers which
descriptor an identity has in an epoch.
-/

namespace Qwertycoin

open Bytes

/-- `lifecycle_action_v2`.  A decoded record can carry a byte that names no action. -/
inductive LifecycleActionV2
  | registerIdentity
  | renewLease
  | updateDescriptor
  | deregisterIdentity
  | recoverServiceKey
  | unknown (code : UInt8)
deriving DecidableEq

namespace LifecycleActionV2

def code : LifecycleActionV2 → UInt8
  | registerIdentity => 1
  | renewLease => 2
  | updateDescriptor => 3
  | deregisterIdentity => 4
  | recoverServiceKey => 5
  | unknown code => code

def ofCode (code : UInt8) : LifecycleActionV2 :=
  if code = 1 then registerIdentity
  else if code = 2 then renewLease
  else if code = 3 then updateDescriptor
  else if code = 4 then deregisterIdentity
  else if code = 5 then recoverServiceKey
  else unknown code

/-- `valid_action` -/
def valid : LifecycleActionV2 → Bool
  | unknown _ => false
  | _ => true

end LifecycleActionV2

/-- `EPOSE_DESCRIPTOR_VERSION_V2` -/
def eposeDescriptorVersionV2 : UInt8 := 1

structure IdentityDescriptorV2 where
  version : UInt8
  identityId : Hash
  servicePublicKey : PublicKey
  operatorAuthorizationPublicKey : PublicKey
  rewardAddress : AccountPublicAddress
  endpointDescriptorHash : Hash
  sequence : UInt64
  effectiveEpoch : UInt64
  expiryEpoch : UInt64
deriving DecidableEq

structure LifecycleRecordV2 where
  action : LifecycleActionV2
  previousDescriptorHash : Hash
  nextDescriptor : IdentityDescriptorV2
  operatorSignature : Signature
  serviceSignature : Signature
deriving DecidableEq

/-- `lifecycle_status_v2` -/
inductive LifecycleStatusV2
  | accepted
  | idempotentDuplicate
  | invalidContext
  | invalidAction
  | invalidDescriptor
  | nonseparatedAuthorities
  | identityNotFound
  | identityAlreadyExists
  | serviceKeyInUse
  | wrongPreviousDescriptor
  | wrongSequence
  | retroactiveChange
  | overlappingChange
  | invalidTransition
  | invalidOperatorSignature
  | invalidServiceSignature
deriving DecidableEq

/-! ## Hashes -/

section Hashes

variable (cr : Crypto) (net : Scope)

def deriveIdentityIdV2 (operatorKey : PublicKey) : Hash :=
  cr.cnFastHash (ascii "QWC_EPOSE_IDENTITY_V2" ++ net.bytes ++ operatorKey.data)

def hashIdentityDescriptorV2 (descriptor : IdentityDescriptorV2) : Hash :=
  cr.cnFastHash (ascii "QWC_EPOSE_DESCRIPTOR_V2" ++ net.bytes ++ [descriptor.version] ++
    descriptor.identityId.data ++ descriptor.servicePublicKey.data ++
    descriptor.operatorAuthorizationPublicKey.data ++ descriptor.rewardAddress.viewPublicKey.data ++
    descriptor.rewardAddress.spendPublicKey.data ++ descriptor.endpointDescriptorHash.data ++
    u64 descriptor.sequence ++ u64 descriptor.effectiveEpoch ++ u64 descriptor.expiryEpoch)

def hashRewardBindingV2 (rewardAddress : AccountPublicAddress) : Hash :=
  if !net.valid || !cr.validKey rewardAddress.viewPublicKey ||
      !cr.validKey rewardAddress.spendPublicKey then nullHash
  else
    cr.cnFastHash (ascii "QWC_EPOSE_REWARD_BINDING_V2" ++ net.bytes ++
      rewardAddress.viewPublicKey.data ++ rewardAddress.spendPublicKey.data)

def hashLifecycleRecordV2 (record : LifecycleRecordV2) : Hash :=
  cr.cnFastHash (ascii "QWC_EPOSE_LIFECYCLE_V2" ++ net.bytes ++ [record.action.code] ++
    record.previousDescriptorHash.data ++
    (hashIdentityDescriptorV2 cr net record.nextDescriptor).data)

end Hashes

/-! ## Validation of a record -/

section Validation

variable (cr : Crypto) (net : Scope)

def descriptorShapeValid (descriptor : IdentityDescriptorV2) : Bool :=
  descriptor.version = eposeDescriptorVersionV2 && descriptor.identityId ≠ nullHash &&
    cr.validKey descriptor.servicePublicKey &&
    cr.validKey descriptor.operatorAuthorizationPublicKey &&
    cr.validKey descriptor.rewardAddress.viewPublicKey &&
    cr.validKey descriptor.rewardAddress.spendPublicKey &&
    descriptor.endpointDescriptorHash ≠ nullHash &&
    descriptor.effectiveEpoch ≤ descriptor.expiryEpoch

def descriptorStaticEqual (left right : IdentityDescriptorV2) : Bool :=
  left.identityId = right.identityId && left.servicePublicKey = right.servicePublicKey &&
    left.operatorAuthorizationPublicKey = right.operatorAuthorizationPublicKey &&
    left.rewardAddress.viewPublicKey = right.rewardAddress.viewPublicKey &&
    left.rewardAddress.spendPublicKey = right.rewardAddress.spendPublicKey &&
    left.endpointDescriptorHash = right.endpointDescriptorHash

def validateLifecycleRecordStructureV2 (record : LifecycleRecordV2) : LifecycleStatusV2 :=
  let next := record.nextDescriptor
  if !net.valid then .invalidContext
  else if !record.action.valid then .invalidAction
  else if !descriptorShapeValid cr next ||
      next.identityId ≠ deriveIdentityIdV2 cr net next.operatorAuthorizationPublicKey then
    .invalidDescriptor
  else if next.servicePublicKey = next.operatorAuthorizationPublicKey then
    .nonseparatedAuthorities
  else .accepted

/-- `validate_lifecycle_record_authorization_v2`: the status and the number of signatures that
were checked. -/
def validateLifecycleRecordAuthorizationV2 (record : LifecycleRecordV2) : LifecycleStatusV2 × ℕ :=
  let next := record.nextDescriptor
  match validateLifecycleRecordStructureV2 cr net record with
  | .accepted =>
    let message := hashLifecycleRecordV2 cr net record
    if !cr.checkSignature message next.operatorAuthorizationPublicKey record.operatorSignature then
      (.invalidOperatorSignature, 1)
    else if !cr.checkSignature message next.servicePublicKey record.serviceSignature then
      (.invalidServiceSignature, 2)
    else (.accepted, 2)
  | structure_ => (structure_, 0)

end Validation

/-! ## The registry -/

structure IdentityHistory where
  identityId : Hash
  records : List LifecycleRecordV2
deriving DecidableEq

/-- `lifecycle_registry_v2`: its mutable part. -/
structure LifecycleRegistryV2 where
  histories : List IdentityHistory := []
deriving DecidableEq

namespace LifecycleRegistryV2

/-- `history_change` -/
structure HistoryChange where
  index : ℕ
  recordsSize : ℕ
deriving DecidableEq

/-- `lifecycle_registry_v2::undo_journal` -/
structure UndoJournal where
  historiesSize : ℕ
  recordSizes : List HistoryChange
deriving DecidableEq

def checkpoint (r : LifecycleRegistryV2) : UndoJournal := ⟨r.histories.length, []⟩

/-- The change that cuts the records of a history back to an earlier length. -/
def HistoryChange.restore (change : HistoryChange) (history : IdentityHistory) : IdentityHistory :=
  { history with records := history.records.take change.recordsSize }

def rollback (r : LifecycleRegistryV2) (undo : UndoJournal) : LifecycleRegistryV2 :=
  ⟨UndoLog.rewind HistoryChange.index HistoryChange.restore undo.historiesSize undo.recordSizes
    r.histories⟩

def findHistory (r : LifecycleRegistryV2) (identityId : Hash) : Option IdentityHistory :=
  r.histories.find? fun history => history.identityId = identityId

/-- The action rules of `apply` for a record that is not a duplicate, against the history of its
identity.  A stored history is never empty. -/
def transitionStatus (cr : Crypto) (net : Scope) (history : Option IdentityHistory)
    (record : LifecycleRecordV2) : LifecycleStatusV2 :=
  let next := record.nextDescriptor
  if record.action = .registerIdentity then
    if history.isSome then .identityAlreadyExists
    else if record.previousDescriptorHash ≠ nullHash ∨ next.sequence ≠ 0 then .invalidTransition
    else .accepted
  else
    match history.bind (·.records.getLast?) with
    | none => .identityNotFound
    | some last =>
      let current := last.nextDescriptor
      if record.previousDescriptorHash ≠ hashIdentityDescriptorV2 cr net current then
        .wrongPreviousDescriptor
      else if current.sequence = uint64Max ∨ next.sequence ≠ current.sequence + 1 then
        .wrongSequence
      else if next.effectiveEpoch ≤ current.effectiveEpoch then .overlappingChange
      else if next.operatorAuthorizationPublicKey ≠ current.operatorAuthorizationPublicKey then
        .invalidTransition
      else if last.action = .deregisterIdentity then .invalidTransition
      else
        match record.action with
        | .renewLease =>
          if !descriptorStaticEqual next current || next.expiryEpoch ≤ current.expiryEpoch then
            .invalidTransition
          else .accepted
        | .updateDescriptor =>
          if next.servicePublicKey ≠ current.servicePublicKey then .invalidTransition
          else .accepted
        | .recoverServiceKey =>
          if next.servicePublicKey = current.servicePublicKey then .invalidTransition
          else .accepted
        | .deregisterIdentity =>
          if !descriptorStaticEqual next current || next.expiryEpoch ≠ next.effectiveEpoch then
            .invalidTransition
          else .accepted
        | .registerIdentity => .invalidTransition
        -- refused by the structure check
        | .unknown _ => .accepted

/-- Whether a record of a history holds the service key of `next` in an epoch of its interval.
The interval of a record is half open and ends early where the next record takes effect. -/
def recordsHoldKey (next : IdentityDescriptorV2) : List LifecycleRecordV2 → Bool
  | [] => false
  | record :: later =>
    let existing := record.nextDescriptor
    let existingEnd :=
      match later with
      | [] => existing.expiryEpoch
      | following :: _ => min existing.expiryEpoch following.nextDescriptor.effectiveEpoch
    (record.action ≠ .deregisterIdentity &&
        existing.servicePublicKey = next.servicePublicKey &&
        next.effectiveEpoch < existingEnd && existing.effectiveEpoch < next.expiryEpoch) ||
      recordsHoldKey next later

/-- Whether another identity holds the service key in the proposed interval. -/
def serviceKeyInUse (r : LifecycleRegistryV2) (next : IdentityDescriptorV2) : Bool :=
  r.histories.any fun history =>
    history.identityId ≠ next.identityId && recordsHoldKey next history.records

/-- Outcome of `apply`: the registry and the journal after the call, the status and the number of
signatures that were checked. -/
structure Applied where
  registry : LifecycleRegistryV2
  undo : UndoJournal
  status : LifecycleStatusV2
  signatures : ℕ

/-- The position of the history of an identity. -/
def historyIndex (r : LifecycleRegistryV2) (identityId : Hash) : ℕ :=
  r.histories.findIdx fun history => history.identityId = identityId

/-- The mutation at the end of `apply`, with its log entry. -/
def store (r : LifecycleRegistryV2) (undo : UndoJournal) (record : LifecycleRecordV2) :
    LifecycleRegistryV2 × UndoJournal :=
  let id := record.nextDescriptor.identityId
  if record.action = .registerIdentity then
    (⟨r.histories ++ [⟨id, [record]⟩]⟩, undo)
  else
    let index := r.historyIndex id
    let size := ((r.findHistory id).map (·.records.length)).getD 0
    (⟨r.histories.modify index fun history =>
        { history with records := history.records ++ [record] }⟩,
      { undo with recordSizes := undo.recordSizes ++ [⟨index, size⟩] })

/-- Whether the history of the identity already holds a record with the hash of this one. -/
def isDuplicate (cr : Crypto) (net : Scope) (r : LifecycleRegistryV2)
    (record : LifecycleRecordV2) : Bool :=
  let message := hashLifecycleRecordV2 cr net record
  (r.findHistory record.nextDescriptor.identityId).any fun history =>
    history.records.any fun stored => message = hashLifecycleRecordV2 cr net stored

/-- The status `apply` returns and the number of signatures it checks. -/
def applyStatus (cr : Crypto) (net : Scope) (r : LifecycleRegistryV2) (record : LifecycleRecordV2)
    (inclusionEpoch minimumEffectiveEpoch : UInt64) : LifecycleStatusV2 × ℕ :=
  let next := record.nextDescriptor
  let recordStructure := validateLifecycleRecordStructureV2 cr net record
  let duplicate := r.isDuplicate cr net record
  let transition := transitionStatus cr net (r.findHistory next.identityId) record
  let authorization := validateLifecycleRecordAuthorizationV2 cr net record
  if !net.valid then (.invalidContext, 0)
  else if recordStructure ≠ .accepted then (recordStructure, 0)
  else if next.effectiveEpoch < minimumEffectiveEpoch ∨ next.effectiveEpoch < inclusionEpoch then
    (.retroactiveChange, 0)
  else if duplicate = false ∧ transition ≠ .accepted then (transition, 0)
  else if duplicate = false ∧ record.action ≠ .deregisterIdentity ∧
      r.serviceKeyInUse next = true then (.serviceKeyInUse, 0)
  else if authorization.1 ≠ .accepted then authorization
  else if duplicate then (.idempotentDuplicate, authorization.2)
  else (.accepted, authorization.2)

def apply (cr : Crypto) (net : Scope) (r : LifecycleRegistryV2) (undo : UndoJournal)
    (record : LifecycleRecordV2) (inclusionEpoch minimumEffectiveEpoch : UInt64) : Applied :=
  let (status, signatures) := r.applyStatus cr net record inclusionEpoch minimumEffectiveEpoch
  if status = .accepted then
    let (registry, undo) := r.store undo record
    ⟨registry, undo, status, signatures⟩
  else ⟨r, undo, status, signatures⟩

/-- `latest` -/
def latest (r : LifecycleRegistryV2) (identityId : Hash) : Option IdentityDescriptorV2 :=
  ((r.findHistory identityId).bind (·.records.getLast?)).map (·.nextDescriptor)

/-- The last record of a history that is in force in an epoch, if it has not expired and is not a
deregistration. -/
def selectDescriptor (records : List LifecycleRecordV2) (epoch : UInt64) :
    Option IdentityDescriptorV2 :=
  match (records.takeWhile fun record => record.nextDescriptor.effectiveEpoch ≤ epoch).getLast? with
  | none => none
  | some selected =>
    if selected.nextDescriptor.expiryEpoch ≤ epoch ∨ selected.action = .deregisterIdentity then none
    else some selected.nextDescriptor

def descriptorForEpoch (r : LifecycleRegistryV2) (identityId : Hash) (epoch : UInt64) :
    Option IdentityDescriptorV2 :=
  (r.findHistory identityId).bind fun history => selectDescriptor history.records epoch

/-- `descriptors_for_epoch`, sorted by identity. -/
def descriptorsForEpoch (r : LifecycleRegistryV2) (epoch : UInt64) : List IdentityDescriptorV2 :=
  (r.histories.filterMap fun history => r.descriptorForEpoch history.identityId epoch).insertionSort
    fun left right => memLess right.identityId.data left.identityId.data = false

def stateHash (cr : Crypto) (net : Scope) (r : LifecycleRegistryV2) : Hash :=
  let sorted := r.histories.insertionSort
    fun left right => memLess right.identityId.data left.identityId.data = false
  cr.cnFastHash (ascii "QWC_EPOSE_LIFECYCLE_STATE_V2" ++ net.bytes ++
    u64 (UInt64.ofNat sorted.length) ++
    sorted.flatMap fun history =>
      history.identityId.data ++ u64 (UInt64.ofNat history.records.length) ++
        history.records.flatMap fun record => (hashLifecycleRecordV2 cr net record).data)

/-! ### What `apply` does -/

section Apply

variable {cr : Crypto} {net : Scope} {r : LifecycleRegistryV2} {undo : UndoJournal}
  {record : LifecycleRecordV2} {inclusionEpoch minimumEffectiveEpoch : UInt64}

/-- What `apply` has checked when it accepts a record. -/
structure Accepts (cr : Crypto) (net : Scope) (r : LifecycleRegistryV2)
    (record : LifecycleRecordV2) (inclusionEpoch minimumEffectiveEpoch : UInt64) : Prop where
  structure_ok : validateLifecycleRecordStructureV2 cr net record = .accepted
  minimum_le : minimumEffectiveEpoch ≤ record.nextDescriptor.effectiveEpoch
  inclusion_le : inclusionEpoch ≤ record.nextDescriptor.effectiveEpoch
  fresh : r.isDuplicate cr net record = false
  transition : transitionStatus cr net (r.findHistory record.nextDescriptor.identityId) record =
    .accepted
  key_free : record.action ≠ .deregisterIdentity → r.serviceKeyInUse record.nextDescriptor = false
  authorized : (validateLifecycleRecordAuthorizationV2 cr net record).1 = .accepted

lemma applyStatus_eq_accepted_iff (hnet : net.valid = true) :
    (r.applyStatus cr net record inclusionEpoch minimumEffectiveEpoch).1 = .accepted ↔
      Accepts cr net r record inclusionEpoch minimumEffectiveEpoch := by
  simp only [applyStatus]
  constructor
  · intro h
    split_ifs at h with h1 h2 h3 h4 h5 h6 h7
    all_goals first | contradiction | exact absurd h h4.2 | skip
    rw [not_or, UInt64.not_lt, UInt64.not_lt] at h3
    simp only [Bool.not_eq_true] at h7
    simp only [h7, true_and, not_not, Bool.not_eq_true, not_and] at h2 h4 h5 h6
    exact ⟨h2, h3.1, h3.2, h7, h4, h5, h6⟩
  · rintro ⟨h1, h2, h3, h4, h5, h6, h7⟩
    have h23 : ¬(record.nextDescriptor.effectiveEpoch < minimumEffectiveEpoch ∨
        record.nextDescriptor.effectiveEpoch < inclusionEpoch) := by
      rw [not_or, UInt64.not_lt, UInt64.not_lt]
      exact ⟨h2, h3⟩
    have h56 : ¬(record.action ≠ .deregisterIdentity ∧
        r.serviceKeyInUse record.nextDescriptor = true) := by
      rintro ⟨ha, hk⟩
      simp [h6 ha] at hk
    simp only [hnet, h1, h4, h5, h7, h23, true_and, h56, Bool.not_true, Bool.false_eq_true,
      ne_eq, not_true_eq_false, if_false]

/-- `apply` either changes nothing or stores the record it accepted. -/
lemma apply_cases (cr : Crypto) (hnet : net.valid = true) (r : LifecycleRegistryV2)
    (undo : UndoJournal) (record : LifecycleRecordV2) (inclusionEpoch minimumEffectiveEpoch : UInt64) :
    (∃ status signatures, status ≠ .accepted ∧
        r.apply cr net undo record inclusionEpoch minimumEffectiveEpoch =
          ⟨r, undo, status, signatures⟩) ∨
      ∃ signatures, r.Accepts cr net record inclusionEpoch minimumEffectiveEpoch ∧
        r.apply cr net undo record inclusionEpoch minimumEffectiveEpoch =
          ⟨(r.store undo record).1, (r.store undo record).2, .accepted, signatures⟩ := by
  simp only [apply]
  split
  · rename_i h
    exact Or.inr ⟨_, (applyStatus_eq_accepted_iff hnet).mp h, by rw [h]⟩
  · rename_i h
    exact Or.inl ⟨_, _, h, rfl⟩

lemma validateLifecycleRecordAuthorizationV2_signatures_le :
    (validateLifecycleRecordAuthorizationV2 cr net record).2 ≤ 2 := by
  simp only [validateLifecycleRecordAuthorizationV2]
  split
  · split_ifs <;> simp
  · simp

lemma apply_signatures_le :
    (r.apply cr net undo record inclusionEpoch minimumEffectiveEpoch).signatures ≤ 2 := by
  have h : (r.applyStatus cr net record inclusionEpoch minimumEffectiveEpoch).2 ≤ 2 := by
    have hauth : (validateLifecycleRecordAuthorizationV2 cr net record).2 ≤ 2 :=
      validateLifecycleRecordAuthorizationV2_signatures_le
    simp only [applyStatus]
    split_ifs <;> first | exact Nat.zero_le 2 | exact hauth
  simp only [apply]
  split <;> exact h

end Apply

end LifecycleRegistryV2

/-! ## Records for concrete runs -/

/-- A descriptor of operator `k`; all operators are paid at one address. -/
def IdentityDescriptorV2.sample (k : ℕ) (sequence effectiveEpoch expiryEpoch : UInt64) :
    IdentityDescriptorV2 where
  version := eposeDescriptorVersionV2
  identityId := deriveIdentityIdV2 .sample .sample (sampleKey (20 + k))
  servicePublicKey := sampleKey (10 + k)
  operatorAuthorizationPublicKey := sampleKey (20 + k)
  rewardAddress := ⟨sampleKey 5, sampleKey 6⟩
  endpointDescriptorHash := sampleKey 7
  sequence := sequence
  effectiveEpoch := effectiveEpoch
  expiryEpoch := expiryEpoch

/-- A signed lifecycle record. -/
def LifecycleRecordV2.sample (action : LifecycleActionV2) (previousDescriptorHash : Hash)
    (next : IdentityDescriptorV2) : LifecycleRecordV2 :=
  let record : LifecycleRecordV2 :=
    ⟨action, previousDescriptorHash, next, Block.zero 64, Block.zero 64⟩
  let message := hashLifecycleRecordV2 .sample .sample record
  let sign (key : PublicKey) := Crypto.sample.generateSignature message key key
  { record with
    operatorSignature := sign next.operatorAuthorizationPublicKey
    serviceSignature := sign next.servicePublicKey }

end Qwertycoin
