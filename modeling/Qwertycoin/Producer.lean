import Qwertycoin.Enrolment
import Qwertycoin.Payout
import Qwertycoin.Probe
import Qwertycoin.RecordRoundTrip

/-
# The service producer

A node that offers a service enrolls for an epoch with two records: a lifecycle record that puts
its descriptor in force from that epoch on, and an admission lease whose work is seeded by a block
of an earlier epoch.  The producer fills both, field by field, from the keys and the configuration
of the node; the registry and the membership pipeline recompute every field when a block carries
the records.

The main result connects the two sides: what the producer builds is accepted wherever a block may
still carry it, and the node then has one lease and the built descriptor for its epoch.
-/

namespace Qwertycoin

open Bytes

/-! ## Configuration and results -/

structure ServiceKeystoreV2 where
  operatorPublicKey : PublicKey
  operatorSecretKey : SecretKey
  servicePublicKey : PublicKey
  serviceSecretKey : SecretKey

structure ServiceEnrollmentConfigV2 where
  keystore : ServiceKeystoreV2
  rewardAddress : AccountPublicAddress
  endpointTransport : EndpointTransportV2
  endpointHost : List UInt8
  endpointPort : UInt16
  targetEpoch : UInt64
  expiryEpoch : UInt64

/-- `service_producer_status_v2` -/
inductive ServiceProducerStatusV2
  | accepted
  | invalidConfiguration
  | invalidContext
  | invalidEndpoint
  | signingFailed
  | admissionSearchExhausted
  | cancelled
  | encodingFailed
deriving DecidableEq

/-- `service_enrollment_v2`; the endpoint is there when `endpoint_update.present` is set. -/
structure ServiceEnrollmentV2 where
  endpointUpdate : Option EndpointDescriptorV2 := none
  lifecycle : LifecycleRecordV2 := .blank
  admission : AdmissionLeaseV2 := .blank
  records : List EnvelopeRecordV2 := []
deriving DecidableEq

namespace ServiceProducerV2

variable (cr : Crypto) (text : AddressText) (p : ConsensusParametersV2)
  (config : ServiceEnrollmentConfigV2) (contextHash : Hash) (maxNonceAttempts : UInt64)
  (cancel : UInt64 → Bool)

/-! ## Signing -/

/-- `valid_key_pair`, also `secret_matches` -/
def validKeyPair (publicKey : PublicKey) (secretKey : SecretKey) : Bool :=
  cr.secretKeyToPublicKey secretKey = some publicKey

def signEndpointDescriptorV2 (net : Scope) (descriptor : EndpointDescriptorV2)
    (serviceSecretKey : SecretKey) : Option EndpointDescriptorV2 :=
  if !validKeyPair cr descriptor.servicePublicKey serviceSecretKey then none
  else some { descriptor with
    signature := cr.generateSignature (hashEndpointDescriptorV2 cr net descriptor)
      descriptor.servicePublicKey serviceSecretKey }

def signLifecycleRecordV2 (net : Scope) (record : LifecycleRecordV2)
    (operatorSecretKey serviceSecretKey : SecretKey) : Option LifecycleRecordV2 :=
  let next := record.nextDescriptor
  if !validKeyPair cr next.operatorAuthorizationPublicKey operatorSecretKey ||
      !validKeyPair cr next.servicePublicKey serviceSecretKey then none
  else
    let message := hashLifecycleRecordV2 cr net record
    some { record with
      operatorSignature := cr.generateSignature message next.operatorAuthorizationPublicKey
        operatorSecretKey
      serviceSignature := cr.generateSignature message next.servicePublicKey serviceSecretKey }

/-! ## The admission lease -/

/-- The nonce loop.  `cancel` is what the flag reads before each attempt. -/
def searchNonce (context : AdmissionContextV2) (lease : AdmissionLeaseV2) :
    ℕ → UInt64 → Except ServiceProducerStatusV2 AdmissionLeaseV2
  | 0, _ => .error .admissionSearchExhausted
  | attempts + 1, nonce =>
    if cancel nonce then .error .cancelled
    else
      let lease := { lease with nonce }
      let lease := { lease with workHash := calculateAdmissionWorkV2 cr lease context }
      if admissionWorkMeetsTargetV2 lease.workHash p.admissionPolicy.leadingZeroBits then .ok lease
      else searchNonce context lease attempts (nonce + 1)

/-- The lease before the search for a nonce. -/
def draftLease (descriptor : IdentityDescriptorV2) (targetEpoch : UInt64)
    (context : AdmissionContextV2) : AdmissionLeaseV2 :=
  { AdmissionLeaseV2.blank with
    member := descriptor.member cr p.net
    targetEpoch
    workAlgorithm := p.admissionPolicy.algorithm.code
    leadingZeroBits := p.admissionPolicy.leadingZeroBits
    admissionContextHeight := context.height
    admissionContextHash := context.blockHash }

/-- The end of `build_admission`: the hash of the lease, and its record. -/
def sealLease (context : AdmissionContextV2) (lease : AdmissionLeaseV2) :
    Except ServiceProducerStatusV2 (AdmissionLeaseV2 × EnvelopeRecordV2) :=
  let lease := { lease with leaseHash := calculateAdmissionLeaseHashV2 cr lease context }
  if !(validateAdmissionLeaseV2 cr lease context p.admissionPolicy).1 then .error .signingFailed
  else
    match encodeAdmissionLeaseRecordV2 cr lease context p.admissionPolicy with
    | .error _ => .error .encodingFailed
    | .ok record => .ok (lease, record)

/-- `build_admission` -/
def buildAdmission (descriptor : IdentityDescriptorV2) (targetEpoch : UInt64) :
    Except ServiceProducerStatusV2 (AdmissionLeaseV2 × EnvelopeRecordV2) :=
  let offset := p.admissionPolicy.contextEpochOffset
  if !p.parametersValid || maxNonceAttempts = 0 || targetEpoch = 0 || targetEpoch < offset ||
      targetEpoch < descriptor.effectiveEpoch || descriptor.expiryEpoch ≤ targetEpoch ||
      descriptor.identityId ≠
        deriveIdentityIdV2 cr p.net descriptor.operatorAuthorizationPublicKey ||
      descriptor.servicePublicKey = descriptor.operatorAuthorizationPublicKey ||
      !cr.checkKey descriptor.servicePublicKey ||
      !cr.checkKey descriptor.operatorAuthorizationPublicKey then .error .invalidConfiguration
  else if contextHash = nullHash then .error .invalidContext
  else
    match p.timing.epochStart (targetEpoch - offset) with
    | none => .error .invalidContext
    | some contextHeight =>
      let context : AdmissionContextV2 := ⟨p.net, contextHeight, contextHash⟩
      match searchNonce cr p cancel context (draftLease cr p descriptor targetEpoch context)
        maxNonceAttempts.toNat 0 with
      | .error status => .error status
      | .ok lease => sealLease cr p context lease

/-! ## Enrollments -/

/-- `build_endpoint` -/
def buildEndpoint (sequence : UInt64) : Except ServiceProducerStatusV2 EndpointDescriptorV2 :=
  let endpoint : EndpointDescriptorV2 :=
    { version := 1
      servicePublicKey := config.keystore.servicePublicKey
      transport := config.endpointTransport
      host := config.endpointHost
      port := config.endpointPort
      serviceKind := p.committeePolicy.serviceKind
      serviceVersion := eposeProtocolVersionV2
      sequence
      expiryEpoch := config.expiryEpoch
      signature := Block.zero 64 }
  match signEndpointDescriptorV2 cr p.net endpoint config.keystore.serviceSecretKey with
  | none => .error .invalidEndpoint
  | some endpoint =>
    if validateEndpointDescriptorV2 cr text p.net endpoint ≠ .accepted then .error .invalidEndpoint
    else .ok endpoint

/-- The end of both builders: the records of a signed lifecycle record and of the lease for its
descriptor. -/
def encodeEnrollment (endpoint : EndpointDescriptorV2) (lifecycle : LifecycleRecordV2) :
    ServiceProducerStatusV2 × ServiceEnrollmentV2 :=
  match encodeLifecycleRecordV2 cr p.net lifecycle with
  | .error _ => (.encodingFailed, {})
  | .ok lifecycleRecord =>
    match buildAdmission cr p contextHash maxNonceAttempts cancel lifecycle.nextDescriptor
      config.targetEpoch with
    | .error status => (status, {})
    | .ok (admission, admissionRecord) =>
      (.accepted, { endpointUpdate := some endpoint, lifecycle, admission
                    records := [lifecycleRecord, admissionRecord] })

/-- The registration a first enrollment asks for, before it is signed. -/
def initialRecord (endpoint : EndpointDescriptorV2) : LifecycleRecordV2 :=
  let keys := config.keystore
  { LifecycleRecordV2.blank with
    nextDescriptor :=
      { version := eposeDescriptorVersionV2
        identityId := deriveIdentityIdV2 cr p.net keys.operatorPublicKey
        servicePublicKey := keys.servicePublicKey
        operatorAuthorizationPublicKey := keys.operatorPublicKey
        rewardAddress := config.rewardAddress
        endpointDescriptorHash := hashEndpointDescriptorV2 cr p.net endpoint
        sequence := 0
        effectiveEpoch := config.targetEpoch
        expiryEpoch := config.expiryEpoch } }

def buildInitialServiceEnrollmentV2 : ServiceProducerStatusV2 × ServiceEnrollmentV2 :=
  let keys := config.keystore
  let offset := p.admissionPolicy.contextEpochOffset
  if !p.parametersValid || maxNonceAttempts = 0 || config.targetEpoch = 0 ||
      config.expiryEpoch ≤ config.targetEpoch ||
      keys.operatorPublicKey = keys.servicePublicKey ||
      !validKeyPair cr keys.operatorPublicKey keys.operatorSecretKey ||
      !validKeyPair cr keys.servicePublicKey keys.serviceSecretKey then
    (.invalidConfiguration, {})
  else if contextHash = nullHash || config.targetEpoch < offset ||
      (p.timing.epochStart (config.targetEpoch - offset)).isNone then (.invalidContext, {})
  else
    match buildEndpoint cr text p config 0 with
    | .error status => (status, {})
    | .ok endpoint =>
      let draft := initialRecord cr p config endpoint
      match signLifecycleRecordV2 cr p.net draft keys.operatorSecretKey keys.serviceSecretKey with
      | none => (.signingFailed, { endpointUpdate := some endpoint, lifecycle := draft })
      | some lifecycle =>
        if (validateLifecycleRecordAuthorizationV2 cr p.net lifecycle).1 ≠ .accepted then
          (.signingFailed, { endpointUpdate := some endpoint, lifecycle })
        else encodeEnrollment cr p config contextHash maxNonceAttempts cancel endpoint lifecycle

/-- The change a renewal asks for, before it is signed. -/
def renewalRecord (current : IdentityDescriptorV2) (endpoint : EndpointDescriptorV2) :
    LifecycleRecordV2 :=
  { LifecycleRecordV2.blank with
    action := .updateDescriptor
    previousDescriptorHash := hashIdentityDescriptorV2 cr p.net current
    nextDescriptor :=
      { current with
        sequence := current.sequence + 1
        effectiveEpoch := config.targetEpoch
        expiryEpoch := config.expiryEpoch
        endpointDescriptorHash := hashEndpointDescriptorV2 cr p.net endpoint } }

def buildServiceRenewalEnrollmentV2 (current : IdentityDescriptorV2) :
    ServiceProducerStatusV2 × ServiceEnrollmentV2 :=
  let keys := config.keystore
  if !p.parametersValid || config.targetEpoch = 0 ||
      current.identityId ≠ deriveIdentityIdV2 cr p.net keys.operatorPublicKey ||
      current.operatorAuthorizationPublicKey ≠ keys.operatorPublicKey ||
      current.servicePublicKey ≠ keys.servicePublicKey ||
      current.rewardAddress.viewPublicKey ≠ config.rewardAddress.viewPublicKey ||
      current.rewardAddress.spendPublicKey ≠ config.rewardAddress.spendPublicKey ||
      config.expiryEpoch ≠ config.targetEpoch + 2 ||
      !validKeyPair cr keys.operatorPublicKey keys.operatorSecretKey ||
      !validKeyPair cr keys.servicePublicKey keys.serviceSecretKey ||
      current.sequence = uint64Max || config.targetEpoch ≤ current.effectiveEpoch ||
      uint64Max - 2 < config.targetEpoch then (.invalidConfiguration, {})
  else
    match buildEndpoint cr text p config (current.sequence + 1) with
    | .error status => (status, {})
    | .ok endpoint =>
      let draft := renewalRecord cr p config current endpoint
      if draft.nextDescriptor.expiryEpoch ≤ current.expiryEpoch then (.signingFailed, {})
      else
        match signLifecycleRecordV2 cr p.net draft keys.operatorSecretKey keys.serviceSecretKey with
        | none => (.signingFailed, {})
        | some lifecycle =>
          if (validateLifecycleRecordAuthorizationV2 cr p.net lifecycle).1 ≠ .accepted then
            (.signingFailed, {})
          else encodeEnrollment cr p config contextHash maxNonceAttempts cancel endpoint lifecycle

/-! ## What a builder returns -/

section Built

variable {cr text p config contextHash maxNonceAttempts cancel}
  {descriptor current : IdentityDescriptorV2} {lease : AdmissionLeaseV2}
  {enrollment : ServiceEnrollmentV2} {status : ServiceProducerStatusV2}

/-- A lease as the producer builds it for a descriptor. -/
structure LeaseBuilt (cr : Crypto) (p : ConsensusParametersV2) (contextHash : Hash)
    (descriptor : IdentityDescriptorV2) (targetEpoch : UInt64) (lease : AdmissionLeaseV2) :
    Prop where
  positive : targetEpoch ≠ 0
  offset_le : p.admissionPolicy.contextEpochOffset ≤ targetEpoch
  unexpired : targetEpoch < descriptor.expiryEpoch
  context_ne : contextHash ≠ nullHash
  member : lease.member = descriptor.member cr p.net
  target : lease.targetEpoch = targetEpoch
  validated : ∃ contextHeight,
    p.timing.epochStart (targetEpoch - p.admissionPolicy.contextEpochOffset) =
        some contextHeight ∧
      (validateAdmissionLeaseV2 cr lease ⟨p.net, contextHeight, contextHash⟩
        p.admissionPolicy).1 = true

/-- The nonce loop fills the nonce and the work, which meets the target. -/
lemma searchNonce_eq_ok {context : AdmissionContextV2} {draft : AdmissionLeaseV2} {attempts : ℕ}
    {nonce : UInt64} (h : searchNonce cr p cancel context draft attempts nonce = .ok lease) :
    ∃ nonce, lease = { draft with
        nonce
        workHash := calculateAdmissionWorkV2 cr { draft with nonce } context } ∧
      admissionWorkMeetsTargetV2 lease.workHash p.admissionPolicy.leadingZeroBits = true := by
  induction attempts generalizing draft nonce with
  | zero => cases h
  | succ attempts ih =>
    simp only [searchNonce] at h
    split_ifs at h with _ hmeets
    · cases h
      exact ⟨nonce, rfl, hmeets⟩
    · -- the work does not depend on the work of the attempt before
      obtain ⟨found, hfound, hmeets⟩ := ih h
      exact ⟨found, hfound, hmeets⟩

lemma searchNonce_eq_error {context : AdmissionContextV2} {draft : AdmissionLeaseV2}
    {attempts : ℕ} {nonce : UInt64}
    (h : searchNonce cr p cancel context draft attempts nonce = .error status) :
    status = .admissionSearchExhausted ∨ status = .cancelled := by
  induction attempts generalizing draft nonce with
  | zero =>
    cases h
    exact Or.inl rfl
  | succ attempts ih =>
    simp only [searchNonce] at h
    split_ifs at h
    · cases h
      exact Or.inr rfl
    · exact ih h

lemma buildAdmission_ne_error_accepted {targetEpoch : UInt64} :
    buildAdmission cr p contextHash maxNonceAttempts cancel descriptor targetEpoch ≠
      .error .accepted := by
  intro h
  simp only [buildAdmission] at h
  obtain ⟨-, h⟩ := passed_of_ite (by simp) h
  obtain ⟨-, h⟩ := passed_of_ite (by simp) h
  split at h
  · cases h
  split at h
  · rename_i status hsearch
    cases h
    obtain hstatus | hstatus := searchNonce_eq_error hsearch <;> cases hstatus
  simp only [sealLease] at h
  obtain ⟨-, h⟩ := passed_of_ite (by simp) h
  split at h <;> cases h

lemma buildEndpoint_ne_error_accepted {sequence : UInt64} :
    buildEndpoint cr text p config sequence ≠ .error .accepted := by
  intro h
  simp only [buildEndpoint] at h
  split at h
  · cases h
  · split_ifs at h
    cases h

lemma buildAdmission_eq_ok {targetEpoch : UInt64} {record : EnvelopeRecordV2}
    (h : buildAdmission cr p contextHash maxNonceAttempts cancel descriptor targetEpoch =
      .ok (lease, record)) :
    LeaseBuilt cr p contextHash descriptor targetEpoch lease ∧
      record = ⟨RecordTypeV2.admissionLease.code, eposeRecordVersionV2, lease.payload⟩ := by
  simp only [buildAdmission] at h
  split_ifs at h with hconfig hcontext
  split at h
  · cases h
  rename_i contextHeight hheight
  split at h
  · cases h
  rename_i found hfound
  simp only [sealLease] at h
  split_ifs at h with hvalid
  split at h
  · cases h
  rename_i encoded hencoded
  cases h
  simp only [Bool.or_eq_true, Bool.not_eq_true', decide_eq_true_eq, not_or, UInt64.not_lt,
    UInt64.not_le] at hconfig
  obtain ⟨⟨⟨⟨⟨⟨⟨⟨⟨-, -⟩, hpositive⟩, hoffset⟩, -⟩, hexpiry⟩, -⟩, -⟩, -⟩, -⟩ := hconfig
  obtain ⟨nonce, rfl, -⟩ := searchNonce_eq_ok hfound
  obtain ⟨hvalidated, hrecord⟩ :=
    (encoded_eq_ok_iff (layout_admissionLease.length_payload _)).mp hencoded
  exact ⟨⟨hpositive, hoffset, hexpiry, hcontext, rfl, rfl, contextHeight, hheight, hvalidated⟩,
    hrecord⟩

/-- An enrollment as the producer hands it out. -/
structure Built (cr : Crypto) (p : ConsensusParametersV2) (targetEpoch : UInt64)
    (contextHash : Hash) (enrollment : ServiceEnrollmentV2) : Prop where
  authorized : (validateLifecycleRecordAuthorizationV2 cr p.net enrollment.lifecycle).1 = .accepted
  lease : LeaseBuilt cr p contextHash enrollment.lifecycle.nextDescriptor targetEpoch
    enrollment.admission
  records : enrollment.records =
    [⟨enrollment.lifecycle.wireType.code, eposeRecordVersionV2, enrollment.lifecycle.payload⟩,
      ⟨RecordTypeV2.admissionLease.code, eposeRecordVersionV2, enrollment.admission.payload⟩]

lemma encodeEnrollment_accepted {endpoint : EndpointDescriptorV2} {lifecycle : LifecycleRecordV2}
    (h : encodeEnrollment cr p config contextHash maxNonceAttempts cancel endpoint lifecycle =
      (.accepted, enrollment)) :
    Built cr p config.targetEpoch contextHash enrollment ∧ enrollment.lifecycle = lifecycle := by
  rw [encodeEnrollment] at h
  split at h
  · cases h
  rename_i lifecycleRecord hlifecycle
  obtain ⟨hauthorized, rfl⟩ := encodeLifecycleRecordV2_eq_ok_iff.mp hlifecycle
  split at h
  · rename_i status hstatus
    obtain ⟨rfl, -⟩ := Prod.mk.inj h
    exact absurd hstatus buildAdmission_ne_error_accepted
  rename_i admission admissionRecord hadmission
  obtain ⟨hlease, rfl⟩ := buildAdmission_eq_ok hadmission
  cases h
  exact ⟨⟨hauthorized, hlease, rfl⟩, rfl⟩

lemma signLifecycleRecordV2_eq_some {net : Scope} {draft record : LifecycleRecordV2}
    {operatorSecretKey serviceSecretKey : SecretKey}
    (h : signLifecycleRecordV2 cr net draft operatorSecretKey serviceSecretKey = some record) :
    record.action = draft.action ∧ record.nextDescriptor = draft.nextDescriptor ∧
      record.previousDescriptorHash = draft.previousDescriptorHash := by
  simp only [signLifecycleRecordV2] at h
  split_ifs at h
  cases h
  exact ⟨rfl, rfl, rfl⟩

/-- A first enrollment registers the identity of the operator key from the target epoch on. -/
lemma buildInitialServiceEnrollmentV2_accepted
    (h : buildInitialServiceEnrollmentV2 cr text p config contextHash maxNonceAttempts cancel =
      (.accepted, enrollment)) :
    Built cr p config.targetEpoch contextHash enrollment ∧
      enrollment.lifecycle.action = .registerIdentity ∧
      enrollment.lifecycle.previousDescriptorHash = nullHash ∧
      ∃ endpoint, enrollment.lifecycle.nextDescriptor =
        (initialRecord cr p config endpoint).nextDescriptor := by
  simp only [buildInitialServiceEnrollmentV2] at h
  obtain ⟨-, h⟩ := passed_of_ite (by simp) h
  obtain ⟨-, h⟩ := passed_of_ite (by simp) h
  split at h
  · rename_i status hstatus
    obtain ⟨rfl, -⟩ := Prod.mk.inj h
    exact absurd hstatus buildEndpoint_ne_error_accepted
  split at h
  · cases h
  rename_i lifecycle hsigned
  obtain ⟨-, h⟩ := passed_of_ite (by simp) h
  obtain ⟨hbuilt, hlifecycle⟩ := encodeEnrollment_accepted h
  obtain ⟨haction, hnext, hprevious⟩ := signLifecycleRecordV2_eq_some hsigned
  rw [hlifecycle, haction, hnext, hprevious]
  exact ⟨hbuilt, rfl, rfl, _, rfl⟩

/-- A renewal continues a descriptor from the target epoch on. -/
lemma buildServiceRenewalEnrollmentV2_accepted
    (h : buildServiceRenewalEnrollmentV2 cr text p config contextHash maxNonceAttempts cancel
      current = (.accepted, enrollment)) :
    Built cr p config.targetEpoch contextHash enrollment ∧
      current.sequence ≠ uint64Max ∧ current.effectiveEpoch < config.targetEpoch ∧
      current.expiryEpoch < config.expiryEpoch ∧
      enrollment.lifecycle.action = .updateDescriptor ∧
      enrollment.lifecycle.previousDescriptorHash = hashIdentityDescriptorV2 cr p.net current ∧
      ∃ endpointDescriptorHash, enrollment.lifecycle.nextDescriptor =
        { current with
          sequence := current.sequence + 1
          effectiveEpoch := config.targetEpoch
          expiryEpoch := config.expiryEpoch
          endpointDescriptorHash } := by
  simp only [buildServiceRenewalEnrollmentV2] at h
  obtain ⟨hconfig, h⟩ := passed_of_ite (by simp) h
  split at h
  · rename_i status hstatus
    obtain ⟨rfl, -⟩ := Prod.mk.inj h
    exact absurd hstatus buildEndpoint_ne_error_accepted
  obtain ⟨hexpiry, h⟩ := passed_of_ite (by simp) h
  split at h
  · cases h
  rename_i lifecycle hsigned
  obtain ⟨-, h⟩ := passed_of_ite (by simp) h
  simp only [Bool.or_eq_true, decide_eq_true_eq, not_or, UInt64.not_le] at hconfig
  obtain ⟨⟨⟨-, hsequence⟩, hlater⟩, -⟩ := hconfig
  obtain ⟨hbuilt, hlifecycle⟩ := encodeEnrollment_accepted h
  obtain ⟨haction, hnext, hprevious⟩ := signLifecycleRecordV2_eq_some hsigned
  rw [hlifecycle, haction, hnext, hprevious]
  exact ⟨hbuilt, hsequence, hlater, UInt64.not_le.mp hexpiry, rfl, rfl, _, rfl⟩

lemma encodeEnrollment_records {endpoint : EndpointDescriptorV2} {lifecycle : LifecycleRecordV2}
    (h : encodeEnrollment cr p config contextHash maxNonceAttempts cancel endpoint lifecycle =
      (status, enrollment)) (hstatus : status ≠ .accepted) : enrollment.records = [] := by
  rw [encodeEnrollment] at h
  split at h
  · cases h
    rfl
  split at h
  · cases h
    rfl
  · cases h
    exact absurd rfl hstatus

lemma buildInitialServiceEnrollmentV2_records
    (h : buildInitialServiceEnrollmentV2 cr text p config contextHash maxNonceAttempts cancel =
      (status, enrollment)) (hstatus : status ≠ .accepted) : enrollment.records = [] := by
  simp only [buildInitialServiceEnrollmentV2] at h
  split_ifs at h
  · cases h
    rfl
  · cases h
    rfl
  split at h
  · cases h
    rfl
  split at h
  · cases h
    rfl
  split_ifs at h
  · cases h
    rfl
  · exact encodeEnrollment_records h hstatus

lemma buildServiceRenewalEnrollmentV2_records
    (h : buildServiceRenewalEnrollmentV2 cr text p config contextHash maxNonceAttempts cancel
      current = (status, enrollment)) (hstatus : status ≠ .accepted) : enrollment.records = [] := by
  simp only [buildServiceRenewalEnrollmentV2] at h
  split_ifs at h
  · cases h
    rfl
  split at h
  · cases h
    rfl
  split_ifs at h
  · cases h
    rfl
  split at h
  · cases h
    rfl
  split_ifs at h
  · cases h
    rfl
  · exact encodeEnrollment_records h hstatus

end Built

end ServiceProducerV2

/-! ## The registry -/

namespace LifecycleRegistryV2

variable {cr : Crypto} {net : Scope} {r : LifecycleRegistryV2} {record last : LifecycleRecordV2}
  {history : IdentityHistory} {epoch : UInt64}

lemma selectDescriptor_concat {records : List LifecycleRecordV2}
    (hbefore : ∀ earlier ∈ records, earlier.nextDescriptor.effectiveEpoch ≤ epoch)
    (heffective : record.nextDescriptor.effectiveEpoch ≤ epoch)
    (hexpiry : epoch < record.nextDescriptor.expiryEpoch)
    (haction : record.action ≠ .deregisterIdentity) :
    selectDescriptor (records ++ [record]) epoch = some record.nextDescriptor := by
  have htake : (records ++ [record]).takeWhile (fun record =>
      record.nextDescriptor.effectiveEpoch ≤ epoch) = records ++ [record] := by
    rw [List.takeWhile_eq_self_iff]
    simpa [or_imp, forall_and] using ⟨hbefore, heffective⟩
  have hkept : ¬(record.nextDescriptor.expiryEpoch ≤ epoch ∨
      record.action = .deregisterIdentity) := by
    rw [not_or, UInt64.not_le]
    exact ⟨hexpiry, haction⟩
  simp only [selectDescriptor, htake, List.getLast?_concat, if_neg hkept]

/-- No record of a history takes effect after the last one. -/
lemma HistoryValid.effectiveEpoch_le (h : HistoryValid cr net history)
    (hlast : history.records.getLast? = some last) {earlier : LifecycleRecordV2}
    (hmem : earlier ∈ history.records) :
    earlier.nextDescriptor.effectiveEpoch ≤ last.nextDescriptor.effectiveEpoch := by
  obtain ⟨front, hfront⟩ := List.getLast?_eq_some_iff.mp hlast
  have hincreasing := h.increasing
  rw [hfront] at hmem hincreasing
  obtain hmem | hmem := List.mem_append.mp hmem
  · exact UInt64.le_of_lt ((List.pairwise_append.mp hincreasing).2.2 earlier hmem last
      (List.mem_singleton_self _))
  · rw [List.mem_singleton.mp hmem]
    exact UInt64.le_refl _

end LifecycleRegistryV2

/-! ## Accepted records -/

namespace SemanticStateV2

variable {cr : Crypto} {p : SemanticParametersV2} {contexts : CanonicalContextSourceV2}
  {transaction : SemanticTransactionContextV2} {s : SemanticStateV2} {w : Work}
  {lifecycle : LifecycleRecordV2} {lease : AdmissionLeaseV2} {record : EnvelopeRecordV2}
  {height inclusionEpoch minimumEffectiveEpoch epoch cutoff contextHeight : UInt64}
  {contextHash : Hash}

/-- Up to the enrollment cutoff of an epoch, records may take effect in it. -/
lemma minimumEffectiveEpoch_le (hv : p.timing.valid = true)
    (hepochs : inclusionEpochs p.timing height = .ok (inclusionEpoch, minimumEffectiveEpoch))
    (hcutoff : p.timing.enrollmentCutoff epoch = some cutoff) (hle : height ≤ cutoff) :
    inclusionEpoch ≤ epoch ∧ minimumEffectiveEpoch ≤ epoch := by
  have hlen := EpochTimingV2.len_gt_one hv
  have hquot : (height / p.timing.epochLength).toNat = height.toNat / p.timing.len :=
    UInt64.toNat_div ..
  have hstart := ((EpochTimingV2.enrollmentCutoff_eq_some_iff hv).mp hcutoff).1
  rw [UInt64.le_iff_toNat_le] at hle
  have hbelow : height.toNat / p.timing.len < epoch.toNat :=
    (Nat.div_lt_iff_lt_mul (by omega)).mpr (by omega)
  have hlt := epoch.toNat_lt
  have hsucc : (height / p.timing.epochLength + 1).toNat = height.toNat / p.timing.len + 1 := by
    rw [UInt64.toNat_add, hquot, UInt64.toNat_one]
    omega
  simp only [inclusionEpochs] at hepochs
  split_ifs at hepochs with hmax hopen hmax'
  · cases hepochs
    simp only [UInt64.le_iff_toNat_le, hsucc, hquot]
    omega
  · cases hepochs
    -- the next epoch is closed, so the epoch in question is a later one
    have hne : epoch ≠ height / p.timing.epochLength + 1 := by
      rintro rfl
      rw [hcutoff] at hopen
      exact hopen (decide_eq_true (UInt64.le_iff_toNat_le.mpr hle))
    have hlater : height.toNat / p.timing.len + 1 ≠ epoch.toNat := by
      rw [← hsucc]
      exact fun heq => hne (UInt64.toNat_inj.mp heq).symm
    have hsecond : (height / p.timing.epochLength + 1 + 1).toNat =
        height.toNat / p.timing.len + 2 := by
      rw [UInt64.toNat_add, hsucc, UInt64.toNat_one]
      omega
    simp only [UInt64.le_iff_toNat_le, hsecond, hquot]
    omega

lemma applyLifecycle_of_accepts (hnet : p.net.valid = true)
    (hdecode : decodeLifecycleRecordStructureV2 record = .ok lifecycle)
    (haccepts : w.state.lifecycle.Accepts cr p.net lifecycle inclusionEpoch
      minimumEffectiveEpoch) :
    ∃ w' undo, applyLifecycle cr p inclusionEpoch minimumEffectiveEpoch w record =
        (w', .accepted) ∧
      w'.state = { w.state with lifecycle := (w.state.lifecycle.store undo lifecycle).1 } := by
  have hstatus := (LifecycleRegistryV2.applyStatus_eq_accepted_iff hnet).mpr haccepts
  simp only [applyLifecycle, hdecode, LifecycleRegistryV2.apply, hstatus, true_or, if_true]
  exact ⟨_, _, rfl, rfl⟩

lemma applyAdmissionLease_of_accepts
    (hdecode : decodeAdmissionLeaseRecordStructureV2 record = .ok lease)
    (hheight : admissionContextHeight p height lease = some contextHeight)
    (hbound : leaseBound cr p w.state lease = true)
    (hhash : contexts.blockHash contextHeight = some contextHash) (hne : contextHash ≠ nullHash)
    (haccepts : w.state.membership.AdmissionAccepts cr p lease
      ⟨p.net, contextHeight, contextHash⟩ height) :
    ∃ w' undo, applyAdmissionLease cr p contexts height w record = (w', .accepted) ∧
      w'.state =
        { w.state with membership := (w.state.membership.storeLease undo lease height).1 } := by
  have hstatus := MembershipPipelineV2.admissionStatus_eq_accepted_iff.mpr haccepts
  simp only [applyAdmissionLease, hdecode, hheight, hbound, hhash, if_neg hne,
    MembershipPipelineV2.applyAdmission, hstatus, true_or, if_true, Bool.not_true,
    Bool.false_eq_true, if_false]
  exact ⟨_, _, rfl, rfl⟩

/-- A lifecycle record and a lease for its descriptor are accepted in one transaction. -/
lemma applyTransaction_of_accepts (hp : p.valid = true)
    (hactive : p.timing.activationHeight ≤ transaction.inclusionHeight)
    (hepochs : inclusionEpochs p.timing transaction.inclusionHeight =
      .ok (inclusionEpoch, minimumEffectiveEpoch))
    (hlifecycle : s.lifecycle.Accepts cr p.net lifecycle inclusionEpoch minimumEffectiveEpoch)
    (hheight : admissionContextHeight p transaction.inclusionHeight lease = some contextHeight)
    (hbound : ∀ undo, leaseBound cr p
      { s with lifecycle := (s.lifecycle.store undo lifecycle).1 } lease = true)
    (hhash : contexts.blockHash contextHeight = some contextHash) (hne : contextHash ≠ nullHash)
    (hlease : s.membership.AdmissionAccepts cr p lease ⟨p.net, contextHeight, contextHash⟩
      transaction.inclusionHeight) (blockUndo : Option UndoJournal) :
    ∃ undo undo',
      (s.applyTransaction cr p contexts blockUndo
        [⟨lifecycle.wireType.code, eposeRecordVersionV2, lifecycle.payload⟩,
          ⟨RecordTypeV2.admissionLease.code, eposeRecordVersionV2, lease.payload⟩]
        transaction).status = .accepted ∧
      (s.applyTransaction cr p contexts blockUndo
        [⟨lifecycle.wireType.code, eposeRecordVersionV2, lifecycle.payload⟩,
          ⟨RecordTypeV2.admissionLease.code, eposeRecordVersionV2, lease.payload⟩]
        transaction).state =
          ⟨(s.lifecycle.store undo lifecycle).1,
            (s.membership.storeLease undo' lease transaction.inclusionHeight).1⟩ := by
  have hnet : p.net.valid = true := by
    simp only [SemanticParametersV2.valid, Bool.and_eq_true] at hp
    exact hp.1
  have hgood := LifecycleActionV2.ofCode_code (valid_action_of_accepted hlifecycle.authorized)
  obtain ⟨w₁, undo, happly₁, hstate₁⟩ := applyLifecycle_of_accepts (w := ⟨s, s.checkpoint, {}⟩)
    hnet (decodeLifecycleRecordStructureV2_eq_ok_iff.mpr ⟨rfl, hgood⟩) hlifecycle
  obtain ⟨w₂, undo', happly₂, hstate₂⟩ := applyAdmissionLease_of_accepts (w := w₁)
    (decodeAdmissionLeaseRecordStructureV2_eq_ok_iff.mpr rfl) hheight
    (by rw [hstate₁]; exact hbound undo) hhash hne (by rw [hstate₁]; exact hlease)
  have hfirst : applyRecord cr p contexts transaction inclusionEpoch minimumEffectiveEpoch
      ⟨s, s.checkpoint, {}⟩
      ⟨lifecycle.wireType.code, eposeRecordVersionV2, lifecycle.payload⟩ = (w₁, .accepted) := by
    rw [← happly₁, LifecycleRecordV2.wireType]
    split_ifs <;> rfl
  have hsecond : applyRecord cr p contexts transaction inclusionEpoch minimumEffectiveEpoch w₁
      ⟨RecordTypeV2.admissionLease.code, eposeRecordVersionV2, lease.payload⟩ =
        (w₂, .accepted) := by
    rw [← happly₂]
    rfl
  refine ⟨undo, undo', ?_⟩
  unfold applyTransaction
  rw [if_neg (by simp [hp]), if_neg (UInt64.not_lt.mpr hactive), hepochs]
  simp only [List.cons_ne_nil, if_false, applyRecords, hfirst, hsecond]
  rw [hstate₂, hstate₁]
  exact ⟨trivial, rfl⟩

end SemanticStateV2

/-! ## Enrollments are accepted -/

namespace MembershipPipelineV2

variable {cr : Crypto} {p : SemanticParametersV2} {m : MembershipPipelineV2}
  {lease : AdmissionLeaseV2} {context : AdmissionContextV2} {height : UInt64}

lemma AdmissionAccepts.filter_storeLease (h : m.AdmissionAccepts cr p lease context height)
    (hdist : m.leases.Pairwise DistinctLeases) (undo : UndoJournal) :
    (m.storeLease undo lease height).1.leases.filter (sameSlot lease) = [⟨lease, height⟩] := by
  have hself : sameSlot lease ⟨lease, height⟩ = true := by simp [sameSlot]
  have hmem : ∀ stored, stored ∈ (m.storeLease undo lease height).1.leases.filter
      (sameSlot lease) ↔ stored = ⟨lease, height⟩ := by
    intro stored
    rw [List.mem_filter, mem_storeLease hdist]
    constructor
    · rintro ⟨rfl | ⟨-, hother⟩, hslot⟩
      · rfl
      · rw [hother] at hslot
        cases hslot
    · rintro rfl
      exact ⟨Or.inl rfl, hself⟩
  have hpair : ((m.storeLease undo lease height).1.leases.filter (sameSlot lease)).Pairwise
      DistinctLeases := (h.pairwise hdist).filter _
  generalize (m.storeLease undo lease height).1.leases.filter (sameSlot lease) = kept
    at hmem hpair ⊢
  rcases kept with - | ⟨first, - | ⟨second, rest⟩⟩
  · exact absurd ((hmem ⟨lease, height⟩).mpr rfl) List.not_mem_nil
  · rw [(hmem first).mp (by simp)]
  · have hfirst := (hmem first).mp (by simp)
    have hsecond := (hmem second).mp (by simp)
    have hne := (List.pairwise_cons.mp hpair).1 second (by simp)
    rw [hfirst, hsecond] at hne
    exact absurd rfl (hne rfl).1

lemma validateAdmissionLeaseV2_fields {policy : AdmissionPolicyV2}
    (h : (validateAdmissionLeaseV2 cr lease context policy).1 = true) :
    cr.checkKey lease.member.servicePublicKey = true ∧
      cr.checkKey lease.member.operatorAuthorizationPublicKey = true ∧
      lease.member.servicePublicKey ≠ lease.member.operatorAuthorizationPublicKey ∧
      lease.member.identityId ≠ nullHash ∧ lease.admissionContextHeight = context.height := by
  simp only [validateAdmissionLeaseV2] at h
  split_ifs at h with hfields
  simp only [Bool.or_eq_true, Bool.not_eq_true', decide_eq_true_eq, not_or, Bool.not_eq_false,
    ne_eq, not_not] at hfields
  tauto

end MembershipPipelineV2

namespace ServiceProducerV2

open MembershipPipelineV2 LifecycleRegistryV2

variable {cr : Crypto} {text : AddressText} {p : ConsensusParametersV2}
  {contexts : CanonicalContextSourceV2} {config : ServiceEnrollmentConfigV2} {contextHash : Hash}
  {maxNonceAttempts : UInt64} {cancel : UInt64 → Bool} {enrollment : ServiceEnrollmentV2}
  {transaction : SemanticTransactionContextV2} {height targetEpoch : UInt64}
  {t : TransitionCoreV2}

/-- A block at this height can still carry an enrollment for an epoch: it lies above the block
that seeds the work and not above the cutoff, nobody else holds the service key, and there is
room for the lease. -/
structure Admissible (p : ConsensusParametersV2) (contexts : CanonicalContextSourceV2)
    (s : SemanticStateV2) (height targetEpoch : UInt64) (contextHash : Hash)
    (descriptor : IdentityDescriptorV2) : Prop where
  in_time : ∃ cutoff, p.timing.enrollmentCutoff targetEpoch = some cutoff ∧ height ≤ cutoff
  seeded : ∃ contextHeight,
    p.timing.epochStart (targetEpoch - p.admissionPolicy.contextEpochOffset) =
      some contextHeight ∧ contextHeight < height ∧
      contexts.blockHash contextHeight = some contextHash
  key_free : s.lifecycle.serviceKeyInUse descriptor = false
  newer : ∀ stored ∈ s.membership.leases, stored.lease.targetEpoch = targetEpoch →
    stored.lease.member.identityId = descriptor.identityId →
      stored.lease.member.sequence < descriptor.sequence
  unclaimed : ∀ stored ∈ s.membership.leases, stored.lease.targetEpoch = targetEpoch →
    stored.lease.member.identityId ≠ descriptor.identityId →
      stored.lease.member.servicePublicKey ≠ descriptor.servicePublicKey
  room : s.membership.epochPopulation targetEpoch < p.committeePolicy.maxActivePopulation

/-- A built lease passes the checks that come before the other leases are looked at. -/
lemma LeaseBuilt.precheck {descriptor : IdentityDescriptorV2} {lease : AdmissionLeaseV2}
    {contextHeight cutoff : UInt64}
    (h : LeaseBuilt cr p contextHash descriptor targetEpoch lease) (hp : p.valid = true)
    {s : SemanticStateV2}
    (hcutoff : p.timing.enrollmentCutoff targetEpoch = some cutoff) (hle : height ≤ cutoff)
    (hstart : p.timing.epochStart (targetEpoch - p.admissionPolicy.contextEpochOffset) =
      some contextHeight) (habove : contextHeight < height)
    (hsnapshot : targetEpoch ∉ s.membership.snapshots) :
    SemanticStateV2.admissionContextHeight p.toSemanticParametersV2 height lease =
        some contextHeight ∧
      admissionPrecheck cr p.toSemanticParametersV2 s.membership lease
        ⟨p.net, contextHeight, contextHash⟩ height = .accepted ∧
      (validateAdmissionLeaseV2 cr lease ⟨p.net, contextHeight, contextHash⟩
        p.admissionPolicy).1 = true := by
  have hvalid := (ConsensusCoordinatorV2.valid_iff.mp hp).2
  have hv := BlockTransitionV2.timing_valid hvalid
  have hactivation := ConsensusCoordinatorV2.activationHeight_eq_zero hp
  obtain ⟨_, hstart', hvalidated⟩ := h.validated
  obtain rfl := Option.some.inj (hstart.symm.trans hstart')
  obtain ⟨hservice, hoperator, hseparate, hidentity, hcontext⟩ :=
    validateAdmissionLeaseV2_fields hvalidated
  obtain ⟨first, hfirst, hfirst'⟩ := EpochTimingV2.exists_firstServiceEpoch hv
  have hserved : ¬targetEpoch < first := by
    have hpositive : targetEpoch.toNat ≠ 0 := fun hzero => h.positive (UInt64.toNat_inj.mp hzero)
    have hone : first.toNat = 1 := by
      simp [hfirst', EpochTimingV2.firstService, hactivation]
    rw [UInt64.lt_iff_toNat_lt]
    omega
  have hoffset : ¬targetEpoch < p.admissionPolicy.contextEpochOffset :=
    UInt64.not_lt.mpr h.offset_le
  refine ⟨?_, ?_, hvalidated⟩
  · have hopen : ¬(lease.admissionContextHeight ≠ contextHeight ∨ cutoff < height) :=
      not_or.mpr ⟨not_not.mpr hcontext, UInt64.not_lt.mpr hle⟩
    simp [SemanticStateV2.admissionContextHeight, hfirst, h.target, hserved, hoffset, hstart,
      hcutoff, hopen]
  · have hscope : ¬height ≤ contextHeight := UInt64.not_le.mpr habove
    have hactive : ¬height < p.timing.activationHeight := by
      rw [hactivation]
      exact UInt64.not_lt_zero
    simp [admissionPrecheck, BlockTransitionV2.membershipValid_of_valid hvalid, hscope, hactive,
      hfirst, h.target, hstart, hcutoff, hserved, hoffset, UInt64.not_lt.mpr hle, hservice,
      hoperator, hseparate, hidentity, hsnapshot]

lemma sameLease_eq_false_of_lt {stored : StoredLease} {lease : AdmissionLeaseV2}
    (h : stored.lease.member.sequence < lease.member.sequence) :
    sameLease stored.lease lease = false := by
  refine Bool.eq_false_iff.mpr fun hsame => ?_
  simp only [sameLease, Bool.and_eq_true, decide_eq_true_eq] at hsame
  rw [hsame.1.2] at h
  exact UInt64.lt_irrefl _ h

lemma LeaseBuilt.accepts {descriptor : IdentityDescriptorV2} {lease : AdmissionLeaseV2}
    (h : LeaseBuilt cr p contextHash descriptor targetEpoch lease) (hp : p.valid = true)
    {s : SemanticStateV2} (ha : Admissible p contexts s height targetEpoch contextHash descriptor)
    (hsnapshot : targetEpoch ∉ s.membership.snapshots) :
    ∃ contextHeight,
      SemanticStateV2.admissionContextHeight p.toSemanticParametersV2 height lease =
        some contextHeight ∧
      contexts.blockHash contextHeight = some contextHash ∧
      s.membership.AdmissionAccepts cr p.toSemanticParametersV2 lease
        ⟨p.net, contextHeight, contextHash⟩ height := by
  obtain ⟨contextHeight, hstart, habove, hhash⟩ := ha.seeded
  obtain ⟨cutoff, hcutoff, hle⟩ := ha.in_time
  obtain ⟨hheight, hprecheck, hvalidated⟩ := h.precheck hp hcutoff hle hstart habove hsnapshot
  refine ⟨contextHeight, hheight, hhash, hprecheck, hvalidated, fun stored hmem => ?_,
    fun stored hfind => ?_, fun _ => ?_⟩
  · by_contra hconflict
    simp only [Bool.not_eq_false, keyConflict, Bool.and_eq_true, decide_eq_true_eq, ne_eq,
      h.target, h.member] at hconflict
    exact ha.unclaimed stored hmem hconflict.1.1 hconflict.1.2 hconflict.2
  · have hslot := List.find?_some hfind
    simp only [sameSlot, Bool.and_eq_true, decide_eq_true_eq, h.target, h.member] at hslot
    have hlt : stored.lease.member.sequence < lease.member.sequence := by
      rw [h.member]
      exact ha.newer stored (List.mem_of_find?_eq_some hfind) hslot.1 hslot.2
    exact ⟨sameLease_eq_false_of_lt hlt, hlt⟩
  · rw [h.target]
    exact ha.room

/-- The state after a block carried an enrollment: one lease of the identity for the epoch, and
the built descriptor in force. -/
structure Enrolls (height targetEpoch : UInt64) (enrollment : ServiceEnrollmentV2)
    (applied : SemanticStateV2.Applied) : Prop where
  accepted : applied.status = .accepted
  lease : applied.state.membership.leases.filter (fun stored =>
      stored.lease.targetEpoch = targetEpoch &&
        stored.lease.member.identityId = enrollment.lifecycle.nextDescriptor.identityId) =
    [⟨enrollment.admission, height⟩]
  descriptor : applied.state.lifecycle.descriptorForEpoch
    enrollment.lifecycle.nextDescriptor.identityId targetEpoch =
      some enrollment.lifecycle.nextDescriptor

/-- No snapshot is there for an epoch whose enrollment is still open. -/
lemma not_mem_snapshots (hv : p.timing.valid = true)
    (hinv : BlockTransitionV2.EpochInvariant p.toTransitionParametersV2 t)
    (hnext : BlockTransitionV2.nextHeight p.toTransitionParametersV2 t ≤ height.toNat)
    (hopen : ∃ cutoff, p.timing.enrollmentCutoff targetEpoch = some cutoff ∧ height ≤ cutoff) :
    targetEpoch ∉ t.state.membership.snapshots := by
  intro hmem
  obtain ⟨cutoff, hcutoff, hle⟩ := hopen
  have hbelow := ((hinv.frozen targetEpoch).mp hmem).2.1
  have hstart := ((EpochTimingV2.enrollmentCutoff_eq_some_iff hv).mp hcutoff).1
  rw [UInt64.le_iff_toNat_le] at hle
  omega

lemma Built.enrolls (h : Built cr p targetEpoch contextHash enrollment) (hp : p.valid = true)
    (hinv : BlockTransitionV2.EpochInvariant p.toTransitionParametersV2 t)
    (hnext : BlockTransitionV2.nextHeight p.toTransitionParametersV2 t ≤
      transaction.inclusionHeight.toNat)
    (ha : Admissible p contexts t.state transaction.inclusionHeight targetEpoch contextHash
      enrollment.lifecycle.nextDescriptor)
    (heffective : enrollment.lifecycle.nextDescriptor.effectiveEpoch = targetEpoch)
    (haction : enrollment.lifecycle.action ≠ .deregisterIdentity)
    (hfresh : t.state.lifecycle.isDuplicate cr p.net enrollment.lifecycle = false)
    (htransition : transitionStatus cr p.net
      (t.state.lifecycle.findHistory enrollment.lifecycle.nextDescriptor.identityId)
      enrollment.lifecycle = .accepted)
    (hbefore : ∀ earlier ∈
      t.state.lifecycle.recordsOf enrollment.lifecycle.nextDescriptor.identityId,
      earlier.nextDescriptor.effectiveEpoch ≤ targetEpoch)
    (blockUndo : Option SemanticStateV2.UndoJournal) :
    Enrolls transaction.inclusionHeight targetEpoch enrollment
      (t.state.applyTransaction cr p.toSemanticParametersV2 contexts blockUndo enrollment.records
        transaction) := by
  have hvalid := (ConsensusCoordinatorV2.valid_iff.mp hp).2
  have hv := BlockTransitionV2.timing_valid hvalid
  have hsemantic : p.toSemanticParametersV2.valid = true := by
    simp only [TransitionParametersV2.valid, Bool.and_eq_true] at hvalid
    exact hvalid.2
  obtain ⟨⟨inclusionEpoch, minimumEffectiveEpoch⟩, hepochs⟩ :=
    SemanticStateV2.inclusionEpochs_ok hv transaction.inclusionHeight
  obtain ⟨cutoff, hcutoff, hle⟩ := ha.in_time
  obtain ⟨hinclusion, hminimum⟩ := SemanticStateV2.minimumEffectiveEpoch_le
    (p := p.toSemanticParametersV2) hv hepochs hcutoff hle
  have hstructure : validateLifecycleRecordStructureV2 cr p.net enrollment.lifecycle =
      .accepted := by
    have hauthorized := h.authorized
    unfold validateLifecycleRecordAuthorizationV2 at hauthorized
    dsimp only at hauthorized
    split at hauthorized
    · assumption
    · exact hauthorized
  have hlifecycle : t.state.lifecycle.Accepts cr p.net enrollment.lifecycle inclusionEpoch
      minimumEffectiveEpoch :=
    ⟨hstructure, by rwa [heffective], by rwa [heffective], hfresh, htransition,
      fun _ => ha.key_free, h.authorized⟩
  obtain ⟨contextHeight, hheight, hhash, hlease⟩ :=
    h.lease.accepts hp ha (not_mem_snapshots hv hinv hnext ⟨cutoff, hcutoff, hle⟩)
  -- the new record is the last one in force in the target epoch
  have hdescriptor : ∀ undo, (t.state.lifecycle.store undo enrollment.lifecycle).1.descriptorForEpoch
      enrollment.lifecycle.nextDescriptor.identityId targetEpoch =
        some enrollment.lifecycle.nextDescriptor := by
    intro undo
    rw [descriptorForEpoch_eq, hlifecycle.recordsOf_store, if_pos rfl]
    exact selectDescriptor_concat hbefore (by rw [heffective]; exact UInt64.le_refl _)
      h.lease.unexpired haction
  have hbound : ∀ undo, SemanticStateV2.leaseBound cr p.toSemanticParametersV2
      { t.state with lifecycle := (t.state.lifecycle.store undo enrollment.lifecycle).1 }
      enrollment.admission = true := by
    intro undo
    simp only [SemanticStateV2.leaseBound, h.lease.member, h.lease.target]
    simp [IdentityDescriptorV2.member, hdescriptor]
  have hactive : p.timing.activationHeight ≤ transaction.inclusionHeight := by
    rw [ConsensusCoordinatorV2.activationHeight_eq_zero hp]
    exact UInt64.zero_le
  obtain ⟨undo, undo', hstatus, hstate⟩ := SemanticStateV2.applyTransaction_of_accepts hsemantic
    hactive hepochs hlifecycle hheight hbound hhash h.lease.context_ne hlease blockUndo
  rw [← h.records] at hstatus hstate
  refine ⟨hstatus, ?_, ?_⟩
  · rw [hstate]
    have hslot : sameSlot enrollment.admission = fun stored =>
        stored.lease.targetEpoch = targetEpoch &&
          stored.lease.member.identityId = enrollment.lifecycle.nextDescriptor.identityId := by
      funext stored
      simp only [sameSlot, h.lease.target, h.lease.member]
      rfl
    rw [← hslot]
    exact hlease.filter_storeLease hinv.leases.distinct undo'
  · rw [hstate]
    exact hdescriptor undo

/-- A first enrollment goes in when the registry does not know the identity. -/
lemma enrolls_initial (hp : p.valid = true)
    (hinv : BlockTransitionV2.EpochInvariant p.toTransitionParametersV2 t)
    (hnext : BlockTransitionV2.nextHeight p.toTransitionParametersV2 t ≤
      transaction.inclusionHeight.toNat)
    (hbuild : buildInitialServiceEnrollmentV2 cr text p config contextHash maxNonceAttempts cancel =
      (.accepted, enrollment))
    (hunknown : t.state.lifecycle.findHistory enrollment.lifecycle.nextDescriptor.identityId = none)
    (ha : Admissible p contexts t.state transaction.inclusionHeight config.targetEpoch contextHash
      enrollment.lifecycle.nextDescriptor) (blockUndo : Option SemanticStateV2.UndoJournal) :
    Enrolls transaction.inclusionHeight config.targetEpoch enrollment
      (t.state.applyTransaction cr p.toSemanticParametersV2 contexts blockUndo enrollment.records
        transaction) := by
  obtain ⟨hbuilt, haction, hprevious, endpoint, hdescriptor⟩ :=
    buildInitialServiceEnrollmentV2_accepted hbuild
  have heffective : enrollment.lifecycle.nextDescriptor.effectiveEpoch = config.targetEpoch := by
    rw [hdescriptor]
    rfl
  have hsequence : enrollment.lifecycle.nextDescriptor.sequence = 0 := by
    rw [hdescriptor]
    rfl
  refine hbuilt.enrolls hp hinv hnext ha heffective (by simp [haction]) ?_ ?_ ?_ blockUndo
  · simp [isDuplicate, hunknown]
  · simp [transitionStatus, haction, hunknown, hprevious, hsequence]
  · simp [recordsOf, hunknown]

/-- A history that a renewal can be appended to: it ends with the descriptor that is renewed, the
identity has not left, and no record of it is mistaken for the new one. -/
structure Renewable (cr : Crypto) (net : Scope) (r : LifecycleRegistryV2)
    (current : IdentityDescriptorV2) (renewal : LifecycleRecordV2) : Prop where
  last : ∃ history last, r.findHistory current.identityId = some history ∧
    history.records.getLast? = some last ∧ last.nextDescriptor = current ∧
      last.action ≠ .deregisterIdentity
  told_apart : ∀ stored ∈ r.recordsOf current.identityId,
    hashLifecycleRecordV2 cr net renewal = hashLifecycleRecordV2 cr net stored →
      stored.nextDescriptor = renewal.nextDescriptor

/-- A renewal goes in when it continues the last descriptor of the identity. -/
lemma enrolls_renewal (hp : p.valid = true)
    (hinv : BlockTransitionV2.EpochInvariant p.toTransitionParametersV2 t)
    (hformed : t.state.lifecycle.WellFormed cr p.net)
    (hnext : BlockTransitionV2.nextHeight p.toTransitionParametersV2 t ≤
      transaction.inclusionHeight.toNat) {current : IdentityDescriptorV2}
    (hbuild : buildServiceRenewalEnrollmentV2 cr text p config contextHash maxNonceAttempts cancel
      current = (.accepted, enrollment))
    (hrenewable : Renewable cr p.net t.state.lifecycle current enrollment.lifecycle)
    (ha : Admissible p contexts t.state transaction.inclusionHeight config.targetEpoch contextHash
      enrollment.lifecycle.nextDescriptor) (blockUndo : Option SemanticStateV2.UndoJournal) :
    Enrolls transaction.inclusionHeight config.targetEpoch enrollment
      (t.state.applyTransaction cr p.toSemanticParametersV2 contexts blockUndo enrollment.records
        transaction) := by
  obtain ⟨hbuilt, hsequence, hlater, -, haction, hprevious, endpointHash, hdescriptor⟩ :=
    buildServiceRenewalEnrollmentV2_accepted hbuild
  obtain ⟨history, last, hfind, hlast, rfl, hactive⟩ := hrenewable.last
  have hidentity : enrollment.lifecycle.nextDescriptor.identityId =
      last.nextDescriptor.identityId := by rw [hdescriptor]
  have heffective : enrollment.lifecycle.nextDescriptor.effectiveEpoch = config.targetEpoch := by
    rw [hdescriptor]
  have hrecords : t.state.lifecycle.recordsOf last.nextDescriptor.identityId = history.records := by
    simp [recordsOf, hfind]
  have hbefore : ∀ earlier ∈ history.records,
      earlier.nextDescriptor.effectiveEpoch < config.targetEpoch := fun earlier hmem =>
    UInt64.lt_of_le_of_lt ((hformed.histories history
      (List.mem_of_find?_eq_some hfind)).effectiveEpoch_le hlast hmem) hlater
  refine hbuilt.enrolls hp hinv hnext ha heffective (by simp [haction]) ?_ ?_ ?_ blockUndo
  · -- a stored record with the same hash would take effect in the target epoch
    simp only [isDuplicate, hidentity, hfind, Option.any_some, List.any_eq_false,
      decide_eq_true_eq]
    intro stored hmem hhash
    have hsame := hrenewable.told_apart stored (by rwa [hrecords]) hhash
    have hlt := hbefore stored hmem
    rw [hsame, heffective] at hlt
    exact UInt64.lt_irrefl _ hlt
  · simp only [hfind, transitionStatus, haction, Option.bind_some, hlast, hprevious,
      hdescriptor, reduceCtorEq, if_false, ne_eq, not_true_eq_false, hsequence, or_self, hactive,
      UInt64.not_le.mpr hlater]
  · rw [hidentity, hrecords]
    exact fun earlier hmem => UInt64.le_of_lt (hbefore earlier hmem)

/-- **Built enrollments are valid.**  In every state that blocks lead to, a first enrollment of an
identity without a history, and a renewal of the last descriptor of an identity that has not left,
is accepted at every height that is still open for the target epoch.  It leaves one lease of the
identity for the epoch and puts the built descriptor in force.  When a builder refuses, it hands
out no records. -/
theorem built_enrollments_apply (hp : p.valid = true)
    {rule : List BlockInputV2 → CanonicalContextSourceV2 → Prop} {chain : List BlockInputV2}
    {t : BlockTransitionV2}
    (hrun : BlockTransitionV2.Runs cr p.toTransitionParametersV2 rule chain t)
    (text : AddressText) (config : ServiceEnrollmentConfigV2) (contextHash : Hash)
    (maxNonceAttempts : UInt64) (cancel : UInt64 → Bool) :
    let initial := buildInitialServiceEnrollmentV2 cr text p config contextHash maxNonceAttempts
      cancel
    let renewal := buildServiceRenewalEnrollmentV2 cr text p config contextHash maxNonceAttempts
      cancel
    let enrolls enrollment := ∀ contexts transaction blockUndo,
      BlockTransitionV2.nextHeight p.toTransitionParametersV2 t.toTransitionCoreV2 ≤
        transaction.inclusionHeight.toNat →
      Admissible p contexts t.state transaction.inclusionHeight config.targetEpoch contextHash
        enrollment.lifecycle.nextDescriptor →
      Enrolls transaction.inclusionHeight config.targetEpoch enrollment
        (t.state.applyTransaction cr p.toSemanticParametersV2 contexts blockUndo
          enrollment.records transaction)
    (∀ enrollment, initial = (.accepted, enrollment) →
      t.state.lifecycle.findHistory enrollment.lifecycle.nextDescriptor.identityId = none →
      enrolls enrollment) ∧
    (∀ current enrollment, renewal current = (.accepted, enrollment) →
      Renewable cr p.net t.state.lifecycle current enrollment.lifecycle → enrolls enrollment) ∧
    (initial.1 ≠ .accepted → initial.2.records = []) ∧
    ∀ current, (renewal current).1 ≠ .accepted → (renewal current).2.records = [] := by
  have hinv := hrun.frozenInvariant (ConsensusCoordinatorV2.valid_iff.mp hp).2
  refine ⟨fun enrollment hbuild hunknown contexts transaction blockUndo hnext ha => ?_,
    fun current enrollment hbuild hrenewable contexts transaction blockUndo hnext ha => ?_,
    fun hstatus => ?_, fun current hstatus => ?_⟩
  · exact enrolls_initial hp hinv.epochs hnext hbuild hunknown ha blockUndo
  · exact enrolls_renewal hp hinv.epochs hinv.backed.registry hnext hbuild hrenewable ha blockUndo
  · exact buildInitialServiceEnrollmentV2_records rfl hstatus
  · exact buildServiceRenewalEnrollmentV2_records rfl hstatus

/-! ## Concrete enrollments -/

/-- The configuration of operator 0. -/
def sampleConfig (targetEpoch : UInt64) : ServiceEnrollmentConfigV2 where
  keystore := ⟨sampleKey 20, sampleKey 20, sampleKey 10, sampleKey 10⟩
  rewardAddress := ⟨sampleKey 5, sampleKey 6⟩
  endpointTransport := .tcpIpv4
  endpointHost := ascii "8.8.8.8"
  endpointPort := 8197
  targetEpoch := targetEpoch
  expiryEpoch := targetEpoch + 2

/-- A transaction that carries records of any kind but payment proofs. -/
def sampleCarrier (height : UInt64) : SemanticTransactionContextV2 := ⟨height, true, none, none⟩

/-- The operator enrolls for the first service epoch with the block at height 1. -/
theorem built_enrollments_apply_sample :
    ∃ enrollment, buildInitialServiceEnrollmentV2 .sample .sample (.sample 3) (sampleConfig 1)
        (Block.ofNat 32 1) 1 (fun _ => false) = (.accepted, enrollment) ∧
      enrollment.records.length = 2 ∧
      Enrolls 1 1 enrollment (SemanticStateV2.applyTransaction .sample
        (ConsensusParametersV2.sample 3).toSemanticParametersV2 .sample {} none enrollment.records
        (sampleCarrier 1)) := by
  have hbuilt : ∃ built, buildInitialServiceEnrollmentV2 .sample .sample (.sample 3)
      (sampleConfig 1) (Block.ofNat 32 1) 1 (fun _ => false) = built ∧ built.1 = .accepted ∧
      built.2.records.length = 2 := ⟨_, rfl, by decide +kernel⟩
  obtain ⟨⟨_, enrollment⟩, hbuild, rfl, hlength⟩ := hbuilt
  have hrun : BlockTransitionV2.Runs .sample (ConsensusParametersV2.sample 3).toTransitionParametersV2
      (fun _ _ => True) [] {} := .fresh
  have hopen : Admissible (.sample 3) .sample {} 1 1 (Block.ofNat 32 1)
      enrollment.lifecycle.nextDescriptor :=
    ⟨⟨1, by decide, by decide⟩, ⟨0, by decide, by decide, by decide +kernel⟩, rfl,
      fun _ hmem => absurd hmem List.not_mem_nil, fun _ hmem => absurd hmem List.not_mem_nil,
      by decide⟩
  exact ⟨enrollment, hbuild, hlength,
    (built_enrollments_apply (by decide +kernel) hrun .sample (sampleConfig 1) (Block.ofNat 32 1) 1
      fun _ => false).1 enrollment hbuild rfl .sample (sampleCarrier 1) none (by decide) hopen⟩

/-- The record with which operator 0, registered for the epochs 1 to 3, leaves from epoch 2 on. -/
def sampleDeregistration : EnvelopeRecordV2 :=
  .ofPayload .descriptorLifecycle (LifecycleRecordV2.sample .deregisterIdentity
    (hashIdentityDescriptorV2 .sample .sample (.sample 0 0 1 4)) (.sample 0 1 2 2)).payload

/-- Operator 0 registers and leaves again; then the blocks up to height 6 are empty. -/
def sampleLeft : Option BlockTransitionV2 :=
  BlockTransitionV2.replay .sample .sample (fun _ => .sample)
    (BlockTransitionV2.sampleInput 0 [] ::
      BlockTransitionV2.sampleInput 1 [.sampleRegistration 0 1 4] ::
      BlockTransitionV2.sampleInput 2 [sampleDeregistration] ::
      [3, 4, 5, 6].map fun height => BlockTransitionV2.sampleInput height [])

/-- An identity that has left is renewed by the producer and refused by the registry: the last
descriptor of a history does not tell that it ended a membership. -/
theorem deregistered_identity_is_renewed :
    ∃ chain t current enrollment,
      BlockTransitionV2.Runs .sample (ConsensusParametersV2.sample 3).toTransitionParametersV2
        (fun _ _ => True) chain t ∧
      BlockTransitionV2.nextHeight (ConsensusParametersV2.sample 3).toTransitionParametersV2
        t.toTransitionCoreV2 = 7 ∧
      t.state.lifecycle.latest current.identityId = some current ∧
      buildServiceRenewalEnrollmentV2 .sample .sample (.sample 3) (sampleConfig 3)
        (Block.ofNat 32 7) 1 (fun _ => false) current = (.accepted, enrollment) ∧
      Admissible (.sample 3) .sample t.state 7 3 (Block.ofNat 32 7)
        enrollment.lifecycle.nextDescriptor ∧
      (t.state.applyTransaction .sample (ConsensusParametersV2.sample 3).toSemanticParametersV2
        .sample none enrollment.records (sampleCarrier 7)).status = .invalidLifecycle := by
  have hbuilt : ∃ built, buildServiceRenewalEnrollmentV2 .sample .sample (.sample 3)
      (sampleConfig 3) (Block.ofNat 32 7) 1 (fun _ => false) (.sample 0 1 2 2) = built ∧
      built.1 = .accepted ∧ sampleLeft.map (fun t =>
        (BlockTransitionV2.nextHeight .sample t.toTransitionCoreV2,
          t.state.lifecycle.latest (IdentityDescriptorV2.sample 0 1 2 2).identityId,
          t.state.lifecycle.serviceKeyInUse built.2.lifecycle.nextDescriptor,
          t.state.membership.leases,
          (t.state.applyTransaction .sample TransitionParametersV2.sample.toSemanticParametersV2
            .sample none built.2.records (sampleCarrier 7)).status)) =
        some (7, some (.sample 0 1 2 2), false, [], .invalidLifecycle) :=
    ⟨_, rfl, by decide +kernel⟩
  obtain ⟨⟨_, enrollment⟩, hbuild, rfl, hfacts⟩ := hbuilt
  obtain ⟨t, ht, hfacts⟩ := Option.map_eq_some_iff.mp hfacts
  simp only [Prod.mk.injEq] at hfacts
  obtain ⟨hnext, hlatest, hkey, hleases, hstatus⟩ := hfacts
  refine ⟨_, t, .sample 0 1 2 2, enrollment,
    BlockTransitionV2.runs_of_replay (fun _ => trivial) ht, hnext, hlatest, hbuild, ?_, hstatus⟩
  refine ⟨⟨7, by decide, by decide⟩, ⟨6, by decide, by decide, by decide +kernel⟩, hkey,
    fun stored hmem => ?_, fun stored hmem => ?_, ?_⟩
  · rw [hleases] at hmem
    cases hmem
  · rw [hleases] at hmem
    cases hmem
  · rw [MembershipPipelineV2.epochPopulation, hleases]
    decide

end ServiceProducerV2

end Qwertycoin
