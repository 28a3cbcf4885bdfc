import Qwertycoin.Producer

/-
# Enrolling again

While a node is synchronized, a timer of the core looks for the next epoch that is still open,
asks the registry for the descriptor that the node has in that epoch, and builds a renewal if there
is one and a registration otherwise.  The registry never forgets an identity and takes no second
registration of it, and a renewal has to start later than the descriptor it continues.  So the
choice is right for a node that has never been registered and for one that renews in the last
epoch of its descriptor, and wrong in every other case.
-/

namespace Qwertycoin

open Bytes

namespace ServiceProducerV2

/-! ## The timer -/

/-- What a node is configured with: the members of `core` that the timer reads. -/
structure ServiceNodeV2 where
  keystore : ServiceKeystoreV2
  rewardAddress : AccountPublicAddress
  endpointTransport : EndpointTransportV2
  endpointHost : List UInt8
  endpointPort : UInt16

def ServiceNodeV2.config (node : ServiceNodeV2) (targetEpoch expiryEpoch : UInt64) :
    ServiceEnrollmentConfigV2 where
  keystore := node.keystore
  rewardAddress := node.rewardAddress
  endpointTransport := node.endpointTransport
  endpointHost := node.endpointHost
  endpointPort := node.endpointPort
  targetEpoch := targetEpoch
  expiryEpoch := expiryEpoch

/-- `EPOSE_V2_LAUNCH_ADMISSION_MAX_NONCE_ATTEMPTS` -/
def launchAdmissionMaxNonceAttempts : UInt64 := 16777216

/-- `get_epose_current_epoch`, for a chain that has grown beyond the activation height. -/
def currentEpoch (timing : EpochTimingV2) (chainHeight : UInt64) : UInt64 :=
  (chainHeight - 1 - timing.activationHeight) / timing.epochLength

/-- The epoch that is enrolled for: the next one, or the one after it once that is closed. -/
def nextOpenEpoch (timing : EpochTimingV2) (chainHeight : UInt64) : Option UInt64 := do
  let targetEpoch := currentEpoch timing chainHeight + 1
  let cutoff ← timing.enrollmentCutoff targetEpoch
  if cutoff < chainHeight then
    if targetEpoch = uint64Max then none else some (targetEpoch + 1)
  else some targetEpoch

section Timer

variable (cr : Crypto) (text : AddressText) (p : ConsensusParametersV2) (node : ServiceNodeV2)
  (s : SemanticStateV2) (contexts : CanonicalContextSourceV2)

/-- `m_epose_v2_identity_id` -/
def ServiceNodeV2.identityId : Hash := deriveIdentityIdV2 cr p.net node.keystore.operatorPublicKey

/-- Whether a descriptor of the registry has the keys, the address and the endpoint of the node. -/
def ServiceNodeV2.owns (existing : IdentityDescriptorV2) : Bool :=
  existing.servicePublicKey = node.keystore.servicePublicKey &&
    existing.rewardAddress.viewPublicKey = node.rewardAddress.viewPublicKey &&
    existing.rewardAddress.spendPublicKey = node.rewardAddress.spendPublicKey &&
    match buildEndpoint cr text p (node.config 0 existing.expiryEpoch) existing.sequence with
    | .error _ => false
    | .ok endpoint => hashEndpointDescriptorV2 cr p.net endpoint = existing.endpointDescriptorHash

/-- The descriptor of the node in an epoch. -/
def ServiceNodeV2.existing (epoch : UInt64) : Option IdentityDescriptorV2 :=
  (s.lifecycle.descriptorsForEpoch epoch).find? fun descriptor =>
    descriptor.identityId = node.identityId cr p

/-- The configuration and the context with which an enrollment is built. -/
def enrollmentContext (targetEpoch chainHeight : UInt64) : Option Hash := do
  let offset := p.admissionPolicy.contextEpochOffset
  if targetEpoch < offset then none
  else
    let contextHeight ← p.timing.epochStart (targetEpoch - offset)
    if chainHeight ≤ contextHeight then none
    else
      let contextHash ← contexts.blockHash contextHeight
      if contextHash = nullHash ∨ uint64Max - 2 < targetEpoch then none else some contextHash

/-- `update_epose_v2_service_producer`, up to the call of a builder; `none` when it returns
without one. -/
def updateServiceProducer (chainHeight : UInt64) (cancel : UInt64 → Bool) :
    Option (ServiceProducerStatusV2 × ServiceEnrollmentV2) := do
  if chainHeight = 0 then none
  -- `restore_epose_v2_current_endpoint`
  else if (node.existing cr p s (currentEpoch p.timing chainHeight)).any
      (fun existing => !node.owns cr text p existing) then none
  else
    let targetEpoch ← nextOpenEpoch p.timing chainHeight
    let existing := node.existing cr p s targetEpoch
    if existing.any (fun existing => !node.owns cr text p existing ||
        s.membership.hasAdmission (node.identityId cr p) targetEpoch) then none
    else
      let contextHash ← enrollmentContext p contexts targetEpoch chainHeight
      let config := node.config targetEpoch (targetEpoch + 2)
      match existing with
      | some current =>
        some (buildServiceRenewalEnrollmentV2 cr text p config contextHash
          launchAdmissionMaxNonceAttempts cancel current)
      | none =>
        some (buildInitialServiceEnrollmentV2 cr text p config contextHash
          launchAdmissionMaxNonceAttempts cancel)

end Timer

/-! ## When a builder accepts -/

/-- Signatures verify, and no text hashes to zero. -/
structure SoundCrypto (cr : Crypto) : Prop where
  signs : ∀ message publicKey secretKey, validKeyPair cr publicKey secretKey = true →
    cr.checkSignature message publicKey (cr.generateSignature message publicKey secretKey) = true
  hashes : ∀ bytes, cr.cnFastHash bytes ≠ nullHash

/-- A node whose keys, address and endpoint pass the checks that do not depend on the chain. -/
structure ServiceNodeV2.Ready (cr : Crypto) (text : AddressText) (p : ConsensusParametersV2)
    (node : ServiceNodeV2) : Prop where
  operator_pair : validKeyPair cr node.keystore.operatorPublicKey node.keystore.operatorSecretKey =
    true
  service_pair : validKeyPair cr node.keystore.servicePublicKey node.keystore.serviceSecretKey =
    true
  operator_key : cr.validKey node.keystore.operatorPublicKey = true
  service_key : cr.validKey node.keystore.servicePublicKey = true
  separate : node.keystore.operatorPublicKey ≠ node.keystore.servicePublicKey
  view_key : cr.validKey node.rewardAddress.viewPublicKey = true
  spend_key : cr.validKey node.rewardAddress.spendPublicKey = true
  endpoint : ∀ targetEpoch expiryEpoch sequence, ∃ endpoint,
    buildEndpoint cr text p (node.config targetEpoch expiryEpoch) sequence = .ok endpoint

section Accepts

variable {cr : Crypto} {text : AddressText} {p : ConsensusParametersV2} {node : ServiceNodeV2}
  {config : ServiceEnrollmentConfigV2} {contextHash : Hash} {maxNonceAttempts : UInt64}
  {cancel : UInt64 → Bool} {targetEpoch contextHeight : UInt64}

/-- The two epochs after one that fits do not wrap around. -/
lemma toNat_add_of_fits (h : targetEpoch ≤ uint64Max - 2) :
    (targetEpoch + 1).toNat = targetEpoch.toNat + 1 ∧
      (targetEpoch + 2).toNat = targetEpoch.toNat + 2 := by
  have htwo : (uint64Max - 2).toNat = 2 ^ 64 - 3 := by decide
  rw [UInt64.le_iff_toNat_le, htwo] at h
  rw [UInt64.toNat_add, UInt64.toNat_add]
  simp only [UInt64.reduceToNat]
  omega

/-- The status says that the search for a nonce ended without one. -/
def Unlucky (status : ServiceProducerStatusV2) : Prop :=
  status = .admissionSearchExhausted ∨ status = .cancelled

lemma parametersValid_net (hp : p.parametersValid = true) : p.net.valid = true := by
  simp only [ConsensusParametersV2.parametersValid, Bool.and_eq_true] at hp
  exact hp.1.1.1.1.1.1.1.1

lemma parametersValid_admission (hp : p.parametersValid = true) :
    p.admissionPolicy.valid = true := by
  simp only [ConsensusParametersV2.parametersValid, Bool.and_eq_true] at hp
  exact hp.1.1.1.1.1.2

lemma structure_fields {net : Scope} {record : LifecycleRecordV2}
    (h : validateLifecycleRecordStructureV2 cr net record = .accepted) :
    descriptorShapeValid cr record.nextDescriptor = true ∧
      record.nextDescriptor.identityId =
        deriveIdentityIdV2 cr net record.nextDescriptor.operatorAuthorizationPublicKey ∧
      record.nextDescriptor.servicePublicKey ≠
        record.nextDescriptor.operatorAuthorizationPublicKey := by
  simp only [validateLifecycleRecordStructureV2] at h
  split_ifs at h with _ _ hshape hseparate
  simp only [Bool.or_eq_true, Bool.not_eq_true', decide_eq_true_eq, not_or, Bool.not_eq_false,
    ne_eq, not_not] at hshape
  exact ⟨hshape.1, hshape.2, hseparate⟩

/-- A lease for a well-formed descriptor whose hashes are filled in is valid. -/
lemma validateAdmissionLeaseV2_of_work (hc : SoundCrypto cr) (hp : p.parametersValid = true)
    {record : LifecycleRecordV2}
    (hrecord : validateLifecycleRecordStructureV2 cr p.net record = .accepted)
    {lease : AdmissionLeaseV2} {context : AdmissionContextV2} (hnet : context.net = p.net)
    (hcontext : context.blockHash ≠ nullHash)
    (hmember : lease.member = record.nextDescriptor.member cr p.net)
    (htarget : lease.targetEpoch ≠ 0)
    (halgorithm : lease.workAlgorithm = p.admissionPolicy.algorithm.code)
    (hbits : lease.leadingZeroBits = p.admissionPolicy.leadingZeroBits)
    (hheight : lease.admissionContextHeight = context.height)
    (hhash : lease.admissionContextHash = context.blockHash)
    (hwork : lease.workHash = calculateAdmissionWorkV2 cr lease context)
    (hmeets : admissionWorkMeetsTargetV2 lease.workHash p.admissionPolicy.leadingZeroBits = true)
    (hlease : lease.leaseHash = calculateAdmissionLeaseHashV2 cr lease context) :
    (validateAdmissionLeaseV2 cr lease context p.admissionPolicy).1 = true := by
  obtain ⟨hshape, hidentity, hseparate⟩ := structure_fields hrecord
  simp only [descriptorShapeValid, Crypto.validKey, Bool.and_eq_true, decide_eq_true_eq, ne_eq]
    at hshape
  obtain ⟨⟨⟨⟨⟨⟨⟨-, hid⟩, hservice⟩, hoperator⟩, hview⟩, hspend⟩, hendpoint⟩, -⟩ := hshape
  have hdescriptor : hashIdentityDescriptorV2 cr p.net record.nextDescriptor ≠ nullHash :=
    hc.hashes _
  have hbinding : hashRewardBindingV2 cr p.net record.nextDescriptor.rewardAddress ≠ nullHash := by
    rw [hashRewardBindingV2, if_neg (by simp [Crypto.validKey, parametersValid_net hp, hview,
      hspend])]
    exact hc.hashes _
  simp [validateAdmissionLeaseV2, parametersValid_admission hp, hnet, parametersValid_net hp,
    hcontext, hmember, IdentityDescriptorV2.member, hservice.2, hoperator.2, hid, hseparate,
    ← hidentity, hdescriptor, hbinding, hendpoint, htarget, halgorithm, hbits, hheight, hhash,
    ← hwork, ← hlease, hmeets]

lemma encodeAdmissionLeaseRecordV2_of_valid {lease : AdmissionLeaseV2}
    {context : AdmissionContextV2} {policy : AdmissionPolicyV2}
    (h : (validateAdmissionLeaseV2 cr lease context policy).1 = true) :
    encodeAdmissionLeaseRecordV2 cr lease context policy =
      .ok ⟨RecordTypeV2.admissionLease.code, eposeRecordVersionV2, lease.payload⟩ :=
  (encoded_eq_ok_iff (layout_admissionLease.length_payload lease)).mpr ⟨h, rfl⟩

lemma exists_sealLease (hc : SoundCrypto cr) (hp : p.parametersValid = true)
    {record : LifecycleRecordV2}
    (hrecord : validateLifecycleRecordStructureV2 cr p.net record = .accepted)
    {lease : AdmissionLeaseV2} {context : AdmissionContextV2} (hnet : context.net = p.net)
    (hcontext : context.blockHash ≠ nullHash)
    (hmember : lease.member = record.nextDescriptor.member cr p.net)
    (htarget : lease.targetEpoch ≠ 0)
    (halgorithm : lease.workAlgorithm = p.admissionPolicy.algorithm.code)
    (hbits : lease.leadingZeroBits = p.admissionPolicy.leadingZeroBits)
    (hheight : lease.admissionContextHeight = context.height)
    (hhash : lease.admissionContextHash = context.blockHash)
    (hwork : lease.workHash = calculateAdmissionWorkV2 cr lease context)
    (hmeets : admissionWorkMeetsTargetV2 lease.workHash p.admissionPolicy.leadingZeroBits = true) :
    ∃ built, sealLease cr p context lease = .ok built := by
  have hvalid : (validateAdmissionLeaseV2 cr
      { lease with leaseHash := calculateAdmissionLeaseHashV2 cr lease context } context
      p.admissionPolicy).1 = true :=
    validateAdmissionLeaseV2_of_work hc hp hrecord hnet hcontext hmember htarget halgorithm hbits
      hheight hhash hwork hmeets rfl
  simp only [sealLease, hvalid, Bool.not_true, Bool.false_eq_true, if_false,
    encodeAdmissionLeaseRecordV2_of_valid hvalid]
  exact ⟨_, rfl⟩

variable (cancel) in
/-- A lease can be built for every well-formed descriptor that is in force. -/
lemma exists_buildAdmission (hc : SoundCrypto cr) (hp : p.parametersValid = true)
    {record : LifecycleRecordV2}
    (hrecord : validateLifecycleRecordStructureV2 cr p.net record = .accepted)
    (hattempts : maxNonceAttempts ≠ 0) (hpositive : targetEpoch ≠ 0)
    (heffective : record.nextDescriptor.effectiveEpoch ≤ targetEpoch)
    (hexpiry : targetEpoch < record.nextDescriptor.expiryEpoch) (hcontext : contextHash ≠ nullHash)
    (hoffset : p.admissionPolicy.contextEpochOffset ≤ targetEpoch)
    (hstart : p.timing.epochStart (targetEpoch - p.admissionPolicy.contextEpochOffset) =
      some contextHeight) :
    (∃ built, buildAdmission cr p contextHash maxNonceAttempts cancel record.nextDescriptor
        targetEpoch = .ok built) ∨
      ∃ status, Unlucky status ∧
        buildAdmission cr p contextHash maxNonceAttempts cancel record.nextDescriptor targetEpoch =
          .error status := by
  obtain ⟨hshape, hidentity, hseparate⟩ := structure_fields hrecord
  simp only [descriptorShapeValid, Crypto.validKey, Bool.and_eq_true, decide_eq_true_eq, ne_eq]
    at hshape
  obtain ⟨⟨⟨⟨⟨⟨⟨-, hid⟩, hservice⟩, hoperator⟩, -⟩, -⟩, hendpoint⟩, -⟩ := hshape
  have hconfig : ¬(!p.parametersValid || maxNonceAttempts = 0 || targetEpoch = 0 ||
      targetEpoch < p.admissionPolicy.contextEpochOffset ||
      targetEpoch < record.nextDescriptor.effectiveEpoch ||
      record.nextDescriptor.expiryEpoch ≤ targetEpoch ||
      record.nextDescriptor.identityId ≠
        deriveIdentityIdV2 cr p.net record.nextDescriptor.operatorAuthorizationPublicKey ||
      record.nextDescriptor.servicePublicKey =
        record.nextDescriptor.operatorAuthorizationPublicKey ||
      !cr.checkKey record.nextDescriptor.servicePublicKey ||
      !cr.checkKey record.nextDescriptor.operatorAuthorizationPublicKey) = true := by
    simp [hp, hattempts, hpositive, UInt64.not_lt.mpr hoffset, UInt64.not_lt.mpr heffective,
      UInt64.not_le.mpr hexpiry, ← hidentity, hseparate, hservice.2, hoperator.2]
  simp only [buildAdmission, if_neg hconfig, if_neg hcontext, hstart]
  cases hsearch : searchNonce cr p cancel ⟨p.net, contextHeight, contextHash⟩
      (draftLease cr p record.nextDescriptor targetEpoch ⟨p.net, contextHeight, contextHash⟩)
      maxNonceAttempts.toNat 0 with
  | error status => exact Or.inr ⟨status, searchNonce_eq_error hsearch, rfl⟩
  | ok lease =>
    left
    obtain ⟨nonce, rfl, hmeets⟩ := searchNonce_eq_ok hsearch
    refine exists_sealLease hc hp hrecord rfl hcontext rfl hpositive rfl rfl rfl rfl rfl hmeets

lemma exists_signLifecycleRecordV2 (hc : SoundCrypto cr) {net : Scope} {draft : LifecycleRecordV2}
    {operatorSecretKey serviceSecretKey : SecretKey}
    (hdraft : validateLifecycleRecordStructureV2 cr net draft = .accepted)
    (hoperator : validKeyPair cr draft.nextDescriptor.operatorAuthorizationPublicKey
      operatorSecretKey = true)
    (hservice : validKeyPair cr draft.nextDescriptor.servicePublicKey serviceSecretKey = true) :
    ∃ record, signLifecycleRecordV2 cr net draft operatorSecretKey serviceSecretKey = some record ∧
      (validateLifecycleRecordAuthorizationV2 cr net record).1 = .accepted ∧
      validateLifecycleRecordStructureV2 cr net record = .accepted ∧
      record.nextDescriptor = draft.nextDescriptor := by
  simp only [signLifecycleRecordV2, hoperator, hservice, Bool.not_true, Bool.or_self,
    Bool.false_eq_true, if_false]
  refine ⟨_, rfl, ?_, hdraft, rfl⟩
  -- the signatures are not part of what is checked and hashed
  set record : LifecycleRecordV2 :=
    { draft with
      operatorSignature := cr.generateSignature (hashLifecycleRecordV2 cr net draft)
        draft.nextDescriptor.operatorAuthorizationPublicKey operatorSecretKey
      serviceSignature := cr.generateSignature (hashLifecycleRecordV2 cr net draft)
        draft.nextDescriptor.servicePublicKey serviceSecretKey }
  have hrecord : validateLifecycleRecordStructureV2 cr net record = .accepted := hdraft
  have hfirst : cr.checkSignature (hashLifecycleRecordV2 cr net record)
      record.nextDescriptor.operatorAuthorizationPublicKey record.operatorSignature = true :=
    hc.signs _ _ _ hoperator
  have hsecond : cr.checkSignature (hashLifecycleRecordV2 cr net record)
      record.nextDescriptor.servicePublicKey record.serviceSignature = true :=
    hc.signs _ _ _ hservice
  simp [validateLifecycleRecordAuthorizationV2, hrecord, hfirst, hsecond]

variable (config cancel) in
/-- The records of a signed change are built unless the search for a nonce fails. -/
lemma encodeEnrollment_status (hc : SoundCrypto cr) (hp : p.parametersValid = true)
    {record : LifecycleRecordV2} (endpoint : EndpointDescriptorV2)
    (hrecord : validateLifecycleRecordStructureV2 cr p.net record = .accepted)
    (hauthorized : (validateLifecycleRecordAuthorizationV2 cr p.net record).1 = .accepted)
    (hattempts : maxNonceAttempts ≠ 0) (hpositive : config.targetEpoch ≠ 0)
    (heffective : record.nextDescriptor.effectiveEpoch ≤ config.targetEpoch)
    (hexpiry : config.targetEpoch < record.nextDescriptor.expiryEpoch)
    (hcontext : contextHash ≠ nullHash)
    (hoffset : p.admissionPolicy.contextEpochOffset ≤ config.targetEpoch)
    (hstart : p.timing.epochStart (config.targetEpoch - p.admissionPolicy.contextEpochOffset) =
      some contextHeight) :
    let built := encodeEnrollment cr p config contextHash maxNonceAttempts cancel endpoint record
    built.1 = .accepted ∨ Unlucky built.1 := by
  have hencode := encodeLifecycleRecordV2_eq_ok_iff.mpr ⟨hauthorized, rfl⟩
  obtain ⟨⟨lease, leaseRecord⟩, hbuilt⟩ | ⟨status, hstatus, hbuilt⟩ :=
    exists_buildAdmission cancel hc hp hrecord hattempts hpositive heffective hexpiry hcontext
      hoffset hstart
  · simp [encodeEnrollment, hencode, hbuilt]
  · simp [encodeEnrollment, hencode, hbuilt, hstatus]

variable {current : IdentityDescriptorV2}

variable (cancel) in
lemma ServiceNodeV2.Ready.initial_status (h : node.Ready cr text p) (hc : SoundCrypto cr)
    (hp : p.parametersValid = true) (hattempts : maxNonceAttempts ≠ 0) (hpositive : targetEpoch ≠ 0)
    (hfits : targetEpoch < targetEpoch + 2) (hcontext : contextHash ≠ nullHash)
    (hoffset : p.admissionPolicy.contextEpochOffset ≤ targetEpoch)
    (hstart : p.timing.epochStart (targetEpoch - p.admissionPolicy.contextEpochOffset) =
      some contextHeight) :
    let built := buildInitialServiceEnrollmentV2 cr text p
      (node.config targetEpoch (targetEpoch + 2)) contextHash maxNonceAttempts cancel
    built.1 = .accepted ∨ Unlucky built.1 := by
  obtain ⟨endpoint, hendpoint⟩ := h.endpoint targetEpoch (targetEpoch + 2) 0
  have hendpointHash : hashEndpointDescriptorV2 cr p.net endpoint ≠ nullHash := hc.hashes _
  have hidentity : deriveIdentityIdV2 cr p.net node.keystore.operatorPublicKey ≠ nullHash :=
    hc.hashes _
  have hdraft : validateLifecycleRecordStructureV2 cr p.net
      (initialRecord cr p (node.config targetEpoch (targetEpoch + 2)) endpoint) = .accepted := by
    simp [validateLifecycleRecordStructureV2, initialRecord, LifecycleRecordV2.blank,
      ServiceNodeV2.config, parametersValid_net hp, LifecycleActionV2.valid, descriptorShapeValid,
      h.service_key, h.operator_key, h.view_key, h.spend_key, hendpointHash, hidentity,
      h.separate.symm, UInt64.le_of_lt hfits]
  obtain ⟨record, hsigned, hauthorized, hrecord, hnext⟩ := exists_signLifecycleRecordV2 hc hdraft
    h.operator_pair h.service_pair
  have hencoded := encodeEnrollment_status (node.config targetEpoch (targetEpoch + 2)) cancel hc hp
    endpoint hrecord hauthorized hattempts hpositive (by rw [hnext]; exact UInt64.le_refl _)
    (by rw [hnext]; exact hfits) hcontext hoffset hstart
  simp only [buildInitialServiceEnrollmentV2]
  rw [if_neg (by simp [ServiceNodeV2.config, hp, hattempts, hpositive, UInt64.not_le.mpr hfits,
      h.separate, h.operator_pair, h.service_pair]),
    if_neg (by simp [ServiceNodeV2.config, hcontext, UInt64.not_lt.mpr hoffset, hstart])]
  simp only [hendpoint]
  rw [show signLifecycleRecordV2 cr p.net _ (node.config targetEpoch _).keystore.operatorSecretKey
    (node.config targetEpoch _).keystore.serviceSecretKey = some record from hsigned]
  simp only [hauthorized, ne_eq, not_true_eq_false, if_false]
  exact hencoded

variable (cancel) in
lemma ServiceNodeV2.Ready.renewal_status (h : node.Ready cr text p) (hc : SoundCrypto cr)
    (hp : p.parametersValid = true) (hattempts : maxNonceAttempts ≠ 0) (hpositive : targetEpoch ≠ 0)
    (hfits : targetEpoch ≤ uint64Max - 2) (hcontext : contextHash ≠ nullHash)
    (hoffset : p.admissionPolicy.contextEpochOffset ≤ targetEpoch)
    (hstart : p.timing.epochStart (targetEpoch - p.admissionPolicy.contextEpochOffset) =
      some contextHeight)
    (hidentity : current.identityId = node.identityId cr p)
    (hoperator : current.operatorAuthorizationPublicKey = node.keystore.operatorPublicKey)
    (howns : node.owns cr text p current = true) (hshape : descriptorShapeValid cr current = true)
    (hsequence : current.sequence ≠ uint64Max) (hlater : current.effectiveEpoch < targetEpoch)
    (hexpiry : current.expiryEpoch < targetEpoch + 2) :
    let built := buildServiceRenewalEnrollmentV2 cr text p
      (node.config targetEpoch (targetEpoch + 2)) contextHash maxNonceAttempts cancel current
    built.1 = .accepted ∨ Unlucky built.1 := by
  simp only [ServiceNodeV2.owns, Bool.and_eq_true, decide_eq_true_eq] at howns
  obtain ⟨⟨⟨hservice, hview⟩, hspend⟩, -⟩ := howns
  simp only [descriptorShapeValid, Bool.and_eq_true, decide_eq_true_eq, ne_eq] at hshape
  obtain ⟨⟨⟨⟨⟨⟨⟨hversion, hid⟩, hkey⟩, hkey'⟩, hviewKey⟩, hspendKey⟩, -⟩, -⟩ := hshape
  have hopen : targetEpoch < targetEpoch + 2 := by
    obtain ⟨-, hsum⟩ := toNat_add_of_fits hfits
    rw [UInt64.lt_iff_toNat_lt, hsum]
    omega
  obtain ⟨endpoint, hendpoint⟩ := h.endpoint targetEpoch (targetEpoch + 2) (current.sequence + 1)
  have hendpointHash : hashEndpointDescriptorV2 cr p.net endpoint ≠ nullHash := hc.hashes _
  have hderived : current.identityId =
      deriveIdentityIdV2 cr p.net node.keystore.operatorPublicKey := hidentity
  have hdraft : validateLifecycleRecordStructureV2 cr p.net
      (renewalRecord cr p (node.config targetEpoch (targetEpoch + 2)) current endpoint) =
        .accepted := by
    rw [hservice] at hkey
    rw [hoperator] at hkey'
    rw [hderived] at hid
    simp [validateLifecycleRecordStructureV2, renewalRecord, ServiceNodeV2.config,
      parametersValid_net hp, LifecycleActionV2.valid, descriptorShapeValid, hversion, hid, hkey,
      hkey', hviewKey, hspendKey, hendpointHash, hderived, hoperator, hservice, h.separate.symm,
      UInt64.le_of_lt hopen]
  obtain ⟨record, hsigned, hauthorized, hrecord, hnext⟩ := exists_signLifecycleRecordV2 hc hdraft
    (by rw [renewalRecord, hoperator]; exact h.operator_pair)
    (by rw [renewalRecord, hservice]; exact h.service_pair)
  have hencoded := encodeEnrollment_status (node.config targetEpoch (targetEpoch + 2)) cancel hc hp
    endpoint hrecord hauthorized hattempts hpositive (by rw [hnext]; exact UInt64.le_refl _)
    (by rw [hnext]; exact hopen) hcontext hoffset hstart
  simp only [buildServiceRenewalEnrollmentV2]
  rw [if_neg (by simp [ServiceNodeV2.config, hp, hpositive, hderived, hoperator, hservice, hview,
    hspend, h.operator_pair, h.service_pair, hsequence, UInt64.not_le.mpr hlater,
    UInt64.not_lt.mpr hfits])]
  have hgrows : ¬(renewalRecord cr p (node.config targetEpoch (targetEpoch + 2)) current
      endpoint).nextDescriptor.expiryEpoch ≤ current.expiryEpoch := UInt64.not_le.mpr hexpiry
  simp only [hendpoint]
  rw [if_neg hgrows,
    show signLifecycleRecordV2 cr p.net _ (node.config targetEpoch _).keystore.operatorSecretKey
      (node.config targetEpoch _).keystore.serviceSecretKey = some record from hsigned]
  simp only [hauthorized, ne_eq, not_true_eq_false, if_false]
  exact hencoded

end Accepts

end ServiceProducerV2

/-! ## What an accepted pair of records shows -/

namespace LifecycleRegistryV2

variable {cr : Crypto} {net : Scope} {r : LifecycleRegistryV2} {record : LifecycleRecordV2}
  {epoch : UInt64}

/-- The list of descriptors of an epoch and the answer for one identity agree. -/
lemma WellFormed.find?_descriptorsForEpoch (hr : WellFormed cr net r) (identityId : Hash)
    (epoch : UInt64) :
    (r.descriptorsForEpoch epoch).find? (fun descriptor => descriptor.identityId = identityId) =
      r.descriptorForEpoch identityId epoch := by
  cases hfind : (r.descriptorsForEpoch epoch).find?
      (fun descriptor => descriptor.identityId = identityId) with
  | some descriptor =>
    have hid := List.find?_some hfind
    obtain rfl : descriptor.identityId = identityId := of_decide_eq_true hid
    exact (hr.mem_descriptorsForEpoch (List.mem_of_find?_eq_some hfind)).symm
  | none =>
    cases hselect : r.descriptorForEpoch identityId epoch with
    | none => rfl
    | some descriptor =>
      obtain ⟨history, hmem, rfl, -⟩ := exists_history_of_descriptorForEpoch hselect
      have hlisted : descriptor ∈ r.descriptorsForEpoch epoch := by
        rw [descriptorsForEpoch, List.mem_insertionSort, List.mem_filterMap]
        exact ⟨history, hmem, hselect⟩
      have hother := List.find?_eq_none.mp hfind descriptor hlisted
      rw [decide_eq_true_eq] at hother
      exact absurd (hr.descriptorForEpoch hselect).1 hother

lemma WellFormed.findHistory_eq_none (hr : WellFormed cr net r) {identityId : Hash}
    (h : r.recordsOf identityId = []) : r.findHistory identityId = none := by
  cases hfind : r.findHistory identityId with
  | none => rfl
  | some history =>
    simp only [recordsOf, hfind, Option.map_some, Option.getD_some] at h
    exact absurd h (hr.histories history (List.mem_of_find?_eq_some hfind)).nonempty

lemma WellFormed.exists_history (hr : WellFormed cr net r) {identityId : Hash}
    (h : r.recordsOf identityId ≠ []) :
    ∃ history, r.findHistory identityId = some history ∧
      r.recordsOf identityId = history.records ∧ history ∈ r.histories ∧
      history.identityId = identityId ∧ HistoryValid cr net history := by
  cases hfind : r.findHistory identityId with
  | none => simp [recordsOf, hfind] at h
  | some history =>
    have hmem := List.mem_of_find?_eq_some hfind
    have hid := List.find?_some hfind
    exact ⟨history, rfl, by simp [recordsOf, hfind], hmem, of_decide_eq_true hid,
      hr.histories history hmem⟩

/-- The last record of an identity that has not left is in force between its two epochs. -/
lemma WellFormed.descriptorForEpoch_of_last (hr : WellFormed cr net r) {identityId : Hash}
    (hlast : (r.recordsOf identityId).getLast? = some record)
    (heffective : record.nextDescriptor.effectiveEpoch ≤ epoch)
    (hexpiry : epoch < record.nextDescriptor.expiryEpoch)
    (haction : record.action ≠ .deregisterIdentity) :
    r.descriptorForEpoch identityId epoch = some record.nextDescriptor := by
  have hne : r.recordsOf identityId ≠ [] := by
    intro hnil
    simp [hnil] at hlast
  obtain ⟨history, -, hrecords, -, -, hvalid⟩ := hr.exists_history hne
  obtain ⟨front, hfront⟩ := List.getLast?_eq_some_iff.mp hlast
  rw [descriptorForEpoch_eq, hfront]
  refine selectDescriptor_concat (fun earlier hmem => ?_) heffective hexpiry haction
  refine UInt64.le_trans (hvalid.effectiveEpoch_le (by rwa [← hrecords]) ?_) heffective
  rw [← hrecords, hfront]
  exact List.mem_append_left _ hmem

lemma selectDescriptor_of_mem {records : List LifecycleRecordV2}
    (hincreasing : records.Pairwise fun earlier later =>
      earlier.nextDescriptor.effectiveEpoch < later.nextDescriptor.effectiveEpoch)
    (hmem : record ∈ records) (hexpiry : record.nextDescriptor.effectiveEpoch <
      record.nextDescriptor.expiryEpoch) (haction : record.action ≠ .deregisterIdentity) :
    selectDescriptor records record.nextDescriptor.effectiveEpoch = some record.nextDescriptor := by
  obtain ⟨front, back, rfl⟩ := List.append_of_mem hmem
  obtain ⟨-, hback, hfront⟩ := List.pairwise_append.mp hincreasing
  rw [List.pairwise_cons] at hback
  have hstop : back.takeWhile (fun later => later.nextDescriptor.effectiveEpoch ≤
      record.nextDescriptor.effectiveEpoch) = [] := by
    cases back with
    | nil => rfl
    | cons following rest =>
      have hlater := UInt64.not_le.mpr (hback.1 following (by simp))
      simp [hlater]
  have hchosen : selectDescriptor (front ++ record :: back) record.nextDescriptor.effectiveEpoch =
      selectDescriptor (front ++ [record]) record.nextDescriptor.effectiveEpoch := by
    have hall : ∀ earlier ∈ front, decide (earlier.nextDescriptor.effectiveEpoch ≤
        record.nextDescriptor.effectiveEpoch) = true := fun earlier hearlier =>
      decide_eq_true (UInt64.le_of_lt (hfront earlier hearlier record (by simp)))
    simp only [selectDescriptor, List.takeWhile_append_of_pos hall]
    simp [hstop]
  rw [hchosen]
  exact selectDescriptor_concat (fun earlier hearlier =>
    UInt64.le_of_lt (hfront earlier hearlier record (by simp))) (UInt64.le_refl _) hexpiry haction

end LifecycleRegistryV2

namespace ServiceProducerV2

open LifecycleRegistryV2 MembershipPipelineV2

variable {cr : Crypto} {text : AddressText} {p : ConsensusParametersV2} {node : ServiceNodeV2}
  {contexts : CanonicalContextSourceV2} {contextHash : Hash} {cancel : UInt64 → Bool}
  {enrollment : ServiceEnrollmentV2} {transaction : SemanticTransactionContextV2}
  {chainHeight targetEpoch : UInt64} {s : SemanticStateV2}

lemma content_lifecycle {net : Scope} {lifecycle : LifecycleRecordV2}
    (h : (validateLifecycleRecordAuthorizationV2 cr net lifecycle).1 = .accepted) :
    (⟨lifecycle.wireType.code, eposeRecordVersionV2, lifecycle.payload⟩ :
      EnvelopeRecordV2).content = some (.lifecycle lifecycle) := by
  have hgood := LifecycleActionV2.ofCode_code (valid_action_of_accepted h)
  have hdecode : ((decodeLifecycleRecordStructureV2
      ⟨lifecycle.wireType.code, eposeRecordVersionV2, lifecycle.payload⟩).toOption.map
        RecordContent.lifecycle) = some (.lifecycle lifecycle) := by
    rw [decodeLifecycleRecordStructureV2_eq_ok_iff.mpr ⟨rfl, hgood⟩]
    rfl
  rw [LifecycleRecordV2.wireType] at hdecode ⊢
  split_ifs at hdecode ⊢ <;> exact hdecode

lemma content_admission {lease : AdmissionLeaseV2} :
    (⟨RecordTypeV2.admissionLease.code, eposeRecordVersionV2, lease.payload⟩ :
      EnvelopeRecordV2).content = some (.admission lease) := by
  have hdecode : ((decodeAdmissionLeaseRecordStructureV2
      ⟨RecordTypeV2.admissionLease.code, eposeRecordVersionV2, lease.payload⟩).toOption.map
        RecordContent.admission) = some (.admission lease) := by
    rw [decodeAdmissionLeaseRecordStructureV2_eq_ok_iff.mpr rfl]
    rfl
  exact hdecode

/-- When the records of an enrollment are accepted, its lifecycle record was accepted or known,
and no other identity has a lease with its key. -/
lemma Built.of_accepted (h : Built cr p targetEpoch contextHash enrollment)
    {blockUndo : Option SemanticStateV2.UndoJournal}
    (haccepted : (s.applyTransaction cr p.toSemanticParametersV2 contexts blockUndo
      enrollment.records transaction).status = .accepted)
    (hnone : s.membership.hasAdmission enrollment.lifecycle.nextDescriptor.identityId targetEpoch =
      false) :
    ((∃ inclusionEpoch minimumEffectiveEpoch, s.lifecycle.Accepts cr p.net enrollment.lifecycle
        inclusionEpoch minimumEffectiveEpoch) ∨
      s.lifecycle.isDuplicate cr p.net enrollment.lifecycle = true) ∧
    ∀ stored ∈ s.membership.leases, stored.lease.targetEpoch = targetEpoch →
      stored.lease.member.identityId ≠ enrollment.lifecycle.nextDescriptor.identityId →
        stored.lease.member.servicePublicKey ≠
          enrollment.lifecycle.nextDescriptor.servicePublicKey := by
  have hcontents := SemanticStateV2.applyTransaction_contents haccepted
  rw [h.records] at hcontents
  cases hcontents with
  | @cons _ _ first _ s₁ _ hfirst hstep hrest =>
  cases hrest with
  | @cons _ _ second _ s₂ _ hsecond hstep' _ =>
  rw [content_lifecycle h.authorized] at hfirst
  rw [content_admission] at hsecond
  obtain rfl := Option.some.inj hfirst
  obtain rfl := Option.some.inj hsecond
  -- the lifecycle record leaves the leases as they are
  have hknown : ((∃ inclusionEpoch minimumEffectiveEpoch, s.lifecycle.Accepts cr p.net
      enrollment.lifecycle inclusionEpoch minimumEffectiveEpoch) ∨
      s.lifecycle.isDuplicate cr p.net enrollment.lifecycle = true) ∧
      s₁.membership = s.membership := by
    cases hstep with
    | lifecycle _ haccepts => exact ⟨Or.inl ⟨_, _, haccepts⟩, rfl⟩
    | knownLifecycle hduplicate => exact ⟨Or.inr hduplicate, rfl⟩
  refine ⟨hknown.1, fun stored hmem htarget hidentity hkey => ?_⟩
  rw [← hknown.2] at hmem hnone
  cases hstep' with
  | admission _ _ haccepts =>
    have hfree := haccepts.key_free stored hmem
    simp [keyConflict, h.lease.target, h.lease.member, IdentityDescriptorV2.member, htarget,
      hidentity, hkey] at hfree
  | knownAdmission _ hfind _ =>
    have hslot := List.find?_some hfind
    rw [hasAdmission, List.any_eq_false] at hnone
    refine hnone _ (List.mem_of_find?_eq_some hfind) ?_
    simpa [sameSlot, h.lease.target, h.lease.member, IdentityDescriptorV2.member] using hslot

/-! ## Heights -/

lemma parametersValid_offset (hp : p.parametersValid = true) :
    p.admissionPolicy.contextEpochOffset = 1 := by
  have hadmission := parametersValid_admission hp
  simp only [AdmissionPolicyV2.valid, Bool.and_eq_true, decide_eq_true_eq] at hadmission
  exact hadmission.2

/-- When the block that seeds the work is there, the epoch the timer looks for is open. -/
lemma nextOpenEpoch_open (hp : p.valid = true) (hpositive : chainHeight ≠ 0)
    (htarget : nextOpenEpoch p.timing chainHeight = some targetEpoch) {contextHeight : UInt64}
    (hstart : p.timing.epochStart (targetEpoch - p.admissionPolicy.contextEpochOffset) =
      some contextHeight) (hbelow : contextHeight < chainHeight) :
    targetEpoch ≠ 0 ∧ p.admissionPolicy.contextEpochOffset ≤ targetEpoch ∧
      targetEpoch ≤ uint64Max - 2 ∧
      ∃ cutoff, p.timing.enrollmentCutoff targetEpoch = some cutoff ∧ chainHeight ≤ cutoff := by
  have hvalid := ConsensusCoordinatorV2.valid_iff.mp hp
  have hv := BlockTransitionV2.timing_valid hvalid.2
  have hlen := EpochTimingV2.len_gt_one hv
  have hone : (1 : UInt64).toNat = 1 := rfl
  have hlt := chainHeight.toNat_lt
  have hpos : 0 < chainHeight.toNat :=
    Nat.pos_of_ne_zero fun hzero => hpositive (UInt64.toNat_inj.mp hzero)
  have hpred : (chainHeight - 1).toNat = chainHeight.toNat - 1 :=
    UInt64.toNat_sub_of_le _ _ (UInt64.le_iff_toNat_le.mpr (by omega))
  have hcurrent : (currentEpoch p.timing chainHeight).toNat =
      (chainHeight.toNat - 1) / p.timing.len := by
    rw [currentEpoch, ConsensusCoordinatorV2.activationHeight_eq_zero hp, UInt64.sub_zero,
      UInt64.toNat_div, hpred]
    rfl
  have hhalf : (chainHeight.toNat - 1) / p.timing.len ≤ (chainHeight.toNat - 1) / 2 :=
    Nat.div_le_div_left hlen (by norm_num)
  have hnext : (currentEpoch p.timing chainHeight + 1).toNat =
      (chainHeight.toNat - 1) / p.timing.len + 1 := by
    rw [UInt64.toNat_add, hcurrent, hone]
    omega
  rw [parametersValid_offset hvalid.1] at hstart ⊢
  simp only [nextOpenEpoch, Option.bind_eq_bind, Option.bind_eq_some_iff] at htarget
  obtain ⟨cutoff, hcutoff, htarget⟩ := htarget
  split_ifs at htarget with hlate hmax
  · -- the next epoch is closed, and the epoch after it is seeded by a block to come
    exfalso
    obtain rfl := Option.some.inj htarget
    rw [show currentEpoch p.timing chainHeight + 1 + 1 - 1 =
      currentEpoch p.timing chainHeight + 1 from UInt64.add_sub_cancel ..,
      EpochTimingV2.epochStart_eq_some_iff hv, hnext] at hstart
    rw [UInt64.lt_iff_toNat_lt] at hbelow
    have hdiv := Nat.lt_mul_div_succ (chainHeight.toNat - 1) (b := p.timing.len) (by omega)
    rw [Nat.mul_comm] at hdiv
    omega
  · obtain rfl := Option.some.inj htarget
    refine ⟨fun hzero => ?_, ?_, ?_, cutoff, hcutoff, UInt64.not_lt.mp hlate⟩
    · rw [hzero] at hnext
      simp at hnext
    · rw [UInt64.le_iff_toNat_le, hnext, hone]
      omega
    · have htwo : (uint64Max - 2).toNat = 2 ^ 64 - 3 := by decide
      rw [UInt64.le_iff_toNat_le, hnext, htwo]
      omega

/-! ## The characterization -/

/-- Whether a key is in use depends on the identity, the key and the interval only. -/
lemma serviceKeyInUse_congr {r : LifecycleRegistryV2} {left right : IdentityDescriptorV2}
    (hidentity : left.identityId = right.identityId)
    (hkey : left.servicePublicKey = right.servicePublicKey)
    (heffective : left.effectiveEpoch = right.effectiveEpoch)
    (hexpiry : left.expiryEpoch = right.expiryEpoch) :
    r.serviceKeyInUse left = r.serviceKeyInUse right := by
  have hholds : ∀ records, recordsHoldKey left records = recordsHoldKey right records := by
    intro records
    induction records with
    | nil => rfl
    | cons record later ih => simp only [recordsHoldKey, ih, hkey, heffective, hexpiry]
  simp only [serviceKeyInUse, hidentity, hholds]

/-- The interval for which the node proposes its service key. -/
def ServiceNodeV2.proposal (cr : Crypto) (p : ConsensusParametersV2) (node : ServiceNodeV2)
    (targetEpoch : UInt64) : IdentityDescriptorV2 where
  version := eposeDescriptorVersionV2
  identityId := node.identityId cr p
  servicePublicKey := node.keystore.servicePublicKey
  operatorAuthorizationPublicKey := node.keystore.operatorPublicKey
  rewardAddress := node.rewardAddress
  endpointDescriptorHash := nullHash
  sequence := 0
  effectiveEpoch := targetEpoch
  expiryEpoch := targetEpoch + 2

/-- Nothing on the chain speaks against an enrollment of the node at this height: it has not left,
nobody else holds its key, it has no lease for the epoch yet, there is room for one, and the block
that seeds the work is there. -/
structure Enrollable (cr : Crypto) (p : ConsensusParametersV2) (node : ServiceNodeV2)
    (s : SemanticStateV2) (contexts : CanonicalContextSourceV2)
    (chainHeight targetEpoch : UInt64) : Prop where
  target : nextOpenEpoch p.timing chainHeight = some targetEpoch
  stayed : ∀ last, (s.lifecycle.recordsOf (node.identityId cr p)).getLast? = some last →
    last.action ≠ .deregisterIdentity
  key_free : s.lifecycle.serviceKeyInUse (node.proposal cr p targetEpoch) = false
  not_admitted : s.membership.hasAdmission (node.identityId cr p) targetEpoch = false
  room : s.membership.epochPopulation targetEpoch < p.committeePolicy.maxActivePopulation
  seeded : ∃ contextHeight contextHash,
    p.timing.epochStart (targetEpoch - p.admissionPolicy.contextEpochOffset) =
      some contextHeight ∧ contextHeight < chainHeight ∧
      contexts.blockHash contextHeight = some contextHash ∧ contextHash ≠ nullHash

/-- The registry knows the identity with the keys, the address and the endpoint of the node. -/
structure ServiceNodeV2.Known (cr : Crypto) (text : AddressText) (p : ConsensusParametersV2)
    (node : ServiceNodeV2) (r : LifecycleRegistryV2) : Prop where
  owns : ∀ epoch descriptor, r.descriptorForEpoch (node.identityId cr p) epoch = some descriptor →
    node.owns cr text p descriptor = true
  operator : ∀ record ∈ r.recordsOf (node.identityId cr p),
    record.nextDescriptor.operatorAuthorizationPublicKey = node.keystore.operatorPublicKey

variable (cancel) in
/-- The call that the timer makes when nothing speaks against an enrollment. -/
lemma Enrollable.updateServiceProducer_eq (h : Enrollable cr p node s contexts chainHeight targetEpoch)
    (hp : p.valid = true) (hpositive : chainHeight ≠ 0)
    (hformed : s.lifecycle.WellFormed cr p.net) (hknown : node.Known cr text p s.lifecycle) :
    ∃ contextHeight contextHash,
      p.timing.epochStart (targetEpoch - p.admissionPolicy.contextEpochOffset) =
        some contextHeight ∧ contextHeight < chainHeight ∧
      contexts.blockHash contextHeight = some contextHash ∧ contextHash ≠ nullHash ∧
      updateServiceProducer cr text p node s contexts chainHeight cancel =
        match s.lifecycle.descriptorForEpoch (node.identityId cr p) targetEpoch with
        | some current => some (buildServiceRenewalEnrollmentV2 cr text p
            (node.config targetEpoch (targetEpoch + 2)) contextHash launchAdmissionMaxNonceAttempts
            cancel current)
        | none => some (buildInitialServiceEnrollmentV2 cr text p
            (node.config targetEpoch (targetEpoch + 2)) contextHash launchAdmissionMaxNonceAttempts
            cancel) := by
  obtain ⟨contextHeight, contextHash, hstart, hbelow, hhash, hne⟩ := h.seeded
  obtain ⟨-, hoffset, hfits, -⟩ := nextOpenEpoch_open hp hpositive h.target hstart hbelow
  have hexisting : ∀ epoch, node.existing cr p s epoch =
      s.lifecycle.descriptorForEpoch (node.identityId cr p) epoch := fun epoch =>
    hformed.find?_descriptorsForEpoch _ epoch
  have hcurrent : ¬(s.lifecycle.descriptorForEpoch (node.identityId cr p)
      (currentEpoch p.timing chainHeight)).any (fun existing => !node.owns cr text p existing) =
        true := by
    simp only [Option.any_eq_true, not_exists, not_and, Bool.not_eq_true, Bool.not_eq_false']
    exact fun descriptor hdescriptor => hknown.owns _ _ hdescriptor
  have htarget : ¬(s.lifecycle.descriptorForEpoch (node.identityId cr p) targetEpoch).any
      (fun existing => !node.owns cr text p existing ||
        s.membership.hasAdmission (node.identityId cr p) targetEpoch) = true := by
    simp only [Option.any_eq_true, not_exists, not_and, Bool.not_eq_true, h.not_admitted,
      Bool.or_false, Bool.not_eq_false']
    exact fun descriptor hdescriptor => hknown.owns _ _ hdescriptor
  have hcontext : enrollmentContext p contexts targetEpoch chainHeight = some contextHash := by
    simp [enrollmentContext, UInt64.not_lt.mpr hoffset, hstart, UInt64.not_le.mpr hbelow, hhash,
      hne, UInt64.not_lt.mpr hfits]
  refine ⟨contextHeight, contextHash, hstart, hbelow, hhash, hne, ?_⟩
  simp only [updateServiceProducer, hexisting, if_neg hpositive, if_neg hcurrent, h.target,
    Option.bind_eq_bind, Option.bind_some, if_neg htarget, hcontext]

/-- Nobody else has a lease with the service key of the node for an epoch. -/
def Unclaimed (cr : Crypto) (p : ConsensusParametersV2) (node : ServiceNodeV2)
    (s : SemanticStateV2) (targetEpoch : UInt64) : Prop :=
  ∀ stored ∈ s.membership.leases, stored.lease.targetEpoch = targetEpoch →
    stored.lease.member.identityId ≠ node.identityId cr p →
      stored.lease.member.servicePublicKey ≠ node.keystore.servicePublicKey

/-- The built descriptor can be admitted when nobody has a lease with its key. -/
lemma Enrollable.admissible (h : Enrollable cr p node s contexts chainHeight targetEpoch)
    (hp : p.valid = true) (hpositive : chainHeight ≠ 0) {contextHeight : UInt64}
    (hstart : p.timing.epochStart (targetEpoch - p.admissionPolicy.contextEpochOffset) =
      some contextHeight) (hbelow : contextHeight < chainHeight)
    (hhash : contexts.blockHash contextHeight = some contextHash)
    (hunclaimed : Unclaimed cr p node s targetEpoch) {descriptor : IdentityDescriptorV2} (hidentity : descriptor.identityId = node.identityId cr p)
    (hkey : descriptor.servicePublicKey = node.keystore.servicePublicKey)
    (heffective : descriptor.effectiveEpoch = targetEpoch)
    (hexpiry : descriptor.expiryEpoch = targetEpoch + 2) :
    Admissible p contexts s chainHeight targetEpoch contextHash descriptor := by
  obtain ⟨-, -, -, hopen⟩ := nextOpenEpoch_open hp hpositive h.target hstart hbelow
  refine ⟨hopen, ⟨contextHeight, hstart, hbelow, hhash⟩, ?_, fun stored hmem htarget hid => ?_, ?_,
    h.room⟩
  · rw [← h.key_free]
    exact serviceKeyInUse_congr hidentity hkey heffective hexpiry
  · have hnone := h.not_admitted
    rw [hasAdmission, List.any_eq_false] at hnone
    exact absurd (by simp [htarget, hid, hidentity]) (hnone stored hmem)
  · rw [hidentity, hkey]
    exact hunclaimed

/-- A registration is taken only of an identity without a history: a repeated one would be in
force in its epoch. -/
lemma recordsOf_of_initial (hformed : s.lifecycle.WellFormed cr p.net)
    {config : ServiceEnrollmentConfigV2} {maxNonceAttempts : UInt64}
    (hbuild : buildInitialServiceEnrollmentV2 cr text p config contextHash maxNonceAttempts cancel =
      (.accepted, enrollment))
    (hselect : s.lifecycle.descriptorForEpoch enrollment.lifecycle.nextDescriptor.identityId
      config.targetEpoch = none)
    (htaken : (∃ inclusionEpoch minimumEffectiveEpoch, s.lifecycle.Accepts cr p.net
        enrollment.lifecycle inclusionEpoch minimumEffectiveEpoch) ∨
      s.lifecycle.isDuplicate cr p.net enrollment.lifecycle = true)
    (hapart : ∀ stored ∈ s.lifecycle.recordsOf enrollment.lifecycle.nextDescriptor.identityId,
      hashLifecycleRecordV2 cr p.net enrollment.lifecycle = hashLifecycleRecordV2 cr p.net stored →
      stored.nextDescriptor = enrollment.lifecycle.nextDescriptor ∧
        stored.action = enrollment.lifecycle.action) :
    s.lifecycle.recordsOf enrollment.lifecycle.nextDescriptor.identityId = [] := by
  obtain ⟨hbuilt, haction, -, endpoint, hdescriptor⟩ :=
    buildInitialServiceEnrollmentV2_accepted hbuild
  obtain ⟨_, _, haccepts⟩ | hduplicate := htaken
  · simp [recordsOf, haccepts.unknown haction]
  · exfalso
    simp only [isDuplicate, Option.any_eq_true, List.any_eq_true, decide_eq_true_eq] at hduplicate
    obtain ⟨history, hfind, stored, hmem, hhash⟩ := hduplicate
    have hrecords : s.lifecycle.recordsOf enrollment.lifecycle.nextDescriptor.identityId =
        history.records := by
      simp [recordsOf, hfind]
    obtain ⟨hnext, hstored⟩ := hapart stored (by rwa [hrecords]) hhash
    have heffective : stored.nextDescriptor.effectiveEpoch = config.targetEpoch := by
      rw [hnext, hdescriptor]
      rfl
    have hchosen := selectDescriptor_of_mem
      (hformed.histories history (List.mem_of_find?_eq_some hfind)).increasing hmem
      (by rw [heffective, hnext]; exact hbuilt.lease.unexpired) (by rw [hstored, haction]; simp)
    rw [descriptorForEpoch_eq, hrecords, ← heffective, hchosen] at hselect
    cases hselect

/-- A renewal is taken only when it continues the last record of the history. -/
lemma last_of_renewal (hformed : s.lifecycle.WellFormed cr p.net)
    (hchains : ∀ history ∈ s.lifecycle.histories, HistoryChain cr p.net history.records)
    {config : ServiceEnrollmentConfigV2} {maxNonceAttempts : UInt64}
    {current : IdentityDescriptorV2}
    (hbuild : buildServiceRenewalEnrollmentV2 cr text p config contextHash maxNonceAttempts cancel
      current = (.accepted, enrollment))
    (hselect : s.lifecycle.descriptorForEpoch current.identityId config.targetEpoch = some current)
    (htaken : (∃ inclusionEpoch minimumEffectiveEpoch, s.lifecycle.Accepts cr p.net
        enrollment.lifecycle inclusionEpoch minimumEffectiveEpoch) ∨
      s.lifecycle.isDuplicate cr p.net enrollment.lifecycle = true)
    (hapart : ∀ stored ∈ s.lifecycle.recordsOf current.identityId,
      hashLifecycleRecordV2 cr p.net enrollment.lifecycle = hashLifecycleRecordV2 cr p.net stored →
      stored.nextDescriptor = enrollment.lifecycle.nextDescriptor) :
    ∃ last, (s.lifecycle.recordsOf current.identityId).getLast? = some last ∧
      last.nextDescriptor = current := by
  obtain ⟨hbuilt, hsequence, hlater, -, haction, -, endpointHash, hdescriptor⟩ :=
    buildServiceRenewalEnrollmentV2_accepted hbuild
  have hidentity : enrollment.lifecycle.nextDescriptor.identityId = current.identityId := by
    rw [hdescriptor]
  have hsucc : enrollment.lifecycle.nextDescriptor.sequence.toNat = current.sequence.toNat + 1 := by
    have hlt := current.sequence.toNat_lt
    have hmax : current.sequence.toNat ≠ 2 ^ 64 - 1 := fun heq =>
      hsequence (UInt64.toNat_inj.mp heq)
    rw [hdescriptor, UInt64.toNat_add, UInt64.toNat_one]
    omega
  obtain ⟨history, hfind, hchosen⟩ := Option.bind_eq_some_iff.mp hselect
  have hmem : history ∈ s.lifecycle.histories := List.mem_of_find?_eq_some hfind
  have hrecords : s.lifecycle.recordsOf current.identityId = history.records := by
    simp [recordsOf, hfind]
  have hpairwise := (hchains history hmem).pairwise
  rw [hrecords] at hapart ⊢
  obtain ⟨_, _, haccepts⟩ | hduplicate := htaken
  · -- the sequence of the renewal follows on that of the last record
    cases hlast : history.records.getLast? with
    | none =>
      exact absurd (List.getLast?_eq_none_iff.mp hlast) (hformed.histories history hmem).nonempty
    | some last =>
      have htransition := haccepts.transition
      simp only [transitionStatus, haction, reduceCtorEq, if_false, hidentity, hfind,
        Option.bind_some, hlast] at htransition
      split_ifs at htransition with _ hfollows
      rw [not_or, not_not] at hfollows
      have hsame : last.nextDescriptor.sequence = current.sequence := by
        have hmax : last.nextDescriptor.sequence.toNat ≠ 2 ^ 64 - 1 := fun heq =>
          hfollows.1 (UInt64.toNat_inj.mp heq)
        have hlt := last.nextDescriptor.sequence.toNat_lt
        rw [hfollows.2, UInt64.toNat_add, UInt64.toNat_one] at hsucc
        exact UInt64.toNat_inj.mp (by omega)
      obtain ⟨selected, hselected, rfl, -⟩ := exists_of_selectDescriptor hchosen
      obtain ⟨front, hfront⟩ := List.getLast?_eq_some_iff.mp hlast
      rw [hfront] at hselected hpairwise
      obtain hselected | hselected := List.mem_append.mp hselected
      · have hlt := ((List.pairwise_append.mp hpairwise).2.2 selected hselected last (by simp)).2
        rw [hsame] at hlt
        exact absurd hlt (UInt64.lt_irrefl _)
      · rw [List.mem_singleton.mp hselected]
        exact ⟨last, rfl, rfl⟩
  · -- a repeated renewal would be the descriptor of the epoch
    exfalso
    simp only [isDuplicate, hidentity, hfind, Option.any_some, List.any_eq_true,
      decide_eq_true_eq] at hduplicate
    obtain ⟨stored, hstored, hhash⟩ := hduplicate
    have hnext := hapart stored hstored hhash
    have hle := sequence_le_of_selectDescriptor hpairwise hchosen hstored
      (by rw [hnext, hdescriptor]; exact UInt64.le_refl _)
    rw [hnext, UInt64.le_iff_toNat_le] at hle
    omega

section Characterization

variable {rule : List BlockInputV2 → CanonicalContextSourceV2 → Prop} {chain : List BlockInputV2}
  {t : BlockTransitionV2} {blockUndo : Option SemanticStateV2.UndoJournal}
  {contextHeight : UInt64}
  (hp : p.valid = true)
  (hrun : BlockTransitionV2.Runs cr p.toTransitionParametersV2 rule chain t)
  (hknown : node.Known cr text p t.state.lifecycle)
  (h : Enrollable cr p node t.state contexts transaction.inclusionHeight targetEpoch)

include hp hrun h in
lemma Enrollable.of_initial
    (hselect : t.state.lifecycle.descriptorForEpoch (node.identityId cr p) targetEpoch = none)
    (hbuild : buildInitialServiceEnrollmentV2 cr text p (node.config targetEpoch (targetEpoch + 2))
      contextHash launchAdmissionMaxNonceAttempts cancel = (.accepted, enrollment))
    (haccepted : (t.state.applyTransaction cr p.toSemanticParametersV2 contexts blockUndo
      enrollment.records transaction).status = .accepted)
    (hapart : ∀ stored ∈ t.state.lifecycle.recordsOf (node.identityId cr p),
      hashLifecycleRecordV2 cr p.net enrollment.lifecycle = hashLifecycleRecordV2 cr p.net stored →
      stored.nextDescriptor = enrollment.lifecycle.nextDescriptor ∧
        stored.action = enrollment.lifecycle.action) :
    Unclaimed cr p node t.state targetEpoch ∧
      t.state.lifecycle.recordsOf (node.identityId cr p) = [] := by
  have hformed :=
    (hrun.frozenInvariant (ConsensusCoordinatorV2.valid_iff.mp hp).2).backed.registry
  obtain ⟨hbuilt, -, -, endpoint, hdescriptor⟩ := buildInitialServiceEnrollmentV2_accepted hbuild
  have hidentity : enrollment.lifecycle.nextDescriptor.identityId = node.identityId cr p := by
    rw [hdescriptor]
    rfl
  have hkey : enrollment.lifecycle.nextDescriptor.servicePublicKey =
      node.keystore.servicePublicKey := by
    rw [hdescriptor]
    rfl
  obtain ⟨htaken, hunclaimed⟩ := hbuilt.of_accepted haccepted
    (by rw [hidentity]; exact h.not_admitted)
  rw [hidentity, hkey] at hunclaimed
  refine ⟨hunclaimed, ?_⟩
  rw [← hidentity] at hselect hapart ⊢
  exact recordsOf_of_initial hformed hbuild hselect htaken hapart

include hp hrun hknown h in
/-- When a renewal is accepted, it continues the last record, which expires with the epoch. -/
lemma Enrollable.of_renewal {current : IdentityDescriptorV2} (hfits : targetEpoch ≤ uint64Max - 2)
    (hselect : t.state.lifecycle.descriptorForEpoch (node.identityId cr p) targetEpoch =
      some current)
    (hbuild : buildServiceRenewalEnrollmentV2 cr text p (node.config targetEpoch (targetEpoch + 2))
      contextHash launchAdmissionMaxNonceAttempts cancel current = (.accepted, enrollment))
    (haccepted : (t.state.applyTransaction cr p.toSemanticParametersV2 contexts blockUndo
      enrollment.records transaction).status = .accepted)
    (hapart : ∀ stored ∈ t.state.lifecycle.recordsOf (node.identityId cr p),
      hashLifecycleRecordV2 cr p.net enrollment.lifecycle = hashLifecycleRecordV2 cr p.net stored →
      stored.nextDescriptor = enrollment.lifecycle.nextDescriptor) :
    Unclaimed cr p node t.state targetEpoch ∧
      ∃ last, (t.state.lifecycle.recordsOf (node.identityId cr p)).getLast? = some last ∧
        last.nextDescriptor.effectiveEpoch < targetEpoch ∧
        last.nextDescriptor.expiryEpoch = targetEpoch + 1 ∧
        last.nextDescriptor.sequence ≠ uint64Max := by
  have hformed :=
    (hrun.frozenInvariant (ConsensusCoordinatorV2.valid_iff.mp hp).2).backed.registry
  obtain ⟨hbuilt, hsequence, hlater, hexpiry, -, -, endpointHash, hdescriptor⟩ :=
    buildServiceRenewalEnrollmentV2_accepted hbuild
  have hcurrent := (hformed.descriptorForEpoch hselect).1
  have howns := hknown.owns _ _ hselect
  simp only [ServiceNodeV2.owns, Bool.and_eq_true, decide_eq_true_eq] at howns
  have hidentity : enrollment.lifecycle.nextDescriptor.identityId = node.identityId cr p := by
    rw [hdescriptor]
    exact hcurrent
  have hkey : enrollment.lifecycle.nextDescriptor.servicePublicKey =
      node.keystore.servicePublicKey := by
    rw [hdescriptor]
    exact howns.1.1.1
  obtain ⟨htaken, hunclaimed⟩ := hbuilt.of_accepted haccepted
    (by rw [hidentity]; exact h.not_admitted)
  rw [hidentity, hkey] at hunclaimed
  obtain ⟨last, hlast, rfl⟩ := last_of_renewal hformed hrun.enrolled.chains hbuild
    (by rw [hcurrent]; exact hselect) htaken (by rwa [hcurrent])
  rw [hcurrent] at hlast
  obtain ⟨_, -, -, -, -, hunexpired⟩ := exists_of_selectDescriptor
    ((descriptorForEpoch_eq ..).symm.trans hselect)
  refine ⟨hunclaimed, last, hlast, hlater, ?_, hsequence⟩
  -- it has not expired, and the renewal lasts longer
  obtain ⟨hone, htwo⟩ := toNat_add_of_fits hfits
  have hlow := UInt64.lt_iff_toNat_lt.mp hunexpired
  have hhigh : last.nextDescriptor.expiryEpoch.toNat < (targetEpoch + 2).toNat :=
    UInt64.lt_iff_toNat_lt.mp hexpiry
  exact UInt64.toNat_inj.mp (by omega)

variable (hc : SoundCrypto cr) (hready : node.Ready cr text p)
  (hnext : BlockTransitionV2.nextHeight p.toTransitionParametersV2 t.toTransitionCoreV2 =
    transaction.inclusionHeight.toNat)
  (hpositive : transaction.inclusionHeight ≠ 0)
  (hstart : p.timing.epochStart (targetEpoch - p.admissionPolicy.contextEpochOffset) =
    some contextHeight)
  (hbelow : contextHeight < transaction.inclusionHeight)
  (hhash : contexts.blockHash contextHeight = some contextHash) (hne : contextHash ≠ nullHash)
  (hunclaimed : Unclaimed cr p node t.state targetEpoch)

include hp hrun h hc hready hnext hpositive hstart hbelow hhash hne hunclaimed

lemma Enrollable.initial (hnil : t.state.lifecycle.recordsOf (node.identityId cr p) = [])
    (hlucky : ¬Unlucky (buildInitialServiceEnrollmentV2 cr text p
      (node.config targetEpoch (targetEpoch + 2)) contextHash launchAdmissionMaxNonceAttempts
      cancel).1) :
    ∃ enrollment, buildInitialServiceEnrollmentV2 cr text p
        (node.config targetEpoch (targetEpoch + 2)) contextHash launchAdmissionMaxNonceAttempts
        cancel = (.accepted, enrollment) ∧
      (t.state.applyTransaction cr p.toSemanticParametersV2 contexts blockUndo
        enrollment.records transaction).status = .accepted := by
  have hvalid := ConsensusCoordinatorV2.valid_iff.mp hp
  have hinv := hrun.frozenInvariant hvalid.2
  obtain ⟨htarget, hoffset, hfits, -⟩ := nextOpenEpoch_open hp hpositive h.target hstart hbelow
  obtain ⟨-, htwo⟩ := toNat_add_of_fits hfits
  have hstatus := (hready.initial_status cancel hc hvalid.1 (by decide) htarget
    (UInt64.lt_iff_toNat_lt.mpr (by omega)) hne hoffset hstart).resolve_right hlucky
  generalize hbuild : buildInitialServiceEnrollmentV2 cr text p
    (node.config targetEpoch (targetEpoch + 2)) contextHash launchAdmissionMaxNonceAttempts
    cancel = built at hstatus
  obtain ⟨status, enrollment⟩ := built
  obtain rfl : status = .accepted := hstatus
  obtain ⟨-, -, -, endpoint, hdescriptor⟩ := buildInitialServiceEnrollmentV2_accepted hbuild
  have hidentity : enrollment.lifecycle.nextDescriptor.identityId = node.identityId cr p := by
    rw [hdescriptor]
    rfl
  refine ⟨enrollment, rfl, (enrolls_initial hp hinv.epochs hnext.le hbuild ?_ ?_
    blockUndo).accepted⟩
  · rw [hidentity]
    exact hinv.backed.registry.findHistory_eq_none hnil
  · exact h.admissible hp hpositive hstart hbelow hhash hunclaimed hidentity
      (by rw [hdescriptor]; rfl) (by rw [hdescriptor]; rfl) (by rw [hdescriptor]; rfl)

include hknown in
/-- A renewal in the last epoch of the newest record is accepted. -/
lemma Enrollable.renewal {last : LifecycleRecordV2}
    (hlast : (t.state.lifecycle.recordsOf (node.identityId cr p)).getLast? = some last)
    (hselect : t.state.lifecycle.descriptorForEpoch (node.identityId cr p) targetEpoch =
      some last.nextDescriptor)
    (hlater : last.nextDescriptor.effectiveEpoch < targetEpoch)
    (hexpiry : last.nextDescriptor.expiryEpoch = targetEpoch + 1)
    (hsequence : last.nextDescriptor.sequence ≠ uint64Max)
    (hlucky : ¬Unlucky (buildServiceRenewalEnrollmentV2 cr text p
      (node.config targetEpoch (targetEpoch + 2)) contextHash launchAdmissionMaxNonceAttempts
      cancel last.nextDescriptor).1)
    (hapart : ∀ stored ∈ t.state.lifecycle.recordsOf (node.identityId cr p),
      hashLifecycleRecordV2 cr p.net (buildServiceRenewalEnrollmentV2 cr text p
        (node.config targetEpoch (targetEpoch + 2)) contextHash launchAdmissionMaxNonceAttempts
        cancel last.nextDescriptor).2.lifecycle = hashLifecycleRecordV2 cr p.net stored →
      stored.nextDescriptor = (buildServiceRenewalEnrollmentV2 cr text p
        (node.config targetEpoch (targetEpoch + 2)) contextHash launchAdmissionMaxNonceAttempts
        cancel last.nextDescriptor).2.lifecycle.nextDescriptor) :
    ∃ enrollment, buildServiceRenewalEnrollmentV2 cr text p
        (node.config targetEpoch (targetEpoch + 2)) contextHash launchAdmissionMaxNonceAttempts
        cancel last.nextDescriptor = (.accepted, enrollment) ∧
      (t.state.applyTransaction cr p.toSemanticParametersV2 contexts blockUndo
        enrollment.records transaction).status = .accepted := by
  have hvalid := ConsensusCoordinatorV2.valid_iff.mp hp
  have hinv := hrun.frozenInvariant hvalid.2
  have hformed := hinv.backed.registry
  obtain ⟨htarget, hoffset, hfits, -⟩ := nextOpenEpoch_open hp hpositive h.target hstart hbelow
  obtain ⟨hone, htwo⟩ := toNat_add_of_fits hfits
  obtain ⟨hcurrent, hshape⟩ := hformed.descriptorForEpoch hselect
  have howns := hknown.owns _ _ hselect
  have hstatus := (hready.renewal_status cancel hc hvalid.1 (by decide) htarget hfits hne hoffset
    hstart hcurrent (hknown.operator last (List.mem_of_getLast? hlast)) howns hshape hsequence
    hlater (by rw [hexpiry, UInt64.lt_iff_toNat_lt]; omega)).resolve_right hlucky
  generalize hbuild : buildServiceRenewalEnrollmentV2 cr text p
    (node.config targetEpoch (targetEpoch + 2)) contextHash launchAdmissionMaxNonceAttempts
    cancel last.nextDescriptor = built at hstatus hapart
  obtain ⟨status, enrollment⟩ := built
  obtain rfl : status = .accepted := hstatus
  obtain ⟨-, -, -, -, -, -, endpointHash, hdescriptor⟩ :=
    buildServiceRenewalEnrollmentV2_accepted hbuild
  simp only [ServiceNodeV2.owns, Bool.and_eq_true, decide_eq_true_eq] at howns
  have hsome : t.state.lifecycle.recordsOf (node.identityId cr p) ≠ [] := by
    intro hnil
    simp [hnil] at hlast
  obtain ⟨history, hfind, hrecords, -⟩ := hformed.exists_history hsome
  refine ⟨enrollment, rfl, (enrolls_renewal hp hinv.epochs hformed hnext.le hbuild ?_ ?_
    blockUndo).accepted⟩
  · refine ⟨⟨history, last, by rwa [hcurrent], by rwa [← hrecords], rfl, h.stayed last hlast⟩, ?_⟩
    rw [hcurrent]
    exact hapart
  · exact h.admissible hp hpositive hstart hbelow hhash hunclaimed
      (by rw [hdescriptor]; exact hcurrent) (by rw [hdescriptor]; exact howns.1.1.1)
      (by rw [hdescriptor]; rfl) (by rw [hdescriptor]; rfl)

end Characterization

/-- The node of operator 0. -/
def sampleNode : ServiceNodeV2 where
  keystore := ⟨sampleKey 20, sampleKey 20, sampleKey 10, sampleKey 10⟩
  rewardAddress := ⟨sampleKey 5, sampleKey 6⟩
  endpointTransport := .tcpIpv4
  endpointHost := ascii "8.8.8.8"
  endpointPort := 8197

lemma soundCrypto_sample : SoundCrypto .sample :=
  ⟨fun _ _ _ _ => decide_eq_true rfl, Crypto.sample_cnFastHash_ne_nullHash⟩

lemma sampleNode_ready : sampleNode.Ready .sample .sample (.sample 3) := by
  refine ⟨by decide, by decide, by decide +kernel, by decide +kernel, by decide, by decide +kernel,
    by decide +kernel, fun targetEpoch expiryEpoch sequence => ?_⟩
  have haddress : AddressText.sample.makeAddress (ascii "8.8.8.8") = some (.v4 ⟨8, 8, 8, 8⟩) := by
    decide +kernel
  have htext : AddressText.sample.toText (.v4 ⟨8, 8, 8, 8⟩) = ascii "8.8.8.8" := by
    decide +kernel
  have hkey : Crypto.sample.validKey (sampleKey 10) = true := by decide +kernel
  have hnet : (ConsensusParametersV2.sample 3).net.valid = true := by decide +kernel
  have hpair : validKeyPair .sample (sampleKey 10) (sampleKey 10) = true := by decide
  have hkind : (ConsensusParametersV2.sample 3).committeePolicy.serviceKind ≠ 0 := by decide
  have hpublic : publicProbeAddressV2 .sample (ascii "8.8.8.8") = true := by decide +kernel
  have hversion : eposeProtocolVersionV2 ≠ 0 := by decide
  simp only [buildEndpoint, ServiceNodeV2.config, sampleNode, signEndpointDescriptorV2, hpair,
    Bool.not_true, Bool.false_eq_true, if_false]
  rw [if_neg]
  · exact ⟨_, rfl⟩
  · rw [not_not]
    have hsigned : ∀ message, Crypto.sample.checkSignature message (sampleKey 10)
        (Crypto.sample.generateSignature message (sampleKey 10) (sampleKey 10)) = true := fun _ =>
      decide_eq_true rfl
    simp only [validateEndpointDescriptorV2, hnet, hkey, hkind, hversion, literalStatus, haddress,
      htext, hpublic, signatureStatus, transportMatches, hashEndpointDescriptorV2, hsigned]
    simp

/-- The state after the first block. -/
def sampleStart : Option BlockTransitionV2 :=
  BlockTransitionV2.replay .sample .sample (fun _ => .sample) [BlockTransitionV2.sampleInput 0 []]

/-- The node enrolls for epoch 1 at height 1 and is not heard of for the epochs 1 and 2. -/
def sampleMissed : Option BlockTransitionV2 :=
  let enrollment := (buildInitialServiceEnrollmentV2 .sample .sample (.sample 3)
    (sampleNode.config 1 3) (Block.ofNat 32 1) 1 fun _ => false).2
  BlockTransitionV2.replay .sample .sample (fun _ => .sample)
    (BlockTransitionV2.sampleInput 0 [] :: BlockTransitionV2.sampleInput 1 enrollment.records ::
      [2, 3, 4, 5, 6].map fun height => BlockTransitionV2.sampleInput height [])

end ServiceProducerV2

end Qwertycoin
