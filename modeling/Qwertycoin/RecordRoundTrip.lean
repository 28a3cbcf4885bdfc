import Qwertycoin.Reward

/-
# Record codecs are exact

A layout is a payload and a reader that undo each other.  Each of the four record kinds has one, so
its decoders give back what its encoder was given, and its encoder gives back the record that its
decoder was given.  The wire type of a record is a function of its payload.
-/

namespace Qwertycoin

open Bytes

/-! ## Full decoders -/

/-- A full decoder: the structure first, then the content. -/
def decodeRecord {α : Type} (decoded : Except RecordCodecStatusV2 α) (valid : α → Bool) :
    Except RecordCodecStatusV2 α := do
  let next ← decoded
  if !valid next then .error .invalidRecord else .ok next

def decodeAdmissionLeaseRecordV2 (cr : Crypto) (record : EnvelopeRecordV2)
    (context : AdmissionContextV2) (policy : AdmissionPolicyV2) :
    Except RecordCodecStatusV2 AdmissionLeaseV2 :=
  decodeRecord (decodeAdmissionLeaseRecordStructureV2 record)
    fun lease => (validateAdmissionLeaseV2 cr lease context policy).1

def decodeLifecycleRecordV2 (cr : Crypto) (record : EnvelopeRecordV2) (net : Scope) :
    Except RecordCodecStatusV2 LifecycleRecordV2 :=
  decodeRecord (decodeLifecycleRecordStructureV2 record)
    fun lifecycle => (validateLifecycleRecordAuthorizationV2 cr net lifecycle).1 = .accepted

def encodeServiceReceiptRecordV2 (cr : Crypto) (receipt : AuthenticatedServiceReceiptV2)
    (net : Scope) : Except RecordCodecStatusV2 EnvelopeRecordV2 :=
  if !(validateAuthenticatedServiceReceiptV2 cr net receipt).1 then .error .invalidRecord
  else if receipt.payload.length ≠ serviceReceiptPayloadBytesV2 then .error .wrongSize
  else .ok ⟨RecordTypeV2.serviceReceipt.code, eposeRecordVersionV2, receipt.payload⟩

def decodeServiceReceiptRecordV2 (cr : Crypto) (record : EnvelopeRecordV2) (net : Scope) :
    Except RecordCodecStatusV2 AuthenticatedServiceReceiptV2 :=
  decodeRecord (decodeServiceReceiptRecordStructureV2 record)
    fun receipt => (validateAuthenticatedServiceReceiptV2 cr net receipt).1

lemma decodeRecord_eq_ok_iff {α : Type} {decoded : Except RecordCodecStatusV2 α}
    {valid : α → Bool} {value : α} :
    decodeRecord decoded valid = .ok value ↔ decoded = .ok value ∧ valid value = true := by
  unfold decodeRecord
  rw [except_bind_eq_ok_iff]
  constructor
  · rintro ⟨next, hnext, hvalid⟩
    split_ifs at hvalid with hrefused
    obtain rfl := Except.ok.inj hvalid
    exact ⟨hnext, by simpa using hrefused⟩
  · rintro ⟨hdecoded, hvalid⟩
    exact ⟨value, hdecoded, by simp [hvalid]⟩

lemma decodePaymentProofRecordV2_eq (cr : Crypto) (record : EnvelopeRecordV2)
    (context : ServicePaymentContextV2) :
    (decodePaymentProofRecordV2 cr record context).1 =
      decodeRecord (decodePaymentProofRecordStructureV2 record)
        fun proof => (verifyScopedPaymentProofV2 cr context proof).1.toBool := by
  unfold decodePaymentProofRecordV2 decodeRecord
  cases decodePaymentProofRecordStructureV2 record with
  | error status => rfl
  | ok proof =>
    rcases hverify : verifyScopedPaymentProofV2 cr context proof with ⟨verdict, signatures⟩
    cases verdict with
    | error status => simp [hverify, bind, Except.bind, Except.toBool]
    | ok _ => simp [hverify, bind, Except.bind, Except.toBool]

/-! ## Layouts -/

/-- A payload of a fixed size and a reader that undo each other on the values that can be read. -/
structure Layout {α : Type} (Good : α → Prop) (payload : α → List UInt8) (read : Reader α)
    (size : ℕ) : Prop where
  length_payload : ∀ value, (payload value).length = size
  run_payload : ∀ value, Good value → ∀ rest, read.run (payload value ++ rest) = some (value, rest)
  eq_of_run : ∀ input value rest, read.run input = some (value, rest) →
    input = payload value ++ rest ∧ Good value

lemma Layout.decodePayload_eq_ok_iff {α : Type} {Good : α → Prop} {payload : α → List UInt8}
    {read : Reader α} {size : ℕ} (h : Layout Good payload read size) {record : EnvelopeRecordV2}
    {rightType : Bool} {value : α} :
    decodePayload record rightType size read = .ok value ↔
      rightType = true ∧ record.version = eposeRecordVersionV2 ∧
        record.payload = payload value ∧ Good value := by
  unfold decodePayload
  constructor
  · intro hdecode
    split_ifs at hdecode with htype hversion hsize
    split at hdecode
    case h_2 => cases hdecode
    rename_i next hread
    obtain rfl := Except.ok.inj hdecode
    obtain ⟨hpayload, hgood⟩ := h.eq_of_run _ _ _ hread
    rw [List.append_nil] at hpayload
    exact ⟨by simpa using htype, not_not.mp hversion, hpayload, hgood⟩
  · rintro ⟨rfl, hversion, hpayload, hgood⟩
    have hread := h.run_payload value hgood []
    rw [List.append_nil, ← hpayload, StateT.run] at hread
    rw [if_neg (by simp), if_neg (not_not.mpr hversion),
      if_neg (by rw [hpayload, h.length_payload]; simp), hread]

lemma Layout.run_bind {α β : Type} {payload : α → List UInt8} {read : Reader α} {size : ℕ}
    (h : Layout (fun _ => True) payload read size) (value : α) (next : α → Reader β)
    (rest : List UInt8) : (read >>= next).run (payload value ++ rest) = (next value).run rest := by
  rw [StateT.run_bind, h.run_payload value trivial]
  rfl

lemma layout_paymentProof : Layout (fun _ => True) ScopedPaymentProofV2.payload
    ScopedPaymentProofV2.read paymentProofPayloadBytesV2 where
  length_payload := by
    intro value
    simp [ScopedPaymentProofV2.payload, paymentProofPayloadBytesV2]
  run_payload := by
    intro value _ rest
    simp only [ScopedPaymentProofV2.payload, ScopedPaymentProofV2.read, List.append_assoc,
      Reader.run_bind_block]
    rfl
  eq_of_run := by
    intro input value rest h
    obtain ⟨derivation, _, hderivation, h⟩ := Reader.of_run_bind_block h
    obtain ⟨proof, _, hproof, h⟩ := Reader.of_run_bind_block h
    obtain ⟨rfl, rfl⟩ := Prod.mk.inj (Option.some.inj h)
    rw [hderivation, hproof]
    exact ⟨by simp [ScopedPaymentProofV2.payload], trivial⟩

lemma layout_frozenMember : Layout (fun _ => True) FrozenMemberV2.bytes
    FrozenMemberV2.read 200 where
  length_payload := by
    intro value
    simp [FrozenMemberV2.bytes]
  run_payload := by
    intro value _ rest
    simp only [FrozenMemberV2.bytes, FrozenMemberV2.read, List.append_assoc,
      Reader.run_bind_block, Reader.run_bind_u64]
    rfl
  eq_of_run := by
    intro input value rest h
    obtain ⟨service, _, hservice, h⟩ := Reader.of_run_bind_block h
    obtain ⟨identity, _, hidentity, h⟩ := Reader.of_run_bind_block h
    obtain ⟨operator, _, hoperator, h⟩ := Reader.of_run_bind_block h
    obtain ⟨descriptor, _, hdescriptor, h⟩ := Reader.of_run_bind_block h
    obtain ⟨reward, _, hreward, h⟩ := Reader.of_run_bind_block h
    obtain ⟨endpoint, _, hendpoint, h⟩ := Reader.of_run_bind_block h
    obtain ⟨sequence, _, hsequence, h⟩ := Reader.of_run_bind_u64 h
    obtain ⟨rfl, rfl⟩ := Prod.mk.inj (Option.some.inj h)
    rw [hservice, hidentity, hoperator, hdescriptor, hreward, hendpoint, hsequence]
    exact ⟨by simp [FrozenMemberV2.bytes], trivial⟩

lemma layout_admissionLease : Layout (fun _ => True) AdmissionLeaseV2.payload
    AdmissionLeaseV2.read admissionLeasePayloadBytesV2 where
  length_payload := by
    intro value
    simp [AdmissionLeaseV2.payload, AdmissionLeaseV2.workBytes,
      layout_frozenMember.length_payload, admissionLeasePayloadBytesV2]
  run_payload := by
    intro value _ rest
    simp only [AdmissionLeaseV2.payload, AdmissionLeaseV2.workBytes, AdmissionLeaseV2.read,
      List.append_assoc, List.cons_append, List.nil_append, Reader.run_bind_byte,
      Reader.run_bind_block, Reader.run_bind_u64, layout_frozenMember.run_bind]
    rfl
  eq_of_run := by
    intro input value rest h
    obtain ⟨member, _, hmember, h⟩ := Reader.of_run_bind h
    obtain ⟨epoch, _, hepoch, h⟩ := Reader.of_run_bind_u64 h
    obtain ⟨algorithm, _, halgorithm, h⟩ := Reader.of_run_bind_byte h
    obtain ⟨bits, _, hbits, h⟩ := Reader.of_run_bind_byte h
    obtain ⟨height, _, hheight, h⟩ := Reader.of_run_bind_u64 h
    obtain ⟨context, _, hcontext, h⟩ := Reader.of_run_bind_block h
    obtain ⟨nonce, _, hnonce, h⟩ := Reader.of_run_bind_u64 h
    obtain ⟨work, _, hwork, h⟩ := Reader.of_run_bind_block h
    obtain ⟨lease, _, hlease, h⟩ := Reader.of_run_bind_block h
    obtain ⟨rfl, rfl⟩ := Prod.mk.inj (Option.some.inj h)
    rw [(layout_frozenMember.eq_of_run _ _ _ hmember).1, hepoch, halgorithm, hbits, hheight,
      hcontext, hnonce, hwork, hlease]
    exact ⟨by simp [AdmissionLeaseV2.payload, AdmissionLeaseV2.workBytes], trivial⟩

lemma LifecycleActionV2.ofCode_code {action : LifecycleActionV2} (h : action.valid = true) :
    ofCode action.code = action := by
  cases action with
  | unknown code => cases h
  | _ => rfl

lemma LifecycleActionV2.code_ofCode (code : UInt8) : (ofCode code).code = code := by
  unfold ofCode
  split_ifs with h₁ h₂ h₃ h₄ h₅ <;> simp [LifecycleActionV2.code, *]

lemma layout_lifecycle : Layout (fun record => .ofCode record.action.code = record.action) LifecycleRecordV2.payload
    LifecycleRecordV2.read lifecyclePayloadBytesV2 where
  length_payload := by
    intro value
    simp [LifecycleRecordV2.payload, lifecyclePayloadBytesV2]
  run_payload := by
    intro value haction rest
    simp only [LifecycleRecordV2.payload, LifecycleRecordV2.read, List.append_assoc,
      List.cons_append, List.nil_append, Reader.run_bind_byte, Reader.run_bind_block,
      Reader.run_bind_u64, haction]
    rfl
  eq_of_run := by
    intro input value rest h
    obtain ⟨action, _, haction, h⟩ := Reader.of_run_bind_byte h
    obtain ⟨previous, _, hprevious, h⟩ := Reader.of_run_bind_block h
    obtain ⟨version, _, hversion, h⟩ := Reader.of_run_bind_byte h
    obtain ⟨identity, _, hidentity, h⟩ := Reader.of_run_bind_block h
    obtain ⟨service, _, hservice, h⟩ := Reader.of_run_bind_block h
    obtain ⟨operator, _, hoperator, h⟩ := Reader.of_run_bind_block h
    obtain ⟨view, _, hview, h⟩ := Reader.of_run_bind_block h
    obtain ⟨spend, _, hspend, h⟩ := Reader.of_run_bind_block h
    obtain ⟨endpoint, _, hendpoint, h⟩ := Reader.of_run_bind_block h
    obtain ⟨sequence, _, hsequence, h⟩ := Reader.of_run_bind_u64 h
    obtain ⟨effective, _, heffective, h⟩ := Reader.of_run_bind_u64 h
    obtain ⟨expiry, _, hexpiry, h⟩ := Reader.of_run_bind_u64 h
    obtain ⟨signature, _, hsignature, h⟩ := Reader.of_run_bind_block h
    obtain ⟨signature', _, hsignature', h⟩ := Reader.of_run_bind_block h
    obtain ⟨rfl, rfl⟩ := Prod.mk.inj (Option.some.inj h)
    rw [haction, hprevious, hversion, hidentity, hservice, hoperator, hview, hspend, hendpoint,
      hsequence, heffective, hexpiry, hsignature, hsignature']
    exact ⟨by simp [LifecycleRecordV2.payload, LifecycleActionV2.code_ofCode], by simp [LifecycleActionV2.code_ofCode]⟩

lemma layout_serviceReceipt : Layout (fun _ => True) AuthenticatedServiceReceiptV2.payload
    AuthenticatedServiceReceiptV2.read serviceReceiptPayloadBytesV2 where
  length_payload := by
    intro value
    simp [AuthenticatedServiceReceiptV2.payload, serviceReceiptPayloadBytesV2]
  run_payload := by
    intro value _ rest
    simp only [AuthenticatedServiceReceiptV2.payload, AuthenticatedServiceReceiptV2.read,
      List.append_assoc, List.cons_append, List.nil_append, Reader.run_bind_byte,
      Reader.run_bind_block, Reader.run_bind_u64]
    rfl
  eq_of_run := by
    intro input value rest h
    obtain ⟨version, _, hversion, h⟩ := Reader.of_run_bind_byte h
    obtain ⟨kind, _, hkind, h⟩ := Reader.of_run_bind_byte h
    obtain ⟨epoch, _, hepoch, h⟩ := Reader.of_run_bind_u64 h
    obtain ⟨round, _, hround, h⟩ := Reader.of_run_bind_u64 h
    obtain ⟨snapshot, _, hsnapshot, h⟩ := Reader.of_run_bind_block h
    obtain ⟨anchor, _, hanchor, h⟩ := Reader.of_run_bind_block h
    obtain ⟨subject, _, hsubject, h⟩ := Reader.of_run_bind_block h
    obtain ⟨verifier, _, hverifier, h⟩ := Reader.of_run_bind_block h
    obtain ⟨endpoint, _, hendpoint, h⟩ := Reader.of_run_bind_block h
    obtain ⟨nonce, _, hnonce, h⟩ := Reader.of_run_bind_block h
    obtain ⟨requested, _, hrequested, h⟩ := Reader.of_run_bind_block h
    obtain ⟨response, _, hresponse, h⟩ := Reader.of_run_bind_block h
    obtain ⟨signature, _, hsignature, h⟩ := Reader.of_run_bind_block h
    obtain ⟨signature', _, hsignature', h⟩ := Reader.of_run_bind_block h
    obtain ⟨rfl, rfl⟩ := Prod.mk.inj (Option.some.inj h)
    rw [hversion, hkind, hepoch, hround, hsnapshot, hanchor, hsubject, hverifier, hendpoint,
      hnonce, hrequested, hresponse, hsignature, hsignature']
    exact ⟨by simp [AuthenticatedServiceReceiptV2.payload], trivial⟩

/-! ## What the decoders accept -/

section Accepted

variable {cr : Crypto} {record : EnvelopeRecordV2}

lemma record_eq {type version : UInt8} {payload : List UInt8} :
    record = ⟨type, version, payload⟩ ↔
      record.type = type ∧ record.version = version ∧ record.payload = payload := by
  cases record
  simp

lemma decodeAdmissionLeaseRecordStructureV2_eq_ok_iff {lease : AdmissionLeaseV2} :
    decodeAdmissionLeaseRecordStructureV2 record = .ok lease ↔
      record = ⟨RecordTypeV2.admissionLease.code, eposeRecordVersionV2, lease.payload⟩ := by
  rw [decodeAdmissionLeaseRecordStructureV2, layout_admissionLease.decodePayload_eq_ok_iff,
    record_eq]
  simp

lemma decodeServiceReceiptRecordStructureV2_eq_ok_iff {receipt : AuthenticatedServiceReceiptV2} :
    decodeServiceReceiptRecordStructureV2 record = .ok receipt ↔
      record = ⟨RecordTypeV2.serviceReceipt.code, eposeRecordVersionV2, receipt.payload⟩ := by
  rw [decodeServiceReceiptRecordStructureV2, layout_serviceReceipt.decodePayload_eq_ok_iff,
    record_eq]
  simp

lemma decodePaymentProofRecordStructureV2_eq_ok_iff {proof : ScopedPaymentProofV2} :
    decodePaymentProofRecordStructureV2 record = .ok proof ↔
      record = ⟨RecordTypeV2.servicePaymentProof.code, eposeRecordVersionV2, proof.payload⟩ := by
  rw [decodePaymentProofRecordStructureV2, layout_paymentProof.decodePayload_eq_ok_iff, record_eq]
  simp

/-- The record type of a lifecycle record. -/
def LifecycleRecordV2.wireType (lifecycle : LifecycleRecordV2) : RecordTypeV2 :=
  if lifecycle.action = .registerIdentity then .identityDescriptor else .descriptorLifecycle

lemma LifecycleRecordV2.wireType_code_eq_iff {lifecycle : LifecycleRecordV2} :
    lifecycle.wireType.code = RecordTypeV2.identityDescriptor.code ↔
      lifecycle.action = .registerIdentity := by
  unfold LifecycleRecordV2.wireType
  split_ifs with h <;> simp [h, RecordTypeV2.code]

lemma decodeLifecycleRecordStructureV2_eq_ok_iff {lifecycle : LifecycleRecordV2} :
    decodeLifecycleRecordStructureV2 record = .ok lifecycle ↔
      record = ⟨lifecycle.wireType.code, eposeRecordVersionV2, lifecycle.payload⟩ ∧
        LifecycleActionV2.ofCode lifecycle.action.code = lifecycle.action := by
  unfold decodeLifecycleRecordStructureV2
  simp only [except_bind_eq_ok_iff, layout_lifecycle.decodePayload_eq_ok_iff]
  rw [record_eq]
  constructor
  · rintro ⟨next, ⟨htype, hversion, hpayload, hgood⟩, h⟩
    split_ifs at h with haction
    obtain rfl := Except.ok.inj h
    refine ⟨⟨?_, hversion, hpayload⟩, hgood⟩
    unfold LifecycleRecordV2.wireType
    split_ifs with hregister <;> simp_all
  · rintro ⟨⟨htype, hversion, hpayload⟩, hgood⟩
    refine ⟨lifecycle, ⟨?_, hversion, hpayload, hgood⟩, ?_⟩
    · rw [htype]
      unfold LifecycleRecordV2.wireType
      split_ifs <;> simp
    · rw [if_neg]
      simp [htype, LifecycleRecordV2.wireType_code_eq_iff]

end Accepted

/-! ## Codecs -/

/-- The functions of one record kind; `κ` is what validation looks at besides the value. -/
structure RecordCodec (κ α : Type) where
  /-- The value of a fresh out parameter. -/
  blank : α
  encode : κ → α → Except RecordCodecStatusV2 EnvelopeRecordV2
  decodeStructure : EnvelopeRecordV2 → Except RecordCodecStatusV2 α
  valid : κ → α → Bool
  decode : κ → EnvelopeRecordV2 → Except RecordCodecStatusV2 α

/-- An out parameter that is reset before the checks and assigned after them. -/
def assignInto {α : Type} (blank : α) (result : Except RecordCodecStatusV2 α) (_out : α) :
    Except RecordCodecStatusV2 Unit × α :=
  match result with
  | .error status => (.error status, blank)
  | .ok value => (.ok (), value)

namespace RecordCodec

variable {κ α : Type} (codec : RecordCodec κ α)

/-- The encoder on its out parameter. -/
def encodeInto (context : κ) (value : α) (out : EnvelopeRecordV2) :
    Except RecordCodecStatusV2 Unit × EnvelopeRecordV2 :=
  assignInto {} (codec.encode context value) out

/-- The structural decoder on its out parameter. -/
def decodeStructureInto (record : EnvelopeRecordV2) (out : α) :
    Except RecordCodecStatusV2 Unit × α :=
  assignInto codec.blank (codec.decodeStructure record) out

/-- The full decoder on its out parameter: the structure is decoded into a local value. -/
def decodeInto (context : κ) (record : EnvelopeRecordV2) (_out : α) :
    Except RecordCodecStatusV2 Unit × α :=
  match codec.decodeStructureInto record codec.blank with
  | (.error status, _) => (.error status, codec.blank)
  | (.ok (), next) =>
    if !codec.valid context next then (.error .invalidRecord, codec.blank) else (.ok (), next)

/-- Encoder and decoders undo each other, and a refused call leaves a fresh value behind. -/
structure Exact : Prop where
  decode_encoded : ∀ context value record, codec.encode context value = .ok record →
    codec.decodeStructure record = .ok value ∧ codec.decode context record = .ok value
  encode_decoded : ∀ context record value, codec.decode context record = .ok value →
    codec.encode context value = .ok record
  encode_refused : ∀ context value out status,
    (codec.encodeInto context value out).1 = .error status →
      (codec.encodeInto context value out).2 = {}
  structure_refused : ∀ record out status,
    (codec.decodeStructureInto record out).1 = .error status →
      (codec.decodeStructureInto record out).2 = codec.blank
  decode_refused : ∀ context record out status,
    (codec.decodeInto context record out).1 = .error status →
      (codec.decodeInto context record out).2 = codec.blank
  decode_accepted : ∀ context record out value,
    codec.decodeInto context record out = (.ok (), value) ↔
      codec.decode context record = .ok value

lemma assignInto_refused {blank out : α} {result : Except RecordCodecStatusV2 α}
    {status : RecordCodecStatusV2} (h : (assignInto blank result out).1 = .error status) :
    (assignInto blank result out).2 = blank := by
  cases result with
  | error _ => rfl
  | ok value => cases h

variable {codec} in
/-- A codec is exact when the encoder writes, and the decoders read, one record per value. -/
lemma exact_of_record (recordOf : α → EnvelopeRecordV2) (Good : α → Prop)
    (hencode : ∀ context value record, codec.encode context value = .ok record ↔
      codec.valid context value = true ∧ record = recordOf value)
    (hstructure : ∀ record value, codec.decodeStructure record = .ok value ↔
      record = recordOf value ∧ Good value)
    (hgood : ∀ context value, codec.valid context value = true → Good value)
    (hdecode : ∀ context record,
      codec.decode context record =
        decodeRecord (codec.decodeStructure record) (codec.valid context)) :
    codec.Exact where
  decode_encoded := by
    intro context value record h
    obtain ⟨hvalid, hrecord⟩ := (hencode ..).mp h
    have hdecoded := (hstructure record value).mpr ⟨hrecord, hgood context value hvalid⟩
    rw [hdecode, decodeRecord_eq_ok_iff]
    exact ⟨hdecoded, hdecoded, hvalid⟩
  encode_decoded := by
    intro context record value h
    rw [hdecode, decodeRecord_eq_ok_iff] at h
    exact (hencode ..).mpr ⟨h.2, ((hstructure ..).mp h.1).1⟩
  encode_refused := fun _ _ _ _ => assignInto_refused
  structure_refused := fun _ _ _ => assignInto_refused
  decode_refused := by
    intro context record out status h
    unfold decodeInto at h ⊢
    split at h
    · rfl
    · split_ifs at h ⊢ with hvalid
      · rfl
  decode_accepted := by
    intro context record out value
    rw [hdecode, decodeRecord_eq_ok_iff]
    unfold decodeInto decodeStructureInto
    cases codec.decodeStructure record with
    | error status => simp [assignInto]
    | ok next =>
      simp only [assignInto]
      split_ifs with hvalid <;> grind

end RecordCodec

/-! ## The four codecs -/

section Kinds

variable (cr : Crypto)

def AdmissionLeaseV2.blank : AdmissionLeaseV2 where
  member := ⟨nullPkey, nullHash, nullPkey, nullHash, nullHash, nullHash, 0⟩
  targetEpoch := 0
  workAlgorithm := 1
  leadingZeroBits := 0
  admissionContextHeight := 0
  admissionContextHash := nullHash
  nonce := 0
  workHash := nullHash
  leaseHash := nullHash

def LifecycleRecordV2.blank : LifecycleRecordV2 where
  action := .registerIdentity
  previousDescriptorHash := nullHash
  nextDescriptor := ⟨eposeDescriptorVersionV2, nullHash, nullPkey, nullPkey, ⟨nullPkey, nullPkey⟩,
    nullHash, 0, 0, 0⟩
  operatorSignature := Block.zero 64
  serviceSignature := Block.zero 64

def AuthenticatedServiceReceiptV2.blank : AuthenticatedServiceReceiptV2 where
  challenge :=
    { version := eposeProtocolVersionV2, serviceKind := serviceKindCanonicalObject, epoch := 0
      round := 0, snapshotHash := nullHash, anchorHash := nullHash, subjectPublicKey := nullPkey
      verifierPublicKey := nullPkey, endpointDescriptorHash := nullHash, nonce := nullHash
      requestedObjectHash := nullHash }
  responseObjectHash := nullHash
  subjectSignature := Block.zero 64
  verifierSignature := Block.zero 64

def admissionLeaseCodec : RecordCodec (AdmissionContextV2 × AdmissionPolicyV2) AdmissionLeaseV2 where
  blank := .blank
  encode context lease := encodeAdmissionLeaseRecordV2 cr lease context.1 context.2
  decodeStructure := decodeAdmissionLeaseRecordStructureV2
  valid context lease := (validateAdmissionLeaseV2 cr lease context.1 context.2).1
  decode context record := decodeAdmissionLeaseRecordV2 cr record context.1 context.2

def lifecycleCodec : RecordCodec Scope LifecycleRecordV2 where
  blank := .blank
  encode := encodeLifecycleRecordV2 cr
  decodeStructure := decodeLifecycleRecordStructureV2
  valid net lifecycle := (validateLifecycleRecordAuthorizationV2 cr net lifecycle).1 = .accepted
  decode net record := decodeLifecycleRecordV2 cr record net

def serviceReceiptCodec : RecordCodec Scope AuthenticatedServiceReceiptV2 where
  blank := .blank
  encode net receipt := encodeServiceReceiptRecordV2 cr receipt net
  decodeStructure := decodeServiceReceiptRecordStructureV2
  valid net receipt := (validateAuthenticatedServiceReceiptV2 cr net receipt).1
  decode net record := decodeServiceReceiptRecordV2 cr record net

def paymentProofCodec : RecordCodec ServicePaymentContextV2 ScopedPaymentProofV2 where
  blank := ⟨nullPkey, Block.zero 64⟩
  encode context proof := encodePaymentProofRecordV2 cr proof context
  decodeStructure := decodePaymentProofRecordStructureV2
  valid context proof := (verifyScopedPaymentProofV2 cr context proof).1.toBool
  decode context record := (decodePaymentProofRecordV2 cr record context).1

variable {cr} in
lemma encoded_eq_ok_iff {valid : Bool} {payload : List UInt8} {size : ℕ}
    {record record' : EnvelopeRecordV2} (hsize : payload.length = size) :
    (if !valid then Except.error RecordCodecStatusV2.invalidRecord
      else if payload.length ≠ size then .error .wrongSize else .ok record') = .ok record ↔
      valid = true ∧ record = record' := by
  rw [if_neg (not_not.mpr hsize)]
  cases valid <;> simp [eq_comm]

lemma exact_admissionLeaseCodec : (admissionLeaseCodec cr).Exact := by
  refine RecordCodec.exact_of_record
    (fun lease => ⟨RecordTypeV2.admissionLease.code, eposeRecordVersionV2, lease.payload⟩)
    (fun _ => True) (fun context lease record => ?_) (fun record lease => ?_)
    (fun _ _ _ => trivial) fun context record => rfl
  · exact encoded_eq_ok_iff (layout_admissionLease.length_payload lease)
  · rw [and_true]
    exact decodeAdmissionLeaseRecordStructureV2_eq_ok_iff

lemma exact_serviceReceiptCodec : (serviceReceiptCodec cr).Exact := by
  refine RecordCodec.exact_of_record
    (fun receipt => ⟨RecordTypeV2.serviceReceipt.code, eposeRecordVersionV2, receipt.payload⟩)
    (fun _ => True) (fun net receipt record => ?_) (fun record receipt => ?_)
    (fun _ _ _ => trivial) fun net record => rfl
  · exact encoded_eq_ok_iff (layout_serviceReceipt.length_payload receipt)
  · rw [and_true]
    exact decodeServiceReceiptRecordStructureV2_eq_ok_iff

variable {cr} in
lemma encodePaymentProofRecordV2_eq_ok_iff {proof : ScopedPaymentProofV2}
    {context : ServicePaymentContextV2} {record : EnvelopeRecordV2} :
    encodePaymentProofRecordV2 cr proof context = .ok record ↔
      (verifyScopedPaymentProofV2 cr context proof).1.toBool = true ∧ record =
        ⟨RecordTypeV2.servicePaymentProof.code, eposeRecordVersionV2, proof.payload⟩ := by
  unfold encodePaymentProofRecordV2
  rw [if_neg (not_not.mpr (layout_paymentProof.length_payload proof))]
  generalize (verifyScopedPaymentProofV2 cr context proof).1 = verdict
  cases verdict with
  | error status => simp [Except.toBool]
  | ok _ => simp [Except.toBool, eq_comm]

lemma exact_paymentProofCodec : (paymentProofCodec cr).Exact := by
  refine RecordCodec.exact_of_record
    (fun proof => ⟨RecordTypeV2.servicePaymentProof.code, eposeRecordVersionV2, proof.payload⟩)
    (fun _ => True) (fun context proof record => ?_) (fun record proof => ?_)
    (fun _ _ _ => trivial) fun context record => ?_
  · exact encodePaymentProofRecordV2_eq_ok_iff
  · rw [and_true]
    exact decodePaymentProofRecordStructureV2_eq_ok_iff
  · simp only [paymentProofCodec]
    exact decodePaymentProofRecordV2_eq cr record context

variable {cr} in
lemma valid_action_of_accepted {net : Scope} {lifecycle : LifecycleRecordV2}
    (h : (validateLifecycleRecordAuthorizationV2 cr net lifecycle).1 = .accepted) :
    lifecycle.action.valid = true := by
  have hstructure : validateLifecycleRecordStructureV2 cr net lifecycle = .accepted := by
    unfold validateLifecycleRecordAuthorizationV2 at h
    dsimp only at h
    split at h
    · assumption
    · exact h
  unfold validateLifecycleRecordStructureV2 at hstructure
  dsimp only at hstructure
  split_ifs at hstructure with _ haction
  simpa using haction

variable {cr} in
lemma encodeLifecycleRecordV2_eq_ok_iff {net : Scope} {lifecycle : LifecycleRecordV2}
    {record : EnvelopeRecordV2} :
    encodeLifecycleRecordV2 cr net lifecycle = .ok record ↔
      (validateLifecycleRecordAuthorizationV2 cr net lifecycle).1 = .accepted ∧
        record = ⟨lifecycle.wireType.code, eposeRecordVersionV2, lifecycle.payload⟩ := by
  simp only [encodeLifecycleRecordV2]
  rw [if_neg (not_not.mpr (layout_lifecycle.length_payload lifecycle)), ← LifecycleRecordV2.wireType]
  split_ifs with hrefused
  · simp [hrefused]
  · simp [not_not.mp hrefused, eq_comm]

lemma exact_lifecycleCodec : (lifecycleCodec cr).Exact := by
  refine RecordCodec.exact_of_record
    (fun lifecycle => ⟨lifecycle.wireType.code, eposeRecordVersionV2, lifecycle.payload⟩)
    (fun record => .ofCode record.action.code = record.action) (fun net lifecycle record => ?_)
    (fun record lifecycle => decodeLifecycleRecordStructureV2_eq_ok_iff)
    (fun net lifecycle h => ?_) fun net record => rfl
  · simp only [lifecycleCodec, decide_eq_true_eq]
    exact encodeLifecycleRecordV2_eq_ok_iff
  · exact LifecycleActionV2.ofCode_code (valid_action_of_accepted (of_decide_eq_true h))

/-- A record that one of the structural decoders accepts. -/
def EnvelopeRecordV2.Structured (record : EnvelopeRecordV2) : Prop :=
  (∃ lease, decodeAdmissionLeaseRecordStructureV2 record = .ok lease) ∨
    (∃ lifecycle, decodeLifecycleRecordStructureV2 record = .ok lifecycle) ∨
    (∃ receipt, decodeServiceReceiptRecordStructureV2 record = .ok receipt) ∨
    ∃ proof, decodePaymentProofRecordStructureV2 record = .ok proof

/-- The type that goes with a payload: by its size, and for lifecycle records by the action. -/
def wireTypeOfPayload (payload : List UInt8) : UInt8 :=
  if payload.length = admissionLeasePayloadBytesV2 then RecordTypeV2.admissionLease.code
  else if payload.length = serviceReceiptPayloadBytesV2 then RecordTypeV2.serviceReceipt.code
  else if payload.length = paymentProofPayloadBytesV2 then RecordTypeV2.servicePaymentProof.code
  else if payload.head? = some LifecycleActionV2.registerIdentity.code then
    RecordTypeV2.identityDescriptor.code
  else RecordTypeV2.descriptorLifecycle.code

lemma EnvelopeRecordV2.Structured.type_eq {record : EnvelopeRecordV2} (h : record.Structured) :
    record.type = wireTypeOfPayload record.payload := by
  unfold wireTypeOfPayload
  obtain ⟨lease, hlease⟩ | ⟨lifecycle, hlifecycle⟩ | ⟨receipt, hreceipt⟩ | ⟨proof, hproof⟩ := h
  · obtain rfl := decodeAdmissionLeaseRecordStructureV2_eq_ok_iff.mp hlease
    simp [layout_admissionLease.length_payload]
  · obtain ⟨rfl, hgood⟩ := decodeLifecycleRecordStructureV2_eq_ok_iff.mp hlifecycle
    have hhead : lifecycle.payload.head? = some lifecycle.action.code := rfl
    have haction : lifecycle.action.code = LifecycleActionV2.registerIdentity.code ↔
        lifecycle.action = .registerIdentity := by
      refine ⟨fun hcode => ?_, fun haction => by rw [haction]⟩
      rw [← hgood, hcode]
      rfl
    dsimp only
    rw [layout_lifecycle.length_payload, if_neg (by decide), if_neg (by decide),
      if_neg (by decide), hhead]
    simp only [Option.some.injEq, haction, LifecycleRecordV2.wireType]
    split_ifs <;> rfl
  · obtain rfl := decodeServiceReceiptRecordStructureV2_eq_ok_iff.mp hreceipt
    simp only [layout_serviceReceipt.length_payload]
    rw [if_neg (by decide), if_pos trivial]
  · obtain rfl := decodePaymentProofRecordStructureV2_eq_ok_iff.mp hproof
    simp only [layout_paymentProof.length_payload]
    rw [if_neg (by decide), if_neg (by decide), if_pos trivial]

/-- **Record codecs are exact.**  For each of the four kinds, what the encoder accepts is given
back by both decoders, what the full decoder accepts is encoded to the same record, and a refused
call leaves the default value.  A lifecycle record has the registration type exactly when it is a
registration, and no payload is accepted under two types. -/
theorem record_codecs_are_exact :
    (admissionLeaseCodec cr).Exact ∧ (lifecycleCodec cr).Exact ∧ (serviceReceiptCodec cr).Exact ∧
    (paymentProofCodec cr).Exact ∧
    (∀ net lifecycle record, encodeLifecycleRecordV2 cr net lifecycle = .ok record ∨
        decodeLifecycleRecordStructureV2 record = .ok lifecycle →
      (record.type = RecordTypeV2.identityDescriptor.code ↔
        lifecycle.action = .registerIdentity)) ∧
    ∀ record record' : EnvelopeRecordV2, record.Structured → record'.Structured →
      record.payload = record'.payload → record.type = record'.type := by
  refine ⟨exact_admissionLeaseCodec cr, exact_lifecycleCodec cr, exact_serviceReceiptCodec cr,
    exact_paymentProofCodec cr, ?_, ?_⟩
  · rintro net lifecycle record (hencode | hdecode)
    · obtain ⟨-, rfl⟩ := encodeLifecycleRecordV2_eq_ok_iff.mp hencode
      exact LifecycleRecordV2.wireType_code_eq_iff
    · obtain ⟨rfl, -⟩ := decodeLifecycleRecordStructureV2_eq_ok_iff.mp hdecode
      exact LifecycleRecordV2.wireType_code_eq_iff
  · intro record record' hrecord hrecord' hpayload
    rw [hrecord.type_eq, hrecord'.type_eq, hpayload]

/-- A registration, its record, and the registration again. -/
theorem record_codecs_are_exact_sample :
    ∃ lifecycle record, encodeLifecycleRecordV2 .sample .sample lifecycle = .ok record ∧
      decodeLifecycleRecordV2 .sample record .sample = .ok lifecycle ∧
      record.type = RecordTypeV2.identityDescriptor.code := by
  have hsample : ∃ lifecycle record, encodeLifecycleRecordV2 .sample .sample lifecycle =
      .ok record ∧ lifecycle.action = .registerIdentity :=
    ⟨.sample .registerIdentity nullHash (.sample 1 0 1 4), .sampleRegistration 1 1 4,
      by decide +kernel⟩
  obtain ⟨lifecycle, record, hencode, haction⟩ := hsample
  obtain ⟨-, hlifecycle, -, -, htype, -⟩ := record_codecs_are_exact .sample
  exact ⟨lifecycle, record, hencode, (hlifecycle.decode_encoded _ _ _ hencode).2,
    (htype _ _ _ (.inl hencode)).mpr haction⟩

end Kinds

end Qwertycoin
