import Qwertycoin.Envelope
import Qwertycoin.Membership

/-
# Record codecs

Each record type has a payload of one fixed size.  Decoding the structure of a record checks its
type, version and size and reads the fields in order; validation of the content is a later step.
-/

namespace Qwertycoin

open Bytes

/-- `record_codec_status_v2`; `accepted` is the success of an `Except`. -/
inductive RecordCodecStatusV2
  | wrongType
  | wrongVersion
  | wrongSize
  | invalidRecord
deriving DecidableEq

/-- The record version of every record type. -/
def eposeRecordVersionV2 : UInt8 := 1

/-- `EPOSE_SERVICE_RECEIPT_PAYLOAD_BYTES_V2` -/
def serviceReceiptPayloadBytesV2 : ℕ := 402
/-- `EPOSE_ADMISSION_LEASE_PAYLOAD_BYTES_V2` -/
def admissionLeasePayloadBytesV2 : ℕ := 322
/-- `EPOSE_LIFECYCLE_PAYLOAD_BYTES_V2` -/
def lifecyclePayloadBytesV2 : ℕ := 378
/-- `EPOSE_PAYMENT_PROOF_PAYLOAD_BYTES_V2` -/
def paymentProofPayloadBytesV2 : ℕ := 96

/-- The checks and the read every structural decoder shares. -/
def decodePayload {α : Type} (record : EnvelopeRecordV2) (rightType : Bool) (size : ℕ)
    (read : Reader α) : Except RecordCodecStatusV2 α :=
  if !rightType then .error .wrongType
  else if record.version ≠ eposeRecordVersionV2 then .error .wrongVersion
  else if record.payload.length ≠ size then .error .wrongSize
  else
    match read record.payload with
    | some (value, []) => .ok value
    | _ => .error .wrongSize

/-! ## Admission leases -/

def FrozenMemberV2.read : Reader FrozenMemberV2 := do
  let servicePublicKey ← Reader.block 32
  let identityId ← Reader.block 32
  let operatorAuthorizationPublicKey ← Reader.block 32
  let descriptorHash ← Reader.block 32
  let rewardBindingHash ← Reader.block 32
  let endpointDescriptorHash ← Reader.block 32
  let sequence ← Reader.u64
  return { servicePublicKey, identityId, operatorAuthorizationPublicKey, descriptorHash
           rewardBindingHash, endpointDescriptorHash, sequence }

def AdmissionLeaseV2.payload (lease : AdmissionLeaseV2) : List UInt8 :=
  lease.workBytes ++ lease.workHash.data ++ lease.leaseHash.data

def AdmissionLeaseV2.read : Reader AdmissionLeaseV2 := do
  let member ← FrozenMemberV2.read
  let targetEpoch ← Reader.u64
  let workAlgorithm ← Reader.byte
  let leadingZeroBits ← Reader.byte
  let admissionContextHeight ← Reader.u64
  let admissionContextHash ← Reader.block 32
  let nonce ← Reader.u64
  let workHash ← Reader.block 32
  let leaseHash ← Reader.block 32
  return { member, targetEpoch, workAlgorithm, leadingZeroBits, admissionContextHeight
           admissionContextHash, nonce, workHash, leaseHash }

def decodeAdmissionLeaseRecordStructureV2 (record : EnvelopeRecordV2) :
    Except RecordCodecStatusV2 AdmissionLeaseV2 :=
  decodePayload record (record.type = RecordTypeV2.admissionLease.code)
    admissionLeasePayloadBytesV2 AdmissionLeaseV2.read

def encodeAdmissionLeaseRecordV2 (cr : Crypto) (lease : AdmissionLeaseV2)
    (context : AdmissionContextV2) (policy : AdmissionPolicyV2) :
    Except RecordCodecStatusV2 EnvelopeRecordV2 :=
  if !(validateAdmissionLeaseV2 cr lease context policy).1 then .error .invalidRecord
  else if lease.payload.length ≠ admissionLeasePayloadBytesV2 then .error .wrongSize
  else .ok ⟨RecordTypeV2.admissionLease.code, eposeRecordVersionV2, lease.payload⟩

/-! ## Lifecycle records -/

def LifecycleRecordV2.payload (record : LifecycleRecordV2) : List UInt8 :=
  let next := record.nextDescriptor
  [record.action.code] ++ record.previousDescriptorHash.data ++ [next.version] ++
    next.identityId.data ++ next.servicePublicKey.data ++
    next.operatorAuthorizationPublicKey.data ++ next.rewardAddress.viewPublicKey.data ++
    next.rewardAddress.spendPublicKey.data ++ next.endpointDescriptorHash.data ++
    u64 next.sequence ++ u64 next.effectiveEpoch ++ u64 next.expiryEpoch ++
    record.operatorSignature.data ++ record.serviceSignature.data

def LifecycleRecordV2.read : Reader LifecycleRecordV2 := do
  let action ← Reader.byte
  let previousDescriptorHash ← Reader.block 32
  let version ← Reader.byte
  let identityId ← Reader.block 32
  let servicePublicKey ← Reader.block 32
  let operatorAuthorizationPublicKey ← Reader.block 32
  let viewPublicKey ← Reader.block 32
  let spendPublicKey ← Reader.block 32
  let endpointDescriptorHash ← Reader.block 32
  let sequence ← Reader.u64
  let effectiveEpoch ← Reader.u64
  let expiryEpoch ← Reader.u64
  let operatorSignature ← Reader.block 64
  let serviceSignature ← Reader.block 64
  return { action := LifecycleActionV2.ofCode action, previousDescriptorHash
           nextDescriptor :=
            { version, identityId, servicePublicKey, operatorAuthorizationPublicKey
              rewardAddress := { viewPublicKey, spendPublicKey }
              endpointDescriptorHash, sequence, effectiveEpoch, expiryEpoch }
           operatorSignature, serviceSignature }

/-- `decode_lifecycle_record_structure_v2`: registrations have a record type of their own. -/
def decodeLifecycleRecordStructureV2 (record : EnvelopeRecordV2) :
    Except RecordCodecStatusV2 LifecycleRecordV2 := do
  let registrationType : Bool := record.type = RecordTypeV2.identityDescriptor.code
  let next ← decodePayload record
    (registrationType || record.type = RecordTypeV2.descriptorLifecycle.code)
    lifecyclePayloadBytesV2 LifecycleRecordV2.read
  if registrationType ≠ (next.action = .registerIdentity : Bool) then .error .wrongType
  else .ok next

def encodeLifecycleRecordV2 (cr : Crypto) (net : Scope) (lifecycle : LifecycleRecordV2) :
    Except RecordCodecStatusV2 EnvelopeRecordV2 :=
  if (validateLifecycleRecordAuthorizationV2 cr net lifecycle).1 ≠ .accepted then
    .error .invalidRecord
  else if lifecycle.payload.length ≠ lifecyclePayloadBytesV2 then .error .wrongSize
  else
    let type : RecordTypeV2 :=
      if lifecycle.action = .registerIdentity then .identityDescriptor else .descriptorLifecycle
    .ok ⟨type.code, eposeRecordVersionV2, lifecycle.payload⟩

/-! ## Service receipts -/

def AuthenticatedServiceReceiptV2.payload (receipt : AuthenticatedServiceReceiptV2) :
    List UInt8 :=
  let challenge := receipt.challenge
  [challenge.version, challenge.serviceKind] ++ u64 challenge.epoch ++ u64 challenge.round ++
    challenge.snapshotHash.data ++ challenge.anchorHash.data ++ challenge.subjectPublicKey.data ++
    challenge.verifierPublicKey.data ++ challenge.endpointDescriptorHash.data ++
    challenge.nonce.data ++ challenge.requestedObjectHash.data ++
    receipt.responseObjectHash.data ++ receipt.subjectSignature.data ++
    receipt.verifierSignature.data

def AuthenticatedServiceReceiptV2.read : Reader AuthenticatedServiceReceiptV2 := do
  let version ← Reader.byte
  let serviceKind ← Reader.byte
  let epoch ← Reader.u64
  let round ← Reader.u64
  let snapshotHash ← Reader.block 32
  let anchorHash ← Reader.block 32
  let subjectPublicKey ← Reader.block 32
  let verifierPublicKey ← Reader.block 32
  let endpointDescriptorHash ← Reader.block 32
  let nonce ← Reader.block 32
  let requestedObjectHash ← Reader.block 32
  let responseObjectHash ← Reader.block 32
  let subjectSignature ← Reader.block 64
  let verifierSignature ← Reader.block 64
  return { challenge :=
            { version, serviceKind, epoch, round, snapshotHash, anchorHash, subjectPublicKey
              verifierPublicKey, endpointDescriptorHash, nonce, requestedObjectHash }
           responseObjectHash, subjectSignature, verifierSignature }

def decodeServiceReceiptRecordStructureV2 (record : EnvelopeRecordV2) :
    Except RecordCodecStatusV2 AuthenticatedServiceReceiptV2 :=
  decodePayload record (record.type = RecordTypeV2.serviceReceipt.code)
    serviceReceiptPayloadBytesV2 AuthenticatedServiceReceiptV2.read

/-! ## Payment proofs -/

structure ScopedPaymentProofV2 where
  derivation : PublicKey
  proof : Signature
deriving DecidableEq

def ScopedPaymentProofV2.payload (proof : ScopedPaymentProofV2) : List UInt8 :=
  proof.derivation.data ++ proof.proof.data

def ScopedPaymentProofV2.read : Reader ScopedPaymentProofV2 := do
  let derivation ← Reader.block 32
  let proof ← Reader.block 64
  return { derivation, proof }

def decodePaymentProofRecordStructureV2 (record : EnvelopeRecordV2) :
    Except RecordCodecStatusV2 ScopedPaymentProofV2 :=
  decodePayload record (record.type = RecordTypeV2.servicePaymentProof.code)
    paymentProofPayloadBytesV2 ScopedPaymentProofV2.read

/-! ## Records for concrete runs -/

/-- A record of a type with a payload. -/
def EnvelopeRecordV2.ofPayload (type : RecordTypeV2) (payload : List UInt8) : EnvelopeRecordV2 :=
  ⟨type.code, eposeRecordVersionV2, payload⟩

/-- The record that registers operator `k`. -/
def EnvelopeRecordV2.sampleRegistration (k : ℕ) (effectiveEpoch expiryEpoch : UInt64) :
    EnvelopeRecordV2 :=
  .ofPayload .identityDescriptor (LifecycleRecordV2.sample .registerIdentity nullHash
    (.sample k 0 effectiveEpoch expiryEpoch)).payload

end Qwertycoin
