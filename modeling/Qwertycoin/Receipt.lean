import Qwertycoin.Crypto

/-
# Service receipts

A verifier challenges a subject for an object; the subject signs its response and the verifier
signs the subject's signature.  Consensus checks the transcript and the two signatures.
-/

namespace Qwertycoin

open Bytes

/-- `EPOSE_PROTOCOL_VERSION_V2` -/
def eposeProtocolVersionV2 : UInt8 := 2

/-- `service_kind_v2::canonical_object` -/
def serviceKindCanonicalObject : UInt8 := 1

structure ServiceChallengeV2 where
  version : UInt8
  serviceKind : UInt8
  epoch : UInt64
  round : UInt64
  snapshotHash : Hash
  anchorHash : Hash
  subjectPublicKey : PublicKey
  verifierPublicKey : PublicKey
  endpointDescriptorHash : Hash
  nonce : Hash
  requestedObjectHash : Hash
deriving DecidableEq

structure AuthenticatedServiceReceiptV2 where
  challenge : ServiceChallengeV2
  responseObjectHash : Hash
  subjectSignature : Signature
  verifierSignature : Signature
deriving DecidableEq

variable (cr : Crypto) (net : Scope)

def hashServiceChallengeV2 (challenge : ServiceChallengeV2) : Hash :=
  cr.cnFastHash (ascii "QWC_EPOSE_CHALLENGE_V2" ++ net.bytes ++
    [challenge.version, challenge.serviceKind] ++ u64 challenge.epoch ++ u64 challenge.round ++
    challenge.snapshotHash.data ++ challenge.anchorHash.data ++ challenge.subjectPublicKey.data ++
    challenge.verifierPublicKey.data ++ challenge.endpointDescriptorHash.data ++
    challenge.nonce.data ++ challenge.requestedObjectHash.data)

def challengeValid (challenge : ServiceChallengeV2) : Bool :=
  challenge.version = eposeProtocolVersionV2 &&
    challenge.serviceKind = serviceKindCanonicalObject &&
    challenge.snapshotHash ≠ nullHash && challenge.anchorHash ≠ nullHash &&
    challenge.endpointDescriptorHash ≠ nullHash && challenge.nonce ≠ nullHash &&
    challenge.requestedObjectHash ≠ nullHash && cr.checkKey challenge.subjectPublicKey &&
    cr.checkKey challenge.verifierPublicKey &&
    challenge.subjectPublicKey ≠ challenge.verifierPublicKey

def validateServiceChallengeV2 (challenge : ServiceChallengeV2) : Bool :=
  net.valid && challengeValid cr challenge

def hashSubjectResponseV2 (receipt : AuthenticatedServiceReceiptV2) : Hash :=
  cr.cnFastHash (ascii "QWC_EPOSE_SUBJECT_RESPONSE_V2" ++
    (hashServiceChallengeV2 cr net receipt.challenge).data ++ receipt.responseObjectHash.data)

def hashAuthenticatedServiceReceiptV2 (receipt : AuthenticatedServiceReceiptV2) : Hash :=
  cr.cnFastHash (ascii "QWC_EPOSE_RECEIPT_V2" ++ (hashSubjectResponseV2 cr net receipt).data ++
    receipt.subjectSignature.data)

/-- `validate_authenticated_service_receipt_v2`: the verdict and the number of signatures that
were checked. -/
def validateAuthenticatedServiceReceiptV2 (receipt : AuthenticatedServiceReceiptV2) : Bool × ℕ :=
  if !validateServiceChallengeV2 cr net receipt.challenge then (false, 0)
  else if receipt.responseObjectHash ≠ receipt.challenge.requestedObjectHash then (false, 0)
  else if !cr.checkSignature (hashSubjectResponseV2 cr net receipt)
      receipt.challenge.subjectPublicKey receipt.subjectSignature then (false, 1)
  else
    (cr.checkSignature (hashAuthenticatedServiceReceiptV2 cr net receipt)
      receipt.challenge.verifierPublicKey receipt.verifierSignature, 2)

variable {cr net} in
lemma validateAuthenticatedServiceReceiptV2_signatures_le
    {receipt : AuthenticatedServiceReceiptV2} :
    (validateAuthenticatedServiceReceiptV2 cr net receipt).2 ≤ 2 := by
  simp only [validateAuthenticatedServiceReceiptV2]
  split_ifs <;> simp

end Qwertycoin
