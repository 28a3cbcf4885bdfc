import Qwertycoin.Qms

/-
# QMS messages

The sender of a message writes a body that names the genesis block, the message, the invitation of
the recipient and the fingerprints of both, signs it and seals body and signature to the recipient.
The recipient opens the box, verifies the signature against the key pinned by the sender's
invitation and compares every part of the body with what is expected.
-/

namespace Qwertycoin.Qms

open Bytes

/-! ## Text -/

/-- A byte that continues a code point. -/
def isContinuation (b : UInt8) : Bool := b &&& 0xc0 = 0x80

/-- The six bits of a continuation byte. -/
def lowBits (b : UInt8) : ℕ := (b &&& 0x3f).toNat

def validUtf8 : List UInt8 → Bool
  | [] => true
  | b₀ :: rest =>
    if b₀ ≤ 0x7f then validUtf8 rest
    else if b₀ &&& 0xe0 = 0xc0 then
      match rest with
      | b₁ :: rest =>
        let cp := (b₀ &&& 0x1f).toNat * 64 + lowBits b₁
        isContinuation b₁ && 0x80 ≤ cp && validUtf8 rest
      | _ => false
    else if b₀ &&& 0xf0 = 0xe0 then
      match rest with
      | b₁ :: b₂ :: rest =>
        let cp := ((b₀ &&& 0x0f).toNat * 64 + lowBits b₁) * 64 + lowBits b₂
        isContinuation b₁ && isContinuation b₂ && 0x800 ≤ cp &&
          !(0xd800 ≤ cp && cp ≤ 0xdfff) && validUtf8 rest
      | _ => false
    else if b₀ &&& 0xf8 = 0xf0 then
      match rest with
      | b₁ :: b₂ :: b₃ :: rest =>
        let cp := (((b₀ &&& 0x07).toNat * 64 + lowBits b₁) * 64 + lowBits b₂) * 64 + lowBits b₃
        isContinuation b₁ && isContinuation b₂ && isContinuation b₃ && 0x10000 ≤ cp &&
          cp ≤ 0x10ffff && validUtf8 rest
      | _ => false
    else false

/-! ## The signed body -/

def signedDomain : List UInt8 := ascii "QWC-QMS-SIGNED-MESSAGE-V1"

def signedBody (genesis : Block 32) (messageId invitationId : Block 16)
    (senderFingerprint recipientFingerprint : Block 32) (text : List UInt8) : List UInt8 :=
  signedDomain ++ ([wireVersion, cryptoProfileSealedBoxEd25519] ++ (genesis.data ++
    (messageId.data ++ (invitationId.data ++ (senderFingerprint.data ++
      (recipientFingerprint.data ++ (1 :: (u32 (UInt32.ofNat text.length) ++ text))))))))

structure OpenedMessage where
  messageId : Block 16
  invitationId : Block 16
  senderFingerprint : Block 32
  recipientFingerprint : Block 32
  text : List UInt8
deriving DecidableEq

def readArray (n : ℕ) (input : List UInt8) : Except String (Block n × List UInt8) :=
  okOr "truncated array" ((Reader.block n).run input)

def readU32 (input : List UInt8) : Except String (UInt32 × List UInt8) :=
  okOr "truncated uint32" (Reader.u32.run input)

/-- The part of `open_text` that reads the body and compares it with what is expected. -/
def readBody (expectedGenesis : Block 32) (expectedMessageId ownInvitationId : Block 16)
    (senderPinned recipientPinned : Block 32) (body : List UInt8) :
    Except String OpenedMessage := do
  throwIf (body.length < signedDomain.length ∨ body.take signedDomain.length ≠ signedDomain)
    "QMS signed domain mismatch"
  let rest := body.drop signedDomain.length
  throwIf (rest.length < 2 ∨ rest.take 2 ≠ [wireVersion, cryptoProfileSealedBoxEd25519])
    "QMS signed profile mismatch"
  let (genesis, rest) ← readArray 32 (rest.drop 2)
  throwIf (genesis ≠ expectedGenesis) "QMS signed genesis mismatch"
  let (messageId, rest) ← readArray 16 rest
  throwIf (messageId ≠ expectedMessageId) "QMS signed message id mismatch"
  let (invitationId, rest) ← readArray 16 rest
  throwIf (invitationId ≠ ownInvitationId) "QMS invitation id mismatch"
  let (senderFingerprint, rest) ← readArray 32 rest
  let (recipientFingerprint, rest) ← readArray 32 rest
  throwIf (senderFingerprint ≠ senderPinned ∨ recipientFingerprint ≠ recipientPinned)
    "QMS pinned fingerprint mismatch"
  throwIf (rest.head? ≠ some 1) "unsupported QMS content type"
  let (textSize, text) ← readU32 (rest.drop 1)
  throwIf (maxTextBytes < textSize.toNat ∨ text.length ≠ textSize.toNat) "invalid QMS text size"
  throwIf (validUtf8 text = false) "invalid QMS UTF-8"
  return ⟨messageId, invitationId, senderFingerprint, recipientFingerprint, text⟩

/-! ## Sealing and opening -/

variable (sodium : Sodium)

/-- `crypto_box_SEALBYTES` -/
def sealBytes : ℕ := 48

/-- `crypto_sign_BYTES` -/
def signBytes : ℕ := 64

def sealText (seed : Block 32) (sender : Identity) (recipient : Invitation) (genesis : Block 32)
    (messageId : Block 16) (text : List UInt8) : Except String (List UInt8) := do
  throwIf (verifyInvitation sodium recipient = false ∨ recipient.genesis ≠ genesis)
    "recipient invitation mismatch"
  throwIf (maxTextBytes < text.length ∨ validUtf8 text = false)
    "message must be valid UTF-8 and at most 4096 bytes"
  let body := signedBody genesis messageId recipient.invitationId
    (fingerprint sodium sender.boxPublic sender.signPublic)
    (fingerprint sodium recipient.boxPublic recipient.signPublic) text
  let signature := sodium.signDetached body sender.signSecret
  let ciphertext ← okOr "QMS sealed-box encryption failed"
    (sodium.boxSeal seed (body ++ signature.data) recipient.boxPublic)
  throwIf (maxCiphertextBytes < ciphertext.length) "QMS ciphertext exceeds transport limit"
  return ciphertext

def openText (recipient : Identity) (sender ownInvitation : Invitation) (expectedGenesis : Block 32)
    (expectedMessageId : Block 16) (ciphertext : List UInt8) : Except String OpenedMessage := do
  throwIf (verifyInvitation sodium sender = false ∨ verifyInvitation sodium ownInvitation = false)
    "untrusted QMS invitation"
  throwIf (sender.genesis ≠ expectedGenesis ∨ ownInvitation.genesis ≠ expectedGenesis)
    "QMS genesis mismatch"
  throwIf (ciphertext.length < sealBytes ∨ maxCiphertextBytes < ciphertext.length)
    "invalid QMS ciphertext size"
  let plaintext ← okOr "QMS decryption failed"
    (sodium.boxSealOpen ciphertext recipient.boxPublic recipient.boxSecret)
  let bodySize := plaintext.length - signBytes
  -- what is behind the body is a signature, unless the plaintext is too short for one
  let (signature, _) ← okOr "truncated QMS signed message"
    ((Reader.block 64).run (plaintext.drop bodySize))
  let body := plaintext.take bodySize
  throwIf (sodium.verifyDetached signature body sender.signPublic = false)
    "QMS sender signature verification failed"
  readBody expectedGenesis expectedMessageId ownInvitation.invitationId
    (fingerprint sodium sender.boxPublic sender.signPublic)
    (fingerprint sodium recipient.boxPublic recipient.signPublic) body

/-! ## A body is read back, and it is the only one -/

lemma readArray_eq_ok_iff {n : ℕ} {input rest : List UInt8} {value : Block n} :
    readArray n input = .ok (value, rest) ↔ input = value.data ++ rest := by
  rw [readArray, okOr_eq_ok_iff]
  constructor
  · exact Reader.eq_append_of_run_block
  · rintro rfl
    exact Reader.run_block_append value rest

lemma readU32_eq_ok_iff {input rest : List UInt8} {value : UInt32} :
    readU32 input = .ok (value, rest) ↔ input = u32 value ++ rest := by
  rw [readU32, okOr_eq_ok_iff]
  constructor
  · exact Reader.eq_append_of_run_u32
  · rintro rfl
    exact Reader.run_u32_append value rest

lemma eq_append_of_take {front input : List UInt8} (h : input.take front.length = front) :
    input = front ++ input.drop front.length := by
  conv_lhs => rw [← List.take_append_drop front.length input, h]

section Body

variable {genesis : Block 32} {messageId invitationId : Block 16}
  {senderFingerprint recipientFingerprint : Block 32} {body text : List UInt8}
  {message : OpenedMessage}

lemma toNat_text_size (h : text.length ≤ maxTextBytes) :
    (UInt32.ofNat text.length).toNat = text.length :=
  UInt32.toNat_ofNat_of_lt' (lt_of_le_of_lt h (by decide))

/-- A body is accepted exactly if it is the body of a text for what is expected. -/
lemma readBody_eq_ok_iff :
    readBody genesis messageId invitationId senderFingerprint recipientFingerprint body =
        .ok message ↔
      ∃ text, text.length ≤ maxTextBytes ∧ validUtf8 text = true ∧
        signedBody genesis messageId invitationId senderFingerprint recipientFingerprint text =
          body ∧
        message = ⟨messageId, invitationId, senderFingerprint, recipientFingerprint, text⟩ := by
  constructor
  · intro h
    simp only [readBody, except_bind_eq_ok_iff, throwIf_eq_ok_iff, Prod.exists,
      readArray_eq_ok_iff, readU32_eq_ok_iff, not_or, not_not, Bool.not_eq_false, Nat.not_lt] at h
    obtain ⟨_, ⟨-, hdomain⟩, _, ⟨-, hprofile⟩, _, rest₁, hgenesis, _, rfl, _, rest₂, hmessage, _,
      rfl, _, rest₃, hinvitation, _, rfl, _, rest₄, hsender, _, rest₅, hrecipient, _, ⟨rfl, rfl⟩,
      _, htype, size, text, hsize, _, ⟨hle, hlength⟩, _, hvalid, heq⟩ := h
    refine ⟨text, hlength.le.trans hle, hvalid, ?_, (Except.ok.inj heq).symm⟩
    obtain ⟨tail, rfl⟩ : ∃ tail, rest₅ = 1 :: tail := by
      cases rest₅ with
      | nil => cases htype
      | cons b tail => exact ⟨tail, by rw [Option.some.inj htype]⟩
    have hsizeEq : UInt32.ofNat text.length = size := by
      rw [hlength, UInt32.ofNat_toNat]
    have hbody := eq_append_of_take hdomain
    have hbehind : body.drop signedDomain.length = [wireVersion, cryptoProfileSealedBoxEd25519] ++
        (body.drop signedDomain.length).drop 2 := eq_append_of_take hprofile
    have htail : tail = u32 size ++ text := hsize
    rw [hbody, hbehind, hgenesis, hmessage, hinvitation, hsender, hrecipient, htail, ← hsizeEq]
    rfl
  · rintro ⟨text, hle, hvalid, rfl, rfl⟩
    have hsize := toNat_text_size hle
    have hdomain : (signedBody genesis messageId invitationId senderFingerprint
        recipientFingerprint text).take signedDomain.length = signedDomain := List.take_left' rfl
    have hbehind : (signedBody genesis messageId invitationId senderFingerprint
        recipientFingerprint text).drop signedDomain.length = _ := List.drop_left' rfl
    have hlength : signedDomain.length ≤ (signedBody genesis messageId invitationId
        senderFingerprint recipientFingerprint text).length := by
      rw [signedBody, List.length_append]
      exact Nat.le_add_right _ _
    simp only [readBody, except_bind_eq_ok_iff, throwIf_eq_ok_iff, Prod.exists,
      readArray_eq_ok_iff, readU32_eq_ok_iff, not_or, not_not, Bool.not_eq_false, Nat.not_lt,
      hdomain, hbehind]
    exact ⟨(), ⟨hlength, trivial⟩, (), ⟨Nat.le_add_left 2 _, rfl⟩, genesis, _, rfl, (), rfl,
      messageId, _, rfl, (), rfl, invitationId, _, rfl, (), rfl, senderFingerprint, _, rfl,
      recipientFingerprint, _, rfl, (), ⟨rfl, rfl⟩, (), rfl, UInt32.ofNat text.length, text, rfl,
      (), ⟨hsize.le.trans hle, hsize.symm⟩, (), hvalid, rfl⟩

end Body

lemma length_signedBody (genesis : Block 32) (messageId invitationId : Block 16)
    (senderFingerprint recipientFingerprint : Block 32) (text : List UInt8) :
    (signedBody genesis messageId invitationId senderFingerprint recipientFingerprint
      text).length = 160 + text.length := by
  have hdomain : signedDomain.length = 25 := by decide +kernel
  simp only [signedBody, List.length_append, List.length_cons, List.length_nil, hdomain,
    Block.length_data, length_u32]
  omega

lemma signedBody_injective {genesis genesis' : Block 32}
    {messageId messageId' invitationId invitationId' : Block 16}
    {sender sender' recipient recipient' : Block 32} {text text' : List UInt8}
    (h : signedBody genesis messageId invitationId sender recipient text =
      signedBody genesis' messageId' invitationId' sender' recipient' text') :
    genesis = genesis' ∧ messageId = messageId' ∧ invitationId = invitationId' ∧
      sender = sender' ∧ recipient = recipient' ∧ text = text' := by
  have hblock : ∀ {n : ℕ} {left right : Block n} {rest rest' : List UInt8},
      left.data ++ rest = right.data ++ rest' → left = right ∧ rest = rest' := by
    intro n left right rest rest' heq
    obtain ⟨hdata, hrest⟩ := List.append_inj heq (by rw [left.length_data, right.length_data])
    exact ⟨Block.ext hdata, hrest⟩
  have h₁ := List.append_cancel_left (List.append_cancel_left h)
  obtain ⟨hgenesis, h₂⟩ := hblock h₁
  obtain ⟨hmessage, h₃⟩ := hblock h₂
  obtain ⟨hinvitation, h₄⟩ := hblock h₃
  obtain ⟨hsender, h₅⟩ := hblock h₄
  obtain ⟨hrecipient, h₆⟩ := hblock h₅
  have htext := (List.append_inj (List.cons.inj h₆).2 (by rw [length_u32, length_u32])).2
  exact ⟨hgenesis, hmessage, hinvitation, hsender, hrecipient, htext⟩

/-! ## Authenticity -/

/-- Ideal signatures and sealed boxes.  A signature is valid exactly if a holder of the signing key
made it for this message, and a box is opened exactly by the holder of the key it was sealed to, as
what was sealed. -/
structure Sodium.Ideal (sodium : Sodium) (signPair : Block 32 → Block 64 → Prop)
    (boxPair : Block 32 → Block 32 → Prop) : Prop where
  verifyDetached_iff : ∀ signature message key,
    sodium.verifyDetached signature message key = true ↔
      ∃ secret, signPair key secret ∧ sodium.signDetached message secret = signature
  boxSealOpen_iff : ∀ ciphertext key secret message,
    sodium.boxSealOpen ciphertext key secret = some message ↔
      boxPair key secret ∧ ∃ seed, sodium.boxSeal seed message key = some ciphertext
  length_boxSeal : ∀ seed message key ciphertext,
    sodium.boxSeal seed message key = some ciphertext →
      ciphertext.length = message.length + sealBytes

section Authentic

variable {sodium} {signPair : Block 32 → Block 64 → Prop} {boxPair : Block 32 → Block 32 → Prop}
  {recipient : Identity} {sender own : Invitation} {genesis : Block 32} {messageId : Block 16}
  {ciphertext : List UInt8} {message : OpenedMessage}

lemma split_plaintext {body plaintext : List UInt8} {signature : Block 64} :
    (∃ rest, (Reader.block 64).run (plaintext.drop (plaintext.length - signBytes)) =
        some (signature, rest)) ∧ plaintext.take (plaintext.length - signBytes) = body ↔
      plaintext = body ++ signature.data := by
  constructor
  · rintro ⟨⟨rest, hread⟩, rfl⟩
    have hdrop := Reader.eq_append_of_run_block hread
    have hlength := congrArg List.length hdrop
    rw [List.length_drop, List.length_append, signature.length_data] at hlength
    have hsign : signBytes = 64 := rfl
    obtain rfl : rest = [] := List.eq_nil_of_length_eq_zero (by omega)
    rw [List.append_nil] at hdrop
    rw [← hdrop, List.take_append_drop]
  · rintro rfl
    have hlength : (body ++ signature.data).length - signBytes = body.length := by
      rw [List.length_append, signature.length_data]
      exact Nat.add_sub_cancel ..
    rw [hlength, List.drop_left, List.take_left]
    have hread := Reader.run_block_append signature []
    rw [List.append_nil] at hread
    exact ⟨⟨[], hread⟩, rfl⟩

/-- A ciphertext is opened exactly if it is sealed to the recipient and holds a body for what is
expected that a holder of the pinned key signed. -/
lemma openText_eq_ok_iff (ideal : sodium.Ideal signPair boxPair)
    (hsender : verifyInvitation sodium sender = true) (hown : verifyInvitation sodium own = true)
    (hgenesis : sender.genesis = genesis) (hgenesis' : own.genesis = genesis) :
    openText sodium recipient sender own genesis messageId ciphertext = .ok message ↔
      ∃ text secret seed body, text.length ≤ maxTextBytes ∧ validUtf8 text = true ∧
        body = signedBody genesis messageId own.invitationId
          (fingerprint sodium sender.boxPublic sender.signPublic)
          (fingerprint sodium recipient.boxPublic recipient.signPublic) text ∧
        signPair sender.signPublic secret ∧ boxPair recipient.boxPublic recipient.boxSecret ∧
        sodium.boxSeal seed (body ++ (sodium.signDetached body secret).data) recipient.boxPublic =
          some ciphertext ∧
        message = ⟨messageId, own.invitationId,
          fingerprint sodium sender.boxPublic sender.signPublic,
          fingerprint sodium recipient.boxPublic recipient.signPublic, text⟩ := by
  simp only [openText, except_bind_eq_ok_iff, throwIf_eq_ok_iff, okOr_eq_ok_iff, Prod.exists,
    not_or, not_not, Bool.not_eq_false, Nat.not_lt, ideal.boxSealOpen_iff,
    ideal.verifyDetached_iff, readBody_eq_ok_iff]
  constructor
  · rintro ⟨_, -, _, -, _, -, plaintext, ⟨hpair, seed, hseal⟩, _, rest, hread, _,
      ⟨secret, hsecret, rfl⟩, text, hle, hvalid, hbody, rfl⟩
    have hplain := split_plaintext.mp ⟨⟨rest, hread⟩, rfl⟩
    rw [← hbody] at hplain
    refine ⟨text, secret, seed, _, hle, hvalid, rfl, hsecret, hpair, ?_, rfl⟩
    rw [← hplain]
    exact hseal
  · rintro ⟨text, secret, seed, body, hle, hvalid, hbody, hsecret, hpair, hseal, rfl⟩
    have hlength := ideal.length_boxSeal _ _ _ _ hseal
    rw [List.length_append, Block.length_data, hbody, length_signedBody] at hlength
    have hmaxText : maxTextBytes = 4096 := rfl
    have hmax : maxCiphertextBytes = 9600 := rfl
    have hsealBytes : sealBytes = 48 := rfl
    obtain ⟨⟨rest, hread⟩, htake⟩ := split_plaintext.mpr
      (rfl : body ++ (sodium.signDetached body secret).data = body ++ _)
    refine ⟨(), ⟨hsender, hown⟩, (), ⟨hgenesis, hgenesis'⟩, (), ⟨by omega, by omega⟩, _,
      ⟨hpair, seed, hseal⟩, _, rest, hread, (), ⟨secret, hsecret, ?_⟩, text, hle, hvalid, ?_, rfl⟩
    · rw [htake]
    · rw [htake, hbody]

end Authentic

/-! ## Invitations -/

/-- An invitation with a fresh identifier and a fresh secret. -/
def createInvitation (owner : Identity) (genesis : Block 32) (invitationId : Block 16)
    (discoverySecret : Block 32) : Invitation :=
  let result : Invitation := {
    genesis
    invitationId
    boxPublic := owner.boxPublic
    signPublic := owner.signPublic
    discoverySecret
    signature := Block.zero 64 }
  { result with signature := sodium.signDetached (invitationUnsigned result) owner.signSecret }

def encodeInvitation (value : Invitation) : List UInt8 :=
  magic ++ (value.version :: value.profile :: (value.genesis.data ++ (value.invitationId.data ++
    (value.boxPublic.data ++ (value.signPublic.data ++ (value.discoverySecret.data ++
      value.signature.data))))))

/-- The fields behind the magic. -/
def readInvitation : Reader Invitation := do
  let version ← Reader.byte
  let profile ← Reader.byte
  let genesis ← Reader.block 32
  let invitationId ← Reader.block 16
  let boxPublic ← Reader.block 32
  let signPublic ← Reader.block 32
  let discoverySecret ← Reader.block 32
  let signature ← Reader.block 64
  return { version, profile, genesis, invitationId, boxPublic, signPublic, discoverySecret,
           signature }

def decodeInvitation (encoded : List UInt8) : Except String Invitation := do
  throwIf (encoded.length ≠ 214 ∨ encoded.take 4 ≠ magic) "invalid QMS invitation encoding"
  -- the length is right, so that no field is truncated
  let value ← okOr "truncated array" (readInvitation.run' (encoded.drop 4))
  throwIf (verifyInvitation sodium value = false) "invalid QMS invitation signature or profile"
  return value

section Invitations

variable {sodium} {signPair : Block 32 → Block 64 → Prop} {boxPair : Block 32 → Block 32 → Prop}

lemma length_encodeInvitation (value : Invitation) : (encodeInvitation value).length = 214 := by
  simp only [encodeInvitation, magic, List.length_append, List.length_cons, List.length_nil,
    Block.length_data]

lemma readInvitation_append (value : Invitation) :
    readInvitation.run ((encodeInvitation value).drop 4) = some (value, []) := by
  have hdrop : (encodeInvitation value).drop 4 = _ := List.drop_left' rfl
  rw [hdrop, ← List.append_nil value.signature.data]
  simp only [readInvitation, Reader.run_bind_byte, Reader.run_bind_block]
  rfl

/-- A byte string is decoded exactly if it is the encoding of an invitation that verifies. -/
lemma decodeInvitation_eq_ok_iff {encoded : List UInt8} {value : Invitation} :
    decodeInvitation sodium encoded = .ok value ↔
      verifyInvitation sodium value = true ∧ encodeInvitation value = encoded := by
  rw [decodeInvitation, throwIf_bind_eq_ok_iff]
  simp only [except_bind_eq_ok_iff, okOr_eq_ok_iff, throwIf_eq_ok_iff, not_or, not_not,
    Bool.not_eq_false]
  constructor
  · rintro ⟨⟨hlength, hmagic⟩, value', hread, _, hverified, heq⟩
    obtain rfl := Except.ok.inj heq
    obtain ⟨⟨_, rest⟩, h, rfl⟩ := Option.map_eq_some_iff.mp hread
    refine ⟨hverified, ?_⟩
    rw [readInvitation] at h
    obtain ⟨version, _, h₁, h⟩ := Reader.of_run_bind_byte h
    obtain ⟨profile, _, h₂, h⟩ := Reader.of_run_bind_byte h
    obtain ⟨genesis, _, h₃, h⟩ := Reader.of_run_bind_block h
    obtain ⟨invitationId, _, h₄, h⟩ := Reader.of_run_bind_block h
    obtain ⟨boxPublic, _, h₅, h⟩ := Reader.of_run_bind_block h
    obtain ⟨signPublic, _, h₆, h⟩ := Reader.of_run_bind_block h
    obtain ⟨discoverySecret, _, h₇, h⟩ := Reader.of_run_bind_block h
    obtain ⟨signature, rest', h₈, h⟩ := Reader.of_run_bind_block h
    obtain ⟨rfl, rfl⟩ := Prod.mk.inj (Option.some.inj h)
    have hbody := List.take_append_drop 4 encoded
    rw [hmagic, h₁, h₂, h₃, h₄, h₅, h₆, h₇, h₈] at hbody
    have hrest : rest' = [] := by
      have hsize := congrArg List.length hbody
      simp only [magic, List.length_append, List.length_cons, List.length_nil, Block.length_data,
        hlength] at hsize
      exact List.eq_nil_of_length_eq_zero (by omega)
    rw [hrest, List.append_nil] at hbody
    exact hbody
  · rintro ⟨hverified, rfl⟩
    exact ⟨⟨length_encodeInvitation value, List.take_left' rfl⟩, value,
      congrArg (Option.map Prod.fst) (readInvitation_append value), (), hverified, rfl⟩

/-- Everyone can invite. -/
lemma verifyInvitation_createInvitation (ideal : sodium.Ideal signPair boxPair) {owner : Identity}
    (hpair : signPair owner.signPublic owner.signSecret) (genesis : Block 32)
    (invitationId : Block 16) (discoverySecret : Block 32) :
    verifyInvitation sodium (createInvitation sodium owner genesis invitationId discoverySecret) =
      true := by
  have hsigned : sodium.verifyDetached _ (invitationUnsigned
      (createInvitation sodium owner genesis invitationId discoverySecret)) owner.signPublic =
        true := (ideal.verifyDetached_iff _ _ _).mpr ⟨_, hpair, rfl⟩
  exact Bool.and_eq_true_iff.mpr ⟨rfl, hsigned⟩

/-- **Invitations are exact.**  With ideal signatures, a byte string is decoded exactly if it is the
encoding of an invitation that a holder of the pinned signing key has signed, and what an owner
creates is decoded as it was. -/
theorem invitations_are_exact (ideal : sodium.Ideal signPair boxPair) :
    (∀ encoded value, decodeInvitation sodium encoded = .ok value ↔
      encodeInvitation value = encoded ∧ value.version = wireVersion ∧
        value.profile = cryptoProfileSealedBoxEd25519 ∧ ∃ secret,
          signPair value.signPublic secret ∧
            sodium.signDetached (invitationUnsigned value) secret = value.signature) ∧
    ∀ owner genesis invitationId discoverySecret, signPair owner.signPublic owner.signSecret →
      let value := createInvitation sodium owner genesis invitationId discoverySecret
      decodeInvitation sodium (encodeInvitation value) = .ok value := by
  refine ⟨fun encoded value => ?_, fun owner genesis invitationId discoverySecret hpair =>
    decodeInvitation_eq_ok_iff.mpr
      ⟨verifyInvitation_createInvitation ideal hpair genesis invitationId discoverySecret, rfl⟩⟩
  rw [decodeInvitation_eq_ok_iff, and_comm, verifyInvitation]
  simp only [Bool.and_eq_true, decide_eq_true_eq, ideal.verifyDetached_iff, and_assoc]

end Invitations

/-- The keys of an identity are those an invitation pins. -/
def Identity.Owns (owner : Identity) (invitation : Invitation) : Prop :=
  invitation.boxPublic = owner.boxPublic ∧ invitation.signPublic = owner.signPublic

/-- **Messages are authentic and bound to their context.**  With ideal signatures and sealed boxes,
a ciphertext is opened exactly if it is sealed to the recipient and holds the body of a valid text
for this genesis block, message, invitation and pair of fingerprints which a holder of the pinned
signing key signed; the text of the body is returned.  Different contexts or texts never have the
same body.  What is sealed for the owner of an invitation is opened by that owner as the text it
was. -/
theorem messages_are_authentic (sodium : Sodium) (signPair : Block 32 → Block 64 → Prop)
    (boxPair : Block 32 → Block 32 → Prop) (ideal : sodium.Ideal signPair boxPair) :
    (∀ recipient sender own genesis messageId ciphertext message,
      verifyInvitation sodium sender = true → verifyInvitation sodium own = true →
      sender.genesis = genesis → own.genesis = genesis →
      (openText sodium recipient sender own genesis messageId ciphertext = .ok message ↔
        ∃ text secret seed body, text.length ≤ maxTextBytes ∧ validUtf8 text = true ∧
          body = signedBody genesis messageId own.invitationId
            (fingerprint sodium sender.boxPublic sender.signPublic)
            (fingerprint sodium recipient.boxPublic recipient.signPublic) text ∧
          signPair sender.signPublic secret ∧ boxPair recipient.boxPublic recipient.boxSecret ∧
          sodium.boxSeal seed (body ++ (sodium.signDetached body secret).data)
            recipient.boxPublic = some ciphertext ∧
          message = ⟨messageId, own.invitationId,
            fingerprint sodium sender.boxPublic sender.signPublic,
            fingerprint sodium recipient.boxPublic recipient.signPublic, text⟩)) ∧
    (∀ genesis genesis' messageId messageId' invitationId invitationId' sender sender' recipient
      recipient' text text', signedBody genesis messageId invitationId sender recipient text =
        signedBody genesis' messageId' invitationId' sender' recipient' text' →
      (genesis, messageId, invitationId, sender, recipient, text) =
        (genesis', messageId', invitationId', sender', recipient', text')) ∧
    ∀ seed sender senderInvitation recipient invitation genesis messageId text ciphertext,
      signPair sender.signPublic sender.signSecret → boxPair recipient.boxPublic recipient.boxSecret →
      sender.Owns senderInvitation → recipient.Owns invitation →
      verifyInvitation sodium senderInvitation = true → senderInvitation.genesis = genesis →
      sealText sodium seed sender invitation genesis messageId text = .ok ciphertext →
      (openText sodium recipient senderInvitation invitation genesis messageId ciphertext).map
        OpenedMessage.text = .ok text := by
  refine ⟨fun recipient sender own genesis messageId ciphertext message hsender hown hgenesis
    hgenesis' => openText_eq_ok_iff ideal hsender hown hgenesis hgenesis', ?_, ?_⟩
  · intro genesis genesis' messageId messageId' invitationId invitationId' sender sender' recipient
      recipient' text text' h
    obtain ⟨rfl, rfl, rfl, rfl, rfl, rfl⟩ := signedBody_injective h
    rfl
  · rintro seed sender senderInvitation recipient invitation genesis messageId text ciphertext
      hsign hbox ⟨hsenderBox, hsenderSign⟩ ⟨hbox', hsign'⟩ hverified hgenesis hseal
    simp only [sealText, except_bind_eq_ok_iff, throwIf_eq_ok_iff, okOr_eq_ok_iff, not_or, not_not,
      Bool.not_eq_false, Nat.not_lt] at hseal
    obtain ⟨_, ⟨hinvitation, hinvitationGenesis⟩, _, ⟨hle, hvalid⟩, _, hsealed, _, -, heq⟩ := hseal
    obtain rfl := Except.ok.inj heq
    rw [← hsenderBox, ← hsenderSign] at hsealed
    rw [← hsenderSign] at hsign
    rw [hbox', hsign'] at hsealed
    have hopen := (openText_eq_ok_iff ideal hverified hinvitation hgenesis
      hinvitationGenesis).mpr ⟨text, sender.signSecret, seed, _, hle, hvalid, rfl, hsign, hbox,
        hsealed, rfl⟩
    rw [hopen]
    rfl

/-! ## Concrete messages -/

lemma Sodium.sample_ideal : Sodium.sample.Ideal
    (fun key secret => secret.data.take 32 = key.data) (fun key secret => key = secret) where
  verifyDetached_iff signature message key := by
    rw [Sodium.sample, decide_eq_true_eq]
    constructor
    · intro hdata
      refine ⟨⟨key.data ++ List.replicate 32 0, by simp⟩, List.take_left' key.length_data, ?_⟩
      refine Block.ext (Eq.trans ?_ hdata.symm)
      exact congrArg (· ++ (Crypto.sampleHash message).data) (List.take_left' key.length_data)
    · rintro ⟨secret, hsecret, rfl⟩
      exact congrArg (· ++ (Crypto.sampleHash message).data) hsecret
  boxSealOpen_iff ciphertext key secret message := by
    simp only [Sodium.sample]
    have hfront : (key.data ++ List.replicate 16 (0 : UInt8)).length = 48 := by simp
    constructor
    · intro hopen
      split_ifs at hopen with hmatch
      obtain ⟨rfl, htake⟩ := hmatch
      refine ⟨rfl, Block.zero 32, ?_⟩
      rw [← Option.some.inj hopen, ← List.append_assoc, ← htake, List.take_append_drop]
    · rintro ⟨rfl, seed, hseal⟩
      rw [← Option.some.inj hseal, ← List.append_assoc, List.take_left' hfront,
        List.drop_left' hfront, if_pos ⟨rfl, rfl⟩]
  length_boxSeal seed message key ciphertext hseal := by
    rw [← Option.some.inj hseal, List.length_append, List.length_append, key.length_data,
      List.length_replicate, sealBytes]
    omega

lemma length_sampleSecret (n : ℕ) :
    ((sampleKey n).data ++ List.replicate 32 (0 : UInt8)).length = 64 := by simp

/-- The holder of the keys with number `n`. -/
def sampleIdentity (n : ℕ) : Identity :=
  ⟨sampleKey n, sampleKey n, sampleKey n, ⟨(sampleKey n).data ++ List.replicate 32 0, length_sampleSecret n⟩⟩

/-- The invitation of a holder is decoded. -/
theorem invitations_are_exact_sample :
    let value := createInvitation Sodium.sample (sampleIdentity 1) (Block.zero 32) (Block.zero 16)
      (Block.zero 32)
    decodeInvitation Sodium.sample (encodeInvitation value) = .ok value :=
  (invitations_are_exact Sodium.sample_ideal).2 (sampleIdentity 1) (Block.zero 32) (Block.zero 16)
    (Block.zero 32) (List.take_left' (sampleKey 1).length_data)

/-- One holder writes to another, and the message is opened. -/
theorem messages_are_authentic_sample :
    ∃ ciphertext, sealText Sodium.sample (Block.zero 32) (sampleIdentity 1) (sampleInvitation 2)
        (Block.zero 32) (Block.zero 16) (ascii "hi") = .ok ciphertext ∧
      (openText Sodium.sample (sampleIdentity 2) (sampleInvitation 1) (sampleInvitation 2)
        (Block.zero 32) (Block.zero 16) ciphertext).map OpenedMessage.text = .ok (ascii "hi") := by
  have hsealed : (sealText Sodium.sample (Block.zero 32) (sampleIdentity 1) (sampleInvitation 2)
      (Block.zero 32) (Block.zero 16) (ascii "hi")).isOk = true := by decide +kernel
  cases hseal : sealText Sodium.sample (Block.zero 32) (sampleIdentity 1) (sampleInvitation 2)
      (Block.zero 32) (Block.zero 16) (ascii "hi") with
  | error message =>
    rw [hseal] at hsealed
    cases hsealed
  | ok ciphertext =>
    exact ⟨ciphertext, rfl, (messages_are_authentic Sodium.sample _ _ Sodium.sample_ideal).2.2
      (Block.zero 32) (sampleIdentity 1) (sampleInvitation 1) (sampleIdentity 2)
      (sampleInvitation 2) (Block.zero 32) (Block.zero 16) (ascii "hi") ciphertext
      (List.take_left' (sampleKey 1).length_data) rfl ⟨rfl, rfl⟩ ⟨rfl, rfl⟩ (by decide +kernel) rfl
      hseal⟩

end Qwertycoin.Qms
