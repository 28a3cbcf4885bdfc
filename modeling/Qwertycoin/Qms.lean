import Qwertycoin.Lib.Chunks
import Qwertycoin.Reward

/-
# QMS fragments

A QMS message travels in transactions, so its ciphertext is cut into fragments.  Every fragment
repeats the identifier, the size and the hash of the whole ciphertext, and carries its own number
and the number of all fragments; the shape of a fragment is determined by these numbers.  The
receiver collects fragments in whatever order they are mined, drops repetitions and puts the pieces
together.

The primitives of libsodium are parameters of the model, and an exception is its text.
-/

namespace Qwertycoin.Qms

open Bytes

/-- The primitives QMS calls.  A sealed box is made with a fresh key pair, here a seed. -/
structure Sodium where
  sha256 : List UInt8 → Block 32
  hmacSha256 : Block 32 → List UInt8 → Block 32
  /-- `crypto_sign_detached`: the message and the secret key. -/
  signDetached : List UInt8 → Block 64 → Block 64
  /-- `crypto_sign_verify_detached`: the signature, the message and the public key. -/
  verifyDetached : Block 64 → List UInt8 → Block 32 → Bool
  /-- `crypto_box_seal`: the seed, the message and the public key. -/
  boxSeal : Block 32 → List UInt8 → Block 32 → Option (List UInt8)
  /-- `crypto_box_seal_open`: the ciphertext, the public and the secret key. -/
  boxSealOpen : List UInt8 → Block 32 → Block 32 → Option (List UInt8)

def wireVersion : UInt8 := 1
def cryptoProfileSealedBoxEd25519 : UInt8 := 1
def nonceSubtype : UInt8 := 0x72
def maxTextBytes : ℕ := 4096
def maxCiphertextBytes : ℕ := 9600
def maxFragmentDataBytes : ℕ := 600
def maxFragments : ℕ := 16
def fragmentHeaderBytes : ℕ := 96
def segmentWrapperBytes : ℕ := 7
def maxSegmentDataBytes : ℕ := 248
def maxSegmentsPerFragment : ℕ := 3

def magic : List UInt8 := [0x51, 0x4d, 0x53, 0x31]

structure Identity where
  boxPublic : Block 32
  boxSecret : Block 32
  signPublic : Block 32
  signSecret : Block 64
deriving DecidableEq

structure Invitation where
  version : UInt8 := wireVersion
  profile : UInt8 := cryptoProfileSealedBoxEd25519
  genesis : Block 32
  invitationId : Block 16
  boxPublic : Block 32
  signPublic : Block 32
  discoverySecret : Block 32
  signature : Block 64
deriving DecidableEq

@[ext]
structure Fragment where
  version : UInt8 := wireVersion
  profile : UInt8 := cryptoProfileSealedBoxEd25519
  flags : UInt16 := 0
  messageId : Block 16
  index : UInt16
  count : UInt16
  ciphertextSize : UInt32
  discoveryHint : Block 16
  ciphertextHash : Block 32
  mac : Block 16
  data : List UInt8
deriving DecidableEq

/-- `if (bad) throw std::runtime_error(message)` -/
def throwIf (bad : Prop) [Decidable bad] (message : String) : Except String Unit :=
  if bad then .error message else .ok ()

section ThrowIf

variable {bad : Prop} [Decidable bad] {message : String} {α : Type} {next : Unit → Except String α}

@[simp]
lemma throwIf_eq_ok_iff {u : Unit} : throwIf bad message = .ok u ↔ ¬bad := by
  rw [throwIf]
  split_ifs with h <;> simp [h]

lemma throwIf_bind_eq_ok_iff {value : α} :
    (throwIf bad message >>= next) = .ok value ↔ ¬bad ∧ next () = .ok value := by
  rw [except_bind_eq_ok_iff]
  exact ⟨fun ⟨u, hcheck, hnext⟩ => ⟨throwIf_eq_ok_iff.mp hcheck, hnext⟩,
    fun ⟨hcheck, hnext⟩ => ⟨(), throwIf_eq_ok_iff.mpr hcheck, hnext⟩⟩

lemma throwIf_bind (h : ¬bad) : (throwIf bad message >>= next) = next () := by
  rw [throwIf, if_neg h]
  rfl

end ThrowIf

/-! ## The fragment header -/

def fragmentWithoutMac (value : Fragment) : List UInt8 :=
  magic ++ [value.version, value.profile] ++ u16 value.flags ++ value.messageId.data ++
    u16 value.index ++ u16 value.count ++ u32 value.ciphertextSize ++ value.discoveryHint.data ++
    value.ciphertextHash.data

def validateFragmentShape (value : Fragment) : Except String Unit := do
  throwIf (value.version ≠ wireVersion ∨ value.profile ≠ cryptoProfileSealedBoxEd25519 ∨
    value.flags ≠ 0) "unsupported QMS fragment version/profile/flags"
  throwIf (value.count = 0 ∨ maxFragments < value.count.toNat ∨ value.count ≤ value.index)
    "invalid QMS fragment index/count"
  throwIf (value.ciphertextSize = 0 ∨ maxCiphertextBytes < value.ciphertextSize.toNat ∨
    maxFragmentDataBytes < value.data.length) "invalid QMS fragment size"
  let expectedCount := Chunks.count maxFragmentDataBytes value.ciphertextSize.toNat
  throwIf (value.count.toNat ≠ expectedCount) "non-canonical QMS fragment count"
  let expectedSize := if value.index.toNat + 1 = value.count.toNat
    then value.ciphertextSize.toNat - value.index.toNat * maxFragmentDataBytes
    else maxFragmentDataBytes
  throwIf (value.data.length ≠ expectedSize) "non-canonical QMS fragment size"

/-- What the shape check establishes. -/
structure Fragment.WellShaped (value : Fragment) : Prop where
  version_eq : value.version = wireVersion
  profile_eq : value.profile = cryptoProfileSealedBoxEd25519
  flags_eq : value.flags = 0
  index_lt : value.index.toNat < value.count.toNat
  size_pos : 0 < value.ciphertextSize.toNat
  size_le : value.ciphertextSize.toNat ≤ maxCiphertextBytes
  count_eq : value.count.toNat = Chunks.count maxFragmentDataBytes value.ciphertextSize.toNat
  length_data : value.data.length =
    if value.index.toNat + 1 = value.count.toNat
    then value.ciphertextSize.toNat - value.index.toNat * maxFragmentDataBytes
    else maxFragmentDataBytes

lemma maxFragmentDataBytes_pos : 0 < maxFragmentDataBytes := by decide

/-- A piece of a canonical cut is not larger than the pieces are. -/
lemma Fragment.WellShaped.length_data_le {value : Fragment} (h : value.WellShaped) :
    value.data.length ≤ maxFragmentDataBytes := by
  have hcut := (Chunks.count_le_iff maxFragmentDataBytes_pos).mp h.count_eq.ge
  rw [h.length_data]
  split_ifs with hlast
  · rw [← hlast, Nat.succ_mul] at hcut
    omega
  · exact le_rfl

lemma Fragment.WellShaped.count_le {value : Fragment} (h : value.WellShaped) :
    value.count.toNat ≤ maxFragments := by
  rw [h.count_eq, Chunks.count_le_iff maxFragmentDataBytes_pos]
  exact h.size_le

lemma validateFragmentShape_eq_ok_iff {value : Fragment} {u : Unit} :
    validateFragmentShape value = .ok u ↔ value.WellShaped := by
  simp only [validateFragmentShape, throwIf_bind_eq_ok_iff, throwIf_eq_ok_iff, not_or, not_not,
    Nat.not_lt, UInt16.not_le]
  constructor
  · rintro ⟨⟨hversion, hprofile, hflags⟩, ⟨-, -, hindex⟩, ⟨hpos, hsize, -⟩, hcount, hlength⟩
    refine ⟨hversion, hprofile, hflags, UInt16.lt_iff_toNat_lt.mp hindex, ?_, hsize, hcount,
      hlength⟩
    rw [← UInt32.toNat_inj] at hpos
    exact Nat.pos_of_ne_zero hpos
  · intro h
    have hcount : value.count ≠ 0 := by
      rintro hzero
      have hindex := h.index_lt
      rw [hzero] at hindex
      exact absurd hindex (Nat.not_lt_zero _)
    have hsize : value.ciphertextSize ≠ 0 := by
      rintro hzero
      have hpos := h.size_pos
      rw [hzero] at hpos
      exact absurd hpos (Nat.lt_irrefl 0)
    exact ⟨⟨h.version_eq, h.profile_eq, h.flags_eq⟩,
      ⟨hcount, h.count_le, UInt16.lt_iff_toNat_lt.mpr h.index_lt⟩,
      ⟨hsize, h.size_le, h.length_data_le⟩, h.count_eq, h.length_data⟩

/-- The encoding of a fragment that passed the check. -/
def fragmentBytes (value : Fragment) : List UInt8 :=
  fragmentWithoutMac value ++ value.mac.data ++ value.data

def encodeFragment (value : Fragment) : Except String (List UInt8) := do
  validateFragmentShape value
  return fragmentBytes value

/-- The fields behind the magic, read from an encoding that holds a whole header. -/
def readFragment : Reader Fragment := do
  let version ← Reader.byte
  let profile ← Reader.byte
  let flags ← Reader.u16
  let messageId ← Reader.block 16
  let index ← Reader.u16
  let count ← Reader.u16
  let ciphertextSize ← Reader.u32
  let discoveryHint ← Reader.block 16
  let ciphertextHash ← Reader.block 32
  let mac ← Reader.block 16
  let data ← get
  return { version, profile, flags, messageId, index, count, ciphertextSize, discoveryHint,
           ciphertextHash, mac, data }

def decodeFragment (encoded : List UInt8) : Except String Fragment := do
  throwIf (encoded.length < fragmentHeaderBytes ∨ encoded.take 4 ≠ magic)
    "invalid QMS fragment encoding"
  -- the header is complete, so that no field is truncated
  let value ← okOr "truncated array" (readFragment.run' (encoded.drop 4))
  validateFragmentShape value
  return value

/-! ## Encoding and decoding are inverse -/

/-- The encoding behind the magic. -/
def fragmentFields (value : Fragment) : List UInt8 :=
  value.version :: value.profile :: (u16 value.flags ++ (value.messageId.data ++
    (u16 value.index ++ (u16 value.count ++ (u32 value.ciphertextSize ++
      (value.discoveryHint.data ++ (value.ciphertextHash.data ++
        (value.mac.data ++ value.data))))))))

lemma fragmentBytes_eq (value : Fragment) : fragmentBytes value = magic ++ fragmentFields value := by
  simp only [fragmentBytes, fragmentWithoutMac, fragmentFields, List.append_assoc,
    List.cons_append, List.nil_append]

lemma length_fragmentBytes (value : Fragment) :
    (fragmentBytes value).length = fragmentHeaderBytes + value.data.length := by
  simp only [fragmentBytes_eq, fragmentFields, List.length_append, List.length_cons, length_u16,
    length_u32, Block.length_data, magic, List.length_nil, fragmentHeaderBytes]
  omega

lemma readFragment_fragmentFields (value : Fragment) :
    readFragment.run (fragmentFields value) = some (value, value.data) := by
  simp only [readFragment, fragmentFields, Reader.run_bind_byte, Reader.run_bind_u16,
    Reader.run_bind_u32, Reader.run_bind_block]
  rfl

lemma eq_fragmentFields_of_readFragment {input rest : List UInt8} {value : Fragment}
    (h : readFragment.run input = some (value, rest)) : input = fragmentFields value := by
  rw [readFragment] at h
  obtain ⟨version, _, h₁, h⟩ := Reader.of_run_bind_byte h
  obtain ⟨profile, _, h₂, h⟩ := Reader.of_run_bind_byte h
  obtain ⟨flags, _, h₃, h⟩ := Reader.of_run_bind_u16 h
  obtain ⟨messageId, _, h₄, h⟩ := Reader.of_run_bind_block h
  obtain ⟨index, _, h₅, h⟩ := Reader.of_run_bind_u16 h
  obtain ⟨count, _, h₆, h⟩ := Reader.of_run_bind_u16 h
  obtain ⟨size, _, h₇, h⟩ := Reader.of_run_bind_u32 h
  obtain ⟨hint, _, h₈, h⟩ := Reader.of_run_bind_block h
  obtain ⟨hash, _, h₉, h⟩ := Reader.of_run_bind_block h
  obtain ⟨mac, data, h₁₀, h⟩ := Reader.of_run_bind_block h
  obtain ⟨rfl, rfl⟩ := Prod.mk.inj (Option.some.inj h)
  rw [h₁, h₂, h₃, h₄, h₅, h₆, h₇, h₈, h₉, h₁₀]
  rfl

lemma encodeFragment_eq_ok_iff {value : Fragment} {encoded : List UInt8} :
    encodeFragment value = .ok encoded ↔ value.WellShaped ∧ fragmentBytes value = encoded := by
  rw [encodeFragment, except_bind_eq_ok_iff]
  constructor
  · rintro ⟨_, hshape, heq⟩
    exact ⟨validateFragmentShape_eq_ok_iff.mp hshape, Except.ok.inj heq⟩
  · rintro ⟨hshape, rfl⟩
    exact ⟨(), validateFragmentShape_eq_ok_iff.mpr hshape, rfl⟩

/-- A byte string is decoded exactly if it is the encoding of a well-shaped fragment. -/
lemma decodeFragment_eq_ok_iff {value : Fragment} {encoded : List UInt8} :
    decodeFragment encoded = .ok value ↔ value.WellShaped ∧ fragmentBytes value = encoded := by
  rw [decodeFragment, throwIf_bind_eq_ok_iff]
  simp only [except_bind_eq_ok_iff, okOr_eq_ok_iff, not_or, not_not, Nat.not_lt]
  constructor
  · rintro ⟨⟨-, hmagic⟩, _, hread, _, hshape, heq⟩
    obtain rfl := Except.ok.inj heq
    obtain ⟨⟨_, rest⟩, hrun, rfl⟩ := Option.map_eq_some_iff.mp hread
    refine ⟨validateFragmentShape_eq_ok_iff.mp hshape, ?_⟩
    rw [fragmentBytes_eq, ← eq_fragmentFields_of_readFragment hrun, ← hmagic,
      List.take_append_drop]
  · rintro ⟨hshape, rfl⟩
    have hdrop : (fragmentBytes value).drop 4 = fragmentFields value := by
      rw [fragmentBytes_eq]
      exact List.drop_left' rfl
    refine ⟨⟨?_, ?_⟩, value, ?_, (), validateFragmentShape_eq_ok_iff.mpr hshape, rfl⟩
    · rw [length_fragmentBytes]
      exact Nat.le_add_right _ _
    · rw [fragmentBytes_eq]
      exact List.take_left' rfl
    · rw [hdrop]
      exact congrArg (Option.map Prod.fst) (readFragment_fragmentFields value)

lemma fragmentBytes_injective {left right : Fragment} (hleft : left.WellShaped)
    (hright : right.WellShaped) (heq : fragmentBytes left = fragmentBytes right) :
    left = right := by
  have hdecode := decodeFragment_eq_ok_iff.mpr ⟨hleft, heq⟩
  rw [decodeFragment_eq_ok_iff.mpr ⟨hright, rfl⟩] at hdecode
  exact (Except.ok.inj hdecode).symm

/-! ## Cutting a ciphertext -/

variable (sodium : Sodium)

def fingerprint (boxPublic signPublic : Block 32) : Block 32 :=
  sodium.sha256 (ascii "QWC-QMS-FINGERPRINT-V1" ++ boxPublic.data ++ signPublic.data)

def invitationUnsigned (value : Invitation) : List UInt8 :=
  ascii "QWC-QMS-INVITATION-V1" ++ [value.version, value.profile] ++ value.genesis.data ++
    value.invitationId.data ++ value.boxPublic.data ++ value.signPublic.data ++
    value.discoverySecret.data

def verifyInvitation (value : Invitation) : Bool :=
  value.version = wireVersion && value.profile = cryptoProfileSealedBoxEd25519 &&
    sodium.verifyDetached value.signature (invitationUnsigned value) value.signPublic

def hkdfKey (secret : Block 32) (info : String) (genesis : Block 32) (invitationId : Block 16)
    (recipientFingerprint : Block 32) : Block 32 :=
  let saltHash := sodium.sha256 (ascii "QWC-QMS-HKDF-EXTRACT-V1" ++ genesis.data)
  let prk := sodium.hmacSha256 saltHash secret.data
  sodium.hmacSha256 prk (ascii info ++ [wireVersion, cryptoProfileSealedBoxEd25519] ++
    genesis.data ++ invitationId.data ++ recipientFingerprint.data ++ [1])

/-- The key that an invitation derives for one purpose. -/
def invitationKey (recipient : Invitation) (info : String) (genesis : Block 32) : Block 32 :=
  hkdfKey sodium recipient.discoverySecret info genesis recipient.invitationId
    (fingerprint sodium recipient.boxPublic recipient.signPublic)

/-- The front half of a hash. -/
def firstHalf (hash : Block 32) : Block 16 := ⟨hash.data.take 16, by simp⟩

def discoveryHint (recipient : Invitation) (genesis : Block 32) (messageId : Block 16) : Block 16 :=
  firstHalf (sodium.hmacSha256 (invitationKey sodium recipient "QWC-QMS-DISCOVERY-KEY-V1" genesis)
    (ascii "QWC-QMS-DISCOVERY-HINT-V1" ++ genesis.data ++ messageId.data))

def fragmentMacInput (value : Fragment) : List UInt8 :=
  ascii "QWC-QMS-FRAGMENT-V1" ++ fragmentWithoutMac value ++ value.data

def fragmentMac (recipient : Invitation) (genesis : Block 32) (value : Fragment) : Block 16 :=
  firstHalf (sodium.hmacSha256
    (invitationKey sodium recipient "QWC-QMS-FRAGMENT-MAC-KEY-V1" genesis) (fragmentMacInput value))

/-- The fragment that `fragment_ciphertext` makes in one turn of its loop. -/
def fragmentAt (recipient : Invitation) (genesis : Block 32) (messageId : Block 16)
    (ciphertext : List UInt8) (index : ℕ) : Fragment :=
  let value : Fragment := {
    messageId
    index := UInt16.ofNat index
    count := UInt16.ofNat (Chunks.count maxFragmentDataBytes ciphertext.length)
    ciphertextSize := UInt32.ofNat ciphertext.length
    discoveryHint := discoveryHint sodium recipient genesis messageId
    ciphertextHash := sodium.sha256 ciphertext
    mac := Block.zero 16
    data := Chunks.chunk maxFragmentDataBytes ciphertext index }
  { value with mac := fragmentMac sodium recipient genesis value }

def fragmentCiphertext (recipient : Invitation) (genesis : Block 32) (messageId : Block 16)
    (ciphertext : List UInt8) : Except String (List Fragment) := do
  throwIf (verifyInvitation sodium recipient = false ∨ recipient.genesis ≠ genesis ∨
    ciphertext = [] ∨ maxCiphertextBytes < ciphertext.length) "invalid QMS fragmentation input"
  let count := Chunks.count maxFragmentDataBytes ciphertext.length
  throwIf (maxFragments < count) "too many QMS fragments"
  return (List.range count).map (fragmentAt sodium recipient genesis messageId ciphertext)

def verifyFragment (recipient : Invitation) (genesis : Block 32) (value : Fragment) : Bool :=
  (validateFragmentShape value).isOk && verifyInvitation sodium recipient &&
    recipient.genesis = genesis &&
    discoveryHint sodium recipient genesis value.messageId = value.discoveryHint &&
    fragmentMac sodium recipient genesis value = value.mac

/-! ## Reassembly -/

/-- The fragments that have arrived, by number. -/
abbrev Arrived := Std.ExtTreeMap ℕ Fragment compare

/-- One turn of the collecting loop: a repetition has to be the fragment that is there. -/
def collect (ordered : Arrived) (value : Fragment) : Except String Arrived := do
  validateFragmentShape value
  match ordered[value.index.toNat]? with
  | none => return ordered.insert value.index.toNat value
  | some stored =>
    let there ← encodeFragment stored
    let here ← encodeFragment value
    throwIf (there ≠ here) "conflicting QMS duplicate"
    return ordered

/-- One turn of the joining loop: every fragment has to describe the same ciphertext. -/
def pieceOf (ordered : Arrived) (first : Fragment) (i : ℕ) : Except String (List UInt8) := do
  let value ← okOr "missing QMS fragment" ordered[i]?
  throwIf (value.messageId ≠ first.messageId ∨ value.count ≠ first.count ∨
    value.ciphertextSize ≠ first.ciphertextSize ∨ value.ciphertextHash ≠ first.ciphertextHash)
    "inconsistent QMS fragments"
  return value.data

def reassemble (fragments : List Fragment) : Except String (List UInt8) := do
  throwIf (fragments = [] ∨ maxFragments < fragments.length) "invalid QMS fragment set"
  let ordered ← fragments.foldlM collect ∅
  -- something has arrived, so that there is a first fragment
  let first ← okOr "invalid QMS fragment set" (ordered.minKey?.bind (ordered[·]?))
  throwIf (ordered.size ≠ first.count.toNat) "incomplete QMS fragment set"
  let pieces ← (List.range first.count.toNat).mapM (pieceOf ordered first)
  let result := pieces.flatten
  throwIf (result.length ≠ first.ciphertextSize.toNat ∨
    sodium.sha256 result ≠ first.ciphertextHash) "QMS ciphertext hash mismatch"
  return result

variable {sodium} {fragments : List Fragment} {ordered ordered' : Arrived} {value : Fragment}

/-- What the collecting loop has in hand: the fragments it has seen, each under its number. -/
structure Collected (fragments : List Fragment) (ordered : Arrived) : Prop where
  wellShaped : ∀ value ∈ fragments, value.WellShaped
  getElem?_eq_some_iff : ∀ i value, ordered[i]? = some value ↔
    value ∈ fragments ∧ value.index.toNat = i

/-- A fragment is taken if its number is free or taken by the same fragment, and then it is there
under its number: a repetition leaves the map as it is. -/
lemma collect_eq_ok_iff (h : Collected fragments ordered) :
    collect ordered value = .ok ordered' ↔ value.WellShaped ∧
      (∀ other ∈ fragments, other.index = value.index → other = value) ∧
        ordered.insert value.index.toNat value = ordered' := by
  rw [collect, except_bind_eq_ok_iff]
  cases hstored : ordered[value.index.toNat]? with
  | none =>
    have hfree : ∀ other ∈ fragments, other.index ≠ value.index := by
      intro other hother heq
      have := (h.getElem?_eq_some_iff value.index.toNat other).mpr ⟨hother, by rw [heq]⟩
      rw [hstored] at this
      cases this
    constructor
    · rintro ⟨_, hshape, heq⟩
      exact ⟨validateFragmentShape_eq_ok_iff.mp hshape,
        fun other hother hindex => absurd hindex (hfree other hother), Except.ok.inj heq⟩
    · rintro ⟨hshape, -, rfl⟩
      exact ⟨(), validateFragmentShape_eq_ok_iff.mpr hshape, rfl⟩
  | some stored =>
    obtain ⟨hmem, hindex⟩ := (h.getElem?_eq_some_iff _ _).mp hstored
    have hshaped := h.wellShaped stored hmem
    have hinsert : stored = value → ordered.insert value.index.toNat value = ordered := by
      rintro rfl
      refine Std.ExtTreeMap.ext_getElem? fun i => ?_
      rw [Std.ExtTreeMap.getElem?_insert]
      split_ifs with hi
      · rw [← Std.LawfulEqCmp.eq_of_compare hi, hstored]
      · rfl
    simp only [except_bind_eq_ok_iff, throwIf_eq_ok_iff, encodeFragment_eq_ok_iff, not_not]
    constructor
    · rintro ⟨_, -, _, ⟨-, rfl⟩, _, ⟨hvalue, rfl⟩, _, hsame, heq⟩
      obtain rfl := fragmentBytes_injective hshaped hvalue hsame
      refine ⟨hvalue, fun other hother hnumber => ?_, (hinsert rfl).trans (Except.ok.inj heq)⟩
      have hother := (h.getElem?_eq_some_iff stored.index.toNat other).mpr
        ⟨hother, by rw [hnumber]⟩
      rw [hstored] at hother
      exact (Option.some.inj hother).symm
    · rintro ⟨hshape, hsame, rfl⟩
      obtain rfl := hsame stored hmem (UInt16.toNat_inj.mp hindex)
      exact ⟨(), validateFragmentShape_eq_ok_iff.mpr hshape, _, ⟨hshape, rfl⟩, _, ⟨hshape, rfl⟩,
        (), rfl, congrArg Except.ok (hinsert rfl).symm⟩

lemma Collected.empty : Collected [] ∅ where
  wellShaped value hvalue := absurd hvalue List.not_mem_nil
  getElem?_eq_some_iff i value := by simp

lemma Collected.insert (h : Collected fragments ordered) (hshape : value.WellShaped)
    (hsame : ∀ other ∈ fragments, other.index = value.index → other = value) :
    Collected (fragments ++ [value]) (ordered.insert value.index.toNat value) where
  wellShaped other hother := by
    rcases List.mem_append.mp hother with hold | hnew
    · exact h.wellShaped other hold
    · exact List.mem_singleton.mp hnew ▸ hshape
  getElem?_eq_some_iff i other := by
    rw [Std.ExtTreeMap.getElem?_insert, List.mem_append, List.mem_singleton]
    split_ifs with hi
    · obtain rfl := Std.LawfulEqCmp.eq_of_compare hi
      constructor
      · intro heq
        obtain rfl := Option.some.inj heq
        exact ⟨Or.inr rfl, rfl⟩
      · rintro ⟨hold | rfl, hindex⟩
        · rw [hsame other hold (UInt16.toNat_inj.mp hindex)]
        · rfl
    · rw [h.getElem?_eq_some_iff]
      constructor
      · exact fun ⟨hold, hindex⟩ => ⟨Or.inl hold, hindex⟩
      · rintro ⟨hold | rfl, hindex⟩
        · exact ⟨hold, hindex⟩
        · exact absurd (by rw [hindex]; exact compare_eq_iff_eq.mpr rfl) hi

lemma Collected.of_foldlM (h : fragments.foldlM collect ∅ = .ok ordered) :
    Collected fragments ordered := by
  -- the loop takes fragments at the end, so the induction is on the prefix that was taken
  induction fragments using List.reverseRecOn generalizing ordered with
  | nil =>
    obtain rfl := Except.ok.inj h
    exact .empty
  | append_singleton fragments value ih =>
    rw [List.foldlM_append, except_bind_eq_ok_iff] at h
    obtain ⟨before, hbefore, hlast⟩ := h
    rw [List.foldlM_cons, except_bind_eq_ok_iff] at hlast
    obtain ⟨after, hcollect, hnil⟩ := hlast
    obtain rfl := Except.ok.inj hnil
    have hcollected := ih hbefore
    obtain ⟨hshape, hsame, rfl⟩ := (collect_eq_ok_iff hcollected).mp hcollect
    exact hcollected.insert hshape hsame

lemma exists_foldlM_collect (hshape : ∀ value ∈ fragments, value.WellShaped)
    (hsame : ∀ left ∈ fragments, ∀ right ∈ fragments, left.index = right.index → left = right) :
    ∃ ordered, fragments.foldlM collect ∅ = .ok ordered := by
  induction fragments using List.reverseRecOn with
  | nil => exact ⟨∅, rfl⟩
  | append_singleton fragments value ih =>
    have hold : ∀ other ∈ fragments, other ∈ fragments ++ [value] :=
      fun _ hother => List.mem_append_left _ hother
    have hlast : value ∈ fragments ++ [value] := List.mem_append_right _ (List.mem_singleton_self _)
    obtain ⟨before, hbefore⟩ := ih (fun other hother => hshape other (hold other hother))
      fun left hleft right hright => hsame left (hold left hleft) right (hold right hright)
    refine ⟨before.insert value.index.toNat value, ?_⟩
    rw [List.foldlM_append, except_bind_eq_ok_iff]
    refine ⟨before, hbefore, ?_⟩
    rw [List.foldlM_cons, except_bind_eq_ok_iff]
    exact ⟨_, (collect_eq_ok_iff (.of_foldlM hbefore)).mpr ⟨hshape value hlast,
      fun other hother => hsame other (hold other hother) value hlast, rfl⟩, rfl⟩

section MapM

variable {ε α β : Type} {l : List α} {f : α → Except ε β}

lemma mapM_eq_ok_of_forall {g : α → β} (h : ∀ a ∈ l, f a = .ok (g a)) :
    l.mapM f = .ok (l.map g) := by
  induction l with
  | nil => rfl
  | cons a l ih =>
    rw [List.mapM_cons, except_bind_eq_ok_iff]
    refine ⟨g a, h a List.mem_cons_self, ?_⟩
    rw [ih fun b hb => h b (List.mem_cons_of_mem a hb)]
    rfl

lemma exists_of_mapM_eq_ok {bs : List β} (h : l.mapM f = .ok bs) : ∀ a ∈ l, ∃ b, f a = .ok b := by
  induction l generalizing bs with
  | nil => exact fun a ha => absurd ha List.not_mem_nil
  | cons a l ih =>
    rw [List.mapM_cons, except_bind_eq_ok_iff] at h
    obtain ⟨b, hb, h⟩ := h
    obtain ⟨_, htail, -⟩ := except_bind_eq_ok_iff.mp h
    intro a' ha'
    rcases List.mem_cons.mp ha' with rfl | hmem
    · exact ⟨b, hb⟩
    · exact ih htail a' hmem

end MapM

/-- The fragments describe one ciphertext. -/
def Fragment.Agrees (left right : Fragment) : Prop :=
  left.messageId = right.messageId ∧ left.count = right.count ∧
    left.ciphertextSize = right.ciphertextSize ∧ left.ciphertextHash = right.ciphertextHash

lemma pieceOf_eq_ok_iff {first : Fragment} {i : ℕ} {piece : List UInt8} :
    pieceOf ordered first i = .ok piece ↔
      ∃ value, ordered[i]? = some value ∧ value.Agrees first ∧ value.data = piece := by
  simp only [pieceOf, except_bind_eq_ok_iff, okOr_eq_ok_iff, throwIf_eq_ok_iff, not_or, not_not,
    Fragment.Agrees]
  constructor
  · rintro ⟨value, hvalue, _, hagrees, heq⟩
    exact ⟨value, hvalue, hagrees, Except.ok.inj heq⟩
  · rintro ⟨value, hvalue, hagrees, rfl⟩
    exact ⟨value, hvalue, (), hagrees, rfl⟩

lemma Collected.mem_iff (h : Collected fragments ordered) {i : ℕ} :
    i ∈ ordered ↔ ∃ value ∈ fragments, value.index.toNat = i := by
  rw [Std.ExtTreeMap.mem_iff_isSome_getElem?, Option.isSome_iff_exists]
  exact exists_congr fun value => h.getElem?_eq_some_iff i value

lemma Collected.exists_first (h : Collected fragments ordered) (hne : fragments ≠ []) :
    ∃ first ∈ fragments, ordered.minKey?.bind (ordered[·]?) = some first := by
  obtain ⟨value, hvalue⟩ := List.exists_mem_of_ne_nil fragments hne
  have hmem : value.index.toNat ∈ ordered := h.mem_iff.mpr ⟨value, hvalue, rfl⟩
  cases hmin : ordered.minKey? with
  | none =>
    rw [Std.ExtTreeMap.minKey?_eq_none_iff.mp hmin] at hmem
    exact absurd hmem Std.ExtTreeMap.not_mem_empty
  | some i =>
    obtain ⟨first, hfirst, hindex⟩ := h.mem_iff.mp (Std.ExtTreeMap.minKey?_mem hmin)
    exact ⟨first, hfirst, (h.getElem?_eq_some_iff i first).mpr ⟨hfirst, hindex⟩⟩

/-- Whatever is put together is what every fragment describes, and no fragment is missing. -/
lemma reassemble_eq_ok {result : List UInt8} (h : reassemble sodium fragments = .ok result) :
    fragments ≠ [] ∧ ∀ value ∈ fragments, result.length = value.ciphertextSize.toNat ∧
      sodium.sha256 result = value.ciphertextHash ∧
        ∀ i < value.count.toNat, ∃ other ∈ fragments,
          other.index.toNat = i ∧ other.Agrees value := by
  simp only [reassemble, except_bind_eq_ok_iff, throwIf_eq_ok_iff, okOr_eq_ok_iff, not_or,
    not_not] at h
  obtain ⟨_, ⟨hne, -⟩, ordered, hcollect, first, hfirst, _, hsize, pieces, hpieces, _,
    ⟨hlength, hhash⟩, heq⟩ := h
  obtain rfl := Except.ok.inj heq
  have hcollected := Collected.of_foldlM hcollect
  have hpresent : ∀ i < first.count.toNat,
      ∃ other, ordered[i]? = some other ∧ other.Agrees first := by
    intro i hi
    obtain ⟨_, hpiece⟩ := exists_of_mapM_eq_ok hpieces i (List.mem_range.mpr hi)
    obtain ⟨other, hother, hagrees, -⟩ := pieceOf_eq_ok_iff.mp hpiece
    exact ⟨other, hother, hagrees⟩
  -- there are as many fragments as numbers, so that every fragment was looked at
  have hagrees : ∀ value ∈ fragments, value.Agrees first := by
    intro value hvalue
    have hstored := (hcollected.getElem?_eq_some_iff _ value).mpr ⟨hvalue, rfl⟩
    have hlt : value.index.toNat < first.count.toNat :=
      Chunks.lt_of_mem_of_size_eq hsize (fun i hi => by
        obtain ⟨other, hother, -⟩ := hpresent i hi
        rw [Std.ExtTreeMap.mem_iff_isSome_getElem?, hother]
        rfl) (hcollected.mem_iff.mpr ⟨value, hvalue, rfl⟩)
    obtain ⟨other, hother, hagrees⟩ := hpresent _ hlt
    rw [hstored] at hother
    exact Option.some.inj hother ▸ hagrees
  refine ⟨hne, fun value hvalue => ?_⟩
  obtain ⟨hid, hcount, hsame, hsum⟩ := hagrees value hvalue
  refine ⟨by rw [hsame]; exact hlength, by rw [hsum]; exact hhash, fun i hi => ?_⟩
  rw [hcount] at hi
  obtain ⟨other, hother, hid', hcount', hsame', hsum'⟩ := hpresent i hi
  obtain ⟨hmem, hindex⟩ := (hcollected.getElem?_eq_some_iff i other).mp hother
  exact ⟨other, hmem, hindex, hid'.trans hid.symm, hcount'.trans hcount.symm,
    hsame'.trans hsame.symm, hsum'.trans hsum.symm⟩

/-! ## Reassembly inverts fragmentation -/

section Inverse

variable {recipient : Invitation} {genesis : Block 32} {messageId : Block 16}
  {ciphertext : List UInt8}

lemma fragmentCiphertext_eq_ok_iff :
    fragmentCiphertext sodium recipient genesis messageId ciphertext = .ok fragments ↔
      verifyInvitation sodium recipient = true ∧ recipient.genesis = genesis ∧
        ciphertext ≠ [] ∧ ciphertext.length ≤ maxCiphertextBytes ∧
        (List.range (Chunks.count maxFragmentDataBytes ciphertext.length)).map
          (fragmentAt sodium recipient genesis messageId ciphertext) = fragments := by
  simp only [fragmentCiphertext, except_bind_eq_ok_iff, throwIf_eq_ok_iff, not_or, not_not,
    Bool.not_eq_false, Nat.not_lt]
  constructor
  · rintro ⟨_, ⟨hverified, hgenesis, hne, hsize⟩, _, -, heq⟩
    exact ⟨hverified, hgenesis, hne, hsize, Except.ok.inj heq⟩
  · rintro ⟨hverified, hgenesis, hne, hsize, rfl⟩
    exact ⟨(), ⟨hverified, hgenesis, hne, hsize⟩, (),
      (Chunks.count_le_iff maxFragmentDataBytes_pos).mpr hsize, rfl⟩

variable (hne : ciphertext ≠ []) (hsize : ciphertext.length ≤ maxCiphertextBytes)
include hsize

lemma toNat_count_fragmentAt (i : ℕ) :
    (fragmentAt sodium recipient genesis messageId ciphertext i).count.toNat =
      Chunks.count maxFragmentDataBytes ciphertext.length := by
  have hcount := (Chunks.count_le_iff maxFragmentDataBytes_pos).mpr
    (show ciphertext.length ≤ maxFragments * maxFragmentDataBytes from hsize)
  refine UInt16.toNat_ofNat_of_lt' (lt_of_le_of_lt hcount ?_)
  decide

lemma toNat_size_fragmentAt (i : ℕ) :
    (fragmentAt sodium recipient genesis messageId ciphertext i).ciphertextSize.toNat =
      ciphertext.length :=
  UInt32.toNat_ofNat_of_lt' (lt_of_le_of_lt hsize (by decide))

lemma toNat_index_fragmentAt {i : ℕ}
    (hi : i < Chunks.count maxFragmentDataBytes ciphertext.length) :
    (fragmentAt sodium recipient genesis messageId ciphertext i).index.toNat = i := by
  have hcount := (Chunks.count_le_iff maxFragmentDataBytes_pos).mpr
    (show ciphertext.length ≤ maxFragments * maxFragmentDataBytes from hsize)
  refine UInt16.toNat_ofNat_of_lt' (lt_trans (lt_of_lt_of_le hi hcount) ?_)
  decide

include hne

lemma wellShaped_fragmentAt {i : ℕ}
    (hi : i < Chunks.count maxFragmentDataBytes ciphertext.length) :
    (fragmentAt sodium recipient genesis messageId ciphertext i).WellShaped where
  version_eq := rfl
  profile_eq := rfl
  flags_eq := rfl
  index_lt := by rwa [toNat_count_fragmentAt hsize, toNat_index_fragmentAt hsize hi]
  size_pos := by
    rw [toNat_size_fragmentAt hsize]
    exact List.length_pos_of_ne_nil hne
  size_le := by rwa [toNat_size_fragmentAt hsize]
  count_eq := by rw [toNat_count_fragmentAt hsize, toNat_size_fragmentAt hsize]
  length_data := by
    rw [toNat_count_fragmentAt hsize, toNat_size_fragmentAt hsize, toNat_index_fragmentAt hsize hi]
    exact Chunks.length_chunk_eq maxFragmentDataBytes_pos hi

/-- All fragments of a ciphertext, in any order and with repetitions, give it back if they are not
too many. -/
lemma reassemble_fragments (hmem : ∀ value, value ∈ fragments ↔
      ∃ i < Chunks.count maxFragmentDataBytes ciphertext.length,
        fragmentAt sodium recipient genesis messageId ciphertext i = value)
    (hlen : fragments.length ≤ maxFragments) : reassemble sodium fragments = .ok ciphertext := by
  have hshape : ∀ value ∈ fragments, value.WellShaped := by
    intro value hvalue
    obtain ⟨i, hi, rfl⟩ := (hmem value).mp hvalue
    exact wellShaped_fragmentAt hne hsize hi
  have hsame : ∀ left ∈ fragments, ∀ right ∈ fragments, left.index = right.index →
      left = right := by
    intro left hleft right hright hindex
    obtain ⟨i, hi, rfl⟩ := (hmem left).mp hleft
    obtain ⟨j, hj, rfl⟩ := (hmem right).mp hright
    have hnumber := congrArg UInt16.toNat hindex
    rw [toNat_index_fragmentAt hsize hi, toNat_index_fragmentAt hsize hj] at hnumber
    rw [hnumber]
  have hfragments : fragments ≠ [] := by
    have hzero := (Chunks.lt_count_iff (i := 0) maxFragmentDataBytes_pos).mpr
      (by rw [Nat.zero_mul]; exact List.length_pos_of_ne_nil hne)
    exact List.ne_nil_of_mem ((hmem _).mpr ⟨0, hzero, rfl⟩)
  obtain ⟨ordered, hcollect⟩ := exists_foldlM_collect hshape hsame
  have hcollected := Collected.of_foldlM hcollect
  obtain ⟨first, hfirst, hmin⟩ := hcollected.exists_first hfragments
  obtain ⟨k, -, rfl⟩ := (hmem first).mp hfirst
  have hstored : ∀ i < Chunks.count maxFragmentDataBytes ciphertext.length,
      ordered[i]? = some (fragmentAt sodium recipient genesis messageId ciphertext i) :=
    fun i hi => (hcollected.getElem?_eq_some_iff i _).mpr
      ⟨(hmem _).mpr ⟨i, hi, rfl⟩, toNat_index_fragmentAt hsize hi⟩
  have hcomplete : ordered.size = Chunks.count maxFragmentDataBytes ciphertext.length := by
    refine Chunks.size_eq_of_forall_mem_iff fun i => ⟨fun hi => ?_, fun hi => ?_⟩
    · obtain ⟨value, hvalue, rfl⟩ := hcollected.mem_iff.mp hi
      obtain ⟨j, hj, rfl⟩ := (hmem value).mp hvalue
      rwa [toNat_index_fragmentAt hsize hj]
    · rw [Std.ExtTreeMap.mem_iff_isSome_getElem?, hstored i hi]
      rfl
  have hpieces : (List.range (fragmentAt sodium recipient genesis messageId ciphertext
      k).count.toNat).mapM (pieceOf ordered (fragmentAt sodium recipient genesis messageId
        ciphertext k)) = .ok ((List.range (Chunks.count maxFragmentDataBytes
          ciphertext.length)).map (Chunks.chunk maxFragmentDataBytes ciphertext)) := by
    rw [toNat_count_fragmentAt hsize]
    exact mapM_eq_ok_of_forall fun i hi => pieceOf_eq_ok_iff.mpr
      ⟨_, hstored i (List.mem_range.mp hi), ⟨rfl, rfl, rfl, rfl⟩, rfl⟩
  have hjoined := Chunks.flatMap_chunk_count maxFragmentDataBytes_pos ciphertext
  rw [List.flatMap_def] at hjoined
  simp only [reassemble, except_bind_eq_ok_iff, throwIf_eq_ok_iff, okOr_eq_ok_iff, not_or,
    not_not, Nat.not_lt]
  refine ⟨(), ⟨hfragments, hlen⟩, ordered, hcollect, _, hmin, (), ?_, _, hpieces, (), ?_, ?_⟩
  · rw [toNat_count_fragmentAt hsize, hcomplete]
  · rw [hjoined, toNat_size_fragmentAt hsize]
    exact ⟨rfl, rfl⟩
  · rw [hjoined]
    rfl

end Inverse

/-- **Reassembly inverts fragmentation for up to sixteen arrivals.**  The fragments of a ciphertext
are put together again in whatever order and however often they arrive, exactly as long as there
are not more arrivals, repetitions included, than a message may have fragments.  And whatever is put
together has the size and the hash that every fragment states, with no fragment missing. -/
theorem reassemble_iff_not_too_many (sodium : Sodium) :
    (∀ recipient genesis messageId ciphertext, verifyInvitation sodium recipient = true →
      recipient.genesis = genesis → 1 ≤ ciphertext.length →
      ciphertext.length ≤ maxCiphertextBytes →
      ∃ sent, fragmentCiphertext sodium recipient genesis messageId ciphertext = .ok sent ∧
        ∀ arrived : List Fragment, (∀ value, value ∈ arrived ↔ value ∈ sent) →
          (reassemble sodium arrived = .ok ciphertext ↔ arrived.length ≤ maxFragments)) ∧
    ∀ arrived result, reassemble sodium arrived = .ok result →
      arrived ≠ [] ∧ ∀ value ∈ arrived, result.length = value.ciphertextSize.toNat ∧
        sodium.sha256 result = value.ciphertextHash ∧
          ∀ i < value.count.toNat, ∃ other ∈ arrived,
            other.index.toNat = i ∧ other.Agrees value := by
  refine ⟨fun recipient genesis messageId ciphertext hverified hgenesis hpos hsize => ?_,
    fun arrived result h => reassemble_eq_ok h⟩
  have hne := List.ne_nil_of_length_pos hpos
  refine ⟨_, fragmentCiphertext_eq_ok_iff.mpr ⟨hverified, hgenesis, hne, hsize, rfl⟩,
    fun arrived hmem => ⟨fun h => ?_, fun hlen => ?_⟩⟩
  · rw [reassemble, throwIf_bind_eq_ok_iff] at h
    exact Nat.not_lt.mp (not_or.mp h.1).2
  · have hsent : ∀ value, value ∈ arrived ↔
        ∃ i < Chunks.count maxFragmentDataBytes ciphertext.length,
          fragmentAt sodium recipient genesis messageId ciphertext i = value := by
      intro value
      rw [hmem, List.mem_map]
      simp only [List.mem_range]
    exact reassemble_fragments hne hsize hsent hlen

/-! ## Primitives that compute

A signature is a hash of the message behind the public key, which is the front of the secret key.
A sealed box is the message behind the public key of its recipient, which is also the secret one. -/

def Sodium.sample : Sodium where
  sha256 := Crypto.sampleHash
  hmacSha256 _ message := Crypto.sampleHash message
  signDetached message secret :=
    ⟨secret.data.take 32 ++ (Crypto.sampleHash message).data, by simp⟩
  verifyDetached signature message key :=
    signature.data = key.data ++ (Crypto.sampleHash message).data
  boxSeal _ message key := some (key.data ++ (List.replicate 16 0 ++ message))
  boxSealOpen ciphertext key secret :=
    if key = secret ∧ ciphertext.take 48 = key.data ++ List.replicate 16 0
    then some (ciphertext.drop 48) else none

/-- The invitation that a holder of the keys with number `n` makes for genesis zero. -/
def sampleInvitation (n : ℕ) : Invitation :=
  let value : Invitation := {
    genesis := Block.zero 32
    invitationId := Block.ofNat 16 n
    boxPublic := sampleKey n
    signPublic := sampleKey n
    discoverySecret := Block.zero 32
    signature := Block.zero 64 }
  let secret : Block 64 := ⟨(sampleKey n).data ++ List.replicate 32 0, by simp⟩
  { value with signature := Sodium.sample.signDetached (invitationUnsigned value) secret }

/-- The only fragment of a one-byte ciphertext. -/
def sampleFragment : Fragment :=
  fragmentAt Sodium.sample (sampleInvitation 1) (Block.zero 32) (Block.zero 16) [7] 0

/-- The single fragment of a one-byte ciphertext, seen twice. -/
theorem reassemble_iff_not_too_many_sample :
    fragmentCiphertext Sodium.sample (sampleInvitation 1) (Block.zero 32) (Block.zero 16) [7] =
      .ok [sampleFragment] ∧
    reassemble Sodium.sample [sampleFragment, sampleFragment] = .ok [7] := by
  obtain ⟨sent, hsent, harrived⟩ := (reassemble_iff_not_too_many Sodium.sample).1
    (sampleInvitation 1) (Block.zero 32) (Block.zero 16) [7] (by decide +kernel) rfl (by decide)
    (by decide)
  have honly : sent = [sampleFragment] := (Except.ok.inj (hsent.symm.trans (by decide +kernel)))
  subst honly
  exact ⟨hsent, (harrived _ (by simp)).mpr (by decide)⟩

/-- A message whose only fragment has been seen seventeen times is not put together. -/
theorem repeated_fragment_is_refused :
    fragmentCiphertext Sodium.sample (sampleInvitation 1) (Block.zero 32) (Block.zero 16) [7] =
      .ok [sampleFragment] ∧
    reassemble Sodium.sample (List.replicate 17 sampleFragment) =
      .error "invalid QMS fragment set" := by
  constructor
  · decide +kernel
  · rfl

end Qwertycoin.Qms
