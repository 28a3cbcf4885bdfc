import Qwertycoin.Lib.Bytes

/-
# Keys, hashes and networks

The cryptographic primitives enter the model as parameters: every definition that hashes, signs
or derives a key takes a `Crypto`, and what a result assumes about a primitive is a hypothesis of
that result.
-/

namespace Qwertycoin

open Bytes

/-- `crypto::hash` -/
abbrev Hash := Block 32
/-- `crypto::public_key` -/
abbrev PublicKey := Block 32
/-- `crypto::secret_key` -/
abbrev SecretKey := Block 32
/-- `crypto::key_derivation`; it has the size of a public key and is copied from and to one. -/
abbrev KeyDerivation := Block 32
/-- `crypto::signature` -/
abbrev Signature := Block 64

/-- `crypto::null_hash` -/
def nullHash : Hash := Block.zero 32
/-- `crypto::null_pkey` -/
def nullPkey : PublicKey := Block.zero 32

/-- The primitives the program calls.  A primitive that can fail returns an `Option`. -/
structure Crypto where
  cnFastHash : List UInt8 → Hash
  /-- RandomX, seeded by a block hash. -/
  rxSlowHash : Hash → List UInt8 → Hash
  checkKey : PublicKey → Bool
  secretKeyToPublicKey : SecretKey → Option PublicKey
  generateSignature : Hash → PublicKey → SecretKey → Signature
  checkSignature : Hash → PublicKey → Signature → Bool
  generateKeyDerivation : PublicKey → SecretKey → Option KeyDerivation
  derivePublicKey : KeyDerivation → ℕ → PublicKey → Option PublicKey
  /-- The spend key an output key comes from under a derivation. -/
  deriveSubaddressPublicKey : PublicKey → KeyDerivation → ℕ → Option PublicKey
  deriveViewTag : KeyDerivation → ℕ → UInt8
  /-- The transaction proof of version 2 without a subaddress key: message, transaction key,
  view key, derivation and transaction secret key. -/
  generateTxProof : Hash → PublicKey → PublicKey → PublicKey → SecretKey → Signature
  checkTxProof : Hash → PublicKey → PublicKey → PublicKey → Signature → Bool

/-- `std::numeric_limits<size_t>::max()` -/
def sizeMax : ℕ := 2 ^ 64 - 1

/-- `std::numeric_limits<uint64_t>::max()` -/
def uint64Max : UInt64 := 0xffffffffffffffff

@[simp] lemma toNat_uint64Max : uint64Max.toNat = 2 ^ 64 - 1 := rfl

/-- The bytes of a string literal. -/
def ascii (s : String) : List UInt8 := s.toUTF8.data.toList

/-- `cryptonote::network_type` -/
inductive NetworkType
  | mainnet
  | testnet
  | stagenet
  | fakechain
  | undefined
deriving DecidableEq

/-- `get_config(nettype).NETWORK_ID`; the configuration of an undefined network is never read. -/
def networkId : NetworkType → List UInt8
  | .mainnet | .fakechain =>
    [0x51, 0x57, 0x43, 0x32, 0x4d, 0x41, 0x49, 0x4e, 0x32, 0x30, 0x32, 0x36, 0x52, 0x30, 0x31, 0x02]
  | .testnet =>
    [0x51, 0x57, 0x43, 0x32, 0x54, 0x45, 0x53, 0x54, 0x32, 0x30, 0x32, 0x36, 0x50, 0x4f, 0x43, 0x02]
  | .stagenet =>
    [0x51, 0x57, 0x43, 0x32, 0x53, 0x54, 0x41, 0x47, 0x32, 0x30, 0x32, 0x36, 0x50, 0x4f, 0x43, 0x03]
  | .undefined => []

/-- The triple that scopes every hash of the protocol: the network, its genesis block and the
hash of its parameter set. -/
structure Scope where
  nettype : NetworkType
  genesisHash : Hash
  parameterSetHash : Hash
deriving DecidableEq

/-- No part of the scope is missing. -/
def Scope.valid (net : Scope) : Bool :=
  net.nettype ≠ .undefined && net.genesisHash ≠ nullHash && net.parameterSetHash ≠ nullHash

/-- The bytes every scoped hash starts with, after its domain string. -/
def Scope.bytes (net : Scope) : List UInt8 :=
  networkId net.nettype ++ net.genesisHash.data ++ net.parameterSetHash.data

/-- `cryptonote::account_public_address` -/
structure AccountPublicAddress where
  spendPublicKey : PublicKey
  viewPublicKey : PublicKey
deriving DecidableEq, Inhabited

/-- A key that is not null and on the curve. -/
def Crypto.validKey (cr : Crypto) (key : PublicKey) : Bool := key ≠ nullPkey && cr.checkKey key

/-- `verification_counters_v2`: attempted RandomX and signature verifications. -/
@[ext] structure VerificationCountersV2 where
  randomx : ℕ := 0
  signatures : ℕ := 0
deriving DecidableEq

/-- `HF_VERSION_QWC_EPOSE` -/
def hfVersionQwcEpose : UInt8 := 17

def isQwcEposeV2Hardfork (version : UInt8) : Bool := hfVersionQwcEpose ≤ version

/-! ## Primitives that compute

An instance of the primitives in which concrete runs are computed.  Keys are numbers, a secret key
is its own public key, a derivation is a sum, and a hash is a tag followed by the end of its input.
It is of no use as cryptography, but it has the properties that results assume of the primitives:
hashes are not null, both sides agree on a derivation, a derivation and an index determine the
output key as long as they are small, and a transaction proof holds for the right derivation
only. -/

namespace Crypto

/-- A hash that is never null. -/
def sampleHash (bytes : List UInt8) : Hash :=
  ⟨1 :: (List.replicate 31 0 ++ bytes).drop bytes.length, by
    simp only [List.length_cons, List.length_drop, List.length_append, List.length_replicate]
    omega⟩

def sample : Crypto where
  cnFastHash := sampleHash
  rxSlowHash _ _ := nullHash
  checkKey _ := true
  secretKeyToPublicKey key := some key
  generateSignature message key _ := ⟨message.data ++ key.data, by simp⟩
  checkSignature message key signature := signature.data = message.data ++ key.data
  generateKeyDerivation key secret := some (Block.ofNat 32 (leValue key.data + leValue secret.data))
  derivePublicKey derivation index key :=
    some (Block.ofNat 32 (leValue derivation.data * 2 ^ 16 + index + leValue key.data))
  deriveSubaddressPublicKey key derivation index :=
    some (Block.ofNat 32 (leValue key.data - (leValue derivation.data * 2 ^ 16 + index)))
  deriveViewTag derivation index := UInt8.ofNat (leValue derivation.data / 256 + index)
  generateTxProof message transactionKey _ _ _ := ⟨message.data ++ transactionKey.data, by simp⟩
  checkTxProof message transactionKey viewKey derivation signature :=
    signature.data = message.data ++ transactionKey.data &&
      leValue transactionKey.data + leValue viewKey.data = leValue derivation.data + 1

lemma sample_cnFastHash_ne_nullHash (bytes : List UInt8) : sample.cnFastHash bytes ≠ nullHash := by
  intro h
  have hhead := congrArg (fun hash : Hash => hash.data.head?) h
  simp [sample, sampleHash, nullHash, Block.zero] at hhead

end Crypto

/-- The scope of concrete runs. -/
def Scope.sample : Scope := ⟨.testnet, Block.ofNat 32 1, Block.ofNat 32 2⟩

/-- The keys of concrete runs.  A sample hash ignores the first byte of a key it ends with, so the
number is kept in the others. -/
def sampleKey (n : ℕ) : PublicKey := Block.ofNat 32 (256 * n)

end Qwertycoin
