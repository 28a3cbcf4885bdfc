import Qwertycoin.Crypto

/-
# The extra field of a transaction

`tx_extra` is a sequence of tagged fields.  The reader is the one of the binary archive: a
variable-length integer may end with the input, padding runs to the end of the input, and a
string or a list of keys must fit in what is left.  The tolerant parser keeps the fields it read
before a failure; the strict one keeps all or nothing.
-/

namespace Qwertycoin

open Bytes

/-- `tx_extra_field` -/
inductive TxExtraField
  | padding (size : ℕ)
  | pubKey (key : PublicKey)
  | nonce (nonce : List UInt8)
  | mergeMiningTag (depth : UInt64) (merkleRoot : Hash)
  | additionalPubKeys (data : List PublicKey)
  | eposeV2 (data : List UInt8)
  | mysteriousMinergate (data : List UInt8)
deriving DecidableEq

def TxExtraField.isEposeV2 : TxExtraField → Bool
  | eposeV2 _ => true
  | _ => false

/-! ## Reading -/

/-- `tools::read_varint` for 64 bits, from the group at `shift` on.  Input that ends inside the
number is accepted with the groups read so far, except before the first one. -/
def readVarintFrom (shift acc : ℕ) : List UInt8 → Option (ℕ × List UInt8)
  | [] => if shift = 0 then none else some (acc, [])
  | byte :: rest =>
    -- EVARINT_OVERFLOW
    if 64 ≤ shift + 7 ∧ 2 ^ (64 - shift) ≤ byte.toNat then none
    -- EVARINT_REPRESENT
    else if byte = 0 ∧ shift ≠ 0 then none
    else if byte.toNat < 128 then some (acc + byte.toNat * 2 ^ shift, rest)
    else readVarintFrom (shift + 7) (acc + byte.toNat % 128 * 2 ^ shift) rest

def readVarint : Reader ℕ := readVarintFrom 0 0

/-- `do_serialize` of a `std::string`. -/
def readString : Reader (List UInt8) := do
  let size ← readVarint
  fun rest => if rest.length < size then none else some (rest.take size, rest.drop size)

/-- The load of `tx_extra_padding`, with `size - 1` zero bytes read so far. -/
def readPaddingFrom (size : ℕ) : List UInt8 → Option (ℕ × List UInt8)
  | [] => if size ≤ 255 then some (size, []) else none
  | byte :: rest => if size ≤ 255 ∧ byte = 0 then readPaddingFrom (size + 1) rest else none

def readKeys : ℕ → Reader (List PublicKey)
  | 0 => pure []
  | n + 1 => do
    let key ← Reader.block 32
    let keys ← readKeys n
    return key :: keys

/-- `do_serialize` of a vector of keys: the count is checked against the bytes left. -/
def readKeyVector : Reader (List PublicKey) := do
  let count ← readVarint
  fun rest => if rest.length < count then none else readKeys count rest

/-- The load of `tx_extra_merge_mining_tag` from its own string, which it must exhaust. -/
def readMergeMiningTag (field : List UInt8) : Option TxExtraField := do
  let (depth, rest) ← readVarint field
  let (root, rest) ← Reader.block 32 rest
  if rest = [] then some (.mergeMiningTag (UInt64.ofNat depth) root) else none

/-- `do_serialize` of a `tx_extra_field`. -/
def readField : Reader TxExtraField := do
  let tag ← Reader.byte
  if tag = 0x00 then return .padding (← readPaddingFrom 1)
  else if tag = 0x01 then return .pubKey (← Reader.block 32)
  else if tag = 0x02 then do
    let nonce ← readString
    if 255 < nonce.length then failure else return .nonce nonce
  else if tag = 0x03 then do
    let field ← readString
    StateT.lift (readMergeMiningTag field)
  else if tag = 0x04 then return .additionalPubKeys (← readKeyVector)
  else if tag = 0x05 then return .eposeV2 (← readString)
  else if tag = 0xde then return .mysteriousMinergate (← readString)
  else failure

/-- The loop of `parse_tx_extra_impl`: whether the input was read to its end, and the fields
read.  Every field consumes its tag, so the length of the input is enough fuel. -/
def parseFields (allowEposeV2 : Bool) : ℕ → List UInt8 → Bool × List TxExtraField
  | 0, _ => (false, [])
  | fuel + 1, bs =>
    match readField bs with
    | none => (false, [])
    | some (field, rest) =>
      if !allowEposeV2 && field.isEposeV2 then (false, [])
      else if rest = [] then (true, [field])
      else
        let (ok, fields) := parseFields allowEposeV2 fuel rest
        (ok, field :: fields)

/-- `parse_tx_extra`: the fields read before a failure are kept. -/
def parseTxExtra (extra : List UInt8) (allowEposeV2 : Bool) : Bool × List TxExtraField :=
  if extra = [] then (true, []) else parseFields allowEposeV2 extra.length extra

def parseTxExtraStrict (extra : List UInt8) (allowEposeV2 : Bool) :
    Option (List TxExtraField) :=
  match parseTxExtra extra allowEposeV2 with
  | (true, fields) => some fields
  | (false, _) => none

/-- `get_tx_pub_key_from_extra`: the tolerant parser stops at the first EPoSE field. -/
def getTxPubKeyFromExtra (extra : List UInt8) : PublicKey :=
  ((parseTxExtra extra false).2.findSome? fun
    | .pubKey key => some key
    | _ => none).getD nullPkey

/-! ## Writing -/

def writeString (data : List UInt8) : List UInt8 := varint data.length ++ data

/-- The store of a `tx_extra_field`, which refuses oversized padding and nonces. -/
def writeField : TxExtraField → Option (List UInt8)
  | .padding size => if 255 < size then none else some (0x00 :: List.replicate (size - 1) 0)
  | .pubKey key => some (0x01 :: key.data)
  | .nonce nonce => if 255 < nonce.length then none else some (0x02 :: writeString nonce)
  | .mergeMiningTag depth root => some (0x03 :: writeString (varint depth.toNat ++ root.data))
  | .additionalPubKeys data => some (0x04 :: (varint data.length ++ (data.map Block.data).flatten))
  | .eposeV2 data => some (0x05 :: writeString data)
  | .mysteriousMinergate data => some (0xde :: writeString data)

/-- `serialize_extra_fields` -/
def serializeExtraFields : List TxExtraField → Option (List UInt8)
  | [] => some []
  | field :: fields => do
    let bytes ← writeField field
    let rest ← serializeExtraFields fields
    return bytes ++ rest

end Qwertycoin
