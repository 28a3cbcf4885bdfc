import Qwertycoin.TxExtra

/-
# Transactions

The part of a transaction the protocol reads: inputs, outputs and the extra field.  Script inputs
and outputs are never interpreted and are kept as their serialized bytes, as are the signatures.
-/

namespace Qwertycoin

open Bytes

/-- `txin_v` -/
inductive TxIn
  | gen (height : ℕ)
  | script (data : List UInt8)
  | toKey (amount : UInt64) (keyOffsets : List UInt64) (keyImage : Block 32)
deriving DecidableEq

/-- `txout_target_v` -/
inductive TxOutTarget
  | script (data : List UInt8)
  | toKey (key : PublicKey)
  | toTaggedKey (key : PublicKey) (viewTag : UInt8)
deriving DecidableEq

structure TxOut where
  amount : UInt64
  target : TxOutTarget
deriving DecidableEq

structure Transaction where
  version : ℕ
  unlockTime : UInt64
  vin : List TxIn
  vout : List TxOut
  extra : List UInt8
  /-- The serialized signatures. -/
  signatures : List UInt8
deriving DecidableEq

/-- `get_output_public_key` -/
def getOutputPublicKey (out : TxOut) : Option PublicKey :=
  match out.target with
  | .toKey key => some key
  | .toTaggedKey key _ => some key
  | .script _ => none

/-- `get_output_view_tag` -/
def getOutputViewTag (out : TxOut) : Option UInt8 :=
  match out.target with
  | .toTaggedKey _ viewTag => some viewTag
  | _ => none

def isCoinbase (tx : Transaction) : Bool :=
  match tx.vin with
  | [.gen _] => true
  | _ => false

/-! ## Serialization -/

def TxIn.bytes : TxIn → List UInt8
  | gen height => 0xff :: varint height
  | script data => data
  | toKey amount keyOffsets keyImage =>
    0x02 :: (varint amount.toNat ++ varint keyOffsets.length ++
      keyOffsets.flatMap (fun offset => varint offset.toNat) ++ keyImage.data)

def TxOut.bytes (out : TxOut) : List UInt8 :=
  varint out.amount.toNat ++
    match out.target with
    | .script data => data
    | .toKey key => 0x02 :: key.data
    | .toTaggedKey key viewTag => 0x03 :: (key.data ++ [viewTag])

/-- `tx_to_blob`.  The serializer stops after a version it does not know. -/
def txToBlob (tx : Transaction) : List UInt8 :=
  varint tx.version ++
    if tx.version = 0 ∨ 2 < tx.version then []
    else
      varint tx.unlockTime.toNat ++ (varint tx.vin.length ++ tx.vin.flatMap TxIn.bytes) ++
        (varint tx.vout.length ++ tx.vout.flatMap TxOut.bytes) ++
        (varint tx.extra.length ++ tx.extra) ++ tx.signatures

/-- `sum_coinbase_outputs`, and the sum of amounts that fails on overflow. -/
def sumOutputs : List TxOut → UInt64 → Option UInt64
  | [], sum => some sum
  | out :: outs, sum => if uint64Max - out.amount < sum then none else sumOutputs outs (sum + out.amount)

end Qwertycoin
