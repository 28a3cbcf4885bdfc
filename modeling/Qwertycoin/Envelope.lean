import Qwertycoin.TxExtra

/-
# Record envelopes

EPoSE records travel in envelopes, and envelopes in the extra field of a transaction.  Parsing
an envelope checks its framing and charges every record against the limits before anything is
verified; the costs of the transactions of a block are added up against the limits of the block.
-/

namespace Qwertycoin

open Bytes

/-- `record_type_v2` -/
inductive RecordTypeV2
  | identityDescriptor
  | admissionLease
  | serviceReceipt
  | descriptorLifecycle
  | servicePaymentProof
deriving DecidableEq

namespace RecordTypeV2

def code : RecordTypeV2 → UInt8
  | identityDescriptor => 1
  | admissionLease => 2
  | serviceReceipt => 3
  | descriptorLifecycle => 4
  | servicePaymentProof => 5

/-- The record type a byte stands for. -/
def ofCode (type : UInt8) : Option RecordTypeV2 :=
  if type = 1 then some identityDescriptor
  else if type = 2 then some admissionLease
  else if type = 3 then some serviceReceipt
  else if type = 4 then some descriptorLifecycle
  else if type = 5 then some servicePaymentProof
  else none

lemma ofCode_eq_some_iff {type : UInt8} {kind : RecordTypeV2} :
    ofCode type = some kind ↔ type = kind.code := by
  constructor
  · intro h
    unfold ofCode at h
    split_ifs at h with h1 h2 h3 h4 h5 <;> cases h <;> assumption
  · rintro rfl
    cases kind <;> rfl

end RecordTypeV2

structure EnvelopeRecordV2 where
  type : UInt8 := 0
  version : UInt8 := 0
  payload : List UInt8 := []
deriving DecidableEq

structure EnvelopeLimitsV2 where
  maxEnvelopeBytes : ℕ
  maxRecords : ℕ
  maxRecordPayloadBytes : ℕ
  maxSignatureVerifications : ℕ
  maxAdmissionVerifications : ℕ
  /-- By record type; entry 0 is unused, and zero disables a type. -/
  supportedRecordVersions : Block 6
deriving DecidableEq

structure EnvelopeBudgetV2 where
  bytes : ℕ := 0
  records : ℕ := 0
  signatureVerifications : ℕ := 0
  admissionVerifications : ℕ := 0
deriving DecidableEq

structure BlockBudgetLimitsV2 where
  maxEposeBytes : ℕ
  maxRecords : ℕ
  maxSignatureVerifications : ℕ
  maxAdmissionVerifications : ℕ
deriving DecidableEq

/-- `envelope_status_v2`; `accepted` is the success of an `Except`. -/
inductive EnvelopeStatusV2
  | invalidLimits
  | oversizedEnvelope
  | malformedOuterField
  | noncanonicalVarint
  | wrongTag
  | badMagic
  | unsupportedEnvelopeVersion
  | nonzeroFlags
  | emptyEnvelope
  | envelopeCountExceeded
  | recordCountExceeded
  | recordCountMismatch
  | recordSizeMismatch
  | truncatedRecord
  | unknownRecordType
  | unsupportedRecordVersion
  | oversizedRecord
  | signatureBudgetExceeded
  | admissionBudgetExceeded
  | blockByteBudgetExceeded
  | blockRecordBudgetExceeded
  | blockSignatureBudgetExceeded
  | blockAdmissionBudgetExceeded
  | trailingBytes
  | inactiveProtocol
  | malformedTransactionExtra
deriving DecidableEq

/-- `EPOSE_TX_EXTRA_TAG_V2` -/
def eposeTxExtraTagV2 : ℕ := 0x05
/-- `EPOSE_ENVELOPE_VERSION_V2` -/
def eposeEnvelopeVersionV2 : UInt8 := 1
/-- `ENVELOPE_HEADER_SIZE` -/
def envelopeHeaderSize : ℕ := 12
/-- `RECORD_HEADER_SIZE` -/
def recordHeaderSize : ℕ := 8

def EnvelopeLimitsV2.valid (limits : EnvelopeLimitsV2) : Bool :=
  envelopeHeaderSize ≤ limits.maxEnvelopeBytes && 0 < limits.maxRecords &&
    0 < limits.maxRecordPayloadBytes && 0 < limits.maxSignatureVerifications &&
    0 < limits.maxAdmissionVerifications

def BlockBudgetLimitsV2.valid (limits : BlockBudgetLimitsV2) : Bool :=
  0 < limits.maxEposeBytes && 0 < limits.maxRecords && 0 < limits.maxSignatureVerifications &&
    0 < limits.maxAdmissionVerifications

/-! ## Costs -/

/-- Signature verifications charged for a record. -/
def RecordTypeV2.signatureCost : RecordTypeV2 → ℕ
  | identityDescriptor | serviceReceipt | descriptorLifecycle => 2
  | admissionLease => 0
  | servicePaymentProof => 1

/-- RandomX verifications charged for a record. -/
def RecordTypeV2.admissionCost : RecordTypeV2 → ℕ
  | admissionLease => 1
  | _ => 0

/-- `add_cost` -/
def addCost (type : UInt8) (budget : EnvelopeBudgetV2) : Option EnvelopeBudgetV2 :=
  (RecordTypeV2.ofCode type).map fun kind =>
    { budget with
      signatureVerifications := budget.signatureVerifications + kind.signatureCost
      admissionVerifications := budget.admissionVerifications + kind.admissionCost }

/-- `validate_record`: the budget with the cost of the record added. -/
def validateRecord (limits : EnvelopeLimitsV2) (record : EnvelopeRecordV2)
    (budget : EnvelopeBudgetV2) : Except EnvelopeStatusV2 EnvelopeBudgetV2 :=
  if record.type = 0 ∨ 6 ≤ record.type.toNat then .error .unknownRecordType
  else
    let supported := limits.supportedRecordVersions.data.getD record.type.toNat 0
    if supported = 0 ∨ record.version ≠ supported then .error .unsupportedRecordVersion
    else if limits.maxRecordPayloadBytes < record.payload.length then .error .oversizedRecord
    else
      match addCost record.type budget with
      | none => .error .unknownRecordType
      | some next =>
        if limits.maxSignatureVerifications < next.signatureVerifications then
          .error .signatureBudgetExceeded
        else if limits.maxAdmissionVerifications < next.admissionVerifications then
          .error .admissionBudgetExceeded
        else .ok next

/-! ## Envelopes -/

/-- The validation loop of `encode_envelope_v2`: the cost and the encoded size of the records,
starting from a cost and a size. -/
def validateRecords (limits : EnvelopeLimitsV2) :
    List EnvelopeRecordV2 → EnvelopeBudgetV2 → ℕ → Except EnvelopeStatusV2 (EnvelopeBudgetV2 × ℕ)
  | [], budget, size => .ok (budget, size)
  | record :: records, budget, size => do
    let budget ← validateRecord limits record budget
    let size := size + (recordHeaderSize + record.payload.length)
    -- a sum that overflows `size_t` is above the 32-bit limit as well
    if 0xffffffff < size then .error .oversizedEnvelope
    else validateRecords limits records budget size

/-- A record with its header. -/
def EnvelopeRecordV2.bytes (record : EnvelopeRecordV2) : List UInt8 :=
  record.type :: record.version :: (u16 0 ++ u32 (UInt32.ofNat record.payload.length) ++
    record.payload)

/-- The bytes `encode_envelope_v2` writes. -/
def envelopeBytes (records : List EnvelopeRecordV2) (size : ℕ) : List UInt8 :=
  ascii "QEP2" ++ [eposeEnvelopeVersionV2, 0] ++ u16 (UInt16.ofNat records.length) ++
    u32 (UInt32.ofNat size) ++ (records.map EnvelopeRecordV2.bytes).flatten

def encodeEnvelopeV2 (records : List EnvelopeRecordV2) (limits : EnvelopeLimitsV2) :
    Except EnvelopeStatusV2 (List UInt8 × EnvelopeBudgetV2) :=
  if !limits.valid then .error .invalidLimits
  else if records = [] then .error .emptyEnvelope
  else if limits.maxRecords < records.length ∨ 0xffff < records.length then
    .error .recordCountExceeded
  else do
    let (budget, size) ← validateRecords limits records {} 0
    if limits.maxEnvelopeBytes < envelopeHeaderSize + size then .error .oversizedEnvelope
    else
      let encoded := envelopeBytes records size
      .ok (encoded, { budget with bytes := encoded.length, records := records.length })

/-- The header of a record: type, version, flags and payload size. -/
def readRecordHeader : Reader (UInt8 × UInt8 × UInt16 × UInt32) := do
  let type ← Reader.byte
  let version ← Reader.byte
  let flags ← Reader.u16
  let size ← Reader.u32
  return (type, version, flags, size)

/-- The record loop of `parse_envelope_v2`, reading `n` records from the rest of the input. -/
def parseRecords (limits : EnvelopeLimitsV2) : ℕ → EnvelopeBudgetV2 → List UInt8 →
    Except EnvelopeStatusV2 (List EnvelopeRecordV2 × EnvelopeBudgetV2 × List UInt8)
  | 0, budget, rest => .ok ([], budget, rest)
  | n + 1, budget, rest =>
    match readRecordHeader rest with
    | none => .error .truncatedRecord
    | some ((type, version, flags, size), rest) =>
      if flags ≠ 0 then .error .nonzeroFlags
      else if limits.maxRecordPayloadBytes < size.toNat then .error .oversizedRecord
      else if rest.length < size.toNat then .error .truncatedRecord
      else do
        let record := { type, version, payload := rest.take size.toNat : EnvelopeRecordV2 }
        let budget ← validateRecord limits record budget
        let (records, budget, rest) ← parseRecords limits n budget (rest.drop size.toNat)
        return (record :: records, budget, rest)

/-- The checks of `parse_envelope_v2` on the envelope as such: the number of records and the
bytes they are read from. -/
def readEnvelopeHeader (encoded : List UInt8) (limits : EnvelopeLimitsV2) :
    Except EnvelopeStatusV2 (ℕ × List UInt8) :=
  if !limits.valid then .error .invalidLimits
  else if limits.maxEnvelopeBytes < encoded.length then .error .oversizedEnvelope
  else if encoded.length < envelopeHeaderSize then .error .malformedOuterField
  else if encoded.take 4 ≠ ascii "QEP2" then .error .badMagic
  else if encoded[4]? ≠ some eposeEnvelopeVersionV2 then .error .unsupportedEnvelopeVersion
  else if encoded[5]? ≠ some 0 then .error .nonzeroFlags
  else
    match (do return (← Reader.u16, ← Reader.u32) : Reader _) (encoded.drop 6) with
    | none => .error .malformedOuterField
    | some ((count, size), body) =>
      if limits.maxRecords < count.toNat then .error .recordCountExceeded
      else if count = 0 then .error .emptyEnvelope
      else if size.toNat ≠ body.length then .error .recordSizeMismatch
      else if size.toNat / recordHeaderSize < count.toNat then .error .recordCountMismatch
      else .ok (count.toNat, body)

def parseEnvelopeV2 (encoded : List UInt8) (limits : EnvelopeLimitsV2) :
    Except EnvelopeStatusV2 (List EnvelopeRecordV2 × EnvelopeBudgetV2) := do
  let (count, body) ← readEnvelopeHeader encoded limits
  let (records, budget, rest) ← parseRecords limits count {} body
  if rest ≠ [] then .error .trailingBytes
  else .ok (records, { budget with bytes := encoded.length, records := records.length })

/-! ## Envelopes in the extra field -/

/-- `read_canonical_varint` from group `index` on, with the number of bytes read before: the
value and whether it was written in its shortest form. -/
def readCanonicalVarintFrom (index acc : ℕ) : List UInt8 → Option ((ℕ × Bool) × List UInt8)
  | [] => none
  | byte :: rest =>
    if index = 10 then none
    else if index = 9 ∧ 2 ≤ byte.toNat then none
    else if byte.toNat < 128 then
      let value := acc + byte.toNat * 2 ^ (7 * index)
      some ((value, (varint value).length = index + 1), rest)
    else readCanonicalVarintFrom (index + 1) (acc + byte.toNat % 128 * 2 ^ (7 * index)) rest

def readCanonicalVarint : Reader (ℕ × Bool) := readCanonicalVarintFrom 0 0

/-- The field `parse_transaction_extra_v2` rebuilds around the bytes of an envelope. -/
def framedEnvelope (data : List UInt8) : List UInt8 :=
  varint eposeTxExtraTagV2 ++ varint data.length ++ data

def parseTxExtraEnvelopeFieldV2 (field : List UInt8) (limits : EnvelopeLimitsV2) :
    Except EnvelopeStatusV2 (List EnvelopeRecordV2 × EnvelopeBudgetV2) :=
  if !limits.valid then .error .invalidLimits
  else
    match readCanonicalVarint field with
    | none => .error .malformedOuterField
    | some ((tag, canonical), rest) =>
      if !canonical then .error .noncanonicalVarint
      else if tag ≠ eposeTxExtraTagV2 then .error .wrongTag
      else
        match readCanonicalVarint rest with
        | none => .error .malformedOuterField
        | some ((size, canonical), rest) =>
          if !canonical then .error .noncanonicalVarint
          else if limits.maxEnvelopeBytes < size then .error .oversizedEnvelope
          else if size ≠ rest.length then .error .malformedOuterField
          else do
            let (records, budget) ← parseEnvelopeV2 rest limits
            return (records, { budget with bytes := field.length })

/-- `checked_add` on `size_t`: the sum, unless it is not representable. -/
def addSize (left right : ℕ) : Option ℕ :=
  if sizeMax < left + right then none else some (left + right)

/-- The sum of two budgets, field by field, failing with the given status of the field that
overflows. -/
def addBudget (total next : EnvelopeBudgetV2) : Except EnvelopeStatusV2 EnvelopeBudgetV2 := do
  let bytes ← (addSize total.bytes next.bytes).elim (.error .oversizedEnvelope) .ok
  let records ← (addSize total.records next.records).elim (.error .recordCountExceeded) .ok
  let signatureVerifications ← (addSize total.signatureVerifications
    next.signatureVerifications).elim (.error .signatureBudgetExceeded) .ok
  let admissionVerifications ← (addSize total.admissionVerifications
    next.admissionVerifications).elim (.error .admissionBudgetExceeded) .ok
  return { bytes, records, signatureVerifications, admissionVerifications }

/-- The loop of `parse_transaction_envelope_fields_v2` from the records and the budget of the
fields before. -/
def parseEnvelopeFields (limits : EnvelopeLimitsV2) : List (List UInt8) →
    List EnvelopeRecordV2 → EnvelopeBudgetV2 →
    Except EnvelopeStatusV2 (List EnvelopeRecordV2 × EnvelopeBudgetV2)
  | [], records, budget => .ok (records, budget)
  | field :: fields, records, budget => do
    let (parsed, fieldBudget) ← parseTxExtraEnvelopeFieldV2 field limits
    let budget ← addBudget budget fieldBudget
    parseEnvelopeFields limits fields (records ++ parsed) budget

def parseTransactionEnvelopeFieldsV2 (fields : List (List UInt8))
    (maxEnvelopesPerTransaction : ℕ) (limits : EnvelopeLimitsV2) :
    Except EnvelopeStatusV2 (List EnvelopeRecordV2 × EnvelopeBudgetV2) :=
  if !limits.valid || maxEnvelopesPerTransaction = 0 then .error .invalidLimits
  else if maxEnvelopesPerTransaction < fields.length then .error .envelopeCountExceeded
  else parseEnvelopeFields limits fields [] {}

/-- `charge_block_budget_v2` -/
def chargeBlockBudgetV2 (transactionBudget : EnvelopeBudgetV2) (limits : BlockBudgetLimitsV2)
    (blockBudget : EnvelopeBudgetV2) : Except EnvelopeStatusV2 EnvelopeBudgetV2 :=
  let charge (total next limit : ℕ) (status : EnvelopeStatusV2) : Except EnvelopeStatusV2 ℕ :=
    match addSize total next with
    | none => .error status
    | some sum => if limit < sum then .error status else .ok sum
  if !limits.valid then .error .invalidLimits
  else do
    let bytes ← charge blockBudget.bytes transactionBudget.bytes
      limits.maxEposeBytes .blockByteBudgetExceeded
    let records ← charge blockBudget.records transactionBudget.records
      limits.maxRecords .blockRecordBudgetExceeded
    let signatureVerifications ← charge blockBudget.signatureVerifications
      transactionBudget.signatureVerifications
      limits.maxSignatureVerifications .blockSignatureBudgetExceeded
    let admissionVerifications ← charge blockBudget.admissionVerifications
      transactionBudget.admissionVerifications
      limits.maxAdmissionVerifications .blockAdmissionBudgetExceeded
    return { bytes, records, signatureVerifications, admissionVerifications }

/-- The payloads of the EPoSE fields, in order. -/
def eposePayloads (fields : List TxExtraField) : List (List UInt8) :=
  fields.filterMap fun
    | .eposeV2 data => some data
    | _ => none

def parseTransactionExtraV2 (extra : List UInt8) (majorVersion : UInt8)
    (maxEnvelopesPerTransaction : ℕ) (limits : EnvelopeLimitsV2) :
    Except EnvelopeStatusV2 (List EnvelopeRecordV2 × EnvelopeBudgetV2) :=
  if !isQwcEposeV2Hardfork majorVersion then .error .inactiveProtocol
  else if !limits.valid || maxEnvelopesPerTransaction = 0 then .error .invalidLimits
  else
    match parseTxExtraStrict extra true with
    | none => .error .malformedTransactionExtra
    | some fields =>
      if serializeExtraFields fields ≠ some extra then .error .noncanonicalVarint
      else
        let envelopeFields := (eposePayloads fields).map framedEnvelope
        if maxEnvelopesPerTransaction < envelopeFields.length then .error .envelopeCountExceeded
        else if envelopeFields = [] then .ok ([], {})
        else parseTransactionEnvelopeFieldsV2 envelopeFields maxEnvelopesPerTransaction limits

/-- `append_transaction_envelope_v2`: the extra field with one more envelope. -/
def appendTransactionEnvelopeV2 (records : List EnvelopeRecordV2) (majorVersion : UInt8)
    (maxEnvelopesPerTransaction : ℕ) (limits : EnvelopeLimitsV2) (extra : List UInt8) :
    Except EnvelopeStatusV2 (List UInt8 × EnvelopeBudgetV2) :=
  if !isQwcEposeV2Hardfork majorVersion then .error .inactiveProtocol
  else if !limits.valid || maxEnvelopesPerTransaction = 0 then .error .invalidLimits
  else do
    let _ ← parseTransactionExtraV2 extra majorVersion maxEnvelopesPerTransaction limits
    match parseTxExtraStrict extra true with
    | none => .error .malformedTransactionExtra
    | some fields =>
      if maxEnvelopesPerTransaction ≤ (eposePayloads fields).length then
        .error .envelopeCountExceeded
      else do
        let (envelope, budget) ← encodeEnvelopeV2 records limits
        match writeField (.eposeV2 envelope) with
        | none => .error .malformedTransactionExtra
        | some field =>
          .ok (extra ++ field, { budget with
            bytes := budget.bytes + (1 + (varint envelope.length).length) })

/-- The loop of `strip_transaction_record_type_v2`: the fields left, and how many records were
removed. -/
def stripFields (limits : EnvelopeLimitsV2) (type : RecordTypeV2) :
    List TxExtraField → Except EnvelopeStatusV2 (List TxExtraField × ℕ)
  | [] => .ok ([], 0)
  | .eposeV2 data :: fields => do
    let (records, _) ← parseEnvelopeV2 data limits
    let kept := records.filter (fun record => record.type ≠ type.code)
    let removed := records.length - kept.length
    if kept = [] then do
      let (next, others) ← stripFields limits type fields
      return (next, removed + others)
    else do
      let (encoded, _) ← encodeEnvelopeV2 kept limits
      let (next, others) ← stripFields limits type fields
      return (.eposeV2 encoded :: next, removed + others)
  | field :: fields => do
    let (next, others) ← stripFields limits type fields
    return (field :: next, others)

/-- `strip_transaction_record_type_v2`.  The number of envelopes and of removed records is
bounded by the parse before the loop, so the loop's own bounds never fire. -/
def stripTransactionRecordTypeV2 (extra : List UInt8) (majorVersion : UInt8)
    (maxEnvelopesPerTransaction : ℕ) (limits : EnvelopeLimitsV2) (type : RecordTypeV2) :
    Except EnvelopeStatusV2 (List UInt8 × ℕ) :=
  if !isQwcEposeV2Hardfork majorVersion then .error .inactiveProtocol
  else if !limits.valid || maxEnvelopesPerTransaction = 0 then .error .invalidLimits
  else do
    let _ ← parseTransactionExtraV2 extra majorVersion maxEnvelopesPerTransaction limits
    match parseTxExtraStrict extra true with
    | none => .error .malformedTransactionExtra
    | some fields =>
      let (next, removed) ← stripFields limits type fields
      match serializeExtraFields next with
      | none => .error .malformedTransactionExtra
      | some stripped => .ok (stripped, removed)

/-! ## What a parse charges -/

section Charges

variable {ε α β : Type}

/-- A sequence of fallible computations succeeds when each of them does. -/
lemma except_bind_eq_ok_iff {x : Except ε α} {f : α → Except ε β} {b : β} :
    x >>= f = .ok b ↔ ∃ a, x = .ok a ∧ f a = .ok b := by
  constructor
  · intro h
    cases x with
    | error e => cases h
    | ok a => exact ⟨a, rfl, h⟩
  · rintro ⟨a, rfl, h⟩
    exact h

lemma addSize_eq_some_iff {left right sum : ℕ} :
    addSize left right = some sum ↔ sum = left + right ∧ sum ≤ sizeMax := by
  simp only [addSize]
  split_ifs with h
  · simp only [false_iff, not_and]
    omega
  · simp only [Option.some.injEq]
    omega

/-- The verifications charged for a record: signatures, then RandomX evaluations. -/
def EnvelopeRecordV2.cost (record : EnvelopeRecordV2) : ℕ × ℕ :=
  ((RecordTypeV2.ofCode record.type).map fun kind =>
    (kind.signatureCost, kind.admissionCost)).getD 0

/-- The verifications charged for a list of records. -/
def recordCosts (records : List EnvelopeRecordV2) : ℕ × ℕ :=
  (records.map EnvelopeRecordV2.cost).sum

/-- The verifications a budget holds: signatures, then RandomX evaluations. -/
def EnvelopeBudgetV2.amounts (budget : EnvelopeBudgetV2) : ℕ × ℕ :=
  (budget.signatureVerifications, budget.admissionVerifications)

/-- The verifications the limits of a block allow. -/
def BlockBudgetLimitsV2.amounts (limits : BlockBudgetLimitsV2) : ℕ × ℕ :=
  (limits.maxSignatureVerifications, limits.maxAdmissionVerifications)

@[simp] lemma recordCosts_nil : recordCosts [] = 0 := rfl

@[simp] lemma recordCosts_cons (record : EnvelopeRecordV2) (records : List EnvelopeRecordV2) :
    recordCosts (record :: records) = record.cost + recordCosts records := by
  simp [recordCosts]

@[simp] lemma recordCosts_append (records records' : List EnvelopeRecordV2) :
    recordCosts (records ++ records') = recordCosts records + recordCosts records' := by
  simp [recordCosts]

variable {limits : EnvelopeLimitsV2} {budget budget' : EnvelopeBudgetV2}
  {record : EnvelopeRecordV2} {records : List EnvelopeRecordV2}

lemma validateRecord_amounts (h : validateRecord limits record budget = .ok budget') :
    budget'.amounts = budget.amounts + record.cost := by
  simp only [validateRecord] at h
  split_ifs at h
  split at h
  · cases h
  rename_i next hcost
  split_ifs at h
  cases h
  simp only [addCost, Option.map_eq_some_iff] at hcost
  obtain ⟨kind, hkind, rfl⟩ := hcost
  simp [EnvelopeRecordV2.cost, hkind, EnvelopeBudgetV2.amounts]

lemma parseRecords_amounts {n : ℕ} {bytes rest : List UInt8}
    (h : parseRecords limits n budget bytes = .ok (records, budget', rest)) :
    budget'.amounts = budget.amounts + recordCosts records := by
  induction n generalizing budget bytes records with
  | zero =>
    cases h
    rfl
  | succ n ih =>
    simp only [parseRecords] at h
    split at h
    · cases h
    split_ifs at h
    obtain ⟨next, hvalidate, h⟩ := except_bind_eq_ok_iff.mp h
    obtain ⟨⟨tail, final, rest'⟩, htail, h⟩ := except_bind_eq_ok_iff.mp h
    cases h
    rw [ih htail, validateRecord_amounts hvalidate, recordCosts_cons, add_assoc]

lemma parseEnvelopeV2_amounts {encoded : List UInt8}
    (h : parseEnvelopeV2 encoded limits = .ok (records, budget)) :
    budget.amounts = recordCosts records := by
  simp only [parseEnvelopeV2] at h
  obtain ⟨⟨count, body⟩, -, h⟩ := except_bind_eq_ok_iff.mp h
  obtain ⟨⟨parsed, final, rest⟩, hparse, h⟩ := except_bind_eq_ok_iff.mp h
  have hamounts : final.amounts = 0 + recordCosts parsed := parseRecords_amounts hparse
  split_ifs at h
  cases h
  rwa [zero_add] at hamounts

lemma parseTxExtraEnvelopeFieldV2_amounts {field : List UInt8}
    (h : parseTxExtraEnvelopeFieldV2 field limits = .ok (records, budget)) :
    budget.amounts = recordCosts records := by
  simp only [parseTxExtraEnvelopeFieldV2] at h
  split_ifs at h
  split at h
  · cases h
  split_ifs at h
  split at h
  · cases h
  split_ifs at h
  obtain ⟨⟨parsed, final⟩, hparse, h⟩ := except_bind_eq_ok_iff.mp h
  have hamounts := parseEnvelopeV2_amounts hparse
  cases h
  exact hamounts

lemma addSize_elim_eq_ok {left right sum : ℕ} {status : EnvelopeStatusV2}
    (h : (addSize left right).elim (Except.error status) Except.ok = Except.ok sum) :
    sum = left + right := by
  cases hsum : addSize left right with
  | none => simp [hsum] at h
  | some total =>
    rw [hsum] at h
    cases h
    exact (addSize_eq_some_iff.mp hsum).1

lemma addBudget_amounts {next : EnvelopeBudgetV2} (h : addBudget budget next = .ok budget') :
    budget'.amounts = budget.amounts + next.amounts := by
  simp only [addBudget] at h
  obtain ⟨bytes, -, h⟩ := except_bind_eq_ok_iff.mp h
  obtain ⟨count, -, h⟩ := except_bind_eq_ok_iff.mp h
  obtain ⟨signatures, hsignatures, h⟩ := except_bind_eq_ok_iff.mp h
  obtain ⟨admissions, hadmissions, h⟩ := except_bind_eq_ok_iff.mp h
  cases h
  exact Prod.ext (addSize_elim_eq_ok hsignatures) (addSize_elim_eq_ok hadmissions)

lemma parseEnvelopeFields_amounts {fields : List (List UInt8)}
    {before : List EnvelopeRecordV2}
    (h : parseEnvelopeFields limits fields before budget = .ok (records, budget'))
    (hbefore : budget.amounts = recordCosts before) :
    budget'.amounts = recordCosts records := by
  induction fields generalizing before budget with
  | nil =>
    cases h
    exact hbefore
  | cons field fields ih =>
    simp only [parseEnvelopeFields] at h
    obtain ⟨⟨parsed, fieldBudget⟩, hfield, h⟩ := except_bind_eq_ok_iff.mp h
    obtain ⟨next, hadd, h⟩ := except_bind_eq_ok_iff.mp h
    refine ih h ?_
    rw [addBudget_amounts hadd, hbefore, parseTxExtraEnvelopeFieldV2_amounts hfield,
      recordCosts_append]

lemma parseTransactionExtraV2_amounts {extra : List UInt8} {majorVersion : UInt8} {max : ℕ}
    (h : parseTransactionExtraV2 extra majorVersion max limits = .ok (records, budget)) :
    budget.amounts = recordCosts records := by
  simp only [parseTransactionExtraV2] at h
  split_ifs at h
  split at h
  · cases h
  split_ifs at h
  · cases h
    rfl
  · simp only [parseTransactionEnvelopeFieldsV2] at h
    split_ifs at h
    exact parseEnvelopeFields_amounts h rfl

/-- A transaction that is charged to a block stays within the limits of the block. -/
lemma chargeBlockBudgetV2_amounts {blockLimits : BlockBudgetLimitsV2}
    {next : EnvelopeBudgetV2} (h : chargeBlockBudgetV2 next blockLimits budget = .ok budget') :
    budget'.amounts = budget.amounts + next.amounts ∧ budget'.amounts ≤ blockLimits.amounts ∧
      budget'.signatureVerifications ≤ sizeMax := by
  simp only [chargeBlockBudgetV2] at h
  split_ifs at h
  obtain ⟨bytes, -, h⟩ := except_bind_eq_ok_iff.mp h
  obtain ⟨count, -, h⟩ := except_bind_eq_ok_iff.mp h
  obtain ⟨signatures, hsignatures, h⟩ := except_bind_eq_ok_iff.mp h
  obtain ⟨admissions, hadmissions, h⟩ := except_bind_eq_ok_iff.mp h
  cases h
  split at hsignatures
  · cases hsignatures
  rename_i sum hsum
  split_ifs at hsignatures with hsignatureLimit
  split at hadmissions
  · cases hadmissions
  rename_i sum' hsum'
  split_ifs at hadmissions with hadmissionLimit
  cases hsignatures
  cases hadmissions
  obtain ⟨hsignatures, hmax⟩ := addSize_eq_some_iff.mp hsum
  exact ⟨Prod.ext hsignatures (addSize_eq_some_iff.mp hsum').1,
    ⟨not_lt.mp hsignatureLimit, not_lt.mp hadmissionLimit⟩, hmax⟩

lemma parseTransactionExtraV2_nil {majorVersion : UInt8} {max : ℕ}
    (hactive : isQwcEposeV2Hardfork majorVersion = true) (hlimits : limits.valid = true)
    (hmax : 0 < max) : parseTransactionExtraV2 [] majorVersion max limits = .ok ([], {}) := by
  have hstrict : parseTxExtraStrict [] true = some [] := rfl
  have hserialize : serializeExtraFields [] = some [] := rfl
  have hpayloads : (eposePayloads []).map framedEnvelope = [] := rfl
  unfold parseTransactionExtraV2
  rw [if_neg (by simp [hactive]), if_neg (by simp [hlimits, Nat.pos_iff_ne_zero.mp hmax]), hstrict]
  dsimp only
  rw [if_neg (not_not.mpr hserialize), hpayloads, if_neg (by simp), if_pos rfl]

lemma chargeBlockBudgetV2_zero {blockLimits : BlockBudgetLimitsV2}
    (hlimits : blockLimits.valid = true) : chargeBlockBudgetV2 {} blockLimits {} = .ok {} := by
  simp [chargeBlockBudgetV2, hlimits, addSize, bind, Except.bind, pure, Except.pure]

end Charges

end Qwertycoin
