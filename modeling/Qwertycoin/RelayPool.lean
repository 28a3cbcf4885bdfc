import Qwertycoin.EnvelopeCodec
import Qwertycoin.Journal
import Qwertycoin.RelayTemplate

/-
# The pool of relayed records

A node keeps the records it may still mine, in two lists at once: the records themselves and the
items of the deadline queue.  From a height on, receipts are deduplicated by the slot they fill, so
that signing a receipt again does not take room.  Every call keeps the two lists in step, and a
second call at the same height finds what the first has left.
-/

namespace Qwertycoin

open Bytes

/-! ## Policies and records -/

structure RelayPolicyV2 where
  queue : RelayQueueLimitsV2
  miningTemplate : RelayTemplateLimitsV2
  receiptSlotDedupHeight : UInt64 := uint64Max
deriving DecidableEq

def RelayPolicyV2.valid (policy : RelayPolicyV2) : Bool :=
  policy.queue.valid && policy.miningTemplate.valid &&
    policy.miningTemplate.maxItems ≤ policy.queue.maxItems &&
    policy.miningTemplate.maxBytes ≤ policy.queue.maxBytes

/-- `relay_record_status_v2` -/
inductive RelayRecordStatusV2
  | accepted
  | idempotentDuplicate
  | receiptSlotVariant
  | invalidConfiguration
  | invalidRecord
  | paymentProofForbidden
  | expired
  | full
  | conflict
deriving DecidableEq

/-- `relay_ingress_status_v2` -/
inductive RelayIngressStatusV2
  | accepted
  | invalidConfiguration
  | invalidBatch
  | expired
  | capacityExhausted
deriving DecidableEq

/-- `relay_id` -/
def relayId (cr : Crypto) (canonicalEnvelope : List UInt8) : Hash :=
  cr.cnFastHash (ascii "QWC_EPOSE_RELAY_RECORD_V2" ++ canonicalEnvelope)

/-- `receipt_slot`: empty for a record that is no receipt. -/
def receiptSlot (record : EnvelopeRecordV2) : List UInt8 :=
  match decodeServiceReceiptRecordStructureV2 record with
  | .error _ => []
  | .ok receipt =>
    ascii "QWC_EPOSE_RECEIPT_SLOT_V2" ++ [receipt.challenge.serviceKind] ++
      u64 receipt.challenge.epoch ++ u64 receipt.challenge.round ++
      receipt.challenge.subjectPublicKey.data ++ receipt.challenge.verifierPublicKey.data

/-- `receipt_context`: empty for a record that is no receipt. -/
def receiptContext (record : EnvelopeRecordV2) : List UInt8 :=
  match decodeServiceReceiptRecordStructureV2 record with
  | .error _ => []
  | .ok receipt =>
    ascii "QWC_EPOSE_RECEIPT_CONTEXT_V2" ++ receipt.challenge.snapshotHash.data ++
      receipt.challenge.anchorHash.data

/-- `stored_record_v2` -/
structure StoredRecordV2 where
  id : Hash
  record : EnvelopeRecordV2
  deadlineHeight : UInt64
  receiptSlot : List UInt8
  receiptContext : List UInt8
deriving DecidableEq

/-- The counters of `relay_pool_diagnostics_v2` that the pool keeps. -/
structure RelayPoolDiagnosticsV2 where
  exactDuplicates : UInt64 := 0
  slotVariants : UInt64 := 0
  expiredRoundReceipts : UInt64 := 0
  invalidContextReceipts : UInt64 := 0
  canonicalReceipts : UInt64 := 0
  capacityRejections : UInt64 := 0
  templateSelectedReceipts : UInt64 := 0
deriving DecidableEq

/-- `increment_saturated` -/
def incrementSaturated (value amount : UInt64) : UInt64 :=
  if uint64Max - value < amount then uint64Max else value + amount

/-- What a `relay_record_pool_v2` is constructed with. -/
structure RelayPoolParametersV2 where
  timing : EpochTimingV2
  committeePolicy : CommitteePolicyV2
  envelopeLimits : EnvelopeLimitsV2
  queueLimits : RelayQueueLimitsV2
  templateLimits : RelayTemplateLimitsV2
  receiptSlotDedupHeight : UInt64

/-- `relay_record_pool_v2::valid` -/
def RelayPoolParametersV2.valid (p : RelayPoolParametersV2) : Bool :=
  p.timing.valid && p.committeePolicy.valid && p.envelopeLimits.valid && p.queueLimits.valid &&
    p.templateLimits.valid

/-- `relay_record_pool_v2`: its mutable part. -/
structure RelayRecordPoolV2 where
  queue : DeadlineRelayQueueV2 := {}
  records : List StoredRecordV2 := []
  diagnostics : RelayPoolDiagnosticsV2 := {}
deriving DecidableEq

/-- `describe`: the class of a record and the last height it is kept for. -/
def describe (p : RelayPoolParametersV2) (record : EnvelopeRecordV2) (currentHeight : UInt64) :
    Option (RelayClassV2 × UInt64) :=
  match RecordTypeV2.ofCode record.type with
  | some .identityDescriptor | some .descriptorLifecycle =>
    match decodeLifecycleRecordStructureV2 record with
    | .error _ => none
    | .ok lifecycle =>
      (p.timing.enrollmentCutoff lifecycle.nextDescriptor.effectiveEpoch).map (.enrollment, ·)
  | some .admissionLease =>
    match decodeAdmissionLeaseRecordStructureV2 record with
    | .error _ => none
    | .ok lease => (p.timing.enrollmentCutoff lease.targetEpoch).map (.enrollment, ·)
  | some .serviceReceipt =>
    match decodeServiceReceiptRecordStructureV2 record with
    | .error _ => none
    | .ok receipt =>
      if currentHeight < p.receiptSlotDedupHeight then
        (p.timing.evidenceDeadline receipt.challenge.epoch).map (.evidence, ·)
      else
        (receiptInclusionWindowV2 p.timing p.committeePolicy receipt.challenge.epoch
          receipt.challenge.round).map fun window => (.evidence, window.2)
  | some .servicePaymentProof => none
  | none => none

namespace RelayRecordPoolV2

/-! ## Pruning -/

/-- One turn of the first loop of `compact_receipt_slots`, on the records that are not marked for
removal so far: of two records of one slot, the one with the smaller id stays. -/
def compactStep (kept : List StoredRecordV2) (stored : StoredRecordV2) : List StoredRecordV2 :=
  if stored.receiptSlot = [] then kept ++ [stored]
  else
    match kept.find? fun previous => previous.receiptSlot = stored.receiptSlot with
    | none => kept ++ [stored]
    | some previous =>
      if memLess stored.id.data previous.id.data then
        kept.filter (fun other => other ≠ previous) ++ [stored]
      else kept

/-- `compact_receipt_slots` -/
def compactReceiptSlots (p : RelayPoolParametersV2) (pool : RelayRecordPoolV2)
    (currentHeight : UInt64) : RelayRecordPoolV2 :=
  if currentHeight < p.receiptSlotDedupHeight ∨ pool.records.length < 2 then pool
  else
    let kept := pool.records.foldl compactStep []
    let removed := pool.records.reverse.filter fun stored => !kept.contains stored
    { pool with
      queue := removed.foldl (fun queue stored => (queue.erase stored.id).1) pool.queue
      records := pool.records.filter fun stored => kept.contains stored }

/-- `prune_expired` -/
def pruneExpired (p : RelayPoolParametersV2) (pool : RelayRecordPoolV2) (currentHeight : UInt64) :
    RelayRecordPoolV2 :=
  let expiredReceipts := pool.records.countP fun stored =>
    !stored.receiptSlot.isEmpty && stored.deadlineHeight < currentHeight
  compactReceiptSlots p
    { diagnostics := { pool.diagnostics with
        expiredRoundReceipts := incrementSaturated pool.diagnostics.expiredRoundReceipts
          (UInt64.ofNat expiredReceipts) }
      queue := pool.queue.pruneExpired currentHeight
      records := pool.records.filter fun stored => !(stored.deadlineHeight < currentHeight) }
    currentHeight

/-- One turn of the loop of `erase_confirmed`. -/
def eraseId (pool : RelayRecordPoolV2) (id : Hash) : RelayRecordPoolV2 :=
  { pool with
    queue := (pool.queue.erase id).1
    records := pool.records.filter fun stored => !(stored.id = id) }

/-- `erase_confirmed` -/
def eraseConfirmed (pool : RelayRecordPoolV2) (ids : List Hash) : RelayRecordPoolV2 :=
  ids.foldl eraseId pool

/-- The ids `erase_confirmed_records` erases. -/
def confirmedIds (cr : Crypto) (p : RelayPoolParametersV2) (pool : RelayRecordPoolV2)
    (currentHeight : UInt64) (record : EnvelopeRecordV2) : List Hash :=
  if p.receiptSlotDedupHeight ≤ currentHeight ∧ receiptSlot record ≠ [] then
    (pool.records.filter fun stored => stored.receiptSlot = receiptSlot record).map (·.id)
  else
    match encodeEnvelopeV2 [record] p.envelopeLimits with
    | .error _ => []
    | .ok (encoded, _) => [relayId cr encoded]

/-- `erase_confirmed_records` -/
def eraseConfirmedRecords (cr : Crypto) (p : RelayPoolParametersV2) (pool : RelayRecordPoolV2)
    (records : List EnvelopeRecordV2) (currentHeight : UInt64) : RelayRecordPoolV2 :=
  let canonicalReceipts := records.countP fun record =>
    p.receiptSlotDedupHeight ≤ currentHeight && !(receiptSlot record).isEmpty
  let pool := pool.eraseConfirmed (records.flatMap (confirmedIds cr p pool currentHeight))
  { pool with diagnostics := { pool.diagnostics with
      canonicalReceipts := incrementSaturated pool.diagnostics.canonicalReceipts
        (UInt64.ofNat canonicalReceipts) } }

/-- What the sweep of `prune_unusable_receipts` finds about a record. -/
inductive SweepV2
  | keep
  | undecodable
  | canonical
  | invalidContext
deriving DecidableEq

/-- One turn of the loop of `prune_unusable_receipts`: the preview after it, which the journal has
taken back, and what was found. -/
def sweep (cr : Crypto) (sp : SemanticParametersV2) (contexts : CanonicalContextSourceV2)
    (currentHeight : UInt64) (canonicalState next : SemanticStateV2) (stored : StoredRecordV2) :
    SemanticStateV2 × SweepV2 :=
  if stored.record.type ≠ RecordTypeV2.serviceReceipt.code then (next, .keep)
  else
    match decodeServiceReceiptRecordStructureV2 stored.record with
    | .error _ => (next, .undecodable)
    | .ok receipt =>
      let challenge := receipt.challenge
      if canonicalState.membership.hasReceiptSlot challenge.epoch challenge.round
          challenge.subjectPublicKey challenge.verifierPublicKey then (next, .canonical)
      else
        let applied := next.applyTransaction cr sp contexts (some next.checkpoint) [stored.record]
          ⟨currentHeight, true, none, none⟩
        (applied.state.rollback (applied.blockUndo.getD next.checkpoint),
          if applied.status ≠ .accepted ∧ applied.status ≠ .contextUnavailable then .invalidContext
          else .keep)

/-- The loop of `prune_unusable_receipts`: what was found about every record. -/
def sweepAll (cr : Crypto) (sp : SemanticParametersV2) (contexts : CanonicalContextSourceV2)
    (currentHeight : UInt64) (canonicalState : SemanticStateV2) :
    SemanticStateV2 → List StoredRecordV2 → List (StoredRecordV2 × SweepV2)
  | _, [] => []
  | next, stored :: records =>
    let (next, found) := sweep cr sp contexts currentHeight canonicalState next stored
    (stored, found) :: sweepAll cr sp contexts currentHeight canonicalState next records

/-- How many records something was found about. -/
def countFound (kind : SweepV2) (found : List (StoredRecordV2 × SweepV2)) : UInt64 :=
  UInt64.ofNat (found.countP fun entry => entry.2 = kind)

/-- The ids of the records that are not kept. -/
def unusableIds (found : List (StoredRecordV2 × SweepV2)) : List Hash :=
  (found.filter fun entry => entry.2 ≠ .keep).map fun entry => entry.1.id

/-- `prune_unusable_receipts` -/
def pruneUnusableReceipts (cr : Crypto) (sp : SemanticParametersV2)
    (contexts : CanonicalContextSourceV2) (p : RelayPoolParametersV2) (pool : RelayRecordPoolV2)
    (currentHeight : UInt64) (canonicalState : SemanticStateV2) : RelayRecordPoolV2 :=
  let pool := pool.pruneExpired p currentHeight
  if currentHeight < p.receiptSlotDedupHeight ∨ pool.records = [] then pool
  else
    let found := sweepAll cr sp contexts currentHeight canonicalState canonicalState pool.records
    eraseConfirmed
      { pool with diagnostics := { pool.diagnostics with
          canonicalReceipts := incrementSaturated pool.diagnostics.canonicalReceipts
            (countFound .canonical found)
          invalidContextReceipts := incrementSaturated pool.diagnostics.invalidContextReceipts
            (countFound .invalidContext found) } }
      (unusableIds found)

/-! ## Queueing and selecting -/

/-- The part of `enqueue` that looks for a receipt of the same slot: the pool without one that
another context has made useless, and the status when the call ends here. -/
def enqueueSlot (p : RelayPoolParametersV2) (pool : RelayRecordPoolV2) (currentHeight : UInt64)
    (id : Hash) (slot context : List UInt8) : RelayRecordPoolV2 × Option RelayRecordStatusV2 :=
  if currentHeight < p.receiptSlotDedupHeight ∨ slot = [] then (pool, none)
  else
    match pool.records.find? fun stored => stored.receiptSlot = slot with
    | none => (pool, none)
    | some duplicate =>
      if duplicate.receiptContext = context then
        if duplicate.id = id then
          ({ pool with diagnostics := { pool.diagnostics with
              exactDuplicates := incrementSaturated pool.diagnostics.exactDuplicates 1 } },
            some .idempotentDuplicate)
        else
          ({ pool with diagnostics := { pool.diagnostics with
              slotVariants := incrementSaturated pool.diagnostics.slotVariants 1 } },
            some .receiptSlotVariant)
      else
        ({ pool with
            queue := (pool.queue.erase duplicate.id).1
            records := pool.records.erase duplicate }, none)

/-- The end of `enqueue`, after the queue has answered. -/
def enqueueAnswer (pool : RelayRecordPoolV2) (entry : StoredRecordV2)
    (queue : DeadlineRelayQueueV2) : ResourceStatusV2 → RelayRecordPoolV2 × RelayRecordStatusV2
  | .relayItemExpired =>
    ({ pool with
        queue
        diagnostics := { pool.diagnostics with
          expiredRoundReceipts :=
            if entry.receiptSlot = [] then pool.diagnostics.expiredRoundReceipts
            else incrementSaturated pool.diagnostics.expiredRoundReceipts 1 } }, .expired)
  | .relayQueueFull =>
    ({ pool with
        queue
        diagnostics := { pool.diagnostics with
          capacityRejections := incrementSaturated pool.diagnostics.capacityRejections 1 } },
      .full)
  | .accepted => ({ pool with queue, records := pool.records ++ [entry] }, .accepted)
  | .relayItemConflict => ({ pool with queue }, .conflict)
  | _ => ({ pool with queue }, .invalidConfiguration)

/-- The part of `enqueue` after that: an exact duplicate, or a new item of the queue. -/
def enqueueItem (p : RelayPoolParametersV2) (pool : RelayRecordPoolV2) (currentHeight : UInt64)
    (entry : StoredRecordV2) (recordClass : RelayClassV2) (size : ℕ) :
    RelayRecordPoolV2 × RelayRecordStatusV2 :=
  match pool.records.find? fun stored => stored.id = entry.id with
  | some duplicate =>
    if duplicate.record = entry.record ∧ duplicate.deadlineHeight = entry.deadlineHeight then
      ({ pool with diagnostics := { pool.diagnostics with
          exactDuplicates := incrementSaturated pool.diagnostics.exactDuplicates 1 } },
        .idempotentDuplicate)
    else (pool, .conflict)
  | none =>
    let answer := DeadlineRelayQueueV2.enqueue p.queueLimits pool.queue
      ⟨entry.id, recordClass, UInt64.ofNat size, entry.deadlineHeight⟩ currentHeight
    pool.enqueueAnswer entry answer.1 answer.2

/-- `enqueue` from the search for duplicates on. -/
def enqueueEntry (p : RelayPoolParametersV2) (pool : RelayRecordPoolV2) (currentHeight : UInt64)
    (entry : StoredRecordV2) (recordClass : RelayClassV2) (size : ℕ) :
    RelayRecordPoolV2 × RelayRecordStatusV2 :=
  match enqueueSlot p pool currentHeight entry.id entry.receiptSlot entry.receiptContext with
  | (pool, some status) => (pool, status)
  | (pool, none) => enqueueItem p pool currentHeight entry recordClass size

/-- `enqueue`: the pool after the call, and the status. -/
def enqueue (cr : Crypto) (p : RelayPoolParametersV2) (pool : RelayRecordPoolV2)
    (record : EnvelopeRecordV2) (currentHeight : UInt64) :
    RelayRecordPoolV2 × RelayRecordStatusV2 :=
  if !p.valid then (pool, .invalidConfiguration)
  else if record.type = RecordTypeV2.servicePaymentProof.code then (pool, .paymentProofForbidden)
  else
    match describe p record currentHeight with
    | none => (pool, .invalidRecord)
    | some (recordClass, deadlineHeight) =>
      match encodeEnvelopeV2 [record] p.envelopeLimits with
      | .error _ => (pool, .invalidRecord)
      | .ok (encoded, budget) =>
        let entry : StoredRecordV2 := ⟨relayId cr encoded, record, deadlineHeight,
          Qwertycoin.receiptSlot record, Qwertycoin.receiptContext record⟩
        enqueueEntry p (pool.pruneExpired p currentHeight) currentHeight entry recordClass
          budget.bytes

/-- `select_for_template`: the pool after the call, and the records, unless the status is
`invalid_configuration`. -/
def selectForTemplate (p : RelayPoolParametersV2) (pool : RelayRecordPoolV2)
    (currentHeight : UInt64) : RelayRecordPoolV2 × Option (List (Hash × EnvelopeRecordV2)) :=
  let pool := pool.pruneExpired p currentHeight
  match DeadlineRelayQueueV2.selectForTemplate p.queueLimits pool.queue currentHeight
    p.templateLimits with
  | .error _ => (pool, none)
  | .ok items =>
    match items.mapM fun item => pool.records.find? fun stored => stored.id = item.id with
    | none => (pool, none)
    | some found =>
      let selected := found.map fun stored => (stored.id, stored.record)
      ({ pool with diagnostics := { pool.diagnostics with
          templateSelectedReceipts := incrementSaturated
            pool.diagnostics.templateSelectedReceipts (UInt64.ofNat (selected.countP fun entry =>
              entry.2.type = RecordTypeV2.serviceReceipt.code)) } }, some selected)

/-- `record_ingress_rejection` -/
def recordIngressRejection (pool : RelayRecordPoolV2) (status : RelayRecordStatusV2) :
    RelayRecordPoolV2 :=
  match status with
  | .expired =>
    { pool with diagnostics := { pool.diagnostics with
      expiredRoundReceipts := incrementSaturated pool.diagnostics.expiredRoundReceipts 1 } }
  | .full =>
    { pool with diagnostics := { pool.diagnostics with
      capacityRejections := incrementSaturated pool.diagnostics.capacityRejections 1 } }
  | _ => pool

end RelayRecordPoolV2

/-! ## The queue and the records -/

namespace DeadlineRelayQueueV2

variable {limits : RelayQueueLimitsV2} {q : DeadlineRelayQueueV2} {currentHeight : UInt64}

/-- Ids are distinct, so erasing one of them is a filter. -/
lemma Consistent.erase_items (h : Consistent limits q) (id : Hash) :
    (q.erase id).1.items = q.items.filter fun item => !(item.id = id) := by
  have hfilter : ∀ items : List RelayItemV2, (items.map (·.id)).Nodup →
      items.eraseP (fun item => item.id = id) = items.filter fun item => !(item.id = id) := by
    intro items hnodup
    induction items with
    | nil => rfl
    | cons item items ih =>
      obtain ⟨hnew, hnodup⟩ := List.nodup_cons.mp hnodup
      by_cases hid : item.id = id
      · rw [List.eraseP_cons_of_pos (by simpa using hid),
          List.filter_cons_of_neg (by simpa using hid), eq_comm, List.filter_eq_self]
        intro other hother
        have hne : other.id ≠ id := fun heq =>
          hnew (List.mem_map.mpr ⟨other, hother, heq.trans hid.symm⟩)
        simpa using hne
      · rw [List.eraseP_cons_of_neg (by simpa using hid),
          List.filter_cons_of_pos (by simpa using hid), ih hnodup]
  unfold DeadlineRelayQueueV2.erase
  cases hfind : q.items.find? fun item => item.id = id with
  | none =>
    rw [eq_comm, List.filter_eq_self]
    intro item hitem
    simpa using List.find?_eq_none.mp hfind item hitem
  | some found => exact hfilter q.items h.distinct

lemma Consistent.foldl_erase (h : Consistent limits q) (ids : List Hash) :
    Consistent limits (ids.foldl (fun queue id => (queue.erase id).1) q) ∧
      (ids.foldl (fun queue id => (queue.erase id).1) q).items =
        q.items.filter fun item => !ids.contains item.id := by
  induction ids generalizing q with
  | nil => exact ⟨h, by simp⟩
  | cons id ids ih =>
    obtain ⟨hconsistent, hitems⟩ := ih (h.erase id)
    refine ⟨hconsistent, ?_⟩
    rw [List.foldl_cons, hitems, h.erase_items, List.filter_filter]
    refine List.filter_congr fun item _ => ?_
    rw [List.contains_cons, Bool.not_or, Bool.and_comm]
    congr 1

lemma pruneExpired_of_forall (h : ∀ item ∈ q.items, currentHeight ≤ item.deadlineHeight) :
    q.pruneExpired currentHeight = q := by
  have hitems : ∀ (items : List RelayItemV2) (bytes : UInt64),
      (∀ item ∈ items, currentHeight ≤ item.deadlineHeight) →
      pruneItems currentHeight items bytes = (items, bytes) := by
    intro items bytes hall
    induction items with
    | nil => rfl
    | cons item items ih =>
      obtain ⟨hitem, hall⟩ := List.forall_mem_cons.mp hall
      rw [pruneItems, if_pos hitem, ih hall]
  unfold pruneExpired
  rw [hitems q.items q.bytes h]

end DeadlineRelayQueueV2

/-- The bytes a record has when it is relayed. -/
def encodedLength (p : RelayPoolParametersV2) (record : EnvelopeRecordV2) : ℕ :=
  match encodeEnvelopeV2 [record] p.envelopeLimits with
  | .error _ => 0
  | .ok (encoded, _) => encoded.length

/-- The item of the queue that belongs to a record. -/
def StoredRecordV2.item (p : RelayPoolParametersV2) (stored : StoredRecordV2) : RelayItemV2 where
  id := stored.id
  recordClass :=
    if stored.record.type = RecordTypeV2.serviceReceipt.code then .evidence else .enrollment
  bytes := UInt64.ofNat (encodedLength p stored.record)
  deadlineHeight := stored.deadlineHeight

/-- What is stored with a record follows from the record. -/
structure StoredRecordV2.Backed (cr : Crypto) (p : RelayPoolParametersV2)
    (stored : StoredRecordV2) : Prop where
  encodes : ∃ encoded budget, encodeEnvelopeV2 [stored.record] p.envelopeLimits =
    .ok (encoded, budget) ∧ stored.id = relayId cr encoded
  slot : stored.receiptSlot = Qwertycoin.receiptSlot stored.record
  context : stored.receiptContext = Qwertycoin.receiptContext stored.record

namespace RelayRecordPoolV2

variable {cr : Crypto} {p : RelayPoolParametersV2} {pool pool' : RelayRecordPoolV2}
  {height : UInt64}

/-- What holds of a pool between calls. -/
structure Sound (cr : Crypto) (p : RelayPoolParametersV2) (pool : RelayRecordPoolV2) : Prop where
  queue : pool.queue.Consistent p.queueLimits
  items : pool.queue.items = pool.records.map (StoredRecordV2.item p)
  backed : ∀ stored ∈ pool.records, stored.Backed cr p

lemma Sound.distinct (h : Sound cr p pool) : (pool.records.map (·.id)).Nodup := by
  have hdistinct := h.queue.distinct
  rw [h.items, List.map_map] at hdistinct
  exact hdistinct

lemma Sound.nodup (h : Sound cr p pool) : pool.records.Nodup := h.distinct.of_map

lemma Sound.eq_of_id (h : Sound cr p pool) {stored stored' : StoredRecordV2}
    (hstored : stored ∈ pool.records) (hstored' : stored' ∈ pool.records)
    (hid : stored.id = stored'.id) : stored = stored' :=
  List.inj_on_of_nodup_map h.distinct hstored hstored' hid

lemma Sound.filter (h : Sound cr p pool) (keep : Hash → Bool) {queue : DeadlineRelayQueueV2}
    {diagnostics : RelayPoolDiagnosticsV2} (hqueue : queue.Consistent p.queueLimits)
    (hitems : queue.items = pool.queue.items.filter fun item => keep item.id) :
    Sound cr p ⟨queue, pool.records.filter fun stored => keep stored.id, diagnostics⟩ where
  queue := hqueue
  items := by
    show queue.items = (pool.records.filter fun stored => keep stored.id).map _
    rw [hitems, h.items, List.filter_map]
    rfl
  backed stored hstored := h.backed stored (List.mem_of_mem_filter hstored)

/-- Two pools with the same records and the same queue. -/
structure Same (pool pool' : RelayRecordPoolV2) : Prop where
  queue : pool'.queue = pool.queue
  records : pool'.records = pool.records

lemma Same.refl (pool : RelayRecordPoolV2) : Same pool pool := ⟨rfl, rfl⟩

lemma Same.diagnostics (h : Same pool pool') (diagnostics : RelayPoolDiagnosticsV2) :
    Same pool { pool' with diagnostics } :=
  ⟨h.queue, h.records⟩

lemma Same.trans {pool'' : RelayRecordPoolV2} (h : Same pool pool') (h' : Same pool' pool'') :
    Same pool pool'' :=
  ⟨h'.queue.trans h.queue, h'.records.trans h.records⟩

lemma Same.mem (h : Same pool pool') {stored : StoredRecordV2} (hstored : stored ∈ pool.records) :
    stored ∈ pool'.records := by
  rwa [h.records]

lemma Same.sound (h : Same pool pool') (hsound : Sound cr p pool) : Sound cr p pool' := by
  obtain ⟨hqueue, hrecords⟩ := h
  exact ⟨hqueue ▸ hsound.queue, by rw [hqueue, hrecords, hsound.items],
    hrecords ▸ hsound.backed⟩

/-! ### One receipt for each slot -/

/-- There is at most one record for each slot. -/
def OnePerSlot (pool : RelayRecordPoolV2) : Prop :=
  ∀ slot ≠ [], (pool.records.filter fun stored => stored.receiptSlot = slot).length ≤ 1

/-- Records of one slot are the same record. -/
def Unique (records : List StoredRecordV2) : Prop :=
  ∀ a ∈ records, ∀ b ∈ records, a.receiptSlot = b.receiptSlot → a.receiptSlot ≠ [] → a = b

lemma Unique.subset {records kept : List StoredRecordV2} (h : Unique records)
    (hsub : kept ⊆ records) : Unique kept :=
  fun a ha b hb => h a (hsub ha) b (hsub hb)

lemma Unique.append {others : List StoredRecordV2} (h : Unique others) {stored : StoredRecordV2}
    (hnew : stored.receiptSlot ≠ [] → ∀ a ∈ others, a.receiptSlot ≠ stored.receiptSlot) :
    Unique (others ++ [stored]) := by
  intro a ha b hb hslot hne
  rw [List.mem_append, List.mem_singleton] at ha hb
  rcases ha with ha | rfl <;> rcases hb with hb | rfl
  · exact h a ha b hb hslot hne
  · exact absurd hslot (hnew (hslot ▸ hne) a ha)
  · exact absurd hslot.symm (hnew hne b hb)
  · rfl

lemma Unique.onePerSlot (h : Unique pool.records) (hnodup : pool.records.Nodup) :
    pool.OnePerSlot := by
  intro slot hslot
  have hall : ∀ a ∈ pool.records.filter fun stored => stored.receiptSlot = slot,
      ∀ b ∈ pool.records.filter fun stored => stored.receiptSlot = slot, a = b := by
    intro a ha b hb
    simp only [List.mem_filter, decide_eq_true_eq] at ha hb
    exact h a ha.1 b hb.1 (ha.2.trans hb.2.symm) (ha.2 ▸ hslot)
  have hfilter := hnodup.filter fun stored => decide (stored.receiptSlot = slot)
  generalize pool.records.filter (fun stored => decide (stored.receiptSlot = slot)) = found
    at hall hfilter
  rcases found with - | ⟨first, - | ⟨second, rest⟩⟩
  · exact Nat.zero_le _
  · exact Nat.le_refl _
  · -- two entries would be equal, but the list has no duplicates
    have heq := hall first (by simp) second (by simp)
    exact absurd (by simp [heq]) (List.nodup_cons.mp hfilter).1

lemma Unique.compactStep {kept : List StoredRecordV2} (h : Unique kept)
    (stored : StoredRecordV2) : Unique (compactStep kept stored) := by
  unfold RelayRecordPoolV2.compactStep
  split_ifs with hempty
  · exact h.append fun hne => absurd hempty hne
  · split
    · rename_i hfind
      exact h.append fun _ a ha => by simpa using List.find?_eq_none.mp hfind a ha
    · rename_i previous hfind
      split_ifs
      · -- the previous record of the slot makes way
        have hprevious := List.find?_some hfind
        rw [decide_eq_true_eq] at hprevious
        refine (h.subset (List.filter_subset_self _)).append fun hne a ha hslot => ?_
        rw [List.mem_filter, decide_eq_true_eq] at ha
        exact ha.2 (h a ha.1 previous (List.mem_of_find?_eq_some hfind)
          (hslot.trans hprevious.symm) (hslot ▸ hne))
      · exact h

lemma unique_foldl_compactStep (records : List StoredRecordV2) {kept : List StoredRecordV2}
    (h : Unique kept) : Unique (records.foldl compactStep kept) := by
  induction records generalizing kept with
  | nil => exact h
  | cons stored records ih => exact ih (h.compactStep stored)

/-- Nothing is removed when there is nothing to remove. -/
lemma foldl_compactStep_of_unique (kept records : List StoredRecordV2)
    (hnodup : (kept ++ records).Nodup) (h : Unique (kept ++ records)) :
    records.foldl compactStep kept = kept ++ records := by
  induction records generalizing kept with
  | nil => exact (List.append_nil _).symm
  | cons stored records ih =>
    have hassoc : kept ++ stored :: records = kept ++ [stored] ++ records := by simp
    have hstep : compactStep kept stored = kept ++ [stored] := by
      unfold compactStep
      split_ifs with hempty
      · rfl
      · cases hfind : kept.find? fun previous => previous.receiptSlot = stored.receiptSlot with
        | none => rfl
        | some previous =>
          -- a record of the same slot would be the same record
          have hmem := List.mem_of_find?_eq_some hfind
          have hprevious := List.find?_some hfind
          rw [decide_eq_true_eq] at hprevious
          have heq := h stored (by simp) previous (by simp [hmem]) hprevious.symm hempty
          exact absurd (heq ▸ hmem) fun hold =>
            (List.disjoint_of_nodup_append hnodup) hold (List.mem_cons_self ..)
    rw [List.foldl_cons, hstep, hassoc]
    exact ih _ (hassoc ▸ hnodup) (hassoc ▸ h)

/-! ### What pruning leaves -/

/-- At a height nothing has expired, and from the height of deduplication on there is one receipt
for each slot. -/
structure Settled (p : RelayPoolParametersV2) (height : UInt64) (pool : RelayRecordPoolV2) :
    Prop where
  open_ : ∀ stored ∈ pool.records, height ≤ stored.deadlineHeight
  unique : p.receiptSlotDedupHeight ≤ height → Unique pool.records

lemma Settled.subset (h : Settled p height pool) (hsub : pool'.records ⊆ pool.records) :
    Settled p height pool' :=
  ⟨fun stored hstored => h.open_ stored (hsub hstored), fun hle => (h.unique hle).subset hsub⟩

lemma Settled.same (h : Settled p height pool) (hsame : Same pool pool') :
    Settled p height pool' :=
  h.subset (hsame.records ▸ List.Subset.refl _)

lemma Settled.onePerSlot (h : Settled p height pool) (hsound : Sound cr p pool)
    (hle : p.receiptSlotDedupHeight ≤ height) : pool.OnePerSlot :=
  (h.unique hle).onePerSlot hsound.nodup

lemma Sound.remove (h : Sound cr p pool) {keep : StoredRecordV2 → Bool}
    {removed : List StoredRecordV2} {diagnostics : RelayPoolDiagnosticsV2}
    (hsub : removed ⊆ pool.records)
    (hremoved : ∀ stored ∈ pool.records, stored ∈ removed ↔ keep stored = false) :
    Sound cr p ⟨removed.foldl (fun queue stored => (queue.erase stored.id).1) pool.queue,
      pool.records.filter keep, diagnostics⟩ := by
  -- what is removed is told apart from what is kept by its ids
  have hkeep : ∀ stored ∈ pool.records,
      keep stored = !(removed.map (·.id)).contains stored.id := by
    intro stored hstored
    have hids : stored.id ∈ removed.map (·.id) ↔ keep stored = false := by
      rw [← hremoved stored hstored, List.mem_map]
      constructor
      · rintro ⟨other, hother, hid⟩
        rwa [← h.eq_of_id (hsub hother) hstored hid]
      · exact fun hin => ⟨stored, hin, rfl⟩
    rw [← List.contains_iff_mem] at hids
    cases hkeep : keep stored <;> rw [hkeep] at hids <;> simpa using hids
  obtain ⟨hconsistent, hitems⟩ := h.queue.foldl_erase (removed.map (·.id))
  rw [List.foldl_map] at hconsistent hitems
  rw [List.filter_congr hkeep]
  exact h.filter (fun id => !(removed.map (·.id)).contains id) hconsistent hitems

lemma Sound.compactReceiptSlots (h : Sound cr p pool) (height : UInt64) :
    Sound cr p (pool.compactReceiptSlots p height) := by
  unfold RelayRecordPoolV2.compactReceiptSlots
  split_ifs
  · exact h
  · refine h.remove (fun stored hstored => ?_) fun stored hstored => ?_
    · exact List.mem_reverse.mp (List.mem_of_mem_filter hstored)
    · rw [List.mem_filter, List.mem_reverse, Bool.not_eq_true']
      exact and_iff_right hstored

lemma compactReceiptSlots_subset (p : RelayPoolParametersV2) (pool : RelayRecordPoolV2)
    (height : UInt64) : (pool.compactReceiptSlots p height).records ⊆ pool.records := by
  unfold compactReceiptSlots
  split_ifs
  · exact List.Subset.refl _
  · exact List.filter_subset_self _

lemma unique_compactReceiptSlots (p : RelayPoolParametersV2) (pool : RelayRecordPoolV2)
    (hle : p.receiptSlotDedupHeight ≤ height) :
    Unique (pool.compactReceiptSlots p height).records := by
  unfold compactReceiptSlots
  split_ifs with hskip
  · -- fewer than two records
    have hshort := hskip.resolve_left (UInt64.not_lt.mpr hle)
    intro a ha b hb _ _
    generalize pool.records = records at ha hb hshort
    rcases records with - | ⟨first, - | ⟨second, rest⟩⟩
    · simp at ha
    · rw [List.mem_singleton] at ha hb
      rw [ha, hb]
    · simp at hshort
  · have hnone : Unique [] := fun a ha => absurd ha List.not_mem_nil
    refine (unique_foldl_compactStep pool.records hnone).subset ?_
    intro stored hstored
    exact List.contains_iff_mem.mp (List.mem_filter.mp hstored).2

lemma Sound.same_compactReceiptSlots (h : Sound cr p pool)
    (hunique : p.receiptSlotDedupHeight ≤ height → Unique pool.records) :
    Same pool (pool.compactReceiptSlots p height) := by
  unfold RelayRecordPoolV2.compactReceiptSlots
  split_ifs with hskip
  · exact .refl _
  · have hle := UInt64.not_lt.mp (not_or.mp hskip).1
    have hkept := foldl_compactStep_of_unique [] pool.records h.nodup (hunique hle)
    rw [List.nil_append] at hkept
    have hremoved : (pool.records.reverse.filter fun stored =>
        !pool.records.contains stored) = [] := by
      rw [List.filter_eq_nil_iff]
      intro stored hstored
      simp [List.mem_reverse.mp hstored]
    refine ⟨?_, ?_⟩
    · simp only [hkept, hremoved, List.foldl_nil]
    · simp only [hkept]
      rw [List.filter_eq_self]
      exact fun stored hstored => List.contains_iff_mem.mpr hstored

/-- The pool between the two halves of `prune_expired`. -/
def dropExpired (pool : RelayRecordPoolV2) (height : UInt64)
    (diagnostics : RelayPoolDiagnosticsV2) : RelayRecordPoolV2 where
  queue := pool.queue.pruneExpired height
  records := pool.records.filter fun stored => !(stored.deadlineHeight < height)
  diagnostics := diagnostics

lemma pruneExpired_eq (p : RelayPoolParametersV2) (pool : RelayRecordPoolV2) (height : UInt64) :
    ∃ diagnostics, pool.pruneExpired p height =
      (pool.dropExpired height diagnostics).compactReceiptSlots p height :=
  ⟨_, rfl⟩

lemma Sound.dropExpired (h : Sound cr p pool) (height : UInt64)
    (diagnostics : RelayPoolDiagnosticsV2) : Sound cr p (pool.dropExpired height diagnostics) where
  queue := h.queue.pruneExpired height
  items := by
    show (pool.queue.pruneExpired height).items = (pool.records.filter _).map _
    rw [h.queue.pruneExpired_items, h.items, List.filter_map]
    refine congrArg _ (List.filter_congr fun stored _ => ?_)
    show decide (height ≤ stored.deadlineHeight) = _
    rw [← decide_not, decide_eq_decide, UInt64.not_lt]
  backed stored hstored := h.backed stored (List.mem_of_mem_filter hstored)

lemma Sound.pruneExpired (h : Sound cr p pool) (height : UInt64) :
    Sound cr p (pool.pruneExpired p height) := by
  obtain ⟨diagnostics, heq⟩ := pruneExpired_eq p pool height
  rw [heq]
  exact (h.dropExpired height diagnostics).compactReceiptSlots height

lemma settled_pruneExpired (p : RelayPoolParametersV2) (pool : RelayRecordPoolV2)
    (height : UInt64) : Settled p height (pool.pruneExpired p height) := by
  obtain ⟨diagnostics, heq⟩ := pruneExpired_eq p pool height
  rw [heq]
  refine ⟨fun stored hstored => ?_, fun hle => unique_compactReceiptSlots p _ hle⟩
  have hkept := (List.mem_filter.mp (compactReceiptSlots_subset p _ height hstored)).2
  rw [Bool.not_eq_true', decide_eq_false_iff_not, UInt64.not_lt] at hkept
  exact hkept

lemma Settled.same_dropExpired (h : Settled p height pool) (hsound : Sound cr p pool)
    (diagnostics : RelayPoolDiagnosticsV2) : Same pool (pool.dropExpired height diagnostics) := by
  refine ⟨DeadlineRelayQueueV2.pruneExpired_of_forall fun item hitem => ?_, ?_⟩
  · rw [hsound.items] at hitem
    obtain ⟨stored, hstored, rfl⟩ := List.mem_map.mp hitem
    exact h.open_ stored hstored
  · show pool.records.filter _ = _
    rw [List.filter_eq_self]
    intro stored hstored
    rw [Bool.not_eq_true', decide_eq_false_iff_not, UInt64.not_lt]
    exact h.open_ stored hstored

/-- A second pass at the same height changes nothing. -/
lemma Settled.same_pruneExpired (h : Settled p height pool) (hsound : Sound cr p pool) :
    Same pool (pool.pruneExpired p height) := by
  obtain ⟨diagnostics, heq⟩ := pruneExpired_eq p pool height
  have hsame := h.same_dropExpired hsound diagnostics
  rw [heq]
  refine hsame.trans ((hsame.sound hsound).same_compactReceiptSlots fun hle => ?_)
  rw [hsame.records]
  exact h.unique hle

lemma Sound.eraseConfirmed (h : Sound cr p pool) (ids : List Hash) :
    Sound cr p (pool.eraseConfirmed ids) := by
  induction ids generalizing pool with
  | nil => exact h
  | cons id ids ih =>
    exact ih (h.filter (fun other => !(other = id)) (h.queue.erase id) (h.queue.erase_items id))

lemma mem_eraseConfirmed {ids : List Hash} {stored : StoredRecordV2} :
    stored ∈ (pool.eraseConfirmed ids).records ↔ stored ∈ pool.records ∧ stored.id ∉ ids := by
  induction ids generalizing pool with
  | nil => simp [eraseConfirmed]
  | cons id ids ih =>
    show stored ∈ ((pool.eraseId id).eraseConfirmed ids).records ↔ _
    rw [ih, List.mem_cons, not_or, ← and_assoc]
    refine and_congr_left fun _ => ?_
    show stored ∈ pool.records.filter _ ↔ _
    rw [List.mem_filter, Bool.not_eq_true', decide_eq_false_iff_not]

end RelayRecordPoolV2

/-- The journal takes a transaction back, whether it was accepted or not. -/
lemma SemanticStateV2.rollback_applyTransaction (cr : Crypto) (sp : SemanticParametersV2)
    (contexts : CanonicalContextSourceV2) (s : SemanticStateV2) (records : List EnvelopeRecordV2)
    (transaction : SemanticTransactionContextV2) :
    let applied := s.applyTransaction cr sp contexts (some s.checkpoint) records transaction
    applied.state.rollback (applied.blockUndo.getD s.checkpoint) = s := by
  intro applied
  rcases s.applyTransaction_cases cr sp contexts (some s.checkpoint) records transaction with
    ⟨-, hstate, hundo⟩ | ⟨-, undo, hsteps, hundo⟩
  · rw [hstate, hundo]
    exact (SemanticStateV2.restores_checkpoint s).rollback_eq
  · rw [hundo]
    have hrestores := (SemanticStateV2.restores_checkpoint s).recordSteps hsteps
    exact ((SemanticStateV2.restores_checkpoint s).append hrestores).rollback_eq

/-! ### What a sweep leaves -/

/-- What a pool is kept against: the primitives and the parameters, the canonical state, and the
height of the next block. -/
structure RelayView where
  cr : Crypto
  sp : SemanticParametersV2
  contexts : CanonicalContextSourceV2
  p : RelayPoolParametersV2
  height : UInt64
  canonicalState : SemanticStateV2

namespace RelayView

open RelayRecordPoolV2

variable {v : RelayView} {pool : RelayRecordPoolV2}

/-- What the sweep finds about a record. -/
def verdict (v : RelayView) (stored : StoredRecordV2) : SweepV2 :=
  (sweep v.cr v.sp v.contexts v.height v.canonicalState v.canonicalState stored).2

/-- The pool after a sweep. -/
def swept (v : RelayView) (pool : RelayRecordPoolV2) : RelayRecordPoolV2 :=
  pool.pruneUnusableReceipts v.cr v.sp v.contexts v.p v.height v.canonicalState

/-- Every record is judged by the canonical state. -/
lemma sweepAll_eq (v : RelayView) (records : List StoredRecordV2) :
    sweepAll v.cr v.sp v.contexts v.height v.canonicalState v.canonicalState records =
      records.map fun stored => (stored, v.verdict stored) := by
  have hnext : ∀ next stored,
      (sweep v.cr v.sp v.contexts v.height v.canonicalState next stored).1 = next := by
    intro next stored
    unfold sweep
    split_ifs
    · rfl
    · split
      · rfl
      · dsimp only
        split
        · rfl
        · exact next.rollback_applyTransaction v.cr v.sp v.contexts _ _
  induction records with
  | nil => rfl
  | cons stored records ih =>
    rw [List.map_cons, sweepAll]
    dsimp only
    rw [hnext, ih]
    rfl

lemma same_swept (hle : v.p.receiptSlotDedupHeight ≤ v.height) :
    Same ((pool.pruneExpired v.p v.height).eraseConfirmed
        (((pool.pruneExpired v.p v.height).records.filter fun stored =>
          v.verdict stored ≠ .keep).map (·.id))) (v.swept pool) := by
  have hdiagnostics : ∀ (ids : List Hash) (a b : RelayRecordPoolV2), Same a b →
      Same (a.eraseConfirmed ids) (b.eraseConfirmed ids) := by
    intro ids
    induction ids with
    | nil => exact fun a b h => h
    | cons id ids ih =>
      intro a b h
      exact ih _ _ ⟨by show (b.queue.erase id).1 = (a.queue.erase id).1; rw [h.queue],
        by show b.records.filter _ = a.records.filter _; rw [h.records]⟩
  unfold swept pruneUnusableReceipts
  dsimp only
  split_ifs with hskip
  · have hnone := hskip.resolve_left (UInt64.not_lt.mpr hle)
    rw [hnone]
    exact .refl _
  · have hids : ∀ records : List StoredRecordV2,
        unusableIds (records.map fun stored => (stored, v.verdict stored)) =
          (records.filter fun stored => v.verdict stored ≠ .keep).map (·.id) := by
      intro records
      unfold unusableIds
      rw [List.filter_map, List.map_map]
      rfl
    rw [sweepAll_eq, hids]
    exact hdiagnostics _ _ _ ⟨rfl, rfl⟩

lemma swept_of_lt (hlt : v.height < v.p.receiptSlotDedupHeight) :
    v.swept pool = pool.pruneExpired v.p v.height := by
  unfold swept pruneUnusableReceipts
  exact if_pos (.inl hlt)

lemma sound_swept (h : Sound v.cr v.p pool) : Sound v.cr v.p (v.swept pool) := by
  rcases UInt64.lt_or_le v.height v.p.receiptSlotDedupHeight with hlt | hle
  · rw [swept_of_lt hlt]
    exact h.pruneExpired v.height
  · exact (same_swept hle).sound ((h.pruneExpired v.height).eraseConfirmed _)

/-- A pool that is settled and has only records that are judged usable. -/
structure Usable (v : RelayView) (pool : RelayRecordPoolV2) : Prop extends
    Settled v.p v.height pool where
  usable : v.p.receiptSlotDedupHeight ≤ v.height →
    ∀ stored ∈ pool.records, v.verdict stored = .keep

lemma usable_swept (v : RelayView) (pool : RelayRecordPoolV2) : v.Usable (v.swept pool) := by
  have hsettled := settled_pruneExpired v.p pool v.height
  rcases UInt64.lt_or_le v.height v.p.receiptSlotDedupHeight with hlt | hle
  · rw [swept_of_lt hlt]
    exact ⟨hsettled, fun hle => absurd hlt (UInt64.not_lt.mpr hle)⟩
  · have hkept : ∀ stored ∈ (v.swept pool).records,
        stored ∈ (pool.pruneExpired v.p v.height).records ∧ v.verdict stored = .keep := by
      intro stored hstored
      rw [(same_swept hle).records, mem_eraseConfirmed] at hstored
      refine ⟨hstored.1, ?_⟩
      by_contra hbad
      exact hstored.2 (List.mem_map_of_mem (List.mem_filter.mpr ⟨hstored.1, by simpa using hbad⟩))
    exact ⟨hsettled.subset fun stored hstored => (hkept stored hstored).1,
      fun _ stored hstored => (hkept stored hstored).2⟩

lemma Usable.same_swept (h : v.Usable pool) (hsound : Sound v.cr v.p pool) :
    Same pool (v.swept pool) := by
  have hpruned := h.same_pruneExpired hsound
  rcases UInt64.lt_or_le v.height v.p.receiptSlotDedupHeight with hlt | hle
  · rw [swept_of_lt hlt]
    exact hpruned
  · refine hpruned.trans (Same.trans ?_ (RelayView.same_swept hle))
    have hnone : ((pool.pruneExpired v.p v.height).records.filter fun stored =>
        v.verdict stored ≠ .keep) = [] := by
      rw [hpruned.records, List.filter_eq_nil_iff]
      intro stored hstored
      simpa using h.usable hle stored hstored
    rw [hnone]
    exact .refl _

end RelayView

/-! ### What queueing does -/

namespace RelayRecordPoolV2

section Enqueue

variable {cr : Crypto} {p : RelayPoolParametersV2} {pool : RelayRecordPoolV2}
  {record : EnvelopeRecordV2} {height : UInt64} {entry : StoredRecordV2}
  {recordClass : RelayClassV2}

/-- The entry `enqueue` makes of a record, with its class. -/
structure Described (cr : Crypto) (p : RelayPoolParametersV2) (record : EnvelopeRecordV2)
    (height : UInt64) (entry : StoredRecordV2) (recordClass : RelayClassV2) : Prop where
  described : describe p record height = some (recordClass, entry.deadlineHeight)
  backed : entry.Backed cr p
  record_eq : entry.record = record

lemma describe_class {deadlineHeight : UInt64}
    (h : describe p record height = some (recordClass, deadlineHeight)) :
    recordClass =
      if record.type = RecordTypeV2.serviceReceipt.code then .evidence else .enrollment := by
  have hmap : ∀ {deadline : Option UInt64} {c : RelayClassV2},
      deadline.map (c, ·) = some (recordClass, deadlineHeight) → recordClass = c := by
    intro deadline c heq
    obtain ⟨_, -, heq⟩ := Option.map_eq_some_iff.mp heq
    exact (Prod.mk.inj heq).1.symm
  have hother : ∀ {kind : RecordTypeV2}, RecordTypeV2.ofCode record.type = some kind →
      kind ≠ .serviceReceipt → record.type ≠ RecordTypeV2.serviceReceipt.code := by
    intro kind htype hne
    rw [RecordTypeV2.ofCode_eq_some_iff.mp htype]
    revert hne
    cases kind <;> decide
  unfold describe at h
  cases htype : RecordTypeV2.ofCode record.type with
  | none =>
    rw [htype] at h
    cases h
  | some kind =>
    rw [htype] at h
    cases kind with
    | identityDescriptor | descriptorLifecycle | admissionLease =>
      rw [if_neg (hother htype nofun)]
      dsimp only at h
      split at h
      · cases h
      · exact hmap h
    | serviceReceipt =>
      rw [if_pos (RecordTypeV2.ofCode_eq_some_iff.mp htype)]
      dsimp only at h
      split at h
      · cases h
      · split_ifs at h
        · exact hmap h
        · obtain ⟨window, -, heq⟩ := Option.map_eq_some_iff.mp h
          exact (Prod.mk.inj heq).1.symm
    | servicePaymentProof => cases h

/-- `enqueue` is refused at once, or it makes an entry of the record and looks for duplicates. -/
lemma enqueue_eq (hvalid : p.valid = true) (pool : RelayRecordPoolV2) (record : EnvelopeRecordV2)
    (height : UInt64) :
    (pool.enqueue cr p record height = (pool, .paymentProofForbidden) ∨
        pool.enqueue cr p record height = (pool, .invalidRecord)) ∨
      ∃ entry recordClass, Described cr p record height entry recordClass ∧
        ∀ pool' : RelayRecordPoolV2, pool'.enqueue cr p record height =
          enqueueEntry p (pool'.pruneExpired p height) height entry recordClass
            (encodedLength p record) := by
  by_cases hproof : record.type = RecordTypeV2.servicePaymentProof.code
  · refine .inl (.inl ?_)
    rw [enqueue, if_neg (by simp [hvalid]), if_pos hproof]
  cases hdescribe : describe p record height with
  | none =>
    refine .inl (.inr ?_)
    rw [enqueue, if_neg (by simp [hvalid]), if_neg hproof, hdescribe]
  | some described =>
    obtain ⟨recordClass, deadlineHeight⟩ := described
    cases hencode : encodeEnvelopeV2 [record] p.envelopeLimits with
    | error status =>
      refine .inl (.inr ?_)
      rw [enqueue, if_neg (by simp [hvalid]), if_neg hproof, hdescribe]
      dsimp only
      rw [hencode]
    | ok envelope =>
      obtain ⟨encoded, budget⟩ := envelope
      have hlength : budget.bytes = encodedLength p record := by
        unfold encodedLength
        rw [hencode]
        obtain ⟨charge, -, heq⟩ := (encodeEnvelopeV2_eq_ok_iff.mp hencode).charged
        rw [heq]
      refine .inr ⟨⟨relayId cr encoded, record, deadlineHeight, Qwertycoin.receiptSlot record,
        Qwertycoin.receiptContext record⟩, recordClass,
        ⟨hdescribe, ⟨⟨encoded, budget, hencode, rfl⟩, rfl, rfl⟩, rfl⟩, fun pool' => ?_⟩
      rw [enqueue, if_neg (by simp [hvalid]), if_neg hproof, hdescribe]
      dsimp only
      rw [hencode]
      dsimp only
      rw [hlength]

/-- An entry that is compared with the receipt of its slot. -/
def BySlot (p : RelayPoolParametersV2) (height : UInt64) (entry : StoredRecordV2) : Prop :=
  ¬(height < p.receiptSlotDedupHeight ∨ entry.receiptSlot = [])

lemma BySlot.le (h : BySlot p height entry) : p.receiptSlotDedupHeight ≤ height :=
  UInt64.not_lt.mp (not_or.mp h).1

lemma BySlot.ne_nil (h : BySlot p height entry) : entry.receiptSlot ≠ [] := (not_or.mp h).2

/-- A stored record that stands for an entry: the receipt of its slot, if it has the same context,
and otherwise the same record with the same deadline. -/
structure StandsFor (p : RelayPoolParametersV2) (height : UInt64) (entry stored : StoredRecordV2) :
    Prop where
  by_slot : BySlot p height entry → stored.receiptSlot = entry.receiptSlot ∧
    stored.receiptContext = entry.receiptContext
  by_id : ¬BySlot p height entry → stored.id = entry.id ∧ stored.record = entry.record ∧
    stored.deadlineHeight = entry.deadlineHeight

/-- The status for an entry that a stored record stands for. -/
def knownStatus (entry stored : StoredRecordV2) : RelayRecordStatusV2 :=
  if stored.id = entry.id then .idempotentDuplicate else .receiptSlotVariant

/-- A status that does not end a batch. -/
def Held (status : RelayRecordStatusV2) : Prop :=
  status = .accepted ∨ status = .idempotentDuplicate ∨ status = .receiptSlotVariant

/-- The records that make way for an entry are receipts of its slot, of another context. -/
structure MakesRoom (p : RelayPoolParametersV2) (height : UInt64) (entry : StoredRecordV2)
    (records room : List StoredRecordV2) : Prop where
  subset : room ⊆ records
  gone : ∀ stored ∈ records, stored ∉ room → BySlot p height entry ∧
    stored.receiptSlot = entry.receiptSlot ∧ stored.receiptContext ≠ entry.receiptContext
  free : BySlot p height entry → ∀ stored ∈ room, stored.receiptSlot ≠ entry.receiptSlot

/-- How `enqueue` ends on a pool that has been pruned, for the entry it has made. -/
inductive Outcome (cr : Crypto) (p : RelayPoolParametersV2) (height : UInt64)
    (entry : StoredRecordV2) (pool : RelayRecordPoolV2) :
    RelayRecordPoolV2 × RelayRecordStatusV2 → Prop
  | known {pool' stored} : Same pool pool' → stored ∈ pool.records →
      StandsFor p height entry stored →
      Outcome cr p height entry pool (pool', knownStatus entry stored)
  | accepted {pool' room} : Sound cr p pool' → MakesRoom p height entry pool.records room →
      pool'.records = room ++ [entry] → height ≤ entry.deadlineHeight →
      Outcome cr p height entry pool (pool', .accepted)
  | refused {pool' status} : Sound cr p pool' → pool'.records ⊆ pool.records → ¬Held status →
      Outcome cr p height entry pool (pool', status)

variable {pool' : RelayRecordPoolV2} {stored : StoredRecordV2} {status : RelayRecordStatusV2}

/-- The item of the queue that an entry stands for, once it is known to be the entry's. -/
lemma Described.item_eq (h : Described cr p record height entry recordClass) :
    (⟨entry.id, recordClass, UInt64.ofNat (encodedLength p record), entry.deadlineHeight⟩ :
      RelayItemV2) = entry.item p := by
  rw [StoredRecordV2.item, h.record_eq, ← describe_class h.described]

lemma enqueueAnswer_refused {status : ResourceStatusV2} (h : status ≠ .accepted)
    (pool : RelayRecordPoolV2) (entry : StoredRecordV2) :
    Same pool (pool.enqueueAnswer entry pool.queue status).1 ∧
      ¬Held (pool.enqueueAnswer entry pool.queue status).2 := by
  obtain ⟨queue, records, diagnostics⟩ := pool
  have hqueue : (enqueueAnswer ⟨queue, records, diagnostics⟩ entry queue status).1.queue =
      queue := by
    cases status <;> rfl
  refine ⟨⟨hqueue, ?_⟩, ?_⟩
  · cases status with
    | accepted => exact absurd rfl h
    | _ => rfl
  · cases status with
    | accepted => exact absurd rfl h
    | _ => simp [Held, enqueueAnswer]

lemma enqueueItem_cases (hvalid : p.valid = true) (hsound : Sound cr p pool)
    (hsettled : Settled p height pool)
    (hentry : Described cr p record height entry recordClass) :
    ∃ pool' status, enqueueItem p pool height entry recordClass (encodedLength p record) =
        (pool', status) ∧
      ((Same pool pool' ∧ ¬Held status) ∨
        (Same pool pool' ∧ status = .idempotentDuplicate ∧ ∃ stored ∈ pool.records,
          stored.id = entry.id ∧ stored.record = entry.record ∧
          stored.deadlineHeight = entry.deadlineHeight) ∨
        (Sound cr p pool' ∧ status = .accepted ∧ pool'.records = pool.records ++ [entry] ∧
          height ≤ entry.deadlineHeight)) := by
  have hlimits : p.queueLimits.valid = true := by
    simp only [RelayPoolParametersV2.valid, Bool.and_eq_true] at hvalid
    exact hvalid.1.2
  have hpruned : pool.queue.pruneExpired height = pool.queue :=
    (hsettled.same_dropExpired hsound {}).queue
  unfold enqueueItem
  cases hfind : pool.records.find? fun stored => stored.id = entry.id with
  | some duplicate =>
    dsimp only
    have hid := List.find?_some hfind
    rw [decide_eq_true_eq] at hid
    split_ifs with hsame
    · exact ⟨_, _, rfl, .inr (.inl ⟨Same.diagnostics (.refl _) _, rfl, duplicate,
        List.mem_of_find?_eq_some hfind, hid, hsame⟩)⟩
    · exact ⟨_, _, rfl, .inl ⟨.refl _, by simp [Held]⟩⟩
  | none =>
    dsimp only
    rw [hentry.item_eq]
    have hcases := hsound.queue.enqueue_cases hlimits (entry.item p) height
    dsimp only at hcases
    rw [hpruned] at hcases
    rcases hcases with ⟨status, hstatus, hqueue⟩ | ⟨hqueue, hopen, hnew, hroom⟩
    · -- the queue is as before
      have hqueue : DeadlineRelayQueueV2.enqueue p.queueLimits pool.queue (entry.item p)
          height = (pool.queue, status) := hqueue.elim And.left And.left
      rw [hqueue]
      exact ⟨_, _, rfl, .inl (enqueueAnswer_refused hstatus pool entry)⟩
    · rw [hqueue]
      refine ⟨_, _, rfl, .inr (.inr ⟨⟨hsound.queue.append hnew hroom, ?_, ?_⟩, rfl, rfl, hopen⟩)⟩
      · show pool.queue.items ++ [entry.item p] = (pool.records ++ [entry]).map _
        rw [hsound.items, List.map_append, List.map_singleton]
      · intro stored hstored
        rcases List.mem_append.mp hstored with hstored | hstored
        · exact hsound.backed stored hstored
        · rw [List.mem_singleton.mp hstored]
          exact hentry.backed

/-- The first part of `enqueue`, on a pool that has been pruned: it ends the call with a record
that stands for the entry, or makes room for the entry. -/
lemma enqueueSlot_cases (hsound : Sound cr p pool) (hsettled : Settled p height pool)
    (entry : StoredRecordV2) :
    (∃ pool', ∃ stored ∈ pool.records, enqueueSlot p pool height entry.id entry.receiptSlot
        entry.receiptContext = (pool', some (knownStatus entry stored)) ∧ Same pool pool' ∧
      StandsFor p height entry stored) ∨
    ∃ pool', enqueueSlot p pool height entry.id entry.receiptSlot entry.receiptContext =
        (pool', none) ∧ Sound cr p pool' ∧
      MakesRoom p height entry pool.records pool'.records ∧
      (¬BySlot p height entry → pool' = pool) := by
  unfold enqueueSlot
  split_ifs with hskip
  · -- no deduplication by slots
    exact .inr ⟨_, rfl, hsound, ⟨List.Subset.refl _, fun _ hmem hnot => absurd hmem hnot,
      fun hslot => absurd hskip hslot⟩, fun _ => rfl⟩
  · have hby : BySlot p height entry := hskip
    cases hfind : pool.records.find? fun stored => stored.receiptSlot = entry.receiptSlot with
    | none =>
      refine .inr ⟨_, rfl, hsound, ⟨List.Subset.refl _, fun _ hmem hnot => absurd hmem hnot,
        fun _ stored hstored => ?_⟩, fun _ => rfl⟩
      simpa using List.find?_eq_none.mp hfind stored hstored
    | some duplicate =>
      have hmem := List.mem_of_find?_eq_some hfind
      have hslot := List.find?_some hfind
      rw [decide_eq_true_eq] at hslot
      dsimp only
      by_cases hcontext : duplicate.receiptContext = entry.receiptContext
      · have hstands : StandsFor p height entry duplicate :=
          ⟨fun _ => ⟨hslot, hcontext⟩, fun hnot => absurd hby hnot⟩
        rw [if_pos hcontext]
        refine .inl ?_
        by_cases hid : duplicate.id = entry.id
        · rw [if_pos hid]
          exact ⟨_, duplicate, hmem, by rw [knownStatus, if_pos hid],
            Same.diagnostics (.refl _) _, hstands⟩
        · rw [if_neg hid]
          exact ⟨_, duplicate, hmem, by rw [knownStatus, if_neg hid],
            Same.diagnostics (.refl _) _, hstands⟩
      · -- the one record of the slot belongs to another context and makes way
        rw [if_neg hcontext]
        have hunique := hsettled.unique hby.le
        have hsame : ∀ stored ∈ pool.records, stored.receiptSlot = entry.receiptSlot →
            stored = duplicate := fun stored hstored heq =>
          hunique stored hstored duplicate hmem (heq.trans hslot.symm) (heq ▸ hby.ne_nil)
        refine .inr ⟨_, rfl, ?_, ⟨List.erase_subset, ?_, ?_⟩, fun hnot => absurd hby hnot⟩
        · have hremoved : [duplicate] ⊆ pool.records := by simpa using hmem
          rw [hsound.nodup.erase_eq_filter]
          exact hsound.remove hremoved (by simp)
        · intro stored hstored hgone
          rw [hsound.nodup.mem_erase_iff, not_and_or, not_not] at hgone
          obtain rfl := hgone.resolve_right (not_not.mpr hstored)
          exact ⟨hby, hslot, hcontext⟩
        · intro _ stored hstored heq
          obtain ⟨hne, hstored⟩ := hsound.nodup.mem_erase_iff.mp hstored
          exact hne (hsame stored hstored heq)

lemma outcome_enqueue (hvalid : p.valid = true) (hsound : Sound cr p pool)
    (hentry : Described cr p record height entry recordClass)
    (heq : pool.enqueue cr p record height = enqueueEntry p (pool.pruneExpired p height) height
      entry recordClass (encodedLength p record)) :
    Outcome cr p height entry (pool.pruneExpired p height)
      (pool.enqueue cr p record height) := by
  have hpruned := hsound.pruneExpired height
  have hsettled := settled_pruneExpired p pool height
  rw [heq, enqueueEntry]
  generalize pool.pruneExpired p height = pruned at hpruned hsettled
  rcases enqueueSlot_cases hpruned hsettled entry with
    ⟨pool', stored, hmem, hslot, hsame, hstands⟩ | ⟨room, hslot, hsound', hroom, hkept⟩
  · rw [hslot]
    exact .known hsame hmem hstands
  · rw [hslot]
    dsimp only
    obtain ⟨pool', status, hitem, ⟨hsame, hrefused⟩ | ⟨hsame, rfl, stored, hmem, hid, hrecord,
        hdeadline⟩ | ⟨hsound'', rfl, hrecords, hopen⟩⟩ :=
      enqueueItem_cases hvalid hsound' (hsettled.subset hroom.subset) hentry
    · rw [hitem]
      exact .refused (hsame.sound hsound') (hsame.records ▸ hroom.subset) hrefused
    · -- the same record has the same slot, so no room was made for the entry
      have hnot : ¬BySlot p height entry := by
        intro hby
        refine hroom.free hby stored hmem ?_
        rw [(hsound'.backed stored hmem).slot, hentry.backed.slot, hrecord]
      obtain rfl := hkept hnot
      have houtcome : Outcome cr p height entry room (pool', knownStatus entry stored) :=
        .known hsame hmem ⟨fun hby => absurd hby hnot, fun _ => ⟨hid, hrecord, hdeadline⟩⟩
      rwa [knownStatus, if_pos hid, ← hitem] at houtcome
    · rw [hitem]
      exact .accepted hsound'' hroom hrecords hopen

lemma Outcome.sound (h : Outcome cr p height entry pool (pool', status))
    (hsound : Sound cr p pool) : Sound cr p pool' := by
  cases h with
  | known hsame => exact hsame.sound hsound
  | accepted hsound' => exact hsound'
  | refused hsound' => exact hsound'

lemma Outcome.settled (h : Outcome cr p height entry pool (pool', status))
    (hsettled : Settled p height pool) : Settled p height pool' := by
  cases h with
  | known hsame => exact hsettled.same hsame
  | refused _ hsub => exact hsettled.subset hsub
  | accepted _ hroom hrecords hopen =>
    refine ⟨?_, fun hle => ?_⟩
    · intro stored hstored
      rw [hrecords, List.mem_append, List.mem_singleton] at hstored
      rcases hstored with hstored | rfl
      · exact hsettled.open_ stored (hroom.subset hstored)
      · exact hopen
    · rw [hrecords]
      exact ((hsettled.unique hle).subset hroom.subset).append fun hne =>
        hroom.free (not_or.mpr ⟨UInt64.not_lt.mpr hle, hne⟩)

lemma Outcome.mem_or_eq (h : Outcome cr p height entry pool (pool', status))
    (hstored : stored ∈ pool'.records) : stored ∈ pool.records ∨ stored = entry := by
  cases h with
  | known hsame => exact .inl (hsame.records ▸ hstored)
  | refused _ hsub => exact .inl (hsub hstored)
  | accepted _ hroom hrecords =>
    rw [hrecords, List.mem_append, List.mem_singleton] at hstored
    exact hstored.imp_left fun hstored => hroom.subset hstored

/-- Unless the entry is refused, only a receipt of its slot and of another context is dropped. -/
lemma Outcome.kept (h : Outcome cr p height entry pool (pool', status)) (hheld : Held status)
    (hstored : stored ∈ pool.records) : stored ∈ pool'.records ∨ (BySlot p height entry ∧
      stored.receiptSlot = entry.receiptSlot ∧ stored.receiptContext ≠ entry.receiptContext) := by
  cases h with
  | known hsame => exact .inl (hsame.mem hstored)
  | refused _ _ hrefused => exact absurd hheld hrefused
  | @accepted _ room _ hroom hrecords =>
    by_cases hkept : stored ∈ room
    · exact .inl (hrecords ▸ List.mem_append_left _ hkept)
    · exact .inr (hroom.gone stored hstored hkept)

/-- Unless the entry is refused, there is a record that stands for it afterwards. -/
lemma Outcome.exists_standsFor (h : Outcome cr p height entry pool (pool', status))
    (hheld : Held status) : ∃ stored ∈ pool'.records, StandsFor p height entry stored ∧
      (knownStatus entry stored = .receiptSlotVariant ↔ status = .receiptSlotVariant) := by
  cases h with
  | known hsame hmem hstands => exact ⟨_, hsame.mem hmem, hstands, Iff.rfl⟩
  | refused _ _ hrefused => exact absurd hheld hrefused
  | accepted _ _ hrecords =>
    refine ⟨entry, by simp [hrecords], ⟨fun _ => ⟨rfl, rfl⟩, fun _ => ⟨rfl, rfl, rfl⟩⟩, ?_⟩
    simp [knownStatus]

lemma sound_enqueue (hvalid : p.valid = true) (hsound : Sound cr p pool)
    (record : EnvelopeRecordV2) (height : UInt64) :
    Sound cr p (pool.enqueue cr p record height).1 ∧
      ((pool.enqueue cr p record height).2 = .accepted →
        Settled p height (pool.enqueue cr p record height).1) := by
  rcases enqueue_eq hvalid pool record height with (heq | heq) |
    ⟨entry, recordClass, hentry, heq⟩
  · rw [heq]
    exact ⟨hsound, nofun⟩
  · rw [heq]
    exact ⟨hsound, nofun⟩
  · have houtcome := outcome_enqueue hvalid hsound hentry (heq pool)
    exact ⟨houtcome.sound (hsound.pruneExpired height),
      fun _ => houtcome.settled (settled_pruneExpired p pool height)⟩

lemma find?_eq_some_of_forall {records : List StoredRecordV2} {kind : StoredRecordV2 → Bool}
    (hmem : stored ∈ records) (hkind : kind stored = true)
    (h : ∀ other ∈ records, kind other = true → other = stored) :
    records.find? kind = some stored := by
  cases hfind : records.find? kind with
  | none => exact absurd hkind (List.find?_eq_none.mp hfind stored hmem)
  | some found => rw [h found (List.mem_of_find?_eq_some hfind) (List.find?_some hfind)]

/-- Queueing a record again, when a stored one stands for it. -/
lemma enqueue_of_standsFor (hsound : Sound cr p pool) (hsettled : Settled p height pool)
    (heq : pool.enqueue cr p record height = enqueueEntry p (pool.pruneExpired p height) height
      entry recordClass (encodedLength p record))
    (hmem : stored ∈ pool.records) (hstands : StandsFor p height entry stored) :
    Same pool (pool.enqueue cr p record height).1 ∧
      (pool.enqueue cr p record height).2 = knownStatus entry stored := by
  have hsame := hsettled.same_pruneExpired hsound
  rw [heq, enqueueEntry, enqueueSlot]
  by_cases hby : BySlot p height entry
  · obtain ⟨hslot, hcontext⟩ := hstands.by_slot hby
    have hfind : (pool.pruneExpired p height).records.find?
        (fun stored => stored.receiptSlot = entry.receiptSlot) = some stored := by
      refine find?_eq_some_of_forall (hsame.mem hmem) (by simpa using hslot) ?_
      intro other hother heq
      rw [hsame.records] at hother
      rw [decide_eq_true_eq] at heq
      exact hsettled.unique hby.le other hother stored hmem (heq.trans hslot.symm)
        (heq ▸ hby.ne_nil)
    rw [if_neg hby, hfind]
    dsimp only
    rw [if_pos hcontext, knownStatus]
    split_ifs
    · exact ⟨hsame.diagnostics _, rfl⟩
    · exact ⟨hsame.diagnostics _, rfl⟩
  · obtain ⟨hid, hrecord, hdeadline⟩ := hstands.by_id hby
    have hfind : (pool.pruneExpired p height).records.find?
        (fun stored => stored.id = entry.id) = some stored := by
      refine find?_eq_some_of_forall (hsame.mem hmem) (by simpa using hid) ?_
      intro other hother heq
      rw [hsame.records] at hother
      rw [decide_eq_true_eq] at heq
      exact hsound.eq_of_id hother hmem (heq.trans hid.symm)
    rw [if_pos (not_not.mp hby)]
    dsimp only
    rw [enqueueItem, hfind]
    dsimp only
    rw [if_pos ⟨hrecord, hdeadline⟩, knownStatus, if_pos hid]
    exact ⟨hsame.diagnostics _, rfl⟩

end Enqueue

/-! ### What a template gets -/

section Select

variable {cr : Crypto} {p : RelayPoolParametersV2} {pool : RelayRecordPoolV2}

lemma exists_selected {limits : RelayTemplateLimitsV2} {queueLimits : RelayQueueLimitsV2}
    {q : DeadlineRelayQueueV2} (hqueue : queueLimits.valid = true) (hlimits : limits.valid = true)
    (hq : q.Consistent queueLimits) (currentHeight : UInt64) :
    ∃ selected, DeadlineRelayQueueV2.selectForTemplate queueLimits q currentHeight limits =
      .ok selected ∧ ∀ item ∈ selected, item ∈ q.items := by
  obtain ⟨s, hexact, hreserved, hselect⟩ :=
    DeadlineRelayQueueV2.exists_selectForTemplate hqueue hlimits q currentHeight
  obtain ⟨-, hselected⟩ := hexact.fill (hq.candidates_distinct currentHeight)
  refine ⟨_, hselect, fun item hitem => ?_⟩
  rw [hselected, hreserved, List.mem_append, List.mem_append] at hitem
  have hcandidate : item ∈ q.candidates currentHeight := by
    rcases hitem with (hitem | hitem) | hitem
    · exact (DeadlineRelayQueueV2.reserved_subset _ hitem).1
    · exact (DeadlineRelayQueueV2.reserved_subset _ hitem).1
    · exact List.mem_of_mem_filter ((Greedy.choose_sublist _ _ _ _).subset hitem)
  exact (DeadlineRelayQueueV2.mem_candidates.mp hcandidate).1

/-- A selection is found in the records, and leaves the pool pruned. -/
lemma Sound.exists_selectForTemplate (h : Sound cr p pool) (hvalid : p.valid = true)
    (currentHeight : UInt64) :
    ∃ selected, (pool.selectForTemplate p currentHeight).2 = some selected ∧
      Same (pool.pruneExpired p currentHeight) (pool.selectForTemplate p currentHeight).1 ∧
      ∀ entry ∈ selected, ∃ stored ∈ (pool.pruneExpired p currentHeight).records,
        entry = (stored.id, stored.record) := by
  simp only [RelayPoolParametersV2.valid, Bool.and_eq_true] at hvalid
  have hpruned := h.pruneExpired currentHeight
  unfold RelayRecordPoolV2.selectForTemplate
  dsimp only
  generalize pool.pruneExpired p currentHeight = pruned at hpruned
  obtain ⟨items, hselect, hitems⟩ :=
    exists_selected hvalid.1.2 hvalid.2 hpruned.queue currentHeight
  rw [hselect]
  dsimp only
  -- every item belongs to a record
  have hfound : ∀ items : List RelayItemV2, (∀ item ∈ items, item ∈ pruned.queue.items) →
      ∃ found : List StoredRecordV2, (items.mapM fun item =>
        pruned.records.find? fun stored => stored.id = item.id) = some found ∧
        ∀ stored ∈ found, stored ∈ pruned.records := by
    intro items hitems
    induction items with
    | nil => exact ⟨[], rfl, nofun⟩
    | cons item items ih =>
      obtain ⟨hitem, hitems⟩ := List.forall_mem_cons.mp hitems
      obtain ⟨found, hmap, hmem⟩ := ih hitems
      rw [hpruned.items] at hitem
      obtain ⟨stored, hstored, rfl⟩ := List.mem_map.mp hitem
      cases hfind : pruned.records.find? fun other => other.id = (stored.item p).id with
      | none =>
        have hnone := List.find?_eq_none.mp hfind stored hstored
        rw [decide_eq_true_eq] at hnone
        exact absurd rfl hnone
      | some other =>
        refine ⟨other :: found, ?_, List.forall_mem_cons.mpr
          ⟨List.mem_of_find?_eq_some hfind, hmem⟩⟩
        rw [List.mapM_cons, hfind, hmap]
        rfl
  obtain ⟨found, hmap, hmem⟩ := hfound items hitems
  rw [hmap]
  refine ⟨_, rfl, Same.diagnostics (.refl _) _, fun entry hentry => ?_⟩
  obtain ⟨stored, hstored, rfl⟩ := List.mem_map.mp hentry
  exact ⟨stored, hmem stored hstored, rfl⟩

end Select

end RelayRecordPoolV2

end Qwertycoin
