import Qwertycoin.Lib.Encoding
import Qwertycoin.Evidence
import Qwertycoin.RelayPool

/-
# Batches of relayed envelopes

Envelopes from peers are admitted in batches.  They are checked one after the other against a copy
of the canonical state and queued in a copy of the pool, and the copy replaces the pool only when
the whole batch was admitted.

A batch that was admitted can be submitted again: the receipts it queued are still usable against
the canonical state alone, and whatever a record of the batch was compared with is still there,
because a receipt only ever gives way to one of another context and all receipts that pass the
canonical state have the context of that state.
-/

namespace Qwertycoin

/-! ## Batches from peers -/

section Admission

variable (cr : Crypto) (sp : SemanticParametersV2) (contexts : CanonicalContextSourceV2)
  (p : RelayPoolParametersV2) (envelopeLimits : EnvelopeLimitsV2) (policy : RelayPolicyV2)

/-- The size checks of `admit_relay_envelopes_v2`, with the bytes of the envelopes before. -/
def batchFits : List (List UInt8) → ℕ → Bool
  | [], _ => true
  | encoded :: envelopes, totalBytes =>
    !(envelopeLimits.maxEnvelopeBytes < encoded.length ||
        policy.queue.maxBytes.toNat < encoded.length ||
        policy.queue.maxBytes.toNat - encoded.length < totalBytes) &&
      batchFits envelopes (totalBytes + encoded.length)

/-- What the loop of `admit_relay_envelopes_v2` carries: the copy of the canonical state, the copy
of the pool, and the envelopes to forward. -/
structure RelayIngress where
  semantic : SemanticStateV2
  pool : RelayRecordPoolV2
  accepted : List (List UInt8) := []

/-- How the loop ends early: the status, and what is recorded in the pool. -/
structure RelayRefusal where
  status : RelayIngressStatusV2
  rejection : Option RelayRecordStatusV2 := none
deriving DecidableEq

/-- The checks of a receipt against the window of its round and the slots that are filled: whether
it is passed over. -/
def receiptRace (semantic : SemanticStateV2) (inclusionHeight : UInt64)
    (record : EnvelopeRecordV2) : Except RelayRefusal Bool :=
  match decodeServiceReceiptRecordStructureV2 record with
  | .error _ => .error { status := .invalidBatch }
  | .ok receipt =>
    let challenge := receipt.challenge
    match contexts.roundAnchor challenge.epoch challenge.round,
      receiptInclusionWindowV2 sp.timing sp.committeePolicy challenge.epoch challenge.round with
    | some canonicalAnchor, some (firstInclusion, lastInclusion) =>
      let status := (semantic.membership.receiptStatus cr sp receipt firstInclusion
        canonicalAnchor).1
      if lastInclusion < inclusionHeight then
        if status = .accepted ∨ status = .idempotentDuplicate ∨ status = .receiptSlotConflict ∨
            status = .qualificationAlreadyClosed then .error { status := .expired }
        else .error { status := .invalidBatch }
      else if semantic.membership.hasReceiptSlot challenge.epoch challenge.round
          challenge.subjectPublicKey challenge.verifierPublicKey then
        if status = .idempotentDuplicate ∨ status = .receiptSlotConflict then .ok true
        else .error { status := .invalidBatch }
      else .ok false
    | _, _ => .error { status := .invalidBatch }

/-- Whether a record is checked against the window of its round first. -/
def racing (inclusionHeight : UInt64) (record : EnvelopeRecordV2) : Bool :=
  policy.receiptSlotDedupHeight ≤ inclusionHeight &&
    record.type = RecordTypeV2.serviceReceipt.code

/-- The rest of a turn, for a record that is not passed over: it is applied to the copy of the
canonical state and queued in the copy of the pool. -/
def admitRecord (inclusionHeight : UInt64) (w : RelayIngress) (encoded : List UInt8)
    (record : EnvelopeRecordV2) : Except RelayRefusal RelayIngress :=
  let applied := w.semantic.applyTransaction cr sp contexts (some w.semantic.checkpoint) [record]
    ⟨inclusionHeight, false, none, none⟩
  if applied.status ≠ .accepted then .error { status := .invalidBatch }
  else
    let tentative := w.pool.enqueue cr p record inclusionHeight
    match tentative.2 with
    | .expired => .error { status := .expired, rejection := some .expired }
    | .full => .error { status := .capacityExhausted, rejection := some .full }
    | .receiptSlotVariant =>
      .ok { w with
        semantic := applied.state.rollback (applied.blockUndo.getD w.semantic.checkpoint)
        pool := tentative.1 }
    | .idempotentDuplicate =>
      -- the duplicate stays in the preview: later records may depend on it
      .ok ⟨applied.state, tentative.1,
        if racing policy inclusionHeight record then w.accepted ++ [encoded] else w.accepted⟩
    | .accepted => .ok ⟨applied.state, tentative.1, w.accepted ++ [encoded]⟩
    | _ => .error { status := .invalidBatch }

/-- One turn of the loop of `admit_relay_envelopes_v2`. -/
def admitOne (inclusionHeight : UInt64) (w : RelayIngress) (encoded : List UInt8) :
    Except RelayRefusal RelayIngress :=
  match parseEnvelopeV2 encoded envelopeLimits with
  | .ok ([record], _) =>
    match if racing policy inclusionHeight record then
        receiptRace cr sp contexts w.semantic inclusionHeight record else .ok false with
    | .error refusal => .error refusal
    | .ok true => .ok w
    | .ok false => admitRecord cr sp contexts p policy inclusionHeight w encoded record
  | _ => .error { status := .invalidBatch }

/-- `admit_relay_envelopes_v2`: the status, the pool after the call, and the envelopes to
forward. -/
def admitRelayEnvelopesV2 (envelopes : List (List UInt8)) (inclusionHeight : UInt64)
    (canonicalState : SemanticStateV2) (pool : RelayRecordPoolV2) :
    RelayIngressStatusV2 × RelayRecordPoolV2 × List (List UInt8) :=
  if !envelopeLimits.valid || !policy.valid || !sp.valid || !p.valid ||
      policy.queue.maxItems.toNat < envelopes.length then (.invalidConfiguration, pool, [])
  else if !batchFits envelopeLimits policy envelopes 0 then (.invalidBatch, pool, [])
  else
    match envelopes.foldlM (admitOne cr sp contexts p envelopeLimits policy inclusionHeight)
      ⟨canonicalState, pool.pruneUnusableReceipts cr sp contexts p inclusionHeight canonicalState,
        []⟩ with
    | .error refusal =>
      (refusal.status, refusal.rejection.elim pool pool.recordIngressRejection, [])
    | .ok w => (.accepted, w.pool, w.accepted)

end Admission

/-! ## What a batch leaves of the canonical state -/

namespace SemanticStateV2

/-- A state with the snapshots and the closed epochs of another one, and more receipts. -/
structure Extends (s s' : SemanticStateV2) : Prop where
  snapshots : s'.membership.snapshots = s.membership.snapshots
  qualifications : s'.membership.qualifications = s.membership.qualifications
  receipts : s.membership.receipts <+: s'.membership.receipts

variable {cr : Crypto} {sp : SemanticParametersV2} {contexts : CanonicalContextSourceV2}
  {s s' : SemanticStateV2} {height : UInt64} {record : EnvelopeRecordV2}
  {transaction : SemanticTransactionContextV2} {blockUndo : Option UndoJournal}
  {receipt : AuthenticatedServiceReceiptV2} {anchor : Hash}

lemma Extends.refl (s : SemanticStateV2) : Extends s s := ⟨rfl, rfl, List.prefix_rfl⟩

lemma Extends.trans {s₁ s₂ s₃ : SemanticStateV2} (h₁ : Extends s₁ s₂) (h₂ : Extends s₂ s₃) :
    Extends s₁ s₃ :=
  ⟨h₂.snapshots.trans h₁.snapshots, h₂.qualifications.trans h₁.qualifications,
    h₁.receipts.trans h₂.receipts⟩

/-- Records do not freeze or close, and receipts are only appended. -/
lemma Extends.recordStep {undo undo' : UndoJournal}
    (h : RecordStep cr sp contexts height (s, undo) (s', undo')) : Extends s s' := by
  cases h with
  | lifecycle => exact ⟨rfl, rfl, List.prefix_rfl⟩
  | admission =>
    refine ⟨?_, ?_, ?_⟩ <;> unfold MembershipPipelineV2.storeLease <;> split
    · rfl
    · rfl
    · rfl
    · rfl
    · exact List.prefix_rfl
    · exact List.prefix_rfl
  | receipt => exact ⟨rfl, rfl, List.prefix_append ..⟩

lemma extends_applyTransaction (cr : Crypto) (sp : SemanticParametersV2)
    (contexts : CanonicalContextSourceV2) (s : SemanticStateV2) (blockUndo : Option UndoJournal)
    (records : List EnvelopeRecordV2) (transaction : SemanticTransactionContextV2) :
    Extends s (s.applyTransaction cr sp contexts blockUndo records transaction).state := by
  rcases s.applyTransaction_cases cr sp contexts blockUndo records transaction with
    ⟨-, hstate, -⟩ | ⟨-, undo, hsteps, -⟩
  · rw [hstate]
    exact .refl _
  · refine Evolves.invariant (P := fun s' => Extends s s') (fun hstep h => h.trans ?_)
      (evolves_of_recordSteps hsteps) (.refl _)
    exact Extends.recordStep hstep

/-- When a transaction of one receipt is accepted. -/
structure ReceiptPasses (cr : Crypto) (sp : SemanticParametersV2)
    (contexts : CanonicalContextSourceV2) (s : SemanticStateV2) (height : UInt64)
    (record : EnvelopeRecordV2) (receipt : AuthenticatedServiceReceiptV2) (anchor : Hash) :
    Prop where
  decoded : decodeServiceReceiptRecordStructureV2 record = .ok receipt
  anchored : contexts.roundAnchor receipt.challenge.epoch receipt.challenge.round = some anchor
  nonzero : anchor ≠ nullHash
  status : (s.membership.receiptStatus cr sp receipt height anchor).1 = .accepted ∨
    (s.membership.receiptStatus cr sp receipt height anchor).1 = .idempotentDuplicate

lemma applyReceipt_accepted_iff {w : Work} :
    (applyReceipt cr sp contexts height w record).2 = .accepted ↔
      ∃ receipt anchor, ReceiptPasses cr sp contexts w.state height record receipt anchor := by
  have hstatus : ∀ {receipt anchor}, (w.state.membership.applyAuthenticatedReceipt cr sp
      w.undo.membership receipt height anchor).status =
      (w.state.membership.receiptStatus cr sp receipt height anchor).1 := by
    intro receipt anchor
    unfold MembershipPipelineV2.applyAuthenticatedReceipt
    dsimp only
    split_ifs <;> rfl
  unfold applyReceipt
  constructor
  · intro hacc
    split at hacc
    · cases hacc
    · rename_i receipt hdecoded
      split at hacc
      · cases hacc
      · rename_i anchor hanchor
        by_cases hzero : anchor = nullHash
        · rw [if_pos hzero] at hacc
          cases hacc
        · rw [if_neg hzero] at hacc
          dsimp only at hacc
          split_ifs at hacc with hpassed
          rw [hstatus] at hpassed
          exact ⟨receipt, anchor, hdecoded, hanchor, hzero, hpassed⟩
  · rintro ⟨receipt, anchor, h⟩
    rw [h.decoded]
    dsimp only
    rw [h.anchored]
    dsimp only
    rw [if_neg h.nonzero, hstatus, if_pos h.status]

/-- The flag for a Coinbase and the journal make no difference to a receipt. -/
lemma applyTransaction_receipt_iff (htype : record.type = RecordTypeV2.serviceReceipt.code)
    (hheight : transaction.inclusionHeight = height) :
    (s.applyTransaction cr sp contexts blockUndo [record] transaction).status = .accepted ↔
      (sp.valid = true ∧ sp.timing.activationHeight ≤ height) ∧
        ∃ receipt anchor, ReceiptPasses cr sp contexts s height record receipt anchor := by
  subst hheight
  by_cases hopen : sp.valid = true ∧ sp.timing.activationHeight ≤ transaction.inclusionHeight
  · have hv := hopen.1
    simp only [SemanticParametersV2.valid, SemanticParametersV2.membershipValid,
      Bool.and_eq_true] at hv
    obtain ⟨⟨inclusionEpoch, minimumEffectiveEpoch⟩, hepochs⟩ :=
      inclusionEpochs_ok hv.2.1.1.1.1.1 transaction.inclusionHeight
    rw [applyTransaction_record hopen.1 hopen.2 hepochs, and_iff_right hopen, applyRecord, htype]
    exact applyReceipt_accepted_iff
  · refine iff_of_false (fun hacc => hopen ?_) fun h => hopen h.1
    by_contra hnot
    unfold applyTransaction at hacc
    by_cases hvalid : sp.valid = true
    · have hbefore := UInt64.not_le.mp fun hle => hnot ⟨hvalid, hle⟩
      rw [if_neg (by simp [hvalid]), if_pos hbefore] at hacc
      cases hacc
    · rw [if_pos (by simpa using hvalid)] at hacc
      cases hacc

/-- The checks before the signatures look at the snapshots only. -/
lemma Extends.receiptPrecheck (h : Extends s s') (receipt : AuthenticatedServiceReceiptV2)
    (anchor : Hash) :
    s'.membership.receiptPrecheck cr sp receipt height anchor =
      s.membership.receiptPrecheck cr sp receipt height anchor := by
  have hsnapshot : ∀ epoch, s'.membership.snapshot epoch = s.membership.snapshot epoch := by
    intro epoch
    unfold MembershipPipelineV2.snapshot
    rw [h.snapshots]
  unfold MembershipPipelineV2.receiptPrecheck
  dsimp only
  rw [hsnapshot, MembershipPipelineV2.committee_congr (hsnapshot _)]

/-- A receipt that is stored or was stored before has passed the checks before the signatures. -/
lemma ReceiptPasses.precheck (h : ReceiptPasses cr sp contexts s height record receipt anchor) :
    s.membership.receiptPrecheck cr sp receipt height anchor = .accepted := by
  by_contra hne
  have hstatus := h.status
  unfold MembershipPipelineV2.receiptStatus at hstatus
  dsimp only at hstatus
  rw [if_pos hne] at hstatus
  refine hstatus.elim hne fun hduplicate => ?_
  -- no check before the signatures answers with a duplicate
  revert hduplicate
  unfold MembershipPipelineV2.receiptPrecheck
  dsimp only
  repeat' split
  all_goals nofun

lemma ReceiptPasses.context (h : ReceiptPasses cr sp contexts s height record receipt anchor) :
    (∃ frozen, s.membership.snapshot receipt.challenge.epoch = some frozen ∧
      receipt.challenge.snapshotHash = frozen.snapshotHash) ∧
      receipt.challenge.anchorHash = anchor := by
  have hpre := h.precheck
  unfold MembershipPipelineV2.receiptPrecheck at hpre
  dsimp only at hpre
  obtain ⟨-, hpre⟩ := passed_of_ite (by simp) hpre
  obtain ⟨-, hpre⟩ := passed_of_ite (by simp) hpre
  split at hpre
  · cases hpre
  rename_i frozen hfrozen
  obtain ⟨hhash, -⟩ := passed_of_ite (by simp) hpre
  simp only [not_or, not_not] at hhash
  exact ⟨⟨frozen, hfrozen, hhash.1⟩, hhash.2.2.1⟩

/-- The slot of a receipt is free. -/
def SlotFree (s : SemanticStateV2) (receipt : AuthenticatedServiceReceiptV2) : Prop :=
  s.membership.hasReceiptSlot receipt.challenge.epoch receipt.challenge.round
    receipt.challenge.subjectPublicKey receipt.challenge.verifierPublicKey = false

/-- A receipt whose slot is free in an extension passes on the state itself. -/
lemma ReceiptPasses.of_extends (h : ReceiptPasses cr sp contexts s' height record receipt anchor)
    (hext : Extends s s') (hfree : s'.SlotFree receipt) :
    ReceiptPasses cr sp contexts s height record receipt anchor ∧ s.SlotFree receipt := by
  have hsub : s.membership.receipts ⊆ s'.membership.receipts := hext.receipts.subset
  have hfree' := List.any_eq_false.mp hfree
  have hfind : s'.membership.receipts.find?
      (MembershipPipelineV2.fillsSlot receipt.challenge) = none := by
    rw [List.find?_eq_none]
    intro stored hstored hfills
    refine hfree' stored hstored ?_
    simp only [MembershipPipelineV2.fillsSlot, Bool.and_eq_true, decide_eq_true_eq] at hfills ⊢
    exact ⟨⟨⟨hfills.1.1.1.1, hfills.1.1.1.2⟩, hfills.1.2⟩, hfills.2⟩
  have hstatus : (s'.membership.receiptStatus cr sp receipt height anchor).1 = .accepted := by
    refine h.status.resolve_right fun hduplicate => ?_
    -- a duplicate needs a receipt in the slot
    unfold MembershipPipelineV2.receiptStatus at hduplicate
    dsimp only at hduplicate
    rw [if_neg (not_not.mpr h.precheck), hfind] at hduplicate
    dsimp only at hduplicate
    split_ifs at hduplicate
  obtain ⟨hpre, hvalidated, -, hopen⟩ :=
    MembershipPipelineV2.receiptStatus_eq_accepted_iff.mp hstatus
  refine ⟨{ h with status := .inl (MembershipPipelineV2.receiptStatus_eq_accepted_iff.mpr
    ⟨hext.receiptPrecheck receipt anchor ▸ hpre, hvalidated, ?_, hext.qualifications ▸ hopen⟩) },
    List.any_eq_false.mpr fun stored hstored => hfree' stored (hsub hstored)⟩
  rw [List.find?_eq_none] at hfind ⊢
  exact fun stored hstored => hfind stored (hsub hstored)

end SemanticStateV2

/-! ## Slots and contexts -/

section Slots

variable {record record' : EnvelopeRecordV2} {receipt receipt' : AuthenticatedServiceReceiptV2}

lemma exists_of_receiptSlot_ne_nil (h : receiptSlot record ≠ []) :
    ∃ receipt, decodeServiceReceiptRecordStructureV2 record = .ok receipt := by
  unfold receiptSlot at h
  split at h
  · exact absurd rfl h
  · rename_i receipt hdecoded
    exact ⟨receipt, hdecoded⟩

lemma type_of_decodeServiceReceipt
    (h : decodeServiceReceiptRecordStructureV2 record = .ok receipt) :
    record.type = RecordTypeV2.serviceReceipt.code := by
  unfold decodeServiceReceiptRecordStructureV2 decodePayload at h
  by_contra hne
  rw [if_pos (by simpa using hne)] at h
  cases h

lemma round_of_receiptSlot (h : decodeServiceReceiptRecordStructureV2 record = .ok receipt)
    (h' : decodeServiceReceiptRecordStructureV2 record' = .ok receipt')
    (hslot : receiptSlot record = receiptSlot record') :
    receipt.challenge.epoch = receipt'.challenge.epoch ∧
      receipt.challenge.round = receipt'.challenge.round := by
  unfold receiptSlot at hslot
  rw [h, h'] at hslot
  dsimp only at hslot
  simp only [List.append_assoc, List.append_cancel_left_eq, List.cons_append,
    List.cons.injEq] at hslot
  obtain ⟨hepoch, hrest⟩ := Bytes.readable_u64 trivial trivial hslot.2
  exact ⟨hepoch, (Bytes.readable_u64 trivial trivial hrest).1⟩

end Slots

/-! ## One turn of the loop -/

namespace RelayView

open RelayRecordPoolV2

variable {v : RelayView} {record record' : EnvelopeRecordV2} {entry stored : StoredRecordV2}

/-- The transaction of one record that a turn of the loop tries. -/
def applied (v : RelayView) (semantic : SemanticStateV2) (record : EnvelopeRecordV2) :
    SemanticStateV2.Applied :=
  semantic.applyTransaction v.cr v.sp v.contexts (some semantic.checkpoint) [record]
    ⟨v.height, false, none, none⟩

/-- Queueing one record. -/
def queued (v : RelayView) (pool : RelayRecordPoolV2) (record : EnvelopeRecordV2) :
    RelayRecordPoolV2 × RelayRecordStatusV2 :=
  pool.enqueue v.cr v.p record v.height

/-- A record that is accepted on a state with more receipts than the canonical one. -/
def Passes (v : RelayView) (record : EnvelopeRecordV2) : Prop :=
  ∃ s, v.canonicalState.Extends s ∧ (v.applied s record).status = .accepted

lemma Passes.exists_receipt (h : v.Passes record) (hne : receiptSlot record ≠ []) :
    ∃ s receipt anchor, v.canonicalState.Extends s ∧ SemanticStateV2.ReceiptPasses v.cr v.sp
      v.contexts s v.height record receipt anchor := by
  obtain ⟨s, hext, hacc⟩ := h
  obtain ⟨_, hdecoded⟩ := exists_of_receiptSlot_ne_nil hne
  obtain ⟨-, receipt, anchor, hpasses⟩ := (SemanticStateV2.applyTransaction_receipt_iff
    (type_of_decodeServiceReceipt hdecoded) rfl).mp hacc
  exact ⟨s, receipt, anchor, hext, hpasses⟩

/-- Receipts of one slot that are accepted have the same context, that of the canonical state. -/
lemma Passes.receiptContext_eq (h : v.Passes record) (h' : v.Passes record')
    (hslot : receiptSlot record = receiptSlot record') (hne : receiptSlot record ≠ []) :
    receiptContext record = receiptContext record' := by
  obtain ⟨s, receipt, anchor, hext, hpasses⟩ := h.exists_receipt hne
  obtain ⟨s', receipt', anchor', hext', hpasses'⟩ := h'.exists_receipt (hslot ▸ hne)
  obtain ⟨hepoch, hround⟩ := round_of_receiptSlot hpasses.decoded hpasses'.decoded hslot
  obtain ⟨⟨frozen, hfrozen, hhash⟩, hanchor⟩ := hpasses.context
  obtain ⟨⟨frozen', hfrozen', hhash'⟩, hanchor'⟩ := hpasses'.context
  -- both look at the snapshot and the anchor of the canonical state
  have hfrozens : frozen = frozen' := by
    unfold MembershipPipelineV2.snapshot at hfrozen hfrozen'
    rw [hext.snapshots, hepoch] at hfrozen
    rw [hext'.snapshots] at hfrozen'
    exact Option.some.inj (hfrozen.symm.trans hfrozen')
  have hanchors : anchor = anchor' := by
    have hcanonical := hpasses.anchored
    rw [hepoch, hround] at hcanonical
    exact Option.some.inj (hcanonical.symm.trans hpasses'.anchored)
  unfold receiptContext
  rw [hpasses.decoded, hpasses'.decoded]
  dsimp only
  rw [hhash, hhash', hanchor, hanchor', hfrozens, hanchors]

/-- An entry that no record of a batch can replace. -/
def Lasting (v : RelayView) (stored : StoredRecordV2) : Prop :=
  BySlot v.p v.height stored → ∀ record, v.Passes record →
    receiptSlot record = stored.receiptSlot → receiptContext record = stored.receiptContext

/-- What stands for a record that passes lasts. -/
lemma Passes.lasting {recordClass : RelayClassV2} (h : v.Passes record)
    (hentry : Described v.cr v.p record v.height entry recordClass)
    (hbacked : stored.Backed v.cr v.p) (hstands : StandsFor v.p v.height entry stored) :
    v.Lasting stored := by
  intro hby record' h' hslot'
  by_cases hbyEntry : BySlot v.p v.height entry
  · obtain ⟨hslot, hcontext⟩ := hstands.by_slot hbyEntry
    rw [hcontext, hentry.backed.context, hentry.record_eq]
    rw [hslot, hentry.backed.slot, hentry.record_eq] at hslot'
    refine h'.receiptContext_eq h hslot' ?_
    rw [hslot', ← hentry.record_eq, ← hentry.backed.slot]
    exact hbyEntry.ne_nil
  · obtain ⟨-, hrecord, -⟩ := hstands.by_id hbyEntry
    rw [hbacked.slot, hrecord, hentry.record_eq] at hslot'
    rw [hbacked.context, hrecord, hentry.record_eq]
    refine h'.receiptContext_eq h hslot' ?_
    rw [hslot', ← hentry.record_eq, ← hrecord, ← hbacked.slot]
    exact hby.ne_nil

/-- A record that goes on to the canonical state. -/
structure Proceeds (v : RelayView) (policy : RelayPolicyV2) (semantic : SemanticStateV2)
    (record : EnvelopeRecordV2) : Prop where
  race : racing policy v.height record = true →
    receiptRace v.cr v.sp v.contexts semantic v.height record = .ok false
  accepted : (v.applied semantic record).status = .accepted

/-- What the loop carries after a record that went on. -/
def resume (v : RelayView) (policy : RelayPolicyV2) (w : RelayIngress) (encoded : List UInt8)
    (record : EnvelopeRecordV2) : RelayIngress where
  semantic := if (v.queued w.pool record).2 = .receiptSlotVariant then w.semantic
    else (v.applied w.semantic record).state
  pool := (v.queued w.pool record).1
  accepted := if (v.queued w.pool record).2 = .accepted ∨
      ((v.queued w.pool record).2 = .idempotentDuplicate ∧ racing policy v.height record = true)
    then w.accepted ++ [encoded] else w.accepted

/-- How a turn of the loop goes on. -/
inductive Turn (v : RelayView) (policy : RelayPolicyV2) (w : RelayIngress) (encoded : List UInt8)
    (record : EnvelopeRecordV2) : RelayIngress → Prop
  | passed : racing policy v.height record = true →
      receiptRace v.cr v.sp v.contexts w.semantic v.height record = .ok true →
      Turn v policy w encoded record w
  | queued : v.Proceeds policy w.semantic record → Held (v.queued w.pool record).2 →
      Turn v policy w encoded record (v.resume policy w encoded record)

variable {policy : RelayPolicyV2} {envelopeLimits : EnvelopeLimitsV2} {w w' : RelayIngress}
  {encoded : List UInt8}

/-- One turn of the loop. -/
def turn (v : RelayView) (envelopeLimits : EnvelopeLimitsV2) (policy : RelayPolicyV2) :
    RelayIngress → List UInt8 → Except RelayRefusal RelayIngress :=
  admitOne v.cr v.sp v.contexts v.p envelopeLimits policy v.height

lemma admitRecord_eq_ok_iff :
    admitRecord v.cr v.sp v.contexts v.p policy v.height w encoded record = .ok w' ↔
      (v.applied w.semantic record).status = .accepted ∧ Held (v.queued w.pool record).2 ∧
        w' = v.resume policy w encoded record := by
  have hrollback := w.semantic.rollback_applyTransaction v.cr v.sp v.contexts [record]
    ⟨v.height, false, none, none⟩
  unfold admitRecord resume Held queued applied
  dsimp only at hrollback ⊢
  rw [hrollback]
  by_cases hacc : (w.semantic.applyTransaction v.cr v.sp v.contexts (some w.semantic.checkpoint)
      [record] ⟨v.height, false, none, none⟩).status = .accepted
  · rw [if_neg (not_not.mpr hacc)]
    rw [eq_comm (a := w')]
    cases (w.pool.enqueue v.cr v.p record v.height).2 <;> simp [hacc]
  · rw [if_pos hacc]
    simp [hacc]

lemma turn_eq_ok_iff : v.turn envelopeLimits policy w encoded = .ok w' ↔
    ∃ record budget, parseEnvelopeV2 encoded envelopeLimits = .ok ([record], budget) ∧
      v.Turn policy w encoded record w' := by
  unfold turn admitOne
  constructor
  · intro h
    split at h
    · rename_i record budget hparse
      refine ⟨record, budget, hparse, ?_⟩
      by_cases hracing : racing policy v.height record = true
      · rw [if_pos hracing] at h
        cases hrace : receiptRace v.cr v.sp v.contexts w.semantic v.height record with
        | error refusal =>
          rw [hrace] at h
          cases h
        | ok passedOver =>
          rw [hrace] at h
          cases passedOver with
          | true =>
            obtain rfl := Except.ok.inj h
            exact .passed hracing hrace
          | false =>
            obtain ⟨hacc, hheld, rfl⟩ := admitRecord_eq_ok_iff.mp h
            exact .queued ⟨fun _ => hrace, hacc⟩ hheld
      · rw [if_neg hracing] at h
        obtain ⟨hacc, hheld, rfl⟩ := admitRecord_eq_ok_iff.mp h
        exact .queued ⟨fun hyes => absurd hyes hracing, hacc⟩ hheld
    · cases h
  · rintro ⟨record, budget, hparse, hturn⟩
    rw [hparse]
    dsimp only
    cases hturn with
    | passed hracing hrace => rw [if_pos hracing, hrace]
    | queued hgo hheld =>
      have hrace : (if racing policy v.height record then
          receiptRace v.cr v.sp v.contexts w.semantic v.height record else .ok false) =
          .ok false := by
        split_ifs with hracing
        · exact hgo.race hracing
        · rfl
      rw [hrace]
      exact admitRecord_eq_ok_iff.mpr ⟨hgo.accepted, hheld, rfl⟩

/-- What holds between two turns of the loop.  That the records are usable needs a policy with the
pool's height of deduplication. -/
structure Loop (v : RelayView) (policy : RelayPolicyV2) (w : RelayIngress) : Prop extends
    Settled v.p v.height w.pool where
  sound : Sound v.cr v.p w.pool
  ext : v.canonicalState.Extends w.semantic
  usable : policy.receiptSlotDedupHeight = v.p.receiptSlotDedupHeight → v.Usable w.pool

lemma Loop.passes (h : v.Loop policy w) (hgo : v.Proceeds policy w.semantic record) :
    v.Passes record :=
  ⟨w.semantic, h.ext, hgo.accepted⟩

/-- A receipt that is not passed over finds its slot free. -/
lemma slotFree_of_race {semantic : SemanticStateV2}
    (h : receiptRace v.cr v.sp v.contexts semantic v.height record = .ok false) :
    ∃ receipt, decodeServiceReceiptRecordStructureV2 record = .ok receipt ∧
      semantic.SlotFree receipt := by
  unfold receiptRace at h
  split at h
  · cases h
  · rename_i receipt hdecoded
    refine ⟨receipt, hdecoded, ?_⟩
    dsimp only at h
    split at h
    · split_ifs at h with hlate hstatus hfilled hrace
      · cases h
      · exact Bool.eq_false_of_not_eq_true hfilled
    · cases h

/-- An entry that was queued is kept by a sweep of the canonical state. -/
lemma Loop.verdict_eq (h : v.Loop policy w)
    (hdedup : policy.receiptSlotDedupHeight = v.p.receiptSlotDedupHeight)
    (hle : v.p.receiptSlotDedupHeight ≤ v.height)
    (hgo : v.Proceeds policy w.semantic stored.record) : v.verdict stored = .keep := by
  unfold verdict sweep
  by_cases htype : stored.record.type = RecordTypeV2.serviceReceipt.code
  · have hracing : racing policy v.height stored.record = true := by
      rw [racing, hdedup, Bool.and_eq_true, decide_eq_true_eq, decide_eq_true_eq]
      exact ⟨hle, htype⟩
    obtain ⟨receipt, hdecoded, hfree⟩ := slotFree_of_race (hgo.race hracing)
    obtain ⟨hopen, receipt', anchor, hpasses⟩ :=
      (SemanticStateV2.applyTransaction_receipt_iff htype rfl).mp hgo.accepted
    obtain rfl := Except.ok.inj (hdecoded.symm.trans hpasses.decoded)
    obtain ⟨hcanonical, hslot⟩ := hpasses.of_extends h.ext hfree
    have hacc : (v.canonicalState.applyTransaction v.cr v.sp v.contexts
        (some v.canonicalState.checkpoint) [stored.record]
        ⟨v.height, true, none, none⟩).status = .accepted :=
      (SemanticStateV2.applyTransaction_receipt_iff htype rfl).mpr
        ⟨hopen, receipt, anchor, hcanonical⟩
    rw [if_neg (not_not.mpr htype), hdecoded]
    dsimp only
    rw [hslot, if_neg Bool.false_ne_true, hacc, if_neg (by simp)]
  · rw [if_pos htype]

/-- Queueing that does not end the batch has made an entry and looked for duplicates. -/
lemma exists_outcome {pool : RelayRecordPoolV2} (hvalid : v.p.valid = true)
    (hsound : Sound v.cr v.p pool) (hheld : Held (v.queued pool record).2) :
    ∃ entry recordClass, Described v.cr v.p record v.height entry recordClass ∧
      Outcome v.cr v.p v.height entry (pool.pruneExpired v.p v.height)
        ((v.queued pool record).1, (v.queued pool record).2) ∧
      ∀ pool' : RelayRecordPoolV2, pool'.enqueue v.cr v.p record v.height =
        enqueueEntry v.p (pool'.pruneExpired v.p v.height) v.height entry recordClass
          (encodedLength v.p record) := by
  unfold queued at hheld ⊢
  rcases enqueue_eq hvalid pool record v.height with (heq | heq) |
    ⟨entry, recordClass, hentry, heq⟩
  · rw [heq] at hheld
    simp [Held] at hheld
  · rw [heq] at hheld
    simp [Held] at hheld
  · exact ⟨entry, recordClass, hentry, outcome_enqueue hvalid hsound hentry (heq pool), heq⟩

/-- One turn keeps the loop's invariant, and every entry that lasts. -/
lemma Turn.loop (hvalid : v.p.valid = true) (h : v.Loop policy w)
    (hturn : v.Turn policy w encoded record w') :
    v.Loop policy w' ∧
      ∀ stored ∈ w.pool.records, v.Lasting stored → stored ∈ w'.pool.records := by
  cases hturn with
  | passed => exact ⟨h, fun stored hstored _ => hstored⟩
  | queued hgo hheld =>
    obtain ⟨entry, recordClass, hentry, houtcome, -⟩ := exists_outcome hvalid h.sound hheld
    have hsame := h.same_pruneExpired h.sound
    have hext : v.canonicalState.Extends (v.resume policy w encoded record).semantic := by
      unfold resume
      dsimp only
      split_ifs
      · exact h.ext
      · exact h.ext.trans (SemanticStateV2.extends_applyTransaction ..)
    have hsettled := houtcome.settled (h.toSettled.same hsame)
    refine ⟨⟨hsettled, houtcome.sound (hsame.sound h.sound), hext,
      fun hdedup => ⟨hsettled, fun hle stored hstored => ?_⟩⟩, fun stored hstored hlasting => ?_⟩
    · rcases houtcome.mem_or_eq hstored with hold | rfl
      · exact (h.usable hdedup).usable hle stored (hsame.records ▸ hold)
      · exact h.verdict_eq hdedup hle (hentry.record_eq ▸ hgo)
    · -- only an entry of another context makes way
      refine (houtcome.kept hheld (hsame.mem hstored)).resolve_right ?_
      rintro ⟨hby, hslot, hcontext⟩
      refine hcontext ?_
      rw [hentry.backed.context, hentry.record_eq]
      refine (hlasting ?_ record (h.passes hgo) ?_).symm
      · rwa [BySlot, hslot]
      · rw [hslot, hentry.backed.slot, hentry.record_eq]

/-- A turn that went on does so again, on a pool that has all entries that last, and changes
nothing there. -/
lemma Turn.again (hvalid : v.p.valid = true) (h : v.Loop policy w)
    (hturn : v.Turn policy w encoded record w') {pool : RelayRecordPoolV2}
    (hsound : Sound v.cr v.p pool) (hsettled : Settled v.p v.height pool)
    (hpool : ∀ stored ∈ w'.pool.records, v.Lasting stored → stored ∈ pool.records)
    (forwarded : List (List UInt8)) :
    ∃ w'', v.Turn policy ⟨w.semantic, pool, forwarded⟩ encoded record w'' ∧
      w''.semantic = w'.semantic ∧ Same pool w''.pool := by
  cases hturn with
  | passed hracing hrace => exact ⟨_, .passed hracing hrace, rfl, .refl _⟩
  | queued hgo hheld =>
    obtain ⟨entry, recordClass, hentry, houtcome, heq⟩ := exists_outcome hvalid h.sound hheld
    obtain ⟨stored, hstored, hstands, hvariant⟩ := houtcome.exists_standsFor hheld
    have hsound' := houtcome.sound (h.sound.pruneExpired v.height)
    -- what the record was compared with, or the entry itself, is still there
    have hmem := hpool stored hstored
      ((h.passes hgo).lasting hentry (hsound'.backed stored hstored) hstands)
    obtain ⟨hsame, hstatus⟩ := enqueue_of_standsFor hsound hsettled (heq pool) hmem hstands
    have hheld' : Held (v.queued pool record).2 := by
      show Held (pool.enqueue v.cr v.p record v.height).2
      rw [hstatus, knownStatus]
      split_ifs <;> simp [Held]
    refine ⟨_, .queued ⟨hgo.race, hgo.accepted⟩ hheld', ?_, hsame⟩
    have hiff : (v.queued pool record).2 = .receiptSlotVariant ↔
        (v.queued w.pool record).2 = .receiptSlotVariant := by
      rw [← hvariant, ← hstatus]
      rfl
    simp only [resume, hiff]

variable {envelopes : List (List UInt8)}

lemma foldlM_loop (hvalid : v.p.valid = true) (h : v.Loop policy w)
    (hfold : envelopes.foldlM (v.turn envelopeLimits policy) w = .ok w') :
    v.Loop policy w' ∧
      ∀ stored ∈ w.pool.records, v.Lasting stored → stored ∈ w'.pool.records := by
  induction envelopes generalizing w with
  | nil =>
    obtain rfl := Except.ok.inj hfold
    exact ⟨h, fun stored hstored _ => hstored⟩
  | cons encoded envelopes ih =>
    rw [List.foldlM_cons] at hfold
    obtain ⟨w₁, hone, hfold⟩ := except_bind_eq_ok_iff.mp hfold
    obtain ⟨record, budget, -, hturn⟩ := turn_eq_ok_iff.mp hone
    obtain ⟨h₁, hlasting₁⟩ := hturn.loop hvalid h
    obtain ⟨h', hlasting'⟩ := ih h₁ hfold
    exact ⟨h', fun stored hstored hlasting =>
      hlasting' stored (hlasting₁ stored hstored hlasting) hlasting⟩

/-- The loop goes through again on a pool that has what the first run has left. -/
lemma foldlM_again (hvalid : v.p.valid = true) (h : v.Loop policy w)
    (hfold : envelopes.foldlM (v.turn envelopeLimits policy) w = .ok w')
    {pool : RelayRecordPoolV2} (hsound : Sound v.cr v.p pool) (hsettled : Settled v.p v.height pool)
    (hpool : ∀ stored ∈ w'.pool.records, v.Lasting stored → stored ∈ pool.records)
    (forwarded : List (List UInt8)) :
    ∃ w'', envelopes.foldlM (v.turn envelopeLimits policy) ⟨w.semantic, pool, forwarded⟩ =
      .ok w'' ∧ Same pool w''.pool := by
  induction envelopes generalizing w pool forwarded with
  | nil => exact ⟨_, rfl, .refl _⟩
  | cons encoded envelopes ih =>
    rw [List.foldlM_cons] at hfold
    obtain ⟨w₁, hone, hfold⟩ := except_bind_eq_ok_iff.mp hfold
    obtain ⟨record, budget, hparse, hturn⟩ := turn_eq_ok_iff.mp hone
    obtain ⟨h₁, -⟩ := hturn.loop hvalid h
    obtain ⟨-, hlasting⟩ := foldlM_loop hvalid h₁ hfold
    obtain ⟨⟨semantic, pool₁, forwarded₁⟩, hagain, hsemantic, hsame₁⟩ := hturn.again hvalid h
      hsound hsettled
      (fun stored hstored hlast => hpool stored (hlasting stored hstored hlast) hlast) forwarded
    obtain rfl : semantic = w₁.semantic := hsemantic
    obtain ⟨w'', hfold', hsame'⟩ := ih h₁ hfold (hsame₁.sound hsound) (hsettled.same hsame₁)
      (fun stored hstored hlast => hsame₁.mem (hpool stored hstored hlast)) forwarded₁
    refine ⟨w'', ?_, hsame₁.trans hsame'⟩
    rw [List.foldlM_cons, turn_eq_ok_iff.mpr ⟨record, budget, hparse, hagain⟩]
    exact hfold'

/-! ## Calls -/

lemma turn_refused {refusal : RelayRefusal}
    (h : v.turn envelopeLimits policy w encoded = .error refusal) :
    refusal.status ≠ .accepted := by
  have hrace : ∀ {record}, receiptRace v.cr v.sp v.contexts w.semantic v.height record =
      .error refusal → refusal.status ≠ .accepted := by
    intro record h
    unfold receiptRace at h
    dsimp only at h
    repeat' split at h
    all_goals cases h
    all_goals nofun
  unfold turn admitOne at h
  split at h
  · rename_i record budget _
    split at h
    · rename_i refusal' hrefused
      obtain rfl := Except.error.inj h
      split_ifs at hrefused
      exact hrace hrefused
    · cases h
    · unfold admitRecord at h
      dsimp only at h
      repeat' split at h
      all_goals cases h
      all_goals nofun
  · cases h
    nofun

lemma foldlM_refused {refusal : RelayRefusal}
    (h : envelopes.foldlM (v.turn envelopeLimits policy) w = .error refusal) :
    refusal.status ≠ .accepted := by
  induction envelopes generalizing w with
  | nil => cases h
  | cons encoded envelopes ih =>
    rw [List.foldlM_cons] at h
    cases hone : v.turn envelopeLimits policy w encoded with
    | error refusal' =>
      rw [hone] at h
      obtain rfl := Except.error.inj h
      exact turn_refused hone
    | ok w' =>
      rw [hone] at h
      exact ih h

/-- What the loop of a call starts from. -/
def ingress (v : RelayView) (pool : RelayRecordPoolV2) : RelayIngress :=
  ⟨v.canonicalState, v.swept pool, []⟩

/-- A call with a batch. -/
def submit (v : RelayView) (envelopeLimits : EnvelopeLimitsV2) (policy : RelayPolicyV2)
    (envelopes : List (List UInt8)) (pool : RelayRecordPoolV2) :
    RelayIngressStatusV2 × RelayRecordPoolV2 × List (List UInt8) :=
  admitRelayEnvelopesV2 v.cr v.sp v.contexts v.p envelopeLimits policy envelopes v.height
    v.canonicalState pool

variable {pool pool' : RelayRecordPoolV2}

lemma same_recordIngressRejection (pool : RelayRecordPoolV2) (status : RelayRecordStatusV2) :
    Same pool (pool.recordIngressRejection status) := by
  unfold recordIngressRejection
  split
  · exact Same.diagnostics (.refl _) _
  · exact Same.diagnostics (.refl _) _
  · exact .refl _

/-- A call either refuses the batch and counts at most the rejection, or its loop goes through.
The checks before the loop do not look at the pool. -/
lemma submit_cases (v : RelayView) (envelopeLimits : EnvelopeLimitsV2) (policy : RelayPolicyV2)
    (envelopes : List (List UInt8)) (pool : RelayRecordPoolV2) :
    ((v.submit envelopeLimits policy envelopes pool).1 ≠ .accepted ∧
      Same pool (v.submit envelopeLimits policy envelopes pool).2.1 ∧
      (v.submit envelopeLimits policy envelopes pool).2.2 = []) ∨
    ((∀ pool' w, envelopes.foldlM (v.turn envelopeLimits policy) (v.ingress pool') = .ok w →
      v.submit envelopeLimits policy envelopes pool' = (.accepted, w.pool, w.accepted)) ∧
      ∃ w, envelopes.foldlM (v.turn envelopeLimits policy) (v.ingress pool) = .ok w) := by
  unfold submit admitRelayEnvelopesV2
  split_ifs with hconfiguration hfits
  · exact .inl ⟨nofun, .refl _, rfl⟩
  · exact .inl ⟨nofun, .refl _, rfl⟩
  · cases hfold : envelopes.foldlM (v.turn envelopeLimits policy) (v.ingress pool) with
    | error refusal =>
      left
      have hstatus := foldlM_refused hfold
      rw [ingress, swept, turn] at hfold
      rw [hfold]
      refine ⟨hstatus, ?_, rfl⟩
      dsimp only
      cases refusal.rejection with
      | none => exact .refl _
      | some status => exact same_recordIngressRejection pool status
    | ok w =>
      refine .inr ⟨fun pool' w' hfold' => ?_, w, rfl⟩
      rw [ingress, swept, turn] at hfold'
      rw [hfold']

lemma loop_ingress (hsound : Sound v.cr v.p pool) : v.Loop policy (v.ingress pool) :=
  ⟨(usable_swept v pool).toSettled, sound_swept hsound, .refl _, fun _ => usable_swept v pool⟩

lemma settled_submit (hvalid : v.p.valid = true) (hsound : Sound v.cr v.p pool) :
    Sound v.cr v.p (v.submit envelopeLimits policy envelopes pool).2.1 ∧
      ((v.submit envelopeLimits policy envelopes pool).1 = .accepted →
        Settled v.p v.height (v.submit envelopeLimits policy envelopes pool).2.1) := by
  rcases submit_cases v envelopeLimits policy envelopes pool with
    ⟨hstatus, hsame, -⟩ | ⟨hall, w, hfold⟩
  · exact ⟨hsame.sound hsound, fun hacc => absurd hacc hstatus⟩
  · obtain ⟨hend, -⟩ := foldlM_loop hvalid (loop_ingress hsound) hfold
    rw [hall pool w hfold]
    exact ⟨hend.sound, fun _ => hend.toSettled⟩

lemma submit_again (hvalid : v.p.valid = true)
    (hdedup : policy.receiptSlotDedupHeight = v.p.receiptSlotDedupHeight)
    (hsound : Sound v.cr v.p pool)
    (hacc : (v.submit envelopeLimits policy envelopes pool).1 = .accepted)
    (hpool' : (v.submit envelopeLimits policy envelopes pool).2.1 = pool') :
    (v.submit envelopeLimits policy envelopes pool').1 = .accepted ∧
      Same pool' (v.submit envelopeLimits policy envelopes pool').2.1 := by
  rcases submit_cases v envelopeLimits policy envelopes pool with ⟨hstatus, -⟩ | ⟨hall, w, hfold⟩
  · exact absurd hacc hstatus
  · rw [hall pool w hfold] at hpool'
    obtain rfl : w.pool = pool' := hpool'
    have hstart : v.Loop policy (v.ingress pool) := loop_ingress hsound
    obtain ⟨hend, -⟩ := foldlM_loop hvalid hstart hfold
    -- the sweep before the second loop finds nothing to remove
    have hswept := (hend.usable hdedup).same_swept hend.sound
    obtain ⟨w', hfold', hsame⟩ := foldlM_again hvalid hstart hfold
      (hswept.sound hend.sound) (hend.toSettled.same hswept)
      (fun stored hstored _ => hswept.mem hstored) []
    rw [hall w.pool w' hfold']
    exact ⟨rfl, hswept.trans hsame⟩

end RelayView

/-! ## Runs -/

/-- An item counts the bytes of its record, none lost. -/
lemma StoredRecordV2.Backed.item_bytes {cr : Crypto} {p : RelayPoolParametersV2}
    {stored : StoredRecordV2} (h : stored.Backed cr p) :
    (stored.item p).bytes.toNat = encodedLength p stored.record := by
  obtain ⟨encoded, budget, hencode, -⟩ := h.encodes
  have hlength : encodedLength p stored.record = encoded.length := by
    rw [encodedLength, hencode]
  have henvelope := encodeEnvelopeV2_eq_ok_iff.mp hencode
  have hsize := henvelope.size_fits
  have heq := henvelope.length_eq
  simp only [envelopeHeaderSize] at heq
  rw [StoredRecordV2.item, UInt64.toNat_ofNat_of_lt', hlength]
  rw [hlength, UInt64.size]
  omega

namespace RelayRecordPoolV2

variable {cr : Crypto} {p : RelayPoolParametersV2} {pool : RelayRecordPoolV2}

/-- The pools that calls lead to, at any heights and in any order. -/
inductive Runs (cr : Crypto) (p : RelayPoolParametersV2) : RelayRecordPoolV2 → Prop
  | fresh : Runs cr p {}
  | enqueue {pool : RelayRecordPoolV2} (record : EnvelopeRecordV2) (currentHeight : UInt64) :
      Runs cr p pool → Runs cr p (pool.enqueue cr p record currentHeight).1
  | pruneExpired {pool : RelayRecordPoolV2} (currentHeight : UInt64) : Runs cr p pool →
      Runs cr p (pool.pruneExpired p currentHeight)
  | pruneUnusableReceipts {pool : RelayRecordPoolV2} (sp : SemanticParametersV2)
      (contexts : CanonicalContextSourceV2) (currentHeight : UInt64)
      (canonicalState : SemanticStateV2) : Runs cr p pool →
      Runs cr p (pool.pruneUnusableReceipts cr sp contexts p currentHeight canonicalState)
  | selectForTemplate {pool : RelayRecordPoolV2} (currentHeight : UInt64) : Runs cr p pool →
      Runs cr p (pool.selectForTemplate p currentHeight).1
  | eraseConfirmed {pool : RelayRecordPoolV2} (ids : List Hash) : Runs cr p pool →
      Runs cr p (pool.eraseConfirmed ids)
  | eraseConfirmedRecords {pool : RelayRecordPoolV2} (records : List EnvelopeRecordV2)
      (currentHeight : UInt64) : Runs cr p pool →
      Runs cr p (pool.eraseConfirmedRecords cr p records currentHeight)
  | admitEnvelopes {pool : RelayRecordPoolV2} (sp : SemanticParametersV2)
      (contexts : CanonicalContextSourceV2) (envelopeLimits : EnvelopeLimitsV2)
      (policy : RelayPolicyV2) (envelopes : List (List UInt8)) (inclusionHeight : UInt64)
      (canonicalState : SemanticStateV2) : Runs cr p pool →
      Runs cr p (admitRelayEnvelopesV2 cr sp contexts p envelopeLimits policy envelopes
        inclusionHeight canonicalState pool).2.1

lemma Runs.sound (hvalid : p.valid = true) (h : Runs cr p pool) : Sound cr p pool := by
  induction h with
  | fresh =>
    simp only [RelayPoolParametersV2.valid, Bool.and_eq_true] at hvalid
    exact ⟨DeadlineRelayQueueV2.consistent_fresh hvalid.1.2, rfl,
      fun stored hstored => absurd hstored List.not_mem_nil⟩
  | enqueue record currentHeight _ ih => exact (sound_enqueue hvalid ih record currentHeight).1
  | pruneExpired currentHeight _ ih => exact ih.pruneExpired currentHeight
  | pruneUnusableReceipts sp contexts currentHeight canonicalState _ ih =>
    exact RelayView.sound_swept (v := ⟨cr, sp, contexts, p, currentHeight, canonicalState⟩) ih
  | selectForTemplate currentHeight _ ih =>
    obtain ⟨_, -, hsame, -⟩ := ih.exists_selectForTemplate hvalid currentHeight
    exact hsame.sound (ih.pruneExpired currentHeight)
  | eraseConfirmed ids _ ih => exact ih.eraseConfirmed ids
  | eraseConfirmedRecords records currentHeight _ ih =>
    exact (Same.diagnostics (.refl _) _).sound (ih.eraseConfirmed _)
  | admitEnvelopes sp contexts envelopeLimits policy envelopes inclusionHeight canonicalState _
      ih =>
    exact (RelayView.settled_submit
      (v := ⟨cr, sp, contexts, p, inclusionHeight, canonicalState⟩) hvalid ih).1

lemma Sound.bytes_eq (h : Sound cr p pool) :
    pool.queue.bytes.toNat =
      (pool.records.map fun stored => encodedLength p stored.record).sum := by
  rw [h.queue.bytes_eq, h.items, DeadlineRelayQueueV2.itemBytes, List.map_map]
  congr 1
  refine List.map_congr_left fun stored hstored => ?_
  exact (h.backed stored hstored).item_bytes

/-- **The pool of relayed records is kept in step and changed all or nothing.**  In every pool that
calls at any heights lead to, the queue and the records have the same distinct ids and the same
deadlines, and the queue counts the bytes of the encoded records and is within its limits.  From
the height of deduplication on there is at most one record for each receipt slot after pruning,
after a selection and after whatever was accepted, and a selection is never refused.  A batch that
is not accepted changes no record and forwards nothing; one that is accepted is accepted again and
changes nothing then, for a policy with the height of deduplication the pool is constructed with. -/
theorem relay_admission_is_atomic (hvalid : p.valid = true) (hruns : Runs cr p pool) :
    (pool.queue.items.map (fun item => (item.id, item.deadlineHeight)) =
        pool.records.map (fun stored => (stored.id, stored.deadlineHeight)) ∧
      (pool.records.map (·.id)).Nodup ∧
      pool.queue.bytes.toNat =
        (pool.records.map fun stored => encodedLength p stored.record).sum ∧
      pool.queue.bytes.toNat ≤ p.queueLimits.maxBytes.toNat ∧
      pool.queue.items.length ≤ p.queueLimits.maxItems.toNat) ∧
    (∀ currentHeight, (pool.selectForTemplate p currentHeight).2 ≠ none) ∧
    (∀ currentHeight, p.receiptSlotDedupHeight ≤ currentHeight →
      (pool.pruneExpired p currentHeight).OnePerSlot ∧
      (pool.selectForTemplate p currentHeight).1.OnePerSlot ∧
      (∀ sp contexts canonicalState, (pool.pruneUnusableReceipts cr sp contexts p currentHeight
        canonicalState).OnePerSlot) ∧
      ∀ record, (pool.enqueue cr p record currentHeight).2 = .accepted →
        (pool.enqueue cr p record currentHeight).1.OnePerSlot) ∧
    ∀ sp contexts envelopeLimits policy envelopes inclusionHeight canonicalState,
      let submit := admitRelayEnvelopesV2 cr sp contexts p envelopeLimits policy envelopes
        inclusionHeight canonicalState
      let pool' := (submit pool).2.1
      ((submit pool).1 ≠ .accepted →
        pool'.records = pool.records ∧ pool'.queue = pool.queue ∧ (submit pool).2.2 = []) ∧
      ((submit pool).1 = .accepted →
        (p.receiptSlotDedupHeight ≤ inclusionHeight → pool'.OnePerSlot) ∧
        (policy.receiptSlotDedupHeight = p.receiptSlotDedupHeight →
          (submit pool').1 = .accepted ∧ (submit pool').2.1.records = pool'.records ∧
            (submit pool').2.1.queue = pool'.queue)) := by
  have hsound := hruns.sound hvalid
  refine ⟨⟨?_, hsound.distinct, hsound.bytes_eq, hsound.queue.bytes_le, hsound.queue.items_le⟩,
    ?_, ?_, ?_⟩
  · -- the item of a record has its id and deadline
    rw [hsound.items, List.map_map]
    rfl
  · intro currentHeight
    obtain ⟨selected, hselected, -⟩ := hsound.exists_selectForTemplate hvalid currentHeight
    rw [hselected]
    nofun
  · intro currentHeight hle
    have hpruned := hsound.pruneExpired currentHeight
    have hsettled := settled_pruneExpired p pool currentHeight
    obtain ⟨_, -, hselected, -⟩ := hsound.exists_selectForTemplate hvalid currentHeight
    refine ⟨hsettled.onePerSlot hpruned hle,
      (hsettled.same hselected).onePerSlot (hselected.sound hpruned) hle,
      fun sp contexts canonicalState => ?_, fun record hacc => ?_⟩
    · let v : RelayView := ⟨cr, sp, contexts, p, currentHeight, canonicalState⟩
      exact (v.usable_swept pool).onePerSlot (RelayView.sound_swept (v := v) hsound) hle
    · obtain ⟨hsound', hsettled'⟩ := sound_enqueue hvalid hsound record currentHeight
      exact (hsettled' hacc).onePerSlot hsound' hle
  · intro sp contexts envelopeLimits policy envelopes inclusionHeight canonicalState submit pool'
    let v : RelayView := ⟨cr, sp, contexts, p, inclusionHeight, canonicalState⟩
    refine ⟨fun hrefused => ?_, fun hacc => ⟨fun hle => ?_, fun hdedup => ?_⟩⟩
    · rcases v.submit_cases envelopeLimits policy envelopes pool with
        ⟨-, hsame, hnone⟩ | ⟨hall, w, hfold⟩
      · exact ⟨hsame.records, hsame.queue, hnone⟩
      · exact absurd (congrArg Prod.fst (hall pool w hfold)) hrefused
    · obtain ⟨hsound', hsettled'⟩ := RelayView.settled_submit (v := v) hvalid hsound
      exact (hsettled' hacc).onePerSlot hsound' hle
    · obtain ⟨hacc', hsame⟩ := RelayView.submit_again (v := v) hvalid hdedup hsound hacc rfl
      exact ⟨hacc', hsame.records, hsame.queue⟩

end RelayRecordPoolV2

/-! ## A registration from a peer -/

/-- The policy the release is compiled with, with receipts deduplicated from the start. -/
def RelayPolicyV2.sample : RelayPolicyV2 where
  queue := ⟨2048, 1048576, 512, 512, 262144, 262144⟩
  miningTemplate := ⟨256, 32768, 64, 64, 8192, 8192⟩
  receiptSlotDedupHeight := 0

def RelayPoolParametersV2.sample : RelayPoolParametersV2 where
  timing := TransitionParametersV2.sample.timing
  committeePolicy := TransitionParametersV2.sample.committeePolicy
  envelopeLimits := mainnetLimitsV2.envelope
  queueLimits := RelayPolicyV2.sample.queue
  templateLimits := RelayPolicyV2.sample.miningTemplate
  receiptSlotDedupHeight := RelayPolicyV2.sample.receiptSlotDedupHeight

/-- The envelope of one record, for concrete runs. -/
def sampleEnvelope (record : EnvelopeRecordV2) : List UInt8 :=
  match encodeEnvelopeV2 [record] mainnetLimitsV2.envelope with
  | .ok (encoded, _) => encoded
  | .error _ => []

/-- A batch for the second block of the chain. -/
def sampleSubmit (records : List EnvelopeRecordV2) (pool : RelayRecordPoolV2) :
    RelayIngressStatusV2 × RelayRecordPoolV2 × List (List UInt8) :=
  admitRelayEnvelopesV2 .sample TransitionParametersV2.sample.toSemanticParametersV2 .sample
    .sample mainnetLimitsV2.envelope .sample (records.map sampleEnvelope) 1 {} pool

theorem RelayRecordPoolV2.relay_admission_is_atomic_sample :
    (sampleSubmit [.sampleRegistration 0 1 9] {}).1 = .accepted ∧
      let pool := (sampleSubmit [.sampleRegistration 0 1 9] {}).2.1
      pool.records.length = 1 ∧
        (sampleSubmit [.sampleRegistration 0 1 9] pool).1 = .accepted ∧
        (sampleSubmit [.sampleRegistration 0 1 9] pool).2.1.records = pool.records := by
  have hstart : (sampleSubmit [.sampleRegistration 0 1 9] {}).1 = .accepted ∧
      (sampleSubmit [.sampleRegistration 0 1 9] {}).2.1.records.length = 1 := by decide +kernel
  have hagain : ∀ records, (sampleSubmit records {}).1 = .accepted →
      (sampleSubmit records (sampleSubmit records {}).2.1).1 = .accepted ∧
        (sampleSubmit records (sampleSubmit records {}).2.1).2.1.records =
          (sampleSubmit records {}).2.1.records := by
    intro records hacc
    have hall := (relay_admission_is_atomic (by decide +kernel)
      (Runs.fresh : Runs .sample .sample {})).2.2.2
    obtain ⟨hacc', hrecords, -⟩ := ((hall _ _ _ .sample _ _ _).2 hacc).2 rfl
    exact ⟨hacc', hrecords⟩
  exact ⟨hstart.1, hstart.2, hagain _ hstart.1⟩

end Qwertycoin
