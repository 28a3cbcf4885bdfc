import Qwertycoin.Payment

/-
# The preview of a block template

A miner fills the Coinbase of a template with records of the relay pool.  Each record is tried
alone on a copy of the canonical state and kept when it is accepted; the copy has not been frozen
for the block of the template.  Consensus freezes first, and then applies the records of the
Coinbase as one transaction.

The two agree.  All a freeze adds is the snapshot of an epoch whose enrolment cutoff has passed,
and a record that is accepted without that snapshot is accepted with it.
-/

namespace Qwertycoin

/-- `select_epose_template_records_v2`: of the records the relay pool selects, those that the
canonical state accepts one after the other, each as the only record of a Coinbase. -/
def selectEposeTemplateRecordsV2 (cr : Crypto) (p : SemanticParametersV2)
    (contexts : CanonicalContextSourceV2) (height : UInt64) :
    List EnvelopeRecordV2 → SemanticStateV2 → List EnvelopeRecordV2
  | [], _ => []
  | record :: selected, semantic =>
    let applied := semantic.applyTransaction cr p contexts none [record] ⟨height, true, none, none⟩
    if applied.status ≠ .accepted then
      selectEposeTemplateRecordsV2 cr p contexts height selected applied.state
    else record :: selectEposeTemplateRecordsV2 cr p contexts height selected applied.state

/-! ## Pipelines that differ by a freeze -/

namespace MembershipPipelineV2

/-- The second pipeline is the first one with more epochs frozen, all of them past their enrolment
cutoff at a height. -/
structure FrozenFor (p : SemanticParametersV2) (height : UInt64) (m m' : MembershipPipelineV2) :
    Prop where
  leases : m'.leases = m.leases
  receipts : m'.receipts = m.receipts
  qualifications : m'.qualifications = m.qualifications
  kept : ∀ epoch frozen, m.snapshot epoch = some frozen → m'.snapshot epoch = some frozen
  added : ∀ epoch cutoff, epoch ∈ m'.snapshots → epoch ∉ m.snapshots →
    p.timing.enrollmentCutoff epoch = some cutoff → cutoff < height

variable {cr : Crypto} {p : SemanticParametersV2} {height : UInt64} {m m' : MembershipPipelineV2}
  {undo undo' : UndoJournal}

lemma FrozenFor.refl : m.FrozenFor p height m :=
  ⟨rfl, rfl, rfl, fun _ _ h => h, fun _ _ hmem hnot => absurd hmem hnot⟩

variable (undo) in
/-- Freezing at the anchor of an epoch adds a snapshot whose cutoff has passed. -/
lemma frozenFor_storeSnapshot (hv : p.timing.valid = true) {anchorHash : Hash}
    {authorized : List FrozenMemberV2} {epoch : UInt64} {frozen : MembershipSnapshotV2}
    (h : m.Freezes cr p epoch height anchorHash authorized frozen) :
    m.FrozenFor p height (m.storeSnapshot undo epoch frozen).1 where
  leases := rfl
  receipts := rfl
  qualifications := rfl
  kept := by
    intro epoch' frozen' hfrozen'
    have hne : epoch ≠ epoch' := by
      rintro rfl
      exact h.fresh (mem_snapshots_of_snapshot hfrozen')
    change (m.snapshots.insert epoch frozen)[epoch']? = some frozen'
    rw [Std.ExtTreeMap.getElem?_insert, if_neg (by rwa [Std.compare_eq_iff_eq])]
    exact hfrozen'
  added := by
    intro epoch' cutoff hmem hnot hcutoff
    obtain rfl : epoch' = epoch := (mem_storeSnapshot.mp hmem).resolve_right hnot
    have hanchor := ((EpochTimingV2.committeeAnchor_eq_some_iff hv).mp h.anchor).1
    have hstart := ((EpochTimingV2.enrollmentCutoff_eq_some_iff hv).mp hcutoff).1
    rw [UInt64.lt_iff_toNat_lt]
    omega

/-- A lease that passes the checks on the pipeline is not for one of the added epochs. -/
lemma FrozenFor.admissionPrecheck (h : m.FrozenFor p height m') {lease : AdmissionLeaseV2}
    {context : AdmissionContextV2}
    (hacc : admissionPrecheck cr p m lease context height = .accepted) :
    MembershipPipelineV2.admissionPrecheck cr p m' lease context height = .accepted := by
  have hnot : ∀ cutoff, p.timing.enrollmentCutoff lease.targetEpoch = some cutoff →
      ¬cutoff < height → lease.targetEpoch ∉ m.snapshots → lease.targetEpoch ∉ m'.snapshots :=
    fun cutoff hcutoff hopen hfresh hmem => hopen (h.added _ _ hmem hfresh hcutoff)
  simp only [MembershipPipelineV2.admissionPrecheck] at hacc ⊢
  cases hfirst : p.timing.firstServiceEpoch <;>
    cases hcontext : p.timing.epochStart
      (lease.targetEpoch - p.admissionPolicy.contextEpochOffset) <;>
    cases hcutoff : p.timing.enrollmentCutoff lease.targetEpoch <;>
    simp only [hfirst, hcontext, hcutoff] at hacc ⊢
  case some.some.some =>
    split_ifs at hacc ⊢ with _ _ _ _ hopen _ hmem hfresh
    · exact absurd hmem (hnot _ hcutoff hopen hfresh)
    · rfl
  all_goals split_ifs at hacc

variable (undo undo') in
lemma FrozenFor.applyAdmission (h : m.FrozenFor p height m') {lease : AdmissionLeaseV2}
    {context : AdmissionContextV2}
    (hacc : (m.applyAdmission cr p undo lease context height).status = .accepted ∨
      (m.applyAdmission cr p undo lease context height).status = .idempotentDuplicate) :
    (m'.applyAdmission cr p undo' lease context height).status =
        (m.applyAdmission cr p undo lease context height).status ∧
      (m.applyAdmission cr p undo lease context height).pipeline.FrozenFor p height
        (m'.applyAdmission cr p undo' lease context height).pipeline := by
  have hpre : MembershipPipelineV2.admissionPrecheck cr p m lease context height = .accepted := by
    obtain ⟨status, randomx, hstatus, happly⟩ | ⟨randomx, haccepts, -⟩ :=
      m.applyAdmission_cases cr p undo lease context height
    · exact (exists_of_duplicate_admission (hacc.resolve_left (by rw [happly]; exact hstatus))).1
    · exact haccepts.precheck
  have hstatus : m'.admissionStatus cr p lease context height =
      m.admissionStatus cr p lease context height := by
    unfold admissionStatus epochPopulation
    rw [hpre, h.admissionPrecheck hpre, h.leases]
  simp only [MembershipPipelineV2.applyAdmission, hstatus]
  split
  · refine ⟨rfl, ?_⟩
    simp only [storeLease, h.leases]
    split
    · exact ⟨rfl, h.receipts, h.qualifications, h.kept, h.added⟩
    · exact ⟨rfl, h.receipts, h.qualifications, h.kept, h.added⟩
  · exact ⟨rfl, h⟩

/-- A receipt that passes the checks is for a snapshot that both pipelines have. -/
lemma FrozenFor.receiptPrecheck (h : m.FrozenFor p height m')
    {receipt : AuthenticatedServiceReceiptV2} {anchor : Hash}
    (hacc : receiptPrecheck cr p m receipt height anchor = .accepted) :
    MembershipPipelineV2.receiptPrecheck cr p m' receipt height anchor = .accepted := by
  cases hfrozen : m.snapshot receipt.challenge.epoch with
  | none =>
    simp only [MembershipPipelineV2.receiptPrecheck, hfrozen] at hacc
    split_ifs at hacc
  | some frozen =>
    rw [← hacc]
    simp only [MembershipPipelineV2.receiptPrecheck, committee, hfrozen, h.kept _ _ hfrozen]

variable (undo undo') in
lemma FrozenFor.applyAuthenticatedReceipt (h : m.FrozenFor p height m')
    {receipt : AuthenticatedServiceReceiptV2} {anchor : Hash}
    (hacc : (m.applyAuthenticatedReceipt cr p undo receipt height anchor).status = .accepted ∨
      (m.applyAuthenticatedReceipt cr p undo receipt height anchor).status =
        .idempotentDuplicate) :
    (m'.applyAuthenticatedReceipt cr p undo' receipt height anchor).status =
        (m.applyAuthenticatedReceipt cr p undo receipt height anchor).status ∧
      (m.applyAuthenticatedReceipt cr p undo receipt height anchor).pipeline.FrozenFor p height
        (m'.applyAuthenticatedReceipt cr p undo' receipt height anchor).pipeline := by
  have hpre : MembershipPipelineV2.receiptPrecheck cr p m receipt height anchor = .accepted := by
    obtain ⟨status, signatures, hstatus, happly⟩ | ⟨signatures, haccepts, -⟩ :=
      m.applyAuthenticatedReceipt_cases cr p undo receipt height anchor
    · exact (exists_of_duplicate_receipt (hacc.resolve_left (by rw [happly]; exact hstatus))).1
    · exact haccepts.precheck
  have hstatus : m'.receiptStatus cr p receipt height anchor =
      m.receiptStatus cr p receipt height anchor := by
    simp only [receiptStatus, hpre, h.receiptPrecheck hpre, h.receipts, h.qualifications]
  simp only [MembershipPipelineV2.applyAuthenticatedReceipt, hstatus]
  split
  · exact ⟨rfl, h.leases, by simp only [addReceipt, h.receipts], h.qualifications, h.kept,
      h.added⟩
  · exact ⟨rfl, h⟩

end MembershipPipelineV2

/-! ## Records one at a time and together -/

namespace LifecycleRegistryV2

variable {r : LifecycleRegistryV2} {undo undo' : UndoJournal} {record : LifecycleRecordV2}

/-- The journal does not influence what is stored. -/
lemma store_fst_eq (undo undo' : UndoJournal) : (r.store undo record).1 = (r.store undo' record).1 := by
  unfold store
  split <;> rfl

lemma apply_eq (cr : Crypto) (net : Scope) (r : LifecycleRegistryV2) (undo undo' : UndoJournal)
    (record : LifecycleRecordV2) (inclusionEpoch minimumEffectiveEpoch : UInt64) :
    (r.apply cr net undo record inclusionEpoch minimumEffectiveEpoch).status =
        (r.apply cr net undo' record inclusionEpoch minimumEffectiveEpoch).status ∧
      (r.apply cr net undo record inclusionEpoch minimumEffectiveEpoch).registry =
        (r.apply cr net undo' record inclusionEpoch minimumEffectiveEpoch).registry := by
  simp only [apply]
  split
  · exact ⟨rfl, store_fst_eq undo undo'⟩
  · exact ⟨rfl, rfl⟩

end LifecycleRegistryV2

namespace SemanticStateV2

variable {cr : Crypto} {p : SemanticParametersV2} {contexts : CanonicalContextSourceV2}
  {height inclusionEpoch minimumEffectiveEpoch : UInt64} {w w' : Work} {s : SemanticStateV2}
  {record : EnvelopeRecordV2} {transaction : SemanticTransactionContextV2}

/-- A state previews the work on a Coinbase at a height: they differ by epochs that were frozen
for the block, and no payment proof has been met. -/
structure Previews (p : SemanticParametersV2) (height : UInt64) (s : SemanticStateV2) (w : Work) :
    Prop where
  lifecycle : w.state.lifecycle = s.lifecycle
  membership : s.membership.FrozenFor p height w.state.membership
  proofs : w.summary.paymentProofRecords = 0

lemma Previews.applyLifecycle (h : w.state.Previews p height w')
    (hacc : (applyLifecycle cr p inclusionEpoch minimumEffectiveEpoch w record).2 = .accepted) :
    (applyLifecycle cr p inclusionEpoch minimumEffectiveEpoch w' record).2 = .accepted ∧
      (applyLifecycle cr p inclusionEpoch minimumEffectiveEpoch w record).1.state.Previews p height
        (applyLifecycle cr p inclusionEpoch minimumEffectiveEpoch w' record).1 := by
  cases hdecode : decodeLifecycleRecordStructureV2 record with
  | error status => simp [SemanticStateV2.applyLifecycle, hdecode] at hacc
  | ok lifecycle =>
    obtain ⟨hstatus, hregistry⟩ := w.state.lifecycle.apply_eq cr p.net w'.undo.lifecycle
      w.undo.lifecycle lifecycle inclusionEpoch minimumEffectiveEpoch
    simp only [SemanticStateV2.applyLifecycle, hdecode, h.lifecycle, hstatus, hregistry] at hacc ⊢
    split_ifs at hacc ⊢
    exact ⟨rfl, rfl, h.membership, h.proofs⟩

lemma Previews.applyAdmissionLease (h : w.state.Previews p height w')
    (hacc : (applyAdmissionLease cr p contexts height w record).2 = .accepted) :
    (applyAdmissionLease cr p contexts height w' record).2 = .accepted ∧
      (applyAdmissionLease cr p contexts height w record).1.state.Previews p height
        (applyAdmissionLease cr p contexts height w' record).1 := by
  cases hdecode : decodeAdmissionLeaseRecordStructureV2 record with
  | error status => simp [SemanticStateV2.applyAdmissionLease, hdecode] at hacc
  | ok lease =>
    have hbound : leaseBound cr p w'.state lease = leaseBound cr p w.state lease := by
      rw [leaseBound, leaseBound, h.lifecycle]
    simp only [SemanticStateV2.applyAdmissionLease, hdecode, hbound] at hacc ⊢
    split at hacc
    · cases hacc
    split_ifs at hacc with hunbound
    split at hacc
    · cases hacc
    split_ifs at hacc with hnull haccepted
    obtain ⟨hstatus, hmembership⟩ := h.membership.applyAdmission _ w'.undo.membership haccepted
    rw [if_neg hunbound, if_neg hunbound, if_neg hnull, if_neg hnull, hstatus,
      if_pos haccepted, if_pos haccepted]
    exact ⟨rfl, h.lifecycle, hmembership, h.proofs⟩

lemma Previews.applyReceipt (h : w.state.Previews p height w')
    (hacc : (applyReceipt cr p contexts height w record).2 = .accepted) :
    (applyReceipt cr p contexts height w' record).2 = .accepted ∧
      (applyReceipt cr p contexts height w record).1.state.Previews p height
        (applyReceipt cr p contexts height w' record).1 := by
  cases hdecode : decodeServiceReceiptRecordStructureV2 record with
  | error status => simp [SemanticStateV2.applyReceipt, hdecode] at hacc
  | ok receipt =>
    simp only [SemanticStateV2.applyReceipt, hdecode] at hacc ⊢
    split at hacc
    · cases hacc
    split_ifs at hacc with hnull haccepted
    obtain ⟨hstatus, hmembership⟩ :=
      h.membership.applyAuthenticatedReceipt _ w'.undo.membership haccepted
    rw [if_neg hnull, if_neg hnull, hstatus, if_pos haccepted, if_pos haccepted]
    exact ⟨rfl, h.lifecycle, hmembership, h.proofs⟩

/-- A record that is accepted in the preview is no payment proof, and is accepted in the block. -/
lemma Previews.applyRecord (h : w.state.Previews p height w')
    (hheight : transaction.inclusionHeight = height)
    (hacc : (applyRecord cr p contexts ⟨height, true, none, none⟩ inclusionEpoch
      minimumEffectiveEpoch w record).2 = .accepted) :
    record.type ≠ RecordTypeV2.servicePaymentProof.code ∧
      (applyRecord cr p contexts transaction inclusionEpoch minimumEffectiveEpoch w' record).2 =
        .accepted ∧
      (applyRecord cr p contexts ⟨height, true, none, none⟩ inclusionEpoch minimumEffectiveEpoch w
        record).1.state.Previews p height
        (applyRecord cr p contexts transaction inclusionEpoch minimumEffectiveEpoch w' record).1 := by
  subst hheight
  cases hkind : RecordTypeV2.ofCode record.type with
  | none => simp [SemanticStateV2.applyRecord, hkind] at hacc
  | some kind =>
    have htype := RecordTypeV2.ofCode_eq_some_iff.mp hkind
    simp only [SemanticStateV2.applyRecord, hkind] at hacc ⊢
    cases kind with
    | identityDescriptor => exact ⟨by rw [htype]; decide, h.applyLifecycle hacc⟩
    | descriptorLifecycle => exact ⟨by rw [htype]; decide, h.applyLifecycle hacc⟩
    | admissionLease => exact ⟨by rw [htype]; decide, h.applyAdmissionLease hacc⟩
    | serviceReceipt => exact ⟨by rw [htype]; decide, h.applyReceipt hacc⟩
    | servicePaymentProof => simp [applyPaymentProof] at hacc

lemma applyTransaction_singleton (hp : p.valid = true)
    (hactive : p.timing.activationHeight ≤ transaction.inclusionHeight)
    (hepochs : inclusionEpochs p.timing transaction.inclusionHeight =
      .ok (inclusionEpoch, minimumEffectiveEpoch))
    (hacc : (s.applyTransaction cr p contexts none [record] transaction).status = .accepted) :
    (applyRecord cr p contexts transaction inclusionEpoch minimumEffectiveEpoch
        ⟨s, s.checkpoint, {}⟩ record).2 = .accepted ∧
      (s.applyTransaction cr p contexts none [record] transaction).state =
        (applyRecord cr p contexts transaction inclusionEpoch minimumEffectiveEpoch
          ⟨s, s.checkpoint, {}⟩ record).1.state := by
  unfold applyTransaction at hacc ⊢
  rw [if_neg (by simp [hp]), if_neg (UInt64.not_lt.mpr hactive), hepochs] at hacc ⊢
  dsimp only at hacc ⊢
  rw [if_neg (by simp), applyRecords] at hacc ⊢
  cases hrecord : applyRecord cr p contexts transaction inclusionEpoch minimumEffectiveEpoch
    ⟨s, s.checkpoint, {}⟩ record with
  | mk w status =>
    rw [hrecord] at hacc
    cases status with
    | accepted => exact ⟨rfl, rfl⟩
    | _ => cases hacc

variable (transaction) in
/-- The records of a template, or the first few of them, are accepted together. -/
lemma applyRecords_of_selected (hp : p.valid = true)
    (hactive : p.timing.activationHeight ≤ height)
    (hepochs : inclusionEpochs p.timing height = .ok (inclusionEpoch, minimumEffectiveEpoch))
    (hheight : transaction.inclusionHeight = height) {selected records : List EnvelopeRecordV2}
    (h : s.Previews p height w)
    (hrecords : records <+: selectEposeTemplateRecordsV2 cr p contexts height selected s) :
    (∀ record ∈ records, record.type ≠ RecordTypeV2.servicePaymentProof.code) ∧
      ∃ w', applyRecords cr p contexts transaction inclusionEpoch minimumEffectiveEpoch records w =
        (w', .accepted) ∧ w'.summary.paymentProofRecords = 0 := by
  induction selected generalizing s w records with
  | nil =>
    obtain rfl := List.prefix_nil.mp hrecords
    exact ⟨by simp, w, rfl, h.proofs⟩
  | cons first selected ih =>
    rw [selectEposeTemplateRecordsV2] at hrecords
    split at hrecords
    · -- a refused record leaves the copy of the state as it was
      rename_i hrefused
      obtain ⟨-, hstate, -⟩ | ⟨haccepted, -⟩ := applyTransaction_cases cr p contexts s none [first]
        ⟨height, true, none, none⟩
      · rw [hstate] at hrecords
        exact ih h hrecords
      · exact absurd haccepted hrefused
    · rename_i haccepted
      obtain ⟨hrecord, hstate⟩ := applyTransaction_singleton hp hactive hepochs
        (not_not.mp haccepted)
      rw [hstate] at hrecords
      obtain ⟨htype, hok, hnext⟩ := Previews.applyRecord (w := ⟨s, s.checkpoint, {}⟩) h hheight
        hrecord
      cases records with
      | nil => exact ⟨by simp, w, rfl, h.proofs⟩
      | cons record records =>
        obtain ⟨rfl, hrest⟩ := List.cons_prefix_cons.mp hrecords
        obtain ⟨htypes, w', hw', hproofs⟩ := ih hnext hrest
        refine ⟨List.forall_mem_cons.mpr ⟨htype, htypes⟩, w', ?_, hproofs⟩
        rw [applyRecords]
        cases hfirst : applyRecord cr p contexts transaction inclusionEpoch minimumEffectiveEpoch
          w record with
        | mk w₁ status =>
          rw [hfirst] at hok hw'
          obtain rfl : status = .accepted := hok
          exact hw'

lemma applyRecords_append {records records' : List EnvelopeRecordV2}
    (h : applyRecords cr p contexts transaction inclusionEpoch minimumEffectiveEpoch records w =
      (w', .accepted)) :
    applyRecords cr p contexts transaction inclusionEpoch minimumEffectiveEpoch
        (records ++ records') w =
      applyRecords cr p contexts transaction inclusionEpoch minimumEffectiveEpoch records' w' := by
  induction records generalizing w with
  | nil =>
    cases h
    rfl
  | cons record records ih =>
    rw [applyRecords] at h
    rw [List.cons_append, applyRecords]
    split at h
    · exact ih h
    · rename_i hrefused _
      cases h
      exact absurd rfl hrefused

/-- The Coinbase of a template is accepted: its records were previewed, and a payment proof
behind them is the one that was validated. -/
lemma applyTransaction_of_selected (hp : p.valid = true)
    (hactive : p.timing.activationHeight ≤ height) {s' : SemanticStateV2}
    (h : s.Previews p height ⟨s', s'.checkpoint, {}⟩) (blockUndo : Option UndoJournal)
    {selected records : List EnvelopeRecordV2} {proof : Option EnvelopeRecordV2}
    {validated : Option ValidatedServicePaymentV2}
    (hrecords : records <+: selectEposeTemplateRecordsV2 cr p contexts height selected s)
    (hproof : ∀ record ∈ proof, record.type = RecordTypeV2.servicePaymentProof.code ∧
      ∃ payment, validated = some payment ∧ payment.context.net = p.net ∧
        payment.context.height = height ∧ payment.matchesRecord cr record = true) :
    (s'.applyTransaction cr p contexts blockUndo (records ++ proof.toList)
      ⟨height, true, none, validated⟩).status = .accepted := by
  have hv : p.timing.valid = true := by
    simp only [SemanticParametersV2.valid, SemanticParametersV2.membershipValid,
      Bool.and_eq_true] at hp
    exact hp.2.1.1.1.1.1
  obtain ⟨⟨inclusionEpoch, minimumEffectiveEpoch⟩, hepochs⟩ := inclusionEpochs_ok hv height
  obtain ⟨-, w, hw, hnone⟩ := applyRecords_of_selected ⟨height, true, none, validated⟩ hp hactive
    hepochs rfl h hrecords
  have hall : (applyRecords cr p contexts ⟨height, true, none, validated⟩ inclusionEpoch
      minimumEffectiveEpoch (records ++ proof.toList) ⟨s', s'.checkpoint, {}⟩).2 = .accepted := by
    rw [applyRecords_append hw]
    cases proof with
    | none => rfl
    | some record =>
      obtain ⟨htype, payment, rfl, hnet, hheight, hmatches⟩ := hproof record rfl
      have hkind := RecordTypeV2.ofCode_eq_some_iff.mpr htype
      simp [applyRecords, SemanticStateV2.applyRecord, hkind, applyPaymentProof, hnone, hnet,
        hheight, hmatches]
  unfold applyTransaction
  rw [if_neg (by simp [hp]), if_neg (UInt64.not_lt.mpr hactive), hepochs]
  dsimp only
  split_ifs
  · rfl
  · split
    · rfl
    · rename_i hrefused happly
      rw [happly] at hall
      exact absurd hall hrefused

end SemanticStateV2

/-! ## Blocks -/

namespace BlockTransitionV2

variable {cr : Crypto} {p : TransitionParametersV2} {contexts : CanonicalContextSourceV2}
  {t : BlockTransitionV2} {b : BlockInputV2}

lemma blockPrecheck_ne_invalidSemantics {t : TransitionCoreV2} :
    blockPrecheck p t b ≠ .invalidSemantics := by
  unfold blockPrecheck
  split_ifs <;> simp

lemma structuralPass_ne_invalidSemantics {majorVersion : UInt8}
    {txs : List BlockTransactionContextV2} {budget : EnvelopeBudgetV2} :
    structuralPass p majorVersion txs budget ≠ .error .invalidSemantics := by
  induction txs generalizing budget with
  | nil => simp [structuralPass]
  | cons tx txs ih =>
    intro h
    rw [structuralPass] at h
    split at h
    · cases h
    split at h
    · cases h
    rename_i budget' _
    cases htail : structuralPass p majorVersion txs budget' with
    | error status =>
      rw [htail] at h
      cases h
      exact ih htail
    | ok result =>
      rw [htail] at h
      cases h

/-- The phases around the transactions fail with statuses of their own. -/
lemma freezes_of_invalidSemantics {parsed : List (List EnvelopeRecordV2)}
    {charged : EnvelopeBudgetV2} {w : Work}
    (h : (blockBody cr p contexts b parsed charged w).2.1 = .invalidSemantics) :
    ∃ w₁, freezePhase cr p b w = (w₁, .accepted) ∧
      (transactionsPhase cr p contexts b.height (b.transactions.zip parsed) w₁ {}).2.1 =
        .invalidSemantics := by
  have hfreeze : (freezePhase cr p b w).2 ≠ .invalidSemantics := by
    unfold freezePhase
    repeat' split
    all_goals dsimp only; try split_ifs
    all_goals simp
  have hclose : ∀ w, (closePhase cr p b w).2 ≠ .invalidSemantics := by
    intro w
    unfold closePhase
    repeat' split
    all_goals dsimp only; try split_ifs
    all_goals simp
  unfold blockBody at h
  split at h
  · rename_i w₁ hw₁
    refine ⟨w₁, hw₁, ?_⟩
    split at h
    · split_ifs at h
      split at h
      · cases h
      · rename_i hclosed
        exact absurd (by rw [hclosed]; exact h) (hclose _)
    · rename_i htransactions
      rw [htransactions]
      exact h
  · rename_i hrefused
    exact absurd (by rw [hrefused]; exact h) hfreeze

/-- A block is refused for its semantics only after the freeze, by its transactions. -/
lemma transactions_of_invalidSemantics
    (h : (t.applyBlock cr p contexts b).status = .invalidSemantics) :
    blockPrecheck p t.toTransitionCoreV2 b = .accepted ∧
      ∃ w₁, freezePhase cr p b ⟨t.state, t.state.checkpoint⟩ = (w₁, .accepted) ∧
        (transactionsPhase cr p contexts b.height (b.transactions.zip
          (b.transactions.map (·.records p b.majorVersion))) w₁ {}).2.1 = .invalidSemantics := by
  unfold applyBlock at h
  split at h
  · rename_i hpre
    refine ⟨hpre, ?_⟩
    split at h
    · rename_i status hstructural
      obtain rfl : status = .invalidSemantics := h
      exact absurd hstructural structuralPass_ne_invalidSemantics
    · rename_i parsed charged hstructural
      rw [← structuralPass_records hstructural]
      dsimp only at h
      split at h
      · cases h
      · rename_i hbody
        exact freezes_of_invalidSemantics (by rw [hbody]; exact h)
  · exact absurd h blockPrecheck_ne_invalidSemantics

lemma transactionsPhase_of_no_records (hp : p.toSemanticParametersV2.valid = true)
    {height : UInt64} (hactive : p.timing.activationHeight ≤ height)
    {txs : List (BlockTransactionContextV2 × List EnvelopeRecordV2)} {w : Work}
    {total : SemanticApplySummaryV2} (h : ∀ tx ∈ txs, tx.2 = []) :
    (transactionsPhase cr p contexts height txs w total).2.1 ≠ .invalidSemantics := by
  induction txs generalizing total with
  | nil => simp [transactionsPhase]
  | cons tx txs ih =>
    obtain ⟨tx, records⟩ := tx
    obtain ⟨rfl, hrest⟩ := List.forall_mem_cons.mp h
    have happly := @SemanticStateV2.applyTransaction_nil _
      ⟨height, tx.coinbase, tx.payment, tx.validatedPayment⟩ cr contexts hp w.state (some w.undo)
      hactive
    simp only [transactionsPhase, happly]
    rw [if_neg (by simp)]
    split
    · simp
    · exact ih hrest

/-- After the freeze of a block the state before previews the work on its Coinbase. -/
lemma previews_of_freezePhase (hp : p.valid = true) {s : SemanticStateV2}
    {undo : SemanticStateV2.UndoJournal} {w₁ : Work}
    (h : freezePhase cr p b ⟨s, undo⟩ = (w₁, .accepted)) :
    s.Previews p.toSemanticParametersV2 b.height ⟨w₁.state, w₁.state.checkpoint, {}⟩ := by
  obtain ⟨status, epoch, hstatus, hphase, -⟩ | ⟨hphase, -⟩ | ⟨epoch, frozen, -, hfreezes, hphase⟩ :=
    freezePhase_cases cr (membershipValid_of_valid hp) b ⟨s, undo⟩
  · rw [hphase] at h
    exact absurd (Prod.mk.inj h).2 hstatus
  · rw [hphase] at h
    obtain ⟨rfl, -⟩ := Prod.mk.inj h
    exact ⟨rfl, .refl, rfl⟩
  · rw [hphase] at h
    obtain ⟨rfl, -⟩ := Prod.mk.inj h
    exact ⟨rfl, MembershipPipelineV2.frozenFor_storeSnapshot undo.membership
      (timing_valid hp) hfreezes, rfl⟩

end BlockTransitionV2

namespace ConsensusCoordinatorV2

variable {cr : Crypto} {p : ConsensusParametersV2} {contexts : CanonicalContextSourceV2}
  {t : BlockTransitionV2} {block : CoordinatorBlockV2} {coinbase : Transaction}
  {plan : CoordinatorRewardPlanV2} {validated : Option ValidatedServicePaymentV2} {signatures : ℕ}

lemma valid_of_preparePayment {s : SemanticStateV2}
    (h : preparePayment cr p contexts s block = .ok (coinbase, plan, validated, signatures)) :
    p.valid = true := by
  unfold preparePayment at h
  split at h
  · cases h
  · rename_i hp
    simpa using hp

/-- A block with a null transaction is refused before anything is applied. -/
lemma none_not_mem_of_blockPrecheck {core : TransitionCoreV2}
    (h : BlockTransitionV2.blockPrecheck p.toTransitionParametersV2 core
      (transitionInput block coinbase validated) = .accepted) : none ∉ block.transactions := by
  intro hmem
  unfold BlockTransitionV2.blockPrecheck at h
  split_ifs at h with _ _ _ _ hnull
  refine hnull ?_
  simp only [transitionInput, List.any_cons, List.any_map, Option.isNone_some, Bool.false_or,
    Bool.or_eq_true, List.any_eq_true]
  exact Or.inl ⟨none, hmem, rfl⟩

/-- The payment that was validated is the one of the proof in the Coinbase, for this block. -/
lemma validated_of_preparePayment {s : SemanticStateV2}
    (h : preparePayment cr p contexts s block = .ok (coinbase, plan, validated, signatures))
    {records : List EnvelopeRecordV2} {record : EnvelopeRecordV2} {budget : EnvelopeBudgetV2}
    (hparse : (p.extraLimits block.majorVersion).parse coinbase.extra =
      .ok (records ++ [record], budget))
    (htypes : ∀ record ∈ records, record.type ≠ RecordTypeV2.servicePaymentProof.code)
    (htype : record.type = RecordTypeV2.servicePaymentProof.code)
    (hpayee : plan.expectation ≠ none) :
    ∃ payment, validated = some payment ∧ payment.context.net = p.net ∧
      payment.context.height = block.height ∧
      payment.recordHash = paymentRecordHash cr record := by
  obtain ⟨-, -, hplan, -, hvalidate⟩ := preparePayment_ok h
  unfold validatePayment at hvalidate
  split at hvalidate
  · exact absurd ‹_› hpayee
  rename_i expected hexpected
  obtain ⟨hnet, hheight, -⟩ := (planReward_eq_ok hplan).2 expected hexpected
  split_ifs at hvalidate
  split at hvalidate
  · cases hvalidate
  rename_i payment _ hpayment
  cases hvalidate
  obtain ⟨⟨proof, hpays⟩, -⟩ := validateCoinbaseServicePaymentV2_ok hpayment
  have hcontext := hpays.expectation_eq
  refine ⟨payment, rfl, ?_, ?_, ?_⟩
  · rw [← hnet, ← hcontext]
  · rw [← hheight, ← hcontext]
  · have hfind : (records ++ [record]).find? (fun record =>
        record.type = RecordTypeV2.servicePaymentProof.code) = some record := by
      rw [List.find?_append, List.find?_eq_none.mpr (by simpa using htypes)]
      simp [htype]
    unfold validateCoinbaseServicePaymentV2 at hpayment
    split at hpayment
    · cases hpayment
    rw [hparse] at hpayment
    dsimp only at hpayment
    rw [hfind] at hpayment
    cases hpayment
    rfl

/-- **The preview of a template agrees with consensus.**  Take any state of the coordinator and any
selection from the relay pool.  A block whose payment is in order, whose Coinbase carries the
first few of the previewed records, and behind them the payment proof when a payee is due, and
whose other transactions carry no record, is not refused for its semantics.  This includes the
blocks that freeze or close an epoch.

The hash of the payment record must not be the null hash, which marks a payment that was not
validated. -/
theorem preview_agrees_with_consensus
    (hprepare : preparePayment cr p contexts t.state block =
      .ok (coinbase, plan, validated, signatures))
    {selected records : List EnvelopeRecordV2} {proof : Option EnvelopeRecordV2}
    {budget : EnvelopeBudgetV2}
    (hrecords : records <+: selectEposeTemplateRecordsV2 cr p.toSemanticParametersV2 contexts
      block.height selected t.state)
    (hparse : (p.extraLimits block.majorVersion).parse coinbase.extra =
      .ok (records ++ proof.toList, budget))
    (hproof : ∀ record ∈ proof, record.type = RecordTypeV2.servicePaymentProof.code ∧
      paymentRecordHash cr record ≠ nullHash)
    (hpayee : plan.expectation = none → proof = none)
    (hothers : ∀ transaction records budget, some transaction ∈ block.transactions →
      (p.extraLimits block.majorVersion).parse transaction.extra = .ok (records, budget) →
      records = []) :
    (t.applyBlock cr p.toTransitionParametersV2 contexts
      (transitionInput block coinbase validated)).status ≠ .invalidSemantics := by
  intro hinvalid
  obtain ⟨hpre, w₁, hfreeze, hstatus⟩ :=
    BlockTransitionV2.transactions_of_invalidSemantics hinvalid
  have hvalid := BlockTransitionV2.valid_of_blockPrecheck hpre
  have hsemantic : p.toSemanticParametersV2.valid = true := by
    simp only [TransitionParametersV2.valid, Bool.and_eq_true] at hvalid
    exact hvalid.2
  have hactive : p.timing.activationHeight ≤ block.height := by
    rw [activationHeight_eq_zero (valid_of_preparePayment hprepare)]
    exact UInt64.zero_le
  have hpreviews := BlockTransitionV2.previews_of_freezePhase hvalid hfreeze
  obtain ⟨inclusionEpochs, hepochs⟩ := SemanticStateV2.inclusionEpochs_ok
    (BlockTransitionV2.timing_valid hvalid) block.height
  have htypes := (SemanticStateV2.applyRecords_of_selected ⟨block.height, true, none, none⟩
    hsemantic hactive hepochs rfl hpreviews hrecords).1
  have hpayment : ∀ record ∈ proof, record.type = RecordTypeV2.servicePaymentProof.code ∧
      ∃ payment, validated = some payment ∧ payment.context.net = p.net ∧
        payment.context.height = block.height ∧ payment.matchesRecord cr record = true := by
    rintro record rfl
    obtain ⟨htype, hhash⟩ := hproof record rfl
    obtain ⟨payment, hpayment, hnet, hheight, hmatches⟩ := validated_of_preparePayment hprepare
      hparse htypes htype (fun hnone => by cases hpayee hnone)
    refine ⟨htype, payment, hpayment, hnet, hheight, ?_⟩
    simp [ValidatedServicePaymentV2.matchesRecord, hmatches, hhash]
  have hcoinbase := SemanticStateV2.applyTransaction_of_selected hsemantic hactive hpreviews
    (some w₁.undo) hrecords hpayment
  -- the Coinbase is accepted, and the other transactions have nothing to refuse
  simp only [transitionInput, List.map_cons, List.zip_cons_cons,
    BlockTransitionV2.transactionsPhase, BlockTransactionContextV2.records, Option.map_some,
    Option.getD_some, hparse] at hstatus
  rw [if_neg (not_not.mpr hcoinbase)] at hstatus
  split at hstatus
  · cases hstatus
  · refine BlockTransitionV2.transactionsPhase_of_no_records hsemantic hactive ?_ hstatus
    rw [List.map_map, List.zip_map']
    intro tx hmem
    obtain ⟨transaction, htransaction, rfl⟩ := List.mem_map.mp hmem
    cases transaction with
    | none => exact absurd htransaction (none_not_mem_of_blockPrecheck hpre)
    | some transaction =>
      dsimp only [Function.comp_apply, BlockTransactionContextV2.records, Option.map_some,
        Option.getD_some]
      split
      · exact hothers _ _ _ htransaction ‹_›
      · rfl

/-- Two operators have enrolled, and the anchor of epoch 1 is next. -/
def sampleEnrolled : BlockTransitionV2 :=
  ⟨(connectSample 3 (sampleFreezingBlocks.take 2) {}).1, []⟩

/-- A record of the pool that comes too late, and one that is in time. -/
def samplePool : List EnvelopeRecordV2 :=
  [.ofPayload .admissionLease (AdmissionLeaseV2.sample 1).payload, .sampleRegistration 2 2 9]

/-- The block at the anchor of epoch 1 that carries what is in time. -/
def sampleTemplate : CoordinatorBlockV2 :=
  .sample 2 0 (.sampleCoinbase 2 [] (sampleExtra [] [.sampleRegistration 2 2 9]))

theorem preview_agrees_with_consensus_sample :
    selectEposeTemplateRecordsV2 .sample (ConsensusParametersV2.sample 3).toSemanticParametersV2
        .sample 2 samplePool sampleEnrolled.state = [.sampleRegistration 2 2 9] ∧
      BlockTransitionV2.freezeEpoch (ConsensusParametersV2.sample 3).toTransitionParametersV2 2 =
        some 1 ∧
      ∃ coinbase plan,
        preparePayment .sample (.sample 3) .sample sampleEnrolled.state sampleTemplate =
          .ok (coinbase, plan, none, 0) ∧
        (sampleEnrolled.applyBlock .sample (ConsensusParametersV2.sample 3).toTransitionParametersV2
          .sample (transitionInput sampleTemplate coinbase none)).status ≠ .invalidSemantics := by
  have hselected : selectEposeTemplateRecordsV2 .sample
      (ConsensusParametersV2.sample 3).toSemanticParametersV2 .sample 2 samplePool
      sampleEnrolled.state = [.sampleRegistration 2 2 9] := by
    decide +kernel
  have hparse : ((ConsensusParametersV2.sample 3).extraLimits sampleTemplate.majorVersion).parse
      (sampleExtra [] [.sampleRegistration 2 2 9]) =
        .ok ([.sampleRegistration 2 2 9] ++ (none : Option EnvelopeRecordV2).toList,
          ⟨401, 1, 2, 0⟩) := by
    decide +kernel
  have hresult : (preparePayment .sample (.sample 3) .sample sampleEnrolled.state
      sampleTemplate).map (fun result => (result.1.extra, result.2.2)) =
        .ok (sampleExtra [] [.sampleRegistration 2 2 9], none, 0) := by
    decide +kernel
  obtain ⟨⟨coinbase, plan, validated, signatures⟩, hprepare, hresult⟩ :
      ∃ result, preparePayment .sample (.sample 3) .sample sampleEnrolled.state sampleTemplate =
        .ok result ∧ (result.1.extra, result.2.2) =
          (sampleExtra [] [.sampleRegistration 2 2 9], none, 0) := by
    cases hprepare : preparePayment .sample (.sample 3) .sample sampleEnrolled.state
      sampleTemplate with
    | error status =>
      rw [hprepare] at hresult
      cases hresult
    | ok result =>
      rw [hprepare] at hresult
      exact ⟨result, rfl, Except.ok.inj hresult⟩
  obtain ⟨hextra, hvalidated⟩ := Prod.mk.inj hresult
  cases hvalidated
  rw [← hextra] at hparse
  refine ⟨hselected, by decide, coinbase, plan, hprepare, ?_⟩
  have hprefix : [.sampleRegistration 2 2 9] <+: selectEposeTemplateRecordsV2 .sample
      (ConsensusParametersV2.sample 3).toSemanticParametersV2 .sample sampleTemplate.height
      samplePool sampleEnrolled.state := by
    rw [show sampleTemplate.height = 2 from rfl, hselected]
  exact preview_agrees_with_consensus hprepare hprefix hparse (by simp) (fun _ => rfl)
    (by simp [sampleTemplate, CoordinatorBlockV2.sample])

end ConsensusCoordinatorV2

end Qwertycoin
