import Qwertycoin.Replay

/-
# What blocks carry

A block is accepted only if every record it carries is accepted, and a record is accepted when it
changes the state or repeats what the state already holds.  So the stored leases and receipts can
be read off the blocks of the chain.  This file says what each record of an accepted block does,
in terms of the lease, the receipt or the lifecycle record it decodes to.
-/

namespace Qwertycoin

/-! ## Contents -/

/-- What the payload of a record stands for. -/
inductive RecordContent
  | lifecycle (record : LifecycleRecordV2)
  | admission (lease : AdmissionLeaseV2)
  | receipt (receipt : AuthenticatedServiceReceiptV2)
  | paymentProof

/-- The content of a record that is read as the given type, if it decodes. -/
def EnvelopeRecordV2.contentAs (record : EnvelopeRecordV2) :
    Option RecordTypeV2 → Option RecordContent
  | some .identityDescriptor | some .descriptorLifecycle =>
    (decodeLifecycleRecordStructureV2 record).toOption.map .lifecycle
  | some .admissionLease => (decodeAdmissionLeaseRecordStructureV2 record).toOption.map .admission
  | some .serviceReceipt => (decodeServiceReceiptRecordStructureV2 record).toOption.map .receipt
  | some .servicePaymentProof => some .paymentProof
  | none => none

/-- The content of a record, if it decodes. -/
def EnvelopeRecordV2.content (record : EnvelopeRecordV2) : Option RecordContent :=
  record.contentAs (RecordTypeV2.ofCode record.type)

/-- The records of a transaction, if its extra field is well formed. -/
def BlockTransactionContextV2.records (p : TransitionParametersV2) (majorVersion : UInt8)
    (tx : BlockTransactionContextV2) : List EnvelopeRecordV2 :=
  match (p.extraLimits majorVersion).parse ((tx.transaction.map (·.extra)).getD []) with
  | .ok (records, _) => records
  | .error _ => []

/-- The records a block carries, in order. -/
def BlockInputV2.records (p : TransitionParametersV2) (b : BlockInputV2) : List EnvelopeRecordV2 :=
  b.transactions.flatMap (·.records p b.majorVersion)

/-- A block carries a record with this content. -/
def BlockInputV2.Carries (p : TransitionParametersV2) (b : BlockInputV2)
    (content : RecordContent) : Prop :=
  ∃ record ∈ b.records p, record.content = some content

/-! ## What accepted contents do -/

/-- A lifecycle record that is accepted without being stored repeats a stored one. -/
lemma LifecycleRegistryV2.isDuplicate_of_duplicate {cr : Crypto} {net : Scope}
    {r : LifecycleRegistryV2} {undo : UndoJournal} {record : LifecycleRecordV2}
    {inclusionEpoch minimumEffectiveEpoch : UInt64}
    (h : (r.apply cr net undo record inclusionEpoch minimumEffectiveEpoch).status =
      .idempotentDuplicate) : r.isDuplicate cr net record = true := by
  have hstatus : (r.applyStatus cr net record inclusionEpoch minimumEffectiveEpoch).1 =
      .idempotentDuplicate := by
    simp only [apply] at h
    split at h <;> exact h
  by_contra hfresh
  rw [Bool.not_eq_true] at hfresh
  have hstructure : validateLifecycleRecordStructureV2 cr net record ≠ .idempotentDuplicate := by
    simp only [validateLifecycleRecordStructureV2]
    split_ifs <;> simp
  have hauthorization : (validateLifecycleRecordAuthorizationV2 cr net record).1 ≠
      .idempotentDuplicate := by
    simp only [validateLifecycleRecordAuthorizationV2]
    split
    · split_ifs <;> simp
    · exact hstructure
  have htransition : transitionStatus cr net (r.findHistory record.nextDescriptor.identityId)
      record ≠ .idempotentDuplicate := by
    simp only [transitionStatus]
    repeat' split
    all_goals simp
  simp only [applyStatus, hfresh, true_and, Bool.false_eq_true, if_false] at hstatus
  split_ifs at hstatus
  all_goals contradiction

namespace MembershipPipelineV2

variable {cr : Crypto} {p : SemanticParametersV2} {m : MembershipPipelineV2} {undo : UndoJournal}

/-- A lease that is accepted without being stored repeats a stored one. -/
lemma exists_of_duplicate_admission {lease : AdmissionLeaseV2} {context : AdmissionContextV2}
    {height : UInt64}
    (h : (m.applyAdmission cr p undo lease context height).status = .idempotentDuplicate) :
    admissionPrecheck cr p m lease context height = .accepted ∧
      ∃ stored, m.leases.find? (sameSlot lease) = some stored ∧
        sameLease stored.lease lease = true := by
  have hstatus : (m.admissionStatus cr p lease context height).1 = .idempotentDuplicate := by
    simp only [applyAdmission] at h
    split at h <;> exact h
  have hpre : ∀ {status}, admissionPrecheck cr p m lease context height = status →
      status ≠ .idempotentDuplicate := by
    rintro _ rfl
    simp only [admissionPrecheck]
    repeat' split
    all_goals simp
  simp only [admissionStatus] at hstatus
  cases hfind : m.leases.find? (sameSlot lease) with
  | none =>
    simp only [hfind] at hstatus
    split_ifs at hstatus with h₁
    exact absurd hstatus (hpre rfl)
  | some stored =>
    simp only [hfind] at hstatus
    split_ifs at hstatus with h₁ h₂ h₃ h₄ h₅
    · exact absurd hstatus (hpre rfl)
    · exact ⟨not_not.mp h₁, stored, rfl, h₄⟩

/-- A receipt that is accepted without being stored has passed the checks and its slot is
filled. -/
lemma exists_of_duplicate_receipt {receipt : AuthenticatedServiceReceiptV2} {height : UInt64}
    {anchor : Hash}
    (h : (m.applyAuthenticatedReceipt cr p undo receipt height anchor).status =
      .idempotentDuplicate) :
    receiptPrecheck cr p m receipt height anchor = .accepted ∧
      ∃ stored, m.receipts.find? (fillsSlot receipt.challenge) = some stored ∧
        stored.receiptHash = hashAuthenticatedServiceReceiptV2 cr p.net receipt := by
  have hstatus : (m.receiptStatus cr p receipt height anchor).1 = .idempotentDuplicate := by
    simp only [applyAuthenticatedReceipt] at h
    split at h <;> exact h
  have hpre : ∀ {status}, receiptPrecheck cr p m receipt height anchor = status →
      status ≠ .idempotentDuplicate := by
    rintro _ rfl
    simp only [receiptPrecheck]
    repeat' split
    all_goals simp
  simp only [receiptStatus] at hstatus
  cases hfind : m.receipts.find? (fillsSlot receipt.challenge) with
  | none =>
    simp only [hfind] at hstatus
    split_ifs at hstatus with h₁
    exact absurd hstatus (hpre rfl)
  | some stored =>
    simp only [hfind] at hstatus
    split_ifs at hstatus with h₁ h₂ h₃
    · exact absurd hstatus (hpre rfl)
    · exact ⟨not_not.mp h₁, stored, rfl, not_not.mp h₃⟩

end MembershipPipelineV2

namespace SemanticStateV2

open MembershipPipelineV2

variable (cr : Crypto) (p : SemanticParametersV2) (contexts : CanonicalContextSourceV2)

/-- What an accepted record does to the state.  A record that the state already holds is accepted
and does nothing, and so is a payment proof. -/
inductive ContentStep (height : UInt64) :
    RecordContent → SemanticStateV2 → SemanticStateV2 → Prop
  | lifecycle {s undo record inclusionEpoch minimumEffectiveEpoch} :
      inclusionEpochs p.timing height = .ok (inclusionEpoch, minimumEffectiveEpoch) →
      s.lifecycle.Accepts cr p.net record inclusionEpoch minimumEffectiveEpoch →
      ContentStep height (.lifecycle record) s
        { s with lifecycle := (s.lifecycle.store undo record).1 }
  | knownLifecycle {s record} : s.lifecycle.isDuplicate cr p.net record = true →
      ContentStep height (.lifecycle record) s s
  | admission {s undo lease contextHeight contextHash} :
      leaseBound cr p s lease = true →
      contexts.blockHash contextHeight = some contextHash →
      s.membership.AdmissionAccepts cr p lease ⟨p.net, contextHeight, contextHash⟩ height →
      ContentStep height (.admission lease) s
        { s with membership := (s.membership.storeLease undo lease height).1 }
  | knownAdmission {s lease stored contextHeight contextHash} :
      admissionPrecheck cr p s.membership lease ⟨p.net, contextHeight, contextHash⟩ height =
        .accepted →
      s.membership.leases.find? (sameSlot lease) = some stored →
      sameLease stored.lease lease = true → ContentStep height (.admission lease) s s
  | receipt {s receipt roundAnchor} :
      contexts.roundAnchor receipt.challenge.epoch receipt.challenge.round = some roundAnchor →
      s.membership.ReceiptAccepts cr p receipt height roundAnchor →
      ContentStep height (.receipt receipt) s
        { s with membership := s.membership.addReceipt (storedReceipt cr p.net receipt height) }
  | knownReceipt {s receipt roundAnchor stored} :
      contexts.roundAnchor receipt.challenge.epoch receipt.challenge.round = some roundAnchor →
      receiptPrecheck cr p s.membership receipt height roundAnchor = .accepted →
      s.membership.receipts.find? (fillsSlot receipt.challenge) = some stored →
      ContentStep height (.receipt receipt) s s
  | paymentProof {s} : ContentStep height .paymentProof s s

/-- Records that are all accepted, one after the other. -/
inductive Contents (height : UInt64) :
    List EnvelopeRecordV2 → SemanticStateV2 → SemanticStateV2 → Prop
  | nil {s} : Contents height [] s s
  | cons {record records content s s₁ s'} : record.content = some content →
      ContentStep cr p contexts height content s s₁ → Contents height records s₁ s' →
      Contents height (record :: records) s s'

variable {cr p contexts} {height inclusionEpoch minimumEffectiveEpoch : UInt64} {w w' : Work}
  {record : EnvelopeRecordV2} {transaction : SemanticTransactionContextV2}

lemma Contents.append {records records' : List EnvelopeRecordV2} {s s₁ s' : SemanticStateV2}
    (h : Contents cr p contexts height records s s₁)
    (h' : Contents cr p contexts height records' s₁ s') :
    Contents cr p contexts height (records ++ records') s s' := by
  induction h with
  | nil => exact h'
  | cons hcontent hstep _ ih => exact .cons hcontent hstep (ih h')

/-- What records carry at a height joins a log of contents of one kind. -/
def logged {α : Type} (kind : α → RecordContent) (log : α → UInt64 → Prop) (height : UInt64)
    (records : List EnvelopeRecordV2) (value : α) (height' : UInt64) : Prop :=
  log value height' ∨ height' = height ∧ ∃ record ∈ records, record.content = some (kind value)

/-- What holds of a state with a log, and is kept when an accepted content joins the log, is kept
when accepted records do. -/
lemma Contents.logged {α : Type} {kind : α → RecordContent} {log : α → UInt64 → Prop}
    {P : (α → UInt64 → Prop) → SemanticStateV2 → Prop}
    (hstep : ∀ {log content s s'}, P log s → ContentStep cr p contexts height content s s' →
      P (fun value height' => log value height' ∨ height' = height ∧ content = kind value) s')
    {records : List EnvelopeRecordV2} {s s' : SemanticStateV2}
    (h : Contents cr p contexts height records s s') (hs : P log s) :
    P (logged kind log height records) s' := by
  induction h generalizing log with
  | nil =>
    have hlog : SemanticStateV2.logged kind log height [] = log := by
      funext value height'
      simp [SemanticStateV2.logged]
    rwa [hlog]
  | @cons record records content s s₁ s' hcontent hfirst _ ih =>
    have hlog : SemanticStateV2.logged kind (fun value height' => log value height' ∨
        height' = height ∧ content = kind value) height records =
        SemanticStateV2.logged kind log height (record :: records) := by
      funext value height'
      simp only [SemanticStateV2.logged, List.mem_cons, exists_eq_or_imp, hcontent,
        Option.some.injEq]
      rw [or_assoc, ← and_or_left]
    rw [← hlog]
    exact ih (hstep hs hfirst)

lemma applyLifecycle_contentStep (hp : p.valid = true)
    (hepochs : inclusionEpochs p.timing height = .ok (inclusionEpoch, minimumEffectiveEpoch))
    (h : applyLifecycle cr p inclusionEpoch minimumEffectiveEpoch w record = (w', .accepted)) :
    ∃ lifecycle, decodeLifecycleRecordStructureV2 record = .ok lifecycle ∧
      ContentStep cr p contexts height (.lifecycle lifecycle) w.state w'.state := by
  have hnet : p.net.valid = true := by
    simp only [SemanticParametersV2.valid, Bool.and_eq_true] at hp
    exact hp.1
  simp only [applyLifecycle] at h
  cases hdecode : decodeLifecycleRecordStructureV2 record with
  | error status =>
    rw [hdecode] at h
    cases h
  | ok lifecycle =>
    refine ⟨lifecycle, rfl, ?_⟩
    rw [hdecode] at h
    dsimp only at h
    split_ifs at h with haccepted
    · obtain ⟨status, signatures, hstatus, happly⟩ | ⟨signatures, hacc, happly⟩ :=
        w.state.lifecycle.apply_cases cr hnet w.undo.lifecycle lifecycle inclusionEpoch
          minimumEffectiveEpoch
      · obtain haccepted | hduplicate := haccepted
        · rw [happly] at haccepted
          exact absurd haccepted hstatus
        have hknown := LifecycleRegistryV2.isDuplicate_of_duplicate hduplicate
        rw [happly] at h
        cases h
        exact .knownLifecycle hknown
      · rw [happly] at h
        cases h
        exact .lifecycle hepochs hacc
    · cases h

lemma applyAdmissionLease_contentStep
    (h : applyAdmissionLease cr p contexts height w record = (w', .accepted)) :
    ∃ lease, decodeAdmissionLeaseRecordStructureV2 record = .ok lease ∧
      ContentStep cr p contexts height (.admission lease) w.state w'.state := by
  simp only [applyAdmissionLease] at h
  cases hdecode : decodeAdmissionLeaseRecordStructureV2 record with
  | error status =>
    rw [hdecode] at h
    cases h
  | ok lease =>
    refine ⟨lease, rfl, ?_⟩
    rw [hdecode] at h
    dsimp only at h
    split at h
    · cases h
    rename_i contextHeight hheight
    split_ifs at h with hbound
    · cases h
    split at h
    · cases h
    rename_i contextHash hhash
    split_ifs at h with hnull haccepted
    · cases h
    · obtain ⟨status, randomx, hstatus, happly⟩ | ⟨randomx, hacc, happly⟩ :=
        w.state.membership.applyAdmission_cases cr p w.undo.membership lease
          ⟨p.net, contextHeight, contextHash⟩ height
      · obtain haccepted | hduplicate := haccepted
        · rw [happly] at haccepted
          exact absurd haccepted hstatus
        obtain ⟨hpre, stored, hfind, hsame⟩ := exists_of_duplicate_admission hduplicate
        rw [happly] at h
        cases h
        exact .knownAdmission hpre hfind hsame
      · rw [happly] at h
        cases h
        exact .admission (by simpa using hbound) hhash hacc
    · cases h

lemma applyReceipt_contentStep
    (h : applyReceipt cr p contexts height w record = (w', .accepted)) :
    ∃ receipt, decodeServiceReceiptRecordStructureV2 record = .ok receipt ∧
      ContentStep cr p contexts height (.receipt receipt) w.state w'.state := by
  simp only [applyReceipt] at h
  cases hdecode : decodeServiceReceiptRecordStructureV2 record with
  | error status =>
    rw [hdecode] at h
    cases h
  | ok receipt =>
    refine ⟨receipt, rfl, ?_⟩
    rw [hdecode] at h
    dsimp only at h
    split at h
    · cases h
    rename_i roundAnchor hanchor
    split_ifs at h with hnull haccepted
    · cases h
    · obtain ⟨status, signatures, hstatus, happly⟩ | ⟨signatures, hacc, happly⟩ :=
        w.state.membership.applyAuthenticatedReceipt_cases cr p w.undo.membership receipt height
          roundAnchor
      · obtain haccepted | hduplicate := haccepted
        · rw [happly] at haccepted
          exact absurd haccepted hstatus
        obtain ⟨hpre, stored, hfind, -⟩ := exists_of_duplicate_receipt hduplicate
        rw [happly] at h
        cases h
        exact .knownReceipt hanchor hpre hfind
      · rw [happly] at h
        cases h
        exact .receipt hanchor hacc
    · cases h

/-- An accepted record decodes, and does what its content does. -/
lemma applyRecord_contentStep (hp : p.valid = true)
    (hepochs : inclusionEpochs p.timing transaction.inclusionHeight =
      .ok (inclusionEpoch, minimumEffectiveEpoch))
    (h : applyRecord cr p contexts transaction inclusionEpoch minimumEffectiveEpoch w record =
      (w', .accepted)) :
    ∃ content, record.content = some content ∧
      ContentStep cr p contexts transaction.inclusionHeight content w.state w'.state := by
  simp only [applyRecord] at h
  have hcontent : record.content = record.contentAs (RecordTypeV2.ofCode record.type) := rfl
  split at h <;> rename_i htype <;> rw [htype] at hcontent
  · obtain ⟨lifecycle, hdecode, hstep⟩ := applyLifecycle_contentStep hp hepochs h
    exact ⟨_, by rw [hcontent, EnvelopeRecordV2.contentAs, hdecode]; rfl, hstep⟩
  · obtain ⟨lifecycle, hdecode, hstep⟩ := applyLifecycle_contentStep hp hepochs h
    exact ⟨_, by rw [hcontent, EnvelopeRecordV2.contentAs, hdecode]; rfl, hstep⟩
  · obtain ⟨lease, hdecode, hstep⟩ := applyAdmissionLease_contentStep h
    exact ⟨_, by rw [hcontent, EnvelopeRecordV2.contentAs, hdecode]; rfl, hstep⟩
  · obtain ⟨receipt, hdecode, hstep⟩ := applyReceipt_contentStep h
    exact ⟨_, by rw [hcontent, EnvelopeRecordV2.contentAs, hdecode]; rfl, hstep⟩
  · have hstate : (applyPaymentProof cr p transaction w record).1.state = w.state :=
      applyPaymentProof_state.1
    rw [h] at hstate
    exact ⟨_, hcontent, hstate ▸ .paymentProof⟩
  · cases h

lemma applyRecords_contents (hp : p.valid = true)
    (hepochs : inclusionEpochs p.timing transaction.inclusionHeight =
      .ok (inclusionEpoch, minimumEffectiveEpoch)) {records : List EnvelopeRecordV2}
    (h : applyRecords cr p contexts transaction inclusionEpoch minimumEffectiveEpoch records w =
      (w', .accepted)) :
    Contents cr p contexts transaction.inclusionHeight records w.state w'.state := by
  induction records generalizing w with
  | nil =>
    cases h
    exact .nil
  | cons record records ih =>
    simp only [applyRecords] at h
    split at h
    · rename_i w₁ happly
      obtain ⟨content, hcontent, hstep⟩ := applyRecord_contentStep hp hepochs happly
      exact .cons hcontent hstep (ih h)
    · rename_i hstatus _
      exact absurd (congrArg Prod.snd h) hstatus

lemma applyTransaction_contents {s : SemanticStateV2} {blockUndo : Option UndoJournal}
    {records : List EnvelopeRecordV2}
    (h : (s.applyTransaction cr p contexts blockUndo records transaction).status = .accepted) :
    Contents cr p contexts transaction.inclusionHeight records s
      (s.applyTransaction cr p contexts blockUndo records transaction).state := by
  simp only [applyTransaction] at h ⊢
  split at h
  · cases h
  rename_i hp
  rw [if_neg hp]
  split at h
  · cases h
  rename_i hactive
  rw [if_neg hactive]
  split at h
  · rename_i status hstatus
    dsimp only at h
    subst h
    exact absurd hstatus inclusionEpochs_ne_error_accepted
  rename_i inclusionEpoch minimumEffectiveEpoch hepochs
  split at h
  · rename_i hnil
    rw [if_pos hnil, hnil]
    exact .nil
  rename_i hnil
  rw [if_neg hnil]
  split at h
  · rename_i w happly
    exact applyRecords_contents (w := ⟨s, s.checkpoint, {}⟩) (by simpa using hp) hepochs happly
  · rename_i hstatus _
    exact absurd h hstatus

end SemanticStateV2

/-! ## Accepted blocks -/

namespace BlockTransitionV2

variable {cr : Crypto} {p : TransitionParametersV2} {contexts : CanonicalContextSourceV2}

lemma transactionsPhase_contents {height : UInt64}
    {txs : List (BlockTransactionContextV2 × List EnvelopeRecordV2)} {w w' : Work}
    {total total' : SemanticApplySummaryV2}
    (h : transactionsPhase cr p contexts height txs w total = (w', .accepted, total')) :
    SemanticStateV2.Contents cr p.toSemanticParametersV2 contexts height
      (txs.flatMap Prod.snd) w.state w'.state := by
  induction txs generalizing w total with
  | nil =>
    cases h
    exact .nil
  | cons tx txs ih =>
    obtain ⟨tx, records⟩ := tx
    simp only [transactionsPhase] at h
    split at h
    · cases h
    rename_i hstatus
    split at h
    · cases h
    exact (SemanticStateV2.applyTransaction_contents (not_not.mp hstatus)).append (ih h)

lemma structuralPass_records {majorVersion : UInt8} {txs : List BlockTransactionContextV2}
    {budget charged : EnvelopeBudgetV2} {parsed : List (List EnvelopeRecordV2)}
    (h : structuralPass p majorVersion txs budget = .ok (parsed, charged)) :
    parsed = txs.map (·.records p majorVersion) := by
  induction txs generalizing budget parsed with
  | nil =>
    cases h
    rfl
  | cons tx txs ih =>
    simp only [structuralPass] at h
    split at h
    · cases h
    rename_i records transactionBudget hparse
    split at h
    · cases h
    rename_i budget' _
    cases htail : structuralPass p majorVersion txs budget' with
    | error status =>
      rw [htail] at h
      cases h
    | ok result =>
      rw [htail] at h
      cases h
      rw [List.map_cons, ← ih htail, BlockTransactionContextV2.records, hparse]

lemma BlockAccepted.contents {t : TransitionCoreV2} {b : BlockInputV2}
    {parsed : List (List EnvelopeRecordV2)} {summary : BlockApplySummaryV2} {w₁ w₂ w₃ : Work}
    (h : BlockAccepted cr p contexts t b parsed summary w₁ w₂ w₃) :
    SemanticStateV2.Contents cr p.toSemanticParametersV2 contexts b.height (b.records p) w₁.state
      w₂.state := by
  have hcontents := transactionsPhase_contents h.transactions
  rw [structuralPass_records h.structural] at hcontents
  have hrecords : (b.transactions.zip (b.transactions.map (·.records p b.majorVersion))).flatMap
      Prod.snd = b.records p := by
    rw [List.flatMap_def, List.map_snd_zip (by simp), BlockInputV2.records, List.flatMap_def]
  rwa [hrecords] at hcontents

/-- A block of a chain carries a content of some kind, at a height. -/
def carriedBy {α : Type} (p : TransitionParametersV2) (kind : α → RecordContent)
    (chain : List BlockInputV2) (value : α) (height : UInt64) : Prop :=
  ∃ b ∈ chain, b.height = height ∧ b.Carries p (kind value)

lemma carriedBy_nil {α : Type} {kind : α → RecordContent} :
    carriedBy p kind [] = fun _ _ => False := by
  funext value height
  simp [carriedBy]

lemma logged_carriedBy {α : Type} (kind : α → RecordContent) (chain : List BlockInputV2)
    (b : BlockInputV2) :
    SemanticStateV2.logged kind (carriedBy p kind chain) b.height (b.records p) =
      carriedBy p kind (chain ++ [b]) := by
  funext value height
  simp only [SemanticStateV2.logged, carriedBy, BlockInputV2.Carries, List.mem_append,
    List.mem_singleton, eq_iff_iff]
  constructor
  · rintro (⟨earlier, hmem, hcarries⟩ | ⟨rfl, hcarries⟩)
    · exact ⟨earlier, Or.inl hmem, hcarries⟩
    · exact ⟨b, Or.inr rfl, rfl, hcarries⟩
  · rintro ⟨earlier, hmem | rfl, rfl, hcarries⟩
    · exact Or.inl ⟨earlier, hmem, rfl, hcarries⟩
    · exact Or.inr ⟨rfl, hcarries⟩

/-- What holds with the log of the fresh object, and is kept by every accepted block when its
contents join the log, holds after every run with what the chain has carried. -/
theorem Runs.carried {α : Type} {kind : α → RecordContent}
    {rule : List BlockInputV2 → CanonicalContextSourceV2 → Prop} {chain : List BlockInputV2}
    {t : BlockTransitionV2} {P : (α → UInt64 → Prop) → TransitionCoreV2 → Prop}
    (hfresh : P (fun _ _ => False) {})
    (hstep : ∀ {front call core core' entry log}, P log core → rule front call.1 →
      stepCore cr p call core = some (core', entry) →
      P (SemanticStateV2.logged kind log call.2.height (call.2.records p)) core')
    (h : Runs cr p rule chain t) : P (carriedBy p kind chain) t.toTransitionCoreV2 := by
  obtain ⟨calls, rfl, hP⟩ := h.invariant_calls
    (P := fun calls core => P (carriedBy p kind (calls.map Prod.snd)) core)
    (carriedBy_nil ▸ hfresh) fun hP hrule hs => by
      rw [List.map_append, List.map_singleton, ← logged_carriedBy]
      exact hstep hP hrule hs
  exact hP

end BlockTransitionV2

end Qwertycoin
