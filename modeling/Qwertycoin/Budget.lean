import Qwertycoin.Coordinator

/-
# Verification work is paid for

A block is charged for the verifications of its records before any of them is made.  The charge
of a record covers whatever the record can make the node do, whether the record ends up accepted
or refused, so the work of a block stays within its charge and the charge within the limits of
the block.  A payment proof that the coordinator has verified costs nothing when it is applied,
which leaves its charge for the verification that was made outside the block.
-/

namespace Qwertycoin

/-- The verifications counted: signatures, then RandomX evaluations. -/
def VerificationCountersV2.amounts (counters : VerificationCountersV2) : ℕ × ℕ :=
  (counters.signatures, counters.randomx)

/-- Counts added up. -/
def VerificationCountersV2.add (total next : VerificationCountersV2) : VerificationCountersV2 :=
  ⟨total.randomx + next.randomx, total.signatures + next.signatures⟩

lemma VerificationCountersV2.amounts_add (total next : VerificationCountersV2) :
    (total.add next).amounts = total.amounts + next.amounts := rfl

/-! ## Work of records -/

/-- What a record can cost when it is applied: the charge, except that a payment proof is not
verified again when no payment is given to verify it against. -/
def EnvelopeRecordV2.appliedCost (payment : Option ServicePaymentContextV2)
    (record : EnvelopeRecordV2) : ℕ × ℕ :=
  if payment = none ∧ record.type = RecordTypeV2.servicePaymentProof.code then 0 else record.cost

def appliedCosts (payment : Option ServicePaymentContextV2) (records : List EnvelopeRecordV2) :
    ℕ × ℕ :=
  (records.map (EnvelopeRecordV2.appliedCost payment)).sum

section Costs

variable {payment : Option ServicePaymentContextV2}

lemma EnvelopeRecordV2.cost_of_kind {record : EnvelopeRecordV2} {kind : RecordTypeV2}
    (h : RecordTypeV2.ofCode record.type = some kind) :
    record.cost = (kind.signatureCost, kind.admissionCost) := by
  simp [cost, h]

lemma EnvelopeRecordV2.appliedCost_le (record : EnvelopeRecordV2) :
    record.appliedCost payment ≤ record.cost := by
  unfold appliedCost
  split_ifs
  · exact zero_le
  · exact le_rfl

lemma appliedCosts_le (records : List EnvelopeRecordV2) :
    appliedCosts payment records ≤ recordCosts records :=
  List.sum_le_sum fun record _ => record.appliedCost_le

/-- A payment proof that is not verified again leaves one signature of the charge unused. -/
lemma appliedCosts_add_le {records : List EnvelopeRecordV2} {record : EnvelopeRecordV2}
    (hmem : record ∈ records) (htype : record.type = RecordTypeV2.servicePaymentProof.code) :
    appliedCosts none records + (1, 0) ≤ recordCosts records := by
  obtain ⟨front, back, rfl⟩ := List.append_of_mem hmem
  have hcost : record.cost = (1, 0) :=
    EnvelopeRecordV2.cost_of_kind (RecordTypeV2.ofCode_eq_some_iff.mpr htype)
  have happlied : record.appliedCost none = 0 := by simp [EnvelopeRecordV2.appliedCost, htype]
  have hfront : appliedCosts none front ≤ recordCosts front := appliedCosts_le front
  have hback : appliedCosts none back ≤ recordCosts back := appliedCosts_le back
  have hsplit : appliedCosts none (front ++ record :: back) =
      appliedCosts none front + appliedCosts none back := by
    simp [appliedCosts, happlied]
  rw [hsplit, recordCosts_append, recordCosts_cons, hcost, add_assoc, add_comm _ (1, 0)]
  exact add_le_add hfront (add_le_add le_rfl hback)

end Costs

namespace SemanticStateV2

variable {cr : Crypto} {p : SemanticParametersV2} {contexts : CanonicalContextSourceV2}
  {transaction : SemanticTransactionContextV2} {inclusionEpoch minimumEffectiveEpoch : UInt64}

lemma applyLifecycle_amounts (w : Work) (record : EnvelopeRecordV2) :
    (applyLifecycle cr p inclusionEpoch minimumEffectiveEpoch w
      record).1.summary.verifications.amounts ≤ w.summary.verifications.amounts + (2, 0) := by
  simp only [applyLifecycle]
  split
  · exact le_self_add
  · rename_i lifecycle _
    have hle : (w.state.lifecycle.apply cr p.net w.undo.lifecycle lifecycle inclusionEpoch
        minimumEffectiveEpoch).signatures ≤ 2 := LifecycleRegistryV2.apply_signatures_le
    split_ifs <;> exact ⟨Nat.add_le_add_left hle _, le_rfl⟩

lemma applyAdmissionLease_amounts (height : UInt64) (w : Work) (record : EnvelopeRecordV2) :
    (applyAdmissionLease cr p contexts height w record).1.summary.verifications.amounts ≤
      w.summary.verifications.amounts + (0, 1) := by
  simp only [applyAdmissionLease]
  split
  · exact le_self_add
  rename_i lease _
  split
  · exact le_self_add
  rename_i contextHeight _
  split
  · exact le_self_add
  split
  · exact le_self_add
  rename_i contextHash _
  have hle : (w.state.membership.applyAdmission cr p w.undo.membership lease
      ⟨p.net, contextHeight, contextHash⟩ height).verifications ≤ 1 :=
    MembershipPipelineV2.applyAdmission_randomx_le
  split
  · exact le_self_add
  split_ifs <;> exact ⟨le_rfl, Nat.add_le_add_left hle _⟩

lemma applyReceipt_amounts (height : UInt64) (w : Work) (record : EnvelopeRecordV2) :
    (applyReceipt cr p contexts height w record).1.summary.verifications.amounts ≤
      w.summary.verifications.amounts + (2, 0) := by
  simp only [applyReceipt]
  split
  · exact le_self_add
  rename_i receipt _
  split
  · exact le_self_add
  rename_i roundAnchor _
  have hle : (w.state.membership.applyAuthenticatedReceipt cr p w.undo.membership receipt height
      roundAnchor).verifications ≤ 2 :=
    MembershipPipelineV2.applyAuthenticatedReceipt_signatures_le
  split
  · exact le_self_add
  split_ifs <;> exact ⟨Nat.add_le_add_left hle _, le_rfl⟩

lemma applyPaymentProof_amounts (w : Work) (record : EnvelopeRecordV2) :
    (applyPaymentProof cr p transaction w record).1.summary.verifications.amounts ≤
      w.summary.verifications.amounts + if transaction.payment = none then 0 else (1, 0) := by
  simp only [applyPaymentProof]
  split
  · exact le_self_add
  split
  · exact le_self_add
  · exact le_self_add
  · split_ifs <;> exact le_self_add
  · rename_i payment hpayment _
    have hne : transaction.payment ≠ none := by simp [hpayment]
    rw [if_neg hne]
    split_ifs
    · exact le_self_add
    · exact le_self_add
    have hle : (decodePaymentProofRecordV2 cr record payment).2 ≤ 1 :=
      decodePaymentProofRecordV2_signatures_le
    split <;> exact ⟨Nat.add_le_add_left hle _, le_rfl⟩

lemma applyRecord_amounts (w : Work) (record : EnvelopeRecordV2) :
    (applyRecord cr p contexts transaction inclusionEpoch minimumEffectiveEpoch w
        record).1.summary.verifications.amounts ≤
      w.summary.verifications.amounts + record.appliedCost transaction.payment := by
  simp only [applyRecord]
  cases hkind : RecordTypeV2.ofCode record.type with
  | none => exact le_self_add
  | some kind =>
    have hcost := EnvelopeRecordV2.cost_of_kind hkind
    have hcode := RecordTypeV2.ofCode_eq_some_iff.mp hkind
    have happlied : kind ≠ .servicePaymentProof →
        record.appliedCost transaction.payment = (kind.signatureCost, kind.admissionCost) := by
      intro hne
      rw [EnvelopeRecordV2.appliedCost, if_neg, hcost]
      rintro ⟨-, htype⟩
      rw [hcode] at htype
      cases kind <;> first | exact hne rfl | exact absurd htype (by decide)
    cases kind with
    | identityDescriptor | descriptorLifecycle =>
      rw [happlied (by simp)]
      exact applyLifecycle_amounts w record
    | admissionLease =>
      rw [happlied (by simp)]
      exact applyAdmissionLease_amounts _ w record
    | serviceReceipt =>
      rw [happlied (by simp)]
      exact applyReceipt_amounts _ w record
    | servicePaymentProof =>
      refine (applyPaymentProof_amounts w record).trans (add_le_add le_rfl ?_)
      rw [EnvelopeRecordV2.appliedCost, hcost]
      simp [hcode, RecordTypeV2.signatureCost, RecordTypeV2.admissionCost]

/-- The record loop makes no more verifications than its records can cost, wherever it stops. -/
lemma applyRecords_amounts (records : List EnvelopeRecordV2) (w : Work) :
    (applyRecords cr p contexts transaction inclusionEpoch minimumEffectiveEpoch records
        w).1.summary.verifications.amounts ≤
      w.summary.verifications.amounts + appliedCosts transaction.payment records := by
  induction records generalizing w with
  | nil => exact le_self_add
  | cons record records ih =>
    have hstep : (applyRecord cr p contexts transaction inclusionEpoch minimumEffectiveEpoch w
        record).1.summary.verifications.amounts ≤
        w.summary.verifications.amounts + record.appliedCost transaction.payment :=
      applyRecord_amounts w record
    have hcons : appliedCosts transaction.payment (record :: records) =
        record.appliedCost transaction.payment + appliedCosts transaction.payment records := by
      simp [appliedCosts]
    rw [hcons, ← add_assoc]
    simp only [applyRecords]
    split
    · rename_i w' happly
      rw [happly] at hstep
      exact (ih w').trans (add_le_add hstep le_rfl)
    · rename_i happly
      rw [happly] at hstep
      exact hstep.trans le_self_add

/-- A transaction makes no more verifications than its records can cost, accepted or not. -/
lemma applyTransaction_amounts (s : SemanticStateV2) (blockUndo : Option UndoJournal)
    (records : List EnvelopeRecordV2) :
    (s.applyTransaction cr p contexts blockUndo records
      transaction).summary.verifications.amounts ≤ appliedCosts transaction.payment records := by
  simp only [applyTransaction]
  split
  · exact zero_le
  split
  · exact zero_le
  split
  · exact zero_le
  rename_i inclusionEpoch minimumEffectiveEpoch _
  split
  · exact zero_le
  have hrecords : (applyRecords cr p contexts transaction inclusionEpoch minimumEffectiveEpoch
      records ⟨s, s.checkpoint, {}⟩).1.summary.verifications.amounts ≤
        0 + appliedCosts transaction.payment records :=
    applyRecords_amounts records _
  rw [zero_add] at hrecords
  split <;> rename_i happly <;> rw [happly] at hrecords <;> exact hrecords

end SemanticStateV2

/-! ## Work of blocks -/

namespace BlockTransitionV2

section Attempts

variable (cr : Crypto) (p : TransitionParametersV2) (contexts : CanonicalContextSourceV2)

/-- The verifications `apply_block` makes in its transactions, those of a transaction that is
refused included.  The loop of `transactionsPhase`, with the work in place of the result. -/
def transactionsAttempts (height : UInt64) :
    List (BlockTransactionContextV2 × List EnvelopeRecordV2) → Work → SemanticApplySummaryV2 →
    VerificationCountersV2
  | [], _, _ => {}
  | (tx, records) :: txs, w, total =>
    let applied := w.state.applyTransaction cr p.toSemanticParametersV2 contexts (some w.undo)
      records ⟨height, tx.coinbase, tx.payment, tx.validatedPayment⟩
    let attempts := applied.summary.verifications
    if applied.status ≠ .accepted then attempts
    else
      match addSemanticSummary total applied.summary with
      | none => attempts
      | some total =>
        attempts.add (transactionsAttempts height txs
          ⟨applied.state, applied.blockUndo.getD w.undo⟩ total)

/-- The verifications `apply_block` makes, whatever becomes of the block: neither the structural
pass nor a freeze or a close makes any. -/
def blockAttempts (t : BlockTransitionV2) (b : BlockInputV2) : VerificationCountersV2 :=
  match blockPrecheck p t.toTransitionCoreV2 b with
  | .accepted =>
    match structuralPass p b.majorVersion b.transactions {} with
    | .error _ => {}
    | .ok (parsed, _) =>
      match freezePhase cr p b ⟨t.state, t.state.checkpoint⟩ with
      | (w, .accepted) =>
        transactionsAttempts cr p contexts b.height (b.transactions.zip parsed) w {}
      | _ => {}
  | _ => {}

end Attempts

variable {cr : Crypto} {p : TransitionParametersV2} {contexts : CanonicalContextSourceV2}
  {majorVersion : UInt8}

lemma addSemanticSummary_verifications {total next sum : SemanticApplySummaryV2}
    (h : addSemanticSummary total next = some sum) :
    sum.verifications = total.verifications.add next.verifications := by
  simp only [addSemanticSummary, Option.bind_eq_bind, Option.bind_eq_some_iff, Option.pure_def,
    Option.some.injEq, addSize_eq_some_iff] at h
  obtain ⟨_, -, _, -, _, -, _, -, _, ⟨rfl, -⟩, _, ⟨rfl, -⟩, rfl⟩ := h
  rfl

lemma transactionsPhase_verifications {height : UInt64}
    {txs : List (BlockTransactionContextV2 × List EnvelopeRecordV2)} {w w' : Work}
    {total semantic : SemanticApplySummaryV2}
    (h : transactionsPhase cr p contexts height txs w total = (w', .accepted, semantic)) :
    semantic.verifications.amounts = total.verifications.amounts +
      (transactionsAttempts cr p contexts height txs w total).amounts := by
  induction txs generalizing w total with
  | nil =>
    cases h
    exact (add_zero _).symm
  | cons tx txs ih =>
    obtain ⟨tx, records⟩ := tx
    simp only [transactionsPhase] at h
    split at h
    · cases h
    rename_i hstatus
    split at h
    · cases h
    rename_i sum hsum
    rw [ih h, addSemanticSummary_verifications hsum, VerificationCountersV2.amounts_add]
    simp only [transactionsAttempts, if_neg hstatus, hsum, VerificationCountersV2.amounts_add,
      add_assoc]

/-- What the transactions of a block can cost when they are applied. -/
def transactionCosts (txs : List (BlockTransactionContextV2 × List EnvelopeRecordV2)) : ℕ × ℕ :=
  (txs.map fun tx => appliedCosts tx.1.payment tx.2).sum

/-- The transactions of a block make no more verifications than their records can cost. -/
lemma transactionsAttempts_le (height : UInt64)
    (txs : List (BlockTransactionContextV2 × List EnvelopeRecordV2)) (w : Work)
    (total : SemanticApplySummaryV2) :
    (transactionsAttempts cr p contexts height txs w total).amounts ≤ transactionCosts txs := by
  induction txs generalizing w total with
  | nil => exact le_rfl
  | cons tx txs ih =>
    obtain ⟨tx, records⟩ := tx
    have hfirst : (w.state.applyTransaction cr p.toSemanticParametersV2 contexts (some w.undo)
        records ⟨height, tx.coinbase, tx.payment,
          tx.validatedPayment⟩).summary.verifications.amounts ≤ appliedCosts tx.payment records :=
      SemanticStateV2.applyTransaction_amounts w.state (some w.undo) records
    have hcons : transactionCosts ((tx, records) :: txs) =
        appliedCosts tx.payment records + transactionCosts txs := by
      simp [transactionCosts]
    rw [hcons]
    simp only [transactionsAttempts]
    split
    · exact hfirst.trans le_self_add
    split
    · exact hfirst.trans le_self_add
    · exact add_le_add hfirst (ih _ _)

lemma transactionCosts_zip_le (txs : List BlockTransactionContextV2)
    (parsed : List (List EnvelopeRecordV2)) :
    transactionCosts (txs.zip parsed) ≤ (parsed.map recordCosts).sum := by
  induction parsed generalizing txs with
  | nil => simp [transactionCosts]
  | cons records parsed ih =>
    cases txs with
    | nil => exact zero_le
    | cons tx txs =>
      have hcons : transactionCosts ((tx, records) :: txs.zip parsed) =
          appliedCosts tx.payment records + transactionCosts (txs.zip parsed) := by
        simp [transactionCosts]
      rw [List.zip_cons_cons, hcons, List.map_cons, List.sum_cons]
      exact add_le_add (appliedCosts_le records) (ih txs)

/-- A block is charged the verifications of its records, within its limits. -/
lemma structuralPass_amounts {txs : List BlockTransactionContextV2}
    {parsed : List (List EnvelopeRecordV2)} {budget charged : EnvelopeBudgetV2}
    (h : structuralPass p majorVersion txs budget = .ok (parsed, charged))
    (hlimits : budget.amounts ≤ p.limits.block.amounts)
    (hbudget : budget.signatureVerifications ≤ sizeMax) :
    charged.amounts = budget.amounts + (parsed.map recordCosts).sum ∧
      charged.amounts ≤ p.limits.block.amounts ∧ charged.signatureVerifications ≤ sizeMax := by
  induction txs generalizing budget parsed with
  | nil =>
    cases h
    exact ⟨(add_zero _).symm, hlimits, hbudget⟩
  | cons tx txs ih =>
    simp only [structuralPass] at h
    split at h
    · cases h
    rename_i records transactionBudget hparse
    split at h
    · cases h
    rename_i next hcharge
    obtain ⟨⟨tail, final⟩, htail, h⟩ := except_bind_eq_ok_iff.mp h
    cases h
    obtain ⟨hnext, hle, hmax⟩ := chargeBlockBudgetV2_amounts hcharge
    obtain ⟨hsum, hfinal⟩ := ih htail hle hmax
    refine ⟨?_, hfinal⟩
    rw [hsum, hnext, parseTransactionExtraV2_amounts hparse, List.map_cons, List.sum_cons,
      add_assoc]

lemma structuralPass_charge {txs : List BlockTransactionContextV2}
    {parsed : List (List EnvelopeRecordV2)} {charged : EnvelopeBudgetV2}
    (h : structuralPass p majorVersion txs {} = .ok (parsed, charged)) :
    charged.amounts = (parsed.map recordCosts).sum ∧
      charged.amounts ≤ p.limits.block.amounts ∧ charged.signatureVerifications ≤ sizeMax := by
  obtain ⟨hsum, hle⟩ := structuralPass_amounts h zero_le (Nat.zero_le _)
  exact ⟨hsum.trans (zero_add _), hle⟩

lemma structuralPass_cons {tx : BlockTransactionContextV2} {txs : List BlockTransactionContextV2}
    {parsed : List (List EnvelopeRecordV2)} {budget charged : EnvelopeBudgetV2}
    (h : structuralPass p majorVersion (tx :: txs) budget = .ok (parsed, charged)) :
    ∃ records transactionBudget tail,
      (p.extraLimits majorVersion).parse ((tx.transaction.map (·.extra)).getD []) =
        .ok (records, transactionBudget) ∧ parsed = records :: tail := by
  simp only [structuralPass] at h
  split at h
  · cases h
  rename_i records transactionBudget hparse
  split at h
  · cases h
  obtain ⟨⟨tail, final⟩, -, h⟩ := except_bind_eq_ok_iff.mp h
  cases h
  exact ⟨records, transactionBudget, tail, hparse, rfl⟩

section Block

variable {t : BlockTransitionV2} {b : BlockInputV2} {parsed : List (List EnvelopeRecordV2)}
  {charged : EnvelopeBudgetV2}

lemma blockAttempts_of_error {status : BlockTransitionStatusV2}
    (h : structuralPass p b.majorVersion b.transactions {} = .error status) :
    blockAttempts cr p contexts t b = {} := by
  simp only [blockAttempts, h]
  split <;> rfl

lemma blockAttempts_le_costs
    (h : structuralPass p b.majorVersion b.transactions {} = .ok (parsed, charged)) :
    (blockAttempts cr p contexts t b).amounts ≤ transactionCosts (b.transactions.zip parsed) := by
  simp only [blockAttempts, h]
  split
  · split
    · exact transactionsAttempts_le ..
    · exact zero_le
  · exact zero_le

lemma blockAttempts_le_charge
    (h : structuralPass p b.majorVersion b.transactions {} = .ok (parsed, charged)) :
    (blockAttempts cr p contexts t b).amounts ≤ charged.amounts := by
  rw [(structuralPass_charge h).1]
  exact (blockAttempts_le_costs h).trans (transactionCosts_zip_le _ _)

/-- When the Coinbase carries a payment proof that was verified before, the charge covers that
verification on top of the work of the block. -/
lemma blockAttempts_add_le_charge
    (h : structuralPass p b.majorVersion b.transactions {} = .ok (parsed, charged))
    {coinbase : BlockTransactionContextV2} {others : List BlockTransactionContextV2}
    (hb : b.transactions = coinbase :: others) (hpayment : coinbase.payment = none)
    {records : List EnvelopeRecordV2} {budget : EnvelopeBudgetV2} {proof : EnvelopeRecordV2}
    (hparse : (p.extraLimits b.majorVersion).parse
      ((coinbase.transaction.map (·.extra)).getD []) = .ok (records, budget))
    (hmem : proof ∈ records) (htype : proof.type = RecordTypeV2.servicePaymentProof.code) :
    (blockAttempts cr p contexts t b).amounts + (1, 0) ≤ charged.amounts := by
  have hcosts : (blockAttempts cr p contexts t b).amounts ≤
      transactionCosts (b.transactions.zip parsed) := blockAttempts_le_costs h
  obtain ⟨hcharged, -⟩ := structuralPass_charge h
  rw [hb] at h hcosts
  obtain ⟨records', budget', tail, hparse', rfl⟩ := structuralPass_cons h
  obtain ⟨rfl, -⟩ := Prod.mk.inj (Except.ok.inj (hparse.symm.trans hparse'))
  have hcons : transactionCosts ((coinbase, records) :: others.zip tail) =
      appliedCosts none records + transactionCosts (others.zip tail) := by
    simp [transactionCosts, hpayment]
  rw [List.zip_cons_cons, hcons] at hcosts
  rw [hcharged, List.map_cons, List.sum_cons]
  calc (blockAttempts cr p contexts t b).amounts + (1, 0)
      ≤ appliedCosts none records + transactionCosts (others.zip tail) + (1, 0) :=
        add_le_add hcosts le_rfl
    _ = appliedCosts none records + (1, 0) + transactionCosts (others.zip tail) :=
        add_right_comm ..
    _ ≤ recordCosts records + (tail.map recordCosts).sum :=
        add_le_add (appliedCosts_add_le hmem htype) (transactionCosts_zip_le _ _)

lemma summary_eq_blockAttempts (h : (t.applyBlock cr p contexts b).status = .accepted) :
    (t.applyBlock cr p contexts b).summary.semantic.verifications.amounts =
      (blockAttempts cr p contexts t b).amounts := by
  obtain ⟨parsed, w₁, w₂, w₃, hblock, -⟩ := applyBlock_accepted h
  rw [transactionsPhase_verifications hblock.transactions]
  simp only [blockAttempts, hblock.precheck, hblock.structural, hblock.freeze]
  exact zero_add _

lemma blockPrecheck_ne_mismatch {t : TransitionCoreV2} :
    blockPrecheck p t b ≠ .verificationBudgetMismatch := by
  unfold blockPrecheck
  split_ifs <;> simp

lemma structuralPass_ne_mismatch {txs : List BlockTransactionContextV2}
    {budget : EnvelopeBudgetV2} :
    structuralPass p majorVersion txs budget ≠ .error .verificationBudgetMismatch := by
  induction txs generalizing budget with
  | nil => simp [structuralPass]
  | cons tx txs ih =>
    simp only [structuralPass]
    split
    · simp
    split
    · simp
    rename_i budget' _
    cases h : structuralPass p majorVersion txs budget' with
    | error status =>
      intro heq
      cases heq
      exact ih h
    | ok result =>
      intro heq
      cases heq

lemma freezePhase_ne_mismatch {w : Work} :
    (freezePhase cr p b w).2 ≠ .verificationBudgetMismatch := by
  unfold freezePhase
  repeat' split
  all_goals simp

lemma closePhase_ne_mismatch {w : Work} :
    (closePhase cr p b w).2 ≠ .verificationBudgetMismatch := by
  unfold closePhase
  repeat' split
  all_goals simp

lemma transactionsPhase_ne_mismatch {height : UInt64}
    {txs : List (BlockTransactionContextV2 × List EnvelopeRecordV2)} {w : Work}
    {total : SemanticApplySummaryV2} :
    (transactionsPhase cr p contexts height txs w total).2.1 ≠ .verificationBudgetMismatch := by
  induction txs generalizing w total with
  | nil => simp [transactionsPhase]
  | cons tx txs ih =>
    simp only [transactionsPhase]
    split
    · simp
    split
    · simp
    · exact ih

lemma applyBlock_ne_mismatch :
    (t.applyBlock cr p contexts b).status ≠ .verificationBudgetMismatch := by
  simp only [applyBlock]
  split
  · split
    · rename_i hstructural
      intro heq
      cases heq
      exact structuralPass_ne_mismatch hstructural
    rename_i parsed charged hstructural
    have hbody : (blockBody cr p contexts b parsed charged
        ⟨t.state, t.state.checkpoint⟩).2.1 ≠ .verificationBudgetMismatch := by
      simp only [blockBody]
      split
      · split
        · rename_i w₁ _ _ w₂ semantic htransactions
          -- the work counted here is that of the transactions, which the charge covers
          have hwork : semantic.verifications.amounts ≤ charged.amounts := by
            rw [transactionsPhase_verifications htransactions, (structuralPass_charge hstructural).1]
            refine (add_le_add le_rfl (transactionsAttempts_le ..)).trans ?_
            exact (zero_add _).le.trans (transactionCosts_zip_le _ _)
          obtain ⟨hsignatures, hrandomx⟩ := Prod.mk_le_mk.mp hwork
          rw [if_neg (not_or.mpr ⟨not_lt.mpr hsignatures, not_lt.mpr hrandomx⟩)]
          split
          · simp
          · rename_i hclose
            have hne : (closePhase cr p b w₂).2 ≠ .verificationBudgetMismatch :=
              closePhase_ne_mismatch
            rwa [hclose] at hne
        · rename_i w₁ _ _ _ _ _ _ htransactions
          have hne := @transactionsPhase_ne_mismatch cr p contexts b.height
            (b.transactions.zip parsed) w₁ {}
          rwa [htransactions] at hne
      · rename_i hfreeze
        have hne := @freezePhase_ne_mismatch cr p b ⟨t.state, t.state.checkpoint⟩
        rwa [hfreeze] at hne
    split
    · simp
    · rename_i hresult
      rwa [hresult] at hbody
  · exact blockPrecheck_ne_mismatch

end Block

end BlockTransitionV2

/-! ## The coordinator -/

namespace ConsensusCoordinatorV2

variable {cr : Crypto} {p : ConsensusParametersV2} {contexts : CanonicalContextSourceV2}
  {t : BlockTransitionV2} {block : CoordinatorBlockV2} {coinbase : Transaction}
  {plan : CoordinatorRewardPlanV2} {validated : Option ValidatedServicePaymentV2} {signatures : ℕ}

/-- The charge of a block covers the verification of its payment proof as well. -/
lemma blockAttempts_add_payment_le
    (hprepare : preparePayment cr p contexts t.state block =
      .ok (coinbase, plan, validated, signatures))
    {parsed : List (List EnvelopeRecordV2)} {charged : EnvelopeBudgetV2}
    (h : BlockTransitionV2.structuralPass p.toTransitionParametersV2 block.majorVersion
      (transitionInput block coinbase validated).transactions {} = .ok (parsed, charged)) :
    (BlockTransitionV2.blockAttempts cr p.toTransitionParametersV2 contexts t
      (transitionInput block coinbase validated)).amounts + (signatures, 0) ≤ charged.amounts := by
  obtain ⟨-, -, -, -, hvalidate⟩ := preparePayment_ok hprepare
  obtain ⟨-, -, rfl⟩ | ⟨expected, payment, proof, -, -, hpays, rfl⟩ := validatePayment_ok hvalidate
  · exact (add_zero _).le.trans (BlockTransitionV2.blockAttempts_le_charge h)
  · obtain ⟨records, budget, hparse, hfound⟩ := hpays.proof_found
    obtain ⟨record, hmem, htype⟩ := exists_of_findPaymentProof hfound
    exact BlockTransitionV2.blockAttempts_add_le_charge h rfl rfl hparse hmem htype

/-- When a block was applied, the verification of its payment is a single signature that fits
the count and the charge. -/
lemma payment_verification_fits
    (hprepare : preparePayment cr p contexts t.state block =
      .ok (coinbase, plan, validated, signatures))
    (happly : (t.applyBlock cr p.toTransitionParametersV2 contexts
      (transitionInput block coinbase validated)).status = .accepted)
    (hpayee : plan.hasServicePayee = true) :
    let summary := (t.applyBlock cr p.toTransitionParametersV2 contexts
      (transitionInput block coinbase validated)).summary
    signatures = 1 ∧ summary.semantic.verifications.signatures ≤ sizeMax - signatures ∧
      summary.semantic.verifications.signatures + signatures ≤
        summary.charged.signatureVerifications := by
  obtain ⟨parsed, w₁, w₂, w₃, hblock, -⟩ := BlockTransitionV2.applyBlock_accepted happly
  have hcharge := (blockAttempts_add_payment_le hprepare hblock.structural).1
  have hmax := (BlockTransitionV2.structuralPass_charge hblock.structural).2.2
  have hone : signatures = 1 := by
    obtain ⟨-, -, -, -, hvalidate⟩ := preparePayment_ok hprepare
    obtain ⟨hnone, -⟩ | ⟨_, _, _, -, -, -, hone⟩ := validatePayment_ok hvalidate
    · simp [CoordinatorRewardPlanV2.hasServicePayee, hnone] at hpayee
    · exact hone
  have hsummary := congrArg Prod.fst (BlockTransitionV2.summary_eq_blockAttempts happly)
  simp only [VerificationCountersV2.amounts, EnvelopeBudgetV2.amounts, Prod.fst_add]
    at hcharge hsummary
  refine ⟨hone, ?_, ?_⟩ <;> omega

end ConsensusCoordinatorV2

/-- **Verification work is paid for.**  A block whose structural pass fails is refused without a
verification: no primitive could change the outcome.  Otherwise the signatures checked and the
RandomX hashes evaluated, those of refused records included, stay within the charge of the
structural pass, together with the signature of the Coinbase proof, and the charge within the
limits of the block.  So `apply_block` never finds its own count above the charge, and the three
branches of `connect_block` that disconnect an applied block are not reached. -/
theorem verification_work_is_paid_for (cr : Crypto) (contexts : CanonicalContextSourceV2) :
    (∀ (p : TransitionParametersV2) (t : BlockTransitionV2) (b : BlockInputV2) status,
      BlockTransitionV2.structuralPass p b.majorVersion b.transactions {} = .error status →
      t.blockAttempts cr p contexts b = {} ∧
        ∀ cr' contexts', t.applyBlock cr' p contexts' b = t.applyBlock cr p contexts b) ∧
    (∀ (p : TransitionParametersV2) (t : BlockTransitionV2) (b : BlockInputV2) parsed charged,
      BlockTransitionV2.structuralPass p b.majorVersion b.transactions {} = .ok (parsed, charged) →
      (t.blockAttempts cr p contexts b).signatures ≤ charged.signatureVerifications ∧
        (t.blockAttempts cr p contexts b).randomx ≤ charged.admissionVerifications ∧
        charged.signatureVerifications ≤ p.limits.block.maxSignatureVerifications ∧
        charged.admissionVerifications ≤ p.limits.block.maxAdmissionVerifications) ∧
    (∀ (p : TransitionParametersV2) (t : BlockTransitionV2) (b : BlockInputV2),
      (t.applyBlock cr p contexts b).status ≠ .verificationBudgetMismatch ∧
        ((t.applyBlock cr p contexts b).status = .accepted →
          (t.applyBlock cr p contexts b).summary.semantic.verifications =
            t.blockAttempts cr p contexts b)) ∧
    ∀ (p : ConsensusParametersV2) (t : BlockTransitionV2) (block : CoordinatorBlockV2) coinbase plan
      validated signatures,
      ConsensusCoordinatorV2.preparePayment cr p contexts t.state block =
        .ok (coinbase, plan, validated, signatures) →
      let input := ConsensusCoordinatorV2.transitionInput block coinbase validated
      let applied := t.applyBlock cr p.toTransitionParametersV2 contexts input
      (∀ parsed charged, BlockTransitionV2.structuralPass p.toTransitionParametersV2
          input.majorVersion input.transactions {} = .ok (parsed, charged) →
        (t.blockAttempts cr p.toTransitionParametersV2 contexts input).signatures + signatures ≤
          charged.signatureVerifications) ∧
      (applied.status = .accepted → plan.hasServicePayee = true →
        signatures = 1 ∧
          ¬sizeMax - signatures < applied.summary.semantic.verifications.signatures ∧
          ¬applied.summary.charged.signatureVerifications <
            applied.summary.semantic.verifications.signatures + signatures) := by
  refine ⟨fun p t b status h => ⟨BlockTransitionV2.blockAttempts_of_error h, fun cr' contexts' => ?_⟩,
    fun p t b parsed charged h => ?_, fun p t b => ⟨BlockTransitionV2.applyBlock_ne_mismatch, ?_⟩,
    fun p t block coinbase plan validated signatures h => ⟨fun parsed charged hpass => ?_, ?_⟩⟩
  · simp only [BlockTransitionV2.applyBlock, h]
  · obtain ⟨hsignatures, hrandomx⟩ := BlockTransitionV2.blockAttempts_le_charge h
    obtain ⟨-, ⟨hmaxSignatures, hmaxRandomx⟩, -⟩ := BlockTransitionV2.structuralPass_charge h
    exact ⟨hsignatures, hrandomx, hmaxSignatures, hmaxRandomx⟩
  · intro h
    obtain ⟨hsignatures, hrandomx⟩ :=
      Prod.mk.inj (BlockTransitionV2.summary_eq_blockAttempts h)
    exact VerificationCountersV2.ext hrandomx hsignatures
  · exact (ConsensusCoordinatorV2.blockAttempts_add_payment_le h hpass).1
  · intro happly hpayee
    obtain ⟨hone, hmax, hcharge⟩ :=
      ConsensusCoordinatorV2.payment_verification_fits h happly hpayee
    exact ⟨hone, not_lt.mpr hmax, not_lt.mpr hcharge⟩

/-- A block with two registrations of one operator, of which the second is refused. -/
def BlockInputV2.sampleConflict : BlockInputV2 :=
  let coinbase : Transaction :=
    { version := 2, unlockTime := 0, vin := [.gen 0], vout := []
      extra := sampleExtra [] [.sampleRegistration 0 1 9, .sampleRegistration 0 1 8]
      signatures := [] }
  { BlockInputV2.sample 0 1 with transactions := [⟨some coinbase, true, none, none⟩] }

/-- The refused block has made verifications, and was charged for them. -/
theorem verification_work_is_paid_for_sampleConflict :
    let attempts := BlockTransitionV2.blockAttempts .sample .sample .sample {} .sampleConflict
    (BlockTransitionV2.applyBlock .sample .sample .sample {} .sampleConflict).status =
        .invalidSemantics ∧
      0 < attempts.signatures ∧ attempts.signatures ≤ 4 := by
  have hpass : (BlockTransitionV2.structuralPass .sample BlockInputV2.sampleConflict.majorVersion
      BlockInputV2.sampleConflict.transactions {}).toOption.map (·.2.signatureVerifications) =
        some 4 := by
    decide +kernel
  refine ⟨by decide +kernel, by decide +kernel, ?_⟩
  cases hok : BlockTransitionV2.structuralPass .sample BlockInputV2.sampleConflict.majorVersion
    BlockInputV2.sampleConflict.transactions {} with
  | error status =>
    rw [hok] at hpass
    cases hpass
  | ok result =>
    rw [hok] at hpass
    rw [← Option.some.inj hpass]
    exact ((verification_work_is_paid_for .sample .sample).2.1 _ _ _ result.1 result.2 hok).1

end Qwertycoin
