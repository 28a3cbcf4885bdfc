import Qwertycoin.BlockTransition

/-
# Undo journals

Every operation that changes the lifecycle registry or the membership pipeline logs what it takes
to undo it.  A journal *restores* a state when rolling a later state back with it gives that
state.  A checkpoint restores the state it is taken in, every change keeps the journal correct,
and the journal of a transaction joins the journal of its block.  So a transaction or a block
that fails leaves no trace, and an accepted block can be disconnected.
-/

namespace Qwertycoin

/-! ## The lifecycle registry -/

namespace LifecycleRegistryV2

/-- Rolling `r` back with the journal gives `r₀`. -/
def Restores (undo : UndoJournal) (r₀ r : LifecycleRegistryV2) : Prop :=
  UndoLog.Restores HistoryChange.index HistoryChange.restore undo.historiesSize undo.recordSizes
    r₀.histories r.histories

variable {undo undo₁ : UndoJournal} {r₀ r r₁ : LifecycleRegistryV2}

lemma restores_checkpoint (r : LifecycleRegistryV2) : Restores r.checkpoint r r :=
  UndoLog.Restores.checkpoint _

lemma Restores.rollback_eq (h : Restores undo r₀ r) : r.rollback undo = r₀ := by
  rw [rollback, h.rewind_eq]

lemma Restores.store (h : Restores undo r₀ r) (record : LifecycleRecordV2) :
    Restores (r.store undo record).2 r₀ (r.store undo record).1 := by
  simp only [LifecycleRegistryV2.store]
  split_ifs with hregister
  · exact UndoLog.Restores.append h _
  · refine UndoLog.Restores.modify h fun history hget => ?_
    -- the logged length is the length of the history that is about to grow
    have hfind : r.findHistory record.nextDescriptor.identityId = some history := by
      rw [findHistory, List.find?_eq_getElem?_findIdx]
      exact hget
    simp [HistoryChange.restore, hfind]

lemma Restores.append (h : Restores undo r₀ r) (h₁ : Restores undo₁ r r₁) :
    Restores { undo with recordSizes := undo.recordSizes ++ undo₁.recordSizes } r₀ r₁ :=
  UndoLog.Restores.merge h h₁

end LifecycleRegistryV2

/-! ## The membership pipeline -/

namespace MembershipPipelineV2

/-- Rolling `m` back with the journal gives `m₀`. -/
structure Restores (undo : UndoJournal) (m₀ m : MembershipPipelineV2) : Prop where
  leases : UndoLog.Restores LeaseChange.index LeaseChange.restore undo.leasesSize
    undo.replacedLeases m₀.leases m.leases
  receiptsSize : undo.receiptsSize = m₀.receipts.length
  receipts : m₀.receipts <+: m.receipts
  snapshots : UndoLog.eraseKeys undo.insertedSnapshots m.snapshots = m₀.snapshots
  qualifications : UndoLog.eraseKeys undo.insertedQualifications m.qualifications =
    m₀.qualifications

variable {undo undo₁ : UndoJournal} {m₀ m m₁ : MembershipPipelineV2}

lemma restores_checkpoint (m : MembershipPipelineV2) : Restores m.checkpoint m m :=
  ⟨UndoLog.Restores.checkpoint _, rfl, List.prefix_rfl, rfl, rfl⟩

lemma Restores.rollback_eq (h : Restores undo m₀ m) : m.rollback undo = m₀ := by
  have hreceipts : m.receipts.take undo.receiptsSize = m₀.receipts := by
    rw [h.receiptsSize]
    exact (List.prefix_iff_eq_take.mp h.receipts).symm
  rw [rollback, h.leases.rewind_eq, hreceipts, h.snapshots, h.qualifications]

lemma Restores.storeLease (h : Restores undo m₀ m) (lease : AdmissionLeaseV2) (height : UInt64) :
    Restores (m.storeLease undo lease height).2 m₀ (m.storeLease undo lease height).1 := by
  simp only [MembershipPipelineV2.storeLease]
  cases hfind : m.leases.find? (sameSlot lease) with
  | none => exact ⟨h.leases.append _, h.receiptsSize, h.receipts, h.snapshots, h.qualifications⟩
  | some stored =>
    refine ⟨h.leases.modify fun replaced hget => ?_, h.receiptsSize, h.receipts, h.snapshots,
      h.qualifications⟩
    -- the logged lease is the one that is about to be replaced
    rw [← List.find?_eq_getElem?_findIdx, hfind] at hget
    exact Option.some.inj hget

lemma Restores.addReceipt (h : Restores undo m₀ m) (stored : StoredReceipt) :
    Restores undo m₀ (m.addReceipt stored) :=
  ⟨h.leases, h.receiptsSize, h.receipts.trans (List.prefix_append ..), h.snapshots,
    h.qualifications⟩

lemma Restores.storeSnapshot (h : Restores undo m₀ m) {epoch : UInt64}
    (hfresh : epoch ∉ m.snapshots) (frozen : MembershipSnapshotV2) :
    Restores (m.storeSnapshot undo epoch frozen).2 m₀ (m.storeSnapshot undo epoch frozen).1 :=
  ⟨h.leases, h.receiptsSize, h.receipts, UndoLog.eraseKeys_insert h.snapshots hfresh frozen,
    h.qualifications⟩

lemma Restores.storeQualification (h : Restores undo m₀ m) {epoch : UInt64}
    (hfresh : epoch ∉ m.qualifications) (closed : QualificationSetV2) :
    Restores (m.storeQualification undo epoch closed).2 m₀
      (m.storeQualification undo epoch closed).1 :=
  ⟨h.leases, h.receiptsSize, h.receipts, h.snapshots,
    UndoLog.eraseKeys_insert h.qualifications hfresh closed⟩

lemma Restores.append (h : Restores undo m₀ m) (h₁ : Restores undo₁ m m₁) :
    Restores
      { undo with
        replacedLeases := undo.replacedLeases ++ undo₁.replacedLeases
        insertedSnapshots := undo.insertedSnapshots ++ undo₁.insertedSnapshots
        insertedQualifications := undo.insertedQualifications ++ undo₁.insertedQualifications }
      m₀ m₁ where
  leases := h.leases.merge h₁.leases
  receiptsSize := h.receiptsSize
  receipts := h.receipts.trans h₁.receipts
  snapshots := by rw [UndoLog.eraseKeys_append, h₁.snapshots, h.snapshots]
  qualifications := by rw [UndoLog.eraseKeys_append, h₁.qualifications, h.qualifications]

end MembershipPipelineV2

/-! ## The semantic state -/

namespace SemanticStateV2

/-- Rolling `s` back with the journal gives `s₀`. -/
structure Restores (undo : UndoJournal) (s₀ s : SemanticStateV2) : Prop where
  lifecycle : LifecycleRegistryV2.Restores undo.lifecycle s₀.lifecycle s.lifecycle
  membership : MembershipPipelineV2.Restores undo.membership s₀.membership s.membership

variable {cr : Crypto} {p : SemanticParametersV2} {contexts : CanonicalContextSourceV2}
  {undo undo₁ : UndoJournal} {s₀ s s₁ : SemanticStateV2} {height : UInt64}

lemma restores_checkpoint (s : SemanticStateV2) : Restores s.checkpoint s s :=
  ⟨LifecycleRegistryV2.restores_checkpoint _, MembershipPipelineV2.restores_checkpoint _⟩

lemma Restores.rollback_eq (h : Restores undo s₀ s) : s.rollback undo = s₀ := by
  rw [rollback, h.lifecycle.rollback_eq, h.membership.rollback_eq]

lemma Restores.append (h : Restores undo s₀ s) (h₁ : Restores undo₁ s s₁) :
    Restores (undo.append undo₁) s₀ s₁ :=
  ⟨h.lifecycle.append h₁.lifecycle, h.membership.append h₁.membership⟩

lemma Restores.recordStep (h : Restores undo s₀ s)
    (hstep : RecordStep cr p contexts height (s, undo) (s₁, undo₁)) : Restores undo₁ s₀ s₁ := by
  cases hstep with
  | lifecycle => exact ⟨h.lifecycle.store _, h.membership⟩
  | admission => exact ⟨h.lifecycle, h.membership.storeLease _ _⟩
  | receipt => exact ⟨h.lifecycle, h.membership.addReceipt _⟩

lemma Restores.recordSteps (h : Restores undo s₀ s)
    (hsteps : Relation.ReflTransGen (RecordStep cr p contexts height) (s, undo) (s₁, undo₁)) :
    Restores undo₁ s₀ s₁ := by
  generalize hx : (s, undo) = x at hsteps
  generalize hy : (s₁, undo₁) = y at hsteps
  induction hsteps generalizing s₁ undo₁ with
  | refl =>
    obtain ⟨rfl, rfl⟩ := Prod.mk.inj (hx.trans hy.symm)
    exact h
  | tail _ hstep ih =>
    subst hy
    exact (ih rfl).recordStep hstep

/-! ### Transactions -/

/-- An accepted transaction has taken record steps on a fresh journal, which joins the journal of
the block; any other leaves the state and the journal of the block as they were. -/
lemma applyTransaction_cases (cr : Crypto) (p : SemanticParametersV2)
    (contexts : CanonicalContextSourceV2) (s : SemanticStateV2) (blockUndo : Option UndoJournal)
    (records : List EnvelopeRecordV2) (transaction : SemanticTransactionContextV2) :
    let applied := s.applyTransaction cr p contexts blockUndo records transaction
    (applied.status ≠ .accepted ∧ applied.state = s ∧ applied.blockUndo = blockUndo) ∨
      (applied.status = .accepted ∧ ∃ undo₁,
        Relation.ReflTransGen (RecordStep cr p contexts transaction.inclusionHeight)
          (s, s.checkpoint) (applied.state, undo₁) ∧
        applied.blockUndo = blockUndo.map (·.append undo₁)) := by
  simp only [applyTransaction]
  split
  · simp
  rename_i hp
  split
  · simp
  split
  · rename_i status hstatus
    refine Or.inl ⟨?_, rfl, rfl⟩
    rintro rfl
    exact inclusionEpochs_ne_error_accepted hstatus
  rename_i inclusionEpoch minimumEffectiveEpoch hepochs
  split
  · refine Or.inr ⟨rfl, s.checkpoint, .refl, ?_⟩
    cases blockUndo <;> simp [UndoJournal.append, checkpoint, LifecycleRegistryV2.checkpoint,
      MembershipPipelineV2.checkpoint]
  have hsteps := applyRecords_steps cr contexts (by simpa using hp) hepochs records
    ⟨s, s.checkpoint, {}⟩
  split
  · rename_i w happly
    rw [happly] at hsteps
    exact Or.inr ⟨rfl, w.undo, hsteps, rfl⟩
  · rename_i w status hstatus happly
    rw [happly] at hsteps
    exact Or.inl ⟨hstatus, (s.restores_checkpoint.recordSteps hsteps).rollback_eq, rfl⟩

end SemanticStateV2

/-! ## Blocks -/

namespace BlockTransitionV2

/-- Rolling the work on a block back with its journal gives `s₀`. -/
def Work.Restores (s₀ : SemanticStateV2) (w : Work) : Prop :=
  SemanticStateV2.Restores w.undo s₀ w.state

variable {cr : Crypto} {p : TransitionParametersV2} {contexts : CanonicalContextSourceV2}
  {s₀ : SemanticStateV2} {w : Work} {t : BlockTransitionV2} {b : BlockInputV2}

lemma Work.Restores.freezePhase (h : w.Restores s₀) (cr : Crypto) (hp : p.membershipValid = true)
    (b : BlockInputV2) : (freezePhase cr p b w).1.Restores s₀ := by
  obtain ⟨status, epoch, -, hphase, -⟩ | ⟨hphase, -⟩ | ⟨epoch, frozen, -, hfreezes, hphase⟩ :=
    freezePhase_cases cr hp b w
  · rwa [hphase]
  · rwa [hphase]
  · rw [hphase]
    exact ⟨h.lifecycle, h.membership.storeSnapshot hfreezes.fresh frozen⟩

lemma Work.Restores.closePhase (h : w.Restores s₀) (cr : Crypto) (hp : p.membershipValid = true)
    (b : BlockInputV2) : (closePhase cr p b w).1.Restores s₀ := by
  obtain ⟨status, epoch, -, hphase, -⟩ | ⟨hphase, -⟩ | ⟨epoch, closed, -, -, hcloses, hphase⟩ :=
    closePhase_cases cr hp b w
  · rwa [hphase]
  · rwa [hphase]
  · rw [hphase]
    exact ⟨h.lifecycle, h.membership.storeQualification hcloses.fresh closed⟩

lemma Work.Restores.transactionsPhase (h : w.Restores s₀) (cr : Crypto)
    (p : TransitionParametersV2) (contexts : CanonicalContextSourceV2) (height : UInt64)
    (txs : List (BlockTransactionContextV2 × List EnvelopeRecordV2))
    (total : SemanticApplySummaryV2) :
    (transactionsPhase cr p contexts height txs w total).1.Restores s₀ := by
  induction txs generalizing w total with
  | nil => exact h
  | cons tx txs ih =>
    obtain ⟨tx, records⟩ := tx
    have hcases := w.state.applyTransaction_cases cr p.toSemanticParametersV2 contexts
      (some w.undo) records ⟨height, tx.coinbase, tx.payment, tx.validatedPayment⟩
    simp only [BlockTransitionV2.transactionsPhase]
    obtain ⟨hstatus, hstate, hundo⟩ | ⟨hstatus, undo₁, hsteps, hundo⟩ := hcases
    · rw [if_pos hstatus, hstate, hundo]
      exact h
    · have hwork : Work.Restores s₀ ⟨_, _⟩ :=
        h.append (w.state.restores_checkpoint.recordSteps hsteps)
      rw [if_neg (not_not.mpr hstatus), hundo]
      split
      · exact hwork
      · exact ih hwork _

/-- The transactions of a block take record steps, whether or not all of them are accepted. -/
lemma transactionsPhase_evolves (cr : Crypto) (p : TransitionParametersV2)
    (contexts : CanonicalContextSourceV2) (height : UInt64)
    (txs : List (BlockTransactionContextV2 × List EnvelopeRecordV2)) (w : Work)
    (total : SemanticApplySummaryV2) :
    SemanticStateV2.Evolves cr p.toSemanticParametersV2 contexts height w.state
      (transactionsPhase cr p contexts height txs w total).1.state := by
  induction txs generalizing w total with
  | nil => exact .refl
  | cons tx txs ih =>
    obtain ⟨tx, records⟩ := tx
    have hcases := w.state.applyTransaction_cases cr p.toSemanticParametersV2 contexts
      (some w.undo) records ⟨height, tx.coinbase, tx.payment, tx.validatedPayment⟩
    simp only [BlockTransitionV2.transactionsPhase]
    obtain ⟨hstatus, hstate, hundo⟩ | ⟨hstatus, undo₁, hsteps, hundo⟩ := hcases
    · rw [if_pos hstatus, hstate]
      exact .refl
    · have hevolves := SemanticStateV2.evolves_of_recordSteps hsteps
      rw [if_neg (not_not.mpr hstatus)]
      split
      · exact hevolves
      · rename_i total' _
        exact hevolves.trans (ih ⟨_, _⟩ total')

/-- At every point where the work on a block stops, its journal restores the state before. -/
lemma Work.Restores.blockBody (h : w.Restores s₀) (cr : Crypto) (hp : p.membershipValid = true)
    (contexts : CanonicalContextSourceV2) (b : BlockInputV2)
    (parsed : List (List EnvelopeRecordV2)) (charged : EnvelopeBudgetV2) :
    (blockBody cr p contexts b parsed charged w).1.Restores s₀ := by
  simp only [BlockTransitionV2.blockBody]
  have h₁ := h.freezePhase cr hp b
  split
  · rename_i w₁ hfreeze
    rw [hfreeze] at h₁
    have h₂ := h₁.transactionsPhase cr p contexts b.height (b.transactions.zip parsed) {}
    split
    · rename_i w₂ semantic htransactions
      rw [htransactions] at h₂
      split
      · exact h₂
      have h₃ := h₂.closePhase cr hp b
      split
      · rename_i hclose
        rwa [hclose] at h₃
      · rename_i hclose
        rwa [hclose] at h₃
    · rename_i htransactions
      rwa [htransactions] at h₂
  · rename_i hfreeze
    rwa [hfreeze] at h₁

lemma valid_of_blockPrecheck {t : TransitionCoreV2} (h : blockPrecheck p t b = .accepted) :
    p.valid = true := by
  simp only [blockPrecheck] at h
  split_ifs at h with hp
  all_goals simpa using hp

lemma membershipValid_of_valid (hp : p.valid = true) : p.membershipValid = true := by
  simp only [TransitionParametersV2.valid, SemanticParametersV2.valid, Bool.and_eq_true] at hp
  exact hp.2.2

/-- A block that is not accepted changes nothing, not even the undo stack. -/
lemma applyBlock_refused (h : (t.applyBlock cr p contexts b).status ≠ .accepted) :
    (t.applyBlock cr p contexts b).transition = t := by
  simp only [applyBlock] at h ⊢
  cases hpre : blockPrecheck p t.toTransitionCoreV2 b with
  | accepted =>
    have hp := membershipValid_of_valid (valid_of_blockPrecheck hpre)
    simp only [hpre] at h ⊢
    cases hstructural : structuralPass p b.majorVersion b.transactions {} with
    | error status => rfl
    | ok result =>
      obtain ⟨parsed, charged⟩ := result
      simp only [hstructural] at h ⊢
      have hbody := Work.Restores.blockBody (w := ⟨t.state, t.state.checkpoint⟩)
        t.state.restores_checkpoint cr hp contexts b parsed charged
      split at h
      · exact absurd rfl h
      · rename_i w status summary _ heq
        rw [heq] at hbody
        rw [hbody.rollback_eq, List.dropLast_concat]
  | _ => rfl

/-- The journal of an accepted block restores the state before the block. -/
lemma BlockAccepted.restores {t : TransitionCoreV2} {parsed : List (List EnvelopeRecordV2)}
    {summary : BlockApplySummaryV2} {w₁ w₂ w₃ : Work}
    (h : BlockAccepted cr p contexts t b parsed summary w₁ w₂ w₃) :
    SemanticStateV2.Restores w₃.undo t.state w₃.state := by
  have hp := membershipValid_of_valid (valid_of_blockPrecheck h.precheck)
  have h₁ := Work.Restores.freezePhase (w := ⟨t.state, t.state.checkpoint⟩)
    t.state.restores_checkpoint cr hp b
  rw [h.freeze] at h₁
  have h₂ := h₁.transactionsPhase cr p contexts b.height (b.transactions.zip parsed) {}
  rw [h.transactions] at h₂
  have h₃ := h₂.closePhase cr hp b
  rwa [h.close] at h₃

end BlockTransitionV2

end Qwertycoin
