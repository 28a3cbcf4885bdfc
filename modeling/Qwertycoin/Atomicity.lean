import Qwertycoin.Journal
import Qwertycoin.Budget

/-
# Failed blocks leave no trace

A transaction that is refused in the middle of its records, a block that is refused at any point
and a block that the coordinator refuses all leave the state as it was, the undo stack included.

For the coordinator this needs the verification budgets.  Once the block has been applied, the
verification of the payment proof is added to the count of the block, and a count above the
charge would disconnect the block again, with an undo stack that may have lost its oldest entry.
The charge covers the proof, so that path is never taken.
-/

namespace Qwertycoin

/-! ## The coordinator -/

namespace ConsensusCoordinatorV2

variable {cr : Crypto} {p : ConsensusParametersV2} {contexts : CanonicalContextSourceV2}
  {t : BlockTransitionV2} {block : CoordinatorBlockV2}

/-- **The verification of a payment never disconnects a block that was applied.** -/
theorem connectBlock_of_applied {coinbase : Transaction} {plan : CoordinatorRewardPlanV2}
    {validated : Option ValidatedServicePaymentV2} {signatures : ℕ}
    (hprepare : preparePayment cr p contexts t.state block =
      .ok (coinbase, plan, validated, signatures))
    (happly : (t.applyBlock cr p.toTransitionParametersV2 contexts
      (transitionInput block coinbase validated)).status = .accepted) :
    ∃ result, connectBlock cr p contexts t block =
      ((t.applyBlock cr p.toTransitionParametersV2 contexts
        (transitionInput block coinbase validated)).transition, .ok result) := by
  rw [connectBlock_of_prepared hprepare]
  unfold settleBlock
  rw [if_neg (not_not.mpr happly)]
  by_cases hpayee : plan.hasServicePayee = true
  · obtain ⟨rfl, hmax, hcharge⟩ := payment_verification_fits hprepare happly hpayee
    rw [if_neg (by simp [hpayee]), if_neg (not_not.mpr rfl), if_neg (not_lt.mpr hmax),
      if_neg (not_lt.mpr hcharge)]
    exact ⟨_, rfl⟩
  · rw [if_pos (by simpa using hpayee)]
    exact ⟨_, rfl⟩

lemma connectBlock_refused {status : CoordinatorStatusV2}
    (h : (connectBlock cr p contexts t block).2 = .error status) :
    (connectBlock cr p contexts t block).1 = t := by
  cases hprepare : preparePayment cr p contexts t.state block with
  | error status' => rw [connectBlock_of_error hprepare]
  | ok prepared =>
    obtain ⟨coinbase, plan, validated, signatures⟩ := prepared
    by_cases happly : (t.applyBlock cr p.toTransitionParametersV2 contexts
        (transitionInput block coinbase validated)).status = .accepted
    · obtain ⟨result, hconnect⟩ := connectBlock_of_applied hprepare happly
      rw [hconnect] at h
      cases h
    · rw [connectBlock_of_prepared hprepare]
      unfold settleBlock
      rw [if_pos happly]
      exact BlockTransitionV2.applyBlock_refused happly

end ConsensusCoordinatorV2

/-- **Failed application is atomic.**  A block that `connect_block` or `apply_block` does not
accept leaves histories, leases, receipts, snapshots, qualified sets, tip and undo stack as they
were; a transaction that `apply_transaction` does not accept, wherever in the list the refused
record stands, leaves the state and the journal of its block as they were. -/
theorem failed_application_is_atomic (cr : Crypto) (contexts : CanonicalContextSourceV2) :
    (∀ (p : ConsensusParametersV2) (t : BlockTransitionV2) (block : CoordinatorBlockV2) status,
      (ConsensusCoordinatorV2.connectBlock cr p contexts t block).2 = .error status →
      (ConsensusCoordinatorV2.connectBlock cr p contexts t block).1 = t) ∧
    (∀ (p : TransitionParametersV2) (t : BlockTransitionV2) (b : BlockInputV2),
      (t.applyBlock cr p contexts b).status ≠ .accepted →
      (t.applyBlock cr p contexts b).transition = t) ∧
    ∀ (p : SemanticParametersV2) (s : SemanticStateV2) blockUndo records transaction,
      (s.applyTransaction cr p contexts blockUndo records transaction).status ≠ .accepted →
      (s.applyTransaction cr p contexts blockUndo records transaction).state = s ∧
        (s.applyTransaction cr p contexts blockUndo records transaction).blockUndo = blockUndo := by
  refine ⟨fun p t block status h => ConsensusCoordinatorV2.connectBlock_refused h,
    fun p t b h => BlockTransitionV2.applyBlock_refused h,
    fun p s blockUndo records transaction h => ?_⟩
  obtain ⟨-, hstate, hundo⟩ | ⟨hstatus, -⟩ :=
    s.applyTransaction_cases cr p contexts blockUndo records transaction
  · exact ⟨hstate, hundo⟩
  · exact absurd hstatus h

/-- A registration that stands in the list before a refused record is verified, and taken back. -/
theorem failed_application_is_atomic_sample :
    let applied := SemanticStateV2.applyTransaction .sample
      TransitionParametersV2.sample.toSemanticParametersV2 .sample {} none
      [.sampleRegistration 0 1 9, { type := 9 }] ⟨1, false, none, none⟩
    applied.summary.verifications.signatures = 2 ∧ applied.state = {} := by
  refine ⟨by decide +kernel, ?_⟩
  exact ((failed_application_is_atomic .sample .sample).2.2 _ _ _ _ _ (by decide +kernel)).1

end Qwertycoin
