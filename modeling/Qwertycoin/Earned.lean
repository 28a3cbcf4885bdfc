import Qwertycoin.Evidence
import Qwertycoin.Payment

/-
# Rewards are earned

A service reward is paid for an epoch that is over, to a member that qualified in it.  Traced back
over a whole run, with every reorganisation in it, such a payment rests on what blocks of the chain
have carried: a lease with the member's work by the enrollment cutoff, and the receipts of its
committees in enough rounds.
-/

namespace Qwertycoin

open MembershipPipelineV2

namespace SemanticStateV2

variable {cr : Crypto} {p : SemanticParametersV2} {contexts : CanonicalContextSourceV2}
  {height : UInt64} {s s' : SemanticStateV2} {log : AdmissionLeaseV2 → UInt64 → Prop}

/-- The work of a lease is valid.  The check compares the height and the hash of the block that the
work starts from with those in the lease. -/
def Worked (cr : Crypto) (p : SemanticParametersV2) (lease : AdmissionLeaseV2) : Prop :=
  ∃ contextHeight contextHash, (validateAdmissionLeaseV2 cr lease
    ⟨p.net, contextHeight, contextHash⟩ p.admissionPolicy).1 = true

/-- A lease for a member of an epoch was carried by the cutoff, with valid work. -/
def PaysEntry (cr : Crypto) (p : SemanticParametersV2) (log : AdmissionLeaseV2 → UInt64 → Prop)
    (epoch : UInt64) (member : FrozenMemberV2) : Prop :=
  ∃ cutoff lease height, p.timing.enrollmentCutoff epoch = some cutoff ∧ log lease height ∧
    height ≤ cutoff ∧ lease.targetEpoch = epoch ∧ lease.member = member ∧ Worked cr p lease

/-- The stored leases have valid work, and every frozen member has paid its entry. -/
structure Leased (cr : Crypto) (p : SemanticParametersV2)
    (log : AdmissionLeaseV2 → UInt64 → Prop) (s : SemanticStateV2) : Prop extends
    Enrolled cr p log s where
  worked : ∀ stored ∈ s.membership.leases, Worked cr p stored.lease
  placed : ∀ epoch frozen, s.membership.snapshot epoch = some frozen → ∀ member ∈ frozen.members,
    PaysEntry cr p log epoch member

lemma Leased.congr (h : Leased cr p log s) (hlifecycle : s'.lifecycle = s.lifecycle)
    (hleases : s'.membership.leases = s.membership.leases)
    (hsnapshots : s'.membership.snapshots = s.membership.snapshots) : Leased cr p log s' := by
  refine ⟨h.toEnrolled.congr hlifecycle hleases, hleases ▸ h.worked, ?_⟩
  intro epoch frozen hfrozen
  rw [snapshot, hsnapshots] at hfrozen
  exact h.placed epoch frozen hfrozen

lemma Leased.contentStep {content : RecordContent} (h : Leased cr p log s)
    (hstep : ContentStep cr p contexts height content s s') :
    Leased cr p (fun lease height' => log lease height' ∨
      height' = height ∧ content = .admission lease) s' := by
  have hframe : s'.membership.snapshots = s.membership.snapshots ∧
      ∀ stored ∈ s'.membership.leases,
        stored ∈ s.membership.leases ∨ Worked cr p stored.lease := by
    cases hstep with
    | @admission _ undo lease _ _ _ _ hacc =>
      refine ⟨?_, fun stored hstored => ?_⟩
      · unfold storeLease
        split <;> rfl
      · rcases (mem_storeLease h.distinct undo lease height stored).mp hstored with rfl | hold
        · exact .inr ⟨_, _, hacc.validated⟩
        · exact .inl hold.1
    | _ => exact ⟨rfl, fun stored hstored => .inl hstored⟩
  refine ⟨h.toEnrolled.contentStep hstep, fun stored hstored => ?_, ?_⟩
  · exact (hframe.2 stored hstored).elim (h.worked stored) id
  · intro epoch frozen hfrozen member hmem
    rw [snapshot, hframe.1] at hfrozen
    obtain ⟨cutoff, lease, included, hcutoff, hlog, hpays⟩ :=
      h.placed epoch frozen hfrozen member hmem
    exact ⟨cutoff, lease, included, hcutoff, .inl hlog, hpays⟩

/-- A freeze takes members that stored leases are for. -/
lemma Leased.freeze (h : Leased cr p log s) {epoch : UInt64} {anchorHash : Hash}
    {authorizedMembers : List FrozenMemberV2} {frozen : MembershipSnapshotV2}
    (hfreezes : s.membership.Freezes cr p epoch height anchorHash authorizedMembers frozen)
    (undo : MembershipPipelineV2.UndoJournal) :
    Leased cr p log { s with membership := (s.membership.storeSnapshot undo epoch frozen).1 } := by
  refine ⟨h.toEnrolled.congr rfl rfl, h.worked, ?_⟩
  intro epoch' frozen' hfrozen' member hmem
  by_cases heq : epoch' = epoch
  · -- a new member is there for a lease that is stored
    subst heq
    obtain ⟨cutoff, hcutoff, -, -, hmembers⟩ := hfreezes.members
    obtain rfl : frozen = frozen' := by simpa [snapshot, storeSnapshot] using hfrozen'
    rw [hmembers, snapshotOf, List.mem_insertionSort, eligibleMembers, List.mem_map] at hmem
    obtain ⟨stored, hstored, rfl⟩ := hmem
    simp only [List.mem_filter, eligible, Bool.and_eq_true, decide_eq_true_eq] at hstored
    exact ⟨cutoff, stored.lease, stored.inclusionHeight, hcutoff, h.carried stored hstored.1,
      hstored.2.1.2, hstored.2.1.1, rfl, h.worked stored hstored.1⟩
  · refine h.placed epoch' frozen' ?_ member hmem
    simpa [snapshot, storeSnapshot, Std.ExtTreeMap.getElem?_insert, Ne.symm heq] using hfrozen'

end SemanticStateV2

namespace BlockTransitionV2

variable {cr : Crypto} {p : TransitionParametersV2} {call : Call} {core core' : TransitionCoreV2}
  {entry : UndoEntry} {rule : List BlockInputV2 → CanonicalContextSourceV2 → Prop}
  {chain : List BlockInputV2} {t : BlockTransitionV2}

lemma leased_step {log : AdmissionLeaseV2 → UInt64 → Prop}
    (h : core.state.Leased cr p.toSemanticParametersV2 log)
    (hstep : stepCore cr p call core = some (core', entry)) :
    core'.state.Leased cr p.toSemanticParametersV2
      (SemanticStateV2.logged .admission log call.2.height (call.2.records p)) := by
  obtain ⟨parsed, summary, w₁, w₂, w₃, hblock, rfl, -⟩ := stepCore_eq_some_iff.mp hstep
  have hp := membershipValid_of_valid (valid_of_blockPrecheck hblock.precheck)
  have h₁ : w₁.state.Leased cr p.toSemanticParametersV2 log := by
    obtain ⟨status, -, hstatus, hphase, -⟩ | ⟨hphase, -⟩ | ⟨epoch, frozen, -, hfreezes, hphase⟩ :=
      freezePhase_cases cr hp call.2 ⟨core.state, core.state.checkpoint⟩ <;>
      obtain ⟨rfl, heq⟩ := Prod.mk.inj (hblock.freeze.symm.trans hphase)
    · exact absurd heq.symm hstatus
    · exact h
    · exact h.freeze hfreezes _
  -- the records of the block only add leases, and the close looks at none of it
  have h₂ := hblock.contents.logged (fun hs hstep => hs.contentStep hstep) h₁
  obtain ⟨hlifecycle, hleases, -, hsnapshots⟩ := hblock.close_frame
  exact h₂.congr hlifecycle hleases hsnapshots

/-- After every run, every frozen member has paid its entry with a lease the chain has carried. -/
theorem Runs.leased (h : Runs cr p rule chain t) :
    t.state.Leased cr p.toSemanticParametersV2 (carriedBy p .admission chain) :=
  h.carried (P := fun log core => core.state.Leased cr p.toSemanticParametersV2 log)
    ⟨SemanticStateV2.enrolled_fresh, by simp, by simp [snapshot]⟩
    fun hinv _ hstep => leased_step hinv hstep

end BlockTransitionV2

namespace ConsensusCoordinatorV2

variable {cr : Crypto} {p : ConsensusParametersV2} {contexts : CanonicalContextSourceV2}
  {chain : List BlockInputV2} {t : BlockTransitionV2} {block : CoordinatorBlockV2}
  {result : CoordinatorResultV2} {context : ServicePaymentContextV2}

end ConsensusCoordinatorV2

end Qwertycoin
