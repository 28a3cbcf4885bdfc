import Qwertycoin.Frozen
import Qwertycoin.Chain

/-
# Settled epochs

An epoch is settled once its evidence has been evaluated.  From then on nothing that a payout reads
about it changes: its snapshot and its qualified set are kept, and records that are accepted later
take effect in later epochs.  So a reward that was planned from a settled epoch is planned in the
same way from every later state, as long as the chain answers with the same seed.
-/

namespace Qwertycoin

open MembershipPipelineV2

namespace SemanticStateV2

/-- What a payout reads about an epoch is the same in two states. -/
structure AgreeOn (epoch : UInt64) (s s' : SemanticStateV2) : Prop where
  snapshot : s'.membership.snapshot epoch = s.membership.snapshot epoch
  qualification : s'.membership.qualification epoch = s.membership.qualification epoch
  descriptors : ∀ identity,
    s'.lifecycle.descriptorForEpoch identity epoch = s.lifecycle.descriptorForEpoch identity epoch

variable {cr : Crypto} {p : SemanticParametersV2} {contexts : CanonicalContextSourceV2}
  {s s' s'' : SemanticStateV2} {undo undo' : UndoJournal} {epoch height : UInt64}

lemma AgreeOn.refl (epoch : UInt64) (s : SemanticStateV2) : AgreeOn epoch s s :=
  ⟨rfl, rfl, fun _ => rfl⟩

lemma AgreeOn.trans (h : AgreeOn epoch s s') (h' : AgreeOn epoch s' s'') : AgreeOn epoch s s'' :=
  ⟨h'.snapshot.trans h.snapshot, h'.qualification.trans h.qualification,
    fun identity => (h'.descriptors identity).trans (h.descriptors identity)⟩

/-- A record changes nothing about an epoch whose anchor is not above its block. -/
lemma RecordStep.agreeOn (hv : p.timing.valid = true)
    (hanchor : epoch.toNat * p.timing.len ≤ height.toNat + p.timing.depth)
    (hstep : RecordStep cr p contexts height (s, undo) (s', undo')) : AgreeOn epoch s s' := by
  cases hstep with
  | lifecycle hepochs haccepts =>
    have hlater := UInt64.lt_of_lt_of_le (lt_minimumEffectiveEpoch hv hepochs hanchor)
      haccepts.minimum_le
    exact ⟨rfl, rfl, fun identity => haccepts.descriptorForEpoch_store _ hlater identity⟩
  | admission =>
    refine ⟨?_, ?_, fun _ => rfl⟩
    · rw [snapshot, storeLease_snapshots, snapshot]
    · rw [qualification, storeLease_qualifications, qualification]
  | receipt => exact ⟨rfl, rfl, fun _ => rfl⟩

lemma Evolves.agreeOn (hv : p.timing.valid = true)
    (hanchor : epoch.toNat * p.timing.len ≤ height.toNat + p.timing.depth)
    (h : Evolves cr p contexts height s s') : AgreeOn epoch s s' :=
  h.invariant (P := AgreeOn epoch s) (fun hstep hs => hs.trans (hstep.agreeOn hv hanchor))
    (.refl epoch s)

end SemanticStateV2

namespace BlockTransitionV2

open SemanticStateV2

variable {cr : Crypto} {p : TransitionParametersV2} {call : Call} {core core' : TransitionCoreV2}
  {entry : UndoEntry} {epoch : UInt64} {qualification : QualificationSetV2}

lemma FrozenInvariant.agreeOn (h : FrozenInvariant cr p core)
    (hsettled : core.state.membership.qualification epoch = some qualification)
    (hstep : stepCore cr p call core = some (core', entry)) :
    AgreeOn epoch core.state core'.state := by
  obtain ⟨parsed, summary, w₁, w₂, w₃, hblock, rfl, -⟩ := stepCore_eq_some_iff.mp hstep
  have hp := valid_of_blockPrecheck hblock.precheck
  have hv := timing_valid hp
  obtain ⟨frozen, hfrozen, -⟩ := (h.backed.closed epoch qualification hsettled).nodes
  have hmem := mem_snapshots_of_snapshot hfrozen
  have hanchor : epoch.toNat * p.timing.len ≤ call.2.height.toNat + p.timing.depth := by
    have hlt := ((h.epochs.frozen epoch).mp hmem).2.1
    rw [← height_eq_nextHeight hblock.precheck] at hlt
    omega
  have h₁ : AgreeOn epoch core.state w₁.state := by
    obtain ⟨status, -, hstatus, hphase, -⟩ | ⟨hphase, -⟩ | ⟨epoch', frozen', -, hfreezes, hphase⟩ :=
      freezePhase_cases cr (membershipValid_of_valid hp) call.2
        ⟨core.state, core.state.checkpoint⟩ <;>
      obtain ⟨rfl, heq⟩ := Prod.mk.inj (hblock.freeze.symm.trans hphase)
    · exact absurd heq.symm hstatus
    · exact .refl _ _
    · have hne : epoch' ≠ epoch := fun heq => hfreezes.fresh (heq ▸ hmem)
      refine ⟨?_, rfl, fun _ => rfl⟩
      simp [snapshot, storeSnapshot, Std.ExtTreeMap.getElem?_insert, hne]
  have h₂ : AgreeOn epoch w₁.state w₂.state := by
    have hevolves := transactionsPhase_evolves cr p call.1 call.2.height
      (call.2.transactions.zip parsed) w₁ {}
    rw [hblock.transactions] at hevolves
    exact hevolves.agreeOn hv hanchor
  refine (h₁.trans h₂).trans ?_
  obtain ⟨status, -, hstatus, hphase, -⟩ | ⟨hphase, -⟩ | ⟨epoch', closed, -, -, hcloses, hphase⟩ :=
    closePhase_cases cr (membershipValid_of_valid hp) call.2 w₂ <;>
    obtain ⟨rfl, heq⟩ := Prod.mk.inj (hblock.close.symm.trans hphase)
  · exact absurd heq.symm hstatus
  · exact .refl _ _
  · have hqualification := (h₁.trans h₂).qualification.trans hsettled
    have hne : epoch' ≠ epoch := by
      rintro rfl
      refine hcloses.fresh ?_
      rw [MembershipPipelineV2.qualification] at hqualification
      simp [Std.ExtTreeMap.mem_iff_isSome_getElem?, hqualification]
    refine ⟨rfl, ?_, fun _ => rfl⟩
    simp [MembershipPipelineV2.qualification, storeQualification, Std.ExtTreeMap.getElem?_insert,
      hne]

/-- What a chain has settled stays as it is in every longer chain. -/
lemma agreeOn_of_replay {calls later : List Call} {us us' : List UndoEntry}
    (hp : p.valid = true) (h : Reorg.Replay (machine cr p) calls core us)
    (hsettled : core.state.membership.qualification epoch = some qualification)
    (h' : Reorg.Replay (machine cr p) (calls ++ later) core' us') :
    AgreeOn epoch core.state core'.state := by
  have hinv : FrozenInvariant cr p core :=
    h.invariant (P := fun _ core => FrozenInvariant cr p core) (frozenInvariant_fresh hp)
      fun hinv hstep => hinv.step hstep
  refine (h.invariant_from (P := fun t => FrozenInvariant cr p t ∧ AgreeOn epoch core.state t.state)
    ⟨hinv, .refl _ _⟩ ?_ h').2
  rintro _ _ _ _ _ ⟨hinv, hagree⟩ hstep
  exact ⟨hinv.step hstep,
    hagree.trans (hinv.agreeOn (hagree.qualification.trans hsettled) hstep)⟩

end BlockTransitionV2

namespace ConsensusCoordinatorV2

variable {cr : Crypto} {p : ConsensusParametersV2} {contexts contexts' : CanonicalContextSourceV2}
  {s s' : SemanticStateV2} {height firstPayoutHeight : UInt64}

/-- A payout reads the settled epoch before it and the seed of its own epoch. -/
lemma planReward_congr (hfirst : p.timing.firstPayoutHeight = some firstPayoutHeight)
    (hheight : firstPayoutHeight ≤ height)
    (hagree : SemanticStateV2.AgreeOn
      ((height - p.timing.activationHeight) / p.timing.epochLength - 1) s s')
    (hseed : (p.timing.committeeAnchor
        ((height - p.timing.activationHeight) / p.timing.epochLength)).bind contexts'.blockHash =
      (p.timing.committeeAnchor
        ((height - p.timing.activationHeight) / p.timing.epochLength)).bind contexts.blockHash)
    (parentHash : Hash) (scheduledSubsidy transactionFees : UInt64) :
    planReward cr p contexts' s' height parentHash scheduledSubsidy transactionFees =
      planReward cr p contexts s height parentHash scheduledSubsidy transactionFees := by
  unfold planReward
  rw [hfirst]
  dsimp only
  rw [if_neg (UInt64.not_lt.mpr hheight), if_neg (UInt64.not_lt.mpr hheight)]
  simp only [hagree.qualification, duePayee, servicePayee, hseed, hagree.snapshot,
    hagree.descriptors]

end ConsensusCoordinatorV2

end Qwertycoin
