import Qwertycoin.Histories
import Qwertycoin.Epochs

/-
# Frozen members stay backed

A payout is planned two epochs after its payee was admitted.  In between, arbitrary lifecycle and
admission records are accepted.  They cannot touch what was frozen: a record of a block at or
above the anchor of an epoch takes effect in a later epoch, so the descriptor that an identity
had in the frozen epoch is what the registry answers ever after.
-/

namespace Qwertycoin

open MembershipPipelineV2

lemma MembershipPipelineV2.mem_snapshots_of_snapshot {m : MembershipPipelineV2} {epoch : UInt64}
    {frozen : MembershipSnapshotV2} (h : m.snapshot epoch = some frozen) :
    epoch ∈ m.snapshots := by
  rw [snapshot] at h
  simp [Std.ExtTreeMap.mem_iff_isSome_getElem?, h]

/-- A snapshot whose members are distinct, and stand for the descriptors that the registry has for
their identities in the epoch. -/
structure MembershipSnapshotV2.Backed (cr : Crypto) (net : Scope) (r : LifecycleRegistryV2)
    (epoch : UInt64) (frozen : MembershipSnapshotV2) : Prop where
  distinct : frozen.members.Pairwise DistinctMembers
  members : ∀ member ∈ frozen.members, ∃ descriptor,
    r.descriptorForEpoch member.identityId epoch = some descriptor ∧
      descriptor.member cr net = member
  hashed : ∃ bytes, frozen.snapshotHash = cr.cnFastHash bytes

/-- A qualified set that was settled from the snapshot of its epoch. -/
structure QualificationSetV2.Settled (cr : Crypto) (timing : EpochTimingV2)
    (m : MembershipPipelineV2) (epoch : UInt64) (closed : QualificationSetV2) : Prop where
  epoch_eq : closed.epoch = epoch
  deadline : timing.evidenceDeadline epoch = some closed.closedHeight
  nodes : ∃ frozen, m.snapshot epoch = some frozen ∧ closed.snapshotHash = frozen.snapshotHash ∧
    closed.qualifiedNodes.Sublist (frozen.members.map (·.servicePublicKey))
  hashed : ∃ bytes, closed.qualificationHash = cr.cnFastHash bytes

lemma QualificationSetV2.Settled.congr {cr : Crypto} {timing : EpochTimingV2}
    {m m' : MembershipPipelineV2} {epoch : UInt64} {closed : QualificationSetV2}
    (h : closed.Settled cr timing m epoch) (heq : m'.snapshot epoch = m.snapshot epoch) :
    closed.Settled cr timing m' epoch :=
  ⟨h.epoch_eq, h.deadline, by rw [heq]; exact h.nodes, h.hashed⟩

namespace SemanticStateV2

variable {cr : Crypto} {p : SemanticParametersV2} {contexts : CanonicalContextSourceV2}
  {s s' : SemanticStateV2} {undo undo' : UndoJournal} {epoch height : UInt64}

/-- Every snapshot is backed by the registry and every qualified set by its snapshot. -/
structure Backed (cr : Crypto) (p : SemanticParametersV2) (s : SemanticStateV2) : Prop where
  registry : s.lifecycle.WellFormed cr p.net
  frozen : ∀ epoch frozen, s.membership.snapshot epoch = some frozen →
    frozen.Backed cr p.net s.lifecycle epoch
  closed : ∀ epoch closed, s.membership.qualification epoch = some closed →
    closed.Settled cr p.timing s.membership epoch

/-- The snapshots of a state lie at or below the next anchor. -/
def FrozenUpTo (timing : EpochTimingV2) (height : UInt64) (s : SemanticStateV2) : Prop :=
  ∀ epoch ∈ s.membership.snapshots, epoch.toNat * timing.len ≤ height.toNat + timing.depth

/-- A record in a block takes effect after every epoch whose anchor is not above the block. -/
lemma lt_minimumEffectiveEpoch {timing : EpochTimingV2} (hv : timing.valid = true)
    {inclusionEpoch minimumEffectiveEpoch : UInt64}
    (h : inclusionEpochs timing height = .ok (inclusionEpoch, minimumEffectiveEpoch))
    (hanchor : epoch.toNat * timing.len ≤ height.toNat + timing.depth) :
    epoch < minimumEffectiveEpoch := by
  have hlen := EpochTimingV2.len_gt_one hv
  have hdepth := (EpochTimingV2.valid_iff.mp hv).2.1
  have hdiv := Nat.div_add_mod height.toNat timing.len
  have hmod := Nat.mod_lt height.toNat (show 0 < timing.len by omega)
  have hquot : (height / timing.epochLength).toNat = height.toNat / timing.len := UInt64.toNat_div ..
  generalize hq : height.toNat / timing.len = q at hdiv hquot
  rw [Nat.mul_comm] at hdiv
  simp only [inclusionEpochs] at h
  split_ifs at h with hmax hcutoff hmax'
  all_goals
    obtain ⟨-, rfl⟩ := Prod.mk.inj (Except.ok.inj h)
    rw [← UInt64.toNat_inj, hquot, toNat_uint64Max] at hmax
    have hsucc : (height / timing.epochLength + 1).toNat = q + 1 := by
      have := (height / timing.epochLength).toNat_lt
      rw [UInt64.toNat_add, hquot, UInt64.toNat_one]
      omega
    rw [UInt64.lt_iff_toNat_lt]
    by_contra hge
  · -- the cutoff of the next epoch is not below the block, so its anchor is above it
    obtain ⟨cutoff, hsome, hle⟩ : ∃ cutoff,
        timing.enrollmentCutoff (height / timing.epochLength + 1) = some cutoff ∧
          height.toNat ≤ cutoff.toNat := by
      cases hsome : timing.enrollmentCutoff (height / timing.epochLength + 1) with
      | none => simp [hsome] at hcutoff
      | some cutoff =>
        rw [hsome, Option.any_some, decide_eq_true_eq] at hcutoff
        exact ⟨cutoff, rfl, UInt64.le_iff_toNat_le.mp hcutoff⟩
    obtain ⟨hstart, -⟩ := (EpochTimingV2.enrollmentCutoff_eq_some_iff hv).mp hsome
    have hmul : (q + 1) * timing.len ≤ epoch.toNat * timing.len := Nat.mul_le_mul_right _ (by omega)
    rw [hsucc] at hstart
    omega
  · rw [← UInt64.toNat_inj, hsucc, toNat_uint64Max] at hmax'
    have hsucc' : (height / timing.epochLength + 1 + 1).toNat = q + 2 := by
      have := (height / timing.epochLength + 1).toNat_lt
      rw [UInt64.toNat_add, hsucc, UInt64.toNat_one]
      omega
    have hmul : (q + 2) * timing.len ≤ epoch.toNat * timing.len := Nat.mul_le_mul_right _ (by omega)
    have hexp : (q + 2) * timing.len = q * timing.len + 2 * timing.len := Nat.add_mul ..
    omega

/-! ## What keeps a state backed -/

lemma Backed.recordStep (hv : p.timing.valid = true) (h : Backed cr p s)
    (hfrozen : FrozenUpTo p.timing height s)
    (hstep : RecordStep cr p contexts height (s, undo) (s', undo')) : Backed cr p s' := by
  cases hstep with
  | @lifecycle _ _ record _ _ hepochs haccepts =>
    refine ⟨h.registry.store haccepts _, fun epoch frozen hsnapshot => ?_, h.closed⟩
    have hbacked := h.frozen epoch frozen hsnapshot
    -- the record takes effect after the frozen epoch
    have hmem := mem_snapshots_of_snapshot hsnapshot
    have hlater : epoch < record.nextDescriptor.effectiveEpoch :=
      UInt64.lt_of_lt_of_le (lt_minimumEffectiveEpoch hv hepochs (hfrozen epoch hmem))
        haccepts.minimum_le
    refine ⟨hbacked.distinct, fun member hmember => ?_, hbacked.hashed⟩
    obtain ⟨descriptor, hdescriptor, heq⟩ := hbacked.members member hmember
    exact ⟨descriptor, (haccepts.descriptorForEpoch_store _ hlater _).trans hdescriptor, heq⟩
  | @admission _ _ lease _ _ _ _ _ _ =>
    have hsnapshot : ∀ epoch, (s.membership.storeLease undo.membership lease height).1.snapshot
        epoch = s.membership.snapshot epoch := fun epoch => by
      rw [snapshot, storeLease_snapshots, snapshot]
    have hqualification : ∀ epoch, (s.membership.storeLease undo.membership lease
        height).1.qualification epoch = s.membership.qualification epoch := fun epoch => by
      rw [qualification, storeLease_qualifications, qualification]
    refine ⟨h.registry, fun epoch frozen hfind => h.frozen epoch frozen ?_,
      fun epoch closed hfind => ?_⟩
    · rwa [← hsnapshot epoch]
    · exact (h.closed epoch closed ((hqualification epoch).symm.trans hfind)).congr
        (hsnapshot epoch)
  | receipt =>
    exact ⟨h.registry, h.frozen, fun epoch closed hfind => (h.closed epoch closed hfind).congr rfl⟩

/-- The members of a snapshot stand for the descriptors the registry has when it is taken. -/
lemma Backed.freeze (h : Backed cr p s) {anchorHash : Hash} {frozen : MembershipSnapshotV2}
    (hfreezes : s.membership.Freezes cr p epoch height anchorHash (s.authorizedMembers cr p epoch)
      frozen) (undo : MembershipPipelineV2.UndoJournal) :
    Backed cr p { s with membership := (s.membership.storeSnapshot undo epoch frozen).1 } := by
  have hsnapshot : ∀ epoch', (s.membership.storeSnapshot undo epoch frozen).1.snapshot epoch' =
      if epoch = epoch' then some frozen else s.membership.snapshot epoch' := fun epoch' => by
    simp [snapshot, storeSnapshot, Std.ExtTreeMap.getElem?_insert]
  refine ⟨h.registry, fun epoch' frozen' hfind => ?_, fun epoch' closed hfind => ?_⟩
  · rw [hsnapshot] at hfind
    split_ifs at hfind with hepoch
    · obtain rfl := hepoch
      obtain rfl := Option.some.inj hfind
      obtain ⟨cutoff, -, hdistinct, -, rfl⟩ := hfreezes.members
      refine ⟨?_, fun member hmember => ?_, _, rfl⟩
      · exact (List.perm_insertionSort _ _).symm.pairwise hdistinct
          fun hne => ⟨hne.1.symm, hne.2.symm⟩
      · obtain ⟨stored, hstored, rfl⟩ := List.mem_map.mp
          ((List.mem_insertionSort _).mp hmember)
        have helig := (List.mem_filter.mp hstored).2
        simp only [eligible, Bool.and_eq_true, decide_eq_true_eq] at helig
        obtain ⟨descriptor, hdescriptor, heq⟩ :=
          List.mem_map.mp (List.mem_of_find?_eq_some helig.2)
        refine ⟨descriptor, ?_, heq⟩
        rw [← heq]
        exact h.registry.mem_descriptorsForEpoch hdescriptor
    · exact h.frozen epoch' frozen' hfind
  · have hsettled := h.closed epoch' closed hfind
    obtain ⟨frozen', hfrozen', -⟩ := hsettled.nodes
    have hne : epoch ≠ epoch' := by
      rintro rfl
      exact hfreezes.fresh (mem_snapshots_of_snapshot hfrozen')
    exact hsettled.congr (by rw [hsnapshot, if_neg hne])

lemma qualifiedNodes_sublist (m : MembershipPipelineV2) (policy : CommitteePolicyV2)
    (epoch : UInt64) (members : List FrozenMemberV2) :
    (m.qualifiedNodes policy epoch members).Sublist (members.map (·.servicePublicKey)) := by
  rw [qualifiedNodes]
  split_ifs
  · exact List.nil_sublist _
  · exact List.filter_sublist

lemma Backed.close (h : Backed cr p s) {closed : QualificationSetV2}
    (hcloses : s.membership.Closes cr p epoch height closed)
    (undo : MembershipPipelineV2.UndoJournal) :
    Backed cr p { s with membership := (s.membership.storeQualification undo epoch closed).1 } := by
  refine ⟨h.registry, h.frozen, fun epoch' closed' hfind => ?_⟩
  have hqualification : (s.membership.storeQualification undo epoch closed).1.qualification epoch' =
      if epoch = epoch' then some closed else s.membership.qualification epoch' := by
    simp [qualification, storeQualification, Std.ExtTreeMap.getElem?_insert]
  rw [hqualification] at hfind
  split_ifs at hfind with hepoch
  · obtain rfl := hepoch
    obtain rfl := Option.some.inj hfind
    obtain ⟨frozen, hfrozen, rfl⟩ := hcloses.nodes
    exact ⟨rfl, hcloses.deadline, ⟨frozen, hfrozen, rfl, qualifiedNodes_sublist ..⟩, _, rfl⟩
  · exact (h.closed epoch' closed' hfind).congr rfl

lemma Evolves.backed (hv : p.timing.valid = true) (h : Evolves cr p contexts height s s')
    (hs : Backed cr p s) (hfrozen : FrozenUpTo p.timing height s) : Backed cr p s' := by
  refine (h.invariant (P := fun s => Backed cr p s ∧ FrozenUpTo p.timing height s) ?_
    ⟨hs, hfrozen⟩).1
  rintro s₁ undo s₂ undo' hstep ⟨hbacked, hupTo⟩
  refine ⟨hbacked.recordStep hv hupTo hstep, ?_⟩
  cases hstep with
  | lifecycle => exact hupTo
  | admission =>
    intro epoch hmem
    rw [storeLease_snapshots] at hmem
    exact hupTo epoch hmem
  | receipt => exact hupTo

end SemanticStateV2

namespace BlockTransitionV2

variable {cr : Crypto} {p : TransitionParametersV2} {call : Call} {core core' : TransitionCoreV2}
  {entry : UndoEntry}

/-- What holds between blocks: the epochs are in order and the state is backed. -/
structure FrozenInvariant (cr : Crypto) (p : TransitionParametersV2) (t : TransitionCoreV2) :
    Prop where
  epochs : EpochInvariant p t
  backed : t.state.Backed cr p.toSemanticParametersV2

lemma frozenInvariant_fresh (hp : p.valid = true) : FrozenInvariant cr p {} := by
  refine ⟨epochInvariant_fresh hp, LifecycleRegistryV2.wellFormed_fresh, fun epoch frozen h => ?_,
    fun epoch closed h => ?_⟩
  · simp [snapshot] at h
  · simp [qualification] at h

lemma FrozenInvariant.step (h : FrozenInvariant cr p core)
    (hstep : stepCore cr p call core = some (core', entry)) : FrozenInvariant cr p core' := by
  refine ⟨h.epochs.step hstep, ?_⟩
  obtain ⟨parsed, summary, w₁, w₂, w₃, hblock, rfl, -⟩ := stepCore_eq_some_iff.mp hstep
  have hp := valid_of_blockPrecheck hblock.precheck
  have hv := timing_valid hp
  -- after the freeze, the anchors of all snapshots are not above the block
  have hupTo : w₁.state.FrozenUpTo p.timing call.2.height := by
    have hfrozen := h.epochs.frozen
    rw [← height_eq_nextHeight hblock.precheck] at hfrozen
    obtain ⟨w₁', hfreeze, -, -, hbelow⟩ := freezePhase_frozen
      (w := ⟨core.state, core.state.checkpoint⟩) cr hp h.epochs.leases hfrozen
    obtain rfl : w₁ = w₁' := congrArg Prod.fst (hblock.freeze.symm.trans hfreeze)
    intro epoch hmem
    have hlt := ((hbelow epoch).mp hmem).2.1
    omega
  have h₁ : w₁.state.Backed cr p.toSemanticParametersV2 := by
    obtain ⟨status, -, hstatus, hphase, -⟩ | ⟨hphase, -⟩ | ⟨epoch, frozen, -, hfreezes, hphase⟩ :=
      freezePhase_cases cr (membershipValid_of_valid hp) call.2
        ⟨core.state, core.state.checkpoint⟩ <;>
      obtain ⟨rfl, heq⟩ := Prod.mk.inj (hblock.freeze.symm.trans hphase)
    · exact absurd heq.symm hstatus
    · exact h.backed
    · exact h.backed.freeze hfreezes _
  have h₂ : w₂.state.Backed cr p.toSemanticParametersV2 := by
    have hevolves := transactionsPhase_evolves cr p call.1 call.2.height
      (call.2.transactions.zip parsed) w₁ {}
    rw [hblock.transactions] at hevolves
    exact hevolves.backed hv h₁ hupTo
  obtain ⟨status, -, hstatus, hphase, -⟩ | ⟨hphase, -⟩ | ⟨epoch, closed, -, -, hcloses, hphase⟩ :=
    closePhase_cases cr (membershipValid_of_valid hp) call.2 w₂ <;>
    obtain ⟨rfl, heq⟩ := Prod.mk.inj (hblock.close.symm.trans hphase)
  · exact absurd heq.symm hstatus
  · exact h₂
  · exact h₂.close hcloses _

/-- **Frozen members stay backed** after every run. -/
theorem Runs.frozenInvariant {rule : List BlockInputV2 → CanonicalContextSourceV2 → Prop}
    {chain : List BlockInputV2} {t : BlockTransitionV2} (hp : p.valid = true)
    (h : Runs cr p rule chain t) : FrozenInvariant cr p t.toTransitionCoreV2 :=
  h.invariant (frozenInvariant_fresh hp) fun hinv hstep => hinv.step hstep

end BlockTransitionV2

end Qwertycoin
