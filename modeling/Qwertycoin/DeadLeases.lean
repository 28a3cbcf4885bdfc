import Qwertycoin.Preview
import Qwertycoin.Producer

/-
# Leases that will not be frozen

A stored lease is frozen if its member is still what the registry has for the identity.  A lease
whose identity has since rotated its key or left is dead: it is kept, but no freeze will take it.
The table of leases never asks the registry again, so a dead lease still counts towards the
population of its epoch and still holds its service key there.
-/

namespace Qwertycoin

open MembershipPipelineV2 LifecycleRegistryV2

/-! ## States in which a record is applied -/

namespace SemanticStateV2

/-- What the registry keeps: histories in order, and one holder for each key of an epoch. -/
structure Registered (cr : Crypto) (net : Scope) (r : LifecycleRegistryV2) : Prop where
  formed : r.WellFormed cr net
  exclusive : r.Exclusive

variable {cr : Crypto} {p : SemanticParametersV2} {contexts : CanonicalContextSourceV2}
  {height : UInt64} {s s' : SemanticStateV2}

lemma Registered.fresh {net : Scope} : Registered cr net {} :=
  ⟨wellFormed_fresh, fun _ _ _ _ _ _ hleft => by simp [descriptorForEpoch, findHistory] at hleft⟩

lemma Evolves.registered (h : Evolves cr p contexts height s s')
    (hs : Registered cr p.net s.lifecycle) : Registered cr p.net s'.lifecycle := by
  refine h.invariant (P := fun s => Registered cr p.net s.lifecycle) (fun hstep hs => ?_) hs
  cases hstep with
  | lifecycle _ haccepts => exact ⟨hs.formed.store haccepts _, hs.exclusive.store haccepts _⟩
  | admission => exact hs
  | receipt => exact hs

end SemanticStateV2

namespace BlockTransitionV2

open SemanticStateV2 (Registered Evolves)

variable {cr : Crypto} {p : TransitionParametersV2} {height epoch cutoff : UInt64}
  {s : SemanticStateV2} {rule : List BlockInputV2 → CanonicalContextSourceV2 → Prop}
  {chain : List BlockInputV2} {t : BlockTransitionV2}

theorem Runs.registered (h : Runs cr p rule chain t) :
    Registered cr p.net t.state.lifecycle := by
  refine h.invariant (P := fun core => Registered cr p.net core.state.lifecycle) .fresh
    fun {call core core' entry} hcore hstep => ?_
  obtain ⟨parsed, summary, w₁, w₂, w₃, hblock, rfl, -⟩ := stepCore_eq_some_iff.mp hstep
  have hevolves := transactionsPhase_evolves cr p call.1 call.2.height
    (call.2.transactions.zip parsed) w₁ {}
  rw [hblock.transactions] at hevolves
  change Registered cr p.net w₃.state.lifecycle
  rw [hblock.close_frame.1]
  exact hevolves.registered (hblock.freeze_frame.1 ▸ hcore)

/-- The states in which a record is applied at a height: a chain that ends below it leads there, or
the freeze of a block at this height on top of such a chain, and then records at the same height. -/
def ReachableAt (cr : Crypto) (p : TransitionParametersV2) (height : UInt64) (s : SemanticStateV2) :
    Prop :=
  ∃ chain t contexts base, Runs cr p (fun _ _ => True) chain t ∧
    (nextHeight p t.toTransitionCoreV2 ≤ height.toNat ∧ base = t.state ∨
      ∃ b w₁, b.height = height ∧ blockPrecheck p t.toTransitionCoreV2 b = .accepted ∧
        freezePhase cr p b ⟨t.state, t.state.checkpoint⟩ = (w₁, .accepted) ∧ base = w₁.state) ∧
    Evolves cr p.toSemanticParametersV2 contexts height base s

/-- In every such state the registry is in order and the leases are, and no epoch is frozen whose
enrollment is open. -/
lemma ReachableAt.spec (hp : p.valid = true) (h : ReachableAt cr p height s)
    (hcutoff : p.timing.enrollmentCutoff epoch = some cutoff) (hopen : height ≤ cutoff) :
    Registered cr p.net s.lifecycle ∧
      s.membership.LeaseInvariant p.toSemanticParametersV2 ∧ epoch ∉ s.membership.snapshots := by
  obtain ⟨chain, t, contexts, base, hruns, hbase, hevolves⟩ := h
  have hinv := hruns.epochInvariant hp
  have hstart := ((EpochTimingV2.enrollmentCutoff_eq_some_iff (timing_valid hp)).mp hcutoff).1
  rw [UInt64.le_iff_toNat_le] at hopen
  have hframe : base.lifecycle = t.state.lifecycle ∧
      base.membership.LeaseInvariant p.toSemanticParametersV2 ∧
      epoch ∉ base.membership.snapshots := by
    obtain ⟨hnext, rfl⟩ | ⟨b, w₁, rfl, hprecheck, hfreeze, rfl⟩ := hbase
    · refine ⟨rfl, hinv.leases, fun hmem => ?_⟩
      have hbelow := ((hinv.frozen epoch).mp hmem).2.1
      omega
    · have hfrozen := hinv.frozen
      rw [← height_eq_nextHeight hprecheck] at hfrozen
      obtain ⟨w₁', hfreeze', hleases, -, hbelow⟩ :=
        freezePhase_frozen (w := ⟨t.state, t.state.checkpoint⟩) cr hp hinv.leases hfrozen
      obtain rfl : w₁ = w₁' := congrArg Prod.fst (hfreeze.symm.trans hfreeze')
      refine ⟨?_, hinv.leases.congr hleases, fun hmem => ?_⟩
      · exact (freezePhase_frame hp hfreeze).1
      · have hbelow := ((hbelow epoch).mp hmem).2.1
        omega
  obtain ⟨hlifecycle, hleases, hsnapshot⟩ := hframe
  obtain ⟨hleases', hsnapshots, -⟩ := hevolves.epochs hleases
  exact ⟨hevolves.registered (hlifecycle ▸ hruns.registered), hleases', hsnapshots ▸ hsnapshot⟩

end BlockTransitionV2

/-! ## What blocks a lease -/

namespace SemanticStateV2

section Blocks

variable (cr : Crypto) (p : ConsensusParametersV2) (s : SemanticStateV2) (epoch cutoff : UInt64)

/-- The members that a freeze would take if it happened now. -/
def frozenNow : List FrozenMemberV2 :=
  eligibleMembers epoch cutoff (s.authorizedMembers cr p.toSemanticParametersV2 epoch)
    s.membership.leases

/-- A lease for the epoch that a freeze would not take. -/
def isDead (stored : StoredLease) : Bool :=
  stored.lease.targetEpoch = epoch &&
    !eligible epoch cutoff (s.authorizedMembers cr p.toSemanticParametersV2 epoch) stored

/-- A lease for an epoch that names a descriptor, with valid work over the block that seeds it. -/
structure Presents (contexts : CanonicalContextSourceV2) (height : UInt64)
    (descriptor : IdentityDescriptorV2) (lease : AdmissionLeaseV2) : Prop where
  target : lease.targetEpoch = epoch
  member : lease.member = descriptor.member cr p.net
  offset_le : p.admissionPolicy.contextEpochOffset ≤ epoch
  work : ∃ contextHeight contextHash,
    p.timing.epochStart (epoch - p.admissionPolicy.contextEpochOffset) = some contextHeight ∧
      contextHeight < height ∧ contexts.blockHash contextHeight = some contextHash ∧
      contextHash ≠ nullHash ∧
      (validateAdmissionLeaseV2 cr lease ⟨p.net, contextHeight, contextHash⟩
        p.admissionPolicy).1 = true

/-- The record that carries a lease. -/
def leaseRecord (lease : AdmissionLeaseV2) : EnvelopeRecordV2 :=
  ⟨RecordTypeV2.admissionLease.code, eposeRecordVersionV2, lease.payload⟩

end Blocks

section Iff

variable {cr : Crypto} {contexts : CanonicalContextSourceV2} {s : SemanticStateV2}
  {height : UInt64} {lease : AdmissionLeaseV2}

lemma applyRecord_leaseRecord {p : SemanticParametersV2}
    {transaction : SemanticTransactionContextV2} {inclusionEpoch minimumEffectiveEpoch : UInt64}
    {w : Work} :
    applyRecord cr p contexts transaction inclusionEpoch minimumEffectiveEpoch w
        (leaseRecord lease) =
      applyAdmissionLease cr p contexts transaction.inclusionHeight w (leaseRecord lease) :=
  rfl

/-- A lease that is newer than the stored ones of its slot is no duplicate. -/
lemma applyAdmission_status_ne_duplicate {p : SemanticParametersV2} {m : MembershipPipelineV2}
    {undo : MembershipPipelineV2.UndoJournal} {context : AdmissionContextV2}
    (hnewer : ∀ stored, m.leases.find? (sameSlot lease) = some stored →
      stored.lease.member.sequence < lease.member.sequence) :
    (m.applyAdmission cr p undo lease context height).status ≠ .idempotentDuplicate := by
  have hprecheck : admissionPrecheck cr p m lease context height ≠ .idempotentDuplicate := by
    unfold admissionPrecheck
    dsimp only
    repeat' split
    all_goals simp
  have hstatus : (m.admissionStatus cr p lease context height).1 ≠ .idempotentDuplicate := by
    unfold admissionStatus
    cases hfind : m.leases.find? (sameSlot lease) with
    | none =>
      dsimp only
      split_ifs <;> first | exact hprecheck | simp
    | some stored =>
      have hlt := hnewer stored hfind
      simp only [ServiceProducerV2.sameLease_eq_false_of_lt hlt, Bool.false_eq_true, if_false]
      split_ifs <;> first | exact hprecheck | simp
  unfold applyAdmission
  dsimp only
  split <;> exact hstatus

/-- A lease that is newer than the stored ones of its slot is accepted exactly when it is stored. -/
lemma applyAdmissionLease_accepted_iff {p : SemanticParametersV2} {w : Work}
    {contextHeight : UInt64} {contextHash : Hash}
    (hheight : admissionContextHeight p height lease = some contextHeight)
    (hbound : leaseBound cr p w.state lease = true)
    (hhash : contexts.blockHash contextHeight = some contextHash) (hne : contextHash ≠ nullHash)
    (hnewer : ∀ stored, w.state.membership.leases.find? (sameSlot lease) = some stored →
      stored.lease.member.sequence < lease.member.sequence) :
    (applyAdmissionLease cr p contexts height w (leaseRecord lease)).2 = .accepted ↔
      w.state.membership.AdmissionAccepts cr p lease ⟨p.net, contextHeight, contextHash⟩
        height := by
  have hdecode : decodeAdmissionLeaseRecordStructureV2 (leaseRecord lease) = .ok lease :=
    decodeAdmissionLeaseRecordStructureV2_eq_ok_iff.mpr rfl
  constructor
  · intro h
    simp only [applyAdmissionLease, hdecode, hheight, hbound, hhash, if_neg hne, Bool.not_true,
      Bool.false_eq_true, if_false] at h
    obtain ⟨_, _, hstatus, happly⟩ | ⟨_, haccepts, -⟩ := w.state.membership.applyAdmission_cases cr p
      w.undo.membership lease ⟨p.net, contextHeight, contextHash⟩ height
    · have hfresh : (w.state.membership.applyAdmission cr p w.undo.membership lease
          ⟨p.net, contextHeight, contextHash⟩ height).status ≠ .idempotentDuplicate :=
        applyAdmission_status_ne_duplicate hnewer
      rw [happly] at h hfresh
      rw [if_neg (not_or.mpr ⟨hstatus, hfresh⟩)] at h
      cases h
    · exact haccepts
  · intro haccepts
    obtain ⟨_, _, happly, -⟩ := applyAdmissionLease_of_accepts hdecode hheight hbound hhash hne
      haccepts
    rw [happly]

variable {p : ConsensusParametersV2} {epoch cutoff : UInt64} {identityId : Hash}
  {descriptor : IdentityDescriptorV2} {transaction : SemanticTransactionContextV2}

/-- The leases of an epoch are those a freeze would take and the dead ones. -/
lemma epochPopulation_eq (cr : Crypto) (p : ConsensusParametersV2) (s : SemanticStateV2)
    (epoch cutoff : UInt64) :
    s.membership.epochPopulation epoch = (s.frozenNow cr p epoch cutoff).length +
      s.membership.leases.countP (s.isDead cr p epoch cutoff) := by
  unfold epochPopulation frozenNow eligibleMembers
  rw [List.length_map, ← List.countP_eq_length_filter]
  induction s.membership.leases with
  | nil => rfl
  | cons stored leases ih =>
    rw [List.countP_cons, List.countP_cons, List.countP_cons, ih]
    cases heligible : eligible epoch cutoff
        (s.authorizedMembers cr p.toSemanticParametersV2 epoch) stored with
    | true =>
      have htarget : stored.lease.targetEpoch = epoch := by
        simp only [eligible, Bool.and_eq_true, decide_eq_true_eq] at heligible
        exact heligible.1.1
      simp [isDead, heligible, htarget]
      omega
    | false =>
      by_cases htarget : stored.lease.targetEpoch = epoch <;> simp [isDead, heligible, htarget]
      omega

lemma Presents.built (h : Presents cr p epoch contexts height descriptor lease)
    (hv : p.timing.valid = true) (hcutoff : p.timing.enrollmentCutoff epoch = some cutoff)
    (hdescriptor : s.lifecycle.descriptorForEpoch identityId epoch = some descriptor) :
    ∃ contextHeight contextHash,
      p.timing.epochStart (epoch - p.admissionPolicy.contextEpochOffset) = some contextHeight ∧
        contextHeight < height ∧ contexts.blockHash contextHeight = some contextHash ∧
        contextHash ≠ nullHash ∧
        ServiceProducerV2.LeaseBuilt cr p contextHash descriptor epoch lease := by
  obtain ⟨contextHeight, contextHash, hstart, habove, hhash, hne, hvalidated⟩ := h.work
  refine ⟨contextHeight, contextHash, hstart, habove, hhash, hne, ?_, h.offset_le, ?_, hne, h.member,
    h.target, contextHeight, hstart, hvalidated⟩
  · rintro rfl
    have hzero := ((EpochTimingV2.enrollmentCutoff_eq_some_iff hv).mp hcutoff).1
    simp at hzero
  · obtain ⟨history, -, -, hselect⟩ := exists_history_of_descriptorForEpoch hdescriptor
    obtain ⟨_, -, -, -, -, hexpiry⟩ := exists_of_selectDescriptor hselect
    exact hexpiry

/-- A lease that a freeze would take holds a key that no other identity has in the epoch. -/
lemma Registered.key_ne (hs : Registered cr p.net s.lifecycle) {stored : StoredLease}
    (heligible : eligible epoch cutoff (s.authorizedMembers cr p.toSemanticParametersV2 epoch)
      stored = true)
    (hdescriptor : s.lifecycle.descriptorForEpoch identityId epoch = some descriptor)
    (hne : stored.lease.member.identityId ≠ identityId) :
    stored.lease.member.servicePublicKey ≠ descriptor.servicePublicKey := by
  simp only [eligible, Bool.and_eq_true, decide_eq_true_eq] at heligible
  obtain ⟨holder, hholder, hmember⟩ :=
    (BlockTransitionV2.find?_authorizedMembers hs.formed).mp heligible.2
  have hkey := hs.exclusive epoch _ _ holder descriptor hne hholder hdescriptor
  rw [← hmember]
  exact hkey

/-- **A newer lease for an open epoch is refused exactly when dead leases are in its way.**  Take a
state in which records are applied at a height by the enrollment cutoff of an epoch, and a lease
that names the descriptor its identity has for the epoch, with valid work and newer than what the
identity has stored.  It is accepted if and only if no dead lease of another identity holds its
service key, and the identity has a lease to replace or the dead leases leave room among those
that would be frozen now. -/
theorem admission_iff_no_dead_lease_blocks (hp : p.valid = true)
    (hs : BlockTransitionV2.ReachableAt cr p.toTransitionParametersV2 transaction.inclusionHeight s)
    (hcutoff : p.timing.enrollmentCutoff epoch = some cutoff)
    (hopen : transaction.inclusionHeight ≤ cutoff)
    (hdescriptor : s.lifecycle.descriptorForEpoch identityId epoch = some descriptor)
    (hlease : Presents cr p epoch contexts transaction.inclusionHeight descriptor lease)
    (hnewer : ∀ stored ∈ s.membership.leases, stored.lease.targetEpoch = epoch →
      stored.lease.member.identityId = identityId →
        stored.lease.member.sequence < descriptor.sequence)
    (blockUndo : Option UndoJournal) :
    (s.applyTransaction cr p.toSemanticParametersV2 contexts blockUndo [leaseRecord lease]
        transaction).status = .accepted ↔
      (∀ stored ∈ s.membership.leases, s.isDead cr p epoch cutoff stored = true →
        stored.lease.member.identityId ≠ identityId →
          stored.lease.member.servicePublicKey ≠ descriptor.servicePublicKey) ∧
      (s.membership.hasAdmission identityId epoch = true ∨
        (s.frozenNow cr p epoch cutoff).length +
          s.membership.leases.countP (s.isDead cr p epoch cutoff) <
            p.committeePolicy.maxActivePopulation) := by
  have hvalid := (ConsensusCoordinatorV2.valid_iff.mp hp).2
  have hv := BlockTransitionV2.timing_valid hvalid
  have hsemantic : p.toSemanticParametersV2.valid = true := by
    simp only [TransitionParametersV2.valid, Bool.and_eq_true] at hvalid
    exact hvalid.2
  obtain ⟨hregistered, -, hsnapshot⟩ := hs.spec hvalid hcutoff hopen
  obtain ⟨rfl, -⟩ := hregistered.formed.descriptorForEpoch hdescriptor
  obtain ⟨contextHeight, contextHash, hstart, habove, hhash, hne, hbuilt⟩ :=
    hlease.built hv hcutoff hdescriptor
  obtain ⟨hheight, hprecheck, hvalidated⟩ :=
    hbuilt.precheck hp hcutoff hopen hstart habove hsnapshot
  have hbound : leaseBound cr p.toSemanticParametersV2 s lease = true := by
    simp only [leaseBound, hlease.member, hlease.target]
    simp [IdentityDescriptorV2.member, hdescriptor]
  have hactive : p.timing.activationHeight ≤ transaction.inclusionHeight := by
    rw [ConsensusCoordinatorV2.activationHeight_eq_zero hp]
    exact UInt64.zero_le
  obtain ⟨⟨inclusionEpoch, minimumEffectiveEpoch⟩, hepochs⟩ :=
    inclusionEpochs_ok hv transaction.inclusionHeight
  have hslot : ∀ stored, sameSlot lease stored = true ↔ stored.lease.targetEpoch = epoch ∧
      stored.lease.member.identityId = descriptor.identityId := by
    intro stored
    simp [sameSlot, hlease.target, hlease.member, IdentityDescriptorV2.member]
  have hnewer' : ∀ stored, s.membership.leases.find? (sameSlot lease) = some stored →
      stored.lease.member.sequence < lease.member.sequence := by
    intro stored hfind
    obtain ⟨htarget, hidentity⟩ := (hslot stored).mp (List.find?_some hfind)
    rw [hlease.member]
    exact hnewer stored (List.mem_of_find?_eq_some hfind) htarget hidentity
  rw [applyTransaction_record hsemantic hactive hepochs blockUndo, applyRecord_leaseRecord,
    applyAdmissionLease_accepted_iff hheight hbound hhash hne hnewer',
    ← epochPopulation_eq cr p s epoch cutoff]
  have hconflict : ∀ stored, keyConflict lease stored = true ↔
      stored.lease.targetEpoch = epoch ∧
        stored.lease.member.identityId ≠ descriptor.identityId ∧
        stored.lease.member.servicePublicKey = descriptor.servicePublicKey := by
    intro stored
    simp [keyConflict, hlease.target, hlease.member, IdentityDescriptorV2.member, and_assoc]
  have hadmission : s.membership.hasAdmission descriptor.identityId epoch = false ↔
      s.membership.leases.find? (sameSlot lease) = none := by
    rw [List.find?_eq_none, hasAdmission, List.any_eq_false]
    simp [hslot]
  constructor
  · intro haccepts
    refine ⟨fun stored hmem hdead hother hkey => ?_, ?_⟩
    · simp only [isDead, Bool.and_eq_true, decide_eq_true_eq] at hdead
      have hfree := haccepts.key_free stored hmem
      rw [(hconflict stored).mpr ⟨hdead.1, hother, hkey⟩] at hfree
      cases hfree
    · cases hstored : s.membership.hasAdmission descriptor.identityId epoch with
      | true => exact Or.inl rfl
      | false => exact Or.inr (hlease.target ▸ haccepts.room (hadmission.mp hstored))
  · rintro ⟨hkeys, hroom⟩
    refine ⟨hprecheck, hvalidated, fun stored hmem => ?_, fun stored hfind => ?_, fun hnone => ?_⟩
    · rw [Bool.eq_false_iff, Ne, hconflict]
      rintro ⟨htarget, hother, hkey⟩
      cases heligible : eligible epoch cutoff
          (s.authorizedMembers cr p.toSemanticParametersV2 epoch) stored with
      | true => exact hregistered.key_ne heligible hdescriptor hother hkey
      | false => exact hkeys stored hmem (by simp [isDead, htarget, heligible]) hother hkey
    · have hlt := hnewer' stored hfind
      exact ⟨ServiceProducerV2.sameLease_eq_false_of_lt hlt, hlt⟩
    · rw [hadmission.mpr hnone] at hroom
      rw [hlease.target]
      exact hroom.resolve_left (by simp)

end Iff

/-! ## A rotated key stays taken -/

section Sample

open Bytes

/-- Epochs of five blocks, of which the last two are closed for the enrollment of the next. -/
def sampleParameters : ConsensusParametersV2 :=
  { ConsensusParametersV2.sample 5 with timing := ⟨0, 5, 1⟩ }

/-- The lease for epoch 2 of a descriptor. -/
def sampleLease (descriptor : IdentityDescriptorV2) : AdmissionLeaseV2 :=
  let lease : AdmissionLeaseV2 :=
    { member := descriptor.member .sample .sample
      targetEpoch := 2, workAlgorithm := 1, leadingZeroBits := 1, admissionContextHeight := 5
      admissionContextHash := Block.ofNat 32 6, nonce := 0, workHash := nullHash
      leaseHash := nullHash }
  { lease with
    leaseHash := calculateAdmissionLeaseHashV2 .sample lease ⟨.sample, 5, Block.ofNat 32 6⟩ }

/-- Operator 1, from epoch 2 on, with the service key of operator 0. -/
def sampleSuccessor : IdentityDescriptorV2 :=
  { IdentityDescriptorV2.sample 1 0 2 9 with servicePublicKey := sampleKey 10 }

/-- The blocks up to height 7: operator 0 registers at height 1, has its lease for epoch 2 stored
at height 6 and leaves at height 7 with effect from epoch 2, where operator 1 takes over its key. -/
def sampleHandover : List BlockInputV2 :=
  [0, 1, 2, 3, 4, 5, 6, 7].map fun height => BlockTransitionV2.sampleInput height
    (if height = 1 then [.sampleRegistration 0 1 9]
    else if height = 6 then [leaseRecord (sampleLease (.sample 0 0 1 9))]
    else if height = 7 then
      [.ofPayload .descriptorLifecycle (LifecycleRecordV2.sample .deregisterIdentity
          (hashIdentityDescriptorV2 .sample .sample (.sample 0 0 1 9)) (.sample 0 1 2 2)).payload,
        .ofPayload .identityDescriptor
          (LifecycleRecordV2.sample .registerIdentity nullHash sampleSuccessor).payload]
    else [])

lemma sampleLease_presented :
    Presents .sample sampleParameters 2 .sample 8 sampleSuccessor (sampleLease sampleSuccessor) :=
  ⟨rfl, rfl, by decide, 5, Block.ofNat 32 6, by decide, by decide, by decide +kernel,
    by decide +kernel, by decide +kernel⟩

lemma exists_sampleHandover :
    ∃ s, BlockTransitionV2.ReachableAt .sample sampleParameters.toTransitionParametersV2 8 s ∧
      s.lifecycle.descriptorForEpoch sampleSuccessor.identityId 2 = some sampleSuccessor ∧
      (∀ stored ∈ s.membership.leases,
        stored.lease.member.identityId ≠ sampleSuccessor.identityId) ∧
      s.frozenNow .sample sampleParameters 2 8 = [] ∧
      (s.applyTransaction .sample sampleParameters.toSemanticParametersV2 .sample none
        [leaseRecord (sampleLease sampleSuccessor)] (ServiceProducerV2.sampleCarrier 8)).status =
          .invalidAdmission := by
  have hfacts : (BlockTransitionV2.replay .sample sampleParameters.toTransitionParametersV2
      (fun _ => .sample) sampleHandover).map (fun t =>
        (BlockTransitionV2.nextHeight sampleParameters.toTransitionParametersV2
          t.toTransitionCoreV2,
        t.state.lifecycle.descriptorForEpoch sampleSuccessor.identityId 2,
        t.state.membership.leases.all fun stored =>
          stored.lease.member.identityId ≠ sampleSuccessor.identityId,
        t.state.frozenNow .sample sampleParameters 2 8,
        (t.state.applyTransaction .sample sampleParameters.toSemanticParametersV2 .sample none
          [leaseRecord (sampleLease sampleSuccessor)]
          (ServiceProducerV2.sampleCarrier 8)).status)) =
      some (8, some sampleSuccessor, true, [], .invalidAdmission) := by
    decide +kernel
  obtain ⟨t, ht, hfacts⟩ := Option.map_eq_some_iff.mp hfacts
  simp only [Prod.mk.injEq] at hfacts
  obtain ⟨hnext, hdescriptor, hleases, hfrozen, hstatus⟩ := hfacts
  refine ⟨t.state, ⟨_, t, .sample, t.state, BlockTransitionV2.runs_of_replay (fun _ => trivial) ht,
    Or.inl ⟨hnext.le, rfl⟩, .refl⟩, hdescriptor, ?_, hfrozen, hstatus⟩
  simpa using hleases

/-- The key of an operator that has left is refused to its successor, although nobody would be
frozen with it and the epoch is empty. -/
theorem dead_lease_blocks_admission :
    ∃ s, BlockTransitionV2.ReachableAt .sample sampleParameters.toTransitionParametersV2 8 s ∧
      sampleParameters.timing.enrollmentCutoff 2 = some 8 ∧
      s.lifecycle.descriptorForEpoch sampleSuccessor.identityId 2 = some sampleSuccessor ∧
      Presents .sample sampleParameters 2 .sample 8 sampleSuccessor
        (sampleLease sampleSuccessor) ∧
      (∀ stored ∈ s.membership.leases, stored.lease.targetEpoch = 2 →
        stored.lease.member.identityId = sampleSuccessor.identityId →
          stored.lease.member.sequence < sampleSuccessor.sequence) ∧
      (s.frozenNow .sample sampleParameters 2 8).length <
        sampleParameters.committeePolicy.maxActivePopulation ∧
      (s.applyTransaction .sample sampleParameters.toSemanticParametersV2 .sample none
        [leaseRecord (sampleLease sampleSuccessor)] (ServiceProducerV2.sampleCarrier 8)).status ≠
          .accepted := by
  obtain ⟨s, hs, hdescriptor, hleases, hfrozen, hstatus⟩ := exists_sampleHandover
  refine ⟨s, hs, by decide, hdescriptor, sampleLease_presented,
    fun stored hmem _ hidentity => absurd hidentity (hleases stored hmem), ?_, ?_⟩
  · rw [hfrozen]
    decide
  · rw [hstatus]
    simp

theorem admission_iff_no_dead_lease_blocks_sample :
    ∃ s, BlockTransitionV2.ReachableAt .sample sampleParameters.toTransitionParametersV2 8 s ∧
      ¬((∀ stored ∈ s.membership.leases, s.isDead .sample sampleParameters 2 8 stored = true →
          stored.lease.member.identityId ≠ sampleSuccessor.identityId →
            stored.lease.member.servicePublicKey ≠ sampleSuccessor.servicePublicKey) ∧
        (s.membership.hasAdmission sampleSuccessor.identityId 2 = true ∨
          (s.frozenNow .sample sampleParameters 2 8).length +
            s.membership.leases.countP (s.isDead .sample sampleParameters 2 8) <
              sampleParameters.committeePolicy.maxActivePopulation)) := by
  obtain ⟨s, hs, hdescriptor, hleases, hfrozen, hstatus⟩ := exists_sampleHandover
  refine ⟨s, hs, fun hfree => ?_⟩
  have hs' : BlockTransitionV2.ReachableAt .sample sampleParameters.toTransitionParametersV2
    (ServiceProducerV2.sampleCarrier 8).inclusionHeight s := hs
  have haccepted := (admission_iff_no_dead_lease_blocks (by decide +kernel) hs' (by decide)
    (UInt64.le_refl 8) hdescriptor sampleLease_presented
    (fun stored hmem _ hidentity => absurd hidentity (hleases stored hmem)) none).mpr hfree
  rw [hstatus] at haccepted
  cases haccepted

end Sample

end SemanticStateV2

end Qwertycoin
