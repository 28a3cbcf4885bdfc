import Qwertycoin.Lib.Rotation
import Qwertycoin.Frozen
import Qwertycoin.Chain

/-
# Planning a payout

When the next block is due, the coordinator must be able to say what its Coinbase has to pay, or
no block could follow.  From the first payout height on it looks the payee up through four
components: the qualified set of the epoch before, the rotation over it, the snapshot it was
settled from, and the lifecycle registry.  The invariants of the state say that each of these
lookups succeeds; only the end of the payout epoch can be out of the range of 64-bit heights.
-/

namespace Qwertycoin

/-! ## Selecting the payee -/

section Selection

variable {cr : Crypto}

lemma distinctValidKeys_iff {keys seen : List PublicKey} :
    distinctValidKeys cr keys seen = true ↔
      (∀ key ∈ keys, cr.validKey key = true ∧ key ∉ seen) ∧ keys.Nodup := by
  induction keys generalizing seen with
  | nil => simp [distinctValidKeys]
  | cons key keys ih =>
    simp only [distinctValidKeys]
    split_ifs with hbad
    · simp only [Bool.or_eq_true, Bool.not_eq_true', List.contains_eq_mem, decide_eq_true_eq]
        at hbad
      simp only [false_iff, List.mem_cons, forall_eq_or_imp]
      rintro ⟨⟨⟨hkey, hseen⟩, -⟩, -⟩
      rcases hbad with hbad | hbad
      · simp [hkey] at hbad
      · exact hseen hbad
    · simp only [Bool.or_eq_true, Bool.not_eq_true', List.contains_eq_mem, decide_eq_true_eq,
        not_or, Bool.not_eq_false] at hbad
      rw [ih]
      simp only [List.mem_append, not_or, List.mem_cons, List.not_mem_nil, or_false,
        forall_eq_or_imp, List.nodup_cons, hbad.1, hbad.2, not_false_eq_true, true_and]
      constructor
      · rintro ⟨hkeys, hnodup⟩
        exact ⟨fun other hmem => ⟨(hkeys other hmem).1, (hkeys other hmem).2.1⟩,
          fun hmem => (hkeys key hmem).2.2 rfl, hnodup⟩
      · rintro ⟨hkeys, hnew, hnodup⟩
        refine ⟨fun other hmem => ⟨(hkeys other hmem).1, (hkeys other hmem).2, ?_⟩, hnodup⟩
        rintro rfl
        exact hnew hmem

/-- The qualified nodes in the order they are paid in. -/
def rankedNodes (cr : Crypto) (qualification : QualificationSetV2)
    (payoutSeed genesisHash parameterSetHash : Hash) (payoutEpoch : UInt64) : List PublicKey :=
  ((qualification.qualifiedNodes.map fun key =>
    (payoutScore cr qualification payoutSeed genesisHash parameterSetHash payoutEpoch key,
      key)).insertionSort fun left right => rankedLess right left = false).map Prod.snd

/-- What the rotation has checked of a qualified set before it selects, for a payout epoch with its
first and last height. -/
structure PaysIn (cr : Crypto) (qualification : QualificationSetV2)
    (payoutSeed genesisHash parameterSetHash : Hash) (timing : EpochTimingV2)
    (payoutEpoch start finish : UInt64) : Prop where
  timing_valid : timing.valid = true
  epoch : checkedAdd qualification.epoch 1 = some payoutEpoch
  starts : timing.epochStart payoutEpoch = some start
  ends : timing.epochEnd payoutEpoch = some finish
  seed : payoutSeed ≠ nullHash
  genesis : genesisHash ≠ nullHash
  parameters : parameterSetHash ≠ nullHash
  snapshot : qualification.snapshotHash ≠ nullHash
  hash : qualification.qualificationHash ≠ nullHash
  closed : qualification.closedHeight ≠ 0
  valid : ∀ key ∈ qualification.qualifiedNodes, cr.validKey key = true
  nodup : qualification.qualifiedNodes.Nodup

section Payee

variable {qualification : QualificationSetV2} {payoutSeed genesisHash parameterSetHash : Hash}
  {timing : EpochTimingV2} {payoutEpoch height start finish : UInt64} {payee : PublicKey}

lemma rankedNodes_perm : (rankedNodes cr qualification payoutSeed genesisHash parameterSetHash
    payoutEpoch).Perm qualification.qualifiedNodes := by
  refine ((List.perm_insertionSort _ _).map _).trans ?_
  rw [List.map_map]
  exact List.Perm.of_eq (List.map_id _)

lemma keyAt_eq_ok_iff {nodes : List (Hash × PublicKey)} {i : ℕ} :
    (match nodes[i]? with
      | some (_, key) => .ok key
      | none => .error .invalidContext : Except RewardStatusV2 PublicKey) = .ok payee ↔
      (nodes.map Prod.snd)[i]? = some payee := by
  rw [List.getElem?_map]
  cases nodes[i]? <;> simp

/-- The rotation selects whoever has the turn of the height, inside the payout epoch. -/
lemma selectServicePayeeV2_eq_ok_iff :
    selectServicePayeeV2 cr qualification payoutSeed genesisHash parameterSetHash timing
        payoutEpoch height = .ok payee ↔
      ∃ start finish, PaysIn cr qualification payoutSeed genesisHash parameterSetHash timing
        payoutEpoch start finish ∧ start ≤ height ∧ height ≤ finish ∧
        Rotation.turn (rankedNodes cr qualification payoutSeed genesisHash parameterSetHash
          payoutEpoch) (height - start).toNat = some payee := by
  have hkeys : distinctValidKeys cr qualification.qualifiedNodes [] = true ↔
      (∀ key ∈ qualification.qualifiedNodes, cr.validKey key = true) ∧
        qualification.qualifiedNodes.Nodup := by
    rw [distinctValidKeys_iff]
    simp
  unfold selectServicePayeeV2
  constructor
  · intro h
    split at h
    · cases h
    split at h
    swap
    · cases h
    rename_i expected start finish hepoch hstart hfinish
    split at h
    · cases h
    rename_i hcontext
    split at h
    · cases h
    rename_i hheight
    split at h
    · cases h
    rename_i hdistinct
    simp only [not_or, not_not] at hcontext
    obtain ⟨rfl, hv, hseed, hgenesis, hparameters, hsnapshot, hhash, hclosed⟩ := hcontext
    obtain ⟨hvalid, hnodup⟩ := hkeys.mp (by simpa using hdistinct)
    simp only [not_or, UInt64.not_lt] at hheight
    refine ⟨start, finish, ⟨by simpa using hv, hepoch, hstart, hfinish, hseed, hgenesis,
      hparameters, hsnapshot, hhash, hclosed, hvalid, hnodup⟩, hheight.1, hheight.2, ?_⟩
    rw [Rotation.turn, rankedNodes, List.length_map]
    exact keyAt_eq_ok_iff.mp h
  · rintro ⟨start, finish, h, hfirst, hlast, hturn⟩
    have hnodes := List.ne_nil_of_mem (rankedNodes_perm.mem_iff.mp (Rotation.mem_of_turn hturn))
    rw [if_neg hnodes, h.epoch, h.starts, h.ends]
    dsimp only
    rw [if_neg (by simp [h.timing_valid, h.seed, h.genesis, h.parameters, h.snapshot, h.hash, h.closed]),
      if_neg (by rw [not_or, UInt64.not_lt, UInt64.not_lt]; exact ⟨hfirst, hlast⟩),
      if_neg (by simp [hkeys.mpr ⟨h.valid, h.nodup⟩])]
    rw [Rotation.turn, rankedNodes, List.length_map] at hturn
    exact keyAt_eq_ok_iff.mpr hturn

/-- The rotation finds a qualified node at every height of the payout epoch. -/
lemma selectServicePayeeV2_ok
    (h : PaysIn cr qualification payoutSeed genesisHash parameterSetHash timing payoutEpoch start
      finish) (hnodes : qualification.qualifiedNodes ≠ [])
    (hheight : start ≤ height ∧ height ≤ finish) :
    ∃ payee ∈ qualification.qualifiedNodes,
      selectServicePayeeV2 cr qualification payoutSeed genesisHash parameterSetHash timing
        payoutEpoch height = .ok payee := by
  have hperm : (rankedNodes cr qualification payoutSeed genesisHash parameterSetHash
    payoutEpoch).Perm qualification.qualifiedNodes := rankedNodes_perm
  have hranked : rankedNodes cr qualification payoutSeed genesisHash parameterSetHash payoutEpoch ≠
      [] := by
    rintro hnil
    rw [hnil] at hperm
    exact hnodes hperm.nil_eq.symm
  obtain ⟨payee, hturn⟩ := Rotation.exists_turn hranked (height - start).toNat
  exact ⟨payee, hperm.mem_iff.mp (Rotation.mem_of_turn hturn),
    selectServicePayeeV2_eq_ok_iff.mpr ⟨start, finish, h, hheight.1, hheight.2, hturn⟩⟩

end Payee

/-- Unless the policy is missing, a subsidy is divided into shares that it covers. -/
lemma splitSubsidy_ok {scheduledSubsidy share : UInt64} (hasQualifiedPayee : Bool)
    {emptyPolicy : EmptyQualificationPolicyV2} (hshare : share.toNat ≤ scheduledSubsidy.toNat)
    (hpolicy : emptyPolicy ≠ .unset) :
    ∃ split, splitSubsidy scheduledSubsidy share hasQualifiedPayee emptyPolicy = .ok split ∧
      split.minerSubsidy.toNat + split.serviceReward.toNat ≤ scheduledSubsidy.toNat := by
  have hrest := UInt64.toNat_sub_of_le _ _ (UInt64.le_iff_toNat_le.mpr hshare)
  cases hasQualifiedPayee with
  | true => exact ⟨_, rfl, by dsimp only; omega⟩
  | false =>
    cases emptyPolicy with
    | unset => exact absurd rfl hpolicy
    | minerFallback => exact ⟨_, rfl, by simp⟩
    | permanentNonissuance =>
      refine ⟨_, rfl, ?_⟩
      dsimp only
      rw [UInt64.toNat_zero]
      omega

/-- An allocation fails only on an amount that does not fit, or without a policy. -/
lemma calculateRewardAllocationV2_ok {scheduledSubsidy transactionFees : UInt64}
    (hasQualifiedPayee : Bool) {emptyPolicy : EmptyQualificationPolicyV2}
    (hfits : scheduledSubsidy.toNat + transactionFees.toNat < 2 ^ 64)
    (hpolicy : emptyPolicy ≠ .unset) :
    ∃ allocation, calculateRewardAllocationV2 scheduledSubsidy transactionFees hasQualifiedPayee
      emptyPolicy eposeServiceRewardBpsV2 = .ok allocation := by
  obtain ⟨split, hsplit, hle⟩ :=
    splitSubsidy_ok hasQualifiedPayee
      (toNat_basisPoints_le scheduledSubsidy (show eposeServiceRewardBpsV2 ≤ 10000 by decide))
      hpolicy
  have hissued := toNat_ofNat_of_fits
    (show split.minerSubsidy.toNat + split.serviceReward.toNat < 2 ^ 64 by omega)
  have htotal := toNat_ofNat_of_fits (show split.minerSubsidy.toNat + split.serviceReward.toNat +
    transactionFees.toNat < 2 ^ 64 by omega)
  rw [← hissued] at htotal
  have h₁ := checkedAdd_eq_some_iff.mpr hissued.symm
  have h₂ := checkedAdd_eq_some_iff.mpr htotal.symm
  unfold calculateRewardAllocationV2
  rw [if_neg (by decide)]
  exact ⟨_, except_bind_eq_ok_iff.mpr ⟨split, hsplit, except_bind_eq_ok_iff.mpr
    ⟨_, okOr_eq_ok_iff.mpr h₁, except_bind_eq_ok_iff.mpr ⟨_, okOr_eq_ok_iff.mpr h₂, rfl⟩⟩⟩⟩

end Selection

/-! ## Blocks without records -/

namespace BlockTransitionV2

variable {p : TransitionParametersV2} {core : TransitionCoreV2}

/-- A block with a Coinbase that carries no record goes through all phases unchanged, unless it is
an epoch boundary. -/
lemma blockAccepted_idle (cr : Crypto) (contexts : CanonicalContextSourceV2) {b : BlockInputV2} {coinbase : Transaction}
    (hb : b.transactions = [⟨some coinbase, true, none, none⟩]) (hextra : coinbase.extra = [])
    (hpre : blockPrecheck p core b = .accepted) (hfreeze : freezeEpoch p b.height = none)
    (hclose : closeEpoch p b.height = none)
    (hactive : isQwcEposeV2Hardfork b.majorVersion = true)
    (hheight : p.timing.activationHeight ≤ b.height) :
    let w : Work := ⟨core.state, core.state.checkpoint⟩
    BlockAccepted cr p contexts core b [[]] ⟨1, {}, {}⟩ w w w := by
  have hp := valid_of_blockPrecheck hpre
  simp only [TransitionParametersV2.valid, BlockTransitionLimitsV2.valid, Bool.and_eq_true,
    decide_eq_true_eq] at hp
  obtain ⟨⟨hv, ⟨⟨hmax, -⟩, henvelope⟩, hblock⟩, hsemantic⟩ := hp
  have hparse : (p.extraLimits b.majorVersion).parse [] = .ok ([], {}) :=
    parseTransactionExtraV2_nil hactive henvelope hmax
  have hfreezePhase : freezePhase cr p b ⟨core.state, core.state.checkpoint⟩ =
      (⟨core.state, core.state.checkpoint⟩, .accepted) := by
    rw [freezePhase, hfreeze]
  have hclosePhase : closePhase cr p b ⟨core.state, core.state.checkpoint⟩ =
      (⟨core.state, core.state.checkpoint⟩, .accepted) := by
    rw [closePhase, hclose]
  refine ⟨hpre, ?_, hfreezePhase, ?_, Nat.le_refl _, Nat.le_refl _, hclosePhase, by simp [hb]⟩
  · rw [hb]
    simp [structuralPass, hextra, hparse, chargeBlockBudgetV2_zero hblock]
  · rw [hb]
    have happly := @SemanticStateV2.applyTransaction_nil _ ⟨b.height, true, none, none⟩ cr
      contexts hsemantic core.state (some core.state.checkpoint) hheight
    simp only [List.zip_cons_cons, List.zip_nil_left, transactionsPhase, happly]
    rfl

end BlockTransitionV2

/-! ## Planning -/

namespace ConsensusCoordinatorV2

variable {cr : Crypto} {p : ConsensusParametersV2} {contexts : CanonicalContextSourceV2}
  {chain : List CoordinatorBlockV2} {t : BlockTransitionV2} {s : SemanticStateV2}

lemma valid_iff : p.valid = true ↔ p.parametersValid = true ∧
    p.toTransitionParametersV2.valid = true := by
  rw [ConsensusParametersV2.valid, Bool.and_eq_true]

lemma activationHeight_eq_zero (hp : p.valid = true) : p.timing.activationHeight = 0 := by
  have h := (valid_iff.mp hp).1
  simp only [ConsensusParametersV2.parametersValid, Bool.and_eq_true, decide_eq_true_eq] at h
  exact h.1.1.1.1.1.1.2

lemma emptyPolicy_ne_unset (hp : p.valid = true) : p.emptyPolicy ≠ .unset := by
  have h := (valid_iff.mp hp).1
  simp only [ConsensusParametersV2.parametersValid, Bool.and_eq_true, Bool.or_eq_true,
    decide_eq_true_eq] at h
  rcases h.1.1.2 with h | h <;> simp [h]

lemma serviceRewardBps_eq (hp : p.valid = true) : p.serviceRewardBps = eposeServiceRewardBpsV2 := by
  have h := (valid_iff.mp hp).1
  simp only [ConsensusParametersV2.parametersValid, Bool.and_eq_true, decide_eq_true_eq] at h
  exact h.1.2

lemma net_hashes (hp : p.valid = true) :
    p.net.genesisHash ≠ nullHash ∧ p.net.parameterSetHash ≠ nullHash := by
  have h := BlockTransitionV2.membershipValid_of_valid (valid_iff.mp hp).2
  simp only [SemanticParametersV2.membershipValid, Bool.and_eq_true, decide_eq_true_eq] at h
  exact ⟨h.1.2, h.2⟩

/-- The payee of a payout block, found in the snapshot of the source epoch, with the descriptor
that the registry still has for it. -/
structure BacksPayee (cr : Crypto) (net : Scope) (s : SemanticStateV2) (sourceEpoch : UInt64)
    (payee : PublicKey) (address : AccountPublicAddress) (frozen : MembershipSnapshotV2)
    (member : FrozenMemberV2) (descriptor : IdentityDescriptorV2) : Prop where
  snapshot : s.membership.snapshot sourceEpoch = some frozen
  member_mem : member ∈ frozen.members
  payee_eq : member.servicePublicKey = payee
  current : s.lifecycle.descriptorForEpoch member.identityId sourceEpoch = some descriptor
  frozen_eq : descriptor.member cr net = member
  address_eq : descriptor.rewardAddress = address

lemma servicePayee_ok (hp : p.valid = true) (hhash : ∀ bytes, cr.cnFastHash bytes ≠ nullHash)
    (hbacked : s.Backed cr p.toSemanticParametersV2) {qualification : QualificationSetV2}
    {payoutEpoch sourceEpoch height anchor start finish : UInt64} {seed : Hash}
    (hqualification : s.membership.qualification sourceEpoch = some qualification)
    (hnodes : qualification.qualifiedNodes ≠ [])
    (hsource : checkedAdd sourceEpoch 1 = some payoutEpoch) (hpositive : sourceEpoch ≠ 0)
    (hanchor : p.timing.committeeAnchor payoutEpoch = some anchor)
    (hseed : contexts.blockHash anchor = some seed) (hseed' : seed ≠ nullHash)
    (hstart : p.timing.epochStart payoutEpoch = some start)
    (hend : p.timing.epochEnd payoutEpoch = some finish)
    (hheight : start ≤ height ∧ height ≤ finish) :
    ∃ payee address frozen member descriptor,
      servicePayee cr p contexts s qualification payoutEpoch sourceEpoch height =
        .ok (payee, address) ∧
      BacksPayee cr p.net s sourceEpoch payee address frozen member descriptor := by
  have hv := BlockTransitionV2.timing_valid (valid_iff.mp hp).2
  obtain ⟨hepoch, hdeadline, ⟨frozen, hfrozen, hsnapshotHash, hsublist⟩, bytes, hbytes⟩ :=
    hbacked.closed sourceEpoch qualification hqualification
  have hsnapshot := hbacked.frozen sourceEpoch frozen hfrozen
  -- the qualified keys are the keys of distinct members with well-formed descriptors
  have hvalid : ∀ key ∈ qualification.qualifiedNodes, cr.validKey key = true := by
    intro key hkey
    obtain ⟨member, hmember, rfl⟩ := List.mem_map.mp (hsublist.mem hkey)
    obtain ⟨descriptor, hdescriptor, rfl⟩ := hsnapshot.members member hmember
    have hshape := (hbacked.registry.descriptorForEpoch hdescriptor).2
    simp only [descriptorShapeValid, Bool.and_eq_true] at hshape
    exact hshape.1.1.1.1.1.2
  have hnodup : qualification.qualifiedNodes.Nodup := by
    refine hsublist.nodup ?_
    rw [List.Nodup, List.pairwise_map]
    exact hsnapshot.distinct.imp fun h => h.2
  have hclosed : qualification.closedHeight ≠ 0 := by
    obtain ⟨hdeadline, -⟩ := (EpochTimingV2.evidenceDeadline_eq_some_iff hv).mp hdeadline
    have hdepth := (EpochTimingV2.valid_iff.mp hv).2.1
    have hpos : 0 < sourceEpoch.toNat := Nat.pos_of_ne_zero fun h => hpositive (UInt64.toNat_inj.mp h)
    have hmul : 2 * p.timing.len ≤ (sourceEpoch.toNat + 1) * p.timing.len :=
      Nat.mul_le_mul_right _ (by omega)
    intro hzero
    rw [hzero, UInt64.toNat_zero] at hdeadline
    omega
  have hsnapshotNull : qualification.snapshotHash ≠ nullHash := by
    obtain ⟨bytes, hbytes⟩ := hsnapshot.hashed
    rw [hsnapshotHash, hbytes]
    exact hhash _
  obtain ⟨payee, hpayee, hselect⟩ := selectServicePayeeV2_ok ⟨hv, hepoch ▸ hsource, hstart, hend,
    hseed', (net_hashes hp).1, (net_hashes hp).2, hsnapshotNull, hbytes ▸ hhash _, hclosed, hvalid,
    hnodup⟩ hnodes hheight
  obtain ⟨member, hfind⟩ : ∃ member, frozen.members.find? (fun candidate =>
      candidate.servicePublicKey = payee) = some member := by
    obtain ⟨member, hmember, rfl⟩ := List.mem_map.mp (hsublist.mem hpayee)
    exact Option.isSome_iff_exists.mp (List.find?_isSome.mpr ⟨member, hmember, by simp⟩)
  have hmember := List.mem_of_find?_eq_some hfind
  have hkey : member.servicePublicKey = payee := by simpa using List.find?_some hfind
  obtain ⟨descriptor, hdescriptor, heq⟩ := hsnapshot.members member hmember
  refine ⟨payee, descriptor.rewardAddress, frozen, member, descriptor, ?_,
    hfrozen, hmember, hkey, hdescriptor, heq, rfl⟩
  have hmatches : descriptorMatches cr p descriptor payee member = true := by
    subst hkey
    subst heq
    simp [descriptorMatches, IdentityDescriptorV2.member]
  unfold servicePayee
  rw [hanchor, Option.bind_some, hseed]
  dsimp only
  rw [if_neg hseed', hselect]
  dsimp only
  rw [hfrozen]
  dsimp only
  rw [hfind]
  dsimp only
  rw [hdescriptor]
  dsimp only
  rw [if_neg (by simp [hmatches])]

lemma exists_firstPayoutHeight {height : UInt64} {parentHash : Hash}
    {scheduledSubsidy transactionFees : UInt64} {plan : CoordinatorRewardPlanV2}
    (h : planReward cr p contexts s height parentHash scheduledSubsidy transactionFees = .ok plan) :
    ∃ firstPayoutHeight, p.timing.firstPayoutHeight = some firstPayoutHeight := by
  unfold planReward at h
  split at h
  · cases h
  cases hfirst : p.timing.firstPayoutHeight with
  | none => simp [hfirst] at h
  | some firstPayoutHeight => exact ⟨firstPayoutHeight, rfl⟩

/-- A coordinator with a tip has planned a block, so its first payout height is representable. -/
lemma Runs.exists_firstPayoutHeight (h : Runs cr p chain t) (htip : t.haveTip = true) :
    ∃ firstPayoutHeight, p.timing.firstPayoutHeight = some firstPayoutHeight := by
  induction h with
  | fresh => cases htip
  | connect _ hok _ =>
    obtain ⟨coinbase, plan, validated, signatures, hprepare, -, -⟩ :=
      ConsensusCoordinatorV2.connectBlock_ok hok
    exact ConsensusCoordinatorV2.exists_firstPayoutHeight (preparePayment_ok hprepare).2.2.1
  | @disconnect chain t height _ hacc ih =>
    refine ih ?_
    unfold disconnectTip BlockTransitionV2.disconnectTip at hacc
    by_contra hnone
    simp only [Bool.not_eq_true] at hnone
    simp only [hnone, Bool.not_false, Bool.true_or, if_true] at hacc
    split_ifs at hacc

lemma planReward_before (cr : Crypto) (contexts : CanonicalContextSourceV2) (s : SemanticStateV2)
    (hp : p.valid = true) {height firstPayoutHeight : UInt64}
    (hfirst : p.timing.firstPayoutHeight = some firstPayoutHeight)
    (hheight : height < firstPayoutHeight) (parentHash : Hash)
    {scheduledSubsidy transactionFees : UInt64}
    (hfits : scheduledSubsidy.toNat + transactionFees.toNat < 2 ^ 64) :
    ∃ allocation, planReward cr p contexts s height parentHash scheduledSubsidy transactionFees =
        .ok ⟨allocation, none⟩ ∧
      allocation.coinbaseTotal.toNat = scheduledSubsidy.toNat + transactionFees.toNat := by
  have htoNat := toNat_ofNat_of_fits hfits
  have htotal := checkedAdd_eq_some_iff.mpr htoNat.symm
  unfold planReward
  rw [if_neg (by simp [hp]), hfirst]
  dsimp only
  rw [if_pos hheight, htotal]
  exact ⟨_, rfl, htoNat⟩

/-- From the first payout on, the qualified set of the epoch before decides. -/
lemma planReward_after (hp : p.valid = true) {height firstPayoutHeight : UInt64}
    (hfirst : p.timing.firstPayoutHeight = some firstPayoutHeight)
    (hheight : firstPayoutHeight ≤ height) {parentHash : Hash} (hparent : parentHash ≠ nullHash)
    {scheduledSubsidy transactionFees : UInt64}
    (hfits : scheduledSubsidy.toNat + transactionFees.toNat < 2 ^ 64)
    {payoutEpoch : UInt64} (hepoch : height / p.timing.epochLength = payoutEpoch)
    (hpositive : payoutEpoch ≠ 0) {qualification : QualificationSetV2}
    (hqualification : s.membership.qualification (payoutEpoch - 1) = some qualification)
    {payee : Option (PublicKey × AccountPublicAddress)}
    (hpayee : duePayee cr p contexts s qualification payoutEpoch (payoutEpoch - 1) height =
      .ok payee) :
    ∃ allocation, planReward cr p contexts s height parentHash scheduledSubsidy transactionFees =
      .ok ⟨allocation, payee.map fun payee =>
        { net := p.net, height, parentHash, payoutEpoch
          qualificationHash := qualification.qualificationHash
          payeeServicePublicKey := payee.1, rewardAddress := payee.2
          serviceReward := allocation.serviceReward }⟩ := by
  have hactivation := activationHeight_eq_zero hp
  obtain ⟨allocation, hallocation⟩ := calculateRewardAllocationV2_ok payee.isSome hfits
    (emptyPolicy_ne_unset hp)
  refine ⟨allocation, ?_⟩
  subst hepoch
  unfold planReward
  rw [if_neg (by simp [hp]), hfirst]
  dsimp only
  rw [if_neg (UInt64.not_lt.mpr hheight), if_neg (by simp [hactivation, hparent]), hactivation,
    UInt64.sub_zero, if_neg hpositive, hqualification]
  dsimp only
  refine except_bind_eq_ok_iff.mpr ⟨payee, hpayee, ?_⟩
  rw [serviceRewardBps_eq hp, hallocation]

lemma payoutEpoch_spec (hp : p.valid = true) {height firstPayoutHeight : UInt64}
    (hfirst : p.timing.firstPayoutHeight = some firstPayoutHeight)
    (hheight : firstPayoutHeight ≤ height) :
    let payoutEpoch := height / p.timing.epochLength
    (payoutEpoch - 1).toNat + 1 = payoutEpoch.toNat ∧ 1 < payoutEpoch.toNat ∧
      payoutEpoch.toNat * p.timing.len ≤ height.toNat ∧
      height.toNat < (payoutEpoch.toNat + 1) * p.timing.len := by
  have hv := BlockTransitionV2.timing_valid (valid_iff.mp hp).2
  have hlen := EpochTimingV2.len_gt_one hv
  have hstart := (EpochTimingV2.firstPayoutHeight_eq_some_iff hv).mp hfirst
  have hservice : p.timing.firstService = 1 := by
    simp [EpochTimingV2.firstService, activationHeight_eq_zero hp]
  have hquot : (height / p.timing.epochLength).toNat = height.toNat / p.timing.len :=
    UInt64.toNat_div ..
  have hle := UInt64.le_iff_toNat_le.mp hheight
  have htwo : 2 ≤ height.toNat / p.timing.len := by
    rw [Nat.le_div_iff_mul_le (by omega)]
    rw [hservice] at hstart
    omega
  have hlow := Nat.div_mul_le_self height.toNat p.timing.len
  have hhigh := Nat.lt_mul_of_div_lt (Nat.lt_succ_self (height.toNat / p.timing.len))
    (show 0 < p.timing.len by omega)
  intro payoutEpoch
  simp only [payoutEpoch]
  rw [UInt64.toNat_sub_of_le _ _ (UInt64.le_iff_toNat_le.mpr (by
    rw [hquot, UInt64.toNat_one]; omega)), hquot, UInt64.toNat_one]
  exact ⟨by omega, by omega, hlow, hhigh⟩

/-- **A payout block can always be planned**, as long as the end of the payout epoch is a 64-bit
height.  After any run of the coordinator that left a tip, the next block has a plan, for every
parent and all amounts whose sum fits, if the context source knows the blocks up to the tip.
Its payee is a member of the snapshot of the epoch before, paid at the address of the descriptor
that was frozen.  Whatever records were accepted after a freeze, the registry still has for every
frozen member the descriptor with its sequence, its hash and its reward binding. -/
theorem payout_can_be_planned (hp : p.valid = true)
    (hhash : ∀ bytes, cr.cnFastHash bytes ≠ nullHash) (hrun : Runs cr p chain t)
    (htip : t.haveTip = true)
    (hcontexts : ∀ height ≤ t.tipHeight, ∃ hash, contexts.blockHash height = some hash ∧
      hash ≠ nullHash)
    {parentHash : Hash} (hparent : parentHash ≠ nullHash)
    {scheduledSubsidy transactionFees : UInt64}
    (hfits : scheduledSubsidy.toNat + transactionFees.toNat < 2 ^ 64)
    (hend : (p.timing.epochEnd ((t.tipHeight + 1) / p.timing.epochLength)).isSome = true) :
    (∃ plan, planReward cr p contexts t.state (t.tipHeight + 1) parentHash scheduledSubsidy
        transactionFees = .ok plan ∧
      ∀ expected, plan.expectation = some expected → ∃ frozen member descriptor,
        BacksPayee cr p.net t.state (expected.payoutEpoch - 1) expected.payeeServicePublicKey
          expected.rewardAddress frozen member descriptor) ∧
    ∀ epoch frozen, t.state.membership.snapshot epoch = some frozen →
      ∀ member ∈ frozen.members, ∃ descriptor,
        t.state.lifecycle.descriptorForEpoch member.identityId epoch = some descriptor ∧
        descriptor.sequence = member.sequence ∧
        hashIdentityDescriptorV2 cr p.net descriptor = member.descriptorHash ∧
        hashRewardBindingV2 cr p.net descriptor.rewardAddress = member.rewardBindingHash := by
  have hv := BlockTransitionV2.timing_valid (valid_iff.mp hp).2
  obtain ⟨inputs, hruns⟩ := hrun.transition
  have hinv := hruns.frozenInvariant (valid_iff.mp hp).2
  constructor
  swap
  · intro epoch frozen hfrozen member hmember
    obtain ⟨descriptor, hdescriptor, rfl⟩ := (hinv.backed.frozen epoch frozen hfrozen).members
      member hmember
    exact ⟨descriptor, hdescriptor, rfl, rfl, rfl⟩
  obtain ⟨firstPayout, hfirst⟩ := hrun.exists_firstPayoutHeight htip
  generalize hheight : t.tipHeight + 1 = height at *
  by_cases hbefore : height < firstPayout
  · obtain ⟨allocation, hplan, -⟩ := planReward_before cr contexts t.state hp hfirst hbefore
      parentHash hfits
    exact ⟨_, hplan, fun expected h => by cases h⟩
  have hafter := UInt64.not_lt.mp hbefore
  obtain ⟨hsource, hone, hlow, hhigh⟩ := payoutEpoch_spec hp hfirst hafter
  obtain ⟨finish, hend⟩ := Option.isSome_iff_exists.mp hend
  generalize hepoch : height / p.timing.epochLength = payoutEpoch at *
  have hdepth := (EpochTimingV2.valid_iff.mp hv).2.1
  have hservice : p.timing.firstService = 1 := by
    simp [EpochTimingV2.firstService, activationHeight_eq_zero hp]
  have hlt := height.toNat_lt
  have hnext : height.toNat = t.tipHeight.toNat + 1 := by
    have htoNat := congrArg UInt64.toNat hheight
    have htip := t.tipHeight.toNat_lt
    rw [UInt64.toNat_add, UInt64.toNat_one] at htoNat
    have hmul : 1 * p.timing.len ≤ payoutEpoch.toNat * p.timing.len :=
      Nat.mul_le_mul_right _ hone.le
    omega
  -- the qualified set of the source epoch was settled before the payout epoch began
  obtain ⟨qualification, hqualification⟩ : ∃ qualification,
      t.state.membership.qualification (payoutEpoch - 1) = some qualification := by
    refine ⟨_, Std.ExtTreeMap.getElem?_eq_some_getElem ((hinv.epochs.closed _).mpr ?_)⟩
    rw [BlockTransitionV2.nextHeight, if_pos htip, hsource]
    omega
  have hstart := (EpochTimingV2.epochStart_eq_some_iff (e := payoutEpoch) hv).mpr
    (toNat_ofNat_of_fits (hlow.trans_lt hlt)).symm
  obtain ⟨anchor, hanchor, hanchor'⟩ := EpochTimingV2.exists_committeeAnchor (e := payoutEpoch) hv
    (by omega) (hlow.trans_lt hlt)
  have hpositive := (EpochTimingV2.valid_iff.mp hv).1
  obtain ⟨seed, hseed, hseed'⟩ := hcontexts anchor (UInt64.le_iff_toNat_le.mpr (by omega))
  have hwithin : UInt64.ofNat (payoutEpoch.toNat * p.timing.len) ≤ height ∧ height ≤ finish := by
    have hfinish := (EpochTimingV2.epochEnd_eq_some_iff hv).mp hend
    rw [UInt64.le_iff_toNat_le, UInt64.le_iff_toNat_le, toNat_ofNat_of_fits (hlow.trans_lt hlt)]
    omega
  have hpayoutEpoch : payoutEpoch ≠ 0 := by
    rintro rfl
    simp at hone
  have hsourceEpoch : payoutEpoch - 1 ≠ 0 := by
    intro hzero
    rw [hzero, UInt64.toNat_zero] at hsource
    omega
  have hplan : ∀ {payee}, duePayee cr p contexts t.state qualification payoutEpoch
      (payoutEpoch - 1) height = .ok payee → _ := fun hdue =>
    planReward_after hp hfirst hafter hparent hfits hepoch hpayoutEpoch hqualification hdue
  by_cases hnodes : qualification.qualifiedNodes = []
  · obtain ⟨allocation, hplan⟩ := hplan (by rw [duePayee, if_pos hnodes])
    exact ⟨_, hplan, fun expected h => by cases h⟩
  · obtain ⟨payee, address, frozen, member, descriptor, hpayee, hbacks⟩ :=
      servicePayee_ok hp hhash hinv.backed hqualification hnodes
        (checkedAdd_eq_some_iff.mpr hsource) hsourceEpoch hanchor hseed hseed' hstart hend hwithin
    obtain ⟨allocation, hplan⟩ := hplan (by rw [duePayee, if_neg hnodes, hpayee]; rfl)
    refine ⟨_, hplan, fun expected h => ?_⟩
    obtain rfl := Option.some.inj h
    exact ⟨frozen, member, descriptor, hbacks⟩

/-! ## Where the payout epoch ends too late -/

/-- Before the first payout and away from epoch boundaries, an idle block only moves the tip. -/
lemma idle_connects (cr : Crypto) (contexts : CanonicalContextSourceV2) (hp : p.valid = true)
    {firstPayoutHeight : UInt64} (hfirst : p.timing.firstPayoutHeight = some firstPayoutHeight)
    (core : TransitionCoreV2) (height : UInt64) (htip : core.haveTip = true)
    (hnext : core.tipHeight.toNat + 1 = height.toNat) (hheight : height < firstPayoutHeight)
    (hfreeze : BlockTransitionV2.freezeEpoch p.toTransitionParametersV2 height = none)
    (hclose : BlockTransitionV2.closeEpoch p.toTransitionParametersV2 height = none) :
    Connects cr p contexts (.idle height) core { core with tipHeight := height } := by
  have hlt := height.toNat_lt
  have hactive : isQwcEposeV2Hardfork hfVersionQwcEpose = true := by decide
  have hblockHash : Bytes.Block.ofNat 32 (height.toNat + 1) ≠ nullHash :=
    Bytes.Block.ofNat_ne_zero (by omega) (by norm_num; omega)
  have hparentHash : Bytes.Block.ofNat 32 height.toNat ≠ nullHash :=
    Bytes.Block.ofNat_ne_zero (by omega) (by norm_num; omega)
  have hmax : core.tipHeight ≠ uint64Max := by
    rw [ne_eq, ← UInt64.toNat_inj, toNat_uint64Max]
    omega
  have hsucc : core.tipHeight + 1 = height := by
    rw [← UInt64.toNat_inj, UInt64.toNat_add, UInt64.toNat_one]
    omega
  obtain ⟨allocation, hplan, htotal⟩ := planReward_before cr contexts core.state hp hfirst hheight
    (CoordinatorBlockV2.idle height).parentHash
    (show (0 : UInt64).toNat + (0 : UInt64).toNat < 2 ^ 64 by simp)
  have htotal : allocation.coinbaseTotal = 0 := UInt64.toNat_inj.mp htotal
  have hprepare : preparePayment cr p contexts core.state (.idle height) =
      .ok (.sampleCoinbase height [] [], ⟨allocation, none⟩, none, 0) := by
    unfold preparePayment
    rw [if_neg (by simp [hp]), if_neg]
    · refine except_bind_eq_ok_iff.mpr ⟨_, hplan, ?_⟩
      simp [Transaction.sampleCoinbase, sumOutputs, htotal, validatePayment]
    · simp [blockShapeValid, CoordinatorBlockV2.idle, CoordinatorBlockV2.sample, hblockHash,
        hparentHash, hactive, Transaction.sampleCoinbase, isCoinbase]
  have hpre : BlockTransitionV2.blockPrecheck p.toTransitionParametersV2 core
      (transitionInput (.idle height) (.sampleCoinbase height [] []) none) = .accepted := by
    unfold BlockTransitionV2.blockPrecheck
    rw [if_neg (by simp [(valid_iff.mp hp).2])]
    simp [transitionInput, CoordinatorBlockV2.idle, CoordinatorBlockV2.sample, hblockHash, hactive,
      htip, hmax, hsucc]
  have haccepted := BlockTransitionV2.blockAccepted_idle cr contexts
    (b := transitionInput (.idle height) (.sampleCoinbase height [] []) none) rfl rfl hpre hfreeze
    hclose hactive (by rw [activationHeight_eq_zero hp]; simp)
  refine ⟨_, _, _, _, _, hprepare, BlockTransitionV2.stepCore_eq_some_iff.mpr
    ⟨_, _, _, _, _, haccepted, ?_, rfl⟩⟩
  rw [← htip]
  rfl

/-- Idle blocks carry a run over heights that are no epoch boundaries. -/
lemma Runs.idle (contexts : CanonicalContextSourceV2) (hp : p.valid = true)
    {firstPayoutHeight : UInt64} (hfirst : p.timing.firstPayoutHeight = some firstPayoutHeight)
    {start : UInt64} (count : ℕ) (hfits : start.toNat + count < firstPayoutHeight.toNat)
    (hquiet : ∀ height : UInt64, start < height → height.toNat ≤ start.toNat + count →
      BlockTransitionV2.freezeEpoch p.toTransitionParametersV2 height = none ∧
        BlockTransitionV2.closeEpoch p.toTransitionParametersV2 height = none)
    (hrun : Runs cr p chain t) (hcore : t.toTransitionCoreV2 = ⟨s, true, start⟩) :
    ∃ chain' t', Runs cr p chain' t' ∧
      t'.toTransitionCoreV2 = ⟨s, true, UInt64.ofNat (start.toNat + count)⟩ := by
  have hmax := firstPayoutHeight.toNat_lt
  induction count with
  | zero => exact ⟨chain, t, hrun, by rw [hcore, Nat.add_zero, UInt64.ofNat_toNat]⟩
  | succ count ih =>
    obtain ⟨chain₁, t₁, hrun₁, hcore₁⟩ := ih (by omega) fun height hlt hle =>
      hquiet height hlt (by omega)
    have htip := toNat_ofNat_of_fits (show start.toNat + count < 2 ^ 64 by omega)
    have hheight := toNat_ofNat_of_fits (show start.toNat + (count + 1) < 2 ^ 64 by omega)
    obtain ⟨hfreeze, hclose⟩ := hquiet (UInt64.ofNat (start.toNat + (count + 1)))
      (by rw [UInt64.lt_iff_toNat_lt, hheight]; omega) (by rw [hheight])
    have hconnects := idle_connects cr contexts hp hfirst t₁.toTransitionCoreV2
      (UInt64.ofNat (start.toNat + (count + 1))) (by rw [hcore₁])
      (by rw [hcore₁, htip, hheight]; omega) (by rw [UInt64.lt_iff_toNat_lt, hheight]; omega)
      hfreeze hclose
    obtain ⟨t₂, hrun₂, hcore₂⟩ := hrun₁.extend hconnects
    exact ⟨_, t₂, hrun₂, by rw [hcore₂, hcore₁]⟩

/-- Epochs so long that the third one ends above the 64-bit heights. -/
def longEpoch : UInt64 := 6917529027641081856

/-- With such epochs, only the second and the third height of an epoch are boundaries. -/
lemma quiet_of_longEpoch {height : UInt64} (h : 2 < height.toNat % longEpoch.toNat) :
    let p := (ConsensusParametersV2.sample longEpoch).toTransitionParametersV2
    BlockTransitionV2.freezeEpoch p height = none ∧
      BlockTransitionV2.closeEpoch p height = none := by
  have hv : (ConsensusParametersV2.sample longEpoch).timing.valid = true := by decide
  have hlen : (ConsensusParametersV2.sample longEpoch).timing.len = 6917529027641081856 := by decide
  have hdepth : (ConsensusParametersV2.sample longEpoch).timing.depth = 6917529027641081854 := by
    decide
  have hL : longEpoch.toNat = 6917529027641081856 := by decide
  rw [hL] at h
  constructor <;> refine Option.eq_none_iff_forall_ne_some.mpr fun epoch hepoch => ?_
  · obtain ⟨hstart, -⟩ := (EpochTimingV2.committeeAnchor_eq_some_iff hv).mp
      ((BlockTransitionV2.freezeEpoch_eq_some_iff hv).mp hepoch)
    rw [hlen, hdepth] at hstart
    omega
  · obtain ⟨hstart, -⟩ := (EpochTimingV2.evidenceDeadline_eq_some_iff hv).mp
      ((BlockTransitionV2.closeEpoch_eq_some_iff hv).mp hepoch).1
    rw [hlen, hdepth] at hstart
    omega

/-- The blocks of the concrete run are accepted for both epoch lengths.  With the long epochs the
first payout cannot be planned. -/
lemma sampleRun_accepted {epochLength : UInt64} (h : epochLength = 3 ∨ epochLength = longEpoch) :
    ((sampleFrozen epochLength).2 = true ∧
        (sampleFrozen epochLength).1.haveTip = true ∧ (sampleFrozen epochLength).1.tipHeight = 2) ∧
      (sampleQualified epochLength).2 = true ∧
        (sampleQualified epochLength).1.haveTip = true ∧
        (sampleQualified epochLength).1.tipHeight = epochLength + 2 ∧
      (epochLength = longEpoch → planReward .sample (.sample epochLength) .sample
        (sampleQualified epochLength).1.state (2 * epochLength - 1 + 1) (Bytes.Block.ofNat 32 1)
        0 0 = .error .invalidPayoutState) := by
  rcases h with rfl | rfl <;> decide +kernel

lemma core_eq {core : TransitionCoreV2} {height : UInt64} (htip : core.haveTip = true)
    (hheight : core.tipHeight = height) : core = ⟨core.state, true, height⟩ := by
  rw [← htip, ← hheight]

lemma core_fields {core : TransitionCoreV2} {s : SemanticStateV2} {height : UInt64}
    (h : core = ⟨s, true, height⟩) :
    core.state = s ∧ core.haveTip = true ∧ core.tipHeight = height := by
  subst h
  exact ⟨rfl, rfl, rfl⟩

/-- A run that ends right before the first payout, when both operators are qualified. -/
lemma exists_longRun : ∃ chain t, Runs .sample (.sample longEpoch) chain t ∧
    t.toTransitionCoreV2 = ⟨(sampleQualified longEpoch).1.state, true, 2 * longEpoch - 1⟩ := by
  obtain ⟨⟨hfrozen, hfrozenTip, hfrozenHeight⟩, hqualified, hqualifiedTip, hqualifiedHeight, -⟩ :=
    sampleRun_accepted (Or.inr rfl)
  have hp : (ConsensusParametersV2.sample longEpoch).valid = true := by decide
  have hfirst : (ConsensusParametersV2.sample longEpoch).timing.firstPayoutHeight =
      some (2 * longEpoch) := by decide
  have hL : longEpoch.toNat = 6917529027641081856 := by decide
  have hstart : (longEpoch + 2).toNat = 6917529027641081858 := by decide
  have hquiet : ∀ start : UInt64, start.toNat % longEpoch.toNat = 2 →
      start.toNat + 6917529027641081853 < 2 ^ 64 → ∀ height : UInt64, start < height →
      height.toNat ≤ start.toNat + 6917529027641081853 → 2 < height.toNat % longEpoch.toNat := by
    intro start hmod hfits height hlow hhigh
    have hlow := UInt64.lt_iff_toNat_lt.mp hlow
    rw [hL] at hmod ⊢
    omega
  obtain ⟨t₁, hrun₁, hcore₁⟩ := Runs.fresh.connectSample sampleFreezingBlocks rfl hfrozen
  have hcore₁ : t₁.toTransitionCoreV2 = (sampleFrozen longEpoch).1 := hcore₁
  have hcore₁ := hcore₁.trans (core_eq hfrozenTip hfrozenHeight)
  obtain ⟨chain₂, t₂, hrun₂, hcore₂⟩ := hrun₁.idle .sample hp hfirst 6917529027641081853 (by decide)
    (fun height hlow hhigh => quiet_of_longEpoch
      (hquiet 2 (by decide) (by decide) height hlow hhigh)) hcore₁
  have hcore₂ : t₂.toTransitionCoreV2 = sampleStart longEpoch := hcore₂
  obtain ⟨t₃, hrun₃, hcore₃⟩ := hrun₂.connectSample (sampleBlocks longEpoch) hcore₂ hqualified
  have hcore₃ : t₃.toTransitionCoreV2 = (sampleQualified longEpoch).1 := hcore₃
  have hcore₃ := hcore₃.trans (core_eq hqualifiedTip hqualifiedHeight)
  obtain ⟨chain₄, t₄, hrun₄, hcore₄⟩ := hrun₃.idle .sample hp hfirst 6917529027641081853 (by decide)
    (fun height hlow hhigh => quiet_of_longEpoch
      (hquiet (longEpoch + 2) (by decide) (by decide) height hlow hhigh)) hcore₃
  exact ⟨chain₄, t₄, hrun₄, hcore₄⟩

lemma sample_blockHash_ne_nullHash (height : UInt64) : ∃ hash,
    CanonicalContextSourceV2.sample.blockHash height = some hash ∧ hash ≠ nullHash := by
  have hlt := height.toNat_lt
  exact ⟨_, rfl, Bytes.Block.ofNat_ne_zero (by omega) (by norm_num; omega)⟩

/-- When the payout epoch ends above the 64-bit heights, a payout cannot be planned although all
lookups would succeed. -/
theorem payout_plan_fails_at_longEpoch :
    ∃ chain t, (ConsensusParametersV2.sample longEpoch).valid = true ∧
      (∀ bytes, Crypto.sample.cnFastHash bytes ≠ nullHash) ∧
      Runs .sample (.sample longEpoch) chain t ∧ t.haveTip = true ∧
      (∀ height ≤ t.tipHeight, ∃ hash,
        CanonicalContextSourceV2.sample.blockHash height = some hash ∧ hash ≠ nullHash) ∧
      Bytes.Block.ofNat 32 1 ≠ nullHash ∧
      planReward .sample (.sample longEpoch) .sample t.state (t.tipHeight + 1)
        (Bytes.Block.ofNat 32 1) 0 0 = .error .invalidPayoutState := by
  obtain ⟨chain, t, hrun, hcore⟩ := exists_longRun
  obtain ⟨hstate, htip, hheight⟩ := core_fields hcore
  refine ⟨chain, t, by decide, Crypto.sample_cnFastHash_ne_nullHash, hrun, htip,
    fun height _ => sample_blockHash_ne_nullHash height, by decide, ?_⟩
  rw [hstate, hheight]
  exact (sampleRun_accepted (Or.inr rfl)).2.2.2.2 rfl

/-- With epochs of three blocks, a run that ends right before the first payout. -/
lemma exists_shortRun : ∃ chain t, Runs .sample (.sample 3) chain t ∧
    t.toTransitionCoreV2 = (sampleQualified 3).1 ∧
    (sampleQualified 3).1 = ⟨(sampleQualified 3).1.state, true, 5⟩ := by
  obtain ⟨⟨hfrozen, hfrozenTip, hfrozenHeight⟩, hqualified, hqualifiedTip, hqualifiedHeight, -⟩ :=
    sampleRun_accepted (Or.inl rfl)
  obtain ⟨t₁, hrun₁, hcore₁⟩ := Runs.fresh.connectSample sampleFreezingBlocks rfl hfrozen
  have hcore₁ : t₁.toTransitionCoreV2 = (sampleFrozen 3).1 := hcore₁
  have hcore₁ : t₁.toTransitionCoreV2 = sampleStart 3 :=
    hcore₁.trans (core_eq hfrozenTip hfrozenHeight)
  obtain ⟨t₂, hrun₂, hcore₂⟩ := hrun₁.connectSample (sampleBlocks 3) hcore₁ hqualified
  exact ⟨_, t₂, hrun₂, hcore₂, core_eq hqualifiedTip hqualifiedHeight⟩

/-- With epochs of three blocks, the payout at height 6 can be planned. -/
theorem payout_can_be_planned_sample :
    ∃ plan, planReward .sample (.sample 3) .sample (sampleQualified 3).1.state 6
      (Bytes.Block.ofNat 32 1) 1000 7 = .ok plan := by
  obtain ⟨chain, t, hrun, hcore, htip⟩ := exists_shortRun
  rw [htip] at hcore
  obtain ⟨hstate, htip, hheight⟩ := core_fields hcore
  obtain ⟨plan, hplan, -⟩ := (payout_can_be_planned (by decide)
    Crypto.sample_cnFastHash_ne_nullHash hrun htip
    (fun height _ => sample_blockHash_ne_nullHash height)
    (show Bytes.Block.ofNat 32 1 ≠ nullHash by decide)
    (show (1000 : UInt64).toNat + (7 : UInt64).toNat < 2 ^ 64 by decide)
    (by rw [hheight]; decide)).1
  rw [hstate, hheight] at hplan
  exact ⟨plan, hplan⟩

end ConsensusCoordinatorV2

end Qwertycoin
