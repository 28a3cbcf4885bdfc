import Qwertycoin.Replay

/-
# Epoch boundaries

At the anchor of an epoch its members are frozen, at its evidence deadline the qualified ones are
settled.  Either step would make the block, and with it the chain, fail if the bookkeeping of
leases, snapshots and qualified sets were inconsistent.  The invariant below says which epochs
have a snapshot and which are closed when the next block comes, and that the leases of an epoch
are distinct and not too many.  It is kept by every accepted block, so no block fails at an epoch
boundary.
-/

namespace Qwertycoin

/-! ## Leases -/

namespace MembershipPipelineV2

variable {cr : Crypto} {p : SemanticParametersV2} {m : MembershipPipelineV2} {undo : UndoJournal}
  {lease : AdmissionLeaseV2} {context : AdmissionContextV2} {height : UInt64}

/-- Two leases for one epoch are for different identities with different service keys. -/
def DistinctLeases (left right : StoredLease) : Prop :=
  left.lease.targetEpoch = right.lease.targetEpoch →
    DistinctMembers left.lease.member right.lease.member

lemma DistinctLeases.symm {left right : StoredLease} (h : DistinctLeases left right) :
    DistinctLeases right left :=
  fun he => ⟨(h he.symm).1.symm, (h he.symm).2.symm⟩

/-- The leases after one was stored: it is new, or stands in the place of an older one. -/
lemma storeLease_leases (m : MembershipPipelineV2) (undo : UndoJournal) (lease : AdmissionLeaseV2)
    (height : UInt64) :
    m.leases.find? (sameSlot lease) = none ∧
        (m.storeLease undo lease height).1.leases = m.leases ++ [⟨lease, height⟩] ∨
      ∃ front stored back, m.leases = front ++ stored :: back ∧ sameSlot lease stored = true ∧
        (m.storeLease undo lease height).1.leases = front ++ ⟨lease, height⟩ :: back := by
  simp only [storeLease]
  cases hfind : m.leases.find? (sameSlot lease) with
  | none => exact Or.inl ⟨rfl, rfl⟩
  | some stored =>
    right
    have hget := List.find?_eq_getElem?_findIdx.symm.trans hfind
    obtain ⟨hlt, -⟩ := List.getElem?_eq_some_iff.mp hget
    obtain ⟨front, stored', back, heq, hlen, hmodify⟩ :=
      List.exists_of_modify (fun _ => (⟨lease, height⟩ : StoredLease)) hlt
    have hstored : stored' = stored := by
      rw [← hlen, heq] at hget
      simpa using hget
    subst hstored
    exact ⟨front, stored', back, heq, List.find?_some hfind, hmodify⟩

@[simp] lemma storeLease_snapshots :
    (m.storeLease undo lease height).1.snapshots = m.snapshots := by
  simp only [storeLease]
  split <;> rfl

@[simp] lemma storeLease_qualifications :
    (m.storeLease undo lease height).1.qualifications = m.qualifications := by
  simp only [storeLease]
  split <;> rfl

@[simp] lemma storeLease_receipts :
    (m.storeLease undo lease height).1.receipts = m.receipts := by
  simp only [storeLease]
  split <;> rfl

/-- A lease that clashes with no stored lease of another identity is distinct from every stored
lease that is not in its slot. -/
lemma AdmissionAccepts.distinct (h : m.AdmissionAccepts cr p lease context height)
    {stored : StoredLease} (hmem : stored ∈ m.leases) (hslot : sameSlot lease stored = false) :
    DistinctLeases stored ⟨lease, height⟩ := by
  intro hepoch
  have hid : stored.lease.member.identityId ≠ lease.member.identityId := by
    simpa [sameSlot, hepoch] using hslot
  have hkey := h.key_free stored hmem
  simp only [keyConflict, hepoch, hid, ne_eq, decide_true, not_false_eq_true, Bool.and_true,
    Bool.true_and, decide_eq_false_iff_not] at hkey
  exact ⟨hid, hkey⟩

lemma AdmissionAccepts.pairwise (h : m.AdmissionAccepts cr p lease context height)
    (hdist : m.leases.Pairwise DistinctLeases) :
    (m.storeLease undo lease height).1.leases.Pairwise DistinctLeases := by
  obtain ⟨hfind, hleases⟩ | ⟨front, stored, back, heq, hslot, hleases⟩ :=
    m.storeLease_leases undo lease height
  · rw [hleases, List.pairwise_append]
    refine ⟨hdist, List.pairwise_singleton _ _, fun other hother new hnew => ?_⟩
    obtain rfl := List.mem_singleton.mp hnew
    exact h.distinct hother (Bool.eq_false_iff.mpr (List.find?_eq_none.mp hfind other hother))
  · -- the other leases are distinct from the replaced one, so they are not in its slot
    have hother : ∀ other ∈ m.leases, DistinctLeases stored other →
        DistinctLeases other ⟨lease, height⟩ := by
      intro other hmem hne
      refine h.distinct hmem (Bool.eq_false_iff.mpr fun hsame => ?_)
      simp only [sameSlot, Bool.and_eq_true, decide_eq_true_eq] at hslot hsame
      exact (hne (hslot.1.trans hsame.1.symm)).1 (hslot.2.trans hsame.2.symm)
    rw [hleases]
    rw [heq] at hdist hother
    simp only [List.pairwise_append, List.pairwise_cons, List.mem_cons, List.mem_append,
      forall_eq_or_imp] at hdist hother ⊢
    obtain ⟨hfront, ⟨hstored, hback⟩, hcross⟩ := hdist
    refine ⟨hfront, ⟨fun other hmem => ?_, hback⟩, fun other hmem => ⟨?_, (hcross other hmem).2⟩⟩
    · exact (hother other (Or.inr (Or.inr hmem)) (hstored other hmem)).symm
    · exact hother other (Or.inl hmem) (hcross other hmem).1.symm

lemma AdmissionAccepts.population (h : m.AdmissionAccepts cr p lease context height)
    (hpop : ∀ epoch, m.epochPopulation epoch ≤ p.committeePolicy.maxActivePopulation)
    (epoch : UInt64) :
    (m.storeLease undo lease height).1.epochPopulation epoch ≤
      p.committeePolicy.maxActivePopulation := by
  have hepoch := hpop epoch
  simp only [epochPopulation] at hepoch ⊢
  obtain ⟨hfind, hleases⟩ | ⟨front, stored, back, heq, hslot, hleases⟩ :=
    m.storeLease_leases undo lease height
  · have hroom := h.room hfind
    simp only [epochPopulation] at hroom
    rw [hleases, List.countP_append, List.countP_singleton]
    split_ifs with htarget
    · obtain rfl : lease.targetEpoch = epoch := of_decide_eq_true htarget
      omega
    · omega
  · have htarget : stored.lease.targetEpoch = lease.targetEpoch := by
      simp only [sameSlot, Bool.and_eq_true, decide_eq_true_eq] at hslot
      exact hslot.1
    rw [hleases]
    rw [heq] at hepoch
    simpa only [List.countP_append, List.countP_cons, htarget] using hepoch

lemma eligibleMembers_pairwise (hdist : m.leases.Pairwise DistinctLeases) (epoch cutoff : UInt64)
    (authorizedMembers : List FrozenMemberV2) :
    (eligibleMembers epoch cutoff authorizedMembers m.leases).Pairwise DistinctMembers := by
  rw [eligibleMembers, List.pairwise_map]
  have htarget : ∀ stored ∈ m.leases.filter (eligible epoch cutoff authorizedMembers),
      stored.lease.targetEpoch = epoch := by
    intro stored hmem
    have helig := (List.mem_filter.mp hmem).2
    simp only [eligible, Bool.and_eq_true, decide_eq_true_eq] at helig
    exact helig.1.1
  refine (hdist.sublist List.filter_sublist).imp_of_mem fun hleft hright h => ?_
  exact h ((htarget _ hleft).trans (htarget _ hright).symm)

lemma length_eligibleMembers_le (epoch cutoff : UInt64) (authorizedMembers : List FrozenMemberV2) :
    (eligibleMembers epoch cutoff authorizedMembers m.leases).length ≤ m.epochPopulation epoch := by
  rw [eligibleMembers, List.length_map, ← List.countP_eq_length_filter, epochPopulation]
  refine List.countP_mono_left fun stored _ helig => ?_
  simp only [eligible, Bool.and_eq_true, decide_eq_true_eq] at helig ⊢
  exact helig.1.1

/-- The leases of an epoch are distinct and not too many. -/
structure LeaseInvariant (p : SemanticParametersV2) (m : MembershipPipelineV2) : Prop where
  distinct : m.leases.Pairwise DistinctLeases
  population : ∀ epoch, m.epochPopulation epoch ≤ p.committeePolicy.maxActivePopulation

lemma LeaseInvariant.congr {m' : MembershipPipelineV2} (h : m.LeaseInvariant p)
    (heq : m'.leases = m.leases) : m'.LeaseInvariant p := by
  refine ⟨heq ▸ h.distinct, fun epoch => ?_⟩
  rw [epochPopulation, heq]
  exact h.population epoch

end MembershipPipelineV2

open MembershipPipelineV2 in
/-- Records keep the leases in order and touch neither snapshots nor qualified sets. -/
lemma SemanticStateV2.Evolves.epochs {cr : Crypto} {p : SemanticParametersV2}
    {contexts : CanonicalContextSourceV2} {height : UInt64} {s s' : SemanticStateV2}
    (h : Evolves cr p contexts height s s') (hs : s.membership.LeaseInvariant p) :
    s'.membership.LeaseInvariant p ∧ s'.membership.snapshots = s.membership.snapshots ∧
      s'.membership.qualifications = s.membership.qualifications := by
  refine h.invariant (P := fun s' => s'.membership.LeaseInvariant p ∧
    s'.membership.snapshots = s.membership.snapshots ∧
    s'.membership.qualifications = s.membership.qualifications) ?_ ⟨hs, rfl, rfl⟩
  rintro s₁ undo s₂ undo' hstep ⟨hinv, hsnap, hqual⟩
  cases hstep with
  | lifecycle => exact ⟨hinv, hsnap, hqual⟩
  | admission _ _ _ haccepts =>
    exact ⟨⟨haccepts.pairwise hinv.distinct, haccepts.population hinv.population⟩,
      by simpa using hsnap, by simpa using hqual⟩
  | receipt => exact ⟨⟨hinv.distinct, hinv.population⟩, hsnap, hqual⟩

/-! ## Which epochs are frozen and closed -/

namespace BlockTransitionV2

variable {cr : Crypto} {p : TransitionParametersV2} {contexts : CanonicalContextSourceV2}

/-- The height of the next block. -/
def nextHeight (p : TransitionParametersV2) (t : TransitionCoreV2) : ℕ :=
  if t.haveTip then t.tipHeight.toNat + 1 else p.timing.activationHeight.toNat

/-- The modular test picks the multiple of the epoch length, if there is one. -/
lemma div_of_mod_eq_some_iff (hv : p.timing.valid = true) {shifted epoch : UInt64} :
    (if shifted % p.timing.epochLength = 0 then some (shifted / p.timing.epochLength)
      else none) = some epoch ↔ epoch.toNat * p.timing.len = shifted.toNat := by
  have hlen := EpochTimingV2.len_gt_one hv
  have hdiv := Nat.div_add_mod shifted.toNat p.timing.len
  have hmod : shifted % p.timing.epochLength = 0 ↔ shifted.toNat % p.timing.len = 0 := by
    rw [← UInt64.toNat_inj, UInt64.toNat_mod]
    rfl
  split_ifs with h <;> rw [hmod] at h
  · rw [h, Nat.add_zero] at hdiv
    rw [Option.some.injEq, ← UInt64.toNat_inj, UInt64.toNat_div]
    constructor
    · intro hepoch
      rw [← hepoch, Nat.mul_comm]
      exact hdiv
    · intro hepoch
      rw [← hepoch]
      exact Nat.mul_div_cancel _ (by omega)
  · simp only [false_iff]
    intro hepoch
    exact h (by rw [← hepoch, Nat.mul_mod_left])

/-- The height test of the freeze picks the epoch whose anchor the height is. -/
lemma freezeEpoch_eq_some_iff (hv : p.timing.valid = true) {height epoch : UInt64} :
    freezeEpoch p height = some epoch ↔ p.timing.committeeAnchor epoch = some height := by
  have hd := p.timing.anchorDepth.toNat_lt
  have hbound : (uint64Max - p.timing.anchorDepth).toNat = 2 ^ 64 - 1 - p.timing.depth := by
    rw [UInt64.toNat_sub_of_le _ _ (UInt64.le_iff_toNat_le.mpr (by simp; omega))]
    rfl
  rw [EpochTimingV2.committeeAnchor_eq_some_iff hv, freezeEpoch]
  split_ifs with hfits <;> rw [UInt64.le_iff_toNat_le, hbound] at hfits <;>
    simp only [EpochTimingV2.depth] at hfits ⊢
  · rw [div_of_mod_eq_some_iff hv, UInt64.toNat_add, Nat.mod_eq_of_lt (by omega)]
    omega
  · simp only [false_iff]
    omega

/-- The height test of the close picks the epoch whose evidence deadline the height is, unless
the start of the next epoch is not representable. -/
lemma closeEpoch_eq_some_iff (hv : p.timing.valid = true) {height epoch : UInt64} :
    closeEpoch p height = some epoch ↔
      p.timing.evidenceDeadline epoch = some height ∧
        height.toNat + p.timing.depth + 1 < 2 ^ 64 := by
  have hlen := EpochTimingV2.len_gt_one hv
  have hd : p.timing.depth < 2 ^ 64 - 1 := by
    have hlt := (EpochTimingV2.valid_iff.mp hv).2.1
    have hL := p.timing.epochLength.toNat_lt
    rw [EpochTimingV2.len] at hlt
    omega
  have hbound : height ≤ uint64Max - p.timing.anchorDepth - 1 ↔
      height.toNat + p.timing.depth + 1 < 2 ^ 64 := by
    have hsub : (uint64Max - p.timing.anchorDepth).toNat = 2 ^ 64 - 1 - p.timing.depth := by
      rw [UInt64.toNat_sub_of_le _ _ (UInt64.le_iff_toNat_le.mpr (by
        rw [toNat_uint64Max]; exact hd.le))]
      rfl
    rw [UInt64.le_iff_toNat_le, UInt64.toNat_sub_of_le _ _ (UInt64.le_iff_toNat_le.mpr (by
      rw [hsub, UInt64.toNat_one]; omega)), hsub, UInt64.toNat_one]
    omega
  rw [EpochTimingV2.evidenceDeadline_eq_some_iff hv, closeEpoch]
  by_cases hfits : height.toNat + p.timing.depth + 1 < 2 ^ 64
  · have hshift : (height + p.timing.anchorDepth + 1).toNat = height.toNat + p.timing.depth + 1 := by
      rw [UInt64.toNat_add, UInt64.toNat_add, UInt64.toNat_one]
      simp only [EpochTimingV2.depth] at hfits ⊢
      omega
    have hdiv := Nat.div_add_mod (height.toNat + p.timing.depth + 1) p.timing.len
    have hquot : ((height + p.timing.anchorDepth + 1) / p.timing.epochLength).toNat =
        (height.toNat + p.timing.depth + 1) / p.timing.len := by
      rw [UInt64.toNat_div, hshift, EpochTimingV2.len]
    have hmod : (height + p.timing.anchorDepth + 1) % p.timing.epochLength = 0 ↔
        (height.toNat + p.timing.depth + 1) % p.timing.len = 0 := by
      rw [← UInt64.toNat_inj, UInt64.toNat_mod, hshift]
      rfl
    rw [if_pos (hbound.mpr hfits)]
    by_cases hzero : (height.toNat + p.timing.depth + 1) % p.timing.len = 0
    · rw [hzero, Nat.add_zero] at hdiv
      have hpos : 0 < (height.toNat + p.timing.depth + 1) / p.timing.len := by
        by_contra hq
        rw [Nat.eq_zero_of_not_pos hq, Nat.mul_zero] at hdiv
        omega
      have hquotpos : 0 < (height + p.timing.anchorDepth + 1) / p.timing.epochLength := by
        rw [UInt64.lt_iff_toNat_lt, hquot]
        exact hpos
      rw [if_pos ⟨hmod.mpr hzero, hquotpos⟩, Option.some.injEq, ← UInt64.toNat_inj,
        UInt64.toNat_sub_of_le _ _ (UInt64.le_iff_toNat_le.mpr (by rw [hquot]; exact hpos)),
        hquot, UInt64.toNat_one]
      constructor
      · intro hepoch
        have hsucc : epoch.toNat + 1 = (height.toNat + p.timing.depth + 1) / p.timing.len := by
          omega
        rw [hsucc, Nat.mul_comm]
        exact ⟨⟨hdiv, by omega⟩, hfits⟩
      · rintro ⟨⟨hepoch, -⟩, -⟩
        rw [← hepoch, Nat.mul_div_cancel _ (by omega)]
        rfl
    · rw [if_neg (by rw [hmod]; exact fun h => hzero h.1)]
      simp only [reduceCtorEq, false_iff]
      rintro ⟨⟨hepoch, -⟩, -⟩
      exact hzero (by rw [← hepoch, Nat.mul_mod_left])
  · rw [if_neg (hbound.not.mpr hfits)]
    simp only [reduceCtorEq, false_iff]
    exact fun h => hfits h.2

/-- The snapshots of a pipeline are those of the served epochs whose anchor lies below a
height. -/
def FrozenBelow (timing : EpochTimingV2) (height : ℕ) (m : MembershipPipelineV2) : Prop :=
  ∀ epoch : UInt64, epoch ∈ m.snapshots ↔
    timing.firstService ≤ epoch.toNat ∧ epoch.toNat * timing.len < height + timing.depth ∧
      epoch.toNat * timing.len < 2 ^ 64

/-- The qualified sets of a pipeline are those of the served epochs whose evidence deadline lies
below a height. -/
def ClosedBelow (timing : EpochTimingV2) (height : ℕ) (m : MembershipPipelineV2) : Prop :=
  ∀ epoch : UInt64, epoch ∈ m.qualifications ↔
    timing.firstService ≤ epoch.toNat ∧
      (epoch.toNat + 1) * timing.len ≤ height + timing.depth ∧
      (epoch.toNat + 1) * timing.len < 2 ^ 64

/-- What holds between blocks. -/
structure EpochInvariant (p : TransitionParametersV2) (t : TransitionCoreV2) : Prop where
  leases : t.state.membership.LeaseInvariant p.toSemanticParametersV2
  frozen : FrozenBelow p.timing (nextHeight p t) t.state.membership
  closed : ClosedBelow p.timing (nextHeight p t) t.state.membership

variable {w : Work} {b : BlockInputV2}

lemma timing_valid (hp : p.valid = true) : p.timing.valid = true := by
  simp only [TransitionParametersV2.valid, Bool.and_eq_true] at hp
  exact hp.1.1

lemma exists_freezes (hp : p.valid = true)
    (hleases : w.state.membership.LeaseInvariant p.toSemanticParametersV2)
    (hfrozen : FrozenBelow p.timing b.height.toNat w.state.membership) {epoch : UInt64}
    (hepoch : freezeEpoch p b.height = some epoch) {firstService : UInt64}
    (hfirst : p.timing.firstServiceEpoch = some firstService) (hle : firstService ≤ epoch) :
    ∃ frozen, w.state.membership.Freezes cr p.toSemanticParametersV2 epoch b.height b.blockHash
      (w.state.authorizedMembers cr p.toSemanticParametersV2 epoch) frozen := by
  have hv := timing_valid hp
  have hanchor := (freezeEpoch_eq_some_iff hv).mp hepoch
  obtain ⟨hstart, hfits⟩ := (EpochTimingV2.committeeAnchor_eq_some_iff hv).mp hanchor
  have hserved := (EpochTimingV2.firstServiceEpoch_eq_some_iff hv).mp hfirst
  -- the anchor of a served epoch is above the activation height, so its cutoff exists
  have hcut : p.timing.enrollmentCutoff epoch =
      some (UInt64.ofNat (b.height.toNat - 1)) := by
    have hactivation := EpochTimingV2.activationHeight_add_len hv
    have hdepth := (EpochTimingV2.valid_iff.mp hv).2.1
    have hmul : p.timing.firstService * p.timing.len ≤ epoch.toNat * p.timing.len := by
      rw [← hserved]
      exact Nat.mul_le_mul_right _ (UInt64.le_iff_toNat_le.mp hle)
    have hh := b.height.toNat_lt
    rw [EpochTimingV2.enrollmentCutoff_eq_some_iff hv, toNat_ofNat_of_fits (by omega)]
    omega
  refine ⟨_, ?_, ⟨firstService, hfirst, hle⟩, hanchor, _, hcut,
    MembershipPipelineV2.eligibleMembers_pairwise hleases.distinct _ _ _,
    (MembershipPipelineV2.length_eligibleMembers_le _ _ _).trans (hleases.population _), rfl⟩
  rw [hfrozen epoch]
  omega

/-- The freeze phase never fails, and afterwards the epoch whose anchor the block is has its
snapshot. -/
lemma freezePhase_frozen (cr : Crypto) (hp : p.valid = true)
    (hleases : w.state.membership.LeaseInvariant p.toSemanticParametersV2)
    (hfrozen : FrozenBelow p.timing b.height.toNat w.state.membership) :
    ∃ w₁, freezePhase cr p b w = (w₁, .accepted) ∧
      w₁.state.membership.leases = w.state.membership.leases ∧
      w₁.state.membership.qualifications = w.state.membership.qualifications ∧
      FrozenBelow p.timing (b.height.toNat + 1) w₁.state.membership := by
  have hv := timing_valid hp
  obtain ⟨firstService, hfirst, hserved⟩ := EpochTimingV2.exists_firstServiceEpoch hv
  obtain ⟨status, epoch, -, hphase, hepoch, hfail⟩ | ⟨hphase, hidle⟩ |
    ⟨epoch, frozen, hepoch, hfreezes, hphase⟩ :=
    freezePhase_cases cr (membershipValid_of_valid hp) b w
  · obtain ⟨hle, hnot⟩ := hfail firstService hfirst
    obtain ⟨frozen, hfreezes⟩ := exists_freezes hp hleases hfrozen hepoch hfirst hle
    exact absurd hfreezes (hnot frozen)
  · refine ⟨w, hphase, rfl, rfl, fun epoch => ?_⟩
    rw [hfrozen epoch]
    -- an epoch whose anchor the block is would have been frozen
    have hnew : p.timing.firstService ≤ epoch.toNat →
        epoch.toNat * p.timing.len = b.height.toNat + p.timing.depth →
        ¬epoch.toNat * p.timing.len < 2 ^ 64 := by
      intro hle hstart hfits
      have hepoch := (freezeEpoch_eq_some_iff hv).mpr
        ((EpochTimingV2.committeeAnchor_eq_some_iff hv).mpr ⟨hstart, hstart ▸ hfits⟩)
      have hlt := UInt64.lt_iff_toNat_lt.mp (hidle epoch firstService hepoch hfirst)
      omega
    omega
  · refine ⟨_, hphase, rfl, rfl, fun epoch' => ?_⟩
    obtain ⟨hstart, hfits⟩ := (EpochTimingV2.committeeAnchor_eq_some_iff hv).mp
      ((freezeEpoch_eq_some_iff hv).mp hepoch)
    obtain ⟨firstService', hfirst', hle⟩ := hfreezes.service
    obtain rfl := Option.some.inj (hfirst.symm.trans hfirst')
    have hle := UInt64.le_iff_toNat_le.mp hle
    have hunique : epoch'.toNat * p.timing.len = epoch.toNat * p.timing.len ↔ epoch' = epoch := by
      rw [Nat.mul_right_cancel_iff (by have := EpochTimingV2.len_gt_one hv; omega),
        UInt64.toNat_inj]
    rw [MembershipPipelineV2.mem_storeSnapshot, hfrozen epoch']
    constructor
    · rintro (rfl | h) <;> omega
    · intro h
      rw [← hunique]
      omega

lemma mem_snapshots_of_closeEpoch (hp : p.valid = true) {m : MembershipPipelineV2}
    {height epoch : UInt64} (hfrozen : FrozenBelow p.timing (height.toNat + 1) m)
    (hepoch : closeEpoch p height = some epoch) {firstService : UInt64}
    (hfirst : p.timing.firstServiceEpoch = some firstService) (hle : firstService ≤ epoch) :
    epoch ∈ m.snapshots := by
  have hv := timing_valid hp
  have hlen := EpochTimingV2.len_gt_one hv
  obtain ⟨hdeadline, hfits⟩ := (closeEpoch_eq_some_iff hv).mp hepoch
  obtain ⟨hend, -⟩ := (EpochTimingV2.evidenceDeadline_eq_some_iff hv).mp hdeadline
  have hserved := (EpochTimingV2.firstServiceEpoch_eq_some_iff hv).mp hfirst
  have hle := UInt64.le_iff_toNat_le.mp hle
  have hsucc : (epoch.toNat + 1) * p.timing.len = epoch.toNat * p.timing.len + p.timing.len :=
    Nat.succ_mul _ _
  rw [hfrozen epoch]
  omega

lemma exists_closes (hp : p.valid = true)
    (hfrozen : FrozenBelow p.timing (b.height.toNat + 1) w.state.membership)
    (hclosed : ClosedBelow p.timing b.height.toNat w.state.membership) {epoch : UInt64}
    (hepoch : closeEpoch p b.height = some epoch) {firstService : UInt64}
    (hfirst : p.timing.firstServiceEpoch = some firstService) (hle : firstService ≤ epoch) :
    ∃ closed, w.state.membership.Closes cr p.toSemanticParametersV2 epoch b.height closed := by
  have hv := timing_valid hp
  have hmem := mem_snapshots_of_closeEpoch hp hfrozen hepoch hfirst hle
  obtain ⟨hdeadline, hfits⟩ := (closeEpoch_eq_some_iff hv).mp hepoch
  obtain ⟨hend, -⟩ := (EpochTimingV2.evidenceDeadline_eq_some_iff hv).mp hdeadline
  have hfresh : epoch ∉ w.state.membership.qualifications := by
    rw [hclosed epoch]
    omega
  exact ⟨_, hfresh, hdeadline, _, Std.ExtTreeMap.getElem?_eq_some_getElem hmem, rfl⟩

/-- The close phase never fails, and afterwards the epoch whose deadline the block is has its
qualified nodes. -/
lemma closePhase_closed (cr : Crypto) (hp : p.valid = true)
    (hfrozen : FrozenBelow p.timing (b.height.toNat + 1) w.state.membership)
    (hclosed : ClosedBelow p.timing b.height.toNat w.state.membership) :
    ∃ w₁, closePhase cr p b w = (w₁, .accepted) ∧
      w₁.state.membership.leases = w.state.membership.leases ∧
      w₁.state.membership.snapshots = w.state.membership.snapshots ∧
      ClosedBelow p.timing (b.height.toNat + 1) w₁.state.membership := by
  have hv := timing_valid hp
  obtain ⟨firstService, hfirst, hserved⟩ := EpochTimingV2.exists_firstServiceEpoch hv
  obtain ⟨status, epoch, -, hphase, hepoch, hfail⟩ | ⟨hphase, hidle⟩ |
    ⟨epoch, closed, hepoch, ⟨firstService', hfirst', hle⟩, hcloses, hphase⟩ :=
    closePhase_cases cr (membershipValid_of_valid hp) b w
  · obtain ⟨hle, hnot⟩ := hfail firstService hfirst
    obtain ⟨closed, hcloses⟩ := exists_closes hp hfrozen hclosed hepoch hfirst hle
    exact absurd hcloses (hnot closed)
  · refine ⟨w, hphase, rfl, rfl, fun epoch => ?_⟩
    rw [hclosed epoch]
    -- an epoch whose deadline the block is would have been closed
    have hnew : p.timing.firstService ≤ epoch.toNat →
        (epoch.toNat + 1) * p.timing.len = b.height.toNat + p.timing.depth + 1 →
        ¬(epoch.toNat + 1) * p.timing.len < 2 ^ 64 := by
      intro hle hend hfits
      have hepoch := (closeEpoch_eq_some_iff hv).mpr
        ⟨(EpochTimingV2.evidenceDeadline_eq_some_iff hv).mpr ⟨hend, by omega⟩, hend ▸ hfits⟩
      have hlt := UInt64.lt_iff_toNat_lt.mp (hidle epoch firstService hepoch hfirst)
      omega
    omega
  · refine ⟨_, hphase, rfl, rfl, fun epoch' => ?_⟩
    obtain ⟨hdeadline, hfits⟩ := (closeEpoch_eq_some_iff hv).mp hepoch
    obtain ⟨hend, -⟩ := (EpochTimingV2.evidenceDeadline_eq_some_iff hv).mp hdeadline
    obtain rfl := Option.some.inj (hfirst.symm.trans hfirst')
    have hle := UInt64.le_iff_toNat_le.mp hle
    have hunique : (epoch'.toNat + 1) * p.timing.len = (epoch.toNat + 1) * p.timing.len ↔
        epoch' = epoch := by
      rw [Nat.mul_right_cancel_iff (by have := EpochTimingV2.len_gt_one hv; omega),
        Nat.add_right_cancel_iff, UInt64.toNat_inj]
    rw [MembershipPipelineV2.mem_storeQualification, hclosed epoch']
    constructor
    · rintro (rfl | h) <;> omega
    · intro h
      rw [← hunique]
      omega

lemma height_eq_nextHeight {t : TransitionCoreV2} (h : blockPrecheck p t b = .accepted) :
    b.height.toNat = nextHeight p t := by
  simp only [blockPrecheck] at h
  split_ifs at h with _ _ hseq
  simp only [Bool.or_eq_true, Bool.and_eq_true, Bool.not_eq_true', decide_eq_true_eq, not_or,
    not_and] at hseq
  rw [nextHeight]
  cases htip : t.haveTip with
  | false =>
    have hheight : b.height = p.timing.activationHeight := not_not.mp (hseq.1 htip)
    rw [hheight]
    rfl
  | true =>
    obtain ⟨hmax, hheight⟩ := hseq.2 htip
    have hmax : t.tipHeight.toNat ≠ 2 ^ 64 - 1 := fun heq => hmax (UInt64.toNat_inj.mp heq)
    have hlt := t.tipHeight.toNat_lt
    rw [not_not.mp hheight, UInt64.toNat_add, UInt64.toNat_one]
    simp only [if_true]
    omega

/-- While a block is applied, the freeze succeeds, the records keep what the close needs, and
the close succeeds, leaving the epochs in order for the next block. -/
lemma EpochInvariant.phases {t : TransitionCoreV2} (h : EpochInvariant p t) (cr : Crypto)
    (hpre : blockPrecheck p t b = .accepted) (undo : SemanticStateV2.UndoJournal) :
    ∃ w₁, freezePhase cr p b ⟨t.state, undo⟩ = (w₁, .accepted) ∧
      ∀ contexts (w₂ : Work), SemanticStateV2.Evolves cr p.toSemanticParametersV2 contexts b.height
          w₁.state w₂.state →
        ∃ w₃, closePhase cr p b w₂ = (w₃, .accepted) ∧
          EpochInvariant p { state := w₃.state, haveTip := true, tipHeight := b.height } := by
  have hp := valid_of_blockPrecheck hpre
  have hfrozen := h.frozen
  have hclosed := h.closed
  rw [← height_eq_nextHeight hpre] at hfrozen hclosed
  obtain ⟨w₁, hfreeze, hleases₁, hqual₁, hfrozen₁⟩ :=
    freezePhase_frozen (w := ⟨t.state, undo⟩) cr hp h.leases hfrozen
  refine ⟨w₁, hfreeze, fun contexts w₂ hevolves => ?_⟩
  obtain ⟨hinv₂, hsnap₂, hqual₂⟩ := hevolves.epochs (h.leases.congr hleases₁)
  have hfrozen₂ : FrozenBelow p.timing (b.height.toNat + 1) w₂.state.membership := by
    intro epoch
    rw [hsnap₂]
    exact hfrozen₁ epoch
  have hclosed₂ : ClosedBelow p.timing b.height.toNat w₂.state.membership := by
    intro epoch
    rw [hqual₂, hqual₁]
    exact hclosed epoch
  obtain ⟨w₃, hclose, hleases₃, hsnap₃, hclosed₃⟩ := closePhase_closed cr hp hfrozen₂ hclosed₂
  refine ⟨w₃, hclose, hinv₂.congr hleases₃, fun epoch => ?_, hclosed₃⟩
  rw [hsnap₃]
  exact hfrozen₂ epoch

/-- The fresh object has no leases and no epoch, and the first anchor is above the activation
height. -/
lemma epochInvariant_fresh (hp : p.valid = true) : EpochInvariant p {} := by
  have hv := timing_valid hp
  have hactivation := EpochTimingV2.activationHeight_add_len hv
  have hdepth := (EpochTimingV2.valid_iff.mp hv).2.1
  have hmul : ∀ epoch : UInt64, p.timing.firstService ≤ epoch.toNat →
      p.timing.firstService * p.timing.len ≤ epoch.toNat * p.timing.len :=
    fun epoch hle => Nat.mul_le_mul_right _ hle
  refine ⟨⟨List.Pairwise.nil, fun epoch => Nat.zero_le _⟩, fun epoch => ?_, fun epoch => ?_⟩
  · have hnone : epoch ∉ ({} : TransitionCoreV2).state.membership.snapshots :=
      Std.ExtTreeMap.not_mem_empty
    simp only [hnone, false_iff, nextHeight]
    rintro ⟨hle, hlt, -⟩
    have := hmul epoch hle
    simp only [Bool.false_eq_true, if_false] at hlt
    omega
  · have hnone : epoch ∉ ({} : TransitionCoreV2).state.membership.qualifications :=
      Std.ExtTreeMap.not_mem_empty
    simp only [hnone, false_iff, nextHeight]
    rintro ⟨hle, hlt, -⟩
    have := hmul epoch hle
    have hsucc : (epoch.toNat + 1) * p.timing.len = epoch.toNat * p.timing.len + p.timing.len :=
      Nat.succ_mul _ _
    simp only [Bool.false_eq_true, if_false] at hlt
    omega

lemma EpochInvariant.step {call : Call} {core core' : TransitionCoreV2} {entry : UndoEntry}
    (h : EpochInvariant p core) (hstep : stepCore cr p call core = some (core', entry)) :
    EpochInvariant p core' := by
  obtain ⟨parsed, summary, w₁, w₂, w₃, hblock, rfl, -⟩ := stepCore_eq_some_iff.mp hstep
  obtain ⟨w₁', hfreeze, hclose⟩ := h.phases cr hblock.precheck core.state.checkpoint
  obtain rfl : w₁ = w₁' := congrArg Prod.fst (hblock.freeze.symm.trans hfreeze)
  have hevolves := transactionsPhase_evolves cr p call.1 call.2.height
    (call.2.transactions.zip parsed) w₁ {}
  rw [hblock.transactions] at hevolves
  obtain ⟨w₃', hclose', hinv⟩ := hclose call.1 w₂ hevolves
  obtain rfl : w₃ = w₃' := congrArg Prod.fst (hblock.close.symm.trans hclose')
  exact hinv

/-- The epochs are in order after every run. -/
theorem Runs.epochInvariant {rule : List BlockInputV2 → CanonicalContextSourceV2 → Prop}
    {chain : List BlockInputV2} {t : BlockTransitionV2} (hp : p.valid = true)
    (h : Runs cr p rule chain t) : EpochInvariant p t.toTransitionCoreV2 :=
  h.invariant (epochInvariant_fresh hp) fun hinv hstep => hinv.step hstep

/-! ## No block fails at an epoch boundary -/

/-- The two ways a block fails at an epoch boundary. -/
def boundaryFailure (status : BlockTransitionStatusV2) : Prop :=
  status = .freezeFailed ∨ status = .qualificationCloseFailed

lemma blockPrecheck_not_boundaryFailure {t : TransitionCoreV2} :
    ¬boundaryFailure (blockPrecheck p t b) := by
  simp only [blockPrecheck]
  split_ifs <;> simp [boundaryFailure]

lemma structuralPass_not_boundaryFailure {majorVersion : UInt8}
    {txs : List BlockTransactionContextV2} {budget : EnvelopeBudgetV2}
    {status : BlockTransitionStatusV2}
    (h : structuralPass p majorVersion txs budget = .error status) : ¬boundaryFailure status := by
  induction txs generalizing budget with
  | nil => simp [structuralPass] at h
  | cons tx txs ih =>
    simp only [structuralPass] at h
    split at h
    · cases h
      simp [boundaryFailure]
    split at h
    · cases h
      simp [boundaryFailure]
    rename_i budget' _
    cases htail : structuralPass p majorVersion txs budget' with
    | error status' =>
      rw [htail] at h
      cases h
      exact ih htail
    | ok result =>
      rw [htail] at h
      cases h

lemma transactionsPhase_not_boundaryFailure {height : UInt64}
    {txs : List (BlockTransactionContextV2 × List EnvelopeRecordV2)} {w : Work}
    {total : SemanticApplySummaryV2} :
    ¬boundaryFailure (transactionsPhase cr p contexts height txs w total).2.1 := by
  induction txs generalizing w total with
  | nil => simp [transactionsPhase, boundaryFailure]
  | cons tx txs ih =>
    simp only [transactionsPhase]
    split
    · simp [boundaryFailure]
    split
    · simp [boundaryFailure]
    · exact ih

lemma EpochInvariant.blockBody_not_boundaryFailure {t : TransitionCoreV2}
    (h : EpochInvariant p t) (hpre : blockPrecheck p t b = .accepted)
    {parsed : List (List EnvelopeRecordV2)} {charged : EnvelopeBudgetV2}
    {undo : SemanticStateV2.UndoJournal} :
    ¬boundaryFailure (blockBody cr p contexts b parsed charged ⟨t.state, undo⟩).2.1 := by
  obtain ⟨w₁, hfreeze, hclose⟩ := h.phases cr hpre undo
  have hevolves := transactionsPhase_evolves cr p contexts b.height (b.transactions.zip parsed)
    w₁ {}
  have hstatus : ¬boundaryFailure (transactionsPhase cr p contexts b.height
    (b.transactions.zip parsed) w₁ {}).2.1 := transactionsPhase_not_boundaryFailure
  simp only [blockBody, hfreeze]
  split
  · rename_i w₂ semantic htransactions
    rw [htransactions] at hevolves
    obtain ⟨w₃, hclose, -⟩ := hclose contexts w₂ hevolves
    rw [hclose]
    split <;> simp [boundaryFailure]
  · rename_i htransactions
    rwa [htransactions] at hstatus

lemma EpochInvariant.applyBlock_not_boundaryFailure {t : BlockTransitionV2}
    (h : EpochInvariant p t.toTransitionCoreV2) :
    ¬boundaryFailure (t.applyBlock cr p contexts b).status := by
  have hfail : ¬boundaryFailure (blockPrecheck p t.toTransitionCoreV2 b) :=
    blockPrecheck_not_boundaryFailure
  simp only [applyBlock]
  cases hpre : blockPrecheck p t.toTransitionCoreV2 b with
  | accepted =>
    cases hstructural : structuralPass p b.majorVersion b.transactions {} with
    | error status => exact structuralPass_not_boundaryFailure hstructural
    | ok result =>
      obtain ⟨parsed, charged⟩ := result
      have hbody : ¬boundaryFailure (blockBody cr p contexts b parsed charged
        ⟨t.state, t.state.checkpoint⟩).2.1 := h.blockBody_not_boundaryFailure hpre
      dsimp only
      split
      · simp [boundaryFailure]
      · rename_i hbody'
        rwa [hbody'] at hbody
  | _ => rwa [hpre] at hfail

/-- **No chain halts at an epoch boundary.**  After any run, no block makes a freeze or a close
fail.  At the next height the modular tests pick exactly the epoch whose committee anchor or
evidence deadline the height is; the epoch to freeze has no snapshot yet, and the epoch to close
has one when the transactions of the block have been applied.  The leases of an epoch are for
distinct identities with distinct service keys, and there are at most `maxActivePopulation`. -/
theorem no_halt_at_epoch_boundary {chain : List BlockInputV2} {t : BlockTransitionV2}
    (hp : p.valid = true) (h : Runs cr p (fun _ _ => True) chain t) :
    (∀ contexts b, (t.applyBlock cr p contexts b).status ≠ .freezeFailed ∧
      (t.applyBlock cr p contexts b).status ≠ .qualificationCloseFailed) ∧
    (∀ height : UInt64, height.toNat = nextHeight p t.toTransitionCoreV2 →
      height.toNat + p.timing.anchorDepth.toNat + 1 < 2 ^ 64 → ∀ epoch,
      (freezeEpoch p height = some epoch ↔ p.timing.committeeAnchor epoch = some height) ∧
      (closeEpoch p height = some epoch ↔ p.timing.evidenceDeadline epoch = some height) ∧
      (freezeEpoch p height = some epoch → epoch ∉ t.state.membership.snapshots) ∧
      (closeEpoch p height = some epoch →
        (∃ firstService, p.timing.firstServiceEpoch = some firstService ∧ firstService ≤ epoch) →
        ∀ contexts b txs w, b.height = height →
        freezePhase cr p b ⟨t.state, t.state.checkpoint⟩ = (w, .accepted) →
        epoch ∈ (transactionsPhase cr p contexts height txs w {}).1.state.membership.snapshots)) ∧
    ∀ epoch,
      (t.state.membership.leases.filter fun stored => stored.lease.targetEpoch = epoch).Pairwise
        (fun left right => left.lease.member.identityId ≠ right.lease.member.identityId ∧
          left.lease.member.servicePublicKey ≠ right.lease.member.servicePublicKey) ∧
      (t.state.membership.leases.filter fun stored => stored.lease.targetEpoch = epoch).length ≤
        p.committeePolicy.maxActivePopulation := by
  have hinv := h.epochInvariant hp
  have hv := timing_valid hp
  refine ⟨fun contexts b => ?_, fun height hheight hfits epoch => ⟨freezeEpoch_eq_some_iff hv, ?_,
    fun hepoch => ?_, fun hepoch hserved contexts b txs w hb hfreeze => ?_⟩, fun epoch => ⟨?_, ?_⟩⟩
  · exact not_or.mp hinv.applyBlock_not_boundaryFailure
  · rw [closeEpoch_eq_some_iff hv, and_iff_left_iff_imp]
    exact fun _ => hfits
  · obtain ⟨hstart, -⟩ := (EpochTimingV2.committeeAnchor_eq_some_iff hv).mp
      ((freezeEpoch_eq_some_iff hv).mp hepoch)
    rw [hinv.frozen epoch, ← hheight]
    omega
  · subst hb
    obtain ⟨firstService, hfirst, hle⟩ := hserved
    have hfrozen := hinv.frozen
    rw [← hheight] at hfrozen
    obtain ⟨w₁, hfreeze₁, hleases₁, -, hfrozen₁⟩ :=
      freezePhase_frozen (w := ⟨t.state, t.state.checkpoint⟩) cr hp hinv.leases hfrozen
    obtain rfl : w = w₁ := congrArg Prod.fst (hfreeze.symm.trans hfreeze₁)
    have hevolves := transactionsPhase_evolves cr p contexts b.height txs w {}
    rw [(hevolves.epochs (hinv.leases.congr hleases₁)).2.1]
    exact mem_snapshots_of_closeEpoch hp hfrozen₁ hepoch hfirst hle
  · rw [List.pairwise_filter]
    refine hinv.leases.distinct.imp fun hdist hleft hright => hdist ?_
    rw [of_decide_eq_true hleft, of_decide_eq_true hright]
  · rw [← List.countP_eq_length_filter]
    exact hinv.leases.population epoch

/-- Block 2 of the concrete run is the anchor of the first service epoch. -/
theorem no_halt_at_epoch_boundary_sample :
    let t := (applyBlock .sample .sample .sample
      (applyBlock .sample .sample .sample {} (.sample 0 1)).transition (.sample 1 2)).transition
    (∀ contexts b, (t.applyBlock .sample .sample contexts b).status ≠ .freezeFailed ∧
      (t.applyBlock .sample .sample contexts b).status ≠ .qualificationCloseFailed) ∧
    freezeEpoch .sample 2 = some 1 ∧ 1 ∉ t.state.membership.snapshots := by
  have h₁ : Runs .sample .sample (fun _ _ => True) [.sample 0 1] _ :=
    @Runs.apply _ _ _ _ _ .sample _ .fresh trivial (by decide +kernel)
  have h₂ : Runs .sample .sample (fun _ _ => True) [.sample 0 1, .sample 1 2] _ :=
    @Runs.apply _ _ _ _ _ .sample _ h₁ trivial (by decide +kernel)
  obtain ⟨hstatus, hnext, -⟩ := no_halt_at_epoch_boundary (by decide) h₂
  have hanchor : freezeEpoch .sample 2 = some 1 := by decide
  exact ⟨hstatus, hanchor, (hnext 2 (by decide +kernel) (by decide) 1).2.2.1 hanchor⟩

end BlockTransitionV2

end Qwertycoin
