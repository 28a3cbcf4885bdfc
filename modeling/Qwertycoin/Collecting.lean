import Qwertycoin.Windows

/-
# Collecting receipts

A member qualifies in a round if enough verifiers of its committee have a receipt for it in the
window of the round.  The committee is large enough by construction, and a receipt of each of its
verifiers passes all checks inside the window.  What can be missing is the window: two offsets that
follow each other directly, or a last offset right before the deadline, leave a round of a valid
configuration without one.
-/

namespace Qwertycoin

open Sorting

namespace MembershipPipelineV2

variable {cr : Crypto} {p : SemanticParametersV2} {m : MembershipPipelineV2}
  {frozen : MembershipSnapshotV2} {epoch round height : UInt64} {anchor : Hash}

/-! ## Members of a snapshot -/

/-- The members of a snapshot stand in the order of their service keys. -/
def Ordered (frozen : MembershipSnapshotV2) : Prop :=
  frozen.members.Pairwise fun left right =>
    Bytes.memLess left.servicePublicKey.data right.servicePublicKey.data = true

lemma Freezes.ordered {anchorHash : Hash} {authorizedMembers : List FrozenMemberV2}
    (h : Freezes cr p m epoch height anchorHash authorizedMembers frozen) : Ordered frozen := by
  obtain ⟨cutoff, -, hdistinct, -, rfl⟩ := h.members
  exact BlockTransitionV2.snapshotOf_sorted hdistinct

/-- A member of a snapshot is the only one with its service key. -/
lemma Ordered.exists_split (h : Ordered frozen) {member : FrozenMemberV2}
    (hmem : member ∈ frozen.members) :
    ∃ before after, frozen.members = before ++ member :: after ∧
      (∀ earlier ∈ before, Bytes.memLess earlier.servicePublicKey.data
        member.servicePublicKey.data = true) ∧
      (∀ other, other ∈ before ∨ other ∈ after →
        other.servicePublicKey ≠ member.servicePublicKey) := by
  obtain ⟨before, after, hsplit⟩ := List.append_of_mem hmem
  rw [Ordered, hsplit, List.pairwise_append, List.pairwise_cons] at h
  have hbefore : ∀ earlier ∈ before, Bytes.memLess earlier.servicePublicKey.data
      member.servicePublicKey.data = true :=
    fun earlier hearlier => h.2.2 earlier hearlier member List.mem_cons_self
  refine ⟨before, after, hsplit, hbefore, ?_⟩
  rintro other (hother | hother) heq
  · have hlt := hbefore other hother
    rw [heq, Bytes.memLess_irrefl] at hlt
    cases hlt
  · have hlt := h.2.1.1 other hother
    rw [heq, Bytes.memLess_irrefl] at hlt
    cases hlt

lemma containsMember_of_mem (h : Ordered frozen) {member : FrozenMemberV2}
    (hmem : member ∈ frozen.members) : containsMember frozen member.servicePublicKey = true := by
  obtain ⟨before, after, hsplit, hbefore, -⟩ := h.exists_split hmem
  have hself := Bytes.memLess_irrefl member.servicePublicKey.data
  rw [containsMember, hsplit, List.dropWhile_append_of_pos hbefore, List.dropWhile_cons_of_neg]
  · simp [hself]
  · simp [hself]

lemma find?_subject (h : Ordered frozen) {subject : FrozenMemberV2}
    (hmem : subject ∈ frozen.members) :
    frozen.members.find? (fun member => member.servicePublicKey = subject.servicePublicKey) =
      some subject := by
  obtain ⟨before, after, hsplit, -, hother⟩ := h.exists_split hmem
  rw [hsplit, List.find?_append, List.find?_eq_none.mpr]
  · simp
  · intro earlier hearlier
    simpa using hother earlier (.inl hearlier)

lemma length_candidates (h : Ordered frozen) {subject : FrozenMemberV2}
    (hmem : subject ∈ frozen.members) :
    (frozen.members.filter fun member =>
      member.servicePublicKey ≠ subject.servicePublicKey).length = frozen.members.length - 1 := by
  obtain ⟨before, after, hsplit, -, hother⟩ := h.exists_split hmem
  have hkeep : ∀ others : List FrozenMemberV2,
      (∀ other ∈ others, other.servicePublicKey ≠ subject.servicePublicKey) →
      others.filter (fun member => member.servicePublicKey ≠ subject.servicePublicKey) =
        others := by
    intro others hne
    rw [List.filter_eq_self]
    intro other hmem
    simpa using hne other hmem
  rw [hsplit, List.filter_append, hkeep before fun other h => hother other (.inl h),
    List.filter_cons_of_neg (by simp), hkeep after fun other h => hother other (.inr h)]
  simp

/-! ## Committees are full -/

/-- A round anchor that a receipt of a round can name. -/
structure Anchors (frozen : MembershipSnapshotV2) (round : UInt64) (anchor : Hash) : Prop where
  not_null : anchor ≠ nullHash
  first : round = 0 → anchor = frozen.anchorHash

/-- The candidates for the committee of a subject, scored and in order. -/
def scored (cr : Crypto) (p : SemanticParametersV2) (frozen : MembershipSnapshotV2)
    (epoch round : UInt64) (subject : PublicKey) (anchor : Hash) : List VerifierAssignmentV2 :=
  ((frozen.members.filter fun member => member.servicePublicKey ≠ subject).map fun member =>
    VerifierAssignmentV2.mk member.servicePublicKey (selectionScore cr p.net frozen epoch round
      anchor subject member.servicePublicKey)).insertionSort fun left right =>
        assignmentLess right left = false

lemma committee_eq (cr : Crypto) (hp : p.membershipValid = true) (hfrozen : m.snapshot epoch = some frozen)
    (hordered : Ordered frozen) (htwo : 2 ≤ frozen.members.length)
    (hround : round < p.committeePolicy.roundCount) (hanchor : Anchors frozen round anchor)
    {subject : FrozenMemberV2} (hmem : subject ∈ frozen.members) :
    m.committee cr p epoch round subject.servicePublicKey anchor =
      (scored cr p frozen epoch round subject.servicePublicKey anchor).take
        p.committeePolicy.committeeSize := by
  rw [committee, hfrozen]
  dsimp only
  rw [if_neg]
  · rfl
  have hfirst : ¬(round = 0 ∧ anchor ≠ frozen.anchorHash) := fun h => h.2 (hanchor.first h.1)
  simp only [hp, containsMember_of_mem hordered hmem, hanchor.not_null, Bool.or_eq_true,
    Bool.not_true, Bool.false_eq_true, decide_eq_true_eq, Bool.and_eq_true, hfirst, or_false,
    false_or, not_or, UInt64.not_le, not_le]
  exact ⟨hround, htwo⟩

lemma length_scored (hordered : Ordered frozen) {subject : FrozenMemberV2}
    (hmem : subject ∈ frozen.members) :
    (scored cr p frozen epoch round subject.servicePublicKey anchor).length =
      frozen.members.length - 1 := by
  rw [scored, List.length_insertionSort, List.length_map, length_candidates hordered hmem]

lemma mem_scored_iff {subject : PublicKey} {assignment : VerifierAssignmentV2} :
    assignment ∈ scored cr p frozen epoch round subject anchor →
      ∃ member ∈ frozen.members, member.servicePublicKey = assignment.verifierPublicKey := by
  intro h
  rw [scored, List.mem_insertionSort, List.mem_map] at h
  obtain ⟨member, hmem, rfl⟩ := h
  exact ⟨member, (List.mem_filter.mp hmem).1, rfl⟩

lemma nodup_scored (hordered : Ordered frozen) {subject : PublicKey} :
    ((scored cr p frozen epoch round subject anchor).map (·.verifierPublicKey)).Nodup := by
  have hkeys : ((frozen.members.filter fun member => member.servicePublicKey ≠ subject).map
      (·.servicePublicKey)).Nodup := by
    refine List.pairwise_map.mpr ((hordered.sublist List.filter_sublist).imp ?_)
    intro left right hlt heq
    rw [heq, Bytes.memLess_irrefl] at hlt
    cases hlt
  refine (List.Perm.nodup_iff ((List.perm_insertionSort _ _).map _)).mpr ?_
  rw [List.map_map]
  exact hkeys

/-! ## Receipts that pass -/

/-- A challenge of a verifier to a subject in a round, as the pipeline expects it. -/
structure Challenges (p : SemanticParametersV2) (frozen : MembershipSnapshotV2)
    (epoch round : UInt64) (anchor : Hash) (subject : FrozenMemberV2) (verifier : PublicKey)
    (challenge : ServiceChallengeV2) : Prop where
  serviceKind : challenge.serviceKind = p.committeePolicy.serviceKind
  endpoint : challenge.endpointDescriptorHash = subject.endpointDescriptorHash
  epoch : challenge.epoch = epoch
  round : challenge.round = round
  snapshotHash : challenge.snapshotHash = frozen.snapshotHash
  anchorHash : challenge.anchorHash = anchor
  subject : challenge.subjectPublicKey = subject.servicePublicKey
  verifier : challenge.verifierPublicKey = verifier

/-- Inside its window, a receipt of a verifier of the committee passes the checks that come before
the signatures. -/
lemma receiptPrecheck_of_committee (hp : p.membershipValid = true)
    (hfrozen : m.snapshot epoch = some frozen) (hordered : Ordered frozen)
    (htwo : 2 ≤ frozen.members.length) (hround : round < p.committeePolicy.roundCount)
    (hanchor : Anchors frozen round anchor) {subject : FrozenMemberV2}
    (hmem : subject ∈ frozen.members) {first last : UInt64}
    (hwindow : receiptInclusionWindowV2 p.timing p.committeePolicy epoch round =
      some (first, last)) (hfirst : first ≤ height) (hlast : height ≤ last)
    {assignment : VerifierAssignmentV2}
    (hassignment : assignment ∈ m.committee cr p epoch round subject.servicePublicKey anchor)
    {receipt : AuthenticatedServiceReceiptV2}
    (h : Challenges p frozen epoch round anchor subject assignment.verifierPublicKey
      receipt.challenge) :
    receiptPrecheck cr p m receipt height anchor = .accepted := by
  have hverifier : containsMember frozen assignment.verifierPublicKey = true := by
    rw [committee_eq cr hp hfrozen hordered htwo hround hanchor hmem] at hassignment
    obtain ⟨member, hmember, hkey⟩ := mem_scored_iff (List.mem_of_mem_take hassignment)
    rw [← hkey]
    exact containsMember_of_mem hordered hmember
  have hselected : (m.committee cr p epoch round subject.servicePublicKey anchor).any
      (fun selected => selected.verifierPublicKey = assignment.verifierPublicKey) = true :=
    List.any_eq_true.mpr ⟨assignment, hassignment, by simp⟩
  have hcontext : ¬(receipt.challenge.snapshotHash ≠ frozen.snapshotHash ∨ anchor = nullHash ∨
      receipt.challenge.anchorHash ≠ anchor ∨
      (receipt.challenge.round = 0 ∧ receipt.challenge.anchorHash ≠ frozen.anchorHash)) := by
    rw [h.snapshotHash, h.anchorHash, h.round]
    rintro (hne | hnull | hne | ⟨hzero, hne⟩)
    · exact hne rfl
    · exact hanchor.not_null hnull
    · exact hne rfl
    · exact hne (hanchor.first hzero)
  unfold receiptPrecheck
  dsimp only
  rw [if_neg (by simp [hp]), if_neg (by simp [h.serviceKind]), h.epoch, hfrozen]
  dsimp only
  rw [if_neg hcontext, h.round, hwindow]
  dsimp only
  rw [if_neg (UInt64.not_lt.mpr hfirst), if_neg (UInt64.not_lt.mpr hlast), h.subject,
    find?_subject hordered hmem]
  dsimp only
  rw [if_neg (by simp [h.endpoint]), h.verifier, if_neg (by simp [hverifier]), h.anchorHash,
    if_neg (by simp [hselected])]

/-- A member can collect the receipts it needs in a round: its committee has enough verifiers, no
two of them the same, and at some height a signed receipt of any of them is stored. -/
def CanCollect (cr : Crypto) (p : SemanticParametersV2) (m : MembershipPipelineV2)
    (frozen : MembershipSnapshotV2) (epoch round : UInt64) (subject : FrozenMemberV2) : Prop :=
  ∃ height, ∀ anchor, Anchors frozen round anchor →
    let committee := m.committee cr p epoch round subject.servicePublicKey anchor
    requiredReceiptsForCommitteeSizeV2
        (min p.committeePolicy.committeeSize (frozen.members.length - 1)) ≤ committee.length ∧
      (committee.map (·.verifierPublicKey)).Nodup ∧
      ∀ assignment ∈ committee, ∀ receipt : AuthenticatedServiceReceiptV2,
        Challenges p frozen epoch round anchor subject assignment.verifierPublicKey
          receipt.challenge →
        (validateAuthenticatedServiceReceiptV2 cr p.net receipt).1 = true →
        m.receipts.find? (fillsSlot receipt.challenge) = none → epoch ∉ m.qualifications →
        (m.receiptStatus cr p receipt height anchor).1 = .accepted

lemma canCollect_of_window (hp : p.membershipValid = true)
    (hfrozen : m.snapshot epoch = some frozen) (hordered : Ordered frozen)
    (htwo : 2 ≤ frozen.members.length) (hround : round < p.committeePolicy.roundCount)
    {subject : FrozenMemberV2} (hmem : subject ∈ frozen.members) {first last : UInt64}
    (hwindow : receiptInclusionWindowV2 p.timing p.committeePolicy epoch round =
      some (first, last)) (hle : first ≤ last) :
    CanCollect cr p m frozen epoch round subject := by
  refine ⟨first, fun anchor hanchor => ?_⟩
  have hcommittee := committee_eq cr hp hfrozen hordered htwo hround hanchor hmem
  refine ⟨?_, ?_, ?_⟩
  · rw [hcommittee, List.length_take, length_scored hordered hmem,
      requiredReceiptsForCommitteeSizeV2]
    exact Nat.sub_le _ _
  · rw [hcommittee]
    exact (nodup_scored hordered).sublist ((List.take_sublist _ _).map _)
  · intro assignment hassignment receipt hchallenge hvalid hfree hopen
    refine receiptStatus_eq_accepted_iff.mpr ⟨?_, hvalid, hfree, hchallenge.epoch ▸ hopen⟩
    exact receiptPrecheck_of_committee hp hfrozen hordered htwo hround hanchor hmem hwindow
      (UInt64.le_refl _) hle hassignment hchallenge

end MembershipPipelineV2

/-! ## Rounds without a window -/

namespace SemanticParametersV2

variable {p : SemanticParametersV2} {epoch round : UInt64}

/-- Every round after the first leaves a block between its anchor and the next, or the
deadline. -/
def RoundsSpaced (p : SemanticParametersV2) : Prop :=
  ∀ round offset, 1 ≤ round → p.committeePolicy.roundOffsets[round]? = some offset →
    match p.committeePolicy.roundOffsets[round + 1]? with
    | some next => offset.toNat + 2 ≤ next.toNat
    | none => offset.toNat + p.timing.depth + 2 ≤ p.timing.len

lemma exists_window_iff (hp : p.RoundsFit) {offset : UInt64}
    (hoffset : p.committeePolicy.roundOffsets[round.toNat]? = some offset)
    (hfits : (epoch.toNat + 1) * p.timing.len ≤ 2 ^ 64) :
    (∃ first last, receiptInclusionWindowV2 p.timing p.committeePolicy epoch round =
        some (first, last)) ↔
      (1 ≤ round.toNat →
        match p.committeePolicy.roundOffsets[round.toNat + 1]? with
        | some next => offset.toNat + 2 ≤ next.toNat
        | none => offset.toNat + p.timing.depth + 2 ≤ p.timing.len) := by
  obtain ⟨lower, upper, hlower, hupper, heq⟩ := receiptInclusionWindowV2_eq hp hoffset hfits
  have hordered : (∃ first last, receiptInclusionWindowV2 p.timing p.committeePolicy epoch round =
      some (first, last)) ↔ lower.toNat ≤ upper.toNat := by
    rw [← UInt64.le_iff_toNat_le]
    simp only [heq, ordered_eq_some_iff]
    constructor
    · rintro ⟨first, last, rfl, rfl, hle⟩
      exact hle
    · intro hle
      exact ⟨lower, upper, rfl, rfl, hle⟩
  rw [hordered, hlower, hupper, windowStart]
  have hinside := hp.getElem?_inside hoffset
  have hmul := Nat.add_one_mul epoch.toNat p.timing.len
  cases hnext : p.committeePolicy.roundOffsets[round.toNat + 1]? with
  | none =>
    rw [windowEnd]
    split_ifs <;> omega
  | some next =>
    have hincreasing := hp.getElem?_lt hoffset hnext (Nat.lt_succ_self _)
    rw [windowEnd]
    dsimp only
    split_ifs <;> omega

end SemanticParametersV2

open SemanticParametersV2 MembershipPipelineV2 in
/-- **Receipts can be collected in all rounds only if the rounds leave a block each.**  In an epoch
whose boundaries do not overflow, every round has a window, and every member of a snapshot of at
least two members can collect its receipts there, exactly when the offsets of the later rounds are
two or more apart and the last of them leaves a block before the evidence deadline. -/
theorem receipts_collectable_iff_rounds_spaced {p : SemanticParametersV2}
    (hp : p.membershipValid = true) {epoch finish : UInt64}
    (hfinish : p.timing.epochEnd epoch = some finish) :
    (∀ round < p.committeePolicy.roundCount,
      (∃ first last, receiptInclusionWindowV2 p.timing p.committeePolicy epoch round =
        some (first, last) ∧ first ≤ last) ∧
      ∀ cr m₀ height anchorHash members frozen,
        Freezes cr p m₀ epoch height anchorHash members frozen → 2 ≤ frozen.members.length →
        ∀ m : MembershipPipelineV2, m.snapshot epoch = some frozen →
        ∀ subject ∈ frozen.members, CanCollect cr p m frozen epoch round subject) ↔
      p.RoundsSpaced := by
  have hfit := roundsFit hp
  have hfits : (epoch.toNat + 1) * p.timing.len ≤ 2 ^ 64 := by
    have hend := (EpochTimingV2.epochEnd_eq_some_iff hfit.timing).mp hfinish
    have hlt := finish.toNat_lt
    omega
  constructor
  · intro h round offset hone hoffset
    have hlength := (List.getElem?_eq_some_iff.mp hoffset).1
    rw [hfit.length] at hlength
    have hcount := p.committeePolicy.roundCount.toNat_lt
    have hround := toNat_ofNat_of_fits (hlength.trans hcount)
    obtain ⟨⟨first, last, hwindow, -⟩, -⟩ := h (UInt64.ofNat round)
      (UInt64.lt_iff_toNat_lt.mpr (by rwa [hround]))
    rw [← hround] at hoffset hone
    have hspaced := (exists_window_iff hfit hoffset hfits).mp ⟨first, last, hwindow⟩ hone
    rwa [hround] at hspaced
  · intro hspaced round hround
    obtain ⟨offset, hoffset⟩ :
        ∃ offset, p.committeePolicy.roundOffsets[round.toNat]? = some offset :=
      ⟨_, List.getElem?_eq_getElem (by rw [hfit.length]; exact UInt64.lt_iff_toNat_lt.mp hround)⟩
    obtain ⟨first, last, hwindow⟩ := (exists_window_iff hfit hoffset hfits).mpr
      fun hone => hspaced round.toNat offset hone hoffset
    obtain ⟨-, -, -, -, -, hle⟩ := (receiptInclusionWindowV2_eq_some_iff hfit).mp hwindow
    have hle := UInt64.le_iff_toNat_le.mpr hle
    refine ⟨⟨first, last, hwindow, hle⟩, ?_⟩
    intro cr m₀ height anchorHash members frozen hfreezes htwo m hsnapshot subject hmem
    exact canCollect_of_window hp hsnapshot hfreezes.ordered htwo hround hmem hwindow hle

open SemanticParametersV2 MembershipPipelineV2 in
/-- With offsets 0, 3 and 6 the second round of epoch 1 has a window. -/
theorem receipts_collectable_sample :
    (sampleRounds [0, 3, 6]).RoundsSpaced ∧
      ∃ first last, receiptInclusionWindowV2 (sampleRounds [0, 3, 6]).timing
        (sampleRounds [0, 3, 6]).committeePolicy 1 1 = some (first, last) ∧ first ≤ last := by
  have hspaced : (sampleRounds [0, 3, 6]).RoundsSpaced := by
    rintro (_ | _ | _ | round) offset hone hoffset
    · cases hone
    · obtain rfl := Option.some.inj hoffset
      show (3 : UInt64).toNat + 2 ≤ (6 : UInt64).toNat
      decide
    · obtain rfl := Option.some.inj hoffset
      show (6 : UInt64).toNat + (2 : UInt64).toNat + 2 ≤ (10 : UInt64).toNat
      decide
    · cases hoffset
  exact ⟨hspaced, ((receipts_collectable_iff_rounds_spaced (by decide +kernel)
    (show (sampleRounds [0, 3, 6]).timing.epochEnd 1 = some 19 by decide +kernel)).mpr hspaced 1
      (by decide)).1⟩

open SemanticParametersV2 in
/-- Two valid configurations whose second round has no window: in one the third anchor follows the
second directly, in the other the second anchor is the last block but one before the deadline. -/
theorem round_without_window :
    (sampleRounds [0, 3, 4]).membershipValid = true ∧
      (sampleRounds [0, 3, 4]).timing.firstServiceEpoch = some 1 ∧
      (sampleRounds [0, 3, 4]).timing.epochEnd 1 = some 19 ∧
      (1 : UInt64) < (sampleRounds [0, 3, 4]).committeePolicy.roundCount ∧
      receiptInclusionWindowV2 (sampleRounds [0, 3, 4]).timing
        (sampleRounds [0, 3, 4]).committeePolicy 1 1 = none ∧
    (sampleRounds [0, 7]).membershipValid = true ∧
      receiptInclusionWindowV2 (sampleRounds [0, 7]).timing
        (sampleRounds [0, 7]).committeePolicy 1 1 = none := by
  decide +kernel

end Qwertycoin
