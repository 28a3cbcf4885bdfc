import Qwertycoin.Windows

/-
# Diagnostics of an operator

An operator asks the node how the qualification of an epoch stands.  The node counts the receipts
stored so far in the way the close will count them.  It answers only when the epoch has begun and
its deadline is a height; until then no receipt of the epoch can have been stored, so the zero it
reports is the count as well.
-/

namespace Qwertycoin

open Bytes

/-! ## The report -/

/-- `receipt_coverage` -/
def MembershipPipelineV2.receiptCoverage (m : MembershipPipelineV2) (roundCount epoch : UInt64)
    (subjectPublicKey : PublicKey) : List ℕ :=
  (List.range roundCount.toNat).map fun round =>
    m.voterCount epoch (UInt64.ofNat round) subjectPublicKey

/-- `qualification_diagnostics_v2` -/
structure QualificationDiagnosticsV2 where
  available : Bool := false
  finalized : Bool := false
  qualified : Bool := false
  subjectInSnapshot : Bool := false
  epoch : UInt64 := 0
  chainHeight : UInt64 := 0
  evidenceDeadlineHeight : UInt64 := 0
  roundsRequired : ℕ := 0
  roundsPassed : ℕ := 0
  roundsRemaining : ℕ := 0
  subjectIdentity : PublicKey := nullPkey
  canonicalUniqueReceipts : List ℕ := []
  committeeSizes : List ℕ := []
  requiredReceipts : List ℕ := []

/-- The part of `get_epose_v2_diagnostics` behind its checks, for the snapshot of an epoch. -/
def qualificationReport (p : ConsensusParametersV2) (m : MembershipPipelineV2) (identityId : Hash)
    (height epoch deadline : UInt64) (snapshot : MembershipSnapshotV2) :
    QualificationDiagnosticsV2 :=
  let historicalMember := snapshot.members.find? fun member => member.identityId = identityId
  let subjectInSnapshot := historicalMember.isSome
  let subjectIdentity := (historicalMember.map (·.servicePublicKey)).getD nullPkey
  let coverage :=
    if subjectInSnapshot then m.receiptCoverage p.committeePolicy.roundCount epoch subjectIdentity
    else List.replicate p.committeePolicy.roundCount.toNat 0
  let roundsRequired := p.committeePolicy.roundsRequired.toNat
  let committeeSize :=
    if 1 < snapshot.members.length then
      min p.committeePolicy.committeeSize (snapshot.members.length - 1)
    else 0
  let required := requiredReceiptsForCommitteeSizeV2 committeeSize
  let roundsPassed := coverage.countP fun count =>
    subjectInSnapshot && required ≤ count && required ≠ 0
  let finalized := m.qualification epoch
  { available := true
    finalized := finalized.isSome
    qualified := finalized.any fun closed => closed.qualifiedNodes.contains subjectIdentity
    subjectInSnapshot, epoch
    chainHeight := height
    evidenceDeadlineHeight := deadline
    roundsRequired, roundsPassed
    roundsRemaining := if roundsRequired ≤ roundsPassed then 0 else roundsRequired - roundsPassed
    subjectIdentity
    canonicalUniqueReceipts := coverage
    committeeSizes := coverage.map fun _ => if subjectInSnapshot then committeeSize else 0
    requiredReceipts := coverage.map fun _ => if subjectInSnapshot then required else 0 }

/-- `get_epose_v2_diagnostics`, without the counters of the relay pool: the report for the local
identity at the height of the chain. -/
def getEposeV2Diagnostics (serviceReady : Bool) (identityId : Hash)
    (eposeV2 : Option (ConsensusParametersV2 × MembershipPipelineV2))
    (height requestedEpoch : UInt64) : QualificationDiagnosticsV2 :=
  match serviceReady, eposeV2 with
  | true, some (p, m) =>
    if height < p.timing.activationHeight then {}
    else
      let currentEpoch := (height - p.timing.activationHeight) / p.timing.epochLength
      let epoch := if requestedEpoch = uint64Max then currentEpoch else requestedEpoch
      if currentEpoch < epoch then {}
      else
        match p.timing.evidenceDeadline epoch with
        | none => { epoch, chainHeight := height }
        | some deadline =>
          match m.snapshot epoch with
          | none => { epoch, chainHeight := height, evidenceDeadlineHeight := deadline }
          | some snapshot => qualificationReport p m identityId height epoch deadline snapshot
  | _, _ => {}

/-! ## The receipts of an epoch -/

namespace SemanticStateV2

open MembershipPipelineV2

variable {cr : Crypto} {p : SemanticParametersV2} {contexts : CanonicalContextSourceV2}
  {height : UInt64} {n : ℕ} {s s' : SemanticStateV2}

/-- The receipts of a state below a height: they count for what is closed, and each was included
in the window of its round. -/
structure Tallied (p : SemanticParametersV2) (n : ℕ) (s : SemanticStateV2) : Prop where
  counted : s.membership.Counted p
  included : ∀ stored ∈ s.membership.receipts, ∃ first last,
    receiptInclusionWindowV2 p.timing p.committeePolicy stored.epoch stored.round =
      some (first, last) ∧ first ≤ stored.inclusionHeight ∧ stored.inclusionHeight.toNat < n

lemma tallied_fresh : Tallied p n {} :=
  ⟨counted_fresh, by simp⟩

lemma Tallied.mono (h : s.Tallied p n) {n' : ℕ} (hle : n ≤ n') : s.Tallied p n' := by
  refine ⟨h.counted, fun stored hmem => ?_⟩
  obtain ⟨first, last, hwindow, hfirst, hlt⟩ := h.included stored hmem
  exact ⟨first, last, hwindow, hfirst, hlt.trans_le hle⟩

lemma Tallied.congr (h : s.Tallied p n)
    (hreceipts : s'.membership.receipts = s.membership.receipts)
    (hqualifications : s'.membership.qualifications = s.membership.qualifications)
    (hsnapshots : ∀ epoch ∈ s.membership.snapshots,
      s'.membership.snapshot epoch = s.membership.snapshot epoch) : s'.Tallied p n :=
  ⟨h.counted.congr hreceipts hqualifications hsnapshots, by rw [hreceipts]; exact h.included⟩

lemma Evolves.tallied (h : Evolves cr p contexts height s s')
    (hs : s.Tallied p (height.toNat + 1)) : s'.Tallied p (height.toNat + 1) := by
  refine h.invariant (fun {s undo s' undo'} hstep hs => ?_) hs
  cases hstep with
  | lifecycle => exact hs.congr rfl rfl fun _ _ => rfl
  | admission =>
    exact hs.congr (by simp) (by simp) fun epoch _ => by rw [snapshot, storeLease_snapshots, snapshot]
  | @receipt _ _ receipt _ _ hacc =>
    refine ⟨hs.counted.addReceipt hacc, fun stored hmem => ?_⟩
    obtain hmem | hmem := List.mem_append.mp hmem
    · exact hs.included stored hmem
    · obtain rfl := List.mem_singleton.mp hmem
      obtain ⟨first, last, hwindow, hfirst, -⟩ :=
        (receiptFits_of_precheck hacc.precheck).in_window
      exact ⟨first, last, hwindow, hfirst, Nat.lt_succ_self _⟩

lemma Evolves.receipts_subset (h : Evolves cr p contexts height s s') :
    s.membership.receipts ⊆ s'.membership.receipts := by
  refine h.invariant (P := fun s' => s.membership.receipts ⊆ s'.membership.receipts)
    (fun {s₁ undo s₂ undo'} hstep hs => ?_) (List.Subset.refl _)
  cases hstep with
  | lifecycle => exact hs
  | admission => simpa using hs
  | receipt => exact fun stored hmem => List.mem_append_left _ (hs hmem)

lemma Evolves.receipts_closed {epoch : UInt64} (h : Evolves cr p contexts height s s')
    (hclosed : epoch ∈ s.membership.qualifications) :
    s'.membership.receipts.filter (·.epoch = epoch) =
      s.membership.receipts.filter (·.epoch = epoch) := by
  refine (h.invariant (P := fun s' => epoch ∈ s'.membership.qualifications ∧
    s'.membership.receipts.filter (·.epoch = epoch) =
      s.membership.receipts.filter (·.epoch = epoch))
    (fun {s₁ undo s₂ undo'} hstep hs => ?_) ⟨hclosed, rfl⟩).2
  obtain ⟨hmem, heq⟩ := hs
  cases hstep with
  | lifecycle => exact ⟨hmem, heq⟩
  | admission => exact ⟨by simpa using hmem, by simpa using heq⟩
  | @receipt _ _ receipt _ _ hacc =>
    refine ⟨hmem, ?_⟩
    have hne : receipt.challenge.epoch ≠ epoch := by
      rintro rfl
      exact hacc.still_open hmem
    show (s₁.membership.receipts ++ [_]).filter _ = _
    rw [List.filter_append, heq, List.filter_cons_of_neg (by simp [storedReceipt, hne]),
      List.filter_nil, List.append_nil]

end SemanticStateV2

namespace BlockTransitionV2

open MembershipPipelineV2

variable {cr : Crypto} {p : TransitionParametersV2} {call : Call} {core core' : TransitionCoreV2}
  {entry : UndoEntry} {epoch : UInt64}

lemma BlockAccepted.evolves {contexts : CanonicalContextSourceV2} {b : BlockInputV2}
    {parsed : List (List EnvelopeRecordV2)} {summary : BlockApplySummaryV2} {w₁ w₂ w₃ : Work}
    (h : BlockAccepted cr p contexts core b parsed summary w₁ w₂ w₃) :
    SemanticStateV2.Evolves cr p.toSemanticParametersV2 contexts b.height w₁.state w₂.state := by
  have hevolves := transactionsPhase_evolves cr p contexts b.height (b.transactions.zip parsed) w₁ {}
  rwa [h.transactions] at hevolves

lemma tallied_step (h : core.state.Tallied p.toSemanticParametersV2 (nextHeight p core))
    (hstep : stepCore cr p call core = some (core', entry)) :
    core'.state.Tallied p.toSemanticParametersV2 (nextHeight p core') := by
  obtain ⟨parsed, summary, w₁, w₂, w₃, hblock, rfl, -⟩ := stepCore_eq_some_iff.mp hstep
  have hp := membershipValid_of_valid (valid_of_blockPrecheck hblock.precheck)
  rw [← height_eq_nextHeight hblock.precheck] at h
  obtain ⟨hqualifications, hsnapshots⟩ := hblock.freeze_keeps
  have h₁ := h.congr hblock.freeze_frame.2.2 hqualifications hsnapshots
  have h₂ := hblock.evolves.tallied (h₁.mono (Nat.le_succ _))
  have hheight : nextHeight p { state := w₃.state, haveTip := true, tipHeight := call.2.height } =
      call.2.height.toNat + 1 := if_pos rfl
  rw [hheight]
  obtain ⟨status, -, hstatus, hphase, -⟩ | ⟨hphase, -⟩ | ⟨epoch, closed, -, -, hcloses, hphase⟩ :=
    closePhase_cases cr hp call.2 w₂ <;>
    obtain ⟨rfl, heq⟩ := Prod.mk.inj (hblock.close.symm.trans hphase)
  · exact absurd heq.symm hstatus
  · exact h₂
  · exact ⟨h₂.counted.close hcloses w₂.undo.membership, h₂.included⟩

/-- Every accepted block keeps the receipts and the snapshots that are there. -/
lemma receipts_snapshot_step (hinv : EpochInvariant p core)
    (hstep : stepCore cr p call core = some (core', entry)) :
    core.state.membership.receipts ⊆ core'.state.membership.receipts ∧
      ∀ epoch ∈ core.state.membership.snapshots,
        core'.state.membership.snapshot epoch = core.state.membership.snapshot epoch := by
  obtain ⟨parsed, summary, w₁, w₂, w₃, hblock, rfl, -⟩ := stepCore_eq_some_iff.mp hstep
  obtain ⟨-, hleases, hreceipts⟩ := hblock.freeze_frame
  obtain ⟨-, -, hreceipts', hsnapshots'⟩ := hblock.close_frame
  have hevolves := hblock.evolves
  constructor
  · show _ ⊆ w₃.state.membership.receipts
    rw [hreceipts', ← hreceipts]
    exact hevolves.receipts_subset
  · intro epoch hmem
    show w₃.state.membership.snapshot epoch = _
    rw [snapshot, hsnapshots', (hevolves.epochs (hinv.leases.congr hleases)).2.1]
    exact hblock.freeze_keeps.2 epoch hmem

lemma nextHeight_step (hstep : stepCore cr p call core = some (core', entry)) :
    nextHeight p core < nextHeight p core' := by
  obtain ⟨parsed, summary, w₁, w₂, w₃, hblock, rfl, -⟩ := stepCore_eq_some_iff.mp hstep
  rw [← height_eq_nextHeight hblock.precheck]
  exact Nat.lt_succ_self _

lemma receipts_closed_step (hclosed : epoch ∈ core.state.membership.qualifications)
    (hstep : stepCore cr p call core = some (core', entry)) :
    core'.state.membership.receipts.filter (·.epoch = epoch) =
      core.state.membership.receipts.filter (·.epoch = epoch) := by
  obtain ⟨parsed, summary, w₁, w₂, w₃, hblock, rfl, -⟩ := stepCore_eq_some_iff.mp hstep
  show w₃.state.membership.receipts.filter _ = _
  rw [hblock.close_frame.2.2.1, hblock.evolves.receipts_closed (hblock.freeze_keeps.1 ▸ hclosed),
    hblock.freeze_frame.2.2]

end BlockTransitionV2

/-! ## Counting rounds -/

namespace MembershipPipelineV2

variable {m m' : MembershipPipelineV2} {policy : CommitteePolicyV2} {epoch round : UInt64}
  {members : List FrozenMemberV2} {subject : PublicKey}

/-- The rounds that `close_qualification` counts for a member; with fewer than two members it
counts none. -/
def countedRounds (m : MembershipPipelineV2) (policy : CommitteePolicyV2) (epoch : UInt64)
    (members : List FrozenMemberV2) (subject : PublicKey) : ℕ :=
  if members.length ≤ 1 then 0
  else m.passingRounds policy.roundCount epoch
    (requiredReceiptsForCommitteeSizeV2 (min policy.committeeSize (members.length - 1))) subject

lemma mem_qualifiedNodes_iff (hrequired : 0 < policy.roundsRequired.toNat) :
    subject ∈ m.qualifiedNodes policy epoch members ↔
      subject ∈ members.map (·.servicePublicKey) ∧
        policy.roundsRequired.toNat ≤ m.countedRounds policy epoch members subject := by
  rw [qualifiedNodes, countedRounds]
  split_ifs
  · simp only [List.not_mem_nil, false_iff, not_and]
    omega
  · rw [List.mem_filter, decide_eq_true_eq]

lemma voterCount_congr
    (h : m'.receipts.filter (·.epoch = epoch) = m.receipts.filter (·.epoch = epoch)) :
    m'.voterCount epoch round subject = m.voterCount epoch round subject := by
  have hfilter : ∀ receipts : List StoredReceipt, receipts.filter (fun stored =>
      stored.epoch = epoch && stored.round = round && stored.subjectPublicKey = subject) =
      (receipts.filter (·.epoch = epoch)).filter fun stored =>
        stored.round = round && stored.subjectPublicKey = subject := by
    intro receipts
    rw [List.filter_filter]
    refine List.filter_congr fun stored _ => ?_
    ac_rfl
  rw [voterCount, voterCount, hfilter, hfilter, h]

lemma countedRounds_congr
    (h : m'.receipts.filter (·.epoch = epoch) = m.receipts.filter (·.epoch = epoch)) :
    m'.countedRounds policy epoch members subject = m.countedRounds policy epoch members subject := by
  simp only [countedRounds, passingRounds, voterCount_congr h]

lemma countedRounds_mono (h : m.receipts ⊆ m'.receipts) :
    m.countedRounds policy epoch members subject ≤ m'.countedRounds policy epoch members subject := by
  have hvoters : ∀ round, m.voterCount epoch round subject ≤ m'.voterCount epoch round subject := by
    intro round
    refine ((List.nodup_dedup _).subperm fun verifier hverifier => ?_).length_le
    rw [List.mem_dedup, mem_counted_iff] at hverifier ⊢
    obtain ⟨stored, hmem, hslot⟩ := hverifier
    exact ⟨stored, h hmem, hslot⟩
  rw [countedRounds, countedRounds]
  split_ifs
  · exact le_rfl
  · exact List.countP_mono_left fun round _ hpass => by
      rw [decide_eq_true_eq] at hpass ⊢
      exact hpass.trans (hvoters _)

lemma countedRounds_eq_zero (hsize : 0 < policy.committeeSize)
    (h : ∀ stored ∈ m.receipts, stored.epoch ≠ epoch) :
    m.countedRounds policy epoch members subject = 0 := by
  have hvoters : ∀ round, m.voterCount epoch round subject = 0 := by
    intro round
    rw [voterCount, List.filter_eq_nil_iff.mpr fun stored hmem => by simp [h stored hmem]]
    rfl
  rw [countedRounds]
  split_ifs with hsmall
  · rfl
  · rw [passingRounds, List.countP_eq_zero]
    intro round _
    rw [decide_eq_true_eq, hvoters, requiredReceiptsForCommitteeSizeV2]
    omega

end MembershipPipelineV2

/-! ## The report as a count -/

namespace ConsensusCoordinatorV2

open BlockTransitionV2 (nextHeight EpochInvariant)
open MembershipPipelineV2

variable {cr : Crypto} {p : ConsensusParametersV2} {m : MembershipPipelineV2} {identityId : Hash}
  {height epoch deadline : UInt64} {snapshot : MembershipSnapshotV2} {member : FrozenMemberV2}
  {t t' : BlockTransitionV2} {chain : List CoordinatorBlockV2}

/-- What the constructor of the coordinator has checked, as far as the report needs it. -/
structure Reportable (p : ConsensusParametersV2) : Prop where
  transition : p.toTransitionParametersV2.valid = true
  activation : p.timing.activationHeight = 0
  size : 0 < p.committeePolicy.committeeSize
  rounds : 0 < p.committeePolicy.roundsRequired.toNat

lemma reportable (hp : p.valid = true) : Reportable p := by
  simp only [ConsensusParametersV2.valid, ConsensusParametersV2.parametersValid,
    Bool.and_eq_true, decide_eq_true_eq] at hp
  obtain ⟨⟨⟨⟨⟨⟨⟨⟨-, hactivation⟩, -⟩, hpolicy⟩, -⟩, -⟩, -⟩, -⟩, htransition⟩ := hp
  simp only [CommitteePolicyV2.valid, Bool.and_eq_true, decide_eq_true_eq] at hpolicy
  obtain ⟨⟨⟨⟨⟨⟨⟨⟨⟨⟨hsize, -⟩, -⟩, -⟩, hrounds⟩, -⟩, -⟩, -⟩, -⟩, -⟩, -⟩ := hpolicy
  exact ⟨htransition, hactivation, hsize, UInt64.lt_iff_toNat_lt.mp hrounds⟩

lemma report_roundsPassed (hp : Reportable p) (m : MembershipPipelineV2)
    (height epoch deadline : UInt64)
    (hmember : snapshot.members.find? (fun member => member.identityId = identityId) =
      some member) :
    (qualificationReport p m identityId height epoch deadline snapshot).roundsPassed =
      m.countedRounds p.committeePolicy epoch snapshot.members member.servicePublicKey := by
  have hsize := hp.size
  simp only [qualificationReport, hmember, Option.isSome_some, if_true, Option.map_some,
    Option.getD_some, receiptCoverage, List.countP_map, Bool.true_and]
  rw [countedRounds]
  by_cases hsmall : snapshot.members.length ≤ 1
  · rw [if_pos hsmall, List.countP_eq_zero]
    intro round _
    simp [Nat.not_lt.mpr hsmall, requiredReceiptsForCommitteeSizeV2]
  · rw [if_neg hsmall, if_pos (Nat.not_le.mp hsmall), passingRounds]
    refine List.countP_congr fun round _ => ?_
    have hpos : requiredReceiptsForCommitteeSizeV2
        (min p.committeePolicy.committeeSize (snapshot.members.length - 1)) ≠ 0 := by
      rw [requiredReceiptsForCommitteeSizeV2]
      omega
    simp [hpos]

lemma report_roundsPassed_of_none
    (hmember : snapshot.members.find? (fun member => member.identityId = identityId) = none) :
    (qualificationReport p m identityId height epoch deadline snapshot).roundsPassed = 0 := by
  simp [qualificationReport, hmember]

lemma report_roundsRemaining :
    (qualificationReport p m identityId height epoch deadline snapshot).roundsRemaining =
      if p.committeePolicy.roundsRequired.toNat ≤
          (qualificationReport p m identityId height epoch deadline snapshot).roundsPassed then 0
      else p.committeePolicy.roundsRequired.toNat -
        (qualificationReport p m identityId height epoch deadline snapshot).roundsPassed :=
  rfl

/-- The report is the count behind the checks, or empty when one of them fails. -/
lemma diagnostics_cases (hp : Reportable p) (hepoch : epoch ≠ uint64Max) (m : MembershipPipelineV2)
    (identityId : Hash) (height : UInt64) :
    ((height / p.timing.epochLength < epoch ∨ p.timing.evidenceDeadline epoch = none ∨
        m.snapshot epoch = none) ∧
      (getEposeV2Diagnostics true identityId (some (p, m)) height epoch).roundsPassed = 0 ∧
      (getEposeV2Diagnostics true identityId (some (p, m)) height epoch).finalized = false) ∨
    ∃ deadline snapshot, epoch ≤ height / p.timing.epochLength ∧
      p.timing.evidenceDeadline epoch = some deadline ∧ m.snapshot epoch = some snapshot ∧
      getEposeV2Diagnostics true identityId (some (p, m)) height epoch =
        qualificationReport p m identityId height epoch deadline snapshot := by
  have hzero : ¬height < 0 := UInt64.not_lt.mpr (UInt64.zero_le)
  simp only [getEposeV2Diagnostics, hp.activation, if_neg hzero, if_neg hepoch, UInt64.sub_zero]
  by_cases hcurrent : height / p.timing.epochLength < epoch
  · rw [if_pos hcurrent]
    exact .inl ⟨.inl hcurrent, rfl, rfl⟩
  · rw [if_neg hcurrent]
    cases hdeadline : p.timing.evidenceDeadline epoch with
    | none => exact .inl ⟨.inr (.inl rfl), rfl, rfl⟩
    | some deadline =>
      cases hsnapshot : m.snapshot epoch with
      | none => exact .inl ⟨.inr (.inr rfl), rfl, rfl⟩
      | some snapshot =>
        exact .inr ⟨deadline, snapshot, UInt64.not_lt.mp hcurrent, rfl, rfl, rfl⟩

/-! ## Runs -/

/-- What a run keeps, as far as the report needs it. -/
structure Reports (cr : Crypto) (p : ConsensusParametersV2) (t : BlockTransitionV2) : Prop where
  invariant : BlockTransitionV2.FrozenInvariant cr p.toTransitionParametersV2 t.toTransitionCoreV2
  tallied : t.state.Tallied p.toSemanticParametersV2
    (nextHeight p.toTransitionParametersV2 t.toTransitionCoreV2)

lemma Runs.reports (hp : Reportable p) (h : Runs cr p chain t) : Reports cr p t := by
  obtain ⟨inputs, hruns⟩ := h.transition
  exact ⟨hruns.frozenInvariant hp.transition,
    hruns.invariant (P := fun core => core.state.Tallied p.toSemanticParametersV2
      (nextHeight p.toTransitionParametersV2 core)) SemanticStateV2.tallied_fresh
      fun hinv hstep => BlockTransitionV2.tallied_step hinv hstep⟩

/-- An epoch with a snapshot is none that a request for the current epoch means. -/
lemma Reports.epoch_ne (hp : Reportable p) (h : Reports cr p t)
    (hsnapshot : t.state.membership.snapshot epoch = some snapshot) : epoch ≠ uint64Max := by
  rintro rfl
  have hlen := EpochTimingV2.len_gt_one (BlockTransitionV2.timing_valid hp.transition)
  have hfits := ((h.invariant.epochs.frozen _).mp (mem_snapshots_of_snapshot hsnapshot)).2.2
  rw [toNat_uint64Max] at hfits
  have := Nat.mul_le_mul_left (2 ^ 64 - 1) hlen
  omega

/-- Before an epoch begins, and when its deadline is not a height, it has no receipts. -/
lemma Reports.no_receipts (hp : Reportable p) (h : Reports cr p t)
    (hheight : height.toNat = nextHeight p.toTransitionParametersV2 t.toTransitionCoreV2)
    (hearly : height / p.timing.epochLength < epoch ∨ p.timing.evidenceDeadline epoch = none) :
    ∀ stored ∈ t.state.membership.receipts, stored.epoch ≠ epoch := by
  rintro stored hmem rfl
  have hv := BlockTransitionV2.timing_valid hp.transition
  have hfit := SemanticParametersV2.roundsFit (BlockTransitionV2.membershipValid_of_valid hp.transition)
  obtain ⟨first, last, hwindow, hfirst, hlt⟩ := h.tallied.included stored hmem
  obtain ⟨hinside, -, hfits⟩ := SemanticParametersV2.window_inside hfit hwindow
  rw [UInt64.le_iff_toNat_le] at hfirst
  rcases hearly with hearly | hnone
  · rw [UInt64.lt_iff_toNat_lt, UInt64.toNat_div] at hearly
    have hlen : 0 < p.timing.epochLength.toNat := by
      have := EpochTimingV2.len_gt_one hv
      rw [EpochTimingV2.len] at this
      omega
    rw [Nat.div_lt_iff_lt_mul hlen] at hearly
    rw [EpochTimingV2.len] at hinside
    omega
  · obtain ⟨deadline, hdeadline⟩ := (SemanticParametersV2.exists_evidenceDeadline_iff hv).mpr hfits
    rw [hnone] at hdeadline
    cases hdeadline

/-- **Reported rounds.**  Whatever the height, they are those the close counts. -/
lemma Reports.roundsPassed (hp : Reportable p) (h : Reports cr p t)
    (hheight : height.toNat = nextHeight p.toTransitionParametersV2 t.toTransitionCoreV2)
    (hsnapshot : t.state.membership.snapshot epoch = some snapshot)
    (hmember : snapshot.members.find? (fun member => member.identityId = identityId) =
      some member) :
    (getEposeV2Diagnostics true identityId (some (p, t.state.membership)) height
      epoch).roundsPassed = t.state.membership.countedRounds p.committeePolicy epoch
        snapshot.members member.servicePublicKey := by
  obtain ⟨hcheck, hzero, -⟩ | ⟨deadline, snapshot', -, -, hsnapshot', heq⟩ :=
    diagnostics_cases hp (h.epoch_ne hp hsnapshot) t.state.membership identityId height
  · have hearly : height / p.timing.epochLength < epoch ∨
        p.timing.evidenceDeadline epoch = none := by
      rw [hsnapshot] at hcheck
      simpa using hcheck
    rw [hzero, countedRounds_eq_zero hp.size (h.no_receipts hp hheight hearly)]
  · obtain rfl := Option.some.inj (hsnapshot.symm.trans hsnapshot')
    rw [heq, report_roundsPassed hp _ _ _ _ hmember]

lemma roundsPassed_of_none (hp : Reportable p) (hepoch : epoch ≠ uint64Max) (height : UInt64)
    (hsnapshot : m.snapshot epoch = some snapshot)
    (hmember : snapshot.members.find? (fun member => member.identityId = identityId) = none) :
    (getEposeV2Diagnostics true identityId (some (p, m)) height epoch).roundsPassed = 0 := by
  obtain ⟨-, hzero, -⟩ | ⟨deadline, snapshot', -, -, hsnapshot', heq⟩ :=
    diagnostics_cases hp hepoch m identityId height
  · exact hzero
  · obtain rfl := Option.some.inj (hsnapshot.symm.trans hsnapshot')
    rw [heq, report_roundsPassed_of_none hmember]

/-- The keys of members are not the null key, which is reported for others. -/
lemma Reports.nullPkey_notMem (h : Reports cr p t) {closed : QualificationSetV2}
    (hclosed : t.state.membership.qualification epoch = some closed) :
    nullPkey ∉ closed.qualifiedNodes := by
  intro hmem
  have hbacked := h.invariant.backed
  obtain ⟨frozen, hfrozen, -, hsublist⟩ := (hbacked.closed epoch closed hclosed).nodes
  obtain ⟨member, hmember, hkey⟩ := List.mem_map.mp (hsublist.mem hmem)
  obtain ⟨descriptor, hdescriptor, rfl⟩ := (hbacked.frozen epoch frozen hfrozen).members member hmember
  have hshape := (hbacked.registry.descriptorForEpoch hdescriptor).2
  simp only [descriptorShapeValid, Crypto.validKey, Bool.and_eq_true, decide_eq_true_eq] at hshape
  exact hshape.1.1.1.1.1.2.1 hkey

lemma Reports.qualified_iff (hp : Reportable p) (h : Reports cr p t)
    (hsnapshot : t.state.membership.snapshot epoch = some snapshot)
    (hfinal : (getEposeV2Diagnostics true identityId (some (p, t.state.membership)) height
      epoch).finalized = true) :
    let d := getEposeV2Diagnostics true identityId (some (p, t.state.membership)) height epoch
    d.qualified = true ↔ d.subjectInSnapshot = true ∧ d.roundsRemaining = 0 := by
  obtain ⟨-, -, hfalse⟩ | ⟨deadline, snapshot', -, -, hsnapshot', heq⟩ :=
    diagnostics_cases hp (h.epoch_ne hp hsnapshot) t.state.membership identityId height
  · rw [hfalse] at hfinal
    cases hfinal
  · obtain rfl := Option.some.inj (hsnapshot.symm.trans hsnapshot')
    rw [heq] at hfinal
    dsimp only
    rw [heq]
    obtain ⟨closed, hclosed⟩ := Option.isSome_iff_exists.mp hfinal
    obtain ⟨frozen, hfrozen, hnodes⟩ := h.tallied.counted epoch closed hclosed
    obtain rfl := Option.some.inj (hsnapshot.symm.trans hfrozen)
    cases hmember : snapshot.members.find? (fun member => member.identityId = identityId) with
    | none =>
      have hnull := h.nullPkey_notMem hclosed
      simp [qualificationReport, hmember, hclosed, hnull]
    | some member =>
      have hpassed := report_roundsPassed hp t.state.membership height epoch deadline hmember
      have hkey : member.servicePublicKey ∈ snapshot.members.map (·.servicePublicKey) :=
        List.mem_map_of_mem (List.mem_of_find?_eq_some hmember)
      have hqualified : (qualificationReport p t.state.membership identityId height epoch deadline
          snapshot).qualified = true ↔ member.servicePublicKey ∈ closed.qualifiedNodes := by
        simp [qualificationReport, hmember, hclosed]
      have hsubject : (qualificationReport p t.state.membership identityId height epoch deadline
          snapshot).subjectInSnapshot = true := by
        simp [qualificationReport, hmember]
      rw [hqualified, hnodes, mem_qualifiedNodes_iff hp.rounds, hsubject, report_roundsRemaining,
        hpassed]
      split_ifs with hrounds
      · exact iff_of_true ⟨hkey, hrounds⟩ ⟨rfl, rfl⟩
      · exact iff_of_false (fun h => hrounds h.2) fun h => by omega

/-! ## Chains that only grow -/

variable (cr p) in
/-- The coordinators that connected blocks lead to from one. -/
inductive Grows (t : BlockTransitionV2) : BlockTransitionV2 → Prop
  | refl : Grows t t
  | connect {t' contexts block result} : Grows t t' →
      (connectBlock cr p contexts t' block).2 = .ok result →
      Grows t (connectBlock cr p contexts t' block).1

lemma Grows.runs (h : Runs cr p chain t) (hgrows : Grows cr p t t') :
    ∃ chain', Runs cr p chain' t' := by
  induction hgrows with
  | refl => exact ⟨chain, h⟩
  | connect _ hok ih =>
    obtain ⟨chain', hruns⟩ := ih
    exact ⟨_, hruns.connect hok⟩

/-- What growing keeps of an epoch with a snapshot. -/
structure Keeps (p : ConsensusParametersV2) (epoch : UInt64) (t t' : BlockTransitionV2) : Prop where
  height : nextHeight p.toTransitionParametersV2 t.toTransitionCoreV2 ≤
    nextHeight p.toTransitionParametersV2 t'.toTransitionCoreV2
  snapshot : t'.state.membership.snapshot epoch = t.state.membership.snapshot epoch
  receipts : t.state.membership.receipts ⊆ t'.state.membership.receipts
  closed : ∀ closed, t.state.membership.qualification epoch = some closed →
    t'.state.membership.qualification epoch = some closed ∧
      t'.state.membership.receipts.filter (·.epoch = epoch) =
        t.state.membership.receipts.filter (·.epoch = epoch)

lemma Grows.keeps (hp : Reportable p) (h : Runs cr p chain t) (hgrows : Grows cr p t t')
    (hsnapshot : epoch ∈ t.state.membership.snapshots) : Keeps p epoch t t' := by
  induction hgrows with
  | refl => exact ⟨le_rfl, rfl, List.Subset.refl _, fun closed hclosed => ⟨hclosed, rfl⟩⟩
  | @connect t' contexts block result hgrows hok ih =>
    obtain ⟨chain', hruns⟩ := hgrows.runs h
    have hinv := (hruns.reports hp).invariant.epochs
    obtain ⟨coinbase, plan, validated, signatures, entry, -, hstep⟩ := connects_of_connectBlock hok
    obtain ⟨hreceipts, hsnapshots⟩ := BlockTransitionV2.receipts_snapshot_step hinv hstep
    have hmem : epoch ∈ t'.state.membership.snapshots := by
      rw [Std.ExtTreeMap.mem_iff_isSome_getElem?] at hsnapshot ⊢
      rwa [← MembershipPipelineV2.snapshot, ih.snapshot]
    refine ⟨ih.height.trans (BlockTransitionV2.nextHeight_step hstep).le,
      (hsnapshots epoch hmem).trans ih.snapshot, List.Subset.trans ih.receipts hreceipts,
      fun closed hclosed => ?_⟩
    obtain ⟨hclosed', hfilter⟩ := ih.closed closed hclosed
    exact ⟨BlockTransitionV2.qualification_step hinv hclosed' hstep,
      (BlockTransitionV2.receipts_closed_step (mem_qualifications_of_qualification hclosed')
        hstep).trans hfilter⟩

lemma Keeps.finalized (hp : Reportable p) (hepoch : epoch ≠ uint64Max) (h : Keeps p epoch t t')
    {height' : UInt64}
    (hheight : height.toNat = nextHeight p.toTransitionParametersV2 t.toTransitionCoreV2)
    (hheight' : height'.toNat = nextHeight p.toTransitionParametersV2 t'.toTransitionCoreV2)
    (hfinal : (getEposeV2Diagnostics true identityId (some (p, t.state.membership)) height
      epoch).finalized = true) :
    (∃ closed, t.state.membership.qualification epoch = some closed) ∧
      (getEposeV2Diagnostics true identityId (some (p, t'.state.membership)) height'
        epoch).finalized = true := by
  obtain ⟨-, -, hfalse⟩ | ⟨deadline, snapshot, hcurrent, hdeadline, hsnapshot, heq⟩ :=
    diagnostics_cases hp hepoch t.state.membership identityId height
  · rw [hfalse] at hfinal
    cases hfinal
  rw [heq] at hfinal
  obtain ⟨closed, hclosed⟩ := Option.isSome_iff_exists.mp hfinal
  refine ⟨⟨closed, hclosed⟩, ?_⟩
  obtain ⟨hcheck, -⟩ | ⟨deadline', snapshot', -, -, -, heq'⟩ :=
    diagnostics_cases hp hepoch t'.state.membership identityId height'
  · -- the epoch has begun, and neither its deadline nor its snapshot goes away
    have hgrown : height / p.timing.epochLength ≤ height' / p.timing.epochLength := by
      rw [UInt64.le_iff_toNat_le, UInt64.toNat_div, UInt64.toNat_div, hheight, hheight']
      exact Nat.div_le_div_right h.height
    rcases hcheck with hlt | hnone | hnone
    · exact absurd (UInt64.le_trans hcurrent hgrown) (UInt64.not_le.mpr hlt)
    · rw [hnone] at hdeadline
      cases hdeadline
    · rw [h.snapshot, hsnapshot] at hnone
      cases hnone
  · rw [heq']
    exact Option.isSome_iff_exists.mpr ⟨closed, (h.closed closed hclosed).1⟩

end ConsensusCoordinatorV2

end Qwertycoin
