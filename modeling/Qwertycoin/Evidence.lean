import Qwertycoin.Enrolment

/-
# Qualification

At the evidence deadline the stored receipts of an epoch are counted.  The count does not repeat
the checks that were made when a receipt was stored, so what it means rests on an invariant: a
stored receipt was carried by a block in its window, its verifier is in the committee of its
subject, and every receipt that a block carried has its slot filled.  Receipts of a closed epoch
are refused, so the count of a closed epoch stays what it was at the deadline.
-/

namespace Qwertycoin

open Sorting

/-! ## Committees -/

namespace MembershipPipelineV2

variable {cr : Crypto} {p : SemanticParametersV2} {m m' : MembershipPipelineV2}
  {receipt : AuthenticatedServiceReceiptV2} {height epoch round : UInt64} {anchor : Hash}
  {subject : PublicKey}

lemma committee_congr (h : m'.snapshot epoch = m.snapshot epoch) :
    m'.committee cr p epoch round subject anchor = m.committee cr p epoch round subject anchor := by
  rw [committee, committee, h]

lemma exists_of_containsMember {frozen : MembershipSnapshotV2} {key : PublicKey}
    (h : containsMember frozen key = true) :
    ∃ member ∈ frozen.members, member.servicePublicKey = key := by
  rw [containsMember] at h
  cases hdrop : frozen.members.dropWhile fun member =>
      Bytes.memLess member.servicePublicKey.data key.data with
  | nil => simp [hdrop] at h
  | cons member rest =>
    have hmem : member ∈ frozen.members :=
      (List.dropWhile_suffix _).subset (hdrop ▸ List.mem_cons_self)
    have hnot : Bytes.memLess member.servicePublicKey.data key.data = false := by
      have hne : frozen.members.dropWhile (fun member =>
          Bytes.memLess member.servicePublicKey.data key.data) ≠ [] := by simp [hdrop]
      have hhead := List.head_dropWhile_not _ hne
      simpa only [hdrop, List.head_cons] using hhead
    refine ⟨member, hmem, ?_⟩
    by_contra hne
    obtain hlt | hgt := Bytes.apart_memLess hne
    · exact absurd hlt (by simp [hnot])
    · simp [hdrop, hgt] at h

/-- A committee has at most `committeeSize` members, and at most all members but the subject. -/
lemma length_committee_le {frozen : MembershipSnapshotV2} (h : m.snapshot epoch = some frozen) :
    (m.committee cr p epoch round subject anchor).length ≤
      min p.committeePolicy.committeeSize (frozen.members.length - 1) := by
  rw [committee, h]
  dsimp only
  split_ifs with hnone
  · exact Nat.zero_le _
  simp only [Bool.or_eq_true, Bool.not_eq_true', not_or, Bool.not_eq_false] at hnone
  obtain ⟨member, hmem, hkey⟩ := exists_of_containsMember hnone.1.2
  have hless : (frozen.members.filter fun member =>
      member.servicePublicKey ≠ subject).length < frozen.members.length :=
    List.length_filter_lt_length_iff_exists.mpr ⟨member, hmem, by simp [hkey]⟩
  rw [List.length_take, List.length_insertionSort, List.length_map]
  omega

/-! ## Receipts -/

/-- What the checks before the signatures establish about a receipt. -/
structure ReceiptFits (cr : Crypto) (p : SemanticParametersV2) (m : MembershipPipelineV2)
    (challenge : ServiceChallengeV2) (height : UInt64) (anchor : Hash) : Prop where
  frozen : challenge.epoch ∈ m.snapshots
  in_window : ∃ first last, receiptInclusionWindowV2 p.timing p.committeePolicy challenge.epoch
    challenge.round = some (first, last) ∧ first ≤ height ∧ height ≤ last
  selected : ∃ assignment ∈ m.committee cr p challenge.epoch challenge.round
    challenge.subjectPublicKey anchor, assignment.verifierPublicKey = challenge.verifierPublicKey

lemma receiptFits_of_precheck (h : receiptPrecheck cr p m receipt height anchor = .accepted) :
    ReceiptFits cr p m receipt.challenge height anchor := by
  simp only [receiptPrecheck] at h
  obtain ⟨-, h⟩ := passed_of_ite (by simp) h
  obtain ⟨-, h⟩ := passed_of_ite (by simp) h
  split at h
  · cases h
  rename_i frozen hfrozen
  obtain ⟨hhash, h⟩ := passed_of_ite (by simp) h
  split at h
  · cases h
  rename_i first last hwindow
  obtain ⟨hearly, h⟩ := passed_of_ite (by simp) h
  obtain ⟨hlate, h⟩ := passed_of_ite (by simp) h
  split at h
  · cases h
  obtain ⟨-, h⟩ := passed_of_ite (by simp) h
  obtain ⟨-, h⟩ := passed_of_ite (by simp) h
  obtain ⟨hselected, -⟩ := passed_of_ite (by simp) h
  simp only [not_or, not_not] at hhash
  simp only [Bool.not_eq_true', Bool.not_eq_false, List.any_eq_true, decide_eq_true_eq]
    at hselected
  rw [hhash.2.2.1] at hselected
  exact ⟨mem_snapshots_of_snapshot hfrozen,
    ⟨first, last, hwindow, UInt64.not_lt.mp hearly, UInt64.not_lt.mp hlate⟩, hselected⟩

lemma ReceiptFits.congr {challenge : ServiceChallengeV2}
    (h : ReceiptFits cr p m challenge height anchor)
    (hsnapshot : m'.snapshot challenge.epoch = m.snapshot challenge.epoch) :
    ReceiptFits cr p m' challenge height anchor := by
  refine ⟨?_, h.in_window, ?_⟩
  · have hmem := h.frozen
    rw [Std.ExtTreeMap.mem_iff_isSome_getElem?] at hmem ⊢
    rwa [← snapshot, hsnapshot]
  · rw [committee_congr hsnapshot]
    exact h.selected

/-- A stored receipt is for the slot of a challenge, of whatever service kind. -/
def SlotOf (challenge : ServiceChallengeV2) (stored : StoredReceipt) : Prop :=
  stored.epoch = challenge.epoch ∧ stored.round = challenge.round ∧
    stored.subjectPublicKey = challenge.subjectPublicKey ∧
    stored.verifierPublicKey = challenge.verifierPublicKey

lemma slotOf_of_fillsSlot {challenge : ServiceChallengeV2} {stored : StoredReceipt}
    (h : fillsSlot challenge stored = true) : SlotOf challenge stored := by
  simp only [fillsSlot, Bool.and_eq_true, decide_eq_true_eq] at h
  exact ⟨h.1.1.1.1, h.1.1.1.2, h.1.2, h.2⟩

lemma mem_counted_iff {verifier : PublicKey} :
    verifier ∈ (m.receipts.filter fun stored => stored.epoch = epoch && stored.round = round &&
        stored.subjectPublicKey = subject).map (·.verifierPublicKey) ↔
      ∃ stored ∈ m.receipts, stored.epoch = epoch ∧ stored.round = round ∧
        stored.subjectPublicKey = subject ∧ stored.verifierPublicKey = verifier := by
  simp only [List.mem_map, List.mem_filter, Bool.and_eq_true, decide_eq_true_eq]
  constructor
  · rintro ⟨stored, ⟨hmem, ⟨hepoch, hround⟩, hsubject⟩, hverifier⟩
    exact ⟨stored, hmem, hepoch, hround, hsubject, hverifier⟩
  · rintro ⟨stored, hmem, hepoch, hround, hsubject, hverifier⟩
    exact ⟨stored, ⟨hmem, ⟨hepoch, hround⟩, hsubject⟩, hverifier⟩

lemma voterCount_eq_ncard :
    m.voterCount epoch round subject = {verifier | ∃ stored ∈ m.receipts, stored.epoch = epoch ∧
      stored.round = round ∧ stored.subjectPublicKey = subject ∧
      stored.verifierPublicKey = verifier}.ncard := by
  have hset : {verifier | ∃ stored ∈ m.receipts, stored.epoch = epoch ∧ stored.round = round ∧
      stored.subjectPublicKey = subject ∧ stored.verifierPublicKey = verifier} =
      (((m.receipts.filter fun stored => stored.epoch = epoch && stored.round = round &&
        stored.subjectPublicKey = subject).map (·.verifierPublicKey)).toFinset : Set PublicKey) := by
    ext verifier
    rw [Set.mem_ofPred_eq, ← mem_counted_iff, List.coe_toFinset, Set.mem_ofPred_eq]
  rw [hset, Set.ncard_coe_finset, voterCount, List.card_toFinset]

lemma mem_qualifications_of_qualification {closed : QualificationSetV2}
    (h : m.qualification epoch = some closed) : epoch ∈ m.qualifications := by
  rw [qualification] at h
  rw [Std.ExtTreeMap.mem_iff_isSome_getElem?, h]
  rfl

lemma qualifiedNodes_of_voterCount (policy : CommitteePolicyV2) (members : List FrozenMemberV2)
    (h : ∀ round subject, m'.voterCount epoch round subject = m.voterCount epoch round subject) :
    m'.qualifiedNodes policy epoch members = m.qualifiedNodes policy epoch members := by
  have hrounds : ∀ roundCount required subject,
      m'.passingRounds roundCount epoch required subject =
        m.passingRounds roundCount epoch required subject := by
    intro roundCount required subject
    exact List.countP_congr fun round _ => by simp [h]
  rw [qualifiedNodes, qualifiedNodes]
  split
  · rfl
  · exact List.filter_congr fun subject _ => by simp [hrounds]

lemma qualifiedNodes_addReceipt {stored : StoredReceipt} (policy : CommitteePolicyV2)
    (members : List FrozenMemberV2) (hne : stored.epoch ≠ epoch) :
    (m.addReceipt stored).qualifiedNodes policy epoch members =
      m.qualifiedNodes policy epoch members :=
  qualifiedNodes_of_voterCount policy members fun round subject => by
    simp [voterCount, addReceipt, hne]

/-- The nodes of every qualified set are those that the receipts stored now qualify. -/
def Counted (p : SemanticParametersV2) (m : MembershipPipelineV2) : Prop :=
  ∀ epoch closed, m.qualification epoch = some closed →
    ∃ frozen, m.snapshot epoch = some frozen ∧
      closed.qualifiedNodes = m.qualifiedNodes p.committeePolicy epoch frozen.members

lemma counted_fresh : Counted p {} :=
  fun epoch closed h => by simp [qualification] at h

lemma Counted.congr (h : m.Counted p) (hreceipts : m'.receipts = m.receipts)
    (hqualifications : m'.qualifications = m.qualifications)
    (hsnapshots : ∀ epoch ∈ m.snapshots, m'.snapshot epoch = m.snapshot epoch) : m'.Counted p := by
  intro epoch closed hclosed
  rw [qualification, hqualifications] at hclosed
  obtain ⟨frozen, hfrozen, hnodes⟩ := h epoch closed hclosed
  refine ⟨frozen, ?_, ?_⟩
  · rw [hsnapshots epoch (mem_snapshots_of_snapshot hfrozen), hfrozen]
  · rw [hnodes]
    exact (qualifiedNodes_of_voterCount _ _ fun round subject => by
      rw [voterCount, voterCount, hreceipts]).symm

lemma Counted.close {closed : QualificationSetV2} (h : m.Counted p)
    (hcloses : m.Closes cr p epoch height closed) (undo : UndoJournal) :
    (m.storeQualification undo epoch closed).1.Counted p := by
  intro epoch' closed' hclosed
  have hqualification : (m.storeQualification undo epoch closed).1.qualification epoch' =
      if epoch = epoch' then some closed else m.qualification epoch' := by
    simp [qualification, storeQualification, Std.ExtTreeMap.getElem?_insert]
  rw [hqualification] at hclosed
  split_ifs at hclosed with hepoch
  · obtain rfl := hepoch
    obtain rfl := Option.some.inj hclosed
    obtain ⟨frozen, hfrozen, rfl⟩ := hcloses.nodes
    exact ⟨frozen, hfrozen, rfl⟩
  · exact h epoch' closed' hclosed

/-- A receipt that is stored belongs to an epoch that is still open. -/
lemma Counted.addReceipt (h : m.Counted p)
    (hacc : m.ReceiptAccepts cr p receipt height anchor) :
    (m.addReceipt (storedReceipt cr p.net receipt height)).Counted p := by
  intro epoch closed hclosed
  obtain ⟨frozen, hfrozen, hnodes⟩ := h epoch closed hclosed
  refine ⟨frozen, hfrozen, ?_⟩
  have hne : receipt.challenge.epoch ≠ epoch := by
    rintro rfl
    exact hacc.still_open (mem_qualifications_of_qualification hclosed)
  rw [hnodes]
  exact (qualifiedNodes_addReceipt _ _ hne).symm

end MembershipPipelineV2

/-! ## Receipts and the blocks that carried them -/

namespace SemanticStateV2

open MembershipPipelineV2

variable {cr : Crypto} {p : SemanticParametersV2} {contexts : CanonicalContextSourceV2}
  {height : UInt64} {s s' : SemanticStateV2} {anchors : UInt64 → UInt64 → Hash}
  {log : AuthenticatedServiceReceiptV2 → UInt64 → Prop}

/-- The stored receipts of a state in which blocks have carried the receipts in a log, with the
heights of the blocks, while the round anchors were the given ones. -/
structure Witnessed (cr : Crypto) (p : SemanticParametersV2) (anchors : UInt64 → UInt64 → Hash)
    (log : AuthenticatedServiceReceiptV2 → UInt64 → Prop) (s : SemanticStateV2) : Prop where
  carried : ∀ stored ∈ s.membership.receipts, ∃ receipt, log receipt stored.inclusionHeight ∧
    SlotOf receipt.challenge stored ∧ ReceiptFits cr p s.membership receipt.challenge
      stored.inclusionHeight (anchors stored.epoch stored.round)
  kept : ∀ receipt height, log receipt height →
    ∃ stored ∈ s.membership.receipts, SlotOf receipt.challenge stored
  counted : ∀ epoch closed, s.membership.qualification epoch = some closed →
    ∃ frozen, s.membership.snapshot epoch = some frozen ∧ closed.qualifiedNodes =
      s.membership.qualifiedNodes p.committeePolicy epoch frozen.members

lemma witnessed_fresh : Witnessed cr p anchors (fun _ _ => False) {} :=
  ⟨by simp, by simp, counted_fresh⟩

/-- Changing neither the receipts nor the qualified sets, and no snapshot that is there, changes
nothing about the receipts. -/
lemma Witnessed.congr (h : Witnessed cr p anchors log s)
    (hreceipts : s'.membership.receipts = s.membership.receipts)
    (hqualifications : s'.membership.qualifications = s.membership.qualifications)
    (hsnapshots : ∀ epoch ∈ s.membership.snapshots,
      s'.membership.snapshot epoch = s.membership.snapshot epoch) :
    Witnessed cr p anchors log s' := by
  refine ⟨fun stored hmem => ?_, fun receipt height hlog => ?_,
    Counted.congr h.counted hreceipts hqualifications hsnapshots⟩
  · rw [hreceipts] at hmem
    obtain ⟨receipt, hlog, hslot, hfits⟩ := h.carried stored hmem
    exact ⟨receipt, hlog, hslot, hfits.congr (hsnapshots _ hfits.frozen)⟩
  · rw [hreceipts]
    exact h.kept receipt height hlog

lemma Witnessed.close {epoch : UInt64} {closed : QualificationSetV2}
    (h : Witnessed cr p anchors log s) (hcloses : s.membership.Closes cr p epoch height closed)
    (undo : MembershipPipelineV2.UndoJournal) :
    Witnessed cr p anchors log
      { s with membership := (s.membership.storeQualification undo epoch closed).1 } := by
  refine ⟨fun stored hmem => ?_, h.kept, Counted.close h.counted hcloses undo⟩
  obtain ⟨receipt, hlog, hslot, hfits⟩ := h.carried stored hmem
  exact ⟨receipt, hlog, hslot, hfits.congr rfl⟩

/-- A receipt that is stored was carried, and its epoch is still open. -/
lemma Witnessed.receipt {receipt : AuthenticatedServiceReceiptV2}
    (h : Witnessed cr p anchors log s)
    (hacc : s.membership.ReceiptAccepts cr p receipt height
      (anchors receipt.challenge.epoch receipt.challenge.round)) :
    Witnessed cr p anchors
      (fun receipt' height' => log receipt' height' ∨ receipt' = receipt ∧ height' = height)
      { s with membership := s.membership.addReceipt (storedReceipt cr p.net receipt height) } := by
  refine ⟨fun stored hmem => ?_, ?_, Counted.addReceipt h.counted hacc⟩
  · obtain hmem | hmem := List.mem_append.mp hmem
    · obtain ⟨receipt', hlog, hslot, hfits⟩ := h.carried stored hmem
      exact ⟨receipt', Or.inl hlog, hslot, hfits.congr rfl⟩
    · obtain rfl := List.mem_singleton.mp hmem
      exact ⟨receipt, Or.inr ⟨rfl, rfl⟩, ⟨rfl, rfl, rfl, rfl⟩,
        (receiptFits_of_precheck hacc.precheck).congr rfl⟩
  · rintro receipt' height' (hlog | ⟨rfl, rfl⟩)
    · obtain ⟨stored, hmem, hslot⟩ := h.kept receipt' height' hlog
      exact ⟨stored, List.mem_append_left _ hmem, hslot⟩
    · exact ⟨_, List.mem_append_right _ (List.mem_singleton_self _), rfl, rfl, rfl, rfl⟩

/-- A context source that answers with the given round anchors only. -/
def Anchored (anchors : UInt64 → UInt64 → Hash) (contexts : CanonicalContextSourceV2) : Prop :=
  ∀ epoch round hash, contexts.roundAnchor epoch round = some hash → hash = anchors epoch round

lemma Witnessed.contentStep {content : RecordContent} (hcontexts : Anchored anchors contexts)
    (h : Witnessed cr p anchors log s) (hstep : ContentStep cr p contexts height content s s') :
    Witnessed cr p anchors (fun receipt height' => log receipt height' ∨
      height' = height ∧ content = .receipt receipt) s' := by
  -- only a receipt adds to the log
  have hother : (∀ receipt, content ≠ .receipt receipt) →
      (fun receipt height' => log receipt height' ∨
        height' = height ∧ content = .receipt receipt) = log := by
    intro hne
    funext receipt height'
    simp [hne receipt]
  cases hstep with
  | lifecycle _ hacc =>
    rw [hother (by simp)]
    exact h.congr rfl rfl fun _ _ => rfl
  | knownLifecycle => rwa [hother (by simp)]
  | admission =>
    rw [hother (by simp)]
    exact h.congr (by simp) (by simp) fun epoch _ => by rw [snapshot, storeLease_snapshots, snapshot]
  | knownAdmission => rwa [hother (by simp)]
  | @receipt _ receipt roundAnchor hanchor hacc =>
    obtain rfl := hcontexts _ _ _ hanchor
    have hlog : (fun receipt' height' => log receipt' height' ∨
        height' = height ∧ RecordContent.receipt receipt = .receipt receipt') =
        fun receipt' height' => log receipt' height' ∨ receipt' = receipt ∧ height' = height := by
      funext receipt' height'
      simp [and_comm, eq_comm]
    rw [hlog]
    exact h.receipt hacc
  | @knownReceipt _ receipt _ stored _ _ hfind =>
    refine ⟨fun stored hmem => ?_, ?_, h.counted⟩
    · obtain ⟨receipt', hlog, hrest⟩ := h.carried stored hmem
      exact ⟨receipt', Or.inl hlog, hrest⟩
    · rintro receipt' height' (hlog | ⟨-, heq⟩)
      · exact h.kept receipt' height' hlog
      · cases heq
        exact ⟨stored, List.mem_of_find?_eq_some hfind,
          slotOf_of_fillsSlot (List.find?_some hfind)⟩
  | paymentProof => rwa [hother (by simp)]

end SemanticStateV2

/-! ## Runs -/

namespace BlockTransitionV2

open MembershipPipelineV2

variable {cr : Crypto} {p : TransitionParametersV2} {contexts : CanonicalContextSourceV2}
  {call : Call} {core core' : TransitionCoreV2} {entry : UndoEntry}
  {anchors : UInt64 → UInt64 → Hash} {chain : List BlockInputV2} {t : BlockTransitionV2}
  {epoch round : UInt64} {subject : PublicKey}

/-- The freeze of an accepted block keeps the qualified sets and the snapshots that are there. -/
lemma BlockAccepted.freeze_keeps {b : BlockInputV2} {parsed : List (List EnvelopeRecordV2)}
    {summary : BlockApplySummaryV2} {w₁ w₂ w₃ : Work}
    (h : BlockAccepted cr p contexts core b parsed summary w₁ w₂ w₃) :
    w₁.state.membership.qualifications = core.state.membership.qualifications ∧
      ∀ epoch ∈ core.state.membership.snapshots,
        w₁.state.membership.snapshot epoch = core.state.membership.snapshot epoch := by
  have hp := membershipValid_of_valid (valid_of_blockPrecheck h.precheck)
  refine ⟨?_, fun epoch hmem => ?_⟩
  · obtain ⟨status, -, hstatus, hphase, -⟩ | ⟨hphase, -⟩ | ⟨epoch, frozen, -, -, hphase⟩ :=
      freezePhase_cases cr hp b ⟨core.state, core.state.checkpoint⟩ <;>
      obtain ⟨rfl, heq⟩ := Prod.mk.inj (h.freeze.symm.trans hphase)
    · exact absurd heq.symm hstatus
    · rfl
    · rfl
  · obtain ⟨frozen, hfrozen⟩ := Option.isSome_iff_exists.mp
      (Std.ExtTreeMap.mem_iff_isSome_getElem?.mp hmem)
    rw [snapshot, snapshot, hfrozen]
    exact freezePhase_snapshot hp h.freeze hfrozen

lemma witnessed_step {log : AuthenticatedServiceReceiptV2 → UInt64 → Prop}
    (hcontexts : SemanticStateV2.Anchored anchors call.1)
    (h : core.state.Witnessed cr p.toSemanticParametersV2 anchors log)
    (hstep : stepCore cr p call core = some (core', entry)) :
    core'.state.Witnessed cr p.toSemanticParametersV2 anchors
      (SemanticStateV2.logged .receipt log call.2.height (call.2.records p)) := by
  obtain ⟨parsed, summary, w₁, w₂, w₃, hblock, rfl, -⟩ := stepCore_eq_some_iff.mp hstep
  have hp := membershipValid_of_valid (valid_of_blockPrecheck hblock.precheck)
  have h₁ : w₁.state.Witnessed cr p.toSemanticParametersV2 anchors log :=
    h.congr hblock.freeze_frame.2.2 hblock.freeze_keeps.1 hblock.freeze_keeps.2
  have h₂ := hblock.contents.logged (fun hs hstep => hs.contentStep hcontexts hstep) h₁
  obtain ⟨status, -, hstatus, hphase, -⟩ | ⟨hphase, -⟩ | ⟨epoch, closed, -, -, hcloses, hphase⟩ :=
    closePhase_cases cr hp call.2 w₂ <;>
    obtain ⟨rfl, heq⟩ := Prod.mk.inj (hblock.close.symm.trans hphase)
  · exact absurd heq.symm hstatus
  · exact h₂
  · exact h₂.close hcloses _

/-- After every run, the stored receipts are those that the blocks of the chain carried. -/
theorem Runs.witnessed
    (h : Runs cr p (fun _ contexts => SemanticStateV2.Anchored anchors contexts) chain t) :
    t.state.Witnessed cr p.toSemanticParametersV2 anchors (carriedBy p .receipt chain) :=
  h.carried (P := fun log core => core.state.Witnessed cr p.toSemanticParametersV2 anchors log)
    SemanticStateV2.witnessed_fresh fun hinv hrule hstep => witnessed_step hrule hinv hstep

/-- A verifier vouches for a subject in a round: it is in the committee of the subject, and a
block in the inclusion window of the round carries its receipt. -/
def Vouches (cr : Crypto) (p : TransitionParametersV2) (anchors : UInt64 → UInt64 → Hash)
    (chain : List BlockInputV2) (m : MembershipPipelineV2) (epoch round : UInt64)
    (subject verifier : PublicKey) : Prop :=
  (∃ assignment ∈ m.committee cr p.toSemanticParametersV2 epoch round subject
      (anchors epoch round), assignment.verifierPublicKey = verifier) ∧
    ∃ b ∈ chain, (∃ first last,
        receiptInclusionWindowV2 p.timing p.committeePolicy epoch round = some (first, last) ∧
          first ≤ b.height ∧ b.height ≤ last) ∧
      ∃ receipt, b.Carries p (.receipt receipt) ∧ receipt.challenge.epoch = epoch ∧
        receipt.challenge.round = round ∧ receipt.challenge.subjectPublicKey = subject ∧
        receipt.challenge.verifierPublicKey = verifier

lemma vouches_iff
    (h : t.state.Witnessed cr p.toSemanticParametersV2 anchors (carriedBy p .receipt chain))
    {verifier : PublicKey} :
    (∃ stored ∈ t.state.membership.receipts, stored.epoch = epoch ∧ stored.round = round ∧
        stored.subjectPublicKey = subject ∧ stored.verifierPublicKey = verifier) ↔
      Vouches cr p anchors chain t.state.membership epoch round subject verifier := by
  constructor
  · rintro ⟨stored, hmem, rfl, rfl, rfl, rfl⟩
    obtain ⟨receipt, ⟨b, hb, hheight, hcarries⟩, ⟨hepoch, hround, hsubject, hverifier⟩, hfits⟩ :=
      h.carried stored hmem
    rw [hepoch, hround, hsubject, hverifier]
    rw [hepoch, hround, ← hheight] at hfits
    exact ⟨hfits.selected, b, hb, hfits.in_window, receipt, hcarries, rfl, rfl, rfl, rfl⟩
  · rintro ⟨-, b, hb, -, receipt, hcarries, rfl, rfl, rfl, rfl⟩
    obtain ⟨stored, hmem, hepoch, hround, hsubject, hverifier⟩ :=
      h.kept receipt b.height ⟨b, hb, rfl, hcarries⟩
    exact ⟨stored, hmem, hepoch, hround, hsubject, hverifier⟩

lemma voterCount_eq_vouches
    (h : t.state.Witnessed cr p.toSemanticParametersV2 anchors (carriedBy p .receipt chain)) :
    t.state.membership.voterCount epoch round subject =
      {verifier | Vouches cr p anchors chain t.state.membership epoch round subject
        verifier}.ncard := by
  rw [voterCount_eq_ncard]
  congr 1
  ext verifier
  exact vouches_iff h

lemma ncard_vouches_le {frozen : MembershipSnapshotV2}
    (h : t.state.membership.snapshot epoch = some frozen) :
    {verifier | Vouches cr p anchors chain t.state.membership epoch round subject
      verifier}.ncard ≤ min p.committeePolicy.committeeSize (frozen.members.length - 1) := by
  have hsub : {verifier | Vouches cr p anchors chain t.state.membership epoch round subject
      verifier} ⊆ (((t.state.membership.committee cr p.toSemanticParametersV2 epoch round subject
        (anchors epoch round)).map (·.verifierPublicKey)).toFinset : Set PublicKey) := by
    rintro verifier ⟨⟨assignment, hmem, rfl⟩, -⟩
    simpa using ⟨assignment, hmem, rfl⟩
  refine (Set.ncard_le_ncard hsub (Finset.finite_toSet _)).trans ?_
  rw [Set.ncard_coe_finset]
  refine (List.toFinset_card_le _).trans ?_
  rw [List.length_map]
  exact length_committee_le h

lemma passingRounds_eq_ncard {m : MembershipPipelineV2} {roundCount : UInt64} {required : ℕ} :
    m.passingRounds roundCount epoch required subject =
      {round : UInt64 | round < roundCount ∧ required ≤ m.voterCount epoch round subject}.ncard := by
  have hset : {round : UInt64 | round < roundCount ∧
      required ≤ m.voterCount epoch round subject} =
      (((List.range roundCount.toNat).filter fun round =>
        required ≤ m.voterCount epoch (UInt64.ofNat round) subject).map
          UInt64.ofNat).toFinset := by
    ext round
    simp only [Set.mem_ofPred_eq, List.coe_toFinset, List.mem_map, List.mem_filter, List.mem_range,
      decide_eq_true_eq]
    constructor
    · rintro ⟨hlt, hpass⟩
      exact ⟨round.toNat, ⟨UInt64.lt_iff_toNat_lt.mp hlt, by simpa using hpass⟩, by simp⟩
    · rintro ⟨n, ⟨hlt, hpass⟩, rfl⟩
      refine ⟨UInt64.lt_iff_toNat_lt.mpr ?_, hpass⟩
      have hmax := roundCount.toNat_lt
      rw [toNat_ofNat_of_fits (by omega)]
      exact hlt
  have hnodup : (((List.range roundCount.toNat).filter fun round =>
      required ≤ m.voterCount epoch (UInt64.ofNat round) subject).map UInt64.ofNat).Nodup := by
    refine List.Nodup.map_on (fun a ha b hb heq => ?_) (List.nodup_range.filter _)
    have hmax := roundCount.toNat_lt
    have ha := List.mem_range.mp (List.mem_of_mem_filter ha)
    have hb := List.mem_range.mp (List.mem_of_mem_filter hb)
    have := congrArg UInt64.toNat heq
    rwa [toNat_ofNat_of_fits (by omega), toNat_ofNat_of_fits (by omega)] at this
  rw [hset, Set.ncard_coe_finset, List.toFinset_card_of_nodup hnodup, List.length_map,
    passingRounds, List.countP_eq_length_filter]

lemma qualification_step {closed : QualificationSetV2} (hinv : EpochInvariant p core)
    (h : core.state.membership.qualification epoch = some closed)
    (hstep : stepCore cr p call core = some (core', entry)) :
    core'.state.membership.qualification epoch = some closed := by
  obtain ⟨parsed, summary, w₁, w₂, w₃, hblock, rfl, -⟩ := stepCore_eq_some_iff.mp hstep
  have hp := membershipValid_of_valid (valid_of_blockPrecheck hblock.precheck)
  have hfrozen := hinv.frozen
  rw [← height_eq_nextHeight hblock.precheck] at hfrozen
  obtain ⟨w₁', hfreeze, hleases₁, hqual₁, -⟩ :=
    freezePhase_frozen (w := ⟨core.state, core.state.checkpoint⟩) cr
      (valid_of_blockPrecheck hblock.precheck) hinv.leases hfrozen
  obtain rfl : w₁ = w₁' := congrArg Prod.fst (hblock.freeze.symm.trans hfreeze)
  have hevolves := transactionsPhase_evolves cr p call.1 call.2.height
    (call.2.transactions.zip parsed) w₁ {}
  rw [hblock.transactions] at hevolves
  have hqual₂ := (hevolves.epochs (hinv.leases.congr hleases₁)).2.2
  have h₂ : w₂.state.membership.qualification epoch = some closed := by
    rw [qualification] at h ⊢
    rw [hqual₂, hqual₁, h]
  obtain ⟨status, -, hstatus, hphase, -⟩ | ⟨hphase, -⟩ | ⟨epoch', closed', -, -, hcloses, hphase⟩ :=
    closePhase_cases cr hp call.2 w₂ <;>
    obtain ⟨rfl, heq⟩ := Prod.mk.inj (hblock.close.symm.trans hphase)
  · exact absurd heq.symm hstatus
  · exact h₂
  · have hne : epoch' ≠ epoch := by
      rintro rfl
      exact hcloses.fresh (mem_qualifications_of_qualification h₂)
    rw [qualification] at h₂ ⊢
    simpa [storeQualification, Std.ExtTreeMap.getElem?_insert, hne] using h₂

lemma requiredReceipts_eq (n : ℕ) : requiredReceiptsForCommitteeSizeV2 n = (2 * n + 2) / 3 := by
  rw [requiredReceiptsForCommitteeSizeV2]
  omega

/-- **Qualification is exact.**  Once the evidence deadline of a served epoch is connected, the
epoch is closed, unless it ends above the 64-bit heights.  The qualified nodes of a closed epoch
are listed in the order of the snapshot, without repetition: they are the members of a snapshot
of at least two, for whom in at least `roundsRequired` rounds at least two thirds of a committee
of `n` vouch, where `n` is the committee size or, if there are fewer, the number of the other
members.  No more than `n` verifiers are counted in a round, and no block changes the set. -/
theorem qualification_exact (hp : p.valid = true)
    (h : Runs cr p (fun _ contexts => SemanticStateV2.Anchored anchors contexts) chain t) :
    (∀ firstService deadline, p.timing.firstServiceEpoch = some firstService →
      firstService ≤ epoch → p.timing.evidenceDeadline epoch = some deadline →
      deadline.toNat < nextHeight p t.toTransitionCoreV2 →
      deadline.toNat + p.timing.anchorDepth.toNat + 1 < 2 ^ 64 →
      ∃ closed, t.state.membership.qualification epoch = some closed) ∧
    ∀ closed, t.state.membership.qualification epoch = some closed →
      ∃ frozen, t.state.membership.snapshot epoch = some frozen ∧
        let n := min p.committeePolicy.committeeSize (frozen.members.length - 1)
        let voters (round : UInt64) (subject : PublicKey) : Set PublicKey :=
          {verifier | Vouches cr p anchors chain t.state.membership epoch round subject verifier}
        closed.qualifiedNodes.Sublist (frozen.members.map (·.servicePublicKey)) ∧
        closed.qualifiedNodes.Nodup ∧
        (∀ subject, subject ∈ closed.qualifiedNodes ↔
          2 ≤ frozen.members.length ∧ (∃ member ∈ frozen.members,
            member.servicePublicKey = subject) ∧
          p.committeePolicy.roundsRequired.toNat ≤
            {round | round < p.committeePolicy.roundCount ∧
              (2 * n + 2) / 3 ≤ (voters round subject).ncard}.ncard) ∧
        (∀ round subject,
          t.state.membership.voterCount epoch round subject = (voters round subject).ncard ∧
            t.state.membership.voterCount epoch round subject ≤ n) ∧
        (frozen.members.length ≤ 1 → closed.qualifiedNodes = []) ∧
        ∀ contexts b, (t.applyBlock cr p contexts b).status = .accepted →
          (t.applyBlock cr p contexts b).transition.state.membership.qualification epoch =
            some closed := by
  have hinv := h.frozenInvariant hp
  have hwitnessed := h.witnessed
  constructor
  · intro firstService deadline hfirst hle hdeadline hthrough hfits
    have hv := timing_valid hp
    have hserved := (EpochTimingV2.firstServiceEpoch_eq_some_iff hv).mp hfirst
    obtain ⟨hend, -⟩ := (EpochTimingV2.evidenceDeadline_eq_some_iff hv).mp hdeadline
    have hle := UInt64.le_iff_toNat_le.mp hle
    have hclosed : epoch ∈ t.state.membership.qualifications := by
      rw [hinv.epochs.closed epoch]
      simp only [EpochTimingV2.depth] at hend ⊢
      omega
    exact Option.isSome_iff_exists.mp (Std.ExtTreeMap.mem_iff_isSome_getElem?.mp hclosed)
  · intro closed hclosed
    obtain ⟨frozen, hfrozen, hnodes⟩ := hwitnessed.counted epoch closed hclosed
    have hdistinct := (hinv.backed.frozen epoch frozen hfrozen).distinct
    have hsublist : closed.qualifiedNodes.Sublist (frozen.members.map (·.servicePublicKey)) := by
      rw [hnodes]
      exact SemanticStateV2.qualifiedNodes_sublist ..
    have hnodup : (frozen.members.map (·.servicePublicKey)).Nodup :=
      List.pairwise_map.mpr (hdistinct.imp fun hne => hne.2)
    refine ⟨frozen, hfrozen, hsublist, hnodup.sublist hsublist, fun subject => ?_,
      fun round subject => ⟨voterCount_eq_vouches hwitnessed, ?_⟩, fun hsmall => ?_,
      fun contexts b hacc => ?_⟩
    · rw [hnodes, qualifiedNodes]
      split_ifs with hsmall
      · simp only [List.not_mem_nil, false_iff, not_and]
        omega
      · simp only [List.mem_filter, List.mem_map, decide_eq_true_eq, passingRounds_eq_ncard,
          requiredReceipts_eq, voterCount_eq_vouches hwitnessed]
        exact ⟨fun hmem => ⟨by omega, hmem⟩, fun hmem => hmem.2⟩
    · rw [voterCount_eq_vouches hwitnessed]
      exact ncard_vouches_le hfrozen
    · rw [hnodes, qualifiedNodes, if_pos hsmall]
    · obtain ⟨entry, hstep, -⟩ := applyBlock_eq_stepCore hacc
      exact qualification_step hinv.epochs hclosed hstep

/-- The round anchors of the concrete runs. -/
def sampleAnchors (_ _ : UInt64) : Hash := Bytes.Block.ofNat 32 3

lemma anchored_sample : SemanticStateV2.Anchored sampleAnchors .sample := by
  rintro epoch round hash h
  cases h
  rfl

/-- A lone operator enrols and its epoch is closed. -/
def loneChain : List BlockInputV2 :=
  [sampleInput 0 [],
    sampleInput 1 [.sampleRegistration 0 1 9,
      .ofPayload .admissionLease (AdmissionLeaseV2.sample 0).payload],
    sampleInput 2 [], sampleInput 3 [], sampleInput 4 []]

/-- A lone member does not qualify, although a committee of nobody has nothing to say against
it. -/
theorem lone_member_does_not_qualify :
    ∃ t closed frozen member,
      Runs .sample .sample (fun _ contexts => SemanticStateV2.Anchored sampleAnchors contexts)
        loneChain t ∧
      t.state.membership.qualification 1 = some closed ∧
      t.state.membership.snapshot 1 = some frozen ∧ member ∈ frozen.members ∧
      (let policy := TransitionParametersV2.sample.committeePolicy
        let n := min policy.committeeSize (frozen.members.length - 1)
        policy.roundsRequired.toNat ≤ {round | round < policy.roundCount ∧
          (2 * n + 2) / 3 ≤ {verifier | Vouches .sample .sample sampleAnchors loneChain
            t.state.membership 1 round member.servicePublicKey verifier}.ncard}.ncard) ∧
      member.servicePublicKey ∉ closed.qualifiedNodes := by
  have hfacts : (replay .sample .sample (fun _ => .sample) loneChain).map (fun t =>
      ((t.state.membership.qualification 1).map (·.qualifiedNodes),
        (t.state.membership.snapshot 1).map (·.members.length))) = some (some [], some 1) := by
    decide +kernel
  obtain ⟨t, ht, hfacts⟩ := Option.map_eq_some_iff.mp hfacts
  obtain ⟨hclosed, hfrozen⟩ := Prod.mk.inj hfacts
  obtain ⟨closed, hclosed, hnodes⟩ := Option.map_eq_some_iff.mp hclosed
  obtain ⟨frozen, hfrozen, hlength⟩ := Option.map_eq_some_iff.mp hfrozen
  obtain ⟨member, hmembers⟩ := List.length_eq_one_iff.mp hlength
  refine ⟨t, closed, frozen, member, runs_of_replay (fun _ => anchored_sample) ht, hclosed, hfrozen,
    by simp [hmembers], ?_, by simp [hnodes]⟩
  -- the only round passes with no verifier
  have hround : (0 : UInt64) < TransitionParametersV2.sample.committeePolicy.roundCount := by decide
  simp only [hlength, Nat.sub_self, Nat.min_zero, Nat.mul_zero, Nat.zero_add, Nat.reduceDiv,
    Nat.zero_le, and_true]
  exact (Set.ncard_pos (Set.toFinite _)).mpr ⟨0, hround⟩

/-- The concrete run in which two operators confirm each other. -/
def sampleChain : List BlockInputV2 :=
  let front := [sampleInput 0 [], sampleInput 1 sampleEnrolment, sampleInput 2 []]
  let frozen := ((replay .sample .sample (fun _ => .sample) front).map (·.state)).getD {}
  front ++ [sampleInput 3 (sampleReceipts frozen), sampleInput 4 []]

/-- Both operators qualify. -/
theorem qualification_exact_sample :
    ∃ t closed frozen,
      Runs .sample .sample (fun _ contexts => SemanticStateV2.Anchored sampleAnchors contexts)
        sampleChain t ∧
      t.state.membership.qualification 1 = some closed ∧
      t.state.membership.snapshot 1 = some frozen ∧
      closed.qualifiedNodes = [sampleKey 10, sampleKey 11] ∧ 2 ≤ frozen.members.length := by
  have hfacts : (replay .sample .sample (fun _ => .sample) sampleChain).map (fun t =>
      (t.state.membership.qualification 1).map (·.qualifiedNodes)) =
        some (some [sampleKey 10, sampleKey 11]) := by
    decide +kernel
  obtain ⟨t, ht, hfacts⟩ := Option.map_eq_some_iff.mp hfacts
  obtain ⟨closed, hclosed, hnodes⟩ := Option.map_eq_some_iff.mp hfacts
  have hruns : Runs .sample .sample (fun _ contexts => SemanticStateV2.Anchored sampleAnchors
    contexts) _ t := runs_of_replay (fun _ => anchored_sample) ht
  obtain ⟨frozen, hfrozen, -, -, hexact, -⟩ :=
    (qualification_exact (by decide) hruns).2 closed hclosed
  exact ⟨t, closed, frozen, hruns, hclosed, hfrozen, hnodes,
    ((hexact (sampleKey 10)).mp (by simp [hnodes])).1⟩

end BlockTransitionV2

end Qwertycoin
