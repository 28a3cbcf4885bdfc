import Qwertycoin.Carried
import Qwertycoin.Chain
import Qwertycoin.Frozen
import Qwertycoin.ServiceKeys

/-
# Frozen membership

Who serves an epoch is fixed at its anchor: the members of the leases that blocks carried up to
the enrollment cutoff, as far as they still name the descriptor that the registry has for their
identity in the epoch.  A lease can be replaced only by one with a higher sequence, and the
sequence of a stored lease is that of a record in force in its epoch.  So a lease that names the
descriptor in force when the anchor comes has not been replaced.
-/

namespace Qwertycoin

open Sorting

/-! ## Sequences -/

namespace LifecycleRegistryV2

variable {cr : Crypto} {net : Scope} {r : LifecycleRegistryV2}

/-- Later records of a history take effect later and have higher sequences. -/
lemma HistoryChain.pairwise {records : List LifecycleRecordV2} (h : HistoryChain cr net records) :
    records.Pairwise fun earlier later =>
      earlier.nextDescriptor.effectiveEpoch < later.nextDescriptor.effectiveEpoch ∧
        earlier.nextDescriptor.sequence < later.nextDescriptor.sequence := by
  have htrans : IsTrans LifecycleRecordV2 fun earlier later =>
      earlier.nextDescriptor.effectiveEpoch < later.nextDescriptor.effectiveEpoch ∧
        earlier.nextDescriptor.sequence < later.nextDescriptor.sequence :=
    ⟨fun _ _ _ hab hbc => ⟨UInt64.lt_trans hab.1 hbc.1, UInt64.lt_trans hab.2 hbc.2⟩⟩
  refine List.isChain_iff_pairwise.mp (h.continued.imp fun earlier later hnext => ?_)
  refine ⟨hnext.effective, UInt64.lt_iff_toNat_lt.mpr ?_⟩
  have := hnext.sequence
  omega

/-- The descriptor of an epoch has the highest sequence of the records in force in it. -/
lemma sequence_le_of_selectDescriptor {records : List LifecycleRecordV2} {epoch : UInt64}
    (hrecords : records.Pairwise fun earlier later =>
      earlier.nextDescriptor.effectiveEpoch < later.nextDescriptor.effectiveEpoch ∧
        earlier.nextDescriptor.sequence < later.nextDescriptor.sequence)
    {descriptor : IdentityDescriptorV2} (h : selectDescriptor records epoch = some descriptor)
    {record : LifecycleRecordV2} (hmem : record ∈ records)
    (hforce : record.nextDescriptor.effectiveEpoch ≤ epoch) :
    record.nextDescriptor.sequence ≤ descriptor.sequence := by
  induction records with
  | nil => cases hmem
  | cons first later ih =>
    rw [List.pairwise_cons] at hrecords
    rw [selectDescriptor_cons] at h
    split_ifs at h with hfirst hnext
    · obtain rfl | hmem := List.mem_cons.mp hmem
      · obtain ⟨selected, hselected, rfl, -⟩ := exists_of_selectDescriptor h
        exact UInt64.le_of_lt (hrecords.1 selected hselected).2
      · exact ih hrecords.2 h hmem
    · obtain ⟨selected, hselected, rfl, -⟩ := exists_of_selectDescriptor h
      obtain rfl := List.mem_singleton.mp hselected
      obtain rfl | hmem := List.mem_cons.mp hmem
      · exact UInt64.le_refl _
      · -- the second record is not in force, so no later one is
        cases later with
        | nil => cases hmem
        | cons following rest =>
          refine absurd ⟨following, rfl, ?_⟩ hnext
          obtain rfl | hrest := List.mem_cons.mp hmem
          · exact hforce
          · exact UInt64.le_trans
              (UInt64.le_of_lt ((List.pairwise_cons.mp hrecords.2).1 record hrest).1) hforce

lemma recordsOf_eq (r : LifecycleRegistryV2) (identityId : Hash) :
    r.recordsOf identityId = [] ∨
      ∃ history ∈ r.histories, r.recordsOf identityId = history.records := by
  rw [recordsOf]
  cases hfind : r.findHistory identityId with
  | none => exact Or.inl rfl
  | some history => exact Or.inr ⟨history, List.mem_of_find?_eq_some hfind, rfl⟩

/-- A record that takes effect after an epoch leaves all descriptors of the epoch as they were. -/
lemma Accepts.descriptorsForEpoch_store {record : LifecycleRecordV2}
    {inclusionEpoch minimumEffectiveEpoch epoch : UInt64}
    (h : r.Accepts cr net record inclusionEpoch minimumEffectiveEpoch) (undo : UndoJournal)
    (hlater : epoch < record.nextDescriptor.effectiveEpoch) :
    (r.store undo record).1.descriptorsForEpoch epoch = r.descriptorsForEpoch epoch := by
  simp only [descriptorsForEpoch, h.descriptorForEpoch_store undo hlater]
  congr 1
  obtain ⟨hnone, hstore⟩ | ⟨front, records, last, back, heq, -, -, -, hstore⟩ :=
    h.store_histories undo
  · rw [hstore, List.filterMap_append]
    simp [descriptorForEpoch, hnone]
  · rw [hstore, heq]
    simp [List.filterMap_append, List.filterMap_cons]

end LifecycleRegistryV2

/-! ## Stored leases -/

namespace MembershipPipelineV2

variable {cr : Crypto} {p : SemanticParametersV2} {m : MembershipPipelineV2}
  {lease : AdmissionLeaseV2} {context : AdmissionContextV2} {height : UInt64}

lemma eq_of_sameSlot (hdist : m.leases.Pairwise DistinctLeases) {left right : StoredLease}
    (hleft : left ∈ m.leases) (hright : right ∈ m.leases) (hl : sameSlot lease left = true)
    (hr : sameSlot lease right = true) : left = right := by
  have hsymm : Std.Symm DistinctLeases := ⟨fun _ _ h => h.symm⟩
  by_contra hne
  simp only [sameSlot, Bool.and_eq_true, decide_eq_true_eq] at hl hr
  exact (hdist.forall hleft hright hne (hl.1.trans hr.1.symm)).1 (hl.2.trans hr.2.symm)

/-- The leases after one was stored: the new one, and those in other slots. -/
lemma mem_storeLease (hdist : m.leases.Pairwise DistinctLeases) (undo : UndoJournal)
    (lease : AdmissionLeaseV2) (height : UInt64) (stored : StoredLease) :
    stored ∈ (m.storeLease undo lease height).1.leases ↔
      stored = ⟨lease, height⟩ ∨ stored ∈ m.leases ∧ sameSlot lease stored = false := by
  obtain ⟨hfind, hleases⟩ | ⟨front, old, back, heq, hslot, hleases⟩ :=
    m.storeLease_leases undo lease height
  · have hother : ∀ stored ∈ m.leases, sameSlot lease stored = false := fun stored hmem =>
      Bool.eq_false_iff.mpr (List.find?_eq_none.mp hfind stored hmem)
    rw [hleases, List.mem_append, List.mem_singleton]
    constructor
    · rintro (hmem | rfl)
      · exact Or.inr ⟨hmem, hother stored hmem⟩
      · exact Or.inl rfl
    · rintro (rfl | ⟨hmem, -⟩)
      · exact Or.inr rfl
      · exact Or.inl hmem
  · -- the replaced lease was the only one in the slot
    have hrest : ∀ stored, stored ∈ front ∨ stored ∈ back → sameSlot lease stored = false := by
      intro stored hmem
      have hne : DistinctLeases old stored := by
        rw [heq, List.pairwise_append, List.pairwise_cons] at hdist
        obtain hfront | hback := hmem
        · exact (hdist.2.2 stored hfront old (by simp)).symm
        · exact hdist.2.1.1 stored hback
      refine Bool.eq_false_iff.mpr fun hsame => ?_
      simp only [sameSlot, Bool.and_eq_true, decide_eq_true_eq] at hslot hsame
      exact (hne (hslot.1.trans hsame.1.symm)).1 (hslot.2.trans hsame.2.symm)
    rw [hleases, heq]
    simp only [List.mem_append, List.mem_cons]
    constructor
    · rintro (hmem | rfl | hmem)
      · exact Or.inr ⟨Or.inl hmem, hrest stored (Or.inl hmem)⟩
      · exact Or.inl rfl
      · exact Or.inr ⟨Or.inr (Or.inr hmem), hrest stored (Or.inr hmem)⟩
    · rintro (rfl | ⟨hmem | rfl | hmem, hother⟩)
      · exact Or.inr (Or.inl rfl)
      · exact Or.inl hmem
      · rw [hslot] at hother
        cases hother
      · exact Or.inr (Or.inr hmem)

/-- A lease that passes the checks is included by the enrollment cutoff of its epoch. -/
lemma exists_cutoff_of_precheck
    (h : admissionPrecheck cr p m lease context height = .accepted) :
    ∃ cutoff, p.timing.enrollmentCutoff lease.targetEpoch = some cutoff ∧ height ≤ cutoff := by
  simp only [admissionPrecheck] at h
  repeat' split at h
  all_goals try cases h
  rename_i cutoff _ _ hcutoff _ hlate _ _
  exact ⟨cutoff, hcutoff, UInt64.not_lt.mp hlate⟩

lemma strictWeak_memberLess : StrictWeak memberLess :=
  (Bytes.strictWeak_memLess.comap FrozenMemberV2.servicePublicKey).lex
    (StrictWeak.uint64.comap FrozenMemberV2.sequence)

end MembershipPipelineV2

/-! ## Leases and the blocks that carried them -/

namespace SemanticStateV2

open MembershipPipelineV2 LifecycleRegistryV2

variable {cr : Crypto} {p : SemanticParametersV2} {contexts : CanonicalContextSourceV2}
  {height : UInt64} {s s' : SemanticStateV2} {log : AdmissionLeaseV2 → UInt64 → Prop}

/-- The stored leases of a state in which blocks have carried the leases in a log, with the
heights of the blocks. -/
structure Enrolled (cr : Crypto) (p : SemanticParametersV2)
    (log : AdmissionLeaseV2 → UInt64 → Prop) (s : SemanticStateV2) : Prop where
  chains : ∀ history ∈ s.lifecycle.histories, HistoryChain cr p.net history.records
  distinct : s.membership.leases.Pairwise DistinctLeases
  carried : ∀ stored ∈ s.membership.leases, log stored.lease stored.inclusionHeight
  kept : ∀ lease height, log lease height → ∃ stored ∈ s.membership.leases,
    sameSlot lease stored = true ∧ (stored.lease.member = lease.member ∨
      lease.member.sequence < stored.lease.member.sequence)
  in_time : ∀ stored ∈ s.membership.leases, ∃ cutoff,
    p.timing.enrollmentCutoff stored.lease.targetEpoch = some cutoff ∧
      stored.inclusionHeight ≤ cutoff
  justified : ∀ stored ∈ s.membership.leases,
    ∃ record ∈ s.lifecycle.recordsOf stored.lease.member.identityId,
      record.nextDescriptor.effectiveEpoch ≤ stored.lease.targetEpoch ∧
        record.nextDescriptor.sequence = stored.lease.member.sequence

lemma enrolled_fresh : Enrolled cr p (fun _ _ => False) {} :=
  ⟨by simp, List.Pairwise.nil, by simp, by simp, by simp, by simp⟩

lemma Enrolled.congr (h : Enrolled cr p log s) (hlifecycle : s'.lifecycle = s.lifecycle)
    (hleases : s'.membership.leases = s.membership.leases) : Enrolled cr p log s' := by
  refine ⟨hlifecycle ▸ h.chains, hleases ▸ h.distinct, hleases ▸ h.carried, hleases ▸ h.kept,
    hleases ▸ h.in_time, ?_⟩
  rw [hleases, hlifecycle]
  exact h.justified

/-- A lifecycle record only adds to the records that justify a lease. -/
lemma Enrolled.lifecycle {undo : LifecycleRegistryV2.UndoJournal} {record : LifecycleRecordV2}
    {inclusionEpoch minimumEffectiveEpoch : UInt64} (h : Enrolled cr p log s)
    (hacc : s.lifecycle.Accepts cr p.net record inclusionEpoch minimumEffectiveEpoch) :
    Enrolled cr p log { s with lifecycle := (s.lifecycle.store undo record).1 } := by
  refine ⟨hacc.historyChain_store undo h.chains, h.distinct, h.carried, h.kept, h.in_time, ?_⟩
  intro stored hmem
  obtain ⟨record', hrecord', hjustifies⟩ := h.justified stored hmem
  refine ⟨record', ?_, hjustifies⟩
  rw [hacc.recordsOf_store]
  split_ifs
  · exact List.mem_append_left _ hrecord'
  · exact hrecord'

lemma exists_of_leaseBound {lease : AdmissionLeaseV2} (h : leaseBound cr p s lease = true) :
    ∃ descriptor,
      s.lifecycle.descriptorForEpoch lease.member.identityId lease.targetEpoch =
        some descriptor ∧ descriptor.sequence = lease.member.sequence := by
  simp only [leaseBound] at h
  cases hdescriptor :
      s.lifecycle.descriptorForEpoch lease.member.identityId lease.targetEpoch with
  | none => simp [hdescriptor] at h
  | some descriptor =>
    simp only [hdescriptor, Option.any_some, Bool.and_eq_true, decide_eq_true_eq] at h
    exact ⟨descriptor, rfl, h.1.1.1.2⟩

/-- A lease that was stored names the descriptor of its epoch, and replaces only a lease with a
lower sequence. -/
lemma Enrolled.admission {undo : MembershipPipelineV2.UndoJournal} {lease : AdmissionLeaseV2}
    {context : AdmissionContextV2} (h : Enrolled cr p log s)
    (hbound : leaseBound cr p s lease = true)
    (hacc : s.membership.AdmissionAccepts cr p lease context height) :
    Enrolled cr p (fun lease' height' => log lease' height' ∨ lease' = lease ∧ height' = height)
      { s with membership := (s.membership.storeLease undo lease height).1 } := by
  have hmem := mem_storeLease h.distinct undo lease height
  refine ⟨h.chains, hacc.pairwise h.distinct, ?_, ?_, ?_, ?_⟩
  · intro stored hstored
    obtain rfl | ⟨hstored, -⟩ := (hmem stored).mp hstored
    · exact Or.inr ⟨rfl, rfl⟩
    · exact Or.inl (h.carried stored hstored)
  · rintro lease' height' (hlog | ⟨rfl, rfl⟩)
    · obtain ⟨stored, hstored, hslot, horder⟩ := h.kept lease' height' hlog
      by_cases hsame : sameSlot lease stored = true
      · -- the lease that stood for it was replaced
        have hfind : ∃ old, s.membership.leases.find? (sameSlot lease) = some old := by
          rw [← Option.isSome_iff_exists, List.find?_isSome]
          exact ⟨stored, hstored, hsame⟩
        obtain ⟨old, hfind⟩ := hfind
        obtain rfl := eq_of_sameSlot h.distinct (List.mem_of_find?_eq_some hfind) hstored
          (List.find?_some hfind) hsame
        have hnewer := (hacc.newer old hfind).2
        refine ⟨⟨lease, height⟩, (hmem _).mpr (Or.inl rfl), ?_, Or.inr ?_⟩
        · simp only [sameSlot, Bool.and_eq_true, decide_eq_true_eq] at hslot hsame ⊢
          exact ⟨hsame.1.symm.trans hslot.1, hsame.2.symm.trans hslot.2⟩
        · obtain heq | hlt := horder
          · rwa [← heq]
          · exact UInt64.lt_trans hlt hnewer
      · exact ⟨stored, (hmem stored).mpr (Or.inr ⟨hstored, Bool.eq_false_iff.mpr hsame⟩), hslot,
          horder⟩
    · exact ⟨⟨lease', height'⟩, (hmem _).mpr (Or.inl rfl), by simp [sameSlot], Or.inl rfl⟩
  · intro stored hstored
    obtain rfl | ⟨hstored, -⟩ := (hmem stored).mp hstored
    · exact exists_cutoff_of_precheck hacc.precheck
    · exact h.in_time stored hstored
  · intro stored hstored
    obtain rfl | ⟨hstored, -⟩ := (hmem stored).mp hstored
    · obtain ⟨descriptor, hdescriptor, hsequence⟩ := exists_of_leaseBound hbound
      rw [descriptorForEpoch_eq] at hdescriptor
      obtain ⟨record, hrecord, rfl, -, hforce, -⟩ := exists_of_selectDescriptor hdescriptor
      exact ⟨record, hrecord, hforce, hsequence⟩
    · exact h.justified stored hstored

lemma Enrolled.contentStep {content : RecordContent} (h : Enrolled cr p log s)
    (hstep : ContentStep cr p contexts height content s s') :
    Enrolled cr p (fun lease height' => log lease height' ∨
      height' = height ∧ content = .admission lease) s' := by
  -- only a lease adds to the log
  have hother : (∀ lease, content ≠ .admission lease) →
      (fun lease height' => log lease height' ∨ height' = height ∧ content = .admission lease) =
        log := by
    intro hne
    funext lease height'
    simp [hne lease]
  cases hstep with
  | lifecycle _ hacc =>
    rw [hother (by simp)]
    exact h.lifecycle hacc
  | knownLifecycle => rwa [hother (by simp)]
  | @admission _ _ lease _ _ hbound _ hacc =>
    have hlog : (fun lease' height' => log lease' height' ∨
        height' = height ∧ RecordContent.admission lease = .admission lease') =
        fun lease' height' => log lease' height' ∨ lease' = lease ∧ height' = height := by
      funext lease' height'
      simp [and_comm, eq_comm]
    rw [hlog]
    exact h.admission hbound hacc
  | @knownAdmission _ lease stored _ _ hpre hfind hsame =>
    simp only [sameLease, Bool.and_eq_true, decide_eq_true_eq] at hsame
    refine ⟨h.chains, h.distinct, fun stored hmem => Or.inl (h.carried stored hmem), ?_, h.in_time,
      h.justified⟩
    rintro lease' height' (hlog | ⟨-, heq⟩)
    · exact h.kept lease' height' hlog
    · cases heq
      exact ⟨stored, List.mem_of_find?_eq_some hfind, List.find?_some hfind, Or.inl hsame.1.2⟩
  | receipt =>
    rw [hother (by simp)]
    exact h.congr rfl rfl
  | knownReceipt => rwa [hother (by simp)]
  | paymentProof => rwa [hother (by simp)]

end SemanticStateV2

/-! ## Runs -/

namespace BlockTransitionV2

open MembershipPipelineV2 LifecycleRegistryV2

variable {cr : Crypto} {p : TransitionParametersV2} {contexts : CanonicalContextSourceV2}
  {call : Call} {core core' : TransitionCoreV2} {entry : UndoEntry}
  {rule : List BlockInputV2 → CanonicalContextSourceV2 → Prop} {chain : List BlockInputV2}
  {t t₀ : BlockTransitionV2} {b : BlockInputV2} {epoch : UInt64}

/-- The freeze touches neither the registry nor the leases nor the receipts. -/
lemma freezePhase_frame (hp : p.valid = true) {w w₁ : Work}
    (h : freezePhase cr p b w = (w₁, .accepted)) :
    w₁.state.lifecycle = w.state.lifecycle ∧
      w₁.state.membership.leases = w.state.membership.leases ∧
      w₁.state.membership.receipts = w.state.membership.receipts := by
  obtain ⟨status, -, hstatus, hphase, -⟩ | ⟨hphase, -⟩ | ⟨epoch, frozen, -, -, hphase⟩ :=
    freezePhase_cases cr (membershipValid_of_valid hp) b w <;>
    obtain ⟨rfl, heq⟩ := Prod.mk.inj (h.symm.trans hphase)
  · exact absurd heq.symm hstatus
  · exact ⟨rfl, rfl, rfl⟩
  · exact ⟨rfl, rfl, rfl⟩

lemma BlockAccepted.freeze_frame {parsed : List (List EnvelopeRecordV2)}
    {summary : BlockApplySummaryV2} {w₁ w₂ w₃ : Work}
    (h : BlockAccepted cr p contexts core b parsed summary w₁ w₂ w₃) :
    w₁.state.lifecycle = core.state.lifecycle ∧
      w₁.state.membership.leases = core.state.membership.leases ∧
      w₁.state.membership.receipts = core.state.membership.receipts :=
  freezePhase_frame (valid_of_blockPrecheck h.precheck) h.freeze

/-- The close touches neither the registry nor the leases, the receipts or the snapshots. -/
lemma BlockAccepted.close_frame {parsed : List (List EnvelopeRecordV2)}
    {summary : BlockApplySummaryV2} {w₁ w₂ w₃ : Work}
    (h : BlockAccepted cr p contexts core b parsed summary w₁ w₂ w₃) :
    w₃.state.lifecycle = w₂.state.lifecycle ∧
      w₃.state.membership.leases = w₂.state.membership.leases ∧
      w₃.state.membership.receipts = w₂.state.membership.receipts ∧
      w₃.state.membership.snapshots = w₂.state.membership.snapshots := by
  have hp := valid_of_blockPrecheck h.precheck
  obtain ⟨status, -, hstatus, hphase, -⟩ | ⟨hphase, -⟩ | ⟨epoch, closed, -, -, -, hphase⟩ :=
    closePhase_cases cr (membershipValid_of_valid hp) b w₂ <;>
    obtain ⟨rfl, heq⟩ := Prod.mk.inj (h.close.symm.trans hphase)
  · exact absurd heq.symm hstatus
  · exact ⟨rfl, rfl, rfl, rfl⟩
  · exact ⟨rfl, rfl, rfl, rfl⟩

lemma enrolled_step {log : AdmissionLeaseV2 → UInt64 → Prop}
    (h : core.state.Enrolled cr p.toSemanticParametersV2 log)
    (hstep : stepCore cr p call core = some (core', entry)) :
    core'.state.Enrolled cr p.toSemanticParametersV2
      (SemanticStateV2.logged .admission log call.2.height (call.2.records p)) := by
  obtain ⟨parsed, summary, w₁, w₂, w₃, hblock, rfl, -⟩ := stepCore_eq_some_iff.mp hstep
  obtain ⟨hlifecycle₁, hleases₁, -⟩ := hblock.freeze_frame
  obtain ⟨hlifecycle₃, hleases₃, -⟩ := hblock.close_frame
  have h₂ := hblock.contents.logged (fun hs hstep => hs.contentStep hstep)
    (h.congr hlifecycle₁ hleases₁)
  exact h₂.congr hlifecycle₃ hleases₃

/-- After every run, the stored leases are those that the blocks of the chain carried. -/
theorem Runs.enrolled (h : Runs cr p rule chain t) :
    t.state.Enrolled cr p.toSemanticParametersV2 (carriedBy p .admission chain) :=
  h.carried (P := fun log core => core.state.Enrolled cr p.toSemanticParametersV2 log)
    SemanticStateV2.enrolled_fresh fun hinv _ hstep => enrolled_step hinv hstep

/-! ## What a snapshot holds -/

/-- The registry authorizes for an identity the member of its descriptor. -/
lemma find?_authorizedMembers {s : SemanticStateV2} {p : SemanticParametersV2}
    (hr : WellFormed cr p.net s.lifecycle) {identityId : Hash} {member : FrozenMemberV2} :
    (s.authorizedMembers cr p epoch).find? (fun member => member.identityId = identityId) =
        some member ↔
      ∃ descriptor, s.lifecycle.descriptorForEpoch identityId epoch = some descriptor ∧
        descriptor.member cr p.net = member := by
  have hsound : ∀ {member}, (s.authorizedMembers cr p epoch).find?
      (fun member => member.identityId = identityId) = some member →
      ∃ descriptor, s.lifecycle.descriptorForEpoch identityId epoch = some descriptor ∧
        descriptor.member cr p.net = member := by
    intro member hfind
    obtain ⟨descriptor, hdescriptor, rfl⟩ := List.mem_map.mp (List.mem_of_find?_eq_some hfind)
    have hid := List.find?_some hfind
    have hid : descriptor.identityId = identityId := of_decide_eq_true hid
    exact ⟨descriptor, hid ▸ hr.mem_descriptorsForEpoch hdescriptor, rfl⟩
  refine ⟨hsound, ?_⟩
  rintro ⟨descriptor, hdescriptor, rfl⟩
  have hsome : ((s.authorizedMembers cr p epoch).find?
      (fun member => member.identityId = identityId)).isSome = true := by
    rw [List.find?_isSome]
    refine ⟨descriptor.member cr p.net, List.mem_map.mpr ⟨descriptor, ?_, rfl⟩, ?_⟩
    · obtain ⟨history, hmem, rfl, hselect⟩ := exists_history_of_descriptorForEpoch hdescriptor
      rw [descriptorsForEpoch, List.mem_insertionSort, List.mem_filterMap]
      exact ⟨history, hmem, hdescriptor⟩
    · exact decide_eq_true (hr.descriptorForEpoch hdescriptor).1
  obtain ⟨member, hmember⟩ := Option.isSome_iff_exists.mp hsome
  obtain ⟨descriptor', hdescriptor', rfl⟩ := hsound hmember
  obtain rfl := Option.some.inj (hdescriptor.symm.trans hdescriptor')
  exact hmember

/-- The members of a snapshot are the members that blocks carried leases for, as far as they are
what the registry has for their identity. -/
lemma mem_snapshotOf_iff {s : SemanticStateV2} {p : SemanticParametersV2}
    {log : AdmissionLeaseV2 → UInt64 → Prop} (hr : WellFormed cr p.net s.lifecycle)
    (henrolled : s.Enrolled cr p log) {cutoff height : UInt64} {anchorHash : Hash}
    (hcutoff : p.timing.enrollmentCutoff epoch = some cutoff) {member : FrozenMemberV2} :
    member ∈ (snapshotOf cr p.net epoch cutoff height anchorHash (eligibleMembers epoch cutoff
        (s.authorizedMembers cr p epoch) s.membership.leases)).members ↔
      (∃ lease included, log lease included ∧ included ≤ cutoff ∧ lease.targetEpoch = epoch ∧
        lease.member = member) ∧
      ∃ descriptor, s.lifecycle.descriptorForEpoch member.identityId epoch = some descriptor ∧
        descriptor.member cr p.net = member := by
  simp only [snapshotOf, List.mem_insertionSort, eligibleMembers, List.mem_map, List.mem_filter,
    eligible, Bool.and_eq_true, decide_eq_true_eq, find?_authorizedMembers hr]
  constructor
  · rintro ⟨stored, ⟨hmem, ⟨htarget, hincluded⟩, hdescriptor⟩, rfl⟩
    exact ⟨⟨stored.lease, stored.inclusionHeight, henrolled.carried stored hmem, hincluded,
      htarget, rfl⟩, hdescriptor⟩
  · rintro ⟨⟨lease, included, hlog, -, rfl, rfl⟩, descriptor, hdescriptor, hmember⟩
    obtain ⟨stored, hmem, hslot, horder⟩ := henrolled.kept lease included hlog
    simp only [sameSlot, Bool.and_eq_true, decide_eq_true_eq] at hslot
    have hsame : stored.lease.member = lease.member := by
      refine horder.resolve_right fun hlt => ?_
      -- a newer lease would name a record in force, but the lease names the newest of those
      obtain ⟨record, hrecord, hforce, hsequence⟩ := henrolled.justified stored hmem
      rw [hslot.2] at hrecord
      rw [hslot.1] at hforce
      rw [descriptorForEpoch_eq] at hdescriptor
      obtain hnil | ⟨history, hhistory, heq⟩ := s.lifecycle.recordsOf_eq lease.member.identityId
      · rw [hnil] at hrecord
        cases hrecord
      rw [heq] at hrecord hdescriptor
      have hle := sequence_le_of_selectDescriptor (henrolled.chains history hhistory).pairwise
        hdescriptor hrecord hforce
      have hlease : descriptor.sequence = lease.member.sequence :=
        congrArg FrozenMemberV2.sequence hmember
      rw [hsequence, hlease] at hle
      exact absurd hlt (UInt64.not_lt.mpr hle)
    obtain ⟨cutoff', hcutoff', hincluded⟩ := henrolled.in_time stored hmem
    rw [hslot.1, hcutoff] at hcutoff'
    obtain rfl := Option.some.inj hcutoff'
    exact ⟨stored, ⟨hmem, ⟨hslot.1, hincluded⟩, by
      rw [hsame]
      exact ⟨descriptor, hdescriptor, hmember⟩⟩, hsame⟩

lemma snapshotOf_sorted {net : Scope} {cutoff height : UInt64} {anchorHash : Hash}
    {collected : List FrozenMemberV2} (hdistinct : collected.Pairwise DistinctMembers) :
    (snapshotOf cr net epoch cutoff height anchorHash collected).members.Pairwise fun left right =>
      Bytes.memLess left.servicePublicKey.data right.servicePublicKey.data = true := by
  have hapart : ∀ {left right : FrozenMemberV2}, DistinctMembers left right →
      Apart memberLess left right := by
    intro left right hne
    obtain hlt | hgt := Bytes.apart_memLess hne.2
    · exact Or.inl (by simp [memberLess, hlt])
    · exact Or.inr (by simp [memberLess, hgt])
  have hkeys : (snapshotOf cr net epoch cutoff height anchorHash collected).members.Pairwise
      DistinctMembers :=
    (List.perm_insertionSort _ _).symm.pairwise hdistinct fun hne => ⟨hne.1.symm, hne.2.symm⟩
  refine ((strictWeak_memberLess.strictly (hdistinct.imp hapart)).and hkeys).imp ?_
  rintro left right ⟨hless, hne⟩
  obtain hlt | hgt := Bytes.apart_memLess hne.2
  · exact hlt
  · simp only [memberLess, hgt, Bytes.strictWeak_memLess.asymm hgt, Bool.false_eq_true, if_false,
      if_true] at hless

/-! ## Frozen membership does not change -/

/-- What is fixed about an epoch once its anchor is connected. -/
structure FixedAt (cr : Crypto) (p : TransitionParametersV2) (epoch : UInt64)
    (frozen : MembershipSnapshotV2) (descriptors : List IdentityDescriptorV2)
    (core : TransitionCoreV2) : Prop where
  invariant : FrozenInvariant cr p core
  snapshot : core.state.membership.snapshot epoch = some frozen
  descriptors : core.state.lifecycle.descriptorsForEpoch epoch = descriptors

/-- The records of a block keep the descriptors of every epoch whose anchor is not above it. -/
lemma descriptorsForEpoch_of_evolves {s s' : SemanticStateV2} {height : UInt64}
    (hv : p.timing.valid = true)
    (h : SemanticStateV2.Evolves cr p.toSemanticParametersV2 contexts height s s')
    (hanchor : epoch.toNat * p.timing.len ≤ height.toNat + p.timing.depth) :
    s'.lifecycle.descriptorsForEpoch epoch = s.lifecycle.descriptorsForEpoch epoch := by
  refine h.invariant (P := fun s' => s'.lifecycle.descriptorsForEpoch epoch =
    s.lifecycle.descriptorsForEpoch epoch) ?_ rfl
  intro s₁ undo s₂ undo' hstep hs
  cases hstep with
  | @lifecycle _ _ record _ _ hepochs hacc =>
    have hlater := UInt64.lt_of_lt_of_le
      (SemanticStateV2.lt_minimumEffectiveEpoch hv hepochs hanchor) hacc.minimum_le
    exact (hacc.descriptorsForEpoch_store undo.lifecycle hlater).trans hs
  | admission => exact hs
  | receipt => exact hs

lemma freezePhase_snapshot {w w₁ : Work} {frozen : MembershipSnapshotV2}
    (hp : p.membershipValid = true) (h : freezePhase cr p b w = (w₁, .accepted))
    (hsnapshot : w.state.membership.snapshot epoch = some frozen) :
    w₁.state.membership.snapshot epoch = some frozen := by
  obtain ⟨status, -, hstatus, hphase, -⟩ | ⟨hphase, -⟩ | ⟨epoch', frozen', -, hfreezes, hphase⟩ :=
    freezePhase_cases cr hp b w <;>
    obtain ⟨rfl, heq⟩ := Prod.mk.inj (h.symm.trans hphase)
  · exact absurd heq.symm hstatus
  · exact hsnapshot
  · have hne : epoch' ≠ epoch := by
      rintro rfl
      exact hfreezes.fresh (mem_snapshots_of_snapshot hsnapshot)
    rw [snapshot] at hsnapshot ⊢
    simpa [storeSnapshot, Std.ExtTreeMap.getElem?_insert, hne] using hsnapshot

/-- The rest of a block, after the freeze, keeps the snapshots and what is fixed. -/
lemma BlockAccepted.fixed {parsed : List (List EnvelopeRecordV2)} {summary : BlockApplySummaryV2}
    {w₁ w₂ w₃ : Work} (h : BlockAccepted cr p contexts core b parsed summary w₁ w₂ w₃)
    (hinv : FrozenInvariant cr p core) {frozen : MembershipSnapshotV2}
    (hsnapshot : w₁.state.membership.snapshot epoch = some frozen)
    (hanchor : epoch.toNat * p.timing.len ≤ b.height.toNat + p.timing.depth) :
    w₃.state.membership.snapshot epoch = some frozen ∧
      w₃.state.lifecycle.descriptorsForEpoch epoch =
        core.state.lifecycle.descriptorsForEpoch epoch := by
  have hv := timing_valid (valid_of_blockPrecheck h.precheck)
  have hevolves := transactionsPhase_evolves cr p contexts b.height (b.transactions.zip parsed)
    w₁ {}
  rw [h.transactions] at hevolves
  obtain ⟨hlifecycle₁, hleases₁, -⟩ := h.freeze_frame
  obtain ⟨hlifecycle₃, -, -, hsnapshots₃⟩ := h.close_frame
  have hsnapshots₂ := (hevolves.epochs (hinv.epochs.leases.congr hleases₁)).2.1
  constructor
  · rwa [snapshot, hsnapshots₃, hsnapshots₂]
  · rw [hlifecycle₃, descriptorsForEpoch_of_evolves hv hevolves hanchor, hlifecycle₁]

lemma FixedAt.step {frozen : MembershipSnapshotV2} {descriptors : List IdentityDescriptorV2}
    (h : FixedAt cr p epoch frozen descriptors core)
    (hstep : stepCore cr p call core = some (core', entry)) :
    FixedAt cr p epoch frozen descriptors core' := by
  have hinv := h.invariant.step hstep
  obtain ⟨parsed, summary, w₁, w₂, w₃, hblock, rfl, -⟩ := stepCore_eq_some_iff.mp hstep
  have hp := valid_of_blockPrecheck hblock.precheck
  have hanchor := ((h.invariant.epochs.frozen epoch).mp (mem_snapshots_of_snapshot h.snapshot)).2.1
  rw [← height_eq_nextHeight hblock.precheck] at hanchor
  obtain ⟨hsnapshot, hdescriptors⟩ := hblock.fixed h.invariant
    (freezePhase_snapshot (membershipValid_of_valid hp) hblock.freeze h.snapshot) (by omega)
  exact ⟨hinv, hsnapshot, hdescriptors.trans h.descriptors⟩

/-- **Frozen membership is exact and does not change.**  When a block is accepted at the anchor
of a served epoch, the snapshot of the epoch holds exactly the members for which a block of the
chain carried a lease by the enrollment cutoff and which are what the registry has for their
identity in the epoch when the anchor comes.  They are sorted by service key, for different
identities, and not more than the population allows.  As long as the anchor stays connected, no
block changes the snapshot or the descriptors of the epoch. -/
theorem frozen_membership_exact (h : Runs cr p rule chain t₀)
    (hblock : (t₀.applyBlock cr p contexts b).status = .accepted)
    (hanchor : p.timing.committeeAnchor epoch = some b.height)
    (hserved : ∃ firstService, p.timing.firstServiceEpoch = some firstService ∧
      firstService ≤ epoch) :
    ∃ cutoff frozen, p.timing.enrollmentCutoff epoch = some cutoff ∧
      (∀ member, member ∈ frozen.members ↔
        (∃ earlier ∈ chain, earlier.height ≤ cutoff ∧ ∃ lease,
          earlier.Carries p (.admission lease) ∧ lease.targetEpoch = epoch ∧
            lease.member = member) ∧
        ∃ descriptor,
          t₀.state.lifecycle.descriptorForEpoch member.identityId epoch = some descriptor ∧
            descriptor.member cr p.net = member) ∧
      frozen.members.Pairwise (fun left right =>
        Bytes.memLess left.servicePublicKey.data right.servicePublicKey.data = true) ∧
      frozen.members.Pairwise (fun left right => left.identityId ≠ right.identityId) ∧
      frozen.members.length ≤ p.committeePolicy.maxActivePopulation ∧
      ∀ t, Later cr p b.height (t₀.applyBlock cr p contexts b).transition t →
        t.state.membership.snapshot epoch = some frozen ∧
          t.state.lifecycle.descriptorsForEpoch epoch =
            t₀.state.lifecycle.descriptorsForEpoch epoch := by
  obtain ⟨entry, hstep, -⟩ := applyBlock_eq_stepCore hblock
  obtain ⟨parsed, summary, w₁, w₂, w₃, hacc, hcore, -⟩ := stepCore_eq_some_iff.mp hstep
  have hp := valid_of_blockPrecheck hacc.precheck
  have hv := timing_valid hp
  have hinv := h.frozenInvariant hp
  have hepoch := (freezeEpoch_eq_some_iff hv).mpr hanchor
  obtain ⟨firstService, hfirst, hle⟩ := hserved
  -- the block freezes the epoch
  obtain ⟨frozen, hfreezes, hsnapshot⟩ : ∃ frozen,
      t₀.state.membership.Freezes cr p.toSemanticParametersV2 epoch b.height b.blockHash
        (t₀.state.authorizedMembers cr p.toSemanticParametersV2 epoch) frozen ∧
      w₁.state.membership.snapshot epoch = some frozen := by
    obtain ⟨status, _, hstatus, hphase, -⟩ | ⟨-, hidle⟩ | ⟨epoch', frozen, hepoch', hfreezes, hphase⟩ :=
      freezePhase_cases cr (membershipValid_of_valid hp) b ⟨t₀.state, t₀.state.checkpoint⟩
    · exact absurd (congrArg Prod.snd (hacc.freeze.symm.trans hphase)).symm hstatus
    · exact absurd (hidle epoch firstService hepoch hfirst) (UInt64.not_lt.mpr hle)
    · obtain rfl := Option.some.inj (hepoch.symm.trans hepoch')
      obtain ⟨rfl, -⟩ := Prod.mk.inj (hacc.freeze.symm.trans hphase)
      exact ⟨frozen, hfreezes, by simp [snapshot, storeSnapshot]⟩
  obtain ⟨cutoff, hcutoff, hdistinct, hlength, hfrozen⟩ := hfreezes.members
  have hstart := ((EpochTimingV2.committeeAnchor_eq_some_iff hv).mp hanchor).1
  obtain ⟨hsnapshot₃, hdescriptors₃⟩ := hacc.fixed hinv hsnapshot hstart.le
  refine ⟨cutoff, frozen, hcutoff, fun member => ?_, hfrozen ▸ snapshotOf_sorted hdistinct, ?_, ?_,
    fun t hlater => ?_⟩
  · rw [hfrozen, mem_snapshotOf_iff hinv.backed.registry h.enrolled hcutoff]
    refine and_congr_left fun _ => ⟨?_, ?_⟩
    · rintro ⟨lease, _, ⟨earlier, hmem, rfl, hcarries⟩, hincluded, hlease⟩
      exact ⟨earlier, hmem, hincluded, lease, hcarries, hlease⟩
    · rintro ⟨earlier, hmem, hincluded, lease, hcarries, hlease⟩
      exact ⟨lease, earlier.height, ⟨earlier, hmem, rfl, hcarries⟩, hincluded, hlease⟩
  · rw [hfrozen]
    exact ((List.perm_insertionSort _ _).symm.pairwise hdistinct
      fun hne => ⟨hne.1.symm, hne.2.symm⟩).imp fun hne => hne.1
  · rw [hfrozen, snapshotOf, List.length_insertionSort]
    exact hlength
  · have hfixed := hlater.invariant (P := FixedAt cr p epoch frozen
      (t₀.state.lifecycle.descriptorsForEpoch epoch)) h hblock
      ⟨hinv.step hstep, by rw [hcore]; exact hsnapshot₃, by rw [hcore]; exact hdescriptors₃⟩
      fun hfixed hstep => hfixed.step hstep
    exact ⟨hfixed.snapshot, hfixed.descriptors⟩

/-- A block whose Coinbase carries records. -/
def sampleInput (height : UInt64) (records : List EnvelopeRecordV2) : BlockInputV2 :=
  ConsensusCoordinatorV2.transitionInput (.idle height)
    (.sampleCoinbase height [] (sampleExtra [] records)) none

/-- Two operators enrol at height 1. -/
def sampleEnrolled : Option BlockTransitionV2 :=
  replay .sample .sample (fun _ => .sample) [sampleInput 0 [], sampleInput 1 sampleEnrolment]

/-- The block at height 2 freezes the two operators. -/
theorem frozen_membership_exact_sample :
    ∃ t₀ frozen, sampleEnrolled = some t₀ ∧
      (t₀.applyBlock .sample .sample .sample (sampleInput 2 [])).transition.state.membership.snapshot
        1 = some frozen ∧
      frozen.members.length = 2 ∧ frozen.members.Pairwise (fun left right =>
        Bytes.memLess left.servicePublicKey.data right.servicePublicKey.data = true) := by
  have hfacts : sampleEnrolled.map (fun t₀ =>
      let applied := t₀.applyBlock .sample .sample .sample (sampleInput 2 [])
      (applied.status, (applied.transition.state.membership.snapshot 1).map
        (·.members.length))) = some (.accepted, some 2) := by
    decide +kernel
  obtain ⟨t₀, ht₀, hfacts⟩ := Option.map_eq_some_iff.mp hfacts
  obtain ⟨hstatus, hlength⟩ := Prod.mk.inj hfacts
  have hruns : Runs .sample .sample (fun _ _ => True) _ t₀ := runs_of_replay (fun _ => trivial) ht₀
  obtain ⟨_, frozen, -, -, hsorted, -, -, hlater⟩ := frozen_membership_exact hruns hstatus
    (show TransitionParametersV2.sample.timing.committeeAnchor 1 = some 2 by decide)
    ⟨1, by decide, by decide⟩
  have hsnapshot := (hlater _ .start).1
  rw [hsnapshot] at hlength
  exact ⟨t₀, frozen, ht₀, hsnapshot, Option.some.inj hlength, hsorted⟩

end BlockTransitionV2

end Qwertycoin
