import Qwertycoin.Lifecycle

/-
# Histories

The records of an identity are appended, never changed.  So every history that the registry holds
is well formed: it is not empty, all its records are about its identity, and they take effect in
strictly later and later epochs.  A record that takes effect after an epoch does not change which
descriptor an identity has in that epoch.
-/

namespace Qwertycoin

namespace LifecycleRegistryV2

variable {cr : Crypto} {net : Scope} {r : LifecycleRegistryV2} {undo : UndoJournal}
  {record : LifecycleRecordV2} {inclusionEpoch minimumEffectiveEpoch : UInt64}

/-! ## Stored records -/

/-- The records stored for an identity; there are none when it is unknown. -/
def recordsOf (r : LifecycleRegistryV2) (identityId : Hash) : List LifecycleRecordV2 :=
  ((r.findHistory identityId).map (·.records)).getD []

lemma descriptorForEpoch_eq (r : LifecycleRegistryV2) (identityId : Hash) (epoch : UInt64) :
    r.descriptorForEpoch identityId epoch = selectDescriptor (r.recordsOf identityId) epoch := by
  rw [descriptorForEpoch, recordsOf]
  cases r.findHistory identityId <;> rfl

lemma Accepts.unknown (h : r.Accepts cr net record inclusionEpoch minimumEffectiveEpoch)
    (haction : record.action = .registerIdentity) :
    r.findHistory record.nextDescriptor.identityId = none := by
  have htransition := h.transition
  simp only [transitionStatus, if_pos haction] at htransition
  split_ifs at htransition with hknown
  simpa using hknown

lemma Accepts.known (h : r.Accepts cr net record inclusionEpoch minimumEffectiveEpoch)
    (haction : record.action ≠ .registerIdentity) :
    ∃ history last, r.findHistory record.nextDescriptor.identityId = some history ∧
      history.records.getLast? = some last ∧
      last.nextDescriptor.effectiveEpoch < record.nextDescriptor.effectiveEpoch := by
  have htransition := h.transition
  simp only [transitionStatus, if_neg haction] at htransition
  cases hlast : (r.findHistory record.nextDescriptor.identityId).bind (·.records.getLast?) with
  | none => simp [hlast] at htransition
  | some last =>
    obtain ⟨history, hfind, hrecords⟩ := Option.bind_eq_some_iff.mp hlast
    refine ⟨history, last, hfind, hrecords, UInt64.not_le.mp fun hle => ?_⟩
    simp only [hlast] at htransition
    split_ifs at htransition

/-- The histories after a record was stored: its identity is new, or its history has grown. -/
lemma Accepts.store_histories
    (h : r.Accepts cr net record inclusionEpoch minimumEffectiveEpoch) (undo : UndoJournal) :
    let id := record.nextDescriptor.identityId
    (r.findHistory id = none ∧ (r.store undo record).1.histories = r.histories ++ [⟨id, [record]⟩]) ∨
      ∃ front records last back,
        r.histories = front ++ ⟨id, records⟩ :: back ∧
        (∀ other ∈ front, other.identityId ≠ id) ∧ records.getLast? = some last ∧
        last.nextDescriptor.effectiveEpoch < record.nextDescriptor.effectiveEpoch ∧
        (r.store undo record).1.histories = front ++ ⟨id, records ++ [record]⟩ :: back := by
  by_cases haction : record.action = .registerIdentity
  · exact Or.inl ⟨h.unknown haction, by simp [store, haction]⟩
  · right
    obtain ⟨⟨id, records⟩, last, hfind, hlast, hlater⟩ := h.known haction
    obtain ⟨hid, front, back, heq, hfront⟩ := List.find?_eq_some_iff_append.mp hfind
    obtain rfl : id = record.nextDescriptor.identityId := of_decide_eq_true hid
    simp only [Bool.not_eq_true', decide_eq_false_iff_not] at hfront
    have hindex : r.historyIndex record.nextDescriptor.identityId = front.length := by
      have hnone : front.findIdx (fun history =>
          history.identityId = record.nextDescriptor.identityId) = front.length := by
        rw [List.findIdx_eq_length]
        simpa using hfront
      simp [historyIndex, heq, List.findIdx_append, hnone, List.findIdx_cons]
    refine ⟨front, records, last, back, heq, hfront, hlast, hlater, ?_⟩
    simp [store, haction, hindex, heq, List.modify_eq_take_drop]

lemma Accepts.recordsOf_store
    (h : r.Accepts cr net record inclusionEpoch minimumEffectiveEpoch) (undo : UndoJournal)
    (identityId : Hash) :
    (r.store undo record).1.recordsOf identityId =
      if identityId = record.nextDescriptor.identityId then r.recordsOf identityId ++ [record]
      else r.recordsOf identityId := by
  simp only [recordsOf, findHistory]
  obtain ⟨hnone, hstore⟩ | ⟨front, records, last, back, heq, hfront, -, -, hstore⟩ :=
    h.store_histories undo
  · rw [hstore, List.find?_append]
    split_ifs with hid
    · subst hid
      rw [findHistory] at hnone
      simp [hnone]
    · have hne : record.nextDescriptor.identityId ≠ identityId := fun heq => hid heq.symm
      simp [hne]
  · rw [hstore, heq, List.find?_append, List.find?_append]
    split_ifs with hid
    · subst hid
      have hskip : front.find? (fun history =>
          history.identityId = record.nextDescriptor.identityId) = none := by
        simpa using hfront
      simp [hskip]
    · have hne : record.nextDescriptor.identityId ≠ identityId := fun heq => hid heq.symm
      simp [hne]

/-! ## Well-formed histories -/

/-- A history as the registry builds it. -/
structure HistoryValid (cr : Crypto) (net : Scope) (history : IdentityHistory) : Prop where
  nonempty : history.records ≠ []
  owner : ∀ record ∈ history.records, record.nextDescriptor.identityId = history.identityId
  well_formed : ∀ record ∈ history.records,
    validateLifecycleRecordStructureV2 cr net record = .accepted
  increasing : history.records.Pairwise fun earlier later =>
    earlier.nextDescriptor.effectiveEpoch < later.nextDescriptor.effectiveEpoch

/-- A record that takes effect later than the last one continues a history. -/
lemma HistoryValid.append {id : Hash} {records : List LifecycleRecordV2} {last : LifecycleRecordV2}
    (h : HistoryValid cr net ⟨id, records⟩) (hlast : records.getLast? = some last)
    (hlater : last.nextDescriptor.effectiveEpoch < record.nextDescriptor.effectiveEpoch)
    (hid : record.nextDescriptor.identityId = id)
    (hstructure : validateLifecycleRecordStructureV2 cr net record = .accepted) :
    HistoryValid cr net ⟨id, records ++ [record]⟩ := by
  have hbefore : ∀ earlier ∈ records,
      earlier.nextDescriptor.effectiveEpoch < record.nextDescriptor.effectiveEpoch := by
    obtain ⟨front, rfl⟩ := List.getLast?_eq_some_iff.mp hlast
    intro earlier hmem
    obtain hmem | hmem := List.mem_append.mp hmem
    · exact UInt64.lt_trans ((List.pairwise_append.mp h.increasing).2.2 earlier hmem last
        (List.mem_singleton_self _)) hlater
    · obtain rfl := List.mem_singleton.mp hmem
      exact hlater
  refine ⟨by simp, ?_, ?_, ?_⟩
  · simpa [or_imp, forall_and] using ⟨h.owner, hid⟩
  · simpa [or_imp, forall_and] using ⟨h.well_formed, hstructure⟩
  · exact List.pairwise_append.mpr ⟨h.increasing, List.pairwise_singleton _ _, by simpa using hbefore⟩

/-- What holds of every registry that was built by accepted records. -/
structure WellFormed (cr : Crypto) (net : Scope) (r : LifecycleRegistryV2) : Prop where
  histories : ∀ history ∈ r.histories, HistoryValid cr net history
  distinct : r.histories.Pairwise fun left right => left.identityId ≠ right.identityId

lemma wellFormed_fresh : WellFormed cr net {} :=
  ⟨by simp, List.Pairwise.nil⟩

lemma WellFormed.store (hr : WellFormed cr net r)
    (h : r.Accepts cr net record inclusionEpoch minimumEffectiveEpoch) (undo : UndoJournal) :
    WellFormed cr net (r.store undo record).1 := by
  obtain ⟨hnone, hstore⟩ | ⟨front, records, last, back, heq, hfront, hlast, hlater, hstore⟩ :=
    h.store_histories undo
  · have hnew : HistoryValid cr net ⟨record.nextDescriptor.identityId, [record]⟩ :=
      ⟨by simp, by simp, by simpa using h.structure_ok, List.pairwise_singleton _ _⟩
    have hother : ∀ history ∈ r.histories,
        history.identityId ≠ record.nextDescriptor.identityId := by
      simpa [findHistory] using hnone
    constructor
    · rw [hstore]
      simpa [or_imp, forall_and] using ⟨hr.histories, hnew⟩
    · rw [hstore]
      exact List.pairwise_append.mpr ⟨hr.distinct, List.pairwise_singleton _ _, by simpa using hother⟩
  · have hvalid := hr.histories
    have hdistinct := hr.distinct
    rw [heq] at hvalid hdistinct
    have hgrown := (hvalid ⟨_, records⟩ (by simp)).append hlast hlater rfl h.structure_ok
    constructor
    · rw [hstore]
      simp only [List.mem_append, List.mem_cons, or_imp, forall_and, forall_eq] at hvalid ⊢
      exact ⟨hvalid.1, hgrown, hvalid.2.2⟩
    · rw [hstore]
      simpa only [List.pairwise_append, List.pairwise_cons, List.mem_cons, forall_eq_or_imp]
        using hdistinct

/-! ## The descriptor of an epoch -/

/-- A record that takes effect after an epoch does not change the choice for that epoch. -/
lemma selectDescriptor_append {records : List LifecycleRecordV2} {epoch : UInt64}
    (hlater : epoch < record.nextDescriptor.effectiveEpoch) :
    selectDescriptor (records ++ [record]) epoch = selectDescriptor records epoch := by
  have hstop : ¬record.nextDescriptor.effectiveEpoch ≤ epoch := UInt64.not_le.mpr hlater
  have htake : (records ++ [record]).takeWhile (fun record =>
      record.nextDescriptor.effectiveEpoch ≤ epoch) =
      records.takeWhile fun record => record.nextDescriptor.effectiveEpoch ≤ epoch := by
    rw [List.takeWhile_append]
    split_ifs with hall
    · simp [hstop, (List.takeWhile_prefix _).eq_of_length hall]
    · rfl
  rw [selectDescriptor, selectDescriptor, htake]

/-- **Past epochs are settled.**  A record that takes effect after an epoch leaves the descriptor
of every identity in that epoch as it was. -/
theorem Accepts.descriptorForEpoch_store
    (h : r.Accepts cr net record inclusionEpoch minimumEffectiveEpoch) (undo : UndoJournal)
    {epoch : UInt64} (hlater : epoch < record.nextDescriptor.effectiveEpoch) (identityId : Hash) :
    (r.store undo record).1.descriptorForEpoch identityId epoch =
      r.descriptorForEpoch identityId epoch := by
  rw [descriptorForEpoch_eq, descriptorForEpoch_eq, h.recordsOf_store]
  split_ifs
  · exact selectDescriptor_append hlater
  · rfl

/-- The descriptor of an epoch comes from a record that is in force in it. -/
lemma exists_of_selectDescriptor {records : List LifecycleRecordV2} {epoch : UInt64}
    {descriptor : IdentityDescriptorV2} (h : selectDescriptor records epoch = some descriptor) :
    ∃ record ∈ records, record.nextDescriptor = descriptor ∧
      record.action ≠ .deregisterIdentity ∧ descriptor.effectiveEpoch ≤ epoch ∧
      epoch < descriptor.expiryEpoch := by
  rw [selectDescriptor] at h
  split at h
  · cases h
  rename_i selected hlast
  split_ifs at h with hgone
  cases h
  have hmem := List.mem_of_getLast? hlast
  rw [not_or, UInt64.not_le] at hgone
  have heffective := List.mem_takeWhile_imp hmem
  exact ⟨selected, (List.takeWhile_sublist _).mem hmem, rfl, hgone.2,
    of_decide_eq_true heffective, hgone.1⟩

lemma exists_history_of_descriptorForEpoch {identityId : Hash} {epoch : UInt64}
    {descriptor : IdentityDescriptorV2}
    (h : r.descriptorForEpoch identityId epoch = some descriptor) :
    ∃ history ∈ r.histories, history.identityId = identityId ∧
      selectDescriptor history.records epoch = some descriptor := by
  obtain ⟨history, hfind, hselect⟩ := Option.bind_eq_some_iff.mp h
  rw [findHistory] at hfind
  have hid := List.find?_some hfind
  exact ⟨history, List.mem_of_find?_eq_some hfind, of_decide_eq_true hid, hselect⟩

lemma WellFormed.descriptorForEpoch (hr : WellFormed cr net r) {identityId : Hash}
    {epoch : UInt64} {descriptor : IdentityDescriptorV2}
    (h : r.descriptorForEpoch identityId epoch = some descriptor) :
    descriptor.identityId = identityId ∧ descriptorShapeValid cr descriptor = true := by
  obtain ⟨history, hmem, rfl, hselect⟩ := exists_history_of_descriptorForEpoch h
  obtain ⟨record, hrecord, rfl, -⟩ := exists_of_selectDescriptor hselect
  have hvalid := hr.histories history hmem
  refine ⟨hvalid.owner record hrecord, ?_⟩
  have hstructure := hvalid.well_formed record hrecord
  simp only [validateLifecycleRecordStructureV2] at hstructure
  split_ifs at hstructure with _ _ hshape
  simp only [Bool.or_eq_true, Bool.not_eq_true', not_or, Bool.not_eq_false] at hshape
  exact hshape.1

/-- The descriptors of an epoch are what the registry answers for their identities. -/
lemma WellFormed.mem_descriptorsForEpoch (hr : WellFormed cr net r) {epoch : UInt64}
    {descriptor : IdentityDescriptorV2} (h : descriptor ∈ r.descriptorsForEpoch epoch) :
    r.descriptorForEpoch descriptor.identityId epoch = some descriptor := by
  rw [descriptorsForEpoch, List.mem_insertionSort, List.mem_filterMap] at h
  obtain ⟨history, -, hselect⟩ := h
  rwa [(hr.descriptorForEpoch hselect).1]

end LifecycleRegistryV2

end Qwertycoin
