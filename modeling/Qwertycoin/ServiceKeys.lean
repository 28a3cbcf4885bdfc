import Qwertycoin.Histories

/-
# Service keys

In no epoch do two identities hold one service key.  The registry refuses a record whose interval
meets an interval in which another identity holds the key.  The interval of a stored record is cut
short when a later record of its identity takes effect, and the lookup of a descriptor answers
within the intervals that were cut short, so an interval that was free once stays free.

The second half is about the shape of a history: a registration, continued record by record.
-/

namespace Qwertycoin

namespace LifecycleRegistryV2

variable {cr : Crypto} {net : Scope} {r : LifecycleRegistryV2} {undo : UndoJournal}
  {record : LifecycleRecordV2} {inclusionEpoch minimumEffectiveEpoch : UInt64}

/-- The registries that calls of `apply` lead to, whatever the records and the epochs are. -/
inductive Reached (cr : Crypto) (net : Scope) : LifecycleRegistryV2 → Prop
  | fresh : Reached cr net {}
  | apply {r : LifecycleRegistryV2} (undo : UndoJournal) (record : LifecycleRecordV2)
      (inclusionEpoch minimumEffectiveEpoch : UInt64) : Reached cr net r →
      Reached cr net (r.apply cr net undo record inclusionEpoch minimumEffectiveEpoch).registry

/-- The invariant rule: a property of the fresh registry that every accepted record keeps. -/
lemma Reached.invariant {P : LifecycleRegistryV2 → Prop} (hfresh : P {})
    (hstore : ∀ r undo record inclusionEpoch minimumEffectiveEpoch, P r →
      Accepts cr net r record inclusionEpoch minimumEffectiveEpoch → P (r.store undo record).1)
    (h : Reached cr net r) : P r := by
  induction h with
  | fresh => exact hfresh
  | @apply r undo record inclusionEpoch minimumEffectiveEpoch _ ih =>
    by_cases hnet : net.valid = true
    · obtain ⟨_, _, -, happly⟩ | ⟨_, hacc, happly⟩ :=
        apply_cases cr hnet r undo record inclusionEpoch minimumEffectiveEpoch
      · rw [happly]
        exact ih
      · rw [happly]
        exact hstore _ _ _ _ _ ih hacc
    · -- an invalid scope refuses every record
      have hstatus : (r.applyStatus cr net record inclusionEpoch minimumEffectiveEpoch) =
          (.invalidContext, 0) := by
        simp [applyStatus, hnet]
      simpa [LifecycleRegistryV2.apply, hstatus] using ih

/-! ## Exclusive keys -/

lemma selectDescriptor_cons (record : LifecycleRecordV2) (later : List LifecycleRecordV2)
    (epoch : UInt64) :
    selectDescriptor (record :: later) epoch =
      if record.nextDescriptor.effectiveEpoch ≤ epoch then
        if ∃ following ∈ later.head?, following.nextDescriptor.effectiveEpoch ≤ epoch then
          selectDescriptor later epoch
        else selectDescriptor [record] epoch
      else none := by
  by_cases hforce : record.nextDescriptor.effectiveEpoch ≤ epoch
  · cases later with
    | nil => simp [hforce]
    | cons following rest =>
      by_cases hnext : following.nextDescriptor.effectiveEpoch ≤ epoch
      · simp [selectDescriptor, hforce, hnext, List.getLast?_cons_cons]
      · simp [selectDescriptor, hforce, hnext]
  · simp [selectDescriptor, hforce]

/-- A history that answers with the proposed key in an epoch of the proposed interval holds it. -/
lemma recordsHoldKey_of_selectDescriptor {next descriptor : IdentityDescriptorV2} {epoch : UInt64}
    (hlow : next.effectiveEpoch ≤ epoch) (hhigh : epoch < next.expiryEpoch)
    (hkey : descriptor.servicePublicKey = next.servicePublicKey)
    {records : List LifecycleRecordV2} (h : selectDescriptor records epoch = some descriptor) :
    recordsHoldKey next records = true := by
  induction records with
  | nil => simp [selectDescriptor] at h
  | cons record later ih =>
    rw [selectDescriptor_cons] at h
    split_ifs at h with hforce hnext
    · simp [recordsHoldKey, ih h]
    · -- the record itself is chosen, so its interval reaches beyond the epoch
      obtain ⟨selected, hselected, rfl, haction, -, hexpiry⟩ := exists_of_selectDescriptor h
      obtain rfl := List.mem_singleton.mp hselected
      have hstart := UInt64.lt_of_le_of_lt hforce hhigh
      cases later with
      | nil => simp [recordsHoldKey, haction, hkey, hstart, UInt64.lt_of_le_of_lt hlow hexpiry]
      | cons following rest =>
        simp only [List.head?_cons, Option.mem_some_iff, exists_eq_left', UInt64.not_le] at hnext
        have hend : next.effectiveEpoch < min selected.nextDescriptor.expiryEpoch
            following.nextDescriptor.effectiveEpoch := by
          simp only [min]
          split_ifs
          · exact UInt64.lt_of_le_of_lt hlow hexpiry
          · exact UInt64.lt_of_le_of_lt hlow hnext
        simp [recordsHoldKey, haction, hkey, hstart, hend]

/-- The descriptor of an epoch after a record was stored is the one before or that of the
record, in the interval of the record. -/
lemma Accepts.descriptorForEpoch_store_cases
    (h : r.Accepts cr net record inclusionEpoch minimumEffectiveEpoch) {identityId : Hash}
    {epoch : UInt64} {descriptor : IdentityDescriptorV2}
    (hselect : (r.store undo record).1.descriptorForEpoch identityId epoch = some descriptor) :
    r.descriptorForEpoch identityId epoch = some descriptor ∨
      identityId = record.nextDescriptor.identityId ∧ descriptor = record.nextDescriptor ∧
        record.action ≠ .deregisterIdentity ∧ descriptor.effectiveEpoch ≤ epoch ∧
        epoch < descriptor.expiryEpoch := by
  rw [descriptorForEpoch_eq, h.recordsOf_store] at hselect
  rw [descriptorForEpoch_eq]
  split_ifs at hselect with hid
  · by_cases hlater : epoch < record.nextDescriptor.effectiveEpoch
    · rw [selectDescriptor_append hlater] at hselect
      exact Or.inl hselect
    have hforce := UInt64.not_lt.mp hlater
    by_cases hall : (r.recordsOf identityId).takeWhile (fun stored =>
        stored.nextDescriptor.effectiveEpoch ≤ epoch) = r.recordsOf identityId
    · -- every earlier record is in force, so the new one is the last
      right
      have htake : (r.recordsOf identityId ++ [record]).takeWhile (fun stored =>
          stored.nextDescriptor.effectiveEpoch ≤ epoch) = r.recordsOf identityId ++ [record] := by
        rw [List.takeWhile_append, if_pos (by rw [hall])]
        simp [hforce]
      simp only [selectDescriptor, htake, List.getLast?_append, List.getLast?_singleton,
        Option.some_or] at hselect
      split_ifs at hselect with hgone
      cases hselect
      rw [not_or, UInt64.not_le] at hgone
      exact ⟨hid, rfl, hgone.2, hforce, hgone.1⟩
    · left
      have hshort : ¬((r.recordsOf identityId).takeWhile fun stored =>
          stored.nextDescriptor.effectiveEpoch ≤ epoch).length =
            (r.recordsOf identityId).length :=
        fun hlength => hall ((List.takeWhile_prefix _).eq_of_length hlength)
      rwa [selectDescriptor, List.takeWhile_append, if_neg hshort, ← selectDescriptor] at hselect
  · exact Or.inl hselect

/-- No two identities hold one service key in the same epoch. -/
def Exclusive (r : LifecycleRegistryV2) : Prop :=
  ∀ epoch i j left right, i ≠ j → r.descriptorForEpoch i epoch = some left →
    r.descriptorForEpoch j epoch = some right → left.servicePublicKey ≠ right.servicePublicKey

/-- A key whose use by another identity was ruled out is not held by it. -/
lemma Accepts.servicePublicKey_ne
    (h : r.Accepts cr net record inclusionEpoch minimumEffectiveEpoch) {identityId : Hash}
    {epoch : UInt64} {descriptor : IdentityDescriptorV2}
    (hother : identityId ≠ record.nextDescriptor.identityId)
    (hselect : r.descriptorForEpoch identityId epoch = some descriptor)
    (haction : record.action ≠ .deregisterIdentity)
    (hlow : record.nextDescriptor.effectiveEpoch ≤ epoch)
    (hhigh : epoch < record.nextDescriptor.expiryEpoch) :
    descriptor.servicePublicKey ≠ record.nextDescriptor.servicePublicKey := by
  intro hkey
  obtain ⟨history, hmem, rfl, hrecords⟩ := exists_history_of_descriptorForEpoch hselect
  have hheld := recordsHoldKey_of_selectDescriptor hlow hhigh hkey hrecords
  have hfree := h.key_free haction
  simp only [serviceKeyInUse, List.any_eq_false] at hfree
  exact hfree history hmem (by simp [hother, hheld])

lemma Exclusive.store (hr : r.Exclusive)
    (h : r.Accepts cr net record inclusionEpoch minimumEffectiveEpoch) (undo : UndoJournal) :
    (r.store undo record).1.Exclusive := by
  intro epoch i j left right hij hleft hright
  obtain hleft | ⟨rfl, rfl, haction, hlow, hhigh⟩ := h.descriptorForEpoch_store_cases hleft
  · obtain hright | ⟨rfl, rfl, haction, hlow, hhigh⟩ := h.descriptorForEpoch_store_cases hright
    · exact hr epoch i j left right hij hleft hright
    · exact h.servicePublicKey_ne hij hleft haction hlow hhigh
  · obtain hright | ⟨rfl, -⟩ := h.descriptorForEpoch_store_cases hright
    · exact (h.servicePublicKey_ne hij.symm hright haction hlow hhigh).symm
    · exact absurd rfl hij

/-! ## The shape of a history -/

/-- One record of a history follows another. -/
structure Continues (cr : Crypto) (net : Scope) (earlier later : LifecycleRecordV2) : Prop where
  sequence : later.nextDescriptor.sequence.toNat = earlier.nextDescriptor.sequence.toNat + 1
  effective : earlier.nextDescriptor.effectiveEpoch < later.nextDescriptor.effectiveEpoch
  operator : later.nextDescriptor.operatorAuthorizationPublicKey =
    earlier.nextDescriptor.operatorAuthorizationPublicKey
  linked : later.previousDescriptorHash = hashIdentityDescriptorV2 cr net earlier.nextDescriptor
  active : earlier.action ≠ .deregisterIdentity
  not_registration : later.action ≠ .registerIdentity

/-- A history starts with a registration and is continued record by record. -/
structure HistoryChain (cr : Crypto) (net : Scope) (records : List LifecycleRecordV2) : Prop where
  registration : ∃ first ∈ records.head?, first.action = .registerIdentity ∧
    first.previousDescriptorHash = nullHash ∧ first.nextDescriptor.sequence = 0
  continued : records.IsChain (Continues cr net)

lemma Accepts.historyChain_singleton
    (h : r.Accepts cr net record inclusionEpoch minimumEffectiveEpoch)
    (hnone : r.findHistory record.nextDescriptor.identityId = none) :
    HistoryChain cr net [record] := by
  have haction : record.action = .registerIdentity := by
    by_contra hne
    obtain ⟨history, last, hfind, -⟩ := h.known hne
    rw [hnone] at hfind
    cases hfind
  have htransition := h.transition
  simp only [transitionStatus, if_pos haction, hnone, Option.isSome_none, Bool.false_eq_true,
    if_false] at htransition
  split_ifs at htransition with hfirst
  simp only [not_or, not_not] at hfirst
  exact ⟨⟨record, rfl, haction, hfirst⟩, List.isChain_singleton _⟩

lemma Accepts.continues
    (h : r.Accepts cr net record inclusionEpoch minimumEffectiveEpoch) {history : IdentityHistory}
    {last : LifecycleRecordV2}
    (hfind : r.findHistory record.nextDescriptor.identityId = some history)
    (hlast : history.records.getLast? = some last) : Continues cr net last record := by
  have haction : record.action ≠ .registerIdentity := by
    intro heq
    rw [h.unknown heq] at hfind
    cases hfind
  have htransition := h.transition
  simp only [transitionStatus, if_neg haction, hfind, Option.bind_some, hlast] at htransition
  obtain ⟨hhash, htransition⟩ := passed_of_ite (by simp) htransition
  obtain ⟨hsequence, htransition⟩ := passed_of_ite (by simp) htransition
  obtain ⟨heffective, htransition⟩ := passed_of_ite (by simp) htransition
  obtain ⟨hoperator, htransition⟩ := passed_of_ite (by simp) htransition
  obtain ⟨hactive, -⟩ := passed_of_ite (by simp) htransition
  rw [not_or] at hsequence
  have hmax : last.nextDescriptor.sequence.toNat ≠ uint64Max.toNat :=
    fun heq => hsequence.1 (UInt64.toNat_inj.mp heq)
  have hbound := last.nextDescriptor.sequence.toNat_lt
  refine ⟨?_, UInt64.not_le.mp heffective, not_not.mp hoperator, not_not.mp hhash, hactive,
    haction⟩
  rw [not_not.mp hsequence.2, UInt64.toNat_add, UInt64.toNat_one]
  rw [toNat_uint64Max] at hmax
  omega

lemma Accepts.historyChain_store
    (h : r.Accepts cr net record inclusionEpoch minimumEffectiveEpoch) (undo : UndoJournal)
    (hr : ∀ history ∈ r.histories, HistoryChain cr net history.records) :
    ∀ history ∈ (r.store undo record).1.histories, HistoryChain cr net history.records := by
  obtain ⟨hnone, hstore⟩ | ⟨front, records, last, back, heq, hfront, hlast, -, hstore⟩ :=
    h.store_histories undo
  · rw [hstore]
    simpa [or_imp, forall_and] using ⟨hr, h.historyChain_singleton hnone⟩
  · have hfind : r.findHistory record.nextDescriptor.identityId =
        some ⟨record.nextDescriptor.identityId, records⟩ :=
      List.find?_eq_some_iff_append.mpr ⟨by simp, front, back, heq, by simpa using hfront⟩
    have hcontinues := h.continues hfind hlast
    rw [heq] at hr
    simp only [List.mem_append, List.mem_cons, or_imp, forall_and, forall_eq] at hr
    obtain ⟨⟨first, hhead, hfirst⟩, hchain⟩ := hr.2.1
    have hgrown : HistoryChain cr net (records ++ [record]) := by
      refine ⟨⟨first, ?_, hfirst⟩, ?_⟩
      · rw [List.head?_append, Option.mem_def.mp hhead]
        rfl
      · refine List.isChain_append.mpr ⟨hchain, List.isChain_singleton _, ?_⟩
        simpa [hlast] using hcontinues
    rw [hstore]
    simp only [List.mem_append, List.mem_cons, or_imp, forall_and, forall_eq]
    exact ⟨hr.1, hgrown, hr.2.2⟩

/-- **One holder per service key.**  In a registry that calls of `apply` led to, two identities
never have the same service key in one epoch, and every history is a registration continued by
records of the same identity. -/
theorem service_keys_exclusive (h : Reached cr net r) :
    (∀ epoch i j left right, i ≠ j → r.descriptorForEpoch i epoch = some left →
      r.descriptorForEpoch j epoch = some right →
      left.servicePublicKey ≠ right.servicePublicKey) ∧
    ∀ history ∈ r.histories, HistoryChain cr net history.records ∧
      ∀ record ∈ history.records, record.nextDescriptor.identityId = history.identityId := by
  have hexclusive : r.Exclusive := Reached.invariant
    (fun epoch i j left right _ hleft => by simp [descriptorForEpoch, findHistory] at hleft)
    (fun r undo record inclusionEpoch minimumEffectiveEpoch hr hacc => hr.store hacc undo) h
  have hchain : ∀ history ∈ r.histories, HistoryChain cr net history.records := Reached.invariant
    (P := fun r => ∀ history ∈ r.histories, HistoryChain cr net history.records) (by simp)
    (fun r undo record inclusionEpoch minimumEffectiveEpoch hr hacc =>
      hacc.historyChain_store undo hr) h
  have hformed : WellFormed cr net r := Reached.invariant wellFormed_fresh
    (fun r undo record inclusionEpoch minimumEffectiveEpoch hr hacc => hr.store hacc undo) h
  exact ⟨hexclusive, fun history hmem =>
    ⟨hchain history hmem, (hformed.histories history hmem).owner⟩⟩

/-- A registry in which an operator has registered. -/
def registerSample (r : LifecycleRegistryV2) (k : ℕ) : LifecycleRegistryV2 :=
  (r.apply .sample .sample r.checkpoint
    (LifecycleRecordV2.sample .registerIdentity nullHash (.sample k 0 1 9)) 0 1).registry

/-- Two operators that register for the same epochs have different keys. -/
theorem service_keys_exclusive_sample :
    let r := registerSample (registerSample {} 0) 1
    ∃ left right,
      r.descriptorForEpoch (deriveIdentityIdV2 .sample .sample (sampleKey 20)) 3 = some left ∧
      r.descriptorForEpoch (deriveIdentityIdV2 .sample .sample (sampleKey 21)) 3 = some right ∧
      left.servicePublicKey ≠ right.servicePublicKey := by
  have hreached : Reached .sample .sample (registerSample (registerSample {} 0) 1) :=
    .apply _ _ _ _ (.apply _ _ _ _ .fresh)
  have hleft : (registerSample (registerSample {} 0) 1).descriptorForEpoch
      (deriveIdentityIdV2 .sample .sample (sampleKey 20)) 3 =
        some (IdentityDescriptorV2.sample 0 0 1 9) := by decide +kernel
  have hright : (registerSample (registerSample {} 0) 1).descriptorForEpoch
      (deriveIdentityIdV2 .sample .sample (sampleKey 21)) 3 =
        some (IdentityDescriptorV2.sample 1 0 1 9) := by decide +kernel
  exact ⟨_, _, hleft, hright,
    (service_keys_exclusive hreached).1 3 _ _ _ _ (by decide +kernel) hleft hright⟩

end LifecycleRegistryV2

end Qwertycoin
