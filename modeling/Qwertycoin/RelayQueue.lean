import Qwertycoin.Probe
import Qwertycoin.Timing

/-
# The relay queue

Records that wait to be mined are queued with a deadline and a size.  There are two classes of
them, enrolments and evidence, and each has a share of the queue and of a block template that the
other cannot take.  Sizes are machine words: the queue keeps the sum of its sizes in a counter,
and its room is computed by subtractions that would wrap if the counter were wrong.
-/

namespace Qwertycoin

inductive RelayClassV2
  | enrollment
  | evidence
deriving DecidableEq

def RelayClassV2.code : RelayClassV2 → UInt8
  | .enrollment => 1
  | .evidence => 2

structure RelayItemV2 where
  id : Hash
  recordClass : RelayClassV2
  bytes : UInt64
  deadlineHeight : UInt64
deriving DecidableEq

/-- `relay_queue_limits_v2` and `relay_template_limits_v2`, which have the same fields. -/
structure RelayLimitsV2 where
  maxItems : UInt64
  maxBytes : UInt64
  reservedEnrollmentItems : UInt64
  reservedEvidenceItems : UInt64
  reservedEnrollmentBytes : UInt64
  reservedEvidenceBytes : UInt64
deriving DecidableEq

abbrev RelayQueueLimitsV2 := RelayLimitsV2
abbrev RelayTemplateLimitsV2 := RelayLimitsV2

namespace RelayLimitsV2

def valid (limits : RelayLimitsV2) : Bool :=
  0 < limits.maxItems && 0 < limits.maxBytes && 0 < limits.reservedEnrollmentItems &&
    0 < limits.reservedEvidenceItems && limits.reservedEnrollmentItems ≤ limits.maxItems &&
    limits.reservedEvidenceItems ≤ limits.maxItems - limits.reservedEnrollmentItems &&
    0 < limits.reservedEnrollmentBytes && 0 < limits.reservedEvidenceBytes &&
    limits.reservedEnrollmentBytes ≤ limits.maxBytes &&
    limits.reservedEvidenceBytes ≤ limits.maxBytes - limits.reservedEnrollmentBytes

/-- The items that are reserved for a class. -/
def reservedItems (limits : RelayLimitsV2) : RelayClassV2 → UInt64
  | .enrollment => limits.reservedEnrollmentItems
  | .evidence => limits.reservedEvidenceItems

/-- The bytes that are reserved for a class. -/
def reservedBytes (limits : RelayLimitsV2) : RelayClassV2 → UInt64
  | .enrollment => limits.reservedEnrollmentBytes
  | .evidence => limits.reservedEvidenceBytes

end RelayLimitsV2

/-- The class whose reservation a class has to leave alone. -/
def RelayClassV2.other : RelayClassV2 → RelayClassV2
  | .enrollment => .evidence
  | .evidence => .enrollment

lemma RelayLimitsV2.valid_iff {limits : RelayLimitsV2} : limits.valid = true ↔
    0 < limits.maxItems.toNat ∧ 0 < limits.maxBytes.toNat ∧
      (∀ c, 0 < (limits.reservedItems c).toNat ∧ 0 < (limits.reservedBytes c).toNat) ∧
      (∀ c, (limits.reservedItems c).toNat + (limits.reservedItems c.other).toNat ≤
        limits.maxItems.toNat) ∧
      ∀ c, (limits.reservedBytes c).toNat + (limits.reservedBytes c.other).toNat ≤
        limits.maxBytes.toNat := by
  have hsub : ∀ {a b : UInt64}, b ≤ a → (a - b).toNat = a.toNat - b.toNat :=
    fun h => UInt64.toNat_sub_of_le _ _ h
  have hclass : ∀ P : RelayClassV2 → Prop, (∀ c, P c) ↔ P .enrollment ∧ P .evidence :=
    fun P => ⟨fun h => ⟨h _, h _⟩, fun h c => by cases c; exacts [h.1, h.2]⟩
  simp only [valid, Bool.and_eq_true, decide_eq_true_eq, hclass, reservedItems, reservedBytes,
    RelayClassV2.other]
  constructor
  · rintro ⟨⟨⟨⟨⟨⟨⟨⟨⟨h₁, h₂⟩, h₃⟩, h₄⟩, h₅⟩, h₆⟩, h₇⟩, h₈⟩, h₉⟩, h₁₀⟩
    rw [UInt64.le_iff_toNat_le, hsub h₅] at h₆
    rw [UInt64.le_iff_toNat_le, hsub h₉] at h₁₀
    simp only [UInt64.lt_iff_toNat_lt, UInt64.le_iff_toNat_le, UInt64.toNat_zero] at *
    omega
  · rintro ⟨h₁, h₂, h₃, h₄, h₅⟩
    have h₆ : limits.reservedEnrollmentItems ≤ limits.maxItems := by
      rw [UInt64.le_iff_toNat_le]
      omega
    have h₇ : limits.reservedEnrollmentBytes ≤ limits.maxBytes := by
      rw [UInt64.le_iff_toNat_le]
      omega
    simp only [UInt64.le_iff_toNat_le, hsub h₆, hsub h₇, UInt64.lt_iff_toNat_lt, UInt64.toNat_zero]
    omega

/-- `deadline_relay_queue_v2`: its mutable part. -/
structure DeadlineRelayQueueV2 where
  items : List RelayItemV2 := []
  bytes : UInt64 := 0
deriving DecidableEq

namespace DeadlineRelayQueueV2

/-- The pass of `prune_expired` over the items, which takes the size of each item it removes off
the counter. -/
def pruneItems (currentHeight : UInt64) : List RelayItemV2 → UInt64 → List RelayItemV2 × UInt64
  | [], bytes => ([], bytes)
  | item :: items, bytes =>
    if currentHeight ≤ item.deadlineHeight then
      let (kept, bytes) := pruneItems currentHeight items bytes
      (item :: kept, bytes)
    else pruneItems currentHeight items (bytes - item.bytes)

def pruneExpired (q : DeadlineRelayQueueV2) (currentHeight : UInt64) : DeadlineRelayQueueV2 :=
  let (items, bytes) := pruneItems currentHeight q.items q.bytes
  ⟨items, bytes⟩

/-- The loop of `enqueue` that counts the items of a class and their bytes; `none` when the sum
does not fit. -/
def classTotals (recordClass : RelayClassV2) :
    List RelayItemV2 → ℕ → UInt64 → Option (ℕ × UInt64)
  | [], classItems, classBytes => some (classItems, classBytes)
  | stored :: items, classItems, classBytes =>
    if stored.recordClass = recordClass then do
      let classBytes ← checkedAdd classBytes stored.bytes
      classTotals recordClass items (classItems + 1) classBytes
    else classTotals recordClass items classItems classBytes

/-- The room checks of `enqueue`, for a class with its totals. -/
def full (limits : RelayQueueLimitsV2) (q : DeadlineRelayQueueV2) (item : RelayItemV2)
    (classItems : ℕ) (classBytes : UInt64) : Bool :=
  let otherReservedItems := limits.reservedItems item.recordClass.other
  let otherReservedBytes := limits.reservedBytes item.recordClass.other
  limits.maxItems.toNat ≤ q.items.length ||
    (limits.maxItems - otherReservedItems).toNat ≤ classItems ||
    limits.maxBytes - q.bytes < item.bytes ||
    limits.maxBytes - otherReservedBytes - classBytes < item.bytes

/-- `enqueue`: the queue after the call, and the status.  A class is one of the two by its type. -/
def enqueue (limits : RelayQueueLimitsV2) (q : DeadlineRelayQueueV2) (item : RelayItemV2)
    (currentHeight : UInt64) : DeadlineRelayQueueV2 × ResourceStatusV2 :=
  if !limits.valid || item.id = nullHash || item.bytes = 0 then (q, .invalidConfiguration)
  else
    let q := q.pruneExpired currentHeight
    if item.deadlineHeight < currentHeight then (q, .relayItemExpired)
    else
      match q.items.find? fun stored => stored.id = item.id with
      | some duplicate =>
        (q, if duplicate.recordClass = item.recordClass ∧ duplicate.bytes = item.bytes ∧
            duplicate.deadlineHeight = item.deadlineHeight then .idempotentDuplicate
          else .relayItemConflict)
      | none =>
        match classTotals item.recordClass q.items 0 0 with
        | none => (q, .invalidConfiguration)
        | some (classItems, classBytes) =>
          if full limits q item classItems classBytes then (q, .relayQueueFull)
          else (⟨q.items ++ [item], q.bytes + item.bytes⟩, .accepted)

/-- `erase`: the queue after the call, and whether there was such an item. -/
def erase (q : DeadlineRelayQueueV2) (id : Hash) : DeadlineRelayQueueV2 × Bool :=
  match q.items.find? fun item => item.id = id with
  | none => (q, false)
  | some found =>
    (⟨q.items.eraseP fun item => item.id = id, q.bytes - found.bytes⟩, true)

/-! ## The counter and the reservations -/

/-- The sum of the sizes of some items. -/
def itemBytes (items : List RelayItemV2) : ℕ := (items.map (·.bytes.toNat)).sum

/-- The items of a class. -/
def ofClass (recordClass : RelayClassV2) (items : List RelayItemV2) : List RelayItemV2 :=
  items.filter (·.recordClass = recordClass)

/-- What holds of a queue between calls. -/
structure Consistent (limits : RelayQueueLimitsV2) (q : DeadlineRelayQueueV2) : Prop where
  bytes_eq : q.bytes.toNat = itemBytes q.items
  distinct : (q.items.map (·.id)).Nodup
  items_le : q.items.length ≤ limits.maxItems.toNat
  bytes_le : q.bytes.toNat ≤ limits.maxBytes.toNat
  class_items : ∀ c, (ofClass c q.items).length + (limits.reservedItems c.other).toNat ≤
    limits.maxItems.toNat
  class_bytes : ∀ c, itemBytes (ofClass c q.items) + (limits.reservedBytes c.other).toNat ≤
    limits.maxBytes.toNat

@[simp] lemma itemBytes_nil : itemBytes [] = 0 := rfl

@[simp] lemma itemBytes_cons (item : RelayItemV2) (items : List RelayItemV2) :
    itemBytes (item :: items) = item.bytes.toNat + itemBytes items := rfl

lemma itemBytes_singleton (item : RelayItemV2) : itemBytes [item] = item.bytes.toNat := rfl

@[simp] lemma itemBytes_append (items items' : List RelayItemV2) :
    itemBytes (items ++ items') = itemBytes items + itemBytes items' := by
  simp [itemBytes]

lemma itemBytes_le_of_sublist {items items' : List RelayItemV2} (h : items.Sublist items') :
    itemBytes items ≤ itemBytes items' :=
  (h.map _).sum_le_sum fun _ _ => Nat.zero_le _

lemma ofClass_split (c : RelayClassV2) (items : List RelayItemV2) :
    (ofClass c items).length + (ofClass c.other items).length = items.length ∧
      itemBytes (ofClass c items) + itemBytes (ofClass c.other items) = itemBytes items := by
  induction items with
  | nil => simp [ofClass]
  | cons item items ih =>
    have hclass : item.recordClass = c ∨ item.recordClass = c.other := by
      cases c <;> cases item.recordClass <;> simp [RelayClassV2.other]
    have hne : c ≠ c.other := by cases c <;> simp [RelayClassV2.other]
    simp only [ofClass] at ih ⊢
    obtain rfl | hother := hclass
    · simp [hne]
      omega
    · simp [hother, hne.symm]
      omega

variable {limits : RelayQueueLimitsV2} {q : DeadlineRelayQueueV2} {currentHeight : UInt64}

/-- Removing items keeps a queue consistent, if the counter follows. -/
lemma Consistent.sublist (h : Consistent limits q) {items : List RelayItemV2} {bytes : UInt64}
    (hitems : items.Sublist q.items) (hbytes : bytes.toNat = itemBytes items) :
    Consistent limits ⟨items, bytes⟩ where
  bytes_eq := hbytes
  distinct := (hitems.map _).nodup h.distinct
  items_le := hitems.length_le.trans h.items_le
  bytes_le := by
    have hle := itemBytes_le_of_sublist hitems
    have hmax := h.bytes_le
    rw [h.bytes_eq] at hmax
    exact hbytes.trans_le (hle.trans hmax)
  class_items c := by
    have hle := (hitems.filter (fun item => decide (item.recordClass = c))).length_le
    exact (Nat.add_le_add_right hle _).trans (h.class_items c)
  class_bytes c := by
    have hle := itemBytes_le_of_sublist (hitems.filter fun item => decide (item.recordClass = c))
    exact (Nat.add_le_add_right hle _).trans (h.class_bytes c)

/-- The pass over the items keeps those that have not expired, and the counter follows. -/
lemma pruneItems_spec (currentHeight : UInt64) {items : List RelayItemV2} (bytes : UInt64)
    (hbytes : itemBytes items ≤ bytes.toNat) :
    (pruneItems currentHeight items bytes).1 =
        items.filter (fun item => currentHeight ≤ item.deadlineHeight) ∧
      (pruneItems currentHeight items bytes).2.toNat + itemBytes items =
        bytes.toNat + itemBytes (items.filter fun item => currentHeight ≤ item.deadlineHeight) := by
  induction items generalizing bytes with
  | nil => exact ⟨rfl, rfl⟩
  | cons item items ih =>
    rw [itemBytes_cons] at hbytes
    by_cases hopen : currentHeight ≤ item.deadlineHeight
    · obtain ⟨hkept, hsum⟩ := ih bytes (by omega)
      rw [List.filter_cons_of_pos (by simpa using hopen), pruneItems, if_pos hopen, itemBytes_cons,
        itemBytes_cons]
      exact ⟨by rw [← hkept], by dsimp only; omega⟩
    · have hsub : (bytes - item.bytes).toNat = bytes.toNat - item.bytes.toNat :=
        UInt64.toNat_sub_of_le _ _ (UInt64.le_iff_toNat_le.mpr (by omega))
      obtain ⟨hkept, hsum⟩ := ih (bytes - item.bytes) (by omega)
      simp only [pruneItems, if_neg hopen, hkept, itemBytes_cons]
      rw [List.filter_cons_of_neg (by simpa using hopen)]
      exact ⟨rfl, by omega⟩

lemma Consistent.pruneExpired_items (h : Consistent limits q) (currentHeight : UInt64) :
    (q.pruneExpired currentHeight).items =
      q.items.filter fun item => currentHeight ≤ item.deadlineHeight :=
  (pruneItems_spec currentHeight q.bytes h.bytes_eq.symm.le).1

lemma Consistent.pruneExpired (h : Consistent limits q) (currentHeight : UInt64) :
    Consistent limits (q.pruneExpired currentHeight) := by
  obtain ⟨hkept, hsum⟩ := pruneItems_spec currentHeight q.bytes h.bytes_eq.symm.le
  refine h.sublist (hkept ▸ List.filter_sublist) ?_
  rw [hkept]
  have := h.bytes_eq
  omega

/-- The loop over the class adds the items and the bytes of the class, if they fit. -/
lemma exists_classTotals {c : RelayClassV2} {items : List RelayItemV2} (classItems : ℕ)
    (classBytes : UInt64) (hfits : classBytes.toNat + itemBytes (ofClass c items) < 2 ^ 64) :
    ∃ total : UInt64, classTotals c items classItems classBytes =
        some (classItems + (ofClass c items).length, total) ∧
      total.toNat = classBytes.toNat + itemBytes (ofClass c items) := by
  induction items generalizing classItems classBytes with
  | nil => exact ⟨classBytes, rfl, rfl⟩
  | cons item items ih =>
    by_cases hclass : item.recordClass = c
    · have hcons : ofClass c (item :: items) = item :: ofClass c items := by
        simp [ofClass, hclass]
      rw [hcons, itemBytes_cons] at hfits
      obtain ⟨sum, hsum⟩ : ∃ sum : UInt64, classBytes.toNat + item.bytes.toNat = sum.toNat :=
        ⟨_, (toNat_ofNat_of_fits (by omega)).symm⟩
      obtain ⟨total, htotals, htotal⟩ := ih (classItems + 1) sum (by omega)
      refine ⟨total, ?_, by rw [htotal, hcons, itemBytes_cons]; omega⟩
      rw [classTotals, if_pos hclass, checkedAdd_eq_some_iff.mpr hsum, hcons, List.length_cons]
      rw [Option.bind_eq_bind, Option.bind_some, htotals, Nat.add_right_comm, Nat.add_assoc]
    · have hcons : ofClass c (item :: items) = ofClass c items := by
        simp [ofClass, hclass]
      rw [hcons] at hfits ⊢
      rw [classTotals, if_neg hclass]
      exact ih classItems classBytes hfits

lemma Consistent.exists_classTotals (h : Consistent limits q) (c : RelayClassV2) :
    ∃ total : UInt64, classTotals c q.items 0 0 = some ((ofClass c q.items).length, total) ∧
      total.toNat = itemBytes (ofClass c q.items) := by
  have hclass := h.class_bytes c
  have hlt := limits.maxBytes.toNat_lt
  obtain ⟨total, htotals, htotal⟩ := DeadlineRelayQueueV2.exists_classTotals 0 0
    (show (0 : UInt64).toNat + itemBytes (ofClass c q.items) < 2 ^ 64 by
      rw [UInt64.toNat_zero]; omega)
  rw [UInt64.toNat_zero, Nat.zero_add] at htotal
  rw [Nat.zero_add] at htotals
  exact ⟨total, htotals, htotal⟩

/-- There is room for an item, in the queue and in the part of it that is open to its class. -/
structure HasRoom (limits : RelayQueueLimitsV2) (q : DeadlineRelayQueueV2) (item : RelayItemV2) :
    Prop where
  items : q.items.length < limits.maxItems.toNat
  class_items : (ofClass item.recordClass q.items).length +
    (limits.reservedItems item.recordClass.other).toNat < limits.maxItems.toNat
  bytes : q.bytes.toNat + item.bytes.toNat ≤ limits.maxBytes.toNat
  class_bytes : itemBytes (ofClass item.recordClass q.items) + item.bytes.toNat +
    (limits.reservedBytes item.recordClass.other).toNat ≤ limits.maxBytes.toNat

/-- Of a consistent queue, the room checks say what they should: no subtraction wraps. -/
lemma Consistent.full_eq_false_iff (hvalid : limits.valid = true) (h : Consistent limits q)
    {item : RelayItemV2} {classBytes : UInt64}
    (hsum : classBytes.toNat = itemBytes (ofClass item.recordClass q.items)) :
    full limits q item (ofClass item.recordClass q.items).length classBytes = false ↔
      HasRoom limits q item := by
  obtain ⟨-, -, -, hitems, hbytes⟩ := RelayLimitsV2.valid_iff.mp hvalid
  have hitems := hitems item.recordClass
  have hbytes := hbytes item.recordClass
  have hmax := h.bytes_le
  have hclass := h.class_bytes item.recordClass
  have hfreeItems := UInt64.toNat_sub_of_le limits.maxItems
    (limits.reservedItems item.recordClass.other) (UInt64.le_iff_toNat_le.mpr (by omega))
  have hfreeBytes := UInt64.toNat_sub_of_le limits.maxBytes
    (limits.reservedBytes item.recordClass.other) (UInt64.le_iff_toNat_le.mpr (by omega))
  have hroom := UInt64.toNat_sub_of_le limits.maxBytes q.bytes
    (UInt64.le_iff_toNat_le.mpr (by omega))
  have hclassRoom := UInt64.toNat_sub_of_le
    (limits.maxBytes - limits.reservedBytes item.recordClass.other) classBytes
    (UInt64.le_iff_toNat_le.mpr (by omega))
  simp only [full, Bool.or_eq_false_iff, decide_eq_false_iff_not, UInt64.lt_iff_toNat_lt, hfreeItems,
    hroom, hclassRoom, hfreeBytes, hsum]
  constructor
  · rintro ⟨⟨⟨h₁, h₂⟩, h₃⟩, h₄⟩
    exact ⟨by omega, by omega, by omega, by omega⟩
  · rintro ⟨h₁, h₂, h₃, h₄⟩
    omega

/-- What `enqueue` does on a consistent queue: it appends an item that is new and has room, or it
does no more than prune. -/
lemma Consistent.enqueue_cases (hvalid : limits.valid = true) (h : Consistent limits q)
    (item : RelayItemV2) (currentHeight : UInt64) :
    let pruned := q.pruneExpired currentHeight
    (∃ status, status ≠ .accepted ∧
        (enqueue limits q item currentHeight = (q, status) ∧ status ≠ .relayQueueFull ∨
          enqueue limits q item currentHeight = (pruned, status) ∧
            (status = .relayQueueFull → ¬HasRoom limits pruned item))) ∨
      (enqueue limits q item currentHeight =
          (⟨pruned.items ++ [item], pruned.bytes + item.bytes⟩, .accepted) ∧
        currentHeight ≤ item.deadlineHeight ∧ (∀ stored ∈ pruned.items, stored.id ≠ item.id) ∧
        HasRoom limits pruned item) := by
  intro pruned
  have hpruned : Consistent limits pruned := h.pruneExpired currentHeight
  obtain ⟨classBytes, htotals, hsum⟩ := hpruned.exists_classTotals item.recordClass
  have hfull := hpruned.full_eq_false_iff hvalid hsum
  unfold enqueue
  split_ifs with hitem hexpired
  · exact Or.inl ⟨.invalidConfiguration, by simp, Or.inl ⟨rfl, by simp⟩⟩
  · exact Or.inl ⟨.relayItemExpired, by simp, Or.inr ⟨rfl, by simp⟩⟩
  · cases hfind : pruned.items.find? fun stored => stored.id = item.id with
    | some duplicate =>
      simp only [pruned] at hfind
      simp only [hfind]
      refine Or.inl ⟨_, ?_, Or.inr ⟨rfl, ?_⟩⟩ <;> split_ifs <;> simp
    | none =>
      have hnew := List.find?_eq_none.mp hfind
      simp only [pruned] at hfind htotals
      simp only [hfind, htotals]
      split_ifs with hroom
      · refine Or.inl ⟨.relayQueueFull, by simp, Or.inr ⟨rfl, fun _ hfree => ?_⟩⟩
        rw [hfull.mpr hfree] at hroom
        cases hroom
      · refine Or.inr ⟨rfl, UInt64.not_lt.mp hexpired, fun stored hstored => ?_,
          hfull.mp (Bool.eq_false_of_not_eq_true hroom)⟩
        simpa using hnew stored hstored

lemma Consistent.append (h : Consistent limits q) {item : RelayItemV2}
    (hnew : ∀ stored ∈ q.items, stored.id ≠ item.id)
    (hroom : HasRoom limits q item) :
    Consistent limits ⟨q.items ++ [item], q.bytes + item.bytes⟩ := by
  obtain ⟨hitems, hclassItems, hbytes, hclassBytes⟩ := hroom
  have hlt := limits.maxBytes.toNat_lt
  have hsum : (q.bytes + item.bytes).toNat = q.bytes.toNat + item.bytes.toNat := by
    rw [UInt64.toNat_add, Nat.mod_eq_of_lt (by omega)]
  -- only the class of the new item grows
  have hsame : ofClass item.recordClass (q.items ++ [item]) =
      ofClass item.recordClass q.items ++ [item] := by
    simp [ofClass]
  have hother : ∀ c, item.recordClass ≠ c → ofClass c (q.items ++ [item]) = ofClass c q.items := by
    intro c hc
    simp [ofClass, hc]
  refine ⟨?_, ?_, ?_, ?_, fun c => ?_, fun c => ?_⟩
  · simp [hsum, h.bytes_eq]
  · rw [List.map_append, List.map_singleton, List.nodup_append_comm, List.singleton_append,
      List.nodup_cons]
    refine ⟨fun hmem => ?_, h.distinct⟩
    obtain ⟨stored, hstored, hid⟩ := List.mem_map.mp hmem
    exact hnew stored hstored hid
  · simpa using hitems
  · rw [hsum]
    exact hbytes
  · by_cases hc : item.recordClass = c
    · subst hc
      rw [hsame, List.length_append, List.length_singleton]
      omega
    · rw [hother c hc]
      exact h.class_items c
  · by_cases hc : item.recordClass = c
    · subst hc
      rw [hsame, itemBytes_append, itemBytes_singleton]
      omega
    · rw [hother c hc]
      exact h.class_bytes c

lemma Consistent.enqueue (hvalid : limits.valid = true) (h : Consistent limits q)
    (item : RelayItemV2) (currentHeight : UInt64) :
    Consistent limits (enqueue limits q item currentHeight).1 := by
  have hpruned := h.pruneExpired currentHeight
  obtain ⟨status, -, ⟨heq, -⟩ | ⟨heq, -⟩⟩ | ⟨heq, -, hnew, hroom⟩ :=
    h.enqueue_cases hvalid item currentHeight
  · rwa [heq]
  · rwa [heq]
  · rw [heq]
    exact hpruned.append hnew hroom

/-- Erasing takes the one item with the id out of the list and its size off the counter. -/
lemma Consistent.erase (h : Consistent limits q) (id : Hash) :
    Consistent limits (q.erase id).1 := by
  unfold DeadlineRelayQueueV2.erase
  cases hfind : q.items.find? fun item => item.id = id with
  | none => exact h
  | some found =>
    refine h.sublist List.eraseP_sublist ?_
    have hsum := h.bytes_eq
    obtain ⟨hid, before, after, hitems, hbefore⟩ := List.find?_eq_some_iff_append.mp hfind
    have herase : q.items.eraseP (fun item => item.id = id) = before ++ after := by
      rw [hitems, List.eraseP_append_right _ (fun item hmem => by simpa using hbefore item hmem),
        List.eraseP_cons_of_pos (by simpa using hid)]
    rw [hitems, itemBytes_append, itemBytes_cons] at hsum
    rw [UInt64.toNat_sub_of_le _ _ (UInt64.le_iff_toNat_le.mpr (by omega)), herase,
      itemBytes_append]
    omega

/-! ### Subtractions -/

/-- The subtractions of `prune_expired`, in order: what is subtracted from, and what is
subtracted. -/
def pruneSubtractions (currentHeight : UInt64) :
    List RelayItemV2 → UInt64 → List (UInt64 × UInt64)
  | [], _ => []
  | item :: items, bytes =>
    if currentHeight ≤ item.deadlineHeight then pruneSubtractions currentHeight items bytes
    else (bytes, item.bytes) :: pruneSubtractions currentHeight items (bytes - item.bytes)

/-- The subtractions of `enqueue`, whether or not an earlier check ends the call. -/
def enqueueSubtractions (limits : RelayQueueLimitsV2) (q : DeadlineRelayQueueV2)
    (item : RelayItemV2) (currentHeight : UInt64) : List (UInt64 × UInt64) :=
  let pruned := q.pruneExpired currentHeight
  let otherReservedItems := limits.reservedItems item.recordClass.other
  let otherReservedBytes := limits.reservedBytes item.recordClass.other
  [(limits.maxItems, limits.reservedEnrollmentItems),
      (limits.maxBytes, limits.reservedEnrollmentBytes)] ++
    pruneSubtractions currentHeight q.items q.bytes ++
    match classTotals item.recordClass pruned.items 0 0 with
    | none => []
    | some (_, classBytes) =>
      [(limits.maxItems, otherReservedItems), (limits.maxBytes, pruned.bytes),
        (limits.maxBytes, otherReservedBytes), (limits.maxBytes - otherReservedBytes, classBytes)]

/-- The subtraction of `erase`. -/
def eraseSubtractions (q : DeadlineRelayQueueV2) (id : Hash) : List (UInt64 × UInt64) :=
  match q.items.find? fun item => item.id = id with
  | none => []
  | some found => [(q.bytes, found.bytes)]

/-- None of the subtractions wraps. -/
def NoWrap (subtractions : List (UInt64 × UInt64)) : Prop :=
  ∀ subtraction ∈ subtractions, subtraction.2 ≤ subtraction.1

lemma pruneSubtractions_noWrap (currentHeight : UInt64) {items : List RelayItemV2} (bytes : UInt64)
    (hbytes : itemBytes items ≤ bytes.toNat) :
    NoWrap (pruneSubtractions currentHeight items bytes) := by
  induction items generalizing bytes with
  | nil => simp [NoWrap, pruneSubtractions]
  | cons item items ih =>
    rw [itemBytes_cons] at hbytes
    rw [pruneSubtractions]
    split_ifs
    · exact ih bytes (by omega)
    · have hle : item.bytes ≤ bytes := UInt64.le_iff_toNat_le.mpr (by omega)
      refine List.forall_mem_cons.mpr ⟨hle, ih (bytes - item.bytes) ?_⟩
      rw [UInt64.toNat_sub_of_le _ _ hle]
      omega

lemma Consistent.enqueueSubtractions_noWrap (hvalid : limits.valid = true)
    (h : Consistent limits q) (item : RelayItemV2) (currentHeight : UInt64) :
    NoWrap (enqueueSubtractions limits q item currentHeight) := by
  have hpruned := h.pruneExpired currentHeight
  obtain ⟨-, -, -, hitems, hbytes⟩ := RelayLimitsV2.valid_iff.mp hvalid
  have hclass := hpruned.class_bytes item.recordClass
  obtain ⟨classBytes, htotals, hsum⟩ := hpruned.exists_classTotals item.recordClass
  have hreservedItems : ∀ c, limits.reservedItems c ≤ limits.maxItems := fun c =>
    UInt64.le_iff_toNat_le.mpr (by have := hitems c; omega)
  have hreservedBytes : ∀ c, limits.reservedBytes c ≤ limits.maxBytes := fun c =>
    UInt64.le_iff_toNat_le.mpr (by have := hbytes c; omega)
  have hrest : classBytes ≤ limits.maxBytes - limits.reservedBytes item.recordClass.other := by
    rw [UInt64.le_iff_toNat_le, hsum,
      UInt64.toNat_sub_of_le _ _ (hreservedBytes item.recordClass.other)]
    omega
  simp only [enqueueSubtractions, htotals]
  intro subtraction hmem
  rw [List.mem_append, List.mem_append] at hmem
  obtain (hmem | hmem) | hmem := hmem
  · simp only [List.mem_cons, List.not_mem_nil, or_false] at hmem
    obtain rfl | rfl := hmem
    exacts [hreservedItems .enrollment, hreservedBytes .enrollment]
  · exact pruneSubtractions_noWrap currentHeight q.bytes h.bytes_eq.symm.le subtraction hmem
  · simp only [List.mem_cons, List.not_mem_nil, or_false] at hmem
    obtain rfl | rfl | rfl | rfl := hmem
    exacts [hreservedItems _, UInt64.le_iff_toNat_le.mpr hpruned.bytes_le, hreservedBytes _, hrest]

lemma Consistent.eraseSubtractions_noWrap (h : Consistent limits q) (id : Hash) :
    NoWrap (eraseSubtractions q id) := by
  unfold eraseSubtractions
  cases hfind : q.items.find? fun item => item.id = id with
  | none => simp [NoWrap]
  | some found =>
    have hle : itemBytes [found] ≤ itemBytes q.items :=
      itemBytes_le_of_sublist (List.singleton_sublist.mpr (List.mem_of_find?_eq_some hfind))
    rw [← h.bytes_eq, itemBytes_singleton] at hle
    simpa [NoWrap, UInt64.le_iff_toNat_le] using hle

/-! ### Runs -/

/-- The queues that calls lead to, at any heights and in any order. -/
inductive Runs (limits : RelayQueueLimitsV2) : DeadlineRelayQueueV2 → Prop
  | fresh : Runs limits {}
  | enqueue {q : DeadlineRelayQueueV2} (item : RelayItemV2) (currentHeight : UInt64) :
      Runs limits q → Runs limits (enqueue limits q item currentHeight).1
  | pruneExpired {q : DeadlineRelayQueueV2} (currentHeight : UInt64) :
      Runs limits q → Runs limits (q.pruneExpired currentHeight)
  | erase {q : DeadlineRelayQueueV2} (id : Hash) : Runs limits q → Runs limits (q.erase id).1

lemma consistent_fresh (hvalid : limits.valid = true) : Consistent limits {} := by
  obtain ⟨-, -, -, hitems, hbytes⟩ := RelayLimitsV2.valid_iff.mp hvalid
  refine ⟨rfl, List.nodup_nil, Nat.zero_le _, Nat.zero_le _, fun c => ?_, fun c => ?_⟩
  · have := hitems c
    simp only [ofClass, List.filter_nil, List.length_nil]
    omega
  · have := hbytes c
    simp only [ofClass, List.filter_nil, itemBytes_nil]
    omega

lemma Runs.consistent (hvalid : limits.valid = true) (h : Runs limits q) :
    Consistent limits q := by
  induction h with
  | fresh => exact consistent_fresh hvalid
  | enqueue item currentHeight _ ih => exact ih.enqueue hvalid item currentHeight
  | pruneExpired currentHeight _ ih => exact ih.pruneExpired currentHeight
  | erase id _ ih => exact ih.erase id

/-- An item within the reservation of its class has room: the other class cannot have taken it. -/
lemma Consistent.hasRoom (hvalid : limits.valid = true) (h : Consistent limits q)
    {item : RelayItemV2}
    (hitems : (ofClass item.recordClass q.items).length + 1 ≤
      (limits.reservedItems item.recordClass).toNat)
    (hbytes : itemBytes (ofClass item.recordClass q.items) + item.bytes.toNat ≤
      (limits.reservedBytes item.recordClass).toNat) : HasRoom limits q item := by
  obtain ⟨-, -, -, hmaxItems, hmaxBytes⟩ := RelayLimitsV2.valid_iff.mp hvalid
  have hmaxItems := hmaxItems item.recordClass
  have hmaxBytes := hmaxBytes item.recordClass
  have hsplit := ofClass_split item.recordClass q.items
  have hother : item.recordClass.other.other = item.recordClass := by
    cases item.recordClass <;> rfl
  have hotherItems := h.class_items item.recordClass.other
  have hotherBytes := h.class_bytes item.recordClass.other
  rw [hother] at hotherItems hotherBytes
  have hsum := h.bytes_eq
  exact ⟨by omega, by omega, by omega, by omega⟩

/-- **The reservations of the relay queue are honoured.**  After any calls with valid limits, the
counter is the sum of the sizes, ids are distinct, and the items and bytes, in total and for each
class, are within their bounds; no subtraction of a further call wraps; and an item that, with the
items of its class that have not expired, is within the reservation of its class is never refused
for lack of room. -/
theorem reservations_are_honoured (hvalid : limits.valid = true) (h : Runs limits q) :
    Consistent limits q ∧
      (∀ item currentHeight, NoWrap (enqueueSubtractions limits q item currentHeight)) ∧
      (∀ currentHeight, NoWrap (pruneSubtractions currentHeight q.items q.bytes)) ∧
      (∀ id, NoWrap (eraseSubtractions q id)) ∧
      ∀ item currentHeight,
        let stored := ofClass item.recordClass (q.pruneExpired currentHeight).items
        stored.length + 1 ≤ (limits.reservedItems item.recordClass).toNat →
        itemBytes stored + item.bytes.toNat ≤ (limits.reservedBytes item.recordClass).toNat →
        (enqueue limits q item currentHeight).2 ≠ .relayQueueFull := by
  have hq := h.consistent hvalid
  refine ⟨hq, hq.enqueueSubtractions_noWrap hvalid,
    fun currentHeight => pruneSubtractions_noWrap currentHeight q.bytes hq.bytes_eq.symm.le,
    hq.eraseSubtractions_noWrap, fun item currentHeight hitems hbytes => ?_⟩
  have hroom := (hq.pruneExpired currentHeight).hasRoom hvalid hitems hbytes
  obtain ⟨status, -, ⟨heq, hstatus⟩ | ⟨heq, hfull⟩⟩ | ⟨heq, -⟩ :=
    hq.enqueue_cases hvalid item currentHeight
  · rwa [heq]
  · rw [heq]
    exact fun hstatus => hfull hstatus hroom
  · rw [heq]
    simp

/-- Limits for concrete queues: three items, one of them reserved for each class. -/
def sampleLimits : RelayQueueLimitsV2 := ⟨3, 300, 1, 1, 100, 100⟩

/-- An item for concrete queues. -/
def sampleItem (id : ℕ) (recordClass : RelayClassV2) : RelayItemV2 :=
  ⟨Bytes.Block.ofNat 32 id, recordClass, 100, 9⟩

theorem reservations_are_honoured_sample :
    let q := (enqueue sampleLimits (enqueue sampleLimits {} (sampleItem 1 .enrollment) 0).1
      (sampleItem 2 .enrollment) 0).1
    (enqueue sampleLimits q (sampleItem 3 .enrollment) 0).2 = .relayQueueFull ∧
      (enqueue sampleLimits q (sampleItem 3 .evidence) 0).2 ≠ .relayQueueFull :=
  ⟨by decide +kernel, (reservations_are_honoured (by decide)
    ((Runs.fresh.enqueue (sampleItem 1 .enrollment) 0).enqueue (sampleItem 2 .enrollment)
      0)).2.2.2.2 (sampleItem 3 .evidence) 0 (by decide +kernel) (by decide +kernel)⟩

end DeadlineRelayQueueV2

end Qwertycoin
