import Qwertycoin.Lib.Greedy
import Qwertycoin.RelayQueue

/-
# Selection from the relay queue

A block template takes records from the queue in three passes over the candidates in order: each
class first has its reservation, and then whatever still fits is taken.  The passes share one
running total.  Each of them is a greedy choice; for the first two the shared total never binds,
because the reservations add up to no more than the template.
-/

namespace Qwertycoin

namespace DeadlineRelayQueueV2

/-- The order of the candidates: by deadline, then by id, then by class. -/
def templateLess (left right : RelayItemV2) : Bool :=
  if left.deadlineHeight ≠ right.deadlineHeight then left.deadlineHeight < right.deadlineHeight
  else if Bytes.memLess left.id.data right.id.data then true
  else if Bytes.memLess right.id.data left.id.data then false
  else left.recordClass.code < right.recordClass.code

/-- The candidates of `select_for_template`. -/
def candidates (q : DeadlineRelayQueueV2) (currentHeight : UInt64) : List RelayItemV2 :=
  (q.items.filter fun item => currentHeight ≤ item.deadlineHeight).insertionSort
    fun left right => templateLess right left = false

/-- What `select_for_template` has selected so far. -/
structure Selection where
  selected : List RelayItemV2 := []
  selectedBytes : UInt64 := 0

/-- The function `add` of `select_for_template`, with its answer. -/
def Selection.add (limits : RelayTemplateLimitsV2) (s : Selection) (candidate : RelayItemV2) :
    Selection × Bool :=
  if limits.maxItems.toNat ≤ s.selected.length ||
      limits.maxBytes - s.selectedBytes < candidate.bytes then (s, false)
  else (⟨s.selected ++ [candidate], s.selectedBytes + candidate.bytes⟩, true)

/-- The function `reserve_class` of `select_for_template`, from a point of its loop on. -/
def Selection.reserveClass (limits : RelayTemplateLimitsV2) (recordClass : RelayClassV2)
    (itemLimit byteLimit : UInt64) : List RelayItemV2 → ℕ → UInt64 → Selection → Selection
  | [], _, _, s => s
  | candidate :: candidates, classItems, classBytes, s =>
    if candidate.recordClass ≠ recordClass ∨ itemLimit.toNat ≤ classItems ∨
        byteLimit - classBytes < candidate.bytes then
      reserveClass limits recordClass itemLimit byteLimit candidates classItems classBytes s
    else
      let added := s.add limits candidate
      if added.2 then
        reserveClass limits recordClass itemLimit byteLimit candidates (classItems + 1)
          (classBytes + candidate.bytes) added.1
      else reserveClass limits recordClass itemLimit byteLimit candidates classItems classBytes added.1

/-- The last loop of `select_for_template`. -/
def Selection.fill (limits : RelayTemplateLimitsV2) : List RelayItemV2 → Selection → Selection
  | [], s => s
  | candidate :: candidates, s =>
    if s.selected.any fun item => item.id = candidate.id then fill limits candidates s
    else fill limits candidates (s.add limits candidate).1

def selectForTemplate (queueLimits : RelayQueueLimitsV2) (q : DeadlineRelayQueueV2)
    (currentHeight : UInt64) (limits : RelayTemplateLimitsV2) :
    Except ResourceStatusV2 (List RelayItemV2) :=
  if !queueLimits.valid || !limits.valid then .error .invalidConfiguration
  else
    let candidates := q.candidates currentHeight
    let s := Selection.reserveClass limits .enrollment limits.reservedEnrollmentItems
      limits.reservedEnrollmentBytes candidates 0 0 {}
    let s := s.reserveClass limits .evidence limits.reservedEvidenceItems
      limits.reservedEvidenceBytes candidates 0 0
    .ok (s.fill limits candidates).selected

/-! ## The passes are greedy choices -/

/-- The greedy choice by size. -/
abbrev greedy (candidates : List RelayItemV2) (items bytes : ℕ) : List RelayItemV2 :=
  Greedy.choose (·.bytes.toNat) candidates items bytes

/-- The reservation of a class, filled greedily. -/
def reserved (limits : RelayTemplateLimitsV2) (candidates : List RelayItemV2) (c : RelayClassV2) :
    List RelayItemV2 :=
  greedy (ofClass c candidates) (limits.reservedItems c).toNat (limits.reservedBytes c).toNat

/-- A selection whose total is right and within the limits. -/
structure Selection.Exact (limits : RelayTemplateLimitsV2) (s : Selection) : Prop where
  bytes_eq : s.selectedBytes.toNat = itemBytes s.selected
  items_le : s.selected.length ≤ limits.maxItems.toNat
  bytes_le : itemBytes s.selected ≤ limits.maxBytes.toNat

namespace Selection

variable {limits : RelayTemplateLimitsV2} {s : Selection} {candidate : RelayItemV2}

lemma Exact.add_cases (h : s.Exact limits) (candidate : RelayItemV2) :
    (s.selected.length < limits.maxItems.toNat ∧
        itemBytes s.selected + candidate.bytes.toNat ≤ limits.maxBytes.toNat ∧
        (s.add limits candidate).2 = true ∧
        (s.add limits candidate).1.selected = s.selected ++ [candidate] ∧
        (s.add limits candidate).1.Exact limits) ∨
      ((limits.maxItems.toNat ≤ s.selected.length ∨
          limits.maxBytes.toNat < itemBytes s.selected + candidate.bytes.toNat) ∧
        s.add limits candidate = (s, false)) := by
  have hbytes := h.bytes_eq
  have hmax := h.bytes_le
  have hroom := UInt64.toNat_sub_of_le limits.maxBytes s.selectedBytes
    (UInt64.le_iff_toNat_le.mpr (by omega))
  unfold add
  split_ifs with hfull
  · simp only [Bool.or_eq_true, decide_eq_true_eq, UInt64.lt_iff_toNat_lt, hroom] at hfull
    exact Or.inr ⟨by omega, rfl⟩
  · simp only [Bool.or_eq_true, decide_eq_true_eq, not_or, UInt64.lt_iff_toNat_lt, hroom] at hfull
    have hfits : itemBytes s.selected + candidate.bytes.toNat ≤ limits.maxBytes.toNat := by omega
    refine Or.inl ⟨by omega, hfits, rfl, rfl, ?_, ?_, ?_⟩
    · have hlt := limits.maxBytes.toNat_lt
      rw [UInt64.toNat_add, Nat.mod_eq_of_lt (by omega), itemBytes_append,
        itemBytes_singleton]
      omega
    · rw [List.length_append, List.length_singleton]
      omega
    · rw [itemBytes_append, itemBytes_singleton]
      omega

/-- The pass over a class, as long as what the class may still take fits the template: the greedy
choice of the class. -/
lemma Exact.reserve_from (h : s.Exact limits) (c : RelayClassV2) (candidates : List RelayItemV2)
    {itemLimit byteLimit : UInt64} (classItems : ℕ) (classBytes : UInt64)
    (hclass : classBytes.toNat ≤ byteLimit.toNat)
    (hitems : s.selected.length + (itemLimit.toNat - classItems) ≤ limits.maxItems.toNat)
    (hbytes : itemBytes s.selected + (byteLimit.toNat - classBytes.toNat) ≤
      limits.maxBytes.toNat) :
    (reserveClass limits c itemLimit byteLimit candidates classItems classBytes s).Exact limits ∧
      (reserveClass limits c itemLimit byteLimit candidates classItems classBytes s).selected =
        s.selected ++ greedy (ofClass c candidates) (itemLimit.toNat - classItems)
          (byteLimit.toNat - classBytes.toNat) := by
  induction candidates generalizing classItems classBytes s with
  | nil => exact ⟨h, by simp [Selection.reserveClass, ofClass]⟩
  | cons candidate candidates ih =>
    have hroom := UInt64.toNat_sub_of_le byteLimit classBytes (UInt64.le_iff_toNat_le.mpr hclass)
    rw [Selection.reserveClass]
    by_cases hother : candidate.recordClass = c
    · have hcons : ofClass c (candidate :: candidates) = candidate :: ofClass c candidates := by
        simp [ofClass, hother]
      rw [hcons]
      split_ifs with hskip
      · rw [greedy, Greedy.choose_cons_of_not_fits]
        · exact ih h classItems classBytes hclass hitems hbytes
        · simp only [ne_eq, hother, not_true, false_or, UInt64.lt_iff_toNat_lt, hroom] at hskip
          omega
      · simp only [ne_eq, hother, not_true, false_or, not_or, UInt64.lt_iff_toNat_lt, hroom,
          Nat.not_le, Nat.not_lt] at hskip
        obtain ⟨-, -, htrue, hselected, hexact⟩ | ⟨hfull, -⟩ := h.add_cases candidate
        · have hsum : (classBytes + candidate.bytes).toNat =
              classBytes.toNat + candidate.bytes.toNat := by
            have hlt := byteLimit.toNat_lt
            rw [UInt64.toNat_add, Nat.mod_eq_of_lt (by omega)]
          have hclass' : (classBytes + candidate.bytes).toNat ≤ byteLimit.toNat := by omega
          have hitems' : (s.add limits candidate).1.selected.length +
              (itemLimit.toNat - (classItems + 1)) ≤ limits.maxItems.toNat := by
            rw [hselected, List.length_append, List.length_singleton]
            omega
          have hbytes' : itemBytes (s.add limits candidate).1.selected +
              (byteLimit.toNat - (classBytes + candidate.bytes).toNat) ≤
                limits.maxBytes.toNat := by
            rw [hselected, itemBytes_append, itemBytes_singleton]
            omega
          obtain ⟨hfinal, hchosen⟩ := ih hexact (classItems + 1)
            (classBytes + candidate.bytes) hclass' hitems' hbytes'
          simp only [htrue, if_true]
          refine ⟨hfinal, ?_⟩
          have hfits : candidate.bytes.toNat ≤ byteLimit.toNat - classBytes.toNat := hskip.2
          rw [hchosen, hselected, hsum, List.append_assoc, List.singleton_append, greedy, greedy,
            Greedy.choose_cons_of_fits (a := candidate) (by omega) hfits, Nat.sub_sub, Nat.sub_sub]
        · -- the shared total has room for whatever the reservation has room for
          omega
    · have hcons : ofClass c (candidate :: candidates) = ofClass c candidates := by
        simp [ofClass, hother]
      rw [hcons, if_pos (Or.inl hother)]
      exact ih h classItems classBytes hclass hitems hbytes

lemma Exact.reserve (h : s.Exact limits) (c : RelayClassV2) (candidates : List RelayItemV2)
    (hitems : s.selected.length + (limits.reservedItems c).toNat ≤ limits.maxItems.toNat)
    (hbytes : itemBytes s.selected + (limits.reservedBytes c).toNat ≤ limits.maxBytes.toNat) :
    (reserveClass limits c (limits.reservedItems c) (limits.reservedBytes c) candidates 0 0
        s).Exact limits ∧
      (reserveClass limits c (limits.reservedItems c) (limits.reservedBytes c) candidates 0 0
        s).selected = s.selected ++ reserved limits candidates c :=
  h.reserve_from c candidates 0 0 (Nat.zero_le _) hitems hbytes

/-- The last pass: the greedy choice of what has not been selected. -/
lemma Exact.fill (h : s.Exact limits) {candidates : List RelayItemV2}
    (hdistinct : (candidates.map (·.id)).Nodup) :
    (s.fill limits candidates).Exact limits ∧
      (s.fill limits candidates).selected =
        s.selected ++ greedy
          (candidates.filter fun candidate => !s.selected.any fun item => item.id = candidate.id)
          (limits.maxItems.toNat - s.selected.length)
          (limits.maxBytes.toNat - itemBytes s.selected) := by
  induction candidates generalizing s with
  | nil => exact ⟨h, by simp [Selection.fill]⟩
  | cons candidate candidates ih =>
    rw [List.map_cons, List.nodup_cons] at hdistinct
    obtain ⟨hnew, hdistinct⟩ := hdistinct
    rw [Selection.fill]
    split_ifs with hselected
    · rw [List.filter_cons_of_neg (by simpa using hselected)]
      exact ih h hdistinct
    · rw [List.filter_cons_of_pos (by simpa using hselected)]
      obtain ⟨hitems, hbytes, -, hadded, hexact⟩ | ⟨hfull, hsame⟩ := h.add_cases candidate
      · obtain ⟨hfinal, hchosen⟩ := ih hexact hdistinct
        -- ids are distinct, so the candidate that was added hides none of the others
        have hothers : (candidates.filter fun other =>
              !(s.selected ++ [candidate]).any fun item => item.id = other.id) =
            candidates.filter fun other => !s.selected.any fun item => item.id = other.id := by
          refine List.filter_congr fun other hother => ?_
          have hne : candidate.id ≠ other.id := fun heq =>
            hnew (heq ▸ List.mem_map_of_mem hother)
          simp [hne]
        have hfits : candidate.bytes.toNat ≤ limits.maxBytes.toNat - itemBytes s.selected := by
          omega
        refine ⟨hfinal, ?_⟩
        rw [hchosen, hadded, hothers, greedy, greedy,
          Greedy.choose_cons_of_fits (a := candidate) (by omega) hfits, List.append_assoc,
          List.singleton_append, List.length_append, List.length_singleton, itemBytes_append,
          itemBytes_singleton, Nat.sub_sub, Nat.sub_sub]
      · have hskip : limits.maxItems.toNat - s.selected.length = 0 ∨
            limits.maxBytes.toNat - itemBytes s.selected < candidate.bytes.toNat := by
          have := h.bytes_le
          omega
        rw [hsame, greedy, Greedy.choose_cons_of_not_fits (a := candidate) hskip]
        exact ih h hdistinct

end Selection

/-! ## The selection -/

lemma strictWeak_templateLess : Sorting.StrictWeak templateLess := by
  have hcode : Sorting.StrictWeak fun left right : RelayItemV2 =>
      decide (left.recordClass.code < right.recordClass.code) := by
    constructor
    · intro a b hab
      simpa using UInt8.le_of_lt (of_decide_eq_true hab)
    · intro a c b hac
      simp only [decide_eq_true_eq] at hac ⊢
      exact (UInt8.lt_or_le a.recordClass.code b.recordClass.code).imp_right
        fun hba => UInt8.lt_of_le_of_lt hba hac
  have hlex := (Sorting.StrictWeak.uint64.comap RelayItemV2.deadlineHeight).lex
    ((Bytes.strictWeak_memLess.comap RelayItemV2.id).lex hcode)
  have heq : templateLess = fun left right =>
      if decide (left.deadlineHeight < right.deadlineHeight) then true
      else if decide (right.deadlineHeight < left.deadlineHeight) then false
      else if Bytes.memLess left.id.data right.id.data then true
      else if Bytes.memLess right.id.data left.id.data then false
      else decide (left.recordClass.code < right.recordClass.code) := by
    funext left right
    by_cases hne : left.deadlineHeight = right.deadlineHeight
    · simp [templateLess, hne]
    · obtain hlt | hgt := UInt64.lt_or_lt_of_ne hne
      · simp [templateLess, hne, hlt]
      · simp [templateLess, hne, hgt]
  exact heq ▸ hlex

lemma apart_templateLess {left right : RelayItemV2} (hne : left.id ≠ right.id) :
    Sorting.Apart templateLess left right := by
  unfold Sorting.Apart templateLess
  by_cases hdeadline : left.deadlineHeight = right.deadlineHeight
  · obtain hlt | hgt := Bytes.apart_memLess hne
    · exact Or.inl (by simp [hdeadline, hlt])
    · exact Or.inr (by simp [hdeadline, hgt])
  · exact (UInt64.lt_or_lt_of_ne hdeadline).imp (fun hlt => by simp [hdeadline, hlt])
      fun hgt => by simp [Ne.symm hdeadline, hgt]

section Select

variable {queueLimits : RelayQueueLimitsV2} {limits : RelayTemplateLimitsV2}
  {q q' : DeadlineRelayQueueV2} {currentHeight : UInt64}

lemma mem_candidates {item : RelayItemV2} :
    item ∈ q.candidates currentHeight ↔ item ∈ q.items ∧ currentHeight ≤ item.deadlineHeight := by
  simp [candidates]

lemma Consistent.candidates_ordered (h : Consistent queueLimits q) (currentHeight : UInt64) :
    (q.candidates currentHeight).Pairwise fun left right => templateLess left right = true := by
  refine strictWeak_templateLess.strictly ?_
  have hids : q.items.Pairwise fun left right => left.id ≠ right.id :=
    List.pairwise_map.mp h.distinct
  exact (hids.filter _).imp fun hne => apart_templateLess hne

lemma Consistent.candidates_distinct (h : Consistent queueLimits q) (currentHeight : UInt64) :
    ((q.candidates currentHeight).map (·.id)).Nodup := by
  have hperm : (q.candidates currentHeight).Perm
      (q.items.filter fun item => currentHeight ≤ item.deadlineHeight) :=
    List.perm_insertionSort _ _
  exact ((hperm.map _).nodup_iff).mpr ((List.filter_sublist.map _).nodup h.distinct)

lemma Consistent.candidates_congr (h : Consistent queueLimits q) (h' : Consistent queueLimits q')
    (hmem : ∀ item, item ∈ q'.items ↔ item ∈ q.items) :
    q'.candidates currentHeight = q.candidates currentHeight := by
  refine strictWeak_templateLess.eq_of_strictly (h'.candidates_ordered currentHeight)
    (h.candidates_ordered currentHeight) fun item => ?_
  rw [mem_candidates, mem_candidates, hmem]

/-- What is selected: the reservations of the two classes, and the greedy choice of the rest. -/
lemma exists_selectForTemplate (hqueue : queueLimits.valid = true) (hlimits : limits.valid = true)
    (q : DeadlineRelayQueueV2) (currentHeight : UInt64) :
    ∃ s : Selection, s.Exact limits ∧
      s.selected = reserved limits (q.candidates currentHeight) .enrollment ++
        reserved limits (q.candidates currentHeight) .evidence ∧
      selectForTemplate queueLimits q currentHeight limits =
        .ok (s.fill limits (q.candidates currentHeight)).selected := by
  obtain ⟨-, -, -, hitems, hbytes⟩ := RelayLimitsV2.valid_iff.mp hlimits
  have hitems : _ + (limits.reservedItems .evidence).toNat ≤ _ := hitems .enrollment
  have hbytes : _ + (limits.reservedBytes .evidence).toNat ≤ _ := hbytes .enrollment
  have hfresh : Selection.Exact limits {} := ⟨rfl, Nat.zero_le _, Nat.zero_le _⟩
  obtain ⟨hfirst, hchosen⟩ := hfresh.reserve .enrollment (q.candidates currentHeight)
    (by rw [List.length_nil]; omega) (by rw [itemBytes_nil]; omega)
  rw [List.nil_append] at hchosen
  -- the enrolments keep within their reservation, so that of the evidence is still free
  obtain ⟨hlength, hsum⟩ := Greedy.choose_within (·.bytes.toNat)
    (ofClass .enrollment (q.candidates currentHeight)) (limits.reservedItems .enrollment).toNat
    (limits.reservedBytes .enrollment).toNat
  rw [show Greedy.choose _ _ _ _ = _ from hchosen.symm] at hlength hsum
  obtain ⟨hsecond, hchosen'⟩ := hfirst.reserve .evidence (q.candidates currentHeight) (by omega)
    (by unfold itemBytes; omega)
  refine ⟨_, hsecond, by rw [hchosen', hchosen], ?_⟩
  simp [selectForTemplate, hqueue, hlimits, RelayLimitsV2.reservedItems,
    RelayLimitsV2.reservedBytes]

lemma reserved_subset (c : RelayClassV2) {candidates : List RelayItemV2} {item : RelayItemV2}
    (h : item ∈ reserved limits candidates c) : item ∈ candidates ∧ item.recordClass = c := by
  have hmem := (Greedy.choose_sublist _ _ _ _).subset h
  simpa [ofClass] using hmem

lemma reserved_distinct {candidates : List RelayItemV2}
    (hdistinct : (candidates.map (·.id)).Nodup) :
    ((reserved limits candidates .enrollment ++ reserved limits candidates .evidence).map
      (·.id)).Nodup := by
  have hclass : ∀ c, ((reserved limits candidates c).map (·.id)).Nodup := fun c =>
    (((Greedy.choose_sublist _ _ _ _).trans List.filter_sublist).map _).nodup hdistinct
  rw [List.map_append, List.nodup_append]
  refine ⟨hclass _, hclass _, fun id hid id' hid' heq => ?_⟩
  obtain ⟨item, hitem, rfl⟩ := List.mem_map.mp hid
  obtain ⟨item', hitem', rfl⟩ := List.mem_map.mp hid'
  obtain ⟨hmem, henrollment⟩ := reserved_subset _ hitem
  obtain ⟨hmem', hevidence⟩ := reserved_subset _ hitem'
  obtain rfl := List.inj_on_of_nodup_map hdistinct hmem hmem' heq
  rw [henrollment] at hevidence
  cases hevidence

/-- Among items with different ids, the order is by deadline and then by id. -/
def Earlier (left right : RelayItemV2) : Prop :=
  left.deadlineHeight < right.deadlineHeight ∨
    left.deadlineHeight = right.deadlineHeight ∧ Bytes.memLess left.id.data right.id.data = true

lemma earlier_of_templateLess {left right : RelayItemV2} (hne : left.id ≠ right.id)
    (h : templateLess left right = true) : Earlier left right := by
  unfold templateLess at h
  split_ifs at h with hdeadline hlt hgt
  · exact Or.inl (of_decide_eq_true h)
  · exact Or.inr ⟨not_ne_iff.mp hdeadline, hlt⟩
  · exact absurd (Bytes.apart_memLess hne) (by simp [Sorting.Apart, hlt, hgt])

lemma Consistent.candidates_earlier (h : Consistent queueLimits q) (currentHeight : UInt64) :
    (q.candidates currentHeight).Pairwise Earlier := by
  have hids : (q.candidates currentHeight).Pairwise fun left right => left.id ≠ right.id :=
    List.pairwise_map.mp (h.candidates_distinct currentHeight)
  exact hids.imp₂ (fun _ _ hne hless => earlier_of_templateLess hne hless)
    (h.candidates_ordered currentHeight)

/-- **Selection from the queue is canonical, bounded, fair to both classes and maximal.**  Take any
queue that calls lead to, and valid limits.  The selection depends on the set of stored items only;
it has distinct ids, holds unexpired stored items and keeps within the items and bytes of the
template.  For each class it includes the greedy choice of the unexpired items of the class, by
deadline and then by id, within the reservation of the class.  And an unexpired item that is not
selected would exceed the items or the bytes that are left. -/
theorem template_selection_is_canonical (hqueue : queueLimits.valid = true)
    (hlimits : limits.valid = true) (hq : Runs queueLimits q) (currentHeight : UInt64) :
    ∃ selected, selectForTemplate queueLimits q currentHeight limits = .ok selected ∧
      (∀ q', Runs queueLimits q' → (∀ item, item ∈ q'.items ↔ item ∈ q.items) →
        selectForTemplate queueLimits q' currentHeight limits = .ok selected) ∧
      (selected.map (·.id)).Nodup ∧
      (∀ item ∈ selected, item ∈ q.items ∧ currentHeight ≤ item.deadlineHeight) ∧
      selected.length ≤ limits.maxItems.toNat ∧
      itemBytes selected ≤ limits.maxBytes.toNat ∧
      (∀ c, ∃ ordered : List RelayItemV2, ordered.Pairwise Earlier ∧
        (∀ item, item ∈ ordered ↔
          item ∈ q.items ∧ currentHeight ≤ item.deadlineHeight ∧ item.recordClass = c) ∧
        greedy ordered (limits.reservedItems c).toNat (limits.reservedBytes c).toNat ⊆ selected) ∧
      ∀ item ∈ q.items, currentHeight ≤ item.deadlineHeight → item ∉ selected →
        limits.maxItems.toNat ≤ selected.length ∨
          limits.maxBytes.toNat < itemBytes selected + item.bytes.toNat := by
  have hconsistent := hq.consistent hqueue
  have hdistinct := hconsistent.candidates_distinct currentHeight
  obtain ⟨s, hexact, hreserved, hselect⟩ := exists_selectForTemplate hqueue hlimits q currentHeight
  obtain ⟨hfinal, hselected⟩ := hexact.fill hdistinct
  refine ⟨_, hselect, fun q' hq' hmem => ?_, ?_, ?_, hfinal.items_le, hfinal.bytes_le, ?_, ?_⟩
  · rw [← hselect]
    unfold selectForTemplate
    rw [hconsistent.candidates_congr (hq'.consistent hqueue) hmem]
  · rw [hselected, List.map_append, List.nodup_append]
    refine ⟨hreserved ▸ reserved_distinct hdistinct, ?_, fun id hid id' hid' heq => ?_⟩
    · exact (((Greedy.choose_sublist _ _ _ _).trans List.filter_sublist).map _).nodup hdistinct
    · obtain ⟨item, hitem, rfl⟩ := List.mem_map.mp hid
      obtain ⟨item', hitem', rfl⟩ := List.mem_map.mp hid'
      have hrest := (Greedy.choose_sublist _ _ _ _).subset hitem'
      simp only [List.mem_filter, Bool.not_eq_true', List.any_eq_false, decide_eq_true_eq] at hrest
      exact hrest.2 item hitem heq
  · intro item hitem
    rw [← mem_candidates]
    rw [hselected, hreserved, List.mem_append, List.mem_append] at hitem
    obtain (hitem | hitem) | hitem := hitem
    · exact (reserved_subset _ hitem).1
    · exact (reserved_subset _ hitem).1
    · exact List.mem_of_mem_filter ((Greedy.choose_sublist _ _ _ _).subset hitem)
  · intro c
    refine ⟨ofClass c (q.candidates currentHeight),
      (hconsistent.candidates_earlier currentHeight).filter _, fun item => ?_, ?_⟩
    · rw [ofClass, List.mem_filter, mem_candidates, and_assoc, decide_eq_true_eq]
    · rw [hselected, hreserved]
      intro item hitem
      cases c with
      | enrollment => exact List.mem_append_left _ (List.mem_append_left _ hitem)
      | evidence => exact List.mem_append_left _ (List.mem_append_right _ hitem)
  · intro item hitem hopen hskipped
    have hcandidate := mem_candidates.mpr ⟨hitem, hopen⟩
    rw [hselected, List.mem_append, not_or] at hskipped
    obtain ⟨hunreserved, hskipped⟩ := hskipped
    -- no reserved item has its id, so the last pass considered it
    have hrest : item ∈ (q.candidates currentHeight).filter fun candidate =>
        !s.selected.any fun item => item.id = candidate.id := by
      simp only [List.mem_filter, Bool.not_eq_true', List.any_eq_false, decide_eq_true_eq]
      refine ⟨hcandidate, fun other hother heq => hunreserved ?_⟩
      have hmem : other ∈ q.candidates currentHeight := by
        rw [hreserved, List.mem_append] at hother
        exact hother.elim (fun h => (reserved_subset _ h).1) fun h => (reserved_subset _ h).1
      exact List.inj_on_of_nodup_map hdistinct hmem hcandidate heq ▸ hother
    have hmaximal : limits.maxItems.toNat - s.selected.length ≤ (greedy _ _ _).length ∨
        limits.maxBytes.toNat - itemBytes s.selected < itemBytes (greedy _ _ _) +
          item.bytes.toNat := Greedy.choose_maximal hrest hskipped
    have hbytes := hexact.bytes_le
    rw [hselected, List.length_append, itemBytes_append]
    omega

theorem template_selection_is_canonical_sample :
    ∃ q, Runs sampleLimits q ∧ q.items.length = 3 ∧
      ∃ selected, selectForTemplate sampleLimits q 0 ⟨2, 200, 1, 1, 100, 100⟩ = .ok selected ∧
        selected.length ≤ 2 :=
  have hruns := ((Runs.fresh.enqueue (sampleItem 1 .enrollment) 0).enqueue
    (sampleItem 2 .enrollment) 0).enqueue (sampleItem 3 .evidence) 0
  ⟨_, hruns, by decide +kernel, (template_selection_is_canonical (by decide) (by decide) hruns
    0).imp fun _ h => ⟨h.1, h.2.2.2.2.1⟩⟩

end Select

end DeadlineRelayQueueV2

end Qwertycoin
