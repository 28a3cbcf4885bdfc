import Qwertycoin.Lib.Pacing
import Qwertycoin.Timing

/-
# The delivery limiter

A node sends an envelope to a peer again and again until it is confirmed.  The limiter keeps one
entry for each pair of envelope and peer, with the time before which nothing is sent and a counter
of deliveries; when the counter is full the delay is longer and the counter starts again.
-/

namespace Qwertycoin

open Pacing

/-! ## The limiter -/

/-- `relay_delivery_limiter_v2::entry` -/
structure DeliveryEntryV2 where
  key : List UInt8
  nextAttemptMs : UInt64
  lastAttemptMs : UInt64
  attempts : UInt32
deriving DecidableEq

structure RelayDeliveryLimiterV2 where
  maxEntries : ℕ
  intervalMs : UInt64
  maxAttempts : UInt32
  entries : List DeliveryEntryV2 := []
deriving DecidableEq

namespace RelayDeliveryLimiterV2

/-- A sum that stops at the largest time. -/
def saturatingAdd (now delay : UInt64) : UInt64 :=
  if uint64Max - delay < now then uint64Max else now + delay

/-- The entries without the first one with the smallest last attempt. -/
def evict (entries : List DeliveryEntryV2) : List DeliveryEntryV2 :=
  entries.eraseIdx (entries.findIdx fun entry =>
    entries.all fun other => entry.lastAttemptMs ≤ other.lastAttemptMs)

/-- The delay when the counter is full. -/
def longDelay (l : RelayDeliveryLimiterV2) : UInt64 :=
  if uint64Max / l.intervalMs < l.maxAttempts.toUInt64 then uint64Max
  else l.intervalMs * l.maxAttempts.toUInt64

/-- The entry of a key after one more delivery. -/
def deliver (l : RelayDeliveryLimiterV2) (found : DeliveryEntryV2) (now : UInt64) :
    DeliveryEntryV2 :=
  let attempts := (if l.maxAttempts ≤ found.attempts then 0 else found.attempts) + 1
  let delay := if l.maxAttempts ≤ attempts then l.longDelay else l.intervalMs
  { found with
    attempts
    lastAttemptMs := now
    nextAttemptMs := if delay = uint64Max then uint64Max else saturatingAdd now delay }

/-- `allow` -/
def allow (l : RelayDeliveryLimiterV2) (deliveryKey : List UInt8) (now : UInt64) :
    Bool × RelayDeliveryLimiterV2 :=
  if deliveryKey = [] ∨ l.maxEntries = 0 ∨ l.intervalMs = 0 ∨ l.maxAttempts = 0 then (false, l)
  else
    match l.entries.find? (fun entry => entry.key = deliveryKey) with
    | none =>
      let entries := if l.maxEntries ≤ l.entries.length then evict l.entries else l.entries
      (true, { l with
        entries := entries ++ [⟨deliveryKey, saturatingAdd now l.intervalMs, now, 1⟩] })
    | some found =>
      if now < found.nextAttemptMs then (false, l)
      else
        (true, { l with
          entries := l.entries.replaceF fun entry =>
            if entry.key = deliveryKey then some (l.deliver entry now) else none })

/-! ## Runs -/

/-- A call of `allow`: a key and a time. -/
abbrev DeliveryCall := List UInt8 × UInt64

/-- The limiter after some calls. -/
def run (l : RelayDeliveryLimiterV2) (calls : List DeliveryCall) : RelayDeliveryLimiterV2 :=
  calls.foldl (fun l call => (l.allow call.1 call.2).2) l

/-- The times of the calls for a key that were allowed. -/
def allowedTimes (l : RelayDeliveryLimiterV2) (key : List UInt8) : List DeliveryCall → List UInt64
  | [] => []
  | call :: calls =>
    (if call.1 = key ∧ (l.allow call.1 call.2).1 then [call.2] else []) ++
      (l.allow call.1 call.2).2.allowedTimes key calls

variable {l : RelayDeliveryLimiterV2} {key : List UInt8} {calls : List DeliveryCall}

lemma run_concat (call : DeliveryCall) :
    l.run (calls ++ [call]) = ((l.run calls).allow call.1 call.2).2 := by
  rw [run, List.foldl_append]
  rfl

lemma allowedTimes_concat (call : DeliveryCall) :
    l.allowedTimes key (calls ++ [call]) = l.allowedTimes key calls ++
      if call.1 = key ∧ ((l.run calls).allow call.1 call.2).1 then [call.2] else [] := by
  induction calls generalizing l with
  | nil =>
    rw [List.nil_append, allowedTimes, allowedTimes, allowedTimes, List.append_nil, List.nil_append]
    rfl
  | cons first calls ih =>
    rw [List.cons_append, allowedTimes, ih, allowedTimes, List.append_assoc]
    rfl

/-! ## Delays as numbers -/

/-- The parameters are positive. -/
structure Positive (l : RelayDeliveryLimiterV2) : Prop where
  entries : 0 < l.maxEntries
  interval : 0 < l.intervalMs.toNat
  attempts : 0 < l.maxAttempts.toNat

/-- The delay after the `n`-th delivery. -/
def delayAfter (l : RelayDeliveryLimiterV2) (n : ℕ) : ℕ :=
  if l.maxAttempts.toNat ∣ n then l.intervalMs.toNat * l.maxAttempts.toNat
  else l.intervalMs.toNat

lemma interval_le_delayAfter (hl : l.Positive) (n : ℕ) : l.intervalMs.toNat ≤ l.delayAfter n := by
  unfold delayAfter
  split_ifs
  · exact Nat.le_mul_of_pos_right _ hl.attempts
  · exact le_rfl

lemma toNat_saturatingAdd (now delay : UInt64) :
    (saturatingAdd now delay).toNat = min (now.toNat + delay.toNat) (2 ^ 64 - 1) := by
  have hdelay := delay.toNat_lt
  have hsub : (uint64Max - delay).toNat = 2 ^ 64 - 1 - delay.toNat := by
    rw [UInt64.toNat_sub_of_le _ _ (UInt64.le_iff_toNat_le.mpr (by simp; omega))]
    simp
  rw [saturatingAdd]
  split_ifs with h
  · rw [UInt64.lt_iff_toNat_lt, hsub] at h
    rw [toNat_uint64Max]
    omega
  · rw [UInt64.lt_iff_toNat_lt, hsub] at h
    rw [UInt64.toNat_add, Nat.mod_eq_of_lt (by omega)]
    omega

lemma toNat_longDelay (hl : l.Positive) :
    l.longDelay.toNat = min (l.intervalMs.toNat * l.maxAttempts.toNat) (2 ^ 64 - 1) := by
  have hmax : l.maxAttempts.toUInt64.toNat = l.maxAttempts.toNat := UInt32.toNat_toUInt64 _
  have hlong : uint64Max / l.intervalMs < l.maxAttempts.toUInt64 ↔
      (2 ^ 64 - 1) / l.intervalMs.toNat < l.maxAttempts.toNat := by
    rw [UInt64.lt_iff_toNat_lt, UInt64.toNat_div, toNat_uint64Max, hmax]
  rw [longDelay]
  split_ifs with h
  · rw [hlong, Nat.div_lt_iff_lt_mul hl.interval, Nat.mul_comm] at h
    rw [toNat_uint64Max]
    omega
  · rw [hlong, Nat.not_lt, Nat.le_div_iff_mul_le hl.interval, Nat.mul_comm] at h
    rw [UInt64.toNat_mul, hmax, Nat.mod_eq_of_lt (by omega)]
    omega

/-- An entry after some deliveries of which the last was at a time. -/
structure EntryAt (l : RelayDeliveryLimiterV2) (n : ℕ) (last : UInt64) (entry : DeliveryEntryV2) :
    Prop where
  counted : 1 ≤ n
  atLast : entry.lastAttemptMs = last
  next : entry.nextAttemptMs.toNat = min (last.toNat + l.delayAfter n) (2 ^ 64 - 1)
  attempts : entry.attempts.toNat = (n - 1) % l.maxAttempts.toNat + 1

lemma entryAt_one {now : UInt64} :
    l.EntryAt 1 now ⟨key, saturatingAdd now l.intervalMs, now, 1⟩ := by
  refine ⟨le_rfl, rfl, ?_, ?_⟩
  · rw [toNat_saturatingAdd, delayAfter]
    split_ifs with hdvd
    · rw [Nat.dvd_one.mp hdvd, Nat.mul_one]
    · rfl
  · rw [Nat.sub_self, Nat.zero_mod]
    rfl

lemma EntryAt.deliver (hl : l.Positive) {n : ℕ} {last now : UInt64} {entry : DeliveryEntryV2}
    (h : l.EntryAt n last entry) : l.EntryAt (n + 1) now (l.deliver entry now) := by
  obtain ⟨k, rfl⟩ := Nat.exists_eq_add_of_le' h.counted
  have hattempts := h.attempts
  rw [Nat.add_sub_cancel] at hattempts
  have hmax := l.maxAttempts.toNat_lt
  have hlt := Nat.mod_lt (k + 1) hl.attempts
  -- the counter is the number of deliveries, counted again from one when it is full
  have hcount : ((if l.maxAttempts ≤ entry.attempts then 0 else entry.attempts) + 1 : UInt32).toNat =
      (k + 1) % l.maxAttempts.toNat + 1 := by
    have hbefore : (if l.maxAttempts ≤ entry.attempts then 0 else entry.attempts : UInt32).toNat =
        (k + 1) % l.maxAttempts.toNat := by
      rw [add_one_mod hl.attempts, ← hattempts]
      simp only [UInt32.le_iff_toNat_le]
      split_ifs <;> rfl
    rw [UInt32.toNat_add, hbefore, UInt32.toNat_one]
    omega
  refine ⟨Nat.le_add_left 1 _, rfl, ?_, hcount⟩
  generalize hcounter : (if l.maxAttempts ≤ entry.attempts then 0 else entry.attempts) + 1 =
    counter at hcount
  have hdelay : (if l.maxAttempts ≤ counter then l.longDelay else l.intervalMs).toNat =
      min (l.delayAfter (k + 1 + 1)) (2 ^ 64 - 1) := by
    have hfull : l.maxAttempts ≤ counter ↔ l.maxAttempts.toNat ∣ k + 1 + 1 := by
      rw [UInt32.le_iff_toNat_le, hcount, le_mod_add_one_iff hl.attempts]
    rw [delayAfter]
    by_cases hdvd : l.maxAttempts.toNat ∣ k + 1 + 1
    · rw [if_pos (hfull.mpr hdvd), if_pos hdvd, toNat_longDelay hl]
    · have hinterval := l.intervalMs.toNat_lt
      rw [if_neg (hfull.not.mpr hdvd), if_neg hdvd]
      omega
  generalize hd : (if l.maxAttempts ≤ counter then l.longDelay else l.intervalMs) = delay
    at hdelay
  show (if (if l.maxAttempts ≤ (if l.maxAttempts ≤ entry.attempts then 0 else entry.attempts) + 1
      then l.longDelay else l.intervalMs) = uint64Max then uint64Max
    else saturatingAdd now (if l.maxAttempts ≤
      (if l.maxAttempts ≤ entry.attempts then 0 else entry.attempts) + 1 then l.longDelay
      else l.intervalMs)).toNat = _
  rw [hcounter, hd]
  split_ifs with hlargest
  · rw [hlargest, toNat_uint64Max] at hdelay
    rw [toNat_uint64Max]
    omega
  · rw [toNat_saturatingAdd]
    omega

/-! ## One call -/

lemma replaceF_append_cons {α : Type*} {f : α → Option α} {before after : List α} {a b : α}
    (hbefore : ∀ x ∈ before, f x = none) (ha : f a = some b) :
    (before ++ a :: after).replaceF f = before ++ b :: after := by
  induction before with
  | nil => simp [List.replaceF, ha]
  | cons x before ih =>
    have hx := hbefore x List.mem_cons_self
    simp [List.replaceF, hx, ih fun y hy => hbefore y (List.mem_cons_of_mem _ hy)]

lemma allow_cases (hl : l.Positive) (hkey : key ≠ []) (now : UInt64) :
    ((∀ entry ∈ l.entries, entry.key ≠ key) ∧ (l.entries.length < l.maxEntries →
      l.allow key now = (true, { l with
        entries := l.entries ++ [⟨key, saturatingAdd now l.intervalMs, now, 1⟩] }))) ∨
    ∃ before found after, l.entries = before ++ found :: after ∧ found.key = key ∧
      ((now < found.nextAttemptMs ∧ l.allow key now = (false, l)) ∨
        (found.nextAttemptMs ≤ now ∧ l.allow key now =
          (true, { l with entries := before ++ l.deliver found now :: after }))) := by
  have hchecks : ¬(key = [] ∨ l.maxEntries = 0 ∨ l.intervalMs = 0 ∨ l.maxAttempts = 0) := by
    rintro (h | h | h | h)
    · exact hkey h
    · exact hl.entries.ne' h
    · exact hl.interval.ne' (by rw [h]; rfl)
    · exact hl.attempts.ne' (by rw [h]; rfl)
  cases hfind : l.entries.find? (fun entry => entry.key = key) with
  | none =>
    refine .inl ⟨?_, fun hroom => ?_⟩
    · intro entry hmem
      simpa using List.find?_eq_none.mp hfind entry hmem
    · rw [allow, if_neg hchecks, hfind]
      simp only [if_neg (Nat.not_le.mpr hroom)]
  | some found =>
    obtain ⟨hfound, before, after, hsplit, hbefore⟩ := List.find?_eq_some_iff_append.mp hfind
    refine .inr ⟨before, found, after, hsplit, by simpa using hfound, ?_⟩
    by_cases hearly : now < found.nextAttemptMs
    · refine .inl ⟨hearly, ?_⟩
      rw [allow, if_neg hchecks, hfind]
      simp only [if_pos hearly]
    · refine .inr ⟨UInt64.not_lt.mp hearly, ?_⟩
      rw [allow, if_neg hchecks, hfind]
      simp only [if_neg hearly]
      rw [hsplit, replaceF_append_cons]
      · intro entry hmem
        have hne := hbefore entry hmem
        simp only [Bool.not_eq_true', decide_eq_false_iff_not] at hne
        exact if_neg hne
      · exact if_pos (by simpa using hfound)

/-- What the entries say about the calls that were allowed so far. -/
structure Tracks (l : RelayDeliveryLimiterV2) (times : List UInt8 → List UInt64) : Prop where
  distinct : (l.entries.map (·.key)).Nodup
  entry : ∀ entry ∈ l.entries, ∃ last, (times entry.key).getLast? = some last ∧
    l.EntryAt (times entry.key).length last entry
  known : ∀ key, times key ≠ [] → key ∈ l.entries.map (·.key)
  paced : ∀ key, Paced l.delayAfter ((times key).map (·.toNat))

/-- The allowed times after one more call. -/
def addCall (times : List UInt8 → List UInt64) (key : List UInt8) (now : UInt64) (allowed : Bool) :
    List UInt8 → List UInt64 :=
  fun other => times other ++ if key = other ∧ allowed then [now] else []

lemma addCall_false {times : List UInt8 → List UInt64} {now : UInt64} :
    addCall times key now false = times := by
  funext other
  simp [addCall]

lemma addCall_self {times : List UInt8 → List UInt64} {now : UInt64} :
    addCall times key now true key = times key ++ [now] := by
  simp [addCall]

lemma addCall_of_ne {times : List UInt8 → List UInt64} {now : UInt64} {allowed : Bool}
    {other : List UInt8} (h : key ≠ other) : addCall times key now allowed other = times other := by
  simp [addCall, h]

lemma Tracks.paced_addCall {times : List UInt8 → List UInt64} (h : l.Tracks times) {now : UInt64}
    (hnow : ∀ last, (times key).getLast? = some last →
      last.toNat + l.delayAfter (times key).length ≤ now.toNat) (other : List UInt8) :
    Paced l.delayAfter ((addCall times key now true other).map (·.toNat)) := by
  by_cases hother : key = other
  · subst hother
    rw [addCall_self, List.map_append, List.map_singleton]
    refine (h.paced key).concat fun last hlast => ?_
    rw [List.getLast?_map, Option.map_eq_some_iff] at hlast
    obtain ⟨time, htime, rfl⟩ := hlast
    rw [List.length_map]
    exact hnow time htime
  · rw [addCall_of_ne hother]
    exact h.paced other

lemma EntryAt.of_entries {entries : List DeliveryEntryV2} {n : ℕ} {last : UInt64}
    {entry : DeliveryEntryV2} (h : l.EntryAt n last entry) :
    ({ l with entries } : RelayDeliveryLimiterV2).EntryAt n last entry :=
  ⟨h.counted, h.atLast, h.next, h.attempts⟩

lemma toNat_lt_of_ne {now : UInt64} (hnow : now ≠ uint64Max) : now.toNat < 2 ^ 64 - 1 := by
  have hne : now.toNat ≠ 2 ^ 64 - 1 := fun heq => hnow (UInt64.toNat_inj.mp (by simpa using heq))
  have hlt := now.toNat_lt
  omega

/-- A key of which nothing is known has not been allowed. -/
lemma Tracks.eq_nil {times : List UInt8 → List UInt64} (h : l.Tracks times)
    (hnew : ∀ entry ∈ l.entries, entry.key ≠ key) : times key = [] := by
  by_contra hne
  obtain ⟨entry, hentry, heq⟩ := List.mem_map.mp (h.known key hne)
  exact hnew entry hentry heq

/-- A call is allowed when the delay after the last one for the same key is over. -/
lemma Tracks.allow_iff {times : List UInt8 → List UInt64} (h : l.Tracks times) (hl : l.Positive)
    (hkey : key ≠ []) {now : UInt64} (hnow : now ≠ uint64Max)
    (hroom : key ∉ l.entries.map (·.key) → l.entries.length < l.maxEntries) :
    (l.allow key now).1 = true ↔ ∀ last, (times key).getLast? = some last →
      last.toNat + l.delayAfter (times key).length ≤ now.toNat := by
  have hlt := toNat_lt_of_ne hnow
  obtain ⟨hnew, hallow⟩ | ⟨before, found, after, hsplit, rfl, hcases⟩ := allow_cases hl hkey now
  · have hnot : key ∉ l.entries.map (·.key) := by
      rw [List.mem_map]
      rintro ⟨entry, hmem, rfl⟩
      exact hnew entry hmem rfl
    rw [hallow (hroom hnot), h.eq_nil hnew]
    simp
  · obtain ⟨last, hlast, hentry⟩ := h.entry found (by simp [hsplit])
    have hnext := hentry.next
    rcases hcases with ⟨hearly, hallow⟩ | ⟨hle, hallow⟩
    · rw [UInt64.lt_iff_toNat_lt] at hearly
      rw [hallow]
      refine iff_of_false Bool.false_ne_true fun hover => ?_
      have := hover last hlast
      omega
    · rw [UInt64.le_iff_toNat_le] at hle
      rw [hallow]
      refine iff_of_true rfl fun time htime => ?_
      obtain rfl := Option.some.inj (hlast.symm.trans htime)
      omega

lemma Tracks.allow {times : List UInt8 → List UInt64} (h : l.Tracks times) (hl : l.Positive)
    (hkey : key ≠ []) {now : UInt64} (hnow : now ≠ uint64Max)
    (hroom : key ∉ l.entries.map (·.key) → l.entries.length < l.maxEntries) :
    (l.allow key now).2.Tracks (addCall times key now (l.allow key now).1) := by
  have hover := (h.allow_iff hl hkey hnow hroom).mp
  obtain ⟨hnew, hallow⟩ | ⟨before, found, after, hsplit, rfl, ⟨hearly, hallow⟩ | ⟨hle, hallow⟩⟩ :=
    allow_cases hl hkey now
  · -- the first call for a key
    have hnot : key ∉ l.entries.map (·.key) := by
      rw [List.mem_map]
      rintro ⟨entry, hmem, rfl⟩
      exact hnew entry hmem rfl
    have hnil := h.eq_nil hnew
    rw [hallow (hroom hnot)]
    refine ⟨?_, ?_, ?_, ?_⟩
    · rw [List.map_append, List.map_singleton]
      exact h.distinct.append (List.nodup_singleton _) (by simpa using hnot)
    · intro entry hmem
      rw [List.mem_append, List.mem_singleton] at hmem
      rcases hmem with hmem | rfl
      · rw [addCall_of_ne (hnew entry hmem).symm]
        obtain ⟨last, hlast, hentry⟩ := h.entry entry hmem
        exact ⟨last, hlast, hentry.of_entries⟩
      · refine ⟨now, ?_, ?_⟩
        · rw [addCall_self, List.getLast?_concat]
        · rw [addCall_self, hnil]
          exact entryAt_one.of_entries
    · intro other hother
      rw [List.map_append, List.mem_append]
      by_cases heq : key = other
      · exact .inr (by simp [heq])
      · rw [addCall_of_ne heq] at hother
        exact .inl (h.known other hother)
    · exact h.paced_addCall (hover (by rw [hallow (hroom hnot)]))
  · rw [hallow, addCall_false]
    exact h
  · -- a later call
    have hmem : found ∈ l.entries := by simp [hsplit]
    obtain ⟨last, hlast, hentry⟩ := h.entry found hmem
    have hkeys : (before ++ l.deliver found now :: after).map (·.key) =
        l.entries.map (·.key) := by
      rw [hsplit, List.map_append, List.map_append]
      rfl
    have hothers : ∀ entry, entry ∈ before ∨ entry ∈ after → found.key ≠ entry.key := by
      have hdistinct := h.distinct
      rw [hsplit, List.map_append, List.map_cons, List.nodup_append, List.nodup_cons] at hdistinct
      obtain ⟨-, ⟨hafter, -⟩, hbefore⟩ := hdistinct
      rintro entry (hmem | hmem) heq
      · exact hbefore _ (List.mem_map_of_mem hmem) _ List.mem_cons_self heq.symm
      · exact hafter (heq ▸ List.mem_map_of_mem hmem)
    rw [hallow]
    refine ⟨?_, ?_, ?_, ?_⟩
    · rw [hkeys]
      exact h.distinct
    · intro entry hentries
      rw [List.mem_append, List.mem_cons] at hentries
      have hcases : entry = l.deliver found now ∨ entry ∈ before ∨ entry ∈ after := by tauto
      rcases hcases with rfl | hother
      · show ∃ last, (addCall times found.key now true found.key).getLast? = some last ∧ _
        refine ⟨now, ?_, ?_⟩
        · rw [addCall_self, List.getLast?_concat]
        · show EntryAt _ (addCall times found.key now true found.key).length _ _
          rw [addCall_self, List.length_append, List.length_singleton]
          exact (hentry.deliver hl).of_entries
      · rw [addCall_of_ne (hothers entry hother)]
        have hmem' : entry ∈ l.entries := by
          rw [hsplit, List.mem_append, List.mem_cons]
          tauto
        obtain ⟨last', hlast', hentry'⟩ := h.entry entry hmem'
        exact ⟨last', hlast', hentry'.of_entries⟩
    · intro other hother
      rw [hkeys]
      by_cases heq : found.key = other
      · exact heq ▸ List.mem_map_of_mem hmem
      · rw [addCall_of_ne heq] at hother
        exact h.known other hother
    · exact h.paced_addCall (hover (by rw [hallow]))

/-! ## Runs of calls -/

/-- What the calls ask for: keys that are not empty, taken from a list, and times that are not the
largest one. -/
def Fair (keys : List (List UInt8)) (calls : List DeliveryCall) : Prop :=
  ∀ call ∈ calls, call.1 ≠ [] ∧ call.1 ∈ keys ∧ call.2 ≠ uint64Max

lemma allow_entries (l : RelayDeliveryLimiterV2) (key : List UInt8) (now : UInt64) :
    (l.allow key now).2 = { l with entries := (l.allow key now).2.entries } := by
  unfold allow
  split
  · rfl
  · split
    · rfl
    · split <;> rfl

lemma run_entries (l : RelayDeliveryLimiterV2) (calls : List DeliveryCall) :
    l.run calls = { l with entries := (l.run calls).entries } := by
  induction calls using List.reverseRecOn with
  | nil => rfl
  | append_singleton calls call ih =>
    rw [run_concat, allow_entries, ih]

lemma run_delayAfter (l : RelayDeliveryLimiterV2) (calls : List DeliveryCall) :
    (l.run calls).delayAfter = l.delayAfter := by
  rw [run_entries]
  rfl

lemma allowedTimes_subset {now : UInt64} (h : now ∈ l.allowedTimes key calls) :
    (key, now) ∈ calls := by
  induction calls generalizing l with
  | nil => cases h
  | cons call calls ih =>
    rw [allowedTimes, List.mem_append] at h
    rcases h with h | h
    · split_ifs at h with hcall
      · rw [List.mem_singleton] at h
        rw [h, ← hcall.1]
        exact List.mem_cons_self
      · cases h
    · exact List.mem_cons_of_mem _ (ih h)

lemma Tracks.keys_subset {m : RelayDeliveryLimiterV2} {keys : List (List UInt8)}
    (h : m.Tracks fun key => l.allowedTimes key calls) (hfair : Fair keys calls) :
    m.entries.map (·.key) ⊆ keys := by
  intro key hkey
  obtain ⟨entry, hentry, rfl⟩ := List.mem_map.mp hkey
  obtain ⟨last, hlast, -⟩ := h.entry entry hentry
  exact (hfair _ (allowedTimes_subset (List.mem_of_getLast? hlast))).2.1

lemma run_positive (hl : l.Positive) (calls : List DeliveryCall) : (l.run calls).Positive := by
  rw [run_entries]
  exact ⟨hl.entries, hl.interval, hl.attempts⟩

lemma Tracks.room {keys : List (List UInt8)} (hkeys : keys.length ≤ l.maxEntries)
    (hfair : Fair keys calls) (h : (l.run calls).Tracks fun key => l.allowedTimes key calls)
    (hmem : key ∈ keys) (hnot : key ∉ (l.run calls).entries.map (·.key)) :
    (l.run calls).entries.length < (l.run calls).maxEntries := by
  -- the new key and those of the entries are distinct and all in the list
  have hnodup : (key :: (l.run calls).entries.map (·.key)).Nodup :=
    List.nodup_cons.mpr ⟨hnot, h.distinct⟩
  have hsubset : key :: (l.run calls).entries.map (·.key) ⊆ keys :=
    List.cons_subset.mpr ⟨hmem, h.keys_subset hfair⟩
  have hlength := (hnodup.subperm hsubset).length_le
  rw [List.length_cons, List.length_map] at hlength
  have hmax : (l.run calls).maxEntries = l.maxEntries := by rw [run_entries]
  omega

lemma tracks_run {keys : List (List UInt8)} (hl : l.Positive) (hempty : l.entries = [])
    (hkeys : keys.length ≤ l.maxEntries) (hfair : Fair keys calls) :
    (l.run calls).Tracks fun key => l.allowedTimes key calls := by
  induction calls using List.reverseRecOn with
  | nil =>
    refine ⟨?_, ?_, fun key h => absurd rfl h, fun key => paced_nil⟩
    · rw [run, List.foldl_nil, hempty]
      exact List.nodup_nil
    · intro entry hentry
      rw [run, List.foldl_nil, hempty] at hentry
      cases hentry
  | append_singleton calls call ih =>
    have hbefore : Fair keys calls := fun c hc => hfair c (List.mem_append_left _ hc)
    obtain ⟨hkey, hmem, hnow⟩ := hfair call (by simp)
    have htracks := ih hbefore
    have hstep := htracks.allow (run_positive hl calls) hkey hnow (htracks.room hkeys hbefore hmem)
    rw [run_concat]
    simp only [allowedTimes_concat]
    exact hstep

lemma run_allow_iff {keys : List (List UInt8)} (hl : l.Positive) (hempty : l.entries = [])
    (hkeys : keys.length ≤ l.maxEntries) (hfair : Fair keys calls) (hkey : key ≠ [])
    (hmem : key ∈ keys) {now : UInt64} (hnow : now ≠ uint64Max) :
    ((l.run calls).allow key now).1 = true ↔
      ∀ last, (l.allowedTimes key calls).getLast? = some last →
        last.toNat + l.delayAfter (l.allowedTimes key calls).length ≤ now.toNat := by
  have htracks := tracks_run hl hempty hkeys hfair
  have hiff := htracks.allow_iff (run_positive hl calls) hkey hnow (htracks.room hkeys hfair hmem)
  rw [hiff, run_delayAfter]

lemma allowedTimes_filter {keys : List (List UInt8)} (hl : l.Positive) (hempty : l.entries = [])
    (hkeys : keys.length ≤ l.maxEntries) (hfair : Fair keys calls) :
    l.allowedTimes key (calls.filter (·.1 = key)) = l.allowedTimes key calls := by
  induction calls using List.reverseRecOn with
  | nil => rfl
  | append_singleton calls call ih =>
    have hbefore : Fair keys calls := fun c hc => hfair c (List.mem_append_left _ hc)
    have hfiltered : Fair keys (calls.filter (·.1 = key)) :=
      fun c hc => hbefore c (List.mem_of_mem_filter hc)
    obtain ⟨hkey, hmem, hnow⟩ := hfair call (by simp)
    rw [List.filter_append, allowedTimes_concat]
    by_cases heq : call.1 = key
    · have hanswer : ((l.run (calls.filter (·.1 = key))).allow call.1 call.2).1 =
          ((l.run calls).allow call.1 call.2).1 := by
        rw [Bool.eq_iff_iff, run_allow_iff hl hempty hkeys hfiltered hkey hmem hnow,
          run_allow_iff hl hempty hkeys hbefore hkey hmem hnow, heq, ih hbefore]
      rw [List.filter_cons_of_pos (by simpa using heq), List.filter_nil, allowedTimes_concat,
        ih hbefore, hanswer]
    · rw [List.filter_cons_of_neg (by simpa using heq), List.filter_nil, List.append_nil,
        ih hbefore, if_neg (fun h => heq h.1), List.append_nil]

/-- **Deliveries are rate limited.**  With at most as many keys as entries, two deliveries for one
key are at least an interval apart, and among each full counter and one there is a long gap.  A call
is refused only because of an earlier delivery for the same key, and the calls for other keys could
as well not have been made.  No call is made at the largest time, from which every sum would
saturate; elsewhere a sum or a product that saturates does no harm. -/
theorem delivery_is_rate_limited (l : RelayDeliveryLimiterV2) (hl : l.Positive)
    (hempty : l.entries = []) (calls : List DeliveryCall) (hnonempty : ∀ call ∈ calls, call.1 ≠ [])
    (hkeys : (calls.map (·.1)).dedup.length ≤ l.maxEntries)
    (htimes : ∀ call ∈ calls, call.2 ≠ uint64Max) :
    (l.run calls).entries.length ≤ l.maxEntries ∧ ∀ key,
      (∀ (i j : ℕ) a b, i < j → (l.allowedTimes key calls)[i]? = some a →
        (l.allowedTimes key calls)[j]? = some b → a.toNat + l.intervalMs.toNat ≤ b.toNat) ∧
      (∀ i : ℕ, i + l.maxAttempts.toNat < (l.allowedTimes key calls).length →
        ∃ j a b, i ≤ j ∧ j < i + l.maxAttempts.toNat ∧ (l.allowedTimes key calls)[j]? = some a ∧
          (l.allowedTimes key calls)[j + 1]? = some b ∧
          a.toNat + l.intervalMs.toNat * l.maxAttempts.toNat ≤ b.toNat) ∧
      (∀ before now after, calls = before ++ (key, now) :: after →
        ((l.run before).allow key now).1 = false →
        ∃ last, (l.allowedTimes key before).getLast? = some last ∧
          (now.toNat < last.toNat + l.intervalMs.toNat ∨
            l.maxAttempts.toNat ∣ (l.allowedTimes key before).length ∧
              now.toNat < last.toNat + l.intervalMs.toNat * l.maxAttempts.toNat)) ∧
      l.allowedTimes key (calls.filter (·.1 = key)) = l.allowedTimes key calls := by
  have hfair : Fair (calls.map (·.1)).dedup calls := fun call hcall =>
    ⟨hnonempty call hcall, List.mem_dedup.mpr (List.mem_map_of_mem hcall), htimes call hcall⟩
  have htracks := tracks_run hl hempty hkeys hfair
  have hpaced : ∀ key, Paced l.delayAfter ((l.allowedTimes key calls).map (·.toNat)) :=
    run_delayAfter l calls ▸ htracks.paced
  refine ⟨?_, fun key => ⟨?_, ?_, ?_, allowedTimes_filter hl hempty hkeys hfair⟩⟩
  · have hlength := (htracks.distinct.subperm (htracks.keys_subset hfair)).length_le
    rw [List.length_map] at hlength
    omega
  · intro i j a b hij ha hb
    refine (hpaced key).add_short_le (interval_le_delayAfter hl) hij ?_ ?_
    · rw [List.getElem?_map, ha, Option.map_some]
    · rw [List.getElem?_map, hb, Option.map_some]
  · intro i hi
    have hlong : ∀ n, l.maxAttempts.toNat ∣ n →
        l.intervalMs.toNat * l.maxAttempts.toNat ≤ l.delayAfter n := fun n hn => by
      rw [delayAfter, if_pos hn]
    obtain ⟨j, hle, hlt, hgap⟩ := (hpaced key).exists_long_gap hl.attempts hlong i
    have ha := List.getElem?_eq_getElem (show j < (l.allowedTimes key calls).length by omega)
    have hb := List.getElem?_eq_getElem (show j + 1 < (l.allowedTimes key calls).length by omega)
    refine ⟨j, _, _, hle, hlt, ha, hb, hgap _ _ ?_ ?_⟩
    · rw [List.getElem?_map, ha, Option.map_some]
    · rw [List.getElem?_map, hb, Option.map_some]
  · intro before now after hcalls hrefused
    subst hcalls
    have hbefore : Fair ((before ++ (key, now) :: after).map (·.1)).dedup before :=
      fun call hcall => hfair call (List.mem_append_left _ hcall)
    obtain ⟨hkey, hmem, hnow⟩ := hfair (key, now) (by simp)
    have hnot := (run_allow_iff hl hempty hkeys hbefore hkey hmem hnow).not.mp (by simp [hrefused])
    push Not at hnot
    obtain ⟨last, hlast, hlate⟩ := hnot
    refine ⟨last, hlast, ?_⟩
    rw [delayAfter] at hlate
    split_ifs at hlate with hdvd
    · exact .inr ⟨hdvd, hlate⟩
    · exact .inl hlate

theorem delivery_is_rate_limited_sample :
    let l : RelayDeliveryLimiterV2 := ⟨2, 10, 2, []⟩
    let calls : List DeliveryCall := [([1], 0), ([2], 5), ([1], 9), ([1], 10), ([1], 29), ([1], 30)]
    l.allowedTimes [1] calls = [0, 10, 30] ∧ (l.run calls).entries.length ≤ 2 := by
  intro l calls
  refine ⟨by decide +kernel, ?_⟩
  exact (delivery_is_rate_limited l ⟨by decide, by decide, by decide⟩ rfl calls (by decide)
    (by decide) (by decide)).1

end RelayDeliveryLimiterV2

end Qwertycoin
