import Qwertycoin.Lib.Keyed
import Qwertycoin.RelayLimiter

/-
# The retries of a verifier

A verifier makes a receipt for a slot in one flight: while an attempt is running no other one
starts, a failed one is tried again after a delay that doubles, and once an envelope is submitted it
is the same bytes that are sent again, until the receipt is canonical or the context changes.
-/

namespace Qwertycoin

open Pacing RelayDeliveryLimiterV2

/-! ## The tracker -/

/-- The arguments of the constructor of `receipt_retry_tracker_v2`. -/
structure RetryParametersV2 where
  maxEntries : ℕ
  baseBackoffMs : UInt64
  maxBackoffMs : UInt64
  resubmitMs : UInt64
  maxTransportAttempts : UInt32

/-- `receipt_retry_tracker_v2::entry` -/
structure RetryEntryV2 where
  slot : Hash
  nextAttemptMs : UInt64
  failures : UInt32
  inFlight : Bool
  envelope : List UInt8
  transportAttempts : UInt32
  transportWindowAttempts : UInt32
deriving DecidableEq

/-- `receipt_retry_tracker_v2`, with epoch, round and anchor once a context is set. -/
structure ReceiptRetryTrackerV2 where
  context : Option (UInt64 × UInt64 × Hash) := none
  entries : List RetryEntryV2 := []
deriving DecidableEq

/-- A counter that stops at its largest value. -/
def saturatingSucc (counter : UInt32) : UInt32 :=
  if counter ≠ 0xFFFFFFFF then counter + 1 else counter

namespace RetryParametersV2

/-- The checks of `begin_context` on the parameters. -/
def valid (p : RetryParametersV2) : Bool :=
  !(p.maxEntries == 0 || p.baseBackoffMs == 0 || p.maxBackoffMs < p.baseBackoffMs ||
    p.resubmitMs == 0 || p.maxTransportAttempts == 0)

/-- The loop of `failed`, with the number of passes that are left. -/
def backoff (p : RetryParametersV2) : ℕ → UInt64 → UInt64
  | 0, delay => delay
  | passes + 1, delay =>
    if delay < p.maxBackoffMs then
      p.backoff passes
        (min p.maxBackoffMs (if p.maxBackoffMs / 2 < delay then p.maxBackoffMs else delay * 2))
    else delay

/-- The entry after a failed attempt. -/
def fail (p : RetryParametersV2) (now : UInt64) (found : RetryEntryV2) : RetryEntryV2 :=
  let failures := saturatingSucc found.failures
  { found with
    inFlight := false
    failures
    nextAttemptMs := saturatingAdd now (p.backoff (failures.toNat - 1) p.baseBackoffMs) }

/-- The time of the next delivery, and the counter of deliveries started again when it is full. -/
def schedule (p : RetryParametersV2) (now : UInt64) (found : RetryEntryV2) : RetryEntryV2 :=
  let full := p.maxTransportAttempts ≤ found.transportWindowAttempts
  { found with
    transportWindowAttempts := if full then 0 else found.transportWindowAttempts
    nextAttemptMs :=
      saturatingAdd now (if full then max p.resubmitMs p.maxBackoffMs else p.resubmitMs) }

/-- The entry after a submission. -/
def submit (p : RetryParametersV2) (now : UInt64) (envelope : List UInt8) (found : RetryEntryV2) :
    RetryEntryV2 :=
  p.schedule now
    (if envelope ≠ [] then
      { found with
        inFlight := false, envelope, transportAttempts := 1, transportWindowAttempts := 1 }
    else { found with inFlight := false })

/-- The entry after the envelope was sent again. -/
def resend (p : RetryParametersV2) (now : UInt64) (found : RetryEntryV2) : RetryEntryV2 :=
  p.schedule now { found with
    transportAttempts := saturatingSucc found.transportAttempts
    transportWindowAttempts := saturatingSucc found.transportWindowAttempts }

end RetryParametersV2

namespace ReceiptRetryTrackerV2

/-- The first entry of a slot. -/
def slotEntry (t : ReceiptRetryTrackerV2) (slot : Hash) : Option RetryEntryV2 :=
  t.entries.find? fun entry => entry.slot = slot

/-- The tracker with the first entry of a slot changed. -/
def modify (t : ReceiptRetryTrackerV2) (slot : Hash) (f : RetryEntryV2 → RetryEntryV2) :
    ReceiptRetryTrackerV2 :=
  { t with entries := t.entries.replaceF fun entry =>
      if entry.slot = slot then some (f entry) else none }

/-- `begin_context` -/
def beginContext (p : RetryParametersV2) (t : ReceiptRetryTrackerV2) (epoch round : UInt64)
    (anchorHash : Hash) : Bool × ReceiptRetryTrackerV2 :=
  if !p.valid || anchorHash == nullHash then (false, t)
  else if t.context ≠ some (epoch, round, anchorHash) then
    (true, ⟨some (epoch, round, anchorHash), []⟩)
  else (true, t)

/-- `can_attempt` -/
def canAttempt (t : ReceiptRetryTrackerV2) (slot : Hash) (now : UInt64) : Bool :=
  if t.context.isNone || slot == nullHash then false
  else
    match t.slotEntry slot with
    | none => true
    | some found => !found.inFlight && found.envelope.isEmpty && found.nextAttemptMs ≤ now

/-- `start` -/
def start (p : RetryParametersV2) (t : ReceiptRetryTrackerV2) (slot : Hash) (now : UInt64) :
    Bool × ReceiptRetryTrackerV2 :=
  if !t.canAttempt slot now then (false, t)
  else if (t.slotEntry slot).isNone then
    if p.maxEntries ≤ t.entries.length then (false, t)
    else (true, { t with entries := t.entries ++ [⟨slot, now, 0, true, [], 0, 0⟩] })
  else (true, t.modify slot fun found => { found with inFlight := true })

/-- `failed` -/
def failed (p : RetryParametersV2) (t : ReceiptRetryTrackerV2) (slot : Hash) (now : UInt64) :
    ReceiptRetryTrackerV2 :=
  t.modify slot (p.fail now)

/-- `submitted` -/
def submitted (p : RetryParametersV2) (t : ReceiptRetryTrackerV2) (slot : Hash) (now : UInt64)
    (envelope : List UInt8) : ReceiptRetryTrackerV2 :=
  t.modify slot (p.submit now envelope)

/-- `transport_retry`, with the envelope when the answer is yes. -/
def transportRetry (p : RetryParametersV2) (t : ReceiptRetryTrackerV2) (slot : Hash)
    (now : UInt64) : Option (List UInt8) × ReceiptRetryTrackerV2 :=
  match t.slotEntry slot with
  | none => (none, t)
  | some found =>
    if found.inFlight || found.envelope.isEmpty || now < found.nextAttemptMs then (none, t)
    else (some found.envelope, t.modify slot (p.resend now))

/-- `canonical` -/
def canonical (t : ReceiptRetryTrackerV2) (slot : Hash) : ReceiptRetryTrackerV2 :=
  { t with entries := t.entries.filter fun entry => entry.slot ≠ slot }

end ReceiptRetryTrackerV2

/-! ## Delays as numbers -/

namespace RetryParametersV2

variable {p : RetryParametersV2}

/-- The parameters as numbers. -/
structure Valid (p : RetryParametersV2) : Prop where
  entries : 0 < p.maxEntries
  base : 0 < p.baseBackoffMs.toNat
  backoff : p.baseBackoffMs.toNat ≤ p.maxBackoffMs.toNat
  resubmit : 0 < p.resubmitMs.toNat
  attempts : 0 < p.maxTransportAttempts.toNat

lemma valid_iff : p.valid = true ↔ p.Valid := by
  have hzero (x : UInt64) : x = 0 ↔ x.toNat = 0 := by
    rw [← UInt64.toNat_inj, UInt64.toNat_zero]
  have hzero32 (x : UInt32) : x = 0 ↔ x.toNat = 0 := by
    rw [← UInt32.toNat_inj, UInt32.toNat_zero]
  simp only [valid, Bool.not_eq_true', Bool.or_eq_false_iff, beq_eq_false_iff_ne, ne_eq, hzero,
    hzero32, decide_eq_false_iff_not, UInt64.lt_iff_toNat_lt]
  constructor
  · rintro ⟨⟨⟨⟨h₁, h₂⟩, h₃⟩, h₄⟩, h₅⟩
    exact ⟨by omega, by omega, by omega, by omega, by omega⟩
  · rintro ⟨h₁, h₂, h₃, h₄, h₅⟩
    exact ⟨⟨⟨⟨by omega, by omega⟩, by omega⟩, by omega⟩, by omega⟩

lemma toNat_saturatingSucc (counter : UInt32) :
    (saturatingSucc counter).toNat = min (counter.toNat + 1) (2 ^ 32 - 1) := by
  have hlt := counter.toNat_lt
  rw [saturatingSucc]
  split_ifs with h
  · have hne : counter.toNat ≠ 2 ^ 32 - 1 := fun heq => h (UInt32.toNat_inj.mp heq)
    rw [UInt32.toNat_add, UInt32.toNat_one, Nat.mod_eq_of_lt (by omega)]
    omega
  · rw [ne_eq, not_not] at h
    rw [h]
    rfl

lemma toNat_min (a b : UInt64) : (min a b).toNat = min a.toNat b.toNat := by
  show (if a ≤ b then a else b).toNat = _
  split_ifs with h
  all_goals
    rw [UInt64.le_iff_toNat_le] at h
    omega

lemma toNat_max (a b : UInt64) : (max a b).toNat = max a.toNat b.toNat := by
  show (if a ≤ b then b else a).toNat = _
  split_ifs with h
  all_goals
    rw [UInt64.le_iff_toNat_le] at h
    omega

/-- One pass of the loop doubles the delay up to the largest one. -/
lemma toNat_pass {largest delay : UInt64} :
    (min largest (if largest / 2 < delay then largest else delay * 2)).toNat =
      min largest.toNat (delay.toNat * 2) := by
  have hhalf : largest / 2 < delay ↔ largest.toNat / 2 < delay.toNat := by
    rw [UInt64.lt_iff_toNat_lt, UInt64.toNat_div]
    rfl
  have hlt := largest.toNat_lt
  rw [toNat_min]
  by_cases h : largest / 2 < delay
  · rw [if_pos h]
    rw [hhalf] at h
    omega
  · rw [if_neg h]
    rw [hhalf] at h
    have hdouble : (delay * 2).toNat = delay.toNat * 2 := by
      rw [UInt64.toNat_mul]
      exact Nat.mod_eq_of_lt (by show delay.toNat * 2 < 2 ^ 64; omega)
    rw [hdouble]

lemma toNat_backoff (passes : ℕ) {delay : UInt64} (h : delay.toNat ≤ p.maxBackoffMs.toNat) :
    (p.backoff passes delay).toNat = min p.maxBackoffMs.toNat (delay.toNat * 2 ^ passes) := by
  induction passes generalizing delay with
  | zero =>
    rw [backoff, pow_zero, Nat.mul_one]
    omega
  | succ passes ih =>
    rw [backoff]
    have hpow : 1 ≤ 2 ^ passes := Nat.one_le_two_pow
    by_cases hlt : delay < p.maxBackoffMs
    · rw [if_pos hlt, ih (by rw [toNat_pass]; omega), toNat_pass, pow_succ']
      rcases Nat.le_total (delay.toNat * 2) p.maxBackoffMs.toNat with hle | hle
      · rw [Nat.min_eq_right hle, Nat.mul_assoc]
      · -- both products are past the largest delay
        rw [Nat.min_eq_left hle, ← Nat.mul_assoc, Nat.min_eq_left (Nat.le_mul_of_pos_right _ hpow),
          Nat.min_eq_left (hle.trans (Nat.le_mul_of_pos_right _ hpow))]
    · have heq : delay.toNat = p.maxBackoffMs.toNat := by
        rw [UInt64.lt_iff_toNat_lt] at hlt
        omega
      rw [if_neg hlt, heq, Nat.min_eq_left (Nat.le_mul_of_pos_right _ Nat.one_le_two_pow)]

/-- Past the width of a word the number of failures makes no difference. -/
lemma min_mul_two_pow (hp : p.Valid) {passes : ℕ} (h : 64 ≤ passes) :
    min p.maxBackoffMs.toNat (p.baseBackoffMs.toNat * 2 ^ passes) = p.maxBackoffMs.toNat := by
  refine Nat.min_eq_left ?_
  calc p.maxBackoffMs.toNat ≤ 2 ^ 64 := p.maxBackoffMs.toNat_lt.le
    _ ≤ 2 ^ passes := Nat.pow_le_pow_right (by decide) h
    _ ≤ p.baseBackoffMs.toNat * 2 ^ passes := Nat.le_mul_of_pos_left _ hp.base

/-- The delay after some failures, although their counter saturates. -/
lemma toNat_backoff_failures (hp : p.Valid) (n : ℕ) :
    (p.backoff (min (n + 1) (2 ^ 32 - 1) - 1) p.baseBackoffMs).toNat =
      min p.maxBackoffMs.toNat (p.baseBackoffMs.toNat * 2 ^ n) := by
  generalize hpasses : min (n + 1) (2 ^ 32 - 1) - 1 = passes
  rw [toNat_backoff passes hp.backoff]
  rcases Nat.lt_or_ge n 64 with hn | hn
  · rw [show passes = n by omega]
  · rw [min_mul_two_pow hp hn, min_mul_two_pow hp (by omega)]

/-- The longer of the two delays between deliveries. -/
def longDelay (p : RetryParametersV2) : ℕ := max p.resubmitMs.toNat p.maxBackoffMs.toNat

/-- The delay after the `n`-th delivery. -/
def delayAfter (p : RetryParametersV2) (n : ℕ) : ℕ :=
  if p.maxTransportAttempts.toNat ∣ n then p.longDelay else p.resubmitMs.toNat

section Fields

variable {now : UInt64} {found : RetryEntryV2} {envelope : List UInt8}

@[simp] lemma fail_slot : (p.fail now found).slot = found.slot := by cases found; rfl

@[simp] lemma fail_inFlight : (p.fail now found).inFlight = false := by simp only [fail]

@[simp] lemma fail_failures :
    (p.fail now found).failures = saturatingSucc found.failures := by simp only [fail]

@[simp] lemma fail_envelope : (p.fail now found).envelope = found.envelope := by cases found; rfl

lemma fail_nextAttemptMs : (p.fail now found).nextAttemptMs = saturatingAdd now
    (p.backoff ((saturatingSucc found.failures).toNat - 1) p.baseBackoffMs) := by simp only [fail]

@[simp] lemma schedule_slot : (p.schedule now found).slot = found.slot := by cases found; rfl

@[simp] lemma schedule_inFlight : (p.schedule now found).inFlight = found.inFlight := by
  cases found; rfl

@[simp] lemma schedule_failures : (p.schedule now found).failures = found.failures := by
  cases found; rfl

@[simp] lemma schedule_envelope : (p.schedule now found).envelope = found.envelope := by
  cases found; rfl

lemma submit_nil : p.submit now [] found = p.schedule now { found with inFlight := false } := by
  rw [submit, if_neg (not_not.mpr rfl)]

lemma submit_of_ne (h : envelope ≠ []) : p.submit now envelope found = p.schedule now { found with
    inFlight := false, envelope, transportAttempts := 1, transportWindowAttempts := 1 } :=
  congrArg _ (if_pos h)

@[simp] lemma submit_slot : (p.submit now envelope found).slot = found.slot := by
  rw [submit, schedule_slot]
  cases found
  split_ifs <;> rfl

@[simp] lemma resend_slot : (p.resend now found).slot = found.slot := by
  rw [resend, schedule_slot]

end Fields

lemma toNat_schedule (hp : p.Valid) {k : ℕ} {found : RetryEntryV2}
    (h : found.transportWindowAttempts.toNat = k % p.maxTransportAttempts.toNat + 1)
    (now : UInt64) :
    (p.schedule now found).nextAttemptMs.toNat =
        min (now.toNat + p.delayAfter (k + 1)) (2 ^ 64 - 1) ∧
      (p.schedule now found).transportWindowAttempts.toNat =
        (k + 1) % p.maxTransportAttempts.toNat := by
  have hfull : p.maxTransportAttempts ≤ found.transportWindowAttempts ↔
      p.maxTransportAttempts.toNat ∣ k + 1 := by
    rw [UInt32.le_iff_toNat_le, h, le_mod_add_one_iff hp.attempts]
  have hmod := add_one_mod hp.attempts k
  rw [← h] at hmod
  simp only [schedule]
  by_cases hdvd : p.maxTransportAttempts.toNat ∣ k + 1
  · rw [if_pos (UInt32.le_iff_toNat_le.mp (hfull.mpr hdvd))] at hmod
    simp only [if_pos (hfull.mpr hdvd)]
    rw [toNat_saturatingAdd, toNat_max, delayAfter, if_pos hdvd, hmod]
    exact ⟨rfl, rfl⟩
  · rw [if_neg (UInt32.le_iff_toNat_le.not.mp (hfull.not.mpr hdvd))] at hmod
    simp only [if_neg (hfull.not.mpr hdvd)]
    rw [toNat_saturatingAdd, delayAfter, if_neg hdvd, hmod]
    exact ⟨rfl, rfl⟩

end RetryParametersV2

/-! ## Runs -/

/-- What was done for a slot since its entry was created. -/
structure SlotLog where
  inFlight : Bool := false
  failures : ℕ := 0
  envelope : List UInt8 := []
  deliveries : List UInt64 := []

namespace ReceiptRetryTrackerV2

open RetryParametersV2

/-- The trackers that the operations reach, and the logs of the slots.  An attempt is ended only if
it was started and neither the context nor the entry is gone. -/
inductive Runs (p : RetryParametersV2) : ReceiptRetryTrackerV2 → (Hash → SlotLog) → Prop
  | new : Runs p {} fun _ => {}
  | beginContext {t log} (h : Runs p t log) (epoch round : UInt64) (anchorHash : Hash) :
    Runs p (t.beginContext p epoch round anchorHash).2
      (if (t.beginContext p epoch round anchorHash).2.context ≠ t.context then fun _ => {} else log)
  | start {t log} (h : Runs p t log) (slot : Hash) (now : UInt64) :
    Runs p (t.start p slot now).2
      (if (t.start p slot now).1 then Function.update log slot { log slot with inFlight := true }
      else log)
  | failed {t log} (h : Runs p t log) (slot : Hash) (now : UInt64) (hflight : (log slot).inFlight) :
    Runs p (t.failed p slot now) (Function.update log slot
      { log slot with inFlight := false, failures := (log slot).failures + 1 })
  | submitted {t log} (h : Runs p t log) (slot : Hash) (now : UInt64) (envelope : List UInt8)
      (hflight : (log slot).inFlight) :
    Runs p (t.submitted p slot now envelope) (Function.update log slot
      (if envelope ≠ [] then
        { log slot with
          inFlight := false, envelope, deliveries := (log slot).deliveries ++ [now] }
      else { log slot with inFlight := false }))
  | transportRetry {t log} (h : Runs p t log) (slot : Hash) (now : UInt64) :
    Runs p (t.transportRetry p slot now).2
      (if (t.transportRetry p slot now).1.isSome then
        Function.update log slot { log slot with deliveries := (log slot).deliveries ++ [now] }
      else log)
  | canonical {t log} (h : Runs p t log) (slot : Hash) :
    Runs p (t.canonical slot) (Function.update log slot {})

/-! ## Entries -/

section Entries

variable {t : ReceiptRetryTrackerV2} {slot other : Hash} {f : RetryEntryV2 → RetryEntryV2}

lemma slotEntry_modify (hf : ∀ entry, (f entry).slot = entry.slot) :
    (t.modify slot f).slotEntry other =
      if other = slot then (t.slotEntry slot).map f else t.slotEntry other :=
  Keyed.find?_modify hf slot other t.entries

lemma slotEntry_canonical :
    (t.canonical slot).slotEntry other = if other = slot then none else t.slotEntry other := by
  simp only [slotEntry, canonical, List.find?_filter]
  split_ifs with h
  · rw [List.find?_eq_none]
    intro entry _
    simp [h]
  · congr 1
    funext entry
    by_cases hentry : entry.slot = other
    · simp [hentry, h]
    · simp [hentry]

lemma length_modify : (t.modify slot f).entries.length = t.entries.length :=
  List.length_replaceF

end Entries

/-! ## What the entries say -/

/-- An entry says what its log says. -/
structure Follows (p : RetryParametersV2) (found : RetryEntryV2) (log : SlotLog) : Prop where
  inFlight : found.inFlight = log.inFlight
  failures : found.failures.toNat = min log.failures (2 ^ 32 - 1)
  envelope : found.envelope = log.envelope
  single : log.inFlight → log.envelope = []
  unsent : log.envelope = [] ↔ log.deliveries = []
  sent : ∀ last, log.deliveries.getLast? = some last →
    found.nextAttemptMs.toNat =
        min (last.toNat + p.delayAfter log.deliveries.length) (2 ^ 64 - 1) ∧
      found.transportWindowAttempts.toNat = log.deliveries.length % p.maxTransportAttempts.toNat
  paced : (∀ time ∈ log.deliveries, time ≠ uint64Max) →
    Paced p.delayAfter (log.deliveries.map (·.toNat))

/-- A slot has an entry that follows its log, or no entry and nothing to log. -/
def Agrees (p : RetryParametersV2) (t : ReceiptRetryTrackerV2) (slot : Hash) (log : SlotLog) :
    Prop :=
  (t.slotEntry slot = none ∧ log = {}) ∨
    ∃ found, t.slotEntry slot = some found ∧ slot ≠ nullHash ∧ t.context.isSome ∧
      Follows p found log

variable {p : RetryParametersV2} {t : ReceiptRetryTrackerV2} {log : Hash → SlotLog} {slot : Hash}
  {found : RetryEntryV2} {l : SlotLog} {now : UInt64}

lemma follows_start : Follows p ⟨slot, now, 0, true, [], 0, 0⟩ { inFlight := true } where
  inFlight := rfl
  failures := rfl
  envelope := rfl
  single _ := rfl
  unsent := by simp
  sent last h := by cases h
  paced _ := paced_nil

lemma Follows.start (h : Follows p found l) (hempty : found.envelope = []) :
    Follows p { found with inFlight := true } { l with inFlight := true } where
  inFlight := rfl
  failures := h.failures
  envelope := h.envelope
  single _ := h.envelope ▸ hempty
  unsent := h.unsent
  sent := h.sent
  paced := h.paced

/-- Nothing has been sent while an attempt is running. -/
lemma Follows.absurd_sent (h : Follows p found l) (hflight : l.inFlight) {last : UInt64} {P : Prop}
    (hlast : l.deliveries.getLast? = some last) : P := by
  rw [h.unsent.mp (h.single hflight)] at hlast
  cases hlast

lemma Follows.fail (h : Follows p found l) (hflight : l.inFlight) :
    Follows p (p.fail now found) { l with inFlight := false, failures := l.failures + 1 } where
  inFlight := fail_inFlight
  failures := by
    rw [fail_failures, toNat_saturatingSucc, h.failures]
    show min (min l.failures (2 ^ 32 - 1) + 1) _ = min (l.failures + 1) _
    omega
  envelope := fail_envelope.trans h.envelope
  single hfalse := by cases hfalse
  unsent := h.unsent
  sent last hlast := h.absurd_sent hflight hlast
  paced := h.paced

lemma Follows.submit_nil (h : Follows p found l) (hflight : l.inFlight) :
    Follows p (p.submit now [] found) { l with inFlight := false } := by
  rw [RetryParametersV2.submit_nil]
  exact {
    inFlight := schedule_inFlight
    failures := by rw [schedule_failures, h.failures]
    envelope := schedule_envelope.trans h.envelope
    single := fun hfalse => by cases hfalse
    unsent := h.unsent
    sent := fun last hlast => h.absurd_sent hflight hlast
    paced := h.paced }

/-- The submission is the first delivery. -/
lemma Follows.submit (hp : p.Valid) (h : Follows p found l) (hflight : l.inFlight)
    {envelope : List UInt8} (henvelope : envelope ≠ []) :
    Follows p (p.submit now envelope found)
      { l with inFlight := false, envelope, deliveries := l.deliveries ++ [now] } := by
  have hempty : l.deliveries = [] := h.unsent.mp (h.single hflight)
  rw [submit_of_ne henvelope, hempty]
  exact {
    inFlight := schedule_inFlight
    failures := by rw [schedule_failures, h.failures]
    envelope := schedule_envelope
    single := fun hfalse => by cases hfalse
    unsent := iff_of_false henvelope (by simp)
    sent := fun last hlast => by
      obtain rfl := Option.some.inj hlast
      exact toNat_schedule hp (by rw [List.length_nil, Nat.zero_mod]; rfl) now
    paced := fun _ => by
      refine paced_nil.concat fun last hlast => ?_
      cases hlast }

lemma Follows.resend (hp : p.Valid) (h : Follows p found l) (hfull : found.envelope ≠ [])
    (hnow : found.nextAttemptMs ≤ now) :
    Follows p (p.resend now found) { l with deliveries := l.deliveries ++ [now] } := by
  have hsent : l.deliveries ≠ [] := h.unsent.not.mp (h.envelope ▸ hfull)
  obtain ⟨last, hlast⟩ : ∃ last, l.deliveries.getLast? = some last :=
    ⟨_, List.getLast?_eq_some_getLast hsent⟩
  obtain ⟨hnext, hwindow⟩ := h.sent last hlast
  rw [UInt64.le_iff_toNat_le, hnext] at hnow
  rw [RetryParametersV2.resend]
  exact {
    inFlight := schedule_inFlight.trans h.inFlight
    failures := by rw [schedule_failures, h.failures]
    envelope := schedule_envelope.trans h.envelope
    single := h.single
    unsent := iff_of_false (h.envelope ▸ hfull) (by simp)
    sent := fun time htime => by
      rw [List.getLast?_concat] at htime
      obtain rfl := Option.some.inj htime
      have hlt := Nat.mod_lt l.deliveries.length hp.attempts
      have hmax := p.maxTransportAttempts.toNat_lt
      rw [List.length_append, List.length_singleton]
      refine toNat_schedule hp ?_ now
      show (saturatingSucc found.transportWindowAttempts).toNat = _
      rw [toNat_saturatingSucc, hwindow]
      omega
    paced := fun htimes => by
      rw [List.map_append, List.map_singleton]
      refine (h.paced fun time htime => htimes time (List.mem_append_left _ htime)).concat
        fun time htime => ?_
      rw [List.getLast?_map, hlast] at htime
      obtain rfl := Option.some.inj htime
      have hlt := toNat_lt_of_ne (htimes now (by simp))
      rw [List.length_map]
      show last.toNat + _ ≤ _
      omega }

/-! ## Runs keep what the entries say -/

lemma Agrees.of_entry (h : Agrees p t slot l) (hfound : t.slotEntry slot = some found) :
    slot ≠ nullHash ∧ t.context.isSome ∧ Follows p found l := by
  obtain ⟨hnone, -⟩ | ⟨found', hfound', hnull, hcontext, hfollows⟩ := h
  · rw [hfound] at hnone
    cases hnone
  · obtain rfl := Option.some.inj (hfound.symm.trans hfound')
    exact ⟨hnull, hcontext, hfollows⟩

lemma agrees_modify (h : ∀ slot, Agrees p t slot (log slot)) {f : RetryEntryV2 → RetryEntryV2}
    (hf : ∀ entry, (f entry).slot = entry.slot) (hfound : t.slotEntry slot = some found)
    (hfollows : Follows p (f found) l) (other : Hash) :
    Agrees p (t.modify slot f) other (Function.update log slot l other) := by
  unfold Agrees
  rw [slotEntry_modify hf]
  by_cases hother : other = slot
  · subst hother
    rw [if_pos rfl, Function.update_self, hfound]
    obtain ⟨hnull, hcontext, -⟩ := (h other).of_entry hfound
    exact .inr ⟨_, rfl, hnull, hcontext, hfollows⟩
  · rw [if_neg hother, Function.update_of_ne hother]
    exact h other

lemma Agrees.exists_entry (h : Agrees p t slot l) (hl : l ≠ {}) :
    ∃ found, t.slotEntry slot = some found ∧ slot ≠ nullHash ∧ t.context.isSome ∧
      Follows p found l :=
  h.resolve_left fun hnone => hl hnone.2

lemma ne_of_inFlight (hflight : l.inFlight) : l ≠ {} := by
  rintro rfl
  cases hflight

lemma canAttempt_eq_true_iff : t.canAttempt slot now = true ↔
    t.context.isSome ∧ slot ≠ nullHash ∧ ∀ found, t.slotEntry slot = some found →
      found.inFlight = false ∧ found.envelope = [] ∧ found.nextAttemptMs ≤ now := by
  unfold canAttempt
  by_cases hchecks : t.context.isNone || slot == nullHash
  · rw [if_pos hchecks]
    refine iff_of_false Bool.false_ne_true fun ⟨hcontext, hnull, _⟩ => ?_
    rw [Bool.or_eq_true, beq_iff_eq] at hchecks
    rcases hchecks with hnone | hslot
    · rw [Option.isNone_iff_eq_none] at hnone
      rw [hnone] at hcontext
      cases hcontext
    · exact hnull hslot
  · rw [if_neg hchecks]
    rw [Bool.or_eq_true, beq_iff_eq, not_or, Option.isNone_iff_eq_none, ← ne_eq,
      Option.ne_none_iff_isSome] at hchecks
    cases hentry : t.slotEntry slot with
    | none => exact iff_of_true rfl ⟨hchecks.1, hchecks.2, fun _ h => by cases h⟩
    | some found =>
      simp only [Bool.and_eq_true, Bool.not_eq_true', List.isEmpty_iff, decide_eq_true_eq,
        Option.some.injEq, forall_eq', hchecks.1, hchecks.2, ne_eq, not_false_iff, true_and,
        and_assoc]

lemma start_cases (p : RetryParametersV2) (t : ReceiptRetryTrackerV2) (slot : Hash)
    (now : UInt64) :
    t.start p slot now = (false, t) ∨ t.canAttempt slot now = true ∧
      ((t.slotEntry slot = none ∧ t.entries.length < p.maxEntries ∧ t.start p slot now =
        (true, { t with entries := t.entries ++ [⟨slot, now, 0, true, [], 0, 0⟩] })) ∨
      ∃ found, t.slotEntry slot = some found ∧ t.start p slot now =
        (true, t.modify slot fun found => { found with inFlight := true })) := by
  by_cases hcan : t.canAttempt slot now = true
  · have hcan' : ¬(!t.canAttempt slot now) = true := by rw [hcan]; exact Bool.false_ne_true
    rw [start, if_neg hcan']
    cases hentry : t.slotEntry slot with
    | none =>
      rw [Option.isNone_none, if_pos rfl]
      split_ifs with hsize
      · exact .inl rfl
      · exact .inr ⟨hcan, .inl ⟨rfl, Nat.not_le.mp hsize, rfl⟩⟩
    | some found =>
      rw [Option.isNone_some, if_neg Bool.false_ne_true]
      exact .inr ⟨hcan, .inr ⟨found, rfl, rfl⟩⟩
  · rw [start, if_pos (by rw [Bool.not_eq_true] at hcan; rw [hcan]; rfl)]
    exact .inl rfl

lemma transportRetry_cases (p : RetryParametersV2) (t : ReceiptRetryTrackerV2) (slot : Hash)
    (now : UInt64) :
    t.transportRetry p slot now = (none, t) ∨ ∃ found, t.slotEntry slot = some found ∧
      found.envelope ≠ [] ∧ found.nextAttemptMs ≤ now ∧
      t.transportRetry p slot now = (some found.envelope, t.modify slot (p.resend now)) := by
  unfold transportRetry
  cases hentry : t.slotEntry slot with
  | none => exact .inl rfl
  | some found =>
    by_cases hchecks : found.inFlight || found.envelope.isEmpty || now < found.nextAttemptMs
    · exact .inl (if_pos hchecks)
    · refine .inr ⟨found, rfl, ?_, ?_, if_neg hchecks⟩
      all_goals simp only [Bool.or_eq_true, not_or, decide_eq_true_eq, UInt64.not_lt,
        List.isEmpty_iff] at hchecks
      · exact hchecks.1.2
      · exact hchecks.2

lemma agrees_push (h : ∀ slot, Agrees p t slot (log slot)) (hcan : t.canAttempt slot now = true)
    (hnone : t.slotEntry slot = none) (other : Hash) :
    Agrees p { t with entries := t.entries ++ [⟨slot, now, 0, true, [], 0, 0⟩] } other
      (Function.update log slot { log slot with inFlight := true } other) := by
  obtain ⟨hcontext, hnull, -⟩ := canAttempt_eq_true_iff.mp hcan
  have hlog : log slot = {} := by
    obtain ⟨-, hlog⟩ | ⟨found, hfound, -⟩ := h slot
    · exact hlog
    · rw [hnone] at hfound
      cases hfound
  by_cases hother : other = slot
  · subst hother
    rw [Function.update_self, hlog]
    refine .inr ⟨⟨other, now, 0, true, [], 0, 0⟩, ?_, hnull, hcontext, follows_start⟩
    rw [slotEntry] at hnone
    rw [slotEntry, List.find?_append, hnone, Option.none_or, List.find?_cons_of_pos (by simp)]
  · rw [Function.update_of_ne hother]
    have hentry : slotEntry { t with
        entries := t.entries ++ [⟨slot, now, 0, true, [], 0, 0⟩] } other = t.slotEntry other := by
      rw [slotEntry, List.find?_append, List.find?_cons_of_neg (by simp [Ne.symm hother]),
        List.find?_nil, Option.or_none]
      rfl
    rw [Agrees, hentry]
    exact h other

/-- A context that is kept keeps the tracker, another one empties it. -/
lemma beginContext_cases (p : RetryParametersV2) (t : ReceiptRetryTrackerV2) (epoch round : UInt64)
    (anchorHash : Hash) :
    (t.beginContext p epoch round anchorHash).2 = t ∨
      (t.beginContext p epoch round anchorHash).2 = ⟨some (epoch, round, anchorHash), []⟩ ∧
        t.context ≠ some (epoch, round, anchorHash) := by
  unfold beginContext
  split_ifs with hchecks hcontext
  · exact .inl rfl
  · exact .inr ⟨rfl, hcontext⟩
  · exact .inl rfl

lemma Runs.agrees (hp : p.Valid) (h : Runs p t log) :
    t.entries.length ≤ p.maxEntries ∧ ∀ slot, Agrees p t slot (log slot) := by
  induction h with
  | new => exact ⟨Nat.zero_le _, fun slot => .inl ⟨rfl, rfl⟩⟩
  | @beginContext t log _ epoch round anchorHash ih =>
    obtain heq | ⟨heq, hne⟩ := beginContext_cases p t epoch round anchorHash
    · rw [heq, if_neg (not_not.mpr rfl)]
      exact ih
    · rw [heq, if_pos hne.symm]
      exact ⟨Nat.zero_le _, fun slot => .inl ⟨rfl, rfl⟩⟩
  | @start t log _ slot now ih =>
    obtain ⟨hsize, hagrees⟩ := ih
    obtain heq | ⟨hcan, ⟨hnone, hroom, heq⟩ | ⟨found, hfound, heq⟩⟩ := start_cases p t slot now
    · rw [heq, if_neg Bool.false_ne_true]
      exact ⟨hsize, hagrees⟩
    · rw [heq, if_pos rfl]
      refine ⟨?_, agrees_push hagrees hcan hnone⟩
      rw [List.length_append, List.length_singleton]
      exact hroom
    · rw [heq, if_pos rfl]
      have hempty := ((canAttempt_eq_true_iff.mp hcan).2.2 found hfound).2.1
      obtain ⟨-, -, hfollows⟩ := (hagrees slot).of_entry hfound
      exact ⟨length_modify.trans_le hsize, agrees_modify hagrees (fun _ => rfl) hfound
        (hfollows.start hempty)⟩
  | @failed t log _ slot now hflight ih =>
    obtain ⟨found, hfound, -, -, hfollows⟩ := (ih.2 slot).exists_entry (ne_of_inFlight hflight)
    exact ⟨length_modify.trans_le ih.1,
      agrees_modify ih.2 (fun _ => fail_slot) hfound (hfollows.fail hflight)⟩
  | @submitted t log _ slot now envelope hflight ih =>
    obtain ⟨found, hfound, -, -, hfollows⟩ := (ih.2 slot).exists_entry (ne_of_inFlight hflight)
    refine ⟨length_modify.trans_le ih.1, agrees_modify ih.2 (fun _ => submit_slot) hfound ?_⟩
    by_cases henvelope : envelope = []
    · rw [if_neg (not_not.mpr henvelope), henvelope]
      exact hfollows.submit_nil hflight
    · rw [if_pos henvelope]
      exact hfollows.submit hp hflight henvelope
  | @transportRetry t log _ slot now ih =>
    obtain heq | ⟨found, hfound, hfull, hnow, heq⟩ := transportRetry_cases p t slot now
    · rw [heq, if_neg (by simp)]
      exact ih
    · rw [heq, Option.isSome_some, if_pos rfl]
      obtain ⟨-, -, hfollows⟩ := (ih.2 slot).of_entry hfound
      exact ⟨length_modify.trans_le ih.1, agrees_modify ih.2 (fun _ => resend_slot) hfound
        (hfollows.resend hp hfull hnow)⟩
  | @canonical t log _ slot ih =>
    refine ⟨(List.length_filter_le _ _).trans ih.1, fun other => ?_⟩
    rw [Agrees, slotEntry_canonical]
    by_cases hother : other = slot
    · rw [if_pos hother, hother, Function.update_self]
      exact .inl ⟨rfl, rfl⟩
    · rw [if_neg hother, Function.update_of_ne hother]
      exact ih.2 other

lemma Agrees.start_eq_false (h : Agrees p t slot l) (hbusy : l.inFlight ∨ l.envelope ≠ []) :
    (t.start p slot now).1 = false := by
  have hl : l ≠ {} := by
    rintro rfl
    rcases hbusy with hflight | hfull
    · cases hflight
    · exact hfull rfl
  obtain ⟨found, hfound, -, -, hfollows⟩ := h.exists_entry hl
  have hcan : ¬t.canAttempt slot now = true := by
    intro hcan
    obtain ⟨hflight, hempty, -⟩ := (canAttempt_eq_true_iff.mp hcan).2.2 found hfound
    rcases hbusy with hbusy | hbusy
    · rw [← hfollows.inFlight, hflight] at hbusy
      cases hbusy
    · exact hbusy (hfollows.envelope ▸ hempty)
  obtain heq | ⟨htrue, -⟩ := start_cases p t slot now
  · rw [heq]
  · exact absurd htrue hcan

/-- When an attempt that failed may be made again. -/
lemma Agrees.canAttempt_failed (hp : p.Valid) (h : Agrees p t slot l) (hflight : l.inFlight)
    (time now : UInt64) : (t.failed p slot time).canAttempt slot now = true ↔
      min (2 ^ 64 - 1) (time.toNat +
        min p.maxBackoffMs.toNat (p.baseBackoffMs.toNat * 2 ^ l.failures)) ≤ now.toNat := by
  obtain ⟨found, hfound, hnull, hcontext, hfollows⟩ := h.exists_entry (ne_of_inFlight hflight)
  have hentry : (t.failed p slot time).slotEntry slot = some (p.fail time found) := by
    rw [failed, slotEntry_modify fun _ => fail_slot, if_pos rfl, hfound, Option.map_some]
  have hempty : found.envelope = [] := hfollows.envelope.trans (hfollows.single hflight)
  have hnext : (p.fail time found).nextAttemptMs.toNat = min (2 ^ 64 - 1) (time.toNat +
      min p.maxBackoffMs.toNat (p.baseBackoffMs.toNat * 2 ^ l.failures)) := by
    have hcount : min (min l.failures (2 ^ 32 - 1) + 1) (2 ^ 32 - 1) =
        min (l.failures + 1) (2 ^ 32 - 1) := by omega
    rw [fail_nextAttemptMs, toNat_saturatingAdd, toNat_saturatingSucc, hfollows.failures, hcount,
      toNat_backoff_failures hp, Nat.min_comm]
  rw [canAttempt_eq_true_iff, hentry, ← hnext, ← UInt64.le_iff_toNat_le]
  constructor
  · rintro ⟨-, -, hready⟩
    exact (hready _ rfl).2.2
  · intro hle
    refine ⟨hcontext, hnull, fun entry heq => ?_⟩
    obtain rfl := Option.some.inj heq
    exact ⟨fail_inFlight, fail_envelope.trans hempty, hle⟩

lemma Agrees.paced (h : Agrees p t slot l) (htimes : ∀ time ∈ l.deliveries, time ≠ uint64Max) :
    Paced p.delayAfter (l.deliveries.map (·.toNat)) := by
  obtain ⟨-, rfl⟩ | ⟨found, -, -, -, hfollows⟩ := h
  · exact paced_nil
  · exact hfollows.paced htimes

/-- **Retries are single flight, stable and backed off.**  Along every run the tracker is bounded, a
slot in flight or with an envelope is not started, the bytes sent again are those submitted, the
delay after a failure doubles up to the largest one, and among each full counter of deliveries one
is followed by a long gap. -/
theorem receipt_retries_are_paced (p : RetryParametersV2) (hp : p.valid = true)
    (t : ReceiptRetryTrackerV2) (log : Hash → SlotLog) (h : Runs p t log) :
    t.entries.length ≤ p.maxEntries ∧ ∀ slot,
      (∀ now, (log slot).inFlight ∨ (log slot).envelope ≠ [] → (t.start p slot now).1 = false) ∧
      (∀ now envelope, (t.transportRetry p slot now).1 = some envelope →
        envelope ≠ [] ∧ envelope = (log slot).envelope) ∧
      (∀ time now, (log slot).inFlight → ((t.failed p slot time).canAttempt slot now = true ↔
        min (2 ^ 64 - 1) (time.toNat +
          min p.maxBackoffMs.toNat (p.baseBackoffMs.toNat * 2 ^ (log slot).failures)) ≤
            now.toNat)) ∧
      ((∀ time ∈ (log slot).deliveries, time ≠ uint64Max) →
        ∀ i : ℕ, ∃ j, i ≤ j ∧ j < i + p.maxTransportAttempts.toNat ∧
          ∀ a b, (log slot).deliveries[j]? = some a → (log slot).deliveries[j + 1]? = some b →
            a.toNat + max p.resubmitMs.toNat p.maxBackoffMs.toNat ≤ b.toNat) := by
  rw [valid_iff] at hp
  obtain ⟨hsize, hagrees⟩ := h.agrees hp
  refine ⟨hsize, fun slot => ⟨fun now => (hagrees slot).start_eq_false, ?_,
    fun time now hflight => (hagrees slot).canAttempt_failed hp hflight time now, ?_⟩⟩
  · intro now envelope henvelope
    obtain heq | ⟨found, hfound, hfull, -, heq⟩ := transportRetry_cases p t slot now
    · rw [heq] at henvelope
      cases henvelope
    · rw [heq] at henvelope
      obtain rfl := Option.some.inj henvelope
      exact ⟨hfull, ((hagrees slot).of_entry hfound).2.2.envelope⟩
  · intro htimes i
    have hlong : ∀ n, p.maxTransportAttempts.toNat ∣ n → p.longDelay ≤ p.delayAfter n :=
      fun n hn => by rw [RetryParametersV2.delayAfter, if_pos hn]
    obtain ⟨j, hle, hlt, hgap⟩ :=
      ((hagrees slot).paced htimes).exists_long_gap hp.attempts hlong i
    refine ⟨j, hle, hlt, fun a b ha hb => hgap _ _ ?_ ?_⟩
    · rw [List.getElem?_map, ha, Option.map_some]
    · rw [List.getElem?_map, hb, Option.map_some]

theorem receipt_retries_are_paced_sample :
    let p : RetryParametersV2 := ⟨1, 10, 20, 5, 1⟩
    let slot := Crypto.sampleHash [1]
    let t := ((({} : ReceiptRetryTrackerV2).beginContext p 0 0 slot).2.start p slot 3).2
    p.valid = true ∧ (t.start p slot 4).1 = false ∧
      (t.failed p slot 7).canAttempt slot 16 = false ∧
      (t.failed p slot 7).canAttempt slot 17 = true := by
  intro p slot t
  have hvalid : p.valid = true := by decide
  obtain ⟨log, hruns, hflight⟩ : ∃ log, Runs p t log ∧ (log slot).inFlight :=
    ⟨_, (Runs.new.beginContext 0 0 slot).start slot 3, by decide +kernel⟩
  obtain ⟨-, hslots⟩ := receipt_retries_are_paced p hvalid t log hruns
  obtain ⟨hstart, -⟩ := hslots slot
  refine ⟨hvalid, hstart 4 (.inl hflight), by decide +kernel, by decide +kernel⟩

end ReceiptRetryTrackerV2

end Qwertycoin
