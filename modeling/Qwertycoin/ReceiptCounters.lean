import Qwertycoin.Crypto
import Qwertycoin.Lib.Keyed

/-
# The counters of receipt attempts

A verifier keeps counters of its attempts to collect receipts: for every round how many were
started and how they ended, and for every kind of failure how often it occurred.  Rounds are kept
for the newest epoch and the three before it.  Counts for older rounds go to a scratch entry that
nobody reads, by one test where a round is looked up and another where a failure is.

Over every run in which an attempt ends with the context it was started with, the counters of the
rounds that are kept are exact, although rounds and failures are dropped at different calls than
those that count.
-/

namespace Qwertycoin

/-! ## What is recorded -/

/-- `receipt_attempt_stage_v2` -/
inductive ReceiptAttemptStageV2
  | none | descriptorLookup | descriptorValidation | networkConnect | httpExchange
  | responseDecode | responseValidation | receiptEncoding | envelopeEncoding | localSubmission
  | canonicalInclusion
deriving DecidableEq

/-- `receipt_failure_reason_v2` -/
inductive ReceiptFailureReasonV2
  | none | descriptorUnavailable | descriptorInvalid | descriptorExpired
  | descriptorCommitmentMismatch | dnsResolutionFailed | connectionRefused | transportTimeout
  | transportFailure | httpStatusUnsuccessful | remoteChallengeRejected | responseMalformed
  | responseOversized | responseUnexpected | responseIdentityMismatch | responseObjectMismatch
  | responseContextMismatch | responseSignatureMismatch | receiptEncodingFailed
  | envelopeEncodingFailed | localSubmissionRejected | cancelled | deadlineExpired
  | internalExecutionFailure
deriving DecidableEq

/-- `receipt_attempt_outcome_v2` -/
inductive ReceiptAttemptOutcomeV2
  | success | failure | cancelled | expired
deriving DecidableEq

/-- `receipt_scheduler_skip_v2` -/
inductive ReceiptSchedulerSkipV2
  | notLocalMember | notCommitteeMember | alreadyCanonical | retryBackoff | noActiveRound
deriving DecidableEq

/-- `receipt_attempt_context_v2` -/
structure ReceiptAttemptContextV2 where
  attemptId : UInt64
  epoch : UInt64
  round : UInt64
  chainHeight : UInt64 := 0
  deadlineHeight : UInt64 := 0
  slot : Hash := nullHash
  subjectIdentity : PublicKey := nullPkey
  verifierIdentity : PublicKey := nullPkey
  endpointCommitment : Hash := nullHash
  startedUtcMs : UInt64 := 0
  startedSteadyMs : UInt64 := 0
deriving DecidableEq

/-- `receipt_attempt_terminal_v2` -/
structure ReceiptAttemptTerminalV2 where
  context : ReceiptAttemptContextV2
  outcome : ReceiptAttemptOutcomeV2 := .failure
  stage : ReceiptAttemptStageV2 := .none
  reason : ReceiptFailureReasonV2 := .none
  completedUtcMs : UInt64 := 0
  durationMs : UInt64 := 0
  retryScheduled : Bool := false
  nextRetryUtcMs : UInt64 := 0
  localSubmissionAccepted : Bool := false
  localSubmissionRelayed : Bool := false
  canonicalInclusionObserved : Bool := false
deriving DecidableEq

/-- `receipt_round_counters_v2` -/
structure ReceiptRoundCountersV2 where
  epoch : UInt64 := 0
  round : UInt64 := 0
  attemptsStarted : UInt64 := 0
  attemptsCompleted : UInt64 := 0
  attemptsSucceeded : UInt64 := 0
  attemptsFailed : UInt64 := 0
  attemptsCancelled : UInt64 := 0
  attemptsExpired : UInt64 := 0
  localSubmissionsAccepted : UInt64 := 0
  transportRetriesAttempted : UInt64 := 0
  transportRetriesRelayed : UInt64 := 0
  canonicalInclusionsObserved : UInt64 := 0
deriving DecidableEq

/-- `receipt_failure_counter_v2` -/
structure ReceiptFailureCounterV2 where
  epoch : UInt64 := 0
  round : UInt64 := 0
  stage : ReceiptAttemptStageV2 := .none
  reason : ReceiptFailureReasonV2 := .none
  count : UInt64 := 0
  suppressedLogCount : UInt64 := 0
deriving DecidableEq

/-- `receipt_skip_counter_v2` -/
structure ReceiptSkipCounterV2 where
  reason : ReceiptSchedulerSkipV2
  count : UInt64
deriving DecidableEq

/-- `receipt_diagnostics_v2::slot_state` -/
structure ReceiptSlotStateV2 where
  slot : Hash
  lastFailureStage : ReceiptAttemptStageV2 := .none
  lastFailureReason : ReceiptFailureReasonV2 := .none
  consecutiveFailures : UInt64 := 0
  lastWarningSteadyMs : UInt64 := 0
  suppressedSinceWarning : UInt64 := 0
deriving DecidableEq

/-- `receipt_diagnostic_effect_v2` -/
structure ReceiptDiagnosticEffectV2 where
  terminalRecorded : Bool := false
  emitRepeatedWarning : Bool := false
  suppressedSinceLastWarning : UInt64 := 0
  recoveredAfterFailures : UInt64 := 0
deriving DecidableEq

/-- The epoch and the round of a context. -/
def ReceiptAttemptContextV2.key (context : ReceiptAttemptContextV2) : UInt64 × UInt64 :=
  (context.epoch, context.round)

def ReceiptRoundCountersV2.key (entry : ReceiptRoundCountersV2) : UInt64 × UInt64 :=
  (entry.epoch, entry.round)

/-- What a failure counter is found by. -/
def ReceiptFailureCounterV2.kind (entry : ReceiptFailureCounterV2) :
    (UInt64 × UInt64) × ReceiptAttemptStageV2 × ReceiptFailureReasonV2 :=
  ((entry.epoch, entry.round), entry.stage, entry.reason)

/-- `receipt_diagnostics_v2` -/
structure ReceiptDiagnosticsV2 where
  maxRecentAttempts : ℕ
  maxSlotStates : ℕ
  repeatedWarningIntervalMs : UInt64
  resetUtcMs : UInt64
  nextAttemptId : UInt64 := 1
  inFlight : ℕ := 0
  rounds : List ReceiptRoundCountersV2 := []
  discardedRound : ReceiptRoundCountersV2 := {}
  failures : List ReceiptFailureCounterV2 := []
  discardedFailure : ReceiptFailureCounterV2 := {}
  skips : List ReceiptSkipCounterV2 := []
  recentAttempts : List ReceiptAttemptTerminalV2 := []
  activeAttemptIds : List UInt64 := []
  slots : List ReceiptSlotStateV2 := []
  canonicalSlots : List Hash := []

namespace ReceiptDiagnosticsV2

/-- The constructor; the clock is read when no time of the reset is given. -/
def new (maxRecentAttempts maxSlotStates : ℕ) (repeatedWarningIntervalMs resetUtcMs : UInt64)
    (utcMilliseconds : UInt64) : ReceiptDiagnosticsV2 where
  maxRecentAttempts := maxRecentAttempts
  maxSlotStates := max 1 maxSlotStates
  repeatedWarningIntervalMs := repeatedWarningIntervalMs
  resetUtcMs := if resetUtcMs = 0 then utcMilliseconds else resetUtcMs

/-- `next_attempt_id` -/
def takeAttemptId (d : ReceiptDiagnosticsV2) : UInt64 × ReceiptDiagnosticsV2 :=
  (d.nextAttemptId,
    if d.nextAttemptId ≠ uint64Max then { d with nextAttemptId := d.nextAttemptId + 1 } else d)

/-! ## Rounds -/

/-- The epoch of `std::max_element` over the rounds. -/
def newestEpoch (rounds : List ReceiptRoundCountersV2) : UInt64 :=
  rounds.foldl (fun newest entry => if newest < entry.epoch then entry.epoch else newest) 0

/-- Whether an epoch is outside of the retention window. -/
def outdated (d : ReceiptDiagnosticsV2) (epoch : UInt64) : Bool :=
  !d.rounds.isEmpty && (3 < newestEpoch d.rounds && epoch < newestEpoch d.rounds - 3)

/-- `prune_rounds_locked` -/
def pruneRoundsLocked (d : ReceiptDiagnosticsV2) : ReceiptDiagnosticsV2 :=
  if d.rounds.isEmpty then d
  else
    let newest := newestEpoch d.rounds
    let firstRetained := if 3 < newest then newest - 3 else 0
    { d with
      rounds := d.rounds.filter fun entry => !(entry.epoch < firstRetained)
      failures := d.failures.filter fun entry => !(entry.epoch < firstRetained) }

/-- What a counter is a reference to: an entry of the table, or the scratch entry. -/
inductive CounterRef
  | retained | discarded
deriving DecidableEq

/-- `round_locked` -/
def roundLocked (d : ReceiptDiagnosticsV2) (key : UInt64 × UInt64) :
    CounterRef × ReceiptDiagnosticsV2 :=
  if d.rounds.any fun entry => entry.key = key then (.retained, d)
  else if d.outdated key.1 then
    (.discarded, { d with discardedRound := { epoch := key.1, round := key.2 } })
  else
    (.retained, pruneRoundsLocked
      { d with rounds := d.rounds ++ [{ epoch := key.1, round := key.2 }] })

/-- A change through the reference that `round_locked` returned. -/
def modifyRound (d : ReceiptDiagnosticsV2) (ref : CounterRef) (key : UInt64 × UInt64)
    (f : ReceiptRoundCountersV2 → ReceiptRoundCountersV2) : ReceiptDiagnosticsV2 :=
  match ref with
  | .retained => { d with rounds := Keyed.modify ReceiptRoundCountersV2.key key f d.rounds }
  | .discarded => { d with discardedRound := f d.discardedRound }

/-- A change of a counter of `round_locked` in one statement. -/
def touchRound (d : ReceiptDiagnosticsV2) (key : UInt64 × UInt64)
    (f : ReceiptRoundCountersV2 → ReceiptRoundCountersV2) : ReceiptDiagnosticsV2 :=
  let (ref, d) := d.roundLocked key
  d.modifyRound ref key f

/-- `failure_locked` -/
def failureLocked (d : ReceiptDiagnosticsV2) (key : UInt64 × UInt64)
    (stage : ReceiptAttemptStageV2) (reason : ReceiptFailureReasonV2) :
    CounterRef × ReceiptDiagnosticsV2 :=
  if d.outdated key.1 then
    (.discarded, { d with discardedFailure := ⟨key.1, key.2, stage, reason, 0, 0⟩ })
  else if d.failures.any fun entry => entry.kind = (key, stage, reason) then (.retained, d)
  else
    (.retained, { d with failures := d.failures ++ [⟨key.1, key.2, stage, reason, 0, 0⟩] })

/-- A change through the reference that `failure_locked` returned. -/
def modifyFailure (d : ReceiptDiagnosticsV2) (ref : CounterRef)
    (kind : (UInt64 × UInt64) × ReceiptAttemptStageV2 × ReceiptFailureReasonV2)
    (f : ReceiptFailureCounterV2 → ReceiptFailureCounterV2) : ReceiptDiagnosticsV2 :=
  match ref with
  | .retained => { d with failures := Keyed.modify ReceiptFailureCounterV2.kind kind f d.failures }
  | .discarded => { d with discardedFailure := f d.discardedFailure }

/-! ## Slots -/

/-- A new element of a bounded list; the oldest one makes room. -/
def pushBounded {α : Type} (limit : ℕ) (l : List α) (a : α) : List α :=
  (if limit ≠ 0 ∧ limit ≤ l.length then l.tail else l) ++ [a]

/-- `slot_locked` -/
def slotLocked (d : ReceiptDiagnosticsV2) (slot : Hash) : ReceiptDiagnosticsV2 :=
  if d.slots.any fun entry => entry.slot = slot then d
  else { d with slots := pushBounded d.maxSlotStates d.slots { slot } }

/-- The state of a slot that `slot_locked` returned. -/
def slotState (d : ReceiptDiagnosticsV2) (slot : Hash) : ReceiptSlotStateV2 :=
  (d.slots.find? fun entry => entry.slot = slot).getD { slot }

def modifySlot (d : ReceiptDiagnosticsV2) (slot : Hash)
    (f : ReceiptSlotStateV2 → ReceiptSlotStateV2) : ReceiptDiagnosticsV2 :=
  { d with slots := Keyed.modify ReceiptSlotStateV2.slot slot f d.slots }

/-- The state of a slot after one more failure, and the number of warnings suppressed if a
warning is due now. -/
def failSlot (interval now : UInt64) (stage : ReceiptAttemptStageV2)
    (reason : ReceiptFailureReasonV2) (slot : ReceiptSlotStateV2) :
    Option UInt64 × ReceiptSlotStateV2 :=
  let slot :=
    if slot.lastFailureStage ≠ stage ∨ slot.lastFailureReason ≠ reason then
      { slot with
        lastFailureStage := stage
        lastFailureReason := reason
        consecutiveFailures := 0
        lastWarningSteadyMs := 0
        suppressedSinceWarning := 0 }
    else slot
  let slot :=
    if slot.consecutiveFailures ≠ uint64Max then
      { slot with consecutiveFailures := slot.consecutiveFailures + 1 }
    else slot
  let firstRepeated := slot.consecutiveFailures = 3
  let intervalElapsed := slot.lastWarningSteadyMs ≠ 0 ∧ slot.lastWarningSteadyMs ≤ now ∧
    interval ≤ now - slot.lastWarningSteadyMs
  if firstRepeated ∨ intervalElapsed then
    (some slot.suppressedSinceWarning,
      { slot with suppressedSinceWarning := 0, lastWarningSteadyMs := now })
  else if 3 < slot.consecutiveFailures then
    (none, { slot with suppressedSinceWarning := slot.suppressedSinceWarning + 1 })
  else (none, slot)

/-! ## Operations -/

/-- `started` -/
def started (d : ReceiptDiagnosticsV2) (context : ReceiptAttemptContextV2) :
    Bool × ReceiptDiagnosticsV2 :=
  if context.attemptId = 0 ∨ context.attemptId ∈ d.activeAttemptIds then (false, d)
  else if d.maxSlotStates ≤ d.activeAttemptIds.length then (false, d)
  else
    let d := { d with activeAttemptIds := d.activeAttemptIds ++ [context.attemptId] }
    let d := d.touchRound context.key fun entry =>
      { entry with attemptsStarted := entry.attemptsStarted + 1 }
    (true, { d with inFlight := d.activeAttemptIds.length })

/-- The counters of a round after an attempt that ended: it is completed, and counted by its
outcome. -/
def countTerminal (terminal : ReceiptAttemptTerminalV2) (entry : ReceiptRoundCountersV2) :
    ReceiptRoundCountersV2 :=
  let entry := { entry with attemptsCompleted := entry.attemptsCompleted + 1 }
  match terminal.outcome with
  | .success =>
    { entry with
      attemptsSucceeded := entry.attemptsSucceeded + 1
      localSubmissionsAccepted :=
        if terminal.localSubmissionAccepted then entry.localSubmissionsAccepted + 1
        else entry.localSubmissionsAccepted }
  | .cancelled => { entry with attemptsCancelled := entry.attemptsCancelled + 1 }
  | .expired => { entry with attemptsExpired := entry.attemptsExpired + 1 }
  | .failure => { entry with attemptsFailed := entry.attemptsFailed + 1 }

/-- The part of `terminal` for an attempt that did not succeed: its failure is counted, and a
failure proper may be due for a warning. -/
def recordFailure (d : ReceiptDiagnosticsV2) (terminal : ReceiptAttemptTerminalV2)
    (warningNowSteadyMs : UInt64) (effect : ReceiptDiagnosticEffectV2) :
    ReceiptDiagnosticEffectV2 × ReceiptDiagnosticsV2 :=
  let kind := (terminal.context.key, terminal.stage, terminal.reason)
  let (ref, d) := d.failureLocked terminal.context.key terminal.stage terminal.reason
  let d := d.modifyFailure ref kind fun entry => { entry with count := entry.count + 1 }
  if terminal.outcome = .failure then
    let (warning, slot) := failSlot d.repeatedWarningIntervalMs warningNowSteadyMs terminal.stage
      terminal.reason (d.slotState terminal.context.slot)
    let d := d.modifySlot terminal.context.slot fun _ => slot
    match warning with
    | some suppressed =>
      ({ effect with emitRepeatedWarning := true, suppressedSinceLastWarning := suppressed },
        d.modifyFailure ref kind fun entry =>
          { entry with suppressedLogCount := entry.suppressedLogCount + suppressed })
    | none => (effect, d)
  else (effect, d)

/-- The part of `terminal` for an attempt that succeeded. -/
def recordSuccess (d : ReceiptDiagnosticsV2) (terminal : ReceiptAttemptTerminalV2)
    (effect : ReceiptDiagnosticEffectV2) : ReceiptDiagnosticEffectV2 × ReceiptDiagnosticsV2 :=
  ({ effect with
      recoveredAfterFailures := (d.slotState terminal.context.slot).consecutiveFailures },
    d.modifySlot terminal.context.slot fun slot =>
      { slot with
        consecutiveFailures := 0
        suppressedSinceWarning := 0
        lastFailureStage := .none
        lastFailureReason := .none })

/-- The last part of `terminal`. -/
def pushRecent (d : ReceiptDiagnosticsV2) (terminal : ReceiptAttemptTerminalV2) :
    ReceiptDiagnosticsV2 :=
  if d.maxRecentAttempts ≠ 0 then
    { d with recentAttempts := pushBounded d.maxRecentAttempts d.recentAttempts terminal }
  else d

/-- The first part of `terminal`: the attempt is taken from the active ones and counted in its
round, and its slot gets a state. -/
def countAttempt (d : ReceiptDiagnosticsV2) (terminal : ReceiptAttemptTerminalV2) :
    ReceiptDiagnosticsV2 :=
  let d := { d with activeAttemptIds := d.activeAttemptIds.erase terminal.context.attemptId }
  let d := d.touchRound terminal.context.key (countTerminal terminal)
  let d := { d with inFlight := d.activeAttemptIds.length }
  d.slotLocked terminal.context.slot

/-- `terminal` -/
def terminal (d : ReceiptDiagnosticsV2) (terminal : ReceiptAttemptTerminalV2)
    (warningNowSteadyMs : UInt64) : ReceiptDiagnosticEffectV2 × ReceiptDiagnosticsV2 :=
  if terminal.context.attemptId ∉ d.activeAttemptIds then ({}, d)
  else
    let d := d.countAttempt terminal
    let effect : ReceiptDiagnosticEffectV2 := { terminalRecorded := true }
    let (effect, d) :=
      if terminal.outcome = .success then d.recordSuccess terminal effect
      else d.recordFailure terminal warningNowSteadyMs effect
    (effect, d.pushRecent terminal)

/-- `canonical_inclusion` -/
def canonicalInclusion (d : ReceiptDiagnosticsV2) (epoch round : UInt64) (slot : Hash) :
    Bool × ReceiptDiagnosticsV2 :=
  if d.canonicalSlots.contains slot then (false, d)
  else
    let d := { d with canonicalSlots := pushBounded d.maxSlotStates d.canonicalSlots slot }
    let d := d.touchRound (epoch, round) fun entry =>
      { entry with canonicalInclusionsObserved := entry.canonicalInclusionsObserved + 1 }
    (true, { d with
      recentAttempts := d.recentAttempts.map fun attempt =>
        if attempt.context.slot = slot then { attempt with canonicalInclusionObserved := true }
        else attempt })

/-- A counter that stops at its largest value. -/
def increment (count : UInt64) : UInt64 := if count ≠ uint64Max then count + 1 else count

/-- `transport_retry` -/
def transportRetry (d : ReceiptDiagnosticsV2) (epoch round : UInt64) (relayed : Bool) :
    ReceiptDiagnosticsV2 :=
  d.touchRound (epoch, round) fun entry =>
    { entry with
      transportRetriesAttempted := increment entry.transportRetriesAttempted
      transportRetriesRelayed :=
        if relayed then increment entry.transportRetriesRelayed
        else entry.transportRetriesRelayed }

/-- `skipped` -/
def skipped (d : ReceiptDiagnosticsV2) (reason : ReceiptSchedulerSkipV2) :
    ReceiptDiagnosticsV2 :=
  if d.skips.any fun entry => entry.reason = reason then
    let skips := Keyed.modify ReceiptSkipCounterV2.reason reason
      (fun entry => { entry with count := increment entry.count }) d.skips
    { d with skips }
  else { d with skips := d.skips ++ [⟨reason, 1⟩] }

/-! ## The retention window -/

variable {d d' : ReceiptDiagnosticsV2} {rounds : List ReceiptRoundCountersV2} {epoch : UInt64}
  {key : UInt64 × UInt64}

/-- A round of some epoch is kept that is more than three epochs newer. -/
def Outdated (keys : List (UInt64 × UInt64)) (epoch : UInt64) : Prop :=
  ∃ kept ∈ keys, epoch.toNat + 3 < kept.1.toNat

lemma foldl_newest (rounds : List ReceiptRoundCountersV2) (start : UInt64) :
    let newest := rounds.foldl
      (fun newest entry => if newest < entry.epoch then entry.epoch else newest) start
    start ≤ newest ∧ (∀ entry ∈ rounds, entry.epoch ≤ newest) ∧
      (newest = start ∨ ∃ entry ∈ rounds, entry.epoch = newest) := by
  induction rounds generalizing start with
  | nil => simp
  | cons entry rounds ih =>
    obtain ⟨hstart, hrest, hmem⟩ :=
      ih (if start < entry.epoch then entry.epoch else start)
    rw [List.foldl_cons]
    split_ifs at hstart hrest hmem ⊢ with hlt
    · refine ⟨UInt64.le_trans (UInt64.le_of_lt hlt) hstart, ?_, .inr ?_⟩
      · rintro other (_ | ⟨_, hother⟩)
        · exact hstart
        · exact hrest other hother
      · rcases hmem with hmem | ⟨other, hother, hmem⟩
        · exact ⟨entry, by simp, hmem.symm⟩
        · exact ⟨other, by simp [hother], hmem⟩
    · refine ⟨hstart, ?_, ?_⟩
      · rintro other (_ | ⟨_, hother⟩)
        · exact UInt64.le_trans (UInt64.not_lt.mp hlt) hstart
        · exact hrest other hother
      · rcases hmem with hmem | ⟨other, hother, hmem⟩
        · exact .inl hmem
        · exact .inr ⟨other, by simp [hother], hmem⟩

lemma le_newestEpoch {entry : ReceiptRoundCountersV2} (h : entry ∈ rounds) :
    entry.epoch ≤ newestEpoch rounds :=
  (foldl_newest rounds 0).2.1 entry h

lemma exists_newestEpoch (h : rounds ≠ []) :
    ∃ entry ∈ rounds, entry.epoch = newestEpoch rounds := by
  rcases (foldl_newest rounds 0).2.2 with hzero | hmem
  · obtain ⟨entry, hentry⟩ := List.exists_mem_of_ne_nil rounds h
    have hle := le_newestEpoch hentry
    refine ⟨entry, hentry, ?_⟩
    rw [show newestEpoch rounds = 0 from hzero] at hle ⊢
    exact UInt64.le_antisymm hle (UInt64.zero_le)
  · exact hmem

/-- The test of both lookups, in terms of the rounds that are kept. -/
lemma outdated_iff :
    d.outdated epoch = true ↔ Outdated (d.rounds.map ReceiptRoundCountersV2.key) epoch := by
  have hthree : (3 : UInt64).toNat = 3 := rfl
  unfold outdated
  simp only [Bool.and_eq_true, Bool.not_eq_true', List.isEmpty_eq_false_iff, decide_eq_true_eq,
    UInt64.lt_iff_toNat_lt, hthree]
  constructor
  · rintro ⟨hne, hthree', hlt⟩
    obtain ⟨entry, hentry, hnewest⟩ := exists_newestEpoch hne
    refine ⟨entry.key, List.mem_map_of_mem hentry, ?_⟩
    rw [← hnewest, UInt64.toNat_sub_of_le _ _
      (UInt64.le_iff_toNat_le.mpr (by rw [hnewest, hthree]; omega)), hthree] at hlt
    show epoch.toNat + 3 < entry.epoch.toNat
    omega
  · rintro ⟨kept, hkept, hlt⟩
    obtain ⟨entry, hentry, rfl⟩ := List.mem_map.mp hkept
    have hle := UInt64.le_iff_toNat_le.mp (le_newestEpoch hentry)
    have hlt : epoch.toNat + 3 < entry.epoch.toNat := hlt
    have hbig : 3 < (newestEpoch d.rounds).toNat := by omega
    refine ⟨List.ne_nil_of_mem hentry, hbig, ?_⟩
    rw [UInt64.toNat_sub_of_le _ _ (UInt64.le_iff_toNat_le.mpr (by rw [hthree]; omega)), hthree]
    omega

lemma pruneRoundsLocked_eq :
    d.pruneRoundsLocked = { d with
      rounds := d.rounds.filter fun entry => !d.outdated entry.epoch
      failures := d.failures.filter fun entry => !d.outdated entry.epoch } := by
  unfold pruneRoundsLocked
  split_ifs with hempty
  · have hfalse : ∀ epoch, d.outdated epoch = false := fun epoch => by simp [outdated, hempty]
    simp [hfalse]
  · have htest : ∀ epoch, decide (epoch < if 3 < newestEpoch d.rounds then
        newestEpoch d.rounds - 3 else 0) = d.outdated epoch := by
      intro epoch
      have hnonempty : d.rounds.isEmpty = false := by simpa using hempty
      unfold outdated
      rw [hnonempty]
      split_ifs with hnewest
      · simp [hnewest]
      · simp [hnewest]
    simp only [htest]

/-- The newest round is never dropped, so what is outdated stays outdated. -/
lemma Outdated.filter (h : Outdated (d.rounds.map ReceiptRoundCountersV2.key) epoch) :
    Outdated ((d.rounds.filter fun entry => !d.outdated entry.epoch).map
      ReceiptRoundCountersV2.key) epoch := by
  obtain ⟨kept, hkept, hlt⟩ := h
  obtain ⟨entry, hentry, rfl⟩ := List.mem_map.mp hkept
  obtain ⟨newest, hnewest, heq⟩ := exists_newestEpoch (List.ne_nil_of_mem hentry)
  have hle := UInt64.le_iff_toNat_le.mp (le_newestEpoch hentry)
  refine ⟨newest.key, List.mem_map_of_mem (List.mem_filter.mpr ⟨hnewest, ?_⟩), ?_⟩
  · rw [Bool.not_eq_true', Bool.eq_false_iff, ne_eq, outdated_iff]
    rintro ⟨other, hother, hlt⟩
    obtain ⟨entry, hentry, rfl⟩ := List.mem_map.mp hother
    have hother := UInt64.le_iff_toNat_le.mp (le_newestEpoch hentry)
    rw [heq] at hlt
    exact absurd hlt (by show ¬_ < entry.epoch.toNat; omega)
  · show epoch.toNat + 3 < newest.epoch.toNat
    rw [heq]
    have hlt : epoch.toNat + 3 < entry.epoch.toNat := hlt
    omega

lemma Outdated.mono {keys keys' : List (UInt64 × UInt64)} (h : Outdated keys epoch)
    (hsub : keys ⊆ keys') : Outdated keys' epoch := by
  obtain ⟨kept, hkept, hlt⟩ := h
  exact ⟨kept, hsub hkept, hlt⟩

/-! ## The history of a run -/

/-- The attempts of a run: those that were started, those that ended, and those in between. -/
structure AttemptHistory where
  started : List ReceiptAttemptContextV2 := []
  completed : List ReceiptAttemptContextV2 := []
  pending : List ReceiptAttemptContextV2 := []

namespace AttemptHistory

/-- The number of attempts of a round in a list. -/
def countIn (attempts : List ReceiptAttemptContextV2) (key : UInt64 × UInt64) : ℕ :=
  (attempts.map ReceiptAttemptContextV2.key).count key

/-- An attempt is started. -/
def start (h : AttemptHistory) (context : ReceiptAttemptContextV2) : AttemptHistory :=
  { h with started := h.started ++ [context], pending := h.pending ++ [context] }

/-- An attempt ends, if it is pending. -/
def complete (h : AttemptHistory) (context : ReceiptAttemptContextV2) : AttemptHistory :=
  if context ∈ h.pending then
    { h with completed := h.completed ++ [context], pending := h.pending.erase context }
  else h

end AttemptHistory

open AttemptHistory

/-- The failures of a round that were counted. -/
def failureSum (failures : List ReceiptFailureCounterV2) (key : UInt64 × UInt64) : UInt64 :=
  ((failures.filter fun entry => entry.kind.1 = key).map (·.count)).sum

/-- The counters of a round are those of the history and add up. -/
structure Exact (h : AttemptHistory) (failures : List ReceiptFailureCounterV2)
    (entry : ReceiptRoundCountersV2) : Prop where
  started : entry.attemptsStarted = UInt64.ofNat (countIn h.started entry.key)
  completed : entry.attemptsCompleted = UInt64.ofNat (countIn h.completed entry.key)
  outcomes : entry.attemptsCompleted = entry.attemptsSucceeded + entry.attemptsFailed +
    entry.attemptsCancelled + entry.attemptsExpired
  failures : failureSum failures entry.key =
    entry.attemptsFailed + entry.attemptsCancelled + entry.attemptsExpired

/-- The tables say what the history says about the rounds that are kept.  An attempt whose round
is not kept is too old for it ever to be kept again. -/
structure Tallies (h : AttemptHistory) (rounds : List ReceiptRoundCountersV2)
    (failures : List ReceiptFailureCounterV2) : Prop where
  nodup : (rounds.map ReceiptRoundCountersV2.key).Nodup
  window : ∀ entry ∈ rounds, ¬Outdated (rounds.map ReceiptRoundCountersV2.key) entry.epoch
  lost : ∀ context ∈ h.started, context.key ∈ rounds.map ReceiptRoundCountersV2.key ∨
    Outdated (rounds.map ReceiptRoundCountersV2.key) context.epoch
  exact : ∀ entry ∈ rounds, Exact h failures entry
  failureKeys : ∀ failure ∈ failures, failure.kind.1 ∈ rounds.map ReceiptRoundCountersV2.key

variable {h h' : AttemptHistory} {failures failures' : List ReceiptFailureCounterV2}
  {entry : ReceiptRoundCountersV2} {ref : CounterRef}

lemma failureSum_eq_sum (failures : List ReceiptFailureCounterV2) (key : UInt64 × UInt64) :
    failureSum failures key =
      (failures.map fun entry => if entry.kind.1 = key then entry.count else 0).sum := by
  unfold failureSum
  induction failures with
  | nil => rfl
  | cons failure failures ih =>
    by_cases hkey : failure.kind.1 = key
    · rw [List.filter_cons_of_pos (by simpa using hkey), List.map_cons, List.map_cons,
        List.sum_cons, List.sum_cons, ih, if_pos hkey]
    · rw [List.filter_cons_of_neg (by simpa using hkey), List.map_cons, List.sum_cons, ih,
        if_neg hkey, zero_add]

lemma failureSum_eq_zero (hnone : ∀ failure ∈ failures, failure.kind.1 ≠ key) :
    failureSum failures key = 0 := by
  unfold failureSum
  rw [List.filter_eq_nil_iff.mpr fun failure hfailure => by simpa using hnone failure hfailure]
  rfl

lemma failureSum_filter {keep : ReceiptFailureCounterV2 → Bool}
    (hkeep : ∀ failure ∈ failures, failure.kind.1 = key → keep failure = true) :
    failureSum (failures.filter keep) key = failureSum failures key := by
  unfold failureSum
  rw [List.filter_filter]
  congr 2
  refine List.filter_congr fun failure hfailure => ?_
  by_cases hkey : failure.kind.1 = key
  · simp [hkey, hkeep failure hfailure hkey]
  · simp [hkey]

lemma countIn_eq_zero {attempts : List ReceiptAttemptContextV2}
    (hnone : ∀ context ∈ attempts, context.key ≠ key) : countIn attempts key = 0 := by
  refine List.count_eq_zero.mpr fun hmem => ?_
  obtain ⟨context, hcontext, hkey⟩ := List.mem_map.mp hmem
  exact hnone context hcontext hkey

lemma countIn_append (attempts : List ReceiptAttemptContextV2) (context : ReceiptAttemptContextV2) :
    countIn (attempts ++ [context]) key =
      countIn attempts key + if context.key = key then 1 else 0 := by
  unfold countIn
  rw [List.map_append, List.count_append, List.map_singleton, List.count_singleton]
  by_cases hkey : context.key = key <;> simp [hkey]

/-- A round that has not been seen has the counters of the history, all of them zero. -/
lemma Tallies.exact_new (ht : Tallies h rounds failures)
    (hle : ∀ key, countIn h.completed key ≤ countIn h.started key)
    (hnew : key ∉ rounds.map ReceiptRoundCountersV2.key)
    (hrecent : ¬Outdated (rounds.map ReceiptRoundCountersV2.key) key.1) :
    Exact h failures { epoch := key.1, round := key.2 } := by
  have hzero : countIn h.started key = 0 := by
    refine countIn_eq_zero fun context hcontext hkey => ?_
    rcases ht.lost context hcontext with hmem | hold
    · exact hnew (hkey ▸ hmem)
    · exact hrecent (hkey ▸ hold)
  have hcompleted : countIn h.completed key = 0 := Nat.le_zero.mp (hzero ▸ hle key)
  refine ⟨?_, ?_, rfl, failureSum_eq_zero fun failure hfailure hkey => ?_⟩
  · show (0 : UInt64) = UInt64.ofNat (countIn h.started key)
    rw [hzero]
    rfl
  · show (0 : UInt64) = UInt64.ofNat (countIn h.completed key)
    rw [hcompleted]
    rfl
  · have hkey : failure.kind.1 = key := hkey
    exact hnew (hkey ▸ ht.failureKeys failure hfailure)

lemma Tallies.insert (ht : Tallies h rounds failures)
    (hle : ∀ key, countIn h.completed key ≤ countIn h.started key)
    (hnew : key ∉ rounds.map ReceiptRoundCountersV2.key)
    (hrecent : ¬Outdated (rounds.map ReceiptRoundCountersV2.key) key.1)
    (hd : d.rounds = rounds ++ [{ epoch := key.1, round := key.2 }]) :
    Tallies h (d.rounds.filter fun entry => !d.outdated entry.epoch)
      (failures.filter fun entry => !d.outdated entry.epoch) := by
  have hkeys : d.rounds.map ReceiptRoundCountersV2.key =
      rounds.map ReceiptRoundCountersV2.key ++ [key] := by
    rw [hd, List.map_append]
    rfl
  have hsub : rounds.map ReceiptRoundCountersV2.key ⊆ d.rounds.map ReceiptRoundCountersV2.key := by
    rw [hkeys]
    exact List.subset_append_left ..
  have hkept : ∀ entry ∈ d.rounds, entry.key ∈ (d.rounds.filter fun entry =>
      !d.outdated entry.epoch).map ReceiptRoundCountersV2.key ∨
      Outdated (d.rounds.map ReceiptRoundCountersV2.key) entry.epoch := by
    intro entry hentry
    by_cases hold : d.outdated entry.epoch = true
    · exact .inr (outdated_iff.mp hold)
    · exact .inl (List.mem_map_of_mem (List.mem_filter.mpr ⟨hentry, by simpa using hold⟩))
  refine ⟨?_, fun entry hentry hold => ?_, fun context hcontext => ?_, fun entry hentry => ?_,
    fun failure hfailure => ?_⟩
  · have hnodup : (d.rounds.map ReceiptRoundCountersV2.key).Nodup := by
      rw [hkeys, List.nodup_append]
      exact ⟨ht.nodup, List.nodup_singleton _, by
        rintro kept hkept other hother rfl
        exact hnew (List.mem_singleton.mp hother ▸ hkept)⟩
    exact hnodup.sublist (List.filter_sublist.map _)
  · obtain ⟨-, hnot⟩ := List.mem_filter.mp hentry
    have hold := hold.mono ((List.filter_sublist (l := d.rounds)).map _).subset
    rw [← outdated_iff] at hold
    simp [hold] at hnot
  · rcases ht.lost context hcontext with hmem | hold
    · obtain ⟨entry, hentry, hkey⟩ := List.mem_map.mp (hsub hmem)
      rcases hkept entry hentry with hin | hold
      · exact .inl (hkey ▸ hin)
      · have hepoch : entry.epoch = context.epoch := congrArg Prod.fst hkey
        exact .inr (hepoch ▸ hold.filter)
    · exact .inr (hold.mono hsub).filter
  · obtain ⟨hentry, hnot⟩ := List.mem_filter.mp hentry
    have hexact : Exact h failures entry := by
      rw [hd, List.mem_append, List.mem_singleton] at hentry
      rcases hentry with hentry | rfl
      · exact ht.exact entry hentry
      · exact ht.exact_new hle hnew hrecent
    refine ⟨hexact.started, hexact.completed, hexact.outcomes, ?_⟩
    rw [failureSum_filter fun failure _ hkey => ?_]
    · exact hexact.failures
    · have hepoch : failure.epoch = entry.epoch := congrArg Prod.fst hkey
      rw [hepoch]
      exact hnot
  · obtain ⟨hfailure, hnot⟩ := List.mem_filter.mp hfailure
    obtain ⟨entry, hentry, hkey⟩ := List.mem_map.mp (hsub (ht.failureKeys failure hfailure))
    have hepoch : entry.epoch = failure.epoch := congrArg Prod.fst hkey
    rw [← hkey]
    refine List.mem_map_of_mem (List.mem_filter.mpr ⟨hentry, ?_⟩)
    rw [hepoch]
    exact hnot

/-- What `round_locked` leaves alone, and what it returns a reference to: a round that is kept, or
nothing that matters for an outdated one. -/
structure Looked (key : UInt64 × UInt64) (ref : CounterRef) (d d' : ReceiptDiagnosticsV2) :
    Prop where
  others : d' = { d with
    rounds := d'.rounds, failures := d'.failures, discardedRound := d'.discardedRound }
  retained : ref = .retained → key ∈ d'.rounds.map ReceiptRoundCountersV2.key
  discarded : ref = .discarded → Outdated (d'.rounds.map ReceiptRoundCountersV2.key) key.1
  kept : ∀ entry ∈ d.rounds, entry.key ∈ d'.rounds.map ReceiptRoundCountersV2.key ∨
    Outdated (d'.rounds.map ReceiptRoundCountersV2.key) entry.epoch
  mono : ∀ epoch, Outdated (d.rounds.map ReceiptRoundCountersV2.key) epoch →
    Outdated (d'.rounds.map ReceiptRoundCountersV2.key) epoch

lemma roundLocked_looked (d : ReceiptDiagnosticsV2) (key : UInt64 × UInt64) :
    Looked key (d.roundLocked key).1 d (d.roundLocked key).2 := by
  unfold roundLocked
  split_ifs with hfound hold
  · have hmem : key ∈ d.rounds.map ReceiptRoundCountersV2.key := by
      obtain ⟨entry, hentry, hkey⟩ := List.any_eq_true.mp hfound
      exact List.mem_map.mpr ⟨entry, hentry, by simpa using hkey⟩
    exact ⟨rfl, fun _ => hmem, nofun, fun entry hentry => .inl (List.mem_map_of_mem hentry),
      fun _ hold => hold⟩
  · exact ⟨rfl, nofun, fun _ => outdated_iff.mp hold,
      fun entry hentry => .inl (List.mem_map_of_mem hentry), fun _ hold => hold⟩
  · rw [outdated_iff] at hold
    rw [pruneRoundsLocked_eq]
    generalize hd' : ({ d with rounds := d.rounds ++ [{ epoch := key.1, round := key.2 }] } :
      ReceiptDiagnosticsV2) = d'
    have hrounds : d'.rounds = d.rounds ++ [{ epoch := key.1, round := key.2 }] := by rw [← hd']
    have hsub : d.rounds.map ReceiptRoundCountersV2.key ⊆
        d'.rounds.map ReceiptRoundCountersV2.key := by
      rw [hrounds, List.map_append]
      exact List.subset_append_left ..
    refine ⟨by rw [← hd'], fun _ => ?_, nofun, fun entry hentry => ?_,
      fun epoch hepoch => (hepoch.mono hsub).filter⟩
    · -- the new round is not pruned at once
      have hnew : ({ epoch := key.1, round := key.2 } : ReceiptRoundCountersV2) ∈ d'.rounds := by
        simp [hrounds]
      refine List.mem_map.mpr ⟨_, List.mem_filter.mpr ⟨hnew, ?_⟩, rfl⟩
      rw [Bool.not_eq_true', Bool.eq_false_iff, ne_eq, outdated_iff, hrounds, List.map_append]
      rintro ⟨kept, hkept, hlt⟩
      rcases List.mem_append.mp hkept with hkept | hkept
      · exact hold ⟨kept, hkept, hlt⟩
      · rw [List.map_singleton, List.mem_singleton] at hkept
        subst hkept
        exact absurd hlt (by show ¬key.1.toNat + 3 < key.1.toNat; omega)
    · have hentry' : entry ∈ d'.rounds := by simp [hrounds, hentry]
      by_cases hout : d'.outdated entry.epoch = true
      · exact .inr (outdated_iff.mp hout).filter
      · exact .inl (List.mem_map_of_mem (List.mem_filter.mpr ⟨hentry', by simpa using hout⟩))

lemma Tallies.roundLocked (ht : Tallies h d.rounds d.failures)
    (hle : ∀ key, countIn h.completed key ≤ countIn h.started key) (key : UInt64 × UInt64) :
    Tallies h (d.roundLocked key).2.rounds (d.roundLocked key).2.failures := by
  unfold ReceiptDiagnosticsV2.roundLocked
  split_ifs with hfound hold
  · exact ht
  · exact ht
  · rw [pruneRoundsLocked_eq]
    rw [outdated_iff] at hold
    refine ht.insert hle (fun hmem => hfound ?_) hold rfl
    obtain ⟨entry, hentry, hkey⟩ := List.mem_map.mp hmem
    exact List.any_eq_true.mpr ⟨entry, hentry, by simpa using hkey⟩

/-! ## Counting -/

lemma Tallies.update (ht : Tallies h rounds failures)
    {f : ReceiptRoundCountersV2 → ReceiptRoundCountersV2} (hf : ∀ entry, (f entry).key = entry.key)
    (hstarted : ∀ context ∈ h'.started, context ∈ h.started ∨ context.key = key)
    (hmem : key ∈ rounds.map ReceiptRoundCountersV2.key)
    (hother : ∀ entry ∈ rounds, entry.key ≠ key → Exact h' failures' entry)
    (hsame : ∀ entry ∈ rounds, entry.key = key → Exact h' failures' (f entry))
    (hfailures : ∀ failure ∈ failures', failure.kind.1 ∈ rounds.map ReceiptRoundCountersV2.key) :
    Tallies h' (Keyed.modify ReceiptRoundCountersV2.key key f rounds) failures' := by
  have hkeys := Keyed.map_key_modify (k := key) (l := rounds) hf
  refine ⟨?_, fun entry hentry => ?_, fun context hcontext => ?_, fun entry hentry => ?_,
    fun failure hfailure => ?_⟩
  · rw [hkeys]
    exact ht.nodup
  · rw [hkeys]
    rcases (Keyed.mem_modify ht.nodup).mp hentry with ⟨hentry, -⟩ | ⟨before, hbefore, -, rfl⟩
    · exact ht.window entry hentry
    · have hepoch : (f before).epoch = before.epoch := congrArg Prod.fst (hf before)
      rw [hepoch]
      exact ht.window before hbefore
  · rw [hkeys]
    rcases hstarted context hcontext with hcontext | hkey
    · exact ht.lost context hcontext
    · exact .inl (hkey ▸ hmem)
  · rcases (Keyed.mem_modify ht.nodup).mp hentry with
      ⟨hentry, hne⟩ | ⟨before, hbefore, hkey, rfl⟩
    · exact hother entry hentry hne
    · exact hsame before hbefore hkey
  · rw [hkeys]
    exact hfailures failure hfailure

/-- Attempts of an outdated round are not counted anywhere. -/
lemma Tallies.discard (ht : Tallies h rounds failures)
    (hold : Outdated (rounds.map ReceiptRoundCountersV2.key) key.1)
    (hstarted : ∀ context ∈ h'.started, context ∈ h.started ∨ context.key = key)
    (hcounts : ∀ other, other ≠ key → countIn h'.started other = countIn h.started other ∧
      countIn h'.completed other = countIn h.completed other) :
    Tallies h' rounds failures := by
  refine ⟨ht.nodup, ht.window, fun context hcontext => ?_, fun entry hentry => ?_,
    ht.failureKeys⟩
  · rcases hstarted context hcontext with hcontext | hkey
    · exact ht.lost context hcontext
    · have hepoch : context.epoch = key.1 := congrArg Prod.fst hkey
      exact .inr (hepoch ▸ hold)
  · have hne : entry.key ≠ key := by
      rintro rfl
      exact ht.window entry hentry hold
    obtain ⟨started, completed, outcomes, hfailures⟩ := ht.exact entry hentry
    obtain ⟨hs, hc⟩ := hcounts entry.key hne
    exact ⟨by rw [hs, started], by rw [hc, completed], outcomes, hfailures⟩

variable {context : ReceiptAttemptContextV2} {t : ReceiptAttemptTerminalV2}

lemma countIn_complete {other : UInt64 × UInt64} (hmem : context ∈ h.pending) :
    countIn (h.complete context).completed other =
      countIn h.completed other + if context.key = other then 1 else 0 := by
  rw [AttemptHistory.complete, if_pos hmem]
  exact countIn_append ..

lemma Tallies.start (ht : Tallies h d.rounds d.failures)
    (hretained : ref = .retained → context.key ∈ d.rounds.map ReceiptRoundCountersV2.key)
    (hdiscarded : ref = .discarded →
      Outdated (d.rounds.map ReceiptRoundCountersV2.key) context.key.1) :
    Tallies (h.start context) (d.modifyRound ref context.key fun entry =>
      { entry with attemptsStarted := entry.attemptsStarted + 1 }).rounds d.failures := by
  have hstarted : ∀ other ∈ (h.start context).started,
      other ∈ h.started ∨ other.key = context.key := by
    intro other hother
    rcases List.mem_append.mp hother with hother | hother
    · exact .inl hother
    · exact .inr (by rw [List.mem_singleton.mp hother])
  have hcount : ∀ other, countIn (h.start context).started other =
      countIn h.started other + if context.key = other then 1 else 0 := fun other =>
    countIn_append ..
  cases ref with
  | discarded =>
    refine ht.discard (hdiscarded rfl) hstarted fun other hne => ⟨?_, rfl⟩
    rw [hcount, if_neg hne.symm, Nat.add_zero]
  | retained =>
    refine ht.update (fun _ => rfl) hstarted (hretained rfl) (fun entry hentry hne => ?_)
      (fun entry hentry hkey => ?_) ht.failureKeys
    · obtain ⟨started, completed, outcomes, hfailures⟩ := ht.exact entry hentry
      refine ⟨?_, completed, outcomes, hfailures⟩
      rw [hcount, if_neg hne.symm, Nat.add_zero, started]
    · obtain ⟨started, completed, outcomes, hfailures⟩ := ht.exact entry hentry
      refine ⟨?_, completed, outcomes, hfailures⟩
      show entry.attemptsStarted + 1 = UInt64.ofNat (countIn _ entry.key)
      rw [hcount, if_pos hkey.symm, UInt64.ofNat_add, started]
      rfl

lemma countTerminal_key (t : ReceiptAttemptTerminalV2) (entry : ReceiptRoundCountersV2) :
    (countTerminal t entry).key = entry.key := by
  unfold countTerminal
  cases t.outcome <;> rfl

lemma countTerminal_counts (t : ReceiptAttemptTerminalV2) (entry : ReceiptRoundCountersV2)
    (houtcomes : entry.attemptsCompleted = entry.attemptsSucceeded + entry.attemptsFailed +
      entry.attemptsCancelled + entry.attemptsExpired) :
    (countTerminal t entry).attemptsStarted = entry.attemptsStarted ∧
      (countTerminal t entry).attemptsCompleted = entry.attemptsCompleted + 1 ∧
      (countTerminal t entry).attemptsCompleted = (countTerminal t entry).attemptsSucceeded +
        (countTerminal t entry).attemptsFailed + (countTerminal t entry).attemptsCancelled +
        (countTerminal t entry).attemptsExpired ∧
      (countTerminal t entry).attemptsFailed + (countTerminal t entry).attemptsCancelled +
          (countTerminal t entry).attemptsExpired =
        entry.attemptsFailed + entry.attemptsCancelled + entry.attemptsExpired +
          if t.outcome = .success then 0 else 1 := by
  unfold countTerminal
  cases t.outcome <;> refine ⟨rfl, rfl, ?_, ?_⟩ <;>
    simp only [houtcomes, reduceCtorEq, reduceIte] <;> abel

/-- An attempt that ended is counted as completed, by its outcome, and among the failures unless
it succeeded. -/
lemma Tallies.complete (ht : Tallies h rounds failures) (hmem : t.context ∈ h.pending)
    (hkey : t.context.key ∈ rounds.map ReceiptRoundCountersV2.key)
    (hsum : ∀ other, failureSum failures' other = failureSum failures other +
      if other = t.context.key ∧ t.outcome ≠ .success then 1 else 0)
    (hfailures : ∀ failure ∈ failures', failure.kind.1 ∈ rounds.map ReceiptRoundCountersV2.key) :
    Tallies (h.complete t.context)
      (Keyed.modify ReceiptRoundCountersV2.key t.context.key (countTerminal t) rounds)
      failures' := by
  have hstarted : (h.complete t.context).started = h.started := by
    rw [AttemptHistory.complete, if_pos hmem]
  refine ht.update (countTerminal_key t) (fun other hother => .inl (hstarted ▸ hother)) hkey
    (fun entry hentry hne => ?_) (fun entry hentry hsame => ?_) hfailures
  · obtain ⟨started, completed, outcomes, hexact⟩ := ht.exact entry hentry
    refine ⟨by rw [hstarted, started], ?_, outcomes, ?_⟩
    · rw [countIn_complete hmem, if_neg hne.symm, Nat.add_zero, completed]
    · rw [hsum, if_neg fun h => hne h.1, hexact, add_zero]
  · obtain ⟨started, completed, outcomes, hexact⟩ := ht.exact entry hentry
    obtain ⟨hs, hc, ho, hf⟩ := countTerminal_counts t entry outcomes
    refine ⟨?_, ?_, ho, ?_⟩
    · rw [hs, countTerminal_key, hstarted, started]
    · rw [hc, countTerminal_key, countIn_complete hmem, if_pos hsame.symm, UInt64.ofNat_add,
        completed]
      rfl
    · rw [countTerminal_key, hsum, hexact, hf]
      by_cases hsuccess : t.outcome = .success
      · simp [hsuccess]
      · simp [hsuccess, hsame]

/-! ## Failures -/

lemma map_kind_modify {f : ReceiptFailureCounterV2 → ReceiptFailureCounterV2}
    (hf : ∀ entry, (f entry).kind = entry.kind)
    (kind : (UInt64 × UInt64) × ReceiptAttemptStageV2 × ReceiptFailureReasonV2) :
    (Keyed.modify ReceiptFailureCounterV2.kind kind f failures).map ReceiptFailureCounterV2.kind =
      failures.map ReceiptFailureCounterV2.kind :=
  Keyed.map_key_modify hf

lemma failureSum_modify {f : ReceiptFailureCounterV2 → ReceiptFailureCounterV2} {c : UInt64}
    {kind : (UInt64 × UInt64) × ReceiptAttemptStageV2 × ReceiptFailureReasonV2}
    (hf : ∀ entry, (f entry).kind = entry.kind)
    (hcount : ∀ entry, (f entry).count = entry.count + c)
    (hkind : kind ∈ failures.map ReceiptFailureCounterV2.kind) (other : UInt64 × UInt64) :
    failureSum (Keyed.modify ReceiptFailureCounterV2.kind kind f failures) other =
      failureSum failures other + if other = kind.1 then c else 0 := by
  rw [failureSum_eq_sum, failureSum_eq_sum]
  refine Keyed.sum_map_modify (fun entry hentry => ?_) hkind
  rw [hf, hcount, hentry]
  by_cases hother : kind.1 = other
  · simp [hother]
  · simp [hother, Ne.symm hother]

/-- Nothing but failure counters and states of slots that exist has changed. -/
structure Aside (d d' : ReceiptDiagnosticsV2) : Prop where
  rounds : d'.rounds = d.rounds
  activeAttemptIds : d'.activeAttemptIds = d.activeAttemptIds
  inFlight : d'.inFlight = d.inFlight
  maxRecentAttempts : d'.maxRecentAttempts = d.maxRecentAttempts
  maxSlotStates : d'.maxSlotStates = d.maxSlotStates
  recentAttempts : d'.recentAttempts = d.recentAttempts
  canonicalSlots : d'.canonicalSlots = d.canonicalSlots
  slots : d'.slots.length = d.slots.length

lemma Aside.trans {d₁ d₂ d₃ : ReceiptDiagnosticsV2} (h₁ : Aside d₁ d₂) (h₂ : Aside d₂ d₃) :
    Aside d₁ d₃ :=
  ⟨h₂.1.trans h₁.1, h₂.2.trans h₁.2, h₂.3.trans h₁.3, h₂.4.trans h₁.4, h₂.5.trans h₁.5,
    h₂.6.trans h₁.6, h₂.7.trans h₁.7, h₂.8.trans h₁.8⟩

lemma aside_failureLocked (d : ReceiptDiagnosticsV2) (key : UInt64 × UInt64)
    (stage : ReceiptAttemptStageV2) (reason : ReceiptFailureReasonV2) :
    Aside d (d.failureLocked key stage reason).2 := by
  unfold failureLocked
  split_ifs <;> exact ⟨rfl, rfl, rfl, rfl, rfl, rfl, rfl, rfl⟩

lemma aside_modifyFailure (d : ReceiptDiagnosticsV2) (ref : CounterRef)
    (kind : (UInt64 × UInt64) × ReceiptAttemptStageV2 × ReceiptFailureReasonV2)
    (f : ReceiptFailureCounterV2 → ReceiptFailureCounterV2) :
    Aside d (d.modifyFailure ref kind f) := by
  cases ref <;> exact ⟨rfl, rfl, rfl, rfl, rfl, rfl, rfl, rfl⟩

lemma aside_modifySlot (d : ReceiptDiagnosticsV2) (slot : Hash)
    (f : ReceiptSlotStateV2 → ReceiptSlotStateV2) : Aside d (d.modifySlot slot f) :=
  ⟨rfl, rfl, rfl, rfl, rfl, rfl, rfl, Keyed.length_modify⟩

lemma aside_recordFailure (d : ReceiptDiagnosticsV2) (t : ReceiptAttemptTerminalV2) (now : UInt64)
    (effect : ReceiptDiagnosticEffectV2) : Aside d (d.recordFailure t now effect).2 := by
  have hcounted := (aside_failureLocked d t.context.key t.stage t.reason).trans
    (aside_modifyFailure _ (d.failureLocked t.context.key t.stage t.reason).1
      (t.context.key, t.stage, t.reason) fun entry => { entry with count := entry.count + 1 })
  unfold recordFailure
  dsimp only
  split_ifs
  · split
    · exact (hcounted.trans (aside_modifySlot ..)).trans (aside_modifyFailure ..)
    · exact hcounted.trans (aside_modifySlot ..)
  · exact hcounted

lemma aside_recordSuccess (d : ReceiptDiagnosticsV2) (t : ReceiptAttemptTerminalV2)
    (effect : ReceiptDiagnosticEffectV2) : Aside d (d.recordSuccess t effect).2 :=
  aside_modifySlot ..

/-- The failures after `recordFailure`, whether a warning was due or not. -/
lemma recordFailure_failures (d : ReceiptDiagnosticsV2) (t : ReceiptAttemptTerminalV2)
    (now : UInt64) (effect : ReceiptDiagnosticEffectV2) :
    ∃ f : ReceiptFailureCounterV2 → ReceiptFailureCounterV2,
      (∀ entry, (f entry).kind = entry.kind) ∧ (∀ entry, (f entry).count = entry.count + 1) ∧
      (d.recordFailure t now effect).2.failures =
        ((d.failureLocked t.context.key t.stage t.reason).2.modifyFailure
          (d.failureLocked t.context.key t.stage t.reason).1
          (t.context.key, t.stage, t.reason) f).failures := by
  unfold recordFailure
  dsimp only
  generalize d.failureLocked t.context.key t.stage t.reason = locked
  obtain ⟨ref, d₁⟩ := locked
  split_ifs
  · split
    · next suppressed _ =>
      refine ⟨fun entry => { entry with
        count := entry.count + 1, suppressedLogCount := entry.suppressedLogCount + suppressed },
        fun _ => rfl, fun _ => rfl, ?_⟩
      cases ref with
      | discarded => rfl
      | retained => exact Keyed.modify_modify fun _ => rfl
    · exact ⟨fun entry => { entry with count := entry.count + 1 }, fun _ => rfl, fun _ => rfl,
        by cases ref <;> rfl⟩
  · exact ⟨fun entry => { entry with count := entry.count + 1 }, fun _ => rfl, fun _ => rfl, rfl⟩

lemma recordFailure_outdated (now : UInt64) (hold : d.outdated t.context.key.1 = true)
    (effect : ReceiptDiagnosticEffectV2) :
    (d.recordFailure t now effect).2.failures = d.failures := by
  obtain ⟨f, -, -, hfailures⟩ := recordFailure_failures d t now effect
  rw [hfailures, failureLocked, if_pos hold]
  rfl

lemma recordFailure_recent (now : UInt64) (hrecent : d.outdated t.context.key.1 = false)
    (effect : ReceiptDiagnosticEffectV2) :
    (∀ other, failureSum (d.recordFailure t now effect).2.failures other =
      failureSum d.failures other + if other = t.context.key then 1 else 0) ∧
    ∀ failure ∈ (d.recordFailure t now effect).2.failures, failure.kind.1 = t.context.key ∨
      failure.kind.1 ∈ d.failures.map fun failure => failure.kind.1 := by
  obtain ⟨f, hf, hcount, hfailures⟩ := recordFailure_failures d t now effect
  -- the counter exists after the lookup, and a new one adds nothing
  have hlocked : ∃ locked : List ReceiptFailureCounterV2,
      d.failureLocked t.context.key t.stage t.reason =
        (.retained, { d with failures := locked }) ∧
      (t.context.key, t.stage, t.reason) ∈ locked.map ReceiptFailureCounterV2.kind ∧
      (∀ other, failureSum locked other = failureSum d.failures other) ∧
      ∀ failure ∈ locked, failure.kind.1 = t.context.key ∨ failure ∈ d.failures := by
    rw [failureLocked, if_neg (by simp [hrecent])]
    split_ifs with hfound
    · obtain ⟨failure, hfailure, hkind⟩ := List.any_eq_true.mp hfound
      exact ⟨d.failures, rfl, List.mem_map.mpr ⟨failure, hfailure, by simpa using hkind⟩,
        fun _ => rfl, fun failure hfailure => .inr hfailure⟩
    · refine ⟨_, rfl, ?_, fun other => ?_, fun failure hfailure => ?_⟩
      · rw [List.map_append, List.mem_append]
        exact .inr (List.mem_singleton.mpr rfl)
      · rw [failureSum_eq_sum, failureSum_eq_sum, List.map_append, List.sum_append]
        simp
      · rcases List.mem_append.mp hfailure with hfailure | hfailure
        · exact .inr hfailure
        · exact .inl (by rw [List.mem_singleton.mp hfailure]; rfl)
  obtain ⟨locked, heq, hkind, hsum, hkeys⟩ := hlocked
  have hresult : (d.recordFailure t now effect).2.failures =
      Keyed.modify ReceiptFailureCounterV2.kind (t.context.key, t.stage, t.reason) f locked := by
    rw [hfailures, heq]
    rfl
  rw [hresult]
  refine ⟨fun other => ?_, fun failure hfailure => ?_⟩
  · rw [failureSum_modify hf hcount hkind, hsum]
  · have hmem := List.mem_map_of_mem (f := ReceiptFailureCounterV2.kind) hfailure
    rw [map_kind_modify hf, List.mem_map] at hmem
    obtain ⟨before, hbefore, hsame⟩ := hmem
    rw [← hsame]
    rcases hkeys before hbefore with hkey | hbefore
    · exact .inl hkey
    · exact .inr (List.mem_map.mpr ⟨before, hbefore, rfl⟩)

/-! ## Runs -/

/-- The counters agree with the history and the tables are within their limits. -/
structure Consistent (h : AttemptHistory) (d : ReceiptDiagnosticsV2) : Prop where
  tallies : Tallies h d.rounds d.failures
  ids : h.pending.map (·.attemptId) = d.activeAttemptIds
  distinct : d.activeAttemptIds.Nodup
  balance : h.started.Perm (h.completed ++ h.pending)
  inFlight : d.inFlight = d.activeAttemptIds.length
  positive : 1 ≤ d.maxSlotStates
  active_le : d.activeAttemptIds.length ≤ d.maxSlotStates
  slots_le : d.slots.length ≤ d.maxSlotStates
  canonical_le : d.canonicalSlots.length ≤ d.maxSlotStates
  recent_le : d.recentAttempts.length ≤ d.maxRecentAttempts

lemma Consistent.completed_le (hc : Consistent h d) (key : UInt64 × UInt64) :
    countIn h.completed key ≤ countIn h.started key := by
  unfold countIn
  rw [(hc.balance.map _).count_eq, List.map_append, List.count_append]
  exact Nat.le_add_right ..

/-- Nothing but the rounds and the failures has changed. -/
structure SameTables (d d' : ReceiptDiagnosticsV2) : Prop where
  activeAttemptIds : d'.activeAttemptIds = d.activeAttemptIds
  inFlight : d'.inFlight = d.inFlight
  maxRecentAttempts : d'.maxRecentAttempts = d.maxRecentAttempts
  maxSlotStates : d'.maxSlotStates = d.maxSlotStates
  recentAttempts : d'.recentAttempts = d.recentAttempts
  canonicalSlots : d'.canonicalSlots = d.canonicalSlots
  slots : d'.slots = d.slots

lemma Looked.sameTables (hl : Looked key ref d d') : SameTables d d' := by
  rw [hl.others]
  exact ⟨rfl, rfl, rfl, rfl, rfl, rfl, rfl⟩

lemma sameTables_modifyRound (d : ReceiptDiagnosticsV2) (ref : CounterRef)
    (key : UInt64 × UInt64) (f : ReceiptRoundCountersV2 → ReceiptRoundCountersV2) :
    SameTables d (d.modifyRound ref key f) := by
  cases ref <;> exact ⟨rfl, rfl, rfl, rfl, rfl, rfl, rfl⟩

lemma SameTables.trans {d₁ d₂ d₃ : ReceiptDiagnosticsV2} (h₁ : SameTables d₁ d₂)
    (h₂ : SameTables d₂ d₃) : SameTables d₁ d₃ :=
  ⟨h₂.1.trans h₁.1, h₂.2.trans h₁.2, h₂.3.trans h₁.3, h₂.4.trans h₁.4, h₂.5.trans h₁.5,
    h₂.6.trans h₁.6, h₂.7.trans h₁.7⟩

@[simp] lemma modifyRound_failures (d : ReceiptDiagnosticsV2) (ref : CounterRef)
    (key : UInt64 × UInt64) (f : ReceiptRoundCountersV2 → ReceiptRoundCountersV2) :
    (d.modifyRound ref key f).failures = d.failures := by
  cases ref <;> rfl

lemma sameTables_touchRound (d : ReceiptDiagnosticsV2) (key : UInt64 × UInt64)
    (f : ReceiptRoundCountersV2 → ReceiptRoundCountersV2) : SameTables d (d.touchRound key f) :=
  (roundLocked_looked d key).sameTables.trans (sameTables_modifyRound ..)

lemma Tallies.touchRound (ht : Tallies h d.rounds d.failures)
    (hle : ∀ key, countIn h.completed key ≤ countIn h.started key)
    {f : ReceiptRoundCountersV2 → ReceiptRoundCountersV2} (hf : ∀ entry, (f entry).key = entry.key)
    (hexact : ∀ failures entry, Exact h failures entry → Exact h failures (f entry)) :
    Tallies h (d.touchRound key f).rounds (d.touchRound key f).failures := by
  have ht' := ht.roundLocked hle key
  have hl := roundLocked_looked d key
  unfold ReceiptDiagnosticsV2.touchRound
  rw [modifyRound_failures]
  generalize d.roundLocked key = locked at ht' hl
  obtain ⟨ref, d₁⟩ := locked
  cases ref with
  | discarded => exact ht'
  | retained =>
    exact ht'.update hf (fun _ h => .inl h) (hl.retained rfl)
      (fun entry hentry _ => ht'.exact entry hentry)
      (fun entry hentry _ => hexact _ entry (ht'.exact entry hentry)) ht'.failureKeys

lemma Consistent.congr (hc : Consistent h d) (hs : SameTables d d')
    (ht : Tallies h d'.rounds d'.failures) : Consistent h d' where
  tallies := ht
  ids := hc.ids.trans hs.activeAttemptIds.symm
  distinct := by
    rw [hs.activeAttemptIds]
    exact hc.distinct
  balance := hc.balance
  inFlight := by
    rw [hs.inFlight, hs.activeAttemptIds]
    exact hc.inFlight
  positive := hs.maxSlotStates ▸ hc.positive
  active_le := by
    rw [hs.activeAttemptIds, hs.maxSlotStates]
    exact hc.active_le
  slots_le := by
    rw [hs.slots, hs.maxSlotStates]
    exact hc.slots_le
  canonical_le := by
    rw [hs.canonicalSlots, hs.maxSlotStates]
    exact hc.canonical_le
  recent_le := by
    rw [hs.recentAttempts, hs.maxRecentAttempts]
    exact hc.recent_le

lemma Consistent.transportRetry (hc : Consistent h d) (epoch round : UInt64) (relayed : Bool) :
    Consistent h (d.transportRetry epoch round relayed) :=
  hc.congr (sameTables_touchRound ..)
    (hc.tallies.touchRound hc.completed_le (fun _ => rfl)
      fun _ _ h => ⟨h.started, h.completed, h.outcomes, h.failures⟩)

lemma length_pushBounded {α : Type} {l : List α} {n : ℕ} (hn : 1 ≤ n) (hl : l.length ≤ n) (a : α) :
    (pushBounded n l a).length ≤ n := by
  rw [pushBounded, List.length_append, List.length_singleton]
  split_ifs
  · rw [List.length_tail]
    omega
  · omega

lemma Consistent.canonicalInclusion (hc : Consistent h d) (epoch round : UInt64) (slot : Hash) :
    Consistent h (d.canonicalInclusion epoch round slot).2 := by
  unfold ReceiptDiagnosticsV2.canonicalInclusion
  split_ifs with hknown
  · exact hc
  · have hpushed : Consistent h
        { d with canonicalSlots := pushBounded d.maxSlotStates d.canonicalSlots slot } :=
      { hc with canonical_le := length_pushBounded hc.positive hc.canonical_le slot }
    have hcounted := hpushed.congr (sameTables_touchRound _ (epoch, round) fun entry =>
        { entry with canonicalInclusionsObserved := entry.canonicalInclusionsObserved + 1 })
      (hpushed.tallies.touchRound hpushed.completed_le (fun _ => rfl)
        fun _ _ h => ⟨h.started, h.completed, h.outcomes, h.failures⟩)
    exact { hcounted with recent_le := (List.length_map ..).trans_le hcounted.recent_le }

lemma Consistent.started (hc : Consistent h d) (hok : (d.started context).1 = true) :
    Consistent (h.start context) (d.started context).2 := by
  unfold ReceiptDiagnosticsV2.started at hok ⊢
  split_ifs at hok ⊢ with hknown hfull
  have hnew : context.attemptId ∉ d.activeAttemptIds := fun h => hknown (.inr h)
  generalize hd₀ : ({ d with activeAttemptIds := d.activeAttemptIds ++ [context.attemptId] } :
    ReceiptDiagnosticsV2) = d₀
  have htables : Tallies h d₀.rounds d₀.failures := by
    rw [← hd₀]
    exact hc.tallies
  have hs := sameTables_touchRound d₀ context.key fun entry =>
    { entry with attemptsStarted := entry.attemptsStarted + 1 }
  have hactive : d₀.activeAttemptIds = d.activeAttemptIds ++ [context.attemptId] := by rw [← hd₀]
  have ht' := htables.roundLocked hc.completed_le context.key
  have hl := roundLocked_looked d₀ context.key
  have ht := ht'.start hl.retained hl.discarded
  exact {
    tallies := by
      rw [show (d₀.touchRound context.key fun entry =>
        { entry with attemptsStarted := entry.attemptsStarted + 1 }).failures =
        (d₀.roundLocked context.key).2.failures from modifyRound_failures ..]
      exact ht
    ids := by
      rw [show (h.start context).pending = h.pending ++ [context] from rfl, List.map_append,
        hc.ids, hs.activeAttemptIds, hactive]
      rfl
    distinct := by
      rw [hs.activeAttemptIds, hactive]
      exact List.Nodup.append hc.distinct (List.nodup_singleton _) (by simpa using hnew)
    balance := by
      refine (hc.balance.append_right [context]).trans ?_
      rw [List.append_assoc]
      rfl
    inFlight := rfl
    positive := by
      rw [hs.maxSlotStates, ← hd₀]
      exact hc.positive
    active_le := by
      rw [hs.activeAttemptIds, hs.maxSlotStates, hactive, ← hd₀, List.length_append,
        List.length_singleton]
      exact Nat.not_le.mp hfull
    slots_le := by
      rw [hs.slots, hs.maxSlotStates, ← hd₀]
      exact hc.slots_le
    canonical_le := by
      rw [hs.canonicalSlots, hs.maxSlotStates, ← hd₀]
      exact hc.canonical_le
    recent_le := by
      rw [hs.recentAttempts, hs.maxRecentAttempts, ← hd₀]
      exact hc.recent_le }

lemma slotLocked_eq (d : ReceiptDiagnosticsV2) (slot : Hash) :
    d.slotLocked slot = { d with slots := (d.slotLocked slot).slots } := by
  unfold slotLocked
  split_ifs <;> rfl

lemma length_slotLocked (hpositive : 1 ≤ d.maxSlotStates) (hle : d.slots.length ≤ d.maxSlotStates)
    (slot : Hash) : (d.slotLocked slot).slots.length ≤ d.maxSlotStates := by
  unfold slotLocked
  split_ifs
  · exact hle
  · exact length_pushBounded hpositive hle _

/-- The rounds after `touchRound`, for a round that is kept and for an outdated one. -/
lemma touchRound_rounds (d : ReceiptDiagnosticsV2) (key : UInt64 × UInt64)
    (f : ReceiptRoundCountersV2 → ReceiptRoundCountersV2) :
    (key ∈ (d.roundLocked key).2.rounds.map ReceiptRoundCountersV2.key ∧
      (d.touchRound key f).rounds =
        Keyed.modify ReceiptRoundCountersV2.key key f (d.roundLocked key).2.rounds) ∨
    (Outdated ((d.roundLocked key).2.rounds.map ReceiptRoundCountersV2.key) key.1 ∧
      (d.touchRound key f).rounds = (d.roundLocked key).2.rounds) := by
  have hl := roundLocked_looked d key
  unfold touchRound
  generalize d.roundLocked key = locked at hl
  obtain ⟨ref, d₁⟩ := locked
  cases ref with
  | retained => exact .inl ⟨hl.retained rfl, rfl⟩
  | discarded => exact .inr ⟨hl.discarded rfl, rfl⟩

lemma Tallies.terminal (ht : Tallies h d.rounds d.failures)
    (hle : ∀ key, countIn h.completed key ≤ countIn h.started key)
    (hmem : t.context ∈ h.pending)
    (hrounds : d'.rounds = (d.touchRound t.context.key (countTerminal t)).rounds)
    (hfailures : d'.failures = (d.touchRound t.context.key (countTerminal t)).failures)
    (now : UInt64) (effect : ReceiptDiagnosticEffectV2) :
    Tallies (h.complete t.context) d'.rounds
      (if t.outcome = .success then d'.failures
        else (d'.recordFailure t now effect).2.failures) := by
  have ht' := ht.roundLocked hle t.context.key
  have hfailures : d'.failures = (d.roundLocked t.context.key).2.failures :=
    hfailures.trans (modifyRound_failures ..)
  rcases touchRound_rounds d t.context.key (countTerminal t) with ⟨hkey, heq⟩ | ⟨hold, heq⟩
  · have hkeys : d'.rounds.map ReceiptRoundCountersV2.key =
        (d.roundLocked t.context.key).2.rounds.map ReceiptRoundCountersV2.key := by
      rw [hrounds, heq]
      exact Keyed.map_key_modify (countTerminal_key t)
    -- a round that is kept is not outdated, so the failure is counted as well
    have hrecent : d'.outdated t.context.key.1 = false := by
      rw [Bool.eq_false_iff, ne_eq, outdated_iff, hkeys]
      obtain ⟨entry, hentry, hsame⟩ := List.mem_map.mp hkey
      have hepoch : entry.epoch = t.context.key.1 := congrArg Prod.fst hsame
      rw [← hepoch]
      exact ht'.window entry hentry
    rw [hrounds, heq]
    split_ifs with hsuccess
    · refine ht'.complete hmem hkey (fun other => ?_) fun failure hfailure => ?_
      · rw [hfailures, if_neg fun h => h.2 hsuccess, add_zero]
      · exact ht'.failureKeys failure (hfailures ▸ hfailure)
    · obtain ⟨hsum, hkinds⟩ := recordFailure_recent now hrecent effect
      refine ht'.complete hmem hkey (fun other => ?_) fun failure hfailure => ?_
      · rw [hsum, hfailures]
        simp only [hsuccess, ne_eq, not_false_eq_true, and_true]
      · rcases hkinds failure hfailure with hsame | hbefore
        · rw [hsame]
          exact hkey
        · obtain ⟨before, hbefore, hsame⟩ := List.mem_map.mp hbefore
          rw [← hsame]
          exact ht'.failureKeys before (hfailures ▸ hbefore)
  · have hold' : d'.outdated t.context.key.1 = true := by
      rw [outdated_iff, hrounds, heq]
      exact hold
    have hsame : (if t.outcome = .success then d'.failures
        else (d'.recordFailure t now effect).2.failures) = d'.failures := by
      split_ifs
      · rfl
      · exact recordFailure_outdated now hold' effect
    rw [hsame, hrounds, heq, hfailures]
    have hstarted : (h.complete t.context).started = h.started := by
      rw [AttemptHistory.complete, if_pos hmem]
    refine ht'.discard hold (fun other hother => .inl (hstarted ▸ hother)) fun other hne => ?_
    rw [hstarted, countIn_complete hmem, if_neg hne.symm]
    exact ⟨rfl, rfl⟩

/-- What the first part of `terminal` does to everything but the failures of the round. -/
structure Ended (t : ReceiptAttemptTerminalV2) (d d' : ReceiptDiagnosticsV2) : Prop where
  activeAttemptIds : d'.activeAttemptIds = d.activeAttemptIds.erase t.context.attemptId
  inFlight : d'.inFlight = d'.activeAttemptIds.length
  maxRecentAttempts : d'.maxRecentAttempts = d.maxRecentAttempts
  maxSlotStates : d'.maxSlotStates = d.maxSlotStates
  recentAttempts : d'.recentAttempts = d.recentAttempts
  canonicalSlots : d'.canonicalSlots = d.canonicalSlots
  slots_le : d'.slots.length ≤ d.maxSlotStates

lemma Consistent.countAttempt (hc : Consistent h d) (t : ReceiptAttemptTerminalV2) :
    Ended t d (d.countAttempt t) := by
  have hs := sameTables_touchRound
    { d with activeAttemptIds := d.activeAttemptIds.erase t.context.attemptId } t.context.key
    (countTerminal t)
  unfold ReceiptDiagnosticsV2.countAttempt
  dsimp only
  generalize ReceiptDiagnosticsV2.touchRound _ t.context.key (countTerminal t) = d₁ at hs
  obtain ⟨hactive, -, hmaxRecent, hmaxSlots, hrecent, hcanonical, hslots⟩ := hs
  have hlength := length_slotLocked (d := { d₁ with inFlight := d₁.activeAttemptIds.length })
    (by rw [hmaxSlots]; exact hc.positive) (by rw [hslots, hmaxSlots]; exact hc.slots_le)
    t.context.slot
  rw [slotLocked_eq]
  exact ⟨hactive, rfl, hmaxRecent, hmaxSlots, hrecent, hcanonical, hmaxSlots ▸ hlength⟩

lemma pushRecent_eq (d : ReceiptDiagnosticsV2) (t : ReceiptAttemptTerminalV2) :
    d.pushRecent t = { d with recentAttempts := (d.pushRecent t).recentAttempts } := by
  unfold pushRecent
  split_ifs <;> rfl

lemma length_pushRecent (hle : d.recentAttempts.length ≤ d.maxRecentAttempts) :
    (d.pushRecent t).recentAttempts.length ≤ d.maxRecentAttempts := by
  unfold pushRecent
  split_ifs with hzero
  · exact length_pushBounded (Nat.one_le_iff_ne_zero.mpr hzero) hle t
  · exact hle

lemma map_attemptId_erase {pending : List ReceiptAttemptContextV2} (hmem : context ∈ pending)
    (hnodup : (pending.map (·.attemptId)).Nodup) :
    (pending.erase context).map (·.attemptId) =
      (pending.map (·.attemptId)).erase context.attemptId := by
  induction pending with
  | nil => simp at hmem
  | cons first pending ih =>
    by_cases hfirst : first = context
    · subst hfirst
      rw [List.erase_cons_head, List.map_cons, List.erase_cons_head]
    · have hrest : context ∈ pending := (List.mem_cons.mp hmem).resolve_left (Ne.symm hfirst)
      obtain ⟨hnew, hnodup⟩ := List.nodup_cons.mp hnodup
      have hid : first.attemptId ≠ context.attemptId := fun heq =>
        hnew (List.mem_map.mpr ⟨context, hrest, heq.symm⟩)
      rw [List.erase_cons_tail (by simpa using hfirst), List.map_cons, ih hrest hnodup,
        List.map_cons, List.erase_cons_tail (by simpa using hid)]

/-- `terminal` for an attempt in flight: it is counted, its outcome recorded, and it is kept among
the recent ones. -/
lemma terminal_of_active (hactive : t.context.attemptId ∈ d.activeAttemptIds) (now : UInt64) :
    ∃ recorded, (d.terminal t now).2 = recorded.pushRecent t ∧
      Aside (d.countAttempt t) recorded ∧
      recorded.failures = if t.outcome = .success then (d.countAttempt t).failures
        else ((d.countAttempt t).recordFailure t now { terminalRecorded := true }).2.failures := by
  rw [terminal, if_neg (not_not.mpr hactive)]
  by_cases hsuccess : t.outcome = .success
  · simp only [hsuccess, if_true]
    exact ⟨_, rfl, aside_recordSuccess .., rfl⟩
  · simp only [hsuccess, if_false]
    exact ⟨_, rfl, aside_recordFailure .., rfl⟩

/-- An attempt that ends is counted once, and one that is not in flight is ignored. -/
lemma Consistent.terminal (hc : Consistent h d) (now : UInt64)
    (hcontext : ∀ started ∈ h.pending, started.attemptId = t.context.attemptId →
      t.context = started) :
    Consistent (h.complete t.context) (d.terminal t now).2 := by
  by_cases hactive : t.context.attemptId ∈ d.activeAttemptIds
  · obtain ⟨recorded, heq, hs, hfailures⟩ := terminal_of_active hactive now
    have hids := hc.ids
    obtain ⟨started, hstarted, hid⟩ := List.mem_map.mp (hids ▸ hactive)
    have hmem : t.context ∈ h.pending := by
      rw [hcontext started hstarted hid]
      exact hstarted
    have hended := hc.countAttempt t
    obtain ⟨taken, htaken⟩ : ∃ taken : ReceiptDiagnosticsV2, taken = { d with
        activeAttemptIds := d.activeAttemptIds.erase t.context.attemptId } := ⟨_, rfl⟩
    have htables : Tallies h taken.rounds taken.failures := by
      rw [htaken]
      exact hc.tallies
    have htouched : (d.countAttempt t).rounds =
          (taken.touchRound t.context.key (countTerminal t)).rounds ∧
        (d.countAttempt t).failures =
          (taken.touchRound t.context.key (countTerminal t)).failures := by
      unfold ReceiptDiagnosticsV2.countAttempt
      rw [slotLocked_eq, htaken]
      exact ⟨rfl, rfl⟩
    have htallies := htables.terminal hc.completed_le hmem htouched.1 htouched.2 now
      { terminalRecorded := true }
    rw [← hfailures, ← hs.rounds] at htallies
    have hactiveIds : recorded.activeAttemptIds =
        d.activeAttemptIds.erase t.context.attemptId :=
      hs.activeAttemptIds.trans hended.activeAttemptIds
    have hmaxSlots : recorded.maxSlotStates = d.maxSlotStates :=
      hs.maxSlotStates.trans hended.maxSlotStates
    have hcomplete : h.complete t.context = { h with
        completed := h.completed ++ [t.context], pending := h.pending.erase t.context } := by
      rw [AttemptHistory.complete, if_pos hmem]
    rw [heq, pushRecent_eq]
    exact {
      tallies := htallies
      ids := by
        rw [hcomplete, map_attemptId_erase hmem (hids ▸ hc.distinct), hids]
        exact hactiveIds.symm
      distinct := by
        rw [hactiveIds]
        exact hc.distinct.erase _
      balance := by
        rw [hcomplete]
        refine hc.balance.trans (((List.perm_cons_erase hmem).append_left _).trans ?_)
        rw [List.append_assoc]
        rfl
      inFlight := by
        rw [hs.inFlight, hended.inFlight, hs.activeAttemptIds]
      positive := hmaxSlots ▸ hc.positive
      active_le := by
        rw [hactiveIds, hmaxSlots]
        exact (List.length_erase_le ..).trans hc.active_le
      slots_le := by
        rw [hs.slots, hmaxSlots]
        exact hended.slots_le
      canonical_le := by
        rw [hs.canonicalSlots, hended.canonicalSlots, hmaxSlots]
        exact hc.canonical_le
      recent_le := by
        refine length_pushRecent ?_
        rw [hs.recentAttempts, hended.recentAttempts, hs.maxRecentAttempts,
          hended.maxRecentAttempts]
        exact hc.recent_le }
  · have hnot : t.context ∉ h.pending := fun hmem =>
      hactive (hc.ids ▸ List.mem_map_of_mem hmem)
    rw [AttemptHistory.complete, if_neg hnot, ReceiptDiagnosticsV2.terminal, if_pos hactive]
    exact hc

lemma Consistent.new (maxRecentAttempts maxSlotStates : ℕ)
    (repeatedWarningIntervalMs resetUtcMs utcMilliseconds : UInt64) :
    Consistent {} (ReceiptDiagnosticsV2.new maxRecentAttempts maxSlotStates
      repeatedWarningIntervalMs resetUtcMs utcMilliseconds) where
  tallies := ⟨List.nodup_nil, nofun, nofun, nofun, nofun⟩
  ids := rfl
  distinct := List.nodup_nil
  balance := List.Perm.refl _
  inFlight := rfl
  positive := le_max_left ..
  active_le := Nat.zero_le _
  slots_le := Nat.zero_le _
  canonical_le := Nat.zero_le _
  recent_le := Nat.zero_le _

/-- One call, together with what it means for the attempts.  An attempt in flight ends with the
context it was started with. -/
inductive Step :
    AttemptHistory × ReceiptDiagnosticsV2 → AttemptHistory × ReceiptDiagnosticsV2 → Prop
  | takeAttemptId (h : AttemptHistory) (d : ReceiptDiagnosticsV2) :
      Step (h, d) (h, d.takeAttemptId.2)
  | started (h : AttemptHistory) (d : ReceiptDiagnosticsV2) (context : ReceiptAttemptContextV2) :
      Step (h, d)
        (if (d.started context).1 then h.start context else h, (d.started context).2)
  | terminal (h : AttemptHistory) (d : ReceiptDiagnosticsV2) (t : ReceiptAttemptTerminalV2)
      (warningNowSteadyMs : UInt64) :
      (∀ started ∈ h.pending, started.attemptId = t.context.attemptId → t.context = started) →
      Step (h, d) (h.complete t.context, (d.terminal t warningNowSteadyMs).2)
  | canonicalInclusion (h : AttemptHistory) (d : ReceiptDiagnosticsV2) (epoch round : UInt64)
      (slot : Hash) : Step (h, d) (h, (d.canonicalInclusion epoch round slot).2)
  | transportRetry (h : AttemptHistory) (d : ReceiptDiagnosticsV2) (epoch round : UInt64)
      (relayed : Bool) : Step (h, d) (h, d.transportRetry epoch round relayed)
  | skipped (h : AttemptHistory) (d : ReceiptDiagnosticsV2) (reason : ReceiptSchedulerSkipV2) :
      Step (h, d) (h, d.skipped reason)

variable {s s' s'' : AttemptHistory × ReceiptDiagnosticsV2}

lemma started_of_refused (hrefused : ¬(d.started context).1 = true) :
    (d.started context).2 = d := by
  unfold started at hrefused ⊢
  split_ifs at hrefused ⊢ with hknown hfull
  · rfl
  · rfl
  · exact absurd rfl hrefused

lemma Consistent.step (hc : Consistent s.1 s.2) (hstep : Step s s') :
    Consistent s'.1 s'.2 := by
  cases hstep with
  | takeAttemptId h d =>
    unfold takeAttemptId
    dsimp only
    split_ifs
    · exact { hc with }
    · exact hc
  | started h d context =>
    split_ifs with hok
    · exact Consistent.started hc hok
    · rw [started_of_refused hok]
      exact hc
  | terminal h d t now hcontext => exact Consistent.terminal hc now hcontext
  | canonicalInclusion h d epoch round slot => exact Consistent.canonicalInclusion hc ..
  | transportRetry h d epoch round relayed => exact Consistent.transportRetry hc ..
  | skipped h d reason =>
    unfold skipped
    split_ifs <;> exact { hc with }

/-- Whatever is kept stays kept or becomes outdated, and what is outdated stays outdated. -/
structure Onward (keys keys' : List (UInt64 × UInt64)) : Prop where
  kept : ∀ key ∈ keys, key ∈ keys' ∨ Outdated keys' key.1
  mono : ∀ epoch, Outdated keys epoch → Outdated keys' epoch

lemma Onward.refl (keys : List (UInt64 × UInt64)) : Onward keys keys :=
  ⟨fun _ hkey => .inl hkey, fun _ hold => hold⟩

lemma Onward.trans {keys₁ keys₂ keys₃ : List (UInt64 × UInt64)} (h₁ : Onward keys₁ keys₂)
    (h₂ : Onward keys₂ keys₃) : Onward keys₁ keys₃ := by
  refine ⟨fun key hkey => ?_, fun epoch hold => h₂.mono epoch (h₁.mono epoch hold)⟩
  rcases h₁.kept key hkey with hkey | hold
  · exact h₂.kept key hkey
  · exact .inr (h₂.mono _ hold)

lemma onward_touchRound {rounds : List ReceiptRoundCountersV2}
    {f : ReceiptRoundCountersV2 → ReceiptRoundCountersV2} (hrounds : d.rounds = rounds)
    (hf : ∀ entry, (f entry).key = entry.key) :
    Onward (rounds.map ReceiptRoundCountersV2.key)
      ((d.touchRound key f).rounds.map ReceiptRoundCountersV2.key) := by
  subst hrounds
  have hl := roundLocked_looked d key
  have hkeys : (d.touchRound key f).rounds.map ReceiptRoundCountersV2.key =
      (d.roundLocked key).2.rounds.map ReceiptRoundCountersV2.key := by
    rcases touchRound_rounds d key f with ⟨-, heq⟩ | ⟨-, heq⟩
    · rw [heq]
      exact Keyed.map_key_modify hf
    · rw [heq]
  rw [hkeys]
  refine ⟨fun kept hkept => ?_, hl.mono⟩
  obtain ⟨entry, hentry, rfl⟩ := List.mem_map.mp hkept
  exact hl.kept entry hentry

lemma onward_step (hstep : Step s s') : Onward (s.2.rounds.map ReceiptRoundCountersV2.key)
    (s'.2.rounds.map ReceiptRoundCountersV2.key) := by
  cases hstep with
  | takeAttemptId h d =>
    unfold takeAttemptId
    dsimp only
    split_ifs <;> exact .refl _
  | started h d context =>
    dsimp only
    unfold started
    split_ifs
    · exact .refl _
    · exact .refl _
    · dsimp only
      exact onward_touchRound rfl fun _ => rfl
  | terminal h d t now _ =>
    by_cases hactive : t.context.attemptId ∈ d.activeAttemptIds
    · obtain ⟨recorded, heq, hs, -⟩ := terminal_of_active hactive now
      have hrounds : (d.terminal t now).2.rounds = (d.countAttempt t).rounds := by
        rw [heq, pushRecent_eq]
        exact hs.rounds
      dsimp only
      rw [hrounds]
      unfold countAttempt
      rw [slotLocked_eq]
      dsimp only
      exact onward_touchRound rfl (countTerminal_key t)
    · dsimp only
      rw [terminal, if_pos hactive]
      exact .refl _
  | canonicalInclusion h d epoch round slot =>
    unfold canonicalInclusion
    split_ifs
    · exact .refl _
    · dsimp only
      exact onward_touchRound rfl fun _ => rfl
  | transportRetry h d epoch round relayed =>
    unfold transportRetry
    exact onward_touchRound rfl fun _ => rfl
  | skipped h d reason =>
    unfold skipped
    split_ifs <;> exact .refl _

open Relation

lemma Consistent.run (hc : Consistent s.1 s.2) (hrun : ReflTransGen Step s s') :
    Consistent s'.1 s'.2 := by
  induction hrun with
  | refl => exact hc
  | tail _ hstep ih => exact ih.step hstep

lemma onward_run (hrun : ReflTransGen Step s s') :
    Onward (s.2.rounds.map ReceiptRoundCountersV2.key)
      (s'.2.rounds.map ReceiptRoundCountersV2.key) := by
  induction hrun with
  | refl => exact .refl _
  | tail _ hstep ih => exact ih.trans (onward_step hstep)

lemma Consistent.evicted (hc : Consistent s.1 s.2) (hrun : ReflTransGen Step s s')
    (hrun' : ReflTransGen Step s' s'') (hkey : key ∈ s.2.rounds.map ReceiptRoundCountersV2.key)
    (hgone : key ∉ s'.2.rounds.map ReceiptRoundCountersV2.key) :
    key ∉ s''.2.rounds.map ReceiptRoundCountersV2.key := by
  intro hback
  have hold : Outdated (s'.2.rounds.map ReceiptRoundCountersV2.key) key.1 :=
    ((onward_run hrun).kept key hkey).resolve_left hgone
  obtain ⟨entry, hentry, rfl⟩ := List.mem_map.mp hback
  exact ((hc.run hrun).run hrun').tallies.window entry hentry ((onward_run hrun').mono _ hold)

/-- **The counters of receipt attempts are consistent and bounded.**  In every run in which an
attempt in flight ends with the context it was started with: the counters of a round that is kept
are the numbers of its attempts that were started and that ended, as 64-bit numbers; those that
ended are at most those that were started, are split into the four outcomes, and the failures
counted for the round are all but the successes; the number in flight is the number of attempts
that were started and have not ended; all epochs kept are within three of each other; a round that
was dropped does not come back; and every table is within its limit. -/
theorem receipt_counters_consistent (maxRecentAttempts maxSlotStates : ℕ)
    (repeatedWarningIntervalMs resetUtcMs utcMilliseconds : UInt64)
    (hrun : ReflTransGen Step ({}, new maxRecentAttempts maxSlotStates
      repeatedWarningIntervalMs resetUtcMs utcMilliseconds) (h, d)) :
    (∀ entry ∈ d.rounds,
      (entry.attemptsStarted = UInt64.ofNat (countIn h.started entry.key) ∧
        entry.attemptsCompleted = UInt64.ofNat (countIn h.completed entry.key) ∧
        countIn h.completed entry.key ≤ countIn h.started entry.key ∧
        (countIn h.started entry.key < 2 ^ 64 →
          entry.attemptsCompleted ≤ entry.attemptsStarted)) ∧
      entry.attemptsCompleted = entry.attemptsSucceeded + entry.attemptsFailed +
        entry.attemptsCancelled + entry.attemptsExpired ∧
      failureSum d.failures entry.key =
        entry.attemptsFailed + entry.attemptsCancelled + entry.attemptsExpired) ∧
    (d.inFlight = h.pending.length ∧ (h.pending.map (·.attemptId)).Nodup ∧
      h.started.Perm (h.completed ++ h.pending)) ∧
    (∀ entry ∈ d.rounds, ∀ newest ∈ d.rounds,
      newest.epoch.toNat ≤ entry.epoch.toNat + 3) ∧
    (∀ s' s'', ReflTransGen Step (h, d) s' → ReflTransGen Step s' s'' →
      ∀ entry ∈ d.rounds, entry.key ∉ s'.2.rounds.map ReceiptRoundCountersV2.key →
        entry.key ∉ s''.2.rounds.map ReceiptRoundCountersV2.key) ∧
    d.recentAttempts.length ≤ d.maxRecentAttempts ∧ d.slots.length ≤ d.maxSlotStates ∧
      d.canonicalSlots.length ≤ d.maxSlotStates ∧
      d.activeAttemptIds.length ≤ d.maxSlotStates := by
  have hc : Consistent h d := (Consistent.new ..).run hrun
  refine ⟨fun entry hentry => ?_, ⟨?_, ?_, hc.balance⟩, fun entry hentry newest hnewest => ?_,
    fun s' s'' hrun' hrun'' entry hentry => ?_, hc.recent_le, hc.slots_le, hc.canonical_le,
    hc.active_le⟩
  · obtain ⟨started, completed, outcomes, hfailures⟩ := hc.tallies.exact entry hentry
    have hle := hc.completed_le entry.key
    refine ⟨⟨started, completed, hle, fun hfits => ?_⟩, outcomes, hfailures⟩
    rw [started, completed, UInt64.le_iff_toNat_le, UInt64.toNat_ofNat_of_lt' hfits,
      UInt64.toNat_ofNat_of_lt' (hle.trans_lt hfits)]
    exact hle
  · rw [hc.inFlight, ← hc.ids, List.length_map]
  · rw [hc.ids]
    exact hc.distinct
  · by_contra hfar
    exact hc.tallies.window entry hentry
      ⟨newest.key, List.mem_map_of_mem hnewest, Nat.not_le.mp hfar⟩
  · exact Consistent.evicted (s := (h, d)) hc hrun' hrun'' (List.mem_map_of_mem hentry)

/-- One attempt of an epoch fails, and one is started seven epochs later. -/
theorem receipt_counters_consistent_sample :
    let old : ReceiptAttemptContextV2 := { attemptId := 1, epoch := 5, round := 0 }
    let fresh : ReceiptAttemptContextV2 := { attemptId := 2, epoch := 12, round := 0 }
    let ended : ReceiptAttemptTerminalV2 :=
      { context := old, stage := .networkConnect, reason := .transportTimeout }
    let d := ((((new 4 4 0 1 0).started old).2.terminal ended 9).2.started fresh).2
    d.rounds.map ReceiptRoundCountersV2.key = [fresh.key] ∧ d.inFlight = 1 ∧
      ∀ entry ∈ d.rounds, failureSum d.failures entry.key =
        entry.attemptsFailed + entry.attemptsCancelled + entry.attemptsExpired := by
  intro old fresh ended d
  have hrun := ((ReflTransGen.single (Step.started {} (new 4 4 0 1 0) old)).tail
    (Step.terminal _ _ ended 9 (by decide +kernel))).tail (Step.started _ _ fresh)
  obtain ⟨hrounds, ⟨hflight, -⟩, -⟩ := receipt_counters_consistent 4 4 0 1 0 hrun
  refine ⟨by decide +kernel, ?_, fun entry hentry => (hrounds entry hentry).2.2⟩
  rw [hflight]
  decide +kernel

end ReceiptDiagnosticsV2

end Qwertycoin
