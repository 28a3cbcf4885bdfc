import Qwertycoin.Replay
import Qwertycoin.Atomicity

/-
# Runs of the coordinator

The coordinator connects blocks and disconnects the newest one.  Whether a block connects, and
what it leads to, depends on the state and the tip only, not on the undo stack; and a run of the
coordinator is a run of the block transition, whose invariants it inherits.
-/

namespace Qwertycoin

namespace ConsensusCoordinatorV2

open BlockTransitionV2 (stepCore stepCore_eq_some_iff applyBlock_eq_stepCore)

variable (cr : Crypto) (p : ConsensusParametersV2)

/-- The chain and the coordinator after a run of accepted calls from the fresh object. -/
inductive Runs : List CoordinatorBlockV2 → BlockTransitionV2 → Prop
  | fresh : Runs [] {}
  | connect {chain t contexts block result} : Runs chain t →
      (connectBlock cr p contexts t block).2 = .ok result →
      Runs (chain ++ [block]) (connectBlock cr p contexts t block).1
  | disconnect {chain t height} : Runs chain t → (disconnectTip p t height).2 = .accepted →
      Runs chain.dropLast (disconnectTip p t height).1

/-- A block connects one core to the next: its payment is in order and it is applied. -/
def Connects (contexts : CanonicalContextSourceV2) (block : CoordinatorBlockV2)
    (core core' : TransitionCoreV2) : Prop :=
  ∃ coinbase plan validated signatures entry,
    preparePayment cr p contexts core.state block = .ok (coinbase, plan, validated, signatures) ∧
      stepCore cr p.toTransitionParametersV2 (contexts, transitionInput block coinbase validated)
        core = some (core', entry)

variable {cr p} {contexts : CanonicalContextSourceV2} {block : CoordinatorBlockV2}
  {chain : List CoordinatorBlockV2} {t : BlockTransitionV2} {core core' : TransitionCoreV2}

lemma connectBlock_ok {result : CoordinatorResultV2}
    (h : (connectBlock cr p contexts t block).2 = .ok result) :
    ∃ coinbase plan validated signatures,
      preparePayment cr p contexts t.state block = .ok (coinbase, plan, validated, signatures) ∧
      (t.applyBlock cr p.toTransitionParametersV2 contexts
        (transitionInput block coinbase validated)).status = .accepted ∧
      (connectBlock cr p contexts t block).1 = (t.applyBlock cr p.toTransitionParametersV2 contexts
        (transitionInput block coinbase validated)).transition := by
  cases hprepare : preparePayment cr p contexts t.state block with
  | error status =>
    rw [connectBlock_of_error hprepare] at h
    cases h
  | ok prepared =>
    obtain ⟨coinbase, plan, validated, signatures⟩ := prepared
    by_cases happly : (t.applyBlock cr p.toTransitionParametersV2 contexts
        (transitionInput block coinbase validated)).status = .accepted
    · obtain ⟨_, hconnect⟩ := connectBlock_of_applied hprepare happly
      exact ⟨coinbase, plan, validated, signatures, rfl, happly, by rw [hconnect]⟩
    · rw [connectBlock_of_prepared hprepare] at h
      unfold settleBlock at h
      rw [if_pos happly] at h
      cases h

lemma connects_of_connectBlock {result : CoordinatorResultV2}
    (h : (connectBlock cr p contexts t block).2 = .ok result) :
    Connects cr p contexts block t.toTransitionCoreV2
      (connectBlock cr p contexts t block).1.toTransitionCoreV2 := by
  obtain ⟨coinbase, plan, validated, signatures, hprepare, happly, htransition⟩ :=
    connectBlock_ok h
  obtain ⟨entry, hstep, -⟩ := applyBlock_eq_stepCore happly
  exact ⟨coinbase, plan, validated, signatures, entry, hprepare, by rw [htransition, hstep]⟩

lemma connects_of_toBool
    (h : (connectBlock cr p contexts ⟨core, []⟩ block).2.toBool = true) :
    Connects cr p contexts block core
      (connectBlock cr p contexts ⟨core, []⟩ block).1.toTransitionCoreV2 := by
  cases hok : (connectBlock cr p contexts ⟨core, []⟩ block).2 with
  | error status =>
    rw [hok] at h
    cases h
  | ok result => exact connects_of_connectBlock (t := ⟨core, []⟩) hok

/-- A block that connects two cores is accepted on top of every undo stack. -/
lemma Connects.connectBlock_ok (h : Connects cr p contexts block t.toTransitionCoreV2 core') :
    ∃ result, (connectBlock cr p contexts t block).2 = .ok result ∧
      (connectBlock cr p contexts t block).1.toTransitionCoreV2 = core' := by
  obtain ⟨coinbase, plan, validated, signatures, entry, hprepare, hstep⟩ := h
  obtain ⟨parsed, summary, w₁, w₂, w₃, hblock, rfl, -⟩ := stepCore_eq_some_iff.mp hstep
  have happly := hblock.applyBlock_eq t.undo
  obtain ⟨result, hconnect⟩ := connectBlock_of_applied hprepare (by rw [happly])
  refine ⟨result, by rw [hconnect], ?_⟩
  rw [hconnect, happly]

lemma Runs.extend (h : Runs cr p chain t)
    (hconnects : Connects cr p contexts block t.toTransitionCoreV2 core') :
    ∃ t', Runs cr p (chain ++ [block]) t' ∧ t'.toTransitionCoreV2 = core' := by
  obtain ⟨result, hok, hcore⟩ := hconnects.connectBlock_ok
  exact ⟨_, h.connect hok, hcore⟩

lemma Runs.transition (h : Runs cr p chain t) :
    ∃ inputs, BlockTransitionV2.Runs cr p.toTransitionParametersV2 (fun _ _ => True) inputs t := by
  induction h with
  | fresh => exact ⟨[], .fresh⟩
  | connect _ hok ih =>
    obtain ⟨inputs, hruns⟩ := ih
    obtain ⟨coinbase, plan, validated, signatures, -, happly, htransition⟩ := connectBlock_ok hok
    rw [htransition]
    exact ⟨_, hruns.apply trivial happly⟩
  | disconnect _ hacc ih =>
    obtain ⟨inputs, hruns⟩ := ih
    exact ⟨_, hruns.disconnect hacc⟩

end ConsensusCoordinatorV2

/-! ## A concrete run

Two operators register and are admitted to epoch 1 by the second block, the third block is the
anchor that freezes them, each confirms the other when epoch 1 begins, and the block after that is
the evidence deadline.  With epochs of three blocks these are the heights 1, 2, 3 and 4. -/

open Bytes

def ConsensusParametersV2.sample (epochLength : UInt64) : ConsensusParametersV2 where
  toTransitionParametersV2 := .sampleOf epochLength
  emptyPolicy := .minerFallback
  serviceRewardBps := eposeServiceRewardBpsV2
  stateCommitmentSchema := 1

def Transaction.sampleCoinbase (height : UInt64) (vout : List TxOut) (extra : List UInt8) :
    Transaction where
  version := 2
  unlockTime := 0
  vin := [.gen height.toNat]
  vout := vout
  extra := extra
  signatures := []

def CoordinatorBlockV2.sample (height scheduledSubsidy : UInt64) (coinbase : Transaction) :
    CoordinatorBlockV2 where
  majorVersion := hfVersionQwcEpose
  height := height
  blockHash := Block.ofNat 32 (height.toNat + 1)
  parentHash := Block.ofNat 32 height.toNat
  scheduledSubsidy := scheduledSubsidy
  transactionFees := 0
  coinbase := some coinbase
  transactions := []

/-- A block that carries nothing and pays nothing. -/
def CoordinatorBlockV2.idle (height : UInt64) : CoordinatorBlockV2 :=
  .sample height 0 (.sampleCoinbase height [] [])

/-- The lease of operator `k` for epoch 1. -/
def AdmissionLeaseV2.sample (k : ℕ) : AdmissionLeaseV2 :=
  let lease : AdmissionLeaseV2 :=
    { member := (IdentityDescriptorV2.sample k 0 1 9).member .sample .sample
      targetEpoch := 1, workAlgorithm := 1, leadingZeroBits := 1, admissionContextHeight := 0
      admissionContextHash := Block.ofNat 32 1, nonce := 0, workHash := nullHash
      leaseHash := nullHash }
  { lease with
    leaseHash := calculateAdmissionLeaseHashV2 .sample lease ⟨.sample, 0, Block.ofNat 32 1⟩ }

/-- The receipt of a subject from a verifier in epoch 1. -/
def AuthenticatedServiceReceiptV2.sample (snapshotHash : Hash) (subject verifier : ℕ) :
    AuthenticatedServiceReceiptV2 :=
  let receipt : AuthenticatedServiceReceiptV2 :=
    { challenge :=
        { version := eposeProtocolVersionV2, serviceKind := serviceKindCanonicalObject
          epoch := 1, round := 0, snapshotHash, anchorHash := Block.ofNat 32 3
          subjectPublicKey := sampleKey (10 + subject)
          verifierPublicKey := sampleKey (10 + verifier)
          endpointDescriptorHash := sampleKey 7, nonce := sampleKey 8
          requestedObjectHash := sampleKey 9 }
      responseObjectHash := sampleKey 9
      subjectSignature := Block.zero 64, verifierSignature := Block.zero 64 }
  let sign (message : Hash) (key : PublicKey) := Crypto.sample.generateSignature message key key
  let answered := { receipt with
    subjectSignature := sign (hashSubjectResponseV2 .sample .sample receipt)
      receipt.challenge.subjectPublicKey }
  { answered with
    verifierSignature := sign (hashAuthenticatedServiceReceiptV2 .sample .sample answered)
      receipt.challenge.verifierPublicKey }

def sampleEnrolment : List EnvelopeRecordV2 :=
  [.sampleRegistration 0 1 9, .sampleRegistration 1 1 9,
    .ofPayload .admissionLease (AdmissionLeaseV2.sample 0).payload,
    .ofPayload .admissionLease (AdmissionLeaseV2.sample 1).payload]

/-- The receipts the two operators exchange, for the snapshot that a state has. -/
def sampleReceipts (s : SemanticStateV2) : List EnvelopeRecordV2 :=
  match s.membership.snapshot 1 with
  | none => []
  | some frozen =>
    [.ofPayload .serviceReceipt
        (AuthenticatedServiceReceiptV2.sample frozen.snapshotHash 0 1).payload,
      .ofPayload .serviceReceipt
        (AuthenticatedServiceReceiptV2.sample frozen.snapshotHash 1 0).payload]

namespace ConsensusCoordinatorV2

/-- The core after a block, and whether it was accepted. -/
def stepSample (epochLength : UInt64) (core : TransitionCoreV2) (block : CoordinatorBlockV2) :
    TransitionCoreV2 × Bool :=
  let connected := connectBlock .sample (.sample epochLength) .sample ⟨core, []⟩ block
  (connected.1.toTransitionCoreV2, connected.2.toBool)

/-- The core after a list of blocks, and whether all of them were accepted. -/
def connectSample (epochLength : UInt64) :
    List CoordinatorBlockV2 → TransitionCoreV2 → TransitionCoreV2 × Bool
  | [], core => (core, true)
  | block :: blocks, core =>
    let first := stepSample epochLength core block
    let rest := connectSample epochLength blocks first.1
    (rest.1, first.2 && rest.2)

/-- The blocks up to the anchor of epoch 1. -/
def sampleFreezingBlocks : List CoordinatorBlockV2 :=
  [.idle 0, .sample 1 0 (.sampleCoinbase 1 [] (sampleExtra [] sampleEnrolment)), .idle 2]

/-- The core after the anchor of epoch 1. -/
def sampleFrozen (epochLength : UInt64) : TransitionCoreV2 × Bool :=
  connectSample epochLength sampleFreezingBlocks {}

/-- The frozen core when epoch 1 is about to begin. -/
def sampleStart (epochLength : UInt64) : TransitionCoreV2 :=
  ⟨(sampleFrozen epochLength).1.state, true, epochLength - 1⟩

/-- The blocks from the start of epoch 1 to the anchor of epoch 2. -/
def sampleBlocks (epochLength : UInt64) : List CoordinatorBlockV2 :=
  [.sample epochLength 0 (.sampleCoinbase epochLength []
      (sampleExtra [] (sampleReceipts (sampleStart epochLength).state))),
    .idle (epochLength + 1), .idle (epochLength + 2)]

/-- The core after the anchor of epoch 2. -/
def sampleQualified (epochLength : UInt64) : TransitionCoreV2 × Bool :=
  connectSample epochLength (sampleBlocks epochLength) (sampleStart epochLength)

lemma connects_of_stepSample {epochLength : UInt64} {core : TransitionCoreV2}
    {block : CoordinatorBlockV2} (h : (stepSample epochLength core block).2 = true) :
    Connects .sample (.sample epochLength) .sample block core
      (stepSample epochLength core block).1 :=
  connects_of_toBool h

lemma Runs.connectSample {epochLength : UInt64} (blocks : List CoordinatorBlockV2)
    {core : TransitionCoreV2} {chain : List CoordinatorBlockV2} {t : BlockTransitionV2}
    (h : Runs .sample (.sample epochLength) chain t) (hcore : t.toTransitionCoreV2 = core)
    (hok : (connectSample epochLength blocks core).2 = true) :
    ∃ t', Runs .sample (.sample epochLength) (chain ++ blocks) t' ∧
      t'.toTransitionCoreV2 = (ConsensusCoordinatorV2.connectSample epochLength blocks core).1 := by
  induction blocks generalizing core chain t with
  | nil => exact ⟨t, by simpa using h, hcore⟩
  | cons block blocks ih =>
    subst hcore
    simp only [ConsensusCoordinatorV2.connectSample, Bool.and_eq_true] at hok ⊢
    obtain ⟨t₁, hrun, hcore⟩ := h.extend (connects_of_stepSample hok.1)
    obtain ⟨t₂, hrun₂, hcore₂⟩ := ih hrun hcore hok.2
    exact ⟨t₂, by simpa using hrun₂, hcore₂⟩

end ConsensusCoordinatorV2

end Qwertycoin
