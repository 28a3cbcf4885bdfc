import Qwertycoin.Semantic
import Qwertycoin.Lib.Reorg

/-
# Block transitions

A block is first parsed and charged as a whole.  Then, on a fresh journal, the members of an
epoch are frozen if the block is an anchor, the transactions are applied in order, and an epoch
is closed if the block is a deadline.  A block that fails at any point is taken back from its
journal; a block that succeeds leaves its journal on the undo stack, which keeps the newest
entries only.
-/

namespace Qwertycoin

open Bytes

structure BlockTransitionLimitsV2 where
  maxEnvelopesPerTransaction : ℕ
  envelope : EnvelopeLimitsV2
  block : BlockBudgetLimitsV2
  maxRecentUndoBlocks : ℕ
deriving DecidableEq

def BlockTransitionLimitsV2.valid (limits : BlockTransitionLimitsV2) : Bool :=
  0 < limits.maxEnvelopesPerTransaction && 0 < limits.maxRecentUndoBlocks &&
    limits.envelope.valid && limits.block.valid

/-- What a `block_transition_v2` is constructed with. -/
structure TransitionParametersV2 extends SemanticParametersV2 where
  limits : BlockTransitionLimitsV2
deriving DecidableEq

/-- `valid_` of the block transition. -/
def TransitionParametersV2.valid (p : TransitionParametersV2) : Bool :=
  p.timing.valid && p.limits.valid && p.toSemanticParametersV2.valid

/-- The limits under which the transactions of a block are parsed. -/
def TransitionParametersV2.extraLimits (p : TransitionParametersV2) (majorVersion : UInt8) :
    ExtraLimits :=
  ⟨majorVersion, p.limits.maxEnvelopesPerTransaction, p.limits.envelope⟩

lemma length_supportedRecordVersions : ([0, 1, 1, 1, 1, 1] : List UInt8).length = 6 := rfl

/-- The limits the release is compiled with. -/
def mainnetLimitsV2 : BlockTransitionLimitsV2 where
  maxEnvelopesPerTransaction := 4
  envelope :=
    { maxEnvelopeBytes := 65536, maxRecords := 256, maxRecordPayloadBytes := 65536
      maxSignatureVerifications := 2048, maxAdmissionVerifications := 8
      supportedRecordVersions := ⟨[0, 1, 1, 1, 1, 1], length_supportedRecordVersions⟩ }
  block := ⟨262144, 1024, 2048, 8⟩
  maxRecentUndoBlocks := 2160

/-- An extra field with one more envelope, for concrete runs. -/
def sampleExtra (extra : List UInt8) (records : List EnvelopeRecordV2) : List UInt8 :=
  match appendTransactionEnvelopeV2 records hfVersionQwcEpose
    mainnetLimitsV2.maxEnvelopesPerTransaction mainnetLimitsV2.envelope extra with
  | .ok (extra, _) => extra
  | .error _ => extra

/-- Parameters for concrete runs: the anchor of an epoch is the third block of the epoch before,
and committees have one member. -/
def TransitionParametersV2.sampleOf (epochLength : UInt64) : TransitionParametersV2 where
  net := .sample
  timing := ⟨0, epochLength, epochLength - 2⟩
  admissionPolicy := ⟨.randomx, 1, 1⟩
  committeePolicy :=
    { committeeSize := 1, threshold := 1, roundCount := 1, roundsRequired := 1
      serviceKind := serviceKindCanonicalObject, roundOffsets := [0], maxActivePopulation := 2 }
  limits := mainnetLimitsV2

/-- The shortest epochs: three blocks. -/
def TransitionParametersV2.sample : TransitionParametersV2 := .sampleOf 3

structure BlockTransactionContextV2 where
  /-- `none` is the null pointer. -/
  transaction : Option Transaction
  coinbase : Bool
  payment : Option ServicePaymentContextV2
  validatedPayment : Option ValidatedServicePaymentV2

/-- The arguments of `apply_block` that describe the block. -/
structure BlockInputV2 where
  majorVersion : UInt8
  height : UInt64
  blockHash : Hash
  transactions : List BlockTransactionContextV2

/-- A block without records, for concrete runs. -/
def BlockInputV2.sample (height : UInt64) (blockHash : ℕ) : BlockInputV2 where
  majorVersion := hfVersionQwcEpose
  height := height
  blockHash := Block.ofNat 32 blockHash
  transactions :=
    [⟨some { version := 2, unlockTime := 0, vin := [.gen height.toNat], vout := [], extra := [],
             signatures := [] }, true, none, none⟩]

structure BlockApplySummaryV2 where
  transactions : ℕ := 0
  semantic : SemanticApplySummaryV2 := {}
  charged : EnvelopeBudgetV2 := {}
deriving DecidableEq

/-- `block_transition_status_v2` -/
inductive BlockTransitionStatusV2
  | accepted
  | invalidConfiguration
  | inactiveProtocol
  | invalidBlockContext
  | invalidEnvelope
  | resourceLimitExceeded
  | invalidSemantics
  | freezeFailed
  | qualificationCloseFailed
  | verificationBudgetMismatch
  | nonsequentialHeight
  | deepReplayRequired
  | arithmeticOverflow
deriving DecidableEq

/-- `add_semantic_summary` -/
def addSemanticSummary (total next : SemanticApplySummaryV2) : Option SemanticApplySummaryV2 := do
  let lifecycleRecords ← addSize total.lifecycleRecords next.lifecycleRecords
  let admissionRecords ← addSize total.admissionRecords next.admissionRecords
  let receiptRecords ← addSize total.receiptRecords next.receiptRecords
  let paymentProofRecords ← addSize total.paymentProofRecords next.paymentProofRecords
  let signatures ← addSize total.verifications.signatures next.verifications.signatures
  let randomx ← addSize total.verifications.randomx next.verifications.randomx
  return { lifecycleRecords, admissionRecords, receiptRecords, paymentProofRecords
           verifications := { randomx, signatures } }

/-- What a block changes apart from the undo stack: the semantic state and the tip. -/
structure TransitionCoreV2 where
  state : SemanticStateV2 := {}
  haveTip : Bool := false
  tipHeight : UInt64 := 0

/-- `undo_entry` -/
structure UndoEntry where
  height : UInt64
  changes : SemanticStateV2.UndoJournal
  priorHaveTip : Bool
  priorTipHeight : UInt64
deriving DecidableEq

/-- `block_transition_v2`: its mutable part.  The newest undo entry is the last one. -/
structure BlockTransitionV2 extends TransitionCoreV2 where
  undo : List UndoEntry := []

namespace BlockTransitionV2

variable (cr : Crypto) (p : TransitionParametersV2) (contexts : CanonicalContextSourceV2)

/-- The checks of `apply_block` on the block as such. -/
def blockPrecheck (t : TransitionCoreV2) (b : BlockInputV2) : BlockTransitionStatusV2 :=
  if !p.valid then .invalidConfiguration
  else if !isQwcEposeV2Hardfork b.majorVersion then .inactiveProtocol
  else if (!t.haveTip && b.height ≠ p.timing.activationHeight) ||
      (t.haveTip && (t.tipHeight = uint64Max || b.height ≠ t.tipHeight + 1)) then
    .nonsequentialHeight
  else if b.blockHash = nullHash || !b.transactions.head?.any (·.coinbase) then
    .invalidBlockContext
  else if b.transactions.any (·.transaction.isNone) || b.transactions.tail.any (·.coinbase) then
    .invalidBlockContext
  else .accepted

/-- The structural and cumulative-cost pass: the records of each transaction and the cost of the
block, from the cost of the transactions before. -/
def structuralPass (majorVersion : UInt8) : List BlockTransactionContextV2 → EnvelopeBudgetV2 →
    Except BlockTransitionStatusV2 (List (List EnvelopeRecordV2) × EnvelopeBudgetV2)
  | [], budget => .ok ([], budget)
  | tx :: txs, budget =>
    match (p.extraLimits majorVersion).parse ((tx.transaction.map (·.extra)).getD []) with
    | .error _ => .error .invalidEnvelope
    | .ok (records, transactionBudget) =>
      match chargeBlockBudgetV2 transactionBudget p.limits.block budget with
      | .error _ => .error .resourceLimitExceeded
      | .ok budget => do
        let (parsed, budget) ← structuralPass majorVersion txs budget
        return (records :: parsed, budget)

/-- The state and the journal while a block is applied. -/
structure Work where
  state : SemanticStateV2
  undo : SemanticStateV2.UndoJournal

/-- The epoch a block freezes: the one whose start lies `anchorDepth` blocks above it. -/
def freezeEpoch (height : UInt64) : Option UInt64 :=
  let timing := p.timing
  if height ≤ uint64Max - timing.anchorDepth then
    let shifted := height + timing.anchorDepth
    if shifted % timing.epochLength = 0 then some (shifted / timing.epochLength) else none
  else none

/-- The epoch a block closes: the one that ends `anchorDepth` blocks above it. -/
def closeEpoch (height : UInt64) : Option UInt64 :=
  let timing := p.timing
  if height ≤ uint64Max - timing.anchorDepth - 1 then
    let shifted := height + timing.anchorDepth + 1
    if shifted % timing.epochLength = 0 ∧ 0 < shifted / timing.epochLength then
      some (shifted / timing.epochLength - 1)
    else none
  else none

/-- Freeze before the transactions: records of the anchor block come too late for it. -/
def freezePhase (b : BlockInputV2) (w : Work) : Work × BlockTransitionStatusV2 :=
  match freezeEpoch p b.height with
  | none => (w, .accepted)
  | some epoch =>
    match p.timing.firstServiceEpoch with
    | none => (w, .arithmeticOverflow)
    | some firstServiceEpoch =>
      if firstServiceEpoch ≤ epoch then
        let (state, undo, status) := w.state.freezeMembership cr p.toSemanticParametersV2 w.undo
          epoch b.height b.blockHash
        (⟨state, undo⟩, if status = .accepted then .accepted else .freezeFailed)
      else (w, .accepted)

/-- Close after the transactions: receipts of the deadline block still count. -/
def closePhase (b : BlockInputV2) (w : Work) : Work × BlockTransitionStatusV2 :=
  match closeEpoch p b.height with
  | none => (w, .accepted)
  | some epoch =>
    match p.timing.firstServiceEpoch with
    | none => (w, .arithmeticOverflow)
    | some firstServiceEpoch =>
      if firstServiceEpoch ≤ epoch then
        let (state, undo, status) := w.state.closeQualification cr p.toSemanticParametersV2 w.undo
          epoch b.height
        (⟨state, undo⟩, if status = .accepted then .accepted else .qualificationCloseFailed)
      else (w, .accepted)

/-- The transactions of a block with the records parsed from them, in order. -/
def transactionsPhase (height : UInt64) :
    List (BlockTransactionContextV2 × List EnvelopeRecordV2) → Work → SemanticApplySummaryV2 →
    Work × BlockTransitionStatusV2 × SemanticApplySummaryV2
  | [], w, total => (w, .accepted, total)
  | (tx, records) :: txs, w, total =>
    let applied := w.state.applyTransaction cr p.toSemanticParametersV2 contexts (some w.undo)
      records ⟨height, tx.coinbase, tx.payment, tx.validatedPayment⟩
    let w : Work := ⟨applied.state, applied.blockUndo.getD w.undo⟩
    if applied.status ≠ .accepted then (w, .invalidSemantics, total)
    else
      match addSemanticSummary total applied.summary with
      | none => (w, .arithmeticOverflow, total)
      | some total => transactionsPhase height txs w total

/-- Everything `apply_block` does between the checkpoint and the commit. -/
def blockBody (b : BlockInputV2) (parsed : List (List EnvelopeRecordV2))
    (charged : EnvelopeBudgetV2) (w : Work) :
    Work × BlockTransitionStatusV2 × BlockApplySummaryV2 :=
  match freezePhase cr p b w with
  | (w, .accepted) =>
    match transactionsPhase cr p contexts b.height (b.transactions.zip parsed) w {} with
    | (w, .accepted, semantic) =>
      if charged.signatureVerifications < semantic.verifications.signatures ∨
          charged.admissionVerifications < semantic.verifications.randomx then
        (w, .verificationBudgetMismatch, {})
      else
        match closePhase cr p b w with
        | (w, .accepted) => (w, .accepted, ⟨b.transactions.length, semantic, charged⟩)
        | (w, status) => (w, status, {})
    | (w, status, _) => (w, status, {})
  | (w, status) => (w, status, {})

/-- Outcome of `apply_block`. -/
structure Applied where
  transition : BlockTransitionV2
  status : BlockTransitionStatusV2
  summary : BlockApplySummaryV2 := {}

def applyBlock (t : BlockTransitionV2) (b : BlockInputV2) : Applied :=
  match blockPrecheck p t.toTransitionCoreV2 b with
  | .accepted =>
    match structuralPass p b.majorVersion b.transactions {} with
    | .error status => ⟨t, status, {}⟩
    | .ok (parsed, charged) =>
      -- the journal of the block is the newest entry of the stack while the block is applied
      let pushed (changes : SemanticStateV2.UndoJournal) : List UndoEntry :=
        t.undo ++ [⟨b.height, changes, t.haveTip, t.tipHeight⟩]
      match blockBody cr p contexts b parsed charged ⟨t.state, t.state.checkpoint⟩ with
      | (w, .accepted, summary) =>
        ⟨{ state := w.state, haveTip := true, tipHeight := b.height
           undo := Reorg.keepLast p.limits.maxRecentUndoBlocks (pushed w.undo) },
          .accepted, summary⟩
      | (w, status, _) =>
        ⟨{ t with state := w.state.rollback w.undo, undo := (pushed w.undo).dropLast }, status, {}⟩
  | status => ⟨t, status, {}⟩

/-- `disconnect_tip` -/
def disconnectTip (t : BlockTransitionV2) (height : UInt64) :
    BlockTransitionV2 × BlockTransitionStatusV2 :=
  if !p.valid then (t, .invalidConfiguration)
  else if !t.haveTip || height ≠ t.tipHeight then (t, .nonsequentialHeight)
  else
    match t.undo.getLast? with
    | none => (t, .deepReplayRequired)
    | some prior =>
      if prior.height ≠ height then (t, .deepReplayRequired)
      else
        ({ state := t.state.rollback prior.changes, haveTip := prior.priorHaveTip
           tipHeight := prior.priorTipHeight, undo := t.undo.dropLast }, .accepted)

/-! ### What the phases of a block do -/

section Phases

variable {cr p}

/-- The freeze phase fails and leaves the state alone, has nothing to freeze, or stores the
snapshot of its epoch. -/
lemma freezePhase_cases (cr : Crypto) (hp : p.membershipValid = true) (b : BlockInputV2)
    (w : Work) :
    (∃ status epoch, status ≠ .accepted ∧ freezePhase cr p b w = (w, status) ∧
        freezeEpoch p b.height = some epoch ∧ ∀ firstService,
        p.timing.firstServiceEpoch = some firstService → firstService ≤ epoch ∧ ∀ frozen,
        ¬w.state.membership.Freezes cr p.toSemanticParametersV2 epoch b.height b.blockHash
          (w.state.authorizedMembers cr p.toSemanticParametersV2 epoch) frozen) ∨
      (freezePhase cr p b w = (w, .accepted) ∧ ∀ epoch firstService,
        freezeEpoch p b.height = some epoch → p.timing.firstServiceEpoch = some firstService →
        epoch < firstService) ∨
      ∃ epoch frozen, freezeEpoch p b.height = some epoch ∧
        w.state.membership.Freezes cr p.toSemanticParametersV2 epoch b.height b.blockHash
          (w.state.authorizedMembers cr p.toSemanticParametersV2 epoch) frozen ∧
        freezePhase cr p b w =
          (⟨{ w.state with
              membership := (w.state.membership.storeSnapshot w.undo.membership epoch frozen).1 },
            { w.undo with
              membership := (w.state.membership.storeSnapshot w.undo.membership epoch frozen).2 }⟩,
            .accepted) := by
  simp only [freezePhase]
  cases hepoch : freezeEpoch p b.height with
  | none => exact Or.inr (Or.inl ⟨rfl, fun _ _ h => by cases h⟩)
  | some epoch =>
    cases hfirst : p.timing.firstServiceEpoch with
    | none => exact Or.inl ⟨.arithmeticOverflow, epoch, by simp, rfl, rfl, fun _ h => by cases h⟩
    | some firstService =>
      by_cases hle : firstService ≤ epoch
      · simp only [if_pos hle]
        obtain ⟨status, hstatus, hnot, happly⟩ | ⟨frozen, hfreezes, happly⟩ :=
          w.state.membership.freezeMembership_cases cr hp w.undo.membership epoch b.height
            b.blockHash (w.state.authorizedMembers cr p.toSemanticParametersV2 epoch)
        · refine Or.inl ⟨.freezeFailed, epoch, by simp, ?_, rfl, fun _ h => ?_⟩
          · simp only [SemanticStateV2.freezeMembership, happly, if_neg hstatus]
          · cases h
            exact ⟨hle, hnot⟩
        · refine Or.inr (Or.inr ⟨epoch, frozen, rfl, hfreezes, ?_⟩)
          simp only [SemanticStateV2.freezeMembership, happly, if_true]
      · simp only [if_neg hle]
        refine Or.inr (Or.inl ⟨trivial, fun _ _ h h' => ?_⟩)
        cases h
        cases h'
        exact UInt64.not_le.mp hle

/-- The close phase fails and leaves the state alone, has nothing to close, or stores the
qualified nodes of its epoch. -/
lemma closePhase_cases (cr : Crypto) (hp : p.membershipValid = true) (b : BlockInputV2)
    (w : Work) :
    (∃ status epoch, status ≠ .accepted ∧ closePhase cr p b w = (w, status) ∧
        closeEpoch p b.height = some epoch ∧ ∀ firstService,
        p.timing.firstServiceEpoch = some firstService → firstService ≤ epoch ∧ ∀ closed,
        ¬w.state.membership.Closes cr p.toSemanticParametersV2 epoch b.height closed) ∨
      (closePhase cr p b w = (w, .accepted) ∧ ∀ epoch firstService,
        closeEpoch p b.height = some epoch → p.timing.firstServiceEpoch = some firstService →
        epoch < firstService) ∨
      ∃ epoch closed, closeEpoch p b.height = some epoch ∧
        (∃ firstService, p.timing.firstServiceEpoch = some firstService ∧ firstService ≤ epoch) ∧
        w.state.membership.Closes cr p.toSemanticParametersV2 epoch b.height closed ∧
        closePhase cr p b w =
          (⟨{ w.state with
              membership :=
                (w.state.membership.storeQualification w.undo.membership epoch closed).1 },
            { w.undo with
              membership :=
                (w.state.membership.storeQualification w.undo.membership epoch closed).2 }⟩,
            .accepted) := by
  simp only [closePhase]
  cases hepoch : closeEpoch p b.height with
  | none => exact Or.inr (Or.inl ⟨rfl, fun _ _ h => by cases h⟩)
  | some epoch =>
    cases hfirst : p.timing.firstServiceEpoch with
    | none => exact Or.inl ⟨.arithmeticOverflow, epoch, by simp, rfl, rfl, fun _ h => by cases h⟩
    | some firstService =>
      by_cases hle : firstService ≤ epoch
      · simp only [if_pos hle]
        obtain ⟨status, hstatus, hnot, happly⟩ | ⟨closed, hcloses, happly⟩ :=
          w.state.membership.closeQualification_cases cr hp w.undo.membership epoch b.height
        · refine Or.inl ⟨.qualificationCloseFailed, epoch, by simp, ?_, rfl, fun _ h => ?_⟩
          · simp only [SemanticStateV2.closeQualification, happly, if_neg hstatus]
          · cases h
            exact ⟨hle, hnot⟩
        · refine Or.inr (Or.inr ⟨epoch, closed, rfl, ⟨firstService, rfl, hle⟩, hcloses, ?_⟩)
          simp only [SemanticStateV2.closeQualification, happly, if_true]
      · simp only [if_neg hle]
        refine Or.inr (Or.inl ⟨trivial, fun _ _ h h' => ?_⟩)
        cases h
        cases h'
        exact UInt64.not_le.mp hle

/-- What `apply_block` has gone through when it accepts a block. -/
structure BlockAccepted (cr : Crypto) (p : TransitionParametersV2)
    (contexts : CanonicalContextSourceV2) (t : TransitionCoreV2) (b : BlockInputV2)
    (parsed : List (List EnvelopeRecordV2)) (summary : BlockApplySummaryV2) (w₁ w₂ w₃ : Work) :
    Prop where
  precheck : blockPrecheck p t b = .accepted
  structural : structuralPass p b.majorVersion b.transactions {} = .ok (parsed, summary.charged)
  freeze : freezePhase cr p b ⟨t.state, t.state.checkpoint⟩ = (w₁, .accepted)
  transactions : transactionsPhase cr p contexts b.height (b.transactions.zip parsed) w₁ {} =
    (w₂, .accepted, summary.semantic)
  signatures : summary.semantic.verifications.signatures ≤ summary.charged.signatureVerifications
  admissions : summary.semantic.verifications.randomx ≤ summary.charged.admissionVerifications
  close : closePhase cr p b w₂ = (w₃, .accepted)
  length : summary.transactions = b.transactions.length

lemma blockBody_accepted {contexts : CanonicalContextSourceV2} {b : BlockInputV2}
    {parsed : List (List EnvelopeRecordV2)} {charged : EnvelopeBudgetV2} {w w₃ : Work}
    {summary : BlockApplySummaryV2}
    (h : blockBody cr p contexts b parsed charged w = (w₃, .accepted, summary)) :
    ∃ semantic w₁ w₂, summary = ⟨b.transactions.length, semantic, charged⟩ ∧
      freezePhase cr p b w = (w₁, .accepted) ∧
      transactionsPhase cr p contexts b.height (b.transactions.zip parsed) w₁ {} =
        (w₂, .accepted, semantic) ∧
      semantic.verifications.signatures ≤ charged.signatureVerifications ∧
      semantic.verifications.randomx ≤ charged.admissionVerifications ∧
      closePhase cr p b w₂ = (w₃, .accepted) := by
  simp only [blockBody] at h
  split at h
  · rename_i w₁ hfreeze
    split at h
    · rename_i w₂ semantic htransactions
      split_ifs at h with hbudget
      · cases h
      rw [not_or, not_lt, not_lt] at hbudget
      split at h
      · rename_i w₃' hclose
        cases h
        exact ⟨semantic, w₁, w₂, rfl, hfreeze, htransactions, hbudget.1, hbudget.2, hclose⟩
      · rename_i hstatus _
        exact absurd (congrArg (·.2.1) h) hstatus
    · rename_i hstatus _
      exact absurd (congrArg (·.2.1) h) hstatus
  · rename_i hstatus _
    exact absurd (congrArg (·.2.1) h) hstatus

lemma structuralPass_ne_error_accepted {majorVersion : UInt8}
    {txs : List BlockTransactionContextV2} {budget : EnvelopeBudgetV2} :
    structuralPass p majorVersion txs budget ≠ .error .accepted := by
  induction txs generalizing budget with
  | nil => simp [structuralPass]
  | cons tx txs ih =>
    simp only [structuralPass]
    split
    · simp
    split
    · simp
    rename_i budget' _
    cases h : structuralPass p majorVersion txs budget' with
    | error status =>
      intro heq
      cases heq
      exact ih h
    | ok result =>
      intro heq
      cases heq

/-- An accepted block went through all phases, and the new transition is what they left. -/
lemma applyBlock_accepted {contexts : CanonicalContextSourceV2} {t : BlockTransitionV2}
    {b : BlockInputV2} (h : (t.applyBlock cr p contexts b).status = .accepted) :
    ∃ parsed w₁ w₂ w₃,
      BlockAccepted cr p contexts t.toTransitionCoreV2 b parsed
        (t.applyBlock cr p contexts b).summary w₁ w₂ w₃ ∧
      (t.applyBlock cr p contexts b).transition =
        { state := w₃.state, haveTip := true, tipHeight := b.height
          undo := Reorg.keepLast p.limits.maxRecentUndoBlocks
            (t.undo ++ [⟨b.height, w₃.undo, t.haveTip, t.tipHeight⟩]) } := by
  simp only [applyBlock] at h ⊢
  cases hpre : blockPrecheck p t.toTransitionCoreV2 b with
  | accepted =>
    simp only [hpre] at h ⊢
    cases hstructural : structuralPass p b.majorVersion b.transactions {} with
    | error status =>
      simp only [hstructural] at h
      exact absurd (h ▸ hstructural) structuralPass_ne_error_accepted
    | ok result =>
      obtain ⟨parsed, charged⟩ := result
      simp only [hstructural] at h ⊢
      split at h
      · rename_i w₃ summary hbody
        obtain ⟨semantic, w₁, w₂, rfl, hfreeze, htransactions, hsignatures, hadmissions,
          hclose⟩ := blockBody_accepted hbody
        exact ⟨parsed, w₁, w₂, w₃, ⟨hpre, hstructural, hfreeze, htransactions, hsignatures,
          hadmissions, hclose, rfl⟩, rfl⟩
      · rename_i hstatus _
        exact absurd h hstatus
  | _ => simp [hpre] at h

/-- A block that goes through all phases is accepted, whatever the undo stack holds. -/
lemma BlockAccepted.applyBlock_eq {contexts : CanonicalContextSourceV2} {t : TransitionCoreV2}
    {b : BlockInputV2} {parsed : List (List EnvelopeRecordV2)} {summary : BlockApplySummaryV2}
    {w₁ w₂ w₃ : Work} (h : BlockAccepted cr p contexts t b parsed summary w₁ w₂ w₃)
    (undo : List UndoEntry) :
    applyBlock cr p contexts ⟨t, undo⟩ b =
      ⟨{ state := w₃.state, haveTip := true, tipHeight := b.height
         undo := Reorg.keepLast p.limits.maxRecentUndoBlocks
          (undo ++ [⟨b.height, w₃.undo, t.haveTip, t.tipHeight⟩]) }, .accepted, summary⟩ := by
  have hbudget : ¬(summary.charged.signatureVerifications <
        summary.semantic.verifications.signatures ∨
      summary.charged.admissionVerifications < summary.semantic.verifications.randomx) := by
    rw [not_or, not_lt, not_lt]
    exact ⟨h.signatures, h.admissions⟩
  have hbody : blockBody cr p contexts b parsed summary.charged ⟨t.state, t.state.checkpoint⟩ =
      (w₃, .accepted, summary) := by
    simp only [blockBody, h.freeze, h.transactions, if_neg hbudget, h.close, ← h.length]
  simp only [applyBlock, h.precheck, h.structural, hbody]

end Phases

end BlockTransitionV2

end Qwertycoin
