import Qwertycoin.Journal

/-
# Runs of the block transition

A run applies blocks and disconnects the newest one, in any order; every call is accepted.  Its
*chain* is the list of the blocks that were applied and not disconnected.  A block transition is
a machine with a bounded undo stack, so the state after a run is the state its chain leads to
when it is applied to a fresh object, whatever branches the run has visited on the way.
-/

namespace Qwertycoin

namespace BlockTransitionV2

variable (cr : Crypto) (p : TransitionParametersV2)

/-- The chain and the transition after a run of accepted calls from the fresh object.  The rule
says which context sources may be asked while a block is applied on top of a chain. -/
inductive Runs (rule : List BlockInputV2 → CanonicalContextSourceV2 → Prop) :
    List BlockInputV2 → BlockTransitionV2 → Prop
  | fresh : Runs rule [] {}
  | apply {chain t contexts b} : Runs rule chain t → rule chain contexts →
      (t.applyBlock cr p contexts b).status = .accepted →
      Runs rule (chain ++ [b]) (t.applyBlock cr p contexts b).transition
  | disconnect {chain t height} : Runs rule chain t →
      (t.disconnectTip p height).2 = .accepted →
      Runs rule chain.dropLast (t.disconnectTip p height).1

/-- Apply blocks in order on top of a chain; `none` when one of them is refused. -/
def replayFrom (contextsOf : List BlockInputV2 → CanonicalContextSourceV2) :
    List BlockInputV2 → BlockTransitionV2 → List BlockInputV2 → Option BlockTransitionV2
  | _, t, [] => some t
  | chain, t, b :: blocks =>
    let applied := t.applyBlock cr p (contextsOf chain) b
    if applied.status = .accepted then
      replayFrom contextsOf (chain ++ [b]) applied.transition blocks
    else none

/-- Apply a chain to a fresh object. -/
def replay (contextsOf : List BlockInputV2 → CanonicalContextSourceV2)
    (chain : List BlockInputV2) : Option BlockTransitionV2 :=
  replayFrom cr p contextsOf [] {} chain

/-! ## The machine -/

/-- One call of `apply_block`, as the machine takes it: the context source and the block. -/
abbrev Call := CanonicalContextSourceV2 × BlockInputV2

variable {cr p}

lemma keepLast_singleton {α : Type} {n : ℕ} (hn : 0 < n) (x : α) :
    Reorg.keepLast n [x] = [x] := by
  simp [Reorg.keepLast, Nat.sub_eq_zero_of_le hn]

lemma undoBlocks_pos (hp : p.valid = true) : 0 < p.limits.maxRecentUndoBlocks := by
  simp only [TransitionParametersV2.valid, BlockTransitionLimitsV2.valid, Bool.and_eq_true,
    decide_eq_true_eq] at hp
  exact hp.1.2.1.1.2

variable (cr p)

/-- The block transition without its stack: the core, and the entry a block pushes. -/
def stepCore (call : Call) (core : TransitionCoreV2) : Option (TransitionCoreV2 × UndoEntry) :=
  let applied := applyBlock cr p call.1 ⟨core, []⟩ call.2
  if applied.status = .accepted then
    applied.transition.undo.getLast?.map fun entry =>
      (applied.transition.toTransitionCoreV2, entry)
  else none

/-- What `disconnect_tip` does to the core. -/
def revertCore (entry : UndoEntry) (core : TransitionCoreV2) : TransitionCoreV2 where
  state := core.state.rollback entry.changes
  haveTip := entry.priorHaveTip
  tipHeight := entry.priorTipHeight

variable {cr p} {call : Call} {core core' : TransitionCoreV2} {entry : UndoEntry}

lemma stepCore_eq_some_iff :
    stepCore cr p call core = some (core', entry) ↔
      ∃ parsed summary w₁ w₂ w₃,
        BlockAccepted cr p call.1 core call.2 parsed summary w₁ w₂ w₃ ∧
        core' = { state := w₃.state, haveTip := true, tipHeight := call.2.height } ∧
        entry = ⟨call.2.height, w₃.undo, core.haveTip, core.tipHeight⟩ := by
  simp only [stepCore]
  constructor
  · intro h
    split_ifs at h with hacc
    obtain ⟨parsed, w₁, w₂, w₃, hblock, htransition⟩ := applyBlock_accepted hacc
    have hpos := undoBlocks_pos (valid_of_blockPrecheck hblock.precheck)
    rw [htransition] at h
    simp only [List.nil_append, keepLast_singleton hpos, List.getLast?_singleton,
      Option.map_some, Option.some.injEq, Prod.mk.injEq] at h
    exact ⟨parsed, _, w₁, w₂, w₃, hblock, h.1.symm, h.2.symm⟩
  · rintro ⟨parsed, summary, w₁, w₂, w₃, hblock, rfl, rfl⟩
    have hpos := undoBlocks_pos (valid_of_blockPrecheck hblock.precheck)
    rw [hblock.applyBlock_eq []]
    simp [keepLast_singleton hpos]

lemma revertCore_stepCore (h : stepCore cr p call core = some (core', entry)) :
    revertCore entry core' = core := by
  obtain ⟨parsed, summary, w₁, w₂, w₃, hblock, rfl, rfl⟩ := stepCore_eq_some_iff.mp h
  rw [revertCore, hblock.restores.rollback_eq]

variable (cr p)

/-- The block transition as a machine with an undo stack. -/
def machine : Reorg.Machine Call TransitionCoreV2 UndoEntry where
  init := {}
  step _ call core := stepCore cr p call core
  revert := revertCore
  revert_step := revertCore_stepCore

variable {cr p}

lemma applyBlock_eq_stepCore {contexts : CanonicalContextSourceV2} {t : BlockTransitionV2}
    {b : BlockInputV2} (h : (t.applyBlock cr p contexts b).status = .accepted) :
    ∃ entry, stepCore cr p (contexts, b) t.toTransitionCoreV2 =
        some ((t.applyBlock cr p contexts b).transition.toTransitionCoreV2, entry) ∧
      (t.applyBlock cr p contexts b).transition.undo =
        Reorg.keepLast p.limits.maxRecentUndoBlocks (t.undo ++ [entry]) := by
  obtain ⟨parsed, w₁, w₂, w₃, hblock, htransition⟩ := applyBlock_accepted h
  refine ⟨⟨b.height, w₃.undo, t.haveTip, t.tipHeight⟩, stepCore_eq_some_iff.mpr
    ⟨parsed, _, w₁, w₂, w₃, hblock, ?_, rfl⟩, ?_⟩ <;> rw [htransition]

lemma disconnectTip_accepted {t : BlockTransitionV2} {height : UInt64}
    (h : (t.disconnectTip p height).2 = .accepted) :
    ∃ entry, t.undo = (t.disconnectTip p height).1.undo ++ [entry] ∧
      (t.disconnectTip p height).1.toTransitionCoreV2 = revertCore entry t.toTransitionCoreV2 := by
  unfold disconnectTip at h ⊢
  by_cases hp : (!p.valid) = true
  · simp [hp] at h
  by_cases htip : (!t.haveTip || decide (height ≠ t.tipHeight)) = true
  · simp only [if_neg hp, if_pos htip] at h
    cases h
  cases hlast : t.undo.getLast? with
  | none =>
    simp only [if_neg hp, if_neg htip, hlast] at h
    cases h
  | some entry =>
    simp only [if_neg hp, if_neg htip, hlast] at h ⊢
    by_cases hheight : entry.height = height
    · simp only [hheight, ne_eq, not_true_eq_false, if_false]
      exact ⟨entry, (List.dropLast_append_getLast? entry hlast).symm, rfl⟩
    · simp only [ne_eq, hheight, not_false_eq_true, if_true] at h
      cases h

lemma disconnectTip_height {t : BlockTransitionV2} {height : UInt64}
    (h : (t.disconnectTip p height).2 = .accepted) : height = t.tipHeight := by
  unfold disconnectTip at h
  split_ifs at h with hp htip
  simp only [Bool.or_eq_true, not_or, decide_eq_true_eq, not_not] at htip
  exact htip.2

/-! ## Runs are runs of the machine -/

variable {rule : List BlockInputV2 → CanonicalContextSourceV2 → Prop} {chain : List BlockInputV2}
  {t : BlockTransitionV2}

/-- Every call in a list was made with a context source the rule allows on top of the calls
before it. -/
def Allowed (rule : List BlockInputV2 → CanonicalContextSourceV2 → Prop) (calls : List Call) :
    Prop :=
  ∀ front call back, calls = front ++ call :: back → rule (front.map Prod.snd) call.1

lemma allowed_append_singleton {calls : List Call} (h : Allowed rule calls)
    (hrule : rule (calls.map Prod.snd) call.1) : Allowed rule (calls ++ [call]) := by
  intro front call' back heq
  cases back using List.reverseRecOn with
  | nil =>
    obtain ⟨rfl, hcall⟩ := List.append_inj' heq rfl
    obtain rfl := List.singleton_inj.mp hcall
    exact hrule
  | append_singleton back last =>
    rw [← List.cons_append, ← List.append_assoc] at heq
    obtain ⟨heq, -⟩ := List.append_inj' heq rfl
    exact h front call' back heq

lemma Allowed.dropLast {calls : List Call} (h : Allowed rule calls) :
    Allowed rule calls.dropLast := by
  intro front call back heq
  cases calls using List.reverseRecOn with
  | nil => simp at heq
  | append_singleton calls last =>
    rw [List.dropLast_concat] at heq
    exact h front call (back ++ [last]) (by simp [heq])

/-- A run is a run of the machine, on calls the rule allows. -/
lemma Runs.run (h : Runs cr p rule chain t) :
    ∃ calls, calls.map Prod.snd = chain ∧ Allowed rule calls ∧
      Reorg.Run (machine cr p) p.limits.maxRecentUndoBlocks calls t.toTransitionCoreV2 t.undo := by
  induction h with
  | fresh =>
    refine ⟨[], rfl, fun front call back h => ?_, .start⟩
    simp at h
  | @apply chain t contexts b _ hrule hacc ih =>
    obtain ⟨calls, rfl, hallowed, hrun⟩ := ih
    obtain ⟨entry, hstep, hundo⟩ := applyBlock_eq_stepCore hacc
    refine ⟨calls ++ [(contexts, b)], by simp, allowed_append_singleton hallowed hrule, ?_⟩
    rw [hundo]
    exact hrun.apply hstep
  | @disconnect chain t height _ hacc ih =>
    obtain ⟨calls, rfl, hallowed, hrun⟩ := ih
    obtain ⟨entry, hundo, hcore⟩ := disconnectTip_accepted hacc
    refine ⟨calls.dropLast, List.map_dropLast .., hallowed.dropLast, ?_⟩
    rw [hundo] at hrun
    rw [hcore]
    exact hrun.disconnect

/-- What holds of the fresh object and is kept by every accepted block holds after every run. -/
theorem Runs.invariant {P : TransitionCoreV2 → Prop} (hfresh : P {})
    (hstep : ∀ {call core core' entry}, P core → stepCore cr p call core = some (core', entry) →
      P core') (h : Runs cr p rule chain t) : P t.toTransitionCoreV2 := by
  obtain ⟨calls, -, -, hrun⟩ := h.run
  exact hrun.invariant (P := fun _ core => P core) hfresh fun hP hs => hstep hP hs

/-- What holds of the fresh object and is kept by every accepted block, with the calls that were
made, holds after every run. -/
theorem Runs.invariant_calls {P : List Call → TransitionCoreV2 → Prop} (hfresh : P [] {})
    (hstep : ∀ {calls call core core' entry}, P calls core → rule (calls.map Prod.snd) call.1 →
      stepCore cr p call core = some (core', entry) → P (calls ++ [call]) core')
    (h : Runs cr p rule chain t) :
    ∃ calls, calls.map Prod.snd = chain ∧ P calls t.toTransitionCoreV2 := by
  obtain ⟨calls, hchain, hallowed, hrun⟩ := h.run
  refine ⟨calls, hchain, ?_⟩
  obtain ⟨full, hfull, -⟩ := hrun.replay
  clear hrun hchain
  generalize t.toTransitionCoreV2 = core at hfull
  induction hfull with
  | start => exact hfresh
  | @apply calls core us call core' entry _ hs ih =>
    refine hstep (ih fun front call' back heq => ?_) (hallowed calls call [] rfl) hs
    exact hallowed front call' (back ++ [call]) (by simp [heq])

/-! ## What follows a block -/

variable (cr p) in
/-- The transitions that calls lead to as long as the block at a height stays connected. -/
inductive Later (height : UInt64) (t₁ : BlockTransitionV2) : BlockTransitionV2 → Prop
  | start : Later height t₁ t₁
  | apply {t contexts b} : Later height t₁ t → (t.applyBlock cr p contexts b).status = .accepted →
      Later height t₁ (t.applyBlock cr p contexts b).transition
  | disconnect {t height'} : Later height t₁ t → height < height' →
      (t.disconnectTip p height').2 = .accepted → Later height t₁ (t.disconnectTip p height').1

/-- What a block leads to and every accepted block keeps holds as long as the block stays
connected. -/
theorem Later.invariant {P : TransitionCoreV2 → Prop} {t₀ : BlockTransitionV2}
    {contexts : CanonicalContextSourceV2} {b : BlockInputV2} (h₀ : Runs cr p rule chain t₀)
    (hacc : (t₀.applyBlock cr p contexts b).status = .accepted)
    (hP : P (t₀.applyBlock cr p contexts b).transition.toTransitionCoreV2)
    (hstep : ∀ {call core core' entry}, P core → stepCore cr p call core = some (core', entry) →
      P core')
    (h : Later cr p b.height (t₀.applyBlock cr p contexts b).transition t) :
    P t.toTransitionCoreV2 := by
  obtain ⟨calls, -, -, hrun⟩ := h₀.run
  obtain ⟨entry, hblock, hundo⟩ := applyBlock_eq_stepCore hacc
  have hrun₁ := hrun.apply (b := (contexts, b)) hblock
  rw [← hundo] at hrun₁
  obtain ⟨full, hreplay, -⟩ := hrun₁.replay
  -- the block stays in the chain, so the state is a replay that passes through it
  have hlater : ∃ later, Reorg.Run (machine cr p) p.limits.maxRecentUndoBlocks
      (calls ++ [(contexts, b)] ++ later) t.toTransitionCoreV2 t.undo := by
    clear hP
    induction h with
    | start => exact ⟨[], by simpa using hrun₁⟩
    | @apply t contexts' b' _ hacc ih =>
      obtain ⟨later, hrun⟩ := ih
      obtain ⟨entry, hstep, hundo⟩ := applyBlock_eq_stepCore hacc
      refine ⟨later ++ [(contexts', b')], ?_⟩
      rw [hundo, ← List.append_assoc]
      exact hrun.apply hstep
    | @disconnect t height _ habove hacc ih =>
      obtain ⟨later, hrun⟩ := ih
      obtain ⟨entry, hundo, hcore⟩ := disconnectTip_accepted hacc
      have hne : later ≠ [] := by
        rintro rfl
        obtain ⟨full', hfull', -⟩ := hrun.replay
        rw [List.append_nil] at hfull'
        have hcore := (hfull'.unique hreplay).1
        obtain ⟨_, _, _, _, _, -, htip, -⟩ := stepCore_eq_some_iff.mp hblock
        have hheight := disconnectTip_height hacc
        rw [hheight, hcore, htip] at habove
        exact absurd habove (UInt64.lt_irrefl _)
      refine ⟨later.dropLast, ?_⟩
      rw [hcore, ← List.dropLast_append_of_ne_nil hne]
      rw [hundo] at hrun
      exact hrun.disconnect
  obtain ⟨later, hrun⟩ := hlater
  obtain ⟨full', hfull', -⟩ := hrun.replay
  exact hreplay.invariant_from hP (fun hP hs => hstep hP hs) hfull'

/-! ## Reorganisation is replay -/

section Replays

variable {contextsOf : List BlockInputV2 → CanonicalContextSourceV2}

lemma replayFrom_append (front blocks blocks' : List BlockInputV2) (t : BlockTransitionV2) :
    replayFrom cr p contextsOf front t (blocks ++ blocks') =
      (replayFrom cr p contextsOf front t blocks).bind fun t' =>
        replayFrom cr p contextsOf (front ++ blocks) t' blocks' := by
  induction blocks generalizing front t with
  | nil => simp [replayFrom]
  | cons b blocks ih =>
    simp only [List.cons_append, replayFrom]
    split_ifs
    · rw [ih, List.append_assoc, List.singleton_append]
    · rfl

lemma replay_of_machine {calls : List Call} {core : TransitionCoreV2} {us : List UndoEntry}
    (h : Reorg.Replay (machine cr p) calls core us)
    (hallowed : Allowed (fun chain contexts => contexts = contextsOf chain) calls) :
    ∃ t, replay cr p contextsOf (calls.map Prod.snd) = some t ∧ t.toTransitionCoreV2 = core := by
  induction h with
  | start => exact ⟨{}, rfl, rfl⟩
  | @apply calls core us call core' entry _ hstep ih =>
    obtain ⟨t, hreplay, rfl⟩ := ih fun front call' back heq =>
      hallowed front call' (back ++ [call]) (by simp [heq])
    obtain ⟨parsed, summary, w₁, w₂, w₃, hblock, rfl, -⟩ := stepCore_eq_some_iff.mp hstep
    rw [hallowed calls call [] rfl] at hblock
    have happly := hblock.applyBlock_eq t.undo
    refine ⟨(t.applyBlock cr p (contextsOf (calls.map Prod.snd)) call.2).transition, ?_, by
      rw [happly]⟩
    rw [List.map_append, List.map_singleton, replay, replayFrom_append, ← replay, hreplay,
      Option.bind_some]
    simp only [replayFrom, List.nil_append]
    rw [if_pos (by rw [happly])]

lemma runs_of_replayFrom (hrule : ∀ chain, rule chain (contextsOf chain))
    {front blocks : List BlockInputV2} {t t' : BlockTransitionV2} (hruns : Runs cr p rule front t)
    (h : replayFrom cr p contextsOf front t blocks = some t') :
    Runs cr p rule (front ++ blocks) t' := by
  induction blocks generalizing front t with
  | nil =>
    cases h
    simpa using hruns
  | cons b blocks ih =>
    simp only [replayFrom] at h
    split_ifs at h with hacc
    rw [← List.singleton_append, ← List.append_assoc]
    exact ih (hruns.apply (hrule front) hacc) h

lemma runs_of_replay (hrule : ∀ chain, rule chain (contextsOf chain))
    (h : replay cr p contextsOf chain = some t) : Runs cr p rule chain t :=
  runs_of_replayFrom hrule .fresh h

/-- **Reorganisation is replay.**  After any run of accepted calls in which the context source
answers from the chain, the histories, leases, receipts, snapshots, qualified nodes and the tip
are those that the surviving blocks alone lead to.  So a run that comes back to the same chain,
whatever branches it took in between, comes back to the same state and state hash. -/
theorem reorg_eq_replay (contextsOf : List BlockInputV2 → CanonicalContextSourceV2)
    (h : Runs cr p (fun chain contexts => contexts = contextsOf chain) chain t) :
    (∃ t', replay cr p contextsOf chain = some t' ∧
      t'.toTransitionCoreV2 = t.toTransitionCoreV2) ∧
    ∀ t₁, Runs cr p (fun chain contexts => contexts = contextsOf chain) chain t₁ →
      t₁.toTransitionCoreV2 = t.toTransitionCoreV2 ∧
      t₁.state.stateHash cr p.toSemanticParametersV2 =
        t.state.stateHash cr p.toSemanticParametersV2 := by
  have hreplay : ∀ {t₁}, Runs cr p (fun chain contexts => contexts = contextsOf chain) chain t₁ →
      ∃ t', replay cr p contextsOf chain = some t' ∧
        t'.toTransitionCoreV2 = t₁.toTransitionCoreV2 := by
    intro t₁ h₁
    obtain ⟨calls, rfl, hallowed, hrun⟩ := h₁.run
    obtain ⟨full, hfull, -⟩ := hrun.replay
    exact replay_of_machine hfull hallowed
  obtain ⟨t', ht', hcore⟩ := hreplay h
  refine ⟨⟨t', ht', hcore⟩, fun t₁ h₁ => ?_⟩
  obtain ⟨t₁', ht₁', hcore₁⟩ := hreplay h₁
  obtain rfl := Option.some.inj (ht'.symm.trans ht₁')
  have heq : t₁.toTransitionCoreV2 = t.toTransitionCoreV2 := hcore₁.symm.trans hcore
  exact ⟨heq, by rw [heq]⟩

/-- Applying two blocks, replacing the second by a block of another branch, and coming back. -/
def sampleReorg : BlockTransitionV2 :=
  let connect (t : BlockTransitionV2) (b : BlockInputV2) :=
    (t.applyBlock .sample .sample .sample b).transition
  let disconnect (t : BlockTransitionV2) := (t.disconnectTip .sample 1).1
  let t := connect (connect {} (.sample 0 1)) (.sample 1 2)
  connect (disconnect (connect (disconnect t) (.sample 1 7))) (.sample 1 2)

theorem reorg_eq_replay_sampleReorg :
    ∃ t, replay .sample .sample (fun _ => .sample) [.sample 0 1, .sample 1 2] = some t ∧
      t.toTransitionCoreV2 = sampleReorg.toTransitionCoreV2 := by
  refine (reorg_eq_replay (fun _ => .sample) ?_).1
  have h₁ : Runs .sample .sample (fun _ contexts => contexts = .sample) _ _ :=
    (Runs.fresh.apply (b := .sample 0 1) rfl (by decide +kernel)).apply (b := .sample 1 2) rfl
      (by decide +kernel)
  have h₂ := @Runs.disconnect _ _ _ _ _ 1 h₁ (by decide +kernel)
  have h₃ := h₂.apply (b := .sample 1 7) rfl (by decide +kernel)
  have h₄ := @Runs.disconnect _ _ _ _ _ 1 h₃ (by decide +kernel)
  exact h₄.apply (b := .sample 1 2) rfl (by decide +kernel)

/-! ## Switching between branches -/

/-- Disconnect the newest blocks, one after the other; `none` when one of them is refused. -/
def unwind (p : TransitionParametersV2) : ℕ → BlockTransitionV2 → Option BlockTransitionV2
  | 0, t => some t
  | n + 1, t =>
    let disconnected := t.disconnectTip p t.tipHeight
    if disconnected.2 = .accepted then unwind p n disconnected.1 else none

lemma exists_keepLast_append {α : Type} {n : ℕ} (xs ys : List α) (h : ys.length ≤ n) :
    ∃ zs, Reorg.keepLast n (xs ++ ys) = zs ++ ys := by
  refine ⟨xs.drop (xs.length + ys.length - n), ?_⟩
  rw [Reorg.keepLast, List.length_append, List.drop_append_of_le_length (by omega)]

/-- The block on top can be disconnected as long as its entry is on the stack. -/
lemma disconnectTip_stepCore (h : stepCore cr p call core = some (core', entry))
    (us : List UndoEntry) :
    disconnectTip p ⟨core', us ++ [entry]⟩ core'.tipHeight = (⟨core, us⟩, .accepted) := by
  obtain ⟨parsed, summary, w₁, w₂, w₃, hblock, rfl, rfl⟩ := stepCore_eq_some_iff.mp h
  have hp := valid_of_blockPrecheck hblock.precheck
  simp [disconnectTip, hp, hblock.restores.rollback_eq]

/-- A branch that fits the stack leaves its entries there, and they lead back. -/
lemma exists_unwind {front branch : List BlockInputV2} {t' : BlockTransitionV2}
    (h : replayFrom cr p contextsOf front t branch = some t')
    (hlimit : branch.length ≤ p.limits.maxRecentUndoBlocks) :
    ∃ us entries, entries.length = branch.length ∧ t'.undo = us ++ entries ∧
      ∀ us', unwind p branch.length ⟨t'.toTransitionCoreV2, us' ++ entries⟩ =
        some ⟨t.toTransitionCoreV2, us'⟩ := by
  induction branch using List.reverseRecOn generalizing t' with
  | nil =>
    obtain rfl := Option.some.inj h
    exact ⟨t.undo, [], rfl, by simp, fun us' => by simp [unwind]⟩
  | append_singleton branch b ih =>
    rw [List.length_append, List.length_singleton] at hlimit
    rw [replayFrom_append] at h
    obtain ⟨t₁, h₁, h⟩ := Option.bind_eq_some_iff.mp h
    simp only [replayFrom] at h
    split_ifs at h with hacc
    obtain rfl := Option.some.inj h
    obtain ⟨us, entries, hlength, hundo, hback⟩ := ih h₁ (by omega)
    obtain ⟨entry, hstep, hundo'⟩ := applyBlock_eq_stepCore hacc
    -- the stack is cut below the entries of the branch
    obtain ⟨us₁, hkeep⟩ := exists_keepLast_append us (entries ++ [entry])
      (n := p.limits.maxRecentUndoBlocks) (by simp [hlength, hlimit])
    refine ⟨us₁, entries ++ [entry], by simp [hlength], ?_, fun us' => ?_⟩
    · rw [hundo', hundo, List.append_assoc, hkeep]
    · rw [List.length_append, List.length_singleton, unwind, ← List.append_assoc,
        disconnectTip_stepCore hstep]
      exact hback us'

/-- What a branch leads to does not depend on the stack. -/
lemma replayFrom_congr {front branch : List BlockInputV2} {t₁ t₁' : BlockTransitionV2}
    (h : replayFrom cr p contextsOf front t₁ branch = some t₁') (t₂ : BlockTransitionV2)
    (hcore : t₂.toTransitionCoreV2 = t₁.toTransitionCoreV2) :
    ∃ t₂', replayFrom cr p contextsOf front t₂ branch = some t₂' ∧
      t₂'.toTransitionCoreV2 = t₁'.toTransitionCoreV2 := by
  induction branch generalizing front t₁ t₂ with
  | nil =>
    obtain rfl := Option.some.inj h
    exact ⟨t₂, rfl, hcore⟩
  | cons b branch ih =>
    simp only [replayFrom] at h ⊢
    split_ifs at h with hacc
    obtain ⟨parsed, w₁, w₂, w₃, hblock, htransition⟩ := applyBlock_accepted hacc
    rw [← hcore] at hblock
    have happly := hblock.applyBlock_eq t₂.undo
    rw [if_pos (by rw [happly])]
    exact ih h _ (by rw [happly, htransition])

/-- **A switch can be carried out and taken back.**  Up to as many blocks as the stack may have
entries can be disconnected, which gives exactly the core before them back.  When then the blocks
of another branch are applied, they can be disconnected as well, and the blocks from before are
accepted again and lead to the core from before the switch. -/
theorem switch_can_be_undone {front main : List BlockInputV2} {t₁ : BlockTransitionV2}
    (hmain : replayFrom cr p contextsOf front t main = some t₁)
    (hlimit : main.length ≤ p.limits.maxRecentUndoBlocks) :
    ∃ t₂, unwind p main.length t₁ = some t₂ ∧ t₂.toTransitionCoreV2 = t.toTransitionCoreV2 ∧
      ∀ alternative t₃, replayFrom cr p contextsOf front t₂ alternative = some t₃ →
        alternative.length ≤ p.limits.maxRecentUndoBlocks →
        ∃ t₄ t₅, unwind p alternative.length t₃ = some t₄ ∧
          replayFrom cr p contextsOf front t₄ main = some t₅ ∧
          t₅.toTransitionCoreV2 = t₁.toTransitionCoreV2 := by
  obtain ⟨us, entries, -, hundo, hback⟩ := exists_unwind hmain hlimit
  refine ⟨⟨t.toTransitionCoreV2, us⟩, ?_, rfl, fun alternative t₃ halternative hlimit' => ?_⟩
  · rw [← hback us, ← hundo]
  · obtain ⟨us', entries', -, hundo', hback'⟩ := exists_unwind halternative hlimit'
    obtain ⟨t₅, hagain, hcore⟩ := replayFrom_congr hmain ⟨t.toTransitionCoreV2, us'⟩ rfl
    refine ⟨⟨t.toTransitionCoreV2, us'⟩, t₅, ?_, hagain, hcore⟩
    rw [← hback' us', ← hundo']

/-- Two blocks are disconnected. -/
theorem switch_can_be_undone_sample :
    ∃ t₁ t₂, replay .sample .sample (fun _ => .sample) [.sample 0 1, .sample 1 2] = some t₁ ∧
      unwind .sample 2 t₁ = some t₂ ∧ t₂.toTransitionCoreV2 = {} := by
  have hreplay : (replay .sample .sample (fun _ => .sample) [.sample 0 1, .sample 1 2]).isSome =
      true := by decide +kernel
  obtain ⟨t₁, h₁⟩ := Option.isSome_iff_exists.mp hreplay
  obtain ⟨t₂, h₂, hcore, -⟩ := switch_can_be_undone h₁ (by decide)
  exact ⟨t₁, t₂, h₁, h₂, hcore⟩

end Replays

end BlockTransitionV2

end Qwertycoin
