import Qwertycoin.Ledger

/-
# Chains without records

Blocks whose transactions carry no record are accepted at every height, epoch boundaries included,
as long as they pay what is due.  If no record was ever accepted, no epoch has members and nothing
is due to anyone but the miner.  So a chain can be extended by such blocks as far as heights go.
-/

namespace Qwertycoin

open MembershipPipelineV2

namespace BlockTransitionV2

variable {p : TransitionParametersV2} {core : TransitionCoreV2} {b : BlockInputV2}

/-- A transaction that carries no extra field. -/
def Bare (tx : BlockTransactionContextV2) : Prop :=
  ∃ transaction, tx.transaction = some transaction ∧ transaction.extra = []

lemma structuralPass_bare (hp : p.valid = true) {majorVersion : UInt8}
    (hactive : isQwcEposeV2Hardfork majorVersion = true) {txs : List BlockTransactionContextV2}
    (h : ∀ tx ∈ txs, Bare tx) :
    structuralPass p majorVersion txs {} = .ok (txs.map fun _ => [], {}) := by
  simp only [TransitionParametersV2.valid, BlockTransitionLimitsV2.valid, Bool.and_eq_true,
    decide_eq_true_eq] at hp
  obtain ⟨⟨-, ⟨⟨hmax, -⟩, henvelope⟩, hblock⟩, -⟩ := hp
  have hparse : (p.extraLimits majorVersion).parse [] = .ok ([], {}) :=
    parseTransactionExtraV2_nil hactive henvelope hmax
  induction txs with
  | nil => rfl
  | cons tx txs ih =>
    obtain ⟨transaction, htx, hextra⟩ := h tx List.mem_cons_self
    have ih := ih fun tx hmem => h tx (List.mem_cons_of_mem _ hmem)
    rw [structuralPass, htx, Option.map_some, Option.getD_some, hextra, hparse]
    dsimp only
    rw [chargeBlockBudgetV2_zero hblock]
    exact except_bind_eq_ok_iff.mpr ⟨_, ih, rfl⟩

lemma transactionsPhase_bare (cr : Crypto) (contexts : CanonicalContextSourceV2)
    (hp : p.toSemanticParametersV2.valid = true) {height : UInt64}
    (hheight : p.timing.activationHeight ≤ height) (txs : List BlockTransactionContextV2)
    (w : Work) :
    transactionsPhase cr p contexts height (txs.zip (txs.map fun _ => [])) w {} =
      (w, .accepted, {}) := by
  induction txs with
  | nil => rfl
  | cons tx txs ih =>
    have happly := @SemanticStateV2.applyTransaction_nil _
      ⟨height, tx.coinbase, tx.payment, tx.validatedPayment⟩ cr contexts hp w.state (some w.undo)
      hheight
    simp only [List.map_cons, List.zip_cons_cons, transactionsPhase, happly]
    exact ih

lemma blockPrecheck_eq_accepted (hp : p.valid = true)
    (hactive : isQwcEposeV2Hardfork b.majorVersion = true)
    (hnext : b.height.toNat = nextHeight p core) (hhash : b.blockHash ≠ nullHash)
    (hfirst : b.transactions.head?.any (·.coinbase) = true)
    (hsome : ∀ tx ∈ b.transactions, tx.transaction.isNone = false)
    (hothers : ∀ tx ∈ b.transactions.tail, tx.coinbase = false) :
    blockPrecheck p core b = .accepted := by
  have hlt := b.height.toNat_lt
  have hsequential : ¬((!core.haveTip && decide (b.height ≠ p.timing.activationHeight)) ||
      (core.haveTip && (decide (core.tipHeight = uint64Max) ||
        decide (b.height ≠ core.tipHeight + 1)))) = true := by
    cases htip : core.haveTip with
    | false =>
      rw [nextHeight, htip, if_neg (by simp), UInt64.toNat_inj] at hnext
      simp [hnext]
    | true =>
      rw [nextHeight, htip, if_pos rfl] at hnext
      have hmax : core.tipHeight ≠ uint64Max := by
        rw [ne_eq, ← UInt64.toNat_inj, toNat_uint64Max]
        omega
      have hsucc : b.height = core.tipHeight + 1 := by
        rw [← UInt64.toNat_inj, UInt64.toNat_add, UInt64.toNat_one]
        omega
      simp [hmax, hsucc]
  unfold blockPrecheck
  rw [if_neg (by simp [hp]), if_neg (by simp [hactive]), if_neg hsequential,
    if_neg (by simp [hhash, hfirst]), if_neg]
  simp only [Bool.or_eq_true, List.any_eq_true, not_or, not_exists, not_and, Bool.not_eq_true]
  exact ⟨hsome, hothers⟩

lemma exists_blockAccepted_bare (cr : Crypto) (contexts : CanonicalContextSourceV2)
    (h : EpochInvariant p core) (hpre : blockPrecheck p core b = .accepted)
    (hactive : isQwcEposeV2Hardfork b.majorVersion = true)
    (hheight : p.timing.activationHeight ≤ b.height)
    (hbare : ∀ tx ∈ b.transactions, Bare tx) :
    ∃ w₁ w₃, BlockAccepted cr p contexts core b (b.transactions.map fun _ => [])
      ⟨b.transactions.length, {}, {}⟩ w₁ w₁ w₃ := by
  have hp := valid_of_blockPrecheck hpre
  have hsemantic : p.toSemanticParametersV2.valid = true := by
    simp only [TransitionParametersV2.valid, Bool.and_eq_true] at hp
    exact hp.2
  obtain ⟨w₁, hfreeze, hrest⟩ := h.phases cr hpre core.state.checkpoint
  obtain ⟨w₃, hclose, -⟩ := hrest contexts w₁ .refl
  exact ⟨w₁, w₃, hpre, structuralPass_bare hp hactive hbare, hfreeze,
    transactionsPhase_bare cr contexts hsemantic hheight b.transactions w₁, Nat.le_refl _,
    Nat.le_refl _, hclose, rfl⟩

end BlockTransitionV2

/-! ## States that nobody has joined -/

/-- No lease is stored, and no snapshot or qualified set has anyone in it. -/
structure SemanticStateV2.Vacant (s : SemanticStateV2) : Prop where
  leases : s.membership.leases = []
  frozen : ∀ epoch frozen, s.membership.snapshot epoch = some frozen → frozen.members = []
  closed : ∀ epoch closed, s.membership.qualification epoch = some closed →
    closed.qualifiedNodes = []

namespace BlockTransitionV2

variable {cr : Crypto} {p : TransitionParametersV2} {core : TransitionCoreV2} {b : BlockInputV2}

lemma vacant_fresh : ({} : TransitionCoreV2).state.Vacant :=
  ⟨rfl, fun epoch frozen h => by simp [snapshot] at h,
    fun epoch closed h => by simp [qualification] at h⟩

lemma vacant_of_blockAccepted (h : core.state.Vacant) {contexts : CanonicalContextSourceV2}
    {parsed : List (List EnvelopeRecordV2)} {summary : BlockApplySummaryV2} {w₁ w₃ : Work}
    (hblock : BlockAccepted cr p contexts core b parsed summary w₁ w₁ w₃) : w₃.state.Vacant := by
  have hp := valid_of_blockPrecheck hblock.precheck
  have h₁ : w₁.state.Vacant := by
    obtain ⟨status, -, hstatus, hphase, -⟩ | ⟨hphase, -⟩ | ⟨epoch, frozen, -, hfreezes, hphase⟩ :=
      freezePhase_cases cr (membershipValid_of_valid hp) b ⟨core.state, core.state.checkpoint⟩ <;>
      obtain ⟨rfl, heq⟩ := Prod.mk.inj (hblock.freeze.symm.trans hphase)
    · exact absurd heq.symm hstatus
    · exact h
    · refine ⟨h.leases, fun epoch' frozen' hfind => ?_, h.closed⟩
      simp only [snapshot, storeSnapshot, Std.ExtTreeMap.getElem?_insert] at hfind
      split_ifs at hfind
      · obtain rfl := Option.some.inj hfind
        obtain ⟨cutoff, -, -, -, rfl⟩ := hfreezes.members
        simp [h.leases, eligibleMembers, snapshotOf]
      · exact h.frozen epoch' frozen' hfind
  obtain ⟨status, -, hstatus, hphase, -⟩ | ⟨hphase, -⟩ | ⟨epoch, closed, -, -, hcloses, hphase⟩ :=
    closePhase_cases cr (membershipValid_of_valid hp) b w₁ <;>
    obtain ⟨rfl, heq⟩ := Prod.mk.inj (hblock.close.symm.trans hphase)
  · exact absurd heq.symm hstatus
  · exact h₁
  · refine ⟨h₁.leases, h₁.frozen, fun epoch' closed' hfind => ?_⟩
    simp only [qualification, storeQualification, Std.ExtTreeMap.getElem?_insert] at hfind
    split_ifs at hfind
    · obtain rfl := Option.some.inj hfind
      obtain ⟨frozen, hfrozen, rfl⟩ := hcloses.nodes
      have hsub := SemanticStateV2.qualifiedNodes_sublist w₁.state.membership p.committeePolicy
        epoch frozen.members
      rw [h₁.frozen epoch frozen hfrozen, List.map_nil] at hsub
      have hnone := List.sublist_nil.mp hsub
      rw [h₁.frozen epoch frozen hfrozen]
      exact hnone
    · exact h₁.closed epoch' closed' hfind

end BlockTransitionV2

namespace ConsensusCoordinatorV2

variable {p : ConsensusParametersV2} {core : TransitionCoreV2} {block : CoordinatorBlockV2}

lemma exists_planReward_vacant (cr : Crypto) (contexts : CanonicalContextSourceV2)
    (hp : p.valid = true) (hpolicy : p.emptyPolicy = .minerFallback)
    (hinv : BlockTransitionV2.EpochInvariant p.toTransitionParametersV2 core)
    (hvacant : core.state.Vacant) {height firstPayoutHeight : UInt64}
    (hfirst : p.timing.firstPayoutHeight = some firstPayoutHeight)
    (hnext : height.toNat = BlockTransitionV2.nextHeight p.toTransitionParametersV2 core)
    (parentHash : Hash) (hparent : height ≠ 0 → parentHash ≠ nullHash)
    {scheduledSubsidy transactionFees : UInt64}
    (hfits : scheduledSubsidy.toNat + transactionFees.toNat < 2 ^ 64) :
    ∃ allocation, planReward cr p contexts core.state height parentHash scheduledSubsidy
        transactionFees = .ok ⟨allocation, none⟩ ∧
      allocation.coinbaseTotal.toNat = scheduledSubsidy.toNat + transactionFees.toNat := by
  by_cases hbefore : height < firstPayoutHeight
  · exact planReward_before cr contexts core.state hp hfirst hbefore parentHash hfits
  have hafter := UInt64.not_lt.mp hbefore
  have hv := BlockTransitionV2.timing_valid (valid_iff.mp hp).2
  obtain ⟨hsource, hone, hlow, hhigh⟩ := payoutEpoch_spec hp hfirst hafter
  generalize hepoch : height / p.timing.epochLength = payoutEpoch at *
  have hlt := height.toNat_lt
  have hlen := EpochTimingV2.len_gt_one hv
  have hservice : p.timing.firstService = 1 := by
    simp [EpochTimingV2.firstService, activationHeight_eq_zero hp]
  have hne : payoutEpoch ≠ 0 := by
    rintro rfl
    simp at hone
  have hzero : height ≠ 0 := by
    rintro rfl
    rw [UInt64.toNat_zero, Nat.le_zero, Nat.mul_eq_zero] at hlow
    omega
  -- the epoch before has been settled, with nobody in it
  have hmem : payoutEpoch - 1 ∈ core.state.membership.qualifications := by
    refine (hinv.closed _).mpr ⟨by omega, ?_, ?_⟩ <;> rw [hsource] <;> omega
  obtain ⟨qualification, hqualification⟩ := Option.isSome_iff_exists.mp
    (Std.ExtTreeMap.mem_iff_isSome_getElem?.mp hmem)
  have hdue : duePayee cr p contexts core.state qualification payoutEpoch (payoutEpoch - 1) height =
      .ok none := by
    rw [duePayee, if_pos (hvacant.closed _ _ hqualification)]
  obtain ⟨allocation, hplan⟩ := planReward_after hp hfirst hafter (hparent hzero) hfits hepoch hne
    hqualification hdue
  refine ⟨allocation, hplan, ?_⟩
  have htotal := (planReward_eq_ok hplan).1
  rw [(planReward_issued hpolicy hplan).1] at htotal
  exact htotal

/-- Before anyone has joined, a block without records that pays its miner everything is accepted. -/
lemma exists_connects_vacant (cr : Crypto) (contexts : CanonicalContextSourceV2)
    (hp : p.valid = true) (hpolicy : p.emptyPolicy = .minerFallback)
    (hinv : BlockTransitionV2.EpochInvariant p.toTransitionParametersV2 core)
    (hvacant : core.state.Vacant) {firstPayoutHeight : UInt64}
    (hfirst : p.timing.firstPayoutHeight = some firstPayoutHeight)
    (hnext : block.height.toNat = BlockTransitionV2.nextHeight p.toTransitionParametersV2 core)
    (hshape : blockShapeValid p block = true) {coinbase : Transaction}
    (hcoinbase : block.coinbase = some coinbase) (hextra : coinbase.extra = [])
    (hbare : ∀ tx ∈ block.transactions, ∃ transaction, tx = some transaction ∧
      transaction.extra = [])
    {total : UInt64} (hsum : sumOutputs coinbase.vout 0 = some total)
    (hpays : total.toNat = block.scheduledSubsidy.toNat + block.transactionFees.toNat) :
    ∃ core', Connects cr p contexts block core core' ∧ core'.state.Vacant ∧
      core'.haveTip = true ∧ core'.tipHeight = block.height := by
  have hactivation := activationHeight_eq_zero hp
  have hshape' := hshape
  simp only [blockShapeValid, Bool.and_eq_true, decide_eq_true_eq, Bool.or_eq_true] at hshape'
  obtain ⟨⟨⟨⟨hactive, hhash⟩, hparent⟩, hgen⟩, -⟩ := hshape'
  obtain ⟨allocation, hplan, htotal⟩ := exists_planReward_vacant cr contexts hp hpolicy hinv hvacant
    hfirst hnext block.parentHash
    (fun hne => hparent.resolve_left (by rw [hactivation]; exact hne))
    (hpays ▸ total.toNat_lt)
  have htotal : total = allocation.coinbaseTotal := UInt64.toNat_inj.mp (hpays.trans htotal.symm)
  have hprepare : preparePayment cr p contexts core.state block =
      .ok (coinbase, ⟨allocation, none⟩, none, 0) := by
    unfold preparePayment
    rw [if_neg (by simp [hp]), if_neg (by simp [hshape]), hcoinbase]
    refine except_bind_eq_ok_iff.mpr ⟨_, hplan, ?_⟩
    rw [hsum]
    dsimp only
    rw [if_neg (not_not.mpr htotal)]
    rfl
  have hall : ∀ tx ∈ (transitionInput block coinbase none).transactions,
      BlockTransitionV2.Bare tx := by
    intro tx htx
    obtain rfl | htx := List.mem_cons.mp htx
    · exact ⟨coinbase, rfl, hextra⟩
    · obtain ⟨transaction, hmem, rfl⟩ := List.mem_map.mp htx
      exact hbare transaction hmem
  have hpre : BlockTransitionV2.blockPrecheck p.toTransitionParametersV2 core
      (transitionInput block coinbase none) = .accepted := by
    refine BlockTransitionV2.blockPrecheck_eq_accepted (valid_iff.mp hp).2 hactive hnext hhash rfl
      (fun tx htx => ?_) fun tx htx => ?_
    · obtain ⟨transaction, htx, -⟩ := hall tx htx
      rw [htx]
      rfl
    · obtain ⟨transaction, -, rfl⟩ := List.mem_map.mp htx
      rfl
  obtain ⟨w₁, w₃, hblock⟩ := BlockTransitionV2.exists_blockAccepted_bare cr contexts hinv hpre
    hactive (by rw [hactivation]; exact UInt64.zero_le) hall
  exact ⟨_, ⟨_, _, _, _, _, hprepare, BlockTransitionV2.stepCore_eq_some_iff.mpr
    ⟨_, _, _, _, _, hblock, rfl, rfl⟩⟩, BlockTransitionV2.vacant_of_blockAccepted hvacant hblock,
    rfl, rfl⟩

end ConsensusCoordinatorV2

/-! ## Chains of such blocks -/

open Bytes ConsensusCoordinatorV2

/-- A Coinbase that is worth the reward and the fees passes the inherited check. -/
lemma validateMinerTransaction_exact {b : MainChainBlock} {fee coins reward : UInt64}
    (hreward : getBlockReward b.currentBlockCumulWeightMedian b.cumulativeBlockWeight coins
      hfVersionQwcEpose = some reward)
    (hsum : (b.minerTx.vout.map (·.amount)).sum = reward + fee) :
    validateMinerTransaction b fee coins hfVersionQwcEpose = some (reward, false) := by
  unfold validateMinerTransaction
  dsimp only
  rw [if_neg (by simp [hfVersionQwcEpose])]
  refine Option.bind_eq_some_iff.mpr ⟨reward, ?_, ?_⟩
  · rw [if_pos (by decide)]
    exact hreward
  · rw [hsum, if_neg (UInt64.lt_irrefl _), if_pos (by decide), if_neg (by simp)]

lemma getBlockReward_light (medianWeight coins : UInt64) :
    ∃ reward, getBlockReward medianWeight 1000 coins hfVersionQwcEpose = some reward ∧
      getBlockReward 300000 1000 coins hfVersionQwcEpose = some reward := by
  have hlight : ∀ medianWeight : UInt64, (1000 : UInt64) ≤
      if medianWeight < getMinBlockWeight hfVersionQwcEpose then
        getMinBlockWeight hfVersionQwcEpose else medianWeight := by
    intro medianWeight
    have hzone : getMinBlockWeight hfVersionQwcEpose = 300000 := by decide
    rw [hzone]
    split_ifs with hlt
    · decide
    · exact UInt64.le_trans (by decide) (UInt64.not_lt.mp hlt)
  unfold getBlockReward
  dsimp only
  rw [if_pos (hlight medianWeight), if_pos (hlight 300000)]
  exact ⟨_, rfl, rfl⟩

namespace Ledger

/-- A next block that pays its subsidy to a key and has transactions without fees. -/
def sampleBlock (l : Ledger) (transactions : List Transaction) : MainChainBlock :=
  let height := l.blocks.length
  let amount := (getBlockReward 300000 1000 (l.chain.coinsBefore height) hfVersionQwcEpose).getD 0
  { majorVersion := hfVersionQwcEpose
    blockHash := Block.ofNat 32 (height + 1)
    prevId := l.topBlockHash
    minerTx := ⟨2, UInt64.ofNat height + 60, [.gen height],
      [⟨amount, .toTaggedKey (sampleKey 99) 0⟩], [], [0]⟩
    transactions
    fees := transactions.map fun _ => 0
    cumulativeBlockWeight := 1000
    currentBlockCumulWeightMedian := 0
    lastBlocksWeightMedian := 0 }

/-- A ledger with so many blocks, none of which carried a record. -/
structure Quiet (l : Ledger) (n : ℕ) : Prop where
  blocks : l.blocks.length = n
  coins : l.chain.alreadyGeneratedCoins.length = n
  ids : l.ids = (List.range n).map fun i => Block.ofNat 32 (i + 1)
  epochs : BlockTransitionV2.EpochInvariant (ConsensusParametersV2.sample 3).toTransitionParametersV2
    l.chain.coordinator.toTransitionCoreV2
  vacant : l.chain.coordinator.state.Vacant
  next : BlockTransitionV2.nextHeight (ConsensusParametersV2.sample 3).toTransitionParametersV2
    l.chain.coordinator.toTransitionCoreV2 = n

lemma quiet_fresh : Quiet {} 0 :=
  ⟨rfl, rfl, rfl, BlockTransitionV2.epochInvariant_fresh (by decide), BlockTransitionV2.vacant_fresh,
    by decide⟩

variable {l : Ledger} {n : ℕ} {transactions : List Transaction}

lemma exists_sampleBlock_reward (l : Ledger) (transactions : List Transaction)
    (medianWeight : UInt64) : ∃ reward,
    getBlockReward medianWeight 1000 (l.chain.coinsBefore l.blocks.length) hfVersionQwcEpose =
        some reward ∧
      (l.sampleBlock transactions).minerTx.vout = [⟨reward, .toTaggedKey (sampleKey 99) 0⟩] := by
  obtain ⟨reward, hreward, hlight⟩ :=
    getBlockReward_light medianWeight (l.chain.coinsBefore l.blocks.length)
  exact ⟨reward, hreward, by simp [sampleBlock, hlight]⟩

lemma Quiet.blockHash_notMem (h : l.Quiet n) (hn : n < 2 ^ 64) :
    Block.ofNat 32 (n + 1) ∉ l.ids := by
  rw [h.ids]
  intro hmem
  obtain ⟨i, hi, heq⟩ := List.mem_map.mp hmem
  have hi := List.mem_range.mp hi
  have hbig : (2 : ℕ) ^ 64 + 1 < 256 ^ 32 := by norm_num
  have := (Block.ofNat_inj (n := 32) (by omega) (by omega)).mp heq
  omega

lemma Quiet.topBlockHash_ne (h : l.Quiet n) (hn : n < 2 ^ 64) (hpos : n ≠ 0) :
    l.topBlockHash ≠ nullHash := by
  obtain ⟨m, rfl⟩ := Nat.exists_eq_succ_of_ne_zero hpos
  have hbig : (2 : ℕ) ^ 64 < 256 ^ 32 := by norm_num
  have hne : Block.ofNat 32 (m + 1) ≠ nullHash := Block.ofNat_ne_zero (by omega) (by omega)
  rw [topBlockHash, h.ids, List.range_succ]
  simpa using hne

lemma Quiet.connects (h : l.Quiet n) (hn : n < 2 ^ 64)
    (hbare : ∀ tx ∈ transactions, tx.extra = [] ∧ isCoinbase tx = false) {reward : UInt64}
    (hvout : (l.sampleBlock transactions).minerTx.vout = [⟨reward, .toTaggedKey (sampleKey 99) 0⟩]) :
    ∃ core', Connects .sample (.sample 3) (canonicalContexts (.sample 3) l.ids)
        ((l.sampleBlock transactions).candidate (UInt64.ofNat n) reward 0)
        l.chain.coordinator.toTransitionCoreV2 core' ∧
      core'.state.Vacant ∧ core'.haveTip = true ∧ core'.tipHeight = UInt64.ofNat n := by
  have hheight : (UInt64.ofNat n).toNat = n := toNat_ofNat_of_fits hn
  have hbig : (2 : ℕ) ^ 64 + 1 < 256 ^ 32 := by norm_num
  have hsum : sumOutputs (l.sampleBlock transactions).minerTx.vout 0 = some reward := by
    rw [hvout]
    simp [sumOutputs]
  refine exists_connects_vacant .sample (canonicalContexts (.sample 3) l.ids) (by decide) rfl
    h.epochs h.vacant (show _ = some 6 by decide) (hheight.trans h.next.symm) ?_ rfl rfl ?_ hsum
    (by simp [MainChainBlock.candidate])
  · have hparent : UInt64.ofNat n = 0 ∨ l.topBlockHash ≠ nullHash := by
      by_cases hzero : n = 0
      · exact Or.inl (by rw [hzero]; rfl)
      · exact Or.inr (h.topBlockHash_ne hn hzero)
    have hhash : Block.ofNat 32 (l.blocks.length + 1) ≠ nullHash := by
      rw [h.blocks]
      exact Block.ofNat_ne_zero (by omega) (by omega)
    have hothers : ∀ tx ∈ transactions, isCoinbase tx = false := fun tx htx => (hbare tx htx).2
    simp only [blockShapeValid, MainChainBlock.candidate, sampleBlock, Bool.and_eq_true,
      Bool.or_eq_true, List.all_map, List.all_eq_true, Function.comp_apply, Option.any_some,
      Bool.not_eq_true']
    exact ⟨⟨⟨⟨by decide, decide_eq_true hhash⟩,
      hparent.imp (fun h => decide_eq_true h) fun h => decide_eq_true h⟩, rfl⟩, hothers⟩
  · intro tx htx
    obtain ⟨transaction, hmem, rfl⟩ := List.mem_map.mp htx
    exact ⟨transaction, rfl, (hbare transaction hmem).1⟩

/-- **A quiet chain goes on** with a block of given transactions. -/
theorem Quiet.exists_handleBlock (h : l.Quiet n) (hn : n < 2 ^ 64)
    (hbare : ∀ tx ∈ transactions, tx.extra = [] ∧ isCoinbase tx = false) :
    ∃ l' entry, l.handleBlock .sample (.sample 3) (l.sampleBlock transactions) = some (l', entry) ∧
      l'.Quiet (n + 1) ∧ entry.stored.block.transactions = transactions := by
  have hheight : (UInt64.ofNat n).toNat = n := toNat_ofNat_of_fits hn
  obtain ⟨reward, hreward, hvout⟩ := exists_sampleBlock_reward l transactions
    (updateNextCumulativeWeightLimit hfVersionQwcEpose l.blocks)
  obtain ⟨core', hconnects, hvacant, htip, htipHeight⟩ := h.connects hn hbare hvout
  obtain ⟨result, hresult, hcore⟩ := hconnects.connectBlock_ok
  have hfees : (l.sampleBlock transactions).fees.sum = 0 := by
    simp [sampleBlock]
  obtain ⟨chain, hmain⟩ : ∃ chain, handleBlockToMainChain .sample (.sample 3)
      (canonicalContexts (.sample 3) l.ids) l.chain (l.prepare (l.sampleBlock transactions)) =
        some (chain, reward, result) := by
    have hexact : validateMinerTransaction (l.prepare (l.sampleBlock transactions))
        (l.prepare (l.sampleBlock transactions)).fees.sum
        (l.chain.coinsBefore l.chain.alreadyGeneratedCoins.length) hfVersionQwcEpose =
          some (reward, false) := by
      refine validateMinerTransaction_exact ?_ ?_
      · rw [prepare, MainChainBlock.withMedians_current, MainChainBlock.withMedians_weight,
          h.coins, ← h.blocks]
        exact hreward
      · rw [prepare, MainChainBlock.withMedians_minerTx, MainChainBlock.withMedians_fees, hfees,
          hvout]
        simp
    refine handleBlockToMainChain_of_connected ?_ hexact ?_
    · rw [h.coins, prepare, MainChainBlock.withMedians_minerTx]
      have htypes : checkOutputTypes (l.sampleBlock transactions).minerTx hfVersionQwcEpose = true :=
        by simp [checkOutputTypes, sampleBlock, hfVersionQwcEpose, hfVersionViewTags,
          TxOutTarget.isToTaggedKey]
      have houts : checkOutsOverflow (l.sampleBlock transactions).minerTx.vout 0 = true := by
        simp [hvout, checkOutsOverflow]
      unfold prevalidateMinerTransaction
      have hvin : (l.sampleBlock transactions).minerTx.vin = [.gen n] := by
        simp [sampleBlock, h.blocks]
      have hunlock : (l.sampleBlock transactions).minerTx.unlockTime = UInt64.ofNat n + 60 := by
        simp [sampleBlock, h.blocks]
      simp only [hvin, hunlock, htypes, houts, hheight]
      rfl
    · rw [h.coins, prepare, MainChainBlock.withMedians_candidate,
        MainChainBlock.withMedians_fees, hfees]
      exact hresult
  obtain ⟨-, -, hcoins, hcoordinator⟩ := handleBlockToMainChain_eq_some hmain
  rw [h.coins, prepare, MainChainBlock.withMedians_candidate, MainChainBlock.withMedians_fees, hfees]
    at hcoordinator
  have hchain : chain.coordinator.toTransitionCoreV2 = core' := by rw [hcoordinator, hcore]
  obtain ⟨_, _, _, _, undo, -, hstep⟩ := hconnects
  refine ⟨⟨chain, l.blocks ++ [l.stored (l.sampleBlock transactions)]⟩,
    ⟨l.stored (l.sampleBlock transactions), l.chain.coordinator.state, reward, result⟩, ?_,
    ⟨?_, ?_, ?_, ?_, ?_, ?_⟩, ?_⟩
  · rw [handleBlock, if_neg, hmain]
    · rfl
    · have hnew := h.blockHash_notMem hn
      rw [← h.blocks] at hnew
      rintro (hversion | hparent | hmem)
      · exact hversion rfl
      · exact hparent rfl
      · exact hnew hmem
  · simp [h.blocks]
  · rw [hcoins]
    simp [h.coins]
  · have hids : (l.sampleBlock transactions).blockHash = Block.ofNat 32 (n + 1) := by
      rw [← h.blocks]
      rfl
    rw [Ledger.ids, List.map_append, List.map_singleton, stored_block, prepare_blockHash, hids,
      List.range_succ, List.map_append, List.map_singleton, ← h.ids]
    rfl
  · change BlockTransitionV2.EpochInvariant _ chain.coordinator.toTransitionCoreV2
    rw [hchain]
    exact h.epochs.step hstep
  · change chain.coordinator.toTransitionCoreV2.state.Vacant
    rw [hchain]
    exact hvacant
  · change BlockTransitionV2.nextHeight _ chain.coordinator.toTransitionCoreV2 = n + 1
    rw [hchain, BlockTransitionV2.nextHeight, htip, htipHeight, hheight]
    rfl
  · rw [stored_block, prepare, MainChainBlock.withMedians_transactions]
    rfl

/-- A run goes on over any number of blocks that carry nothing. -/
lemma Quiet.exists_runs {history : List ConnectedBlock} (h : l.Quiet n)
    (hruns : Runs .sample (.sample 3) history l) {count : ℕ} (hfits : n + count ≤ 2 ^ 64) :
    ∃ later l', Runs .sample (.sample 3) (history ++ later) l' ∧ l'.Quiet (n + count) := by
  induction count with
  | zero => exact ⟨[], l, by simpa using hruns, h⟩
  | succ count ih =>
    obtain ⟨later, l₁, hruns₁, hquiet₁⟩ := ih (by omega)
    obtain ⟨l₂, entry, hhandle, hquiet₂, -⟩ := hquiet₁.exists_handleBlock (by omega)
      (show ∀ tx ∈ ([] : List Transaction), _ by simp)
    exact ⟨later ++ [entry], l₂, by rw [← List.append_assoc]; exact hruns₁.handle hhandle, hquiet₂⟩

end Ledger

end Qwertycoin
