import Qwertycoin.Settled
import Qwertycoin.Supply

/-
# The chain in the database

The database stores with each block its weight, its long-term weight and the coins generated up to
it.  From these come the medians that the next block is checked against, and the identifiers of the
stored blocks are what the coordinator is told about the chain.  A run of the ledger adds blocks and
takes the newest one back; what it has connected is remembered together with the state it was
connected to.
-/

namespace Qwertycoin

/-! ## Weights -/

/-- `CRYPTONOTE_REWARD_BLOCKS_WINDOW` -/
def rewardBlocksWindow : ℕ := 100
/-- `CRYPTONOTE_LONG_TERM_BLOCK_WEIGHT_WINDOW_SIZE` -/
def longTermBlockWeightWindowSize : ℕ := 100000
/-- `CRYPTONOTE_BLOCK_GRANTED_FULL_REWARD_ZONE_V5` -/
def blockGrantedFullRewardZoneV5 : UInt64 := 300000
/-- `CRYPTONOTE_SHORT_TERM_BLOCK_WEIGHT_SURGE_FACTOR` -/
def shortTermBlockWeightSurgeFactor : UInt64 := 50
/-- `HF_VERSION_LONG_TERM_BLOCK_WEIGHT` -/
def hfVersionLongTermBlockWeight : UInt8 := 10
/-- `HF_VERSION_2021_SCALING` -/
def hfVersion2021Scaling : UInt8 := 15

/-- `get_mid`: the average of two numbers, without overflow. -/
def getMid (a b : UInt64) : UInt64 :=
  a / 2 + b / 2 + ((a - 2 * (a / 2)) + (b - 2 * (b / 2))) / 2

/-- `epee::misc_utils::median`; zero if there is nothing. -/
def median (values : List UInt64) : UInt64 :=
  let sorted := values.insertionSort (· ≤ ·)
  let n := values.length / 2
  if values.length % 2 = 1 then sorted.getD n 0 else getMid (sorted.getD (n - 1) 0) (sorted.getD n 0)

/-- A block with the long-term weight that is stored with it. -/
structure StoredBlock where
  block : MainChainBlock
  longTermWeight : UInt64
deriving DecidableEq

/-- `m_long_term_effective_median_block_weight` on top of stored blocks. -/
def longTermEffectiveMedian (blocks : List StoredBlock) : UInt64 :=
  max blockGrantedFullRewardZoneV5
    (median (Reorg.keepLast longTermBlockWeightWindowSize (blocks.map (·.longTermWeight))))

/-- The median of `get_last_n_blocks_weights`. -/
def shortTermMedian (blocks : List StoredBlock) : UInt64 :=
  median (Reorg.keepLast rewardBlocksWindow (blocks.map (·.block.cumulativeBlockWeight)))

/-- The median of short-term weights, bounded by long-term ones. -/
def effectiveMedian (version : UInt8) (longTerm shortTerm : UInt64) : UInt64 :=
  if hfVersion2021Scaling ≤ version then
    min (max longTerm shortTerm) (shortTermBlockWeightSurgeFactor * longTerm)
  else
    min (max blockGrantedFullRewardZoneV5 shortTerm) (shortTermBlockWeightSurgeFactor * longTerm)

/-- `update_next_cumulative_weight_limit`: `m_current_block_cumul_weight_median` on top of stored
blocks. -/
def updateNextCumulativeWeightLimit (version : UInt8) (blocks : List StoredBlock) : UInt64 :=
  let fullRewardZone := getMinBlockWeight version
  let median :=
    if version < hfVersionLongTermBlockWeight then shortTermMedian blocks
    else effectiveMedian version (longTermEffectiveMedian blocks) (shortTermMedian blocks)
  if median ≤ fullRewardZone then fullRewardZone else median

/-- `get_next_long_term_block_weight` -/
def getNextLongTermBlockWeight (version : UInt8) (blocks : List StoredBlock)
    (blockWeight : UInt64) : UInt64 :=
  if version < hfVersionLongTermBlockWeight ∨ blocks = [] then blockWeight
  else
    let longTerm := longTermEffectiveMedian blocks
    if hfVersion2021Scaling ≤ version then
      min (max blockWeight (longTerm * 10 / 17)) (longTerm + longTerm * 7 / 10)
    else min blockWeight (longTerm + longTerm * 2 / 5)

/-! ## Adding and removing blocks -/

/-- What the chain answers about its own blocks. -/
def canonicalContexts (p : ConsensusParametersV2) (ids : List Hash) : CanonicalContextSourceV2 where
  blockHash height := (ids[height.toNat]?).filter (· ≠ nullHash)
  roundAnchor epoch round := do
    let offset ← p.committeePolicy.roundOffsets[round.toNat]?
    let anchorHeight ←
      if round = 0 then p.timing.committeeAnchor epoch
      else do checkedAdd (← p.timing.epochStart epoch) offset
    (ids[anchorHeight.toNat]?).filter (· ≠ nullHash)

/-- A block with the medians it is checked against. -/
def MainChainBlock.withMedians (b : MainChainBlock) (current last : UInt64) : MainChainBlock :=
  { b with currentBlockCumulWeightMedian := current, lastBlocksWeightMedian := last }

namespace MainChainBlock

variable (b : MainChainBlock) (current last : UInt64)

@[simp] lemma withMedians_majorVersion :
    (b.withMedians current last).majorVersion = b.majorVersion := rfl

@[simp] lemma withMedians_blockHash :
    (b.withMedians current last).blockHash = b.blockHash := rfl

@[simp] lemma withMedians_current :
    (b.withMedians current last).currentBlockCumulWeightMedian = current := rfl

@[simp] lemma withMedians_weight :
    (b.withMedians current last).cumulativeBlockWeight = b.cumulativeBlockWeight := rfl

@[simp] lemma withMedians_minerTx : (b.withMedians current last).minerTx = b.minerTx := rfl

@[simp] lemma withMedians_transactions :
    (b.withMedians current last).transactions = b.transactions := rfl

@[simp] lemma withMedians_fees : (b.withMedians current last).fees = b.fees := rfl

@[simp] lemma withMedians_candidate (height scheduledSubsidy fees : UInt64) :
    (b.withMedians current last).candidate height scheduledSubsidy fees =
      b.candidate height scheduledSubsidy fees := rfl

end MainChainBlock

/-- The coordinator, the coins generated up to each block, and the stored blocks. -/
structure Ledger where
  chain : MainChain := {}
  blocks : List StoredBlock := []

/-- A block of the chain, with the state it was connected to, its subsidy and the coordinator's
result. -/
structure ConnectedBlock where
  stored : StoredBlock
  before : SemanticStateV2
  subsidy : UInt64
  result : CoordinatorResultV2

namespace Ledger

/-- The identifiers of the stored blocks. -/
def ids (l : Ledger) : List Hash :=
  l.blocks.map (·.block.blockHash)

/-- `top_block_hash` -/
def topBlockHash (l : Ledger) : Hash :=
  l.ids.getLast?.getD nullHash

/-- A block with the medians on top of the ledger. -/
def prepare (l : Ledger) (b : MainChainBlock) : MainChainBlock :=
  b.withMedians (updateNextCumulativeWeightLimit hfVersionQwcEpose l.blocks)
    (shortTermMedian l.blocks)

/-- The entry of the database for a new block. -/
def stored (l : Ledger) (b : MainChainBlock) : StoredBlock where
  block := l.prepare b
  longTermWeight :=
    getNextLongTermBlockWeight hfVersionQwcEpose l.blocks b.cumulativeBlockWeight

variable (cr : Crypto) (p : ConsensusParametersV2)

/-- `handle_block_to_main_chain`: a block of the fork's version on top of the chain is checked,
connected and stored. -/
def handleBlock (l : Ledger) (b : MainChainBlock) : Option (Ledger × ConnectedBlock) :=
  if b.majorVersion ≠ hfVersionQwcEpose ∨ b.prevId ≠ l.topBlockHash ∨ b.blockHash ∈ l.ids then none
  else do
    let (chain, subsidy, result) ←
      handleBlockToMainChain cr p (canonicalContexts p l.ids) l.chain (l.prepare b)
    some (⟨chain, l.blocks ++ [l.stored b]⟩,
      ⟨l.stored b, l.chain.coordinator.state, subsidy, result⟩)

/-- The ledger without its newest block, with a coordinator. -/
def pop (l : Ledger) (coordinator : BlockTransitionV2) : Ledger where
  chain := ⟨coordinator, l.chain.alreadyGeneratedCoins.dropLast⟩
  blocks := l.blocks.dropLast

/-- The blocks of the chain, in order, and the ledger after blocks were handled and popped; the
coordinator could disconnect every popped block. -/
inductive Runs : List ConnectedBlock → Ledger → Prop
  | fresh : Runs [] {}
  | handle {history l l' b entry} : Runs history l → l.handleBlock cr p b = some (l', entry) →
      Runs (history ++ [entry]) l'
  | pop {history l height} : Runs history l →
      (ConsensusCoordinatorV2.disconnectTip p l.chain.coordinator height).2 = .accepted →
      Runs history.dropLast
        (l.pop (ConsensusCoordinatorV2.disconnectTip p l.chain.coordinator height).1)

variable {cr p} {l l' : Ledger} {b : MainChainBlock} {entry : ConnectedBlock}
  {history : List ConnectedBlock}

@[simp] lemma stored_block : (l.stored b).block = l.prepare b := rfl

@[simp] lemma prepare_majorVersion : (l.prepare b).majorVersion = b.majorVersion := by
  rw [prepare, MainChainBlock.withMedians_majorVersion]

@[simp] lemma prepare_blockHash : (l.prepare b).blockHash = b.blockHash := by
  rw [prepare, MainChainBlock.withMedians_blockHash]

lemma prepare_median : (l.prepare b).currentBlockCumulWeightMedian =
    updateNextCumulativeWeightLimit hfVersionQwcEpose l.blocks := by
  rw [prepare, MainChainBlock.withMedians_current]

lemma handleBlock_eq_some (h : l.handleBlock cr p b = some (l', entry)) :
    b.majorVersion = hfVersionQwcEpose ∧ b.blockHash ∉ l.ids ∧ ∃ chain,
      handleBlockToMainChain cr p (canonicalContexts p l.ids) l.chain (l.prepare b) =
        some (chain, entry.subsidy, entry.result) ∧
      l' = ⟨chain, l.blocks ++ [l.stored b]⟩ ∧ entry.stored = l.stored b ∧
      entry.before = l.chain.coordinator.state := by
  unfold handleBlock at h
  split_ifs at h with hbad
  simp only [not_or, not_not] at hbad
  obtain ⟨⟨chain, subsidy, result⟩, hhandle, h⟩ := Option.bind_eq_some_iff.mp h
  obtain ⟨rfl, rfl⟩ := Prod.mk.inj (Option.some.inj h)
  exact ⟨hbad.1, hbad.2.2, chain, hhandle, rfl, rfl, rfl⟩

/-! ## What a run has connected -/

lemma getElem?_concat_eq_some {α : Type} {xs : List α} {x y : α} {k : ℕ}
    (h : (xs ++ [x])[k]? = some y) : k < xs.length ∧ xs[k]? = some y ∨ k = xs.length ∧ y = x := by
  obtain hlt | hge := Nat.lt_or_ge k xs.length
  · exact .inl ⟨hlt, by rwa [List.getElem?_append_left hlt] at h⟩
  · have hk := (List.getElem?_eq_some_iff.mp h).1
    rw [List.length_append, List.length_singleton] at hk
    obtain rfl : k = xs.length := by omega
    exact .inr ⟨rfl, by simpa using h.symm⟩

/-- What is known of a block at a height: it was connected to the state of a core, with the subsidy
that follows from the blocks below it. -/
structure ConnectedAt (cr : Crypto) (p : ConsensusParametersV2) (l : Ledger) (k : ℕ)
    (entry : ConnectedBlock) (core : TransitionCoreV2) : Prop where
  stored : l.blocks[k]? = some entry.stored
  version : entry.stored.block.majorVersion = hfVersionQwcEpose
  before : entry.before = core.state
  reward : getBlockReward (updateNextCumulativeWeightLimit hfVersionQwcEpose (l.blocks.take k))
    entry.stored.block.cumulativeBlockWeight (l.chain.coinsBefore k) hfVersionQwcEpose =
      some entry.subsidy
  connected : ∃ t : BlockTransitionV2, t.toTransitionCoreV2 = core ∧
    (ConsensusCoordinatorV2.connectBlock cr p (canonicalContexts p (l.ids.take k)) t
      (entry.stored.block.candidate (UInt64.ofNat k) entry.subsidy
        entry.stored.block.fees.sum)).2 = .ok entry.result

/-- The coordinator is the replay of calls, one for each stored block, and each block was connected
to the replay of the calls below it. -/
structure Traced (cr : Crypto) (p : ConsensusParametersV2) (history : List ConnectedBlock)
    (l : Ledger) : Prop where
  blocks : l.blocks = history.map (·.stored)
  coins : l.chain.alreadyGeneratedCoins.length = history.length
  nodup : l.ids.Nodup
  run : ∃ calls : List BlockTransitionV2.Call, calls.length = history.length ∧
    Reorg.Run (BlockTransitionV2.machine cr p.toTransitionParametersV2)
      p.limits.maxRecentUndoBlocks calls l.chain.coordinator.toTransitionCoreV2
      l.chain.coordinator.undo ∧
    ∀ (k : ℕ) (entry : ConnectedBlock), history[k]? = some entry → ∃ core us,
      Reorg.Replay (BlockTransitionV2.machine cr p.toTransitionParametersV2) (calls.take k)
        core us ∧ ConnectedAt cr p l k entry core

lemma ConnectedAt.congr {k : ℕ} {core : TransitionCoreV2} (h : ConnectedAt cr p l k entry core)
    (hblocks : l'.blocks.take (k + 1) = l.blocks.take (k + 1))
    (hcoins : l'.chain.coinsBefore k = l.chain.coinsBefore k) :
    ConnectedAt cr p l' k entry core := by
  have hbelow : l'.blocks.take k = l.blocks.take k := by
    have := congrArg (List.take k) hblocks
    simpa [List.take_take] using this
  have hids : l'.ids.take k = l.ids.take k := by
    simp only [ids, ← List.map_take, hbelow]
  have hstored : l'.blocks[k]? = l.blocks[k]? := by
    have := congrArg (·[k]?) hblocks
    simpa using this
  exact ⟨hstored.trans h.stored, h.version, h.before, by rw [hbelow, hcoins]; exact h.reward,
    by rw [hids]; exact h.connected⟩

lemma traced_fresh : Traced cr p [] {} :=
  ⟨rfl, rfl, List.nodup_nil, [], rfl, .start, by simp⟩

lemma Traced.handle (h : Traced cr p history l) (hhandle : l.handleBlock cr p b = some (l', entry)) :
    Traced cr p (history ++ [entry]) l' := by
  obtain ⟨hversion, hnew, chain, hmain, rfl, hstored, hbefore⟩ := handleBlock_eq_some hhandle
  obtain ⟨hreward, hconnect, hcoins, hcoordinator⟩ := handleBlockToMainChain_eq_some hmain
  obtain ⟨calls, hlength, hrun, hentries⟩ := h.run
  have hcount : l.chain.alreadyGeneratedCoins.length = history.length := h.coins
  have hblocks : l.blocks.length = history.length := by rw [h.blocks, List.length_map]
  rw [hcount] at hreward hconnect hcoordinator
  have hbelow : ∀ k ≤ history.length, MainChain.coinsBefore chain k = l.chain.coinsBefore k := by
    intro k hk
    obtain ⟨coordinator, coins⟩ := chain
    obtain rfl : coins = _ := hcoins
    exact coinsBefore_append (hcount ▸ hk) _
  -- the call that the coordinator makes
  obtain ⟨coinbase, plan, validated, signatures, -, happly, htransition⟩ :=
    ConsensusCoordinatorV2.connectBlock_ok hconnect
  obtain ⟨undo, hstep, hundo⟩ := BlockTransitionV2.applyBlock_eq_stepCore happly
  generalize hinput : ConsensusCoordinatorV2.transitionInput _ coinbase validated = input
    at hstep hundo htransition
  refine ⟨by simp [h.blocks, hstored], by rw [hcoins]; simp [hcount], ?_,
    calls ++ [(canonicalContexts p l.ids, input)], by simp [hlength], ?_,
    fun k entry' hentry => ?_⟩
  · simp only [ids, List.map_append, List.map_singleton, stored_block, prepare_blockHash]
    rw [List.nodup_append_comm, List.singleton_append]
    exact List.nodup_cons.mpr ⟨hnew, h.nodup⟩
  · rw [hcoordinator, htransition, hundo]
    exact hrun.apply hstep
  · obtain ⟨hk, hentry⟩ | ⟨rfl, rfl⟩ := getElem?_concat_eq_some hentry
    · obtain ⟨core, us, hreplay, hat⟩ := hentries k entry' hentry
      refine ⟨core, us, ?_, hat.congr ?_ (hbelow k hk.le)⟩
      · rwa [List.take_append_of_le_length (by omega)]
      · exact List.take_append_of_le_length (by omega)
    · obtain ⟨us, hreplay, -⟩ := hrun.replay
      refine ⟨l.chain.coordinator.toTransitionCoreV2, us, ?_, ?_, ?_, hbefore, ?_,
        l.chain.coordinator, rfl, ?_⟩
      · rwa [← hlength, List.take_left]
      · rw [hstored, ← hblocks]
        simp
      · rw [hstored, stored_block, prepare_majorVersion, hversion]
      · rw [hbelow _ le_rfl, ← hblocks, List.take_left, hblocks, hstored, stored_block,
          ← prepare_median (b := b)]
        exact hreward
      · have hids : (ids ⟨chain, l.blocks ++ [l.stored b]⟩).take history.length = l.ids := by
          simp only [ids, List.map_append]
          rw [← hblocks, ← List.length_map (f := fun stored : StoredBlock => stored.block.blockHash),
            List.take_left]
        rw [hids, hstored, stored_block]
        exact hconnect

lemma Traced.pop (h : Traced cr p history l) {coordinator : BlockTransitionV2} {undo : UndoEntry}
    (hundo : l.chain.coordinator.undo = coordinator.undo ++ [undo])
    (hcore : coordinator.toTransitionCoreV2 =
      BlockTransitionV2.revertCore undo l.chain.coordinator.toTransitionCoreV2) :
    Traced cr p history.dropLast (l.pop coordinator) := by
  obtain ⟨calls, hlength, hrun, hentries⟩ := h.run
  have hcount := h.coins
  have hblocks : l.blocks.length = history.length := by rw [h.blocks, List.length_map]
  refine ⟨by simp [Ledger.pop, h.blocks], by simp [Ledger.pop, hcount], ?_, calls.dropLast,
    by simp [hlength], ?_, fun k entry hentry => ?_⟩
  · rw [ids, Ledger.pop, List.map_dropLast]
    exact h.nodup.sublist (List.dropLast_sublist _)
  · rw [hundo] at hrun
    change Reorg.Run _ _ _ coordinator.toTransitionCoreV2 coordinator.undo
    rw [hcore]
    exact hrun.disconnect
  · have hk : k < history.length - 1 := by
      simpa using (List.getElem?_eq_some_iff.mp hentry).1
    rw [List.getElem?_dropLast, if_pos hk] at hentry
    obtain ⟨core, us, hreplay, hat⟩ := hentries k entry hentry
    refine ⟨core, us, ?_, hat.congr ?_ ?_⟩
    · rwa [List.dropLast_eq_take, List.take_take, min_eq_left (by omega)]
    · change l.blocks.dropLast.take (k + 1) = _
      rw [List.dropLast_eq_take, List.take_take, min_eq_left (by omega)]
    · have hne : l.chain.alreadyGeneratedCoins ≠ [] := by
        rw [← List.length_pos_iff]
        omega
      have hk' : k ≤ l.chain.alreadyGeneratedCoins.dropLast.length := by
        rw [List.length_dropLast]
        omega
      have happend : MainChain.coinsBefore ⟨coordinator, _⟩ k =
          MainChain.coinsBefore ⟨coordinator, _⟩ k :=
        coinsBefore_append hk' (l.chain.alreadyGeneratedCoins.getLast hne)
      rw [List.dropLast_append_getLast hne] at happend
      exact happend.symm

/-- **Every run is traced**: the coordinator is the replay of the stored blocks, each of which was
connected to the replay of the blocks below it. -/
theorem Runs.traced (h : Runs cr p history l) : Traced cr p history l := by
  induction h with
  | fresh => exact traced_fresh
  | handle _ hhandle ih => exact ih.handle hhandle
  | pop _ hpop ih =>
    obtain ⟨undo, hundo, hcore⟩ := BlockTransitionV2.disconnectTip_accepted hpop
    exact ih.pop hundo hcore

end Ledger

/-! ## Reading a block's reward back

The database is asked again for what a block was checked against: the weights below it, the coins
generated before it and the fees of its transactions.  Other than when the block was added, sums and
products that do not fit are refused. -/

/-- The entries of a table from a window below a height. -/
def windowBelow (window height : ℕ) (values : List UInt64) : List UInt64 :=
  (values.drop (height - min height window)).take (min height window)

/-- The fees of a block, unless their sum overflows. -/
def totalFees (fees : List UInt64) : Option UInt64 :=
  fees.foldlM checkedAdd 0

/-- The median a block at a height was checked against. -/
def replayMedian (version : UInt8) (blocks : List StoredBlock) (height : ℕ) : Option UInt64 := do
  let shortMedian := median
    (windowBelow rewardBlocksWindow height (blocks.map (·.block.cumulativeBlockWeight)))
  let medianWeight ←
    if hfVersionLongTermBlockWeight ≤ version then
      let longMedian := median
        (windowBelow longTermBlockWeightWindowSize height (blocks.map (·.longTermWeight)))
      let effectiveLongMedian := max blockGrantedFullRewardZoneV5 longMedian
      if uint64Max / shortTermBlockWeightSurgeFactor < effectiveLongMedian then none
      else some (effectiveMedian version effectiveLongMedian shortMedian)
    else some shortMedian
  some (max medianWeight (getMinBlockWeight version))

/-- The subsidy of a stored block at a height. -/
def Ledger.replaySubsidy (l : Ledger) (height : ℕ) (b : MainChainBlock) : Option UInt64 := do
  let medianWeight ← replayMedian b.majorVersion l.blocks height
  getBlockReward medianWeight b.cumulativeBlockWeight (l.chain.coinsBefore height) b.majorVersion

/-- The bound on short-term weights that long-term ones impose is representable. -/
def SurgeFits (blocks : List StoredBlock) : Prop :=
  longTermEffectiveMedian blocks ≤ uint64Max / shortTermBlockWeightSurgeFactor

lemma windowBelow_eq {window height : ℕ} {values : List UInt64} (h : height ≤ values.length) :
    windowBelow window height values = Reorg.keepLast window (values.take height) := by
  rw [windowBelow, Reorg.keepLast, List.drop_take, List.length_take, min_eq_left h]
  congr 1
  · omega
  · congr 1
    omega

lemma foldlM_checkedAdd_eq_some_iff {values : List UInt64} {start total : UInt64} :
    values.foldlM checkedAdd start = some total ↔
      start.toNat + (values.map (·.toNat)).sum = total.toNat := by
  induction values generalizing start with
  | nil => simp [UInt64.toNat_inj]
  | cons value values ih =>
    rw [List.foldlM_cons, List.map_cons, List.sum_cons]
    constructor
    · intro h
      obtain ⟨next, hnext, h⟩ := Option.bind_eq_some_iff.mp h
      rw [checkedAdd_eq_some_iff] at hnext
      rw [← ih.mp h, ← hnext]
      omega
    · intro h
      have hlt := total.toNat_lt
      have hnext : (start + value).toNat = start.toNat + value.toNat := by
        rw [UInt64.toNat_add]
        omega
      refine Option.bind_eq_some_iff.mpr ⟨start + value, checkedAdd_eq_some_iff.mpr hnext.symm, ?_⟩
      rw [ih, hnext]
      omega

lemma totalFees_eq_some_iff {fees : List UInt64} {total : UInt64} :
    totalFees fees = some total ↔ (fees.map (·.toNat)).sum < 2 ^ 64 ∧ total = fees.sum := by
  rw [totalFees, foldlM_checkedAdd_eq_some_iff, UInt64.toNat_zero, Nat.zero_add]
  constructor
  · intro h
    have hlt : (fees.map (·.toNat)).sum < 2 ^ 64 := h ▸ total.toNat_lt
    exact ⟨hlt, UInt64.toNat_inj.mp (by rw [← h, toNat_sum_of_lt hlt])⟩
  · rintro ⟨hlt, rfl⟩
    exact (toNat_sum_of_lt hlt).symm

/-- The median is read back if and only if the bound on it is representable. -/
lemma replayMedian_eq_some_iff {blocks : List StoredBlock} {height : ℕ}
    (hheight : height ≤ blocks.length) {medianWeight : UInt64} :
    replayMedian hfVersionQwcEpose blocks height = some medianWeight ↔
      SurgeFits (blocks.take height) ∧
        medianWeight = updateNextCumulativeWeightLimit hfVersionQwcEpose (blocks.take height) := by
  have hlong : max blockGrantedFullRewardZoneV5 (median (windowBelow longTermBlockWeightWindowSize
      height (blocks.map (·.longTermWeight)))) = longTermEffectiveMedian (blocks.take height) := by
    rw [windowBelow_eq (by simpa using hheight), ← List.map_take, longTermEffectiveMedian]
  have hshort : median (windowBelow rewardBlocksWindow height
      (blocks.map (·.block.cumulativeBlockWeight))) = shortTermMedian (blocks.take height) := by
    rw [windowBelow_eq (by simpa using hheight), ← List.map_take, shortTermMedian]
  rw [replayMedian, hshort, if_pos (by decide)]
  dsimp only
  have hnew : ¬hfVersionQwcEpose < hfVersionLongTermBlockWeight := by decide
  rw [hlong, SurgeFits, updateNextCumulativeWeightLimit, if_neg hnew]
  generalize longTermEffectiveMedian (blocks.take height) = long
  generalize effectiveMedian hfVersionQwcEpose long _ = effective
  generalize getMinBlockWeight hfVersionQwcEpose = least
  have hmax : max effective least = if effective ≤ least then least else effective := rfl
  by_cases hfits : uint64Max / shortTermBlockWeightSurgeFactor < long
  · simp [hfits]
  · simp [hfits, UInt64.not_lt.mp hfits, hmax, eq_comm]

end Qwertycoin
