import Qwertycoin.Lib.Reorg
import Qwertycoin.ProofOfWork

/-
# The difficulty of the next block

The difficulty of a block is computed from the timestamps and the cumulative difficulties of the
blocks before it.  For the main chain they are read from the database, with two caches in front:
the answer for the last top block, and the window it was computed from, which is moved on by one
block instead of being read again.  For a block of an alternative chain the window is put together
from the alternative blocks and the blocks of the main chain below them.

The model keeps what these functions read and write: the rows of the database, the rows an open
batch is aborted to, and the two caches.  What else a block has to pass before it is stored is a
parameter.
-/

namespace Qwertycoin

open Bytes Reorg

/-! ## The window and the formula -/

/-- `DIFFICULTY_WINDOW` -/
def difficultyWindow : ℕ := 720
/-- `DIFFICULTY_LAG` -/
def difficultyLag : ℕ := 15
/-- `DIFFICULTY_CUT` -/
def difficultyCut : ℕ := 60
/-- `DIFFICULTY_BLOCKS_COUNT` -/
def difficultyBlocksCount : ℕ := difficultyWindow + difficultyLag

/-- `next_difficulty`.  The two vectors have one length; the lag is cut off their end. -/
def nextDifficulty (timestamps : List UInt64) (cumulativeDifficulties : List DifficultyType)
    (targetSeconds : ℕ) : DifficultyType :=
  let (timestamps, cumulativeDifficulties) :=
    if timestamps.length > difficultyWindow then
      (timestamps.take difficultyWindow, cumulativeDifficulties.take difficultyWindow)
    else (timestamps, cumulativeDifficulties)
  let length := timestamps.length
  if length ≤ 1 then 1
  else
    let timestamps := timestamps.mergeSort (· ≤ ·)
    let kept := difficultyWindow - 2 * difficultyCut
    let (cutBegin, cutEnd) :=
      if length ≤ kept then (0, length)
      else ((length - kept + 1) / 2, (length - kept + 1) / 2 + kept)
    let span := timestamps.getD (cutEnd - 1) 0 - timestamps.getD cutBegin 0
    let timeSpan := if span = 0 then 1 else span
    let totalWork :=
      cumulativeDifficulties.getD (cutEnd - 1) 0 - cumulativeDifficulties.getD cutBegin 0
    -- the quotient is formed with 256 bits, which it fits
    let res := (totalWork.toNat * targetSeconds + timeSpan.toNat - 1) / timeSpan.toNat
    if res > 2 ^ 128 - 1 then 0 else BitVec.ofNat 128 res

/-- `get_difficulty_target`, by the hard-fork version: `DIFFICULTY_TARGET_V1` or
`DIFFICULTY_TARGET_V2`. -/
def difficultyTarget (version : UInt8) : ℕ := if version < 2 then 60 else 120

/-- The parts of a `block` that matter here: its parent, its time, and the rest that its id
depends on. -/
structure ChainBlock where
  prevId : Hash
  timestamp : UInt64
  rest : List UInt8 := []
deriving DecidableEq

/-- A block of the main chain as the database holds it. -/
structure BlockRow where
  bl : ChainBlock
  cumulativeDifficulty : DifficultyType
deriving DecidableEq

/-- `block_extended_info` -/
structure BlockExtendedInfo where
  bl : ChainBlock
  height : ℕ
  cumulativeDifficulty : DifficultyType
deriving DecidableEq

/-- The row of an alternative block once it is on the main chain with the cumulative difficulty
recorded for it. -/
def BlockExtendedInfo.row (bei : BlockExtendedInfo) : BlockRow :=
  ⟨bei.bl, bei.cumulativeDifficulty⟩

/-- The ids of the blocks that ever reach the node.  Different ones have different ids, none of
them null, and the genesis block has no parent. -/
structure BlockIds where
  getBlockHash : ChainBlock → Hash
  known : Set ChainBlock
  genesis : ChainBlock
  genesis_known : genesis ∈ known
  genesis_prevId : genesis.prevId = nullHash
  injOn : Set.InjOn getBlockHash known
  ne_null : ∀ b ∈ known, getBlockHash b ≠ nullHash

/-- The rows from height `start` up to, not including, height `stop`. -/
def rows (db : List BlockRow) (start stop : ℕ) : List BlockRow := (db.take stop).drop start

/-- The timestamps and the cumulative difficulties of some rows. -/
def windowOf (read : List BlockRow) : List UInt64 × List DifficultyType :=
  (read.map (·.bl.timestamp), read.map (·.cumulativeDifficulty))

/-! ## The node -/

/-- The database and the difficulty caches of `Blockchain`. -/
structure BlockchainState where
  db : List BlockRow
  /-- The rows that an open batch started from. -/
  batch : Option (List BlockRow) := none
  timestamps : List UInt64 := []
  difficulties : List DifficultyType := []
  timestampsAndDifficultiesHeight : ℕ := 0
  resetTimestampsAndDifficultiesHeight : Bool := true
  difficultyForNextBlockTopHash : Hash := nullHash
  difficultyForNextBlock : DifficultyType := 1

namespace BlockchainState

variable (ids : BlockIds) (version : UInt8)

/-- `get_tail_id` -/
def tailId (db : List BlockRow) : Hash :=
  (db.getLast?.map fun row => ids.getBlockHash row.bl).getD nullHash

/-- The window `get_difficulty_for_next_block` computes with: the cached one moved on by the top
block, or the last blocks of the database without the genesis block. -/
def refreshedWindow (s : BlockchainState) : List UInt64 × List DifficultyType :=
  let height := s.db.length
  let cachedHeight :=
    if s.resetTimestampsAndDifficultiesHeight then 0 else s.timestampsAndDifficultiesHeight
  if cachedHeight ≠ 0 ∧ height - cachedHeight = 1 ∧
      s.timestamps.length ≥ difficultyBlocksCount then
    let (timestamp, difficulty) := windowOf (rows s.db (height - 1) height)
    (keepLast difficultyBlocksCount (s.timestamps ++ timestamp),
      keepLast difficultyBlocksCount (s.difficulties ++ difficulty))
  else
    let offset := height - min height difficultyBlocksCount
    let offset := if offset = 0 then offset + 1 else offset
    windowOf (rows s.db offset height)

/-- `get_difficulty_for_next_block`, without a fixed difficulty. -/
def getDifficultyForNextBlock (s : BlockchainState) : DifficultyType × BlockchainState :=
  let topHash := tailId ids s.db
  if topHash = s.difficultyForNextBlockTopHash then (s.difficultyForNextBlock, s)
  else
    let (timestamps, difficulties) := s.refreshedWindow
    let diff := nextDifficulty timestamps difficulties (difficultyTarget version)
    (diff, { s with
      timestamps := timestamps
      difficulties := difficulties
      timestampsAndDifficultiesHeight := s.db.length
      difficultyForNextBlockTopHash := topHash
      difficultyForNextBlock := diff })

/-- `get_next_difficulty_for_alternative_chain`, without a fixed difficulty. -/
def getNextDifficultyForAlternativeChain (db : List BlockRow)
    (altChain : List BlockExtendedInfo) (bei : BlockExtendedInfo) : DifficultyType :=
  if altChain.length < difficultyBlocksCount then
    let mainChainStopOffset := (altChain.head?.getD bei).height
    let mainChainCount := difficultyBlocksCount - min difficultyBlocksCount altChain.length
    let mainChainCount := min mainChainCount mainChainStopOffset
    let mainChainStartOffset := mainChainStopOffset - mainChainCount
    let mainChainStartOffset :=
      if mainChainStartOffset = 0 then mainChainStartOffset + 1 else mainChainStartOffset
    let main := rows db mainChainStartOffset mainChainStopOffset
    if altChain.length + main.length ≤ difficultyBlocksCount then
      nextDifficulty (main.map (·.bl.timestamp) ++ altChain.map (·.bl.timestamp))
        (main.map (·.cumulativeDifficulty) ++ altChain.map (·.cumulativeDifficulty))
        (difficultyTarget version)
    else 0
  else
    -- the vectors are filled from their ends while the alternative chain is walked backwards
    let recent := (altChain.reverse.take difficultyBlocksCount).reverse
    nextDifficulty (recent.map (·.bl.timestamp)) (recent.map (·.cumulativeDifficulty))
      (difficultyTarget version)

/-- What `handle_alternative_block`, `switch_to_alternative_blockchain`,
`rollback_blockchain_switching` and `pop_block_from_blockchain` begin with. -/
def resetWindow (s : BlockchainState) : BlockchainState :=
  { s with timestampsAndDifficultiesHeight := 0, resetTimestampsAndDifficultiesHeight := true }

/-- `pop_block_from_blockchain`; it throws on the genesis block. -/
def popBlockFromBlockchain (s : BlockchainState) : BlockchainState :=
  if 1 < s.db.length then { s.resetWindow with db := s.db.dropLast } else s.resetWindow

/-- What else `handle_block_to_main_chain` asks of a block: before the difficulty (version and
time), after it (proof of work, transactions, miner transaction, storage), and of the chain with
the block (the weight limit). -/
structure BlockChecks where
  timely : List BlockRow → ChainBlock → Bool
  valid : List BlockRow → ChainBlock → DifficultyType → Bool
  limited : List BlockRow → Bool

variable (checks : BlockChecks)

/-- The cumulative difficulty of the top block. -/
def topCumulativeDifficulty (db : List BlockRow) : DifficultyType :=
  (db.getLast?.map (·.cumulativeDifficulty)).getD 0

/-- `handle_block_to_main_chain` -/
def handleBlockToMainChain (s : BlockchainState) (bl : ChainBlock) : Bool × BlockchainState :=
  if bl.prevId ≠ tailId ids s.db then (false, s)
  else if !checks.timely s.db bl then (false, s)
  else
    let (currentDiffic, s) := getDifficultyForNextBlock ids version s
    if currentDiffic = 0 then (false, s)
    else if !checks.valid s.db bl currentDiffic then (false, s)
    else
      let row := ⟨bl, currentDiffic + topCumulativeDifficulty s.db⟩
      let s := { s with db := s.db ++ [row] }
      if !checks.limited s.db then (false, s.popBlockFromBlockchain)
      else (true, (getDifficultyForNextBlock ids version s).2)

/-- Blocks handed to `handle_block_to_main_chain` one after the other, up to the first that is
refused. -/
def connectBlocks (s : BlockchainState) : List ChainBlock → Bool × BlockchainState
  | [] => (true, s)
  | bl :: bls =>
    match handleBlockToMainChain ids version checks s bl with
    | (true, s) => connectBlocks s bls
    | (false, s) => (false, s)

/-- The loop of `switch_to_alternative_blockchain` that pops blocks until the top block has the
given id, in at most `fuel` rounds. -/
def popToParent (parent : Hash) : ℕ → BlockchainState → BlockchainState
  | 0, s => s
  | fuel + 1, s =>
    if tailId ids s.db = parent then s else popToParent parent fuel s.popBlockFromBlockchain

/-- The loop of `rollback_blockchain_switching` that pops blocks down to a height, in at most
`fuel` rounds. -/
def popToHeight (height : ℕ) : ℕ → BlockchainState → BlockchainState
  | 0, s => s
  | fuel + 1, s =>
    if s.db.length = height then s else popToHeight height fuel s.popBlockFromBlockchain

/-- `rollback_blockchain_switching` -/
def rollbackBlockchainSwitching (s : BlockchainState) (originalChain : List ChainBlock)
    (rollbackHeight : ℕ) : BlockchainState :=
  if rollbackHeight > s.db.length then s
  else
    let s := popToHeight rollbackHeight s.db.length s.resetWindow
    (connectBlocks ids version checks s originalChain).2

/-- The state `switch_to_alternative_blockchain` connects the first alternative block in. -/
def splitState (s : BlockchainState) (front : BlockExtendedInfo) : BlockchainState :=
  popToParent ids front.bl.prevId s.db.length s.resetWindow

/-- `switch_to_alternative_blockchain`.  The blocks it disconnected are handed to
`handle_alternative_block` at the end, unless they are to be discarded. -/
def switchToAlternativeBlockchain (s : BlockchainState) (altChain : List BlockExtendedInfo)
    (discardDisconnectedChain : Bool) : Bool × BlockchainState :=
  match altChain.head? with
  | none => (false, s.resetWindow)
  | some front =>
    if s.db.all fun row => ids.getBlockHash row.bl ≠ front.bl.prevId then (false, s.resetWindow)
    else
      let split := splitState ids s front
      let disconnectedChain := (s.db.drop split.db.length).map (·.bl)
      match connectBlocks ids version checks split (altChain.map (·.bl)) with
      | (true, s) =>
        (true, if discardDisconnectedChain || disconnectedChain.isEmpty then s
          else s.resetWindow)
      | (false, s) =>
        (false, rollbackBlockchainSwitching ids version checks s disconnectedChain
          split.db.length)

/-- `BlockchainDB::batch_start` -/
def batchStart (s : BlockchainState) : BlockchainState :=
  { s with batch := some (s.batch.getD s.db) }

/-- The end of a batch in `cleanup_handle_incoming_blocks`: it is committed, and a reset of the
window is over, or it is aborted. -/
def cleanupHandleIncomingBlocks (s : BlockchainState) (batchSuccess : Bool) : BlockchainState :=
  if batchSuccess then
    if s.resetTimestampsAndDifficultiesHeight then
      { s with
        batch := none
        timestampsAndDifficultiesHeight := 0
        resetTimestampsAndDifficultiesHeight := false }
    else { s with batch := none }
  else { s with db := s.batch.getD s.db, batch := none }

/-! ## Recorded chains

A chain of the database is *recorded* if each of its blocks was stored with the difficulty of the
chain below it.  The id of its top block determines it. -/

/-- The rows the difficulty after a chain is computed from: the last ones, without the genesis
block. -/
def window (db : List BlockRow) : List BlockRow :=
  db.drop (max 1 (db.length - difficultyBlocksCount))

/-- The difficulty of the block after a chain. -/
def chainDifficulty (db : List BlockRow) : DifficultyType :=
  nextDifficulty (windowOf (window db)).1 (windowOf (window db)).2 (difficultyTarget version)

/-- The chains that connecting blocks to the genesis block leads to. -/
inductive Recorded : List BlockRow → Prop
  | genesis : Recorded [⟨ids.genesis, 1⟩]
  | connect {db bl} : Recorded db → bl ∈ ids.known → bl.prevId = tailId ids db →
      Recorded (db ++ [⟨bl, chainDifficulty version db + topCumulativeDifficulty db⟩])

variable {ids version} {db db' : List BlockRow} {s s' : BlockchainState} {bl : ChainBlock}

@[simp] lemma tailId_append (row : BlockRow) :
    tailId ids (db ++ [row]) = ids.getBlockHash row.bl := by
  simp [tailId]

lemma Recorded.tailId_ne_null (h : Recorded ids version db) : tailId ids db ≠ nullHash := by
  cases h with
  | genesis => exact ids.ne_null _ ids.genesis_known
  | connect _ hbl _ =>
    rw [tailId_append]
    exact ids.ne_null _ hbl

lemma Recorded.dropLast (h : Recorded ids version db) (hlen : 1 < db.length) :
    Recorded ids version db.dropLast := by
  cases h with
  | genesis => simp at hlen
  | connect h _ _ => simpa using h

lemma Recorded.take (h : Recorded ids version db) {n : ℕ} (hn : 1 ≤ n) :
    Recorded ids version (db.take n) := by
  induction h with
  | genesis =>
    rw [List.take_of_length_le (by simpa using hn)]
    exact .genesis
  | @connect db bl h hbl hprev ih =>
    rcases Nat.lt_or_ge db.length n with hlt | hle
    · rw [List.take_of_length_le (by simpa using hlt)]
      exact .connect h hbl hprev
    · rwa [List.take_append_of_le_length hle]

lemma Recorded.genesis_ne (h : Recorded ids version db) (hbl : bl.prevId = tailId ids db) :
    bl ≠ ids.genesis := by
  rintro rfl
  exact h.tailId_ne_null (hbl.symm.trans ids.genesis_prevId)

/-- **The id of the top block determines a recorded chain**: its blocks, by the parents they
name, and its cumulative difficulties, which are computed from the blocks. -/
theorem Recorded.eq_of_tailId (h : Recorded ids version db) (h' : Recorded ids version db')
    (htail : tailId ids db = tailId ids db') : db = db' := by
  induction h generalizing db' with
  | genesis =>
    cases h' with
    | genesis => rfl
    | @connect db' bl h' hbl hprev =>
      rw [tailId_append] at htail
      exact absurd (ids.injOn ids.genesis_known hbl htail).symm (h'.genesis_ne hprev)
  | @connect db bl h hbl hprev ih =>
    rw [tailId_append] at htail
    cases h' with
    | genesis => exact absurd (ids.injOn hbl ids.genesis_known htail) (h.genesis_ne hprev)
    | @connect db' bl' h' hbl' hprev' =>
      rw [tailId_append] at htail
      obtain rfl : bl = bl' := ids.injOn hbl hbl' htail
      rw [ih h' (hprev.symm.trans hprev')]

/-- A chain is the only one of its prefixes with the id of its top block. -/
lemma Recorded.take_tailId_inj (h : Recorded ids version db) {m n : ℕ} (hm : 1 ≤ m) (hn : 1 ≤ n)
    (hmdb : m ≤ db.length) (hndb : n ≤ db.length)
    (htail : tailId ids (db.take m) = tailId ids (db.take n)) : m = n := by
  have hlen := congrArg List.length ((h.take hm).eq_of_tailId (h.take hn) htail)
  rwa [List.length_take_of_le hmdb, List.length_take_of_le hndb] at hlen

/-! ## The window -/

lemma windowOf_rows_eq (db : List BlockRow) :
    windowOf (rows db (if db.length - min db.length difficultyBlocksCount = 0 then
        db.length - min db.length difficultyBlocksCount + 1
      else db.length - min db.length difficultyBlocksCount) db.length) = windowOf (window db) := by
  have hoffset : (if db.length - min db.length difficultyBlocksCount = 0 then
        db.length - min db.length difficultyBlocksCount + 1
      else db.length - min db.length difficultyBlocksCount) =
      max 1 (db.length - difficultyBlocksCount) := by
    split_ifs <;> omega
  rw [hoffset, rows, List.take_length, window]

lemma length_window (db : List BlockRow) :
    (window db).length = min difficultyBlocksCount (db.length - 1) := by
  rw [window, List.length_drop]
  omega

lemma keepLast_window (db : List BlockRow) (row : BlockRow)
    (hfull : difficultyBlocksCount ≤ (window db).length) :
    keepLast difficultyBlocksCount (window db ++ [row]) = window (db ++ [row]) := by
  have hlen := length_window db
  have hpos : 0 < difficultyBlocksCount := by decide
  have hdb : difficultyBlocksCount + 1 ≤ db.length := by omega
  have hlast : (window db ++ [row]).length - difficultyBlocksCount = 1 := by
    rw [List.length_append, List.length_singleton]
    omega
  have hstart : max 1 ((db ++ [row]).length - difficultyBlocksCount) =
      db.length - difficultyBlocksCount + 1 := by
    rw [List.length_append, List.length_singleton]
    omega
  rw [keepLast, hlast, window, window, hstart, max_eq_right (by omega),
    ← List.drop_append_of_le_length (by omega), List.drop_drop]

lemma map_keepLast {α β : Type} (f : α → β) (n : ℕ) (xs : List α) :
    keepLast n (xs.map f) = (keepLast n xs).map f := by
  rw [keepLast, keepLast, List.length_map, List.map_drop]

/-- One chain is a part of the other. -/
def Linked (db db' : List BlockRow) : Prop := db <+: db' ∨ db' <+: db

lemma Linked.prefix_of_length (h : Linked db db') (hlen : db.length ≤ db'.length) :
    db <+: db' := by
  rcases h with h | h
  · exact h
  · rw [h.eq_of_length (le_antisymm h.length_le hlen)]

/-! ## The caches over a run -/

/-- The window is cached for a chain. -/
structure CachedFor (ids : BlockIds) (s : BlockchainState) (db : List BlockRow) : Prop where
  topHash : s.difficultyForNextBlockTopHash = tailId ids db
  height : s.timestampsAndDifficultiesHeight = db.length
  window : (s.timestamps, s.difficulties) = windowOf (window db)

/-- What holds in every state of the node.  The answer cached is the one for the chain its id
belongs to.  The window is about to be dropped, or it is empty, or it is the window of a recorded
chain; as long as it is not dropped only blocks were added, so that chain and the one of the
database lie on one branch, and so does the one a batch would be aborted to. -/
structure Sound (ids : BlockIds) (version : UInt8) (s : BlockchainState) : Prop where
  recorded : Recorded ids version s.db
  saved : ∀ saved ∈ s.batch, Recorded ids version saved
  answer : s.difficultyForNextBlockTopHash = nullHash ∨ ∃ db, Recorded ids version db ∧
    s.difficultyForNextBlockTopHash = tailId ids db ∧
    s.difficultyForNextBlock = chainDifficulty version db
  grown : s.resetTimestampsAndDifficultiesHeight = false → ∀ saved ∈ s.batch, saved <+: s.db
  cached : s.resetTimestampsAndDifficultiesHeight = false →
    s.timestampsAndDifficultiesHeight ≠ 0 → ∃ db, Recorded ids version db ∧ CachedFor ids s db ∧
      Linked db s.db ∧ ∀ saved ∈ s.batch, Linked db saved

/-- The window the difficulty is computed from is the window of the chain, whichever way it was
obtained. -/
lemma Sound.refreshedWindow (h : Sound ids version s) :
    s.refreshedWindow = windowOf (window s.db) := by
  unfold BlockchainState.refreshedWindow
  dsimp only
  rw [windowOf_rows_eq]
  split_ifs with hreset hmove hmove
  · exact absurd rfl hmove.1
  · rfl
  · obtain ⟨hne, hnext, hfull⟩ := hmove
    obtain ⟨db, hdb, hcached, hlinked, -⟩ := h.cached (by simpa using hreset) hne
    rw [hcached.height] at hnext
    -- the chain of the window is the one of the database without its top block
    obtain ⟨top, htop⟩ := hlinked.prefix_of_length (by omega)
    have hone : top.length = 1 := by
      have hlen := congrArg List.length htop
      rw [List.length_append] at hlen
      omega
    obtain ⟨row, rfl⟩ := List.length_eq_one_iff.mp hone
    obtain ⟨htimestamps, hdifficulties⟩ := Prod.mk.inj hcached.window
    have hread : rows s.db (s.db.length - 1) s.db.length = [row] := by
      rw [rows, List.take_length, ← htop]
      simp
    have hwindow : difficultyBlocksCount ≤ (window db).length := by
      rw [htimestamps] at hfull
      simpa using hfull
    rw [hread, htimestamps, hdifficulties, ← htop, ← keepLast_window db row hwindow]
    simp only [windowOf, ← List.map_append, map_keepLast]
  · rfl

/-- After `get_difficulty_for_next_block` both caches are for the chain of the database. -/
structure Answered (ids : BlockIds) (version : UInt8) (s s' : BlockchainState) : Prop where
  db : s'.db = s.db
  batch : s'.batch = s.batch
  reset : s'.resetTimestampsAndDifficultiesHeight = s.resetTimestampsAndDifficultiesHeight
  topHash : s'.difficultyForNextBlockTopHash = tailId ids s.db
  answer : s'.difficultyForNextBlock = chainDifficulty version s.db
  cached : s'.resetTimestampsAndDifficultiesHeight = false →
    s'.timestampsAndDifficultiesHeight ≠ 0 → CachedFor ids s' s.db

lemma Sound.answered (h : Sound ids version s) :
    Answered ids version s (getDifficultyForNextBlock ids version s).2 := by
  unfold getDifficultyForNextBlock
  dsimp only
  split_ifs with htop
  · -- the id of the top block is the one cached, so the chain is the one cached for
    refine ⟨rfl, rfl, rfl, htop.symm, ?_, fun hreset hne => ?_⟩
    · rcases h.answer with hnull | ⟨db, hdb, hid, hanswer⟩
      · exact absurd (htop.trans hnull) h.recorded.tailId_ne_null
      · rw [hanswer, h.recorded.eq_of_tailId hdb (htop.trans hid)]
    · obtain ⟨db, hdb, hcached, -⟩ := h.cached hreset hne
      rwa [h.recorded.eq_of_tailId hdb (htop.trans hcached.topHash)]
  · refine ⟨rfl, rfl, rfl, rfl, ?_, fun _ _ => ⟨rfl, rfl, ?_⟩⟩
    · show nextDifficulty s.refreshedWindow.1 s.refreshedWindow.2 _ = _
      rw [h.refreshedWindow, chainDifficulty]
    · exact h.refreshedWindow

/-- **The difficulty of the next block is the difficulty of the chain**, whatever the caches
hold. -/
theorem Sound.getDifficultyForNextBlock (h : Sound ids version s) :
    (getDifficultyForNextBlock ids version s).1 = chainDifficulty version s.db := by
  rw [← h.answered.answer]
  unfold BlockchainState.getDifficultyForNextBlock
  dsimp only
  split_ifs <;> rfl

lemma Answered.sound (h : Sound ids version s) (ha : Answered ids version s s') :
    Sound ids version s' where
  recorded := by
    rw [ha.db]
    exact h.recorded
  saved := by
    rw [ha.batch]
    exact h.saved
  answer := .inr ⟨s.db, h.recorded, ha.topHash, ha.answer⟩
  grown hreset := by
    rw [ha.batch, ha.db]
    exact h.grown (ha.reset.symm.trans hreset)
  cached hreset hne := by
    refine ⟨s.db, h.recorded, ha.cached hreset hne, ?_, ?_⟩
    · rw [ha.db]
      exact .inl List.prefix_rfl
    · rw [ha.batch]
      exact fun saved hsaved => .inr (h.grown (ha.reset.symm.trans hreset) saved hsaved)

lemma Sound.query (h : Sound ids version s) :
    Sound ids version (BlockchainState.getDifficultyForNextBlock ids version s).2 :=
  h.answered.sound h

/-- Whatever is done to the rows, a dropped window says nothing about them. -/
lemma Sound.withDb (h : Sound ids version s) (hdb : Recorded ids version db) :
    Sound ids version { s.resetWindow with db := db } where
  recorded := hdb
  saved := h.saved
  answer := h.answer
  grown hreset := absurd hreset (by simp [BlockchainState.resetWindow])
  cached hreset := absurd hreset (by simp [BlockchainState.resetWindow])

lemma Sound.resetWindow (h : Sound ids version s) : Sound ids version s.resetWindow :=
  h.withDb h.recorded

lemma Sound.pop (h : Sound ids version s) : Sound ids version s.popBlockFromBlockchain := by
  unfold popBlockFromBlockchain
  split_ifs with hlen
  · exact h.withDb (h.recorded.dropLast hlen)
  · exact h.resetWindow

/-- A block is connected only after the difficulty was asked for, which leaves the caches on the
chain it is connected to. -/
lemma Sound.append (h : Sound ids version s) (ha : Answered ids version s s')
    (hbl : bl ∈ ids.known) (hprev : bl.prevId = tailId ids s.db) :
    Sound ids version { s' with db :=
      s'.db ++ [⟨bl, chainDifficulty version s.db + topCumulativeDifficulty s'.db⟩] } where
  recorded := by
    rw [ha.db]
    exact .connect h.recorded hbl hprev
  saved := (ha.sound h).saved
  answer := (ha.sound h).answer
  grown hreset saved hsaved :=
    ((ha.sound h).grown hreset saved hsaved).trans (List.prefix_append ..)
  cached hreset hne := by
    obtain ⟨topHash, height, window⟩ := ha.cached hreset hne
    refine ⟨s.db, h.recorded, ⟨topHash, height, window⟩, ?_, fun saved hsaved => ?_⟩
    · rw [ha.db]
      exact .inl (List.prefix_append ..)
    · have hgrown := (ha.sound h).grown hreset saved hsaved
      rw [ha.db] at hgrown
      exact .inr hgrown

/-- What `handle_block_to_main_chain` does: it refuses the block, or pops it again, or stores it
with the difficulty of the chain below it. -/
lemma Sound.handle (h : Sound ids version s) (hbl : bl ∈ ids.known) :
    Sound ids version (handleBlockToMainChain ids version checks s bl).2 ∧
      ((handleBlockToMainChain ids version checks s bl).1 = true →
        (handleBlockToMainChain ids version checks s bl).2.db =
          s.db ++ [⟨bl, chainDifficulty version s.db + topCumulativeDifficulty s.db⟩]) := by
  have ha := h.answered
  unfold handleBlockToMainChain
  rw [← h.getDifficultyForNextBlock]
  generalize hquery : BlockchainState.getDifficultyForNextBlock ids version s = answer at ha
  obtain ⟨difficulty, s'⟩ := answer
  have hdifficulty : difficulty = chainDifficulty version s.db := by
    rw [← h.getDifficultyForNextBlock, hquery]
  dsimp only at ha ⊢
  split_ifs with hprev htimely hzero hvalid hlimited
  · exact ⟨h, nofun⟩
  · exact ⟨h, nofun⟩
  · exact ⟨ha.sound h, nofun⟩
  · exact ⟨ha.sound h, nofun⟩
  · rw [hdifficulty]
    exact ⟨(h.append ha hbl (not_not.mp hprev)).pop, nofun⟩
  · have hstored := h.append ha hbl (not_not.mp hprev)
    rw [hdifficulty]
    refine ⟨hstored.query, fun _ => ?_⟩
    rw [hstored.answered.db, ha.db]

lemma Sound.connectBlocks (h : Sound ids version s) {bls : List ChainBlock}
    (hbls : ∀ bl ∈ bls, bl ∈ ids.known) :
    Sound ids version (connectBlocks ids version checks s bls).2 := by
  induction bls generalizing s with
  | nil => exact h
  | cons bl bls ih =>
    have hhandle := (h.handle checks (hbls bl (by simp))).1
    unfold BlockchainState.connectBlocks
    split
    · next s' heq =>
      rw [heq] at hhandle
      exact ih hhandle fun b hb => hbls b (by simp [hb])
    · next s' heq =>
      rw [heq] at hhandle
      exact hhandle

lemma Sound.popToParent (h : Sound ids version s) (parent : Hash) (fuel : ℕ) :
    Sound ids version (popToParent ids parent fuel s) := by
  induction fuel generalizing s with
  | zero => exact h
  | succ fuel ih =>
    unfold BlockchainState.popToParent
    split_ifs
    · exact h
    · exact ih h.pop

lemma Sound.popToHeight (h : Sound ids version s) (height fuel : ℕ) :
    Sound ids version (popToHeight height fuel s) := by
  induction fuel generalizing s with
  | zero => exact h
  | succ fuel ih =>
    unfold BlockchainState.popToHeight
    split_ifs
    · exact h
    · exact ih h.pop

lemma Recorded.known (h : Recorded ids version db) : ∀ row ∈ db, row.bl ∈ ids.known := by
  induction h with
  | genesis => simpa using ids.genesis_known
  | connect _ hbl _ ih =>
    intro row hrow
    rcases List.mem_append.mp hrow with hrow | hrow
    · exact ih row hrow
    · rw [List.mem_singleton.mp hrow]
      exact hbl

lemma Sound.switch (h : Sound ids version s) {altChain : List BlockExtendedInfo}
    (hknown : ∀ bei ∈ altChain, bei.bl ∈ ids.known) (discard : Bool) :
    Sound ids version (switchToAlternativeBlockchain ids version checks s altChain discard).2 := by
  unfold switchToAlternativeBlockchain
  split
  · exact h.resetWindow
  · next front _ =>
    split_ifs
    · exact h.resetWindow
    · have hsplit : Sound ids version (splitState ids s front) := h.resetWindow.popToParent _ _
      have hconnect := hsplit.connectBlocks checks (show ∀ bl ∈ altChain.map (·.bl), bl ∈ ids.known
        by simpa using hknown)
      dsimp only
      split
      · next s' heq =>
        rw [heq] at hconnect
        dsimp only
        split_ifs
        · exact hconnect
        · exact hconnect.resetWindow
      · next s' heq =>
        rw [heq] at hconnect
        unfold rollbackBlockchainSwitching
        split_ifs
        · exact hconnect
        · refine (hconnect.resetWindow.popToHeight _ _).connectBlocks checks fun bl hbl => ?_
          obtain ⟨row, hrow, rfl⟩ := List.mem_map.mp hbl
          exact h.recorded.known row (List.drop_subset _ _ hrow)

lemma Sound.batchStart (h : Sound ids version s) : Sound ids version s.batchStart := by
  -- a batch that is open already stays as it is
  have hsaved : ∀ saved ∈ s.batchStart.batch, saved = s.db ∨ saved ∈ s.batch := by
    intro saved hsaved
    obtain rfl : s.batch.getD s.db = saved := by simpa [BlockchainState.batchStart] using hsaved
    cases s.batch with
    | none => exact .inl rfl
    | some rows => exact .inr rfl
  refine ⟨h.recorded, fun saved hmem => ?_, h.answer, fun hreset saved hmem => ?_,
    fun hreset hne => ?_⟩
  · rcases hsaved saved hmem with rfl | hmem
    · exact h.recorded
    · exact h.saved saved hmem
  · rcases hsaved saved hmem with rfl | hmem
    · exact List.prefix_rfl
    · exact h.grown hreset saved hmem
  · obtain ⟨db, hdb, ⟨htop, hheight, hwindow⟩, hlinked, hbatch⟩ := h.cached hreset hne
    refine ⟨db, hdb, ⟨htop, hheight, hwindow⟩, hlinked, fun saved hmem => ?_⟩
    rcases hsaved saved hmem with rfl | hmem
    · exact hlinked
    · exact hbatch saved hmem

lemma Sound.cleanup (h : Sound ids version s) (success : Bool) :
    Sound ids version (s.cleanupHandleIncomingBlocks success) := by
  unfold cleanupHandleIncomingBlocks
  split_ifs with hsuccess hreset
  · exact ⟨h.recorded, nofun, h.answer, fun _ => nofun, fun _ hne => absurd rfl hne⟩
  · refine ⟨h.recorded, nofun, h.answer, fun _ => nofun, fun hreset hne => ?_⟩
    obtain ⟨db, hdb, ⟨htop, hheight, hwindow⟩, hlinked, -⟩ := h.cached hreset hne
    exact ⟨db, hdb, ⟨htop, hheight, hwindow⟩, hlinked, nofun⟩
  · cases hbatch : s.batch with
    | none =>
      refine ⟨h.recorded, nofun, h.answer, fun _ => nofun, fun hreset hne => ?_⟩
      obtain ⟨db, hdb, ⟨htop, hheight, hwindow⟩, hlinked, -⟩ := h.cached hreset hne
      exact ⟨db, hdb, ⟨htop, hheight, hwindow⟩, hlinked, nofun⟩
    | some saved =>
      refine ⟨h.saved saved hbatch, nofun, h.answer, fun _ => nofun, fun hreset hne => ?_⟩
      obtain ⟨db, hdb, ⟨htop, hheight, hwindow⟩, -, hlinked⟩ := h.cached hreset hne
      exact ⟨db, hdb, ⟨htop, hheight, hwindow⟩, hlinked saved hbatch, nofun⟩

/-- The states of a node that starts with a recorded chain, asks for the difficulty, connects and
pops blocks, handles alternative ones, switches to an alternative chain, and starts, commits and
aborts batches, in any order. -/
inductive Runs (ids : BlockIds) (version : UInt8) : BlockchainState → Prop
  | start {db : List BlockRow} : Recorded ids version db → Runs ids version { db := db }
  | query {s : BlockchainState} : Runs ids version s →
      Runs ids version (getDifficultyForNextBlock ids version s).2
  | connect {s : BlockchainState} {bl : ChainBlock} (checks : BlockChecks) :
      Runs ids version s → bl ∈ ids.known →
      Runs ids version (handleBlockToMainChain ids version checks s bl).2
  | pop {s : BlockchainState} : Runs ids version s → Runs ids version s.popBlockFromBlockchain
  | alternative {s : BlockchainState} : Runs ids version s → Runs ids version s.resetWindow
  | switch {s : BlockchainState} {altChain : List BlockExtendedInfo} (checks : BlockChecks)
      (discard : Bool) : Runs ids version s → (∀ bei ∈ altChain, bei.bl ∈ ids.known) →
      Runs ids version (switchToAlternativeBlockchain ids version checks s altChain discard).2
  | batchStart {s : BlockchainState} : Runs ids version s → Runs ids version s.batchStart
  | cleanup {s : BlockchainState} (success : Bool) : Runs ids version s →
      Runs ids version (s.cleanupHandleIncomingBlocks success)

theorem Runs.sound (h : Runs ids version s) : Sound ids version s := by
  induction h with
  | start h => exact ⟨h, nofun, .inl rfl, nofun, nofun⟩
  | query _ ih => exact ih.query
  | connect checks _ hbl ih => exact (ih.handle checks hbl).1
  | pop _ ih => exact ih.pop
  | alternative _ ih => exact ih.resetWindow
  | switch checks _ _ hknown ih => exact ih.switch checks hknown _
  | batchStart _ ih => exact ih.batchStart
  | cleanup _ _ ih => exact ih.cleanup _

/-! ## Alternative chains -/

/-- An alternative chain from height `f` of a main chain: the blocks are numbered from `f` on and
the first one names the block below as its parent. -/
structure IsAlternative (ids : BlockIds) (db : List BlockRow) (f : ℕ)
    (altChain : List BlockExtendedInfo) : Prop where
  pos : 1 ≤ f
  le : f ≤ db.length
  known : ∀ bei ∈ altChain, bei.bl ∈ ids.known
  heights : altChain.map (·.height) = List.range' f altChain.length
  parent : ∀ front ∈ altChain.head?, front.bl.prevId = tailId ids (db.take f)

variable {f k : ℕ} {altChain : List BlockExtendedInfo} {front bei : BlockExtendedInfo}

lemma IsAlternative.height_get (h : IsAlternative ids db f altChain) (hk : k < altChain.length) :
    altChain[k].height = f + k := by
  have hget := congrArg (·[k]?) h.heights
  simpa [hk] using hget

/-- The first block of a part of the chain, or the block after an empty part, is at height `f`. -/
lemma IsAlternative.front_height (h : IsAlternative ids db f altChain)
    (hk : k < altChain.length) : ((altChain.take k).head?.getD altChain[k]).height = f := by
  have hzero := h.height_get (show 0 < altChain.length by omega)
  cases k with
  | zero => simpa using hzero
  | succ k =>
    cases altChain with
    | nil => simp at hk
    | cons front rest => simpa using hzero

/-- The alternative blocks and the main chain below them give the window of the chain they
form. -/
lemma getNextDifficultyForAlternativeChain_eq (hf : 1 ≤ f) (hfdb : f ≤ db.length)
    (hheight : (altChain.head?.getD bei).height = f) :
    getNextDifficultyForAlternativeChain version db altChain bei =
      chainDifficulty version (db.take f ++ altChain.map (·.row)) := by
  have hcount : 0 < difficultyBlocksCount := by decide
  have htake : (db.take f).length = f := List.length_take_of_le hfdb
  have hlen : (db.take f ++ altChain.map (·.row)).length = f + altChain.length := by
    rw [List.length_append, htake, List.length_map]
  unfold getNextDifficultyForAlternativeChain chainDifficulty window
  rw [hheight, hlen]
  split_ifs with hshort
  · have hstart : (if f - min (difficultyBlocksCount - min difficultyBlocksCount
          altChain.length) f = 0 then
          f - min (difficultyBlocksCount - min difficultyBlocksCount altChain.length) f + 1
        else f - min (difficultyBlocksCount - min difficultyBlocksCount altChain.length) f) =
        max 1 (f + altChain.length - difficultyBlocksCount) := by
      split_ifs <;> omega
    dsimp only
    rw [hstart, rows, if_pos (by rw [List.length_drop, htake]; omega),
      List.drop_append_of_le_length (by rw [htake]; omega)]
    simp [windowOf, BlockExtendedInfo.row, Function.comp_def]
  · have hstart : max 1 (f + altChain.length - difficultyBlocksCount) =
        (db.take f).length + (altChain.length - difficultyBlocksCount) := by
      rw [htake]
      omega
    dsimp only
    rw [hstart, List.drop_append, List.take_reverse, List.reverse_reverse,
      List.drop_of_length_le (Nat.le_add_right ..), Nat.add_sub_cancel_left, List.nil_append,
      ← List.map_drop]
    simp [windowOf, BlockExtendedInfo.row, Function.comp_def]

/-- Popping until the top block is the parent leaves the main chain below the split. -/
lemma popToParent_db (h : Recorded ids version s.db) (hf : 1 ≤ f) (hfs : f ≤ s.db.length)
    {fuel : ℕ} (hfuel : s.db.length - f ≤ fuel) :
    (popToParent ids (tailId ids (s.db.take f)) fuel s).db = s.db.take f := by
  induction fuel generalizing s with
  | zero =>
    rw [List.take_of_length_le (by omega)]
    rfl
  | succ fuel ih =>
    unfold popToParent
    split_ifs with htail
    · have hlen : s.db.length = f := by
        refine h.take_tailId_inj (by omega) hf le_rfl hfs ?_
        rw [List.take_length]
        exact htail
      rw [List.take_of_length_le hlen.le]
    · have hlt : f < s.db.length := by
        refine lt_of_le_of_ne hfs fun heq => htail ?_
        rw [List.take_of_length_le heq.ge]
      have hpop : s.popBlockFromBlockchain.db = s.db.dropLast := by
        rw [popBlockFromBlockchain, if_pos (by omega)]
      have htake : s.popBlockFromBlockchain.db.take f = s.db.take f := by
        rw [hpop, List.dropLast_eq_take, List.take_take, min_eq_left (by omega)]
      rw [← htake]
      refine ih ?_ ?_ ?_
      · rw [hpop]
        exact h.dropLast (by omega)
      · rw [hpop, List.length_dropLast]
        omega
      · rw [hpop, List.length_dropLast]
        omega

lemma IsAlternative.splitState_db (h : Recorded ids version s.db)
    (halt : IsAlternative ids s.db f altChain) (hfront : altChain.head? = some front) :
    (splitState ids s front).db = s.db.take f := by
  unfold splitState
  rw [halt.parent front hfront]
  exact popToParent_db (s := s.resetWindow) h halt.pos halt.le (Nat.sub_le ..)

/-- Blocks that are all connected stand on top of the chain, in their order. -/
lemma Sound.connected (h : Sound ids version s) {bls : List ChainBlock}
    (hbls : ∀ bl ∈ bls, bl ∈ ids.known)
    (hconnect : BlockchainState.connectBlocks ids version checks s bls = (true, s')) :
    ∃ added, s'.db = s.db ++ added ∧ added.map (·.bl) = bls := by
  induction bls generalizing s with
  | nil =>
    obtain rfl : s = s' := by simpa [BlockchainState.connectBlocks] using hconnect
    exact ⟨[], by simp, rfl⟩
  | cons bl bls ih =>
    obtain ⟨hsound, hdb⟩ := h.handle checks (hbls bl (by simp))
    unfold BlockchainState.connectBlocks at hconnect
    split at hconnect
    · next s₁ heq =>
      rw [heq] at hsound hdb
      obtain ⟨added, hadded, hmap⟩ := ih hsound (fun b hb => hbls b (by simp [hb])) hconnect
      refine ⟨⟨bl, chainDifficulty version s.db + topCumulativeDifficulty s.db⟩ :: added, ?_, ?_⟩
      · rw [hadded, hdb rfl, List.append_assoc, List.singleton_append]
      · rw [List.map_cons, hmap]
    · cases hconnect

lemma rows_eq_of_map {added : List BlockRow} {beis : List BlockExtendedInfo}
    (hbl : added.map (·.bl) = beis.map (·.bl))
    (hcumulative : added.map (·.cumulativeDifficulty) = beis.map (·.cumulativeDifficulty)) :
    added = beis.map (·.row) := by
  induction added generalizing beis with
  | nil =>
    rw [List.map_nil, eq_comm, List.map_eq_nil_iff] at hbl
    rw [hbl, List.map_nil]
  | cons row added ih =>
    cases beis with
    | nil => simp at hbl
    | cons bei beis =>
      obtain ⟨hb, hbs⟩ := List.cons.inj hbl
      obtain ⟨hc, hcs⟩ := List.cons.inj hcumulative
      obtain ⟨bl, cumulative⟩ := row
      rw [List.map_cons, ← ih hbs hcs]
      exact congrArg (· :: added) (congrArg₂ BlockRow.mk hb hc)

/-- **The difficulty of an alternative block is the difficulty of the main chain it is connected
to.**  Whatever run led to the caches, when the switch to an alternative chain has popped the main
chain to the split and connected the first `k` alternative blocks, with the cumulative
difficulties recorded for them, the next block meets the difficulty it was checked against as an
alternative block. -/
theorem alternative_difficulty_eq_main (h : Runs ids version s)
    (halt : IsAlternative ids s.db f altChain) (hfront : altChain.head? = some front)
    (hk : k < altChain.length)
    (hconnect : connectBlocks ids version checks (splitState ids s front)
      ((altChain.take k).map (·.bl)) = (true, s'))
    (hcumulative : (s'.db.drop f).map (·.cumulativeDifficulty) =
      (altChain.take k).map (·.cumulativeDifficulty)) :
    (getDifficultyForNextBlock ids version s').1 =
      getNextDifficultyForAlternativeChain version s.db (altChain.take k) altChain[k] := by
  have hsplit : Sound ids version (splitState ids s front) :=
    h.sound.resetWindow.popToParent _ _
  have hknown : ∀ bl ∈ (altChain.take k).map (·.bl), bl ∈ ids.known := by
    intro bl hbl
    obtain ⟨bei, hbei, rfl⟩ := List.mem_map.mp hbl
    exact halt.known bei (List.take_subset _ _ hbei)
  have hsound := hsplit.connectBlocks checks hknown
  rw [hconnect] at hsound
  obtain ⟨added, hadded, hbls⟩ := hsplit.connected checks hknown hconnect
  rw [halt.splitState_db h.sound.recorded hfront] at hadded
  have htake : (s.db.take f).length = f := List.length_take_of_le halt.le
  have hrows : added = (altChain.take k).map (·.row) := by
    refine rows_eq_of_map hbls ?_
    rw [← hcumulative, hadded, List.drop_append_of_le_length htake.ge,
      List.drop_of_length_le htake.le, List.nil_append]
  rw [hsound.getDifficultyForNextBlock,
    getNextDifficultyForAlternativeChain_eq halt.pos halt.le (halt.front_height hk), hadded,
    hrows]

/-- Four blocks numbered by their timestamps; the second and the third are children of the
first, the genesis block. -/
def sampleBlocks : List ChainBlock :=
  [⟨nullHash, 1, []⟩, ⟨Block.ofNat 32 1, 2, []⟩, ⟨Block.ofNat 32 1, 3, []⟩,
    ⟨Block.ofNat 32 3, 4, []⟩]

def sampleIds : BlockIds where
  getBlockHash b := Block.ofNat 32 b.timestamp.toNat
  known := { b | b ∈ sampleBlocks }
  genesis := ⟨nullHash, 1, []⟩
  genesis_known := by simp [sampleBlocks]
  genesis_prevId := rfl
  injOn := by
    intro b hb b' hb'
    exact (show ∀ b ∈ sampleBlocks, ∀ b' ∈ sampleBlocks,
      Block.ofNat 32 b.timestamp.toNat = Block.ofNat 32 b'.timestamp.toNat → b = b'
      by decide +kernel) b hb b' hb'
  ne_null := by
    intro b hb
    exact (show ∀ b ∈ sampleBlocks, Block.ofNat 32 b.timestamp.toNat ≠ nullHash
      by decide +kernel) b hb

/-- The last two sample blocks as alternative blocks to the second. -/
def sampleAlternative : List BlockExtendedInfo :=
  [⟨⟨Block.ofNat 32 1, 3, []⟩, 1, 2⟩, ⟨⟨Block.ofNat 32 3, 4, []⟩, 2, 3⟩]

def sampleChecks : BlockChecks := ⟨fun _ _ => true, fun _ _ _ => true, fun _ => true⟩

def sampleMainChain : List BlockRow :=
  [⟨⟨nullHash, 1, []⟩, 1⟩] ++ [⟨⟨Block.ofNat 32 1, 2, []⟩, 2⟩]

lemma sampleMainChain_recorded : Recorded sampleIds 1 sampleMainChain :=
  .connect .genesis (by simp [sampleIds, sampleBlocks]) (by decide +kernel)

lemma sampleAlternative_isAlternative :
    IsAlternative sampleIds sampleMainChain 1 sampleAlternative where
  pos := le_rfl
  le := by decide
  known := by simp [sampleAlternative, sampleIds, sampleBlocks]
  heights := by decide
  parent := by decide +kernel

theorem alternative_difficulty_eq_main_sample :
    let split := splitState sampleIds { db := sampleMainChain } ⟨⟨Block.ofNat 32 1, 3, []⟩, 1, 2⟩
    let s' := (connectBlocks sampleIds 1 sampleChecks split [⟨Block.ofNat 32 1, 3, []⟩]).2
    (getDifficultyForNextBlock sampleIds 1 s').1 =
      getNextDifficultyForAlternativeChain 1 sampleMainChain (sampleAlternative.take 1)
        ⟨⟨Block.ofNat 32 3, 4, []⟩, 2, 3⟩ :=
  alternative_difficulty_eq_main sampleChecks (.start sampleMainChain_recorded)
    sampleAlternative_isAlternative rfl (show 1 < sampleAlternative.length by decide)
    (Prod.ext (by decide +kernel) rfl) (by decide +kernel)

lemma connectBlocks_append_singleton {bls : List ChainBlock}
    (hconnect : connectBlocks ids version checks s (bls ++ [bl]) = (true, s')) :
    ∃ s₁, connectBlocks ids version checks s bls = (true, s₁) ∧
      handleBlockToMainChain ids version checks s₁ bl = (true, s') := by
  induction bls generalizing s with
  | nil =>
    rw [List.nil_append, connectBlocks] at hconnect
    split at hconnect
    · next s₁ heq =>
      rw [connectBlocks] at hconnect
      exact ⟨s, rfl, heq.trans hconnect⟩
    · cases hconnect
  | cons b bls ih =>
    rw [List.cons_append, connectBlocks] at hconnect
    rw [connectBlocks]
    split at hconnect
    · exact ih hconnect
    · cases hconnect

/-- Every alternative block was recorded with the difficulty computed for it on top of the
cumulative difficulty of its parent, as `handle_alternative_block` records it. -/
def RecordedAlternative (version : UInt8) (db : List BlockRow) (f : ℕ)
    (altChain : List BlockExtendedInfo) : Prop :=
  ∀ k, (hk : k < altChain.length) → altChain[k].cumulativeDifficulty =
    getNextDifficultyForAlternativeChain version db (altChain.take k) altChain[k] +
      topCumulativeDifficulty (db.take f ++ (altChain.take k).map (·.row))

/-- **A switch stores the alternative blocks as they were recorded.** -/
theorem IsAlternative.connected_eq_recorded (h : Runs ids version s)
    (halt : IsAlternative ids s.db f altChain) (hfront : altChain.head? = some front)
    (hrecorded : RecordedAlternative version s.db f altChain) (hk : k ≤ altChain.length)
    (hconnect : connectBlocks ids version checks (splitState ids s front)
      ((altChain.take k).map (·.bl)) = (true, s')) :
    s'.db = s.db.take f ++ (altChain.take k).map (·.row) := by
  have hsplit : Sound ids version (splitState ids s front) :=
    h.sound.resetWindow.popToParent _ _
  induction k generalizing s' with
  | zero =>
    rw [List.take_zero, List.map_nil, connectBlocks] at hconnect
    obtain rfl := (Prod.mk.inj hconnect).2
    rw [List.take_zero, List.map_nil, List.append_nil]
    exact halt.splitState_db h.sound.recorded hfront
  | succ k ih =>
    have hlt : k < altChain.length := hk
    rw [← List.take_concat_get' altChain k hlt, List.map_append, List.map_singleton] at hconnect
    obtain ⟨s₁, hconnect₁, hhandle⟩ := connectBlocks_append_singleton checks hconnect
    have hdb := ih hlt.le hconnect₁
    have hsound₁ := hsplit.connectBlocks checks
      (show ∀ bl ∈ (altChain.take k).map (·.bl), bl ∈ ids.known by
        intro bl hbl
        obtain ⟨bei, hbei, rfl⟩ := List.mem_map.mp hbl
        exact halt.known bei (List.take_subset _ _ hbei))
    rw [hconnect₁] at hsound₁
    have hstored := (hsound₁.handle checks (halt.known _ (List.getElem_mem hlt))).2
    rw [hhandle] at hstored
    rw [hstored rfl, ← List.take_concat_get' altChain k hlt, List.map_append, List.map_singleton,
      ← List.append_assoc, hdb]
    congr 2
    -- the difficulty the block is stored with is the one it was recorded with
    rw [← getNextDifficultyForAlternativeChain_eq halt.pos halt.le (halt.front_height hlt),
      ← hrecorded k hlt]
    rfl

/-- Both alternative blocks are stored with the difficulty they were recorded with. -/
theorem connected_eq_recorded_sample :
    (connectBlocks sampleIds 1 sampleChecks (splitState sampleIds { db := sampleMainChain }
      ⟨⟨Block.ofNat 32 1, 3, []⟩, 1, 2⟩) (sampleAlternative.map (·.bl))).2.db =
        sampleMainChain.take 1 ++ sampleAlternative.map (·.row) :=
  IsAlternative.connected_eq_recorded (k := 2) sampleChecks (.start sampleMainChain_recorded)
    sampleAlternative_isAlternative rfl
    (show ∀ k, (hk : k < sampleAlternative.length) → _ by decide +kernel) le_rfl
    (Prod.ext (by decide +kernel) rfl)

end BlockchainState

end Qwertycoin
