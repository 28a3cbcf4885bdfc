import Qwertycoin.Wallet

/-
# The coin supply

A block of the main chain passes two checks of its Coinbase: the inherited one, which computes the
subsidy from the coins generated so far and from the weight of the block, and the one of the
coordinator, which is given that subsidy.  The coins generated so far are stored with each block and
stop at the money supply, so that the next subtraction from it does not wrap.
-/

namespace Qwertycoin

open Bytes

/-! ## The subsidy -/

/-- `MONEY_SUPPLY` -/
def moneySupply : UInt64 := 18446744073709551
/-- `EMISSION_SPEED_FACTOR_PER_MINUTE` -/
def emissionSpeedFactorPerMinute : UInt64 := 20
/-- `FINAL_SUBSIDY_PER_MINUTE` -/
def finalSubsidyPerMinute : UInt64 := 30000000
/-- `DIFFICULTY_TARGET_V1` -/
def difficultyTargetV1 : UInt64 := 60
/-- `DIFFICULTY_TARGET_V2` -/
def difficultyTargetV2 : UInt64 := 120
/-- `HF_VERSION_EFFECTIVE_SHORT_TERM_MEDIAN_IN_PENALTY` -/
def hfVersionEffectiveShortTermMedianInPenalty : UInt8 := 12
/-- `HF_VERSION_EXACT_COINBASE` -/
def hfVersionExactCoinbase : UInt8 := 13

/-- `get_min_block_weight` -/
def getMinBlockWeight (version : UInt8) : UInt64 :=
  if version < 2 then 20000 else if version < 5 then 60000 else 300000

/-- `get_block_reward`: the subsidy of a block, unless the block is too heavy. -/
def getBlockReward (medianWeight currentBlockWeight alreadyGeneratedCoins : UInt64)
    (version : UInt8) : Option UInt64 :=
  let target := if version < 2 then difficultyTargetV1 else difficultyTargetV2
  let targetMinutes := target / 60
  let emissionSpeedFactor := emissionSpeedFactorPerMinute - (targetMinutes - 1)
  let speedReward := (moneySupply - alreadyGeneratedCoins) >>> emissionSpeedFactor
  let baseReward :=
    if speedReward < finalSubsidyPerMinute * targetMinutes then
      finalSubsidyPerMinute * targetMinutes
    else speedReward
  let fullRewardZone := getMinBlockWeight version
  let medianWeight := if medianWeight < fullRewardZone then fullRewardZone else medianWeight
  if currentBlockWeight ≤ medianWeight then some baseReward
  else if 2 * medianWeight < currentBlockWeight then none
  else
    let multiplicand := (2 * medianWeight - currentBlockWeight) * currentBlockWeight
    -- `mul128` and twice `div128_64`, of which the low word is kept
    some (UInt64.ofNat
      (baseReward.toNat * multiplicand.toNat / medianWeight.toNat / medianWeight.toNat))

/-! ## The inherited checks of a Coinbase -/

/-- A block with what `handle_block_to_main_chain` looks up for it: the fees of its transactions,
its weight, and the medians of the weights before it. -/
structure MainChainBlock where
  majorVersion : UInt8
  blockHash : Hash
  prevId : Hash
  minerTx : Transaction
  transactions : List Transaction
  fees : List UInt64
  cumulativeBlockWeight : UInt64
  /-- `m_current_block_cumul_weight_median` -/
  currentBlockCumulWeightMedian : UInt64
  /-- The median of the last weights, which early versions use. -/
  lastBlocksWeightMedian : UInt64
deriving DecidableEq

/-- `check_outs_overflow` from a partial sum. -/
def checkOutsOverflow : List TxOut → UInt64 → Bool
  | [], _ => true
  | out :: outs, money =>
    if out.amount + money < money then false else checkOutsOverflow outs (money + out.amount)

/-- The type byte the signatures start with; zero is `RCTTypeNull`. -/
def rctSignaturesType (tx : Transaction) : UInt8 :=
  tx.signatures.headD 0

/-- `prevalidate_miner_transaction` -/
def prevalidateMinerTransaction (minerTx : Transaction) (height : UInt64) (hfVersion : UInt8) :
    Bool :=
  match minerTx.vin with
  | [.gen genHeight] =>
    (1 < minerTx.version || hfVersion < 12) &&
      !(12 ≤ hfVersion && 2 ≤ minerTx.version && rctSignaturesType minerTx ≠ 0) &&
      genHeight = height.toNat && minerTx.unlockTime = height + 60 &&
      checkOutsOverflow minerTx.vout 0 && checkOutputTypes minerTx hfVersion
  | _ => false

/-- `is_valid_decomposed_amount`: a digit and zeros. -/
def isValidDecomposedAmount (amount : UInt64) : Bool :=
  (List.range 20).any fun exponent => (List.range' 1 9).any fun digit =>
    amount.toNat = digit * 10 ^ exponent

/-- `validate_miner_transaction`: the subsidy, and whether less than it was claimed. -/
def validateMinerTransaction (b : MainChainBlock) (fee alreadyGeneratedCoins : UInt64)
    (version : UInt8) : Option (UInt64 × Bool) :=
  let moneyInUse := (b.minerTx.vout.map (·.amount)).sum
  if version = 3 && !b.minerTx.vout.all fun out => isValidDecomposedAmount out.amount then none
  else do
    let medianWeight :=
      if hfVersionEffectiveShortTermMedianInPenalty ≤ version then b.currentBlockCumulWeightMedian
      else b.lastBlocksWeightMedian
    let baseReward ←
      getBlockReward medianWeight b.cumulativeBlockWeight alreadyGeneratedCoins version
    if baseReward + fee < moneyInUse then none
    else if version < 2 || hfVersionExactCoinbase ≤ version then
      if baseReward + fee ≠ moneyInUse then none else some (baseReward, false)
    else if baseReward < moneyInUse - fee then none
    else some (moneyInUse - fee, baseReward + fee ≠ moneyInUse)

/-! ## The main chain -/

/-- The coordinator, and the coins generated up to each block of the chain. -/
structure MainChain where
  coordinator : BlockTransitionV2 := {}
  alreadyGeneratedCoins : List UInt64 := []

/-- The coins generated before the block at a height. -/
def MainChain.coinsBefore (m : MainChain) (height : ℕ) : UInt64 :=
  (0 :: m.alreadyGeneratedCoins).getD height 0

/-- The block as `apply_epose_block` hands it to the coordinator. -/
def MainChainBlock.candidate (b : MainChainBlock) (height scheduledSubsidy fees : UInt64) :
    CoordinatorBlockV2 where
  majorVersion := b.majorVersion
  height := height
  blockHash := b.blockHash
  parentHash := b.prevId
  scheduledSubsidy := scheduledSubsidy
  transactionFees := fees
  coinbase := some b.minerTx
  transactions := b.transactions.map some

/-- The coins generated after a block with a subsidy. -/
def nextGeneratedCoins (alreadyGeneratedCoins baseReward : UInt64) : UInt64 :=
  if baseReward < moneySupply - alreadyGeneratedCoins then alreadyGeneratedCoins + baseReward
  else moneySupply

/-- `handle_block_to_main_chain` under the EPoSE fork, as far as amounts go: the chain after an
accepted block, its subsidy and the coordinator's result.  The checks that are left out only refuse
blocks. -/
def handleBlockToMainChain (cr : Crypto) (p : ConsensusParametersV2)
    (contexts : CanonicalContextSourceV2) (m : MainChain) (b : MainChainBlock) :
    Option (MainChain × UInt64 × CoordinatorResultV2) :=
  let height := m.alreadyGeneratedCoins.length
  if !prevalidateMinerTransaction b.minerTx (UInt64.ofNat height) hfVersionQwcEpose then none
  else do
    let feeSummary := b.fees.sum
    let alreadyGeneratedCoins := m.coinsBefore height
    let (baseReward, _) ←
      validateMinerTransaction b feeSummary alreadyGeneratedCoins hfVersionQwcEpose
    match ConsensusCoordinatorV2.connectBlock cr p contexts m.coordinator
      (b.candidate (UInt64.ofNat height) baseReward feeSummary) with
    | (_, .error _) => none
    | (coordinator, .ok result) =>
      some (⟨coordinator, m.alreadyGeneratedCoins ++
        [nextGeneratedCoins alreadyGeneratedCoins baseReward]⟩, baseReward, result)

/-- A block of the chain, with its subsidy and the coordinator's result. -/
structure HandledBlock where
  block : MainChainBlock
  subsidy : UInt64
  result : CoordinatorResultV2

/-- The blocks of the main chain, in order, after blocks were added and popped.  Where a pop leaves
the coordinator plays no part here. -/
inductive Handled (cr : Crypto) (p : ConsensusParametersV2) : List HandledBlock → MainChain → Prop
  | fresh : Handled cr p [] {}
  | handle {history m m' contexts b subsidy result} : Handled cr p history m →
      handleBlockToMainChain cr p contexts m b = some (m', subsidy, result) →
      Handled cr p (history ++ [⟨b, subsidy, result⟩]) m'
  | pop {history m coordinator} : Handled cr p history m →
      Handled cr p history.dropLast ⟨coordinator, m.alreadyGeneratedCoins.dropLast⟩

/-! ## What an accepted block pays -/

lemma toNat_compiledShare (amount : UInt64) :
    (basisPoints amount eposeServiceRewardBpsV2).toNat = amount.toNat / 10 := by
  have hbps : eposeServiceRewardBpsV2.toNat = 1000 := rfl
  rw [toNat_basisPoints amount (by decide), hbps]
  omega

/-- When a set without qualified nodes leaves everything to the miner, the whole subsidy is issued,
and a payee gets a tenth of it. -/
lemma calculateRewardAllocationV2_issued {scheduledSubsidy transactionFees : UInt64}
    {hasPayee : Bool} {allocation : RewardAllocationV2}
    (h : calculateRewardAllocationV2 scheduledSubsidy transactionFees hasPayee .minerFallback
      eposeServiceRewardBpsV2 = .ok allocation) :
    allocation.issuedSubsidy.toNat = scheduledSubsidy.toNat ∧
      (hasPayee = true → allocation.serviceReward.toNat = scheduledSubsidy.toNat / 10) := by
  simp only [calculateRewardAllocationV2] at h
  split at h
  · cases h
  obtain ⟨split, hsplit, h⟩ := except_bind_eq_ok_iff.mp h
  obtain ⟨issued, hissued, h⟩ := except_bind_eq_ok_iff.mp h
  obtain ⟨total, -, h⟩ := except_bind_eq_ok_iff.mp h
  cases h
  have hissued := checkedAdd_eq_some_iff.mp (okOr_eq_ok_iff.mp hissued)
  have hshare := toNat_compiledShare scheduledSubsidy
  cases hasPayee with
  | false =>
    cases hsplit
    simpa using hissued.symm
  | true =>
    cases hsplit
    have hle : basisPoints scheduledSubsidy eposeServiceRewardBpsV2 ≤ scheduledSubsidy := by
      rw [UInt64.le_iff_toNat_le, hshare]
      omega
    rw [UInt64.toNat_sub_of_le _ _ hle, hshare] at hissued
    exact ⟨by dsimp only; omega, fun _ => hshare⟩

namespace ConsensusCoordinatorV2

variable {cr : Crypto} {p : ConsensusParametersV2} {contexts : CanonicalContextSourceV2}

lemma planReward_issued (hpolicy : p.emptyPolicy = .minerFallback) {s : SemanticStateV2}
    {height : UInt64} {parentHash : Hash} {scheduledSubsidy transactionFees : UInt64}
    {plan : CoordinatorRewardPlanV2}
    (h : planReward cr p contexts s height parentHash scheduledSubsidy transactionFees = .ok plan) :
    plan.allocation.issuedSubsidy.toNat = scheduledSubsidy.toNat ∧
      ∀ expected, plan.expectation = some expected →
        plan.allocation.serviceReward.toNat = scheduledSubsidy.toNat / 10 := by
  unfold planReward at h
  split at h
  · cases h
  rename_i hvalid
  have hbps : p.serviceRewardBps = eposeServiceRewardBpsV2 := by
    simp [ConsensusParametersV2.valid, ConsensusParametersV2.parametersValid] at hvalid
    exact hvalid.1.1.2
  split at h
  · cases h
  split at h
  · split at h
    · cases h
    cases h
    exact ⟨rfl, fun _ hnone => by cases hnone⟩
  split at h
  · cases h
  dsimp only at h
  split at h
  · cases h
  split at h
  · cases h
  obtain ⟨payee, -, h⟩ := except_bind_eq_ok_iff.mp h
  split at h
  · cases h
  · cases h
  rename_i allocation hallocation
  cases h
  rw [hpolicy, hbps] at hallocation
  obtain ⟨hissued, hservice⟩ := calculateRewardAllocationV2_issued hallocation
  refine ⟨hissued, fun expected hsome => hservice ?_⟩
  cases payee with
  | none => cases hsome
  | some _ => rfl

/-- The amounts of an accepted block: the Coinbase is the subsidy and the fees, and what goes to a
payee is a tenth of the subsidy. -/
lemma connectBlock_amounts (hpolicy : p.emptyPolicy = .minerFallback) {t : BlockTransitionV2}
    {block : CoordinatorBlockV2} {result : CoordinatorResultV2}
    (h : (connectBlock cr p contexts t block).2 = .ok result) :
    ∃ coinbase, block.coinbase = some coinbase ∧
      (coinbase.vout.map (·.amount.toNat)).sum =
        block.scheduledSubsidy.toNat + block.transactionFees.toNat ∧
      ∀ context, result.payment = some context → ∃ proof : ScopedPaymentProofV2,
        context.outputs = (derivedOutputs cr proof.derivation context.rewardAddress.spendPublicKey
          coinbase.vout).map paymentOutput ∧
        (context.outputs.map (·.amount.toNat)).sum = block.scheduledSubsidy.toNat / 10 := by
  obtain ⟨coinbase, plan, hcoinbase, hplan, htotal, hpays⟩ := connectBlock_pays h
  obtain ⟨hsum, hexpected⟩ := planReward_eq_ok hplan
  obtain ⟨hissued, hservice⟩ := planReward_issued hpolicy hplan
  refine ⟨coinbase, hcoinbase, ?_, fun context hcontext => ?_⟩
  · have htotal := sumOutputs_eq_some htotal
    rw [hsum, hissued] at htotal
    simpa using htotal.symm
  · obtain ⟨-, hnone⟩ | ⟨expected, context', proof, hsome, hpayment, hpays⟩ := hpays
    · rw [hnone] at hcontext
      cases hcontext
    obtain rfl := Option.some.inj (hpayment.symm.trans hcontext)
    obtain ⟨-, -, -, hreward, -⟩ := hexpected expected hsome
    refine ⟨proof, ?_, ?_⟩
    · rw [hpays.outputs_eq, ← hpays.expectation_eq]
    · rw [hpays.outputs_sum.1, hreward, hservice expected hsome]

end ConsensusCoordinatorV2

/-! ## What the chain stores -/

lemma toNat_sum_of_lt {amounts : List UInt64} (h : (amounts.map (·.toNat)).sum < 2 ^ 64) :
    amounts.sum.toNat = (amounts.map (·.toNat)).sum := by
  induction amounts with
  | nil => rfl
  | cons amount amounts ih =>
    rw [List.map_cons, List.sum_cons] at h ⊢
    rw [List.sum_cons, UInt64.toNat_add, ih (by omega), Nat.mod_eq_of_lt h]

/-- The coins that are stored stop at the money supply. -/
lemma toNat_nextGeneratedCoins {coins baseReward : UInt64} {issued : ℕ}
    (h : coins.toNat = min moneySupply.toNat issued) :
    (nextGeneratedCoins coins baseReward).toNat =
      min moneySupply.toNat (issued + baseReward.toNat) := by
  have hsupply : moneySupply.toNat = 18446744073709551 := rfl
  have hle : coins ≤ moneySupply := UInt64.le_iff_toNat_le.mpr (h ▸ min_le_left _ _)
  unfold nextGeneratedCoins
  split_ifs with hlt
  · rw [UInt64.lt_iff_toNat_lt, UInt64.toNat_sub_of_le _ _ hle] at hlt
    rw [UInt64.toNat_add]
    omega
  · rw [UInt64.lt_iff_toNat_lt, UInt64.toNat_sub_of_le _ _ hle] at hlt
    omega

section Chain

variable {cr : Crypto} {p : ConsensusParametersV2} {m m' : MainChain} {b : MainChainBlock}
  {subsidy : UInt64} {result : CoordinatorResultV2} {contexts : CanonicalContextSourceV2}
  {history : List HandledBlock}

/-- What the inherited check establishes under the EPoSE fork. -/
lemma validateMinerTransaction_eq_some {fee coins : UInt64} {partialReward : Bool}
    (h : validateMinerTransaction b fee coins hfVersionQwcEpose = some (subsidy, partialReward)) :
    getBlockReward b.currentBlockCumulWeightMedian b.cumulativeBlockWeight coins
      hfVersionQwcEpose = some subsidy := by
  unfold validateMinerTransaction at h
  dsimp only at h
  split at h
  · cases h
  obtain ⟨baseReward, hreward, h⟩ := Option.bind_eq_some_iff.mp h
  rw [if_pos (by decide)] at hreward
  split at h
  · cases h
  rw [if_pos (by decide)] at h
  split at h
  · cases h
  obtain ⟨rfl, -⟩ := Prod.mk.inj (Option.some.inj h)
  exact hreward

/-- An accepted block was given its subsidy by `get_block_reward`, was connected with it, and the
coins generated are stored. -/
lemma handleBlockToMainChain_eq_some
    (h : handleBlockToMainChain cr p contexts m b = some (m', subsidy, result)) :
    getBlockReward b.currentBlockCumulWeightMedian b.cumulativeBlockWeight
        (m.coinsBefore m.alreadyGeneratedCoins.length) hfVersionQwcEpose = some subsidy ∧
      (ConsensusCoordinatorV2.connectBlock cr p contexts m.coordinator
        (b.candidate (UInt64.ofNat m.alreadyGeneratedCoins.length) subsidy b.fees.sum)).2 =
          .ok result ∧
      m'.alreadyGeneratedCoins = m.alreadyGeneratedCoins ++
        [nextGeneratedCoins (m.coinsBefore m.alreadyGeneratedCoins.length) subsidy] ∧
      m'.coordinator = (ConsensusCoordinatorV2.connectBlock cr p contexts m.coordinator
        (b.candidate (UInt64.ofNat m.alreadyGeneratedCoins.length) subsidy b.fees.sum)).1 := by
  unfold handleBlockToMainChain at h
  dsimp only at h
  split at h
  · cases h
  obtain ⟨⟨baseReward, partialReward⟩, hvalidate, h⟩ := Option.bind_eq_some_iff.mp h
  dsimp only at h
  split at h
  · cases h
  rename_i coordinator result' hconnect
  obtain ⟨rfl, hrest⟩ := Prod.mk.inj (Option.some.inj h)
  obtain ⟨rfl, rfl⟩ := Prod.mk.inj hrest
  exact ⟨validateMinerTransaction_eq_some hvalidate, by rw [hconnect], rfl, by rw [hconnect]⟩

lemma handleBlockToMainChain_of_connected {partialReward : Bool}
    (hprevalidate : prevalidateMinerTransaction b.minerTx
      (UInt64.ofNat m.alreadyGeneratedCoins.length) hfVersionQwcEpose = true)
    (hvalidate : validateMinerTransaction b b.fees.sum
      (m.coinsBefore m.alreadyGeneratedCoins.length) hfVersionQwcEpose =
        some (subsidy, partialReward))
    (hconnect : (ConsensusCoordinatorV2.connectBlock cr p contexts m.coordinator
      (b.candidate (UInt64.ofNat m.alreadyGeneratedCoins.length) subsidy b.fees.sum)).2 =
        .ok result) :
    ∃ m', handleBlockToMainChain cr p contexts m b = some (m', subsidy, result) := by
  unfold handleBlockToMainChain
  dsimp only
  rw [if_neg (by simp [hprevalidate]), hvalidate]
  simp only [Option.bind_eq_bind, Option.bind_some]
  split
  · rename_i herror
    rw [herror] at hconnect
    cases hconnect
  · rename_i coordinator result' hok
    rw [hok] at hconnect
    cases hconnect
    exact ⟨_, rfl⟩

/-- What a block of the chain paid, after some coins were generated: its Coinbase is the subsidy
and the fees, and the outputs of a payee are a tenth of the subsidy. -/
structure HandledBlock.Paid (cr : Crypto) (entry : HandledBlock) (coins : UInt64) : Prop where
  reward : getBlockReward entry.block.currentBlockCumulWeightMedian
    entry.block.cumulativeBlockWeight coins hfVersionQwcEpose = some entry.subsidy
  total : (entry.block.fees.map (·.toNat)).sum < 2 ^ 64 →
    (entry.block.minerTx.vout.map (·.amount.toNat)).sum =
      entry.subsidy.toNat + (entry.block.fees.map (·.toNat)).sum
  service : ∀ context, entry.result.payment = some context → ∃ proof : ScopedPaymentProofV2,
    context.outputs = (derivedOutputs cr proof.derivation context.rewardAddress.spendPublicKey
      entry.block.minerTx.vout).map paymentOutput ∧
    (context.outputs.map (·.amount.toNat)).sum = entry.subsidy.toNat / 10

/-- The coins of a chain: each block paid what it should, and the coins generated by the first `k`
blocks are their subsidies up to the money supply. -/
structure Conserved (cr : Crypto) (history : List HandledBlock) (m : MainChain) : Prop where
  length : m.alreadyGeneratedCoins.length = history.length
  coins : ∀ k ≤ history.length, (m.coinsBefore k).toNat =
    min moneySupply.toNat (((history.take k).map (·.subsidy.toNat)).sum)
  paid : ∀ (k : ℕ) (entry : HandledBlock), history[k]? = some entry →
    entry.Paid cr (m.coinsBefore k)

lemma coinsBefore_append {coordinator coordinator' : BlockTransitionV2} {coins : List UInt64}
    {k : ℕ} (hk : k ≤ coins.length) (next : UInt64) :
    MainChain.coinsBefore ⟨coordinator, coins ++ [next]⟩ k =
      MainChain.coinsBefore ⟨coordinator', coins⟩ k := by
  simp only [MainChain.coinsBefore]
  rw [← List.cons_append]
  exact List.getD_append _ _ _ _ (by simpa using hk)

lemma coinsBefore_length {coordinator : BlockTransitionV2} {coins : List UInt64} (next : UInt64) :
    MainChain.coinsBefore ⟨coordinator, coins ++ [next]⟩ (coins.length + 1) = next := by
  simp [MainChain.coinsBefore]

lemma Conserved.handle (hpolicy : p.emptyPolicy = .minerFallback) (h : Conserved cr history m)
    (hhandle : handleBlockToMainChain cr p contexts m b = some (m', subsidy, result)) :
    Conserved cr (history ++ [⟨b, subsidy, result⟩]) m' := by
  obtain ⟨hreward, hconnect, hcoins, -⟩ := handleBlockToMainChain_eq_some hhandle
  obtain ⟨coinbase, hcoinbase, htotal, hservice⟩ :=
    ConsensusCoordinatorV2.connectBlock_amounts hpolicy hconnect
  obtain rfl : b.minerTx = coinbase := Option.some.inj hcoinbase
  obtain ⟨coordinator, coins⟩ := m
  obtain ⟨coordinator', coins'⟩ := m'
  obtain rfl : coins' = _ := hcoins
  have hlength : coins.length = history.length := h.length
  have hbefore : ∀ k ≤ history.length, ∀ next : UInt64,
      MainChain.coinsBefore ⟨coordinator', coins ++ [next]⟩ k =
        MainChain.coinsBefore ⟨coordinator, coins⟩ k :=
    fun k hk next => coinsBefore_append (hlength ▸ hk) next
  have hnow := h.coins history.length le_rfl
  rw [List.take_length] at hnow
  refine ⟨by simp [hlength], fun k hk => ?_, fun k entry hentry => ?_⟩
  · obtain hk | rfl : k ≤ history.length ∨ k = history.length + 1 := by
      rw [List.length_append, List.length_singleton] at hk
      omega
    · rw [hbefore k hk, List.take_append_of_le_length hk]
      exact h.coins k hk
    · rw [List.take_of_length_le (by simp), List.map_append, List.sum_append, ← hlength, coinsBefore_length]
      simpa using toNat_nextGeneratedCoins (by rw [hlength]; exact hnow)
  · obtain ⟨hk, hentry⟩ | rfl : k < history.length ∧ history[k]? = some entry ∨
        k = history.length := by
      obtain hlt | hge := Nat.lt_or_ge k history.length
      · exact .inl ⟨hlt, by rwa [List.getElem?_append_left hlt] at hentry⟩
      · have := (List.getElem?_eq_some_iff.mp hentry).1
        rw [List.length_append, List.length_singleton] at this
        exact .inr (by omega)
    · rw [hbefore k hk.le]
      exact h.paid k entry hentry
    · rw [List.getElem?_append_right le_rfl, Nat.sub_self] at hentry
      obtain rfl := Option.some.inj hentry
      rw [hbefore _ le_rfl]
      refine ⟨by rw [← hlength]; exact hreward, fun hfees => ?_, hservice⟩
      rw [htotal, ← toNat_sum_of_lt hfees]
      rfl

lemma Conserved.pop (h : Conserved cr history m) (coordinator : BlockTransitionV2) :
    Conserved cr history.dropLast ⟨coordinator, m.alreadyGeneratedCoins.dropLast⟩ := by
  obtain ⟨coordinator', coins⟩ := m
  have hlength : coins.length = history.length := h.length
  obtain rfl | ⟨rest, last, rfl⟩ := coins.eq_nil_or_concat
  · obtain rfl := List.length_eq_zero_iff.mp hlength.symm
    exact ⟨rfl, h.coins, h.paid⟩
  obtain rfl | ⟨front, entry, rfl⟩ := history.eq_nil_or_concat
  · simp at hlength
  have hlength : rest.length = front.length := by simpa using hlength
  have hbefore : ∀ k ≤ front.length, MainChain.coinsBefore ⟨coordinator, rest⟩ k =
      MainChain.coinsBefore ⟨coordinator', rest ++ [last]⟩ k :=
    fun k hk => (coinsBefore_append (hlength ▸ hk) last).symm
  simp only [List.concat_eq_append, List.dropLast_concat] at h ⊢
  refine ⟨hlength, fun k hk => ?_, fun k entry hentry => ?_⟩
  · rw [hbefore k hk, h.coins k (by simp; omega), List.take_append_of_le_length hk]
  · have hk := (List.getElem?_eq_some_iff.mp hentry).1
    rw [hbefore k hk.le]
    exact h.paid k entry (by rwa [List.getElem?_append_left hk])

/-- **The coin supply is conserved.**  Every block of the main chain has a Coinbase that is exactly
the subsidy that `get_block_reward` gives it and its fees, if these do not overflow, and the outputs
of a payee are exactly a tenth of the subsidy, rounded down.  The coins stored after any number of
blocks are the subsidies of these blocks up to the money supply, and the subtraction in the next
reward does not wrap. -/
theorem supply_is_conserved (hpolicy : p.emptyPolicy = .minerFallback)
    (h : Handled cr p history m) :
    Conserved cr history m ∧ ∀ k ≤ history.length,
      (moneySupply - m.coinsBefore k).toNat + (m.coinsBefore k).toNat = moneySupply.toNat := by
  have hconserved : Conserved cr history m := by
    induction h with
    | fresh => exact ⟨rfl, fun k hk => by simp [Nat.le_zero.mp hk, MainChain.coinsBefore], by simp⟩
    | handle _ hhandle ih => exact ih.handle hpolicy hhandle
    | pop _ ih => exact ih.pop _
  refine ⟨hconserved, fun k hk => ?_⟩
  have hle : (m.coinsBefore k).toNat ≤ moneySupply.toNat :=
    hconserved.coins k hk ▸ min_le_left _ _
  rw [UInt64.toNat_sub_of_le _ _ (UInt64.le_iff_toNat_le.mpr hle)]
  omega

/-- A first block whose Coinbase is some amount. -/
def MainChainBlock.sampleFirst (amount : UInt64) : MainChainBlock where
  majorVersion := hfVersionQwcEpose
  blockHash := Block.ofNat 32 1
  prevId := nullHash
  minerTx := ⟨2, 60, [.gen 0], [⟨amount, .toTaggedKey (sampleKey 99) 0⟩], [], [0]⟩
  transactions := []
  fees := []
  cumulativeBlockWeight := 1000
  currentBlockCumulWeightMedian := 300000
  lastBlocksWeightMedian := 0

/-- The first block of a chain. -/
theorem supply_is_conserved_sample :
    ∃ m result, Handled .sample (.sample 3)
        [⟨.sampleFirst 35184372088, 35184372088, result⟩] m ∧
      Conserved .sample [⟨.sampleFirst 35184372088, 35184372088, result⟩] m := by
  have hsubsidy : (handleBlockToMainChain .sample (.sample 3) .sample {}
      (.sampleFirst 35184372088)).map (·.2.1) = some 35184372088 := by decide +kernel
  obtain ⟨⟨m, subsidy, result⟩, hhandle, rfl⟩ := Option.map_eq_some_iff.mp hsubsidy
  have hrun := Handled.handle .fresh hhandle
  exact ⟨m, result, hrun, (supply_is_conserved rfl hrun).1⟩

end Chain

end Qwertycoin
