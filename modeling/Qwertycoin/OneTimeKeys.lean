import Qwertycoin.Wallet

/-
# The one-time keys of service rewards

A reward is paid to keys that are derived from the transaction key of the Coinbase.  The verifier
compares the keys it counts within one Coinbase, and not with those of earlier blocks: two payouts
whose proofs state one derivation pay the same keys at the same indices.  Two derivations that
differ do not, and this is the only way in which counted keys of different blocks can coincide.
-/

namespace Qwertycoin

/-- A payout: the spend key and the derivation it was proved for, and the outputs it counted. -/
structure Payout where
  spendPublicKey : PublicKey
  derivation : KeyDerivation
  outputs : List ServicePaymentOutputV2
deriving DecidableEq

/-- The derivation that the payment proof of a Coinbase states. -/
def statedDerivation (limits : ExtraLimits) (coinbase : Transaction) : Option KeyDerivation := do
  let (records, _) ← (limits.parse coinbase.extra).toOption
  let proof ← (← (findPaymentProof records none).toOption)
  return proof.derivation

/-- The outputs that were counted for an accepted block. -/
def CoordinatorResultV2.countedOutputs (result : CoordinatorResultV2) :
    List ServicePaymentOutputV2 :=
  (result.payment.map (·.outputs)).getD []

/-- The payout of an accepted block. -/
def CoordinatorBlockV2.payout (p : ConsensusParametersV2) (block : CoordinatorBlockV2)
    (result : CoordinatorResultV2) : Option Payout := do
  let context ← result.payment
  let coinbase ← block.coinbase
  let derivation ← statedDerivation (p.extraLimits block.majorVersion) coinbase
  return ⟨context.rewardAddress.spendPublicKey, derivation, context.outputs⟩

namespace ConsensusCoordinatorV2

variable (cr : Crypto) (p : ConsensusParametersV2)

/-- Blocks that are connected in sequence, each with the context source it was given: the
coordinator they lead to, and each block with its result. -/
def connectAll : List (CanonicalContextSourceV2 × CoordinatorBlockV2) → BlockTransitionV2 →
    Option (BlockTransitionV2 × List (CoordinatorBlockV2 × CoordinatorResultV2))
  | [], t => some (t, [])
  | (contexts, block) :: calls, t => do
    let result ← (connectBlock cr p contexts t block).2.toOption
    let (t, accepted) ← connectAll calls (connectBlock cr p contexts t block).1
    return (t, (block, result) :: accepted)

/-- The payouts among accepted blocks. -/
def payouts (accepted : List (CoordinatorBlockV2 × CoordinatorResultV2)) : List Payout :=
  accepted.filterMap fun (block, result) => block.payout p result

end ConsensusCoordinatorV2

/-- The arguments `derive_public_key` was given for a spend key. -/
def derivedFor (payouts : List Payout) (spendPublicKey : PublicKey) : Set (KeyDerivation × ℕ) :=
  { used | ∃ payout ∈ payouts, payout.spendPublicKey = spendPublicKey ∧
    ∃ output ∈ payout.outputs, used = (payout.derivation, output.outputIndex.toNat) }

/-- What two payouts must avoid: with one spend key, the same derivation at the same index; with
two spend keys, derivations that give the same key. -/
def Payout.Apart (cr : Crypto) (left right : Payout) : Prop :=
  ∀ output ∈ left.outputs, ∀ output' ∈ right.outputs,
    (left.spendPublicKey = right.spendPublicKey →
      left.derivation = right.derivation → output.outputIndex ≠ output'.outputIndex) ∧
    (left.spendPublicKey ≠ right.spendPublicKey →
      cr.derivePublicKey left.derivation output.outputIndex.toNat left.spendPublicKey ≠
        cr.derivePublicKey right.derivation output'.outputIndex.toNat right.spendPublicKey)

/-- The outputs of a payout are derived, and have distinct keys. -/
structure Payout.Derived (cr : Crypto) (payout : Payout) : Prop where
  derived : ∀ output ∈ payout.outputs, cr.derivePublicKey payout.derivation
    output.outputIndex.toNat payout.spendPublicKey = some output.outputPublicKey
  nodup : (payout.outputs.map (·.outputPublicKey)).Nodup

section Keys

variable {cr : Crypto}

lemma PaysService.derived {limits : ExtraLimits} {coinbase : Transaction}
    {expected : ServicePaymentExpectationV2} {context : ServicePaymentContextV2}
    {proof : ScopedPaymentProofV2} (h : PaysService cr limits coinbase expected context proof) :
    Payout.Derived cr
      ⟨context.rewardAddress.spendPublicKey, proof.derivation, context.outputs⟩ where
  nodup := h.outputs_sum.2
  derived := by
    intro output hmem
    have haddress : context.rewardAddress = expected.rewardAddress :=
      congrArg ServicePaymentExpectationV2.rewardAddress h.expectation_eq
    dsimp only at hmem ⊢
    rw [h.outputs_eq] at hmem
    obtain ⟨out, hout, rfl⟩ := List.mem_map.mp hmem
    obtain ⟨hvout, hderived⟩ := List.mem_filter.mp hout
    obtain ⟨key, hkey, hderived⟩ := exists_key_of_derivedAt hderived
    have hindex : out.2 < coinbase.vout.length := by
      simpa using List.snd_lt_of_mem_zipIdx hvout
    have hindex := hindex.trans_le h.paysToKeys.1
    simp only [paymentOutput, hkey, Option.getD_some, haddress]
    rw [UInt32.toNat_ofNat_of_lt' hindex, hderived]

/-- The keys of two payouts differ exactly when the payouts are apart, as `derive_public_key` is
injective for a fixed spend key. -/
lemma Payout.disjoint_iff {payouts : List Payout} {left right : Payout} (hleft : left ∈ payouts)
    (hright : right ∈ payouts) (hderived : ∀ payout ∈ payouts, payout.Derived cr)
    (hinj : ∀ spendPublicKey, Set.InjOn
      (fun used : KeyDerivation × ℕ => cr.derivePublicKey used.1 used.2 spendPublicKey)
      (derivedFor payouts spendPublicKey)) :
    (left.outputs.map (·.outputPublicKey)).Disjoint (right.outputs.map (·.outputPublicKey)) ↔
      left.Apart cr right := by
  have hkey : ∀ output ∈ left.outputs, ∀ output' ∈ right.outputs,
      (output.outputPublicKey = output'.outputPublicKey ↔
        cr.derivePublicKey left.derivation output.outputIndex.toNat left.spendPublicKey =
          cr.derivePublicKey right.derivation output'.outputIndex.toNat right.spendPublicKey) := by
    intro output hmem output' hmem'
    rw [(hderived left hleft).derived output hmem, (hderived right hright).derived output' hmem',
      Option.some_inj]
  constructor
  · intro hdisjoint output hmem output' hmem'
    have hne : output.outputPublicKey ≠ output'.outputPublicKey := by
      intro heq
      exact hdisjoint (List.mem_map_of_mem hmem)
        (List.mem_map.mpr ⟨output', hmem', heq.symm⟩)
    refine ⟨fun hspend hderivation hindex => hne ?_, fun _ => (hkey _ hmem _ hmem').not.mp hne⟩
    rw [hkey _ hmem _ hmem', hspend, hderivation, hindex]
  · intro hapart key hkey₁ hkey₂
    obtain ⟨output, hmem, rfl⟩ := List.mem_map.mp hkey₁
    obtain ⟨output', hmem', heq⟩ := List.mem_map.mp hkey₂
    have heq := (hkey _ hmem _ hmem').mp heq.symm
    obtain ⟨hsame, hcross⟩ := hapart output hmem output' hmem'
    by_cases hspend : left.spendPublicKey = right.spendPublicKey
    · rw [hspend] at heq
      have hused := hinj right.spendPublicKey ⟨left, hleft, hspend, output, hmem, rfl⟩
        ⟨right, hright, rfl, output', hmem', rfl⟩ heq
      obtain ⟨hderivation, hindex⟩ := Prod.mk.inj hused
      exact hsame hspend hderivation (UInt32.toNat_inj.mp hindex)
    · exact hcross hspend heq

end Keys

namespace ConsensusCoordinatorV2

variable {cr : Crypto} {p : ConsensusParametersV2}

/-- An accepted block either counts nothing, or its outputs are those of its payout. -/
lemma connectBlock_payout {contexts : CanonicalContextSourceV2} {t : BlockTransitionV2}
    {block : CoordinatorBlockV2} {result : CoordinatorResultV2}
    (h : (connectBlock cr p contexts t block).2 = .ok result) :
    (result.countedOutputs = [] ∧ block.payout p result = none) ∨
      ∃ payout : Payout, block.payout p result = some payout ∧
        result.countedOutputs = payout.outputs ∧ payout.Derived cr := by
  obtain ⟨coinbase, plan, hcoinbase, -, -, hpays⟩ := connectBlock_pays h
  obtain ⟨-, hnone⟩ | ⟨expected, context, proof, -, hpayment, hpays⟩ := hpays
  · refine Or.inl ⟨?_, ?_⟩
    · simp [CoordinatorResultV2.countedOutputs, hnone]
    · simp [CoordinatorBlockV2.payout, hnone]
  · obtain ⟨records, budget, hparse, hfound⟩ := hpays.proof_found
    have hstated : statedDerivation (p.extraLimits block.majorVersion) coinbase =
        some proof.derivation := by
      simp [statedDerivation, hparse, hfound, Except.toOption]
    refine Or.inr ⟨_, ?_, ?_, hpays.derived⟩
    · simp [CoordinatorBlockV2.payout, hpayment, hcoinbase, hstated]
    · simp [CoordinatorResultV2.countedOutputs, hpayment]

lemma connectAll_payouts {calls : List (CanonicalContextSourceV2 × CoordinatorBlockV2)}
    {t t' : BlockTransitionV2} {accepted : List (CoordinatorBlockV2 × CoordinatorResultV2)}
    (h : connectAll cr p calls t = some (t', accepted)) :
    accepted.flatMap (·.2.countedOutputs) = (payouts p accepted).flatMap (·.outputs) ∧
      ∀ payout ∈ payouts p accepted, payout.Derived cr := by
  induction calls generalizing t accepted with
  | nil =>
    cases h
    simp [payouts]
  | cons call calls ih =>
    obtain ⟨contexts, block⟩ := call
    simp only [connectAll, Option.bind_eq_bind, Option.bind_eq_some_iff, Prod.exists] at h
    obtain ⟨result, hresult, t'', rest, hrest, heq⟩ := h
    obtain ⟨rfl, rfl⟩ := Prod.mk.inj (Option.some.inj heq)
    have hok : (connectBlock cr p contexts t block).2 = .ok result := by
      cases hconnect : (connectBlock cr p contexts t block).2 with
      | error status =>
        rw [hconnect] at hresult
        cases hresult
      | ok result' =>
        rw [hconnect] at hresult
        exact congrArg Except.ok (Option.some.inj hresult)
    obtain ⟨hflat, hderived⟩ := ih hrest
    obtain ⟨hnil, hnone⟩ | ⟨payout, hsome, houtputs, hpayout⟩ := connectBlock_payout hok
    · have hpayouts : payouts p ((block, result) :: rest) = payouts p rest :=
        List.filterMap_cons_none hnone
      rw [hpayouts, List.flatMap_cons, hnil, List.nil_append]
      exact ⟨hflat, hderived⟩
    · have hpayouts : payouts p ((block, result) :: rest) = payout :: payouts p rest :=
        List.filterMap_cons_some hsome
      rw [hpayouts, List.flatMap_cons, List.flatMap_cons, houtputs, hflat, List.forall_mem_cons]
      exact ⟨rfl, hpayout, hderived⟩

/-- The second payout of the concrete run, with some transaction key. -/
def sampleSecondPayout (secret : SecretKey) : CoordinatorBlockV2 :=
  samplePayout (connectBlock .sample (.sample 3) .sample sampleDue (sampleFirstPayout 2 0)).1.state
    7 (payingCoinbase secret 2 0 .toKey)

/-- The concrete run from the fresh coordinator to its second payout. -/
def sampleTwoPayouts (secret : SecretKey) : List (CanonicalContextSourceV2 × CoordinatorBlockV2) :=
  (sampleFreezingBlocks ++ sampleBlocks 3 ++ [sampleFirstPayout 2 0, sampleSecondPayout secret]).map
    fun block => (.sample, block)

/-- A payout to the payee of the concrete run, in one output. -/
def samplePaid (derivation : KeyDerivation) : Payout :=
  ⟨sampleKey 5, derivation, [⟨0, 100,
    (Crypto.sample.derivePublicKey derivation 0 (sampleKey 5)).getD nullPkey⟩]⟩

lemma sampleTwoPayouts_facts : ∀ n ∈ [5, 6],
    (connectAll .sample (.sample 3) (sampleTwoPayouts (sampleKey n)) {}).map
      (fun run => payouts (.sample 3) run.2) =
      some [samplePaid (sampleKey 11), samplePaid (sampleKey (n + 6))] := by
  decide +kernel

lemma exists_sampleTwoPayouts {n : ℕ} (hn : n ∈ [5, 6]) : ∃ t accepted,
    connectAll .sample (.sample 3) (sampleTwoPayouts (sampleKey n)) {} = some (t, accepted) ∧
      payouts (.sample 3) accepted =
        [samplePaid (sampleKey 11), samplePaid (sampleKey (n + 6))] := by
  obtain ⟨⟨t, accepted⟩, hrun, hpayouts⟩ :=
    Option.map_eq_some_iff.mp (sampleTwoPayouts_facts n hn)
  exact ⟨t, accepted, hrun, hpayouts⟩

/-- The primitives of concrete runs are injective where these runs use them. -/
lemma injOn_sampleTwoPayouts {n : ℕ} (hn : n ∈ [5, 6]) (spendPublicKey : PublicKey) :
    Set.InjOn (fun used : KeyDerivation × ℕ =>
        Crypto.sample.derivePublicKey used.1 used.2 spendPublicKey)
      (derivedFor [samplePaid (sampleKey 11), samplePaid (sampleKey (n + 6))]
        spendPublicKey) := by
  have hused : ∀ used, used ∈ derivedFor [samplePaid (sampleKey 11),
      samplePaid (sampleKey (n + 6))] spendPublicKey →
      spendPublicKey = sampleKey 5 ∧
        (used = (sampleKey 11, 0) ∨ used = (sampleKey (n + 6), 0)) := by
    rintro used ⟨payout, hmem, rfl, output, houtput, rfl⟩
    obtain rfl | hmem := List.mem_cons.mp hmem
    · obtain rfl := List.mem_singleton.mp houtput
      exact ⟨rfl, Or.inl rfl⟩
    · obtain rfl := List.mem_singleton.mp hmem
      obtain rfl := List.mem_singleton.mp houtput
      exact ⟨rfl, Or.inr rfl⟩
  have hderive : Crypto.sample.derivePublicKey (sampleKey 11) 0 (sampleKey 5) =
      Crypto.sample.derivePublicKey (sampleKey (n + 6)) 0 (sampleKey 5) →
      sampleKey 11 = sampleKey (n + 6) := by
    have hall : ∀ n ∈ [5, 6], Crypto.sample.derivePublicKey (sampleKey 11) 0 (sampleKey 5) =
        Crypto.sample.derivePublicKey (sampleKey (n + 6)) 0 (sampleKey 5) →
        sampleKey 11 = sampleKey (n + 6) := by decide
    exact hall n hn
  intro left hleft right hright heq
  obtain ⟨rfl, rfl | rfl⟩ := hused left hleft <;> obtain ⟨-, rfl | rfl⟩ := hused right hright
  · rfl
  · exact Prod.ext (hderive heq) rfl
  · exact Prod.ext (hderive heq.symm).symm rfl
  · rfl

end ConsensusCoordinatorV2

end Qwertycoin
