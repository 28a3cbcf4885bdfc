import Qwertycoin.Payment

/-
# What the payee's wallet sees

The verifier counts an output of the Coinbase by its key alone.  A wallet looks at the view tag
first, and derives the key only for the outputs whose tag it expects.  The two agree on the outputs
whose tags are right, and the verifier does not look at tags.
-/

namespace Qwertycoin

/-! ## The scan -/

/-- `HF_VERSION_VIEW_TAGS` -/
def hfVersionViewTags : UInt8 := 15

def TxOutTarget.isToKey : TxOutTarget → Bool
  | .toKey _ => true
  | _ => false

def TxOutTarget.isToTaggedKey : TxOutTarget → Bool
  | .toTaggedKey _ _ => true
  | _ => false

/-- `check_output_types` -/
def checkOutputTypes (tx : Transaction) (hfVersion : UInt8) : Bool :=
  tx.vout.all fun out =>
    if hfVersion > hfVersionViewTags then
      out.target.isToTaggedKey
    else if hfVersion < hfVersionViewTags then
      out.target.isToKey
    else
      -- the grace period takes either type, but one type for the whole transaction
      (out.target.isToKey || out.target.isToTaggedKey) &&
        tx.vout.head?.any fun first => out.target.isToKey = first.target.isToKey

/-- `account_keys`, as far as a scan reads them. -/
structure AccountKeys where
  accountAddress : AccountPublicAddress
  viewSecretKey : SecretKey

section Scan

variable (cr : Crypto)

/-- `out_can_be_to_acc` -/
def outCanBeToAcc (viewTag : Option UInt8) (derivation : KeyDerivation) (outputIndex : ℕ) : Bool :=
  match viewTag with
  | none => true
  | some viewTag => viewTag = cr.deriveViewTag derivation outputIndex

/-- `is_out_to_acc` -/
def isOutToAcc (acc : AccountKeys) (outputPublicKey txPubKey : PublicKey)
    (additionalTxPubKeys : List PublicKey) (outputIndex : ℕ) (viewTag : Option UInt8) : Bool :=
  let derived (derivation : KeyDerivation) : Option PublicKey :=
    cr.derivePublicKey derivation outputIndex acc.accountAddress.spendPublicKey
  let additional : Bool :=
    match additionalTxPubKeys with
    | [] => false
    | _ =>
      match additionalTxPubKeys[outputIndex]? with
      | none => false
      | some key =>
        match cr.generateKeyDerivation key acc.viewSecretKey with
        | none => false
        | some derivation =>
          outCanBeToAcc cr viewTag derivation outputIndex &&
            derived derivation = some outputPublicKey
  match cr.generateKeyDerivation txPubKey acc.viewSecretKey with
  | none => false
  | some derivation =>
    if outCanBeToAcc cr viewTag derivation outputIndex then
      match derived derivation with
      | none => false
      | some key => if key = outputPublicKey then true else additional
    else
      additional

/-- `is_out_to_acc_precomp`, with the spend keys of the wallet and their subaddresses. -/
def isOutToAccPrecomp (subaddresses : PublicKey → Option (UInt32 × UInt32)) (outKey : PublicKey)
    (derivation : KeyDerivation) (additionalDerivations : List KeyDerivation) (outputIndex : ℕ)
    (viewTag : Option UInt8) : Option ((UInt32 × UInt32) × KeyDerivation) :=
  let found (derivation : KeyDerivation) (spendKey : PublicKey) :
      Option ((UInt32 × UInt32) × KeyDerivation) :=
    (subaddresses spendKey).map fun index => (index, derivation)
  let additional : Option ((UInt32 × UInt32) × KeyDerivation) :=
    match additionalDerivations with
    | [] => none
    | _ =>
      match additionalDerivations[outputIndex]? with
      | none => none
      | some derivation =>
        if outCanBeToAcc cr viewTag derivation outputIndex then
          (cr.deriveSubaddressPublicKey outKey derivation outputIndex).bind (found derivation)
        else
          none
  if outCanBeToAcc cr viewTag derivation outputIndex then
    match cr.deriveSubaddressPublicKey outKey derivation outputIndex with
    | none => none
    | some spendKey => (found derivation spendKey).or additional
  else
    additional

/-- One step of the loop of `lookup_acc_outs`. -/
def lookupAccOut (acc : AccountKeys) (txPubKey : PublicKey) (additionalTxPubKeys : List PublicKey)
    (found : List ℕ × UInt64) (out : TxOut × ℕ) : Option (List ℕ × UInt64) := do
  let key ← getOutputPublicKey out.1
  if isOutToAcc cr acc key txPubKey additionalTxPubKeys out.2 (getOutputViewTag out.1) then
    return (found.1 ++ [out.2], found.2 + out.1.amount)
  return found

/-- `lookup_acc_outs`: the indices of the outputs that are recognised, and what they amount to. -/
def lookupAccOuts (acc : AccountKeys) (tx : Transaction) (txPubKey : PublicKey)
    (additionalTxPubKeys : List PublicKey) : Option (List ℕ × UInt64) :=
  if additionalTxPubKeys = [] ∨ additionalTxPubKeys.length = tx.vout.length then
    tx.vout.zipIdx.foldlM (lookupAccOut cr acc txPubKey additionalTxPubKeys) ([], 0)
  else
    none

end Scan

/-! ## The scan of the payee -/

/-- A wallet that holds the keys of a payee, and computes the derivation that was proved. -/
structure PayeeWallet (cr : Crypto) (context : ServicePaymentContextV2)
    (derivation : KeyDerivation) (acc : AccountKeys)
    (subaddresses : PublicKey → Option (UInt32 × UInt32)) : Prop where
  address : acc.accountAddress = context.rewardAddress
  computes : cr.generateKeyDerivation context.transactionPublicKey acc.viewSecretKey =
    some derivation
  /-- `derive_subaddress_public_key` undoes `derive_public_key`. -/
  inverse : ∀ index < 2 ^ 32, ∀ key,
    cr.derivePublicKey derivation index acc.accountAddress.spendPublicKey = some key →
    cr.deriveSubaddressPublicKey key derivation index = some acc.accountAddress.spendPublicKey
  registered : (subaddresses acc.accountAddress.spendPublicKey).isSome

section Payee

variable {cr : Crypto} {acc : AccountKeys} {txPubKey : PublicKey} {derivation : KeyDerivation}
  {context : ServicePaymentContextV2} {subaddresses : PublicKey → Option (UInt32 × UInt32)}

/-- Without additional keys, an output is recognised by its view tag and its key. -/
lemma isOutToAcc_nil (hderivation : cr.generateKeyDerivation txPubKey acc.viewSecretKey =
      some derivation) (key : PublicKey) (index : ℕ) (viewTag : Option UInt8) :
    isOutToAcc cr acc key txPubKey [] index viewTag =
      (outCanBeToAcc cr viewTag derivation index &&
        decide (cr.derivePublicKey derivation index acc.accountAddress.spendPublicKey =
          some key)) := by
  unfold isOutToAcc
  simp only [hderivation]
  cases outCanBeToAcc cr viewTag derivation index with
  | false => rfl
  | true =>
    cases cr.derivePublicKey derivation index acc.accountAddress.spendPublicKey with
    | none => simp
    | some derived => simp

/-- A subaddress scan recognises the keys that are derived for a registered address. -/
lemma isOutToAccPrecomp_nil (hwallet : PayeeWallet cr context derivation acc subaddresses)
    {key : PublicKey} {index : ℕ} (hindex : index < 2 ^ 32) (viewTag : Option UInt8)
    (hkey : cr.derivePublicKey derivation index acc.accountAddress.spendPublicKey = some key) :
    (isOutToAccPrecomp cr subaddresses key derivation [] index viewTag).isSome =
      outCanBeToAcc cr viewTag derivation index := by
  unfold isOutToAccPrecomp
  simp only [hwallet.inverse index hindex key hkey]
  cases outCanBeToAcc cr viewTag derivation index with
  | false => rfl
  | true => simpa using hwallet.registered

/-- Without additional keys, a scan recognises the derived outputs whose view tag is right. -/
lemma any_isOutToAcc (hderivation : cr.generateKeyDerivation txPubKey acc.viewSecretKey =
      some derivation) (out : TxOut × ℕ) :
    ((getOutputPublicKey out.1).any fun key =>
      isOutToAcc cr acc key txPubKey [] out.2 (getOutputViewTag out.1)) =
      (outCanBeToAcc cr (getOutputViewTag out.1) derivation out.2 &&
        derivedAt cr derivation acc.accountAddress.spendPublicKey out) := by
  unfold derivedAt
  cases getOutputPublicKey out.1 with
  | none => simp
  | some key => simp [isOutToAcc_nil hderivation]

lemma foldlM_lookupAccOut {additional : List PublicKey} {outs : List (TxOut × ℕ)}
    (hkeys : ∀ out ∈ outs, (getOutputPublicKey out.1).isSome) (found : List ℕ × UInt64) :
    ∃ indices, outs.foldlM (lookupAccOut cr acc txPubKey additional) found =
      some (indices, found.2 + UInt64.ofNat (((outs.filter fun out =>
        (getOutputPublicKey out.1).any fun key => isOutToAcc cr acc key txPubKey additional out.2
          (getOutputViewTag out.1)).map (·.1.amount.toNat)).sum)) := by
  induction outs generalizing found with
  | nil => exact ⟨found.1, by simp⟩
  | cons out outs ih =>
    obtain ⟨key, hkey⟩ := Option.isSome_iff_exists.mp (hkeys out List.mem_cons_self)
    have ih := ih fun out hmem => hkeys out (List.mem_cons_of_mem _ hmem)
    rw [List.foldlM_cons, lookupAccOut, hkey]
    by_cases hto : isOutToAcc cr acc key txPubKey additional out.2 (getOutputViewTag out.1) = true
    · obtain ⟨indices, hfold⟩ := ih (found.1 ++ [out.2], found.2 + out.1.amount)
      refine ⟨indices, ?_⟩
      simp [hkey, hto, hfold, UInt64.ofNat_add, UInt64.add_assoc]
    · obtain ⟨indices, hfold⟩ := ih found
      refine ⟨indices, ?_⟩
      simp [hkey, hto, hfold]

/-- What a scan of a transaction finds when the view tags of the derived outputs are right. -/
lemma exists_lookupAccOuts {tx : Transaction} (hkeys : tx.PaysToKeys)
    (hderivation : cr.generateKeyDerivation txPubKey acc.viewSecretKey = some derivation)
    (htags : ∀ out ∈ derivedOutputs cr derivation acc.accountAddress.spendPublicKey tx.vout,
      getOutputViewTag out.1 = some (cr.deriveViewTag derivation out.2)) :
    ∃ indices, lookupAccOuts cr acc tx txPubKey [] = some (indices, UInt64.ofNat
      ((derivedOutputs cr derivation acc.accountAddress.spendPublicKey tx.vout).map
        (·.1.amount.toNat)).sum) := by
  have hkeys : ∀ out ∈ tx.vout.zipIdx, (getOutputPublicKey out.1).isSome :=
    fun out hout => hkeys.2 out.1 (List.fst_mem_of_mem_zipIdx hout)
  obtain ⟨indices, hfold⟩ : ∃ indices,
      tx.vout.zipIdx.foldlM (lookupAccOut cr acc txPubKey []) ([], 0) = some (indices, _) :=
    foldlM_lookupAccOut hkeys ([], 0)
  have hscan : (tx.vout.zipIdx.filter fun out => (getOutputPublicKey out.1).any fun key =>
      isOutToAcc cr acc key txPubKey [] out.2 (getOutputViewTag out.1)) =
      derivedOutputs cr derivation acc.accountAddress.spendPublicKey tx.vout := by
    refine List.filter_congr fun out hout => ?_
    rw [any_isOutToAcc hderivation]
    cases hderived : derivedAt cr derivation acc.accountAddress.spendPublicKey out with
    | false => simp
    | true =>
      rw [htags out (List.mem_filter.mpr ⟨hout, hderived⟩)]
      simp [outCanBeToAcc]
  rw [hscan, UInt64.zero_add] at hfold
  exact ⟨indices, by rw [lookupAccOuts, if_pos (Or.inl rfl), hfold]⟩

lemma exists_key_of_derivedAt {spendPublicKey : PublicKey} {out : TxOut × ℕ}
    (h : derivedAt cr derivation spendPublicKey out = true) :
    ∃ key, getOutputPublicKey out.1 = some key ∧
      cr.derivePublicKey derivation out.2 spendPublicKey = some key := by
  unfold derivedAt at h
  cases hkey : getOutputPublicKey out.1 with
  | none => simp [hkey] at h
  | some key => exact ⟨key, rfl, by simpa [hkey] using h⟩

/-- An output that the verifier counts is recognised exactly when its view tag is right. -/
lemma recognised_iff (hwallet : PayeeWallet cr context derivation acc subaddresses)
    {out : TxOut × ℕ} (hindex : out.2 < 2 ^ 32) {viewTag : UInt8}
    (htag : getOutputViewTag out.1 = some viewTag)
    (hderived : derivedAt cr derivation acc.accountAddress.spendPublicKey out = true) :
    (∃ key, getOutputPublicKey out.1 = some key ∧
      isOutToAcc cr acc key context.transactionPublicKey [] out.2 (getOutputViewTag out.1) = true ∧
      (isOutToAccPrecomp cr subaddresses key derivation [] out.2
        (getOutputViewTag out.1)).isSome = true) ↔
    viewTag = cr.deriveViewTag derivation out.2 := by
  obtain ⟨key, hkey, hderived⟩ := exists_key_of_derivedAt hderived
  have hcan : outCanBeToAcc cr (some viewTag) derivation out.2 = true ↔
      viewTag = cr.deriveViewTag derivation out.2 := decide_eq_true_iff
  simp [hkey, htag, isOutToAcc_nil hwallet.computes, isOutToAccPrecomp_nil hwallet hindex _ hderived,
    hderived, hcan]

end Payee

/-- After the grace period every output of a transaction of the right types has a view tag. -/
lemma exists_viewTag_of_checkOutputTypes {tx : Transaction}
    (h : checkOutputTypes tx hfVersionQwcEpose = true) {out : TxOut} (hmem : out ∈ tx.vout) :
    ∃ viewTag, getOutputViewTag out = some viewTag := by
  have htagged : out.target.isToTaggedKey = true := List.all_eq_true.mp h out hmem
  unfold getOutputViewTag
  cases hkind : out.target with
  | toTaggedKey key viewTag => exact ⟨viewTag, rfl⟩
  | toKey key => simp [hkind, TxOutTarget.isToTaggedKey] at htagged
  | script data => simp [hkind, TxOutTarget.isToTaggedKey] at htagged

namespace ConsensusCoordinatorV2

/-- **A service reward is visible exactly when its view tags are right.**  For an accepted block
that pays a payee with outputs of the types its version asks for, the wallet of the payee
recognises every output that the verifier counted, and finds exactly the service reward, if and
only if each of these outputs has the view tag that the proved derivation gives at its index. -/
theorem reward_visible_iff {cr : Crypto} {p : ConsensusParametersV2}
    {contexts : CanonicalContextSourceV2} {t : BlockTransitionV2} {block : CoordinatorBlockV2}
    {result : CoordinatorResultV2} {coinbase : Transaction} {context : ServicePaymentContextV2}
    {records : List EnvelopeRecordV2} {budget : EnvelopeBudgetV2} {record : EnvelopeRecordV2}
    {proof : ScopedPaymentProofV2} {acc : AccountKeys}
    {subaddresses : PublicKey → Option (UInt32 × UInt32)}
    (h : (connectBlock cr p contexts t block).2 = .ok result)
    (hcoinbase : block.coinbase = some coinbase) (hpayment : result.payment = some context)
    (htypes : checkOutputTypes coinbase hfVersionQwcEpose = true)
    (hparse : (p.extraLimits block.majorVersion).parse coinbase.extra = .ok (records, budget))
    (hmem : record ∈ records) (htype : record.type = RecordTypeV2.servicePaymentProof.code)
    (hdecode : decodePaymentProofRecordStructureV2 record = .ok proof)
    (hwallet : PayeeWallet cr context proof.derivation acc subaddresses) :
    let counted := derivedOutputs cr proof.derivation context.rewardAddress.spendPublicKey
      coinbase.vout
    context.outputs = counted.map paymentOutput ∧
    (((∀ out ∈ counted, ∃ key, getOutputPublicKey out.1 = some key ∧
        isOutToAcc cr acc key context.transactionPublicKey [] out.2
          (getOutputViewTag out.1) = true ∧
        (isOutToAccPrecomp cr subaddresses key proof.derivation [] out.2
          (getOutputViewTag out.1)).isSome = true) ∧
      ∃ indices, lookupAccOuts cr acc coinbase context.transactionPublicKey [] =
        some (indices, context.serviceReward)) ↔
    ∀ out ∈ counted, getOutputViewTag out.1 =
      some (cr.deriveViewTag proof.derivation out.2)) := by
  intro counted
  obtain ⟨expected, -, hpays⟩ :=
    connectBlock_paysService h hcoinbase hpayment hparse hmem htype hdecode
  have hexpected := hpays.expectation_eq
  have haddress : context.rewardAddress = expected.rewardAddress :=
    congrArg ServicePaymentExpectationV2.rewardAddress hexpected
  have hreward : context.serviceReward = expected.serviceReward :=
    congrArg ServicePaymentExpectationV2.serviceReward hexpected
  have houtputs : context.outputs = counted.map paymentOutput := by
    rw [hpays.outputs_eq, ← haddress]
  have hcounted : ∀ out, out ∈ counted ↔ out ∈ coinbase.vout.zipIdx ∧
      derivedAt cr proof.derivation acc.accountAddress.spendPublicKey out = true := by
    intro out
    rw [hwallet.address]
    exact List.mem_filter
  -- each counted output has a tag, and is recognised by it
  have hrecognised : ∀ out ∈ counted, ((∃ key, getOutputPublicKey out.1 = some key ∧
      isOutToAcc cr acc key context.transactionPublicKey [] out.2 (getOutputViewTag out.1) = true ∧
      (isOutToAccPrecomp cr subaddresses key proof.derivation [] out.2
        (getOutputViewTag out.1)).isSome = true) ↔
      getOutputViewTag out.1 = some (cr.deriveViewTag proof.derivation out.2)) := by
    intro out hout
    obtain ⟨hvout, hderived⟩ := (hcounted out).mp hout
    obtain ⟨viewTag, htag⟩ :=
      exists_viewTag_of_checkOutputTypes htypes (List.fst_mem_of_mem_zipIdx hvout)
    have hindex : out.2 < coinbase.vout.length := by
      simpa using List.snd_lt_of_mem_zipIdx hvout
    rw [recognised_iff hwallet (hindex.trans_le hpays.paysToKeys.1) htag hderived, htag,
      Option.some_inj]
  refine ⟨houtputs, fun hvisible out hout => (hrecognised out hout).mp (hvisible.1 out hout),
    fun htags => ⟨fun out hout => (hrecognised out hout).mpr (htags out hout), ?_⟩⟩
  -- with the right tags the scan finds the counted outputs, which sum to the reward
  have hspend : derivedOutputs cr proof.derivation acc.accountAddress.spendPublicKey
      coinbase.vout = counted := by rw [hwallet.address]
  obtain ⟨indices, hlookup⟩ := exists_lookupAccOuts hpays.paysToKeys hwallet.computes
    (hspend ▸ htags)
  have hsum : (counted.map (·.1.amount.toNat)).sum = context.serviceReward.toNat := by
    rw [hreward, ← hpays.outputs_sum.1, houtputs, List.map_map]
    rfl
  rw [hspend, hsum, UInt64.ofNat_toNat] at hlookup
  exact ⟨indices, hlookup⟩

/-! ### A concrete wallet -/

/-- The first payout, with outputs that have some view tag. -/
def sampleTaggedPayout (viewTag : UInt8) : CoordinatorBlockV2 :=
  samplePayout sampleDue.state 6 (payingCoinbase (sampleKey 5) 2 0 (.toTaggedKey · viewTag))

/-- The keys of the payee. -/
def sampleAccount : AccountKeys := ⟨⟨sampleKey 5, sampleKey 6⟩, sampleKey 6⟩

def sampleSubaddresses (key : PublicKey) : Option (UInt32 × UInt32) :=
  if key = sampleKey 5 then some (0, 0) else none

lemma sample_payeeWallet {context : ServicePaymentContextV2}
    (haddress : context.rewardAddress = ⟨sampleKey 5, sampleKey 6⟩)
    (hkey : context.transactionPublicKey = sampleKey 5) :
    PayeeWallet .sample context (sampleKey 11) sampleAccount sampleSubaddresses where
  address := haddress.symm
  computes := by
    rw [hkey]
    decide
  inverse := by
    rintro index hindex key hkey
    obtain rfl := Option.some.inj hkey
    have hvalue : ∀ n < 256, Bytes.leValue (sampleKey n).data = 256 * n := by
      intro n hn
      exact Bytes.leValue_leBytes (by norm_num; omega)
    simp only [Crypto.sample, sampleAccount, hvalue 11 (by omega), hvalue 5 (by omega)]
    rw [show Bytes.leValue (Bytes.Block.ofNat 32 _).data = _ from
      Bytes.leValue_leBytes (by norm_num; omega), Nat.add_sub_cancel_left]
    rfl
  registered := by decide

lemma exists_of_sampleTaggedPayout {viewTag : UInt8}
    (h : (samplePayment (sampleTaggedPayout viewTag)).map (fun context =>
        (context.rewardAddress, context.transactionPublicKey)) =
        some (⟨sampleKey 5, sampleKey 6⟩, sampleKey 5) ∧
      (sampleTaggedPayout viewTag).coinbase.map (fun coinbase =>
        (checkOutputTypes coinbase hfVersionQwcEpose, statedDerivations coinbase)) =
        some (true, some [some (sampleKey 11)]) ∧
      (sampleTaggedPayout viewTag).coinbase.map (fun coinbase =>
        (derivedOutputs .sample (sampleKey 11) (sampleKey 5) coinbase.vout).map fun out =>
          (out.1.amount, getOutputViewTag out.1, out.2)) = some [(100, some viewTag, 0)]) :
    ∃ result coinbase context records budget record, ∃ proof : ScopedPaymentProofV2, ∃ out,
      (connectBlock .sample (.sample 3) .sample sampleDue (sampleTaggedPayout viewTag)).2 =
        .ok result ∧
      (sampleTaggedPayout viewTag).coinbase = some coinbase ∧ result.payment = some context ∧
      checkOutputTypes coinbase hfVersionQwcEpose = true ∧
      sampleLimits.parse coinbase.extra = .ok (records, budget) ∧ record ∈ records ∧
      record.type = RecordTypeV2.servicePaymentProof.code ∧
      decodePaymentProofRecordStructureV2 record = .ok proof ∧
      proof.derivation = sampleKey 11 ∧ context.rewardAddress = ⟨sampleKey 5, sampleKey 6⟩ ∧
      context.transactionPublicKey = sampleKey 5 ∧
      derivedOutputs .sample (sampleKey 11) (sampleKey 5) coinbase.vout = [out] ∧
      out.1.amount = 100 ∧ getOutputViewTag out.1 = some viewTag ∧ out.2 = 0 := by
  obtain ⟨hreported, hshape, houts⟩ := h
  obtain ⟨context, hcontext, hreported⟩ := Option.map_eq_some_iff.mp hreported
  obtain ⟨haddress, hkey⟩ := Prod.mk.inj hreported
  obtain ⟨result, hresult, hpayment⟩ := exists_of_samplePayment hcontext
  have hmajor : (sampleTaggedPayout viewTag).majorVersion = hfVersionQwcEpose :=
    samplePayout_majorVersion
  obtain ⟨coinbase, records, budget, record, proof, -, hcoinbase, hparse, hmem, htype, hdecode, -,
    hstated⟩ := exists_proof_of_samplePayment hmajor hcontext
  rw [hcoinbase] at hshape houts
  obtain ⟨htypes, hstated'⟩ := Prod.mk.inj (Option.some.inj hshape)
  obtain ⟨out, hsingle, hout⟩ := List.map_eq_singleton_iff.mp (Option.some.inj houts)
  obtain ⟨hamount, hout⟩ := Prod.mk.inj hout
  obtain ⟨htag, hindex⟩ := Prod.mk.inj hout
  have hderivation : proof.derivation = sampleKey 11 := by
    simpa using hstated.symm.trans hstated'
  exact ⟨result, coinbase, context, records, budget, record, proof, out, hresult, hcoinbase,
    hpayment, htypes, hparse, hmem, htype, hdecode, hderivation, haddress, hkey, hsingle, hamount,
    htag, hindex⟩

set_option synthInstance.maxSize 512 in
lemma sampleTaggedPayout_facts :
    (∀ viewTag ∈ ([0, 11] : List UInt8),
      (samplePayment (sampleTaggedPayout viewTag)).map (fun context =>
        (context.rewardAddress, context.transactionPublicKey)) =
        some (⟨sampleKey 5, sampleKey 6⟩, sampleKey 5) ∧
      (sampleTaggedPayout viewTag).coinbase.map (fun coinbase =>
        (checkOutputTypes coinbase hfVersionQwcEpose, statedDerivations coinbase)) =
        some (true, some [some (sampleKey 11)]) ∧
      (sampleTaggedPayout viewTag).coinbase.map (fun coinbase =>
        (derivedOutputs .sample (sampleKey 11) (sampleKey 5) coinbase.vout).map fun out =>
          (out.1.amount, getOutputViewTag out.1, out.2)) = some [(100, some viewTag, 0)]) ∧
    (sampleTaggedPayout 0).coinbase.bind (fun coinbase =>
      lookupAccOuts .sample sampleAccount coinbase (sampleKey 5) []) = some ([], 0) := by
  decide +kernel

/-- With a wrong view tag, a reward that is accepted for a reachable state is not seen by the
wallet of the payee: the output that was counted is skipped by both scans, and nothing is found. -/
theorem reward_with_wrong_view_tag_is_not_seen :
    ∃ chain t result coinbase context records budget record proof out key,
      Runs .sample (.sample 3) chain t ∧
      (connectBlock .sample (.sample 3) .sample t (sampleTaggedPayout 0)).2 = .ok result ∧
      (sampleTaggedPayout 0).coinbase = some coinbase ∧ result.payment = some context ∧
      checkOutputTypes coinbase hfVersionQwcEpose = true ∧
      sampleLimits.parse coinbase.extra = .ok (records, budget) ∧ record ∈ records ∧
      record.type = RecordTypeV2.servicePaymentProof.code ∧
      decodePaymentProofRecordStructureV2 record = .ok proof ∧
      PayeeWallet .sample context proof.derivation sampleAccount sampleSubaddresses ∧
      out ∈ derivedOutputs .sample proof.derivation context.rewardAddress.spendPublicKey
        coinbase.vout ∧
      getOutputPublicKey out.1 = some key ∧ out.1.amount = 100 ∧
      isOutToAcc .sample sampleAccount key context.transactionPublicKey [] out.2
        (getOutputViewTag out.1) = false ∧
      isOutToAccPrecomp .sample sampleSubaddresses key proof.derivation [] out.2
        (getOutputViewTag out.1) = none ∧
      lookupAccOuts .sample sampleAccount coinbase context.transactionPublicKey [] =
        some ([], 0) := by
  obtain ⟨hpayout, hlookup⟩ := sampleTaggedPayout_facts
  obtain ⟨result, coinbase, context, records, budget, record, proof, out, hresult, hcoinbase,
    hpayment, htypes, hparse, hmem, htype, hdecode, hderivation, haddress, hkey, hsingle, hamount,
    htag, hindex⟩ := exists_of_sampleTaggedPayout (hpayout 0 (by decide))
  obtain ⟨chain, t, hrun, hcore, -⟩ := exists_shortRun
  obtain ⟨result', hresult', hpayment', -⟩ :=
    connectBlock_of_core hresult (hcore.trans sampleDue_core.symm)
  have hwallet := hderivation ▸ sample_payeeWallet haddress hkey
  rw [hcoinbase] at hlookup
  have hout : out ∈ derivedOutputs .sample proof.derivation context.rewardAddress.spendPublicKey
      coinbase.vout := by
    rw [hderivation, haddress, hsingle]
    exact List.mem_singleton_self out
  have hderived : derivedAt .sample (sampleKey 11) (sampleKey 5) out = true := by
    have hout : out ∈ derivedOutputs .sample (sampleKey 11) (sampleKey 5) coinbase.vout := by
      rw [hsingle]
      exact List.mem_singleton_self out
    exact (List.mem_filter.mp hout).2
  obtain ⟨key, hpublic, hderive⟩ := exists_key_of_derivedAt hderived
  have hcannot : outCanBeToAcc .sample (some 0) (sampleKey 11) 0 = false := by decide
  refine ⟨chain, t, result', coinbase, context, records, budget, record, proof, out, key, hrun,
    hresult', hcoinbase, hpayment'.trans hpayment, htypes, hparse, hmem, htype, hdecode, hwallet,
    hout, hpublic, hamount, ?_, ?_, ?_⟩
  · rw [isOutToAcc_nil hwallet.computes, htag, hindex, hderivation, hcannot, Bool.false_and]
  · rw [hderivation, htag, hindex]
    rw [hindex] at hderive
    have hprecomp := isOutToAccPrecomp_nil (sample_payeeWallet haddress hkey) (by decide) (some 0)
      hderive
    rw [hcannot] at hprecomp
    simpa using hprecomp
  · rw [hkey]
    exact hlookup

/-- With the right view tag the payee sees the reward. -/
theorem reward_visible_iff_sample :
    ∃ result coinbase context,
      (connectBlock .sample (.sample 3) .sample sampleDue (sampleTaggedPayout 11)).2 =
        .ok result ∧
      (sampleTaggedPayout 11).coinbase = some coinbase ∧ result.payment = some context ∧
      ∃ indices, lookupAccOuts .sample sampleAccount coinbase context.transactionPublicKey [] =
        some (indices, context.serviceReward) := by
  obtain ⟨result, coinbase, context, records, budget, record, proof, out, hresult, hcoinbase,
    hpayment, htypes, hparse, hmem, htype, hdecode, hderivation, haddress, hkey, hsingle, -, htag,
    hindex⟩ := exists_of_sampleTaggedPayout (sampleTaggedPayout_facts.1 11 (by decide))
  have hwallet := hderivation ▸ sample_payeeWallet haddress hkey
  have hmajor : (sampleTaggedPayout 11).majorVersion = hfVersionQwcEpose :=
    samplePayout_majorVersion
  obtain ⟨-, hiff⟩ := reward_visible_iff hresult hcoinbase hpayment htypes
    (by rw [hmajor]; exact hparse) hmem htype hdecode hwallet
  refine ⟨result, coinbase, context, hresult, hcoinbase, hpayment, (hiff.mpr ?_).2⟩
  rw [hderivation, haddress, hsingle]
  intro out' hout'
  obtain rfl := List.mem_singleton.mp hout'
  rw [htag, hindex]
  decide

end ConsensusCoordinatorV2

end Qwertycoin
