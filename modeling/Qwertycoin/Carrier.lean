import Qwertycoin.Lib.Encoding
import Qwertycoin.EnvelopeCodec
import Qwertycoin.ExtraCodec
import Qwertycoin.Reward

/-
# Envelopes in the extra field

An extra field is accepted when it is canonical and its envelopes can be opened.  In these terms an
envelope is appended by adding a field at the end, which is where padding stands as well, and the
records of a type are stripped by a filter on every envelope.
-/

namespace Qwertycoin

open Bytes

/-! ## Opening envelopes -/

/-- The sum of two budgets. -/
def EnvelopeBudgetV2.add (left right : EnvelopeBudgetV2) : EnvelopeBudgetV2 where
  bytes := left.bytes + right.bytes
  records := left.records + right.records
  signatureVerifications := left.signatureVerifications + right.signatureVerifications
  admissionVerifications := left.admissionVerifications + right.admissionVerifications

/-- A budget that `size_t` can hold. -/
structure EnvelopeBudgetV2.Fits (budget : EnvelopeBudgetV2) : Prop where
  bytes : budget.bytes ≤ sizeMax
  records : budget.records ≤ sizeMax
  signatures : budget.signatureVerifications ≤ sizeMax
  admissions : budget.admissionVerifications ≤ sizeMax

@[simp] lemma EnvelopeBudgetV2.zero_add (budget : EnvelopeBudgetV2) :
    EnvelopeBudgetV2.add {} budget = budget := by
  simp [EnvelopeBudgetV2.add]

@[simp] lemma EnvelopeBudgetV2.add_zero (budget : EnvelopeBudgetV2) :
    budget.add {} = budget := by
  simp [EnvelopeBudgetV2.add]

lemma EnvelopeBudgetV2.add_assoc (a b c : EnvelopeBudgetV2) :
    (a.add b).add c = a.add (b.add c) := by
  simp [EnvelopeBudgetV2.add, Nat.add_assoc]

lemma EnvelopeBudgetV2.fits_zero : EnvelopeBudgetV2.Fits {} :=
  ⟨Nat.zero_le _, Nat.zero_le _, Nat.zero_le _, Nat.zero_le _⟩

lemma EnvelopeBudgetV2.Fits.of_add {left right : EnvelopeBudgetV2} (h : (left.add right).Fits) :
    left.Fits ∧ right.Fits := by
  obtain ⟨hbytes, hrecords, hsignatures, hadmissions⟩ := h
  simp only [EnvelopeBudgetV2.add] at hbytes hrecords hsignatures hadmissions
  exact ⟨⟨by omega, by omega, by omega, by omega⟩, ⟨by omega, by omega, by omega, by omega⟩⟩

lemma addBudget_eq_ok_iff {total next sum : EnvelopeBudgetV2} :
    addBudget total next = .ok sum ↔ sum = total.add next ∧ sum.Fits := by
  have helim : ∀ {left right sum : ℕ} {status : EnvelopeStatusV2},
      (addSize left right).elim (Except.error status) Except.ok = Except.ok sum ↔
        sum = left + right ∧ sum ≤ sizeMax := by
    intro left right sum status
    rw [← addSize_eq_some_iff]
    cases addSize left right <;> simp
  simp only [addBudget, except_bind_eq_ok_iff, helim]
  constructor
  · rintro ⟨bytes, ⟨rfl, hbytes⟩, records, ⟨rfl, hrecords⟩, signatures, ⟨rfl, hsignatures⟩,
      admissions, ⟨rfl, hadmissions⟩, h⟩
    obtain rfl := Except.ok.inj h
    exact ⟨rfl, hbytes, hrecords, hsignatures, hadmissions⟩
  · rintro ⟨rfl, hbytes, hrecords, hsignatures, hadmissions⟩
    exact ⟨_, ⟨rfl, hbytes⟩, _, ⟨rfl, hrecords⟩, _, ⟨rfl, hsignatures⟩, _, ⟨rfl, hadmissions⟩, rfl⟩

/-- The budget of an envelope behind its tag and its size. -/
def framedBudget (payload : List UInt8) (charge : EnvelopeBudgetV2) : EnvelopeBudgetV2 :=
  { charge with bytes := (framedEnvelope payload).length }

/-- The records of a sequence of envelopes, and what they cost together. -/
inductive Opened (limits : EnvelopeLimitsV2) :
    List (List UInt8) → List EnvelopeRecordV2 → EnvelopeBudgetV2 → Prop
  | nil : Opened limits [] [] {}
  | cons {payload : List UInt8} {payloads : List (List UInt8)}
      {records rest : List EnvelopeRecordV2} {charge total : EnvelopeBudgetV2} :
      EnvelopeOf limits records payload charge → Opened limits payloads rest total →
      Opened limits (payload :: payloads) (records ++ rest)
        ((framedBudget payload charge).add total)

variable {limits : EnvelopeLimitsV2} {records : List EnvelopeRecordV2}
  {budget : EnvelopeBudgetV2} {majorVersion : UInt8} {max : ℕ} {extra : List UInt8}

lemma framedEnvelope_eq (data : List UInt8) : framedEnvelope data = 0x05 :: writeString data := by
  have htag : varint eposeTxExtraTagV2 = [0x05] := by decide
  rw [framedEnvelope, htag, writeString, List.append_assoc, List.singleton_append]

lemma writeField_eposeV2 (data : List UInt8) :
    writeField (.eposeV2 data) = some (framedEnvelope data) := by
  rw [framedEnvelope_eq]
  rfl

lemma EnvelopeOf.length_lt {encoded : List UInt8} (h : EnvelopeOf limits records encoded budget) :
    encoded.length < 2 ^ 33 := by
  have hsize := h.size_fits
  have hlength := h.length_eq
  simp only [envelopeHeaderSize] at hlength
  omega

lemma EnvelopeOf.eq_of_framed {encoded payload : List UInt8}
    (h : EnvelopeOf limits records encoded budget)
    (heq : framedEnvelope payload = framedEnvelope encoded) : payload = encoded := by
  rw [framedEnvelope_eq, framedEnvelope_eq] at heq
  have heq : varint payload.length ++ payload = varint encoded.length ++ encoded :=
    (List.cons.inj heq).2
  have hlength := congrArg List.length heq
  rw [List.length_append, List.length_append] at hlength
  have hencoded := h.length_lt
  have hvarint := length_varint_le encoded.length
  exact (readable_varint (by omega) (by omega) heq).2

lemma parseEnvelopeFields_eq_ok_iff {payloads : List (List UInt8)}
    {before : List EnvelopeRecordV2} {start : EnvelopeBudgetV2} (hstart : start.Fits) :
    parseEnvelopeFields limits (payloads.map framedEnvelope) before start = .ok (records, budget) ↔
      ∃ rest total, Opened limits payloads rest total ∧ records = before ++ rest ∧
        budget = start.add total ∧ budget.Fits := by
  induction payloads generalizing before start with
  | nil =>
    simp only [List.map_nil, parseEnvelopeFields, Except.ok.injEq, Prod.mk.injEq]
    constructor
    · rintro ⟨rfl, rfl⟩
      exact ⟨[], {}, .nil, (List.append_nil _).symm, start.add_zero.symm, hstart⟩
    · rintro ⟨rest, total, hopened, rfl, rfl, -⟩
      cases hopened
      exact ⟨(List.append_nil _).symm, start.add_zero.symm⟩
  | cons payload payloads ih =>
    simp only [List.map_cons, parseEnvelopeFields, except_bind_eq_ok_iff, Prod.exists,
      parseTxExtraEnvelopeFieldV2_eq_ok_iff, addBudget_eq_ok_iff]
    constructor
    · rintro ⟨parsed, _, ⟨envelope, charge, henvelope, hframed, rfl⟩, next, ⟨rfl, hfits⟩, h⟩
      obtain rfl := henvelope.eq_of_framed hframed
      obtain ⟨rest, total, hopened, rfl, rfl, hfits'⟩ := (ih hfits).mp h
      exact ⟨parsed ++ rest, _, .cons henvelope hopened, List.append_assoc .., start.add_assoc ..,
        hfits'⟩
    · rintro ⟨_, _, hopened, rfl, rfl, hfits⟩
      obtain _ | ⟨henvelope, hopened⟩ := hopened
      rename_i parsed rest charge total
      have hnext : (start.add (framedBudget payload charge)).Fits := by
        rw [← start.add_assoc] at hfits
        exact hfits.of_add.1
      refine ⟨parsed, _, ⟨payload, charge, henvelope, rfl, rfl⟩, _, ⟨rfl, hnext⟩, ?_⟩
      exact (ih hnext).mpr ⟨rest, total, hopened, (List.append_assoc ..).symm,
        (start.add_assoc ..).symm, hfits⟩

/-- Version and limits under which envelopes are looked at. -/
structure Active (limits : EnvelopeLimitsV2) (majorVersion : UInt8) (max : ℕ) : Prop where
  version : isQwcEposeV2Hardfork majorVersion = true
  limits : limits.valid = true
  envelopes : max ≠ 0

/-- An extra field is accepted when it is canonical and its envelopes can be opened. -/
lemma parseTransactionExtraV2_eq_ok_iff :
    parseTransactionExtraV2 extra majorVersion max limits = .ok (records, budget) ↔
      Active limits majorVersion max ∧ ∃ fields, Canonical fields extra ∧
        (eposePayloads fields).length ≤ max ∧
        Opened limits (eposePayloads fields) records budget ∧ budget.Fits := by
  constructor
  · intro h
    unfold parseTransactionExtraV2 at h
    split_ifs at h with hversion hlimits
    rw [Bool.or_eq_true, not_or] at hlimits
    have hactive : Active limits majorVersion max :=
      ⟨by simpa using hversion, by simpa using hlimits.1, by simpa using hlimits.2⟩
    split at h
    · cases h
    rename_i fields hparse
    split_ifs at h with hserialized
    dsimp only at h
    split_ifs at h with hcount hnil
    · obtain ⟨rfl, rfl⟩ := Prod.mk.inj (Except.ok.inj h)
      rw [List.map_eq_nil_iff] at hnil
      refine ⟨hactive, fields, parseTxExtraStrict_eq_some_iff.mp ⟨hparse, not_not.mp hserialized⟩,
        ?_, ?_, EnvelopeBudgetV2.fits_zero⟩
      · rw [hnil]
        exact Nat.zero_le max
      · rw [hnil]
        exact .nil
    · simp only [parseTransactionEnvelopeFieldsV2] at h
      split_ifs at h
      obtain ⟨rest, total, hopened, rfl, rfl, hfits⟩ :=
        (parseEnvelopeFields_eq_ok_iff EnvelopeBudgetV2.fits_zero).mp h
      rw [EnvelopeBudgetV2.zero_add] at hfits ⊢
      refine ⟨hactive, fields, parseTxExtraStrict_eq_some_iff.mp ⟨hparse, not_not.mp hserialized⟩,
        ?_, hopened, hfits⟩
      simpa using hcount
  · rintro ⟨hactive, fields, hcanonical, hcount, hopened, hfits⟩
    obtain ⟨hparse, hserialized⟩ := parseTxExtraStrict_eq_some_iff.mpr hcanonical
    unfold parseTransactionExtraV2
    rw [if_neg (by simp [hactive.version]),
      if_neg (by simp [hactive.limits, hactive.envelopes]), hparse]
    dsimp only
    rw [if_neg (not_not.mpr hserialized), if_neg (by simpa using hcount)]
    split_ifs with hnil
    · rw [List.map_eq_nil_iff] at hnil
      rw [hnil] at hopened
      cases hopened
      rfl
    · rw [parseTransactionEnvelopeFieldsV2, if_neg (by simp [hactive.limits, hactive.envelopes]),
        if_neg (by simpa using hcount), parseEnvelopeFields_eq_ok_iff EnvelopeBudgetV2.fits_zero]
      exact ⟨records, budget, hopened, rfl, budget.zero_add.symm, hfits⟩

/-! ## Appending -/

lemma Opened.append {payloads payloads' : List (List UInt8)}
    {records records' : List EnvelopeRecordV2} {budget budget' : EnvelopeBudgetV2} (h : Opened limits payloads records budget)
    (h' : Opened limits payloads' records' budget') :
    Opened limits (payloads ++ payloads') (records ++ records') (budget.add budget') := by
  induction h with
  | nil => simpa using h'
  | cons henvelope _ ih =>
    rw [List.cons_append, List.append_assoc, EnvelopeBudgetV2.add_assoc]
    exact .cons henvelope ih

lemma Opened.single {payload : List UInt8} (h : EnvelopeOf limits records payload budget) :
    Opened limits [payload] records (framedBudget payload budget) := by
  simpa using Opened.cons h .nil

lemma Charged.amounts {start final : EnvelopeBudgetV2} (h : Charged limits start records final) :
    final.amounts = start.amounts + recordCosts records := by
  induction h with
  | nil => simp
  | cons hvalidate _ ih =>
    rw [ih, validateRecord_amounts hvalidate, recordCosts_cons, add_assoc]

lemma recordCosts_le (records : List EnvelopeRecordV2) :
    (recordCosts records).1 ≤ 2 * records.length ∧ (recordCosts records).2 ≤ records.length := by
  induction records with
  | nil => simp
  | cons record records ih =>
    have hcost : record.cost.1 ≤ 2 ∧ record.cost.2 ≤ 1 := by
      unfold EnvelopeRecordV2.cost
      cases RecordTypeV2.ofCode record.type with
      | none => decide
      | some kind => cases kind <;> decide
    rw [recordCosts_cons, List.length_cons, Prod.fst_add, Prod.snd_add]
    omega

/-- The records of an envelope are at least as many bytes as they cost. -/
lemma EnvelopeOf.budget_le {payload : List UInt8} (h : EnvelopeOf limits records payload budget) :
    budget.records ≤ payload.length ∧ budget.signatureVerifications ≤ payload.length ∧
      budget.admissionVerifications ≤ payload.length := by
  obtain ⟨charge, hcharged, rfl⟩ := h.charged
  have hamounts : charge.amounts = recordCosts records := by
    rw [hcharged.amounts]
    exact zero_add _
  have hsignatures : charge.signatureVerifications = (recordCosts records).1 :=
    congrArg Prod.fst hamounts
  have hadmissions : charge.admissionVerifications = (recordCosts records).2 :=
    congrArg Prod.snd hamounts
  obtain ⟨hsignatures', hadmissions'⟩ := recordCosts_le records
  have hlength := h.length_eq
  have hrecords := length_le_of_encodedSize records
  simp only [recordHeaderSize] at hrecords
  dsimp only
  omega

lemma Opened.budget_le {payloads : List (List UInt8)} (h : Opened limits payloads records budget) :
    budget.records ≤ budget.bytes ∧ budget.signatureVerifications ≤ budget.bytes ∧
      budget.admissionVerifications ≤ budget.bytes ∧
      budget.bytes = (payloads.map fun payload => (framedEnvelope payload).length).sum := by
  induction h with
  | nil => simp
  | @cons payload payloads records rest charge total henvelope _ ih =>
    obtain ⟨hrecords, hsignatures, hadmissions, hbytes⟩ := ih
    obtain ⟨hrecords', hsignatures', hadmissions'⟩ := henvelope.budget_le
    have hframed : payload.length ≤ (framedEnvelope payload).length := by
      rw [framedEnvelope, List.length_append]
      omega
    simp only [EnvelopeBudgetV2.add, framedBudget, List.map_cons, List.sum_cons]
    omega

lemma sum_framed_le {fields : List TxExtraField} {bytes : List UInt8}
    (h : serializeExtraFields fields = some bytes) :
    ((eposePayloads fields).map fun payload => (framedEnvelope payload).length).sum ≤
      bytes.length := by
  induction fields generalizing bytes with
  | nil => simp [eposePayloads]
  | cons field fields ih =>
    simp only [serializeExtraFields, Option.bind_eq_bind, Option.bind_eq_some_iff,
      Option.pure_def, Option.some.injEq] at h
    obtain ⟨first, hfirst, rest, hrest, rfl⟩ := h
    have hle := ih hrest
    rw [List.length_append]
    cases field with
    | eposeV2 data =>
      rw [writeField_eposeV2] at hfirst
      obtain rfl := Option.some.inj hfirst
      have hpayloads : eposePayloads (.eposeV2 data :: fields) = data :: eposePayloads fields := rfl
      rw [hpayloads, List.map_cons, List.sum_cons]
      omega
    | _ => exact hle.trans (Nat.le_add_left _ _)

lemma eposePayloads_append (fields fields' : List TxExtraField) :
    eposePayloads (fields ++ fields') = eposePayloads fields ++ eposePayloads fields' :=
  List.filterMap_append

lemma appendTransactionEnvelopeV2_eq_ok {extra' : List UInt8}
    (h : appendTransactionEnvelopeV2 records majorVersion max limits extra = .ok (extra', budget)) :
    Active limits majorVersion max ∧ ∃ fields old oldBudget envelope charge,
      Canonical fields extra ∧ Opened limits (eposePayloads fields) old oldBudget ∧
      oldBudget.Fits ∧ (eposePayloads fields).length < max ∧
      EnvelopeOf limits records envelope charge ∧ extra' = extra ++ framedEnvelope envelope ∧
      budget = framedBudget envelope charge := by
  unfold appendTransactionEnvelopeV2 at h
  split_ifs at h
  obtain ⟨⟨old, oldBudget⟩, hold, h⟩ := except_bind_eq_ok_iff.mp h
  obtain ⟨hactive, fields, hcanonical, -, hopened, hfits⟩ :=
    parseTransactionExtraV2_eq_ok_iff.mp hold
  rw [(parseTxExtraStrict_eq_some_iff.mpr hcanonical).1] at h
  dsimp only at h
  split_ifs at h with hcount
  obtain ⟨⟨envelope, charge⟩, hencode, h⟩ := except_bind_eq_ok_iff.mp h
  have henvelope := encodeEnvelopeV2_eq_ok_iff.mp hencode
  rw [writeField_eposeV2] at h
  obtain ⟨rfl, rfl⟩ := Prod.mk.inj (Except.ok.inj h)
  refine ⟨hactive, fields, old, oldBudget, envelope, charge, hcanonical, hopened, hfits,
    not_le.mp hcount, henvelope, rfl, ?_⟩
  obtain ⟨charge', -, rfl⟩ := henvelope.charged
  have htag : (varint eposeTxExtraTagV2).length = 1 := by decide
  simp only [framedBudget, framedEnvelope, List.length_append, htag]
  congr 1
  omega

/-- Behind fields that can be read and are not padding, one more field can be read. -/
lemma Canonical.append {fields : List TxExtraField} (h : Canonical fields extra)
    (hpadding : ∀ field ∈ fields, field.isPadding = false) {envelope : List UInt8}
    (hlength : envelope.length < 2 ^ 64) :
    Canonical (fields ++ [.eposeV2 envelope]) (extra ++ framedEnvelope envelope) where
  bounded := by
    intro field hmem
    obtain hmem | hmem := List.mem_append.mp hmem
    · exact h.bounded field hmem
    · obtain rfl := List.mem_singleton.mp hmem
      exact hlength
  padding_last := List.pairwise_append.mpr
    ⟨h.padding_last, List.pairwise_singleton .., fun field hmem _ _ => hpadding field hmem⟩
  serialized := serializeExtraFields_append.mpr ⟨extra, framedEnvelope envelope, h.serialized,
    by rw [serializeExtraFields_singleton, writeField_eposeV2], rfl⟩

lemma readPaddingFrom_eq_none {b : UInt8} (hb : b ≠ 0) (rest : List UInt8) (size n : ℕ) :
    readPaddingFrom size (List.replicate n 0 ++ b :: rest) = none := by
  induction n generalizing size with
  | zero => rw [List.replicate_zero, List.nil_append, readPaddingFrom, if_neg (by simp [hb])]
  | succ n ih =>
    rw [List.replicate_succ, List.cons_append, readPaddingFrom]
    split_ifs
    · exact ih (size + 1)
    · rfl

lemma Canonical.exists_padding {fields : List TxExtraField} (h : Canonical fields extra)
    (hpadding : ¬∀ field ∈ fields, field.isPadding = false) :
    ∃ init size, fields = init ++ [.padding size] ∧ ∀ field ∈ init, field.isPadding = false := by
  obtain ⟨field, hmem, hfield⟩ : ∃ field ∈ fields, field.isPadding ≠ false := by
    simpa using hpadding
  obtain ⟨init, rest, rfl⟩ := List.append_of_mem hmem
  obtain ⟨-, hrest, hinit⟩ := List.pairwise_append.mp h.padding_last
  have hrest : rest = [] := by
    refine List.eq_nil_iff_forall_not_mem.mpr fun other hother => ?_
    exact hfield (List.rel_of_pairwise_cons hrest hother)
  subst hrest
  cases field with
  | padding size =>
    exact ⟨init, size, rfl, fun other hother => hinit other hother _ List.mem_cons_self⟩
  | _ => exact absurd rfl hfield

lemma parseTxExtraStrict_padding {fields : List TxExtraField} (h : Canonical fields extra)
    (hpadding : ¬∀ field ∈ fields, field.isPadding = false) (envelope : List UInt8) :
    parseTxExtraStrict (extra ++ framedEnvelope envelope) true = none := by
  obtain ⟨init, size, rfl, hinit⟩ := h.exists_padding hpadding
  have hlength := length_le_of_serializeExtraFields h.serialized
  obtain ⟨left, right, hleft, hwrite, rfl⟩ := serializeExtraFields_append.mp h.serialized
  rw [serializeExtraFields_singleton, writeField] at hwrite
  split_ifs at hwrite
  obtain rfl := Option.some.inj hwrite
  -- the padding meets the tag of the envelope, whatever fuel is left
  have hpad : StateT.run (readPaddingFrom 1)
      (List.replicate (size - 1) 0 ++ 0x05 :: writeString envelope) = none :=
    readPaddingFrom_eq_none (by decide) _ 1 (size - 1)
  have hrun : readField.run (0x00 :: List.replicate (size - 1) 0 ++ framedEnvelope envelope) =
      none := by
    rw [framedEnvelope_eq]
    simp [readField, hpad]
  have hstop : ∀ fuel, (parseFields true fuel
      (0x00 :: List.replicate (size - 1) 0 ++ framedEnvelope envelope)).1 = false := by
    intro fuel
    cases fuel with
    | zero => rfl
    | succ fuel =>
      rw [StateT.run] at hrun
      rw [parseFields, hrun]
  have hfuel : init.length ≤ (left ++ 0x00 :: List.replicate (size - 1) 0 ++
      framedEnvelope envelope).length := by
    rw [List.length_append] at hlength ⊢
    omega
  obtain ⟨fuel, hfuel⟩ := Nat.exists_eq_add_of_le hfuel
  have hparse := parseFields_append (fun field hmem => h.bounded field (by simp [hmem])) hinit hleft
    (show 0x00 :: List.replicate (size - 1) 0 ++ framedEnvelope envelope ≠ [] by simp) fuel
  rw [hstop, ← List.append_assoc] at hparse
  unfold parseTxExtraStrict parseTxExtra
  rw [if_neg (by simp), hfuel, hparse]

/-- The caller's view of `append_transaction_envelope_v2`: the extra field is replaced when the
call is accepted. -/
def appendTransactionEnvelopeInto (records : List EnvelopeRecordV2) (majorVersion : UInt8)
    (max : ℕ) (limits : EnvelopeLimitsV2) (extra : List UInt8) :
    Except EnvelopeStatusV2 EnvelopeBudgetV2 × List UInt8 :=
  match appendTransactionEnvelopeV2 records majorVersion max limits extra with
  | .ok (extra', budget) => (.ok budget, extra')
  | .error status => (.error status, extra)

/-- **Appending an envelope keeps the extra field valid exactly when it has no padding.**  If the
call is accepted, the new extra field is accepted with the old records followed by the new ones,
the sum of the budgets and the same other fields in the same order, if and only if the old one had
no padding; if the call is refused, the extra field is left as it was. -/
theorem append_keeps_extra_valid_iff (records : List EnvelopeRecordV2) (majorVersion : UInt8)
    (max : ℕ) (limits : EnvelopeLimitsV2) (extra : List UInt8) :
    (∀ status, (appendTransactionEnvelopeInto records majorVersion max limits extra).1 =
        .error status →
      (appendTransactionEnvelopeInto records majorVersion max limits extra).2 = extra) ∧
    ∀ budget extra', appendTransactionEnvelopeInto records majorVersion max limits extra =
        (.ok budget, extra') → extra'.length ≤ sizeMax →
      ∃ fields old oldBudget, parseTxExtraStrict extra true = some fields ∧
        parseTransactionExtraV2 extra majorVersion max limits = .ok (old, oldBudget) ∧
        ((∃ fields', parseTransactionExtraV2 extra' majorVersion max limits =
            .ok (old ++ records, oldBudget.add budget) ∧
          parseTxExtraStrict extra' true = some fields' ∧
          fields'.filter (!·.isEposeV2) = fields.filter (!·.isEposeV2)) ↔
        ∀ field ∈ fields, field.isPadding = false) := by
  unfold appendTransactionEnvelopeInto
  constructor
  · intro status hstatus
    split at hstatus
    · cases hstatus
    · rfl
  · intro budget extra' happend hsize
    split at happend
    case h_2 => cases happend
    rename_i extra'' budget' hok
    obtain ⟨hbudget, rfl⟩ := Prod.mk.inj happend
    obtain rfl := Except.ok.inj hbudget
    obtain ⟨hactive, fields, old, oldBudget, envelope, charge, hcanonical, hopened, hfits, hcount,
      henvelope, rfl, rfl⟩ := appendTransactionEnvelopeV2_eq_ok hok
    have hlength : envelope.length < 2 ^ 64 := henvelope.length_lt.trans (by norm_num)
    refine ⟨fields, old, oldBudget, (parseTxExtraStrict_eq_some_iff.mpr hcanonical).1,
      parseTransactionExtraV2_eq_ok_iff.mpr
        ⟨hactive, fields, hcanonical, hcount.le, hopened, hfits⟩, ?_, ?_⟩
    · rintro ⟨fields', -, hparse, -⟩
      by_contra hpadding
      rw [parseTxExtraStrict_padding hcanonical hpadding] at hparse
      cases hparse
    · intro hpadding
      have hcanonical' := hcanonical.append hpadding hlength
      have hpayloads : eposePayloads (fields ++ [.eposeV2 envelope]) =
          eposePayloads fields ++ [envelope] := eposePayloads_append ..
      have hopened' := hopened.append (.single henvelope)
      obtain ⟨hrecords, hsignatures, hadmissions, hbytes⟩ := hopened'.budget_le
      have hserialized := sum_framed_le hcanonical'.serialized
      rw [hpayloads, ← hbytes] at hserialized
      refine ⟨fields ++ [.eposeV2 envelope], parseTransactionExtraV2_eq_ok_iff.mpr
        ⟨hactive, _, hcanonical', ?_, ?_, ⟨by omega, by omega, by omega, by omega⟩⟩,
        (parseTxExtraStrict_eq_some_iff.mpr hcanonical').1, ?_⟩
      · rw [hpayloads, List.length_append]
        exact hcount
      · rw [hpayloads]
        exact hopened'
      · rw [List.filter_append]
        simp [TxExtraField.isEposeV2]

/-- The limits of concrete envelopes. -/
def EnvelopeLimitsV2.sample : EnvelopeLimitsV2 where
  maxEnvelopeBytes := 1000
  maxRecords := 4
  maxRecordPayloadBytes := 400
  maxSignatureVerifications := 8
  maxAdmissionVerifications := 4
  supportedRecordVersions := ⟨[0, 1, 1, 1, 1, 1], rfl⟩

/-- An envelope is appended to padding, and the result cannot be parsed. -/
theorem append_to_padding_is_malformed :
    ∃ budget extra', parseTransactionExtraV2 [0x00] 17 2 .sample = .ok ([], {}) ∧
      appendTransactionEnvelopeInto [⟨5, 1, [1, 2, 3]⟩] 17 2 .sample [0x00] =
        (.ok budget, extra') ∧
      parseTransactionExtraV2 extra' 17 2 .sample = .error .malformedTransactionExtra := by
  refine ⟨⟨25, 1, 1, 0⟩, 0x00 :: framedEnvelope (envelopeBytes [⟨5, 1, [1, 2, 3]⟩] 11), ?_⟩
  decide +kernel

/-- An envelope that is appended to a key. -/
theorem append_keeps_extra_valid_iff_sample :
    ∃ budget extra' old, ∃ oldBudget : EnvelopeBudgetV2,
      appendTransactionEnvelopeInto [⟨5, 1, [1, 2, 3]⟩] 17 2 .sample (0x01 :: (sampleKey 5).data) =
        (.ok budget, extra') ∧ extra'.length ≤ sizeMax ∧
      parseTransactionExtraV2 extra' 17 2 .sample =
        .ok (old ++ [⟨5, 1, [1, 2, 3]⟩], oldBudget.add budget) := by
  have happend : appendTransactionEnvelopeInto [⟨5, 1, [1, 2, 3]⟩] 17 2 .sample
      (0x01 :: (sampleKey 5).data) = (.ok ⟨25, 1, 1, 0⟩, 0x01 :: (sampleKey 5).data ++
        framedEnvelope (envelopeBytes [⟨5, 1, [1, 2, 3]⟩] 11)) ∧
      parseTxExtraStrict (0x01 :: (sampleKey 5).data) true = some [.pubKey (sampleKey 5)] := by
    decide +kernel
  obtain ⟨happend, hparse⟩ := happend
  have hsize : (0x01 :: (sampleKey 5).data ++
      framedEnvelope (envelopeBytes [⟨5, 1, [1, 2, 3]⟩] 11)).length ≤ sizeMax := by decide
  obtain ⟨fields, old, oldBudget, hfields, -, hiff⟩ :=
    (append_keeps_extra_valid_iff _ _ _ _ _).2 _ _ happend hsize
  obtain rfl := Option.some.inj (hfields.symm.trans hparse)
  obtain ⟨-, hvalid, -⟩ := hiff.mpr (by simp [TxExtraField.isPadding])
  exact ⟨_, _, old, oldBudget, happend, hsize, hvalid⟩

/-! ## Stripping -/

/-- A record that the limits let through, costs apart. -/
structure RecordAllowed (limits : EnvelopeLimitsV2) (record : EnvelopeRecordV2) : Prop where
  type_known : record.type ≠ 0 ∧ record.type.toNat < 6
  version_supported : limits.supportedRecordVersions.data.getD record.type.toNat 0 ≠ 0 ∧
    record.version = limits.supportedRecordVersions.data.getD record.type.toNat 0
  payload_le : record.payload.length ≤ limits.maxRecordPayloadBytes

/-- A budget with the cost of records added. -/
def EnvelopeBudgetV2.addCosts (budget : EnvelopeBudgetV2) (costs : ℕ × ℕ) : EnvelopeBudgetV2 :=
  { budget with
    signatureVerifications := budget.signatureVerifications + costs.1
    admissionVerifications := budget.admissionVerifications + costs.2 }

/-- The verifications that the limits of an envelope allow. -/
def EnvelopeLimitsV2.amounts (limits : EnvelopeLimitsV2) : ℕ × ℕ :=
  (limits.maxSignatureVerifications, limits.maxAdmissionVerifications)

lemma EnvelopeBudgetV2.amounts_addCosts (budget : EnvelopeBudgetV2) (costs : ℕ × ℕ) :
    (budget.addCosts costs).amounts = budget.amounts + costs := rfl

lemma exists_ofCode {type : UInt8} (hzero : type ≠ 0) (hlt : type.toNat < 6) :
    ∃ kind, RecordTypeV2.ofCode type = some kind := by
  have hall : ∀ n < 6, n ≠ 0 → (RecordTypeV2.ofCode (UInt8.ofNat n)).isSome = true := by decide
  have hsome := hall type.toNat hlt fun h => hzero (UInt8.toNat_inj.mp h)
  rw [UInt8.ofNat_toNat] at hsome
  exact Option.isSome_iff_exists.mp hsome

lemma validateRecord_eq_ok_iff {record : EnvelopeRecordV2} {next : EnvelopeBudgetV2} :
    validateRecord limits record budget = .ok next ↔ RecordAllowed limits record ∧
      next = budget.addCosts record.cost ∧ next.amounts ≤ limits.amounts := by
  constructor
  · intro h
    unfold validateRecord at h
    dsimp only at h
    split_ifs at h with htype hversion hpayload
    split at h
    · cases h
    rename_i charged hcost
    split_ifs at h with hsignatures hadmissions
    obtain rfl := Except.ok.inj h
    obtain ⟨kind, hkind, rfl⟩ := Option.map_eq_some_iff.mp hcost
    refine ⟨⟨⟨by tauto, by omega⟩, ⟨by tauto, by tauto⟩, by omega⟩, ?_,
      not_lt.mp hsignatures, not_lt.mp hadmissions⟩
    simp [EnvelopeBudgetV2.addCosts, EnvelopeRecordV2.cost, hkind]
  · rintro ⟨⟨⟨hzero, hlt⟩, ⟨hsupported, hversion⟩, hpayload⟩, rfl, hsignatures, hadmissions⟩
    obtain ⟨kind, hkind⟩ := exists_ofCode hzero hlt
    have hcost : addCost record.type budget = some (budget.addCosts record.cost) := by
      simp [addCost, hkind, EnvelopeBudgetV2.addCosts, EnvelopeRecordV2.cost]
    unfold validateRecord
    dsimp only
    rw [if_neg (not_or.mpr ⟨hzero, by omega⟩), if_neg (by tauto), if_neg (by omega), hcost]
    exact (if_neg (not_lt.mpr hsignatures)).trans (if_neg (not_lt.mpr hadmissions))

/-- Records are charged when each is allowed and the total stays within the limits. -/
lemma charged_iff {start final : EnvelopeBudgetV2} :
    Charged limits start records final ↔ (∀ record ∈ records, RecordAllowed limits record) ∧
      final = start.addCosts (recordCosts records) ∧
      (records ≠ [] → final.amounts ≤ limits.amounts) := by
  induction records generalizing start with
  | nil =>
    constructor
    · intro h
      obtain rfl := h.eq_of_nil
      exact ⟨by simp, rfl, fun h => absurd rfl h⟩
    · rintro ⟨-, rfl, -⟩
      exact .nil
  | cons record records ih =>
    have hcosts : (start.addCosts record.cost).addCosts (recordCosts records) =
        start.addCosts (recordCosts (record :: records)) := by
      simp [EnvelopeBudgetV2.addCosts, Nat.add_assoc]
    constructor
    · intro h
      obtain _ | ⟨hvalidate, hcharged⟩ := h
      obtain ⟨hallowed, rfl, hle⟩ := validateRecord_eq_ok_iff.mp hvalidate
      obtain ⟨hall, rfl, hle'⟩ := ih.mp hcharged
      refine ⟨List.forall_mem_cons.mpr ⟨hallowed, hall⟩, hcosts, fun _ => ?_⟩
      by_cases hnil : records = []
      · subst hnil
        exact hle
      · exact hle' hnil
    · rintro ⟨hall, rfl, hle⟩
      obtain ⟨hallowed, hall⟩ := List.forall_mem_cons.mp hall
      have hle := hle (List.cons_ne_nil _ _)
      rw [← hcosts, EnvelopeBudgetV2.amounts_addCosts] at hle
      refine .cons (validateRecord_eq_ok_iff.mpr ⟨hallowed, rfl, ?_⟩)
        (ih.mpr ⟨hall, hcosts.symm, fun _ => ?_⟩)
      · exact le_trans le_self_add hle
      · rw [← hcosts]
        exact hle

lemma encodedSize_le_of_sublist {kept : List EnvelopeRecordV2} (h : kept.Sublist records) :
    encodedSize kept ≤ encodedSize records := by
  induction h with
  | slnil => rfl
  | cons record _ ih => exact ih.trans (by rw [encodedSize_cons]; omega)
  | cons_cons record _ ih => simpa using ih

lemma recordCosts_le_of_sublist {kept : List EnvelopeRecordV2} (h : kept.Sublist records) :
    recordCosts kept ≤ recordCosts records := by
  induction h with
  | slnil => rfl
  | cons record _ ih => exact ih.trans (by rw [recordCosts_cons]; exact le_add_self)
  | cons_cons record _ ih => simpa using ih

/-- Some of the records of an envelope make an envelope, which costs no more. -/
lemma EnvelopeOf.exists_of_sublist {payload : List UInt8} {kept : List EnvelopeRecordV2}
    (h : EnvelopeOf limits records payload budget) (hsublist : kept.Sublist records)
    (hne : kept ≠ []) :
    ∃ payload' budget', EnvelopeOf limits kept payload' budget' ∧
      payload'.length ≤ payload.length ∧ budget'.records ≤ budget.records ∧
      budget'.amounts ≤ budget.amounts := by
  obtain ⟨charge, hcharged, rfl⟩ := h.charged
  obtain ⟨hallowed, rfl, hle⟩ := charged_iff.mp hcharged
  have hlength := hsublist.length_le
  have hsize := encodedSize_le_of_sublist hsublist
  have hcosts := recordCosts_le_of_sublist hsublist
  have hcount := h.count_le
  have hcount16 := h.count_fits
  have hfits := h.size_fits
  have hsize' := h.size_le
  have hamounts : (EnvelopeBudgetV2.addCosts {} (recordCosts kept)).amounts ≤
      (EnvelopeBudgetV2.addCosts {} (recordCosts records)).amounts := by
    rw [EnvelopeBudgetV2.amounts_addCosts, EnvelopeBudgetV2.amounts_addCosts]
    exact add_le_add_right hcosts _
  have hcharged' : Charged limits {} kept (EnvelopeBudgetV2.addCosts {} (recordCosts kept)) :=
    charged_iff.mpr ⟨fun record hmem => hallowed record (hsublist.subset hmem), rfl,
      fun _ => hamounts.trans (hle h.nonempty)⟩
  have henvelope : EnvelopeOf limits kept (envelopeBytes kept (encodedSize kept)) _ :=
    ⟨h.valid, hne, by omega, by omega, by omega, by omega, rfl, _, hcharged', rfl⟩
  refine ⟨_, _, henvelope, ?_, hlength, hamounts⟩
  rw [henvelope.length_eq, h.length_eq]
  omega

/-! ### Canonical fields one by one -/

lemma Canonical.uncons {field : TxExtraField} {fields : List TxExtraField}
    (h : Canonical (field :: fields) extra) :
    ∃ first, writeField field = some first ∧ ∃ rest, Canonical fields rest := by
  have hserialized := h.serialized
  simp only [serializeExtraFields, Option.bind_eq_bind, Option.bind_eq_some_iff,
    Option.pure_def, Option.some.injEq] at hserialized
  obtain ⟨first, hfirst, rest, hrest, -⟩ := hserialized
  exact ⟨first, hfirst, rest, fun other hmem => h.bounded other (List.mem_cons_of_mem _ hmem),
    (List.pairwise_cons.mp h.padding_last).2, hrest⟩

lemma Canonical.head_not_padding {field : TxExtraField} {fields : List TxExtraField}
    (h : Canonical (field :: fields) extra) (hne : fields ≠ []) : field.isPadding = false := by
  obtain ⟨other, hother⟩ := List.exists_mem_of_ne_nil fields hne
  exact (List.pairwise_cons.mp h.padding_last).1 other hother

lemma Canonical.cons {field : TxExtraField} {fields : List TxExtraField} {first : List UInt8}
    (h : Canonical fields extra) (hbounded : field.Bounded) (hfirst : writeField field = some first)
    (hpadding : fields ≠ [] → field.isPadding = false) :
    Canonical (field :: fields) (first ++ extra) where
  bounded := List.forall_mem_cons.mpr ⟨hbounded, h.bounded⟩
  padding_last := List.pairwise_cons.mpr
    ⟨fun _ hmem => hpadding (List.ne_nil_of_mem hmem), h.padding_last⟩
  serialized := by simp [serializeExtraFields, hfirst, h.serialized]

/-- A budget that another one covers. -/
structure EnvelopeBudgetV2.AtMost (left right : EnvelopeBudgetV2) : Prop where
  bytes : left.bytes ≤ right.bytes
  records : left.records ≤ right.records
  signatures : left.signatureVerifications ≤ right.signatureVerifications
  admissions : left.admissionVerifications ≤ right.admissionVerifications

lemma EnvelopeBudgetV2.AtMost.fits {left right : EnvelopeBudgetV2} (h : left.AtMost right)
    (hfits : right.Fits) : left.Fits :=
  ⟨h.bytes.trans hfits.bytes, h.records.trans hfits.records, h.signatures.trans hfits.signatures,
    h.admissions.trans hfits.admissions⟩

lemma EnvelopeBudgetV2.AtMost.add {a b c d : EnvelopeBudgetV2} (h : a.AtMost b)
    (h' : c.AtMost d) : (a.add c).AtMost (b.add d) :=
  ⟨Nat.add_le_add h.bytes h'.bytes, Nat.add_le_add h.records h'.records,
    Nat.add_le_add h.signatures h'.signatures, Nat.add_le_add h.admissions h'.admissions⟩

lemma EnvelopeBudgetV2.AtMost.add_left {a b : EnvelopeBudgetV2} (h : a.AtMost b)
    (c : EnvelopeBudgetV2) : a.AtMost (c.add b) := by
  simpa using EnvelopeBudgetV2.AtMost.add (a := {}) (b := c)
    ⟨Nat.zero_le _, Nat.zero_le _, Nat.zero_le _, Nat.zero_le _⟩ h

lemma EnvelopeOf.framedBudget_atMost {payload payload' : List UInt8}
    {kept : List EnvelopeRecordV2} {budget' : EnvelopeBudgetV2}
    (h : EnvelopeOf limits records payload budget) (h' : EnvelopeOf limits kept payload' budget')
    (hsublist : kept.Sublist records) :
    (framedBudget payload' budget').AtMost (framedBudget payload budget) := by
  obtain ⟨encoded, charge, henvelope, hlength, hrecords, hsignatures, hadmissions⟩ :=
    h.exists_of_sublist hsublist h'.nonempty
  obtain ⟨rfl, rfl⟩ := Prod.mk.inj (Except.ok.inj
    ((encodeEnvelopeV2_eq_ok_iff.mpr henvelope).symm.trans (encodeEnvelopeV2_eq_ok_iff.mpr h')))
  have hvarint := length_varint_mono hlength
  refine ⟨?_, hrecords, hsignatures, hadmissions⟩
  simp only [framedBudget, framedEnvelope, List.length_append]
  omega

/-- Fields, the records in them, and the fields that are left without the records of a type. -/
inductive Strips (limits : EnvelopeLimitsV2) (type : RecordTypeV2) :
    List TxExtraField → List EnvelopeRecordV2 → List TxExtraField → Prop
  | nil : Strips limits type [] [] []
  | other {field : TxExtraField} {fields next : List TxExtraField}
      {records : List EnvelopeRecordV2} : field.isEposeV2 = false →
      Strips limits type fields records next →
      Strips limits type (field :: fields) records (field :: next)
  | emptied {data : List UInt8} {opened records : List EnvelopeRecordV2}
      {charge : EnvelopeBudgetV2} {fields next : List TxExtraField} :
      EnvelopeOf limits opened data charge →
      opened.filter (fun record => record.type ≠ type.code) = [] →
      Strips limits type fields records next →
      Strips limits type (.eposeV2 data :: fields) (opened ++ records) next
  | kept {data encoded : List UInt8} {opened records : List EnvelopeRecordV2}
      {charge charge' : EnvelopeBudgetV2} {fields next : List TxExtraField} :
      EnvelopeOf limits opened data charge →
      EnvelopeOf limits (opened.filter fun record => record.type ≠ type.code) encoded charge' →
      Strips limits type fields records next →
      Strips limits type (.eposeV2 data :: fields) (opened ++ records) (.eposeV2 encoded :: next)

variable {type : RecordTypeV2} {fields next : List TxExtraField}

lemma Opened.exists_strips (type : RecordTypeV2)
    (h : Opened limits (eposePayloads fields) records budget) :
    ∃ next, Strips limits type fields records next := by
  induction fields generalizing records budget with
  | nil =>
    cases h
    exact ⟨[], .nil⟩
  | cons field fields ih =>
    cases field with
    | eposeV2 data =>
      have h : Opened limits (data :: eposePayloads fields) records budget := h
      obtain _ | ⟨henvelope, hopened⟩ := h
      rename_i opened rest charge total
      obtain ⟨next, hstrips⟩ := ih hopened
      by_cases hnil : opened.filter (fun record => record.type ≠ type.code) = []
      · exact ⟨next, .emptied henvelope hnil hstrips⟩
      · obtain ⟨encoded, charge', henvelope', -⟩ :=
          henvelope.exists_of_sublist List.filter_sublist hnil
        exact ⟨.eposeV2 encoded :: next, .kept henvelope henvelope' hstrips⟩
    | _ =>
      obtain ⟨next, hstrips⟩ := ih h
      exact ⟨_ :: next, .other rfl hstrips⟩

/-- The loop computes the fields that are left, and counts the records that are not. -/
lemma Strips.stripFields_eq (h : Strips limits type fields records next) :
    stripFields limits type fields = .ok (next,
      (records.filter fun record => record.type = type.code).length) := by
  have hremoved : ∀ opened : List EnvelopeRecordV2,
      opened.length - (opened.filter fun record => record.type ≠ type.code).length =
        (opened.filter fun record => record.type = type.code).length := by
    intro opened
    have hlength := List.length_eq_length_filter_add (l := opened)
      fun record => decide (record.type = type.code)
    simp only [decide_not] at hlength ⊢
    omega
  induction h with
  | nil => rfl
  | @other field fields next records hother _ ih =>
    cases field with
    | eposeV2 data => cases hother
    | _ => simp [stripFields, ih, bind, Except.bind, pure, Except.pure]
  | emptied henvelope hnil _ ih =>
    rw [stripFields, parseEnvelopeV2_eq_ok_iff.mpr henvelope]
    dsimp only [bind, Except.bind]
    rw [if_pos hnil, ih, hremoved, List.filter_append, List.length_append]
    rfl
  | kept henvelope henvelope' _ ih =>
    rw [stripFields, parseEnvelopeV2_eq_ok_iff.mpr henvelope]
    dsimp only [bind, Except.bind]
    rw [if_neg henvelope'.nonempty, encodeEnvelopeV2_eq_ok_iff.mpr henvelope', ih, hremoved,
      List.filter_append, List.length_append]
    rfl

lemma Strips.ne_nil (h : Strips limits type fields records next) (hne : next ≠ []) :
    fields ≠ [] := by
  rintro rfl
  cases h
  exact hne rfl

lemma Strips.filter_other (h : Strips limits type fields records next) :
    next.filter (!·.isEposeV2) = fields.filter (!·.isEposeV2) := by
  induction h with
  | nil => rfl
  | other hother _ ih => simp [hother, ih]
  | emptied _ _ _ ih => exact ih
  | kept _ _ _ ih => exact ih

lemma Strips.exists_canonical (h : Strips limits type fields records next)
    (hcanonical : Canonical fields extra) : ∃ stripped, Canonical next stripped := by
  induction h generalizing extra with
  | nil => exact ⟨extra, hcanonical⟩
  | @other field fields next records hother hstrips ih =>
    obtain ⟨first, hfirst, rest, htail⟩ := hcanonical.uncons
    obtain ⟨stripped, hnext⟩ := ih htail
    exact ⟨first ++ stripped, hnext.cons (hcanonical.bounded field List.mem_cons_self) hfirst
      fun hne => hcanonical.head_not_padding (hstrips.ne_nil hne)⟩
  | emptied henvelope _ _ ih =>
    obtain ⟨first, -, rest, htail⟩ := hcanonical.uncons
    exact ih htail
  | @kept data encoded opened records charge charge' fields next henvelope henvelope' hstrips ih =>
    obtain ⟨first, -, rest, htail⟩ := hcanonical.uncons
    obtain ⟨stripped, hnext⟩ := ih htail
    have hlength : encoded.length < 2 ^ 64 := henvelope'.length_lt.trans (by norm_num)
    exact ⟨framedEnvelope encoded ++ stripped, hnext.cons hlength (writeField_eposeV2 encoded)
      fun _ => rfl⟩

lemma eposePayloads_cons_other {field : TxExtraField} (h : field.isEposeV2 = false)
    (fields : List TxExtraField) : eposePayloads (field :: fields) = eposePayloads fields := by
  cases field with
  | eposeV2 data => cases h
  | _ => rfl

/-- The records that are left are those of the other types, at no higher cost. -/
lemma Strips.exists_opened (h : Strips limits type fields records next) :
    (eposePayloads next).length ≤ (eposePayloads fields).length ∧
    ∃ budget budget', Opened limits (eposePayloads fields) records budget ∧
      Opened limits (eposePayloads next)
        (records.filter fun record => record.type ≠ type.code) budget' ∧
      budget'.AtMost budget := by
  induction h with
  | nil => exact ⟨le_rfl, {}, {}, .nil, .nil, le_rfl, le_rfl, le_rfl, le_rfl⟩
  | other hother _ ih =>
    rw [eposePayloads_cons_other hother, eposePayloads_cons_other hother]
    exact ih
  | emptied henvelope hnil _ ih =>
    obtain ⟨hlength, budget, budget', hopened, hopened', hle⟩ := ih
    refine ⟨hlength.trans (Nat.le_succ _), _, budget', .cons henvelope hopened, ?_, hle.add_left _⟩
    rw [List.filter_append, hnil]
    exact hopened'
  | kept henvelope henvelope' _ ih =>
    obtain ⟨hlength, budget, budget', hopened, hopened', hle⟩ := ih
    refine ⟨Nat.succ_le_succ hlength, _, _, .cons henvelope hopened, ?_,
      (henvelope.framedBudget_atMost henvelope' List.filter_sublist).add hle⟩
    rw [List.filter_append]
    exact .cons henvelope' hopened'

lemma Opened.unique {payloads : List (List UInt8)} {records' : List EnvelopeRecordV2}
    {budget' : EnvelopeBudgetV2} (h : Opened limits payloads records budget)
    (h' : Opened limits payloads records' budget') : records' = records ∧ budget' = budget := by
  induction h generalizing records' budget' with
  | nil =>
    cases h'
    exact ⟨rfl, rfl⟩
  | cons henvelope _ ih =>
    obtain _ | ⟨henvelope', hopened'⟩ := h'
    obtain ⟨rfl, rfl⟩ := Prod.mk.inj (Except.ok.inj
      ((parseEnvelopeV2_eq_ok_iff.mpr henvelope').symm.trans
        (parseEnvelopeV2_eq_ok_iff.mpr henvelope)))
    obtain ⟨rfl, rfl⟩ := ih hopened'
    exact ⟨rfl, rfl⟩

lemma Strips.eq_of_none (h : Strips limits type fields records next)
    (hnone : ∀ record ∈ records, record.type ≠ type.code) : next = fields := by
  induction h with
  | nil => rfl
  | other _ _ ih => rw [ih hnone]
  | emptied henvelope hnil _ _ =>
    refine absurd ?_ henvelope.nonempty
    rw [← hnil, List.filter_eq_self.mpr fun record hmem => ?_]
    exact decide_eq_true (hnone record (List.mem_append_left _ hmem))
  | @kept data encoded opened records charge charge' fields next henvelope henvelope' _ ih =>
    have hall : opened.filter (fun record => record.type ≠ type.code) = opened :=
      List.filter_eq_self.mpr fun record hmem =>
        decide_eq_true (hnone record (List.mem_append_left _ hmem))
    rw [hall] at henvelope'
    rw [ih fun record hmem => hnone record (List.mem_append_right _ hmem),
      henvelope'.encoded_eq, henvelope.encoded_eq]

lemma Strips.append {fields' next' : List TxExtraField} {records' : List EnvelopeRecordV2}
    (h : Strips limits type fields records next) (h' : Strips limits type fields' records' next') :
    Strips limits type (fields ++ fields') (records ++ records') (next ++ next') := by
  induction h with
  | nil => exact h'
  | other hother _ ih => exact .other hother ih
  | emptied henvelope hnil _ ih =>
    rw [List.append_assoc]
    exact .emptied henvelope hnil ih
  | kept henvelope henvelope' _ ih =>
    rw [List.append_assoc]
    exact .kept henvelope henvelope' ih

lemma Canonical.fields_unique {fields' : List TxExtraField} (h : Canonical fields extra)
    (h' : Canonical fields' extra) : fields = fields' :=
  Option.some.inj ((parseTxExtraStrict_eq_some_iff.mpr h).1.symm.trans
    (parseTxExtraStrict_eq_some_iff.mpr h').1)

/-- `strip_transaction_record_type_v2` under bundled limits. -/
def ExtraLimits.strip (limits : ExtraLimits) (type : RecordTypeV2) (extra : List UInt8) :
    Except EnvelopeStatusV2 (List UInt8 × ℕ) :=
  stripTransactionRecordTypeV2 extra limits.majorVersion limits.maxEnvelopesPerTransaction
    limits.envelope type

lemma ExtraLimits.strip_eq {limits : ExtraLimits} {stripped : List UInt8}
    (hparse : limits.parse extra = .ok (records, budget)) (hcanonical : Canonical fields extra)
    (hstrips : Strips limits.envelope type fields records next)
    (hnext : Canonical next stripped) :
    limits.strip type extra =
      .ok (stripped, (records.filter fun record => record.type = type.code).length) := by
  have hactive := (parseTransactionExtraV2_eq_ok_iff.mp hparse).1
  unfold ExtraLimits.parse at hparse
  unfold ExtraLimits.strip stripTransactionRecordTypeV2
  rw [if_neg (by simp [hactive.version]), if_neg (by simp [hactive.limits, hactive.envelopes]),
    hparse, (parseTxExtraStrict_eq_some_iff.mpr hcanonical).1]
  dsimp only [bind, Except.bind]
  rw [hstrips.stripFields_eq]
  dsimp only
  rw [hnext.serialized]

/-- An accepted extra field, its fields, and what stripping leaves of them. -/
lemma ExtraLimits.exists_strips {limits : ExtraLimits} (type : RecordTypeV2)
    (hparse : limits.parse extra = .ok (records, budget)) :
    ∃ fields next stripped, Canonical fields extra ∧
      Strips limits.envelope type fields records next ∧ Canonical next stripped := by
  obtain ⟨-, fields, hcanonical, -, hopened, -⟩ := parseTransactionExtraV2_eq_ok_iff.mp hparse
  obtain ⟨next, hstrips⟩ := hopened.exists_strips type
  obtain ⟨stripped, hnext⟩ := hstrips.exists_canonical hcanonical
  exact ⟨fields, next, stripped, hcanonical, hstrips, hnext⟩

/-- The extra field that is left is accepted with the records of the other types. -/
lemma ExtraLimits.exists_parse_stripped {limits : ExtraLimits} {stripped : List UInt8}
    (hparse : limits.parse extra = .ok (records, budget)) (hcanonical : Canonical fields extra)
    (hstrips : Strips limits.envelope type fields records next)
    (hnext : Canonical next stripped) :
    ∃ budget', limits.parse stripped =
      .ok (records.filter fun record => record.type ≠ type.code, budget') := by
  obtain ⟨hactive, fields', hcanonical', hcount, hopened, hfits⟩ :=
    parseTransactionExtraV2_eq_ok_iff.mp hparse
  obtain rfl := hcanonical'.fields_unique hcanonical
  obtain ⟨hlength, total, budget', htotal, hopened', hle⟩ := hstrips.exists_opened
  obtain ⟨-, rfl⟩ := htotal.unique hopened
  exact ⟨budget', parseTransactionExtraV2_eq_ok_iff.mpr
    ⟨hactive, next, hnext, hlength.trans hcount, hopened', hle.fits hfits⟩⟩

lemma ExtraLimits.strip_of_none {limits : ExtraLimits}
    (hparse : limits.parse extra = .ok (records, budget))
    (hnone : ∀ record ∈ records, record.type ≠ type.code) :
    limits.strip type extra = .ok (extra, 0) := by
  obtain ⟨fields, next, stripped, hcanonical, hstrips, hnext⟩ := exists_strips type hparse
  obtain rfl := hstrips.eq_of_none hnone
  have hzero : records.filter (fun record => record.type = type.code) = [] :=
    List.filter_eq_nil_iff.mpr fun record hmem => by simpa using hnone record hmem
  rw [strip_eq hparse hcanonical hstrips hcanonical, hzero]
  rfl

lemma ExtraLimits.strip_append {limits : ExtraLimits} {extra' : List UInt8}
    {old new : List EnvelopeRecordV2} {oldBudget newBudget : EnvelopeBudgetV2}
    (hold : limits.parse extra = .ok (old, oldBudget))
    (hnone : ∀ record ∈ old, record.type ≠ type.code)
    (hall : ∀ record ∈ records, record.type = type.code)
    (happend : appendTransactionEnvelopeV2 records limits.majorVersion
      limits.maxEnvelopesPerTransaction limits.envelope extra = .ok (extra', budget))
    (hnew : limits.parse extra' = .ok (new, newBudget)) :
    ∃ removed, limits.strip type extra' = .ok (extra, removed) := by
  obtain ⟨-, fields, old', oldBudget', envelope, charge, hcanonical, hopened, -, -, henvelope,
    rfl, -⟩ := appendTransactionEnvelopeV2_eq_ok happend
  obtain ⟨-, fields', hcanonical', -, hopened', -⟩ := parseTransactionExtraV2_eq_ok_iff.mp hold
  obtain rfl := hcanonical.fields_unique hcanonical'
  obtain ⟨rfl, rfl⟩ := hopened'.unique hopened
  obtain ⟨-, fieldsNew, hcanonicalNew, -, hopenedNew, -⟩ :=
    parseTransactionExtraV2_eq_ok_iff.mp hnew
  have hpadding : ∀ field ∈ fields, field.isPadding = false := by
    by_contra hpadding
    have hread := (parseTxExtraStrict_eq_some_iff.mpr hcanonicalNew).1
    rw [parseTxExtraStrict_padding hcanonical hpadding] at hread
    cases hread
  have hboth := hcanonical.append hpadding (henvelope.length_lt.trans (by norm_num))
  obtain rfl := hcanonicalNew.fields_unique hboth
  -- the old fields stay as they are, the new envelope is emptied
  obtain ⟨next, hstrips⟩ := hopened.exists_strips type
  obtain rfl := hstrips.eq_of_none hnone
  have hnil : records.filter (fun record => record.type ≠ type.code) = [] :=
    List.filter_eq_nil_iff.mpr fun record hmem => by simpa using hall record hmem
  have hboths := hstrips.append (.emptied henvelope hnil .nil)
  rw [List.append_nil, List.append_nil] at hboths
  obtain ⟨-, total, -, htotal, -, -⟩ := hboths.exists_opened
  obtain ⟨rfl, -⟩ := htotal.unique hopenedNew
  exact ⟨_, strip_eq hnew hboth hboths hcanonical⟩

/-- **Stripping a record type is an exact filter, and a payment proof does not change the
commitment it signs.**  An extra field that is accepted can be stripped of any type.  What is left
is accepted with the records of the other types in order and the other fields in order, the number
of the records removed is returned, and stripping again changes nothing.  If a Coinbase has no
proof and an envelope of proofs only is appended to it, its commitment, or the refusal of one,
stays the same. -/
theorem stripping_is_exact (limits : ExtraLimits) :
    (∀ type extra records budget, limits.parse extra = .ok (records, budget) →
      ∃ stripped budget' fields fields',
        limits.strip type extra =
          .ok (stripped, (records.filter fun record => record.type = type.code).length) ∧
        limits.parse stripped =
          .ok (records.filter fun record => record.type ≠ type.code, budget') ∧
        parseTxExtraStrict extra true = some fields ∧
        parseTxExtraStrict stripped true = some fields' ∧
        fields'.filter (!·.isEposeV2) = fields.filter (!·.isEposeV2) ∧
        limits.strip type stripped = .ok (stripped, 0)) ∧
    ∀ (cr : Crypto) (coinbase : Transaction) (old oldBudget records extra' budget new newBudget),
      limits.parse coinbase.extra = .ok (old, oldBudget) →
      (∀ record ∈ old, record.type ≠ RecordTypeV2.servicePaymentProof.code) →
      (∀ record ∈ records, record.type = RecordTypeV2.servicePaymentProof.code) →
      appendTransactionEnvelopeV2 records limits.majorVersion limits.maxEnvelopesPerTransaction
        limits.envelope coinbase.extra = .ok (extra', budget) →
      limits.parse extra' = .ok (new, newBudget) →
      (canonicalCoinbaseCommitmentV2 cr limits { coinbase with extra := extra' }).map Prod.fst =
        (canonicalCoinbaseCommitmentV2 cr limits coinbase).map Prod.fst := by
  constructor
  · intro type extra records budget hparse
    obtain ⟨fields, next, stripped, hcanonical, hstrips, hnext⟩ := limits.exists_strips type hparse
    obtain ⟨budget', hparse'⟩ :=
      ExtraLimits.exists_parse_stripped hparse hcanonical hstrips hnext
    refine ⟨stripped, budget', fields, next, ExtraLimits.strip_eq hparse hcanonical hstrips hnext,
      hparse', (parseTxExtraStrict_eq_some_iff.mpr hcanonical).1,
      (parseTxExtraStrict_eq_some_iff.mpr hnext).1, hstrips.filter_other,
      ExtraLimits.strip_of_none hparse' fun record hmem => ?_⟩
    exact of_decide_eq_true (List.mem_filter.mp hmem).2
  · intro cr coinbase old oldBudget records extra' budget new newBudget hold hnone hall happend hnew
    obtain ⟨removed, hstrip'⟩ := ExtraLimits.strip_append hold hnone hall happend hnew
    have hstrip := ExtraLimits.strip_of_none hold hnone
    unfold ExtraLimits.strip at hstrip hstrip'
    unfold canonicalCoinbaseCommitmentV2
    have hcoinbase : isCoinbase { coinbase with extra := extra' } = isCoinbase coinbase := rfl
    rw [hcoinbase]
    split_ifs
    · rfl
    · rw [hstrip, hstrip']
      dsimp only
      split_ifs <;> rfl

/-- Of a receipt and a proof in one envelope the receipt is left, and a proof is appended to a
Coinbase with a key. -/
theorem stripping_is_exact_sample :
    ∃ stripped budget' extra' budget, ∃ limits : ExtraLimits, ∃ coinbase : Transaction,
      limits.parse (framedEnvelope (envelopeBytes [⟨4, 1, [7]⟩, ⟨5, 1, [8]⟩] 18)) =
        .ok ([⟨4, 1, [7]⟩, ⟨5, 1, [8]⟩], ⟨32, 2, 3, 0⟩) ∧
      limits.strip .servicePaymentProof
        (framedEnvelope (envelopeBytes [⟨4, 1, [7]⟩, ⟨5, 1, [8]⟩] 18)) = .ok (stripped, 1) ∧
      limits.parse stripped = .ok ([⟨4, 1, [7]⟩], budget') ∧
      appendTransactionEnvelopeV2 [⟨5, 1, [8]⟩] limits.majorVersion
        limits.maxEnvelopesPerTransaction limits.envelope coinbase.extra = .ok (extra', budget) ∧
      (canonicalCoinbaseCommitmentV2 .sample limits { coinbase with extra := extra' }).map
          Prod.fst =
        (canonicalCoinbaseCommitmentV2 .sample limits coinbase).map Prod.fst := by
  let limits : ExtraLimits := ⟨17, 2, .sample⟩
  let coinbase : Transaction := ⟨1, 0, [.gen 3], [], 0x01 :: (sampleKey 5).data, []⟩
  let extra' := coinbase.extra ++ framedEnvelope (envelopeBytes [⟨5, 1, [8]⟩] 9)
  have hparse : limits.parse (framedEnvelope (envelopeBytes [⟨4, 1, [7]⟩, ⟨5, 1, [8]⟩] 18)) =
      .ok ([⟨4, 1, [7]⟩, ⟨5, 1, [8]⟩], ⟨32, 2, 3, 0⟩) := by decide +kernel
  have hold : limits.parse coinbase.extra = .ok ([], {}) := by decide +kernel
  have happend : appendTransactionEnvelopeV2 [⟨5, 1, [8]⟩] limits.majorVersion
      limits.maxEnvelopesPerTransaction limits.envelope coinbase.extra =
        .ok (extra', ⟨23, 1, 1, 0⟩) := by decide +kernel
  have hnew : limits.parse extra' = .ok ([⟨5, 1, [8]⟩], ⟨23, 1, 1, 0⟩) := by decide +kernel
  obtain ⟨stripped, budget', -, -, hstrip, hleft, -⟩ :=
    (stripping_is_exact limits).1 .servicePaymentProof _ _ _ hparse
  refine ⟨stripped, budget', extra', _, limits, coinbase, hparse, hstrip, hleft, happend, ?_⟩
  exact (stripping_is_exact limits).2 .sample coinbase [] {} [⟨5, 1, [8]⟩] extra' _ _ _ hold
    (by simp) (by simp [RecordTypeV2.code]) happend hnew

end Qwertycoin
