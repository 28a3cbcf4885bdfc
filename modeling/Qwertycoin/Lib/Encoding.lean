import Qwertycoin.Lib.Bytes

/-
# Encodings that can be read back

A message that is hashed is a concatenation of encoded parts.  It determines its parts when each of
them can be told from whatever follows it.  That property is proved for the primitive encodings
once and carried to lists and messages.
-/

namespace Bytes

variable {α : Type*} {P : α → Prop} {f : α → List UInt8}

/-- What `f` writes for a value in `P` can be told from whatever follows it. -/
def Readable (P : α → Prop) (f : α → List UInt8) : Prop :=
  ∀ ⦃a b : α⦄, P a → P b → ∀ ⦃x y : List UInt8⦄, f a ++ x = f b ++ y → a = b ∧ x = y

namespace Readable

/-- Encodings of one length. -/
lemma of_length {n : ℕ} (hlen : ∀ a, (f a).length = n) (hinj : Function.Injective f) :
    Readable (fun _ => True) f := by
  intro a b _ _ x y heq
  obtain ⟨hf, hrest⟩ := List.append_inj heq ((hlen a).trans (hlen b).symm)
  exact ⟨hinj hf, hrest⟩

/-- Lists of one length, element by element. -/
lemma flatMap (h : Readable P f) {as bs : List α} (hlen : as.length = bs.length)
    (has : ∀ a ∈ as, P a) (hbs : ∀ b ∈ bs, P b) {x y : List UInt8}
    (heq : as.flatMap f ++ x = bs.flatMap f ++ y) : as = bs ∧ x = y := by
  induction as generalizing bs with
  | nil =>
    obtain rfl := List.eq_nil_of_length_eq_zero hlen.symm
    exact ⟨rfl, heq⟩
  | cons a as ih =>
    obtain _ | ⟨b, bs⟩ := bs
    · cases hlen
    rw [List.flatMap_cons, List.flatMap_cons, List.append_assoc, List.append_assoc] at heq
    obtain ⟨rfl, htail⟩ := h (has a List.mem_cons_self) (hbs b List.mem_cons_self) heq
    obtain ⟨rfl, hrest⟩ := ih (Nat.succ.inj hlen) (fun c hc => has c (List.mem_cons_of_mem _ hc))
      (fun c hc => hbs c (List.mem_cons_of_mem _ hc)) htail
    exact ⟨rfl, hrest⟩

/-- Lists of any length, if no element is written as nothing. -/
lemma flatMap_injective (h : Readable P f) (hne : ∀ a, P a → f a ≠ []) {as bs : List α}
    (has : ∀ a ∈ as, P a) (hbs : ∀ b ∈ bs, P b) (heq : as.flatMap f = bs.flatMap f) : as = bs := by
  induction as generalizing bs with
  | nil =>
    cases bs with
    | nil => rfl
    | cons b bs =>
      rw [List.flatMap_nil, List.flatMap_cons] at heq
      exact absurd (List.append_eq_nil_iff.mp heq.symm).1 (hne b (hbs b List.mem_cons_self))
  | cons a as ih =>
    cases bs with
    | nil =>
      rw [List.flatMap_nil, List.flatMap_cons] at heq
      exact absurd (List.append_eq_nil_iff.mp heq).1 (hne a (has a List.mem_cons_self))
    | cons b bs =>
      rw [List.flatMap_cons, List.flatMap_cons] at heq
      obtain ⟨rfl, htail⟩ := h (has a List.mem_cons_self) (hbs b List.mem_cons_self) heq
      rw [ih (fun c hc => has c (List.mem_cons_of_mem _ hc))
        (fun c hc => hbs c (List.mem_cons_of_mem _ hc)) htail]

end Readable

lemma readable_block {n : ℕ} : Readable (fun _ : Block n => True) Block.data :=
  .of_length Block.length_data Block.data_injective

lemma readable_u64 : Readable (fun _ => True) u64 := by
  refine .of_length length_u64 fun a b heq => ?_
  have hvalue := congrArg leValue heq
  simp only [u64] at hvalue
  rw [leValue_leBytes a.toNat_lt, leValue_leBytes b.toNat_lt] at hvalue
  exact UInt64.toNat_inj.mp hvalue

/-- The high bit tells the last group, so groups can be read when they all fit. -/
lemma readable_groups (k : ℕ) : Readable (· < 128 ^ (k + 1)) (groups k) := by
  have hbyte : ∀ {a b : ℕ}, a < 256 → b < 256 → UInt8.ofNat a = UInt8.ofNat b → a = b := by
    intro a b ha hb heq
    have hvalue := congrArg UInt8.toNat heq
    rwa [UInt8.toNat_ofNat_of_lt' ha, UInt8.toNat_ofNat_of_lt' hb] at hvalue
  induction k with
  | zero =>
    intro a b ha hb x y heq
    simp only [groups, List.cons_append, List.nil_append, List.cons.injEq] at heq
    exact ⟨hbyte (by omega) (by omega) heq.1, heq.2⟩
  | succ k ih =>
    intro a b ha hb x y heq
    have ha' : a / 128 < 128 ^ (k + 1) := Nat.div_lt_of_lt_mul (by rwa [Nat.pow_succ'] at ha)
    have hb' : b / 128 < 128 ^ (k + 1) := Nat.div_lt_of_lt_mul (by rwa [Nat.pow_succ'] at hb)
    simp only [groups] at heq
    split_ifs at heq with hsmall hsmall' hsmall' <;>
      simp only [List.cons_append, List.nil_append, List.cons.injEq] at heq
    · exact ⟨hbyte (by omega) (by omega) heq.1, heq.2⟩
    · have := hbyte (by omega) (by omega) heq.1
      omega
    · have := hbyte (by omega) (by omega) heq.1
      omega
    · have hlow := hbyte (by omega) (by omega) heq.1
      obtain ⟨hhigh, hrest⟩ := ih ha' hb' heq.2
      exact ⟨by omega, hrest⟩

lemma readable_varint : Readable (· < 2 ^ 64) varint := by
  intro a b ha hb
  exact readable_groups 9 (ha.trans (by norm_num)) (hb.trans (by norm_num))

end Bytes
