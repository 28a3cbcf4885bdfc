import Qwertycoin.Lib.Bytes

/-
# Group sequences

A number written in seven-bit groups is a string in which every byte but the last is marked by its
high bit.  Many such strings stand for one number, as groups of zeros may be put at its end; the
shortest of them is the one that `groups` writes.
-/

namespace Bytes

/-- Every byte but the last is marked. -/
inductive Marked : List UInt8 → Prop
  | last {b : UInt8} : b.toNat < 128 → Marked [b]
  | more {b : UInt8} {bs : List UInt8} : 128 ≤ b.toNat → Marked bs → Marked (b :: bs)

/-- The number whose groups are given, low group first. -/
def groupsValue : List UInt8 → ℕ
  | [] => 0
  | b :: bs => b.toNat % 128 + 128 * groupsValue bs

lemma Marked.ne_nil {bs : List UInt8} (h : Marked bs) : bs ≠ [] := by
  cases h <;> simp

/-- The low group and the mark of a number that does not fit in one group. -/
lemma toNat_markedGroup (v : ℕ) : (UInt8.ofNat (v % 128 + 128)).toNat = v % 128 + 128 :=
  UInt8.toNat_ofNat_of_lt' (by change v % 128 + 128 < 256; omega)

lemma toNat_lastGroup {v : ℕ} (h : v < 128) : (UInt8.ofNat v).toNat = v :=
  UInt8.toNat_ofNat_of_lt' (by change v < 256; omega)

lemma groups_of_lt {v : ℕ} (k : ℕ) (h : v < 128) : groups k v = [UInt8.ofNat v] := by
  cases k with
  | zero => rfl
  | succ k => rw [groups, if_pos h]

/-- `groups` writes a group sequence of its number when enough groups are allowed. -/
lemma marked_groups {k v : ℕ} (h : v < 128 ^ (k + 1)) :
    Marked (groups k v) ∧ groupsValue (groups k v) = v := by
  induction k generalizing v with
  | zero =>
    have hv : v < 128 := by simpa using h
    have hbyte := toNat_lastGroup hv
    refine ⟨.last (by omega), ?_⟩
    simp only [groups, groupsValue, hbyte]
    omega
  | succ k ih =>
    by_cases hv : v < 128
    · have hbyte := toNat_lastGroup hv
      rw [groups_of_lt _ hv]
      refine ⟨.last (by omega), ?_⟩
      simp only [groupsValue, hbyte]
      omega
    · obtain ⟨hmarked, hvalue⟩ := ih (Nat.div_lt_of_lt_mul (by rwa [Nat.pow_succ'] at h))
      have hbyte := toNat_markedGroup v
      rw [groups, if_neg hv]
      refine ⟨.more (by omega) hmarked, ?_⟩
      rw [groupsValue, hvalue, hbyte]
      omega

lemma length_groups_le (k v : ℕ) : (groups k v).length ≤ k + 1 := by
  induction k generalizing v with
  | zero => simp [groups]
  | succ k ih =>
    rw [groups]
    split
    · simp
    · simpa using ih (v / 128)

lemma length_groups_mono (k : ℕ) {v w : ℕ} (h : v ≤ w) :
    (groups k v).length ≤ (groups k w).length := by
  induction k generalizing v w with
  | zero => simp [groups]
  | succ k ih =>
    have hdiv := ih (Nat.div_le_div_right h : v / 128 ≤ w / 128)
    rw [groups, groups]
    split_ifs
    · rfl
    · simp
    · omega
    · simpa using hdiv

/-- A group sequence that is as short as the one `groups` writes is that one. -/
lemma Marked.eq_groups {bs : List UInt8} (h : Marked bs) {k : ℕ}
    (hlen : (groups k (groupsValue bs)).length = bs.length) : bs = groups k (groupsValue bs) := by
  induction h generalizing k with
  | @last b hb =>
    have hvalue : groupsValue [b] = b.toNat := by
      simp only [groupsValue]
      omega
    rw [hvalue, groups_of_lt k hb, UInt8.ofNat_toNat]
  | @more b bs hb hmarked ih =>
    have hpos := List.length_pos_iff.mpr hmarked.ne_nil
    have hb' := b.toNat_lt
    have hlow : groupsValue (b :: bs) % 128 + 128 = b.toNat := by
      simp only [groupsValue]
      omega
    have hhigh : groupsValue (b :: bs) / 128 = groupsValue bs := by
      simp only [groupsValue]
      omega
    -- one group would be shorter, so there is a marked one, and a sequence of the rest
    have hlarge : ¬groupsValue (b :: bs) < 128 := by
      intro hsmall
      rw [groups_of_lt k hsmall] at hlen
      simp only [List.length_cons, List.length_nil] at hlen
      omega
    cases k with
    | zero =>
      simp only [groups, List.length_cons, List.length_nil] at hlen
      omega
    | succ k =>
      rw [groups, if_neg hlarge, hlow, hhigh] at hlen ⊢
      rw [UInt8.ofNat_toNat, ← ih (Nat.succ.inj hlen)]

lemma marked_varint {v : ℕ} (h : v < 2 ^ 64) :
    Marked (varint v) ∧ groupsValue (varint v) = v :=
  marked_groups (h.trans (by norm_num))

lemma length_varint_mono {v w : ℕ} (h : v ≤ w) : (varint v).length ≤ (varint w).length :=
  length_groups_mono 9 h

lemma length_varint_le (v : ℕ) : (varint v).length ≤ 10 := length_groups_le 9 v

end Bytes
