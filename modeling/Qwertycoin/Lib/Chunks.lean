import Mathlib.Data.List.Basic
import Mathlib.Data.List.Flatten
import Mathlib.Data.List.Perm.Subperm
import Mathlib.Tactic.Ring

/-
# Cutting a list into chunks

A list that is too long for one carrier is cut into pieces of a fixed size, the last of which may
be shorter.  The pieces are numbered from zero, and put together in that order they give the list
back.  Pieces that arrive in any order are collected in a map by their numbers, which is complete
when it holds as many pieces as there are numbers.
-/

namespace Chunks

variable {α : Type*} {k : ℕ} {l : List α}

/-- The number of pieces of size `k` that a list of length `n` takes. -/
def count (k n : ℕ) : ℕ := (n + k - 1) / k

/-- The piece with number `i`. -/
def chunk (k : ℕ) (l : List α) (i : ℕ) : List α := (l.drop (i * k)).take k

lemma count_le_iff {n m : ℕ} (hk : 0 < k) : count k n ≤ m ↔ n ≤ m * k := by
  rw [count, ← Nat.lt_succ_iff, Nat.div_lt_iff_lt_mul hk, Nat.succ_mul]
  omega

lemma lt_count_iff {n i : ℕ} (hk : 0 < k) : i < count k n ↔ i * k < n := by
  rw [← not_iff_not, Nat.not_lt, Nat.not_lt, count_le_iff hk]

lemma length_chunk (i : ℕ) : (chunk k l i).length = min k (l.length - i * k) := by
  rw [chunk, List.length_take, List.length_drop]

/-- Every piece but the last is full, and the last one holds what is left. -/
lemma length_chunk_eq {i : ℕ} (hk : 0 < k) (hi : i < count k l.length) :
    (chunk k l i).length =
      if i + 1 = count k l.length then l.length - i * k else k := by
  rw [length_chunk]
  have hstart := (lt_count_iff hk).mp hi
  have hlast : i + 1 = count k l.length ↔ l.length ≤ (i + 1) * k := by
    rw [← count_le_iff hk]
    omega
  rw [Nat.succ_mul] at hlast
  split_ifs with h
  · have := hlast.mp h
    omega
  · have := mt hlast.mpr h
    omega

lemma flatMap_chunk (l : List α) (m : ℕ) : (List.range m).flatMap (chunk k l) = l.take (m * k) := by
  induction m with
  | zero => rw [List.range_zero, List.flatMap_nil, Nat.zero_mul, List.take_zero]
  | succ m ih =>
    rw [List.range_succ, List.flatMap_append, ih, List.flatMap_singleton, chunk, Nat.succ_mul,
      List.take_add]

/-- The pieces, in the order of their numbers, give the list back. -/
lemma flatMap_chunk_count (hk : 0 < k) (l : List α) :
    (List.range (count k l.length)).flatMap (chunk k l) = l := by
  rw [flatMap_chunk, List.take_of_length_le]
  exact (count_le_iff hk).mp le_rfl

/-! ## Numbered pieces in a map -/

section Collected

variable {V : Type*} {m : Std.ExtTreeMap ℕ V compare} {n : ℕ}

lemma size_eq_of_forall_mem_iff (h : ∀ i, i ∈ m ↔ i < n) : m.size = n := by
  have hperm : m.keys.Perm (List.range n) := by
    rw [List.perm_ext_iff_of_nodup Std.ExtTreeMap.nodup_keys List.nodup_range]
    intro i
    rw [Std.ExtTreeMap.mem_keys, h, List.mem_range]
  rw [← Std.ExtTreeMap.length_keys, hperm.length_eq, List.length_range]

/-- A map of `n` entries that has all numbers below `n` has no other. -/
lemma lt_of_mem_of_size_eq (hsize : m.size = n) (hall : ∀ i < n, i ∈ m) {i : ℕ} (hi : i ∈ m) :
    i < n := by
  have hsub : (List.range n).Subperm m.keys :=
    List.nodup_range.subperm fun j hj =>
      Std.ExtTreeMap.mem_keys.mpr (hall j (List.mem_range.mp hj))
  have hperm := hsub.perm_of_length_le (by
    rw [Std.ExtTreeMap.length_keys, hsize, List.length_range])
  exact List.mem_range.mp (hperm.mem_iff.mpr (Std.ExtTreeMap.mem_keys.mpr hi))

end Collected

end Chunks
