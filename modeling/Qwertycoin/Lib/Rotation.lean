import Mathlib

/-
# Taking turns

A list whose entries take turns, over and over: turn `i` belongs to the entry at `i` modulo the
length.  If the entries are distinct, each of them has exactly one turn in every round, wherever
the round starts, and over any number of turns the shares of two entries differ by at most one.
-/

namespace Rotation

variable {α : Type} {l : List α} {a : α}

/-- Whose turn it is. -/
def turn (l : List α) (i : ℕ) : Option α := l[i % l.length]?

lemma mem_of_turn {i : ℕ} (h : turn l i = some a) : a ∈ l := List.mem_of_getElem? h

lemma exists_turn (hl : l ≠ []) (i : ℕ) : ∃ a, turn l i = some a :=
  ⟨_, List.getElem?_eq_getElem (Nat.mod_lt i (List.length_pos_iff.mpr hl))⟩

/-- An entry has its turn at the numbers that are congruent to its place. -/
lemma turn_eq_some_iff (hl : l.Nodup) {k : ℕ} (hk : l[k]? = some a) (i : ℕ) :
    turn l i = some a ↔ i ≡ k [MOD l.length] := by
  obtain ⟨hlt, -⟩ := List.getElem?_eq_some_iff.mp hk
  rw [turn, ← hk, Nat.ModEq, Nat.mod_eq_of_lt hlt]
  have hmod := Nat.mod_lt i (Nat.zero_lt_of_lt hlt)
  constructor
  · intro h
    exact (List.getElem?_inj hmod hl).mp h
  · intro h
    rw [h]

/-- In a round, which may start anywhere, every entry has exactly one turn. -/
theorem existsUnique_turn (hl : l.Nodup) (ha : a ∈ l) (first : ℕ) :
    ∃! i, i < l.length ∧ turn l (first + i) = some a := by
  obtain ⟨k, hk⟩ := List.mem_iff_getElem?.mp ha
  obtain ⟨hlt, -⟩ := List.getElem?_eq_some_iff.mp hk
  have hpos := Nat.zero_lt_of_lt hlt
  have hle := (Nat.mod_lt first hpos).le
  -- from the place of the first turn to the end of the list, and on to the entry
  have hturn : first + (k + (l.length - first % l.length)) % l.length ≡ k [MOD l.length] :=
    calc first + (k + (l.length - first % l.length)) % l.length
        ≡ first % l.length + (k + (l.length - first % l.length)) [MOD l.length] :=
          (Nat.mod_modEq first _).symm.add (Nat.mod_modEq _ _)
      _ = k + l.length := by omega
      _ ≡ k [MOD l.length] := Nat.add_modEq_right
  simp only [turn_eq_some_iff hl hk]
  refine ⟨_, ⟨Nat.mod_lt _ hpos, hturn⟩, ?_⟩
  rintro i ⟨hi, hi'⟩
  have hsame := Nat.ModEq.add_left_cancel' first (hi'.trans hturn.symm)
  exact hsame.eq_of_lt_of_lt hi (Nat.mod_lt _ hpos)

/-- Over any number of turns an entry has its even share, rounded down or up. -/
theorem count_turn [DecidableEq α] (hl : l.Nodup) (ha : a ∈ l) (turns : ℕ) :
    Nat.count (fun i => turn l i = some a) turns = turns / l.length ∨
      Nat.count (fun i => turn l i = some a) turns = (turns + l.length - 1) / l.length := by
  obtain ⟨k, hk⟩ := List.mem_iff_getElem?.mp ha
  obtain ⟨hlt, -⟩ := List.getElem?_eq_some_iff.mp hk
  have hpos := Nat.zero_lt_of_lt hlt
  have hcount := Nat.count_modEq_card turns hpos k
  simp only [turn_eq_some_iff hl hk]
  split_ifs at hcount with hrest
  · right
    have hle := Nat.mod_le turns l.length
    have hdiv : turns + l.length - 1 = turns - 1 + l.length := by omega
    have hpred : (turns - 1) / l.length = turns / l.length := by
      have hsplit := Nat.div_add_mod turns l.length
      refine Nat.div_eq_of_lt_le ?_ ?_
      · rw [Nat.mul_comm]
        omega
      · have := Nat.mod_lt turns hpos
        rw [Nat.succ_mul, Nat.mul_comm]
        omega
    rw [hcount, hdiv, Nat.add_div_right _ hpos, hpred]
  · exact Or.inl hcount

end Rotation
