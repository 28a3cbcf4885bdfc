import Mathlib

/-
# Paced sequences of times

A limiter that counts its grants leaves a gap after each of them, and a longer gap after every
`m`-th one.  Such a sequence is described by the delay after its `n`-th time.  A sequence grows at
its end, so pacing is kept by one comparison with the last time, and any `m` neighbours among the
times have a long gap behind one of them.
-/

namespace Pacing

variable {delay : ℕ → ℕ} {times : List ℕ} {m short long i j a b t : ℕ}

/-- The `n`-th time is followed by a gap of at least `delay n`; the first time is number 1. -/
def Paced (delay : ℕ → ℕ) (times : List ℕ) : Prop :=
  ∀ i a b, times[i]? = some a → times[i + 1]? = some b → a + delay (i + 1) ≤ b

@[simp] lemma paced_nil : Paced delay [] := by
  intro i a b h
  cases h

/-- A time may be appended when the delay behind the last one has passed. -/
lemma Paced.concat (h : Paced delay times)
    (ht : ∀ last, times.getLast? = some last → last + delay times.length ≤ t) :
    Paced delay (times ++ [t]) := by
  intro i a b ha hb
  have hlt := (List.getElem?_eq_some_iff.mp hb).1
  rw [List.length_append, List.length_singleton] at hlt
  rw [List.getElem?_append_left (by omega)] at ha
  rcases Nat.lt_or_ge (i + 1) times.length with hlt' | hge
  · rw [List.getElem?_append_left hlt'] at hb
    exact h i a b ha hb
  · have hlength : times.length = i + 1 := by omega
    rw [List.getElem?_append_right hge, hlength, Nat.sub_self] at hb
    obtain rfl := Option.some.inj hb
    rw [← hlength]
    refine ht a ?_
    rw [List.getLast?_eq_getElem?, hlength]
    exact ha

/-- Two times are at least one delay apart. -/
lemma Paced.add_short_le (h : Paced delay times) (hshort : ∀ n, short ≤ delay n) (hij : i < j)
    (ha : times[i]? = some a) (hb : times[j]? = some b) : a + short ≤ b := by
  induction j generalizing b with
  | zero => omega
  | succ j ih =>
    have hmem : j < times.length := by
      have hlt := (List.getElem?_eq_some_iff.mp hb).1
      omega
    obtain ⟨c, hc⟩ : ∃ c, times[j]? = some c := ⟨_, List.getElem?_eq_getElem hmem⟩
    have hgap := h j c b hc hb
    have hdelay := hshort (j + 1)
    rcases Nat.lt_or_ge i j with hlt | hge
    · have hle := ih hlt hc
      omega
    · obtain rfl : i = j := by omega
      obtain rfl := Option.some.inj (ha.symm.trans hc)
      omega

/-! ## Counting to `m` -/

/-- A counter that starts again when it is full. -/
lemma add_one_mod (hm : 0 < m) (k : ℕ) :
    (k + 1) % m = if m ≤ k % m + 1 then 0 else k % m + 1 := by
  have hlt := Nat.mod_lt k hm
  rw [← Nat.mod_add_mod]
  split_ifs with hfull
  · rw [show k % m + 1 = m by omega, Nat.mod_self]
  · exact Nat.mod_eq_of_lt (by omega)

/-- The counter is full at the multiples of `m`. -/
lemma le_mod_add_one_iff (hm : 0 < m) (k : ℕ) : m ≤ k % m + 1 ↔ m ∣ k + 1 := by
  rw [Nat.dvd_iff_mod_eq_zero, add_one_mod hm]
  split_ifs with hfull
  · exact ⟨fun _ => rfl, fun _ => hfull⟩
  · exact ⟨fun h => absurd h hfull, fun h => h.elim⟩

/-- Among `m` neighbours there is one whose number is a multiple of `m`. -/
lemma exists_multiple (hm : 0 < m) (i : ℕ) : ∃ j, i ≤ j ∧ j < i + m ∧ m ∣ j + 1 := by
  refine ⟨i + (m - 1 - i % m), by omega, by omega, ?_⟩
  have hlt := Nat.mod_lt i hm
  have hdiv := Nat.div_add_mod i m
  refine ⟨i / m + 1, ?_⟩
  rw [Nat.mul_add, Nat.mul_one]
  omega

/-- Any `m` neighbours have a long gap behind one of them. -/
lemma Paced.exists_long_gap (h : Paced delay times) (hm : 0 < m)
    (hlong : ∀ n, m ∣ n → long ≤ delay n) (i : ℕ) :
    ∃ j, i ≤ j ∧ j < i + m ∧
      ∀ a b, times[j]? = some a → times[j + 1]? = some b → a + long ≤ b := by
  obtain ⟨j, hle, hlt, hdvd⟩ := exists_multiple hm i
  refine ⟨j, hle, hlt, fun a b ha hb => ?_⟩
  have hgap := h j a b ha hb
  have hdelay := hlong (j + 1) hdvd
  omega

end Pacing
