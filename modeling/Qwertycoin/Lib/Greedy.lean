import Mathlib

/-
# Greedy choice under two budgets

A list is read once, and an element is taken whenever the number of elements and the sum of their
weights both allow it.  The choice is a sublist within both budgets, and it is maximal: whatever
was skipped would still exceed a budget at the end, since room only shrinks.
-/

namespace Greedy

variable {α : Type} (weight : α → ℕ)

/-- The greedy choice from a list, with what is left of the two budgets. -/
def choose : List α → ℕ → ℕ → List α
  | [], _, _ => []
  | a :: l, items, room =>
    if 0 < items ∧ weight a ≤ room then a :: choose l (items - 1) (room - weight a)
    else choose l items room

variable {weight} {l : List α} {items room : ℕ}

@[simp] lemma choose_nil : choose weight [] items room = [] := rfl

lemma choose_cons_of_fits {a : α} (hitems : 0 < items) (hroom : weight a ≤ room) :
    choose weight (a :: l) items room = a :: choose weight l (items - 1) (room - weight a) :=
  if_pos ⟨hitems, hroom⟩

lemma choose_cons_of_not_fits {a : α} (h : items = 0 ∨ room < weight a) :
    choose weight (a :: l) items room = choose weight l items room :=
  if_neg fun hfits => by omega

/-- By the choice at the head of the list: it is taken, or skipped for want of room. -/
lemma choose_cons_cases (weight : α → ℕ) (a : α) (l : List α) (items room : ℕ) :
    (0 < items ∧ weight a ≤ room ∧
        choose weight (a :: l) items room =
          a :: choose weight l (items - 1) (room - weight a)) ∨
      (items = 0 ∨ room < weight a) ∧
        choose weight (a :: l) items room = choose weight l items room := by
  by_cases hfits : 0 < items ∧ weight a ≤ room
  · exact Or.inl ⟨hfits.1, hfits.2, choose_cons_of_fits hfits.1 hfits.2⟩
  · have h : items = 0 ∨ room < weight a := by omega
    exact Or.inr ⟨h, choose_cons_of_not_fits h⟩

variable (weight l items room)

lemma choose_sublist : (choose weight l items room).Sublist l := by
  induction l generalizing items room with
  | nil => exact List.Sublist.slnil
  | cons a l ih =>
    obtain ⟨-, -, heq⟩ | ⟨-, heq⟩ := choose_cons_cases weight a l items room
    · rw [heq]
      exact (ih _ _).cons_cons a
    · rw [heq]
      exact (ih _ _).cons a

/-- The choice is within the budgets. -/
lemma choose_within :
    (choose weight l items room).length ≤ items ∧
      ((choose weight l items room).map weight).sum ≤ room := by
  induction l generalizing items room with
  | nil => simp
  | cons a l ih =>
    obtain ⟨hitems, hroom, heq⟩ | ⟨-, heq⟩ := choose_cons_cases weight a l items room
    · obtain ⟨hlength, hsum⟩ := ih (items - 1) (room - weight a)
      rw [heq, List.length_cons, List.map_cons, List.sum_cons]
      omega
    · rw [heq]
      exact ih items room

variable {weight l items room}

/-- What was skipped exceeds one of the budgets to the end. -/
lemma choose_maximal {a : α} (hmem : a ∈ l) (hskipped : a ∉ choose weight l items room) :
    items ≤ (choose weight l items room).length ∨
      room < ((choose weight l items room).map weight).sum + weight a := by
  induction l generalizing items room with
  | nil => cases hmem
  | cons b l ih =>
    obtain ⟨hitems, hroom, heq⟩ | ⟨hfull, heq⟩ := choose_cons_cases weight b l items room
    · rw [heq, List.mem_cons, not_or] at hskipped
      rw [heq, List.length_cons, List.map_cons, List.sum_cons]
      have hrest := ih (List.mem_of_ne_of_mem hskipped.1 hmem) hskipped.2
      omega
    · rw [heq] at hskipped ⊢
      obtain rfl | hmem := List.mem_cons.mp hmem
      · omega
      · exact ih hmem hskipped

end Greedy
