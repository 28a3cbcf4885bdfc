import Mathlib

/-
# Sorting with a comparison

A program sorts with a Boolean comparison `less`, which may ignore part of what it compares.  It
has to be a strict weak order: asymmetric, and whatever lies between two comparable elements is
comparable with one of them.  Lexicographic comparisons are built from such orders.  If no two
different elements of a list are tied, the sorted list is strictly increasing and depends on the
elements of the list only, not on their order.
-/

namespace Sorting

variable {α β : Type} {less less₁ less₂ : α → α → Bool}

/-- A strict weak order, given by its comparison. -/
structure StrictWeak (less : α → α → Bool) : Prop where
  asymm : ∀ {a b}, less a b = true → less b a = false
  between : ∀ {a c} b, less a c = true → less a b = true ∨ less b c = true

/-- The order a list is sorted by: nothing comes before something smaller. -/
def notAfter (less : α → α → Bool) (a b : α) : Prop := less b a = false

namespace StrictWeak

lemma total (h : StrictWeak less) (a b : α) : notAfter less a b ∨ notAfter less b a := by
  cases hab : less a b with
  | false => exact Or.inr hab
  | true => exact Or.inl (h.asymm hab)

lemma trans (h : StrictWeak less) {a b c : α} (hab : notAfter less a b)
    (hbc : notAfter less b c) : notAfter less a c := by
  by_contra hac
  simp only [notAfter, Bool.not_eq_false] at hab hbc hac
  obtain hcb | hba := h.between b hac
  · rw [hcb] at hbc
    cases hbc
  · rw [hba] at hab
    cases hab

/-- Comparing the images under a function. -/
lemma comap {less : β → β → Bool} (h : StrictWeak less) (f : α → β) :
    StrictWeak fun a b => less (f a) (f b) :=
  ⟨fun hab => h.asymm hab, fun b hac => h.between (f b) hac⟩

/-- Comparing by one order, and by another where the first does not decide. -/
lemma lex (h₁ : StrictWeak less₁) (h₂ : StrictWeak less₂) :
    StrictWeak fun a b =>
      if less₁ a b then true else if less₁ b a then false else less₂ a b := by
  constructor
  · intro a b hab
    by_cases h : less₁ a b = true
    · simp [h, h₁.asymm h]
    · by_cases h' : less₁ b a = true
      · simp [h, h'] at hab
      · simp only [h, h', Bool.false_eq_true, if_false] at hab ⊢
        exact h₂.asymm hab
  · intro a c b hac
    by_cases h : less₁ a c = true
    · obtain hab | hbc := h₁.between b h
      · exact Or.inl (by simp [hab])
      · exact Or.inr (by simp [hbc])
    · by_cases h' : less₁ c a = true
      · simp [h, h'] at hac
      · -- the first order ties `a` and `c`, so it places `b` on the same side of both
        simp only [h, h', Bool.false_eq_true, if_false] at hac
        by_cases hab : less₁ a b = true
        · exact Or.inl (by simp [hab])
        · by_cases hbc : less₁ b c = true
          · exact Or.inr (by simp [hbc])
          · have hba : less₁ b a = false := by
              by_contra hba
              obtain hbc' | hca := h₁.between c (Bool.not_eq_false _ ▸ hba)
              exacts [hbc hbc', h' hca]
            have hcb : less₁ c b = false := by
              by_contra hcb
              obtain hca | hab' := h₁.between a (Bool.not_eq_false _ ▸ hcb)
              exacts [h' hca, hab hab']
            simpa [hab, hbc, hba, hcb] using h₂.between b hac

/-- Machine integers are compared by a strict weak order. -/
lemma uint64 : StrictWeak fun a b : UInt64 => decide (a < b) := by
  constructor
  · intro a b hab
    simpa using UInt64.le_of_lt (of_decide_eq_true hab)
  · intro a c b hac
    simp only [decide_eq_true_eq] at hac ⊢
    rcases UInt64.lt_or_le a b with hab | hba
    · exact Or.inl hab
    · exact Or.inr (UInt64.lt_of_le_of_lt hba hac)

end StrictWeak

section SortedLists

variable {l l' : List α}

instance : DecidableRel (notAfter less) := fun a b =>
  inferInstanceAs (Decidable (less b a = false))

/-- The sorted list is in order. -/
lemma StrictWeak.pairwise (h : StrictWeak less) (l : List α) :
    (l.insertionSort fun a b => less b a = false).Pairwise (notAfter less) := by
  have htotal : Std.Total (notAfter less) := ⟨h.total⟩
  have htrans : IsTrans α (notAfter less) := ⟨fun _ _ _ => h.trans⟩
  exact List.pairwise_insertionSort (notAfter less) l

/-- Two elements that the comparison tells apart. -/
def Apart (less : α → α → Bool) (a b : α) : Prop := less a b = true ∨ less b a = true

lemma Apart.symm {a b : α} (h : Apart less a b) : Apart less b a := Or.symm h

/-- If no two entries of a list are tied, the sorted list is strictly increasing. -/
lemma StrictWeak.strictly (h : StrictWeak less) (hl : l.Pairwise (Apart less)) :
    (l.insertionSort fun a b => less b a = false).Pairwise fun a b => less a b = true := by
  have hapart : (l.insertionSort fun a b => less b a = false).Pairwise (Apart less) :=
    (List.perm_insertionSort _ l).symm.pairwise hl fun h => h.symm
  refine (h.pairwise l).imp₂ (fun a b hle hapart => ?_) hapart
  obtain hab | hba := hapart
  · exact hab
  · rw [notAfter, hba] at hle
    cases hle

/-- A strictly increasing list is determined by its elements. -/
lemma StrictWeak.eq_of_strictly (h : StrictWeak less) (hl : l.Pairwise fun a b => less a b = true)
    (hl' : l'.Pairwise fun a b => less a b = true) (hmem : ∀ a, a ∈ l ↔ a ∈ l') : l = l' := by
  have hnodup : ∀ {l : List α}, (l.Pairwise fun a b => less a b = true) → l.Nodup := by
    intro l hl
    refine hl.imp fun {a b} hab heq => ?_
    rw [heq] at hab
    have hself := h.asymm hab
    rw [hab] at hself
    cases hself
  have hperm := (List.perm_ext_iff_of_nodup (hnodup hl) (hnodup hl')).mpr hmem
  refine hperm.eq_of_pairwise (fun a b _ _ hab hba => ?_) hl hl'
  rw [h.asymm hab] at hba
  cases hba

/-- If no two entries of a list are tied, sorting forgets their order. -/
lemma StrictWeak.sort_eq_of_perm (h : StrictWeak less) (hl : l.Pairwise (Apart less))
    (hperm : l.Perm l') :
    (l.insertionSort fun a b => less b a = false) =
      l'.insertionSort fun a b => less b a = false := by
  have hl' : l'.Pairwise (Apart less) := hperm.pairwise hl fun h => h.symm
  refine h.eq_of_strictly (h.strictly hl) (h.strictly hl') fun a => ?_
  rw [List.mem_insertionSort, List.mem_insertionSort, hperm.mem_iff]

end SortedLists

end Sorting
