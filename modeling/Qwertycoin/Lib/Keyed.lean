import Mathlib

/-
# Tables

A table is a list of entries that are found by a key.  An entry is changed in place, so the keys
and their order stay; when no key occurs twice, the other entries stay as well.
-/

namespace Keyed

variable {α κ : Type*} [DecidableEq κ] (key : α → κ)

/-- Change the first entry with a key. -/
def modify (k : κ) (f : α → α) (l : List α) : List α :=
  l.replaceF fun a => if key a = k then some (f a) else none

variable {key} {k : κ} {f : α → α} {a : α} {l : List α}

@[simp] lemma modify_nil : modify key k f [] = [] := rfl

lemma modify_cons_of_eq (h : key a = k) : modify key k f (a :: l) = f a :: l :=
  List.replaceF_cons_of_some _ (if_pos h)

lemma modify_cons_of_ne (h : key a ≠ k) : modify key k f (a :: l) = a :: modify key k f l :=
  List.replaceF_cons_of_none _ (if_neg h)

@[simp] lemma length_modify : (modify key k f l).length = l.length := List.length_replaceF

/-- The keys stay. -/
lemma map_key_modify (hf : ∀ a, key (f a) = key a) : (modify key k f l).map key = l.map key := by
  induction l with
  | nil => rfl
  | cons a l ih =>
    by_cases ha : key a = k
    · rw [modify_cons_of_eq ha, List.map_cons, List.map_cons, hf]
    · rw [modify_cons_of_ne ha, List.map_cons, List.map_cons, ih]

/-- The entry of a key afterwards. -/
lemma find?_modify (hf : ∀ a, key (f a) = key a) (k k' : κ) (l : List α) :
    (modify key k f l).find? (fun a => key a = k') =
      if k' = k then (l.find? fun a => key a = k).map f else l.find? fun a => key a = k' := by
  induction l with
  | nil => split_ifs <;> rfl
  | cons a l ih =>
    by_cases ha : key a = k
    · rw [modify_cons_of_eq ha]
      split_ifs with hk
      · subst hk
        rw [List.find?_cons_of_pos (by simp [hf, ha]), List.find?_cons_of_pos (by simp [ha])]
        rfl
      · have hne : key a ≠ k' := fun h => hk (h.symm.trans ha)
        rw [List.find?_cons_of_neg (by simp [hf, hne]), List.find?_cons_of_neg (by simp [hne])]
    · rw [modify_cons_of_ne ha]
      by_cases hk' : key a = k'
      · have hk : k' ≠ k := fun h => ha (hk'.trans h)
        rw [List.find?_cons_of_pos (by simp [hk']), if_neg hk,
          List.find?_cons_of_pos (by simp [hk'])]
      · rw [List.find?_cons_of_neg (by simp [hk']), ih, List.find?_cons_of_neg (by simp [ha]),
          List.find?_cons_of_neg (by simp [hk'])]

/-- Without a key that occurs twice, an entry afterwards is an entry of another key or the changed
entry. -/
lemma mem_modify (hnodup : (l.map key).Nodup) :
    a ∈ modify key k f l ↔ (a ∈ l ∧ key a ≠ k) ∨ ∃ b ∈ l, key b = k ∧ a = f b := by
  induction l with
  | nil => simp
  | cons c l ih =>
    obtain ⟨hc, hnodup⟩ := List.nodup_cons.mp hnodup
    by_cases hk : key c = k
    · -- the entry is found, and the keys of the rest are others
      have hrest : ∀ b ∈ l, key b ≠ k := fun b hb h =>
        hc (List.mem_map.mpr ⟨b, hb, h.trans hk.symm⟩)
      rw [modify_cons_of_eq hk, List.mem_cons]
      constructor
      · rintro (rfl | ha)
        · exact .inr ⟨c, by simp, hk, rfl⟩
        · exact .inl ⟨by simp [ha], hrest a ha⟩
      · rintro (⟨ha, hne⟩ | ⟨b, hb, hbk, rfl⟩)
        · rcases List.mem_cons.mp ha with rfl | ha
          · exact absurd hk hne
          · exact .inr ha
        · rcases List.mem_cons.mp hb with rfl | hb
          · exact .inl rfl
          · exact absurd hbk (hrest b hb)
    · rw [modify_cons_of_ne hk, List.mem_cons, ih hnodup]
      constructor
      · rintro (rfl | ⟨ha, hne⟩ | ⟨b, hb, hbk, rfl⟩)
        · exact .inl ⟨by simp, hk⟩
        · exact .inl ⟨by simp [ha], hne⟩
        · exact .inr ⟨b, by simp [hb], hbk, rfl⟩
      · rintro (⟨ha, hne⟩ | ⟨b, hb, hbk, rfl⟩)
        · rcases List.mem_cons.mp ha with rfl | ha
          · exact .inl rfl
          · exact .inr (.inl ⟨ha, hne⟩)
        · rcases List.mem_cons.mp hb with rfl | hb
          · exact absurd hbk hk
          · exact .inr (.inr ⟨b, hb, hbk, rfl⟩)

/-- Two changes of one entry are one change. -/
lemma modify_modify {g : α → α} (hg : ∀ a, key (g a) = key a) :
    modify key k f (modify key k g l) = modify key k (f ∘ g) l := by
  induction l with
  | nil => rfl
  | cons a l ih =>
    by_cases ha : key a = k
    · rw [modify_cons_of_eq ha, modify_cons_of_eq ((hg a).trans ha), modify_cons_of_eq ha]
      rfl
    · rw [modify_cons_of_ne ha, modify_cons_of_ne ha, modify_cons_of_ne ha, ih]

/-- A sum over a table grows by what the changed entry grows by. -/
lemma sum_map_modify {M : Type*} [AddCommMonoid M] {g : α → M} {c : M}
    (hfg : ∀ a, key a = k → g (f a) = g a + c) (hk : k ∈ l.map key) :
    ((modify key k f l).map g).sum = (l.map g).sum + c := by
  induction l with
  | nil => simp at hk
  | cons a l ih =>
    by_cases ha : key a = k
    · rw [modify_cons_of_eq ha, List.map_cons, List.map_cons, List.sum_cons, List.sum_cons,
        hfg a ha, add_right_comm]
    · have hrest : k ∈ l.map key := by
        rw [List.map_cons, List.mem_cons] at hk
        exact hk.resolve_left fun h => ha h.symm
      rw [modify_cons_of_ne ha, List.map_cons, List.map_cons, List.sum_cons, List.sum_cons,
        ih hrest, add_assoc]

end Keyed
