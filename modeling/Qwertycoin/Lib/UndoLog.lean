import Mathlib

/-
# Undo logs

A list that grows at its end and whose entries are changed in place can be taken back to an
earlier state from a log of its old length and of the changes, oldest first: undo the changes
newest first, then cut the list to its old length.  A map that only receives new keys is taken
back by erasing them.

A log is correct for a pair of states when rewinding the later one gives the earlier one.  The
lemmas below say how correctness is kept by the operations a journalled structure performs:
taking a checkpoint, appending, changing an entry after logging the change, and merging the log
of an inner scope into the log of the enclosing one.
-/

namespace UndoLog

/-! ## Lists -/

section Lists

variable {α δ : Type} (place : δ → ℕ) (restore : δ → α → α)

/-- Undo the logged changes, newest first. -/
def undoChanges (changes : List δ) (xs : List α) : List α :=
  changes.reverse.foldl (fun ys c => ys.modify (place c) (restore c)) xs

/-- Undo the logged changes, newest first, then cut the list back to its old length. -/
def rewind (size : ℕ) (changes : List δ) (xs : List α) : List α :=
  (undoChanges place restore changes xs).take size

/-- The log `(size, changes)` takes `xs` back to `xs₀`. -/
structure Restores (size : ℕ) (changes : List δ) (xs₀ xs : List α) : Prop where
  size_eq : size = xs₀.length
  size_le : size ≤ xs.length
  rewind_eq : rewind place restore size changes xs = xs₀

variable {place restore} {size size₁ : ℕ} {changes changes₁ : List δ} {xs₀ xs ys : List α}

@[simp]
lemma undoChanges_nil : undoChanges place restore [] xs = xs := rfl

lemma undoChanges_append :
    undoChanges place restore (changes ++ changes₁) xs =
      undoChanges place restore changes (undoChanges place restore changes₁ xs) := by
  simp [undoChanges, List.foldl_append]

@[simp]
lemma length_undoChanges : (undoChanges place restore changes xs).length = xs.length := by
  induction changes using List.reverseRecOn generalizing xs with
  | nil => rfl
  | append_singleton changes c ih =>
    rw [undoChanges_append, ih]
    simp [undoChanges]

/-- Undoing changes works entry by entry, so it commutes with cutting the list. -/
lemma take_undoChanges :
    (undoChanges place restore changes xs).take size =
      undoChanges place restore changes (xs.take size) := by
  induction changes using List.reverseRecOn generalizing xs with
  | nil => rfl
  | append_singleton changes c ih =>
    rw [undoChanges_append, undoChanges_append, ih]
    congr 1
    simpa [undoChanges] using List.take_modify (restore c) (place c) size xs

/-- A fresh checkpoint restores the state it was taken in. -/
lemma Restores.checkpoint (xs : List α) : Restores place restore xs.length [] xs xs :=
  ⟨rfl, le_rfl, by simp [rewind]⟩

/-- Appending needs no log entry. -/
lemma Restores.append (h : Restores place restore size changes xs₀ xs) (ys : List α) :
    Restores place restore size changes xs₀ (xs ++ ys) where
  size_eq := h.size_eq
  size_le := h.size_le.trans (by simp)
  rewind_eq := by
    rw [← h.rewind_eq, rewind, rewind, take_undoChanges, take_undoChanges,
      List.take_append_of_le_length h.size_le]

/-- Changing an entry in place is undone by the entry logged for it. -/
lemma Restores.modify (h : Restores place restore size changes xs₀ xs) {c : δ} {f : α → α}
    (hc : ∀ x, xs[place c]? = some x → restore c (f x) = x) :
    Restores place restore size (changes ++ [c]) xs₀ (xs.modify (place c) f) where
  size_eq := h.size_eq
  size_le := by simpa using h.size_le
  rewind_eq := by
    have hback : undoChanges place restore [c] (xs.modify (place c) f) = xs := by
      simp only [undoChanges, List.reverse_cons, List.reverse_nil, List.nil_append,
        List.foldl_cons, List.foldl_nil]
      rw [List.modify_modify_eq]
      apply List.ext_getElem?
      intro i
      rw [List.getElem?_modify]
      cases hx : xs[i]? with
      | none => rfl
      | some x =>
        by_cases hi : place c = i
        · subst hi
          simp [hc x hx]
        · simp [hi]
    rw [rewind, undoChanges_append, hback]
    exact h.rewind_eq

/-- The log of an inner scope, appended to the log of the enclosing scope, restores the state
at the start of the enclosing scope.  The length logged by the inner scope is not needed. -/
lemma Restores.merge (h : Restores place restore size changes xs₀ xs)
    (h₁ : Restores place restore size₁ changes₁ xs ys) :
    Restores place restore size (changes ++ changes₁) xs₀ ys where
  size_eq := h.size_eq
  size_le := h.size_le.trans (h₁.size_eq ▸ h₁.size_le)
  rewind_eq := by
    have hsplit : undoChanges place restore changes₁ ys =
        xs ++ (undoChanges place restore changes₁ ys).drop size₁ := by
      conv_lhs => rw [← List.take_append_drop size₁ (undoChanges place restore changes₁ ys)]
      rw [← h₁.rewind_eq, rewind]
    rw [rewind, undoChanges_append, hsplit, take_undoChanges,
      List.take_append_of_le_length h.size_le, ← take_undoChanges]
    exact h.rewind_eq

end Lists

/-! ## Maps -/

section Maps

variable {κ α : Type} {cmp : κ → κ → Ordering} [Std.TransCmp cmp]

/-- Erase the keys that were logged as inserted. -/
def eraseKeys (keys : List κ) (m : Std.ExtTreeMap κ α cmp) : Std.ExtTreeMap κ α cmp :=
  keys.foldl (fun m k => m.erase k) m

variable {keys keys₁ : List κ} {m₀ m m₁ : Std.ExtTreeMap κ α cmp}

@[simp]
lemma eraseKeys_nil : eraseKeys [] m = m := rfl

variable [Std.LawfulEqCmp cmp]

lemma erase_erase_comm (k k' : κ) : (m.erase k).erase k' = (m.erase k').erase k := by
  apply Std.ExtTreeMap.ext_getElem?
  intro a
  simp only [Std.ExtTreeMap.getElem?_erase]
  split <;> split <;> rfl

lemma eraseKeys_erase (k : κ) : eraseKeys keys (m.erase k) = (eraseKeys keys m).erase k := by
  induction keys generalizing m with
  | nil => rfl
  | cons k' keys ih =>
    simp only [eraseKeys, List.foldl_cons] at ih ⊢
    rw [erase_erase_comm, ih]

lemma eraseKeys_append : eraseKeys (keys ++ keys₁) m = eraseKeys keys (eraseKeys keys₁ m) := by
  induction keys₁ generalizing m with
  | nil => simp
  | cons k keys₁ ih =>
    have hk : eraseKeys (k :: keys₁) m = eraseKeys keys₁ (m.erase k) := rfl
    rw [hk, ← ih]
    simp only [eraseKeys, List.foldl_append, List.foldl_cons]
    rw [show List.foldl (fun m k => m.erase k) m keys = eraseKeys keys m from rfl,
      ← eraseKeys_erase]
    rfl

/-- Erasing a key that was not present before it was inserted gives the map back. -/
lemma erase_insert_of_not_mem {k : κ} (h : k ∉ m) (v : α) : (m.insert k v).erase k = m := by
  apply Std.ExtTreeMap.ext_getElem?
  intro a
  rw [Std.ExtTreeMap.getElem?_erase, Std.ExtTreeMap.getElem?_insert]
  split
  · rename_i ha
    rw [Std.LawfulEqCmp.eq_of_compare ha] at h
    exact (Std.ExtTreeMap.getElem?_eq_none h).symm
  · rfl

/-- Inserting a new key and logging it keeps the log correct. -/
lemma eraseKeys_insert (h : eraseKeys keys m = m₀) {k : κ} (hk : k ∉ m) (v : α) :
    eraseKeys (keys ++ [k]) (m.insert k v) = m₀ := by
  rw [eraseKeys_append]
  simp only [eraseKeys, List.foldl_cons, List.foldl_nil]
  rw [erase_insert_of_not_mem hk]
  exact h

end Maps

end UndoLog
