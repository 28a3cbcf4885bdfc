import Mathlib

/-
# Machines with a bounded undo stack

A machine applies inputs to a state and keeps, for the last inputs, a record from which the
state before the input is recovered.  A run applies inputs and takes the newest one back, in any
order, as long as a record is left; the stack is cut to a limit after every application.  An
input may read the inputs that are in force when it is applied (the *chain*).

The state after a run is the state obtained by applying the chain alone, in order, from the
initial state.  Hence whatever holds of every replayed chain holds after every run.
-/

namespace Reorg

/-- A machine over inputs `β`, states `σ` and undo records `υ`. -/
structure Machine (β σ υ : Type) where
  init : σ
  /-- Apply an input on top of a chain; `none` when the input is refused. -/
  step : List β → β → σ → Option (σ × υ)
  /-- Take the newest input back. -/
  revert : υ → σ → σ
  revert_step : ∀ {bs b s s' u}, step bs b s = some (s', u) → revert u s' = s

/-- The last `n` entries of a list. -/
def keepLast {α : Type} (n : ℕ) (xs : List α) : List α := xs.drop (xs.length - n)

lemma keepLast_isSuffix {α : Type} (n : ℕ) (xs : List α) : keepLast n xs <:+ xs :=
  List.drop_suffix ..

variable {β σ υ : Type} {m : Machine β σ υ} {limit : ℕ} {bs : List β} {s : σ} {us : List υ}

/-- The chain, the state and the undo stack after a run. -/
inductive Run (m : Machine β σ υ) (limit : ℕ) : List β → σ → List υ → Prop
  | start : Run m limit [] m.init []
  | apply {bs s us b s' u} : Run m limit bs s us → m.step bs b s = some (s', u) →
      Run m limit (bs ++ [b]) s' (keepLast limit (us ++ [u]))
  | disconnect {bs s us u} : Run m limit bs s (us ++ [u]) →
      Run m limit bs.dropLast (m.revert u s) us

/-- The state and all undo records after applying a chain in order. -/
inductive Replay (m : Machine β σ υ) : List β → σ → List υ → Prop
  | start : Replay m [] m.init []
  | apply {bs s us b s' u} : Replay m bs s us → m.step bs b s = some (s', u) →
      Replay m (bs ++ [b]) s' (us ++ [u])

/-- The last step of a replay whose records end in `u`. -/
lemma Replay.eq_append {u : υ} (h : Replay m bs s (us ++ [u])) :
    ∃ bs' b s', bs = bs' ++ [b] ∧ Replay m bs' s' us ∧ m.step bs' b s' = some (s, u) := by
  generalize hus : us ++ [u] = us' at h
  cases h with
  | start => simp at hus
  | apply h hstep =>
    obtain ⟨rfl, rfl⟩ := List.append_inj' hus rfl |>.imp_right List.singleton_inj.mp
    exact ⟨_, _, _, rfl, h, hstep⟩

/-- A chain determines the state it is replayed to. -/
lemma Replay.unique {s₁ s₂ : σ} {us₁ us₂ : List υ} (h₁ : Replay m bs s₁ us₁)
    (h₂ : Replay m bs s₂ us₂) : s₁ = s₂ ∧ us₁ = us₂ := by
  induction h₁ generalizing s₂ us₂ with
  | start =>
    generalize hbs : ([] : List β) = bs at h₂
    cases h₂ with
    | start => exact ⟨rfl, rfl⟩
    | apply => simp at hbs
  | @apply bs s us b s' u _ hstep ih =>
    generalize hbs : bs ++ [b] = bs' at h₂
    cases h₂ with
    | start => simp at hbs
    | apply h₂ hstep₂ =>
      obtain ⟨rfl, rfl⟩ := List.append_inj' hbs rfl |>.imp_right List.singleton_inj.mp
      obtain ⟨rfl, rfl⟩ := ih h₂
      rw [hstep] at hstep₂
      obtain ⟨rfl, rfl⟩ := Prod.mk.inj (Option.some.inj hstep₂)
      exact ⟨rfl, rfl⟩

/-- **A run ends in the state of its chain**, and its undo stack holds the newest records of the
replay of the chain. -/
theorem Run.replay (h : Run m limit bs s us) : ∃ full, Replay m bs s full ∧ us <:+ full := by
  induction h with
  | start => exact ⟨[], .start, List.suffix_rfl⟩
  | @apply bs s us b s' u _ hstep ih =>
    obtain ⟨full, hfull, hsuf⟩ := ih
    refine ⟨full ++ [u], hfull.apply hstep, (keepLast_isSuffix ..).trans ?_⟩
    obtain ⟨front, rfl⟩ := hsuf
    exact ⟨front, by simp⟩
  | @disconnect bs s us u _ ih =>
    obtain ⟨full, hfull, front, rfl⟩ := ih
    rw [← List.append_assoc] at hfull
    obtain ⟨bs', b, s', rfl, hfull', hstep⟩ := hfull.eq_append
    rw [List.dropLast_concat, m.revert_step hstep]
    exact ⟨_, hfull', List.suffix_append ..⟩

/-- What holds initially and is kept by every step holds along every replay. -/
theorem Replay.invariant {P : List β → σ → Prop} (hinit : P [] m.init)
    (hstep : ∀ {bs b s s' u}, P bs s → m.step bs b s = some (s', u) → P (bs ++ [b]) s')
    (h : Replay m bs s us) : P bs s := by
  induction h with
  | start => exact hinit
  | apply _ hs ih => exact hstep ih hs

/-- What holds after a chain and is kept by every step holds after every longer chain. -/
theorem Replay.invariant_from {P : σ → Prop} {s₁ : σ} {us₁ : List υ} (h₁ : Replay m bs s₁ us₁)
    (hP : P s₁) (hstep : ∀ {bs b s s' u}, P s → m.step bs b s = some (s', u) → P s')
    {later : List β} (h : Replay m (bs ++ later) s us) : P s := by
  induction later using List.reverseRecOn generalizing s us with
  | nil =>
    rw [List.append_nil] at h
    rwa [(h.unique h₁).1]
  | append_singleton later b ih =>
    generalize hbs : bs ++ (later ++ [b]) = bs' at h
    cases h with
    | start => simp at hbs
    | apply h hs =>
      rw [← List.append_assoc] at hbs
      obtain ⟨rfl, rfl⟩ := List.append_inj' hbs rfl |>.imp_right List.singleton_inj.mp
      exact hstep (ih h) hs

/-- What holds initially and is kept by every step holds after every run. -/
theorem Run.invariant {P : List β → σ → Prop} (hinit : P [] m.init)
    (hstep : ∀ {bs b s s' u}, P bs s → m.step bs b s = some (s', u) → P (bs ++ [b]) s')
    (h : Run m limit bs s us) : P bs s := by
  obtain ⟨full, hfull, -⟩ := h.replay
  exact hfull.invariant hinit hstep

end Reorg
