import Mathlib.Data.List.Basic
import Mathlib.Tactic.Ring
import Mathlib.Tactic.NormNum
import Qwertycoin.Lib.Sorting

/-
# Byte strings

Fixed-size byte blocks, the order `memcmp` puts on them, little-endian integers, seven-bit
variable-length integers and readers that consume a byte string from the front.  Everything is
structurally recursive, so that the kernel can run an encoder or a reader on a concrete string.
-/

namespace Bytes

/-- A block of exactly `n` bytes. -/
@[ext]
structure Block (n : ℕ) where
  data : List UInt8
  length_data : data.length = n
deriving DecidableEq

namespace Block

variable {n : ℕ}

attribute [simp] length_data

lemma data_injective : Function.Injective (data : Block n → List UInt8) :=
  fun _ _ h => Block.ext h

/-- The block of `n` zero bytes. -/
def zero (n : ℕ) : Block n := ⟨List.replicate n 0, List.length_replicate ..⟩

instance : Inhabited (Block n) := ⟨zero n⟩

end Block

/-! ## The order of `memcmp` -/

/-- `memcmp(left, right, n) < 0` on strings of one length. -/
def memLess : List UInt8 → List UInt8 → Bool
  | a :: as, b :: bs => a < b || (a = b && memLess as bs)
  | _, _ => false

lemma memLess_irrefl (as : List UInt8) : memLess as as = false := by
  induction as with
  | nil => rfl
  | cons a as ih => simp [memLess, ih]

lemma memLess_trans {as bs cs : List UInt8} (h : memLess as bs = true)
    (h' : memLess bs cs = true) : memLess as cs = true := by
  induction as generalizing bs cs with
  | nil => simp [memLess] at h
  | cons a as ih =>
    cases bs with
    | nil => simp [memLess] at h
    | cons b bs =>
      cases cs with
      | nil => simp [memLess] at h'
      | cons c cs =>
        simp only [memLess, Bool.or_eq_true, decide_eq_true_eq, Bool.and_eq_true] at h h' ⊢
        rcases h with hab | ⟨rfl, hab⟩
        · rcases h' with hbc | ⟨rfl, -⟩
          · exact Or.inl (UInt8.lt_trans hab hbc)
          · exact Or.inl hab
        · rcases h' with hbc | ⟨rfl, hbc⟩
          · exact Or.inl hbc
          · exact Or.inr ⟨rfl, ih hab hbc⟩

/-- Two different strings of one length are ordered one way or the other. -/
lemma memLess_connected {as bs : List UInt8} (hlen : as.length = bs.length) (hne : as ≠ bs) :
    memLess as bs = true ∨ memLess bs as = true := by
  induction as generalizing bs with
  | nil => exact absurd (List.length_eq_zero_iff.mp hlen.symm).symm hne
  | cons a as ih =>
    cases bs with
    | nil => simp at hlen
    | cons b bs =>
      simp only [List.length_cons, Nat.add_right_cancel_iff] at hlen
      simp only [memLess, Bool.or_eq_true, decide_eq_true_eq, Bool.and_eq_true]
      by_cases hab : a = b
      · subst hab
        have hne' : as ≠ bs := fun h => hne (by rw [h])
        exact (ih hlen hne').imp (fun h => Or.inr ⟨rfl, h⟩) (fun h => Or.inr ⟨rfl, h⟩)
      · rcases UInt8.lt_or_lt_of_ne hab with h | h
        · exact Or.inl (Or.inl h)
        · exact Or.inr (Or.inl h)

/-- `memcmp` sorts blocks of one size. -/
lemma strictWeak_memLess {n : ℕ} :
    Sorting.StrictWeak fun left right : Block n => memLess left.data right.data := by
  constructor
  · intro a b hab
    by_contra hba
    have hloop := memLess_trans hab (Bool.not_eq_false _ ▸ hba)
    rw [memLess_irrefl] at hloop
    cases hloop
  · intro a c b hac
    by_cases hab : a.data = b.data
    · exact Or.inr (hab ▸ hac)
    · exact (memLess_connected (by simp) hab).imp_right fun hba => memLess_trans hba hac

/-- Different blocks are told apart. -/
lemma apart_memLess {n : ℕ} {left right : Block n} (h : left ≠ right) :
    Sorting.Apart (fun left right : Block n => memLess left.data right.data) left right :=
  memLess_connected (by simp) fun heq => h (Block.ext heq)

/-! ## Little-endian integers -/

/-- The `w` low bytes of `v`, least significant first. -/
def leBytes : ℕ → ℕ → List UInt8
  | 0, _ => []
  | w + 1, v => UInt8.ofNat (v % 256) :: leBytes w (v / 256)

/-- The number whose little-endian bytes are given. -/
def leValue : List UInt8 → ℕ
  | [] => 0
  | b :: bs => b.toNat + 256 * leValue bs

@[simp]
lemma length_leBytes (w v : ℕ) : (leBytes w v).length = w := by
  induction w generalizing v with
  | zero => rfl
  | succ w ih => simp [leBytes, ih]

lemma leValue_lt (bs : List UInt8) : leValue bs < 256 ^ bs.length := by
  induction bs with
  | nil => simp [leValue]
  | cons b bs ih =>
    have hb := b.toNat_lt
    rw [leValue, List.length_cons, pow_succ]
    omega

lemma leValue_leBytes {w v : ℕ} (h : v < 256 ^ w) : leValue (leBytes w v) = v := by
  induction w generalizing v with
  | zero => simp only [pow_zero, Nat.lt_one_iff] at h; simp [leBytes, leValue, h]
  | succ w ih =>
    have hdiv : v / 256 < 256 ^ w := by
      rw [pow_succ] at h
      omega
    have hlow : (UInt8.ofNat (v % 256)).toNat = v % 256 := by
      rw [UInt8.toNat_ofNat']
      omega
    rw [leBytes, leValue, ih hdiv, hlow]
    omega

lemma leBytes_leValue (bs : List UInt8) : leBytes bs.length (leValue bs) = bs := by
  induction bs with
  | nil => rfl
  | cons b bs ih =>
    have hb := b.toNat_lt
    have hlow : (b.toNat + 256 * leValue bs) % 256 = b.toNat := by omega
    have hhigh : (b.toNat + 256 * leValue bs) / 256 = leValue bs := by omega
    rw [List.length_cons, leValue, leBytes, hlow, hhigh, ih, UInt8.ofNat_toNat]

/-- The block of the `n` low bytes of a number. -/
def Block.ofNat (n v : ℕ) : Block n := ⟨leBytes n v, length_leBytes n v⟩

lemma Block.ofNat_inj {n v w : ℕ} (hv : v < 256 ^ n) (hw : w < 256 ^ n) :
    Block.ofNat n v = Block.ofNat n w ↔ v = w := by
  constructor
  · intro h
    rw [← leValue_leBytes hv, ← leValue_leBytes hw]
    exact congrArg (fun block : Block n => leValue block.data) h
  · rintro rfl
    rfl

lemma Block.ofNat_zero (n : ℕ) : Block.ofNat n 0 = Block.zero n := by
  refine Block.ext ?_
  change leBytes n 0 = List.replicate n 0
  induction n with
  | zero => rfl
  | succ n ih => rw [leBytes, List.replicate_succ, Nat.zero_div, ih]; rfl

lemma Block.ofNat_ne_zero {n v : ℕ} (hpos : 0 < v) (hv : v < 256 ^ n) :
    Block.ofNat n v ≠ Block.zero n := by
  rw [← ofNat_zero, ne_eq, ofNat_inj hv (by positivity)]
  omega

/-- Eight little-endian bytes. -/
def u64 (v : UInt64) : List UInt8 := leBytes 8 v.toNat

/-- Four little-endian bytes. -/
def u32 (v : UInt32) : List UInt8 := leBytes 4 v.toNat

/-- Two little-endian bytes. -/
def u16 (v : UInt16) : List UInt8 := leBytes 2 v.toNat

@[simp] lemma length_u64 (v : UInt64) : (u64 v).length = 8 := length_leBytes ..
@[simp] lemma length_u32 (v : UInt32) : (u32 v).length = 4 := length_leBytes ..
@[simp] lemma length_u16 (v : UInt16) : (u16 v).length = 2 := length_leBytes ..

/-! ## Seven-bit groups -/

/-- `v` in groups of seven bits, low group first, every group but the last marked by its high
bit; at most `k + 1` groups are written. -/
def groups : ℕ → ℕ → List UInt8
  | 0, v => [UInt8.ofNat v]
  | k + 1, v =>
    if v < 128 then [UInt8.ofNat v] else UInt8.ofNat (v % 128 + 128) :: groups k (v / 128)

/-- The variable-length form of a number below `2 ^ 64`: ten groups always suffice. -/
def varint (v : ℕ) : List UInt8 := groups 9 v

/-! ## Readers -/

/-- A reader consumes bytes from the front of a string, or fails. -/
abbrev Reader (α : Type) := StateT (List UInt8) Option α

namespace Reader

/-- One byte. -/
def byte : Reader UInt8 := fun
  | [] => none
  | b :: bs => some (b, bs)

/-- A block of `n` bytes. -/
def block (n : ℕ) : Reader (Block n) := fun bs =>
  if h : n ≤ bs.length then some (⟨bs.take n, List.length_take_of_le h⟩, bs.drop n) else none

/-- The value of `w` little-endian bytes. -/
def le (w : ℕ) : Reader ℕ := fun bs =>
  if w ≤ bs.length then some (leValue (bs.take w), bs.drop w) else none

/-- Eight little-endian bytes. -/
def u64 : Reader UInt64 := do return UInt64.ofNat (← le 8)

/-- Four little-endian bytes. -/
def u32 : Reader UInt32 := do return UInt32.ofNat (← le 4)

/-- Two little-endian bytes. -/
def u16 : Reader UInt16 := do return UInt16.ofNat (← le 2)

@[simp]
lemma run_byte_cons (b : UInt8) (bs : List UInt8) : byte.run (b :: bs) = some (b, bs) := rfl

@[simp]
lemma run_block_append {n : ℕ} (b : Block n) (bs : List UInt8) :
    (block n).run (b.data ++ bs) = some (b, bs) := by
  have hlen : n ≤ (b.data ++ bs).length := by simp
  have htake : (b.data ++ bs).take n = b.data := List.take_left' b.length_data
  have hdrop : (b.data ++ bs).drop n = bs := List.drop_left' b.length_data
  simp only [block, StateT.run, dif_pos hlen, hdrop]
  congr 2
  exact Block.ext htake

lemma run_le_append {w : ℕ} {as : List UInt8} (h : as.length = w) (bs : List UInt8) :
    (le w).run (as ++ bs) = some (leValue as, bs) := by
  have hlen : w ≤ (as ++ bs).length := by simp [h]
  simp only [le, StateT.run, if_pos hlen, List.take_left' h, List.drop_left' h]

@[simp]
lemma run_u64_append (v : UInt64) (bs : List UInt8) :
    u64.run (Bytes.u64 v ++ bs) = some (v, bs) := by
  have hv : leValue (Bytes.u64 v) = v.toNat := leValue_leBytes v.toNat_lt
  simp [u64, run_le_append (length_u64 v), hv]

@[simp]
lemma run_u32_append (v : UInt32) (bs : List UInt8) :
    u32.run (Bytes.u32 v ++ bs) = some (v, bs) := by
  have hv : leValue (Bytes.u32 v) = v.toNat := leValue_leBytes v.toNat_lt
  simp [u32, run_le_append (length_u32 v), hv]

@[simp]
lemma run_u16_append (v : UInt16) (bs : List UInt8) :
    u16.run (Bytes.u16 v ++ bs) = some (v, bs) := by
  have hv : leValue (Bytes.u16 v) = v.toNat := leValue_leBytes v.toNat_lt
  simp [u16, run_le_append (length_u16 v), hv]

lemma eq_cons_of_run_byte {b : UInt8} {bs rest : List UInt8}
    (h : byte.run bs = some (b, rest)) : bs = b :: rest := by
  cases bs with
  | nil => simp [byte, StateT.run] at h
  | cons c cs =>
    obtain ⟨rfl, rfl⟩ : c = b ∧ cs = rest := by simpa [byte, StateT.run] using h
    rfl

lemma eq_append_of_run_block {n : ℕ} {b : Block n} {bs rest : List UInt8}
    (h : (block n).run bs = some (b, rest)) : bs = b.data ++ rest := by
  simp only [block, StateT.run] at h
  split at h
  · obtain ⟨rfl, rfl⟩ := Prod.mk.inj (Option.some.inj h)
    exact (List.take_append_drop n bs).symm
  · simp at h

lemma eq_append_of_run_le {w v : ℕ} {bs rest : List UInt8} (h : (le w).run bs = some (v, rest)) :
    bs = leBytes w v ++ rest ∧ v < 256 ^ w := by
  simp only [le, StateT.run] at h
  split at h
  · rename_i hlen
    obtain ⟨rfl, rfl⟩ := Prod.mk.inj (Option.some.inj h)
    have hlen' : (bs.take w).length = w := List.length_take_of_le hlen
    have hback := leBytes_leValue (bs.take w)
    have hlt := leValue_lt (bs.take w)
    rw [hlen'] at hback hlt
    exact ⟨by rw [hback, List.take_append_drop], hlt⟩
  · simp at h

lemma eq_append_of_run_u64 {v : UInt64} {bs rest : List UInt8}
    (h : u64.run bs = some (v, rest)) : bs = Bytes.u64 v ++ rest := by
  simp only [u64, StateT.run_bind, StateT.run_pure, Option.bind_eq_bind,
    Option.bind_eq_some_iff, Prod.exists, Option.pure_def, Option.some.injEq, Prod.mk.injEq] at h
  obtain ⟨k, rest', hk, rfl, rfl⟩ := h
  obtain ⟨hbs, hlt⟩ := eq_append_of_run_le hk
  rw [hbs, Bytes.u64, UInt64.toNat_ofNat_of_lt' (by simpa using hlt)]

lemma eq_append_of_run_u32 {v : UInt32} {bs rest : List UInt8}
    (h : u32.run bs = some (v, rest)) : bs = Bytes.u32 v ++ rest := by
  simp only [u32, StateT.run_bind, StateT.run_pure, Option.bind_eq_bind,
    Option.bind_eq_some_iff, Prod.exists, Option.pure_def, Option.some.injEq, Prod.mk.injEq] at h
  obtain ⟨k, rest', hk, rfl, rfl⟩ := h
  obtain ⟨hbs, hlt⟩ := eq_append_of_run_le hk
  rw [hbs, Bytes.u32, UInt32.toNat_ofNat_of_lt' (by simpa using hlt)]

lemma eq_append_of_run_u16 {v : UInt16} {bs rest : List UInt8}
    (h : u16.run bs = some (v, rest)) : bs = Bytes.u16 v ++ rest := by
  simp only [u16, StateT.run_bind, StateT.run_pure, Option.bind_eq_bind,
    Option.bind_eq_some_iff, Prod.exists, Option.pure_def, Option.some.injEq, Prod.mk.injEq] at h
  obtain ⟨k, rest', hk, rfl, rfl⟩ := h
  obtain ⟨hbs, hlt⟩ := eq_append_of_run_le hk
  rw [hbs, Bytes.u16, UInt16.toNat_ofNat_of_lt' (by simpa using hlt)]

section Sequence

variable {α : Type} {n : ℕ} {input rest : List UInt8} {value : α}

lemma run_bind_byte (b : UInt8) (next : UInt8 → Reader α) (rest : List UInt8) :
    (byte >>= next).run (b :: rest) = (next b).run rest := rfl

lemma run_bind_block (b : Block n) (next : Block n → Reader α) (rest : List UInt8) :
    (block n >>= next).run (b.data ++ rest) = (next b).run rest := by
  rw [StateT.run_bind, run_block_append]
  rfl

lemma run_bind_u64 (v : UInt64) (next : UInt64 → Reader α) (rest : List UInt8) :
    (u64 >>= next).run (Bytes.u64 v ++ rest) = (next v).run rest := by
  rw [StateT.run_bind, run_u64_append]
  rfl

lemma run_bind_u32 (v : UInt32) (next : UInt32 → Reader α) (rest : List UInt8) :
    (u32 >>= next).run (Bytes.u32 v ++ rest) = (next v).run rest := by
  rw [StateT.run_bind, run_u32_append]
  rfl

lemma run_bind_u16 (v : UInt16) (next : UInt16 → Reader α) (rest : List UInt8) :
    (u16 >>= next).run (Bytes.u16 v ++ rest) = (next v).run rest := by
  rw [StateT.run_bind, run_u16_append]
  rfl

/-- A reader in sequence: the first part is read off the front. -/
lemma of_run_bind {β : Type} {first : Reader β} {next : β → Reader α}
    (h : (first >>= next).run input = some (value, rest)) :
    ∃ part middle, first.run input = some (part, middle) ∧
      (next part).run middle = some (value, rest) := by
  rw [StateT.run_bind] at h
  obtain ⟨⟨part, middle⟩, hfirst, hnext⟩ := Option.bind_eq_some_iff.mp h
  exact ⟨part, middle, hfirst, hnext⟩

lemma of_run_bind_byte {next : UInt8 → Reader α}
    (h : (byte >>= next).run input = some (value, rest)) :
    ∃ b middle, input = b :: middle ∧ (next b).run middle = some (value, rest) := by
  obtain ⟨b, middle, hfirst, hnext⟩ := of_run_bind h
  exact ⟨b, middle, eq_cons_of_run_byte hfirst, hnext⟩

lemma of_run_bind_block {next : Block n → Reader α}
    (h : (block n >>= next).run input = some (value, rest)) :
    ∃ b middle, input = b.data ++ middle ∧ (next b).run middle = some (value, rest) := by
  obtain ⟨b, middle, hfirst, hnext⟩ := of_run_bind h
  exact ⟨b, middle, eq_append_of_run_block hfirst, hnext⟩

lemma of_run_bind_u64 {next : UInt64 → Reader α}
    (h : (u64 >>= next).run input = some (value, rest)) :
    ∃ v middle, input = Bytes.u64 v ++ middle ∧ (next v).run middle = some (value, rest) := by
  obtain ⟨v, middle, hfirst, hnext⟩ := of_run_bind h
  exact ⟨v, middle, eq_append_of_run_u64 hfirst, hnext⟩

lemma of_run_bind_u32 {next : UInt32 → Reader α}
    (h : (u32 >>= next).run input = some (value, rest)) :
    ∃ v middle, input = Bytes.u32 v ++ middle ∧ (next v).run middle = some (value, rest) := by
  obtain ⟨v, middle, hfirst, hnext⟩ := of_run_bind h
  exact ⟨v, middle, eq_append_of_run_u32 hfirst, hnext⟩

lemma of_run_bind_u16 {next : UInt16 → Reader α}
    (h : (u16 >>= next).run input = some (value, rest)) :
    ∃ v middle, input = Bytes.u16 v ++ middle ∧ (next v).run middle = some (value, rest) := by
  obtain ⟨v, middle, hfirst, hnext⟩ := of_run_bind h
  exact ⟨v, middle, eq_append_of_run_u16 hfirst, hnext⟩

end Sequence

end Reader

end Bytes
