import IntelCamera.Lib.Bytes
import Mathlib.Data.Set.Lattice
import Mathlib.Order.CompletePartialOrder
import Mathlib.Order.Interval.Set.Basic

/-!
# Lib.Memory — flat memory

A memory gives every address its cell.  `read` and `write` move blocks of cells; `write_eqOn` is the
frame of a write, and `read_eqOn` the block reads it leaves alone.  An array of `k` slots of `n`
cells at `p` is the interval from `p` to `p + k * n`, its slots are pairwise disjoint.
-/

namespace Lib

/-- The cell of each address. -/
def Mem (α : Type*) := ℕ → α

namespace Mem

variable {α : Type*} {m m' : Mem α}

/-- The `n` cells at `a`. -/
def read (m : Mem α) (a n : ℕ) : List α := (List.range n).map fun i => m (a + i)

/-- `m` with `src` written at `a`. -/
def write (m : Mem α) (a : ℕ) (src : List α) : Mem α := fun x =>
  if a ≤ x then (src[x - a]?).getD (m x) else m x

@[simp] theorem length_read (m : Mem α) (a n : ℕ) : (m.read a n).length = n := by
  unfold read
  rw [List.length_map, List.length_range]

theorem getElem?_read (m : Mem α) (a n i : ℕ) :
    (m.read a n)[i]? = if i < n then some (m (a + i)) else none := by
  unfold read
  rw [List.getElem?_map]
  by_cases h : i < n
  · rw [List.getElem?_range h, if_pos h]
    rfl
  · rw [List.getElem?_eq_none (by rw [List.length_range]; omega), if_neg h]
    rfl

/-- A write changes only the cells it is for. -/
theorem write_eqOn (m : Mem α) (a : ℕ) (src : List α) :
    Set.EqOn (m.write a src) m (Set.Ico a (a + src.length))ᶜ := by
  intro x hx
  unfold write
  split_ifs with h
  · have hlen : src.length ≤ x - a := by
      by_contra hlt
      exact hx ⟨h, by omega⟩
    rw [List.getElem?_eq_none hlen]
    rfl
  · rfl

/-- Memories that agree on a block read it alike. -/
theorem read_eqOn {S : Set ℕ} (h : Set.EqOn m' m S) {a n : ℕ} (hs : Set.Ico a (a + n) ⊆ S) :
    m'.read a n = m.read a n := by
  apply List.ext_getElem?
  intro i
  rw [getElem?_read, getElem?_read]
  by_cases hi : i < n
  · rw [if_pos hi, if_pos hi, h (hs ⟨by omega, by omega⟩)]
  · rw [if_neg hi, if_neg hi]

/-- A cell that was written. -/
theorem write_inside (m : Mem α) (a : ℕ) {src : List α} {i : ℕ} (h : i < src.length) :
    some (m.write a src (a + i)) = src[i]? := by
  unfold write
  rw [if_pos (by omega), Nat.add_sub_cancel_left, List.getElem?_eq_getElem h]
  rfl

/-- A write into a block that is read. -/
theorem read_write {a o n : ℕ} {src : List α} (h : o + src.length ≤ n) :
    (m.write (a + o) src).read a n = memcpy (m.read a n) o src := by
  apply List.ext_getElem?
  intro i
  rw [getElem?_read, getElem?_memcpy src (by rw [length_read]; omega), getElem?_read]
  by_cases h1 : i < o
  · rw [if_pos h1, write_eqOn m (a + o) src fun hx => absurd hx.1 (by omega)]
  · rw [if_neg h1]
    by_cases h2 : i < o + src.length
    · rw [if_pos h2, if_pos (by omega), show a + i = a + o + (i - o) by omega]
      exact write_inside m (a + o) (by omega)
    · rw [if_neg h2, write_eqOn m (a + o) src fun hx => absurd hx.2 (by omega)]

/-- A block inside a block. -/
theorem slice_read (m : Mem α) (a : ℕ) {o k n : ℕ} (h : o + k ≤ n) :
    slice (m.read a n) o k = m.read (a + o) k := by
  apply List.ext_getElem?
  intro i
  rw [getElem?_slice, getElem?_read, getElem?_read]
  by_cases hi : i < k
  · rw [if_pos hi, if_pos hi, if_pos (by omega), Nat.add_assoc]
  · rw [if_neg hi, if_neg hi]

/-- What was written is read back. -/
theorem read_write_self (a : ℕ) (src : List α) : (m.write a src).read a src.length = src := by
  have h : (m.write (a + 0) src).read a src.length = memcpy (m.read a src.length) 0 src :=
    read_write (by omega)
  rw [Nat.add_zero] at h
  rw [h, memcpy_all (length_read m a src.length)]

/-- A part of what was written is read back. -/
theorem read_write_part {o k n : ℕ} {src : List α} (h : k + n ≤ src.length) :
    (m.write o src).read (o + k) n = slice src k n := by
  rw [← slice_read _ o h, read_write_self]

/-- A write leaves the blocks it does not meet. -/
theorem read_write_disjoint {a n o : ℕ} {src : List α} (h : a + n ≤ o ∨ o + src.length ≤ a) :
    (m.write o src).read a n = m.read a n := by
  refine read_eqOn (write_eqOn m o src) fun x hx hin => ?_
  have h1 := hx.1
  have h2 := hx.2
  have h3 := hin.1
  have h4 := hin.2
  omega

end Mem

/-! ### Arrays -/

/-- The slot `i` of an array of slots of `n` cells at `p`. -/
def slot (p n i : ℕ) : Set ℕ := Set.Ico (p + i * n) (p + i * n + n)

theorem slot_disjoint (p n : ℕ) {i j : ℕ} (h : i ≠ j) : Disjoint (slot p n i) (slot p n j) := by
  have key : ∀ {i j : ℕ}, i < j → i * n + n ≤ j * n := fun {i j} hlt =>
    calc i * n + n = (i + 1) * n := by ring
      _ ≤ j * n := Nat.mul_le_mul_right n hlt
  rw [Set.disjoint_left]
  rintro x ⟨h1, h2⟩ ⟨h3, h4⟩
  rcases Nat.lt_or_gt_of_ne h with hlt | hlt
  · have := key hlt
    omega
  · have := key hlt
    omega

theorem slot_subset (p n : ℕ) {i k : ℕ} (h : i < k) : slot p n i ⊆ Set.Ico p (p + k * n) := by
  have key : i * n + n ≤ k * n :=
    calc i * n + n = (i + 1) * n := by ring
      _ ≤ k * n := Nat.mul_le_mul_right n h
  rintro x ⟨h1, h2⟩
  exact ⟨by omega, by omega⟩

end Lib
