import Mathlib.Data.List.Basic
import Mathlib.Tactic.Ring
import Mathlib.Tactic.NormNum

/-!
# Lib.Bytes — byte strings: little-endian words, slices, `memcpy` and `memmove`

A memory area is a `List`.  `slice l o n` reads `n` cells at `o`; `memcpy l o src` overwrites the
cells of `l` at `o` with `src`; `memmove l d s n` copies `n` cells of `l` from `s` to `d`.  The read
lemmas (`getElem?_slice`, `getElem?_memcpy`) reduce every statement about them to one cell, and the
lemmas used by clients say which slices survive a write.  `leBytes w n` is the `w`-byte
little-endian encoding of `n`, `leNat` its inverse below `256 ^ w`.
-/

namespace Lib

/-! ### Slices and writes -/

section Areas

variable {α : Type*}

/-- The `n` cells of `l` that start at `o`. -/
def slice (l : List α) (o n : ℕ) : List α := (l.drop o).take n

/-- `l` with `src` written over the cells that start at `o`. -/
def memcpy (l : List α) (o : ℕ) (src : List α) : List α := l.take o ++ src ++ l.drop (o + src.length)

/-- `l` with its `n` cells at `s` copied to `d`. -/
def memmove (l : List α) (d s n : ℕ) : List α := memcpy l d (slice l s n)

theorem getElem?_slice (l : List α) (o n i : ℕ) :
    (slice l o n)[i]? = if i < n then l[o + i]? else none := by
  unfold slice
  rw [List.getElem?_take, List.getElem?_drop]

theorem length_slice {l : List α} {o n : ℕ} (h : o + n ≤ l.length) : (slice l o n).length = n := by
  unfold slice
  rw [List.length_take, List.length_drop]
  omega

theorem getElem?_memcpy {l : List α} {o : ℕ} (src : List α) (h : o ≤ l.length) (i : ℕ) :
    (memcpy l o src)[i]? =
      if i < o then l[i]? else if i < o + src.length then src[i - o]? else l[i]? := by
  have hlen : (l.take o).length = o := by rw [List.length_take]; omega
  unfold memcpy
  by_cases h1 : i < o
  · rw [if_pos h1, List.append_assoc, List.getElem?_append_left (by omega), List.getElem?_take,
      if_pos h1]
  · rw [if_neg h1]
    by_cases h2 : i < o + src.length
    · rw [if_pos h2, List.getElem?_append_left (by rw [List.length_append]; omega),
        List.getElem?_append_right (by omega), hlen]
    · rw [if_neg h2, List.getElem?_append_right (by rw [List.length_append]; omega),
        List.getElem?_drop, List.length_append, hlen]
      congr 1
      omega

theorem length_memcpy {l : List α} {o : ℕ} {src : List α} (h : o + src.length ≤ l.length) :
    (memcpy l o src).length = l.length := by
  unfold memcpy
  rw [List.length_append, List.length_append, List.length_take, List.length_drop]
  omega

/-- Reading inside what was written. -/
theorem slice_memcpy_inside {l : List α} {k : ℕ} {src : List α} (h : k ≤ l.length) {o n : ℕ}
    (hn : o + n ≤ src.length) : slice (memcpy l k src) (k + o) n = slice src o n := by
  apply List.ext_getElem?
  intro i
  rw [getElem?_slice, getElem?_slice, getElem?_memcpy src h]
  by_cases hi : i < n
  · rw [if_pos hi, if_pos hi, if_neg (by omega), if_pos (by omega)]
    congr 1
    omega
  · rw [if_neg hi, if_neg hi]

theorem slice_self (l : List α) : slice l 0 l.length = l := by
  unfold slice
  rw [List.drop_zero, List.take_length]

/-- Reading back what was written. -/
theorem slice_memcpy_self {l : List α} {o : ℕ} {src : List α} (h : o ≤ l.length) :
    slice (memcpy l o src) o src.length = src := by
  have hs := slice_memcpy_inside h (show 0 + src.length ≤ src.length by omega)
  rwa [Nat.add_zero, slice_self] at hs

theorem memcpy_nil (l : List α) (o : ℕ) : memcpy l o [] = l := by
  unfold memcpy
  rw [List.append_nil, List.length_nil, Nat.add_zero, List.take_append_drop]

/-- Everything is overwritten. -/
theorem memcpy_all {l src : List α} (h : l.length = src.length) : memcpy l 0 src = src := by
  unfold memcpy
  rw [List.take_zero, List.nil_append, Nat.zero_add, List.drop_eq_nil_of_le h.le, List.append_nil]

theorem slice_of_take (l : List α) {o n c : ℕ} (h : o + n ≤ c) : slice (l.take c) o n = slice l o n := by
  apply List.ext_getElem?
  intro i
  rw [getElem?_slice, getElem?_slice]
  by_cases hi : i < n
  · rw [if_pos hi, if_pos hi, List.getElem?_take, if_pos (by omega)]
  · rw [if_neg hi, if_neg hi]

/-- A write leaves the slices it does not meet. -/
theorem slice_memcpy_disjoint {l : List α} {o : ℕ} {src : List α} (h : o ≤ l.length) {p n : ℕ}
    (hd : p + n ≤ o ∨ o + src.length ≤ p) : slice (memcpy l o src) p n = slice l p n := by
  apply List.ext_getElem?
  intro i
  rw [getElem?_slice, getElem?_slice, getElem?_memcpy src h]
  by_cases hi : i < n
  · rw [if_pos hi, if_pos hi]
    rcases hd with hd | hd
    · rw [if_pos (by omega)]
    · rw [if_neg (by omega), if_neg (by omega)]
  · rw [if_neg hi, if_neg hi]

theorem length_memmove {l : List α} {d s n : ℕ} (hd : d + n ≤ l.length) (hs : s + n ≤ l.length) :
    (memmove l d s n).length = l.length :=
  length_memcpy (by rw [length_slice hs]; exact hd)

/-- The moved cells are read at their new place. -/
theorem slice_memmove_moved {l : List α} {d s n p k : ℕ} (hs : s + n ≤ l.length) (hd : d ≤ s)
    (h1 : s ≤ p) (h2 : p + k ≤ s + n) : slice (memmove l d s n) (p - (s - d)) k = slice l p k := by
  apply List.ext_getElem?
  intro i
  rw [memmove, getElem?_slice, getElem?_slice, getElem?_memcpy _ (by omega), length_slice hs]
  by_cases hi : i < k
  · rw [if_pos hi, if_pos hi, if_neg (by omega), if_pos (by omega), getElem?_slice,
      if_pos (by omega)]
    congr 1
    omega
  · rw [if_neg hi, if_neg hi]

/-- The cells below the target of a move stay. -/
theorem slice_memmove_below {l : List α} {d s n p k : ℕ} (hs : s + n ≤ l.length) (hd : d ≤ s)
    (h : p + k ≤ d) : slice (memmove l d s n) p k = slice l p k :=
  slice_memcpy_disjoint (by omega) (Or.inl h)

end Areas

/-! ### Little-endian words -/

/-- The `w` little-endian bytes of `n`; higher bits are dropped. -/
def leBytes : ℕ → ℕ → List UInt8
  | 0, _ => []
  | w + 1, n => UInt8.ofNat n :: leBytes w (n / 256)

/-- The natural number with the given little-endian bytes. -/
def leNat : List UInt8 → ℕ
  | [] => 0
  | b :: bs => b.toNat + 256 * leNat bs

@[simp] theorem length_leBytes (w n : ℕ) : (leBytes w n).length = w := by
  induction w generalizing n with
  | zero => rfl
  | succ w ih => rw [leBytes, List.length_cons, ih]

theorem leNat_lt (l : List UInt8) : leNat l < 256 ^ l.length := by
  induction l with
  | nil => exact Nat.one_pos
  | cons b bs ih =>
    have hb : b.toNat < 256 := b.toNat_lt
    rw [leNat, List.length_cons, pow_succ]
    omega

theorem leNat_leBytes {w n : ℕ} (h : n < 256 ^ w) : leNat (leBytes w n) = n := by
  induction w generalizing n with
  | zero => simp at h; subst h; rfl
  | succ w ih =>
    have hq : n / 256 < 256 ^ w := by
      rw [pow_succ] at h
      exact Nat.div_lt_of_lt_mul (by rw [Nat.mul_comm]; exact h)
    rw [leBytes, leNat, ih hq]
    simp only [UInt8.toNat_ofNat']
    omega

theorem leBytes_leNat (l : List UInt8) : leBytes l.length (leNat l) = l := by
  induction l with
  | nil => rfl
  | cons b bs ih =>
    have hb : b.toNat < 256 := b.toNat_lt
    have hq : (b.toNat + 256 * leNat bs) / 256 = leNat bs := by omega
    rw [List.length_cons, leNat, leBytes, hq, ih]
    congr 1
    apply UInt8.toNat_inj.mp
    simp only [UInt8.toNat_ofNat']
    omega

/-! ### Arrays of words -/

/-- An array of `w`-byte words. -/
def words (w : ℕ) (l : List ℕ) : List UInt8 := l.flatMap (leBytes w)

@[simp] theorem length_words (w : ℕ) (l : List ℕ) : (words w l).length = w * l.length := by
  induction l with
  | nil => rfl
  | cons n l ih =>
    simp only [words, List.flatMap_cons, List.length_append, length_leBytes, List.length_cons] at *
    rw [ih]
    ring

/-- The word `i` of an array is read back. -/
theorem slice_words {w i n : ℕ} {l : List ℕ} (h : l[i]? = some n) :
    slice (words w l) (w * i) w = leBytes w n := by
  induction l generalizing i with
  | nil => simp at h
  | cons k l ih =>
    have hk := length_leBytes w k
    cases i with
    | zero =>
      obtain rfl : k = n := by simpa using h
      simp only [slice, words, List.flatMap_cons, Nat.mul_zero, List.drop_zero]
      rw [List.take_left' hk]
    | succ i =>
      have ht := ih (i := i) (by simpa using h)
      have hd : w * (i + 1) = (leBytes w k).length + w * i := by rw [hk]; ring
      simp only [slice, words, List.flatMap_cons] at ht ⊢
      rw [hd, List.drop_length_add_append]
      exact ht

end Lib
