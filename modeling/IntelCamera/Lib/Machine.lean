import Mathlib.Order.MinMax
import Mathlib.Order.Lattice
import Mathlib.Tactic.Ring
import Mathlib.Tactic.NormNum

/-!
# Lib.Machine — fixed-width arithmetic: wrapped values, their quotients, clamps

A signed `w`-bit product is the balanced residue `Int.bmod x (2 ^ w)` of the exact one.  `Fits w x` says
that nothing is lost; where something is, the residue is off by at least `2 ^ w`, and this is still seen
after a division by less than half of that (`tdiv_bmod_eq_iff`).  A quotient of two `int`s need not be an
`int`: `intDiv` has no value there, as the machine has none.  A conversion between `int` and `size_t`
keeps the residue (`toNat_sizeT`, `toInt_intT`), and a mask of high bits rounds down (`and_highMask`).
-/

namespace Lib

/-! ### Clamps -/

section Clamp

variable {α : Type*} [LinearOrder α] {lo hi x y : α}

/-- `x`, kept between `lo` and `hi`. -/
def clamp (lo hi x : α) : α := max lo (min x hi)

theorem clamp_mono (lo hi : α) : Monotone (clamp lo hi) :=
  fun _ _ h => max_le_max le_rfl (min_le_min h le_rfl)

theorem clamp_of_ge (hle : lo ≤ hi) (h : hi ≤ x) : clamp lo hi x = hi := by
  unfold clamp
  rw [min_eq_right h, max_eq_right hle]

theorem clamp_of_le (hle : lo ≤ hi) (h : x ≤ lo) : clamp lo hi x = lo := by
  unfold clamp
  rw [min_eq_left (h.trans hle), max_eq_left h]

theorem clamp_of_mem (h1 : lo ≤ x) (h2 : x ≤ hi) : clamp lo hi x = x := by
  unfold clamp
  rw [min_eq_left h2, max_eq_right h1]

/-- A range of one value leaves no choice. -/
theorem clamp_self (lo x : α) : clamp lo lo x = lo := by
  rcases le_total x lo with hx | hx
  · exact clamp_of_le le_rfl hx
  · exact clamp_of_ge le_rfl hx

/-- **A clamp hides nothing inside of its range.** -/
theorem eq_of_clamp_eq (h1 : lo < x) (h2 : x < hi) (h : clamp lo hi x = clamp lo hi y) : x = y := by
  rw [clamp_of_mem h1.le h2.le] at h
  rcases le_or_gt y lo with hy | hy
  · rw [clamp_of_le (h1.trans h2).le hy] at h
    exact absurd h h1.ne'
  · rcases le_or_gt hi y with hy' | hy'
    · rw [clamp_of_ge (h1.trans h2).le hy'] at h
      exact absurd h h2.ne
    · rwa [clamp_of_mem hy.le hy'.le] at h

end Clamp

/-! ### Wrapped values -/

/-- The integer is a value of a signed `w`-bit type. -/
def Fits (w : ℕ) (x : ℤ) : Prop := -2 ^ w ≤ 2 * x ∧ 2 * x < 2 ^ w

section Wrap

variable {w : ℕ} {x d : ℤ}

/-- A value that does not fit is off by at least the size of the type. -/
theorem bmod_far (h : ¬ Fits w x) : x + 2 ^ w ≤ x.bmod (2 ^ w) ∨ x.bmod (2 ^ w) + 2 ^ w ≤ x := by
  have hpos : 0 < 2 ^ w := Nat.two_pow_pos w
  have hlo := Int.le_bmod (x := x) hpos
  have hhi := Int.bmod_lt (x := x) hpos
  obtain ⟨k, hk⟩ := Int.dvd_bmod_sub_self (x := x) (m := 2 ^ w)
  have hcast : ((2 ^ w : ℕ) : ℤ) = 2 ^ w := by norm_num
  rw [hcast] at hk hlo hhi
  have hp : (0 : ℤ) < 2 ^ w := by positivity
  rcases lt_trichotomy k 0 with hneg | rfl | hk0
  · right
    have := mul_le_mul_of_nonneg_left (show k ≤ -1 by omega) hp.le
    omega
  · refine absurd ?_ h
    rw [mul_zero] at hk
    unfold Fits
    omega
  · left
    have := mul_le_mul_of_nonneg_left (show 1 ≤ k by omega) hp.le
    omega

theorem bmod_of_fits (h : Fits w x) : x.bmod (2 ^ w) = x := by
  apply Int.bmod_eq_of_le_mul_two
  · push_cast
    have := h.1
    omega
  · push_cast
    have := h.2
    omega

/-- **A lost carry is seen after a division** by at most half of the size of the type. -/
theorem tdiv_bmod_eq_iff (hd : 0 < d) (hw : 2 * d ≤ 2 ^ w) :
    x.tdiv d = (x.bmod (2 ^ w)).tdiv d ↔ Fits w x := by
  constructor
  · intro h
    by_contra hf
    have h1 := Int.mul_tdiv_add_tmod x d
    have h2 := Int.mul_tdiv_add_tmod (x.bmod (2 ^ w)) d
    rw [← h] at h2
    have h3 := Int.tmod_lt_of_pos x hd
    have h4 := Int.lt_tmod_of_pos x hd
    have h5 := Int.tmod_lt_of_pos (x.bmod (2 ^ w)) hd
    have h6 := Int.lt_tmod_of_pos (x.bmod (2 ^ w)) hd
    rcases bmod_far hf with hfar | hfar
    · omega
    · omega
  · intro h
    rw [bmod_of_fits h]

end Wrap

/-! ### Division -/

/-- C's division of `int`s; it traps by zero, and where the quotient is no `int`. -/
def intDiv (x y : Int32) : Option Int32 :=
  if y = 0 ∨ x = Int32.minValue ∧ y = -1 then none else some (x / y)

theorem toInt_intDiv {x y q : Int32} (h : intDiv x y = some q) : q.toInt = x.toInt.tdiv y.toInt := by
  unfold intDiv at h
  split_ifs at h with hc
  rw [not_or, not_and_or] at hc
  obtain rfl := Option.some.inj h
  rcases hc.2 with hx | hy
  · exact Int32.toInt_div_of_ne_left _ _ hx
  · exact Int32.toInt_div_of_ne_right _ _ hy

theorem intDiv_eq_none_iff {x y : Int32} (hy : y ≠ 0) :
    intDiv x y = none ↔ y = -1 ∧ x.toInt = -2 ^ 31 := by
  unfold intDiv
  rw [ite_eq_left_iff]
  have hmin : x = Int32.minValue ↔ x.toInt = -2 ^ 31 := Int32.toInt_inj.symm
  rw [← hmin]
  constructor
  · intro h
    by_contra hc
    exact Option.some_ne_none _ (h fun hor => hor.elim hy fun hxy => hc ⟨hxy.2, hxy.1⟩)
  · rintro ⟨h1, h2⟩ hno
    exact absurd (Or.inr ⟨h2, h1⟩) hno

/-! ### Conversions and masks -/

/-- An `int` as a `size_t`: the sign is extended. -/
def sizeT (x : Int32) : UInt64 := x.toInt64.toUInt64

/-- A `size_t` as an `int`: the high half is dropped. -/
def intT (x : UInt64) : Int32 := x.toInt64.toInt32

theorem toNat_sizeT (x : Int32) : ((sizeT x).toNat : ℤ) = x.toInt % 2 ^ 64 := by
  have h : ((sizeT x).toNat : ℤ).bmod (2 ^ 64) = x.toInt := by
    show ((x.toInt64.toBitVec.toNat : ℕ) : ℤ).bmod (2 ^ 64) = x.toInt
    rw [← BitVec.toInt_eq_toNat_bmod]
    exact x.toInt_toInt64
  have hlt := (sizeT x).toNat_lt
  rw [← h, Int.bmod_def]
  split_ifs
  · push_cast
    omega
  · push_cast
    omega

theorem toInt_intT (x : UInt64) : (intT x).toInt = (x.toNat : ℤ).bmod (2 ^ 32) := by
  have h : x.toInt64.toInt = (x.toNat : ℤ).bmod (2 ^ 64) := BitVec.toInt_eq_toNat_bmod _
  unfold intT
  rw [Int64.toInt_toInt32, h]
  exact Int.bmod_bmod_of_dvd ⟨2 ^ 32, by norm_num⟩

@[simp] theorem intT_sizeT (x : Int32) : intT (sizeT x) = x := by
  unfold intT sizeT
  rw [Int64.toInt64_toUInt64, Int32.toInt32_toInt64]

/-- Keeping the high bits rounds down. -/
theorem and_highMask {w k n : ℕ} (hk : k ≤ w) (hn : n < 2 ^ w) :
    n &&& (2 ^ w - 2 ^ k) = n / 2 ^ k * 2 ^ k := by
  have hmask : 2 ^ w - 2 ^ k = (2 ^ (w - k) - 1) <<< k := by
    rw [Nat.shiftLeft_eq, Nat.sub_mul, ← pow_add, Nat.sub_add_cancel hk, one_mul]
  have hdiv : n / 2 ^ k * 2 ^ k = (n >>> k) <<< k := by
    rw [Nat.shiftLeft_eq, Nat.shiftRight_eq_div_pow]
  rw [hmask, hdiv]
  apply Nat.eq_of_testBit_eq
  intro i
  rw [Nat.testBit_and, Nat.testBit_shiftLeft, Nat.testBit_shiftLeft, Nat.testBit_shiftRight,
    Nat.testBit_two_pow_sub_one]
  by_cases hki : k ≤ i
  · rw [Nat.add_sub_cancel' hki]
    by_cases hi : i < w
    · have hlt : i - k < w - k := by omega
      simp [hki, hlt]
    · have hz : n.testBit i = false :=
        Nat.testBit_lt_two_pow (lt_of_lt_of_le hn (Nat.pow_le_pow_right (by norm_num) (by omega)))
      simp [hz]
  · simp [hki]

end Lib
