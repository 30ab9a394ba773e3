import Mathlib.Data.Nat.Bitwise
import Mathlib.Data.Finset.Card
import Mathlib.Data.Finset.Range
import Mathlib.Data.List.Nodup

/-!
# Lib.Slots — the slots in use as the bits of a mask

`Marks n mask l` says that the bits set in `mask` are the slots in the list `l`, each of them once and
all of them below `n`.  A slot is taken by setting its bit and given back by clearing it, and all slots
are taken exactly if the mask has reached the largest value of `n` bits.
-/

namespace Lib

variable {n mask i : ℕ} {l : List ℕ}

/-- The set bits of `mask` are the slots of `l`. -/
structure Marks (n mask : ℕ) (l : List ℕ) : Prop where
  nodup : l.Nodup
  lt : ∀ i ∈ l, i < n
  bit : ∀ i, mask.testBit i = true ↔ i ∈ l

/-- A mask without bits from `n` on is at its largest exactly if all bits below `n` are set. -/
theorem mask_full_iff (h : ∀ i, mask.testBit i = true → i < n) :
    2 ^ n - 1 ≤ mask ↔ ∀ i < n, mask.testBit i = true := by
  have hlt : mask < 2 ^ n := by
    apply Nat.lt_pow_two_of_testBit
    intro i hi
    by_contra hb
    have := h i (by simpa using hb)
    omega
  constructor
  · intro hle i hi
    have hm : mask = 2 ^ n - 1 := by omega
    rw [hm, Nat.testBit_two_pow_sub_one]
    exact decide_eq_true hi
  · intro hall
    apply le_of_eq
    apply Nat.eq_of_testBit_eq
    intro i
    rw [Nat.testBit_two_pow_sub_one]
    by_cases hi : i < n
    · rw [hall i hi]
      exact decide_eq_true hi
    · have hb : mask.testBit i = false := by
        cases hb : mask.testBit i with
        | false => rfl
        | true => exact absurd (h i hb) hi
      rw [hb]
      exact decide_eq_false hi

/-- Distinct numbers below `n` are `n` many exactly if none is missing. -/
theorem length_eq_iff_forall_mem (hd : l.Nodup) (hl : ∀ i ∈ l, i < n) :
    l.length = n ↔ ∀ i < n, i ∈ l := by
  have hsub : l.toFinset ⊆ Finset.range n := by
    intro i hi
    exact Finset.mem_range.mpr (hl i (List.mem_toFinset.mp hi))
  have hcard : l.toFinset.card = l.length := List.toFinset_card_of_nodup hd
  constructor
  · intro hlen i hi
    have heq : l.toFinset = Finset.range n := by
      apply Finset.eq_of_subset_of_card_le hsub
      rw [Finset.card_range, hcard, hlen]
    apply List.mem_toFinset.mp
    rw [heq]
    exact Finset.mem_range.mpr hi
  · intro hall
    have heq : l.toFinset = Finset.range n := by
      apply Finset.Subset.antisymm hsub
      intro i hi
      exact List.mem_toFinset.mpr (hall i (Finset.mem_range.mp hi))
    rw [← hcard, heq, Finset.card_range]

namespace Marks

theorem empty (n : ℕ) : Marks n 0 [] :=
  ⟨List.nodup_nil, by simp, by simp⟩

/-- **All slots are taken** exactly if the mask has reached its largest value. -/
theorem full_iff (h : Marks n mask l) : 2 ^ n - 1 ≤ mask ↔ l.length = n := by
  rw [mask_full_iff fun i hi => h.lt i ((h.bit i).mp hi), length_eq_iff_forall_mem h.nodup h.lt]
  exact forall₂_congr fun i _ => h.bit i

/-- Otherwise some slot is free. -/
theorem exists_free (h : Marks n mask l) (hl : l.length ≠ n) : ∃ i < n, mask.testBit i = false := by
  by_contra hno
  apply hl
  apply (length_eq_iff_forall_mem h.nodup h.lt).mpr
  intro i hi
  by_contra hmem
  exact hno ⟨i, hi, Bool.eq_false_iff.mpr (mt (h.bit i).mp hmem)⟩

/-- Taking a slot. -/
theorem take (h : Marks n mask l) (hi : i < n) (hfree : mask.testBit i = false) :
    Marks n (mask ||| 2 ^ i) (l ++ [i]) := by
  have hnot : i ∉ l := by
    intro hmem
    rw [(h.bit i).mpr hmem] at hfree
    cases hfree
  refine ⟨?_, ?_, ?_⟩
  · refine h.nodup.append (List.nodup_singleton i) ?_
    rwa [List.disjoint_singleton]
  · intro j hj
    rcases List.mem_append.mp hj with hj | hj
    · exact h.lt j hj
    · rw [List.mem_singleton.mp hj]
      exact hi
  · intro j
    rw [Nat.testBit_or, Bool.or_eq_true, h.bit, Nat.testBit_two_pow, decide_eq_true_eq,
      List.mem_append, List.mem_singleton, eq_comm]

/-- Giving the slot at place `k` of the list back. -/
theorem give {mask' k : ℕ} (h : Marks n mask l) (hk : l[k]? = some i)
    (hbit : ∀ j, mask'.testBit j = (mask.testBit j && decide (j ≠ i))) :
    Marks n mask' (l.eraseIdx k) := by
  obtain ⟨hlt, hget⟩ := List.getElem?_eq_some_iff.mp hk
  have hmem : ∀ j, j ∈ l.eraseIdx k ↔ j ∈ l ∧ j ≠ i := by
    intro j
    rw [← h.nodup.erase_getElem k hlt, h.nodup.mem_erase_iff, hget, and_comm]
  refine ⟨h.nodup.sublist (List.eraseIdx_sublist l k), ?_, ?_⟩
  · intro j hj
    exact h.lt j ((hmem j).mp hj).1
  · intro j
    rw [hbit, Bool.and_eq_true, h.bit, decide_eq_true_eq, hmem]

end Marks

end Lib
