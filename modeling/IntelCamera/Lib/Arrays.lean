import Mathlib.Data.List.Basic
import Mathlib.Data.Int.Notation
import Mathlib.Data.Nat.Notation
import Mathlib.Tactic.SplitIfs

/-!
# Lib.Arrays — arrays, and sorting by insertion

An array is a function, and its first `n` items are a list.  `Inserted` is one step of an insertion sort
that works in place: an item moves down past those that compare greater.  The items stay the same
whatever the comparison answers (`Inserted.rearranged`); under a total preorder the sorted part grows
(`Inserted.ascending`), and what comes out in the end is the stable sort (`Sorts`).
-/

namespace Lib

/-! ### Arrays as lists -/

section Lists

variable {β : Type}

theorem map_range_add (f : ℕ → β) (n m : ℕ) :
    (List.range (n + m)).map f = (List.range n).map f ++ (List.range m).map fun k => f (n + k) := by
  rw [List.range_add, List.map_append, List.map_map]
  rfl

theorem take_map_range (f : ℕ → β) {w n : ℕ} (hw : w ≤ n) :
    ((List.range n).map f).take w = (List.range w).map f := by
  rw [← List.map_take, List.take_range, Nat.min_eq_left hw]

theorem drop_map_range (f : ℕ → β) {w n : ℕ} (hw : w ≤ n) :
    ((List.range n).map f).drop w = (List.range (n - w)).map fun k => f (w + k) := by
  obtain ⟨m, rfl⟩ := Nat.exists_eq_add_of_le hw
  rw [map_range_add, List.drop_left' (by simp), Nat.add_sub_cancel_left]

theorem map_range_congr {f g : ℕ → β} {n : ℕ} (h : ∀ i < n, f i = g i) :
    (List.range n).map f = (List.range n).map g :=
  List.map_congr_left fun i hi => h i (List.mem_range.mp hi)

theorem map_range_set {f g : ℕ → β} {i n : ℕ} (hg : ∀ j, j ≠ i → g j = f j) :
    (List.range n).map g = ((List.range n).map f).set i (g i) := by
  apply List.ext_getElem
  · simp
  · intro j h1 h2
    simp only [List.getElem_map, List.getElem_range, List.getElem_set]
    split_ifs with hij
    · rw [hij]
    · exact hg j (Ne.symm hij)

end Lists

/-! ### Stable sorts -/

section Stable

variable {β : Type} (cmp : β → β → ℤ)

/-- The comparison is that of a total preorder. -/
structure Orders : Prop where
  total : ∀ a b, 0 < cmp a b → cmp b a ≤ 0
  trans : ∀ a b c, cmp a b ≤ 0 → cmp b c ≤ 0 → cmp a c ≤ 0

def below (a b : β) : Bool := decide (cmp a b ≤ 0)

/-- Neither of the items is above the other. -/
def tied (a b : β) : Bool := below cmp a b && below cmp b a

/-- The same items, those that are tied in the same order. -/
structure Rearranged (l l' : List β) : Prop where
  perm : l'.Perm l
  stable : Orders cmp → ∀ y, l'.filter (tied cmp y) = l.filter (tied cmp y)

/-- The same items, and under a total preorder the stable sort of them. -/
structure Sorts (l l' : List β) : Prop where
  perm : l'.Perm l
  sorted : Orders cmp → l' = l.mergeSort (below cmp)

variable {cmp}

theorem below_iff {a b : β} : below cmp a b = true ↔ cmp a b ≤ 0 := by
  simp [below]

theorem tied_iff {a b : β} : tied cmp a b = true ↔ cmp a b ≤ 0 ∧ cmp b a ≤ 0 := by
  simp [tied, below]

theorem Rearranged.refl (l : List β) : Rearranged cmp l l := ⟨.refl l, fun _ _ => rfl⟩

theorem Rearranged.trans {l₁ l₂ l₃ : List β} (h : Rearranged cmp l₁ l₂) (h' : Rearranged cmp l₂ l₃) :
    Rearranged cmp l₁ l₃ :=
  ⟨h'.perm.trans h.perm, fun hc y => (h'.stable hc y).trans (h.stable hc y)⟩

theorem Orders.refl (hc : Orders cmp) (a : β) : cmp a a ≤ 0 := by
  by_contra h
  have := hc.total a a (by omega)
  omega

/-- **There is one stable sort.** -/
theorem eq_of_stable (hc : Orders cmp) : ∀ {l l' : List β}, l.Pairwise (cmp · · ≤ 0) →
    l'.Pairwise (cmp · · ≤ 0) → (∀ y, l.filter (tied cmp y) = l'.filter (tied cmp y)) → l = l'
  | [], [], _, _, _ => rfl
  | [], b :: t, _, _, h => by
    have hb := h b
    rw [List.filter_cons_of_pos (tied_iff.mpr ⟨hc.refl b, hc.refl b⟩)] at hb
    cases hb
  | a :: t, [], _, _, h => by
    have ha := h a
    rw [List.filter_cons_of_pos (tied_iff.mpr ⟨hc.refl a, hc.refl a⟩)] at ha
    cases ha
  | a :: t, b :: t', hl, hl', h => by
    -- each head is in the other list, so the heads are tied
    have hfirst : ∀ {c d : β} {u u' : List β}, (d :: u').Pairwise (cmp · · ≤ 0) →
        (c :: u).filter (tied cmp c) = (d :: u').filter (tied cmp c) → cmp d c ≤ 0 := by
      intro c d u u' hs hf
      rw [List.filter_cons_of_pos (tied_iff.mpr ⟨hc.refl c, hc.refl c⟩)] at hf
      have hmem : c ∈ (d :: u').filter (tied cmp c) := by
        rw [← hf]
        exact List.mem_cons_self
      rcases List.mem_cons.mp (List.mem_filter.mp hmem).1 with rfl | hin
      · exact hc.refl c
      · exact (List.pairwise_cons.mp hs).1 c hin
    have hba : cmp b a ≤ 0 := hfirst hl' (h a)
    have hab : cmp a b ≤ 0 := hfirst hl (h b).symm
    have ha := h a
    rw [List.filter_cons_of_pos (tied_iff.mpr ⟨hc.refl a, hc.refl a⟩),
      List.filter_cons_of_pos (tied_iff.mpr ⟨hab, hba⟩)] at ha
    obtain ⟨rfl, -⟩ := List.cons.inj ha
    congr 1
    refine eq_of_stable hc (List.pairwise_cons.mp hl).2 (List.pairwise_cons.mp hl').2 fun y => ?_
    have hy := h y
    by_cases ht : tied cmp y a = true
    · rw [List.filter_cons_of_pos ht, List.filter_cons_of_pos ht] at hy
      exact (List.cons.inj hy).2
    · rw [List.filter_cons_of_neg ht, List.filter_cons_of_neg ht] at hy
      exact hy

theorem Orders.trans_below (hc : Orders cmp) (a b c : β) (h1 : below cmp a b = true)
    (h2 : below cmp b c = true) : below cmp a c = true :=
  below_iff.mpr (hc.trans a b c (below_iff.mp h1) (below_iff.mp h2))

theorem Orders.total_below (hc : Orders cmp) (a b : β) : (below cmp a b || below cmp b a) = true := by
  rw [Bool.or_eq_true, below_iff, below_iff]
  by_cases h : cmp a b ≤ 0
  · exact Or.inl h
  · exact Or.inr (hc.total a b (by omega))

/-- Merge sort is stable. -/
theorem filter_mergeSort (hc : Orders cmp) (l : List β) (y : β) :
    (l.mergeSort (below cmp)).filter (tied cmp y) = l.filter (tied cmp y) := by
  have hpair : (l.filter (tied cmp y)).Pairwise (below cmp · · = true) := by
    refine List.pairwise_of_forall_mem_list fun a ha b hb => below_iff.mpr ?_
    have h1 := (tied_iff.mp (List.mem_filter.mp ha).2).2
    have h2 := (tied_iff.mp (List.mem_filter.mp hb).2).1
    exact hc.trans a y b h1 h2
  have hsub : (l.filter (tied cmp y)).Sublist (l.mergeSort (below cmp)) :=
    List.sublist_mergeSort hc.trans_below hc.total_below hpair List.filter_sublist
  have hsub' := hsub.filter (tied cmp y)
  rw [List.filter_filter] at hsub'
  simp only [Bool.and_self] at hsub'
  exact (hsub'.eq_of_length ((List.mergeSort_perm l _).filter _).length_eq.symm).symm

/-- Sorted and rearranged is the stable sort. -/
theorem Rearranged.sorts {l l' : List β} (h : Rearranged cmp l l')
    (hs : Orders cmp → l'.Pairwise (cmp · · ≤ 0)) : Sorts cmp l l' := by
  refine ⟨h.perm, fun hc => eq_of_stable hc (hs hc) ?_ fun y => ?_⟩
  · exact (List.pairwise_mergeSort hc.trans_below hc.total_below l).imp below_iff.mp
  · rw [h.stable hc y, filter_mergeSort hc]

end Stable

/-! ### Insertion -/

section Insertion

variable {β : Type} {cmp : β → β → ℤ} {f g : ℕ → β} {m i n : ℕ}

/-- Item `i` moves down to `m`, past items that compare greater. -/
structure Inserted (cmp : β → β → ℤ) (f g : ℕ → β) (m i : ℕ) : Prop where
  lt : m < i
  low : ∀ k < m, g k = f k
  here : g m = f i
  shifted : ∀ k, m ≤ k → k < i → g (k + 1) = f k
  high : ∀ k, i < k → g k = f k
  greater : ∀ k, m ≤ k → k < i → 0 < cmp (f k) (f i)
  stop : ∀ k, k + 1 = m → cmp (f k) (f i) ≤ 0

/-- The first `n` items are in order. -/
def InOrder (cmp : β → β → ℤ) (f : ℕ → β) (n : ℕ) : Prop := ∀ k, k + 1 < n → cmp (f k) (f (k + 1)) ≤ 0

/-- The items before and after, in four parts. -/
theorem Inserted.parts (h : Inserted cmp f g m i) (hi : i < n) :
    ∃ A B C, (List.range n).map f = A ++ (B ++ [f i]) ++ C ∧
      (List.range n).map g = A ++ ([f i] ++ B) ++ C ∧ ∀ b ∈ B, 0 < cmp b (f i) := by
  have hlt := h.lt
  refine ⟨(List.range m).map f, (List.range (i - m)).map fun k => f (m + k),
    (List.range (n - (i + 1))).map fun k => f (i + 1 + k), ?_, ?_, ?_⟩
  · have hn : n = m + (i - m + 1) + (n - (i + 1)) := by omega
    rw [hn, map_range_add, map_range_add, map_range_add]
    have h1 : m + (i - m) = i := by omega
    have h2 : m + (i - m + 1) = i + 1 := by omega
    have h3 : i + 1 + (n - (i + 1)) - (i + 1) = n - (i + 1) := by omega
    simp only [h2, h3]
    simp [h1]
  · have hn : n = m + (1 + (i - m)) + (n - (i + 1)) := by omega
    rw [hn, map_range_add, map_range_add, map_range_add]
    have h2 : m + (1 + (i - m)) = i + 1 := by omega
    have h3 : i + 1 + (n - (i + 1)) - (i + 1) = n - (i + 1) := by omega
    simp only [h2, h3]
    have hB : ∀ k < i - m, g (m + (1 + k)) = f (m + k) := by
      intro k hk
      rw [show m + (1 + k) = m + k + 1 by omega]
      exact h.shifted (m + k) (by omega) (by omega)
    have hC : ∀ k < n - (i + 1), g (i + 1 + k) = f (i + 1 + k) := fun k _ => h.high _ (by omega)
    rw [map_range_congr h.low, map_range_congr hB, map_range_congr hC]
    simp [h.here]
  · intro b hb
    obtain ⟨k, hk, rfl⟩ := List.mem_map.mp hb
    have hk := List.mem_range.mp hk
    exact h.greater (m + k) (by omega) (by omega)

/-- **An insertion rearranges.** -/
theorem Inserted.rearranged (h : Inserted cmp f g m i) (hi : i < n) :
    Rearranged cmp ((List.range n).map f) ((List.range n).map g) := by
  obtain ⟨A, B, C, hf, hg, hB⟩ := h.parts hi
  rw [hf, hg]
  refine ⟨(List.perm_append_comm.append_left A).append_right C, fun hc y => ?_⟩
  -- of the item and those it passes, only one side can be tied with `y`
  have hmid : ([f i] ++ B).filter (tied cmp y) = (B ++ [f i]).filter (tied cmp y) := by
    rw [List.filter_append, List.filter_append]
    by_cases ht : tied cmp y (f i) = true
    · have hnil : B.filter (tied cmp y) = [] := by
        refine List.filter_eq_nil_iff.mpr fun b hb hy => ?_
        have h1 := hB b hb
        have h2 := hc.trans b y (f i) (tied_iff.mp hy).2 (tied_iff.mp ht).1
        omega
      rw [hnil, List.append_nil, List.nil_append]
    · have hnil : [f i].filter (tied cmp y) = [] := List.filter_cons_of_neg ht
      rw [hnil, List.append_nil, List.nil_append]
  rw [List.filter_append, List.filter_append, hmid, ← List.filter_append, ← List.filter_append]

/-- **An insertion extends the sorted part.** -/
theorem Inserted.ascending (h : Inserted cmp f g m i) (hc : Orders cmp) (ha : InOrder cmp f i) :
    InOrder cmp g (i + 1) := by
  intro k hk
  rcases Nat.lt_trichotomy (k + 1) m with hlt | heq | hgt
  · rw [h.low k (by omega), h.low (k + 1) hlt]
    exact ha k (by have := h.lt; omega)
  · rw [h.low k (by omega), heq, h.here]
    exact h.stop k heq
  · by_cases hkm : k = m
    · subst hkm
      rw [h.here, h.shifted k (Nat.le_refl k) h.lt]
      exact hc.total _ _ (h.greater k (Nat.le_refl k) h.lt)
    · obtain ⟨j, rfl⟩ : ∃ j, k = j + 1 := ⟨k - 1, by omega⟩
      rw [h.shifted j (by omega) (by omega), h.shifted (j + 1) (by omega) (by omega)]
      exact ha j (by omega)

theorem InOrder.succ (h : InOrder cmp f i) (hi : ∀ k, k + 1 = i → cmp (f k) (f i) ≤ 0) :
    InOrder cmp f (i + 1) := by
  intro k hk
  rcases Nat.lt_or_ge (k + 1) i with hlt | hge
  · exact h k hlt
  · obtain rfl : k + 1 = i := by omega
    exact hi k rfl

theorem InOrder.pairwise (h : InOrder cmp f n) (hc : Orders cmp) :
    ((List.range n).map f).Pairwise (cmp · · ≤ 0) := by
  have hle : ∀ d k, k + d < n → cmp (f k) (f (k + d)) ≤ 0 := by
    intro d
    induction d with
    | zero => exact fun k _ => hc.refl (f k)
    | succ d ih => exact fun k hk => hc.trans _ _ _ (ih k (by omega)) (h (k + d) (by omega))
  rw [List.pairwise_map]
  refine List.pairwise_lt_range.imp_of_mem fun {a b} ha hb hab => ?_
  obtain ⟨d, rfl⟩ := Nat.exists_eq_add_of_le (Nat.le_of_lt hab)
  exact hle d a (List.mem_range.mp hb)

end Insertion

end Lib
