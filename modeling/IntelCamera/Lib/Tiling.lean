import Mathlib.Data.List.Basic
import Mathlib.Data.List.Perm.Basic
import Mathlib.Tactic.Ring

/-!
# Lib.Tiling — regions that tile an initial segment of an area

A `Region` is an interval `[off, off + len)`.  `Chain a L b`: the regions of `L`, in this order,
are non-empty and follow each other without a gap from `a` to `b`.  `Tiles R n`: the regions of `R`
can be ordered into a chain from `0` to `n`.  The order is not stored anywhere: an area whose
regions are kept in an unrelated order (a table that was sorted by another key, say) still tiles.

The three moves of a compacting area keep a tiling: a new region at the end (`Tiles.snoc`), a second
tiling put behind the first (`Tiles.concat`), and the removal of one region with the later ones moved
down over the hole (`Tiles.remove`).
-/

namespace Lib

/-- The interval `[off, off + len)`. -/
structure Region where
  off : ℕ
  len : ℕ
deriving DecidableEq, Repr

namespace Region

/-- No common cell. -/
def Disjoint (x y : Region) : Prop := x.off + x.len ≤ y.off ∨ y.off + y.len ≤ x.off

/-- The cell `i` lies in the region. -/
def Contains (x : Region) (i : ℕ) : Prop := x.off ≤ i ∧ i < x.off + x.len

/-- Moved up by `k`. -/
def up (k : ℕ) (x : Region) : Region := ⟨x.off + k, x.len⟩

/-- Moved down by `s` when it lies behind `o`. -/
def slide (o s : ℕ) (x : Region) : Region := if o < x.off then ⟨x.off - s, x.len⟩ else x

theorem Disjoint.symm {x y : Region} (h : x.Disjoint y) : y.Disjoint x := Or.symm h

end Region

/-! ### Chains -/

/-- The regions `L` follow each other from `a` to `b`. -/
inductive Chain : ℕ → List Region → ℕ → Prop
  | nil (a : ℕ) : Chain a [] a
  | cons (a s : ℕ) (L : List Region) (b : ℕ) : 0 < s → Chain (a + s) L b → Chain a (⟨a, s⟩ :: L) b

namespace Chain

theorem append {a b c : ℕ} {L₁ L₂ : List Region} (h₁ : Chain a L₁ b) (h₂ : Chain b L₂ c) :
    Chain a (L₁ ++ L₂) c := by
  induction h₁ with
  | nil => exact h₂
  | cons a s L b' hs _ ih => exact .cons a s (L ++ L₂) c hs (ih h₂)

theorem split {a c : ℕ} {L₁ L₂ : List Region} (h : Chain a (L₁ ++ L₂) c) :
    ∃ b, Chain a L₁ b ∧ Chain b L₂ c := by
  induction L₁ generalizing a with
  | nil => exact ⟨a, .nil a, h⟩
  | cons x L ih =>
    cases h with
    | cons _ s _ _ hs h' =>
      obtain ⟨b, h1, h2⟩ := ih h'
      exact ⟨b, .cons a s L b hs h1, h2⟩

theorem cons_inv {a b : ℕ} {x : Region} {L : List Region} (h : Chain a (x :: L) b) :
    x.off = a ∧ 0 < x.len ∧ Chain (a + x.len) L b := by
  cases h with
  | cons _ _ _ _ hs h' => exact ⟨rfl, hs, h'⟩

theorem eq_add_sum {a b : ℕ} {L : List Region} (h : Chain a L b) : b = a + (L.map (·.len)).sum := by
  induction h with
  | nil => rfl
  | cons a s L b _ _ ih =>
    rw [ih, List.map_cons, List.sum_cons, Nat.add_assoc]

theorem le {a b : ℕ} {L : List Region} (h : Chain a L b) : a ≤ b := by
  induction h with
  | nil => exact le_rfl
  | cons a s L b _ _ ih => omega

theorem bounds {a b : ℕ} {L : List Region} (h : Chain a L b) {x : Region} (hx : x ∈ L) :
    a ≤ x.off ∧ 0 < x.len ∧ x.off + x.len ≤ b := by
  induction h with
  | nil => simp at hx
  | cons a s L b hs hL ih =>
    rcases List.mem_cons.mp hx with rfl | hx
    · exact ⟨le_rfl, hs, hL.le⟩
    · have := ih hx
      omega

theorem pairwise {a b : ℕ} {L : List Region} (h : Chain a L b) : L.Pairwise Region.Disjoint := by
  induction h with
  | nil => exact List.Pairwise.nil
  | cons a s L b _ hL ih =>
    refine List.pairwise_cons.mpr ⟨fun y hy => Or.inl ?_, ih⟩
    exact (hL.bounds hy).1

theorem exists_contains {a b : ℕ} {L : List Region} (h : Chain a L b) {i : ℕ} (h1 : a ≤ i)
    (h2 : i < b) : ∃ x ∈ L, x.Contains i := by
  induction h with
  | nil => omega
  | cons a s L b hs _ ih =>
    by_cases hi : i < a + s
    · exact ⟨⟨a, s⟩, List.mem_cons_self, h1, hi⟩
    · obtain ⟨x, hx, hc⟩ := ih (by omega) h2
      exact ⟨x, List.mem_cons_of_mem _ hx, hc⟩

theorem up {a b : ℕ} {L : List Region} (h : Chain a L b) (k : ℕ) :
    Chain (a + k) (L.map (Region.up k)) (b + k) := by
  induction h with
  | nil => exact .nil _
  | cons a s L b hs _ ih =>
    refine .cons (a + k) s _ _ hs ?_
    rw [show a + k + s = a + s + k by omega]
    exact ih

/-- A chain behind `o + s` moves down by `s`. -/
theorem slide {a b o s : ℕ} {L : List Region} (h : Chain a L b) (hs : 0 < s) (ho : o + s ≤ a) :
    Chain (a - s) (L.map (Region.slide o s)) (b - s) := by
  induction h with
  | nil => exact .nil _
  | cons a t L b ht _ ih =>
    have hm : Region.slide o s ⟨a, t⟩ = ⟨a - s, t⟩ := if_pos (by show o < a; omega)
    rw [List.map_cons, hm]
    refine .cons (a - s) t _ _ ht ?_
    rw [show a - s + t = a + t - s by omega]
    exact ih (by omega)

/-- A chain up to `o` stays where it is. -/
theorem slide_below {a b o s : ℕ} {L : List Region} (h : Chain a L b) (hb : b ≤ o) :
    L.map (Region.slide o s) = L := by
  induction h with
  | nil => rfl
  | cons a t L b _ hL ih =>
    have hle := hL.le
    rw [List.map_cons, ih hb]
    have hm : Region.slide o s ⟨a, t⟩ = ⟨a, t⟩ := if_neg (by show ¬ o < a; omega)
    rw [hm]

theorem dvd {a b k : ℕ} {L : List Region} (h : Chain a L b) (ha : k ∣ a) (hL : ∀ x ∈ L, k ∣ x.len) :
    (∀ x ∈ L, k ∣ x.off) ∧ k ∣ b := by
  induction h with
  | nil => exact ⟨by simp, ha⟩
  | cons a s L b _ _ ih =>
    obtain ⟨h1, h2⟩ := ih (Nat.dvd_add ha (hL ⟨a, s⟩ List.mem_cons_self))
      (fun x hx => hL x (List.mem_cons_of_mem _ hx))
    refine ⟨fun x hx => ?_, h2⟩
    rcases List.mem_cons.mp hx with rfl | hx
    · exact ha
    · exact h1 x hx

/-- What lies below a region of a chain reaches up to it. -/
theorem sum_below {a b : ℕ} {L : List Region} (h : Chain a L b) {x : Region} (hx : x ∈ L) :
    a + (L.map fun y => if y.off < x.off then y.len else 0).sum = x.off := by
  induction h with
  | nil => cases hx
  | cons a s L b hs hL ih =>
    rw [List.map_cons, List.sum_cons]
    rcases List.mem_cons.mp hx with rfl | hx
    · have hnone : (L.map fun y => if y.off < a then y.len else 0) = L.map fun _ => 0 := by
        refine List.map_congr_left fun y hy => if_neg ?_
        have := (hL.bounds hy).1
        omega
      dsimp only
      rw [hnone, if_neg (Nat.lt_irrefl a)]
      simp
    · have hle := (hL.bounds hx).1
      have hrest := ih hx
      dsimp only
      rw [if_pos (by omega), ← Nat.add_assoc]
      exact hrest

end Chain

/-! ### Tilings -/

/-- The regions `R` tile `[0, n)`. -/
def Tiles (R : List Region) (n : ℕ) : Prop := ∃ L : List Region, L.Perm R ∧ Chain 0 L n

namespace Tiles

theorem nil : Tiles [] 0 := ⟨[], List.Perm.refl _, .nil 0⟩

theorem perm {R R' : List Region} {n : ℕ} (h : Tiles R n) (hp : R.Perm R') : Tiles R' n := by
  obtain ⟨L, h1, h2⟩ := h
  exact ⟨L, h1.trans hp, h2⟩

/-- The lengths add up. -/
theorem sum_len {R : List Region} {n : ℕ} (h : Tiles R n) : (R.map (·.len)).sum = n := by
  obtain ⟨L, h1, h2⟩ := h
  rw [← (h1.map (·.len)).sum_nat, h2.eq_add_sum, Nat.zero_add]

theorem bounds {R : List Region} {n : ℕ} (h : Tiles R n) {x : Region} (hx : x ∈ R) :
    0 < x.len ∧ x.off + x.len ≤ n := by
  obtain ⟨L, h1, h2⟩ := h
  exact (h2.bounds (h1.mem_iff.mpr hx)).2

theorem pairwise {R : List Region} {n : ℕ} (h : Tiles R n) : R.Pairwise Region.Disjoint := by
  obtain ⟨L, h1, h2⟩ := h
  exact h2.pairwise.perm h1 (fun h => h.symm)

/-- **A tiling covers exactly `[0, n)`.** -/
theorem contains_iff {R : List Region} {n : ℕ} (h : Tiles R n) (i : ℕ) :
    (∃ x ∈ R, x.Contains i) ↔ i < n := by
  constructor
  · rintro ⟨x, hx, h1, h2⟩
    have := h.bounds hx
    omega
  · intro hi
    obtain ⟨L, h1, h2⟩ := h
    obtain ⟨x, hx, hc⟩ := h2.exists_contains (Nat.zero_le i) hi
    exact ⟨x, h1.mem_iff.mp hx, hc⟩

theorem dvd {R : List Region} {n k : ℕ} (h : Tiles R n) (hR : ∀ x ∈ R, k ∣ x.len) :
    (∀ x ∈ R, k ∣ x.off) ∧ k ∣ n := by
  obtain ⟨L, h1, h2⟩ := h
  obtain ⟨h3, h4⟩ := h2.dvd (dvd_zero k) (fun x hx => hR x (h1.mem_iff.mp hx))
  exact ⟨fun x hx => h3 x (h1.mem_iff.mpr hx), h4⟩

/-- **The regions below one of a tiling add up to its offset.** -/
theorem sum_below {R : List Region} {n : ℕ} (h : Tiles R n) {x : Region} (hx : x ∈ R) :
    (R.map fun y => if y.off < x.off then y.len else 0).sum = x.off := by
  obtain ⟨L, h1, h2⟩ := h
  have hsum := h2.sum_below (h1.mem_iff.mpr hx)
  rw [Nat.zero_add] at hsum
  rw [← (h1.map _).sum_nat]
  exact hsum

theorem concat {R R' : List Region} {n n' : ℕ} (h : Tiles R n) (h' : Tiles R' n') :
    Tiles (R ++ R'.map (Region.up n)) (n + n') := by
  obtain ⟨L, h1, h2⟩ := h
  obtain ⟨L', h1', h2'⟩ := h'
  refine ⟨L ++ L'.map (Region.up n), h1.append (h1'.map _), h2.append ?_⟩
  have := h2'.up n
  rwa [Nat.zero_add, Nat.add_comm n' n] at this

theorem snoc {R : List Region} {n s : ℕ} (h : Tiles R n) (hs : 0 < s) :
    Tiles (R ++ [⟨n, s⟩]) (n + s) := by
  obtain ⟨L, h1, h2⟩ := h
  exact ⟨L ++ [⟨n, s⟩], h1.append_right _, h2.append (.cons n s [] _ hs (.nil _))⟩

/-- **Removal**: without the region at `o`, and with the later ones moved down over it, the rest
still tiles. -/
theorem remove {R R' : List Region} {n o s : ℕ} (h : Tiles R n) (hp : R.Perm (⟨o, s⟩ :: R')) :
    Tiles (R'.map (Region.slide o s)) (n - s) := by
  obtain ⟨L, h1, h2⟩ := h
  have hmem : (⟨o, s⟩ : Region) ∈ L := (h1.trans hp).mem_iff.mpr List.mem_cons_self
  obtain ⟨A, B, rfl⟩ := List.append_of_mem hmem
  obtain ⟨b, hA, hB⟩ := h2.split
  obtain ⟨hb, hs, hB'⟩ := hB.cons_inv
  simp only at hb hs hB'
  subst hb
  have hperm : (A ++ B).Perm R' :=
    (List.perm_middle.symm.trans (h1.trans hp)).cons_inv
  refine ⟨(A ++ B).map (Region.slide o s), hperm.map _, ?_⟩
  rw [List.map_append, hA.slide_below le_rfl]
  have hB'' := hB'.slide hs (le_refl (o + s))
  rw [Nat.add_sub_cancel] at hB''
  exact hA.append hB''

end Tiles

end Lib
