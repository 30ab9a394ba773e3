import Mathlib.Data.List.Basic
import Mathlib.Order.Defs.LinearOrder
import Mathlib.Tactic.NormNum

/-!
# Lib.SortedVector — a vector of pairs that is kept sorted by key

`indexOrderOf` is a binary search over signed bounds that reports where a key is, or where it would
have to be inserted.  On a vector with strictly ascending keys it cuts the vector at the key
(`exists_cut`), so `add` inserts or replaces, `remove` deletes, and both keep the order
(`sortedAdd_spec`, `sortedRemove_spec`).
-/

namespace Lib

variable {κ β : Type*} [LinearOrder κ]

/-- `-1`, `0` or `1`, as the first key is below, equal to or above the second. -/
def compareKeys (a b : κ) : ℤ := (if b < a then (1 : ℤ) else 0) - if a < b then 1 else 0

theorem compareKeys_eq_zero {a b : κ} : compareKeys a b = 0 ↔ a = b := by
  unfold compareKeys
  rcases lt_trichotomy a b with h | h | h
  · simp [h, h.not_gt, h.ne]
  · simp [h]
  · simp [h, h.not_gt, h.ne']

theorem compareKeys_neg {a b : κ} : compareKeys a b < 0 ↔ a < b := by
  unfold compareKeys
  rcases lt_trichotomy a b with h | h | h
  · simp [h, h.not_gt]
  · simp [h]
  · simp [h, h.not_gt]

/-- The loop of the search between `l` and `h`: the place of the key if it is found, and the place it
belongs to. -/
def indexOrderOfLoop (v : List (κ × β)) (key : κ) : ℕ → ℤ → ℤ → Option ℕ × ℕ
  | 0, l, _ => (none, l.toNat)
  | fuel + 1, l, h =>
    if l ≤ h then
      let mid := l + (h - l) / 2
      match v[mid.toNat]? with
      | none => (none, l.toNat)
      | some curr =>
        let c := compareKeys curr.1 key
        if c = 0 then (some mid.toNat, mid.toNat)
        else if c < 0 then indexOrderOfLoop v key fuel (mid + 1) h
        else indexOrderOfLoop v key fuel l (mid - 1)
    else (none, l.toNat)

/-- The search over the whole vector. -/
def indexOrderOf (v : List (κ × β)) (key : κ) : Option ℕ × ℕ :=
  indexOrderOfLoop v key (v.length + 1) 0 (v.length - 1)

/-- Insert a pair, or replace the one of the same key. -/
def sortedAdd (v : List (κ × β)) (key : κ) (value : β) : List (κ × β) :=
  match indexOrderOf v key with
  | (none, order) => v.take order ++ (key, value) :: v.drop order
  | (some index, _) => v.set index (key, value)

/-- Delete the pair of a key, if there is one. -/
def sortedRemove (v : List (κ × β)) (key : κ) : List (κ × β) :=
  match indexOrderOf v key with
  | (none, _) => v
  | (some index, _) => v.eraseIdx index

/-- Strictly ascending keys. -/
def StrictlySorted (v : List (κ × β)) : Prop := v.Pairwise fun a b => a.1 < b.1

section Search

variable {v : List (κ × β)} {key : κ}

/-- What the search has to report. -/
def Located (v : List (κ × β)) (key : κ) : Option ℕ × ℕ → Prop
  | (some i, _) => ∃ x, v[i]? = some x ∧ x.1 = key
  | (none, o) => o ≤ v.length ∧ (∀ i x, v[i]? = some x → i < o → x.1 < key) ∧
      ∀ i x, v[i]? = some x → o ≤ i → key < x.1

theorem StrictlySorted.lt (hs : StrictlySorted v) {i j : ℕ} {x y : κ × β} (hi : v[i]? = some x)
    (hj : v[j]? = some y) (h : i < j) : x.1 < y.1 := by
  obtain ⟨hi', rfl⟩ := List.getElem?_eq_some_iff.mp hi
  obtain ⟨hj', rfl⟩ := List.getElem?_eq_some_iff.mp hj
  exact List.pairwise_iff_getElem.mp hs i j hi' hj' h

/-- **The loop**: everything below `l` is below the key and everything above `h` is above it, and there
is fuel for the rest. -/
theorem indexOrderOfLoop_located (hs : StrictlySorted v) {fuel : ℕ} {l h : ℤ} (hl : 0 ≤ l)
    (hlh : l ≤ h + 1) (hh : h < v.length) (hfuel : h - l + 1 < fuel)
    (hlow : ∀ (i : ℕ) x, v[i]? = some x → (i : ℤ) < l → x.1 < key)
    (hhigh : ∀ (i : ℕ) x, v[i]? = some x → h < (i : ℤ) → key < x.1) :
    Located v key (indexOrderOfLoop v key fuel l h) := by
  induction fuel generalizing l h with
  | zero => omega
  | succ fuel ih =>
    unfold indexOrderOfLoop
    by_cases hle : l ≤ h
    · rw [if_pos hle]
      dsimp only
      obtain ⟨n, hn⟩ := Int.eq_ofNat_of_zero_le (show 0 ≤ l + (h - l) / 2 by omega)
      have hlt : n < v.length := by omega
      have hmid : v[n]? = some v[n] := List.getElem?_eq_getElem hlt
      rw [hn, Int.toNat_natCast, hmid]
      dsimp only
      split_ifs with h0 hneg
      · exact ⟨v[n], hmid, compareKeys_eq_zero.mp h0⟩
      · -- the key is above the middle
        have hbelow := compareKeys_neg.mp hneg
        refine ih (by omega) (by omega) hh (by omega) (fun i x hi hlt' => ?_) hhigh
        rcases lt_or_eq_of_le (show i ≤ n by omega) with hin | rfl
        · exact (hs.lt hi hmid hin).trans hbelow
        · rw [hmid] at hi
          obtain rfl := Option.some.inj hi
          exact hbelow
      · have habove : key < v[n].1 := by
          rcases lt_trichotomy v[n].1 key with h1 | h1 | h1
          · exact absurd (compareKeys_neg.mpr h1) hneg
          · exact absurd (compareKeys_eq_zero.mpr h1) h0
          · exact h1
        refine ih hl (by omega) (by omega) (by omega) hlow (fun i x hi hlt' => ?_)
        rcases lt_or_eq_of_le (show n ≤ i by omega) with hin | rfl
        · exact habove.trans (hs.lt hmid hi hin)
        · rw [hmid] at hi
          obtain rfl := Option.some.inj hi
          exact habove
    · rw [if_neg hle]
      exact ⟨by omega, fun i x hi hlt => hlow i x hi (by omega),
        fun i x hi hge => hhigh i x hi (by omega)⟩

theorem indexOrderOf_located (hs : StrictlySorted v) (key : κ) :
    Located v key (indexOrderOf v key) := by
  refine indexOrderOfLoop_located hs le_rfl (by omega) (by omega) (by push_cast; omega)
    (fun i x _ hi => by omega) (fun i x hi hlt => ?_)
  have := (List.getElem?_eq_some_iff.mp hi).1
  omega

/-- **The cut at a key**: the pairs below it and the pairs above it, and between them the pair of the key
if it is there. -/
structure Cut (v : List (κ × β)) (key : κ) (below above : List (κ × β)) : Prop where
  below_lt : ∀ x ∈ below, x.1 < key
  above_gt : ∀ x ∈ above, key < x.1
  sorted : StrictlySorted (below ++ above)
  split : v = below ++ above ∨ ∃ x, x.1 = key ∧ v = below ++ x :: above

theorem cut_of_index (hs : StrictlySorted v) {i : ℕ} {x : κ × β} (hi : v[i]? = some x)
    (hx : x.1 = key) : Cut v key (v.take i) (v.drop (i + 1)) := by
  obtain ⟨hlt, rfl⟩ := List.getElem?_eq_some_iff.mp hi
  have hv : v = v.take i ++ v[i] :: v.drop (i + 1) := by
    rw [← List.drop_eq_getElem_cons hlt, List.take_append_drop]
  refine ⟨fun y hy => ?_, fun y hy => ?_, ?_, Or.inr ⟨v[i], hx, hv⟩⟩
  · obtain ⟨j, hj⟩ := List.mem_iff_getElem?.mp hy
    rw [List.getElem?_take] at hj
    split_ifs at hj with hji
    rw [← hx]
    exact hs.lt hj hi hji
  · obtain ⟨j, hj⟩ := List.mem_iff_getElem?.mp hy
    rw [List.getElem?_drop] at hj
    rw [← hx]
    exact hs.lt hi hj (by omega)
  · rw [hv] at hs
    exact hs.sublist (List.Sublist.append_left (List.sublist_cons_self _ _) _)

theorem cut_of_order (hs : StrictlySorted v) {o : ℕ} (h : Located v key (none, o)) :
    Cut v key (v.take o) (v.drop o) := by
  obtain ⟨-, hlow, hhigh⟩ := h
  refine ⟨fun y hy => ?_, fun y hy => ?_, ?_, Or.inl (List.take_append_drop o v).symm⟩
  · obtain ⟨j, hj⟩ := List.mem_iff_getElem?.mp hy
    rw [List.getElem?_take] at hj
    split_ifs at hj with hjo
    exact hlow j y hj hjo
  · obtain ⟨j, hj⟩ := List.mem_iff_getElem?.mp hy
    rw [List.getElem?_drop] at hj
    exact hhigh (o + j) y hj (by omega)
  · rw [List.take_append_drop]
    exact hs

/-- **Both operations in terms of the cut.** -/
theorem exists_cut (hs : StrictlySorted v) (key : κ) : ∃ below above, Cut v key below above ∧
    (∀ value, sortedAdd v key value = below ++ (key, value) :: above) ∧
      sortedRemove v key = below ++ above := by
  have hloc := indexOrderOf_located hs key
  unfold sortedAdd sortedRemove
  rcases hi : indexOrderOf v key with ⟨_ | i, o⟩
  · rw [hi] at hloc
    exact ⟨_, _, cut_of_order hs hloc, fun _ => rfl, (List.take_append_drop o v).symm⟩
  · rw [hi] at hloc
    obtain ⟨x, hx, hk⟩ := hloc
    have hlt := (List.getElem?_eq_some_iff.mp hx).1
    refine ⟨_, _, cut_of_index hs hx hk, fun value => ?_, ?_⟩
    · dsimp only
      rw [List.set_eq_take_append_cons_drop, if_pos hlt]
    · dsimp only
      rw [List.eraseIdx_eq_take_drop_succ]

theorem Cut.mem_iff {below above : List (κ × β)} (h : Cut v key below above) (y : κ × β) :
    y ∈ below ++ above ↔ y.1 ≠ key ∧ y ∈ v := by
  have hne : y ∈ below ++ above → y.1 ≠ key := by
    intro hy
    rcases List.mem_append.mp hy with hy | hy
    · exact (h.below_lt y hy).ne
    · exact (h.above_gt y hy).ne'
  rcases h.split with hv | ⟨x, hx, hv⟩
  · rw [hv]
    exact ⟨fun hy => ⟨hne hy, hy⟩, fun hy => hy.2⟩
  · rw [hv]
    constructor
    · intro hy
      refine ⟨hne hy, ?_⟩
      rcases List.mem_append.mp hy with hy | hy
      · exact List.mem_append_left _ hy
      · exact List.mem_append_right _ (List.mem_cons_of_mem _ hy)
    · rintro ⟨hk, hy⟩
      rcases List.mem_append.mp hy with hy | hy
      · exact List.mem_append_left _ hy
      · rcases List.mem_cons.mp hy with rfl | hy
        · exact absurd hx hk
        · exact List.mem_append_right _ hy

/-- **`add` keeps the order and sets one key.** -/
theorem sortedAdd_spec (hs : StrictlySorted v) (key : κ) (value : β) :
    StrictlySorted (sortedAdd v key value) ∧
      ∀ y, y ∈ sortedAdd v key value ↔ y = (key, value) ∨ (y.1 ≠ key ∧ y ∈ v) := by
  obtain ⟨below, above, hcut, hadd, -⟩ := exists_cut hs key
  rw [hadd value]
  constructor
  · have hsplit := List.pairwise_append.mp hcut.sorted
    refine List.pairwise_append.mpr ⟨hsplit.1, List.pairwise_cons.mpr ⟨hcut.above_gt, hsplit.2.1⟩, ?_⟩
    intro a ha b hb
    rcases List.mem_cons.mp hb with rfl | hb
    · exact hcut.below_lt a ha
    · exact hsplit.2.2 a ha b hb
  · intro y
    rw [← hcut.mem_iff, List.mem_append, List.mem_cons, List.mem_append]
    tauto

/-- **`remove` keeps the order and deletes one key.** -/
theorem sortedRemove_spec (hs : StrictlySorted v) (key : κ) :
    StrictlySorted (sortedRemove v key) ∧ ∀ y, y ∈ sortedRemove v key ↔ y.1 ≠ key ∧ y ∈ v := by
  obtain ⟨below, above, hcut, -, hrem⟩ := exists_cut hs key
  rw [hrem]
  exact ⟨hcut.sorted, hcut.mem_iff⟩

end Search

end Lib
