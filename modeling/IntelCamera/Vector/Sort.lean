import IntelCamera.Vector.Edit

/-!
# Vector.Sort — `VectorImpl::sort`

An insertion sort that writes only when it finds an item out of order, and then sorts in storage of its own
with room for one more item.  The items are moved by destroying and copying them.

Whatever the comparison answers, the items are the same afterwards.  If it is a total preorder they are in
order, and items that compare equal are in the order they had (`Sorts`).
-/

namespace IntelCamera

open Lib

namespace Vector

/-! ### The code -/

section Code

variable {α : Type} (T : ItemType α) (cmp : Option α → Option α → ℤ)

/-- The first `i` with `cmp(curr, item) > 0`, of the `n` items from `i` on. -/
def firstInversion (cells : Cells α) : ℕ → ℕ → Option ℕ
  | _, 0 => none
  | i, n + 1 => if 0 < cmp (cells (i - 1)) (cells i) then some i else firstInversion cells (i + 1) n

/-- `_do_destroy(to, 1); _do_copy(to, from, 1);`. -/
def overwrite (cap : ℕ) (cells : Cells α) (to_ scap : ℕ) (src : Cells α) (from_ : ℕ) :
    Except Stop (Cells α) := do
  let cells ← destroyType T.traits cap cells to_ 1
  copyType T.traits cap cells to_ scap src from_ 1

/-- The `do` loop: `curr` moves down as long as it compares greater.  It ends with the free place. -/
def shiftLoop (cap : ℕ) (temp : Option α) : Cells α → ℕ → Except Stop (Cells α × ℕ)
  | cells, 0 => do
    let cells ← overwrite T cap cells 1 cap cells 0
    .ok (cells, 0)
  | cells, j + 1 => do
    let cells ← overwrite T cap cells (j + 2) cap cells (j + 1)
    if 0 < cmp (cells j) temp then shiftLoop cap temp cells j else .ok (cells, j + 1)

/-- The body of the `while` loop for an item that is out of order.  `temp` holds an item from before. -/
def insertItem (cap : ℕ) (cells temp : Cells α) (i : ℕ) : Except Stop (Cells α × Cells α) := do
  let temp ← overwrite T 1 temp 0 cap cells i
  let (cells, next) ← shiftLoop T cmp cap (temp 0) cells (i - 1)
  let cells ← overwrite T cap cells next 1 temp 0
  .ok (cells, temp)

/-- The `while` loop, for the `n` items from `i` on. -/
def sortLoop (cap : ℕ) : Cells α → Cells α → ℕ → ℕ → Except Stop (Cells α × Cells α)
  | cells, temp, _, 0 => .ok (cells, temp)
  | cells, temp, i, n + 1 =>
    if 0 < cmp (cells (i - 1)) (cells i) then do
      let (cells, temp) ← insertItem T cmp cap cells temp i
      sortLoop cap cells temp (i + 1) n
    else sortLoop cap cells temp (i + 1) n

/-- The loop from the first item that is out of order: `temp` is allocated, and at the end destroyed. -/
def sortCells (cap : ℕ) (cells : Cells α) (i n : ℕ) : Except Stop (Cells α) := do
  let temp ← copyType T.traits 1 (fun _ => none) 0 cap cells i 1
  let (cells, next) ← shiftLoop T cmp cap (temp 0) cells (i - 1)
  let cells ← overwrite T cap cells next 1 temp 0
  let (cells, temp) ← sortLoop T cmp cap cells temp (i + 1) n
  let temp ← destroyType T.traits 1 temp 0 1
  if T.traits.Raw (temp 0) then .ok cells else .error .leak

/-- `VectorImpl::sort`; `tempOk` is the answer to `malloc(mItemSize)`. -/
def sort (ans : Answers) (tempOk : Bool) (mem : Memory α) (x : Impl) :
    Except Stop (Memory α × Impl × Result) :=
  match x.mStorage with
  | none => .ok (mem, x, .value 0)
  | some p => do
    let st ← deref mem p
    match firstInversion cmp st.cells 1 (x.mCount - 1) with
    | none => .ok (mem, x, .value 0)
    | some i =>
      let (mem, x) ← editArrayImpl T ans.malloc mem x
      if tempOk then
        let mem ← rewrite mem x fun st => sortCells T cmp st.capacity st.cells i (x.mCount - 1 - i)
        .ok (mem, x, .value 0)
      else .ok (mem, x, .noMemory)

end Code

/-! ### The loops -/

section Loops

variable {α : Type} {T : ItemType α} {cmp : Option α → Option α → ℤ} {cap : ℕ} {cells : Cells α}

theorem overwrite_eq {scap d s : ℕ} {src : Cells α} (hd : d < cap) (hs : s < scap)
    (ho : T.traits.Object (cells d)) (hsrc : T.traits.Object (src s)) :
    overwrite T cap cells d scap src s = .ok (Function.update cells d (src s)) := by
  have hone : ∀ (c : Cells α) (f : ℕ → Option α), fill c d 1 f = Function.update c d (f 0) := by
    intro c f
    rw [← fill_update, fill_zero]
  unfold overwrite
  rw [destroyType_eq (by omega) fun k hk => by rw [show k = 0 by omega]; exact ho]
  simp only [bind, Except.bind]
  rw [copyType_eq (by omega) (by omega)]
  · congr 1
    rw [hone]
    split_ifs with ht
    · rfl
    · rw [hone, Function.update_idem, Nat.add_zero]
  · intro k hk
    rw [show d + k = d by omega]
    split_ifs with ht
    · exact Or.inl ht
    · rw [hone, Function.update_self]
      exact Or.inr rfl
  · intro k hk
    rw [show s + k = s by omega]
    exact hsrc

/-- **The `do` loop** moves the items above `m` by one. -/
theorem shiftLoop_spec {temp : Option α} {j : ℕ} (hj : j + 1 < cap)
    (ho : ∀ k ≤ j + 1, T.traits.Object (cells k)) (hgt : 0 < cmp (cells j) temp) :
    ∃ cells' m, shiftLoop T cmp cap temp cells j = .ok (cells', m) ∧ m ≤ j ∧
      (∀ k ≤ m, cells' k = cells k) ∧ (∀ k, m ≤ k → k ≤ j → cells' (k + 1) = cells k) ∧
      (∀ k, j + 1 < k → cells' k = cells k) ∧ (∀ k, m ≤ k → k ≤ j → 0 < cmp (cells k) temp) ∧
      ∀ k, k + 1 = m → cmp (cells k) temp ≤ 0 := by
  induction j generalizing cells with
  | zero =>
    refine ⟨Function.update cells 1 (cells 0), 0, ?_, le_rfl, ?_, ?_, ?_, ?_, ?_⟩
    · rw [shiftLoop, overwrite_eq hj (by omega) (ho 1 (by omega)) (ho 0 (by omega))]
      rfl
    · intro k hk
      exact Function.update_of_ne (by omega) ..
    · intro k _ hk
      obtain rfl : k = 0 := by omega
      exact Function.update_self ..
    · intro k hk
      exact Function.update_of_ne (by omega) ..
    · intro k _ hk
      obtain rfl : k = 0 := by omega
      exact hgt
    · intro k hk
      omega
  | succ j ih =>
    have hover : overwrite T cap cells (j + 2) cap cells (j + 1) =
        .ok (Function.update cells (j + 2) (cells (j + 1))) :=
      overwrite_eq hj (by omega) (ho (j + 2) (by omega)) (ho (j + 1) (by omega))
    have hat : ∀ k, k ≠ j + 2 → Function.update cells (j + 2) (cells (j + 1)) k = cells k :=
      fun k hk => Function.update_of_ne hk ..
    rw [shiftLoop, hover]
    simp only [bind, Except.bind, hat j (by omega)]
    by_cases hc : 0 < cmp (cells j) temp
    · rw [if_pos hc]
      have ho' : ∀ k ≤ j + 1, T.traits.Object (Function.update cells (j + 2) (cells (j + 1)) k) := by
        intro k hk
        rw [hat k (by omega)]
        exact ho k (by omega)
      have hgt' : 0 < cmp (Function.update cells (j + 2) (cells (j + 1)) j) temp := by
        rw [hat j (by omega)]
        exact hc
      obtain ⟨cells', m, hrun, hm, hlow, hshift, hhigh, hgreater, hstop⟩ := ih (by omega) ho' hgt'
      refine ⟨cells', m, hrun, by omega, ?_, ?_, ?_, ?_, ?_⟩
      · intro k hk
        rw [hlow k hk, hat k (by omega)]
      · intro k h1 h2
        by_cases hk : k = j + 1
        · subst hk
          rw [hhigh (j + 2) (by omega), Function.update_self]
        · rw [hshift k h1 (by omega), hat k (by omega)]
      · intro k hk
        rw [hhigh k (by omega), hat k (by omega)]
      · intro k h1 h2
        by_cases hk : k = j + 1
        · subst hk
          exact hgt
        · have h := hgreater k h1 (by omega)
          rw [hat k (by omega)] at h
          exact h
      · intro k hk
        have h := hstop k hk
        rw [hat k (by omega)] at h
        exact h
    · rw [if_neg hc]
      refine ⟨_, j + 1, rfl, le_rfl, ?_, ?_, ?_, ?_, ?_⟩
      · intro k hk
        exact hat k (by omega)
      · intro k h1 h2
        obtain rfl : k = j + 1 := by omega
        exact Function.update_self ..
      · intro k hk
        exact hat k (by omega)
      · intro k h1 h2
        obtain rfl : k = j + 1 := by omega
        exact hgt
      · intro k hk
        obtain rfl : k = j := by omega
        omega

/-- The item in `temp` is inserted. -/
theorem shift_insert {temp : Cells α} {i : ℕ} (hi : 0 < i) (hcap : i < cap)
    (ho : ∀ k ≤ i, T.traits.Object (cells k)) (htemp : temp 0 = cells i)
    (hgt : 0 < cmp (cells (i - 1)) (cells i)) :
    ∃ cells₁ cells' m, shiftLoop T cmp cap (temp 0) cells (i - 1) = .ok (cells₁, m) ∧
      overwrite T cap cells₁ m 1 temp 0 = .ok cells' ∧ Inserted cmp cells cells' m i := by
  have ho' : ∀ k ≤ i - 1 + 1, T.traits.Object (cells k) := fun k hk => ho k (by omega)
  have hgt' : 0 < cmp (cells (i - 1)) (temp 0) := by
    rw [htemp]
    exact hgt
  obtain ⟨cells', m, hrun, hm, hlow, hshift, hhigh, hgreater, hstop⟩ :=
    shiftLoop_spec (show i - 1 + 1 < cap by omega) ho' hgt'
  have hother : ∀ k, k ≠ m → Function.update cells' m (temp 0) k = cells' k :=
    fun k hk => Function.update_of_ne hk ..
  refine ⟨cells', Function.update cells' m (temp 0), m, hrun, ?_, by omega, ?_, ?_, ?_, ?_, ?_, ?_⟩
  · refine overwrite_eq (by omega) Nat.one_pos ?_ ?_
    · rw [hlow m le_rfl]
      exact ho m (by omega)
    · rw [htemp]
      exact ho i le_rfl
  · intro k hk
    rw [hother k (by omega), hlow k (by omega)]
  · rw [Function.update_self, htemp]
  · intro k h1 h2
    rw [hother (k + 1) (by omega), hshift k h1 (by omega)]
  · intro k hk
    rw [hother k (by omega), hhigh k (by omega)]
  · intro k h1 h2
    rw [← htemp]
    exact hgreater k h1 (by omega)
  · intro k hk
    rw [← htemp]
    exact hstop k hk

/-- What holds of all items holds of them after they are rearranged. -/
theorem forall_rearranged {cells' : Cells α} {n : ℕ} {P : Option α → Prop}
    (hr : Rearranged cmp ((List.range n).map cells) ((List.range n).map cells'))
    (h : ∀ k < n, P (cells k)) : ∀ k < n, P (cells' k) := by
  intro k hk
  have hmem : cells' k ∈ (List.range n).map cells := by
    rw [← hr.perm.mem_iff]
    exact List.mem_map_of_mem (List.mem_range.mpr hk)
  obtain ⟨j, hj, he⟩ := List.mem_map.mp hmem
  rw [← he]
  exact h j (List.mem_range.mp hj)

/-- How far the sort has come: the first `i` of `n` items are in order. -/
structure Progress (cmp : Option α → Option α → ℤ) (cells cells' : Cells α) (i n : ℕ) : Prop where
  rearranged : Rearranged cmp ((List.range n).map cells) ((List.range n).map cells')
  high : ∀ k, n ≤ k → cells' k = cells k
  ascending : Orders cmp → InOrder cmp cells' i

theorem Progress.insert {cells' cells'' : Cells α} {m i n : ℕ} (h : Progress cmp cells cells' i n)
    (hi : i < n) (hin : Inserted cmp cells' cells'' m i) : Progress cmp cells cells'' (i + 1) n :=
  ⟨h.rearranged.trans (hin.rearranged hi), fun k hk => (hin.high k (by omega)).trans (h.high k hk),
    fun hc => hin.ascending hc (h.ascending hc)⟩

theorem Progress.skip {cells' : Cells α} {i n : ℕ} (h : Progress cmp cells cells' i n)
    (hle : ¬0 < cmp (cells' (i - 1)) (cells' i)) : Progress cmp cells cells' (i + 1) n := by
  refine ⟨h.rearranged, h.high, fun hc => (h.ascending hc).succ fun k hk => ?_⟩
  subst hk
  rw [Nat.add_sub_cancel] at hle
  omega

/-- **The `while` loop** sorts the rest. -/
theorem sortLoop_spec {cells₀ temp : Cells α} {i k : ℕ} (hi : 0 < i) (hcap : i + k ≤ cap)
    (ho : ∀ j < i + k, T.traits.Object (cells j)) (htemp : T.traits.Object (temp 0))
    (hp : Progress cmp cells₀ cells i (i + k)) :
    ∃ cells' temp', sortLoop T cmp cap cells temp i k = .ok (cells', temp') ∧
      T.traits.Object (temp' 0) ∧ Progress cmp cells₀ cells' (i + k) (i + k) := by
  induction k generalizing cells temp i with
  | zero => exact ⟨cells, temp, rfl, htemp, hp⟩
  | succ k ih =>
    have hn : i + (k + 1) = i + 1 + k := by omega
    unfold sortLoop
    by_cases hgt : 0 < cmp (cells (i - 1)) (cells i)
    · rw [if_pos hgt]
      have hsave : overwrite T 1 temp 0 cap cells i = .ok (Function.update temp 0 (cells i)) :=
        overwrite_eq Nat.one_pos (by omega) htemp (ho i (by omega))
      have hsaved : Function.update temp 0 (cells i) 0 = cells i := Function.update_self ..
      have ho' : ∀ j ≤ i, T.traits.Object (cells j) := fun j hj => ho j (by omega)
      obtain ⟨cells₁, cells', m, hshift, hrun, hins⟩ :=
        shift_insert hi (show i < cap by omega) ho' hsaved hgt
      have hitem : insertItem T cmp cap cells temp i =
          .ok (cells', Function.update temp 0 (cells i)) := by
        simp only [insertItem, hsave, hshift, hrun, bind, Except.bind]
      rw [hitem]
      have hp' := hp.insert (by omega) hins
      rw [hn] at hp' hcap ho ⊢
      refine ih (by omega) hcap ?_ ?_ hp'
      · exact forall_rearranged (hins.rearranged (by omega)) ho
      · rw [Function.update_self]
        exact ho i (by omega)
    · rw [if_neg hgt]
      have hp' := hp.skip hgt
      rw [hn] at hp' hcap ho ⊢
      exact ih (by omega) hcap ho htemp hp'

/-- The search for the first item out of order. -/
theorem firstInversion_spec {i k : ℕ} (hi : 0 < i) (ha : InOrder cmp cells i) :
    (firstInversion cmp cells i k = none → InOrder cmp cells (i + k)) ∧
      ∀ j, firstInversion cmp cells i k = some j →
        0 < j ∧ j < i + k ∧ InOrder cmp cells j ∧ 0 < cmp (cells (j - 1)) (cells j) := by
  induction k generalizing i with
  | zero =>
    refine ⟨fun _ => ha, fun j hj => ?_⟩
    cases hj
  | succ k ih =>
    unfold firstInversion
    by_cases hgt : 0 < cmp (cells (i - 1)) (cells i)
    · rw [if_pos hgt]
      refine ⟨fun h => absurd h (by simp), fun j hj => ?_⟩
      obtain rfl := Option.some.inj hj
      exact ⟨hi, by omega, ha, hgt⟩
    · rw [if_neg hgt]
      have ha' : InOrder cmp cells (i + 1) := by
        refine ha.succ fun k hk => ?_
        subst hk
        rw [Nat.add_sub_cancel] at hgt
        omega
      have h := ih (by omega) ha'
      rw [show i + 1 + k = i + (k + 1) by omega] at h
      exact h

/-- From the first item out of order on. -/
theorem sortCells_spec {i k : ℕ} (hi : 0 < i) (hcap : i + (k + 1) ≤ cap)
    (ho : ∀ j < i + (k + 1), T.traits.Object (cells j)) (ha : InOrder cmp cells i)
    (hgt : 0 < cmp (cells (i - 1)) (cells i)) :
    ∃ cells', sortCells T cmp cap cells i k = .ok cells' ∧
      Progress cmp cells cells' (i + (k + 1)) (i + (k + 1)) := by
  have hn : i + (k + 1) = i + 1 + k := by omega
  rw [hn] at hcap ho ⊢
  have hsave : copyType T.traits 1 (fun _ => none) 0 cap cells i 1 =
      .ok (fill (fun _ => none) 0 1 fun k => cells (i + k)) :=
    copyType_eq (by omega) (by omega) (fun _ _ => Or.inr rfl) fun k hk => ho (i + k) (by omega)
  generalize htemp : (fill (fun _ => none) 0 1 fun k => cells (i + k)) = temp at hsave
  have h0 : temp 0 = cells i := by
    rw [← htemp, fill_inside (Nat.le_refl 0) (by omega)]
    rfl
  have ho' : ∀ j ≤ i, T.traits.Object (cells j) := fun j hj => ho j (by omega)
  obtain ⟨cells₀, cells₁, m, hshift, hrun, hins⟩ := shift_insert hi (show i < cap by omega) ho' h0 hgt
  have hp : Progress cmp cells cells₁ (i + 1) (i + 1 + k) :=
    Progress.insert ⟨.refl _, fun _ _ => rfl, fun _ => ha⟩ (by omega) hins
  have htemp₁ : T.traits.Object (temp 0) := by
    rw [h0]
    exact ho i (by omega)
  obtain ⟨cells₂, temp₂, hloop, htemp₂, hp₂⟩ :=
    sortLoop_spec (by omega) hcap (forall_rearranged hp.rearranged ho) htemp₁ hp
  refine ⟨cells₂, ?_, hp₂⟩
  have hlast : ∀ k < 1, T.traits.Object (temp₂ (0 + k)) := by
    intro k hk
    rw [show 0 + k = 0 by omega]
    exact htemp₂
  have hend := destroyType_eq (show 0 + 1 ≤ 1 by omega) hlast
  simp only [sortCells, hsave, hshift, hrun, hloop, hend, bind, Except.bind]
  refine if_pos ?_
  split_ifs with hd
  · exact Or.inl hd
  · rw [fill_inside (Nat.le_refl 0) (by omega)]
    exact Or.inr rfl

end Loops

/-! ### The operation -/

section Operation

variable {α : Type} {T : ItemType α} {mem : Memory α} {x : Impl} {cmp : Option α → Option α → ℤ}

/-- Items that are all in order are sorted. -/
theorem sorts_of_ascending {cells : Cells α} {n : ℕ} (h : Orders cmp → InOrder cmp cells n) :
    Sorts cmp ((List.range n).map cells) ((List.range n).map cells) :=
  (Rearranged.refl _).sorts fun hc => (h hc).pairwise hc

/-- **`sort`** sorts the items; without memory for one more item it leaves them, and says so. -/
theorem sort_spec (cmp : Option α → Option α → ℤ) (ans : Answers) (tempOk : Bool)
    (ho : Owns T mem x) :
    Safe ⟨False, ans.malloc = false, False⟩ (sort T cmp ans tempOk mem x) fun r =>
      (r.2.2 = .noMemory ∧ tempOk = false ∧ Edited T mem x r.1 r.2.1 (content mem x)) ∨
      (r.2.2 = .value 0 ∧ ∃ l, Sorts cmp (content mem x) l ∧ Edited T mem x r.1 r.2.1 l) := by
  unfold sort
  cases hx : x.mStorage with
  | none =>
    refine Or.inr ⟨rfl, _, ?_, .same ho⟩
    have h0 := ho.empty hx
    rw [content, h0]
    exact sorts_of_ascending fun _ k hk => by omega
  | some p =>
    obtain ⟨st, hst, -, hg⟩ := ho.storage p hx
    simp only [deref_eq hst, bind, Except.bind]
    have hone : InOrder cmp st.cells 1 := fun k hk => by omega
    have hfirst := firstInversion_spec (k := x.mCount - 1) Nat.one_pos hone
    cases hinv : firstInversion cmp st.cells 1 (x.mCount - 1) with
    | none =>
      refine Or.inr ⟨rfl, _, ?_, .same ho⟩
      rw [content, cellsOf_eq hx hst]
      exact sorts_of_ascending fun _ k hk => hfirst.1 hinv k (by omega)
    | some i =>
      obtain ⟨hi, hin, ha, hgt⟩ := hfirst.2 i hinv
      obtain ⟨k, hk⟩ : ∃ k, x.mCount = i + (k + 1) := ⟨x.mCount - 1 - i, by omega⟩
      refine Ends.bind (editArrayImpl_spec ans.malloc ho hx hst) ?_
      rintro ⟨mem₁, x₁⟩ ⟨hcount, hch, st₁, hs, hg₁, hcap₁, hcells⟩
      dsimp only at hcount hch hs ⊢
      have hsame : content mem₁ x₁ = content mem x := by
        rw [hs.items, hcount, content, cellsOf_eq hx hst]
        exact map_range_congr hcells
      cases tempOk with
      | false =>
        exact Or.inl ⟨rfl, rfl, hch, hs.owns (by rw [hcount]; exact hg₁), hsame⟩
      | true =>
        rw [if_pos rfl]
        have ha₁ : InOrder cmp st₁.cells i := by
          intro j hj
          rw [hcells j (by omega), hcells (j + 1) (by omega)]
          exact ha j hj
        have hgt₁ : 0 < cmp (st₁.cells (i - 1)) (st₁.cells i) := by
          rw [hcells (i - 1) (by omega), hcells i (by omega)]
          exact hgt
        have hfits := hg₁.fits
        have ho₁ : ∀ j < i + (k + 1), T.traits.Object (st₁.cells j) := fun j hj => hg₁.objects j (by omega)
        obtain ⟨cells', hrun, hp⟩ := sortCells_spec hi (show i + (k + 1) ≤ st₁.capacity by omega) ho₁ ha₁ hgt₁
        rw [← hk] at hp
        rw [hcount, show x.mCount - 1 - i = k by omega]
        refine Ends.bind (rewrite_spec hch hs (Ends.of_eq hrun (P := (· = _)) rfl) x.mCount) ?_
        rintro mem₂ ⟨sorted, rfl, hch₂, hs₂⟩
        have hx₁ : ({ x₁ with mCount := x.mCount } : Impl) = x₁ := by rw [← hcount]
        rw [hx₁] at hch₂ hs₂
        have hgood : Good T { st₁ with cells := sorted } x₁.mCount := by
          rw [hcount]
          refine ⟨hg₁.sized, hfits, forall_rearranged hp.rearranged hg₁.objects, fun j h1 h2 => ?_⟩
          dsimp only
          rw [hp.high j h1]
          exact hg₁.raw j h1 h2
        refine Or.inr ⟨rfl, _, ?_, hch₂, hs₂.owns hgood, rfl⟩
        rw [hs₂.items, ← hsame, hs.items, hcount]
        exact hp.rearranged.sorts fun hc => (hp.ascending hc).pairwise hc

end Operation

end Vector

end IntelCamera
