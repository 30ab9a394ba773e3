import IntelCamera.Lib.Stops
import IntelCamera.Vector.Code

/-!
# Vector.Spec — what one operation does

A vector owns its storage together with those it shares it with (`Owns`): the first `mCount` cells hold
objects, the others are raw.  An operation leaves the vector with the storage it had, as its only owner,
or with a new one and one reference less on the old (`Change`); what it does to the items is said over
the cells.  Nothing else in memory changes, and nothing stops it but what ends the process (`Causes`).
-/

namespace IntelCamera

open Lib

namespace Vector

/-- Why a call may end the process: for a size that is `large`, for want of `memory`, or because it is
`wrong` about an index. -/
structure Causes where
  large : Prop
  memory : Prop
  wrong : Prop

/-- A call may stop here. -/
def Causes.Allow (c : Causes) : Stop → Prop
  | .overflow => c.large
  | .noMemory => c.memory
  | .assertion => c.wrong
  | .undefined | .leak => False

/-- The call returns, or ends the process for one of the causes. -/
abbrev Safe {β : Type} (c : Causes) (r : Except Stop β) (P : β → Prop) : Prop := Ends c.Allow r P

theorem Causes.Allow.mono {c c' : Causes} (hl : c.large → c'.large) (hm : c.memory → c'.memory)
    (hw : c.wrong → c'.wrong) (e : Stop) (h : c.Allow e) : c'.Allow e := by
  cases e with
  | overflow => exact hl h
  | noMemory => exact hm h
  | assertion => exact hw h
  | undefined => exact h
  | leak => exact h

/-- There is a cause. -/
def Causes.Any (c : Causes) : Prop := c.large ∨ c.memory ∨ c.wrong

theorem Causes.Allow.any {c : Causes} {e : Stop} (h : c.Allow e) : c.Any := by
  cases e with
  | overflow => exact Or.inl h
  | noMemory => exact Or.inr (Or.inl h)
  | assertion => exact Or.inr (Or.inr h)
  | undefined => exact h.elim
  | leak => exact h.elim

theorem Causes.Allow.ends {c : Causes} {e : Stop} (h : c.Allow e) : e.ends = true := by
  cases e with
  | overflow => rfl
  | noMemory => rfl
  | assertion => rfl
  | undefined => exact h.elim
  | leak => exact h.elim

/-- The storage that `_grow` wants for `n` items is too large. -/
def Oversized {α : Type} (T : ItemType α) (n : ℕ) : Prop :=
  2 ^ 64 ≤ n + n / 2 + 1 ∨ SharedBuffer.Fatal (grownCapacity n * T.itemSize)

section Defs

variable {α : Type}

/-- A size that could be allocated; the first `n` cells hold objects, the others are raw. -/
structure Good (T : ItemType α) (st : Storage α) (n : ℕ) : Prop where
  sized : ¬SharedBuffer.Fatal (st.capacity * T.itemSize)
  fits : n ≤ st.capacity
  objects : ∀ i < n, T.traits.Object (st.cells i)
  raw : ∀ i, n ≤ i → i < st.capacity → T.traits.Raw (st.cells i)

/-- The storage of the vector is there. -/
structure Owns (T : ItemType α) (mem : Memory α) (x : Impl) : Prop where
  empty : x.mStorage = none → x.mCount = 0
  storage : ∀ p, x.mStorage = some p → ∃ st, mem.get p = some st ∧ 0 < st.refs ∧ Good T st x.mCount

/-- The cells of the vector. -/
def cellsOf (mem : Memory α) (x : Impl) : Cells α :=
  match x.mStorage.bind mem.get with
  | some st => st.cells
  | none => fun _ => none

/-- The items of the vector; `none` is an item that was never given a value. -/
def content (mem : Memory α) (x : Impl) : List (Option α) := (List.range x.mCount).map (cellsOf mem x)

/-- What is at `r` after the vector has released its storage. -/
def afterRelease (mem : Memory α) (x : Impl) (r : ℕ) : Option (Storage α) :=
  if x.mStorage = some r then
    (mem.get r).bind fun st => if st.refs = 1 then none else some { st with refs := st.refs - 1 }
  else mem.get r

/-- How an operation on one vector changes the memory. -/
inductive Change (mem : Memory α) (x : Impl) (mem' : Memory α) (x' : Impl) : Prop
  | same (hm : mem' = mem) (hx' : x' = x)
  | kept {p : ℕ} {st st' : Storage α} (hx : x.mStorage = some p) (hst : mem.get p = some st)
      (h1 : st.refs = 1) (hx' : x'.mStorage = some p) (hst' : mem'.get p = some st') (h1' : st'.refs = 1)
      (hrest : ∀ r, r ≠ p → mem'.get r = mem.get r)
  | moved {q : ℕ} {st' : Storage α} (hx' : x'.mStorage = some q) (hnew : mem.get q = none)
      (hst' : mem'.get q = some st') (h1' : st'.refs = 1)
      (hrest : ∀ r, r ≠ q → mem'.get r = afterRelease mem x r)
  | gone (hx' : x'.mStorage = none) (hrest : ∀ r, mem'.get r = afterRelease mem x r)

/-- The vector is the only owner of `st`. -/
def Sole (mem : Memory α) (x : Impl) (st : Storage α) : Prop :=
  ∃ p, x.mStorage = some p ∧ mem.get p = some st ∧ st.refs = 1

end Defs

section Memory

variable {α : Type} {T : ItemType α} {mem mem' : Memory α} {x x' : Impl} {p : ℕ} {st st' : Storage α}

theorem cellsOf_eq (hx : x.mStorage = some p) (hst : mem.get p = some st) : cellsOf mem x = st.cells := by
  simp [cellsOf, hx, hst]

theorem deref_eq (hst : mem.get p = some st) : deref mem p = .ok st := by
  simp [deref, hst]

theorem capacity_eq (hx : x.mStorage = some p) (hst : mem.get p = some st) :
    capacity mem x = .ok st.capacity := by
  simp [capacity, hx, deref_eq hst, bind, Except.bind]

theorem get_next (mem : Memory α) : mem.get mem.next = none := by
  cases hg : mem.get mem.next with
  | none => rfl
  | some b => exact absurd (Store.lt_next hg) (lt_irrefl _)

theorem Owns.alloc (ho : Owns T mem x) (new : Storage α) : Owns T (mem.alloc new) x := by
  refine ⟨ho.empty, fun p hp => ?_⟩
  obtain ⟨st, hst, hr, hg⟩ := ho.storage p hp
  exact ⟨st, by rw [Store.get_alloc_lt (Store.lt_next hst)]; exact hst, hr, hg⟩

theorem afterRelease_alloc (new : Storage α) {r : ℕ} (hr : r ≠ mem.next) :
    afterRelease (mem.alloc new) x r = afterRelease mem x r := by
  unfold afterRelease
  rw [Store.get_alloc_ne hr]

theorem get_free_released (hx : x.mStorage = some p) (hst : mem.get p = some st) (h1 : st.refs = 1)
    (r : ℕ) : (mem.free p).get r = afterRelease mem x r := by
  unfold afterRelease
  by_cases hr : r = p
  · subst hr
    rw [if_pos hx, hst, Store.get_free]
    simp [h1]
  · rw [if_neg (by rw [hx]; simpa using Ne.symm hr), Store.get_free_ne hr]

theorem get_set_released (hx : x.mStorage = some p) (hst : mem.get p = some st) (h1 : st.refs ≠ 1)
    (r : ℕ) : (mem.set p { st with refs := st.refs - 1 }).get r = afterRelease mem x r := by
  unfold afterRelease
  by_cases hr : r = p
  · subst hr
    rw [if_pos hx, hst, Store.get_set (Store.lt_next hst)]
    simp [h1]
  · rw [if_neg (by rw [hx]; simpa using Ne.symm hr), Store.get_set_ne hr]

/-- The last owner of a buffer destroys what is in it. -/
theorem releaseStorage_spec (ho : Owns T mem x) :
    ∃ mem', releaseStorage T mem x = .ok mem' ∧ ∀ r, mem'.get r = afterRelease mem x r := by
  unfold releaseStorage
  cases hx : x.mStorage with
  | none =>
    refine ⟨mem, rfl, fun r => ?_⟩
    rw [afterRelease, hx, if_neg (by simp)]
  | some p =>
    obtain ⟨st, hst, -, hg⟩ := ho.storage p hx
    simp only [deref_eq hst, bind, Except.bind]
    by_cases h1 : st.refs = 1
    · have hobj : ∀ k < x.mCount, T.traits.Object (st.cells (0 + k)) := by
        intro k hk
        rw [Nat.zero_add]
        exact hg.objects k hk
      rw [if_pos h1, destroyType_eq (by rw [Nat.zero_add]; exact hg.fits) hobj]
      refine ⟨mem.free p, if_pos ?_, get_free_released hx hst h1⟩
      intro i hi
      dsimp only at hi ⊢
      split_ifs with hd
      · exact Or.inl hd
      · by_cases hin : i < x.mCount
        · rw [fill_inside (Nat.zero_le i) (by omega)]
          exact Or.inr rfl
        · rw [fill_outside (by omega)]
          exact hg.raw i (by omega) hi
    · rw [if_neg h1]
      exact ⟨_, rfl, get_set_released hx hst h1⟩

/-- Items without a destructor may be freed as they are. -/
theorem release_spec (hd : T.traits.dtor = true) (hx : x.mStorage = some p) (hst : mem.get p = some st) :
    ∃ mem', release T mem p = .ok mem' ∧ ∀ r, mem'.get r = afterRelease mem x r := by
  unfold release
  simp only [deref_eq hst, bind, Except.bind]
  by_cases h1 : st.refs = 1
  · rw [if_pos h1]
    exact ⟨mem.free p, if_pos fun _ _ => Or.inl hd, get_free_released hx hst h1⟩
  · rw [if_neg h1]
    exact ⟨_, rfl, get_set_released hx hst h1⟩

/-- New storage next to the old one, which is released. -/
theorem replace_spec (ho : Owns T mem x) {new : Storage α} {r : Except Stop (Memory α)}
    (hr : ∃ mem', r = .ok mem' ∧ ∀ r, mem'.get r = afterRelease (mem.alloc new) x r) :
    ∃ mem', r = .ok mem' ∧ mem'.get mem.next = some new ∧
      ∀ r, r ≠ mem.next → mem'.get r = afterRelease mem x r := by
  obtain ⟨mem', h, hget⟩ := hr
  refine ⟨mem', h, ?_, fun r hr => ?_⟩
  · rw [hget, afterRelease, if_neg, Store.get_alloc_next]
    intro hx
    obtain ⟨st, hst, -⟩ := ho.storage _ hx
    exact absurd (Store.lt_next hst) (lt_irrefl _)
  · rw [hget, afterRelease_alloc new hr]

theorem assertIndex_eq (hx : x.mStorage = some p) (hst : mem.get p = some st) {i : ℕ}
    (hi : i < st.capacity) : assertIndex mem x i = .ok () := by
  simp only [assertIndex, capacity_eq hx hst, bind, Except.bind, if_pos hi]

/-- An index outside of the storage is wrong. -/
theorem assertIndex_spec {c : Causes} (hs : Sole mem x st) {i : ℕ} (h : st.capacity ≤ i → c.wrong) :
    Safe c (assertIndex mem x i) fun _ => i < st.capacity := by
  obtain ⟨p, hx, hst, -⟩ := hs
  by_cases hi : i < st.capacity
  · rw [assertIndex_eq hx hst hi]
    exact hi
  · simp only [assertIndex, capacity_eq hx hst, bind, Except.bind, if_neg hi]
    exact h (by omega)

theorem alloc_spec (malloc : Bool) (cap : ℕ) :
    Safe ⟨SharedBuffer.Fatal (cap * T.itemSize), False, False⟩ (alloc T malloc mem cap) fun r =>
      (r = none ∧ malloc = false) ∨ (r = some (mem.next, mem.alloc ⟨1, cap, fun _ => none⟩) ∧
        ¬SharedBuffer.Fatal (cap * T.itemSize)) := by
  unfold alloc
  split_ifs with hf hm
  · exact hf
  · exact Or.inr ⟨rfl, hf⟩
  · exact Or.inl ⟨rfl, by simpa using hm⟩

/-- **`editArrayImpl` makes the vector the only owner**, of the same items. -/
theorem editArrayImpl_spec (malloc : Bool) (ho : Owns T mem x) (hx : x.mStorage = some p)
    (hst : mem.get p = some st) :
    Safe ⟨False, malloc = false, False⟩ (editArrayImpl T malloc mem x) fun r =>
      r.2.mCount = x.mCount ∧ Change mem x r.1 r.2 ∧ ∃ st', Sole r.1 r.2 st' ∧
        Good T st' x.mCount ∧ st'.capacity = st.capacity ∧
        ∀ i < x.mCount, st'.cells i = st.cells i := by
  obtain ⟨st₀, hst₀, -, hg⟩ := ho.storage p hx
  obtain rfl := Option.some.inj (hst.symm.trans hst₀)
  unfold editArrayImpl
  simp only [hx, deref_eq hst, bind, Except.bind]
  by_cases h1 : st.refs = 1
  · rw [if_pos h1]
    exact ⟨rfl, .same rfl rfl, st, ⟨p, hx, hst, h1⟩, hg, rfl, fun _ _ => rfl⟩
  · rw [if_neg h1]
    refine Ends.bind ((alloc_spec malloc st.capacity).weaken
      (Causes.Allow.mono (fun h => hg.sized h) False.elim False.elim)) ?_
    rintro _ (⟨rfl, hm⟩ | ⟨rfl, -⟩)
    · exact hm
    · have hcopy : copyType T.traits st.capacity (fun _ => none) 0 st.capacity st.cells 0 x.mCount =
          .ok (fill (fun _ => none) 0 x.mCount fun k => st.cells (0 + k)) := by
        refine copyType_eq (by have := hg.fits; omega) (by have := hg.fits; omega)
          (fun _ _ => Or.inr rfl) ?_
        intro k hk
        rw [Nat.zero_add]
        exact hg.objects k hk
      simp only [hcopy, Store.set_alloc_next]
      obtain ⟨mem', hrel, hnew, hrest⟩ := replace_spec ho (releaseStorage_spec (ho.alloc
        ⟨1, st.capacity, fill (fun _ => none) 0 x.mCount fun k => st.cells (0 + k)⟩))
      rw [hrel]
      refine ⟨rfl, .moved rfl (get_next mem) hnew rfl hrest, _, ⟨_, rfl, hnew, rfl⟩,
        ⟨hg.sized, hg.fits, ?_, ?_⟩, rfl, ?_⟩
      · intro i hi
        dsimp only
        rw [fill_inside (Nat.zero_le i) (by omega), Nat.zero_add]
        exact hg.objects i hi
      · intro i hi _
        dsimp only
        rw [fill_outside (by omega)]
        exact Or.inr rfl
      · intro i hi
        dsimp only
        rw [fill_inside (Nat.zero_le i) (by omega), Nat.zero_add, Nat.sub_zero]

theorem copyResize_spec (malloc : Bool) (ho : Owns T mem x) (hd : T.traits.dtor = true)
    (hx : x.mStorage = some p) (hst : mem.get p = some st) (newCapacity : ℕ) :
    Safe ⟨SharedBuffer.Fatal (newCapacity * T.itemSize), False, False⟩
      (copyResize T malloc mem p st newCapacity) fun r =>
      (r = none ∧ malloc = false) ∨ ∃ mem', r = some (mem.next, mem') ∧
        ¬SharedBuffer.Fatal (newCapacity * T.itemSize) ∧
        mem'.get mem.next = some ⟨1, newCapacity, truncate st newCapacity⟩ ∧
        ∀ r, r ≠ mem.next → mem'.get r = afterRelease mem x r := by
  unfold copyResize
  refine Ends.bind (alloc_spec malloc newCapacity) ?_
  rintro _ (⟨rfl, hm⟩ | ⟨rfl, hz⟩)
  · exact Or.inl ⟨rfl, hm⟩
  · have hst' : (mem.alloc ⟨1, newCapacity, truncate st newCapacity⟩).get p = some st := by
      rw [Store.get_alloc_lt (Store.lt_next hst)]
      exact hst
    obtain ⟨mem', hrel, hnew, hrest⟩ := replace_spec ho (release_spec hd hx hst')
    simp only [Store.set_alloc_next, hrel, bind, Except.bind]
    exact Or.inr ⟨mem', rfl, hz, hnew, hrest⟩

/-- **`editResize` keeps what fits**, in place or in new storage. -/
theorem editResize_spec (ans : Answers) (ho : Owns T mem x) (hd : T.traits.dtor = true)
    (hx : x.mStorage = some p) (hst : mem.get p = some st) (newCapacity n : ℕ) :
    Safe ⟨SharedBuffer.Fatal (newCapacity * T.itemSize), False, False⟩
      (editResize T ans mem p newCapacity) fun r =>
      (r = none ∧ ans.malloc = false) ∨ ∃ q mem', r = some (q, mem') ∧
        Change mem x mem' ⟨some q, n⟩ ∧ ∃ st', Sole mem' ⟨some q, n⟩ st' ∧ st'.capacity = newCapacity ∧
          ¬SharedBuffer.Fatal (st'.capacity * T.itemSize) ∧
          ∀ i < min st.capacity newCapacity, st'.cells i = st.cells i := by
  have hkeep : ∀ i < min st.capacity newCapacity, truncate st newCapacity i = st.cells i :=
    fun i hi => if_pos hi
  have hcopy : Safe ⟨SharedBuffer.Fatal (newCapacity * T.itemSize), False, False⟩
      (copyResize T ans.malloc mem p st newCapacity) fun r =>
      (r = none ∧ ans.malloc = false) ∨ ∃ q mem', r = some (q, mem') ∧
        Change mem x mem' ⟨some q, n⟩ ∧ ∃ st', Sole mem' ⟨some q, n⟩ st' ∧ st'.capacity = newCapacity ∧
          ¬SharedBuffer.Fatal (st'.capacity * T.itemSize) ∧
          ∀ i < min st.capacity newCapacity, st'.cells i = st.cells i := by
    refine (copyResize_spec ans.malloc ho hd hx hst newCapacity).mono ?_
    rintro _ (h | ⟨mem', rfl, hz, hnew, hrest⟩)
    · exact Or.inl h
    · exact Or.inr ⟨_, mem', rfl, .moved rfl (get_next mem) hnew rfl hrest, _, ⟨_, rfl, hnew, rfl⟩, rfl,
        hz, hkeep⟩
  unfold editResize
  simp only [deref_eq hst, bind, Except.bind]
  by_cases h1 : st.refs = 1
  · rw [if_pos h1]
    by_cases hc : st.capacity = newCapacity
    · rw [if_pos hc]
      obtain ⟨st₀, hst₀, -, hg⟩ := ho.storage p hx
      obtain rfl := Option.some.inj (hst.symm.trans hst₀)
      exact Or.inr ⟨p, mem, rfl, .kept hx hst h1 rfl hst h1 (fun _ _ => rfl), st, ⟨p, rfl, hst, h1⟩, hc,
        hg.sized, fun _ _ => rfl⟩
    · rw [if_neg hc]
      split_ifs with hf hr
      · exact hf
      · have hnew : ((mem.free p).alloc ⟨1, newCapacity, truncate st newCapacity⟩).get mem.next =
            some ⟨1, newCapacity, truncate st newCapacity⟩ := by
          have h := Store.get_alloc_next (s := mem.free p)
            (a := (⟨1, newCapacity, truncate st newCapacity⟩ : Storage α))
          rw [Store.next_free] at h
          exact h
        refine Or.inr ⟨_, _, rfl, .moved rfl (get_next mem) hnew rfl ?_, _, ⟨_, rfl, hnew, rfl⟩, rfl, hf,
          hkeep⟩
        intro r hne
        rw [Store.get_alloc_ne (by rw [Store.next_free]; exact hne)]
        exact get_free_released hx hst h1 r
      · exact hcopy
  · rw [if_neg h1]
    exact hcopy

/-- **`copyStorage` copies the items around a gap.** -/
theorem copyStorage_spec (malloc : Bool) (ho : Owns T mem x) {newCapacity head gap from_ : ℕ}
    (hh : head ≤ x.mCount) (hf : from_ ≤ x.mCount)
    (hcap : head + gap + (x.mCount - from_) ≤ newCapacity) (n : ℕ) :
    Safe ⟨SharedBuffer.Fatal (newCapacity * T.itemSize), False, False⟩
      (copyStorage T malloc mem x newCapacity head gap from_) fun r =>
      (r = none ∧ malloc = false) ∨ ∃ q mem', r = some (q, mem') ∧
        Change mem x mem' ⟨some q, n⟩ ∧ ∃ st', Sole mem' ⟨some q, n⟩ st' ∧ st'.capacity = newCapacity ∧
          ¬SharedBuffer.Fatal (st'.capacity * T.itemSize) ∧
          (∀ i < head, st'.cells i = cellsOf mem x i) ∧
          (∀ i < x.mCount - from_, st'.cells (head + gap + i) = cellsOf mem x (from_ + i)) ∧
          ∀ i, head ≤ i ∧ i < head + gap ∨ head + gap + (x.mCount - from_) ≤ i → st'.cells i = none := by
  unfold copyStorage
  refine Ends.bind (alloc_spec malloc newCapacity) ?_
  rintro _ (⟨rfl, hm⟩ | ⟨rfl, hz⟩)
  · exact Or.inl ⟨rfl, hm⟩
  · have hitems : copyItems T (mem.alloc ⟨1, newCapacity, fun _ => none⟩) x newCapacity head gap from_ =
        .ok (fill (fill (fun _ => none) 0 head fun k => cellsOf mem x (0 + k)) (head + gap)
          (x.mCount - from_) fun k => cellsOf mem x (from_ + k)) := by
      unfold copyItems
      cases hx : x.mStorage with
      | none =>
        have h0 := ho.empty hx
        obtain ⟨rfl, hz⟩ : head = 0 ∧ x.mCount - from_ = 0 := by omega
        simp only [hz, fill_zero]
      | some p =>
        obtain ⟨st, hst, -, hg⟩ := ho.storage p hx
        have hfits := hg.fits
        have hst' : (mem.alloc ⟨1, newCapacity, fun _ => none⟩).get p = some st := by
          rw [Store.get_alloc_lt (Store.lt_next hst)]
          exact hst
        rw [cellsOf_eq hx hst]
        simp only [deref_eq hst', bind, Except.bind]
        rw [copyType_eq (by omega) (by omega) (fun _ _ => Or.inr rfl)
          (fun k hk => by rw [Nat.zero_add]; exact hg.objects k (by omega))]
        simp only
        refine copyType_eq hcap (by omega) ?_ fun k hk => hg.objects _ (by omega)
        intro k hk
        rw [fill_outside (by omega)]
        exact Or.inr rfl
    simp only [hitems, bind, Except.bind, Store.set_alloc_next]
    obtain ⟨mem', hrel, hnew, hrest⟩ := replace_spec ho (releaseStorage_spec (ho.alloc
      ⟨1, newCapacity, fill (fill (fun _ => none) 0 head fun k => cellsOf mem x (0 + k)) (head + gap)
        (x.mCount - from_) fun k => cellsOf mem x (from_ + k)⟩))
    rw [hrel]
    refine Or.inr ⟨_, mem', rfl, .moved rfl (get_next mem) hnew rfl hrest, _, ⟨_, rfl, hnew, rfl⟩, rfl,
      hz, ?_, ?_, ?_⟩
    · intro i hi
      dsimp only
      rw [fill_outside (by omega), fill_inside (Nat.zero_le i) (by omega), Nat.zero_add, Nat.sub_zero]
    · intro i hi
      dsimp only
      rw [fill_inside (by omega) (by omega), Nat.add_sub_cancel_left]
    · intro i hi
      dsimp only
      rw [fill_outside (by omega), fill_outside (by omega)]

/-- After a change the storage of the only owner may be rewritten, with another count. -/
theorem Change.trans_kept {mem₁ mem₂ : Memory α} {x₁ x₂ : Impl} (h : Change mem x mem₁ x₁)
    (hs : Sole mem₁ x₁ st) (hx : x₂.mStorage = x₁.mStorage) (hs' : Sole mem₂ x₂ st')
    (hrest : ∀ p, x₁.mStorage = some p → ∀ r, r ≠ p → mem₂.get r = mem₁.get r) :
    Change mem x mem₂ x₂ := by
  obtain ⟨p, hx₁, hst₁, h1⟩ := hs
  obtain ⟨p', hx₂, hst₂, h2⟩ := hs'
  obtain rfl := Option.some.inj (hx₂.symm.trans (hx.trans hx₁))
  have hrest := hrest p' hx₁
  cases h with
  | same hm hx' =>
    subst hm hx'
    exact .kept hx₁ hst₁ h1 hx₂ hst₂ h2 hrest
  | kept hx₀ hst h0 hx' _ _ hr =>
    obtain rfl := Option.some.inj (hx'.symm.trans hx₁)
    exact .kept hx₀ hst h0 hx₂ hst₂ h2 fun r hne => (hrest r hne).trans (hr r hne)
  | moved hx' hnew _ _ hr =>
    obtain rfl := Option.some.inj (hx'.symm.trans hx₁)
    exact .moved hx₂ hnew hst₂ h2 fun r hne => (hrest r hne).trans (hr r hne)
  | gone hx' _ =>
    rw [hx'] at hx₁
    cases hx₁

/-- A vector that was made the only owner gets new cells, and a new count. -/
theorem rewrite_spec {c : Causes} {mem₁ : Memory α} {x₁ : Impl} {P : Cells α → Prop}
    (hc : Change mem x mem₁ x₁) (hs : Sole mem₁ x₁ st) {f : Storage α → Except Stop (Cells α)}
    (hf : Safe c (f st) P) (n : ℕ) :
    Safe c (rewrite mem₁ x₁ f) fun mem₂ => ∃ cells, P cells ∧ Change mem x mem₂ { x₁ with mCount := n } ∧
      Sole mem₂ { x₁ with mCount := n } { st with cells := cells } := by
  obtain ⟨p, hx, hst, h1⟩ := hs
  have hrw : rewrite mem₁ x₁ f = f st >>= fun cells => .ok (mem₁.set p { st with cells := cells }) := by
    simp only [rewrite, hx, deref_eq hst, bind, Except.bind]
  rw [hrw]
  refine Ends.bind hf fun cells hP => ?_
  have hget : (mem₁.set p { st with cells := cells }).get p = some { st with cells := cells } :=
    Store.get_set (Store.lt_next hst)
  have hs' : Sole (mem₁.set p { st with cells := cells }) { x₁ with mCount := n }
      { st with cells := cells } := ⟨p, hx, hget, h1⟩
  refine ⟨cells, hP, hc.trans_kept ⟨p, hx, hst, h1⟩ rfl hs' ?_, hs'⟩
  intro p' hp' r hr
  obtain rfl := Option.some.inj (hp'.symm.trans hx)
  exact Store.get_set_ne hr

end Memory

/-! ### `_grow` -/

section Grow

variable {α : Type} {T : ItemType α} {mem : Memory α} {x : Impl} {p : ℕ} {st : Storage α}

/-- The storage after `_grow`: the items with a gap of `a` raw cells at `w`. -/
structure Gapped (T : ItemType α) (old : Cells α) (st : Storage α) (n w a : ℕ) : Prop where
  sized : ¬SharedBuffer.Fatal (st.capacity * T.itemSize)
  fits : n + a ≤ st.capacity
  head : ∀ i < w, st.cells i = old i
  tail : ∀ i, w ≤ i → i < n → st.cells (i + a) = old i
  raw : ∀ i, w ≤ i ∧ i < w + a ∨ n + a ≤ i → i < st.capacity → T.traits.Raw (st.cells i)

theorem lt_grownCapacity (n : ℕ) : n < grownCapacity n := by
  unfold grownCapacity
  omega

theorem growStorage_spec (ans : Answers) (ho : Owns T mem x) {w a : ℕ} (hw : w ≤ x.mCount) :
    Safe ⟨Oversized T (x.mCount + a), False, False⟩ (growStorage T ans mem x w a) fun r =>
      (r = none ∧ ans.malloc = false) ∨ ∃ q mem', r = some (q, mem') ∧
        Change mem x mem' ⟨some q, x.mCount + a⟩ ∧ ∃ st', Sole mem' ⟨some q, x.mCount + a⟩ st' ∧
          Gapped T (cellsOf mem x) st' x.mCount w a := by
  have hcap := lt_grownCapacity (x.mCount + a)
  have hcopy : Safe ⟨Oversized T (x.mCount + a), False, False⟩
      (copyStorage T ans.malloc mem x (grownCapacity (x.mCount + a)) w a w) fun r =>
      (r = none ∧ ans.malloc = false) ∨ ∃ q mem', r = some (q, mem') ∧
        Change mem x mem' ⟨some q, x.mCount + a⟩ ∧ ∃ st', Sole mem' ⟨some q, x.mCount + a⟩ st' ∧
          Gapped T (cellsOf mem x) st' x.mCount w a := by
    refine (copyStorage_spec ans.malloc ho hw hw (by omega) (x.mCount + a)).imp
      (Causes.Allow.mono Or.inr id id) ?_
    rintro _ (h | ⟨q, mem', rfl, hch, st', hs, hc, hz, hhead, htail, hraw⟩)
    · exact Or.inl h
    · refine Or.inr ⟨q, mem', rfl, hch, st', hs, ⟨hz, by omega, hhead, ?_, ?_⟩⟩
      · intro i h1 h2
        have h := htail (i - w) (by omega)
        rw [show w + a + (i - w) = i + a by omega, show w + (i - w) = i by omega] at h
        exact h
      · intro i hi _
        rw [hraw i (by omega)]
        exact Or.inr rfl
  unfold growStorage
  dsimp only
  by_cases hf : 2 ^ 64 ≤ x.mCount + a + (x.mCount + a) / 2 + 1
  · rw [if_pos hf]
    exact Or.inl hf
  · rw [if_neg hf]
    cases hx : x.mStorage with
    | none => exact hcopy
    | some p =>
      dsimp only
      split_ifs with ht
      · obtain ⟨hwc, -, hd⟩ := ht
        obtain ⟨st, hst, -, hg⟩ := ho.storage p hx
        refine (editResize_spec ans ho hd hx hst _ (x.mCount + a)).imp
          (Causes.Allow.mono Or.inr id id) ?_
        rintro _ (h | ⟨q, mem', rfl, hch, st', hs, hc, hz, hkeep⟩)
        · exact Or.inl h
        · refine Or.inr ⟨q, mem', rfl, hch, st', hs, ⟨hz, by omega, ?_, ?_, fun _ _ _ => Or.inl hd⟩⟩
          · intro i hi
            have := hg.fits
            rw [hkeep i (by omega), cellsOf_eq hx hst]
          · intro i h1 h2
            omega
      · exact hcopy

/-- **`_grow` opens a gap.**  Without an answer from `malloc` nothing changes; a gap of no items at the end of
the storage is an index that `itemLocation` does not allow. -/
theorem grow_spec (ans : Answers) (ho : Owns T mem x) {w a : ℕ} (hw : w ≤ x.mCount)
    (ha : a = 0 → w = x.mCount ∨ T.traits.relocates = true) :
    Safe ⟨Oversized T (x.mCount + a), ans.malloc = false, a = 0 ∧ w = x.mCount⟩
      (grow T ans mem x w a) fun r =>
      (r = (mem, x, false) ∧ ans.malloc = false) ∨
        (r.2.2 = true ∧ r.2.1.mCount = x.mCount + a ∧ Change mem x r.1 r.2.1 ∧ ∃ st', Sole r.1 r.2.1 st' ∧
          Gapped T (cellsOf mem x) st' x.mCount w a) := by
  have hgrow : Safe ⟨Oversized T (x.mCount + a), ans.malloc = false, a = 0 ∧ w = x.mCount⟩
      (growStorage T ans mem x w a) _ :=
    (growStorage_spec ans ho hw).weaken (Causes.Allow.mono id False.elim False.elim)
  unfold grow
  by_cases hf : 2 ^ 64 ≤ x.mCount + a
  · rw [if_pos hf]
    exact Or.inl (by omega)
  · rw [if_neg hf]
    cases hx : x.mStorage with
    | none =>
      have h0 := ho.empty hx
      have hcap : capacity mem x = .ok 0 := by simp [capacity, hx]
      simp only [hcap, bind, Except.bind]
      by_cases hc : 0 < x.mCount + a
      · rw [if_pos hc]
        refine Ends.bind hgrow ?_
        rintro _ (⟨rfl, hm⟩ | ⟨q, mem', rfl, hch, st', hs, hg⟩)
        · exact Or.inl ⟨rfl, hm⟩
        · have hfits := hg.fits
          refine Ends.bind (assertIndex_spec hs fun h => ⟨by omega, by omega⟩) fun _ _ => ?_
          exact Or.inr ⟨rfl, rfl, hch, st', hs, hg⟩
      · obtain ⟨rfl, rfl⟩ : w = 0 ∧ a = 0 := by omega
        rw [if_neg hc]
        have hedit : editArrayImpl T ans.malloc mem x = .ok (mem, x) := by simp [editArrayImpl, hx]
        have hassert : assertIndex mem { x with mCount := 0 } 0 = .error .assertion := by
          simp [assertIndex, capacity, hx, bind, Except.bind]
        simp only [hedit, h0, ne_eq, not_true_eq_false, if_false, Nat.add_zero, hassert]
        exact ⟨trivial, trivial⟩
    | some p =>
      obtain ⟨st, hst, -, hg⟩ := ho.storage p hx
      simp only [capacity_eq hx hst, bind, Except.bind]
      by_cases hc : st.capacity < x.mCount + a
      · rw [if_pos hc]
        refine Ends.bind hgrow ?_
        rintro _ (⟨rfl, hm⟩ | ⟨q, mem', rfl, hch, st', hs, hg⟩)
        · exact Or.inl ⟨rfl, hm⟩
        · have hfits := hg.fits
          refine Ends.bind (assertIndex_spec hs fun h => ⟨by omega, by omega⟩) fun _ _ => ?_
          exact Or.inr ⟨rfl, rfl, hch, st', hs, hg⟩
      · rw [if_neg hc]
        refine Ends.bind ((editArrayImpl_spec ans.malloc ho hx hst).weaken
          (Causes.Allow.mono False.elim id False.elim)) ?_
        rintro ⟨mem₁, x₁⟩ ⟨hcount, hch, st₁, hs, hg₁, hcap₁, hcells⟩
        dsimp only at hcount hch hs ⊢
        have hfits := hg₁.fits
        rw [hcount]
        by_cases hwc : w = x.mCount
        · rw [if_neg (not_not.mpr hwc)]
          have hs' : Sole mem₁ { x₁ with mCount := x.mCount + a } st₁ := hs
          refine Ends.bind (assertIndex_spec hs' fun h => ⟨by omega, hwc⟩) fun _ _ => ?_
          refine Or.inr ⟨rfl, rfl, hch.trans_kept hs rfl hs' fun _ _ _ _ => rfl, st₁, hs',
            ⟨hg₁.sized, by omega, ?_, ?_, ?_⟩⟩
          · intro i hi
            rw [hcells i (by omega), cellsOf_eq hx hst]
          · intro i h1 h2
            omega
          · intro i hi hlt
            exact hg₁.raw i (by omega) hlt
        · rw [if_pos hwc]
          have hstart : w < w + a ∨ (w = w + a ∧ T.traits.relocates = true) := by
            rcases Nat.eq_zero_or_pos a with h0 | hpos
            · exact Or.inr ⟨by omega, (ha h0).resolve_left hwc⟩
            · exact Or.inl (by omega)
          have hmove : moveForwardType T.traits st₁.capacity st₁.cells (w + a) w (x.mCount - w) =
              .ok (moved T.traits st₁.cells (w + a) w (x.mCount - w)) :=
            moveForwardType_eq hstart (by omega) (fun k hk => hg₁.objects _ (by omega))
              fun j h1 h2 h3 => hg₁.raw j (by omega) (by omega)
          refine Ends.bind (rewrite_spec hch hs (Ends.of_eq hmove (P := (· = _)) rfl) (x.mCount + a)) ?_
          rintro mem₂ ⟨cells, rfl, hch₂, hs₂⟩
          refine Ends.bind (assertIndex_spec hs₂ fun h => ?_) fun _ _ => ?_
          · dsimp only at h
            omega
          refine Or.inr ⟨rfl, rfl, hch₂, _, hs₂, ⟨hg₁.sized, by dsimp only; omega, ?_, ?_, ?_⟩⟩
          · intro i hi
            dsimp only
            rw [moved_outside (by omega) (by omega), hcells i (by omega), cellsOf_eq hx hst]
          · intro i h1 h2
            dsimp only
            rw [moved_inside (by omega) (by omega), hcells _ (by omega), cellsOf_eq hx hst]
            congr 1
            omega
          · intro i hi hlt
            dsimp only at hlt ⊢
            by_cases hin : w ≤ i ∧ i < w + a ∧ i < x.mCount
            · exact raw_moved_source (by omega) hin.1 (by omega)
            · rw [moved_outside (by omega) (by omega)]
              exact hg₁.raw i (by omega) hlt

end Grow

/-! ### `_shrink` -/

section Shrink

variable {α : Type} {T : ItemType α} {mem : Memory α} {x : Impl} {p : ℕ} {st : Storage α}

/-- The storage after `_shrink`: the items without the `a` items at `w`. -/
structure Closed (T : ItemType α) (old : Cells α) (st : Storage α) (n w a : ℕ) : Prop where
  good : Good T st (n - a)
  head : ∀ i < w, st.cells i = old i
  tail : ∀ i, w ≤ i → i < n - a → st.cells i = old (i + a)

/-- In place: the items are destroyed, and those behind them moved. -/
theorem close_spec {c : Causes} (hg : Good T st x.mCount) {w a : ℕ} (hwa : w + a ≤ x.mCount)
    (ha : a = 0 → w = x.mCount ∨ T.traits.relocates = true) :
    Safe c (do
      let cells ← destroyType T.traits st.capacity st.cells w a
      if w ≠ x.mCount - a then
        moveBackwardType T.traits st.capacity cells w (w + a) (x.mCount - a - w)
      else .ok cells) fun cells =>
        Closed T st.cells { st with cells := cells } x.mCount w a := by
  have hfits := hg.fits
  rw [destroyType_eq (by omega) fun k hk => hg.objects _ (by omega)]
  simp only [bind, Except.bind]
  generalize hD : (if T.traits.dtor = true then st.cells else fill st.cells w a fun _ => none) = D
  have hout : ∀ j, j < w ∨ w + a ≤ j → D j = st.cells j := by
    intro j hj
    rw [← hD]
    split_ifs
    · rfl
    · exact fill_outside hj
  have hin : ∀ j, w ≤ j → j < w + a → T.traits.Raw (D j) := by
    intro j h1 h2
    rw [← hD]
    split_ifs with hd
    · exact Or.inl hd
    · rw [fill_inside h1 h2]
      exact Or.inr rfl
  by_cases hw : w = x.mCount - a
  · rw [if_neg (not_not.mpr hw)]
    refine ⟨⟨hg.sized, by dsimp only; omega, ?_, ?_⟩, fun i hi => hout i (by omega), fun i h1 h2 => by omega⟩
    · intro i hi
      dsimp only
      rw [hout i (by omega)]
      exact hg.objects i (by omega)
    · intro i h1 h2
      dsimp only at h2 ⊢
      by_cases hi : i < w + a
      · exact hin i (by omega) hi
      · rw [hout i (by omega)]
        exact hg.raw i (by omega) h2
  · rw [if_pos hw]
    have hstart : w < w + a ∨ (w = w + a ∧ T.traits.relocates = true) := by
      rcases Nat.eq_zero_or_pos a with h0 | hpos
      · exact Or.inr ⟨by omega, (ha h0).resolve_left (by omega)⟩
      · exact Or.inl (by omega)
    rw [moveBackwardType_eq hstart (by omega)
      (fun k hk => by rw [hout _ (by omega)]; exact hg.objects _ (by omega))
      fun j h1 h2 _ => hin j h1 h2]
    have hhead : ∀ i < w, moved T.traits D w (w + a) (x.mCount - a - w) i = st.cells i := by
      intro i hi
      rw [moved_outside (by omega) (by omega), hout i (by omega)]
    have htail : ∀ i, w ≤ i → i < x.mCount - a →
        moved T.traits D w (w + a) (x.mCount - a - w) i = st.cells (i + a) := by
      intro i h1 h2
      rw [moved_inside h1 (by omega), hout _ (by omega)]
      congr 1
      omega
    refine ⟨⟨hg.sized, by dsimp only; omega, ?_, ?_⟩, hhead, htail⟩
    · intro i hi
      dsimp only
      by_cases hiw : i < w
      · rw [hhead i hiw]
        exact hg.objects i (by omega)
      · rw [htail i (by omega) hi]
        exact hg.objects _ (by omega)
    · intro i h1 h2
      dsimp only at h2 ⊢
      by_cases hs : w + a ≤ i ∧ i < x.mCount
      · exact raw_moved_source (by omega) hs.1 (by omega)
      · rw [moved_outside (by omega) (by omega)]
        by_cases hi : i < w + a
        · exact hin i (by omega) hi
        · rw [hout i (by omega)]
          exact hg.raw i (by omega) h2

theorem shrinkStorage_spec (ans : Answers) (ho : Owns T mem x) (hx : x.mStorage = some p)
    (hst : mem.get p = some st) {w a : ℕ} (hwa : w + a ≤ x.mCount)
    (hc : x.mCount - a < st.capacity / 2) :
    Safe ⟨Oversized T 0, False, False⟩ (shrinkStorage T ans mem x p w a) fun r =>
      (r = none ∧ ans.malloc = false) ∨ ∃ q mem', r = some (q, mem') ∧
        Change mem x mem' ⟨some q, x.mCount - a⟩ ∧ ∃ st', Sole mem' ⟨some q, x.mCount - a⟩ st' ∧
          Closed T st.cells st' x.mCount w a := by
  obtain ⟨st₀, hst₀, -, hg⟩ := ho.storage p hx
  obtain rfl := Option.some.inj (hst.symm.trans hst₀)
  have hfits := hg.fits
  -- the new storage is not larger than the old, or of the least capacity
  have hlarge : SharedBuffer.Fatal (max kMinVectorCapacity ((x.mCount - a) * 2) * T.itemSize) →
      Oversized T 0 := by
    intro h
    rcases max_choice kMinVectorCapacity ((x.mCount - a) * 2) with hm | hm
    · rw [hm] at h
      exact Or.inr h
    · rw [hm] at h
      exact absurd (h.trans (Nat.mul_le_mul_right _ (by omega))) hg.sized
  unfold shrinkStorage
  dsimp only
  split_ifs with ht
  · obtain ⟨hwn, -, hd⟩ := ht
    refine (editResize_spec ans ho hd hx hst _ (x.mCount - a)).imp
      (Causes.Allow.mono hlarge id id) ?_
    rintro _ (h | ⟨q, mem', rfl, hch, st', hs, hcap, hz, hkeep⟩)
    · exact Or.inl h
    · have hkept : ∀ i < x.mCount - a, st'.cells i = st.cells i := fun i hi => hkeep i (by omega)
      refine Or.inr ⟨q, mem', rfl, hch, st', hs, ⟨⟨hz, by omega, ?_, fun _ _ _ => Or.inl hd⟩,
        fun i hi => hkept i (by omega), fun i h1 h2 => by omega⟩⟩
      intro i hi
      rw [hkept i hi]
      exact hg.objects i (by omega)
  · refine (copyStorage_spec ans.malloc ho (by omega) hwa (by omega) (x.mCount - a)).imp
      (Causes.Allow.mono hlarge id id) ?_
    rintro _ (h | ⟨q, mem', rfl, hch, st', hs, hcap, hz, hhead, htail, hraw⟩)
    · exact Or.inl h
    · rw [cellsOf_eq hx hst] at hhead htail
      have htail' : ∀ i, w ≤ i → i < x.mCount - a → st'.cells i = st.cells (i + a) := by
        intro i h1 h2
        have h := htail (i - w) (by omega)
        rw [show w + 0 + (i - w) = i by omega, show w + a + (i - w) = i + a by omega] at h
        exact h
      refine Or.inr ⟨q, mem', rfl, hch, st', hs, ⟨⟨hz, by omega, ?_, ?_⟩, hhead, htail'⟩⟩
      · intro i hi
        by_cases hiw : i < w
        · rw [hhead i hiw]
          exact hg.objects i (by omega)
        · rw [htail' i (by omega) hi]
          exact hg.objects _ (by omega)
      · intro i h1 _
        rw [hraw i (by omega)]
        exact Or.inr rfl

/-- **`_shrink` closes a gap**, unless it needs new storage and gets none. -/
theorem shrink_spec (ans : Answers) (ho : Owns T mem x) {w a : ℕ} (hwa : w + a ≤ x.mCount)
    (ha : a = 0 → w = x.mCount ∨ T.traits.relocates = true) :
    Safe ⟨Oversized T 0, ans.malloc = false, False⟩ (shrink T ans mem x w a) fun r =>
      (r = (mem, x) ∧ (ans.malloc = false ∨ x.mStorage = none)) ∨
        (r.2.mCount = x.mCount - a ∧ Change mem x r.1 r.2 ∧ ∃ st', Sole r.1 r.2 st' ∧
          Closed T (cellsOf mem x) st' x.mCount w a) := by
  unfold shrink
  cases hx : x.mStorage with
  | none => exact Or.inl ⟨rfl, Or.inr rfl⟩
  | some p =>
    obtain ⟨st, hst, -, hg⟩ := ho.storage p hx
    have hfits := hg.fits
    dsimp only
    rw [if_neg (by omega), capacity_eq hx hst, cellsOf_eq hx hst]
    simp only [bind, Except.bind]
    by_cases hc : x.mCount - a < st.capacity / 2
    · rw [if_pos hc]
      refine Ends.bind ((shrinkStorage_spec ans ho hx hst hwa hc).weaken
        (Causes.Allow.mono id False.elim id)) ?_
      rintro _ (⟨rfl, hm⟩ | ⟨q, mem', rfl, hch, st', hs, hcl⟩)
      · exact Or.inl ⟨rfl, Or.inl hm⟩
      · exact Or.inr ⟨rfl, hch, st', hs, hcl⟩
    · rw [if_neg hc]
      refine Ends.bind ((editArrayImpl_spec ans.malloc ho hx hst).weaken
        (Causes.Allow.mono False.elim id id)) ?_
      rintro ⟨mem₁, x₁⟩ ⟨hcount, hch, st₁, hs, hg₁, hcap₁, hcells⟩
      dsimp only at hcount hch hs ⊢
      refine Ends.bind (rewrite_spec hch hs (close_spec hg₁ hwa ha) (x.mCount - a)) ?_
      rintro mem₂ ⟨cells, hcl, hch₂, hs₂⟩
      refine Or.inr ⟨rfl, hch₂, _, hs₂, hcl.good, ?_, ?_⟩
      · intro i hi
        rw [hcl.head i hi, hcells i (by omega)]
      · intro i h1 h2
        rw [hcl.tail i h1 h2, hcells _ (by omega)]

end Shrink

end Vector

end IntelCamera
