import IntelCamera.Lib.Arrays
import IntelCamera.Vector.Spec

/-!
# Vector.Edit — the operations on the list of items

Over `Vector.Spec`, every operation of `VectorImpl` is an operation on the list of items (`Edited`), or ends
the process for a cause that is named.  A removal that gets no memory for its smaller storage returns the
index and removes nothing.
-/

namespace IntelCamera

open Lib

namespace Vector

/-! ### One vector -/

section Edit

variable {α : Type} {T : ItemType α} {mem mem' : Memory α} {x x' : Impl} {st st' : Storage α}

/-- The vector has become the list `l`. -/
structure Edited (T : ItemType α) (mem : Memory α) (x : Impl) (mem' : Memory α) (x' : Impl)
    (l : List (Option α)) : Prop where
  change : Change mem x mem' x'
  owns : Owns T mem' x'
  items : content mem' x' = l

theorem Edited.same (ho : Owns T mem x) : Edited T mem x mem x (content mem x) :=
  ⟨.same rfl rfl, ho, rfl⟩

theorem Sole.owns (hs : Sole mem x st) (hg : Good T st x.mCount) : Owns T mem x := by
  obtain ⟨p, hx, hst, h1⟩ := hs
  refine ⟨fun h => absurd (hx.symm.trans h) (by simp), fun p' hp' => ?_⟩
  obtain rfl := Option.some.inj (hx.symm.trans hp')
  exact ⟨st, hst, by omega, hg⟩

theorem Sole.items (hs : Sole mem x st) : content mem x = (List.range x.mCount).map st.cells := by
  obtain ⟨p, hx, hst, -⟩ := hs
  rw [content, cellsOf_eq hx hst]

/-- The cells of a vector below its count hold objects. -/
theorem Owns.object (ho : Owns T mem x) {i : ℕ} (hi : i < x.mCount) :
    T.traits.Object (cellsOf mem x i) := by
  cases hx : x.mStorage with
  | none =>
    have := ho.empty hx
    omega
  | some p =>
    obtain ⟨st, hst, -, hg⟩ := ho.storage p hx
    rw [cellsOf_eq hx hst]
    exact hg.objects i hi

/-- The gap, filled. -/
theorem Gapped.fill {old cells : Cells α} {n w a : ℕ} (hg : Gapped T old st n w a)
    (hw : w ≤ n) (hold : ∀ i < n, T.traits.Object (old i))
    (hout : ∀ j, j < w ∨ w + a ≤ j → cells j = st.cells j)
    (hin : ∀ k < a, T.traits.Object (cells (w + k))) :
    Good T { st with cells := cells } (n + a) ∧
      (List.range (n + a)).map cells = ((List.range n).map old).take w ++
        (List.range a).map (fun k => cells (w + k)) ++ ((List.range n).map old).drop w := by
  have hhead : ∀ i < w, cells i = old i := fun i hi => (hout i (by omega)).trans (hg.head i hi)
  have htail : ∀ i < n - w, cells (w + a + i) = old (w + i) := by
    intro i hi
    rw [hout _ (by omega), show w + a + i = w + i + a by omega]
    exact hg.tail _ (by omega) (by omega)
  refine ⟨⟨hg.sized, hg.fits, ?_, ?_⟩, ?_⟩
  · intro i hi
    dsimp only
    by_cases h1 : i < w
    · rw [hhead i h1]
      exact hold i (by omega)
    · by_cases h2 : i < w + a
      · have h := hin (i - w) (by omega)
        rw [show w + (i - w) = i by omega] at h
        exact h
      · have h := htail (i - (w + a)) (by omega)
        rw [show w + a + (i - (w + a)) = i by omega] at h
        rw [h]
        exact hold _ (by omega)
  · intro i h1 h2
    dsimp only
    rw [hout i (by omega)]
    exact hg.raw i (by omega) h2
  · rw [take_map_range old hw, drop_map_range old hw, show n + a = w + a + (n - w) by omega,
      map_range_add, map_range_add, map_range_congr hhead, map_range_congr htail]

theorem Closed.items {old : Cells α} {n w a : ℕ} (hc : Closed T old st n w a)
    (hwa : w + a ≤ n) :
    (List.range (n - a)).map st.cells =
      ((List.range n).map old).take w ++ ((List.range n).map old).drop (w + a) := by
  have htail : ∀ i < n - (w + a), st.cells (w + i) = old (w + a + i) := by
    intro i hi
    rw [hc.tail _ (by omega) (by omega)]
    congr 1
    omega
  rw [take_map_range old (by omega), drop_map_range old hwa, show n - a = w + (n - (w + a)) by omega,
    map_range_add, map_range_congr hc.head, map_range_congr htail]

end Edit

/-! ### The operations -/

section Operations

variable {α : Type} {T : ItemType α} {mem mem' : Memory α} {x x' y : Impl} {st : Storage α}

/-- A storage that the vector does not own alone is left as it is, but for its counter. -/
theorem Change.other (hc : Change mem x mem' x') {r : ℕ} (hr : mem.get r = some st)
    (hsh : x.mStorage = some r → st.refs ≠ 1) :
    ∃ st', mem'.get r = some st' ∧ st'.capacity = st.capacity ∧ st'.cells = st.cells ∧
      (0 < st.refs → 0 < st'.refs) := by
  have hafter : ∃ st', afterRelease mem x r = some st' ∧ st'.capacity = st.capacity ∧
      st'.cells = st.cells ∧ (0 < st.refs → 0 < st'.refs) := by
    unfold afterRelease
    by_cases hx : x.mStorage = some r
    · have h1 := hsh hx
      rw [if_pos hx, hr]
      refine ⟨{ st with refs := st.refs - 1 }, by simp [h1], rfl, rfl, fun h => ?_⟩
      dsimp only
      omega
    · rw [if_neg hx]
      exact ⟨st, hr, rfl, rfl, fun h => h⟩
  cases hc with
  | same hm _ => exact ⟨st, by rw [hm]; exact hr, rfl, rfl, fun h => h⟩
  | @kept p st₀ _ hx hst h1 _ _ _ hrest =>
    have hne : r ≠ p := by
      rintro rfl
      obtain rfl := Option.some.inj (hr.symm.trans hst)
      exact hsh hx h1
    exact ⟨st, by rw [hrest r hne]; exact hr, rfl, rfl, fun h => h⟩
  | moved _ hnew _ _ hrest =>
    rw [hrest r]
    · exact hafter
    · rintro rfl
      rw [hnew] at hr
      cases hr
  | gone _ hrest =>
    rw [hrest r]
    exact hafter

/-- The items can be read whatever the operation has done to the vector `x`. -/
def Readable (T : ItemType α) (mem : Memory α) (x : Impl) (src : Source α) (items : List (Option α)) :
    Prop :=
  ∀ mem' x', Change mem x mem' x' → ∃ cap cells, src.read mem' = .ok (cap, cells) ∧ src.length ≤ cap ∧
    (∀ k < src.length, T.traits.Object (cells k)) ∧ (List.range src.length).map cells = items

theorem readable_array (items : List α) : Readable T mem x (.array items) (items.map some) := by
  refine fun mem' x' _ => ⟨_, _, rfl, le_rfl, ?_, ?_⟩
  · intro k hk
    have hlt : k < items.length := hk
    exact Or.inr (by simp [hlt])
  · apply List.ext_getElem
    · simp [Source.length]
    · intro i h1 h2
      have hlt : i < items.length := by simpa using h2
      simp [hlt]

/-- Another vector, which may share the storage of `x`. -/
theorem readable_vector (ho : Owns T mem y)
    (hsh : ∀ r st, x.mStorage = some r → y.mStorage = some r → mem.get r = some st → st.refs ≠ 1) :
    Readable T mem x (.vector y) (content mem y) := by
  intro mem' x' hc
  cases hy : y.mStorage with
  | none =>
    have h0 := ho.empty hy
    refine ⟨0, fun _ => none, by simp [Source.read, hy], by simp [Source.length, h0], ?_, ?_⟩
    · intro k hk
      simp only [Source.length] at hk
      omega
    · simp [Source.length, content, h0]
  | some r =>
    obtain ⟨st, hst, -, hg⟩ := ho.storage r hy
    obtain ⟨st', hst', hcap, hcells, -⟩ := hc.other hst fun hx => hsh r st hx hy hst
    refine ⟨st'.capacity, st'.cells, ?_, ?_, ?_, ?_⟩
    · simp [Source.read, hy, deref_eq hst', bind, Except.bind]
    · rw [hcap]
      exact hg.fits
    · rw [hcells]
      exact hg.objects
    · rw [content, cellsOf_eq hy hst, hcells]
      rfl

/-- After `_grow` the gap is filled. -/
theorem Gapped.rewrite_spec {c : Causes} {mem₁ : Memory α} {x₁ : Impl} {w a : ℕ} (ho : Owns T mem x)
    (hw : w ≤ x.mCount) (hch : Change mem x mem₁ x₁) (hcount : x₁.mCount = x.mCount + a)
    (hs : Sole mem₁ x₁ st) (hg : Gapped T (cellsOf mem x) st x.mCount w a)
    {f : Storage α → Except Stop (Cells α)} {Q : List (Option α) → Prop}
    (hf : Safe c (f st) fun cells => (∀ j, j < w ∨ w + a ≤ j → cells j = st.cells j) ∧
      (∀ k < a, T.traits.Object (cells (w + k))) ∧ Q ((List.range a).map fun k => cells (w + k))) :
    Safe c (rewrite mem₁ x₁ f) fun mem₂ => ∃ l, Q l ∧ Edited T mem x mem₂ x₁
      ((content mem x).take w ++ l ++ (content mem x).drop w) := by
  refine (Vector.rewrite_spec hch hs hf (x.mCount + a)).mono ?_
  rintro mem₂ ⟨cells, ⟨hout, hin, hQ⟩, hch₂, hs₂⟩
  have hx₁ : ({ x₁ with mCount := x.mCount + a } : Impl) = x₁ := by rw [← hcount]
  rw [hx₁] at hch₂ hs₂
  obtain ⟨hgood, hitems⟩ := hg.fill hw (fun i hi => ho.object hi) hout hin
  exact ⟨_, hQ, hch₂, hs₂.owns (hcount ▸ hgood), by rw [hs₂.items, hcount]; exact hitems⟩

/-- **`insertArrayAt` and `insertVectorAt`** insert the items, or say why not. -/
theorem insertArrayAt_spec (ans : Answers) (ho : Owns T mem x) {src : Source α}
    {items : List (Option α)} (hsrc : Readable T mem x src items) {index : ℕ}
    (ha : src.length = 0 → index = x.mCount ∨ T.traits.relocates = true) :
    Safe ⟨Oversized T (x.mCount + src.length), ans.malloc = false, src.length = 0 ∧ index = x.mCount⟩
      (insertArrayAt T ans mem x src index) fun r =>
      (r = (mem, x, .badIndex) ∧ x.mCount < index) ∨
      (r = (mem, x, .noMemory) ∧ ans.malloc = false) ∨
      (r.2.2 = .value index ∧ index ≤ x.mCount ∧ Edited T mem x r.1 r.2.1
        ((content mem x).take index ++ items ++ (content mem x).drop index)) := by
  unfold insertArrayAt
  by_cases hi : x.mCount < index
  · rw [if_pos hi]
    exact Or.inl ⟨rfl, hi⟩
  · rw [if_neg hi]
    have hw : index ≤ x.mCount := by omega
    refine Ends.bind (grow_spec ans ho hw ha) ?_
    rintro ⟨mem₁, x₁, space⟩ (⟨he, hm⟩ | ⟨rfl, hcount, hch, st₁, hs, hg⟩)
    · obtain ⟨rfl, rfl, rfl⟩ : mem₁ = mem ∧ x₁ = x ∧ space = false := by simpa using he
      exact Or.inr (Or.inl ⟨rfl, hm⟩)
    · dsimp only at hcount hch hs ⊢
      have hfits := hg.fits
      obtain ⟨cap, cells, hread, hle, hobj, hlist⟩ := hsrc mem₁ x₁ hch
      simp only [hread, if_true, bind, Except.bind]
      have hcopy : copyType T.traits st₁.capacity st₁.cells index cap cells 0 src.length =
          .ok (fill st₁.cells index src.length fun k => cells (0 + k)) :=
        copyType_eq (by omega) (by omega) (fun k hk => hg.raw (index + k) (by omega) (by omega))
          fun k hk => by rw [Nat.zero_add]; exact hobj k hk
      have hgap : ∀ k < src.length,
          fill st₁.cells index src.length (fun k => cells (0 + k)) (index + k) = cells k := by
        intro k hk
        rw [fill_inside (by omega) (by omega), Nat.add_sub_cancel_left, Nat.zero_add]
      refine Ends.bind (hg.rewrite_spec ho hw hch hcount hs (Q := (· = items))
        (Ends.of_eq hcopy ⟨fun j hj => fill_outside hj, ?_, ?_⟩)) ?_
      · intro k hk
        rw [hgap k hk]
        exact hobj k hk
      · rw [map_range_congr hgap, hlist]
      · rintro mem₂ ⟨l, rfl, he⟩
        exact Or.inr (Or.inr ⟨rfl, hw, he⟩)

/-- What `insertAt` inserts: copies of the item, or what the constructor makes, which is anything if
there is nothing to construct. -/
def Made (T : ItemType α) (item : Option α) (numItems : ℕ) (l : List (Option α)) : Prop :=
  l.length = numItems ∧ ∀ c ∈ l, (item ≠ none ∧ c = item) ∨
    (item = none ∧ (T.traits.ctor = true ∨ c = some T.dflt))

/-- **`insertAt`, `push`, `add`** insert what `Made` says. -/
theorem insertAt_spec (ans : Answers) (ho : Owns T mem x) (item : Option α) {index numItems : ℕ}
    (ha : numItems = 0 → index = x.mCount ∨ T.traits.relocates = true) :
    Safe ⟨Oversized T (x.mCount + numItems), ans.malloc = false, numItems = 0 ∧ index = x.mCount⟩
      (insertAt T ans mem x item index numItems) fun r =>
      (r = (mem, x, .badIndex) ∧ x.mCount < index) ∨
      (r = (mem, x, .noMemory) ∧ ans.malloc = false) ∨
      (r.2.2 = .value index ∧ index ≤ x.mCount ∧ ∃ l, Made T item numItems l ∧
        Edited T mem x r.1 r.2.1 ((content mem x).take index ++ l ++ (content mem x).drop index)) := by
  unfold insertAt
  by_cases hi : x.mCount < index
  · rw [if_pos hi]
    exact Or.inl ⟨rfl, hi⟩
  · rw [if_neg hi]
    have hw : index ≤ x.mCount := by omega
    refine Ends.bind (grow_spec ans ho hw ha) ?_
    rintro ⟨mem₁, x₁, space⟩ (⟨he, hm⟩ | ⟨rfl, hcount, hch, st₁, hs, hg⟩)
    · obtain ⟨rfl, rfl, rfl⟩ : mem₁ = mem ∧ x₁ = x ∧ space = false := by simpa using he
      exact Or.inr (Or.inl ⟨rfl, hm⟩)
    · dsimp only at hcount hch hs ⊢
      have hfits := hg.fits
      rw [if_pos rfl]
      refine Ends.bind (hg.rewrite_spec ho hw hch hcount hs (Q := Made T item numItems) ?_) ?_
      · have hraw : ∀ k < numItems, T.traits.Raw (st₁.cells (index + k)) :=
          fun k hk => hg.raw (index + k) (by omega) (by omega)
        have hgap : ∀ (a : α), ∀ k < numItems,
            fill st₁.cells index numItems (fun _ => some a) (index + k) = some a := by
          intro a k hk
          exact fill_inside (by omega) (by omega)
        cases item with
        | some a =>
          refine Ends.of_eq (splatType_eq (by omega) hraw a) ⟨fun j hj => fill_outside hj, ?_, ?_⟩
          · intro k hk
            rw [hgap a k hk]
            exact Or.inr rfl
          · rw [map_range_congr (hgap a)]
            refine ⟨by simp, fun c hc => Or.inl ⟨by simp, ?_⟩⟩
            obtain ⟨-, -, rfl⟩ := List.mem_map.mp hc
            rfl
        | none =>
          dsimp only
          rw [constructType_eq (by omega) hraw T.dflt]
          by_cases hct : T.traits.ctor = true
          · rw [if_pos hct]
            exact ⟨fun _ _ => rfl, fun _ _ => Or.inl hct, by simp,
              fun _ _ => Or.inr ⟨rfl, Or.inl hct⟩⟩
          · rw [if_neg hct]
            refine ⟨fun j hj => fill_outside hj, ?_, ?_⟩
            · intro k hk
              rw [hgap T.dflt k hk]
              exact Or.inr rfl
            · rw [map_range_congr (hgap T.dflt)]
              refine ⟨by simp, fun c hc => Or.inr ⟨rfl, Or.inr ?_⟩⟩
              obtain ⟨-, -, rfl⟩ := List.mem_map.mp hc
              rfl
      · rintro mem₂ ⟨l, hl, he⟩
        exact Or.inr (Or.inr ⟨rfl, hw, l, hl, he⟩)

/-- One item of the only owner is written. -/
theorem set_spec {c : Causes} {mem₁ : Memory α} {x₁ : Impl} {index : ℕ} (hi : index < x.mCount)
    (hch : Change mem x mem₁ x₁) (hcount : x₁.mCount = x.mCount) (hs : Sole mem₁ x₁ st)
    (hg : Good T st x.mCount) (hold : ∀ i < x.mCount, st.cells i = cellsOf mem x i)
    {f : Storage α → Except Stop (Cells α)} {Q : Option α → Prop}
    (hf : Safe c (f st) fun cells => (∀ j, j ≠ index → cells j = st.cells j) ∧
      T.traits.Object (cells index) ∧ Q (cells index)) :
    Safe c (rewrite mem₁ x₁ f) fun mem₂ => ∃ a, Q a ∧
      Edited T mem x mem₂ x₁ ((content mem x).set index a) := by
  refine (rewrite_spec hch hs hf x.mCount).mono ?_
  rintro mem₂ ⟨cells, ⟨hout, hin, hQ⟩, hch₂, hs₂⟩
  have hx₁ : ({ x₁ with mCount := x.mCount } : Impl) = x₁ := by rw [← hcount]
  rw [hx₁] at hch₂ hs₂
  have hgood : Good T { st with cells := cells } x₁.mCount := by
    rw [hcount]
    refine ⟨hg.sized, hg.fits, fun i h => ?_, fun i h1 h2 => ?_⟩
    · by_cases h0 : i = index
      · subst h0
        exact hin
      · dsimp only
        rw [hout i h0]
        exact hg.objects i h
    · dsimp only
      rw [hout i (by omega)]
      exact hg.raw i h1 h2
  refine ⟨_, hQ, hch₂, hs₂.owns hgood, ?_⟩
  rw [hs₂.items, hcount, map_range_set hout, map_range_congr hold]
  rfl

/-- **`replaceAt`** puts what `Made` says in the place of the item. -/
theorem replaceAt_spec (ans : Answers) (ho : Owns T mem x) (prototype : Option α) (index : ℕ) :
    Safe ⟨False, ans.malloc = false, x.mCount ≤ index⟩ (replaceAt T ans mem x prototype index) fun r =>
      r.2.2 = .value index ∧ index < x.mCount ∧ ∃ c, Made T prototype 1 [c] ∧
        Edited T mem x r.1 r.2.1 ((content mem x).set index c) := by
  unfold replaceAt
  by_cases hi : x.mCount ≤ index
  · rw [if_pos hi]
    exact hi
  · rw [if_neg hi]
    cases hx : x.mStorage with
    | none =>
      have := ho.empty hx
      omega
    | some p =>
      obtain ⟨st, hst, -, hg⟩ := ho.storage p hx
      have hfits := hg.fits
      rw [assertIndex_eq hx hst (by omega)]
      simp only [bind, Except.bind]
      refine Ends.bind ((editArrayImpl_spec ans.malloc ho hx hst).weaken
        (Causes.Allow.mono id id False.elim)) ?_
      rintro ⟨mem₁, x₁⟩ ⟨hcount, hch, st₁, hs, hg₁, hcap₁, hcells⟩
      dsimp only at hcount hch hs ⊢
      have hfits₁ := hg₁.fits
      refine Ends.bind (set_spec (show index < x.mCount by omega) hch hcount hs hg₁ ?_
        (Q := fun c => Made T prototype 1 [c]) ?_) ?_
      · intro i h
        rw [hcells i h, cellsOf_eq hx hst]
      · rw [destroyType_eq (by omega) fun k hk => hg₁.objects _ (by omega)]
        simp only
        generalize hD : (if T.traits.dtor = true then st₁.cells
          else fill st₁.cells index 1 fun _ => none) = D
        have hout : ∀ j, j ≠ index → D j = st₁.cells j := by
          intro j hj
          rw [← hD]
          split_ifs
          · rfl
          · exact fill_outside (by omega)
        have hraw : ∀ k < 1, T.traits.Raw (D (index + k)) := by
          intro k hk
          rw [← hD]
          split_ifs with hd
          · exact Or.inl hd
          · rw [fill_inside (by omega) (by omega)]
            exact Or.inr rfl
        have hgap : ∀ f : ℕ → Option α, fill D index 1 f index = f 0 := by
          intro f
          rw [fill_inside (Nat.le_refl _) (by omega), Nat.sub_self]
        cases prototype with
        | some a =>
          refine Ends.of_eq (copyType_eq (by omega) (by omega) hraw fun _ _ => Or.inr rfl) ⟨?_, ?_, ?_⟩
          · intro j hj
            rw [fill_outside (by omega), hout j hj]
          · rw [hgap]
            exact Or.inr rfl
          · rw [hgap]
            exact ⟨rfl, by simp⟩
        | none =>
          simp only
          rw [constructType_eq (by omega) hraw T.dflt]
          by_cases hct : T.traits.ctor = true
          · rw [if_pos hct]
            exact ⟨hout, Or.inl hct, rfl, fun _ _ => Or.inr ⟨rfl, Or.inl hct⟩⟩
          · rw [if_neg hct]
            refine ⟨?_, ?_, ?_⟩
            · intro j hj
              rw [fill_outside (by omega), hout j hj]
            · rw [hgap]
              exact Or.inr rfl
            · rw [hgap]
              exact ⟨rfl, by simp⟩
      · rintro mem₂ ⟨c, hc, he⟩
        exact ⟨rfl, by omega, c, hc, he⟩

/-- **`editItemAt`**, where there is such an item. -/
theorem editItemAt_spec (ans : Answers) (ho : Owns T mem x) {index : ℕ} (hi : index < x.mCount)
    (a : α) :
    Safe ⟨False, ans.malloc = false, False⟩ (editItemAt T ans mem x index a) fun r =>
      Edited T mem x r.1 r.2 ((content mem x).set index (some a)) := by
  unfold editItemAt
  cases hx : x.mStorage with
  | none =>
    have := ho.empty hx
    omega
  | some p =>
    obtain ⟨st, hst, -, hg⟩ := ho.storage p hx
    have hfits := hg.fits
    rw [assertIndex_eq hx hst (by omega)]
    simp only [bind, Except.bind]
    refine Ends.bind (editArrayImpl_spec ans.malloc ho hx hst) ?_
    rintro ⟨mem₁, x₁⟩ ⟨hcount, hch, st₁, hs, hg₁, hcap₁, hcells⟩
    dsimp only at hcount hch hs ⊢
    refine Ends.bind (set_spec hi hch hcount hs hg₁ ?_
      (Q := (· = some a)) ?_) ?_
    · intro i h
      rw [hcells i h, cellsOf_eq hx hst]
    · rw [if_pos (hg₁.objects index hi)]
      refine ⟨fun j hj => Function.update_of_ne hj _ _, ?_, Function.update_self ..⟩
      rw [Function.update_self]
      exact Or.inr rfl
    · rintro mem₂ ⟨c, rfl, he⟩
      exact he

/-- `_shrink` removes the items, unless it gets no memory. -/
theorem shrink_edit (ans : Answers) (ho : Owns T mem x) {w a : ℕ} (hwa : w + a ≤ x.mCount)
    (ha : a = 0 → w = x.mCount ∨ T.traits.relocates = true) :
    Safe ⟨Oversized T 0, ans.malloc = false, False⟩ (shrink T ans mem x w a) fun r =>
      Edited T mem x r.1 r.2 ((content mem x).take w ++ (content mem x).drop (w + a)) ∨
        (ans.malloc = false ∧ Edited T mem x r.1 r.2 (content mem x)) := by
  refine (shrink_spec ans ho hwa ha).mono ?_
  rintro ⟨mem', x'⟩ (⟨he, hm⟩ | ⟨hcount, hch, st, hs, hcl⟩)
  · obtain ⟨rfl, rfl⟩ := Prod.mk.inj he
    rcases hm with hm | hx
    · exact Or.inr ⟨hm, .same ho⟩
    · have h0 := ho.empty hx
      refine Or.inl ⟨.same rfl rfl, ho, ?_⟩
      simp [content, h0]
  · refine Or.inl ⟨hch, hs.owns (hcount ▸ hcl.good), ?_⟩
    rw [hs.items, hcount, hcl.items hwa]
    rfl

/-- **`removeItemsAt`** removes the items, and returns the index also when it could not. -/
theorem removeItemsAt_spec (ans : Answers) (ho : Owns T mem x) {index count : ℕ}
    (hwrap : index + count < 2 ^ 64) (ha : count = 0 → index = x.mCount ∨ T.traits.relocates = true) :
    Safe ⟨Oversized T 0, ans.malloc = false, x.mCount < index + count⟩
      (removeItemsAt T ans mem x index count) fun r =>
      r.2.2 = .value index ∧ index + count ≤ x.mCount ∧
        (Edited T mem x r.1 r.2.1 ((content mem x).take index ++ (content mem x).drop (index + count)) ∨
          (ans.malloc = false ∧ Edited T mem x r.1 r.2.1 (content mem x))) := by
  unfold removeItemsAt
  rw [Nat.mod_eq_of_lt hwrap]
  by_cases hi : x.mCount < index + count
  · rw [if_pos hi]
    exact hi
  · rw [if_neg hi]
    refine Ends.bind ((shrink_edit ans ho (by omega) ha).weaken (Causes.Allow.mono id id False.elim)) ?_
    rintro ⟨mem', x'⟩ h
    exact ⟨rfl, by omega, h⟩

/-- **`clear`** removes all items. -/
theorem clear_spec (ans : Answers) (ho : Owns T mem x) :
    Safe ⟨Oversized T 0, ans.malloc = false, False⟩ (clear T ans mem x) fun r =>
      Edited T mem x r.1 r.2 [] ∨ (ans.malloc = false ∧ Edited T mem x r.1 r.2 (content mem x)) := by
  refine (shrink_edit ans ho (by omega) fun h => Or.inl h.symm).mono ?_
  rintro ⟨mem', x'⟩ (h | h)
  · left
    have hdrop : (content mem x).drop (0 + x.mCount) = [] := by simp [content]
    rw [hdrop] at h
    exact h
  · exact Or.inr h

/-- **`setCapacity`** does not change the items. -/
theorem setCapacity_spec (ans : Answers) (ho : Owns T mem x) (newCapacity : ℕ) :
    Safe ⟨SharedBuffer.Fatal (newCapacity * T.itemSize), False, False⟩
      (setCapacity T ans mem x newCapacity) fun r =>
      Edited T mem x r.1 r.2.1 (content mem x) ∧ (r.2.2 = .noMemory → ans.malloc = false) := by
  unfold setCapacity
  by_cases hc : newCapacity ≤ x.mCount
  · rw [if_pos hc]
    cases hx : x.mStorage with
    | none =>
      rw [capacity, hx]
      exact ⟨.same ho, by simp⟩
    | some p =>
      obtain ⟨st, hst, -⟩ := ho.storage p hx
      rw [capacity_eq hx hst]
      exact ⟨.same ho, by simp⟩
  · rw [if_neg hc]
    refine Ends.bind (copyStorage_spec ans.malloc ho le_rfl le_rfl (by omega) x.mCount) ?_
    rintro _ (⟨rfl, hm⟩ | ⟨q, mem', rfl, hch, st', hs, hcap, hz, hhead, -, hraw⟩)
    · exact ⟨.same ho, fun _ => hm⟩
    · have hgood : Good T st' x.mCount := by
        refine ⟨hz, by omega, fun i hi => ?_, fun i h1 _ => ?_⟩
        · rw [hhead i hi]
          exact ho.object hi
        · rw [hraw i (by omega)]
          exact Or.inr rfl
      refine ⟨⟨hch, hs.owns hgood, ?_⟩, by simp⟩
      rw [hs.items, map_range_congr hhead]
      rfl

/-- **`resize`** cuts off items or makes new ones. -/
theorem resize_spec (ans : Answers) (ho : Owns T mem x) (size : ℕ) :
    Safe ⟨Oversized T size ∨ Oversized T 0, ans.malloc = false, False⟩ (resize T ans mem x size) fun r =>
      (r.2.2 = .noMemory ∧ ans.malloc = false ∧ Edited T mem x r.1 r.2.1 (content mem x)) ∨
      (r.2.2 = .value size ∧ x.mCount ≤ size ∧ ∃ l, Made T none (size - x.mCount) l ∧
        Edited T mem x r.1 r.2.1 (content mem x ++ l)) ∨
      (r.2.2 = .value size ∧ size < x.mCount ∧ (Edited T mem x r.1 r.2.1 ((content mem x).take size) ∨
        (ans.malloc = false ∧ Edited T mem x r.1 r.2.1 (content mem x)))) := by
  have hlen : (content mem x).length = x.mCount := by simp [content]
  unfold resize
  by_cases h1 : x.mCount < size
  · rw [if_pos h1]
    have hsize : x.mCount + (size - x.mCount) = size := by omega
    refine Ends.bind ((insertAt_spec ans ho none fun _ => Or.inl rfl).weaken
      (Causes.Allow.mono (fun h => Or.inl (hsize ▸ h)) id fun h => absurd h.1 (by omega))) ?_
    rintro ⟨mem', x', r⟩ (⟨-, h⟩ | ⟨he, hm⟩ | ⟨rfl, -, l, hl, he⟩)
    · omega
    · obtain ⟨rfl, rfl, rfl⟩ : mem' = mem ∧ x' = x ∧ r = .noMemory := by simpa using he
      exact Or.inl ⟨rfl, hm, .same ho⟩
    · refine Or.inr (Or.inl ⟨rfl, by omega, l, hl, ?_⟩)
      have htake : (content mem x).take x.mCount = content mem x := by rw [← hlen, List.take_length]
      have hdrop : (content mem x).drop x.mCount = [] := by rw [← hlen, List.drop_length]
      rw [htake, hdrop, List.append_nil] at he
      exact he
  · rw [if_neg h1]
    by_cases h2 : size < x.mCount
    · rw [if_pos h2]
      have hmod : ¬x.mCount < (size + (x.mCount - size)) % 2 ^ 64 := by
        have := Nat.mod_le (size + (x.mCount - size)) (2 ^ 64)
        omega
      unfold removeItemsAt
      rw [if_neg hmod]
      refine Ends.bind (P := fun r => r.2.2 = .value size ∧
        (Edited T mem x r.1 r.2.1 ((content mem x).take size) ∨
          (ans.malloc = false ∧ Edited T mem x r.1 r.2.1 (content mem x)))) ?_ ?_
      · refine Ends.bind ((shrink_edit ans ho (by omega) (by omega)).weaken
          (Causes.Allow.mono Or.inr id id)) ?_
        rintro ⟨mem', x'⟩ h
        refine ⟨rfl, h.imp_left fun he => ?_⟩
        have hdrop : (content mem x).drop (size + (x.mCount - size)) = [] := by
          apply List.drop_eq_nil_of_le
          omega
        rw [hdrop, List.append_nil] at he
        exact he
      · rintro ⟨mem', x', r⟩ ⟨hr, h⟩
        dsimp only at hr
        subst hr
        exact Or.inr (Or.inr ⟨rfl, h2, h⟩)
    · rw [if_neg h2]
      refine Or.inr (Or.inl ⟨rfl, by omega, [], ⟨by simp; omega, by simp⟩, ?_⟩)
      rw [List.append_nil]
      exact .same ho

/-- **`finish_vector`** releases the storage. -/
theorem finishVector_spec (ho : Owns T mem x) :
    Safe ⟨False, False, False⟩ (finishVector T mem x) fun r => r.2 = ⟨none, 0⟩ ∧ Edited T mem x r.1 r.2 [] := by
  obtain ⟨mem', hrel, hget⟩ := releaseStorage_spec ho
  unfold finishVector
  rw [hrel]
  exact ⟨rfl, .gone rfl hget, ⟨fun _ => rfl, by simp⟩, rfl⟩

end Operations

end Vector

end IntelCamera
