import IntelCamera.Lib.Runs
import IntelCamera.Lib.Tally
import IntelCamera.Vector.Sort

/-!
# Vector.System — any number of vectors

Runs make, copy, assign, edit and destroy any number of vectors of one type, in any order and with any
answers of `malloc` and `realloc`.  Copies share their storage, so an operation on one vector meets
storage that others read.

`Act.Effect` is what an operation is for: one list is edited, and the others stay.  It is what happens in
every run (`vectors_are_values`), without an object constructed over another, destroyed twice, copied
after its end or left in memory that is freed.  The process ends at `LOG_ALWAYS_FATAL_IF` and `ALOG_ASSERT`,
and `Act.causes` says when: a size that is too large, no memory for a copy of storage that is shared, or an
index that is out of bounds.

* A run must not insert nothing, or remove nothing, in the middle of a vector of items that have to be moved
  one by one: `_grow` and `_shrink` would then copy each of them onto itself and destroy it
  (`insert_nothing_undefined`).
* The items that are inserted are not items of the vector itself: their storage may have moved when they are
  read.
-/

namespace IntelCamera

open Lib

namespace Vector

/-! ### Runs -/

structure State (V α : Type) where
  mem : Memory α
  vec : V → Option Impl
  result : Result
  faults : ℕ

inductive Act (V α : Type)
  | new (v : V)
  | copy (v w : V)
  | assign (v w : V)
  | finish (v : V)
  | insertArrayAt (v : V) (ans : Answers) (items : List α) (index : ℕ)
  | insertVectorAt (v : V) (ans : Answers) (w : V) (index : ℕ)
  | insertAt (v : V) (ans : Answers) (item : Option α) (index numItems : ℕ)
  | replaceAt (v : V) (ans : Answers) (prototype : Option α) (index : ℕ)
  | editItemAt (v : V) (ans : Answers) (index : ℕ) (a : α)
  | removeItemsAt (v : V) (ans : Answers) (index count : ℕ)
  | clear (v : V) (ans : Answers)
  | setCapacity (v : V) (ans : Answers) (newCapacity : ℕ)
  | resize (v : V) (ans : Answers) (size : ℕ)
  | sort (v : V) (ans : Answers) (tempOk : Bool) (cmp : Option α → Option α → ℤ)

/-- The vector that the operation changes. -/
def Act.target {V α : Type} : Act V α → V
  | .new v | .copy v _ | .assign v _ | .finish v | .insertArrayAt v _ _ _ | .insertVectorAt v _ _ _
  | .insertAt v _ _ _ _ | .replaceAt v _ _ _ | .editItemAt v _ _ _ | .removeItemsAt v _ _ _ | .clear v _
  | .setCapacity v _ _ | .resize v _ _ | .sort v _ _ _ => v

section Runs

variable {V α : Type} [DecidableEq V] (T : ItemType α)

/-- A call on the vector `v` is over, or the process. -/
def State.after (s : State V α) (v : V) :
    Except Stop (Memory α × Option Impl × Result) → Option (State V α)
  | .ok (mem, x, r) => some ⟨mem, Function.update s.vec v x, r, s.faults⟩
  | .error e => if e.ends then none else some { s with faults := s.faults + 1 }

/-- An operation that returns a result. -/
def returning (r : Except Stop (Memory α × Impl × Result)) :
    Except Stop (Memory α × Option Impl × Result) := do
  let (mem, x, r) ← r
  .ok (mem, some x, r)

/-- An operation that returns none. -/
def silent (r : Except Stop (Memory α × Impl)) : Except Stop (Memory α × Option Impl × Result) := do
  let (mem, x) ← r
  .ok (mem, some x, .value 0)

/-- The end of a vector. -/
def ending (r : Except Stop (Memory α × Impl)) : Except Stop (Memory α × Option Impl × Result) := do
  let (mem, _) ← r
  .ok (mem, none, .value 0)

/-- An operation on an existing vector. -/
def State.call (s : State V α) (v : V) (f : Impl → Except Stop (Memory α × Option Impl × Result)) :
    Option (State V α) :=
  (s.vec v).bind fun x => s.after v (f x)

def step (s : State V α) : Act V α → Option (State V α)
  | .new v => if s.vec v = none then some { s with vec := Function.update s.vec v (some ⟨none, 0⟩) } else none
  | .copy v w =>
    if s.vec v = none then (s.vec w).bind fun y => s.after v (silent (copyVector s.mem y)) else none
  | .assign v w =>
    if v = w then (s.vec v).map fun _ => s
    else (s.vec w).bind fun y => s.call v fun x => silent (assign T s.mem x y)
  | .finish v => s.call v fun x => ending (finishVector T s.mem x)
  | .insertArrayAt v ans items index =>
    s.call v fun x => returning (insertArrayAt T ans s.mem x (.array items) index)
  | .insertVectorAt v ans w index =>
    (s.vec w).bind fun y => s.call v fun x => returning (insertArrayAt T ans s.mem x (.vector y) index)
  | .insertAt v ans item index numItems =>
    s.call v fun x => returning (insertAt T ans s.mem x item index numItems)
  | .replaceAt v ans prototype index =>
    s.call v fun x => returning (replaceAt T ans s.mem x prototype index)
  | .editItemAt v ans index a => s.call v fun x => silent (editItemAt T ans s.mem x index a)
  | .removeItemsAt v ans index count =>
    s.call v fun x => returning (removeItemsAt T ans s.mem x index count)
  | .clear v ans => s.call v fun x => silent (clear T ans s.mem x)
  | .setCapacity v ans n => s.call v fun x => returning (setCapacity T ans s.mem x n)
  | .resize v ans size => s.call v fun x => returning (resize T ans s.mem x size)
  | .sort v ans tempOk cmp => s.call v fun x => returning (sort T cmp ans tempOk s.mem x)

/-- Nothing may be inserted or removed at `index`. -/
def NothingAt (s : State V α) (v : V) (index : ℕ) : Prop :=
  T.traits.relocates = true ∨ ∀ x ∈ s.vec v, index = x.mCount

/-- A vector is not inserted into itself, there is an item to edit, and `index+count` does not wrap
around. -/
def allowed (s : State V α) : Act V α → Prop
  | .insertArrayAt v _ items index => items.length = 0 → NothingAt T s v index
  | .insertVectorAt v _ w index => w ≠ v ∧ ∀ y ∈ s.vec w, y.mCount = 0 → NothingAt T s v index
  | .insertAt v _ _ index numItems => numItems = 0 → NothingAt T s v index
  | .editItemAt v _ index _ => ∀ x ∈ s.vec v, index < x.mCount
  | .removeItemsAt v _ index count => index + count < 2 ^ 64 ∧ (count = 0 → NothingAt T s v index)
  | _ => True

/-- No vector and no memory. -/
def Start (s : State V α) : Prop := s.mem = Store.empty ∧ s.faults = 0 ∧ ∀ v, s.vec v = none

/-! ### What the operations are for -/

/-- The vectors as lists. -/
def State.contents (s : State V α) (v : V) : Option (List (Option α)) := (s.vec v).map (content s.mem)

/-- `new` is inserted into `l`. -/
inductive Inserts (ans : Answers) (l new : List (Option α)) (index : ℕ) :
    Result → List (Option α) → Prop
  | badIndex (h : l.length < index) : Inserts ans l new index .badIndex l
  | noMemory (h : ans.malloc = false) : Inserts ans l new index .noMemory l
  | done (h : index ≤ l.length) :
      Inserts ans l new index (.value index) (l.take index ++ new ++ l.drop index)

/-- Items of `l` are removed. -/
inductive Removes (ans : Answers) (l : List (Option α)) (index count : ℕ) :
    Result → List (Option α) → Prop
  | done (h : index + count ≤ l.length) :
      Removes ans l index count (.value index) (l.take index ++ l.drop (index + count))
  | noMemory (h : index + count ≤ l.length) (hm : ans.malloc = false) :
      Removes ans l index count (.value index) l

/-- An item of `l` is replaced. -/
inductive Replaces (prototype : Option α) (l : List (Option α)) (index : ℕ) :
    Result → List (Option α) → Prop
  | done {c : Option α} (h : index < l.length) (hc : Made T prototype 1 [c]) :
      Replaces prototype l index (.value index) (l.set index c)

/-- Items are cut off `l`, or new ones are made. -/
inductive Resizes (ans : Answers) (l : List (Option α)) (size : ℕ) : Result → List (Option α) → Prop
  | longer {new : List (Option α)} (h : l.length ≤ size) (hn : Made T none (size - l.length) new) :
      Resizes ans l size (.value size) (l ++ new)
  | shorter (h : size < l.length) : Resizes ans l size (.value size) (l.take size)
  | noMemory {r : Result} (hm : ans.malloc = false) (hr : r = .noMemory ∨ r = .value size ∧ size < l.length) :
      Resizes ans l size r l

/-- What an operation that returns `r` makes of the list of its vector. -/
def Act.Effect (c : V → Option (List (Option α))) (r : Result) : Act V α → Option (List (Option α)) → Prop
  | .new _, o => o = some []
  | .copy _ w, o => o = c w
  | .assign _ w, o => o = c w
  | .finish _, o => o = none
  | .insertArrayAt v ans items index, o =>
    ∃ l l', c v = some l ∧ o = some l' ∧ Inserts ans l (items.map some) index r l'
  | .insertVectorAt v ans w index, o =>
    ∃ l l' new, c v = some l ∧ c w = some new ∧ o = some l' ∧ Inserts ans l new index r l'
  | .insertAt v ans item index numItems, o =>
    ∃ l l' new, c v = some l ∧ o = some l' ∧ Made T item numItems new ∧ Inserts ans l new index r l'
  | .replaceAt v _ prototype index, o =>
    ∃ l l', c v = some l ∧ o = some l' ∧ Replaces T prototype l index r l'
  | .editItemAt v _ index a, o => ∃ l, c v = some l ∧ index < l.length ∧ o = some (l.set index (some a))
  | .removeItemsAt v ans index count, o =>
    ∃ l l', c v = some l ∧ o = some l' ∧ Removes ans l index count r l'
  | .clear v ans, o => ∃ l, c v = some l ∧ (o = some [] ∨ ans.malloc = false ∧ o = some l)
  | .setCapacity v ans _, o => o = c v ∧ (r = .noMemory → ans.malloc = false)
  | .resize v ans size, o => ∃ l l', c v = some l ∧ o = some l' ∧ Resizes T ans l size r l'
  | .sort v _ tempOk cmp, o => ∃ l l', c v = some l ∧ o = some l' ∧
    (r = .noMemory ∧ tempOk = false ∧ l' = l ∨ r = .value 0 ∧ Sorts cmp l l')

/-- The number of items. -/
def State.size (s : State V α) (v : V) : ℕ := (s.vec v).elim 0 (·.mCount)

end Runs

/-! ### The invariant -/

section Inv

variable {V α : Type} [Fintype V] {T : ItemType α} {s s' : State V α} {v w : V} {x y : Impl} {p : ℕ}

/-- The vector points at `p`. -/
def pointsAt (p : ℕ) (o : Option Impl) : ℕ := if o.bind (·.mStorage) = some p then 1 else 0

/-- How many vectors point at `p`. -/
def pointers (vec : V → Option Impl) (p : ℕ) : ℕ := tally (pointsAt p) vec

structure Inv (T : ItemType α) (s : State V α) : Prop where
  owns : ∀ v x, s.vec v = some x → Owns T s.mem x
  counted : ∀ p st, s.mem.get p = some st → st.refs = pointers s.vec p ∧ 0 < st.refs
  faults : s.faults = 0

theorem pointsAt_some : pointsAt p (some x) = if x.mStorage = some p then 1 else 0 := rfl

theorem pointsAt_none : pointsAt p none = 0 := by
  simp [pointsAt]

variable [DecidableEq V]

/-- The other vectors. -/
def others (vec : V → Option Impl) (v : V) : V → Option Impl := Function.update vec v none

theorem pointers_update (vec : V → Option Impl) (v : V) (o : Option Impl) (p : ℕ) :
    pointers (Function.update vec v o) p = pointers (others vec v) p + pointsAt p o :=
  tally_update_eq_add (pointsAt p) pointsAt_none vec v o

theorem pointers_eq (vec : V → Option Impl) (v : V) (p : ℕ) :
    pointers vec p = pointers (others vec v) p + pointsAt p (vec v) := by
  rw [← pointers_update, Function.update_eq_self]

/-- Another vector with the same storage. -/
theorem others_pos {vec : V → Option Impl} (hne : w ≠ v) (hw : vec w = some y)
    (hy : y.mStorage = some p) : 0 < pointers (others vec v) p := by
  have h := le_tally (pointsAt p) (others vec v) w
  rw [others, Function.update_of_ne hne, hw, pointsAt_some, if_pos hy] at h
  exact h

omit [DecidableEq V] in
/-- Nobody points at memory that is not there. -/
theorem Inv.dead (hi : Inv T s) (hp : s.mem.get p = none) : pointers s.vec p = 0 := by
  refine tally_eq_zero_iff.mpr fun v => if_neg fun h => ?_
  obtain ⟨x, hx, hs⟩ := Option.bind_eq_some_iff.mp h
  obtain ⟨st, hst, -⟩ := (hi.owns v x hx).storage p hs
  rw [hp] at hst
  cases hst

/-- Storage that two vectors point at is counted twice. -/
theorem Inv.shared (hi : Inv T s) (hne : w ≠ v) (hv : s.vec v = some x) (hw : s.vec w = some y)
    (hx : x.mStorage = some p) (hy : y.mStorage = some p) {st : Storage α}
    (hst : s.mem.get p = some st) : st.refs ≠ 1 := by
  have h1 := (hi.counted p st hst).1
  have h2 : 0 < pointers (others s.vec v) p := others_pos hne hw hy
  rw [pointers_eq _ v, hv, pointsAt_some, if_pos hx] at h1
  omega

theorem content_congr {mem mem' : Memory α} {st st' : Storage α} (hy : y.mStorage = some p)
    (hst : mem.get p = some st) (hst' : mem'.get p = some st') (hc : st'.cells = st.cells) :
    content mem' y = content mem y := by
  rw [content, content, cellsOf_eq hy hst, cellsOf_eq hy hst', hc]

theorem content_empty {mem mem' : Memory α} (hy : y.mStorage = none) :
    content mem' y = content mem y := by
  simp [content, cellsOf, hy]

/-- The others are left alone. -/
theorem Inv.frame (hi : Inv T s) (hv : s.vec v = some x) {mem' : Memory α} {x' : Impl}
    (hc : Change s.mem x mem' x') (hne : w ≠ v) (hw : s.vec w = some y) :
    Owns T mem' y ∧ content mem' y = content s.mem y := by
  have ho := hi.owns w y hw
  cases hy : y.mStorage with
  | none => exact ⟨⟨ho.empty, fun p hp => absurd (hy.symm.trans hp) (by simp)⟩, content_empty hy⟩
  | some p =>
    obtain ⟨st, hst, hpos, hg⟩ := ho.storage p hy
    obtain ⟨st', hst', hcap, hcells, hpos'⟩ := hc.other hst fun hx => hi.shared hne hv hw hx hy hst
    refine ⟨⟨ho.empty, fun p' hp' => ?_⟩, content_congr hy hst hst' hcells⟩
    obtain rfl := Option.some.inj (hy.symm.trans hp')
    refine ⟨st', hst', hpos' hpos, ?_, ?_, ?_, ?_⟩
    · rw [hcap]
      exact hg.sized
    · rw [hcap]
      exact hg.fits
    · rw [hcells]
      exact hg.objects
    · rw [hcap, hcells]
      exact hg.raw

/-- **One vector is edited.** -/
theorem Inv.edit (hi : Inv T s) (hv : s.vec v = some x) {mem' : Memory α} {x' : Impl}
    {l : List (Option α)} (he : Edited T s.mem x mem' x' l) {o : Option Impl} {r : Result}
    (ho : o = some x' ∨ (o = none ∧ x'.mStorage = none)) :
    Inv T ⟨mem', Function.update s.vec v o, r, s.faults⟩ := by
  have hpoints : ∀ p, pointsAt p o = if x'.mStorage = some p then 1 else 0 := by
    intro p
    rcases ho with rfl | ⟨rfl, hn⟩
    · rfl
    · rw [pointsAt_none, hn, if_neg (by simp)]
  refine ⟨fun w y hw => ?_, fun p st hst => ?_, hi.faults⟩
  · dsimp only at hw ⊢
    by_cases hne : w = v
    · subst hne
      rw [Function.update_self] at hw
      rcases ho with rfl | ⟨rfl, -⟩
      · obtain rfl := Option.some.inj hw
        exact he.owns
      · cases hw
    · rw [Function.update_of_ne hne] at hw
      exact (hi.frame hv he.change hne hw).1
  · dsimp only at hst ⊢
    rw [pointers_update, hpoints]
    -- what a release leaves is counted
    have hafter : afterRelease s.mem x p = some st → st.refs = pointers (others s.vec v) p ∧ 0 < st.refs := by
      unfold afterRelease
      by_cases hx : x.mStorage = some p
      · rw [if_pos hx]
        intro h
        obtain ⟨st₀, hst₀, h⟩ := Option.bind_eq_some_iff.mp h
        obtain ⟨h1, h2⟩ := hi.counted p st₀ hst₀
        rw [pointers_eq _ v, hv, pointsAt_some, if_pos hx] at h1
        obtain ⟨hne, h⟩ := Option.ite_none_left_eq_some.mp h
        obtain rfl := Option.some.inj h
        dsimp only
        omega
      · rw [if_neg hx]
        intro h
        have hc := hi.counted p st h
        rw [pointers_eq _ v, hv, pointsAt_some, if_neg hx] at hc
        exact hc
    cases he.change with
    | same hm hx' =>
      subst hm hx'
      have hc := hi.counted p st hst
      rw [pointers_eq _ v, hv, pointsAt_some] at hc
      exact hc
    | @kept p₀ st₀ st' hx hst₀ h1 hx' hst' h1' hrest =>
      by_cases hp : p = p₀
      · subst hp
        obtain rfl := Option.some.inj (hst.symm.trans hst')
        have hc := hi.counted p st₀ hst₀
        rw [pointers_eq _ v, hv, pointsAt_some, if_pos hx] at hc
        rw [if_pos hx']
        omega
      · rw [hrest p hp] at hst
        have hc := hi.counted p st hst
        rw [pointers_eq _ v, hv, pointsAt_some, hx] at hc
        rw [hx']
        exact hc
    | @moved q st' hx' hnew hst' h1' hrest =>
      by_cases hp : p = q
      · subst hp
        obtain rfl := Option.some.inj (hst.symm.trans hst')
        have h0 := hi.dead hnew
        rw [pointers_eq _ v] at h0
        rw [if_pos hx']
        omega
      · rw [hrest p hp] at hst
        rw [hx', if_neg (by simpa using Ne.symm hp), Nat.add_zero]
        exact hafter hst
    | gone hx' hrest =>
      rw [hrest p] at hst
      rw [hx', if_neg (by simp), Nat.add_zero]
      exact hafter hst

end Inv

/-! ### Every operation -/

section Steps

variable {V α : Type} [DecidableEq V] {T : ItemType α} {s s' : State V α} {v w : V} {x y : Impl}

theorem after_safe {c : Causes} {r : Except Stop (Memory α × Option Impl × Result)}
    {P : Memory α × Option Impl × Result → Prop} (hr : Safe c r P) (h : s.after v r = some s') :
    ∃ mem' o res, P (mem', o, res) ∧ s' = ⟨mem', Function.update s.vec v o, res, s.faults⟩ := by
  cases r with
  | ok b =>
    obtain ⟨mem', o, res⟩ := b
    exact ⟨mem', o, res, hr, (Option.some.inj h).symm⟩
  | error e =>
    rw [State.after, if_pos hr.ends] at h
    cases h

theorem safe_returning {c : Causes} {r : Except Stop (Memory α × Impl × Result)}
    {P : Memory α × Impl × Result → Prop} (hr : Safe c r P) :
    Safe c (returning r) fun b => ∃ x', b.2.1 = some x' ∧ P (b.1, x', b.2.2) :=
  Ends.bind hr fun b hb => ⟨b.2.1, rfl, hb⟩

theorem safe_silent {c : Causes} {r : Except Stop (Memory α × Impl)} {P : Memory α × Impl → Prop}
    (hr : Safe c r P) : Safe c (silent r) fun b => ∃ x', b.2 = (some x', .value 0) ∧ P (b.1, x') :=
  Ends.bind hr fun b hb => ⟨b.2, rfl, hb⟩

theorem safe_ending {c : Causes} {r : Except Stop (Memory α × Impl)} {P : Memory α × Impl → Prop}
    (hr : Safe c r P) : Safe c (ending r) fun b => b.2 = (none, .value 0) ∧ ∃ x', P (b.1, x') :=
  Ends.bind hr fun b hb => ⟨rfl, b.2, hb⟩

theorem call_returning {c : Impl → Causes} {f : Impl → Except Stop (Memory α × Impl × Result)}
    {P : Impl → Memory α × Impl × Result → Prop} (hf : ∀ x, s.vec v = some x → Safe (c x) (f x) (P x))
    (h : s.call v (fun x => returning (f x)) = some s') :
    ∃ x mem' x' res, s.vec v = some x ∧ P x (mem', x', res) ∧
      s' = ⟨mem', Function.update s.vec v (some x'), res, s.faults⟩ := by
  obtain ⟨x, hx, h⟩ := Option.bind_eq_some_iff.mp h
  obtain ⟨mem', o, res, ⟨x', rfl, hP⟩, rfl⟩ := after_safe (safe_returning (hf x hx)) h
  exact ⟨x, mem', x', res, hx, hP, rfl⟩

theorem call_silent {c : Impl → Causes} {f : Impl → Except Stop (Memory α × Impl)}
    {P : Impl → Memory α × Impl → Prop} (hf : ∀ x, s.vec v = some x → Safe (c x) (f x) (P x)) (h : s.call v (fun x => silent (f x)) = some s') :
    ∃ x mem' x', s.vec v = some x ∧ P x (mem', x') ∧
      s' = ⟨mem', Function.update s.vec v (some x'), .value 0, s.faults⟩ := by
  obtain ⟨x, hx, h⟩ := Option.bind_eq_some_iff.mp h
  obtain ⟨mem', o, res, ⟨x', ho, hP⟩, rfl⟩ := after_safe (safe_silent (hf x hx)) h
  obtain ⟨rfl, rfl⟩ := Prod.mk.inj ho
  exact ⟨x, mem', x', hx, hP, rfl⟩

omit [DecidableEq V] in
theorem contents_eq (hv : s.vec v = some x) : s.contents v = some (content s.mem x) := by
  rw [State.contents, hv]
  rfl

theorem length_content (mem : Memory α) (x : Impl) : (content mem x).length = x.mCount := by
  simp [content]

variable [Fintype V]

/-- What a step of the vector `v` must do. -/
structure Stepped (T : ItemType α) (s : State V α) (v : V) (s' : State V α)
    (o : Option (List (Option α))) : Prop where
  inv : Inv T s'
  frame : ∀ w, w ≠ v → s'.contents w = s.contents w
  target : s'.contents v = o

theorem Inv.stepped (hi : Inv T s) (hv : s.vec v = some x) {mem' : Memory α} {x' : Impl}
    {l : List (Option α)} {r : Result} (he : Edited T s.mem x mem' x' l) :
    Stepped T s v ⟨mem', Function.update s.vec v (some x'), r, s.faults⟩ (some l) := by
  refine ⟨hi.edit hv he (Or.inl rfl), fun w hne => ?_, ?_⟩
  · simp only [State.contents, Function.update_of_ne hne]
    cases hw : s.vec w with
    | none => rfl
    | some y => exact congrArg some (hi.frame hv he.change hne hw).2
  · simp only [State.contents, Function.update_self]
    exact congrArg some he.items

theorem Inv.finished (hi : Inv T s) (hv : s.vec v = some x) {mem' : Memory α} {r : Result}
    (he : Edited T s.mem x mem' ⟨none, 0⟩ []) :
    Stepped T s v ⟨mem', Function.update s.vec v none, r, s.faults⟩ none := by
  refine ⟨hi.edit hv he (Or.inr ⟨rfl, rfl⟩), fun w hne => ?_, ?_⟩
  · simp only [State.contents, Function.update_of_ne hne]
    cases hw : s.vec w with
    | none => rfl
    | some y => exact congrArg some (hi.frame hv he.change hne hw).2
  · simp only [State.contents, Function.update_self]
    rfl

/-- A vector without storage becomes a copy. -/
theorem Inv.acquired (hi : Inv T s) (hw : s.vec w = some y)
    (hv : (s.vec v).bind (·.mStorage) = none) {r : Result} :
    ∃ mem', acquire s.mem y = .ok mem' ∧
      Stepped T s v ⟨mem', Function.update s.vec v (some y), r, s.faults⟩ (s.contents w) := by
  have ho := hi.owns w y hw
  unfold acquire
  cases hy : y.mStorage with
  | none =>
    refine ⟨s.mem, rfl, ⟨fun u z hz => ?_, fun p st hst => ?_, hi.faults⟩, fun u hu => ?_, ?_⟩
    · dsimp only at hz ⊢
      by_cases hu : u = v
      · subst hu
        rw [Function.update_self] at hz
        obtain rfl := Option.some.inj hz
        exact ho
      · rw [Function.update_of_ne hu] at hz
        exact hi.owns u z hz
    · dsimp only at hst ⊢
      have hc := hi.counted p st hst
      rw [pointers_eq _ v, pointsAt, hv, if_neg (by simp)] at hc
      rw [pointers_update, pointsAt_some, hy, if_neg (by simp)]
      exact hc
    · simp only [State.contents, Function.update_of_ne hu]
    · simp only [State.contents, Function.update_self, hw]
  | some p =>
    obtain ⟨st, hst, hpos, hg⟩ := ho.storage p hy
    simp only [deref_eq hst, bind, Except.bind]
    have hget : (s.mem.set p { st with refs := st.refs + 1 }).get p = some { st with refs := st.refs + 1 } :=
      Store.get_set (Store.lt_next hst)
    -- only the counter changes
    have hother : ∀ u z, s.vec u = some z → Owns T (s.mem.set p { st with refs := st.refs + 1 }) z ∧
        content (s.mem.set p { st with refs := st.refs + 1 }) z = content s.mem z := by
      intro u z hz
      have hoz := hi.owns u z hz
      cases hzs : z.mStorage with
      | none => exact ⟨⟨hoz.empty, fun q hq => absurd (hzs.symm.trans hq) (by simp)⟩, content_empty hzs⟩
      | some q =>
        obtain ⟨st₁, hst₁, hpos₁, hg₁⟩ := hoz.storage q hzs
        by_cases hq : q = p
        · subst hq
          obtain rfl := Option.some.inj (hst.symm.trans hst₁)
          refine ⟨⟨hoz.empty, fun q' hq' => ?_⟩, content_congr hzs hst hget rfl⟩
          obtain rfl := Option.some.inj (hzs.symm.trans hq')
          exact ⟨_, hget, Nat.succ_pos _, hg₁.sized, hg₁.fits, hg₁.objects, hg₁.raw⟩
        · have hget₁ : (s.mem.set p { st with refs := st.refs + 1 }).get q = some st₁ := by
            rw [Store.get_set_ne hq]
            exact hst₁
          refine ⟨⟨hoz.empty, fun q' hq' => ?_⟩, content_congr hzs hst₁ hget₁ rfl⟩
          obtain rfl := Option.some.inj (hzs.symm.trans hq')
          exact ⟨st₁, hget₁, hpos₁, hg₁⟩
    refine ⟨_, rfl, ⟨fun u z hz => ?_, fun q st₁ hst₁ => ?_, hi.faults⟩, fun u hu => ?_, ?_⟩
    · dsimp only at hz ⊢
      by_cases hu : u = v
      · subst hu
        rw [Function.update_self] at hz
        obtain rfl := Option.some.inj hz
        exact (hother w y hw).1
      · rw [Function.update_of_ne hu] at hz
        exact (hother u z hz).1
    · dsimp only at hst₁ ⊢
      rw [pointers_update, pointsAt_some, hy]
      by_cases hq : q = p
      · subst hq
        obtain rfl := Option.some.inj (hst₁.symm.trans hget)
        have hc := hi.counted q st hst
        rw [pointers_eq _ v, pointsAt, hv, if_neg (by simp)] at hc
        rw [if_pos rfl]
        dsimp only
        omega
      · rw [Store.get_set_ne hq] at hst₁
        have hc := hi.counted q st₁ hst₁
        rw [pointers_eq _ v, pointsAt, hv, if_neg (by simp)] at hc
        rw [if_neg (by simpa using Ne.symm hq)]
        exact hc
    · simp only [State.contents, Function.update_of_ne hu]
      cases hz : s.vec u with
      | none => rfl
      | some z => exact congrArg some (hother u z hz).2
    · simp only [State.contents, Function.update_self, hw]
      exact congrArg some (hother w y hw).2

/-- A vector that releases its storage becomes a copy of another one. -/
theorem Inv.assigned (hi : Inv T s) (hvw : v ≠ w) (hv : s.vec v = some x) (hw : s.vec w = some y) :
    ∃ s', s.after v (silent (assign T s.mem x y)) = some s' ∧ Stepped T s v s' (s.contents w) := by
  obtain ⟨mem₁, hrel, hget⟩ := releaseStorage_spec (hi.owns v x hv)
  have he : Edited T s.mem x mem₁ ⟨none, 0⟩ [] := ⟨.gone rfl hget, ⟨fun _ => rfl, by simp⟩, rfl⟩
  have hst₁ := hi.stepped (r := .value 0) hv he
  have hw₁ : Function.update s.vec v (some ⟨none, 0⟩) w = some y := by
    rw [Function.update_of_ne (Ne.symm hvw)]
    exact hw
  have hwc := hst₁.frame w (Ne.symm hvw)
  by_cases h0 : y.mCount = 0
  · simp only [assign, hrel, h0, ne_eq, not_true_eq_false, if_false, silent, bind, Except.bind,
      State.after]
    have hempty : s.contents w = some [] := by
      rw [contents_eq hw, content, h0]
      rfl
    rw [hempty]
    exact ⟨_, rfl, hst₁⟩
  · obtain ⟨mem', hacq, hst₂⟩ := hst₁.inv.acquired (v := v) (r := .value 0) hw₁
      (by simp [Function.update_self])
    simp only [assign, hrel, ne_eq, h0, not_false_eq_true, if_true, hacq, silent, bind, Except.bind,
      State.after, Function.update_idem] at hst₂ ⊢
    refine ⟨_, rfl, hst₂.inv, fun u hu => (hst₂.frame u hu).trans (hst₁.frame u hu), ?_⟩
    exact hst₂.target.trans hwc

/-- An insertion, which may be refused. -/
theorem Inv.inserted (hi : Inv T s) (hv : s.vec v = some x) {ans : Answers} {mem' : Memory α} {x' : Impl}
    {r : Result} {index : ℕ} {new : List (Option α)}
    (h : ((mem', x', r) = (s.mem, x, .badIndex) ∧ x.mCount < index) ∨
      ((mem', x', r) = (s.mem, x, .noMemory) ∧ ans.malloc = false) ∨
      (r = .value index ∧ index ≤ x.mCount ∧ Edited T s.mem x mem' x'
        ((content s.mem x).take index ++ new ++ (content s.mem x).drop index))) :
    ∃ l, Stepped T s v ⟨mem', Function.update s.vec v (some x'), r, s.faults⟩ (some l) ∧
      Inserts ans (content s.mem x) new index r l := by
  have hlen := length_content s.mem x
  rcases h with ⟨heq, hlt⟩ | ⟨heq, hm⟩ | ⟨rfl, hle, he⟩
  · obtain ⟨rfl, rfl, rfl⟩ : mem' = s.mem ∧ x' = x ∧ r = .badIndex := by simpa using heq
    exact ⟨_, hi.stepped hv (.same (hi.owns v x' hv)), .badIndex (by omega)⟩
  · obtain ⟨rfl, rfl, rfl⟩ : mem' = s.mem ∧ x' = x ∧ r = .noMemory := by simpa using heq
    exact ⟨_, hi.stepped hv (.same (hi.owns v x' hv)), .noMemory hm⟩
  · exact ⟨_, hi.stepped hv he, .done (by omega)⟩

omit [DecidableEq V] in
theorem Stepped.effect {a : Act V α} {o : Option (List (Option α))} (h : Stepped T s a.target s' o)
    (he : a.Effect T s.contents s'.result o) :
    Inv T s' ∧ (∀ w, w ≠ a.target → s'.contents w = s.contents w) ∧
      a.Effect T s.contents s'.result (s'.contents a.target) :=
  ⟨h.inv, h.frame, by rw [h.target]; exact he⟩

omit [DecidableEq V] [Fintype V] in
theorem NothingAt.apply {index : ℕ} (h : NothingAt T s v index) (hv : s.vec v = some x) :
    index = x.mCount ∨ T.traits.relocates = true :=
  h.symm.imp_left fun h => h x hv

/-- **Every operation keeps the invariant and has its effect.** -/
theorem Inv.step {a : Act V α} (hi : Inv T s) (ha : allowed T s a) (h : step T s a = some s') :
    Inv T s' ∧ (∀ w, w ≠ a.target → s'.contents w = s.contents w) ∧
      a.Effect T s.contents s'.result (s'.contents a.target) := by
  cases a with
  | new v =>
    obtain ⟨hv, h⟩ := Option.ite_none_right_eq_some.mp h
    obtain rfl := Option.some.inj h
    refine Stepped.effect (o := some []) ⟨⟨fun u z hz => ?_, fun p st hst => ?_, hi.faults⟩, ?_, ?_⟩ rfl
    · dsimp only at hz ⊢
      by_cases hu : u = v
      · subst hu
        rw [Function.update_self] at hz
        obtain rfl := Option.some.inj hz
        exact ⟨fun _ => rfl, by simp⟩
      · rw [Function.update_of_ne hu] at hz
        exact hi.owns u z hz
    · dsimp only at hst ⊢
      have hc := hi.counted p st hst
      rw [pointers_eq _ v, hv, pointsAt_none] at hc
      rw [pointers_update, pointsAt_some, if_neg (by simp)]
      exact hc
    · intro u hu
      have hne : u ≠ v := hu
      simp only [State.contents, Function.update_of_ne hne]
    · simp [State.contents, Act.target, content]
  | copy v w =>
    obtain ⟨hv, h⟩ := Option.ite_none_right_eq_some.mp h
    obtain ⟨y, hw, h⟩ := Option.bind_eq_some_iff.mp h
    obtain ⟨mem', hacq, hst⟩ := hi.acquired (r := .value 0) hw (by rw [hv]; rfl)
    simp only [copyVector, hacq, silent, bind, Except.bind, State.after] at h
    obtain rfl := Option.some.inj h
    exact hst.effect rfl
  | assign v w =>
    simp only [Vector.step] at h
    by_cases hvw : v = w
    · subst hvw
      rw [if_pos rfl] at h
      obtain ⟨x, hv, rfl⟩ := Option.map_eq_some_iff.mp h
      exact ⟨hi, fun _ _ => rfl, rfl⟩
    · rw [if_neg hvw] at h
      obtain ⟨y, hw, h⟩ := Option.bind_eq_some_iff.mp h
      obtain ⟨x, hv, h⟩ := Option.bind_eq_some_iff.mp h
      obtain ⟨s₁, hs₁, hst⟩ := hi.assigned hvw hv hw
      obtain rfl := Option.some.inj (hs₁.symm.trans h)
      exact hst.effect rfl
  | finish v =>
    obtain ⟨x, hv, h⟩ := Option.bind_eq_some_iff.mp h
    obtain ⟨mem', o, res, ⟨ho, x', hx', he⟩, rfl⟩ :=
      after_safe (safe_ending (finishVector_spec (hi.owns v x hv))) h
    dsimp only at hx'
    subst hx'
    obtain ⟨rfl, rfl⟩ := Prod.mk.inj ho
    exact (hi.finished hv he).effect rfl
  | insertArrayAt v ans items index =>
    obtain ⟨x, mem', x', res, hv, hP, rfl⟩ := call_returning (fun x hv => insertArrayAt_spec ans
      (hi.owns v x hv) (readable_array items) fun h0 => (ha h0).apply hv) h
    obtain ⟨l, hst, hins⟩ := hi.inserted hv hP
    exact hst.effect ⟨_, _, contents_eq hv, rfl, hins⟩
  | insertVectorAt v ans w index =>
    obtain ⟨y, hw, h⟩ := Option.bind_eq_some_iff.mp h
    obtain ⟨hne, ha⟩ := ha
    obtain ⟨x, mem', x', res, hv, hP, rfl⟩ := call_returning (fun x hv => insertArrayAt_spec ans
      (hi.owns v x hv) (readable_vector (hi.owns w y hw) fun r st hx hy hst =>
        hi.shared hne hv hw hx hy hst) fun h0 => (ha y hw h0).apply hv) h
    obtain ⟨l, hst, hins⟩ := hi.inserted hv hP
    exact hst.effect ⟨_, _, _, contents_eq hv, contents_eq hw, rfl, hins⟩
  | insertAt v ans item index numItems =>
    obtain ⟨x, mem', x', res, hv, hP, rfl⟩ := call_returning (fun x hv => insertAt_spec ans
      (hi.owns v x hv) item fun h0 => (ha h0).apply hv) h
    obtain ⟨new, hnew⟩ : ∃ new, Made T item numItems new := by
      refine ⟨List.replicate numItems (item.or (some T.dflt)), by simp, fun c hc => ?_⟩
      obtain rfl := List.eq_of_mem_replicate hc
      cases item with
      | none => exact Or.inr ⟨rfl, Or.inr rfl⟩
      | some a => exact Or.inl ⟨by simp, rfl⟩
    rcases hP with hP | hP | ⟨hres, hle, l, hl, he⟩
    · obtain ⟨l, hst, hins⟩ := hi.inserted hv (Or.inl hP)
      exact hst.effect ⟨_, _, new, contents_eq hv, rfl, hnew, hins⟩
    · obtain ⟨l, hst, hins⟩ := hi.inserted hv (Or.inr (Or.inl hP))
      exact hst.effect ⟨_, _, new, contents_eq hv, rfl, hnew, hins⟩
    · obtain ⟨l', hst, hins⟩ := hi.inserted hv (Or.inr (Or.inr ⟨hres, hle, he⟩))
      exact hst.effect ⟨_, _, l, contents_eq hv, rfl, hl, hins⟩
  | replaceAt v ans prototype index =>
    obtain ⟨x, mem', x', res, hv, hP, rfl⟩ := call_returning (fun x hv => replaceAt_spec ans
      (hi.owns v x hv) prototype index) h
    have hlen := length_content s.mem x
    obtain ⟨rfl, hlt, c, hc, he⟩ := hP
    exact (hi.stepped hv he).effect ⟨_, _, contents_eq hv, rfl, .done (by omega) hc⟩
  | editItemAt v ans index a =>
    obtain ⟨x, mem', x', hv, he, rfl⟩ := call_silent (fun x hv => editItemAt_spec ans (hi.owns v x hv)
      (ha x hv) a) h
    have hlt := ha x hv
    exact (hi.stepped hv he).effect ⟨_, contents_eq hv, by rw [length_content]; exact hlt, rfl⟩
  | removeItemsAt v ans index count =>
    obtain ⟨x, mem', x', res, hv, hP, rfl⟩ := call_returning (fun x hv => removeItemsAt_spec ans
      (hi.owns v x hv) ha.1 fun h0 => (ha.2 h0).apply hv) h
    have hlen := length_content s.mem x
    obtain ⟨rfl, hle, he | ⟨hm, he⟩⟩ := hP
    · exact (hi.stepped hv he).effect ⟨_, _, contents_eq hv, rfl, .done (by omega)⟩
    · exact (hi.stepped hv he).effect ⟨_, _, contents_eq hv, rfl, .noMemory (by omega) hm⟩
  | clear v ans =>
    obtain ⟨x, mem', x', hv, he | ⟨hm, he⟩, rfl⟩ := call_silent (fun x hv => clear_spec ans
      (hi.owns v x hv)) h
    · exact (hi.stepped hv he).effect ⟨_, contents_eq hv, Or.inl rfl⟩
    · exact (hi.stepped hv he).effect ⟨_, contents_eq hv, Or.inr ⟨hm, rfl⟩⟩
  | setCapacity v ans n =>
    obtain ⟨x, mem', x', res, hv, ⟨he, hm⟩, rfl⟩ := call_returning (fun x hv => setCapacity_spec ans
      (hi.owns v x hv) n) h
    exact (hi.stepped hv he).effect ⟨(contents_eq hv).symm, hm⟩
  | resize v ans size =>
    obtain ⟨x, mem', x', res, hv, hP, rfl⟩ := call_returning (fun x hv => resize_spec ans
      (hi.owns v x hv) size) h
    have hlen := length_content s.mem x
    rcases hP with ⟨rfl, hm, he⟩ | ⟨rfl, hle, l, hl, he⟩ | ⟨rfl, hlt, he | ⟨hm, he⟩⟩
    · exact (hi.stepped hv he).effect ⟨_, _, contents_eq hv, rfl, .noMemory hm (Or.inl rfl)⟩
    · exact (hi.stepped hv he).effect
        ⟨_, _, contents_eq hv, rfl, .longer (by omega) (by rw [hlen]; exact hl)⟩
    · exact (hi.stepped hv he).effect ⟨_, _, contents_eq hv, rfl, .shorter (by omega)⟩
    · exact (hi.stepped hv he).effect
        ⟨_, _, contents_eq hv, rfl, .noMemory hm (Or.inr ⟨rfl, by omega⟩)⟩
  | sort v ans tempOk cmp =>
    obtain ⟨x, mem', x', res, hv, hP, rfl⟩ := call_returning (fun x hv => sort_spec cmp ans tempOk
      (hi.owns v x hv)) h
    rcases hP with ⟨rfl, ht, he⟩ | ⟨rfl, l, hl, he⟩
    · exact (hi.stepped hv he).effect ⟨_, _, contents_eq hv, rfl, Or.inl ⟨rfl, ht, rfl⟩⟩
    · exact (hi.stepped hv he).effect ⟨_, _, contents_eq hv, rfl, Or.inr ⟨rfl, hl⟩⟩

omit [DecidableEq V] in
theorem Inv.start (hs : Start s) : Inv T s := by
  obtain ⟨hmem, hf, hnone⟩ := hs
  refine ⟨fun v x hv => ?_, fun p st hst => ?_, hf⟩
  · rw [hnone] at hv
    cases hv
  · rw [hmem] at hst
    simp [Store.empty, Store.get] at hst

theorem inv_of_reach (hr : Reach (step T) (allowed T) Start s) : Inv T s :=
  hr.invariant (fun _ => Inv.start) fun _ _ _ _ hi ha hs => (hi.step ha hs).1

instance (s : State V α) (v : V) (index : ℕ) : Decidable (NothingAt T s v index) :=
  inferInstanceAs (Decidable (_ ∨ ∀ x ∈ s.vec v, _))

instance (s : State V α) : (a : Act V α) → Decidable (allowed T s a)
  | .insertArrayAt v _ items index => inferInstanceAs (Decidable (items.length = 0 → NothingAt T s v index))
  | .insertVectorAt v _ w index =>
    inferInstanceAs (Decidable (w ≠ v ∧ ∀ y ∈ s.vec w, y.mCount = 0 → NothingAt T s v index))
  | .insertAt v _ _ index numItems => inferInstanceAs (Decidable (numItems = 0 → NothingAt T s v index))
  | .editItemAt v _ index _ => inferInstanceAs (Decidable (∀ x ∈ s.vec v, index < x.mCount))
  | .removeItemsAt v _ index count =>
    inferInstanceAs (Decidable (index + count < 2 ^ 64 ∧ (count = 0 → NothingAt T s v index)))
  | .new .. | .copy .. | .assign .. | .finish .. | .replaceAt .. | .clear .. | .setCapacity .. | .resize ..
  | .sort .. =>
    inferInstanceAs (Decidable True)

end Steps

/-! ### Inserting nothing -/

section Nothing

variable {α : Type} {T : ItemType α} {mem : Memory α} {x : Impl} {st : Storage α}

/-- An item that is moved to where it is would be constructed over itself. -/
theorem moveOne_self {t : Traits} {cap i : ℕ} {cells : Cells α} (hc : t.ctor = false) (hd : t.dtor = false)
    (hi : i < cap) (ho : t.Object (cells i)) : moveOne t cap cells i i = .error .undefined := by
  have hsome : (cells i).isSome = true := ho.resolve_left (by rw [hc]; simp)
  have hraw : ¬(i < cap ∧ t.Raw (cells i)) := by
    rintro ⟨-, hr | hr⟩
    · rw [hd] at hr
      cases hr
    · rw [Option.isNone_iff_eq_none] at hr
      rw [hr] at hsome
      cases hsome
  unfold moveOne
  rw [fetch_eq hi ho]
  simp only [bind, Except.bind, place, if_neg hraw]

/-- **Inserting no items in the middle** of a vector is undefined where items are moved one by one: each
item behind the place is copied onto itself and destroyed. -/
theorem insert_nothing_undefined (ans : Answers) (hc : T.traits.ctor = false)
    (hd : T.traits.dtor = false) (hm : T.traits.move = false) (hs : Sole mem x st)
    (hg : Good T st x.mCount) (hcount : x.mCount < 2 ^ 64) {index : ℕ} (hi : index < x.mCount) :
    insertArrayAt T ans mem x (.array []) index = .error .undefined := by
  obtain ⟨p, hx, hst, h1⟩ := hs
  have hfits := hg.fits
  have hrel : ¬T.traits.relocates = true := by simp [Traits.relocates, hd, hm]
  have hedit : editArrayImpl T ans.malloc mem x = .ok (mem, x) := by
    simp only [editArrayImpl, hx, deref_eq hst, bind, Except.bind, if_pos h1]
  obtain ⟨n, hn⟩ : ∃ n, x.mCount - index = n + 1 := ⟨x.mCount - index - 1, by omega⟩
  have hmove : moveForwardType T.traits st.capacity st.cells (index + 0) index (x.mCount - index) =
      .error .undefined := by
    unfold moveForwardType
    rw [if_neg hrel, hn, Nat.add_zero, moveForwardLoop,
      moveOne_self hc hd (by omega) (hg.objects _ (by omega))]
    rfl
  have hrewrite : rewrite mem x (fun st =>
      moveForwardType T.traits st.capacity st.cells (index + 0) index (x.mCount - index)) =
        .error .undefined := by
    simp only [rewrite, hx, deref_eq hst, bind, Except.bind, hmove]
  unfold insertArrayAt grow
  simp only [Source.length, List.length_nil, capacity_eq hx hst, hedit, hrewrite, bind, Except.bind]
  rw [if_neg (by omega), if_neg (by omega), if_neg (by omega), if_pos (by omega)]

end Nothing

end Vector

end IntelCamera
