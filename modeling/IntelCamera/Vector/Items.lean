import Mathlib.Logic.Function.Basic
import Mathlib.Tactic.SplitIfs
import Mathlib.Data.Nat.Notation

/-!
# Vector.Items — objects in raw memory (`TypeHelpers.h`)

The storage of a vector is memory for a number of items.  A cell holds an object or is raw; `new`
needs raw memory, and a copy or a destructor needs an object.  A type may be trivial in some of
this: with a trivial constructor any memory is an object, and with a trivial destructor an object may be
overwritten.  Everything else is undefined here, so that what is proved about a vector covers that its
items are constructed and destroyed in pairs.

Every loop of `TypeHelpers.h` has one lemma, which says when it is defined and what it leaves in memory.
-/

namespace IntelCamera

namespace Vector

/-! ### The code -/

/-- How a call can stop: at `LOG_ALWAYS_FATAL_IF`, for a size that is too large or for want of memory; at an
`ALOG_ASSERT` that fails; at an operation that is undefined; or with memory freed that still holds objects. -/
inductive Stop
  | overflow
  | noMemory
  | assertion
  | undefined
  | leak
deriving DecidableEq, Repr

/-- The process ends there. -/
def Stop.ends : Stop → Bool
  | .overflow | .noMemory | .assertion => true
  | .undefined | .leak => false

/-- `traits<TYPE>`: `has_trivial_ctor`, `has_trivial_dtor`, `has_trivial_copy`, `has_trivial_move`. -/
structure Traits where
  ctor : Bool
  dtor : Bool
  copy : Bool
  move : Bool
deriving DecidableEq, Repr

/-- Memory for items: `none` is raw, or holds an indeterminate value. -/
abbrev Cells (α : Type) := ℕ → Option α

section Code

variable {α : Type} (t : Traits)

/-- There is an object in the cell. -/
def Traits.Object (c : Option α) : Prop := t.ctor = true ∨ c.isSome = true

/-- An object may be constructed in the cell. -/
def Traits.Raw (c : Option α) : Prop := t.dtor = true ∨ c.isNone = true

instance (c : Option α) : Decidable (t.Object c) := inferInstanceAs (Decidable (_ ∨ _))
instance (c : Option α) : Decidable (t.Raw c) := inferInstanceAs (Decidable (_ ∨ _))

/-- Items are moved with `memmove`. -/
def Traits.relocates : Bool := (t.dtor && t.copy) || t.move

/-- `new(p) TYPE(x)`. -/
def place (cap : ℕ) (cells : Cells α) (i : ℕ) (c : Option α) : Except Stop (Cells α) :=
  if i < cap ∧ t.Raw (cells i) then .ok (Function.update cells i c) else .error .undefined

/-- `*p`. -/
def fetch (cap : ℕ) (cells : Cells α) (i : ℕ) : Except Stop (Option α) :=
  if i < cap ∧ t.Object (cells i) then .ok (cells i) else .error .undefined

/-- `p->~TYPE()`. -/
def drop (cap : ℕ) (cells : Cells α) (i : ℕ) : Except Stop (Cells α) :=
  if i < cap ∧ t.Object (cells i) then .ok (Function.update cells i none) else .error .undefined

/-- The loops of `construct_type` and `splat_type`. -/
def placeLoop (cap : ℕ) (what : α) : Cells α → ℕ → ℕ → Except Stop (Cells α)
  | cells, _, 0 => .ok cells
  | cells, p, n + 1 => do
    let cells ← place t cap cells p (some what)
    placeLoop cap what cells (p + 1) n

/-- `construct_type`, also as `_do_construct`. -/
def constructType (cap : ℕ) (dflt : α) (cells : Cells α) (p n : ℕ) : Except Stop (Cells α) :=
  if t.ctor then .ok cells else placeLoop t cap dflt cells p n

def destroyLoop (cap : ℕ) : Cells α → ℕ → ℕ → Except Stop (Cells α)
  | cells, _, 0 => .ok cells
  | cells, p, n + 1 => do
    let cells ← drop t cap cells p
    destroyLoop cap cells (p + 1) n

/-- `destroy_type`, also as `_do_destroy`. -/
def destroyType (cap : ℕ) (cells : Cells α) (p n : ℕ) : Except Stop (Cells α) :=
  if t.dtor then .ok cells else destroyLoop t cap cells p n

/-- `cells` with the `n` cells at `p` replaced. -/
def fill (cells : Cells α) (p n : ℕ) (f : ℕ → Option α) : Cells α :=
  fun j => if p ≤ j ∧ j < p + n then f (j - p) else cells j

/-- `memcpy` and `memmove` of items, where no object is overwritten. -/
def blit (dcap : ℕ) (cells : Cells α) (d : ℕ) (scap : ℕ) (src : Cells α) (s n : ℕ) :
    Except Stop (Cells α) :=
  if d + n ≤ dcap ∧ s + n ≤ scap ∧ ∀ k < n, t.Raw (cells (d + k)) then
    .ok (fill cells d n fun k => src (s + k))
  else .error .undefined

def copyLoop (dcap scap : ℕ) (src : Cells α) : Cells α → ℕ → ℕ → ℕ → Except Stop (Cells α)
  | cells, _, _, 0 => .ok cells
  | cells, d, s, n + 1 => do
    let c ← fetch t scap src s
    let cells ← place t dcap cells d c
    copyLoop dcap scap src cells (d + 1) (s + 1) n

/-- `copy_type`, also as `_do_copy`, into other memory than it copies from. -/
def copyType (dcap : ℕ) (cells : Cells α) (d : ℕ) (scap : ℕ) (src : Cells α) (s n : ℕ) :
    Except Stop (Cells α) :=
  if t.copy then blit t dcap cells d scap src s n else copyLoop t dcap scap src cells d s n

/-- `splat_type`; where an assignment stands for the copy, it constructs too. -/
def splatType (cap : ℕ) (what : α) (cells : Cells α) (p n : ℕ) : Except Stop (Cells α) :=
  placeLoop t cap what cells p n

/-- One item of `move_forward_type` and `move_backward_type`: it is copied, and then destroyed. -/
def moveOne (cap : ℕ) (cells : Cells α) (d s : ℕ) : Except Stop (Cells α) := do
  let c ← fetch t cap cells s
  let cells ← place t cap cells d c
  if t.dtor then .ok cells else drop t cap cells s

/-- `memmove` of items: where they have a destructor, they are gone from where they were. -/
def relocate (cap : ℕ) (cells : Cells α) (d s n : ℕ) : Except Stop (Cells α) :=
  blit t cap (if t.dtor then cells else fill cells s n fun _ => none) d cap cells s n

def moveForwardLoop (cap : ℕ) : Cells α → ℕ → ℕ → ℕ → Except Stop (Cells α)
  | cells, _, _, 0 => .ok cells
  | cells, d, s, n + 1 => do
    let cells ← moveOne t cap cells (d + n) (s + n)
    moveForwardLoop cap cells d s n

/-- `move_forward_type`. -/
def moveForwardType (cap : ℕ) (cells : Cells α) (d s n : ℕ) : Except Stop (Cells α) :=
  if t.relocates then relocate t cap cells d s n else moveForwardLoop t cap cells d s n

def moveBackwardLoop (cap : ℕ) : Cells α → ℕ → ℕ → ℕ → Except Stop (Cells α)
  | cells, _, _, 0 => .ok cells
  | cells, d, s, n + 1 => do
    let cells ← moveOne t cap cells d s
    moveBackwardLoop cap cells (d + 1) (s + 1) n

/-- `move_backward_type`. -/
def moveBackwardType (cap : ℕ) (cells : Cells α) (d s n : ℕ) : Except Stop (Cells α) :=
  if t.relocates then relocate t cap cells d s n else moveBackwardLoop t cap cells d s n

end Code

/-! ### What the loops do -/

section Loops

variable {α : Type} {t : Traits} {cap : ℕ} {cells : Cells α}

theorem fill_zero (p : ℕ) (f : ℕ → Option α) : fill cells p 0 f = cells := by
  funext j
  rw [fill, if_neg (by omega)]

/-- The first cell, and then the others. -/
theorem fill_update (p n : ℕ) (f : ℕ → Option α) :
    fill (Function.update cells p (f 0)) (p + 1) n (fun k => f (k + 1)) = fill cells p (n + 1) f := by
  funext j
  unfold fill
  by_cases hj : j = p
  · subst hj
    rw [if_neg (by omega), if_pos (by omega), Function.update_self, Nat.sub_self]
  · by_cases hin : p ≤ j ∧ j < p + (n + 1)
    · have hk : j - (p + 1) + 1 = j - p := by omega
      rw [if_pos (by omega), if_pos hin]
      dsimp only
      rw [hk]
    · rw [if_neg (by omega), if_neg hin, Function.update_of_ne hj]

theorem fill_inside {p n j : ℕ} {f : ℕ → Option α} (h1 : p ≤ j) (h2 : j < p + n) :
    fill cells p n f j = f (j - p) := if_pos ⟨h1, h2⟩

theorem fill_outside {p n j : ℕ} {f : ℕ → Option α} (h : j < p ∨ p + n ≤ j) :
    fill cells p n f j = cells j := if_neg (by omega)

theorem place_eq {i : ℕ} (hi : i < cap) (hr : t.Raw (cells i)) (c : Option α) :
    place t cap cells i c = .ok (Function.update cells i c) := if_pos ⟨hi, hr⟩

theorem fetch_eq {i : ℕ} (hi : i < cap) (ho : t.Object (cells i)) :
    fetch t cap cells i = .ok (cells i) := if_pos ⟨hi, ho⟩

theorem drop_eq {i : ℕ} (hi : i < cap) (ho : t.Object (cells i)) :
    drop t cap cells i = .ok (Function.update cells i none) := if_pos ⟨hi, ho⟩

theorem placeLoop_eq {p n : ℕ} (hn : p + n ≤ cap) (hr : ∀ k < n, t.Raw (cells (p + k))) (what : α) :
    placeLoop t cap what cells p n = .ok (fill cells p n fun _ => some what) := by
  induction n generalizing cells p with
  | zero => rw [placeLoop, fill_zero]
  | succ n ih =>
    have hr0 : t.Raw (cells p) := hr 0 (by omega)
    rw [placeLoop, place_eq (by omega) hr0]
    have hr' : ∀ k < n, t.Raw (Function.update cells p (some what) (p + 1 + k)) := by
      intro k hk
      rw [Function.update_of_ne (by omega), Nat.add_right_comm]
      exact hr (k + 1) (by omega)
    simp only [bind, Except.bind]
    rw [ih (by omega) hr', ← fill_update]

theorem constructType_eq {p n : ℕ} (hn : p + n ≤ cap) (hr : ∀ k < n, t.Raw (cells (p + k))) (dflt : α) :
    constructType t cap dflt cells p n =
      .ok (if t.ctor then cells else fill cells p n fun _ => some dflt) := by
  unfold constructType
  split_ifs with hc
  · rfl
  · exact placeLoop_eq hn hr dflt

theorem splatType_eq {p n : ℕ} (hn : p + n ≤ cap) (hr : ∀ k < n, t.Raw (cells (p + k))) (what : α) :
    splatType t cap what cells p n = .ok (fill cells p n fun _ => some what) := placeLoop_eq hn hr what

theorem destroyLoop_eq {p n : ℕ} (hn : p + n ≤ cap) (ho : ∀ k < n, t.Object (cells (p + k))) :
    destroyLoop t cap cells p n = .ok (fill cells p n fun _ => none) := by
  induction n generalizing cells p with
  | zero => rw [destroyLoop, fill_zero]
  | succ n ih =>
    have ho0 : t.Object (cells p) := ho 0 (by omega)
    rw [destroyLoop, drop_eq (by omega) ho0]
    have ho' : ∀ k < n, t.Object (Function.update cells p none (p + 1 + k)) := by
      intro k hk
      rw [Function.update_of_ne (by omega), Nat.add_right_comm]
      exact ho (k + 1) (by omega)
    simp only [bind, Except.bind]
    rw [ih (by omega) ho', ← fill_update]

theorem destroyType_eq {p n : ℕ} (hn : p + n ≤ cap) (ho : ∀ k < n, t.Object (cells (p + k))) :
    destroyType t cap cells p n = .ok (if t.dtor then cells else fill cells p n fun _ => none) := by
  unfold destroyType
  split_ifs with hd
  · rfl
  · exact destroyLoop_eq hn ho

theorem copyLoop_eq {scap d s n : ℕ} {src : Cells α} (hd : d + n ≤ cap) (hs : s + n ≤ scap)
    (hr : ∀ k < n, t.Raw (cells (d + k))) (ho : ∀ k < n, t.Object (src (s + k))) :
    copyLoop t cap scap src cells d s n = .ok (fill cells d n fun k => src (s + k)) := by
  induction n generalizing cells d s with
  | zero => rw [copyLoop, fill_zero]
  | succ n ih =>
    have hr0 : t.Raw (cells d) := hr 0 (by omega)
    have ho0 : t.Object (src s) := ho 0 (by omega)
    rw [copyLoop, fetch_eq (by omega) ho0]
    simp only [bind, Except.bind]
    rw [place_eq (by omega) hr0]
    have hr' : ∀ k < n, t.Raw (Function.update cells d (src s) (d + 1 + k)) := by
      intro k hk
      rw [Function.update_of_ne (by omega), Nat.add_right_comm]
      exact hr (k + 1) (by omega)
    have ho' : ∀ k < n, t.Object (src (s + 1 + k)) := by
      intro k hk
      rw [Nat.add_right_comm]
      exact ho (k + 1) (by omega)
    simp only
    rw [ih (by omega) (by omega) hr' ho', ← fill_update]
    congr 2
    funext k
    rw [Nat.add_right_comm, Nat.add_assoc]

theorem copyType_eq {scap d s n : ℕ} {src : Cells α} (hd : d + n ≤ cap) (hs : s + n ≤ scap)
    (hr : ∀ k < n, t.Raw (cells (d + k))) (ho : ∀ k < n, t.Object (src (s + k))) :
    copyType t cap cells d scap src s n = .ok (fill cells d n fun k => src (s + k)) := by
  unfold copyType
  split_ifs with hc
  · exact if_pos ⟨hd, hs, hr⟩
  · exact copyLoop_eq hd hs hr ho

/-! ### Moves -/

/-- What a move of `n` items from `s` to `d` leaves. -/
def moved (t : Traits) (cells : Cells α) (d s n : ℕ) : Cells α :=
  fill (if t.dtor then cells else fill cells s n fun _ => none) d n fun k => cells (s + k)

theorem moved_inside {d s n j : ℕ} (h1 : d ≤ j) (h2 : j < d + n) :
    moved t cells d s n j = cells (s + (j - d)) := fill_inside h1 h2

theorem moved_outside {d s n j : ℕ} (hd : j < d ∨ d + n ≤ j) (hs : j < s ∨ s + n ≤ j) :
    moved t cells d s n j = cells j := by
  rw [moved, fill_outside hd]
  split_ifs
  · rfl
  · exact fill_outside hs

theorem moved_source {d s n j : ℕ} (hd : j < d ∨ d + n ≤ j) (h1 : s ≤ j) (h2 : j < s + n) :
    moved t cells d s n j = if t.dtor then cells j else none := by
  rw [moved, fill_outside hd]
  split_ifs
  · rfl
  · exact fill_inside h1 h2

theorem moved_zero (d s : ℕ) : moved t cells d s 0 = cells := by
  unfold moved
  rw [fill_zero, fill_zero, ite_self]

theorem moveOne_eq {d s : ℕ} (hd : d < cap) (hs : s < cap) (hne : d ≠ s) (ho : t.Object (cells s))
    (hr : t.Raw (cells d)) : moveOne t cap cells d s = .ok (moved t cells d s 1) := by
  unfold moveOne
  rw [fetch_eq hs ho]
  simp only [bind, Except.bind]
  rw [place_eq hd hr]
  have hstay : t.Object (Function.update cells d (cells s) s) := by
    rw [Function.update_of_ne hne.symm]
    exact ho
  have hmoved : moved t cells d s 1 = if t.dtor then Function.update cells d (cells s)
      else Function.update (Function.update cells d (cells s)) s none := by
    funext j
    by_cases hjd : j = d
    · subst hjd
      rw [moved_inside (Nat.le_refl _) (by omega), Nat.sub_self]
      split_ifs
      · rw [Function.update_self]
        rfl
      · rw [Function.update_of_ne hne, Function.update_self]
        rfl
    · by_cases hjs : j = s
      · subst hjs
        rw [moved_source (by omega) (Nat.le_refl _) (by omega)]
        split_ifs
        · rw [Function.update_of_ne hjd]
        · rw [Function.update_self]
      · rw [moved_outside (by omega) (by omega)]
        split_ifs
        · rw [Function.update_of_ne hjd]
        · rw [Function.update_of_ne hjs, Function.update_of_ne hjd]
  simp only
  rw [hmoved]
  split_ifs
  · rfl
  · exact drop_eq hs hstay

/-- A cell that was moved away from is raw. -/
theorem raw_moved_source {d s n j : ℕ} (hd : j < d ∨ d + n ≤ j) (h1 : s ≤ j) (h2 : j < s + n) :
    t.Raw (moved t cells d s n j) := by
  rw [moved_source hd h1 h2]
  split_ifs with ht
  · exact Or.inl ht
  · exact Or.inr rfl

theorem moveForwardLoop_eq {d s n : ℕ} (hlt : s < d) (hn : d + n ≤ cap)
    (ho : ∀ k < n, t.Object (cells (s + k))) (hr : ∀ j, d ≤ j → s + n ≤ j → j < d + n → t.Raw (cells j)) :
    moveForwardLoop t cap cells d s n = .ok (moved t cells d s n) := by
  induction n generalizing cells with
  | zero => rw [moveForwardLoop, moved_zero]
  | succ n ih =>
    -- the last item first: it makes room for the ones before it
    rw [moveForwardLoop, moveOne_eq (by omega) (by omega) (by omega) (ho n (by omega))
      (hr (d + n) (by omega) (by omega) (by omega))]
    simp only [bind, Except.bind]
    rw [ih (by omega)]
    · congr 1
      funext j
      by_cases hd : d ≤ j ∧ j < d + (n + 1)
      · rw [moved_inside hd.1 hd.2]
        by_cases hlast : j = d + n
        · subst hlast
          rw [moved_outside (by omega) (by omega), moved_inside (Nat.le_refl _) (by omega)]
          congr 1
          omega
        · rw [moved_inside hd.1 (by omega), moved_outside (by omega) (by omega)]
      · by_cases hs : s ≤ j ∧ j < s + (n + 1)
        · rw [moved_source (by omega) hs.1 hs.2]
          by_cases hlast : j = s + n
          · subst hlast
            rw [moved_outside (by omega) (by omega), moved_source (by omega) (Nat.le_refl _) (by omega)]
          · rw [moved_source (by omega) hs.1 (by omega), moved_outside (by omega) (by omega)]
        · rw [moved_outside (by omega) (by omega), moved_outside (by omega) (by omega),
            moved_outside (by omega) (by omega)]
    · intro k hk
      rw [moved_outside (by omega) (by omega)]
      exact ho k (by omega)
    · intro j h1 h2 h3
      by_cases hj : j = s + n
      · subst hj
        exact raw_moved_source (by omega) (Nat.le_refl _) (by omega)
      · rw [moved_outside (by omega) (by omega)]
        exact hr j h1 (by omega) (by omega)

theorem moveBackwardLoop_eq {d s n : ℕ} (hlt : d < s) (hn : s + n ≤ cap)
    (ho : ∀ k < n, t.Object (cells (s + k))) (hr : ∀ j, d ≤ j → j < s → j < d + n → t.Raw (cells j)) :
    moveBackwardLoop t cap cells d s n = .ok (moved t cells d s n) := by
  induction n generalizing cells d s with
  | zero => rw [moveBackwardLoop, moved_zero]
  | succ n ih =>
    have ho0 : t.Object (cells s) := ho 0 (by omega)
    rw [moveBackwardLoop, moveOne_eq (by omega) (by omega) (by omega) ho0
      (hr d (by omega) (by omega) (by omega))]
    simp only [bind, Except.bind]
    rw [ih (by omega) (by omega)]
    · congr 1
      funext j
      by_cases hd : d ≤ j ∧ j < d + (n + 1)
      · rw [moved_inside hd.1 hd.2]
        by_cases hfirst : j = d
        · subst hfirst
          rw [moved_outside (by omega) (by omega), moved_inside (Nat.le_refl _) (by omega)]
        · have hk : s + 1 + (j - (d + 1)) = s + (j - d) := by omega
          rw [moved_inside (by omega) (by omega), moved_outside (by omega) (by omega), hk]
      · by_cases hs : s ≤ j ∧ j < s + (n + 1)
        · rw [moved_source (by omega) hs.1 hs.2]
          by_cases hfirst : j = s
          · subst hfirst
            rw [moved_outside (by omega) (by omega), moved_source (by omega) (Nat.le_refl _) (by omega)]
          · rw [moved_source (by omega) (by omega) (by omega), moved_outside (by omega) (by omega)]
        · rw [moved_outside (by omega) (by omega), moved_outside (by omega) (by omega),
            moved_outside (by omega) (by omega)]
    · intro k hk
      rw [moved_outside (by omega) (by omega), Nat.add_right_comm]
      exact ho (k + 1) (by omega)
    · intro j h1 h2 h3
      by_cases hj : j = s
      · subst hj
        exact raw_moved_source (by omega) (Nat.le_refl _) (by omega)
      · rw [moved_outside (by omega) (by omega)]
        exact hr j (by omega) (by omega) (by omega)

theorem relocate_eq {d s n : ℕ} (hd : d + n ≤ cap) (hs : s + n ≤ cap)
    (hr : ∀ j, d ≤ j → j < d + n → (j < s ∨ s + n ≤ j) → t.Raw (cells j)) :
    relocate t cap cells d s n = .ok (moved t cells d s n) := by
  refine if_pos ⟨hd, hs, ?_⟩
  intro k hk
  split_ifs with ht
  · exact Or.inl ht
  · by_cases hin : s ≤ d + k ∧ d + k < s + n
    · rw [fill_inside hin.1 hin.2]
      exact Or.inr rfl
    · rw [fill_outside (by omega)]
      exact hr (d + k) (by omega) (by omega) (by omega)

/-- `move_forward_type` is defined if the items move, or are moved with `memmove`. -/
theorem moveForwardType_eq {d s n : ℕ} (hlt : s < d ∨ (s = d ∧ t.relocates = true)) (hn : d + n ≤ cap)
    (ho : ∀ k < n, t.Object (cells (s + k))) (hr : ∀ j, d ≤ j → s + n ≤ j → j < d + n → t.Raw (cells j)) :
    moveForwardType t cap cells d s n = .ok (moved t cells d s n) := by
  unfold moveForwardType
  split_ifs with ht
  · exact relocate_eq hn (by omega) fun j h1 h2 h3 => hr j h1 (by omega) h2
  · exact moveForwardLoop_eq (hlt.resolve_right fun h => ht h.2) hn ho hr

theorem moveBackwardType_eq {d s n : ℕ} (hlt : d < s ∨ (d = s ∧ t.relocates = true)) (hn : s + n ≤ cap)
    (ho : ∀ k < n, t.Object (cells (s + k))) (hr : ∀ j, d ≤ j → j < s → j < d + n → t.Raw (cells j)) :
    moveBackwardType t cap cells d s n = .ok (moved t cells d s n) := by
  unfold moveBackwardType
  split_ifs with ht
  · exact relocate_eq (by omega) hn fun j h1 h2 h3 => hr j h1 (by omega) h2
  · exact moveBackwardLoop_eq (hlt.resolve_right fun h => ht h.2) hn ho hr

end Loops

end Vector

end IntelCamera
