import IntelCamera.Gralloc.GraphicBuffer

/-!
# Gralloc.Ownership — who frees the handle of a `GraphicBuffer`

A buffer made by the allocator frees its handle through the allocator (`ownData`), one that was read
or that took over a handle closes and deletes it (`ownHandle`), and one that borrows leaves it alone
(`ownNone`).  The runs here make, reallocate, read and destroy any number of buffers, in any order and
with any answer of the device and of `malloc`; a client makes handles of its own, lends them and gives
them away.

No handle is ever freed twice.  A handle is lost in two branches of `unflatten` only, which forget a
handle instead of freeing it: where the numbers that were read are too large, and where the new handle
cannot be registered.
-/

namespace IntelCamera

open Lib

namespace Gralloc

variable (sys : System)

/-! ### The code -/

/-- What the allocator answers: an error, or a handle and the stride. -/
abbrev AllocOutcome := Except Int32 (NativeHandle × UInt32)

/-- `initSize`. -/
def initSize (w : Handles) (g : GraphicBuffer) (inWidth inHeight : UInt32) (inFormat : Int32)
    (inUsage : UInt32) : AllocOutcome → Int32 × Handles × GraphicBuffer
  | .error err => (err, w, g)
  | .ok (h, outStride) =>
    (0, { w with store := w.store.alloc h }, { g with
      width := inWidth.toInt32
      height := inHeight.toInt32
      format := inFormat
      usage := inUsage.toInt32
      stride := outStride.toInt32
      handle := some w.store.next })

/-- `if (handle) allocator.free(handle)`. -/
def Handles.allocatorFreeIf (w : Handles) : Option ℕ → Handles
  | some p => w.allocatorFree p
  | none => w

/-- `reallocate`. -/
def reallocate (w : Handles) (g : GraphicBuffer) (inWidth inHeight : UInt32) (inFormat : Int32)
    (inUsage : UInt32) (outcome : AllocOutcome) : Int32 × Handles × GraphicBuffer :=
  if g.owner ≠ .ownData then (-38, w, g) else
  if g.handle.isSome ∧ inWidth.toInt32 = g.width ∧ inHeight.toInt32 = g.height ∧
      inFormat = g.format ∧ inUsage.toInt32 = g.usage then (0, w, g) else
  let w := w.allocatorFreeIf g.handle
  initSize w { g with handle := none } inWidth inHeight inFormat inUsage outcome

/-- `GraphicBuffer()`.  `mGenerationNumber` is not set by the constructors. -/
def GraphicBuffer.new (id : UInt64) (generationNumber : UInt32) : GraphicBuffer :=
  ⟨.ownData, 0, 0, 0, 0, 0, id, generationNumber, none⟩

/-- The constructor from a handle. -/
def GraphicBuffer.ofHandle (id : UInt64) (generationNumber : UInt32) (inWidth inHeight : UInt32)
    (inFormat : Int32) (inUsage inStride : UInt32) (inHandle : ℕ) (keepOwnership : Bool) :
    GraphicBuffer :=
  ⟨if keepOwnership then .ownHandle else .ownNone, inWidth.toInt32, inHeight.toInt32,
    inStride.toInt32, inFormat, inUsage.toInt32, id, generationNumber, some inHandle⟩

/-- `ANativeWindowBuffer`, the base of `GraphicBuffer`, with the fields that are read. -/
structure WindowBuffer where
  width : Int32
  height : Int32
  stride : Int32
  format : Int32
  usage : Int32
  handle : Option ℕ

/-- The constructor from a window buffer. -/
def GraphicBuffer.ofBuffer (id : UInt64) (generationNumber : UInt32) (buffer : WindowBuffer)
    (keepOwnership : Bool) : GraphicBuffer :=
  ⟨if keepOwnership then .ownHandle else .ownNone, buffer.width, buffer.height, buffer.stride,
    buffer.format, buffer.usage, id, generationNumber, buffer.handle⟩

/-! ### Runs -/

/-- The handles, the buffers, the handles of the client, and those that were forgotten. -/
structure Owners where
  handles : Handles
  objects : Store GraphicBuffer
  client : List ℕ
  lost : List ℕ

/-- The steps. -/
inductive OwnerAct
  | new (id : UInt64) (generationNumber : UInt32)
  | newSize (id : UInt64) (generationNumber : UInt32) (inWidth inHeight : UInt32) (inFormat : Int32)
      (inUsage : UInt32) (outcome : AllocOutcome)
  | ofHandle (id : UInt64) (generationNumber : UInt32) (inWidth inHeight : UInt32) (inFormat : Int32)
      (inUsage inStride : UInt32) (inHandle : ℕ) (keepOwnership : Bool)
  | ofBuffer (id : UInt64) (generationNumber : UInt32) (buffer : WindowBuffer) (keepOwnership : Bool)
  | reallocate (o : ℕ) (inWidth inHeight : UInt32) (inFormat : Int32) (inUsage : UInt32)
      (outcome : AllocOutcome)
  | unflatten (o : ℕ) (mallocOk : Bool) (inp : In)
  | destroy (o : ℕ)
  | clientCreate (h : NativeHandle)
  | clientDelete (p : ℕ)

/-- The handle that a buffer has to free. -/
def GraphicBuffer.owned (g : GraphicBuffer) : Option ℕ :=
  match g.owner with
  | .ownNone => none
  | _ => g.handle

/-- The numbers that `unflatten` reads are too large. -/
def TooLarge (inp : In) : Prop :=
  44 ≤ inp.size ∧ inp.buffer.getD 0 0 = gbfr ∧
    (4096 ≤ (sizeT (inp.buffer.getD 9 0)).toNat ∨ 4096 - 11 ≤ (sizeT (inp.buffer.getD 10 0)).toNat)

/-- `unflatten` makes a handle that cannot be registered. -/
def Unregistered (mallocOk : Bool) (inp : In) : Prop :=
  let numFds := (sizeT (inp.buffer.getD 9 0)).toNat
  let numInts := (sizeT (inp.buffer.getD 10 0)).toNat
  44 ≤ inp.size ∧ inp.buffer.getD 0 0 = gbfr ∧ numFds < 4096 ∧ numInts < 4096 - 11 ∧
    (11 + numInts) * 4 ≤ inp.size ∧ numFds ≤ inp.count ∧ ¬(numFds = 0 ∧ numInts = 0) ∧
    nativeHandleCreate mallocOk numFds numInts ∧
    (registerBuffer sys ⟨inp.fds.take numFds, slice inp.buffer 11 numInts⟩).1 ≠ 0

instance (inp : In) : Decidable (TooLarge inp) := inferInstanceAs (Decidable (_ ∧ _ ∧ _))

instance (mallocOk : Bool) (inp : In) : Decidable (Unregistered sys mallocOk inp) :=
  inferInstanceAs (Decidable (_ ∧ _ ∧ _ ∧ _ ∧ _ ∧ _ ∧ _ ∧ _ ∧ _))

/-- What `unflatten` forgets: the handle it had, or the new one. -/
def forgotten (mallocOk : Bool) (w : Handles) (g : GraphicBuffer) (inp : In) : List ℕ :=
  if TooLarge inp then g.owned.toList
  else if Unregistered sys mallocOk inp then [w.store.next] else []

/-- One step. -/
def ownerStep (s : Owners) : OwnerAct → Option Owners
  | .new id gen => some { s with objects := s.objects.alloc (.new id gen) }
  | .newSize id gen inWidth inHeight inFormat inUsage outcome =>
    let r := initSize s.handles (.new id gen) inWidth inHeight inFormat inUsage outcome
    some { s with handles := r.2.1, objects := s.objects.alloc r.2.2 }
  | .ofHandle id gen inWidth inHeight inFormat inUsage inStride inHandle keepOwnership =>
    some { s with
      objects := s.objects.alloc (.ofHandle id gen inWidth inHeight inFormat inUsage inStride inHandle
        keepOwnership)
      client := if keepOwnership then s.client.erase inHandle else s.client }
  | .ofBuffer id gen buffer keepOwnership =>
    some { s with
      objects := s.objects.alloc (.ofBuffer id gen buffer keepOwnership)
      client := if keepOwnership then s.client.filter fun p => buffer.handle ≠ some p else s.client }
  | .reallocate o inWidth inHeight inFormat inUsage outcome =>
    (s.objects.get o).map fun g =>
      let r := reallocate s.handles g inWidth inHeight inFormat inUsage outcome
      { s with handles := r.2.1, objects := s.objects.set o r.2.2 }
  | .unflatten o mallocOk inp =>
    (s.objects.get o).map fun g =>
      let r := unflatten sys mallocOk s.handles g inp
      { s with
        handles := r.2.1
        objects := s.objects.set o r.2.2.1
        lost := forgotten sys mallocOk s.handles g inp ++ s.lost }
  | .destroy o =>
    (s.objects.get o).map fun g =>
      { s with handles := freeHandle s.handles g, objects := s.objects.free o }
  | .clientCreate h =>
    some { s with
      handles := { s.handles with store := s.handles.store.alloc h }
      client := s.handles.store.next :: s.client }
  | .clientDelete p =>
    some { s with handles := s.handles.delete p, client := s.client.erase p }

/-- The allocator returns handles of its own, and the client uses its own: what a buffer is to take over
belongs to the client, also inside a window buffer. -/
def ownerAllowed (s : Owners) : OwnerAct → Prop
  | .newSize _ _ _ _ _ _ (.ok (h, _)) => h.validate
  | .ofHandle _ _ _ _ _ _ _ inHandle _ => inHandle ∈ s.client
  | .ofBuffer _ _ buffer keepOwnership => keepOwnership = true → ∀ p ∈ buffer.handle, p ∈ s.client
  | .reallocate _ _ _ _ _ (.ok (h, _)) => h.validate
  | .clientDelete p => p ∈ s.client
  | _ => True

instance (s : Owners) : (a : OwnerAct) → Decidable (ownerAllowed s a)
  | .new _ _ => inferInstanceAs (Decidable True)
  | .newSize _ _ _ _ _ _ (.ok (h, _)) => inferInstanceAs (Decidable (h.validate = true))
  | .newSize _ _ _ _ _ _ (.error _) => inferInstanceAs (Decidable True)
  | .ofHandle _ _ _ _ _ _ _ inHandle _ => inferInstanceAs (Decidable (inHandle ∈ s.client))
  | .ofBuffer _ _ _ _ => inferInstanceAs (Decidable (_ → _))
  | .reallocate _ _ _ _ _ (.ok (h, _)) => inferInstanceAs (Decidable (h.validate = true))
  | .reallocate _ _ _ _ _ (.error _) => inferInstanceAs (Decidable True)
  | .unflatten _ _ _ => inferInstanceAs (Decidable True)
  | .destroy _ => inferInstanceAs (Decidable True)
  | .clientCreate _ => inferInstanceAs (Decidable True)
  | .clientDelete p => inferInstanceAs (Decidable (p ∈ s.client))

/-- Nothing was made yet. -/
def OwnerStart (s : Owners) : Prop := s = ⟨⟨.empty, 0⟩, .empty, [], []⟩

/-! ### What `unflatten` does with the handles -/

section Outcomes

variable {sys} {mallocOk : Bool} {w : Handles} {g : GraphicBuffer} {inp : In}

/-- The ways `unflatten` can end, as far as handles go. -/
inductive Outcome (sys : System) (mallocOk : Bool) (w : Handles) (g : GraphicBuffer) (inp : In) :
    Handles → GraphicBuffer → Prop
  | refused (hl : ¬TooLarge inp) (hu : ¬Unregistered sys mallocOk inp) : Outcome sys mallocOk w g inp w g
  | tooLarge (hl : TooLarge inp) : Outcome sys mallocOk w g inp w g.reset
  | emptied (hl : ¬TooLarge inp) (hu : ¬Unregistered sys mallocOk inp) {g' : GraphicBuffer}
      (hg : g'.handle = none) : Outcome sys mallocOk w g inp (freeHandle w g) g'
  | unregistered (hl : ¬TooLarge inp) (hu : Unregistered sys mallocOk inp) (h : NativeHandle)
      {g' : GraphicBuffer} (hg : g'.handle = none) :
      Outcome sys mallocOk w g inp
        { freeHandle w g with store := (freeHandle w g).store.alloc h } g'
  | registered (hl : ¬TooLarge inp) (hu : ¬Unregistered sys mallocOk inp) (h : NativeHandle)
      {g' : GraphicBuffer} (hg : g'.handle = some (freeHandle w g).store.next)
      (ho : g'.owner = .ownHandle) :
      Outcome sys mallocOk w g inp
        { freeHandle w g with store := (freeHandle w g).store.alloc h } g'

theorem outcome_unflatten (sys : System) (mallocOk : Bool) (w : Handles) (g : GraphicBuffer) (inp : In) :
    Outcome sys mallocOk w g inp (unflatten sys mallocOk w g inp).2.1
      (unflatten sys mallocOk w g inp).2.2.1 := by
  simp only [unflatten]
  split
  case isTrue h0 => exact .refused (fun h => by have := h.1; omega) (fun h => by have := h.1; omega)
  case isFalse h0 =>
  split
  case isTrue h1 => exact .refused (fun h => h1 h.2.1) (fun h => h1 h.2.1)
  case isFalse h1 =>
  split
  case isTrue h2 => exact .tooLarge ⟨Nat.not_lt.mp h0, not_not.mp h1, h2⟩
  case isFalse h2 =>
  have hl : ¬TooLarge inp := fun h => h2 h.2.2
  split
  case isTrue h3 => exact .refused hl (fun h => by have := h.2.2.2.2.1; omega)
  case isFalse h3 =>
  split
  case isTrue h4 => exact .refused hl (fun h => by have := h.2.2.2.2.2.1; omega)
  case isFalse h4 =>
  split
  case isTrue h5 => exact .emptied hl (fun h => h.2.2.2.2.2.2.1 h5) rfl
  case isFalse h5 =>
  split
  case isTrue h6 =>
    exact .emptied hl (fun h => by have := h.2.2.2.2.2.2.2.1; simp_all) rfl
  case isFalse h6 =>
  split
  case isTrue h7 =>
    refine .unregistered hl ⟨Nat.not_lt.mp h0, not_not.mp h1, by omega, by omega, Nat.not_lt.mp h3,
      Nat.not_lt.mp h4, h5, by simpa using h6, h7⟩ _ rfl
  case isFalse h7 => exact .registered hl (fun h => h7 h.2.2.2.2.2.2.2.2) _ rfl rfl

end Outcomes

/-! ### The invariant -/

/-- Every handle in memory has exactly one owner, or was lost. -/
structure OwnInv (s : Owners) : Prop where
  live : ∀ o g p, s.objects.get o = some g → g.owned = some p →
    ∃ h, s.handles.store.get p = some h ∧ (g.owner = .ownData → h.validate)
  unique : ∀ o o' g g' p, s.objects.get o = some g → s.objects.get o' = some g' →
    g.owned = some p → g'.owned = some p → o = o'
  client : ∀ p ∈ s.client, ∃ h, s.handles.store.get p = some h
  apart : ∀ o g p, s.objects.get o = some g → g.owned = some p → p ∉ s.client
  nodup : s.client.Nodup
  accounted : ∀ p h, s.handles.store.get p = some h →
    (∃ o g, s.objects.get o = some g ∧ g.owned = some p) ∨ p ∈ s.client ∨ p ∈ s.lost
  lost : ∀ p ∈ s.lost, (∃ h, s.handles.store.get p = some h) ∧ p ∉ s.client ∧
    ∀ o g, s.objects.get o = some g → g.owned ≠ some p
  faults : s.handles.faults = 0

section Primitives

variable {s : Owners} {g g' : GraphicBuffer} {o p : ℕ} {h : NativeHandle} {w : Handles}

theorem delete_live (hp : w.store.get p = some h) : w.delete p = { w with store := w.store.free p } := by
  simp only [Handles.delete, hp]

theorem freeHandle_owned (hg : g.owned = some p) (hp : w.store.get p = some h)
    (hv : g.owner = .ownData → h.validate) :
    freeHandle w g = { w with store := w.store.free p } := by
  obtain ⟨owner, _, _, _, _, _, _, _, handle⟩ := g
  cases owner with
  | ownNone => cases hg
  | ownHandle =>
    obtain rfl : handle = some p := hg
    exact delete_live hp
  | ownData =>
    obtain rfl : handle = some p := hg
    simp only [freeHandle, Handles.allocatorFree, hp, if_pos (hv rfl)]
    exact delete_live hp

theorem freeHandle_not_owned (hg : g.owned = none) : freeHandle w g = w := by
  obtain ⟨owner, _, _, _, _, _, _, _, handle⟩ := g
  cases owner with
  | ownNone =>
    cases handle
    · rfl
    · rfl
  | ownHandle =>
    obtain rfl : handle = none := hg
    rfl
  | ownData =>
    obtain rfl : handle = none := hg
    rfl

/-- Objects that do not own the same handle are not the same. -/
theorem ne_of_owned {objects : Store GraphicBuffer} {q : ℕ} {k : GraphicBuffer}
    (hg : objects.get o = some g) (hk : objects.get q = some k) (hkp : k.owned = some p)
    (hne : g.owned ≠ some p) : q ≠ o := by
  rintro rfl
  rw [hg] at hk
  cases hk
  exact hne hkp

/-- An object that goes away, or gets another value, after its handle was freed. -/
theorem OwnInv.release (hi : OwnInv s) (hg : s.objects.get o = some g) {objects : Store GraphicBuffer}
    (hne : ∀ q, q ≠ o → objects.get q = s.objects.get q)
    (ho : ∀ g', objects.get o = some g' → g'.owned = none) :
    OwnInv { s with handles := freeHandle s.handles g, objects := objects } := by
  -- an object that owns a handle is another one, and was there before
  have hother : ∀ q k p, objects.get q = some k → k.owned = some p → q ≠ o ∧ s.objects.get q = some k := by
    intro q k p hk hp
    have hq : q ≠ o := by
      rintro rfl
      rw [ho k hk] at hp
      cases hp
    exact ⟨hq, hne q hq ▸ hk⟩
  cases hown : g.owned with
  | none =>
    rw [freeHandle_not_owned hown]
    refine ⟨fun q k p hk hp => ?_, fun q q' k k' p hk hk' hp hp' => ?_, hi.client,
      fun q k p hk hp => ?_, hi.nodup, fun p h hp => ?_, fun p hp => ?_, hi.faults⟩
    · exact hi.live q k p (hother q k p hk hp).2 hp
    · exact hi.unique q q' k k' p (hother q k p hk hp).2 (hother q' k' p hk' hp').2 hp hp'
    · exact hi.apart q k p (hother q k p hk hp).2 hp
    · rcases hi.accounted p h hp with ⟨q, k, hk, hkp⟩ | hrest
      · have hq : q ≠ o := ne_of_owned hg hk hkp (by rw [hown]; exact nofun)
        exact .inl ⟨q, k, (hne q hq).trans hk, hkp⟩
      · exact .inr hrest
    · obtain ⟨hlive, hc, hno⟩ := hi.lost p hp
      exact ⟨hlive, hc, fun q k hk hkp => hno q k (hother q k p hk hkp).2 hkp⟩
  | some p =>
    obtain ⟨h, hp, hv⟩ := hi.live o g p hg hown
    rw [freeHandle_owned hown hp hv]
    refine ⟨fun q k p' hk hp' => ?_, fun q q' k k' p hk hk' hp hp' => ?_, fun p' hp' => ?_,
      fun q k p hk hp => ?_, hi.nodup, fun p' h' hp' => ?_, fun p' hp' => ?_, hi.faults⟩
    · obtain ⟨hq, hk₀⟩ := hother q k p' hk hp'
      have hne' : p' ≠ p := by
        rintro rfl
        exact hq (hi.unique q o k g p' hk₀ hg hp' hown)
      dsimp only
      rw [Store.get_free_ne hne']
      exact hi.live q k p' hk₀ hp'
    · exact hi.unique q q' k k' p (hother q k p hk hp).2 (hother q' k' p hk' hp').2 hp hp'
    · have hne' : p' ≠ p := by
        rintro rfl
        exact hi.apart o g p' hg hown hp'
      dsimp only
      rw [Store.get_free_ne hne']
      exact hi.client p' hp'
    · exact hi.apart q k p (hother q k p hk hp).2 hp
    · have hne' : p' ≠ p := by
        rintro rfl
        dsimp only at hp'
        rw [Store.get_free] at hp'
        cases hp'
      dsimp only at hp'
      rw [Store.get_free_ne hne'] at hp'
      rcases hi.accounted p' h' hp' with ⟨q, k, hk, hkp⟩ | hrest
      · have hq : q ≠ o := ne_of_owned hg hk hkp fun heq => hne' (Option.some.inj (hown.symm.trans heq)).symm
        exact .inl ⟨q, k, (hne q hq).trans hk, hkp⟩
      · exact .inr hrest
    · obtain ⟨hlive, hc, hno⟩ := hi.lost p' hp'
      have hne' : p' ≠ p := by
        rintro rfl
        exact hno o g hg hown
      dsimp only
      rw [Store.get_free_ne hne']
      exact ⟨hlive, hc, fun q k hk hkp => hno q k (hother q k p' hk hkp).2 hkp⟩

/-- A buffer without a handle of its own gets a new one. -/
theorem OwnInv.acquire (hi : OwnInv s) (hg : s.objects.get o = some g) (hown : g.owned = none)
    (hg' : g'.owned = some s.handles.store.next) (hv : g'.owner = .ownData → h.validate) :
    OwnInv { s with
      handles := { s.handles with store := s.handles.store.alloc h }
      objects := s.objects.set o g' } := by
  have ho : o < s.objects.next := Store.lt_next hg
  -- the owner of an old handle is another object
  have hold : ∀ q k p, (s.objects.set o g').get q = some k → k.owned = some p →
      q = o ∧ k = g' ∧ p = s.handles.store.next ∨
        q ≠ o ∧ s.objects.get q = some k ∧ p < s.handles.store.next := by
    intro q k p hk hp
    rcases eq_or_ne q o with rfl | hq
    · rw [Store.get_set ho] at hk
      cases hk
      rw [hg'] at hp
      cases hp
      exact .inl ⟨rfl, rfl, rfl⟩
    · rw [Store.get_set_ne hq] at hk
      obtain ⟨h, hph, -⟩ := hi.live q k p hk hp
      exact .inr ⟨hq, hk, Store.lt_next hph⟩
  refine ⟨fun q k p hk hp => ?_, fun q q' k k' p hk hk' hp hp' => ?_, fun p hp => ?_,
    fun q k p hk hp => ?_, hi.nodup, fun p h' hp => ?_, fun p hp => ?_, hi.faults⟩
  · dsimp only
    rcases hold q k p hk hp with ⟨rfl, rfl, rfl⟩ | ⟨hq, hk, hlt⟩
    · exact ⟨h, Store.get_alloc_next, hv⟩
    · rw [Store.get_alloc_lt hlt]
      exact hi.live q k p hk hp
  · rcases hold q k p hk hp with ⟨rfl, rfl, rfl⟩ | ⟨hq, hk, hlt⟩
    · rcases hold q' k' _ hk' hp' with ⟨rfl, -, -⟩ | ⟨-, -, hlt⟩
      · rfl
      · omega
    · rcases hold q' k' _ hk' hp' with ⟨-, -, rfl⟩ | ⟨hq', hk', -⟩
      · omega
      · exact hi.unique q q' k k' p hk hk' hp hp'
  · obtain ⟨h, hph⟩ := hi.client p hp
    exact ⟨h, (Store.get_alloc_lt (Store.lt_next hph)).trans hph⟩
  · rcases hold q k p hk hp with ⟨rfl, rfl, rfl⟩ | ⟨hq, hk, -⟩
    · intro hmem
      obtain ⟨h, hph⟩ := hi.client _ hmem
      exact absurd (Store.lt_next hph) (Nat.lt_irrefl _)
    · exact hi.apart q k p hk hp
  · dsimp only at hp
    rcases eq_or_ne p s.handles.store.next with rfl | hne
    · exact .inl ⟨o, g', Store.get_set ho, hg'⟩
    · rw [Store.get_alloc_ne hne] at hp
      rcases hi.accounted p h' hp with ⟨q, k, hk, hkp⟩ | hrest
      · have hq : q ≠ o := ne_of_owned hg hk hkp (by rw [hown]; exact nofun)
        exact .inl ⟨q, k, (Store.get_set_ne hq).trans hk, hkp⟩
      · exact .inr hrest
  · obtain ⟨⟨h', hph⟩, hc, hno⟩ := hi.lost p hp
    have hlt := Store.lt_next hph
    refine ⟨⟨h', (Store.get_alloc_lt hlt).trans hph⟩, hc, fun q k hk hkp => ?_⟩
    rcases hold q k p hk hkp with ⟨-, -, rfl⟩ | ⟨-, hk, -⟩
    · exact Nat.lt_irrefl _ hlt
    · exact hno q k hk hkp

/-- A new buffer that owns nothing. -/
theorem OwnInv.born (hi : OwnInv s) (hg : g.owned = none) :
    OwnInv { s with objects := s.objects.alloc g } := by
  have hold : ∀ q k p, (s.objects.alloc g).get q = some k → k.owned = some p →
      s.objects.get q = some k := by
    intro q k p hk hp
    rcases eq_or_ne q s.objects.next with rfl | hq
    · rw [Store.get_alloc_next] at hk
      cases hk
      rw [hg] at hp
      cases hp
    · rwa [Store.get_alloc_ne hq] at hk
  refine ⟨fun q k p hk hp => ?_, fun q q' k k' p hk hk' hp hp' => ?_, hi.client,
    fun q k p hk hp => ?_, hi.nodup, fun p h hp => ?_, fun p hp => ?_, hi.faults⟩
  · exact hi.live q k p (hold q k p hk hp) hp
  · exact hi.unique q q' k k' p (hold q k p hk hp) (hold q' k' p hk' hp') hp hp'
  · exact hi.apart q k p (hold q k p hk hp) hp
  · rcases hi.accounted p h hp with ⟨q, k, hk, hkp⟩ | hrest
    · exact .inl ⟨q, k, (Store.get_alloc_lt (Store.lt_next hk)).trans hk, hkp⟩
    · exact .inr hrest
  · obtain ⟨hlive, hc, hno⟩ := hi.lost p hp
    exact ⟨hlive, hc, fun q k hk hkp => hno q k (hold q k p hk hkp) hkp⟩

/-- A handle that no buffer gets. -/
theorem OwnInv.lose (hi : OwnInv s) (h : NativeHandle) :
    OwnInv { s with
      handles := { s.handles with store := s.handles.store.alloc h }
      lost := s.handles.store.next :: s.lost } := by
  have hold : ∀ p, (∃ h', s.handles.store.get p = some h') →
      ∃ h', (s.handles.store.alloc h).get p = some h' :=
    fun p ⟨h', hph⟩ => ⟨h', (Store.get_alloc_lt (Store.lt_next hph)).trans hph⟩
  refine ⟨fun q k p hk hp => ?_, hi.unique, fun p hp => hold p (hi.client p hp), hi.apart, hi.nodup,
    fun p h' hp => ?_, fun p hp => ?_, hi.faults⟩
  · obtain ⟨h', hph, hv⟩ := hi.live q k p hk hp
    exact ⟨h', (Store.get_alloc_lt (Store.lt_next hph)).trans hph, hv⟩
  · rcases eq_or_ne p s.handles.store.next with rfl | hne
    · exact .inr (.inr List.mem_cons_self)
    · dsimp only at hp
      rw [Store.get_alloc_ne hne] at hp
      rcases hi.accounted p h' hp with hown | hc | hl
      · exact .inl hown
      · exact .inr (.inl hc)
      · exact .inr (.inr (List.mem_cons_of_mem _ hl))
  · rcases List.mem_cons.mp hp with rfl | hp
    · refine ⟨⟨h, Store.get_alloc_next⟩, fun hmem => ?_, fun q k hk hkp => ?_⟩
      · obtain ⟨h', hph⟩ := hi.client _ hmem
        exact Nat.lt_irrefl _ (Store.lt_next hph)
      · obtain ⟨h', hph, -⟩ := hi.live q k _ hk hkp
        exact Nat.lt_irrefl _ (Store.lt_next hph)
    · obtain ⟨hlive, hrest⟩ := hi.lost p hp
      exact ⟨hold p hlive, hrest⟩

/-- A buffer forgets its handle. -/
theorem OwnInv.forget (hi : OwnInv s) (hg : s.objects.get o = some g) (hg' : g'.owned = none) :
    OwnInv { s with objects := s.objects.set o g', lost := g.owned.toList ++ s.lost } := by
  have ho : o < s.objects.next := Store.lt_next hg
  have hold : ∀ q k p, (s.objects.set o g').get q = some k → k.owned = some p →
      s.objects.get q = some k := by
    intro q k p hk hp
    have hq : q ≠ o := ne_of_owned (Store.get_set ho) hk hp (by rw [hg']; exact nofun)
    rwa [Store.get_set_ne hq] at hk
  refine ⟨fun q k p hk hp => ?_, fun q q' k k' p hk hk' hp hp' => ?_, hi.client,
    fun q k p hk hp => ?_, hi.nodup, fun p h hp => ?_, fun p hp => ?_, hi.faults⟩
  · exact hi.live q k p (hold q k p hk hp) hp
  · exact hi.unique q q' k k' p (hold q k p hk hp) (hold q' k' p hk' hp') hp hp'
  · exact hi.apart q k p (hold q k p hk hp) hp
  · rcases hi.accounted p h hp with ⟨q, k, hk, hkp⟩ | hc | hl
    · by_cases hown : g.owned = some p
      · refine .inr (.inr (List.mem_append_left _ ?_))
        rw [hown]
        exact List.mem_singleton_self p
      · have hq : q ≠ o := ne_of_owned hg hk hkp hown
        exact .inl ⟨q, k, (Store.get_set_ne hq).trans hk, hkp⟩
    · exact .inr (.inl hc)
    · exact .inr (.inr (List.mem_append_right _ hl))
  · rcases List.mem_append.mp hp with hp | hp
    · have hown : g.owned = some p := Option.mem_toList.mp hp
      obtain ⟨h, hph, -⟩ := hi.live o g p hg hown
      refine ⟨⟨h, hph⟩, hi.apart o g p hg hown, fun q k hk hkp => ?_⟩
      have hq : q ≠ o := ne_of_owned (Store.get_set ho) hk hkp (by rw [hg']; exact nofun)
      exact hq (hi.unique q o k g p (hold q k p hk hkp) hg hkp hown)
    · obtain ⟨hlive, hc, hno⟩ := hi.lost p hp
      exact ⟨hlive, hc, fun q k hk hkp => hno q k (hold q k p hk hkp) hkp⟩

/-- A new buffer takes a handle of the client. -/
theorem OwnInv.give (hi : OwnInv s) (hp : p ∈ s.client) (hg : g.owned = some p)
    (hv : g.owner ≠ .ownData) :
    OwnInv { s with objects := s.objects.alloc g, client := s.client.erase p } := by
  have hold : ∀ q k p', (s.objects.alloc g).get q = some k → k.owned = some p' →
      q = s.objects.next ∧ k = g ∧ p' = p ∨ s.objects.get q = some k ∧ p' ≠ p := by
    intro q k p' hk hp'
    rcases eq_or_ne q s.objects.next with rfl | hq
    · rw [Store.get_alloc_next] at hk
      cases hk
      rw [hg] at hp'
      cases hp'
      exact .inl ⟨rfl, rfl, rfl⟩
    · rw [Store.get_alloc_ne hq] at hk
      refine .inr ⟨hk, ?_⟩
      rintro rfl
      exact hi.apart q k p' hk hp' hp
  refine ⟨fun q k p' hk hp' => ?_, fun q q' k k' p' hk hk' hp hp' => ?_, fun p' hp' => ?_,
    fun q k p' hk hp' => ?_, hi.nodup.erase p, fun p' h hp' => ?_, fun p' hp' => ?_, hi.faults⟩
  · rcases hold q k p' hk hp' with ⟨-, rfl, rfl⟩ | ⟨hk, -⟩
    · obtain ⟨h, hph⟩ := hi.client _ hp
      exact ⟨h, hph, fun hd => absurd hd hv⟩
    · exact hi.live q k p' hk hp'
  · rcases hold q k p' hk hp with ⟨rfl, -, rfl⟩ | ⟨hk, hne⟩
    · rcases hold q' k' _ hk' hp' with ⟨rfl, -, -⟩ | ⟨-, hne⟩
      · rfl
      · exact absurd rfl hne
    · rcases hold q' k' _ hk' hp' with ⟨-, -, rfl⟩ | ⟨hk', -⟩
      · exact absurd rfl hne
      · exact hi.unique q q' k k' p' hk hk' hp hp'
  · exact hi.client p' (List.mem_of_mem_erase hp')
  · rcases hold q k p' hk hp' with ⟨-, -, rfl⟩ | ⟨hk, -⟩
    · exact fun hmem => (hi.nodup.mem_erase_iff.mp hmem).1 rfl
    · exact fun hmem => hi.apart q k p' hk hp' (List.mem_of_mem_erase hmem)
  · rcases hi.accounted p' h hp' with ⟨q, k, hk, hkp⟩ | hc | hl
    · exact .inl ⟨q, k, (Store.get_alloc_lt (Store.lt_next hk)).trans hk, hkp⟩
    · rcases eq_or_ne p' p with rfl | hne
      · exact .inl ⟨s.objects.next, g, Store.get_alloc_next, hg⟩
      · exact .inr (.inl ((List.mem_erase_of_ne hne).mpr hc))
    · exact .inr (.inr hl)
  · obtain ⟨hlive, hc, hno⟩ := hi.lost p' hp'
    refine ⟨hlive, fun hmem => hc (List.mem_of_mem_erase hmem), fun q k hk hkp => ?_⟩
    rcases hold q k p' hk hkp with ⟨-, -, rfl⟩ | ⟨hk, -⟩
    · exact hc hp
    · exact hno q k hk hkp

theorem OwnInv.clientCreate (hi : OwnInv s) (h : NativeHandle) :
    OwnInv { s with
      handles := { s.handles with store := s.handles.store.alloc h }
      client := s.handles.store.next :: s.client } := by
  have hfresh : s.handles.store.next ∉ s.client := by
    intro hmem
    obtain ⟨h, hph⟩ := hi.client _ hmem
    exact absurd (Store.lt_next hph) (Nat.lt_irrefl _)
  refine ⟨fun q k p hk hp => ?_, hi.unique, fun p hp => ?_, fun q k p hk hp => ?_,
    List.nodup_cons.mpr ⟨hfresh, hi.nodup⟩, fun p h' hp => ?_, fun p hp => ?_, hi.faults⟩
  · obtain ⟨h', hph, hv⟩ := hi.live q k p hk hp
    exact ⟨h', (Store.get_alloc_lt (Store.lt_next hph)).trans hph, hv⟩
  · rcases List.mem_cons.mp hp with rfl | hp
    · exact ⟨h, Store.get_alloc_next⟩
    · obtain ⟨h', hph⟩ := hi.client p hp
      exact ⟨h', (Store.get_alloc_lt (Store.lt_next hph)).trans hph⟩
  · obtain ⟨h', hph, -⟩ := hi.live q k p hk hp
    have hlt := Store.lt_next hph
    refine List.not_mem_cons_of_ne_of_not_mem (by omega) (hi.apart q k p hk hp)
  · rcases eq_or_ne p s.handles.store.next with rfl | hne
    · exact .inr (.inl List.mem_cons_self)
    · dsimp only at hp
      rw [Store.get_alloc_ne hne] at hp
      rcases hi.accounted p h' hp with hown | hc | hl
      · exact .inl hown
      · exact .inr (.inl (List.mem_cons_of_mem _ hc))
      · exact .inr (.inr hl)
  · obtain ⟨⟨h', hph⟩, hc, hno⟩ := hi.lost p hp
    have hlt := Store.lt_next hph
    exact ⟨⟨h', (Store.get_alloc_lt hlt).trans hph⟩,
      List.not_mem_cons_of_ne_of_not_mem (Nat.ne_of_lt hlt) hc, hno⟩

theorem OwnInv.clientDelete (hi : OwnInv s) (hp : p ∈ s.client) :
    OwnInv { s with handles := s.handles.delete p, client := s.client.erase p } := by
  obtain ⟨h, hph⟩ := hi.client p hp
  rw [delete_live hph]
  refine ⟨fun q k p' hk hp' => ?_, hi.unique, fun p' hp' => ?_, fun q k p' hk hp' => ?_,
    hi.nodup.erase p, fun p' h' hp' => ?_, fun p' hp' => ?_, hi.faults⟩
  · have hne : p' ≠ p := by
      rintro rfl
      exact hi.apart q k p' hk hp' hp
    dsimp only
    rw [Store.get_free_ne hne]
    exact hi.live q k p' hk hp'
  · obtain ⟨hne, hmem⟩ := hi.nodup.mem_erase_iff.mp hp'
    dsimp only
    rw [Store.get_free_ne hne]
    exact hi.client p' hmem
  · exact fun hmem => hi.apart q k p' hk hp' (List.mem_of_mem_erase hmem)
  · dsimp only at hp'
    have hne : p' ≠ p := by
      rintro rfl
      rw [Store.get_free] at hp'
      cases hp'
    rw [Store.get_free_ne hne] at hp'
    rcases hi.accounted p' h' hp' with hown | hc | hl
    · exact .inl hown
    · exact .inr (.inl ((List.mem_erase_of_ne hne).mpr hc))
    · exact .inr (.inr hl)
  · obtain ⟨hlive, hc, hno⟩ := hi.lost p' hp'
    have hne : p' ≠ p := fun heq => hc (heq ▸ hp)
    dsimp only
    rw [Store.get_free_ne hne]
    exact ⟨hlive, fun hmem => hc (List.mem_of_mem_erase hmem), hno⟩

end Primitives

/-! ### Runs keep the invariant -/

section Runs

variable {sys} {s s' : Owners} {g g' : GraphicBuffer} {o : ℕ} {h : NativeHandle}

theorem OwnInv.release_set (hi : OwnInv s) (hg : s.objects.get o = some g) (hg' : g'.owned = none) :
    OwnInv { s with handles := freeHandle s.handles g, objects := s.objects.set o g' } := by
  refine hi.release hg (fun q hq => Store.get_set_ne hq) fun k hk => ?_
  rw [Store.get_set (Store.lt_next hg)] at hk
  cases hk
  exact hg'

theorem owned_of_handle (hg : g.handle = none) : g.owned = none := by
  unfold GraphicBuffer.owned
  split
  · rfl
  · exact hg

/-- The handle is freed and replaced by a new one. -/
theorem OwnInv.replace (hi : OwnInv s) (hg : s.objects.get o = some g)
    (hg' : g'.owned = some s.handles.store.next) (hv : g'.owner = .ownData → h.validate) :
    OwnInv { s with
      handles := { freeHandle s.handles g with store := (freeHandle s.handles g).store.alloc h }
      objects := s.objects.set o g' } := by
  have hnone : ({ g with handle := none } : GraphicBuffer).owned = none := owned_of_handle rfl
  have hi₁ := hi.release_set hg hnone
  have hnext : g'.owned = some (freeHandle s.handles g).store.next := by
    rw [next_freeHandle]
    exact hg'
  have hi₂ := hi₁.acquire (o := o) (h := h) (Store.get_set (Store.lt_next hg)) hnone hnext hv
  simpa only [Store.set_set] using hi₂

theorem OwnInv.unflatten (hi : OwnInv s) (hg : s.objects.get o = some g) {mallocOk : Bool} {inp : In} :
    OwnInv { s with
      handles := (unflatten sys mallocOk s.handles g inp).2.1
      objects := s.objects.set o (unflatten sys mallocOk s.handles g inp).2.2.1
      lost := forgotten sys mallocOk s.handles g inp ++ s.lost } := by
  have hout := outcome_unflatten sys mallocOk s.handles g inp
  revert hout
  generalize (Gralloc.unflatten sys mallocOk s.handles g inp).2.1 = w'
  generalize (Gralloc.unflatten sys mallocOk s.handles g inp).2.2.1 = g'
  intro hout
  unfold forgotten
  cases hout with
  | refused hl hu =>
    rw [if_neg hl, if_neg hu, Store.set_of_get hg]
    exact hi
  | tooLarge hl =>
    rw [if_pos hl]
    exact hi.forget hg (owned_of_handle rfl)
  | emptied hl hu hnone =>
    rw [if_neg hl, if_neg hu]
    exact hi.release_set hg (owned_of_handle hnone)
  | unregistered hl hu h hnone =>
    rw [if_neg hl, if_pos hu]
    have hi₂ := (hi.release_set hg (owned_of_handle hnone)).lose h
    dsimp only at hi₂
    rw [next_freeHandle] at hi₂
    exact hi₂
  | registered hl hu h hsome howner =>
    rw [if_neg hl, if_neg hu]
    refine hi.replace hg ?_ fun hd => ?_
    · rw [GraphicBuffer.owned, howner, ← next_freeHandle (r := g)]
      exact hsome
    · rw [howner] at hd
      cases hd

theorem allocatorFreeIf_eq {w : Handles} (hg : g.owner = .ownData) :
    w.allocatorFreeIf g.handle = freeHandle w g := by
  unfold freeHandle
  cases g.handle with
  | none => rfl
  | some p => simp only [hg, Handles.allocatorFreeIf]

theorem OwnInv.reallocate (hi : OwnInv s) (hg : s.objects.get o = some g) (inWidth inHeight : UInt32)
    (inFormat : Int32) (inUsage : UInt32) {outcome : AllocOutcome}
    (hv : ∀ h stride, outcome = .ok (h, stride) → h.validate) :
    OwnInv { s with
      handles := (reallocate s.handles g inWidth inHeight inFormat inUsage outcome).2.1
      objects := s.objects.set o (reallocate s.handles g inWidth inHeight inFormat inUsage outcome).2.2 } := by
  unfold Gralloc.reallocate
  split_ifs with hown hsame
  · rw [Store.set_of_get hg]
    exact hi
  · rw [Store.set_of_get hg]
    exact hi
  · have hdata := not_not.mp hown
    dsimp only
    rw [allocatorFreeIf_eq hdata]
    cases outcome with
    | error err => exact hi.release_set hg (owned_of_handle rfl)
    | ok r =>
      refine hi.replace hg ?_ fun _ => hv r.1 r.2 rfl
      simp only [initSize, GraphicBuffer.owned, hdata, next_freeHandle]

/-- **One step.** -/
theorem OwnInv.step {a : OwnerAct} (hi : OwnInv s) (ha : ownerAllowed s a)
    (hs : ownerStep sys s a = some s') : OwnInv s' := by
  cases a with
  | new id gen =>
    cases hs
    exact hi.born rfl
  | newSize id gen inWidth inHeight inFormat inUsage outcome =>
    cases hs
    cases outcome with
    | error err => exact hi.born rfl
    | ok r =>
      have hnew : (GraphicBuffer.new id gen).owned = none := rfl
      have hown : (initSize s.handles (.new id gen) inWidth inHeight inFormat inUsage
          (.ok r)).2.2.owned = some s.handles.store.next := rfl
      have hi₂ := (hi.born hnew).acquire Store.get_alloc_next hnew hown fun _ => ha
      rw [Store.set_alloc_next] at hi₂
      exact hi₂
  | ofHandle id gen inWidth inHeight inFormat inUsage inStride inHandle keepOwnership =>
    cases hs
    cases keepOwnership with
    | true => exact hi.give ha rfl nofun
    | false => exact hi.born rfl
  | ofBuffer id gen buffer keepOwnership =>
    cases hs
    cases keepOwnership with
    | false => exact hi.born rfl
    | true =>
      obtain ⟨width, height, stride, format, usage, handle⟩ := buffer
      cases handle with
      | none =>
        have hkeep : s.client.filter (fun p => (none : Option ℕ) ≠ some p) = s.client :=
          List.filter_eq_self.mpr fun _ _ => rfl
        have hown : (GraphicBuffer.ofBuffer id gen ⟨width, height, stride, format, usage, none⟩ true).owned =
            none := rfl
        simp only [if_true, hkeep]
        exact hi.born hown
      | some p =>
        have herase : s.client.filter (fun q => some p ≠ some q) = s.client.erase p := by
          rw [hi.nodup.erase_eq_filter]
          refine List.filter_congr fun q _ => ?_
          rcases eq_or_ne q p with rfl | hne
          · simp
          · simp [hne, hne.symm]
        simp only [if_true, herase]
        exact hi.give (ha rfl p rfl) rfl nofun
  | reallocate o inWidth inHeight inFormat inUsage outcome =>
    obtain ⟨g, hg, rfl⟩ := Option.map_eq_some_iff.mp hs
    refine hi.reallocate hg inWidth inHeight inFormat inUsage ?_
    rintro h stride rfl
    exact ha
  | unflatten o mallocOk inp =>
    obtain ⟨g, hg, rfl⟩ := Option.map_eq_some_iff.mp hs
    exact hi.unflatten hg
  | destroy o =>
    obtain ⟨g, hg, rfl⟩ := Option.map_eq_some_iff.mp hs
    refine hi.release hg (fun q hq => Store.get_free_ne hq) fun k hk => ?_
    rw [Store.get_free] at hk
    cases hk
  | clientCreate h =>
    cases hs
    exact hi.clientCreate h
  | clientDelete p =>
    cases hs
    exact hi.clientDelete ha

theorem OwnInv.start (hs : OwnerStart s) : OwnInv s := by
  obtain rfl := hs
  have hempty : ∀ {α : Type} (p : ℕ) (a : α), ¬(Store.empty : Store α).get p = some a := by
    simp [Store.empty, Store.get]
  refine ⟨?_, ?_, ?_, ?_, List.nodup_nil, ?_, ?_, rfl⟩
  · intro o g p hg
    exact absurd hg (hempty o g)
  · intro o o' g g' p hg
    exact absurd hg (hempty o g)
  · intro p hp
    exact absurd hp List.not_mem_nil
  · intro o g p hg
    exact absurd hg (hempty o g)
  · intro p h hp
    exact absurd hp (hempty p h)
  · intro p hp
    exact absurd hp List.not_mem_nil

theorem ownInv_of_reach (hr : Reach (ownerStep sys) ownerAllowed OwnerStart s) : OwnInv s :=
  hr.invariant (fun _ => OwnInv.start) fun _ _ _ _ hi ha hs => hi.step ha hs

/-- **Ownership.**  In every run no handle is freed that is not there, a buffer's own handle is in
memory and nobody else's, and a handle in memory is a buffer's, the client's or lost.  When the buffers
and the client are gone, the handles that are left are the lost ones. -/
theorem handles_owned (hr : Reach (ownerStep sys) ownerAllowed OwnerStart s) :
    s.handles.faults = 0 ∧
      (∀ o g p, s.objects.get o = some g → g.owned = some p →
        (∃ h, s.handles.store.get p = some h) ∧ p ∉ s.client ∧ p ∉ s.lost ∧
          ∀ o' g', s.objects.get o' = some g' → g'.owned = some p → o' = o) ∧
      (∀ p h, s.handles.store.get p = some h →
        (∃ o g, s.objects.get o = some g ∧ g.owned = some p) ∨ p ∈ s.client ∨ p ∈ s.lost) ∧
      ((∀ o, s.objects.get o = none) → s.client = [] →
        ∀ p, (∃ h, s.handles.store.get p = some h) ↔ p ∈ s.lost) := by
  have hi := ownInv_of_reach hr
  refine ⟨hi.faults, fun o g p hg hp => ⟨?_, hi.apart o g p hg hp, ?_, ?_⟩, hi.accounted,
    fun hno hc p => ⟨?_, fun hl => (hi.lost p hl).1⟩⟩
  · obtain ⟨h, hph, -⟩ := hi.live o g p hg hp
    exact ⟨h, hph⟩
  · exact fun hl => (hi.lost p hl).2.2 o g hg hp
  · exact fun o' g' hg' hp' => hi.unique o' o g' g p hg' hg hp' hp
  · rintro ⟨h, hph⟩
    rcases hi.accounted p h hph with ⟨o, g, hg, -⟩ | hmem | hl
    · rw [hno o] at hg
      cases hg
    · rw [hc] at hmem
      cases hmem
    · exact hl

/-- A buffer that was allocated reads a header with 5000 descriptors, and is destroyed. -/
def forgetfulRun : List OwnerAct :=
  [.newSize 1 0 2 2 1 3 (.ok (⟨[7], [0x3141592, 0, 4096, 0, 2, 2, 2, 1, 3, 0, 65536, 0, 42, 0]⟩, 2)),
    .unflatten 0 true ⟨[gbfr, 0, 0, 0, 0, 0, 0, 0, 0, 5000, 0], 44, [], 0⟩, .destroy 0]

/-- Its handle is still there. -/
theorem handles_owned_forgetful : ∃ s, Reach (ownerStep demoSystem) ownerAllowed OwnerStart s ∧
    s.handles.faults = 0 ∧ ∃ h, s.handles.store.get 0 = some h := by
  have hstart : OwnerStart ⟨⟨.empty, 0⟩, .empty, [], []⟩ := rfl
  have hexec : (exec (ownerStep demoSystem) ownerAllowed ⟨⟨.empty, 0⟩, .empty, [], []⟩
      forgetfulRun).map (fun s => (s.objects, s.client, s.lost)) = some (⟨[none]⟩, [], [0]) := by
    decide +kernel
  obtain ⟨s, hs, hv⟩ := Reach.of_exec hstart hexec
  simp only [Prod.mk.injEq] at hv
  obtain ⟨hobjects, hclient, hlost⟩ := hv
  obtain ⟨hfaults, -, -, hleft⟩ := handles_owned hs
  have hno : ∀ o, s.objects.get o = none := by
    intro o
    rw [hobjects]
    cases o with
    | zero => rfl
    | succ o => rfl
  exact ⟨s, hs, hfaults, (hleft hno hclient 0).mpr (hlost ▸ List.mem_cons_self)⟩

/-- A buffer that was allocated is wrapped by one that takes its handle over: it is freed twice. -/
example : (exec (ownerStep demoSystem) (fun _ _ => True) ⟨⟨.empty, 0⟩, .empty, [], []⟩
    [.newSize 1 0 2 2 1 3 (.ok (⟨[7], [0x3141592, 0, 4096, 0, 2, 2, 2, 1, 3, 0, 65536, 0, 42, 0]⟩, 2)),
      .ofBuffer 2 0 ⟨2, 2, 2, 1, 3, some 0⟩ true, .destroy 0, .destroy 1]).map
    (fun s => s.handles.faults) = some 1 := by
  decide +kernel

end Runs

end Gralloc

end IntelCamera
