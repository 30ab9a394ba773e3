import IntelCamera.SharedBuffer
import IntelCamera.Vector.Items

/-!
# Vector.Code — `VectorImpl`

A vector is a pointer to a `SharedBuffer` and a count.  Vectors that were copied share their buffer, and
an operation that writes makes a buffer of its own first (`editArrayImpl`, `_grow`, `_shrink`).

The functions take the memory and the vector and return them changed, or stop.  `Answers` are what
`malloc` and `realloc` return.  A buffer always has room for whole items, so it is given by its capacity.

`ALOG_ASSERT` is there in a build without `NDEBUG`, and ends the process.  Items are given by value, or by
another vector: a pointer to an item of the vector itself would be read after its storage has moved.
-/

namespace IntelCamera

open Lib

namespace Vector

/-- `TYPE`: its traits, its size and what its constructor makes. -/
structure ItemType (α : Type) where
  traits : Traits
  itemSize : ℕ
  dflt : α

/-- A `SharedBuffer` with the items in it. -/
structure Storage (α : Type) where
  refs : ℕ
  capacity : ℕ
  cells : Cells α

abbrev Memory (α : Type) := Store (Storage α)

/-- `VectorImpl`. -/
structure Impl where
  mStorage : Option ℕ
  mCount : ℕ
deriving DecidableEq, Repr

/-- What `realloc` and `malloc` answer in a call. -/
structure Answers where
  realloc : Bool
  malloc : Bool
deriving DecidableEq, Repr

/-- What an operation returns: an index or a size, or an error. -/
inductive Result
  | value (n : ℕ)
  | badIndex
  | noMemory
deriving DecidableEq, Repr

def kMinVectorCapacity : ℕ := 4

section Code

variable {α : Type} (T : ItemType α)

def deref (mem : Memory α) (p : ℕ) : Except Stop (Storage α) :=
  match mem.get p with
  | some st => .ok st
  | none => .error .undefined

/-- `SharedBuffer::alloc` of memory for `capacity` items. -/
def alloc (malloc : Bool) (mem : Memory α) (capacity : ℕ) : Except Stop (Option (ℕ × Memory α)) :=
  if SharedBuffer.Fatal (capacity * T.itemSize) then .error .overflow
  else if malloc then .ok (some (mem.next, mem.alloc ⟨1, capacity, fun _ => none⟩))
  else .ok none

/-- `free` of a buffer. -/
def freeStorage (mem : Memory α) (p : ℕ) (st : Storage α) : Except Stop (Memory α) :=
  if ∀ i < st.capacity, T.traits.Raw (st.cells i) then .ok (mem.free p) else .error .leak

/-- `SharedBuffer::release`. -/
def release (mem : Memory α) (p : ℕ) : Except Stop (Memory α) := do
  let st ← deref mem p
  if st.refs = 1 then freeStorage T mem p st else .ok (mem.set p { st with refs := st.refs - 1 })

/-- `VectorImpl::release_storage`. -/
def releaseStorage (mem : Memory α) (x : Impl) : Except Stop (Memory α) :=
  match x.mStorage with
  | none => .ok mem
  | some p => do
    let st ← deref mem p
    if st.refs = 1 then
      let cells ← destroyType T.traits st.capacity st.cells 0 x.mCount
      freeStorage T mem p { st with cells := cells }
    else .ok (mem.set p { st with refs := st.refs - 1 })

/-- `VectorImpl::capacity`. -/
def capacity (mem : Memory α) (x : Impl) : Except Stop ℕ :=
  match x.mStorage with
  | none => .ok 0
  | some p => do
    let st ← deref mem p
    .ok st.capacity

/-- `ALOG_ASSERT(index<capacity())`, in `itemLocation` and `editItemLocation`. -/
def assertIndex (mem : Memory α) (x : Impl) (index : ℕ) : Except Stop Unit := do
  let cap ← capacity mem x
  if index < cap then .ok () else .error .assertion

/-- The bytes that `editResize` keeps. -/
def truncate (st : Storage α) (newCapacity : ℕ) : Cells α :=
  fun j => if j < min st.capacity newCapacity then st.cells j else none

/-- `SharedBuffer::editResize` where `realloc` is not used or failed. -/
def copyResize (malloc : Bool) (mem : Memory α) (p : ℕ) (st : Storage α) (newCapacity : ℕ) :
    Except Stop (Option (ℕ × Memory α)) := do
  match ← alloc T malloc mem newCapacity with
  | none => .ok none
  | some (q, mem) =>
    let mem ← release T (mem.set q ⟨1, newCapacity, truncate st newCapacity⟩) p
    .ok (some (q, mem))

/-- `SharedBuffer::editResize`. -/
def editResize (ans : Answers) (mem : Memory α) (p newCapacity : ℕ) :
    Except Stop (Option (ℕ × Memory α)) := do
  let st ← deref mem p
  if st.refs = 1 then
    if st.capacity = newCapacity then .ok (some (p, mem))
    else if SharedBuffer.Fatal (newCapacity * T.itemSize) then .error .overflow
    else if ans.realloc then
      .ok (some (mem.next, (mem.free p).alloc ⟨1, newCapacity, truncate st newCapacity⟩))
    else copyResize T ans.malloc mem p st newCapacity
  else copyResize T ans.malloc mem p st newCapacity

/-- `VectorImpl::editArrayImpl`. -/
def editArrayImpl (malloc : Bool) (mem : Memory α) (x : Impl) : Except Stop (Memory α × Impl) :=
  match x.mStorage with
  | none => .ok (mem, x)
  | some p => do
    let st ← deref mem p
    if st.refs = 1 then .ok (mem, x)
    else
      match ← alloc T malloc mem st.capacity with
      | none => .error .noMemory
      | some (q, mem) =>
        let cells ← copyType T.traits st.capacity (fun _ => none) 0 st.capacity st.cells 0 x.mCount
        let mem ← releaseStorage T (mem.set q ⟨1, st.capacity, cells⟩) x
        .ok (mem, { x with mStorage := some q })

/-- The items before `head`, and those from `from_` on behind a gap, copied into new memory. -/
def copyItems (mem : Memory α) (x : Impl) (newCapacity head gap from_ : ℕ) : Except Stop (Cells α) :=
  match x.mStorage with
  | none => .ok fun _ => none
  | some p => do
    let st ← deref mem p
    let cells ← copyType T.traits newCapacity (fun _ => none) 0 st.capacity st.cells 0 head
    copyType T.traits newCapacity cells (head + gap) st.capacity st.cells from_ (x.mCount - from_)

/-- New storage, into which the items are copied, and the old storage released: the lines that `_grow`
and `_shrink` have in common. -/
def copyStorage (malloc : Bool) (mem : Memory α) (x : Impl) (newCapacity head gap from_ : ℕ) :
    Except Stop (Option (ℕ × Memory α)) := do
  match ← alloc T malloc mem newCapacity with
  | none => .ok none
  | some (q, mem) =>
    let cells ← copyItems T mem x newCapacity head gap from_
    let mem ← releaseStorage T (mem.set q ⟨1, newCapacity, cells⟩) x
    .ok (some (q, mem))

/-- The capacity that `_grow` asks for. -/
def grownCapacity (newSize : ℕ) : ℕ := max kMinVectorCapacity (newSize + newSize / 2 + 1)

/-- `VectorImpl::_grow` where the capacity is too small. -/
def growStorage (ans : Answers) (mem : Memory α) (x : Impl) (where_ amount : ℕ) :
    Except Stop (Option (ℕ × Memory α)) :=
  let newSize := x.mCount + amount
  if 2 ^ 64 ≤ newSize + newSize / 2 + 1 then .error .overflow
  else
    match x.mStorage with
    | some p =>
      if x.mCount = where_ ∧ T.traits.copy = true ∧ T.traits.dtor = true then
        editResize T ans mem p (grownCapacity newSize)
      else copyStorage T ans.malloc mem x (grownCapacity newSize) where_ amount where_
    | none => copyStorage T ans.malloc mem x (grownCapacity newSize) where_ amount where_

/-- `_grow` and `_shrink` in place: the cells of the only owner are rewritten. -/
def rewrite (mem : Memory α) (x : Impl) (f : Storage α → Except Stop (Cells α)) :
    Except Stop (Memory α) :=
  match x.mStorage with
  | none => .ok mem
  | some p => do
    let st ← deref mem p
    let cells ← f st
    .ok (mem.set p { st with cells := cells })

/-- `VectorImpl::_grow`; it returns the `itemLocation` of the free space, or `NULL`. -/
def grow (ans : Answers) (mem : Memory α) (x : Impl) (where_ amount : ℕ) :
    Except Stop (Memory α × Impl × Bool) := do
  if 2 ^ 64 ≤ x.mCount + amount then .error .overflow
  else
    let cap ← capacity mem x
    if cap < x.mCount + amount then
      match ← growStorage T ans mem x where_ amount with
      | none => .ok (mem, x, false)
      | some (q, mem) =>
        let x := { mStorage := some q, mCount := x.mCount + amount }
        assertIndex mem x where_
        .ok (mem, x, true)
    else
      let (mem, x) ← editArrayImpl T ans.malloc mem x
      let mem ←
        if where_ ≠ x.mCount then
          rewrite mem x fun st =>
            moveForwardType T.traits st.capacity st.cells (where_ + amount) where_ (x.mCount - where_)
        else .ok mem
      let x := { x with mCount := x.mCount + amount }
      assertIndex mem x where_
      .ok (mem, x, true)

/-- `VectorImpl::_shrink` where the capacity is more than twice what is needed. -/
def shrinkStorage (ans : Answers) (mem : Memory α) (x : Impl) (p where_ amount : ℕ) :
    Except Stop (Option (ℕ × Memory α)) :=
  let newSize := x.mCount - amount
  let newCapacity := max kMinVectorCapacity (newSize * 2)
  if where_ = newSize ∧ T.traits.copy = true ∧ T.traits.dtor = true then
    editResize T ans mem p newCapacity
  else copyStorage T ans.malloc mem x newCapacity where_ 0 (where_ + amount)

/-- `VectorImpl::_shrink`. -/
def shrink (ans : Answers) (mem : Memory α) (x : Impl) (where_ amount : ℕ) :
    Except Stop (Memory α × Impl) :=
  match x.mStorage with
  | none => .ok (mem, x)
  | some p => do
    if x.mCount < amount then .error .overflow
    else
      let newSize := x.mCount - amount
      let cap ← capacity mem x
      if newSize < cap / 2 then
        match ← shrinkStorage T ans mem x p where_ amount with
        | none => .ok (mem, x)
        | some (q, mem) => .ok (mem, { mStorage := some q, mCount := newSize })
      else
        let (mem, x) ← editArrayImpl T ans.malloc mem x
        let mem ← rewrite mem x fun st => do
          let cells ← destroyType T.traits st.capacity st.cells where_ amount
          if where_ ≠ newSize then
            moveBackwardType T.traits st.capacity cells where_ (where_ + amount) (newSize - where_)
          else .ok cells
        .ok (mem, { x with mCount := newSize })

end Code

/-! ### The operations -/

/-- Where items are inserted from: memory outside of all vectors, or another vector. -/
inductive Source (α : Type)
  | array (items : List α)
  | vector (x : Impl)

section Operations

variable {α : Type} (T : ItemType α)

def Source.length : Source α → ℕ
  | .array items => items.length
  | .vector x => x.mCount

/-- The memory the items are read from. -/
def Source.read (mem : Memory α) : Source α → Except Stop (ℕ × Cells α)
  | .array items => .ok (items.length, fun i => items[i]?)
  | .vector x =>
    match x.mStorage with
    | none => .ok (0, fun _ => none)
    | some p => do
      let st ← deref mem p
      .ok (st.capacity, st.cells)

/-- `VectorImpl::insertArrayAt`, and with it `insertVectorAt`, `appendArray` and `appendVector`. -/
def insertArrayAt (ans : Answers) (mem : Memory α) (x : Impl) (src : Source α) (index : ℕ) :
    Except Stop (Memory α × Impl × Result) := do
  if x.mCount < index then .ok (mem, x, .badIndex)
  else
    let (mem, x, space) ← grow T ans mem x index src.length
    if space then
      let (cap, items) ← src.read mem
      let mem ← rewrite mem x fun st =>
        copyType T.traits st.capacity st.cells index cap items 0 src.length
      .ok (mem, x, .value index)
    else .ok (mem, x, .noMemory)

/-- `VectorImpl::insertAt`: copies of an item, or new items.  `push` and `add` insert one at the end. -/
def insertAt (ans : Answers) (mem : Memory α) (x : Impl) (item : Option α) (index numItems : ℕ) :
    Except Stop (Memory α × Impl × Result) := do
  if x.mCount < index then .ok (mem, x, .badIndex)
  else
    let (mem, x, space) ← grow T ans mem x index numItems
    if space then
      let mem ← rewrite mem x fun st =>
        match item with
        | some a => splatType T.traits st.capacity a st.cells index numItems
        | none => constructType T.traits st.capacity T.dflt st.cells index numItems
      .ok (mem, x, .value index)
    else .ok (mem, x, .noMemory)

/-- `VectorImpl::replaceAt`. -/
def replaceAt (ans : Answers) (mem : Memory α) (x : Impl) (prototype : Option α) (index : ℕ) :
    Except Stop (Memory α × Impl × Result) := do
  if x.mCount ≤ index then .error .assertion
  else
    assertIndex mem x index
    let (mem, x) ← editArrayImpl T ans.malloc mem x
    let mem ← rewrite mem x fun st => do
      let cells ← destroyType T.traits st.capacity st.cells index 1
      match prototype with
      | some a => copyType T.traits st.capacity cells index 1 (fun _ => some a) 0 1
      | none => constructType T.traits st.capacity T.dflt cells index 1
    .ok (mem, x, .value index)

/-- `editItemAt(index) = a`, through `editItemLocation`. -/
def editItemAt (ans : Answers) (mem : Memory α) (x : Impl) (index : ℕ) (a : α) :
    Except Stop (Memory α × Impl) := do
  assertIndex mem x index
  let (mem, x) ← editArrayImpl T ans.malloc mem x
  let mem ← rewrite mem x fun st =>
    if T.traits.Object (st.cells index) then .ok (Function.update st.cells index (some a))
    else .error .undefined
  .ok (mem, x)

/-- `VectorImpl::removeItemsAt`; `index+count` is of type `size_t`. -/
def removeItemsAt (ans : Answers) (mem : Memory α) (x : Impl) (index count : ℕ) :
    Except Stop (Memory α × Impl × Result) := do
  if x.mCount < (index + count) % 2 ^ 64 then .error .assertion
  else
    let (mem, x) ← shrink T ans mem x index count
    .ok (mem, x, .value index)

/-- `VectorImpl::clear`. -/
def clear (ans : Answers) (mem : Memory α) (x : Impl) : Except Stop (Memory α × Impl) :=
  shrink T ans mem x 0 x.mCount

/-- `VectorImpl::setCapacity`. -/
def setCapacity (ans : Answers) (mem : Memory α) (x : Impl) (newCapacity : ℕ) :
    Except Stop (Memory α × Impl × Result) := do
  if newCapacity ≤ x.mCount then
    let cap ← capacity mem x
    .ok (mem, x, .value cap)
  else
    match ← copyStorage T ans.malloc mem x newCapacity x.mCount 0 x.mCount with
    | none => .ok (mem, x, .noMemory)
    | some (q, mem) => .ok (mem, { x with mStorage := some q }, .value newCapacity)

/-- `VectorImpl::resize`. -/
def resize (ans : Answers) (mem : Memory α) (x : Impl) (size : ℕ) :
    Except Stop (Memory α × Impl × Result) := do
  if x.mCount < size then
    let (mem, x, r) ← insertAt T ans mem x none x.mCount (size - x.mCount)
    .ok (mem, x, match r with
      | .value _ => .value size
      | e => e)
  else if size < x.mCount then
    let (mem, x, r) ← removeItemsAt T ans mem x size (x.mCount - size)
    .ok (mem, x, match r with
      | .value _ => .value size
      | e => e)
  else .ok (mem, x, .value size)

/-- `VectorImpl::finish_vector`. -/
def finishVector (mem : Memory α) (x : Impl) : Except Stop (Memory α × Impl) := do
  let mem ← releaseStorage T mem x
  .ok (mem, ⟨none, 0⟩)

/-- `SharedBuffer::acquire` of the storage. -/
def acquire (mem : Memory α) (x : Impl) : Except Stop (Memory α) :=
  match x.mStorage with
  | none => .ok mem
  | some p => do
    let st ← deref mem p
    .ok (mem.set p { st with refs := st.refs + 1 })

/-- `VectorImpl(const VectorImpl& rhs)`. -/
def copyVector (mem : Memory α) (rhs : Impl) : Except Stop (Memory α × Impl) := do
  let mem ← acquire mem rhs
  .ok (mem, rhs)

/-- `VectorImpl::operator =`, of another vector. -/
def assign (mem : Memory α) (x rhs : Impl) : Except Stop (Memory α × Impl) := do
  let mem ← releaseStorage T mem x
  if rhs.mCount ≠ 0 then
    let mem ← acquire mem rhs
    .ok (mem, rhs)
  else .ok (mem, ⟨none, 0⟩)

end Operations

end Vector

end IntelCamera
