import IntelCamera.Lib.Store
import IntelCamera.Metadata.Values
import IntelCamera.Metadata.Lookup

/-!
# CameraMetadata — the owner class of a packet (`CameraMetadata.cpp`)

Packets are objects of a heap; a `CameraMetadata` holds the address of the one it owns and a lock
flag.  Every method takes the heap and returns it.  A null pointer and a dangling one are both
answered as the C functions answer `NULL`.

The data of an update is given by its bytes and by `inside`, the packet the caller's array lies in,
if any: that is what the address comparison of `updateImpl` finds out.
-/

namespace IntelCamera

open Lib

/-- The live packets, by address. -/
abbrev Heap := Store Metadata

/-- `class CameraMetadata`. -/
structure CameraMetadata where
  mBuffer : Option ℕ
  mLocked : Bool
deriving DecidableEq, Repr

/-- The type with a given code. -/
def MetaType.ofCode : ℕ → Option MetaType
  | 0 => some .byte
  | 1 => some .int32
  | 2 => some .float
  | 3 => some .int64
  | 4 => some .double
  | 5 => some .rational
  | _ => none

namespace CameraMetadata

/-- The default constructor. -/
def empty : CameraMetadata := ⟨none, false⟩

/-- The packet behind `mBuffer`. -/
def packet (h : Heap) (c : CameraMetadata) : Option Metadata := c.mBuffer.bind h.get

/-- `entryCount`. -/
def entryCount (h : Heap) (c : CameraMetadata) : ℕ :=
  match c.packet h with
  | none => 0
  | some m => m.entryCount

/-- `isEmpty`. -/
def isEmpty (h : Heap) (c : CameraMetadata) : Bool := c.entryCount h == 0

/-- `clear`. -/
def clear (h : Heap) (c : CameraMetadata) : Heap × CameraMetadata :=
  if c.mLocked then (h, c) else
  match c.mBuffer with
  | none => (h, c)
  | some p => (h.free p, { c with mBuffer := none })

/-- The destructor. -/
def destroy (h : Heap) (c : CameraMetadata) : Heap := (clear h { c with mLocked := false }).1

/-- `clone_camera_metadata` of the packet at `buffer`, in the heap. -/
def clonePacket (L : Libc) (h : Heap) (buffer : Option ℕ) : Heap × Option ℕ :=
  match (buffer.bind h.get).bind (cloneCameraMetadata L) with
  | none => (h, none)
  | some m => (h.alloc m, some h.next)

/-- `operator=(const camera_metadata_t *)`. -/
def assign (L : Libc) (h : Heap) (c : CameraMetadata) (buffer : Option ℕ) : Heap × CameraMetadata :=
  if c.mLocked then (h, c) else
  if buffer = c.mBuffer then (h, c) else
  let newBuffer := clonePacket L h buffer
  let cleared := c.clear newBuffer.1
  (cleared.1, { cleared.2 with mBuffer := newBuffer.2 })

/-- `getAndLock`; the pointer handed out is `mBuffer`. -/
def getAndLock (c : CameraMetadata) : CameraMetadata := { c with mLocked := true }

/-- `unlock`. -/
def unlock (c : CameraMetadata) (buffer : Option ℕ) : Status × CameraMetadata :=
  if !c.mLocked then (.invalidOperation, c) else
  if buffer ≠ c.mBuffer then (.badValue, c) else
  (.ok, { c with mLocked := false })

/-- `release`. -/
def release (c : CameraMetadata) : Option ℕ × CameraMetadata :=
  if c.mLocked then (none, c) else (c.mBuffer, { c with mBuffer := none })

/-- `acquire(camera_metadata_t *)`; the structural check only logs. -/
def acquire (h : Heap) (c : CameraMetadata) (buffer : Option ℕ) : Heap × CameraMetadata :=
  if c.mLocked then (h, c) else
  let cleared := c.clear h
  (cleared.1, { cleared.2 with mBuffer := buffer })

/-- The constructor that takes the ownership of a packet. -/
def ofBuffer (h : Heap) (buffer : Option ℕ) : Heap × CameraMetadata := acquire h empty buffer

/-- The copy constructor. -/
def copy (L : Libc) (h : Heap) (other : CameraMetadata) : Heap × CameraMetadata :=
  let newBuffer := clonePacket L h other.mBuffer
  (newBuffer.1, ⟨newBuffer.2, false⟩)

/-- `swap`; the two objects are returned in the order they were given. -/
def swap (c other : CameraMetadata) : CameraMetadata × CameraMetadata :=
  if c.mLocked then (c, other) else
  if other.mLocked then (c, other) else
  ({ c with mBuffer := other.mBuffer }, { other with mBuffer := c.mBuffer })

/-- `sort`; `sort_camera_metadata` answers a null packet with `ERROR`. -/
def sort (L : Libc) (h : Heap) (c : CameraMetadata) : Status × Heap :=
  if c.mLocked then (.invalidOperation, h) else
  match c.mBuffer, c.packet h with
  | some p, some m =>
    let sorted := sortCameraMetadata L m
    (sorted.1, h.set p sorted.2)
  | _, _ => (.error, h)

/-- `erase`; the search in a null packet answers `ERROR`. -/
def erase (L : Libc) (h : Heap) (c : CameraMetadata) (tag : ℕ) : Status × Heap :=
  if c.mLocked then (.invalidOperation, h) else
  match c.mBuffer, c.packet h with
  | some p, some m =>
    match findCameraMetadataEntry L m tag with
    | none => (.ok, h)
    | some entry =>
      let deleted := deleteCameraMetadataEntry m entry.index
      (deleted.1, h.set p deleted.2)
  | _, _ => (.error, h)

/-- The capacity asked for when `extra` is added to `count` of `capacity`. -/
def grownCapacity (count capacity extra : ℕ) : ℕ :=
  if capacity < count + extra then (count + extra) * 2 else capacity

/-- `resizeIfNeeded`. -/
def resizeIfNeeded (L : Libc) (h : Heap) (c : CameraMetadata) (extraEntries extraData : ℕ) :
    Status × Heap × CameraMetadata :=
  match c.mBuffer, c.packet h with
  | some p, some m =>
    let newEntryCount := grownCapacity m.entryCount m.entryCapacity extraEntries
    let newDataCount := grownCapacity m.dataCount m.dataCapacity extraData
    if m.entryCapacity < newEntryCount ∨ m.dataCapacity < newDataCount then
      match allocateCameraMetadata L newEntryCount newDataCount with
      -- the old packet is no longer referred to
      | none => (.noMemory, h, { c with mBuffer := none })
      | some fresh =>
        (.ok, (h.alloc (appendCameraMetadata fresh m).2).free p, { c with mBuffer := some h.next })
    else (.ok, h, c)
  | _, _ =>
    match allocateCameraMetadata L (extraEntries * 2) (extraData * 2) with
    | none => (.noMemory, h, c)
    | some fresh => (.ok, h.alloc fresh, { c with mBuffer := some h.next })

/-- `append(const camera_metadata_t *)`.  The counts of the packet at `other` are read before anything
is checked: `none` is a null or a dangling pointer that is read.  The status of the resize is not
looked at. -/
def append (L : Libc) (h : Heap) (c : CameraMetadata) (other : Option ℕ) :
    Option (Status × Heap × CameraMetadata) :=
  if c.mLocked then some (.invalidOperation, h, c) else
  match other.bind h.get with
  | none => none
  | some src =>
    match resizeIfNeeded L h c src.entryCount src.dataCount with
    | (_, h, c) =>
      match c.mBuffer, c.packet h with
      | some p, some m =>
        -- the resize may have freed the packet it is given
        match other.bind h.get with
        | none => none
        | some src =>
          let appended := appendCameraMetadata m src
          some (appended.1, h.set p appended.2, c)
      | _, _ => some (.error, h, c)

/-- `checkType`. -/
def checkType (ops : Option VendorTagOps) (tag : ℕ) (expectedType : MetaType) : Status :=
  match getCameraMetadataTagType ops tag with
  | none => .invalidOperation
  | some tagType => if tagType ≠ expectedType then .invalidOperation else .ok

/-- The entry written by `updateImpl`: added, or updated in place. -/
def store (L : Libc) (ops : Option VendorTagOps) (m : Metadata) (tag : ℕ) (data : List UInt8)
    (dataCount : ℕ) : Status × Metadata :=
  match findCameraMetadataEntry L m tag with
  | none => addCameraMetadataEntry ops m tag (some data) dataCount
  | some entry => updateCameraMetadataEntry m entry.index data dataCount

/-- `updateImpl`. -/
def updateImpl (L : Libc) (ops : Option VendorTagOps) (h : Heap) (c : CameraMetadata) (tag : ℕ)
    (inside : Option ℕ) (data : List UInt8) (dataCount : ℕ) : Status × Heap × CameraMetadata :=
  if c.mLocked then (.invalidOperation, h, c) else
  match getCameraMetadataTagType ops tag with
  | none => (.badValue, h, c)
  | some type =>
    -- data that points to this packet would be invalidated by a resize
    if inside ≠ none ∧ inside = c.mBuffer then (.invalidOperation, h, c) else
    let dataSize := calculateCameraMetadataEntryDataSize type.code dataCount
    match resizeIfNeeded L h c 1 dataSize with
    | (.ok, h, c) =>
      match c.mBuffer, c.packet h with
      | some p, some m =>
        let stored := store L ops m tag data dataCount
        (stored.1, h.set p stored.2, c)
      | _, _ => (.error, h, c)
    | refused => refused

/-- The overloads of `update`: one for each value type. -/
def update (L : Libc) (ops : Option VendorTagOps) (h : Heap) (c : CameraMetadata) (tag : ℕ)
    (type : MetaType) (inside : Option ℕ) (data : List UInt8) (dataCount : ℕ) :
    Status × Heap × CameraMetadata :=
  if c.mLocked then (.invalidOperation, h, c) else
  match checkType ops tag type with
  | .ok => updateImpl L ops h c tag inside data dataCount
  | res => (res, h, c)

/-- `find`, on a `const` object; `none` is the entry of count `0`. -/
def find (L : Libc) (h : Heap) (c : CameraMetadata) (tag : ℕ) : Option MetadataEntry :=
  (c.packet h).bind fun m => findCameraMetadataEntry L m tag

/-! ### The owner of a live packet stays one -/

/-- The packet owned, if there is one, is live. -/
def Live (h : Heap) (c : CameraMetadata) : Prop := ∀ p, c.mBuffer = some p → (h.get p).isSome

variable {L : Libc} {ops : Option VendorTagOps} {h : Heap} {c : CameraMetadata}

/-- A new packet is not the one that is freed. -/
theorem live_alloc_free {p : ℕ} {m m' : Metadata} (hp : h.get p = some m) :
    Live ((h.alloc m').free p) { c with mBuffer := some h.next } := by
  intro q hq
  obtain rfl := Option.some.inj hq
  rw [Store.get_free_ne (Nat.ne_of_gt (Store.lt_next hp)), Store.get_alloc_next]
  rfl

theorem Live.resizeIfNeeded (hl : Live h c) (extraEntries extraData : ℕ) :
    Live (resizeIfNeeded L h c extraEntries extraData).2.1
      (resizeIfNeeded L h c extraEntries extraData).2.2 := by
  unfold CameraMetadata.resizeIfNeeded
  split
  · next p m hb hp =>
    have hp' : h.get p = some m := by simpa [packet, hb] using hp
    dsimp only
    split_ifs
    · split
      · intro q hq
        cases hq
      · exact live_alloc_free hp'
    · exact hl
  · split
    · exact hl
    · intro q hq
      obtain rfl := Option.some.inj hq
      simp

theorem Live.updateImpl (hl : Live h c) (tag : ℕ) (inside : Option ℕ) (data : List UInt8)
    (dataCount : ℕ) : Live (updateImpl L ops h c tag inside data dataCount).2.1
      (updateImpl L ops h c tag inside data dataCount).2.2 := by
  unfold CameraMetadata.updateImpl
  split
  · exact hl
  · split
    · exact hl
    · next type _ =>
      split_ifs
      · exact hl
      · have hr := hl.resizeIfNeeded (L := L) 1
          (calculateCameraMetadataEntryDataSize type.code dataCount)
        dsimp only
        split
        · next h' c' he =>
          rw [he] at hr
          split
          · next p m hb hp =>
            intro q hq
            rw [hb] at hq
            obtain rfl := Option.some.inj hq
            obtain ⟨m', hm'⟩ := Option.isSome_iff_exists.mp (hr p hb)
            rw [Store.get_set (Store.lt_next hm')]
            rfl
          · exact hr
        · exact hr

/-- **An update leaves the owner with a live packet**, or with none. -/
theorem Live.update (hl : Live h c) (tag : ℕ) (type : MetaType) (inside : Option ℕ)
    (data : List UInt8) (dataCount : ℕ) : Live (update L ops h c tag type inside data dataCount).2.1
      (update L ops h c tag type inside data dataCount).2.2 := by
  unfold CameraMetadata.update
  split_ifs
  · exact hl
  · split
    · exact hl.updateImpl tag inside data dataCount
    · exact hl

end CameraMetadata

end IntelCamera
