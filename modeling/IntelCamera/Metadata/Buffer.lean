import IntelCamera.Lib.Bytes
import IntelCamera.Metadata.Tags
import Mathlib.Data.List.Sort

/-!
# Metadata.Buffer — `camera_metadata_t` and its operations (`camera_metadata.c`)

A packet of metadata is a header, an array of 16-byte entry records and a data area.  A payload of
at most four bytes lives in the record itself (the union `data.value`), a longer one in the data
area at `data.offset`.  The header fields, the records and the bytes of the data area are kept as
the C code keeps them; `entry_count` is the length of `entries`.

Stores into the 32-bit fields are reduced modulo `2 ^ 32`.  `size_t` values are natural numbers: a
source array is an object in memory, so `data_count * size` does not reach `2 ^ 64`.  The records and
the data are two lists, so the model is that of packets below 4 GiB: above, `data_start` is reduced as
well, and the data area comes to lie over the records.  Every result that has to do with the contents
of a packet bounds the packets asked for.

The operations take a live buffer; the `NULL` tests of the C functions belong to the callers that may
hold `NULL`.  They are those of a build without assertions.  A build with them checks the packet at the
end of each, and goes on as here or not at all: `Metadata.Asserts` adds the checks.
-/

namespace IntelCamera

open Lib

/-- The status codes of `camera_metadata.c`, `utils/Errors.h` and `Errors.h`. -/
inductive Status
  | ok | error | nameNotFound | noMemory | invalidOperation | badValue | noInit | unknownError
deriving DecidableEq, Repr

/-! ### The C library -/

/-- A comparison function that orders its arguments consistently, as `qsort` and `bsearch` ask. -/
structure Consistent {α : Type} (cmp : α → α → ℤ) : Prop where
  total : ∀ a b, cmp a b ≤ 0 ∨ cmp b a ≤ 0
  trans : ∀ a b c, cmp a b ≤ 0 → cmp b c ≤ 0 → cmp a c ≤ 0

/-- What the code uses of the C library.  `malloc n` is the contents of the fresh block, or `none`;
`qsort` is any sort (the order of equal elements is unspecified) and `bsearch` any search that finds
a matching element of a sorted array. -/
structure Libc where
  malloc : ℕ → Option (ℕ → UInt8)
  qsort : {α : Type} → (α → α → ℤ) → List α → List α
  bsearch : {α : Type} → (α → ℤ) → List α → Option ℕ
  qsort_perm : ∀ {α : Type} (cmp : α → α → ℤ) (l : List α), (qsort cmp l).Perm l
  qsort_sorted : ∀ {α : Type} (cmp : α → α → ℤ) (l : List α), Consistent cmp →
    (qsort cmp l).Pairwise fun a b => cmp a b ≤ 0
  bsearch_some : ∀ {α : Type} (key : α → ℤ) (l : List α) (i : ℕ), bsearch key l = some i →
    ∃ a, l[i]? = some a ∧ key a = 0
  bsearch_none : ∀ {α : Type} (key : α → ℤ) (l : List α), bsearch key l = none →
    (l.Pairwise fun a b => key b ≤ key a) → ∀ a ∈ l, key a ≠ 0

/-- A C library within the contract: zeroed blocks, an insertion sort and a linear search. -/
def referenceLibc : Libc where
  malloc _ := some fun _ => 0
  qsort cmp l := l.insertionSort fun a b => cmp a b ≤ 0
  bsearch key l := l.findIdx? fun a => key a = 0
  qsort_perm cmp l := List.perm_insertionSort _ l
  qsort_sorted cmp l h := by
    have : Std.Total (fun a b => cmp a b ≤ 0) := ⟨h.total⟩
    have : IsTrans _ (fun a b => cmp a b ≤ 0) := ⟨h.trans⟩
    exact List.pairwise_insertionSort _ l
  bsearch_some key l i h := by
    obtain ⟨hi, hk, -⟩ := List.findIdx?_eq_some_iff_getElem.mp h
    exact ⟨l[i], List.getElem?_eq_getElem hi, by simpa using hk⟩
  bsearch_none key l h _ a ha := by
    have := List.findIdx?_eq_none_iff.mp h a ha
    simpa using this

/-! ### Records -/

/-- `camera_metadata_buffer_entry_t`; `value` is the four bytes of the union `data`. -/
structure BufferEntry where
  tag : ℕ
  count : ℕ
  value : List UInt8
  type : ℕ
deriving DecidableEq, Repr

/-- `data.offset`: the union read as a 32-bit word. -/
def BufferEntry.offset (e : BufferEntry) : ℕ := leNat e.value

/-- `struct camera_metadata`, with its record array and its data area. -/
structure Metadata where
  size : ℕ
  version : ℕ
  flags : ℕ
  entryCapacity : ℕ
  entriesStart : ℕ
  dataCount : ℕ
  dataCapacity : ℕ
  dataStart : ℕ
  entries : List BufferEntry
  data : List UInt8
deriving DecidableEq, Repr

/-- `entry_count`. -/
def Metadata.entryCount (m : Metadata) : ℕ := m.entries.length

/-- `ALIGN_TO`. -/
def alignTo (val alignment : ℕ) : ℕ := (val + (alignment - 1)) / alignment * alignment

/-- A value stored in a 32-bit unsigned field. -/
def u32 (n : ℕ) : ℕ := n % 2 ^ 32

def sizeofCameraMetadata : ℕ := 36

def sizeofBufferEntry : ℕ := 16

def entryAlignment : ℕ := 4

def dataAlignment : ℕ := 8

def currentMetadataVersion : ℕ := 1

def flagSorted : ℕ := 1

/-- `flags & FLAG_SORTED`. -/
def Metadata.isSorted (m : Metadata) : Bool := m.flags &&& flagSorted != 0

/-- `flags & ~FLAG_SORTED`. -/
def clearSorted (flags : ℕ) : ℕ := flags ^^^ (flags &&& flagSorted)

/-! ### Allocation -/

/-- `calculate_camera_metadata_size`. -/
def calculateCameraMetadataSize (entryCount dataCount : ℕ) : ℕ :=
  alignTo (alignTo sizeofCameraMetadata entryAlignment + sizeofBufferEntry * entryCount)
    dataAlignment + dataCount

/-- `place_camera_metadata` in a block of `dstSize` bytes with contents `dst`. -/
def placeCameraMetadata (dst : ℕ → UInt8) (dstSize entryCapacity dataCapacity : ℕ) :
    Option Metadata :=
  let memoryNeeded := calculateCameraMetadataSize entryCapacity dataCapacity
  if memoryNeeded > dstSize then none else
  let entriesStart := alignTo sizeofCameraMetadata entryAlignment
  let dataUnaligned := entriesStart + sizeofBufferEntry * u32 entryCapacity
  let dataStart := u32 (alignTo dataUnaligned dataAlignment)
  some
    { size := u32 memoryNeeded
      version := currentMetadataVersion
      flags := 0
      entryCapacity := u32 entryCapacity
      entriesStart := entriesStart
      dataCount := 0
      dataCapacity := u32 dataCapacity
      dataStart := dataStart
      entries := []
      data := (List.range (u32 dataCapacity)).map fun i => dst (dataStart + i) }

/-- `allocate_camera_metadata`. -/
def allocateCameraMetadata (L : Libc) (entryCapacity dataCapacity : ℕ) : Option Metadata :=
  let memoryNeeded := calculateCameraMetadataSize entryCapacity dataCapacity
  match L.malloc memoryNeeded with
  | none => none
  | some buffer => placeCameraMetadata buffer memoryNeeded entryCapacity dataCapacity

/-- `get_camera_metadata_compact_size`. -/
def getCameraMetadataCompactSize (m : Metadata) : ℕ :=
  calculateCameraMetadataSize m.entryCount m.dataCount

/-- `copy_camera_metadata` into a block of `dstSize` bytes with contents `dst`. -/
def copyCameraMetadata (dst : ℕ → UInt8) (dstSize : ℕ) (src : Metadata) : Option Metadata :=
  if dstSize < getCameraMetadataCompactSize src then none else
  match placeCameraMetadata dst dstSize src.entryCount src.dataCount with
  | none => none
  | some metadata => some
      { metadata with
        flags := src.flags
        dataCount := src.dataCount
        entries := src.entries
        data := memcpy metadata.data 0 (src.data.take src.dataCount) }

/-! ### Entry operations -/

/-- `calculate_camera_metadata_entry_data_size`. -/
def calculateCameraMetadataEntryDataSize (type dataCount : ℕ) : ℕ :=
  if numTypes ≤ type then 0 else
  let dataBytes := dataCount * cameraMetadataTypeSize type
  if dataBytes ≤ 4 then 0 else alignTo dataBytes dataAlignment

/-- The bytes an entry takes in the data area. -/
def BufferEntry.dataSize (e : BufferEntry) : ℕ :=
  calculateCameraMetadataEntryDataSize e.type e.count

/-- An appended record: an out-of-line payload is found `n` bytes later. -/
def movedEntry (n : ℕ) (e : BufferEntry) : BufferEntry :=
  if 0 < e.dataSize then { e with value := leBytes 4 (e.offset + n) } else e

/-- The records of `src` as they are appended behind `n` bytes of data. -/
def movedEntries (n : ℕ) (src : List BufferEntry) : List BufferEntry :=
  if n ≠ 0 then src.map (movedEntry n) else src

/-- The flags after an append. -/
def appendFlags (dst src : Metadata) : ℕ :=
  -- appending onto empty buffer, keep sorted state
  if dst.entryCount = 0 then dst.flags ||| (src.flags &&& flagSorted)
  -- both nonempty, cannot assume sort remains
  else if src.entryCount ≠ 0 then clearSorted dst.flags
  else dst.flags

/-- `append_camera_metadata`. -/
def appendCameraMetadata (dst src : Metadata) : Status × Metadata :=
  if dst.entryCapacity < u32 (src.entryCount + dst.entryCount) then (.error, dst) else
  if dst.dataCapacity < u32 (src.dataCount + dst.dataCount) then (.error, dst) else
  (.ok,
    { dst with
      flags := appendFlags dst src
      entries := dst.entries ++ movedEntries dst.dataCount src.entries
      data := memcpy dst.data dst.dataCount (src.data.take src.dataCount)
      dataCount := u32 (dst.dataCount + src.dataCount) })

/-- `clone_camera_metadata`. -/
def cloneCameraMetadata (L : Libc) (src : Metadata) : Option Metadata :=
  match allocateCameraMetadata L src.entryCount src.dataCount with
  | none => none
  | some clone =>
    match appendCameraMetadata clone src with
    | (.ok, clone) => some clone
    | _ => none

/-- `add_camera_metadata_entry_raw`; `data = none` is the `NULL` pointer. -/
def addCameraMetadataEntryRaw (dst : Metadata) (tag type : ℕ) (data : Option (List UInt8))
    (dataCount : ℕ) : Status × Metadata :=
  if dst.entryCount = dst.entryCapacity then (.error, dst) else
  match data with
  | none => (.error, dst)
  | some data =>
    let dataBytes := calculateCameraMetadataEntryDataSize type dataCount
    if dst.dataCapacity < dataBytes + dst.dataCount then (.error, dst) else
    let payload := data.take (dataCount * cameraMetadataTypeSize type)
    if dataBytes = 0 then
      let entry : BufferEntry := ⟨tag, u32 dataCount, memcpy [0, 0, 0, 0] 0 payload, type⟩
      (.ok, { dst with entries := dst.entries ++ [entry], flags := clearSorted dst.flags })
    else
      let entry : BufferEntry := ⟨tag, u32 dataCount, leBytes 4 dst.dataCount, type⟩
      (.ok,
        { dst with
          entries := dst.entries ++ [entry]
          data := memcpy dst.data dst.dataCount payload
          dataCount := dst.dataCount + dataBytes
          flags := clearSorted dst.flags })

/-- `add_camera_metadata_entry`. -/
def addCameraMetadataEntry (ops : Option VendorTagOps) (dst : Metadata) (tag : ℕ)
    (data : Option (List UInt8)) (dataCount : ℕ) : Status × Metadata :=
  match getCameraMetadataTagType ops tag with
  | none => (.error, dst)
  | some type => addCameraMetadataEntryRaw dst tag type.code data dataCount

/-- `compare_entry_tags`. -/
def compareEntryTags (e₁ e₂ : BufferEntry) : ℤ :=
  if e₁.tag < e₂.tag then -1 else if e₁.tag = e₂.tag then 0 else 1

/-- `sort_camera_metadata`. -/
def sortCameraMetadata (L : Libc) (dst : Metadata) : Status × Metadata :=
  if dst.isSorted then (.ok, dst) else
  (.ok, { dst with
    entries := L.qsort compareEntryTags dst.entries
    flags := dst.flags ||| flagSorted })

/-- `camera_metadata_entry_t`; `data` holds the bytes the pointer refers to. -/
structure MetadataEntry where
  index : ℕ
  tag : ℕ
  type : ℕ
  count : ℕ
  data : List UInt8
deriving DecidableEq, Repr

/-- The bytes of an entry's values. -/
def Metadata.payload (m : Metadata) (e : BufferEntry) : List UInt8 :=
  let dataBytes := e.count * cameraMetadataTypeSize e.type
  if dataBytes > 4 then slice m.data e.offset dataBytes else e.value.take dataBytes

/-- `get_camera_metadata_entry`; `none` is `ERROR`. -/
def getCameraMetadataEntry (src : Metadata) (index : ℕ) : Option MetadataEntry :=
  (src.entries[index]?).map fun e => ⟨index, e.tag, e.type, e.count, src.payload e⟩

/-- `find_camera_metadata_entry`; `none` is `NOT_FOUND`. -/
def findCameraMetadataEntry (L : Libc) (src : Metadata) (tag : ℕ) : Option MetadataEntry :=
  if src.isSorted then
    (L.bsearch (compareEntryTags ⟨tag, 0, [], 0⟩) src.entries).bind (getCameraMetadataEntry src)
  else
    (src.entries.findIdx? fun e => e.tag = tag).bind (getCameraMetadataEntry src)

/-- The loop "update all entry indices to account for shift". -/
def shiftOffset (offset bytes : ℕ) (e : BufferEntry) : BufferEntry :=
  if 0 < e.dataSize ∧ offset < e.offset then { e with value := leBytes 4 (e.offset - bytes) } else e

/-- Take the payload of `entry` out of the data area and close the gap. -/
def removeData (dst : Metadata) (entry : BufferEntry) : Metadata :=
  let bytes := entry.dataSize
  { dst with
    data := memmove dst.data entry.offset (entry.offset + bytes)
      (dst.dataCount - entry.offset - bytes)
    entries := dst.entries.map (shiftOffset entry.offset bytes)
    dataCount := dst.dataCount - bytes }

/-- `delete_camera_metadata_entry`. -/
def deleteCameraMetadataEntry (dst : Metadata) (index : ℕ) : Status × Metadata :=
  match dst.entries[index]? with
  | none => (.error, dst)
  | some entry =>
    let dst := if 0 < entry.dataSize then removeData dst entry else dst
    (.ok, { dst with entries := dst.entries.eraseIdx index })

/-- `update_camera_metadata_entry`; the optional copy of the updated entry is
`getCameraMetadataEntry` of the result. -/
def updateCameraMetadataEntry (dst : Metadata) (index : ℕ) (data : List UInt8) (dataCount : ℕ) :
    Status × Metadata :=
  match dst.entries[index]? with
  | none => (.error, dst)
  | some entry =>
    let dataBytes := calculateCameraMetadataEntryDataSize entry.type dataCount
    let payload := data.take (dataCount * cameraMetadataTypeSize entry.type)
    let entryBytes := entry.dataSize
    if dataBytes ≠ entryBytes ∧ dst.dataCapacity < dst.dataCount + dataBytes - entryBytes then
      (.error, dst)
    else
    -- remove old data
    let dst₁ := if dataBytes ≠ entryBytes ∧ entryBytes ≠ 0 then removeData dst entry else dst
    if dataBytes = 0 then
      -- data fits into entry
      (.ok,
        { dst₁ with
          entries := dst₁.entries.set index
            { entry with count := u32 dataCount, value := memcpy entry.value 0 payload } })
    else if dataBytes ≠ entryBytes then
      -- append new data
      (.ok,
        { dst₁ with
          data := memcpy dst₁.data dst₁.dataCount payload
          dataCount := dst₁.dataCount + dataBytes
          entries := dst₁.entries.set index
            { entry with count := u32 dataCount, value := leBytes 4 dst₁.dataCount } })
    else
      -- data size unchanged, reuse same data location
      (.ok,
        { dst₁ with
          data := memcpy dst₁.data entry.offset payload
          entries := dst₁.entries.set index { entry with count := u32 dataCount } })

end IntelCamera
