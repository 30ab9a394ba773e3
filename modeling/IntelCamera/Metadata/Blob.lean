import IntelCamera.Lib.Access
import IntelCamera.Metadata.Validate

/-!
# Metadata.Blob — `camera_metadata.c` on the bytes of a packet

A packet that comes from elsewhere is a block of bytes, and its header need not describe it.  Here
the check and the functions that rely on it are programs over the bytes, with a log of the blocks they
read and write and of the lengths they pass to `memcpy` and `memmove`.  Addresses count from the start
of the packet; `addr` is its own address, for the checks of the alignment.

The header is nine 32-bit words: `size`, `version`, `flags`, `entry_count`, `entry_capacity`,
`entries_start`, `data_count`, `data_capacity`, `data_start`.  A record has its tag at 0, its count
at 4, its data word at 8 and its type at 12.
-/

namespace IntelCamera

open Lib Prog

namespace Blob

/-! ### The code -/

def size : Prog ℕ := load 0 4

def flags : Prog ℕ := load 8 4

def entryCount : Prog ℕ := load 12 4

def entryCapacity : Prog ℕ := load 16 4

def entriesStart : Prog ℕ := load 20 4

def dataCount : Prog ℕ := load 24 4

def dataCapacity : Prog ℕ := load 28 4

def dataStart : Prog ℕ := load 32 4

/-- `get_entries`. -/
def getEntries : Prog ℕ := entriesStart

/-- `get_data`. -/
def getData : Prog ℕ := dataStart

/-- The record at `e`. -/
def entryAt (m : Mem UInt8) (e : ℕ) : BufferEntry :=
  ⟨leNat (m.read e 4), leNat (m.read (e + 4) 4), m.read (e + 8) 4, leNat (m.read (e + 12) 1)⟩

/-- A copy of the record at `e`. -/
def loadEntry (e : ℕ) : Prog BufferEntry := fun m => (entryAt m e, m, [.access e sizeofBufferEntry])

/-- `a - b` in 32 bits. -/
def sub32 (a b : ℕ) : ℕ := (a + (2 ^ 32 - b % 2 ^ 32)) % 2 ^ 32

/-- A `size_t`. -/
def sizeT (n : ℤ) : ℕ := (n % 2 ^ 64).toNat

variable (ops : Option VendorTagOps) (addr : ℕ)

/-- The checks on the record `i`. -/
def validateEntry (entries i : ℕ) : Prog Status :=
  let e := entries + sizeofBufferEntry * i
  if addr + e ≠ alignTo (addr + e) entryAlignment then pure .error else do
  let entry ← loadEntry e
  if numTypes ≤ entry.type then pure .error else
  if (getCameraMetadataTagType ops entry.tag).map MetaType.code ≠ some entry.type ∧
      entry.tag / 2 ^ 16 < vendorSection then pure .error else
  if entry.dataSize ≠ 0 then do
    let start ← getData
    let data := addr + start + entry.offset
    if data ≠ alignTo data dataAlignment then pure .error else do
    let dataEntryEnd := entry.offset + entry.dataSize
    let capacity ← dataCapacity
    if dataEntryEnd < entry.offset ∨ capacity < dataEntryEnd then pure .error else pure .ok
  else if entry.count = 0 then
    if entry.offset ≠ 0 then pure .error else pure .ok
  else pure .ok

/-- The loop over the records, for the `n` records from `i` on. -/
def validateEntries (entries : ℕ) : ℕ → ℕ → Prog Status
  | 0, _ => pure .ok
  | n + 1, i => do
    let status ← validateEntry ops addr entries i
    if status = .ok then validateEntries entries n (i + 1) else pure .error

/-- `validate_camera_metadata_structure`. -/
def validateCameraMetadataStructure (expectedSize : Option ℕ) : Prog Status :=
  if ¬ [metadataAlignment, entryAlignment, dataAlignment].all (fun a => addr = alignTo addr a) then
    pure .error else do
  let size ← size
  if (expectedSize.any fun n => n < size) = true then pure .error else do
  let count ← entryCount
  let capacity ← entryCapacity
  if capacity < count then pure .error else do
  let entries ← entriesStart
  let start ← dataStart
  let entriesEnd := u32 (entries + capacity)
  if entriesEnd < entries ∨ start < entriesEnd then pure .error else do
  let dataCapacity ← dataCapacity
  let dataEnd := u32 (start + dataCapacity)
  if dataEnd < start ∨ size < dataEnd then pure .error else
  validateEntries ops addr entries count 0

/-- `camera_metadata_entry_t`; `data` is where the payload starts. -/
structure Entry where
  index : ℕ
  tag : ℕ
  type : ℕ
  count : ℕ
  data : ℕ
deriving DecidableEq, Repr

/-- `get_camera_metadata_entry`; `none` is `ERROR`. -/
def getCameraMetadataEntry (index : ℕ) : Prog (Option Entry) := do
  let count ← entryCount
  if count ≤ index then pure none else do
  let entries ← getEntries
  let e := entries + sizeofBufferEntry * index
  let tag ← load e 4
  let type ← load (e + 12) 1
  let count ← load (e + 4) 4
  if 4 < count * cameraMetadataTypeSize type then do
    let start ← getData
    let offset ← load (e + 8) 4
    pure (some ⟨index, tag, type, count, start + offset⟩)
  else pure (some ⟨index, tag, type, count, e + 8⟩)

/-- The payload is read by the caller that got the entry. -/
def readPayload : Option Entry → Prog Unit
  | none => pure ()
  | some entry => touch entry.data (entry.count * cameraMetadataTypeSize entry.type)

/-- `bsearch` between `l` and `u`; `fuel` bounds the number of steps. -/
def bsearch (tag entries : ℕ) : ℕ → ℕ → ℕ → Prog (Option ℕ)
  | 0, _, _ => pure none
  | fuel + 1, l, u =>
    if u ≤ l then pure none else do
    let t ← load (entries + sizeofBufferEntry * ((l + u) / 2)) 4
    if tag < t then bsearch tag entries fuel l ((l + u) / 2)
    else if t < tag then bsearch tag entries fuel ((l + u) / 2 + 1) u
    else pure (some ((l + u) / 2))

/-- The linear search from `index` on; `entry_count` is below `2 ^ 32`. -/
def linearSearch (tag entries : ℕ) : ℕ → ℕ → Prog (Option ℕ)
  | 0, _ => pure none
  | fuel + 1, index => do
    let count ← entryCount
    if count ≤ index then pure none else do
    let t ← load (entries + sizeofBufferEntry * index) 4
    if t = tag then pure (some index) else linearSearch tag entries fuel (index + 1)

/-- The index of the tag, found one way or the other. -/
def search (tag : ℕ) : Prog (Option ℕ) := do
  let flags ← flags
  let entries ← getEntries
  if flags &&& flagSorted ≠ 0 then do
    let count ← entryCount
    bsearch tag entries count 0 count
  else linearSearch tag entries (2 ^ 32) 0

/-- `find_camera_metadata_entry`; `none` is `NOT_FOUND`. -/
def findCameraMetadataEntry (tag : ℕ) : Prog (Option Entry) := do
  let index ← search tag
  match index with
  | none => pure none
  | some index => getCameraMetadataEntry index

/-- The loop "update all entry indices to account for shift", from the record `i` on; `entry` is the
record that is deleted. -/
def shiftOffsets (entries entry dataBytes : ℕ) : ℕ → ℕ → Prog Unit
  | 0, _ => pure ()
  | fuel + 1, i => do
    let count ← entryCount
    if count ≤ i then pure () else do
    let e := entries + sizeofBufferEntry * i
    let type ← load (e + 12) 1
    let count ← load (e + 4) 4
    if 0 < calculateCameraMetadataEntryDataSize type count then do
      let offset ← load (e + 8) 4
      let deleted ← load (entry + 8) 4
      if deleted < offset then do
        store (e + 8) 4 (sub32 offset dataBytes)
        shiftOffsets entries entry dataBytes fuel (i + 1)
      else shiftOffsets entries entry dataBytes fuel (i + 1)
    else shiftOffsets entries entry dataBytes fuel (i + 1)

/-- "Shift data buffer to overwrite deleted data", and what follows from it.  The first subtraction of
the length is in 32 bits. -/
def removeData (entry dataBytes : ℕ) : Prog Unit := do
  let start ← getData
  let offset ← load (entry + 8) 4
  let count ← dataCount
  length (count - offset - dataBytes)
  move (start + offset) (start + offset + dataBytes) (sizeT (sub32 count offset - dataBytes))
  let entries ← getEntries
  shiftOffsets entries entry dataBytes (2 ^ 32) 0
  let count ← dataCount
  store 24 4 (sub32 count dataBytes)

/-- "Shift entry array". -/
def removeEntry (entry index : ℕ) : Prog Unit := do
  let count ← entryCount
  length (sizeofBufferEntry * (count - index - 1))
  move entry (entry + sizeofBufferEntry) (sizeT (sizeofBufferEntry * (count - index - 1)))
  let count ← entryCount
  store 12 4 (sub32 count 1)

/-- `delete_camera_metadata_entry`, with the check it asserts at its end. -/
def deleteCameraMetadataEntry (index : ℕ) : Prog Status := do
  let count ← entryCount
  if count ≤ index then pure .error else do
  let entries ← getEntries
  let entry := entries + sizeofBufferEntry * index
  let type ← load (entry + 12) 1
  let count ← load (entry + 4) 4
  let dataBytes := calculateCameraMetadataEntryDataSize type count
  let _ ← (if 0 < dataBytes then removeData entry dataBytes else pure () : Prog Unit)
  let _ ← removeEntry entry index
  let _ ← validateCameraMetadataStructure ops addr none
  pure .ok

/-- The reads of `copy_camera_metadata` from its source; `dstSize = none` is the `NULL` target. -/
def copyCameraMetadata (dstSize : Option ℕ) : Prog Bool := do
  let count ← entryCount
  let dataCount ← dataCount
  match dstSize with
  | none => pure false
  | some dstSize =>
    if dstSize < calculateCameraMetadataSize count dataCount then pure false else do
    let _ ← flags
    let entries ← getEntries
    length (sizeofBufferEntry * count)
    touch entries (sizeofBufferEntry * count)
    let data ← getData
    length dataCount
    touch data dataCount
    pure true

/-! ### What the check establishes -/

/-- The 32-bit word at `o`. -/
def wordAt (m : Mem UInt8) (o : ℕ) : ℕ := leNat (m.read o 4)

/-- Where the record `i` starts. -/
def recordAt (m : Mem UInt8) (i : ℕ) : ℕ := wordAt m 20 + sizeofBufferEntry * i

/-- The record `i`. -/
def record (m : Mem UInt8) (i : ℕ) : BufferEntry := entryAt m (recordAt m i)

/-- A record that passed the check. -/
structure EntryValid (N : ℕ) (m : Mem UInt8) (i : ℕ) : Prop where
  inside : recordAt m i + sizeofBufferEntry ≤ N
  aligned : 4 ∣ recordAt m i
  type_lt : (record m i).type < numTypes
  data : (record m i).dataSize ≠ 0 → 8 ∣ wordAt m 32 + (record m i).offset ∧
    (record m i).offset + (record m i).dataSize ≤ wordAt m 28

/-- A packet that passed the check. -/
structure Validated (N : ℕ) (m : Mem UInt8) : Prop where
  header : sizeofCameraMetadata ≤ N
  count_le : wordAt m 12 ≤ wordAt m 16
  entries_le : wordAt m 20 + wordAt m 16 ≤ wordAt m 32
  data_le : wordAt m 32 + wordAt m 28 ≤ N
  entry : ∀ i < wordAt m 12, EntryValid N m i

/-- What the check leaves out: the data that is counted is inside, and the payloads are within what
is counted. -/
structure DataCounted (N : ℕ) (m : Mem UInt8) : Prop where
  data : wordAt m 24 = 0 ∨ wordAt m 32 + wordAt m 24 ≤ N
  entries : ∀ i < wordAt m 12, (record m i).dataSize ≠ 0 →
    (record m i).offset + (record m i).dataSize ≤ wordAt m 24

variable {ops addr} {N : ℕ} {ok : Event → Prop} {m : Mem UInt8}

theorem wordAt_lt (m : Mem UInt8) (o : ℕ) : wordAt m o < 2 ^ 32 := by
  have h := leNat_lt (m.read o 4)
  rw [Mem.length_read] at h
  unfold wordAt
  norm_num at h ⊢
  exact h

@[simp] theorem wp_loadEntry {e : ℕ} {Q : BufferEntry → Mem UInt8 → Prop} :
    wp ok (loadEntry e) m Q ↔ ok (.access e sizeofBufferEntry) ∧ Q (entryAt m e) m := by
  simp [wp, loadEntry]

theorem validateEntry_readOnly (entries i : ℕ) : ReadOnly (validateEntry ops addr entries i) := by
  unfold validateEntry
  refine .ite (.pure _) (.bind (fun _ => rfl) fun entry => ?_)
  refine .ite (.pure _) (.ite (.pure _) (.ite ?_ (.ite (.ite (.pure _) (.pure _)) (.pure _))))
  exact .bind (.load _ _) fun _ => .ite (.pure _) (.bind (.load _ _) fun _ => .ite (.pure _) (.pure _))

/-- The loop succeeds if it does on each record. -/
theorem wp_validateEntries {entries n i : ℕ} :
    wp ok (validateEntries ops addr entries n i) m (fun st _ => st = .ok) ↔
      ∀ j < n, wp ok (validateEntry ops addr entries (i + j)) m fun st _ => st = .ok := by
  induction n generalizing i with
  | zero => exact iff_of_true (wp_pure.mpr rfl) fun j hj => absurd hj (Nat.not_lt_zero j)
  | succ n ih =>
    unfold validateEntries
    rw [wp_bind, (validateEntry_readOnly entries i).wp_iff]
    simp only [wp_ite, wp_pure, reduceCtorEq, imp_false, not_not, ih]
    constructor
    · rintro ⟨hlog, hrest, hst⟩ j hj
      cases j with
      | zero => exact ⟨hlog, hst⟩
      | succ j =>
        rw [← Nat.add_assoc, Nat.add_right_comm]
        exact hrest hst j (by omega)
    · intro h
      refine ⟨(h 0 (by omega)).1, fun _ j hj => ?_, (h 0 (by omega)).2⟩
      rw [Nat.add_right_comm, Nat.add_assoc]
      exact h (j + 1) (by omega)

theorem EntryValid.of_wp (ha : 8 ∣ addr) {i : ℕ}
    (h : wp (Event.Within N) (validateEntry ops addr (wordAt m 20) i) m fun st _ => st = .ok) :
    EntryValid N m i := by
  unfold validateEntry getData dataStart dataCapacity at h
  simp only [wp_ite, wp_bind, wp_loadEntry, wp_load, wp_pure, reduceCtorEq, imp_false, not_not] at h
  obtain ⟨halign, h⟩ := h
  obtain ⟨hin, htype, h⟩ := h halign
  obtain ⟨htag, h⟩ := h htype
  rw [eq_alignTo_iff (by decide)] at halign
  refine ⟨?_, ?_, not_le.mp htype, fun hsize => ?_⟩
  · exact hin.resolve_left (by decide)
  · exact (Nat.dvd_add_right (Nat.dvd_trans (by norm_num) ha)).mp halign
  · obtain ⟨-, hdata, h⟩ := (h htag).1 hsize
    obtain ⟨-, hend, -⟩ := h hdata
    rw [eq_alignTo_iff (by decide), Nat.add_assoc] at hdata
    refine ⟨(Nat.dvd_add_right ha).mp hdata, ?_⟩
    rw [not_or, not_lt, not_lt] at hend
    exact hend.2

/-- **The check establishes `Validated`** if it stays in the packet itself. -/
theorem Validated.of_wp (ha : 8 ∣ addr)
    (h : wp (Event.Within N) (validateCameraMetadataStructure ops addr (some N)) m
      fun st _ => st = .ok) : Validated N m := by
  unfold validateCameraMetadataStructure size entryCount entryCapacity entriesStart dataStart
    dataCapacity at h
  simp only [wp_ite, wp_bind, wp_load, wp_pure, reduceCtorEq, imp_false, not_not,
    wp_validateEntries, Nat.zero_add, Option.any_some, decide_eq_true_eq, not_lt] at h
  obtain ⟨halign, h⟩ := h
  obtain ⟨-, hsize, h⟩ := h halign
  obtain ⟨-, -, hcount, h⟩ := h hsize
  obtain ⟨-, hhead, hentries, h⟩ := h hcount
  obtain ⟨-, hdata, h⟩ := h hentries
  have h16 := wordAt_lt m 16
  have h20 := wordAt_lt m 20
  have h28 := wordAt_lt m 28
  have h32 := wordAt_lt m 32
  unfold u32 at hentries hdata
  refine ⟨?_, hcount, ?_, ?_, fun i hi => ?_⟩
  · exact hhead.resolve_left (by decide)
  · unfold wordAt at *
    omega
  · unfold wordAt at *
    omega
  · exact .of_wp ha (h hdata i hi)

/-! ### The packet behind the bytes -/

/-- The packet the bytes describe. -/
def decode (m : Mem UInt8) : Metadata where
  size := wordAt m 0
  version := wordAt m 4
  flags := wordAt m 8
  entryCapacity := wordAt m 16
  entriesStart := wordAt m 20
  dataCount := wordAt m 24
  dataCapacity := wordAt m 28
  dataStart := wordAt m 32
  entries := (List.range (wordAt m 12)).map (record m)
  data := m.read (wordAt m 32) (wordAt m 28)

theorem result_loadEntry {α : Type} {e : ℕ} {f : BufferEntry → Prog α} :
    ((loadEntry e >>= f) m).1 = (f (entryAt m e) m).1 := rfl

theorem validateEntry_decode (i : ℕ) : (validateEntry ops addr (wordAt m 20) i m).1 =
    IntelCamera.validateEntry ops addr (decode m) i (record m i) := by
  unfold validateEntry IntelCamera.validateEntry getData dataStart dataCapacity
  simp only [result_ite, result_pure, result_load, result_loadEntry, ← Nat.add_assoc]
  rfl

theorem validateEntries_decode (n i : ℕ) : (validateEntries ops addr (wordAt m 20) n i m).1 =
    IntelCamera.validateEntries ops addr (decode m) i ((List.range' i n).map (record m)) := by
  induction n generalizing i with
  | zero => rfl
  | succ n ih =>
    unfold validateEntries
    rw [List.range'_succ, List.map_cons]
    unfold IntelCamera.validateEntries
    rw [(validateEntry_readOnly _ i).result_bind, result_ite, validateEntry_decode, ih]
    cases IntelCamera.validateEntry ops addr (decode m) i (record m i) <;> rfl

/-- **The check of the bytes is the check of the packet they describe.** -/
theorem validate_decode (expectedSize : Option ℕ) :
    (validateCameraMetadataStructure ops addr expectedSize m).1 =
      IntelCamera.validateCameraMetadataStructure ops addr (decode m) expectedSize := by
  have hcount : (decode m).entryCount = wordAt m 12 := by
    unfold Metadata.entryCount decode
    rw [List.length_map, List.length_range]
  have hloop : (validateEntries ops addr (wordAt m 20) (wordAt m 12) 0 m).1 =
      IntelCamera.validateEntries ops addr (decode m) 0 (decode m).entries := by
    rw [validateEntries_decode, ← List.range_eq_range']
    rfl
  unfold validateCameraMetadataStructure IntelCamera.validateCameraMetadataStructure size entryCount
    entryCapacity entriesStart dataStart dataCapacity
  simp only [result_ite, result_pure, result_load, hcount, ← hloop]
  rfl

/-! ### The readers -/

/-- `get_camera_metadata_entry`, and the payload it points to. -/
def getAndRead (index : ℕ) : Prog Unit := do
  let entry ← getCameraMetadataEntry index
  readPayload entry

/-- `find_camera_metadata_entry`, and the payload it points to. -/
def findAndRead (tag : ℕ) : Prog Unit := do
  let entry ← findCameraMetadataEntry tag
  readPayload entry

/-- The bytes of an out-of-line payload are within its place in the data area. -/
theorem payload_le_dataSize {e : BufferEntry} (ht : e.type < numTypes)
    (h : 4 < e.count * cameraMetadataTypeSize e.type) :
    e.dataSize ≠ 0 ∧ e.count * cameraMetadataTypeSize e.type ≤ e.dataSize := by
  have hle := le_alignTo (e.count * cameraMetadataTypeSize e.type)
  unfold BufferEntry.dataSize calculateCameraMetadataEntryDataSize
  dsimp only
  rw [if_neg (not_le.mpr ht), if_neg (not_le.mpr h)]
  unfold dataAlignment
  exact ⟨by omega, hle⟩

theorem bsearch_readOnly (tag entries fuel l u : ℕ) : ReadOnly (bsearch tag entries fuel l u) := by
  induction fuel generalizing l u with
  | zero => exact .pure _
  | succ fuel ih =>
    exact .ite (.pure _) (.bind (.load _ _) fun _ => .ite (ih _ _) (.ite (ih _ _) (.pure _)))

theorem linearSearch_readOnly (tag entries fuel index : ℕ) :
    ReadOnly (linearSearch tag entries fuel index) := by
  induction fuel generalizing index with
  | zero => exact .pure _
  | succ fuel ih =>
    exact .bind (.load _ _) fun _ => .ite (.pure _) (.bind (.load _ _) fun _ => .ite (.pure _) (ih _))

theorem search_readOnly (tag : ℕ) : ReadOnly (search tag) :=
  .bind (.load _ _) fun _ => .bind (.load _ _) fun _ =>
    .ite (.bind (.load _ _) fun _ => bsearch_readOnly _ _ _ _ _) (linearSearch_readOnly _ _ _ _)

section Readers

variable (hv : Validated N m)

include hv

/-- The fields of the header are inside. -/
theorem Validated.field {o : ℕ} (ho : o + 4 ≤ 36) : Event.Within N (.access o 4) := by
  have h := hv.header
  unfold sizeofCameraMetadata at h
  exact Or.inr (by omega)

/-- The fields of a record are inside. -/
theorem Validated.recordField {i o w : ℕ} (hi : i < wordAt m 12) (ho : o + w ≤ 16) :
    Event.Within N (.access (recordAt m i + o) w) := by
  have h := (hv.entry i hi).inside
  unfold sizeofBufferEntry at h
  exact Or.inr (by omega)

/-- The tag of a record is inside. -/
theorem Validated.recordTag {i : ℕ} (hi : i < wordAt m 12) :
    Event.Within N (.access (recordAt m i) 4) := by
  have h := (hv.entry i hi).inside
  unfold sizeofBufferEntry at h
  exact Or.inr (by omega)

/-- The whole record array is inside. -/
theorem Validated.records : wordAt m 12 = 0 ∨ wordAt m 20 + 16 * wordAt m 12 ≤ N := by
  rcases Nat.eq_zero_or_pos (wordAt m 12) with h | h
  · exact Or.inl h
  · have h1 := (hv.entry (wordAt m 12 - 1) (by omega)).inside
    unfold recordAt sizeofBufferEntry at h1
    exact Or.inr (by omega)

/-- **Entries and payloads that are looked up lie inside.** -/
theorem Validated.get (index : ℕ) :
    wp (Event.Within N) (getAndRead index) m fun _ _ => True := by
  unfold getAndRead getCameraMetadataEntry entryCount getEntries entriesStart getData dataStart
  simp only [wp_bind, wp_load, wp_ite, wp_pure, readPayload, wp_touch, and_true, implies_true, true_and]
  refine ⟨hv.field (by norm_num), fun hi => ?_⟩
  have hi : index < wordAt m 12 := not_le.mp hi
  have he := hv.entry index hi
  refine ⟨hv.field (by norm_num), hv.recordTag hi,
    hv.recordField hi (by norm_num), hv.recordField hi (by norm_num), fun hlong => ?_, fun hshort => ?_⟩
  · obtain ⟨h0, hle⟩ := payload_le_dataSize he.type_lt hlong
    have hend := (he.data h0).2
    have hcap := hv.data_le
    have hin : wordAt m 32 + (record m index).offset + (record m index).count *
        cameraMetadataTypeSize (record m index).type ≤ N := by omega
    exact ⟨hv.field (by norm_num), hv.recordField hi (by norm_num), Or.inr hin⟩
  · exact hv.recordField hi (by omega)

theorem Validated.bsearch (tag fuel l : ℕ) {u : ℕ} (hu : u ≤ wordAt m 12) :
    wp (Event.Within N) (bsearch tag (wordAt m 20) fuel l u) m fun _ _ => True := by
  induction fuel generalizing l u with
  | zero => exact wp_pure.mpr trivial
  | succ fuel ih =>
    unfold Blob.bsearch
    simp only [wp_bind, wp_load, wp_ite, wp_pure, implies_true, true_and, and_true]
    intro hlt
    have hmid : (l + u) / 2 < wordAt m 12 := by omega
    exact ⟨hv.recordTag hmid, fun _ => ih l hmid.le, fun _ _ => ih _ hu⟩

theorem Validated.linearSearch (tag fuel index : ℕ) :
    wp (Event.Within N) (linearSearch tag (wordAt m 20) fuel index) m fun _ _ => True := by
  induction fuel generalizing index with
  | zero => exact wp_pure.mpr trivial
  | succ fuel ih =>
    unfold Blob.linearSearch entryCount
    simp only [wp_bind, wp_load, wp_ite, wp_pure, implies_true, true_and]
    refine ⟨hv.field (by norm_num), fun hi => ?_⟩
    exact ⟨hv.recordTag (not_le.mp hi), fun _ => ih (index + 1)⟩

theorem Validated.search (tag : ℕ) : wp (Event.Within N) (search tag) m fun _ _ => True := by
  unfold Blob.search flags getEntries entriesStart entryCount
  simp only [wp_bind, wp_load, wp_ite]
  refine ⟨hv.field (by norm_num), hv.field (by norm_num), fun _ => ⟨hv.field (by norm_num), ?_⟩,
    fun _ => ?_⟩
  · exact hv.bsearch tag (wordAt m 12) 0 le_rfl
  · exact hv.linearSearch tag (2 ^ 32) 0

/-- **A search and what it finds lie inside.** -/
theorem Validated.find (tag : ℕ) : wp (Event.Within N) (findAndRead tag) m fun _ _ => True := by
  unfold findAndRead findCameraMetadataEntry
  rw [wp_bind, wp_bind, (search_readOnly tag).wp_iff]
  refine wp_mono (hv.search tag) fun index _ _ => ?_
  cases index with
  | none => exact wp_pure.mpr (wp_pure.mpr trivial)
  | some index =>
    have hget := hv.get index
    unfold getAndRead at hget
    rw [wp_bind] at hget
    exact hget

/-- **A copy reads inside exactly if** the data it counts is inside. -/
theorem Validated.copy_iff :
    (∀ dstSize, wp (Event.Within N) (copyCameraMetadata dstSize) m fun _ _ => True) ↔
      (wordAt m 24 = 0 ∨ wordAt m 32 + wordAt m 24 ≤ N) := by
  unfold copyCameraMetadata entryCount dataCount flags getEntries entriesStart getData dataStart
  simp only [wp_bind, wp_load]
  constructor
  · intro h
    obtain ⟨-, -, h⟩ := h (some (calculateCameraMetadataSize (wordAt m 12) (wordAt m 24)))
    simp only [wp_bind, wp_load, wp_ite, wp_length, wp_touch] at h
    obtain ⟨-, -, -, -, -, -, hdata, -⟩ := h.2 (lt_irrefl _)
    exact hdata
  · intro hdata dstSize
    refine ⟨hv.field (by norm_num), hv.field (by norm_num), ?_⟩
    cases dstSize with
    | none => exact wp_pure.mpr trivial
    | some dstSize =>
      simp only [wp_bind, wp_load, wp_ite, wp_length, wp_touch, wp_pure, implies_true, true_and,
        and_true]
      intro _
      refine ⟨hv.field (by norm_num), hv.field (by norm_num), Int.natCast_nonneg _, ?_,
        hv.field (by norm_num), Int.natCast_nonneg _, hdata⟩
      rcases hv.records with h | h
      · exact Or.inl (by rw [show leNat (m.read 12 4) = 0 from h, Nat.mul_zero])
      · exact Or.inr h

end Readers

/-! ### Deletion -/

/-- The bytes of `entry_count` and `entries_start`, which a deletion reads again after its moves. -/
def rereadBytes : Set ℕ := Set.Ico 12 16 ∪ Set.Ico 20 24

/-- `entry_count` and `entries_start` are those of `m`. -/
def SameHead (m m' : Mem UInt8) : Prop := Set.EqOn m' m rereadBytes

theorem SameHead.entryCount {m' : Mem UInt8} (h : SameHead m m') : wordAt m' 12 = wordAt m 12 := by
  unfold wordAt
  rw [Mem.read_eqOn h fun x hx => Or.inl hx]

theorem SameHead.entriesStart {m' : Mem UInt8} (h : SameHead m m') :
    wordAt m' 20 = wordAt m 20 := by
  unfold wordAt
  rw [Mem.read_eqOn h fun x hx => Or.inr hx]

theorem SameHead.write {m' : Mem UInt8} (h : SameHead m m') {o : ℕ} {src : List UInt8}
    (ho : Disjoint (Set.Ico o (o + src.length)) rereadBytes) : SameHead m (m'.write o src) :=
  Set.EqOn.trans (fun _ hx => Mem.write_eqOn m' o src (Set.disjoint_right.mp ho hx)) h

theorem disjoint_rereadBytes {o n : ℕ} (ho : 24 ≤ o) : Disjoint (Set.Ico o (o + n)) rereadBytes := by
  refine Set.disjoint_left.mpr fun x hx hin => ?_
  have h1 := hx.1
  rcases hin with hin | hin
  · have := hin.2
    omega
  · have := hin.2
    omega

/-- What the deletions of `m` move does not go over `entry_count` or `entries_start`: neither the data
behind the payload of a record, nor the records behind it. -/
def HeadKept (m : Mem UInt8) : Prop := ∀ i < wordAt m 12,
  Disjoint (Set.Ico (recordAt m i) (recordAt m i + 16 * (wordAt m 12 - i - 1))) rereadBytes ∧
  ((record m i).dataSize ≠ 0 → Disjoint (Set.Ico (wordAt m 32 + (record m i).offset)
    (wordAt m 32 + (record m i).offset +
      (wordAt m 24 - (record m i).offset - (record m i).dataSize))) rereadBytes)

/-- Two records or more do not start in the first 24 bytes then. -/
theorem HeadKept.clear (h : HeadKept m) : 24 ≤ wordAt m 20 ∨ wordAt m 12 ≤ 1 := by
  by_contra hno
  rw [not_or, not_le, not_le] at hno
  have hdis := Set.disjoint_left.mp (h 0 (by omega)).1
  have hrec : recordAt m 0 = wordAt m 20 := rfl
  rw [hrec] at hdis
  -- one byte of the first record, for each place it may start at
  rcases Nat.lt_or_ge (wordAt m 20) 13 with h13 | h13
  · exact hdis (a := 12) ⟨by omega, by omega⟩ (Or.inl ⟨by omega, by omega⟩)
  · rcases Nat.lt_or_ge (wordAt m 20) 16 with h16 | h16
    · exact hdis (a := wordAt m 20) ⟨by omega, by omega⟩ (Or.inl ⟨by omega, by omega⟩)
    · rcases Nat.lt_or_ge (wordAt m 20) 21 with h21 | h21
      · exact hdis (a := 20) ⟨by omega, by omega⟩ (Or.inr ⟨by omega, by omega⟩)
      · exact hdis (a := wordAt m 20) ⟨by omega, by omega⟩ (Or.inr ⟨by omega, by omega⟩)

theorem sub32_of_le {a b : ℕ} (ha : a < 2 ^ 32) (h : b ≤ a) : sub32 a b = a - b := by
  unfold sub32
  omega

theorem sizeT_of_nonneg {n : ℤ} (h : 0 ≤ n) (hn : n < 2 ^ 64) : sizeT n = n.toNat := by
  unfold sizeT
  rw [Int.emod_eq_of_lt h hn]

/-- The check stays inside if the records it is told about do, whatever it finds. -/
theorem wp_validate_inside (hN : sizeofCameraMetadata ≤ N)
    (h : wordAt m 12 = 0 ∨ wordAt m 20 + 16 * wordAt m 12 ≤ N) :
    wp (Event.Within N) (validateCameraMetadataStructure ops addr none) m fun _ _ => True := by
  have hhead : ∀ o, o + 4 ≤ 36 → Event.Within N (.access o 4) := fun o ho =>
    Or.inr (by unfold sizeofCameraMetadata at hN; omega)
  have hentry : ∀ i, wordAt m 20 + 16 * i + 16 ≤ N →
      wp (Event.Within N) (validateEntry ops addr (wordAt m 20) i) m fun _ _ => True := by
    intro i hi
    unfold validateEntry getData dataStart dataCapacity
    simp only [wp_ite, wp_bind, wp_loadEntry, wp_load, wp_pure, implies_true, and_true, true_and]
    exact fun _ => ⟨Or.inr hi, fun _ _ _ => ⟨hhead 32 (by norm_num), fun _ => hhead 28 (by norm_num)⟩⟩
  have hloop : ∀ n i, (∀ j < n, wordAt m 20 + 16 * (i + j) + 16 ≤ N) →
      wp (Event.Within N) (validateEntries ops addr (wordAt m 20) n i) m fun _ _ => True := by
    intro n
    induction n with
    | zero => exact fun _ _ => wp_pure.mpr trivial
    | succ n ih =>
      intro i hi
      unfold validateEntries
      rw [wp_bind, (validateEntry_readOnly _ i).wp_iff]
      refine wp_mono (hentry i (hi 0 (by omega))) fun st _ _ => ?_
      rw [wp_ite, wp_pure]
      refine ⟨fun _ => ih (i + 1) fun j hj => ?_, fun _ => trivial⟩
      have := hi (j + 1) (by omega)
      omega
  unfold validateCameraMetadataStructure size entryCount entryCapacity entriesStart dataStart
    dataCapacity
  simp only [wp_ite, wp_bind, wp_load, wp_pure, implies_true, true_and]
  refine fun _ => ⟨hhead 0 (by norm_num), fun _ => ⟨hhead 12 (by norm_num), hhead 16 (by norm_num),
    fun _ => ⟨hhead 20 (by norm_num), hhead 32 (by norm_num), fun _ => ⟨hhead 28 (by norm_num),
      fun _ => hloop _ 0 fun j hj => ?_⟩⟩⟩⟩
  have hj' : j < wordAt m 12 := hj
  omega

section Delete

variable (hv : Validated N m) (hk : HeadKept m)

include hv hk

/-- The loop over the offsets stays inside the records, whatever they have become.  A record that is
alone is compared with itself. -/
theorem Validated.shiftOffsets {index : ℕ} (hi : index < wordAt m 12) (dataBytes fuel i : ℕ)
    {m' : Mem UInt8} (hm : SameHead m m') :
    wp (Event.Within N) (shiftOffsets (wordAt m 20) (recordAt m index) dataBytes fuel i) m'
      fun _ m'' => SameHead m m'' := by
  induction fuel generalizing i m' with
  | zero => exact wp_pure.mpr hm
  | succ fuel ih =>
    unfold Blob.shiftOffsets Blob.entryCount
    simp only [wp_bind, wp_load, wp_ite, wp_pure, wp_store]
    have hcount : leNat (m'.read 12 4) = wordAt m 12 := hm.entryCount
    rw [hcount]
    refine ⟨hv.field (by norm_num), fun _ => hm, fun hlt => ?_⟩
    have hlt : i < wordAt m 12 := not_le.mp hlt
    have hfield : ∀ {o w : ℕ}, o + w ≤ 16 →
        Event.Within N (.access (wordAt m 20 + sizeofBufferEntry * i + o) w) := fun ho =>
      hv.recordField hlt ho
    refine ⟨hfield (by norm_num), hfield (by norm_num), fun _ => ⟨hfield (by norm_num),
      hv.recordField hi (by norm_num), fun hoff => ⟨hfield (by norm_num), ih (i + 1) ?_⟩,
      fun _ => ih (i + 1) hm⟩, fun _ => ih (i + 1) hm⟩
    rcases hk.clear with hes | hone
    · exact hm.write (disjoint_rereadBytes (by omega))
    · obtain rfl : i = index := by omega
      exact absurd hoff (lt_irrefl _)

/-- The data is moved inside, and `entry_count` and `entries_start` stay. -/
theorem Validated.removeData (hd : DataCounted N m) {index : ℕ} (hi : index < wordAt m 12)
    (h0 : (record m index).dataSize ≠ 0) :
    wp (Event.Within N) (removeData (recordAt m index) (record m index).dataSize) m
      fun _ m' => SameHead m m' := by
  have hle : (record m index).offset + (record m index).dataSize ≤ wordAt m 24 := hd.entries index hi h0
  have h24 := wordAt_lt m 24
  have hstart := hv.entries_le
  have hin : wordAt m 32 + wordAt m 24 ≤ N := hd.data.resolve_left (by omega)
  have hlen : sizeT (sub32 (wordAt m 24) (record m index).offset - (record m index).dataSize) =
      wordAt m 24 - (record m index).offset - (record m index).dataSize := by
    rw [sub32_of_le h24 (by omega), sizeT_of_nonneg (by omega) (by omega)]
    omega
  unfold Blob.removeData getData dataStart dataCount getEntries entriesStart
  simp only [wp_bind, wp_load, wp_length, wp_move, wp_store]
  refine ⟨hv.field (by norm_num), hv.recordField hi (by norm_num), hv.field (by norm_num), ?_, ?_⟩
  · show (0 : ℤ) ≤ wordAt m 24 - (record m index).offset - (record m index).dataSize
    omega
  · have hread : wordAt m 32 + (record m index).offset + (record m index).dataSize +
        sizeT (sub32 (wordAt m 24) (record m index).offset - (record m index).dataSize) ≤ N := by
      rw [hlen]
      omega
    have hwrite : wordAt m 32 + (record m index).offset +
        sizeT (sub32 (wordAt m 24) (record m index).offset - (record m index).dataSize) ≤ N := by
      omega
    have hmoved : SameHead m (m.write (wordAt m 32 + (record m index).offset)
        (m.read (wordAt m 32 + (record m index).offset + (record m index).dataSize)
          (sizeT (sub32 (wordAt m 24) (record m index).offset - (record m index).dataSize)))) := by
      refine SameHead.write (fun _ _ => rfl) ?_
      rw [Mem.length_read, hlen]
      exact (hk index hi).2 h0
    refine ⟨Or.inr hread, Or.inr hwrite, hv.field (by norm_num), ?_⟩
    have hes' := hmoved.entriesStart
    have hloop := hv.shiftOffsets hk hi (record m index).dataSize (2 ^ 32) 0 hmoved
    rw [← hes'] at hloop
    refine wp_mono hloop fun _ m' hm' => ⟨hv.field (by norm_num), hv.field (by norm_num), ?_⟩
    exact hm'.write (disjoint_rereadBytes le_rfl)

/-- The records are moved inside; the packet has one record less. -/
theorem Validated.removeEntry {index : ℕ} (hi : index < wordAt m 12) {m' : Mem UInt8}
    (hm : SameHead m m') :
    wp (Event.Within N) (removeEntry (recordAt m index) index) m'
      fun _ m'' => wordAt m'' 12 = wordAt m 12 - 1 ∧ wordAt m'' 20 = wordAt m 20 := by
  have h12 := wordAt_lt m 12
  have hin : wordAt m 20 + 16 * wordAt m 12 ≤ N := hv.records.resolve_left (by omega)
  have hcount : leNat (m'.read 12 4) = wordAt m 12 := hm.entryCount
  have hlen : sizeT (sizeofBufferEntry * (wordAt m 12 - index - 1)) =
      16 * (wordAt m 12 - index - 1) := by
    unfold sizeofBufferEntry
    rw [sizeT_of_nonneg (by omega) (by omega)]
    omega
  unfold Blob.removeEntry Blob.entryCount
  simp only [wp_bind, wp_load, wp_length, wp_move, wp_store]
  rw [hcount, hlen]
  set m₁ := m'.write (recordAt m index)
    (m'.read (recordAt m index + sizeofBufferEntry) (16 * (wordAt m 12 - index - 1)))
  have hm₁ : SameHead m m₁ := by
    refine hm.write ?_
    rw [Mem.length_read]
    exact (hk index hi).1
  have hcount' : leNat (m₁.read 12 4) = wordAt m 12 := hm₁.entryCount
  rw [hcount', sub32_of_le h12 (by omega)]
  refine ⟨hv.field (by norm_num), ?_, Or.inr ?_, Or.inr ?_, hv.field (by norm_num),
    hv.field (by norm_num), ?_, ?_⟩
  · show (0 : ℤ) ≤ sizeofBufferEntry * (wordAt m 12 - index - 1)
    unfold sizeofBufferEntry
    omega
  · unfold recordAt sizeofBufferEntry
    omega
  · unfold recordAt sizeofBufferEntry
    omega
  · have hself := Mem.read_write_self (m := m₁) 12 (leBytes 4 (wordAt m 12 - 1))
    rw [length_leBytes] at hself
    show leNat (Mem.read _ 12 4) = _
    rw [hself, leNat_leBytes (by norm_num; omega)]
  · show leNat (Mem.read _ 20 4) = _
    rw [Mem.read_eqOn (Mem.write_eqOn m₁ 12 _) fun x hx => ?_]
    · exact hm₁.entriesStart
    · rintro ⟨h1, h2⟩
      have h3 := hx.1
      rw [length_leBytes] at h2
      omega

/-- **A deletion stays inside** if the data is counted. -/
theorem Validated.delete (hd : DataCounted N m) (index : ℕ) :
    wp (Event.Within N) (deleteCameraMetadataEntry ops addr index) m fun _ _ => True := by
  have hend : ∀ {m' : Mem UInt8}, SameHead m m' → index < wordAt m 12 →
      wp (Event.Within N) (Blob.removeEntry (recordAt m index) index) m' fun _ m'' =>
        wp (Event.Within N) (validateCameraMetadataStructure ops addr none) m'' fun _ _ => True := by
    intro m' hm hi
    refine wp_mono (hv.removeEntry hk hi hm) fun _ m'' hm'' => wp_validate_inside hv.header ?_
    have hin : wordAt m 20 + 16 * wordAt m 12 ≤ N := hv.records.resolve_left (by omega)
    exact Or.inr (by omega)
  unfold deleteCameraMetadataEntry entryCount getEntries entriesStart
  simp only [wp_bind, wp_load, wp_ite, wp_pure, implies_true, true_and]
  refine ⟨hv.field (by norm_num), fun hi => ?_⟩
  have hi : index < wordAt m 12 := not_le.mp hi
  refine ⟨hv.field (by norm_num), hv.recordField hi (by norm_num), hv.recordField hi (by norm_num),
    fun hlong => ?_, fun _ => hend (fun _ _ => rfl) hi⟩
  exact wp_mono (hv.removeData hk hd hi (Nat.pos_iff_ne_zero.mp hlong)) fun _ m' hm => hend hm hi

end Delete

/-! ### Soundness of the check -/

/-- What is read or written, payloads included, lies in the `N` bytes, and no length is negative. -/
structure ConsumersInside (ops : Option VendorTagOps) (addr N : ℕ) (m : Mem UInt8) : Prop where
  get : ∀ index, wp (Event.Within N) (getAndRead index) m fun _ _ => True
  find : ∀ tag, wp (Event.Within N) (findAndRead tag) m fun _ _ => True
  delete : ∀ index, wp (Event.Within N) (deleteCameraMetadataEntry ops addr index) m fun _ _ => True
  copy : ∀ dstSize, wp (Event.Within N) (copyCameraMetadata dstSize) m fun _ _ => True

/-- The length of a deletion shows that the payload is counted. -/
theorem DataCounted.of_inside (hv : Validated N m) (h : ConsumersInside ops addr N m) :
    DataCounted N m := by
  refine ⟨hv.copy_iff.mp h.copy, fun i hi h0 => ?_⟩
  have hdel := h.delete i
  unfold deleteCameraMetadataEntry removeData entryCount getEntries entriesStart getData dataStart
    dataCount at hdel
  simp only [wp_bind, wp_load, wp_ite, wp_length] at hdel
  obtain ⟨-, -, hdel⟩ := hdel
  obtain ⟨-, -, -, hlong, -⟩ := hdel (not_le.mpr hi)
  obtain ⟨-, -, -, hlen, -⟩ := hlong (Nat.pos_iff_ne_zero.mpr h0)
  have hlen' : (0 : ℤ) ≤ wordAt m 24 - (record m i).offset - (record m i).dataSize := hlen
  omega

/-- **A packet that passes the check is safe to use exactly if** its payloads are within the data that
is counted, and this is inside: in general the condition is necessary, and if no deletion goes over
`entry_count` or `entries_start` it is sufficient. -/
theorem consumersInside_iff (ha : 8 ∣ addr)
    (hok : wp (Event.Within N) (validateCameraMetadataStructure ops addr (some N)) m
      fun st _ => st = .ok) :
    (ConsumersInside ops addr N m → DataCounted N m) ∧
      (HeadKept m → (ConsumersInside ops addr N m ↔ DataCounted N m)) := by
  have hv := Validated.of_wp ha hok
  exact ⟨.of_inside hv, fun hk => ⟨.of_inside hv, fun hd =>
    ⟨hv.get, hv.find, hv.delete hk hd, hv.copy_iff.mpr hd.data⟩⟩⟩

/-- A packet of 64 bytes with one record, an `ANDROID_SENSOR_EXPOSURE_TIME`, and its payload; `count`
is its `data_count`. -/
def demoBlob (count : ℕ) : Mem UInt8 := fun x =>
  ((words 4 [64, 1, 0, 1, 1, 36, count, 8, 56, sensorExposureTime, 1, 0, 3] ++
    List.replicate 12 0)[x]?).getD 0

theorem demoBlob_ok (count : ℕ) (h : count = 0 ∨ count = 8) : wp (Event.Within 64)
    (validateCameraMetadataStructure none 0 (some 64)) (demoBlob count) fun st _ => st = .ok := by
  rcases h with rfl | rfl
  · exact ⟨by decide +kernel, by decide +kernel⟩
  · exact ⟨by decide +kernel, by decide +kernel⟩

/-- A packet of 65544 bytes whose one record is the header itself: its tag is `size`, its count is
`version`, and its type is the low byte of `entry_count`. -/
def demoFolded : Mem UInt8 := fun x => ((words 4 [65544, 1, 0, 1, 1, 0, 0, 0, 40])[x]?).getD 0

theorem demoFolded_ok : wp (Event.Within 65544)
    (validateCameraMetadataStructure none 0 (some 65544)) demoFolded fun st _ => st = .ok :=
  ⟨by decide +kernel, by decide +kernel⟩

theorem consumersInside_iff_demo :
    ConsumersInside none 0 64 (demoBlob 8) ∧ ConsumersInside none 0 65544 demoFolded := by
  have hone : ∀ i, i < 1 → i = 0 := fun i hi => by omega
  constructor
  · refine ((consumersInside_iff (Nat.dvd_zero 8) (demoBlob_ok 8 (Or.inr rfl))).2 ?_).mpr
      ⟨Or.inr (by decide +kernel), fun i hi _ => ?_⟩
    · intro i hi
      obtain rfl := hone i hi
      have h1 : 24 ≤ recordAt (demoBlob 8) 0 := by decide +kernel
      have h2 : 24 ≤ wordAt (demoBlob 8) 32 + (record (demoBlob 8) 0).offset := by decide +kernel
      exact ⟨disjoint_rereadBytes h1, fun _ => disjoint_rereadBytes h2⟩
    · obtain rfl := hone i hi
      decide +kernel
  · refine ((consumersInside_iff (Nat.dvd_zero 8) demoFolded_ok).2 ?_).mpr
      ⟨Or.inl (by decide +kernel), fun i hi h0 => ?_⟩
    · intro i hi
      obtain rfl := hone i hi
      -- the record is inline and alone: nothing is moved
      refine ⟨?_, fun h0 => absurd ?_ h0⟩
      · have hlen : 16 * (wordAt demoFolded 12 - 0 - 1) = 0 := by decide +kernel
        rw [hlen, Nat.add_zero, Set.Ico_self]
        exact Set.empty_disjoint _
      · decide +kernel
    · obtain rfl := hone i hi
      exact absurd (by decide +kernel) h0

/-- The packet passes the check and counts no data: the length of the deletion is -8. -/
theorem not_consumersInside : ¬ ∀ (ops : Option VendorTagOps) (addr N : ℕ) (m : Mem UInt8),
    8 ∣ addr → wp (Event.Within N) (validateCameraMetadataStructure ops addr (some N)) m
      (fun st _ => st = .ok) → ConsumersInside ops addr N m := by
  intro h
  have hok := demoBlob_ok 0 (Or.inl rfl)
  have hd := DataCounted.of_inside (Validated.of_wp (Nat.dvd_zero 8) hok)
    (h none 0 64 (demoBlob 0) (Nat.dvd_zero 8) hok)
  exact absurd (hd.entries 0 (by decide +kernel) (by decide +kernel)) (by decide +kernel)

end Blob

end IntelCamera
