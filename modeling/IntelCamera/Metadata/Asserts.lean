import IntelCamera.Metadata.Lookup

/-!
# Metadata.Asserts — the assertions of `camera_metadata.c`

Unless `NDEBUG` is defined, the operations end in
`assert(validate_camera_metadata_structure(dst, NULL) == OK)`: they refuse before it, or return `OK` with a
packet that passes, or end the process, which is `none`.  Where the packet lies plays no role
(`validate_addr`); `malloc` aligns what it returns.

For a packet with the layout and the types of `camera_metadata.c` the check comes down to one thing
(`asserted_iff`): a record of no values has a zero data word.  An update to no values that meets another
data word is the one way to break it (`update_zeroed_iff`).  `update_others` and `update_to_none` say what
an update does to the records.
-/

namespace IntelCamera

open Lib

/-- What `assert` asks of a packet. -/
def Asserted (ops : Option VendorTagOps) (m : Metadata) : Prop :=
  validateCameraMetadataStructure ops 0 m none = .ok

instance (ops : Option VendorTagOps) (m : Metadata) : Decidable (Asserted ops m) :=
  inferInstanceAs (Decidable (_ = _))

namespace Asserting

/-- The assertion at the end of an operation, which one that refuses does not reach. -/
def closing (ops : Option VendorTagOps) (r : Status × Metadata) : Option (Status × Metadata) :=
  if r.1 = .ok ∧ ¬ Asserted ops r.2 then none else some r

/-- `allocate_camera_metadata`, the assertion being that of `place_camera_metadata`. -/
def allocateCameraMetadata (L : Libc) (ops : Option VendorTagOps) (entryCapacity dataCapacity : ℕ) :
    Option (Option Metadata) :=
  match IntelCamera.allocateCameraMetadata L entryCapacity dataCapacity with
  | none => some none
  | some metadata => if Asserted ops metadata then some (some metadata) else none

/-- `append_camera_metadata`. -/
def appendCameraMetadata (ops : Option VendorTagOps) (dst src : Metadata) :
    Option (Status × Metadata) :=
  closing ops (IntelCamera.appendCameraMetadata dst src)

/-- `add_camera_metadata_entry`, the assertion being that of `add_camera_metadata_entry_raw`. -/
def addCameraMetadataEntry (ops : Option VendorTagOps) (dst : Metadata) (tag : ℕ)
    (data : Option (List UInt8)) (dataCount : ℕ) : Option (Status × Metadata) :=
  closing ops (IntelCamera.addCameraMetadataEntry ops dst tag data dataCount)

/-- `update_camera_metadata_entry`. -/
def updateCameraMetadataEntry (ops : Option VendorTagOps) (dst : Metadata) (index : ℕ)
    (data : List UInt8) (dataCount : ℕ) : Option (Status × Metadata) :=
  closing ops (IntelCamera.updateCameraMetadataEntry dst index data dataCount)

theorem closing_asserted {ops : Option VendorTagOps} {r : Status × Metadata} (h : Asserted ops r.2) :
    closing ops r = some r := if_neg fun hc => hc.2 h

theorem closing_fails {ops : Option VendorTagOps} {r : Status × Metadata} (hok : r.1 = .ok)
    (h : ¬ Asserted ops r.2) : closing ops r = none := if_pos ⟨hok, h⟩

end Asserting

/-! ### The check -/

section Check

variable {ops : Option VendorTagOps} {m : Metadata}

/-- Alignment is not changed by an aligned address. -/
theorem aligned_add_iff {addr a : ℕ} (ha : a ∣ addr) (h0 : 0 < a) (n : ℕ) :
    addr + n = alignTo (addr + n) a ↔ 0 + n = alignTo (0 + n) a := by
  rw [eq_alignTo_iff h0, eq_alignTo_iff h0, Nat.zero_add]
  exact (Nat.dvd_add_iff_right ha).symm

theorem validateEntry_addr {addr : ℕ} (ha : 8 ∣ addr) (m : Metadata) (i : ℕ) (e : BufferEntry) :
    validateEntry ops addr m i e = validateEntry ops 0 m i e := by
  have h4 := aligned_add_iff (a := entryAlignment) (dvd_trans (by decide) ha) (by decide)
  have h8 := aligned_add_iff (a := dataAlignment) ha (by decide)
  unfold validateEntry
  simp only [Nat.add_assoc, ne_eq, h4, h8]

theorem validateEntries_addr {addr : ℕ} (ha : 8 ∣ addr) (m : Metadata) (l : List BufferEntry) (i : ℕ) :
    validateEntries ops addr m i l = validateEntries ops 0 m i l := by
  induction l generalizing i with
  | nil => rfl
  | cons e l ih =>
    unfold validateEntries
    rw [validateEntry_addr ha, ih]

/-- **Where the packet lies plays no role.** -/
theorem validate_addr {addr : ℕ} (ha : 8 ∣ addr) (m : Metadata) (n : Option ℕ) :
    validateCameraMetadataStructure ops addr m n = validateCameraMetadataStructure ops 0 m n := by
  have hal : [metadataAlignment, entryAlignment, dataAlignment].all (fun a => addr = alignTo addr a) =
      [metadataAlignment, entryAlignment, dataAlignment].all (fun a => 0 = alignTo 0 a) := by
    have hm := aligned_add_iff (a := metadataAlignment) (dvd_trans (by decide) ha) (by decide) 0
    have he := aligned_add_iff (a := entryAlignment) (dvd_trans (by decide) ha) (by decide) 0
    have hd := aligned_add_iff (a := dataAlignment) ha (by decide) 0
    simp only [Nat.add_zero] at hm he hd
    simp only [List.all_cons, List.all_nil, hm, he, hd]
  unfold validateCameraMetadataStructure
  rw [hal, validateEntries_addr ha]

/-- A packet passes only if its records do. -/
theorem validateEntries_mem {addr i : ℕ} {l : List BufferEntry}
    (h : validateEntries ops addr m i l = .ok) {e : BufferEntry} (he : e ∈ l) :
    ∃ j, validateEntry ops addr m j e = .ok := by
  induction l generalizing i with
  | nil => cases he
  | cons f l ih =>
    unfold validateEntries at h
    split at h
    · next hf =>
      rcases List.mem_cons.mp he with rfl | he
      · exact ⟨i, hf⟩
      · exact ih h he
    · cases h

/-- A record of no values has a zero data word. -/
def Zeroed (m : Metadata) : Prop := ∀ e ∈ m.entries, e.count = 0 → e.offset = 0

theorem validateEntry_zeroed {addr i : ℕ} {e : BufferEntry} (h : validateEntry ops addr m i e = .ok)
    (h0 : e.count = 0) : e.offset = 0 := by
  by_contra hne
  unfold validateEntry at h
  dsimp only at h
  rw [if_neg (not_not.mpr (dataSize_of_count_zero h0)), if_pos h0, if_pos hne] at h
  split_ifs at h

theorem Asserted.zeroed (h : Asserted ops m) : Zeroed m := by
  intro e he h0
  unfold Asserted validateCameraMetadataStructure at h
  dsimp only at h
  split_ifs at h
  obtain ⟨i, hi⟩ := validateEntries_mem h he
  exact validateEntry_zeroed hi h0

/-- The records of a packet of well-typed entries, but for the data words. -/
theorem IsTyped.checked {B : ℕ} (h : IsTyped ops B m) (hz : Zeroed m) : ∀ e ∈ m.entries, Checked e := by
  refine fun e he => ⟨fun ht => ?_, hz e he⟩
  rw [← tagType_android ops ht]
  exact h.typed (m.absEntry e) (List.mem_map_of_mem he)

/-- **The assertion holds exactly of zeroed packets**, among those with well-typed entries. -/
theorem asserted_iff {B : ℕ} (hB : B ≤ 2 ^ 32) (h : IsTyped ops B m) : Asserted ops m ↔ Zeroed m := by
  refine ⟨Asserted.zeroed, fun hz => ?_⟩
  obtain ⟨ec, dc, hg, hsz⟩ := h.sound.geometry
  exact validate_ok h.sound.wf hg (lt_of_lt_of_le hsz hB) (h.checked hz) (dvd_zero 8)

end Check

/-! ### The records after an update -/

section Update

variable {ops : Option VendorTagOps} {m : Metadata} {i n : ℕ} {e : BufferEntry} {data : List UInt8}

/-- The other records move down when the data of the record updated is taken out. -/
theorem update_others (hi : m.entries[i]? = some e) (hok : (updateCameraMetadataEntry m i data n).1 = .ok)
    {j : ℕ} (hij : i ≠ j) : (updateCameraMetadataEntry m i data n).2.entries[j]? =
      (m.entries[j]?).map fun f =>
        if calculateCameraMetadataEntryDataSize e.type n ≠ e.dataSize ∧ e.dataSize ≠ 0 then
          shiftOffset e.offset e.dataSize f else f := by
  have hkeep : m.entries[j]? = (m.entries[j]?).map fun f => f := Option.map_id'.symm
  have hmove : (removeData m e).entries[j]? =
      (m.entries[j]?).map (shiftOffset e.offset e.dataSize) := List.getElem?_map
  unfold updateCameraMetadataEntry at hok ⊢
  rw [hi] at hok ⊢
  dsimp only at hok ⊢
  by_cases hc : calculateCameraMetadataEntryDataSize e.type n ≠ e.dataSize ∧ e.dataSize ≠ 0
  · simp only [if_pos hc] at hok ⊢
    rw [← hmove]
    split_ifs at hok ⊢ <;> exact List.getElem?_set_ne hij
  · simp only [if_neg hc] at hok ⊢
    rw [← hkeep]
    split_ifs at hok ⊢ <;> exact List.getElem?_set_ne hij

/-- **An update to no values leaves the data word.** -/
theorem update_to_none (hi : m.entries[i]? = some e)
    (hok : (updateCameraMetadataEntry m i data 0).1 = .ok) :
    (updateCameraMetadataEntry m i data 0).2.entries[i]? = some { e with count := 0 } := by
  have hlt := (List.getElem?_eq_some_iff.mp hi).1
  have hs0 : calculateCameraMetadataEntryDataSize e.type 0 = 0 :=
    dataSize_of_count_zero (e := ⟨0, 0, [], e.type⟩) rfl
  have hword : memcpy e.value 0 (data.take (0 * cameraMetadataTypeSize e.type)) = e.value := by
    simp [memcpy]
  have hlen : (removeData m e).entries.length = m.entries.length := List.length_map _
  unfold updateCameraMetadataEntry at hok ⊢
  rw [hi] at hok ⊢
  dsimp only at hok ⊢
  rw [hs0, hword] at hok ⊢
  rw [if_pos rfl] at hok ⊢
  split_ifs at hok ⊢
  · exact List.getElem?_set_self (by rwa [hlen])
  · exact List.getElem?_set_self hlt

/-- **The data word decides** whether the packet is still zeroed. -/
theorem update_zeroed_iff (hz : Zeroed m) (hi : m.entries[i]? = some e)
    {B : ℕ} (hm : IsTyped ops B m) (hok : (updateCameraMetadataEntry m i data n).1 = .ok) :
    Zeroed (updateCameraMetadataEntry m i data n).2 ↔ (n = 0 → e.offset = 0) := by
  constructor
  · rintro h rfl
    exact h { e with count := 0 } (List.mem_of_getElem? (update_to_none hi hok)) rfl
  · intro h f hf hf0
    refine (update_checked hm.sound.wf (hm.checked hz) (fun e' he' => ?_) f hf).empty hf0
    rw [hi] at he'
    obtain rfl := Option.some.inj he'
    exact h

end Update

end IntelCamera
