import IntelCamera.Metadata.Refine

/-!
# Metadata.Validate — `validate_camera_metadata_structure`

The structural check that every operation of `camera_metadata.c` asserts on its result, and the
invariant behind it.  `Checked e` is what the check asks of a record beyond the layout: the type of
an Android tag is the one in the table, and an empty record has a zero data word.  Every operation
keeps it except an update to zero values, which leaves the old data word in place
(`update_checked`).
-/

namespace IntelCamera

open Lib

def metadataAlignment : ℕ := 4

/-- The checks on the record `i`, in a packet at address `addr`. -/
def validateEntry (ops : Option VendorTagOps) (addr : ℕ) (m : Metadata) (i : ℕ)
    (entry : BufferEntry) : Status :=
  let entryAddr := addr + m.entriesStart + sizeofBufferEntry * i
  if entryAddr ≠ alignTo entryAddr entryAlignment then .error else
  if numTypes ≤ entry.type then .error else
  let tagSection := entry.tag / 2 ^ 16
  let tagType := getCameraMetadataTagType ops entry.tag
  if tagType.map MetaType.code ≠ some entry.type ∧ tagSection < vendorSection then .error else
  if entry.dataSize ≠ 0 then
    let data := addr + m.dataStart + entry.offset
    if data ≠ alignTo data dataAlignment then .error else
    let dataEntryEnd := entry.offset + entry.dataSize
    if dataEntryEnd < entry.offset ∨ m.dataCapacity < dataEntryEnd then .error else .ok
  else if entry.count = 0 then
    if entry.offset ≠ 0 then .error else .ok
  else .ok

/-- The loop over the records, from the index `i` on. -/
def validateEntries (ops : Option VendorTagOps) (addr : ℕ) (m : Metadata) :
    ℕ → List BufferEntry → Status
  | _, [] => .ok
  | i, entry :: rest =>
    match validateEntry ops addr m i entry with
    | .ok => validateEntries ops addr m (i + 1) rest
    | _ => .error

/-- `validate_camera_metadata_structure` of a packet at address `addr`. -/
def validateCameraMetadataStructure (ops : Option VendorTagOps) (addr : ℕ) (m : Metadata)
    (expectedSize : Option ℕ) : Status :=
  if ¬ [metadataAlignment, entryAlignment, dataAlignment].all (fun a => addr = alignTo addr a) then
    .error else
  if (expectedSize.any fun n => n < m.size) = true then .error else
  if m.entryCapacity < m.entryCount then .error else
  let entriesEnd := u32 (m.entriesStart + m.entryCapacity)
  if entriesEnd < m.entriesStart ∨ m.dataStart < entriesEnd then .error else
  let dataEnd := u32 (m.dataStart + m.dataCapacity)
  if dataEnd < m.dataStart ∨ m.size < dataEnd then .error else
  validateEntries ops addr m 0 m.entries

/-! ### When the checks pass -/

theorem eq_alignTo_iff {n a : ℕ} (ha : 0 < a) : n = alignTo n a ↔ a ∣ n := by
  constructor
  · intro h
    rw [h]
    exact dvd_alignTo n a
  · rintro ⟨k, rfl⟩
    unfold alignTo
    rw [Nat.mul_add_div ha, Nat.div_eq_of_lt (by omega), Nat.add_zero, Nat.mul_comm]

/-- What the check asks of a record beyond its place in the data area. -/
structure Checked (e : BufferEntry) : Prop where
  type_eq : e.tag / 2 ^ 16 < vendorSection →
    (getCameraMetadataTagType none e.tag).map MetaType.code = some e.type
  empty : e.count = 0 → e.offset = 0

/-- The installed vendor operations have no say in an Android section. -/
theorem tagType_android (ops : Option VendorTagOps) {tag : ℕ} (h : tag / 2 ^ 16 < vendorSection) :
    getCameraMetadataTagType ops tag = getCameraMetadataTagType none tag := by
  cases ops with
  | none => rfl
  | some o =>
    unfold getCameraMetadataTagType
    dsimp only
    rw [if_neg (by omega)]

section Pass

variable {ops : Option VendorTagOps} {addr : ℕ} {m : Metadata}

theorem validateEntry_ok {i : ℕ} {e : BufferEntry} (h : EntryWF e) (hc : Checked e)
    (ha : 8 ∣ addr) (hes : 4 ∣ m.entriesStart) (hds : 8 ∣ m.dataStart)
    (hr : 0 < e.dataSize → 8 ∣ e.offset ∧ e.offset + e.dataSize ≤ m.dataCapacity) :
    validateEntry ops addr m i e = .ok := by
  have h1 : addr + m.entriesStart + sizeofBufferEntry * i =
      alignTo (addr + m.entriesStart + sizeofBufferEntry * i) entryAlignment := by
    rw [eq_alignTo_iff (by decide)]
    unfold entryAlignment sizeofBufferEntry
    omega
  have h2 := h.type_lt
  have h3 : ¬ ((getCameraMetadataTagType ops e.tag).map MetaType.code ≠ some e.type ∧
      e.tag / 2 ^ 16 < vendorSection) := by
    rintro ⟨hne, hlt⟩
    rw [tagType_android ops hlt] at hne
    exact hne (hc.type_eq hlt)
  unfold validateEntry
  dsimp only
  rw [if_neg (not_not.mpr h1), if_neg (by omega), if_neg h3]
  by_cases hs : e.dataSize = 0
  · rw [if_neg (not_not.mpr hs)]
    by_cases h0 : e.count = 0
    · rw [if_pos h0, if_neg (not_not.mpr (hc.empty h0))]
    · rw [if_neg h0]
  · obtain ⟨hr1, hr2⟩ := hr (Nat.pos_of_ne_zero hs)
    have h4 : addr + m.dataStart + e.offset =
        alignTo (addr + m.dataStart + e.offset) dataAlignment := by
      rw [eq_alignTo_iff (by decide)]
      unfold dataAlignment
      omega
    rw [if_pos hs, if_neg (not_not.mpr h4), if_neg (by omega)]

theorem validateEntries_ok {l : List BufferEntry} (h : ∀ i, ∀ e ∈ l, validateEntry ops addr m i e = .ok)
    (i : ℕ) : validateEntries ops addr m i l = .ok := by
  induction l generalizing i with
  | nil => rfl
  | cons e l ih =>
    unfold validateEntries
    rw [h i e List.mem_cons_self]
    exact ih (fun j f hf => h j f (List.mem_cons_of_mem e hf)) (i + 1)

/-- **A sound packet of checked records passes**, at every 8-aligned address. -/
theorem validate_ok {ec dc : ℕ} (hw : WF m) (hg : Geometry m ec dc)
    (hsz : calculateCameraMetadataSize ec dc < 2 ^ 32) (hc : ∀ e ∈ m.entries, Checked e)
    (ha : 8 ∣ addr) : validateCameraMetadataStructure ops addr m none = .ok := by
  have hal := le_alignTo (36 + 16 * ec)
  have hdv := dvd_alignTo (36 + 16 * ec) 8
  have hle := hw.entries_le
  have hdvd := (hw.tiles.dvd fun _ hr => dvd_of_mem_regions hr).1
  have hcap := hw.dataCount_le
  obtain ⟨hsize, hec, hes, hdc, hds⟩ := hg
  rw [calculateSize_eq] at hsize hsz
  have hu1 : u32 (m.entriesStart + m.entryCapacity) = 36 + ec := by
    rw [hes, hec]
    exact Nat.mod_eq_of_lt (by omega)
  have hu2 : u32 (m.dataStart + m.dataCapacity) = alignTo (36 + 16 * ec) 8 + dc := by
    rw [hds, hdc]
    exact Nat.mod_eq_of_lt hsz
  have halign : [metadataAlignment, entryAlignment, dataAlignment].all
      (fun a => addr = alignTo addr a) = true := by
    simp only [List.all_cons, List.all_nil, Bool.and_true, Bool.and_eq_true, decide_eq_true_eq]
    rw [eq_alignTo_iff (by decide), eq_alignTo_iff (by decide), eq_alignTo_iff (by decide)]
    unfold metadataAlignment entryAlignment dataAlignment
    omega
  unfold validateCameraMetadataStructure
  dsimp only
  rw [if_neg (not_not.mpr halign), if_neg (by simp), hu1, hu2, if_neg, if_neg (by omega),
    if_neg (by omega)]
  · refine validateEntries_ok (fun i e he => ?_) 0
    refine validateEntry_ok (hw.entry e he) (hc e he) ha (by omega) (by omega) (fun hs => ?_)
    have := hw.region_le he hs
    exact ⟨hdvd _ (mem_regions he hs), by omega⟩
  · unfold Metadata.entryCount
    omega

end Pass

/-! ### The operations keep the records checked -/

theorem dataSize_of_count_zero {e : BufferEntry} (h : e.count = 0) : e.dataSize = 0 := by
  unfold BufferEntry.dataSize calculateCameraMetadataEntryDataSize
  rw [h]
  split_ifs <;> simp

/-- A new data word for an out-of-line payload is no concern of the check. -/
theorem Checked.set_value {e : BufferEntry} (h : Checked e) (hs : 0 < e.dataSize)
    (v : List UInt8) : Checked { e with value := v } := by
  refine ⟨h.type_eq, fun h0 => ?_⟩
  have := dataSize_of_count_zero (e := e) h0
  omega

theorem Checked.shiftOffset {e : BufferEntry} (h : Checked e) (o b : ℕ) :
    Checked (shiftOffset o b e) := by
  unfold IntelCamera.shiftOffset
  split_ifs with hc
  · exact h.set_value hc.1 _
  · exact h

theorem Checked.movedEntry {e : BufferEntry} (h : Checked e) (n : ℕ) : Checked (movedEntry n e) := by
  unfold IntelCamera.movedEntry
  split_ifs with hs
  · exact h.set_value hs _
  · exact h

theorem removeData_checked {m : Metadata} (h : ∀ e ∈ m.entries, Checked e) (x : BufferEntry) :
    ∀ e ∈ (removeData m x).entries, Checked e := by
  intro e he
  obtain ⟨f, hf, rfl⟩ := List.mem_map.mp he
  exact (h f hf).shiftOffset _ _

section Steps

variable {L : Libc} {ops : Option VendorTagOps} {m : Metadata}

/-- The record of an add: a zero word below an empty payload. -/
theorem add_checked (hw : WF m) (h : ∀ e ∈ m.entries, Checked e) (tag : ℕ) (data : List UInt8)
    (n : ℕ) : ∀ e ∈ (addCameraMetadataEntry ops m tag (some data) n).2.entries, Checked e := by
  unfold addCameraMetadataEntry
  cases ht : getCameraMetadataTagType ops tag with
  | none => exact h
  | some t =>
    dsimp only
    by_cases hok : (addCameraMetadataEntryRaw m tag t.code (some data) n).1 = .ok
    · have htype : tag / 2 ^ 16 < vendorSection →
          (getCameraMetadataTagType none tag).map MetaType.code = some t.code := by
        intro hlt
        rw [← tagType_android ops hlt, ht]
        rfl
      rw [addRaw_eq hw t.code_lt hok]
      split_ifs with h0
      · rintro e he
        rcases List.mem_append.mp he with he | he
        · exact h e he
        · obtain rfl := List.mem_singleton.mp he
          refine ⟨htype, ?_⟩
          rintro rfl
          simp [BufferEntry.offset, memcpy, leNat]
      · rintro e he
        rcases List.mem_append.mp he with he | he
        · exact h e he
        · obtain rfl := List.mem_singleton.mp he
          refine ⟨htype, fun hn => absurd ?_ h0⟩
          exact dataSize_of_count_zero (e := ⟨tag, n, [], t.code⟩) hn
    · rw [addRaw_refused hok]
      exact h

/-- **An update to no values keeps the old data word**, so the old word has to be zero. -/
theorem update_checked (hw : WF m) (h : ∀ e ∈ m.entries, Checked e) {i : ℕ} {data : List UInt8}
    {n : ℕ} (hz : ∀ e, m.entries[i]? = some e → n = 0 → e.offset = 0) :
    ∀ e ∈ (updateCameraMetadataEntry m i data n).2.entries, Checked e := by
  by_cases hok : (updateCameraMetadataEntry m i data n).1 = .ok
  swap
  · rw [update_refused hok]
    exact h
  cases hi : m.entries[i]? with
  | none =>
    rw [update_none hi]
    exact h
  | some e =>
    have he := h e (List.mem_of_getElem? hi)
    have hc := update_count hw hi hok
    have hset : ∀ (m' : Metadata) (e' : BufferEntry), (∀ f ∈ m'.entries, Checked f) → Checked e' →
        ∀ f ∈ m'.entries.set i e', Checked f := by
      intro m' e' hm he' f hf
      rcases List.mem_or_eq_of_mem_set hf with hf | rfl
      · exact hm f hf
      · exact he'
    have hin : Checked { e with
        count := n
        value := memcpy e.value 0 (data.take (n * cameraMetadataTypeSize e.type)) } := by
      refine ⟨he.type_eq, ?_⟩
      rintro rfl
      have hv : memcpy e.value 0 (data.take (0 * cameraMetadataTypeSize e.type)) = e.value := by
        simp [memcpy]
      rw [hv]
      exact hz e hi rfl
    have hout : calculateCameraMetadataEntryDataSize e.type n ≠ 0 → ∀ v : List UInt8,
        Checked { e with count := n, value := v } := by
      intro h0 v
      refine ⟨he.type_eq, fun hn => absurd ?_ h0⟩
      exact dataSize_of_count_zero (e := ⟨e.tag, n, [], e.type⟩) hn
    unfold updateCameraMetadataEntry
    rw [hi]
    dsimp only
    rw [hc]
    split_ifs with h1 h2
    · exact h
    · exact hset _ _ (removeData_checked h e) hin
    · exact hset m _ h hin
    · exact hset _ _ (removeData_checked h e) (hout h2 _)
    · exact hset m _ h (hout h2 _)
    · exact hset _ _ (removeData_checked h e) (hout h2 _)
    · exact hset m _ h (hout h2 _)

theorem delete_checked (h : ∀ e ∈ m.entries, Checked e) (i : ℕ) :
    ∀ e ∈ (deleteCameraMetadataEntry m i).2.entries, Checked e := by
  unfold deleteCameraMetadataEntry
  cases m.entries[i]? with
  | none => exact h
  | some x =>
    intro e he
    have he' := List.mem_of_mem_eraseIdx he
    split_ifs at he'
    · exact removeData_checked h x e he'
    · exact h e he'

theorem append_checked {src : Metadata} (h : ∀ e ∈ m.entries, Checked e)
    (hs : ∀ e ∈ src.entries, Checked e) :
    ∀ e ∈ (appendCameraMetadata m src).2.entries, Checked e := by
  unfold appendCameraMetadata
  split_ifs
  · exact h
  · exact h
  · intro e he
    rcases List.mem_append.mp he with he | he
    · exact h e he
    · unfold movedEntries at he
      split_ifs at he
      · obtain ⟨f, hf, rfl⟩ := List.mem_map.mp he
        exact (hs f hf).movedEntry _
      · exact hs e he

theorem sort_checked (h : ∀ e ∈ m.entries, Checked e) :
    ∀ e ∈ (sortCameraMetadata L m).2.entries, Checked e := by
  unfold sortCameraMetadata
  split_ifs
  · exact h
  · intro e he
    exact h e ((L.qsort_perm _ _).mem_iff.mp he)

theorem clone_checked {c : Metadata} (hc : cloneCameraMetadata L m = some c)
    (h : ∀ e ∈ m.entries, Checked e) : ∀ e ∈ c.entries, Checked e := by
  unfold cloneCameraMetadata at hc
  split at hc
  · cases hc
  · next a ha =>
    have hnil : a.entries = [] := by
      unfold allocateCameraMetadata placeCameraMetadata at ha
      dsimp only at ha
      split at ha
      · cases ha
      · split_ifs at ha
        obtain rfl := Option.some.inj ha
        rfl
    split at hc
    · next r hr =>
      obtain rfl := Option.some.inj hc
      have ha : ∀ e ∈ a.entries, Checked e := by simp [hnil]
      have := append_checked ha h
      rwa [hr] at this
    · cases hc

end Steps

/-! ### Every run -/

/-- What keeps a packet valid: its size fits in 32 bits, the 32-bit total of an append passes the
capacity test only if it did not wrap, and an update to no values finds a zero data word. -/
def valid32 : Limits where
  alloc ec dc := calculateCameraMetadataSize (u32 ec) (u32 dc) < 2 ^ 32
  append dst src := u32 (src.dataCount + dst.dataCount) ≤ dst.dataCapacity →
    src.dataCount + dst.dataCount < 2 ^ 32
  update e n := n = 0 → e.offset = 0

section Runs

variable {L : Libc} {ops : Option VendorTagOps} {m : Metadata}

theorem append_ok_data {dst src : Metadata} (h : (appendCameraMetadata dst src).1 = .ok) :
    u32 (src.dataCount + dst.dataCount) ≤ dst.dataCapacity := by
  unfold appendCameraMetadata at h
  split_ifs at h
  omega

theorem Built.sound_valid32 (h : Built L ops valid32 m) : Sound (2 ^ 32) m := by
  refine h.sound le_rfl (fun ec dc hsz => hsz) ?_
  intro dst src _ _ hg hok
  exact hg (append_ok_data hok)

theorem Built.checked (h : Built L ops valid32 m) : ∀ e ∈ m.entries, Checked e := by
  induction h with
  | allocate hsz hm => simp [(allocate_spec hsz hm).2.2.2.2.2]
  | place hsz hm => simp [(place_spec hsz hm).2.2.2.2.2]
  | copy hb hm ih =>
    unfold copyCameraMetadata at hm
    split_ifs at hm
    split at hm
    · cases hm
    · obtain rfl := Option.some.inj hm
      exact ih
  | clone _ hm ih => exact clone_checked hm ih
  | add hb _ ih => exact add_checked hb.sound_valid32.wf ih _ _ _
  | update hb hd ih => exact update_checked hb.sound_valid32.wf ih (fun e he => (hd e he).2)
  | delete _ ih => exact delete_checked ih _
  | append _ _ _ ih1 ih2 => exact append_checked ih1 ih2
  | sort _ ih => exact sort_checked ih

/-- **Every reachable buffer validates**, over every sequence of operations within `valid32`. -/
theorem built_validates {addr : ℕ} (ha : 8 ∣ addr) (h : Built L ops valid32 m) :
    validateCameraMetadataStructure ops addr m none = .ok := by
  obtain ⟨ec, dc, hg, hsz⟩ := h.sound_valid32.geometry
  exact validate_ok h.sound_valid32.wf hg hsz h.checked ha

theorem reworked_valid32 : Built referenceLibc none valid32 reworked :=
  reworked_built _ (by show calculateCameraMetadataSize (u32 2) (u32 0) < _; decide)
    (fun _ => by decide) fun _ h => absurd h one_ne_zero

theorem built_validates_reworked :
    8 ∣ 4096 ∧ Built referenceLibc none valid32 reworked ∧
      validateCameraMetadataStructure none 4096 reworked none = .ok :=
  ⟨by norm_num, reworked_valid32, built_validates (by norm_num) reworked_valid32⟩

/-- Nothing asked of a run. -/
def unlimited : Limits where
  alloc _ _ := True
  append _ _ := True
  update _ _ := True

/-- The first record of `descending` updated to no values: its word keeps the old byte `1`. -/
theorem update_to_zero_not_valid :
    ¬ ∀ m, Built referenceLibc none unlimited m →
      validateCameraMetadataStructure none 4096 m none = .ok := by
  intro h
  have hb : Built referenceLibc none unlimited (updateCameraMetadataEntry descending 0 [] 0).2 :=
    .update (descending_built _ trivial) (fun e _ => ⟨by simp, trivial⟩)
  exact absurd (h _ hb) (by decide)

end Runs

end IntelCamera
