import IntelCamera.Metadata.Layout

/-!
# Metadata.Ops — what every operation does to the list of entries

One pair of lemmas per operation of `Metadata.Buffer`: `…_spec` says that a successful call keeps
`WF` and how it changes `abs`, and that a refused call returns the buffer it was given; `…_ok_iff`
says when the call succeeds.  `SameHeader` is the frame: no entry operation touches the capacities
or the geometry of the packet.
-/

namespace IntelCamera

open Lib

/-- The header fields fixed at allocation. -/
structure SameHeader (m m' : Metadata) : Prop where
  size : m'.size = m.size
  entryCapacity : m'.entryCapacity = m.entryCapacity
  entriesStart : m'.entriesStart = m.entriesStart
  dataCapacity : m'.dataCapacity = m.dataCapacity
  dataStart : m'.dataStart = m.dataStart

theorem SameHeader.refl (m : Metadata) : SameHeader m m := ⟨rfl, rfl, rfl, rfl, rfl⟩

theorem removeData_header (m : Metadata) (e : BufferEntry) : SameHeader m (removeData m e) :=
  ⟨rfl, rfl, rfl, rfl, rfl⟩

theorem regions_append (l₁ l₂ : List BufferEntry) :
    regions (l₁ ++ l₂) = regions l₁ ++ regions l₂ := List.filterMap_append

/-! ### Add -/

section Add

variable {m : Metadata} {tag type : ℕ} {data : List UInt8} {dataCount : ℕ}

theorem addRaw_ok_iff :
    (addCameraMetadataEntryRaw m tag type (some data) dataCount).1 = .ok ↔
      m.entryCount ≠ m.entryCapacity ∧
        calculateCameraMetadataEntryDataSize type dataCount + m.dataCount ≤ m.dataCapacity := by
  unfold addCameraMetadataEntryRaw
  dsimp only
  split_ifs with h1 h2 h3
  · simp [h1]
  · simp; omega
  · simp [h1]; omega
  · simp [h1]; omega

theorem addRaw_refused
    (h : (addCameraMetadataEntryRaw m tag type (some data) dataCount).1 ≠ .ok) :
    (addCameraMetadataEntryRaw m tag type (some data) dataCount).2 = m := by
  unfold addCameraMetadataEntryRaw at h ⊢
  dsimp only at h ⊢
  split_ifs at h ⊢
  · rfl
  · rfl
  · exact absurd rfl h
  · exact absurd rfl h

theorem addRaw_header :
    SameHeader m (addCameraMetadataEntryRaw m tag type (some data) dataCount).2 := by
  unfold addCameraMetadataEntryRaw
  dsimp only
  split_ifs
  · exact SameHeader.refl m
  · exact SameHeader.refl m
  · exact ⟨rfl, rfl, rfl, rfl, rfl⟩
  · exact ⟨rfl, rfl, rfl, rfl, rfl⟩

/-- The record a successful add appends. -/
theorem addRaw_eq (h : WF m) (ht : type < numTypes)
    (hok : (addCameraMetadataEntryRaw m tag type (some data) dataCount).1 = .ok) :
    (addCameraMetadataEntryRaw m tag type (some data) dataCount).2 =
      if calculateCameraMetadataEntryDataSize type dataCount = 0 then
        { m with
          entries := m.entries ++ [⟨tag, dataCount,
            memcpy [0, 0, 0, 0] 0 (data.take (dataCount * cameraMetadataTypeSize type)), type⟩]
          flags := clearSorted m.flags }
      else
        { m with
          entries := m.entries ++ [⟨tag, dataCount, leBytes 4 m.dataCount, type⟩]
          data := memcpy m.data m.dataCount (data.take (dataCount * cameraMetadataTypeSize type))
          dataCount := m.dataCount + calculateCameraMetadataEntryDataSize type dataCount
          flags := clearSorted m.flags } := by
  obtain ⟨h1, h2⟩ := addRaw_ok_iff.mp hok
  have hc := u32_count ht (Nat.le_of_add_right_le h2) h.dataCapacity_lt
  unfold addCameraMetadataEntryRaw
  dsimp only
  rw [if_neg h1, if_neg (by omega), hc]
  split_ifs <;> rfl

/-- A new inline record. -/
theorem WF.snoc_inline (h : WF m) {e : BufferEntry} (he : EntryWF e) (hs : e.dataSize = 0)
    (hroom : m.entries.length < m.entryCapacity) (flags : ℕ) :
    WF { m with entries := m.entries ++ [e], flags := flags } ∧
      ({ m with entries := m.entries ++ [e], flags := flags } : Metadata).abs =
        m.abs ++ [m.absEntry e] := by
  refine ⟨⟨?_, ?_, h.dataCount_le, h.dataCapacity_lt, h.data_length, ?_⟩, ?_⟩
  · intro f hf
    rcases List.mem_append.mp hf with hf | hf
    · exact h.entry f hf
    · obtain rfl := List.mem_singleton.mp hf
      exact he
  · show Tiles (regions (m.entries ++ [e])) m.dataCount
    have hr : regions [e] = [] := by
      unfold regions
      rw [List.filterMap_cons_none (region?_of_zero hs)]
      rfl
    rw [regions_append, hr, List.append_nil]
    exact h.tiles
  · show (m.entries ++ [e]).length ≤ m.entryCapacity
    rw [List.length_append, List.length_singleton]
    exact hroom
  · show (m.entries ++ [e]).map m.absEntry = _
    rw [List.map_append, List.map_singleton]
    rfl

/-- A new record whose payload `p` goes to the end of the data area. -/
theorem WF.snoc_data (h : WF m) (ht : type < numTypes)
    (hs : calculateCameraMetadataEntryDataSize type dataCount ≠ 0)
    (hroom : m.entries.length < m.entryCapacity)
    (hdata : m.dataCount + calculateCameraMetadataEntryDataSize type dataCount ≤ m.dataCapacity)
    {p : List UInt8} (hp : p.length = dataCount * cameraMetadataTypeSize type) (flags : ℕ) :
    let m' : Metadata :=
      { m with
        entries := m.entries ++ [⟨tag, dataCount, leBytes 4 m.dataCount, type⟩]
        data := memcpy m.data m.dataCount p
        dataCount := m.dataCount + calculateCameraMetadataEntryDataSize type dataCount
        flags := flags }
    WF m' ∧ m'.abs = m.abs ++ [⟨tag, type, p⟩] := by
  intro m'
  have hcap := h.dataCapacity_lt
  have hdl := h.data_length
  have hpos := Nat.pos_of_ne_zero hs
  have hple := le_entryDataSize ht hs
  have h4 := mt (entryDataSize_eq_zero ht).mpr hs
  set e : BufferEntry := ⟨tag, dataCount, leBytes 4 m.dataCount, type⟩ with he
  have hoff : e.offset = m.dataCount := offset_mk (by omega)
  refine ⟨⟨?_, ?_, hdata, hcap, ?_, ?_⟩, ?_⟩
  · intro f hf
    rcases List.mem_append.mp hf with hf | hf
    · exact h.entry f hf
    · obtain rfl := List.mem_singleton.mp hf
      exact ⟨ht, length_leBytes 4 _⟩
  · show Tiles (regions (m.entries ++ [e])) _
    have hr : regions [e] = [⟨m.dataCount, calculateCameraMetadataEntryDataSize type dataCount⟩] := by
      unfold regions
      rw [List.filterMap_cons_some (region?_of_pos (e := e) hpos), hoff]
      rfl
    rw [regions_append, hr]
    exact h.tiles.snoc hpos
  · show (memcpy _ _ _).length = _
    rw [length_memcpy (by omega)]
    exact hdl
  · show (m.entries ++ [e]).length ≤ m.entryCapacity
    rw [List.length_append, List.length_singleton]
    exact hroom
  · show (m.entries ++ [e]).map _ = m.entries.map _ ++ _
    rw [List.map_append, List.map_singleton]
    congr 1
    · apply List.map_congr_left
      intro f hf
      unfold Metadata.absEntry
      congr 1
      exact payload_memcpy_above (h.entry f hf) (by omega) (h.region_le hf) p
    · show [TypedEntry.mk tag type _] = _
      congr 2
      unfold Metadata.payload
      dsimp only
      rw [if_pos (by show dataCount * cameraMetadataTypeSize type > 4; omega), hoff]
      show slice _ _ (dataCount * cameraMetadataTypeSize type) = p
      rw [← hp]
      exact slice_memcpy_self (by omega)

/-- Inline payloads are read back. -/
theorem take_memcpy_zero {v p : List UInt8} : (memcpy v 0 p).take p.length = p := by
  have hs : slice (memcpy v 0 p) 0 p.length = p := slice_memcpy_self (Nat.zero_le _)
  unfold slice at hs
  rwa [List.drop_zero] at hs

theorem payload_of_inline {v p : List UInt8} (ht : type < numTypes)
    (hs : calculateCameraMetadataEntryDataSize type dataCount = 0)
    (hp : p.length = dataCount * cameraMetadataTypeSize type) :
    m.payload ⟨tag, dataCount, memcpy v 0 p, type⟩ = p := by
  have h4 := (entryDataSize_eq_zero ht).mp hs
  unfold Metadata.payload
  dsimp only
  rw [if_neg (by omega), ← hp]
  exact take_memcpy_zero

/-- **Add appends one element.** -/
theorem addRaw_spec (h : WF m) (ht : type < numTypes)
    (hd : dataCount * cameraMetadataTypeSize type ≤ data.length)
    (hok : (addCameraMetadataEntryRaw m tag type (some data) dataCount).1 = .ok) :
    WF (addCameraMetadataEntryRaw m tag type (some data) dataCount).2 ∧
      (addCameraMetadataEntryRaw m tag type (some data) dataCount).2.abs =
        m.abs ++ [⟨tag, type, data.take (dataCount * cameraMetadataTypeSize type)⟩] := by
  obtain ⟨h1, h2⟩ := addRaw_ok_iff.mp hok
  have hroom : m.entries.length < m.entryCapacity := lt_of_le_of_ne h.entries_le h1
  have hpl : (data.take (dataCount * cameraMetadataTypeSize type)).length =
      dataCount * cameraMetadataTypeSize type := by rw [List.length_take]; omega
  rw [addRaw_eq h ht hok]
  by_cases h0 : calculateCameraMetadataEntryDataSize type dataCount = 0
  · rw [if_pos h0]
    have h4 := (entryDataSize_eq_zero ht).mp h0
    have hs := h.snoc_inline (e := ⟨tag, dataCount, memcpy [0, 0, 0, 0] 0
      (data.take (dataCount * cameraMetadataTypeSize type)), type⟩)
      ⟨ht, length_memcpy (by rw [hpl]; simpa using h4)⟩ h0 hroom (clearSorted m.flags)
    refine ⟨hs.1, hs.2.trans ?_⟩
    unfold Metadata.absEntry
    rw [payload_of_inline ht h0 hpl]
  · rw [if_neg h0]
    exact h.snoc_data ht h0 hroom (by omega) hpl (clearSorted m.flags)

end Add

/-! ### Delete -/

/-- The payload of the record `i` taken out, if it has one in the data area. -/
theorem open_hole {m : Metadata} (h : WF m) {i : ℕ} {e : BufferEntry} (hi : m.entries[i]? = some e) :
    let m' := if 0 < e.dataSize then removeData m e else m
    Hole m' i ∧ SameHeader m m' ∧ m'.entries.length = m.entries.length ∧
      m'.dataCount = m.dataCount - e.dataSize ∧ ∀ j, i ≠ j → m.abs[j]? = m'.abs[j]? := by
  intro m'
  by_cases hs : 0 < e.dataSize
  · have hm : m' = removeData m e := if_pos hs
    rw [hm]
    refine ⟨removeData_hole h hi hs, removeData_header m e, ?_, rfl, fun j hij => ?_⟩
    · exact List.length_map _
    · exact (removeData_abs h hi hs hij).symm
  · have hm : m' = m := if_neg hs
    have h0 : e.dataSize = 0 := by omega
    rw [hm]
    exact ⟨h.hole_of_inline hi h0, SameHeader.refl m, rfl, by omega, fun _ _ => rfl⟩

theorem eraseIdx_eq_of_off {α : Type*} {l l' : List α} {i : ℕ}
    (h : ∀ j, i ≠ j → l[j]? = l'[j]?) : l.eraseIdx i = l'.eraseIdx i := by
  apply List.ext_getElem?
  intro j
  rw [List.getElem?_eraseIdx, List.getElem?_eraseIdx]
  split_ifs with hj
  · exact h j (by omega)
  · exact h (j + 1) (by omega)

theorem delete_refused {m : Metadata} {i : ℕ} (h : (deleteCameraMetadataEntry m i).1 ≠ .ok) :
    (deleteCameraMetadataEntry m i).2 = m := by
  unfold deleteCameraMetadataEntry at h ⊢
  split
  · rfl
  · next e he =>
    rw [he] at h
    exact absurd rfl h

theorem delete_ok_iff {m : Metadata} {i : ℕ} :
    (deleteCameraMetadataEntry m i).1 = .ok ↔ i < m.entries.length := by
  unfold deleteCameraMetadataEntry
  split
  · next hn => simpa using hn
  · next e he => simpa using (List.getElem?_eq_some_iff.mp he).1

/-- **Delete removes one element.** -/
theorem delete_spec {m : Metadata} (h : WF m) {i : ℕ}
    (hok : (deleteCameraMetadataEntry m i).1 = .ok) :
    WF (deleteCameraMetadataEntry m i).2 ∧
      (deleteCameraMetadataEntry m i).2.abs = m.abs.eraseIdx i ∧
      SameHeader m (deleteCameraMetadataEntry m i).2 := by
  have hlt := delete_ok_iff.mp hok
  have hi := List.getElem?_eq_getElem hlt
  obtain ⟨hh, hfr, -, -, habs⟩ := open_hole h hi
  unfold deleteCameraMetadataEntry
  rw [hi]
  dsimp only
  set m' := if 0 < (m.entries[i]).dataSize then removeData m m.entries[i] else m with hm'
  refine ⟨⟨?_, hh.tiles, hh.dataCount_le, hh.dataCapacity_lt, hh.data_length, ?_⟩, ?_, ?_⟩
  · intro f hf
    exact hh.entry f (List.mem_of_mem_eraseIdx hf)
  · show (m'.entries.eraseIdx i).length ≤ m'.entryCapacity
    have hle := hh.entries_le
    rw [List.length_eraseIdx]
    split_ifs <;> omega
  · show (m'.entries.eraseIdx i).map m'.absEntry = _
    rw [← List.eraseIdx_map]
    exact (eraseIdx_eq_of_off habs).symm
  · exact ⟨hfr.size, hfr.entryCapacity, hfr.entriesStart, hfr.dataCapacity, hfr.dataStart⟩

/-! ### Update -/

section Update

variable {m : Metadata} {i : ℕ} {e : BufferEntry} {data : List UInt8} {dataCount : ℕ}

theorem update_refused (h : (updateCameraMetadataEntry m i data dataCount).1 ≠ .ok) :
    (updateCameraMetadataEntry m i data dataCount).2 = m := by
  unfold updateCameraMetadataEntry at h ⊢
  cases he : m.entries[i]? with
  | none => rfl
  | some e =>
    rw [he] at h
    dsimp only at h ⊢
    split_ifs at h ⊢
    · rfl
    all_goals exact absurd rfl h

theorem update_ok_iff (hi : m.entries[i]? = some e) :
    (updateCameraMetadataEntry m i data dataCount).1 = .ok ↔
      calculateCameraMetadataEntryDataSize e.type dataCount = e.dataSize ∨
        m.dataCount + calculateCameraMetadataEntryDataSize e.type dataCount - e.dataSize ≤
          m.dataCapacity := by
  unfold updateCameraMetadataEntry
  rw [hi]
  dsimp only
  by_cases hr : calculateCameraMetadataEntryDataSize e.type dataCount ≠ e.dataSize ∧
      m.dataCapacity < m.dataCount + calculateCameraMetadataEntryDataSize e.type dataCount - e.dataSize
  · rw [if_pos hr]
    simp only [reduceCtorEq, false_iff]
    omega
  · rw [if_neg hr]
    refine iff_of_true ?_ (by omega)
    split_ifs <;> rfl

theorem update_none (hi : m.entries[i]? = none) :
    updateCameraMetadataEntry m i data dataCount = (.error, m) := by
  unfold updateCameraMetadataEntry
  rw [hi]

/-- A write inside the region of an entry leaves the payloads of the others. -/
theorem WF.payload_memcpy_other (h : WF m) (hi : m.entries[i]? = some e) {j : ℕ} {f : BufferEntry}
    (hj : m.entries[j]? = some f) (hij : i ≠ j) (hpos : 0 < e.dataSize) {p : List UInt8}
    (hp : p.length ≤ e.dataSize) :
    { m with data := memcpy m.data e.offset p }.payload f = m.payload f := by
  have hf := h.entry f (List.mem_of_getElem? hj)
  have hle := h.region_le (List.mem_of_getElem? hi) hpos
  have hdl := h.dataCount_le_length
  unfold Metadata.payload
  dsimp only
  split_ifs with hf4
  · have hf0 : f.dataSize ≠ 0 := fun hf0 => by
      have := (entryDataSize_eq_zero hf.type_lt).mp hf0
      omega
    have hfle := le_entryDataSize hf.type_lt hf0
    rcases h.disjoint hi hj hij hpos (Nat.pos_of_ne_zero hf0) with hd | hd
    · simp only at hd
      exact slice_memcpy_disjoint (by omega) (Or.inr (by omega))
    · simp only at hd
      unfold BufferEntry.dataSize at hd
      exact slice_memcpy_disjoint (by omega) (Or.inl (by omega))
  · rfl

/-- The new payload has the size of the old one: it is written over it. -/
theorem WF.overwrite (h : WF m) (hi : m.entries[i]? = some e) {p : List UInt8}
    (hs : calculateCameraMetadataEntryDataSize e.type dataCount = e.dataSize) (h0 : e.dataSize ≠ 0)
    (hp : p.length = dataCount * cameraMetadataTypeSize e.type) :
    let m' : Metadata :=
      { m with
        data := memcpy m.data e.offset p
        entries := m.entries.set i { e with count := dataCount } }
    WF m' ∧ m'.abs = m.abs.set i ⟨e.tag, e.type, p⟩ := by
  intro m'
  have he := h.entry e (List.mem_of_getElem? hi)
  have hpos := Nat.pos_of_ne_zero h0
  have hle := h.region_le (List.mem_of_getElem? hi) hpos
  have hdl := h.dataCount_le_length
  have h0' : calculateCameraMetadataEntryDataSize e.type dataCount ≠ 0 := by omega
  have hple := le_entryDataSize he.type_lt h0'
  have h4 := mt (entryDataSize_eq_zero he.type_lt).mpr h0'
  obtain ⟨hlt, -⟩ := List.getElem?_eq_some_iff.mp hi
  set e' : BufferEntry := { e with count := dataCount } with he'
  have hs' : e'.dataSize = e.dataSize := hs
  refine ⟨⟨?_, ?_, h.dataCount_le, h.dataCapacity_lt, ?_, ?_⟩, ?_⟩
  · intro f hf
    rcases List.mem_or_eq_of_mem_set hf with hf | rfl
    · exact h.entry f hf
    · exact ⟨he.type_lt, he.value_length⟩
  · have hr : e'.region? = e.region? := by
      rw [region?_of_pos (e := e') (by omega), region?_of_pos hpos, hs']
      rfl
    have hperm := regions_perm_set hlt e'
    rw [hr] at hperm
    exact h.tiles.perm ((regions_perm_eraseIdx hi).trans hperm.symm)
  · show (memcpy _ _ _).length = _
    rw [length_memcpy (by omega)]
    exact h.data_length
  · show (m.entries.set i e').length ≤ _
    rw [List.length_set]
    exact h.entries_le
  · refine abs_set (m := m) (n := m.dataCount) ?_ (fun _ _ => rfl) (length_abs m) ?_
    · show TypedEntry.mk e.tag e.type _ = _
      congr 1
      unfold Metadata.payload
      dsimp only
      rw [if_pos (by show dataCount * cameraMetadataTypeSize e.type > 4; omega)]
      show slice _ e.offset (dataCount * cameraMetadataTypeSize e.type) = p
      rw [← hp]
      exact slice_memcpy_self (by omega)
    · intro j f hij hj
      unfold Metadata.absEntry
      congr 1
      exact h.payload_memcpy_other hi hj hij hpos (by omega)

theorem WF.dataSize_le (h : WF m) (hi : m.entries[i]? = some e) : e.dataSize ≤ m.dataCount := by
  by_cases hs : 0 < e.dataSize
  · have := h.region_le (List.mem_of_getElem? hi) hs
    omega
  · omega

/-- The count of an accepted update is stored without truncation. -/
theorem update_count (h : WF m) (hi : m.entries[i]? = some e)
    (hok : (updateCameraMetadataEntry m i data dataCount).1 = .ok) : u32 dataCount = dataCount := by
  have hcond := (update_ok_iff hi).mp hok
  have hcap := h.dataCapacity_lt
  have hdc := h.dataCount_le
  have hle := h.dataSize_le hi
  exact u32_count (h.entry e (List.mem_of_getElem? hi)).type_lt (k := m.dataCapacity) (by omega) hcap

/-- **Update replaces one payload.** -/
theorem update_spec (h : WF m) (hi : m.entries[i]? = some e)
    (hd : dataCount * cameraMetadataTypeSize e.type ≤ data.length)
    (hok : (updateCameraMetadataEntry m i data dataCount).1 = .ok) :
    WF (updateCameraMetadataEntry m i data dataCount).2 ∧
      (updateCameraMetadataEntry m i data dataCount).2.abs =
        m.abs.set i ⟨e.tag, e.type, data.take (dataCount * cameraMetadataTypeSize e.type)⟩ ∧
      SameHeader m (updateCameraMetadataEntry m i data dataCount).2 := by
  have he := h.entry e (List.mem_of_getElem? hi)
  obtain ⟨hlt, -⟩ := List.getElem?_eq_some_iff.mp hi
  have hcond := (update_ok_iff hi).mp hok
  have hcap := h.dataCapacity_lt
  have hdc := h.dataCount_le
  have hle := h.dataSize_le hi
  have hc := update_count h hi hok
  have hpl : (data.take (dataCount * cameraMetadataTypeSize e.type)).length =
      dataCount * cameraMetadataTypeSize e.type := by rw [List.length_take]; omega
  obtain ⟨hh, hfr, hlen, hcnt, habs⟩ := open_hole h hi
  unfold updateCameraMetadataEntry
  rw [hi]
  dsimp only
  rw [if_neg (by omega), hc]
  by_cases h0 : calculateCameraMetadataEntryDataSize e.type dataCount = 0
  · -- the new payload fits into the record
    rw [if_pos h0]
    have hm : (if calculateCameraMetadataEntryDataSize e.type dataCount ≠ e.dataSize ∧ e.dataSize ≠ 0
        then removeData m e else m) = if 0 < e.dataSize then removeData m e else m := by
      congr 1
      simp only [h0, eq_iff_iff]
      omega
    rw [hm]
    have h4 := (entryDataSize_eq_zero he.type_lt).mp h0
    have hf := hh.fill_inline (by omega) (e := { e with
      count := dataCount
      value := memcpy e.value 0 (data.take (dataCount * cameraMetadataTypeSize e.type)) })
      ⟨he.type_lt, by rw [length_memcpy (by rw [hpl, he.value_length]; omega)]; exact he.value_length⟩
      h0 habs (by rw [length_abs, hlen])
    refine ⟨hf.1, hf.2.trans ?_, hfr.size, hfr.entryCapacity, hfr.entriesStart, hfr.dataCapacity,
      hfr.dataStart⟩
    unfold Metadata.absEntry
    rw [payload_of_inline he.type_lt h0 hpl]
  · rw [if_neg h0]
    by_cases hne : calculateCameraMetadataEntryDataSize e.type dataCount ≠ e.dataSize
    · -- the new payload goes to the end of the data area
      rw [if_pos hne]
      have hm : (if calculateCameraMetadataEntryDataSize e.type dataCount ≠ e.dataSize ∧
          e.dataSize ≠ 0 then removeData m e else m) =
          if 0 < e.dataSize then removeData m e else m := by
        congr 1
        simp only [eq_iff_iff]
        omega
      rw [hm]
      have hf := hh.fill_append (by omega) e.tag he.type_lt (Nat.pos_of_ne_zero h0)
        (by rw [hcnt, hfr.dataCapacity]; omega) hpl habs (by rw [length_abs, hlen])
      exact ⟨hf.1, hf.2, hfr.size, hfr.entryCapacity, hfr.entriesStart, hfr.dataCapacity,
        hfr.dataStart⟩
    · rw [if_neg hne, if_neg (fun hc => hne hc.1)]
      rw [not_not] at hne
      have hf := h.overwrite hi hne (by omega) hpl
      exact ⟨hf.1, hf.2, rfl, rfl, rfl, rfl, rfl⟩

end Update

/-! ### Append, sort, get -/

theorem region?_movedEntry {n : ℕ} {e : BufferEntry} (hb : 0 < e.dataSize → e.offset + n < 2 ^ 32) :
    (movedEntry n e).region? = e.region?.map (Region.up n) := by
  unfold movedEntry
  by_cases hs : 0 < e.dataSize
  · rw [if_pos hs, region?_of_pos hs, Option.map_some]
    have hs' : 0 < ({ e with value := leBytes 4 (e.offset + n) } : BufferEntry).dataSize := hs
    rw [region?_of_pos hs', offset_mk (hb hs)]
    rfl
  · rw [if_neg hs, region?_of_zero (by omega), Option.map_none]

theorem regions_movedEntry {n : ℕ} {l : List BufferEntry}
    (hb : ∀ e ∈ l, 0 < e.dataSize → e.offset + n < 2 ^ 32) :
    regions (l.map (movedEntry n)) = (regions l).map (Region.up n) := by
  unfold regions
  rw [List.filterMap_map, List.map_filterMap]
  apply List.filterMap_congr
  intro e he
  exact region?_movedEntry (hb e he)

/-- The payload of a moved record, in a data area that holds the source's data at `n`. -/
theorem payload_movedEntry {m src : Metadata} (h : WF src) {e : BufferEntry} (he : e ∈ src.entries)
    {n : ℕ} (hn : n + src.dataCount < 2 ^ 32)
    (hd : ∀ o k, o + k ≤ src.dataCount → slice m.data (n + o) k = slice src.data o k) :
    m.payload (movedEntry n e) = src.payload e := by
  have ht := (h.entry e he).type_lt
  unfold movedEntry
  by_cases hs : 0 < e.dataSize
  · have hle := h.region_le he hs
    obtain ⟨hp, hsz⟩ := h.payload_eq_slice he hs
    have h4 := mt (entryDataSize_eq_zero ht).mpr (Nat.ne_of_gt hs)
    rw [if_pos hs, hp]
    unfold Metadata.payload
    dsimp only
    rw [if_pos (by omega), offset_mk (by omega), Nat.add_comm e.offset n]
    exact hd _ _ (by omega)
  · have h4 := (entryDataSize_eq_zero ht).mp (show e.dataSize = 0 by omega)
    rw [if_neg hs]
    unfold Metadata.payload
    dsimp only
    rw [if_neg (by omega), if_neg (by omega)]

theorem movedEntry_wf {n : ℕ} {e : BufferEntry} (h : EntryWF e) : EntryWF (movedEntry n e) := by
  unfold movedEntry
  split_ifs
  · exact ⟨h.type_lt, length_leBytes 4 _⟩
  · exact h

theorem movedEntry_type (n : ℕ) (e : BufferEntry) : (movedEntry n e).type = e.type := by
  unfold movedEntry
  split_ifs <;> rfl

theorem movedEntry_tag (n : ℕ) (e : BufferEntry) : (movedEntry n e).tag = e.tag := by
  unfold movedEntry
  split_ifs <;> rfl

/-- Two layouts put behind each other, the second one moved up. -/
theorem WF.concat {m src : Metadata} (h : WF m) (hs : WF src)
    (he : m.entries.length + src.entries.length ≤ m.entryCapacity)
    (hd : m.dataCount + src.dataCount ≤ m.dataCapacity) (flags : ℕ) :
    let m' : Metadata :=
      { m with
        flags := flags
        entries := m.entries ++ src.entries.map (movedEntry m.dataCount)
        data := memcpy m.data m.dataCount (src.data.take src.dataCount)
        dataCount := m.dataCount + src.dataCount }
    WF m' ∧ m'.abs = m.abs ++ src.abs := by
  intro m'
  have hcap := h.dataCapacity_lt
  have hml := h.data_length
  have hsl := hs.dataCount_le_length
  have htl : (src.data.take src.dataCount).length = src.dataCount := by
    rw [List.length_take]; omega
  have hin : ∀ o k, o + k ≤ src.dataCount →
      slice m'.data (m.dataCount + o) k = slice src.data o k := by
    intro o k hok
    show slice (memcpy _ _ _) _ _ = _
    rw [slice_memcpy_inside (by omega) (by omega), slice_of_take _ hok]
  refine ⟨⟨?_, ?_, hd, hcap, ?_, ?_⟩, ?_⟩
  · intro f hf
    rcases List.mem_append.mp hf with hf | hf
    · exact h.entry f hf
    · obtain ⟨g, hg, rfl⟩ := List.mem_map.mp hf
      exact movedEntry_wf (hs.entry g hg)
  · show Tiles (regions (m.entries ++ src.entries.map _)) _
    rw [regions_append, regions_movedEntry]
    · exact h.tiles.concat hs.tiles
    · intro f hf hfs
      have := hs.region_le hf hfs
      omega
  · show (memcpy _ _ _).length = _
    rw [length_memcpy (by omega)]
    exact hml
  · show (m.entries ++ src.entries.map _).length ≤ _
    rw [List.length_append, List.length_map]
    exact he
  · show (m.entries ++ src.entries.map _).map m'.absEntry = _
    rw [List.map_append, List.map_map]
    congr 1
    · apply List.map_congr_left
      intro f hf
      unfold Metadata.absEntry
      congr 1
      exact payload_memcpy_above (h.entry f hf) (by omega) (h.region_le hf) _
    · apply List.map_congr_left
      intro f hf
      show TypedEntry.mk _ _ _ = TypedEntry.mk _ _ _
      rw [movedEntry_tag, movedEntry_type, payload_movedEntry hs hf (by omega) hin]

theorem movedEntry_zero {e : BufferEntry} (h : EntryWF e) : movedEntry 0 e = e := by
  unfold movedEntry
  split_ifs
  · have hv : leBytes 4 (e.offset + 0) = e.value := by
      have := leBytes_leNat e.value
      rwa [h.value_length] at this
    rw [hv]
  · rfl

section Append

variable {dst src : Metadata}

theorem append_refused (h : (appendCameraMetadata dst src).1 ≠ .ok) :
    (appendCameraMetadata dst src).2 = dst := by
  unfold appendCameraMetadata at h ⊢
  split_ifs at h ⊢
  · rfl
  · rfl
  · exact absurd rfl h

theorem append_header : SameHeader dst (appendCameraMetadata dst src).2 := by
  unfold appendCameraMetadata
  split_ifs
  · exact SameHeader.refl dst
  · exact SameHeader.refl dst
  · exact ⟨rfl, rfl, rfl, rfl, rfl⟩

theorem append_ok_iff (he : src.entryCount + dst.entryCount < 2 ^ 32)
    (hd : src.dataCount + dst.dataCount < 2 ^ 32) :
    (appendCameraMetadata dst src).1 = .ok ↔
      src.entryCount + dst.entryCount ≤ dst.entryCapacity ∧
        src.dataCount + dst.dataCount ≤ dst.dataCapacity := by
  unfold appendCameraMetadata u32
  rw [Nat.mod_eq_of_lt he, Nat.mod_eq_of_lt hd]
  split_ifs with h1 h2
  · simp; omega
  · simp; omega
  · simp; omega

/-- **Append concatenates.** -/
theorem append_spec (h : WF dst) (hs : WF src) (he : src.entryCount + dst.entryCount < 2 ^ 32)
    (hd : src.dataCount + dst.dataCount < 2 ^ 32) (hok : (appendCameraMetadata dst src).1 = .ok) :
    WF (appendCameraMetadata dst src).2 ∧
      (appendCameraMetadata dst src).2.abs = dst.abs ++ src.abs := by
  obtain ⟨h1, h2⟩ := (append_ok_iff he hd).mp hok
  have hm : movedEntries dst.dataCount src.entries = src.entries.map (movedEntry dst.dataCount) := by
    unfold movedEntries
    split_ifs with h0
    · rfl
    · rw [not_not] at h0
      rw [h0]
      refine ((List.map_congr_left fun e he => ?_).trans (List.map_id _)).symm
      exact movedEntry_zero (hs.entry e he)
  unfold appendCameraMetadata u32
  rw [Nat.mod_eq_of_lt he, Nat.mod_eq_of_lt hd, if_neg (by omega), if_neg (by omega), hm,
    Nat.add_comm dst.dataCount, Nat.mod_eq_of_lt hd, Nat.add_comm src.dataCount]
  have h1' : src.entries.length + dst.entries.length ≤ dst.entryCapacity := h1
  exact h.concat hs (by omega) (by omega) _

end Append

theorem compareEntryTags_le {a b : BufferEntry} : compareEntryTags a b ≤ 0 ↔ a.tag ≤ b.tag := by
  unfold compareEntryTags
  split_ifs
  · simp; omega
  · simp; omega
  · simp; omega

theorem compareEntryTags_consistent : Consistent compareEntryTags where
  total a b := by
    rw [compareEntryTags_le, compareEntryTags_le]
    exact le_total a.tag b.tag
  trans a b c := by
    rw [compareEntryTags_le, compareEntryTags_le, compareEntryTags_le]
    exact le_trans

theorem WF.perm {m : Metadata} (h : WF m) {l : List BufferEntry} (hl : l.Perm m.entries)
    (flags : ℕ) : WF { m with entries := l, flags := flags } := by
  refine ⟨fun e he => h.entry e (hl.mem_iff.mp he), ?_, h.dataCount_le, h.dataCapacity_lt,
    h.data_length, ?_⟩
  · exact h.tiles.perm (hl.filterMap _).symm
  · show l.length ≤ _
    rw [hl.length_eq]
    exact h.entries_le

/-- **Sort permutes the entries**, and orders them when it runs. -/
theorem sort_spec {L : Libc} {m : Metadata} (h : WF m) :
    WF (sortCameraMetadata L m).2 ∧ (sortCameraMetadata L m).2.abs.Perm m.abs ∧
      SameHeader m (sortCameraMetadata L m).2 ∧
      (m.isSorted = false → (sortCameraMetadata L m).2.abs.Pairwise fun a b => a.tag ≤ b.tag) := by
  unfold sortCameraMetadata
  by_cases hs : m.isSorted = true
  · rw [if_pos hs]
    exact ⟨h, List.Perm.refl _, SameHeader.refl m, fun hf => by rw [hs] at hf; cases hf⟩
  · rw [if_neg hs]
    have hp := L.qsort_perm compareEntryTags m.entries
    refine ⟨h.perm hp _, hp.map _, ⟨rfl, rfl, rfl, rfl, rfl⟩, fun _ => ?_⟩
    refine List.Pairwise.map _ (fun a b hab => ?_)
      (L.qsort_sorted compareEntryTags m.entries compareEntryTags_consistent)
    exact compareEntryTags_le.mp hab

theorem get_spec (m : Metadata) (i : ℕ) :
    (getCameraMetadataEntry m i).map (fun e => (⟨e.tag, e.type, e.data⟩ : TypedEntry)) = m.abs[i]? := by
  unfold getCameraMetadataEntry Metadata.abs
  rw [List.getElem?_map, Option.map_map]
  rfl

/-- An entry found is an entry of the list, under the tag asked for. -/
theorem find_spec {L : Libc} {m : Metadata} {tag : ℕ} {e : MetadataEntry}
    (h : findCameraMetadataEntry L m tag = some e) :
    getCameraMetadataEntry m e.index = some e ∧ e.tag = tag := by
  have hget : ∀ {i : ℕ}, getCameraMetadataEntry m i = some e → e.index = i := by
    intro i hi
    unfold getCameraMetadataEntry at hi
    obtain ⟨x, -, rfl⟩ := Option.map_eq_some_iff.mp hi
    rfl
  have htag : ∀ {i : ℕ} {x : BufferEntry}, m.entries[i]? = some x →
      getCameraMetadataEntry m i = some e → e.tag = x.tag := by
    intro i x hx hi
    unfold getCameraMetadataEntry at hi
    rw [hx] at hi
    obtain rfl := Option.some.inj hi
    rfl
  unfold findCameraMetadataEntry at h
  split_ifs at h
  · obtain ⟨i, hi, he⟩ := Option.bind_eq_some_iff.mp h
    obtain ⟨x, hx, hk⟩ := L.bsearch_some _ _ i hi
    refine ⟨hget he ▸ he, (htag hx he).trans ?_⟩
    unfold compareEntryTags at hk
    split_ifs at hk with h1 h2
    · exact h2.symm
    · exact absurd hk (by decide)
  · obtain ⟨i, hi, he⟩ := Option.bind_eq_some_iff.mp h
    obtain ⟨hlt, hx, -⟩ := List.findIdx?_eq_some_iff_getElem.mp hi
    exact ⟨hget he ▸ he, (htag (List.getElem?_eq_getElem hlt) he).trans (by simpa using hx)⟩

theorem find_nil {L : Libc} {m : Metadata} (hm : m.abs = []) (tag : ℕ) :
    findCameraMetadataEntry L m tag = none := by
  cases h : findCameraMetadataEntry L m tag with
  | none => rfl
  | some e =>
    have hg := get_spec m e.index
    rw [(find_spec h).1, hm] at hg
    simp at hg

/-! ### Allocation, copy and clone -/

/-- The geometry of a packet with room for `ec` entries and `dc` bytes. -/
structure Geometry (m : Metadata) (ec dc : ℕ) : Prop where
  size : m.size = calculateCameraMetadataSize ec dc
  entryCapacity : m.entryCapacity = ec
  entriesStart : m.entriesStart = 36
  dataCapacity : m.dataCapacity = dc
  dataStart : m.dataStart = alignTo (36 + 16 * ec) 8

theorem calculateSize_eq (ec dc : ℕ) :
    calculateCameraMetadataSize ec dc = alignTo (36 + 16 * ec) 8 + dc := rfl

/-- The capacities are stored in 32-bit fields: a packet is that of the stored capacities. -/
theorem place_spec {dst : ℕ → UInt8} {n ec dc : ℕ} {m : Metadata}
    (hsz : calculateCameraMetadataSize (u32 ec) (u32 dc) < 2 ^ 32)
    (hm : placeCameraMetadata dst n ec dc = some m) :
    WF m ∧ m.abs = [] ∧ Geometry m (u32 ec) (u32 dc) ∧ m.flags = 0 ∧ m.dataCount = 0 ∧
      m.entries = [] := by
  have hal := le_alignTo (36 + 16 * u32 ec)
  have hsize : u32 (calculateCameraMetadataSize ec dc) =
      calculateCameraMetadataSize (u32 ec) (u32 dc) := by
    rw [calculateSize_eq, calculateSize_eq] at *
    unfold alignTo u32 at *
    omega
  rw [calculateSize_eq] at hsz
  unfold placeCameraMetadata at hm
  dsimp only at hm
  split_ifs at hm
  obtain rfl := Option.some.inj hm
  refine ⟨⟨by simp, Tiles.nil, Nat.zero_le _, by show u32 dc < 2 ^ 32; omega, ?_, Nat.zero_le _⟩,
    rfl, ⟨hsize, rfl, rfl, rfl, ?_⟩, rfl, rfl, rfl⟩
  · show ((List.range (u32 dc)).map _).length = u32 dc
    rw [List.length_map, List.length_range]
  · show u32 (alignTo (36 + 16 * u32 ec) 8) = _
    exact Nat.mod_eq_of_lt (by omega)

theorem allocate_spec {L : Libc} {ec dc : ℕ} {m : Metadata}
    (hsz : calculateCameraMetadataSize (u32 ec) (u32 dc) < 2 ^ 32)
    (hm : allocateCameraMetadata L ec dc = some m) :
    WF m ∧ m.abs = [] ∧ Geometry m (u32 ec) (u32 dc) ∧ m.flags = 0 ∧ m.dataCount = 0 ∧
      m.entries = [] := by
  unfold allocateCameraMetadata at hm
  dsimp only at hm
  split at hm
  · cases hm
  · exact place_spec hsz hm

/-- A new packet, of any size. -/
theorem allocate_fresh {L : Libc} {ec dc : ℕ} {fresh : Metadata}
    (hf : allocateCameraMetadata L ec dc = some fresh) :
    WF fresh ∧ fresh.entries = [] ∧ fresh.dataCount = 0 ∧ fresh.entryCapacity = u32 ec ∧
      fresh.dataCapacity = u32 dc := by
  unfold allocateCameraMetadata placeCameraMetadata at hf
  dsimp only at hf
  split at hf
  · cases hf
  · split_ifs at hf
    obtain rfl := Option.some.inj hf
    refine ⟨⟨by simp, Tiles.nil, Nat.zero_le _, Nat.mod_lt _ (by norm_num), ?_, Nat.zero_le _⟩, rfl,
      rfl, rfl, rfl⟩
    show ((List.range (u32 dc)).map _).length = u32 dc
    rw [List.length_map, List.length_range]

/-- Capacities whose packet fits in 32 bits are stored as they are. -/
theorem u32_of_size {ec dc : ℕ} (hsz : calculateCameraMetadataSize ec dc < 2 ^ 32) :
    u32 ec = ec ∧ u32 dc = dc := by
  have hal := le_alignTo (36 + 16 * ec)
  rw [calculateSize_eq] at hsz
  exact ⟨Nat.mod_eq_of_lt (by omega), Nat.mod_eq_of_lt (by omega)⟩

theorem allocate_isSome {L : Libc} (ec dc : ℕ)
    (hL : (L.malloc (calculateCameraMetadataSize ec dc)).isSome) :
    (allocateCameraMetadata L ec dc).isSome := by
  obtain ⟨b, hb⟩ := Option.isSome_iff_exists.mp hL
  unfold allocateCameraMetadata placeCameraMetadata
  dsimp only
  rw [hb]
  dsimp only
  rw [if_neg (by omega)]
  rfl

theorem calculateSize_mono {a b c d : ℕ} (h1 : a ≤ c) (h2 : b ≤ d) :
    calculateCameraMetadataSize a b ≤ calculateCameraMetadataSize c d := by
  rw [calculateSize_eq, calculateSize_eq]
  unfold alignTo
  omega

/-- The compact size of a buffer is at most its allocated size. -/
theorem WF.compactSize_le {m : Metadata} (h : WF m) {ec dc : ℕ} (hg : Geometry m ec dc) :
    getCameraMetadataCompactSize m ≤ calculateCameraMetadataSize ec dc := by
  have h1 := h.entries_le
  have h2 := h.dataCount_le
  rw [hg.entryCapacity] at h1
  rw [hg.dataCapacity] at h2
  exact calculateSize_mono h1 h2

theorem copy_spec {dst : ℕ → UInt8} {n : ℕ} {src m : Metadata} (h : WF src)
    (hsz : getCameraMetadataCompactSize src < 2 ^ 32) (hm : copyCameraMetadata dst n src = some m) :
    WF m ∧ m.abs = src.abs ∧ Geometry m src.entryCount src.dataCount ∧ m.flags = src.flags := by
  obtain ⟨hec32, hdc32⟩ : u32 src.entryCount = src.entryCount ∧ u32 src.dataCount = src.dataCount :=
    u32_of_size hsz
  unfold copyCameraMetadata at hm
  split_ifs at hm
  split at hm
  · cases hm
  · next md hp =>
    obtain ⟨hw, ha, hg, -, hdc, hen⟩ := place_spec (by rwa [hec32, hdc32]) hp
    rw [hec32, hdc32] at hg
    have hec : md.entries.length + src.entries.length ≤ md.entryCapacity := by
      rw [hen, hg.entryCapacity]
      exact (Nat.zero_add _).le
    have hcat := hw.concat h hec (by rw [hdc, hg.dataCapacity, Nat.zero_add]) src.flags
    have hmv : src.entries.map (movedEntry 0) = src.entries :=
      (List.map_congr_left fun e he => movedEntry_zero (h.entry e he)).trans (List.map_id _)
    rw [hen, hdc, hmv, ha] at hcat
    simp only [List.nil_append, Nat.zero_add] at hcat
    obtain rfl := Option.some.inj hm
    exact ⟨hcat.1, hcat.2, ⟨hg.size, hg.entryCapacity, hg.entriesStart, hg.dataCapacity,
      hg.dataStart⟩, rfl⟩

/-- **Clone yields the same list**, with no spare room. -/
theorem clone_spec {L : Libc} {src m : Metadata} (h : WF src)
    (hsz : getCameraMetadataCompactSize src < 2 ^ 32) (hm : cloneCameraMetadata L src = some m) :
    WF m ∧ m.abs = src.abs ∧ Geometry m src.entryCount src.dataCount ∧
      m.isSorted = src.isSorted := by
  have hb := calculateSize_eq src.entryCount src.dataCount
  have hal := le_alignTo (36 + 16 * src.entryCount)
  have hsz' : calculateCameraMetadataSize src.entryCount src.dataCount < 2 ^ 32 := hsz
  obtain ⟨hec32, hdc32⟩ := u32_of_size hsz'
  unfold cloneCameraMetadata at hm
  split at hm
  · cases hm
  · next c hc =>
    obtain ⟨hw, ha, hg, hf, hdc, hen⟩ := allocate_spec (by rwa [hec32, hdc32]) hc
    rw [hec32, hdc32] at hg
    have hec : c.entryCount = 0 := by
      unfold Metadata.entryCount
      rw [hen]
      rfl
    split at hm
    · next r hr =>
      obtain rfl := Option.some.inj hm
      have hok : (appendCameraMetadata c src).1 = .ok := by rw [hr]
      have hs := append_spec hw h (by omega) (by omega) hok
      have hhd : SameHeader c (appendCameraMetadata c src).2 := append_header
      have hr2 : (appendCameraMetadata c src).2 = r := by rw [hr]
      rw [hr2] at hs hhd
      refine ⟨hs.1, by rw [hs.2, ha, List.nil_append], ⟨hhd.size.trans hg.size,
        hhd.entryCapacity.trans hg.entryCapacity, hhd.entriesStart.trans hg.entriesStart,
        hhd.dataCapacity.trans hg.dataCapacity, hhd.dataStart.trans hg.dataStart⟩, ?_⟩
      have hfl : r.flags = appendFlags c src := by
        rw [← hr2]
        unfold appendCameraMetadata at hok ⊢
        split_ifs at hok ⊢
        rfl
      unfold Metadata.isSorted
      rw [hfl]
      unfold appendFlags
      rw [if_pos hec, hf, Nat.zero_or, Nat.and_assoc, Nat.and_self]
    · cases hm

theorem clone_isSome {L : Libc} {src : Metadata}
    (hsz : getCameraMetadataCompactSize src < 2 ^ 32)
    (hL : (L.malloc (getCameraMetadataCompactSize src)).isSome) :
    (cloneCameraMetadata L src).isSome := by
  have hb := calculateSize_eq src.entryCount src.dataCount
  have hal := le_alignTo (36 + 16 * src.entryCount)
  have hsz' : calculateCameraMetadataSize src.entryCount src.dataCount < 2 ^ 32 := hsz
  obtain ⟨hec32, hdc32⟩ := u32_of_size hsz'
  obtain ⟨c, hc⟩ := Option.isSome_iff_exists.mp (allocate_isSome _ _ hL)
  obtain ⟨-, -, hg, -, hdc, hen⟩ := allocate_spec (by rwa [hec32, hdc32]) hc
  rw [hec32, hdc32] at hg
  have hec : c.entryCount = 0 := by
    unfold Metadata.entryCount
    rw [hen]
    rfl
  have hok : (appendCameraMetadata c src).1 = .ok := by
    rw [append_ok_iff (by omega) (by omega), hg.entryCapacity, hg.dataCapacity]
    omega
  unfold cloneCameraMetadata
  rw [hc]
  cases hr : appendCameraMetadata c src with
  | mk st r =>
    rw [hr] at hok
    simp only at hok
    subst hok
    dsimp only
    rw [hr]
    rfl

end IntelCamera
