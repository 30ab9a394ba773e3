import IntelCamera.Lib.Tiling
import IntelCamera.Metadata.Buffer

/-!
# Metadata.Layout — the data area of a buffer

`m.abs` is what a buffer means: the list of `(tag, type, payload)` in entry order.  `WF m` is the
layout invariant behind it: the records are well typed and the regions of the out-of-line payloads
tile `[0, data_count)`.  Every operation of `Metadata.Buffer` gets one lemma: it keeps `WF`, and it
does to `abs` what its name says.  The only operation on shared storage is `removeData` (the
`memmove` of a delete or of a resizing update with the loop that rewrites the other offsets); its
lemma `removeData_absEntry` is the place where one entry's bytes survive the move of another's.
-/

namespace IntelCamera

open Lib

/-! ### Sizes -/

theorem le_alignTo (n : ℕ) : n ≤ alignTo n 8 := by
  unfold alignTo
  omega

theorem dvd_alignTo (n a : ℕ) : a ∣ alignTo n a := Nat.dvd_mul_left _ _

theorem entryDataSize_eq {type : ℕ} (h : type < numTypes) (n : ℕ) :
    calculateCameraMetadataEntryDataSize type n =
      if n * cameraMetadataTypeSize type ≤ 4 then 0
      else alignTo (n * cameraMetadataTypeSize type) 8 := by
  unfold calculateCameraMetadataEntryDataSize
  rw [if_neg (by omega)]
  rfl

theorem entryDataSize_eq_zero {type : ℕ} (h : type < numTypes) {n : ℕ} :
    calculateCameraMetadataEntryDataSize type n = 0 ↔ n * cameraMetadataTypeSize type ≤ 4 := by
  rw [entryDataSize_eq h]
  have hle := le_alignTo (n * cameraMetadataTypeSize type)
  split_ifs with h4
  · exact iff_of_true rfl h4
  · constructor
    · intro h0; omega
    · intro h0; omega

theorem le_entryDataSize {type : ℕ} (h : type < numTypes) {n : ℕ}
    (h0 : calculateCameraMetadataEntryDataSize type n ≠ 0) :
    n * cameraMetadataTypeSize type ≤ calculateCameraMetadataEntryDataSize type n := by
  have h4 := mt (entryDataSize_eq_zero h).mpr h0
  rw [entryDataSize_eq h, if_neg h4]
  exact le_alignTo _

theorem dvd_entryDataSize (type n : ℕ) : 8 ∣ calculateCameraMetadataEntryDataSize type n := by
  unfold calculateCameraMetadataEntryDataSize
  split_ifs
  · exact dvd_zero 8
  · dsimp only
    split_ifs
    · exact dvd_zero 8
    · exact dvd_alignTo _ _

/-- The count that fits is stored without truncation. -/
theorem u32_count {type n k : ℕ} (h : type < numTypes)
    (hk : calculateCameraMetadataEntryDataSize type n ≤ k) (hk' : k < 2 ^ 32) : u32 n = n := by
  have hpos := cameraMetadataTypeSize_pos h
  have hn : n ≤ n * cameraMetadataTypeSize type := Nat.le_mul_of_pos_right n hpos
  unfold u32
  apply Nat.mod_eq_of_lt
  by_cases h0 : calculateCameraMetadataEntryDataSize type n = 0
  · have := (entryDataSize_eq_zero h).mp h0
    omega
  · have := le_entryDataSize h h0
    omega

/-! ### The invariant -/

/-- A well-typed record. -/
structure EntryWF (e : BufferEntry) : Prop where
  type_lt : e.type < numTypes
  value_length : e.value.length = 4

/-- The region of an out-of-line payload. -/
def BufferEntry.region? (e : BufferEntry) : Option Region :=
  if 0 < e.dataSize then some ⟨e.offset, e.dataSize⟩ else none

/-- The regions of the out-of-line payloads, in entry order. -/
def regions (l : List BufferEntry) : List Region := l.filterMap BufferEntry.region?

/-- **Layout invariant.** -/
structure WF (m : Metadata) : Prop where
  entry : ∀ e ∈ m.entries, EntryWF e
  tiles : Tiles (regions m.entries) m.dataCount
  dataCount_le : m.dataCount ≤ m.dataCapacity
  dataCapacity_lt : m.dataCapacity < 2 ^ 32
  data_length : m.data.length = m.dataCapacity
  entries_le : m.entries.length ≤ m.entryCapacity

theorem region?_of_pos {e : BufferEntry} (h : 0 < e.dataSize) :
    e.region? = some ⟨e.offset, e.dataSize⟩ := if_pos h

theorem region?_of_zero {e : BufferEntry} (h : e.dataSize = 0) : e.region? = none :=
  if_neg (by omega)

/-- A sum over the regions is one over the records. -/
theorem sum_map_regions (F : Region → ℕ) (l : List BufferEntry) : ((regions l).map F).sum =
    (l.map fun e => if 0 < e.dataSize then F ⟨e.offset, e.dataSize⟩ else 0).sum := by
  unfold regions
  induction l with
  | nil => rfl
  | cons e l ih =>
    rw [List.map_cons, List.sum_cons, ← ih]
    by_cases hs : 0 < e.dataSize
    · rw [List.filterMap_cons_some (region?_of_pos hs), List.map_cons, List.sum_cons, if_pos hs]
    · rw [List.filterMap_cons_none (region?_of_zero (by omega)), if_neg hs, Nat.zero_add]

/-- The entries use what the regions cover. -/
theorem sum_regions (l : List BufferEntry) :
    ((regions l).map (·.len)).sum = (l.map BufferEntry.dataSize).sum := by
  rw [sum_map_regions]
  congr 1
  refine List.map_congr_left fun e _ => ?_
  dsimp only
  split_ifs <;> omega

theorem WF.sum_dataSize {m : Metadata} (h : WF m) :
    (m.entries.map BufferEntry.dataSize).sum = m.dataCount := by
  rw [← sum_regions, h.tiles.sum_len]

/-- An element of the list a buffer stands for. -/
structure TypedEntry where
  tag : ℕ
  type : ℕ
  payload : List UInt8
deriving DecidableEq, Repr

/-- One record, with its payload fetched. -/
def Metadata.absEntry (m : Metadata) (e : BufferEntry) : TypedEntry := ⟨e.tag, e.type, m.payload e⟩

/-- **Abstraction**: the entries in order, with their payload bytes. -/
def Metadata.abs (m : Metadata) : List TypedEntry := m.entries.map m.absEntry

@[simp] theorem length_abs (m : Metadata) : m.abs.length = m.entries.length := by
  unfold Metadata.abs
  rw [List.length_map]

/-! ### Records and regions -/

theorem mem_regions {l : List BufferEntry} {e : BufferEntry} (he : e ∈ l) (h : 0 < e.dataSize) :
    (⟨e.offset, e.dataSize⟩ : Region) ∈ regions l :=
  List.mem_filterMap.mpr ⟨e, he, region?_of_pos h⟩

theorem dvd_of_mem_regions {l : List BufferEntry} {x : Region} (hx : x ∈ regions l) : 8 ∣ x.len := by
  obtain ⟨e, -, he⟩ := List.mem_filterMap.mp hx
  unfold BufferEntry.region? at he
  split_ifs at he
  obtain rfl := Option.some.inj he
  exact dvd_entryDataSize _ _

/-- Taking the record `i` out of the list takes out its region. -/
theorem regions_perm_eraseIdx {l : List BufferEntry} {i : ℕ} {e : BufferEntry} (hi : l[i]? = some e) :
    (regions l).Perm (e.region?.toList ++ regions (l.eraseIdx i)) := by
  obtain ⟨hlt, rfl⟩ := List.getElem?_eq_some_iff.mp hi
  have hp := (List.getElem_cons_eraseIdx_perm hlt).symm.filterMap BufferEntry.region?
  unfold regions
  cases hr : (l[i]).region? with
  | none => rwa [List.filterMap_cons_none hr] at hp
  | some r => rwa [List.filterMap_cons_some hr] at hp

/-- Storing a record at `i` puts its region beside those of the others. -/
theorem regions_perm_set {l : List BufferEntry} {i : ℕ} (hi : i < l.length) (e : BufferEntry) :
    (regions (l.set i e)).Perm (e.region?.toList ++ regions (l.eraseIdx i)) := by
  have hp := (List.set_perm_cons_eraseIdx hi e).filterMap BufferEntry.region?
  unfold regions
  cases hr : e.region? with
  | none => rwa [List.filterMap_cons_none hr] at hp
  | some r => rwa [List.filterMap_cons_some hr] at hp

theorem offset_mk {tag count type n : ℕ} (h : n < 2 ^ 32) :
    (⟨tag, count, leBytes 4 n, type⟩ : BufferEntry).offset = n :=
  leNat_leBytes (by norm_num; exact h)

namespace WF

variable {m : Metadata}

/-- An out-of-line payload lies in the used part of the data area. -/
theorem region_le (h : WF m) {e : BufferEntry} (he : e ∈ m.entries) (hs : 0 < e.dataSize) :
    e.offset + e.dataSize ≤ m.dataCount :=
  (h.tiles.bounds (mem_regions he hs)).2

theorem dataCount_le_length (h : WF m) : m.dataCount ≤ m.data.length := by
  rw [h.data_length]
  exact h.dataCount_le

/-- The payload bytes of an out-of-line record lie in its region. -/
theorem payload_eq_slice (h : WF m) {e : BufferEntry} (he : e ∈ m.entries) (hs : 0 < e.dataSize) :
    m.payload e = slice m.data e.offset (e.count * cameraMetadataTypeSize e.type) ∧
      e.count * cameraMetadataTypeSize e.type ≤ e.dataSize := by
  have ht := (h.entry e he).type_lt
  have h4 : ¬ e.count * cameraMetadataTypeSize e.type ≤ 4 := by
    rw [← entryDataSize_eq_zero ht]
    exact Nat.ne_of_gt hs
  refine ⟨if_pos (by omega), le_entryDataSize ht (Nat.ne_of_gt hs)⟩

theorem payload_inline (h : WF m) {e : BufferEntry} (he : e ∈ m.entries) (hs : e.dataSize = 0)
    (d : List UInt8) : ({ m with data := d } : Metadata).payload e = m.payload e := by
  have h4 := (entryDataSize_eq_zero (h.entry e he).type_lt).mp hs
  unfold Metadata.payload
  dsimp only
  rw [if_neg (by omega), if_neg (by omega)]

theorem length_payload (h : WF m) {e : BufferEntry} (he : e ∈ m.entries) :
    (m.payload e).length = e.count * cameraMetadataTypeSize e.type := by
  by_cases hs : 0 < e.dataSize
  · obtain ⟨h1, h2⟩ := h.payload_eq_slice he hs
    have h3 := h.region_le he hs
    have h4 := h.dataCount_le_length
    rw [h1, length_slice (by omega)]
  · have h4 := (entryDataSize_eq_zero (h.entry e he).type_lt).mp (Nat.eq_zero_of_not_pos hs)
    have hv := (h.entry e he).value_length
    unfold Metadata.payload
    dsimp only
    rw [if_neg (by omega), List.length_take]
    omega

/-- Two out-of-line payloads at different places of the list do not meet. -/
theorem disjoint (h : WF m) {i j : ℕ} {e f : BufferEntry} (hi : m.entries[i]? = some e)
    (hj : m.entries[j]? = some f) (hij : i ≠ j) (he : 0 < e.dataSize) (hf : 0 < f.dataSize) :
    Region.Disjoint ⟨e.offset, e.dataSize⟩ ⟨f.offset, f.dataSize⟩ := by
  have hp := h.tiles.pairwise.perm (regions_perm_eraseIdx hi) (fun h => h.symm)
  rw [region?_of_pos he, Option.toList_some, List.singleton_append, List.pairwise_cons] at hp
  exact hp.1 _ (mem_regions (List.mem_eraseIdx_iff_getElem?.mpr ⟨j, Ne.symm hij, hj⟩) hf)

end WF

/-! ### Holes: the layout with one payload left out

A delete or a resizing update first takes a payload out of the data area.  In between, the record
`i` refers to nothing. -/

/-- The invariant without the payload of the record `i`. -/
structure Hole (m : Metadata) (i : ℕ) : Prop where
  entry : ∀ e ∈ m.entries, EntryWF e
  tiles : Tiles (regions (m.entries.eraseIdx i)) m.dataCount
  dataCount_le : m.dataCount ≤ m.dataCapacity
  dataCapacity_lt : m.dataCapacity < 2 ^ 32
  data_length : m.data.length = m.dataCapacity
  entries_le : m.entries.length ≤ m.entryCapacity

/-- An inline record is a hole. -/
theorem WF.hole_of_inline {m : Metadata} (h : WF m) {i : ℕ} {e : BufferEntry}
    (hi : m.entries[i]? = some e) (hs : e.dataSize = 0) : Hole m i := by
  refine ⟨h.entry, ?_, h.dataCount_le, h.dataCapacity_lt, h.data_length, h.entries_le⟩
  have hp := regions_perm_eraseIdx hi
  rw [region?_of_zero hs, Option.toList_none, List.nil_append] at hp
  exact h.tiles.perm hp

@[simp] theorem shiftOffset_tag (o b : ℕ) (e : BufferEntry) : (shiftOffset o b e).tag = e.tag := by
  unfold shiftOffset
  split_ifs <;> rfl

@[simp] theorem shiftOffset_type (o b : ℕ) (e : BufferEntry) :
    (shiftOffset o b e).type = e.type := by
  unfold shiftOffset
  split_ifs <;> rfl

@[simp] theorem shiftOffset_count (o b : ℕ) (e : BufferEntry) :
    (shiftOffset o b e).count = e.count := by
  unfold shiftOffset
  split_ifs <;> rfl

@[simp] theorem shiftOffset_dataSize (o b : ℕ) (e : BufferEntry) :
    (shiftOffset o b e).dataSize = e.dataSize := by
  unfold BufferEntry.dataSize
  rw [shiftOffset_type, shiftOffset_count]

theorem shiftOffset_wf {o b : ℕ} {e : BufferEntry} (h : EntryWF e) : EntryWF (shiftOffset o b e) := by
  refine ⟨by rw [shiftOffset_type]; exact h.type_lt, ?_⟩
  unfold shiftOffset
  split_ifs
  · exact length_leBytes 4 _
  · exact h.value_length

/-- Rewriting the offsets slides the regions. -/
theorem region?_shiftOffset {o b : ℕ} {e : BufferEntry} (hb : 0 < e.dataSize → e.offset < 2 ^ 32) :
    (shiftOffset o b e).region? = e.region?.map (Region.slide o b) := by
  unfold BufferEntry.region?
  rw [shiftOffset_dataSize]
  by_cases hs : 0 < e.dataSize
  · rw [if_pos hs, if_pos hs, Option.map_some]
    congr 1
    unfold shiftOffset Region.slide
    by_cases ho : o < e.offset
    · rw [if_pos ⟨hs, ho⟩, if_pos ho]
      congr 1
      exact offset_mk (by have := hb hs; omega)
    · rw [if_neg (fun h => ho h.2), if_neg ho]
  · rw [if_neg hs, if_neg hs, Option.map_none]

theorem regions_shiftOffset {o b : ℕ} {l : List BufferEntry}
    (hb : ∀ e ∈ l, 0 < e.dataSize → e.offset < 2 ^ 32) :
    regions (l.map (shiftOffset o b)) = (regions l).map (Region.slide o b) := by
  unfold regions
  rw [List.filterMap_map, List.map_filterMap]
  apply List.filterMap_congr
  intro e he
  exact region?_shiftOffset (hb e he)

section RemoveData

variable {m : Metadata} {i : ℕ} {e : BufferEntry}

theorem WF.offset_lt (h : WF m) {f : BufferEntry} (hf : f ∈ m.entries) (hs : 0 < f.dataSize) :
    f.offset < 2 ^ 32 := by
  have h1 := h.region_le hf hs
  have h2 := h.dataCount_le
  have h3 := h.dataCapacity_lt
  omega

/-- **Taking a payload out leaves a hole.** -/
theorem removeData_hole (h : WF m) (hi : m.entries[i]? = some e) (hs : 0 < e.dataSize) :
    Hole (removeData m e) i := by
  have hle := h.region_le (List.mem_of_getElem? hi) hs
  have hdc := h.dataCount_le
  have hlen := h.data_length
  refine ⟨?_, ?_, ?_, h.dataCapacity_lt, ?_, ?_⟩
  · intro f hf
    obtain ⟨g, hg, rfl⟩ := List.mem_map.mp hf
    exact shiftOffset_wf (h.entry g hg)
  · have hp := regions_perm_eraseIdx hi
    rw [region?_of_pos hs] at hp
    have ht := h.tiles.remove hp
    show Tiles (regions ((m.entries.map _).eraseIdx i)) (m.dataCount - e.dataSize)
    rw [List.eraseIdx_map, regions_shiftOffset
      (fun f hf => h.offset_lt (List.mem_of_mem_eraseIdx hf))]
    exact ht
  · show m.dataCount - e.dataSize ≤ m.dataCapacity
    omega
  · show (memmove _ _ _ _).length = _
    rw [length_memmove (by omega) (by omega), hlen]
    rfl
  · show (m.entries.map _).length ≤ _
    rw [List.length_map]
    exact h.entries_le

/-- **The bytes of every other entry survive the move.** -/
theorem removeData_absEntry (h : WF m) (hi : m.entries[i]? = some e) (hs : 0 < e.dataSize) {j : ℕ}
    {f : BufferEntry} (hj : m.entries[j]? = some f) (hij : i ≠ j) :
    (removeData m e).absEntry (shiftOffset e.offset e.dataSize f) = m.absEntry f := by
  have hf := List.mem_of_getElem? hj
  unfold Metadata.absEntry
  rw [shiftOffset_tag, shiftOffset_type]
  congr 1
  by_cases hfs : 0 < f.dataSize
  · have hle := h.region_le (List.mem_of_getElem? hi) hs
    have hfle := h.region_le hf hfs
    have hdc := h.dataCount_le_length
    obtain ⟨hp, hn⟩ := h.payload_eq_slice hf hfs
    have h4 : f.count * cameraMetadataTypeSize f.type > 4 := by
      by_contra hc
      have := (entryDataSize_eq_zero (h.entry f hf).type_lt).mpr (Nat.not_lt.mp hc)
      exact Nat.ne_of_gt hfs this
    rw [hp]
    unfold Metadata.payload
    rw [shiftOffset_type, shiftOffset_count, if_pos h4]
    rcases h.disjoint hi hj hij hs hfs with hd | hd
    · -- `f` lies behind the hole and moves down with the tail
      simp only at hd
      have ho : (shiftOffset e.offset e.dataSize f).offset = f.offset - e.dataSize := by
        unfold shiftOffset
        rw [if_pos ⟨hfs, by omega⟩]
        exact offset_mk (by have := h.offset_lt hf hfs; omega)
      rw [ho]
      have hm := slice_memmove_moved (l := m.data) (d := e.offset) (s := e.offset + e.dataSize)
        (n := m.dataCount - e.offset - e.dataSize) (p := f.offset)
        (k := f.count * cameraMetadataTypeSize f.type) (by omega) (by omega) (by omega) (by omega)
      rwa [Nat.add_sub_cancel_left] at hm
    · -- `f` lies before the hole and stays
      simp only at hd
      have ho : shiftOffset e.offset e.dataSize f = f := if_neg (by omega)
      rw [ho]
      exact slice_memmove_below (by omega) (by omega) (by omega)
  · have ho : shiftOffset e.offset e.dataSize f = f := if_neg (by omega)
    rw [ho]
    exact h.payload_inline hf (by omega) _

/-- The list without the element `i` is unchanged by a removal of its payload. -/
theorem removeData_abs (h : WF m) (hi : m.entries[i]? = some e) (hs : 0 < e.dataSize) {j : ℕ}
    (hij : i ≠ j) : (removeData m e).abs[j]? = m.abs[j]? := by
  show ((m.entries.map _).map _)[j]? = (m.entries.map _)[j]?
  rw [List.getElem?_map, List.getElem?_map, List.getElem?_map]
  cases hj : m.entries[j]? with
  | none => rfl
  | some f =>
    rw [Option.map_some, Option.map_some, Option.map_some, removeData_absEntry h hi hs hj hij]

end RemoveData

/-! ### Filling a hole -/

/-- The bytes of a record of which the data lies below `k` do not see a write at `k`. -/
theorem payload_memcpy_above {m : Metadata} {f : BufferEntry} (hf : EntryWF f) {k : ℕ}
    (hk : k ≤ m.data.length) (hle : 0 < f.dataSize → f.offset + f.dataSize ≤ k) (p : List UInt8) :
    ({ m with data := memcpy m.data k p } : Metadata).payload f = m.payload f := by
  unfold Metadata.payload
  dsimp only
  split_ifs with h4
  · have h0 : f.dataSize ≠ 0 := fun h0 => by
      have := (entryDataSize_eq_zero hf.type_lt).mp h0
      omega
    have h1 := hle (Nat.pos_of_ne_zero h0)
    have h2 := le_entryDataSize hf.type_lt h0
    unfold BufferEntry.dataSize at h1
    exact slice_memcpy_disjoint hk (Or.inl (by omega))
  · rfl

theorem abs_set {m : Metadata} {l : List TypedEntry} {i : ℕ} {x : TypedEntry} {d : List UInt8}
    {e : BufferEntry} {n : ℕ}
    (hx : ({ m with data := d } : Metadata).absEntry e = x)
    (hl : ∀ j, i ≠ j → l[j]? = m.abs[j]?) (hlen : l.length = m.entries.length)
    (hd : ∀ j f, i ≠ j → m.entries[j]? = some f →
      ({ m with data := d } : Metadata).absEntry f = m.absEntry f) :
    ({ m with data := d, dataCount := n, entries := m.entries.set i e } : Metadata).abs =
      l.set i x := by
  apply List.ext_getElem?
  intro j
  show ((m.entries.set i e).map _)[j]? = _
  rw [List.getElem?_map, List.getElem?_set, List.getElem?_set, hlen]
  by_cases hij : i = j
  · rw [if_pos hij, if_pos hij]
    split_ifs
    · rw [Option.map_some]
      exact congrArg some hx
    · rfl
  · rw [if_neg hij, if_neg hij, hl j hij]
    show _ = (m.entries.map _)[j]?
    rw [List.getElem?_map]
    cases hj : m.entries[j]? with
    | none => rfl
    | some f =>
      rw [Option.map_some, Option.map_some]
      exact congrArg some (hd j f hij hj)

namespace Hole

variable {m : Metadata} {i : ℕ}

theorem region_le (h : Hole m i) {j : ℕ} {f : BufferEntry} (hj : m.entries[j]? = some f)
    (hij : i ≠ j) (hs : 0 < f.dataSize) : f.offset + f.dataSize ≤ m.dataCount :=
  (h.tiles.bounds (mem_regions (List.mem_eraseIdx_iff_getElem?.mpr ⟨j, Ne.symm hij, hj⟩) hs)).2

/-- Storing an inline record in the hole. -/
theorem fill_inline (h : Hole m i) (hi : i < m.entries.length) {e : BufferEntry} (he : EntryWF e)
    (hs : e.dataSize = 0) {l : List TypedEntry} (hl : ∀ j, i ≠ j → l[j]? = m.abs[j]?)
    (hlen : l.length = m.entries.length) :
    WF { m with entries := m.entries.set i e } ∧
      ({ m with entries := m.entries.set i e } : Metadata).abs = l.set i (m.absEntry e) := by
  refine ⟨⟨?_, ?_, h.dataCount_le, h.dataCapacity_lt, h.data_length, ?_⟩, ?_⟩
  · intro f hf
    rcases List.mem_or_eq_of_mem_set hf with hf | rfl
    · exact h.entry f hf
    · exact he
  · have hp := regions_perm_set hi e
    rw [region?_of_zero hs, Option.toList_none, List.nil_append] at hp
    exact h.tiles.perm hp.symm
  · show (m.entries.set i e).length ≤ _
    rw [List.length_set]
    exact h.entries_le
  · exact abs_set (m := m) (d := m.data) (n := m.dataCount) rfl hl hlen (fun _ _ _ _ => rfl)

/-- Storing a record whose payload is appended to the data area. -/
theorem fill_append (h : Hole m i) (hi : i < m.entries.length) (tag : ℕ) {count type : ℕ}
    (ht : type < numTypes) (hs : 0 < calculateCameraMetadataEntryDataSize type count)
    (hroom : m.dataCount + calculateCameraMetadataEntryDataSize type count ≤ m.dataCapacity)
    {p : List UInt8} (hp : p.length = count * cameraMetadataTypeSize type)
    {l : List TypedEntry} (hl : ∀ j, i ≠ j → l[j]? = m.abs[j]?)
    (hlen : l.length = m.entries.length) :
    let m' : Metadata :=
      { m with
        data := memcpy m.data m.dataCount p
        dataCount := m.dataCount + calculateCameraMetadataEntryDataSize type count
        entries := m.entries.set i ⟨tag, count, leBytes 4 m.dataCount, type⟩ }
    WF m' ∧ m'.abs = l.set i ⟨tag, type, p⟩ := by
  intro m'
  have hcap := h.dataCapacity_lt
  have hdl := h.data_length
  have hpl := le_entryDataSize ht (Nat.ne_of_gt hs)
  have h4 : ¬ count * cameraMetadataTypeSize type ≤ 4 := fun hc =>
    Nat.ne_of_gt hs ((entryDataSize_eq_zero ht).mpr hc)
  set e : BufferEntry := ⟨tag, count, leBytes 4 m.dataCount, type⟩ with he
  have hoff : e.offset = m.dataCount := offset_mk (by omega)
  refine ⟨⟨?_, ?_, hroom, hcap, ?_, ?_⟩, ?_⟩
  · intro f hf
    rcases List.mem_or_eq_of_mem_set hf with hf | rfl
    · exact h.entry f hf
    · exact ⟨ht, length_leBytes 4 _⟩
  · have hr : e.region? = some ⟨m.dataCount, calculateCameraMetadataEntryDataSize type count⟩ := by
      rw [region?_of_pos (e := e) hs, hoff]
      rfl
    have hperm := regions_perm_set hi e
    rw [hr, Option.toList_some] at hperm
    exact (h.tiles.snoc hs).perm (List.perm_append_comm.trans hperm.symm)
  · show (memcpy _ _ _).length = _
    rw [length_memcpy (by omega)]
    exact hdl
  · show (m.entries.set i e).length ≤ _
    rw [List.length_set]
    exact h.entries_le
  · refine abs_set (m := m) ?_ hl hlen ?_
    · show TypedEntry.mk tag type _ = _
      congr 1
      unfold Metadata.payload
      dsimp only
      rw [if_pos (by show count * cameraMetadataTypeSize type > 4; omega), hoff]
      show slice _ _ (count * cameraMetadataTypeSize type) = p
      rw [← hp]
      exact slice_memcpy_self (by omega)
    · intro j f hij hj
      unfold Metadata.absEntry
      rw [payload_memcpy_above (h.entry f (List.mem_of_getElem? hj)) (by omega)
        (fun hfs => h.region_le hj hij hfs)]

end Hole

end IntelCamera
