import IntelCamera.CameraMap
import IntelCamera.Metadata.Asserts

/-!
# CameraAssert — `CameraMetadata::update` in a build with assertions

The methods once more, on top of the asserting operations: `none` is a process that ended in an `assert`.
On an object whose packet passes, room is made without an assertion in the way (`resizeIfNeeded_eq`), and
what is stored passes unless no values are written over a data word that is not zero (`store_spec`).  So an
update does what it does without assertions, or ends the process (`update_spec`).

`Rewritten` follows the records that are not written: they stay, or move down over the data taken out.
-/

namespace IntelCamera

open Lib

namespace Asserting

/-- `CameraMetadata::resizeIfNeeded`. -/
def resizeIfNeeded (L : Libc) (ops : Option VendorTagOps) (h : Heap) (c : CameraMetadata)
    (extraEntries extraData : ℕ) : Option (Status × Heap × CameraMetadata) :=
  match c.mBuffer, c.packet h with
  | some p, some m =>
    let newEntryCount := CameraMetadata.grownCapacity m.entryCount m.entryCapacity extraEntries
    let newDataCount := CameraMetadata.grownCapacity m.dataCount m.dataCapacity extraData
    if m.entryCapacity < newEntryCount ∨ m.dataCapacity < newDataCount then
      match allocateCameraMetadata L ops newEntryCount newDataCount with
      | none => none
      | some none => some (.noMemory, h, { c with mBuffer := none })
      | some (some fresh) => (appendCameraMetadata ops fresh m).map fun appended =>
        (.ok, (h.alloc appended.2).free p, { c with mBuffer := some h.next })
    else some (.ok, h, c)
  | _, _ =>
    match allocateCameraMetadata L ops (extraEntries * 2) (extraData * 2) with
    | none => none
    | some none => some (.noMemory, h, c)
    | some (some fresh) => some (.ok, h.alloc fresh, { c with mBuffer := some h.next })

/-- The entry written by `updateImpl`. -/
def store (L : Libc) (ops : Option VendorTagOps) (m : Metadata) (tag : ℕ) (data : List UInt8)
    (dataCount : ℕ) : Option (Status × Metadata) :=
  match findCameraMetadataEntry L m tag with
  | none => addCameraMetadataEntry ops m tag (some data) dataCount
  | some entry => updateCameraMetadataEntry ops m entry.index data dataCount

/-- `CameraMetadata::updateImpl`. -/
def updateImpl (L : Libc) (ops : Option VendorTagOps) (h : Heap) (c : CameraMetadata) (tag : ℕ)
    (inside : Option ℕ) (data : List UInt8) (dataCount : ℕ) :
    Option (Status × Heap × CameraMetadata) :=
  if c.mLocked then some (.invalidOperation, h, c) else
  match getCameraMetadataTagType ops tag with
  | none => some (.badValue, h, c)
  | some type =>
    if inside ≠ none ∧ inside = c.mBuffer then some (.invalidOperation, h, c) else
    let dataSize := calculateCameraMetadataEntryDataSize type.code dataCount
    match resizeIfNeeded L ops h c 1 dataSize with
    | none => none
    | some (.ok, h, c) =>
      match c.mBuffer, c.packet h with
      | some p, some m =>
        (store L ops m tag data dataCount).map fun stored => (stored.1, h.set p stored.2, c)
      | _, _ => some (.error, h, c)
    | some refused => some refused

/-- `CameraMetadata::update`. -/
def update (L : Libc) (ops : Option VendorTagOps) (h : Heap) (c : CameraMetadata) (tag : ℕ)
    (type : MetaType) (inside : Option ℕ) (data : List UInt8) (dataCount : ℕ) :
    Option (Status × Heap × CameraMetadata) :=
  if c.mLocked then some (.invalidOperation, h, c) else
  match CameraMetadata.checkType ops tag type with
  | .ok => updateImpl L ops h c tag inside data dataCount
  | res => some (res, h, c)

/-- A map whose packet passes. -/
def IsZeroedMap (ops : Option VendorTagOps) (m : Metadata) : Prop := IsMap ops (2 ^ 32) m ∧ Zeroed m

variable {L : Libc} {ops : Option VendorTagOps} {h : Heap} {c : CameraMetadata}

/-! ### Room -/

theorem allocate_eq {ec dc : ℕ} (hsz : calculateCameraMetadataSize ec dc < 2 ^ 32) :
    allocateCameraMetadata L ops ec dc = some (IntelCamera.allocateCameraMetadata L ec dc) := by
  unfold allocateCameraMetadata
  cases hm : IntelCamera.allocateCameraMetadata L ec dc with
  | none => rfl
  | some m =>
    obtain ⟨hmap, -, hent, -⟩ := CameraMetadata.allocate_isMap ops le_rfl hsz hm
    have hz : Zeroed m := by
      intro e he
      rw [hent] at he
      cases he
    exact if_pos ((asserted_iff le_rfl hmap.toIsTyped).mpr hz)

/-- The append that fills a new packet passes, since it takes the records over as they are. -/
theorem append_allocated_eq {ec dc : ℕ} {m fresh : Metadata} (hm : IsTyped ops (2 ^ 32) m)
    (hz : Zeroed m) (hsz : calculateCameraMetadataSize ec dc < 2 ^ 32) (hec : m.entryCount ≤ ec)
    (hdc : m.dataCount ≤ dc) (hf : IntelCamera.allocateCameraMetadata L ec dc = some fresh) :
    appendCameraMetadata ops fresh m = some (IntelCamera.appendCameraMetadata fresh m) := by
  obtain ⟨hs, -, habs, hent, -⟩ := CameraMetadata.append_allocated le_rfl hm.sound hsz hec hdc hf
  have ht : IsTyped ops (2 ^ 32) (IntelCamera.appendCameraMetadata fresh m).2 :=
    ⟨hs, by rw [habs]; exact hm.typed⟩
  refine closing_asserted ((asserted_iff le_rfl ht).mpr fun e he => ?_)
  rw [hent] at he
  exact hz e he

/-- **No assertion stands in the way of a resize.** -/
theorem resizeIfNeeded_eq (hc : c.Holds (fun m => IsTyped ops (2 ^ 32) m ∧ Zeroed m) h) {dataSize : ℕ}
    (hsz : c.requestSize h dataSize < 2 ^ 32) :
    resizeIfNeeded L ops h c 1 dataSize = some (c.resizeIfNeeded L h 1 dataSize) := by
  unfold resizeIfNeeded CameraMetadata.resizeIfNeeded
  unfold CameraMetadata.requestSize CameraMetadata.entryCount CameraMetadata.entryCapacity
    CameraMetadata.dataCount CameraMetadata.dataCapacity at hsz
  cases hb : c.mBuffer with
  | none =>
    have hgrown : ∀ n, CameraMetadata.grownCapacity 0 0 n = n * 2 := by
      intro n
      unfold CameraMetadata.grownCapacity
      split_ifs <;> omega
    rw [CameraMetadata.packet_none hb] at hsz ⊢
    simp only [Option.map_none, Option.getD_none, hgrown] at hsz
    dsimp only
    rw [allocate_eq hsz]
    cases IntelCamera.allocateCameraMetadata L (1 * 2) (dataSize * 2) <;> rfl
  | some p =>
    obtain ⟨m, hp, hm, hz⟩ := hc.packet p hb
    rw [CameraMetadata.packet_of_get hb hp] at hsz ⊢
    simp only [Option.map_some, Option.getD_some] at hsz
    dsimp only
    obtain ⟨-, hg1⟩ := CameraMetadata.le_grownCapacity m.entryCount m.entryCapacity 1
    obtain ⟨-, hg2⟩ := CameraMetadata.le_grownCapacity m.dataCount m.dataCapacity dataSize
    split_ifs
    · rw [allocate_eq hsz]
      cases hf : IntelCamera.allocateCameraMetadata L _ _ with
      | none => rfl
      | some fresh =>
        dsimp only
        rw [append_allocated_eq hm hz hsz (by omega) (by omega) hf]
        rfl
    · rfl

/-! ### Storing -/

/-- What storing `dataSize` bytes under `tag` does to the records under other tags: they stay, or move
down over the data taken out for it. -/
structure Rewritten (l : List BufferEntry) (tag dataSize : ℕ) (l' : List BufferEntry) : Prop where
  kept : ∀ f ∈ l, ∃ f' ∈ l', f'.tag = f.tag
  added : tag ∉ l.map (·.tag) → ∀ f' ∈ l', f'.tag ≠ tag → f' ∈ l
  updated : ∀ e ∈ l, e.tag = tag → ∀ f' ∈ l', f'.tag ≠ tag → ∃ f ∈ l,
    f' = if dataSize ≠ e.dataSize ∧ e.dataSize ≠ 0 then shiftOffset e.offset e.dataSize f else f

/-- No values are not written over a data word that is not zero. -/
def ClearWord (l : List BufferEntry) (tag count : ℕ) : Prop :=
  count = 0 → ∀ f ∈ l, f.tag = tag → f.offset = 0

section Store

variable {m : Metadata} {tag n : ℕ} {data : List UInt8} {t : MetaType}

/-- An add puts one record behind the others. -/
theorem add_records (hm : IsTyped ops (2 ^ 32) m) (ht : getCameraMetadataTagType ops tag = some t)
    (hok : (IntelCamera.addCameraMetadataEntry ops m tag (some data) n).1 = .ok) :
    ∃ e, e.tag = tag ∧
      (IntelCamera.addCameraMetadataEntry ops m tag (some data) n).2.entries = m.entries ++ [e] := by
  unfold IntelCamera.addCameraMetadataEntry at hok ⊢
  rw [ht] at hok ⊢
  dsimp only at hok ⊢
  rw [addRaw_eq hm.sound.wf t.code_lt hok]
  split_ifs
  · exact ⟨_, rfl, rfl⟩
  · exact ⟨_, rfl, rfl⟩

theorem rewritten_add {l : List BufferEntry} {e : BufferEntry} {dataSize : ℕ}
    (hnew : e.tag ∉ l.map (·.tag)) : Rewritten l e.tag dataSize (l ++ [e]) := by
  refine ⟨fun f hf => ⟨f, List.mem_append_left _ hf, rfl⟩, fun _ f hf hne => ?_, fun f hf htag => ?_⟩
  · rcases List.mem_append.mp hf with hf | hf
    · exact hf
    · exact absurd (congrArg BufferEntry.tag (List.mem_singleton.mp hf)) hne
  · exact absurd (List.mem_map.mpr ⟨f, hf, htag⟩) hnew

theorem rewritten_update {i : ℕ} {e : BufferEntry} (hn : (m.entries.map (·.tag)).Nodup)
    (hi : m.entries[i]? = some e)
    (hok : (IntelCamera.updateCameraMetadataEntry m i data n).1 = .ok) :
    Rewritten m.entries e.tag (calculateCameraMetadataEntryDataSize e.type n)
      (IntelCamera.updateCameraMetadataEntry m i data n).2.entries := by
  have htags := (update_tags (m := m) i data n).2
  have hmem : e ∈ m.entries := List.mem_of_getElem? hi
  refine ⟨fun f hf => ?_, fun hnew => absurd (List.mem_map_of_mem hmem) hnew, fun e' he' ht' f' hf' hne => ?_⟩
  · have hin : f.tag ∈ m.entries.map (·.tag) := List.mem_map_of_mem hf
    rw [← htags] at hin
    exact List.mem_map.mp hin
  · obtain rfl : e' = e := List.inj_on_of_nodup_map hn he' hmem ht'
    obtain ⟨j, hj⟩ := List.mem_iff_getElem?.mp hf'
    have hij : i ≠ j := by
      rintro rfl
      have h1 : (m.entries.map (·.tag))[i]? = some e'.tag := by rw [List.getElem?_map, hi, Option.map_some]
      rw [← htags, List.getElem?_map, hj, Option.map_some] at h1
      exact hne (Option.some.inj h1)
    rw [update_others hi hok hij] at hj
    obtain ⟨f, hf, hff⟩ := Option.map_eq_some_iff.mp hj
    exact ⟨f, List.mem_of_getElem? hf, hff.symm⟩

/-- **The data word decides** whether what is stored passes. -/
theorem store_spec (hm : IsZeroedMap ops m) (ht : getCameraMetadataTagType ops tag = some t)
    (hok : (CameraMetadata.store L ops m tag data n).1 = .ok)
    (hty : IsTyped ops (2 ^ 32) (CameraMetadata.store L ops m tag data n).2) :
    Rewritten m.entries tag (calculateCameraMetadataEntryDataSize t.code n)
        (CameraMetadata.store L ops m tag data n).2.entries ∧
      (ClearWord m.entries tag n → Zeroed (CameraMetadata.store L ops m tag data n).2 ∧
        store L ops m tag data n = some (CameraMetadata.store L ops m tag data n)) ∧
      (¬ ClearWord m.entries tag n → store L ops m tag data n = none) := by
  obtain ⟨hmap, hz⟩ := hm
  have hn : (m.entries.map (·.tag)).Nodup := by
    rw [← abs_tags]
    exact hmap.nodup
  unfold store CameraMetadata.store at *
  cases hf : findCameraMetadataEntry L m tag with
  | none =>
    simp only [hf] at hok hty ⊢
    have hnew : tag ∉ m.entries.map (·.tag) := by
      rw [← abs_tags]
      exact hmap.find_none hf
    have hz' : Zeroed (IntelCamera.addCameraMetadataEntry ops m tag (some data) n).2 :=
      fun e he => (add_checked hmap.sound.wf (hmap.checked hz) tag data n e he).empty
    obtain ⟨e, rfl, hent⟩ := add_records hmap.toIsTyped ht hok
    refine ⟨?_, fun _ => ⟨hz', closing_asserted ((asserted_iff le_rfl hty).mpr hz')⟩, fun hno => ?_⟩
    · rw [hent]
      exact rewritten_add hnew
    · exact absurd (fun _ f hf' htag => absurd (List.mem_map.mpr ⟨f, hf', htag⟩) hnew) hno
  | some x =>
    simp only [hf] at hok hty ⊢
    obtain ⟨e, hi, rfl, -⟩ := find_entry hf
    have hmem : e ∈ m.entries := List.mem_of_getElem? hi
    have htype : t.code = e.type := by
      have := hmap.typed (m.absEntry e) (List.mem_map_of_mem hmem)
      rw [show (m.absEntry e).tag = e.tag from rfl, ht] at this
      exact Option.some.inj this
    have hclear : ClearWord m.entries e.tag n ↔ (n = 0 → e.offset = 0) := by
      refine ⟨fun h h0 => h h0 e hmem rfl, fun h h0 f hf' htag => ?_⟩
      obtain rfl : f = e := List.inj_on_of_nodup_map hn hf' hmem htag
      exact h h0
    rw [htype, hclear, ← update_zeroed_iff hz hi hmap.toIsTyped hok]
    refine ⟨rewritten_update hn hi hok, fun hz' => ⟨hz', closing_asserted ?_⟩, fun hz' => closing_fails hok ?_⟩
    · exact (asserted_iff le_rfl hty).mpr hz'
    · exact fun ha => hz' ha.zeroed

end Store

/-! ### Update -/

/-- **An update in a build with assertions** does what it does without them, or ends the process: it
does so when no values are written over a data word that is not zero. -/
theorem update_spec (hmalloc : ∀ n, (L.malloc n).isSome) (hc : c.Holds (IsZeroedMap ops) h)
    {tag n : ℕ} {t : MetaType} {inside : Option ℕ} {data : List UInt8}
    (ht : getCameraMetadataTagType ops tag = some t)
    (hd : n * cameraMetadataTypeSize t.code ≤ data.length)
    (hin : ¬ (inside ≠ none ∧ inside = c.mBuffer))
    (hsz : c.requestSize h (calculateCameraMetadataEntryDataSize t.code n) < 2 ^ 32) :
    (ClearWord (c.records h) tag n → ∃ h' c',
      c.update L ops h tag t inside data n = (.ok, h', c') ∧
        update L ops h c tag t inside data n = some (.ok, h', c') ∧
        c'.Holds (IsZeroedMap ops) h' ∧
        Rewritten (c.records h) tag (calculateCameraMetadataEntryDataSize t.code n) (c'.records h')) ∧
    (¬ ClearWord (c.records h) tag n → update L ops h c tag t inside data n = none) := by
  have hct := hc.mono fun _ hm => And.intro hm.1.toIsTyped hm.2
  obtain ⟨h₁, c₁, p, m, hr, hres, hok, hst, hu⟩ := CameraMetadata.update_steps (L := L) le_rfl hmalloc
    (hc.mono fun _ hm => hm.1.toIsTyped) ht hd hin hsz
  have hres' := resizeIfNeeded_eq (L := L) hct hsz
  have hpk := CameraMetadata.packet_of_get hres.buffer hres.get
  have hmap : IsZeroedMap ops m := by
    refine ⟨(hres.map (hc.mono fun _ hm => hm.1)).1, fun e he => ?_⟩
    rw [hres.records] at he
    unfold CameraMetadata.records at he
    cases hpo : c.packet h with
    | none =>
      rw [hpo] at he
      cases he
    | some old =>
      obtain ⟨q, hb, hq⟩ := Option.bind_eq_some_iff.mp hpo
      rw [hpo] at he
      exact (hc.of_get hb hq).2 e he
  obtain ⟨hrw, hpass, hfail⟩ := store_spec (L := L) hmap ht hok hst.typed
  rw [hres.records] at hrw hpass hfail
  have hcheck : CameraMetadata.checkType ops tag t = .ok := by
    unfold CameraMetadata.checkType
    rw [ht]
    exact if_neg (not_not.mpr rfl)
  -- both ways come down to what is stored
  have hupd : update L ops h c tag t inside data n =
      (store L ops m tag data n).map fun stored => (stored.1, h₁.set p stored.2, c₁) := by
    unfold update
    rw [if_neg (by rw [hc.unlocked]; exact Bool.false_ne_true), hcheck]
    dsimp only
    unfold updateImpl
    rw [if_neg (by rw [hc.unlocked]; exact Bool.false_ne_true), ht]
    dsimp only
    rw [if_neg hin, hres', hr]
    dsimp only
    rw [hres.buffer, hpk]
  refine ⟨fun hclear => ?_, fun hclear => ?_⟩
  · obtain ⟨hz, hs⟩ := hpass hclear
    have hget := Store.get_set (a := (CameraMetadata.store L ops m tag data n).2) (Store.lt_next hres.get)
    refine ⟨_, c₁, hu, ?_, ⟨hres.locked.trans hc.unlocked, fun q hq => ?_⟩, ?_⟩
    · rw [hupd, hs, Option.map_some, hok]
    · rw [hres.buffer] at hq
      obtain rfl := Option.some.inj hq
      exact ⟨_, hget, (hst.map hmap.1).1, hz⟩
    · rw [CameraMetadata.records_of_packet (CameraMetadata.packet_of_get hres.buffer hget)]
      exact hrw
  · rw [hupd, hfail hclear]
    rfl

/-- The packet of the first value passes. -/
theorem update_first (h : Heap) (data : List UInt8) (hd : data.length ≤ 4) : ∃ h' c',
    CameraMetadata.update referenceLibc none h .empty controlAeMode .byte none data data.length =
        (.ok, h', c') ∧
      CameraMetadata.Updated none (2 ^ 32) h .empty ⟨controlAeMode, MetaType.byte.code, data⟩ 0 h' c' ∧
      c'.Holds (IsZeroedMap none) h' := by
  have hempty : CameraMetadata.empty.Holds (IsZeroedMap none) h := ⟨rfl, fun q hq => by cases hq⟩
  have hin : ¬ ((none : Option ℕ) ≠ none ∧ none = CameraMetadata.empty.mBuffer) := fun hin => hin.1 rfl
  have hbytes : data.length * cameraMetadataTypeSize MetaType.byte.code = data.length := Nat.mul_one _
  have hsize : calculateCameraMetadataEntryDataSize MetaType.byte.code data.length = 0 :=
    (entryDataSize_eq_zero MetaType.byte.code_lt).mpr (by rw [hbytes]; exact hd)
  obtain ⟨h', c', hu, hup⟩ := CameraMetadata.update_first h data hd
  obtain ⟨h'', c'', hu', -, hz, -⟩ := (update_spec (L := referenceLibc) (fun _ => rfl) hempty
    (show getCameraMetadataTagType none controlAeMode = some MetaType.byte from rfl) hbytes.le hin
    (by rw [hsize]; show calculateCameraMetadataSize 2 0 < 2 ^ 32; decide)).1 (fun _ f hf => by cases hf)
  rw [hu] at hu'
  obtain ⟨rfl, rfl⟩ : h' = h'' ∧ c' = c'' := by simpa using hu'
  exact ⟨h', c', hu, hup, hz⟩

end Asserting

end IntelCamera
