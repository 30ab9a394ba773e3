import IntelCamera.Lib.Keyed
import IntelCamera.Metadata.Ops

/-!
# Metadata.Refine — a buffer refines the list of its entries

`Built L ops G m`: `m` is the outcome of some sequence of the public operations, each of them
started within the limits `G` (on the sizes requested from the allocator, on the two buffers of an
append, on the record and the count of an update).  Several buffers may be in play: the source of an
append, of a copy and of a clone is itself `Built`.

`Sound` holds of every built buffer (`Built.sound`): the layout invariant and the geometry fixed at
allocation.  `SortedOk` is the meaning of `FLAG_SORTED`; the one operation that breaks it is an
append onto an empty buffer that still carries the flag.
-/

namespace IntelCamera

open Lib

/-- What a run may ask for. -/
structure Limits where
  alloc : ℕ → ℕ → Prop
  append : Metadata → Metadata → Prop
  update : BufferEntry → ℕ → Prop

/-- Buffers obtained by any sequence of operations within `G`. -/
inductive Built (L : Libc) (ops : Option VendorTagOps) (G : Limits) : Metadata → Prop
  | allocate {ec dc : ℕ} {m : Metadata} : G.alloc ec dc → allocateCameraMetadata L ec dc = some m →
      Built L ops G m
  | place {dst : ℕ → UInt8} {n ec dc : ℕ} {m : Metadata} : G.alloc ec dc →
      placeCameraMetadata dst n ec dc = some m → Built L ops G m
  | copy {dst : ℕ → UInt8} {n : ℕ} {src m : Metadata} : Built L ops G src →
      copyCameraMetadata dst n src = some m → Built L ops G m
  | clone {src m : Metadata} : Built L ops G src → cloneCameraMetadata L src = some m →
      Built L ops G m
  | add {m : Metadata} {tag : ℕ} {data : List UInt8} {n : ℕ} : Built L ops G m →
      (∀ t, getCameraMetadataTagType ops tag = some t →
        n * cameraMetadataTypeSize t.code ≤ data.length) →
      Built L ops G (addCameraMetadataEntry ops m tag (some data) n).2
  | update {m : Metadata} {i : ℕ} {data : List UInt8} {n : ℕ} : Built L ops G m →
      (∀ e, m.entries[i]? = some e →
        n * cameraMetadataTypeSize e.type ≤ data.length ∧ G.update e n) →
      Built L ops G (updateCameraMetadataEntry m i data n).2
  | delete {m : Metadata} {i : ℕ} : Built L ops G m →
      Built L ops G (deleteCameraMetadataEntry m i).2
  | append {dst src : Metadata} : Built L ops G dst → Built L ops G src → G.append dst src →
      Built L ops G (appendCameraMetadata dst src).2
  | sort {m : Metadata} : Built L ops G m → Built L ops G (sortCameraMetadata L m).2

/-- The invariant of every built buffer. -/
structure Sound (bound : ℕ) (m : Metadata) : Prop where
  wf : WF m
  geometry : ∃ ec dc, Geometry m ec dc ∧ calculateCameraMetadataSize ec dc < bound

theorem Sound.compact_lt {B : ℕ} {m : Metadata} (h : Sound B m) :
    getCameraMetadataCompactSize m < B := by
  obtain ⟨ec, dc, hg, hsz⟩ := h.geometry
  exact lt_of_le_of_lt (h.wf.compactSize_le hg) hsz

/-- The counts of a buffer stay below its size. -/
theorem Sound.counts_lt {B : ℕ} {m : Metadata} (h : Sound B m) :
    16 * m.entryCount + m.dataCount < B := by
  have hc := h.compact_lt
  have hal := le_alignTo (36 + 16 * m.entryCount)
  unfold getCameraMetadataCompactSize at hc
  rw [calculateSize_eq] at hc
  omega

theorem Geometry.of_header {m m' : Metadata} {ec dc : ℕ} (h : Geometry m ec dc)
    (hh : SameHeader m m') : Geometry m' ec dc :=
  ⟨hh.size.trans h.size, hh.entryCapacity.trans h.entryCapacity,
    hh.entriesStart.trans h.entriesStart, hh.dataCapacity.trans h.dataCapacity,
    hh.dataStart.trans h.dataStart⟩

theorem Sound.of_header {B : ℕ} {m m' : Metadata} (h : Sound B m) (hw : WF m')
    (hh : SameHeader m m') : Sound B m' := by
  obtain ⟨ec, dc, hg, hsz⟩ := h.geometry
  exact ⟨hw, ec, dc, hg.of_header hh, hsz⟩

/-! ### Steps -/

section Steps

variable {L : Libc} {ops : Option VendorTagOps} {B : ℕ} {m : Metadata}

theorem Sound.add (h : Sound B m) {tag : ℕ} {data : List UInt8} {n : ℕ}
    (hd : ∀ t, getCameraMetadataTagType ops tag = some t →
      n * cameraMetadataTypeSize t.code ≤ data.length) :
    Sound B (addCameraMetadataEntry ops m tag (some data) n).2 := by
  unfold addCameraMetadataEntry
  cases ht : getCameraMetadataTagType ops tag with
  | none => exact h
  | some t =>
    dsimp only
    by_cases hok : (addCameraMetadataEntryRaw m tag t.code (some data) n).1 = .ok
    · exact h.of_header (addRaw_spec h.wf t.code_lt (hd t ht) hok).1 addRaw_header
    · rw [addRaw_refused hok]
      exact h

theorem Sound.update (h : Sound B m) {i : ℕ} {data : List UInt8} {n : ℕ}
    (hd : ∀ e, m.entries[i]? = some e → n * cameraMetadataTypeSize e.type ≤ data.length) :
    Sound B (updateCameraMetadataEntry m i data n).2 := by
  by_cases hok : (updateCameraMetadataEntry m i data n).1 = .ok
  · cases hi : m.entries[i]? with
    | none =>
      rw [update_none hi]
      exact h
    | some e =>
      obtain ⟨h1, -, h3⟩ := update_spec h.wf hi (hd e hi) hok
      exact h.of_header h1 h3
  · rw [update_refused hok]
    exact h

theorem Sound.delete (h : Sound B m) (i : ℕ) : Sound B (deleteCameraMetadataEntry m i).2 := by
  by_cases hok : (deleteCameraMetadataEntry m i).1 = .ok
  · obtain ⟨h1, -, h3⟩ := delete_spec h.wf hok
    exact h.of_header h1 h3
  · rw [delete_refused hok]
    exact h

theorem Sound.append (hB : B ≤ 2 ^ 32) {src : Metadata} (h : Sound B m) (hs : Sound B src)
    (hd : (appendCameraMetadata m src).1 = .ok → src.dataCount + m.dataCount < 2 ^ 32) :
    Sound B (appendCameraMetadata m src).2 := by
  have h1 := h.counts_lt
  have h2 := hs.counts_lt
  by_cases hok : (appendCameraMetadata m src).1 = .ok
  · exact h.of_header (append_spec h.wf hs.wf (by omega) (hd hok) hok).1 append_header
  · rw [append_refused hok]
    exact h

theorem Sound.sort (h : Sound B m) : Sound B (sortCameraMetadata L m).2 := by
  obtain ⟨h1, -, h3, -⟩ := sort_spec (L := L) h.wf
  exact h.of_header h1 h3

theorem Sound.clone (hB : B ≤ 2 ^ 32) {src : Metadata} (h : Sound B src)
    (hm : cloneCameraMetadata L src = some m) : Sound B m := by
  have hc := h.compact_lt
  obtain ⟨h1, -, h3, -⟩ := clone_spec h.wf (by omega) hm
  exact ⟨h1, _, _, h3, hc⟩

theorem Sound.copy (hB : B ≤ 2 ^ 32) {src : Metadata} (h : Sound B src) {dst : ℕ → UInt8} {n : ℕ}
    (hm : copyCameraMetadata dst n src = some m) : Sound B m := by
  have hc := h.compact_lt
  obtain ⟨h1, -, h3, -⟩ := copy_spec h.wf (by omega) hm
  exact ⟨h1, _, _, h3, hc⟩

/-- **Every built buffer is sound**, when the requested sizes and the appended totals fit. -/
theorem Built.sound {G : Limits} (hB : B ≤ 2 ^ 32)
    (hal : ∀ ec dc, G.alloc ec dc → calculateCameraMetadataSize (u32 ec) (u32 dc) < B)
    (hap : ∀ dst src, Sound B dst → Sound B src → G.append dst src →
      (appendCameraMetadata dst src).1 = .ok → src.dataCount + dst.dataCount < 2 ^ 32)
    (h : Built L ops G m) : Sound B m := by
  induction h with
  | allocate hsz hm =>
    have hs := hal _ _ hsz
    obtain ⟨h1, -, h3, -⟩ := allocate_spec (by omega) hm
    exact ⟨h1, _, _, h3, hs⟩
  | place hsz hm =>
    have hs := hal _ _ hsz
    obtain ⟨h1, -, h3, -⟩ := place_spec (by omega) hm
    exact ⟨h1, _, _, h3, hs⟩
  | copy _ hm ih => exact ih.copy hB hm
  | clone _ hm ih => exact ih.clone hB hm
  | add _ hd ih => exact ih.add hd
  | update _ hd ih => exact ih.update (fun e he => (hd e he).1)
  | delete _ ih => exact ih.delete _
  | append _ _ hg ih1 ih2 => exact ih1.append hB ih2 (hap _ _ ih1 ih2 hg)
  | sort _ ih => exact ih.sort

end Steps

/-! ### `FLAG_SORTED` -/

/-- Ascending tags. -/
def Ascending (m : Metadata) : Prop := m.abs.Pairwise fun a b => a.tag ≤ b.tag

instance (m : Metadata) : Decidable (Ascending m) :=
  inferInstanceAs (Decidable (m.abs.Pairwise fun a b => a.tag ≤ b.tag))

/-- The meaning of `FLAG_SORTED`. -/
def SortedOk (m : Metadata) : Prop := m.isSorted = true → Ascending m

theorem ascending_iff_tags (m : Metadata) :
    Ascending m ↔ (m.entries.map (·.tag)).Pairwise (· ≤ ·) := by
  unfold Ascending Metadata.abs
  rw [List.pairwise_map, List.pairwise_map]
  rfl

theorem isSorted_eq_testBit (m : Metadata) : m.isSorted = m.flags.testBit 0 := by
  unfold Metadata.isSorted flagSorted
  rw [Nat.and_one_is_mod, Nat.testBit_zero]
  rcases Nat.mod_two_eq_zero_or_one m.flags with h | h <;> simp [h]

theorem testBit_clearSorted (f : ℕ) : (clearSorted f).testBit 0 = false := by
  unfold clearSorted flagSorted
  rw [Nat.testBit_xor, Nat.testBit_and, show Nat.testBit 1 0 = true from rfl, Bool.and_true,
    Bool.xor_self]

theorem sortedOk_of_clear {m : Metadata} {f : ℕ} (hf : m.flags = clearSorted f) : SortedOk m := by
  intro hs
  rw [isSorted_eq_testBit, hf, testBit_clearSorted] at hs
  cases hs

/-- The flag and the order of the tags are all `SortedOk` looks at. -/
theorem SortedOk.of_tags {m m' : Metadata} (h : SortedOk m) (hf : m'.flags = m.flags)
    (ht : (m'.entries.map (·.tag)).Sublist (m.entries.map (·.tag))) : SortedOk m' := by
  intro hs
  have hs' : m.isSorted = true := by
    rw [isSorted_eq_testBit, ← hf, ← isSorted_eq_testBit]
    exact hs
  rw [ascending_iff_tags]
  exact ((ascending_iff_tags m).mp (h hs')).sublist ht

theorem removeData_tags (m : Metadata) (e : BufferEntry) :
    (removeData m e).entries.map (·.tag) = m.entries.map (·.tag) := by
  show (m.entries.map _).map _ = _
  simp

section Sorted

variable {L : Libc} {ops : Option VendorTagOps} {m : Metadata}

theorem SortedOk.add (h : SortedOk m) (tag : ℕ) (data : Option (List UInt8)) (n : ℕ) :
    SortedOk (addCameraMetadataEntry ops m tag data n).2 := by
  unfold addCameraMetadataEntry addCameraMetadataEntryRaw
  cases getCameraMetadataTagType ops tag with
  | none => exact h
  | some t =>
    cases data with
    | none =>
      dsimp only
      split_ifs <;> exact h
    | some data =>
      dsimp only
      split_ifs
      · exact h
      · exact h
      · exact sortedOk_of_clear rfl
      · exact sortedOk_of_clear rfl

/-- An update touches neither the flag nor a tag. -/
theorem update_tags (i : ℕ) (data : List UInt8) (n : ℕ) :
    (updateCameraMetadataEntry m i data n).2.flags = m.flags ∧
      (updateCameraMetadataEntry m i data n).2.entries.map (·.tag) = m.entries.map (·.tag) := by
  unfold updateCameraMetadataEntry
  cases hi : m.entries[i]? with
  | none => exact ⟨rfl, rfl⟩
  | some e =>
    dsimp only
    have hset : ∀ (m' : Metadata) (e' : BufferEntry),
        m'.entries.map (·.tag) = m.entries.map (·.tag) → e'.tag = e.tag →
          (m'.entries.set i e').map (·.tag) = m.entries.map (·.tag) := by
      intro m' e' hm he
      have hi' : (m'.entries.map (·.tag))[i]? = some e.tag := by
        rw [hm, List.getElem?_map, hi, Option.map_some]
      rw [List.getElem?_map, Option.map_eq_some_iff] at hi'
      obtain ⟨f, hf, hft⟩ := hi'
      rw [map_set_same hf (he.trans hft.symm), hm]
    split_ifs
    · exact ⟨rfl, rfl⟩
    · exact ⟨rfl, hset _ _ (removeData_tags m e) rfl⟩
    · exact ⟨rfl, hset m _ rfl rfl⟩
    · exact ⟨rfl, hset _ _ (removeData_tags m e) rfl⟩
    · exact ⟨rfl, hset m _ rfl rfl⟩
    · exact ⟨rfl, hset _ _ (removeData_tags m e) rfl⟩
    · exact ⟨rfl, hset m _ rfl rfl⟩

theorem SortedOk.update (h : SortedOk m) (i : ℕ) (data : List UInt8) (n : ℕ) :
    SortedOk (updateCameraMetadataEntry m i data n).2 := by
  obtain ⟨hf, ht⟩ := update_tags (m := m) i data n
  exact h.of_tags hf (by rw [ht])

theorem SortedOk.delete (h : SortedOk m) (i : ℕ) :
    SortedOk (deleteCameraMetadataEntry m i).2 := by
  unfold deleteCameraMetadataEntry
  cases m.entries[i]? with
  | none => exact h
  | some e =>
    dsimp only
    split_ifs
    · refine h.of_tags rfl ?_
      rw [← List.eraseIdx_map, removeData_tags]
      exact List.eraseIdx_sublist _ _
    · refine h.of_tags rfl ?_
      rw [← List.eraseIdx_map]
      exact List.eraseIdx_sublist _ _

theorem SortedOk.sort (h : SortedOk m) : Ascending (sortCameraMetadata L m).2 := by
  unfold sortCameraMetadata
  by_cases hs : m.isSorted = true
  · rw [if_pos hs]
    exact h hs
  · rw [if_neg hs, ascending_iff_tags]
    refine List.Pairwise.map _ (fun a b hab => ?_)
      (L.qsort_sorted compareEntryTags m.entries compareEntryTags_consistent)
    exact compareEntryTags_le.mp hab

theorem movedEntries_tags (n : ℕ) (l : List BufferEntry) :
    (movedEntries n l).map (·.tag) = l.map (·.tag) := by
  unfold movedEntries
  split_ifs
  · rw [List.map_map]
    exact List.map_congr_left fun e _ => movedEntry_tag n e
  · rfl

/-- **The one step that may break `SortedOk`**: onto an empty buffer that carries the flag, the
source has to be in order. -/
theorem SortedOk.append {dst src : Metadata} (h : SortedOk dst) (hs : SortedOk src)
    (hg : dst.entryCount = 0 → dst.isSorted = true → Ascending src) :
    SortedOk (appendCameraMetadata dst src).2 := by
  unfold appendCameraMetadata
  split_ifs
  · exact h
  · exact h
  · intro hf
    rw [isSorted_eq_testBit] at hf
    rw [ascending_iff_tags]
    dsimp only at hf ⊢
    rw [List.map_append, movedEntries_tags]
    unfold appendFlags at hf
    split_ifs at hf with h0 h1
    · have hnil : dst.entries = [] := List.length_eq_zero_iff.mp h0
      rw [hnil, List.map_nil, List.nil_append, ← ascending_iff_tags]
      by_cases hd : dst.isSorted = true
      · exact hg h0 hd
      · apply hs
        rw [isSorted_eq_testBit] at hd ⊢
        unfold flagSorted at hf
        rw [Nat.testBit_or, Nat.testBit_and] at hf
        simpa [hd] using hf
    · rw [testBit_clearSorted] at hf
      cases hf
    · have hnil : src.entries = [] := List.length_eq_zero_iff.mp (not_not.mp h1)
      rw [hnil, List.map_nil, List.append_nil, ← ascending_iff_tags]
      exact h (by rw [isSorted_eq_testBit]; exact hf)

/-- A packet that was just placed is empty and carries no flag. -/
theorem place_clean {dst : ℕ → UInt8} {n ec dc : ℕ} (h : placeCameraMetadata dst n ec dc = some m) :
    m.entries = [] ∧ m.isSorted = false := by
  unfold placeCameraMetadata at h
  dsimp only at h
  split_ifs at h
  obtain rfl := Option.some.inj h
  refine ⟨rfl, ?_⟩
  rw [isSorted_eq_testBit]
  exact Nat.zero_testBit 0

theorem allocate_clean {ec dc : ℕ} (h : allocateCameraMetadata L ec dc = some m) :
    m.entries = [] ∧ m.isSorted = false := by
  unfold allocateCameraMetadata at h
  dsimp only at h
  split at h
  · cases h
  · exact place_clean h

theorem sortedOk_of_clean (h : m.entries = [] ∧ m.isSorted = false) : SortedOk m := by
  intro hs
  rw [h.2] at hs
  cases hs

theorem SortedOk.copy {dst : ℕ → UInt8} {n : ℕ} {src : Metadata} (h : SortedOk src)
    (hm : copyCameraMetadata dst n src = some m) : SortedOk m := by
  unfold copyCameraMetadata at hm
  split_ifs at hm
  split at hm
  · cases hm
  · obtain rfl := Option.some.inj hm
    exact h.of_tags rfl (List.Sublist.refl _)

/-- The clone starts out clean, so the append that fills it keeps the state of the source. -/
theorem SortedOk.clone {src : Metadata} (h : SortedOk src)
    (hm : cloneCameraMetadata L src = some m) : SortedOk m := by
  unfold cloneCameraMetadata at hm
  split at hm
  · cases hm
  · next c hc =>
    have hclean := allocate_clean hc
    split at hm
    · next r hr =>
      obtain rfl := Option.some.inj hm
      have happ := (sortedOk_of_clean hclean).append h fun _ hs => by
        rw [hclean.2] at hs
        cases hs
      rwa [hr] at happ
    · cases hm

/-- **In every built buffer `FLAG_SORTED` tells the truth**, when the appends respect it. -/
theorem Built.sortedOk {G : Limits}
    (hap : ∀ dst src, Built L ops G dst → Built L ops G src → G.append dst src →
      (appendCameraMetadata dst src).1 = .ok → dst.entryCount = 0 → dst.isSorted = true →
      Ascending src)
    (h : Built L ops G m) : SortedOk m := by
  induction h with
  | allocate _ hm => exact sortedOk_of_clean (allocate_clean hm)
  | place _ hm => exact sortedOk_of_clean (place_clean hm)
  | copy _ hm ih => exact ih.copy hm
  | clone _ hm ih => exact ih.clone hm
  | add _ _ ih => exact ih.add _ _ _
  | update _ _ ih => exact ih.update _ _ _
  | delete _ ih => exact ih.delete _
  | @append dst src hd hs hg ih1 ih2 =>
    by_cases hok : (appendCameraMetadata dst src).1 = .ok
    · exact ih1.append ih2 (hap _ _ hd hs hg hok)
    · rw [append_refused hok]
      exact ih1
  | sort _ ih => exact fun _ => ih.sort

end Sorted

/-! ### The refinement -/

/-- What the operations do to a buffer `m`, read on the list it stands for; `operand` are the
buffers that may be appended to it. -/
structure RefinesList (L : Libc) (ops : Option VendorTagOps) (operand : Metadata → Prop)
    (m : Metadata) : Prop where
  add : ∀ tag data n t, getCameraMetadataTagType ops tag = some t →
    n * cameraMetadataTypeSize t.code ≤ data.length →
    (addCameraMetadataEntry ops m tag (some data) n).1 = .ok →
    (addCameraMetadataEntry ops m tag (some data) n).2.abs =
      m.abs ++ [⟨tag, t.code, data.take (n * cameraMetadataTypeSize t.code)⟩]
  add_error : ∀ tag data n, (addCameraMetadataEntry ops m tag data n).1 ≠ .ok →
    (addCameraMetadataEntry ops m tag data n).2.abs = m.abs
  update : ∀ i data n x, m.abs[i]? = some x → n * cameraMetadataTypeSize x.type ≤ data.length →
    (updateCameraMetadataEntry m i data n).1 = .ok →
    (updateCameraMetadataEntry m i data n).2.abs =
      m.abs.set i { x with payload := data.take (n * cameraMetadataTypeSize x.type) }
  update_error : ∀ i data n, (updateCameraMetadataEntry m i data n).1 ≠ .ok →
    (updateCameraMetadataEntry m i data n).2.abs = m.abs
  delete : ∀ i, (deleteCameraMetadataEntry m i).1 = .ok →
    i < m.abs.length ∧ (deleteCameraMetadataEntry m i).2.abs = m.abs.eraseIdx i
  delete_error : ∀ i, (deleteCameraMetadataEntry m i).1 ≠ .ok →
    (deleteCameraMetadataEntry m i).2.abs = m.abs
  append : ∀ src, operand src → (appendCameraMetadata m src).1 = .ok →
    (appendCameraMetadata m src).2.abs = m.abs ++ src.abs
  append_error : ∀ src, (appendCameraMetadata m src).1 ≠ .ok →
    (appendCameraMetadata m src).2.abs = m.abs
  sort : (sortCameraMetadata L m).1 = .ok ∧ (sortCameraMetadata L m).2.abs.Perm m.abs ∧
    Ascending (sortCameraMetadata L m).2
  clone : ∃ c, cloneCameraMetadata L m = some c ∧ c.abs = m.abs
  get : ∀ i, (getCameraMetadataEntry m i).map (fun e => (⟨e.tag, e.type, e.data⟩ : TypedEntry)) =
    m.abs[i]?
  aligned : ∀ r ∈ regions m.entries, 8 ∣ r.off
  disjoint : (regions m.entries).Pairwise Region.Disjoint
  tiled : ∀ k, (∃ r ∈ regions m.entries, r.Contains k) ↔ k < m.dataCount

section Refinement

variable {L : Libc} {ops : Option VendorTagOps} {m : Metadata}

theorem add_refused {tag : ℕ} {data : Option (List UInt8)} {n : ℕ}
    (h : (addCameraMetadataEntry ops m tag data n).1 ≠ .ok) :
    (addCameraMetadataEntry ops m tag data n).2 = m := by
  unfold addCameraMetadataEntry at h ⊢
  cases ht : getCameraMetadataTagType ops tag with
  | none => rfl
  | some t =>
    rw [ht] at h
    cases data with
    | none =>
      unfold addCameraMetadataEntryRaw
      dsimp only
      split_ifs <;> rfl
    | some data => exact addRaw_refused h

theorem Sound.add_abs {B : ℕ} (h : Sound B m) {tag n : ℕ} {data : List UInt8} {t : MetaType}
    (ht : getCameraMetadataTagType ops tag = some t)
    (hd : n * cameraMetadataTypeSize t.code ≤ data.length)
    (hok : (addCameraMetadataEntry ops m tag (some data) n).1 = .ok) :
    (addCameraMetadataEntry ops m tag (some data) n).2.abs =
      m.abs ++ [⟨tag, t.code, data.take (n * cameraMetadataTypeSize t.code)⟩] := by
  unfold addCameraMetadataEntry at hok ⊢
  rw [ht] at hok ⊢
  exact (addRaw_spec h.wf t.code_lt hd hok).2

theorem Sound.update_abs {B : ℕ} (h : Sound B m) {i n : ℕ} {data : List UInt8} {x : TypedEntry}
    (hx : m.abs[i]? = some x) (hd : n * cameraMetadataTypeSize x.type ≤ data.length)
    (hok : (updateCameraMetadataEntry m i data n).1 = .ok) :
    (updateCameraMetadataEntry m i data n).2.abs =
      m.abs.set i { x with payload := data.take (n * cameraMetadataTypeSize x.type) } := by
  unfold Metadata.abs at hx
  rw [List.getElem?_map, Option.map_eq_some_iff] at hx
  obtain ⟨e, he, rfl⟩ := hx
  exact (update_spec h.wf he hd hok).2.1

/-- A sound buffer with a truthful flag refines its list, against sound operands. -/
theorem Sound.refinesList {B : ℕ} (hB : B ≤ 2 ^ 31) {operand : Metadata → Prop}
    (hmalloc : ∀ n, (L.malloc n).isSome) (h : Sound B m) (hs : SortedOk m)
    (hop : ∀ src, operand src → Sound B src) : RefinesList L ops operand m where
  add _ _ _ _ ht hd hok := h.add_abs ht hd hok
  add_error _ _ _ hne := by rw [add_refused hne]
  update _ _ _ _ hx hd hok := h.update_abs hx hd hok
  update_error _ _ _ hne := by rw [update_refused hne]
  delete i hok := by
    rw [length_abs]
    exact ⟨delete_ok_iff.mp hok, (delete_spec h.wf hok).2.1⟩
  delete_error _ hne := by rw [delete_refused hne]
  append src hsrc hok := by
    have h1 := h.counts_lt
    have h2 := (hop src hsrc).counts_lt
    exact (append_spec h.wf (hop src hsrc).wf (by omega) (by omega) hok).2
  append_error _ hne := by rw [append_refused hne]
  sort := by
    refine ⟨?_, (sort_spec h.wf).2.1, hs.sort⟩
    unfold sortCameraMetadata
    split_ifs <;> rfl
  clone := by
    have hc := h.compact_lt
    have hcl : (cloneCameraMetadata L m).isSome := clone_isSome (by omega) (hmalloc _)
    obtain ⟨c, hcl⟩ := Option.isSome_iff_exists.mp hcl
    exact ⟨c, hcl, (clone_spec h.wf (by omega) hcl).2.1⟩
  get := get_spec m
  aligned := (h.wf.tiles.dvd fun _ hr => dvd_of_mem_regions hr).1
  disjoint := h.wf.tiles.pairwise
  tiled := h.wf.tiles.contains_iff

/-- Sizes below `2 ^ 31`, and nothing else asked. -/
def moderate : Limits where
  alloc ec dc := calculateCameraMetadataSize ec dc < 2 ^ 31
  append _ _ := True
  update _ _ := True

/-- Sizes below `2 ^ 31`, and an append onto an empty buffer that still carries `FLAG_SORTED` takes
a source in ascending order. -/
def orderly : Limits where
  alloc ec dc := calculateCameraMetadataSize ec dc < 2 ^ 31
  append dst src := src.entryCount ≤ dst.entryCapacity → src.dataCount ≤ dst.dataCapacity →
    dst.entryCount = 0 → dst.isSorted = true → Ascending src
  update _ _ := True

theorem orderly_alloc (ec dc : ℕ) (hsz : orderly.alloc ec dc) :
    calculateCameraMetadataSize (u32 ec) (u32 dc) < 2 ^ 31 := by
  have hsz' : calculateCameraMetadataSize ec dc < 2 ^ 31 := hsz
  obtain ⟨h1, h2⟩ : u32 ec = ec ∧ u32 dc = dc := u32_of_size (by omega)
  rwa [h1, h2]

theorem Built.sound_orderly (h : Built L ops orderly m) : Sound (2 ^ 31) m := by
  refine h.sound (by norm_num) orderly_alloc ?_
  intro dst src hd hs _ _
  have h1 := hd.counts_lt
  have h2 := hs.counts_lt
  omega

/-- **A metadata buffer refines the list of its typed entries**, over every sequence of operations
within `orderly`. -/
theorem built_refinesList (hmalloc : ∀ n, (L.malloc n).isSome) (h : Built L ops orderly m) :
    RefinesList L ops (Built L ops orderly) m := by
  refine (h.sound_orderly).refinesList le_rfl hmalloc ?_ (fun src hs => hs.sound_orderly)
  refine h.sortedOk fun dst src hd hs hg hok h0 => ?_
  have h1 := hd.sound_orderly.counts_lt
  have h2 := hs.sound_orderly.counts_lt
  have hfit := (append_ok_iff (by omega) (by omega)).mp hok
  exact hg (by omega) (by omega) h0

/-- A buffer sorted while it was empty. -/
def sortedEmpty : Metadata :=
  ((allocateCameraMetadata referenceLibc 2 0).map fun m =>
    (sortCameraMetadata referenceLibc m).2).getD ⟨0, 0, 0, 0, 0, 0, 0, 0, [], []⟩

/-- Two entries in descending order. -/
def descending : Metadata :=
  ((allocateCameraMetadata referenceLibc 2 0).map fun m =>
    (addCameraMetadataEntry none (addCameraMetadataEntry none m controlAeMode (some [1]) 1).2
      controlAeAntibandingMode (some [3]) 1).2).getD ⟨0, 0, 0, 0, 0, 0, 0, 0, [], []⟩

theorem sortedEmpty_built (G : Limits) (hG : G.alloc 2 0) :
    Built referenceLibc none G sortedEmpty := by
  obtain ⟨m, hm⟩ := Option.isSome_iff_exists.mp
    (allocate_isSome (L := referenceLibc) 2 0 rfl)
  unfold sortedEmpty
  rw [hm]
  exact .sort (.allocate hG hm)

theorem descending_built (G : Limits) (hG : G.alloc 2 0) :
    Built referenceLibc none G descending := by
  obtain ⟨m, hm⟩ := Option.isSome_iff_exists.mp
    (allocate_isSome (L := referenceLibc) 2 0 rfl)
  unfold descending
  rw [hm]
  refine .add (.add (.allocate hG hm) ?_) ?_
  · intro t ht
    rw [show getCameraMetadataTagType none controlAeMode = some .byte by decide] at ht
    obtain rfl := Option.some.inj ht
    decide
  · intro t ht
    rw [show getCameraMetadataTagType none controlAeAntibandingMode = some .byte by decide] at ht
    obtain rfl := Option.some.inj ht
    decide

/-- The two entries are sorted and appended to the buffer that was sorted while it was empty, the first
one gets another value, and the second one is deleted. -/
def reworked : Metadata :=
  (deleteCameraMetadataEntry (updateCameraMetadataEntry (appendCameraMetadata sortedEmpty
    (sortCameraMetadata referenceLibc descending).2).2 0 [5] 1).2 1).2

theorem reworked_built (G : Limits) (hG : G.alloc 2 0)
    (ha : G.append sortedEmpty (sortCameraMetadata referenceLibc descending).2)
    (hu : ∀ e, G.update e 1) : Built referenceLibc none G reworked := by
  refine .delete (.update (.append (sortedEmpty_built G hG) (.sort (descending_built G hG)) ha) ?_)
  intro e he
  have htype : ((appendCameraMetadata sortedEmpty
      (sortCameraMetadata referenceLibc descending).2).2.entries[0]?).map (·.type) = some 0 := by decide
  rw [he, Option.map_some, Option.some.injEq] at htype
  rw [htype]
  exact ⟨by decide, hu e⟩

theorem alloc_two : calculateCameraMetadataSize 2 0 < 2 ^ 31 := by decide

theorem reworked_orderly : Built referenceLibc none orderly reworked :=
  reworked_built _ alloc_two (fun _ _ _ _ => by decide) fun _ => trivial

theorem built_refinesList_reworked :
    (∀ n, (referenceLibc.malloc n).isSome) ∧ Built referenceLibc none orderly reworked ∧
      reworked.abs = [⟨controlAeAntibandingMode, MetaType.byte.code, [5]⟩] ∧
      RefinesList referenceLibc none (Built referenceLibc none orderly) reworked :=
  ⟨fun _ => rfl, reworked_orderly, by decide, built_refinesList (fun _ => rfl) reworked_orderly⟩

/-- **The flag survives an append onto an empty buffer**: the append is accepted, and the following
sort leaves the tags in descending order. -/
theorem append_sortedEmpty_not_refinesList :
    ¬ ∀ m, Built referenceLibc none moderate m →
      RefinesList referenceLibc none (Built referenceLibc none moderate) m := by
  intro h
  have hb : Built referenceLibc none moderate (appendCameraMetadata sortedEmpty descending).2 :=
    .append (sortedEmpty_built _ alloc_two) (descending_built _ alloc_two) trivial
  exact absurd (h _ hb).sort.2.2 (by decide)

end Refinement

end IntelCamera
