import IntelCamera.Metadata.Validate
import Mathlib.Data.List.NodupEquivFin

/-!
# Metadata.Lookup — `find_camera_metadata_entry`, and a packet read as a finite map

`FLAG_SORTED` decides between a binary and a linear search.  As long as the flag tells the truth
(`SortedOk`), both find every tag that is present.  If the tags are distinct as well, `find` is the
lookup of `Lib.Keyed` in the list of entries, and add, update, delete and sort are the updates of a
finite map: `IsMap` is the invariant and `Metadata.values` the map.  `IsTyped` is the part of it that
decides whether an update is accepted.
-/

namespace IntelCamera

open Lib

/-! ### The search -/

section Search

variable {L : Libc} {ops : Option VendorTagOps} {m : Metadata}

/-- Against a fixed key the comparison falls as the tags rise. -/
theorem compareEntryTags_anti {key a b : BufferEntry} (h : a.tag ≤ b.tag) :
    compareEntryTags key b ≤ compareEntryTags key a := by
  unfold compareEntryTags
  split_ifs <;> omega

theorem getCameraMetadataEntry_isSome {i : ℕ} {e : BufferEntry} (hi : m.entries[i]? = some e) :
    ∃ x, getCameraMetadataEntry m i = some x := by
  unfold getCameraMetadataEntry
  rw [hi]
  exact ⟨_, rfl⟩

/-- **A truthful flag makes every present tag found.** -/
theorem find_isSome (hs : SortedOk m) {e : BufferEntry} (he : e ∈ m.entries) :
    ∃ x, findCameraMetadataEntry L m e.tag = some x := by
  unfold findCameraMetadataEntry
  by_cases hf : m.isSorted = true
  · rw [if_pos hf]
    cases hb : L.bsearch (compareEntryTags ⟨e.tag, 0, [], 0⟩) m.entries with
    | some i =>
      obtain ⟨a, ha, -⟩ := L.bsearch_some _ _ i hb
      exact getCameraMetadataEntry_isSome ha
    | none =>
      have hasc := (ascending_iff_tags m).mp (hs hf)
      rw [List.pairwise_map] at hasc
      have hno := L.bsearch_none _ _ hb (hasc.imp fun hab => compareEntryTags_anti hab) e he
      exact absurd (by simp [compareEntryTags]) hno
  · rw [if_neg hf]
    cases hb : m.entries.findIdx? (fun x => x.tag = e.tag) with
    | some i =>
      obtain ⟨hlt, -⟩ := List.findIdx?_eq_some_iff_getElem.mp hb
      exact getCameraMetadataEntry_isSome (List.getElem?_eq_getElem hlt)
    | none =>
      have hno := List.findIdx?_eq_none_iff.mp hb e he
      simp at hno

/-- What `FLAG_SORTED` promises: the entries ascend, and the binary search finds whatever is there. -/
structure FlagSound (L : Libc) (m : Metadata) : Prop where
  ascending : m.isSorted = true → Ascending m
  found : m.isSorted = true → ∀ e ∈ m.entries,
    ∃ x, findCameraMetadataEntry L m e.tag = some x ∧ x.tag = e.tag

/-- The packets asked for are below 4 GiB, where the data does not lie over the records, and so are the
totals of the appends; and an accepted append onto an empty buffer that still carries `FLAG_SORTED` takes
a source in ascending order. -/
def truthful : Limits where
  alloc ec dc := calculateCameraMetadataSize (u32 ec) (u32 dc) < 2 ^ 32
  append dst src := u32 (src.entryCount + dst.entryCount) ≤ dst.entryCapacity →
    u32 (src.dataCount + dst.dataCount) ≤ dst.dataCapacity →
    src.dataCount + dst.dataCount < 2 ^ 32 ∧
      (dst.entryCount = 0 → dst.isSorted = true → Ascending src)
  update _ _ := True

/-- **`FLAG_SORTED` is sound** in every buffer of every run within `truthful`. -/
theorem built_flagSound (h : Built L ops truthful m) : FlagSound L m := by
  have hs : SortedOk m := by
    refine h.sortedOk fun dst src _ _ hg hok => ?_
    unfold appendCameraMetadata at hok
    split_ifs at hok with h1 h2
    exact (hg (by omega) (by omega)).2
  refine ⟨hs, fun _ e he => ?_⟩
  obtain ⟨x, hx⟩ := find_isSome (L := L) hs he
  exact ⟨x, hx, (find_spec hx).2⟩

theorem reworked_truthful : Built referenceLibc none truthful reworked :=
  reworked_built _ (by show calculateCameraMetadataSize (u32 2) (u32 0) < _; decide)
    (fun _ _ => ⟨by decide, fun _ _ => by decide⟩) fun _ => trivial

theorem built_flagSound_reworked :
    Built referenceLibc none truthful reworked ∧ reworked.isSorted = true ∧
      FlagSound referenceLibc reworked :=
  ⟨reworked_truthful, by decide, built_flagSound reworked_truthful⟩

/-- The flag of a buffer sorted while it was empty survives the append of two descending entries. -/
theorem append_sortedEmpty_not_flagSound :
    ¬ ∀ m, Built referenceLibc none unlimited m → FlagSound referenceLibc m := by
  intro h
  have hb : Built referenceLibc none unlimited (appendCameraMetadata sortedEmpty descending).2 :=
    .append (sortedEmpty_built _ trivial) (descending_built _ trivial) trivial
  exact absurd ((h _ hb).ascending (by decide)) (by decide)

/-! ### The two searches -/

theorem find_isSome_iff (hs : SortedOk m) (tag : ℕ) :
    (findCameraMetadataEntry L m tag).isSome ↔ tag ∈ m.entries.map (·.tag) := by
  constructor
  · intro h
    obtain ⟨x, hx⟩ := Option.isSome_iff_exists.mp h
    obtain ⟨hg, rfl⟩ := find_spec hx
    unfold getCameraMetadataEntry at hg
    obtain ⟨e, he, hex⟩ := Option.map_eq_some_iff.mp hg
    exact List.mem_map.mpr ⟨e, List.mem_of_getElem? he, congrArg MetadataEntry.tag hex⟩
  · intro h
    obtain ⟨e, he, rfl⟩ := List.mem_map.mp h
    obtain ⟨x, hx⟩ := find_isSome (L := L) hs he
    rw [hx]
    rfl

/-- A tag that occurs once has one place. -/
theorem index_unique {tag : ℕ} (h1 : (m.entries.map (·.tag)).count tag = 1) {i j : ℕ}
    {a b : BufferEntry} (hi : m.entries[i]? = some a) (hj : m.entries[j]? = some b)
    (ha : a.tag = tag) (hb : b.tag = tag) : i = j := by
  have hnot : ∀ {i j : ℕ} {a b : BufferEntry}, m.entries[i]? = some a → m.entries[j]? = some b →
      a.tag = tag → b.tag = tag → ¬ i < j := by
    intro i j a b hi hj ha hb hlt
    obtain ⟨hi', rfl⟩ := List.getElem?_eq_some_iff.mp hi
    obtain ⟨hj', rfl⟩ := List.getElem?_eq_some_iff.mp hj
    have hdup : List.Duplicate tag (m.entries.map (·.tag)) := by
      rw [List.duplicate_iff_exists_distinct_get]
      refine ⟨⟨i, by simpa using hi'⟩, ⟨j, by simpa using hj'⟩, hlt, ?_, ?_⟩
      · simp [ha]
      · simp [hb]
    rw [List.duplicate_iff_two_le_count] at hdup
    omega
  have hij := hnot hi hj ha hb
  have hji := hnot hj hi hb ha
  omega

/-- What `find` gives, in terms of the records. -/
theorem find_entry {tag : ℕ} {x : MetadataEntry} (h : findCameraMetadataEntry L m tag = some x) :
    ∃ e, m.entries[x.index]? = some e ∧ e.tag = tag ∧ x = ⟨x.index, tag, e.type, e.count, m.payload e⟩ := by
  obtain ⟨hg, ht⟩ := find_spec h
  unfold getCameraMetadataEntry at hg
  obtain ⟨e, he, hex⟩ := Option.map_eq_some_iff.mp hg
  have htag : e.tag = tag := (congrArg MetadataEntry.tag hex).trans ht
  exact ⟨e, he, htag, by rw [← htag]; exact hex.symm⟩

/-- `m` with `FLAG_SORTED` set, and with the flag cleared. -/
def Metadata.flagged (m : Metadata) : Metadata := { m with flags := m.flags ||| flagSorted }

def Metadata.unflagged (m : Metadata) : Metadata := { m with flags := clearSorted m.flags }

theorem unflagged_sortedOk (m : Metadata) : SortedOk m.unflagged := sortedOk_of_clear rfl

/-- **The fast path is the slow one** on entries in ascending order. -/
theorem find_flagged (h : Ascending m) (tag : ℕ) :
    (findCameraMetadataEntry L m.flagged tag).isSome = (findCameraMetadataEntry L m.unflagged tag).isSome ∧
      ((m.entries.map (·.tag)).count tag = 1 →
        findCameraMetadataEntry L m.flagged tag = findCameraMetadataEntry L m.unflagged tag) := by
  have hfound : (findCameraMetadataEntry L m.flagged tag).isSome =
      (findCameraMetadataEntry L m.unflagged tag).isSome := by
    rw [Bool.eq_iff_iff, find_isSome_iff (m := m.flagged) (fun _ => h),
      find_isSome_iff (unflagged_sortedOk m)]
    rfl
  refine ⟨hfound, fun h1 => ?_⟩
  cases hf : findCameraMetadataEntry L m.flagged tag with
  | none =>
    rw [hf, Option.isSome_none] at hfound
    have hnone := Option.isNone_iff_eq_none.mp (Option.isSome_eq_false_iff.mp hfound.symm)
    exact hnone.symm
  | some x =>
    rw [hf, Option.isSome_some] at hfound
    obtain ⟨y, hy⟩ := Option.isSome_iff_exists.mp hfound.symm
    obtain ⟨a, ha, hat, hx⟩ := find_entry hf
    obtain ⟨b, hb, hbt, hy'⟩ := find_entry hy
    -- both are at the one place of the tag
    have hij : x.index = y.index := index_unique h1 ha hb hat hbt
    have hab : a = b := by
      rw [hij] at ha
      exact Option.some.inj (ha.symm.trans hb)
    rw [hy, hx, hy', hij, hab]
    rfl

/-- **Sorting does not change what is found**, whatever the flag says beforehand. -/
theorem find_sort (m : Metadata) (tag : ℕ) :
    (findCameraMetadataEntry L (sortCameraMetadata L m).2 tag).isSome =
        (findCameraMetadataEntry L m tag).isSome ∧
      ((m.entries.map (·.tag)).count tag = 1 →
        (findCameraMetadataEntry L (sortCameraMetadata L m).2 tag).map
            (fun e => (e.type, e.count, e.data)) =
          (findCameraMetadataEntry L m tag).map fun e => (e.type, e.count, e.data)) := by
  by_cases hs : m.isSorted = true
  · -- with the flag set nothing is sorted
    have he : (sortCameraMetadata L m).2 = m := by
      unfold sortCameraMetadata
      rw [if_pos hs]
    rw [he]
    exact ⟨rfl, fun _ => rfl⟩
  · have ho : SortedOk m := fun h => absurd h hs
    have hp : (sortCameraMetadata L m).2.entries.Perm m.entries := by
      unfold sortCameraMetadata
      rw [if_neg hs]
      exact L.qsort_perm compareEntryTags m.entries
    have hd : (sortCameraMetadata L m).2.data = m.data := by
      unfold sortCameraMetadata
      rw [if_neg hs]
    have hfound : (findCameraMetadataEntry L (sortCameraMetadata L m).2 tag).isSome =
        (findCameraMetadataEntry L m tag).isSome := by
      rw [Bool.eq_iff_iff, find_isSome_iff (fun _ => ho.sort), find_isSome_iff ho,
        (hp.map _).mem_iff]
    refine ⟨hfound, fun h1 => ?_⟩
    cases hf : findCameraMetadataEntry L m tag with
    | none =>
      rw [hf, Option.isSome_none] at hfound
      rw [Option.isNone_iff_eq_none.mp (Option.isSome_eq_false_iff.mp hfound)]
    | some x =>
      rw [hf, Option.isSome_some] at hfound
      obtain ⟨y, hy⟩ := Option.isSome_iff_exists.mp hfound
      obtain ⟨a, ha, hat, hx⟩ := find_entry hf
      obtain ⟨b, hb, hbt, hy'⟩ := find_entry hy
      -- the record found after sorting was there before, at the one place of the tag
      obtain ⟨j, hj⟩ := List.mem_iff_getElem?.mp (hp.mem_iff.mp (List.mem_of_getElem? hb))
      have hij : x.index = j := index_unique h1 ha hj hat hbt
      have hab : a = b := by
        rw [hij] at ha
        exact Option.some.inj (ha.symm.trans hj)
      have hpay : (sortCameraMetadata L m).2.payload b = m.payload a := by
        unfold Metadata.payload
        rw [hd, hab]
      rw [hy, hx, hy', Option.map_some, Option.map_some, hpay, hab]

/-- **The two searches, and sorting.**  On ascending entries both searches agree on every tag, on the
place included if the tag occurs once; sorting changes neither whether a tag is found nor the values of
one that occurs once. -/
theorem find_paths_agree (L : Libc) (tag : ℕ) :
    (∀ m : Metadata, Ascending m →
      (findCameraMetadataEntry L m.flagged tag).isSome =
          (findCameraMetadataEntry L m.unflagged tag).isSome ∧
        (∀ e ∈ findCameraMetadataEntry L m.flagged tag, e.tag = tag) ∧
        (∀ e ∈ findCameraMetadataEntry L m.unflagged tag, e.tag = tag) ∧
        ((m.entries.map (·.tag)).count tag = 1 →
          findCameraMetadataEntry L m.flagged tag = findCameraMetadataEntry L m.unflagged tag)) ∧
    ∀ m : Metadata,
      (findCameraMetadataEntry L (sortCameraMetadata L m).2 tag).isSome =
          (findCameraMetadataEntry L m tag).isSome ∧
        ((m.entries.map (·.tag)).count tag = 1 →
          (findCameraMetadataEntry L (sortCameraMetadata L m).2 tag).map
              (fun e => (e.type, e.count, e.data)) =
            (findCameraMetadataEntry L m tag).map fun e => (e.type, e.count, e.data)) := by
  refine ⟨fun m h => ?_, fun m => find_sort m tag⟩
  obtain ⟨h1, h2⟩ := find_flagged (L := L) h tag
  exact ⟨h1, fun e he => (find_spec he).2, fun e he => (find_spec he).2, h2⟩

/-- Two entries, sorted from their descending order. -/
theorem find_paths_agree_sorted :
    Ascending (sortCameraMetadata referenceLibc descending).2 ∧ ∀ tag,
      (findCameraMetadataEntry referenceLibc
          (sortCameraMetadata referenceLibc descending).2.flagged tag).isSome =
        (findCameraMetadataEntry referenceLibc
          (sortCameraMetadata referenceLibc descending).2.unflagged tag).isSome :=
  ⟨by decide, fun tag => ((find_paths_agree referenceLibc tag).1 _ (by decide)).1⟩

end Search

/-! ### The finite map -/

/-- The entry found, without its place. -/
def MetadataEntry.typed (e : MetadataEntry) : TypedEntry := ⟨e.tag, e.type, e.data⟩

/-- The map from tags to entries a packet stands for. -/
def Metadata.values (m : Metadata) : ℕ → Option TypedEntry := lookup TypedEntry.tag m.abs

/-- A sound packet whose entries have the types of their tags. -/
structure IsTyped (ops : Option VendorTagOps) (B : ℕ) (m : Metadata) : Prop where
  sound : Sound B m
  typed : ∀ x ∈ m.abs, (getCameraMetadataTagType ops x.tag).map MetaType.code = some x.type

/-- A packet that is a finite map: its flag tells the truth and no tag occurs twice. -/
structure IsMap (ops : Option VendorTagOps) (B : ℕ) (m : Metadata) : Prop extends IsTyped ops B m where
  sorted : SortedOk m
  nodup : (m.abs.map (·.tag)).Nodup

theorem abs_tags (m : Metadata) : m.abs.map (·.tag) = m.entries.map (·.tag) := by
  unfold Metadata.abs
  rw [List.map_map]
  rfl

section Map

variable {L : Libc} {ops : Option VendorTagOps} {B : ℕ} {m : Metadata}

theorem find_none_of_absent {tag : ℕ} (h : tag ∉ m.abs.map (·.tag)) :
    findCameraMetadataEntry L m tag = none := by
  cases hf : findCameraMetadataEntry L m tag with
  | none => rfl
  | some e =>
    obtain ⟨hg, ht⟩ := find_spec hf
    have habs := get_spec m e.index
    rw [hg, Option.map_some] at habs
    have hmem := List.mem_map_of_mem (f := TypedEntry.tag) (List.mem_of_getElem? habs.symm)
    exact absurd (ht ▸ hmem) h

/-- **`find` is the lookup in the list of entries.** -/
theorem find_eq_values (hs : SortedOk m) (hn : (m.abs.map (·.tag)).Nodup) (tag : ℕ) :
    (findCameraMetadataEntry L m tag).map MetadataEntry.typed = m.values tag := by
  by_cases hin : tag ∈ m.abs.map (·.tag)
  · rw [abs_tags, List.mem_map] at hin
    obtain ⟨e, he, rfl⟩ := hin
    obtain ⟨x, hx⟩ := find_isSome (L := L) hs he
    obtain ⟨hg, ht⟩ := find_spec hx
    have habs := get_spec m x.index
    rw [hg, Option.map_some] at habs
    rw [hx, Option.map_some]
    exact ((lookup_eq_some_iff hn).mpr ⟨List.mem_of_getElem? habs.symm, ht⟩).symm
  · rw [find_none_of_absent hin]
    exact (lookup_eq_none_iff.mpr hin).symm

/-- The count of the entry found is the number of its values. -/
theorem find_count (hw : WF m) {tag : ℕ} {e : MetadataEntry}
    (h : findCameraMetadataEntry L m tag = some e) :
    e.data.length = e.count * cameraMetadataTypeSize e.type := by
  have hg := (find_spec h).1
  unfold getCameraMetadataEntry at hg
  obtain ⟨x, hx, hxe⟩ := Option.map_eq_some_iff.mp hg
  rw [← hxe]
  exact hw.length_payload (List.mem_of_getElem? hx)

namespace IsTyped

/-- What the search found, as an element of the list. -/
theorem find_some (h : IsTyped ops B m) {tag : ℕ} {e : MetadataEntry}
    (hf : findCameraMetadataEntry L m tag = some e) :
    m.abs[e.index]? = some e.typed ∧ e.tag = tag ∧
      (getCameraMetadataTagType ops tag).map MetaType.code = some e.type := by
  obtain ⟨hg, ht⟩ := find_spec hf
  have habs := get_spec m e.index
  rw [hg, Option.map_some] at habs
  have hty := h.typed _ (List.mem_of_getElem? habs.symm)
  dsimp only at hty
  rw [ht] at hty
  exact ⟨habs.symm, ht, hty⟩

theorem add (h : IsTyped ops B m) {tag n : ℕ} {data : List UInt8} {t : MetaType}
    (ht : getCameraMetadataTagType ops tag = some t)
    (hd : n * cameraMetadataTypeSize t.code ≤ data.length)
    (hok : (addCameraMetadataEntry ops m tag (some data) n).1 = .ok) :
    IsTyped ops B (addCameraMetadataEntry ops m tag (some data) n).2 := by
  refine ⟨h.sound.add fun t' ht' => ?_, fun x hx => ?_⟩
  · obtain rfl := Option.some.inj (ht.symm.trans ht')
    exact hd
  · rw [h.sound.add_abs ht hd hok, List.mem_append, List.mem_singleton] at hx
    rcases hx with hx | rfl
    · exact h.typed x hx
    · dsimp only
      rw [ht, Option.map_some]

theorem update (h : IsTyped ops B m) {i n : ℕ} {data : List UInt8} {x : TypedEntry}
    (hx : m.abs[i]? = some x) (hd : n * cameraMetadataTypeSize x.type ≤ data.length)
    (hok : (updateCameraMetadataEntry m i data n).1 = .ok) :
    IsTyped ops B (updateCameraMetadataEntry m i data n).2 := by
  refine ⟨h.sound.update fun e he => ?_, fun y hy => ?_⟩
  · unfold Metadata.abs at hx
    rw [List.getElem?_map, he] at hx
    obtain rfl := Option.some.inj hx
    exact hd
  · rw [h.sound.update_abs hx hd hok] at hy
    rcases List.mem_or_eq_of_mem_set hy with hy | rfl
    · exact h.typed y hy
    · exact h.typed x (List.mem_of_getElem? hx)

end IsTyped

namespace IsMap

theorem find_eq (h : IsMap ops B m) (tag : ℕ) :
    (findCameraMetadataEntry L m tag).map MetadataEntry.typed = m.values tag :=
  find_eq_values h.sorted h.nodup tag

theorem find_none (h : IsMap ops B m) {tag : ℕ} (hf : findCameraMetadataEntry L m tag = none) :
    tag ∉ m.abs.map (·.tag) := by
  have hv := h.find_eq (L := L) tag
  rw [hf, Option.map_none] at hv
  exact lookup_eq_none_iff.mp hv.symm

/-- A packet with the entries of a map is one, if its own layout and flag are in order. -/
theorem of_abs {m' : Metadata} (h : IsMap ops B m) (hs : Sound B m') (ho : SortedOk m')
    (ha : m'.abs = m.abs) : IsMap ops B m' ∧ m'.values = m.values := by
  refine ⟨⟨⟨hs, by rw [ha]; exact h.typed⟩, ho, by rw [ha]; exact h.nodup⟩, ?_⟩
  unfold Metadata.values
  rw [ha]

theorem sort (h : IsMap ops B m) :
    IsMap ops B (sortCameraMetadata L m).2 ∧ (sortCameraMetadata L m).2.values = m.values := by
  have hp : (sortCameraMetadata L m).2.abs.Perm m.abs := (sort_spec h.sound.wf).2.1
  refine ⟨⟨⟨h.sound.sort, fun x hx => h.typed x (hp.mem_iff.mp hx)⟩, fun _ => h.sorted.sort, ?_⟩,
    lookup_perm h.nodup hp⟩
  exact (hp.map _).nodup_iff.mpr h.nodup

/-- **Add extends the map**, under a tag that is not in it. -/
theorem add (h : IsMap ops B m) {tag n : ℕ} {data : List UInt8} {t : MetaType}
    (ht : getCameraMetadataTagType ops tag = some t) (hnew : tag ∉ m.abs.map (·.tag))
    (hd : n * cameraMetadataTypeSize t.code ≤ data.length)
    (hok : (addCameraMetadataEntry ops m tag (some data) n).1 = .ok) :
    IsMap ops B (addCameraMetadataEntry ops m tag (some data) n).2 ∧
      (addCameraMetadataEntry ops m tag (some data) n).2.values = Function.update m.values tag
        (some ⟨tag, t.code, data.take (n * cameraMetadataTypeSize t.code)⟩) := by
  have habs := h.sound.add_abs ht hd hok
  refine ⟨⟨h.toIsTyped.add ht hd hok, h.sorted.add _ _ _, ?_⟩, ?_⟩
  · rw [habs]
    exact nodup_append_new h.nodup hnew
  · unfold Metadata.values
    rw [habs]
    exact lookup_append_new hnew

/-- **Update replaces the value of one tag.** -/
theorem update (h : IsMap ops B m) {i n : ℕ} {data : List UInt8} {x : TypedEntry}
    (hx : m.abs[i]? = some x) (hd : n * cameraMetadataTypeSize x.type ≤ data.length)
    (hok : (updateCameraMetadataEntry m i data n).1 = .ok) :
    IsMap ops B (updateCameraMetadataEntry m i data n).2 ∧
      (updateCameraMetadataEntry m i data n).2.values = Function.update m.values x.tag
        (some ⟨x.tag, x.type, data.take (n * cameraMetadataTypeSize x.type)⟩) := by
  have habs := h.sound.update_abs hx hd hok
  refine ⟨⟨h.toIsTyped.update hx hd hok, h.sorted.update _ _ _, ?_⟩, ?_⟩
  · have hkeys : ((updateCameraMetadataEntry m i data n).2.abs).map TypedEntry.tag =
        m.abs.map TypedEntry.tag := by
      rw [habs]
      exact map_set_same hx rfl
    rw [hkeys]
    exact h.nodup
  · unfold Metadata.values
    rw [habs]
    exact lookup_set h.nodup hx rfl

/-- **Delete takes one tag out.** -/
theorem delete (h : IsMap ops B m) {i : ℕ} {x : TypedEntry} (hx : m.abs[i]? = some x) :
    (deleteCameraMetadataEntry m i).1 = .ok ∧ IsMap ops B (deleteCameraMetadataEntry m i).2 ∧
      (deleteCameraMetadataEntry m i).2.values = Function.update m.values x.tag none := by
  have hlt := (List.getElem?_eq_some_iff.mp hx).1
  rw [length_abs] at hlt
  have hok := delete_ok_iff.mpr hlt
  have habs := (delete_spec h.sound.wf hok).2.1
  refine ⟨hok, ⟨⟨h.sound.delete i, fun y hy => ?_⟩, h.sorted.delete i, ?_⟩, ?_⟩
  · rw [habs] at hy
    exact h.typed y (List.mem_of_mem_eraseIdx hy)
  · rw [habs, ← List.eraseIdx_map]
    exact h.nodup.sublist (List.eraseIdx_sublist _ _)
  · unfold Metadata.values
    rw [habs]
    exact lookup_eraseIdx h.nodup hx

end IsMap

/-- Sizes and totals that fit in 32 bits, and nothing else asked. -/
def sized : Limits := { valid32 with update := fun _ _ => True }

theorem Built.sound_sized (h : Built L ops sized m) : Sound (2 ^ 32) m := by
  refine h.sound le_rfl (fun ec dc hsz => hsz) ?_
  intro dst src _ _ hg hok
  exact hg (append_ok_data hok)

/-- **Every built buffer is well typed.** -/
theorem Built.isTyped (h : Built L ops sized m) : IsTyped ops (2 ^ 32) m := by
  refine ⟨h.sound_sized, ?_⟩
  induction h with
  | allocate hsz hm => simp [(allocate_spec hsz hm).2.1]
  | place hsz hm => simp [(place_spec hsz hm).2.1]
  | copy hb hm ih =>
    rw [(copy_spec hb.sound_sized.wf hb.sound_sized.compact_lt hm).2.1]
    exact ih
  | clone hb hm ih =>
    rw [(clone_spec hb.sound_sized.wf hb.sound_sized.compact_lt hm).2.1]
    exact ih
  | @add m tag data n hb hd ih =>
    by_cases hok : (addCameraMetadataEntry ops m tag (some data) n).1 = .ok
    · cases ht : getCameraMetadataTagType ops tag with
      | none =>
        unfold addCameraMetadataEntry at hok
        rw [ht] at hok
        cases hok
      | some t => exact (IsTyped.add ⟨hb.sound_sized, ih⟩ ht (hd t ht) hok).typed
    · rw [add_refused hok]
      exact ih
  | @update m i data n hb hd ih =>
    by_cases hok : (updateCameraMetadataEntry m i data n).1 = .ok
    · cases hi : m.entries[i]? with
      | none =>
        rw [update_none hi]
        exact ih
      | some e =>
        have hx : m.abs[i]? = some (m.absEntry e) := by
          unfold Metadata.abs
          rw [List.getElem?_map, hi, Option.map_some]
        exact (IsTyped.update ⟨hb.sound_sized, ih⟩ hx (hd e hi).1 hok).typed
    · rw [update_refused hok]
      exact ih
  | @delete m i hb ih =>
    by_cases hok : (deleteCameraMetadataEntry m i).1 = .ok
    · rw [(delete_spec hb.sound_sized.wf hok).2.1]
      exact fun x hx => ih x (List.mem_of_mem_eraseIdx hx)
    · rw [delete_refused hok]
      exact ih
  | @append dst src hd hs hg ih1 ih2 =>
    by_cases hok : (appendCameraMetadata dst src).1 = .ok
    · have h1 := hd.sound_sized.counts_lt
      have h2 := hs.sound_sized.counts_lt
      rw [(append_spec hd.sound_sized.wf hs.sound_sized.wf (by omega) (hg (append_ok_data hok)) hok).2]
      intro x hx
      rcases List.mem_append.mp hx with hx | hx
      · exact ih1 x hx
      · exact ih2 x hx
    · rw [append_refused hok]
      exact ih1
  | sort hb ih =>
    exact fun x hx => ih x ((sort_spec hb.sound_sized.wf).2.1.mem_iff.mp hx)

end Map

end IntelCamera
