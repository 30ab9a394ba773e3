import IntelCamera.CameraMetadata
import IntelCamera.Lib.Runs
import Mathlib.Logic.Equiv.Basic

/-!
# CameraMap — a `CameraMetadata` object is a finite map from tags to values

`values h c` is the map an object stands for.  Each method gets one lemma: given an unlocked object
whose packet is a map (`Holds`), it updates the map as its name says, the packet it leaves is a map
again, and the packets of all other objects are untouched (`Frame`).  That an update succeeds needs
less, a packet with well-typed entries.  `update` reserves
room before it knows whether the tag is there; `resizeIfNeeded_spec` says that the room suffices for
both cases.

With any number of objects, `Owned` says that no packet has two owners; `Owned.put` is what a method of
one object leaves of the others.
-/

namespace IntelCamera

open Lib

namespace CameraMetadata

/-! ### What an object holds -/

/-- The map of an object: empty without a packet. -/
def values (h : Heap) (c : CameraMetadata) (tag : ℕ) : Option TypedEntry :=
  (c.packet h).bind fun m => m.values tag

/-- The capacities and the bytes in use; `0` without a packet. -/
def entryCapacity (h : Heap) (c : CameraMetadata) : ℕ := ((c.packet h).map (·.entryCapacity)).getD 0

def dataCapacity (h : Heap) (c : CameraMetadata) : ℕ := ((c.packet h).map (·.dataCapacity)).getD 0

def dataCount (h : Heap) (c : CameraMetadata) : ℕ := ((c.packet h).map (·.dataCount)).getD 0

/-- The size of the packet that has room for one more entry of `dataSize` bytes: the present one, or
the one `resizeIfNeeded` asks for. -/
def requestSize (h : Heap) (c : CameraMetadata) (dataSize : ℕ) : ℕ :=
  calculateCameraMetadataSize (grownCapacity (c.entryCount h) (c.entryCapacity h) 1)
    (grownCapacity (c.dataCount h) (c.dataCapacity h) dataSize)

/-- An unlocked object whose packet, if it has one, is live and satisfies `I`. -/
structure Holds (I : Metadata → Prop) (h : Heap) (c : CameraMetadata) : Prop where
  unlocked : c.mLocked = false
  packet : ∀ p, c.mBuffer = some p → ∃ m, h.get p = some m ∧ I m

theorem Holds.mono {I J : Metadata → Prop} {h : Heap} {c : CameraMetadata} (hc : Holds I h c)
    (hIJ : ∀ m, I m → J m) : Holds J h c := by
  refine ⟨hc.unlocked, fun p hp => ?_⟩
  obtain ⟨m, hm, hI⟩ := hc.packet p hp
  exact ⟨m, hm, hIJ m hI⟩

/-- What a method on `c` leaves alone: the packets of others.  The packet it ends with is the old one
or a new one. -/
structure Frame (h : Heap) (c : CameraMetadata) (h' : Heap) (c' : CameraMetadata) : Prop where
  others : ∀ q m, c.mBuffer ≠ some q → h.get q = some m → h'.get q = some m
  own : ∀ p, c'.mBuffer = some p → c.mBuffer = some p ∨ h.get p = none

theorem Frame.refl (h : Heap) (c : CameraMetadata) : Frame h c h c :=
  ⟨fun _ _ _ hq => hq, fun _ hp => Or.inl hp⟩

theorem Frame.trans {h h' h'' : Heap} {c c' c'' : CameraMetadata} (h1 : Frame h c h' c')
    (h2 : Frame h' c' h'' c'') : Frame h c h'' c'' := by
  refine ⟨fun q m hq hm => ?_, fun p hp => ?_⟩
  · refine h2.others q m (fun hc => ?_) (h1.others q m hq hm)
    rcases h1.own q hc with ho | hn
    · exact hq ho
    · rw [hn] at hm
      cases hm
  · rcases h2.own p hp with ho | hn
    · exact h1.own p ho
    · by_cases hc : c.mBuffer = some p
      · exact Or.inl hc
      · refine Or.inr ?_
        cases hm : h.get p with
        | none => rfl
        | some m =>
          rw [h1.others p m hc hm] at hn
          cases hn

variable {L : Libc} {ops : Option VendorTagOps} {B : ℕ} {h : Heap} {c : CameraMetadata}

theorem packet_of_get {p : ℕ} {m : Metadata} (hb : c.mBuffer = some p) (hp : h.get p = some m) :
    c.packet h = some m := by
  unfold packet
  rw [hb]
  exact hp

theorem packet_none (hb : c.mBuffer = none) : c.packet h = none := by
  unfold packet
  rw [hb]
  rfl

theorem values_of_packet {m : Metadata} (hp : c.packet h = some m) : values h c = m.values := by
  funext tag
  unfold values
  rw [hp]
  rfl

theorem values_none (hb : c.mBuffer = none) : values h c = fun _ => none := by
  funext tag
  unfold values
  rw [packet_none hb]
  rfl

theorem swap_unlocked {c d : CameraMetadata} (hc : c.mLocked = false) (hd : d.mLocked = false) :
    c.swap d = (d, c) := by
  obtain ⟨cb, cl⟩ := c
  obtain ⟨db, dl⟩ := d
  obtain rfl : cl = false := hc
  obtain rfl : dl = false := hd
  rfl

theorem get_next_none (h : Heap) : h.get h.next = none := by
  cases hg : h.get h.next with
  | none => rfl
  | some m => exact absurd (Store.lt_next hg) (Nat.lt_irrefl _)

/-- Overwriting the own packet. -/
theorem frame_set {p : ℕ} (hb : c.mBuffer = some p) (m : Metadata) : Frame h c (h.set p m) c := by
  refine ⟨fun q m' hq hm => ?_, fun _ hp => Or.inl hp⟩
  have hne : q ≠ p := by
    rintro rfl
    exact hq hb
  rw [Store.get_set_ne hne]
  exact hm

/-- A new packet in place of the old one. -/
theorem frame_alloc {c' : CameraMetadata} (hc : c'.mBuffer = some h.next) (m : Metadata) :
    Frame h c (h.alloc m) c' := by
  refine ⟨fun q m' _ hm => ?_, fun p hp => Or.inr ?_⟩
  · rw [Store.get_alloc_lt (Store.lt_next hm)]
    exact hm
  · rw [hc] at hp
    obtain rfl := Option.some.inj hp
    exact get_next_none h

theorem frame_free {c' : CameraMetadata} {p : ℕ} (hb : c.mBuffer = some p)
    {h' : Heap} (hf : Frame h c h' c') : Frame h c (h'.free p) c' := by
  refine ⟨fun q m hq hm => ?_, hf.own⟩
  have hne : q ≠ p := by
    rintro rfl
    exact hq hb
  rw [Store.get_free_ne hne]
  exact hf.others q m hq hm

/-! ### Growth -/

theorem le_grownCapacity (count capacity extra : ℕ) :
    capacity ≤ grownCapacity count capacity extra ∧
      count + extra ≤ grownCapacity count capacity extra := by
  unfold grownCapacity
  split_ifs <;> omega

/-- A capacity for more at once is one for less. -/
theorem grownCapacity_mono (count capacity : ℕ) {extra extra' : ℕ} (h : extra ≤ extra') :
    grownCapacity count capacity extra ≤ grownCapacity count capacity extra' := by
  unfold grownCapacity
  split_ifs <;> omega

/-- A capacity for all at once is one for the rest, after the first was given its own. -/
theorem grownCapacity_rest {count count' capacity extra : ℕ} (rest : ℕ) (hc : count' ≤ count + extra) :
    grownCapacity count' (grownCapacity count capacity extra) rest ≤
      grownCapacity count capacity (extra + rest) := by
  unfold grownCapacity
  split_ifs <;> omega

/-- The records of the packet; none without one. -/
def records (h : Heap) (c : CameraMetadata) : List BufferEntry :=
  ((c.packet h).map Metadata.entries).getD []

/-- What `resizeIfNeeded` leaves: the same records, with the same bytes in use, in a packet of the
grown capacities. -/
structure Resized (ops : Option VendorTagOps) (B : ℕ) (h : Heap) (c : CameraMetadata) (dataSize : ℕ)
    (h' : Heap) (c' : CameraMetadata) (p : ℕ) (m : Metadata) : Prop where
  buffer : c'.mBuffer = some p
  get : h'.get p = some m
  typed : IsTyped ops B m
  map : Holds (IsMap ops B) h c → IsMap ops B m ∧ m.values = c.values h
  records : m.entries = c.records h
  entryCount : m.entryCount = c.entryCount h
  dataCount : m.dataCount = c.dataCount h
  entryCapacity : m.entryCapacity = grownCapacity (c.entryCount h) (c.entryCapacity h) 1
  dataCapacity : m.dataCapacity = grownCapacity (c.dataCount h) (c.dataCapacity h) dataSize
  frame : Frame h c h' c'
  locked : c'.mLocked = c.mLocked

theorem records_of_packet {m : Metadata} (hp : c.packet h = some m) : c.records h = m.entries := by
  unfold records
  rw [hp]
  rfl

variable (ops) in
/-- A packet that was just allocated is an empty map with the capacities asked for. -/
theorem allocate_isMap (hB : B ≤ 2 ^ 32) {ec dc : ℕ} {m : Metadata}
    (hsz : calculateCameraMetadataSize ec dc < B) (hm : allocateCameraMetadata L ec dc = some m) :
    IsMap ops B m ∧ m.abs = [] ∧ m.entries = [] ∧ m.dataCount = 0 ∧ m.entryCapacity = ec ∧
      m.dataCapacity = dc := by
  obtain ⟨hec, hdc⟩ : u32 ec = ec ∧ u32 dc = dc := u32_of_size (by omega)
  obtain ⟨hw, ha, hg, -, hd, he⟩ := allocate_spec (by rw [hec, hdc]; omega) hm
  rw [hec, hdc] at hg
  refine ⟨⟨⟨⟨hw, ec, dc, hg, hsz⟩, ?_⟩, sortedOk_of_clean (allocate_clean hm), ?_⟩, ha, he, hd,
    hg.entryCapacity, hg.dataCapacity⟩
  · rw [ha]
    simp
  · rw [ha]
    exact List.nodup_nil

/-- **Growing keeps the entries.**  A new packet starts out clean, so the append that fills it takes
over order and flag together. -/
theorem append_allocated (hB : B ≤ 2 ^ 32) {ec dc : ℕ} {m fresh : Metadata} (hm : Sound B m)
    (hsz : calculateCameraMetadataSize ec dc < B) (hec : m.entryCount ≤ ec) (hdc : m.dataCount ≤ dc)
    (hf : allocateCameraMetadata L ec dc = some fresh) :
    Sound B (appendCameraMetadata fresh m).2 ∧
      (SortedOk m → SortedOk (appendCameraMetadata fresh m).2) ∧
      (appendCameraMetadata fresh m).2.abs = m.abs ∧
      (appendCameraMetadata fresh m).2.entries = m.entries ∧
      (appendCameraMetadata fresh m).2.dataCount = m.dataCount ∧
      SameHeader fresh (appendCameraMetadata fresh m).2 := by
  obtain ⟨hmap, ha, he, hd, h1, h2⟩ := allocate_isMap none hB hsz hf
  have h0 : fresh.entryCount = 0 := by
    unfold Metadata.entryCount
    rw [he]
    rfl
  have hcnt := hm.counts_lt
  have hok : (appendCameraMetadata fresh m).1 = .ok := by
    rw [append_ok_iff (by omega) (by omega)]
    omega
  obtain ⟨hw, habs⟩ := append_spec hmap.sound.wf hm.wf (by omega) (by omega) hok
  rw [ha, List.nil_append] at habs
  refine ⟨hmap.sound.of_header hw append_header, fun hs => ?_, habs, ?_, ?_, append_header⟩
  · refine hmap.sorted.append hs fun _ hflag => ?_
    rw [(allocate_clean hf).2] at hflag
    cases hflag
  · unfold appendCameraMetadata at hok ⊢
    split_ifs at hok ⊢
    show fresh.entries ++ movedEntries fresh.dataCount m.entries = m.entries
    rw [he, hd, List.nil_append]
    rfl
  · unfold appendCameraMetadata at hok ⊢
    split_ifs at hok ⊢
    show u32 (fresh.dataCount + m.dataCount) = m.dataCount
    rw [hd, Nat.zero_add]
    exact Nat.mod_eq_of_lt (by omega)

/-- The packet of an object that holds maps. -/
theorem Holds.of_get {I : Metadata → Prop} (hc : Holds I h c) {p : ℕ} {m : Metadata}
    (hb : c.mBuffer = some p) (hp : h.get p = some m) : I m := by
  obtain ⟨m', hm', hI⟩ := hc.packet p hb
  rw [hp] at hm'
  obtain rfl := Option.some.inj hm'
  exact hI

/-- `resizeIfNeeded` on an object with a packet. -/
theorem resizeIfNeeded_packet (hB : B ≤ 2 ^ 32) (hmalloc : ∀ n, (L.malloc n).isSome) {p : ℕ}
    {m : Metadata} (hb : c.mBuffer = some p) (hp : h.get p = some m) (hm : IsTyped ops B m)
    {dataSize : ℕ} (hsz : requestSize h c dataSize < B) :
    ∃ h' c' p' m', resizeIfNeeded L h c 1 dataSize = (.ok, h', c') ∧
      Resized ops B h c dataSize h' c' p' m' := by
  have hpk := packet_of_get hb hp
  have hv := values_of_packet hpk
  have h1 : c.entryCount h = m.entryCount := by unfold entryCount; rw [hpk]
  have h2 : c.entryCapacity h = m.entryCapacity := by unfold entryCapacity; rw [hpk]; rfl
  have h3 : c.dataCount h = m.dataCount := by unfold dataCount; rw [hpk]; rfl
  have h4 : c.dataCapacity h = m.dataCapacity := by unfold dataCapacity; rw [hpk]; rfl
  unfold requestSize at hsz
  rw [h1, h2, h3, h4] at hsz
  obtain ⟨hg1, hg2⟩ := le_grownCapacity m.entryCount m.entryCapacity 1
  obtain ⟨hg3, hg4⟩ := le_grownCapacity m.dataCount m.dataCapacity dataSize
  unfold resizeIfNeeded
  rw [hb, hpk]
  dsimp only
  by_cases hgrow : m.entryCapacity < grownCapacity m.entryCount m.entryCapacity 1 ∨
      m.dataCapacity < grownCapacity m.dataCount m.dataCapacity dataSize
  · rw [if_pos hgrow]
    obtain ⟨fresh, hf⟩ := Option.isSome_iff_exists.mp (allocate_isSome (L := L)
      (grownCapacity m.entryCount m.entryCapacity 1)
      (grownCapacity m.dataCount m.dataCapacity dataSize) (hmalloc _))
    obtain ⟨hs, hord, habs, hrec, hdc, hhd⟩ := append_allocated hB hm.sound hsz (by omega) (by omega) hf
    obtain ⟨-, -, -, -, hc1, hc2⟩ := allocate_isMap ops hB hsz hf
    rw [hf]
    refine ⟨_, _, h.next, _, rfl, rfl, ?_, ⟨hs, by rw [habs]; exact hm.typed⟩, fun hmap => ?_,
      ?_, ?_, ?_, ?_, ?_, ?_, rfl⟩
    · rw [Store.get_free_ne (Nat.ne_of_gt (Store.lt_next hp)), Store.get_alloc_next]
    · rw [hv]
      exact (hmap.of_get hb hp).of_abs hs (hord (hmap.of_get hb hp).sorted) habs
    · rw [hrec, records_of_packet hpk]
    · rw [h1, Metadata.entryCount, ← length_abs, habs, length_abs]
      rfl
    · rw [h3, hdc]
    · rw [h1, h2, hhd.entryCapacity, hc1]
    · rw [h3, h4, hhd.dataCapacity, hc2]
    · exact frame_free hb (frame_alloc rfl _)
  · rw [if_neg hgrow]
    exact ⟨h, c, p, m, rfl, hb, hp, hm, fun hmap => ⟨hmap.of_get hb hp, hv.symm⟩,
      (records_of_packet hpk).symm, h1.symm, h3.symm,
      by rw [h1, h2]; omega, by rw [h3, h4]; omega, Frame.refl h c, rfl⟩

/-- **`resizeIfNeeded` makes room and keeps the entries.** -/
theorem resizeIfNeeded_spec (hB : B ≤ 2 ^ 32) (hmalloc : ∀ n, (L.malloc n).isSome)
    (hc : Holds (IsTyped ops B) h c) {dataSize : ℕ} (hsz : requestSize h c dataSize < B) :
    ∃ h' c' p m, resizeIfNeeded L h c 1 dataSize = (.ok, h', c') ∧
      Resized ops B h c dataSize h' c' p m := by
  cases hb : c.mBuffer with
  | some p =>
    obtain ⟨m, hp, hm⟩ := hc.packet p hb
    exact resizeIfNeeded_packet hB hmalloc hb hp hm hsz
  | none =>
    have hpk : c.packet h = none := packet_none hb
    have h1 : c.entryCount h = 0 := by unfold entryCount; rw [hpk]
    have h2 : c.entryCapacity h = 0 := by unfold entryCapacity; rw [hpk]; rfl
    have h3 : c.dataCount h = 0 := by unfold dataCount; rw [hpk]; rfl
    have h4 : c.dataCapacity h = 0 := by unfold dataCapacity; rw [hpk]; rfl
    have hgrown : ∀ n, grownCapacity 0 0 n = n * 2 := by
      intro n
      unfold grownCapacity
      split_ifs <;> omega
    unfold requestSize at hsz
    rw [h1, h2, h3, h4, hgrown, hgrown] at hsz
    obtain ⟨fresh, hf⟩ := Option.isSome_iff_exists.mp (allocate_isSome (L := L) (1 * 2) (dataSize * 2)
      (hmalloc _))
    obtain ⟨hmap, habs, hent, hdc, hc1, hc2⟩ := allocate_isMap ops hB hsz hf
    unfold resizeIfNeeded
    rw [hb]
    dsimp only
    rw [hf]
    refine ⟨_, _, h.next, fresh, rfl, rfl, Store.get_alloc_next, hmap.toIsTyped,
      fun _ => ⟨hmap, ?_⟩, ?_, ?_, ?_, ?_, ?_, frame_alloc rfl _, rfl⟩
    · rw [values_none hb]
      unfold Metadata.values
      rw [habs]
      rfl
    · unfold records
      rw [hent, hpk]
      rfl
    · rw [h1, Metadata.entryCount, hent]
      rfl
    · rw [h3, hdc]
    · rw [h1, h2, hgrown, hc1]
    · rw [h3, h4, hgrown, hc2]

/-! ### Update -/

theorem update_dataCount_le (m : Metadata) (i : ℕ) (data : List UInt8) (n : ℕ) {e : BufferEntry}
    (hi : m.entries[i]? = some e) : (updateCameraMetadataEntry m i data n).2.dataCount ≤
      m.dataCount + calculateCameraMetadataEntryDataSize e.type n := by
  have hrem : (removeData m e).dataCount ≤ m.dataCount := Nat.sub_le _ _
  unfold updateCameraMetadataEntry
  rw [hi]
  dsimp only
  split_ifs <;> dsimp only <;> omega

theorem add_dataCount_le (m : Metadata) (tag : ℕ) (data : List UInt8) (n : ℕ) {t : MetaType}
    (ht : getCameraMetadataTagType ops tag = some t) :
    (addCameraMetadataEntry ops m tag (some data) n).2.dataCount ≤
      m.dataCount + calculateCameraMetadataEntryDataSize t.code n := by
  unfold addCameraMetadataEntry addCameraMetadataEntryRaw
  rw [ht]
  dsimp only
  split_ifs <;> dsimp only <;> omega

/-- What storing one entry does to a packet. -/
structure Stored (ops : Option VendorTagOps) (B : ℕ) (m : Metadata) (x : TypedEntry) (dataSize : ℕ)
    (m' : Metadata) : Prop where
  typed : IsTyped ops B m'
  map : IsMap ops B m → IsMap ops B m' ∧ m'.values = Function.update m.values x.tag (some x)
  entryCount : m'.entryCount ≤ m.entryCount + 1
  dataCount : m'.dataCount ≤ m.dataCount + dataSize
  header : SameHeader m m'

/-- **With room for one more entry the value is stored**, whether the tag is there or not. -/
theorem store_spec {m : Metadata} (hm : IsTyped ops B m) {tag n : ℕ} {data : List UInt8}
    {t : MetaType} (ht : getCameraMetadataTagType ops tag = some t)
    (hd : n * cameraMetadataTypeSize t.code ≤ data.length) (hec : m.entryCount + 1 ≤ m.entryCapacity)
    (hdc : m.dataCount + calculateCameraMetadataEntryDataSize t.code n ≤ m.dataCapacity) :
    (store L ops m tag data n).1 = .ok ∧
      Stored ops B m ⟨tag, t.code, data.take (n * cameraMetadataTypeSize t.code)⟩
        (calculateCameraMetadataEntryDataSize t.code n) (store L ops m tag data n).2 := by
  unfold store
  cases hf : findCameraMetadataEntry L m tag with
  | none =>
    have hok : (addCameraMetadataEntry ops m tag (some data) n).1 = .ok := by
      unfold addCameraMetadataEntry
      rw [ht]
      exact addRaw_ok_iff.mpr ⟨by omega, by omega⟩
    refine ⟨hok, hm.add ht hd hok, fun hmap => hmap.add ht (hmap.find_none hf) hd hok, ?_,
      add_dataCount_le m tag data n ht, ?_⟩
    · unfold Metadata.entryCount
      rw [← length_abs, ← length_abs, hm.sound.add_abs ht hd hok, List.length_append]
      rfl
    · unfold addCameraMetadataEntry
      rw [ht]
      exact addRaw_header
  | some e =>
    obtain ⟨hx, htag, hty⟩ := hm.find_some hf
    rw [ht, Option.map_some] at hty
    have hcode : t.code = e.type := Option.some.inj hty
    have habs := hx
    unfold Metadata.abs at habs
    rw [List.getElem?_map, Option.map_eq_some_iff] at habs
    obtain ⟨b, hb, hbx⟩ := habs
    have hbt : b.type = t.code := by
      rw [hcode]
      exact congrArg TypedEntry.type hbx
    have hok : (updateCameraMetadataEntry m e.index data n).1 = .ok := by
      rw [update_ok_iff hb, hbt]
      omega
    have hd' : n * cameraMetadataTypeSize e.typed.type ≤ data.length := by
      show n * cameraMetadataTypeSize e.type ≤ _
      rwa [← hcode]
    have htyped : e.typed.tag = tag ∧ e.typed.type = t.code := ⟨htag, hcode.symm⟩
    have hle := update_dataCount_le m e.index data n hb
    rw [hbt] at hle
    refine ⟨hok, hm.update hx hd' hok, fun hmap => ?_, ?_, hle, ?_⟩
    · have hup := hmap.update hx hd' hok
      rwa [htyped.1, htyped.2] at hup
    · have hl := congrArg List.length (update_tags (m := m) e.index data n).2
      rw [List.length_map, List.length_map] at hl
      exact hl.le.trans (Nat.le_succ _)
    · exact (update_spec hm.sound.wf hb (by rwa [hbt]) hok).2.2

/-- What a successful update leaves. -/
structure Updated (ops : Option VendorTagOps) (B : ℕ) (h : Heap) (c : CameraMetadata) (x : TypedEntry)
    (dataSize : ℕ) (h' : Heap) (c' : CameraMetadata) : Prop where
  holds : Holds (IsTyped ops B) h' c'
  map : Holds (IsMap ops B) h c → Holds (IsMap ops B) h' c' ∧
    c'.values h' = Function.update (c.values h) x.tag (some x)
  buffer : c'.mBuffer.isSome
  entryCount : c'.entryCount h' ≤ c.entryCount h + 1
  dataCount : c'.dataCount h' ≤ c.dataCount h + dataSize
  entryCapacity : c'.entryCapacity h' = grownCapacity (c.entryCount h) (c.entryCapacity h) 1
  dataCapacity : c'.dataCapacity h' = grownCapacity (c.dataCount h) (c.dataCapacity h) dataSize
  frame : Frame h c h' c'

/-- What the methods that keep the object's packet leave. -/
theorem holds_set {I J : Metadata → Prop} {p : ℕ} {m m' : Metadata} (hc : Holds I h c)
    (hb : c.mBuffer = some p) (hp : h.get p = some m) (hm : J m') :
    Holds J (h.set p m') c ∧ values (h.set p m') c = m'.values := by
  have hget : (h.set p m').get p = some m' := Store.get_set (Store.lt_next hp)
  refine ⟨⟨hc.unlocked, fun q hq => ?_⟩, values_of_packet (packet_of_get hb hget)⟩
  rw [hb] at hq
  obtain rfl := Option.some.inj hq
  exact ⟨m', hget, hm⟩

/-- The two steps of a typed update: room is made, and the value is stored. -/
theorem update_steps (hB : B ≤ 2 ^ 32) (hmalloc : ∀ n, (L.malloc n).isSome)
    (hc : Holds (IsTyped ops B) h c)
    {tag n : ℕ} {t : MetaType} {inside : Option ℕ} {data : List UInt8}
    (ht : getCameraMetadataTagType ops tag = some t)
    (hd : n * cameraMetadataTypeSize t.code ≤ data.length)
    (hin : ¬ (inside ≠ none ∧ inside = c.mBuffer))
    (hsz : requestSize h c (calculateCameraMetadataEntryDataSize t.code n) < B) :
    ∃ h₁ c₁ p m, resizeIfNeeded L h c 1 (calculateCameraMetadataEntryDataSize t.code n) =
        (.ok, h₁, c₁) ∧
      Resized ops B h c (calculateCameraMetadataEntryDataSize t.code n) h₁ c₁ p m ∧
      (store L ops m tag data n).1 = .ok ∧
      Stored ops B m ⟨tag, t.code, data.take (n * cameraMetadataTypeSize t.code)⟩
        (calculateCameraMetadataEntryDataSize t.code n) (store L ops m tag data n).2 ∧
      update L ops h c tag t inside data n = (.ok, h₁.set p (store L ops m tag data n).2, c₁) := by
  obtain ⟨h₁, c₁, p, m, hr, hres⟩ := resizeIfNeeded_spec (L := L) hB hmalloc hc hsz
  have hpk := packet_of_get hres.buffer hres.get
  have hg1 := (le_grownCapacity (c.entryCount h) (c.entryCapacity h) 1).2
  have hg2 := (le_grownCapacity (c.dataCount h) (c.dataCapacity h)
    (calculateCameraMetadataEntryDataSize t.code n)).2
  obtain ⟨hok, hst⟩ := store_spec (L := L) hres.typed ht hd
    (by rw [hres.entryCount, hres.entryCapacity]; exact hg1)
    (by rw [hres.dataCount, hres.dataCapacity]; exact hg2)
  have hcheck : checkType ops tag t = .ok := by
    unfold checkType
    rw [ht]
    exact if_neg (not_not.mpr rfl)
  refine ⟨h₁, c₁, p, m, hr, hres, hok, hst, ?_⟩
  unfold update
  rw [if_neg (by rw [hc.unlocked]; exact Bool.false_ne_true), hcheck]
  dsimp only
  unfold updateImpl
  rw [if_neg (by rw [hc.unlocked]; exact Bool.false_ne_true), ht]
  dsimp only
  rw [if_neg hin, hr]
  dsimp only
  rw [hres.buffer, hpk]
  dsimp only
  rw [hok]

/-- **A typed update succeeds and writes one tag.** -/
theorem update_spec (hB : B ≤ 2 ^ 32) (hmalloc : ∀ n, (L.malloc n).isSome)
    (hc : Holds (IsTyped ops B) h c)
    {tag n : ℕ} {t : MetaType} {inside : Option ℕ} {data : List UInt8}
    (ht : getCameraMetadataTagType ops tag = some t)
    (hd : n * cameraMetadataTypeSize t.code ≤ data.length)
    (hin : ¬ (inside ≠ none ∧ inside = c.mBuffer))
    (hsz : requestSize h c (calculateCameraMetadataEntryDataSize t.code n) < B) :
    ∃ h' c', update L ops h c tag t inside data n = (.ok, h', c') ∧
      Updated ops B h c ⟨tag, t.code, data.take (n * cameraMetadataTypeSize t.code)⟩
        (calculateCameraMetadataEntryDataSize t.code n) h' c' := by
  obtain ⟨h₁, c₁, p, m, -, hres, -, hst, hu⟩ := update_steps (L := L) hB hmalloc hc ht hd hin hsz
  have hc₁ : Holds (IsTyped ops B) h₁ c₁ := by
    refine ⟨hres.locked.trans hc.unlocked, fun q hq => ?_⟩
    rw [hres.buffer] at hq
    obtain rfl := Option.some.inj hq
    exact ⟨m, hres.get, hres.typed⟩
  have hpk' : c₁.packet (h₁.set p (store L ops m tag data n).2) = some (store L ops m tag data n).2 :=
    packet_of_get hres.buffer (Store.get_set (Store.lt_next hres.get))
  refine ⟨_, c₁, hu, (holds_set hc₁ hres.buffer hres.get hst.typed).1, fun hmap => ?_,
    by rw [hres.buffer]; rfl, ?_, ?_, ?_, ?_, hres.frame.trans (frame_set hres.buffer _)⟩
  · obtain ⟨hm, hv⟩ := hres.map hmap
    obtain ⟨hm', hv'⟩ := hst.map hm
    rw [hv] at hv'
    exact (holds_set hc₁ hres.buffer hres.get hm').imp_right fun he => he.trans hv'
  · rw [← hres.entryCount]
    unfold entryCount
    rw [hpk']
    exact hst.entryCount
  · rw [← hres.dataCount]
    unfold dataCount
    rw [hpk']
    exact hst.dataCount
  · unfold entryCapacity
    rw [hpk']
    exact hst.header.entryCapacity.trans hres.entryCapacity
  · unfold dataCapacity
    rw [hpk']
    exact hst.header.dataCapacity.trans hres.dataCapacity

/-- The first value of a new object, of at most four bytes. -/
theorem update_first (h : Heap) (data : List UInt8) (hd : data.length ≤ 4) : ∃ h' c',
    update referenceLibc none h .empty controlAeMode .byte none data data.length = (.ok, h', c') ∧
      Updated none (2 ^ 32) h .empty ⟨controlAeMode, MetaType.byte.code, data⟩ 0 h' c' := by
  have hempty : Holds (IsTyped none (2 ^ 32)) h .empty := ⟨rfl, fun q hq => by cases hq⟩
  have hbytes : data.length * cameraMetadataTypeSize MetaType.byte.code = data.length := Nat.mul_one _
  have hsize : calculateCameraMetadataEntryDataSize MetaType.byte.code data.length = 0 :=
    (entryDataSize_eq_zero MetaType.byte.code_lt).mpr (by rw [hbytes]; exact hd)
  have hin : ¬ ((none : Option ℕ) ≠ none ∧ none = empty.mBuffer) := fun hin => hin.1 rfl
  have hup := update_spec (L := referenceLibc) le_rfl (fun _ => rfl) hempty
    (show getCameraMetadataTagType none controlAeMode = some MetaType.byte from rfl) hbytes.le hin
    (by rw [hsize]; show calculateCameraMetadataSize 2 0 < 2 ^ 32; decide)
  rwa [hsize, hbytes, List.take_length] at hup

/-! ### The other methods -/

/-- **`sort` keeps the map.** -/
theorem sort_holds (hc : Holds (IsMap ops B) h c) : Holds (IsMap ops B) (sort L h c).2 c ∧
    values (sort L h c).2 c = values h c ∧ Frame h c (sort L h c).2 c := by
  unfold sort
  rw [if_neg (by rw [hc.unlocked]; exact Bool.false_ne_true)]
  cases hb : c.mBuffer with
  | none => exact ⟨hc, rfl, Frame.refl h c⟩
  | some p =>
    obtain ⟨m, hp, hm⟩ := hc.packet p hb
    have hpk := packet_of_get hb hp
    rw [hpk]
    dsimp only
    obtain ⟨h1, h2⟩ := hm.sort (L := L)
    obtain ⟨h3, h4⟩ := holds_set hc hb hp h1
    exact ⟨h3, by rw [h4, h2, values_of_packet hpk], frame_set hb _⟩

/-- **`erase` takes one tag out of the map.** -/
theorem erase_holds (hc : Holds (IsMap ops B) h c) (tag : ℕ) : Holds (IsMap ops B) (erase L h c tag).2 c ∧
    values (erase L h c tag).2 c = Function.update (values h c) tag none ∧
    Frame h c (erase L h c tag).2 c := by
  unfold erase
  rw [if_neg (by rw [hc.unlocked]; exact Bool.false_ne_true)]
  cases hb : c.mBuffer with
  | none =>
    refine ⟨hc, ?_, Frame.refl h c⟩
    dsimp only
    rw [values_none hb]
    exact (Function.update_eq_self tag _).symm
  | some p =>
    obtain ⟨m, hp, hm⟩ := hc.packet p hb
    have hpk := packet_of_get hb hp
    have hv := values_of_packet hpk
    rw [hpk]
    dsimp only
    cases hf : findCameraMetadataEntry L m tag with
    | none =>
      refine ⟨hc, ?_, Frame.refl h c⟩
      have hn := hm.find_eq (L := L) tag
      rw [hf, Option.map_none] at hn
      dsimp only
      rw [hv, hn, Function.update_eq_self]
    | some e =>
      obtain ⟨hx, ht, -⟩ := hm.find_some hf
      obtain ⟨-, h1, h2⟩ := hm.delete hx
      obtain ⟨h3, h4⟩ := holds_set hc hb hp h1
      have ht' : e.typed.tag = tag := ht
      dsimp only
      exact ⟨h3, by rw [h4, h2, hv, ht'], frame_set hb _⟩

/-- **A clone is the same map** in a packet of its own. -/
theorem clonePacket_spec (hB : B ≤ 2 ^ 32) (hmalloc : ∀ n, (L.malloc n).isSome) (hc : Holds (IsMap ops B) h c)
    {d : CameraMetadata} (hd : d.mLocked = false)
    (hb : d.mBuffer = (clonePacket L h c.mBuffer).2) :
    Holds (IsMap ops B) (clonePacket L h c.mBuffer).1 d ∧
      values (clonePacket L h c.mBuffer).1 d = values h c ∧
      Frame h .empty (clonePacket L h c.mBuffer).1 d := by
  unfold clonePacket at hb ⊢
  cases hbuf : c.mBuffer with
  | none =>
    rw [hbuf] at hb
    refine ⟨⟨hd, fun p hp => ?_⟩, ?_, fun _ _ _ hq => hq, fun p hp => ?_⟩
    · rw [hb] at hp
      cases hp
    · rw [values_none hbuf, values_none hb]
    · rw [hb] at hp
      cases hp
  | some p =>
    obtain ⟨m, hp, hm⟩ := hc.packet p hbuf
    have hlt := hm.sound.compact_lt
    have hsome : (cloneCameraMetadata L m).isSome := clone_isSome (by omega) (hmalloc _)
    obtain ⟨m', hm'⟩ := Option.isSome_iff_exists.mp hsome
    obtain ⟨-, habs, -, -⟩ := clone_spec hm.sound.wf (by omega) hm'
    obtain ⟨h1, h2⟩ := hm.of_abs (hm.sound.clone hB hm') (hm.sorted.clone hm') habs
    rw [hbuf, Option.bind_some, hp, Option.bind_some, hm'] at hb
    rw [Option.bind_some, hp, Option.bind_some, hm']
    dsimp only at hb ⊢
    refine ⟨⟨hd, fun q hq => ?_⟩, ?_, frame_alloc hb m'⟩
    · rw [hb] at hq
      obtain rfl := Option.some.inj hq
      exact ⟨m', Store.get_alloc_next, h1⟩
    · rw [values_of_packet (packet_of_get hb Store.get_alloc_next), h2,
        values_of_packet (packet_of_get hbuf hp)]

/-- **Assignment copies the map** and gives up the packet held before. -/
theorem assign_spec (hB : B ≤ 2 ^ 32) (hmalloc : ∀ n, (L.malloc n).isSome) (hc : Holds (IsMap ops B) h c)
    {other : CameraMetadata} (ho : Holds (IsMap ops B) h other) :
    Holds (IsMap ops B) (assign L h c other.mBuffer).1 (assign L h c other.mBuffer).2 ∧
      values (assign L h c other.mBuffer).1 (assign L h c other.mBuffer).2 = values h other ∧
      Frame h c (assign L h c other.mBuffer).1 (assign L h c other.mBuffer).2 := by
  unfold assign
  rw [if_neg (by rw [hc.unlocked]; exact Bool.false_ne_true)]
  by_cases hself : other.mBuffer = c.mBuffer
  · rw [if_pos hself]
    refine ⟨hc, ?_, Frame.refl h c⟩
    funext tag
    unfold values packet
    rw [hself]
  · rw [if_neg hself]
    obtain ⟨h1, h2, h3⟩ := clonePacket_spec (L := L) hB hmalloc ho
      (d := { c with mBuffer := (clonePacket L h other.mBuffer).2 }) hc.unlocked rfl
    unfold clear
    dsimp only
    rw [if_neg (by rw [hc.unlocked]; exact Bool.false_ne_true)]
    cases hb : c.mBuffer with
    | none => exact ⟨h1, h2, fun q m _ hm => h3.others q m (by simp [empty]) hm,
        fun p hp => Or.inr ((h3.own p hp).resolve_left (by simp [empty]))⟩
    | some p =>
      dsimp only
      obtain ⟨m, hp, -⟩ := hc.packet p hb
      -- the clone is a new packet, so it is not the one that is freed
      have hne : ∀ q, (clonePacket L h other.mBuffer).2 = some q → q ≠ p := by
        rintro q hq rfl
        have hnew := (h3.own q hq).resolve_left (by simp [empty])
        rw [hp] at hnew
        cases hnew
      refine ⟨⟨hc.unlocked, fun q hq => ?_⟩, ?_, fun q m' hq hm => ?_, fun q hq => Or.inr ?_⟩
      · rw [Store.get_free_ne (hne q hq)]
        exact h1.packet q hq
      · rw [← h2]
        funext tag
        unfold values packet
        dsimp only
        cases hq : (clonePacket L h other.mBuffer).2 with
        | none => rfl
        | some q => rw [Option.bind_some, Option.bind_some, Store.get_free_ne (hne q hq)]
      · have hqp : q ≠ p := by
          rintro rfl
          exact hq hb
        rw [Store.get_free_ne hqp]
        exact h3.others q m' (by simp [empty]) hm
      · exact (h3.own q hq).resolve_left (by simp [empty])

end CameraMetadata

/-! ### Any number of objects -/

/-- The objects of a program, `next` of them so far, and the packets they own. -/
structure Objects where
  heap : Heap := .empty
  next : ℕ := 0
  objs : ℕ → CameraMetadata := fun _ => .empty

namespace Objects

/-- The methods, on objects named by their number. -/
inductive Op
  | construct
  | update (o tag : ℕ) (type : MetaType) (inside : Option ℕ) (data : List UInt8) (count : ℕ)
  | erase (o tag : ℕ)
  | sort (o : ℕ)
  | copy (o : ℕ)
  | assign (o other : ℕ)
  | swap (o other : ℕ)

/-- The object `o` becomes `c`. -/
def put (s : Objects) (o : ℕ) (r : Heap × CameraMetadata) : Objects :=
  { s with heap := r.1, objs := Function.update s.objs o r.2 }

/-- One call, on objects that have been constructed. -/
def step (L : Libc) (ops : Option VendorTagOps) (s : Objects) : Op → Option Objects
  | .construct => some { s with next := s.next + 1 }
  | .update o tag type inside data count =>
    if o < s.next then
      some (s.put o ((s.objs o).update L ops s.heap tag type inside data count).2)
    else none
  | .erase o tag =>
    if o < s.next then some { s with heap := ((s.objs o).erase L s.heap tag).2 } else none
  | .sort o => if o < s.next then some { s with heap := ((s.objs o).sort L s.heap).2 } else none
  | .copy o =>
    if o < s.next then
      some { s.put s.next ((s.objs o).copy L s.heap) with next := s.next + 1 }
    else none
  | .assign o other =>
    if o < s.next ∧ other < s.next then
      some (s.put o ((s.objs o).assign L s.heap (s.objs other).mBuffer))
    else none
  | .swap o other =>
    if o < s.next ∧ other < s.next then
      let swapped := (s.objs o).swap (s.objs other)
      some { s with objs := Function.update (Function.update s.objs o swapped.1) other swapped.2 }
    else none

/-- What a caller keeps to: the tag's own type, an array of that many values outside the object's own
packet, and packets below `2 ^ 31` bytes. -/
def allowed (ops : Option VendorTagOps) (s : Objects) : Op → Prop
  | .update o tag type inside data count =>
    getCameraMetadataTagType ops tag = some type ∧
      count * cameraMetadataTypeSize type.code ≤ data.length ∧
      ¬ (inside ≠ none ∧ inside = (s.objs o).mBuffer) ∧
      (s.objs o).requestSize s.heap (calculateCameraMetadataEntryDataSize type.code count) < 2 ^ 31
  | _ => True

/-- The maps the objects stand for, by number. -/
abbrev Maps := ℕ → ℕ → Option TypedEntry

/-- The same calls on finite maps; `next` is the number of the next object. -/
def mapStep (next : ℕ) (maps : Maps) : Op → Maps
  | .construct | .sort _ => maps
  | .update o tag type _ data count => Function.update maps o (Function.update (maps o) tag
      (some ⟨tag, type.code, data.take (count * cameraMetadataTypeSize type.code)⟩))
  | .erase o tag => Function.update maps o (Function.update (maps o) tag none)
  | .copy o => Function.update maps next (maps o)
  | .assign o other => Function.update maps o (maps other)
  | .swap o other => Function.update (Function.update maps o (maps other)) other (maps o)

/-- The objects and the maps side by side. -/
def joint (L : Libc) (ops : Option VendorTagOps) (s : Objects × Maps) (op : Op) :
    Option (Objects × Maps) :=
  (step L ops s.1 op).map fun s' => (s', mapStep s.1.next s.2 op)

/-- Nothing constructed yet. -/
def Start (s : Objects × Maps) : Prop := s = ({}, fun _ _ => none)

/-! ### Ownership -/

/-- The object `o` keeps its pointer and the packet behind it, with all entries. -/
structure Kept (s s' : Objects) (o : ℕ) : Prop where
  buffer : (s'.objs o).mBuffer = (s.objs o).mBuffer
  packet : (s'.objs o).packet s'.heap = (s.objs o).packet s.heap

/-- The packets of the objects are live, no packet has two owners, and what is not yet constructed is
empty. -/
structure Owned (s : Objects) : Prop where
  live : ∀ o, (s.objs o).Live s.heap
  separate : ∀ o o' p, o ≠ o' → (s.objs o).mBuffer = some p → (s.objs o').mBuffer ≠ some p
  fresh : ∀ o, s.next ≤ o → s.objs o = .empty

theorem Kept.refl (s : Objects) (o : ℕ) : Kept s s o := ⟨rfl, rfl⟩

theorem Kept.trans {s s' s'' : Objects} {o : ℕ} (h1 : Kept s s' o) (h2 : Kept s' s'' o) :
    Kept s s'' o :=
  ⟨h2.buffer.trans h1.buffer, h2.packet.trans h1.packet⟩

section Ownership

variable {s : Objects}

/-- **A method of one object leaves the others as they are.**  `hown`: it does not end with the packet
of another object. -/
theorem Owned.put (hs : Owned s) {o next : ℕ} (ho : o < next) (hn : s.next ≤ next)
    {h' : Heap} {c' : CameraMetadata}
    (hothers : ∀ q m, (s.objs o).mBuffer ≠ some q → s.heap.get q = some m → h'.get q = some m)
    (hlive : c'.Live h') (hown : ∀ p o', c'.mBuffer = some p → o' ≠ o → (s.objs o').mBuffer ≠ some p) :
    Owned { s.put o (h', c') with next := next } ∧
      ∀ o', o' ≠ o → Kept s { s.put o (h', c') with next := next } o' := by
  have hself : Function.update s.objs o c' o = c' := Function.update_self o c' s.objs
  have hne : ∀ o', o' ≠ o → Function.update s.objs o c' o' = s.objs o' :=
    fun o' h => Function.update_of_ne h c' s.objs
  -- the packet of another object is live, and stays
  have hget : ∀ o', o' ≠ o → ∀ p, (s.objs o').mBuffer = some p → h'.get p = s.heap.get p := by
    intro o' ho' p hp
    obtain ⟨m, hm⟩ := Option.isSome_iff_exists.mp (hs.live o' p hp)
    rw [hm, hothers p m (hs.separate o' o p ho' hp) hm]
  refine ⟨⟨fun o' => ?_, fun o₁ o₂ p h12 h1 h2 => ?_, fun o' ho' => ?_⟩, fun o' ho' => ⟨?_, ?_⟩⟩
  · by_cases he : o' = o
    · subst he
      simp only [Objects.put, hself]
      exact hlive
    · simp only [Objects.put, hne o' he]
      intro p hp
      rw [hget o' he p hp]
      exact hs.live o' p hp
  · simp only [Objects.put] at h1 h2
    by_cases e1 : o₁ = o
    · subst e1
      rw [hself] at h1
      rw [hne o₂ (Ne.symm h12)] at h2
      exact hown p o₂ h1 (Ne.symm h12) h2
    · rw [hne o₁ e1] at h1
      by_cases e2 : o₂ = o
      · subst e2
        rw [hself] at h2
        exact hown p o₁ h2 e1 h1
      · rw [hne o₂ e2] at h2
        exact hs.separate o₁ o₂ p h12 h1 h2
  · have ho'' : next ≤ o' := ho'
    simp only [Objects.put, hne o' (by omega)]
    exact hs.fresh o' (by omega)
  · simp only [Objects.put, hne o' ho']
  · simp only [Objects.put, hne o' ho']
    cases hb : (s.objs o').mBuffer with
    | none => rw [CameraMetadata.packet_none hb, CameraMetadata.packet_none hb]
    | some p =>
      unfold CameraMetadata.packet
      rw [hb]
      exact hget o' ho' p hb

/-- The packet a method ends with is its own or a new one, so not that of another object. -/
theorem Owned.apart (hs : Owned s) {o : ℕ} {r : Heap × CameraMetadata}
    (hf : CameraMetadata.Frame s.heap (s.objs o) r.1 r.2) (p o' : ℕ) (hp : r.2.mBuffer = some p)
    (ho' : o' ≠ o) : (s.objs o').mBuffer ≠ some p := by
  intro hb
  rcases hf.own p hp with hown | hnew
  · exact hs.separate o o' p (Ne.symm ho') hown hb
  · have hlive := hs.live o' p hb
    rw [hnew] at hlive
    cases hlive

/-- Exchanging two objects. -/
theorem Owned.exchange (hs : Owned s) {o other : ℕ} (ho : o < s.next) (ho' : other < s.next) :
    Owned { s with objs := s.objs ∘ Equiv.swap other o } := by
  refine ⟨fun i => hs.live _, fun i j p hij => ?_, fun i hi => ?_⟩
  · exact hs.separate _ _ p fun he => hij ((Equiv.swap other o).injective he)
  · have hi' : s.next ≤ i := hi
    have hfix : Equiv.swap other o i = i := Equiv.swap_apply_of_ne_of_ne (by omega) (by omega)
    show s.objs (Equiv.swap other o i) = .empty
    rw [hfix]
    exact hs.fresh i hi'

end Ownership

/-- **The invariant**: every object holds the map it stands for, no packet has two owners, and what
is not yet constructed is empty. -/
structure Represents (ops : Option VendorTagOps) (s : Objects) (maps : Maps) : Prop where
  holds : ∀ o, (s.objs o).Holds (IsMap ops (2 ^ 31)) s.heap
  values : ∀ o, (s.objs o).values s.heap = maps o
  separate : ∀ o o' p, o ≠ o' → (s.objs o).mBuffer = some p → (s.objs o').mBuffer ≠ some p
  fresh : ∀ o, s.next ≤ o → s.objs o = .empty

section Steps

variable {L : Libc} {ops : Option VendorTagOps} {s : Objects} {maps : Maps}

theorem Represents.owned (h : Represents ops s maps) : Owned s := by
  refine ⟨fun o p hp => ?_, h.separate, h.fresh⟩
  obtain ⟨m, hm, -⟩ := (h.holds o).packet p hp
  rw [hm]
  rfl

/-- **A method on one object leaves the maps of the others.** -/
theorem Represents.put (h : Represents ops s maps) {o : ℕ} {h' : Heap} {c' : CameraMetadata}
    {next : ℕ} (ho : o < next) (hn : s.next ≤ next) (hh : c'.Holds (IsMap ops (2 ^ 31)) h')
    (hf : CameraMetadata.Frame s.heap (s.objs o) h' c') :
    Represents ops { s.put o (h', c') with next := next } (Function.update maps o (c'.values h')) := by
  have hlive : c'.Live h' := by
    intro p hp
    obtain ⟨m, hm, -⟩ := hh.packet p hp
    rw [hm]
    rfl
  obtain ⟨howned, hkept⟩ := h.owned.put ho hn hf.others hlive (h.owned.apart (r := (h', c')) hf)
  refine ⟨fun o' => ?_, fun o' => ?_, howned.separate, howned.fresh⟩
  · by_cases he : o' = o
    · subst he
      simp only [Objects.put, Function.update_self]
      exact hh
    · have hpk := (hkept o' he).packet
      simp only [Objects.put, Function.update_of_ne he] at hpk ⊢
      refine ⟨(h.holds o').unlocked, fun p hp => ?_⟩
      obtain ⟨m, hm, hmap⟩ := (h.holds o').packet p hp
      rw [CameraMetadata.packet_of_get hp hm] at hpk
      unfold CameraMetadata.packet at hpk
      rw [hp] at hpk
      exact ⟨m, hpk, hmap⟩
  · by_cases he : o' = o
    · subst he
      simp only [Objects.put, Function.update_self]
    · rw [Function.update_of_ne he, ← h.values o']
      funext tag
      unfold CameraMetadata.values
      rw [(hkept o' he).packet]

/-- Exchanging two objects exchanges their maps. -/
theorem Represents.swap (h : Represents ops s maps) {o other : ℕ} (ho : o < s.next)
    (ho' : other < s.next) :
    Represents ops { s with objs := Function.update (Function.update s.objs o
        ((s.objs o).swap (s.objs other)).1) other ((s.objs o).swap (s.objs other)).2 }
      (Function.update (Function.update maps o (maps other)) other (maps o)) := by
  rw [CameraMetadata.swap_unlocked (h.holds o).unlocked (h.holds other).unlocked]
  dsimp only
  rw [← Equiv.comp_swap_eq_update, ← Equiv.comp_swap_eq_update]
  have howned := h.owned.exchange ho ho'
  exact ⟨fun i => h.holds _, fun i => h.values _, howned.separate, howned.fresh⟩

/-- **Every method keeps the objects in step with their maps.** -/
theorem Represents.step (hmalloc : ∀ n, (L.malloc n).isSome) (h : Represents ops s maps) {op : Op}
    {s' : Objects} (ha : allowed ops s op) (hs : step L ops s op = some s') :
    Represents ops s' (mapStep s.next maps op) := by
  have hB : 2 ^ 31 ≤ 2 ^ 32 := by norm_num
  have hself : ∀ o, Function.update s.objs o (s.objs o) = s.objs := fun o => Function.update_eq_self o _
  cases op with
  | construct =>
    obtain rfl := Option.some.inj hs
    exact ⟨h.holds, h.values, h.separate, fun o ho => h.fresh o (Nat.le_of_succ_le ho)⟩
  | update o tag type inside data count =>
    obtain ⟨ho, rfl⟩ := guarded hs
    obtain ⟨ht, hd, hin, hsz⟩ := ha
    obtain ⟨h', c', hu, hup⟩ := CameraMetadata.update_spec (L := L) hB hmalloc
      ((h.holds o).mono fun _ hm => hm.toIsTyped) ht hd hin hsz
    obtain ⟨hh, hv⟩ := hup.map (h.holds o)
    rw [hu]
    have hput := h.put ho le_rfl hh hup.frame
    rw [hv, h.values o] at hput
    exact hput
  | erase o tag =>
    obtain ⟨ho, rfl⟩ := guarded hs
    obtain ⟨h1, h2, h3⟩ := CameraMetadata.erase_holds (L := L) (h.holds o) tag
    have hput := h.put ho le_rfl h1 h3
    rw [h2, h.values o] at hput
    simp only [Objects.put, hself] at hput
    exact hput
  | sort o =>
    obtain ⟨ho, rfl⟩ := guarded hs
    obtain ⟨h1, h2, h3⟩ := CameraMetadata.sort_holds (L := L) (h.holds o)
    have hput := h.put ho le_rfl h1 h3
    rw [h2, h.values o, Function.update_eq_self] at hput
    simp only [Objects.put, hself] at hput
    exact hput
  | copy o =>
    obtain ⟨ho, rfl⟩ := guarded hs
    obtain ⟨h1, h2, h3⟩ := CameraMetadata.clonePacket_spec (L := L) hB hmalloc (h.holds o)
      (d := ((s.objs o).copy L s.heap).2) rfl rfl
    rw [← h.fresh s.next le_rfl] at h3
    have hput := h.put (Nat.lt_succ_self _) (Nat.le_succ _) h1 h3
    rw [h2, h.values o] at hput
    exact hput
  | assign o other =>
    obtain ⟨ho, rfl⟩ := guarded hs
    obtain ⟨h1, h2, h3⟩ := CameraMetadata.assign_spec (L := L) hB hmalloc (h.holds o) (h.holds other)
    have hput := h.put ho.1 le_rfl h1 h3
    rw [h2, h.values other] at hput
    exact hput
  | swap o other =>
    obtain ⟨ho, rfl⟩ := guarded hs
    exact h.swap ho.1 ho.2

theorem represents_start {s : Objects × Maps} (h : Start s) : Represents ops s.1 s.2 := by
  subst h
  refine ⟨fun o => ⟨rfl, fun p hp => ?_⟩, fun o => CameraMetadata.values_none rfl,
    fun o o' p _ hp => ?_, fun _ _ => rfl⟩
  · cases hp
  · cases hp

end Steps

/-- The objects `s` are the finite maps `maps`: a search finds the entry of the map and nothing else,
no tag is stored twice, and every update a caller may make is accepted. -/
structure AreMaps (L : Libc) (ops : Option VendorTagOps) (s : Objects) (maps : Maps) : Prop where
  find : ∀ o tag, ((s.objs o).find L s.heap tag).map MetadataEntry.typed = maps o tag
  count : ∀ o tag e, (s.objs o).find L s.heap tag = some e →
    e.data.length = e.count * cameraMetadataTypeSize e.type
  unique : ∀ o m, (s.objs o).packet s.heap = some m → (m.entries.map (·.tag)).Nodup
  update_ok : ∀ o tag type inside data count,
    allowed ops s (.update o tag type inside data count) →
    ((s.objs o).update L ops s.heap tag type inside data count).1 = .ok

variable {L : Libc} {ops : Option VendorTagOps}

theorem Represents.packet_isMap {s : Objects} {maps : Maps} (h : Represents ops s maps) {o : ℕ}
    {m : Metadata} (hp : (s.objs o).packet s.heap = some m) : IsMap ops (2 ^ 31) m := by
  obtain ⟨p, hb, hm⟩ := Option.bind_eq_some_iff.mp hp
  exact (h.holds o).of_get hb hm

/-- **`CameraMetadata` objects are finite maps**, over every sequence of constructions, updates,
erases, sorts, copies, assignments and swaps. -/
theorem objects_areMaps (hmalloc : ∀ n, (L.malloc n).isSome) {s : Objects × Maps}
    (h : Reach (joint L ops) (fun s op => allowed ops s.1 op) Start s) : AreMaps L ops s.1 s.2 := by
  have hrep : Represents ops s.1 s.2 := by
    refine h.invariant (fun s hs => represents_start hs) fun s op s' _ hI ha hst => ?_
    obtain ⟨t, ht, rfl⟩ := Option.map_eq_some_iff.mp hst
    exact hI.step hmalloc ha ht
  refine ⟨fun o tag => ?_, fun o tag e he => ?_, fun o m hp => ?_, ?_⟩
  · rw [← hrep.values o]
    unfold CameraMetadata.find CameraMetadata.values
    cases hp : (s.1.objs o).packet s.1.heap with
    | none => rfl
    | some m => exact (hrep.packet_isMap hp).find_eq tag
  · obtain ⟨m, hp, hf⟩ := Option.bind_eq_some_iff.mp he
    exact find_count (hrep.packet_isMap hp).sound.wf hf
  · rw [← abs_tags]
    exact (hrep.packet_isMap hp).nodup
  · rintro o tag type inside data count ⟨ht, hd, hin, hsz⟩
    obtain ⟨h', c', hu, -⟩ := CameraMetadata.update_spec (L := L) (by norm_num) hmalloc
      ((hrep.holds o).mono fun _ hm => hm.toIsTyped) ht hd hin hsz
    rw [hu]

instance (ops : Option VendorTagOps) (s : Objects) : (op : Op) → Decidable (allowed ops s op)
  | .update .. => inferInstanceAs (Decidable (_ ∧ _ ∧ _ ∧ _))
  | .construct | .erase .. | .sort .. | .copy .. | .assign .. | .swap .. => .isTrue trivial

/-- Two updates that make the packet grow, a sort, a copy, an erase in the original and an update of
the copy: the copy has both entries. -/
theorem objects_areMaps_after_copy : ∃ s : Objects × Maps,
    Reach (joint referenceLibc none) (fun s op => allowed none s.1 op) Start s ∧
      (s.2 0 controlAeMode, s.2 1 controlAeMode) =
        (none, some (⟨controlAeMode, MetaType.byte.code, [0]⟩ : TypedEntry)) ∧
      AreMaps referenceLibc none s.1 s.2 := by
  have h0 : Start ({}, fun _ _ => none) := rfl
  obtain ⟨s, h, hv⟩ := Reach.of_exec
    (f := fun s : Objects × Maps => (s.2 0 controlAeMode, s.2 1 controlAeMode))
    (v := (none, some ⟨controlAeMode, MetaType.byte.code, [0]⟩)) h0
    (show (exec (joint referenceLibc none) (fun s op => allowed none s.1 op) ({}, fun _ _ => none)
      [.construct, .update 0 controlAeMode .byte none [1] 1,
        .update 0 sensorExposureTime .int64 none (i64Bytes [5]) 1, .sort 0, .copy 0,
        .erase 0 controlAeMode, .update 1 controlAeMode .byte none [0] 1]).map _ = _ by decide)
  exact ⟨s, h, hv, objects_areMaps (fun _ => rfl) h⟩

end Objects

end IntelCamera
