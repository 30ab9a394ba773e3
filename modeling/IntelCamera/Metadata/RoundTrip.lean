import IntelCamera.Metadata.Blob

/-!
# Metadata.RoundTrip — copies of a packet

`copy_camera_metadata` writes a packet to a block of bytes, and
`allocate_copy_camera_metadata_checked` takes such a block back.  Here both are on bytes:
`copy_decode` says that the bytes of a copy describe the copy of the packet the source's bytes
describe, and `decode_eqOn` that a packet is described by the bytes up to its size.  What the operations
keep (the layout and the checked records) then gives that a copy is accepted and has the same entries.
-/

namespace IntelCamera

open Lib

namespace Blob

/-! ### The code -/

/-- `place_camera_metadata` in a block of `dstSize` bytes: the nine words of the header. -/
def placeCameraMetadata (dst : Mem UInt8) (dstSize entryCapacity dataCapacity : ℕ) :
    Option (Mem UInt8) :=
  let memoryNeeded := calculateCameraMetadataSize entryCapacity dataCapacity
  if memoryNeeded > dstSize then none else
  let entriesStart := alignTo sizeofCameraMetadata entryAlignment
  let dataUnaligned := entriesStart + sizeofBufferEntry * u32 entryCapacity
  some (dst.write 0 (words 4 [memoryNeeded, currentMetadataVersion, 0, 0, entryCapacity, entriesStart,
    0, dataCapacity, alignTo dataUnaligned dataAlignment]))

/-- `copy_camera_metadata` of the packet in `src`; `dst = none` is the null pointer. -/
def copyTo (dst : Option (Mem UInt8)) (dstSize : ℕ) (src : Mem UInt8) : Option (Mem UInt8) :=
  match dst with
  | none => none
  | some dst =>
    if dstSize < calculateCameraMetadataSize (wordAt src 12) (wordAt src 24) then none else
    match placeCameraMetadata dst dstSize (wordAt src 12) (wordAt src 24) with
    | none => none
    | some metadata =>
      let metadata := metadata.write 8 (src.read 8 4)
      let metadata := metadata.write 12 (src.read 12 4)
      let metadata := metadata.write 24 (src.read 24 4)
      let metadata := metadata.write (wordAt metadata 20)
        (src.read (wordAt src 20) (sizeofBufferEntry * wordAt metadata 12))
      some (metadata.write (wordAt metadata 32) (src.read (wordAt src 32) (wordAt metadata 24)))

/-- `allocate_copy_camera_metadata_checked`; the block that `malloc` hands out is at `addr`. -/
def allocateCopyCameraMetadataChecked (L : Libc) (ops : Option VendorTagOps) (addr : ℕ)
    (src : Option (Mem UInt8)) (srcSize : ℕ) : Option (Mem UInt8) :=
  match src, L.malloc srcSize with
  | some src, some buffer =>
    let metadata := Mem.write buffer 0 (src.read 0 srcSize)
    if (validateCameraMetadataStructure ops addr (some srcSize) metadata).1 ≠ .ok then none
    else some metadata
  | _, _ => none

/-! ### Words and records after a write -/

section Writes

variable {m m' : Mem UInt8} {o a : ℕ} {src : List UInt8}

/-- The words at the start of the memory. -/
def HasWords (m : Mem UInt8) (l : List ℕ) : Prop := ∀ i k, l[i]? = some k → wordAt m (4 * i) = k

theorem hasWords_write {l : List ℕ} (hl : ∀ k ∈ l, k < 2 ^ 32) :
    HasWords (m.write 0 (words 4 l)) l := by
  intro i k hk
  have hi : i < l.length := (List.getElem?_eq_some_iff.mp hk).1
  unfold wordAt
  rw [← Nat.zero_add (4 * i), Mem.read_write_part (by rw [length_words]; omega), slice_words hk]
  exact leNat_leBytes (hl k (List.mem_of_getElem? hk))

/-- One word is replaced. -/
theorem HasWords.set {l : List ℕ} (h : HasWords m l) (i : ℕ) (hsrc : src.length = 4) :
    HasWords (m.write (4 * i) src) (l.set i (leNat src)) := by
  intro j k hk
  unfold wordAt
  by_cases hij : i = j
  · subst hij
    rw [List.getElem?_set_self'] at hk
    obtain ⟨_, -, hk'⟩ := Option.map_eq_some_iff.mp hk
    rw [← hsrc, Mem.read_write_self]
    exact hk'
  · rw [List.getElem?_set_ne hij] at hk
    rw [Mem.read_write_disjoint (by omega)]
    exact h j k hk

/-- What is written behind the words leaves them. -/
theorem HasWords.write {l : List ℕ} (h : HasWords m l) (ha : 4 * l.length ≤ a) (src : List UInt8) :
    HasWords (m.write a src) l := by
  intro i k hk
  have hi : i < l.length := (List.getElem?_eq_some_iff.mp hk).1
  unfold wordAt
  rw [Mem.read_write_disjoint (by omega)]
  exact h i k hk

/-- A record is its sixteen bytes. -/
theorem entryAt_congr {e e' : ℕ} (h : m'.read e' sizeofBufferEntry = m.read e sizeofBufferEntry) :
    entryAt m' e' = entryAt m e := by
  have hpart : ∀ k n, k + n ≤ sizeofBufferEntry → m'.read (e' + k) n = m.read (e + k) n := by
    intro k n hk
    rw [← Mem.slice_read m' e' hk, ← Mem.slice_read m e hk, h]
  have h0 := hpart 0 4 (by decide)
  rw [Nat.add_zero, Nat.add_zero] at h0
  unfold entryAt
  rw [h0, hpart 4 4 (by decide), hpart 8 4 (by decide), hpart 12 1 (by decide)]

/-- **A packet is described by the bytes of its header, its records and its data.** -/
theorem decode_eqOn {N : ℕ} (h : Set.EqOn m' m (Set.Iio N)) (h36 : 36 ≤ N)
    (he : wordAt m 20 + 16 * wordAt m 12 ≤ N) (hd : wordAt m 32 + wordAt m 28 ≤ N) :
    decode m' = decode m := by
  have hread : ∀ a n, a + n ≤ N → m'.read a n = m.read a n := fun a n ha =>
    Mem.read_eqOn h fun x hx => Set.mem_Iio.mpr (lt_of_lt_of_le hx.2 ha)
  have hword : ∀ o, o + 4 ≤ 36 → wordAt m' o = wordAt m o := by
    intro o ho
    unfold wordAt
    rw [hread o 4 (by omega)]
  have hrec : (List.range (wordAt m 12)).map (record m') = (List.range (wordAt m 12)).map (record m) := by
    refine List.map_congr_left fun i hi => ?_
    have hi' := List.mem_range.mp hi
    unfold record recordAt
    rw [hword 20 (by norm_num)]
    exact entryAt_congr (hread _ _ (by unfold sizeofBufferEntry; omega))
  unfold decode
  rw [hword 0 (by norm_num), hword 4 (by norm_num), hword 8 (by norm_num), hword 12 (by norm_num),
    hword 16 (by norm_num), hword 20 (by norm_num), hword 24 (by norm_num), hword 28 (by norm_num),
    hword 32 (by norm_num), hrec, hread _ _ hd]

end Writes

/-! ### The bytes of a copy -/

theorem entryCount_decode (m : Mem UInt8) : (decode m).entryCount = wordAt m 12 := by
  unfold Metadata.entryCount decode
  rw [List.length_map, List.length_range]

section Copy

variable {src : Mem UInt8} {n : ℕ} (dst : Mem UInt8)

/-- The header of the copy of `src`. -/
def copiedHeader (src : Mem UInt8) : List ℕ :=
  [calculateCameraMetadataSize (wordAt src 12) (wordAt src 24), currentMetadataVersion, wordAt src 8,
    wordAt src 12, wordAt src 12, 36, wordAt src 24, wordAt src 24,
    alignTo (36 + 16 * wordAt src 12) 8]

/-- The nine words that are placed. -/
theorem place_hasWords {ec dc : ℕ} (hsz : calculateCameraMetadataSize ec dc < 2 ^ 32)
    (hn : calculateCameraMetadataSize ec dc ≤ n) :
    ∃ placed, placeCameraMetadata dst n ec dc = some placed ∧
      HasWords placed [calculateCameraMetadataSize ec dc, currentMetadataVersion, 0, 0, ec, 36, 0, dc,
        alignTo (36 + 16 * ec) 8] := by
  have hal := le_alignTo (36 + 16 * ec)
  have hsz' := hsz
  rw [calculateSize_eq] at hsz'
  refine ⟨_, ?_, hasWords_write (m := dst) fun k hk => ?_⟩
  · unfold placeCameraMetadata
    dsimp only
    rw [if_neg (by omega), (u32_of_size hsz).1]
    rfl
  · simp only [List.mem_cons, List.not_mem_nil, or_false] at hk
    unfold currentMetadataVersion at hk
    omega

/-- The copy of a packet that fits in 32 bits: the header, the records behind it, and the data at the
next multiple of 8. -/
theorem copyTo_some (hsz : calculateCameraMetadataSize (wordAt src 12) (wordAt src 24) < 2 ^ 32)
    (hn : calculateCameraMetadataSize (wordAt src 12) (wordAt src 24) ≤ n) :
    ∃ header : Mem UInt8, HasWords header (copiedHeader src) ∧ copyTo (some dst) n src = some
      ((header.write 36 (src.read (wordAt src 20) (16 * wordAt src 12))).write
        (alignTo (36 + 16 * wordAt src 12) 8) (src.read (wordAt src 32) (wordAt src 24))) := by
  obtain ⟨placed, hp, hw⟩ := place_hasWords dst hsz hn
  have hheader := ((hw.set 2 (Mem.length_read src 8 4)).set 3 (Mem.length_read src 12 4)).set 6
    (Mem.length_read src 24 4)
  refine ⟨_, hheader, ?_⟩
  unfold copyTo
  dsimp only
  rw [if_neg (by omega), hp]
  dsimp only
  change HasWords (((placed.write 8 (src.read 8 4)).write 12 (src.read 12 4)).write 24
    (src.read 24 4)) (copiedHeader src) at hheader
  change some _ = some ((Mem.write (((placed.write 8 (src.read 8 4)).write 12 (src.read 12 4)).write 24
    (src.read 24 4)) 36 _).write _ _)
  generalize ((placed.write 8 (src.read 8 4)).write 12 (src.read 12 4)).write 24 (src.read 24 4) =
    header at hheader ⊢
  -- the places and lengths are read from the header that was just written
  have h20 : wordAt header 20 = 36 := hheader 5 _ rfl
  have h12 : wordAt header 12 = wordAt src 12 := hheader 3 _ rfl
  rw [h20, h12]
  have hrecords := hheader.write (a := 36) le_rfl
    (src.read (wordAt src 20) (16 * wordAt src 12))
  have h32 := hrecords 8 _ rfl
  have h24 := hrecords 6 _ rfl
  change wordAt _ 32 = _ at h32
  change wordAt _ 24 = _ at h24
  unfold sizeofBufferEntry
  rw [h32, h24]

theorem take_data_decode (hd : wordAt src 24 ≤ wordAt src 28) :
    (decode src).data.take (decode src).dataCount = src.read (wordAt src 32) (wordAt src 24) := by
  show (src.read (wordAt src 32) (wordAt src 28)).take (wordAt src 24) = _
  have hslice := Mem.slice_read src (wordAt src 32) (o := 0) (k := wordAt src 24)
    (n := wordAt src 28) (by omega)
  rwa [Nat.add_zero] at hslice

/-- The copy of a packet, field by field: nothing of the block it is placed in is left. -/
theorem copy_eq {m : Metadata} (hw : WF m) (hsz : getCameraMetadataCompactSize m < 2 ^ 32)
    (hn : getCameraMetadataCompactSize m ≤ n) :
    IntelCamera.copyCameraMetadata dst n m = some
      { size := getCameraMetadataCompactSize m
        version := currentMetadataVersion
        flags := m.flags
        entryCapacity := m.entryCount
        entriesStart := 36
        dataCount := m.dataCount
        dataCapacity := m.dataCount
        dataStart := alignTo (36 + 16 * m.entryCount) 8
        entries := m.entries
        data := m.data.take m.dataCount } := by
  have hal := le_alignTo (36 + 16 * m.entryCount)
  unfold getCameraMetadataCompactSize at hsz hn ⊢
  obtain ⟨hec, hdc⟩ := u32_of_size hsz
  have hsize : u32 (calculateCameraMetadataSize m.entryCount m.dataCount) =
      calculateCameraMetadataSize m.entryCount m.dataCount := Nat.mod_eq_of_lt hsz
  have hstart : u32 (alignTo (36 + 16 * m.entryCount) 8) = alignTo (36 + 16 * m.entryCount) 8 := by
    rw [calculateSize_eq] at hsz
    exact Nat.mod_eq_of_lt (by omega)
  have hlen : (m.data.take m.dataCount).length = m.dataCount := by
    rw [List.length_take, hw.data_length]
    have := hw.dataCount_le
    omega
  unfold IntelCamera.copyCameraMetadata IntelCamera.placeCameraMetadata getCameraMetadataCompactSize
  dsimp only
  rw [if_neg (by omega), if_neg (by omega), hec, hdc, hsize]
  dsimp only
  rw [memcpy_all (by rw [List.length_map, List.length_range, hlen])]
  simp only [Option.some.injEq, Metadata.mk.injEq, true_and, and_true]
  exact ⟨rfl, hstart⟩

/-- **The bytes of a copy describe the copy of the packet.** -/
theorem copy_decode (hw : WF (decode src)) (hsz : getCameraMetadataCompactSize (decode src) < 2 ^ 32) :
    (copyTo (some dst) n src).map decode = IntelCamera.copyCameraMetadata dst n (decode src) := by
  have hcompact : getCameraMetadataCompactSize (decode src) =
      calculateCameraMetadataSize (wordAt src 12) (wordAt src 24) := by
    unfold getCameraMetadataCompactSize
    rw [entryCount_decode]
    rfl
  by_cases hn : n < getCameraMetadataCompactSize (decode src)
  · unfold copyTo IntelCamera.copyCameraMetadata
    rw [if_pos hn]
    dsimp only
    rw [if_pos (by rwa [← hcompact])]
    rfl
  · rw [copy_eq dst hw hsz (Nat.not_lt.mp hn)]
    rw [hcompact] at hsz hn
    obtain ⟨header, hheader, hcopy⟩ := copyTo_some dst hsz (Nat.not_lt.mp hn)
    have hal := le_alignTo (36 + 16 * wordAt src 12)
    have hblob := (hheader.write (a := 36) le_rfl
      (src.read (wordAt src 20) (16 * wordAt src 12))).write
      (show 36 ≤ alignTo (36 + 16 * wordAt src 12) 8 by omega)
      (src.read (wordAt src 32) (wordAt src 24))
    have hdata := Mem.read_write_self
      (m := header.write 36 (src.read (wordAt src 20) (16 * wordAt src 12)))
      (alignTo (36 + 16 * wordAt src 12) 8) (src.read (wordAt src 32) (wordAt src 24))
    have hrecords : ∀ i < wordAt src 12,
        ((header.write 36 (src.read (wordAt src 20) (16 * wordAt src 12))).write
          (alignTo (36 + 16 * wordAt src 12) 8) (src.read (wordAt src 32) (wordAt src 24))).read
            (36 + 16 * i) 16 = src.read (wordAt src 20 + 16 * i) 16 := by
      intro i hi
      rw [Mem.read_write_disjoint (by omega), Mem.read_write_part (by rw [Mem.length_read]; omega),
        Mem.slice_read _ _ (by omega)]
    rw [Mem.length_read] at hdata
    rw [hcopy, Option.map_some]
    generalize (header.write 36 (src.read (wordAt src 20) (16 * wordAt src 12))).write
      (alignTo (36 + 16 * wordAt src 12) 8) (src.read (wordAt src 32) (wordAt src 24)) = blob
      at hblob hdata hrecords ⊢
    have h0 : wordAt blob 0 = _ := hblob 0 _ rfl
    have h4 : wordAt blob 4 = _ := hblob 1 _ rfl
    have h8 : wordAt blob 8 = _ := hblob 2 _ rfl
    have h12 : wordAt blob 12 = _ := hblob 3 _ rfl
    have h16 : wordAt blob 16 = _ := hblob 4 _ rfl
    have h20 : wordAt blob 20 = _ := hblob 5 _ rfl
    have h24 : wordAt blob 24 = _ := hblob 6 _ rfl
    have h28 : wordAt blob 28 = _ := hblob 7 _ rfl
    have h32 : wordAt blob 32 = _ := hblob 8 _ rfl
    have hents : (List.range (wordAt src 12)).map (record blob) =
        (List.range (wordAt src 12)).map (record src) := by
      refine List.map_congr_left fun i hi => ?_
      unfold record recordAt
      rw [h20]
      exact entryAt_congr (hrecords i (List.mem_range.mp hi))
    rw [hcompact, entryCount_decode, take_data_decode hw.dataCount_le]
    unfold decode
    rw [h0, h4, h8, h12, h16, h20, h24, h28, h32, hents, hdata]

/-- **When a copy succeeds.** -/
theorem copyTo_isSome_iff (hw : WF (decode src))
    (hsz : getCameraMetadataCompactSize (decode src) < 2 ^ 32) (dst : Option (Mem UInt8)) :
    (copyTo dst n src).isSome ↔ dst.isSome ∧ getCameraMetadataCompactSize (decode src) ≤ n := by
  cases dst with
  | none => simp [copyTo]
  | some dst =>
    rw [← Option.isSome_map (f := decode), copy_decode dst hw hsz]
    by_cases hn : getCameraMetadataCompactSize (decode src) ≤ n
    · rw [copy_eq dst hw hsz hn]
      exact iff_of_true rfl ⟨rfl, hn⟩
    · unfold IntelCamera.copyCameraMetadata
      rw [if_pos (Nat.not_le.mp hn)]
      exact iff_of_false Bool.false_ne_true fun h => hn h.2

end Copy

/-! ### A block that is taken back -/

section Checked

variable {L : Libc} (ops : Option VendorTagOps) {addr : ℕ} {m : Metadata}

/-- A limit on the size that the packet keeps is no more than none. -/
theorem validate_expectedSize {k : ℕ} (hk : m.size ≤ k) :
    IntelCamera.validateCameraMetadataStructure ops addr m (some k) =
      IntelCamera.validateCameraMetadataStructure ops addr m none := by
  unfold IntelCamera.validateCameraMetadataStructure
  have hsome : ¬ ((some k).any fun n => decide (n < m.size)) = true := by
    rw [Option.any_some, decide_eq_true_eq]
    omega
  have hnone : ¬ ((none : Option ℕ).any fun n => decide (n < m.size)) = true := by simp
  rw [if_neg hsome, if_neg hnone]

/-- **A sound packet is taken back from its bytes.** -/
theorem allocateCopyChecked_decode {blob : Mem UInt8} {ec dc : ℕ} (hmalloc : ∀ n, (L.malloc n).isSome)
    (hw : WF (decode blob)) (hg : Geometry (decode blob) ec dc)
    (hsz : calculateCameraMetadataSize ec dc < 2 ^ 32)
    (hc : ∀ e ∈ (decode blob).entries, Checked e) (ha : 8 ∣ addr) :
    ∃ buffer, allocateCopyCameraMetadataChecked L ops addr (some blob)
        (calculateCameraMetadataSize ec dc) = some buffer ∧ decode buffer = decode blob := by
  obtain ⟨block, hblock⟩ := Option.isSome_iff_exists.mp (hmalloc (calculateCameraMetadataSize ec dc))
  have heq : Set.EqOn (Mem.write block 0 (blob.read 0 (calculateCameraMetadataSize ec dc))) blob
      (Set.Iio (calculateCameraMetadataSize ec dc)) := by
    intro x (hx : x < calculateCameraMetadataSize ec dc)
    have hlen : x < (blob.read 0 (calculateCameraMetadataSize ec dc)).length := by
      rw [Mem.length_read]
      exact hx
    have hin := Mem.write_inside block 0 hlen
    rw [Mem.getElem?_read, if_pos hx, Nat.zero_add] at hin
    exact Option.some.inj hin
  have hal := le_alignTo (36 + 16 * ec)
  have hcount : wordAt blob 12 ≤ ec := by
    rw [← entryCount_decode, ← hg.entryCapacity]
    exact hw.entries_le
  have hstart : wordAt blob 20 = 36 := hg.entriesStart
  have hdata : wordAt blob 28 = dc := hg.dataCapacity
  have hdataStart : wordAt blob 32 = alignTo (36 + 16 * ec) 8 := hg.dataStart
  have hdec : decode (Mem.write block 0 (blob.read 0 (calculateCameraMetadataSize ec dc))) =
      decode blob := by
    rw [calculateSize_eq] at heq ⊢
    exact decode_eqOn heq (by omega) (by omega) (by omega)
  refine ⟨_, ?_, hdec⟩
  unfold allocateCopyCameraMetadataChecked
  rw [hblock]
  dsimp only
  rw [validate_decode, hdec, validate_expectedSize ops hg.size.le, validate_ok hw hg hsz hc ha]
  exact if_neg (not_not.mpr rfl)

end Checked

end Blob

/-! ### Every packet that is built -/

/-- Sizes below `2 ^ 31`, and updates to at least one value. -/
def nonzero : Limits where
  alloc ec dc := calculateCameraMetadataSize ec dc < 2 ^ 31
  append _ _ := True
  update _ n := n ≠ 0

/-- `c` is made from `m`: by a copy, between bytes, or by a clone. -/
def CopyOf (L : Libc) (m c : Metadata) : Prop :=
  (∃ src dst n, Blob.decode src = m ∧ (Blob.copyTo dst n src).map Blob.decode = some c) ∨
    cloneCameraMetadata L m = some c

/-- A copy without room to spare. -/
structure Compact (m c : Metadata) : Prop where
  entries : c.abs = m.abs
  entryCapacity : c.entryCapacity = c.entryCount
  dataCapacity : c.dataCapacity = c.dataCount
  size : c.size = getCameraMetadataCompactSize m

section Built

variable {L : Libc} {ops : Option VendorTagOps} {m c : Metadata}

/-- A run within narrower limits. -/
theorem Built.mono {G G' : Limits} (hal : ∀ ec dc, G.alloc ec dc → G'.alloc ec dc)
    (hap : ∀ dst src, Built L ops G dst → Built L ops G src → G.append dst src → G'.append dst src)
    (hup : ∀ e n, G.update e n → G'.update e n) (h : Built L ops G m) : Built L ops G' m := by
  induction h with
  | allocate hsz hm => exact .allocate (hal _ _ hsz) hm
  | place hsz hm => exact .place (hal _ _ hsz) hm
  | copy _ hm ih => exact .copy ih hm
  | clone _ hm ih => exact .clone ih hm
  | add _ hd ih => exact .add ih hd
  | update _ hd ih => exact .update ih fun e he => ⟨(hd e he).1, hup _ _ (hd e he).2⟩
  | delete _ ih => exact .delete ih
  | append h1 h2 hg ih1 ih2 => exact .append ih1 ih2 (hap _ _ h1 h2 hg)
  | sort _ ih => exact .sort ih

theorem Built.sound_nonzero (h : Built L ops nonzero m) : Sound (2 ^ 31) m := by
  refine h.sound (by norm_num) (fun ec dc hsz => ?_) fun dst src h1 h2 _ _ => ?_
  · have hsz' : calculateCameraMetadataSize ec dc < 2 ^ 31 := hsz
    obtain ⟨hec, hdc⟩ := u32_of_size (hsz'.trans (by norm_num))
    rw [hec, hdc]
    exact hsz
  · have hc1 := h1.counts_lt
    have hc2 := h2.counts_lt
    omega

theorem Built.valid32_of_nonzero (h : Built L ops nonzero m) : Built L ops valid32 m := by
  refine h.mono (fun ec dc hsz => ?_) (fun dst src h1 h2 _ _ => ?_) fun e n hn h0 => absurd h0 hn
  · have hsz' : calculateCameraMetadataSize ec dc < 2 ^ 31 := hsz
    obtain ⟨hec, hdc⟩ := u32_of_size (hsz'.trans (by norm_num))
    show calculateCameraMetadataSize (u32 ec) (u32 dc) < 2 ^ 32
    rw [hec, hdc]
    omega
  · have hc1 := h1.sound_nonzero.counts_lt
    have hc2 := h2.sound_nonzero.counts_lt
    omega

theorem clone_dataCount (hs : Sound (2 ^ 32) m) (hc : cloneCameraMetadata L m = some c) :
    c.dataCount = m.dataCount := by
  have hcnt := hs.counts_lt
  unfold cloneCameraMetadata at hc
  split at hc
  · cases hc
  · next fresh hf =>
    obtain ⟨-, -, h0, -, -⟩ := allocate_fresh hf
    unfold appendCameraMetadata at hc
    split_ifs at hc
    obtain rfl := Option.some.inj hc
    show u32 (fresh.dataCount + m.dataCount) = m.dataCount
    rw [h0, Nat.zero_add]
    exact Nat.mod_eq_of_lt (by omega)

/-- **What a copy and a clone are.** -/
theorem CopyOf.spec (hs : Sound (2 ^ 32) m) (hc : CopyOf L m c) :
    Compact m c ∧ Sound (2 ^ 32) c ∧
      getCameraMetadataCompactSize c = getCameraMetadataCompactSize m := by
  have hlt := hs.compact_lt
  obtain ⟨habs, hg, hsound, hdata⟩ : c.abs = m.abs ∧ Geometry c m.entryCount m.dataCount ∧
      Sound (2 ^ 32) c ∧ c.dataCount = m.dataCount := by
    rcases hc with ⟨src, dst, n, rfl, hcopy⟩ | hclone
    · cases dst with
      | none => cases hcopy
      | some dst =>
        rw [Blob.copy_decode dst hs.wf hlt] at hcopy
        obtain ⟨-, habs, hg, -⟩ := copy_spec hs.wf hlt hcopy
        refine ⟨habs, hg, hs.copy le_rfl hcopy, ?_⟩
        unfold copyCameraMetadata at hcopy
        split_ifs at hcopy
        split at hcopy
        · cases hcopy
        · obtain rfl := Option.some.inj hcopy
          rfl
    · obtain ⟨-, habs, hg, -⟩ := clone_spec hs.wf hlt hclone
      exact ⟨habs, hg, hs.clone le_rfl hclone, clone_dataCount hs hclone⟩
  have hcount : c.entryCount = m.entryCount := by
    unfold Metadata.entryCount
    rw [← length_abs, ← length_abs, habs]
  refine ⟨⟨habs, hg.entryCapacity.trans hcount.symm, hg.dataCapacity.trans hdata.symm, hg.size⟩,
    hsound, ?_⟩
  unfold getCameraMetadataCompactSize
  rw [hcount, hdata]

/-- **Blobs**: when a packet is copied, that the bytes of the copy are taken back with the same entries
and flags, that a clone has the same entries and order, and that copies of copies change nothing. -/
theorem blob_roundTrip (hmalloc : ∀ n, (L.malloc n).isSome) (h : Built L ops nonzero m) :
    (∀ src dst n, Blob.decode src = m → ((Blob.copyTo dst n src).isSome ↔
      dst.isSome ∧ getCameraMetadataCompactSize m ≤ n)) ∧
    (∀ src dst n blob addr, Blob.decode src = m → Blob.copyTo dst n src = some blob → 8 ∣ addr →
      ∃ buffer, Blob.allocateCopyCameraMetadataChecked L ops addr (some blob)
          (getCameraMetadataCompactSize m) = some buffer ∧
        (Blob.decode buffer).abs = m.abs ∧ (Blob.decode buffer).flags = m.flags) ∧
    (∃ c, cloneCameraMetadata L m = some c ∧ c.abs = m.abs ∧ c.isSorted = m.isSorted) ∧
    ∀ c, CopyOf L m c → Compact m c ∧
      ∀ c', CopyOf L c c' → c'.abs = c.abs ∧ c'.size = c.size := by
  have hvalid := h.valid32_of_nonzero
  have hs := hvalid.sound_valid32
  have hlt := hs.compact_lt
  refine ⟨?_, ?_, ?_, fun c hc => ?_⟩
  · rintro src dst n rfl
    exact Blob.copyTo_isSome_iff hs.wf hlt dst
  · rintro src dst n blob addr rfl hcopy ha
    cases dst with
    | none => cases hcopy
    | some dst =>
      have hdec := Blob.copy_decode (n := n) dst hs.wf hlt
      rw [hcopy, Option.map_some] at hdec
      obtain ⟨hw, habs, hg, hflags⟩ := copy_spec hs.wf hlt hdec.symm
      have hb : Built L ops valid32 (Blob.decode blob) := .copy hvalid hdec.symm
      obtain ⟨buffer, hbuf, hsame⟩ := Blob.allocateCopyChecked_decode ops hmalloc hw hg hlt
        hb.checked ha
      exact ⟨buffer, hbuf, by rw [hsame, habs], by rw [hsame, hflags]⟩
  · obtain ⟨c, hc⟩ := Option.isSome_iff_exists.mp (clone_isSome hlt (hmalloc _))
    obtain ⟨-, habs, -, hsorted⟩ := clone_spec hs.wf hlt hc
    exact ⟨c, hc, habs, hsorted⟩
  · obtain ⟨hcompact, hsc, hsize⟩ := hc.spec hs
    refine ⟨hcompact, fun c' hc' => ?_⟩
    obtain ⟨hcompact', -, -⟩ := hc'.spec hsc
    exact ⟨hcompact'.entries, by rw [hcompact'.size, hsize, hcompact.size]⟩

end Built

/-- The bytes of `descending`: the header and two records, all of them words. -/
def descendingBytes : Mem UInt8 := fun a =>
  (words 4 [72, 1, 0, 2, 2, 36, 0, 0, 72, controlAeMode, 1, 1, 0, controlAeAntibandingMode, 1, 3, 0])[a]?.getD
    0

theorem blob_roundTrip_descending : Blob.decode descendingBytes = descending ∧
    ∃ blob buffer, Blob.copyTo (some fun _ => 0) 72 descendingBytes = some blob ∧
      Blob.allocateCopyCameraMetadataChecked referenceLibc none 4096 (some blob) 72 = some buffer ∧
      (Blob.decode buffer).abs = descending.abs := by
  have hdec : Blob.decode descendingBytes = descending := by decide
  have hsize : getCameraMetadataCompactSize descending = 72 := by decide
  obtain ⟨hcopy, hchecked, -⟩ := blob_roundTrip (L := referenceLibc) (fun _ => rfl)
    (descending_built nonzero alloc_two)
  rw [hsize] at hcopy hchecked
  obtain ⟨blob, hblob⟩ := Option.isSome_iff_exists.mp
    ((hcopy _ (some fun _ => 0) 72 hdec).mpr ⟨rfl, le_rfl⟩)
  obtain ⟨buffer, hbuffer, habs, -⟩ := hchecked _ _ 72 blob 4096 hdec hblob (by norm_num)
  exact ⟨hdec, blob, buffer, hblob, hbuffer, habs⟩

end IntelCamera
