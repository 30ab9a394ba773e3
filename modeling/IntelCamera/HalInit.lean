import IntelCamera.Parameters

/-!
# HalInit — the stream configurations of `camera_hal_init`

`camera_hal_init` reads the stream configurations of every camera from its static metadata, keeps
the NV12 outputs, writes them as one entry of a scratch packet, clones that packet and merges the
clone into the camera's static `Parameters` object.  `Parameters::getSupportedStreamConfig` reads the
entry back.  The writer puts down eight integers for a stream and the reader takes four, so the
reader sees every stream followed by an empty one.
-/

namespace IntelCamera

open Lib

/-- `HAL_PIXEL_FORMAT_YCbCr_420_888`. -/
def halPixelFormatYCbCr420888 : Int32 := 0x23

/-- `CAMERA3_STREAM_OUTPUT`. -/
def camera3StreamOutput : Int32 := 0

/-- What `camera_hal_init` asks the HAL module for. -/
structure HalModule where
  staticCameraCharacteristics : Fin 2 → Option Metadata
  vendorTagOps : Option VendorTagOps

/-- The static variables behind `camera_hal_init`, and the packets. -/
structure HalState where
  initDone : Bool := false
  vendorOps : Option VendorTagOps := none
  heap : Heap := .empty
  sParameters : Fin 2 → Parameters := fun _ => {}

/-- The loop that figures out suitable stream configs. -/
def streamConfigVec (availStreamConfig : List UInt8) (count : ℕ) : List Int32 :=
  (List.range ((count + 3) / 4)).flatMap fun k =>
    if i32At availStreamConfig (4 * k) = halPixelFormatYCbCr420888 ∧
        i32At availStreamConfig (4 * k + 3) = camera3StreamOutput then
      [v4l2PixFmtNv12, i32At availStreamConfig (4 * k + 1), i32At availStreamConfig (4 * k + 2), 0,
        0, 0, 0, 0]
    else []

/-- A packet put on the heap, with its address; a null packet has none. -/
def putPacket (h : Heap) : Option Metadata → Heap × Option ℕ
  | none => (h, none)
  | some m => (h.alloc m, some h.next)

/-- `free_camera_metadata`. -/
def freeCameraMetadata (h : Heap) : Option ℕ → Heap
  | none => h
  | some p => h.free p

/-- The scratch packet with the one entry `configs`; the status of the add is not looked at. -/
def configPacket (L : Libc) (ops : Option VendorTagOps) (configs : List Int32) : Option Metadata :=
  (allocateCameraMetadata L 20 32768).map fun m =>
    (addCameraMetadataEntry ops m scalerAvailableStreamConfigurations (some (i32Bytes configs))
      configs.length).2

/-- Write `configs` into the `Parameters` object of a camera. -/
def publishConfigs (L : Libc) (s : HalState) (cameraId : Fin 2) (configs : List Int32) : HalState :=
  let scratch := putPacket s.heap (configPacket L s.vendorOps configs)
  let cloned := CameraMetadata.empty.assign L scratch.1 scratch.2
  let merged := (s.sParameters cameraId).merge L s.vendorOps cloned.1 (some cloned.2)
  let freed := freeCameraMetadata merged.1 scratch.2
  { s with
    heap := (merged.2.2.getD .empty).destroy freed
    sParameters := Function.update s.sParameters cameraId merged.2.1 }

/-- One round of the loop of `camera_hal_init`. -/
def initCamera (L : Libc) (hal : HalModule) (s : HalState) (cameraId : Fin 2) : Status × HalState :=
  match hal.staticCameraCharacteristics cameraId with
  | none => (.unknownError, s)
  | some staticMeta =>
    match findCameraMetadataEntry L staticMeta scalerAvailableStreamConfigurations with
    | none => (.unknownError, s)
    | some entry =>
      let count := Int32.ofNat entry.count
      if count < 4 then (.unknownError, s) else
      let configs := streamConfigVec entry.data count.toUInt32.toNat
      if configs.length = 0 then (.unknownError, s) else
      (.ok, publishConfigs L s cameraId configs)

/-- The loop of `camera_hal_init`. -/
def initCameras (L : Libc) (hal : HalModule) : HalState → List (Fin 2) → Status × HalState
  | s, [] => (.ok, s)
  | s, cameraId :: rest =>
    match initCamera L hal s cameraId with
    | (.ok, s) => initCameras L hal s rest
    | refused => refused

/-- `camera_hal_init`. -/
def cameraHalInit (L : Libc) (hal : HalModule) (s : HalState) : Status × HalState :=
  if s.initDone then (.ok, s) else
  let s := if hal.vendorTagOps.isSome then { s with vendorOps := hal.vendorTagOps } else s
  match initCameras L hal s [0, 1] with
  | (.ok, s) => (.ok, { s with initDone := true })
  | refused => refused

/-- The state after `n` calls. -/
def afterInits (L : Libc) (hal : HalModule) : ℕ → HalState
  | 0 => {}
  | n + 1 => (cameraHalInit L hal (afterInits L hal n)).2

/-! ### The tuples of the static metadata -/

/-- One stream configuration of the static metadata. -/
structure StreamTuple where
  format : Int32
  width : Int32
  height : Int32
  direction : Int32
deriving DecidableEq, Repr

/-- An NV12 output. -/
def StreamTuple.isNv12Output (t : StreamTuple) : Bool :=
  t.format = halPixelFormatYCbCr420888 ∧ t.direction = camera3StreamOutput

/-- The array of a list of tuples. -/
def encodeTuples (l : List StreamTuple) : List Int32 :=
  l.flatMap fun t => [t.format, t.width, t.height, t.direction]

/-- The eight integers written for an output. -/
def configRecord (t : StreamTuple) : List Int32 := [v4l2PixFmtNv12, t.width, t.height, 0, 0, 0, 0, 0]

/-- The static metadata of a camera lists the tuples `l`. -/
def Advertises (L : Libc) (hal : HalModule) (cameraId : Fin 2) (l : List StreamTuple) : Prop :=
  ∃ m e, hal.staticCameraCharacteristics cameraId = some m ∧ WF m ∧
    findCameraMetadataEntry L m scalerAvailableStreamConfigurations = some e ∧
    e.count = 4 * l.length ∧ e.data = i32Bytes (encodeTuples l)

/-- Whenever a call of `camera_hal_init` returns `OK`, every camera reports the NV12 outputs it
advertises: these, in this order, and no others. -/
def RoundTrip (L : Libc) (hal : HalModule) (configs : Fin 2 → List StreamTuple) : Prop :=
  ∀ n, (cameraHalInit L hal (afterInits L hal n)).1 = .ok → ∀ cameraId,
    let s := (cameraHalInit L hal (afterInits L hal n)).2
    let r := (s.sParameters cameraId).getSupportedStreamConfig L s.heap
    r.1 = .ok ∧ r.2.map (fun t => (t.format, t.width, t.height, t.field)) =
      ((configs cameraId).filter StreamTuple.isNv12Output).map fun t =>
        (v4l2PixFmtNv12, t.width, t.height, 0)

/-! ### The scan -/

theorem flatMap_range {α β : Type*} {l : List α} {f : ℕ → List β} {g : α → List β}
    (h : ∀ k x, l[k]? = some x → f k = g x) : (List.range l.length).flatMap f = l.flatMap g := by
  rw [List.flatMap_def, List.flatMap_def]
  congr 1
  apply List.ext_getElem
  · simp
  · intro k h1 h2
    have hk : k < l.length := by simpa using h2
    simp [h k l[k] (List.getElem?_eq_getElem hk)]

theorem encodeTuples_get {l : List StreamTuple} {k : ℕ} {t : StreamTuple} (h : l[k]? = some t) :
    (encodeTuples l)[4 * k]? = some t.format ∧ (encodeTuples l)[4 * k + 1]? = some t.width ∧
      (encodeTuples l)[4 * k + 2]? = some t.height ∧
      (encodeTuples l)[4 * k + 3]? = some t.direction := by
  induction l generalizing k with
  | nil => simp at h
  | cons u l ih =>
    cases k with
    | zero =>
      obtain rfl : u = t := by simpa using h
      simp [encodeTuples]
    | succ k =>
      rw [List.getElem?_cons_succ] at h
      -- the tuple `u` takes four places
      have hshift : ∀ j, (encodeTuples (u :: l))[4 * (k + 1) + j]? = (encodeTuples l)[4 * k + j]? := by
        intro j
        rw [show 4 * (k + 1) + j = 4 * k + j + 1 + 1 + 1 + 1 by omega]
        rfl
      obtain ⟨h0, h1, h2, h3⟩ := ih h
      exact ⟨(hshift 0).trans h0, (hshift 1).trans h1, (hshift 2).trans h2, (hshift 3).trans h3⟩

/-- **The scan keeps the NV12 outputs, in order.** -/
theorem streamConfigVec_encode (l : List StreamTuple) :
    streamConfigVec (i32Bytes (encodeTuples l)) (4 * l.length) =
      (l.filter StreamTuple.isNv12Output).flatMap configRecord := by
  have hlen : (4 * l.length + 3) / 4 = l.length := by omega
  unfold streamConfigVec
  rw [hlen, flatMap_range (g := fun t => if t.isNv12Output then configRecord t else [])]
  · induction l with
    | nil => rfl
    | cons t l ih =>
      have := ih (by omega)
      by_cases ht : t.isNv12Output = true
      · simp [ht, this]
      · simp [ht, this]
  · intro k t ht
    obtain ⟨h0, h1, h2, h3⟩ := encodeTuples_get ht
    rw [i32At_i32Bytes h0, i32At_i32Bytes h1, i32At_i32Bytes h2, i32At_i32Bytes h3]
    simp [StreamTuple.isNv12Output, configRecord]

theorem length_records (l : List StreamTuple) : (l.flatMap configRecord).length = 8 * l.length := by
  induction l with
  | nil => rfl
  | cons t l ih =>
    simp only [List.flatMap_cons, List.length_append, ih, configRecord, List.length_cons,
      List.length_nil]
    omega

/-! ### The packets between the scan and the reader

Every packet on the way is empty (an allocation or an add was refused) or holds the one entry of the
scan. -/

/-- The entry of the scan. -/
def configEntry (configs : List Int32) : TypedEntry :=
  ⟨scalerAvailableStreamConfigurations, MetaType.int32.code, i32Bytes configs⟩

/-- A sound packet that holds nothing but the entry of the scan. -/
structure Carries (bound : ℕ) (configs : List Int32) (m : Metadata) : Prop where
  sound : Sound bound m
  abs : m.abs = [] ∨ m.abs = [configEntry configs]

section Stages

variable {L : Libc} {ops : Option VendorTagOps} {B : ℕ} {configs : List Int32} {m : Metadata}

theorem tagType_configs (ops : Option VendorTagOps) :
    getCameraMetadataTagType ops scalerAvailableStreamConfigurations = some .int32 := by
  cases ops with
  | none => decide
  | some o => rfl

/-- An entry read from such a packet is the entry of the scan. -/
theorem Carries.get (h : Carries B configs m) {i : ℕ} {e : MetadataEntry}
    (he : getCameraMetadataEntry m i = some e) :
    e.tag = scalerAvailableStreamConfigurations ∧ e.type = MetaType.int32.code ∧
      e.data = i32Bytes configs ∧ e.count = configs.length := by
  have hg := get_spec m i
  rw [he, Option.map_some] at hg
  unfold getCameraMetadataEntry at he
  obtain ⟨x, hx, rfl⟩ := Option.map_eq_some_iff.mp he
  have hlen := h.sound.wf.length_payload (List.mem_of_getElem? hx)
  rcases h.abs with ha | ha
  · rw [ha] at hg
    simp at hg
  · rw [ha, List.getElem?_singleton] at hg
    split_ifs at hg
    obtain ⟨h1, h2, h3⟩ := TypedEntry.mk.inj (Option.some.inj hg)
    refine ⟨h1, h2, h3, ?_⟩
    dsimp only at h1 h2 h3 ⊢
    rw [h3, h2, length_i32Bytes] at hlen
    simp only [cameraMetadataTypeSize, MetaType.code, List.getElem?_cons_succ,
      List.getElem?_cons_zero, Option.getD_some] at hlen
    omega

/-- An add onto an empty packet. -/
theorem Carries.add (ops : Option VendorTagOps) (configs : List Int32) (h : Sound B m)
    (ha : m.abs = []) :
    Carries B configs (addCameraMetadataEntry ops m scalerAvailableStreamConfigurations
      (some (i32Bytes configs)) configs.length).2 := by
  have hd : configs.length * cameraMetadataTypeSize MetaType.int32.code =
      (i32Bytes configs).length := by
    rw [length_i32Bytes]
    simp only [cameraMetadataTypeSize, MetaType.code, List.getElem?_cons_succ,
      List.getElem?_cons_zero, Option.getD_some]
    omega
  refine ⟨h.add fun t ht => ?_, ?_⟩
  · rw [tagType_configs] at ht
    obtain rfl := Option.some.inj ht
    exact hd.le
  · by_cases hok : (addCameraMetadataEntry ops m scalerAvailableStreamConfigurations
        (some (i32Bytes configs)) configs.length).1 = .ok
    · right
      rw [h.add_abs (tagType_configs ops) hd.le hok, ha, hd, List.take_length]
      rfl
    · left
      rw [add_refused hok, ha]

theorem configPacket_carries (hm : configPacket L ops configs = some m) :
    Carries (2 ^ 16) configs m := by
  unfold configPacket at hm
  obtain ⟨m₀, hm₀, rfl⟩ := Option.map_eq_some_iff.mp hm
  obtain ⟨h1, h2, h3, -⟩ := allocate_spec (by decide) hm₀
  exact Carries.add _ _ ⟨h1, _, _, h3, by decide⟩ h2

theorem Carries.clone (hB : B ≤ 2 ^ 32) (h : Carries B configs m) {c : Metadata}
    (hc : cloneCameraMetadata L m = some c) : Carries B configs c := by
  have hlt := h.sound.compact_lt
  refine ⟨h.sound.clone hB hc, ?_⟩
  rw [(clone_spec h.sound.wf (by omega) hc).2.1]
  exact h.abs

/-- The size of the scan's entry is that of a packet that holds it. -/
theorem Carries.dataSize_lt (h : Carries B configs m) {i : ℕ} {e : MetadataEntry}
    (he : getCameraMetadataEntry m i = some e) :
    calculateCameraMetadataEntryDataSize MetaType.int32.code configs.length < B := by
  obtain ⟨-, ht, -, hc⟩ := h.get he
  unfold getCameraMetadataEntry at he
  obtain ⟨x, hx, rfl⟩ := Option.map_eq_some_iff.mp he
  have hle := h.sound.wf.dataSize_le hx
  have hlt := h.sound.counts_lt
  unfold BufferEntry.dataSize at hle
  dsimp only at ht hc
  rw [ht, hc] at hle
  omega

/-- The update that a merge makes on an object without a packet. -/
theorem update_empty {buffer : ℕ} (h : Heap)
    (hsz : calculateCameraMetadataEntryDataSize MetaType.int32.code configs.length < 2 ^ 16) :
    let r := CameraMetadata.empty.update L ops h scalerAvailableStreamConfigurations .int32
      (some buffer) (i32Bytes configs) configs.length
    (r.2.1 = h ∧ r.2.2 = .empty) ∨
      ∃ m, r.2.1 = h.alloc m ∧ r.2.2 = ⟨some h.next, false⟩ ∧ Carries (2 ^ 18) configs m := by
  intro r
  have hr : r = CameraMetadata.updateImpl L ops h .empty scalerAvailableStreamConfigurations
      (some buffer) (i32Bytes configs) configs.length := by
    simp [r, CameraMetadata.update, CameraMetadata.checkType, tagType_configs, CameraMetadata.empty]
  set ds := calculateCameraMetadataEntryDataSize MetaType.int32.code configs.length with hds
  cases ha : allocateCameraMetadata L (1 * 2) (ds * 2) with
  | none =>
    left
    rw [hr]
    simp [CameraMetadata.updateImpl, CameraMetadata.empty, tagType_configs,
      CameraMetadata.resizeIfNeeded, ← hds, ha]
  | some m₀ =>
    right
    have hu : u32 (ds * 2) = ds * 2 := Nat.mod_eq_of_lt (by omega)
    have hsize : calculateCameraMetadataSize (u32 (1 * 2)) (u32 (ds * 2)) < 2 ^ 18 := by
      rw [hu, calculateSize_eq]
      have : alignTo (36 + 16 * u32 (1 * 2)) 8 = 72 := by decide
      omega
    obtain ⟨h1, h2, h3, -⟩ := allocate_spec (by omega) ha
    refine ⟨(addCameraMetadataEntry ops m₀ scalerAvailableStreamConfigurations
      (some (i32Bytes configs)) configs.length).2, ?_, ?_, Carries.add _ _ ⟨h1, _, _, h3, hsize⟩ h2⟩
    · rw [hr]
      simp [CameraMetadata.updateImpl, CameraMetadata.empty, tagType_configs,
        CameraMetadata.resizeIfNeeded, ← hds, ha, CameraMetadata.packet, CameraMetadata.store,
        find_nil h2]
    · rw [hr]
      simp [CameraMetadata.updateImpl, CameraMetadata.empty, tagType_configs,
        CameraMetadata.resizeIfNeeded, ← hds, ha, CameraMetadata.packet]

/-- The merge of such a packet into an object without one. -/
theorem merge_carries (L : Libc) (ops : Option VendorTagOps) {p : Parameters} {h : Heap} {q : ℕ}
    (hp : p.mMetadata = .empty) (hq : h.get q = some m) (hm : Carries (2 ^ 16) configs m) :
    let r := p.merge L ops h (some ⟨some q, false⟩)
    ((r.1 = h ∧ r.2.1.mMetadata = .empty) ∨
      ∃ m', r.1 = h.alloc m' ∧ r.2.1.mMetadata = ⟨some h.next, false⟩ ∧
        Carries (2 ^ 18) configs m') ∧ r.2.2 = some ⟨some q, false⟩ := by
  intro r
  have hpk : (⟨some q, false⟩ : CameraMetadata).packet h = some m := by
    simp [CameraMetadata.packet, hq]
  have hcount : (⟨some q, false⟩ : CameraMetadata).entryCount h = m.entries.length := by
    simp [CameraMetadata.entryCount, hpk, Metadata.entryCount]
  by_cases h0 : m.entries.length = 0
  · have hr : r = (h, p, some ⟨some q, false⟩) := by
      simp [r, Parameters.merge, CameraMetadata.isEmpty, hcount, h0]
    rw [hr]
    exact ⟨Or.inl ⟨rfl, hp⟩, rfl⟩
  · have h1 : m.entries.length = 1 := by
      rcases hm.abs with ha | ha
      · exact absurd (by rw [← length_abs, ha]; rfl) h0
      · rw [← length_abs, ha]
        rfl
    obtain ⟨e, he⟩ : ∃ e, getCameraMetadataEntry m 0 = some e := by
      unfold getCameraMetadataEntry
      rw [List.getElem?_eq_getElem (by omega)]
      exact ⟨_, rfl⟩
    obtain ⟨htag, htype, hdata, hcnt⟩ := hm.get he
    have hr : r = ((CameraMetadata.empty.update L ops h scalerAvailableStreamConfigurations .int32
        (some q) (i32Bytes configs) configs.length).2.1, { p with mMetadata :=
        (CameraMetadata.empty.update L ops h scalerAvailableStreamConfigurations .int32
          (some q) (i32Bytes configs) configs.length).2.2 }, some ⟨some q, false⟩) := by
      simp [r, Parameters.merge, CameraMetadata.isEmpty, hcount, h1, hpk, Parameters.mergeEntry, he,
        htag, htype, hdata, hcnt, hp, MetaType.ofCode, MetaType.code, CameraMetadata.unlock,
        CameraMetadata.getAndLock]
    rw [hr]
    exact ⟨update_empty h (hm.dataSize_lt he), rfl⟩

/-- **The packet published for a camera** carries the scan, if there is one. -/
theorem publish_carries {s : HalState} {cameraId : Fin 2}
    (hp : (s.sParameters cameraId).mMetadata = .empty) :
    ∀ m, ((publishConfigs L s cameraId configs).sParameters cameraId).mMetadata.packet
      (publishConfigs L s cameraId configs).heap = some m → Carries (2 ^ 18) configs m := by
  intro m
  unfold publishConfigs
  simp only [Function.update_self]
  cases hc : configPacket L s.vendorOps configs with
  | none =>
    simp [putPacket, CameraMetadata.assign, CameraMetadata.empty, Parameters.merge,
      CameraMetadata.isEmpty, CameraMetadata.entryCount, CameraMetadata.packet, hp]
  | some m₁ =>
    have h1 := configPacket_carries hc
    cases hcl : cloneCameraMetadata L m₁ with
    | none =>
      simp [putPacket, CameraMetadata.assign, CameraMetadata.empty, Parameters.merge,
        CameraMetadata.clonePacket, hcl, CameraMetadata.clear,
        CameraMetadata.isEmpty, CameraMetadata.entryCount, CameraMetadata.packet, hp]
    | some c =>
      have h2 := h1.clone (by norm_num) hcl
      have has : CameraMetadata.empty.assign L (s.heap.alloc m₁) (some s.heap.next) =
          ((s.heap.alloc m₁).alloc c, ⟨some (s.heap.alloc m₁).next, false⟩) := by
        simp [CameraMetadata.assign, CameraMetadata.empty, CameraMetadata.clonePacket, hcl,
          CameraMetadata.clear]
      obtain ⟨hr, hr2⟩ := merge_carries L s.vendorOps hp
        (Store.get_alloc_next (s := s.heap.alloc m₁) (a := c)) h2
      simp only [putPacket, has, freeCameraMetadata]
      rw [hr2]
      rcases hr with ⟨-, he⟩ | ⟨m', hh, he, hcar⟩
      · rw [he]
        simp [CameraMetadata.packet, CameraMetadata.empty]
      · rw [he, hh]
        intro hm
        simp only [CameraMetadata.destroy, CameraMetadata.clear, CameraMetadata.packet,
          Option.getD_some, Option.bind_some, Bool.false_eq_true, if_false] at hm
        rw [Store.get_free_ne (by simp), Store.get_free_ne (by simp; omega),
          Store.get_alloc_next] at hm
        obtain rfl := Option.some.inj hm
        exact hcar

/-- What the reader makes of a packet that carries `configs`: a stream for every four integers. -/
theorem streams_length {p : Parameters} {h : Heap}
    (hm : ∀ m, p.mMetadata.packet h = some m → Carries B configs m)
    (hok : (p.getSupportedStreamConfig L h).1 = .ok) :
    (p.getSupportedStreamConfig L h).2.length = configs.length / 4 := by
  unfold Parameters.getSupportedStreamConfig CameraMetadata.find at hok ⊢
  cases hpk : p.mMetadata.packet h with
  | none => simp [hpk] at hok
  | some m =>
    rw [hpk] at hok
    simp only [Option.bind_some] at hok ⊢
    cases hf : findCameraMetadataEntry L m scalerAvailableStreamConfigurations with
    | none => simp [hf] at hok
    | some e =>
      obtain ⟨-, -, -, hcnt⟩ := (hm m hpk).get (find_spec hf).1
      rw [hf] at hok
      dsimp only at hok ⊢
      split_ifs at hok ⊢
      simp [hcnt, streamMemberNum]

end Stages

/-! ### The round trip -/

section RoundTrip

variable {L : Libc} {hal : HalModule} {cameraId : Fin 2} {l : List StreamTuple}

theorem length_encodeTuples (l : List StreamTuple) : (encodeTuples l).length = 4 * l.length := by
  induction l with
  | nil => rfl
  | cons t l ih =>
    simp only [encodeTuples, List.flatMap_cons, List.length_append, List.length_cons,
      List.length_nil] at ih ⊢
    omega

/-- The array of a packet has fewer than `2 ^ 30` integers. -/
theorem count_lt {m : Metadata} {e : MetadataEntry} {i : ℕ} (hw : WF m)
    (he : getCameraMetadataEntry m i = some e) (hd : e.data = i32Bytes (encodeTuples l)) :
    4 * l.length < 2 ^ 30 := by
  unfold getCameraMetadataEntry at he
  obtain ⟨x, hx, rfl⟩ := Option.map_eq_some_iff.mp he
  have hmem := List.mem_of_getElem? hx
  have hlen := hw.length_payload hmem
  have hcap := hw.dataCapacity_lt
  have hle := hw.dataCount_le
  dsimp only at hd
  rw [hd, length_i32Bytes, length_encodeTuples] at hlen
  by_cases hs : 0 < x.dataSize
  · have h1 := (hw.payload_eq_slice hmem hs).2
    have h2 := hw.region_le hmem hs
    omega
  · have := (entryDataSize_eq_zero (hw.entry x hmem).type_lt).mp (Nat.eq_zero_of_not_pos hs)
    omega

/-- **One round of the loop** either refuses the camera, when it has no NV12 output, or publishes
the records of these outputs. -/
theorem initCamera_eq (ha : Advertises L hal cameraId l) (s : HalState) :
    initCamera L hal s cameraId =
      if l.filter StreamTuple.isNv12Output = [] then (.unknownError, s) else
      (.ok, publishConfigs L s cameraId
        ((l.filter StreamTuple.isNv12Output).flatMap configRecord)) := by
  obtain ⟨m, e, hm, hw, hf, hc, hd⟩ := ha
  have hlt := count_lt hw (find_spec hf).1 hd
  have h4 : Int32.ofNat (4 * l.length) < 4 ↔ l.length = 0 := by
    have := Int32.ofNat_lt_iff_lt (a := 4 * l.length) (b := 4) (by omega) (by omega)
    rw [show (4 : Int32) = Int32.ofNat 4 from rfl, this]
    omega
  have hu : (Int32.ofNat (4 * l.length)).toUInt32.toNat = 4 * l.length := by
    rw [Int32.toUInt32_ofNat', UInt32.toNat_ofNat_of_lt' (by simp [UInt32.size]; omega)]
  unfold initCamera
  rw [hm]
  dsimp only
  rw [hf]
  dsimp only
  rw [hc, hu, hd, streamConfigVec_encode, length_records]
  by_cases h0 : l.length = 0
  · rw [if_pos (h4.mpr h0), List.length_eq_zero_iff.mp h0]
    simp
  · rw [if_neg (mt h4.mp h0)]
    by_cases hk : l.filter StreamTuple.isNv12Output = []
    · simp [hk]
    · have hk' : ¬ 8 * (l.filter StreamTuple.isNv12Output).length = 0 := by
        have := mt List.length_eq_zero_iff.mp hk
        omega
      rw [if_neg hk', if_neg hk]

theorem publish_other {s : HalState} {i j : Fin 2} (h : i ≠ j) (configs : List Int32) :
    (publishConfigs L s i configs).sParameters j = s.sParameters j := by
  unfold publishConfigs
  simp [Function.update_of_ne (Ne.symm h)]

variable {configs : Fin 2 → List StreamTuple}

/-- With an output on every camera the first call returns `OK`, and the second camera reports two
streams for each of its outputs. -/
theorem init_doubles (ha : ∀ i, Advertises L hal i (configs i))
    (hk : ∀ i, (configs i).filter StreamTuple.isNv12Output ≠ []) :
    (cameraHalInit L hal {}).1 = .ok ∧
      let s := (cameraHalInit L hal {}).2
      let r := (s.sParameters 1).getSupportedStreamConfig L s.heap
      r.1 = .ok → r.2.length = 2 * ((configs 1).filter StreamTuple.isNv12Output).length := by
  set s₀ : HalState := if hal.vendorTagOps.isSome then { vendorOps := hal.vendorTagOps } else {}
    with hs₀
  set s₁ := publishConfigs L s₀ 0
    (((configs 0).filter StreamTuple.isNv12Output).flatMap configRecord) with hs₁
  set s₂ := publishConfigs L s₁ 1
    (((configs 1).filter StreamTuple.isNv12Output).flatMap configRecord) with hs₂
  have hp : (s₁.sParameters 1).mMetadata = .empty := by
    rw [hs₁, publish_other (by decide), hs₀]
    split_ifs <;> rfl
  have hinit : cameraHalInit L hal {} = (.ok, { s₂ with initDone := true }) := by
    have h0 := initCamera_eq (ha 0) s₀
    have h1 := initCamera_eq (ha 1) s₁
    rw [if_neg (hk 0)] at h0
    rw [if_neg (hk 1)] at h1
    unfold cameraHalInit
    rw [if_neg (by simp)]
    dsimp only
    rw [← hs₀]
    simp [initCameras, h0, ← hs₁, h1, ← hs₂]
  rw [hinit]
  refine ⟨rfl, fun hok => ?_⟩
  have := streams_length (publish_carries hp) hok
  rw [this, length_records]
  omega

/-- A camera without an output makes every call fail, and no call ever completes. -/
theorem init_refused (ha : ∀ i, Advertises L hal i (configs i)) {i : Fin 2}
    (hi : (configs i).filter StreamTuple.isNv12Output = []) {s : HalState}
    (hs : s.initDone = false) :
    (cameraHalInit L hal s).1 ≠ .ok ∧ (cameraHalInit L hal s).2.initDone = false := by
  set s₀ : HalState := if hal.vendorTagOps.isSome then { s with vendorOps := hal.vendorTagOps } else s
    with hs₀
  have hd₀ : s₀.initDone = false := by
    rw [hs₀]
    split_ifs <;> exact hs
  have hrun : (initCameras L hal s₀ [0, 1]).1 = .unknownError ∧
      (initCameras L hal s₀ [0, 1]).2.initDone = false := by
    have h0 := initCamera_eq (ha 0) s₀
    by_cases hk : (configs 0).filter StreamTuple.isNv12Output = []
    · rw [if_pos hk] at h0
      simp [initCameras, h0, hd₀]
    · have hi1 : (configs 1).filter StreamTuple.isNv12Output = [] := by
        match i, hi with
        | 0, hi => exact absurd hi hk
        | 1, hi => exact hi
      rw [if_neg hk] at h0
      have h1 := initCamera_eq (ha 1) (publishConfigs L s₀ 0
        (((configs 0).filter StreamTuple.isNv12Output).flatMap configRecord))
      rw [if_pos hi1] at h1
      simp only [initCameras, h0, h1]
      exact ⟨trivial, hd₀⟩
  unfold cameraHalInit
  rw [if_neg (by simp [hs])]
  dsimp only
  rw [← hs₀]
  obtain ⟨h1, h2⟩ := hrun
  cases hr : initCameras L hal s₀ [0, 1] with
  | mk st s' =>
    rw [hr] at h1 h2
    simp only at h1 h2
    subst h1
    exact ⟨by simp, h2⟩

theorem not_roundTrip (ha : ∀ i, Advertises L hal i (configs i))
    (hk : ∀ i, (configs i).filter StreamTuple.isNv12Output ≠ []) : ¬ RoundTrip L hal configs := by
  intro h
  obtain ⟨hok, hlen⟩ := init_doubles ha hk
  have hr := h 0 hok 1
  have hlen' := congrArg List.length hr.2
  rw [List.length_map, List.length_map] at hlen'
  have hpos := mt List.length_eq_zero_iff.mp (hk 1)
  have := hlen hr.1
  simp only [afterInits] at hlen' this
  omega

theorem roundTrip_of_refused (ha : ∀ i, Advertises L hal i (configs i)) {i : Fin 2}
    (hi : (configs i).filter StreamTuple.isNv12Output = []) : RoundTrip L hal configs := by
  have hn : ∀ n, (afterInits L hal n).initDone = false := by
    intro n
    induction n with
    | zero => rfl
    | succ n ih => exact (init_refused ha hi ih).2
  intro n hok
  exact absurd hok (init_refused ha hi (hn n)).1

/-- **The stream configurations survive only where nothing is published**: the round trip holds
exactly when some camera has no NV12 output, so that no call returns `OK`. -/
theorem roundTrip_iff (ha : ∀ i, Advertises L hal i (configs i)) :
    RoundTrip L hal configs ↔ ∃ i, (configs i).filter StreamTuple.isNv12Output = [] := by
  constructor
  · intro h
    by_contra hk
    exact not_roundTrip ha (not_exists.mp hk) h
  · rintro ⟨i, hi⟩
    exact roundTrip_of_refused ha hi

/-- One output of 640 by 480. -/
def vgaOutput : StreamTuple := ⟨halPixelFormatYCbCr420888, 640, 480, camera3StreamOutput⟩

/-- Static metadata that advertises `vgaOutput`. -/
def vgaMetadata : Metadata :=
  ((allocateCameraMetadata referenceLibc 1 16).map fun m =>
    (addCameraMetadataEntry none m scalerAvailableStreamConfigurations
      (some (i32Bytes (encodeTuples [vgaOutput]))) 4).2).getD ⟨0, 0, 0, 0, 0, 0, 0, 0, [], []⟩

/-- Two cameras of this kind. -/
def vgaModule : HalModule := ⟨fun _ => some vgaMetadata, none⟩

theorem vgaMetadata_wf : WF vgaMetadata := by
  obtain ⟨m, hm⟩ := Option.isSome_iff_exists.mp (allocate_isSome (L := referenceLibc) 1 16 rfl)
  obtain ⟨h1, h2, h3, -⟩ := allocate_spec (by decide) hm
  have hs : Sound (2 ^ 16) m := ⟨h1, _, _, h3, by decide⟩
  have := (Carries.add none (encodeTuples [vgaOutput]) hs h2).sound.wf
  unfold vgaMetadata
  rw [hm]
  exact this

theorem vgaModule_advertises (i : Fin 2) : Advertises referenceLibc vgaModule i [vgaOutput] :=
  ⟨vgaMetadata, ⟨0, scalerAvailableStreamConfigurations, 1, 4, i32Bytes (encodeTuples [vgaOutput])⟩,
    rfl, vgaMetadata_wf, by decide, rfl, rfl⟩

theorem roundTrip_iff_vga :
    (∀ i, Advertises referenceLibc vgaModule i [vgaOutput]) ∧
      (RoundTrip referenceLibc vgaModule (fun _ => [vgaOutput]) ↔
        ∃ _ : Fin 2, [vgaOutput].filter StreamTuple.isNv12Output = []) :=
  ⟨vgaModule_advertises, roundTrip_iff vgaModule_advertises⟩

/-- The reader returns two streams for the one output. -/
theorem vga_not_roundTrip : (∀ i, Advertises referenceLibc vgaModule i [vgaOutput]) ∧
    ¬ RoundTrip referenceLibc vgaModule fun _ => [vgaOutput] :=
  ⟨vgaModule_advertises, not_roundTrip vgaModule_advertises fun _ => by decide⟩

end RoundTrip

end IntelCamera
