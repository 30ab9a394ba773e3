import IntelCamera.Adapter.Mapping
import IntelCamera.Gralloc.Tracking

/-!
# Adapter.Geometry — the size of an NV12 frame (`ICameraAdapter.cpp`)

The size of a frame is computed in four places: `get_frame_size`, the streams of
`getSupportedStreamConfig`, the mapping of a client's DMA buffer in `mapMemory`, and the gralloc
buffer behind `allocateMemory`.  `configStreams` announces the stream to the HAL and rounds the height
of a DMA stream up to a multiple of 16; `mapMemory` does not see this rounding, so a mapping is too
short for every other height (`agrees_iff`).

The products are those of `int`, which wrap.
-/

namespace IntelCamera

open Lib

/-! ### The code -/

/-- `get_frame_size`: the bits per pixel and the size. -/
def getFrameSize (_format width height _field : Int32) : Int32 × Int32 := (12, width * height * 3 / 2)

/-- The gralloc buffer that `allocateMemory` has allocated: `GraphicBuffer` goes through
`GraphicBufferAllocator::alloc` to the device. -/
def CameraAdapter.allocateGraphicBuffer (sys : Gralloc.System) (m : Gralloc.PrivateModule)
    (buffer : CameraBuffer) :
    Except Int32 (Gralloc.PrivateHandle × Int32) × Gralloc.PrivateModule :=
  let request := Gralloc.requested buffer.width.toUInt32 buffer.height.toUInt32
    Gralloc.PixelFormat.yCbCr420888.code (UInt32.ofNat grallocUsageHwComposer) 0
  Gralloc.grallocAlloc sys m request.width.toInt32 request.height.toInt32 request.format
    request.usage.toInt32

/-- `mStream` after `configStreams` with one stream of this geometry and memory type. -/
def announced (c : CameraAdapter) (w h memType : Int32) (status : Status) : Camera3Stream :=
  (c.configStreams (some ⟨1, w, h, memType⟩) status).2.1.mStream

/-- The size of a frame of the stream. -/
def Camera3Stream.frameSize (s : Camera3Stream) : ℤ := s.width.toNat * s.height.toNat * 3 / 2

/-! ### The arithmetic -/

section Numbers

variable {w h : Int32}

/-- `width * height * 3 / 2` in `int`s. -/
theorem toInt_frame (w h : Int32) :
    (w * h * 3 / 2).toInt = ((w.toInt * h.toInt * 3).bmod (2 ^ 32)).tdiv 2 := by
  have h2 : (2 : Int32).toInt = 2 := rfl
  have h3 : (3 : Int32).toInt = 3 := rfl
  rw [Int32.toInt_div_of_ne_right _ _ (by decide), Int32.toInt_mul, Int32.toInt_mul, h2, h3,
    Int.bmod_mul_bmod]

/-- The product fits in an `int`: the size is exact, also as a `size_t`. -/
theorem frame_of_lt (hw : 1 ≤ w.toInt) (hh : 1 ≤ h.toInt) (hlt : w.toInt * h.toInt * 3 < 2 ^ 31) :
    (w * h * 3 / 2).toInt = w.toInt * h.toInt * 3 / 2 ∧
      ((sizeT (w * h * 3 / 2)).toNat : ℤ) = w.toInt * h.toInt * 3 / 2 := by
  have hpos : 0 ≤ w.toInt * h.toInt * 3 := by positivity
  have hint : (w * h * 3 / 2).toInt = w.toInt * h.toInt * 3 / 2 := by
    rw [toInt_frame, bmod_of_fits ⟨by omega, by omega⟩, Int.tdiv_eq_ediv_of_nonneg hpos]
  refine ⟨hint, ?_⟩
  rw [toNat_sizeT, hint]
  omega

/-- It does not: the `int` and the `size_t` differ, or both are zero. -/
theorem frame_of_ge (hge : 2 ^ 31 ≤ w.toInt * h.toInt * 3)
    (hfits : w.toInt * h.toInt * 3 / 2 < 2 ^ 31)
    (heq : ((sizeT (w * h * 3 / 2)).toNat : ℤ) = (w * h * 3 / 2).toInt) :
    (sizeT (w * h * 3 / 2)).toNat = 0 ∧ w.toInt * h.toInt * 3 / 2 = 2 ^ 31 - 1 := by
  have hint : (w * h * 3 / 2).toInt = -((2 ^ 32 - w.toInt * h.toInt * 3) / 2) := by
    have hwrap : (w.toInt * h.toInt * 3).bmod (2 ^ 32) = -(2 ^ 32 - w.toInt * h.toInt * 3) := by
      rw [Int.bmod_def]
      push_cast
      split_ifs <;> omega
    rw [toInt_frame, hwrap, Int.neg_tdiv, Int.tdiv_eq_ediv_of_nonneg (by omega)]
  have hsize := toNat_sizeT (w * h * 3 / 2)
  omega

/-- `ALIGN16` on what is left of a positive `int`. -/
theorem toNat_align16 {x : UInt32} (hx : x.toNat < 2 ^ 31) :
    (CameraAdapter.align16 x).toNat = (x.toNat + 15) / 16 * 16 := by
  have hmask : (~~~(15 : UInt32)).toNat = 2 ^ 32 - 2 ^ 4 := by decide
  have hsum : (x + 15).toNat = x.toNat + 15 := by
    rw [UInt32.toNat_add]
    show (x.toNat + 15) % 2 ^ 32 = _
    omega
  unfold CameraAdapter.align16
  rw [UInt32.toNat_and, hmask, hsum, and_highMask (by norm_num) (by omega)]
  rfl

theorem toNat_toUInt32 {x : Int32} (hx : 1 ≤ x.toInt) : (x.toUInt32.toNat : ℤ) = x.toInt := by
  have hbits : x.toInt = (x.toUInt32.toNat : ℤ).bmod (2 ^ 32) := BitVec.toInt_eq_toNat_bmod _
  have hlt := x.toUInt32.toNat_lt
  rw [Int.bmod_def] at hbits
  push_cast at hbits
  split_ifs at hbits
  · omega
  · omega

end Numbers

/-! ### The stream -/

section Stream

variable {w h : Int32} (hw : 1 ≤ w.toInt) (hh : 1 ≤ h.toInt)

include hw hh

omit hw in
/-- The announced height. -/
theorem announced_height (c : CameraAdapter) (status : Status) (memType : Int32) :
    ((announced c w h memType status).height.toNat : ℤ) =
      if memType = v4l2MemoryDmabuf ∧ h.toInt % 16 ≠ 0 then (h.toInt + 15) / 16 * 16 else h.toInt := by
  have hn := toNat_toUInt32 hh
  have hlt := h.toInt_lt
  have hmod : h.toUInt32 % 16 ≠ 0 ↔ h.toInt % 16 ≠ 0 := by
    rw [Ne, ← UInt32.toNat_inj, UInt32.toNat_mod]
    show ¬ h.toUInt32.toNat % 16 = 0 ↔ _
    omega
  show ((if decide (memType = v4l2MemoryDmabuf) = true ∧ h.toUInt32 % 16 ≠ 0 then
    CameraAdapter.align16 h.toUInt32 else h.toUInt32).toNat : ℤ) = _
  simp only [decide_eq_true_eq, hmod]
  split_ifs
  · have halign := toNat_align16 (show h.toUInt32.toNat < 2 ^ 31 by omega)
    omega
  · exact hn

omit hh in
/-- The frames of the announced stream. -/
theorem announced_frameSize (c : CameraAdapter) (status : Status) (memType : Int32) :
    (announced c w h memType status).frameSize = w.toInt * (announced c w h memType status).height.toNat *
      3 / 2 := by
  have hn := toNat_toUInt32 hw
  show (w.toUInt32.toNat : ℤ) * _ * 3 / 2 = _
  rw [hn]

/-- A DMA stream of a height that is a multiple of 16, and every other stream, has the frames of its
geometry. -/
theorem announced_exact (c : CameraAdapter) (status : Status) {memType : Int32}
    (hmem : memType = v4l2MemoryDmabuf → h.toInt % 16 = 0) :
    (announced c w h memType status).frameSize = w.toInt * h.toInt * 3 / 2 := by
  rw [announced_frameSize hw, announced_height hh, if_neg]
  rintro ⟨hd, hne⟩
  exact hne (hmem hd)

/-- A DMA stream of another height has larger ones. -/
theorem announced_larger (c : CameraAdapter) (status : Status) (hne : h.toInt % 16 ≠ 0) :
    w.toInt * h.toInt * 3 / 2 < (announced c w h v4l2MemoryDmabuf status).frameSize := by
  rw [announced_frameSize hw, announced_height hh, if_pos ⟨rfl, hne⟩]
  have hrow : w.toInt * h.toInt * 3 + 2 ≤ w.toInt * ((h.toInt + 15) / 16 * 16) * 3 := by
    have hup : h.toInt + 1 ≤ (h.toInt + 15) / 16 * 16 := by omega
    nlinarith
  omega

/-- Every announced frame is at least as large as one of the geometry. -/
theorem announced_ge (c : CameraAdapter) (status : Status) (memType : Int32) :
    w.toInt * h.toInt * 3 / 2 ≤ (announced c w h memType status).frameSize := by
  by_cases hmem : memType = v4l2MemoryDmabuf ∧ h.toInt % 16 ≠ 0
  · obtain ⟨rfl, hne⟩ := hmem
    exact (announced_larger hw hh c status hne).le
  · rw [announced_exact hw hh c status fun hd => not_not.mp fun hne => hmem ⟨hd, hne⟩]

end Stream

/-! ### Agreement -/

/-- The four sizes agree with the announced stream, for a geometry and a memory type. -/
structure Agrees (sys : Gralloc.System) (m : Gralloc.PrivateModule) (c : CameraAdapter)
    (status : Status) (w h memType : Int32) : Prop where
  dmabuf : memType = v4l2MemoryDmabuf → ∀ b : CameraBuffer, b.width = w → b.height = h →
    (announced c w h memType status).frameSize ≤ (Adapter.mapFdArgs b).size.toNat
  other : memType ≠ v4l2MemoryDmabuf → ∀ b : CameraBuffer, b.width = w → b.height = h →
    ∀ hnd stride m', CameraAdapter.allocateGraphicBuffer sys m b = (.ok (hnd, stride), m') →
      (announced c w h memType status).frameSize ≤ hnd.size.toInt
  mapped : ∀ b : CameraBuffer, b.width = w → b.height = h → ∀ format field,
    ((Adapter.mapFdArgs b).size.toNat : ℤ) = (getFrameSize format w h field).2.toInt
  configured : ∀ (L : Libc) (heap : Heap) (p : Parameters),
    ∀ s ∈ (p.getSupportedStreamConfig L heap).2, s.width = w → s.height = h → ∀ format field,
      s.size = (getFrameSize format w h field).2

/-- Every stream of the configuration has the size of its own geometry. -/
theorem size_of_mem_config {L : Libc} {heap : Heap} {p : Parameters} {s : Stream}
    (h : s ∈ (p.getSupportedStreamConfig L heap).2) : s.size = s.width * s.height * 3 / 2 := by
  unfold Parameters.getSupportedStreamConfig at h
  split at h
  · cases h
  · split_ifs at h
    · cases h
    · obtain ⟨k, -, rfl⟩ := List.mem_map.mp h
      rfl

/-- The usage bits of the gralloc buffer. -/
def allocatedUsage : Int32 := (UInt32.ofNat grallocUsageHwComposer &&& Gralloc.usageAllocMask).toInt32

/-- A geometry reaches the device as it is. -/
theorem allocateGraphicBuffer_eq (sys : Gralloc.System) (m : Gralloc.PrivateModule) {b : CameraBuffer}
    (hw : 1 ≤ b.width.toInt) (hh : 1 ≤ b.height.toInt) :
    CameraAdapter.allocateGraphicBuffer sys m b = Gralloc.grallocAlloc sys m b.width b.height
      Gralloc.PixelFormat.yCbCr420888.code allocatedUsage := by
  have hne : ∀ x : Int32, 1 ≤ x.toInt → x.toUInt32 ≠ 0 := by
    intro x hx h
    have hn := toNat_toUInt32 hx
    rw [h] at hn
    exact absurd hx (by rw [← hn]; decide)
  have hempty : ¬ (b.width.toUInt32 = 0 ∨ b.height.toUInt32 = 0) := by
    rintro (h | h)
    · exact hne _ hw h
    · exact hne _ hh h
  unfold CameraAdapter.allocateGraphicBuffer Gralloc.requested
  dsimp only
  rw [if_neg hempty, if_neg hempty, Int32.toInt32_toUInt32, Int32.toInt32_toUInt32]
  rfl

section Agreement

variable {sys : Gralloc.System} (hashmem : ∀ n, ∃ fd, sys.ashmemCreateRegion n = .ok fd)
  (hmmap : ∀ n fd, ∃ base, sys.mmap n fd = .ok base)

include hashmem hmmap

/-- The buffer behind `allocateMemory` has a frame of its geometry exactly if the bits of a row fit in
an `int` and the pages in the size field. -/
theorem allocateGraphicBuffer_ok (m : Gralloc.PrivateModule) {b : CameraBuffer}
    (hw : 1 ≤ b.width.toInt) (hh : 1 ≤ b.height.toInt) :
    ∃ hnd stride, CameraAdapter.allocateGraphicBuffer sys m b = (.ok (hnd, stride), m) ∧
      (b.width.toInt * b.height.toInt * 3 / 2 ≤ hnd.size.toInt ↔ b.width.toInt * 12 < 2 ^ 31 ∧
        b.width.toInt * b.height.toInt * 3 / 2 ≤ 2 ^ 31 - 4096) := by
  have husage : allocatedUsage &&& Gralloc.usageHwFb = 0 := by decide
  obtain ⟨hnd, halloc, hsize⟩ := Gralloc.grallocAlloc_ok hashmem hmmap m b.width b.height husage
    .yCbCr420888
  rw [allocateGraphicBuffer_eq sys m hw hh]
  refine ⟨hnd, _, halloc, ?_⟩
  have h12 : Gralloc.PixelFormat.yCbCr420888.bitsPerPixel.toInt = 12 := by decide
  have hiff := Gralloc.le_sizeField_iff hw hh b.height.toInt_lt (show 1 ≤ (12 : ℤ) by norm_num)
  have hbytes : b.width.toInt * b.height.toInt * 12 / 8 = b.width.toInt * b.height.toInt * 3 / 2 := by
    omega
  rw [hbytes] at hiff
  rw [hsize, h12]
  exact hiff

section Sizes

variable {m : Gralloc.PrivateModule} {c : CameraAdapter} {status : Status} {w h memType : Int32}
  (hw : 1 ≤ w.toInt) (hh : 1 ≤ h.toInt)

include hw hh

/-- The gralloc buffer is large enough. -/
theorem Agrees.allocated (ha : Agrees sys m c status w h memType) (hne : memType ≠ v4l2MemoryDmabuf) :
    w.toInt * 12 < 2 ^ 31 ∧ w.toInt * h.toInt * 3 / 2 ≤ 2 ^ 31 - 4096 := by
  let b : CameraBuffer := ⟨v4l2PixFmtNv12, w, h, 0, 0, 1, 0⟩
  obtain ⟨hnd, stride, halloc, hiff⟩ := allocateGraphicBuffer_ok hashmem hmmap m (b := b) hw hh
  have hge := announced_ge hw hh c status memType
  exact hiff.mp (hge.trans (ha.other hne b rfl rfl hnd stride m halloc))

/-- The product before the division fits in an `int`: a size that has wrapped is another one as a
`size_t`, or it is zero. -/
theorem Agrees.product_lt (ha : Agrees sys m c status w h memType)
    (hfits : w.toInt * h.toInt * 3 / 2 < 2 ^ 31) : w.toInt * h.toInt * 3 < 2 ^ 31 := by
  let b : CameraBuffer := ⟨v4l2PixFmtNv12, w, h, 0, 0, 1, 0⟩
  by_contra hbig
  obtain ⟨hzero, hlast⟩ := frame_of_ge (by omega) hfits (ha.mapped b rfl rfl 0 0)
  by_cases hd : memType = v4l2MemoryDmabuf
  · have hge := announced_ge hw hh c status memType
    have hcover := ha.dmabuf hd b rfl rfl
    have hsize : (Adapter.mapFdArgs b).size.toNat = 0 := hzero
    omega
  · have hbytes := (ha.allocated hashmem hmmap hw hh hd).2
    omega

omit hashmem hmmap in
/-- The height of a DMA stream needs no rounding. -/
theorem Agrees.multiple (ha : Agrees sys m c status w h v4l2MemoryDmabuf)
    (hlt : w.toInt * h.toInt * 3 < 2 ^ 31) : h.toInt % 16 = 0 := by
  let b : CameraBuffer := ⟨v4l2PixFmtNv12, w, h, 0, 0, 1, 0⟩
  by_contra hne
  have hcover := ha.dmabuf rfl b rfl rfl
  have hlarger := announced_larger hw hh c status hne
  have hsize : ((Adapter.mapFdArgs b).size.toNat : ℤ) = w.toInt * h.toInt * 3 / 2 :=
    (frame_of_lt hw hh hlt).2
  omega

/-- Under these three conditions all sizes agree. -/
theorem Agrees.of_fits (hlt : w.toInt * h.toInt * 3 < 2 ^ 31)
    (hdma : memType = v4l2MemoryDmabuf → h.toInt % 16 = 0)
    (hrow : memType ≠ v4l2MemoryDmabuf → w.toInt * 12 < 2 ^ 31) :
    Agrees sys m c status w h memType := by
  obtain ⟨hint, hsize⟩ := frame_of_lt hw hh hlt
  have hexact := announced_exact hw hh c status hdma
  refine ⟨?_, ?_, ?_, ?_⟩
  · rintro - b rfl rfl
    rw [hexact, ← hsize]
    exact le_rfl
  · rintro hne b rfl rfl hnd stride m' halloc
    obtain ⟨hnd', stride', halloc', hiff⟩ := allocateGraphicBuffer_ok hashmem hmmap m hw hh
    rw [halloc'] at halloc
    cases halloc
    rw [hexact]
    exact hiff.mpr ⟨hrow hne, by omega⟩
  · rintro b rfl rfl format field
    exact hsize.trans hint.symm
  · rintro L heap p s hs rfl rfl format field
    exact size_of_mem_config hs

end Sizes

/-- **When the sizes agree**, for every geometry whose frame fits in an `int`. -/
theorem agrees_iff (m : Gralloc.PrivateModule) (c : CameraAdapter) (status : Status)
    {w h : Int32} (memType : Int32) (hw : 1 ≤ w.toInt) (hh : 1 ≤ h.toInt)
    (hfits : w.toInt * h.toInt * 3 / 2 < 2 ^ 31) :
    Agrees sys m c status w h memType ↔ w.toInt * h.toInt * 3 < 2 ^ 31 ∧
      (memType = v4l2MemoryDmabuf → h.toInt % 16 = 0) ∧
      (memType ≠ v4l2MemoryDmabuf → w.toInt * 12 < 2 ^ 31) := by
  constructor
  · intro ha
    have hlt := ha.product_lt hashmem hmmap hw hh hfits
    refine ⟨hlt, ?_, ?_⟩
    · rintro rfl
      exact ha.multiple hw hh hlt
    · intro hne
      exact (ha.allocated hashmem hmmap hw hh hne).1
  · rintro ⟨hlt, hdma, hrow⟩
    exact Agrees.of_fits hashmem hmmap hw hh hlt hdma hrow

end Agreement

/-- A camera whose adapter has a single buffer. -/
def demoCamera : CameraAdapter := { client := fun _ => ⟨v4l2PixFmtNv12, 0, 0, 0, 0, 0, 0⟩, mDevice := 0 }

/-- 1280 by 720, in DMA buffers. -/
theorem agrees_demo : Agrees Gralloc.demoSystem ⟨none, 0, 0, 0, 0⟩ demoCamera .ok 1280 720
    v4l2MemoryDmabuf :=
  (agrees_iff Gralloc.demo_ashmem Gralloc.demo_mmap ⟨none, 0, 0, 0, 0⟩ demoCamera .ok v4l2MemoryDmabuf
    (by decide) (by decide) (by decide)).mpr ⟨by decide, by decide, by decide⟩

/-- 1920 by 1080, in DMA buffers: the stream has 1088 rows, the mapping 1080. -/
theorem not_agrees : ¬ ∀ (sys : Gralloc.System) (m : Gralloc.PrivateModule) (c : CameraAdapter)
    (status : Status) (w h memType : Int32), (∀ n, ∃ fd, sys.ashmemCreateRegion n = .ok fd) →
    (∀ n fd, ∃ base, sys.mmap n fd = .ok base) → 1 ≤ w.toInt → 1 ≤ h.toInt →
    w.toInt * h.toInt * 3 / 2 < 2 ^ 31 → Agrees sys m c status w h memType := by
  intro hall
  have h := (hall Gralloc.demoSystem ⟨none, 0, 0, 0, 0⟩ demoCamera .ok 1920 1080 v4l2MemoryDmabuf
    Gralloc.demo_ashmem Gralloc.demo_mmap (by decide) (by decide) (by decide)).dmabuf rfl
    ⟨v4l2PixFmtNv12, 1920, 1080, 0, 0, 1, 0⟩ rfl rfl
  exact absurd h (by decide)

end IntelCamera
