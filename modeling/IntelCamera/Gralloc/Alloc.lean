import IntelCamera.Lib.Machine
import Mathlib.Tactic.Linarith
import Mathlib.Tactic.Positivity

/-!
# Gralloc.Alloc — the size and the stride of a buffer (`gralloc.cpp`)

The byte size of a buffer passes through an `int` product, an `int` mask, a `size_t` product, the
rounding to pages and an `int` field of the handle.  `sizeField_enough_iff` says for which geometries
nothing is lost on the way that the buffer would need.

`ashmem_create_region`, `mmap`, `dup` and the answers of the framebuffer device are parameters.  The
out parameters of `gralloc_alloc` are not `NULL`.

Logging is left out, in `framebuffer.cpp` too.  There `LOG_TAG` is not defined, so that it is `NULL`, and a
message ends the process: what is said of `mapFrameBufferLocked` is said of a build that defines it.
-/

namespace IntelCamera

open Lib

namespace Gralloc

/-- The pixel formats `gralloc_alloc` supports. -/
inductive PixelFormat
  | rgba8888 | rgbx8888 | bgra8888 | rgb888 | rgb565 | raw16 | yCrCb420Sp | implementationDefined
  | yCbCr420888 | blob
deriving DecidableEq, Repr

/-- `HAL_PIXEL_FORMAT_*`. -/
def PixelFormat.code : PixelFormat → Int32
  | rgba8888 => 1
  | rgbx8888 => 2
  | rgb888 => 3
  | rgb565 => 4
  | bgra8888 => 5
  | yCrCb420Sp => 0x11
  | raw16 => 0x20
  | blob => 0x21
  | implementationDefined => 0x22
  | yCbCr420888 => 0x23

/-- The format with a given code. -/
def PixelFormat.ofCode (format : Int32) : Option PixelFormat :=
  [rgba8888, rgbx8888, bgra8888, rgb888, rgb565, raw16, yCrCb420Sp, implementationDefined,
    yCbCr420888, blob].find? fun f => f.code = format

/-- `bitsPerPixel`. -/
def PixelFormat.bitsPerPixel : PixelFormat → Int32
  | rgba8888 | rgbx8888 | bgra8888 => 32
  | rgb888 => 24
  | rgb565 | raw16 => 16
  | yCrCb420Sp | implementationDefined | yCbCr420888 => 12
  | blob => 8

/-- The (semi-)planar formats. -/
def PixelFormat.isPlanar : PixelFormat → Bool
  | yCrCb420Sp | implementationDefined | yCbCr420888 => true
  | _ => false

/-- `private_handle_t`, without the process id. -/
structure PrivateHandle where
  fd : Int32
  magic : Int32
  flags : Int32
  size : Int32
  offset : Int32
  width : Int32
  height : Int32
  stride : Int32
  halFormat : Int32
  usage : Int32
  base : UInt64
deriving DecidableEq, Repr

/-- The constructor of `private_handle_t`. -/
def PrivateHandle.new (fd size flags : Int32) : PrivateHandle :=
  ⟨fd, 0x3141592, flags, size, 0, 0, 0, 0, 0, 0, 0⟩

/-- `PRIV_FLAGS_FRAMEBUFFER`. -/
def privFlagsFramebuffer : Int32 := 1

/-- `GRALLOC_USAGE_HW_FB`. -/
def usageHwFb : Int32 := 0x1000

/-- `private_module_t`: the framebuffer and its buffers. -/
structure PrivateModule where
  framebuffer : Option PrivateHandle
  numBuffers : UInt32
  bufferMask : UInt32
  lineLength : UInt32
  yres : UInt32
deriving DecidableEq, Repr

/-- `bufferSize`: the product is that of `uint32_t`. -/
def PrivateModule.bufferSize (m : PrivateModule) : UInt64 := (m.lineLength * m.yres).toUInt64

/-- `fb_fix_screeninfo`, as far as it is used. -/
structure FixScreeninfo where
  smemLen : UInt32
  lineLength : UInt32
deriving DecidableEq, Repr

/-- `fb_var_screeninfo`, as far as it is used. -/
structure VarScreeninfo where
  yres : UInt32
  yresVirtual : UInt32
deriving DecidableEq, Repr

/-- What the framebuffer device answers while it is mapped: the descriptor, both infos before the
request for more screens and both after it, and the `-errno` that is left for a device without memory.
The request itself may fail. -/
structure FbDevice where
  openDevice : Except Int32 Int32
  fscreeninfo : Except Int32 FixScreeninfo
  vscreeninfo : Except Int32 VarScreeninfo
  vscreeninfoAfter : Except Int32 VarScreeninfo
  fscreeninfoAfter : Except Int32 FixScreeninfo
  noMemory : Int32

/-- What the allocator asks of the system; an error is a negative number. -/
structure System where
  ashmemCreateRegion : UInt64 → Except Int32 Int32
  mmap : UInt64 → Int32 → Except Int32 UInt64
  dup : Int32 → Int32
  fbDevice : FbDevice

/-- `PAGE_SIZE`. -/
def pageSize : UInt64 := 4096

/-- `roundUpToPageSize`. -/
def roundUpToPageSize (x : UInt64) : UInt64 := (x + (pageSize - 1)) &&& ~~~(pageSize - 1)

/-- The descriptor and the two infos that `mapFrameBufferLocked` ends up with. -/
def FbDevice.info (fb : FbDevice) : Except Int32 (Int32 × FixScreeninfo × VarScreeninfo) := do
  let fd ← fb.openDevice
  let _ ← fb.fscreeninfo
  let _ ← fb.vscreeninfo
  let info ← fb.vscreeninfoAfter
  let finfo ← fb.fscreeninfoAfter
  if finfo.smemLen = 0 then throw fb.noMemory
  return (fd, finfo, info)

variable (sys : System)

/-- `mapFrameBufferLocked`, without what only the display uses: the status and the module.  A mapping
that fails leaves a framebuffer without an address. -/
def mapFrameBufferLocked (m : PrivateModule) : Int32 × PrivateModule :=
  -- already initialized
  if m.framebuffer.isSome then (0, m) else
  match sys.fbDevice.info with
  | .error err => (err, m)
  | .ok (fd, finfo, info) =>
    let fbSize := roundUpToPageSize (finfo.lineLength * info.yresVirtual).toUInt64
    let framebuffer := PrivateHandle.new (sys.dup fd) (intT fbSize) 0
    let m : PrivateModule :=
      ⟨some framebuffer, info.yresVirtual / info.yres, 0, finfo.lineLength, info.yres⟩
    match sys.mmap fbSize fd with
    | .error err => (err, m)
    | .ok vaddr => (0, { m with framebuffer := some { framebuffer with base := vaddr } })

/-- `mapBuffer`. -/
def mapBuffer (hnd : PrivateHandle) : Except Int32 PrivateHandle :=
  if hnd.flags &&& privFlagsFramebuffer ≠ 0 then .ok hnd else
  match sys.mmap (sizeT hnd.size) hnd.fd with
  | .error err => .error err
  | .ok mappedAddress => .ok { hnd with base := mappedAddress + sizeT hnd.offset }

/-- `gralloc_alloc_buffer`. -/
def grallocAllocBuffer (size : UInt64) : Except Int32 PrivateHandle :=
  let size := roundUpToPageSize size
  match sys.ashmemCreateRegion size with
  | .error err => .error err
  | .ok fd => mapBuffer sys (.new fd (intT size) 0)

/-- The loop "find a free slot": the address reached and the mask. -/
def findFreeSlot (bufferMask : UInt32) (bufferSize : UInt64) :
    List ℕ → UInt64 → UInt64 × UInt32
  | [], vaddr => (vaddr, bufferMask)
  | i :: is, vaddr =>
    if bufferMask.toUInt64 &&& (1 <<< UInt64.ofNat i) = 0 then
      (vaddr, bufferMask ||| (1 <<< UInt64.ofNat i : UInt64).toUInt32)
    else findFreeSlot bufferMask bufferSize is (vaddr + bufferSize)

/-- `gralloc_alloc_framebuffer_locked`. -/
def grallocAllocFramebuffer (m : PrivateModule) (size : UInt64) :
    Except Int32 PrivateHandle × PrivateModule :=
  -- the framebuffer is mapped once and forever
  let mapped := match m.framebuffer with
    | none => mapFrameBufferLocked sys m
    | some _ => (0, m)
  if mapped.1 < 0 then (.error mapped.1, mapped.2) else
  let m := mapped.2
  let bufferSize := m.bufferSize
  -- a single buffer is never used for page-flipping: a regular buffer is returned
  if m.numBuffers = 1 then (grallocAllocBuffer sys bufferSize, m) else
  if m.bufferMask.toUInt64 ≥ (1 <<< m.numBuffers.toUInt64) - 1 then (.error (-12), m) else
  let framebuffer := m.framebuffer.getD (.new (-1) 0 0)
  let hnd := PrivateHandle.new (sys.dup framebuffer.fd) (intT size) privFlagsFramebuffer
  let slot := findFreeSlot m.bufferMask bufferSize (List.range m.numBuffers.toNat) framebuffer.base
  (.ok { hnd with base := slot.1, offset := intT (slot.1 - framebuffer.base) },
    { m with bufferMask := slot.2 })

/-- `bitsPerRow` of `gralloc_alloc`: the arithmetic is that of `int`. -/
def bitsPerRow (w bitsPerPixel : Int32) : UInt64 :=
  let align : Int32 := 4
  sizeT ((w * bitsPerPixel + (align - 1)) &&& ~~~(align - 1))

/-- `gralloc_alloc`: the handle and the stride, or an error. -/
def grallocAlloc (m : PrivateModule) (w h format usage : Int32) :
    Except Int32 (PrivateHandle × Int32) × PrivateModule :=
  match PixelFormat.ofCode format with
  | none => (.error (-22), m)
  | some f =>
    let bitsPerRow := bitsPerRow w f.bitsPerPixel
    let size := bitsPerRow * sizeT h / 8
    -- handle (semi-)planar format strides separately
    let stride := if f.isPlanar then sizeT w else bitsPerRow / sizeT f.bitsPerPixel
    let allocated := if usage &&& usageHwFb ≠ 0 then grallocAllocFramebuffer sys m size
      else (grallocAllocBuffer sys size, m)
    match allocated with
    | (.error err, m) => (.error err, m)
    | (.ok hnd, m) =>
      (.ok ({ hnd with
        width := w
        height := h
        stride := intT stride
        halFormat := format
        usage := usage }, intT stride), m)

/-! ### The arithmetic -/

theorem ofCode_code (f : PixelFormat) : PixelFormat.ofCode f.code = some f := by
  cases f <;> decide

/-- The mask of `bitsPerRow` changes nothing: every format has a multiple of four bits. -/
theorem bitsPerRow_eq (w : Int32) (f : PixelFormat) :
    bitsPerRow w f.bitsPerPixel = sizeT (w * f.bitsPerPixel) := by
  have h4 : (w * f.bitsPerPixel).toBitVec.toNat % 4 = 0 := by
    have hb : f.bitsPerPixel.toBitVec.toNat % 4 = 0 := by cases f <;> decide
    rw [Int32.toBitVec_mul, BitVec.toNat_mul]
    have hm : w.toBitVec.toNat * f.bitsPerPixel.toBitVec.toNat % 4 = 0 := by
      rw [Nat.mul_mod, hb, Nat.mul_zero, Nat.zero_mod]
    omega
  have hlt := (w * f.bitsPerPixel).toBitVec.isLt
  unfold bitsPerRow
  dsimp only
  congr 1
  apply Int32.toBitVec_inj.mp
  apply BitVec.eq_of_toNat_eq
  rw [Int32.toBitVec_and, BitVec.toNat_and, Int32.toBitVec_add, BitVec.toNat_add]
  have hmask : (~~~(4 - 1 : Int32)).toBitVec.toNat = 2 ^ 32 - 2 ^ 2 := by decide
  have hthree : (4 - 1 : Int32).toBitVec.toNat = 3 := by decide
  rw [hmask, hthree, and_highMask (by norm_num) (Nat.mod_lt _ (by norm_num))]
  omega

/-- The pages of a size that is not near the end of the address space. -/
theorem toNat_roundUpToPageSize {x : UInt64} (h : x.toNat < 2 ^ 63) :
    (roundUpToPageSize x).toNat = (x.toNat + 4095) / 4096 * 4096 := by
  have hmask : (~~~(pageSize - 1)).toNat = 2 ^ 64 - 2 ^ 12 := by decide
  have hsum : (x + (pageSize - 1)).toNat = x.toNat + 4095 := by
    rw [UInt64.toNat_add]
    show (x.toNat + 4095) % 2 ^ 64 = _
    omega
  unfold roundUpToPageSize
  rw [UInt64.toNat_and, hmask, hsum, and_highMask (by norm_num) (by omega)]
  rfl

/-- The number of bytes before the rounding, from what is left of the bits of a row. -/
theorem toNat_size (row h : Int32) :
    ((sizeT row * sizeT h / 8).toNat : ℤ) = row.toInt * h.toInt % 2 ^ 64 / 8 := by
  have h8 : (8 : UInt64).toNat = 8 := rfl
  rw [UInt64.toNat_div, UInt64.toNat_mul, h8]
  push_cast
  rw [toNat_sizeT, toNat_sizeT]
  simp only [Int.reducePow]
  rw [← Int.mul_emod]

/-- The size field of a buffer of `row * h` bits. -/
def sizeField (row h : ℤ) : ℤ :=
  ((row * h % 2 ^ 64 / 8 + 4095) / 4096 * 4096).bmod (2 ^ 32)

theorem toInt_size (row h : Int32) :
    (intT (roundUpToPageSize (sizeT row * sizeT h / 8))).toInt = sizeField row.toInt h.toInt := by
  have hs := toNat_size row h
  have hlt : (sizeT row * sizeT h / 8).toNat < 2 ^ 63 := by omega
  unfold sizeField
  rw [toInt_intT, toNat_roundUpToPageSize hlt, ← hs]
  push_cast
  rfl

/-- The geometries for which nothing is lost: the bits of a row fit in an `int`, the pages of the bytes
fit in the size field, and the bits beyond the last whole byte are not beyond the last page. -/
structure Fitting (w h b : ℤ) : Prop where
  row : w * b < 2 ^ 31
  size : w * h * b / 8 ≤ 2 ^ 31 - 4096
  tail : w * h * b % 8 = 0 ∨ w * h * b / 8 % 4096 ≠ 0

section Numbers

/-- A field that has wrapped holds less than what was stored. -/
theorem bmod_lt_of_pages {x : ℤ} (hx : 2 ^ 31 ≤ x) (hp : x % 4096 = 0) :
    x.bmod (2 ^ 32) ≤ x - 4096 := by
  rw [Int.bmod_def]
  push_cast
  split_ifs <;> omega

/-- Whole bytes in pages, seen through the field. -/
theorem pages_le_iff {n : ℤ} (h0 : 0 ≤ n) :
    n / 8 ≤ ((n / 8 + 4095) / 4096 * 4096).bmod (2 ^ 32) ↔ n / 8 ≤ 2 ^ 31 - 4096 := by
  by_cases hbig : n / 8 ≤ 2 ^ 31 - 4096
  · rw [bmod_of_fits ⟨by omega, by omega⟩]
    omega
  · have := bmod_lt_of_pages (x := (n / 8 + 4095) / 4096 * 4096) (by omega) (by omega)
    omega

/-- Bits in whole pages of bytes, seen through the field. -/
theorem pages_enough_iff {n : ℤ} (h0 : 0 ≤ n) :
    (n + 7) / 8 ≤ ((n / 8 + 4095) / 4096 * 4096).bmod (2 ^ 32) ↔
      n / 8 ≤ 2 ^ 31 - 4096 ∧ (n % 8 = 0 ∨ n / 8 % 4096 ≠ 0) := by
  by_cases hbig : n / 8 ≤ 2 ^ 31 - 4096
  · rw [bmod_of_fits ⟨by omega, by omega⟩]
    omega
  · have := bmod_lt_of_pages (x := (n / 8 + 4095) / 4096 * 4096) (by omega) (by omega)
    omega

variable {w h b : ℤ}

/-- The bits of a row fit in an `int`: the field holds the pages of the exact size, as far as it can. -/
theorem sizeField_of_row (hw : 1 ≤ w) (hh : 1 ≤ h) (hh' : h < 2 ^ 31) (hb : 1 ≤ b)
    (hrow : w * b < 2 ^ 31) : sizeField ((w * b).bmod (2 ^ 32)) h =
      ((w * h * b / 8 + 4095) / 4096 * 4096).bmod (2 ^ 32) := by
  have hmul : w * b * h = w * h * b := by ring
  have hpos : 0 ≤ w * h * b := by positivity
  have hpos' : 0 ≤ w * b := by positivity
  have hlt : w * h * b < 2 ^ 64 := by
    rw [← hmul]
    calc w * b * h ≤ 2 ^ 31 * h := mul_le_mul_of_nonneg_right hrow.le (by omega)
      _ < 2 ^ 64 := by omega
  rw [bmod_of_fits ⟨by omega, by omega⟩]
  unfold sizeField
  rw [hmul, Int.emod_eq_of_lt hpos hlt]

/-- The bits of a row do not fit: a few rows fill too little, many rows are more than the field can
hold. -/
theorem sizeField_small (hh : 1 ≤ h) (hrow : 2 ^ 31 ≤ w * b) :
    sizeField ((w * b).bmod (2 ^ 32)) h < w * h * b / 8 := by
  have hmul : w * b * h = w * h * b := by ring
  rw [← hmul]
  generalize w * b = p at *
  have hfield : sizeField (p.bmod (2 ^ 32)) h < 2 ^ 31 := Int.bmod_lt (by norm_num)
  by_cases h8 : 8 ≤ h
  · -- at least eight rows
    have : 2 ^ 31 * 8 ≤ p * h := mul_le_mul hrow h8 (by norm_num) (by omega)
    omega
  · have hr1 : p.bmod (2 ^ 32) < 2 ^ 31 := Int.bmod_lt (by norm_num)
    have hr2 : -2 ^ 31 ≤ p.bmod (2 ^ 32) := Int.le_bmod (by norm_num)
    have hfar : p.bmod (2 ^ 32) + 2 ^ 32 ≤ p := by
      rcases bmod_far (w := 32) (x := p) (fun hf => by have := hf.2; omega) with hf | hf
      · omega
      · exact hf
    generalize p.bmod (2 ^ 32) = r at *
    have hlo : -(2 ^ 31 * 7) ≤ r * h := by nlinarith
    have hhi : r * h < 2 ^ 31 * 7 := by nlinarith
    -- what is left of a row is at least `2 ^ 32` bits short
    have hshort : r * h + 2 ^ 32 ≤ p * h := by nlinarith
    have hneed : 2 ^ 31 ≤ p * h := by nlinarith
    have hle : sizeField r h ≤ max 0 (r * h / 8 + 4095) := by
      unfold sizeField
      generalize r * h = n at *
      rcases le_or_gt 0 n with h0 | h0
      · rw [Int.emod_eq_of_lt h0 (by omega), bmod_of_fits ⟨by omega, by omega⟩]
        omega
      · rw [Int.bmod_def]
        push_cast
        split_ifs <;> omega
    omega

/-- **When the size field is enough**, for every geometry. -/
theorem sizeField_enough_iff (hw : 1 ≤ w) (hh : 1 ≤ h) (hh' : h < 2 ^ 31) (hb : 1 ≤ b) :
    (w * h * b + 7) / 8 ≤ sizeField ((w * b).bmod (2 ^ 32)) h ↔ Fitting w h b := by
  by_cases hrow : w * b < 2 ^ 31
  · rw [sizeField_of_row hw hh hh' hb hrow, pages_enough_iff (by positivity)]
    exact ⟨fun h => ⟨hrow, h.1, h.2⟩, fun h => ⟨h.size, h.tail⟩⟩
  · have := sizeField_small (w := w) (b := b) hh (by omega)
    exact iff_of_false (by omega) fun hf => hrow hf.row

/-- The same for the whole bytes only. -/
theorem le_sizeField_iff (hw : 1 ≤ w) (hh : 1 ≤ h) (hh' : h < 2 ^ 31) (hb : 1 ≤ b) :
    w * h * b / 8 ≤ sizeField ((w * b).bmod (2 ^ 32)) h ↔
      w * b < 2 ^ 31 ∧ w * h * b / 8 ≤ 2 ^ 31 - 4096 := by
  by_cases hrow : w * b < 2 ^ 31
  · rw [sizeField_of_row hw hh hh' hb hrow, pages_le_iff (by positivity)]
    exact ⟨fun h => ⟨hrow, h⟩, fun h => h.2⟩
  · have := sizeField_small (w := w) (b := b) hh (by omega)
    exact iff_of_false (by omega) fun hf => hrow hf.1

end Numbers

/-! ### The allocation -/

/-- The stride of the other formats is the width, if the bits of a row fit in an `int`. -/
theorem stride_eq {w b : Int32} (hw : 1 ≤ w.toInt) (hb : 1 ≤ b.toInt)
    (hrow : w.toInt * b.toInt < 2 ^ 31) : sizeT (w * b) / sizeT b = sizeT w := by
  have hpos : 0 ≤ w.toInt * b.toInt := by positivity
  have hmul : (w * b).toInt = w.toInt * b.toInt := by
    rw [Int32.toInt_mul]
    exact bmod_of_fits ⟨by omega, by omega⟩
  have hw' := w.toInt_lt
  have hb' := b.toInt_lt
  apply UInt64.toNat_inj.mp
  apply Int.natCast_inj.mp
  rw [UInt64.toNat_div]
  push_cast
  rw [toNat_sizeT, toNat_sizeT, toNat_sizeT, hmul, Int.emod_eq_of_lt hpos (by omega),
    Int.emod_eq_of_lt (by omega) (by omega), Int.emod_eq_of_lt (by omega) (by omega),
    Int.mul_ediv_cancel _ (by omega)]

/-- What a buffer of the given size and stride is good for. -/
structure LargeEnough (w h b size stride : ℤ) : Prop where
  size_ge : (w * h * b + 7) / 8 ≤ size
  stride_ge : w ≤ stride
  rows_ge : (stride * h * b + 7) / 8 ≤ size

/-- The stride as `gralloc_alloc` computes it. -/
def strideOf (w : Int32) (f : PixelFormat) : UInt64 :=
  if f.isPlanar then sizeT w else sizeT (w * f.bitsPerPixel) / sizeT f.bitsPerPixel

section Alloc

variable {sys : System} (hashmem : ∀ n, ∃ fd, sys.ashmemCreateRegion n = .ok fd)
  (hmmap : ∀ n fd, ∃ base, sys.mmap n fd = .ok base)

include hashmem hmmap

theorem grallocAllocBuffer_ok (size : UInt64) : ∃ hnd, grallocAllocBuffer sys size = .ok hnd ∧
    hnd.size = intT (roundUpToPageSize size) := by
  obtain ⟨fd, hfd⟩ := hashmem (roundUpToPageSize size)
  obtain ⟨base, hbase⟩ := hmmap (sizeT (intT (roundUpToPageSize size))) fd
  have hflags : (PrivateHandle.new fd (intT (roundUpToPageSize size)) 0).flags &&&
      privFlagsFramebuffer = 0 := by
    show (0 : Int32) &&& privFlagsFramebuffer = 0
    decide
  refine ⟨{ PrivateHandle.new fd (intT (roundUpToPageSize size)) 0 with
    base := base + sizeT 0 }, ?_, rfl⟩
  unfold grallocAllocBuffer mapBuffer
  dsimp only
  rw [hfd]
  dsimp only
  rw [if_neg (not_not.mpr hflags)]
  show (match sys.mmap (sizeT (intT (roundUpToPageSize size))) fd with
    | .error err => Except.error err
    | .ok mappedAddress => .ok _) = _
  rw [hbase]
  rfl

/-- The size field and the stride of a buffer that is not one of the framebuffer. -/
theorem grallocAlloc_ok (m : PrivateModule) (w h : Int32) {usage : Int32}
    (hu : usage &&& usageHwFb = 0) (f : PixelFormat) :
    ∃ hnd, grallocAlloc sys m w h f.code usage = (.ok (hnd, intT (strideOf w f)), m) ∧
      hnd.size.toInt = sizeField ((w.toInt * f.bitsPerPixel.toInt).bmod (2 ^ 32)) h.toInt := by
  obtain ⟨hnd, halloc, hsize⟩ := grallocAllocBuffer_ok hashmem hmmap
    (sizeT (w * f.bitsPerPixel) * sizeT h / 8)
  refine ⟨{ hnd with
    width := w
    height := h
    stride := intT (strideOf w f)
    halFormat := f.code
    usage := usage }, ?_, ?_⟩
  · unfold grallocAlloc
    rw [ofCode_code]
    dsimp only
    rw [bitsPerRow_eq, if_neg (not_not.mpr hu), halloc]
    rfl
  · rw [hsize, toInt_size, Int32.toInt_mul]

/-- **A buffer is large enough exactly if the geometry fits.** -/
theorem grallocAlloc_largeEnough_iff (m : PrivateModule) {w h usage : Int32} (hw : 1 ≤ w.toInt)
    (hh : 1 ≤ h.toInt) (hu : usage &&& usageHwFb = 0) (f : PixelFormat) :
    ∃ hnd stride, grallocAlloc sys m w h f.code usage = (.ok (hnd, stride), m) ∧
      (LargeEnough w.toInt h.toInt f.bitsPerPixel.toInt hnd.size.toInt stride.toInt ↔
        Fitting w.toInt h.toInt f.bitsPerPixel.toInt) := by
  have hb : 1 ≤ f.bitsPerPixel.toInt := by cases f <;> decide
  obtain ⟨hnd, halloc, hfield⟩ := grallocAlloc_ok hashmem hmmap m w h hu f
  have hiff := sizeField_enough_iff hw hh h.toInt_lt hb
  refine ⟨hnd, intT (strideOf w f), halloc, ?_⟩
  rw [hfield]
  constructor
  · intro he
    exact hiff.mp he.size_ge
  · intro hf
    -- the stride is the width for every format
    have hstride : strideOf w f = sizeT w := by
      unfold strideOf
      split_ifs
      · rfl
      · exact stride_eq hw hb hf.row
    rw [hstride, intT_sizeT]
    exact ⟨hiff.mpr hf, le_rfl, hiff.mpr hf⟩

end Alloc

/-- A system in which every region can be created and mapped. -/
def demoSystem : System where
  ashmemCreateRegion _ := .ok 3
  mmap _ _ := .ok 0x7f0000000000
  dup fd := fd
  fbDevice := ⟨.ok 5, .ok ⟨64, 16⟩, .ok ⟨2, 2⟩, .ok ⟨2, 4⟩, .ok ⟨64, 16⟩, -5⟩

theorem demo_ashmem (n : UInt64) : ∃ fd, demoSystem.ashmemCreateRegion n = .ok fd := ⟨_, rfl⟩

theorem demo_mmap (n : UInt64) (fd : Int32) : ∃ base, demoSystem.mmap n fd = .ok base := ⟨_, rfl⟩

/-- A frame of 1920 by 1080 in NV12. -/
theorem grallocAlloc_largeEnough_demo : Fitting 1920 1080 12 ∧
    ∃ hnd stride, grallocAlloc demoSystem ⟨none, 0, 0, 0, 0⟩ 1920 1080 0x22 0 =
        (.ok (hnd, stride), ⟨none, 0, 0, 0, 0⟩) ∧
      LargeEnough 1920 1080 12 hnd.size.toInt stride.toInt := by
  have hf : Fitting 1920 1080 12 := ⟨by norm_num, by norm_num, by norm_num⟩
  have hw : 1 ≤ (1920 : Int32).toInt := by decide
  have hh : 1 ≤ (1080 : Int32).toInt := by decide
  have hu : (0 : Int32) &&& usageHwFb = 0 := by decide
  obtain ⟨hnd, stride, h, hiff⟩ := grallocAlloc_largeEnough_iff demo_ashmem demo_mmap
    ⟨none, 0, 0, 0, 0⟩ hw hh hu .implementationDefined
  exact ⟨hf, hnd, stride, h, hiff.mpr hf⟩

/-- 16384 by 32768 pixels of four bytes are `2 ^ 31` bytes, which the field holds as a negative
number. -/
theorem grallocAlloc_not_largeEnough : ¬ ∀ (sys : System), (∀ n, ∃ fd, sys.ashmemCreateRegion n = .ok fd) →
    (∀ n fd, ∃ base, sys.mmap n fd = .ok base) → ∀ (m m' : PrivateModule) (w h usage stride : Int32)
      (f : PixelFormat) (hnd : PrivateHandle), 1 ≤ w.toInt → 1 ≤ h.toInt → usage &&& usageHwFb = 0 →
      grallocAlloc sys m w h f.code usage = (.ok (hnd, stride), m') →
      LargeEnough w.toInt h.toInt f.bitsPerPixel.toInt hnd.size.toInt stride.toInt := by
  intro hall
  have h := (hall demoSystem demo_ashmem demo_mmap ⟨none, 0, 0, 0, 0⟩ _ 16384 32768 0 _ .rgba8888 _
    (by decide) (by decide) (by decide) rfl).size_ge
  exact absurd h (by decide)

end Gralloc

end IntelCamera
