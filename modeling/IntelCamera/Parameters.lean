import IntelCamera.CameraMetadata

/-!
# Parameters — the parameter object of the icamera API (`Parameters.cpp`)

A `Parameters` object keeps six values of its own and a `CameraMetadata`.  The read-write lock of the
class is not modelled: every method runs under it from start to end.
-/

namespace IntelCamera

open Lib

/-- `camera_ae_mode_t`. -/
inductive CameraAeMode
  | auto | manual
deriving DecidableEq, Repr

/-- `camera_antibanding_mode_t`. -/
inductive CameraAntibandingMode
  | auto | hz50 | hz60 | off
deriving DecidableEq, Repr

/-- `camera_video_stabilization_mode_t`. -/
inductive CameraVideoStabilizationMode
  | off | on
deriving DecidableEq, Repr

/-- `class Parameters`, with the defaults of its constructor. -/
structure Parameters where
  mMetadata : CameraMetadata := .empty
  mEv : Int32 := 0
  mFps : Int32 := 30
  mDvsMode : CameraVideoStabilizationMode := .off
  mAeMode : CameraAeMode := .auto
  mExposureTime : Int64 := 0
  mBandingMode : CameraAntibandingMode := .auto
deriving DecidableEq, Repr

/-- `V4L2_PIX_FMT_NV12`. -/
def v4l2PixFmtNv12 : Int32 := 0x3231564E

/-- `STREAM_MEMBER_NUM`. -/
def streamMemberNum : ℕ := 4

/-- `stream_t`, the fields that are written. -/
structure Stream where
  format : Int32
  width : Int32
  height : Int32
  field : Int32
  stride : Int32
  size : Int32
deriving DecidableEq, Repr

namespace Parameters

/-- The stream at the index `i` of an `int32_t` array. -/
def streamAt (data : List UInt8) (i : ℕ) : Stream :=
  let width := i32At data (i + 1)
  let height := i32At data (i + 2)
  { format := i32At data i
    width := width
    height := height
    field := i32At data (i + 3)
    stride := width
    size := width * height * 3 / 2 }

/-- `getSupportedStreamConfig`. -/
def getSupportedStreamConfig (L : Libc) (h : Heap) (p : Parameters) : Status × List Stream :=
  match p.mMetadata.find L h scalerAvailableStreamConfigurations with
  | none => (.nameNotFound, [])
  | some entry =>
    if entry.count = 0 ∨ entry.count % streamMemberNum ≠ 0 then (.nameNotFound, []) else
    (.ok, (List.range (entry.count / streamMemberNum)).map fun k =>
      streamAt entry.data (streamMemberNum * k))

/-- One round of the loop of `merge`: the entry `i` of the packet `src` at address `buffer`. -/
def mergeEntry (L : Libc) (ops : Option VendorTagOps) (buffer : ℕ) (src : Metadata)
    (s : Heap × CameraMetadata) (i : ℕ) : Heap × CameraMetadata :=
  match getCameraMetadataEntry src i with
  | none => s
  | some entry =>
    match MetaType.ofCode entry.type with
    | none => s
    | some type =>
      (s.2.update L ops s.1 entry.tag type (some buffer) entry.data entry.count).2

/-- `merge(const CameraMetadata *)` of an object other than the own one; the object merged is
returned as well. -/
def merge (L : Libc) (ops : Option VendorTagOps) (h : Heap) (p : Parameters)
    (metadata : Option CameraMetadata) : Heap × Parameters × Option CameraMetadata :=
  match metadata with
  | none => (h, p, none)
  | some c =>
    if c.isEmpty h then (h, p, some c) else
    let locked := c.getAndLock
    match c.mBuffer, c.packet h with
    | some buffer, some src =>
      let merged := (List.range (c.entryCount h)).foldl (mergeEntry L ops buffer src)
        (h, p.mMetadata)
      (merged.1, { p with mMetadata := merged.2 }, some (locked.unlock c.mBuffer).2)
    | _, _ => (h, p, some (locked.unlock c.mBuffer).2)

end Parameters

end IntelCamera
