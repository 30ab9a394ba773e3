import Mathlib.Data.List.Basic
import Mathlib.Tactic.IntervalCases

/-!
# Metadata.Tags — value types and the tag table of `camera_metadata.c`

The six value types (`camera_metadata.h`), their codes and sizes, and the generated table
`tag_info` (`camera_metadata_tag_info.c`): one list of types per Android section, in tag order.
Vendor sections are answered by the installed `vendor_tag_ops`.
-/

namespace IntelCamera

/-- `TYPE_BYTE` … `TYPE_RATIONAL`. -/
inductive MetaType
  | byte | int32 | float | int64 | double | rational
deriving DecidableEq, Repr

/-- The code stored in an entry's `type` byte. -/
def MetaType.code : MetaType → ℕ
  | .byte => 0
  | .int32 => 1
  | .float => 2
  | .int64 => 3
  | .double => 4
  | .rational => 5

/-- `NUM_TYPES`. -/
def numTypes : ℕ := 6

/-- `camera_metadata_type_size`; an index outside the array reads `0` here. -/
def cameraMetadataTypeSize (type : ℕ) : ℕ := ([1, 4, 4, 8, 8, 8][type]?).getD 0

theorem MetaType.code_lt (t : MetaType) : t.code < numTypes := by
  cases t <;> decide

theorem cameraMetadataTypeSize_pos {type : ℕ} (h : type < numTypes) :
    0 < cameraMetadataTypeSize type := by
  unfold numTypes at h
  interval_cases type <;> decide

/-- `vendor_tag_ops_t`: by its contract `get_tag_type` answers a valid type, or `-1` (`none`). -/
structure VendorTagOps where
  getTagType : ℕ → Option MetaType

/-- `VENDOR_SECTION`. -/
def vendorSection : ℕ := 0x8000

/-- `tag_info`: the types of the tags of every Android section. -/
def tagInfo : List (List MetaType) := [
  -- colorCorrection
  [.byte, .rational, .float, .byte, .byte],
  -- control
  [.byte, .int32, .byte, .byte, .int32, .int32, .byte, .byte, .int32, .byte, .byte, .byte,
   .int32, .byte, .byte, .byte, .byte, .byte, .byte, .byte, .int32, .int32, .rational, .byte,
   .byte, .byte, .byte, .byte, .int32, .byte, .int32, .byte, .byte, .int32, .byte, .int32,
   .byte, .byte, .byte],
  -- demosaic
  [.byte],
  -- edge
  [.byte, .byte, .byte],
  -- flash
  [.byte, .int64, .byte, .byte, .byte, .byte],
  -- flashInfo
  [.byte, .int64],
  -- hotPixel
  [.byte, .byte],
  -- jpeg
  [.double, .byte, .int64, .int32, .byte, .byte, .int32, .int32, .int32, .int32],
  -- lens
  [.float, .float, .float, .float, .byte, .byte, .float, .float, .float, .byte, .float, .float],
  -- lensInfo
  [.float, .float, .float, .byte, .float, .float, .int32, .byte],
  -- noiseReduction
  [.byte, .byte, .byte],
  -- quirks
  [.byte, .byte, .byte, .byte, .byte],
  -- request
  [.int32, .int32, .int32, .byte, .int32, .byte, .int32, .int32, .int32, .byte, .byte, .int32,
   .byte, .int32, .int32, .int32],
  -- scaler
  [.int32, .int32, .int64, .int32, .float, .int64, .int32, .int64, .int32, .int32, .int32,
   .int64, .int64, .byte],
  -- sensor
  [.int64, .int64, .int32, .byte, .byte, .rational, .rational, .rational, .rational,
   .rational, .rational, .rational, .int32, .int32, .int32, .int32, .int64, .float, .rational,
   .double, .float, .float, .float, .int32, .int32, .int32, .int64],
  -- sensorInfo
  [.int32, .int32, .byte, .int64, .int64, .float, .int32, .int32, .byte, .byte, .int32],
  -- shading
  [.byte, .byte, .byte],
  -- statistics
  [.byte, .byte, .byte, .byte, .int32, .int32, .int32, .byte, .int32, .int32, .byte, .float,
   .float, .rational, .byte, .int32, .byte],
  -- statisticsInfo
  [.byte, .int32, .int32, .int32, .int32, .int32, .byte, .byte],
  -- tonemap
  [.float, .float, .float, .byte, .int32, .byte, .float, .byte],
  -- led
  [.byte, .byte],
  -- info
  [.byte],
  -- blackLevel
  [.byte],
  -- sync
  [.int64, .int32],
  -- reprocess
  [.float, .int32],
  -- depth
  [.int32, .int32, .int64, .int64, .byte]]

/-- `get_camera_metadata_tag_type`; the result `-1` is `none`. -/
def getCameraMetadataTagType (ops : Option VendorTagOps) (tag : ℕ) : Option MetaType :=
  let tagSection := tag / 2 ^ 16
  match ops with
  | some o => if vendorSection ≤ tagSection then o.getTagType tag else
      (tagInfo[tagSection]?).bind fun info => info[tag % 2 ^ 16]?
  | none => (tagInfo[tagSection]?).bind fun info => info[tag % 2 ^ 16]?

/-- The tag with index `i` of section `s`. -/
def tagOf (s i : ℕ) : ℕ := s * 2 ^ 16 + i

/-! ### The tags used by the adapter

`controlAeMode` is `ANDROID_CONTROL_AE_MODE`, and so on. -/

def controlAeAntibandingMode : ℕ := tagOf 1 0
def controlAeExposureCompensation : ℕ := tagOf 1 1
def controlAeMode : ℕ := tagOf 1 3
def controlAeTargetFpsRange : ℕ := tagOf 1 5
def controlVideoStabilizationMode : ℕ := tagOf 1 17
def controlAeAvailableAntibandingModes : ℕ := tagOf 1 18
def controlAeAvailableModes : ℕ := tagOf 1 19
def controlAeAvailableTargetFpsRanges : ℕ := tagOf 1 20
def controlAeCompensationRange : ℕ := tagOf 1 21
def controlAeCompensationStep : ℕ := tagOf 1 22
def controlAvailableVideoStabilizationModes : ℕ := tagOf 1 26
def requestId : ℕ := tagOf 12 1
def scalerAvailableStreamConfigurations : ℕ := tagOf 13 10
def sensorExposureTime : ℕ := tagOf 14 0
def sensorTimestamp : ℕ := tagOf 14 16
def sensorInfoExposureTimeRange : ℕ := tagOf 15 3

end IntelCamera
