import IntelCamera.Lib.Machine
import IntelCamera.Parameters

/-!
# ParameterAdapter — icamera parameters into camera3 request settings (`ParameterAdapter.cpp`)

Six conversions, each of which reads what the camera supports from the static metadata and stores one
entry in the output metadata.  The arrays they store are local variables, so no update is refused for
aliasing.  `int` and `int64_t` products wrap around.  A quotient need not be an `int`: the division of
`INT_MIN` by `-1` is a signal that ends the process, so `convertAeComp` has no outcome there.
-/

namespace IntelCamera

open Lib

/-- What a conversion reads: the C library, the vendor tags and the static metadata. -/
structure ConvertEnv where
  libc : Libc
  vendorOps : Option VendorTagOps
  staticMetadata : Metadata

/-- A conversion: the output metadata, in its heap, before and after. -/
abbrev Conversion := Heap × CameraMetadata → Status × Heap × CameraMetadata

namespace ParameterAdapter

variable (env : ConvertEnv)

/-- `find_camera_metadata_ro_entry` on the static metadata. -/
def staticEntry (tag : ℕ) : Option MetadataEntry :=
  findCameraMetadataEntry env.libc env.staticMetadata tag

/-- `outputMetadata.update`. -/
def write (tag : ℕ) (type : MetaType) (data : List UInt8) (count : ℕ) : Conversion := fun out =>
  out.2.update env.libc env.vendorOps out.1 tag type none data count

/-- The value of `convertAeComp`: the number of steps, kept within the range; none if the division
traps. -/
def aeStepCount (ev : Int32) (step : Rational) (low high : Int32) : Option Int32 :=
  (intDiv (ev * step.denominator) step.numerator).map fun stepCount =>
    let stepCount := if stepCount > high then high else stepCount
    if stepCount < low then low else stepCount

/-- `convertAeComp`; none if the process ends in its division. -/
def convertAeComp (ev : Int32) (out : Heap × CameraMetadata) :
    Option (Status × Heap × CameraMetadata) :=
  match staticEntry env controlAeCompensationStep with
  | none => some (.unknownError, out)
  | some stepSize =>
    let step := rationalAt stepSize.data 0
    if stepSize.count ≠ 1 ∨ step.denominator = 0 ∨ step.numerator = 0 then some (.unknownError, out) else
    match staticEntry env controlAeCompensationRange with
    | none => some (.unknownError, out)
    | some evRange =>
      if evRange.count ≠ 2 then some (.unknownError, out) else
      (aeStepCount ev step (i32At evRange.data 0) (i32At evRange.data 1)).map fun stepCount =>
        write env controlAeExposureCompensation .int32 (i32Bytes [stepCount]) 1 out

/-- The search of `convertFps` over the pairs `is`: a fixed range ends it, the last variable range
is kept. -/
def fpsIndex (fps : Int32) (ranges : List UInt8) : Option ℕ → List ℕ → Option ℕ
  | index, [] => index
  | index, i :: is =>
    let lowFps := i32At ranges (2 * i)
    let highFps := i32At ranges (2 * i + 1)
    if fps = lowFps ∧ fps = highFps then some (2 * i)
    else if lowFps ≤ fps ∧ fps ≤ highFps then fpsIndex fps ranges (some (2 * i)) is
    else fpsIndex fps ranges index is

/-- `convertFps`. -/
def convertFps (fps : Int32) : Conversion := fun out =>
  match staticEntry env controlAeAvailableTargetFpsRanges with
  | none => (.unknownError, out)
  | some fpsRanges =>
    if fpsRanges.count % 2 ≠ 0 ∨ fpsRanges.count < 2 then (.unknownError, out) else
    let index := (fpsIndex fps fpsRanges.data none (List.range (fpsRanges.count / 2))).getD 0
    write env controlAeTargetFpsRange .int32
      (i32Bytes [i32At fpsRanges.data index, i32At fpsRanges.data (index + 1)]) 2 out

/-- `ANDROID_CONTROL_VIDEO_STABILIZATION_MODE_OFF` and `_ON`. -/
def videoStabilizationModeCode : CameraVideoStabilizationMode → UInt8
  | .off => 0
  | .on => 1

/-- `convertDvs`. -/
def convertDvs (mode : CameraVideoStabilizationMode) : Conversion := fun out =>
  match staticEntry env controlAvailableVideoStabilizationModes with
  | none => (.unknownError, out)
  | some dvsModes =>
    let dvsSupported := (dvsModes.data.take dvsModes.count).any (· = videoStabilizationModeCode .on)
    let dvsMode := if dvsSupported ∧ mode = .on then videoStabilizationModeCode .on
      else videoStabilizationModeCode .off
    write env controlVideoStabilizationMode .byte [dvsMode] 1 out

/-- `ANDROID_CONTROL_AE_MODE_OFF` for the manual mode, `ANDROID_CONTROL_AE_MODE_ON` otherwise. -/
def aeModeCode : CameraAeMode → UInt8
  | .manual => 0
  | .auto => 1

/-- `convertAeMode`. -/
def convertAeMode (mode : CameraAeMode) : Conversion :=
  write env controlAeMode .byte [aeModeCode mode] 1

/-- The value of `convertExposureTime`: nanoseconds, kept within the range. -/
def exposureTimeNs (exposureTime etMin etMax : Int64) : Int64 :=
  let exposureTimeNs := exposureTime * 1000
  if exposureTimeNs < etMin then etMin else if exposureTimeNs > etMax then etMax else exposureTimeNs

/-- `convertExposureTime`. -/
def convertExposureTime (exposureTime : Int64) : Conversion := fun out =>
  match staticEntry env sensorInfoExposureTimeRange with
  | none => (.unknownError, out)
  | some etRange =>
    if etRange.count ≠ 2 then (.nameNotFound, out) else
    write env sensorExposureTime .int64
      (i64Bytes [exposureTimeNs exposureTime (i64At etRange.data 0) (i64At etRange.data 1)]) 1 out

/-- `ANDROID_CONTROL_AE_ANTIBANDING_MODE_*`. -/
def antibandingModeCode : CameraAntibandingMode → UInt8
  | .off => 0
  | .hz50 => 1
  | .hz60 => 2
  | .auto => 3

/-- `convertBandingMode`. -/
def convertBandingMode (bandingMode : CameraAntibandingMode) : Conversion := fun out =>
  match staticEntry env controlAeAvailableAntibandingModes with
  | none => (.unknownError, out)
  | some modes =>
    let androidMode := antibandingModeCode bandingMode
    let modeSupported := (modes.data.take modes.count).any (· = androidMode)
    let androidMode := if modeSupported then androidMode else antibandingModeCode .auto
    write env controlAeAntibandingMode .byte [androidMode] 1 out

/-! ### The conversions keep the packet live -/

/-- The conversion leaves a live packet, if it is given one. -/
def KeepsLive (f : Conversion) : Prop := ∀ out, out.2.Live out.1 → (f out).2.2.Live (f out).2.1

theorem write_keepsLive (tag : ℕ) (type : MetaType) (data : List UInt8) (count : ℕ) :
    KeepsLive (write env tag type data count) :=
  fun _ h => h.update tag type none data count

theorem convertAeComp_keepsLive {ev : Int32} {out : Heap × CameraMetadata}
    {r : Status × Heap × CameraMetadata} (hr : convertAeComp env ev out = some r)
    (h : out.2.Live out.1) : r.2.2.Live r.2.1 := by
  unfold convertAeComp at hr
  split at hr
  · obtain rfl := Option.some.inj hr
    exact h
  · dsimp only at hr
    split_ifs at hr
    · obtain rfl := Option.some.inj hr
      exact h
    · split at hr
      · obtain rfl := Option.some.inj hr
        exact h
      · split_ifs at hr
        · obtain rfl := Option.some.inj hr
          exact h
        · obtain ⟨stepCount, -, rfl⟩ := Option.map_eq_some_iff.mp hr
          exact write_keepsLive env _ _ _ _ out h

theorem convertFps_keepsLive (fps : Int32) : KeepsLive (convertFps env fps) := by
  intro out h
  unfold convertFps
  split
  · exact h
  · split_ifs
    · exact h
    · exact write_keepsLive env _ _ _ _ out h

theorem convertDvs_keepsLive (mode : CameraVideoStabilizationMode) :
    KeepsLive (convertDvs env mode) := by
  intro out h
  unfold convertDvs
  split
  · exact h
  · exact write_keepsLive env _ _ _ _ out h

theorem convertExposureTime_keepsLive (exposureTime : Int64) :
    KeepsLive (convertExposureTime env exposureTime) := by
  intro out h
  unfold convertExposureTime
  split
  · exact h
  · split_ifs
    · exact h
    · exact write_keepsLive env _ _ _ _ out h

theorem convertBandingMode_keepsLive (bandingMode : CameraAntibandingMode) :
    KeepsLive (convertBandingMode env bandingMode) := by
  intro out h
  unfold convertBandingMode
  split
  · exact h
  · exact write_keepsLive env _ _ _ _ out h

end ParameterAdapter

end IntelCamera
