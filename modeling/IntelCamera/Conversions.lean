import IntelCamera.CameraMap
import IntelCamera.ParameterAdapter

/-!
# Conversions — the six conversions as writes of one setting each

Every conversion of `ParameterAdapter.cpp` first works out a value, or refuses, from the static
metadata and its argument alone (`Outcome`), and then stores it under one tag.  `convertAeComp_eq` …
`convertBandingMode_eq` split them in this way, the first one where its division does not trap
(`AeTraps`).  A sequence of settings is run by `runAll`;
`runAll_spec` says what it does to the output metadata: the settings that were worked out are written
in order, the others leave no trace, and the statuses tell them apart.
-/

namespace IntelCamera

open Lib

namespace ParameterAdapter

variable (env : ConvertEnv)

/-! ### Outcomes -/

/-- The bytes to be stored, or the status of the refusal. -/
abbrev Outcome := Except Status (List UInt8)

/-- Store an outcome under a tag. -/
def convert (tag : ℕ) (type : MetaType) (count : ℕ) : Outcome → Conversion
  | .error status => fun out => (status, out)
  | .ok data => write env tag type data count

/-- What `convertAeComp` works out, if its division does not trap. -/
def aeCompOutcome (ev : Int32) : Outcome :=
  match staticEntry env controlAeCompensationStep with
  | none => .error .unknownError
  | some stepSize =>
    let step := rationalAt stepSize.data 0
    if stepSize.count ≠ 1 ∨ step.denominator = 0 ∨ step.numerator = 0 then .error .unknownError else
    match staticEntry env controlAeCompensationRange with
    | none => .error .unknownError
    | some evRange =>
      if evRange.count ≠ 2 then .error .unknownError else
      .ok (i32Bytes [(aeStepCount ev step (i32At evRange.data 0) (i32At evRange.data 1)).getD 0])

/-- The pair of `convertFps`. -/
def fpsPair (fps : Int32) (ranges : MetadataEntry) : List Int32 :=
  let index := (fpsIndex fps ranges.data none (List.range (ranges.count / 2))).getD 0
  [i32At ranges.data index, i32At ranges.data (index + 1)]

/-- What `convertFps` works out. -/
def fpsOutcome (fps : Int32) : Outcome :=
  match staticEntry env controlAeAvailableTargetFpsRanges with
  | none => .error .unknownError
  | some ranges =>
    if ranges.count % 2 ≠ 0 ∨ ranges.count < 2 then .error .unknownError else
    .ok (i32Bytes (fpsPair fps ranges))

/-- The mode of `convertDvs`. -/
def dvsMode (mode : CameraVideoStabilizationMode) (modes : MetadataEntry) : UInt8 :=
  if (modes.data.take modes.count).any (· = videoStabilizationModeCode .on) ∧ mode = .on then
    videoStabilizationModeCode .on
  else videoStabilizationModeCode .off

/-- What `convertDvs` works out. -/
def dvsOutcome (mode : CameraVideoStabilizationMode) : Outcome :=
  match staticEntry env controlAvailableVideoStabilizationModes with
  | none => .error .unknownError
  | some modes => .ok [dvsMode mode modes]

/-- What `convertExposureTime` works out. -/
def exposureTimeOutcome (exposureTime : Int64) : Outcome :=
  match staticEntry env sensorInfoExposureTimeRange with
  | none => .error .unknownError
  | some etRange =>
    if etRange.count ≠ 2 then .error .nameNotFound else
    .ok (i64Bytes [exposureTimeNs exposureTime (i64At etRange.data 0) (i64At etRange.data 1)])

/-- The mode of `convertBandingMode`. -/
def bandingMode (mode : CameraAntibandingMode) (modes : MetadataEntry) : UInt8 :=
  if (modes.data.take modes.count).any (· = antibandingModeCode mode) then antibandingModeCode mode
  else antibandingModeCode .auto

/-- What `convertBandingMode` works out. -/
def bandingOutcome (mode : CameraAntibandingMode) : Outcome :=
  match staticEntry env controlAeAvailableAntibandingModes with
  | none => .error .unknownError
  | some modes => .ok [bandingMode mode modes]

/-- The division of `convertAeComp` is reached and traps: its divisor is `-1`, and the product, reduced
to 32 bits, is `INT_MIN`. -/
def AeTraps (ev : Int32) : Prop :=
  ∃ step ∈ staticEntry env controlAeCompensationStep, step.count = 1 ∧
    (rationalAt step.data 0).numerator = -1 ∧
    (ev.toInt * (rationalAt step.data 0).denominator.toInt) % 2 ^ 32 = 2 ^ 31 ∧
    ∃ range ∈ staticEntry env controlAeCompensationRange, range.count = 2

theorem aeStepCount_eq_none_iff (ev : Int32) {step : Rational} (low high : Int32)
    (hn : step.numerator ≠ 0) : aeStepCount ev step low high = none ↔ step.numerator = -1 ∧
      (ev.toInt * step.denominator.toInt) % 2 ^ 32 = 2 ^ 31 := by
  unfold aeStepCount
  rw [Option.map_eq_none_iff, intDiv_eq_none_iff hn, Int32.toInt_mul, Int.bmod_def]
  have h0 := Int.emod_nonneg (ev.toInt * step.denominator.toInt) (b := 2 ^ 32) (by norm_num)
  have hlt := Int.emod_lt_of_pos (ev.toInt * step.denominator.toInt) (b := 2 ^ 32) (by norm_num)
  refine and_congr_right fun _ => ?_
  push_cast
  split_ifs <;> omega

/-- **`convertAeComp` ends the process exactly if** its division traps; otherwise it stores its
outcome. -/
theorem convertAeComp_eq (ev : Int32) (out : Heap × CameraMetadata) :
    (AeTraps env ev → convertAeComp env ev out = none) ∧
    (¬ AeTraps env ev → convertAeComp env ev out =
      some (convert env controlAeExposureCompensation .int32 1 (aeCompOutcome env ev) out)) := by
  unfold AeTraps convertAeComp aeCompOutcome
  cases staticEntry env controlAeCompensationStep with
  | none =>
    refine ⟨?_, fun _ => rfl⟩
    rintro ⟨step, hstep, -⟩
    cases hstep
  | some stepSize =>
    dsimp only
    split_ifs with hs
    · refine ⟨?_, fun _ => rfl⟩
      rintro ⟨step, hstep, h1, h2, h3, -⟩
      obtain rfl := Option.some.inj hstep
      rcases hs with hs | hs | hs
      · exact absurd h1 hs
      · rw [hs, Int32.toInt_zero, mul_zero] at h3
        exact absurd h3 (by norm_num)
      · rw [hs] at h2
        exact absurd h2 (by decide)
    · rw [not_or, not_or, not_not] at hs
      cases staticEntry env controlAeCompensationRange with
      | none =>
        refine ⟨?_, fun _ => rfl⟩
        rintro ⟨-, -, -, -, -, range, hrange, -⟩
        cases hrange
      | some evRange =>
        dsimp only
        split_ifs with hr
        · refine ⟨?_, fun _ => rfl⟩
          rintro ⟨-, -, -, -, -, range, hrange, hc⟩
          obtain rfl := Option.some.inj hrange
          exact absurd hc hr
        · have hnone := aeStepCount_eq_none_iff ev (i32At evRange.data 0) (i32At evRange.data 1)
            hs.2.2
          refine ⟨?_, fun hno => ?_⟩
          · rintro ⟨step, hstep, h1, h2, h3, -⟩
            obtain rfl := Option.some.inj hstep
            rw [hnone.mpr ⟨h2, h3⟩]
            rfl
          · cases hc : aeStepCount ev (rationalAt stepSize.data 0) (i32At evRange.data 0)
                (i32At evRange.data 1) with
            | none =>
              obtain ⟨h2, h3⟩ := hnone.mp hc
              exact absurd ⟨stepSize, rfl, hs.1, h2, h3, evRange, rfl, not_not.mp hr⟩ hno
            | some stepCount => rfl

theorem convertFps_eq (fps : Int32) : convertFps env fps =
    convert env controlAeTargetFpsRange .int32 2 (fpsOutcome env fps) := by
  funext out
  unfold convertFps fpsOutcome
  cases staticEntry env controlAeAvailableTargetFpsRanges with
  | none => rfl
  | some entry =>
    dsimp only
    split_ifs
    · rfl
    · rfl

theorem convertDvs_eq (mode : CameraVideoStabilizationMode) : convertDvs env mode =
    convert env controlVideoStabilizationMode .byte 1 (dvsOutcome env mode) := by
  funext out
  unfold convertDvs dvsOutcome
  cases staticEntry env controlAvailableVideoStabilizationModes with
  | none => rfl
  | some modes => rfl

theorem convertExposureTime_eq (exposureTime : Int64) : convertExposureTime env exposureTime =
    convert env sensorExposureTime .int64 1 (exposureTimeOutcome env exposureTime) := by
  funext out
  unfold convertExposureTime exposureTimeOutcome
  cases staticEntry env sensorInfoExposureTimeRange with
  | none => rfl
  | some entry =>
    dsimp only
    split_ifs
    · rfl
    · rfl

theorem convertBandingMode_eq (mode : CameraAntibandingMode) : convertBandingMode env mode =
    convert env controlAeAntibandingMode .byte 1 (bandingOutcome env mode) := by
  funext out
  unfold convertBandingMode bandingOutcome
  cases staticEntry env controlAeAvailableAntibandingModes with
  | none => rfl
  | some modes => rfl

/-! ### When a conversion refuses -/

/-- The static metadata has a usable step size and a compensation range. -/
def AeCompStated : Prop :=
  ∃ step ∈ staticEntry env controlAeCompensationStep, step.count = 1 ∧
    (rationalAt step.data 0).denominator ≠ 0 ∧ (rationalAt step.data 0).numerator ≠ 0 ∧
    ∃ range ∈ staticEntry env controlAeCompensationRange, range.count = 2

/-- The static metadata has pairs of frame rates. -/
def FpsStated : Prop :=
  ∃ ranges ∈ staticEntry env controlAeAvailableTargetFpsRanges,
    ranges.count % 2 = 0 ∧ 2 ≤ ranges.count

/-- The static metadata has a list of stabilization modes. -/
def DvsStated : Prop := (staticEntry env controlAvailableVideoStabilizationModes).isSome

/-- The static metadata has an exposure time range. -/
def ExposureTimeStated : Prop := ∃ range ∈ staticEntry env sensorInfoExposureTimeRange, range.count = 2

/-- The static metadata has a list of antibanding modes. -/
def BandingStated : Prop := (staticEntry env controlAeAvailableAntibandingModes).isSome

variable {env}

theorem aeCompOutcome_isOk (ev : Int32) : (aeCompOutcome env ev).isOk ↔ AeCompStated env := by
  unfold aeCompOutcome AeCompStated
  cases staticEntry env controlAeCompensationStep with
  | none => simp [Except.isOk, Except.toBool]
  | some step =>
    dsimp only
    split_ifs with h
    · simp only [Except.isOk, Except.toBool, Bool.false_eq_true, Option.mem_def, Option.some.injEq,
        exists_eq_left', false_iff]
      rintro ⟨h1, h2, h3, -⟩
      rcases h with h | h | h
      · exact h h1
      · exact h2 h
      · exact h3 h
    · rw [not_or, not_or, not_not] at h
      cases staticEntry env controlAeCompensationRange with
      | none => simp [Except.isOk, Except.toBool]
      | some range =>
        dsimp only
        split_ifs with hr
        · simp [Except.isOk, Except.toBool, hr]
        · simp [Except.isOk, Except.toBool, h.1, h.2.1, h.2.2, not_not.mp hr]

theorem fpsOutcome_isOk (fps : Int32) : (fpsOutcome env fps).isOk ↔ FpsStated env := by
  unfold fpsOutcome FpsStated
  cases staticEntry env controlAeAvailableTargetFpsRanges with
  | none => simp [Except.isOk, Except.toBool]
  | some ranges =>
    dsimp only
    split_ifs with h
    · simp only [Except.isOk, Except.toBool, Bool.false_eq_true, Option.mem_def, Option.some.injEq,
        exists_eq_left', false_iff]
      omega
    · simp only [Except.isOk, Except.toBool, Option.mem_def, Option.some.injEq, exists_eq_left',
        true_iff]
      omega

theorem dvsOutcome_isOk (mode : CameraVideoStabilizationMode) :
    (dvsOutcome env mode).isOk ↔ DvsStated env := by
  unfold dvsOutcome DvsStated
  cases staticEntry env controlAvailableVideoStabilizationModes with
  | none => simp [Except.isOk, Except.toBool]
  | some modes => simp [Except.isOk, Except.toBool]

theorem exposureTimeOutcome_isOk (exposureTime : Int64) :
    (exposureTimeOutcome env exposureTime).isOk ↔ ExposureTimeStated env := by
  unfold exposureTimeOutcome ExposureTimeStated
  cases staticEntry env sensorInfoExposureTimeRange with
  | none => simp [Except.isOk, Except.toBool]
  | some range =>
    dsimp only
    split_ifs with h
    · simp [Except.isOk, Except.toBool, h]
    · simp [Except.isOk, Except.toBool, not_not.mp h]

theorem bandingOutcome_isOk (mode : CameraAntibandingMode) :
    (bandingOutcome env mode).isOk ↔ BandingStated env := by
  unfold bandingOutcome BandingStated
  cases staticEntry env controlAeAvailableAntibandingModes with
  | none => simp [Except.isOk, Except.toBool]
  | some modes => simp [Except.isOk, Except.toBool]

/-! ### Settings -/

/-- One entry of the request settings, as worked out by a conversion. -/
structure Setting where
  tag : ℕ
  type : MetaType
  count : ℕ
  outcome : Outcome

namespace Setting

/-- The conversion that stores the setting. -/
def run (env : ConvertEnv) (s : Setting) : Conversion := convert env s.tag s.type s.count s.outcome

/-- What the setting does to a map. -/
def apply (values : ℕ → Option TypedEntry) (s : Setting) : ℕ → Option TypedEntry :=
  match s.outcome with
  | .error _ => values
  | .ok data => Function.update values s.tag (some ⟨s.tag, s.type.code, data⟩)

/-- A setting that an update accepts: the tag's own type, as many bytes as counted, at most eight of
them outside the record. -/
structure Proper (ops : Option VendorTagOps) (s : Setting) : Prop where
  type_eq : getCameraMetadataTagType ops s.tag = some s.type
  size_le : calculateCameraMetadataEntryDataSize s.type.code s.count ≤ 8
  data : ∀ d, s.outcome = .ok d → d.length = s.count * cameraMetadataTypeSize s.type.code
  refused : s.outcome ≠ .error .ok

end Setting

/-- The settings of `setParameters`, in the order of its conversions. -/
def settings (env : ConvertEnv) (param : Parameters) : List Setting :=
  [⟨controlAeExposureCompensation, .int32, 1, aeCompOutcome env param.mEv⟩,
    ⟨controlAeTargetFpsRange, .int32, 2, fpsOutcome env param.mFps⟩,
    ⟨controlVideoStabilizationMode, .byte, 1, dvsOutcome env param.mDvsMode⟩,
    ⟨controlAeMode, .byte, 1, .ok [aeModeCode param.mAeMode]⟩,
    ⟨sensorExposureTime, .int64, 1, exposureTimeOutcome env param.mExposureTime⟩,
    ⟨controlAeAntibandingMode, .byte, 1, bandingOutcome env param.mBandingMode⟩]

/-- An outcome of `n` bytes, or an honest refusal. -/
def Outcome.Sized (n : ℕ) (o : Outcome) : Prop :=
  (∃ d, o = .ok d ∧ d.length = n) ∨ ∃ st, o = .error st ∧ st ≠ .ok

theorem sized_ok {n : ℕ} {d : List UInt8} (h : d.length = n) :
    Outcome.Sized n (.ok d) := Or.inl ⟨d, rfl, h⟩

theorem sized_error {n : ℕ} {st : Status} (h : st ≠ .ok) :
    Outcome.Sized n (.error st) := Or.inr ⟨st, rfl, h⟩

theorem aeCompOutcome_sized (ev : Int32) : (aeCompOutcome env ev).Sized 4 := by
  unfold aeCompOutcome
  cases staticEntry env controlAeCompensationStep with
  | none => exact sized_error (by decide)
  | some stepSize =>
    dsimp only
    split_ifs
    · exact sized_error (by decide)
    · cases staticEntry env controlAeCompensationRange with
      | none => exact sized_error (by decide)
      | some evRange =>
        dsimp only
        split_ifs
        · exact sized_error (by decide)
        · exact sized_ok (length_i32Bytes _)

theorem fpsOutcome_sized (fps : Int32) : (fpsOutcome env fps).Sized 8 := by
  unfold fpsOutcome
  cases staticEntry env controlAeAvailableTargetFpsRanges with
  | none => exact sized_error (by decide)
  | some ranges =>
    dsimp only
    split_ifs
    · exact sized_error (by decide)
    · exact sized_ok (length_i32Bytes _)

theorem dvsOutcome_sized (mode : CameraVideoStabilizationMode) : (dvsOutcome env mode).Sized 1 := by
  unfold dvsOutcome
  cases staticEntry env controlAvailableVideoStabilizationModes with
  | none => exact sized_error (by decide)
  | some modes => exact sized_ok rfl

theorem exposureTimeOutcome_sized (exposureTime : Int64) :
    (exposureTimeOutcome env exposureTime).Sized 8 := by
  unfold exposureTimeOutcome
  cases staticEntry env sensorInfoExposureTimeRange with
  | none => exact sized_error (by decide)
  | some etRange =>
    dsimp only
    split_ifs
    · exact sized_error (by decide)
    · exact sized_ok (length_i64Bytes _)

theorem bandingOutcome_sized (mode : CameraAntibandingMode) : (bandingOutcome env mode).Sized 1 := by
  unfold bandingOutcome
  cases staticEntry env controlAeAvailableAntibandingModes with
  | none => exact sized_error (by decide)
  | some modes => exact sized_ok rfl

/-- A setting of an Android tag, checked against the table once and for all vendor tags. -/
theorem Setting.proper_of {ops : Option VendorTagOps} {tag count : ℕ} {type : MetaType}
    {outcome : Outcome} (ho : outcome.Sized (count * cameraMetadataTypeSize type.code))
    (ha : tag / 2 ^ 16 < vendorSection) (ht : getCameraMetadataTagType none tag = some type)
    (hsz : calculateCameraMetadataEntryDataSize type.code count ≤ 8) :
    Setting.Proper ops ⟨tag, type, count, outcome⟩ := by
  refine ⟨(tagType_android ops ha).trans ht, hsz, fun d hd => ?_, fun hd => ?_⟩
  · dsimp only at hd
    rcases ho with ⟨d', rfl, hlen⟩ | ⟨st, rfl, -⟩
    · obtain rfl := Except.ok.inj hd
      exact hlen
    · cases hd
  · dsimp only at hd
    rcases ho with ⟨d', rfl, -⟩ | ⟨st, rfl, hne⟩
    · cases hd
    · exact hne (Except.error.inj hd)

theorem settings_proper (ops : Option VendorTagOps) (param : Parameters) :
    ∀ s ∈ settings env param, s.Proper ops := by
  unfold settings
  rw [List.forall_mem_cons, List.forall_mem_cons, List.forall_mem_cons, List.forall_mem_cons,
    List.forall_mem_cons, List.forall_mem_singleton]
  exact ⟨Setting.proper_of (aeCompOutcome_sized _) (by decide) (by decide) (by decide),
    Setting.proper_of (fpsOutcome_sized _) (by decide) (by decide) (by decide),
    Setting.proper_of (dvsOutcome_sized _) (by decide) (by decide) (by decide),
    Setting.proper_of (sized_ok rfl) (by decide) (by decide) (by decide),
    Setting.proper_of (exposureTimeOutcome_sized _) (by decide) (by decide) (by decide),
    Setting.proper_of (bandingOutcome_sized _) (by decide) (by decide) (by decide)⟩

/-! ### A sequence of settings -/

/-- Run the settings one after another; the statuses in the same order. -/
def runAll (env : ConvertEnv) : List Setting → Heap × CameraMetadata →
    List Status × Heap × CameraMetadata
  | [], out => ([], out)
  | s :: l, out =>
    let r := s.run env out
    let rest := runAll env l r.2
    (r.1 :: rest.1, rest.2)

/-- The packet with room for `k` more entries of eight bytes, the present one or a larger one, fits in
32 bits. -/
def Room (k : ℕ) (out : Heap × CameraMetadata) : Prop :=
  calculateCameraMetadataSize
    (CameraMetadata.grownCapacity (out.2.entryCount out.1) (out.2.entryCapacity out.1) k)
    (CameraMetadata.grownCapacity (out.2.dataCount out.1) (out.2.dataCapacity out.1) (8 * k)) < 2 ^ 32

theorem Room.mono {k k' : ℕ} {out : Heap × CameraMetadata} (h : Room k out) (hk : k' ≤ k) :
    Room k' out :=
  lt_of_le_of_lt (calculateSize_mono (CameraMetadata.grownCapacity_mono _ _ hk)
    (CameraMetadata.grownCapacity_mono _ _ (by omega))) h

theorem Room.request {k dataSize : ℕ} {out : Heap × CameraMetadata} (h : Room (k + 1) out)
    (hd : dataSize ≤ 8) : out.2.requestSize out.1 dataSize < 2 ^ 32 :=
  lt_of_le_of_lt (calculateSize_mono (CameraMetadata.grownCapacity_mono _ _ (by omega))
    (CameraMetadata.grownCapacity_mono _ _ (by omega))) h

theorem Room.updated {k dataSize : ℕ} {out : Heap × CameraMetadata} (h : Room (k + 1) out)
    (hd : dataSize ≤ 8) {ops : Option VendorTagOps} {x : TypedEntry} {h' : Heap} {c' : CameraMetadata}
    (hu : CameraMetadata.Updated ops (2 ^ 32) out.1 out.2 x dataSize h' c') : Room k (h', c') := by
  refine lt_of_le_of_lt (calculateSize_mono ?_ ?_) h
  · rw [hu.entryCapacity, Nat.add_comm k 1]
    exact CameraMetadata.grownCapacity_rest k hu.entryCount
  · rw [hu.dataCapacity]
    exact (CameraMetadata.grownCapacity_rest (8 * k) hu.dataCount).trans
      (CameraMetadata.grownCapacity_mono _ _ (by omega))

/-- What the settings are written into: an object with a packet of well-typed entries. -/
structure Writable (ops : Option VendorTagOps) (out : Heap × CameraMetadata) : Prop where
  holds : out.2.Holds (IsTyped ops (2 ^ 32)) out.1
  buffer : out.2.mBuffer.isSome

/-- The object is a finite map. -/
def Mapped (ops : Option VendorTagOps) (out : Heap × CameraMetadata) : Prop :=
  out.2.Holds (IsMap ops (2 ^ 32)) out.1

section Run

variable (env) (hmalloc : ∀ n, (env.libc.malloc n).isSome)

include hmalloc

/-- **One setting**: written and reported, or refused and reported. -/
theorem run_spec {s : Setting} (hs : s.Proper env.vendorOps) {out : Heap × CameraMetadata} {k : ℕ}
    (hw : Writable env.vendorOps out) (hr : Room (k + 1) out) :
    ((s.run env out).1 = .ok ↔ s.outcome.isOk) ∧ Writable env.vendorOps (s.run env out).2 ∧
      Room k (s.run env out).2 ∧ (Mapped env.vendorOps out → Mapped env.vendorOps (s.run env out).2 ∧
        (s.run env out).2.2.values (s.run env out).2.1 = s.apply (out.2.values out.1)) := by
  unfold Setting.run Setting.apply
  cases ho : s.outcome with
  | error st =>
    have hne : st ≠ .ok := by
      rintro rfl
      exact hs.refused ho
    refine ⟨iff_of_false hne (by simp [Except.isOk, Except.toBool]), hw, hr.mono (Nat.le_succ k),
      fun hm => ⟨hm, rfl⟩⟩
  | ok d =>
    have hd := hs.data d ho
    have hin : ¬ ((none : Option ℕ) ≠ none ∧ none = out.2.mBuffer) := fun hne => hne.1 rfl
    obtain ⟨h', c', hu, hup⟩ := CameraMetadata.update_spec (L := env.libc) le_rfl hmalloc hw.holds
      hs.type_eq hd.ge hin (hr.request hs.size_le)
    have hrun : convert env s.tag s.type s.count (.ok d) out = (.ok, h', c') := hu
    rw [hrun]
    refine ⟨iff_of_true rfl rfl, ⟨hup.holds, hup.buffer⟩, hr.updated hs.size_le hup, fun hm => ?_⟩
    obtain ⟨h1, h2⟩ := hup.map hm
    rw [← hd, List.take_length] at h2
    exact ⟨h1, h2⟩

/-- **A sequence of settings**, by induction over the sequence. -/
theorem runAll_spec {l : List Setting} (hl : ∀ s ∈ l, s.Proper env.vendorOps)
    {out : Heap × CameraMetadata} {k : ℕ} (hw : Writable env.vendorOps out)
    (hr : Room (k + l.length) out) :
    (runAll env l out).1.map (fun st => decide (st = .ok)) = l.map (fun s => s.outcome.isOk) ∧
      Writable env.vendorOps (runAll env l out).2 ∧ Room k (runAll env l out).2 ∧
      (Mapped env.vendorOps out → Mapped env.vendorOps (runAll env l out).2 ∧
        (runAll env l out).2.2.values (runAll env l out).2.1 =
          l.foldl Setting.apply (out.2.values out.1)) := by
  induction l generalizing out with
  | nil => exact ⟨rfl, hw, hr, fun hm => ⟨hm, rfl⟩⟩
  | cons s l ih =>
    rw [List.forall_mem_cons] at hl
    obtain ⟨h1, h2, h3, h4⟩ := run_spec env hmalloc hl.1 (k := k + l.length) hw hr
    obtain ⟨i1, i2, i3, i4⟩ := ih hl.2 h2 h3
    refine ⟨?_, i2, i3, fun hm => ?_⟩
    · have hd : decide ((s.run env out).1 = .ok) = s.outcome.isOk := by
        rw [Bool.eq_iff_iff, decide_eq_true_iff]
        exact h1
      show decide ((s.run env out).1 = .ok) :: _ = s.outcome.isOk :: _
      rw [i1, hd]
    · obtain ⟨m1, m2⟩ := h4 hm
      obtain ⟨n1, n2⟩ := i4 m1
      refine ⟨n1, n2.trans ?_⟩
      rw [m2]
      rfl

end Run

/-! ### What a sequence of settings does to a map -/

section Fold

variable {l : List Setting} {values : ℕ → Option TypedEntry}

theorem apply_error {s : Setting} {st : Status} (h : s.outcome = .error st) :
    s.apply values = values := by
  unfold Setting.apply
  rw [h]

theorem apply_ok {s : Setting} {d : List UInt8} (h : s.outcome = .ok d) :
    s.apply values = Function.update values s.tag (some ⟨s.tag, s.type.code, d⟩) := by
  unfold Setting.apply
  rw [h]

theorem apply_of_ne {s : Setting} {tag : ℕ} (h : tag ≠ s.tag) : s.apply values tag = values tag := by
  cases ho : s.outcome with
  | error st => rw [apply_error ho]
  | ok d => rw [apply_ok ho, Function.update_of_ne h]

/-- **Only the tags of the settings change.** -/
theorem foldl_apply_of_notMem {tag : ℕ} (h : tag ∉ l.map (·.tag)) :
    l.foldl Setting.apply values tag = values tag := by
  induction l generalizing values with
  | nil => rfl
  | cons s l ih =>
    rw [List.map_cons, List.mem_cons, not_or] at h
    rw [List.foldl_cons, ih h.2, apply_of_ne h.1]

/-- **Under its own tag a setting is alone.** -/
theorem foldl_apply_of_mem (hn : (l.map (·.tag)).Nodup) {s : Setting} (hs : s ∈ l) :
    l.foldl Setting.apply values s.tag = s.apply values s.tag := by
  induction l generalizing values with
  | nil => cases hs
  | cons s' l ih =>
    rw [List.map_cons, List.nodup_cons] at hn
    rw [List.foldl_cons]
    rcases List.mem_cons.mp hs with rfl | hs
    · exact foldl_apply_of_notMem hn.1
    · rw [ih hn.2 hs]
      have hne : s.tag ≠ s'.tag := by
        intro he
        exact hn.1 (he ▸ List.mem_map_of_mem hs)
      cases ho : s.outcome with
      | error st => rw [apply_error ho, apply_error ho, apply_of_ne hne]
      | ok d => rw [apply_ok ho, apply_ok ho, Function.update_self, Function.update_self]

/-- **Running the settings twice is running them once.** -/
theorem foldl_apply_twice (hn : (l.map (·.tag)).Nodup) :
    l.foldl Setting.apply (l.foldl Setting.apply values) = l.foldl Setting.apply values := by
  funext tag
  by_cases ht : tag ∈ l.map (·.tag)
  · obtain ⟨s, hs, rfl⟩ := List.mem_map.mp ht
    rw [foldl_apply_of_mem hn hs]
    cases ho : s.outcome with
    | error st => rw [apply_error ho]
    | ok d =>
      rw [foldl_apply_of_mem hn hs, apply_ok ho, apply_ok ho, Function.update_self,
        Function.update_self]
  · exact foldl_apply_of_notMem ht

end Fold

theorem settings_nodup (env : ConvertEnv) (param : Parameters) :
    ((settings env param).map (·.tag)).Nodup := by
  show [controlAeExposureCompensation, controlAeTargetFpsRange, controlVideoStabilizationMode,
    controlAeMode, sensorExposureTime, controlAeAntibandingMode].Nodup
  decide

end ParameterAdapter

end IntelCamera
