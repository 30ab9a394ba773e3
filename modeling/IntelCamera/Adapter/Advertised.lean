import IntelCamera.Adapter.Parameters

/-!
# Adapter.Advertised — the values `setParameters` writes, against the static metadata

Each conversion has its own search, clamp and fallback.  Four of them write only what the static
metadata advertises.  The AE mode is written without a look at the modes the camera supports, and the
fallback of the antibanding mode is written without a look at whether it is supported.
-/

namespace IntelCamera

open Lib ParameterAdapter

namespace ParameterAdapter

/-! ### The values -/

/-- The clamp of `convertAeComp` stays in its range. -/
theorem aeStepCount_mem {ev stepCount : Int32} {step : Rational} {low high : Int32} (h : low ≤ high)
    (hs : aeStepCount ev step low high = some stepCount) : low ≤ stepCount ∧ stepCount ≤ high := by
  obtain ⟨q, -, rfl⟩ := Option.map_eq_some_iff.mp hs
  rw [Int32.le_iff_toInt_le] at h
  simp only [gt_iff_lt, Int32.le_iff_toInt_le, Int32.lt_iff_toInt_lt]
  split_ifs <;> omega

/-- The clamp of `convertExposureTime` stays in its range. -/
theorem exposureTimeNs_mem (exposureTime : Int64) {etMin etMax : Int64} (h : etMin ≤ etMax) :
    etMin ≤ exposureTimeNs exposureTime etMin etMax ∧
      exposureTimeNs exposureTime etMin etMax ≤ etMax := by
  unfold exposureTimeNs
  dsimp only
  rw [Int64.le_iff_toInt_le] at h
  simp only [gt_iff_lt, Int64.le_iff_toInt_le, Int64.lt_iff_toInt_lt]
  split_ifs <;> omega

/-- The search of `convertFps` stops at a pair it has looked at. -/
theorem fpsIndex_some {fps : Int32} {ranges : List UInt8} {is : List ℕ} {index : Option ℕ} {j : ℕ}
    (h : fpsIndex fps ranges index is = some j) : index = some j ∨ ∃ i ∈ is, j = 2 * i := by
  induction is generalizing index with
  | nil => exact Or.inl h
  | cons i is ih =>
    unfold fpsIndex at h
    dsimp only at h
    split_ifs at h
    · exact Or.inr ⟨i, List.mem_cons_self, (Option.some.inj h).symm⟩
    · rcases ih h with he | ⟨i', hi', hj⟩
      · exact Or.inr ⟨i, List.mem_cons_self, (Option.some.inj he).symm⟩
      · exact Or.inr ⟨i', List.mem_cons_of_mem _ hi', hj⟩
    · rcases ih h with he | ⟨i', hi', hj⟩
      · exact Or.inl he
      · exact Or.inr ⟨i', List.mem_cons_of_mem _ hi', hj⟩

/-- **The pair of `convertFps` is one of the pairs.** -/
theorem fpsPair_mem (fps : Int32) {ranges : MetadataEntry} (h : 2 ≤ ranges.count) :
    ∃ i < ranges.count / 2,
      fpsPair fps ranges = [i32At ranges.data (2 * i), i32At ranges.data (2 * i + 1)] := by
  unfold fpsPair
  cases hi : fpsIndex fps ranges.data none (List.range (ranges.count / 2)) with
  | none => exact ⟨0, by omega, rfl⟩
  | some j =>
    rcases fpsIndex_some hi with he | ⟨i, hi', rfl⟩
    · cases he
    · exact ⟨i, List.mem_range.mp hi', rfl⟩

theorem any_eq_iff_mem {l : List UInt8} {b : UInt8} : (l.any (· = b)) = true ↔ b ∈ l := by
  simp

end ParameterAdapter

namespace Adapter

variable {env : Env} {a : Adapter} {staticMeta : Metadata}

/-- The one byte under `tag` is a member of the list under `list` in the static metadata. -/
def Supported (cenv : ConvertEnv) (values : ℕ → Option TypedEntry) (list tag : ℕ) : Prop :=
  ∃ modes ∈ staticEntry cenv list, ∃ x ∈ values tag, ∃ b, x.payload = [b] ∧
    b ∈ modes.data.take modes.count

/-- The six settings are within what the static metadata advertises. -/
structure Advertised (cenv : ConvertEnv) (values : ℕ → Option TypedEntry) : Prop where
  aeComp : ∃ range ∈ staticEntry cenv controlAeCompensationRange,
    ∃ x ∈ values controlAeExposureCompensation,
      i32At range.data 0 ≤ i32At x.payload 0 ∧ i32At x.payload 0 ≤ i32At range.data 1
  fps : ∃ ranges ∈ staticEntry cenv controlAeAvailableTargetFpsRanges,
    ∃ x ∈ values controlAeTargetFpsRange, ∃ i < ranges.count / 2,
      i32At x.payload 0 = i32At ranges.data (2 * i) ∧
        i32At x.payload 1 = i32At ranges.data (2 * i + 1)
  exposureTime : ∃ range ∈ staticEntry cenv sensorInfoExposureTimeRange,
    ∃ x ∈ values sensorExposureTime,
      i64At range.data 0 ≤ i64At x.payload 0 ∧ i64At x.payload 0 ≤ i64At range.data 1
  dvs : Supported cenv values controlAvailableVideoStabilizationModes controlVideoStabilizationMode
  ae : Supported cenv values controlAeAvailableModes controlAeMode
  banding : Supported cenv values controlAeAvailableAntibandingModes controlAeAntibandingMode

/-- Static metadata with ordered ranges, without empty lists and with stabilization `OFF`. -/
structure WellStated (cenv : ConvertEnv) : Prop where
  aeRange : ∀ r ∈ staticEntry cenv controlAeCompensationRange, i32At r.data 0 ≤ i32At r.data 1
  etRange : ∀ r ∈ staticEntry cenv sensorInfoExposureTimeRange, i64At r.data 0 ≤ i64At r.data 1
  fps : ∃ r ∈ staticEntry cenv controlAeAvailableTargetFpsRanges, 0 < r.count
  ae : ∃ r ∈ staticEntry cenv controlAeAvailableModes, 0 < r.count
  banding : ∃ r ∈ staticEntry cenv controlAeAvailableAntibandingModes, 0 < r.count
  dvs : ∃ r ∈ staticEntry cenv controlAvailableVideoStabilizationModes,
    videoStabilizationModeCode .off ∈ r.data.take r.count

/-- The AE mode asked for, and the antibanding mode asked for or its fallback, are advertised. -/
def ModesStated (cenv : ConvertEnv) (param : Parameters) : Prop :=
  (∃ modes ∈ staticEntry cenv controlAeAvailableModes,
    aeModeCode param.mAeMode ∈ modes.data.take modes.count) ∧
  ∃ modes ∈ staticEntry cenv controlAeAvailableAntibandingModes,
    antibandingModeCode param.mBandingMode ∈ modes.data.take modes.count ∨
      antibandingModeCode .auto ∈ modes.data.take modes.count

section Values

variable {cenv : ConvertEnv} {param : Parameters} {a' : Adapter} {k : ℕ}
  (h : Parametrized env k a cenv param a') (hm : Mapped env.vendorOps (a.heap, a.owner))

include h hm

theorem Parametrized.aeComp (hno : ¬ AeTraps cenv param.mEv) (hst : AeCompStated cenv)
    (hw : WellStated cenv) :
    ∃ range ∈ staticEntry cenv controlAeCompensationRange,
      ∃ x ∈ requestSetting env a' controlAeExposureCompensation,
        i32At range.data 0 ≤ i32At x.payload 0 ∧ i32At x.payload 0 ≤ i32At range.data 1 := by
  obtain ⟨step, hstep, hc, hd, hn, range, hrange, hr⟩ := hst
  cases hsc : aeStepCount param.mEv (rationalAt step.data 0) (i32At range.data 0)
      (i32At range.data 1) with
  | none =>
    obtain ⟨h1, h2⟩ := (aeStepCount_eq_none_iff _ _ _ hn).mp hsc
    exact absurd ⟨step, hstep, hc, h1, h2, range, hrange, hr⟩ hno
  | some stepCount =>
    have hout : aeCompOutcome cenv param.mEv = .ok (i32Bytes [stepCount]) := by
      unfold aeCompOutcome
      rw [Option.mem_def] at hstep hrange
      rw [hstep]
      dsimp only
      rw [if_neg (by simp [hc, hd, hn]), hrange]
      dsimp only
      rw [if_neg (not_not.mpr hr), hsc, Option.getD_some]
    refine ⟨range, hrange, _, h.written hm (show (settings cenv param)[0]? = some _ from rfl)
      hout, ?_⟩
    rw [i32At_i32Bytes rfl]
    exact aeStepCount_mem (hw.aeRange range hrange) hsc

theorem Parametrized.exposureTime (hst : ExposureTimeStated cenv) (hw : WellStated cenv) :
    ∃ range ∈ staticEntry cenv sensorInfoExposureTimeRange,
      ∃ x ∈ requestSetting env a' sensorExposureTime,
        i64At range.data 0 ≤ i64At x.payload 0 ∧ i64At x.payload 0 ≤ i64At range.data 1 := by
  obtain ⟨range, hrange, hr⟩ := hst
  have hout : exposureTimeOutcome cenv param.mExposureTime = .ok (i64Bytes [exposureTimeNs
      param.mExposureTime (i64At range.data 0) (i64At range.data 1)]) := by
    unfold exposureTimeOutcome
    rw [Option.mem_def] at hrange
    rw [hrange]
    dsimp only
    rw [if_neg (not_not.mpr hr)]
  refine ⟨range, hrange, _, h.written hm (show (settings cenv param)[4]? = some _ from rfl)
    hout, ?_⟩
  rw [i64At_i64Bytes rfl]
  exact exposureTimeNs_mem _ (hw.etRange range hrange)

/-- The pair written under the target range. -/
theorem Parametrized.fpsWritten {ranges : MetadataEntry}
    (hr : staticEntry cenv controlAeAvailableTargetFpsRanges = some ranges)
    (he : ranges.count % 2 = 0) (hc : 2 ≤ ranges.count) :
    requestSetting env a' controlAeTargetFpsRange =
      some ⟨controlAeTargetFpsRange, MetaType.int32.code, i32Bytes (fpsPair param.mFps ranges)⟩ := by
  have hout : fpsOutcome cenv param.mFps = .ok (i32Bytes (fpsPair param.mFps ranges)) := by
    unfold fpsOutcome
    rw [hr]
    dsimp only
    rw [if_neg (by omega)]
  exact h.written hm (show (settings cenv param)[1]? = some _ from rfl) hout

/-- The mode written for the stabilization. -/
theorem Parametrized.dvsWritten {modes : MetadataEntry}
    (hr : staticEntry cenv controlAvailableVideoStabilizationModes = some modes) :
    requestSetting env a' controlVideoStabilizationMode =
      some ⟨controlVideoStabilizationMode, MetaType.byte.code, [dvsMode param.mDvsMode modes]⟩ := by
  have hout : dvsOutcome cenv param.mDvsMode = .ok [dvsMode param.mDvsMode modes] := by
    unfold dvsOutcome
    rw [hr]
  exact h.written hm (show (settings cenv param)[2]? = some _ from rfl) hout

theorem Parametrized.aeWritten : requestSetting env a' controlAeMode =
    some ⟨controlAeMode, MetaType.byte.code, [aeModeCode param.mAeMode]⟩ :=
  h.written hm (show (settings cenv param)[3]? = some _ from rfl) rfl

theorem Parametrized.bandingWritten {modes : MetadataEntry}
    (hr : staticEntry cenv controlAeAvailableAntibandingModes = some modes) :
    requestSetting env a' controlAeAntibandingMode =
      some ⟨controlAeAntibandingMode, MetaType.byte.code, [bandingMode param.mBandingMode modes]⟩ := by
  have hout : bandingOutcome cenv param.mBandingMode = .ok [bandingMode param.mBandingMode modes] := by
    unfold bandingOutcome
    rw [hr]
  exact h.written hm (show (settings cenv param)[5]? = some _ from rfl) hout

end Values

/-- A setting of one byte is supported exactly if this byte is in the list. -/
theorem supported_iff {cenv : ConvertEnv} {values : ℕ → Option TypedEntry} {list tag type : ℕ}
    {b : UInt8} {modes : MetadataEntry} (hl : staticEntry cenv list = some modes)
    (hv : values tag = some ⟨tag, type, [b]⟩) :
    Supported cenv values list tag ↔ b ∈ modes.data.take modes.count := by
  unfold Supported
  simp [hl, hv]

/-- The mode written for the stabilization is in every list with `OFF`. -/
theorem dvsMode_mem {mode : CameraVideoStabilizationMode} {modes : MetadataEntry}
    (h : videoStabilizationModeCode .off ∈ modes.data.take modes.count) :
    dvsMode mode modes ∈ modes.data.take modes.count := by
  unfold dvsMode
  split_ifs with hon
  · exact any_eq_iff_mem.mp hon.1
  · exact h

/-- The antibanding mode written is in the list exactly if the one asked for or the fallback is. -/
theorem bandingMode_mem_iff {mode : CameraAntibandingMode} {modes : MetadataEntry} :
    bandingMode mode modes ∈ modes.data.take modes.count ↔
      antibandingModeCode mode ∈ modes.data.take modes.count ∨
        antibandingModeCode .auto ∈ modes.data.take modes.count := by
  unfold bandingMode
  split_ifs with hin
  · have hmem := any_eq_iff_mem.mp hin
    exact iff_of_true hmem (Or.inl hmem)
  · have hno := mt any_eq_iff_mem.mpr hin
    exact ⟨Or.inr, fun hor => hor.resolve_left hno⟩

/-- **The values written are the advertised ones exactly if** the AE mode asked for is supported, and
so is the antibanding mode asked for or its fallback `AUTO`. -/
theorem setParameters_advertised_iff (hs : env.staticMetadata = some staticMeta)
    (h : MapSettings env 6 a) (hw : WellStated (convertEnv env staticMeta)) (param : Parameters)
    (hok : AllConverted (convertEnv env staticMeta) param (a.heap, a.owner)) :
    (∃ st a', setParameters env a param = some (st, a') ∧
        Advertised (convertEnv env staticMeta) (requestSetting env a')) ↔
      ModesStated (convertEnv env staticMeta) param := by
  have hno : ¬ AeTraps (convertEnv env staticMeta) param.mEv := by
    intro htrap
    obtain ⟨r, hr, -⟩ := hok
    rw [(setParameters_traps hs h.writable.buffer htrap).1] at hr
    cases hr
  obtain ⟨-, st, a', -, hsp, -, -, hpar⟩ :=
    setParameters_spec (k := 0) hs hno h.malloc h.writable h.room
  have hm := h.mapped
  have hret : (∃ st a', setParameters env a param = some (st, a') ∧
      Advertised (convertEnv env staticMeta) (requestSetting env a')) ↔
      Advertised (convertEnv env staticMeta) (requestSetting env a') := by
    rw [hsp]
    refine ⟨?_, fun hadv => ⟨st, a', rfl, hadv⟩⟩
    rintro ⟨_, _, he, hadv⟩
    obtain ⟨-, rfl⟩ := Prod.mk.inj (Option.some.inj he)
    exact hadv
  rw [hret]
  -- all six settings were worked out, so the static metadata has the entries they need
  obtain ⟨hae, ⟨ranges, hranges, heven, htwo⟩, -, het, -⟩ := (allConverted_iff hs hno h.toStocked).mp hok
  obtain ⟨modes, hmodes, -⟩ := hw.ae
  obtain ⟨bands, hbands, -⟩ := hw.banding
  obtain ⟨stabs, hstabs, hoff⟩ := hw.dvs
  rw [Option.mem_def] at hmodes hbands hstabs hranges
  have hmode := supported_iff hmodes (hpar.aeWritten hm)
  have hband := supported_iff hbands (hpar.bandingWritten hm hbands)
  rw [bandingMode_mem_iff] at hband
  constructor
  · intro hadv
    exact ⟨⟨modes, hmodes, hmode.mp hadv.ae⟩, ⟨bands, hbands, hband.mp hadv.banding⟩⟩
  · rintro ⟨⟨modes', hmodes', hin⟩, ⟨bands', hbands', hin'⟩⟩
    rw [Option.mem_def, hmodes] at hmodes'
    rw [Option.mem_def, hbands] at hbands'
    obtain rfl := Option.some.inj hmodes'
    obtain rfl := Option.some.inj hbands'
    refine ⟨hpar.aeComp hm hno hae hw, ?_, hpar.exposureTime hm het hw, ?_, hmode.mpr hin,
      hband.mpr hin'⟩
    · obtain ⟨i, hi, hpair⟩ := fpsPair_mem param.mFps htwo
      refine ⟨ranges, hranges, _, hpar.fpsWritten hm hranges heven htwo, i, hi, ?_⟩
      rw [hpair]
      exact ⟨i32At_i32Bytes rfl, i32At_i32Bytes rfl⟩
    · exact (supported_iff hstabs (hpar.dvsWritten hm hstabs)).mpr (dvsMode_mem hoff)

theorem demoStatic_wellStated :
    WellStated (convertEnv (demoParameterEnv demoStatic) (demoPacket demoStatic)) := by
  refine ⟨fun r hr => ?_, fun r hr => ?_, ⟨_, rfl, by decide⟩, ⟨_, rfl, by decide⟩,
    ⟨_, rfl, by decide⟩, ⟨_, rfl, by decide⟩⟩
  · obtain rfl := Option.some.inj hr
    decide
  · obtain rfl := Option.some.inj hr
    decide

theorem setParameters_advertised_iff_demo :
    WellStated (convertEnv (demoParameterEnv demoStatic) (demoPacket demoStatic)) ∧
      ∃ st a', setParameters (demoParameterEnv demoStatic) demoAdapter {} = some (st, a') ∧
        Advertised (convertEnv (demoParameterEnv demoStatic) (demoPacket demoStatic))
          (requestSetting (demoParameterEnv demoStatic) a') := by
  refine ⟨demoStatic_wellStated, (setParameters_advertised_iff rfl
    (demoAdapter_mapSettings _ (by norm_num)) demoStatic_wellStated {} (by decide)).mpr ⟨?_, ?_⟩⟩
  · exact ⟨_, rfl, by decide⟩
  · exact ⟨_, rfl, by decide⟩

/-- A camera without the AE mode `OFF`. -/
def demoAutoOnly : List (ℕ × List UInt8 × ℕ) :=
  demoStatic.map fun x => if x.1 = controlAeAvailableModes then (x.1, [1], 1) else x

/-- The manual mode is written as `OFF`, whether the camera has it or not. -/
theorem setParameters_not_advertised : ¬ ∀ (env : Env) (a : Adapter) (staticMeta : Metadata)
    (param : Parameters), env.staticMetadata = some staticMeta → MapSettings env 6 a →
    WellStated (convertEnv env staticMeta) →
    AllConverted (convertEnv env staticMeta) param (a.heap, a.owner) →
    ∃ st a', setParameters env a param = some (st, a') ∧
      Advertised (convertEnv env staticMeta) (requestSetting env a') := by
  intro h
  have hw : WellStated (convertEnv (demoParameterEnv demoAutoOnly) (demoPacket demoAutoOnly)) := by
    refine ⟨fun r hr => ?_, fun r hr => ?_, ⟨_, rfl, by decide⟩, ⟨_, rfl, by decide⟩,
      ⟨_, rfl, by decide⟩, ⟨_, rfl, by decide⟩⟩
    · obtain rfl := Option.some.inj hr
      decide
    · obtain rfl := Option.some.inj hr
      decide
  obtain ⟨st, a', hsp, hadv⟩ := h (demoParameterEnv demoAutoOnly) demoAdapter _
    { mAeMode := .manual } rfl (demoAdapter_mapSettings _ (by norm_num)) hw (by decide)
  obtain ⟨-, rfl⟩ := Prod.mk.inj (Option.some.inj hsp)
  obtain ⟨modes, hmodes, x, hx, b, hb, hin⟩ := hadv.ae
  obtain rfl := Option.some.inj hmodes
  obtain rfl := Option.some.inj hx
  obtain rfl := (List.cons.inj hb).1
  exact absurd hin (by decide)

end Adapter

end IntelCamera
