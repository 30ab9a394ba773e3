import IntelCamera.Adapter.Advertised
import IntelCamera.Lib.Runs

/-!
# Adapter.OperationMode — the operation mode against the request settings

`setParameters` puts the frame rate and the video stabilization into the request settings, through the
conversions that consult the static metadata, and into `mOperationMode`, straight from the parameters.
The two agree as long as the camera supports what the parameters ask for.

A run is a sequence of `setParameters` calls; beside the adapter it keeps the frame rate of the last
call that was not refused.  It ends with a call that ends the process.
-/

namespace IntelCamera

open Lib ParameterAdapter

namespace Adapter

/-- One call, and the frame rate requested last. -/
def setParametersStep (env : Env) (s : Adapter × Int32) (param : Parameters) :
    Option (Adapter × Int32) :=
  (setParameters env s.1 param).map fun set =>
    (set.2, if s.1.mRequestSettings.isSome ∧ env.staticMetadata.isSome then param.mFps else s.2)

/-- The request settings have the video stabilization on. -/
def Stabilized (env : Env) (a : Adapter) : Prop :=
  ∃ x ∈ requestSetting env a controlVideoStabilizationMode,
    x.payload.head? = some (videoStabilizationModeCode .on)

/-- The operation mode agrees with the request settings: `OP_MODE_DVS` with the stabilization mode,
and one of the bits `OP_MODE_30_FPS` … `OP_MODE_120_FPS` with the target range. -/
structure ModeAgrees (env : Env) (s : Adapter × Int32) : Prop where
  dvs : s.1.mOperationMode.testBit 8 = true ↔ Stabilized env s.1
  fps : (∃ b < 4, s.1.mOperationMode.testBit b = true) →
    ∃ x ∈ requestSetting env s.1 controlAeTargetFpsRange,
      i32At x.payload 0 ≤ s.2 ∧ s.2 ≤ i32At x.payload 1

/-- An adapter right after `open`, its default settings without stabilization. -/
structure JustOpened (env : Env) (s : Adapter × Int32) : Prop where
  settings : MapSettings env 0 s.1
  mode : s.1.mOperationMode = 0
  off : ¬ Stabilized env s.1

/-- The range at the index `j` contains the frame rate. -/
def RangeContains (ranges : List UInt8) (fps : Int32) (j : ℕ) : Prop :=
  i32At ranges j ≤ fps ∧ fps ≤ i32At ranges (j + 1)

/-- The camera supports the stabilization asked for; where it states nothing about it, the settings
have it as asked for already. -/
def DvsSupported (env : Env) (a : Adapter) (cenv : ConvertEnv) (param : Parameters) : Prop :=
  match staticEntry cenv controlAvailableVideoStabilizationModes with
  | some modes => param.mDvsMode = .on →
      videoStabilizationModeCode .on ∈ modes.data.take modes.count
  | none => param.mDvsMode = .on ↔ Stabilized env a

/-- A frame rate with an operation mode of its own lies in one of the ranges the camera states. -/
def FpsSupported (cenv : ConvertEnv) (param : Parameters) : Prop :=
  ∀ ranges ∈ staticEntry cenv controlAeAvailableTargetFpsRanges, ranges.count % 2 = 0 →
    2 ≤ ranges.count → fpsMode param.mFps ≠ 0 →
    ∃ i < ranges.count / 2, RangeContains ranges.data param.mFps (2 * i)

/-- The allocations of the call succeed, and the camera supports what the parameters ask for. -/
def supported (env : Env) (s : Adapter × Int32) (param : Parameters) : Prop :=
  Room 6 (s.1.heap, s.1.owner) ∧ ∀ staticMeta, env.staticMetadata = some staticMeta →
    DvsSupported env s.1 (convertEnv env staticMeta) param ∧
      FpsSupported (convertEnv env staticMeta) param

/-! ### The two paths -/

/-- A range that fits is found if there is one. -/
theorem fpsIndex_contains {fps : Int32} {ranges : List UInt8} {is : List ℕ} {index : Option ℕ}
    (hi : ∀ j, index = some j → RangeContains ranges fps j)
    (he : index.isSome ∨ ∃ i ∈ is, RangeContains ranges fps (2 * i)) :
    ∃ j, fpsIndex fps ranges index is = some j ∧ RangeContains ranges fps j := by
  induction is generalizing index with
  | nil =>
    rcases he with he | ⟨i, hi', -⟩
    · obtain ⟨j, hj⟩ := Option.isSome_iff_exists.mp he
      exact ⟨j, hj, hi j hj⟩
    · cases hi'
  | cons i is ih =>
    unfold fpsIndex
    dsimp only
    split_ifs with hfix hvar
    · refine ⟨2 * i, rfl, ?_, ?_⟩
      · rw [← hfix.1]
        exact Int32.le_refl fps
      · rw [← hfix.2]
        exact Int32.le_refl fps
    · refine ih (fun j hj => ?_) (Or.inl rfl)
      obtain rfl := Option.some.inj hj
      exact hvar
    · refine ih hi ?_
      rcases he with he | ⟨i', hi', hc⟩
      · exact Or.inl he
      · rcases List.mem_cons.mp hi' with rfl | hi'
        · exact absurd hc hvar
        · exact Or.inr ⟨i', hi', hc⟩

theorem fpsPair_contains {fps : Int32} {ranges : MetadataEntry} {i : ℕ} (hi : i < ranges.count / 2)
    (hc : RangeContains ranges.data fps (2 * i)) :
    RangeContains (i32Bytes (fpsPair fps ranges)) fps 0 := by
  have hnone : ∀ j, (none : Option ℕ) = some j → RangeContains ranges.data fps j :=
    fun _ h => by cases h
  obtain ⟨j, hj, hjc⟩ := fpsIndex_contains hnone (Or.inr ⟨i, List.mem_range.mpr hi, hc⟩)
  unfold RangeContains fpsPair
  rw [hj, i32At_i32Bytes rfl, i32At_i32Bytes rfl]
  exact hjc

theorem fpsMode_cases (fps : Int32) :
    fpsMode fps = 0 ∨ fpsMode fps = 1 ∨ fpsMode fps = 2 ∨ fpsMode fps = 4 ∨ fpsMode fps = 8 := by
  unfold fpsMode
  split_ifs <;> simp

/-- The frame rate bits and the stabilization bit do not meet. -/
theorem mode_testBit {m : ℕ} (hm : m = 0 ∨ m = 1 ∨ m = 2 ∨ m = 4 ∨ m = 8) (on : Prop) [Decidable on] :
    ((m + if on then opModeDvs else 0).testBit 8 = true ↔ on) ∧
      ((∃ b < 4, (m + if on then opModeDvs else 0).testBit b = true) → m ≠ 0) := by
  by_cases hon : on
  · rw [if_pos hon]
    refine ⟨iff_of_true ?_ hon, ?_⟩
    · rcases hm with rfl | rfl | rfl | rfl | rfl <;> decide
    · rintro ⟨b, hb, ht⟩ rfl
      interval_cases b <;> exact absurd ht (by decide)
  · rw [if_neg hon]
    refine ⟨iff_of_false ?_ hon, ?_⟩
    · rcases hm with rfl | rfl | rfl | rfl | rfl <;> decide
    · rintro ⟨b, hb, ht⟩ rfl
      interval_cases b <;> exact absurd ht (by decide)

section Call

variable {env : Env} {a a' : Adapter} {cenv : ConvertEnv} {param : Parameters} {k : ℕ}
  (h : Parametrized env k a cenv param a') (hm : Mapped env.vendorOps (a.heap, a.owner))

include h hm

theorem Parametrized.stabilized_iff (hs : DvsSupported env a cenv param) :
    Stabilized env a' ↔ param.mDvsMode = .on := by
  unfold DvsSupported at hs
  cases hl : staticEntry cenv controlAvailableVideoStabilizationModes with
  | none =>
    rw [hl] at hs
    dsimp only at hs
    have hout : ¬ (dvsOutcome cenv param.mDvsMode).isOk := by
      rw [dvsOutcome_isOk]
      unfold DvsStated
      rw [hl]
      exact Bool.false_ne_true
    have hkept := h.kept hm (List.mem_of_getElem? (show (settings cenv param)[2]? = some _ from rfl)) hout
    rw [hs]
    unfold Stabilized
    rw [hkept]
  | some modes =>
    rw [hl] at hs
    dsimp only at hs
    have hval := h.dvsWritten hm hl
    unfold Stabilized
    rw [hval]
    simp only [Option.mem_def, Option.some.injEq, exists_eq_left', List.head?_cons]
    unfold dvsMode
    by_cases hon : param.mDvsMode = .on
    · rw [if_pos ⟨any_eq_iff_mem.mpr (hs hon), hon⟩]
      exact iff_of_true rfl hon
    · rw [if_neg fun hc => hon hc.2]
      exact iff_of_false (by decide) hon

/-- **One call under `supported`** leaves the mode and the settings in agreement. -/
theorem Parametrized.modeAgrees (hd : DvsSupported env a cenv param) (hf : FpsSupported cenv param) :
    ModeAgrees env (a', param.mFps) := by
  have hcases : ∀ c : Bool, (if c then fpsMode param.mFps else 0) = 0 ∨
      (if c then fpsMode param.mFps else 0) = 1 ∨ (if c then fpsMode param.mFps else 0) = 2 ∨
      (if c then fpsMode param.mFps else 0) = 4 ∨ (if c then fpsMode param.mFps else 0) = 8 := by
    intro c
    cases c with
    | true => exact fpsMode_cases param.mFps
    | false => exact Or.inl rfl
  obtain ⟨hbit, hclass⟩ := mode_testBit (hcases (fpsOutcome cenv param.mFps).isOk)
    (param.mDvsMode = .on)
  refine ⟨?_, fun hb => ?_⟩
  · dsimp only
    rw [h.mode, hbit, h.stabilized_iff hm hd]
  · dsimp only at hb ⊢
    rw [h.mode] at hb
    have hne := hclass hb
    rw [ite_ne_right_iff] at hne
    obtain ⟨hok, hmode⟩ := hne
    obtain ⟨ranges, hr, heven, htwo⟩ := (fpsOutcome_isOk _).mp hok
    obtain ⟨i, hi, hc⟩ := hf ranges hr heven htwo hmode
    exact ⟨_, h.fpsWritten hm hr heven htwo, fpsPair_contains hi hc⟩

end Call

/-! ### Every run -/

section Runs

variable {env : Env}

variable (env) in
/-- The invariant of the runs: the settings can be written and are a map, and the mode agrees. -/
structure ModeInv (s : Adapter × Int32) : Prop where
  malloc : ∀ n, (env.libc.malloc n).isSome
  writable : Writable env.vendorOps (s.1.heap, s.1.owner)
  mapped : Mapped env.vendorOps (s.1.heap, s.1.owner)
  agrees : ModeAgrees env s

variable {s s' : Adapter × Int32}

theorem ModeInv.start (hs : JustOpened env s) : ModeInv env s := by
  refine ⟨hs.settings.malloc, hs.settings.writable, hs.settings.mapped, ?_, ?_⟩
  · rw [hs.mode]
    exact iff_of_false (by decide) hs.off
  · rintro ⟨b, hb, ht⟩
    rw [hs.mode, Nat.zero_testBit] at ht
    cases ht

/-- **One call under `supported`** keeps the invariant. -/
theorem ModeInv.step (hI : ModeInv env s) {param : Parameters} (ha : supported env s param)
    (h : setParametersStep env s param = some s') : ModeInv env s' := by
  obtain ⟨⟨st, a⟩, hset, rfl⟩ := Option.map_eq_some_iff.mp h
  have hbuf : s.1.mRequestSettings.isSome := hI.writable.buffer
  cases hstat : env.staticMetadata with
  | none =>
    -- the call is refused
    rw [setParameters_of_no_static hstat] at hset
    obtain ⟨-, rfl⟩ := Prod.mk.inj (Option.some.inj hset)
    rw [if_neg fun hc => by cases hc.2]
    exact hI
  | some staticMeta =>
    obtain ⟨hd, hf⟩ := ha.2 staticMeta hstat
    have hno : ¬ AeTraps (convertEnv env staticMeta) param.mEv := by
      intro htrap
      rw [(setParameters_traps hstat hbuf htrap).2] at hset
      cases hset
    obtain ⟨-, st', a', -, hset', -, -, hpar⟩ :=
      setParameters_spec (k := 0) hstat hno hI.malloc hI.writable ha.1
    rw [hset] at hset'
    obtain ⟨-, rfl⟩ := Prod.mk.inj (Option.some.inj hset')
    rw [if_pos ⟨hbuf, rfl⟩]
    exact ⟨hI.malloc, hpar.writable, (hpar.mapped hI.mapped).1, hpar.modeAgrees hI.mapped hd hf⟩

/-- **The operation mode agrees with the request settings** after every sequence of calls under
`supported` on a newly opened adapter. -/
theorem modeAgrees_of_supported {s : Adapter × Int32}
    (h : Reach (setParametersStep env) (supported env) (JustOpened env) s) : ModeAgrees env s := by
  have hinv : ModeInv env s := by
    refine h.invariant (fun s hs => ModeInv.start hs) ?_
    intro s param s' _ hI ha hstep
    exact hI.step ha hstep
  exact hinv.agrees

theorem demoAdapter_justOpened (l : List (ℕ × List UInt8 × ℕ)) (fps : Int32) :
    JustOpened (demoParameterEnv l) (demoAdapter, fps) := by
  refine ⟨demoAdapter_mapSettings l (Nat.zero_le _), rfl, ?_⟩
  rintro ⟨x, hx, -⟩
  cases hx

/-- A camera that also has 60 frames a second. -/
def demoRates : List (ℕ × List UInt8 × ℕ) :=
  demoStatic.map fun x =>
    if x.1 = controlAeAvailableTargetFpsRanges then (x.1, i32Bytes [15, 30, 60, 60], 4) else x

/-- The adapter after a call that turns the stabilization on, at 30 frames a second. -/
def demoStabilized : Adapter :=
  ((setParameters (demoParameterEnv demoRates) demoAdapter { mDvsMode := .on, mFps := 30 }).getD
    (.ok, demoAdapter)).2

/-- The stabilization is turned off again, and the rate goes up: both bits change. -/
theorem modeAgrees_of_supported_demo :
    demoStabilized.mOperationMode = 257 ∧
    ∃ a, setParametersStep (demoParameterEnv demoRates) (demoStabilized, 30) { mFps := 60 } =
      some (a, 60) ∧ a.mOperationMode = 2 ∧ ModeAgrees (demoParameterEnv demoRates) (a, 60) := by
  have hfirst : Reach (setParametersStep (demoParameterEnv demoRates))
      (supported (demoParameterEnv demoRates)) (JustOpened (demoParameterEnv demoRates))
      (demoStabilized, 30) := by
    refine .step (a := { mDvsMode := .on, mFps := 30 })
      (.init (demoAdapter_justOpened demoRates 0)) ⟨?_, fun staticMeta hs => ?_⟩ rfl
    · exact (demoAdapter_mapSettings demoRates (by norm_num)).room
    · obtain rfl := Option.some.inj hs
      refine ⟨fun _ => by decide, fun ranges hr _ _ _ => ?_⟩
      obtain rfl := Option.some.inj hr
      exact ⟨0, by decide, by unfold RangeContains; decide⟩
  have hroom : Room 6 (demoStabilized.heap, demoStabilized.owner) := by
    unfold Room
    decide
  refine ⟨by decide, _, rfl, by decide, modeAgrees_of_supported (.step (a := { mFps := 60 }) hfirst
    ⟨hroom, fun staticMeta hs => ?_⟩ rfl)⟩
  obtain rfl := Option.some.inj hs
  refine ⟨fun _ => by decide, fun ranges hr _ _ _ => ?_⟩
  obtain rfl := Option.some.inj hr
  exact ⟨1, by decide, by unfold RangeContains; decide⟩

/-- A camera that has the stabilization mode `OFF` only, asked for `ON`. -/
theorem not_modeAgrees : ¬ ∀ (env : Env) (s : Adapter × Int32),
    Reach (setParametersStep env) (fun s _ => Room 6 (s.1.heap, s.1.owner)) (JustOpened env) s →
      ModeAgrees env s := by
  intro h
  have hag := h (demoParameterEnv [(controlAvailableVideoStabilizationModes, [0], 1)]) _
    (.step (a := { mDvsMode := .on }) (.init (demoAdapter_justOpened _ 0))
      (demoAdapter_mapSettings [] (by norm_num)).room rfl)
  obtain ⟨x, hx, hon⟩ := hag.dvs.mp (by decide)
  obtain rfl := Option.some.inj hx
  exact absurd hon (by decide)

end Runs

end Adapter

end IntelCamera
