import IntelCamera.Adapter.Code
import IntelCamera.Conversions

/-!
# Adapter.Parameters — what `setParameters` does to the request settings

`setParameters` lends the packet of the request settings to a `CameraMetadata`, runs the six
conversions on it and takes the packet back, which may be another one by then.  `conversions` is the
chain of the six calls, with all their statuses; `setParameters_eq` says how the method puts its own
status, the new settings and the operation mode together from it.  The process may end in the first
conversion (`AeTraps`); then there is neither a status nor an adapter.

The settings are well-typed entries in a live packet, and the packets asked for exist (`Stocked`).
With distinct tags and a truthful sort flag (`MapSettings`) they are a finite map, and the results
below are about this map as `find_camera_metadata_entry` reads it.
-/

namespace IntelCamera

open Lib ParameterAdapter

namespace Adapter

/-- The owner of the request settings during `setParameters`. -/
def owner (a : Adapter) : CameraMetadata := ⟨a.mRequestSettings, false⟩

/-- What `find_camera_metadata_entry` reads from the request settings. -/
def requestSetting (env : Env) (a : Adapter) (tag : ℕ) : Option TypedEntry :=
  (a.owner.find env.libc a.heap tag).map MetadataEntry.typed

/-- The six calls of `setParameters`, with their statuses; none if the process ends in the first. -/
def conversions (cenv : ConvertEnv) (param : Parameters) (out : Heap × CameraMetadata) :
    Option (List Status × Heap × CameraMetadata) :=
  (convertAeComp cenv param.mEv out).map fun ev =>
    let fps := convertFps cenv param.mFps ev.2
    let dvs := convertDvs cenv param.mDvsMode fps.2
    let ae := convertAeMode cenv param.mAeMode dvs.2
    let et := convertExposureTime cenv param.mExposureTime ae.2
    let banding := convertBandingMode cenv param.mBandingMode et.2
    ([ev.1, fps.1, dvs.1, ae.1, et.1, banding.1], banding.2)

/-- All six conversions return `OK`. -/
def AllConverted (cenv : ConvertEnv) (param : Parameters) (out : Heap × CameraMetadata) : Prop :=
  ∃ r ∈ conversions cenv param out, ∀ st ∈ r.1, st = .ok

instance (cenv : ConvertEnv) (param : Parameters) (out : Heap × CameraMetadata) :
    Decidable (AllConverted cenv param out) :=
  inferInstanceAs (Decidable (∃ r ∈ conversions cenv param out, ∀ st ∈ r.1, st = .ok))

theorem conversions_eq {cenv : ConvertEnv} {param : Parameters} (h : ¬ AeTraps cenv param.mEv)
    (out : Heap × CameraMetadata) :
    conversions cenv param out = some (runAll cenv (settings cenv param) out) := by
  unfold conversions
  rw [(convertAeComp_eq cenv param.mEv out).2 h, convertFps_eq, convertDvs_eq, convertExposureTime_eq,
    convertBandingMode_eq]
  rfl

/-- What the conversions of `setParameters` are given. -/
def convertEnv (env : Env) (staticMeta : Metadata) : ConvertEnv :=
  ⟨env.libc, env.vendorOps, staticMeta⟩

section Parts

variable {env : Env} {a : Adapter} {staticMeta : Metadata} {param : Parameters}
  (hs : env.staticMetadata = some staticMeta) (ha : a.mRequestSettings.isSome)

include hs ha

/-- The parts of `setParameters`: the status of the last conversion, the settings the conversions
leave, and the operation mode. -/
theorem setParameters_eq (h : ¬ AeTraps (convertEnv env staticMeta) param.mEv) :
    ∃ st₁ fps st₃ st₄ st₅ banding out,
      conversions (convertEnv env staticMeta) param (a.heap, a.owner) =
        some ([st₁, fps, st₃, st₄, st₅, banding], out) ∧
      setParameters env a param = some (banding,
        { a with
          heap := out.1
          mRequestSettings := out.2.release.1
          mOperationMode := (if fps = .ok then fpsMode param.mFps else 0) +
            if param.mDvsMode = .on then opModeDvs else 0 }) := by
  obtain ⟨p, hp⟩ := Option.isSome_iff_exists.mp ha
  have hae := (convertAeComp_eq (convertEnv env staticMeta) param.mEv (a.heap, a.owner)).2 h
  unfold conversions setParameters
  rw [hae, hs, hp]
  refine ⟨_, _, _, _, _, _, _, rfl, ?_⟩
  unfold owner at hae
  rw [hp] at hae
  dsimp only
  rw [owner, hp]
  exact congrArg (Option.map _) hae

/-- **The process ends** in `setParameters` if the division of the first conversion traps. -/
theorem setParameters_traps (h : AeTraps (convertEnv env staticMeta) param.mEv) :
    conversions (convertEnv env staticMeta) param (a.heap, a.owner) = none ∧
      setParameters env a param = none := by
  obtain ⟨p, hp⟩ := Option.isSome_iff_exists.mp ha
  have hae := (convertAeComp_eq (convertEnv env staticMeta) param.mEv (a.heap, a.owner)).1 h
  refine ⟨by unfold conversions; rw [hae]; rfl, ?_⟩
  unfold owner at hae
  unfold setParameters
  rw [hs, hp]
  rw [hp] at hae
  exact congrArg (Option.map _) hae

end Parts

/-! ### Well-formed settings -/

/-- The settings are a packet built by the metadata operations, and the allocations of `k` more
updates succeed. -/
structure Stocked (env : Env) (k : ℕ) (a : Adapter) : Prop where
  malloc : ∀ n, (env.libc.malloc n).isSome
  packet : ∃ p m, a.mRequestSettings = some p ∧ a.heap.get p = some m ∧
    Built env.libc env.vendorOps sized m
  room : Room k (a.heap, a.owner)

/-- Furthermore, their tags are distinct, and ascend if `FLAG_SORTED` is set. -/
structure MapSettings (env : Env) (k : ℕ) (a : Adapter) : Prop extends Stocked env k a where
  unique : ∀ m, a.owner.packet a.heap = some m → (m.entries.map (·.tag)).Nodup
  sorted : ∀ m, a.owner.packet a.heap = some m → SortedOk m

variable {env : Env} {a : Adapter} {k : ℕ} {staticMeta : Metadata}

theorem Stocked.writable (h : Stocked env k a) : Writable env.vendorOps (a.heap, a.owner) := by
  obtain ⟨p, m, hp, hm, hb⟩ := h.packet
  refine ⟨⟨rfl, fun q hq => ?_⟩, by rw [owner, hp]; rfl⟩
  have hq' : a.mRequestSettings = some q := hq
  rw [hp] at hq'
  obtain rfl := Option.some.inj hq'
  exact ⟨m, hm, hb.isTyped⟩

theorem MapSettings.mapped (h : MapSettings env k a) : Mapped env.vendorOps (a.heap, a.owner) := by
  refine ⟨rfl, fun p hp => ?_⟩
  obtain ⟨m, hm, ht⟩ := h.writable.holds.packet p hp
  have hpk : a.owner.packet a.heap = some m := CameraMetadata.packet_of_get hp hm
  exact ⟨m, hm, ⟨ht, h.sorted m hpk, by rw [abs_tags]; exact h.unique m hpk⟩⟩

/-- On a finite map the search reads the map. -/
theorem requestSetting_eq (h : Mapped env.vendorOps (a.heap, a.owner)) :
    requestSetting env a = a.owner.values a.heap := by
  funext tag
  unfold requestSetting CameraMetadata.find CameraMetadata.values
  cases hp : a.owner.packet a.heap with
  | none => rfl
  | some m =>
    obtain ⟨p, hb, hm⟩ := Option.bind_eq_some_iff.mp hp
    exact (h.of_get hb hm).find_eq tag

/-! ### The run of the conversions -/

/-- What `setParameters` leaves, on settings with room for `k + 6` updates. -/
structure Parametrized (env : Env) (k : ℕ) (a : Adapter) (cenv : ConvertEnv) (param : Parameters)
    (a' : Adapter) : Prop where
  writable : Writable env.vendorOps (a'.heap, a'.owner)
  room : Room k (a'.heap, a'.owner)
  mapped : Mapped env.vendorOps (a.heap, a.owner) → Mapped env.vendorOps (a'.heap, a'.owner) ∧
    requestSetting env a' = (settings cenv param).foldl Setting.apply (requestSetting env a)
  mode : a'.mOperationMode = (if (fpsOutcome cenv param.mFps).isOk then fpsMode param.mFps else 0) +
    if param.mDvsMode = .on then opModeDvs else 0

/-- **One call of `setParameters`** whose division does not trap, with the statuses of the
conversions. -/
theorem setParameters_spec (hs : env.staticMetadata = some staticMeta) {param : Parameters}
    (hno : ¬ AeTraps (convertEnv env staticMeta) param.mEv)
    (hmalloc : ∀ n, (env.libc.malloc n).isSome) (hw : Writable env.vendorOps (a.heap, a.owner))
    (hr : Room (k + 6) (a.heap, a.owner)) :
    ∃ r st a', conversions (convertEnv env staticMeta) param (a.heap, a.owner) = some r ∧
      setParameters env a param = some (st, a') ∧
      r.1.map (fun st => decide (st = Status.ok)) =
        (settings (convertEnv env staticMeta) param).map (fun s => s.outcome.isOk) ∧
      (st = .ok ↔ (bandingOutcome (convertEnv env staticMeta) param.mBandingMode).isOk) ∧
      Parametrized env k a (convertEnv env staticMeta) param a' := by
  set cenv := convertEnv env staticMeta with hcenv
  obtain ⟨st₁, fps, st₃, st₄, st₅, banding, out, hc, he⟩ := setParameters_eq hs hw.buffer hno
  rw [← hcenv] at hc
  obtain ⟨h1, h2, h3, h4⟩ := runAll_spec cenv hmalloc (settings_proper env.vendorOps param)
    hw (k := k) hr
  have hrun := (conversions_eq hno (a.heap, a.owner)).symm.trans hc
  rw [Option.some.inj hrun] at h1 h2 h3 h4
  refine ⟨_, _, _, hc, he, h1, ?_, ?_⟩
  -- the status list, read at the last and at the second place
  · simp only [settings, List.map_cons, List.map_nil, List.cons.injEq, and_true] at h1
    rw [← h1.2.2.2.2.2, decide_eq_true_iff]
  have howner : out.2 = ⟨out.2.release.1, false⟩ := by
    have hl := h2.holds.unlocked
    unfold CameraMetadata.release
    rw [if_neg (by rw [hl]; exact Bool.false_ne_true), ← hl]
  have hout : ((out.1, (⟨out.2.release.1, false⟩ : CameraMetadata)) : Heap × CameraMetadata) = out := by
    rw [← howner]
  refine ⟨by rw [← hout] at h2; exact h2, by rw [← hout] at h3; exact h3, fun hm => ?_, ?_⟩
  · obtain ⟨m1, m2⟩ := h4 hm
    rw [← hout] at m1 m2
    refine ⟨m1, ?_⟩
    rw [requestSetting_eq m1, requestSetting_eq hm]
    exact m2
  · dsimp only
    simp only [settings, List.map_cons, List.map_nil, List.cons.injEq, and_true] at h1
    rw [← h1.2.1]
    simp only [decide_eq_true_eq]

/-! ### The status -/

theorem forall_ok_iff {l : List Status} {bs : List Bool}
    (h : l.map (fun st => decide (st = Status.ok)) = bs) :
    (∀ st ∈ l, st = .ok) ↔ ∀ b ∈ bs, b = true := by
  subst h
  simp

/-- All six conversions return `OK` exactly if everything they look for is stated. -/
theorem allConverted_iff (hs : env.staticMetadata = some staticMeta) {param : Parameters}
    (hno : ¬ AeTraps (convertEnv env staticMeta) param.mEv) (h : Stocked env 6 a) :
    AllConverted (convertEnv env staticMeta) param (a.heap, a.owner) ↔
      AeCompStated (convertEnv env staticMeta) ∧ FpsStated (convertEnv env staticMeta) ∧
        DvsStated (convertEnv env staticMeta) ∧ ExposureTimeStated (convertEnv env staticMeta) ∧
        BandingStated (convertEnv env staticMeta) := by
  obtain ⟨r, st, a', hc, -, h1, -, -⟩ := setParameters_spec (k := 0) hs hno h.malloc h.writable h.room
  unfold AllConverted
  rw [hc]
  simp only [Option.mem_def, Option.some.injEq, exists_eq_left']
  rw [forall_ok_iff h1]
  unfold settings
  simp only [List.map_cons, List.map_nil, List.forall_mem_cons, List.not_mem_nil, false_implies,
    implies_true, and_true]
  rw [aeCompOutcome_isOk, fpsOutcome_isOk, dvsOutcome_isOk, exposureTimeOutcome_isOk,
    bandingOutcome_isOk, show (Except.ok [aeModeCode param.mAeMode] : Outcome).isOk = true from rfl]
  tauto

/-- **The status of `setParameters` is that of all six conversions exactly if** the process ends, the
antibanding modes are not stated or everything else the conversions look for is: only the last status is
returned. -/
theorem setParameters_reports_iff (hs : env.staticMetadata = some staticMeta) (h : Stocked env 6 a)
    (param : Parameters) :
    ((∃ a', setParameters env a param = some (.ok, a')) ↔
        AllConverted (convertEnv env staticMeta) param (a.heap, a.owner)) ↔
      (¬ AeTraps (convertEnv env staticMeta) param.mEv → BandingStated (convertEnv env staticMeta) →
        AeCompStated (convertEnv env staticMeta) ∧ FpsStated (convertEnv env staticMeta) ∧
        DvsStated (convertEnv env staticMeta) ∧ ExposureTimeStated (convertEnv env staticMeta)) := by
  by_cases htrap : AeTraps (convertEnv env staticMeta) param.mEv
  · obtain ⟨hc, hsp⟩ := setParameters_traps hs h.writable.buffer htrap
    refine iff_of_true (iff_of_false ?_ ?_) fun hno => absurd htrap hno
    · rintro ⟨a', ha'⟩
      rw [hsp] at ha'
      cases ha'
    · rintro ⟨r, hr, -⟩
      rw [hc] at hr
      cases hr
  · rw [allConverted_iff hs htrap h]
    obtain ⟨r, st, a', -, hsp, -, hst, -⟩ :=
      setParameters_spec (k := 0) hs htrap h.malloc h.writable h.room
    rw [bandingOutcome_isOk] at hst
    have hret : (∃ a', setParameters env a param = some (.ok, a')) ↔ st = .ok := by
      rw [hsp]
      exact ⟨fun ⟨b, hb⟩ => congrArg Prod.fst (Option.some.inj hb), fun he => ⟨a', by rw [he]⟩⟩
    rw [hret, hst]
    tauto

/-- A packet with the given entries. -/
def demoPacket (l : List (ℕ × List UInt8 × ℕ)) : Metadata :=
  l.foldl (fun m x => (addCameraMetadataEntry none m x.1 (some x.2.1) x.2.2).2)
    ((allocateCameraMetadata referenceLibc 8 64).getD ⟨0, 0, 0, 0, 0, 0, 0, 0, [], []⟩)

/-- An adapter with empty request settings. -/
def demoAdapter : Adapter :=
  { client := fun _ => ⟨0, 0, 0, 0, 0, 0, 0⟩
    heap := Store.empty.alloc (demoPacket [])
    mRequestSettings := some 0 }

/-- The environment of a camera with the given static metadata. -/
def demoParameterEnv (l : List (ℕ × List UInt8 × ℕ)) : Env :=
  ⟨referenceLibc, none, some (demoPacket l), fun _ => 0⟩

/-- Static metadata with everything the conversions look for. -/
def demoStatic : List (ℕ × List UInt8 × ℕ) :=
  [(controlAeCompensationStep, i32Bytes [1, 2], 1), (controlAeCompensationRange, i32Bytes [-6, 6], 2),
    (controlAeAvailableTargetFpsRanges, i32Bytes [15, 30, 30, 30], 4),
    (controlAvailableVideoStabilizationModes, [0, 1], 2), (controlAeAvailableModes, [0, 1], 2),
    (sensorInfoExposureTimeRange, i64Bytes [1000, 1000000], 2),
    (controlAeAvailableAntibandingModes, [1, 3], 2)]

theorem demoAdapter_mapSettings (l : List (ℕ × List UInt8 × ℕ)) {k : ℕ} (hk : k ≤ 12) :
    MapSettings (demoParameterEnv l) k demoAdapter := by
  have hb : Built referenceLibc none sized (demoPacket []) := by
    obtain ⟨m, hm⟩ := Option.isSome_iff_exists.mp (allocate_isSome (L := referenceLibc) 8 64 rfl)
    unfold demoPacket
    rw [List.foldl_nil, hm]
    exact .allocate (by show calculateCameraMetadataSize (u32 8) (u32 64) < 2 ^ 32; decide) hm
  have hroom : Room 12 (demoAdapter.heap, demoAdapter.owner) := by
    unfold Room
    decide
  refine ⟨⟨fun _ => rfl, ⟨0, _, rfl, rfl, hb⟩, hroom.mono hk⟩, fun m hm => ?_, fun m hm => ?_⟩
  · obtain rfl := Option.some.inj hm
    decide
  · obtain rfl := Option.some.inj hm
    intro _
    decide

theorem setParameters_reports_iff_demo :
    Stocked (demoParameterEnv demoStatic) 6 demoAdapter ∧
      ((∃ a', setParameters (demoParameterEnv demoStatic) demoAdapter {} = some (.ok, a')) ↔
        AllConverted (convertEnv (demoParameterEnv demoStatic) (demoPacket demoStatic)) {}
          (demoAdapter.heap, demoAdapter.owner)) := by
  have h := (demoAdapter_mapSettings demoStatic (k := 6) (by norm_num)).toStocked
  refine ⟨h, (setParameters_reports_iff rfl h {}).mpr fun _ _ => ⟨?_, ?_, ?_, ?_⟩⟩
  · exact ⟨_, rfl, by decide, by decide, by decide, _, rfl, by decide⟩
  · exact ⟨_, rfl, by decide, by decide⟩
  · show (staticEntry _ _).isSome
    decide
  · exact ⟨_, rfl, by decide⟩

/-- Static metadata with antibanding modes only: five settings are not converted and `OK` is
returned. -/
theorem setParameters_not_reports : ¬ ∀ (env : Env) (a : Adapter) (staticMeta : Metadata)
    (param : Parameters), env.staticMetadata = some staticMeta → MapSettings env 6 a →
    ((∃ a', setParameters env a param = some (.ok, a')) ↔
      AllConverted (convertEnv env staticMeta) param (a.heap, a.owner)) := by
  intro h
  have hok : ∃ a', setParameters (demoParameterEnv [(controlAeAvailableAntibandingModes, [3], 1)])
      demoAdapter {} = some (.ok, a') := ⟨_, rfl⟩
  exact absurd ((h _ demoAdapter _ {} rfl (demoAdapter_mapSettings _ (by norm_num))).mp hok)
    (by decide)

/-! ### The frame -/

/-- The tags of the six conversions, in their order. -/
def convertedTags : List ℕ :=
  [controlAeExposureCompensation, controlAeTargetFpsRange, controlVideoStabilizationMode,
    controlAeMode, sensorExposureTime, controlAeAntibandingMode]

theorem settings_tags (cenv : ConvertEnv) (param : Parameters) :
    (settings cenv param).map (·.tag) = convertedTags := rfl

/-- What is written under the tag of a setting that was worked out. -/
theorem Parametrized.written {cenv : ConvertEnv} {param : Parameters} {a' : Adapter}
    (h : Parametrized env k a cenv param a') (hm : Mapped env.vendorOps (a.heap, a.owner))
    {i : ℕ} {s : Setting} (hs : (settings cenv param)[i]? = some s) {d : List UInt8}
    (hd : s.outcome = .ok d) : requestSetting env a' s.tag = some ⟨s.tag, s.type.code, d⟩ := by
  rw [(h.mapped hm).2, foldl_apply_of_mem (settings_nodup cenv param) (List.mem_of_getElem? hs),
    apply_ok hd, Function.update_self]

/-- What is kept under the tag of a setting that was refused. -/
theorem Parametrized.kept {cenv : ConvertEnv} {param : Parameters} {a' : Adapter}
    (h : Parametrized env k a cenv param a') (hm : Mapped env.vendorOps (a.heap, a.owner))
    {s : Setting} (hs : s ∈ settings cenv param) (hd : ¬ s.outcome.isOk) :
    requestSetting env a' s.tag = requestSetting env a s.tag := by
  rw [(h.mapped hm).2, foldl_apply_of_mem (settings_nodup cenv param) hs]
  cases ho : s.outcome with
  | error st => rw [apply_error ho]
  | ok d =>
    rw [ho] at hd
    exact absurd rfl hd

/-- What a call of `setParameters` does to the settings: they stay, the tags of other settings and
those of failed conversions keep their values, and the same call again changes nothing. -/
structure SettingsFramed (env : Env) (param : Parameters) (a a' : Adapter) : Prop where
  nonNull : a'.mRequestSettings.isSome
  others : ∀ tag, tag ∉ convertedTags → requestSetting env a' tag = requestSetting env a tag
  failed : ∀ staticMeta, env.staticMetadata = some staticMeta →
    ∀ r ∈ conversions (convertEnv env staticMeta) param (a.heap, a.owner),
    ∀ (i tag : ℕ) (st : Status), convertedTags[i]? = some tag → r.1[i]? = some st → st ≠ .ok →
    requestSetting env a' tag = requestSetting env a tag
  again : ∃ st a'', setParameters env a' param = some (st, a'') ∧
    requestSetting env a'' = requestSetting env a' ∧ a''.mOperationMode = a'.mOperationMode

/-- Without static metadata every call is refused. -/
theorem setParameters_of_no_static (hst : env.staticMetadata = none) (a : Adapter)
    (param : Parameters) : setParameters env a param = some (.unknownError, a) := by
  apply setParameters_refused
  rintro ⟨-, hsome⟩
  rw [hst] at hsome
  cases hsome

/-- A call whose division does not trap. -/
theorem setParameters_framed (h : MapSettings env 12 a) {param : Parameters}
    (hno : ∀ staticMeta, env.staticMetadata = some staticMeta →
      ¬ AeTraps (convertEnv env staticMeta) param.mEv) :
    ∃ st a', setParameters env a param = some (st, a') ∧ SettingsFramed env param a a' := by
  obtain ⟨p, m, hp, -, -⟩ := h.packet
  cases hst : env.staticMetadata with
  | none =>
    -- the call is refused, the first time and the second
    have href := setParameters_of_no_static hst a param
    refine ⟨_, _, href, by rw [hp]; rfl, fun _ _ => rfl, fun _ hsm => ?_, _, _, href, rfl, rfl⟩
    rw [hst] at hsm
    cases hsm
  | some staticMeta =>
    have hno' := hno staticMeta hst
    obtain ⟨r, st, a', hc, hsp, h1, -, hone⟩ :=
      setParameters_spec (k := 6) hst hno' h.malloc h.writable h.room
    obtain ⟨-, st', a'', -, hsp', -, -, htwo⟩ :=
      setParameters_spec (k := 0) hst hno' h.malloc hone.writable hone.room
    obtain ⟨hm, hv⟩ := hone.mapped h.mapped
    refine ⟨st, a', hsp, hone.writable.buffer, fun tag ht => ?_,
      fun sm hsm r' hr' i tag st hi hst' hne => ?_, st', a'', hsp', ?_, ?_⟩
    · rw [hv, foldl_apply_of_notMem ht]
    · rw [hst] at hsm
      obtain rfl := Option.some.inj hsm
      obtain rfl := Option.mem_unique hr' hc
      rw [← settings_tags (convertEnv env staticMeta) param, List.getElem?_map,
        Option.map_eq_some_iff] at hi
      obtain ⟨s, hs, rfl⟩ := hi
      refine hone.kept h.mapped (List.mem_of_getElem? hs) fun hok => hne ?_
      have hi' := congrArg (·[i]?) h1
      simp only [List.getElem?_map, hst', hs, Option.map_some, Option.some.injEq] at hi'
      rw [hok, decide_eq_true_iff] at hi'
      exact hi'
    · rw [(htwo.mapped hm).2, hv, foldl_apply_twice (settings_nodup _ param)]
    · rw [htwo.mode, hone.mode]

/-- **`setParameters` returns, changes only its six tags and is idempotent exactly if** the division of
its first conversion does not trap. -/
theorem setParameters_framed_iff (h : MapSettings env 12 a) (param : Parameters) :
    (∃ st a', setParameters env a param = some (st, a') ∧ SettingsFramed env param a a') ↔
      ∀ staticMeta, env.staticMetadata = some staticMeta →
        ¬ AeTraps (convertEnv env staticMeta) param.mEv := by
  refine ⟨?_, setParameters_framed h⟩
  rintro ⟨st, a', hsp, -⟩ staticMeta hs htrap
  rw [(setParameters_traps hs h.writable.buffer htrap).2] at hsp
  cases hsp

theorem demoStatic_divides :
    ∀ staticMeta, (demoParameterEnv demoStatic).staticMetadata = some staticMeta →
      ¬ AeTraps (convertEnv (demoParameterEnv demoStatic) staticMeta) 0 := by
  rintro staticMeta hs ⟨step, hstep, -, hn, -⟩
  obtain rfl := Option.some.inj hs
  obtain rfl := Option.some.inj hstep
  exact absurd hn (by decide)

theorem setParameters_framed_iff_demo :
    MapSettings (demoParameterEnv demoStatic) 12 demoAdapter ∧
      ∃ st a', setParameters (demoParameterEnv demoStatic) demoAdapter {} = some (st, a') ∧
        SettingsFramed (demoParameterEnv demoStatic) {} demoAdapter a' :=
  ⟨demoAdapter_mapSettings _ le_rfl,
    (setParameters_framed_iff (demoAdapter_mapSettings _ le_rfl) {}).mpr demoStatic_divides⟩

/-- A camera that counts the exposure compensation downwards, in whole steps. -/
def demoDownwards : List (ℕ × List UInt8 × ℕ) :=
  demoStatic.map fun x => if x.1 = controlAeCompensationStep then (x.1, i32Bytes [-1, 1], 1) else x

/-- The smallest compensation there is has no negative: the process ends. -/
theorem setParameters_not_framed : ¬ ∀ (env : Env) (a : Adapter) (param : Parameters),
    MapSettings env 12 a →
    ∃ st a', setParameters env a param = some (st, a') ∧ SettingsFramed env param a a' := by
  intro h
  obtain ⟨st, a', hsp, -⟩ := h (demoParameterEnv demoDownwards) demoAdapter
    { mEv := -2147483648 } (demoAdapter_mapSettings _ le_rfl)
  have hnone : setParameters (demoParameterEnv demoDownwards) demoAdapter { mEv := -2147483648 } =
    none := rfl
  rw [hnone] at hsp
  cases hsp

end Adapter

end IntelCamera
