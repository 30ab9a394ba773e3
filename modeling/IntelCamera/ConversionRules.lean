import IntelCamera.Adapter.Parameters
import IntelCamera.Lib.Machine

/-!
# ConversionRules — which value a conversion stores

`convertFps` is a single loop with an early exit; `fpsIndex_eq` gives its result as a rule with three
levels, and the copy of the loop in the raw HAL test makes the same choice.  `convertAeComp` and
`convertExposureTime` multiply in the width of their operands before they clamp, so they store the exact
value only while the product fits, or while the clamp hides that it does not.
-/

namespace IntelCamera

open Lib

namespace ParameterAdapter

/-! ### The frame rate -/

/-- The pairs of an entry with frame rate ranges. -/
def targetFpsRanges (entry : MetadataEntry) : List (Int32 × Int32) :=
  (List.range (entry.count / 2)).map fun i => (i32At entry.data (2 * i), i32At entry.data (2 * i + 1))

/-- The range contains the frame rate. -/
def Covers (fps : Int32) (p : Int32 × Int32) : Prop := p.1 ≤ fps ∧ fps ≤ p.2

instance (fps : Int32) : DecidablePred (Covers fps) := fun p =>
  inferInstanceAs (Decidable (p.1 ≤ fps ∧ fps ≤ p.2))

/-- The rule: the fixed range if there is one, otherwise the last range that contains the frame rate,
otherwise the first one. -/
def fpsChoice (fps : Int32) (pairs : List (Int32 × Int32)) : Option (Int32 × Int32) :=
  if (fps, fps) ∈ pairs then some (fps, fps)
  else (pairs.filter (Covers fps)).getLast?.or pairs.head?

theorem fpsChoice_mem {fps : Int32} {pairs : List (Int32 × Int32)} {p : Int32 × Int32}
    (h : fpsChoice fps pairs = some p) : p ∈ pairs := by
  unfold fpsChoice at h
  split_ifs at h with hfix
  · exact Option.some.inj h ▸ hfix
  · rcases Option.or_eq_some_iff.mp h with h | ⟨-, h⟩
    · exact List.mem_of_mem_filter (List.mem_of_getLast? h)
    · exact List.mem_of_head? h

theorem fpsChoice_isSome (fps : Int32) {pairs : List (Int32 × Int32)} (h : pairs ≠ []) :
    (fpsChoice fps pairs).isSome := by
  unfold fpsChoice
  split_ifs
  · rfl
  · obtain ⟨p, l, rfl⟩ := List.exists_cons_of_ne_nil h
    rw [Option.isSome_or, List.head?_cons, Option.isSome_some, Bool.or_true]

section Loop

variable (fps : Int32) (ranges : List UInt8)

/-- The pair `i` of an array. -/
def rangeAt (i : ℕ) : Int32 × Int32 := (i32At ranges (2 * i), i32At ranges (2 * i + 1))

/-- **The loop of `convertFps`**: the first fixed range, otherwise the last one that contains the frame
rate, otherwise what was kept before. -/
theorem fpsIndex_eq (index : Option ℕ) (is : List ℕ) : fpsIndex fps ranges index is =
    ((is.find? fun i => rangeAt ranges i = (fps, fps)).or
      (is.filter fun i => Covers fps (rangeAt ranges i)).getLast?).elim index fun i => some (2 * i) := by
  induction is generalizing index with
  | nil => rfl
  | cons i is ih =>
    unfold fpsIndex
    dsimp only
    have hfix : (fps = i32At ranges (2 * i) ∧ fps = i32At ranges (2 * i + 1)) ↔
        rangeAt ranges i = (fps, fps) := by
      unfold rangeAt
      rw [Prod.mk.injEq, eq_comm (a := fps), eq_comm (a := fps)]
    split_ifs with h1 h2
    · rw [List.find?_cons_of_pos (by simpa using hfix.mp h1), Option.some_or, Option.elim_some]
    · rw [ih, List.find?_cons_of_neg (by simpa using fun h => h1 (hfix.mpr h)),
        List.filter_cons_of_pos (by exact decide_eq_true h2)]
      cases is.find? fun i => rangeAt ranges i = (fps, fps) with
      | some j => rfl
      | none =>
        rw [Option.none_or, Option.none_or, List.getLast?_cons]
        cases (is.filter fun i => Covers fps (rangeAt ranges i)).getLast? with
        | none => rfl
        | some j => rfl
    · rw [ih, List.find?_cons_of_neg (by simpa using fun h => h1 (hfix.mpr h)),
        List.filter_cons_of_neg (by exact mt of_decide_eq_true h2)]

end Loop

/-- **The pair of `convertFps` is the one of the rule.** -/
theorem fpsPair_eq {fps : Int32} {entry : MetadataEntry} {p : Int32 × Int32}
    (h : fpsChoice fps (targetFpsRanges entry) = some p) : fpsPair fps entry = [p.1, p.2] := by
  have hmap : targetFpsRanges entry = (List.range (entry.count / 2)).map (rangeAt entry.data) := rfl
  have hpair : ∀ i, i32At entry.data (2 * i) = (rangeAt entry.data i).1 ∧
      i32At entry.data (2 * i + 1) = (rangeAt entry.data i).2 := fun i => ⟨rfl, rfl⟩
  unfold fpsPair
  dsimp only
  rw [fpsIndex_eq]
  unfold fpsChoice at h
  rw [hmap] at h
  generalize hl : List.range (entry.count / 2) = l at *
  cases hf : l.find? fun i => rangeAt entry.data i = (fps, fps) with
  | some i =>
    have hi : rangeAt entry.data i = (fps, fps) := by simpa using List.find?_some hf
    have hmem : (fps, fps) ∈ l.map (rangeAt entry.data) :=
      List.mem_map.mpr ⟨i, List.mem_of_find?_eq_some hf, hi⟩
    rw [if_pos hmem] at h
    obtain rfl := Option.some.inj h
    rw [Option.some_or, Option.elim_some, Option.getD_some, (hpair i).1, (hpair i).2, hi]
  | none =>
    have hmem : (fps, fps) ∉ l.map (rangeAt entry.data) := by
      rintro hin
      obtain ⟨i, hi, he⟩ := List.mem_map.mp hin
      exact absurd he (by simpa using List.find?_eq_none.mp hf i hi)
    rw [if_neg hmem, List.filter_map, List.getLast?_map] at h
    rw [Option.none_or]
    cases hc : (l.filter fun i => Covers fps (rangeAt entry.data i)).getLast? with
    | some i =>
      have hp : p = rangeAt entry.data i := by
        have hc' : (l.filter ((fun p => decide (Covers fps p)) ∘ rangeAt entry.data)).getLast? =
          some i := hc
        rw [hc', Option.map_some, Option.some_or] at h
        exact (Option.some.inj h).symm
      rw [Option.elim_some, Option.getD_some, (hpair i).1, (hpair i).2, hp]
    | none =>
      have hc' : (l.filter ((fun p => decide (Covers fps p)) ∘ rangeAt entry.data)).getLast? =
        none := hc
      rw [hc', Option.map_none, Option.none_or, List.head?_map] at h
      obtain ⟨i, hi, rfl⟩ := Option.map_eq_some_iff.mp h
      -- the first index of the range is zero
      have hi0 : i = 0 := by
        rw [← hl, List.head?_range] at hi
        split_ifs at hi
        exact (Option.some.inj hi).symm
      rw [Option.elim_none, Option.getD_none, hi0]
      rfl

/-! ### The raw HAL test's copy -/

/-- The loop of `setFps` (`raw_hal_test.h`); `-1` means that no range was found. -/
def setFpsIndex (fps : Int32) (ranges : List UInt8) (index : ℤ) : List ℕ → ℤ
  | [] => index
  | i :: is =>
    let lowFps := i32At ranges (2 * i)
    let highFps := i32At ranges (2 * i + 1)
    if fps = lowFps ∧ fps = highFps then 2 * i else
    let index := if fps ≥ lowFps ∧ fps ≤ highFps then (2 * i : ℤ) else index
    setFpsIndex fps ranges index is

/-- `setFps` (`raw_hal_test.h`), on the static metadata that `get_camera_info` gives.  It has no status:
it returns without an update, or ignores that of the update. -/
def setFps (libc : Libc) (vendorOps : Option VendorTagOps) (staticMetadata : Option Metadata)
    (fps : Int32) (out : Heap × CameraMetadata) : Heap × CameraMetadata :=
  match staticMetadata with
  | none => out
  | some staticMetadata =>
    match findCameraMetadataEntry libc staticMetadata controlAeAvailableTargetFpsRanges with
    | none => out
    | some fpsRanges =>
      if fpsRanges.count < 2 ∨ fpsRanges.count % 2 ≠ 0 then out else
      let index := setFpsIndex fps fpsRanges.data (-1) (List.range (fpsRanges.count / 2))
      let index := if index = -1 then 0 else index
      (out.2.update libc vendorOps out.1 controlAeTargetFpsRange .int32 none
        (i32Bytes [i32At fpsRanges.data index.toNat, i32At fpsRanges.data (index.toNat + 1)]) 2).2

/-- The index of `setFps` for an optional index. -/
def indexOf : Option ℕ → ℤ
  | none => -1
  | some i => i

/-- **The two loops agree**, by induction over the pairs. -/
theorem setFpsIndex_eq (fps : Int32) (ranges : List UInt8) (index : Option ℕ) (is : List ℕ) :
    setFpsIndex fps ranges (indexOf index) is = indexOf (fpsIndex fps ranges index is) := by
  induction is generalizing index with
  | nil => rfl
  | cons i is ih =>
    unfold setFpsIndex fpsIndex
    dsimp only
    split_ifs with h1 h2
    · show (2 * i : ℤ) = ((2 * i : ℕ) : ℤ)
      push_cast
      rfl
    · rw [← ih (some (2 * i))]
      rfl
    · exact ih index

/-- **`setFps` writes what `convertFps` writes**, whatever the static metadata holds. -/
theorem setFps_eq (env : ConvertEnv) (fps : Int32) (out : Heap × CameraMetadata) :
    setFps env.libc env.vendorOps (some env.staticMetadata) fps out = (convertFps env fps out).2 := by
  unfold setFps convertFps staticEntry
  dsimp only
  cases findCameraMetadataEntry env.libc env.staticMetadata controlAeAvailableTargetFpsRanges with
  | none => rfl
  | some ranges =>
    dsimp only
    by_cases hc : ranges.count % 2 ≠ 0 ∨ ranges.count < 2
    · rw [if_pos hc, if_pos (Or.symm hc)]
    · rw [if_neg hc, if_neg (fun h => hc (Or.symm h))]
      have hi := setFpsIndex_eq fps ranges.data none (List.range (ranges.count / 2))
      unfold write
      have hn : (if setFpsIndex fps ranges.data (-1) (List.range (ranges.count / 2)) = -1 then 0
          else setFpsIndex fps ranges.data (-1) (List.range (ranges.count / 2))).toNat =
          (fpsIndex fps ranges.data none (List.range (ranges.count / 2))).getD 0 := by
        rw [show (-1 : ℤ) = indexOf none from rfl, hi]
        cases fpsIndex fps ranges.data none (List.range (ranges.count / 2)) with
        | none => rfl
        | some j =>
          rw [if_neg (by show (j : ℤ) ≠ -1; omega)]
          rfl
      rw [hn]

/-! ### What is stored -/

/-- The static metadata states the frame rate ranges `pairs`, in this order. -/
def StatesFpsRanges (env : ConvertEnv) (pairs : List (Int32 × Int32)) : Prop :=
  ∃ entry ∈ staticEntry env controlAeAvailableTargetFpsRanges,
    entry.count = 2 * pairs.length ∧ targetFpsRanges entry = pairs

section Stored

variable {env : ConvertEnv} (hmalloc : ∀ n, (env.libc.malloc n).isSome) {out : Heap × CameraMetadata}
  (hm : Mapped env.vendorOps out) (hr : Room 1 out)

include hmalloc hm hr

/-- **A setting that was worked out is stored.** -/
theorem Setting.stored {s : Setting} (hs : s.Proper env.vendorOps) {d : List UInt8}
    (ho : s.outcome = .ok d) : (s.run env out).1 = .ok ∧
      (s.run env out).2.2.values (s.run env out).2.1 s.tag = some ⟨s.tag, s.type.code, d⟩ := by
  have hd := hs.data d ho
  have hin : ¬ ((none : Option ℕ) ≠ none ∧ none = out.2.mBuffer) := fun hne => hne.1 rfl
  obtain ⟨h', c', hu, hup⟩ := CameraMetadata.update_spec (L := env.libc) le_rfl hmalloc
    (hm.mono fun _ h => h.toIsTyped) hs.type_eq hd.ge hin (hr.request (k := 0) hs.size_le)
  have hrun : s.run env out = (.ok, h', c') := by
    unfold Setting.run
    rw [ho]
    exact hu
  obtain ⟨-, hv⟩ := hup.map hm
  rw [← hd, List.take_length] at hv
  rw [hrun]
  refine ⟨rfl, ?_⟩
  dsimp only
  rw [hv, Function.update_self]

/-- **The selection of `convertFps`**: the pair stored is the one of the rule, which is one of the list,
and `setFps` of the raw HAL test leaves the same output. -/
theorem convertFps_rule {pairs : List (Int32 × Int32)} (hp : StatesFpsRanges env pairs)
    (hne : pairs ≠ []) (fps : Int32) : ∃ p, fpsChoice fps pairs = some p ∧ p ∈ pairs ∧
      (convertFps env fps out).1 = .ok ∧
      (convertFps env fps out).2.2.values (convertFps env fps out).2.1 controlAeTargetFpsRange =
        some ⟨controlAeTargetFpsRange, MetaType.int32.code, i32Bytes [p.1, p.2]⟩ ∧
      setFps env.libc env.vendorOps (some env.staticMetadata) fps out = (convertFps env fps out).2 := by
  obtain ⟨entry, he, hcount, rfl⟩ := hp
  obtain ⟨p, hc⟩ := Option.isSome_iff_exists.mp (fpsChoice_isSome fps hne)
  have hpos := List.length_pos_iff.mpr hne
  have ho : fpsOutcome env fps = .ok (i32Bytes [p.1, p.2]) := by
    unfold fpsOutcome
    rw [Option.mem_def.mp he]
    dsimp only
    rw [if_neg (by omega), fpsPair_eq hc]
  have hs : Setting.Proper env.vendorOps
      ⟨controlAeTargetFpsRange, .int32, 2, fpsOutcome env fps⟩ :=
    Setting.proper_of (fpsOutcome_sized fps) (by decide) (by decide) (by decide)
  obtain ⟨hok, hv⟩ := Setting.stored hmalloc hm hr hs ho
  have heq := convertFps_eq env fps
  refine ⟨p, hc, fpsChoice_mem hc, ?_, ?_, setFps_eq env fps out⟩
  · rw [heq]
    exact hok
  · rw [heq]
    exact hv

end Stored

/-- An output metadata without a packet is an empty map. -/
theorem empty_mapped (ops : Option VendorTagOps) : Mapped ops (Store.empty, CameraMetadata.empty) :=
  ⟨rfl, fun _ hp => nomatch hp⟩

theorem empty_room : Room 1 (Store.empty, CameraMetadata.empty) := by
  unfold Room
  decide

/-- A camera with the given static metadata. -/
def demoConvertEnv (l : List (ℕ × List UInt8 × ℕ)) : ConvertEnv :=
  ⟨referenceLibc, none, Adapter.demoPacket l⟩

/-- The last of the overlapping ranges is taken. -/
theorem convertFps_rule_demo :
    StatesFpsRanges (demoConvertEnv [(controlAeAvailableTargetFpsRanges,
      i32Bytes [15, 30, 10, 20, 30, 30], 6)]) [(15, 30), (10, 20), (30, 30)] ∧
    ∃ p, fpsChoice 20 [(15, 30), (10, 20), (30, 30)] = some p ∧ p = (10, 20) := by
  have hp : StatesFpsRanges (demoConvertEnv [(controlAeAvailableTargetFpsRanges,
      i32Bytes [15, 30, 10, 20, 30, 30], 6)]) [(15, 30), (10, 20), (30, 30)] :=
    ⟨_, rfl, by decide, by decide⟩
  obtain ⟨p, hc, -⟩ := convertFps_rule (fun _ => rfl) (empty_mapped none) empty_room hp (by decide) 20
  refine ⟨hp, p, hc, ?_⟩
  have h20 : fpsChoice 20 [(15, 30), (10, 20), (30, 30)] = some (10, 20) := by decide
  rw [h20] at hc
  exact (Option.some.inj hc).symm

/-! ### The values that are multiplied and clamped -/

/-- The product of `convertAeComp` fits in an `int`, or the range leaves no choice. -/
def AeCompFits (ev : Int32) (step : Rational) (low high : Int32) : Prop :=
  Fits 32 (ev.toInt * step.denominator.toInt) ∨ low = high

/-- The product of `convertExposureTime` fits in an `int64_t`, or the range leaves no choice. -/
def ExposureTimeFits (exposureTime etMin etMax : Int64) : Prop :=
  Fits 64 (1000 * exposureTime.toInt) ∨ etMin = etMax

/-- The number of steps, exactly. -/
def exactSteps (ev : Int32) (step : Rational) : ℤ :=
  (ev.toInt * step.denominator.toInt).tdiv step.numerator.toInt

/-- With a positive divisor there is a number of steps: the clamped quotient of the wrapped product. -/
theorem toInt_aeStepCount (ev : Int32) {step : Rational} {low high : Int32}
    (hn : 1 ≤ step.numerator.toInt) (hle : low ≤ high) :
    ∃ stepCount, aeStepCount ev step low high = some stepCount ∧ stepCount.toInt =
      clamp low.toInt high.toInt
        (((ev.toInt * step.denominator.toInt).bmod (2 ^ 32)).tdiv step.numerator.toInt) := by
  have hn0 : step.numerator ≠ 0 := by
    intro h
    rw [h] at hn
    exact absurd hn (by decide)
  have hn1 : step.numerator ≠ -1 := by
    intro h
    rw [h] at hn
    exact absurd hn (by decide)
  cases hq : intDiv (ev * step.denominator) step.numerator with
  | none => exact absurd ((intDiv_eq_none_iff hn0).mp hq).1 hn1
  | some q =>
    have hqv := toInt_intDiv hq
    rw [Int32.toInt_mul] at hqv
    rw [Int32.le_iff_toInt_le] at hle
    unfold aeStepCount
    rw [hq, Option.map_some]
    refine ⟨_, rfl, ?_⟩
    rw [← hqv]
    simp only [gt_iff_lt, Int32.lt_iff_toInt_lt]
    split_ifs with h1 h2 h2
    · omega
    · exact (clamp_of_ge hle h1.le).symm
    · exact (clamp_of_le hle h2.le).symm
    · exact (clamp_of_mem (not_lt.mp h2) (not_lt.mp h1)).symm

theorem toInt_exposureTimeNs (exposureTime : Int64) {etMin etMax : Int64} (hle : etMin ≤ etMax) :
    (exposureTimeNs exposureTime etMin etMax).toInt =
      clamp etMin.toInt etMax.toInt ((1000 * exposureTime.toInt).bmod (2 ^ 64)) := by
  have hq : (exposureTime * 1000).toInt = (1000 * exposureTime.toInt).bmod (2 ^ 64) := by
    rw [Int64.toInt_mul, mul_comm]
    rfl
  rw [Int64.le_iff_toInt_le] at hle
  unfold exposureTimeNs
  dsimp only
  rw [← hq]
  simp only [gt_iff_lt, Int64.lt_iff_toInt_lt]
  split_ifs with h1 h2
  · exact (clamp_of_le hle h1.le).symm
  · exact (clamp_of_ge hle h2.le).symm
  · exact (clamp_of_mem (not_lt.mp h1) (not_lt.mp h2)).symm

/-- The static metadata states the step size and the range of the exposure compensation. -/
def StatesAeComp (env : ConvertEnv) (step : Rational) (low high : Int32) : Prop :=
  ∃ stepSize ∈ staticEntry env controlAeCompensationStep, stepSize.count = 1 ∧
    rationalAt stepSize.data 0 = step ∧
    ∃ range ∈ staticEntry env controlAeCompensationRange, range.count = 2 ∧
      i32At range.data 0 = low ∧ i32At range.data 1 = high

/-- The static metadata states the range of the exposure time. -/
def StatesExposureTime (env : ConvertEnv) (etMin etMax : Int64) : Prop :=
  ∃ range ∈ staticEntry env sensorInfoExposureTimeRange, range.count = 2 ∧
    i64At range.data 0 = etMin ∧ i64At range.data 1 = etMax

/-- The exposure compensation that `convertAeComp` leaves in the output metadata. -/
def storedAeComp (env : ConvertEnv) (ev : Int32) (out : Heap × CameraMetadata) : Option ℤ :=
  (convertAeComp env ev out).bind fun r =>
    (r.2.2.values r.2.1 controlAeExposureCompensation).map fun x => (i32At x.payload 0).toInt

/-- The exposure time that `convertExposureTime` leaves in the output metadata. -/
def storedExposureTime (env : ConvertEnv) (exposureTime : Int64) (out : Heap × CameraMetadata) :
    Option ℤ :=
  let r := convertExposureTime env exposureTime out
  (r.2.2.values r.2.1 sensorExposureTime).map fun x => (i64At x.payload 0).toInt

section Saturation

variable {env : ConvertEnv} (hmalloc : ∀ n, (env.libc.malloc n).isSome) {out : Heap × CameraMetadata}
  (hm : Mapped env.vendorOps out) (hr : Room 1 out)

include hmalloc hm hr

theorem convertAeComp_stored {step : Rational} {low high : Int32} (hs : StatesAeComp env step low high)
    (hn : 1 ≤ step.numerator.toInt) (hd : 1 ≤ step.denominator.toInt) (hle : low ≤ high) (ev : Int32) :
    storedAeComp env ev out = some (clamp low.toInt high.toInt
      (((ev.toInt * step.denominator.toInt).bmod (2 ^ 32)).tdiv step.numerator.toInt)) := by
  obtain ⟨stepCount, hcount, hval⟩ := toInt_aeStepCount ev hn hle
  obtain ⟨stepSize, hs1, hc1, rfl, range, hs2, hc2, rfl, rfl⟩ := hs
  have hn0 : (rationalAt stepSize.data 0).numerator ≠ 0 := by
    intro h
    rw [h] at hn
    exact absurd hn (by decide)
  have hd0 : (rationalAt stepSize.data 0).denominator ≠ 0 := by
    intro h
    rw [h] at hd
    exact absurd hd (by decide)
  have ho : aeCompOutcome env ev = .ok (i32Bytes [stepCount]) := by
    unfold aeCompOutcome
    rw [Option.mem_def.mp hs1]
    dsimp only
    rw [if_neg (by simp [hc1, hn0, hd0]), Option.mem_def.mp hs2]
    dsimp only
    rw [if_neg (not_not.mpr hc2), hcount, Option.getD_some]
  -- the numerator is positive, so the division does not trap
  have hno : ¬ AeTraps env ev := by
    rintro ⟨stepSize', hs1', -, h1, -⟩
    obtain rfl := Option.mem_unique hs1 hs1'
    rw [h1] at hn
    exact absurd hn (by decide)
  have hp : Setting.Proper env.vendorOps
      ⟨controlAeExposureCompensation, .int32, 1, aeCompOutcome env ev⟩ :=
    Setting.proper_of (aeCompOutcome_sized ev) (by decide) (by decide) (by decide)
  obtain ⟨-, hv⟩ := Setting.stored hmalloc hm hr hp ho
  have heq : convertAeComp env ev out =
      some (Setting.run env ⟨controlAeExposureCompensation, .int32, 1, aeCompOutcome env ev⟩ out) :=
    (convertAeComp_eq env ev out).2 hno
  unfold storedAeComp
  rw [heq, Option.bind_some, hv, Option.map_some, ← hval]
  exact congrArg (fun x : Int32 => some x.toInt) (i32At_i32Bytes rfl)

theorem convertExposureTime_stored {etMin etMax : Int64} (hs : StatesExposureTime env etMin etMax)
    (hle : etMin ≤ etMax) (exposureTime : Int64) : storedExposureTime env exposureTime out =
      some (clamp etMin.toInt etMax.toInt ((1000 * exposureTime.toInt).bmod (2 ^ 64))) := by
  rw [← toInt_exposureTimeNs exposureTime hle]
  obtain ⟨range, hs, hc, rfl, rfl⟩ := hs
  have ho : exposureTimeOutcome env exposureTime = .ok (i64Bytes [exposureTimeNs exposureTime
      (i64At range.data 0) (i64At range.data 1)]) := by
    unfold exposureTimeOutcome
    rw [Option.mem_def.mp hs]
    dsimp only
    rw [if_neg (not_not.mpr hc)]
  have hp : Setting.Proper env.vendorOps
      ⟨sensorExposureTime, .int64, 1, exposureTimeOutcome env exposureTime⟩ :=
    Setting.proper_of (exposureTimeOutcome_sized exposureTime) (by decide) (by decide) (by decide)
  obtain ⟨-, hv⟩ := Setting.stored hmalloc hm hr hp ho
  have heq : convertExposureTime env exposureTime out =
      Setting.run env ⟨sensorExposureTime, .int64, 1, exposureTimeOutcome env exposureTime⟩ out :=
    congrFun (convertExposureTime_eq env exposureTime) out
  unfold storedExposureTime
  dsimp only
  rw [heq, hv, Option.map_some]
  exact congrArg (fun x : Int64 => some x.toInt) (i64At_i64Bytes rfl)

/-- A product that fits, or a range of one value: the exact number of steps is stored, clamped. -/
theorem convertAeComp_exact {step : Rational} {low high : Int32}
    (hs : StatesAeComp env step low high) (hn : 1 ≤ step.numerator.toInt)
    (hd : 1 ≤ step.denominator.toInt) (hle : low ≤ high) (ev : Int32)
    (h : AeCompFits ev step low high) :
    storedAeComp env ev out = some (clamp low.toInt high.toInt (exactSteps ev step)) := by
  rw [convertAeComp_stored hmalloc hm hr hs hn hd hle]
  rcases h with h | rfl
  · rw [bmod_of_fits h]
    rfl
  · rw [clamp_self, clamp_self]

/-- Inside of the range a product that does not fit is seen: the numerator is an `int`, so a lost
carry changes the quotient. -/
theorem convertAeComp_exact_iff {step : Rational} {low high : Int32}
    (hs : StatesAeComp env step low high) (hn : 1 ≤ step.numerator.toInt)
    (hd : 1 ≤ step.denominator.toInt) {ev : Int32} (hlo : low.toInt < exactSteps ev step)
    (hhi : exactSteps ev step < high.toInt) :
    storedAeComp env ev out = some (clamp low.toInt high.toInt (exactSteps ev step)) ↔
      Fits 32 (ev.toInt * step.denominator.toInt) := by
  have hle : low ≤ high := Int32.le_iff_toInt_le.mpr (hlo.trans hhi).le
  refine ⟨fun h => ?_, fun h => convertAeComp_exact hmalloc hm hr hs hn hd hle ev (Or.inl h)⟩
  rw [convertAeComp_stored hmalloc hm hr hs hn hd hle, Option.some.injEq] at h
  have hw : 2 * step.numerator.toInt ≤ 2 ^ 32 := by
    have := step.numerator.toInt_lt
    omega
  exact (tdiv_bmod_eq_iff (by omega) hw).mp (eq_of_clamp_eq hlo hhi h.symm)

theorem convertExposureTime_exact {etMin etMax : Int64} (hs : StatesExposureTime env etMin etMax)
    (hle : etMin ≤ etMax) (exposureTime : Int64) (h : ExposureTimeFits exposureTime etMin etMax) :
    storedExposureTime env exposureTime out =
      some (clamp etMin.toInt etMax.toInt (1000 * exposureTime.toInt)) := by
  rw [convertExposureTime_stored hmalloc hm hr hs hle]
  rcases h with h | rfl
  · rw [bmod_of_fits h]
  · rw [clamp_self, clamp_self]

/-- **The two products.**  A conversion whose product fits, or whose range is a single value, stores
the clamp of the exact value, and is monotone among such requests.  A number of steps inside of the
range is stored only if the product fits. -/
theorem conversions_saturate_of_fits :
    (∀ (step : Rational) (low high : Int32), StatesAeComp env step low high →
      1 ≤ step.numerator.toInt → 1 ≤ step.denominator.toInt → low ≤ high →
      (∀ ev, AeCompFits ev step low high →
        storedAeComp env ev out = some (clamp low.toInt high.toInt (exactSteps ev step))) ∧
      (∀ ev, low.toInt < exactSteps ev step → exactSteps ev step < high.toInt →
        (storedAeComp env ev out = some (clamp low.toInt high.toInt (exactSteps ev step)) ↔
          AeCompFits ev step low high)) ∧
      ∀ ev ev', ev ≤ ev' → AeCompFits ev step low high → AeCompFits ev' step low high →
        ∃ x ∈ storedAeComp env ev out, ∃ y ∈ storedAeComp env ev' out, x ≤ y) ∧
    ∀ etMin etMax : Int64, StatesExposureTime env etMin etMax → etMin ≤ etMax →
      (∀ t, ExposureTimeFits t etMin etMax → storedExposureTime env t out =
        some (clamp etMin.toInt etMax.toInt (1000 * t.toInt))) ∧
      ∀ t t', t ≤ t' → ExposureTimeFits t etMin etMax → ExposureTimeFits t' etMin etMax →
        ∃ x ∈ storedExposureTime env t out, ∃ y ∈ storedExposureTime env t' out, x ≤ y := by
  refine ⟨fun step low high hs hn hd hle => ?_, fun etMin etMax hs hle => ?_⟩
  · have hex := convertAeComp_exact hmalloc hm hr hs hn hd hle
    refine ⟨hex, fun ev hlo hhi => ?_, fun ev ev' hev h h' => ⟨_, hex ev h, _, hex ev' h', ?_⟩⟩
    · rw [convertAeComp_exact_iff hmalloc hm hr hs hn hd hlo hhi]
      refine ⟨Or.inl, fun h => h.resolve_right ?_⟩
      rintro rfl
      exact absurd (hlo.trans hhi) (lt_irrefl _)
    · refine clamp_mono _ _ (Int.tdiv_le_tdiv (by omega) ?_)
      exact mul_le_mul_of_nonneg_right (Int32.le_iff_toInt_le.mp hev) (by omega)
  · have hex := convertExposureTime_exact hmalloc hm hr hs hle
    refine ⟨hex, fun t t' ht h h' => ⟨_, hex t h, _, hex t' h', ?_⟩⟩
    have := Int64.le_iff_toInt_le.mp ht
    exact clamp_mono _ _ (by omega)

end Saturation

theorem demo_malloc (n : ℕ) : ((demoConvertEnv Adapter.demoStatic).libc.malloc n).isSome := rfl

theorem demo_statesAeComp :
    StatesAeComp (demoConvertEnv Adapter.demoStatic) ⟨1, 2⟩ (-6) 6 :=
  ⟨_, rfl, by decide, by decide, _, rfl, by decide, by decide, by decide⟩

theorem demo_statesExposureTime :
    StatesExposureTime (demoConvertEnv Adapter.demoStatic) 1000 1000000 :=
  ⟨_, rfl, by decide, by decide, by decide⟩

theorem conversions_saturate_demo :
    storedAeComp (demoConvertEnv Adapter.demoStatic) 100 (Store.empty, CameraMetadata.empty) = some 6 ∧
    (∃ x ∈ storedAeComp (demoConvertEnv Adapter.demoStatic) (-2) (Store.empty, CameraMetadata.empty),
      ∃ y ∈ storedAeComp (demoConvertEnv Adapter.demoStatic) 100
        (Store.empty, CameraMetadata.empty), x ≤ y) ∧
    storedExposureTime (demoConvertEnv Adapter.demoStatic) 500
      (Store.empty, CameraMetadata.empty) = some 500000 := by
  obtain ⟨hae, htime⟩ := conversions_saturate_of_fits demo_malloc (empty_mapped none) empty_room
  obtain ⟨hex, -, hmono⟩ := hae ⟨1, 2⟩ (-6) 6 demo_statesAeComp (by decide) (by decide) (by decide)
  have h100 : AeCompFits 100 ⟨1, 2⟩ (-6) 6 := Or.inl ⟨by decide, by decide⟩
  have h2 : AeCompFits (-2) ⟨1, 2⟩ (-6) 6 := Or.inl ⟨by decide, by decide⟩
  have h := htime 1000 1000000 demo_statesExposureTime (by decide)
  exact ⟨hex 100 h100, hmono (-2) 100 (by decide) h2 h100,
    h.1 500 (Or.inl ⟨by decide, by decide⟩)⟩

/-- A request of `2 ^ 30` half steps: the product wraps to a negative number, and the smallest
compensation is stored instead of the largest. -/
theorem conversions_not_saturate : ¬ ∀ (env : ConvertEnv) (out : Heap × CameraMetadata),
    (∀ n, (env.libc.malloc n).isSome) → Mapped env.vendorOps out → Room 1 out →
    ∀ (step : Rational) (low high : Int32), StatesAeComp env step low high →
      1 ≤ step.numerator.toInt → 1 ≤ step.denominator.toInt → low ≤ high →
      ∀ ev, storedAeComp env ev out = some (clamp low.toInt high.toInt (exactSteps ev step)) := by
  intro h
  have hst := convertAeComp_stored demo_malloc (empty_mapped none) empty_room demo_statesAeComp
    (by decide) (by decide) (by decide) 1073741824
  rw [h _ _ demo_malloc (empty_mapped none) empty_room _ _ _ demo_statesAeComp (by decide)
    (by decide) (by decide) 1073741824] at hst
  exact absurd hst (by decide)

end ParameterAdapter

end IntelCamera
