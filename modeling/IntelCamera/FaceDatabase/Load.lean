import IntelCamera.FaceDatabase.Code
import IntelCamera.Lib.Runs

/-!
# FaceDatabase.Load — what a load leaves behind

A load that gets past the number of records reads them one after the other until the last one, one
that the library refuses, or one that the file does not have in full.  Only the last case is a
failure: the array and the internal database are left with what was loaded so far, and the record
that was cut is left with the bytes there were, in the place of its pointer too.  A refused record is
counted as if it were registered (`loadExternalDB_reported_iff`).
-/

namespace IntelCamera

open Lib

namespace FaceDatabase

variable (C : Config) (facedata b : ℕ)

/-- Where the record `i` of a file starts. -/
def recordStart (i : ℕ) : ℕ := 4 + i * (C.facedataSize + C.structSize)

/-- The record `i` of a file, as it is loaded. -/
def fileFace (file : List UInt8) (i : ℕ) : Face :=
  ownedFace C b i (slice file (recordStart C i + C.facedataSize) C.structSize)
    (slice file (recordStart C i) C.facedataSize)

/-- As far as the file goes, it has the bytes of the right pointer in the place of the pointer `i`. -/
def PointerKept (file : List UInt8) (i : ℕ) : Prop :=
  ∀ k < 8, recordStart C i + C.facedataSize + C.dataOffset + k < file.length →
    file[recordStart C i + C.facedataSize + C.dataOffset + k]? = (leBytes 8 (pointer C b i))[k]?

/-- From `s` to `s'` the second loop went from the record `i` to the record `k`. -/
structure Progress (file : List UInt8) (register : ℕ → Bool) (i k : ℕ) (s s' : State) : Prop where
  complete : ∀ j, i ≤ j → j < k → recordStart C (j + 1) ≤ file.length ∧ register j = true
  internal : s'.internal = s.internal ++ (List.range' i (k - i)).map (fileFace C b file)
  loaded : ∀ j, i ≤ j → j < k → face C facedata s'.mem j = fileFace C b file j
  kept : ∀ j < C.maxFacesInDatabase, j < i ∨ k < j →
    face C facedata s'.mem j = face C facedata s.mem j

/-- How the second loop ends at the record `k` of `n`. -/
inductive Stop (file : List UInt8) (register : ℕ → Bool) (n k : ℕ) (s s' : State) : Option ℕ → Prop
  | all : k = n → Owned C facedata b s'.mem → Stop file register n k s s' (some n)
  | refused : k < n → recordStart C (k + 1) ≤ file.length → register k = false →
      Owned C facedata b s'.mem → Stop file register n k s s' (some (k + 1))
  | cut : k < n → file.length < recordStart C (k + 1) →
      (Owned C facedata b s'.mem ↔ PointerKept C b file k) →
      payloadAt C b s'.mem k =
        memcpy (payloadAt C b s.mem k) 0 (slice file (recordStart C k) C.facedataSize) →
      Stop file register n k s s' none

/-- The file does not start with a number of records that fits the array. -/
def BadCount (file : List UInt8) : Prop :=
  file.length < 4 ∨ numRegistered file < 0 ∨ C.maxFacesInDatabase < numRegistered file

/-- A cleared record. -/
def clearedFace (i : ℕ) : Face := ownedFace C b i (zeros C.structSize) (zeros C.facedataSize)

/-- The exits of `loadExternalDB`: before the records were cleared, before the first record, and in
the second loop, which starts in the state `s₀`. -/
inductive Loaded (file : Option (List UInt8)) (register : ℕ → Bool) (s s' : State) : Option ℕ → Prop
  | unopened : facedata = 0 ∨ file = none → s' = s → Loaded file register s s' none
  | uncounted (f : List UInt8) : file = some f → BadCount C f → s'.internal = s.internal →
      Owned C facedata b s'.mem →
      (∀ i < C.maxFacesInDatabase, face C facedata s'.mem i = clearedFace C b i) →
      Loaded file register s s' none
  | records (f : List UInt8) (k : ℕ) (s₀ : State) {r : Option ℕ} : file = some f → ¬ BadCount C f →
      s₀.internal = [] → Owned C facedata b s₀.mem →
      (∀ i < C.maxFacesInDatabase, face C facedata s₀.mem i = clearedFace C b i) →
      Progress C facedata b f register 0 k s₀ s' →
      Stop C facedata b f register (numRegistered f).toNat k s₀ s' r → Loaded file register s s' r

variable {C facedata b} {m m' : Mem UInt8} {i j : ℕ}

section Loop

variable (hp : Placed C facedata b)

include hp

/-! ### The second loop -/

/-- A record that is cut keeps its pointer exactly if the file has the bytes of the pointer in its
place, as far as it goes. -/
theorem cut_data_iff {file : List UInt8} (hi : i < C.maxFacesInDatabase)
    (h : data C facedata m i = pointer C b i)
    (hf : fieldsAt C facedata m' i =
      memcpy (fieldsAt C facedata m i) 0 (file.drop (recordStart C i + C.facedataSize))) :
    data C facedata m' i = pointer C b i ↔ PointerKept C b file i := by
  have hold := slice_fieldsAt C facedata m i
  have hnew := slice_fieldsAt C facedata m' i
  rw [h] at hold
  -- the byte `k` of the new pointer
  have hbyte : ∀ k < 8, (slice (fieldsAt C facedata m' i) C.dataOffset 8)[k]? =
      if recordStart C i + C.facedataSize + C.dataOffset + k < file.length then
        file[recordStart C i + C.facedataSize + C.dataOffset + k]?
      else (leBytes 8 (pointer C b i))[k]? := by
    intro k hk
    rw [← hold, getElem?_slice, getElem?_slice, if_pos hk, if_pos hk, hf,
      getElem?_memcpy _ (Nat.zero_le _), if_neg (Nat.not_lt_zero _), List.length_drop,
      List.getElem?_drop]
    by_cases hin : recordStart C i + C.facedataSize + C.dataOffset + k < file.length
    · rw [if_pos (by omega), if_pos hin, show recordStart C i + C.facedataSize +
        (C.dataOffset + k - 0) = recordStart C i + C.facedataSize + C.dataOffset + k by omega]
    · rw [if_neg (by omega), if_neg hin]
  constructor
  · intro hd k hk hin
    have hb := hbyte k hk
    rw [if_pos hin, hnew, hd] at hb
    exact hb.symm
  · intro hkept
    have hs : slice (fieldsAt C facedata m' i) C.dataOffset 8 = leBytes 8 (pointer C b i) := by
      apply List.ext_getElem?
      intro k
      by_cases hk : k < 8
      · rw [hbyte k hk]
        split_ifs with hin
        · exact hkept k hk hin
        · rfl
      · rw [getElem?_slice, if_neg hk, List.getElem?_eq_none (by rw [length_leBytes]; omega)]
    rw [data_eq, hs]
    exact leNat_leBytes (pointer_lt hp hi)

omit hp in
theorem Progress.refl (file : List UInt8) (register : ℕ → Bool) (s s' : State)
    (hint : s'.internal = s.internal)
    (hkept : ∀ j < C.maxFacesInDatabase, j < i ∨ i < j →
      face C facedata s'.mem j = face C facedata s.mem j) :
    Progress C facedata b file register i i s s' := by
  refine ⟨fun j h1 h2 => absurd h2 (by omega), ?_, fun j h1 h2 => absurd h2 (by omega), hkept⟩
  rw [Nat.sub_self, List.range'_zero, List.map_nil, List.append_nil, hint]

/-- A record loaded and registered, and then further records. -/
theorem Progress.cons {file : List UInt8} {register : ℕ → Bool} {k : ℕ} {s s' : State}
    {m₁ : Mem UInt8} (hi : i < C.maxFacesInDatabase) (hik : i + 1 ≤ k)
    (ho : Owned C facedata b s.mem) (hlen : recordStart C (i + 1) ≤ file.length)
    (hreg : register i = true) (hstep : Rewritten C facedata b i s.mem m₁ (fileFace C b file i))
    (h : Progress C facedata b file register (i + 1) k
      ⟨m₁, s.internal ++ [face C facedata m₁ i]⟩ s') :
    Progress C facedata b file register i k s s' := by
  refine ⟨fun j h1 h2 => ?_, ?_, fun j h1 h2 => ?_, fun j hj hout => ?_⟩
  · rcases Nat.eq_or_lt_of_le h1 with rfl | h1
    · exact ⟨hlen, hreg⟩
    · exact h.complete j h1 h2
  · rw [h.internal, hstep.face, List.append_assoc, show k - i = k - (i + 1) + 1 by omega,
      List.range'_succ, List.map_cons]
    rfl
  · rcases Nat.eq_or_lt_of_le h1 with rfl | h1
    · rw [h.kept i hi (Or.inl (Nat.lt_succ_self i))]
      exact hstep.face
    · exact h.loaded j h1 h2
  · rw [h.kept j hj (by omega)]
    exact (others_keep hp hstep.frame hi hj (by omega) (ho j hj)).2

/-- The end of the loop does not look at an earlier record. -/
theorem Stop.cons {file : List UInt8} {register : ℕ → Bool} {n k : ℕ} {s s₁ s' : State} {r : Option ℕ}
    (hi : i < C.maxFacesInDatabase) (hik : i + 1 ≤ k) (hn : n ≤ C.maxFacesInDatabase)
    (hframe : Set.EqOn s₁.mem s.mem (region C facedata b i)ᶜ)
    (h : Stop C facedata b file register n k s₁ s' r) :
    Stop C facedata b file register n k s s' r := by
  cases h with
  | all hk hown => exact .all hk hown
  | refused hk hlen hreg hown => exact .refused hk hlen hreg hown
  | cut hk hlen hown hpay =>
    refine .cut hk hlen hown ?_
    rw [hpay, (fieldsAt_of_eqOn hp hframe hi (by omega) (by omega)).2]

/-- **The second loop** loads and registers records up to one that is refused, or cut, or the last. -/
theorem loadRecords_spec (file : List UInt8) (register : ℕ → Bool) {n : ℕ} {s : State}
    (hn : i + n ≤ C.maxFacesInDatabase) (ho : Owned C facedata b s.mem) :
    ∃ k, i ≤ k ∧
      Progress C facedata b file register i k s
        (loadRecords C facedata register i n (file.drop (recordStart C i)) s).2 ∧
      Stop C facedata b file register (i + n) k s
        (loadRecords C facedata register i n (file.drop (recordStart C i)) s).2
        (loadRecords C facedata register i n (file.drop (recordStart C i)) s).1 := by
  induction n generalizing i s with
  | zero => exact ⟨i, le_rfl, .refl file register s s rfl fun _ _ _ => rfl, .all rfl ho⟩
  | succ n ih =>
    have hi : i < C.maxFacesInDatabase := by omega
    have hnext : recordStart C (i + 1) = recordStart C i + (C.facedataSize + C.structSize) := by
      unfold recordStart
      ring
    have hothers : ∀ {m' : Mem UInt8}, Set.EqOn m' s.mem (region C facedata b i)ᶜ →
        ∀ j < C.maxFacesInDatabase, j < i ∨ i < j →
          face C facedata m' j = face C facedata s.mem j := fun hfr j hj hout =>
      (others_keep hp hfr hi hj (by omega) (ho j hj)).2
    unfold loadRecords
    by_cases hlen : recordStart C (i + 1) ≤ file.length
    · obtain ⟨m₁, hread, hstep⟩ := readRecord_ok hp (file.drop (recordStart C i)) hi (ho i hi)
        (by rw [List.length_drop]; omega)
      have hface : ownedFace C b i
          (slice (file.drop (recordStart C i)) C.facedataSize C.structSize)
          ((file.drop (recordStart C i)).take C.facedataSize) = fileFace C b file i := by
        unfold fileFace slice
        rw [List.drop_drop]
      rw [hface] at hstep
      rw [hread, List.drop_drop, ← hnext]
      dsimp only
      have hown := hstep.owned hp hi ho
      split_ifs with hreg
      · have hown' : Owned C facedata b
            (⟨m₁, s.internal ++ [face C facedata m₁ i]⟩ : State).mem := hown
        obtain ⟨k, hk, hprog, hstop⟩ := ih (show i + 1 + n ≤ C.maxFacesInDatabase by omega) hown'
        rw [show i + 1 + n = i + (n + 1) by omega] at hstop
        exact ⟨k, by omega, hprog.cons hp hi hk ho hlen hreg hstep,
          hstop.cons hp hi hk (by omega) hstep.frame⟩
      · exact ⟨i, le_rfl, .refl file register s _ rfl (hothers hstep.frame),
          .refused (by omega) hlen (Bool.eq_false_iff.mpr hreg) hown⟩
    · have hfits := C.fits
      obtain ⟨m₁, hread, hframe, hfields, hpay⟩ := readRecord_cut hp
        (file.drop (recordStart C i)) hi (ho i hi) (by rw [List.length_drop]; omega)
      rw [hread]
      refine ⟨i, le_rfl, .refl file register s _ rfl (hothers hframe), .cut (by omega) (by omega) ?_ hpay⟩
      rw [List.drop_drop] at hfields
      rw [← cut_data_iff hp hi (ho i hi) hfields]
      refine ⟨fun hown => hown i hi, fun hd j hj => ?_⟩
      by_cases hij : i = j
      · subst hij
        exact hd
      · exact (others_keep hp hframe hi hj hij (ho j hj)).1

/-! ### A load -/

/-- **What a load does** to records that point to their slices. -/
theorem loadExternalDB_spec (file : Option (List UInt8)) (register : ℕ → Bool) {s : State}
    (ho : Owned C facedata b s.mem) :
    Loaded C facedata b file register s (loadExternalDB C facedata file register s).2
      (loadExternalDB C facedata file register s).1 := by
  obtain ⟨hown, hz⟩ := clear_spec hp ho le_rfl
  unfold loadExternalDB
  split_ifs with h0
  · exact .unopened (Or.inl h0) rfl
  cases file with
  | none => exact .unopened (Or.inr rfl) rfl
  | some f =>
    dsimp only
    split_ifs with hlen hnum
    · exact .uncounted f rfl (Or.inl hlen) rfl hown hz
    · exact .uncounted f rfl (Or.inr hnum) rfl hown hz
    · rw [not_or, not_lt, not_lt] at hnum
      obtain ⟨k, -, hprog, hstop⟩ := loadRecords_spec hp (i := 0) (n := (numRegistered f).toNat) f
        register (s := ⟨(List.range C.maxFacesInDatabase).foldl (clearRecord C facedata) s.mem, []⟩)
        (by omega) hown
      rw [show recordStart C 0 = 4 by unfold recordStart; omega] at hprog hstop
      rw [Nat.zero_add] at hstop
      have hgood : ¬ BadCount C f := by
        unfold BadCount
        omega
      exact .records f k ⟨_, []⟩ rfl hgood rfl hown hz hprog hstop

end Loop

/-! ### The pointers -/

/-- A call of `loadExternalDB`: what `fopen` finds, and the outcomes of the registrations. -/
structure Call where
  file : Option (List UInt8)
  register : ℕ → Bool

variable (C facedata b)

/-- One load. -/
def loadStep (s : State) (call : Call) : Option State :=
  some (loadExternalDB C facedata call.file call.register s).2

/-- The array as `initExternalDB` leaves it. -/
def Initialized (malloc : ℕ → Option ℕ) (s : State) : Prop :=
  ∃ m, s.mem = (initExternalDB C facedata malloc m).2

/-- The file is not cut inside a pointer the load gets to, or it has the right bytes there. -/
def keepsPointers (_ : State) (call : Call) : Prop :=
  ∀ file ∈ call.file, ¬ BadCount C file → ∀ i : ℕ, i < numRegistered file →
    (∀ j < i, call.register j = true) → file.length < recordStart C (i + 1) → PointerKept C b file i

variable {C facedata b}

theorem Loaded.owned {file : Option (List UInt8)} {register : ℕ → Bool} {s s' : State} {r : Option ℕ}
    (h : Loaded C facedata b file register s s' r) (ho : Owned C facedata b s.mem)
    (hk : keepsPointers C b s ⟨file, register⟩) : Owned C facedata b s'.mem := by
  cases h with
  | unopened _ hs =>
    rw [hs]
    exact ho
  | uncounted f hf hbad hint hown hz => exact hown
  | records f k s₀ hf hbad hint hown₀ hz hprog hstop =>
    cases hstop with
    | all _ hown => exact hown
    | refused _ _ _ hown => exact hown
    | cut hkn hlen hiff hpay =>
      have hreg : ∀ j < k, register j = true := fun j hj =>
        (hprog.complete j (Nat.zero_le j) hj).2
      have hkn' : (k : ℤ) < numRegistered f := by omega
      exact hiff.mpr (hk f (Option.mem_def.mpr hf) hbad k hkn' hreg hlen)

/-- The condition is exact. -/
theorem Loaded.keepsPointers {file : Option (List UInt8)} {register : ℕ → Bool} {s s' : State}
    {r : Option ℕ} (h : Loaded C facedata b file register s s' r) (h0 : facedata ≠ 0)
    (hown : Owned C facedata b s'.mem) : keepsPointers C b s ⟨file, register⟩ := by
  intro f hf hbad i hi hreg hlen
  obtain rfl : file = some f := hf
  cases h with
  | unopened hwhy _ =>
    rcases hwhy with hwhy | hwhy
    · exact absurd hwhy h0
    · cases hwhy
  | uncounted f' hf' hbad' hint _ hz =>
    obtain rfl := Option.some.inj hf'
    exact absurd hbad' hbad
  | records f' k s₀ hf' _ hint _ hz hprog hstop =>
    obtain rfl := Option.some.inj hf'
    -- the records before the end of the loop are complete
    have hki : k ≤ i := by
      by_contra hlt
      have hc := (hprog.complete i (Nat.zero_le i) (by omega)).1
      omega
    cases hstop with
    | all hk _ => omega
    | refused hkn hc hno _ =>
      rcases Nat.eq_or_lt_of_le hki with rfl | hki
      · omega
      · have htrue : register k = true := hreg k hki
        rw [hno] at htrue
        cases htrue
    | cut hkn hcut hiff _ =>
      rcases Nat.eq_or_lt_of_le hki with rfl | hki
      · exact hiff.mp hown
      · intro p _ hin
        have hle : recordStart C (k + 1) ≤ recordStart C i := by
          unfold recordStart
          exact Nat.add_le_add_left (Nat.mul_le_mul_right _ hki) 4
        omega

variable {allowed : State → Call → Prop} {init : State → Prop}

theorem reach_load {s : State} (h : Reach (loadStep C facedata) allowed init s) (call : Call)
    (ha : allowed s call) : Reach (loadStep C facedata) allowed init
      (loadExternalDB C facedata call.file call.register s).2 := h.step ha rfl

/-- **Every record keeps its slice** through all loads under `keepsPointers`, and what is written
through its pointer stays in the slice. -/
theorem data_of_keepsPointers (hp : Placed C facedata b) {malloc : ℕ → Option ℕ}
    (hm : malloc (C.maxFacesInDatabase * C.facedataSize) = some b) {s : State}
    (h : Reach (loadStep C facedata) (keepsPointers C b) (Initialized C facedata malloc) s) {i : ℕ}
    (hi : i < C.maxFacesInDatabase) :
    data C facedata s.mem i = b + i * C.facedataSize ∧
      ∀ src : List UInt8, src.length ≤ C.facedataSize →
        Set.EqOn (s.mem.write (data C facedata s.mem i) src) s.mem (slot b C.facedataSize i)ᶜ := by
  have hinit : ∀ s, Initialized C facedata malloc s → Owned C facedata b s.mem := by
    rintro s ⟨m, hs⟩
    rw [hs]
    exact initExternalDB_owned hp hm m
  have hstep : ∀ s call s', Reach (loadStep C facedata) (keepsPointers C b)
      (Initialized C facedata malloc) s → Owned C facedata b s.mem → keepsPointers C b s call →
      loadStep C facedata s call = some s' → Owned C facedata b s'.mem := by
    intro s call s' _ hs ha hst
    obtain rfl := Option.some.inj hst
    exact (loadExternalDB_spec hp call.file call.register hs).owned hs ha
  have hown : Owned C facedata b s.mem :=
    h.invariant (I := fun s : State => Owned C facedata b s.mem) hinit hstep
  have hd : data C facedata s.mem i = b + i * C.facedataSize := hown i hi
  refine ⟨hd, fun src hsrc => ?_⟩
  rw [hd]
  exact (Mem.write_eqOn s.mem _ src).mono
    (Set.compl_subset_compl.mpr (Set.Ico_subset_Ico_right (by omega)))

/-- Two records with an 8-byte field before the pointer, and one byte of payload each. -/
def demoConfig : Config := ⟨16, 8, le_rfl, 2, 1⟩

/-- The array at 100, and the block of the payloads at 200. -/
theorem demo_placed : Placed demoConfig 100 200 := by
  refine ⟨?_, by decide⟩
  rw [Set.disjoint_left]
  rintro x ⟨h1, h2⟩ ⟨h3, h4⟩
  have h2' : x < 100 + 2 * 16 := h2
  omega

/-- The demo array, right after `initExternalDB`. -/
def demoState : State := ⟨(initExternalDB demoConfig 100 (fun _ => some 200) fun _ => 255).2, []⟩

theorem demo_initialized : Initialized demoConfig 100 (fun _ => some 200) demoState :=
  ⟨fun _ => 255, rfl⟩

theorem demo_owned : Owned demoConfig 100 200 demoState.mem :=
  initExternalDB_owned demo_placed (show (fun _ : ℕ => some 200) 2 = some 200 from rfl) fun _ => 255

/-- A file with two records. -/
def demoFile : List UInt8 :=
  [2, 0, 0, 0, 7, 1, 2, 3, 4, 5, 6, 7, 8, 9, 9, 9, 9, 9, 9, 9, 9,
    6, 8, 7, 6, 5, 4, 3, 2, 1, 9, 9, 9, 9, 9, 9, 9, 9]

/-- The file is loaded, and then once more, cut in its second record: that record keeps its slice. -/
theorem data_of_keepsPointers_demo :
    data demoConfig 100 (loadExternalDB demoConfig 100 (some (demoFile.take 26)) (fun _ => true)
      (loadExternalDB demoConfig 100 (some demoFile) (fun _ => true) demoState).2).2.mem 1 =
        200 + 1 * demoConfig.facedataSize := by
  have hinit : Reach (loadStep demoConfig 100) (keepsPointers demoConfig 200)
      (Initialized demoConfig 100 fun _ => some 200) demoState := .init demo_initialized
  refine (data_of_keepsPointers demo_placed rfl (reach_load (reach_load hinit ⟨some demoFile, fun _ => true⟩ ?_)
    ⟨some (demoFile.take 26), fun _ => true⟩ ?_) (i := 1) (by decide)).1
  · intro f hf _ i hi _ hlen
    obtain rfl := Option.some.inj hf
    have hi' : (i : ℤ) < 2 := hi
    have hlen' : 38 < 4 + (i + 1) * 17 := hlen
    omega
  · intro f hf _ i hi _ hlen k _ hin
    obtain rfl := Option.some.inj hf
    have hi' : (i : ℤ) < 2 := hi
    have hlen' : 26 < 4 + (i + 1) * 17 := hlen
    have hin' : 4 + i * 17 + 1 + 8 + k < 26 := hin
    omega

/-- The file is cut after the first byte of the pointer. -/
theorem data_not_kept : ¬ ∀ (C : Config) (facedata b : ℕ) (malloc : ℕ → Option ℕ) (s : State),
    Placed C facedata b → malloc (C.maxFacesInDatabase * C.facedataSize) = some b →
    Reach (loadStep C facedata) (fun _ _ => True) (Initialized C facedata malloc) s →
    ∀ i < C.maxFacesInDatabase, data C facedata s.mem i = b + i * C.facedataSize := by
  intro h
  have hinit : Reach (loadStep demoConfig 100) (fun _ _ => True)
      (Initialized demoConfig 100 fun _ => some 200) demoState := .init demo_initialized
  have hown : Owned demoConfig 100 200 (loadExternalDB demoConfig 100 (some (demoFile.take 14))
      (fun _ => true) demoState).2.mem :=
    h demoConfig 100 200 (fun _ => some 200) _ demo_placed rfl
      (reach_load hinit ⟨some (demoFile.take 14), fun _ => true⟩ trivial)
  have hspec := loadExternalDB_spec demo_placed (some (demoFile.take 14)) (fun _ => true)
    demo_owned
  have hkept := hspec.keepsPointers (by decide) hown (demoFile.take 14) rfl
    (by unfold BadCount; decide) 0 (by decide) (fun _ _ => rfl) (by decide) 0 (by decide) (by decide)
  exact absurd hkept (by decide)

/-! ### Failure -/

/-- What a failed load leaves: everything, if there is no array or no file; with a bad number of
records, cleared records; and otherwise, with the record `k` cut, the records before it loaded and
registered, the bytes of its payload that there are, and the records after it cleared. -/
inductive Failed (C : Config) (facedata b : ℕ) (file : Option (List UInt8)) (register : ℕ → Bool)
    (s s' : State) : Prop
  | unopened : facedata = 0 ∨ file = none → s' = s → Failed C facedata b file register s s'
  | uncounted (f : List UInt8) : file = some f → BadCount C f → s'.internal = s.internal →
      (∀ i < C.maxFacesInDatabase, face C facedata s'.mem i = clearedFace C b i) →
      Failed C facedata b file register s s'
  | cut (f : List UInt8) (k : ℕ) : file = some f → ¬ BadCount C f → k < numRegistered f →
      f.length < recordStart C (k + 1) →
      (∀ j < k, recordStart C (j + 1) ≤ f.length ∧ register j = true) →
      s'.internal = (List.range k).map (fileFace C b f) →
      (∀ j < k, face C facedata s'.mem j = fileFace C b f j) →
      payloadAt C b s'.mem k =
        memcpy (zeros C.facedataSize) 0 (slice f (recordStart C k) C.facedataSize) →
      (∀ j < C.maxFacesInDatabase, k < j → face C facedata s'.mem j = clearedFace C b j) →
      Failed C facedata b file register s s'

/-- **A load that returns `FALSE`** has left one of these three states. -/
theorem loadExternalDB_failed (hp : Placed C facedata b) {s : State}
    (ho : Owned C facedata b s.mem) (file : Option (List UInt8)) (register : ℕ → Bool)
    (hfail : (loadExternalDB C facedata file register s).1 = none) :
    Failed C facedata b file register s (loadExternalDB C facedata file register s).2 := by
  have hspec := loadExternalDB_spec hp file register ho
  rw [hfail] at hspec
  cases hspec with
  | unopened hwhy hs => exact .unopened hwhy hs
  | uncounted f hf hbad hint _ hz => exact .uncounted f hf hbad hint hz
  | records f k s₀ hf hbad hint hown₀ hz hprog hstop =>
    cases hstop with
    | cut hkn hlen _ hpay =>
      have hzero : payloadAt C b s₀.mem k = zeros C.facedataSize := by
        have hk := hz k (by unfold BadCount at hbad; omega)
        rw [face_eq (hown₀ k (by unfold BadCount at hbad; omega))] at hk
        exact congrArg Face.payload hk
      refine .cut f k hf hbad (by omega) hlen (fun j hj => hprog.complete j (Nat.zero_le j) hj) ?_
        (fun j hj => hprog.loaded j (Nat.zero_le j) hj) (by rw [hpay, hzero]) fun j hj hkj => ?_
      · rw [hprog.internal, hint, List.nil_append, Nat.sub_zero, ← List.range_eq_range']
      · rw [hprog.kept j hj (Or.inr hkj), hz j hj]

/-- The demo file, cut in its second record. -/
theorem loadExternalDB_failed_demo :
    (loadExternalDB demoConfig 100 (some (demoFile.take 26)) (fun _ => true) demoState).1 = none ∧
      Failed demoConfig 100 200 (some (demoFile.take 26)) (fun _ => true) demoState
        (loadExternalDB demoConfig 100 (some (demoFile.take 26)) (fun _ => true) demoState).2 := by
  have hfail : (loadExternalDB demoConfig 100 (some (demoFile.take 26)) (fun _ => true)
      demoState).1 = none := by decide +kernel
  exact ⟨hfail, loadExternalDB_failed demo_placed demo_owned _ _ hfail⟩

/-- The demo array, with the demo file loaded. -/
def demoLoaded : State := (loadExternalDB demoConfig 100 (some demoFile) (fun _ => true) demoState).2

theorem demo_loaded : Owned demoConfig 100 200 demoLoaded.mem ∧
    face demoConfig 100 demoLoaded.mem 0 = fileFace demoConfig 200 demoFile 0 := by
  -- the load returns a number, so it got to its second loop
  cases loadExternalDB_spec demo_placed (some demoFile) (fun _ => true) demo_owned with
  | records f k s₀ hf _ _ _ _ hprog hstop =>
    obtain rfl := Option.some.inj hf
    cases hstop with
    | all hk hown => exact ⟨hown, hprog.loaded 0 le_rfl (by rw [hk]; decide)⟩
    | refused _ _ hno => cases hno

/-- The demo file is loaded, and then an empty file, which clears what was loaded. -/
theorem loadExternalDB_not_atomic : ¬ ∀ (C : Config) (facedata b : ℕ) (file : Option (List UInt8))
    (register : ℕ → Bool) (s : State), Placed C facedata b → Owned C facedata b s.mem →
    (loadExternalDB C facedata file register s).1 = none →
    (loadExternalDB C facedata file register s).2.internal = s.internal ∧
      ∀ i < C.maxFacesInDatabase, face C facedata
        (loadExternalDB C facedata file register s).2.mem i = face C facedata s.mem i := by
  intro h
  obtain ⟨hown, hface⟩ := demo_loaded
  -- the empty file has no number of records
  have hfail : (loadExternalDB demoConfig 100 (some []) (fun _ => true) demoLoaded).1 = none := rfl
  have hkept := (h demoConfig 100 200 (some []) (fun _ => true) demoLoaded demo_placed hown hfail).2 0
    (by decide)
  cases loadExternalDB_spec demo_placed (some []) (fun _ => true) hown with
  | unopened hwhy _ =>
    rcases hwhy with hwhy | hwhy
    · exact absurd hwhy (by decide)
    · cases hwhy
  | uncounted f _ _ _ _ hz =>
    rw [hz 0 (by decide), hface] at hkept
    exact absurd (congrArg Face.payload hkept) (by decide)
  | records f k s₀ hf hbad =>
    obtain rfl := Option.some.inj hf
    exact hbad (Or.inl (by decide))

/-! ### Success -/

/-- What a load that returns `TRUE` with the number `cnt` should report: the library has as many faces,
and they and the array are the first records of the file, with the pointers of the array. -/
structure Reported (C : Config) (facedata b : ℕ) (file : List UInt8) (cnt : ℕ) (s' : State) : Prop where
  count : cnt = s'.internal.length
  database : s'.internal = (List.range cnt).map (fileFace C b file)
  array : ∀ i < cnt, face C facedata s'.mem i = fileFace C b file i

/-- **The number is that of the registered faces** exactly if no record is refused: a refused record
counts, but is not registered. -/
theorem loadExternalDB_reported_iff (hp : Placed C facedata b) {s : State}
    (ho : Owned C facedata b s.mem) (file : List UInt8) (register : ℕ → Bool) {cnt : ℕ}
    (htrue : (loadExternalDB C facedata (some file) register s).1 = some cnt) :
    Reported C facedata b file cnt (loadExternalDB C facedata (some file) register s).2 ↔
      ∀ i : ℕ, i < numRegistered file → register i = true := by
  have hspec := loadExternalDB_spec hp (some file) register ho
  rw [htrue] at hspec
  cases hspec with
  | records f k s₀ hf hbad hint hown₀ hz hprog hstop =>
    obtain rfl := Option.some.inj hf
    have hinternal : (loadExternalDB C facedata (some file) register s).2.internal =
        (List.range k).map (fileFace C b file) := by
      rw [hprog.internal, hint, List.nil_append, Nat.sub_zero, ← List.range_eq_range']
    cases hstop with
    | all hk _ =>
      rw [hk] at hinternal
      refine iff_of_true ⟨?_, hinternal, ?_⟩ ?_
      · rw [hinternal, List.length_map, List.length_range]
      · intro i hi
        exact hprog.loaded i (Nat.zero_le i) (by omega)
      · intro i hi
        exact (hprog.complete i (Nat.zero_le i) (by omega)).2
    | refused hkn _ hno _ =>
      refine iff_of_false ?_ ?_
      · intro hrep
        have hcount := hrep.count
        rw [hinternal, List.length_map, List.length_range] at hcount
        omega
      · intro hall
        rw [hall k (by omega)] at hno
        cases hno

/-- The library accepts both records of the demo file, or refuses the second. -/
theorem loadExternalDB_reported_demo :
    Reported demoConfig 100 200 demoFile 2
        (loadExternalDB demoConfig 100 (some demoFile) (fun _ => true) demoState).2 ∧
      ¬ Reported demoConfig 100 200 demoFile 2
        (loadExternalDB demoConfig 100 (some demoFile) (fun i => decide (i = 0)) demoState).2 := by
  have hall : (loadExternalDB demoConfig 100 (some demoFile) (fun _ => true) demoState).1 =
      some 2 := by decide +kernel
  have hone : (loadExternalDB demoConfig 100 (some demoFile) (fun i => decide (i = 0)) demoState).1 =
      some 2 := by decide +kernel
  refine ⟨(loadExternalDB_reported_iff demo_placed demo_owned demoFile _ hall).mpr fun _ _ => rfl,
    fun h => ?_⟩
  have htrue := (loadExternalDB_reported_iff demo_placed demo_owned demoFile _ hone).mp h 1 (by decide)
  exact absurd htrue (by decide)

/-- The library refuses the second record of the demo file: two faces are reported, and one registered. -/
theorem loadExternalDB_not_reported : ¬ ∀ (C : Config) (facedata b : ℕ) (file : List UInt8)
    (register : ℕ → Bool) (s : State) (cnt : ℕ), Placed C facedata b → Owned C facedata b s.mem →
    (loadExternalDB C facedata (some file) register s).1 = some cnt →
    Reported C facedata b file cnt (loadExternalDB C facedata (some file) register s).2 := by
  intro h
  have htrue : (loadExternalDB demoConfig 100 (some demoFile) (fun i => decide (i = 0)) demoState).1 =
      some 2 := by decide +kernel
  have hcount := (h demoConfig 100 200 demoFile (fun i => decide (i = 0)) demoState 2 demo_placed
    demo_owned htrue).count
  have hone : (loadExternalDB demoConfig 100 (some demoFile) (fun i => decide (i = 0))
      demoState).2.internal.length = 1 := by decide +kernel
  omega

end FaceDatabase

end IntelCamera
