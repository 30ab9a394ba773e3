import IntelCamera.Lib.Compact
import IntelCamera.Lib.Machine
import Mathlib.Data.List.Induction

/-!
# FaceRecognition — recognition of the detected faces (`gst_pvl_face_recognition_filter.c`)

`gst_pvl_fr_filter_transform_frame_ip` takes the faces that a detection filter has attached to the
frame, hands those that look at the camera to the recognition library, and attaches one entry per face
with the person that was recognised.  A first loop compacts the faces that are tried, a second loop
puts the results back with an index of its own.

The library is a parameter.  The lists are blocks of memory whose size is a `gint`; the size of the
block of a recognition list is computed as the source does it (`addMeta`).  The pixels, the clock, the
log and the message on the bus are left out.
-/

namespace IntelCamera

open Lib

namespace FaceRecognition

/-- `pvl_rect`. -/
structure Rect where
  left : Int32
  top : Int32
  right : Int32
  bottom : Int32
deriving DecidableEq, Repr

/-- `PvlFaceDetectionInfo`, without the confidence. -/
structure DetectionInfo where
  rect : Rect
  ripAngle : Int32
  ropAngle : Int32
  trackingId : Int32
deriving DecidableEq, Repr

/-- `PvlFaceRecognitionInfo`. -/
structure RecognitionInfo where
  rect : Rect
  personId : Int32
deriving DecidableEq, Repr

/-- `sizeof (PvlFaceDetectionInfo)`. -/
def sizeofDetectionInfo : ℕ := 32

/-- `sizeof (PvlFaceRecognitionInfo)`. -/
def sizeofRecognitionInfo : ℕ := 20

/-- `PvlFaceDetectionMeta`: the faces attached to a frame.  `gst_buffer_add_pvl_face_detection_meta`
allocates them as a block whose size is a `gint`. -/
structure DetectionMeta where
  infoList : List DetectionInfo
  fits : infoList.length * sizeofDetectionInfo < 2 ^ 31

/-- `num_of_faces`. -/
def DetectionMeta.numOfFaces (info : DetectionMeta) : Int32 := Int32.ofNat info.infoList.length

/-- `PvlFaceRecognitionMeta`. -/
structure RecognitionMeta where
  numOfFaces : Int32
  infoList : List RecognitionInfo
deriving DecidableEq, Repr

/-- `gst_buffer_add_pvl_face_recognition_meta`: the copy holds the records of the bytes that were
copied. -/
def addMeta (numOfFaces : Int32) (infoList : List RecognitionInfo) : RecognitionMeta :=
  if numOfFaces > 0 then
    let size := intT (sizeT numOfFaces * UInt64.ofNat sizeofRecognitionInfo)
    ⟨numOfFaces, infoList.take ((sizeT size).toNat / sizeofRecognitionInfo)⟩
  else ⟨0, []⟩

/-- What is handed to the library of a face: `face_rects`, `face_angles` and `tracking_ids`. -/
structure Submission where
  rect : Rect
  angle : Int32
  trackingId : Int32
deriving DecidableEq, Repr

/-- The recognition library: the maximum in its parameters, the status of the result buffer, and the
run with its status and the persons it found. -/
structure Library where
  getParameters : Except Int32 Int32
  createResultBuffer : Int32 → Int32
  runInPreviewWithRect : List Submission → Int32 × List Int32

/-- `try_fr`. -/
def tryFr (face : DetectionInfo) : Bool := face.ropAngle < 45 && face.ropAngle > -45

/-- The entries of a face in the three arrays. -/
def submission (face : DetectionInfo) : Submission := ⟨face.rect, face.ripAngle, face.trackingId⟩

/-- The first loop: the faces to be tried, compacted, and `try_fr_index`. -/
def collect (faces : List DetectionInfo) : List Submission × List Bool :=
  faces.foldl (fun acc face =>
    (if tryFr face then acc.1 ++ [submission face] else acc.1, acc.2 ++ [tryFr face])) ([], [])

/-- The second loop: `fr_info_list`, or nothing if a result is read that was not submitted. -/
def frInfoList (faces : List DetectionInfo) (tryFrIndex : List Bool) (frResults : List Int32) :
    Option (List RecognitionInfo) :=
  expand Prod.snd (fun x personId => ⟨x.1.rect, personId⟩) (fun x => ⟨x.1.rect, -10000⟩) frResults
    (faces.zip tryFrIndex) 0

/-- `GstFlowReturn`. -/
inductive Flow
  | ok | error
deriving DecidableEq, Repr

/-- What a call does: what it returns, what it hands to the library and what it attaches. -/
structure Outcome where
  flow : Flow
  submitted : List Submission
  attached : Option RecognitionMeta
deriving DecidableEq, Repr

/-- `num_faces`. -/
def numFaces (info : Option DetectionMeta) (maxRecognizableFaces : Int32) : Int32 :=
  match info with
  | none => 0
  | some info =>
    if info.numOfFaces > maxRecognizableFaces then maxRecognizableFaces else info.numOfFaces

/-- The faces attached to the frame. -/
def facesOf (info : Option DetectionMeta) : List DetectionInfo :=
  (info.map DetectionMeta.infoList).getD []

/-- `gst_pvl_fr_filter_transform_frame_ip`. -/
def transformFrameIp (pvlFr : Option Library) (info : Option DetectionMeta) : Option Outcome :=
  match pvlFr with
  | none => some ⟨.error, [], none⟩
  | some lib =>
    match lib.getParameters with
    | .error _ => some ⟨.error, [], none⟩
    | .ok maxRecognizableFaces =>
      let num := numFaces info maxRecognizableFaces
      let faces := (facesOf info).take num.toInt.toNat
      if num > 0 then
        if lib.createResultBuffer num ≠ 0 then some ⟨.error, [], none⟩ else
        let (submitted, tryFrIndex) := collect faces
        let (ret, frResults) := lib.runInPreviewWithRect submitted
        if ret ≥ 0 then
          (frInfoList faces tryFrIndex frResults).map fun list =>
            ⟨.ok, submitted, some (addMeta num list)⟩
        else some ⟨.ok, submitted, some (addMeta 0 [])⟩
      -- no detected face: the status is still that of the parameters
      else some ⟨.ok, [], some (addMeta num [])⟩

/-! ### The two loops -/

theorem collect_eq (faces : List DetectionInfo) :
    collect faces = ((faces.filter tryFr).map submission, faces.map tryFr) := by
  induction faces using List.reverseRecOn with
  | nil => rfl
  | append_singleton faces face ih =>
    unfold collect at ih ⊢
    rw [List.foldl_append, ih, List.foldl_cons, List.foldl_nil, List.filter_append, List.map_append,
      List.map_append]
    by_cases h : tryFr face = true
    · rw [if_pos h, List.filter_cons_of_pos h]
      rfl
    · rw [if_neg h, List.filter_cons_of_neg h]
      simp

theorem zip_map_self (faces : List DetectionInfo) :
    faces.zip (faces.map tryFr) = faces.map fun face => (face, tryFr face) := by
  induction faces with
  | nil => rfl
  | cons face faces ih =>
    rw [List.map_cons, List.zip_cons_cons, ih]
    rfl

/-- The face looks at the camera. -/
def Eligible (face : DetectionInfo) : Prop := -45 < face.ropAngle.toInt ∧ face.ropAngle.toInt < 45

instance (face : DetectionInfo) : Decidable (Eligible face) := inferInstanceAs (Decidable (_ ∧ _))

theorem tryFr_iff (face : DetectionInfo) : tryFr face = true ↔ Eligible face := by
  have hlo : (-45 : Int32).toInt = -45 := by decide
  have hhi : (45 : Int32).toInt = 45 := by decide
  unfold tryFr Eligible
  rw [Bool.and_eq_true, decide_eq_true_eq, decide_eq_true_eq, gt_iff_lt, Int32.lt_iff_toInt_lt,
    Int32.lt_iff_toInt_lt, hlo, hhi, and_comm]

theorem tryFr_eq : tryFr = fun face => decide (Eligible face) := by
  funext face
  rw [Bool.eq_iff_iff, decide_eq_true_eq, tryFr_iff]

/-- The entries of the second loop, for results that belong to the faces of the first. -/
theorem frInfoList_spec {faces : List DetectionInfo} {frResults : List Int32}
    (hlen : frResults.length = (faces.filter tryFr).length) :
    ∃ list, frInfoList faces (faces.map tryFr) frResults = some list ∧ list.length = faces.length ∧
      ∀ i face, faces[i]? = some face →
        (tryFr face = true → ∃ personId, frResults[rank tryFr faces i]? = some personId ∧
          list[i]? = some ⟨face.rect, personId⟩) ∧
        (tryFr face = false → list[i]? = some ⟨face.rect, -10000⟩) := by
  have hfilter : ((faces.map fun face => (face, tryFr face)).filter Prod.snd).length =
      (faces.filter tryFr).length := by
    rw [List.filter_map, List.length_map]
    rfl
  unfold frInfoList
  rw [zip_map_self]
  have henough : 0 + ((faces.map fun face => (face, tryFr face)).filter Prod.snd).length ≤
      frResults.length := by omega
  obtain ⟨list, hlist, hl, hspec⟩ := expand_spec
    (fun (x : DetectionInfo × Bool) personId => RecognitionInfo.mk x.1.rect personId)
    (fun x => ⟨x.1.rect, -10000⟩) henough
  refine ⟨list, hlist, by rw [hl, List.length_map], ?_⟩
  intro i face hi
  have hi' : (faces.map fun face => (face, tryFr face))[i]? = some (face, tryFr face) := by
    rw [List.getElem?_map, hi]
    rfl
  have h := hspec i _ hi'
  rw [rank_map, Nat.zero_add] at h
  exact h

/-! ### The frame -/

theorem toInt_numOfFaces (info : DetectionMeta) : info.numOfFaces.toInt = info.infoList.length := by
  have hfits := info.fits
  unfold sizeofDetectionInfo at hfits
  exact Int32.toInt_ofNat_of_lt (by omega)

theorem toInt_numFaces (info : Option DetectionMeta) {M : Int32} (hM : 0 ≤ M.toInt) :
    (numFaces info M).toInt = min ((facesOf info).length : ℤ) M.toInt := by
  cases info with
  | none =>
    show (0 : Int32).toInt = min ((0 : ℕ) : ℤ) M.toInt
    have hzero : (0 : Int32).toInt = 0 := rfl
    omega
  | some info =>
    have hn := toInt_numOfFaces info
    show (if info.numOfFaces > M then M else info.numOfFaces).toInt = min (info.infoList.length : ℤ) M.toInt
    split_ifs with h
    · rw [gt_iff_lt, Int32.lt_iff_toInt_lt] at h
      omega
    · rw [gt_iff_lt, Int32.lt_iff_toInt_lt] at h
      omega

/-- The block of the recognition list is large enough for all its entries. -/
theorem addMeta_eq {num : Int32} {list : List RecognitionInfo} (hlen : num.toInt = list.length)
    (hfits : list.length * sizeofDetectionInfo < 2 ^ 31) : addMeta num list = ⟨num, list⟩ := by
  unfold sizeofDetectionInfo at hfits
  have hzero : (0 : Int32).toInt = 0 := rfl
  unfold addMeta
  split_ifs with hpos
  · have h20 : (UInt64.ofNat sizeofRecognitionInfo).toNat = 20 := by decide
    have hnum := toNat_sizeT num
    have hbytes : (sizeT num * UInt64.ofNat sizeofRecognitionInfo).toNat = list.length * 20 := by
      rw [UInt64.toNat_mul, h20, Nat.mod_eq_of_lt (by omega)]
      omega
    have hsize : (intT (sizeT num * UInt64.ofNat sizeofRecognitionInfo)).toInt = list.length * 20 := by
      rw [toInt_intT, hbytes, bmod_of_fits ⟨by omega, by omega⟩]
      push_cast
      rfl
    have hcopied := toNat_sizeT (intT (sizeT num * UInt64.ofNat sizeofRecognitionInfo))
    rw [hsize] at hcopied
    dsimp only
    congr 1
    apply List.take_of_length_le
    show list.length ≤ _ / 20
    omega
  · rw [gt_iff_lt, Int32.lt_iff_toInt_lt, hzero] at hpos
    have hnil : list = [] := List.eq_nil_of_length_eq_zero (by omega)
    have hnum : num = 0 := Int32.toInt_inj.mp (by rw [hzero]; omega)
    rw [hnil, hnum]

/-- The first faces, up to the maximum. -/
def firstFaces (info : Option DetectionMeta) (M : Int32) : List DetectionInfo :=
  (facesOf info).take (min (facesOf info).length M.toInt.toNat)

/-- What is to be submitted of some faces: those that look at the camera, in order. -/
def submissions (faces : List DetectionInfo) : List Submission :=
  (faces.filter fun face => decide (Eligible face)).map submission

theorem collect_eq_submissions (faces : List DetectionInfo) :
    collect faces = (submissions faces, faces.map tryFr) := by
  rw [collect_eq]
  unfold submissions
  rw [← tryFr_eq]

theorem length_firstFaces (info : Option DetectionMeta) {M : Int32} (hM : 0 ≤ M.toInt) :
    ((firstFaces info M).length : ℤ) = min ((facesOf info).length : ℤ) M.toInt := by
  unfold firstFaces
  rw [List.length_take]
  omega

theorem firstFaces_fits (info : Option DetectionMeta) (M : Int32) :
    (firstFaces info M).length * sizeofDetectionInfo < 2 ^ 31 := by
  have hle : (firstFaces info M).length ≤ (facesOf info).length := List.length_take_le' ..
  cases info with
  | none =>
    have hzero : (facesOf none).length = 0 := rfl
    rw [hzero] at hle
    rw [Nat.le_zero.mp hle]
    decide
  | some info =>
    have hfits := info.fits
    have heq : (facesOf (some info)).length = info.infoList.length := rfl
    unfold sizeofDetectionInfo at hfits ⊢
    omega

section Frame

variable {lib : Library} {M : Int32} (hparams : lib.getParameters = .ok M) (hM : 0 ≤ M.toInt)
  (hbuffer : ∀ n, lib.createResultBuffer n = 0)
  (hrun : ∀ submitted, 0 ≤ (lib.runInPreviewWithRect submitted).1 ∧
    (lib.runInPreviewWithRect submitted).2.length = submitted.length)

include hparams hM hbuffer hrun

/-- The call in terms of the second loop. -/
theorem transformFrameIp_eq (info : Option DetectionMeta) {list : List RecognitionInfo}
    (hlist : frInfoList (firstFaces info M) ((firstFaces info M).map tryFr)
      (lib.runInPreviewWithRect (submissions (firstFaces info M))).2 = some list)
    (hlen : list.length = (firstFaces info M).length) :
    transformFrameIp (some lib) info =
      some ⟨.ok, submissions (firstFaces info M), some ⟨numFaces info M, list⟩⟩ := by
  have hnum := toInt_numFaces info hM
  have hfirst := length_firstFaces info hM
  have hmeta : addMeta (numFaces info M) list = ⟨numFaces info M, list⟩ := by
    refine addMeta_eq (by omega) ?_
    rw [hlen]
    exact firstFaces_fits info M
  have hfaces : (facesOf info).take (numFaces info M).toInt.toNat = firstFaces info M := by
    unfold firstFaces
    congr 1
    omega
  have hzero : (0 : Int32).toInt = 0 := rfl
  have hret := (hrun (submissions (firstFaces info M))).1
  unfold transformFrameIp
  dsimp only
  rw [hparams]
  dsimp only
  rw [hfaces]
  by_cases hpos : numFaces info M > 0
  · rw [if_pos hpos, if_neg (not_not.mpr (hbuffer _)), collect_eq_submissions]
    dsimp only
    rw [if_pos hret, hlist, ← hmeta]
    rfl
  · rw [if_neg hpos]
    -- no face is attached, or none may be recognised
    rw [gt_iff_lt, Int32.lt_iff_toInt_lt, hzero] at hpos
    have hnone : firstFaces info M = [] := List.eq_nil_of_length_eq_zero (by omega)
    have hnil : list = [] := List.eq_nil_of_length_eq_zero (by rw [hlen, hnone]; rfl)
    rw [hnone, ← hmeta, hnil]
    rfl

/-- **The recognition of a frame**: one entry per face, up to the maximum, and every face that looks at
the camera gets the person that the library found for it. -/
theorem transformFrameIp_spec (info : Option DetectionMeta) :
    ∃ num list, transformFrameIp (some lib) info =
        some ⟨.ok, submissions (firstFaces info M), some ⟨num, list⟩⟩ ∧
      num.toInt = min ((facesOf info).length : ℤ) M.toInt ∧
      (list.length : ℤ) = min ((facesOf info).length : ℤ) M.toInt ∧
      ∀ i face, (firstFaces info M)[i]? = some face → ∃ personId,
        list[i]? = some ⟨face.rect, personId⟩ ∧
        (Eligible face → ∃ j < (submissions (firstFaces info M)).length,
          j = (submissions ((firstFaces info M).take i)).length ∧
          (submissions (firstFaces info M))[j]? = some (submission face) ∧
          (lib.runInPreviewWithRect (submissions (firstFaces info M))).2[j]? = some personId) ∧
        (¬ Eligible face → personId = -10000) := by
  have hsub : ∀ faces, (submissions faces).length = (faces.filter tryFr).length := by
    intro faces
    unfold submissions
    rw [List.length_map, ← tryFr_eq]
  obtain ⟨list, hlist, hlen, hspec⟩ := frInfoList_spec
    ((hrun (submissions (firstFaces info M))).2.trans (hsub (firstFaces info M)))
  refine ⟨numFaces info M, list, transformFrameIp_eq hparams hM hbuffer hrun info hlist hlen,
    toInt_numFaces info hM, ?_, ?_⟩
  · rw [hlen, length_firstFaces info hM]
  · intro i face hi
    obtain ⟨htry, hskip⟩ := hspec i face hi
    by_cases he : Eligible face
    · have ht : tryFr face = true := (tryFr_iff face).mpr he
      obtain ⟨personId, hresult, hentry⟩ := htry ht
      have hplace : (submissions (firstFaces info M))[rank tryFr (firstFaces info M) i]? =
          some (submission face) := by
        unfold submissions
        rw [← tryFr_eq, List.getElem?_map, filter_rank hi ht]
        rfl
      refine ⟨personId, hentry, fun _ => ⟨_, ?_, ?_, hplace, hresult⟩, fun hno => absurd he hno⟩
      · exact (List.getElem?_eq_some_iff.mp hplace).1
      · rw [hsub]
        unfold rank
        rw [List.countP_eq_length_filter]
    · have ht : tryFr face = false := Bool.eq_false_iff.mpr (mt (tryFr_iff face).mp he)
      exact ⟨-10000, hskip ht, fun h => absurd h he, fun _ => rfl⟩

end Frame

/-- A library that knows every face by its tracking id. -/
def demoLibrary : Library where
  getParameters := .ok 3
  createResultBuffer _ := 0
  runInPreviewWithRect submitted := (0, submitted.map fun s => s.trackingId + 100)

/-- Four faces, the second of which looks away. -/
def demoMeta : DetectionMeta where
  infoList := [⟨⟨0, 0, 10, 10⟩, 0, 0, 1⟩, ⟨⟨20, 0, 30, 10⟩, 5, 60, 2⟩, ⟨⟨40, 0, 50, 10⟩, -3, -44, 3⟩,
    ⟨⟨60, 0, 70, 10⟩, 0, 10, 4⟩]
  fits := by decide

/-- The third of them gets the second result. -/
theorem transformFrameIp_spec_demo : ∃ num list, transformFrameIp (some demoLibrary) (some demoMeta) =
      some ⟨.ok, [⟨⟨0, 0, 10, 10⟩, 0, 1⟩, ⟨⟨40, 0, 50, 10⟩, -3, 3⟩], some ⟨num, list⟩⟩ ∧
    num.toInt = 3 ∧ ∃ personId, list[2]? = some ⟨⟨40, 0, 50, 10⟩, personId⟩ ∧ personId = 103 := by
  have hrun : ∀ submitted, 0 ≤ (demoLibrary.runInPreviewWithRect submitted).1 ∧
      (demoLibrary.runInPreviewWithRect submitted).2.length = submitted.length :=
    fun submitted => ⟨Int32.le_refl 0, List.length_map ..⟩
  obtain ⟨num, list, hcall, hnum, -, hfaces⟩ := transformFrameIp_spec (M := 3) rfl (by decide)
    (fun _ => rfl) hrun (some demoMeta)
  obtain ⟨personId, hentry, heligible, -⟩ := hfaces 2 ⟨⟨40, 0, 50, 10⟩, -3, -44, 3⟩ rfl
  obtain ⟨j, -, hj, -, hresult⟩ := heligible (by decide)
  have hone : j = 1 := hj
  rw [hone] at hresult
  exact ⟨num, list, hcall, hnum, personId, hentry, (Option.some.inj hresult).symm⟩

end FaceRecognition

end IntelCamera
