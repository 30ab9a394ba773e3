import IntelCamera.ParameterAdapter

/-!
# Adapter.Code — the methods of `ICameraAdapter`

Every definition is the part of a method that runs with `mLock` held, from one acquisition to the
next release.  `capture` gives up the lock around `process_capture_request`: `captureLocked` is its
first half, up to the unlock; the second half only takes the lock again and returns the status.

A client buffer (`camera_buffer_t *`) is an identifier into `client`.  A `buffer_handle_t *` is the
handle it points to; `Env.base` is the address at which a handle is mapped, and `lock` of the handle
in a result succeeds with this address.  Frame numbers are natural numbers; `Adapter.System` stops a run
before `static int frame_number` overflows.
-/

namespace IntelCamera

open Lib

/-- A `camera_buffer_t *`. -/
abbrev BufId := ℕ

/-- A `buffer_handle_t`. -/
abbrev Handle := ℕ

/-- The fields of `camera_buffer_t` the adapter uses. -/
structure CameraBuffer where
  format : Int32
  width : Int32
  height : Int32
  addr : ℕ
  sequence : ℕ
  dmafd : Int32
  timestamp : UInt64
deriving DecidableEq, Repr

/-- `ICameraAdapter::BufferWrapper`. -/
structure BufferWrapper where
  streamId : Int32
  buffer : BufId
deriving DecidableEq, Repr

/-- `ICameraAdapter::Result`; cleared when it is made. -/
structure Result where
  metadataDone : Bool := false
  buffersDone : Bool := false
  timestamp : UInt64 := 0
deriving DecidableEq, Repr

/-- `camera3_capture_request_t`; `settings` is the packet it points to. -/
structure Request where
  frameNumber : ℕ
  settings : Option ℕ
  outputBuffer : Handle
deriving DecidableEq, Repr

/-- `camera3_capture_result_t`; `outputBuffer` is the handle of `output_buffers[0]`. -/
structure CaptureResult where
  frameNumber : ℕ
  numOutputBuffers : ℕ
  result : Option Metadata
  outputBuffer : Handle
deriving DecidableEq, Repr

/-- What `GRALLOC_MAP_FD` does: it stores the handle of the new mapping, or it fails and the handle
behind the fresh pointer keeps what was there. -/
inductive MapOutcome
  | mapped (handle : Handle)
  | failed (left : Handle)
deriving DecidableEq, Repr

/-- What the adapter is given from outside: the C library, the vendor tags, the static metadata of the
camera and the address of every mapped handle. -/
structure Env where
  libc : Libc
  vendorOps : Option VendorTagOps
  staticMetadata : Option Metadata
  base : Handle → ℕ

/-- The members of `ICameraAdapter`, with the client's buffers and the packets they refer to. -/
structure Adapter where
  mStarted : Bool := false
  mPendingBuffers : List BufferWrapper := []
  mQueuedBuffers : List BufferWrapper := []
  mCapturedBuffers : List BufferWrapper := []
  mMappedBuffers : List Handle := []
  mResults : ℕ → Option Result := fun _ => none
  mBufferMapping : ℕ → Option Handle := fun _ => none
  mRequestSettings : Option ℕ := none
  mOperationMode : ℕ := 0
  frameNumber : ℕ := 0
  client : BufId → CameraBuffer
  heap : Heap := .empty

namespace Adapter

variable (env : Env)

/-! ### Capture -/

/-- `reinterpret_cast<void*>(buffer->dmafd)`. -/
def fdKey (dmafd : Int32) : ℕ := dmafd.toUInt32.toNat

/-- `mapMemory`; the status of `GRALLOC_MAP_FD` is not looked at. -/
def mapMemory (a : Adapter) (buffer : BufId) (outcome : MapOutcome) : Status × Adapter :=
  let b := a.client buffer
  if b.format ≠ v4l2PixFmtNv12 then (.badValue, a) else
  let client := match outcome with
    | .mapped handle => Function.update a.client buffer { b with addr := env.base handle }
    | .failed _ => a.client
  let handle := match outcome with
    | .mapped handle => handle
    | .failed left => left
  (.ok,
    { a with
      client := client
      mBufferMapping := Function.update a.mBufferMapping (fdKey b.dmafd) (some handle)
      mMappedBuffers := a.mMappedBuffers ++ [handle] })

/-- The lookup of `capture`: the handle of the buffer, mapped first if need be. -/
def lookup (a : Adapter) (buffer : BufId) (outcome : MapOutcome) :
    Status × Adapter × Option Handle :=
  let b := a.client buffer
  if b.dmafd > 0 then
    match a.mBufferMapping (fdKey b.dmafd) with
    | some handle => (.ok, a, some handle)
    | none =>
      let mapped := mapMemory env a buffer outcome
      (mapped.1, mapped.2, mapped.2.mBufferMapping (fdKey b.dmafd))
  else (.ok, a, a.mBufferMapping b.addr)

/-- `capture` up to the unlock: the request to be passed to the HAL, or `none` for the return of
`UNKNOWN_ERROR`, which keeps the lock. -/
def captureLocked (a : Adapter) (w : BufferWrapper) (outcome : MapOutcome) :
    Option Request × Adapter :=
  match lookup env a w.buffer outcome with
  | (.ok, a, some handle) =>
    let request : Request := ⟨a.frameNumber, a.mRequestSettings, handle⟩
    (some request,
      { a with
        frameNumber := a.frameNumber + 1
        mQueuedBuffers := a.mQueuedBuffers ++ [w] })
  | (_, a, _) => (none, a)

/-- The loop of `start` over the pending buffers, up to the first unlock (with the buffer that is
submitted) or to its end. -/
def drain (outcome : MapOutcome) :
    List BufferWrapper → Adapter → Option (BufferWrapper × Request) × Adapter
  | [], a => (none, { a with mPendingBuffers := [] })
  | w :: rest, a =>
    match captureLocked env { a with mPendingBuffers := rest } w outcome with
    | (some request, a) => (some (w, request), a)
    | (none, a) => drain outcome rest a

/-! ### Results -/

/-- `find_camera_metadata_ro_entry(result->result, ANDROID_SENSOR_TIMESTAMP, &entry)` and the read of
`entry`: the value if the entry has one.  When nothing is found `entry` keeps what was on the stack,
`stale`. -/
def shutterTimestamp (r : CaptureResult) (stale : Option UInt64) : Option UInt64 :=
  match r.result.bind fun m => findCameraMetadataEntry env.libc m sensorTimestamp with
  | some entry => if entry.count = 1 then some (i64At entry.data 0).toUInt64 else none
  | none => stale

/-- The `Result` of a frame after one more call of `processCaptureResult`. -/
def nextResult (res : Result) (r : CaptureResult) (stale : Option UInt64) : Result :=
  let res := if r.numOutputBuffers = 0 then
      { res with
        timestamp := (shutterTimestamp env r stale).getD res.timestamp
        metadataDone := true }
    else res
  if r.numOutputBuffers = 1 then { res with buffersDone := true } else res

/-- The client's buffers after the branch for the output buffer: the head of the queue gets the
address and the frame number. -/
def stamped (a : Adapter) (head : BufferWrapper) (r : CaptureResult) : BufId → CameraBuffer :=
  if r.numOutputBuffers = 1 then
    Function.update a.client head.buffer
      { a.client head.buffer with
        addr := env.base r.outputBuffer
        sequence := r.frameNumber }
  else a.client

/-- `processCaptureResult`; `none` when `mQueuedBuffers.at(0)` throws. -/
def processCaptureResult (a : Adapter) (r : CaptureResult) (stale : Option UInt64) :
    Option Adapter :=
  let res := nextResult env ((a.mResults r.frameNumber).getD {}) r stale
  let stored := { a with mResults := Function.update a.mResults r.frameNumber (some res) }
  match a.mQueuedBuffers with
  | [] =>
    if r.numOutputBuffers = 1 ∨ res.buffersDone ∧ res.metadataDone then none else some stored
  | head :: rest =>
    let client := stamped env a head r
    if res.buffersDone ∧ res.metadataDone then
      some
        { a with
          client := Function.update client head.buffer
            { client head.buffer with timestamp := res.timestamp }
          mQueuedBuffers := rest
          mCapturedBuffers := a.mCapturedBuffers ++ [head]
          mResults := Function.update a.mResults r.frameNumber none }
    else some { stored with client := client }

/-! ### Parameters and close -/

/-- The operation modes of `ICameraAdapter`. -/
def opModeDvs : ℕ := 256

/-- The operation mode that goes with a frame rate. -/
def fpsMode (fps : Int32) : ℕ :=
  if fps = 30 then 1
  else if fps > 30 ∧ fps ≤ 60 then 2
  else if fps > 60 ∧ fps ≤ 90 then 4
  else if fps > 90 ∧ fps ≤ 120 then 8
  else 0

/-- `setParameters`; none if the process ends in a conversion. -/
def setParameters (a : Adapter) (param : Parameters) : Option (Status × Adapter) :=
  match a.mRequestSettings, env.staticMetadata with
  | some _, some staticMeta =>
    let cenv : ConvertEnv := ⟨env.libc, env.vendorOps, staticMeta⟩
    let out := CameraMetadata.ofBuffer a.heap a.mRequestSettings
    (ParameterAdapter.convertAeComp cenv param.mEv out).map fun ev =>
      let fps := ParameterAdapter.convertFps cenv param.mFps ev.2
      let dvs := ParameterAdapter.convertDvs cenv param.mDvsMode fps.2
      let ae := ParameterAdapter.convertAeMode cenv param.mAeMode dvs.2
      let et := ParameterAdapter.convertExposureTime cenv param.mExposureTime ae.2
      let banding := ParameterAdapter.convertBandingMode cenv param.mBandingMode et.2
      (banding.1,
        { a with
          heap := banding.2.1
          mRequestSettings := banding.2.2.release.1
          mOperationMode := (if fps.1 = .ok then fpsMode param.mFps else 0) +
            if param.mDvsMode = .on then opModeDvs else 0 })
  | _, _ => some (.unknownError, a)

/-- `close`, from the point where it takes the lock; `mRequestSettings` keeps the pointer. -/
def close (a : Adapter) : Adapter :=
  { a with
    mBufferMapping := fun _ => none
    mMappedBuffers := []
    heap := match a.mRequestSettings with
      | none => a.heap
      | some p => a.heap.free p }

/-! ### What the critical sections do -/

/-- The lookup of `capture` succeeds for the buffer. -/
def lookupOk (a : Adapter) (buffer : BufId) : Prop :=
  if (a.client buffer).dmafd > 0 then
    (a.mBufferMapping (fdKey (a.client buffer).dmafd)).isSome ∨
      (a.client buffer).format = v4l2PixFmtNv12
  else (a.mBufferMapping (a.client buffer).addr).isSome

instance (a : Adapter) (buffer : BufId) : Decidable (lookupOk a buffer) := by
  unfold lookupOk
  infer_instance

/-- What `capture` has done at its unlock: one more request, with the next frame number and the
current settings, and its wrapper at the end of the queue. -/
structure Submitted (a : Adapter) (w : BufferWrapper) (request : Request) (a' : Adapter) : Prop where
  queued : a'.mQueuedBuffers = a.mQueuedBuffers ++ [w]
  frameNumber : a'.frameNumber = a.frameNumber + 1
  number : request.frameNumber = a.frameNumber
  settings : request.settings = a.mRequestSettings
  client : ∀ b, b ≠ w.buffer → a'.client b = a.client b
  pending : a'.mPendingBuffers = a.mPendingBuffers
  captured : a'.mCapturedBuffers = a.mCapturedBuffers
  results : a'.mResults = a.mResults
  started : a'.mStarted = a.mStarted
  requestSettings : a'.mRequestSettings = a.mRequestSettings
  heap : a'.heap = a.heap

/-- The frame of `mapMemory`: only the mapping and the buffer mapped may have changed. -/
structure Remapped (a : Adapter) (buffer : BufId) (a' : Adapter) : Prop where
  queued : a'.mQueuedBuffers = a.mQueuedBuffers
  frameNumber : a'.frameNumber = a.frameNumber
  client : ∀ b, b ≠ buffer → a'.client b = a.client b
  pending : a'.mPendingBuffers = a.mPendingBuffers
  captured : a'.mCapturedBuffers = a.mCapturedBuffers
  results : a'.mResults = a.mResults
  started : a'.mStarted = a.mStarted
  requestSettings : a'.mRequestSettings = a.mRequestSettings
  heap : a'.heap = a.heap

theorem Remapped.refl (a : Adapter) (buffer : BufId) : Remapped a buffer a :=
  ⟨rfl, rfl, fun _ _ => rfl, rfl, rfl, rfl, rfl, rfl, rfl⟩

theorem mapMemory_frame (a : Adapter) (buffer : BufId) (outcome : MapOutcome) :
    Remapped a buffer (mapMemory env a buffer outcome).2 := by
  unfold mapMemory
  dsimp only
  split_ifs
  · exact Remapped.refl a buffer
  · refine ⟨rfl, rfl, fun b hb => ?_, rfl, rfl, rfl, rfl, rfl, rfl⟩
    cases outcome with
    | mapped handle => exact Function.update_of_ne hb _ _
    | failed left => rfl

/-- `mapMemory` accepts NV12 buffers, and then the mapping is there. -/
theorem mapMemory_ok {a : Adapter} {buffer : BufId} (outcome : MapOutcome)
    (hf : (a.client buffer).format = v4l2PixFmtNv12) :
    (mapMemory env a buffer outcome).1 = .ok ∧ ∃ handle,
      (mapMemory env a buffer outcome).2.mBufferMapping (fdKey (a.client buffer).dmafd) =
        some handle := by
  unfold mapMemory
  dsimp only
  rw [if_neg (not_not.mpr hf)]
  exact ⟨rfl, _, Function.update_self _ _ _⟩

theorem mapMemory_bad {a : Adapter} {buffer : BufId} (outcome : MapOutcome)
    (hf : (a.client buffer).format ≠ v4l2PixFmtNv12) :
    mapMemory env a buffer outcome = (.badValue, a) := by
  unfold mapMemory
  dsimp only
  rw [if_pos hf]

/-- **The lookup finds a handle, or it fails and changes nothing.** -/
theorem lookup_cases (a : Adapter) (buffer : BufId) (outcome : MapOutcome) :
    (lookupOk a buffer ∧ ∃ a' handle, lookup env a buffer outcome = (.ok, a', some handle) ∧
        Remapped a buffer a') ∨
      (¬ lookupOk a buffer ∧ ((∃ st, st ≠ Status.ok ∧ ∃ m, lookup env a buffer outcome = (st, a, m)) ∨
        lookup env a buffer outcome = (.ok, a, none))) := by
  unfold lookupOk lookup
  by_cases hd : (a.client buffer).dmafd > 0
  · simp only [if_pos hd]
    cases hm : a.mBufferMapping (fdKey (a.client buffer).dmafd) with
    | some handle => exact Or.inl ⟨Or.inl rfl, a, handle, rfl, Remapped.refl a buffer⟩
    | none =>
      by_cases hf : (a.client buffer).format = v4l2PixFmtNv12
      · obtain ⟨h1, handle, h2⟩ := mapMemory_ok env outcome hf
        refine Or.inl ⟨Or.inr hf, (mapMemory env a buffer outcome).2, handle, ?_,
          mapMemory_frame env a buffer outcome⟩
        dsimp only
        rw [h1, h2]
      · refine Or.inr ⟨by simp [hf], Or.inl ⟨.badValue, by simp, ?_⟩⟩
        rw [mapMemory_bad env outcome hf]
        exact ⟨_, rfl⟩
  · simp only [if_neg hd]
    cases hm : a.mBufferMapping (a.client buffer).addr with
    | some handle => exact Or.inl ⟨rfl, a, handle, rfl, Remapped.refl a buffer⟩
    | none => exact Or.inr ⟨by simp, Or.inr rfl⟩

/-- **`capture` either submits or leaves everything as it was.** -/
theorem captureLocked_cases (a : Adapter) (w : BufferWrapper) (outcome : MapOutcome) :
    (lookupOk a w.buffer ∧ ∃ request a', captureLocked env a w outcome = (some request, a') ∧
        Submitted a w request a') ∨
      (¬ lookupOk a w.buffer ∧ captureLocked env a w outcome = (none, a)) := by
  rcases lookup_cases env a w.buffer outcome with
    ⟨hok, a', handle, hl, hr⟩ | ⟨hno, ⟨st, hst, m, hl⟩ | hl⟩
  · refine Or.inl ⟨hok, ⟨a'.frameNumber, a'.mRequestSettings, handle⟩, _, by rw [captureLocked, hl],
      ?_⟩
    exact ⟨by simp [hr.queued], by simp [hr.frameNumber], hr.frameNumber, hr.requestSettings,
      hr.client, hr.pending, hr.captured, hr.results, hr.started, hr.requestSettings, hr.heap⟩
  · refine Or.inr ⟨hno, ?_⟩
    unfold captureLocked
    rw [hl]
    cases st with
    | ok => exact absurd rfl hst
    | _ => rfl
  · exact Or.inr ⟨hno, by rw [captureLocked, hl]⟩

/-- **The loop of `start`** skips the buffers whose lookup fails and stops at the first one that is
submitted, with the rest still pending. -/
theorem drain_cases (outcome : MapOutcome) (ws : List BufferWrapper) (a : Adapter) :
    (drain env outcome ws a = (none, { a with mPendingBuffers := [] }) ∧
        ∀ w ∈ ws, ¬ lookupOk a w.buffer) ∨
      ∃ skipped w rest request a', ws = skipped ++ w :: rest ∧
        (∀ v ∈ skipped, ¬ lookupOk a v.buffer) ∧ lookupOk a w.buffer ∧
        drain env outcome ws a = (some (w, request), a') ∧
        Submitted { a with mPendingBuffers := rest } w request a' := by
  induction ws generalizing a with
  | nil => exact Or.inl ⟨rfl, by simp⟩
  | cons w ws ih =>
    rcases captureLocked_cases env { a with mPendingBuffers := ws } w outcome with
      ⟨hok, request, a', hc, hs⟩ | ⟨hno, hc⟩
    · refine Or.inr ⟨[], w, ws, request, a', rfl, by simp, hok, ?_, hs⟩
      rw [drain, hc]
    · have hd : drain env outcome (w :: ws) a =
          drain env outcome ws { a with mPendingBuffers := ws } := by rw [drain, hc]
      rw [hd]
      rcases ih { a with mPendingBuffers := ws } with ⟨h1, h2⟩ |
        ⟨sk, v, rest, rq, a', h1, h2, hok, h3, h4⟩
      · refine Or.inl ⟨h1, ?_⟩
        intro v hv
        rcases List.mem_cons.mp hv with rfl | hv
        · exact hno
        · exact h2 v hv
      · refine Or.inr ⟨w :: sk, v, rest, rq, a', by rw [h1]; rfl, ?_, hok, h3, h4⟩
        intro u hu
        rcases List.mem_cons.mp hu with rfl | hu
        · exact hno
        · exact h2 u hu

/-- The flags of a frame after one more result. -/
theorem nextResult_flags (res : Result) (r : CaptureResult) (stale : Option UInt64) :
    (nextResult env res r stale).metadataDone = (res.metadataDone || r.numOutputBuffers == 0) ∧
      (nextResult env res r stale).buffersDone = (res.buffersDone || r.numOutputBuffers == 1) := by
  unfold nextResult
  by_cases h0 : r.numOutputBuffers = 0
  · simp [h0]
  · by_cases h1 : r.numOutputBuffers = 1
    · simp [h1]
    · simp [h0, h1]

/-- The frame has both its parts after the result `r`. -/
def Completes (a : Adapter) (r : CaptureResult) : Prop :=
  let res := (a.mResults r.frameNumber).getD {}
  (res.metadataDone || r.numOutputBuffers == 0) = true ∧
    (res.buffersDone || r.numOutputBuffers == 1) = true

instance (a : Adapter) (r : CaptureResult) : Decidable (Completes a r) :=
  inferInstanceAs (Decidable (_ ∧ _))

theorem completes_iff (a : Adapter) (r : CaptureResult) (stale : Option UInt64) :
    ((nextResult env ((a.mResults r.frameNumber).getD {}) r stale).buffersDone = true ∧
      (nextResult env ((a.mResults r.frameNumber).getD {}) r stale).metadataDone = true) ↔
      Completes a r := by
  obtain ⟨h1, h2⟩ := nextResult_flags env ((a.mResults r.frameNumber).getD {}) r stale
  rw [h1, h2]
  exact and_comm

variable {env}

/-- **What a result does**: it completes its frame, and the head of the queue moves, or it is
recorded. -/
theorem processCaptureResult_cases {a a' : Adapter} {r : CaptureResult} {stale : Option UInt64}
    (h : processCaptureResult env a r stale = some a') :
    (Completes a r ∧ ∃ head rest, a.mQueuedBuffers = head :: rest ∧
      a' = { a with
        client := Function.update (stamped env a head r) head.buffer
          { stamped env a head r head.buffer with
            timestamp := (nextResult env ((a.mResults r.frameNumber).getD {}) r stale).timestamp }
        mQueuedBuffers := rest
        mCapturedBuffers := a.mCapturedBuffers ++ [head]
        mResults := Function.update a.mResults r.frameNumber none }) ∨
    (¬ Completes a r ∧ ∃ client, a' = { a with
        client := client
        mResults := Function.update a.mResults r.frameNumber
          (some (nextResult env ((a.mResults r.frameNumber).getD {}) r stale)) } ∧
      ((r.numOutputBuffers ≠ 1 ∧ client = a.client) ∨
        ∃ head rest, a.mQueuedBuffers = head :: rest ∧ client = stamped env a head r)) := by
  unfold processCaptureResult at h
  dsimp only at h
  cases hq : a.mQueuedBuffers with
  | nil =>
    rw [hq] at h
    dsimp only at h
    split_ifs at h with hc
    obtain rfl := Option.some.inj h
    obtain ⟨hc1, hc2⟩ := not_or.mp hc
    exact Or.inr ⟨mt (completes_iff env a r stale).mpr hc2, a.client, rfl, Or.inl ⟨hc1, rfl⟩⟩
  | cons head rest =>
    rw [hq] at h
    dsimp only at h
    split_ifs at h with hc
    · obtain rfl := Option.some.inj h
      exact Or.inl ⟨(completes_iff env a r stale).mp hc, head, rest, rfl, rfl⟩
    · obtain rfl := Option.some.inj h
      exact Or.inr ⟨mt (completes_iff env a r stale).mpr hc, _, rfl, Or.inr ⟨head, rest, rfl, rfl⟩⟩

/-- The client's buffers other than the head keep everything, and the head keeps its timestamp, when
the output buffer is written. -/
theorem stamped_timestamp (env : Env) (a : Adapter) (head : BufferWrapper) (r : CaptureResult)
    (b : BufId) : (stamped env a head r b).timestamp = (a.client b).timestamp := by
  unfold stamped
  split_ifs
  · by_cases hb : b = head.buffer
    · subst hb
      simp
    · rw [Function.update_of_ne hb]
  · rfl

/-- A result without the buffer leaves addresses and frame numbers alone. -/
theorem processCaptureResult_metadata {a a' : Adapter} {r : CaptureResult} {stale : Option UInt64}
    (ha : processCaptureResult env a r stale = some a') (hr : r.numOutputBuffers ≠ 1) (b : BufId) :
    (a'.client b).addr = (a.client b).addr ∧ (a'.client b).sequence = (a.client b).sequence := by
  have hst : ∀ head, stamped env a head r = a.client := fun head => if_neg hr
  rcases processCaptureResult_cases ha with ⟨-, head, rest, -, rfl⟩ | ⟨-, client, rfl, hcl⟩
  · rw [hst]
    by_cases hb : b = head.buffer
    · subst hb
      simp
    · simp [Function.update_of_ne hb]
  · rcases hcl with ⟨-, rfl⟩ | ⟨head, rest, -, rfl⟩
    · exact ⟨rfl, rfl⟩
    · rw [hst]
      exact ⟨rfl, rfl⟩

/-- The result with the buffer writes both into the head of the queue. -/
theorem processCaptureResult_buffer {a a' : Adapter} {r : CaptureResult} {stale : Option UInt64}
    (ha : processCaptureResult env a r stale = some a') (hr : r.numOutputBuffers = 1) :
    ∃ head rest, a.mQueuedBuffers = head :: rest ∧
      (a'.client head.buffer).addr = env.base r.outputBuffer ∧
      (a'.client head.buffer).sequence = r.frameNumber ∧
      ∀ b, b ≠ head.buffer → a'.client b = a.client b := by
  have hst : ∀ head, stamped env a head r = Function.update a.client head.buffer
      { a.client head.buffer with
        addr := env.base r.outputBuffer
        sequence := r.frameNumber } := fun head => if_pos hr
  rcases processCaptureResult_cases ha with ⟨-, head, rest, hq, rfl⟩ | ⟨-, client, rfl, hcl⟩
  · refine ⟨head, rest, hq, ?_, ?_, fun b hb => ?_⟩
    · simp [hst]
    · simp [hst]
    · simp [hst, Function.update_of_ne hb]
  · obtain ⟨head, rest, hq, rfl⟩ := hcl.resolve_left fun hno => hno.1 hr
    refine ⟨head, rest, hq, ?_, ?_, fun b hb => ?_⟩
    · simp [hst]
    · simp [hst]
    · simp [hst, Function.update_of_ne hb]

/-- `mQueuedBuffers.at(0)` throws only on an empty queue. -/
theorem processCaptureResult_isSome {a : Adapter} {r : CaptureResult}
    (hq : r.numOutputBuffers = 1 ∨ Completes a r → a.mQueuedBuffers ≠ []) (stale : Option UInt64) :
    (processCaptureResult env a r stale).isSome := by
  unfold processCaptureResult
  dsimp only
  cases h : a.mQueuedBuffers with
  | nil =>
    dsimp only
    rw [if_neg]
    · rfl
    · rintro (hc | hc)
      · exact hq (Or.inl hc) h
      · exact hq (Or.inr ((completes_iff env a r stale).mp hc)) h
  | cons head rest =>
    dsimp only
    split_ifs <;> rfl

/-- `setParameters` touches the settings and the operation mode only. -/
theorem setParameters_frame {a a' : Adapter} {param : Parameters} {status : Status}
    (h : setParameters env a param = some (status, a')) :
    ∃ heap settings mode, a' =
      { a with heap := heap, mRequestSettings := settings, mOperationMode := mode } := by
  unfold setParameters at h
  split at h
  · obtain ⟨ev, -, hev⟩ := Option.map_eq_some_iff.mp h
    exact ⟨_, _, _, (congrArg Prod.snd hev).symm⟩
  · obtain ⟨-, rfl⟩ := Prod.mk.inj (Option.some.inj h)
    exact ⟨a.heap, a.mRequestSettings, a.mOperationMode, rfl⟩

/-- Without settings or static metadata `setParameters` does nothing. -/
theorem setParameters_refused {a : Adapter} (param : Parameters)
    (h : ¬ (a.mRequestSettings.isSome ∧ env.staticMetadata.isSome)) :
    setParameters env a param = some (.unknownError, a) := by
  unfold setParameters
  split
  · next q m hq hm => exact absurd ⟨by rw [hq]; rfl, by rw [hm]; rfl⟩ h
  · rfl

/-- The settings, if there are any, are a live packet. -/
def SettingsLive (a : Adapter) : Prop := ∀ p, a.mRequestSettings = some p → (a.heap.get p).isSome

/-- **`setParameters` leaves live settings**: the packet it was given, or the one that replaced it. -/
theorem setParameters_live {a a' : Adapter} (h : SettingsLive a) {param : Parameters} {status : Status}
    (hs : setParameters env a param = some (status, a')) : SettingsLive a' := by
  unfold setParameters at hs
  split at hs
  · next q staticMeta hq _ =>
    dsimp only at hs
    obtain ⟨ev, hev, hset⟩ := Option.map_eq_some_iff.mp hs
    obtain rfl := congrArg Prod.snd hset
    set cenv : ConvertEnv := ⟨env.libc, env.vendorOps, staticMeta⟩
    have h0 : (CameraMetadata.ofBuffer a.heap a.mRequestSettings).2.Live
        (CameraMetadata.ofBuffer a.heap a.mRequestSettings).1 := h
    have h1 := ParameterAdapter.convertAeComp_keepsLive cenv hev h0
    have h2 := ParameterAdapter.convertFps_keepsLive cenv param.mFps _ h1
    have h3 := ParameterAdapter.convertDvs_keepsLive cenv param.mDvsMode _ h2
    have h4 := ParameterAdapter.write_keepsLive cenv controlAeMode .byte
      [ParameterAdapter.aeModeCode param.mAeMode] 1 _ h3
    have h5 := ParameterAdapter.convertExposureTime_keepsLive cenv param.mExposureTime _ h4
    have h6 := ParameterAdapter.convertBandingMode_keepsLive cenv param.mBandingMode _ h5
    intro p hp
    refine h6 p ?_
    dsimp only at hp
    unfold CameraMetadata.release at hp
    split_ifs at hp
    exact hp
  · obtain ⟨-, rfl⟩ := Prod.mk.inj (Option.some.inj hs)
    exact h

end Adapter

end IntelCamera
