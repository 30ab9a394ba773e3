import IntelCamera.Lib.Runs
import IntelCamera.Adapter.Code

/-!
# DeviceApi — the C functions of the adapter and the devices of the HAL

The functions `camera_device_open` … `camera_stream_dqbuf` find an `ICameraAdapter` in the array
`sCamAdapters` and call one of its methods.  An adapter has a device of the HAL, opened by its
constructor and closed by its `close`, and every method calls the operations of this device only.

`Api` is the array, with the memory around it, the devices that are open, and what all adapters
share: the client's buffers, the packets and the frame counter.  Two logs that no function reads
record the indices used on the array and the operations called, with whether the device was open.  A
call in which the process ends has no outcome.
-/

namespace IntelCamera

open Lib

/-! ### The methods that call the device -/

/-- The fields of `camera3_stream_t` the adapter sets. -/
structure Camera3Stream where
  streamType : ℕ := 0
  width : UInt32 := 0
  height : UInt32 := 0
  format : ℕ := 0
  usage : ℕ := 0
  maxBuffers : ℕ := 0
deriving DecidableEq, Repr

/-- The operations of `camera3_device_ops_t` the adapter calls, `initialize` first, and the `close` of
`hw_device_t`. -/
inductive DeviceOp
  | initializeDevice
  | constructDefaultRequestSettings
  | configureStreams (operationMode : ℕ) (stream : Camera3Stream)
  | processCaptureRequest (request : Request)
  | flush
  | close
deriving DecidableEq, Repr

/-- The fields of `stream_config_t` that `configStreams` reads: the number of streams, and the first
of them. -/
structure StreamList where
  numStreams : Int32
  width : Int32
  height : Int32
  memType : Int32
deriving DecidableEq, Repr

/-- An `ICameraAdapter` with its device. -/
structure CameraAdapter extends Adapter where
  mDevice : ℕ
  mAllocatedBuffers : List Handle := []
  mStream : Camera3Stream := {}

/-- `V4L2_MEMORY_DMABUF`. -/
def v4l2MemoryDmabuf : Int32 := 4

/-- `HAL_PIXEL_FORMAT_IMPLEMENTATION_DEFINED`. -/
def halPixelFormatImplementationDefined : ℕ := 0x22

/-- `GRALLOC_USAGE_HW_VIDEO_ENCODER`. -/
def grallocUsageHwVideoEncoder : ℕ := 0x10000

/-- `GRALLOC_USAGE_HW_COMPOSER`. -/
def grallocUsageHwComposer : ℕ := 0x800

/-- `CAMERA3_TEMPLATE_PREVIEW`. -/
def camera3TemplatePreview : Int32 := 1

namespace CameraAdapter

variable (env : Env)

/-- `constructDefaultRequest`; `metadata` is the packet the device answers with, on the heap of the
process. -/
def constructDefaultRequest (c : CameraAdapter) (metadata : Option Metadata) :
    Status × CameraAdapter × List DeviceOp :=
  if c.mRequestSettings.isSome then (.ok, c, []) else
  match metadata with
  | none => (.unknownError, c, [.constructDefaultRequestSettings])
  | some m =>
    let cloned := CameraMetadata.assign env.libc (c.heap.alloc m) .empty (some c.heap.next)
    let updated := CameraMetadata.update env.libc env.vendorOps cloned.1 cloned.2 requestId
      .int32 none (i32Bytes [camera3TemplatePreview]) 1
    (.ok, { c with heap := updated.2.1, mRequestSettings := updated.2.2.release.1 },
      [.constructDefaultRequestSettings])

/-- `open`; `status` is the answer of `initialize`. -/
def openAdapter (c : CameraAdapter) (status : Status) (metadata : Option Metadata) :
    Status × CameraAdapter × List DeviceOp :=
  if status ≠ .ok then (status, c, [.initializeDevice]) else
  let constructed := constructDefaultRequest env c metadata
  (constructed.1, constructed.2.1, .initializeDevice :: constructed.2.2)

/-- `close`. -/
def close (c : CameraAdapter) : Status × CameraAdapter × List DeviceOp :=
  (.ok, { c with toAdapter := c.toAdapter.close, mAllocatedBuffers := [] }, [.flush, .close])

/-- The loop of `start`; `outcomes` are the outcomes of the mappings, in order. -/
def startLoop (outcomes : ℕ → MapOutcome) :
    ℕ → List BufferWrapper → Adapter → Adapter × List DeviceOp
  | _, [], a => ({ a with mPendingBuffers := [] }, [])
  | k, w :: rest, a =>
    match { a with mPendingBuffers := rest }.captureLocked env w (outcomes k) with
    | (some request, a) =>
      let looped := startLoop outcomes (k + 1) rest a
      (looped.1, .processCaptureRequest request :: looped.2)
    | (none, a) => startLoop outcomes (k + 1) rest a

/-- `start`; the statuses of the captures are dropped. -/
def start (c : CameraAdapter) (outcomes : ℕ → MapOutcome) :
    Status × CameraAdapter × List DeviceOp :=
  let looped := startLoop env outcomes 0 c.mPendingBuffers { c.toAdapter with mStarted := true }
  (.ok, { c with toAdapter := looped.1 }, looped.2)

/-- `stop`. -/
def stop (c : CameraAdapter) : Status × CameraAdapter × List DeviceOp :=
  (.ok, { c with mStarted := false }, [])

/-- `setParameters`; none if the process ends in a conversion. -/
def setParameters (c : CameraAdapter) (param : Parameters) :
    Option (Status × CameraAdapter × List DeviceOp) :=
  (c.toAdapter.setParameters env param).map fun set => (set.1, { c with toAdapter := set.2 }, [])

/-- `ALIGN16`. -/
def align16 (x : UInt32) : UInt32 := (x + 15) &&& ~~~15

/-- `configStreams`; `status` is the answer of `configure_streams`. -/
def configStreams (c : CameraAdapter) (streamList : Option StreamList) (status : Status) :
    Status × CameraAdapter × List DeviceOp :=
  match streamList with
  | none => (.unknownError, c, [])
  | some l =>
    if l.numStreams ≠ 1 then (.unknownError, c, []) else
    let height := l.height.toUInt32
    let dmabuf := decide (l.memType = v4l2MemoryDmabuf)
    let stream : Camera3Stream :=
      { streamType := 0
        width := l.width.toUInt32
        height := if dmabuf ∧ height % 16 ≠ 0 then align16 height else height
        format := halPixelFormatImplementationDefined
        usage := if dmabuf then grallocUsageHwVideoEncoder else grallocUsageHwComposer
        maxBuffers := if 0 < c.mAllocatedBuffers.length then c.mAllocatedBuffers.length else 2 }
    (status, { c with mStream := stream }, [.configureStreams c.mOperationMode stream])

/-- `allocateMemory`; `initCheck` and `lock` are the answers of the new `GraphicBuffer` and of the
mapper, `handle` the handle of the buffer. -/
def allocateMemory (c : CameraAdapter) (buffer : Option BufId) (initCheck lock : Status)
    (handle : Handle) : Status × CameraAdapter × List DeviceOp :=
  match buffer with
  | none => (.badValue, c, [])
  | some b =>
    if (c.client b).format ≠ v4l2PixFmtNv12 then (.badValue, c, [])
    else if initCheck ≠ .ok then (initCheck, c, [])
    else if lock ≠ .ok then (lock, c, [])
    else
      let address := env.base handle
      (.ok,
        { c with
          client := Function.update c.client b { c.client b with addr := address }
          mBufferMapping := Function.update c.mBufferMapping address (some handle)
          mAllocatedBuffers := c.mAllocatedBuffers ++ [handle] }, [])

/-- `qBuf`; `status` is the answer of `process_capture_request`. -/
def qBuf (c : CameraAdapter) (streamId : Int32) (buffer : Option BufId) (outcome : MapOutcome)
    (status : Status) : Status × CameraAdapter × List DeviceOp :=
  match buffer with
  | none => (.badValue, c, [])
  | some b =>
    if c.mStarted then
      match c.toAdapter.captureLocked env ⟨streamId, b⟩ outcome with
      | (some request, a) => (status, { c with toAdapter := a }, [.processCaptureRequest request])
      | (none, a) => (.unknownError, { c with toAdapter := a }, [])
    else (.ok, { c with mPendingBuffers := c.mPendingBuffers ++ [⟨streamId, b⟩] }, [])

/-- `dqBuf`, at the end of its wait. -/
def dqBuf (c : CameraAdapter) : Status × CameraAdapter × List DeviceOp :=
  match c.mCapturedBuffers with
  | [] => (.unknownError, c, [])
  | _ :: rest => (.ok, { c with mCapturedBuffers := rest }, [])

/-! No method changes `mDevice`. -/

theorem openAdapter_mDevice (c : CameraAdapter) (status : Status) (metadata : Option Metadata) :
    (c.openAdapter env status metadata).2.1.mDevice = c.mDevice := by
  unfold openAdapter constructDefaultRequest
  split_ifs
  · rfl
  · rfl
  · cases metadata with
    | none => rfl
    | some m => rfl

theorem configStreams_mDevice (c : CameraAdapter) (streamList : Option StreamList) (status : Status) :
    (c.configStreams streamList status).2.1.mDevice = c.mDevice := by
  unfold configStreams
  cases streamList with
  | none => rfl
  | some l =>
    dsimp only
    split_ifs <;> rfl

theorem allocateMemory_mDevice (c : CameraAdapter) (buffer : Option BufId) (initCheck lock : Status)
    (handle : Handle) : (c.allocateMemory env buffer initCheck lock handle).2.1.mDevice = c.mDevice := by
  unfold allocateMemory
  cases buffer with
  | none => rfl
  | some b =>
    dsimp only
    split_ifs <;> rfl

theorem qBuf_mDevice (c : CameraAdapter) (streamId : Int32) (buffer : Option BufId)
    (outcome : MapOutcome) (status : Status) :
    (c.qBuf env streamId buffer outcome status).2.1.mDevice = c.mDevice := by
  unfold qBuf
  cases buffer with
  | none => rfl
  | some b =>
    dsimp only
    split_ifs
    · cases c.toAdapter.captureLocked env ⟨streamId, b⟩ outcome with
      | mk request a => cases request <;> rfl
    · rfl

theorem setParameters_mDevice {c : CameraAdapter} {param : Parameters}
    {called : Status × CameraAdapter × List DeviceOp} (h : c.setParameters env param = some called) :
    called.2.1.mDevice = c.mDevice := by
  obtain ⟨set, -, rfl⟩ := Option.map_eq_some_iff.mp h
  rfl

theorem dqBuf_mDevice (c : CameraAdapter) : c.dqBuf.2.1.mDevice = c.mDevice := by
  unfold dqBuf
  cases c.mCapturedBuffers <;> rfl

end CameraAdapter

/-! ### The C functions -/

/-- `MAX_CAMERAS`. -/
def maxCameras : ℤ := 2

/-- An operation that was called, its device, and whether the device was open. -/
structure Operation where
  op : DeviceOp
  device : ℕ
  isOpen : Bool
deriving DecidableEq, Repr

/-- `sCamAdapters` with the memory around it, the open devices of the HAL with their cameras, the
state shared by the adapters, and the logs. -/
structure Api where
  sCamAdapters : ℤ → Option CameraAdapter
  devices : List (ℕ × ℤ) := []
  nextDevice : ℕ := 0
  client : BufId → CameraBuffer
  heap : Heap := .empty
  frameNumber : ℕ := 0
  indexed : List ℤ := []
  operations : List Operation := []

/-- What the HAL's `open` does: a new device, or `mDevice` keeps what was there. -/
inductive OpenOutcome
  | opened
  | failed (left : ℕ)
deriving DecidableEq, Repr

/-- A call, with the answers it gets from outside; or the HAL delivers a result, or the client writes
one of its buffers. -/
inductive ApiCall
  | deviceOpen (cameraId : ℤ) (outcome : OpenOutcome) (initStatus : Status)
      (metadata : Option Metadata)
  | deviceClose (cameraId : ℤ)
  | deviceStart (cameraId : ℤ) (outcomes : ℕ → MapOutcome)
  | deviceStop (cameraId : ℤ)
  | setParameters (cameraId : ℤ) (param : Parameters)
  | getParameters (cameraId : ℤ)
  | deviceConfigStreams (cameraId : ℤ) (streamList : Option StreamList) (status : Status)
  | deviceAllocateMemory (cameraId : ℤ) (buffer : Option BufId) (initCheck lock : Status)
      (handle : Handle)
  | streamDqbuf (cameraId : ℤ)
  | streamQbuf (cameraId : ℤ) (streamId : Int32) (buffer : Option BufId) (outcome : MapOutcome)
      (status : Status)
  | result (cameraId : ℤ) (r : CaptureResult) (stale : Option UInt64)
  | write (b : BufId) (contents : CameraBuffer)

namespace Api

variable (numCameras : ℕ) (env : ℤ → Env)

/-- `CAMERA_ID_CHECK`: the bound is the number of cameras of the HAL. -/
def cameraIdCheck (cameraId : ℤ) : Prop := 0 ≤ cameraId ∧ cameraId < numCameras

instance (cameraId : ℤ) : Decidable (cameraIdCheck numCameras cameraId) :=
  inferInstanceAs (Decidable (_ ∧ _))

/-- The array is indexed. -/
def index (s : Api) (cameraId : ℤ) : Api := { s with indexed := s.indexed ++ [cameraId] }

/-- The device is one of the open ones. -/
def deviceOpen (s : Api) (device : ℕ) : Bool := s.devices.any (·.1 = device)

/-- The operations are called, in this order. -/
def invoke (s : Api) (device : ℕ) (ops : List DeviceOp) : Api :=
  { s with operations := s.operations ++ ops.map fun op => ⟨op, device, s.deviceOpen device⟩ }

/-- The adapter, with what it shares with the others. -/
def enter (s : Api) (c : CameraAdapter) : CameraAdapter :=
  { c with client := s.client, heap := s.heap, frameNumber := s.frameNumber }

/-- What a method leaves. -/
def leave (s : Api) (cameraId : ℤ) (c : CameraAdapter) : Api :=
  { s with
    sCamAdapters := Function.update s.sCamAdapters cameraId (some c)
    client := c.client
    heap := c.heap
    frameNumber := c.frameNumber }

/-- `CALL_ADAPTOR_AND_RETURN`; none if the process ends in the method. -/
def callAdaptorAndReturn (s : Api) (cameraId : ℤ)
    (function : CameraAdapter → Option (Status × CameraAdapter × List DeviceOp)) :
    Option (Status × Api) :=
  let s := s.index cameraId
  match s.sCamAdapters cameraId with
  | none => some (.unknownError, s)
  | some c => (function (s.enter c)).map fun called =>
    (called.1, (s.invoke c.mDevice called.2.2).leave cameraId called.2.1)

/-- The functions with `CAMERA_ID_CHECK`. -/
def checkAndCall (s : Api) (cameraId : ℤ)
    (function : CameraAdapter → Option (Status × CameraAdapter × List DeviceOp)) :
    Option (Status × Api) :=
  if ¬ cameraIdCheck numCameras cameraId then some (.badValue, s)
  else s.callAdaptorAndReturn cameraId function

/-- The constructor of `ICameraAdapter`; the status of the HAL's `open` is not looked at. -/
def newAdapter (s : Api) (cameraId : ℤ) (outcome : OpenOutcome) : CameraAdapter × Api :=
  match outcome with
  | .opened => ({ client := s.client, mDevice := s.nextDevice },
      { s with devices := s.devices ++ [(s.nextDevice, cameraId)], nextDevice := s.nextDevice + 1 })
  | .failed left => ({ client := s.client, mDevice := left }, s)

/-- `camera_device_open`; an adapter that is there already is overwritten. -/
def cameraDeviceOpen (s : Api) (cameraId : ℤ) (outcome : OpenOutcome) (initStatus : Status)
    (metadata : Option Metadata) : Option (Status × Api) :=
  if ¬ cameraIdCheck numCameras cameraId then some (.badValue, s)
  else
    let made := newAdapter s cameraId outcome
    let s := made.2.index cameraId
    let s := { s with sCamAdapters := Function.update s.sCamAdapters cameraId (some made.1) }
    s.callAdaptorAndReturn cameraId fun c => some (c.openAdapter (env cameraId) initStatus metadata)

/-- `camera_device_close`. -/
def cameraDeviceClose (s : Api) (cameraId : ℤ) : Api :=
  if ¬ cameraIdCheck numCameras cameraId then s
  else
    let s := s.index cameraId
    match s.sCamAdapters cameraId with
    | none => s
    | some c =>
      let closed := (s.enter c).close
      let s := (s.invoke c.mDevice closed.2.2).leave cameraId closed.2.1
      { s with
        sCamAdapters := Function.update s.sCamAdapters cameraId none
        devices := s.devices.filter (·.1 ≠ c.mDevice) }

/-- One call; none if the process ends in it. -/
def step (s : Api) : ApiCall → Option Api
  | .deviceOpen id outcome initStatus metadata =>
    (s.cameraDeviceOpen numCameras env id outcome initStatus metadata).map Prod.snd
  | .deviceClose id => some (s.cameraDeviceClose numCameras id)
  | .deviceStart id outcomes =>
    (s.checkAndCall numCameras id fun c => some (c.start (env id) outcomes)).map Prod.snd
  | .deviceStop id => (s.checkAndCall numCameras id fun c => some c.stop).map Prod.snd
  | .setParameters id param =>
    (s.checkAndCall numCameras id (·.setParameters (env id) param)).map Prod.snd
  | .getParameters id => (s.checkAndCall numCameras id fun c => some (.ok, c, [])).map Prod.snd
  | .deviceConfigStreams id streamList status =>
    (s.checkAndCall numCameras id fun c => some (c.configStreams streamList status)).map Prod.snd
  | .deviceAllocateMemory id buffer initCheck lock handle =>
    (s.checkAndCall numCameras id fun c =>
      some (c.allocateMemory (env id) buffer initCheck lock handle)).map Prod.snd
  | .streamDqbuf id => (s.callAdaptorAndReturn id fun c => some c.dqBuf).map Prod.snd
  | .streamQbuf id streamId buffer outcome status =>
    (s.callAdaptorAndReturn id fun c =>
      some (c.qBuf (env id) streamId buffer outcome status)).map Prod.snd
  | .result id r stale =>
    (s.sCamAdapters id).bind fun c =>
      ((s.enter c).processCaptureResult (env id) r stale).map fun a =>
        s.leave id { c with toAdapter := a }
  | .write b contents => some { s with client := Function.update s.client b contents }

/-! ### Slots and devices -/

/-- An index of the array. -/
def InRange (cameraId : ℤ) : Prop := 0 ≤ cameraId ∧ cameraId < maxCameras

instance (cameraId : ℤ) : Decidable (InRange cameraId) := inferInstanceAs (Decidable (_ ∧ _))

/-- The array is indexed in its bounds, the open devices of a camera are one or none as its slot is
taken or not, and operations are called on open devices. -/
structure Safe (s : Api) : Prop where
  indexed : ∀ id ∈ s.indexed, InRange id
  balanced : ∀ id, (s.devices.filter (·.2 = id)).length =
    if InRange id ∧ (s.sCamAdapters id).isSome then 1 else 0
  isOpen : ∀ o ∈ s.operations, o.isOpen = true

/-- No adapter and no device. -/
structure Start (s : Api) : Prop where
  slots : ∀ id, InRange id → s.sCamAdapters id = none
  devices : s.devices = []
  indexed : s.indexed = []
  operations : s.operations = []

/-- An id that gets past the check of the call, if there is one, is an index of the array, and
`camera_device_open` finds a free slot and a HAL that opens the device. -/
def proper (s : Api) : ApiCall → Prop
  | .deviceOpen id outcome _ _ => cameraIdCheck numCameras id →
      InRange id ∧ s.sCamAdapters id = none ∧ outcome = .opened
  | .deviceClose id | .deviceStart id _ | .deviceStop id | .setParameters id _ | .getParameters id
  | .deviceConfigStreams id _ _ | .deviceAllocateMemory id _ _ _ _ =>
      cameraIdCheck numCameras id → InRange id
  | .streamDqbuf id | .streamQbuf id _ _ _ _ => InRange id
  | .result _ _ _ | .write _ _ => True

/-- The device of the adapter in a slot. -/
def handle (s : Api) (cameraId : ℤ) : Option ℕ := (s.sCamAdapters cameraId).map (·.mDevice)

/-- What every proper call keeps: moreover, the open device of a camera is that of its adapter, and no
two adapters have the same. -/
structure Inv (s : Api) : Prop where
  indexed : ∀ id ∈ s.indexed, InRange id
  isOpen : ∀ o ∈ s.operations, o.isOpen = true
  devices : ∀ id, s.devices.filter (·.2 = id) =
    if InRange id then (s.handle id).toList.map (·, id) else []
  fresh : ∀ id d, InRange id → s.handle id = some d → d < s.nextDevice
  distinct : ∀ id id' d, InRange id → InRange id' → s.handle id = some d → s.handle id' = some d →
    id = id'

variable {numCameras env} {s s' : Api} {id : ℤ}

theorem Start.inv (h : Start s) : Inv s := by
  have hnone : ∀ id, InRange id → s.handle id = none := fun id hr => by
    unfold handle
    rw [h.slots id hr]
    rfl
  refine ⟨?_, ?_, fun id => ?_, fun id d hr hd => ?_, fun id id' d hr _ hd _ => ?_⟩
  · rw [h.indexed]
    exact fun id hid => absurd hid List.not_mem_nil
  · rw [h.operations]
    exact fun o ho => absurd ho List.not_mem_nil
  · rw [h.devices, List.filter_nil]
    split_ifs with hr
    · rw [hnone id hr]
      rfl
    · rfl
  · rw [hnone id hr] at hd
    cases hd
  · rw [hnone id hr] at hd
    cases hd

theorem Inv.safe (h : Inv s) : Safe s := by
  refine ⟨h.indexed, fun id => ?_, h.isOpen⟩
  rw [h.devices id]
  unfold handle
  by_cases hr : InRange id
  · rw [if_pos hr]
    cases s.sCamAdapters id with
    | none => rw [if_neg fun hc => Bool.false_ne_true hc.2]; rfl
    | some c => rw [if_pos ⟨hr, rfl⟩]; rfl
  · rw [if_neg hr, if_neg fun hc => hr hc.1]
    rfl

/-- The device of an adapter is open. -/
theorem Inv.deviceOpen (h : Inv s) (hr : InRange id) {d : ℕ} (hd : s.handle id = some d) :
    s.deviceOpen d = true := by
  have hmem : (d, id) ∈ s.devices.filter (·.2 = id) := by
    rw [h.devices id, if_pos hr, hd]
    exact List.mem_singleton_self _
  exact List.any_eq_true.mpr ⟨(d, id), (List.mem_filter.mp hmem).1, decide_eq_true rfl⟩

/-- Slots and devices stay, and what is logged is in order. -/
theorem Inv.of_same (h : Inv s) (hh : s'.handle = s.handle) (hd : s'.devices = s.devices)
    (hn : s'.nextDevice = s.nextDevice) (hi : ∀ id ∈ s'.indexed, InRange id)
    (ho : ∀ o ∈ s'.operations, o.isOpen = true) : Inv s' := by
  refine ⟨hi, ho, ?_, ?_, ?_⟩
  · rw [hd, hh]
    exact h.devices
  · rw [hn, hh]
    exact h.fresh
  · rw [hh]
    exact h.distinct

/-- An index in the bounds. -/
theorem Inv.index (h : Inv s) (hr : InRange id) : Inv (s.index id) :=
  h.of_same rfl rfl rfl (fun i hi => (List.mem_append.mp hi).elim (h.indexed i)
    fun hm => (List.mem_singleton.mp hm).symm ▸ hr) h.isOpen

/-- The slots after one of them was written. -/
theorem handle_of_update {c : Option CameraAdapter}
    (hs : s'.sCamAdapters = Function.update s.sCamAdapters id c) (i : ℤ) :
    s'.handle i = if i = id then c.map (·.mDevice) else s.handle i := by
  unfold handle
  rw [hs, Function.update_apply]
  split_ifs <;> rfl

/-- The adapter in a slot is replaced by one with the same device, which was called. -/
theorem handle_leave {c c' : CameraAdapter} (hc : s.sCamAdapters id = some c)
    (hd : c'.mDevice = c.mDevice) : (s.leave id c').handle = s.handle := by
  funext i
  rw [handle_of_update rfl i]
  split_ifs with hi
  · subst hi
    unfold handle
    rw [hc]
    exact congrArg some hd
  · rfl

/-- **A method call** on a slot of the array. -/
theorem Inv.call (h : Inv s) (hr : InRange id)
    {function : CameraAdapter → Option (Status × CameraAdapter × List DeviceOp)}
    (hf : ∀ c called, function c = some called → called.2.1.mDevice = c.mDevice)
    (hst : (s.callAdaptorAndReturn id function).map Prod.snd = some s') : Inv s' := by
  have hx := h.index hr
  obtain ⟨r, hcall, rfl⟩ := Option.map_eq_some_iff.mp hst
  unfold callAdaptorAndReturn at hcall
  dsimp only at hcall
  cases hc : (s.index id).sCamAdapters id with
  | none =>
    rw [hc] at hcall
    obtain rfl := Option.some.inj hcall
    exact hx
  | some c =>
    rw [hc] at hcall
    obtain ⟨called, hcalled, rfl⟩ := Option.map_eq_some_iff.mp hcall
    have hhandle : (s.index id).handle id = some c.mDevice := by
      unfold handle
      rw [hc]
      rfl
    refine hx.of_same (handle_leave hc ?_) rfl rfl hx.indexed fun o ho => ?_
    · rw [hf _ _ hcalled]
      rfl
    · rcases List.mem_append.mp ho with ho | ho
      · exact hx.isOpen o ho
      · obtain ⟨op, -, rfl⟩ := List.mem_map.mp ho
        exact hx.deviceOpen hr hhandle

theorem Inv.checkAndCall (h : Inv s) (hr : cameraIdCheck numCameras id → InRange id)
    {function : CameraAdapter → Option (Status × CameraAdapter × List DeviceOp)}
    (hf : ∀ c called, function c = some called → called.2.1.mDevice = c.mDevice)
    (hst : (s.checkAndCall numCameras id function).map Prod.snd = some s') : Inv s' := by
  unfold Api.checkAndCall at hst
  split_ifs at hst with hcheck
  · exact h.call (hr hcheck) hf hst
  · obtain rfl := Option.some.inj hst
    exact h

/-- A method that always returns. -/
theorem returning {method : CameraAdapter → Status × CameraAdapter × List DeviceOp}
    (hm : ∀ c, (method c).2.1.mDevice = c.mDevice) (c : CameraAdapter)
    (called : Status × CameraAdapter × List DeviceOp) (h : some (method c) = some called) :
    called.2.1.mDevice = c.mDevice := by
  obtain rfl := Option.some.inj h
  exact hm c

/-- An adapter with a new device is put into a free slot. -/
theorem Inv.store (h : Inv s) (hr : InRange id) (hfree : s.sCamAdapters id = none)
    {c : CameraAdapter} (hc : c.mDevice = s.nextDevice) :
    Inv { s with
      sCamAdapters := Function.update s.sCamAdapters id (some c)
      devices := s.devices ++ [(s.nextDevice, id)]
      nextDevice := s.nextDevice + 1
      indexed := s.indexed ++ [id] } := by
  have hnone : s.handle id = none := by
    unfold handle
    rw [hfree]
    rfl
  set t : Api := { s with
    sCamAdapters := Function.update s.sCamAdapters id (some c)
    devices := s.devices ++ [(s.nextDevice, id)]
    nextDevice := s.nextDevice + 1
    indexed := s.indexed ++ [id] }
  have ht : ∀ i, t.handle i = if i = id then some s.nextDevice else s.handle i := fun i => by
    rw [handle_of_update (c := some c) rfl i, Option.map_some, hc]
  -- the new device is not that of another adapter
  have hnew : ∀ i, InRange i → t.handle i = some s.nextDevice → i = id := fun i hi hd => by
    by_contra hne
    rw [ht, if_neg hne] at hd
    exact absurd (h.fresh i _ hi hd) (lt_irrefl _)
  refine ⟨(h.index hr).indexed, h.isOpen, fun i => ?_, fun i d hi hd => ?_,
    fun i j d hi hj hdi hdj => ?_⟩
  · rw [show t.devices = s.devices ++ [(s.nextDevice, id)] from rfl, List.filter_append,
      h.devices i, ht]
    by_cases hi : i = id
    · subst hi
      rw [if_pos hr, if_pos hr, if_pos rfl, hnone]
      simp
    · rw [if_neg hi, List.filter_cons_of_neg (by simpa using Ne.symm hi)]
      exact List.append_nil _
  · show d < s.nextDevice + 1
    rw [ht] at hd
    split_ifs at hd with hid
    · obtain rfl := Option.some.inj hd
      omega
    · have := h.fresh i d hi hd
      omega
  · by_cases hd : d = s.nextDevice
    · subst hd
      rw [hnew i hi hdi, hnew j hj hdj]
    · have hold : ∀ k, t.handle k = some d → s.handle k = some d := fun k hk => by
        rw [ht] at hk
        split_ifs at hk with hkid
        · exact absurd (Option.some.inj hk).symm hd
        · exact hk
      exact h.distinct i j d hi hj (hold i hdi) (hold j hdj)

/-- The slot and the device of an adapter are given up. -/
theorem Inv.release (h : Inv s) (hr : InRange id) {d : ℕ} (hd : s.handle id = some d) :
    Inv { s with
      sCamAdapters := Function.update s.sCamAdapters id none
      devices := s.devices.filter (·.1 ≠ d) } := by
  set t : Api := { s with
    sCamAdapters := Function.update s.sCamAdapters id none
    devices := s.devices.filter (·.1 ≠ d) }
  have ht : ∀ i, t.handle i = if i = id then none else s.handle i := fun i =>
    handle_of_update (c := none) rfl i
  have hsub : ∀ i e, t.handle i = some e → s.handle i = some e := fun i e he => by
    rw [ht] at he
    split_ifs at he
    exact he
  refine ⟨h.indexed, h.isOpen, fun i => ?_, fun i e hi he => h.fresh i e hi (hsub i e he),
    fun i j e hi hj hei hej => h.distinct i j e hi hj (hsub i e hei) (hsub j e hej)⟩
  rw [show t.devices = s.devices.filter (·.1 ≠ d) from rfl, List.filter_comm, h.devices i, ht]
  by_cases hin : InRange i
  · rw [if_pos hin, if_pos hin]
    by_cases hi : i = id
    · subst hi
      rw [if_pos rfl, hd]
      exact List.filter_cons_of_neg (by simp)
    · rw [if_neg hi]
      cases he : s.handle i with
      | none => rfl
      | some e =>
        have hne : e ≠ d := fun heq => hi (h.distinct i id e hin hr he (heq ▸ hd))
        exact List.filter_cons_of_pos (decide_eq_true hne)
  · rw [if_neg hin, if_neg hin]
    rfl

/-- `close` is a method call, after which the slot and the device are gone. -/
theorem Inv.cameraDeviceClose (h : Inv s) (hr : cameraIdCheck numCameras id → InRange id) :
    Inv (s.cameraDeviceClose numCameras id) := by
  unfold Api.cameraDeviceClose
  split_ifs with hcheck
  swap
  · exact h
  have hr := hr hcheck
  dsimp only
  cases hc : (s.index id).sCamAdapters id with
  | none => exact h.index hr
  | some c =>
    have hclosed : (s.callAdaptorAndReturn id fun c => some c.close).map Prod.snd =
        some (((s.index id).invoke c.mDevice ((s.index id).enter c).close.2.2).leave id
          ((s.index id).enter c).close.2.1) := by
      unfold callAdaptorAndReturn
      dsimp only
      rw [hc]
      rfl
    have hcall := h.call hr (returning fun _ => rfl) hclosed
    refine hcall.release hr ?_
    rw [handle_of_update rfl, if_pos rfl]
    rfl

theorem Inv.cameraDeviceOpen (h : Inv s) {outcome : OpenOutcome} {initStatus : Status}
    {metadata : Option Metadata} (hp : cameraIdCheck numCameras id →
      InRange id ∧ s.sCamAdapters id = none ∧ outcome = .opened)
    (hst : (s.cameraDeviceOpen numCameras env id outcome initStatus metadata).map Prod.snd = some s') :
    Inv s' := by
  unfold Api.cameraDeviceOpen at hst
  split_ifs at hst with hcheck
  · obtain ⟨hr, hfree, rfl⟩ := hp hcheck
    have hstored := h.store hr hfree (c := (newAdapter s id .opened).1) rfl
    exact hstored.call hr
      (returning fun c => CameraAdapter.openAdapter_mDevice (env id) c initStatus metadata) hst
  · obtain rfl := Option.some.inj hst
    exact h

/-- **Every proper call keeps the invariant.** -/
theorem Inv.step (h : Inv s) {call : ApiCall} (hp : proper numCameras s call)
    (hst : Api.step numCameras env s call = some s') : Inv s' := by
  cases call with
  | deviceOpen id outcome initStatus metadata => exact h.cameraDeviceOpen hp hst
  | deviceClose id =>
    obtain rfl := Option.some.inj hst
    exact h.cameraDeviceClose hp
  | deviceStart id outcomes => exact h.checkAndCall hp (returning fun _ => rfl) hst
  | deviceStop id => exact h.checkAndCall hp (returning fun _ => rfl) hst
  | setParameters id param =>
    exact h.checkAndCall hp (fun _ _ => CameraAdapter.setParameters_mDevice (env id)) hst
  | getParameters id => exact h.checkAndCall hp (returning fun _ => rfl) hst
  | deviceConfigStreams id streamList status =>
    exact h.checkAndCall hp (returning fun c => c.configStreams_mDevice streamList status) hst
  | deviceAllocateMemory id buffer initCheck lock handle =>
    exact h.checkAndCall hp
      (returning fun c => c.allocateMemory_mDevice (env id) buffer initCheck lock handle) hst
  | streamDqbuf id => exact h.call hp (returning fun c => c.dqBuf_mDevice) hst
  | streamQbuf id streamId buffer outcome status =>
    exact h.call hp (returning fun c => c.qBuf_mDevice (env id) streamId buffer outcome status) hst
  | result id r stale =>
    obtain ⟨c, hc, hres⟩ := Option.bind_eq_some_iff.mp hst
    obtain ⟨a, -, rfl⟩ := Option.map_eq_some_iff.mp hres
    exact h.of_same (handle_leave hc rfl) rfl rfl h.indexed h.isOpen
  | write b contents =>
    obtain rfl := Option.some.inj hst
    exact h.of_same rfl rfl rfl h.indexed h.isOpen

/-- **Slots and devices stay in step** in every run of proper calls. -/
theorem safe_of_proper (h : Reach (Api.step numCameras env) (proper numCameras) Start s) : Safe s := by
  have hinv : Inv s := h.invariant (I := fun s : Api => Inv s) (fun s hs => hs.inv)
    fun s call s' _ hs hp hst => hs.step hp hst
  exact hinv.safe

/-- No adapter, no device, and nothing around the array. -/
def demoApi : Api := { sCamAdapters := fun _ => none, client := fun _ => ⟨0, 0, 0, 0, 0, 0, 0⟩ }

/-- Cameras without static metadata. -/
def demoApiEnv : ℤ → Env := fun _ => ⟨referenceLibc, none, none, fun _ => 0⟩

theorem demoApi_start : Start demoApi := ⟨fun _ _ => rfl, rfl, rfl, rfl⟩

/-- The camera 0 is opened, though without settings. -/
def demoOpened : Api :=
  ((demoApi.cameraDeviceOpen 2 demoApiEnv 0 .opened .ok none).getD (.ok, demoApi)).2

/-- It is closed again. -/
theorem safe_of_proper_demo :
    demoOpened.devices = [(0, 0)] ∧ Safe (demoOpened.cameraDeviceClose 2 0) := by
  have hopen : Reach (Api.step 2 demoApiEnv) (proper 2) Start demoOpened :=
    .step (a := .deviceOpen 0 .opened .ok none) (.init demoApi_start)
      (fun _ => ⟨by decide, rfl, rfl⟩) rfl
  exact ⟨rfl, safe_of_proper (.step (a := .deviceClose 0) hopen (fun _ => by decide) rfl)⟩

/-- The HAL has three cameras, and the third one is opened. -/
theorem not_safe : ¬ ∀ (numCameras : ℕ) (env : ℤ → Env) (s : Api),
    Reach (Api.step numCameras env) (fun _ _ => True) Start s → Safe s := by
  intro h
  have hsafe := h 3 demoApiEnv _
    (.step (a := .deviceOpen 2 .opened .ok none) (.init demoApi_start) trivial rfl)
  exact absurd (hsafe.indexed 2 (by decide)) (by decide)

end Api

end IntelCamera
