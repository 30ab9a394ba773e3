import IntelCamera.DeviceApi
import IntelCamera.Gralloc.Alloc

/-!
# Adapter.Mapping — the mappings of the client's DMA buffers (`ICameraAdapter.cpp`)

`capture` maps the descriptor of a DMA buffer the first time it sees it: `mapMemory` asks gralloc for
the mapping (`GRALLOC_MAP_FD`), and keeps the handle in `mBufferMapping` under the descriptor and in
`mMappedBuffers` for `close`, which unmaps all of them.  The status of `GRALLOC_MAP_FD` is not looked
at, so a mapping that has failed is kept like any other.

`MapState` adds to the adapter what gralloc knows: the mappings that have succeeded and are still
there, all handles that were ever produced, and the calls of `GRALLOC_UNMAP_FD`.
-/

namespace IntelCamera

open Lib

/-! ### `GRALLOC_MAP_FD` -/

namespace Gralloc

/-- `PRIV_FLAGS_MAP_READ_ONLY`. -/
def privFlagsMapReadOnly : Int32 := 2

/-- The arguments of `GRALLOC_MAP_FD`, without the places for the handle and the address. -/
structure MapFdArgs where
  fd : Int32
  size : UInt64
  width : Int32
  height : Int32
  stride : Int32
  halFormat : Int32
  usage : Int32
deriving DecidableEq, Repr

/-- `gralloc_perform` with `GRALLOC_MAP_FD`: the handle that is stored, or the status. -/
def performMapFd (sys : System) (args : MapFdArgs) : Except Int32 PrivateHandle :=
  let hnd := { PrivateHandle.new args.fd (intT args.size) privFlagsMapReadOnly with
    width := args.width
    height := args.height
    stride := args.stride
    halFormat := args.halFormat
    usage := args.usage }
  match mapBuffer sys hnd with
  | .ok hnd => .ok hnd
  | .error _ => .error (-22)

/-- The mapping succeeds exactly if `mmap` does. -/
theorem isOk_performMapFd (sys : System) (args : MapFdArgs) :
    (performMapFd sys args).isOk = (sys.mmap (sizeT (intT args.size)) args.fd).isOk := by
  have hflags : ¬ privFlagsMapReadOnly &&& privFlagsFramebuffer ≠ 0 := by decide
  unfold performMapFd mapBuffer PrivateHandle.new
  dsimp only
  rw [if_neg hflags]
  cases sys.mmap (sizeT (intT args.size)) args.fd with
  | error err => rfl
  | ok base => rfl

end Gralloc

/-- The handle behind the new pointer after `GRALLOC_MAP_FD`. -/
def MapOutcome.handle : MapOutcome → Handle
  | .mapped handle => handle
  | .failed left => left

namespace Adapter

/-- What `mapMemory` passes to `GRALLOC_MAP_FD` for a buffer. -/
def mapFdArgs (buffer : CameraBuffer) : Gralloc.MapFdArgs where
  fd := buffer.dmafd
  size := sizeT (buffer.width * buffer.height * 3 / 2)
  width := buffer.width
  height := buffer.height
  stride := buffer.width
  halFormat := Gralloc.PixelFormat.yCrCb420Sp.code
  usage := Int32.ofNat grallocUsageHwVideoEncoder

/-- The outcome of the mapping of a buffer: the new `private_handle_t` is at `fresh`, and the new
`buffer_handle_t` holds `left` until a handle is stored in it. -/
def mapOutcome (sys : Gralloc.System) (b : CameraBuffer) (fresh left : Handle) : MapOutcome :=
  match Gralloc.performMapFd sys (mapFdArgs b) with
  | .ok _ => .mapped fresh
  | .error _ => .failed left

/-- The handles that the loop of `close` passes to `GRALLOC_UNMAP_FD`; no pointer in
`mMappedBuffers` is `NULL`. -/
def unmapFdCalls (a : Adapter) : List Handle := a.mMappedBuffers

/-- `capture` asks for a mapping of the buffer. -/
def MapsFd (a : Adapter) (b : CameraBuffer) : Prop :=
  0 < b.dmafd ∧ a.mBufferMapping (fdKey b.dmafd) = none ∧ b.format = v4l2PixFmtNv12

instance (a : Adapter) (b : CameraBuffer) : Decidable (MapsFd a b) :=
  inferInstanceAs (Decidable (_ ∧ _ ∧ _))

/-- The client's buffer, filled for a call. -/
def fill (a : Adapter) (buffer : BufId) (b : CameraBuffer) : Adapter :=
  { a with client := Function.update a.client buffer b }

@[simp] theorem client_fill (a : Adapter) (buffer : BufId) (b : CameraBuffer) :
    (a.fill buffer b).client buffer = b := Function.update_self ..

variable (env : Env)

/-- The lookup of a descriptor that is mapped. -/
theorem lookup_of_mapped (a : Adapter) (buffer : BufId) (outcome : MapOutcome) {handle : Handle}
    (hfd : 0 < (a.client buffer).dmafd)
    (hm : a.mBufferMapping (fdKey (a.client buffer).dmafd) = some handle) :
    lookup env a buffer outcome = (.ok, a, some handle) := by
  unfold lookup
  dsimp only
  rw [if_pos (show (a.client buffer).dmafd > 0 from hfd), hm]

/-- The lookup of one that is not: it is mapped, and looked up again. -/
theorem lookup_of_unmapped (a : Adapter) (buffer : BufId) (outcome : MapOutcome)
    (hfd : 0 < (a.client buffer).dmafd)
    (hm : a.mBufferMapping (fdKey (a.client buffer).dmafd) = none) :
    lookup env a buffer outcome = ((mapMemory env a buffer outcome).1,
      (mapMemory env a buffer outcome).2,
      (mapMemory env a buffer outcome).2.mBufferMapping (fdKey (a.client buffer).dmafd)) := by
  unfold lookup
  dsimp only
  rw [if_pos (show (a.client buffer).dmafd > 0 from hfd), hm]

/-- The two containers after the mapping of an NV12 buffer, whatever the outcome. -/
theorem mapMemory_containers {a : Adapter} {buffer : BufId} (outcome : MapOutcome)
    (hf : (a.client buffer).format = v4l2PixFmtNv12) :
    (mapMemory env a buffer outcome).2.mBufferMapping =
        Function.update a.mBufferMapping (fdKey (a.client buffer).dmafd) (some outcome.handle) ∧
      (mapMemory env a buffer outcome).2.mMappedBuffers = a.mMappedBuffers ++ [outcome.handle] := by
  unfold mapMemory
  dsimp only
  rw [if_neg (not_not.mpr hf)]
  cases outcome with
  | mapped handle => exact ⟨rfl, rfl⟩
  | failed left => exact ⟨rfl, rfl⟩

/-- A capture whose lookup finds a handle. -/
theorem captureLocked_of_lookup {a a' : Adapter} {w : BufferWrapper} {outcome : MapOutcome}
    {handle : Handle} (h : lookup env a w.buffer outcome = (.ok, a', some handle)) :
    captureLocked env a w outcome = (some ⟨a'.frameNumber, a'.mRequestSettings, handle⟩,
      { a' with
        frameNumber := a'.frameNumber + 1
        mQueuedBuffers := a'.mQueuedBuffers ++ [w] }) := by
  unfold captureLocked
  rw [h]

/-- **A capture of a DMA buffer**: the descriptor is mapped, it is mapped now, or the format is refused
and nothing changes. -/
theorem captureLocked_dma (a : Adapter) (w : BufferWrapper) {b : CameraBuffer} (hfd : 0 < b.dmafd)
    (outcome : MapOutcome) :
    (a.mBufferMapping (fdKey b.dmafd) ≠ none ∧ ∃ request a',
      captureLocked env (a.fill w.buffer b) w outcome = (some request, a') ∧
      a'.mBufferMapping = a.mBufferMapping ∧ a'.mMappedBuffers = a.mMappedBuffers) ∨
    (MapsFd a b ∧ ∃ request a', captureLocked env (a.fill w.buffer b) w outcome = (some request, a') ∧
      a'.mBufferMapping = Function.update a.mBufferMapping (fdKey b.dmafd) (some outcome.handle) ∧
      a'.mMappedBuffers = a.mMappedBuffers ++ [outcome.handle]) ∨
    (b.format ≠ v4l2PixFmtNv12 ∧
      captureLocked env (a.fill w.buffer b) w outcome = (none, a.fill w.buffer b)) := by
  cases hm : a.mBufferMapping (fdKey b.dmafd) with
  | some handle =>
    have hlookup := lookup_of_mapped env (a.fill w.buffer b) w.buffer outcome
      (by rw [client_fill]; exact hfd) (by rw [client_fill]; exact hm)
    exact Or.inl ⟨nofun, _, _, captureLocked_of_lookup env hlookup, rfl, rfl⟩
  | none =>
    have hlookup := lookup_of_unmapped env (a.fill w.buffer b) w.buffer outcome
      (by rw [client_fill]; exact hfd) (by rw [client_fill]; exact hm)
    by_cases hf : b.format = v4l2PixFmtNv12
    · right
      left
      refine ⟨⟨hfd, hm, hf⟩, ?_⟩
      have hf' : ((a.fill w.buffer b).client w.buffer).format = v4l2PixFmtNv12 := by
        rw [client_fill]
        exact hf
      obtain ⟨hmap, hlist⟩ := mapMemory_containers env outcome hf'
      rw [(mapMemory_ok env outcome hf').1, hmap, Function.update_self] at hlookup
      rw [client_fill] at hmap
      exact ⟨_, _, captureLocked_of_lookup env hlookup, hmap, hlist⟩
    · right
      right
      refine ⟨hf, ?_⟩
      have hbad : mapMemory env (a.fill w.buffer b) w.buffer outcome =
          (.badValue, a.fill w.buffer b) := by
        apply mapMemory_bad
        rw [client_fill]
        exact hf
      rw [hbad] at hlookup
      unfold captureLocked
      rw [hlookup]

/-! ### Runs -/

/-- The adapter and what gralloc knows. -/
structure MapState where
  adapter : Adapter
  live : List (Int32 × Handle) := []
  produced : List Handle := []
  unmapped : List Handle := []

/-- The calls: a capture of a buffer that the client has filled, with the system as it is then, or
`close`. -/
inductive MapCall
  | capture (w : BufferWrapper) (b : CameraBuffer) (sys : Gralloc.System) (fresh left : Handle)
  | close

/-- The mapping that a capture adds. -/
def newMapping (a : Adapter) (b : CameraBuffer) (sys : Gralloc.System) (fresh left : Handle) :
    List (Int32 × Handle) :=
  if MapsFd a b ∧ mapOutcome sys b fresh left = .mapped fresh then [(b.dmafd, fresh)] else []

/-- A call. -/
def mapStep (s : MapState) : MapCall → Option MapState
  | .capture w b sys fresh left =>
    let new := newMapping s.adapter b sys fresh left
    some
      { s with
        adapter := (captureLocked env (s.adapter.fill w.buffer b) w (mapOutcome sys b fresh left)).2
        live := s.live ++ new
        produced := s.produced ++ new.map Prod.snd }
  | .close =>
    some
      { s with
        adapter := s.adapter.close
        live := []
        unmapped := s.unmapped ++ s.adapter.unmapFdCalls }

/-- **The books are in order**: the descriptors in the map are those of the live mappings, with their
handles, the list has the same handles, and every handle was unmapped once or is still there. -/
structure Bookkept (s : MapState) : Prop where
  keys : ∀ (fd : Int32) handle, 0 < fd →
    (s.adapter.mBufferMapping (fdKey fd) = some handle ↔ (fd, handle) ∈ s.live)
  listed : s.adapter.mMappedBuffers = s.live.map Prod.snd
  nodup : (s.live.map Prod.snd).Nodup
  unmapped : s.produced = s.unmapped ++ s.live.map Prod.snd

/-- The captures are of DMA buffers, and a `private_handle_t` is not made where another one is. -/
def mapAllowed (s : MapState) : MapCall → Prop
  | .capture _ b _ fresh _ => 0 < b.dmafd ∧ fresh ∉ s.live.map Prod.snd
  | .close => True

/-- Every mapping that is asked for succeeds. -/
def mapsSucceed (s : MapState) : MapCall → Prop
  | .capture _ b sys _ _ => MapsFd s.adapter b →
    (sys.mmap (sizeT (intT (mapFdArgs b).size)) b.dmafd).isOk = true
  | .close => True

/-- Nothing is mapped yet. -/
def MapStart (s : MapState) : Prop :=
  (∀ fd : Int32, 0 < fd → s.adapter.mBufferMapping (fdKey fd) = none) ∧
    s.adapter.mMappedBuffers = [] ∧ s.live = [] ∧ s.produced = [] ∧ s.unmapped = []

theorem fdKey_injective {fd fd' : Int32} (h : fdKey fd = fdKey fd') : fd = fd' := by
  have hu : fd.toUInt32 = fd'.toUInt32 := UInt32.toNat_inj.mp h
  rw [← Int32.toInt32_toUInt32 fd, hu, Int32.toInt32_toUInt32]

variable {env} {s s' : MapState}

theorem Bookkept.start (h : MapStart s) : Bookkept s := by
  obtain ⟨hmap, hlist, hlive, hprod, hun⟩ := h
  refine ⟨?_, ?_, ?_, ?_⟩
  · intro fd handle hfd
    rw [hmap fd hfd, hlive]
    simp
  · rw [hlist, hlive]
    rfl
  · rw [hlive]
    exact List.nodup_nil
  · rw [hprod, hun, hlive]
    rfl

/-- The outcome of a mapping is that of `mmap`. -/
theorem mapOutcome_eq_iff {sys : Gralloc.System} {b : CameraBuffer} {fresh left : Handle} :
    mapOutcome sys b fresh left = .mapped fresh ↔
      (sys.mmap (sizeT (intT (mapFdArgs b).size)) b.dmafd).isOk = true := by
  have hperform : (Gralloc.performMapFd sys (mapFdArgs b)).isOk =
      (sys.mmap (sizeT (intT (mapFdArgs b).size)) b.dmafd).isOk :=
    Gralloc.isOk_performMapFd sys (mapFdArgs b)
  rw [← hperform]
  unfold mapOutcome
  cases Gralloc.performMapFd sys (mapFdArgs b) with
  | ok hnd => exact iff_of_true rfl rfl
  | error err => exact iff_of_false nofun nofun

/-- A call that leaves the two containers alone keeps the books in order. -/
theorem Bookkept.of_same (hs : Bookkept s) {a : Adapter}
    (hmap : a.mBufferMapping = s.adapter.mBufferMapping)
    (hlist : a.mMappedBuffers = s.adapter.mMappedBuffers) : Bookkept { s with adapter := a } := by
  refine ⟨?_, ?_, hs.nodup, hs.unmapped⟩
  · intro fd handle hfd
    show a.mBufferMapping (fdKey fd) = some handle ↔ _
    rw [hmap]
    exact hs.keys fd handle hfd
  · show a.mMappedBuffers = _
    rw [hlist]
    exact hs.listed

/-- A new mapping under a descriptor that had none. -/
theorem Bookkept.add (hs : Bookkept s) {a : Adapter} {fd : Int32} {fresh : Handle}
    (hfd : 0 < fd) (hnone : s.adapter.mBufferMapping (fdKey fd) = none)
    (hfresh : fresh ∉ s.live.map Prod.snd)
    (hmap : a.mBufferMapping = Function.update s.adapter.mBufferMapping (fdKey fd) (some fresh))
    (hlist : a.mMappedBuffers = s.adapter.mMappedBuffers ++ [fresh]) :
    Bookkept { s with adapter := a, live := s.live ++ [(fd, fresh)], produced := s.produced ++ [fresh] } := by
  refine ⟨?_, ?_, ?_, ?_⟩
  · intro fd' handle hfd'
    show a.mBufferMapping (fdKey fd') = some handle ↔ (fd', handle) ∈ s.live ++ [(fd, fresh)]
    rw [hmap, List.mem_append, List.mem_singleton, ← hs.keys fd' handle hfd']
    by_cases heq : fd' = fd
    · subst heq
      rw [Function.update_self, hnone]
      simp [eq_comm]
    · have hkey : fdKey fd' ≠ fdKey fd := fun h => heq (fdKey_injective h)
      rw [Function.update_of_ne hkey]
      simp [heq]
  · show a.mMappedBuffers = (s.live ++ [(fd, fresh)]).map Prod.snd
    rw [hlist, hs.listed, List.map_append]
    rfl
  · exact nodup_append_new hs.nodup hfresh
  · show s.produced ++ [fresh] = s.unmapped ++ (s.live ++ [(fd, fresh)]).map Prod.snd
    rw [hs.unmapped, List.map_append, List.append_assoc]
    rfl

/-- `close` unmaps what there is. -/
theorem Bookkept.closed (hs : Bookkept s) : Bookkept
    { s with
      adapter := s.adapter.close
      live := []
      unmapped := s.unmapped ++ s.adapter.unmapFdCalls } := by
  refine ⟨fun fd handle _ => iff_of_false nofun nofun, rfl, List.nodup_nil, ?_⟩
  show s.produced = s.unmapped ++ s.adapter.mMappedBuffers ++ []
  rw [List.append_nil, hs.unmapped, hs.listed]

/-- **A call keeps the books in order exactly if its mapping, if it asks for one, succeeds.** -/
theorem Bookkept.step_iff (hs : Bookkept s) {c : MapCall} (ha : mapAllowed s c)
    (h : mapStep env s c = some s') : Bookkept s' ↔ mapsSucceed s c := by
  cases c with
  | close =>
    obtain rfl := Option.some.inj h
    exact iff_of_true hs.closed trivial
  | capture w b sys fresh left =>
    obtain ⟨hfd, hfresh⟩ := ha
    obtain rfl := Option.some.inj h
    have hnew : ¬ MapsFd s.adapter b → newMapping s.adapter b sys fresh left = [] :=
      fun hno => if_neg fun h => hno h.1
    rcases captureLocked_dma env s.adapter w hfd (mapOutcome sys b fresh left) with
      ⟨hsome, request, a', hcapture, hmap, hlist⟩ | ⟨hyes, request, a', hcapture, hmap, hlist⟩ |
        ⟨hformat, hcapture⟩
    · have hno : ¬ MapsFd s.adapter b := fun h => hsome h.2.1
      rw [hcapture, hnew hno, List.map_nil, List.append_nil, List.append_nil]
      exact iff_of_true (hs.of_same hmap hlist) fun h => absurd h hno
    · rw [hcapture]
      by_cases hok : mapOutcome sys b fresh left = .mapped fresh
      · have hadd : newMapping s.adapter b sys fresh left = [(b.dmafd, fresh)] := if_pos ⟨hyes, hok⟩
        rw [hok] at hmap hlist
        rw [hadd]
        exact iff_of_true (hs.add hfd hyes.2.1 hfresh hmap hlist) fun _ => mapOutcome_eq_iff.mp hok
      · -- the handle that is kept belongs to no mapping
        have hnone : newMapping s.adapter b sys fresh left = [] := if_neg fun h => hok h.2
        rw [hnone, List.map_nil, List.append_nil, List.append_nil]
        refine iff_of_false ?_ fun h => hok (mapOutcome_eq_iff.mpr (h hyes))
        intro hbad
        have hkey : a'.mBufferMapping (fdKey b.dmafd) =
            some (mapOutcome sys b fresh left).handle := by
          rw [hmap]
          exact Function.update_self ..
        have hold := (hs.keys b.dmafd _ hfd).mpr ((hbad.keys b.dmafd _ hfd).mp hkey)
        rw [hyes.2.1] at hold
        cases hold
    · have hno : ¬ MapsFd s.adapter b := fun h => hformat h.2.2
      rw [hcapture, hnew hno, List.map_nil, List.append_nil, List.append_nil]
      exact iff_of_true (hs.of_same rfl rfl) fun h => absurd h hno

/-- The calls that meet both conditions. -/
def mapsInOrder (s : MapState) (c : MapCall) : Prop := mapAllowed s c ∧ mapsSucceed s c

/-- **The bookkeeping of the mappings** in every run in which all mappings succeed: the books are in
order, a capture that `mapMemory` refuses sends no request and changes nothing, and a `close` completes
the unmappings to exactly one for every mapping. -/
theorem mapping_bookkept (hr : Reach (mapStep env) mapsInOrder MapStart s) :
    Bookkept s ∧
    (∀ (w : BufferWrapper) (b : CameraBuffer) (outcome : MapOutcome), 0 < b.dmafd →
      s.adapter.mBufferMapping (fdKey b.dmafd) = none →
      (mapMemory env (s.adapter.fill w.buffer b) w.buffer outcome).1 ≠ .ok →
      captureLocked env (s.adapter.fill w.buffer b) w outcome = (none, s.adapter.fill w.buffer b)) ∧
    s.unmapped ++ s.adapter.unmapFdCalls = s.produced := by
  have hbook : Bookkept s := by
    refine hr.invariant (fun s h => Bookkept.start h) ?_
    intro s c s' _ hs hc hstep
    exact (hs.step_iff hc.1 hstep).mpr hc.2
  refine ⟨hbook, ?_, ?_⟩
  · intro w b outcome hfd hnone hbad
    rcases captureLocked_dma env s.adapter w hfd outcome with ⟨hsome, -⟩ | ⟨hyes, -⟩ | ⟨-, hcapture⟩
    · exact absurd hnone hsome
    · refine absurd (mapMemory_ok env outcome ?_).1 hbad
      rw [client_fill]
      exact hyes.2.2
    · exact hcapture
  · show s.unmapped ++ s.adapter.mMappedBuffers = s.produced
    rw [hbook.listed, hbook.unmapped]

instance (s : MapState) : (c : MapCall) → Decidable (mapsInOrder s c)
  | .capture _ _ _ _ _ => inferInstanceAs (Decidable ((_ ∧ _) ∧ (_ → _)))
  | .close => inferInstanceAs (Decidable (True ∧ True))

/-- An environment without static metadata. -/
def mapDemoEnv : Env := ⟨referenceLibc, none, none, id⟩

/-- An adapter with two buffers. -/
def mapDemoStart : MapState where
  adapter := { client := fun _ => ⟨v4l2PixFmtNv12, 16, 16, 0, 0, 0, 0⟩ }

theorem mapDemo_start : MapStart mapDemoStart := ⟨fun _ _ => rfl, rfl, rfl, rfl, rfl⟩

/-- An NV12 buffer behind a descriptor. -/
def mapDemoBuffer (dmafd : Int32) : CameraBuffer := ⟨v4l2PixFmtNv12, 16, 16, 0, 0, dmafd, 0⟩

/-- A system without memory for mappings. -/
def mapDemoNoMemory : Gralloc.System := { Gralloc.demoSystem with mmap := fun _ _ => .error (-12) }

/-- Three captures of two buffers, the second time of the first one without memory, and `close`. -/
theorem mapping_bookkept_demo : ∃ s, Reach (mapStep mapDemoEnv) mapsInOrder MapStart s ∧
    s.unmapped = [10, 11] ∧ Bookkept s := by
  have hrun : (exec (mapStep mapDemoEnv) mapsInOrder mapDemoStart
      [.capture ⟨0, 1⟩ (mapDemoBuffer 5) Gralloc.demoSystem 10 77,
        .capture ⟨0, 1⟩ (mapDemoBuffer 5) mapDemoNoMemory 12 78,
        .capture ⟨0, 2⟩ (mapDemoBuffer 6) Gralloc.demoSystem 11 79, .close]).map MapState.unmapped =
      some [10, 11] := by decide
  obtain ⟨s, hr, hs⟩ := Reach.of_exec mapDemo_start hrun
  exact ⟨s, hr, hs, (mapping_bookkept hr).1⟩

/-- The first mapping fails: the request is sent with what was behind the new pointer, and `close`
passes it to `GRALLOC_UNMAP_FD`. -/
theorem mapping_not_bookkept : ¬ ∀ (env : Env) (s : MapState),
    Reach (mapStep env) mapAllowed MapStart s → Bookkept s := by
  intro hall
  have hinit : Reach (mapStep mapDemoEnv) mapAllowed MapStart mapDemoStart := .init mapDemo_start
  have hfailed := hall mapDemoEnv _ (hinit.step (a := .capture ⟨0, 1⟩ (mapDemoBuffer 5) mapDemoNoMemory
    10 77) ⟨by decide, by decide⟩ rfl)
  exact absurd hfailed.listed (by decide)

end Adapter

end IntelCamera
