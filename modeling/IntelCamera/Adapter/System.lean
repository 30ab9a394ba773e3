import IntelCamera.Lib.Runs
import IntelCamera.Adapter.Code

/-!
# Adapter.System — threads, the HAL and the adapter as one machine

The machine interleaves the critical sections of `Adapter.Code`.  A thread is idle, or it is inside
`capture` on behalf of `qBuf` or `start`: between the unlock and the call of
`process_capture_request`, inside that call, or between its return and the relock.  The HAL calls
`processCaptureResult` at any time.  `dqBuf` is taken at its last acquisition of the lock.

The choices of the environment are in the labels: the outcome of a mapping, the status of a request,
what an uninitialised entry holds.  `History` records what happened; no step reads it.  A run ends where
the frame number would overflow, so every result over runs carries this bound, and where a conversion of
`setParameters` ends the process.
-/

namespace IntelCamera

open Lib

/-- Which method called `capture`. -/
inductive Caller
  | qBuf | start
deriving DecidableEq, Repr

/-- A request handed over by `capture`: the `qBuf` call it goes back to (by the order in which these
took the lock), its frame number, the client's buffer and the handle submitted for it. -/
structure Submission where
  ticket : ℕ
  frame : ℕ
  buffer : BufId
  handle : Handle
deriving DecidableEq, Repr

/-- A call of `capture` between its unlock and its relock, with the entries that the settings had
when the request was built. -/
structure Call where
  request : Request
  caller : Caller
  submission : Submission
  entries : Option (List TypedEntry)
deriving DecidableEq, Repr

/-- Where a thread is. -/
inductive Pc
  | idle
  | unlocked (c : Call)
  | inHal (c : Call)
  | returned (c : Call) (status : Status)
deriving DecidableEq, Repr

/-- The submission behind a call in progress. -/
def Pc.submission : Pc → Option Submission
  | .idle => none
  | .unlocked c => some c.submission
  | .inHal c => some c.submission
  | .returned c _ => some c.submission

/-- A buffer handed out by `dqBuf`: its contents then, and its latest submission. -/
structure Returned where
  buffer : BufId
  contents : CameraBuffer
  submission : Option Submission
deriving DecidableEq, Repr

/-- What happened so far. -/
structure History where
  /-- the number of `qBuf` calls that took the lock -/
  tickets : ℕ := 0
  /-- the calls behind `mPendingBuffers` -/
  pendingTickets : List ℕ := []
  /-- the buffers passed to `capture` -/
  passed : List BufId := []
  /-- the requests built, in order -/
  submitted : List Submission := []
  /-- the requests passed to `process_capture_request`, in order -/
  begun : List Submission := []
  /-- the results delivered -/
  delivered : List CaptureResult := []
  /-- the frames for which a wrapper moved to `mCapturedBuffers` -/
  moved : List ℕ := []
  /-- the buffers returned by `dqBuf` -/
  returned : List Returned := []
  /-- the buffers whose `qBuf` was accepted and that were not returned since -/
  held : BufId → Bool := fun _ => false
  /-- `close` was called -/
  closed : Bool := false

/-- The adapter, its threads and what happened. -/
structure System (T : Type) where
  adapter : Adapter
  threads : T → Pc := fun _ => .idle
  hist : History := {}

/-- What may happen next. -/
inductive Act (T : Type)
  | qBuf (t : T) (streamId : Int32) (buffer : Option BufId) (outcome : MapOutcome)
  | start (t : T) (outcome : MapOutcome)
  | halBegin (t : T)
  | halEnd (t : T) (status : Status)
  | relock (t : T) (outcome : MapOutcome)
  | stop (t : T)
  | dqBuf (t : T)
  | result (r : CaptureResult) (stale : Option UInt64)
  | setParameters (t : T) (param : Parameters)
  | close (t : T)
  | write (b : BufId) (contents : CameraBuffer)

namespace System

variable {T : Type} [DecidableEq T] (env : Env)

/-- `capture` gives up the lock: the thread is on its way to `process_capture_request`. -/
def submit (s : System T) (t : T) (a : Adapter) (w : BufferWrapper) (request : Request)
    (caller : Caller) (ticket : ℕ) : System T :=
  let sub : Submission := ⟨ticket, request.frameNumber, w.buffer, request.outputBuffer⟩
  let entries := (request.settings.bind a.heap.get).map Metadata.abs
  { adapter := a
    threads := Function.update s.threads t (.unlocked ⟨request, caller, sub, entries⟩)
    hist := { s.hist with
      submitted := s.hist.submitted ++ [sub]
      held := Function.update s.hist.held w.buffer true } }

/-- `qBuf` of the buffer `b`. -/
def qBuf (s : System T) (t : T) (w : BufferWrapper) (outcome : MapOutcome) : System T :=
  let ticket := s.hist.tickets
  if s.adapter.mStarted then
    let s := { s with hist := { s.hist with
      tickets := ticket + 1
      passed := s.hist.passed ++ [w.buffer] } }
    match s.adapter.captureLocked env w outcome with
    | (some request, a) => submit s t a w request .qBuf ticket
    | (none, a) => { s with adapter := a }
  else
    { s with
      adapter := { s.adapter with mPendingBuffers := s.adapter.mPendingBuffers ++ [w] }
      hist := { s.hist with
        tickets := ticket + 1
        pendingTickets := s.hist.pendingTickets ++ [ticket]
        held := Function.update s.hist.held w.buffer true } }

/-- The loop of `start`, entered by `start` itself or after a request. -/
def resume (s : System T) (t : T) (outcome : MapOutcome) : System T :=
  let pending := s.adapter.mPendingBuffers
  let drained := Adapter.drain env outcome pending s.adapter
  let tried := pending.length - drained.2.mPendingBuffers.length
  let s' := { s with hist := { s.hist with
    passed := s.hist.passed ++ (pending.take tried).map (·.buffer)
    pendingTickets := s.hist.pendingTickets.drop tried } }
  match drained.1 with
  | some (w, request) =>
    submit s' t drained.2 w request .start (s.hist.pendingTickets.getD (tried - 1) 0)
  | none => { s' with adapter := drained.2, threads := Function.update s.threads t .idle }

/-- `capture` has the lock again and returns to its caller. -/
def relock (s : System T) (t : T) (c : Call) (status : Status) (outcome : MapOutcome) : System T :=
  match c.caller with
  | .start => resume env s t outcome
  | .qBuf =>
    { s with
      threads := Function.update s.threads t .idle
      hist := { s.hist with
        held := Function.update s.hist.held c.submission.buffer
          (s.hist.held c.submission.buffer && status = .ok) } }

/-- The latest submission of a buffer. -/
def lastSubmission (s : System T) (b : BufId) : Option Submission :=
  (s.hist.submitted.filter fun sub => sub.buffer = b).getLast?

/-- `dqBuf`. -/
def dqBuf (s : System T) : System T :=
  match s.adapter.mCapturedBuffers with
  | [] => s
  | w :: rest =>
    { s with
      adapter := { s.adapter with mCapturedBuffers := rest }
      hist := { s.hist with
        returned := s.hist.returned ++
          [⟨w.buffer, s.adapter.client w.buffer, s.lastSubmission w.buffer⟩]
        held := Function.update s.hist.held w.buffer false } }

/-- What the critical sections do. -/
def advance (s : System T) : Act T → Option (System T)
  | .qBuf t streamId buffer outcome =>
    if s.threads t = .idle then
      match buffer with
      | none => some { s with hist := { s.hist with tickets := s.hist.tickets + 1 } }
      | some b => some (s.qBuf env t ⟨streamId, b⟩ outcome)
    else none
  | .start t outcome =>
    if s.threads t = .idle then
      some (resume env { s with adapter := { s.adapter with mStarted := true } } t outcome)
    else none
  | .halBegin t =>
    match s.threads t with
    | .unlocked c => some { s with
        threads := Function.update s.threads t (.inHal c)
        hist := { s.hist with begun := s.hist.begun ++ [c.submission] } }
    | _ => none
  | .halEnd t status =>
    match s.threads t with
    | .inHal c => some { s with threads := Function.update s.threads t (.returned c status) }
    | _ => none
  | .relock t outcome =>
    match s.threads t with
    | .returned c status => some (s.relock env t c status outcome)
    | _ => none
  | .stop t =>
    if s.threads t = .idle then
      some { s with adapter := { s.adapter with mStarted := false } }
    else none
  | .dqBuf t => if s.threads t = .idle then some s.dqBuf else none
  | .result r stale =>
    (s.adapter.processCaptureResult env r stale).map fun a =>
      { s with
        adapter := a
        hist := { s.hist with
          delivered := s.hist.delivered ++ [r]
          moved := s.hist.moved ++ if s.adapter.Completes r then [r.frameNumber] else [] } }
  | .setParameters t param =>
    if s.threads t = .idle then
      (s.adapter.setParameters env param).map fun set => { s with adapter := set.2 }
    else none
  | .close t =>
    if s.threads t = .idle then
      some { s with adapter := s.adapter.close, hist := { s.hist with closed := true } }
    else none
  | .write b contents =>
    some { s with adapter :=
      { s.adapter with client := Function.update s.adapter.client b contents } }

/-- One step.  `static int frame_number` may not overflow. -/
def step (s : System T) (act : Act T) : Option (System T) :=
  (advance env s act).filter fun s' => s'.adapter.frameNumber < 2 ^ 31

/-! ### One thread moves -/

/-- What does not tell the two places of the thread apart is as before. -/
theorem update_pc_same {β : Type} (g : Pc → β) {threads : T → Pc} {t : T} (pc : Pc)
    (hpc : g pc = g (threads t)) (u : T) : g (Function.update threads t pc u) = g (threads u) := by
  by_cases hut : u = t
  · subst hut
    rw [Function.update_self, hpc]
  · rw [Function.update_of_ne hut]

/-- What is seen of a thread that does not show at its new place was there before. -/
theorem update_pc_none {β : Type} {g : Pc → Option β} {threads : T → Pc} {t u : T} {pc : Pc} {x : β}
    (hpc : g pc = none) (h : g (Function.update threads t pc u) = some x) : g (threads u) = some x := by
  by_cases hut : u = t
  · subst hut
    rw [Function.update_self, hpc] at h
    cases h
  · rwa [Function.update_of_ne hut] at h

/-! ### What a step can do -/

variable {env}

/-- The thread leaves the loop of `start`, or it submits the first buffer that is found. -/
inductive Resumed (s : System T) (t : T) : System T → Prop
  | done : (∀ w ∈ s.adapter.mPendingBuffers, ¬ s.adapter.lookupOk w.buffer) →
      Resumed s t
        { adapter := { s.adapter with mPendingBuffers := [] }
          threads := Function.update s.threads t .idle
          hist := { s.hist with
            passed := s.hist.passed ++ s.adapter.mPendingBuffers.map (·.buffer)
            pendingTickets := s.hist.pendingTickets.drop s.adapter.mPendingBuffers.length } }
  | next (skipped : List BufferWrapper) (w : BufferWrapper) (rest : List BufferWrapper)
      (request : Request) (a : Adapter) :
      s.adapter.mPendingBuffers = skipped ++ w :: rest →
      (∀ v ∈ skipped, ¬ s.adapter.lookupOk v.buffer) → s.adapter.lookupOk w.buffer →
      Adapter.Submitted { s.adapter with mPendingBuffers := rest } w request a →
      Resumed s t
        (submit { s with hist := { s.hist with
            passed := s.hist.passed ++ (skipped ++ [w]).map (·.buffer)
            pendingTickets := s.hist.pendingTickets.drop (skipped.length + 1) } }
          t a w request .start (s.hist.pendingTickets.getD skipped.length 0))

theorem resume_cases (s : System T) (t : T) (outcome : MapOutcome) :
    Resumed s t (resume env s t outcome) := by
  rcases Adapter.drain_cases env outcome s.adapter.mPendingBuffers s.adapter with
    ⟨h1, h2⟩ | ⟨sk, w, rest, rq, a, h1, h2, hok, h3, h4⟩
  · have h := Resumed.done (s := s) (t := t) h2
    unfold resume
    dsimp only
    rw [h1]
    simpa using h
  · have h := Resumed.next (s := s) (t := t) sk w rest rq a h1 h2 hok h4
    have hlen : s.adapter.mPendingBuffers.length - a.mPendingBuffers.length = sk.length + 1 := by
      rw [h4.pending, h1]
      simp only [List.length_append, List.length_cons]
      omega
    have htake : s.adapter.mPendingBuffers.take (sk.length + 1) = sk ++ [w] := by
      rw [h1, List.append_cons]
      exact List.take_left' (by simp)
    unfold resume
    dsimp only
    rw [h3]
    dsimp only
    rw [hlen, htake]
    exact h

/-- **One step**, case by case. -/
inductive Step (env : Env) (s : System T) : Act T → System T → Prop
  | null (t : T) (streamId : Int32) (outcome : MapOutcome) : s.threads t = .idle →
      Step env s (.qBuf t streamId none outcome)
        { s with hist := { s.hist with tickets := s.hist.tickets + 1 } }
  | park (t : T) (streamId : Int32) (b : BufId) (outcome : MapOutcome) : s.threads t = .idle →
      s.adapter.mStarted = false →
      Step env s (.qBuf t streamId (some b) outcome)
        { s with
          adapter := { s.adapter with
            mPendingBuffers := s.adapter.mPendingBuffers ++ [⟨streamId, b⟩] }
          hist := { s.hist with
            tickets := s.hist.tickets + 1
            pendingTickets := s.hist.pendingTickets ++ [s.hist.tickets]
            held := Function.update s.hist.held b true } }
  | refuse (t : T) (streamId : Int32) (b : BufId) (outcome : MapOutcome) : s.threads t = .idle →
      s.adapter.mStarted = true → ¬ s.adapter.lookupOk b →
      Step env s (.qBuf t streamId (some b) outcome)
        { s with hist := { s.hist with
          tickets := s.hist.tickets + 1
          passed := s.hist.passed ++ [b] } }
  | queue (t : T) (streamId : Int32) (b : BufId) (outcome : MapOutcome) (request : Request)
      (a : Adapter) : s.threads t = .idle → s.adapter.mStarted = true → s.adapter.lookupOk b →
      Adapter.Submitted s.adapter ⟨streamId, b⟩ request a →
      Step env s (.qBuf t streamId (some b) outcome)
        (submit { s with hist := { s.hist with
            tickets := s.hist.tickets + 1
            passed := s.hist.passed ++ [b] } } t a ⟨streamId, b⟩ request .qBuf s.hist.tickets)
  | start (t : T) (outcome : MapOutcome) (s' : System T) : s.threads t = .idle →
      Resumed { s with adapter := { s.adapter with mStarted := true } } t s' →
      Step env s (.start t outcome) s'
  | halBegin (t : T) (c : Call) : s.threads t = .unlocked c →
      Step env s (.halBegin t)
        { s with
          threads := Function.update s.threads t (.inHal c)
          hist := { s.hist with begun := s.hist.begun ++ [c.submission] } }
  | halEnd (t : T) (c : Call) (status : Status) : s.threads t = .inHal c →
      Step env s (.halEnd t status)
        { s with threads := Function.update s.threads t (.returned c status) }
  | resume (t : T) (c : Call) (status : Status) (outcome : MapOutcome) (s' : System T) :
      s.threads t = .returned c status → c.caller = .start → Resumed s t s' →
      Step env s (.relock t outcome) s'
  | finish (t : T) (c : Call) (status : Status) (outcome : MapOutcome) :
      s.threads t = .returned c status → c.caller = .qBuf →
      Step env s (.relock t outcome)
        { s with
          threads := Function.update s.threads t .idle
          hist := { s.hist with
            held := Function.update s.hist.held c.submission.buffer
              (s.hist.held c.submission.buffer && status = .ok) } }
  | stop (t : T) : s.threads t = .idle →
      Step env s (.stop t) { s with adapter := { s.adapter with mStarted := false } }
  | timeout (t : T) : s.threads t = .idle → s.adapter.mCapturedBuffers = [] → Step env s (.dqBuf t) s
  | dequeue (t : T) (w : BufferWrapper) (rest : List BufferWrapper) : s.threads t = .idle →
      s.adapter.mCapturedBuffers = w :: rest →
      Step env s (.dqBuf t)
        { s with
          adapter := { s.adapter with mCapturedBuffers := rest }
          hist := { s.hist with
            returned := s.hist.returned ++
              [⟨w.buffer, s.adapter.client w.buffer, s.lastSubmission w.buffer⟩]
            held := Function.update s.hist.held w.buffer false } }
  | result (r : CaptureResult) (stale : Option UInt64) (a : Adapter) :
      s.adapter.processCaptureResult env r stale = some a →
      Step env s (.result r stale)
        { s with
          adapter := a
          hist := { s.hist with
            delivered := s.hist.delivered ++ [r]
            moved := s.hist.moved ++ if s.adapter.Completes r then [r.frameNumber] else [] } }
  | setParameters (t : T) (param : Parameters) (status : Status) (a : Adapter) :
      s.threads t = .idle → s.adapter.setParameters env param = some (status, a) →
      Step env s (.setParameters t param) { s with adapter := a }
  | close (t : T) : s.threads t = .idle →
      Step env s (.close t)
        { s with adapter := s.adapter.close, hist := { s.hist with closed := true } }
  | write (b : BufId) (contents : CameraBuffer) :
      Step env s (.write b contents)
        { s with adapter :=
          { s.adapter with client := Function.update s.adapter.client b contents } }

/-- **Every step is one of these.** -/
theorem step_cases {s s' : System T} {act : Act T} (h : step env s act = some s') :
    Step env s act s' := by
  replace h := (Option.filter_eq_some_iff.mp h).1
  cases act with
  | qBuf t streamId buffer outcome =>
    simp only [advance] at h
    split_ifs at h with hi
    cases buffer with
    | none =>
      obtain rfl := Option.some.inj h
      exact .null t streamId outcome hi
    | some b =>
      obtain rfl := Option.some.inj h
      by_cases hst : s.adapter.mStarted = true
      · rcases Adapter.captureLocked_cases env s.adapter ⟨streamId, b⟩ outcome with
          ⟨hok, rq, a, hc, hs⟩ | ⟨hno, hc⟩
        · have : Step env s _ _ := .queue t streamId b outcome rq a hi hst hok hs
          simpa [System.qBuf, hst, hc] using this
        · have : Step env s _ _ := .refuse t streamId b outcome hi hst hno
          simpa [System.qBuf, hst, hc] using this
      · have hst' : s.adapter.mStarted = false := by simpa using hst
        have : Step env s _ _ := .park t streamId b outcome hi hst'
        simpa [System.qBuf, hst'] using this
  | start t outcome =>
    obtain ⟨hi, rfl⟩ := guarded h
    exact .start t outcome _ hi (resume_cases _ t outcome)
  | halBegin t =>
    simp only [advance] at h
    split at h
    · next c hc =>
      obtain rfl := Option.some.inj h
      exact .halBegin t c hc
    · cases h
  | halEnd t status =>
    simp only [advance] at h
    split at h
    · next c hc =>
      obtain rfl := Option.some.inj h
      exact .halEnd t c status hc
    · cases h
  | relock t outcome =>
    simp only [advance] at h
    split at h
    · next c status hc =>
      obtain rfl := Option.some.inj h
      unfold System.relock
      cases hk : c.caller with
      | start => exact .resume t c status outcome _ hc hk (resume_cases s t outcome)
      | qBuf => exact .finish t c status outcome hc hk
    · cases h
  | stop t =>
    obtain ⟨hi, rfl⟩ := guarded h
    exact .stop t hi
  | dqBuf t =>
    obtain ⟨hi, rfl⟩ := guarded h
    unfold System.dqBuf
    split
    · next hc => exact .timeout t hi hc
    · next w rest hc => exact .dequeue t w rest hi hc
  | result r stale =>
    simp only [advance, Option.map_eq_some_iff] at h
    obtain ⟨a, ha, rfl⟩ := h
    exact .result r stale a ha
  | setParameters t param =>
    simp only [advance, Option.ite_none_right_eq_some, Option.map_eq_some_iff] at h
    obtain ⟨hi, ⟨status, a⟩, ha, rfl⟩ := h
    exact .setParameters t param status a hi ha
  | close t =>
    obtain ⟨hi, rfl⟩ := guarded h
    exact .close t hi
  | write b contents =>
    simp only [advance] at h
    obtain rfl := Option.some.inj h
    exact .write b contents

end System

end IntelCamera
