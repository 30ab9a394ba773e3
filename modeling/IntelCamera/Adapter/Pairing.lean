import IntelCamera.Adapter.Conservation

/-!
# Adapter.Pairing — which buffer gets which result

`processCaptureResult` pairs a result with a client buffer by position: the head of `mQueuedBuffers`.
When each kind of result comes in frame order, a frame is completed exactly when it is the first one
that is not, so the head is its buffer and the buffers come back in the order of submission with their
own timestamps (`Flow`), however the two kinds are interleaved.  The address and the frame number,
though, are written when the buffer arrives, and then the head is the frame's own buffer only if all
earlier metadata is there (`Stamped`).
-/

namespace IntelCamera

open Lib

/-- An element of a list with one more at the end. -/
theorem getElem?_snoc_cases {α : Type} {l : List α} {x y : α} {k : ℕ}
    (h : (l ++ [x])[k]? = some y) : (k < l.length ∧ l[k]? = some y) ∨ (k = l.length ∧ y = x) := by
  by_cases hk : k < l.length
  · rw [List.getElem?_append_left hk] at h
    exact Or.inl ⟨hk, h⟩
  · have hlt := (List.getElem?_eq_some_iff.mp h).1
    rw [List.length_append, List.length_singleton] at hlt
    obtain rfl : k = l.length := by omega
    rw [List.getElem?_concat_length] at h
    exact Or.inr ⟨rfl, (Option.some.inj h).symm⟩

/-- The value of `ANDROID_SENSOR_TIMESTAMP` in the metadata of a result. -/
def sensorTimestampOf (env : Env) (r : CaptureResult) : Option UInt64 :=
  (r.result.bind fun m => findCameraMetadataEntry env.libc m sensorTimestamp).bind fun entry =>
    if entry.count = 1 then some (i64At entry.data 0).toUInt64 else none

theorem shutterTimestamp_eq {env : Env} {r : CaptureResult} {v : UInt64}
    (h : sensorTimestampOf env r = some v) (stale : Option UInt64) :
    Adapter.shutterTimestamp env r stale = some v := by
  obtain ⟨entry, he, hv⟩ := Option.bind_eq_some_iff.mp h
  unfold Adapter.shutterTimestamp
  rw [he]
  exact hv

/-! ### What `mResults` holds -/

/-- The entry of the `k`-th frame after `m` metadata and `b` buffer results in frame order, with the
timestamps `ts`. -/
def expectedResult (m b : ℕ) (ts : ℕ → UInt64) (k : ℕ) : Option Result :=
  if k < min m b then none
  else if k < m then some ⟨true, false, ts k⟩
  else if k < b then some ⟨false, true, 0⟩
  else none

theorem expectedResult_metadata {m b k : ℕ} {ts ts' : ℕ → UInt64} (hk : k ≠ m)
    (hts : ∀ j, j < m → ts' j = ts j) :
    expectedResult (m + 1) b ts' k = expectedResult m b ts k := by
  unfold expectedResult
  have h1 : k < min (m + 1) b ↔ k < min m b := by omega
  have h2 : k < m + 1 ↔ k < m := by omega
  simp only [h1, h2]
  by_cases hkm : k < m
  · rw [hts k hkm]
  · simp only [if_neg hkm]

theorem expectedResult_buffer {m b k : ℕ} {ts : ℕ → UInt64} (hk : k ≠ b) :
    expectedResult m (b + 1) ts k = expectedResult m b ts k := by
  unfold expectedResult
  have h1 : k < min m (b + 1) ↔ k < min m b := by omega
  have h2 : k < b + 1 ↔ k < b := by omega
  simp only [h1, h2]

theorem expectedResult_at_metadata (m b : ℕ) (ts : ℕ → UInt64) :
    expectedResult m b ts m = if m < b then some ⟨false, true, 0⟩ else none := by
  unfold expectedResult
  rw [if_neg (by omega), if_neg (by omega)]

theorem expectedResult_at_buffer (m b : ℕ) (ts : ℕ → UInt64) :
    expectedResult m b ts b = if b < m then some ⟨true, false, ts b⟩ else none := by
  unfold expectedResult
  rw [if_neg (by omega), if_neg (lt_irrefl b)]

theorem expectedResult_after_metadata (m b : ℕ) (ts : ℕ → UInt64) :
    expectedResult (m + 1) b ts m = if m < b then none else some ⟨true, false, ts m⟩ := by
  unfold expectedResult
  by_cases hlt : m < b
  · rw [if_pos (by omega), if_pos hlt]
  · rw [if_neg (by omega), if_pos (by omega), if_neg hlt]

theorem expectedResult_after_buffer (m b : ℕ) (ts : ℕ → UInt64) :
    expectedResult m (b + 1) ts b = if b < m then none else some ⟨false, true, 0⟩ := by
  unfold expectedResult
  by_cases hlt : b < m
  · rw [if_pos (by omega), if_pos hlt]
  · rw [if_neg (by omega), if_neg hlt, if_pos (by omega), if_neg hlt]

namespace System

variable {T : Type} {env : Env}

/-- The results with `num` output buffers. -/
def results (s : System T) (num : ℕ) : List CaptureResult :=
  s.hist.delivered.filter fun r => r.numOutputBuffers = num

/-- The number of frames with both results. -/
def completed (s : System T) : ℕ := min (s.results 0).length (s.results 1).length

/-- The timestamp of the `k`-th metadata result. -/
def timestampOf (env : Env) (s : System T) (k : ℕ) : UInt64 :=
  (((s.results 0)[k]?).bind (sensorTimestampOf env)).getD 0

/-- The entry of the `k`-th frame. -/
def expected (env : Env) (s : System T) (k : ℕ) : Option Result :=
  expectedResult (s.results 0).length (s.results 1).length (s.timestampOf env) k

/-- The client queues a buffer only when it has it and leaves it alone until it is back; requests are
accepted; results of each kind come in frame order, metadata with its timestamp, the buffer with the
handle of the frame. -/
def inOrder (env : Env) (s : System T) : Act T → Prop
  | .qBuf _ _ (some b) _ => s.hist.held b = false
  | .halEnd _ status => status = .ok
  | .write b _ => s.hist.held b = false
  | .result r _ => ∃ sub ∈ s.hist.begun,
      s.hist.submitted[(s.results r.numOutputBuffers).length]? = some sub ∧
      r.frameNumber = sub.frame ∧
      (r.numOutputBuffers = 0 ∧ (sensorTimestampOf env r).isSome ∨
        r.numOutputBuffers = 1 ∧ r.outputBuffer = sub.handle)
  | _ => True

theorem inOrder_tidy (s : System T) (act : Act T) (h : inOrder env s act) : tidy s act := by
  unfold tidy
  split
  · exact h
  · exact fun _ => h
  · trivial

/-- The submissions are what came back, what is captured and what is queued, in this order; the results
are those of the first submissions, and everything carries its own timestamp. -/
structure Flow (env : Env) (s : System T) : Prop where
  order : s.hist.returned.map (·.buffer) ++
    (s.adapter.mCapturedBuffers ++ s.adapter.mQueuedBuffers).map (·.buffer) =
      s.hist.submitted.map (·.buffer)
  counted : s.hist.returned.length + s.adapter.mCapturedBuffers.length = s.completed
  entries : ∀ k sub, s.hist.submitted[k]? = some sub →
    s.adapter.mResults sub.frame = s.expected env k
  unseen : ∀ f, f ∉ s.hist.submitted.map (·.frame) → s.adapter.mResults f = none
  numbered : ∀ (num k : ℕ) (r : CaptureResult) (sub : Submission), (s.results num)[k]? = some r →
    s.hist.submitted[k]? = some sub → r.frameNumber = sub.frame
  stamped : ∀ r ∈ s.results 0, (sensorTimestampOf env r).isSome
  bounded : ∀ num, (s.results num).length ≤ s.hist.submitted.length
  captured : ∀ k w, s.adapter.mCapturedBuffers[k]? = some w →
    (s.adapter.client w.buffer).timestamp = s.timestampOf env (s.hist.returned.length + k)
  returned : ∀ i ret, s.hist.returned[i]? = some ret →
    ret.contents.timestamp = s.timestampOf env i ∧
      ∃ sub, s.hist.submitted[i]? = some sub ∧ ret.submission = some sub

theorem results_snoc (s : System T) (r : CaptureResult) (num : ℕ) {s' : System T}
    (hd : s'.hist.delivered = s.hist.delivered ++ [r]) :
    s'.results num = s.results num ++ if r.numOutputBuffers = num then [r] else [] := by
  unfold results
  rw [hd]
  split_ifs with h <;> simp [h]

theorem timestampOf_snoc {s s' : System T} {r : CaptureResult} {k : ℕ}
    (hd : s'.hist.delivered = s.hist.delivered ++ [r]) (hk : k < (s.results 0).length) :
    s'.timestampOf env k = s.timestampOf env k := by
  unfold timestampOf
  rw [results_snoc s r 0 hd, List.getElem?_append_left hk]

theorem timestampOf_next {s s' : System T} {r : CaptureResult} {v : UInt64}
    (hd : s'.hist.delivered = s.hist.delivered ++ [r]) (h0 : r.numOutputBuffers = 0)
    (hv : sensorTimestampOf env r = some v) : s'.timestampOf env (s.results 0).length = v := by
  unfold timestampOf
  rw [results_snoc s r 0 hd, if_pos h0, List.getElem?_concat_length, Option.bind_some, hv]
  rfl

/-- Where nothing is delivered, nothing of this changes. -/
theorem views_congr (env : Env) {s s' : System T} (hd : s'.hist.delivered = s.hist.delivered) :
    s'.results = s.results ∧ s'.completed = s.completed ∧ s'.timestampOf env = s.timestampOf env ∧
      s'.expected env = s.expected env := by
  have hres : s'.results = s.results := by
    funext num
    simp only [results, hd]
  have hts : s'.timestampOf env = s.timestampOf env := by
    funext k
    simp only [timestampOf, hres]
  refine ⟨hres, by simp only [completed, hres], hts, ?_⟩
  funext k
  simp only [expected, hres, hts]

/-- The buffers that the client waits for, each once. -/
theorem inFlight_nodup {s : System T} {exact : Prop} (h : Accounted exact s) :
    ((s.adapter.mCapturedBuffers ++ s.adapter.mQueuedBuffers).map (·.buffer)).Nodup := by
  refine List.nodup_iff_count_le_one.mpr fun b => ?_
  have h1 := h.atMost b
  simp only [Adapter.copies, List.map_append, List.count_append] at h1 ⊢
  split_ifs at h1 <;> omega

/-- A buffer that the client has is not in flight. -/
theorem not_inFlight_of_free {s : System T} {exact : Prop} (h : Accounted exact s) {b : BufId}
    (hb : s.hist.held b = false) :
    b ∉ (s.adapter.mCapturedBuffers ++ s.adapter.mQueuedBuffers).map (·.buffer) := by
  have h0 := h.copies_eq_zero hb
  simp only [Adapter.copies, List.map_append, List.count_append] at h0
  rw [← List.count_eq_zero, List.map_append, List.count_append]
  omega

/-- A pending buffer is not in flight. -/
theorem not_inFlight_of_pending {s : System T} {exact : Prop} (h : Accounted exact s)
    {w : BufferWrapper} (hw : w ∈ s.adapter.mPendingBuffers) :
    w.buffer ∉ (s.adapter.mCapturedBuffers ++ s.adapter.mQueuedBuffers).map (·.buffer) := by
  have h1 := h.atMost w.buffer
  have h2 := List.count_pos_iff.mpr (List.mem_map_of_mem (f := (·.buffer)) hw)
  simp only [Adapter.copies, List.map_append, List.count_append] at h1
  rw [← List.count_eq_zero, List.map_append, List.count_append]
  split_ifs at h1 <;> omega

namespace Flow

/-- The head of the queue belongs to the first frame that is not complete. -/
theorem head {s : System T} (h : Flow env s) {w : BufferWrapper} {rest : List BufferWrapper}
    (hq : s.adapter.mQueuedBuffers = w :: rest) :
    ∃ sub, s.hist.submitted[s.completed]? = some sub ∧ sub.buffer = w.buffer := by
  have hget : (s.hist.submitted.map (·.buffer))[s.completed]? = some w.buffer := by
    rw [← h.order, ← h.counted, hq]
    simp
  rw [List.getElem?_map, Option.map_eq_some_iff] at hget
  exact hget

/-- The buffer of a frame that is not back yet is in flight. -/
theorem inFlight_getElem? {s : System T} (h : Flow env s) {k : ℕ} {sub : Submission}
    (hk : s.hist.returned.length ≤ k) (hs : s.hist.submitted[k]? = some sub) :
    ((s.adapter.mCapturedBuffers ++ s.adapter.mQueuedBuffers).map
      (·.buffer))[k - s.hist.returned.length]? = some sub.buffer := by
  have hget : (s.hist.submitted.map (·.buffer))[k]? = some sub.buffer := by
    rw [List.getElem?_map, hs]
    rfl
  rwa [← h.order, List.getElem?_append_right (by simpa using hk), List.length_map] at hget

/-- The buffers of the frames that are not back are different ones. -/
theorem index_eq {s : System T} {exact : Prop} (h : Flow env s) (hacc : Accounted exact s)
    {j k : ℕ} {sub sub' : Submission} (hj : s.hist.returned.length ≤ j)
    (hk : s.hist.returned.length ≤ k) (hsj : s.hist.submitted[j]? = some sub)
    (hsk : s.hist.submitted[k]? = some sub') (hb : sub.buffer = sub'.buffer) : j = k := by
  have h1 := h.inFlight_getElem? hj hsj
  have h2 := h.inFlight_getElem? hk hsk
  have heq : j - s.hist.returned.length = k - s.hist.returned.length :=
    (List.getElem?_inj (List.getElem?_eq_some_iff.mp h1).1 (inFlight_nodup hacc)).mp
      (h1.trans (hb ▸ h2.symm))
  omega

/-- Steps that neither submit nor deliver nor return, and leave the buffers in flight alone. -/
theorem frame {s s' : System T} (h : Flow env s) (hs : s'.hist.submitted = s.hist.submitted)
    (hd : s'.hist.delivered = s.hist.delivered) (hr : s'.hist.returned = s.hist.returned)
    (hq : s'.adapter.mQueuedBuffers = s.adapter.mQueuedBuffers)
    (hc : s'.adapter.mCapturedBuffers = s.adapter.mCapturedBuffers)
    (hm : s'.adapter.mResults = s.adapter.mResults)
    (hcl : ∀ b ∈ s.adapter.mCapturedBuffers.map (·.buffer),
      s'.adapter.client b = s.adapter.client b) : Flow env s' := by
  obtain ⟨hres, hcomp, hts, hexp⟩ := views_congr env hd
  refine ⟨?_, ?_, ?_, ?_, ?_, ?_, ?_, ?_, ?_⟩
  · rw [hr, hc, hq, hs]
    exact h.order
  · rw [hr, hc, hcomp]
    exact h.counted
  · rw [hs, hm, hexp]
    exact h.entries
  · rw [hs, hm]
    exact h.unseen
  · rw [hres, hs]
    exact h.numbered
  · rw [hres]
    exact h.stamped
  · rw [hres, hs]
    exact h.bounded
  · intro k w hw
    rw [hc] at hw
    rw [hcl _ (List.mem_map_of_mem (List.mem_of_getElem? hw)), hts, hr]
    exact h.captured k w hw
  · rw [hr, hts, hs]
    exact h.returned

end Flow

theorem fresh_flow {s : System T} (h : Fresh s) : Flow env s := by
  refine ⟨?_, ?_, ?_, fun f _ => h.results f, ?_, ?_, ?_, ?_, ?_⟩ <;>
    simp [h.hist, h.captured, h.queued, results, completed]

/-- Frame numbers tell the submissions apart. -/
theorem Numbered.index_eq {s : System T} (h : Numbered s) {j k : ℕ} {sub sub' : Submission}
    (hj : s.hist.submitted[j]? = some sub) (hk : s.hist.submitted[k]? = some sub')
    (hf : sub.frame = sub'.frame) : j = k := by
  have hlt : j < (s.hist.submitted.map (·.frame)).length := by
    rw [List.length_map]
    exact (List.getElem?_eq_some_iff.mp hj).1
  refine (List.getElem?_inj hlt (h.increasing.imp ne_of_lt)).mp ?_
  simp [hj, hk, hf]

/-- The submission at `k` is the latest of its buffer if no later one has it. -/
theorem lastSubmission_eq {s : System T} {k : ℕ} {sub : Submission}
    (hs : s.hist.submitted[k]? = some sub)
    (hlast : sub.buffer ∉ (s.hist.submitted.drop (k + 1)).map (·.buffer)) :
    s.lastSubmission sub.buffer = some sub := by
  have hsplit : s.hist.submitted = s.hist.submitted.take k ++
      sub :: s.hist.submitted.drop (k + 1) := by
    obtain ⟨hk, rfl⟩ := List.getElem?_eq_some_iff.mp hs
    rw [← List.drop_eq_getElem_cons hk, List.take_append_drop]
  have hnil : (s.hist.submitted.drop (k + 1)).filter (fun later => later.buffer = sub.buffer) =
      [] := by
    refine List.filter_eq_nil_iff.mpr fun later hmem => ?_
    intro he
    exact hlast (List.mem_map.mpr ⟨later, hmem, of_decide_eq_true he⟩)
  unfold lastSubmission
  conv_lhs => rw [hsplit]
  rw [List.filter_append, List.filter_cons, hnil]
  simp

namespace Flow

/-- The first captured buffer is that of the next frame to come back, under its latest submission. -/
theorem next_returned {s : System T} {exact : Prop} (h : Flow env s) (hacc : Accounted exact s)
    {w : BufferWrapper} {rest : List BufferWrapper}
    (hcap : s.adapter.mCapturedBuffers = w :: rest) :
    ∃ sub, s.hist.submitted[s.hist.returned.length]? = some sub ∧ sub.buffer = w.buffer ∧
      s.lastSubmission w.buffer = some sub := by
  have horder := h.order
  have hnd := inFlight_nodup hacc
  rw [hcap] at horder hnd
  simp only [List.cons_append, List.map_cons, List.nodup_cons] at horder hnd
  have hget : (s.hist.submitted.map (·.buffer))[s.hist.returned.length]? = some w.buffer := by
    rw [← horder]
    simp
  rw [List.getElem?_map, Option.map_eq_some_iff] at hget
  obtain ⟨sub, hsub, hbuf⟩ := hget
  have hdrop : (s.hist.submitted.drop (s.hist.returned.length + 1)).map (·.buffer) =
      (rest ++ s.adapter.mQueuedBuffers).map (·.buffer) := by
    rw [List.map_drop, ← horder, List.append_cons]
    exact List.drop_left' (by simp)
  refine ⟨sub, hsub, hbuf, ?_⟩
  rw [← hbuf]
  refine lastSubmission_eq hsub ?_
  rw [hdrop, hbuf]
  exact hnd.1

/-- `dqBuf` returns the first captured buffer. -/
theorem dequeue {s s' : System T} {exact : Prop} (h : Flow env s) (hacc : Accounted exact s)
    {w : BufferWrapper} {rest : List BufferWrapper} (hcap : s.adapter.mCapturedBuffers = w :: rest)
    (ha : s'.adapter = { s.adapter with mCapturedBuffers := rest })
    (hs : s'.hist.submitted = s.hist.submitted) (hd : s'.hist.delivered = s.hist.delivered)
    (hr : s'.hist.returned = s.hist.returned ++
      [⟨w.buffer, s.adapter.client w.buffer, s.lastSubmission w.buffer⟩]) : Flow env s' := by
  obtain ⟨hres, hcomp, hts, hexp⟩ := views_congr env hd
  obtain ⟨sub, hsub, -, hlast⟩ := h.next_returned hacc hcap
  have hcount := h.counted
  rw [hcap, List.length_cons] at hcount
  refine ⟨?_, ?_, ?_, ?_, ?_, ?_, ?_, ?_, ?_⟩
  · rw [ha, hr, hs, ← h.order, hcap]
    simp
  · rw [ha, hr, hcomp, ← hcount]
    simp only [List.length_append, List.length_singleton]
    omega
  · rw [ha, hs, hexp]
    exact h.entries
  · rw [ha, hs]
    exact h.unseen
  · rw [hres, hs]
    exact h.numbered
  · rw [hres]
    exact h.stamped
  · rw [hres, hs]
    exact h.bounded
  · intro k v hv
    rw [ha] at hv ⊢
    have := h.captured (k + 1) v (by rw [hcap]; simpa using hv)
    rw [this, hts, hr, List.length_append, List.length_singleton]
    congr 1
    omega
  · intro i ret hi
    rw [hr] at hi
    rw [hts, hs]
    rcases getElem?_snoc_cases hi with ⟨-, hi⟩ | ⟨rfl, rfl⟩
    · exact h.returned i ret hi
    · exact ⟨h.captured 0 w (by rw [hcap]; rfl), sub, hsub, hlast⟩

/-- A frame is submitted: its buffer goes to the end of the queue. -/
theorem submit {s s' : System T} (h : Flow env s) (hn : Numbered s) {sub : Submission}
    {w : BufferWrapper} (hw : sub.buffer = w.buffer) (hf : sub.frame = s.adapter.frameNumber)
    (hs : s'.hist.submitted = s.hist.submitted ++ [sub])
    (hd : s'.hist.delivered = s.hist.delivered) (hr : s'.hist.returned = s.hist.returned)
    (hq : s'.adapter.mQueuedBuffers = s.adapter.mQueuedBuffers ++ [w])
    (hc : s'.adapter.mCapturedBuffers = s.adapter.mCapturedBuffers)
    (hm : s'.adapter.mResults = s.adapter.mResults)
    (hcl : ∀ b ∈ s.adapter.mCapturedBuffers.map (·.buffer),
      s'.adapter.client b = s.adapter.client b) : Flow env s' := by
  obtain ⟨hres, hcomp, hts, hexp⟩ := views_congr env hd
  refine ⟨?_, ?_, ?_, ?_, ?_, ?_, ?_, ?_, ?_⟩
  · rw [hr, hc, hq, hs]
    simp only [List.map_append, List.map_singleton, hw, ← h.order, List.append_assoc]
  · rw [hr, hc, hcomp]
    exact h.counted
  · intro k sub' hk
    rw [hs] at hk
    rw [hm, hexp]
    rcases getElem?_snoc_cases hk with ⟨-, hk⟩ | ⟨rfl, rfl⟩
    · exact h.entries k sub' hk
    · have h0 := h.bounded 0
      have h1 := h.bounded 1
      rw [h.unseen, expected, expectedResult, if_neg (by omega), if_neg (by omega), if_neg (by omega)]
      intro hmem
      obtain ⟨old, hold, hof⟩ := List.mem_map.mp hmem
      have := hn.below old hold
      omega
  · intro f hf'
    rw [hm]
    refine h.unseen f fun hmem => hf' ?_
    rw [hs, List.map_append]
    exact List.mem_append_left _ hmem
  · intro num k r sub' hk hsub
    rw [hres] at hk
    rw [hs] at hsub
    rcases getElem?_snoc_cases hsub with ⟨-, hsub⟩ | ⟨rfl, -⟩
    · exact h.numbered num k r sub' hk hsub
    · have h0 := h.bounded num
      have h1 := (List.getElem?_eq_some_iff.mp hk).1
      omega
  · rw [hres]
    exact h.stamped
  · intro num
    rw [hres, hs, List.length_append]
    exact (h.bounded num).trans (Nat.le_add_right _ _)
  · intro k v hv
    rw [hc] at hv
    rw [hcl _ (List.mem_map_of_mem (List.mem_of_getElem? hv)), hts, hr]
    exact h.captured k v hv
  · intro i ret hi
    rw [hr] at hi
    obtain ⟨h1, sub', h2, h3⟩ := h.returned i ret hi
    refine ⟨by rw [hts]; exact h1, sub', ?_, h3⟩
    rw [hs, List.getElem?_append_left (List.getElem?_eq_some_iff.mp h2).1]
    exact h2

/-- **What a result in frame order means for its frame**: it is the first one that is not complete and
gets its timestamp, or its entry records the result. -/
theorem entry_step {s s' : System T} (h : Flow env s) {r : CaptureResult} {sub : Submission}
    (stale : Option UInt64) (hd : s'.hist.delivered = s.hist.delivered ++ [r])
    (hidx : s.hist.submitted[(s.results r.numOutputBuffers).length]? = some sub)
    (hf : r.frameNumber = sub.frame)
    (hk : r.numOutputBuffers = 0 ∧ (sensorTimestampOf env r).isSome ∨ r.numOutputBuffers = 1) :
    (∀ j, j ≠ (s.results r.numOutputBuffers).length → s'.expected env j = s.expected env j) ∧
    ((s.adapter.Completes r ∧ (s.results r.numOutputBuffers).length = s.completed ∧
        s'.completed = s.completed + 1 ∧ s'.expected env s.completed = none ∧
        (Adapter.nextResult env ((s.adapter.mResults r.frameNumber).getD {}) r stale).timestamp =
          s'.timestampOf env s.completed) ∨
      (¬ s.adapter.Completes r ∧ s'.completed = s.completed ∧
        s'.expected env (s.results r.numOutputBuffers).length =
          some (Adapter.nextResult env ((s.adapter.mResults r.frameNumber).getD {}) r stale))) := by
  have hold := h.entries _ sub hidx
  have hr0 := results_snoc s r 0 hd
  have hr1 := results_snoc s r 1 hd
  rw [← hf] at hold
  unfold expected at hold ⊢
  unfold Adapter.Completes completed
  rcases hk with ⟨h0, hv⟩ | h1
  · -- metadata: the buffer is there already, or not
    obtain ⟨v, hv⟩ := Option.isSome_iff_exists.mp hv
    have hnew := timestampOf_next hd h0 hv
    have hlen0 : (s'.results 0).length = (s.results 0).length + 1 := by simp [hr0, h0]
    have hlen1 : (s'.results 1).length = (s.results 1).length := by simp [hr1, h0]
    rw [h0, expectedResult_at_metadata] at hold
    rw [h0, hlen0, hlen1, hold]
    refine ⟨fun j hj => expectedResult_metadata hj fun i hi => timestampOf_snoc hd hi, ?_⟩
    unfold Adapter.nextResult
    rw [shutterTimestamp_eq hv stale]
    by_cases hlt : (s.results 0).length < (s.results 1).length
    · have hmin : min (s.results 0).length (s.results 1).length = (s.results 0).length := by omega
      left
      rw [hmin, expectedResult_after_metadata, if_pos hlt, hnew]
      exact ⟨by simp, rfl, by omega, if_pos hlt, by simp [h0]⟩
    · right
      rw [expectedResult_after_metadata, if_neg hlt, hnew]
      exact ⟨by simp, by omega, by simp [h0, hlt]⟩
  · -- the buffer: the metadata is there already, or not
    have hlen0 : (s'.results 0).length = (s.results 0).length := by simp [hr0, h1]
    have hlen1 : (s'.results 1).length = (s.results 1).length + 1 := by simp [hr1, h1]
    have hts : ∀ j, s'.timestampOf env j = s.timestampOf env j := by
      intro j
      simp only [timestampOf, hr0, h1, one_ne_zero, if_false, List.append_nil]
    rw [h1, expectedResult_at_buffer] at hold
    rw [h1, hlen0, hlen1, hold, show s'.timestampOf env = s.timestampOf env from funext hts]
    refine ⟨fun j hj => expectedResult_buffer hj, ?_⟩
    unfold Adapter.nextResult
    by_cases hlt : (s.results 1).length < (s.results 0).length
    · have hmin : min (s.results 0).length (s.results 1).length = (s.results 1).length := by omega
      left
      rw [hmin, expectedResult_after_buffer, if_pos hlt]
      exact ⟨by simp, rfl, by omega, if_pos hlt, by simp [h1]⟩
    · right
      rw [expectedResult_after_buffer, if_neg hlt]
      exact ⟨by simp, by omega, by simp [h1, hlt]⟩

section Deliver

variable {s s' : System T} {r : CaptureResult} {sub : Submission}

theorem numbered_snoc (h : Flow env s) (hd : s'.hist.delivered = s.hist.delivered ++ [r])
    (hidx : s.hist.submitted[(s.results r.numOutputBuffers).length]? = some sub)
    (hf : r.frameNumber = sub.frame) (num k : ℕ) (r' : CaptureResult) (sub' : Submission)
    (hk : (s'.results num)[k]? = some r') (hsub : s.hist.submitted[k]? = some sub') :
    r'.frameNumber = sub'.frame := by
  rw [results_snoc s r num hd] at hk
  split_ifs at hk with hrn
  · subst hrn
    rcases getElem?_snoc_cases hk with ⟨-, hk⟩ | ⟨rfl, rfl⟩
    · exact h.numbered _ k r' sub' hk hsub
    · rw [hidx] at hsub
      obtain rfl := Option.some.inj hsub
      exact hf
  · rw [List.append_nil] at hk
    exact h.numbered num k r' sub' hk hsub

theorem stamped_snoc (h : Flow env s) (hd : s'.hist.delivered = s.hist.delivered ++ [r])
    (hk : r.numOutputBuffers = 0 → (sensorTimestampOf env r).isSome) :
    ∀ r' ∈ s'.results 0, (sensorTimestampOf env r').isSome := by
  intro r' hr'
  rw [results_snoc s r 0 hd, List.mem_append] at hr'
  rcases hr' with hr' | hr'
  · exact h.stamped r' hr'
  · split_ifs at hr' with h0
    · obtain rfl := List.mem_singleton.mp hr'
      exact hk h0
    · cases hr'

theorem bounded_snoc (h : Flow env s) (hd : s'.hist.delivered = s.hist.delivered ++ [r])
    (hidx : s.hist.submitted[(s.results r.numOutputBuffers).length]? = some sub) (num : ℕ) :
    (s'.results num).length ≤ s.hist.submitted.length := by
  rw [results_snoc s r num hd, List.length_append]
  have hlt := (List.getElem?_eq_some_iff.mp hidx).1
  split_ifs with hrn
  · rw [← hrn, List.length_singleton]
    exact hlt
  · simpa using h.bounded num

/-- The entries of the other frames are those before. -/
theorem entries_snoc (h : Flow env s) (hn : Numbered s) {results : ℕ → Option Result}
    (hidx : s.hist.submitted[(s.results r.numOutputBuffers).length]? = some sub)
    (hf : r.frameNumber = sub.frame)
    (hother : ∀ j, j ≠ (s.results r.numOutputBuffers).length → s'.expected env j = s.expected env j)
    (hne : ∀ f, f ≠ r.frameNumber → results f = s.adapter.mResults f)
    (heq : results r.frameNumber = s'.expected env (s.results r.numOutputBuffers).length) (k : ℕ)
    (sub' : Submission) (hsub : s.hist.submitted[k]? = some sub') :
    results sub'.frame = s'.expected env k := by
  by_cases hkk : k = (s.results r.numOutputBuffers).length
  · subst hkk
    rw [hidx] at hsub
    obtain rfl := Option.some.inj hsub
    rw [← hf, heq]
  · rw [hne _ fun he => hkk (hn.index_eq hsub hidx (he.trans hf)), hother k hkk]
    exact h.entries k sub' hsub

/-- The timestamps of the complete frames are those before. -/
theorem timestampOf_completed (hd : s'.hist.delivered = s.hist.delivered ++ [r]) {k : ℕ}
    (hk : k < s.completed) : s'.timestampOf env k = s.timestampOf env k :=
  timestampOf_snoc hd (hk.trans_le (Nat.min_le_left _ _))

theorem captured_snoc (h : Flow env s) (hd : s'.hist.delivered = s.hist.delivered ++ [r]) {k : ℕ}
    {w : BufferWrapper} (hw : s.adapter.mCapturedBuffers[k]? = some w) :
    (s.adapter.client w.buffer).timestamp = s'.timestampOf env (s.hist.returned.length + k) := by
  have hlt := (List.getElem?_eq_some_iff.mp hw).1
  have hcount := h.counted
  rw [timestampOf_completed hd (by omega)]
  exact h.captured k w hw

/-- A result in frame order keeps the flow if the adapter moves buffers as it should. -/
theorem deliver (h : Flow env s) (hn : Numbered s) (hs : s'.hist.submitted = s.hist.submitted)
    (hr : s'.hist.returned = s.hist.returned)
    (hd : s'.hist.delivered = s.hist.delivered ++ [r])
    (hidx : s.hist.submitted[(s.results r.numOutputBuffers).length]? = some sub)
    (hf : r.frameNumber = sub.frame)
    (hk : r.numOutputBuffers = 0 → (sensorTimestampOf env r).isSome)
    (hother : ∀ j, j ≠ (s.results r.numOutputBuffers).length → s'.expected env j = s.expected env j)
    (hne : ∀ f, f ≠ r.frameNumber → s'.adapter.mResults f = s.adapter.mResults f)
    (heq : s'.adapter.mResults r.frameNumber =
      s'.expected env (s.results r.numOutputBuffers).length)
    (hinFlight : s'.adapter.mCapturedBuffers ++ s'.adapter.mQueuedBuffers =
      s.adapter.mCapturedBuffers ++ s.adapter.mQueuedBuffers)
    (hcount : s.hist.returned.length + s'.adapter.mCapturedBuffers.length = s'.completed)
    (hcap : ∀ k w, s'.adapter.mCapturedBuffers[k]? = some w → (s'.adapter.client w.buffer).timestamp =
      s'.timestampOf env (s.hist.returned.length + k)) : Flow env s' := by
  refine ⟨?_, by rw [hr]; exact hcount, ?_, ?_, ?_, h.stamped_snoc hd hk, ?_, ?_, ?_⟩
  · rw [hr, hinFlight, hs]
    exact h.order
  · rw [hs]
    exact h.entries_snoc hn hidx hf hother hne heq
  · intro f hf'
    rw [hs] at hf'
    rw [hne f]
    · exact h.unseen f hf'
    · rintro rfl
      refine hf' ?_
      rw [hf]
      exact List.mem_map_of_mem (List.mem_of_getElem? hidx)
  · rw [hs]
    exact h.numbered_snoc hd hidx hf
  · rw [hs]
    exact h.bounded_snoc hd hidx
  · rw [hr]
    exact hcap
  · intro i ret hi
    rw [hr] at hi
    have hlt := (List.getElem?_eq_some_iff.mp hi).1
    have hcount' := h.counted
    rw [hs, timestampOf_completed hd (by omega)]
    exact h.returned i ret hi

/-- **A result in frame order** moves the buffer of its own frame, with its own timestamp, or is
recorded for it. -/
theorem result {exact : Prop} (h : Flow env s) (hn : Numbered s) (hacc : Accounted exact s)
    {stale : Option UInt64}
    (ha : s.adapter.processCaptureResult env r stale = some s'.adapter)
    (hs : s'.hist.submitted = s.hist.submitted) (hr : s'.hist.returned = s.hist.returned)
    (hd : s'.hist.delivered = s.hist.delivered ++ [r])
    (hidx : s.hist.submitted[(s.results r.numOutputBuffers).length]? = some sub)
    (hf : r.frameNumber = sub.frame)
    (hk : r.numOutputBuffers = 0 ∧ (sensorTimestampOf env r).isSome ∨ r.numOutputBuffers = 1) :
    Flow env s' := by
  obtain ⟨hother, hcase⟩ := h.entry_step stale hd hidx hf hk
  have hk' : r.numOutputBuffers = 0 → (sensorTimestampOf env r).isSome := fun h0 =>
    (hk.resolve_right (by omega)).2
  have hcount := h.counted
  rcases Adapter.processCaptureResult_cases ha with ⟨hc, head, rest, hq, ha'⟩ | ⟨hc, client, ha', hcl⟩
  · obtain ⟨-, hkC, hcomp, hexp, hts⟩ := hcase.resolve_right fun hno => hno.1 hc
    have hnd := inFlight_nodup hacc
    rw [hq, List.map_append, List.map_cons] at hnd
    refine h.deliver hn hs hr hd hidx hf hk' hother ?_ ?_ ?_ ?_ ?_
    · intro f hne
      rw [ha']
      exact Function.update_of_ne hne _ _
    · rw [ha', hkC, hexp]
      exact Function.update_self _ _ _
    · rw [ha', hq]
      simp
    · rw [ha', hcomp, ← hcount]
      simp only [List.length_append, List.length_singleton]
      omega
    · intro k w hw
      rw [ha'] at hw ⊢
      dsimp only at hw ⊢
      rcases getElem?_snoc_cases hw with ⟨-, hw⟩ | ⟨rfl, rfl⟩
      · have hne : w.buffer ≠ head.buffer := by
          intro he
          refine (List.nodup_append.mp hnd).2.2 w.buffer ?_ head.buffer (by simp) he
          exact List.mem_map_of_mem (List.mem_of_getElem? hw)
        rw [Function.update_of_ne hne, Adapter.stamped_timestamp]
        exact h.captured_snoc hd hw
      · rw [Function.update_self, hcount]
        exact hts
  · obtain ⟨-, hcomp, hexp⟩ := hcase.resolve_left fun hyes => hc hyes.1
    refine h.deliver hn hs hr hd hidx hf hk' hother ?_ ?_ ?_ ?_ ?_
    · intro f hne
      rw [ha']
      exact Function.update_of_ne hne _ _
    · rw [ha', hexp]
      exact Function.update_self _ _ _
    · rw [ha']
    · rw [ha', hcomp]
      exact hcount
    · intro k w hw
      rw [ha'] at hw ⊢
      dsimp only at hw ⊢
      rw [← h.captured_snoc hd hw]
      rcases hcl with ⟨-, rfl⟩ | ⟨head, rest, -, rfl⟩
      · rfl
      · exact Adapter.stamped_timestamp env s.adapter head r w.buffer

end Deliver

end Flow

/-- The buffers in flight are as in `s`. -/
def Untouched (s : System T) (client : BufId → CameraBuffer) : Prop :=
  ∀ b ∈ (s.adapter.mCapturedBuffers ++ s.adapter.mQueuedBuffers).map (·.buffer),
    client b = s.adapter.client b

/-- A change to a buffer that is not in flight. -/
theorem untouched_of {s : System T} {client : BufId → CameraBuffer} {b : BufId}
    (hb : b ∉ (s.adapter.mCapturedBuffers ++ s.adapter.mQueuedBuffers).map (·.buffer))
    (hc : ∀ b', b' ≠ b → client b' = s.adapter.client b') : Untouched s client := by
  intro b' hb'
  refine hc b' ?_
  rintro rfl
  exact hb hb'

theorem Untouched.captured {s : System T} {client : BufId → CameraBuffer} (h : Untouched s client) :
    ∀ b ∈ s.adapter.mCapturedBuffers.map (·.buffer), client b = s.adapter.client b := by
  intro b hb
  refine h b ?_
  rw [List.map_append]
  exact List.mem_append_left _ hb

/-- The `i`-th buffer returned is the `i`-th that was submitted, with the timestamp of the metadata of
its frame. -/
def DeliveredInOrder (env : Env) (s : System T) : Prop :=
  ∀ (i : ℕ) (ret : Returned), s.hist.returned[i]? = some ret →
    ∃ (sub : Submission) (r : CaptureResult), s.hist.submitted[i]? = some sub ∧
      ret.buffer = sub.buffer ∧ ret.submission = some sub ∧ r ∈ s.hist.delivered ∧
      r.frameNumber = sub.frame ∧ r.numOutputBuffers = 0 ∧
      sensorTimestampOf env r = some ret.contents.timestamp

theorem Flow.deliveredInOrder {s : System T} (h : Flow env s) : DeliveredInOrder env s := by
  intro i ret hi
  obtain ⟨hts, sub, hsub, hlast⟩ := h.returned i ret hi
  have hbuf : (s.hist.submitted.map (·.buffer))[i]? = some ret.buffer := by
    rw [← h.order, List.getElem?_append_left (by simpa using (List.getElem?_eq_some_iff.mp hi).1),
      List.getElem?_map, hi]
    rfl
  rw [List.getElem?_map, hsub] at hbuf
  have hlt : i < (s.results 0).length := by
    have h1 := (List.getElem?_eq_some_iff.mp hi).1
    have h2 := h.counted
    have h3 : s.completed ≤ (s.results 0).length := Nat.min_le_left _ _
    omega
  have hr : (s.results 0)[i]? = some (s.results 0)[i] := List.getElem?_eq_getElem hlt
  have hmem : (s.results 0)[i] ∈ s.results 0 := List.getElem_mem hlt
  obtain ⟨v, hv⟩ := Option.isSome_iff_exists.mp (h.stamped _ hmem)
  refine ⟨sub, (s.results 0)[i], hsub, (Option.some.inj hbuf).symm, hlast,
    List.mem_of_mem_filter hmem, h.numbered 0 i _ sub hr hsub,
    of_decide_eq_true (List.mem_filter.mp hmem).2, ?_⟩
  rw [hv, hts, timestampOf, hr, Option.bind_some, hv]
  rfl

/-! ### Address and frame number -/

/-- The contents of a buffer name the address and the number of the frame `sub`. -/
def Names (env : Env) (contents : CameraBuffer) (sub : Submission) : Prop :=
  contents.addr = env.base sub.handle ∧ contents.sequence = sub.frame

/-- Every buffer returned carries the address of the handle submitted for it and the number of its
frame. -/
def Attributed (env : Env) (s : System T) : Prop :=
  ∀ ret ∈ s.hist.returned, ∃ sub, ret.submission = some sub ∧ Names env ret.contents sub

/-- The buffers of the frames that have arrived carry their own address and frame number. -/
structure Stamped (env : Env) (s : System T) : Prop where
  arrived : ∀ k sub, s.hist.returned.length ≤ k → k < (s.results 1).length →
    s.hist.submitted[k]? = some sub → Names env (s.adapter.client sub.buffer) sub
  returned : Attributed env s

/-- The buffer of a frame is delivered only after the metadata of all earlier frames. -/
def metadataFirst (s : System T) : Act T → Prop
  | .result r _ => r.numOutputBuffers = 1 → (s.results 1).length ≤ (s.results 0).length
  | _ => True

theorem fresh_stamped {s : System T} (h : Fresh s) : Stamped env s := by
  refine ⟨?_, ?_⟩
  · simp [h.hist, results]
  · simp [Attributed, h.hist]

/-- Steps that deliver and return nothing and leave the buffers in flight alone. -/
theorem Stamped.frame {s s' : System T} (h : Stamped env s) (hflow : Flow env s)
    (hs : ∀ k, k < s.hist.submitted.length → s'.hist.submitted[k]? = s.hist.submitted[k]?)
    (hd : s'.hist.delivered = s.hist.delivered) (hr : s'.hist.returned = s.hist.returned)
    (hcl : Untouched s s'.adapter.client) : Stamped env s' := by
  obtain ⟨hres, -⟩ := views_congr env hd
  refine ⟨fun k sub hk hlt hsub => ?_, by rw [Attributed, hr]; exact h.returned⟩
  rw [hr] at hk
  rw [hres] at hlt
  rw [hs k (hlt.trans_le (hflow.bounded 1))] at hsub
  rw [hcl _ (List.mem_of_getElem? (hflow.inFlight_getElem? hk hsub))]
  exact h.arrived k sub hk hlt hsub

theorem Stamped.dequeue {s s' : System T} {exact : Prop} (h : Stamped env s) (hflow : Flow env s)
    (hacc : Accounted exact s) {w : BufferWrapper} {rest : List BufferWrapper}
    (hcap : s.adapter.mCapturedBuffers = w :: rest)
    (ha : s'.adapter = { s.adapter with mCapturedBuffers := rest })
    (hs : s'.hist.submitted = s.hist.submitted) (hd : s'.hist.delivered = s.hist.delivered)
    (hr : s'.hist.returned = s.hist.returned ++
      [⟨w.buffer, s.adapter.client w.buffer, s.lastSubmission w.buffer⟩]) : Stamped env s' := by
  obtain ⟨hres, -⟩ := views_congr env hd
  have hlen : s'.hist.returned.length = s.hist.returned.length + 1 := by simp [hr]
  refine ⟨fun k sub hk hlt hsub => ?_, fun ret hret => ?_⟩
  · rw [ha]
    rw [hlen] at hk
    rw [hres] at hlt
    rw [hs] at hsub
    exact h.arrived k sub (by omega) hlt hsub
  · rw [hr] at hret
    rcases List.mem_append.mp hret with hret | hret
    · exact h.returned ret hret
    · obtain rfl := List.mem_singleton.mp hret
      obtain ⟨sub, hsub, hbuf, hlast⟩ := hflow.next_returned hacc hcap
      have hcount := hflow.counted
      have hle : s.completed ≤ (s.results 1).length := Nat.min_le_right _ _
      rw [hcap, List.length_cons] at hcount
      refine ⟨sub, hlast, ?_⟩
      dsimp only
      rw [← hbuf]
      exact h.arrived _ sub le_rfl (by omega) hsub

/-- **The buffer result writes into the frame's own buffer** when the earlier metadata is there. -/
theorem Stamped.result {s s' : System T} {exact : Prop} (h : Stamped env s) (hflow : Flow env s)
    (hacc : Accounted exact s) {r : CaptureResult} {stale : Option UInt64} {sub : Submission}
    (ha : s.adapter.processCaptureResult env r stale = some s'.adapter)
    (hs : s'.hist.submitted = s.hist.submitted) (hr : s'.hist.returned = s.hist.returned)
    (hd : s'.hist.delivered = s.hist.delivered ++ [r])
    (hidx : s.hist.submitted[(s.results r.numOutputBuffers).length]? = some sub)
    (hf : r.frameNumber = sub.frame)
    (hk : r.numOutputBuffers = 1 → r.outputBuffer = sub.handle)
    (hfirst : r.numOutputBuffers = 1 → (s.results 1).length ≤ (s.results 0).length) :
    Stamped env s' := by
  refine ⟨fun k sub' hk' hlt hsub => ?_, by rw [Attributed, hr]; exact h.returned⟩
  rw [hr] at hk'
  rw [hs] at hsub
  rw [results_snoc s r 1 hd] at hlt
  by_cases h1 : r.numOutputBuffers = 1
  · rw [h1] at hidx
    rw [if_pos h1, List.length_append, List.length_singleton] at hlt
    obtain ⟨head, rest, hq, haddr, hseq, hother⟩ := Adapter.processCaptureResult_buffer ha h1
    have hcomp : s.completed = (s.results 1).length := Nat.min_eq_right (hfirst h1)
    have hcount := hflow.counted
    -- the head of the queue is the buffer of this frame
    obtain ⟨sub'', hsub'', hbuf⟩ := hflow.head hq
    rw [hcomp, hidx] at hsub''
    obtain rfl := Option.some.inj hsub''
    by_cases hkk : k = (s.results 1).length
    · subst hkk
      rw [hidx] at hsub
      obtain rfl := Option.some.inj hsub
      rw [hbuf]
      exact ⟨by rw [haddr, hk h1], by rw [hseq, hf]⟩
    · rw [hother]
      · exact h.arrived k sub' hk' (by omega) hsub
      · intro he
        exact hkk (hflow.index_eq hacc hk' (by omega) hsub hidx (he.trans hbuf.symm))
  · rw [if_neg h1, List.append_nil] at hlt
    obtain ⟨haddr, hseq⟩ := Adapter.processCaptureResult_metadata ha h1 sub'.buffer
    unfold Names
    rw [haddr, hseq]
    exact h.arrived k sub' hk' hlt hsub

/-! ### Steps and runs -/

variable [DecidableEq T]

theorem Flow.resumed {s s' : System T} {t : T} {exact : Prop} (h : Flow env s) (hn : Numbered s)
    (hacc : Accounted exact s) (hr : Resumed s t s') : Flow env s' := by
  cases hr with
  | done _ => exact h.frame rfl rfl rfl rfl rfl rfl fun _ _ => rfl
  | next sk w rest rq a hpend _ _ hs =>
    have hw : w ∈ s.adapter.mPendingBuffers := by simp [hpend]
    exact h.submit (w := w) hn rfl hs.number rfl rfl rfl hs.queued hs.captured hs.results
      (untouched_of (not_inFlight_of_pending hacc hw) hs.client).captured

/-- **The flow of one step**, for results in frame order. -/
theorem flow_step {s s' : System T} {act : Act T} {exact : Prop} (h : Flow env s) (hn : Numbered s)
    (hacc : Accounted exact s) (ha : inOrder env s act) (hst : step env s act = some s') :
    Flow env s' := by
  cases step_cases hst with
  | null | park | refuse | halBegin | halEnd | finish | stop | timeout | close =>
    exact h.frame rfl rfl rfl rfl rfl rfl fun _ _ => rfl
  | queue t sid b o rq a _ _ _ hs =>
    exact h.submit (w := ⟨sid, b⟩) hn rfl hs.number rfl rfl rfl hs.queued hs.captured hs.results
      (untouched_of (not_inFlight_of_free hacc ha) hs.client).captured
  | start t o s'' _ hr =>
    have h' : Flow env { s with adapter := { s.adapter with mStarted := true } } :=
      h.frame rfl rfl rfl rfl rfl rfl fun _ _ => rfl
    have hn' : Numbered { s with adapter := { s.adapter with mStarted := true } } :=
      ⟨hn.increasing, hn.below, hn.calls, hn.begun⟩
    have hacc' : Accounted exact { s with adapter := { s.adapter with mStarted := true } } :=
      hacc.frame (fun _ => rfl) rfl fun _ _ _ hr => Or.inl hr
    exact h'.resumed hn' hacc' hr
  | resume t c st o s'' _ _ hr => exact h.resumed hn hacc hr
  | dequeue t w rest _ hcap => exact h.dequeue hacc hcap rfl rfl rfl rfl
  | result r stale a ha' =>
    obtain ⟨sub, -, hidx, hf, hk⟩ := ha
    exact h.result hn hacc ha' rfl rfl rfl hidx hf (hk.imp_right And.left)
  | setParameters t param st a _ hset =>
    obtain ⟨hp, q, m, rfl⟩ := Adapter.setParameters_frame hset
    refine h.frame rfl rfl rfl ?_ ?_ ?_ ?_ <;> simp
  | write b contents =>
    exact h.frame rfl rfl rfl rfl rfl rfl
      (untouched_of (not_inFlight_of_free hacc ha) fun b' hb' =>
        Function.update_of_ne hb' _ _).captured

theorem reach_flow {s : System T} (h : Reach (step env) (inOrder env) Fresh s) :
    Flow env s ∧ Accounted False s := by
  refine h.invariant (I := fun s => Flow env s ∧ Accounted False s)
    (fun _ hf => ⟨fresh_flow hf, fresh_accounted hf⟩) ?_
  rintro s act s' hr ⟨hflow, hacc⟩ ha hst
  exact ⟨flow_step hflow (reach_numbered hr) hacc ha hst,
    accounted_step hacc (inOrder_tidy s act ha) False.elim hst⟩

/-- **Delivery order and timestamps.**  With results of each kind in frame order, interleaved in any
way, the buffers come back in the order of submission, each with the timestamp of its frame. -/
theorem deliveredInOrder_of_inOrder {s : System T} (h : Reach (step env) (inOrder env) Fresh s) :
    DeliveredInOrder env s := (reach_flow h).1.deliveredInOrder

instance (env : Env) (s : System T) : (act : Act T) → Decidable (inOrder env s act)
  | .qBuf _ _ (some b) _ => inferInstanceAs (Decidable (s.hist.held b = false))
  | .halEnd _ status => inferInstanceAs (Decidable (status = .ok))
  | .write b _ => inferInstanceAs (Decidable (s.hist.held b = false))
  | .result _ _ => inferInstanceAs (Decidable (∃ _ ∈ _, _))
  | .qBuf _ _ none _ | .start .. | .halBegin .. | .relock .. | .stop .. | .dqBuf ..
  | .setParameters .. | .close .. => .isTrue trivial

/-- Two frames in flight; the buffer results come first. -/
def demoOvertaking : List (Act Unit) :=
  demoStart ++ demoQueue 1 ++ demoQueue 2 ++
    [.result ⟨0, 1, none, 1001⟩ none, .result ⟨1, 1, none, 1002⟩ none,
      .result (demoMetadataResult 0 7) none, .result (demoMetadataResult 1 8) none, .dqBuf ()]

theorem deliveredInOrder_of_inOrder_demo : ∃ s : System Unit,
    Reach (step demoEnv) (inOrder demoEnv) Fresh s ∧
    s.hist.returned.map (·.contents.timestamp) = [7] ∧ DeliveredInOrder demoEnv s := by
  obtain ⟨s, h, hv⟩ := demo_reach (inOrder demoEnv) demoOvertaking
    (fun s => s.hist.returned.map (·.contents.timestamp)) [7] (by decide)
  exact ⟨s, h, hv, deliveredInOrder_of_inOrder h⟩

/-- A buffer whose lookup fails is passed to `capture` and never comes back. -/
theorem refused_not_returned : ¬ ∀ (s : System Unit) (i : ℕ) (ret : Returned),
    Reach (step demoEnv) (inOrder demoEnv) Fresh s → s.hist.returned[i]? = some ret →
      s.hist.passed[i]? = some ret.buffer := by
  intro hall
  obtain ⟨s, h, hv⟩ := demo_reach (inOrder demoEnv)
    (demoStart ++ [.qBuf () 0 (some 20) (.failed 0)] ++ demoQueue 1 ++
      [.result (demoMetadataResult 0 7) none, .result ⟨0, 1, none, 1001⟩ none, .dqBuf ()])
    (fun s => (s.hist.returned.map (·.buffer), s.hist.passed)) ([1], [20, 1]) (by decide)
  simp only [Prod.mk.injEq] at hv
  obtain ⟨hret, hpassed⟩ := hv
  obtain ⟨ret, hone, hbuf⟩ := List.map_eq_singleton_iff.mp hret
  have := hall s 0 ret h (by rw [hone]; rfl)
  rw [hpassed, hbuf] at this
  cases this

theorem Stamped.resumed {s s' : System T} {t : T} {exact : Prop} (h : Stamped env s)
    (hflow : Flow env s) (hacc : Accounted exact s) (hr : Resumed s t s') : Stamped env s' := by
  cases hr with
  | done _ => exact h.frame hflow (fun _ _ => rfl) rfl rfl fun _ _ => rfl
  | next sk w rest rq a hpend _ _ hs =>
    have hw : w ∈ s.adapter.mPendingBuffers := by simp [hpend]
    exact h.frame hflow (fun k hk => List.getElem?_append_left hk) rfl rfl
      (untouched_of (not_inFlight_of_pending hacc hw) hs.client)

theorem stamped_step {s s' : System T} {act : Act T} {exact : Prop} (h : Stamped env s)
    (hflow : Flow env s) (hacc : Accounted exact s) (ha : inOrder env s act)
    (hm : metadataFirst s act) (hst : step env s act = some s') : Stamped env s' := by
  cases step_cases hst with
  | null | park | refuse | halBegin | halEnd | finish | stop | timeout | close =>
    exact h.frame hflow (fun _ _ => rfl) rfl rfl fun _ _ => rfl
  | queue t sid b o rq a _ _ _ hs =>
    exact h.frame hflow (fun k hk => List.getElem?_append_left hk) rfl rfl
      (untouched_of (not_inFlight_of_free hacc ha) hs.client)
  | start t o s'' _ hr =>
    have hflow₁ : Flow env { s with adapter := { s.adapter with mStarted := true } } :=
      hflow.frame rfl rfl rfl rfl rfl rfl fun _ _ => rfl
    have h₁ : Stamped env { s with adapter := { s.adapter with mStarted := true } } :=
      h.frame hflow (fun _ _ => rfl) rfl rfl fun _ _ => rfl
    have hacc₁ : Accounted exact { s with adapter := { s.adapter with mStarted := true } } :=
      hacc.frame (fun _ => rfl) rfl fun _ _ _ hr => Or.inl hr
    exact h₁.resumed hflow₁ hacc₁ hr
  | resume t c st o s'' _ _ hr => exact h.resumed hflow hacc hr
  | dequeue t w rest _ hcap => exact h.dequeue hflow hacc hcap rfl rfl rfl rfl
  | result r stale a ha' =>
    obtain ⟨sub, -, hidx, hf, hk⟩ := ha
    refine h.result hflow hacc ha' rfl rfl rfl hidx hf (fun h1 => ?_) hm
    exact (hk.resolve_left fun h0 => by omega).2
  | setParameters t param st a _ hset =>
    obtain ⟨hp, q, m, rfl⟩ := Adapter.setParameters_frame hset
    exact h.frame hflow (fun _ _ => rfl) rfl rfl fun _ _ => rfl
  | write b contents =>
    exact h.frame hflow (fun _ _ => rfl) rfl rfl
      (untouched_of (not_inFlight_of_free hacc ha) fun b' hb' => Function.update_of_ne hb' _ _)

/-- **Result attribution.**  In every run in which no buffer result overtakes the metadata of an earlier
frame, every buffer comes back with the address of the handle submitted for it and the number of its
frame. -/
theorem attributed_of_metadataFirst {s : System T}
    (h : Reach (step env) (fun s act => inOrder env s act ∧ metadataFirst s act) Fresh s) :
    Attributed env s := by
  refine Stamped.returned (h.invariant (I := Stamped env) (fun _ => fresh_stamped) ?_)
  intro s act s' hr hst ha hstep
  obtain ⟨hflow, hacc⟩ := reach_flow (hr.mono fun _ _ hg => hg.1)
  exact stamped_step hst hflow hacc ha.1 ha.2 hstep

instance (s : System T) : (act : Act T) → Decidable (metadataFirst s act)
  | .result _ _ => inferInstanceAs (Decidable (_ → _))
  | .qBuf .. | .start .. | .halBegin .. | .halEnd .. | .relock .. | .stop .. | .dqBuf ..
  | .setParameters .. | .close .. | .write .. => .isTrue trivial

theorem attributed_of_metadataFirst_demo : ∃ s : System Unit,
    Reach (step demoEnv) (fun s act => inOrder demoEnv s act ∧ metadataFirst s act) Fresh s ∧
    s.hist.returned.map (·.buffer) = [1, 2] ∧ Attributed demoEnv s := by
  obtain ⟨s, h, hv⟩ := demo_reach (fun s act => inOrder demoEnv s act ∧ metadataFirst s act)
    (demoStart ++ demoQueue 1 ++ demoQueue 2 ++
      [.result ⟨0, 1, none, 1001⟩ none, .result (demoMetadataResult 0 7) none,
        .result (demoMetadataResult 1 8) none, .result ⟨1, 1, none, 1002⟩ none, .dqBuf (), .dqBuf ()])
    (fun s => s.hist.returned.map (·.buffer)) [1, 2] (by decide)
  exact ⟨s, h, hv, attributed_of_metadataFirst h⟩

/-- The buffer of the second frame comes before the metadata of the first: the first buffer is returned
with the address and the number of the second. -/
theorem overtaking_not_attributed : ¬ ∀ s : System Unit,
    Reach (step demoEnv) (inOrder demoEnv) Fresh s → Attributed demoEnv s := by
  intro hall
  obtain ⟨s, h, hv⟩ := demo_reach (inOrder demoEnv) demoOvertaking (fun s => s.hist.returned)
    [⟨1, ⟨v4l2PixFmtNv12, 640, 480, 1002, 1, 0, 7⟩, some ⟨0, 0, 1, 1001⟩⟩] (by decide)
  have hmem : (⟨1, ⟨v4l2PixFmtNv12, 640, 480, 1002, 1, 0, 7⟩, some ⟨0, 0, 1, 1001⟩⟩ : Returned) ∈
      s.hist.returned := by rw [hv]; exact List.mem_singleton_self _
  obtain ⟨sub, hsub, -, hseq⟩ := hall s h _ hmem
  obtain rfl := Option.some.inj hsub
  cases hseq

end System

end IntelCamera
