import IntelCamera.Adapter.System
import Mathlib.Data.List.Induction

/-!
# Adapter.Results — results and frames

`processCaptureResult` treats every frame number on its own: the entry of `mResults` is the state of
a small automaton (`frameStep`) that reads the number of output buffers of each result of the frame.
`Tracks` says so of a whole run, whatever the order of the results; with the numbering of the
submissions (`Numbered`) it gives the length of `mQueuedBuffers`.  From these two follow the safety of
the accesses `mQueuedBuffers.at(0)` and the exact delivery shapes that complete a frame once.
-/

namespace IntelCamera

open Lib

/-! ### The automaton of a frame -/

/-- The flags `(metadataDone, buffersDone)` of the entry of `mResults`, if there is one, and how many
wrappers were moved. -/
structure FrameState where
  entry : Option (Bool × Bool)
  moved : ℕ
deriving DecidableEq, Repr

/-- One result with `num` output buffers. -/
def frameStep (st : FrameState) (num : ℕ) : FrameState :=
  let flags := st.entry.getD (false, false)
  let metadataDone := flags.1 || num == 0
  let buffersDone := flags.2 || num == 1
  if metadataDone && buffersDone then ⟨none, st.moved + 1⟩
  else ⟨some (metadataDone, buffersDone), st.moved⟩

/-- The results of a frame, in order. -/
def frameRun (word : List ℕ) : FrameState := word.foldl frameStep ⟨none, 0⟩

theorem frameRun_snoc (word : List ℕ) (num : ℕ) :
    frameRun (word ++ [num]) = frameStep (frameRun word) num := by
  simp [frameRun]

/-- A wrapper moves only with a buffer: the moves, and the buffer that still waits for its metadata,
are at most the buffers delivered. -/
theorem frameRun_moved_le (word : List ℕ) :
    (frameRun word).moved + (if ((frameRun word).entry.getD (false, false)).2 then 1 else 0) ≤
      word.count 1 := by
  induction word using List.reverseRecOn with
  | nil => simp [frameRun]
  | append_singleton word num ih =>
    rw [frameRun_snoc, List.count_append]
    set st := frameRun word with hst
    unfold frameStep
    by_cases h1 : num = 1
    · subst h1
      cases hm : (st.entry.getD (false, false)).1 <;> cases hb : (st.entry.getD (false, false)).2 <;>
        simp [hm, hb] at ih ⊢ <;> omega
    · have hc : List.count 1 [num] = 0 := by simp [h1]
      by_cases h0 : num = 0
      · subst h0
        cases hm : (st.entry.getD (false, false)).1 <;>
          cases hb : (st.entry.getD (false, false)).2 <;> simp [hm, hb] at ih ⊢ <;> omega
      · cases hm : (st.entry.getD (false, false)).1 <;>
          cases hb : (st.entry.getD (false, false)).2 <;> simp [hm, hb, h0, h1] at ih ⊢ <;> omega

/-- At most one result of each kind. -/
theorem frameRun_of_nodup {word : List ℕ} (hn : word.Nodup) (hk : ∀ k ∈ word, k = 0 ∨ k = 1) :
    ((frameRun word).entry.isSome ↔ (0 ∈ word ∧ 1 ∉ word ∨ 0 ∉ word ∧ 1 ∈ word)) ∧
      (frameRun word).moved = if 0 ∈ word ∧ 1 ∈ word then 1 else 0 := by
  match word, hn, hk with
  | [], _, _ => simp [frameRun]
  | [a], _, hk =>
    rcases hk a (by simp) with rfl | rfl <;> simp [frameRun, frameStep]
  | [a, b], hn, hk =>
    rcases hk a (by simp) with rfl | rfl <;> rcases hk b (by simp) with rfl | rfl <;>
      simp [frameRun, frameStep] at hn ⊢
  | a :: b :: c :: l, hn, hk =>
    exfalso
    rcases hk a (by simp) with rfl | rfl <;> rcases hk b (by simp) with rfl | rfl <;>
      rcases hk c (by simp) with rfl | rfl <;> simp at hn

/-- The delivery shapes that complete a frame once: all metadata calls before the buffer, or the buffer
and then a single metadata call. -/
def Separate (word : List ℕ) : Prop :=
  (∃ k, word = List.replicate (k + 1) 0 ++ [1]) ∨ word = [1, 0]

theorem frameRun_replicate (k : ℕ) : frameRun (List.replicate (k + 1) 0) = ⟨some (true, false), 0⟩ := by
  induction k with
  | zero => rfl
  | succ k ih =>
    rw [List.replicate_succ', frameRun_snoc, ih]
    rfl

theorem frameRun_separate {word : List ℕ} (h : Separate word) : frameRun word = ⟨none, 1⟩ := by
  rcases h with ⟨k, rfl⟩ | rfl
  · rw [frameRun_snoc, frameRun_replicate]
    rfl
  · rfl

/-- The states of the automaton, with the words that lead to them. -/
theorem frameRun_shapes {word : List ℕ} (hk : ∀ k ∈ word, k = 0 ∨ k = 1) (h1 : word.count 1 ≤ 1) :
    (word = [] ∧ frameRun word = ⟨none, 0⟩) ∨
      (∃ k, word = List.replicate (k + 1) 0 ∧ frameRun word = ⟨some (true, false), 0⟩) ∨
      (word = [1] ∧ frameRun word = ⟨some (false, true), 0⟩) ∨
      (Separate word ∧ frameRun word = ⟨none, 1⟩) ∨
      (1 ∈ word ∧ frameRun word = ⟨some (true, false), 1⟩) := by
  induction word using List.reverseRecOn with
  | nil => exact Or.inl ⟨rfl, rfl⟩
  | append_singleton word num ih =>
    rw [List.count_append] at h1
    rw [frameRun_snoc]
    have hk' : ∀ k ∈ word, k = 0 ∨ k = 1 := fun k hm => hk k (List.mem_append_left _ hm)
    have ih := ih hk' (by omega)
    rcases hk num (by simp) with rfl | rfl
    · -- one more metadata call
      rcases ih with ⟨rfl, h⟩ | ⟨k, rfl, h⟩ | ⟨rfl, h⟩ | ⟨hs, h⟩ | ⟨hm, h⟩
      · exact Or.inr (Or.inl ⟨0, rfl, by rw [h]; rfl⟩)
      · refine Or.inr (Or.inl ⟨k + 1, ?_, by rw [h]; rfl⟩)
        rw [List.replicate_succ' (n := k + 1)]
      · exact Or.inr (Or.inr (Or.inr (Or.inl ⟨Or.inr rfl, by rw [h]; rfl⟩)))
      · refine Or.inr (Or.inr (Or.inr (Or.inr ⟨List.mem_append_left _ ?_, by rw [h]; rfl⟩)))
        rcases hs with ⟨k, rfl⟩ | rfl <;> simp
      · exact Or.inr (Or.inr (Or.inr (Or.inr ⟨List.mem_append_left _ hm, by rw [h]; rfl⟩)))
    · -- the buffer, for the first time
      have hno : 1 ∉ word := by
        intro hm
        have := List.count_pos_iff.mpr hm
        simp only [List.count_singleton_self] at h1
        omega
      rcases ih with ⟨rfl, h⟩ | ⟨k, rfl, h⟩ | ⟨rfl, -⟩ | ⟨hs, -⟩ | ⟨hm, -⟩
      · exact Or.inr (Or.inr (Or.inl ⟨rfl, by rw [h]; rfl⟩))
      · exact Or.inr (Or.inr (Or.inr (Or.inl ⟨Or.inl ⟨k, rfl⟩, by rw [h]; rfl⟩)))
      · exact absurd (by simp) hno
      · refine absurd ?_ hno
        rcases hs with ⟨k, rfl⟩ | rfl <;> simp
      · exact absurd hm hno

/-- **The automaton ends with one move and no entry exactly on these shapes.** -/
theorem frameRun_once_iff {word : List ℕ} (hk : ∀ k ∈ word, k = 0 ∨ k = 1) (h1 : word.count 1 ≤ 1) :
    frameRun word = ⟨none, 1⟩ ↔ Separate word := by
  refine ⟨fun h => ?_, frameRun_separate⟩
  rcases frameRun_shapes hk h1 with ⟨-, h'⟩ | ⟨k, -, h'⟩ | ⟨-, h'⟩ | ⟨hs, -⟩ | ⟨-, h'⟩
  · simp [h] at h'
  · simp [h] at h'
  · simp [h] at h'
  · exact hs
  · simp [h] at h'

/-! ### The run follows the automata -/

/-- The results of the frame `f`, each by its number of output buffers. -/
def frameWord (delivered : List CaptureResult) (f : ℕ) : List ℕ :=
  (delivered.filter fun r => r.frameNumber = f).map (·.numOutputBuffers)

theorem frameWord_snoc (delivered : List CaptureResult) (r : CaptureResult) (f : ℕ) :
    frameWord (delivered ++ [r]) f =
      frameWord delivered f ++ if r.frameNumber = f then [r.numOutputBuffers] else [] := by
  unfold frameWord
  split_ifs with h <;> simp [h]

namespace System

variable {T : Type} {env : Env}

/-- `mResults` and the moves are those of the automata, and the queue holds the rest. -/
structure Tracks (s : System T) : Prop where
  entry : ∀ f, (s.adapter.mResults f).map (fun res => (res.metadataDone, res.buffersDone)) =
    (frameRun (frameWord s.hist.delivered f)).entry
  moved : ∀ f, s.hist.moved.count f = (frameRun (frameWord s.hist.delivered f)).moved
  queued : s.adapter.mQueuedBuffers.length + s.hist.moved.length = s.hist.submitted.length

/-- Steps that deliver nothing: the queue grows with the submissions. -/
theorem Tracks.frame {s s' : System T} (h : Tracks s) (hr : s'.adapter.mResults = s.adapter.mResults)
    (hd : s'.hist.delivered = s.hist.delivered) (hm : s'.hist.moved = s.hist.moved)
    (hq : s'.adapter.mQueuedBuffers.length + s.hist.submitted.length =
      s.adapter.mQueuedBuffers.length + s'.hist.submitted.length) : Tracks s' := by
  have := h.queued
  refine ⟨?_, ?_, ?_⟩
  · rw [hr, hd]
    exact h.entry
  · rw [hm, hd]
    exact h.moved
  · rw [hm]
    omega

/-- The flags of a frame, read from `mResults` or from the automaton. -/
theorem Tracks.flags {s : System T} (h : Tracks s) (f : ℕ) :
    (((s.adapter.mResults f).getD {}).metadataDone, ((s.adapter.mResults f).getD {}).buffersDone) =
      (frameRun (frameWord s.hist.delivered f)).entry.getD (false, false) := by
  rw [← h.entry]
  cases s.adapter.mResults f <;> rfl

/-- The result completes its frame when the automaton says so. -/
theorem Tracks.completes_iff {s : System T} (h : Tracks s) (r : CaptureResult) :
    s.adapter.Completes r ↔
      frameStep (frameRun (frameWord s.hist.delivered r.frameNumber)) r.numOutputBuffers =
        ⟨none, (frameRun (frameWord s.hist.delivered r.frameNumber)).moved + 1⟩ := by
  have hfl := h.flags r.frameNumber
  have hcomp : s.adapter.Completes r ↔
      (((s.adapter.mResults r.frameNumber).getD {}).metadataDone || r.numOutputBuffers == 0) = true ∧
        (((s.adapter.mResults r.frameNumber).getD {}).buffersDone || r.numOutputBuffers == 1) =
          true := Iff.rfl
  rw [hcomp]
  unfold frameStep
  rw [← hfl, ← Bool.and_eq_true]
  dsimp only
  split_ifs with hc
  · exact iff_of_true hc rfl
  · refine iff_of_false hc ?_
    simp

/-- The flags recorded for the frame are those of the automaton. -/
theorem Tracks.record (env : Env) {s : System T} (h : Tracks s) {r : CaptureResult} (stale : Option UInt64)
    (hc : ¬ s.adapter.Completes r) :
    frameStep (frameRun (frameWord s.hist.delivered r.frameNumber)) r.numOutputBuffers =
      ⟨some ((Adapter.nextResult env ((s.adapter.mResults r.frameNumber).getD {}) r stale).metadataDone,
        (Adapter.nextResult env ((s.adapter.mResults r.frameNumber).getD {}) r stale).buffersDone),
        (frameRun (frameWord s.hist.delivered r.frameNumber)).moved⟩ := by
  have hfl := h.flags r.frameNumber
  rw [h.completes_iff r] at hc
  obtain ⟨h1, h2⟩ := Adapter.nextResult_flags env ((s.adapter.mResults r.frameNumber).getD {}) r stale
  rw [h1, h2]
  unfold frameStep at hc ⊢
  rw [← hfl] at hc ⊢
  dsimp only at hc ⊢
  split_ifs at hc ⊢ with hb
  · exact absurd rfl hc
  · rfl

/-- What one result must do to `mResults` and to the moves. -/
theorem Tracks.snoc {s s' : System T} (h : Tracks s) {r : CaptureResult}
    (hd : s'.hist.delivered = s.hist.delivered ++ [r])
    (hother : ∀ f, f ≠ r.frameNumber → s'.adapter.mResults f = s.adapter.mResults f ∧
      s'.hist.moved.count f = s.hist.moved.count f)
    (hentry : (s'.adapter.mResults r.frameNumber).map
        (fun res => (res.metadataDone, res.buffersDone)) =
      (frameStep (frameRun (frameWord s.hist.delivered r.frameNumber)) r.numOutputBuffers).entry)
    (hmoved : s'.hist.moved.count r.frameNumber =
      (frameStep (frameRun (frameWord s.hist.delivered r.frameNumber)) r.numOutputBuffers).moved)
    (hqueued : s'.adapter.mQueuedBuffers.length + s'.hist.moved.length =
      s'.hist.submitted.length) : Tracks s' := by
  have hword : ∀ f, f ≠ r.frameNumber →
      frameWord s'.hist.delivered f = frameWord s.hist.delivered f := by
    intro f hf
    rw [hd, frameWord_snoc, if_neg (Ne.symm hf), List.append_nil]
  have hself : frameRun (frameWord s'.hist.delivered r.frameNumber) =
      frameStep (frameRun (frameWord s.hist.delivered r.frameNumber)) r.numOutputBuffers := by
    rw [hd, frameWord_snoc, if_pos rfl, frameRun_snoc]
  refine ⟨fun f => ?_, fun f => ?_, hqueued⟩
  · by_cases hf : f = r.frameNumber
    · subst hf
      rw [hself, hentry]
    · rw [hword f hf, (hother f hf).1]
      exact h.entry f
  · by_cases hf : f = r.frameNumber
    · subst hf
      rw [hself, hmoved]
    · rw [hword f hf, (hother f hf).2]
      exact h.moved f

/-- **A result is a step of the automaton of its frame** and leaves the others alone. -/
theorem Tracks.result {s : System T} (h : Tracks s) {r : CaptureResult} {stale : Option UInt64}
    {a : Adapter} (ha : s.adapter.processCaptureResult env r stale = some a) :
    Tracks { s with
      adapter := a
      hist := { s.hist with
        delivered := s.hist.delivered ++ [r]
        moved := s.hist.moved ++ if s.adapter.Completes r then [r.frameNumber] else [] } } := by
  have hqueued := h.queued
  rcases Adapter.processCaptureResult_cases ha with
    ⟨hc, head, rest, hq, rfl⟩ | ⟨hc, client, rfl, -⟩
  · have hstep := (h.completes_iff r).mp hc
    rw [if_pos hc]
    refine h.snoc rfl (fun f hf => ⟨Function.update_of_ne hf _ _, ?_⟩) ?_ ?_ ?_
    · simp [Ne.symm hf]
    · rw [hstep]
      simp
    · rw [hstep]
      simp [h.moved]
    · rw [hq] at hqueued
      simp only [List.length_cons, List.length_append, List.length_nil] at hqueued ⊢
      omega
  · have hstep := h.record env stale hc
    rw [if_neg hc, List.append_nil]
    refine h.snoc rfl (fun f hf => ⟨Function.update_of_ne hf _ _, rfl⟩) ?_ ?_ hqueued
    · rw [hstep]
      simp
    · rw [hstep]
      exact h.moved _

/-! ### Numbering -/

/-- Frames are numbered in the order of submission, and the HAL is only given submitted frames. -/
structure Numbered (s : System T) : Prop where
  increasing : (s.hist.submitted.map (·.frame)).Pairwise (· < ·)
  below : ∀ sub ∈ s.hist.submitted, sub.frame < s.adapter.frameNumber
  calls : ∀ t sub, (s.threads t).submission = some sub → sub ∈ s.hist.submitted
  begun : ∀ sub ∈ s.hist.begun, sub ∈ s.hist.submitted

/-- The calls in progress are among those before, and nothing is numbered. -/
theorem Numbered.frame {s s' : System T} (h : Numbered s)
    (hs : s'.hist.submitted = s.hist.submitted) (hf : s'.adapter.frameNumber = s.adapter.frameNumber)
    (hc : ∀ t sub, (s'.threads t).submission = some sub → ∃ t', (s.threads t').submission = some sub)
    (hb : ∀ sub ∈ s'.hist.begun,
      sub ∈ s.hist.begun ∨ ∃ t, (s.threads t).submission = some sub) : Numbered s' := by
  refine ⟨by rw [hs]; exact h.increasing, by rw [hs, hf]; exact h.below, ?_, ?_⟩
  · intro t sub ht
    obtain ⟨t', ht'⟩ := hc t sub ht
    rw [hs]
    exact h.calls t' sub ht'
  · intro sub hsub
    rw [hs]
    rcases hb sub hsub with hsub | ⟨t, ht⟩
    · exact h.begun sub hsub
    · exact h.calls t sub ht

/-- A new adapter: nothing queued, nothing in progress. -/
structure Fresh (s : System T) : Prop where
  started : s.adapter.mStarted = false
  pending : s.adapter.mPendingBuffers = []
  queued : s.adapter.mQueuedBuffers = []
  captured : s.adapter.mCapturedBuffers = []
  results : ∀ f, s.adapter.mResults f = none
  idle : ∀ t, s.threads t = .idle
  hist : s.hist = {}

theorem fresh_tracks {s : System T} (h : Fresh s) : Tracks s := by
  refine ⟨fun f => ?_, fun f => ?_, ?_⟩
  · simp [h.results, h.hist, frameWord, frameRun]
  · simp [h.hist, frameWord, frameRun]
  · simp [h.hist, h.queued]

theorem fresh_numbered {s : System T} (h : Fresh s) : Numbered s := by
  refine ⟨?_, ?_, ?_, ?_⟩
  · simp [h.hist]
  · simp [h.hist]
  · intro t sub ht
    rw [h.idle t] at ht
    cases ht
  · simp [h.hist]

/-! ### The HAL's side -/

/-- What the HAL may deliver: results of frames it was given, with at most one output buffer, and the
buffer of a frame once. -/
def contract (s : System T) : Act T → Prop
  | .result r _ => (∃ sub ∈ s.hist.begun, sub.frame = r.frameNumber) ∧ r.numOutputBuffers ≤ 1 ∧
      (r.numOutputBuffers = 1 → 1 ∉ frameWord s.hist.delivered r.frameNumber)
  | _ => True

/-- The results delivered under the contract. -/
structure Contracted (s : System T) : Prop where
  begun : ∀ r ∈ s.hist.delivered, ∃ sub ∈ s.hist.begun, sub.frame = r.frameNumber
  single : ∀ r ∈ s.hist.delivered, r.numOutputBuffers ≤ 1
  once : ∀ f, (frameWord s.hist.delivered f).count 1 ≤ 1

/-- Steps that deliver nothing. -/
theorem Contracted.frame {s s' : System T} (h : Contracted s)
    (hd : s'.hist.delivered = s.hist.delivered) (hb : ∀ sub ∈ s.hist.begun, sub ∈ s'.hist.begun) :
    Contracted s' := by
  refine ⟨?_, by rw [hd]; exact h.single, by rw [hd]; exact h.once⟩
  intro r hr
  rw [hd] at hr
  obtain ⟨sub, hsub, hf⟩ := h.begun r hr
  exact ⟨sub, hb sub hsub, hf⟩

theorem Contracted.result {s : System T} (h : Contracted s) {r : CaptureResult}
    {stale : Option UInt64} (hc : contract s (.result r stale)) (a : Adapter) (moved : List ℕ) :
    Contracted { s with
      adapter := a
      hist := { s.hist with delivered := s.hist.delivered ++ [r], moved := moved } } := by
  obtain ⟨h1, h2, h3⟩ := hc
  refine ⟨?_, ?_, ?_⟩
  · intro r' hr'
    rcases List.mem_append.mp hr' with hr' | hr'
    · exact h.begun r' hr'
    · obtain rfl := List.mem_singleton.mp hr'
      exact h1
  · intro r' hr'
    rcases List.mem_append.mp hr' with hr' | hr'
    · exact h.single r' hr'
    · obtain rfl := List.mem_singleton.mp hr'
      exact h2
  · intro f
    dsimp only
    rw [frameWord_snoc, List.count_append]
    have hf := h.once f
    split_ifs with hrf
    · subst hrf
      by_cases hr1 : r.numOutputBuffers = 1
      · rw [List.count_eq_zero_of_not_mem (h3 hr1), hr1]
        simp
      · have : List.count 1 [r.numOutputBuffers] = 0 := by simp [hr1]
        omega
    · simpa using hf

theorem fresh_contracted {s : System T} (h : Fresh s) : Contracted s := by
  refine ⟨?_, ?_, ?_⟩ <;> simp [h.hist, frameWord]

/-- A metadata result (no output buffer) of the frame `f` was delivered. -/
def MetadataDelivered (s : System T) (f : ℕ) : Prop := 0 ∈ frameWord s.hist.delivered f

/-- The buffer of the frame `f` was delivered. -/
def BufferDelivered (s : System T) (f : ℕ) : Prop := 1 ∈ frameWord s.hist.delivered f

instance (s : System T) (f : ℕ) : Decidable (MetadataDelivered s f) :=
  inferInstanceAs (Decidable (_ ∈ _))

instance (s : System T) (f : ℕ) : Decidable (BufferDelivered s f) :=
  inferInstanceAs (Decidable (_ ∈ _))

/-- The HAL delivers at most one metadata-only and one buffer-only result for a frame, and none before
the call of `process_capture_request` begins. -/
def onceEach (s : System T) : Act T → Prop
  | .result r _ => (∃ sub ∈ s.hist.begun, sub.frame = r.frameNumber) ∧ r.numOutputBuffers ≤ 1 ∧
      r.numOutputBuffers ∉ frameWord s.hist.delivered r.frameNumber
  | _ => True

instance (s : System T) : (act : Act T) → Decidable (onceEach s act)
  | .result _ _ => inferInstanceAs (Decidable (_ ∧ _ ∧ _))
  | .qBuf .. | .start .. | .halBegin .. | .halEnd .. | .relock .. | .stop .. | .dqBuf ..
  | .setParameters .. | .close .. | .write .. => .isTrue trivial

theorem onceEach_contract (s : System T) (act : Act T) (h : onceEach s act) : contract s act := by
  cases act with
  | result r stale =>
    obtain ⟨h1, h2, h3⟩ := h
    exact ⟨h1, h2, fun hr => hr ▸ h3⟩
  | _ => trivial

/-! ### Steps and runs -/

variable [DecidableEq T]

theorem Numbered.submit {s : System T} (h : Numbered s) {t : T} {a : Adapter} {w : BufferWrapper}
    {request : Request} (hf : a.frameNumber = s.adapter.frameNumber + 1)
    (hn : request.frameNumber = s.adapter.frameNumber) (caller : Caller) (ticket : ℕ) :
    Numbered (submit s t a w request caller ticket) := by
  refine ⟨?_, ?_, ?_, ?_⟩
  · simp only [System.submit, List.map_append, List.map_singleton]
    refine List.pairwise_append.mpr ⟨h.increasing, List.pairwise_singleton _ _, ?_⟩
    intro f hf' g hg
    obtain ⟨sub, hsub, rfl⟩ := List.mem_map.mp hf'
    obtain rfl := List.mem_singleton.mp hg
    rw [hn]
    exact h.below sub hsub
  · intro sub hsub
    simp only [System.submit] at hsub ⊢
    rcases List.mem_append.mp hsub with hsub | hsub
    · have := h.below sub hsub
      omega
    · obtain rfl := List.mem_singleton.mp hsub
      simp only
      omega
  · intro u sub hu
    simp only [System.submit] at hu ⊢
    by_cases htu : u = t
    · subst htu
      rw [Function.update_self] at hu
      simp only [Pc.submission, Option.some.injEq] at hu
      simp [hu]
    · rw [Function.update_of_ne htu] at hu
      exact List.mem_append_left _ (h.calls u sub hu)
  · intro sub hsub
    exact List.mem_append_left _ (h.begun sub hsub)

theorem Numbered.resumed {s s' : System T} {t : T} (h : Numbered s) (hr : Resumed s t s') :
    Numbered s' := by
  cases hr with
  | done _ =>
    exact h.frame rfl rfl (fun u sub hu => ⟨u, update_pc_none rfl hu⟩) (fun sub hs => Or.inl hs)
  | next sk w rest rq a _ _ _ hs =>
    have h' : Numbered { s with hist := { s.hist with
        passed := s.hist.passed ++ (sk ++ [w]).map (·.buffer)
        pendingTickets := s.hist.pendingTickets.drop (sk.length + 1) } } :=
      h.frame rfl rfl (fun u sub hu => ⟨u, hu⟩) (fun sub hs => Or.inl hs)
    exact h'.submit hs.frameNumber hs.number _ _

theorem Tracks.resumed {s s' : System T} {t : T} (h : Tracks s) (hr : Resumed s t s') :
    Tracks s' := by
  cases hr with
  | done _ => exact h.frame rfl rfl rfl rfl
  | next sk w rest rq a _ _ _ hs =>
    refine h.frame hs.results rfl rfl ?_
    simp only [System.submit, hs.queued, List.length_append, List.length_singleton]
    omega

/-- **Every run follows the automata**, whatever the HAL delivers. -/
theorem tracks_step {s s' : System T} {act : Act T} (h : Tracks s)
    (hst : step env s act = some s') : Tracks s' := by
  cases step_cases hst with
  | null | park | refuse | halBegin | halEnd | finish | stop | timeout | dequeue | close | write =>
    exact h.frame rfl rfl rfl rfl
  | queue t sid b o rq a _ _ _ hs =>
    refine h.frame hs.results rfl rfl ?_
    simp only [System.submit, hs.queued, List.length_append, List.length_singleton]
    omega
  | start t o s'' _ hr =>
    have h' : Tracks { s with adapter := { s.adapter with mStarted := true } } :=
      h.frame rfl rfl rfl rfl
    exact h'.resumed hr
  | resume t c st o s'' _ _ hr => exact h.resumed hr
  | result r stale a ha => exact h.result ha
  | setParameters t param st a _ hset =>
    obtain ⟨hp, q, m, rfl⟩ := Adapter.setParameters_frame hset
    refine h.frame ?_ rfl rfl ?_ <;> simp

theorem numbered_step {s s' : System T} {act : Act T} (h : Numbered s)
    (hst : step env s act = some s') : Numbered s' := by
  cases step_cases hst with
  | null | park | refuse | stop | timeout | dequeue | close | write =>
    exact h.frame rfl rfl (fun u sub hu => ⟨u, hu⟩) (fun sub hs => Or.inl hs)
  | queue t sid b o rq a _ _ _ hs =>
    have h' : Numbered { s with hist := { s.hist with
        tickets := s.hist.tickets + 1
        passed := s.hist.passed ++ [b] } } :=
      h.frame rfl rfl (fun u sub hu => ⟨u, hu⟩) (fun sub hs => Or.inl hs)
    exact h'.submit hs.frameNumber hs.number _ _
  | start t o s'' _ hr =>
    have h' : Numbered { s with adapter := { s.adapter with mStarted := true } } :=
      h.frame rfl rfl (fun u sub hu => ⟨u, hu⟩) (fun sub hs => Or.inl hs)
    exact h'.resumed hr
  | resume t c st o s'' _ _ hr => exact h.resumed hr
  | finish t c st o _ _ =>
    exact h.frame rfl rfl (fun u sub hu => ⟨u, update_pc_none rfl hu⟩) (fun sub hs => Or.inl hs)
  | halBegin t c hc =>
    refine h.frame rfl rfl (fun u sub hu => ⟨u, ?_⟩) (fun sub hs => ?_)
    · rwa [← update_pc_same Pc.submission (.inHal c) (by rw [hc]; rfl)]
    · rcases List.mem_append.mp hs with hs | hs
      · exact Or.inl hs
      · obtain rfl := List.mem_singleton.mp hs
        exact Or.inr ⟨t, by rw [hc]; rfl⟩
  | halEnd t c st hc =>
    refine h.frame rfl rfl (fun u sub hu => ⟨u, ?_⟩) (fun sub hs => Or.inl hs)
    rwa [← update_pc_same Pc.submission (.returned c st) (by rw [hc]; rfl)]
  | result r stale a ha =>
    refine h.frame rfl ?_ (fun u sub hu => ⟨u, hu⟩) (fun sub hs => Or.inl hs)
    rcases Adapter.processCaptureResult_cases ha with ⟨-, hd, rs, -, rfl⟩ | ⟨-, cl, rfl, -⟩ <;> rfl
  | setParameters t param st a _ hset =>
    obtain ⟨hp, q, m, rfl⟩ := Adapter.setParameters_frame hset
    exact h.frame rfl rfl (fun u sub hu => ⟨u, hu⟩) (fun sub hs => Or.inl hs)

section Reached

variable {allowed : System T → Act T → Prop} {s : System T}

theorem reach_tracks (h : Reach (step env) allowed Fresh s) : Tracks s :=
  h.invariant (fun _ => fresh_tracks) fun _ _ _ _ ht _ hst => tracks_step ht hst

theorem reach_numbered (h : Reach (step env) allowed Fresh s) : Numbered s :=
  h.invariant (fun _ => fresh_numbered) fun _ _ _ _ hn _ hst => numbered_step hn hst

end Reached

/-- The requests passed to the HAL stay on record. -/
theorem Resumed.record {s s' : System T} {t : T} (h : Resumed s t s') :
    s'.hist.delivered = s.hist.delivered ∧ s'.hist.begun = s.hist.begun := by
  cases h <;> exact ⟨rfl, rfl⟩

theorem contracted_step {s s' : System T} {act : Act T} (h : Contracted s) (ha : contract s act)
    (hst : step env s act = some s') : Contracted s' := by
  cases step_cases hst with
  | null | park | refuse | queue | halEnd | finish | stop | timeout | dequeue | setParameters |
    close | write => exact h.frame rfl (fun sub hs => hs)
  | halBegin => exact h.frame rfl (fun sub hs => List.mem_append_left _ hs)
  | start t o s'' _ hr => exact h.frame hr.record.1 (fun sub hs => by rw [hr.record.2]; exact hs)
  | resume t c st o s'' _ _ hr =>
    exact h.frame hr.record.1 (fun sub hs => by rw [hr.record.2]; exact hs)
  | result r stale a _ => exact h.result ha a _

section Contract

variable {s : System T}

theorem reach_contracted (h : Reach (step env) contract Fresh s) : Contracted s :=
  h.invariant (fun _ => fresh_contracted) fun _ _ _ _ hc ha hst => contracted_step hc ha hst

theorem frameWord_kinds (h : Reach (step env) contract Fresh s) (f : ℕ) :
    ∀ k ∈ frameWord s.hist.delivered f, k = 0 ∨ k = 1 := by
  intro k hk
  obtain ⟨r, hr, rfl⟩ := List.mem_map.mp hk
  have := (reach_contracted h).single r (List.mem_of_mem_filter hr)
  omega

/-- Results are delivered for submitted frames. -/
theorem delivered_submitted (h : Reach (step env) contract Fresh s) {f k : ℕ}
    (hk : k ∈ frameWord s.hist.delivered f) : f ∈ s.hist.submitted.map (·.frame) := by
  obtain ⟨r, hr, -⟩ := List.mem_map.mp hk
  obtain ⟨hr, hrf⟩ := List.mem_filter.mp hr
  obtain ⟨sub, hsub, hsf⟩ := (reach_contracted h).begun r hr
  refine List.mem_map.mpr ⟨sub, (reach_numbered h).begun sub hsub, ?_⟩
  rw [hsf]
  simpa using hrf

/-- Each frame moves at most one wrapper, and only a submitted frame does. -/
theorem moved_spec (h : Reach (step env) contract Fresh s) :
    s.hist.moved.Nodup ∧ ∀ f ∈ s.hist.moved, f ∈ s.hist.submitted.map (·.frame) := by
  have ht := reach_tracks h
  have hc := reach_contracted h
  have hle : ∀ f, s.hist.moved.count f ≤ (frameWord s.hist.delivered f).count 1 := by
    intro f
    have := frameRun_moved_le (frameWord s.hist.delivered f)
    rw [ht.moved]
    omega
  refine ⟨List.nodup_iff_count_le_one.mpr fun f => (hle f).trans (hc.once f), fun f hf => ?_⟩
  have hpos := List.count_pos_iff.mpr hf
  have hmem : 1 ∈ frameWord s.hist.delivered f := by
    rw [← List.count_pos_iff]
    exact lt_of_lt_of_le hpos (hle f)
  exact delivered_submitted h hmem

/-- A submitted frame that is not complete keeps the queue from being empty. -/
theorem queue_ne_nil (h : Reach (step env) contract Fresh s) {f : ℕ}
    (hf : f ∈ s.hist.submitted.map (·.frame)) (hm : s.hist.moved.count f = 0) :
    s.adapter.mQueuedBuffers ≠ [] := by
  obtain ⟨hnd, hsub⟩ := moved_spec h
  have hq := (reach_tracks h).queued
  have hnot : f ∉ s.hist.moved := List.count_eq_zero.mp hm
  have hsp : (f :: s.hist.moved).length ≤ (s.hist.submitted.map (·.frame)).length := by
    refine List.Subperm.length_le (List.subperm_of_subset (List.nodup_cons.mpr ⟨hnot, hnd⟩) ?_)
    intro g hg
    rcases List.mem_cons.mp hg with rfl | hg
    · exact hf
    · exact hsub g hg
  simp only [List.length_cons, List.length_map] at hsp
  intro hnil
  rw [hnil] at hq
  simp only [List.length_nil] at hq
  omega

/-- **`mQueuedBuffers.at(0)` is in range** for every result that the contract allows. -/
theorem processCaptureResult_in_range (h : Reach (step env) contract Fresh s) {r : CaptureResult}
    {stale : Option UInt64} (hr : contract s (.result r stale)) :
    (s.adapter.processCaptureResult env r stale).isSome := by
  obtain ⟨⟨sub, hsub, hsf⟩, -, h1⟩ := hr
  have ht := reach_tracks h
  have hc := reach_contracted h
  have hf : r.frameNumber ∈ s.hist.submitted.map (·.frame) :=
    List.mem_map.mpr ⟨sub, (reach_numbered h).begun sub hsub, hsf⟩
  have hle := frameRun_moved_le (frameWord s.hist.delivered r.frameNumber)
  rw [← ht.moved] at hle
  refine Adapter.processCaptureResult_isSome (fun hacc => queue_ne_nil h hf ?_) stale
  by_cases hr1 : r.numOutputBuffers = 1
  · have := List.count_eq_zero_of_not_mem (h1 hr1)
    omega
  · have hcomp := hacc.resolve_left hr1
    have hb : ((frameRun (frameWord s.hist.delivered r.frameNumber)).entry.getD (false, false)).2 =
        true := by
      rw [← ht.flags]
      simpa [hr1] using hcomp.2
    rw [if_pos hb] at hle
    have := hc.once r.frameNumber
    omega

end Contract

/-! ### One result of each kind -/

/-- Only a result adds to what was delivered. -/
theorem step_delivered {s s' : System T} {act : Act T} (hst : step env s act = some s') :
    s'.hist.delivered = s.hist.delivered ∨
      ∃ r stale, act = .result r stale ∧ s'.hist.delivered = s.hist.delivered ++ [r] := by
  cases step_cases hst with
  | start t o s'' _ hr => exact Or.inl hr.record.1
  | resume t c st o s'' _ _ hr => exact Or.inl hr.record.1
  | result r stale a _ => exact Or.inr ⟨r, stale, rfl, rfl⟩
  | _ => exact Or.inl rfl

/-- An environment without vendor tags, in which a handle is the address it is mapped at. -/
def demoEnv : Env := ⟨referenceLibc, none, none, id⟩

/-- A new adapter with ten allocated buffers; the client's buffer `b` is the one at `1000 + b`. -/
def demoSystem (T : Type) : System T where
  adapter :=
    { client := fun b => ⟨v4l2PixFmtNv12, 640, 480, 1000 + b, 0, 0, 0⟩
      mBufferMapping := fun key => if 1000 ≤ key ∧ key < 1010 then some key else none }

omit [DecidableEq T] in
theorem demoSystem_fresh (T : Type) : Fresh (demoSystem T) :=
  ⟨rfl, rfl, rfl, rfl, fun _ => rfl, fun _ => rfl, rfl⟩

/-- The metadata of a frame: its timestamp. -/
def demoMetadata (timestamp : Int64) : Metadata :=
  ((allocateCameraMetadata referenceLibc 1 8).map fun m =>
    (addCameraMetadataEntry none m sensorTimestamp (some (i64Bytes [timestamp])) 1).2).getD
      ⟨0, 0, 0, 0, 0, 0, 0, 0, [], []⟩

/-- The metadata result of a frame. -/
def demoMetadataResult (frame : ℕ) (timestamp : Int64) : CaptureResult :=
  ⟨frame, 0, some (demoMetadata timestamp), 0⟩

/-- The thread `t` calls `process_capture_request`, which answers `status`, and goes on. -/
def demoRequest (t : T) (status : Status) : List (Act T) :=
  [.halBegin t, .halEnd t status, .relock t (.failed 0)]

/-- `start` with nothing pending. -/
def demoStart : List (Act Unit) := [.start () (.failed 0)]

/-- A whole `qBuf` of the buffer `b`, with a request that is accepted. -/
def demoQueue (b : BufId) : List (Act Unit) :=
  .qBuf () 0 (some b) (.failed 0) :: demoRequest () .ok

/-- A run of the adapter above, observed at its end. -/
theorem demo_reach {β : Type} (allowed : System T → Act T → Prop)
    [∀ s act, Decidable (allowed s act)] (as : List (Act T)) (f : System T → β) (v : β)
    (he : (exec (step demoEnv) allowed (demoSystem T) as).map f = some v) :
    ∃ s, Reach (step demoEnv) allowed Fresh s ∧ f s = v :=
  Reach.of_exec (demoSystem_fresh T) he

section OnceEach

variable {s : System T}

theorem frameWord_nodup (h : Reach (step env) onceEach Fresh s) (f : ℕ) :
    (frameWord s.hist.delivered f).Nodup := by
  revert f
  refine h.invariant (I := fun s => ∀ f, (frameWord s.hist.delivered f).Nodup) ?_ ?_
  · intro s hs f
    simp [hs.hist, frameWord]
  · intro s act s' _ ih ha hst f
    rcases step_delivered hst with hd | ⟨r, stale, rfl, hd⟩
    · rw [hd]
      exact ih f
    · rw [hd, frameWord_snoc]
      split_ifs with hf
      · subst hf
        exact (ih r.frameNumber).append (List.nodup_singleton _) (by simpa using ha.2.2)
      · simpa using ih f

/-- The frames that moved a wrapper are those with both results. -/
theorem moved_perm (h : Reach (step env) onceEach Fresh s) :
    s.hist.moved.Perm ((s.hist.submitted.filter fun sub =>
      MetadataDelivered s sub.frame ∧ BufferDelivered s sub.frame).map (·.frame)) := by
  have hc := h.mono onceEach_contract
  have hnum := (reach_numbered h).increasing
  have hsub : ((s.hist.submitted.filter fun sub =>
      MetadataDelivered s sub.frame ∧ BufferDelivered s sub.frame).map (·.frame)).Nodup :=
    (hnum.imp ne_of_lt).sublist (List.filter_sublist.map _)
  refine (List.perm_ext_iff_of_nodup (moved_spec hc).1 hsub).mpr fun f => ?_
  have hcount := (reach_tracks h).moved f
  rw [(frameRun_of_nodup (frameWord_nodup h f) (frameWord_kinds hc f)).2] at hcount
  rw [← List.count_pos_iff, hcount]
  simp only [List.mem_map, List.mem_filter, decide_eq_true_eq]
  constructor
  · intro hpos
    have hboth : 0 ∈ frameWord s.hist.delivered f ∧ 1 ∈ frameWord s.hist.delivered f := by
      by_contra hno
      rw [if_neg hno] at hpos
      exact absurd hpos (lt_irrefl 0)
    obtain ⟨sub, hs, rfl⟩ := List.mem_map.mp (delivered_submitted hc hboth.1)
    exact ⟨sub, ⟨hs, hboth⟩, rfl⟩
  · rintro ⟨sub, ⟨-, hboth⟩, rfl⟩
    have hboth : 0 ∈ frameWord s.hist.delivered sub.frame ∧
        1 ∈ frameWord s.hist.delivered sub.frame := hboth
    rw [if_pos hboth]
    exact Nat.one_pos

/-- **Queue safety.**  When the HAL delivers at most one result of each kind for a frame it was given,
in any order, both accesses `mQueuedBuffers.at(0)` are in range, the keys of `mResults` are the
submitted frames with exactly one of the two results, and `mQueuedBuffers` holds as many wrappers as
there are submitted frames without both. -/
theorem queue_safe (h : Reach (step env) onceEach Fresh s) :
    (∀ r stale, onceEach s (.result r stale) →
      (s.adapter.processCaptureResult env r stale).isSome) ∧
    (∀ f, (s.adapter.mResults f).isSome ↔ f ∈ s.hist.submitted.map (·.frame) ∧
      Xor (MetadataDelivered s f) (BufferDelivered s f)) ∧
    s.adapter.mQueuedBuffers.length = s.hist.submitted.length -
      (s.hist.submitted.filter fun sub =>
        MetadataDelivered s sub.frame ∧ BufferDelivered s sub.frame).length := by
  have hc := h.mono onceEach_contract
  refine ⟨fun r stale hr => processCaptureResult_in_range hc (onceEach_contract s _ hr), ?_, ?_⟩
  · intro f
    have hentry := (frameRun_of_nodup (frameWord_nodup h f) (frameWord_kinds hc f)).1
    rw [← (reach_tracks h).entry, Option.isSome_map] at hentry
    rw [hentry]
    constructor
    · rintro (⟨h0, h1⟩ | ⟨h0, h1⟩)
      · exact ⟨delivered_submitted hc h0, Or.inl ⟨h0, h1⟩⟩
      · exact ⟨delivered_submitted hc h1, Or.inr ⟨h1, h0⟩⟩
    · rintro ⟨-, ⟨h0, h1⟩ | ⟨h1, h0⟩⟩
      · exact Or.inl ⟨h0, h1⟩
      · exact Or.inr ⟨h0, h1⟩
  · have hlen := (moved_perm h).length_eq
    have hq := (reach_tracks h).queued
    rw [List.length_map] at hlen
    omega

end OnceEach

theorem queue_safe_demo : ∃ s : System Unit, Reach (step demoEnv) onceEach Fresh s ∧
    s.hist.delivered.length = 3 ∧ s.hist.submitted.length = 2 ∧
    (∀ r stale, onceEach s (.result r stale) →
      (s.adapter.processCaptureResult demoEnv r stale).isSome) ∧
    (∀ f, (s.adapter.mResults f).isSome ↔ f ∈ s.hist.submitted.map (·.frame) ∧
      Xor (MetadataDelivered s f) (BufferDelivered s f)) ∧
    s.adapter.mQueuedBuffers.length = s.hist.submitted.length -
      (s.hist.submitted.filter fun sub =>
        MetadataDelivered s sub.frame ∧ BufferDelivered s sub.frame).length := by
  obtain ⟨s, h, hv⟩ := demo_reach onceEach
    (demoStart ++ demoQueue 1 ++ [.result (demoMetadataResult 0 7) none] ++ demoQueue 2 ++
      [.result ⟨1, 1, none, 1002⟩ none, .result ⟨0, 1, none, 1001⟩ none])
    (fun s => (s.hist.delivered.length, s.hist.submitted.length)) (3, 2) (by decide)
  exact ⟨s, h, congrArg Prod.fst hv, congrArg Prod.snd hv, queue_safe h⟩

/-! ### Delivery shapes -/

/-- The head of `mQueuedBuffers` went to the end of `mCapturedBuffers`, and nothing else moved. -/
def Moves (a a' : Adapter) : Prop :=
  a.mQueuedBuffers = a.mQueuedBuffers.take 1 ++ a'.mQueuedBuffers ∧ a.mQueuedBuffers ≠ [] ∧
    a'.mCapturedBuffers = a.mCapturedBuffers ++ a.mQueuedBuffers.take 1

/-- Neither of the two vectors was touched. -/
def Keeps (a a' : Adapter) : Prop :=
  a'.mQueuedBuffers = a.mQueuedBuffers ∧ a'.mCapturedBuffers = a.mCapturedBuffers

instance (a a' : Adapter) : Decidable (Moves a a') := inferInstanceAs (Decidable (_ ∧ _ ∧ _))

theorem Keeps.not_moves {a a' : Adapter} (h : Keeps a a') : ¬ Moves a a' := by
  rintro ⟨hq, hne, -⟩
  rw [h.1] at hq
  have hlen := congrArg List.length hq
  have hpos := List.length_pos_of_ne_nil hne
  rw [List.length_append, List.length_take] at hlen
  omega

/-- A result moves a wrapper when it completes its frame, and otherwise none. -/
theorem moves_or_keeps {a a' : Adapter} {r : CaptureResult} {stale : Option UInt64}
    (h : a.processCaptureResult env r stale = some a') :
    (a.Completes r ∧ Moves a a') ∨ (¬ a.Completes r ∧ Keeps a a') := by
  rcases Adapter.processCaptureResult_cases h with ⟨hc, head, rest, hq, rfl⟩ | ⟨hc, client, rfl, -⟩
  · refine Or.inl ⟨hc, ?_⟩
    simp [Moves, hq]
  · exact Or.inr ⟨hc, rfl, rfl⟩

/-- The result that a step delivers. -/
def delivery : Act T → Option CaptureResult
  | .result r _ => some r
  | _ => none

/-- The results delivered in a run. -/
def deliveries (as : List (Act T)) : List CaptureResult := as.filterMap delivery

/-- The calls of `processCaptureResult` for the frame `f` in a run: the adapter before and after each. -/
def callsFor (env : Env) (f : ℕ) : System T → List (Act T) → List (Adapter × Adapter)
  | _, [] => []
  | s, act :: as =>
    match step env s act with
    | none => []
    | some s' =>
      if (delivery act).any (fun r => r.frameNumber = f) then
        (s.adapter, s'.adapter) :: callsFor env f s' as
      else callsFor env f s' as

/-- All components of the frame `f` are among the results: its buffer, and metadata in some call. -/
def AllDelivered (delivered : List CaptureResult) (f : ℕ) : Prop :=
  1 ∈ frameWord delivered f ∧ ∃ r ∈ delivered, r.frameNumber = f ∧ r.result.isSome

instance (delivered : List CaptureResult) (f : ℕ) : Decidable (AllDelivered delivered f) :=
  inferInstanceAs (Decidable (_ ∧ _))

/-- In the run from `s₀` to `s`, the calls for the frame `f` moved exactly one wrapper from
`mQueuedBuffers` to `mCapturedBuffers`, and `mResults` has no entry for it. -/
structure CompletedOnce (env : Env) (f : ℕ) (s₀ : System T) (as : List (Act T)) (s : System T) :
    Prop where
  once : (callsFor env f s₀ as).countP (fun p => Moves p.1 p.2) = 1
  others : ∀ p ∈ callsFor env f s₀ as, Moves p.1 p.2 ∨ Keeps p.1 p.2
  entry : s.adapter.mResults f = none

/-- What a step adds to the record of the results and of the moves. -/
theorem step_record {s s' : System T} {act : Act T} (h : step env s act = some s') :
    (delivery act = none ∧ s'.hist.delivered = s.hist.delivered ∧ s'.hist.moved = s.hist.moved) ∨
      ∃ r, delivery act = some r ∧ s'.hist.delivered = s.hist.delivered ++ [r] ∧
        ((Moves s.adapter s'.adapter ∧ s'.hist.moved = s.hist.moved ++ [r.frameNumber]) ∨
          (Keeps s.adapter s'.adapter ∧ s'.hist.moved = s.hist.moved)) := by
  have hresumed : ∀ {u u' : System T} {t : T}, Resumed u t u' →
      u'.hist.delivered = u.hist.delivered ∧ u'.hist.moved = u.hist.moved := by
    intro u u' t hr
    cases hr <;> exact ⟨rfl, rfl⟩
  cases step_cases h with
  | start t o s'' _ hr =>
    have h := hresumed hr
    exact Or.inl ⟨rfl, h⟩
  | resume t c st o s'' _ _ hr => exact Or.inl ⟨rfl, hresumed hr⟩
  | result r stale a ha =>
    refine Or.inr ⟨r, rfl, rfl, ?_⟩
    rcases moves_or_keeps ha with ⟨hc, hm⟩ | ⟨hc, hk⟩
    · exact Or.inl ⟨hm, by dsimp only; rw [if_pos hc]⟩
    · exact Or.inr ⟨hk, by dsimp only; rw [if_neg hc, List.append_nil]⟩
  | _ => exact Or.inl ⟨rfl, rfl, rfl⟩

/-- **The record of a run is right**: it has the results of the run, and a frame once for every wrapper
that the calls for it moved. -/
theorem exec_record [∀ s act, Decidable (allowed s act)] {as : List (Act T)} {s₀ s : System T}
    (h : exec (step env) allowed s₀ as = some s) (f : ℕ) :
    s.hist.delivered = s₀.hist.delivered ++ deliveries as ∧
      s.hist.moved.count f =
        s₀.hist.moved.count f + (callsFor env f s₀ as).countP (fun p => Moves p.1 p.2) ∧
      ∀ p ∈ callsFor env f s₀ as, Moves p.1 p.2 ∨ Keeps p.1 p.2 := by
  induction as generalizing s₀ with
  | nil =>
    obtain rfl := Option.some.inj h
    simp [deliveries, callsFor]
  | cons act as ih =>
    unfold exec at h
    split_ifs at h with ha
    obtain ⟨s₁, h1, h2⟩ := Option.bind_eq_some_iff.mp h
    obtain ⟨hd, hm, hk⟩ := ih h2
    rcases step_record h1 with ⟨hnone, hd₁, hm₁⟩ | ⟨r, hsome, hd₁, hmoved⟩
    · have hcalls : callsFor env f s₀ (act :: as) = callsFor env f s₁ as := by
        simp [callsFor, h1, hnone]
      have hdel : deliveries (act :: as) = deliveries as := List.filterMap_cons_none hnone
      rw [hcalls, hdel, hd, hm, hd₁, hm₁]
      exact ⟨rfl, rfl, hk⟩
    · have hdel : deliveries (act :: as) = r :: deliveries as := List.filterMap_cons_some hsome
      have hcount : s₁.hist.moved.count f = s₀.hist.moved.count f +
          if r.frameNumber = f ∧ Moves s₀.adapter s₁.adapter then 1 else 0 := by
        rcases hmoved with ⟨hmv, hm₁⟩ | ⟨hkp, hm₁⟩
        · rw [hm₁, List.count_append, List.count_singleton]
          simp [hmv]
        · rw [hm₁, if_neg (fun hc => hkp.not_moves hc.2), Nat.add_zero]
      refine ⟨by rw [hd, hd₁, hdel, List.append_assoc]; rfl, ?_, ?_⟩
      · rw [hm, hcount]
        by_cases hf : r.frameNumber = f
        · by_cases hmv : Moves s₀.adapter s₁.adapter
          · simp [callsFor, h1, hsome, hf, hmv]
            omega
          · simp [callsFor, h1, hsome, hf, hmv]
        · simp [callsFor, h1, hsome, hf]
      · intro p hp
        by_cases hf : r.frameNumber = f
        · simp only [callsFor, h1, hsome, Option.any_some, hf, decide_true, if_true] at hp
          rcases List.mem_cons.mp hp with rfl | hp
          · exact hmoved.imp And.left And.left
          · exact hk p hp
        · simp only [callsFor, h1, hsome, Option.any_some, hf, decide_false, Bool.false_eq_true,
            if_false] at hp
          exact hk p hp

instance (s : System T) : (act : Act T) → Decidable (contract s act)
  | .result _ _ => inferInstanceAs (Decidable (_ ∧ _ ∧ (_ → _)))
  | .qBuf .. | .start .. | .halBegin .. | .halEnd .. | .relock .. | .stop .. | .dqBuf ..
  | .setParameters .. | .close .. | .write .. => .isTrue trivial

/-- **Delivery shapes.**  Among the deliveries that the contract allows, a frame is completed once
exactly when, counted by output buffers, its calls are some without a buffer and then the one with it,
or the one with the buffer and then a single one without. -/
theorem completedOnce_iff {as : List (Act T)} {s₀ s : System T} (h0 : Fresh s₀)
    (h : exec (step env) contract s₀ as = some s) (f : ℕ) :
    CompletedOnce env f s₀ as s ↔ Separate (frameWord (deliveries as) f) := by
  have hr : Reach (step env) contract Fresh s := (Reach.init h0).exec h
  have ht := reach_tracks hr
  obtain ⟨hd, hm, hk⟩ := exec_record h f
  rw [h0.hist, List.nil_append] at hd
  rw [h0.hist, List.count_nil, Nat.zero_add] at hm
  have hentry := ht.entry f
  have hmoved := ht.moved f
  rw [hd] at hentry hmoved
  rw [← frameRun_once_iff (hd ▸ frameWord_kinds hr f) (hd ▸ (reach_contracted hr).once f)]
  constructor
  · rintro ⟨h1, -, h2⟩
    rw [h2] at hentry
    exact congrArg₂ FrameState.mk hentry.symm (hmoved.symm.trans (hm.trans h1))
  · intro he
    rw [he] at hentry hmoved
    exact ⟨hm.symm.trans hmoved, hk, Option.map_eq_none_iff.mp hentry⟩

/-- A run in which the metadata of frame 0 comes in two calls around the buffer of frame 1, and then its
own buffer. -/
def splitFrames : List (Act Unit) :=
  demoStart ++ demoQueue 1 ++ demoQueue 2 ++ [.result (demoMetadataResult 0 7) none,
    .result ⟨1, 1, none, 1002⟩ none, .result (demoMetadataResult 0 8) none,
    .result ⟨0, 1, none, 1001⟩ none]

theorem completedOnce_iff_metadata_first :
    ∃ s, exec (step demoEnv) contract (demoSystem Unit) splitFrames = some s ∧
      CompletedOnce demoEnv 0 (demoSystem Unit) splitFrames s := by
  obtain ⟨s, hs⟩ := Option.isSome_iff_exists.mp
    (show (exec (step demoEnv) contract (demoSystem Unit) splitFrames).isSome = true by decide)
  refine ⟨s, hs, (completedOnce_iff (demoSystem_fresh Unit) hs 0).mpr (Or.inl ⟨1, ?_⟩)⟩
  decide

/-- A run in which the metadata and the buffer of a frame come in one call. -/
def combined : List (Act Unit) :=
  demoStart ++ demoQueue 1 ++ [.result ⟨0, 1, some (demoMetadata 7), 1001⟩ none]

/-- The metadata of such a call is not looked at, and the frame waits for ever. -/
theorem combined_not_completedOnce : ¬ ∀ (as : List (Act Unit)) (s : System Unit) (f : ℕ),
    exec (step demoEnv) contract (demoSystem Unit) as = some s → AllDelivered (deliveries as) f →
      CompletedOnce demoEnv f (demoSystem Unit) as s := by
  intro hall
  obtain ⟨s, hs⟩ := Option.isSome_iff_exists.mp
    (show (exec (step demoEnv) contract (demoSystem Unit) combined).isSome = true by decide)
  have hc := hall combined s 0 hs (by decide)
  have h0 : (callsFor demoEnv 0 (demoSystem Unit) combined).countP (fun p => Moves p.1 p.2) = 0 := by
    decide
  rw [hc.once] at h0
  exact absurd h0 one_ne_zero

end System

end IntelCamera
