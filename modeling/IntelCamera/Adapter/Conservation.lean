import IntelCamera.Adapter.Order

/-!
# Adapter.Conservation — where the client's buffers are

A buffer accepted by `qBuf` and not returned by `dqBuf` should be in one of `mPendingBuffers`,
`mQueuedBuffers` and `mCapturedBuffers`, once, and no other buffer in any of them.  Two error paths
break this: a `qBuf` whose request the HAL refuses returns the error and leaves its wrapper in
`mQueuedBuffers`, and `start` drops a pending buffer whose lookup fails.  `Accounted` follows the
buffers through every step; without the second kind of failure the account is exact.
-/

namespace IntelCamera

open Lib

/-- How often the buffer `b` occurs in the three vectors. -/
def Adapter.copies (a : Adapter) (b : BufId) : ℕ :=
  ((a.mPendingBuffers ++ a.mQueuedBuffers ++ a.mCapturedBuffers).map (·.buffer)).count b

/-- What the HAL answered to a call that waits for the lock. -/
def Pc.answer : Pc → Option (Call × Status)
  | .returned c status => some (c, status)
  | _ => none

namespace System

variable {T : Type} {env : Env}

/-- At every point where no call is in progress, the buffers that were accepted and not returned are in
the three vectors exactly once, and the others are not there. -/
def Conserved (s : System T) : Prop :=
  (∀ t, s.threads t = .idle) → ∀ b, s.adapter.copies b = if s.hist.held b then 1 else 0

/-- No buffer is there more often than it was handed over; with `exact`, none is lost. -/
structure Accounted (exact : Prop) (s : System T) : Prop where
  atMost : ∀ b, s.adapter.copies b ≤ if s.hist.held b then 1 else 0
  atLeast : exact → ∀ b, s.hist.held b = true → 1 ≤ s.adapter.copies b
  accepted : ∀ t c status, (s.threads t).answer = some (c, status) → c.caller = .qBuf → status = .ok

/-- The client queues a buffer only when it has it, and the HAL accepts the requests of `qBuf`. -/
def tidy (s : System T) : Act T → Prop
  | .qBuf _ _ (some b) _ => s.hist.held b = false
  | .halEnd t status => (s.threads t).caller = some .qBuf → status = .ok
  | _ => True

/-- The buffer that `start` takes next is found. -/
def HeadFound (s : System T) : Prop :=
  ∀ w ∈ s.adapter.mPendingBuffers.head?, s.adapter.lookupOk w.buffer

/-- `start` finds the pending buffers. -/
def lossless (s : System T) : Act T → Prop
  | .start _ _ => HeadFound s
  | .relock t _ => (s.threads t).caller = some .start → HeadFound s
  | _ => True

/-- No error path is taken. -/
def faultless (s : System T) (act : Act T) : Prop := tidy s act ∧ lossless s act

variable {exact : Prop}

/-- Steps that move no buffer, or only from one vector to another. -/
theorem Accounted.frame {s s' : System T} (h : Accounted exact s)
    (hc : ∀ b, s'.adapter.copies b = s.adapter.copies b) (hh : s'.hist.held = s.hist.held)
    (ht : ∀ t c status, (s'.threads t).answer = some (c, status) →
      (s.threads t).answer = some (c, status) ∨ (c.caller = .qBuf → status = .ok)) :
    Accounted exact s' := by
  refine ⟨fun b => ?_, fun he b hb => ?_, fun t c status hr => ?_⟩
  · rw [hc, hh]
    exact h.atMost b
  · rw [hc]
    exact h.atLeast he b (hh ▸ hb)
  · rcases ht t c status hr with hr | hok
    · exact h.accepted t c status hr
    · exact hok

theorem fresh_accounted {s : System T} (h : Fresh s) : Accounted exact s := by
  refine ⟨fun b => ?_, fun _ b hb => ?_, fun t c status hr => ?_⟩
  · simp [Adapter.copies, h.pending, h.queued, h.captured]
  · simp [h.hist] at hb
  · rw [h.idle t] at hr
    cases hr

/-- A buffer that was not accepted is in none of the vectors. -/
theorem Accounted.copies_eq_zero {s : System T} (h : Accounted exact s) {b : BufId}
    (hb : s.hist.held b = false) : s.adapter.copies b = 0 := by
  have := h.atMost b
  rw [hb] at this
  simpa using this

/-- The client hands over the buffer `b`. -/
theorem Accounted.take {s s' : System T} (h : Accounted exact s) {b : BufId}
    (hb : s.hist.held b = false)
    (hc : ∀ b', s'.adapter.copies b' = s.adapter.copies b' + if b = b' then 1 else 0)
    (hh : s'.hist.held = Function.update s.hist.held b true)
    (ht : ∀ t x, (s'.threads t).answer = some x → (s.threads t).answer = some x) :
    Accounted exact s' := by
  have h0 := h.copies_eq_zero hb
  refine ⟨fun b' => ?_, fun he b' hb' => ?_, fun t c status hr => h.accepted t c status (ht t _ hr)⟩
  · rw [hc, hh]
    by_cases hbb : b = b'
    · subst hbb
      simp [h0]
    · rw [if_neg hbb, Function.update_of_ne (Ne.symm hbb)]
      exact h.atMost b'
  · rw [hc]
    by_cases hbb : b = b'
    · rw [if_pos hbb]
      omega
    · rw [hh, Function.update_of_ne (Ne.symm hbb)] at hb'
      exact (h.atLeast he b' hb').trans (Nat.le_add_right _ _)

/-- `start` takes a pending buffer on; it may have dropped some before. -/
theorem Accounted.pass {s s' : System T} (h : Accounted exact s) {w : BufferWrapper}
    (lost : List BufferWrapper) (hw : 1 ≤ s.adapter.copies w.buffer) (hl : exact → lost = [])
    (hc : ∀ b, s'.adapter.copies b + (lost.map (·.buffer)).count b = s.adapter.copies b)
    (hh : s'.hist.held = Function.update s.hist.held w.buffer true)
    (ht : ∀ t x, (s'.threads t).answer = some x → (s.threads t).answer = some x) :
    Accounted exact s' := by
  have hheld : s.hist.held w.buffer = true := by
    by_contra hno
    have := h.copies_eq_zero (Bool.eq_false_iff.mpr hno)
    omega
  have hh' : s'.hist.held = s.hist.held := by
    rw [hh, ← hheld, Function.update_eq_self]
  refine ⟨fun b => ?_, fun he b hb => ?_, fun t c status hr => h.accepted t c status (ht t _ hr)⟩
  · have h1 := h.atMost b
    have h2 := hc b
    rw [hh']
    omega
  · have h1 := h.atLeast he b (hh' ▸ hb)
    have h2 := hc b
    rw [hl he] at h2
    simpa using h1.trans_eq h2.symm

/-- `dqBuf` gives the buffer `b` back. -/
theorem Accounted.give {s s' : System T} (h : Accounted exact s) {b : BufId}
    (hc : ∀ b', s'.adapter.copies b' + (if b = b' then 1 else 0) = s.adapter.copies b')
    (hh : s'.hist.held = Function.update s.hist.held b false) (ht : s'.threads = s.threads) :
    Accounted exact s' := by
  refine ⟨fun b' => ?_, fun he b' hb' => ?_, by rw [ht]; exact h.accepted⟩
  · have h1 := h.atMost b'
    have h2 := hc b'
    rw [hh]
    by_cases hbb : b = b'
    · subst hbb
      rw [if_pos rfl] at h2
      rw [Function.update_self]
      split_ifs at h1 <;> simp <;> omega
    · rw [Function.update_of_ne (Ne.symm hbb)]
      omega
  · by_cases hbb : b = b'
    · subst hbb
      rw [hh, Function.update_self] at hb'
      cases hb'
    · have h2 := hc b'
      rw [if_neg hbb] at h2
      rw [hh, Function.update_of_ne (Ne.symm hbb)] at hb'
      have := h.atLeast he b' hb'
      omega

variable [DecidableEq T]

theorem Accounted.resumed {s s' : System T} {t : T} (h : Accounted exact s)
    (hf : exact → HeadFound s) (hr : Resumed s t s') : Accounted exact s' := by
  cases hr with
  | done hno =>
    -- nothing that was pending was found
    have hnil : exact → s.adapter.mPendingBuffers = [] := by
      intro he
      cases hp : s.adapter.mPendingBuffers with
      | nil => rfl
      | cons w rest => exact absurd (hf he w (by simp [hp])) (hno w (by simp [hp]))
    have hcop : ∀ b, s.adapter.copies b =
        Adapter.copies { s.adapter with mPendingBuffers := [] } b +
          (s.adapter.mPendingBuffers.map (·.buffer)).count b := by
      intro b
      simp only [Adapter.copies, List.map_append, List.count_append, List.nil_append]
      omega
    refine ⟨fun b => ?_, fun he b hb => ?_, fun u c status hu => ?_⟩
    · exact (Nat.le_add_right _ _).trans ((hcop b).symm.le.trans (h.atMost b))
    · have h1 := h.atLeast he b hb
      rw [hcop, hnil he] at h1
      simpa using h1
    · exact h.accepted u c status (update_pc_none rfl hu)
  | next sk w rest rq a hpend hno hok hs =>
    refine h.pass (w := w) sk ?_ ?_ ?_ rfl fun u x hu => update_pc_none rfl hu
    · simp only [Adapter.copies, hpend, List.map_append, List.count_append, List.map_cons,
        List.count_cons_self]
      omega
    · intro he
      cases sk with
      | nil => rfl
      | cons v sk => exact absurd (hf he v (by simp [hpend])) (hno v (by simp))
    · intro b
      simp only [System.submit, Adapter.copies, hs.pending, hs.queued, hs.captured, hpend,
        List.map_append, List.count_append, List.map_cons, List.map_nil, List.count_cons,
        List.count_nil]
      omega

/-- **The account of one step.** -/
theorem accounted_step {s s' : System T} {act : Act T} (h : Accounted exact s) (ha : tidy s act)
    (hl : exact → lossless s act) (hst : step env s act = some s') : Accounted exact s' := by
  cases step_cases hst with
  | null | refuse | stop | timeout | close | write =>
    exact h.frame (fun _ => rfl) rfl fun _ _ _ hr => Or.inl hr
  | park t sid b o _ _ =>
    refine h.take ha (fun b' => ?_) rfl fun _ _ hr => hr
    simp only [Adapter.copies, List.map_append, List.count_append, List.map_cons, List.map_nil,
      List.count_singleton, beq_iff_eq]
    omega
  | queue t sid b o rq a _ _ _ hs =>
    refine h.take ha (fun b' => ?_) rfl fun u x hu => update_pc_none rfl hu
    simp only [System.submit, Adapter.copies, hs.pending, hs.queued, hs.captured, List.map_append,
      List.count_append, List.map_cons, List.map_nil, List.count_singleton, beq_iff_eq]
    omega
  | start t o s'' _ hr =>
    have h' : Accounted exact { s with adapter := { s.adapter with mStarted := true } } :=
      h.frame (fun _ => rfl) rfl fun _ _ _ hr => Or.inl hr
    exact h'.resumed hl hr
  | resume t c st o s'' hc hk hr =>
    refine h.resumed (fun he => hl he ?_) hr
    rw [hc, Pc.caller, hk]
  | halBegin t c hc =>
    exact h.frame (fun _ => rfl) rfl fun u d status hu => Or.inl (update_pc_none rfl hu)
  | halEnd t c st hc =>
    refine h.frame (fun _ => rfl) rfl fun u d status hu => ?_
    by_cases hut : u = t
    · subst hut
      simp only [Function.update_self] at hu
      cases hu
      exact Or.inr fun hk => ha (by rw [hc, Pc.caller, hk])
    · simp only [Function.update_of_ne hut] at hu
      exact Or.inl hu
  | finish t c st o hc hk =>
    refine h.frame (fun _ => rfl) ?_ fun u d status hu => Or.inl (update_pc_none rfl hu)
    have hok := h.accepted t c st (by rw [hc]; rfl) hk
    simp [hok]
  | dequeue t w rest _ hcap =>
    refine h.give (fun b' => ?_) rfl rfl
    simp only [Adapter.copies, hcap, List.map_append, List.count_append, List.map_cons,
      List.count_cons, beq_iff_eq]
    omega
  | result r stale a ha' =>
    refine h.frame (fun b => ?_) rfl fun _ _ _ hr => Or.inl hr
    rcases Adapter.processCaptureResult_cases ha' with ⟨-, hd, rs, hq, rfl⟩ | ⟨-, cl, rfl, -⟩
    · simp only [Adapter.copies, hq, List.map_append, List.count_append, List.map_cons, List.map_nil,
        List.count_cons, List.count_nil]
      omega
    · rfl
  | setParameters t param st a _ hset =>
    obtain ⟨hp, q, m, rfl⟩ := Adapter.setParameters_frame hset
    exact h.frame (fun b => rfl) rfl fun _ _ _ hr => Or.inl hr

/-- **Conservation of buffers.**  In every run in which the client queues only buffers that it has, the
HAL accepts the requests of `qBuf` and `start` finds the pending buffers, no buffer is lost and none is
left over. -/
theorem conserved_of_faultless {s : System T} (h : Reach (step env) faultless Fresh s) :
    Conserved s := by
  have hinv : Accounted True s := h.invariant (fun _ => fresh_accounted)
    fun _ _ _ _ hi ha hst => accounted_step hi ha.1 (fun _ => ha.2) hst
  intro _ b
  refine le_antisymm (hinv.atMost b) ?_
  split_ifs with hb
  · exact hinv.atLeast trivial b hb
  · exact Nat.zero_le _

/-- The client queues a buffer only when it has it, and the HAL delivers at most one result of each
kind; requests and lookups may fail. -/
def disciplined (s : System T) : Act T → Prop
  | .qBuf _ _ (some b) _ => s.hist.held b = false
  | act => onceEach s act

instance (s : System T) : (act : Act T) → Decidable (disciplined s act)
  | .qBuf _ _ (some b) _ => inferInstanceAs (Decidable (s.hist.held b = false))
  | .qBuf t sid none o => inferInstanceAs (Decidable (onceEach s (.qBuf t sid none o)))
  | .result r stale => inferInstanceAs (Decidable (onceEach s (.result r stale)))
  | .start .. | .halBegin .. | .halEnd .. | .relock .. | .stop .. | .dqBuf .. | .setParameters ..
  | .close .. | .write .. => .isTrue trivial

instance (s : System T) : Decidable (HeadFound s) :=
  inferInstanceAs (Decidable (∀ _ ∈ _, _))

instance (s : System T) : (act : Act T) → Decidable (tidy s act)
  | .qBuf _ _ (some b) _ => inferInstanceAs (Decidable (s.hist.held b = false))
  | .halEnd .. => inferInstanceAs (Decidable (_ → _))
  | .qBuf _ _ none _ | .start .. | .halBegin .. | .relock .. | .stop .. | .dqBuf .. | .result ..
  | .setParameters .. | .close .. | .write .. => .isTrue trivial

instance (s : System T) : (act : Act T) → Decidable (lossless s act)
  | .start .. => inferInstanceAs (Decidable (HeadFound s))
  | .relock .. => inferInstanceAs (Decidable (_ → HeadFound s))
  | .qBuf .. | .halBegin .. | .halEnd .. | .stop .. | .dqBuf .. | .result .. | .setParameters ..
  | .close .. | .write .. => .isTrue trivial

instance (s : System T) (act : Act T) : Decidable (faultless s act) :=
  inferInstanceAs (Decidable (_ ∧ _))

theorem conserved_of_faultless_demo : ∃ s : System Unit, Reach (step demoEnv) faultless Fresh s ∧
    s.hist.returned.map (·.buffer) = [1] ∧ s.hist.held 2 = true ∧ Conserved s := by
  obtain ⟨s, h, hv⟩ := demo_reach faultless
    ([.qBuf () 0 (some 1) (.failed 0), .start () (.failed 0)] ++ demoRequest () .ok ++ demoQueue 2 ++
      [.result (demoMetadataResult 0 7) none, .result ⟨0, 1, none, 1001⟩ none, .dqBuf ()])
    (fun s => (s.hist.returned.map (·.buffer), s.hist.held 2)) ([1], true) (by decide)
  exact ⟨s, h, congrArg Prod.fst hv, congrArg Prod.snd hv, conserved_of_faultless h⟩

/-- A `qBuf` whose request the HAL refuses returns the error, and its buffer stays queued. -/
theorem refused_not_conserved :
    ¬ ∀ s : System Unit, Reach (step demoEnv) disciplined Fresh s → Conserved s := by
  intro hall
  obtain ⟨s, h, hv⟩ := demo_reach disciplined
    (demoStart ++ [.qBuf () 0 (some 1) (.failed 0)] ++ demoRequest () .unknownError)
    (fun s => (decide (s.threads () = .idle), s.adapter.copies 1, s.hist.held 1)) (true, 1, false)
    (by decide)
  simp only [Prod.mk.injEq, decide_eq_true_eq] at hv
  obtain ⟨hidle, hcopies, hheld⟩ := hv
  have hcons := hall s h (fun _ => hidle) 1
  rw [hcopies, hheld] at hcons
  cases hcons

end System

end IntelCamera
