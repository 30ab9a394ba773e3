import IntelCamera.Adapter.Results
import Mathlib.Data.Fintype.Basic

/-!
# Adapter.Order — the order of the submissions across threads

`capture` gives up `mLock` around `process_capture_request`, and `start` sets `mStarted` before it
drains `mPendingBuffers`.  A `qBuf` that comes in between is submitted before buffers queued earlier,
and two threads between the unlock and the call may reach the HAL in either order, or both at once.
`Ticketed` orders the submissions by their `qBuf` calls as long as no call overtakes the pending
buffers; `Windowed` keeps the requests to the HAL in the order of submission as long as no `capture`
gives up the lock while another is in its window.
-/

namespace IntelCamera

open Lib

/-- The call between the unlock of `capture` and the return of `process_capture_request`. -/
def Pc.window : Pc → Option Call
  | .unlocked c => some c
  | .inHal c => some c
  | _ => none

/-- The thread is in that window. -/
def Pc.inWindow (pc : Pc) : Bool := pc.window.isSome

/-- Who called `capture`. -/
def Pc.caller : Pc → Option Caller
  | .idle => none
  | .unlocked c => some c.caller
  | .inHal c => some c.caller
  | .returned c _ => some c.caller

/-- A call of `qBuf`. -/
def Act.isQBuf {T : Type} : Act T → Bool
  | .qBuf .. => true
  | _ => false

namespace System

variable {T : Type} {env : Env}

/-! ### Tickets -/

/-- The submissions, and after them the pending buffers, are in the order of their `qBuf` calls. -/
structure Ticketed (s : System T) : Prop where
  ordered : (s.hist.submitted.map (·.ticket) ++ s.hist.pendingTickets).Pairwise (· < ·)
  below : ∀ k ∈ s.hist.submitted.map (·.ticket) ++ s.hist.pendingTickets, k < s.hist.tickets
  pending : s.hist.pendingTickets.length = s.adapter.mPendingBuffers.length

/-- Steps that neither submit nor touch the pending buffers. -/
theorem Ticketed.frame {s s' : System T} (h : Ticketed s)
    (hs : s'.hist.submitted = s.hist.submitted)
    (hp : s'.hist.pendingTickets = s.hist.pendingTickets) (ht : s.hist.tickets ≤ s'.hist.tickets)
    (hb : s'.adapter.mPendingBuffers = s.adapter.mPendingBuffers) : Ticketed s' := by
  refine ⟨by rw [hs, hp]; exact h.ordered, ?_, by rw [hp, hb]; exact h.pending⟩
  rw [hs, hp]
  exact fun k hk => (h.below k hk).trans_le ht

/-- One more `qBuf` call at the end: pending, or submitted when nothing is pending. -/
theorem Ticketed.snoc {s s' : System T} (h : Ticketed s)
    (hk : s'.hist.submitted.map (·.ticket) ++ s'.hist.pendingTickets =
      (s.hist.submitted.map (·.ticket) ++ s.hist.pendingTickets) ++ [s.hist.tickets])
    (ht : s'.hist.tickets = s.hist.tickets + 1)
    (hp : s'.hist.pendingTickets.length = s'.adapter.mPendingBuffers.length) : Ticketed s' := by
  refine ⟨?_, ?_, hp⟩
  · rw [hk]
    refine List.pairwise_append.mpr ⟨h.ordered, List.pairwise_singleton _ _, ?_⟩
    intro k hk k' hk'
    obtain rfl := List.mem_singleton.mp hk'
    exact h.below k hk
  · rw [hk, ht]
    intro k hk
    rcases List.mem_append.mp hk with hk | hk
    · exact Nat.lt_succ_of_lt (h.below k hk)
    · obtain rfl := List.mem_singleton.mp hk
      exact Nat.lt_succ_self _

/-- Tickets that are dropped, or that become submissions, stay in order. -/
theorem Ticketed.sublist {s s' : System T} (h : Ticketed s)
    (hk : (s'.hist.submitted.map (·.ticket) ++ s'.hist.pendingTickets).Sublist
      (s.hist.submitted.map (·.ticket) ++ s.hist.pendingTickets))
    (ht : s'.hist.tickets = s.hist.tickets)
    (hp : s'.hist.pendingTickets.length = s'.adapter.mPendingBuffers.length) : Ticketed s' :=
  ⟨h.ordered.sublist hk, fun k hm => ht ▸ h.below k (hk.subset hm), hp⟩

theorem fresh_ticketed {s : System T} (h : Fresh s) : Ticketed s := by
  refine ⟨?_, ?_, ?_⟩ <;> simp [h.hist, h.pending]

/-! ### Windows -/

/-- No thread is between the unlock of `capture` and the return of `process_capture_request`. -/
def Quiet (s : System T) : Prop := ∀ t, (s.threads t).inWindow = false

/-- At most one thread is in the window, and the requests passed to the HAL are the submissions, up to
the one that is on its way. -/
structure Windowed (s : System T) : Prop where
  exclusive : ∀ t u, (s.threads t).inWindow = true → (s.threads u).inWindow = true → t = u
  begun : (∀ t c, s.threads t ≠ .unlocked c) ∧ s.hist.submitted = s.hist.begun ∨
    ∃ t c, s.threads t = .unlocked c ∧ s.hist.submitted = s.hist.begun ++ [c.submission]

/-- Steps outside the window. -/
theorem Windowed.frame {s s' : System T} (h : Windowed s)
    (ht : ∀ u, s'.threads u = s.threads u ∨
      (s.threads u).inWindow = false ∧ (s'.threads u).inWindow = false)
    (hs : s'.hist.submitted = s.hist.submitted) (hb : s'.hist.begun = s.hist.begun) :
    Windowed s' := by
  have hw : ∀ u, (s'.threads u).inWindow = (s.threads u).inWindow := by
    intro u
    rcases ht u with hu | ⟨h1, h2⟩
    · rw [hu]
    · rw [h1, h2]
  refine ⟨fun t u h1 h2 => h.exclusive t u (hw t ▸ h1) (hw u ▸ h2), ?_⟩
  rw [hs, hb]
  rcases h.begun with ⟨hno, he⟩ | ⟨t, c, hc, he⟩
  · refine Or.inl ⟨fun t c hc => ?_, he⟩
    rcases ht t with hu | ⟨-, h2⟩
    · exact hno t c (hu ▸ hc)
    · rw [hc] at h2
      cases h2
  · refine Or.inr ⟨t, c, ?_, he⟩
    rcases ht t with hu | ⟨h1, -⟩
    · rw [hu, hc]
    · rw [hc] at h1
      cases h1

theorem fresh_windowed {s : System T} (h : Fresh s) : Windowed s := by
  refine ⟨fun t u ht => ?_, Or.inl ⟨fun t c hc => ?_, by simp [h.hist]⟩⟩
  · rw [h.idle t] at ht
    cases ht
  · rw [h.idle t] at hc
    cases hc

/-- In a quiet state every submission was passed to the HAL. -/
theorem Windowed.begun_of_quiet {s : System T} (h : Windowed s) (hq : Quiet s) :
    s.hist.submitted = s.hist.begun := by
  rcases h.begun with ⟨-, he⟩ | ⟨t, c, hc, -⟩
  · exact he
  · have := hq t
    rw [hc] at this
    cases this

/-! ### Serial runs -/

/-- The loop of `start` would submit a buffer. -/
def Drains (s : System T) : Prop := ∃ w ∈ s.adapter.mPendingBuffers, s.adapter.lookupOk w.buffer

/-- `capture` builds a request and gives up the lock in this step. -/
def Submits (s : System T) : Act T → Prop
  | .qBuf _ _ (some b) _ => s.adapter.mStarted = true ∧ s.adapter.lookupOk b
  | .start _ _ => Drains s
  | .relock t _ => (s.threads t).caller = some .start ∧ Drains s
  | _ => False

/-- `capture` gives up the lock only while no other thread is in its window, and a `qBuf` that is
submitted finds no pending buffer. -/
def serial (s : System T) (act : Act T) : Prop :=
  Submits s act → Quiet s ∧ (act.isQBuf = true → s.adapter.mPendingBuffers = [])

/-- The wrappers in `mQueuedBuffers` are those of the last submissions, in their order. -/
def QueueInOrder (s : System T) : Prop :=
  s.adapter.mQueuedBuffers.map (·.buffer) <:+ s.hist.submitted.map (·.buffer)

/-- Submissions, the queue and calls of the HAL are in the order of the `qBuf` calls, frame numbers
increase, and one call is in progress at a time. -/
structure Ordered (s : System T) : Prop where
  queued : (s.hist.submitted.map (·.ticket)).Pairwise (· < ·)
  queue : QueueInOrder s
  numbered : (s.hist.submitted.map (·.frame)).Pairwise (· < ·)
  passed : (s.hist.begun.map (·.ticket)).Pairwise (· < ·)
  frames : (s.hist.begun.map (·.frame)).Pairwise (· < ·)
  exclusive : ∀ t u c d, s.threads t = .inHal c → s.threads u = .inHal d → t = u

/-- The two invariants say so. -/
theorem ordered_of {s : System T} (ht : Ticketed s) (hw : Windowed s) (hn : Numbered s)
    (hs : QueueInOrder s) : Ordered s := by
  have hq : (s.hist.submitted.map (·.ticket)).Pairwise (· < ·) :=
    (List.pairwise_append.mp ht.ordered).1
  have hsub : s.hist.begun.Sublist s.hist.submitted := by
    rcases hw.begun with ⟨-, he⟩ | ⟨_, c, -, he⟩
    · rw [he]
    · rw [he]
      exact List.sublist_append_left _ _
  refine ⟨hq, hs, hn.increasing, hq.sublist (hsub.map _), hn.increasing.sublist (hsub.map _), ?_⟩
  intro t u c d h1 h2
  exact hw.exclusive t u (by rw [h1]; rfl) (by rw [h2]; rfl)

variable [DecidableEq T]

theorem QueueInOrder.submit {s : System T} (h : QueueInOrder s) (t : T) {a : Adapter} {w : BufferWrapper}
    (hq : a.mQueuedBuffers = s.adapter.mQueuedBuffers ++ [w]) (request : Request) (caller : Caller)
    (ticket : ℕ) : QueueInOrder (submit s t a w request caller ticket) := by
  obtain ⟨gone, hg⟩ := h
  refine ⟨gone, ?_⟩
  simp only [System.submit, hq, List.map_append, List.map_singleton]
  rw [← List.append_assoc, hg]

theorem QueueInOrder.resumed {s s' : System T} {t : T} (h : QueueInOrder s) (hr : Resumed s t s') :
    QueueInOrder s' := by
  cases hr with
  | done _ => exact h
  | next sk w rest rq a _ _ _ hs =>
    have h' : QueueInOrder { s with hist := { s.hist with
        passed := s.hist.passed ++ (sk ++ [w]).map (·.buffer)
        pendingTickets := s.hist.pendingTickets.drop (sk.length + 1) } } := h
    exact h'.submit t hs.queued _ _ _

/-- **The queue is first in, first out**: submissions go to its end, results take its head. -/
theorem queueInOrder_step {s s' : System T} {act : Act T} (h : QueueInOrder s)
    (hst : step env s act = some s') : QueueInOrder s' := by
  cases step_cases hst with
  | null | park | refuse | halBegin | halEnd | finish | stop | timeout | dequeue | close | write =>
    exact h
  | queue t sid b o rq a _ _ _ hs =>
    have h' : QueueInOrder { s with hist := { s.hist with
        tickets := s.hist.tickets + 1
        passed := s.hist.passed ++ [b] } } := h
    exact h'.submit t hs.queued _ _ _
  | start t o s'' _ hr =>
    have h' : QueueInOrder { s with adapter := { s.adapter with mStarted := true } } := h
    exact h'.resumed hr
  | resume t c st o s'' _ _ hr => exact h.resumed hr
  | result r stale a ha =>
    rcases Adapter.processCaptureResult_cases ha with ⟨-, head, rest, hq, rfl⟩ | ⟨-, client, rfl, -⟩
    · refine List.IsSuffix.trans ?_ h
      rw [hq, List.map_cons]
      exact List.suffix_cons _ _
    · exact h
  | setParameters t param st a _ hset =>
    obtain ⟨hp, q, m, rfl⟩ := Adapter.setParameters_frame hset
    exact h

theorem reach_queueInOrder {allowed : System T → Act T → Prop} {s : System T}
    (h : Reach (step env) allowed Fresh s) : QueueInOrder s := by
  refine h.invariant (fun s hf => ?_) fun _ _ _ _ hq _ hst => queueInOrder_step hq hst
  simp [QueueInOrder, hf.queued, hf.hist]

theorem Ticketed.resumed {s s' : System T} {t : T} (h : Ticketed s) (hr : Resumed s t s') :
    Ticketed s' := by
  cases hr with
  | done _ =>
    have hnil : s.hist.pendingTickets.drop s.adapter.mPendingBuffers.length = [] := by
      rw [← h.pending, List.drop_length]
    refine h.sublist ?_ rfl ?_
    · simp [hnil]
    · simp [hnil]
  | next sk w rest rq a hpend _ _ hs =>
    have hlen := h.pending
    rw [hpend, List.length_append, List.length_cons] at hlen
    have hlt : sk.length < s.hist.pendingTickets.length := by omega
    have hdrop : s.hist.pendingTickets.getD sk.length 0 :: s.hist.pendingTickets.drop (sk.length + 1) =
        s.hist.pendingTickets.drop sk.length := by
      rw [List.getD_eq_getElem?_getD, List.getElem?_eq_getElem hlt, Option.getD_some]
      exact (List.drop_eq_getElem_cons hlt).symm
    refine h.sublist ?_ rfl ?_
    · simp only [System.submit, List.map_append, List.map_singleton, List.append_assoc,
        List.singleton_append, hdrop]
      exact (List.drop_sublist _ _).append_left _
    · simp only [System.submit, hs.pending, List.length_drop]
      omega

/-- **No call overtakes the pending buffers.** -/
theorem ticketed_step {s s' : System T} {act : Act T} (h : Ticketed s) (ha : serial s act)
    (hst : step env s act = some s') : Ticketed s' := by
  cases step_cases hst with
  | null | refuse => exact h.frame rfl rfl (Nat.le_succ _) rfl
  | park t sid b o _ _ =>
    refine h.snoc ?_ rfl ?_
    · simp
    · simp [h.pending]
  | queue t sid b o rq a _ hst' hok hs =>
    have hnil := (ha ⟨hst', hok⟩).2 rfl
    have hp : s.hist.pendingTickets = [] := by
      rw [← List.length_eq_zero_iff, h.pending, hnil]
      rfl
    refine h.snoc ?_ rfl ?_
    · simp [System.submit, hp]
    · simp [System.submit, hs.pending, h.pending]
  | start t o s'' _ hr =>
    have h' : Ticketed { s with adapter := { s.adapter with mStarted := true } } :=
      h.frame rfl rfl le_rfl rfl
    exact h'.resumed hr
  | resume t c st o s'' _ _ hr => exact h.resumed hr
  | halBegin | halEnd | finish | stop | timeout | dequeue | close | write =>
    exact h.frame rfl rfl le_rfl rfl
  | result r stale a ha' =>
    refine h.frame rfl rfl le_rfl ?_
    rcases Adapter.processCaptureResult_cases ha' with ⟨-, hd, rs, -, rfl⟩ | ⟨-, cl, rfl, -⟩ <;> rfl
  | setParameters t param st a _ hset =>
    obtain ⟨hp, q, m, rfl⟩ := Adapter.setParameters_frame hset
    exact h.frame rfl rfl le_rfl rfl

theorem Windowed.submit {s : System T} (h : Windowed s) (hq : Quiet s) (t : T) (a : Adapter)
    (w : BufferWrapper) (request : Request) (caller : Caller) (ticket : ℕ) :
    Windowed (submit s t a w request caller ticket) := by
  have hne : ∀ u, ((System.submit s t a w request caller ticket).threads u).inWindow = true →
      u = t := by
    intro u hu
    by_contra hut
    simp only [System.submit, Function.update_of_ne hut] at hu
    rw [hq u] at hu
    cases hu
  refine ⟨fun u v hu hv => (hne u hu).trans (hne v hv).symm,
    Or.inr ⟨t, _, Function.update_self _ _ _, ?_⟩⟩
  simp only [System.submit]
  rw [h.begun_of_quiet hq]

theorem Windowed.resumed {s s' : System T} {t : T} (h : Windowed s) (hq : Drains s → Quiet s)
    (ht : (s.threads t).inWindow = false) (hr : Resumed s t s') : Windowed s' := by
  cases hr with
  | done _ =>
    refine h.frame (fun u => ?_) rfl rfl
    by_cases hut : u = t
    · subst hut
      exact Or.inr ⟨ht, by simp [Pc.inWindow, Pc.window]⟩
    · exact Or.inl (Function.update_of_ne hut _ _)
  | next sk w rest rq a hpend _ hok hs =>
    have hquiet := hq ⟨w, by simp [hpend], hok⟩
    have h' : Windowed { s with hist := { s.hist with
        passed := s.hist.passed ++ (sk ++ [w]).map (·.buffer)
        pendingTickets := s.hist.pendingTickets.drop (sk.length + 1) } } :=
      h.frame (fun u => Or.inl rfl) rfl rfl
    exact h'.submit hquiet _ _ _ _ _ _

/-- The only request on its way reaches the HAL. -/
theorem Windowed.halBegin {s : System T} {t : T} {c : Call} (h : Windowed s)
    (hc : s.threads t = .unlocked c) :
    Windowed { s with
      threads := Function.update s.threads t (.inHal c)
      hist := { s.hist with begun := s.hist.begun ++ [c.submission] } } := by
  have hw : (s.threads t).inWindow = true := by
    rw [hc]
    rfl
  have hold : ∀ u, (Function.update s.threads t (.inHal c) u).inWindow = (s.threads u).inWindow :=
    update_pc_same Pc.inWindow _ (by rw [hc]; rfl)
  refine ⟨fun u v hu hv => h.exclusive u v (hold u ▸ hu) (hold v ▸ hv), Or.inl ⟨?_, ?_⟩⟩
  · intro u d hd
    dsimp only at hd
    have hu : (Function.update s.threads t (.inHal c) u).inWindow = true := by
      rw [hd]
      rfl
    obtain rfl := h.exclusive u t (hold u ▸ hu) hw
    simp at hd
  · rcases h.begun with ⟨hno, -⟩ | ⟨u, d, hd, he⟩
    · exact absurd hc (hno t c)
    · obtain rfl := h.exclusive u t (by rw [hd]; rfl) hw
      rw [hd] at hc
      cases hc
      exact he

/-- The thread in the window leaves it, and nobody is left in it. -/
theorem Windowed.halEnd {s : System T} {t : T} {c : Call} {status : Status} (h : Windowed s)
    (hc : s.threads t = .inHal c) :
    Windowed { s with threads := Function.update s.threads t (.returned c status) } := by
  have hw : (s.threads t).inWindow = true := by
    rw [hc]
    rfl
  have hne : ∀ u, (Function.update s.threads t (.returned c status) u).inWindow = false := by
    intro u
    by_cases hut : u = t
    · subst hut
      simp [Pc.inWindow, Pc.window]
    · rw [Function.update_of_ne hut]
      by_contra hu
      exact hut (h.exclusive u t (by simpa using hu) hw)
  refine ⟨fun u v hu _ => by simp [hne u] at hu, Or.inl ⟨fun u d hd => ?_, ?_⟩⟩
  · have hu := hne u
    dsimp only at hd
    rw [hd] at hu
    cases hu
  · rcases h.begun with ⟨-, he⟩ | ⟨u, d, hd, -⟩
    · exact he
    · obtain rfl := h.exclusive u t (by rw [hd]; rfl) hw
      rw [hd] at hc
      cases hc

/-- **The HAL sees the requests in the order of submission**, one at a time. -/
theorem windowed_step {s s' : System T} {act : Act T} (h : Windowed s) (ha : serial s act)
    (hst : step env s act = some s') : Windowed s' := by
  cases step_cases hst with
  | null | park | refuse | stop | timeout | dequeue | result | setParameters | close | write =>
    exact h.frame (fun u => Or.inl rfl) rfl rfl
  | queue t sid b o rq a _ hst' hok _ =>
    have h' : Windowed { s with hist := { s.hist with
        tickets := s.hist.tickets + 1
        passed := s.hist.passed ++ [b] } } := h.frame (fun u => Or.inl rfl) rfl rfl
    exact h'.submit (ha ⟨hst', hok⟩).1 _ _ _ _ _ _
  | start t o s'' hi hr =>
    have h' : Windowed { s with adapter := { s.adapter with mStarted := true } } :=
      h.frame (fun u => Or.inl rfl) rfl rfl
    exact h'.resumed (fun hd => (ha hd).1) (by rw [hi]; rfl) hr
  | resume t c st o s'' hc hk hr =>
    refine h.resumed (fun hd => (ha ⟨?_, hd⟩).1) (by rw [hc]; rfl) hr
    rw [hc, Pc.caller, hk]
  | finish t c st o hc _ =>
    refine h.frame (fun u => ?_) rfl rfl
    by_cases hut : u = t
    · subst hut
      exact Or.inr ⟨by rw [hc]; rfl, by simp [Pc.inWindow, Pc.window]⟩
    · exact Or.inl (Function.update_of_ne hut _ _)
  | halBegin t c hc => exact h.halBegin hc
  | halEnd t c st hc => exact h.halEnd hc

/-- **Submission order.**  In every run in which no submitted `qBuf` overtakes pending buffers and no
two captures are in their windows together, the requests are queued, numbered and passed to the HAL in
the order of their `qBuf` calls, one at a time, and `mQueuedBuffers` holds the last of them in this order. -/
theorem ordered_of_serial {s : System T} (h : Reach (step env) serial Fresh s) : Ordered s := by
  have hinv : Ticketed s ∧ Windowed s := by
    refine h.invariant (I := fun s => Ticketed s ∧ Windowed s)
      (fun _ hf => ⟨fresh_ticketed hf, fresh_windowed hf⟩) ?_
    rintro s act s' - ⟨ht, hw⟩ ha hst
    exact ⟨ticketed_step ht ha hst, windowed_step hw ha hst⟩
  exact ordered_of hinv.1 hinv.2 (reach_numbered h) (reach_queueInOrder h)

instance [Fintype T] (s : System T) : Decidable (Quiet s) :=
  inferInstanceAs (Decidable (∀ _, _))

instance (s : System T) : Decidable (Drains s) :=
  inferInstanceAs (Decidable (∃ _ ∈ _, _))

instance (s : System T) : (act : Act T) → Decidable (Submits s act)
  | .qBuf _ _ (some _) _ | .relock .. => inferInstanceAs (Decidable (_ ∧ _))
  | .start .. => inferInstanceAs (Decidable (Drains s))
  | .qBuf _ _ none _ | .halBegin .. | .halEnd .. | .stop .. | .dqBuf .. | .result ..
  | .setParameters .. | .close .. | .write .. => .isFalse id

instance [Fintype T] (s : System T) (act : Act T) : Decidable (serial s act) :=
  inferInstanceAs (Decidable (_ → _))

theorem ordered_of_serial_two_threads : ∃ s : System (Fin 2), Reach (step demoEnv) serial Fresh s ∧
    s.hist.submitted.map (·.ticket) = [0, 1, 2] ∧ Ordered s := by
  obtain ⟨s, h, hv⟩ := demo_reach serial
    ([.qBuf 0 0 (some 1) (.failed 0), .qBuf 1 0 (some 2) (.failed 0), .start (0 : Fin 2) (.failed 0)] ++
      demoRequest 0 .ok ++ demoRequest 0 .ok ++ [.qBuf 1 0 (some 3) (.failed 0), .halBegin 1])
    (fun s => s.hist.submitted.map (·.ticket)) [0, 1, 2] (by decide)
  exact ⟨s, h, hv, ordered_of_serial h⟩

/-- While `start` drains two pending buffers, a `qBuf` on another thread gets in between. -/
theorem overtaken_not_ordered :
    ¬ ∀ s : System (Fin 2), Reach (step demoEnv) (fun _ _ => True) Fresh s → Ordered s := by
  intro hall
  obtain ⟨s, h, hv⟩ := demo_reach (fun _ _ => True)
    ([.qBuf 0 0 (some 1) (.failed 0), .qBuf 0 0 (some 2) (.failed 0), .start (0 : Fin 2) (.failed 0),
      .qBuf 1 0 (some 3) (.failed 0)] ++ demoRequest 0 .ok)
    (fun s => s.hist.submitted.map (·.ticket)) [0, 2, 1] (by decide)
  have hq := (hall s h).queued
  rw [hv] at hq
  exact absurd hq (by decide)

end System

end IntelCamera
