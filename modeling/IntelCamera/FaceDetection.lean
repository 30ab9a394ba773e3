import IntelCamera.Lib.Runs
import Mathlib.Data.Fintype.Basic
import Mathlib.Data.List.Basic
import Mathlib.Logic.Function.Basic
import Mathlib.Tactic.Cases

/-!
# FaceDetection — the properties of the face detection filter (`gst_pvl_face_detection_filter.c`)

Five properties of the filter live in one parameter record of the detection library.  A call of
`gst_pvl_fd_filter_set_property` reads the whole record, then takes the object lock, stores its value
in its copy, writes the copy back and releases the lock.  The read is outside the lock, so a call that
writes may undo what another call has written since.  The steps here are the two library calls and the
two lock operations, of any number of threads.

Values are words: `min_face_ratio` is the bit pattern of its `float`.  The two logging properties are
fields of the filter and are assigned without the lock.
-/

namespace IntelCamera

open Lib

namespace FaceDetection

/-- The properties that live in the parameter record. -/
inductive Property
  | maxDetectableFaces | minFaceRatio | ripRange | ropRange | numRolloverFrames
deriving DecidableEq, Repr

/-- `pvl_face_detection_parameters`. -/
structure Parameters where
  maxNumFaces : UInt32
  minFaceRatio : UInt32
  ripRange : UInt32
  ropRange : UInt32
  numRolloverFrames : UInt32
deriving DecidableEq, Repr

/-- The value of a property. -/
def Parameters.get (params : Parameters) : Property → UInt32
  | .maxDetectableFaces => params.maxNumFaces
  | .minFaceRatio => params.minFaceRatio
  | .ripRange => params.ripRange
  | .ropRange => params.ropRange
  | .numRolloverFrames => params.numRolloverFrames

/-- The assignment of the case of a property. -/
def Parameters.set (params : Parameters) (value : UInt32) : Property → Parameters
  | .maxDetectableFaces => { params with maxNumFaces := value }
  | .minFaceRatio => { params with minFaceRatio := value }
  | .ripRange => { params with ripRange := value }
  | .ropRange => { params with ropRange := value }
  | .numRolloverFrames => { params with numRolloverFrames := value }

@[simp] theorem Parameters.get_set (params : Parameters) (value : UInt32) (p : Property) :
    (params.set value p).get p = value := by
  cases p <;> rfl

theorem Parameters.get_set_ne (params : Parameters) (value : UInt32) {p q : Property} (h : q ≠ p) :
    (params.set value p).get q = params.get q := by
  cases p <;> cases q <;> first | rfl | exact absurd rfl h

/-- A call: the property, the value, and its number among the calls. -/
structure Call where
  property : Property
  value : UInt32
  number : ℕ
deriving DecidableEq, Repr

/-- Where a thread is.  `params` is its copy of the record. -/
inductive Pc
  | idle
  | read (call : Call) (params : Parameters)
  | locked (call : Call) (params : Parameters)
  | written
deriving DecidableEq, Repr

/-- The filter, the record of the library and the threads.  `begun` are the calls so far, in order, and
`done` the numbers of those that have written. -/
structure FilterState (T : Type) where
  params : Parameters
  lock : Option T
  logPerf : Bool
  logResult : Bool
  pc : T → Pc
  begun : List (Property × UInt32)
  done : List ℕ

/-- The steps of `gst_pvl_fd_filter_set_property`. -/
inductive FilterAct (T : Type)
  /-- The call begins: `pvl_face_detection_get_parameters`. -/
  | getParameters (t : T) (property : Property) (value : UInt32)
  /-- `GST_OBJECT_LOCK`. -/
  | lock (t : T)
  /-- The assignment to the copy and `pvl_face_detection_set_parameters`. -/
  | setParameters (t : T)
  /-- `GST_OBJECT_UNLOCK`, and the call returns. -/
  | unlock (t : T)
  | setLogPerf (t : T) (value : Bool)
  | setLogResult (t : T) (value : Bool)

variable {T : Type}

/-- One step. -/
def filterStep [DecidableEq T] (s : FilterState T) : FilterAct T → Option (FilterState T)
  | .getParameters t property value =>
    if s.pc t = .idle then
      some { s with
        pc := Function.update s.pc t (.read ⟨property, value, s.begun.length⟩ s.params)
        begun := s.begun ++ [(property, value)] }
    else none
  | .lock t =>
    match s.pc t with
    | .read call params =>
      if s.lock = none then
        some { s with lock := some t, pc := Function.update s.pc t (.locked call params) }
      else none
    | _ => none
  | .setParameters t =>
    match s.pc t with
    | .locked call params =>
      some { s with
        params := params.set call.value call.property
        pc := Function.update s.pc t .written
        done := call.number :: s.done }
    | _ => none
  | .unlock t =>
    if s.pc t = .written then
      some { s with lock := none, pc := Function.update s.pc t .idle }
    else none
  | .setLogPerf t value => if s.pc t = .idle then some { s with logPerf := value } else none
  | .setLogResult t value => if s.pc t = .idle then some { s with logResult := value } else none

/-- A filter with the record `initial`, before any call. -/
structure FilterInit (initial : Parameters) (s : FilterState T) : Prop where
  params : s.params = initial
  lock : s.lock = none
  pc : ∀ t, s.pc t = .idle
  begun : s.begun = []
  done : s.done = []

/-- No update is lost: a property that one call has set holds the value of this call, and one that no
call has set holds its initial value. -/
structure NoLostUpdate (initial : Parameters) (s : FilterState T) : Prop where
  set_once : ∀ (i : ℕ) (p : Property) (v : UInt32), s.begun[i]? = some (p, v) →
    (∀ (j : ℕ) (w : UInt32), s.begun[j]? = some (p, w) → j = i) → s.params.get p = v
  unset : ∀ p, (∀ (i : ℕ) (w : UInt32), s.begun[i]? ≠ some (p, w)) → s.params.get p = initial.get p

/-- A write of a copy that is up to date: no other property has changed since it was read. -/
def UpToDate (s : FilterState T) : FilterAct T → Prop
  | .setParameters t => ∀ call params, s.pc t = .locked call params →
      ∀ q, q ≠ call.property → params.get q = s.params.get q
  | _ => True

/-! ### The invariant -/

/-- The call a thread has still to write. -/
def Pc.call : Pc → Option Call
  | .read call _ => some call
  | .locked call _ => some call
  | _ => none

/-- Every call has written or is about to, and the record holds for every property the value of a call
that has written it, or the initial one if there is none. -/
structure FilterInv (initial : Parameters) (s : FilterState T) : Prop where
  begun : ∀ t call, (s.pc t).call = some call → s.begun[call.number]? = some (call.property, call.value)
  pending : ∀ i < s.begun.length, i ∈ s.done ∨ ∃ t call, (s.pc t).call = some call ∧ call.number = i
  holds : ∀ p, (∃ i ∈ s.done, s.begun[i]? = some (p, s.params.get p)) ∨
    (s.params.get p = initial.get p ∧ ∀ i ∈ s.done, ∃ q w, s.begun[i]? = some (q, w) ∧ q ≠ p)

theorem filterInv_init {initial : Parameters} {s : FilterState T} (h : FilterInit initial s) :
    FilterInv initial s := by
  refine ⟨fun t call hc => ?_, fun i hi => ?_, fun p => Or.inr ⟨by rw [h.params], fun i hi => ?_⟩⟩
  · rw [h.pc t] at hc
    cases hc
  · rw [h.begun] at hi
    cases hi
  · rw [h.done] at hi
    cases hi

section Step

variable {initial : Parameters} {s s' : FilterState T}

/-- Steps that only move a thread along do not matter. -/
theorem FilterInv.of_same (hi : FilterInv initial s) (hb : s'.begun = s.begun) (hd : s'.done = s.done)
    (hp : s'.params = s.params) (hc : ∀ t, (s'.pc t).call = (s.pc t).call) : FilterInv initial s' := by
  refine ⟨fun t call h => ?_, fun i h => ?_, fun p => ?_⟩
  · rw [hb]
    exact hi.begun t call ((hc t).symm.trans h)
  · rw [hb] at h
    rw [hd]
    rcases hi.pending i h with h | ⟨t, call, ht, hn⟩
    · exact Or.inl h
    · exact Or.inr ⟨t, call, (hc t).trans ht, hn⟩
  · rw [hb, hd, hp]
    exact hi.holds p

variable [DecidableEq T] {t : T}

theorem call_update {pc : Pc} (hc : pc.call = (s.pc t).call) (t' : T) :
    (Function.update s.pc t pc t').call = (s.pc t').call := by
  by_cases ht : t' = t
  · rw [ht, Function.update_self, hc]
  · rw [Function.update_of_ne ht]

/-- **A call begins.** -/
theorem FilterInv.getParameters (hi : FilterInv initial s) (hidle : s.pc t = .idle) (property : Property)
    (value : UInt32) : FilterInv initial { s with
      pc := Function.update s.pc t (.read ⟨property, value, s.begun.length⟩ s.params)
      begun := s.begun ++ [(property, value)] } := by
  have hkeep : ∀ {i : ℕ} {x : Property × UInt32}, s.begun[i]? = some x →
      (s.begun ++ [(property, value)])[i]? = some x := by
    intro i x hx
    rw [List.getElem?_append_left (List.getElem?_eq_some_iff.mp hx).1]
    exact hx
  refine ⟨fun t' call h => ?_, fun i hlt => ?_, fun p => ?_⟩
  · dsimp only at h ⊢
    by_cases ht : t' = t
    · rw [ht, Function.update_self] at h
      obtain rfl := Option.some.inj h
      exact List.getElem?_concat_length
    · rw [Function.update_of_ne ht] at h
      exact hkeep (hi.begun t' call h)
  · dsimp only at hlt ⊢
    rw [List.length_append, List.length_singleton] at hlt
    rcases Nat.lt_succ_iff_lt_or_eq.mp hlt with hlt | rfl
    · rcases hi.pending i hlt with h | ⟨t', call, h, hn⟩
      · exact Or.inl h
      · refine Or.inr ⟨t', call, ?_, hn⟩
        have ht : t' ≠ t := by
          rintro rfl
          rw [hidle] at h
          cases h
        rw [Function.update_of_ne ht]
        exact h
    · refine Or.inr ⟨t, ⟨property, value, s.begun.length⟩, ?_, rfl⟩
      rw [Function.update_self]
      rfl
  · rcases hi.holds p with ⟨i, hd, hb⟩ | ⟨hv, hd⟩
    · exact Or.inl ⟨i, hd, hkeep hb⟩
    · refine Or.inr ⟨hv, fun i h => ?_⟩
      obtain ⟨q, w, hb, hq⟩ := hd i h
      exact ⟨q, w, hkeep hb, hq⟩

/-- **A call writes** a copy that is up to date. -/
theorem FilterInv.setParameters (hi : FilterInv initial s) {call : Call} {params : Parameters}
    (hp : s.pc t = .locked call params)
    (hfresh : ∀ q, q ≠ call.property → params.get q = s.params.get q) : FilterInv initial { s with
      params := params.set call.value call.property
      pc := Function.update s.pc t .written
      done := call.number :: s.done } := by
  have hcall : (s.pc t).call = some call := by
    rw [hp]
    rfl
  have hb := hi.begun t call hcall
  refine ⟨fun t' call' h => ?_, fun i hlt => ?_, fun p => ?_⟩
  · dsimp only at h ⊢
    by_cases ht : t' = t
    · rw [ht, Function.update_self] at h
      cases h
    · rw [Function.update_of_ne ht] at h
      exact hi.begun t' call' h
  · dsimp only
    rcases hi.pending i hlt with h | ⟨t', call', h, hn⟩
    · exact Or.inl (List.mem_cons_of_mem _ h)
    · by_cases ht : t' = t
      · rw [ht, hcall] at h
        obtain rfl := Option.some.inj h
        exact Or.inl (hn ▸ List.mem_cons_self)
      · refine Or.inr ⟨t', call', ?_, hn⟩
        rw [Function.update_of_ne ht]
        exact h
  · dsimp only
    by_cases hq : p = call.property
    · refine Or.inl ⟨call.number, List.mem_cons_self, ?_⟩
      rw [hq, Parameters.get_set]
      exact hb
    · rw [Parameters.get_set_ne _ _ hq, hfresh p hq]
      rcases hi.holds p with ⟨i, hd, hb'⟩ | ⟨hv, hd⟩
      · exact Or.inl ⟨i, List.mem_cons_of_mem _ hd, hb'⟩
      · refine Or.inr ⟨hv, fun i h => ?_⟩
        rcases List.mem_cons.mp h with rfl | h
        · exact ⟨_, _, hb, Ne.symm hq⟩
        · exact hd i h

/-- **One step** of a run in which every copy written is up to date. -/
theorem FilterInv.step (hi : FilterInv initial s) {a : FilterAct T} (ha : UpToDate s a)
    (hst : filterStep s a = some s') : FilterInv initial s' := by
  cases a with
  | getParameters t property value =>
    obtain ⟨hidle, rfl⟩ := guarded hst
    exact hi.getParameters hidle property value
  | lock t =>
    simp only [filterStep] at hst
    split at hst
    · next call params hp =>
      split_ifs at hst
      obtain rfl := Option.some.inj hst
      exact hi.of_same rfl rfl rfl (call_update (by rw [hp]; rfl))
    · cases hst
  | setParameters t =>
    simp only [filterStep] at hst
    split at hst
    · next call params hp =>
      obtain rfl := Option.some.inj hst
      exact hi.setParameters hp (ha call params hp)
    · cases hst
  | unlock t =>
    obtain ⟨hp, rfl⟩ := guarded hst
    exact hi.of_same rfl rfl rfl (call_update (by rw [hp]; rfl))
  | setLogPerf t value =>
    simp only [filterStep] at hst
    split_ifs at hst
    obtain rfl := Option.some.inj hst
    exact hi.of_same rfl rfl rfl fun _ => rfl
  | setLogResult t value =>
    simp only [filterStep] at hst
    split_ifs at hst
    obtain rfl := Option.some.inj hst
    exact hi.of_same rfl rfl rfl fun _ => rfl

end Step

/-- When all calls have returned, the invariant says that no update is lost. -/
theorem FilterInv.noLostUpdate {initial : Parameters} {s : FilterState T} (hi : FilterInv initial s)
    (hidle : ∀ t, s.pc t = .idle) : NoLostUpdate initial s := by
  have hdone : ∀ i < s.begun.length, i ∈ s.done := by
    intro i hlt
    rcases hi.pending i hlt with h | ⟨t, call, h, -⟩
    · exact h
    · rw [hidle t] at h
      cases h
  refine ⟨fun i p v hb honce => ?_, fun p hnone => ?_⟩
  · rcases hi.holds p with ⟨j, -, hj⟩ | ⟨-, hd⟩
    · rw [honce j _ hj, hb] at hj
      exact (Prod.mk.inj (Option.some.inj hj)).2.symm
    · obtain ⟨q, w, hq, hne⟩ := hd i (hdone i (List.getElem?_eq_some_iff.mp hb).1)
      rw [hb] at hq
      exact absurd (Prod.mk.inj (Option.some.inj hq)).1.symm hne
  · rcases hi.holds p with ⟨j, -, hj⟩ | ⟨hv, -⟩
    · exact absurd hj (hnone j _)
    · exact hv

/-- **No update is lost** in a run of any number of threads in which every copy that is written is up to
date in the other properties. -/
theorem reach_noLostUpdate [DecidableEq T] {initial : Parameters} {s : FilterState T}
    (h : Reach filterStep UpToDate (FilterInit initial) s) (hidle : ∀ t, s.pc t = .idle) :
    NoLostUpdate initial s := by
  have hi : FilterInv initial s := h.invariant (I := fun s : FilterState T => FilterInv initial s)
    (fun _ h0 => filterInv_init h0) fun _ _ _ _ hi ha hst => hi.step ha hst
  exact hi.noLostUpdate hidle

/-- A filter with the record `⟨32, 0, 15, 15, 15⟩` and two threads. -/
def quietFilter : FilterState Bool :=
  ⟨⟨32, 0, 15, 15, 15⟩, none, false, false, fun _ => .idle, [], []⟩

theorem quietFilter_init : FilterInit ⟨32, 0, 15, 15, 15⟩ quietFilter :=
  ⟨rfl, rfl, fun _ => rfl, rfl, rfl⟩

instance : Fintype Property :=
  ⟨⟨([.maxDetectableFaces, .minFaceRatio, .ripRange, .ropRange, .numRolloverFrames] : List Property),
    by decide⟩, fun p => by cases p <;> decide⟩

/-- The call that has the lock, with its copy of the record. -/
def Pc.copy : Pc → Option (Call × Parameters)
  | .locked call params => some (call, params)
  | _ => none

instance (s : FilterState T) : (act : FilterAct T) → Decidable (UpToDate s act)
  | .setParameters t =>
    decidable_of_iff (∀ c ∈ (s.pc t).copy, ∀ q, q ≠ c.1.property → c.2.get q = s.params.get q) (by
      have hiff : ∀ pc : Pc, (∀ c ∈ pc.copy, ∀ q, q ≠ c.1.property → c.2.get q = s.params.get q) ↔
          ∀ call params, pc = .locked call params →
            ∀ q, q ≠ call.property → params.get q = s.params.get q := by
        intro pc
        cases pc <;> simp [Pc.copy]
      exact hiff (s.pc t))
  | .getParameters .. | .lock _ | .unlock _ | .setLogPerf .. | .setLogResult .. => .isTrue trivial

/-- Three calls of two threads, each of which begins before the one before it has returned. -/
def overlapping : List (FilterAct Bool) :=
  [.getParameters true .maxDetectableFaces 5, .lock true, .setParameters true,
    .getParameters false .ripRange 30, .unlock true, .lock false, .setParameters false,
    .getParameters true .ropRange 20, .unlock false, .lock true, .setParameters true, .unlock true]

theorem reach_noLostUpdate_overlapping : ∃ s : FilterState Bool,
    Reach filterStep UpToDate (FilterInit ⟨32, 0, 15, 15, 15⟩) s ∧
      s.begun = [(.maxDetectableFaces, 5), (.ripRange, 30), (.ropRange, 20)] ∧
      NoLostUpdate ⟨32, 0, 15, 15, 15⟩ s := by
  have he : (exec filterStep UpToDate quietFilter overlapping).map
      (fun s => (s.pc true, s.pc false, s.begun)) =
        some (.idle, .idle, [(.maxDetectableFaces, 5), (.ripRange, 30), (.ropRange, 20)]) := by decide
  obtain ⟨s, hr, hs⟩ := Reach.of_exec quietFilter_init he
  obtain ⟨h1, h2, h3⟩ : s.pc true = .idle ∧ s.pc false = .idle ∧
      s.begun = [(.maxDetectableFaces, 5), (.ripRange, 30), (.ropRange, 20)] := by simpa using hs
  refine ⟨s, hr, h3, reach_noLostUpdate hr fun t => ?_⟩
  cases t
  · exact h2
  · exact h1

/-- Two calls read the record before either of them writes it; the second write undoes the first. -/
theorem reach_lostUpdate : ¬ ∀ (initial : Parameters) (s : FilterState Bool),
    Reach filterStep (fun _ _ => True) (FilterInit initial) s → (∀ t, s.pc t = .idle) →
      NoLostUpdate initial s := by
  intro h
  have he : (exec filterStep (fun _ _ => True) quietFilter
      [.getParameters true .maxDetectableFaces 5, .getParameters false .ripRange 30, .lock true,
        .setParameters true, .unlock true, .lock false, .setParameters false, .unlock false]).map
      (fun s => (s.pc true, s.pc false, s.begun, s.params)) =
        some (.idle, .idle, [(.maxDetectableFaces, 5), (.ripRange, 30)], ⟨32, 0, 30, 15, 15⟩) := by
    decide
  obtain ⟨s, hr, hs⟩ := Reach.of_exec quietFilter_init he
  obtain ⟨h1, h2, h3, h4⟩ : s.pc true = .idle ∧ s.pc false = .idle ∧
      s.begun = [(.maxDetectableFaces, 5), (.ripRange, 30)] ∧ s.params = ⟨32, 0, 30, 15, 15⟩ := by
    simpa using hs
  have hset := (h _ s hr fun t => by cases t; exact h2; exact h1).set_once 0 .maxDetectableFaces 5
    (by rw [h3]; rfl) (fun j w hj => by
      rw [h3] at hj
      rcases j with _ | _ | j
      · rfl
      · cases hj
      · cases hj)
  rw [h4] at hset
  exact absurd hset (by decide)

end FaceDetection

end IntelCamera
