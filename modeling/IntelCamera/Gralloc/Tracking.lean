import IntelCamera.Lib.Runs
import IntelCamera.Lib.SortedVector
import Mathlib.Data.Fintype.Basic
import Mathlib.Logic.Function.Basic

/-!
# Gralloc.Tracking — the records of `GraphicBufferAllocator`

`alloc` asks the gralloc device for a buffer and then, under `sLock`, adds a record to `sAllocList`;
`free` gives the buffer back to the device and then removes the record.  The device call and the list
update are separate steps, so the calls of other threads come in between.  `live` is what the device
knows: the buffers in use, with what they were allocated for.

The records and the buffers in use agree whenever no call is in progress (`Tracked`), in every run in
which no address is handed out again while its old record is still to be removed, and no buffer is
freed while its own record is still to be added.  A single reused address is enough to break it.
-/

namespace IntelCamera

open Lib

namespace Gralloc

/-- `bytesPerPixel` (`PixelFormat.cpp`). -/
def bytesPerPixel (format : Int32) : UInt32 :=
  if format = 1 ∨ format = 2 ∨ format = 5 then 4
  else if format = 3 then 3
  else if format = 4 ∨ format = 6 ∨ format = 7 then 2
  else 0

/-- `GRALLOC_USAGE_ALLOC_MASK`: all but `GRALLOC_USAGE_FOREIGN_BUFFERS`. -/
def usageAllocMask : UInt32 := ~~~0x00200000

/-- `alloc_rec_t`. -/
structure AllocRec where
  width : UInt32
  height : UInt32
  stride : UInt32
  format : Int32
  usage : UInt32
  size : UInt64
deriving DecidableEq, Repr

/-- A buffer of the device: what `mAllocDev->alloc` was asked for, and the stride it gave. -/
structure Buffer where
  width : UInt32
  height : UInt32
  stride : UInt32
  format : Int32
  usage : UInt32
deriving DecidableEq, Repr

/-- The record that `alloc` adds. -/
def Buffer.allocRec (b : Buffer) : AllocRec :=
  ⟨b.width, b.height, b.stride, b.format, b.usage,
    (b.height * b.stride * bytesPerPixel b.format).toUInt64⟩

/-- The arguments of `alloc` as they are passed on to the device: a buffer without pixels is allocated
as one of a single pixel, and some usage bits are filtered out. -/
def requested (width height : UInt32) (format : Int32) (usage : UInt32) (outStride : Int32) : Buffer :=
  let empty := width = 0 ∨ height = 0
  ⟨if empty then 1 else width, if empty then 1 else height, outStride.toUInt32, format,
    usage &&& usageAllocMask⟩

/-- Where a thread is: outside, or between the device call and the list update of `alloc` or of
`free`. -/
inductive Pc
  | idle
  | adding (handle : ℕ) (buffer : Buffer)
  | removing (handle : ℕ)
deriving DecidableEq, Repr

/-- The device, `sAllocList` and the threads. -/
structure AllocState (T : Type) where
  live : ℕ → Option Buffer
  allocList : List (ℕ × AllocRec)
  pc : T → Pc

/-- The steps of a thread.  The device call of `alloc` fails or returns a handle and a stride. -/
inductive AllocAct (T : Type)
  | alloc (t : T) (width height : UInt32) (format : Int32) (usage : UInt32)
      (outcome : Option (ℕ × Int32))
  | addRecord (t : T)
  | free (t : T) (handle : ℕ)
  | removeRecord (t : T)

variable {T : Type}

/-- One step.  The device returns no handle that is in use, and only a handle in use is freed. -/
def allocStep [DecidableEq T] (s : AllocState T) : AllocAct T → Option (AllocState T)
  | .alloc t width height format usage outcome =>
    if s.pc t = .idle then
      match outcome with
      | none => some s
      | some (handle, outStride) =>
        let buffer := requested width height format usage outStride
        if s.live handle = none then
          some { s with
            live := Function.update s.live handle (some buffer)
            pc := Function.update s.pc t (.adding handle buffer) }
        else none
    else none
  | .addRecord t =>
    match s.pc t with
    | .adding handle buffer =>
      some { s with
        allocList := sortedAdd s.allocList handle buffer.allocRec
        pc := Function.update s.pc t .idle }
    | _ => none
  | .free t handle =>
    if s.pc t = .idle ∧ (s.live handle).isSome then
      some { s with
        live := Function.update s.live handle none
        pc := Function.update s.pc t (.removing handle) }
    else none
  | .removeRecord t =>
    match s.pc t with
    | .removing handle =>
      some { s with
        allocList := sortedRemove s.allocList handle
        pc := Function.update s.pc t .idle }
    | _ => none

/-- No buffers, no records, no calls. -/
def AllocInit (s : AllocState T) : Prop :=
  (∀ h, s.live h = none) ∧ s.allocList = [] ∧ ∀ t, s.pc t = .idle

/-- The records are those of the buffers in use. -/
structure Tracked (s : AllocState T) : Prop where
  sorted : StrictlySorted s.allocList
  keys : ∀ h, h ∈ s.allocList.map (·.1) ↔ (s.live h).isSome
  records : ∀ h r, (h, r) ∈ s.allocList → ∃ b, s.live h = some b ∧ r.width = b.width ∧
    r.height = b.height ∧ r.stride = b.stride ∧ r.format = b.format ∧ r.usage = b.usage

/-- The steps that do not meet a list update of another call on the same address: a handle that is
returned has no record to be removed, and one that is freed has no record to be added. -/
def Unraced (s : AllocState T) : AllocAct T → Prop
  | .alloc _ _ _ _ _ (some (handle, _)) => ∀ t, s.pc t ≠ .removing handle
  | .free _ handle => ∀ t b, s.pc t ≠ .adding handle b
  | _ => True

/-! ### The invariant -/

/-- A thread has an update for this address ahead of it. -/
def Pending (s : AllocState T) (h : ℕ) (t : T) : Prop :=
  (∃ b, s.pc t = .adding h b) ∨ s.pc t = .removing h

/-- The three situations of an address: no update is ahead and the records agree with the device; its
record is to be added by one thread; its record is to be removed by one thread. -/
inductive Situation (s : AllocState T) (h : ℕ) : Prop
  | settled (quiet : ∀ t, ¬ Pending s h t)
      (agree : ∀ r, (h, r) ∈ s.allocList ↔ ∃ b, s.live h = some b ∧ r = b.allocRec)
  | adding (t : T) (b : Buffer) (pc : s.pc t = .adding h b) (one : ∀ t', Pending s h t' → t' = t)
      (live : s.live h = some b) (absent : ∀ r, (h, r) ∉ s.allocList)
  | removing (t : T) (pc : s.pc t = .removing h) (one : ∀ t', Pending s h t' → t' = t)
      (live : s.live h = none)

/-- The list is sorted, and every address is in one of the three situations. -/
structure AllocInv (s : AllocState T) : Prop where
  sorted : StrictlySorted s.allocList
  at_ : ∀ h, Situation s h

theorem allocInv_init {s : AllocState T} (h : AllocInit s) : AllocInv s := by
  obtain ⟨hlive, hlist, hpc⟩ := h
  refine ⟨?_, fun h => .settled (fun t hp => ?_) (fun r => ?_)⟩
  · rw [hlist]
    exact List.Pairwise.nil
  · rcases hp with ⟨b, hp⟩ | hp
    · rw [hpc t] at hp
      cases hp
    · rw [hpc t] at hp
      cases hp
  · rw [hlist, hlive h]
    simp

/-- Two states that look the same at an address. -/
structure SameAt (s s' : AllocState T) (h : ℕ) : Prop where
  live : s'.live h = s.live h
  list : ∀ r, (h, r) ∈ s'.allocList ↔ (h, r) ∈ s.allocList
  adding : ∀ t b, s'.pc t = .adding h b ↔ s.pc t = .adding h b
  removing : ∀ t, s'.pc t = .removing h ↔ s.pc t = .removing h

theorem SameAt.situation {s s' : AllocState T} {h : ℕ} (hsame : SameAt s s' h)
    (hs : Situation s h) : Situation s' h := by
  have hpend : ∀ t, Pending s' h t ↔ Pending s h t := by
    intro t
    unfold Pending
    simp only [hsame.adding, hsame.removing]
  cases hs with
  | settled quiet agree =>
    refine .settled (fun t hp => quiet t ((hpend t).mp hp)) fun r => ?_
    rw [hsame.list, hsame.live]
    exact agree r
  | adding t b pc one live absent =>
    exact .adding t b ((hsame.adding t b).mpr pc) (fun t' hp => one t' ((hpend t').mp hp))
      (hsame.live.trans live) fun r hr => absent r ((hsame.list r).mp hr)
  | removing t pc one live =>
    exact .removing t ((hsame.removing t).mpr pc) (fun t' hp => one t' ((hpend t').mp hp))
      (hsame.live.trans live)

variable [DecidableEq T]

section Step

variable {s : AllocState T} {t : T} {h : ℕ} {pc : Pc}

/-- What a step of `t` on the address `h` leaves at another address. -/
theorem sameAt_of_ne {s' : AllocState T} {h' : ℕ} (hne : h' ≠ h)
    (hlive : s'.live h' = s.live h') (hlist : ∀ r, (h', r) ∈ s'.allocList ↔ (h', r) ∈ s.allocList)
    (hold : s.pc t = .idle ∨ Pending s h t) (hpc : s'.pc = Function.update s.pc t pc)
    (hnew : pc = .idle ∨ (∃ b, pc = .adding h b) ∨ pc = .removing h) : SameAt s s' h' := by
  have hadd : ∀ b, s.pc t ≠ .adding h' b ∧ pc ≠ .adding h' b := by
    intro b
    constructor
    · rintro hp
      rcases hold with ho | ⟨b', ho⟩ | ho
      · rw [ho] at hp; cases hp
      · rw [ho] at hp; cases hp; exact hne rfl
      · rw [ho] at hp; cases hp
    · rintro rfl
      rcases hnew with hn | ⟨b', hn⟩ | hn
      · cases hn
      · cases hn; exact hne rfl
      · cases hn
  have hrem : s.pc t ≠ .removing h' ∧ pc ≠ .removing h' := by
    constructor
    · rintro hp
      rcases hold with ho | ⟨b', ho⟩ | ho
      · rw [ho] at hp; cases hp
      · rw [ho] at hp; cases hp
      · rw [ho] at hp; cases hp; exact hne rfl
    · rintro rfl
      rcases hnew with hn | ⟨b', hn⟩ | hn
      · cases hn
      · cases hn
      · cases hn; exact hne rfl
  refine ⟨hlive, hlist, fun t' b => ?_, fun t' => ?_⟩
  · rw [hpc]
    by_cases ht : t' = t
    · rw [ht, Function.update_self]
      exact iff_of_false (hadd b).2 (hadd b).1
    · rw [Function.update_of_ne ht]
  · rw [hpc]
    by_cases ht : t' = t
    · rw [ht, Function.update_self]
      exact iff_of_false hrem.2 hrem.1
    · rw [Function.update_of_ne ht]

/-- The other threads have ahead what they had. -/
theorem pending_of_ne {s' : AllocState T} {t' : T} (hpc : s'.pc = Function.update s.pc t pc)
    (ht : t' ≠ t) (hp : Pending s' h t') : Pending s h t' := by
  unfold Pending at hp ⊢
  rwa [hpc, Function.update_of_ne ht] at hp

/-- The only thread with an update ahead has made it. -/
theorem quiet_of_one {s' : AllocState T} (hpc : s'.pc = Function.update s.pc t .idle)
    (one : ∀ t', Pending s h t' → t' = t) (t' : T) : ¬ Pending s' h t' := by
  intro hp
  by_cases ht : t' = t
  · subst ht
    unfold Pending at hp
    rw [hpc, Function.update_self] at hp
    rcases hp with ⟨b, hp⟩ | hp
    · cases hp
    · cases hp
  · exact ht (one t' (pending_of_ne hpc ht hp))

omit [DecidableEq T] in
/-- The situation of an address a thread is about to update is that of this thread. -/
theorem AllocInv.of_adding (hi : AllocInv s) {b : Buffer} (hp : s.pc t = .adding h b) :
    (∀ t', Pending s h t' → t' = t) ∧ s.live h = some b ∧ ∀ r, (h, r) ∉ s.allocList := by
  cases hi.at_ h with
  | settled quiet _ => exact absurd (Or.inl ⟨b, hp⟩) (quiet t)
  | adding t' b' pc one live absent =>
    obtain rfl := one t (Or.inl ⟨b, hp⟩)
    rw [hp] at pc
    cases pc
    exact ⟨one, live, absent⟩
  | removing t' pc one live =>
    obtain rfl := one t (Or.inl ⟨b, hp⟩)
    rw [hp] at pc
    cases pc

omit [DecidableEq T] in
theorem AllocInv.of_removing (hi : AllocInv s) (hp : s.pc t = .removing h) :
    (∀ t', Pending s h t' → t' = t) ∧ s.live h = none := by
  cases hi.at_ h with
  | settled quiet _ => exact absurd (Or.inr hp) (quiet t)
  | adding t' b' pc one live absent =>
    obtain rfl := one t (Or.inr hp)
    rw [hp] at pc
    cases pc
  | removing t' pc one live =>
    obtain rfl := one t (Or.inr hp)
    exact ⟨one, live⟩

/-- **The device returns a handle** without an update ahead. -/
theorem AllocInv.alloc (hi : AllocInv s) {b : Buffer} (hidle : s.pc t = .idle) (hlive : s.live h = none)
    (hrem : ∀ t, s.pc t ≠ .removing h) :
    AllocInv { s with
      live := Function.update s.live h (some b), pc := Function.update s.pc t (.adding h b) } := by
  refine ⟨hi.sorted, fun h' => ?_⟩
  by_cases hne : h' = h
  · subst hne
    cases hi.at_ h' with
    | settled quiet agree =>
      refine .adding t b (Function.update_self ..) (fun t' hp => ?_) (Function.update_self ..)
        fun r hr => ?_
      · by_contra ht
        exact quiet t' (pending_of_ne rfl ht hp)
      · obtain ⟨b', hb', -⟩ := (agree r).mp hr
        rw [hlive] at hb'
        cases hb'
    | adding t' b' pc one live absent =>
      rw [hlive] at live
      cases live
    | removing t' pc one live => exact absurd pc (hrem t')
  · refine SameAt.situation ?_ (hi.at_ h')
    exact sameAt_of_ne hne (Function.update_of_ne hne ..) (fun _ => Iff.rfl) (Or.inl hidle) rfl
      (Or.inr (Or.inl ⟨b, rfl⟩))

/-- **The record is added.** -/
theorem AllocInv.addRecord (hi : AllocInv s) {b : Buffer} (hp : s.pc t = .adding h b) :
    AllocInv { s with
      allocList := sortedAdd s.allocList h b.allocRec, pc := Function.update s.pc t .idle } := by
  obtain ⟨hs, hmem⟩ := sortedAdd_spec hi.sorted h b.allocRec
  obtain ⟨one, live, -⟩ := hi.of_adding hp
  refine ⟨hs, fun h' => ?_⟩
  by_cases hne : h' = h
  · subst hne
    refine .settled (quiet_of_one rfl one) fun r => ?_
    dsimp only
    rw [hmem, live]
    constructor
    · rintro (he | ⟨hk, -⟩)
      · exact ⟨b, rfl, (Prod.mk.inj he).2⟩
      · exact absurd rfl hk
    · rintro ⟨b', hb', rfl⟩
      obtain rfl := Option.some.inj hb'
      exact Or.inl rfl
  · refine SameAt.situation ?_ (hi.at_ h')
    refine sameAt_of_ne hne rfl (fun r => ?_) (Or.inr (Or.inl ⟨b, hp⟩)) rfl (Or.inl rfl)
    rw [hmem]
    constructor
    · rintro (he | ⟨-, hr⟩)
      · exact absurd (Prod.mk.inj he).1 hne
      · exact hr
    · intro hr
      exact Or.inr ⟨hne, hr⟩

/-- **A buffer is given back** whose record has been added. -/
theorem AllocInv.free (hi : AllocInv s) (hidle : s.pc t = .idle) (hlive : (s.live h).isSome)
    (hadd : ∀ t b, s.pc t ≠ .adding h b) :
    AllocInv { s with
      live := Function.update s.live h none, pc := Function.update s.pc t (.removing h) } := by
  refine ⟨hi.sorted, fun h' => ?_⟩
  by_cases hne : h' = h
  · subst hne
    cases hi.at_ h' with
    | settled quiet agree =>
      refine .removing t (Function.update_self ..) (fun t' hp => ?_) (Function.update_self ..)
      by_contra ht
      exact quiet t' (pending_of_ne rfl ht hp)
    | adding t' b' pc one live absent => exact absurd pc (hadd t' b')
    | removing t' pc one live =>
      rw [live] at hlive
      cases hlive
  · refine SameAt.situation ?_ (hi.at_ h')
    exact sameAt_of_ne hne (Function.update_of_ne hne ..) (fun _ => Iff.rfl) (Or.inl hidle) rfl
      (Or.inr (Or.inr rfl))

/-- **The record is removed.** -/
theorem AllocInv.removeRecord (hi : AllocInv s) (hp : s.pc t = .removing h) :
    AllocInv { s with
      allocList := sortedRemove s.allocList h, pc := Function.update s.pc t .idle } := by
  obtain ⟨hs, hmem⟩ := sortedRemove_spec hi.sorted h
  obtain ⟨one, live⟩ := hi.of_removing hp
  refine ⟨hs, fun h' => ?_⟩
  by_cases hne : h' = h
  · subst hne
    refine .settled (quiet_of_one rfl one) fun r => ?_
    dsimp only
    rw [hmem, live]
    constructor
    · rintro ⟨hk, -⟩
      exact absurd rfl hk
    · rintro ⟨b', hb', -⟩
      cases hb'
  · refine SameAt.situation ?_ (hi.at_ h')
    refine sameAt_of_ne hne rfl (fun r => ?_) (Or.inr (Or.inr hp)) rfl (Or.inl rfl)
    rw [hmem]
    exact ⟨fun hr => hr.2, fun hr => ⟨hne, hr⟩⟩

/-- **One step** that meets no update of another call. -/
theorem AllocInv.step (hi : AllocInv s) {a : AllocAct T} {s' : AllocState T} (ha : Unraced s a)
    (hst : allocStep s a = some s') : AllocInv s' := by
  cases a with
  | alloc t width height format usage outcome =>
    simp only [allocStep] at hst
    split_ifs at hst with hidle
    rcases outcome with _ | ⟨handle, outStride⟩
    · obtain rfl := Option.some.inj hst
      exact hi
    · dsimp only at hst
      split_ifs at hst with hlive
      obtain rfl := Option.some.inj hst
      exact hi.alloc hidle hlive ha
  | addRecord t =>
    simp only [allocStep] at hst
    split at hst
    · next handle buffer hp =>
      obtain rfl := Option.some.inj hst
      exact hi.addRecord hp
    · cases hst
  | free t handle =>
    obtain ⟨hg, rfl⟩ := guarded hst
    exact hi.free hg.1 hg.2 ha
  | removeRecord t =>
    simp only [allocStep] at hst
    split at hst
    · next handle hp =>
      obtain rfl := Option.some.inj hst
      exact hi.removeRecord hp
    · cases hst

end Step

omit [DecidableEq T] in
/-- Without a call in progress the invariant is what the records are for. -/
theorem AllocInv.tracked {s : AllocState T} (hi : AllocInv s) (hidle : ∀ t, s.pc t = .idle) :
    Tracked s := by
  have hagree : ∀ h r, (h, r) ∈ s.allocList ↔ ∃ b, s.live h = some b ∧ r = b.allocRec := by
    intro h
    cases hi.at_ h with
    | settled quiet agree => exact agree
    | adding t b pc =>
      rw [hidle t] at pc
      cases pc
    | removing t pc =>
      rw [hidle t] at pc
      cases pc
  refine ⟨hi.sorted, fun h => ?_, fun h r hr => ?_⟩
  · rw [List.mem_map, Option.isSome_iff_exists]
    constructor
    · rintro ⟨⟨h', r⟩, hr, rfl⟩
      obtain ⟨b, hb, -⟩ := (hagree h' r).mp hr
      exact ⟨b, hb⟩
    · rintro ⟨b, hb⟩
      exact ⟨(h, b.allocRec), (hagree h _).mpr ⟨b, hb, rfl⟩, rfl⟩
  · obtain ⟨b, hb, rfl⟩ := (hagree h r).mp hr
    exact ⟨b, hb, rfl, rfl, rfl, rfl, rfl⟩

/-- **The records are those of the buffers in use**, whenever no call is in progress, in every run of
any number of threads whose steps are unraced. -/
theorem reach_tracked {s : AllocState T} (h : Reach allocStep Unraced AllocInit s)
    (hidle : ∀ t, s.pc t = .idle) : Tracked s := by
  have hi : AllocInv s := h.invariant (I := fun s : AllocState T => AllocInv s)
    (fun _ h0 => allocInv_init h0) fun _ _ _ _ hi ha hst => hi.step ha hst
  exact hi.tracked hidle

/-- Two threads, nothing allocated. -/
def noBuffers : AllocState Bool := ⟨fun _ => none, [], fun _ => .idle⟩

theorem noBuffers_init : AllocInit noBuffers := ⟨fun _ => rfl, rfl, fun _ => rfl⟩

/-- The address whose record a thread is to add. -/
def Pc.handleToAdd : Pc → Option ℕ
  | .adding handle _ => some handle
  | _ => none

instance [Fintype T] (s : AllocState T) : (act : AllocAct T) → Decidable (Unraced s act)
  | .alloc _ _ _ _ _ (some _) => inferInstanceAs (Decidable (∀ _, _ ≠ _))
  | .free _ handle =>
    decidable_of_iff (∀ t, (s.pc t).handleToAdd ≠ some handle) (by
      refine forall_congr' fun t => ?_
      cases s.pc t <;> simp [Pc.handleToAdd])
  | .alloc _ _ _ _ _ none | .addRecord _ | .removeRecord _ => .isTrue trivial

/-- Two threads allocate and free in turns.  The address 5 is freed by one of them while the other is
between its device call and its list update, and it is returned again once its old record is gone. -/
def turns : List (AllocAct Bool) :=
  [.alloc true 64 48 1 0x200033 (some (5, 64)), .alloc false 16 16 4 0x33 (some (9, 16)),
    .addRecord true, .free true 5, .addRecord false, .removeRecord true,
    .alloc false 32 32 1 0x33 (some (5, 32)), .alloc true 8 8 4 0x33 (some (7, 8)), .addRecord true,
    .addRecord false]

theorem reach_tracked_turns : ∃ s : AllocState Bool, Reach allocStep Unraced AllocInit s ∧
    s.allocList.map (fun p => (p.1, p.2.width)) = [(5, 32), (7, 8), (9, 16)] ∧ Tracked s := by
  have he : (exec allocStep Unraced noBuffers turns).map (fun s =>
      (s.pc true, s.pc false, s.allocList.map fun p => (p.1, p.2.width))) =
        some (.idle, .idle, [(5, 32), (7, 8), (9, 16)]) := by decide
  obtain ⟨s, hr, hs⟩ := Reach.of_exec noBuffers_init he
  obtain ⟨h1, h2, h3⟩ : s.pc true = .idle ∧ s.pc false = .idle ∧
      s.allocList.map (fun p => (p.1, p.2.width)) = [(5, 32), (7, 8), (9, 16)] := by simpa using hs
  refine ⟨s, hr, h3, reach_tracked hr fun t => ?_⟩
  cases t
  · exact h2
  · exact h1

/-- A freed address is returned to another thread, which records it before the first thread removes the
record it left behind: the buffer is in use and has no record. -/
theorem reach_not_tracked : ¬ ∀ s : AllocState Bool, Reach allocStep (fun _ _ => True) AllocInit s →
    (∀ t, s.pc t = .idle) → Tracked s := by
  intro h
  have he : (exec allocStep (fun _ _ => True) noBuffers
      [.alloc true 64 48 1 0x33 (some (5, 64)), .addRecord true, .free true 5,
        .alloc false 32 32 1 0x33 (some (5, 32)), .addRecord false, .removeRecord true]).map
      (fun s => (s.pc true, s.pc false, s.allocList, (s.live 5).isSome)) =
        some (.idle, .idle, [], true) := by decide
  obtain ⟨s, hr, hs⟩ := Reach.of_exec noBuffers_init he
  obtain ⟨h1, h2, h3, h4⟩ : s.pc true = .idle ∧ s.pc false = .idle ∧ s.allocList = [] ∧
      (s.live 5).isSome = true := by simpa using hs
  have hkey := ((h s hr (fun t => by cases t; exact h2; exact h1)).keys 5).mpr h4
  rw [h3] at hkey
  cases hkey

end Gralloc

end IntelCamera
