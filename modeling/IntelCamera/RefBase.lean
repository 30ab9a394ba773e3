import IntelCamera.Lib.Runs
import IntelCamera.Lib.Tally
import Mathlib.Tactic.Cases
import Mathlib.Tactic.NormNum

/-!
# RefBase — strong and weak references (`RefBase.cpp`)

An object and its `weakref_impl` have two counters that any number of threads change with atomic
operations.  A strong reference counts in both.  The strong counter starts at `INITIAL_STRONG_VALUE`,
which the first strong reference takes off again; until then the object lives with its weak references.

The steps here are single atomic operations, loads, callbacks and deletes, of any number of threads in
any order.  A thread owns the references it has taken and may give them to another thread.  The
callbacks are those of `RefBase` itself, apart from `onIncStrongAttempted`, which may also refuse.
`DEBUG_REFS` is not defined.
-/

namespace IntelCamera

open Lib

namespace RefBase

/-! ### The code -/

/-- `INITIAL_STRONG_VALUE`. -/
def initialStrongValue : ℤ := 2 ^ 28

/-- `mFlags & OBJECT_LIFETIME_MASK`. -/
inductive Lifetime
  | strong | weak
deriving DecidableEq, Repr

/-- Where a thread is: what it does next. -/
inductive Pc
  | idle
  -- `incStrong`
  | incStrong | subInitial | onFirstRef
  -- `decStrong`
  | decStrong | onLastStrongRef | deleteThis
  -- `decWeak`
  | decWeak | lastWeak | onLastWeakRef | deleteBase | deleteImpl
  -- `attemptIncStrong`: the first loop, the second loop, the extended lifetime, and the end
  | attempt | promote (curCount : ℤ)
  | attemptInitial | promoteInitial (curCount : ℤ)
  | onIncStrongAttempted | revive | unneeded
  | fixUp | fixUpInitial (curCount : ℤ)
  -- `attemptIncWeak`
  | attemptWeak | promoteWeak (curCount : ℤ)
deriving DecidableEq, Repr

/-- A thread with the strong and weak references it owns. -/
structure Thread where
  sp : ℕ
  wp : ℕ
  pc : Pc
deriving DecidableEq, Repr

/-- The counters, how often the object was deleted and its `weakref_impl` freed, and how often one of
them was used after that or an assertion failed. -/
structure Shared where
  mStrong : ℤ
  mWeak : ℤ
  deleted : ℕ
  freed : ℕ
  faults : ℕ
deriving DecidableEq, Repr

/-- A use of the `weakref_impl`. -/
def Shared.useImpl (sh : Shared) : Shared :=
  { sh with faults := sh.faults + if sh.freed = 0 then 0 else 1 }

/-- A use of the object. -/
def Shared.useBase (sh : Shared) : Shared :=
  { sh with faults := sh.faults + if sh.deleted = 0 then 0 else 1 }

/-- `ALOG_ASSERT`. -/
def Shared.check (cond : Prop) [Decidable cond] (sh : Shared) : Shared :=
  { sh with faults := sh.faults + if cond then 0 else 1 }

/-- `delete impl`. -/
def Shared.deleteImpl (sh : Shared) : Shared :=
  { sh.useImpl with freed := sh.freed + 1 }

/-- `delete` of the object, with `~RefBase`. -/
def Shared.deleteBase (life : Lifetime) (sh : Shared) : Shared :=
  let sh := { sh.useBase.useImpl with deleted := sh.deleted + 1 }
  if sh.mStrong = initialStrongValue then sh.deleteImpl else
  match life with
  | .strong => sh
  | .weak => if sh.mWeak = 0 then sh.deleteImpl else sh

/-- The branches of `attemptIncStrong` after `mStrong` was loaded. -/
def afterLoad (life : Lifetime) (curCount : ℤ) : Pc :=
  if 0 < curCount ∧ curCount ≠ initialStrongValue then .promote curCount else
  match life with
  | .strong => if curCount ≤ 0 then .decWeak else .promoteInitial curCount
  | .weak => .onIncStrongAttempted

/-- The end of a call that has got a strong reference. -/
def Thread.gotStrong (th : Thread) : Thread := { th with sp := th.sp + 1, pc := .idle }

/-- A step of a call that has begun.  `agreed` is the answer of `onIncStrongAttempted`. -/
def resume (life : Lifetime) (agreed : Bool) (sh : Shared) (th : Thread) : Option (Shared × Thread) :=
  match th.pc with
  | .idle => none
  | .incStrong =>
    let c := sh.mStrong
    some ({ sh.useImpl.check (0 < c) with mStrong := c + 1 },
      if c = initialStrongValue then { th with pc := .subInitial } else th.gotStrong)
  | .subInitial =>
    some ({ sh.useImpl with mStrong := sh.mStrong - initialStrongValue }, { th with pc := .onFirstRef })
  | .onFirstRef => some (sh.useImpl.useBase, th.gotStrong)
  | .decStrong =>
    let c := sh.mStrong
    some ({ sh.useImpl.check (1 ≤ c) with mStrong := c - 1 },
      { th with pc := if c = 1 then .onLastStrongRef else .decWeak })
  | .onLastStrongRef =>
    some (sh.useImpl.useBase, { th with pc := match life with
      | .strong => .deleteThis
      | .weak => .decWeak })
  | .deleteThis => some (sh.deleteBase life, { th with pc := .decWeak })
  | .decWeak =>
    let c := sh.mWeak
    some ({ sh.useImpl.check (1 ≤ c) with mWeak := c - 1 },
      { th with pc := if c ≠ 1 then .idle else .lastWeak })
  | .lastWeak =>
    some (sh.useImpl, { th with pc := match life with
      | .strong => if sh.mStrong = initialStrongValue then .deleteBase else .deleteImpl
      | .weak => .onLastWeakRef })
  | .onLastWeakRef => some (sh.useImpl.useBase, { th with pc := .deleteBase })
  | .deleteBase => some (sh.deleteBase life, { th with pc := .idle })
  | .deleteImpl => some (sh.deleteImpl, { th with pc := .idle })
  -- the loops come back here, past the assertion
  | .attempt => some (sh.useImpl.check (0 ≤ sh.mStrong), { th with pc := afterLoad life sh.mStrong })
  | .promote curCount =>
    if sh.mStrong = curCount then
      some ({ sh.useImpl with mStrong := curCount + 1 }, { th with pc := .fixUp })
    else some (sh.useImpl, { th with pc := .attempt })
  | .attemptInitial =>
    some (sh.useImpl,
      { th with pc := if 0 < sh.mStrong then .promoteInitial sh.mStrong else .decWeak })
  | .promoteInitial curCount =>
    if sh.mStrong = curCount then
      some ({ sh.useImpl with mStrong := curCount + 1 },
        { th with pc := if 0 < curCount ∧ curCount < initialStrongValue then .unneeded else .fixUp })
    else some (sh.useImpl, { th with pc := .attemptInitial })
  | .onIncStrongAttempted =>
    some (sh.useImpl.useBase, { th with pc := if agreed then .revive else .decWeak })
  | .revive =>
    let c := sh.mStrong
    some ({ sh.useImpl with mStrong := c + 1 },
      { th with pc := if 0 < c ∧ c < initialStrongValue then .unneeded else .fixUp })
  | .unneeded => some (sh.useImpl.useBase, { th with pc := .fixUp })
  | .fixUp =>
    if initialStrongValue ≤ sh.mStrong then
      some (sh.useImpl.check (initialStrongValue < sh.mStrong), { th with pc := .fixUpInitial sh.mStrong })
    else some (sh.useImpl, th.gotStrong)
  | .fixUpInitial curCount =>
    if sh.mStrong = curCount then
      some ({ sh.useImpl with mStrong := curCount - initialStrongValue }, th.gotStrong)
    else some (sh.useImpl, { th with pc := .fixUp })
  | .attemptWeak =>
    some (sh.useImpl.check (0 ≤ sh.mWeak),
      { th with pc := if 0 < sh.mWeak then .promoteWeak sh.mWeak else .idle })
  | .promoteWeak curCount =>
    if sh.mWeak = curCount then
      some ({ sh.useImpl with mWeak := curCount + 1 }, { th with wp := th.wp + 1, pc := .idle })
    else some (sh.useImpl, { th with pc := .attemptWeak })

/-- The calls. -/
inductive Call
  | incStrong | decStrong | incWeak | decWeak | attemptIncStrong | attemptIncWeak
deriving DecidableEq, Repr

/-- The begin of a call: the read of `mRefs`, where the call is one of the object, and `incWeak`, where it
starts with it.  A reference that is given up is no longer owned. -/
def begin (sh : Shared) (th : Thread) : Call → Shared × Thread
  | .incStrong => ({ sh.useBase.useImpl.check (0 ≤ sh.mWeak) with mWeak := sh.mWeak + 1 },
      { th with pc := .incStrong })
  | .decStrong => (sh.useBase, { th with sp := th.sp - 1, pc := .decStrong })
  | .incWeak => ({ sh.useImpl.check (0 ≤ sh.mWeak) with mWeak := sh.mWeak + 1 },
      { th with wp := th.wp + 1 })
  | .decWeak => (sh, { th with wp := th.wp - 1, pc := .decWeak })
  | .attemptIncStrong => ({ sh.useImpl.check (0 ≤ sh.mWeak) with mWeak := sh.mWeak + 1 },
      { th with pc := .attempt })
  | .attemptIncWeak => (sh, { th with pc := .attemptWeak })

/-! ### The threads -/

/-- The object, the number of calls that were made, and the threads. -/
structure State (T : Type) where
  shared : Shared
  calls : ℕ
  thread : T → Thread

/-- The steps: a call begins or goes on, or a thread gives a reference to another one. -/
inductive Act (T : Type)
  | begin (t : T) (call : Call)
  | resume (t : T) (agreed : Bool)
  | giveStrong (t u : T)
  | giveWeak (t u : T)

variable {T : Type}

/-- One step. -/
def step [DecidableEq T] (life : Lifetime) (s : State T) : Act T → Option (State T)
  | .begin t call =>
    if (s.thread t).pc = .idle then
      let (sh, th) := RefBase.begin s.shared (s.thread t) call
      some ⟨sh, s.calls + 1, Function.update s.thread t th⟩
    else none
  | .resume t agreed =>
    (RefBase.resume life agreed s.shared (s.thread t)).map fun (sh, th) =>
      { s with shared := sh, thread := Function.update s.thread t th }
  | .giveStrong t u =>
    if t ≠ u ∧ (s.thread t).pc = .idle ∧ 0 < (s.thread t).sp then
      let thread := Function.update s.thread t { s.thread t with sp := (s.thread t).sp - 1 }
      some { s with thread := Function.update thread u { thread u with sp := (thread u).sp + 1 } }
    else none
  | .giveWeak t u =>
    if t ≠ u ∧ (s.thread t).pc = .idle ∧ 0 < (s.thread t).wp then
      let thread := Function.update s.thread t { s.thread t with wp := (s.thread t).wp - 1 }
      some { s with thread := Function.update thread u { thread u with wp := (thread u).wp + 1 } }
    else none

/-- A thread without references that is in no call. -/
def Thread.none : Thread := ⟨0, 0, .idle⟩

/-- The object is alive, has had no strong reference, and no other thread knows of it. -/
def First (s : State T) (t : T) : Prop :=
  s.shared.mStrong = initialStrongValue ∧ s.shared.deleted = 0 ∧ (s.thread t).sp = 0 ∧
    ∀ u, u ≠ t → s.thread u = Thread.none

/-- The thread is about to count a weak reference. -/
def Pc.promotesWeak : Pc → Bool
  | .promoteWeak _ => true
  | _ => false

/-- A thread calls through a reference it owns, or takes the first one while nobody else knows of
the object; and there are never `2 ^ 28` references. -/
def allowed (s : State T) : Act T → Prop
  | .begin t .incStrong =>
    (0 < (s.thread t).sp ∨ First s t) ∧ s.shared.mWeak + 1 < initialStrongValue
  | .begin t .decStrong => 0 < (s.thread t).sp
  | .begin t .incWeak =>
    (0 < (s.thread t).sp + (s.thread t).wp ∨ First s t) ∧ s.shared.mWeak + 1 < initialStrongValue
  | .begin t .decWeak => 0 < (s.thread t).wp
  | .begin t .attemptIncStrong => 0 < (s.thread t).wp ∧ s.shared.mWeak + 1 < initialStrongValue
  | .begin t .attemptIncWeak => 0 < (s.thread t).sp + (s.thread t).wp
  | .resume t _ => (s.thread t).pc.promotesWeak → s.shared.mWeak + 1 < initialStrongValue
  | .giveStrong _ _ => True
  | .giveWeak _ _ => True

instance [Fintype T] [DecidableEq T] (s : State T) (t : T) : Decidable (First s t) :=
  inferInstanceAs (Decidable (_ ∧ _ ∧ _ ∧ _))

instance [Fintype T] [DecidableEq T] (s : State T) : (a : Act T) → Decidable (allowed s a)
  | .begin _ .incStrong => inferInstanceAs (Decidable (_ ∧ _))
  | .begin _ .decStrong => inferInstanceAs (Decidable (_ < _))
  | .begin _ .incWeak => inferInstanceAs (Decidable (_ ∧ _))
  | .begin _ .decWeak => inferInstanceAs (Decidable (_ < _))
  | .begin _ .attemptIncStrong => inferInstanceAs (Decidable (_ ∧ _))
  | .begin _ .attemptIncWeak => inferInstanceAs (Decidable (_ < _))
  | .resume _ _ => inferInstanceAs (Decidable (_ → _))
  | .giveStrong _ _ => inferInstanceAs (Decidable True)
  | .giveWeak _ _ => inferInstanceAs (Decidable True)

/-- After the constructor. -/
def Start (s : State T) : Prop :=
  s.shared = ⟨initialStrongValue, 0, 0, 0, 0⟩ ∧ s.calls = 0 ∧ ∀ t, s.thread t = Thread.none

/-! ### What the threads hold -/

/-- What a thread holds, or all threads together: weak and strong counts, signs that
`INITIAL_STRONG_VALUE` is off, calls after the last strong and after the last weak reference, and calls
about to delete the object with its last weak reference. -/
@[ext]
structure Holdings where
  weak : ℕ
  strong : ℕ
  settled : ℕ
  dying : ℕ
  final : ℕ
  base : ℕ

instance : Add Holdings where
  add h k := ⟨h.weak + k.weak, h.strong + k.strong, h.settled + k.settled, h.dying + k.dying,
    h.final + k.final, h.base + k.base⟩

section Add

variable (h k : Holdings)

@[simp, grind =] theorem Holdings.add_weak : (h + k).weak = h.weak + k.weak := rfl
@[simp, grind =] theorem Holdings.add_strong : (h + k).strong = h.strong + k.strong := rfl
@[simp, grind =] theorem Holdings.add_settled : (h + k).settled = h.settled + k.settled := rfl
@[simp, grind =] theorem Holdings.add_dying : (h + k).dying = h.dying + k.dying := rfl
@[simp, grind =] theorem Holdings.add_final : (h + k).final = h.final + k.final := rfl
@[simp, grind =] theorem Holdings.add_base : (h + k).base = h.base + k.base := rfl

end Add

/-- What references count. -/
def refs (sp wp : ℕ) : Holdings := ⟨sp + wp, sp, sp, 0, 0, 0⟩

/-- What a call in progress holds. -/
def Pc.holdings : Pc → Holdings
  | .idle | .attemptWeak | .promoteWeak _ => ⟨0, 0, 0, 0, 0, 0⟩
  | .incStrong | .decWeak | .attempt | .promote _ | .attemptInitial | .promoteInitial _
  | .onIncStrongAttempted | .revive => ⟨1, 0, 0, 0, 0, 0⟩
  | .subInitial | .unneeded | .fixUp | .fixUpInitial _ => ⟨1, 1, 0, 0, 0, 0⟩
  | .onFirstRef | .decStrong => ⟨1, 1, 1, 0, 0, 0⟩
  | .onLastStrongRef | .deleteThis => ⟨1, 0, 1, 1, 0, 0⟩
  | .lastWeak | .onLastWeakRef => ⟨0, 0, 0, 0, 1, 0⟩
  | .deleteBase => ⟨0, 0, 0, 0, 1, 1⟩
  | .deleteImpl => ⟨0, 0, 1, 0, 1, 0⟩

/-- What a thread holds. -/
def Thread.holdings (th : Thread) : Holdings := refs th.sp th.wp + th.pc.holdings

/-- What a thread knows by itself. -/
def Thread.Fits (life : Lifetime) (th : Thread) : Prop :=
  match th.pc with
  | .subInitial => th.sp = 0
  | .promote curCount => 0 < curCount
  | .promoteInitial curCount => 0 < curCount ∧ life = .strong
  | .attemptInitial | .deleteThis | .deleteImpl => life = .strong
  | .onIncStrongAttempted | .revive | .onLastWeakRef => life = .weak
  | .fixUpInitial curCount => initialStrongValue ≤ curCount
  | .attemptWeak | .promoteWeak _ => 0 < th.sp + th.wp
  | _ => True

/-- A thread that takes the first strong reference. -/
def Thread.Starting (th : Thread) : Prop := th.sp = 0 ∧ (th.pc = .incStrong ∨ th.pc = .subInitial)

/-- What all threads hold. -/
def total [Fintype T] (thread : T → Thread) : Holdings where
  weak := tally (·.holdings.weak) thread
  strong := tally (·.holdings.strong) thread
  settled := tally (·.holdings.settled) thread
  dying := tally (·.holdings.dying) thread
  final := tally (·.holdings.final) thread
  base := tally (·.holdings.base) thread

/-- What the threads but one hold. -/
def rest [Fintype T] [DecidableEq T] (thread : T → Thread) (t : T) : Holdings :=
  total (Function.update thread t Thread.none)

/-- What is true of the holdings of every thread, and so of all together. -/
@[mk_iff]
structure Coherent (c : Holdings) : Prop where
  strong_le_weak : c.strong ≤ c.weak
  dying_le_weak : c.dying ≤ c.weak
  base_le_final : c.base ≤ c.final

/-- The counters agree with what the threads hold. -/
@[mk_iff]
structure Balance (life : Lifetime) (sh : Shared) (calls : ℕ) (c : Holdings) : Prop where
  weak : sh.mWeak = c.weak
  strong : sh.mStrong = c.strong ∨ sh.mStrong = initialStrongValue + c.strong
  few : c.weak < initialStrongValue
  settled : 0 < c.settled → sh.mStrong < initialStrongValue
  final : 0 < c.final → c.final = 1 ∧ c.weak = 0 ∧ sh.freed = 0
  ended : sh.freed ≠ 0 → sh.freed = 1 ∧ c.weak = 0 ∧ c.final = 0 ∧ sh.deleted = 1
  dying : life = .strong → 0 < c.dying →
    c.dying = 1 ∧ c.strong = 0 ∧ sh.mStrong < initialStrongValue
  base : life = .strong → 0 < c.base → initialStrongValue ≤ sh.mStrong
  object : life = .strong → sh.freed = 0 →
    sh.deleted = 0 ∧ (initialStrongValue ≤ sh.mStrong ∨ 0 < c.strong + c.dying) ∨
      sh.deleted = 1 ∧ sh.mStrong < initialStrongValue ∧ c.strong + c.dying = 0
  extended : life = .weak → sh.freed = 0 → sh.deleted = 0
  faults : sh.faults = 0
  kept : 0 < calls → sh.freed = 0 → 0 < c.weak + c.final

section Totals

variable [Fintype T] {thread : T → Thread} {t : T}

theorem Coherent.add {h k : Holdings} (hh : Coherent h) (hk : Coherent k) : Coherent (h + k) :=
  ⟨Nat.add_le_add hh.strong_le_weak hk.strong_le_weak,
    Nat.add_le_add hh.dying_le_weak hk.dying_le_weak,
    Nat.add_le_add hh.base_le_final hk.base_le_final⟩

theorem coherent_refs (sp wp : ℕ) : Coherent (refs sp wp) :=
  ⟨Nat.le_add_right sp wp, Nat.zero_le _, Nat.le_refl _⟩

theorem Pc.coherent (pc : Pc) : Coherent pc.holdings := by
  cases pc <;> constructor <;> simp [Pc.holdings]

theorem Thread.coherent (th : Thread) : Coherent th.holdings :=
  (coherent_refs th.sp th.wp).add th.pc.coherent

theorem coherent_total (thread : T → Thread) : Coherent (total thread) :=
  ⟨tally_mono fun t => (thread t).coherent.strong_le_weak,
    tally_mono fun t => (thread t).coherent.dying_le_weak,
    tally_mono fun t => (thread t).coherent.base_le_final⟩

/-- **The frame.**  Whatever a thread does, the others hold what they held. -/
theorem total_update [DecidableEq T] (thread : T → Thread) (t : T) (th : Thread) :
    total (Function.update thread t th) = rest thread t + th.holdings := by
  have key : ∀ f : Thread → ℕ, f Thread.none = 0 →
      tally f (Function.update thread t th) =
        tally f (Function.update thread t Thread.none) + f th :=
    fun f hf => tally_update_eq_add f hf thread t th
  apply Holdings.ext
  · exact key (·.holdings.weak) rfl
  · exact key (·.holdings.strong) rfl
  · exact key (·.holdings.settled) rfl
  · exact key (·.holdings.dying) rfl
  · exact key (·.holdings.final) rfl
  · exact key (·.holdings.base) rfl

theorem total_eq [DecidableEq T] (thread : T → Thread) (t : T) :
    total thread = rest thread t + (thread t).holdings := by
  rw [← total_update, Function.update_eq_self]

end Totals

/-! ### What one step keeps -/

attribute [local grind =] balance_iff coherent_iff Pc.holdings refs initialStrongValue

section Balance

variable {life : Lifetime} {sh : Shared} {calls : ℕ} {c r : Holdings}

theorem Balance.freed (hb : Balance life sh calls c) (h : 0 < c.weak + c.final) : sh.freed = 0 := by
  grind

theorem Balance.alive (hb : Balance life sh calls c) (h : 0 < c.weak + c.final)
    (hs : life = .strong → initialStrongValue ≤ sh.mStrong ∨ 0 < c.strong + c.dying) :
    sh.deleted = 0 := by
  cases life <;> grind

theorem Balance.inc_strong (hb : Balance life sh calls (r + Pc.incStrong.holdings))
    (hr : Coherent r) (hs : 0 < r.settled) (hp : 0 < r.strong) :
    Balance life { sh with mStrong := sh.mStrong + 1 } calls (r + refs 1 0) := by
  grind

theorem Balance.inc_first (hb : Balance life sh calls (r + Pc.incStrong.holdings))
    (hm : sh.mStrong = initialStrongValue) :
    Balance life { sh with mStrong := sh.mStrong + 1 } calls (r + Pc.subInitial.holdings) := by
  grind

theorem Balance.sub_initial (hb : Balance life sh calls (r + Pc.subInitial.holdings))
    (hr : Coherent r) (hm : initialStrongValue ≤ sh.mStrong) :
    Balance life { sh with mStrong := sh.mStrong - initialStrongValue } calls
      (r + Pc.onFirstRef.holdings) := by
  grind

theorem Balance.dec_strong (hb : Balance life sh calls (r + Pc.decStrong.holdings))
    (hm : sh.mStrong ≠ 1) :
    Balance life { sh with mStrong := sh.mStrong - 1 } calls (r + Pc.decWeak.holdings) := by
  grind

theorem Balance.dec_strong_last (hb : Balance life sh calls (r + Pc.decStrong.holdings))
    (hm : sh.mStrong = 1) :
    Balance life { sh with mStrong := sh.mStrong - 1 } calls (r + Pc.onLastStrongRef.holdings) := by
  grind

theorem Balance.last_strong (hb : Balance .weak sh calls (r + Pc.onLastStrongRef.holdings)) :
    Balance .weak sh calls (r + Pc.decWeak.holdings) := by
  grind

theorem Balance.delete_this (hb : Balance .strong sh calls (r + Pc.deleteThis.holdings)) :
    Balance .strong { sh with deleted := sh.deleted + 1 } calls (r + Pc.decWeak.holdings) := by
  grind

theorem Balance.dec_weak (hb : Balance life sh calls (r + Pc.decWeak.holdings))
    (hm : sh.mWeak ≠ 1) :
    Balance life { sh with mWeak := sh.mWeak - 1 } calls (r + Pc.idle.holdings) := by
  grind

theorem Balance.dec_weak_last (hb : Balance life sh calls (r + Pc.decWeak.holdings))
    (hm : sh.mWeak = 1) :
    Balance life { sh with mWeak := sh.mWeak - 1 } calls (r + Pc.lastWeak.holdings) := by
  grind

theorem Balance.last_base (hb : Balance life sh calls (r + Pc.lastWeak.holdings))
    (hm : life = .strong → sh.mStrong = initialStrongValue) :
    Balance life sh calls (r + Pc.deleteBase.holdings) := by
  grind

theorem Balance.last_impl (hb : Balance .strong sh calls (r + Pc.lastWeak.holdings))
    (hr : Coherent r) (hm : sh.mStrong ≠ initialStrongValue) :
    Balance .strong sh calls (r + Pc.deleteImpl.holdings) := by
  grind

theorem Balance.delete_base (hb : Balance life sh calls (r + Pc.deleteBase.holdings))
    (hr : Coherent r) :
    Balance life { sh with deleted := sh.deleted + 1, freed := sh.freed + 1 } calls
      (r + Pc.idle.holdings) := by
  cases life <;> grind

theorem Balance.delete_impl (hb : Balance .strong sh calls (r + Pc.deleteImpl.holdings))
    (hr : Coherent r) :
    Balance .strong { sh with freed := sh.freed + 1 } calls (r + Pc.idle.holdings) := by
  grind

theorem Balance.promote (hb : Balance life sh calls (r + Pc.revive.holdings)) (hr : Coherent r)
    (hm : life = .strong → 0 < sh.mStrong) :
    Balance life { sh with mStrong := sh.mStrong + 1 } calls (r + Pc.fixUp.holdings) := by
  grind

theorem Balance.fix_up (hb : Balance life sh calls (r + Pc.fixUp.holdings))
    (hm : sh.mStrong < initialStrongValue) : Balance life sh calls (r + refs 1 0) := by
  grind

theorem Balance.fix_up_initial (hb : Balance life sh calls (r + Pc.fixUp.holdings))
    (hr : Coherent r) (hm : initialStrongValue ≤ sh.mStrong) :
    Balance life { sh with mStrong := sh.mStrong - initialStrongValue } calls (r + refs 1 0) := by
  grind

theorem Balance.inc_weak (hb : Balance life sh calls r) (hf : sh.freed = 0) (hr : r.final = 0)
    (hm : sh.mWeak + 1 < initialStrongValue) :
    Balance life { sh with mWeak := sh.mWeak + 1 } calls (r + refs 0 1) := by
  constructor <;> grind

theorem Balance.called (hb : Balance life sh calls c) (hc : 0 < c.weak) :
    Balance life sh (calls + 1) c :=
  { hb with kept := fun _ _ => by omega }

end Balance

theorem Shared.useImpl_eq {sh : Shared} (h : sh.freed = 0) : sh.useImpl = sh := by
  simp only [Shared.useImpl, if_pos h, Nat.add_zero]

theorem Shared.useBase_eq {sh : Shared} (h : sh.deleted = 0) : sh.useBase = sh := by
  simp only [Shared.useBase, if_pos h, Nat.add_zero]

theorem Shared.check_eq {sh : Shared} {cond : Prop} [Decidable cond] (h : cond) : sh.check cond = sh := by
  simp only [Shared.check, if_pos h, Nat.add_zero]

/-- The counters agree with a thread and what the others hold. -/
structure Good (life : Lifetime) (sh : Shared) (calls : ℕ) (r : Holdings) (th : Thread) : Prop where
  balance : Balance life sh calls (r + refs th.sp th.wp + th.pc.holdings)
  fits : th.Fits life

section Steps

variable {life : Lifetime} {agreed : Bool} {sh sh' : Shared} {calls sp wp : ℕ} {r : Holdings}
  {th' : Thread}

theorem add_refs_strong (r : Holdings) (sp wp : ℕ) :
    r + refs (sp + 1) wp + Pc.idle.holdings = r + refs sp wp + refs 1 0 := by
  ext <;> simp [refs, Pc.holdings] <;> omega

theorem add_refs_weak (r : Holdings) (sp wp : ℕ) :
    r + refs sp (wp + 1) + Pc.idle.holdings = r + refs sp wp + refs 0 1 := by
  ext <;> simp [refs, Pc.holdings]
  omega

theorem Good.gotStrong {th : Thread} (hb : Balance life sh calls (r + refs th.sp th.wp + refs 1 0)) :
    Good life sh calls r th.gotStrong := by
  refine ⟨?_, trivial⟩
  unfold Thread.gotStrong
  rw [add_refs_strong]
  exact hb

theorem Good.incStrong (hg : Good life sh calls r ⟨sp, wp, .incStrong⟩) (hr : Coherent r)
    (hs : sp = 0 → r.strong = 0 ∧ initialStrongValue ≤ sh.mStrong)
    (h : resume life agreed sh ⟨sp, wp, .incStrong⟩ = some (sh', th')) :
    Good life sh' calls r th' := by
  obtain ⟨hb, -⟩ := hg
  have hf := hb.freed (by grind)
  have hc : 0 < sh.mStrong := by grind
  simp only [resume, Shared.useImpl_eq hf, Shared.check_eq hc, Option.some.injEq, Prod.mk.injEq] at h
  obtain ⟨rfl, rfl⟩ := h
  split_ifs with hm
  · have hsp : sp = 0 := by grind
    exact ⟨hb.inc_first hm, hsp⟩
  · have hsp : 0 < sp := by grind
    exact Good.gotStrong (hb.inc_strong (hr.add (coherent_refs sp wp)) (by grind) (by grind))

theorem Good.subInitial (hg : Good life sh calls r ⟨sp, wp, .subInitial⟩) (hr : Coherent r)
    (hs : sp = 0 → r.strong = 0 ∧ initialStrongValue ≤ sh.mStrong)
    (h : resume life agreed sh ⟨sp, wp, .subInitial⟩ = some (sh', th')) :
    Good life sh' calls r th' := by
  obtain ⟨hb, hsp⟩ := hg
  have hf := hb.freed (by grind)
  simp only [resume, Shared.useImpl_eq hf, Option.some.injEq, Prod.mk.injEq] at h
  obtain ⟨rfl, rfl⟩ := h
  exact ⟨hb.sub_initial (hr.add (coherent_refs sp wp)) (hs hsp).2, trivial⟩

theorem Good.onFirstRef (hg : Good life sh calls r ⟨sp, wp, .onFirstRef⟩)
    (h : resume life agreed sh ⟨sp, wp, .onFirstRef⟩ = some (sh', th')) :
    Good life sh' calls r th' := by
  obtain ⟨hb, -⟩ := hg
  have hf := hb.freed (by grind)
  have hd := hb.alive (by grind) (by grind)
  simp only [resume, Shared.useImpl_eq hf, Shared.useBase_eq hd, Option.some.injEq, Prod.mk.injEq] at h
  obtain ⟨rfl, rfl⟩ := h
  exact Good.gotStrong hb

theorem Good.decStrong (hg : Good life sh calls r ⟨sp, wp, .decStrong⟩)
    (h : resume life agreed sh ⟨sp, wp, .decStrong⟩ = some (sh', th')) :
    Good life sh' calls r th' := by
  obtain ⟨hb, -⟩ := hg
  have hf := hb.freed (by grind)
  have hc : 1 ≤ sh.mStrong := by grind
  simp only [resume, Shared.useImpl_eq hf, Shared.check_eq hc, Option.some.injEq, Prod.mk.injEq] at h
  obtain ⟨rfl, rfl⟩ := h
  split_ifs with hm
  · exact ⟨hb.dec_strong_last hm, trivial⟩
  · exact ⟨hb.dec_strong hm, trivial⟩

theorem Good.onLastStrongRef (hg : Good life sh calls r ⟨sp, wp, .onLastStrongRef⟩)
    (h : resume life agreed sh ⟨sp, wp, .onLastStrongRef⟩ = some (sh', th')) :
    Good life sh' calls r th' := by
  obtain ⟨hb, -⟩ := hg
  have hf := hb.freed (by grind)
  have hd := hb.alive (by grind) (by grind)
  simp only [resume, Shared.useImpl_eq hf, Shared.useBase_eq hd, Option.some.injEq, Prod.mk.injEq] at h
  obtain ⟨rfl, rfl⟩ := h
  cases life with
  | strong => exact ⟨hb, rfl⟩
  | weak => exact ⟨hb.last_strong, trivial⟩

theorem Good.deleteThis (hg : Good life sh calls r ⟨sp, wp, .deleteThis⟩)
    (h : resume life agreed sh ⟨sp, wp, .deleteThis⟩ = some (sh', th')) :
    Good life sh' calls r th' := by
  obtain ⟨hb, hlife⟩ := hg
  have hf := hb.freed (by grind)
  have hd := hb.alive (by grind) (by grind)
  -- the last strong reference has taken the count to zero, so `~RefBase` leaves the `weakref_impl`
  have hm : sh.mStrong ≠ initialStrongValue := by grind
  change life = .strong at hlife
  subst hlife
  simp only [resume, Shared.deleteBase, Shared.useBase_eq hd, Shared.useImpl_eq hf, if_neg hm,
    Option.some.injEq, Prod.mk.injEq] at h
  obtain ⟨rfl, rfl⟩ := h
  exact ⟨hb.delete_this, trivial⟩

theorem Good.decWeak (hg : Good life sh calls r ⟨sp, wp, .decWeak⟩)
    (h : resume life agreed sh ⟨sp, wp, .decWeak⟩ = some (sh', th')) :
    Good life sh' calls r th' := by
  obtain ⟨hb, -⟩ := hg
  have hf := hb.freed (by grind)
  have hc : 1 ≤ sh.mWeak := by grind
  simp only [resume, Shared.useImpl_eq hf, Shared.check_eq hc, Option.some.injEq, Prod.mk.injEq] at h
  obtain ⟨rfl, rfl⟩ := h
  split_ifs with hm
  · exact ⟨hb.dec_weak hm, trivial⟩
  · exact ⟨hb.dec_weak_last (not_not.mp hm), trivial⟩

theorem Good.lastWeak (hg : Good life sh calls r ⟨sp, wp, .lastWeak⟩) (hr : Coherent r)
    (h : resume life agreed sh ⟨sp, wp, .lastWeak⟩ = some (sh', th')) :
    Good life sh' calls r th' := by
  obtain ⟨hb, -⟩ := hg
  have hf := hb.freed (by grind)
  simp only [resume, Shared.useImpl_eq hf, Option.some.injEq, Prod.mk.injEq] at h
  obtain ⟨rfl, rfl⟩ := h
  cases life with
  | strong =>
    dsimp only
    split_ifs with hm
    · exact ⟨hb.last_base fun _ => hm, trivial⟩
    · exact ⟨hb.last_impl (hr.add (coherent_refs sp wp)) hm, rfl⟩
  | weak => exact ⟨hb, rfl⟩

theorem Good.onLastWeakRef (hg : Good life sh calls r ⟨sp, wp, .onLastWeakRef⟩)
    (h : resume life agreed sh ⟨sp, wp, .onLastWeakRef⟩ = some (sh', th')) :
    Good life sh' calls r th' := by
  obtain ⟨hb, hlife⟩ := hg
  change life = .weak at hlife
  have hf := hb.freed (by grind)
  have hd := hb.alive (by grind) (by grind)
  simp only [resume, Shared.useImpl_eq hf, Shared.useBase_eq hd, Option.some.injEq, Prod.mk.injEq] at h
  obtain ⟨rfl, rfl⟩ := h
  exact ⟨hb.last_base (by grind), trivial⟩

theorem Good.deleteBase (hg : Good life sh calls r ⟨sp, wp, .deleteBase⟩) (hr : Coherent r)
    (h : resume life agreed sh ⟨sp, wp, .deleteBase⟩ = some (sh', th')) :
    Good life sh' calls r th' := by
  obtain ⟨hb, -⟩ := hg
  have hf := hb.freed (by grind)
  have hq := hr.add (coherent_refs sp wp)
  have hd := hb.alive (by grind) (by grind)
  have hdelete : sh.deleteBase life =
      { sh with deleted := sh.deleted + 1, freed := sh.freed + 1 } := by
    simp only [Shared.deleteBase, Shared.useBase_eq hd, Shared.useImpl_eq hf]
    cases life with
    | strong =>
      have hm : sh.mStrong = initialStrongValue := by grind
      rw [if_pos hm, Shared.deleteImpl, Shared.useImpl_eq]
      exact hf
    | weak =>
      have hm : sh.mWeak = 0 := by grind
      simp only [if_pos hm, ite_self]
      rw [Shared.deleteImpl, Shared.useImpl_eq]
      exact hf
  simp only [resume, hdelete, Option.some.injEq, Prod.mk.injEq] at h
  obtain ⟨rfl, rfl⟩ := h
  exact ⟨hb.delete_base hq, trivial⟩

theorem Good.deleteImpl (hg : Good life sh calls r ⟨sp, wp, .deleteImpl⟩) (hr : Coherent r)
    (h : resume life agreed sh ⟨sp, wp, .deleteImpl⟩ = some (sh', th')) :
    Good life sh' calls r th' := by
  obtain ⟨hb, hlife⟩ := hg
  change life = .strong at hlife
  subst hlife
  have hf := hb.freed (by grind)
  simp only [resume, Shared.deleteImpl, Shared.useImpl_eq hf, Option.some.injEq, Prod.mk.injEq] at h
  obtain ⟨rfl, rfl⟩ := h
  exact ⟨hb.delete_impl (hr.add (coherent_refs sp wp)), trivial⟩

theorem Good.attempt (hg : Good life sh calls r ⟨sp, wp, .attempt⟩)
    (h : resume life agreed sh ⟨sp, wp, .attempt⟩ = some (sh', th')) :
    Good life sh' calls r th' := by
  obtain ⟨hb, -⟩ := hg
  have hf := hb.freed (by grind)
  have hc : 0 ≤ sh.mStrong := by grind
  simp only [resume, Shared.useImpl_eq hf, Shared.check_eq hc, Option.some.injEq, Prod.mk.injEq] at h
  obtain ⟨rfl, rfl⟩ := h
  cases life with
  | strong =>
    simp only [afterLoad]
    split_ifs with hm hz
    · exact ⟨hb, hm.1⟩
    · exact ⟨hb, trivial⟩
    · exact ⟨hb, not_le.mp hz, rfl⟩
  | weak =>
    simp only [afterLoad]
    split_ifs with hm
    · exact ⟨hb, hm.1⟩
    · exact ⟨hb, rfl⟩

theorem Good.promote {curCount : ℤ} (hg : Good life sh calls r ⟨sp, wp, .promote curCount⟩)
    (hr : Coherent r) (h : resume life agreed sh ⟨sp, wp, .promote curCount⟩ = some (sh', th')) :
    Good life sh' calls r th' := by
  obtain ⟨hb, hpos⟩ := hg
  change 0 < curCount at hpos
  have hf := hb.freed (by grind)
  simp only [resume, Shared.useImpl_eq hf] at h
  split_ifs at h with hm
  · cases h
    subst hm
    exact ⟨Balance.promote hb (hr.add (coherent_refs sp wp)) fun _ => hpos, trivial⟩
  · cases h
    exact ⟨hb, trivial⟩

theorem Good.attemptInitial (hg : Good life sh calls r ⟨sp, wp, .attemptInitial⟩)
    (h : resume life agreed sh ⟨sp, wp, .attemptInitial⟩ = some (sh', th')) :
    Good life sh' calls r th' := by
  obtain ⟨hb, hlife⟩ := hg
  have hf := hb.freed (by grind)
  simp only [resume, Shared.useImpl_eq hf, Option.some.injEq, Prod.mk.injEq] at h
  obtain ⟨rfl, rfl⟩ := h
  split_ifs with hm
  · exact ⟨hb, hm, hlife⟩
  · exact ⟨hb, trivial⟩

theorem Good.promoteInitial {curCount : ℤ}
    (hg : Good life sh calls r ⟨sp, wp, .promoteInitial curCount⟩) (hr : Coherent r)
    (h : resume life agreed sh ⟨sp, wp, .promoteInitial curCount⟩ = some (sh', th')) :
    Good life sh' calls r th' := by
  obtain ⟨hb, hpos, hlife⟩ := hg
  have hf := hb.freed (by grind)
  simp only [resume, Shared.useImpl_eq hf] at h
  split at h
  case isTrue hm =>
    cases h
    subst hm
    have hb' := Balance.promote hb (hr.add (coherent_refs sp wp)) fun _ => hpos
    split_ifs
    · exact ⟨hb', trivial⟩
    · exact ⟨hb', trivial⟩
  case isFalse =>
    cases h
    exact ⟨hb, hlife⟩

theorem Good.onIncStrongAttempted (hg : Good life sh calls r ⟨sp, wp, .onIncStrongAttempted⟩)
    (h : resume life agreed sh ⟨sp, wp, .onIncStrongAttempted⟩ = some (sh', th')) :
    Good life sh' calls r th' := by
  obtain ⟨hb, hlife⟩ := hg
  change life = .weak at hlife
  have hf := hb.freed (by grind)
  have hd := hb.alive (by grind) (by grind)
  simp only [resume, Shared.useImpl_eq hf, Shared.useBase_eq hd, Option.some.injEq, Prod.mk.injEq] at h
  obtain ⟨rfl, rfl⟩ := h
  cases agreed with
  | true => exact ⟨hb, hlife⟩
  | false => exact ⟨hb, trivial⟩

theorem Good.revive (hg : Good life sh calls r ⟨sp, wp, .revive⟩) (hr : Coherent r)
    (h : resume life agreed sh ⟨sp, wp, .revive⟩ = some (sh', th')) :
    Good life sh' calls r th' := by
  obtain ⟨hb, hlife⟩ := hg
  change life = .weak at hlife
  have hf := hb.freed (by grind)
  simp only [resume, Shared.useImpl_eq hf, Option.some.injEq, Prod.mk.injEq] at h
  obtain ⟨rfl, rfl⟩ := h
  have hb' := Balance.promote hb (hr.add (coherent_refs sp wp)) (by grind)
  split_ifs
  · exact ⟨hb', trivial⟩
  · exact ⟨hb', trivial⟩

theorem Good.unneeded (hg : Good life sh calls r ⟨sp, wp, .unneeded⟩)
    (h : resume life agreed sh ⟨sp, wp, .unneeded⟩ = some (sh', th')) :
    Good life sh' calls r th' := by
  obtain ⟨hb, -⟩ := hg
  have hf := hb.freed (by grind)
  have hd := hb.alive (by grind) (by grind)
  simp only [resume, Shared.useImpl_eq hf, Shared.useBase_eq hd, Option.some.injEq, Prod.mk.injEq] at h
  obtain ⟨rfl, rfl⟩ := h
  exact ⟨hb, trivial⟩

theorem Good.fixUp (hg : Good life sh calls r ⟨sp, wp, .fixUp⟩) (hr : Coherent r)
    (h : resume life agreed sh ⟨sp, wp, .fixUp⟩ = some (sh', th')) :
    Good life sh' calls r th' := by
  obtain ⟨hb, -⟩ := hg
  have hf := hb.freed (by grind)
  simp only [resume, Shared.useImpl_eq hf] at h
  split_ifs at h with hm
  · -- what is left above it are the strong references, this one among them
    have hq := hr.add (coherent_refs sp wp)
    have hc : initialStrongValue < sh.mStrong := by grind
    simp only [Shared.check_eq hc, Option.some.injEq, Prod.mk.injEq] at h
    obtain ⟨rfl, rfl⟩ := h
    exact ⟨hb, hm⟩
  · cases h
    exact Good.gotStrong (hb.fix_up (not_le.mp hm))

theorem Good.fixUpInitial {curCount : ℤ}
    (hg : Good life sh calls r ⟨sp, wp, .fixUpInitial curCount⟩) (hr : Coherent r)
    (h : resume life agreed sh ⟨sp, wp, .fixUpInitial curCount⟩ = some (sh', th')) :
    Good life sh' calls r th' := by
  obtain ⟨hb, hc⟩ := hg
  change initialStrongValue ≤ curCount at hc
  have hf := hb.freed (by grind)
  simp only [resume, Shared.useImpl_eq hf] at h
  split_ifs at h with hm
  · cases h
    subst hm
    exact Good.gotStrong (Balance.fix_up_initial hb (hr.add (coherent_refs sp wp)) hc)
  · cases h
    exact ⟨hb, trivial⟩

theorem Good.attemptWeak (hg : Good life sh calls r ⟨sp, wp, .attemptWeak⟩)
    (h : resume life agreed sh ⟨sp, wp, .attemptWeak⟩ = some (sh', th')) :
    Good life sh' calls r th' := by
  obtain ⟨hb, hown⟩ := hg
  change 0 < sp + wp at hown
  have hf := hb.freed (by grind)
  have hc : 0 ≤ sh.mWeak := by grind
  simp only [resume, Shared.useImpl_eq hf, Shared.check_eq hc, Option.some.injEq, Prod.mk.injEq] at h
  obtain ⟨rfl, rfl⟩ := h
  split_ifs
  · exact ⟨hb, hown⟩
  · exact ⟨hb, trivial⟩

theorem Good.promoteWeak {curCount : ℤ} (hg : Good life sh calls r ⟨sp, wp, .promoteWeak curCount⟩)
    (hw : sh.mWeak + 1 < initialStrongValue)
    (h : resume life agreed sh ⟨sp, wp, .promoteWeak curCount⟩ = some (sh', th')) :
    Good life sh' calls r th' := by
  obtain ⟨hb, hown⟩ := hg
  change 0 < sp + wp at hown
  have hf := hb.freed (by grind)
  simp only [resume, Shared.useImpl_eq hf] at h
  split_ifs at h with hm
  · cases h
    subst hm
    refine ⟨?_, trivial⟩
    rw [add_refs_weak]
    exact Balance.inc_weak hb hf (by grind) hw
  · cases h
    exact ⟨hb, hown⟩

/-- **A step of a call.** -/
theorem Good.resume {th : Thread} (hg : Good life sh calls r th) (hr : Coherent r)
    (hs : th.Starting → r.strong = 0 ∧ initialStrongValue ≤ sh.mStrong)
    (hw : th.pc.promotesWeak → sh.mWeak + 1 < initialStrongValue)
    (h : RefBase.resume life agreed sh th = some (sh', th')) : Good life sh' calls r th' := by
  obtain ⟨sp, wp, pc⟩ := th
  cases pc with
  | idle => cases h
  | incStrong => exact hg.incStrong hr (fun hsp => hs ⟨hsp, .inl rfl⟩) h
  | subInitial => exact hg.subInitial hr (fun hsp => hs ⟨hsp, .inr rfl⟩) h
  | onFirstRef => exact hg.onFirstRef h
  | decStrong => exact hg.decStrong h
  | onLastStrongRef => exact hg.onLastStrongRef h
  | deleteThis => exact hg.deleteThis h
  | decWeak => exact hg.decWeak h
  | lastWeak => exact hg.lastWeak hr h
  | onLastWeakRef => exact hg.onLastWeakRef h
  | deleteBase => exact hg.deleteBase hr h
  | deleteImpl => exact hg.deleteImpl hr h
  | attempt => exact hg.attempt h
  | promote curCount => exact hg.promote hr h
  | attemptInitial => exact hg.attemptInitial h
  | promoteInitial curCount => exact hg.promoteInitial hr h
  | onIncStrongAttempted => exact hg.onIncStrongAttempted h
  | revive => exact hg.revive hr h
  | unneeded => exact hg.unneeded h
  | fixUp => exact hg.fixUp hr h
  | fixUpInitial curCount => exact hg.fixUpInitial hr h
  | attemptWeak => exact hg.attemptWeak h
  | promoteWeak curCount => exact hg.promoteWeak (hw rfl) h

/-- Only `incStrong` takes the first strong reference. -/
theorem resume_starting {th : Thread} (h : RefBase.resume life agreed sh th = some (sh', th'))
    (hst : th'.Starting) : th.Starting ∧ initialStrongValue ≤ sh'.mStrong := by
  obtain ⟨sp, wp, pc⟩ := th
  obtain ⟨hsp, hpc⟩ := hst
  cases pc
  case incStrong =>
    simp only [RefBase.resume, Option.some.injEq, Prod.mk.injEq] at h
    obtain ⟨rfl, rfl⟩ := h
    split_ifs at hsp hpc with hm
    · exact ⟨⟨hsp, .inl rfl⟩, by simp [hm]⟩
    · rcases hpc with hpc | hpc <;> cases hpc
  all_goals
    simp only [RefBase.resume, afterLoad] at h
    grind [Thread.gotStrong]

/-- What a call can start through. -/
def MayBegin (sh : Shared) (th : Thread) : Call → Prop
  | .incStrong => sh.mWeak + 1 < initialStrongValue
  | .decStrong => 0 < th.sp
  | .incWeak => sh.mWeak + 1 < initialStrongValue
  | .decWeak => 0 < th.wp
  | .attemptIncStrong => sh.mWeak + 1 < initialStrongValue
  | .attemptIncWeak => 0 < th.sp + th.wp

/-- **The begin of a call.** -/
theorem Good.begin {th : Thread} (hg : Good life sh calls r th) (hpc : th.pc = .idle)
    (hf : sh.freed = 0) (hr : r.final = 0) (call : Call) (hc : MayBegin sh th call)
    (hd : call = .incStrong ∨ call = .decStrong → sh.deleted = 0) :
    Good life (begin sh th call).1 (calls + 1) r (begin sh th call).2 := by
  obtain ⟨hb, -⟩ := hg
  obtain ⟨sp, wp, pc⟩ := th
  subst hpc
  -- a thread in no call holds its references only
  change Balance life sh calls (r + refs sp wp) at hb
  have hfinal : (r + refs sp wp).final = 0 := by simp [refs, hr]
  have huse := Shared.useImpl_eq hf
  have hweak : 0 ≤ sh.mWeak := by grind
  have hcheck : sh.check (0 ≤ sh.mWeak) = sh := Shared.check_eq hweak
  cases call with
  | incStrong =>
    simp only [RefBase.begin, Shared.useBase_eq (hd (.inl rfl)), huse, hcheck]
    exact ⟨(hb.inc_weak hf hfinal hc).called (by grind), trivial⟩
  | decStrong =>
    obtain ⟨n, rfl⟩ := Nat.exists_eq_succ_of_ne_zero (Nat.ne_of_gt hc)
    simp only [RefBase.begin, Shared.useBase_eq (hd (.inr rfl))]
    refine ⟨?_, trivial⟩
    have heq := add_refs_strong r n wp
    exact heq ▸ hb.called (by grind)
  | incWeak =>
    simp only [RefBase.begin, huse, hcheck]
    refine ⟨?_, trivial⟩
    rw [add_refs_weak]
    exact (hb.inc_weak hf hfinal hc).called (by grind)
  | decWeak =>
    obtain ⟨n, rfl⟩ := Nat.exists_eq_succ_of_ne_zero (Nat.ne_of_gt hc)
    refine ⟨?_, trivial⟩
    have heq := add_refs_weak r sp n
    exact heq ▸ hb.called (by grind)
  | attemptIncStrong =>
    simp only [RefBase.begin, huse, hcheck]
    exact ⟨(hb.inc_weak hf hfinal hc).called (by grind), trivial⟩
  | attemptIncWeak =>
    have hown : 0 < sp + wp := hc
    exact ⟨hb.called (by grind), hown⟩

end Steps

/-! ### What a run keeps -/

/-- The invariant: the counters agree with the threads, and a thread that takes the first strong
reference is the only one that knows of the object. -/
structure Inv [Fintype T] (life : Lifetime) (s : State T) : Prop where
  balance : Balance life s.shared s.calls (total s.thread)
  fits : ∀ t, (s.thread t).Fits life
  alone : ∀ t, (s.thread t).Starting →
    initialStrongValue ≤ s.shared.mStrong ∧ ∀ u, u ≠ t → s.thread u = Thread.none

section Runs

variable [Fintype T] [DecidableEq T] {life : Lifetime} {s s' : State T} {t u : T}

theorem rest_add_refs (thread : T → Thread) (t : T) :
    rest thread t + refs (thread t).sp (thread t).wp + (thread t).pc.holdings = total thread := by
  rw [total_eq thread t]
  ext <;> simp [Thread.holdings, Nat.add_assoc]

theorem Inv.good (hi : Inv life s) (t : T) :
    Good life s.shared s.calls (rest s.thread t) (s.thread t) :=
  ⟨(rest_add_refs s.thread t).symm ▸ hi.balance, hi.fits t⟩

theorem coherent_rest (thread : T → Thread) (t : T) : Coherent (rest thread t) := coherent_total _

theorem not_starting_none : ¬Thread.none.Starting := by
  rintro ⟨-, h | h⟩ <;> cases h

/-- The thread that took the step is good, so the invariant is back. -/
theorem Inv.update (hi : Inv life s) {sh : Shared} {calls : ℕ} {th : Thread}
    (hg : Good life sh calls (rest s.thread t) th)
    (hothers : ∀ u, u ≠ t → ¬(s.thread u).Starting)
    (ht : th.Starting → initialStrongValue ≤ sh.mStrong ∧ ∀ u, u ≠ t → s.thread u = Thread.none) :
    Inv life ⟨sh, calls, Function.update s.thread t th⟩ := by
  refine ⟨?_, fun u => ?_, fun u hu => ?_⟩
  · have h := rest_add_refs (Function.update s.thread t th) t
    rw [Function.update_self] at h
    have hrest : rest (Function.update s.thread t th) t = rest s.thread t := by
      unfold rest
      rw [Function.update_idem]
    rw [hrest] at h
    exact h ▸ hg.balance
  · dsimp only
    rcases eq_or_ne u t with rfl | hut
    · rw [Function.update_self]
      exact hg.fits
    · rw [Function.update_of_ne hut]
      exact hi.fits u
  · dsimp only at hu ⊢
    rcases eq_or_ne u t with rfl | hut
    · rw [Function.update_self] at hu
      obtain ⟨hm, hnone⟩ := ht hu
      refine ⟨hm, fun v hv => ?_⟩
      rw [Function.update_of_ne hv]
      exact hnone v hv
    · rw [Function.update_of_ne hut] at hu
      exact absurd hu (hothers u hut)

omit [DecidableEq T] in
/-- A thread with a reference or in a call is not the only one if another takes the first one. -/
theorem Inv.others_not_starting (hi : Inv life s) (ht : s.thread t ≠ Thread.none) (u : T)
    (hu : u ≠ t) : ¬(s.thread u).Starting :=
  fun h => ht ((hi.alone u h).2 t hu.symm)

theorem rest_eq_of_none (h : ∀ u, u ≠ t → s.thread u = Thread.none) :
    (rest s.thread t).strong = 0 ∧ (rest s.thread t).weak = 0 ∧ (rest s.thread t).final = 0 := by
  have hall : Function.update s.thread t Thread.none = fun _ => Thread.none := by
    funext u
    rcases eq_or_ne u t with rfl | hu
    · rw [Function.update_self]
    · rw [Function.update_of_ne hu, h u hu]
  unfold rest
  rw [hall]
  exact ⟨tally_eq_zero_iff.mpr fun _ => rfl, tally_eq_zero_iff.mpr fun _ => rfl,
    tally_eq_zero_iff.mpr fun _ => rfl⟩

omit [DecidableEq T] in
theorem Inv.start (h : Start s) : Inv life s := by
  obtain ⟨hsh, hcalls, hth⟩ := h
  have htotal : total s.thread = ⟨0, 0, 0, 0, 0, 0⟩ := by
    have hnone : s.thread = fun _ => Thread.none := funext hth
    rw [hnone]
    apply Holdings.ext <;> exact tally_eq_zero_iff.mpr fun _ => rfl
  refine ⟨?_, fun t => ?_, fun t ht => ?_⟩
  · rw [hsh, hcalls, htotal]
    constructor <;> simp [initialStrongValue]
  · rw [hth t]
    trivial
  · rw [hth t] at ht
    exact absurd ht not_starting_none

theorem Inv.resume (hi : Inv life s) {agreed : Bool} {sh : Shared} {th : Thread}
    (hw : (s.thread t).pc.promotesWeak → s.shared.mWeak + 1 < initialStrongValue)
    (h : resume life agreed s.shared (s.thread t) = some (sh, th)) :
    Inv life { s with shared := sh, thread := Function.update s.thread t th } := by
  have hpc : (s.thread t).pc ≠ .idle := by
    intro hidle
    simp only [RefBase.resume, hidle] at h
    cases h
  have ht : s.thread t ≠ Thread.none := fun hnone => hpc (by rw [hnone]; rfl)
  have hs : (s.thread t).Starting →
      (rest s.thread t).strong = 0 ∧ initialStrongValue ≤ s.shared.mStrong :=
    fun hst => ⟨(rest_eq_of_none (hi.alone t hst).2).1, (hi.alone t hst).1⟩
  refine hi.update ((hi.good t).resume (coherent_rest s.thread t) hs hw h)
    (hi.others_not_starting ht) fun hst => ?_
  obtain ⟨hst', hm⟩ := resume_starting h hst
  exact ⟨hm, (hi.alone t hst').2⟩

omit [Fintype T] [DecidableEq T] in
/-- A thread that may call has a reference, or is the first. -/
theorem allowed_begin {call : Call} (ha : allowed s (.begin t call)) :
    MayBegin s.shared (s.thread t) call ∧ (0 < (s.thread t).sp + (s.thread t).wp ∨ First s t) ∧
      (call = .incStrong → (s.thread t).sp = 0 → First s t) ∧
      (call = .incStrong ∨ call = .decStrong → 0 < (s.thread t).sp ∨ First s t) := by
  cases call <;> grind [allowed, MayBegin]

theorem Inv.begin (hi : Inv life s) {call : Call} (hpc : (s.thread t).pc = .idle)
    (ha : allowed s (.begin t call)) :
    Inv life ⟨(begin s.shared (s.thread t) call).1, s.calls + 1,
      Function.update s.thread t (begin s.shared (s.thread t) call).2⟩ := by
  obtain ⟨hmay, hown, hfirst, hobject⟩ := allowed_begin ha
  have hb := hi.balance
  have htotal := total_eq s.thread t
  have hf : s.shared.freed = 0 ∧ (rest s.thread t).final = 0 := by
    rcases hown with hown | hown
    · -- the references of the thread count, so the last one is not gone
      have hw : 0 < (total s.thread).weak := by
        rw [htotal]
        simp only [Holdings.add_weak, Thread.holdings, refs]
        omega
      have hfinal := htotal ▸ hb.final
      grind [Thread.holdings]
    · grind [First, rest_eq_of_none hown.2.2.2]
  have hd : call = .incStrong ∨ call = .decStrong → s.shared.deleted = 0 := by
    intro hcall
    rcases hobject hcall with hsp | hone
    · have hw : 0 < (total s.thread).weak ∧ 0 < (total s.thread).strong := by
        rw [htotal]
        simp only [Holdings.add_weak, Holdings.add_strong, Thread.holdings, refs]
        omega
      exact hb.alive (by omega) fun _ => .inr (by omega)
    · exact hone.2.1
  refine hi.update ((hi.good t).begin hpc hf.1 hf.2 call hmay hd) (fun u hu hst => ?_) fun hst => ?_
  · have hnone := (hi.alone u hst).2 t hu.symm
    rcases hown with hown | hown
    · rw [hnone] at hown
      exact absurd hown (by decide)
    · rw [hown.2.2.2 u hu] at hst
      exact not_starting_none hst
  · have hcall : call = .incStrong ∧ (s.thread t).sp = 0 := by
      obtain ⟨hsp, hst⟩ := hst
      cases call <;> simp_all [RefBase.begin]
    obtain ⟨hm, -, -, hnone⟩ := hfirst hcall.1 hcall.2
    refine ⟨?_, hnone⟩
    rw [hcall.1]
    exact hm.ge

theorem total_add_holdings (thread : T → Thread) (t : T) (th : Thread) :
    total (Function.update thread t th) + (thread t).holdings = total thread + th.holdings := by
  apply Holdings.ext
  · exact tally_update (·.holdings.weak) thread t th
  · exact tally_update (·.holdings.strong) thread t th
  · exact tally_update (·.holdings.settled) thread t th
  · exact tally_update (·.holdings.dying) thread t th
  · exact tally_update (·.holdings.final) thread t th
  · exact tally_update (·.holdings.base) thread t th

/-- What one thread gives another is not lost. -/
theorem total_give (thread : T → Thread) (htu : t ≠ u) {a b : Thread}
    (h : a.holdings + b.holdings = (thread t).holdings + (thread u).holdings) :
    total (Function.update (Function.update thread t a) u b) = total thread := by
  have h₁ := total_add_holdings thread t a
  have h₂ := total_add_holdings (Function.update thread t a) u b
  rw [Function.update_of_ne htu.symm] at h₂
  simp only [Holdings.ext_iff, Holdings.add_weak, Holdings.add_strong, Holdings.add_settled,
    Holdings.add_dying, Holdings.add_final, Holdings.add_base] at h h₁ h₂ ⊢
  omega

theorem Inv.give (hi : Inv life s) (htu : t ≠ u) {a b : Thread} (ha : a.pc = .idle)
    (hb : b.pc = (s.thread u).pc) (hsp : (s.thread u).sp ≤ b.sp) (hwp : (s.thread u).wp ≤ b.wp)
    (ht : s.thread t ≠ Thread.none) (htpc : (s.thread t).pc = .idle)
    (h : a.holdings + b.holdings = (s.thread t).holdings + (s.thread u).holdings) :
    Inv life { s with thread := Function.update (Function.update s.thread t a) u b } := by
  have hnot : ∀ v, ¬(s.thread v).Starting := by
    intro v hst
    rcases eq_or_ne t v with rfl | hv
    · obtain ⟨-, h | h⟩ := hst <;> rw [htpc] at h <;> cases h
    · exact ht ((hi.alone v hst).2 t hv)
  have hfits : b.Fits life := by
    have hu := hi.fits u
    have hsub : (s.thread u).pc ≠ .subInitial := by
      intro hpc
      rw [Thread.Fits, hpc] at hu
      exact hnot u ⟨hu, .inr hpc⟩
    unfold Thread.Fits at hu ⊢
    rw [hb]
    cases hpc : (s.thread u).pc
    case subInitial => exact absurd hpc hsub
    case attemptWeak =>
      simp only [hpc] at hu ⊢
      omega
    case promoteWeak =>
      simp only [hpc] at hu ⊢
      omega
    all_goals
      simp only [hpc] at hu ⊢
      try exact hu
  refine ⟨?_, fun v => ?_, fun v hst => ?_⟩
  · dsimp only
    rw [total_give s.thread htu h]
    exact hi.balance
  · dsimp only
    rcases eq_or_ne v u with rfl | hvu
    · rw [Function.update_self]
      exact hfits
    · rw [Function.update_of_ne hvu]
      rcases eq_or_ne v t with rfl | hvt
      · rw [Function.update_self, Thread.Fits, ha]
        trivial
      · rw [Function.update_of_ne hvt]
        exact hi.fits v
  · dsimp only at hst
    exfalso
    rcases eq_or_ne v u with rfl | hvu
    · rw [Function.update_self] at hst
      obtain ⟨hs, hpc⟩ := hst
      rw [hb] at hpc
      exact hnot v ⟨by omega, hpc⟩
    · rw [Function.update_of_ne hvu] at hst
      rcases eq_or_ne v t with rfl | hvt
      · rw [Function.update_self] at hst
        obtain ⟨-, hpc | hpc⟩ := hst <;> rw [ha] at hpc <;> cases hpc
      · rw [Function.update_of_ne hvt] at hst
        exact hnot v hst

/-- **One step.** -/
theorem Inv.step {a : Act T} (hi : Inv life s) (ha : allowed s a)
    (h : RefBase.step life s a = some s') : Inv life s' := by
  cases a with
  | begin t call =>
    simp only [RefBase.step] at h
    split_ifs at h with hpc
    cases h
    exact hi.begin hpc ha
  | resume t agreed =>
    simp only [RefBase.step, Option.map_eq_some_iff, Prod.exists] at h
    obtain ⟨sh, th, hres, rfl⟩ := h
    exact hi.resume ha hres
  | giveStrong t u =>
    simp only [RefBase.step] at h
    split_ifs at h with hc
    obtain ⟨htu, hpc, hpos⟩ := hc
    cases h
    rw [Function.update_of_ne htu.symm]
    refine hi.give htu hpc rfl (Nat.le_succ _) (Nat.le_refl _) (fun hnone => ?_) hpc ?_
    · rw [hnone] at hpos
      exact absurd hpos (by decide)
    · ext <;> simp [Thread.holdings, refs] <;> omega
  | giveWeak t u =>
    simp only [RefBase.step] at h
    split_ifs at h with hc
    obtain ⟨htu, hpc, hpos⟩ := hc
    cases h
    rw [Function.update_of_ne htu.symm]
    refine hi.give htu hpc rfl (Nat.le_refl _) (Nat.le_succ _) (fun hnone => ?_) hpc ?_
    · rw [hnone] at hpos
      exact absurd hpos (by decide)
    · ext <;> simp [Thread.holdings, refs]
      omega

theorem inv_of_reach (h : Reach (step life) allowed Start s) : Inv life s :=
  h.invariant (fun _ => Inv.start) fun _ _ _ _ hi ha hs => hi.step ha hs

theorem holdings_le_total (thread : T → Thread) (t : T) :
    (thread t).sp ≤ (total thread).strong ∧ (thread t).sp + (thread t).wp ≤ (total thread).weak := by
  rw [total_eq thread t]
  simp only [Thread.holdings, refs, Holdings.add_strong, Holdings.add_weak]
  omega

/-- **Reference counting.**  In every run nothing is used after it was deleted and no assertion fails, the
object and its `weakref_impl` are deleted at most once, not before the references to them are gone, and
then both. -/
theorem refBase_safe (h : Reach (step life) allowed Start s) :
    s.shared.faults = 0 ∧ s.shared.deleted ≤ 1 ∧ s.shared.freed ≤ 1 ∧
      (∀ t, 0 < (s.thread t).sp → s.shared.deleted = 0) ∧
      (∀ t, 0 < (s.thread t).sp + (s.thread t).wp → s.shared.freed = 0) ∧
      (0 < s.calls → (∀ t, s.thread t = Thread.none) →
        s.shared.deleted = 1 ∧ s.shared.freed = 1) := by
  have hb := (inv_of_reach h).balance
  refine ⟨hb.faults, ?_, ?_, fun t ht => ?_, fun t ht => ?_, fun hcalls hnone => ?_⟩
  · cases life <;> grind
  · grind
  · have hle := holdings_le_total s.thread t
    exact hb.alive (by omega) fun _ => .inr (by omega)
  · have hle := holdings_le_total s.thread t
    exact hb.freed (by omega)
  · have htotal : (total s.thread).weak = 0 ∧ (total s.thread).final = 0 := by
      have hth : s.thread = fun _ => Thread.none := funext hnone
      rw [hth]
      exact ⟨tally_eq_zero_iff.mpr fun _ => rfl, tally_eq_zero_iff.mpr fun _ => rfl⟩
    have hf : s.shared.freed ≠ 0 := fun hf => by
      have := hb.kept hcalls hf
      omega
    exact ⟨(hb.ended hf).2.2.2, (hb.ended hf).1⟩

/-- One thread drops the last strong reference between the load and the exchange of another one that
promotes its weak reference. -/
def race : List (Act Bool) :=
  [.begin false .incStrong, .resume false true, .resume false true, .resume false true,
    .begin false .incWeak, .giveWeak false true, .begin true .attemptIncStrong, .resume true true,
    .begin false .decStrong, .resume false true, .resume true true, .resume true true,
    .resume false true, .resume false true, .resume true true, .resume false true,
    .begin true .decWeak, .resume true true, .resume true true, .resume true true]

theorem refBase_safe_race : ∃ s : State Bool, Reach (step .strong) allowed Start s ∧ 0 < s.calls ∧
    s.shared.faults = 0 ∧ s.shared.deleted = 1 ∧ s.shared.freed = 1 := by
  have hstart : Start (⟨⟨initialStrongValue, 0, 0, 0, 0⟩, 0, fun _ => Thread.none⟩ : State Bool) :=
    ⟨rfl, rfl, fun _ => rfl⟩
  have hexec : (exec (step .strong) allowed
      ⟨⟨initialStrongValue, 0, 0, 0, 0⟩, 0, fun _ => Thread.none⟩ race).map
        (fun s : State Bool => (s.calls, s.thread false, s.thread true)) =
      some (5, Thread.none, Thread.none) := by
    decide +kernel
  obtain ⟨s, hs, hv⟩ := Reach.of_exec hstart hexec
  simp only [Prod.mk.injEq] at hv
  obtain ⟨hcalls, hfalse, htrue⟩ := hv
  have hpos : 0 < s.calls := by omega
  obtain ⟨hfaults, -, -, -, -, hend⟩ := refBase_safe hs
  refine ⟨s, hs, hpos, hfaults, hend hpos fun t => ?_⟩
  cases t
  · exact hfalse
  · exact htrue

end Runs

end RefBase

end IntelCamera
