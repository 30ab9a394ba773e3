import IntelCamera.Lib.Bytes
import IntelCamera.Lib.Machine
import IntelCamera.Lib.Runs
import IntelCamera.Lib.Store
import IntelCamera.Lib.Tally

/-!
# SharedBuffer — reference-counted storage, copied before it is edited (`SharedBuffer.cpp`)

`String8`, `String16` and `VectorImpl` keep their data in a `SharedBuffer` and share it when they are
copied.  `mRefs` is changed atomically, but `onlyOwner` is a plain load: `edit`, `editResize` and
`attemptEdit` write in place after it, and `release` frees after it.

The steps here are single loads, stores and atomic operations, allocations and copies of any number of
owners, in any order.  An owner is a string or a vector with one reference, used by one thread at a time.
`value` is what it should hold, changed by its own operations only: the runs are those of values that
are never shared (`sharedBuffer_isolated`).
-/

namespace IntelCamera

open Lib

namespace SharedBuffer

/-! ### The code -/

/-- `sizeof(SharedBuffer)`. -/
abbrev headerSize : ℕ := 24

/-- `LOG_ALWAYS_FATAL_IF((size >= (SIZE_MAX - sizeof(SharedBuffer))), ...)`. -/
def Fatal (size : ℕ) : Prop := 2 ^ 64 - 1 - headerSize ≤ size

instance (size : ℕ) : Decidable (Fatal size) := inferInstanceAs (Decidable (_ ≤ _))

/-- `SharedBuffer` and the data behind it; `mSize` is the length of the data. -/
structure Buffer where
  mRefs : ℤ
  data : List UInt8
deriving DecidableEq, Repr

/-- Where an owner is.  `k` is the buffer that the call returns, when it has one by now. -/
inductive Pc
  | none
  | idle (p : ℕ)
  -- after `edit`, `editResize`, `attemptEdit` or `reset` returned `p`
  | writable (p : ℕ)
  -- `edit` and `editResize`: `alloc`, and the copy
  | copying (p newSize : ℕ)
  | memcpy (p q : ℕ)
  -- `editResize` of the only owner
  | resize (p newSize : ℕ)
  -- `release`: `onlyOwner`, `android_atomic_dec`, `mRefs = 0`, `free`
  | release (p : ℕ) (keepStorage : Bool) (k : Option ℕ)
  | dec (p : ℕ) (keepStorage : Bool) (k : Option ℕ)
  | zero (p : ℕ) (keepStorage : Bool) (k : Option ℕ)
  | free (p : ℕ) (k : Option ℕ)
  -- `dealloc` after a `release` that kept the storage
  | dealloc (p : ℕ) (k : Option ℕ)
deriving DecidableEq, Repr

/-- The end of a call that returns `k`. -/
def Pc.done : Option ℕ → Pc
  | .none => .none
  | .some q => .writable q

/-- The memory, the owners, what each should hold, and how often freed memory was used. -/
structure State (O : Type) where
  mem : Store Buffer
  owner : O → Pc
  value : O → List UInt8
  faults : ℕ

/-- What a thread does.  `ok` is the answer of `malloc` or `realloc`, `junk` what the memory held. -/
inductive Act (O : Type)
  | alloc (o : O) (ok : Bool) (size : ℕ) (junk : ℕ → UInt8)
  | acquire (o o' : O)
  | edit (o : O)
  | editResize (o : O) (newSize : ℕ)
  | attemptEdit (o : O)
  | reset (o : O) (ok : Bool) (newSize : ℕ) (junk : ℕ → UInt8)
  | release (o : O) (keepStorage : Bool)
  | write (o : O) (i : ℕ) (b : UInt8)
  | settle (o : O)
  | resume (o : O) (ok : Bool) (junk : ℕ → UInt8)

/-- Memory as `malloc` returns it. -/
def fresh (size : ℕ) (junk : ℕ → UInt8) : List UInt8 := (List.range size).map junk

/-- What `editResize` copies: as much of `old` as fits over the new memory. -/
def overlay (old new : List UInt8) : List UInt8 := Lib.memcpy new 0 (old.take new.length)

section Code

variable {O : Type} [DecidableEq O]

/-- Continue with the buffer at `p`, if it is there. -/
def State.access (s : State O) (p : ℕ) (f : Buffer → Option (State O)) : Option (State O) :=
  match s.mem.get p with
  | some b => f b
  | none => some { s with faults := s.faults + 1 }

def State.goto (s : State O) (o : O) (pc : Pc) : State O :=
  { s with owner := Function.update s.owner o pc }

def State.setValue (s : State O) (o : O) (v : List UInt8) : State O :=
  { s with value := Function.update s.value o v }

/-- A step of a call that has begun. -/
def resume (s : State O) (o : O) (ok : Bool) (junk : ℕ → UInt8) : Option (State O) :=
  match s.owner o with
  | .none => none
  | .idle _ => none
  | .writable _ => none
  | .copying p newSize =>
    if Fatal newSize then none
    else if ok then
      some ({ s with mem := s.mem.alloc ⟨1, fresh newSize junk⟩ }.goto o (.memcpy p s.mem.next))
    else some (s.goto o (.idle p))
  | .memcpy p q =>
    s.access p fun b => s.access q fun c =>
      some (({ s with mem := s.mem.set q { c with data := overlay b.data c.data } }.setValue o
        (overlay (s.value o) c.data)).goto o (.release p false (some q)))
  | .resize p newSize =>
    s.access p fun b =>
      if b.data.length = newSize then some (s.goto o (.writable p))
      else if Fatal newSize then none
      else if ok then
        -- `realloc` moves the buffer
        some (({ s with mem :=
          (s.mem.free p).alloc { b with data := overlay b.data (fresh newSize junk) } }.setValue o
            (overlay (s.value o) (fresh newSize junk))).goto o (.writable s.mem.next))
      else some (s.goto o (.copying p newSize))
  | .release p keep k =>
    s.access p fun b => some (s.goto o (if b.mRefs = 1 then .zero p keep k else .dec p keep k))
  | .dec p keep k =>
    s.access p fun b =>
      some ({ s with mem := s.mem.set p { b with mRefs := (b.mRefs - 1).bmod (2 ^ 32) } }.goto o
        (if b.mRefs = 1 then .zero p keep k else .done k))
  | .zero p keep k =>
    s.access p fun b =>
      some ({ s with mem := s.mem.set p { b with mRefs := 0 } }.goto o
        (if keep then .dealloc p k else .free p k))
  | .free p k => s.access p fun _ => some ({ s with mem := s.mem.free p }.goto o (.done k))
  | .dealloc p k =>
    s.access p fun b =>
      if b.mRefs ≠ 0 then some (s.goto o (.done k))
      else some ({ s with mem := s.mem.free p }.goto o (.done k))

/-- The first step of a call, and what an owner does between calls. -/
def step (s : State O) : Act O → Option (State O)
  | .alloc o ok size junk =>
    if s.owner o = .none then
      if Fatal size then none
      else if ok then
        some (({ s with mem := s.mem.alloc ⟨1, fresh size junk⟩ }.setValue o (fresh size junk)).goto o
          (.writable s.mem.next))
      else some s
    else none
  | .acquire o o' =>
    if s.owner o' = .none then
      match s.owner o with
      | .idle p =>
        s.access p fun b =>
          some (({ s with mem := s.mem.set p { b with mRefs := (b.mRefs + 1).bmod (2 ^ 32) } }.setValue o'
            (s.value o)).goto o' (.idle p))
      | _ => none
    else none
  | .edit o =>
    match s.owner o with
    | .idle p =>
      s.access p fun b =>
        some (s.goto o (if b.mRefs = 1 then .writable p else .copying p b.data.length))
    | _ => none
  | .editResize o newSize =>
    match s.owner o with
    | .idle p =>
      s.access p fun b =>
        some (s.goto o (if b.mRefs = 1 then .resize p newSize else .copying p newSize))
    | _ => none
  | .attemptEdit o =>
    match s.owner o with
    | .idle p => s.access p fun b => some (if b.mRefs = 1 then s.goto o (.writable p) else s)
    | _ => none
  | .reset o ok newSize junk =>
    match s.owner o with
    | .idle p =>
      if Fatal newSize then none
      else if ok then
        some (({ s with mem := s.mem.alloc ⟨1, fresh newSize junk⟩ }.setValue o
          (fresh newSize junk)).goto o (.release p false (some s.mem.next)))
      else some s
    | _ => none
  | .release o keep =>
    match s.owner o with
    | .idle p => some (s.goto o (.release p keep none))
    | _ => none
  | .write o i x =>
    match s.owner o with
    | .writable p =>
      s.access p fun b =>
        some ({ s with mem := s.mem.set p { b with data := b.data.set i x } }.setValue o
          ((s.value o).set i x))
    | _ => none
  | .settle o =>
    match s.owner o with
    | .writable p => some (s.goto o (.idle p))
    | _ => none
  | .resume o ok junk => resume s o ok junk

end Code

/-! ### What an owner refers to -/

/-- The buffers on which the owner has a reference. -/
def Pc.held : Pc → List ℕ
  | .none => []
  | .idle p | .writable p | .copying p _ | .resize p _ => [p]
  | .memcpy p q => [p, q]
  | .release p _ k | .dec p _ k => p :: k.toList
  | .zero _ _ k | .free _ k | .dealloc _ k => k.toList

/-- The buffer that the owner is about to free. -/
def Pc.ends : Pc → List ℕ
  | .zero p _ _ | .free p _ | .dealloc p _ => [p]
  | _ => []

/-- The buffers that nobody else knows of. -/
def Pc.exclusive : Pc → List ℕ
  | .writable p | .resize p _ => [p]
  | .memcpy _ q => [q]
  | .release _ _ k | .dec _ _ k | .zero _ _ k | .free _ k | .dealloc _ k => k.toList
  | _ => []

/-- The buffer with the value of the owner. -/
def Pc.sees : Pc → Option ℕ
  | .none => .none
  | .idle p | .writable p | .copying p _ | .resize p _ | .memcpy p _ => some p
  | .release _ _ k | .dec _ _ k | .zero _ _ k | .free _ k | .dealloc _ k => k

/-- `mRefs` has been set to 0. -/
def Pc.zeroed : Pc → Option ℕ
  | .free p _ | .dealloc p _ => some p
  | _ => .none

section Runs

variable {O : Type}

/-- There are never `2 ^ 31` references to a buffer. -/
def allowed (s : State O) : Act O → Prop
  | .acquire o _ => ∀ p ∈ (s.owner o).held, ∀ b ∈ s.mem.get p, b.mRefs + 1 < 2 ^ 31
  | _ => True

instance (s : State O) : (a : Act O) → Decidable (allowed s a)
  | .acquire o _ =>
    inferInstanceAs (Decidable (∀ p ∈ (s.owner o).held, ∀ b ∈ s.mem.get p, b.mRefs + 1 < 2 ^ 31))
  | .alloc .. | .edit .. | .editResize .. | .attemptEdit .. | .reset .. | .release .. | .write ..
  | .settle .. | .resume .. => inferInstanceAs (Decidable True)

/-- No owner has a buffer. -/
def Start (s : State O) : Prop :=
  s.mem = Store.empty ∧ s.faults = 0 ∧ ∀ o, s.owner o = .none

end Runs

section Refers

variable {pc : Pc} {p : ℕ}

theorem Pc.held_of_exclusive (h : p ∈ pc.exclusive) : p ∈ pc.held := by
  cases pc <;> simp_all [Pc.exclusive, Pc.held]

theorem Pc.held_of_sees (h : pc.sees = some p) : p ∈ pc.held := by
  cases pc <;> simp_all [Pc.sees, Pc.held]

theorem Pc.ends_of_zeroed (h : pc.zeroed = some p) : p ∈ pc.ends := by
  cases pc <;> simp_all [Pc.zeroed, Pc.ends]

@[simp] theorem Pc.held_done (k : Option ℕ) : (Pc.done k).held = k.toList := by
  cases k <;> rfl

@[simp] theorem Pc.ends_done (k : Option ℕ) : (Pc.done k).ends = [] := by
  cases k <;> rfl

@[simp] theorem Pc.exclusive_done (k : Option ℕ) : (Pc.done k).exclusive = k.toList := by
  cases k <;> rfl

@[simp] theorem Pc.sees_done (k : Option ℕ) : (Pc.done k).sees = k := by
  cases k <;> rfl

@[simp] theorem Pc.zeroed_done (k : Option ℕ) : (Pc.done k).zeroed = Option.none := by
  cases k <;> rfl

end Refers

/-! ### The invariant -/

section Inv

variable {O : Type} [Fintype O]

/-- How many references there are on `p`. -/
def references (owner : O → Pc) (p : ℕ) : ℕ := tally (fun pc => pc.held.count p) owner

/-- How many owners are about to free `p`. -/
def ending (owner : O → Pc) (p : ℕ) : ℕ := tally (fun pc => pc.ends.count p) owner

/-- A buffer is counted, or its last owner is about to free it. -/
def PtrOk (b : Option Buffer) (references ending : ℕ) : Prop :=
  match b with
  | none => references = 0 ∧ ending = 0
  | some b =>
    (ending = 0 ∧ b.mRefs = references ∧ 0 < references ∧ references < 2 ^ 31) ∨
      (ending = 1 ∧ references = 0)

structure Inv (s : State O) : Prop where
  ptr : ∀ p, PtrOk (s.mem.get p) (references s.owner p) (ending s.owner p)
  exclusive : ∀ o p, p ∈ (s.owner o).exclusive → references s.owner p = 1
  zeroed : ∀ o p b, (s.owner o).zeroed = some p → s.mem.get p = some b → b.mRefs = 0
  value : ∀ o p b, (s.owner o).sees = some p → s.mem.get p = some b → b.data = s.value o
  faults : s.faults = 0

variable {s s' : State O} {o o' : O} {p r : ℕ} {owner : O → Pc}

theorem count_pos (h : p ∈ (owner o).held) : 0 < references owner p :=
  (List.count_pos_iff.mpr h).trans_le (le_tally (fun pc => pc.held.count p) owner o)

theorem ending_pos (h : p ∈ (owner o).ends) : 0 < ending owner p :=
  (List.count_pos_iff.mpr h).trans_le (le_tally (fun pc => pc.ends.count p) owner o)

theorem Inv.live (hi : Inv s) (h : p ∈ (s.owner o).held) : ∃ b, s.mem.get p = some b ∧
    ending s.owner p = 0 ∧ b.mRefs = references s.owner p := by
  have hp := hi.ptr p
  have hpos := count_pos h
  cases hg : s.mem.get p with
  | none =>
    rw [hg] at hp
    have := hp.1
    omega
  | some b =>
    rw [hg] at hp
    rcases hp with ⟨he, hr, -⟩ | ⟨-, hr⟩
    · exact ⟨b, rfl, he, hr⟩
    · omega

theorem Inv.live_ends (hi : Inv s) (h : p ∈ (s.owner o).ends) : ∃ b, s.mem.get p = some b ∧
    ending s.owner p = 1 ∧ references s.owner p = 0 := by
  have hp := hi.ptr p
  have hpos := ending_pos h
  cases hg : s.mem.get p with
  | none =>
    rw [hg] at hp
    have := hp.2
    omega
  | some b =>
    rw [hg] at hp
    rcases hp with ⟨he, -, -⟩ | ⟨he, hr⟩
    · omega
    · exact ⟨b, rfl, he, hr⟩

variable [DecidableEq O]

/-- The owners other than `o`. -/
def others (owner : O → Pc) (o : O) : O → Pc := Function.update owner o .none

theorem references_update (owner : O → Pc) (o : O) (pc : Pc) (r : ℕ) :
    references (Function.update owner o pc) r = references (others owner o) r + pc.held.count r :=
  tally_update_eq_add (fun pc : Pc => pc.held.count r) (a := .none) (by simp [Pc.held]) owner o pc

theorem ending_update (owner : O → Pc) (o : O) (pc : Pc) (r : ℕ) :
    ending (Function.update owner o pc) r = ending (others owner o) r + pc.ends.count r :=
  tally_update_eq_add (fun pc : Pc => pc.ends.count r) (a := .none) (by simp [Pc.ends]) owner o pc

theorem references_eq (owner : O → Pc) (o : O) (r : ℕ) :
    references owner r = references (others owner o) r + (owner o).held.count r := by
  rw [← references_update, Function.update_eq_self]

theorem ending_eq (owner : O → Pc) (o : O) (r : ℕ) :
    ending owner r = ending (others owner o) r + (owner o).ends.count r := by
  rw [← ending_update, Function.update_eq_self]

omit [Fintype O] in
theorem others_of_ne (h : o' ≠ o) : others owner o o' = owner o' := Function.update_of_ne h _ _

/-- Another owner's reference is one of the others'. -/
theorem others_pos (h : o' ≠ o) (hp : p ∈ (owner o').held) : 0 < references (others owner o) p :=
  count_pos (o := o') (by rw [others_of_ne h]; exact hp)

theorem others_ending_pos (h : o' ≠ o) (hp : p ∈ (owner o').ends) :
    0 < ending (others owner o) p :=
  ending_pos (o := o') (by rw [others_of_ne h]; exact hp)

/-- **One owner moves**: it leaves alone the buffers it does not refer to, and the data of those it
shares; it gets references that it had, that are new, or that it copies from an owner between calls. -/
theorem Inv.update (hi : Inv s) {m : Store Buffer} {c : Pc} {v : List UInt8}
    (hframe : ∀ r b, s.mem.get r = some b → r ∉ (s.owner o).held → r ∉ (s.owner o).ends →
      ∃ b', m.get r = some b' ∧ b'.data = b.data ∧ (ending s.owner r ≠ 0 → b' = b))
    (hshare : ∀ r b, s.mem.get r = some b → r ∈ (s.owner o).held → r ∉ (s.owner o).exclusive →
      ∃ b', m.get r = some b' ∧ b'.data = b.data)
    (hnew : ∀ r ∈ c.held, r ∈ (s.owner o).held ∨ s.mem.get r = none ∨
      ∃ o', o' ≠ o ∧ s.owner o' = .idle r)
    (hptr : ∀ r, PtrOk (s.mem.get r) (references (others s.owner o) r + (s.owner o).held.count r)
        (ending (others s.owner o) r + (s.owner o).ends.count r) →
      PtrOk (m.get r) (references (others s.owner o) r + c.held.count r)
        (ending (others s.owner o) r + c.ends.count r))
    (hexcl : ∀ r ∈ c.exclusive, references (others s.owner o) r + c.held.count r = 1)
    (hzero : ∀ r b, c.zeroed = some r → m.get r = some b → b.mRefs = 0)
    (hval : ∀ r b, c.sees = some r → m.get r = some b → b.data = v) :
    Inv ⟨m, Function.update s.owner o c, Function.update s.value o v, s.faults⟩ := by
  refine ⟨fun r => ?_, fun o' r hr => ?_, fun o' r b hz hb => ?_, fun o' r b hs hb => ?_, hi.faults⟩
  · simp only [references_update, ending_update]
    apply hptr
    rw [← references_eq, ← ending_eq]
    exact hi.ptr r
  · dsimp only at hr ⊢
    rw [references_update]
    by_cases ho : o' = o
    · subst ho
      rw [Function.update_self] at hr
      exact hexcl r hr
    · rw [Function.update_of_ne ho] at hr
      have hone := hi.exclusive o' r hr
      have hpos := others_pos ho (Pc.held_of_exclusive hr)
      rw [references_eq _ o] at hone
      have hnot : r ∉ c.held := by
        intro hmem
        rcases hnew r hmem with hold | hdead | ⟨o'', ho'', hidle⟩
        · have := List.count_pos_iff.mpr hold
          omega
        · obtain ⟨b, hb, -⟩ := hi.live (Pc.held_of_exclusive hr)
          rw [hdead] at hb
          cases hb
        · -- an owner between calls is not exclusive, so it is a third one
          have hne : o'' ≠ o' := by
            rintro rfl
            rw [hidle] at hr
            cases hr
          have h2 := others_pos hne (show r ∈ (s.owner o'').held by rw [hidle]; simp [Pc.held])
          have h3 := references_eq s.owner o' r
          have h4 := List.count_pos_iff.mpr (Pc.held_of_exclusive hr)
          have h5 := hi.exclusive o' r hr
          omega
      have := List.count_eq_zero.mpr hnot
      omega
  · dsimp only at hz hb
    by_cases ho : o' = o
    · subst ho
      rw [Function.update_self] at hz
      exact hzero r b hz hb
    · rw [Function.update_of_ne ho] at hz
      have hends := Pc.ends_of_zeroed hz
      obtain ⟨b₀, hb₀, he, hr0⟩ := hi.live_ends hends
      have hpos := others_ending_pos ho hends
      have hh : r ∉ (s.owner o).held := by
        intro hmem
        have := count_pos hmem
        omega
      have hne : r ∉ (s.owner o).ends := by
        intro hmem
        have := List.count_pos_iff.mpr hmem
        have := ending_eq s.owner o r
        omega
      obtain ⟨b', hb', -, heq⟩ := hframe r b₀ hb₀ hh hne
      obtain rfl := Option.some.inj (hb.symm.trans hb')
      rw [heq (by omega)]
      exact hi.zeroed o' r b₀ hz hb₀
  · dsimp only at hs hb ⊢
    by_cases ho : o' = o
    · subst ho
      rw [Function.update_self] at hs ⊢
      exact hval r b hs hb
    · rw [Function.update_of_ne ho] at hs ⊢
      have hheld := Pc.held_of_sees hs
      obtain ⟨b₀, hb₀, he, -⟩ := hi.live hheld
      have hv := hi.value o' r b₀ hs hb₀
      have hne : r ∉ (s.owner o).ends := by
        intro hmem
        have := ending_pos hmem
        omega
      have hkeep : ∃ b', m.get r = some b' ∧ b'.data = b₀.data := by
        by_cases hh : r ∈ (s.owner o).held
        · refine hshare r b₀ hb₀ hh ?_
          intro hx
          have h1 := hi.exclusive o r hx
          have h2 := references_eq s.owner o r
          have h3 := others_pos ho hheld
          have h4 := List.count_pos_iff.mpr hh
          omega
        · obtain ⟨b', hb', hd, -⟩ := hframe r b₀ hb₀ hh hne
          exact ⟨b', hb', hd⟩
      obtain ⟨b', hb', hd⟩ := hkeep
      obtain rfl := Option.some.inj (hb.symm.trans hb')
      rw [hd, hv]

/-! ### The steps -/

/-- A step that only loads. -/
theorem Inv.goto (hi : Inv s) {pc : Pc} (hheld : pc.held = (s.owner o).held)
    (hends : pc.ends = (s.owner o).ends) (hexcl : ∀ r ∈ pc.exclusive, references s.owner r = 1)
    (hzero : pc.zeroed = .none) (hsees : ∀ r, pc.sees = some r → (s.owner o).sees = some r) :
    Inv (s.goto o pc) := by
  have h := hi.update (o := o) (m := s.mem) (c := pc) (v := s.value o)
    (fun r b hb _ _ => ⟨b, hb, rfl, fun _ => rfl⟩) (fun r b hb _ _ => ⟨b, hb, rfl⟩)
    (fun r hr => Or.inl (hheld ▸ hr)) (fun r hr => by rw [hheld, hends]; exact hr) ?_ ?_ ?_
  · rw [Function.update_eq_self] at h
    exact h
  · intro r hr
    rw [hheld, ← references_eq]
    exact hexcl r hr
  · intro r b hz
    rw [hzero] at hz
    cases hz
  · intro r b hs hb
    exact hi.value o r b (hsees r hs) hb

/-- `alloc`: a buffer that only `o` knows. -/
theorem Inv.alloc (hi : Inv s) {pc : Pc} {d v : List UInt8}
    (hheld : ∀ r, pc.held.count r = (s.owner o).held.count r + if r = s.mem.next then 1 else 0)
    (hends : pc.ends = (s.owner o).ends) (hexcl : ∀ r ∈ pc.exclusive, r = s.mem.next)
    (hzero : pc.zeroed = .none)
    (hsees : ∀ r, pc.sees = some r → (r = s.mem.next ∧ v = d) ∨
      ((s.owner o).sees = some r ∧ v = s.value o)) :
    Inv (({ s with mem := s.mem.alloc ⟨1, d⟩ }.setValue o v).goto o pc) := by
  have hnext : s.mem.get s.mem.next = none := by
    cases hg : s.mem.get s.mem.next with
    | none => rfl
    | some b => exact absurd (Store.lt_next hg) (lt_irrefl _)
  have hne : ∀ {r b}, s.mem.get r = some b → r ≠ s.mem.next := fun hb => (Store.lt_next hb).ne
  have hfree := hi.ptr s.mem.next
  rw [hnext, references_eq _ o, ending_eq _ o] at hfree
  refine hi.update (m := s.mem.alloc ⟨1, d⟩) ?_ ?_ ?_ ?_ ?_ ?_ ?_
  · intro r b hb _ _
    exact ⟨b, by rw [Store.get_alloc_ne (hne hb)]; exact hb, rfl, fun _ => rfl⟩
  · intro r b hb _ _
    exact ⟨b, by rw [Store.get_alloc_ne (hne hb)]; exact hb, rfl⟩
  · intro r hr
    have hc := List.count_pos_iff.mpr hr
    rw [hheld] at hc
    by_cases hrn : r = s.mem.next
    · exact Or.inr (Or.inl (hrn ▸ hnext))
    · rw [if_neg hrn] at hc
      exact Or.inl (List.count_pos_iff.mp hc)
  · intro r hr
    rw [hheld, hends]
    by_cases hrn : r = s.mem.next
    · subst hrn
      rw [Store.get_alloc_next, if_pos rfl]
      rw [hnext] at hr
      obtain ⟨h1, h2⟩ := hr
      refine Or.inl ⟨h2, ?_, by omega, by omega⟩
      rw [← Nat.add_assoc, h1]
      rfl
    · rw [Store.get_alloc_ne hrn, if_neg hrn]
      exact hr
  · intro r hr
    obtain rfl := hexcl r hr
    rw [hheld, if_pos rfl, ← Nat.add_assoc, hfree.1]
  · intro r b hz
    rw [hzero] at hz
    cases hz
  · intro r b hs hb
    rcases hsees r hs with ⟨rfl, rfl⟩ | ⟨hold, rfl⟩
    · rw [Store.get_alloc_next] at hb
      exact (Option.some.inj hb) ▸ rfl
    · obtain ⟨b₀, hb₀, -⟩ := hi.live (Pc.held_of_sees hold)
      rw [Store.get_alloc_ne (hne hb₀)] at hb
      exact hi.value o r b hold hb

/-- A store to the buffer at `p`: `o` refers to it, or only the counter changes. -/
theorem Inv.set (hi : Inv s) {b b' : Buffer} {c : Pc} {v : List UInt8} (hb : s.mem.get p = some b)
    (hp : p ∈ (s.owner o).held ∨ p ∈ (s.owner o).ends ∨
      (b'.data = b.data ∧ ending s.owner p = 0))
    (hdata : p ∈ (s.owner o).held → p ∉ (s.owner o).exclusive → b'.data = b.data)
    (hnew : ∀ r ∈ c.held, r ∈ (s.owner o).held ∨ ∃ o', o' ≠ o ∧ s.owner o' = .idle r)
    (hptr : PtrOk (some b) (references (others s.owner o) p + (s.owner o).held.count p)
        (ending (others s.owner o) p + (s.owner o).ends.count p) →
      PtrOk (some b') (references (others s.owner o) p + c.held.count p)
        (ending (others s.owner o) p + c.ends.count p))
    (hother : ∀ r, r ≠ p → c.held.count r = (s.owner o).held.count r ∧
      c.ends.count r = (s.owner o).ends.count r)
    (hexcl : ∀ r ∈ c.exclusive, r ∈ (s.owner o).exclusive ∧ c.held.count r = (s.owner o).held.count r)
    (hzero : ∀ r, c.zeroed = some r → r = p ∧ b'.mRefs = 0)
    (hval : ∀ r, c.sees = some r → (r = p ∧ b'.data = v) ∨
      (r ≠ p ∧ (s.owner o).sees = some r ∧ v = s.value o)) :
    Inv (({ s with mem := s.mem.set p b' }.setValue o v).goto o c) := by
  have hset : (s.mem.set p b').get p = some b' := Store.get_set (Store.lt_next hb)
  refine hi.update (m := s.mem.set p b') ?_ ?_ ?_ ?_ ?_ ?_ ?_
  · intro r b₀ hb₀ hh he
    by_cases hr : r = p
    · subst hr
      obtain rfl := Option.some.inj (hb.symm.trans hb₀)
      rcases hp with hp | hp | ⟨hd, hz⟩
      · exact absurd hp hh
      · exact absurd hp he
      · exact ⟨b', hset, hd, fun hne => absurd hz hne⟩
    · exact ⟨b₀, by rw [Store.get_set_ne hr]; exact hb₀, rfl, fun _ => rfl⟩
  · intro r b₀ hb₀ hh hx
    by_cases hr : r = p
    · subst hr
      obtain rfl := Option.some.inj (hb.symm.trans hb₀)
      exact ⟨b', hset, hdata hh hx⟩
    · exact ⟨b₀, by rw [Store.get_set_ne hr]; exact hb₀, rfl⟩
  · intro r hr
    exact (hnew r hr).imp_right Or.inr
  · intro r hok
    by_cases hr : r = p
    · subst hr
      rw [hset]
      rw [hb] at hok
      exact hptr hok
    · rw [Store.get_set_ne hr, (hother r hr).1, (hother r hr).2]
      exact hok
  · intro r hr
    obtain ⟨hx, hc⟩ := hexcl r hr
    rw [hc, ← references_eq]
    exact hi.exclusive o r hx
  · intro r b₀ hz hb₀
    obtain ⟨rfl, h0⟩ := hzero r hz
    obtain rfl := Option.some.inj (hset.symm.trans hb₀)
    exact h0
  · intro r b₀ hs hb₀
    rcases hval r hs with ⟨rfl, hd⟩ | ⟨hr, hold, rfl⟩
    · obtain rfl := Option.some.inj (hset.symm.trans hb₀)
      exact hd
    · rw [Store.get_set_ne hr] at hb₀
      exact hi.value o r b₀ hold hb₀

/-- `free` by the last owner. -/
theorem Inv.free (hi : Inv s) {k : Option ℕ} (hpc : s.owner o = .free p k ∨ s.owner o = .dealloc p k) :
    Inv ({ s with mem := s.mem.free p }.goto o (.done k)) := by
  have hheld : (s.owner o).held = k.toList := by rcases hpc with h | h <;> rw [h] <;> rfl
  have hends : (s.owner o).ends = [p] := by rcases hpc with h | h <;> rw [h] <;> rfl
  have hexcl : (s.owner o).exclusive = k.toList := by rcases hpc with h | h <;> rw [h] <;> rfl
  have hsees : (s.owner o).sees = k := by rcases hpc with h | h <;> rw [h] <;> rfl
  obtain ⟨-, -, he, hr0⟩ := hi.live_ends (o := o) (p := p) (by rw [hends]; simp)
  have hkp : ∀ r, k = some r → r ≠ p := by
    rintro r rfl rfl
    have : 0 < references s.owner r := count_pos (o := o) (by rw [hheld]; simp)
    omega
  have h := hi.update (o := o) (m := s.mem.free p) (c := .done k) (v := s.value o) ?_ ?_ ?_ ?_ ?_ ?_ ?_
  · rw [Function.update_eq_self] at h
    exact h
  · intro r b₀ hb₀ _ hne
    have hr : r ≠ p := by
      rintro rfl
      rw [hends] at hne
      exact hne (List.mem_singleton_self r)
    exact ⟨b₀, by rw [Store.get_free_ne hr]; exact hb₀, rfl, fun _ => rfl⟩
  · intro r b₀ _ hh hx
    rw [hexcl, ← hheld] at hx
    exact absurd hh hx
  · intro r hr
    rw [hheld, ← Pc.held_done]
    exact Or.inl hr
  · intro r hok
    rw [hheld, hends] at hok
    rw [Pc.held_done, Pc.ends_done]
    by_cases hr : r = p
    · subst hr
      rw [references_eq _ o, hheld] at hr0
      rw [ending_eq _ o, hends, List.count_singleton_self] at he
      rw [Store.get_free, List.count_nil]
      exact ⟨hr0, by omega⟩
    · rw [Store.get_free_ne hr, List.count_nil]
      rw [List.count_singleton, if_neg (by simpa using Ne.symm hr)] at hok
      exact hok
  · intro r hr
    rw [Pc.exclusive_done, ← hexcl] at hr
    rw [Pc.held_done, ← hheld, ← references_eq]
    exact hi.exclusive o r hr
  · intro r b₀ hz
    rw [Pc.zeroed_done] at hz
    cases hz
  · intro r b₀ hs hb₀
    rw [Pc.sees_done] at hs
    rw [Store.get_free_ne (hkp r hs)] at hb₀
    exact hi.value o r b₀ (by rw [hsees]; exact hs) hb₀

/-- `realloc` by the only owner: the buffer is gone, and there is one that only `o` knows. -/
theorem Inv.realloc (hi : Inv s) {b : Buffer} {n : ℕ} {d : List UInt8} (hpc : s.owner o = .resize p n)
    (hb : s.mem.get p = some b) :
    Inv (({ s with mem := (s.mem.free p).alloc { b with data := d } }.setValue o d).goto o
      (.writable s.mem.next)) := by
  have hone : references s.owner p = 1 := hi.exclusive o p (by rw [hpc]; simp [Pc.exclusive])
  obtain ⟨b₀, hb₀, he, hcount⟩ := hi.live (o := o) (p := p) (by rw [hpc]; simp [Pc.held])
  obtain rfl := Option.some.inj (hb.symm.trans hb₀)
  have hrefs : b.mRefs = 1 := by
    rw [hcount, hone]
    rfl
  rw [references_eq _ o, hpc] at hone
  rw [ending_eq _ o, hpc] at he
  simp only [Pc.held, Pc.ends, List.count_singleton_self, List.count_nil] at hone he
  have hnext : s.mem.get s.mem.next = none := by
    cases hg : s.mem.get s.mem.next with
    | none => rfl
    | some b => exact absurd (Store.lt_next hg) (lt_irrefl _)
  have hpn : p ≠ s.mem.next := (Store.lt_next hb).ne
  have hfree := hi.ptr s.mem.next
  rw [hnext, references_eq _ o, ending_eq _ o, hpc] at hfree
  have hget : ∀ r, r ≠ p → r ≠ s.mem.next →
      ((s.mem.free p).alloc { b with data := d }).get r = s.mem.get r := by
    intro r hr hrn
    rw [Store.get_alloc_ne (by rw [Store.next_free]; exact hrn), Store.get_free_ne hr]
  have hnew : ((s.mem.free p).alloc { b with data := d }).get s.mem.next =
      some { b with data := d } := by
    have := Store.get_alloc_next (s := s.mem.free p) (a := { b with data := d })
    rw [Store.next_free] at this
    exact this
  refine hi.update (m := (s.mem.free p).alloc { b with data := d }) ?_ ?_ ?_ ?_ ?_ ?_ ?_
  · intro r b₀ hb₀ hh _
    have hr : r ≠ p := by
      rintro rfl
      exact hh (by rw [hpc]; simp [Pc.held])
    exact ⟨b₀, by rw [hget r hr (Store.lt_next hb₀).ne]; exact hb₀, rfl, fun _ => rfl⟩
  · intro r b₀ _ hh hx
    rw [hpc] at hh hx
    exact absurd hh hx
  · intro r hr
    obtain rfl := List.mem_singleton.mp hr
    exact Or.inr (Or.inl hnext)
  · intro r hok
    rw [hpc] at hok
    simp only [Pc.held, Pc.ends, List.count_nil, List.count_singleton] at hok hfree ⊢
    by_cases hr : r = p
    · subst hr
      rw [Store.get_alloc_ne (by rw [Store.next_free]; exact hpn), Store.get_free,
        if_neg (by simpa using Ne.symm hpn)]
      exact ⟨by omega, he⟩
    · by_cases hrn : r = s.mem.next
      · subst hrn
        rw [hnew]
        rw [if_neg (by simpa using hpn)] at hfree
        obtain ⟨h1, h2⟩ := hfree
        refine Or.inl ⟨h2, ?_, by simp, by simp; omega⟩
        simp only [hrefs, beq_self_eq_true, if_true]
        omega
      · rw [hget r hr hrn, if_neg (by simpa using Ne.symm hrn)]
        rw [if_neg (by simpa using Ne.symm hr)] at hok
        exact hok
  · intro r hr
    obtain rfl := List.mem_singleton.mp hr
    have h1 := hfree.1
    simp only [Pc.held, List.count_singleton] at h1 ⊢
    simp
    omega
  · intro r b₀ hz
    cases hz
  · intro r b₀ hs hb₀
    obtain rfl := Option.some.inj hs
    obtain rfl := Option.some.inj (hnew.symm.trans hb₀)
    rfl

omit [Fintype O] [DecidableEq O] in
theorem State.access_eq {b : Buffer} {f : Buffer → Option (State O)} (hb : s.mem.get p = some b) :
    s.access p f = f b := by
  simp [State.access, hb]

omit [Fintype O] in
@[simp] theorem State.setValue_self (m : Store Buffer) :
    ({ s with mem := m }.setValue o (s.value o) : State O) = { s with mem := m } := by
  simp [State.setValue]

omit [DecidableEq O] in
/-- The owner of a reference that is counted as 1 is the only one. -/
theorem Inv.only_owner (hi : Inv s) {b : Buffer} (h : p ∈ (s.owner o).held) (hb : s.mem.get p = some b)
    (h1 : b.mRefs = 1) : references s.owner p = 1 := by
  obtain ⟨b₀, hb₀, -, hc⟩ := hi.live h
  obtain rfl := Option.some.inj (hb.symm.trans hb₀)
  omega

theorem Inv.memcpy (hi : Inv s) {q : ℕ} {b c : Buffer} (hpc : s.owner o = .memcpy p q)
    (hb : s.mem.get p = some b) (hc : s.mem.get q = some c) :
    Inv (({ s with mem := s.mem.set q { c with data := overlay b.data c.data } }.setValue o
      (overlay (s.value o) c.data)).goto o (.release p false (some q))) := by
  have hv := hi.value o p b (by rw [hpc]; rfl) hb
  refine hi.set hc (Or.inl (by rw [hpc]; simp [Pc.held])) ?_ ?_ ?_ ?_ ?_ ?_ ?_
  · intro _ hx
    exact absurd (by rw [hpc]; simp [Pc.exclusive]) hx
  · intro r hr
    rw [hpc]
    exact Or.inl hr
  · rw [hpc]
    exact fun h => h
  · intro r _
    rw [hpc]
    exact ⟨rfl, rfl⟩
  · intro r hr
    rw [hpc]
    exact ⟨hr, rfl⟩
  · intro r hz
    cases hz
  · intro r hs
    obtain rfl := Option.some.inj hs
    rw [← hv]
    exact Or.inl ⟨rfl, rfl⟩

/-- A reference is given up: the last owner is about to free the buffer, any other is done with it. -/
theorem Inv.drop (hi : Inv s) {b b' : Buffer} {c : Pc} {k : Option ℕ} (hb : s.mem.get p = some b)
    (hheld : (s.owner o).held = p :: k.toList) (hends : (s.owner o).ends = [])
    (hexcl : (s.owner o).exclusive = k.toList) (hsees : (s.owner o).sees = k) (hd : b'.data = b.data)
    (hc : c.held = k.toList) (hcx : c.exclusive = k.toList) (hcs : c.sees = k) (hcz : c.zeroed = .none)
    (hlast : (c.ends = [p] ∧ b.mRefs = 1) ∨ (c.ends = [] ∧ b.mRefs ≠ 1 ∧
      b'.mRefs = (b.mRefs - 1).bmod (2 ^ 32))) :
    Inv ({ s with mem := s.mem.set p b' }.goto o c) := by
  have hne : ∀ r, r ∈ k.toList → r ≠ p := by
    rintro r hr rfl
    have hx := hi.exclusive o r (by rw [hexcl]; exact hr)
    have := List.count_pos_iff.mpr hr
    rw [references_eq _ o, hheld, List.count_cons_self] at hx
    omega
  rw [← State.setValue_self (s := s) (o := o)]
  refine hi.set hb (Or.inl (by rw [hheld]; simp)) (fun _ _ => hd) ?_ ?_ ?_ ?_ ?_ ?_
  · intro r hr
    rw [hc] at hr
    rw [hheld]
    exact Or.inl (List.mem_cons_of_mem _ hr)
  · rw [hheld, hends, hc, List.count_cons_self, List.count_nil]
    rintro (⟨he, hm, -, hlt⟩ | ⟨-, h0⟩)
    · rcases hlast with ⟨hce, h1⟩ | ⟨hce, h1, hm'⟩
      · rw [hce, List.count_singleton_self]
        exact Or.inr ⟨by omega, by omega⟩
      · rw [bmod_of_fits ⟨by omega, by omega⟩] at hm'
        rw [hce, List.count_nil]
        exact Or.inl ⟨he, by omega, by omega, by omega⟩
    · omega
  · intro r hr
    rw [hc, hheld, List.count_cons_of_ne (Ne.symm hr)]
    refine ⟨rfl, ?_⟩
    rcases hlast with ⟨hce, -⟩ | ⟨hce, -⟩
    · rw [hce, hends, List.count_singleton, List.count_nil, if_neg (by simpa using Ne.symm hr)]
    · rw [hce, hends]
  · intro r hr
    rw [hcx] at hr
    rw [hexcl, hc, hheld, List.count_cons_of_ne (Ne.symm (hne r hr))]
    exact ⟨hr, rfl⟩
  · intro r hz
    rw [hcz] at hz
    cases hz
  · intro r hs
    rw [hcs] at hs
    exact Or.inr ⟨hne r (by rw [hs]; simp), hsees.trans hs, rfl⟩

theorem Inv.zero (hi : Inv s) {b : Buffer} {c : Pc} {keep : Bool} {k : Option ℕ}
    (hpc : s.owner o = .zero p keep k) (hb : s.mem.get p = some b)
    (hc : c = .dealloc p k ∨ c = .free p k) :
    Inv ({ s with mem := s.mem.set p { b with mRefs := 0 } }.goto o c) := by
  have hends : c.ends = [p] := by rcases hc with rfl | rfl <;> rfl
  have hheld : c.held = k.toList := by rcases hc with rfl | rfl <;> rfl
  have hexcl : c.exclusive = k.toList := by rcases hc with rfl | rfl <;> rfl
  have hsees : c.sees = k := by rcases hc with rfl | rfl <;> rfl
  have hzeroed : c.zeroed = some p := by rcases hc with rfl | rfl <;> rfl
  obtain ⟨-, -, -, hr0⟩ := hi.live_ends (o := o) (p := p) (by rw [hpc]; simp [Pc.ends])
  rw [← State.setValue_self (s := s) (o := o)]
  refine hi.set hb (Or.inr (Or.inl (by rw [hpc]; simp [Pc.ends]))) (fun _ _ => rfl) ?_ ?_ ?_ ?_ ?_ ?_
  · intro r hr
    rw [hheld] at hr
    rw [hpc]
    exact Or.inl hr
  · rw [hheld, hends, hpc]
    rintro (⟨he, -, -⟩ | h)
    · simp [Pc.ends] at he
    · exact Or.inr h
  · intro r _
    rw [hheld, hends, hpc]
    exact ⟨rfl, rfl⟩
  · intro r hr
    rw [hexcl] at hr
    rw [hheld, hpc]
    exact ⟨hr, rfl⟩
  · intro r hz
    rw [hzeroed] at hz
    exact ⟨(Option.some.inj hz).symm, rfl⟩
  · intro r hs
    rw [hsees] at hs
    have hold : (s.owner o).sees = some r := by
      rw [hpc]
      exact hs
    refine Or.inr ⟨?_, hold, rfl⟩
    rintro rfl
    have := count_pos (Pc.held_of_sees hold)
    omega

theorem count_insert (r q : ℕ) (l : List ℕ) :
    (l ++ [q]).count r = l.count r + if r = q then 1 else 0 := by
  rw [List.count_append, List.count_singleton]
  by_cases h : r = q
  · subst h
    simp
  · rw [if_neg h, if_neg (by simpa using Ne.symm h)]

/-- `edit` and `editResize`: the only owner goes on in place, any other one copies. -/
theorem Inv.begin_edit (hi : Inv s) {b : Buffer} {c : Pc} {n : ℕ} (hpc : s.owner o = .idle p)
    (hb : s.mem.get p = some b) (hexcl : ∀ r ∈ c.exclusive, r = p) (hheld : c.held = [p])
    (hends : c.ends = []) (hzero : c.zeroed = .none) (hsees : c.sees = some p) :
    Inv (s.goto o (if b.mRefs = 1 then c else .copying p n)) := by
  by_cases h1 : b.mRefs = 1
  · have hone := hi.only_owner (by rw [hpc]; simp [Pc.held]) hb h1
    rw [if_pos h1]
    refine hi.goto (by rw [hpc, hheld]; rfl) (by rw [hpc, hends]; rfl) ?_ hzero ?_
    · intro r hr
      rw [hexcl r hr]
      exact hone
    · intro r hr
      rw [hpc]
      exact hsees.symm.trans hr
  · rw [if_neg h1]
    exact hi.goto (by rw [hpc]; rfl) (by rw [hpc]; rfl) (by simp [Pc.exclusive]) rfl
      (by rw [hpc]; exact fun _ h => h)

/-- A step of a call keeps the invariant. -/
theorem Inv.resume (hi : Inv s) {ok : Bool} {junk : ℕ → UInt8}
    (h : SharedBuffer.resume s o ok junk = some s') : Inv s' := by
  unfold SharedBuffer.resume at h
  cases hpc : s.owner o with
  | none => simp [hpc] at h
  | idle p => simp [hpc] at h
  | writable p => simp [hpc] at h
  | copying p n =>
    simp only [hpc] at h
    obtain ⟨-, h⟩ := Option.ite_none_left_eq_some.mp h
    cases ok with
    | true =>
      obtain rfl := Option.some.inj h
      rw [← State.setValue_self (s := s) (o := o)]
      refine hi.alloc ?_ (by rw [hpc]; rfl) (by simp [Pc.exclusive]) rfl ?_
      · intro r
        rw [hpc]
        exact count_insert r s.mem.next [p]
      · intro r hs
        rw [hpc]
        exact Or.inr ⟨hs, rfl⟩
    | false =>
      obtain rfl := Option.some.inj h
      exact hi.goto (by rw [hpc]; rfl) (by rw [hpc]; rfl) (by simp [Pc.exclusive]) rfl
        (by rw [hpc]; exact fun _ h => h)
  | memcpy p q =>
    obtain ⟨b, hb, -⟩ := hi.live (o := o) (p := p) (by rw [hpc]; simp [Pc.held])
    obtain ⟨c, hc, -⟩ := hi.live (o := o) (p := q) (by rw [hpc]; simp [Pc.held])
    simp only [hpc, State.access_eq hb, State.access_eq hc] at h
    obtain rfl := Option.some.inj h
    exact hi.memcpy hpc hb hc
  | resize p n =>
    obtain ⟨b, hb, -⟩ := hi.live (o := o) (p := p) (by rw [hpc]; simp [Pc.held])
    simp only [hpc, State.access_eq hb] at h
    have hone := hi.exclusive o p (by rw [hpc]; simp [Pc.exclusive])
    have hv := hi.value o p b (by rw [hpc]; rfl) hb
    by_cases hn : b.data.length = n
    · rw [if_pos hn] at h
      obtain rfl := Option.some.inj h
      refine hi.goto (by rw [hpc]; rfl) (by rw [hpc]; rfl) ?_ rfl (by rw [hpc]; exact fun _ h => h)
      intro r hr
      obtain rfl := List.mem_singleton.mp hr
      exact hone
    · rw [if_neg hn] at h
      obtain ⟨-, h⟩ := Option.ite_none_left_eq_some.mp h
      cases ok with
      | true =>
        obtain rfl := Option.some.inj h
        rw [← hv]
        exact hi.realloc hpc hb
      | false =>
        obtain rfl := Option.some.inj h
        exact hi.goto (by rw [hpc]; rfl) (by rw [hpc]; rfl) (by simp [Pc.exclusive]) rfl
          (by rw [hpc]; exact fun _ h => h)
  | release p keep k =>
    obtain ⟨b, hb, -⟩ := hi.live (o := o) (p := p) (by rw [hpc]; simp [Pc.held])
    simp only [hpc, State.access_eq hb] at h
    obtain rfl := Option.some.inj h
    by_cases h1 : b.mRefs = 1
    · rw [if_pos h1]
      have hd := hi.drop (c := .zero p keep k) hb (by rw [hpc]; rfl) (by rw [hpc]; rfl) (by rw [hpc]; rfl)
        (by rw [hpc]; rfl) rfl rfl rfl rfl rfl (Or.inl ⟨rfl, h1⟩)
      rw [Store.set_of_get hb] at hd
      exact hd
    · rw [if_neg h1]
      refine hi.goto (by rw [hpc]; rfl) (by rw [hpc]; rfl) ?_ rfl (by rw [hpc]; exact fun _ h => h)
      intro r hr
      exact hi.exclusive o r (by rw [hpc]; exact hr)
  | dec p keep k =>
    obtain ⟨b, hb, -⟩ := hi.live (o := o) (p := p) (by rw [hpc]; simp [Pc.held])
    simp only [hpc, State.access_eq hb] at h
    obtain rfl := Option.some.inj h
    by_cases h1 : b.mRefs = 1
    · rw [if_pos h1]
      exact hi.drop hb (by rw [hpc]; rfl) (by rw [hpc]; rfl) (by rw [hpc]; rfl) (by rw [hpc]; rfl) rfl
        rfl rfl rfl rfl (Or.inl ⟨rfl, h1⟩)
    · rw [if_neg h1]
      exact hi.drop hb (by rw [hpc]; rfl) (by rw [hpc]; rfl) (by rw [hpc]; rfl) (by rw [hpc]; rfl) rfl
        (Pc.held_done k) (Pc.exclusive_done k) (Pc.sees_done k) (Pc.zeroed_done k)
        (Or.inr ⟨Pc.ends_done k, h1, rfl⟩)
  | zero p keep k =>
    obtain ⟨b, hb, -⟩ := hi.live_ends (o := o) (p := p) (by rw [hpc]; simp [Pc.ends])
    simp only [hpc, State.access_eq hb] at h
    obtain rfl := Option.some.inj h
    refine hi.zero hpc hb ?_
    cases keep with
    | true => exact Or.inl rfl
    | false => exact Or.inr rfl
  | free p k =>
    obtain ⟨b, hb, -⟩ := hi.live_ends (o := o) (p := p) (by rw [hpc]; simp [Pc.ends])
    simp only [hpc, State.access_eq hb] at h
    obtain rfl := Option.some.inj h
    exact hi.free (Or.inl hpc)
  | dealloc p k =>
    obtain ⟨b, hb, -⟩ := hi.live_ends (o := o) (p := p) (by rw [hpc]; simp [Pc.ends])
    have h0 := hi.zeroed o p b (by rw [hpc]; rfl) hb
    simp only [hpc, State.access_eq hb] at h
    rw [if_neg (not_not.mpr h0)] at h
    obtain rfl := Option.some.inj h
    exact hi.free (Or.inr hpc)

/-- **Every step keeps the invariant.** -/
theorem Inv.step {a : Act O} (hi : Inv s) (ha : allowed s a) (h : SharedBuffer.step s a = some s') :
    Inv s' := by
  cases a with
  | alloc o ok size junk =>
    obtain ⟨hpc, h⟩ := Option.ite_none_right_eq_some.mp h
    obtain ⟨-, h⟩ := Option.ite_none_left_eq_some.mp h
    cases ok with
    | true =>
      obtain rfl := Option.some.inj h
      refine hi.alloc ?_ (by rw [hpc]; rfl) (by simp [Pc.exclusive]) rfl ?_
      · intro r
        rw [hpc]
        exact count_insert r s.mem.next []
      · intro r hs
        exact Or.inl ⟨(Option.some.inj hs).symm, rfl⟩
    | false =>
      obtain rfl := Option.some.inj h
      exact hi
  | acquire o o' =>
    obtain ⟨hpc', h⟩ := Option.ite_none_right_eq_some.mp h
    cases hpc : s.owner o with
    | idle p =>
      obtain ⟨b, hb, he, hm⟩ := hi.live (o := o) (p := p) (by rw [hpc]; simp [Pc.held])
      have hv := hi.value o p b (by rw [hpc]; rfl) hb
      have hpos : 0 < references s.owner p := count_pos (o := o) (by rw [hpc]; simp [Pc.held])
      simp only [hpc, State.access_eq hb] at h
      obtain rfl := Option.some.inj h
      refine hi.set hb (Or.inr (Or.inr ⟨rfl, he⟩)) (fun _ _ => rfl) ?_ ?_ ?_ ?_ ?_ ?_
      · intro r hr
        obtain rfl := List.mem_singleton.mp hr
        refine Or.inr ⟨o, ?_, hpc⟩
        rintro rfl
        rw [hpc] at hpc'
        cases hpc'
      · rw [references_eq _ o', hpc'] at hpos
        rw [hpc']
        simp only [Pc.held, Pc.ends, List.count_nil, List.count_singleton_self] at hpos ⊢
        rintro (⟨he, hm, -, -⟩ | ⟨-, h0⟩)
        · have hlt := ha p (by rw [hpc]; simp [Pc.held]) b hb
          refine Or.inl ⟨he, ?_, by omega, by omega⟩
          dsimp only
          rw [bmod_of_fits ⟨by omega, by omega⟩]
          omega
        · omega
      · intro r hr
        rw [hpc']
        simp only [Pc.held, Pc.ends, List.count_nil, List.count_singleton]
        exact ⟨if_neg (by simpa using Ne.symm hr), trivial⟩
      · intro r hr
        cases hr
      · intro r hz
        cases hz
      · intro r hs
        exact Or.inl ⟨(Option.some.inj hs).symm, hv⟩
    | _ => simp [hpc] at h
  | edit o =>
    cases hpc : s.owner o with
    | idle p =>
      obtain ⟨b, hb, -⟩ := hi.live (o := o) (p := p) (by rw [hpc]; simp [Pc.held])
      simp only [SharedBuffer.step, hpc, State.access_eq hb] at h
      obtain rfl := Option.some.inj h
      exact hi.begin_edit hpc hb (by simp [Pc.exclusive]) rfl rfl rfl rfl
    | _ => simp [SharedBuffer.step, hpc] at h
  | editResize o n =>
    cases hpc : s.owner o with
    | idle p =>
      obtain ⟨b, hb, -⟩ := hi.live (o := o) (p := p) (by rw [hpc]; simp [Pc.held])
      simp only [SharedBuffer.step, hpc, State.access_eq hb] at h
      obtain rfl := Option.some.inj h
      exact hi.begin_edit hpc hb (by simp [Pc.exclusive]) rfl rfl rfl rfl
    | _ => simp [SharedBuffer.step, hpc] at h
  | attemptEdit o =>
    cases hpc : s.owner o with
    | idle p =>
      obtain ⟨b, hb, -⟩ := hi.live (o := o) (p := p) (by rw [hpc]; simp [Pc.held])
      simp only [SharedBuffer.step, hpc, State.access_eq hb] at h
      obtain rfl := Option.some.inj h
      by_cases h1 : b.mRefs = 1
      · have hone := hi.only_owner (by rw [hpc]; simp [Pc.held]) hb h1
        rw [if_pos h1]
        refine hi.goto (by rw [hpc]; rfl) (by rw [hpc]; rfl) ?_ rfl (by rw [hpc]; exact fun _ h => h)
        intro r hr
        obtain rfl := List.mem_singleton.mp hr
        exact hone
      · rw [if_neg h1]
        exact hi
    | _ => simp [SharedBuffer.step, hpc] at h
  | reset o ok n junk =>
    cases hpc : s.owner o with
    | idle p =>
      simp only [SharedBuffer.step, hpc] at h
      obtain ⟨-, h⟩ := Option.ite_none_left_eq_some.mp h
      cases ok with
      | true =>
        obtain rfl := Option.some.inj h
        refine hi.alloc ?_ (by rw [hpc]; rfl) (by simp [Pc.exclusive]) rfl ?_
        · intro r
          rw [hpc]
          exact count_insert r s.mem.next [p]
        · intro r hs
          exact Or.inl ⟨(Option.some.inj hs).symm, rfl⟩
      | false =>
        obtain rfl := Option.some.inj h
        exact hi
    | _ => simp [SharedBuffer.step, hpc] at h
  | release o keep =>
    cases hpc : s.owner o with
    | idle p =>
      simp only [SharedBuffer.step, hpc] at h
      obtain rfl := Option.some.inj h
      exact hi.goto (by rw [hpc]; rfl) (by rw [hpc]; rfl) (by simp [Pc.exclusive]) rfl
        (by simp [Pc.sees])
    | _ => simp [SharedBuffer.step, hpc] at h
  | write o i x =>
    cases hpc : s.owner o with
    | writable p =>
      obtain ⟨b, hb, -⟩ := hi.live (o := o) (p := p) (by rw [hpc]; simp [Pc.held])
      have hv := hi.value o p b (by rw [hpc]; rfl) hb
      simp only [SharedBuffer.step, hpc, State.access_eq hb] at h
      obtain rfl := Option.some.inj h
      have hset : Inv (({ s with mem := s.mem.set p { b with data := b.data.set i x } }.setValue o
          ((s.value o).set i x)).goto o (s.owner o)) := by
        refine hi.set hb (Or.inl (by rw [hpc]; simp [Pc.held])) ?_ (fun r hr => Or.inl hr)
          (fun h => h) (fun _ _ => ⟨rfl, rfl⟩) (fun r hr => ⟨hr, rfl⟩) ?_ ?_
        · intro _ hx
          exact absurd (by rw [hpc]; simp [Pc.exclusive]) hx
        · intro r hz
          rw [hpc] at hz
          cases hz
        · intro r hs
          rw [hpc] at hs
          exact Or.inl ⟨(Option.some.inj hs).symm, by rw [hv]⟩
      simpa [State.goto, State.setValue] using hset
    | _ => simp [SharedBuffer.step, hpc] at h
  | settle o =>
    cases hpc : s.owner o with
    | writable p =>
      simp only [SharedBuffer.step, hpc] at h
      obtain rfl := Option.some.inj h
      exact hi.goto (by rw [hpc]; rfl) (by rw [hpc]; rfl) (by simp [Pc.exclusive]) rfl
        (by rw [hpc]; exact fun _ h => h)
    | _ => simp [SharedBuffer.step, hpc] at h
  | resume o ok junk => exact hi.resume h

omit [DecidableEq O] in
theorem Inv.start (hs : Start s) : Inv s := by
  obtain ⟨hmem, hf, hnone⟩ := hs
  have hown : s.owner = fun _ => .none := funext hnone
  refine ⟨?_, ?_, ?_, ?_, hf⟩
  · intro p
    rw [hmem, hown]
    simp [Store.empty, Store.get, PtrOk, references, ending, tally, Pc.held, Pc.ends]
  · intro o p hp
    rw [hnone] at hp
    cases hp
  · intro o p b hz
    rw [hnone] at hz
    cases hz
  · intro o p b hv
    rw [hnone] at hv
    cases hv

theorem inv_of_reach (hr : Reach step allowed Start s) : Inv s :=
  hr.invariant (fun _ => Inv.start) fun _ _ _ _ hi ha hs => hi.step ha hs

/-- **Copies are values.**  In every run no freed buffer is used; a buffer is in memory exactly as long
as an owner refers to it, and exactly one knows it when it is edited; and what an owner reads is what its
own operations have made of it, whatever the owners of copies do. -/
theorem sharedBuffer_isolated (hr : Reach step allowed Start s) :
    s.faults = 0 ∧
      (∀ p, (∃ b, s.mem.get p = some b) ↔ ∃ o, p ∈ (s.owner o).held ∨ p ∈ (s.owner o).ends) ∧
      (∀ o o' p, s.owner o = .writable p → p ∈ (s.owner o').held ∨ p ∈ (s.owner o').ends → o' = o) ∧
      ∀ o p, (s.owner o).sees = some p → ∃ b, s.mem.get p = some b ∧ b.data = s.value o := by
  have hi := inv_of_reach hr
  refine ⟨hi.faults, fun p => ⟨?_, ?_⟩, ?_, ?_⟩
  · rintro ⟨b, hb⟩
    by_contra hno
    push Not at hno
    have h1 : references s.owner p = 0 :=
      tally_eq_zero_iff.mpr fun o => List.count_eq_zero.mpr (hno o).1
    have h2 : ending s.owner p = 0 :=
      tally_eq_zero_iff.mpr fun o => List.count_eq_zero.mpr (hno o).2
    have hp := hi.ptr p
    rw [hb, h1, h2] at hp
    rcases hp with ⟨-, -, h, -⟩ | ⟨h, -⟩
    · exact absurd h (lt_irrefl _)
    · cases h
  · rintro ⟨o, hh | he⟩
    · obtain ⟨b, hb, -⟩ := hi.live hh
      exact ⟨b, hb⟩
    · obtain ⟨b, hb, -⟩ := hi.live_ends he
      exact ⟨b, hb⟩
  · intro o o' p hpc href
    have hone := hi.exclusive o p (by rw [hpc]; simp [Pc.exclusive])
    by_contra hne
    rcases href with hh | he
    · have h1 := others_pos hne hh
      rw [references_eq _ o, hpc] at hone
      simp only [Pc.held, List.count_singleton_self] at hone
      omega
    · obtain ⟨-, -, -, h0⟩ := hi.live_ends he
      omega
  · intro o p hs
    obtain ⟨b, hb, -⟩ := hi.live (Pc.held_of_sees hs)
    exact ⟨b, hb, hi.value o p b hs hb⟩

/-- One owner edits while the other releases: both see a count of 2, and the editor frees the original. -/
theorem sharedBuffer_isolated_race :
    ∃ s : State Bool, Reach step allowed Start s ∧ s.owner true = .none ∧ s.owner false = .writable 1 ∧
      s.mem.get 0 = none ∧ ∃ b, s.mem.get 1 = some b ∧ b.data = [7, 5] := by
  have he : (exec step allowed (⟨Store.empty, fun _ => .none, fun _ => [], 0⟩ : State Bool)
      [.alloc false true 2 (fun _ => 5), .write false 0 7, .settle false, .acquire false true,
        .edit false, .release true false, .resume true true (fun _ => 0), .resume false true (fun _ => 9),
        .resume false true (fun _ => 0), .resume true true (fun _ => 0), .resume false true (fun _ => 0),
        .resume false true (fun _ => 0), .resume false true (fun _ => 0)]).map
          (fun s => (s.owner true, s.owner false, s.mem.get 0, s.value false)) =
        some (.none, .writable 1, none, [7, 5]) := by decide +kernel
  obtain ⟨s, hr, hs⟩ := Reach.of_exec (show Start _ from ⟨rfl, rfl, fun _ => rfl⟩) he
  obtain ⟨h1, h2, h3, h4⟩ : s.owner true = .none ∧ s.owner false = .writable 1 ∧ s.mem.get 0 = none ∧
      s.value false = [7, 5] := by simpa using hs
  refine ⟨s, hr, h1, h2, h3, ?_⟩
  rw [← h4]
  exact (sharedBuffer_isolated hr).2.2.2 false 1 (by rw [h2]; rfl)

end Inv

end SharedBuffer

end IntelCamera
