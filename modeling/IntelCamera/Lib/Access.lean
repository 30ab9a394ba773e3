import IntelCamera.Lib.Memory

/-!
# Lib.Access — programs that log what they touch

A program over a flat memory of bytes returns a value, the memory it leaves and a log: the blocks it
reads or writes, and the lengths it computes for block moves, as exact integers.  `Prog.wp ok p m Q`
says that everything `p` logs from `m` on is `ok` and that it ends in `Q`; the rules below are
equivalences, so that the weakest precondition of a program is worked out by rewriting.
-/

namespace Lib

/-- An entry of the log. -/
inductive Event
  | access (o n : ℕ)
  | length (n : ℤ)
deriving DecidableEq, Repr

/-- Blocks lie in the first `N` bytes, and lengths are not negative. -/
def Event.Within (N : ℕ) : Event → Prop
  | .access o n => n = 0 ∨ o + n ≤ N
  | .length n => 0 ≤ n

instance (N : ℕ) : DecidablePred (Event.Within N)
  | .access _ _ => inferInstanceAs (Decidable (_ ∨ _))
  | .length _ => inferInstanceAs (Decidable (0 ≤ _))

/-- A program with a result in `α`. -/
def Prog (α : Type) := Mem UInt8 → α × Mem UInt8 × List Event

namespace Prog

variable {α β : Type}

instance : Monad Prog where
  pure a := fun m => (a, m, [])
  bind p f := fun m =>
    let r := p m
    let r' := f r.1 r.2.1
    (r'.1, r'.2.1, r.2.2 ++ r'.2.2)

/-- The little-endian word of `w` bytes at `o`. -/
def load (o w : ℕ) : Prog ℕ := fun m => (leNat (m.read o w), m, [.access o w])

/-- A word of `w` bytes is stored at `o`. -/
def store (o w v : ℕ) : Prog Unit := fun m => ((), m.write o (leBytes w v), [.access o w])

/-- The `n` bytes at `o` are read for another place. -/
def touch (o n : ℕ) : Prog Unit := fun m => ((), m, [.access o n])

/-- `n` bytes are moved from `s` to `d`. -/
def move (d s n : ℕ) : Prog Unit := fun m =>
  ((), m.write d (m.read s n), [.access s n, .access d n])

/-- The length `n` is computed. -/
def length (n : ℤ) : Prog Unit := fun m => ((), m, [.length n])

/-- What `p` logs from `m` on is `ok`, and it ends in `Q`. -/
def wp (ok : Event → Prop) (p : Prog α) (m : Mem UInt8) (Q : α → Mem UInt8 → Prop) : Prop :=
  (∀ e ∈ (p m).2.2, ok e) ∧ Q (p m).1 (p m).2.1

variable {ok : Event → Prop} {m : Mem UInt8}

@[simp] theorem wp_pure {a : α} {Q : α → Mem UInt8 → Prop} : wp ok (pure a) m Q ↔ Q a m := by
  constructor
  · exact fun h => h.2
  · exact fun h => ⟨fun e he => absurd he List.not_mem_nil, h⟩

@[simp] theorem wp_bind {p : Prog α} {f : α → Prog β} {Q : β → Mem UInt8 → Prop} :
    wp ok (p >>= f) m Q ↔ wp ok p m fun a m' => wp ok (f a) m' Q := by
  constructor
  · rintro ⟨hlog, hQ⟩
    exact ⟨fun e he => hlog e (List.mem_append_left _ he),
      fun e he => hlog e (List.mem_append_right _ he), hQ⟩
  · rintro ⟨hlog, hlog', hQ⟩
    exact ⟨fun e he => (List.mem_append.mp he).elim (hlog e) (hlog' e), hQ⟩

@[simp] theorem wp_load {o w : ℕ} {Q : ℕ → Mem UInt8 → Prop} :
    wp ok (load o w) m Q ↔ ok (.access o w) ∧ Q (leNat (m.read o w)) m := by
  simp [wp, load]

@[simp] theorem wp_store {o w v : ℕ} {Q : Unit → Mem UInt8 → Prop} :
    wp ok (store o w v) m Q ↔ ok (.access o w) ∧ Q () (m.write o (leBytes w v)) := by
  simp [wp, store]

@[simp] theorem wp_touch {o n : ℕ} {Q : Unit → Mem UInt8 → Prop} :
    wp ok (touch o n) m Q ↔ ok (.access o n) ∧ Q () m := by
  simp [wp, touch]

@[simp] theorem wp_move {d s n : ℕ} {Q : Unit → Mem UInt8 → Prop} :
    wp ok (move d s n) m Q ↔
      ok (.access s n) ∧ ok (.access d n) ∧ Q () (m.write d (m.read s n)) := by
  simp [wp, move, and_assoc]

@[simp] theorem wp_length {n : ℤ} {Q : Unit → Mem UInt8 → Prop} :
    wp ok (length n) m Q ↔ ok (.length n) ∧ Q () m := by
  simp [wp, length]

@[simp] theorem wp_ite {c : Prop} [Decidable c] {p q : Prog α} {Q : α → Mem UInt8 → Prop} :
    wp ok (if c then p else q) m Q ↔ (c → wp ok p m Q) ∧ (¬ c → wp ok q m Q) := by
  by_cases h : c
  · simp [h]
  · simp [h]

theorem wp_mono {p : Prog α} {Q Q' : α → Mem UInt8 → Prop} (h : wp ok p m Q)
    (hQ : ∀ a m', Q a m' → Q' a m') : wp ok p m Q' := ⟨h.1, hQ _ _ h.2⟩

/-! ### Results -/

theorem result_pure {a : α} : ((pure a : Prog α) m).1 = a := rfl

theorem result_ite {c : Prop} [Decidable c] {p q : Prog α} :
    ((if c then p else q : Prog α) m).1 = if c then (p m).1 else (q m).1 := by
  split_ifs <;> rfl

theorem result_load {o w : ℕ} {f : ℕ → Prog β} :
    ((load o w >>= f) m).1 = (f (leNat (m.read o w)) m).1 := rfl

/-! ### Programs that do not write -/

/-- The memory is left as it was. -/
def ReadOnly (p : Prog α) : Prop := ∀ m, (p m).2.1 = m

theorem ReadOnly.pure (a : α) : ReadOnly (pure a : Prog α) := fun _ => rfl

theorem ReadOnly.bind {p : Prog α} {f : α → Prog β} (hp : ReadOnly p) (hf : ∀ a, ReadOnly (f a)) :
    ReadOnly (p >>= f) := fun m => by
  have h := hf (p m).1 (p m).2.1
  rw [hp m] at h
  show ((f (p m).1) (p m).2.1).2.1 = m
  rw [hp m, h]

theorem ReadOnly.ite {c : Prop} [Decidable c] {p q : Prog α} (hp : ReadOnly p) (hq : ReadOnly q) :
    ReadOnly (if c then p else q) := by
  split_ifs
  · exact hp
  · exact hq

theorem ReadOnly.load (o w : ℕ) : ReadOnly (load o w) := fun _ => rfl

/-- The postcondition is about the memory the program started with. -/
theorem ReadOnly.wp_iff {p : Prog α} (hp : ReadOnly p) {Q : α → Mem UInt8 → Prop} :
    wp ok p m Q ↔ wp ok p m fun a _ => Q a m := by
  unfold wp
  rw [hp m]

theorem ReadOnly.result_bind {p : Prog α} (hp : ReadOnly p) (f : α → Prog β) :
    ((p >>= f) m).1 = (f (p m).1 m).1 := by
  show ((f (p m).1) (p m).2.1).1 = _
  rw [hp m]

end Prog

end Lib
