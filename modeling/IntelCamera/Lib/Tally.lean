import Mathlib.Algebra.BigOperators.Group.Finset.Basic
import Mathlib.Algebra.Order.BigOperators.Group.Finset
import Mathlib.Data.Fintype.Basic

/-!
# Lib.Tally — counters shared by threads

`tally f s` adds up what the threads of a system hold, where `f` says what a thread in a given state
holds.  A step changes the state of one thread, so it changes a tally by the difference of two values
(`tally_update`); an invariant that equates a counter of the program with a tally is then arithmetic.
-/

namespace Lib

variable {T α : Type*} [Fintype T] {f g : α → ℕ} {s : T → α}

/-- What all threads hold together. -/
def tally (f : α → ℕ) (s : T → α) : ℕ := ∑ t, f (s t)

/-- **A step of one thread.** -/
theorem tally_update [DecidableEq T] (f : α → ℕ) (s : T → α) (t : T) (a : α) :
    tally f (Function.update s t a) + f (s t) = tally f s + f a := by
  have hsplit : ∀ s' : T → α, tally f s' = f (s' t) + ∑ u ∈ Finset.univ.erase t, f (s' u) :=
    fun s' => (Finset.add_sum_erase Finset.univ (fun u => f (s' u)) (Finset.mem_univ t)).symm
  have hrest : ∑ u ∈ Finset.univ.erase t, f (Function.update s t a u) =
      ∑ u ∈ Finset.univ.erase t, f (s u) := by
    apply Finset.sum_congr rfl
    intro u hu
    rw [Function.update_of_ne (Finset.ne_of_mem_erase hu)]
  rw [hsplit s, hsplit, Function.update_self, hrest]
  omega

/-- **The frame.**  With a state `a` in which a thread holds nothing, `update s t a` is the rest of the
system. -/
theorem tally_update_eq_add [DecidableEq T] (f : α → ℕ) {a : α} (hf : f a = 0) (s : T → α) (t : T)
    (b : α) :
    tally f (Function.update s t b) = tally f (Function.update s t a) + f b := by
  have h := tally_update f (Function.update s t a) t b
  rw [Function.update_idem, Function.update_self, hf] at h
  exact h

theorem le_tally (f : α → ℕ) (s : T → α) (t : T) : f (s t) ≤ tally f s :=
  Finset.single_le_sum (fun u _ => Nat.zero_le (f (s u))) (Finset.mem_univ t)

theorem tally_mono (h : ∀ t, f (s t) ≤ g (s t)) : tally f s ≤ tally g s :=
  Finset.sum_le_sum fun t _ => h t

theorem tally_eq_zero_iff : tally f s = 0 ↔ ∀ t, f (s t) = 0 := by
  unfold tally
  rw [Finset.sum_eq_zero_iff]
  exact ⟨fun h t => h t (Finset.mem_univ t), fun h t _ => h t⟩

end Lib
