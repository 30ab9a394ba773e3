/-!
# Lib.Stops — computations that may stop

`Ends E r P`: the computation `r` returns a value with `P`, or stops for a reason in `E`.  The rules
follow the structure of a `do` block, so that a specification of every function called is all that a
proof about the caller needs.
-/

namespace Lib

variable {ε α β : Type}

/-- The computation returns a value with `P`, or stops for a reason in `E`. -/
def Ends (E : ε → Prop) (r : Except ε α) (P : α → Prop) : Prop :=
  match r with
  | .ok a => P a
  | .error e => E e

namespace Ends

variable {E : ε → Prop} {r : Except ε α} {P Q : α → Prop}

@[simp] theorem ok_iff {a : α} : Ends E (.ok a) P ↔ P a := Iff.rfl

@[simp] theorem error_iff {e : ε} : Ends E (.error e : Except ε α) P ↔ E e := Iff.rfl

/-- The rule of consequence, for the value and for the reasons to stop. -/
theorem imp {E' : ε → Prop} (h : Ends E r P) (he : ∀ e, E e → E' e) (hpq : ∀ a, P a → Q a) :
    Ends E' r Q := by
  cases r with
  | ok a => exact hpq a h
  | error e => exact he e h

theorem mono (h : Ends E r P) (hpq : ∀ a, P a → Q a) : Ends E r Q :=
  h.imp (fun _ he => he) hpq

theorem weaken {E' : ε → Prop} (h : Ends E r P) (he : ∀ e, E e → E' e) : Ends E' r P :=
  h.imp he fun _ ha => ha

/-- The rule of sequence. -/
theorem bind {f : α → Except ε β} {R : β → Prop} (h : Ends E r P) (hf : ∀ a, P a → Ends E (f a) R) :
    Ends E (r >>= f) R := by
  cases r with
  | ok a => exact hf a h
  | error e => exact h

theorem of_eq {a : α} (h : r = .ok a) (ha : P a) : Ends E r P := by
  rw [h]
  exact ha

end Ends

end Lib
