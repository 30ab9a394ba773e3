import Mathlib.Tactic.SplitIfs

/-!
# Lib.Runs — guarded runs of a labelled machine

A machine is a partial step function `step : σ → α → Option σ`; a label carries the choices of the
environment.  `allowed` restricts the labels a run may take in a state.  `Reach` are the states of
the runs, `Reach.invariant` is the induction rule, and `exec` follows a list of labels, so that a
concrete run can be evaluated.
-/

namespace Lib

variable {σ α : Type*} {step : σ → α → Option σ} {allowed : σ → α → Prop} {init : σ → Prop}

/-- The states reached from `init` by allowed steps. -/
inductive Reach (step : σ → α → Option σ) (allowed : σ → α → Prop) (init : σ → Prop) : σ → Prop
  | init {s : σ} : init s → Reach step allowed init s
  | step {s s' : σ} {a : α} : Reach step allowed init s → allowed s a → step s a = some s' →
      Reach step allowed init s'

/-- A step under a condition was taken because the condition holds. -/
theorem guarded {p : Prop} [Decidable p] {a s' : σ} (h : (if p then some a else none) = some s') :
    p ∧ a = s' := by
  obtain ⟨hp, ha⟩ := Option.ite_none_right_eq_some.mp h
  exact ⟨hp, Option.some.inj ha⟩

namespace Reach

/-- **Invariant rule**: what holds initially and is kept by every allowed step from a reached state
holds of every state reached. -/
theorem invariant {I : σ → Prop} (h0 : ∀ s, init s → I s)
    (hs : ∀ s a s', Reach step allowed init s → I s → allowed s a → step s a = some s' → I s') {s : σ}
    (h : Reach step allowed init s) : I s := by
  induction h with
  | init hi => exact h0 _ hi
  | step hr ha hst ih => exact hs _ _ _ hr ih ha hst

/-- Fewer labels reach fewer states. -/
theorem mono {allowed' : σ → α → Prop} (ha : ∀ s a, allowed s a → allowed' s a) {s : σ}
    (h : Reach step allowed init s) : Reach step allowed' init s := by
  induction h with
  | init hi => exact .init hi
  | step _ hal hst ih => exact .step ih (ha _ _ hal) hst

end Reach

/-- Follow the labels `as` from `s`, as long as they are allowed. -/
def exec (step : σ → α → Option σ) (allowed : σ → α → Prop) [∀ s a, Decidable (allowed s a)] :
    σ → List α → Option σ
  | s, [] => some s
  | s, a :: as => if allowed s a then (step s a).bind fun s' => exec step allowed s' as else none

/-- A run that is followed to its end is a run. -/
theorem Reach.exec [∀ s a, Decidable (allowed s a)] {as : List α} {s s' : σ}
    (h : Reach step allowed init s) (he : exec step allowed s as = some s') :
    Reach step allowed init s' := by
  induction as generalizing s with
  | nil =>
    obtain rfl := Option.some.inj he
    exact h
  | cons a as ih =>
    unfold Lib.exec at he
    split_ifs at he with ha
    obtain ⟨s₁, h1, h2⟩ := Option.bind_eq_some_iff.mp he
    exact ih (.step h ha h1) h2

/-- A concrete run, observed at its end. -/
theorem Reach.of_exec [∀ s a, Decidable (allowed s a)] {β : Type*} {f : σ → β} {v : β} {as : List α}
    {s : σ} (hi : init s) (he : (Lib.exec step allowed s as).map f = some v) :
    ∃ s', Reach step allowed init s' ∧ f s' = v := by
  obtain ⟨s', h1, h2⟩ := Option.map_eq_some_iff.mp he
  exact ⟨s', (Reach.init hi).exec h1, h2⟩

end Lib
