import Mathlib.Data.List.Basic
import Mathlib.Tactic.Cases

/-!
# Lib.Compact — picking items out of a list and putting their results back

Some items of a list are picked and handed on together, in order; the results come back as a list of
their own.  `expand` goes over the whole list again and takes the next result for every item that was
picked.  `rank p l i` is how many items before place `i` are picked: the place of item `i` among them
(`filter_rank`) and of its result (`expand_spec`).
-/

namespace Lib

variable {α β γ : Type*} {p : α → Bool} {l : List α}

/-- How many items before place `i` are picked. -/
def rank (p : α → Bool) (l : List α) (i : ℕ) : ℕ := (l.take i).countP p

theorem rank_cons_succ (p : α → Bool) (a : α) (l : List α) (i : ℕ) :
    rank p (a :: l) (i + 1) = rank p l i + if p a then 1 else 0 := by
  unfold rank
  rw [List.take_succ_cons, List.countP_cons]

theorem rank_map (p : β → Bool) (f : α → β) (l : List α) (i : ℕ) :
    rank p (l.map f) i = rank (p ∘ f) l i := by
  unfold rank
  rw [← List.map_take, List.countP_map]

/-- **The place of an item among the picked ones.** -/
theorem filter_rank {i : ℕ} {a : α} (hi : l[i]? = some a) (ha : p a = true) :
    (l.filter p)[rank p l i]? = some a := by
  induction l generalizing i with
  | nil => cases hi
  | cons b l ih =>
    cases i with
    | zero =>
      obtain rfl := Option.some.inj hi
      rw [List.filter_cons_of_pos ha]
      rfl
    | succ i =>
      have hl := ih hi
      rw [rank_cons_succ]
      by_cases hb : p b = true
      · rw [List.filter_cons_of_pos hb, if_pos hb, List.getElem?_cons_succ]
        exact hl
      · rw [List.filter_cons_of_neg hb, if_neg hb, Nat.add_zero]
        exact hl

/-- One pass over the list: a picked item takes the result at `index`, which moves on.  There is no
outcome if a result is taken that is not there. -/
def expand (p : α → Bool) (use : α → β → γ) (skip : α → γ) (results : List β) :
    List α → ℕ → Option (List γ)
  | [], _ => some []
  | a :: l, index =>
    if p a then
      match results[index]? with
      | none => none
      | some r => (expand p use skip results l (index + 1)).map (use a r :: ·)
    else (expand p use skip results l index).map (skip a :: ·)

/-- **Every item gets its own result**, and no result is taken that is not there. -/
theorem expand_spec {results : List β} (use : α → β → γ) (skip : α → γ) {index : ℕ}
    (hlen : index + (l.filter p).length ≤ results.length) :
    ∃ out, expand p use skip results l index = some out ∧ out.length = l.length ∧
      ∀ i a, l[i]? = some a →
        (p a = true → ∃ r, results[index + rank p l i]? = some r ∧ out[i]? = some (use a r)) ∧
        (p a = false → out[i]? = some (skip a)) := by
  induction l generalizing index with
  | nil => exact ⟨[], rfl, rfl, nofun⟩
  | cons b l ih =>
    by_cases hb : p b = true
    · rw [List.filter_cons_of_pos hb, List.length_cons] at hlen
      obtain ⟨r, hr⟩ : ∃ r, results[index]? = some r :=
        ⟨_, List.getElem?_eq_getElem (show index < results.length by omega)⟩
      obtain ⟨out, hout, hl, hspec⟩ := ih (show index + 1 + _ ≤ _ by omega)
      refine ⟨use b r :: out, ?_, by rw [List.length_cons, List.length_cons, hl], ?_⟩
      · unfold expand
        rw [if_pos hb, hr, hout]
        rfl
      · intro i a hi
        cases i with
        | zero =>
          obtain rfl := Option.some.inj hi
          refine ⟨fun _ => ⟨r, hr, rfl⟩, ?_⟩
          intro hf
          rw [hb] at hf
          cases hf
        | succ i =>
          obtain ⟨h1, h2⟩ := hspec i a hi
          rw [rank_cons_succ, if_pos hb, Nat.add_comm (rank p l i), ← Nat.add_assoc]
          exact ⟨h1, h2⟩
    · rw [List.filter_cons_of_neg hb] at hlen
      obtain ⟨out, hout, hl, hspec⟩ := ih hlen
      refine ⟨skip b :: out, ?_, by rw [List.length_cons, List.length_cons, hl], ?_⟩
      · unfold expand
        rw [if_neg hb, hout]
        rfl
      · intro i a hi
        cases i with
        | zero =>
          obtain rfl := Option.some.inj hi
          exact ⟨fun ht => absurd ht hb, fun _ => rfl⟩
        | succ i =>
          obtain ⟨h1, h2⟩ := hspec i a hi
          rw [rank_cons_succ, if_neg hb, Nat.add_zero]
          exact ⟨h1, h2⟩

end Lib
