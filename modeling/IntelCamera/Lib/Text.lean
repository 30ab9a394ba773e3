import Mathlib.Data.List.Basic
import Mathlib.Data.List.Induction
import Mathlib.Data.List.TakeWhile
import Mathlib.Logic.Function.Basic

/-!
# Lib.Text — lines of a text and settings of which the last counts

`getline` takes what stands before a delimiter off a stream, and `foldLines` does so until the stream
is exhausted; it folds over the lines of the text.  `settle` stores the setting an item makes, if it
makes one; after a list of items every key has the value of the last item that sets it.
-/

namespace Lib

/-! ### Lines -/

section Lines

variable {α β : Type*} [DecidableEq α] {d : α} {stream : List α}

/-- `std::getline`: the characters before the delimiter and what is left behind it.  It fails if there
is nothing to extract. -/
def getline (d : α) (stream : List α) : Option (List α × List α) :=
  if stream = [] then none
  else some (stream.takeWhile (· ≠ d), (stream.dropWhile (· ≠ d)).tail)

/-- A text has no delimiter, or a first one. -/
theorem cut_cases (d : α) (stream : List α) :
    d ∉ stream ∨ ∃ l r, d ∉ l ∧ stream = l ++ d :: r := by
  by_cases h : d ∈ stream
  · obtain ⟨l, r, heq, hl⟩ := List.eq_append_cons_of_mem h
    exact Or.inr ⟨l, r, hl, heq⟩
  · exact Or.inl h

/-- **Induction over the pieces of a text.** -/
theorem cut_induction {P : List α → Prop} (last : ∀ l, d ∉ l → P l)
    (cut : ∀ l r, d ∉ l → P r → P (l ++ d :: r)) (stream : List α) : P stream := by
  induction hn : stream.length using Nat.strongRecOn generalizing stream with
  | ind n ih =>
    rcases cut_cases d stream with hd | ⟨l, r, hl, rfl⟩
    · exact last stream hd
    · have hlt : r.length < n := by
        rw [← hn, List.length_append, List.length_cons]
        omega
      exact cut l r hl (ih r.length hlt r rfl)

theorem forall_ne_of_not_mem (h : d ∉ stream) : ∀ x ∈ stream, decide (x ≠ d) = true := by
  intro x hx
  refine decide_eq_true ?_
  rintro rfl
  exact h hx

theorem getline_of_not_mem (h : d ∉ stream) (hne : stream ≠ []) :
    getline d stream = some (stream, []) := by
  have hall := forall_ne_of_not_mem h
  unfold getline
  rw [if_neg hne, List.takeWhile_eq_self_iff.mpr hall, List.dropWhile_eq_nil_iff.mpr hall]
  rfl

theorem getline_append {l : List α} (h : d ∉ l) (r : List α) : getline d (l ++ d :: r) = some (l, r) := by
  have hall := forall_ne_of_not_mem h
  unfold getline
  rw [if_neg (by simp), List.takeWhile_append_of_pos hall, List.dropWhile_append_of_pos hall]
  simp

/-- A text is cut at its first delimiter in one way only. -/
theorem cut_unique {l l' r r' : List α} (h : d ∉ l) (h' : d ∉ l') (heq : l ++ d :: r = l' ++ d :: r') :
    l = l' ∧ r = r' := by
  have hcut := getline_append h r
  rw [heq, getline_append h'] at hcut
  obtain ⟨rfl, rfl⟩ := Prod.mk.inj (Option.some.inj hcut)
  exact ⟨rfl, rfl⟩

theorem length_of_getline {l r : List α} (h : getline d stream = some (l, r)) :
    r.length < stream.length := by
  have hne : stream ≠ [] := by
    rintro rfl
    cases h
  rcases cut_cases d stream with hd | ⟨l', r', hl, rfl⟩
  · rw [getline_of_not_mem hd hne] at h
    obtain rfl := (Prod.mk.inj (Option.some.inj h)).2
    exact List.length_pos_of_ne_nil hne
  · rw [getline_append hl] at h
    obtain rfl := (Prod.mk.inj (Option.some.inj h)).2
    rw [List.length_append, List.length_cons]
    omega

/-- `while (std::getline(stream, line)) b = f(b, line);`. -/
def foldLines (f : β → List α → β) (d : α) (b : β) (stream : List α) : β :=
  match h : getline d stream with
  | none => b
  | some (line, rest) =>
    have := length_of_getline h
    foldLines f d (f b line) rest
termination_by stream.length

theorem foldLines_nil (f : β → List α → β) (d : α) (b : β) : foldLines f d b [] = b := by
  unfold foldLines
  rfl

theorem foldLines_of_getline {l r : List α} (h : getline d stream = some (l, r))
    (f : β → List α → β) (b : β) : foldLines f d b stream = foldLines f d (f b l) r := by
  conv_lhs => unfold foldLines
  split
  · next hn =>
    rw [hn] at h
    cases h
  · next hs =>
    rw [hs] at h
    cases h
    rfl

/-- **The loop goes over the lines.**  The text may end with or without a delimiter. -/
theorem foldLines_eq {f : β → List α → β} (hf : ∀ b, f b [] = b) (b : β) (stream : List α) :
    foldLines f d b stream = (stream.splitOn d).foldl f b := by
  induction stream using cut_induction (d := d) generalizing b with
  | last l hd =>
    rw [List.splitOn_eq_singleton hd, List.foldl_cons, List.foldl_nil]
    rcases eq_or_ne l [] with rfl | hne
    · rw [foldLines_nil, hf]
    · rw [foldLines_of_getline (getline_of_not_mem hd hne), foldLines_nil]
  | cut l r hl ih =>
    rw [foldLines_of_getline (getline_append hl r), List.splitOn_append_cons_self_of_not_mem hl,
      List.foldl_cons]
    exact ih (f b l)

/-- A line has no delimiter. -/
theorem not_mem_of_mem_splitOn {line : List α} (h : line ∈ stream.splitOn d) : d ∉ line := by
  induction stream using cut_induction (d := d) with
  | last l hd =>
    rw [List.splitOn_eq_singleton hd, List.mem_singleton] at h
    rwa [h]
  | cut l r hl ih =>
    rw [List.splitOn_append_cons_self_of_not_mem hl, List.mem_cons] at h
    rcases h with rfl | h
    · exact hl
    · exact ih h

end Lines

/-! ### Settings -/

section Settings

variable {α κ β : Type*} [DecidableEq κ] {f : α → Option (κ × β)} {l : List α} {k : κ} {v : β}

/-- The values after an item. -/
def settle (f : α → Option (κ × β)) (m : κ → Option β) (a : α) : κ → Option β :=
  match f a with
  | none => m
  | some (k, v) => Function.update m k (some v)

/-- The last item of `l` that sets `k` sets it to `v`. -/
def LastSet (f : α → Option (κ × β)) (k : κ) (v : β) (l : List α) : Prop :=
  ∃ pre a post, l = pre ++ a :: post ∧ f a = some (k, v) ∧ ∀ b ∈ post, ∀ v', f b ≠ some (k, v')

theorem settle_of_ne {a : α} (h : ∀ v, f a ≠ some (k, v)) (m : κ → Option β) :
    settle f m a k = m k := by
  unfold settle
  cases he : f a with
  | none => rfl
  | some s =>
    obtain ⟨k', v'⟩ := s
    have hne : k ≠ k' := by
      rintro rfl
      exact h v' he
    exact Function.update_of_ne hne _ _

/-- Items that do not set a key leave it alone. -/
theorem foldl_settle_of_forall_ne (h : ∀ a ∈ l, ∀ v, f a ≠ some (k, v)) (m : κ → Option β) :
    l.foldl (settle f) m k = m k := by
  induction l using List.reverseRecOn with
  | nil => rfl
  | append_singleton l a ih =>
    rw [List.foldl_append, List.foldl_cons, List.foldl_nil,
      settle_of_ne (h a (List.mem_append_right _ (List.mem_singleton_self a)))]
    exact ih fun b hb => h b (List.mem_append_left _ hb)

theorem foldl_settle_of_lastSet (h : LastSet f k v l) (m : κ → Option β) :
    l.foldl (settle f) m k = some v := by
  obtain ⟨pre, a, post, rfl, ha, hpost⟩ := h
  rw [List.foldl_append, List.foldl_cons, foldl_settle_of_forall_ne hpost]
  unfold settle
  rw [ha]
  exact Function.update_self k _ _

omit [DecidableEq κ] in
theorem lastSet_or_forall_ne (f : α → Option (κ × β)) (l : List α) (k : κ) :
    (∃ v, LastSet f k v l) ∨ ∀ a ∈ l, ∀ v, f a ≠ some (k, v) := by
  induction l using List.reverseRecOn with
  | nil => exact Or.inr (by simp)
  | append_singleton l a ih =>
    by_cases ha : ∃ v, f a = some (k, v)
    · obtain ⟨v, hv⟩ := ha
      exact Or.inl ⟨v, l, a, [], rfl, hv, by simp⟩
    · have hno : ∀ v, f a ≠ some (k, v) := fun v hv => ha ⟨v, hv⟩
      rcases ih with ⟨v, pre, b, post, rfl, hb, hpost⟩ | hall
      · refine Or.inl ⟨v, pre, b, post ++ [a], by simp, hb, ?_⟩
        intro c hc
        rcases List.mem_append.mp hc with hc | hc
        · exact hpost c hc
        · rw [List.mem_singleton.mp hc]
          exact hno
      · refine Or.inr ?_
        intro c hc
        rcases List.mem_append.mp hc with hc | hc
        · exact hall c hc
        · rw [List.mem_singleton.mp hc]
          exact hno

/-- **The last setting counts.** -/
theorem foldl_settle_eq_some_iff :
    l.foldl (settle f) (fun _ => none) k = some v ↔ LastSet f k v l := by
  constructor
  · intro h
    rcases lastSet_or_forall_ne f l k with ⟨v', hv'⟩ | hall
    · rw [foldl_settle_of_lastSet hv'] at h
      rwa [← Option.some.inj h]
    · rw [foldl_settle_of_forall_ne hall] at h
      cases h
  · intro h
    exact foldl_settle_of_lastSet h _

theorem foldl_settle_eq_none_iff :
    l.foldl (settle f) (fun _ => none) k = none ↔ ∀ a ∈ l, ∀ v, f a ≠ some (k, v) := by
  constructor
  · intro h
    rcases lastSet_or_forall_ne f l k with ⟨v', hv'⟩ | hall
    · rw [foldl_settle_of_lastSet hv'] at h
      cases h
    · exact hall
  · intro h
    exact foldl_settle_of_forall_ne h _

end Settings

end Lib
