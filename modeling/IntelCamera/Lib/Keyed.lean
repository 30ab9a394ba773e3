import Mathlib.Data.List.Nodup
import Mathlib.Data.List.Perm.Basic
import Mathlib.Logic.Function.Basic

/-!
# Lib.Keyed — a list of records read as a finite map

`lookup key l k` is the first record of `l` under the key `k`.  Where the keys are distinct, `lookup`
does not depend on the order of the list, and the three ways of changing the list (append a record
with a new key, store one in place of another of the same key, take one out) are updates of the map at
one point.
-/

namespace Lib

variable {α κ : Type*} {key : α → κ} {l l' : List α} {a : α} {k : κ}

theorem nodup_append_new (hn : (l.map key).Nodup) (hk : key a ∉ l.map key) :
    ((l ++ [a]).map key).Nodup := by
  rw [List.map_append, List.map_singleton]
  exact hn.append (List.nodup_singleton _) (by simpa using hk)

/-- Storing a record of the same key leaves the keys as they are. -/
theorem map_set_same {i : ℕ} {b : α} (hi : l[i]? = some b) (hk : key a = key b) :
    (l.set i a).map key = l.map key := by
  obtain ⟨hlt, rfl⟩ := List.getElem?_eq_some_iff.mp hi
  have hlt' : i < (l.map key).length := by simpa using hlt
  have hself := List.set_getElem_self hlt'
  rw [List.getElem_map] at hself
  rw [List.map_set, hk, hself]

variable [DecidableEq κ]

variable (key) in
/-- The first record under a key. -/
def lookup (l : List α) (k : κ) : Option α := l.find? fun a => key a = k

theorem lookup_some (h : lookup key l k = some a) : a ∈ l ∧ key a = k :=
  ⟨List.mem_of_find?_eq_some h, by simpa using List.find?_some h⟩

theorem lookup_eq_none_iff : lookup key l k = none ↔ k ∉ l.map key := by
  unfold lookup
  rw [List.find?_eq_none, List.mem_map]
  constructor
  · rintro h ⟨b, hb, hk⟩
    exact h b hb (by simpa using hk)
  · intro h b hb hk
    exact h ⟨b, hb, by simpa using hk⟩

/-- **With distinct keys the map is the membership relation.** -/
theorem lookup_eq_some_iff (hn : (l.map key).Nodup) :
    lookup key l k = some a ↔ a ∈ l ∧ key a = k := by
  refine ⟨lookup_some, ?_⟩
  rintro ⟨ha, rfl⟩
  cases h : lookup key l (key a) with
  | none => exact absurd (List.mem_map_of_mem ha) (lookup_eq_none_iff.mp h)
  | some b =>
    obtain ⟨hb, hk⟩ := lookup_some h
    rw [List.inj_on_of_nodup_map hn hb ha hk]

theorem lookup_perm (hn : (l.map key).Nodup) (hp : l'.Perm l) : lookup key l' = lookup key l := by
  have hn' : (l'.map key).Nodup := (hp.map key).nodup_iff.mpr hn
  ext k a
  rw [lookup_eq_some_iff hn', lookup_eq_some_iff hn, hp.mem_iff]

theorem lookup_append_new (hk : key a ∉ l.map key) :
    lookup key (l ++ [a]) = Function.update (lookup key l) (key a) (some a) := by
  funext k
  by_cases h : k = key a
  · subst h
    rw [Function.update_self]
    unfold lookup
    rw [List.find?_append]
    have hnone : lookup key l (key a) = none := lookup_eq_none_iff.mpr hk
    unfold lookup at hnone
    rw [hnone]
    simp
  · rw [Function.update_of_ne h]
    unfold lookup
    rw [List.find?_append]
    simp [Ne.symm h]

theorem lookup_eraseIdx (hn : (l.map key).Nodup) {i : ℕ} (hi : l[i]? = some a) :
    lookup key (l.eraseIdx i) = Function.update (lookup key l) (key a) none := by
  obtain ⟨hlt, rfl⟩ := List.getElem?_eq_some_iff.mp hi
  have hp : l.Perm (l[i] :: l.eraseIdx i) := (List.getElem_cons_eraseIdx_perm hlt).symm
  have hc := (hp.map key).nodup_iff.mp hn
  rw [List.map_cons, List.nodup_cons] at hc
  funext k
  by_cases h : k = key l[i]
  · subst h
    rw [Function.update_self]
    exact lookup_eq_none_iff.mpr hc.1
  · rw [Function.update_of_ne h, ← lookup_perm hn hp.symm]
    unfold lookup
    rw [List.find?_cons_of_neg (by simpa using Ne.symm h)]

theorem lookup_set (hn : (l.map key).Nodup) {i : ℕ} {b : α} (hi : l[i]? = some b)
    (hk : key a = key b) :
    lookup key (l.set i a) = Function.update (lookup key l) (key a) (some a) := by
  obtain ⟨hlt, -⟩ := List.getElem?_eq_some_iff.mp hi
  have hn' : ((l.set i a).map key).Nodup := by rwa [map_set_same hi hk]
  have hp : (l.set i a).Perm (a :: l.eraseIdx i) := List.set_perm_cons_eraseIdx hlt a
  rw [← lookup_perm hn' hp.symm]
  funext k
  by_cases h : k = key a
  · subst h
    rw [Function.update_self]
    unfold lookup
    rw [List.find?_cons_of_pos (by simp)]
  · rw [Function.update_of_ne h]
    have he := congrFun (lookup_eraseIdx hn hi) k
    rw [← hk, Function.update_of_ne h] at he
    rw [← he]
    unfold lookup
    rw [List.find?_cons_of_neg (by simpa using Ne.symm h)]

end Lib
