import Mathlib.Data.List.Basic

/-!
# Lib.Store — a store of identified objects

`alloc` hands out a fresh address, `free` ends the life of an object, and an address never comes
back.  `get` answers `none` at an address that is not live.  One lemma per pair of operation and
address: what the operation does at its own address, and that it leaves the others alone.
-/

namespace Lib

/-- Objects by address; a freed object leaves `none`. -/
structure Store (α : Type*) where
  cells : List (Option α)
deriving DecidableEq, Repr

namespace Store

variable {α : Type*} {s : Store α} {p q : ℕ} {a : α}

/-- No object. -/
def empty : Store α := ⟨[]⟩

/-- The object at `p`, if it is live. -/
def get (s : Store α) (p : ℕ) : Option α := (s.cells[p]?).join

/-- The next address. -/
def next (s : Store α) : ℕ := s.cells.length

/-- A new object, at the address `s.next`. -/
def alloc (s : Store α) (a : α) : Store α := ⟨s.cells ++ [some a]⟩

/-- Overwrite the object at `p`. -/
def set (s : Store α) (p : ℕ) (a : α) : Store α := ⟨s.cells.set p (some a)⟩

/-- End the life of the object at `p`. -/
def free (s : Store α) (p : ℕ) : Store α := ⟨s.cells.set p none⟩

theorem lt_next (h : s.get p = some a) : p < s.next := by
  by_contra hp
  rw [get, List.getElem?_eq_none (Nat.not_lt.mp hp)] at h
  cases h

@[simp] theorem get_alloc_next : (s.alloc a).get s.next = some a := by
  simp [get, alloc, next]

theorem get_alloc_lt (hp : p < s.next) : (s.alloc a).get p = s.get p := by
  unfold get alloc
  rw [List.getElem?_append_left hp]

theorem get_alloc_ne (hp : p ≠ s.next) : (s.alloc a).get p = s.get p := by
  rcases Nat.lt_or_ge p s.next with hlt | hge
  · exact get_alloc_lt hlt
  · have hlen : s.cells.length ≤ p := hge
    have hlen' : (s.cells ++ [some a]).length ≤ p := by
      have hne : p ≠ s.cells.length := hp
      rw [List.length_append, List.length_singleton]
      omega
    unfold get alloc
    rw [List.getElem?_eq_none hlen, List.getElem?_eq_none hlen']

@[simp] theorem get_free : (s.free p).get p = none := by
  unfold get free
  rcases Nat.lt_or_ge p s.cells.length with hlt | hge
  · rw [List.getElem?_set_self hlt]
    rfl
  · rw [List.getElem?_eq_none (by rw [List.length_set]; exact hge)]
    rfl

theorem get_free_ne (h : p ≠ q) : (s.free q).get p = s.get p := by
  unfold get free
  rw [List.getElem?_set_ne (Ne.symm h)]

theorem get_set (h : p < s.next) : (s.set p a).get p = some a := by
  unfold get set
  rw [List.getElem?_set_self h]
  rfl

theorem get_set_ne (h : p ≠ q) : (s.set q a).get p = s.get p := by
  unfold get set
  rw [List.getElem?_set_ne (Ne.symm h)]

theorem set_of_get (h : s.get p = some a) : s.set p a = s := by
  have hcell : s.cells[p]? = some (some a) := by
    unfold get at h
    cases hc : s.cells[p]? with
    | none =>
      rw [hc] at h
      cases h
    | some c =>
      rw [hc] at h
      exact congrArg some h
  obtain ⟨hlt, hcell⟩ := List.getElem?_eq_some_iff.mp hcell
  unfold set
  rw [← hcell, List.set_getElem_self]

@[simp] theorem set_set {b : α} : (s.set p a).set p b = s.set p b := by
  unfold set
  rw [List.set_set]

@[simp] theorem set_alloc_next {b : α} : (s.alloc a).set s.next b = s.alloc b := by
  simp [set, alloc, next]

@[simp] theorem next_free : (s.free p).next = s.next := by
  simp [next, free]

@[simp] theorem next_alloc : (s.alloc a).next = s.next + 1 := by
  simp [next, alloc]

end Store

end Lib
