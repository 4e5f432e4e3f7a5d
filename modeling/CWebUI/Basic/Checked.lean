import Mathlib.Data.List.Basic

set_option autoImplicit false

/-! # Checked accesses

A block of memory is the list of its symbols. An access by an index that the block does not have
ends a run, with an error that carries the index. A run that makes its accesses one after the other
goes on as long as every one of them is inside.
-/

namespace Checked

variable {ε α β : Type}

/-- The symbol at an index. -/
def get (outside : Nat → ε) (block : List α) (i : Nat) : Except ε α :=
  if h : i < block.length then .ok (block.get ⟨i, h⟩) else .error (outside i)

/-- The block behind a store of a symbol. -/
def put (outside : Nat → ε) (block : List α) (i : Nat) (a : α) : Except ε (List α) :=
  if i < block.length then .ok (block.set i a) else .error (outside i)

/-- A copy of a text that needs `length` symbols into a buffer of a size. -/
def fit (size : Nat) (fault : ε) (length : Nat) (a : α) : Except ε α :=
  if length ≤ size then .ok a else .error fault

variable {outside : Nat → ε} {block : List α} {i : Nat} {a : α}

theorem get_eq (h : block[i]? = some a) : get outside block i = .ok a := by
  obtain ⟨hlt, hget⟩ := List.getElem?_eq_some_iff.mp h
  rw [get, dif_pos hlt, List.get_eq_getElem, hget]

theorem get_outside (h : block.length ≤ i) : get outside block i = .error (outside i) := by
  rw [get, dif_neg (Nat.not_lt.mpr h)]

theorem put_eq (h : i < block.length) : put outside block i a = .ok (block.set i a) := by
  rw [put, if_pos h]

variable {size length : Nat} {fault : ε}

theorem fit_eq (h : length ≤ size) : fit size fault length a = .ok a := if_pos h

theorem fit_long (h : size < length) : fit size fault length a = .error fault :=
  if_neg (Nat.not_le.mpr h)

/-! ## One access after the other -/

variable {x : Except ε α} {f : α → Except ε β}

/-- Behind an access that is inside, the run goes on with what was read. -/
theorem bind_ok (h : x = .ok a) : (x >>= f) = f a := by
  rw [h]
  rfl

/-- An access outside ends the run. -/
theorem bind_error {e : ε} (h : x = .error e) : (x >>= f) = .error e := by
  rw [h]
  rfl

/-- A run that has a result had one for its first access. -/
theorem of_bind_ok {b : β} (h : (x >>= f) = .ok b) : ∃ a, x = .ok a ∧ f a = .ok b := by
  cases hx : x with
  | error e =>
      rw [bind_error hx] at h
      cases h
  | ok a =>
      rw [bind_ok hx] at h
      exact ⟨a, rfl, h⟩

end Checked
