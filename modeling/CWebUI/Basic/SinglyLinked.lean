import Mathlib.Data.List.Basic
import Mathlib.Logic.Function.Basic

set_option autoImplicit false

/-! # Singly linked chains

`next` gives the successor of an address. `Chain next first ids` says that the addresses from
`first` on are those of a list, and that the chain ends behind them. Everything is over
arbitrary addresses.
-/

namespace SinglyLinked

variable {P : Type}

/-- The chain from a pointer on. -/
def Chain (next : P → Option P) : Option P → List P → Prop
  | first, [] => first = none
  | first, a :: ids => first = some a ∧ Chain next (next a) ids

variable {next next' : P → Option P} {first : Option P} {ids pre post : List P} {a : P}

/-- A chain depends only on the successors of its own addresses. -/
theorem Chain.congr (h : Chain next first ids) (hsame : ∀ b ∈ ids, next' b = next b) :
    Chain next' first ids := by
  induction ids generalizing first with
  | nil => exact h
  | cons b ids ih =>
      refine ⟨h.1, ?_⟩
      rw [hsame b List.mem_cons_self]
      exact ih h.2 fun c hc => hsame c (List.mem_cons_of_mem b hc)

/-- The chain behind an address. -/
theorem Chain.behind (h : Chain next first (pre ++ a :: post)) : Chain next (next a) post := by
  induction pre generalizing first with
  | nil => exact h.2
  | cons b pre ih => exact ih h.2

theorem Chain.first_mem (h : Chain next (some a) ids) : a ∈ ids := by
  cases ids with
  | nil => exact absurd h (by simp [Chain])
  | cons b ids =>
      rw [Option.some.inj h.1]
      exact List.mem_cons_self

theorem Chain.eq_nil (h : Chain next none ids) : ids = [] := by
  cases ids with
  | nil => rfl
  | cons b ids => exact absurd h.1 (by simp)

variable [DecidableEq P]

/-- An address that is not in the chain can be linked elsewhere. -/
theorem Chain.update (h : Chain next first ids) (ha : a ∉ ids) (n : Option P) :
    Chain (Function.update next a n) first ids := by
  refine h.congr fun b hb => ?_
  have hne : b ≠ a := fun heq => ha (heq ▸ hb)
  rw [Function.update_of_ne hne]

/-- **Taking an address out.** Its predecessor is linked to its successor. -/
theorem Chain.takeOut {b : P} (h : Chain next first (pre ++ b :: a :: post))
    (hnodup : (pre ++ b :: a :: post).Nodup) :
    Chain (Function.update next b (next a)) first (pre ++ b :: post) := by
  induction pre generalizing first with
  | nil =>
      obtain ⟨hfirst, -, hrest⟩ := h
      rw [List.nil_append, List.nodup_cons, List.mem_cons, not_or] at hnodup
      refine ⟨hfirst, ?_⟩
      rw [Function.update_self]
      exact hrest.update hnodup.1.2 _
  | cons c pre ih =>
      rw [List.cons_append, List.nodup_cons] at hnodup
      have hcb : c ≠ b := fun heq => hnodup.1 (by simp [heq])
      refine ⟨h.1, ?_⟩
      rw [Function.update_of_ne hcb]
      exact ih h.2 hnodup.2

end SinglyLinked
