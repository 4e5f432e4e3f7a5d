import Mathlib.Algebra.BigOperators.Group.Finset.Basic

set_option autoImplicit false

/-! # What all threads together hold

Every thread is at some place of its program, and a step moves one thread. With a place goes
a weight: what a thread that is there holds or still has to do. `Total pc weight n` says that
the weights of all threads add up to `n`. There may be any number of threads, also infinitely
many: only those with a weight have to be finitely many.
-/

namespace Threads

variable {T P M : Type} [AddCommMonoid M]

/-- The weights of all threads add up to `n`. -/
def Total (pc : T → P) (weight : P → M) (n : M) : Prop :=
  ∃ S : Finset T, (∀ t, t ∉ S → weight (pc t) = 0) ∧ ∑ t ∈ S, weight (pc t) = n

variable {pc : T → P} {weight : P → M} {n : M}

theorem total_zero (h : ∀ t, weight (pc t) = 0) : Total pc weight 0 :=
  ⟨∅, fun t _ => h t, Finset.sum_empty⟩

theorem Total.eq_zero (h : Total pc weight n) (hall : ∀ t, weight (pc t) = 0) : n = 0 := by
  obtain ⟨S, -, hsum⟩ := h
  rw [← hsum]
  exact Finset.sum_eq_zero fun t _ => hall t

variable [DecidableEq T]

/-- There is one total. -/
theorem Total.unique {m : M} (h : Total pc weight n) (h' : Total pc weight m) : n = m := by
  obtain ⟨S, hS, rfl⟩ := h
  obtain ⟨S', hS', rfl⟩ := h'
  -- both are the sum over the threads of either set
  calc ∑ t ∈ S, weight (pc t) = ∑ t ∈ S ∪ S', weight (pc t) :=
        Finset.sum_subset Finset.subset_union_left fun t _ ht => hS t ht
    _ = ∑ t ∈ S', weight (pc t) :=
        (Finset.sum_subset Finset.subset_union_right fun t _ ht => hS' t ht).symm

/-- **A step.** One thread goes from its place to another. -/
theorem Total.update (h : Total pc weight n) (t : T) (p : P) :
    ∃ rest, n = rest + weight (pc t) ∧ Total (Function.update pc t p) weight (rest + weight p) := by
  obtain ⟨S, hout, hsum⟩ := h
  refine ⟨∑ u ∈ S.erase t, weight (pc u), ?_, insert t S, fun u hu => ?_, ?_⟩
  · by_cases ht : t ∈ S
    · rw [Finset.sum_erase_add _ _ ht, hsum]
    · rw [Finset.erase_eq_of_notMem ht, hout t ht, add_zero, hsum]
  · rw [Finset.mem_insert, not_or] at hu
    rw [Function.update_of_ne hu.1]
    exact hout u hu.2
  · -- the other threads are where they were
    have hsame : ∀ u ∈ S.erase t, weight (Function.update pc t p u) = weight (pc u) := fun u hu => by
      rw [Function.update_of_ne (Finset.ne_of_mem_erase hu)]
    calc ∑ u ∈ insert t S, weight (Function.update pc t p u)
        = weight (Function.update pc t p t) +
            ∑ u ∈ S.erase t, weight (Function.update pc t p u) := by
          rw [← Finset.add_sum_erase _ _ (Finset.mem_insert_self t S), Finset.erase_insert_eq_erase]
      _ = ∑ u ∈ S.erase t, weight (pc u) + weight p := by
          rw [Function.update_self, Finset.sum_congr rfl hsame, add_comm]

/-- What one thread holds is part of the whole. -/
theorem Total.part (h : Total pc weight n) (t : T) : ∃ rest, n = rest + weight (pc t) := by
  obtain ⟨rest, hn, -⟩ := h.update t (pc t)
  exact ⟨rest, hn⟩

/-- Nothing changes when a thread goes to a place of the same weight. -/
theorem Total.pass (h : Total pc weight n) {t : T} {p : P} (hp : weight p = weight (pc t)) :
    Total (Function.update pc t p) weight n := by
  obtain ⟨rest, hn, htotal⟩ := h.update t p
  rw [hn, ← hp]
  exact htotal

end Threads
