import Mathlib.Data.List.Iterate
import Mathlib.Data.List.Count

set_option autoImplicit false

/-! # Walks round a list

`next` goes along a list and from its end back to its start (`Circle`). A walk from any entry meets
every entry in as many steps as there are entries (`Circle.iterate_length`). A walk may also end
earlier: when it has met as many entries of a kind as there are, it has met all of them
(`Circle.mem_walk`).
-/

namespace CircularList

variable {α : Type} {next : α → α}

/-- `next` goes along the list, and from its last entry on to `z`. -/
def Chained (next : α → α) : List α → α → Prop
  | [], _ => True
  | [a], z => next a = z
  | a :: b :: l, z => next a = b ∧ Chained next (b :: l) z

/-- `next` goes round the list. -/
def Circle (next : α → α) (l : List α) : Prop := ∀ a, l.head? = some a → Chained next l a

theorem chained_append {pre post : List α} {b z : α} :
    Chained next (pre ++ b :: post) z ↔ Chained next pre b ∧ Chained next (b :: post) z := by
  induction pre with
  | nil => simp [Chained]
  | cons a pre ih =>
      cases pre with
      | nil => rfl
      | cons c pre =>
          rw [List.cons_append, List.cons_append, Chained, ← List.cons_append, ih, Chained,
            and_assoc]

/-- A walk along a list. -/
theorem Chained.iterate {a z : α} {l : List α} (h : Chained next (a :: l) z) :
    List.iterate next a (l.length + 1) = a :: l ∧ next^[l.length + 1] a = z := by
  induction l generalizing a with
  | nil => exact ⟨rfl, h⟩
  | cons b l ih =>
      obtain ⟨rfl, hrest⟩ := h
      obtain ⟨hwalk, hlast⟩ := ih hrest
      rw [List.length_cons, List.iterate, hwalk, Function.iterate_succ_apply, hlast]
      exact ⟨rfl, rfl⟩

/-- The circle begins anywhere. -/
theorem Circle.rotate {pre post : List α} {a : α} (h : Circle next (pre ++ a :: post)) :
    Chained next (a :: post ++ pre) a := by
  cases pre with
  | nil =>
      rw [List.append_nil]
      exact h a rfl
  | cons b pre =>
      have hall := h b rfl
      obtain ⟨hpre, hpost⟩ := chained_append.mp hall
      exact chained_append.mpr ⟨hpost, hpre⟩

/-- A walk round the list. -/
theorem Circle.iterate_length {pre post : List α} {a : α} (h : Circle next (pre ++ a :: post)) :
    List.iterate next a (pre ++ a :: post).length = a :: post ++ pre := by
  have hwalk := h.rotate.iterate.1
  have hlen : (pre ++ a :: post).length = (post ++ pre).length + 1 := by
    simp only [List.length_append, List.length_cons]
    omega
  rw [hlen]
  exact hwalk

/-- The walk stays on the list. -/
theorem Circle.next_mem {l : List α} {a : α} (h : Circle next l) (ha : a ∈ l) : next a ∈ l := by
  obtain ⟨pre, post, rfl⟩ := List.append_of_mem ha
  have hrot := h.rotate
  cases hrest : post ++ pre with
  | nil =>
      rw [List.cons_append, hrest] at hrot
      have hself : next a = a := hrot
      rw [hself]
      exact ha
  | cons b l =>
      rw [List.cons_append, hrest] at hrot
      have hb : next a = b := hrot.1
      have hmem : b ∈ post ++ pre := by
        rw [hrest]
        exact List.mem_cons_self
      rw [hb]
      rcases List.mem_append.mp hmem with hin | hin
      · exact List.mem_append_right _ (List.mem_cons_of_mem _ hin)
      · exact List.mem_append_left _ hin

theorem Circle.iterate_mem {l : List α} {a : α} (h : Circle next l) (ha : a ∈ l) (k : Nat) :
    ∀ b ∈ List.iterate next a k, b ∈ l := by
  induction k generalizing a with
  | zero => intro b hb; cases hb
  | succ k ih =>
      intro b hb
      rw [List.iterate] at hb
      rcases List.mem_cons.mp hb with rfl | hb
      · exact ha
      · exact ih (h.next_mem ha) b hb

/-- A walk that is as long as the list, or has met as many entries with a property as there are,
has met all of these. -/
theorem Circle.mem_walk {l : List α} {a : α} (h : Circle next l) (ha : a ∈ l) (p : α → Bool)
    {k : Nat} (hk : l.length ≤ k ∨ l.countP p ≤ (List.iterate next a k).countP p) :
    ∀ b ∈ l, p b = true → b ∈ List.iterate next a k := by
  intro b hb hp
  obtain ⟨pre, post, rfl⟩ := List.append_of_mem ha
  have hround := h.iterate_length
  set n := (pre ++ a :: post).length with hn
  have hperm : (a :: post ++ pre).Perm (pre ++ a :: post) := List.perm_append_comm
  have hin : b ∈ a :: post ++ pre := hperm.mem_iff.mpr hb
  rcases Nat.le_total n k with hle | hlt
  · -- the whole round is the front of the walk
    obtain ⟨m, rfl⟩ := Nat.exists_eq_add_of_le hle
    rw [List.iterate_add, hround]
    exact List.mem_append_left _ hin
  · obtain ⟨m, hm⟩ := Nat.exists_eq_add_of_le hlt
    rw [hm, List.iterate_add] at hround
    have hcount : (pre ++ a :: post).countP p ≤ (List.iterate next a k).countP p := by
      rcases hk with hk | hk
      · have hmzero : m = 0 := by omega
        rw [hmzero] at hround
        rw [← hperm.countP_eq p, ← hround]
        simp
      · exact hk
    rw [← hperm.countP_eq p, ← hround, List.countP_append] at hcount
    have hnone := List.countP_eq_zero.mp (by omega :
      (List.iterate next (next^[k] a) m).countP p = 0)
    rw [← hround, List.mem_append] at hin
    exact hin.resolve_right fun hlater => hnone b hlater hp

end CircularList
