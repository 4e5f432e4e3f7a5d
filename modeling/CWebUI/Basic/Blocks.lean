import CWebUI.Basic.Lists

set_option autoImplicit false

/-! # Copies between blocks of memory

A block is the list of its symbols. `copyInto` copies between two blocks, or within one; a copy that
reads or writes outside of a block has no result. What a block holds is read in windows: a copy
gives the window that it writes, and keeps those before and behind it.
-/

namespace ListLemmas

variable {α : Type}

/-- The `n` symbols from the index `i` on. -/
def window (block : List α) (i n : Nat) : List α := (block.drop i).take n

/-- `memcpy` of `n` symbols from the index `j` of `src` to the index `i` of `dst`. All of them are
read before the first is written, so that it is `memmove` when both are the same block. -/
def copyInto (dst : List α) (i : Nat) (src : List α) (j n : Nat) : Option (List α) :=
  if j + n ≤ src.length ∧ i + n ≤ dst.length then some (memcpyAt dst i (window src j n))
  else none

theorem length_window {block : List α} {i n : Nat} (h : i + n ≤ block.length) :
    (window block i n).length = n := by
  rw [window, List.length_take, List.length_drop]
  omega

theorem window_self (block : List α) : window block 0 block.length = block := by
  rw [window, List.drop_zero, List.take_length]

theorem window_zero (block : List α) (n : Nat) : window block 0 n = block.take n := by
  rw [window, List.drop_zero]

/-- Two windows side by side. -/
theorem window_add (block : List α) (i n m : Nat) :
    window block i (n + m) = window block i n ++ window block (i + n) m := by
  rw [window, window, window, List.take_add, List.drop_drop]

theorem window_append_left {a b : List α} {i n : Nat} (h : i + n ≤ a.length) :
    window (a ++ b) i n = window a i n := by
  rw [window, window, List.drop_append_of_le_length (by omega),
    List.take_append_of_le_length (by rw [List.length_drop]; omega)]

theorem window_append_right (a b : List α) : window (a ++ b) a.length b.length = b := by
  rw [window, List.drop_left, List.take_length]

/-- A window of the front of a block is one of the block. -/
theorem window_take {block : List α} {i n m : Nat} (h : i + n ≤ m) :
    window (block.take m) i n = window block i n := by
  rw [window, window, List.drop_take, List.take_take, Nat.min_eq_left (by omega)]

section Copy

variable {buffer src : List α} {i : Nat}

theorem length_memcpyAt (h : i + src.length ≤ buffer.length) :
    (memcpyAt buffer i src).length = buffer.length := by
  simp only [memcpyAt, List.length_append, List.length_take, List.length_drop]
  omega

/-- The window that is written. -/
theorem window_memcpyAt (h : i + src.length ≤ buffer.length) :
    window (memcpyAt buffer i src) i src.length = src := by
  have hfront : (buffer.take i).length = i := List.length_take_of_le (by omega)
  have hdrop : (memcpyAt buffer i src).drop i = src ++ buffer.drop (i + src.length) := by
    rw [memcpyAt, List.append_assoc]
    exact List.drop_left' hfront
  rw [window, hdrop, List.take_left]

/-- A window before it. -/
theorem window_memcpyAt_before {j n : Nat} (h : i + src.length ≤ buffer.length)
    (hj : j + n ≤ i) :
    window (memcpyAt buffer i src) j n = window buffer j n := by
  have hfront : (buffer.take i).length = i := List.length_take_of_le (by omega)
  rw [memcpyAt, List.append_assoc, window_append_left (by omega), window_take hj]

/-- A window behind it. -/
theorem window_memcpyAt_behind {j n : Nat} (h : i + src.length ≤ buffer.length)
    (hj : i + src.length ≤ j) : window (memcpyAt buffer i src) j n = window buffer j n := by
  have hlen : (buffer.take i ++ src).length = i + src.length := by
    rw [List.length_append, List.length_take_of_le (by omega)]
  have hdrop : (memcpyAt buffer i src).drop j = buffer.drop j := by
    rw [memcpyAt, List.drop_append, hlen, List.drop_eq_nil_of_le (by omega), List.drop_drop,
      List.nil_append]
    congr 1
    omega
  rw [window, window, hdrop]

/-- A store is a copy of one symbol. -/
theorem set_eq_memcpyAt {a : α} (h : i < buffer.length) :
    buffer.set i a = memcpyAt buffer i [a] := by
  rw [memcpyAt, List.set_eq_take_append_cons_drop, if_pos h, List.append_assoc]
  rfl

/-- A copy within both blocks has a result. -/
theorem copyInto_eq {j n : Nat} (hsrc : j + n ≤ src.length) (hdst : i + n ≤ buffer.length) :
    copyInto buffer i src j n = some (memcpyAt buffer i (window src j n)) := if_pos ⟨hsrc, hdst⟩

/-- A copy of a whole block. -/
theorem copyInto_all (hdst : i + src.length ≤ buffer.length) :
    copyInto buffer i src 0 src.length = some (memcpyAt buffer i src) := by
  rw [copyInto_eq (by omega) hdst, window_self]

end Copy

end ListLemmas
