import CWebUI.Basic.Blocks

set_option autoImplicit false

/-! # Streams cut into blocks

A stream of symbols is taken in blocks of one width. What does not fill a block is the rest. A hash
that is iterated over the blocks can be fed in pieces: with the rest of what came before in front
of a piece, its blocks follow those before it (`blocks_append`), so that the pieces make no
difference (`absorb_append`).
-/

namespace BlockStream

open ListLemmas

variable {α σ : Type} {n : Nat}

/-- The full blocks of a stream, each of `n` symbols. -/
def blocks (n : Nat) (xs : List α) : List (List α) :=
  (List.range (xs.length / n)).map fun k => window xs (n * k) n

/-- What is behind the last full block. -/
def rest (n : Nat) (xs : List α) : List α := xs.drop (n * (xs.length / n))

/-- An iterated hash: the state behind the full blocks of a stream. -/
def absorb (compress : σ → List α → σ) (n : Nat) (s : σ) (xs : List α) : σ :=
  (blocks n xs).foldl compress s

theorem length_rest (n : Nat) (xs : List α) : (rest n xs).length = xs.length % n := by
  rw [rest, List.length_drop, Nat.mod_def]

/-- A stream that is shorter than a block has none. -/
theorem blocks_short {xs : List α} (h : xs.length < n) : blocks n xs = [] := by
  rw [blocks, Nat.div_eq_of_lt h]
  rfl

theorem rest_short {xs : List α} (h : xs.length < n) : rest n xs = xs := by
  rw [rest, Nat.div_eq_of_lt h, Nat.mul_zero, List.drop_zero]

/-- How many blocks two streams have together. -/
theorem length_div_append (hn : 0 < n) (xs ys : List α) :
    (xs ++ ys).length / n = xs.length / n + (rest n xs ++ ys).length / n := by
  have hsplit : (xs ++ ys).length = n * (xs.length / n) + (rest n xs ++ ys).length := by
    rw [List.length_append, List.length_append, length_rest]
    have := Nat.div_add_mod xs.length n
    omega
  rw [hsplit, Nat.mul_add_div hn]

/-- **Behind the blocks of a stream come those of its rest with the next stream.** -/
theorem blocks_append (hn : 0 < n) (xs ys : List α) :
    blocks n (xs ++ ys) = blocks n xs ++ blocks n (rest n xs ++ ys) := by
  rw [blocks, length_div_append hn, List.range_add, List.map_append, List.map_map]
  congr 1
  · refine List.map_congr_left fun k hk => ?_
    have hlt : k + 1 ≤ xs.length / n := List.mem_range.mp hk
    have hle : n * (k + 1) ≤ xs.length :=
      Nat.le_trans (Nat.mul_le_mul_left n hlt) (Nat.mul_div_le xs.length n)
    exact window_append_left (by rw [Nat.mul_add] at hle; omega)
  · refine List.map_congr_left fun k _ => ?_
    have hfront : n * (xs.length / n) ≤ xs.length := Nat.mul_div_le xs.length n
    have hdrop : (xs ++ ys).drop (n * (xs.length / n + k))
        = (rest n xs ++ ys).drop (n * k) := by
      rw [rest, ← List.drop_append_of_le_length hfront, List.drop_drop, Nat.mul_add]
    show window (xs ++ ys) (n * (xs.length / n + k)) n = window (rest n xs ++ ys) (n * k) n
    rw [window, window, hdrop]

theorem rest_append (hn : 0 < n) (xs ys : List α) :
    rest n (xs ++ ys) = rest n (rest n xs ++ ys) := by
  have hfront : n * (xs.length / n) ≤ xs.length := Nat.mul_div_le xs.length n
  rw [rest, length_div_append hn, Nat.mul_add, ← List.drop_drop,
    List.drop_append_of_le_length hfront]
  rfl

/-- A block in front. -/
theorem blocks_block {block : List α} (hn : 0 < n) (hblock : block.length = n) (ys : List α) :
    blocks n (block ++ ys) = block :: blocks n ys := by
  have hone : blocks n block = [block] := by
    rw [blocks, hblock, Nat.div_self hn]
    show [window block (n * 0) n] = [block]
    rw [Nat.mul_zero, ← hblock, window_self]
  have hnone : rest n block = [] := by
    rw [rest, hblock, Nat.div_self hn, Nat.mul_one, ← hblock, List.drop_length]
  rw [blocks_append hn, hone, hnone]
  rfl

theorem rest_block {block : List α} (hn : 0 < n) (hblock : block.length = n) (ys : List α) :
    rest n (block ++ ys) = rest n ys := by
  have hnone : rest n block = [] := by
    rw [rest, hblock, Nat.div_self hn, Nat.mul_one, ← hblock, List.drop_length]
  rw [rest_append hn, hnone]
  rfl

section Absorb

variable (compress : σ → List α → σ) (s : σ)

theorem absorb_short {xs : List α} (h : xs.length < n) : absorb compress n s xs = s := by
  rw [absorb, blocks_short h]
  rfl

theorem absorb_block {block : List α} (hn : 0 < n) (hblock : block.length = n) (ys : List α) :
    absorb compress n s (block ++ ys) = absorb compress n (compress s block) ys := by
  rw [absorb, blocks_block hn hblock]
  rfl

/-- **The next stream is taken in behind the rest of the one before it.** -/
theorem absorb_append (hn : 0 < n) (xs ys : List α) :
    absorb compress n s (xs ++ ys)
      = absorb compress n (absorb compress n s xs) (rest n xs ++ ys) := by
  rw [absorb, blocks_append hn, List.foldl_append]
  rfl

end Absorb

end BlockStream
