import CWebUI.Basic.StringBuffer

set_option autoImplicit false

/-! # Texts printed one behind the other

A buffer of `n` bytes is filled by `offset += snprintf(&b[offset], n - offset, …)`, once for each
text. `snprintf` returns the length of the whole text, also where it had room for a part of it only,
so that the offset may leave the buffer. The difference is then a very large number, and no bound.
-/

namespace StringBuffer

open ByteString

variable {ε : Type}

/-- `snprintf(&b[p], size, "%s", text)` -/
def snprintf (outside : Nat → ε) (b : List UInt8) (p size : Nat) (text : List UInt8) :
    Except ε (List UInt8) :=
  if size = 0 then .ok b else write outside b p (text.take (size - 1) ++ [0])

/-- `n - offset`, in the type of a size. -/
def sizeLeft (n offset : Nat) : Nat := (((n : Int) - offset) % 2 ^ 64).toNat

/-- The texts, from an offset on. -/
def printFrom (outside : Nat → ε) (n : Nat) : List (List UInt8) → List UInt8 → Nat →
    Except ε (List UInt8)
  | [], b, _ => .ok b
  | text :: texts, b, offset => do
      let b ← snprintf outside b offset (sizeLeft n offset) text
      printFrom outside n texts b (offset + text.length)

variable {outside : Nat → ε} {b done text : List UInt8} {texts : List (List UInt8)} {n : Nat}

theorem sizeLeft_inside {offset : Nat} (h : offset ≤ n) (hn : n < 2 ^ 64) :
    sizeLeft n offset = n - offset := by
  rw [sizeLeft, Int.emod_eq_of_lt (by omega) (by omega)]
  omega

theorem sizeLeft_outside {offset : Nat} (h : n < offset) (hoffset : offset < 2 ^ 64) :
    sizeLeft n offset ≠ 0 := by
  rw [sizeLeft]
  omega

/-- A byte behind the end. -/
theorem write_behind {p : Nat} {cs : List UInt8} (hp : b.length ≤ p) (hcs : cs ≠ []) :
    write outside b p cs = .error (outside p) := by
  cases cs with
  | nil => exact absurd rfl hcs
  | cons c cs => exact Checked.bind_error (if_neg (by omega))

/-- A buffer that the next text is printed to. Where there is no room left at all, it holds what
fitted of the texts so far. -/
structure Printed (n : Nat) (b done : List UInt8) : Prop where
  length : b.length = n
  offset : done.length ≤ n
  clean : (0 : UInt8) ∉ done
  front : done.length < n → done <+: b
  full : done.length = n → Holds b (done.take (n - 1))

/-- The buffer before the first text may hold anything. -/
theorem Printed.start (h : 0 < b.length) : Printed b.length b [] where
  length := rfl
  offset := Nat.zero_le _
  clean := List.not_mem_nil
  front := fun _ => List.nil_prefix
  full := fun h0 => absurd h0 (Nat.ne_of_lt h)

/-- **A text that starts in the buffer** is cut off at its end. -/
theorem Printed.snprintf (h : Printed n b done) (hpos : 0 < n) (hn : n < 2 ^ 64)
    (htext : (0 : UInt8) ∉ text) :
    ∃ b', StringBuffer.snprintf outside b done.length (sizeLeft n done.length) text = .ok b' ∧
      b'.length = n ∧ Holds b' ((done ++ text).take (n - 1)) := by
  rw [StringBuffer.snprintf, sizeLeft_inside h.offset hn]
  rcases Nat.lt_or_eq_of_le h.offset with hlt | hfull
  · obtain ⟨behind, hbehind⟩ := h.front hlt
    have hsize : (text.take (n - done.length - 1) ++ [(0 : UInt8)]).length ≤ n - done.length := by
      rw [List.length_append, List.length_take, List.length_singleton]
      omega
    have hlength := h.length
    have hclean : (0 : UInt8) ∉ text.take (n - done.length - 1) := fun h0 =>
      htext (List.mem_of_mem_take h0)
    have htake : done ++ text.take (n - done.length - 1) = (done ++ text).take (n - 1) := by
      have hdone : done.take (n - 1) = done := List.take_of_length_le (by omega)
      rw [List.take_append, hdone, Nat.sub_right_comm]
    rw [if_neg (by omega), write_eq (by omega), ← htake]
    refine ⟨_, rfl, ?_, ?_⟩
    · rw [List.length_append, List.length_append, List.length_take, List.length_drop]
      omega
    · have hfront : b.take done.length = done := by rw [← hbehind, List.take_left]
      rw [hfront]
      exact holds_write h.clean hclean
  · rw [hfull, Nat.sub_self, if_pos rfl]
    refine ⟨b, rfl, h.length, ?_⟩
    rw [List.take_append_of_le_length (by omega)]
    exact h.full hfull

/-- The buffer behind a text, as long as the offset is in it. -/
theorem printed_of_holds (hlength : b.length = n) (hpos : 0 < n) (hoffset : done.length ≤ n)
    (hclean : (0 : UInt8) ∉ done) (h : Holds b (done.take (n - 1))) : Printed n b done where
  length := hlength
  offset := hoffset
  clean := hclean
  front := fun hlt => by
    have hfront := h.front
    rw [List.take_of_length_le (by omega)] at hfront
    exact (List.prefix_append done [0]).trans hfront
  full := fun _ => h

/-- **The texts are printed** if all of them but the last end in the buffer, and what fits of them is
there. -/
theorem Printed.printFrom (h : Printed n b done) (hn : n < 2 ^ 64) (hpos : 0 < n)
    (htexts : ∀ t ∈ texts, (0 : UInt8) ∉ t) (hne : texts ≠ [])
    (hfit : done.length + texts.dropLast.flatten.length ≤ n) :
    ∃ b', StringBuffer.printFrom outside n texts b done.length = .ok b' ∧
      Holds b' ((done ++ texts.flatten).take (n - 1)) := by
  induction texts generalizing b done with
  | nil => exact absurd rfl hne
  | cons text texts ih =>
      have htext := htexts text List.mem_cons_self
      obtain ⟨b', hrun, hlength, hholds⟩ := @Printed.snprintf _ outside _ _ _ _ h hpos hn htext
      rw [StringBuffer.printFrom, Checked.bind_ok hrun, List.flatten_cons]
      by_cases hlast : texts = []
      · rw [hlast, List.flatten_nil, List.append_nil]
        exact ⟨b', rfl, hholds⟩
      · rw [List.dropLast_cons_of_ne_nil hlast, List.flatten_cons, List.length_append] at hfit
        have hoffset : (done ++ text).length + texts.dropLast.flatten.length ≤ n := by
          rw [List.length_append]
          omega
        have hclean : (0 : UInt8) ∉ done ++ text := by
          rw [List.mem_append]
          exact fun h0 => h0.elim h.clean htext
        have hnext := printed_of_holds hlength hpos (by omega) hclean hholds
        obtain ⟨b'', hrest, hdone⟩ := ih hnext (fun t ht => htexts t (List.mem_cons_of_mem _ ht))
          hlast hoffset
        rw [List.length_append] at hrest
        rw [List.append_assoc] at hdone
        exact ⟨b'', hrest, hdone⟩

/-- **One text too many**: the offset is behind the buffer, and so is the next byte. -/
theorem Printed.printFrom_outside (h : Printed n b done) (hn : n < 2 ^ 64) (hpos : 0 < n)
    (htexts : ∀ t ∈ texts, (0 : UInt8) ∉ t)
    (hsize : done.length + texts.flatten.length < 2 ^ 64)
    (hlong : n < done.length + texts.dropLast.flatten.length) :
    ∃ p, n < p ∧ StringBuffer.printFrom outside n texts b done.length = .error (outside p) := by
  induction texts generalizing b done with
  | nil =>
      have := h.offset
      simp only [List.dropLast_nil, List.flatten_nil, List.length_nil] at hlong
      omega
  | cons text texts ih =>
      have hoffset := h.offset
      have htext := htexts text List.mem_cons_self
      obtain ⟨b', hrun, hlength, hholds⟩ :=
        @Printed.snprintf _ outside _ _ _ _ h hpos hn htext
      rw [StringBuffer.printFrom, Checked.bind_ok hrun]
      have hne : texts ≠ [] := by
        rintro rfl
        simp only [List.dropLast_singleton, List.flatten_nil, List.length_nil] at hlong
        omega
      rw [List.dropLast_cons_of_ne_nil hne, List.flatten_cons, List.length_append] at hlong
      rw [List.flatten_cons, List.length_append] at hsize
      by_cases hin : done.length + text.length ≤ n
      · have hclean : (0 : UInt8) ∉ done ++ text := by
          rw [List.mem_append]
          exact fun h0 => h0.elim h.clean htext
        have hnext := printed_of_holds hlength hpos (by rwa [List.length_append]) hclean hholds
        obtain ⟨p, hp, hrest⟩ := ih hnext (fun t ht => htexts t (List.mem_cons_of_mem _ ht))
          (by rw [List.length_append]; omega) (by rw [List.length_append]; omega)
        rw [List.length_append] at hrest
        exact ⟨p, hp, hrest⟩
      · -- the next text is printed from an offset behind the end
        obtain ⟨next, texts, rfl⟩ := List.exists_cons_of_ne_nil hne
        refine ⟨done.length + text.length, by omega, ?_⟩
        have hleft := sizeLeft_outside (Nat.lt_of_not_le hin) (by omega)
        have hwrite : StringBuffer.snprintf outside b' (done.length + text.length)
            (sizeLeft n (done.length + text.length)) next =
            .error (outside (done.length + text.length)) := by
          rw [StringBuffer.snprintf, if_neg hleft]
          exact write_behind (by omega) (by simp)
        rw [StringBuffer.printFrom, Checked.bind_error hwrite]

end StringBuffer
