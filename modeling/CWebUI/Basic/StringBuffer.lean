import CWebUI.Basic.CString
import CWebUI.Basic.Checked

set_option autoImplicit false

/-! # Strings in a buffer

`strncpy`, `strcat` and `strncat` of the C library on a block of memory. The text that they copy is
the list of its bytes, without its terminator. A write behind the end of the block ends the run, and
so does the search for a terminator that the block does not have.
-/

namespace StringBuffer

open ByteString

variable {ε : Type}

/-- Bytes that are written from an index on, one after the other. -/
def write (outside : Nat → ε) : List UInt8 → Nat → List UInt8 → Except ε (List UInt8)
  | b, _, [] => .ok b
  | b, p, c :: cs => do
      let b ← Checked.put outside b p c
      write outside b (p + 1) cs

/-- `strlen(b)` -/
def strlen (outside : Nat → ε) (b : List UInt8) : Except ε Nat :=
  Checked.fit b.length (outside b.length) ((cString b).length + 1) (cString b).length

/-- `strncpy(b, text, n)`: at most `n` bytes of the text, filled up with null bytes to `n`. -/
def strncpy (outside : Nat → ε) (b text : List UInt8) (n : Nat) : Except ε (List UInt8) :=
  write outside b 0 (text.take n ++ List.replicate (n - text.length) 0)

/-- `strcat(b, text)` -/
def strcat (outside : Nat → ε) (b text : List UInt8) : Except ε (List UInt8) := do
  write outside b (← strlen outside b) (text ++ [0])

/-- `strncat(b, text, n)`: at most `n` bytes of the text, and a null byte behind them. -/
def strncat (outside : Nat → ε) (b text : List UInt8) (n : Nat) : Except ε (List UInt8) := do
  write outside b (← strlen outside b) (text.take n ++ [0])

/-! ## Writing -/

variable {outside : Nat → ε} {b text : List UInt8}

theorem write_eq {p : Nat} {cs : List UInt8} (h : p + cs.length ≤ b.length) :
    write outside b p cs = .ok (b.take p ++ (cs ++ b.drop (p + cs.length))) := by
  induction cs generalizing b p with
  | nil =>
      rw [write, List.nil_append, List.length_nil, Nat.add_zero, List.take_append_drop]
  | cons c cs ih =>
      rw [List.length_cons] at h
      have hset : (b.set p c).length = b.length := List.length_set
      rw [write, Checked.bind_ok (Checked.put_eq (by omega)), ih (by omega), List.length_cons,
        List.take_succ_eq_append_getElem (by omega), List.getElem_set_self,
        List.take_set_of_le (Nat.le_refl p), List.drop_set_of_lt (by omega), List.append_assoc,
        show p + 1 + cs.length = p + (cs.length + 1) by omega]
      rfl

theorem write_outside {p : Nat} {cs : List UInt8} (hp : p ≤ b.length)
    (h : b.length < p + cs.length) : write outside b p cs = .error (outside b.length) := by
  induction cs generalizing b p with
  | nil =>
      rw [List.length_nil] at h
      omega
  | cons c cs ih =>
      rw [List.length_cons] at h
      -- the writes go on until the first one behind the end
      by_cases hlast : p = b.length
      · have hput : Checked.put outside b p c = .error (outside p) := if_neg (by omega)
        rw [write, Checked.bind_error hput, hlast]
      · have hset : (b.set p c).length = b.length := List.length_set
        rw [write, Checked.bind_ok (Checked.put_eq (by omega)), ih (by omega) (by omega), hset]

/-! ## The string at the start of a buffer -/

/-- The buffer holds the string, with its terminator. -/
structure Holds (b text : List UInt8) : Prop where
  clean : (0 : UInt8) ∉ text
  front : text ++ [0] <+: b

theorem Holds.room (h : Holds b text) : text.length < b.length := by
  have := h.front.length_le
  rw [List.length_append, List.length_singleton] at this
  omega

theorem Holds.cString (h : Holds b text) : cString b = text := by
  obtain ⟨behind, rfl⟩ := h.front
  rw [List.append_assoc, ByteString.cString, List.takeWhile_append_of_pos]
  · simp
  · intro c hc
    simpa using fun h0 : c = 0 => h.clean (h0 ▸ hc)

theorem Holds.strlen (h : Holds b text) : strlen outside b = .ok text.length := by
  rw [StringBuffer.strlen, h.cString]
  exact Checked.fit_eq h.room

/-- A byte behind the terminator is not part of the string. -/
theorem Holds.set (h : Holds b text) {i : Nat} (hi : text.length < i) (c : UInt8) :
    Holds (b.set i c) text where
  clean := h.clean
  front := by
    obtain ⟨behind, rfl⟩ := h.front
    rw [List.set_append_right]
    · exact List.prefix_append _ _
    · rw [List.length_append, List.length_singleton]
      omega

/-- A buffer without a null byte holds no string. -/
theorem strlen_unterminated (h : (0 : UInt8) ∉ b) :
    strlen outside b = .error (outside b.length) := by
  rw [strlen, cString_of_not_mem h]
  exact Checked.fit_long (Nat.lt_succ_self _)

/-- A string behind a first part of a buffer, which has no null byte. -/
theorem holds_write {pre behind : List UInt8} (hpre : (0 : UInt8) ∉ pre)
    (htext : (0 : UInt8) ∉ text) : Holds (pre ++ (text ++ [0] ++ behind)) (pre ++ text) where
  clean := by
    rw [List.mem_append]
    exact fun h => h.elim hpre htext
  front := ⟨behind, by simp⟩

/-- A text that is shorter than `n` is copied with its terminator. -/
theorem strncpy_eq {n : Nat} (htext : (0 : UInt8) ∉ text) (hlt : text.length < n)
    (hn : n ≤ b.length) :
    ∃ b', strncpy outside b text n = .ok b' ∧ b'.length = b.length ∧ Holds b' text := by
  -- the first of the null bytes is the terminator, and `k` are left
  obtain ⟨k, rfl⟩ := Nat.exists_eq_add_of_lt hlt
  have hfill : text.take (text.length + k + 1) ++
      List.replicate (text.length + k + 1 - text.length) 0 =
      text ++ [0] ++ List.replicate k 0 := by
    rw [List.take_of_length_le (by omega), show text.length + k + 1 - text.length = k + 1 by omega,
      List.replicate_succ, List.append_assoc]
    rfl
  have hlen : (text ++ [0] ++ List.replicate k (0 : UInt8)).length = text.length + k + 1 := by
    simp
    omega
  rw [strncpy, hfill, write_eq (by omega), hlen]
  refine ⟨_, rfl, ?_, ?_⟩
  · rw [List.length_append, List.length_append, hlen, List.length_take, List.length_drop]
    omega
  · rw [Nat.zero_add, List.take_zero, List.append_assoc]
    exact holds_write (by simp) htext

/-- A text of `n` bytes or more is copied without a terminator. -/
theorem strncpy_cut {n : Nat} (hlong : n ≤ text.length) (hn : n ≤ b.length) :
    strncpy outside b text n = .ok (text.take n ++ b.drop n) := by
  have hlen : (text.take n).length = n := by
    rw [List.length_take]
    omega
  rw [strncpy, Nat.sub_eq_zero_of_le hlong, List.replicate_zero, List.append_nil,
    write_eq (by omega), hlen, Nat.zero_add]
  rfl

/-- A text with room for it is written behind the string of the buffer. -/
theorem Holds.write {more : List UInt8} (h : Holds b text) (hmore : (0 : UInt8) ∉ more)
    (hroom : text.length + more.length < b.length) :
    ∃ b', write outside b text.length (more ++ [0]) = .ok b' ∧ b'.length = b.length ∧
      Holds b' (text ++ more) := by
  have hlen : (more ++ [(0 : UInt8)]).length = more.length + 1 := by simp
  rw [write_eq (by omega), hlen]
  refine ⟨_, rfl, ?_, ?_⟩
  · rw [List.length_append, List.length_append, hlen, List.length_take, List.length_drop]
    omega
  · have htake : b.take text.length = text := by
      obtain ⟨behind, rfl⟩ := h.front
      rw [List.append_assoc, List.take_left]
    rw [htake]
    exact holds_write h.clean hmore

theorem Holds.strcat {more : List UInt8} (h : Holds b text) (hmore : (0 : UInt8) ∉ more)
    (hroom : text.length + more.length < b.length) :
    ∃ b', strcat outside b more = .ok b' ∧ b'.length = b.length ∧ Holds b' (text ++ more) := by
  rw [StringBuffer.strcat, Checked.bind_ok h.strlen]
  exact h.write hmore hroom

theorem Holds.strncat {more : List UInt8} {n : Nat} (h : Holds b text)
    (hmore : (0 : UInt8) ∉ more) (hn : more.length ≤ n)
    (hroom : text.length + more.length < b.length) :
    ∃ b', strncat outside b more n = .ok b' ∧ b'.length = b.length ∧ Holds b' (text ++ more) := by
  rw [StringBuffer.strncat, Checked.bind_ok h.strlen, List.take_of_length_le hn]
  exact h.write hmore hroom

/-- `strncat` has no room for its null byte when its bound is all of the room. -/
theorem Holds.strncat_outside {more : List UInt8} {n : Nat} (h : Holds b text)
    (hn : b.length ≤ text.length + n) (hmore : b.length ≤ text.length + more.length) :
    StringBuffer.strncat outside b more n = .error (outside b.length) := by
  have hroom := h.room
  rw [StringBuffer.strncat, Checked.bind_ok h.strlen]
  apply write_outside
  · omega
  · rw [List.length_append, List.length_take, List.length_singleton]
    omega

end StringBuffer
