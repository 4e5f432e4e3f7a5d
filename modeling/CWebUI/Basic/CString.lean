import Mathlib.Data.List.TakeWhile
import CWebUI.Basic.Bytes

set_option autoImplicit false

/-! # C strings

The functions of the C library that the development needs, on byte strings. A buffer is the
list of its bytes; a C string is what stands in a buffer before its first NUL byte, and is
written without that terminator. Character classification is that of the `C` locale.
-/

namespace ByteString

/-- The C string that starts at the front of a buffer: the bytes before the first NUL. -/
def cString (buffer : List UInt8) : List UInt8 := buffer.takeWhile (· ≠ 0)

/-- `tolower`. -/
def toLower (c : UInt8) : UInt8 := if 65 ≤ c ∧ c ≤ 90 then c + 32 else c

/-- `strncasecmp(line, text, strlen(text)) == 0` for a text without NUL: the line starts
with the text, letters compared without case. -/
def startsWithIgnoreCase : List UInt8 → List UInt8 → Bool
  | [], _ => true
  | _ :: _, [] => false
  | t :: ts, c :: cs => toLower t == toLower c && startsWithIgnoreCase ts cs

/-- `strchr`: the buffer from the first occurrence of `c` on. -/
def strchr (c : UInt8) (s : List UInt8) : Option (List UInt8) :=
  if c ∈ s then some (s.dropWhile (· ≠ c)) else none

/-- The number a string of decimal digits denotes, with `n` the number denoted by the
digits already read. -/
def decValueFrom (n : Nat) (ds : List UInt8) : Nat :=
  ds.foldl (fun m c => 10 * m + (c.toNat - 48)) n

/-- The number a string of decimal digits denotes. -/
def decValue (ds : List UInt8) : Nat := decValueFrom 0 ds

/-- `strtoull(s, &end, 10)` for a text that starts with a digit: the value, which is
clamped to the 64-bit range, and the text behind the digits. -/
def strtoull (s : List UInt8) : Nat × List UInt8 :=
  (min (decValue (s.takeWhile isDigit)) (2 ^ 64 - 1), s.dropWhile isDigit)

/-- `isspace`. -/
def isSpace (c : UInt8) : Bool := c == 32 || (9 ≤ c && c ≤ 13)

/-- The value that `%d` stores for a number: the library clamps it to 64 bits, and the
variable keeps the low 32 bits. -/
def intOfScan (n : Int) : Int := (max (-2 ^ 63) (min n (2 ^ 63 - 1))).bmod (2 ^ 32)

/-- `sscanf(s, "%d", &n)`: the number, if there is one. -/
def scanInt (s : List UInt8) : Option Int :=
  let s := (cString s).dropWhile isSpace
  let negative := s.head? = some 45
  let s := if negative ∨ s.head? = some 43 then s.tail else s
  let digits := s.takeWhile isDigit
  if digits = [] then none
  else some (intOfScan (if negative then -(decValue digits : Int) else decValue digits))

@[simp] theorem cString_nil : cString [] = [] := rfl

theorem cString_of_not_mem {l : List UInt8} (h : (0 : UInt8) ∉ l) : cString l = l := by
  rw [cString, List.takeWhile_eq_self_iff]
  intro c hc
  have : c ≠ 0 := fun h0 => h (h0 ▸ hc)
  simpa using this

theorem not_mem_cString (l : List UInt8) : (0 : UInt8) ∉ cString l := by
  intro h
  have := List.mem_takeWhile_imp h
  simp at this

/-- A byte that does not occur in the text ends the comparison. -/
theorem startsWithIgnoreCase_stop {name : List UInt8} {c : UInt8}
    (hname : ∀ t ∈ name, toLower t ≠ toLower c) (l r : List UInt8) :
    startsWithIgnoreCase name (l ++ c :: r) = startsWithIgnoreCase name l := by
  induction name generalizing l with
  | nil => rfl
  | cons t ts ih =>
      cases l with
      | nil => simp [startsWithIgnoreCase, hname t (by simp)]
      | cons d l =>
          rw [List.cons_append, startsWithIgnoreCase, startsWithIgnoreCase,
            ih (fun u hu => hname u (by simp [hu]))]

theorem startsWithIgnoreCase_length {name l : List UInt8}
    (h : startsWithIgnoreCase name l = true) : name.length ≤ l.length := by
  induction name generalizing l with
  | nil => exact Nat.zero_le _
  | cons t ts ih =>
      cases l with
      | nil => simp [startsWithIgnoreCase] at h
      | cons c cs =>
          rw [startsWithIgnoreCase, Bool.and_eq_true] at h
          simpa using ih h.2

/-- Only the bytes of the text's own length are compared. -/
theorem startsWithIgnoreCase_take {name l : List UInt8} (h : startsWithIgnoreCase name l = true)
    (r : List UInt8) : startsWithIgnoreCase name (l.take name.length ++ r) = true := by
  induction name generalizing l with
  | nil => rfl
  | cons t ts ih =>
      cases l with
      | nil => simp [startsWithIgnoreCase] at h
      | cons c cs =>
          rw [startsWithIgnoreCase, Bool.and_eq_true] at h
          rw [List.length_cons, List.take_succ_cons, List.cons_append, startsWithIgnoreCase,
            Bool.and_eq_true]
          exact ⟨h.1, ih h.2⟩

theorem startsWithIgnoreCase_iff (name line : List UInt8) :
    startsWithIgnoreCase name line = true ↔ name.map toLower <+: line.map toLower := by
  induction name generalizing line with
  | nil => simp [startsWithIgnoreCase]
  | cons t ts ih =>
      cases line with
      | nil => simp [startsWithIgnoreCase]
      | cons c cs =>
          simp only [startsWithIgnoreCase, Bool.and_eq_true, beq_iff_eq, List.map_cons,
            List.cons_prefix_cons, ih]

/-- Two names neither of which starts the other do not start the same line. -/
theorem startsWithIgnoreCase_disjoint {a b line : List UInt8}
    (h1 : ¬ (a.map toLower <+: b.map toLower)) (h2 : ¬ (b.map toLower <+: a.map toLower))
    (ha : startsWithIgnoreCase a line = true) : startsWithIgnoreCase b line = false := by
  rw [Bool.eq_false_iff]
  intro hb
  rw [startsWithIgnoreCase_iff] at ha hb
  rcases List.prefix_or_prefix_of_prefix ha hb with h | h
  · exact h1 h
  · exact h2 h

theorem startsWithIgnoreCase_append {name line : List UInt8} (rest : List UInt8)
    (h : startsWithIgnoreCase name line = true) :
    startsWithIgnoreCase name (line ++ rest) = true := by
  rw [startsWithIgnoreCase_iff] at h ⊢
  rw [List.map_append]
  exact h.trans (List.prefix_append _ _)

end ByteString
