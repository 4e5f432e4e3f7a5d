import Mathlib.Algebra.Group.Int.Defs
import Mathlib.Algebra.GroupWithZero.Nat
import Mathlib.Data.List.Basic

set_option autoImplicit false

/-! # Bytes and byte strings

The vocabulary the development is written in: a byte is a `UInt8`, a byte string is a
`List UInt8`, and the handful of characters that line-oriented protocols are built from
get names. `ascii` turns a Lean string literal into bytes, so that the literals of a
program can be quoted as they stand.
-/

namespace ByteString

/-- Carriage return. -/
def cr : UInt8 := 13

/-- Line feed. -/
def lf : UInt8 := 10

/-- The end of a line. -/
def crlf : List UInt8 := [cr, lf]

/-- The bytes of a string literal whose characters are all below 256. -/
def ascii (s : String) : List UInt8 := s.toList.map (fun c => UInt8.ofNat c.toNat)

/-- The byte is a decimal digit, as `isdigit` decides it. -/
def isDigit (c : UInt8) : Bool := 48 ≤ c && c ≤ 57

/-- The byte is a hexadecimal digit of either case. -/
def isHexDigit (c : UInt8) : Bool :=
  isDigit c || (97 ≤ c && c ≤ 102) || (65 ≤ c && c ≤ 70)

/-- The value of a hexadecimal digit. -/
def hexDigitValue (c : UInt8) : Nat :=
  if c ≤ 57 then c.toNat - 48 else if c ≤ 70 then c.toNat - 55 else c.toNat - 87

/-- The number a string of hexadecimal digits denotes, most significant digit first,
with `n` the number denoted by the digits already read. -/
def hexValueFrom (n : Nat) (ds : List UInt8) : Nat :=
  ds.foldl (fun m c => 16 * m + hexDigitValue c) n

/-- The number a string of hexadecimal digits denotes. -/
def hexValue (ds : List UInt8) : Nat := hexValueFrom 0 ds

/-- The byte string is free of carriage returns and line feeds. -/
def NoLineBreak (l : List UInt8) : Prop := cr ∉ l ∧ lf ∉ l

/-- A statement about every byte is a statement about the numbers below 256, which a
decision procedure can run through. -/
theorem forall_byte {P : UInt8 → Prop} (h : ∀ n : Fin 256, P (UInt8.ofNat n)) (c : UInt8) :
    P c := by
  have hc := h ⟨c.toNat, c.toNat_lt⟩
  rwa [UInt8.ofNat_toNat] at hc

@[simp] theorem hexValueFrom_nil (n : Nat) : hexValueFrom n [] = n := rfl

@[simp] theorem hexValueFrom_cons (n : Nat) (c : UInt8) (ds : List UInt8) :
    hexValueFrom n (c :: ds) = hexValueFrom (16 * n + hexDigitValue c) ds := rfl

/-- Further digits never make the number smaller. -/
theorem le_hexValueFrom (n : Nat) (ds : List UInt8) : n ≤ hexValueFrom n ds := by
  induction ds generalizing n with
  | nil => exact Nat.le_refl n
  | cons c ds ih =>
      rw [hexValueFrom_cons]
      exact Nat.le_trans (by omega) (ih _)

theorem noLineBreak_cons {c : UInt8} {l : List UInt8} :
    NoLineBreak (c :: l) ↔ c ≠ cr ∧ c ≠ lf ∧ NoLineBreak l := by
  simp only [NoLineBreak, List.mem_cons, not_or]
  constructor
  · rintro ⟨⟨h1, h2⟩, h3, h4⟩
    exact ⟨fun h => h1 h.symm, fun h => h3 h.symm, h2, h4⟩
  · rintro ⟨h1, h2, h3, h4⟩
    exact ⟨⟨fun h => h1 h.symm, h3⟩, fun h => h2 h.symm, h4⟩

theorem noLineBreak_nil : NoLineBreak [] := ⟨by simp, by simp⟩

end ByteString
