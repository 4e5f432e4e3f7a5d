import Mathlib.Algebra.BigOperators.Group.Finset.Basic
import Mathlib.Algebra.Field.ZMod
import Mathlib.Algebra.Polynomial.Div
import Mathlib.Algebra.Polynomial.Monic
import Mathlib.Data.ZMod.Basic

set_option autoImplicit false

/-! # Cyclic redundancy checks and running sums

A cyclic redundancy check is a remainder. The bits of a message are the coefficients of a
polynomial over the field with two elements, the highest power first. Behind the bits of a start
value it is multiplied by `X ^ w` and divided by a generator of degree `w`; the check is the
remainder.

A shift register computes it bit by bit. The register is kept in reverse, its lowest bit being the
coefficient of the highest power, so that it is shifted to the right (`shiftIn`). It is for a
register of any width and any generator.

The second check is that of running sums: one sum adds up the bytes, and the other all values that
the first one takes.
-/

namespace Checksum

open Polynomial

/-! ## Registers and polynomials -/

/-- A coefficient. -/
def bit (b : Bool) : ZMod 2 := if b then 1 else 0

theorem bit_xor (a b : Bool) : bit (a ^^ b) = bit a + bit b := by
  revert a b
  decide

theorem bit_add_of_ne {a b : Bool} (h : a ≠ b) : bit a + bit b = 1 := by
  revert a b
  decide

theorem bit_add_self (b : Bool) : bit b + bit b = 0 := by
  rw [← bit_xor, Bool.xor_self]
  rfl

theorem bit_eq_zero (b : Bool) : bit b = 0 ↔ b = false := by
  revert b
  decide

variable {w : Nat}

/-- The polynomial of a register: its lowest bit is the coefficient of the highest power. -/
noncomputable def poly (r : BitVec w) : (ZMod 2)[X] :=
  ∑ k ∈ Finset.range w, C (bit (r.getMsbD k)) * X ^ k

/-- The generator: its highest power is not kept. -/
noncomputable def generator (g : BitVec w) : (ZMod 2)[X] := X ^ w + poly g

/-- The polynomial of a message, with the first bit at the highest power. -/
noncomputable def message : List Bool → (ZMod 2)[X]
  | [] => 0
  | b :: bits => C (bit b) * X ^ bits.length + message bits

/-- One bit of a message goes into the register. -/
def shiftIn (g r : BitVec w) (b : Bool) : BitVec w :=
  if r.getLsbD 0 ≠ b then (r >>> 1) ^^^ g else r >>> 1

/-- The register with the bits `f 0`, `f 1` and so on, from the lowest one. -/
def ofBits (f : Nat → Bool) : (w : Nat) → BitVec w
  | 0 => 0#0
  | w + 1 => BitVec.cons (f w) (ofBits f w)

/-- The check of a message by the generator `P`: all ones are the start value, and the bits of the
remainder are inverted. -/
noncomputable def reflectedCrc (P : (ZMod 2)[X]) (w : Nat) (bits : List Bool) : BitVec w :=
  let start := ∑ k ∈ Finset.range w, X ^ k
  let remainder := (start * X ^ bits.length + message bits * X ^ w) %ₘ P
  ofBits (fun j => remainder.coeff (w - 1 - j) = 0) w

theorem getLsbD_ofBits (f : Nat → Bool) {j : Nat} (hj : j < w) : (ofBits f w).getLsbD j = f j := by
  induction w with
  | zero => omega
  | succ w ih =>
      rw [ofBits, BitVec.getLsbD_cons]
      by_cases hlast : j = w
      · rw [if_pos hlast, hlast]
      · rw [if_neg hlast]
        exact ih (by omega)

theorem coeff_poly (r : BitVec w) (k : Nat) : (poly r).coeff k = bit (r.getMsbD k) := by
  rw [poly, finsetSum_coeff]
  simp only [coeff_C_mul, coeff_X_pow, mul_ite, mul_one, mul_zero]
  rw [Finset.sum_ite_eq]
  by_cases hk : k ∈ Finset.range w
  · rw [if_pos hk]
  · rw [Finset.mem_range] at hk
    rw [if_neg (by simpa using hk), BitVec.getMsbD_of_ge r k (Nat.not_lt.mp hk)]
    rfl

theorem poly_xor (a b : BitVec w) : poly (a ^^^ b) = poly a + poly b := by
  ext k
  rw [coeff_add, coeff_poly, coeff_poly, coeff_poly, BitVec.getMsbD_xor, bit_xor]

theorem poly_allOnes (w : Nat) : poly (BitVec.allOnes w) = ∑ k ∈ Finset.range w, X ^ k := by
  apply Finset.sum_congr rfl
  intro k hk
  have hbit : (BitVec.allOnes w).getMsbD k = true := by
    rw [Finset.mem_range] at hk
    simp [BitVec.getMsbD_eq_getLsbD, hk]
    omega
  rw [hbit]
  exact one_mul _

theorem degree_poly_lt (r : BitVec w) : (poly r).degree < w := by
  rw [degree_lt_iff_coeff_zero]
  intro k hk
  rw [coeff_poly, BitVec.getMsbD_of_ge r k hk]
  rfl

theorem generator_monic (g : BitVec w) : (generator g).Monic := monic_X_pow_add (degree_poly_lt g)

theorem degree_generator (g : BitVec w) : (generator g).degree = w := by
  rw [generator, degree_add_eq_left_of_degree_lt, degree_X_pow]
  rw [degree_X_pow]
  exact degree_poly_lt g

/-! ## Shifting -/

/-- A shift multiplies by `X`. The bit that falls out stands for `X ^ w`. -/
theorem X_mul_poly (r : BitVec w) :
    X * poly r = poly (r >>> 1) + C (bit (r.getLsbD 0)) * X ^ w := by
  ext k
  rw [coeff_add, coeff_C_mul, coeff_X_pow, coeff_poly, BitVec.getMsbD_ushiftRight]
  cases k with
  | zero =>
      rw [coeff_X_mul_zero]
      cases w with
      | zero => simp [bit]
      | succ w => simp [bit]
  | succ k =>
      rw [coeff_X_mul, coeff_poly]
      by_cases hk : k + 1 < w
      · simp [hk, Nat.ne_of_lt hk]
      · by_cases hw : k + 1 = w
        · subst hw
          simp [BitVec.getMsbD_eq_getLsbD]
          rfl
        · rw [BitVec.getMsbD_of_ge r k (by omega)]
          simp [hk, hw, bit]

/-- A bit that goes in stands for `X ^ w` too: the register is the remainder again. -/
theorem poly_shiftIn (g r : BitVec w) (b : Bool) :
    poly (shiftIn g r b) + generator g * C (bit (r.getLsbD 0 ^^ b)) =
      X * poly r + C (bit b) * X ^ w := by
  rw [X_mul_poly, bit_xor, shiftIn]
  by_cases hb : r.getLsbD 0 = b
  · rw [if_neg (not_not.mpr hb), hb, bit_add_self, C_0, mul_zero, add_zero, add_assoc, ← add_mul,
      ← C_add, bit_add_self, C_0, zero_mul, add_zero]
  · -- the generator is added twice, once as `g` and once with its highest power
    have hone := bit_add_of_ne hb
    have htwo : poly g + poly g = 0 := by
      rw [← poly_xor, BitVec.xor_self]
      ext k
      rw [coeff_poly]
      simp [bit]
    rw [if_pos hb, poly_xor, hone, C_1, mul_one, generator]
    calc poly (r >>> 1) + poly g + (X ^ w + poly g)
        = poly (r >>> 1) + X ^ w + (poly g + poly g) := by ring
      _ = poly (r >>> 1) + C (bit (r.getLsbD 0) + bit b) * X ^ w := by
        rw [htwo, hone, C_1, one_mul, add_zero]
      _ = poly (r >>> 1) + C (bit (r.getLsbD 0)) * X ^ w + C (bit b) * X ^ w := by
        rw [C_add, add_mul, add_assoc]

theorem message_snoc (bits : List Bool) (b : Bool) :
    message (bits ++ [b]) = X * message bits + C (bit b) := by
  induction bits with
  | nil => simp [message]
  | cons a bits ih =>
      rw [List.cons_append, message, message, ih, List.length_append, List.length_singleton,
        pow_succ]
      ring

/-- **The register holds the remainder** of what has gone in. -/
theorem poly_foldl_shiftIn (g r : BitVec w) (bits : List Bool) :
    poly (bits.foldl (shiftIn g) r) =
      (poly r * X ^ bits.length + message bits * X ^ w) %ₘ generator g := by
  induction bits using List.reverseRecOn with
  | nil =>
      have hself : poly r %ₘ generator g = poly r := by
        rw [modByMonic_eq_self_iff (generator_monic g), degree_generator]
        exact degree_poly_lt r
      rw [List.foldl_nil, List.length_nil, message, pow_zero, mul_one, zero_mul, add_zero, hself]
  | append_singleton bits b ih =>
      -- the quotient takes up the bit that falls out, and the register stays below the generator
      set A := poly r * X ^ bits.length + message bits * X ^ w with hA
      set R := bits.foldl (shiftIn g) r with hR
      have hsplit : poly R + generator g * (A /ₘ generator g) = A := by
        rw [ih]
        exact modByMonic_add_div A (generator g)
      have hnext : poly r * X ^ (bits ++ [b]).length + message (bits ++ [b]) * X ^ w =
          X * A + C (bit b) * X ^ w := by
        rw [message_snoc, List.length_append, List.length_singleton, pow_succ, hA]
        ring
      have hstep := poly_shiftIn g R b
      rw [List.foldl_append, List.foldl_cons, List.foldl_nil, ← hR, hnext]
      refine (div_modByMonic_unique
        (C (bit (R.getLsbD 0 ^^ b)) + X * (A /ₘ generator g)) _ (generator_monic g)
        ⟨?_, ?_⟩).2.symm
      · calc poly (shiftIn g R b) +
              generator g * (C (bit (R.getLsbD 0 ^^ b)) + X * (A /ₘ generator g))
            = (poly (shiftIn g R b) + generator g * C (bit (R.getLsbD 0 ^^ b))) +
                X * (generator g * (A /ₘ generator g)) := by ring
          _ = X * (poly R + generator g * (A /ₘ generator g)) + C (bit b) * X ^ w := by
            rw [hstep]
            ring
          _ = X * A + C (bit b) * X ^ w := by rw [hsplit]
      · rw [degree_generator]
        exact degree_poly_lt _

/-- **The shift register computes the check.** -/
theorem not_foldl_shiftIn (g : BitVec w) (bits : List Bool) :
    ~~~(bits.foldl (shiftIn g) (BitVec.allOnes w)) = reflectedCrc (generator g) w bits := by
  apply BitVec.eq_of_getLsbD_eq
  intro j hj
  rw [reflectedCrc, ← poly_allOnes, getLsbD_ofBits _ hj, ← poly_foldl_shiftIn, coeff_poly,
    BitVec.getLsbD_not, BitVec.getMsbD_eq_getLsbD, show w - 1 - (w - 1 - j) = j by omega]
  simp only [hj, show w - 1 - j < w by omega, decide_true, Bool.true_and, bit_eq_zero]
  cases (bits.foldl (shiftIn g) (BitVec.allOnes w)).getLsbD j <;> rfl

/-! ## Running sums -/

/-- The first sum: one, and all the numbers. -/
def firstSum (data : List Nat) : Nat := 1 + data.sum

/-- The second sum: all values of the first one. -/
def secondSum (data : List Nat) : Nat :=
  ∑ k ∈ Finset.range data.length, firstSum (data.take (k + 1))

theorem firstSum_snoc (data : List Nat) (d : Nat) :
    firstSum (data ++ [d]) = firstSum data + d := by
  rw [firstSum, firstSum, List.sum_append, List.sum_singleton, Nat.add_assoc]

theorem secondSum_snoc (data : List Nat) (d : Nat) :
    secondSum (data ++ [d]) = secondSum data + firstSum (data ++ [d]) := by
  have hlen : (data ++ [d]).length = data.length + 1 := by simp
  rw [secondSum, hlen, Finset.sum_range_succ, List.take_of_length_le (by omega), secondSum]
  congr 1
  apply Finset.sum_congr rfl
  intro k hk
  rw [List.take_append_of_le_length (Finset.mem_range.mp hk)]

/-- A step of the sums by a modulus. -/
def addSums (m : Nat) (s : Nat × Nat) (d : Nat) : Nat × Nat :=
  ((s.1 + d) % m, (s.2 + (s.1 + d) % m) % m)

/-- **The sums can be kept by a modulus** from one number to the next. -/
theorem addSums_sums (m : Nat) (data : List Nat) (d : Nat) :
    addSums m (firstSum data % m, secondSum data % m) d =
      (firstSum (data ++ [d]) % m, secondSum (data ++ [d]) % m) := by
  rw [secondSum_snoc, firstSum_snoc, addSums]
  simp only [Nat.mod_add_mod, Nat.add_mod_mod]

end Checksum
