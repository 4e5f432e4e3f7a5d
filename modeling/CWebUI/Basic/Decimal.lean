import CWebUI.Basic.CString

set_option autoImplicit false

/-! # Printed numbers

What `%d` prints for a number that is not negative: its decimal digits. Reading them gives the
number back (`decValue_decimal`).
-/

namespace ByteString

/-- `printf("%d", n)` -/
def decimal (n : Nat) : List UInt8 := ascii (toString n)

theorem decimal_eq (n : Nat) :
    decimal n = (Nat.toDigits 10 n).map fun c => UInt8.ofNat c.toNat := by
  rw [decimal, ascii, Nat.toString_eq_repr, Nat.toList_repr]

/-- The code of a digit. -/
theorem digit_toNat {c : Char} (h : c.isDigit = true) : 48 ≤ c.toNat ∧ c.toNat ≤ 57 := by
  rw [Char.isDigit, Bool.and_eq_true, decide_eq_true_eq, decide_eq_true_eq] at h
  exact ⟨UInt32.le_iff_toNat_le.mp h.1, UInt32.le_iff_toNat_le.mp h.2⟩

theorem mem_digits {n : Nat} {c : Char} (h : c ∈ Nat.toDigits 10 n) :
    48 ≤ c.toNat ∧ c.toNat ≤ 57 :=
  digit_toNat (Nat.isDigit_of_mem_toDigits (by decide) (by decide) h)

theorem decimal_ne_nil (n : Nat) : decimal n ≠ [] := by
  rw [decimal_eq]
  simp

theorem isDigit_decimal {n : Nat} {d : UInt8} (h : d ∈ decimal n) : isDigit d = true := by
  rw [decimal_eq] at h
  obtain ⟨c, hc, rfl⟩ := List.mem_map.mp h
  obtain ⟨hlow, hhigh⟩ := mem_digits hc
  have htoNat : (UInt8.ofNat c.toNat).toNat = c.toNat := by
    rw [UInt8.toNat_ofNat']
    omega
  rw [isDigit, Bool.and_eq_true, decide_eq_true_eq, decide_eq_true_eq, UInt8.le_iff_toNat_le,
    UInt8.le_iff_toNat_le, htoNat]
  exact ⟨hlow, hhigh⟩

theorem decValueFrom_map (init : Nat) {cs : List Char}
    (h : ∀ c ∈ cs, 48 ≤ c.toNat ∧ c.toNat ≤ 57) :
    decValueFrom init (cs.map fun c => UInt8.ofNat c.toNat) = Nat.ofDigitChars 10 cs init := by
  induction cs generalizing init with
  | nil => rfl
  | cons c cs ih =>
      obtain ⟨hlow, hhigh⟩ := h c List.mem_cons_self
      have htoNat : (UInt8.ofNat c.toNat).toNat = c.toNat := by
        rw [UInt8.toNat_ofNat']
        omega
      have hstep := ih (10 * init + (c.toNat - 48)) fun c hc => h c (List.mem_cons_of_mem _ hc)
      rw [List.map_cons, decValueFrom, List.foldl_cons, htoNat]
      exact hstep

/-- **Printed numbers are read back.** -/
theorem decValue_decimal (n : Nat) : decValue (decimal n) = n := by
  rw [decimal_eq, decValue, decValueFrom_map 0 fun c hc => mem_digits hc]
  exact Nat.ofDigitChars_ten_toDigits

end ByteString
