import Mathlib.Data.List.Forall2

set_option autoImplicit false

/-! # The check of text messages

`is_utf8` (`third_party/src/is_utf8/is_utf8.c`) walks through Table 3-7 of the Unicode
standard, which its comment quotes: the table says which bytes make up a character. The
position of the first bad byte is returned, and `0` for a text without one. `WellFormed` is
the table read as a grammar.

The comment promises positions that start from one, but a character that is cut off, and a byte
that starts no character, are reported with their index: at the beginning of a text that is
`0`, and the text passes (`isUtf8_eq_zero_iff`).
-/

namespace CWebUI.Websocket

/-- A range of bytes. -/
abbrev ByteRange := UInt8 × UInt8

/-- The byte lies in the range. -/
def inRange (c : UInt8) (r : ByteRange) : Bool := r.1 ≤ c && c ≤ r.2

/-- Table 3-7: the range of the first byte of a character, and the ranges of the others. -/
def utf8Table : List (ByteRange × List ByteRange) :=
  [((0x00, 0x7F), []),
    ((0xC2, 0xDF), [(0x80, 0xBF)]),
    ((0xE0, 0xE0), [(0xA0, 0xBF), (0x80, 0xBF)]),
    ((0xE1, 0xEC), [(0x80, 0xBF), (0x80, 0xBF)]),
    ((0xED, 0xED), [(0x80, 0x9F), (0x80, 0xBF)]),
    ((0xEE, 0xEF), [(0x80, 0xBF), (0x80, 0xBF)]),
    ((0xF0, 0xF0), [(0x90, 0xBF), (0x80, 0xBF), (0x80, 0xBF)]),
    ((0xF1, 0xF3), [(0x80, 0xBF), (0x80, 0xBF), (0x80, 0xBF)]),
    ((0xF4, 0xF4), [(0x80, 0x8F), (0x80, 0xBF), (0x80, 0xBF)])]

/-- The row of the table that a first byte selects. -/
def rowOf (c : UInt8) : Option (ByteRange × List ByteRange) :=
  utf8Table.find? (fun row => inRange c row.1)

/-! ## The code -/

/-- The index, counted from `j`, of the first byte that is not in its range. -/
def badByte : Nat → List ByteRange → List UInt8 → Option Nat
  | j, r :: rs, c :: cs => if inRange c r then badByte (j + 1) rs cs else some j
  | _, _, _ => none

/-- The loop of `is_utf8` at index `i`. The branches of the source are the rows of the table. -/
def isUtf8Loop : Nat → Nat → List UInt8 → Nat
  | fuel + 1, i, c :: cs =>
      match rowOf c with
      | none => i
      | some row =>
          if row.2.length ≤ cs.length then
            match badByte 1 row.2 cs with
            | some j => i + j
            | none => isUtf8Loop fuel (i + 1 + row.2.length) (cs.drop row.2.length)
          else i
  | _, _, _ => 0

/-- `is_utf8`. -/
def isUtf8 (text : List UInt8) : Nat := isUtf8Loop text.length 0 text

/-! ## The grammar -/

/-- A text is a sequence of characters of the table. -/
inductive WellFormed : List UInt8 → Prop
  | nil : WellFormed []
  | char {ch text : List UInt8} {row : ByteRange × List ByteRange} (hrow : row ∈ utf8Table)
      (hch : List.Forall₂ (fun c r => inRange c r = true) ch (row.1 :: row.2))
      (h : WellFormed text) : WellFormed (ch ++ text)

/-- The first byte of the text starts no character, or its character is cut off. -/
def startsBadly : List UInt8 → Bool
  | [] => false
  | c :: cs =>
      match rowOf c with
      | none => true
      | some row => cs.length < row.2.length

/-- The ranges of first bytes do not overlap, so the first byte tells the row. -/
theorem rowOf_eq {row : ByteRange × List ByteRange} (hrow : row ∈ utf8Table) {c : UInt8}
    (hc : inRange c row.1 = true) : rowOf c = some row := by
  have hall : ∀ row ∈ utf8Table, ∀ n : Fin 256, inRange (UInt8.ofNat n) row.1 = true →
      rowOf (UInt8.ofNat n) = some row := by decide +kernel
  have h := hall row hrow ⟨c.toNat, c.toNat_lt⟩
  rw [UInt8.ofNat_toNat] at h
  exact h hc

theorem rowOf_some {c : UInt8} {row : ByteRange × List ByteRange} (h : rowOf c = some row) :
    row ∈ utf8Table ∧ inRange c row.1 = true := by
  have hc := @List.find?_some _ (fun row : ByteRange × List ByteRange => inRange c row.1) row
    utf8Table h
  exact ⟨List.mem_of_find?_eq_some h, hc⟩

theorem badByte_eq_none_iff (rs : List ByteRange) (cs : List UInt8) (j : Nat)
    (hlen : rs.length ≤ cs.length) :
    badByte j rs cs = none ↔
      List.Forall₂ (fun c r => inRange c r = true) (cs.take rs.length) rs := by
  induction rs generalizing cs j with
  | nil => simp [badByte]
  | cons r rs ih =>
      cases cs with
      | nil => simp at hlen
      | cons c cs =>
          rw [badByte, List.length_cons, List.take_succ_cons, List.forall₂_cons]
          by_cases hc : inRange c r = true
          · rw [if_pos hc, ih cs (j + 1) (by simpa using hlen)]
            simp [hc]
          · rw [if_neg hc]
            simp [hc]

theorem badByte_pos (rs : List ByteRange) (cs : List UInt8) {j k : Nat}
    (h : badByte j rs cs = some k) : j ≤ k := by
  induction rs generalizing cs j with
  | nil => simp [badByte] at h
  | cons r rs ih =>
      cases cs with
      | nil => simp [badByte] at h
      | cons c cs =>
          rw [badByte] at h
          split_ifs at h
          · have := ih cs h
            omega
          · have : j = k := by simpa using h
            omega

/-- The first character of a well-formed text. -/
theorem wellFormed_cons_iff (c : UInt8) (cs : List UInt8) :
    WellFormed (c :: cs) ↔ ∃ row, rowOf c = some row ∧ row.2.length ≤ cs.length ∧
      badByte 1 row.2 cs = none ∧ WellFormed (cs.drop row.2.length) := by
  constructor
  · intro h
    generalize htext : c :: cs = text at h
    cases h with
    | nil => cases htext
    | @char ch text row hrow hch h =>
        cases hch with
        | @cons c' _ ch _ hc hrest =>
            rw [List.cons_append] at htext
            obtain ⟨rfl, rfl⟩ := List.cons_eq_cons.mp htext
            have hlen := hrest.length_eq
            have hle : row.2.length ≤ (ch ++ text).length := by
              rw [List.length_append]
              omega
            refine ⟨row, rowOf_eq hrow hc, hle, ?_, ?_⟩
            · rw [badByte_eq_none_iff _ _ _ hle, ← hlen, List.take_left]
              exact hrest
            · rw [← hlen, List.drop_left]
              exact h
  · rintro ⟨row, hfound, hlen, hgood, h⟩
    obtain ⟨hrow, hc⟩ := rowOf_some hfound
    rw [badByte_eq_none_iff _ _ _ hlen] at hgood
    have hchar := WellFormed.char hrow (List.Forall₂.cons hc hgood) h
    rwa [List.cons_append, List.take_append_drop] at hchar

/-- Behind the first byte the loop returns `0` for well-formed texts only. -/
theorem isUtf8Loop_eq_zero_iff (fuel i : Nat) (text : List UInt8) (hfuel : text.length ≤ fuel)
    (hi : 0 < i) : isUtf8Loop fuel i text = 0 ↔ WellFormed text := by
  induction fuel generalizing i text with
  | zero =>
      have hnil : text = [] := List.eq_nil_of_length_eq_zero (by omega)
      rw [hnil]
      exact ⟨fun _ => .nil, fun _ => rfl⟩
  | succ fuel ih =>
      cases text with
      | nil => exact ⟨fun _ => .nil, fun _ => rfl⟩
      | cons c cs =>
          rw [List.length_cons] at hfuel
          rw [wellFormed_cons_iff, isUtf8Loop]
          cases hrow : rowOf c with
          | none =>
              simp only [reduceCtorEq, false_and, exists_false, iff_false]
              omega
          | some row =>
              simp only [Option.some.injEq, exists_eq_left']
              by_cases hlen : row.2.length ≤ cs.length
              · rw [if_pos hlen]
                cases hbad : badByte 1 row.2 cs with
                | some j =>
                    have := badByte_pos _ _ hbad
                    simp only [reduceCtorEq, false_and, and_false, iff_false]
                    omega
                | none =>
                    simp only [hlen, true_and]
                    refine ih _ _ ?_ (by omega)
                    rw [List.length_drop]
                    omega
              · rw [if_neg hlen]
                simp only [hlen, false_and, iff_false]
                omega

/-- **What passes the check**: well-formed text, and text whose first character is cut off or
none at all. -/
theorem isUtf8_eq_zero_iff (text : List UInt8) :
    isUtf8 text = 0 ↔ WellFormed text ∨ startsBadly text = true := by
  cases text with
  | nil => exact ⟨fun _ => .inl .nil, fun _ => rfl⟩
  | cons c cs =>
      rw [isUtf8, List.length_cons, isUtf8Loop, wellFormed_cons_iff, startsBadly]
      cases hrow : rowOf c with
      | none => simp
      | some row =>
          simp only [Option.some.injEq, exists_eq_left', decide_eq_true_eq]
          by_cases hlen : row.2.length ≤ cs.length
          · rw [if_pos hlen]
            have hnot : ¬ cs.length < row.2.length := by omega
            cases hbad : badByte 1 row.2 cs with
            | some j =>
                have := badByte_pos _ _ hbad
                simp only [reduceCtorEq, false_and, and_false, hnot, or_false, iff_false]
                omega
            | none =>
                simp only [hlen, hnot, true_and, or_false]
                refine isUtf8Loop_eq_zero_iff _ _ _ ?_ (by omega)
                rw [List.length_drop]
                omega
          · rw [if_neg hlen]
            have : cs.length < row.2.length := by omega
            simp [this]

end CWebUI.Websocket
