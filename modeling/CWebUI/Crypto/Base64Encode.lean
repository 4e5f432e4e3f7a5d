import CWebUI.Basic.Base64
import CWebUI.Basic.Blocks
import CWebUI.Basic.CString
import CWebUI.Basic.Checked

set_option autoImplicit false

/-! # Base64 in a buffer

`base64_encode` and `WebserverBase64Encode` (`base64.c`). The digits are written into a buffer one
by one, with zeros for the bytes that the last group does not have; then the last ones are replaced.
An access outside of a buffer and a sum that does not fit into an `int` end a run.
-/

namespace CWebUI.Crypto

open Base64 ByteString ListLemmas

/-! ## The code -/

/-- What ends a run. -/
inductive Base64Fault where
  | overflow
  | src (position : Nat)
  | dest (position : Nat)
  | endless
  deriving DecidableEq, Repr

/-- The largest `int`. -/
def intMax : Nat := 2147483647

/-- `base64_encsize` -/
def base64Encsize (size : Nat) : Except Base64Fault Nat :=
  Checked.fit intMax .overflow (max (size + 2) (4 * ((size + 2) / 3))) (4 * ((size + 2) / 3))

/-- The table `encoder`, with its terminator. -/
def encoder : List UInt8 :=
  ascii "ABCDEFGHIJKLMNOPQRSTUVWXYZabcdefghijklmnopqrstuvwxyz0123456789+/" ++ [0]

/-- `encoder[(triple >> shift) & 0x3F]` -/
def encoderAt (triple : BitVec 32) (shift : Nat) : UInt8 :=
  encoder.getD ((triple >>> shift) &&& 0x3F).toNat 0

/-- `src[i++]`, or zero behind the end. -/
def base64Next (src : List UInt8) (slen i : Nat) : Except Base64Fault (UInt8 × Nat) :=
  if i < slen then do
    let c ← Checked.get .src src i
    return (c, i + 1)
  else return (0, i)

/-- The loop of `base64_encode`, with a number of rounds: the buffer and `j` behind it. -/
def base64Loop (src : List UInt8) (slen : Nat) :
    Nat → List UInt8 → Nat → Nat → Except Base64Fault (List UInt8 × Nat)
  | 0, dest, i, j => if i < slen then .error .endless else .ok (dest, j)
  | rounds + 1, dest, i, j =>
      if i < slen then do
        let a ← Checked.get .src src i
        let b ← base64Next src slen (i + 1)
        let c ← base64Next src slen b.2
        let triple : BitVec 32 := (a.toBitVec.setWidth 32 <<< 16) + (b.1.toBitVec.setWidth 32 <<< 8)
          + c.1.toBitVec.setWidth 32
        let dest ← Checked.put .dest dest j (encoderAt triple 18)
        let dest ← Checked.put .dest dest (j + 1) (encoderAt triple 12)
        let dest ← Checked.put .dest dest (j + 2) (encoderAt triple 6)
        let dest ← Checked.put .dest dest (j + 3) (encoderAt triple 0)
        base64Loop src slen rounds dest c.2 (j + 4)
      else .ok (dest, j)

/-- The `switch` of `base64_encode`; the first case falls through to the second. -/
def base64Pad (slen : Nat) (dest : List UInt8) (j : Nat) : Except Base64Fault (List UInt8) :=
  if slen % 3 = 1 then do
    let dest ← Checked.put .dest dest (j - 2) 61
    Checked.put .dest dest (j - 1) 61
  else if slen % 3 = 2 then Checked.put .dest dest (j - 1) 61
  else .ok dest

/-- `base64_encode` for buffers that are there: the value, and the buffer behind it. -/
def base64Encode (dest : List UInt8) (size : Int) (src : List UInt8) (slen : Nat) :
    Except Base64Fault (Int × List UInt8) := do
  let dlen ← base64Encsize slen
  if (dlen : Int) + 1 > size then return (-1, dest)
  else if slen = 0 then
    if size > 0 then
      let dest ← Checked.put .dest dest 0 0
      return (0, dest)
    else return (-1, dest)
  else
    let loop ← base64Loop src slen slen dest 0 0
    let dest ← base64Pad slen loop.1 loop.2
    let dest ← Checked.put .dest dest loop.2 0
    return (dlen, dest)

/-- `WebserverBase64Encode`; the size of the buffer is turned into an `int`. -/
def webserverBase64Encode (input : List UInt8) (length : Nat) (output : List UInt8)
    (outLength : Nat) : Except Base64Fault (List UInt8) := do
  let output ←
    Checked.fit output.length (.dest output.length) outLength
      (memcpyAt output 0 (List.replicate outLength 0))
  let encoded ← base64Encode output (BitVec.ofNat 32 outLength).toInt input length
  return encoded.2

/-! ## The digits -/

theorem encoderAt_eq (triple : BitVec 32) (shift : Nat) :
    encoderAt triple shift = digit (triple.toNat / 2 ^ shift % 64) := by
  have hmask : ((triple >>> shift) &&& 0x3F).toNat = triple.toNat / 2 ^ shift % 64 := by
    rw [BitVec.toNat_and, BitVec.toNat_ushiftRight, Nat.shiftRight_eq_div_pow]
    exact Nat.and_two_pow_sub_one_eq_mod _ 6
  have hdigit : ∀ n < 64, encoder.getD n 0 = digit n := by decide +kernel
  rw [encoderAt, hmask, hdigit _ (Nat.mod_lt _ (by decide))]

/-- The three bytes as one number. -/
theorem triple_toNat (a b c : UInt8) :
    ((a.toBitVec.setWidth 32 <<< 16) + (b.toBitVec.setWidth 32 <<< 8)
        + c.toBitVec.setWidth 32 : BitVec 32).toNat
      = a.toNat * 65536 + b.toNat * 256 + c.toNat := by
  have ha : a.toBitVec.toNat < 256 := a.toNat_lt
  have hb : b.toBitVec.toNat < 256 := b.toNat_lt
  have hc : c.toBitVec.toNat < 256 := c.toNat_lt
  have hwide : ∀ d : UInt8, (d.toBitVec.setWidth 32).toNat = d.toBitVec.toNat := fun d =>
    BitVec.toNat_setWidth_of_le (by decide)
  rw [BitVec.toNat_add, BitVec.toNat_add, BitVec.toNat_shiftLeft, BitVec.toNat_shiftLeft, hwide,
    hwide, hwide, Nat.shiftLeft_eq, Nat.shiftLeft_eq]
  show ((_ * 65536 % 4294967296 + _ * 256 % 4294967296) % 4294967296 + _) % 4294967296
    = a.toBitVec.toNat * 65536 + b.toBitVec.toNat * 256 + c.toBitVec.toNat
  omega

/-- The four digits of a round. -/
theorem quad_eq (a b c : UInt8) :
    let triple : BitVec 32 := (a.toBitVec.setWidth 32 <<< 16) + (b.toBitVec.setWidth 32 <<< 8)
      + c.toBitVec.setWidth 32
    [encoderAt triple 18, encoderAt triple 12, encoderAt triple 6, encoderAt triple 0]
      = quad a b c := by
  intro triple
  rw [encoderAt_eq, encoderAt_eq, encoderAt_eq, encoderAt_eq, triple_toNat, Nat.pow_zero,
    Nat.div_one]
  rfl

/-! ## The loop -/

section Loop

variable {src dest content tail : List UInt8} {i j : Nat}

/-- A store of the next symbol fills the buffer further. -/
theorem filled_put {a : UInt8} {more : List UInt8} (h : Filled content tail j dest)
    (hnext : content.drop j = a :: more) :
    ∃ dest', Checked.put Base64Fault.dest dest j a = .ok dest' ∧
      Filled content tail (j + 1) dest' ∧ content.drop (j + 1) = more := by
  have hj : j < content.length := by
    have hlen := congrArg List.length hnext
    rw [List.length_drop, List.length_cons] at hlen
    omega
  have hroom := h.room
  refine ⟨memcpyAt dest j [a], ?_, ?_, ?_⟩
  · rw [Checked.put_eq (by omega), set_eq_memcpyAt (by omega)]
  · have hpiece : [a] <+: content.drop j := ⟨more, hnext.symm⟩
    exact h.memcpyAt hpiece (by omega)
  · rw [← List.drop_drop, hnext]
    rfl

/-- The stores of a round. -/
theorem filled_quad {triple : BitVec 32} {more : List UInt8} {β : Type}
    (next : List UInt8 → Except Base64Fault β) (h : Filled content tail j dest)
    (hnext : content.drop j
      = [encoderAt triple 18, encoderAt triple 12, encoderAt triple 6, encoderAt triple 0] ++ more) :
    ∃ dest', (do
        let dest ← Checked.put Base64Fault.dest dest j (encoderAt triple 18)
        let dest ← Checked.put .dest dest (j + 1) (encoderAt triple 12)
        let dest ← Checked.put .dest dest (j + 2) (encoderAt triple 6)
        let dest ← Checked.put .dest dest (j + 3) (encoderAt triple 0)
        next dest) = next dest' ∧
      Filled content tail (j + 4) dest' ∧ content.drop (j + 4) = more := by
  obtain ⟨d₁, hput₁, hd₁, hmore₁⟩ := filled_put h hnext
  obtain ⟨d₂, hput₂, hd₂, hmore₂⟩ := filled_put hd₁ hmore₁
  obtain ⟨d₃, hput₃, hd₃, hmore₃⟩ := filled_put hd₂ hmore₂
  obtain ⟨d₄, hput₄, hd₄, hmore₄⟩ := filled_put hd₃ hmore₃
  refine ⟨d₄, ?_, hd₄, hmore₄⟩
  rw [Checked.bind_ok hput₁, Checked.bind_ok hput₂, Checked.bind_ok hput₃, Checked.bind_ok hput₄]

/-- The next byte, if there is one. -/
theorem base64Next_eq (hi : i ≤ src.length) :
    ∃ i', base64Next src src.length i = .ok ((src.drop i).headD 0, i') ∧
      src.drop i' = (src.drop i).tail ∧ i ≤ i' ∧ i' ≤ src.length := by
  rw [base64Next]
  by_cases hlt : i < src.length
  · have hdrop := List.drop_eq_getElem_cons hlt
    refine ⟨i + 1, ?_, ?_, by omega, by omega⟩
    · rw [if_pos hlt, Checked.bind_ok (Checked.get_eq (List.getElem?_eq_getElem hlt)), hdrop]
      rfl
    · rw [hdrop, List.tail_cons]
  · refine ⟨i, ?_, ?_, by omega, hi⟩
    · rw [if_neg hlt, List.drop_of_length_le (by omega)]
      rfl
    · rw [List.drop_of_length_le (by omega)]
      rfl

/-- **The loop writes the groups.** -/
theorem base64Loop_eq {rounds : Nat} (h : Filled (quads src) tail j dest)
    (hj : j ≤ (quads src).length) (hnext : (quads src).drop j = quads (src.drop i))
    (hi : i ≤ src.length) (hrounds : src.length ≤ i + rounds) :
    ∃ dest', base64Loop src src.length rounds dest i j = .ok (dest', (quads src).length) ∧
      Filled (quads src) tail (quads src).length dest' := by
  have hdone : ∀ {i j : Nat}, ¬ i < src.length → j ≤ (quads src).length →
      (quads src).drop j = quads (src.drop i) → j = (quads src).length := by
    intro i j hlast hj hnext
    have hlen := congrArg List.length hnext
    rw [List.length_drop, List.drop_of_length_le (by omega)] at hlen
    have : (quads src).length - j = 0 := hlen
    omega
  induction rounds generalizing dest i j with
  | zero =>
      have hend := hdone (by omega) hj hnext
      rw [base64Loop, if_neg (by omega), hend]
      exact ⟨dest, rfl, hend ▸ h⟩
  | succ rounds ih =>
      rw [base64Loop]
      by_cases hlt : i < src.length
      · have hdrop := List.drop_eq_getElem_cons hlt
        obtain ⟨i₁, hnext₁, hdrop₁, hle₁, hi₁⟩ := @base64Next_eq src (i + 1) hlt
        obtain ⟨i₂, hnext₂, hdrop₂, hle₂, hi₂⟩ := base64Next_eq hi₁
        rw [hdrop, quads_step, ← hdrop₁, ← hdrop₂, ← quad_eq] at hnext
        have hroom : j + 4 ≤ (quads src).length := by
          have hlen := congrArg List.length hnext
          rw [List.length_drop, List.length_append] at hlen
          have : (quads src).length - j = 4 + _ := hlen
          omega
        obtain ⟨dest', hput, hdest', hmore⟩ := filled_quad
          (fun dest => base64Loop src src.length rounds dest i₂ (j + 4)) h hnext
        rw [if_pos hlt, Checked.bind_ok (Checked.get_eq (List.getElem?_eq_getElem hlt)),
          Checked.bind_ok hnext₁, Checked.bind_ok hnext₂]
        rw [hput]
        exact ih hdest' hroom hmore hi₂ (by omega)
      · have hend := hdone hlt hj hnext
        rw [if_neg hlt, hend]
        exact ⟨dest, rfl, hend ▸ h⟩

end Loop

/-! ## The text -/

section Encode

variable {src dest tail : List UInt8}

/-- The signs behind the digits. -/
theorem base64Pad_eq (src tail : List UInt8) :
    base64Pad src.length (quads src ++ tail) (quads src).length = .ok (encode src ++ tail) := by
  have hlen := length_quads src
  rw [base64Pad]
  by_cases hone : src.length % 3 = 1
  · have htwo : (quads src).length - 2 < (quads src).length := by omega
    have hlast : (quads src).length - 1 < (quads src).length := by omega
    rw [if_pos hone, Checked.bind_ok (Checked.put_eq (by rw [List.length_append]; omega)),
      Checked.put_eq (by rw [List.length_set, List.length_append]; omega),
      List.set_append_left _ _ htwo, List.set_append_left _ _ (by rw [List.length_set]; omega)]
    exact congrArg (fun text => Except.ok (text ++ tail)) (set_set_quads hone)
  · rw [if_neg hone]
    by_cases htwo : src.length % 3 = 2
    · rw [if_pos htwo, Checked.put_eq (by rw [List.length_append]; omega),
        List.set_append_left _ _ (by omega)]
      exact congrArg (fun text => Except.ok (text ++ tail)) (set_quads htwo)
    · rw [if_neg htwo, quads_eq_encode (by omega)]

/-- **A text that has room is written with its terminator**, and nothing behind it is changed. -/
theorem base64Encode_eq {size : Int} (hint : (encode src).length ≤ intMax)
    (hsize : size ≤ dest.length) :
    base64Encode dest size src src.length = .ok (
      if (encode src).length + 1 ≤ size then
        ((encode src).length, encode src ++ 0 :: dest.drop ((encode src).length + 1))
      else (-1, dest)) := by
  have hlen := length_encode src
  have hquads := length_quads src
  have hfit : base64Encsize src.length = .ok (encode src).length := by
    rw [base64Encsize, hlen]
    refine Checked.fit_eq ?_
    unfold intMax at hint ⊢
    omega
  rw [base64Encode, Checked.bind_ok hfit]
  by_cases hroom : ((encode src).length : Int) + 1 ≤ size
  · rw [if_neg (by omega), if_pos hroom]
    by_cases hempty : src.length = 0
    · rw [if_pos hempty, if_pos (by omega), List.length_eq_zero_iff.mp hempty,
        Checked.bind_ok (Checked.put_eq (by omega)), set_eq_memcpyAt (by omega)]
      rfl
    · have hfilled : Filled (quads src) (dest.drop (quads src).length) 0 dest :=
        ⟨rfl, rfl, by omega⟩
      obtain ⟨dest', hloop, hdest'⟩ := @base64Loop_eq _ _ _ 0 _ src.length hfilled
        (Nat.zero_le _) rfl (Nat.zero_le _) (by omega)
      have hlast : (quads src).length < dest.length := by omega
      have hdrop := List.drop_eq_getElem_cons hlast
      have hput : (encode src ++ dest.drop (quads src).length).length > (quads src).length := by
        rw [List.length_append, List.length_drop]
        omega
      rw [if_neg hempty, Checked.bind_ok hloop, hdest'.eq, Checked.bind_ok (base64Pad_eq src _),
        Checked.bind_ok (Checked.put_eq hput), List.set_append_right _ _ (by omega), hdrop,
        show (quads src).length - (encode src).length = 0 by omega, List.set_cons_zero,
        show (quads src).length + 1 = (encode src).length + 1 by omega]
      rfl
  · rw [if_pos (by omega), if_neg hroom]
    rfl

/-- The buffer behind `WebserverBase64Encode`: it holds the text, zeros up to its size, and what
was behind that. A text that has no room with a terminator is not written at all. -/
theorem webserverBase64Encode_eq (input : List UInt8) {output : List UInt8} {outLength : Nat}
    (hint : (encode input).length ≤ intMax) (hout : outLength ≤ output.length)
    (hsize : outLength ≤ intMax) :
    webserverBase64Encode input input.length output outLength = .ok (
        (if (encode input).length < outLength then
          encode input ++ List.replicate (outLength - (encode input).length) 0
        else List.replicate outLength 0) ++ output.drop outLength) := by
  have hcast : (BitVec.ofNat 32 outLength).toInt = outLength := by
    unfold intMax at hsize
    have hnat : (BitVec.ofNat 32 outLength).toNat = outLength := by
      rw [BitVec.toNat_ofNat]
      omega
    rw [BitVec.toInt_eq_toNat_of_lt (by omega), hnat]
  have hzeros : memcpyAt output 0 (List.replicate outLength 0)
      = List.replicate outLength 0 ++ output.drop outLength := by
    rw [memcpyAt, List.length_replicate, Nat.zero_add]
    rfl
  have hlen : (List.replicate outLength 0 ++ output.drop outLength).length = output.length := by
    rw [List.length_append, List.length_replicate, List.length_drop]
    omega
  rw [webserverBase64Encode, Checked.bind_ok (Checked.fit_eq hout), hzeros, hcast,
    Checked.bind_ok (base64Encode_eq hint (by rw [hlen]; omega))]
  by_cases hroom : (encode input).length < outLength
  · have hsplit : List.replicate (outLength - (encode input).length) (0 : UInt8)
        = 0 :: List.replicate (outLength - ((encode input).length + 1)) 0 := by
      rw [show outLength - (encode input).length = outLength - ((encode input).length + 1) + 1 by
        omega, List.replicate_succ]
    rw [if_pos (by omega), if_pos hroom, hsplit,
      List.drop_append_of_le_length (by rw [List.length_replicate]; omega), List.drop_replicate,
      List.append_assoc]
    rfl
  · rw [if_neg (by omega), if_neg hroom]
    rfl

/-- A text in base64 has no null byte. -/
theorem cString_encode (xs : List UInt8) (n : Nat) (behind : List UInt8) :
    cString (encode xs ++ List.replicate (n + 1) 0 ++ behind) = encode xs := by
  have hnonzero : ∀ c ∈ encode xs, decide (c ≠ 0) = true := by
    intro c hc
    refine decide_eq_true fun h0 => ?_
    rw [h0] at hc
    obtain h | h := mem_encode hc
    · exact absurd h (by decide)
    · exact absurd h (by decide)
  rw [cString, List.append_assoc, List.takeWhile_append_of_pos hnonzero]
  exact List.append_nil _

end Encode

end CWebUI.Crypto
