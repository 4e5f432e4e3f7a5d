import CWebUI.Http.HeaderLine

set_option autoImplicit false

/-! # Decoding in place

`url_decode` (`convert.c`) reads and writes one buffer: what it decodes is never longer than what
it has read, so that it only overwrites bytes it is done with. `Decoder` is the state of its loop,
with the two indices. `Decoding` is the invariant: the bytes before the write index are the decoded
text, the bytes from it on are those of the buffer as it was. So the loop computes
`urlDecodeLoop`, and `urlDecodeLoop` inverts every percent-encoding (`PercentEncodes`).
-/

namespace CWebUI.Http

open ByteString

/-! ## The loop -/

/-- The state of the loop of `url_decode`: the buffer from the pointer on, and the two indices. -/
structure Decoder where
  line : List UInt8
  iIn : Nat
  iOut : Nat

/-- `line[i_out] = c; i_out++`, with the read index moved by `n`. -/
def Decoder.write (s : Decoder) (c : UInt8) (n : Nat) : Decoder :=
  ⟨s.line.set s.iOut c, s.iIn + n, s.iOut + 1⟩

/-- One round of the loop, for a text of the given length. -/
def decodeRound (lenght : Nat) (s : Decoder) : Decoder :=
  let c := s.line.getD s.iIn 0
  if c = 37 ∧ lenght - s.iIn > 2 then
    s.write ((toHex (s.line.getD (s.iIn + 1) 0) <<< 4) + toHex (s.line.getD (s.iIn + 2) 0)) 3
  else if c = 43 then s.write 32 1
  else s.write c 1

/-- At most `rounds` rounds of the loop. -/
def decodeRounds (lenght : Nat) : Nat → Decoder → Decoder
  | 0, s => s
  | rounds + 1, s =>
      if s.iIn ≤ lenght then decodeRounds lenght rounds (decodeRound lenght s) else s

/-- `url_decode` on the buffer from the pointer on. Every round reads a byte of the text or its
terminator. -/
def urlDecodeInPlace (line : List UInt8) : List UInt8 :=
  (decodeRounds (cString line).length ((cString line).length + 1) ⟨line, 0, 0⟩).line

@[simp] theorem Decoder.write_iIn (s : Decoder) (c : UInt8) (n : Nat) :
    (s.write c n).iIn = s.iIn + n := rfl
@[simp] theorem Decoder.write_iOut (s : Decoder) (c : UInt8) (n : Nat) :
    (s.write c n).iOut = s.iOut + 1 := rfl

theorem decodeRounds_of_done {lenght : Nat} {s : Decoder} (rounds : Nat) (h : lenght < s.iIn) :
    decodeRounds lenght rounds s = s := by
  cases rounds with
  | zero => rfl
  | succ rounds => rw [decodeRounds, if_neg (by omega)]

/-- A round reads at least one byte, and writes one. -/
theorem decodeRound_indices (lenght : Nat) (s : Decoder) :
    (decodeRound lenght s).iOut = s.iOut + 1 ∧ s.iIn + 1 ≤ (decodeRound lenght s).iIn := by
  unfold decodeRound
  dsimp only
  split
  · exact ⟨rfl, by rw [Decoder.write_iIn]; omega⟩
  · split <;> exact ⟨rfl, by rw [Decoder.write_iIn]⟩

/-- The write index is never ahead of the read index. -/
theorem decodeRounds_ordered (lenght rounds : Nat) {s : Decoder} (h : s.iOut ≤ s.iIn) :
    (decodeRounds lenght rounds s).iOut ≤ (decodeRounds lenght rounds s).iIn := by
  induction rounds generalizing s with
  | zero => exact h
  | succ rounds ih =>
      rw [decodeRounds]
      split
      · obtain ⟨hout, hin⟩ := decodeRound_indices lenght s
        exact ih (by omega)
      · exact h

/-! ## The invariant -/

/-- A buffer that starts with a C string. -/
theorem cString_split {line : List UInt8} (h : (0 : UInt8) ∈ line) :
    ∃ rest, line = cString line ++ 0 :: rest := by
  have hne : line.dropWhile (· ≠ 0) ≠ [] := by
    rw [Ne, List.dropWhile_eq_nil_iff]
    intro hall
    simpa using hall 0 h
  obtain ⟨c, rest, hrest⟩ := List.exists_cons_of_ne_nil hne
  have hzero : c = 0 := by
    have := List.head_dropWhile_not (p := (· ≠ 0)) (l := line) hne
    simp only [hrest, List.head_cons] at this
    simpa using this
  refine ⟨rest, ?_⟩
  rw [← hzero, ← hrest, cString, List.takeWhile_append_dropWhile]

/-- A byte that starts no escape. -/
theorem urlDecodeLoop_plain {a : UInt8} {t : List UInt8} (h : ¬ (a = 37 ∧ 2 ≤ t.length)) :
    urlDecodeLoop (a :: t) = (if a = 43 then 32 else a) :: urlDecodeLoop t := by
  match t with
  | [] => rfl
  | [b] => rfl
  | b :: c :: r =>
      have ha : a ≠ 37 := fun ha => h ⟨ha, by simp⟩
      rw [urlDecodeLoop, if_neg ha]

theorem urlDecodeLoop_length_le (text : List UInt8) :
    (urlDecodeLoop text).length ≤ text.length := by
  induction text using urlDecodeLoop.induct with
  | case1 => exact Nat.le_refl _
  | case2 a => exact Nat.le_refl _
  | case3 a b => exact Nat.le_refl _
  | case4 b c rest ih =>
      rw [urlDecodeLoop, if_pos rfl]
      simp only [List.length_cons]
      omega
  | case5 a b c rest hne ih =>
      rw [urlDecodeLoop, if_neg hne]
      simp only [List.length_cons] at ih ⊢
      omega

section Decoding

variable (text rest : List UInt8)

/-- The loop on a buffer that holds `text`, its terminator and `rest`. -/
structure Decoding (s : Decoder) : Prop where
  ordered : s.iOut ≤ s.iIn
  inside : s.iIn ≤ text.length
  room : s.line.length = (text ++ 0 :: rest).length
  /-- What has been written and what is still to be decoded. -/
  front : s.line.take s.iOut ++ urlDecodeLoop (text.drop s.iIn) = urlDecodeLoop text
  /-- From the write index on the buffer is as it was. -/
  back : s.line.drop s.iOut = (text ++ 0 :: rest).drop s.iOut

variable {text rest}

theorem Decoding.start : Decoding text rest ⟨text ++ 0 :: rest, 0, 0⟩ :=
  ⟨Nat.le_refl _, Nat.zero_le _, rfl, rfl, rfl⟩

/-- The bytes that are read are those of the buffer as it was. -/
theorem Decoding.read {s : Decoder} (h : Decoding text rest s) {i : Nat} (hi : s.iOut ≤ i) :
    s.line.getD i 0 = (text ++ 0 :: rest).getD i 0 := by
  obtain ⟨k, rfl⟩ := Nat.exists_eq_add_of_le hi
  rw [List.getD_eq_getElem?_getD, List.getD_eq_getElem?_getD, ← List.getElem?_drop,
    ← List.getElem?_drop, h.back]

theorem Decoding.write_take {s : Decoder} (h : Decoding text rest s) (c : UInt8) :
    (s.line.set s.iOut c).take (s.iOut + 1) = s.line.take s.iOut ++ [c] := by
  have hlt : s.iOut < s.line.length := by
    have := h.ordered
    have := h.inside
    rw [h.room, List.length_append, List.length_cons]
    omega
  rw [List.take_set, List.take_add_one, List.getElem?_eq_getElem hlt, Option.toList_some,
    List.set_append_right _ _ (by rw [List.length_take]; omega), List.length_take,
    Nat.min_eq_left (Nat.le_of_lt hlt), Nat.sub_self, List.set_cons_zero]

theorem Decoding.write_drop {s : Decoder} (h : Decoding text rest s) (c : UInt8) :
    (s.line.set s.iOut c).drop (s.iOut + 1) = (text ++ 0 :: rest).drop (s.iOut + 1) := by
  have hback := congrArg (List.drop 1) h.back
  rw [List.drop_drop, List.drop_drop] at hback
  rw [List.drop_set_of_lt (Nat.lt_succ_self _), hback]

/-- A byte is decoded from the next `n` bytes of the text. -/
theorem Decoding.write {s : Decoder} (h : Decoding text rest s) {c : UInt8} {n : Nat} (hn : 0 < n)
    (hinside : s.iIn + n ≤ text.length)
    (hdecode : urlDecodeLoop (text.drop s.iIn) = c :: urlDecodeLoop (text.drop (s.iIn + n))) :
    Decoding text rest (s.write c n) := by
  have hordered := h.ordered
  refine ⟨by rw [Decoder.write_iIn, Decoder.write_iOut]; omega, hinside, ?_, ?_, h.write_drop c⟩
  · exact (List.length_set).trans h.room
  · show (s.line.set s.iOut c).take (s.iOut + 1) ++ urlDecodeLoop (text.drop (s.iIn + n)) = _
    rw [h.write_take, List.append_assoc, List.singleton_append, ← hdecode, h.front]

/-- A round inside the text keeps the invariant. -/
theorem Decoding.round {s : Decoder} (h : Decoding text rest s) (hlt : s.iIn < text.length) :
    Decoding text rest (decodeRound text.length s) := by
  have hread (k : Nat) (hk : s.iIn + k < text.length) :
      s.line.getD (s.iIn + k) 0 = text[s.iIn + k] := by
    rw [h.read (by have := h.ordered; omega), List.getD_eq_getElem?_getD,
      List.getElem?_append_left hk, List.getElem?_eq_getElem hk, Option.getD_some]
  have hread0 : s.line.getD s.iIn 0 = text[s.iIn] := hread 0 hlt
  have hcons := List.drop_eq_getElem_cons hlt
  have hrest : (text.drop (s.iIn + 1)).length = text.length - (s.iIn + 1) := List.length_drop
  unfold decodeRound
  simp only [hread0]
  split
  · next hescape =>
    have hlt1 : s.iIn + 1 < text.length := by omega
    have hlt2 : s.iIn + 1 + 1 < text.length := by omega
    rw [hread 1 hlt1, hread 2 hlt2]
    refine h.write (by decide) (by omega) ?_
    rw [hcons, List.drop_eq_getElem_cons hlt1, List.drop_eq_getElem_cons hlt2, urlDecodeLoop,
      if_pos hescape.1]
  · next hplain =>
    have hdecode : urlDecodeLoop (text.drop s.iIn) =
        (if text[s.iIn] = 43 then 32 else text[s.iIn]) :: urlDecodeLoop (text.drop (s.iIn + 1)) := by
      rw [hcons, urlDecodeLoop_plain]
      rintro ⟨ha, hlen⟩
      exact hplain ⟨ha, by omega⟩
    split
    · next hplus =>
      rw [if_pos hplus] at hdecode
      exact h.write Nat.one_pos hlt hdecode
    · next hplus =>
      rw [if_neg hplus] at hdecode
      exact h.write Nat.one_pos hlt hdecode

/-- At the terminator the loop writes a terminator, and ends. -/
theorem Decoding.last {s : Decoder} (h : Decoding text rest s) (heq : s.iIn = text.length) :
    (decodeRound text.length s).line =
        urlDecodeLoop text ++ 0 :: (text ++ 0 :: rest).drop ((urlDecodeLoop text).length + 1) ∧
      text.length < (decodeRound text.length s).iIn := by
  have hread : s.line.getD s.iIn 0 = 0 := by
    rw [h.read h.ordered, heq]
    simp
  have hfront := h.front
  rw [heq, List.drop_length, urlDecodeLoop, List.append_nil] at hfront
  have hlen : s.iOut = (urlDecodeLoop text).length := by
    have hordered := h.ordered
    rw [← hfront, List.length_take, h.room, List.length_append]
    omega
  unfold decodeRound
  simp only [hread]
  rw [if_neg (by simp), if_neg (by decide)]
  refine ⟨?_, by rw [Decoder.write_iIn]; omega⟩
  show s.line.set s.iOut 0 = _
  rw [← List.take_append_drop (s.iOut + 1) (s.line.set s.iOut 0), h.write_take, h.write_drop, hfront,
    List.append_assoc, ← hlen]
  rfl

/-- The loop from any state of the invariant. -/
theorem Decoding.run {s : Decoder} (h : Decoding text rest s) {rounds : Nat}
    (hrounds : text.length < s.iIn + rounds) :
    (decodeRounds text.length rounds s).line =
        urlDecodeLoop text ++ 0 :: (text ++ 0 :: rest).drop ((urlDecodeLoop text).length + 1) ∧
      text.length < (decodeRounds text.length rounds s).iIn := by
  induction rounds generalizing s with
  | zero =>
      have := h.inside
      omega
  | succ rounds ih =>
      rw [decodeRounds, if_pos h.inside]
      rcases Nat.lt_or_eq_of_le h.inside with hlt | heq
      · have hmove := (decodeRound_indices text.length s).2
        exact ih (h.round hlt) (by omega)
      · rw [decodeRounds_of_done rounds (h.last heq).2]
        exact h.last heq

end Decoding

theorem cString_append_zero {text : List UInt8} (htext : (0 : UInt8) ∉ text) (rest : List UInt8) :
    cString (text ++ 0 :: rest) = text := by
  rw [cString, List.takeWhile_append_of_pos, List.takeWhile_cons_of_neg (by simp), List.append_nil]
  intro c hmem
  have hne : c ≠ 0 := fun h => htext (h ▸ hmem)
  simpa using hne

/-- **What `url_decode` leaves in the buffer**: the decoded text, a terminator, and behind them the
bytes that were there. -/
theorem urlDecodeInPlace_eq {text : List UInt8} (htext : (0 : UInt8) ∉ text) (rest : List UInt8) :
    urlDecodeInPlace (text ++ 0 :: rest) =
      urlDecodeLoop text ++ 0 :: (text ++ 0 :: rest).drop ((urlDecodeLoop text).length + 1) := by
  unfold urlDecodeInPlace
  rw [cString_append_zero htext]
  exact (Decoding.start.run (by simp)).1

/-! ## Percent-encodings -/

/-- The unreserved characters: letters, digits, `-`, `.`, `_` and `~`. -/
def Unreserved (c : UInt8) : Prop :=
  isDigit c = true ∨ (65 ≤ c ∧ c ≤ 90) ∨ (97 ≤ c ∧ c ≤ 122) ∨ c ∈ [45, 46, 95, 126]

/-- A percent-encoding of a text: a byte stands literally, if that is allowed for it, or as a
percent sign and two hexadecimal digits of either case, or as `+`, if it is a space. -/
inductive PercentEncodes (literal : UInt8 → Prop) : List UInt8 → List UInt8 → Prop where
  | nil : PercentEncodes literal [] []
  | literal {c : UInt8} {s e : List UInt8} : literal c → PercentEncodes literal s e →
      PercentEncodes literal (c :: s) (c :: e)
  | escape {c high low : UInt8} {s e : List UInt8} : isHexDigit high = true →
      isHexDigit low = true → c.toNat = 16 * hexDigitValue high + hexDigitValue low →
      PercentEncodes literal s e → PercentEncodes literal (c :: s) (37 :: high :: low :: e)
  | plus {s e : List UInt8} : PercentEncodes literal s e →
      PercentEncodes literal (32 :: s) (43 :: e)

section PercentEncodes

variable {literal : UInt8 → Prop} {s e : List UInt8}

theorem PercentEncodes.mono {other : UInt8 → Prop} (h : PercentEncodes literal s e)
    (himp : ∀ c, literal c → other c) : PercentEncodes other s e := by
  induction h with
  | nil => exact .nil
  | literal hc _ ih => exact .literal (himp _ hc) ih
  | escape hh hl hv _ ih => exact .escape hh hl hv ih
  | plus _ ih => exact .plus ih

theorem PercentEncodes.length_le (h : PercentEncodes literal s e) : s.length ≤ e.length := by
  induction h with
  | nil => exact Nat.le_refl _
  | literal _ _ ih => simpa using ih
  | escape _ _ _ _ ih =>
      simp only [List.length_cons]
      omega
  | plus _ ih => simpa using ih

theorem PercentEncodes.nil_iff (h : PercentEncodes literal s e) : e = [] ↔ s = [] := by
  cases h <;> simp

/-- A byte that is neither a literal nor part of an escape does not occur. -/
theorem PercentEncodes.not_mem (h : PercentEncodes literal s e) {c : UInt8} (hlit : ¬ literal c)
    (hpercent : c ≠ 37) (hplus : c ≠ 43) (hhex : isHexDigit c = false) : c ∉ e := by
  have hdigit {d : UInt8} (hd : isHexDigit d = true) : c ≠ d := by
    rintro rfl
    rw [hhex] at hd
    cases hd
  induction h with
  | nil => simp
  | literal hc _ ih =>
      rw [List.mem_cons, not_or]
      exact ⟨fun heq => hlit (heq ▸ hc), ih⟩
  | escape hh hl _ _ ih =>
      simp only [List.mem_cons, not_or]
      exact ⟨hpercent, hdigit hh, hdigit hl, ih⟩
  | plus _ ih =>
      rw [List.mem_cons, not_or]
      exact ⟨hplus, ih⟩

/-- `toHex` and the value of a hexadecimal digit. -/
theorem toHex_toNat {d : UInt8} (h : isHexDigit d = true) : (toHex d).toNat = hexDigitValue d := by
  have hall : ∀ d : UInt8, isHexDigit d = true → (toHex d).toNat = hexDigitValue d :=
    forall_byte (by decide +kernel)
  exact hall d h

theorem hexByte_eq {c high low : UInt8} (hh : isHexDigit high = true) (hl : isHexDigit low = true)
    (hv : c.toNat = 16 * hexDigitValue high + hexDigitValue low) :
    (toHex high <<< 4) + toHex low = c := by
  have hlt := c.toNat_lt
  rw [← UInt8.toNat_inj, UInt8.toNat_add, UInt8.toNat_shiftLeft, toHex_toNat hh, toHex_toNat hl, hv,
    Nat.shiftLeft_eq]
  simp
  omega

/-- **Decoding inverts percent-encoding.** -/
theorem urlDecodeLoop_encoding (hlit : ∀ c, literal c → c ≠ 37 ∧ c ≠ 43)
    (h : PercentEncodes literal s e) : urlDecodeLoop e = s := by
  induction h with
  | nil => rfl
  | @literal c s e hc _ ih =>
      rw [urlDecodeLoop_plain (fun h => (hlit c hc).1 h.1), if_neg (hlit c hc).2, ih]
  | escape hh hl hv _ ih => rw [urlDecodeLoop, if_pos rfl, hexByte_eq hh hl hv, ih]
  | plus _ ih => rw [urlDecodeLoop_plain (by simp), if_pos rfl, ih]

end PercentEncodes

theorem Unreserved.plain {c : UInt8} (h : Unreserved c) : c ≠ 0 ∧ c ≠ 37 ∧ c ≠ 43 := by
  refine ⟨?_, ?_, ?_⟩ <;> rintro rfl <;> revert h <;> unfold Unreserved isDigit <;> decide

/-- **`url_decode` inverts percent-encoding in place.** The loop ends, and after any number of rounds
the write index is not ahead of the read index. -/
theorem urlDecodeInPlace_inverts {s e : List UInt8} (hs : (0 : UInt8) ∉ s)
    (he : PercentEncodes Unreserved s e) (rest : List UInt8) :
    cString (urlDecodeInPlace (e ++ 0 :: rest)) = s ∧
      urlDecodeInPlace (e ++ 0 :: rest) = s ++ 0 :: (e ++ 0 :: rest).drop (s.length + 1) ∧
      e.length < (decodeRounds e.length (e.length + 1) ⟨e ++ 0 :: rest, 0, 0⟩).iIn ∧
      (∀ rounds, (decodeRounds e.length rounds ⟨e ++ 0 :: rest, 0, 0⟩).iOut ≤
        (decodeRounds e.length rounds ⟨e ++ 0 :: rest, 0, 0⟩).iIn) ∧
      s.length ≤ e.length := by
  have hplain (c : UInt8) (hc : Unreserved c) : c ≠ 37 ∧ c ≠ 43 := hc.plain.2
  have hzero : (0 : UInt8) ∉ e :=
    he.not_mem (fun h => h.plain.1 rfl) (by decide) (by decide) (by decide)
  have hbuffer := urlDecodeInPlace_eq hzero rest
  rw [urlDecodeLoop_encoding hplain he] at hbuffer
  refine ⟨?_, hbuffer, ?_, fun rounds => ?_, he.length_le⟩
  · rw [hbuffer, cString_append_zero hs]
  · exact (Decoding.start.run (by simp)).2
  · exact decodeRounds_ordered _ rounds (Nat.le_refl _)

/-- A space in both spellings, and a byte above 127. -/
theorem urlDecodeInPlace_inverts_escapes :
    cString (urlDecodeInPlace (ascii "a+%20%fF" ++ [0])) = ascii "a  " ++ [255] := by
  have he : PercentEncodes Unreserved (ascii "a  " ++ [255]) (ascii "a+%20%fF") :=
    .literal (by unfold Unreserved; decide) (.plus (.escape (by decide) (by decide) (by decide)
      (.escape (by decide) (by decide) (by decide) .nil)))
  exact (urlDecodeInPlace_inverts (by decide) he []).1

end CWebUI.Http
