import CWebUI.Crypto.Sha1Transform

set_option autoImplicit false

/-! # The hash of a stream

`SHA1Init`, `SHA1Update` and `SHA1Final` (`sha1.c`), and the functions `WebserverSHA1...` around
them. Lengths and the two words that count the bits have 32 bits and wrap around. A copy or a
transformation that reads or writes outside of a buffer has no result.

`sha1Pieces_eq` is the hash of a message that comes in pieces: whatever the pieces are, it is that of
the standard. A piece has to leave 64 below 4 GiB, since the code adds up to 63 to its length in
32 bits.
-/

namespace CWebUI.Crypto

open BlockStream ByteString ListLemmas

/-! ## The code -/

/-- `SHA1_CTX` -/
structure Sha1Ctx where
  state : Registers
  /-- `count[0]` -/
  count0 : Word
  /-- `count[1]` -/
  count1 : Word
  buffer : List UInt8
  deriving DecidableEq, Repr

/-- A context that `memset` clears. -/
def Sha1Ctx.cleared : Sha1Ctx where
  state := { a := 0, b := 0, c := 0, d := 0, e := 0 }
  count0 := 0
  count1 := 0
  buffer := List.replicate 64 0

/-- `SHA1Init` -/
def sha1Init (context : Sha1Ctx) : Sha1Ctx :=
  { context with
    state :=
      { a := 0x67452301, b := 0xEFCDAB89, c := 0x98BADCFE, d := 0x10325476, e := 0xC3D2E1F0 }
    count0 := 0
    count1 := 0 }

/-- The counter of the bits in `SHA1Update`: a sum that is smaller than before has wrapped around. -/
def Sha1Ctx.countBits (context : Sha1Ctx) (len : Word) : Sha1Ctx :=
  let count0 := context.count0 + (len <<< 3)
  let count1 := if count0 < context.count0 then context.count1 + 1 else context.count1
  { context with count0 := count0, count1 := count1 + (len >>> 29) }

/-- The loop of `SHA1Update` over the blocks within the data, with the state and the index behind
it. -/
def sha1UpdateLoop (data : List UInt8) (len : Word) :
    Nat → Registers → Word → Option (Registers × Word)
  | 0, _, _ => none
  | fuel + 1, state, i =>
      if i + 63 < len then do
        let state ← sha1Transform state (data.drop i.toNat)
        sha1UpdateLoop data len fuel state (i + 64)
      else some (state, i)

/-- The blocks of `SHA1Update` behind the one that the buffer was filled up for. -/
def sha1UpdateBlocks (data : List UInt8) (len : Word) (state : Registers) (i : Word) :
    Option (Registers × Word) :=
  if len ≥ 64 then sha1UpdateLoop data len (len.toNat / 64 + 1) state i else some (state, i)

/-- `SHA1Update` -/
def sha1Update (context : Sha1Ctx) (data : List UInt8) (len : Word) : Option Sha1Ctx := do
  let counted := context.countBits len
  let j := (context.count0 >>> 3) &&& 63
  if j + len > 63 then
    let buffer ← copyInto context.buffer j.toNat data 0 (64 - j).toNat
    let state ← sha1Transform context.state buffer
    let blocks ← sha1UpdateBlocks data len state (64 - j)
    let buffer ← copyInto buffer 0 data blocks.2.toNat (len - blocks.2).toNat
    some { counted with state := blocks.1, buffer := buffer }
  else
    let buffer ← copyInto context.buffer j.toNat data 0 len.toNat
    some { counted with buffer := buffer }

/-- `(unsigned char)(word & 255)` -/
def lowByte (word : Word) : UInt8 := ⟨(word &&& 255).setWidth 8⟩

/-- `state[i]` -/
def Registers.word (r : Registers) : Nat → Word
  | 0 => r.a
  | 1 => r.b
  | 2 => r.c
  | 3 => r.d
  | _ => r.e

/-- The loop of `SHA1Final` that fills the last block with zeros. -/
def sha1PadLoop : Nat → Sha1Ctx → Option Sha1Ctx
  | 0, _ => none
  | fuel + 1, context =>
      if context.count0 &&& 504 ≠ 448 then do
        let context ← sha1Update context [0] 1
        sha1PadLoop fuel context
      else some context

/-- `SHA1Final`: the digest, and the context that is wiped. -/
def sha1Final (context : Sha1Ctx) : Option (List UInt8 × Sha1Ctx) := do
  let finalcount := (List.range 8).map fun i =>
    lowByte ((if i ≥ 4 then context.count0 else context.count1) >>> ((3 - (i &&& 3)) * 8))
  let context ← sha1Update context [128] 1
  let context ← sha1PadLoop 64 context
  let context ← sha1Update context finalcount 8
  let digest := (List.range 20).map fun i =>
    lowByte (context.state.word (i >>> 2) >>> ((3 - (i &&& 3)) * 8))
  some (digest, Sha1Ctx.cleared)

/-- `WebserverSHA1`; `stack` is what the context on the stack holds before. -/
def webserverSHA1 (stack : Sha1Ctx) (data : List UInt8) : Option (List UInt8) := do
  let ctx ← sha1Update (sha1Init stack) data (BitVec.ofNat 32 data.length)
  let (md, _) ← sha1Final ctx
  some md

/-- `WebserverSHA1Init`; the memory is cleared. -/
def webserverSHA1Init : Sha1Ctx := sha1Init Sha1Ctx.cleared

/-- `WebserverSHA1Update` -/
def webserverSHA1Update (ctx : Sha1Ctx) (data : List UInt8) : Option Sha1Ctx :=
  sha1Update ctx data (BitVec.ofNat 32 data.length)

/-- `WebserverSHA1Final` -/
def webserverSHA1Final (ctx : Sha1Ctx) : Option (List UInt8) := do
  let (data, _) ← sha1Final ctx
  some data

/-- The calls for a message that comes in pieces. -/
def sha1Pieces (pieces : List (List UInt8)) : Option (List UInt8) := do
  let ctx ← pieces.foldlM webserverSHA1Update webserverSHA1Init
  webserverSHA1Final ctx

/-! ## What a context holds -/

/-- A context that has taken in a message. -/
structure Absorbed (message : List UInt8) (context : Sha1Ctx) : Prop where
  state : context.state = absorb compress 64 initial message
  size : context.buffer.length = 64
  buffered : context.buffer.take (message.length % 64) = rest 64 message
  count : context.count1.toNat * 4294967296 + context.count0.toNat
    = 8 * message.length % 18446744073709551616

/-- A context behind `SHA1Init`, whatever was in its buffer. -/
theorem absorbed_init {context : Sha1Ctx} (h : context.buffer.length = 64) :
    Absorbed [] (sha1Init context) where
  state := by
    rw [absorb_short compress initial (by decide)]
    rfl
  size := h
  buffered := by
    rw [rest_short (by decide)]
    rfl
  count := by
    show (0 : Word).toNat * 4294967296 + (0 : Word).toNat = _
    simp

/-- A number of two words. -/
theorem join_mod {high low : Nat} (h : low < 4294967296) :
    (high * 4294967296 + low) % 18446744073709551616 = high % 4294967296 * 4294967296 + low := by
  omega

/-- The carry of the low words goes into the high ones. -/
theorem carry_add {high low q s : Nat} (hlow : low < 4294967296) (hs : s < 4294967296) :
    ((if (low + s) % 4294967296 < low then high + 1 else high) + q) * 4294967296
        + (low + s) % 4294967296
      = high * 4294967296 + low + (q * 4294967296 + s) := by
  by_cases hcarry : (low + s) % 4294967296 < low
  · rw [if_pos hcarry]
    omega
  · rw [if_neg hcarry]
    omega

section Numbers

variable {context : Sha1Ctx} {L : Nat}

/-- The two words count the bits. -/
theorem countBits_eq (len : Word)
    (h : context.count1.toNat * 4294967296 + context.count0.toNat
      = 8 * L % 18446744073709551616) :
    (context.countBits len).count1.toNat * 4294967296 + (context.countBits len).count0.toNat
      = 8 * (L + len.toNat) % 18446744073709551616 := by
  have hlow : (len <<< 3).toNat = len.toNat * 8 % 4294967296 := by
    rw [BitVec.toNat_shiftLeft, Nat.shiftLeft_eq]
  have hhigh : (len >>> 29).toNat = len.toNat / 536870912 := by
    rw [BitVec.toNat_ushiftRight, Nat.shiftRight_eq_div_pow]
  have hbits : 8 * (L + len.toNat) % 18446744073709551616
      = (context.count1.toNat * 4294967296 + context.count0.toNat + 8 * len.toNat)
        % 18446744073709551616 := by omega
  have hlen : 8 * len.toNat
      = len.toNat / 536870912 * 4294967296 + len.toNat * 8 % 4294967296 := by omega
  have hsum : (context.count0 + (len <<< 3)).toNat
      = (context.count0.toNat + len.toNat * 8 % 4294967296) % 4294967296 := by
    rw [BitVec.toNat_add, hlow]
  rw [hbits, hlen, ← carry_add context.count0.isLt (Nat.mod_lt _ (by decide)),
    join_mod (Nat.mod_lt _ (by decide)), ← hsum]
  congr 2
  rw [Sha1Ctx.countBits]
  dsimp only
  rw [BitVec.toNat_add, hhigh]
  by_cases hcarry : context.count0 + (len <<< 3) < context.count0
  · rw [if_pos hcarry, if_pos (BitVec.lt_def.mp hcarry), BitVec.toNat_add, Nat.mod_add_mod]
    rfl
  · rw [if_neg hcarry, if_neg (fun h => hcarry (BitVec.lt_def.mpr h))]

/-- The place in the buffer. -/
theorem position_eq
    (h : context.count1.toNat * 4294967296 + context.count0.toNat
      = 8 * L % 18446744073709551616) :
    ((context.count0 >>> 3) &&& 63).toNat = L % 64 := by
  have hmask : ((context.count0 >>> 3) &&& 63).toNat = (context.count0 >>> 3).toNat % 64 := by
    rw [BitVec.toNat_and]
    exact Nat.and_two_pow_sub_one_eq_mod _ 6
  rw [hmask, BitVec.toNat_ushiftRight, Nat.shiftRight_eq_div_pow]
  omega

end Numbers

/-! ## Taking in a piece -/

section Update

variable {data message : List UInt8} {len : Word} {context : Sha1Ctx}

/-- The loop takes in the blocks that are within the data. -/
theorem sha1UpdateLoop_eq (hlen : data.length = len.toNat) (hsmall : len.toNat + 64 ≤ 4294967296)
    {fuel : Nat} {state : Registers} {i : Word} (hi : i.toNat ≤ len.toNat)
    (hfuel : (len.toNat - i.toNat) / 64 < fuel) :
    ∃ i', sha1UpdateLoop data len fuel state i
        = some (absorb compress 64 state (data.drop i.toNat), i') ∧
      i'.toNat = i.toNat + 64 * ((len.toNat - i.toNat) / 64) := by
  induction fuel generalizing state i with
  | zero => omega
  | succ fuel ih =>
      have hadd : (i + 63).toNat = i.toNat + 63 := by
        rw [BitVec.toNat_add]
        show (i.toNat + 63) % 4294967296 = i.toNat + 63
        omega
      have hdrop : (data.drop i.toNat).length = len.toNat - i.toNat := by
        rw [List.length_drop, hlen]
      rw [sha1UpdateLoop]
      by_cases hblock : i.toNat + 63 < len.toNat
      · have hnext : (i + 64).toNat = i.toNat + 64 := by
          rw [BitVec.toNat_add]
          show (i.toNat + 64) % 4294967296 = i.toNat + 64
          omega
        obtain ⟨i', hrun, hi'⟩ := @ih (compress state ((data.drop i.toNat).take 64)) (i + 64)
          (by omega) (by omega)
        refine ⟨i', ?_, by omega⟩
        have habsorb : absorb compress 64 state (data.drop i.toNat)
            = absorb compress 64 (compress state ((data.drop i.toNat).take 64))
              (data.drop (i + 64).toNat) := by
          rw [hnext, ← List.drop_drop, ← absorb_block compress state (by decide)
            (List.length_take_of_le (by omega)), List.take_append_drop]
        rw [if_pos (by rw [BitVec.lt_def, hadd]; exact hblock),
          sha1Transform_eq state (by omega), habsorb, ← hrun]
        rfl
      · refine ⟨i, ?_, by omega⟩
        rw [if_neg (by rw [BitVec.lt_def, hadd]; exact hblock),
          absorb_short compress state (by omega)]

/-- The blocks behind the first one; a piece of less than 64 bytes has none. -/
theorem sha1UpdateBlocks_eq (hlen : data.length = len.toNat)
    (hsmall : len.toNat + 64 ≤ 4294967296) {state : Registers} {i : Word} (hpos : 0 < i.toNat)
    (hi : i.toNat ≤ len.toNat) :
    ∃ i', sha1UpdateBlocks data len state i
        = some (absorb compress 64 state (data.drop i.toNat), i') ∧
      i'.toNat = i.toNat + 64 * ((len.toNat - i.toNat) / 64) := by
  rw [sha1UpdateBlocks]
  by_cases hlong : len ≥ 64
  · rw [if_pos hlong]
    exact sha1UpdateLoop_eq hlen hsmall hi (by omega)
  · have hshort : len.toNat < 64 := BitVec.lt_def.mp (BitVec.not_le.mp hlong)
    refine ⟨i, ?_, by omega⟩
    rw [if_neg hlong, absorb_short compress state (by rw [List.length_drop]; omega)]

/-- **A piece is taken in behind the message.** -/
theorem Absorbed.update (hm : Absorbed message context) (hlen : data.length = len.toNat)
    (hsmall : len.toNat + 64 ≤ 4294967296) :
    ∃ context', sha1Update context data len = some context' ∧
      Absorbed (message ++ data) context' := by
  have hj := position_eq hm.count
  have hcount := countBits_eq len hm.count
  have hrest : (rest 64 message).length = message.length % 64 := length_rest 64 message
  have hsum : (message ++ data).length % 64 = (message.length % 64 + data.length) % 64 := by
    rw [List.length_append, Nat.mod_add_mod]
  generalize hjdef : (context.count0 >>> 3) &&& 63 = j at hj
  have hfull : j + len > 63 ↔ 64 ≤ message.length % 64 + data.length := by
    rw [gt_iff_lt, BitVec.lt_def, BitVec.toNat_add]
    show 63 < (j.toNat + len.toNat) % 4294967296 ↔ _
    omega
  rw [← hlen, ← List.length_append] at hcount
  rw [sha1Update, hjdef]
  by_cases hblock : 64 ≤ message.length % 64 + data.length
  · -- the buffer is filled up, and the blocks of the data come behind it
    have hspace : (64 - j).toNat = 64 - message.length % 64 := by
      rw [BitVec.toNat_sub]
      show (4294967296 - j.toNat + 64) % 4294967296 = _
      omega
    generalize hgdef : 64 - j = g at hspace
    have hfront : (window data 0 g.toNat).length = g.toNat := length_window (by omega)
    have hcopy : copyInto context.buffer j.toNat data 0 g.toNat
        = some (memcpyAt context.buffer j.toNat (window data 0 g.toNat)) :=
      copyInto_eq (by omega) (by rw [hm.size]; omega)
    -- the buffer holds the rest of the message and the front of the piece
    have hbuffer : memcpyAt context.buffer j.toNat (window data 0 g.toNat)
        = rest 64 message ++ data.take g.toNat := by
      rw [memcpyAt, hfront, List.drop_of_length_le (by rw [hm.size]; omega), List.append_nil,
        ← hm.buffered, hj, window_zero]
    have hsize : (rest 64 message ++ data.take g.toNat).length = 64 := by
      rw [List.length_append, List.length_take_of_le (by omega)]
      omega
    have hstream : rest 64 message ++ data
        = (rest 64 message ++ data.take g.toNat) ++ data.drop g.toNat := by
      rw [List.append_assoc, List.take_append_drop]
    obtain ⟨i', hblocks, hi'⟩ := @sha1UpdateBlocks_eq data len hlen hsmall
      (compress context.state (rest 64 message ++ data.take g.toNat)) g (by omega) (by omega)
    have htail : (len - i').toNat = len.toNat - i'.toNat := by
      rw [BitVec.toNat_sub]
      have := len.isLt
      omega
    have hrestNew : rest 64 (message ++ data) = window data i'.toNat (len.toNat - i'.toNat) := by
      rw [rest_append (by decide), hstream, rest_block (by decide) hsize, rest,
        List.drop_drop, List.length_drop, window, List.take_of_length_le
          (by rw [List.length_drop]; omega), hi', hlen]
    have hlast : copyInto (rest 64 message ++ data.take g.toNat) 0 data i'.toNat (len - i').toNat
        = some (memcpyAt (rest 64 message ++ data.take g.toNat) 0 (rest 64 (message ++ data))) := by
      rw [hrestNew, htail]
      exact copyInto_eq (by omega) (by rw [hsize]; omega)
    have hfits : 0 + (rest 64 (message ++ data)).length
        ≤ (rest 64 message ++ data.take g.toNat).length := by
      rw [hsize, length_rest]
      omega
    refine ⟨{ context.countBits len with
        state := absorb compress 64
          (compress context.state (rest 64 message ++ data.take g.toNat)) (data.drop g.toNat)
        buffer := memcpyAt (rest 64 message ++ data.take g.toNat) 0 (rest 64 (message ++ data)) },
      ?_, ?_⟩
    · rw [if_pos (hfull.mpr hblock), hcopy, hbuffer]
      show (sha1Transform context.state (rest 64 message ++ data.take g.toNat) >>= _) = _
      rw [sha1Transform_eq context.state (by omega), List.take_of_length_le (by omega)]
      show (sha1UpdateBlocks data len _ g >>= _) = _
      rw [hblocks]
      show (copyInto _ 0 data i'.toNat (len - i').toNat >>= _) = _
      rw [hlast]
      rfl
    · constructor
      · show absorb compress 64 _ _ = _
        rw [absorb_append compress initial (by decide) message, hstream,
          absorb_block compress _ (by decide) hsize, hm.state]
      · show (memcpyAt _ 0 _).length = 64
        rw [length_memcpyAt hfits, hsize]
      · show (memcpyAt _ 0 (rest 64 (message ++ data))).take _ = _
        rw [memcpyAt, List.take_zero, List.nil_append]
        exact List.take_left' (length_rest 64 _)
      · exact hcount
  · -- the piece fits into the buffer
    have hcopy : copyInto context.buffer j.toNat data 0 len.toNat
        = some (memcpyAt context.buffer j.toNat data) := by
      rw [← hlen]
      exact copyInto_all (by rw [hm.size]; omega)
    have hshort : (rest 64 message ++ data).length < 64 := by
      rw [List.length_append]
      omega
    refine ⟨{ context.countBits len with buffer := memcpyAt context.buffer j.toNat data }, ?_, ?_⟩
    · rw [if_neg (fun h => hblock (hfull.mp h)), hcopy]
      rfl
    · constructor
      · show context.state = _
        rw [absorb_append compress initial (by decide), absorb_short _ _ hshort, hm.state]
      · show (memcpyAt context.buffer j.toNat data).length = 64
        rw [length_memcpyAt (by rw [hm.size]; omega), hm.size]
      · show (memcpyAt context.buffer j.toNat data).take _ = _
        rw [rest_append (by decide), rest_short hshort, ← hm.buffered, memcpyAt, hsum, hj,
          Nat.mod_eq_of_lt (by omega)]
        refine List.take_left' ?_
        rw [List.length_append, List.length_take_of_le (by rw [hm.size]; omega)]
      · exact hcount

end Update

/-! ## The padding and the digest -/

section Final

variable {message : List UInt8} {context : Sha1Ctx}

theorem lowByte_shift (word : Word) (n : Nat) :
    lowByte (word >>> n) = ⟨word.extractLsb' n 8⟩ := by
  refine congrArg UInt8.ofBitVec (BitVec.eq_of_getLsbD_eq fun i hi => ?_)
  have hmask : (255 : Word).getLsbD i = true := by
    interval_cases i <;> rfl
  rw [BitVec.getLsbD_setWidth, BitVec.getLsbD_and, BitVec.getLsbD_ushiftRight,
    BitVec.getLsbD_extractLsb', hmask, Bool.and_true]

/-- The loop tests the place in the last block. -/
theorem padding_test (count0 : Word) :
    count0 &&& 504 = 448 ↔ ((count0 >>> 3) &&& 63).toNat = 56 := by
  have hshift : count0 &&& (504 : Word) = ((count0 >>> 3) &&& 63) <<< 3 := by
    refine BitVec.eq_of_getLsbD_eq fun i hi => ?_
    interval_cases i <;> simp
  have hsmall : ((count0 >>> 3) &&& 63).toNat ≤ 63 := by
    rw [BitVec.toNat_and]
    exact Nat.and_le_right
  rw [hshift, ← BitVec.toNat_inj, BitVec.toNat_shiftLeft, Nat.shiftLeft_eq]
  show _ * 8 % 4294967296 = 448 ↔ _
  omega

/-- **The zeros fill the block up to its last eight bytes.** -/
theorem Absorbed.pad (hm : Absorbed message context) {fuel : Nat}
    (hfuel : (120 - message.length % 64) % 64 < fuel) :
    ∃ context', sha1PadLoop fuel context = some context' ∧
      Absorbed (message ++ List.replicate ((120 - message.length % 64) % 64) 0) context' := by
  induction fuel generalizing message context with
  | zero => omega
  | succ fuel ih =>
      have hj := position_eq hm.count
      rw [sha1PadLoop]
      by_cases hend : message.length % 64 = 56
      · refine ⟨context, ?_, ?_⟩
        · rw [if_neg (not_not.mpr ((padding_test _).mpr (hj.trans hend)))]
        · rw [hend, List.replicate_zero, List.append_nil]
          exact hm
      · obtain ⟨context₁, hupdate, h₁⟩ := @hm.update [0] _ 1 _ rfl (by decide)
        have hlen : (message ++ [0]).length = message.length + 1 := by simp
        obtain ⟨context', hloop, h'⟩ := ih h₁ (by omega)
        refine ⟨context', ?_, ?_⟩
        · rw [if_pos (fun h => hend (hj.symm.trans ((padding_test _).mp h))), hupdate]
          exact hloop
        · have hzeros : (120 - message.length % 64) % 64
              = (120 - (message ++ [0]).length % 64) % 64 + 1 := by omega
          rw [hzeros, List.replicate_succ, List.append_cons]
          exact h'

/-- The two words of the counter, with the high one in front, are the number of bits. -/
theorem Absorbed.count_eq (hm : Absorbed message context) :
    (context.count1 ++ context.count0 : BitVec 64) = BitVec.ofNat 64 (8 * message.length) := by
  refine BitVec.eq_of_toNat_eq ?_
  rw [BitVec.toNat_append, ← Nat.shiftLeft_add_eq_or_of_lt context.count0.isLt, Nat.shiftLeft_eq,
    BitVec.toNat_ofNat]
  exact hm.count

theorem extract_high (high low : Word) {n : Nat} (h : n + 8 ≤ 32) :
    (high ++ low : BitVec 64).extractLsb' (n + 32) 8 = high.extractLsb' n 8 := by
  refine BitVec.eq_of_getLsbD_eq fun i hi => ?_
  rw [BitVec.getLsbD_extractLsb', BitVec.getLsbD_extractLsb', BitVec.getLsbD_append,
    if_neg (by omega), show n + 32 + i - 32 = n + i by omega]

theorem extract_low (high low : Word) {n : Nat} (h : n + 8 ≤ 32) :
    (high ++ low : BitVec 64).extractLsb' n 8 = low.extractLsb' n 8 := by
  refine BitVec.eq_of_getLsbD_eq fun i hi => ?_
  rw [BitVec.getLsbD_extractLsb', BitVec.getLsbD_extractLsb', BitVec.getLsbD_append,
    if_pos (by omega)]

/-- The bytes of the counter. -/
theorem Absorbed.finalcount (hm : Absorbed message context) :
    (List.range 8).map (fun i =>
        lowByte ((if i ≥ 4 then context.count0 else context.count1) >>> ((3 - (i &&& 3)) * 8)))
      = beBytes 8 (BitVec.ofNat 64 (8 * message.length)) := by
  rw [← hm.count_eq, beBytes]
  refine List.map_congr_left fun i hi => ?_
  have hi8 : i < 8 := List.mem_range.mp hi
  have hand : i &&& 3 = i % 4 := Nat.and_two_pow_sub_one_eq_mod i 2
  rw [lowByte_shift, hand]
  refine congrArg UInt8.ofBitVec ?_
  by_cases h4 : i ≥ 4
  · rw [if_pos h4, show 8 * (8 - 1 - i) = (3 - i % 4) * 8 by omega, extract_low _ _ (by omega)]
  · rw [if_neg h4, show 8 * (8 - 1 - i) = (3 - i % 4) * 8 + 32 by omega,
      extract_high _ _ (by omega)]

/-- The bytes of the digest. -/
theorem digest_eq (r : Registers) :
    (List.range 20).map (fun i => lowByte (r.word (i >>> 2) >>> ((3 - (i &&& 3)) * 8)))
      = r.bytes := by
  simp only [lowByte_shift]
  rfl

/-- **The digest of what a context has taken in is that of the standard.** -/
theorem Absorbed.final (hm : Absorbed message context) :
    sha1Final context = some (sha1 message, Sha1Ctx.cleared) := by
  obtain ⟨context₁, hone, h₁⟩ := @hm.update [128] _ 1 _ rfl (by decide)
  have hlen : (message ++ [128]).length = message.length + 1 := by simp
  obtain ⟨context₂, hpad, h₂⟩ := @h₁.pad _ _ 64 (Nat.mod_lt _ (by decide))
  obtain ⟨context₃, hcount, h₃⟩ :=
    @h₂.update (beBytes 8 (BitVec.ofNat 64 (8 * message.length))) _ 8 _ (by simp) (by decide)
  have hmessage : message ++ [128] ++ List.replicate ((120 - (message ++ [128]).length % 64) % 64) 0
        ++ beBytes 8 (BitVec.ofNat 64 (8 * message.length))
      = message ++ padding message.length := by
    have hzeros : (120 - (message ++ [128]).length % 64) % 64 = (119 - message.length % 64) % 64 := by
      omega
    rw [hzeros, padding, List.append_assoc, List.append_assoc]
    rfl
  rw [sha1Final, hm.finalcount, hone]
  show (sha1PadLoop 64 context₁ >>= _) = _
  rw [hpad]
  show (sha1Update context₂ _ 8 >>= _) = _
  rw [hcount]
  show some (_, Sha1Ctx.cleared) = _
  rw [digest_eq, h₃.state, hmessage]
  rfl

end Final

/-! ## Messages -/

/-- The pieces are taken in one behind the other. -/
theorem Absorbed.pieces {message : List UInt8} {ctx : Sha1Ctx} (hm : Absorbed message ctx)
    {pieces : List (List UInt8)} (hsmall : ∀ piece ∈ pieces, piece.length + 64 ≤ 4294967296) :
    ∃ ctx', pieces.foldlM webserverSHA1Update ctx = some ctx' ∧
      Absorbed (message ++ pieces.flatten) ctx' := by
  induction pieces generalizing message ctx with
  | nil =>
      refine ⟨ctx, rfl, ?_⟩
      rw [List.flatten_nil, List.append_nil]
      exact hm
  | cons piece pieces ih =>
      have hpiece := hsmall piece List.mem_cons_self
      have hlen : piece.length = (BitVec.ofNat 32 piece.length).toNat := by
        rw [BitVec.toNat_ofNat]
        omega
      obtain ⟨ctx₁, hupdate, h₁⟩ := hm.update hlen (by omega)
      obtain ⟨ctx', hrun, h'⟩ := ih h₁ fun p hp => hsmall p (List.mem_cons_of_mem _ hp)
      refine ⟨ctx', ?_, ?_⟩
      · rw [List.foldlM_cons, webserverSHA1Update, hupdate]
        exact hrun
      · rw [List.flatten_cons, ← List.append_assoc]
        exact h'

/-- **The hash of a message is that of the standard, in whatever pieces it comes**, and no access
leaves a buffer. -/
theorem sha1Pieces_eq (pieces : List (List UInt8))
    (hsmall : ∀ piece ∈ pieces, piece.length + 64 ≤ 4294967296) :
    sha1Pieces pieces = some (sha1 pieces.flatten) := by
  have hinit : Absorbed [] webserverSHA1Init := absorbed_init (List.length_replicate ..)
  obtain ⟨ctx, hrun, hctx⟩ := hinit.pieces hsmall
  rw [sha1Pieces, hrun]
  show webserverSHA1Final ctx = _
  rw [webserverSHA1Final, hctx.final]
  rfl

/-- A message in two pieces. -/
theorem sha1Pieces_eq_two : sha1Pieces [ascii "a", ascii "bc"] = some (sha1 (ascii "abc")) :=
  sha1Pieces_eq [ascii "a", ascii "bc"] (by decide)

/-- The hash of a message in one piece. -/
theorem webserverSHA1_eq {stack : Sha1Ctx} (hstack : stack.buffer.length = 64)
    {data : List UInt8} (hsmall : data.length + 64 ≤ 4294967296) :
    webserverSHA1 stack data = some (sha1 data) := by
  have hlen : data.length = (BitVec.ofNat 32 data.length).toNat := by
    rw [BitVec.toNat_ofNat]
    omega
  obtain ⟨ctx, hupdate, hctx⟩ := (absorbed_init hstack).update hlen (by omega)
  rw [webserverSHA1, hupdate]
  show (sha1Final ctx >>= _) = _
  rw [hctx.final]
  rfl

/-- The test vector of the file. -/
example : sha1Pieces [ascii "a", ascii "bc"]
    = some (beBytes 20 (0xA9993E364706816ABA3E25717850C26C9CD0D89D : BitVec 160)) := by
  decide +kernel

end CWebUI.Crypto
