import CWebUI.Basic.Bytes
import CWebUI.Websocket.RecFrame

set_option autoImplicit false

/-! # Sending frames

`sendWebsocketFrame` (`websockets_send_recv.c`) writes a frame without a mask into a message for
the output queue. The type of a length, `WEBSOCK_LEN_T`, is chosen when the library is compiled: 32
bits with `SHORT_WS_FRAMES_T`, which the header of the library defines, and 64 bits without. Both
are modelled.

`readHeader` is how `recFrameV8` reads a header, for both types of a length, up to its refusal of
frames without a mask and with reserved bits. What is sent is read back by it, and no header that
has the same length is shorter.
-/

namespace CWebUI.Websocket

open ByteString

/-! ## Writing a frame -/

/-- The two types that `WEBSOCK_LEN_T` can be. -/
inductive LenType where
  /-- `SHORT_WS_FRAMES_T` is defined: `uint32_t`. -/
  | short
  /-- It is not: `uint64_t`. -/
  | long
  deriving DecidableEq, Repr

/-- The number of lengths of the type. -/
def LenType.size : LenType → Nat
  | .short => 2 ^ 32
  | .long => 2 ^ 64

/-- `websocket_queue_msg`: the length that its buffer is allocated with, and the bytes that are
written. -/
structure WebsocketQueueMsg where
  len : Nat
  msg : List UInt8
  deriving DecidableEq, Repr

/-- `create_websocket_output_queue_msg` with a length of this type, and the bytes that are written
then. -/
def createWebsocketOutputQueueMsg (w : LenType) (msgLength : Nat) (msg : List UInt8) :
    WebsocketQueueMsg :=
  ⟨msgLength % w.size, msg⟩

/-- `(unsigned char)(length >> n)` -/
def lengthByte (length n : Nat) : UInt8 := UInt8.ofNat (length >>> n)

/-- The upper four bytes of a long length. -/
def upperBytes (w : LenType) (length : Nat) : List UInt8 :=
  match w with
  | .short => [0, 0, 0, 0]
  | .long =>
      [lengthByte length 56, lengthByte length 48, lengthByte length 40, lengthByte length 32]

/-- `sendWebsocketFrame`: the message that it queues. -/
def sendWebsocketFrame (w : LenType) (opCode : Fin 16) (payload : List UInt8) : WebsocketQueueMsg :=
  let length := payload.length
  let first := UInt8.ofNat (0x80 + opCode)
  if length < 126 then
    createWebsocketOutputQueueMsg w (length + 2) ([first, UInt8.ofNat length] ++ payload)
  else if length < 65536 then
    createWebsocketOutputQueueMsg w (length + 4)
      ([first, 126, lengthByte length 8, lengthByte length 0] ++ payload)
  else
    createWebsocketOutputQueueMsg w (length + 10)
      ([first, 127] ++ upperBytes w length ++
        [lengthByte length 24, lengthByte length 16, lengthByte length 8, lengthByte length 0] ++
        payload)

/-! ## Reading a header -/

/-- `websocket_frame` as it is read from a header: the reserved bits, and the number of bytes before
the payload. -/
structure FrameFields where
  fin : Bool
  rsv : UInt8
  opcode : UInt8
  maskBit : Bool
  realLength : Nat
  offset : Nat
  deriving DecidableEq, Repr

/-- What the front of a buffer is read as. -/
inductive HeaderRead where
  /-- The header is not complete. -/
  | more
  /-- The length is refused. -/
  | refuse
  | fields (f : FrameFields)
  deriving DecidableEq, Repr

/-- `real_length`, from the seven bits of the second byte and the bytes behind it. -/
def realLength (w : LenType) (playloadLength : UInt8) (rest : List UInt8) : Nat :=
  if playloadLength = 126 then bigEndian (rest.take 2)
  else if playloadLength = 127 then
    match w with
    | .short => bigEndian ((rest.drop 4).take 4)
    | .long => bigEndian (rest.take 8)
  else playloadLength.toNat

/-- How `recFrameV8` reads a header. The most significant bit of a length of eight bytes must be
zero, and when `WEBSOCK_LEN_T` has 32 bits its upper four bytes. -/
def readHeader (w : LenType) : List UInt8 → HeaderRead
  | b0 :: b1 :: rest =>
      let playloadLength := b1 &&& 0x7F
      let extended := extendedBytes playloadLength
      let extra := extended + if b1 &&& 0x80 ≠ 0 then 4 else 0
      if rest.length < extra then .more
      else if playloadLength = 127 ∧ rest.headD 0 &&& 0x80 = 0x80 then .refuse
      else if playloadLength = 127 ∧ w = .short ∧ rest.take 4 ≠ [0, 0, 0, 0] then .refuse
      else
        .fields {
          fin := b0 &&& 0x80 ≠ 0
          rsv := b0 &&& 0x70
          opcode := b0 &&& 0x0F
          maskBit := b1 &&& 0x80 ≠ 0
          realLength := realLength w playloadLength rest
          offset := 2 + extra }
  | _ => .more

theorem headD_of_take_four {rest : List UInt8} (hzero : rest.take 4 = [0, 0, 0, 0]) :
    rest.headD 0 = 0 := by
  cases rest with
  | nil => rfl
  | cons a rest => exact (List.cons.inj hzero).1

/-- When the upper four bytes of a long length are zero, the lower four have the whole length. -/
theorem realLength_short_eq {playloadLength : UInt8} {rest : List UInt8}
    (hzero : playloadLength = 127 → rest.take 4 = [0, 0, 0, 0]) :
    (if extendedBytes playloadLength = 0 then playloadLength.toNat
      else bigEndian (rest.take (extendedBytes playloadLength))) =
      realLength .short playloadLength rest := by
  unfold realLength extendedBytes
  by_cases h126 : playloadLength = 126
  · subst h126
    rfl
  · by_cases h127 : playloadLength = 127
    · have hsplit : rest.take 8 = [0, 0, 0, 0] ++ (rest.drop 4).take 4 := by
        rw [← hzero h127, ← List.take_add]
      subst h127
      show bigEndian (rest.take 8) = bigEndian ((rest.drop 4).take 4)
      rw [hsplit]
      rfl
    · rw [if_neg h126, if_neg h127, if_pos rfl, if_neg h126, if_neg h127]

/-- With lengths of 32 bits, and for the frames that are not refused for their first two bytes, this
is `scanHeader`. -/
theorem scanHeader_readHeader {b0 b1 : UInt8} (rest : List UInt8) (hrsv : b0 &&& 0x70 = 0)
    (hmask : b1 &&& 0x80 ≠ 0) :
    scanHeader (b0 :: b1 :: rest) =
      match readHeader .short (b0 :: b1 :: rest) with
      | .more => .more
      | .refuse => .refuse 1000
      | .fields f =>
          .frame {
            fin := f.fin
            opcode := opcodeOf b0
            mask := (rest.drop (extendedBytes (b1 &&& 0x7F))).take 4
            realLength := f.realLength
            headerLength := f.offset } := by
  unfold scanHeader readHeader
  dsimp only
  rw [if_neg (by simpa using hrsv), if_neg hmask]
  simp only [hmask, ne_eq, not_false_eq_true, if_true]
  by_cases hmore : rest.length < extendedBytes (b1 &&& 0x7F) + 4
  · rw [if_pos hmore, if_pos hmore]
  · rw [if_neg hmore, if_neg hmore]
    by_cases hzero : b1 &&& 0x7F = 127 ∧ rest.take 4 ≠ [0, 0, 0, 0]
    · rw [if_pos hzero]
      -- whichever of the two refusals it is, the connection is closed with the same status
      by_cases hmsb : rest.headD 0 &&& 0x80 = 0x80
      · rw [if_pos ⟨hzero.1, hmsb⟩]
      · rw [if_neg (fun h => hmsb h.2), if_pos ⟨hzero.1, trivial, hzero.2⟩]
    · have hzero' : b1 &&& 0x7F = 127 → rest.take 4 = [0, 0, 0, 0] :=
        fun h127 => not_not.mp (fun h => hzero ⟨h127, h⟩)
      have hmsb : ¬(b1 &&& 0x7F = 127 ∧ rest.headD 0 &&& 0x80 = 0x80) := by
        rintro ⟨h127, hmsb⟩
        rw [headD_of_take_four (hzero' h127)] at hmsb
        exact absurd hmsb (by decide)
      rw [if_neg hzero, if_neg hmsb, realLength_short_eq hzero',
        if_neg (fun h => h.2.2 (hzero' h.1))]
      rfl

/-! ## Lengths in bytes -/

theorem bigEndian_snoc (bytes : List UInt8) (c : UInt8) :
    bigEndian (bytes ++ [c]) = 256 * bigEndian bytes + c.toNat := by
  rw [bigEndian, List.foldl_append]
  rfl

/-- The lower `k` bytes of a number, the most significant first. -/
def lowerBytes (length : Nat) : Nat → List UInt8
  | 0 => []
  | k + 1 => lowerBytes (length / 256) k ++ [UInt8.ofNat length]

theorem bigEndian_lowerBytes (length k : Nat) :
    bigEndian (lowerBytes length k) = length % 256 ^ k := by
  induction k generalizing length with
  | zero => rw [Nat.pow_zero, Nat.mod_one]; rfl
  | succ k ih =>
      have hbyte : (UInt8.ofNat length).toNat = length % 256 := by simp
      rw [lowerBytes, bigEndian_snoc, ih, hbyte, Nat.pow_succ, Nat.mul_comm (256 ^ k),
        Nat.mod_mul, Nat.add_comm]

/-- A shift by bytes is a division. -/
theorem lengthByte_eq (length n : Nat) : lengthByte length n = UInt8.ofNat (length / 2 ^ n) := by
  rw [lengthByte, Nat.shiftRight_eq_div_pow]

theorem lowerBytes_two (length : Nat) :
    lowerBytes length 2 = [lengthByte length 8, lengthByte length 0] := by
  simp [lowerBytes, lengthByte_eq]

theorem lowerBytes_four (length : Nat) :
    lowerBytes length 4 =
      [lengthByte length 24, lengthByte length 16, lengthByte length 8, lengthByte length 0] := by
  simp [lowerBytes, lengthByte_eq, Nat.div_div_eq_div_mul]

theorem lowerBytes_eight (length : Nat) :
    lowerBytes length 8 = upperBytes .long length ++
      [lengthByte length 24, lengthByte length 16, lengthByte length 8, lengthByte length 0] := by
  simp [lowerBytes, upperBytes, lengthByte_eq, Nat.div_div_eq_div_mul]

theorem foldl_bigEndian_lt (bytes : List UInt8) (n : Nat) :
    bytes.foldl (fun n c => 256 * n + c.toNat) n < (n + 1) * 256 ^ bytes.length := by
  induction bytes generalizing n with
  | nil => simp
  | cons c bytes ih =>
      have hc := c.toNat_lt
      have hstep : 256 * n + c.toNat + 1 ≤ (n + 1) * 256 := by omega
      calc
        _ < (256 * n + c.toNat + 1) * 256 ^ bytes.length := ih _
        _ ≤ (n + 1) * 256 * 256 ^ bytes.length := Nat.mul_le_mul_right _ hstep
        _ = (n + 1) * 256 ^ (bytes.length + 1) := by rw [Nat.pow_succ', Nat.mul_assoc]

/-- The number that `k` bytes denote is below `256 ^ k`. -/
theorem bigEndian_lt (bytes : List UInt8) : bigEndian bytes < 256 ^ bytes.length := by
  simpa [bigEndian] using foldl_bigEndian_lt bytes 0

/-! ## The header that is sent -/

/-- The bytes behind the first two of a header that has this length. -/
def extendedLengthBytes (w : LenType) (length : Nat) : List UInt8 :=
  if length < 126 then []
  else if length < 65536 then lowerBytes length 2
  else upperBytes w length ++ lowerBytes length 4

/-- The second byte of this header. -/
def lengthCode (length : Nat) : UInt8 :=
  if length < 126 then UInt8.ofNat length else if length < 65536 then 126 else 127

/-- The number of bytes that a length takes when it is written as short as it can be. -/
def shortestExtended (length : Nat) : Nat :=
  if length < 126 then 0 else if length < 65536 then 2 else 8

theorem sendWebsocketFrame_msg (w : LenType) (op : Fin 16) (payload : List UInt8) :
    (sendWebsocketFrame w op payload).msg =
      UInt8.ofNat (0x80 + op) :: lengthCode payload.length ::
        (extendedLengthBytes w payload.length ++ payload) := by
  unfold sendWebsocketFrame lengthCode extendedLengthBytes createWebsocketOutputQueueMsg
  dsimp only
  rw [lowerBytes_two, lowerBytes_four]
  split_ifs with hshort hmedium
  · rfl
  · rfl
  · simp

theorem length_extendedLengthBytes (w : LenType) (length : Nat) :
    (extendedLengthBytes w length).length = shortestExtended length := by
  unfold extendedLengthBytes shortestExtended
  rw [lowerBytes_two, lowerBytes_four]
  split_ifs
  · rfl
  · rfl
  · cases w <;> rfl

theorem lengthCode_lt (length : Nat) : (lengthCode length).toNat < 128 := by
  unfold lengthCode
  split_ifs with hshort hmedium
  · rw [UInt8.toNat_ofNat']
    exact Nat.lt_of_le_of_lt (Nat.mod_le _ _) (by omega)
  · decide
  · decide

/-- A length below 126 is its own code. -/
theorem lengthCode_short {length : Nat} (h : length < 126) :
    (lengthCode length).toNat = length := by
  rw [lengthCode, if_pos h, UInt8.toNat_ofNat', Nat.mod_eq_of_lt (by omega)]

theorem lengthCode_medium {length : Nat} (hlow : 126 ≤ length) (hhigh : length < 65536) :
    lengthCode length = 126 := by
  rw [lengthCode, if_neg (by omega), if_pos hhigh]

theorem lengthCode_long {length : Nat} (h : 65536 ≤ length) : lengthCode length = 127 := by
  rw [lengthCode, if_neg (by omega), if_neg (by omega)]

/-- The two codes that announce more bytes are not those of a short length. -/
theorem lengthCode_short_ne {length : Nat} (h : length < 126) :
    lengthCode length ≠ 126 ∧ lengthCode length ≠ 127 := by
  have hcode := lengthCode_short h
  constructor
  · intro h126
    have hval : (lengthCode length).toNat = 126 := by rw [h126]; rfl
    omega
  · intro h127
    have hval : (lengthCode length).toNat = 127 := by rw [h127]; rfl
    omega

theorem lengthCode_eq_127_iff (length : Nat) : lengthCode length = 127 ↔ 65536 ≤ length := by
  constructor
  · intro h127
    by_contra hlt
    by_cases hshort : length < 126
    · exact (lengthCode_short_ne hshort).2 h127
    · rw [lengthCode_medium (by omega) (by omega)] at h127
      exact absurd h127 (by decide)
  · exact lengthCode_long

theorem extendedLengthBytes_medium {w : LenType} {length : Nat} (hlow : 126 ≤ length)
    (hhigh : length < 65536) : extendedLengthBytes w length = lowerBytes length 2 := by
  rw [extendedLengthBytes, if_neg (by omega), if_pos hhigh]

theorem extendedLengthBytes_long {w : LenType} {length : Nat} (h : 65536 ≤ length) :
    extendedLengthBytes w length = upperBytes w length ++ lowerBytes length 4 := by
  rw [extendedLengthBytes, if_neg (by omega), if_neg (by omega)]

theorem shortestExtended_medium {length : Nat} (hlow : 126 ≤ length) (hhigh : length < 65536) :
    shortestExtended length = 2 := by
  rw [shortestExtended, if_neg (by omega), if_pos hhigh]

theorem shortestExtended_long {length : Nat} (h : 65536 ≤ length) :
    shortestExtended length = 8 := by
  rw [shortestExtended, if_neg (by omega), if_neg (by omega)]

theorem extendedBytes_lengthCode (length : Nat) :
    extendedBytes (lengthCode length) = shortestExtended length := by
  by_cases hshort : length < 126
  · obtain ⟨h126, h127⟩ := lengthCode_short_ne hshort
    rw [extendedBytes, if_neg h126, if_neg h127, shortestExtended, if_pos hshort]
  · by_cases hmedium : length < 65536
    · rw [lengthCode_medium (by omega) hmedium, shortestExtended_medium (by omega) hmedium]
      rfl
    · rw [lengthCode_long (by omega), shortestExtended_long (by omega)]
      rfl

/-- The length fits into the type, and the bit that a receiver refuses is not used. -/
structure LengthFits (w : LenType) (length : Nat) : Prop where
  size : length + 10 < w.size
  clear : w = .long → length < 2 ^ 63

theorem LengthFits.long_lt {w : LenType} {length : Nat} (h : LengthFits w length) :
    length < 2 ^ 63 := by
  cases w with
  | short =>
      have hsize : length + 10 < 2 ^ 32 := h.size
      omega
  | long => exact h.clear rfl

/-- The upper bytes are those of the length, for both types. -/
theorem LengthFits.upperBytes_append {w : LenType} {length : Nat} (h : LengthFits w length) :
    upperBytes w length ++ lowerBytes length 4 = lowerBytes length 8 := by
  rw [lowerBytes_eight, lowerBytes_four]
  cases w with
  | long => rfl
  | short =>
      have hsize : length + 10 < 2 ^ 32 := h.size
      have hzero : ∀ n, 32 ≤ n → lengthByte length n = 0 := fun n hn => by
        have hpow : 2 ^ 32 ≤ 2 ^ n := Nat.pow_le_pow_right (by omega) hn
        rw [lengthByte_eq, Nat.div_eq_of_lt (by omega)]
        rfl
      simp [upperBytes, hzero]

theorem msb_eq_iff : ∀ c : UInt8, c &&& 0x80 = 0x80 ↔ 128 ≤ c.toNat :=
  forall_byte (by decide +kernel)

theorem mask_low : ∀ c : UInt8, c.toNat < 128 → c &&& 0x7F = c ∧ c &&& 0x80 = 0 :=
  forall_byte (by decide +kernel)

/-- The first byte has the final bit, no reserved bits and the opcode. -/
theorem firstByte_fields :
    ∀ op : Fin 16,
      UInt8.ofNat (0x80 + op) &&& 0x80 ≠ 0 ∧ UInt8.ofNat (0x80 + op) &&& 0x70 = 0 ∧
      UInt8.ofNat (0x80 + op) &&& 0x0F = UInt8.ofNat op := by
  decide +kernel

/-- The bit that a receiver refuses is the most significant one of a length of 64 bits. -/
theorem headD_msb_iff (length : Nat) (rest : List UInt8) :
    (lowerBytes length 8 ++ rest).headD 0 &&& 0x80 = 0x80 ↔ 128 ≤ length / 2 ^ 56 % 256 := by
  have hhead : (lowerBytes length 8 ++ rest).headD 0 = lengthByte length 56 := by
    rw [lowerBytes_eight]
    rfl
  rw [hhead, msb_eq_iff, lengthByte_eq, UInt8.toNat_ofNat']

/-- The first of the eight bytes of a length below `2 ^ 63` has no most significant bit. -/
theorem LengthFits.headD_clear {w : LenType} {length : Nat} (h : LengthFits w length)
    (rest : List UInt8) : (lowerBytes length 8 ++ rest).headD 0 &&& 0x80 ≠ 0x80 := by
  have hlt := h.long_lt
  rw [Ne, headD_msb_iff]
  omega

/-- Behind the second byte, the length that was written is read. -/
theorem LengthFits.realLength_eq {w : LenType} {length : Nat} (h : LengthFits w length)
    (rest : List UInt8) :
    realLength w (lengthCode length) (extendedLengthBytes w length ++ rest) = length := by
  have htake : (extendedLengthBytes w length ++ rest).take (shortestExtended length) =
      extendedLengthBytes w length := by
    rw [← length_extendedLengthBytes w]
    exact List.take_left
  by_cases hshort : length < 126
  · obtain ⟨h126, h127⟩ := lengthCode_short_ne hshort
    unfold realLength
    rw [if_neg h126, if_neg h127, lengthCode_short hshort]
  · by_cases hmedium : length < 65536
    · have hlow : 126 ≤ length := by omega
      have hext := extendedLengthBytes_medium (w := w) hlow hmedium
      rw [shortestExtended_medium hlow hmedium, hext] at htake
      unfold realLength
      rw [lengthCode_medium hlow hmedium, if_pos rfl, hext, htake, bigEndian_lowerBytes]
      exact Nat.mod_eq_of_lt hmedium
    · have hlarge : 65536 ≤ length := by omega
      have hext := extendedLengthBytes_long (w := w) hlarge
      rw [shortestExtended_long hlarge] at htake
      unfold realLength
      rw [lengthCode_long hlarge, if_neg (by decide), if_pos rfl]
      cases w with
      | long =>
          -- the eight bytes are one number
          dsimp only
          rw [htake, hext, h.upperBytes_append, bigEndian_lowerBytes]
          exact Nat.mod_eq_of_lt (Nat.lt_trans h.long_lt (by decide))
      | short =>
          have hsize : length + 10 < 2 ^ 32 := h.size
          -- the upper four bytes are not read
          have hdrop : ((extendedLengthBytes .short length ++ rest).drop 4).take 4 =
              lowerBytes length 4 := by
            rw [hext, lowerBytes_four]
            rfl
          dsimp only
          rw [hdrop, bigEndian_lowerBytes]
          exact Nat.mod_eq_of_lt (by omega)

/-- The buffer of the message has the length of the bytes that are written into it. -/
theorem LengthFits.len_eq {w : LenType} {payload : List UInt8} (h : LengthFits w payload.length)
    (op : Fin 16) :
    (sendWebsocketFrame w op payload).len = (sendWebsocketFrame w op payload).msg.length := by
  have hsize := h.size
  rw [sendWebsocketFrame_msg]
  simp only [List.length_cons, List.length_append, length_extendedLengthBytes]
  unfold sendWebsocketFrame createWebsocketOutputQueueMsg shortestExtended
  dsimp only
  split_ifs
  all_goals
    dsimp only
    rw [Nat.mod_eq_of_lt (by omega)]
    omega

/-! ## What is sent is read back -/

/-- The header that is sent, with anything behind it, is read as it was meant. -/
theorem LengthFits.readHeader_eq {w : LenType} {length : Nat} (h : LengthFits w length)
    (op : Fin 16) (rest : List UInt8) :
    readHeader w (UInt8.ofNat (0x80 + op) :: lengthCode length ::
        (extendedLengthBytes w length ++ rest)) =
      .fields {
        fin := true
        rsv := 0
        opcode := UInt8.ofNat op
        maskBit := false
        realLength := length
        offset := 2 + shortestExtended length } := by
  obtain ⟨hfin, hrsv, hop⟩ := firstByte_fields op
  obtain ⟨hlow, hmask⟩ := mask_low _ (lengthCode_lt length)
  -- all bytes of the length are there
  have hmore : ¬(extendedLengthBytes w length ++ rest).length < shortestExtended length := by
    rw [List.length_append, length_extendedLengthBytes]
    omega
  -- neither of the two checks of a long length refuses it
  have hclear : ¬(lengthCode length = 127 ∧
      (extendedLengthBytes w length ++ rest).headD 0 &&& 0x80 = 0x80) := by
    rintro ⟨h127, hmsb⟩
    rw [extendedLengthBytes_long ((lengthCode_eq_127_iff length).mp h127), h.upperBytes_append]
      at hmsb
    exact h.headD_clear rest hmsb
  have hupper : ¬(lengthCode length = 127 ∧ w = .short ∧
      (extendedLengthBytes w length ++ rest).take 4 ≠ [0, 0, 0, 0]) := by
    rintro ⟨h127, rfl, htake⟩
    apply htake
    rw [extendedLengthBytes_long ((lengthCode_eq_127_iff length).mp h127)]
    rfl
  simp only [readHeader, hlow, hmask, hrsv, hop, hfin, ne_eq, not_true_eq_false, if_false,
    Nat.add_zero, extendedBytes_lengthCode, if_neg hmore, if_neg hclear, if_neg hupper,
    h.realLength_eq rest, not_false_eq_true, decide_true, decide_false]

theorem shortestExtended_le (length : Nat) : shortestExtended length ≤ 8 := by
  unfold shortestExtended
  split_ifs <;> omega

/-- A length takes at least the bytes that it could be written with. -/
theorem shortestExtended_realLength_le (w : LenType) {playloadLength : UInt8}
    (hlt : playloadLength.toNat < 128) (rest : List UInt8) :
    shortestExtended (realLength w playloadLength rest) ≤ extendedBytes playloadLength := by
  by_cases h126 : playloadLength = 126
  · subst h126
    have hnum : bigEndian (rest.take 2) < 65536 := by
      refine Nat.lt_of_lt_of_le (bigEndian_lt _) ?_
      calc 256 ^ (rest.take 2).length
        _ ≤ 256 ^ 2 := Nat.pow_le_pow_right (by omega) (List.length_take_le 2 rest)
        _ = 65536 := rfl
    show shortestExtended (bigEndian (rest.take 2)) ≤ 2
    unfold shortestExtended
    split_ifs <;> omega
  · by_cases h127 : playloadLength = 127
    · subst h127
      exact shortestExtended_le _
    · have hval : realLength w playloadLength rest = playloadLength.toNat := by
        unfold realLength
        rw [if_neg h126, if_neg h127]
      have hsmall : playloadLength.toNat < 126 := by
        have h1 : playloadLength.toNat ≠ 126 := fun h => h126 (UInt8.toNat_inj.mp h)
        have h2 : playloadLength.toNat ≠ 127 := fun h => h127 (UInt8.toNat_inj.mp h)
        omega
      rw [hval, shortestExtended, if_pos hsmall]
      exact Nat.zero_le _

/-- A header that is read has no shorter one with the same length. -/
theorem shortest_le_offset {w : LenType} {bytes : List UInt8} {f : FrameFields}
    (hread : readHeader w bytes = .fields f) : 2 + shortestExtended f.realLength ≤ f.offset := by
  match bytes, hread with
  | [], hread => cases hread
  | [_], hread => cases hread
  | b0 :: b1 :: rest, hread =>
      have hlow : ∀ c : UInt8, (c &&& 0x7F).toNat < 128 := forall_byte (by decide +kernel)
      have hle := shortestExtended_realLength_le w (hlow b1) rest
      rw [readHeader] at hread
      split_ifs at hread
      all_goals
        cases hread
        show 2 + shortestExtended (realLength w (b1 &&& 0x7F) rest) ≤
          2 + (extendedBytes (b1 &&& 0x7F) + _)
        omega

/-- The message is a frame with this opcode and this payload: `offset` bytes of header, in which the
final bit is the only one set beside the opcode and the length, and the payload with nothing behind
it. No header with this length is shorter. -/
structure ReadsBack (w : LenType) (op : Fin 16) (payload : List UInt8) (m : WebsocketQueueMsg)
    (offset : Nat) : Prop where
  fields : readHeader w m.msg =
    .fields {
      fin := true
      rsv := 0
      opcode := UInt8.ofNat op
      maskBit := false
      realLength := payload.length
      offset := offset }
  payload_eq : m.msg.drop offset = payload
  len_eq : m.len = m.msg.length
  shortest : ∀ (bytes : List UInt8) (f : FrameFields), readHeader w bytes = .fields f →
    f.realLength = payload.length → offset ≤ f.offset

/-- Every frame whose length fits is read back. -/
theorem sendWebsocketFrame_reads_back (w : LenType) (op : Fin 16) (payload : List UInt8)
    (hfits : LengthFits w payload.length) :
    ∃ offset, ReadsBack w op payload (sendWebsocketFrame w op payload) offset := by
  refine ⟨2 + shortestExtended payload.length, ?_, ?_, ?_, ?_⟩
  · rw [sendWebsocketFrame_msg]
    exact hfits.readHeader_eq op payload
  · rw [sendWebsocketFrame_msg, ← length_extendedLengthBytes w, Nat.add_comm 2,
      List.drop_succ_cons, List.drop_succ_cons, List.drop_left]
  · exact hfits.len_eq op
  · intro bytes f hread hlen
    rw [← hlen]
    exact shortest_le_offset hread

/-- `"Hi"` as a text frame, with lengths of 64 bits. -/
theorem sendWebsocketFrame_reads_back_hi :
    ∃ offset, ReadsBack .long 1 [72, 105] (sendWebsocketFrame .long 1 [72, 105]) offset :=
  sendWebsocketFrame_reads_back .long 1 [72, 105] ⟨by decide, fun _ => by decide⟩

/-- With lengths of 64 bits, a length from `2 ^ 63` on sets the bit that `recFrameV8` refuses. -/
theorem sendWebsocketFrame_long_refused (op : Fin 16) (payload : List UInt8)
    (hmsb : 2 ^ 63 ≤ payload.length) (hsize : payload.length < 2 ^ 64) :
    readHeader .long (sendWebsocketFrame .long op payload).msg = .refuse := by
  have hlarge : 65536 ≤ payload.length := by omega
  have hext : extendedLengthBytes .long payload.length = lowerBytes payload.length 8 := by
    rw [extendedLengthBytes_long hlarge, lowerBytes_eight, lowerBytes_four]
  have hmore : ¬(lowerBytes payload.length 8 ++ payload).length < 8 := by
    rw [List.length_append]
    omega
  have hset : (lowerBytes payload.length 8 ++ payload).headD 0 &&& 0x80 = 0x80 := by
    rw [headD_msb_iff]
    omega
  rw [sendWebsocketFrame_msg, lengthCode_long hlarge, hext, readHeader]
  exact (if_neg hmore).trans (if_pos ⟨rfl, hset⟩)

/-- A length that does not overflow with its header is not enough. -/
theorem sendWebsocketFrame_msb_not_read :
    ¬∀ (w : LenType) (op : Fin 16) (payload : List UInt8), payload.length + 10 < w.size →
      ∃ offset, ReadsBack w op payload (sendWebsocketFrame w op payload) offset := by
  intro hall
  have hlen : (List.replicate (2 ^ 63) (0 : UInt8)).length = 2 ^ 63 := List.length_replicate
  obtain ⟨offset, hread⟩ := hall .long 2 (List.replicate (2 ^ 63) 0)
    (by rw [hlen]; decide)
  have hfields := hread.fields
  rw [sendWebsocketFrame_long_refused 2 _ (Nat.le_of_eq hlen.symm) (by rw [hlen]; decide)]
    at hfields
  cases hfields

end CWebUI.Websocket
