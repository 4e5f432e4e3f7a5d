import CWebUI.Basic.Bytes
import CWebUI.Websocket.Fragments

set_option autoImplicit false

/-! # A reference decoder of websocket streams

What a server should make of the bytes of a client, by RFC 6455 and the limits of the
library: the whole stream is there at once, and frame after frame is taken off its front. There
is no buffer and nothing waits. A message that is not complete is just the bytes it has so far.

`decodeHeader` reads the header of a frame, `verdict` says what a frame means, and `decodeFrom`
goes through the stream. The rest of this file compares one frame of the reference with one
frame of the code.
-/

namespace CWebUI.Websocket

/-! ## Well-formed text -/

/-- A well-formed text begins with a whole character. -/
theorem WellFormed.startsWell {text : List UInt8} (h : WellFormed text) :
    startsBadly text = false := by
  cases text with
  | nil => rfl
  | cons c cs =>
      obtain ⟨row, hrow, hlen, -⟩ := (wellFormed_cons_iff c cs).mp h
      rw [startsBadly, hrow]
      exact decide_eq_false (Nat.not_lt.mpr hlen)

theorem wellFormed_iff (text : List UInt8) :
    isUtf8 text = 0 ∧ startsBadly text = false ↔ WellFormed text := by
  rw [isUtf8_eq_zero_iff]
  constructor
  · rintro ⟨h | h, hgood⟩
    · exact h
    · exact absurd (hgood.symm.trans h) (by decide)
  · intro h
    exact ⟨Or.inl h, h.startsWell⟩

instance (text : List UInt8) : Decidable (WellFormed text) :=
  decidable_of_iff _ (wellFormed_iff text)

/-! ## The header of a frame -/

/-- The fields of section 5.2, with the number of bytes they take. -/
structure FrameHeader where
  fin : Bool
  opcode : Nat
  maskingKey : List UInt8
  payloadLength : Nat
  headerLength : Nat
  deriving DecidableEq, Repr

/-- The bytes of the whole frame. -/
def FrameHeader.total (h : FrameHeader) : Nat := h.headerLength + h.payloadLength

/-- What stands at the front of a stream. -/
inductive HeaderResult where
  | incomplete
  /-- The connection fails with this status. -/
  | failed (status : Nat)
  | header (h : FrameHeader)
  deriving DecidableEq, Repr

/-- The bytes of the extended payload length, by the seven bits before it. -/
def extendedLength (n : Nat) : Nat := if n = 126 then 2 else if n = 127 then 8 else 0

/-- The header at the front of a stream. The reserved bits are zero and the frame is masked. A
length that does not fit 32 bits is beyond what the library is built for. -/
def decodeHeader : List UInt8 → HeaderResult
  | b0 :: b1 :: rest =>
      if b0.toNat / 16 % 8 ≠ 0 then .failed 1002
      else if b1.toNat < 128 then .failed 1002
      else
        let n := b1.toNat % 128
        let extended := extendedLength n
        let payloadLength := if extended = 0 then n else bigEndian (rest.take extended)
        if rest.length < extended + 4 then .incomplete
        else if 2 ^ 32 ≤ payloadLength then .failed 1000
        else
          .header {
            fin := 128 ≤ b0.toNat
            opcode := b0.toNat % 16
            maskingKey := (rest.drop extended).take 4
            payloadLength := payloadLength
            headerLength := 2 + extended + 4 }
  | _ => .incomplete

/-! ## The meaning of a frame -/

/-- A message whose last frame has not come yet. -/
structure OpenMessage where
  binary : Bool
  bytes : List UInt8
  frames : Nat
  deriving DecidableEq, Repr

/-- What a frame means. -/
inductive Verdict where
  /-- The connection ends with this status. -/
  | fail (status : Nat)
  /-- A message is complete. -/
  | complete (binary : Bool) (bytes : List UInt8)
  /-- A message goes on. -/
  | gather (m : OpenMessage)
  | pong (payload : List UInt8)
  | ignore
  deriving DecidableEq, Repr

/-- A frame that starts a message. -/
def dataVerdict (message : Option OpenMessage) (binary fin : Bool) (payload : List UInt8) :
    Verdict :=
  if message.isSome then .fail 1002
  else if fin then
    if binary = false ∧ websocketMaxInbufferSize ≤ payload.length then .fail 1000
    else .complete binary payload
  else if websocketMaxInbufferSize ≤ payload.length then .fail 1009
  else .gather ⟨binary, payload, 1⟩

/-- A frame that continues a message, within the limits for the message. -/
def continueVerdict (message : Option OpenMessage) (fin : Bool) (payload : List UInt8) : Verdict :=
  match message with
  | none => .fail 1002
  | some m =>
      if websocketMaxInbufferSize ≤ m.bytes.length + payload.length then .fail 1009
      else if websocketMaxFragments ≤ m.frames then .fail 1009
      else if fin then .complete m.binary (m.bytes ++ payload)
      else .gather ⟨m.binary, m.bytes ++ payload, m.frames + 1⟩

/-- A control frame is whole and short. A CLOSE frame is answered. -/
def controlVerdict (opcode : Nat) (fin : Bool) (payload : List UInt8) : Verdict :=
  if fin = false ∨ 125 < payload.length then .fail 1002
  else if opcode = 8 then .fail 1000
  else if opcode = 9 then .pong payload
  else .ignore

/-- What a frame means, given the open message. -/
def verdict (message : Option OpenMessage) (h : FrameHeader) (payload : List UInt8) : Verdict :=
  match h.opcode with
  | 0 => continueVerdict message h.fin payload
  | 1 => dataVerdict message false h.fin payload
  | 2 => dataVerdict message true h.fin payload
  | 8 => controlVerdict 8 h.fin payload
  | 9 => controlVerdict 9 h.fin payload
  | 10 => controlVerdict 10 h.fin payload
  | _ => .fail 1002

/-! ## The decoder -/

/-- The state of the decoder between two frames. -/
structure Decoder where
  message : Option OpenMessage
  trace : List WsEvent
  closed : Bool
  deriving DecidableEq, Repr

/-- Before the first frame. -/
def Decoder.init : Decoder := ⟨none, [], false⟩

/-- The connection ends. -/
def Decoder.fail (d : Decoder) (status : Nat) : Decoder :=
  { d with trace := d.trace ++ [.close status], closed := true }

/-- A complete message is delivered; text is well formed, and gets a terminator. -/
def Decoder.deliver (d : Decoder) (binary : Bool) (bytes : List UInt8) : Decoder :=
  if binary then { d with message := none, trace := d.trace ++ [.message true bytes] }
  else if WellFormed bytes then
    { d with message := none, trace := d.trace ++ [.message false (bytes ++ [0])] }
  else d.fail 1007

/-- The decoder behind a frame. -/
def Decoder.apply (d : Decoder) : Verdict → Decoder
  | .fail status => d.fail status
  | .complete binary bytes => d.deliver binary bytes
  | .gather m => { d with message := some m }
  | .pong payload => { d with trace := d.trace ++ [.pong payload] }
  | .ignore => d

/-- The payload of the frame at the front, without its mask. -/
def FrameHeader.payload (h : FrameHeader) (bytes : List UInt8) : List UInt8 :=
  unmask h.maskingKey 0 ((bytes.drop h.headerLength).take h.payloadLength)

/-- The decoder behind the frames of a stream. A frame beyond the limit ends the connection as
soon as its header is there. -/
def decodeFrom : Nat → Decoder → List UInt8 → Decoder
  | 0, d, _ => d
  | fuel + 1, d, bytes =>
      match decodeHeader bytes with
      | .incomplete => d
      | .failed status => d.fail status
      | .header h =>
          if websocketMaxInbufferSize < h.payloadLength then d.fail 1009
          else if bytes.length < h.total then d
          else
            let d' := d.apply (verdict d.message h (h.payload bytes))
            if d'.closed then d' else decodeFrom fuel d' (bytes.drop h.total)

/-- What the reference decoder makes of a stream. Every frame has a header, so the frames are
fewer than the bytes. -/
def decode (stream : List UInt8) : Decoder := decodeFrom (stream.length + 1) Decoder.init stream

/-! ## Headers of the reference and of the code -/

/-- The opcode with this number. -/
def opcodeNumber : Nat → Opcode
  | 0 => .wsfContinue
  | 1 => .wsfText
  | 2 => .wsfBinary
  | 8 => .wsfClose
  | 9 => .wsfPing
  | 10 => .wsfPong
  | _ => .wsfReserved

/-- The bits of the first two bytes, as numbers. -/
theorem headerBits (c : UInt8) :
    (c &&& 0x70 = 0 ↔ c.toNat / 16 % 8 = 0) ∧ (c &&& 0x80 = 0 ↔ c.toNat < 128) ∧
      (c &&& 0x7F).toNat = c.toNat % 128 ∧ opcodeOf c = opcodeNumber (c.toNat % 16) := by
  revert c
  apply ByteString.forall_byte
  decide +kernel

/-- A length of eight bytes fits 32 bits exactly if its upper four are zero. -/
theorem bigEndian_eight (a b c d e f g h : UInt8) :
    2 ^ 32 ≤ bigEndian [a, b, c, d, e, f, g, h] ↔ [a, b, c, d] ≠ [0, 0, 0, 0] := by
  have he := e.toNat_lt
  have hf := f.toNat_lt
  have hg := g.toNat_lt
  have hh := h.toNat_lt
  -- with the digits of the upper half zero, the number is below `2 ^ 32`
  have hzero : ∀ x : UInt8, x = 0 ↔ x.toNat = 0 := by
    intro x
    rw [← UInt8.toNat_inj]
    rfl
  simp only [bigEndian, List.foldl_cons, List.foldl_nil, ne_eq, List.cons.injEq, hzero, and_true]
  omega

theorem eight_of_length {l : List UInt8} (h : 8 ≤ l.length) :
    ∃ a b c d e f g h, l.take 8 = [a, b, c, d, e, f, g, h] ∧ l.take 4 = [a, b, c, d] := by
  match l, h with
  | a :: b :: c :: d :: e :: f :: g :: h :: t, _ => exact ⟨a, b, c, d, e, f, g, h, rfl, rfl⟩

/-- The check of the upper bytes is the check of the length. -/
theorem length_check {n : Nat} {rest : List UInt8} (hn : n < 128)
    (hlong : extendedLength n + 4 ≤ rest.length) :
    2 ^ 32 ≤ (if extendedLength n = 0 then n else bigEndian (rest.take (extendedLength n))) ↔
      n = 127 ∧ rest.take 4 ≠ [0, 0, 0, 0] := by
  -- only a length of eight bytes can be too large
  by_cases h127 : n = 127
  · subst h127
    have hext : extendedLength 127 = 8 := rfl
    rw [hext] at hlong ⊢
    obtain ⟨a, b, c, d, e, f, g, h, h8, h4⟩ := eight_of_length (l := rest) (by omega)
    rw [if_neg (by decide), h8, h4, bigEndian_eight]
    simp
  · by_cases h126 : n = 126
    · subst h126
      have hext : extendedLength 126 = 2 := rfl
      rw [hext] at hlong ⊢
      rw [if_neg (by decide)]
      match rest, hlong with
      | a :: b :: t, _ =>
          have ha := a.toNat_lt
          have hb := b.toNat_lt
          have hval : bigEndian ((a :: b :: t).take 2) = 256 * (256 * 0 + a.toNat) + b.toNat := rfl
          rw [hval]
          omega
    · have hext : extendedLength n = 0 := by
        unfold extendedLength
        rw [if_neg h126, if_neg h127]
      rw [if_pos hext]
      omega

/-- The header of the reference is that of the code. -/
structure Matches (f : WebsocketFrame) (h : FrameHeader) : Prop where
  fin : f.fin = h.fin
  opcode : f.opcode = opcodeNumber h.opcode
  mask : f.mask = h.maskingKey
  realLength : f.realLength = h.payloadLength
  headerLength : f.headerLength = h.headerLength

/-- **Headers are read alike.** -/
theorem scanHeader_decodeHeader (bytes : List UInt8) :
    (scanHeader bytes = .more ∧ decodeHeader bytes = .incomplete) ∨
    (∃ status, scanHeader bytes = .refuse status ∧ decodeHeader bytes = .failed status) ∨
    (∃ f h, scanHeader bytes = .frame f ∧ decodeHeader bytes = .header h ∧ Matches f h) := by
  match bytes with
  | [] => exact Or.inl ⟨rfl, rfl⟩
  | [b] => exact Or.inl ⟨rfl, rfl⟩
  | b0 :: b1 :: rest =>
      obtain ⟨hrsv, hfin, -, hopcode⟩ := headerBits b0
      obtain ⟨-, hmask, hlength, -⟩ := headerBits b1
      have hseven : ∀ n : UInt8, (b1 &&& 0x7F = n ↔ b1.toNat % 128 = n.toNat) := by
        intro n
        rw [← UInt8.toNat_inj, hlength]
      -- the tests on bits and on numbers agree, so both sides split alike
      have hextended : extendedBytes (b1 &&& 0x7F) = extendedLength (b1.toNat % 128) := by
        unfold extendedBytes extendedLength
        rw [if_congr (hseven 126) rfl rfl, if_congr (hseven 127) rfl rfl]
        rfl
      unfold scanHeader decodeHeader
      dsimp only
      by_cases h1 : b0.toNat / 16 % 8 = 0
      · have h1' : ¬ (b0 &&& 0x70 ≠ 0) := not_not.mpr (hrsv.mpr h1)
        have h1'' : ¬ (b0.toNat / 16 % 8 ≠ 0) := not_not.mpr h1
        rw [if_neg h1', if_neg h1'']
        by_cases h2 : b1.toNat < 128
        · rw [if_pos (hmask.mpr h2), if_pos h2]
          exact Or.inr (Or.inl ⟨1002, rfl, rfl⟩)
        · have h2' : ¬ (b1 &&& 0x80 = 0) := fun h => h2 (hmask.mp h)
          rw [if_neg h2', if_neg h2, hextended, hlength]
          by_cases h3 : rest.length < extendedLength (b1.toNat % 128) + 4
          · rw [if_pos h3, if_pos h3]
            exact Or.inl ⟨rfl, rfl⟩
          · rw [if_neg h3, if_neg h3]
            have hcheck := length_check (n := b1.toNat % 128) (Nat.mod_lt _ (by decide))
              (Nat.not_lt.mp h3)
            have h127 : b1 &&& 0x7F = 127 ↔ b1.toNat % 128 = 127 := hseven 127
            by_cases h4 : b1.toNat % 128 = 127 ∧ rest.take 4 ≠ [0, 0, 0, 0]
            · have h4' : b1 &&& 0x7F = 127 ∧ rest.take 4 ≠ [0, 0, 0, 0] := ⟨h127.mpr h4.1, h4.2⟩
              rw [if_pos h4', if_pos (hcheck.mpr h4)]
              exact Or.inr (Or.inl ⟨1000, rfl, rfl⟩)
            · have h4' : ¬ (b1 &&& 0x7F = 127 ∧ rest.take 4 ≠ [0, 0, 0, 0]) :=
                fun h => h4 ⟨h127.mp h.1, h.2⟩
              rw [if_neg h4', if_neg (fun h => h4 (hcheck.mp h))]
              refine Or.inr (Or.inr ⟨_, _, rfl, rfl, ?_, hopcode, rfl, rfl, rfl⟩)
              exact decide_eq_decide.mpr (by rw [ne_eq, hfin, Nat.not_lt])
      · have h1' : b0 &&& 0x70 ≠ 0 := fun h => h1 (hrsv.mp h)
        rw [if_pos h1', if_pos h1]
        exact Or.inr (Or.inl ⟨1002, rfl, rfl⟩)

/-! ## One frame of the reference and of the code -/

/-- The connection has done what the decoder has done, and the fragments in its list are the
open message of the decoder. -/
structure Follows (s : WsSocket) (d : Decoder) : Prop where
  trace : s.trace = d.trace
  closed : s.closed = d.closed
  fragments : d.closed = false → FragmentsInv s
  message : d.closed = false → d.message =
    s.fragmentStartOpcode.map (fun binary => ⟨binary, s.fragments.flatten, s.fragmentCount⟩)

/-- The text of this verdict is taken by the code although it is not well formed. -/
def Verdict.slips : Verdict → Bool
  | .complete false text => startsBadly text
  | _ => false

variable {srv : WsServer} {s : WsSocket} {d : Decoder}

theorem Follows.fail (status : Nat) (htrace : s.trace = d.trace) :
    Follows (s.closeWith status) (d.fail status) where
  trace := congrArg (· ++ [WsEvent.close status]) htrace
  closed := rfl
  fragments := fun h => absurd h (by simp [Decoder.fail])
  message := fun h => absurd h (by simp [Decoder.fail])

/-- A complete message, with no fragment left in the list. -/
theorem Follows.deliver {binary : Bool} {msg : List UInt8} (htrace : s.trace = d.trace)
    (hs : s.closed = false) (hd : d.closed = false) (hinv : FragmentsInv s)
    (hnone : s.fragmentStartOpcode = none)
    (hgood : (Verdict.complete binary msg).slips = false) :
    Follows (s.deliver binary msg) (d.deliver binary msg) := by
  unfold WsSocket.deliver Decoder.deliver
  cases binary with
  | true =>
      rw [if_pos rfl, if_pos rfl]
      refine ⟨congrArg (· ++ [WsEvent.message true msg]) htrace, hs.trans hd.symm, ?_, ?_⟩
      · exact fun _ => hinv.congr rfl rfl rfl rfl rfl
      · intro _
        show none = Option.map _ s.fragmentStartOpcode
        rw [hnone]
        rfl
  | false =>
      simp only [Bool.false_eq_true, if_false]
      have hutf8 : isUtf8 msg = 0 ↔ WellFormed msg := by
        rw [← wellFormed_iff]
        exact ⟨fun h => ⟨h, hgood⟩, fun h => h.1⟩
      by_cases hwf : WellFormed msg
      · have hzero : ¬ (isUtf8 msg ≠ 0) := not_not.mpr (hutf8.mpr hwf)
        rw [if_neg hzero, if_pos hwf]
        refine ⟨congrArg (· ++ [WsEvent.message false (msg ++ [0])]) htrace, hs.trans hd.symm, ?_, ?_⟩
        · exact fun _ => hinv.congr rfl rfl rfl rfl rfl
        · intro _
          show none = Option.map _ s.fragmentStartOpcode
          rw [hnone]
          rfl
      · have hbad : isUtf8 msg ≠ 0 := fun h => hwf (hutf8.mp h)
        rw [if_pos hbad, if_neg hwf]
        exact Follows.fail 1007 htrace

/-- Text that slips through: the code delivers it, and the decoder fails. -/
theorem deliver_slips {msg : List UInt8} (hbad : startsBadly msg = true) :
    (s.deliver false msg).trace = s.trace ++ [.message false (msg ++ [0])] ∧
      d.deliver false msg = d.fail 1007 := by
  have hutf8 : isUtf8 msg = 0 := (isUtf8_eq_zero_iff msg).mpr (Or.inr hbad)
  have hwf : ¬ WellFormed msg := by
    intro h
    exact absurd (h.startsWell.symm.trans hbad) (by decide)
  have hzero : ¬ (isUtf8 msg ≠ 0) := not_not.mpr hutf8
  unfold WsSocket.deliver Decoder.deliver
  simp only [Bool.false_eq_true, if_false]
  rw [if_neg hzero, if_neg hwf]
  exact ⟨rfl, rfl⟩

/-- What the code does with a frame, beside its verdict: the same, or a text slips through. -/
def Handled (s : WsSocket) (d : Decoder) (v : Verdict) (s' : WsSocket) : Prop :=
  (v.slips = false → Follows s' (d.apply v)) ∧
    (v.slips = true → (∃ msg, s'.trace = s.trace ++ [.message false msg]) ∧
      d.apply v = d.fail 1007)

theorem Handled.fail {status : Nat} (h : Follows s d) :
    Handled s d (.fail status) (s.closeWith status) :=
  ⟨fun _ => Follows.fail status h.trace, fun hslips => absurd hslips (by simp [Verdict.slips])⟩

theorem Handled.complete {s₀ : WsSocket} {binary : Bool} {msg : List UInt8} (h : Follows s₀ d)
    (htrace : s.trace = s₀.trace) (hs : s.closed = false) (hd : d.closed = false)
    (hinv : FragmentsInv s) (hnone : s.fragmentStartOpcode = none) :
    Handled s₀ d (.complete binary msg) (s.deliver binary msg) := by
  refine ⟨Follows.deliver (htrace.trans h.trace) hs hd hinv hnone, ?_⟩
  intro hslips
  cases binary with
  | true => exact absurd hslips (by simp [Verdict.slips])
  | false =>
      obtain ⟨h1, h2⟩ := deliver_slips (s := s) (d := d) hslips
      exact ⟨⟨_, htrace ▸ h1⟩, h2⟩

theorem Follows.inFragments (h : Follows s d) (hd : d.closed = false) :
    s.inFragments = d.message.isSome := by
  unfold WsSocket.inFragments
  rw [h.message hd, (h.fragments hd).stream]
  simp

/-- A frame that starts a message. -/
theorem Follows.dataFrame (hsrv : srv.handler = none) (h : Follows s d) (hd : d.closed = false)
    {f : WebsocketFrame} {payload : List UInt8} (hpayload : payload.length = f.realLength)
    (binary : Bool) (hopcode : f.opcode = if binary then .wsfBinary else .wsfText) :
    Handled s d (dataVerdict d.message binary f.fin payload) (dataFrame srv s f payload) := by
  have hs : s.closed = false := h.closed.trans hd
  have hbinary : decide (f.opcode = .wsfBinary) = binary := by
    cases binary <;> simp [hopcode]
  have htext : f.opcode = .wsfText ↔ binary = false := by
    cases binary <;> simp [hopcode]
  unfold Websocket.dataFrame dataVerdict
  rw [hsrv, h.inFragments hd, hpayload, hbinary]
  dsimp only
  by_cases hopen : d.message.isSome = true
  · rw [if_pos hopen, if_pos hopen]
    exact Handled.fail h
  · rw [if_neg hopen, if_neg hopen]
    -- no message is open, so the list of fragments is empty
    have hnone : s.fragmentStartOpcode = none := by
      have := h.message hd
      cases hstart : s.fragmentStartOpcode with
      | none => rfl
      | some b =>
          rw [hstart] at this
          exact absurd (by rw [this]; rfl) hopen
    have hinv := h.fragments hd
    by_cases hfin : f.fin = true
    · rw [if_pos hfin, if_pos hfin]
      by_cases hlong : binary = false ∧ websocketMaxInbufferSize ≤ f.realLength
      · rw [if_pos hlong, if_pos ⟨htext.mpr hlong.1, hlong.2⟩]
        exact Handled.fail h
      · rw [if_neg hlong, if_neg (fun hl => hlong ⟨htext.mp hl.1, hl.2⟩)]
        exact Handled.complete h rfl hs hd hinv hnone
    · rw [if_neg hfin, if_neg hfin]
      by_cases hlarge : websocketMaxInbufferSize ≤ f.realLength
      · rw [if_pos hlarge, if_pos hlarge]
        exact Handled.fail h
      · rw [if_neg hlarge, if_neg hlarge]
        refine ⟨fun _ => ⟨h.trace, h.closed, ?_, ?_⟩, fun hslips => absurd hslips (by simp [Verdict.slips])⟩
        · intro _
          have hopen' := hinv.dataFrame hsrv (f := f) hpayload
          unfold Websocket.dataFrame at hopen'
          rw [hsrv, h.inFragments hd, if_neg hopen, if_neg hfin] at hopen'
          dsimp only at hopen'
          rw [if_neg hlarge, hbinary] at hopen'
          exact hopen' hs
        · intro _
          have hnil : s.fragments = [] := hinv.start.mp hnone
          show some _ = some _
          simp [hnil]

/-- A frame that continues a message. -/
theorem Follows.continueFrame (hsrv : srv.handler = none) (h : Follows s d) (hd : d.closed = false)
    {f : WebsocketFrame} {payload : List UInt8} (hpayload : payload.length = f.realLength) :
    Handled s d (continueVerdict d.message f.fin payload) (continueFrame srv s f payload) := by
  have hs : s.closed = false := h.closed.trans hd
  have hinv := h.fragments hd
  unfold continueVerdict
  rw [continueFrame_plain hsrv hinv.stream, h.message hd]
  cases hstart : s.fragmentStartOpcode with
  | none =>
      simp only [Option.map_none, if_true]
      exact Handled.fail h
  | some binary =>
      simp only [Option.map_some, reduceCtorEq, if_false, Option.getD_some]
      -- the limits of the code are on its counters, those of the reference on the bytes
      have hlength : s.fragments.flatten.length = s.fragmentsLength := hinv.copied
      have hne : s.fragmentStartOpcode ≠ none := by simp [hstart]
      rw [hlength, hpayload]
      by_cases hlarge : websocketMaxInbufferSize ≤ s.fragmentsLength + f.realLength
      · have hlarge' : websocketMaxInbufferSize - s.fragmentsLength ≤ f.realLength := by omega
        rw [if_pos hlarge, if_pos hlarge']
        exact Handled.fail h
      · have hlarge' : ¬ websocketMaxInbufferSize - s.fragmentsLength ≤ f.realLength := by omega
        rw [if_neg hlarge, if_neg hlarge']
        by_cases hmany : websocketMaxFragments ≤ s.fragmentCount
        · have hmany' : websocketMaxFragments < s.fragmentCount + 1 := by omega
          rw [if_pos hmany, if_pos hmany']
          exact Handled.fail h
        · have hmany' : ¬ websocketMaxFragments < s.fragmentCount + 1 := by omega
          rw [if_neg hmany, if_neg hmany']
          have hstored := hinv.store hpayload hne hlarge' hmany'
          -- an empty fragment is not kept, which the joined bytes do not show
          have hbytes : (s.storeFragment f payload).fragments.flatten =
              s.fragments.flatten ++ payload := by
            unfold WsSocket.storeFragment
            dsimp only
            split_ifs with hzero
            · have : payload = [] := List.eq_nil_of_length_eq_zero (hpayload.trans hzero)
              rw [this, List.append_nil]
            · simp
          by_cases hfin : f.fin = true
          · rw [if_pos hfin, if_pos hfin]
            -- the second check of the length of a text never fails
            have hfits : ¬ (binary = false ∧
                websocketMaxInbufferSize ≤ (s.storeFragment f payload).fragmentsLength) := by
              rintro ⟨-, hle⟩
              exact absurd hstored.bound (Nat.not_lt.mpr hle)
            rw [endFragments, if_neg hfits, hbytes]
            exact Handled.complete h rfl hs hd
              (FragmentsInv.empty rfl rfl rfl rfl hstored.stream) rfl
          · rw [if_neg hfin, if_neg hfin]
            refine ⟨fun _ => ⟨h.trace, h.closed, fun _ => hstored, ?_⟩,
              fun hslips => absurd hslips (by simp [Verdict.slips])⟩
            intro _
            show some _ = Option.map _ s.fragmentStartOpcode
            rw [hstart, ← hbytes]
            rfl

/-- A control frame. -/
theorem Follows.controlFrame (h : Follows s d) {f : WebsocketFrame} {payload : List UInt8}
    (hd : d.closed = false) (hpayload : payload.length = f.realLength) {opcode : Nat}
    (hcontrol : opcode = 8 ∨ opcode = 9 ∨ opcode = 10) (hopcode : f.opcode = opcodeNumber opcode) :
    Handled s d (controlVerdict opcode f.fin payload) (controlFrame s f payload) := by
  unfold Websocket.controlFrame controlVerdict
  rw [hpayload]
  by_cases hfin : f.fin = false
  · rw [if_pos hfin, if_pos (Or.inl hfin)]
    exact Handled.fail h
  · rw [if_neg hfin]
    by_cases hlong : 125 < f.realLength
    · rw [if_pos hlong, if_pos (Or.inr hlong)]
      exact Handled.fail h
    · rw [if_neg hlong, if_neg (fun hor => hor.elim hfin hlong), hopcode]
      have hinv := h.fragments hd
      rcases hcontrol with rfl | rfl | rfl
      · exact Handled.fail h
      · refine ⟨fun _ => ⟨congrArg (· ++ [WsEvent.pong payload]) h.trace, h.closed, ?_, ?_⟩,
          fun hslips => absurd hslips (by simp [Verdict.slips])⟩
        · exact fun _ => hinv.congr rfl rfl rfl rfl rfl
        · exact fun _ => h.message hd
      · exact ⟨fun _ => h, fun hslips => absurd hslips (by simp [Verdict.slips])⟩

/-- **One frame**: the code does what the verdict says, or a text slips through. -/
theorem Follows.handleFrame (hsrv : srv.handler = none) (h : Follows s d) (hd : d.closed = false)
    {f : WebsocketFrame} {hdr : FrameHeader} (hm : Matches f hdr) {payload : List UInt8}
    (hpayload : payload.length = f.realLength) :
    Handled s d (verdict d.message hdr payload) (handleFrame srv s f payload) := by
  have hopcode := hm.opcode
  unfold Websocket.handleFrame verdict
  rw [← hm.fin]
  split
  · rename_i h0
    rw [h0] at hopcode
    rw [hopcode]
    exact h.continueFrame hsrv hd hpayload
  · rename_i h1
    rw [h1] at hopcode
    rw [hopcode]
    exact h.dataFrame hsrv hd hpayload false hopcode
  · rename_i h2
    rw [h2] at hopcode
    rw [hopcode]
    exact h.dataFrame hsrv hd hpayload true hopcode
  · rename_i h8
    rw [h8] at hopcode
    rw [hopcode]
    exact h.controlFrame hd hpayload (by simp) hopcode
  · rename_i h9
    rw [h9] at hopcode
    rw [hopcode]
    exact h.controlFrame hd hpayload (by simp) hopcode
  · rename_i h10
    rw [h10] at hopcode
    rw [hopcode]
    exact h.controlFrame hd hpayload (by simp) hopcode
  · rename_i h0 h1 h2 h8 h9 h10
    have hreserved : f.opcode = .wsfReserved := by
      rw [hopcode]
      unfold opcodeNumber
      split <;> simp_all
    rw [hreserved]
    exact Handled.fail h

end CWebUI.Websocket
