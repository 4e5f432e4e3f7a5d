import CWebUI.Websocket.Decoder

set_option autoImplicit false

/-! # Receiving a stream in pieces

However `recv` cuts the bytes of a client, the connection should do what the reference decoder
does with all of them at once. Two slips of the code are in the way. The buffer grows for a
frame whose payload is longer than the buffer, but not for one that only fits without its
header: the buffer is full before the frame is complete, and the next call of `recv`, for no
bytes, ends the connection. And a text that starts with no character passes the check. A stream
without such frames is `receivable`, and this file proves that every run over it agrees with the
reference, and that every run over another stream does not.
-/

namespace CWebUI.Websocket

/-! ## The condition -/

/-- No frame of the stream fills the buffer before it is complete, and no text slips through the
check. `size` is the size of the buffer, which grows for a longer payload. -/
def receivableFrom : Nat → Nat → Decoder → List UInt8 → Bool
  | 0, _, _, _ => true
  | fuel + 1, size, d, bytes =>
      match decodeHeader bytes with
      | .incomplete => true
      | .failed _ => true
      | .header h =>
          if websocketMaxInbufferSize < h.payloadLength then true
          else if h.payloadLength ≤ size ∧ size < h.total ∧ size ≤ bytes.length then false
          else if bytes.length < h.total then true
          else
            let v := verdict d.message h (h.payload bytes)
            !v.slips && ((d.apply v).closed ||
              receivableFrom fuel (if size < h.payloadLength then h.total + 10 else size)
                (d.apply v) (bytes.drop h.total))

/-- The stream can be received by a new connection. -/
def Receivable (stream : List UInt8) : Prop :=
  receivableFrom (stream.length + 1) websocketInitInbufferSize Decoder.init stream = true

instance (stream : List UInt8) : Decidable (Receivable stream) :=
  inferInstanceAs (Decidable (_ = true))

/-! ## The front of a stream -/

/-- A header is at least six bytes long. -/
theorem decodeHeader_length {bytes : List UInt8} {h : FrameHeader}
    (heq : decodeHeader bytes = .header h) : 6 ≤ h.headerLength := by
  unfold decodeHeader at heq
  split at heq
  · dsimp only at heq
    split_ifs at heq
    all_goals
      obtain rfl := HeaderResult.header.inj heq
      dsimp only
      omega
  · cases heq

/-- What follows does not matter to a header that is complete, or that is refused. -/
theorem decodeHeader_append (bytes more : List UInt8) (hdone : decodeHeader bytes ≠ .incomplete) :
    decodeHeader (bytes ++ more) = decodeHeader bytes := by
  match bytes with
  | [] => exact absurd rfl hdone
  | [b] => exact absurd rfl hdone
  | b0 :: b1 :: rest =>
      rw [List.cons_append, List.cons_append]
      unfold decodeHeader at hdone ⊢
      dsimp only at hdone ⊢
      by_cases h1 : b0.toNat / 16 % 8 ≠ 0
      · rw [if_pos h1, if_pos h1]
      · rw [if_neg h1, if_neg h1]
        rw [if_neg h1] at hdone
        by_cases h2 : b1.toNat < 128
        · rw [if_pos h2, if_pos h2]
        · rw [if_neg h2, if_neg h2]
          rw [if_neg h2] at hdone
          generalize extendedLength (b1.toNat % 128) = extended at hdone ⊢
          by_cases h3 : rest.length < extended + 4
          · rw [if_pos h3] at hdone
            exact absurd rfl hdone
          · have h3' : ¬ (rest ++ more).length < extended + 4 := by
              rw [List.length_append]
              omega
            have htake : (rest ++ more).take extended = rest.take extended :=
              List.take_append_of_le_length (by omega)
            have hmask : ((rest ++ more).drop extended).take 4 = (rest.drop extended).take 4 := by
              rw [List.drop_append_of_le_length (by omega),
                List.take_append_of_le_length (by rw [List.length_drop]; omega)]
            rw [if_neg h3, if_neg h3', htake, hmask]

theorem decodeHeader_more {bytes : List UInt8} {h : FrameHeader}
    (hh : decodeHeader bytes = .header h) (more : List UInt8) :
    decodeHeader (bytes ++ more) = .header h := by
  rw [decodeHeader_append _ _ (by rw [hh]; simp), hh]

/-- Without a header there are only a few bytes. -/
theorem decodeHeader_incomplete {bytes : List UInt8} (h : decodeHeader bytes = .incomplete) :
    bytes.length < 14 := by
  match bytes with
  | [] => simp
  | [b] => simp
  | b0 :: b1 :: rest =>
      unfold decodeHeader at h
      dsimp only at h
      have hext : extendedLength (b1.toNat % 128) ≤ 8 := by
        unfold extendedLength
        split_ifs <;> omega
      rw [List.length_cons, List.length_cons]
      by_contra hlong
      have h3 : ¬ rest.length < extendedLength (b1.toNat % 128) + 4 := by omega
      rw [if_neg h3] at h
      split_ifs at h

theorem payload_append {h : FrameHeader} {bytes : List UInt8} (more : List UInt8)
    (hlong : h.total ≤ bytes.length) : h.payload (bytes ++ more) = h.payload bytes := by
  unfold FrameHeader.total at hlong
  unfold FrameHeader.payload
  rw [List.drop_append_of_le_length (by omega),
    List.take_append_of_le_length (by rw [List.length_drop]; omega)]

/-! ## One step of the reference -/

theorem decodeFrom_fuel (fuel fuel' : Nat) (d : Decoder) (bytes : List UInt8)
    (hfuel : bytes.length < fuel) (hfuel' : bytes.length < fuel') :
    decodeFrom fuel d bytes = decodeFrom fuel' d bytes := by
  induction fuel generalizing fuel' d bytes with
  | zero => omega
  | succ fuel ih =>
      cases fuel' with
      | zero => omega
      | succ fuel' =>
          unfold decodeFrom
          cases hh : decodeHeader bytes with
          | incomplete => rfl
          | failed status => rfl
          | header h =>
              have hlen := decodeHeader_length hh
              dsimp only
              split_ifs with hlarge hshort hclosed
              · rfl
              · rfl
              · rfl
              · -- a frame takes at least its header off the stream
                unfold FrameHeader.total at hshort
                apply ih
                all_goals
                  unfold FrameHeader.total
                  rw [List.length_drop]
                  omega

theorem receivableFrom_fuel (fuel fuel' size : Nat) (d : Decoder) (bytes : List UInt8)
    (hfuel : bytes.length < fuel) (hfuel' : bytes.length < fuel') :
    receivableFrom fuel size d bytes = receivableFrom fuel' size d bytes := by
  induction fuel generalizing fuel' size d bytes with
  | zero => omega
  | succ fuel ih =>
      cases fuel' with
      | zero => omega
      | succ fuel' =>
          unfold receivableFrom
          cases hh : decodeHeader bytes with
          | incomplete => rfl
          | failed status => rfl
          | header h =>
              have hlen := decodeHeader_length hh
              dsimp only
              by_cases hshort : bytes.length < h.total
              · rw [if_pos hshort, if_pos hshort]
              · rw [if_neg hshort, if_neg hshort, ih fuel']
                all_goals
                  unfold FrameHeader.total at hshort ⊢
                  rw [List.length_drop]
                  omega

/-- What is left of the reference, from a state between two frames. -/
def decodeRest (d : Decoder) (bytes : List UInt8) : Decoder :=
  decodeFrom (bytes.length + 1) d bytes

/-- What is left of the condition. -/
def receivableRest (size : Nat) (d : Decoder) (bytes : List UInt8) : Bool :=
  receivableFrom (bytes.length + 1) size d bytes

theorem rest_failed {bytes : List UInt8} {status : Nat} (hh : decodeHeader bytes = .failed status)
    (size : Nat) (d : Decoder) :
    decodeRest d bytes = d.fail status ∧ receivableRest size d bytes = true := by
  unfold decodeRest receivableRest decodeFrom receivableFrom
  rw [hh]
  exact ⟨rfl, rfl⟩

section Header

variable {bytes : List UInt8} {h : FrameHeader} (hh : decodeHeader bytes = .header h) (size : Nat)
  (d : Decoder)
include hh

theorem rest_large (hlarge : websocketMaxInbufferSize < h.payloadLength) :
    decodeRest d bytes = d.fail 1009 ∧ receivableRest size d bytes = true := by
  unfold decodeRest receivableRest decodeFrom receivableFrom
  rw [hh]
  dsimp only
  rw [if_pos hlarge, if_pos hlarge]
  exact ⟨rfl, rfl⟩

/-- The buffer is full before the frame is complete. -/
theorem rest_full (hlarge : ¬ websocketMaxInbufferSize < h.payloadLength)
    (hle : h.payloadLength ≤ size) (hlt : size < h.total) (hlong : size ≤ bytes.length) :
    receivableRest size d bytes = false := by
  unfold receivableRest receivableFrom
  rw [hh]
  dsimp only
  rw [if_neg hlarge, if_pos ⟨hle, hlt, hlong⟩]

/-- The frame is not complete, and the buffer is not full. -/
theorem rest_short (hlarge : ¬ websocketMaxInbufferSize < h.payloadLength)
    (hshort : bytes.length < h.total) (hroom : bytes.length < size) :
    decodeRest d bytes = d ∧ receivableRest size d bytes = true := by
  unfold decodeRest receivableRest decodeFrom receivableFrom
  rw [hh]
  dsimp only
  rw [if_neg hlarge, if_neg hlarge, if_pos hshort, if_pos hshort, if_neg (by omega)]
  exact ⟨rfl, rfl⟩

/-- A buffer that has grown for the frame is as good as before. -/
theorem rest_grow (hlarge : ¬ websocketMaxInbufferSize < h.payloadLength)
    (hsize : size < h.payloadLength) :
    receivableRest size d bytes = receivableRest (h.total + 10) d bytes := by
  -- neither buffer is one that fills, the old for its size, the new for its room
  have hno : ¬ (h.payloadLength ≤ size ∧ size < h.total ∧ size ≤ bytes.length) := by omega
  have hno' : ¬ (h.payloadLength ≤ h.total + 10 ∧ h.total + 10 < h.total ∧
      h.total + 10 ≤ bytes.length) := by omega
  have hgrown : ¬ h.total + 10 < h.payloadLength := by
    unfold FrameHeader.total
    omega
  unfold receivableRest receivableFrom
  rw [hh]
  dsimp only
  rw [if_neg hlarge, if_neg hlarge, if_neg hno, if_neg hno', if_pos hsize, if_neg hgrown]

/-- A complete frame that the buffer can hold. -/
theorem rest_frame (hlarge : ¬ websocketMaxInbufferSize < h.payloadLength)
    (hlong : h.total ≤ bytes.length) :
    let d' := d.apply (verdict d.message h (h.payload bytes))
    decodeRest d bytes = if d'.closed then d' else decodeRest d' (bytes.drop h.total) := by
  intro d'
  have hlen := decodeHeader_length hh
  have hshort : ¬ bytes.length < h.total := Nat.not_lt.mpr hlong
  unfold decodeRest
  rw [decodeFrom, hh]
  dsimp only
  rw [if_neg hlarge, if_neg hshort]
  congr 1
  apply decodeFrom_fuel
  all_goals
    unfold FrameHeader.total at hlong ⊢
    rw [List.length_drop]
    omega

theorem receivable_frame (hlarge : ¬ websocketMaxInbufferSize < h.payloadLength)
    (hlong : h.total ≤ bytes.length) (hfits : h.total ≤ size) :
    let v := verdict d.message h (h.payload bytes)
    receivableRest size d bytes = (!v.slips && ((d.apply v).closed ||
      receivableRest size (d.apply v) (bytes.drop h.total))) := by
  intro v
  have hlen := decodeHeader_length hh
  have hshort : ¬ bytes.length < h.total := Nat.not_lt.mpr hlong
  have hno : ¬ (h.payloadLength ≤ size ∧ size < h.total ∧ size ≤ bytes.length) := by omega
  have hsame : ¬ size < h.payloadLength := by
    unfold FrameHeader.total at hfits
    omega
  unfold receivableRest
  rw [receivableFrom, hh]
  dsimp only
  rw [if_neg hlarge, if_neg hno, if_neg hshort, if_neg hsame]
  rw [receivableFrom_fuel bytes.length ((bytes.drop h.total).length + 1)]
  all_goals
    unfold FrameHeader.total at hlong ⊢
    rw [List.length_drop]
    omega

end Header

/-! ## What a frame leaves alone -/

/-- From `s` to `s'` the connection has done more; what is still to come, and the buffer, are
the same. -/
structure Extends (s s' : WsSocket) : Prop where
  stream : s'.stream = s.stream
  unread : s'.unread = s.unread
  bufferSize : s'.bufferSize = s.bufferSize
  trace : s.trace <+: s'.trace
  inCall : s'.closed = false → s'.inCall = s.inCall

theorem Extends.refl (s : WsSocket) : Extends s s :=
  ⟨rfl, rfl, rfl, List.prefix_rfl, fun _ => rfl⟩

theorem Extends.emit (s : WsSocket) (e : WsEvent) : Extends s (s.emit e) :=
  ⟨rfl, rfl, rfl, List.prefix_append _ _, fun _ => rfl⟩

theorem Extends.closeWith (s : WsSocket) (status : Nat) : Extends s (s.closeWith status) :=
  ⟨rfl, rfl, rfl, List.prefix_append _ _, fun h => absurd h (by simp [WsSocket.closeWith])⟩

theorem Extends.deliver (s : WsSocket) (binary : Bool) (msg : List UInt8) :
    Extends s (s.deliver binary msg) := by
  unfold WsSocket.deliver
  split_ifs
  · exact Extends.emit s _
  · exact Extends.closeWith s _
  · exact Extends.emit s _

variable {srv : WsServer} {stream : List UInt8} {s : WsSocket} {d : Decoder}

theorem Extends.dataFrame (hsrv : srv.handler = none) (s : WsSocket) (f : WebsocketFrame)
    (payload : List UInt8) : Extends s (dataFrame srv s f payload) := by
  unfold Websocket.dataFrame
  rw [hsrv]
  dsimp only
  split_ifs
  · exact Extends.closeWith s _
  · exact Extends.closeWith s _
  · exact Extends.deliver s _ _
  · exact Extends.closeWith s _
  · exact ⟨rfl, rfl, rfl, List.prefix_rfl, fun _ => rfl⟩

theorem Extends.continueFrame (hsrv : srv.handler = none) (hstream : s.stream = none)
    (f : WebsocketFrame) (payload : List UInt8) :
    Extends s (continueFrame srv s f payload) := by
  have hstored : Extends s (s.storeFragment f payload) :=
    ⟨rfl, rfl, rfl, List.prefix_rfl, fun _ => rfl⟩
  rw [continueFrame_plain hsrv hstream]
  split_ifs
  · exact Extends.closeWith s _
  · exact Extends.closeWith s _
  · exact Extends.closeWith s _
  · unfold endFragments
    split_ifs
    · obtain ⟨h1, h2, h3, h4, h5⟩ := Extends.closeWith (s.storeFragment f payload) 1000
      exact ⟨h1, h2, h3, h4, h5⟩
    · obtain ⟨h1, h2, h3, h4, h5⟩ := Extends.deliver
        { s.storeFragment f payload with
          fragments := []
          fragmentStartOpcode := none
          fragmentsLength := 0
          fragmentCount := 0 }
        (s.fragmentStartOpcode.getD false) (s.storeFragment f payload).fragments.flatten
      exact ⟨h1, h2, h3, h4, h5⟩
  · exact hstored

theorem Extends.controlFrame (s : WsSocket) (f : WebsocketFrame) (payload : List UInt8) :
    Extends s (controlFrame s f payload) := by
  unfold Websocket.controlFrame
  split_ifs
  · exact Extends.closeWith s _
  · exact Extends.closeWith s _
  · split
    · exact Extends.closeWith s _
    · exact Extends.emit s _
    · exact Extends.refl s

theorem Extends.handleFrame (hsrv : srv.handler = none) (hstream : s.stream = none)
    (f : WebsocketFrame) (payload : List UInt8) : Extends s (handleFrame srv s f payload) := by
  unfold Websocket.handleFrame
  cases f.opcode with
  | wsfText | wsfBinary => exact Extends.dataFrame hsrv s f payload
  | wsfContinue => exact Extends.continueFrame hsrv hstream f payload
  | wsfClose | wsfPing | wsfPong => exact Extends.controlFrame s f payload
  | wsfReserved => exact Extends.closeWith s 1002

/-! ## Runs and the reference -/

/-- The connection agrees with the reference on the whole stream. -/
def Agrees (stream : List UInt8) (s : WsSocket) : Prop :=
  s.trace = (decode stream).trace ∧ s.closed = (decode stream).closed

/-- Nothing more will happen: the connection is closed, or everything has been read and the call
has returned. -/
def Settled (s : WsSocket) : Prop := s.closed = true ∨ (s.inCall = false ∧ s.unread = [])

/-- An event of the end of a connection. -/
def WsEvent.isClose : WsEvent → Bool
  | .close _ => true
  | _ => false

/-- The decoder is closed exactly if it has said so. -/
def Decoder.Sound (d : Decoder) : Prop := d.closed = d.trace.any WsEvent.isClose

theorem Decoder.Sound.fail (d : Decoder) (status : Nat) : (d.fail status).Sound := by
  simp [Decoder.Sound, Decoder.fail, WsEvent.isClose]

theorem Decoder.Sound.apply (h : d.Sound) (v : Verdict) : (d.apply v).Sound := by
  unfold Decoder.Sound at h
  cases v with
  | fail status => exact Decoder.Sound.fail d status
  | complete binary bytes =>
      show (d.deliver binary bytes).Sound
      unfold Decoder.deliver
      split_ifs
      · simpa [Decoder.Sound, WsEvent.isClose] using h
      · simpa [Decoder.Sound, WsEvent.isClose] using h
      · exact Decoder.Sound.fail d 1007
  | gather m => exact h
  | pong payload => simpa [Decoder.Sound, Decoder.apply, WsEvent.isClose] using h
  | ignore => exact h

/-- Where a connection stands in the stream, between two frames: it follows the decoder, and
what is left for it is in the buffer and still to come. -/
structure Tracks (stream : List UInt8) (s : WsSocket) (d : Decoder) : Prop where
  follows : Follows s d
  isOpen : d.closed = false
  sound : d.Sound
  rest : decode stream = decodeRest d (s.websocketBuffer ++ s.unread)
  able : Receivable stream ↔
    receivableRest s.bufferSize d (s.websocketBuffer ++ s.unread) = true
  size : websocketInitInbufferSize ≤ s.bufferSize

/-- The connection needs more bytes, and the buffer has room for them unless the frame is one
that only fits without its header. -/
structure Waits (s : WsSocket) : Prop where
  room : s.websocketBuffer.length ≤ s.bufferSize
  idle : s.inCall = false → s.websocketBuffer.length < s.bufferSize
  front : decodeHeader s.websocketBuffer = .incomplete ∨
    ∃ h, decodeHeader s.websocketBuffer = .header h ∧
      ¬ websocketMaxInbufferSize < h.payloadLength ∧ s.websocketBuffer.length < h.total ∧
      (s.bufferSize < h.payloadLength → s.websocketBuffer.length < s.bufferSize)

/-- The connection is closed like the decoder. -/
structure Ended (stream : List UInt8) (s : WsSocket) : Prop where
  closed : s.closed = true
  agrees : Agrees stream s
  able : Receivable stream

/-- The connection has done something that the decoder does not do, or has ended without a word. -/
structure Lost (stream : List UInt8) (s : WsSocket) : Prop where
  unstreamed : s.stream = none
  unable : ¬ Receivable stream
  differs : (s.closed = true ∧ s.trace.any WsEvent.isClose = false) ∨
    ∃ t msg, t ++ [.message false msg] <+: s.trace ∧ t ++ [.close 1007] <+: (decode stream).trace

/-- What holds of a connection after every call of `recv`. -/
def ReceiveInv (stream : List UInt8) (s : WsSocket) : Prop :=
  (∃ d, Tracks stream s d ∧ Waits s) ∨ Ended stream s ∨ Lost stream s

/-! ## The loop over the frames -/

/-- Whatever a round does, it does not read, and what has been done stays done. -/
theorem frameRound_extends (hsrv : srv.handler = none) (hstream : s.stream = none) {base : Nat}
    {s' : WsSocket} (hround : frameRound srv s base = .stop s' ∨
      ∃ base', frameRound srv s base = .next s' base') :
    s'.stream = none ∧ s'.unread = s.unread ∧ s.trace <+: s'.trace := by
  have hsame : s.stream = none ∧ s.unread = s.unread ∧ s.trace <+: s.trace :=
    ⟨hstream, rfl, List.prefix_rfl⟩
  have hclose : ∀ status, (s.closeWith status).stream = none ∧
      (s.closeWith status).unread = s.unread ∧ s.trace <+: (s.closeWith status).trace :=
    fun status => ⟨hstream, rfl, List.prefix_append _ _⟩
  rw [frameRound_plain hsrv] at hround
  split at hround
  · obtain rfl : s = s' := by simpa using hround
    exact hsame
  · rename_i status _
    obtain rfl : s.closeWith status = s' := by simpa using hround
    exact hclose status
  · rename_i f _
    have hframe := Extends.handleFrame hsrv hstream f
      (unmask f.mask 0 ((s.websocketBuffer.drop f.headerLength).take f.realLength))
    rcases wholeFrame_cases srv s f base with heq | ⟨size, heq⟩ | ⟨-, heq | ⟨heq, -⟩⟩
    · obtain rfl : s.closeWith 1009 = s' := by simpa [heq] using hround
      exact hclose 1009
    · obtain rfl : { s with bufferSize := size } = s' := by simpa [heq] using hround
      exact hsame
    · obtain rfl : s.handled srv f = s' := by simpa [heq] using hround
      exact ⟨hframe.stream.trans hstream, hframe.unread, hframe.trace⟩
    · obtain rfl : s.handled srv f = s' := by simpa [heq] using hround
      exact ⟨hframe.stream.trans hstream, hframe.unread, hframe.trace⟩

theorem frameLoop_extends (hsrv : srv.handler = none) (fuel : Nat) {s : WsSocket} (base : Nat)
    (hstream : s.stream = none) :
    (frameLoop srv fuel s base).stream = none ∧ (frameLoop srv fuel s base).unread = s.unread ∧
      s.trace <+: (frameLoop srv fuel s base).trace := by
  induction fuel generalizing s base with
  | zero => exact ⟨hstream, rfl, List.prefix_rfl⟩
  | succ fuel ih =>
      unfold frameLoop
      cases hround : frameRound srv s base with
      | stop s' =>
          exact frameRound_extends hsrv hstream (Or.inl hround)
      | next s' base' =>
          obtain ⟨h1, h2, h3⟩ := frameRound_extends hsrv hstream (Or.inr ⟨base', hround⟩)
          obtain ⟨h4, h5, h6⟩ := ih base' h1
          exact ⟨h4, h5.trans h2, h3.trans h6⟩

/-- What the code did wrong stays wrong. -/
theorem Lost.extend {s' : WsSocket} (h : Lost stream s) (hclosed : s.closed = false)
    (hstream : s'.stream = none) (htrace : s.trace <+: s'.trace) : Lost stream s' := by
  refine ⟨hstream, h.unable, ?_⟩
  rcases h.differs with ⟨hc, -⟩ | ⟨t, msg, hcode, href⟩
  · exact absurd (hclosed.symm.trans hc) (by decide)
  · exact Or.inr ⟨t, msg, hcode.trans htrace, href⟩

theorem Matches.total {f : WebsocketFrame} {h : FrameHeader} (hm : Matches f h) :
    f.total = h.total := by
  unfold WebsocketFrame.total FrameHeader.total
  rw [hm.headerLength, hm.realLength]

/-- **A complete frame**: the connection goes on behind it like the decoder, ends like the
decoder, or is lost. -/
theorem Tracks.handled (hsrv : srv.handler = none) (h : Tracks stream s d) {f : WebsocketFrame}
    {hdr : FrameHeader} (hm : Matches f hdr) (hh : decodeHeader s.websocketBuffer = .header hdr)
    (hlarge : ¬ websocketMaxInbufferSize < hdr.payloadLength)
    (hlong : hdr.total ≤ s.websocketBuffer.length) (hroom : s.websocketBuffer.length ≤ s.bufferSize) :
    (∃ d', Tracks stream (s.handled srv f) d') ∨ Ended stream (s.handled srv f) ∨
      Lost stream (s.handled srv f) := by
  have hstream := (h.follows.fragments h.isOpen).stream
  have hpayload : hdr.payload (s.websocketBuffer ++ s.unread) =
      unmask f.mask 0 ((s.websocketBuffer.drop f.headerLength).take f.realLength) := by
    rw [payload_append s.unread hlong, FrameHeader.payload, hm.mask, hm.headerLength, hm.realLength]
  have hlength : (unmask f.mask 0
      ((s.websocketBuffer.drop f.headerLength).take f.realLength)).length = f.realLength := by
    have htotal := hm.total
    unfold WebsocketFrame.total at htotal
    rw [unmask_length, List.length_take, List.length_drop]
    omega
  have hdrop : (s.websocketBuffer ++ s.unread).drop hdr.total =
      s.websocketBuffer.drop f.total ++ s.unread := by
    rw [hm.total, List.drop_append_of_le_length hlong]
  have hh' := decodeHeader_more hh s.unread
  have hlong' : hdr.total ≤ (s.websocketBuffer ++ s.unread).length := by
    rw [List.length_append]
    omega
  have hframe := Extends.handleFrame hsrv hstream f
    (unmask f.mask 0 ((s.websocketBuffer.drop f.headerLength).take f.realLength))
  have hrest := rest_frame hh' d hlarge hlong'
  have hable := receivable_frame hh' s.bufferSize d hlarge hlong' (Nat.le_trans hlong hroom)
  obtain ⟨hsame, hslip⟩ := h.follows.handleFrame hsrv h.isOpen hm hlength
  dsimp only at hrest hable
  rw [hpayload, hdrop] at hrest hable
  -- from here on only the verdict matters
  generalize verdict d.message hdr
    (unmask f.mask 0 ((s.websocketBuffer.drop f.headerLength).take f.realLength)) = v at *
  cases hv : v.slips with
  | true =>
      -- the code delivers a text that the decoder refuses
      obtain ⟨⟨msg, htrace⟩, hfail⟩ := hslip hv
      refine Or.inr (Or.inr ⟨hframe.stream.trans hstream, ?_, Or.inr ⟨d.trace, msg, ?_, ?_⟩⟩)
      · rw [h.able, hable, hv]
        simp
      · rw [← h.follows.trace, ← htrace]
        exact List.prefix_rfl
      · have hclosed : (d.apply v).closed = true := by rw [hfail]; rfl
        rw [h.rest, hrest, if_pos hclosed, hfail]
        exact List.prefix_rfl
  | false =>
      have hfollows := hsame hv
      rw [hv] at hable
      cases hc : (d.apply v).closed with
      | true =>
          refine Or.inr (Or.inl ⟨hfollows.closed.trans hc, ⟨?_, ?_⟩, ?_⟩)
          · rw [h.rest, hrest, if_pos hc]
            exact hfollows.trace
          · rw [h.rest, hrest, if_pos hc]
            exact hfollows.closed
          · rw [h.able, hable, hc]
            rfl
      | false =>
          refine Or.inl ⟨d.apply v, ⟨hfollows.trace, hfollows.closed, ?_, hfollows.message⟩, hc,
            h.sound.apply v, ?_, ?_, ?_⟩
          · exact fun hopen => (hfollows.fragments hopen).congr rfl rfl rfl rfl rfl
          · rw [h.rest, hrest, if_neg (by simp [hc])]
            show _ = decodeRest _ (s.websocketBuffer.drop f.total ++ _)
            rw [show (s.handled srv f).unread = s.unread from hframe.unread]
          · rw [h.able, hable, hc]
            show _ ↔ receivableRest (s.handled srv f).bufferSize _
              (s.websocketBuffer.drop f.total ++ (s.handled srv f).unread) = true
            rw [show (s.handled srv f).unread = s.unread from hframe.unread,
              show (s.handled srv f).bufferSize = s.bufferSize from hframe.bufferSize]
            simp
          · exact Nat.le_trans h.size (Nat.le_of_eq hframe.bufferSize.symm)

/-- The connection is closed, and so is the decoder. -/
theorem Tracks.fail (h : Tracks stream s d) {status : Nat}
    (hrest : decodeRest d (s.websocketBuffer ++ s.unread) = d.fail status ∧
      receivableRest s.bufferSize d (s.websocketBuffer ++ s.unread) = true) :
    Ended stream (s.closeWith status) := by
  have hfollows := Follows.fail status h.follows.trace
  refine ⟨rfl, ⟨?_, ?_⟩, h.able.mpr hrest.2⟩
  · rw [h.rest, hrest.1]
    exact hfollows.trace
  · rw [h.rest, hrest.1]
    exact hfollows.closed

/-- The buffer grows for the frame at its front. -/
theorem Tracks.grow (h : Tracks stream s d) {hdr : FrameHeader}
    (hh : decodeHeader (s.websocketBuffer ++ s.unread) = .header hdr)
    (hlarge : ¬ websocketMaxInbufferSize < hdr.payloadLength)
    (hgrow : s.bufferSize < hdr.payloadLength) :
    Tracks stream { s with bufferSize := hdr.total + 10 } d := by
  refine ⟨⟨h.follows.trace, h.follows.closed, ?_, h.follows.message⟩, h.isOpen, h.sound, h.rest, ?_, ?_⟩
  · exact fun hopen => (h.follows.fragments hopen).congr rfl rfl rfl rfl rfl
  · rw [h.able, rest_grow hh s.bufferSize d hlarge hgrow]
  · have hsize := h.size
    unfold FrameHeader.total
    show _ ≤ hdr.headerLength + hdr.payloadLength + 10
    omega

/-- What a round of the loop leaves: a connection that waits or has ended, or one with a shorter
buffer, for the next round. -/
def RoundInv (stream : List UInt8) (s : WsSocket) : FrameLoop → Prop
  | .stop s' => ReceiveInv stream s'
  | .next s' base => s'.closed = false ∧ s'.websocketBuffer.length < s.websocketBuffer.length ∧
      ((∃ d, Tracks stream s' d ∧ s'.inCall = true ∧
        base + s'.websocketBuffer.length ≤ s'.bufferSize) ∨ Lost stream s')

/-- A frame that is not complete. It may make the buffer grow, while nothing has been handled
before it in this call. -/
theorem Tracks.shortFrame (h : Tracks stream s d) {f : WebsocketFrame} {hdr : FrameHeader}
    (hm : Matches f hdr) (hh : decodeHeader s.websocketBuffer = .header hdr) {base : Nat}
    (hcall : s.inCall = true) (hroom : base + s.websocketBuffer.length ≤ s.bufferSize)
    (hlarge : ¬ websocketMaxInbufferSize < hdr.payloadLength)
    (hshort : s.websocketBuffer.length < hdr.total) :
    RoundInv stream s (wholeFrame srv s f base) := by
  have hh' := decodeHeader_more hh s.unread
  unfold wholeFrame
  rw [if_neg (hm.realLength ▸ hlarge), if_pos (hm.total ▸ hshort)]
  by_cases hgrow : base = 0 ∧ s.bufferSize < hdr.payloadLength
  · rw [if_pos (hm.realLength ▸ hgrow), hm.total]
    refine Or.inl ⟨d, h.grow hh' hlarge hgrow.2, ?_, ?_, Or.inr ⟨hdr, hh, hlarge, hshort, ?_⟩⟩
    · show s.websocketBuffer.length ≤ hdr.total + 10
      omega
    · exact fun hno => absurd (hcall.symm.trans hno) (by decide)
    · intro hlt
      have hlt' : hdr.total + 10 < hdr.payloadLength := hlt
      unfold FrameHeader.total at hlt'
      omega
  · rw [if_neg (hm.realLength ▸ hgrow)]
    refine Or.inl ⟨d, h, by omega, ?_, Or.inr ⟨hdr, hh, hlarge, hshort, ?_⟩⟩
    · exact fun hno => absurd (hcall.symm.trans hno) (by decide)
    · intro hlt
      -- frames before this one leave room when they are moved out
      have hbase : base ≠ 0 := fun hzero => hgrow ⟨hzero, hlt⟩
      omega

/-- A frame that is complete. -/
theorem Tracks.completeFrame (hsrv : srv.handler = none) (h : Tracks stream s d)
    {f : WebsocketFrame} {hdr : FrameHeader} (hm : Matches f hdr)
    (hh : decodeHeader s.websocketBuffer = .header hdr) {base : Nat} (hcall : s.inCall = true)
    (hroom : base + s.websocketBuffer.length ≤ s.bufferSize)
    (hlarge : ¬ websocketMaxInbufferSize < hdr.payloadLength)
    (hlong : hdr.total ≤ s.websocketBuffer.length) :
    RoundInv stream s (wholeFrame srv s f base) := by
  have hstream := (h.follows.fragments h.isOpen).stream
  have hframe := Extends.handleFrame hsrv hstream f
    (unmask f.mask 0 ((s.websocketBuffer.drop f.headerLength).take f.realLength))
  have hpos : 6 ≤ hdr.total := Nat.le_trans (decodeHeader_length hh) (Nat.le_add_right _ _)
  have hlength : (s.handled srv f).websocketBuffer.length = s.websocketBuffer.length - hdr.total := by
    rw [← hm.total]
    exact List.length_drop
  have hwhole : wholeFrame srv s f base =
      if (s.handled srv f).closed = true ∨ (s.handled srv f).websocketBuffer = [] then
        .stop (s.handled srv f)
      else .next (s.handled srv f) (base + hdr.total) := by
    unfold wholeFrame
    rw [if_neg (hm.realLength ▸ hlarge), if_neg (hm.total ▸ Nat.not_lt.mpr hlong), ← hm.total]
    rfl
  rw [hwhole]
  rcases h.handled hsrv hm hh hlarge hlong (by omega) with ⟨d', htracks⟩ | hended | hlost
  · have hopen : (s.handled srv f).closed = false := htracks.follows.closed.trans htracks.isOpen
    have hcall' : (s.handled srv f).inCall = true := (hframe.inCall hopen).trans hcall
    by_cases hnil : (s.handled srv f).websocketBuffer = []
    · rw [if_pos (Or.inr hnil)]
      refine Or.inl ⟨d', htracks, ?_, ?_, Or.inl ?_⟩
      · rw [hnil]
        exact Nat.zero_le _
      · exact fun hno => absurd (hcall'.symm.trans hno) (by decide)
      · rw [hnil]
        rfl
    · rw [if_neg (fun hor => hor.elim (by simp [hopen]) hnil)]
      have hsize : (s.handled srv f).bufferSize = s.bufferSize := hframe.bufferSize
      exact ⟨hopen, by omega, Or.inl ⟨d', htracks, hcall', by omega⟩⟩
  · rw [if_pos (Or.inl hended.closed)]
    exact Or.inr (Or.inl hended)
  · by_cases hstop : (s.handled srv f).closed = true ∨ (s.handled srv f).websocketBuffer = []
    · rw [if_pos hstop]
      exact Or.inr (Or.inr hlost)
    · rw [if_neg hstop]
      exact ⟨by simpa using (not_or.mp hstop).1, by omega, Or.inr hlost⟩

/-- **One round of the loop**, by what the header says. -/
theorem Tracks.frameRound (hsrv : srv.handler = none) (h : Tracks stream s d) {base : Nat}
    (hcall : s.inCall = true) (hroom : base + s.websocketBuffer.length ≤ s.bufferSize) :
    RoundInv stream s (frameRound srv s base) := by
  rw [frameRound_plain hsrv]
  rcases scanHeader_decodeHeader s.websocketBuffer with ⟨hscan, hh⟩ | ⟨status, hscan, hh⟩ |
    ⟨f, hdr, hscan, hh, hm⟩
  · rw [hscan]
    have hidle : s.inCall = false → s.websocketBuffer.length < s.bufferSize :=
      fun hno => absurd (hcall.symm.trans hno) (by decide)
    exact Or.inl ⟨d, h, by omega, hidle, Or.inl hh⟩
  · rw [hscan]
    have hh' : decodeHeader (s.websocketBuffer ++ s.unread) = .failed status := by
      rw [decodeHeader_append _ _ (by rw [hh]; simp), hh]
    exact Or.inr (Or.inl (h.fail (rest_failed hh' s.bufferSize d)))
  · rw [hscan]
    dsimp only
    by_cases hlarge : websocketMaxInbufferSize < hdr.payloadLength
    · have hh' := decodeHeader_more hh s.unread
      unfold wholeFrame
      rw [if_pos (hm.realLength ▸ hlarge)]
      exact Or.inr (Or.inl (h.fail (rest_large hh' s.bufferSize d hlarge)))
    · by_cases hshort : s.websocketBuffer.length < hdr.total
      · exact h.shortFrame hm hh hcall hroom hlarge hshort
      · exact h.completeFrame hsrv hm hh hcall hroom hlarge (Nat.not_lt.mp hshort)

/-- **The loop over the frames in the buffer.** -/
theorem Tracks.frameLoop (hsrv : srv.handler = none) (fuel : Nat) {s : WsSocket} {d : Decoder}
    (base : Nat) (h : Tracks stream s d) (hcall : s.inCall = true)
    (hroom : base + s.websocketBuffer.length ≤ s.bufferSize)
    (hfuel : s.websocketBuffer.length < fuel) :
    ReceiveInv stream (frameLoop srv fuel s base) := by
  induction fuel generalizing s d base with
  | zero => omega
  | succ fuel ih =>
      have hround := h.frameRound hsrv hcall hroom
      unfold Websocket.frameLoop
      cases hres : Websocket.frameRound srv s base with
      | stop s' =>
          rw [hres] at hround
          exact hround
      | next s' base' =>
          rw [hres] at hround
          obtain ⟨hopen, hless, ⟨d', htracks, hcall', hroom'⟩ | hlost⟩ := hround
          · exact ih base' htracks hcall' hroom' (by omega)
          · obtain ⟨hnone, -, htrace⟩ := frameLoop_extends hsrv fuel base' hlost.unstreamed
            exact Or.inr (Or.inr (hlost.extend hopen hnone htrace))

/-! ## Whole runs -/

/-- A full buffer: the frame in it only fits without its header. -/
theorem Tracks.full (h : Tracks stream s d) (hw : Waits s)
    (hfull : s.bufferSize - s.websocketBuffer.length = 0) :
    Lost stream { s with closed := true, inCall := false } := by
  have hsize := h.size
  have hroom := hw.room
  refine ⟨(h.follows.fragments h.isOpen).stream, ?_, Or.inl ⟨rfl, ?_⟩⟩
  · rcases hw.front with hh | ⟨hdr, hh, hlarge, hshort, hgrown⟩
    · -- a header alone cannot fill the buffer
      have hlen := decodeHeader_incomplete hh
      unfold websocketInitInbufferSize at hsize
      omega
    · have hh' := decodeHeader_more hh s.unread
      -- for a longer payload the buffer would have grown
      have hle : hdr.payloadLength ≤ s.bufferSize := by
        by_contra hlt
        have := hgrown (Nat.not_le.mp hlt)
        omega
      have hunable := rest_full hh' s.bufferSize d hlarge hle (by omega)
        (by rw [List.length_append]; omega)
      rw [h.able, hunable]
      decide
  · have hsound : d.closed = d.trace.any WsEvent.isClose := h.sound
    show s.trace.any WsEvent.isClose = false
    rw [h.follows.trace, ← hsound]
    exact h.isOpen

theorem Tracks.received (h : Tracks stream s d) (n : Nat) : Tracks stream (s.received n) d := by
  have hbytes : (s.received n).websocketBuffer ++ (s.received n).unread =
      s.websocketBuffer ++ s.unread := by
    show s.websocketBuffer ++ s.unread.take n ++ s.unread.drop n = _
    rw [List.append_assoc, List.take_append_drop]
  refine ⟨⟨h.follows.trace, h.follows.closed, ?_, h.follows.message⟩, h.isOpen, h.sound, ?_, ?_, h.size⟩
  · exact fun hopen => (h.follows.fragments hopen).congr rfl rfl rfl rfl rfl
  · rw [hbytes]
    exact h.rest
  · rw [hbytes]
    exact h.able

/-- **One call of `recv`.** -/
theorem ReceiveInv.recFrame (hsrv : srv.handler = none) (h : ReceiveInv stream s) (n : Nat) :
    ReceiveInv stream (recFrame srv s n) := by
  by_cases hclosed : s.closed = true
  · simpa [Websocket.recFrame, hclosed] using h
  · have hopen : s.closed = false := by simpa using hclosed
    rw [recFrame_reads (Or.inr (Or.inr hsrv)) hopen]
    rcases h with ⟨d, h, hw⟩ | hended | hlost
    · split_ifs with hfull hnone
      · exact Or.inr (Or.inr (h.full hw hfull))
      · refine Or.inl ⟨d, ⟨⟨h.follows.trace, h.follows.closed, ?_, h.follows.message⟩, h.isOpen,
          h.sound, h.rest, h.able, h.size⟩, hw.room, ?_, hw.front⟩
        · exact fun hopen => (h.follows.fragments hopen).congr rfl rfl rfl rfl rfl
        · intro _
          show s.websocketBuffer.length < s.bufferSize
          omega
      · refine (h.received _).frameLoop hsrv _ 0 rfl ?_ (Nat.lt_succ_self _)
        have hroom := hw.room
        show 0 + (s.websocketBuffer ++ s.unread.take _).length ≤ s.bufferSize
        rw [List.length_append, List.length_take, List.length_take]
        omega
    · exact absurd hended.closed hclosed
    · refine Or.inr (Or.inr ?_)
      split_ifs with hfull hnone
      · refine ⟨hlost.unstreamed, hlost.unable, ?_⟩
        rcases hlost.differs with ⟨hc, -⟩ | hdiffers
        · exact absurd hc hclosed
        · exact Or.inr hdiffers
      · exact ⟨hlost.unstreamed, hlost.unable, hlost.differs⟩
      · have hstream : (s.received (s.unread.take (min n
            (s.bufferSize - s.websocketBuffer.length))).length).stream = none := hlost.unstreamed
        obtain ⟨hnone, -, htrace⟩ := frameLoop_extends hsrv _ 0 hstream
        exact hlost.extend hopen hnone htrace

theorem ReceiveInv.run (hsrv : srv.handler = none) (ns : List Nat) (h : ReceiveInv stream s) :
    ReceiveInv stream (runWebsocket srv s ns) := by
  induction ns generalizing s with
  | nil => exact h
  | cons n ns ih => exact ih (h.recFrame hsrv n)

theorem recFrame_closed (hclosed : s.closed = true) (n : Nat) : recFrame srv s n = s := by
  unfold recFrame
  rw [if_pos hclosed]

theorem ReceiveInv.unstreamed (h : ReceiveInv stream s) (hopen : s.closed = false) :
    s.stream = none := by
  rcases h with ⟨d, h, -⟩ | hended | hlost
  · exact (h.follows.fragments h.isOpen).stream
  · exact absurd (hopen.symm.trans hended.closed) (by decide)
  · exact hlost.unstreamed

/-- A call of `recv` that may give something takes something, or the connection is closed. -/
def Reads (s : WsSocket) (n : Nat) (s' : WsSocket) : Prop :=
  s'.closed = true ∨ s'.unread.length ≤ s.unread.length - min n 1

/-- Enough calls that may give something read everything, if each of them takes what it may. -/
theorem drained_of_reads {P : WsSocket → List Nat → Prop}
    (hstep : ∀ s n ns, P s (n :: ns) → P (recFrame srv s n) ns ∧ Reads s n (recFrame srv s n))
    (ns : List Nat) (h : P s ns)
    (hreads : s.closed = true ∨ s.unread.length ≤ (ns.filter (0 < ·)).length) :
    (runWebsocket srv s ns).closed = true ∨ (runWebsocket srv s ns).unread = [] := by
  induction ns generalizing s with
  | nil =>
      rcases hreads with hclosed | hlen
      · exact Or.inl hclosed
      · exact Or.inr (List.eq_nil_of_length_eq_zero (Nat.le_zero.mp hlen))
  | cons n ns ih =>
      obtain ⟨hrest, hread⟩ := hstep s n ns h
      refine ih hrest ?_
      rcases hreads with hclosed | hlen
      · rw [recFrame_closed hclosed]
        exact Or.inl hclosed
      · -- what is left to read goes down with the calls that may give something
        rcases hread with hclosed | hless
        · exact Or.inl hclosed
        · refine Or.inr (Nat.le_trans hless ?_)
          rw [List.filter_cons] at hlen
          by_cases hn : 0 < n
          · rw [if_pos (decide_eq_true hn), List.length_cons] at hlen
            omega
          · rw [if_neg (by simpa using hn)] at hlen
            omega

theorem ReceiveInv.progress (hsrv : srv.handler = none) (h : ReceiveInv stream s) (n : Nat) :
    Reads s n (Websocket.recFrame srv s n) := by
  by_cases hclosed : s.closed = true
  · rw [recFrame_closed hclosed]
    exact Or.inl hclosed
  · have hopen : s.closed = false := by simpa using hclosed
    rw [recFrame_reads (Or.inr (Or.inr hsrv)) hopen]
    split_ifs with hfull hnone
    · exact Or.inl rfl
    · refine Or.inr ?_
      have hzero := congrArg List.length hnone
      rw [List.length_take, List.length_nil] at hzero
      show s.unread.length ≤ _
      omega
    · refine Or.inr ?_
      have hstream := h.unstreamed hopen
      have hpos : 0 < (s.unread.take (min n (s.bufferSize - s.websocketBuffer.length))).length :=
        List.length_pos_iff.mpr hnone
      dsimp only
      rw [(frameLoop_extends hsrv _ 0 (s := s.received _) hstream).2.1]
      show (s.unread.drop _).length ≤ _
      rw [List.length_drop]
      omega

theorem ReceiveInv.drained (hsrv : srv.handler = none) (ns : List Nat) (h : ReceiveInv stream s)
    (hreads : s.closed = true ∨ s.unread.length ≤ (ns.filter (0 < ·)).length) :
    (runWebsocket srv s ns).closed = true ∨ (runWebsocket srv s ns).unread = [] :=
  drained_of_reads (P := fun s _ => ReceiveInv stream s)
    (fun _ n _ hinv => ⟨hinv.recFrame hsrv n, hinv.progress hsrv n⟩) ns h hreads

end CWebUI.Websocket
