import CWebUI.Websocket.Callbacks
import CWebUI.Websocket.Segmentation

set_option autoImplicit false

/-! # Streaming to a handler

`recFrameV8` and `continueWebsocketStream` beside the reference of `Websocket/Callbacks.lean`.
Five slips of the code are in the way, and `smoothRun` says that a run takes none of them:

* A call of `recFrame` while a message is streamed goes to `continueWebsocketStream`, which reads
  past the buffer. For a fragmented message it asks for no bytes at all, and the frames of the
  message are never read.
* When nothing is there for `continueWebsocketStream` it takes this for the end of the
  connection.
* The end of an empty message of one frame is not looked for when nothing follows its header in
  the buffer.
* A message of one frame is not checked against an open fragmented message.
* A fragment or a control frame that fits the buffer only without its header fills it, as for a
  connection without a handler.

A frame of almost 2^32 bytes is refused for its place in the buffer. -/

namespace CWebUI.Websocket

/-! ## The condition -/

/-- A round of the loop over the frames takes no slip: a message of one frame is not inside a
fragmented message, its end has a place in 32 bits, and it is not an empty one of which nothing
but the header is there. -/
def smoothRound (s : WsSocket) (base : Nat) : Bool :=
  match scanHeader s.websocketBuffer with
  | .frame f =>
      if f.opcode.isData ∧ f.fin then
        !s.inFragments && decide (f.realLength ≤ 2 ^ 32 - 1 - (base + f.headerLength)) &&
          decide (0 < f.realLength ∨ f.headerLength < s.websocketBuffer.length)
      else true
  | _ => true

/-- No round takes a slip. -/
def smoothLoop (srv : WsServer) : Nat → WsSocket → Nat → Bool
  | 0, _, _ => true
  | fuel + 1, s, base =>
      smoothRound s base &&
        match frameRound srv s base with
        | .next s base => smoothLoop srv fuel s base
        | .stop _ => true

/-- A call of `recv` takes no slip: something is there for `continueWebsocketStream`, and it is
called for a message of one frame only; the buffer is not full; and no round of the loop takes a
slip. -/
def smoothCall (srv : WsServer) (s : WsSocket) (n : Nat) : Bool :=
  s.closed ||
    match s.inCall, s.stream with
    | false, some st => !st.fragmented && decide (0 < st.remaining) && decide (0 < n) &&
        !s.unread.isEmpty
    | _, _ =>
        let room := s.bufferSize - s.websocketBuffer.length
        let data := s.unread.take (min n room)
        decide (0 < room) && (data.isEmpty ||
          smoothLoop srv ((s.received data.length).websocketBuffer.length + 1)
            (s.received data.length) 0)

/-- No call of the run takes a slip. -/
def smoothRun (srv : WsServer) : WsSocket → List Nat → Bool
  | _, [] => true
  | s, n :: ns => smoothCall srv s n && smoothRun srv (recFrame srv s n) ns

/-! ## The payload of a frame in pieces -/

theorem unmask_append (mask : List UInt8) (offset : Nat) (a b : List UInt8) :
    unmask mask offset (a ++ b) = unmask mask offset a ++ unmask mask (offset + a.length) b := by
  unfold unmask
  rw [List.zipIdx_append, List.map_append]

/-- The mask has four bytes, so it only matters how many are left over. -/
theorem unmask_mod (mask : List UInt8) (offset : Nat) (b : List UInt8) :
    unmask mask (offset % 4) b = unmask mask offset b := by
  unfold unmask
  apply List.ext_getElem (by simp)
  intro i h1 h2
  simp only [List.getElem_map, List.getElem_zipIdx]
  rw [Nat.mod_add_mod]

/-- More of the payload is there. -/
theorem payload_more {h : FrameHeader} {part data : List UInt8} (hpart : h.headerLength ≤ part.length)
    (hfits : part.length + data.length ≤ h.total) :
    h.payload (part ++ data) =
      h.payload part ++ unmask h.maskingKey ((part.length - h.headerLength) % 4) data := by
  unfold FrameHeader.total at hfits
  unfold FrameHeader.payload
  have htake : (part.drop h.headerLength).take h.payloadLength = part.drop h.headerLength := by
    apply List.take_of_length_le
    rw [List.length_drop]
    omega
  have htake' : (part.drop h.headerLength ++ data).take h.payloadLength =
      part.drop h.headerLength ++ data := by
    apply List.take_of_length_le
    rw [List.length_append, List.length_drop]
    omega
  rw [List.drop_append_of_le_length hpart, htake, htake', unmask_append, unmask_mod, Nat.zero_add,
    List.length_drop]

/-- Nothing of the payload is there. -/
theorem payload_header (h : FrameHeader) {part : List UInt8} (hpart : part.length = h.headerLength) :
    h.payload part = [] := by
  unfold FrameHeader.payload
  rw [List.drop_of_length_le (Nat.le_of_eq hpart), List.take_nil]
  rfl

/-- The bytes that a header takes are there. -/
theorem decodeHeader_extended {b0 b1 : UInt8} {rest : List UInt8} {h : FrameHeader}
    (hh : decodeHeader (b0 :: b1 :: rest) = .header h) :
    h.headerLength = extendedLength (b1.toNat % 128) + 4 + 1 + 1 ∧
      extendedLength (b1.toNat % 128) + 4 ≤ rest.length := by
  unfold decodeHeader at hh
  dsimp only at hh
  split_ifs at hh
  all_goals
    obtain rfl := HeaderResult.header.inj hh
    dsimp only
    omega

/-- A header is read from its own bytes. -/
theorem decodeHeader_take {bytes : List UInt8} {h : FrameHeader}
    (hh : decodeHeader bytes = .header h) :
    h.headerLength ≤ bytes.length ∧ decodeHeader (bytes.take h.headerLength) = .header h := by
  have hown : h.headerLength ≤ bytes.length ∧
      decodeHeader (bytes.take h.headerLength) ≠ .incomplete := by
    match bytes with
    | [] => cases hh
    | [b] => cases hh
    | b0 :: b1 :: rest =>
        obtain ⟨hlength, hrest⟩ := decodeHeader_extended hh
        rw [hlength]
        refine ⟨by simp only [List.length_cons]; omega, ?_⟩
        rw [List.take_succ_cons, List.take_succ_cons]
        intro hmore
        unfold decodeHeader at hmore
        dsimp only at hmore
        split_ifs at hmore with _ _ hshort
        rw [List.length_take] at hshort
        omega
  refine ⟨hown.1, ?_⟩
  have happend := decodeHeader_append _ (bytes.drop h.headerLength) hown.2
  rw [List.take_append_drop, hh] at happend
  exact happend.symm

theorem decodeHeader_whole {bytes : List UInt8} {h : FrameHeader}
    (hh : decodeHeader bytes = .header h) : decodeHeader (bytes.take h.total) = .header h := by
  have hle : h.headerLength ≤ h.total := Nat.le_add_right _ _
  have hhead := (decodeHeader_take hh).2
  have hsplit : bytes.take h.total =
      bytes.take h.headerLength ++ (bytes.take h.total).drop h.headerLength := by
    have htake : bytes.take h.headerLength = (bytes.take h.total).take h.headerLength := by
      rw [List.take_take, Nat.min_eq_left hle]
    rw [htake, List.take_append_drop]
  rw [hsplit]
  exact decodeHeader_more hhead _

/-! ## A frame that is handled as a whole -/

theorem aborts_append (handler : StreamHandler) (trace es es' : List WsEvent) :
    aborts handler trace (es ++ es') =
      (aborts handler trace es || aborts handler (trace ++ es) es') := by
  induction es generalizing trace with
  | nil => simp [aborts]
  | cons e es ih => simp [aborts, ih, Bool.or_assoc]

variable {srv : WsServer} {handler : StreamHandler} {stream : List UInt8} {s : WsSocket}
  {d : StreamDecoder} {st : StreamState} {unread : List UInt8}

/-- A callback while a message is streamed. -/
theorem callback_eq (hst : s.stream = some st) (e : WsEvent) :
    s.callback handler e = { s with
      trace := s.trace ++ [e]
      stream := some { st with aborted := st.aborted || handler (s.trace ++ [e]) } } := by
  simp [WsSocket.callback, WsSocket.emit, hst]

/-- The state of an open fragmented message. -/
def gatheringState (aborted : Bool) : StreamState where
  fragmented := true
  remaining := 0
  mask := [0, 0, 0, 0]
  maskOffset := 0
  aborted := aborted

theorem startWebsocketStream_fragmented (handler : StreamHandler) (s : WsSocket)
    (f : WebsocketFrame) :
    startWebsocketStream handler s f true = { s with
      trace := s.trace ++ [.onStart (f.opcode = .wsfBinary)]
      stream := some (gatheringState (handler (s.trace ++ [.onStart (f.opcode = .wsfBinary)]))) } :=
  rfl

theorem chunk_fragmented (handler : StreamHandler) {aborted : Bool}
    (hst : s.stream = some (gatheringState aborted)) (data : List UInt8) :
    s.chunk handler data = { s with
      trace := s.trace ++ [.onChunk data]
      stream := some (gatheringState (aborted || handler (s.trace ++ [.onChunk data]))) } := by
  unfold WsSocket.chunk
  rw [callback_eq hst]
  rfl

/-- Between two frames the connection stands where the reference stands, and this is still to
come. -/
structure Serving (unread : List UInt8) (s : WsSocket) (d : StreamDecoder) : Prop where
  unread : s.unread = unread
  trace : s.trace = d.trace
  closed : s.closed = d.closed
  unbuffered : s.fragmentStartOpcode = none
  stream : d.closed = false → s.stream = if d.gathering then some (gatheringState false) else none

theorem Serving.fail (h : Serving unread s d) (status : Nat) :
    Serving unread (s.closeWith status) (d.fail status) where
  unread := h.unread
  trace := congrArg (· ++ [WsEvent.close status]) h.trace
  closed := rfl
  unbuffered := h.unbuffered
  stream := fun hopen => absurd hopen (by simp [StreamDecoder.fail])

theorem Serving.inFragments (h : Serving unread s d) (hd : d.closed = false) :
    s.inFragments = d.gathering := by
  unfold WsSocket.inFragments
  rw [h.stream hd, h.unbuffered]
  cases d.gathering <;> rfl

/-- Callbacks of a fragmented message have been made; an abort or the last frame ends it. -/
theorem Serving.pass (h : Serving unread s d) {s' : WsSocket}
    {es : List WsEvent} (last : Bool) (hunread : s'.unread = s.unread)
    (htrace : s'.trace = s.trace ++ es)
    (hclosed : s'.closed = s.closed) (hplain : s'.fragmentStartOpcode = s.fragmentStartOpcode)
    (hst : s'.stream = some (gatheringState (aborts handler d.trace es))) :
    Serving unread (if s'.aborted ∨ last then s'.endStream (!s'.aborted) else s')
      (d.pass handler es last) := by
  have haborted : s'.aborted = aborts handler d.trace es := by
    unfold WsSocket.aborted
    rw [hst]
    rfl
  unfold StreamDecoder.pass
  rw [haborted]
  dsimp only
  -- both sides end the message for the same two reasons
  by_cases hstops : aborts handler d.trace es = true ∨ last = true
  · rw [if_pos hstops, if_pos hstops]
    refine ⟨hunread.trans h.unread, ?_, hclosed.trans h.closed, hplain.trans h.unbuffered,
      fun _ => rfl⟩
    show s'.trace ++ [WsEvent.onEnd _] = _
    rw [htrace, h.trace]
  · rw [if_neg hstops, if_neg hstops]
    refine ⟨hunread.trans h.unread, htrace.trans (by rw [h.trace]), hclosed.trans h.closed,
      hplain.trans h.unbuffered, ?_⟩
    intro _
    have hgoes : aborts handler d.trace es = false := by simpa using (not_or.mp hstops).1
    rw [hst, hgoes]
    rfl

/-- The first frame of a fragmented message. -/
theorem Serving.dataFrame (hsrv : srv.handler = some handler) (h : Serving unread s d)
    (hd : d.closed = false) {f : WebsocketFrame} (payload : List UInt8) (hfin : f.fin = false)
    (binary : Bool) (hopcode : f.opcode = if binary then .wsfBinary else .wsfText) :
    Serving unread (dataFrame srv s f payload)
      (if d.gathering then d.fail 1002
        else d.pass handler [.onStart binary, .onChunk payload] false) := by
  have hbinary : decide (f.opcode = .wsfBinary) = binary := by
    cases binary <;> simp [hopcode]
  unfold Websocket.dataFrame
  rw [hsrv, h.inFragments hd, hfin]
  by_cases hopen : d.gathering = true
  · rw [if_pos hopen, if_pos hopen]
    exact h.fail 1002
  · rw [if_neg hopen, if_neg hopen, if_neg (by decide)]
    dsimp only
    -- a first fragment is never the last, so only an abort ends the message
    have hsame : ∀ s' : WsSocket, (if s'.aborted then s'.endStream false else s') =
        if s'.aborted ∨ false then s'.endStream (!s'.aborted) else s' := by
      intro s'
      cases s'.aborted <;> rfl
    rw [hsame]
    have hstart := startWebsocketStream_fragmented handler s f
    rw [hbinary] at hstart
    have hchunk := chunk_fragmented handler (congrArg WsSocket.stream hstart) payload
    generalize startWebsocketStream handler s f true = s₁ at *
    apply h.pass false
    · rw [hchunk, hstart]
    · rw [hchunk, hstart]
      simp
    · rw [hchunk, hstart]
    · rw [hchunk, hstart]
    · rw [hchunk, hstart]
      simp [aborts, h.trace]

/-- Another frame of a fragmented message. -/
theorem Serving.continueFrame (hsrv : srv.handler = some handler) (h : Serving unread s d)
    (hd : d.closed = false) (f : WebsocketFrame) (payload : List UInt8) :
    Serving unread (continueFrame srv s f payload)
      (if d.gathering then d.pass handler [.onChunk payload] f.fin else d.fail 1002) := by
  unfold Websocket.continueFrame
  rw [hsrv, h.inFragments hd]
  have hstream := h.stream hd
  cases hopen : d.gathering with
  | false =>
      rw [if_pos rfl, if_neg (by decide)]
      exact h.fail 1002
  | true =>
      rw [hopen, if_pos rfl] at hstream
      rw [if_neg (by decide), if_pos rfl, hstream]
      show Serving unread (if (s.chunk handler payload).aborted ∨ f.fin then _ else _) _
      rw [chunk_fragmented handler hstream]
      exact h.pass f.fin rfl rfl rfl rfl (by simp [aborts, h.trace])

/-- A control frame. -/
theorem Serving.controlFrame (h : Serving unread s d) {f : WebsocketFrame} {payload : List UInt8}
    (hpayload : payload.length = f.realLength) {opcode : Nat}
    (hcontrol : opcode = 8 ∨ opcode = 9 ∨ opcode = 10) (hopcode : f.opcode = opcodeNumber opcode) :
    Serving unread (controlFrame s f payload) (d.control (controlVerdict opcode f.fin payload)) := by
  unfold Websocket.controlFrame controlVerdict
  rw [hpayload]
  by_cases hfin : f.fin = false
  · rw [if_pos hfin, if_pos (Or.inl hfin)]
    exact h.fail 1002
  · rw [if_neg hfin]
    by_cases hlong : 125 < f.realLength
    · rw [if_pos hlong, if_pos (Or.inr hlong)]
      exact h.fail 1002
    · rw [if_neg hlong, if_neg (fun hor => hor.elim hfin hlong), hopcode]
      rcases hcontrol with rfl | rfl | rfl
      · exact h.fail 1000
      · exact ⟨h.unread, congrArg (· ++ [WsEvent.pong payload]) h.trace, h.closed, h.unbuffered,
          h.stream⟩
      · exact h

theorem isMessage_eq {f : WebsocketFrame} {h : FrameHeader} (hm : Matches f h) :
    (f.opcode.isData = true ∧ f.fin = true) ↔ h.isMessage = true := by
  unfold FrameHeader.isMessage
  rw [hm.opcode, hm.fin]
  unfold opcodeNumber
  split <;> simp_all [Opcode.isData]

/-- **One frame** that is no message by itself. -/
theorem Serving.handleFrame (hsrv : srv.handler = some handler) (h : Serving unread s d)
    (hd : d.closed = false) {f : WebsocketFrame} {hdr : FrameHeader} (hm : Matches f hdr)
    (hpart : hdr.isMessage = false) {payload : List UInt8}
    (hpayload : payload.length = f.realLength) :
    Serving unread (handleFrame srv s f payload) (d.frame handler hdr payload) := by
  have hopcode := hm.opcode
  -- a data frame that is no message by itself is a first fragment
  have hfirst : hdr.opcode = 1 ∨ hdr.opcode = 2 → f.fin = false := by
    intro hdata
    rw [hm.fin]
    unfold FrameHeader.isMessage at hpart
    rcases hdata with h1 | h1 <;> simpa [h1] using hpart
  unfold StreamDecoder.frame
  rw [← hm.fin]
  split
  all_goals unfold Websocket.handleFrame
  · rename_i h0
    rw [h0] at hopcode
    rw [hopcode]
    exact h.continueFrame hsrv hd f payload
  · rename_i h1
    rw [h1] at hopcode
    rw [hopcode]
    exact h.dataFrame hsrv hd payload (hfirst (Or.inl h1)) false hopcode
  · rename_i h2
    rw [h2] at hopcode
    rw [hopcode]
    exact h.dataFrame hsrv hd payload (hfirst (Or.inr h2)) true hopcode
  · rename_i h8
    rw [h8] at hopcode
    rw [hopcode]
    exact h.controlFrame hpayload (by simp) hopcode
  · rename_i h9
    rw [h9] at hopcode
    rw [hopcode]
    exact h.controlFrame hpayload (by simp) hopcode
  · rename_i h10
    rw [h10] at hopcode
    rw [hopcode]
    exact h.controlFrame hpayload (by simp) hopcode
  · have hreserved : f.opcode = .wsfReserved := by
      rw [hopcode]
      unfold opcodeNumber
      split <;> simp_all
    rw [hreserved]
    exact h.fail 1002

/-! ## A message of one frame -/

/-- A message of one frame is passed on: `part` is what has come of the frame, and the handler
has got it in these chunks. -/
structure Passing (handler : StreamHandler) (s : WsSocket) (d : StreamDecoder) (h : FrameHeader)
    (part : List UInt8) (chunks : List (List UInt8)) : Prop where
  header : decodeHeader part = .header h
  isMessage : h.isMessage = true
  fits : part.length ≤ h.total
  bytes : chunks.flatten = h.payload part
  trace : s.trace = d.trace ++ pieces h chunks
  closed : s.closed = false
  unbuffered : s.fragmentStartOpcode = none
  stream : s.stream = some {
    fragmented := false
    remaining := h.total - part.length
    mask := h.maskingKey
    maskOffset := (part.length - h.headerLength) % 4
    aborted := aborts handler d.trace (pieces h chunks) }

variable {f : WebsocketFrame} {h : FrameHeader} {part : List UInt8} {chunks : List (List UInt8)}

theorem isMessage_binary (hm : Matches f h) (hmsg : h.isMessage = true) :
    decide (f.opcode = .wsfBinary) = decide (h.opcode = 2) := by
  unfold FrameHeader.isMessage at hmsg
  rw [hm.opcode]
  have hdata : h.opcode = 1 ∨ h.opcode = 2 := by
    rw [Bool.and_eq_true, Bool.or_eq_true] at hmsg
    exact hmsg.2.imp of_decide_eq_true of_decide_eq_true
  rcases hdata with h1 | h1 <;> rw [h1] <;> rfl

/-- `on_start`, when the header is there. -/
theorem Passing.start (handler : StreamHandler) (hs : Serving unread s d) (hd : d.closed = false)
    (hm : Matches f h) (hmsg : h.isMessage = true) {bytes : List UInt8}
    (hh : decodeHeader bytes = .header h) :
    Passing handler (startWebsocketStream handler s f false) d h (bytes.take h.headerLength) [] := by
  obtain ⟨hlength, htake⟩ := decodeHeader_take hh
  have hpart : (bytes.take h.headerLength).length = h.headerLength := by
    rw [List.length_take, Nat.min_eq_left hlength]
  refine ⟨htake, hmsg, ?_, ?_, ?_, hs.closed.trans hd, hs.unbuffered, ?_⟩
  · rw [hpart]
    exact Nat.le_add_right _ _
  · rw [payload_header h hpart]
    rfl
  · show s.trace ++ [WsEvent.onStart (f.opcode = .wsfBinary)] = _
    rw [hs.trace, isMessage_binary hm hmsg]
    rfl
  · show some (StreamState.mk false f.realLength f.mask 0
      (false || handler (s.trace ++ [WsEvent.onStart (f.opcode = .wsfBinary)]))) = _
    rw [hpart, hs.trace, isMessage_binary hm hmsg, hm.realLength, hm.mask, FrameHeader.total,
      Nat.add_sub_cancel_left, Nat.sub_self]
    simp [aborts, pieces]

/-- `on_chunk`, with more of the payload. -/
theorem Passing.chunk (hp : Passing handler s d h part chunks) (data : List UInt8)
    (hfits : part.length + data.length ≤ h.total) :
    Passing handler
      (s.chunk handler (unmask h.maskingKey ((part.length - h.headerLength) % 4) data)) d h
      (part ++ data)
      (chunks ++ [unmask h.maskingKey ((part.length - h.headerLength) % 4) data]) := by
  have hpart := (decodeHeader_take hp.header).1
  have hpieces : ∀ c, pieces h (chunks ++ [c]) = pieces h chunks ++ [.onChunk c] := by
    intro c
    simp [pieces]
  -- what `on_chunk` and the counting behind it make of the state
  have hchunk : ∀ c, s.chunk handler c = { s with
      trace := s.trace ++ [.onChunk c]
      stream := some {
        fragmented := false
        remaining := h.total - part.length - c.length
        mask := h.maskingKey
        maskOffset := ((part.length - h.headerLength) % 4 + c.length) % 4
        aborted := aborts handler d.trace (pieces h chunks) || handler (s.trace ++ [.onChunk c]) } } := by
    intro c
    unfold WsSocket.chunk
    rw [callback_eq hp.stream]
    rfl
  rw [hchunk]
  refine ⟨?_, hp.isMessage, ?_, ?_, ?_, hp.closed, hp.unbuffered, ?_⟩
  · exact decodeHeader_more hp.header data
  · rw [List.length_append]
    exact hfits
  · rw [payload_more hpart hfits, List.flatten_append, hp.bytes, List.flatten_singleton]
  · rw [hpieces, ← List.append_assoc, hp.trace]
  · rw [hpieces, aborts_append, ← hp.trace, unmask_length, List.length_append, Nat.mod_add_mod,
      Nat.sub_sub]
    simp only [aborts, Bool.or_false]
    congr 2
    congr 1
    omega

theorem Passing.aborted (hp : Passing handler s d h part chunks) :
    s.aborted = aborts handler d.trace (pieces h chunks) := by
  unfold WsSocket.aborted
  rw [hp.stream]
  rfl

theorem Passing.remaining (hp : Passing handler s d h part chunks) :
    s.remaining = h.total - part.length := by
  unfold WsSocket.remaining
  rw [hp.stream]
  rfl

/-- `on_end`, when the whole frame has come. -/
theorem Passing.over (hp : Passing handler s d h part chunks) (hd : d.closed = false) :
    Serving s.unread (s.endStream (!s.aborted)) (d.pass handler (pieces h chunks) true) := by
  unfold StreamDecoder.pass
  rw [hp.aborted]
  dsimp only
  rw [if_pos (Or.inr rfl)]
  refine ⟨rfl, ?_, hp.closed.trans hd.symm, hp.unbuffered, fun _ => rfl⟩
  show s.trace ++ [WsEvent.onEnd _] = _
  rw [hp.trace]

/-! ## The loop over the frames -/

/-- Where the connection stands between two frames: `c` is behind it, and what is left is in the
buffer and still to come. -/
structure Between (handler : StreamHandler) (stream : List UInt8) (s : WsSocket) (c : List UInt8)
    (d : StreamDecoder) : Prop where
  served : Served handler c d
  serving : Serving s.unread s d
  isOpen : d.closed = false
  bytes : stream = c ++ (s.websocketBuffer ++ s.unread)

/-- These bytes are not a frame yet, and do not start a message of one frame. -/
def Waiting (bytes : List UInt8) : Prop :=
  decodeHeader bytes = .incomplete ∨
    ∃ h, decodeHeader bytes = .header h ∧ h.isMessage = false ∧
      h.payloadLength ≤ websocketMaxInbufferSize ∧ bytes.length < h.total

/-- Where the connection stands inside a message of one frame. -/
structure Midway (handler : StreamHandler) (stream : List UInt8) (s : WsSocket) (c : List UInt8)
    (d : StreamDecoder) (h : FrameHeader) (part : List UInt8) (chunks : List (List UInt8)) :
    Prop where
  served : Served handler c d
  isOpen : d.closed = false
  unfragmented : d.gathering = false
  passing : Passing handler s d h part chunks
  bytes : stream = c ++ (part ++ s.unread)
  short : part.length < h.total
  goesOn : chunks = [] ∨ aborts handler d.trace (pieces h chunks) = false
  drained : s.websocketBuffer = []
  returned : s.inCall = false

/-- What holds of a connection after every call of `recv`. -/
def StreamInv (handler : StreamHandler) (stream : List UInt8) (s : WsSocket) : Prop :=
  (∃ c d, Between handler stream s c d ∧ Waiting s.websocketBuffer) ∨
    (∃ c d h part chunks, Midway handler stream s c d h part chunks) ∨
    (s.closed = true ∧ ServesStream handler stream s)

/-- What a round of the loop leaves: the loop is over, or the buffer is shorter. -/
def StreamRound (handler : StreamHandler) (stream : List UInt8) (s : WsSocket) : FrameLoop → Prop
  | .stop s' => s'.unread = s.unread ∧ StreamInv handler stream s'
  | .next s' _ => s'.unread = s.unread ∧
      s'.websocketBuffer.length < s.websocketBuffer.length ∧ ∃ c d, Between handler stream s' c d

variable {c : List UInt8} {base : Nat}

/-- The buffer behind its first bytes. -/
theorem Between.split (hb : Between handler stream s c d) (n : Nat) :
    stream = c ++ s.websocketBuffer.take n ++ (s.websocketBuffer.drop n ++ s.unread) := by
  rw [List.append_assoc, ← List.append_assoc (s.websocketBuffer.take n), List.take_append_drop]
  exact hb.bytes

/-- The connection is closed by what is in the buffer. -/
theorem Between.fail (h : Between handler stream s c d) {status : Nat}
    (hawaits : Awaits handler d s.websocketBuffer (d.fail status)) :
    StreamRound handler stream s (.stop (s.closeWith status)) := by
  have hfail := h.serving.fail status
  refine ⟨rfl, Or.inr (Or.inr ⟨rfl, c, s.websocketBuffer, d, d.fail status, ?_, h.served, hawaits,
    hfail.trace, hfail.closed⟩)⟩
  show stream = c ++ s.websocketBuffer ++ s.unread
  rw [List.append_assoc]
  exact h.bytes

/-- A frame that is complete and no message by itself. -/
theorem Between.handled (hsrv : srv.handler = some handler) (hb : Between handler stream s c d)
    (hm : Matches f h) (hpart : h.isMessage = false)
    (hh : decodeHeader s.websocketBuffer = .header h)
    (hsmall : h.payloadLength ≤ websocketMaxInbufferSize)
    (hlong : h.total ≤ s.websocketBuffer.length) :
    ∃ d', Served handler (c ++ s.websocketBuffer.take h.total) d' ∧
      Serving s.unread (s.handled srv f) d' := by
  have hsplit : s.websocketBuffer.take h.total ++ s.websocketBuffer.drop h.total =
      s.websocketBuffer := List.take_append_drop _ _
  have hlength : (s.websocketBuffer.take h.total).length = h.total := by
    rw [List.length_take, Nat.min_eq_left hlong]
  -- the code cuts the payload out of the whole buffer
  have hpayload : h.payload (s.websocketBuffer.take h.total) =
      unmask f.mask 0 ((s.websocketBuffer.drop f.headerLength).take f.realLength) := by
    have happend := payload_append (h := h) (s.websocketBuffer.drop h.total) (Nat.le_of_eq hlength.symm)
    rw [hsplit] at happend
    rw [← happend, FrameHeader.payload, hm.mask, hm.headerLength, hm.realLength]
  have hbytes : (unmask f.mask 0
      ((s.websocketBuffer.drop f.headerLength).take f.realLength)).length = f.realLength := by
    unfold FrameHeader.total at hlong
    rw [unmask_length, List.length_take, List.length_drop, hm.headerLength, hm.realLength]
    omega
  have hserving := hb.serving.handleFrame hsrv hb.isOpen hm hpart hbytes
  refine ⟨_, Served.frame hb.served hb.isOpen (decodeHeader_whole hh) hlength hpart hsmall, ?_⟩
  rw [hpayload]
  exact ⟨hserving.unread, hserving.trace, hserving.closed, hserving.unbuffered, hserving.stream⟩

/-- A frame that is handled as a whole. -/
theorem Between.wholeFrame (hsrv : srv.handler = some handler) (hb : Between handler stream s c d)
    (hm : Matches f h) (hpart : h.isMessage = false)
    (hh : decodeHeader s.websocketBuffer = .header h) (base : Nat) :
    StreamRound handler stream s (wholeFrame srv s f base) := by
  by_cases hlarge : websocketMaxInbufferSize < h.payloadLength
  · unfold Websocket.wholeFrame
    rw [hm.realLength, if_pos hlarge]
    exact hb.fail (Awaits.large hb.isOpen hh hpart hlarge)
  · have hsmall := Nat.not_lt.mp hlarge
    by_cases hshort : s.websocketBuffer.length < h.total
    · unfold Websocket.wholeFrame
      rw [hm.realLength, hm.total, if_neg hlarge, if_pos hshort]
      have hwaits : Waiting s.websocketBuffer := Or.inr ⟨h, hh, hpart, hsmall, hshort⟩
      -- the buffer may grow, which the reference does not see
      have hgrown : ∀ size, Between handler stream { s with bufferSize := size } c d := fun size =>
        ⟨hb.served, ⟨rfl, hb.serving.trace, hb.serving.closed, hb.serving.unbuffered,
          hb.serving.stream⟩, hb.isOpen, hb.bytes⟩
      split_ifs
      · exact ⟨rfl, Or.inl ⟨c, d, hgrown _, hwaits⟩⟩
      · exact ⟨rfl, Or.inl ⟨c, d, hb, hwaits⟩⟩
    · have hlong := Nat.not_lt.mp hshort
      have hwhole : Websocket.wholeFrame srv s f base =
          if (s.handled srv f).closed = true ∨ (s.handled srv f).websocketBuffer = [] then
            .stop (s.handled srv f)
          else .next (s.handled srv f) (base + h.total) := by
        unfold Websocket.wholeFrame
        rw [if_neg (hm.realLength ▸ hlarge), if_neg (hm.total ▸ hshort), ← hm.total]
        rfl
      have hbuffer : (s.handled srv f).websocketBuffer = s.websocketBuffer.drop h.total := by
        rw [← hm.total]
        rfl
      have hpos := decodeHeader_length hh
      obtain ⟨d', hserved, hserving⟩ := hb.handled hsrv hm hpart hh hsmall hlong
      have hbytes : stream = c ++ s.websocketBuffer.take h.total ++
          ((s.handled srv f).websocketBuffer ++ (s.handled srv f).unread) := by
        rw [hserving.unread, hbuffer]
        exact hb.split h.total
      rw [hwhole]
      -- behind the end of the connection the rest of the buffer is not looked at
      by_cases hclosed : (s.handled srv f).closed = true
      · rw [if_pos (Or.inl hclosed)]
        refine ⟨hserving.unread, Or.inr (Or.inr ⟨hclosed, _, (s.handled srv f).websocketBuffer, d',
          d', ?_, hserved, Awaits.closed (hserving.closed.symm.trans hclosed), hserving.trace,
          hserving.closed⟩)⟩
        rw [List.append_assoc]
        exact hbytes
      · have hopen : d'.closed = false := by
          rw [← hserving.closed]
          simpa using hclosed
        have hbetween : Between handler stream (s.handled srv f) (c ++ s.websocketBuffer.take h.total) d' :=
          ⟨hserved, hserving.unread.symm ▸ hserving, hopen, hbytes⟩
        by_cases hnil : (s.handled srv f).websocketBuffer = []
        · rw [if_pos (Or.inr hnil)]
          refine ⟨hserving.unread, Or.inl ⟨_, d', hbetween, Or.inl ?_⟩⟩
          rw [hnil]
          rfl
        · rw [if_neg (fun hor => hor.elim hclosed hnil)]
          refine ⟨hserving.unread, ?_, _, d', hbetween⟩
          rw [hbuffer, List.length_drop]
          unfold FrameHeader.total at hlong ⊢
          omega

/-- What has come of a message of one frame is with the handler: all of it, or the buffer. -/
theorem Between.streamedSoFar (hb : Between handler stream s c d)
    (hh : decodeHeader s.websocketBuffer = .header h) (hnone : d.gathering = false)
    {s₂ : WsSocket} {chunks : List (List UInt8)}
    (hp : Passing handler s₂ d h (s.websocketBuffer.take h.total) chunks)
    (hbuffer : s₂.websocketBuffer = s.websocketBuffer) (hunread : s₂.unread = s.unread) :
    StreamRound handler stream s (streamedSoFar s₂ h.total) := by
  have hpos := decodeHeader_length hh
  have hover := hp.over hb.isOpen
  unfold Websocket.streamedSoFar
  dsimp only
  rw [hp.remaining]
  -- the whole frame is in the buffer: the message is over, aborted or not
  by_cases hlong : h.total ≤ s.websocketBuffer.length
  · have hlength : (s.websocketBuffer.take h.total).length = h.total := by
      rw [List.length_take, Nat.min_eq_left hlong]
    have hserved := Served.message chunks hb.served hb.isOpen hnone hp.header hlength hp.isMessage
      hp.bytes
    have hopen : (d.pass handler (pieces h chunks) true).closed = false :=
      hover.closed.symm.trans hp.closed
    have hbetween : ∀ (s' : WsSocket), s'.websocketBuffer = s.websocketBuffer.drop h.total →
        Serving s'.unread s' (d.pass handler (pieces h chunks) true) → s'.unread = s.unread →
        Between handler stream s' (c ++ s.websocketBuffer.take h.total)
          (d.pass handler (pieces h chunks) true) := by
      intro s' hrest hserving heq
      refine ⟨hserved, hserving, hopen, ?_⟩
      rw [hrest, heq]
      exact hb.split h.total
    rw [hlength, Nat.sub_self, if_pos (Or.inl rfl), if_neg (by simp)]
    have hsame : (s₂.endStream (!s₂.aborted)).websocketBuffer = s.websocketBuffer := hbuffer
    rw [hsame]
    by_cases hmore : h.total < s.websocketBuffer.length
    · rw [if_pos hmore]
      refine ⟨hunread, ?_, _, _, hbetween _ rfl
        ⟨rfl, hover.trace, hover.closed, hover.unbuffered, hover.stream⟩ hunread⟩
      show (s.websocketBuffer.drop h.total).length < _
      unfold FrameHeader.total at hmore ⊢
      rw [List.length_drop]
      omega
    · rw [if_neg hmore]
      have hnil : s.websocketBuffer.drop h.total = [] :=
        List.drop_of_length_le (Nat.not_lt.mp hmore)
      exact ⟨hunread, Or.inl ⟨_, _, hbetween _ hnil.symm
        ⟨rfl, hover.trace, hover.closed, hover.unbuffered, hover.stream⟩ hunread, Or.inl rfl⟩⟩
  · -- the buffer ends inside the payload
    have hall : s.websocketBuffer.take h.total = s.websocketBuffer :=
      List.take_of_length_le (Nat.le_of_not_le hlong)
    have hleft : 0 < h.total - s.websocketBuffer.length := by omega
    rw [hall] at hp ⊢
    have hbytes : stream = c ++ (s.websocketBuffer ++ s₂.unread) := by
      rw [hunread]
      exact hb.bytes
    -- the code loses nothing here: the buffer is all of it part of the payload
    by_cases haborted : s₂.aborted = true
    · rw [if_pos (Or.inr haborted), if_pos ⟨haborted, hleft⟩, haborted]
      refine ⟨hunread, Or.inr (Or.inr ⟨rfl, c, s.websocketBuffer, d, _, ?_, hb.served,
        Awaits.aborted chunks true hb.isOpen hnone hh hp.isMessage (by omega) hp.bytes
          (hp.aborted.symm.trans haborted), ?_, rfl⟩)⟩
      · rw [List.append_assoc]
        exact hbytes
      · show s₂.trace ++ [WsEvent.onEnd false] ++ [.close 1000] = _
        rw [hp.trace]
        rfl
    · rw [if_neg (fun hor => hor.elim (fun hzero => by omega) haborted)]
      have hgoes : aborts handler d.trace (pieces h chunks) = false := by
        rw [← hp.aborted]
        simpa using haborted
      exact ⟨hunread, Or.inr (Or.inl ⟨c, d, h, s.websocketBuffer, chunks, hb.served, hb.isOpen, hnone,
        ⟨hh, hp.isMessage, hp.fits, hp.bytes, hp.trace, hp.closed, hp.unbuffered, hp.stream⟩,
        hbytes, by omega, Or.inr hgoes, rfl, rfl⟩)⟩

/-- A message of one frame, with as much of it as is in the buffer. -/
theorem Between.streamFrame (hb : Between handler stream s c d) (hm : Matches f h)
    (hmsg : h.isMessage = true) (hh : decodeHeader s.websocketBuffer = .header h)
    (hnone : d.gathering = false) {base : Nat}
    (hplace : h.payloadLength ≤ 2 ^ 32 - 1 - (base + h.headerLength))
    (hthere : 0 < h.payloadLength ∨ h.headerLength < s.websocketBuffer.length) :
    StreamRound handler stream s (streamFrame handler s f base) := by
  have hstart := Passing.start handler hb.serving hb.isOpen hm hmsg hh
  have hhead := (decodeHeader_take hh).1
  have hpart : (s.websocketBuffer.take h.headerLength).length = h.headerLength := by
    rw [List.length_take, Nat.min_eq_left hhead]
  have hpos := decodeHeader_length hh
  unfold Websocket.streamFrame
  rw [hm.realLength, hm.headerLength, hm.mask, hm.total, if_neg (Nat.not_lt.mpr hplace)]
  dsimp only
  have hbuffer : (startWebsocketStream handler s f false).websocketBuffer = s.websocketBuffer := rfl
  have hunread : (startWebsocketStream handler s f false).unread = s.unread := rfl
  rw [hbuffer]
  generalize startWebsocketStream handler s f false = s₁ at *
  -- without a byte behind the header the code only makes the callback `on_start`
  by_cases hmore : h.headerLength < s.websocketBuffer.length
  · rw [if_pos hmore]
    have hdata : ((s.websocketBuffer.drop h.headerLength).take h.payloadLength).length =
        min h.payloadLength (s.websocketBuffer.length - h.headerLength) := by
      rw [List.length_take, List.length_drop]
    have hchunk := hstart.chunk ((s.websocketBuffer.drop h.headerLength).take h.payloadLength)
      (by rw [hpart, hdata, FrameHeader.total]; omega)
    rw [hpart, Nat.sub_self, Nat.zero_mod, ← List.take_add, List.nil_append] at hchunk
    exact hb.streamedSoFar hh hnone hchunk hbuffer hunread
  · rw [if_neg hmore]
    have hall : s.websocketBuffer.take h.headerLength = s.websocketBuffer :=
      List.take_of_length_le (Nat.not_lt.mp hmore)
    rw [hall] at hstart
    refine ⟨hunread, Or.inr (Or.inl ⟨c, d, h, s.websocketBuffer, [], hb.served, hb.isOpen, hnone,
      ⟨hh, hmsg, hstart.fits, hstart.bytes, hstart.trace, hstart.closed, hstart.unbuffered,
        hstart.stream⟩, ?_, ?_, Or.inl rfl, rfl, rfl⟩)⟩
    · show stream = c ++ (s.websocketBuffer ++ s₁.unread)
      rw [hunread]
      exact hb.bytes
    · unfold FrameHeader.total
      omega

/-- **One round of the loop**, if it takes no slip. -/
theorem Between.frameRound (hsrv : srv.handler = some handler) (hb : Between handler stream s c d)
    {base : Nat} (hsmooth : smoothRound s base = true) :
    StreamRound handler stream s (frameRound srv s base) := by
  unfold Websocket.frameRound
  unfold smoothRound at hsmooth
  rcases scanHeader_decodeHeader s.websocketBuffer with ⟨hscan, hh⟩ | ⟨status, hscan, hh⟩ |
    ⟨f, h, hscan, hh, hm⟩
  · rw [hscan]
    exact ⟨rfl, Or.inl ⟨c, d, hb, Or.inl hh⟩⟩
  · rw [hscan]
    exact hb.fail (Awaits.failed hb.isOpen hh)
  · rw [hscan] at hsmooth ⊢
    dsimp only at hsmooth ⊢
    rw [hsrv]
    dsimp only
    have hmessage := isMessage_eq hm
    by_cases hmsg : h.isMessage = true
    · rw [if_pos (hmessage.mpr hmsg)] at hsmooth ⊢
      rw [hb.serving.inFragments hb.isOpen, hm.realLength, hm.headerLength] at hsmooth
      simp only [Bool.and_eq_true, Bool.not_eq_true', decide_eq_true_eq] at hsmooth
      obtain ⟨⟨hnone, hplace⟩, hthere⟩ := hsmooth
      exact hb.streamFrame hm hmsg hh hnone hplace hthere
    · rw [if_neg (fun hdata => hmsg (hmessage.mp hdata))]
      exact hb.wholeFrame hsrv hm (by simpa using hmsg) hh base

/-- **The loop over the frames in the buffer.** -/
theorem Between.frameLoop (hsrv : srv.handler = some handler) (fuel : Nat) {s : WsSocket}
    {c : List UInt8} {d : StreamDecoder} (base : Nat) (hb : Between handler stream s c d)
    (hsmooth : smoothLoop srv fuel s base = true) (hfuel : s.websocketBuffer.length < fuel) :
    (frameLoop srv fuel s base).unread = s.unread ∧
      StreamInv handler stream (frameLoop srv fuel s base) := by
  induction fuel generalizing s c d base with
  | zero => omega
  | succ fuel ih =>
      unfold smoothLoop at hsmooth
      rw [Bool.and_eq_true] at hsmooth
      have hround := hb.frameRound hsrv hsmooth.1
      have hrest := hsmooth.2
      unfold Websocket.frameLoop
      cases hres : Websocket.frameRound srv s base with
      | stop s' =>
          rw [hres] at hround
          exact hround
      | next s' base' =>
          rw [hres] at hround hrest
          obtain ⟨hunread, hless, c', d', hb'⟩ := hround
          obtain ⟨hunread', hinv⟩ := ih base' hb' hrest (by omega)
          exact ⟨hunread'.trans hunread, hinv⟩

/-! ## Whole runs -/

theorem smoothCall_reads (hreads : s.inCall = true ∨ s.stream = none) (hopen : s.closed = false)
    {n : Nat} (hsmooth : smoothCall srv s n = true) :
    let room := s.bufferSize - s.websocketBuffer.length
    let data := s.unread.take (min n room)
    0 < room ∧ (data = [] ∨ smoothLoop srv ((s.received data.length).websocketBuffer.length + 1)
      (s.received data.length) 0 = true) := by
  unfold smoothCall at hsmooth
  rw [hopen, Bool.false_or] at hsmooth
  split at hsmooth
  · rename_i hcall hstream
    rcases hreads with h | h
    · exact absurd (h.symm.trans hcall) (by decide)
    · exact absurd (h.symm.trans hstream) (by simp)
  · simpa using hsmooth

/-- A call of `recv` for the buffer. -/
theorem Between.recFrame (hsrv : srv.handler = some handler) (hb : Between handler stream s c d)
    (hw : Waiting s.websocketBuffer) {n : Nat} (hsmooth : smoothCall srv s n = true) :
    StreamInv handler stream (recFrame srv s n) ∧ Reads s n (recFrame srv s n) := by
  have hopen : s.closed = false := hb.serving.closed.trans hb.isOpen
  have hreads : s.inCall = true ∨ s.stream = none := by
    -- entered inside a fragmented message, the call would be diverted
    by_contra hno
    rw [not_or] at hno
    have hcall : s.inCall = false := by simpa using hno.1
    have hgathering : d.gathering = true := by
      by_contra hnone
      exact hno.2 ((hb.serving.stream hb.isOpen).trans (if_neg hnone))
    have hstream := hb.serving.stream hb.isOpen
    rw [hgathering, if_pos rfl] at hstream
    unfold smoothCall at hsmooth
    rw [hopen, hcall, hstream] at hsmooth
    exact absurd hsmooth (by simp [gatheringState])
  obtain ⟨hroom, hloop⟩ := smoothCall_reads hreads hopen hsmooth
  rw [recFrame_reads (hreads.imp_right Or.inl) hopen, if_neg (by omega)]
  by_cases hnone : s.unread.take (min n (s.bufferSize - s.websocketBuffer.length)) = []
  · rw [if_pos hnone]
    have hzero := congrArg List.length hnone
    rw [List.length_take, List.length_nil] at hzero
    refine ⟨Or.inl ⟨c, d, ⟨hb.served, ⟨rfl, hb.serving.trace, hb.serving.closed,
      hb.serving.unbuffered, hb.serving.stream⟩, hb.isOpen, hb.bytes⟩, hw⟩, Or.inr ?_⟩
    show s.unread.length ≤ _
    omega
  · rw [if_neg hnone]
    dsimp only
    have hpos : 0 < (s.unread.take (min n (s.bufferSize - s.websocketBuffer.length))).length :=
      List.length_pos_iff.mpr hnone
    have hsmooth' := hloop.resolve_left hnone
    generalize (s.unread.take (min n (s.bufferSize - s.websocketBuffer.length))).length = k at *
    have hreceived : Between handler stream (s.received k) c d := by
      refine ⟨hb.served, ⟨rfl, hb.serving.trace, hb.serving.closed, hb.serving.unbuffered,
        hb.serving.stream⟩, hb.isOpen, ?_⟩
      show stream = c ++ (s.websocketBuffer ++ s.unread.take k ++ s.unread.drop k)
      rw [List.append_assoc, List.take_append_drop]
      exact hb.bytes
    obtain ⟨hunread, hinv⟩ := hreceived.frameLoop hsrv _ 0 hsmooth' (Nat.lt_succ_self _)
    refine ⟨hinv, Or.inr ?_⟩
    rw [hunread]
    show (s.unread.drop k).length ≤ _
    rw [List.length_drop]
    omega

/-- More of a message of one frame has come: it is over, it goes on, or the handler does not want
the rest. -/
theorem Midway.more (hmid : Midway handler stream s c d h part chunks) {data rest : List UInt8}
    (hunread : s.unread = data ++ rest) (hfits : data.length ≤ h.total - part.length)
    {s₂ : WsSocket} (hs₂ : s₂ = WsSocket.chunk handler { s with unread := rest }
      (unmask h.maskingKey ((part.length - h.headerLength) % 4) data)) :
    StreamInv handler stream
      (if s₂.remaining = 0 ∨ s₂.aborted then
        { s₂.endStream (!s₂.aborted) with closed := decide (s₂.aborted ∧ 0 < s₂.remaining) }
      else s₂) := by
  have hshort := hmid.short
  have hread : Passing handler { s with unread := rest } d h part chunks :=
    ⟨hmid.passing.header, hmid.passing.isMessage, hmid.passing.fits, hmid.passing.bytes,
      hmid.passing.trace, hmid.passing.closed, hmid.passing.unbuffered, hmid.passing.stream⟩
  have hp := hread.chunk data (by omega)
  have hrest : s₂.unread = rest := by rw [hs₂]; rfl
  have hbuffer : s₂.websocketBuffer = [] := by rw [hs₂]; exact hmid.drained
  have hcall : s₂.inCall = false := by rw [hs₂]; exact hmid.returned
  rw [← hs₂] at hp
  have hbytes : stream = c ++ (part ++ data ++ s₂.unread) := by
    rw [hrest, List.append_assoc, ← hunread]
    exact hmid.bytes
  have hlength : (part ++ data).length = part.length + data.length := List.length_append
  generalize unmask h.maskingKey ((part.length - h.headerLength) % 4) data = chunk at *
  -- the count of missing bytes says whether the frame is complete
  by_cases hzero : s₂.remaining = 0
  · have hwhole : (part ++ data).length = h.total := by
      rw [hp.remaining] at hzero
      have := hp.fits
      omega
    have hover := hp.over hmid.isOpen
    have hserved := Served.message _ hmid.served hmid.isOpen hmid.unfragmented hp.header hwhole
      hp.isMessage hp.bytes
    have hopen : decide (s₂.aborted = true ∧ 0 < s₂.remaining) = false := by
      rw [hzero]
      simp
    rw [if_pos (Or.inl hzero), hopen]
    refine Or.inl ⟨_, _, ⟨hserved, ⟨rfl, hover.trace, hp.closed.symm.trans hover.closed,
      hover.unbuffered, hover.stream⟩, hover.closed.symm.trans hp.closed, ?_⟩, Or.inl ?_⟩
    · show stream = c ++ (part ++ data) ++ (s₂.websocketBuffer ++ s₂.unread)
      rw [hbuffer, List.nil_append, List.append_assoc]
      exact hbytes
    · show decodeHeader s₂.websocketBuffer = _
      rw [hbuffer]
      rfl
  · have hleft : (part ++ data).length < h.total := by
      rw [hp.remaining] at hzero
      omega
    by_cases haborted : s₂.aborted = true
    · have hlost : decide (s₂.aborted = true ∧ 0 < s₂.remaining) = true :=
        decide_eq_true ⟨haborted, Nat.pos_of_ne_zero hzero⟩
      rw [if_pos (Or.inr haborted), hlost, haborted]
      refine Or.inr (Or.inr ⟨rfl, c, part ++ data, d, _, ?_, hmid.served,
        Awaits.aborted _ false hmid.isOpen hmid.unfragmented hp.header hp.isMessage hleft hp.bytes
          (hp.aborted.symm.trans haborted), ?_, rfl⟩)
      · show stream = c ++ (part ++ data) ++ s₂.unread
        rw [List.append_assoc]
        exact hbytes
      · show s₂.trace ++ [WsEvent.onEnd false] = _
        rw [hp.trace]
        simp
    · rw [if_neg (fun hor => hor.elim hzero haborted)]
      have hgoes := hp.aborted
      rw [show s₂.aborted = false by simpa using haborted] at hgoes
      exact Or.inr (Or.inl ⟨c, d, h, part ++ data, _, hmid.served, hmid.isOpen, hmid.unfragmented,
        hp, hbytes, hleft, Or.inr hgoes.symm, hbuffer, hcall⟩)

/-- A call of `recv` for the rest of a message of one frame. -/
theorem Midway.recFrame (hsrv : srv.handler = some handler)
    (hmid : Midway handler stream s c d h part chunks) {n : Nat}
    (hsmooth : smoothCall srv s n = true) :
    StreamInv handler stream (recFrame srv s n) ∧ Reads s n (recFrame srv s n) := by
  have hp := hmid.passing
  unfold smoothCall at hsmooth
  rw [hp.closed, hmid.returned, hp.stream] at hsmooth
  simp only [Bool.false_or, Bool.not_false, Bool.true_and, Bool.and_eq_true, decide_eq_true_eq,
    Bool.not_eq_true', List.isEmpty_eq_false_iff] at hsmooth
  obtain ⟨⟨hremaining, hn⟩, hunread⟩ := hsmooth
  have hpos : 0 < s.unread.length := List.length_pos_iff.mpr hunread
  have hchunkSize : 0 < websocketStreamChunkSize := by decide
  unfold Websocket.recFrame
  rw [hp.closed, hmid.returned, hp.stream, hsrv, if_neg (by decide)]
  dsimp only
  unfold continueWebsocketStream
  dsimp only
  rw [if_neg (fun hnothing => by omega)]
  have hlength : (s.unread.take (min n (min (h.total - part.length)
      websocketStreamChunkSize))).length = min (min n (min (h.total - part.length)
      websocketStreamChunkSize)) s.unread.length := List.length_take
  -- `recv` takes a front of what is there, and no more than is missing of the frame
  have hsplit : s.unread = s.unread.take (min n (min (h.total - part.length)
      websocketStreamChunkSize)) ++ s.unread.drop (s.unread.take (min n (min (h.total - part.length)
      websocketStreamChunkSize))).length := by
    conv_lhs => rw [← List.take_append_drop (min n (min (h.total - part.length)
      websocketStreamChunkSize)) s.unread]
    rw [hlength, List.append_cancel_left_eq, List.drop_eq_drop_iff]
    omega
  generalize s.unread.take (min n (min (h.total - part.length) websocketStreamChunkSize)) = data at *
  have hdata : data ≠ [] := by
    rw [← List.length_pos_iff, hlength]
    omega
  rw [if_neg hdata]
  have hmore := hmid.more hsplit (by omega) rfl
  refine ⟨?_, Or.inr ?_⟩
  · exact hmore
  · have hdrop : (s.unread.drop data.length).length ≤ s.unread.length - min n 1 := by
      rw [List.length_drop]
      omega
    split_ifs <;> exact hdrop

/-- **One call of `recv`** that takes no slip. -/
theorem StreamInv.recFrame (hsrv : srv.handler = some handler) (h : StreamInv handler stream s)
    {n : Nat} (hsmooth : smoothCall srv s n = true) :
    StreamInv handler stream (recFrame srv s n) ∧ Reads s n (recFrame srv s n) := by
  by_cases hclosed : s.closed = true
  · rw [recFrame_closed hclosed]
    exact ⟨h, Or.inl hclosed⟩
  · rcases h with ⟨c, d, hb, hw⟩ | ⟨c, d, h, part, chunks, hmid⟩ | ⟨hc, -⟩
    · exact hb.recFrame hsrv hw hsmooth
    · exact hmid.recFrame hsrv hsmooth
    · exact absurd hc hclosed

theorem StreamInv.run (hsrv : srv.handler = some handler) (ns : List Nat)
    (h : StreamInv handler stream s) (hsmooth : smoothRun srv s ns = true) :
    StreamInv handler stream (runWebsocket srv s ns) := by
  induction ns generalizing s with
  | nil => exact h
  | cons n ns ih =>
      rw [smoothRun, Bool.and_eq_true] at hsmooth
      exact ih (h.recFrame hsrv hsmooth.1).1 hsmooth.2

theorem StreamInv.drained (hsrv : srv.handler = some handler) (ns : List Nat)
    (h : StreamInv handler stream s) (hsmooth : smoothRun srv s ns = true)
    (hreads : s.closed = true ∨ s.unread.length ≤ (ns.filter (0 < ·)).length) :
    (runWebsocket srv s ns).closed = true ∨ (runWebsocket srv s ns).unread = [] := by
  refine drained_of_reads (P := fun s ns => StreamInv handler stream s ∧ smoothRun srv s ns = true)
    ?_ ns ⟨h, hsmooth⟩ hreads
  rintro s n ns ⟨hinv, hsmooth⟩
  rw [smoothRun, Bool.and_eq_true] at hsmooth
  obtain ⟨hnext, hread⟩ := hinv.recFrame hsrv hsmooth.1
  exact ⟨⟨hnext, hsmooth.2⟩, hread⟩

end CWebUI.Websocket
