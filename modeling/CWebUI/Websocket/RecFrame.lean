import Mathlib.Algebra.GroupWithZero.Nat
import CWebUI.Websocket.Utf8

set_option autoImplicit false

/-! # Receiving websocket frames

`recFrameV8` (`websockets_send_recv.c`) and the streaming of messages to a handler
(`websockets_streaming.c`). Bytes are received into a buffer that holds an incomplete frame at
its front; every complete frame in it is handled, and the rest is moved to the front before the
next call of `recv`. A frame that is longer than the buffer makes the buffer grow.

An address with a stream handler takes data messages in pieces. A message of one frame is
passed on as it arrives: the call returns, and the next one reads the payload past the buffer
(`continueWebsocketStream`). A fragmented message is passed on frame by frame.

The socket is a stream of bytes that are still to come, and a run is a list of numbers, one for
each call of `recv`; `0` says that nothing is there. What the connection does is recorded in a
trace: messages on the input queue, frames that are sent, and callbacks of the handler.
-/

namespace CWebUI.Websocket

/-- `WEBSOCKET_INIT_INBUFFER_SIZE`. -/
def websocketInitInbufferSize : Nat := 300

/-- `WEBSOCKET_MAX_INBUFFER_SIZE`. -/
def websocketMaxInbufferSize : Nat := 65000

/-- `WEBSOCKET_MAX_FRAGMENTS`. -/
def websocketMaxFragments : Nat := 1024

/-- `WEBSOCKET_STREAM_CHUNK_SIZE`. -/
def websocketStreamChunkSize : Nat := 64 * 1024

/-! ## The header of a frame -/

/-- `Opcodes`. -/
inductive Opcode where
  | wsfContinue
  | wsfText
  | wsfBinary
  | wsfClose
  | wsfPing
  | wsfPong
  | wsfReserved
  deriving DecidableEq, Repr

/-- The opcode in the first byte of a frame. -/
def opcodeOf (b : UInt8) : Opcode :=
  match b &&& 0x0F with
  | 0 => .wsfContinue
  | 1 => .wsfText
  | 2 => .wsfBinary
  | 8 => .wsfClose
  | 9 => .wsfPing
  | 10 => .wsfPong
  | _ => .wsfReserved

/-- The frame carries data of a new message. -/
def Opcode.isData : Opcode → Bool
  | .wsfText => true
  | .wsfBinary => true
  | _ => false

/-- `websocket_frame`, with the number of bytes before the payload. -/
structure WebsocketFrame where
  fin : Bool
  opcode : Opcode
  mask : List UInt8
  realLength : Nat
  headerLength : Nat
  deriving DecidableEq, Repr

/-- The bytes of the frame, its header included. -/
def WebsocketFrame.total (f : WebsocketFrame) : Nat := f.headerLength + f.realLength

/-- The number that bytes denote, the most significant first. -/
def bigEndian (bytes : List UInt8) : Nat := bytes.foldl (fun n c => 256 * n + c.toNat) 0

/-- The header at the front of the buffer. -/
inductive HeaderScan where
  /-- The header is not complete. -/
  | more
  /-- The connection is closed with this status. -/
  | refuse (status : Nat)
  | frame (f : WebsocketFrame)
  deriving DecidableEq, Repr

/-- The bytes of the extended payload length. -/
def extendedBytes (playloadLength : UInt8) : Nat :=
  if playloadLength = 126 then 2 else if playloadLength = 127 then 8 else 0

/-- The header of a frame. The reserved bits and the mask bit are checked as soon as two bytes
are there. Of a length of eight bytes the upper four must be zero, the most significant bit
among them. -/
def scanHeader : List UInt8 → HeaderScan
  | b0 :: b1 :: rest =>
      -- RSV1 to RSV3 must be zero
      if b0 &&& 0x70 ≠ 0 then .refuse 1002
      -- a client must mask its frames
      else if b1 &&& 0x80 = 0 then .refuse 1002
      else
        let playloadLength := b1 &&& 0x7F
        let extended := extendedBytes playloadLength
        if rest.length < extended + 4 then .more
        else if playloadLength = 127 ∧ rest.take 4 ≠ [0, 0, 0, 0] then .refuse 1000
        else
          .frame {
            fin := b0 &&& 0x80 ≠ 0
            opcode := opcodeOf b0
            mask := (rest.drop extended).take 4
            realLength :=
              if extended = 0 then playloadLength.toNat else bigEndian (rest.take extended)
            headerLength := 2 + extended + 4 }
  | _ => .more

/-- The payload without its mask; `offset` bytes of it have gone before. -/
def unmask (mask : List UInt8) (offset : Nat) (payload : List UInt8) : List UInt8 :=
  (payload.zipIdx offset).map (fun p => p.1 ^^^ mask.getD (p.2 % 4) 0)

/-! ## The connection -/

/-- What a connection does. -/
inductive WsEvent where
  /-- `insert_websocket_input_queue`: the buffer of the message. -/
  | message (binary : Bool) (msg : List UInt8)
  /-- A PONG frame with this payload is sent. -/
  | pong (payload : List UInt8)
  /-- A CLOSE frame with this status is sent, and the socket is closed. -/
  | close (status : Nat)
  | onStart (binary : Bool)
  | onChunk (data : List UInt8)
  | onEnd (success : Bool)
  deriving DecidableEq, Repr

/-- A stream handler: whether it asks for an abort in the callback that ends the trace. -/
abbrev StreamHandler := List WsEvent → Bool

/-- What the connection depends on: the stream handler of its address, if there is one, and
whether `errno` is `EAGAIN` when a call of `recv` for no bytes returns. -/
structure WsServer where
  handler : Option StreamHandler
  errnoAgain : Bool

/-- The streaming fields of `socket_info`, and the context. -/
structure StreamState where
  fragmented : Bool
  remaining : Nat
  mask : List UInt8
  maskOffset : Nat
  aborted : Bool
  deriving DecidableEq, Repr

/-- The websocket fields of `socket_info`. The buffer is written without the frames that have
been handled. `inCall` says that the code waits in the loop of `recFrameV8`, and `closed` that
the socket is to be closed. -/
structure WsSocket where
  websocketBuffer : List UInt8
  bufferSize : Nat
  fragments : List (List UInt8)
  /-- `websocket_fragment_start_opcode`: whether the open message is binary. -/
  fragmentStartOpcode : Option Bool
  fragmentsLength : Nat
  fragmentCount : Nat
  stream : Option StreamState
  inCall : Bool
  closed : Bool
  trace : List WsEvent
  unread : List UInt8
  deriving DecidableEq, Repr

/-- `initWebsocketStructures`, with the bytes that are to come. -/
def initWebsocketStructures (unread : List UInt8) : WsSocket where
  websocketBuffer := []
  bufferSize := websocketInitInbufferSize
  fragments := []
  fragmentStartOpcode := none
  fragmentsLength := 0
  fragmentCount := 0
  stream := none
  inCall := false
  closed := false
  trace := []
  unread := unread

def WsSocket.emit (s : WsSocket) (e : WsEvent) : WsSocket := { s with trace := s.trace ++ [e] }

/-- `sendCloseFrameWithStatus`, and the end of the connection. -/
def WsSocket.closeWith (s : WsSocket) (status : Nat) : WsSocket :=
  { s.emit (.close status) with closed := true, inCall := false }

/-! ## The handler -/

/-- A callback of the handler, which may set `aborted`. -/
def WsSocket.callback (handler : StreamHandler) (s : WsSocket) (e : WsEvent) : WsSocket :=
  let s := s.emit e
  { s with stream := s.stream.map (fun st => { st with aborted := st.aborted || handler s.trace }) }

/-- `startWebsocketStream`. -/
def startWebsocketStream (handler : StreamHandler) (s : WsSocket) (f : WebsocketFrame)
    (fragmented : Bool) : WsSocket :=
  WsSocket.callback handler
    { s with
      stream := some {
        fragmented := fragmented
        remaining := if fragmented then 0 else f.realLength
        -- every fragment has a mask of its own
        mask := if fragmented then [0, 0, 0, 0] else f.mask
        maskOffset := 0
        aborted := false } }
    (.onStart (f.opcode = .wsfBinary))

/-- `on_chunk`, and for a message of one frame the count of what is missing. -/
def WsSocket.chunk (handler : StreamHandler) (s : WsSocket) (data : List UInt8) : WsSocket :=
  let s := s.callback handler (.onChunk data)
  { s with stream := s.stream.map (fun st =>
      if st.fragmented then st
      else { st with
        remaining := st.remaining - data.length
        maskOffset := (st.maskOffset + data.length) % 4 }) }

/-- `on_end`, and the end of the stream. -/
def WsSocket.endStream (s : WsSocket) (success : Bool) : WsSocket :=
  { s.emit (.onEnd success) with stream := none }

/-- The handler has asked for an abort. -/
def WsSocket.aborted (s : WsSocket) : Bool := (s.stream.map (·.aborted)).getD false

/-- What is missing of the streamed frame. -/
def WsSocket.remaining (s : WsSocket) : Nat := (s.stream.map (·.remaining)).getD 0

/-! ## One frame -/

/-- A data message is complete: text gets a terminator, and must be UTF-8. -/
def WsSocket.deliver (s : WsSocket) (binary : Bool) (msg : List UInt8) : WsSocket :=
  if binary then s.emit (.message true msg)
  else if isUtf8 msg ≠ 0 then s.closeWith 1007
  else s.emit (.message false (msg ++ [0]))

/-- A fragmented message is open, streamed or not. -/
def WsSocket.inFragments (s : WsSocket) : Bool :=
  (s.stream.map (·.fragmented)).getD false || s.fragmentStartOpcode.isSome

/-- A frame that starts a message and is not streamed as a whole. -/
def dataFrame (srv : WsServer) (s : WsSocket) (f : WebsocketFrame) (payload : List UInt8) :
    WsSocket :=
  if s.inFragments then s.closeWith 1002
  else if f.fin then
    if f.opcode = .wsfText ∧ websocketMaxInbufferSize ≤ f.realLength then s.closeWith 1000
    else s.deliver (f.opcode = .wsfBinary) payload
  else
    match srv.handler with
    | some handler =>
        -- the first fragment is a chunk of its own
        let s := (startWebsocketStream handler s f true).chunk handler payload
        if s.aborted then s.endStream false else s
    | none =>
        if websocketMaxInbufferSize ≤ f.realLength then s.closeWith 1009
        else
          { s with
            fragments := s.fragments ++ [payload]
            fragmentStartOpcode := some (f.opcode = .wsfBinary)
            fragmentsLength := f.realLength
            fragmentCount := 1 }

/-- The last frame of a fragmented message is there. -/
def endFragments (s : WsSocket) (binary : Bool) : WsSocket :=
  if binary = false ∧ websocketMaxInbufferSize ≤ s.fragmentsLength then s.closeWith 1000
  else
    WsSocket.deliver
      { s with fragments := [], fragmentStartOpcode := none, fragmentsLength := 0, fragmentCount := 0 }
      binary s.fragments.flatten

/-- A `WSF_CONTINUE` frame. -/
def continueFrame (srv : WsServer) (s : WsSocket) (f : WebsocketFrame) (payload : List UInt8) :
    WsSocket :=
  if s.inFragments = false then s.closeWith 1002
  else
    match s.stream, srv.handler with
    | some { fragmented := true, .. }, some handler =>
        let s := s.chunk handler payload
        if s.aborted ∨ f.fin then s.endStream (!s.aborted) else s
    | _, _ =>
        if websocketMaxInbufferSize - s.fragmentsLength ≤ f.realLength then s.closeWith 1009
        else if websocketMaxFragments < s.fragmentCount + 1 then s.closeWith 1009
        else
          let s := { s with
            -- an empty fragment is counted, but not kept
            fragments := if f.realLength = 0 then s.fragments else s.fragments ++ [payload]
            fragmentsLength := s.fragmentsLength + f.realLength
            fragmentCount := s.fragmentCount + 1 }
          if f.fin then endFragments s (s.fragmentStartOpcode.getD false) else s

/-- A control frame, which must be whole and short. -/
def controlFrame (s : WsSocket) (f : WebsocketFrame) (payload : List UInt8) : WsSocket :=
  if f.fin = false then s.closeWith 1002
  else if 125 < f.realLength then s.closeWith 1002
  else
    match f.opcode with
    | .wsfClose => s.closeWith 1000
    | .wsfPing => s.emit (.pong payload)
    | _ => s

/-- The `switch` of `recFrameV8`. -/
def handleFrame (srv : WsServer) (s : WsSocket) (f : WebsocketFrame) (payload : List UInt8) :
    WsSocket :=
  match f.opcode with
  | .wsfText | .wsfBinary => dataFrame srv s f payload
  | .wsfContinue => continueFrame srv s f payload
  | .wsfClose | .wsfPing | .wsfPong => controlFrame s f payload
  | .wsfReserved => s.closeWith 1002

/-! ## The frames in the buffer -/

/-- How the loop over the frames goes on. -/
inductive FrameLoop where
  /-- The next frame in the buffer, behind so many bytes. -/
  | next (s : WsSocket) (base : Nat)
  /-- To the next call of `recv`, or back to the caller. -/
  | stop (s : WsSocket)
  deriving DecidableEq, Repr

/-- The stream is at its end, or the call returns and the next one goes on. What follows the
frame in the buffer is kept only when the frame is complete. -/
def streamedSoFar (s : WsSocket) (total : Nat) : FrameLoop :=
  if s.remaining = 0 ∨ s.aborted then
    let remaining := s.remaining
    let aborted := s.aborted
    let s := s.endStream (!aborted)
    -- the rest of the payload must not be taken for frames
    if aborted ∧ 0 < remaining then .stop (s.closeWith 1000)
    else if total < s.websocketBuffer.length then
      .next { s with websocketBuffer := s.websocketBuffer.drop total } 0
    else .stop { s with websocketBuffer := [], inCall := false }
  else .stop { s with websocketBuffer := [], inCall := false }

/-- A message of one frame for a stream handler. `base` bytes of the buffer have been handled
before it. The end of the stream is looked for only when a part of the payload, or something
behind it, is in the buffer. -/
def streamFrame (handler : StreamHandler) (s : WsSocket) (f : WebsocketFrame) (base : Nat) :
    FrameLoop :=
  if 2 ^ 32 - 1 - (base + f.headerLength) < f.realLength then .stop (s.closeWith 1000)
  else
    let s := startWebsocketStream handler s f false
    -- `total_bytes_after_header > 0`
    if f.headerLength < s.websocketBuffer.length then
      let data := (s.websocketBuffer.drop f.headerLength).take f.realLength
      streamedSoFar (s.chunk handler (unmask f.mask 0 data)) f.total
    else .stop { s with websocketBuffer := [], inCall := false }

/-- A frame that is handled as a whole. -/
def wholeFrame (srv : WsServer) (s : WsSocket) (f : WebsocketFrame) (base : Nat) : FrameLoop :=
  if websocketMaxInbufferSize < f.realLength then .stop (s.closeWith 1009)
  else if s.websocketBuffer.length < f.total then
    -- the size is compared with the payload alone, not with the whole frame
    if base = 0 ∧ s.bufferSize < f.realLength then .stop { s with bufferSize := f.total + 10 }
    else .stop s
  else
    let payload := unmask f.mask 0 ((s.websocketBuffer.drop f.headerLength).take f.realLength)
    let s' := handleFrame srv s f payload
    let s' := { s' with websocketBuffer := s.websocketBuffer.drop f.total }
    if s'.closed ∨ s'.websocketBuffer = [] then .stop s' else .next s' (base + f.total)

/-- One round of the loop over the frames in the buffer. -/
def frameRound (srv : WsServer) (s : WsSocket) (base : Nat) : FrameLoop :=
  match scanHeader s.websocketBuffer with
  | .more => .stop s
  | .refuse status => .stop (s.closeWith status)
  | .frame f =>
      match srv.handler with
      | some handler =>
          if f.opcode.isData ∧ f.fin then streamFrame handler s f base
          else wholeFrame srv s f base
      | none => wholeFrame srv s f base

/-- The loop over the frames in the buffer. -/
def frameLoop (srv : WsServer) : Nat → WsSocket → Nat → WsSocket
  | 0, s, _ => s
  | fuel + 1, s, base =>
      match frameRound srv s base with
      | .next s base => frameLoop srv fuel s base
      | .stop s => s

/-! ## Calls of `recv` -/

/-- `continueWebsocketStream`, with a call of `recv` that gives at most `n` bytes. A call for no
bytes returns `CLIENT_DISCONNECTED`, and what follows is decided by `errno`. -/
def continueWebsocketStream (srv : WsServer) (handler : StreamHandler) (s : WsSocket)
    (st : StreamState) (n : Nat) : WsSocket :=
  let toRead := min st.remaining websocketStreamChunkSize
  if toRead = 0 ∧ srv.errnoAgain then s
  else
    let data := s.unread.take (min n toRead)
    -- `WebserverRecv` returns 0 when nothing is there, which is taken for a closed connection
    if data = [] then { s.endStream false with closed := true }
    else
      let s := { s with unread := s.unread.drop data.length }
      let s := s.chunk handler (unmask st.mask st.maskOffset data)
      if s.remaining = 0 ∨ s.aborted then
        let lost := s.aborted ∧ 0 < s.remaining
        { s.endStream (!s.aborted) with closed := lost }
      else s

/-- One call of `recv`, at the start of `recFrame` or in its loop. A call for no bytes, when the
buffer is full, ends the connection. -/
def recFrame (srv : WsServer) (s : WsSocket) (n : Nat) : WsSocket :=
  if s.closed then s
  else
    match s.inCall, s.stream, srv.handler with
    -- `websocket_streaming_active`, looked at only when the function is entered
    | false, some st, some handler => continueWebsocketStream srv handler s st n
    | _, _, _ =>
        let maxRead := s.bufferSize - s.websocketBuffer.length
        if maxRead = 0 then { s with closed := true, inCall := false }
        else
          let data := s.unread.take (min n maxRead)
          if data = [] then { s with inCall := false }
          else
            let s := { s with
              websocketBuffer := s.websocketBuffer ++ data
              unread := s.unread.drop data.length
              inCall := true }
            frameLoop srv (s.websocketBuffer.length + 1) s 0

/-- A run of the connection. -/
def runWebsocket (srv : WsServer) (s : WsSocket) (ns : List Nat) : WsSocket :=
  ns.foldl (recFrame srv) s

end CWebUI.Websocket
