import CWebUI.Websocket.Decoder

set_option autoImplicit false

/-! # The callbacks of a stream handler

What a client's bytes mean on an address with a stream handler. Every data message is one
`on_start`, calls of `on_chunk` whose bytes together are the payload, and one `on_end`. A message
of one frame may be cut into chunks anywhere; a fragmented message is one chunk a frame. The
handler may ask for an abort in any callback, and `on_end` tells whether it did. Control frames
are what they are without a handler (`controlVerdict`), and a data frame inside a fragmented
message is an error.

How a message of one frame is cut is left open, and the handler may look at the cut, so the
reference is a relation: `Served` for the frames that have come to their end, and `Awaits` for
what is done with the bytes behind them.
-/

namespace CWebUI.Websocket

/-! ## The reference -/

/-- Between two frames: whether a fragmented message is open, and what has been done. -/
structure StreamDecoder where
  gathering : Bool
  trace : List WsEvent
  closed : Bool
  deriving DecidableEq, Repr

/-- Before the first frame. -/
def StreamDecoder.init : StreamDecoder := ⟨false, [], false⟩

/-- The connection ends. -/
def StreamDecoder.fail (d : StreamDecoder) (status : Nat) : StreamDecoder :=
  { d with trace := d.trace ++ [.close status], closed := true }

/-- The handler asks for an abort in one of these callbacks, which follow the trace. -/
def aborts (handler : StreamHandler) (trace : List WsEvent) : List WsEvent → Bool
  | [] => false
  | e :: es => handler (trace ++ [e]) || aborts handler (trace ++ [e]) es

/-- Callbacks of a message. The last of the message, or an abort, is followed by `on_end`. -/
def StreamDecoder.pass (handler : StreamHandler) (d : StreamDecoder) (es : List WsEvent)
    (last : Bool) : StreamDecoder :=
  let stops := aborts handler d.trace es
  if stops ∨ last then
    { d with gathering := false, trace := d.trace ++ es ++ [.onEnd (!stops)] }
  else { d with gathering := true, trace := d.trace ++ es }

/-- A control frame, as without a handler. -/
def StreamDecoder.control (d : StreamDecoder) : Verdict → StreamDecoder
  | .fail status => d.fail status
  | .pong payload => { d with trace := d.trace ++ [.pong payload] }
  | _ => d

/-- A complete frame that is no message by itself: a fragment or a control frame. -/
def StreamDecoder.frame (handler : StreamHandler) (d : StreamDecoder) (h : FrameHeader)
    (payload : List UInt8) : StreamDecoder :=
  match h.opcode with
  -- a fragmented message goes on
  | 0 => if d.gathering then d.pass handler [.onChunk payload] h.fin else d.fail 1002
  -- a fragmented message starts, unless one is open
  | 1 =>
      if d.gathering then d.fail 1002
      else d.pass handler [.onStart false, .onChunk payload] false
  | 2 =>
      if d.gathering then d.fail 1002
      else d.pass handler [.onStart true, .onChunk payload] false
  | 8 => d.control (controlVerdict 8 h.fin payload)
  | 9 => d.control (controlVerdict 9 h.fin payload)
  | 10 => d.control (controlVerdict 10 h.fin payload)
  | _ => d.fail 1002

/-- The frame is a message by itself. -/
def FrameHeader.isMessage (h : FrameHeader) : Bool := h.fin && (h.opcode = 1 || h.opcode = 2)

/-- The callbacks before `on_end` of a message of one frame that is cut into these chunks. -/
def pieces (h : FrameHeader) (chunks : List (List UInt8)) : List WsEvent :=
  .onStart (h.opcode = 2) :: chunks.map .onChunk

/-- The frames of these bytes have come to their end, and this is what has been done. -/
inductive Served (handler : StreamHandler) : List UInt8 → StreamDecoder → Prop where
  | start : Served handler [] StreamDecoder.init
  /-- A fragment or a control frame. -/
  | frame {c bytes : List UInt8} {d : StreamDecoder} {h : FrameHeader} :
      Served handler c d → d.closed = false → decodeHeader bytes = .header h →
      bytes.length = h.total → h.isMessage = false →
      h.payloadLength ≤ websocketMaxInbufferSize →
      Served handler (c ++ bytes) (d.frame handler h (h.payload bytes))
  /-- A message of one frame, in any chunks. -/
  | message {c bytes : List UInt8} {d : StreamDecoder} {h : FrameHeader}
      (chunks : List (List UInt8)) :
      Served handler c d → d.closed = false → d.gathering = false →
      decodeHeader bytes = .header h → bytes.length = h.total → h.isMessage = true →
      chunks.flatten = h.payload bytes →
      Served handler (c ++ bytes) (d.pass handler (pieces h chunks) true)

/-- What is done with the bytes behind the last frame that has come to its end. -/
inductive Awaits (handler : StreamHandler) (d : StreamDecoder) (rest : List UInt8) :
    StreamDecoder → Prop where
  /-- Nothing is read behind the end of the connection. -/
  | closed : d.closed = true → Awaits handler d rest d
  | header : d.closed = false → decodeHeader rest = .incomplete → Awaits handler d rest d
  /-- A fragment or a control frame is looked at when it is complete. -/
  | payload {h : FrameHeader} : d.closed = false → decodeHeader rest = .header h →
      h.isMessage = false → h.payloadLength ≤ websocketMaxInbufferSize → rest.length < h.total →
      Awaits handler d rest d
  | failed {status : Nat} : d.closed = false → decodeHeader rest = .failed status →
      Awaits handler d rest (d.fail status)
  | large {h : FrameHeader} : d.closed = false → decodeHeader rest = .header h →
      h.isMessage = false → websocketMaxInbufferSize < h.payloadLength →
      Awaits handler d rest (d.fail 1009)
  /-- A message inside a fragmented message is an error. -/
  | interrupted {h : FrameHeader} : d.closed = false → decodeHeader rest = .header h →
      h.isMessage = true → d.gathering = true → Awaits handler d rest (d.fail 1002)
  /-- A message of one frame is passed on as it comes. -/
  | streaming {h : FrameHeader} (chunks : List (List UInt8)) :
      d.closed = false → d.gathering = false → decodeHeader rest = .header h →
      h.isMessage = true → rest.length < h.total → chunks.flatten = h.payload rest →
      chunks = [] ∨ aborts handler d.trace (pieces h chunks) = false →
      Awaits handler d rest { d with trace := d.trace ++ pieces h chunks }
  /-- The handler does not want the rest of the message, and the connection ends, with a CLOSE
  frame or without. -/
  | aborted {h : FrameHeader} (chunks : List (List UInt8)) (told : Bool) :
      d.closed = false → d.gathering = false → decodeHeader rest = .header h →
      h.isMessage = true → rest.length < h.total → chunks.flatten = h.payload rest →
      aborts handler d.trace (pieces h chunks) = true →
      Awaits handler d rest
        { d with
          trace := d.trace ++ pieces h chunks ++ [.onEnd false] ++
            (if told then [.close 1000] else [])
          closed := true }

/-- The connection has done with all bytes that it has read what the reference says. -/
def ServesStream (handler : StreamHandler) (stream : List UInt8) (s : WsSocket) : Prop :=
  ∃ c rest d d', stream = c ++ rest ++ s.unread ∧ Served handler c d ∧
    Awaits handler d rest d' ∧ s.trace = d'.trace ∧ s.closed = d'.closed

/-! ## The order of the callbacks -/

/-- The order of callbacks, from whether a message is open: `on_start` comes first and
`on_end` last, and there is nothing behind a callback out of its order. -/
def callbackStep : Option Bool → WsEvent → Option Bool
  | some false, .onStart _ => some true
  | some true, .onChunk _ => some true
  | some true, .onEnd _ => some false
  | _, .onStart _ => none
  | _, .onChunk _ => none
  | _, .onEnd _ => none
  | state, _ => state

/-- Whether a message is open behind a trace; `none` if a callback was out of its order. -/
def callbackState (trace : List WsEvent) : Option Bool := trace.foldl callbackStep (some false)

theorem callbackState_append (t es : List WsEvent) :
    callbackState (t ++ es) = es.foldl callbackStep (callbackState t) := List.foldl_append

theorem foldl_chunks (chunks : List (List UInt8)) :
    (chunks.map WsEvent.onChunk).foldl callbackStep (some true) = some true := by
  induction chunks with
  | nil => rfl
  | cons c cs ih => exact ih

theorem foldl_pieces (h : FrameHeader) (chunks : List (List UInt8)) :
    (pieces h chunks).foldl callbackStep (some false) = some true :=
  foldl_chunks chunks

variable {handler : StreamHandler} {d d' : StreamDecoder} {c rest : List UInt8}

theorem callbackState_fail (h : callbackState d.trace = some d.gathering) (status : Nat) :
    callbackState (d.fail status).trace = some (d.fail status).gathering := by
  show callbackState (d.trace ++ [.close status]) = some d.gathering
  rw [callbackState_append, h]
  cases d.gathering <;> rfl

/-- Callbacks that leave the message open, and `on_end` behind them if they are the last. -/
theorem callbackState_pass {es : List WsEvent} (last : Bool)
    (hes : es.foldl callbackStep (callbackState d.trace) = some true) :
    callbackState (d.pass handler es last).trace = some (d.pass handler es last).gathering := by
  unfold StreamDecoder.pass
  dsimp only
  -- `on_end` closes what the callbacks left open
  split_ifs
  · rw [callbackState_append, callbackState_append, hes]
    rfl
  · rw [callbackState_append, hes]

theorem callbackState_control (h : callbackState d.trace = some d.gathering) (v : Verdict) :
    callbackState (d.control v).trace = some (d.control v).gathering := by
  cases v with
  | fail status => exact callbackState_fail h status
  | pong payload =>
      show callbackState (d.trace ++ [.pong payload]) = some d.gathering
      rw [callbackState_append, h]
      cases d.gathering <;> rfl
  | complete binary bytes => exact h
  | gather m => exact h
  | ignore => exact h

theorem callbackState_frame (h : callbackState d.trace = some d.gathering) (hdr : FrameHeader)
    (payload : List UInt8) :
    callbackState (d.frame handler hdr payload).trace =
      some (d.frame handler hdr payload).gathering := by
  have hstart : ∀ binary, d.gathering = false →
      [WsEvent.onStart binary, .onChunk payload].foldl callbackStep (callbackState d.trace) =
        some true := by
    intro binary hclosed
    rw [h, hclosed]
    rfl
  unfold StreamDecoder.frame
  split
  · split_ifs with hopen
    · apply callbackState_pass
      rw [h, hopen]
      rfl
    · exact callbackState_fail h 1002
  · split_ifs with hopen
    · exact callbackState_fail h 1002
    · exact callbackState_pass false (hstart false (by simpa using hopen))
  · split_ifs with hopen
    · exact callbackState_fail h 1002
    · exact callbackState_pass false (hstart true (by simpa using hopen))
  · exact callbackState_control h _
  · exact callbackState_control h _
  · exact callbackState_control h _
  · exact callbackState_fail h 1002

/-- **Between two frames** a message is open exactly while a fragmented message is gathered. -/
theorem Served.callbackState (h : Served handler c d) :
    callbackState d.trace = some d.gathering := by
  induction h with
  | start => rfl
  | frame _ _ _ _ _ _ ih => exact callbackState_frame ih _ _
  | message chunks _ _ hnone _ _ _ _ ih =>
      apply callbackState_pass
      rw [ih, hnone]
      exact foldl_pieces _ chunks

/-- **Every callback is in its order**, whatever has been read. -/
theorem Awaits.ordered (h : Awaits handler d rest d') (hd : callbackState d.trace = some d.gathering) :
    callbackState d'.trace ≠ none := by
  have hpieces : ∀ hdr chunks, d.gathering = false →
      CWebUI.Websocket.callbackState (d.trace ++ pieces hdr chunks) = some true := by
    intro hdr chunks hnone
    rw [callbackState_append, hd, hnone]
    exact foldl_pieces hdr chunks
  cases h with
  | closed => simp [hd]
  | header => simp [hd]
  | payload => simp [hd]
  | failed => simp [callbackState_fail hd]
  | large => simp [callbackState_fail hd]
  | interrupted => simp [callbackState_fail hd]
  | streaming chunks _ hnone => simp [hpieces _ chunks hnone]
  -- the CLOSE frame, if there is one, is no callback
  | aborted chunks told _ hnone =>
      rw [callbackState_append, callbackState_append, hpieces _ chunks hnone]
      cases told <;> simp [callbackStep]

theorem ServesStream.ordered {stream : List UInt8} {s : WsSocket}
    (h : ServesStream handler stream s) : callbackState s.trace ≠ none := by
  obtain ⟨c, rest, d, d', -, hserved, hawaits, htrace, -⟩ := h
  rw [htrace]
  exact hawaits.ordered hserved.callbackState

/-! ## A message without `on_end` -/

/-- The handler has asked for an abort somewhere in the trace. -/
def Aborted (handler : StreamHandler) (trace : List WsEvent) : Prop :=
  ∃ t, t <+: trace ∧ handler t = true

theorem Aborted.append {t : List WsEvent} (h : Aborted handler t) (es : List WsEvent) :
    Aborted handler (t ++ es) := by
  obtain ⟨p, hp, hasks⟩ := h
  exact ⟨p, hp.trans (List.prefix_append t es), hasks⟩

/-- A failure that is reported in this trace is an abort. -/
def FailureIsAbort (handler : StreamHandler) (trace : List WsEvent) : Prop :=
  .onEnd false ∈ trace → Aborted handler trace

theorem FailureIsAbort.append {t es : List WsEvent} (h : FailureIsAbort handler t)
    (hes : .onEnd false ∉ es) : FailureIsAbort handler (t ++ es) := by
  intro hmem
  exact (h ((List.mem_append.mp hmem).resolve_right hes)).append es

end CWebUI.Websocket
