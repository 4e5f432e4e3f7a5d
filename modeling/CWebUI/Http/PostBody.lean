import CWebUI.Basic.Lists
import CWebUI.Http.KeepAlive

set_option autoImplicit false

/-! # The body of a POST request in the buffer

`handleClientHeaderData` as a whole (`system_sockets.c`): the header phase, the checks at the
end of the header, and the body of a POST request that no stream handler takes. The body is
copied from the header buffer to the post buffer, first what came behind the header, then read
by read. A read may reach into the next request, and `recv_post_payload` moves these bytes to
the front of the header buffer.

The invariant of the body phase (`BodyPhase`) is that the header buffer is empty and that the
stream continues with the part of the body that is not in the post buffer.
-/

namespace CWebUI.Http

open ByteString ListLemmas CWebUI.Proxy

/-! ## The server -/

/-- An entry of the list of stream handlers, as far as the checks read it. -/
structure PostStreamHandlerEntry where
  url : List UInt8
  maxSize : UInt64
  deriving DecidableEq, Repr

/-- What a request depends on besides its bytes: the proxy's registrations, `max_post_size`, the
stream handlers, the answer of `postBufferReserve`, whose budget all connections share, and the
bytes that `WebserverMalloc` finds in fresh memory. -/
structure PostServer where
  registrations : List ProxyRegistration
  maxPostSize : Int32
  streamHandlers : List PostStreamHandlerEntry
  postBufferReserve : UInt64 → Bool
  uninit : Nat → UInt8

/-- `skipLeadingSlash`. -/
def skipLeadingSlash : List UInt8 → List UInt8
  | 47 :: url => url
  | url => url

/-- `findPostStreamHandler`. -/
def findPostStreamHandler (srv : PostServer) (url : Option (List UInt8)) :
    Option PostStreamHandlerEntry :=
  match url with
  | none => none
  | some url => srv.streamHandlers.find? (fun e => e.url = skipLeadingSlash url)

/-- The stream handler of a request. Only a multipart body is streamed. -/
def streamHandlerOf (srv : PostServer) (header : HttpRequestHeader) :
    Option PostStreamHandlerEntry :=
  if header.contenttype = .multipartFormData then findPostStreamHandler srv header.url else none

/-- The limit for the body: the handler's own, if it has one, else `max_post_size` as an
unsigned number. -/
def maxBodySize (srv : PostServer) (header : HttpRequestHeader) : UInt64 :=
  match streamHandlerOf srv header with
  | some e => if 0 < e.maxSize then e.maxSize else srv.maxPostSize.toInt64.toUInt64
  | none => srv.maxPostSize.toInt64.toUInt64

/-- `check_post_header`, without starting the stream: the status to answer with, if the
request may not proceed. -/
def checkPostHeader (srv : PostServer) (header : HttpRequestHeader) : Option Nat :=
  if header.contenttype = .multipartFormData ∧ header.boundary = none then some 400
  else if maxBodySize srv header < header.contentlenght then some 413
  else none

/-! ## One piece of the body -/

/-- The results of `recv_post_payload`. -/
inductive PayloadStatus where
  /-- `0`: more of the body is to come. -/
  | more
  /-- `1`: the body is complete. -/
  | complete
  /-- `3`: there is no memory for the body, and the request has been answered with 503. -/
  | refused
  deriving DecidableEq, Repr

/-- The post buffer, allocated in full with a terminator behind it when the first bytes of the
body are there. -/
def allocPostBuffer (srv : PostServer) (header : HttpRequestHeader) : Option HttpRequestHeader :=
  match header.postBuffer with
  | some _ => some header
  | none =>
      if srv.postBufferReserve (header.contentlenght + 1) then
        some { header with
          postBufferReserved := header.contentlenght + 1
          postBuffer := some (((List.range (header.contentlenght + 1).toNat).map srv.uninit).set
            header.contentlenght.toNat 0) }
      else none

/-- `memcpy` of `src` behind what is in the post buffer. -/
def copyPayload (header : HttpRequestHeader) (src : List UInt8) : HttpRequestHeader :=
  { header with
    postBuffer := header.postBuffer.map (fun b => memcpyAt b header.postBufferPos.toNat src)
    postBufferPos := header.postBufferPos + src.length.toUInt32 }

/-- `recv_post_payload`, for a body that is not streamed: the header record, and the header
buffer, where the piece `buffer` stands. -/
def recvPostPayload (srv : PostServer) (header : HttpRequestHeader) (buffer : List UInt8) :
    HttpRequestHeader × List UInt8 × PayloadStatus :=
  match allocPostBuffer srv header with
  | none => (header, [], .refused)
  | some header =>
      let len : UInt32 := buffer.length.toUInt32
      if (header.postBufferPos + len).toUInt64 ≤ header.contentlenght then
        let header := copyPayload header buffer
        (header, [],
          if header.postBufferPos.toUInt64 = header.contentlenght then .complete else .more)
      else
        let diff : UInt32 := (header.contentlenght - header.postBufferPos.toUInt64).toUInt32
        let header := copyPayload header (buffer.take diff.toNat)
        if diff < len then (header, buffer.drop diff.toNat, .complete)
        else
          (header, [],
            if header.postBufferPos.toUInt64 = header.contentlenght then .complete else .more)

/-! ## Whole requests -/

/-- How `handleClientHeaderData` ends, when it does not just wait. -/
inductive RequestOutcome where
  /-- `1`: the request is to be served. -/
  | complete
  /-- `2`: the reverse proxy has taken over. -/
  | reverseProxy
  /-- `3`: the request has been answered with an error page, if one was sent. -/
  | error (status : Option Nat)
  /-- The body goes to a stream handler. -/
  | streaming (handler : PostStreamHandlerEntry)
  deriving DecidableEq, Repr

/-- The connection with another header record. -/
def HeaderReader.setHeader (r : HeaderReader) (header : HttpRequestHeader) : HeaderReader :=
  { r with sock := { r.sock with header := header } }

/-- `finish_error_response`: what is left of the request is dropped. -/
def HeaderReader.finishErrorResponse (r : HeaderReader) : HeaderReader :=
  { r with headerBuffer := [] }

/-- The request is handed on. -/
def HeaderReader.handOn (r : HeaderReader) : HeaderReader :=
  r.setHeader { r.sock.header with headerComplete := false }

/-- A piece of the body that stands at the front of the header buffer. -/
def payloadRound (srv : PostServer) (r : HeaderReader) (piece : List UInt8) :
    HeaderReader × Option RequestOutcome :=
  match recvPostPayload srv r.sock.header piece with
  | (header, buffer, .more) => ({ r with headerBuffer := buffer }.setHeader header, none)
  | (header, buffer, .complete) =>
      (({ r with headerBuffer := buffer }.setHeader header).handOn, some .complete)
  | (header, _, .refused) =>
      ((r.setHeader header).finishErrorResponse, some (.error (some 503)))

/-- A round of the loop of `handleClientHeaderData` in the body of a POST request, with a call
of `recv` that gives at most `n` bytes. -/
def bodyRound (srv : PostServer) (r : HeaderReader) (n : Nat) :
    HeaderReader × Option RequestOutcome :=
  if r.headerBuffer.length < webserverMaxHeaderLineLenght then
    let len := ((r.recv n).headerBuffer.drop r.headerBuffer.length).length
    if len = 0 then (r, none)
    else if r.sock.header.postBufferPos.toUInt64 < r.sock.header.contentlenght then
      payloadRound srv (r.recv n) ((r.recv n).headerBuffer.take len)
    else ({ r with unread := (r.recv n).unread }, none)
  else (r.finishErrorResponse, some (.error (some 500)))

/-- A POST request at the end of its header. With `-3` the first bytes of the body are in the
header buffer already. -/
def postHeaderEnd (srv : PostServer) (r : HeaderReader) (status : HeaderStatus) :
    HeaderReader × Option RequestOutcome :=
  match checkPostHeader srv r.sock.header with
  | some code =>
      ((r.setHeader { r.sock.header with error := true }).finishErrorResponse,
        some (.error (some code)))
  | none =>
      if r.sock.header.contentlenght = 0 then (r.handOn, some .complete)
      else
        match streamHandlerOf srv r.sock.header with
        | some e => (r, some (.streaming e))
        | none =>
            if status = .complete then (r, none) else payloadRound srv r r.headerBuffer

/-- The end of a header. A request for the websocket protocol is handed on at once, whatever
its method. -/
def requestHeaderEnd (srv : PostServer) (r : HeaderReader) (status : HeaderStatus) :
    HeaderReader × Option RequestOutcome :=
  let r' := r.setHeader (checkIskWebsocketConnection r.sock.header)
  if isWebsocketRequest r.sock.header then (r'.handOn, some .complete)
  else
    let r' := if status = .complete then { r' with headerBuffer := [] } else r'
    if r'.sock.header.method = .post then postHeaderEnd srv r' status
    else (r'.handOn, some .complete)

/-- What `handleClientHeaderData` does with the end of the header phase. -/
def afterHeader (srv : PostServer) (r : HeaderReader) : HeaderOutcome →
    HeaderReader × Option RequestOutcome
  | .internalError => (r.finishErrorResponse, some (.error (some 500)))
  | .ended .lineTooLong => (r.finishErrorResponse, some (.error (some 400)))
  | .ended .methodNotAllowed =>
      (r.finishErrorResponse,
        some (.error (if r.sock.header.noWebsocketSupport then none else some 405)))
  | .ended .reverseProxy => (r, some .reverseProxy)
  | .ended .headerTooLarge => (r.finishErrorResponse, some (.error (some 431)))
  | .ended status => requestHeaderEnd srv r status

/-- A round of the loop of `handleClientHeaderData`. Between two calls the header is complete
only when the body of a POST request is missing. -/
def requestRound (srv : PostServer) (r : HeaderReader) (n : Nat) :
    HeaderReader × Option RequestOutcome :=
  if r.sock.header.method = .post ∧ r.sock.header.headerComplete then bodyRound srv r n
  else
    match headerRound srv.registrations r n with
    | (r', none) => (r', none)
    | (r', some outcome) => afterHeader srv r' outcome

/-- A request, with the calls of `recv` giving these numbers of bytes. A call of
`handleClientHeaderData` is a part of this run: it returns to the event loop between two
rounds, and the next call goes on. -/
def runRequest (srv : PostServer) :
    HeaderReader → List Nat → HeaderReader × Option RequestOutcome
  | r, [] => (r, none)
  | r, n :: ns =>
      match requestRound srv r n with
      | (r', some o) => (r', some o)
      | (r', none) => runRequest srv r' ns

/-! ## The header parser leaves the body alone -/

/-- The fields of a header record that the body phase owns. -/
def HttpRequestHeader.bodyState (header : HttpRequestHeader) :
    Bool × Option (List UInt8) × UInt32 :=
  (header.headerComplete, header.postBuffer, header.postBufferPos)

theorem urlSanityCheck_bodyState (header : HttpRequestHeader) :
    (urlSanityCheck header).bodyState = header.bodyState := by
  simp only [urlSanityCheck]
  split_ifs <;> rfl

theorem knownMethod_bodyState (method : HttpMethod) (skip : Nat) (line : List UInt8)
    (header : HttpRequestHeader) :
    (knownMethod method skip line header).bodyState = header.bodyState := by
  rw [knownMethod, urlSanityCheck_bodyState, requestUrl_eq]
  rfl

theorem requestLine_bodyState (line : List UInt8) (header : HttpRequestHeader) :
    (requestLine line header).1.bodyState = header.bodyState := by
  have hmethod (header : HttpRequestHeader) :
      (requestMethod line header).bodyState = header.bodyState := by
    unfold requestMethod
    split_ifs
    · rw [knownMethod_bodyState]
      rfl
    · exact knownMethod_bodyState _ _ _ _
    · exact knownMethod_bodyState _ _ _ _
    · rfl
  unfold requestLine
  cases httpVersion line with
  | unsupported => rfl
  | http10 => exact hmethod header
  | http11 => exact hmethod { header with isHttp11 := true }

theorem cookieNameStep_bodyState (header : HttpRequestHeader) (name : List UInt8) (c : UInt8) :
    (cookieNameStep header name c).1.bodyState = header.bodyState := by
  unfold cookieNameStep
  split_ifs <;> rfl

theorem cookieStep_bodyState (header : HttpRequestHeader) (state : ParseState) (c : UInt8) :
    (cookieStep header state c).1.bodyState = header.bodyState := by
  cases state with
  | skipBlanks =>
      rw [cookieStep]
      split_ifs
      · rfl
      · exact cookieNameStep_bodyState header [] c
  | parseName name => exact cookieNameStep_bodyState header name c
  | parseValue name value =>
      rw [cookieStep]
      split_ifs <;> rfl

theorem parseCookies_bodyState (text : List UInt8) (header : HttpRequestHeader) :
    (parseCookies text header).bodyState = header.bodyState := by
  have hloop : ∀ (text : List UInt8) (s : HttpRequestHeader × ParseState),
      (text.foldl (fun s c => cookieStep s.1 s.2 c) s).1.bodyState = s.1.bodyState := by
    intro text
    induction text with
    | nil => intro s; rfl
    | cons c text ih =>
        intro s
        rw [List.foldl_cons, ih]
        exact cookieStep_bodyState s.1 s.2 c
  have hrun := hloop text (header, ParseState.parseName [])
  unfold parseCookies
  revert hrun
  rcases text.foldl (fun s c => cookieStep s.1 s.2 c) (header, ParseState.parseName []) with
    ⟨h, name | ⟨name, value⟩ | _⟩
  · intro hrun
    simp only
    split_ifs
    · exact hrun
    · exact hrun
  · intro hrun
    exact hrun
  · intro hrun
    exact hrun

theorem matchHeaderFields_bodyState (line : List UInt8) (header : HttpRequestHeader) :
    (matchHeaderFields line header).bodyState = header.bodyState := by
  unfold matchHeaderFields
  split
  · unfold aBlock
    repeat' split
    all_goals rfl
  · unfold cBlock
    split_ifs
    · rfl
    · exact parseCookies_bodyState _ _
    · unfold contentLengthField
      simp only
      split_ifs <;> rfl
    · unfold contentTypeField
      split_ifs <;> rfl
    · split <;> rfl
  · unfold hBlock
    split <;> rfl
  · unfold iBlock
    repeat' split
    all_goals rfl
  · unfold oBlock
    split <;> rfl
  · unfold rBlock
    split <;> rfl
  · unfold sBlock
    repeat' split
    all_goals rfl
  · unfold uBlock
    repeat' split
    all_goals rfl
  · rfl

theorem analyseHeaderLine_bodyState (line : List UInt8) (header : HttpRequestHeader) :
    (analyseHeaderLine line header).1.bodyState = header.bodyState := by
  unfold analyseHeaderLine
  split_ifs
  · exact requestLine_bodyState line header
  · exact matchHeaderFields_bodyState line header

/-! ## One piece of the body -/

/-- A part of the body is in the post buffer, or the buffer has not been allocated. -/
structure PartlyCopied (body : List UInt8) (header : HttpRequestHeader) : Prop where
  length : header.contentlenght.toNat = body.length
  pos : header.postBufferPos.toNat < body.length
  fresh : header.postBuffer = none → header.postBufferPos = 0
  filled : ∀ b, header.postBuffer = some b → Filled body [0] header.postBufferPos.toNat b

/-- The whole body is in the post buffer, with a terminator behind it. -/
structure FullyCopied (body : List UInt8) (header : HttpRequestHeader) : Prop where
  pos : header.postBufferPos.toNat = body.length
  buffer : header.postBuffer = some (body ++ [0])

/-- The records agree in what tells the body of which request is read. -/
structure SameBody (header header' : HttpRequestHeader) : Prop where
  method : header'.method = header.method
  headerComplete : header'.headerComplete = header.headerComplete
  contentlenght : header'.contentlenght = header.contentlenght

/-- The buffer that is allocated has room for the body, and the terminator. -/
theorem allocPostBuffer_spec {srv : PostServer} {body : List UInt8} {header : HttpRequestHeader}
    (hsmall : body.length < 2 ^ 31) (h : PartlyCopied body header) :
    (allocPostBuffer srv header = none ∧
      srv.postBufferReserve (header.contentlenght + 1) = false) ∨
    ∃ header' b, allocPostBuffer srv header = some header' ∧ header'.postBuffer = some b ∧
      Filled body [0] header.postBufferPos.toNat b ∧
      header'.postBufferPos = header.postBufferPos ∧ SameBody header header' := by
  cases hb : header.postBuffer with
  | some b =>
      have halloc : allocPostBuffer srv header = some header := by
        rw [allocPostBuffer, hb]
      exact .inr ⟨header, b, halloc, hb, h.filled b hb, rfl, rfl, rfl, rfl⟩
  | none =>
      cases hres : srv.postBufferReserve (header.contentlenght + 1) with
      | false => exact .inl ⟨by simp [allocPostBuffer, hb, hres], rfl⟩
      | true =>
          have hn := h.length
          have hroom : (header.contentlenght + 1).toNat = body.length + 1 := by
            rw [UInt64.toNat_add, hn]
            show (body.length + 1) % 2 ^ 64 = _
            omega
          have hset : ((List.range (header.contentlenght + 1).toNat).map srv.uninit).set
              header.contentlenght.toNat 0 = (List.range body.length).map srv.uninit ++ [0] := by
            rw [hroom, hn, List.range_succ, List.map_append,
              List.set_append_right _ _ (by simp)]
            simp
          have hfilled : Filled body [0] header.postBufferPos.toNat
              ((List.range body.length).map srv.uninit ++ [0]) := by
            rw [h.fresh hb]
            exact Filled.start (by simp)
          have halloc : allocPostBuffer srv header = some { header with
              postBufferReserved := header.contentlenght + 1
              postBuffer := some ((List.range body.length).map srv.uninit ++ [0]) } := by
            rw [allocPostBuffer, hb, hset]
            exact if_pos hres
          exact .inr ⟨_, _, halloc, rfl, hfilled, rfl, rfl, rfl, rfl⟩

/-- The bytes that come next belong to the body, as far as they fit. -/
theorem copyPayload_filled {body src b : List UInt8} {header : HttpRequestHeader}
    (hsmall : body.length < 2 ^ 31) (hb : header.postBuffer = some b)
    (hf : Filled body [0] header.postBufferPos.toNat b)
    (hpos : header.postBufferPos.toNat ≤ body.length)
    (hsrc : src <+: body.drop header.postBufferPos.toNat) :
    (copyPayload header src).postBufferPos.toNat = header.postBufferPos.toNat + src.length ∧
      ∃ b', (copyPayload header src).postBuffer = some b' ∧
        Filled body [0] (header.postBufferPos.toNat + src.length) b' := by
  have hlen := hsrc.length_le
  rw [List.length_drop] at hlen
  constructor
  · show (header.postBufferPos + src.length.toUInt32).toNat = _
    rw [UInt32.toNat_add, Nat.toUInt32_eq, UInt32.toNat_ofNat']
    omega
  · refine ⟨memcpyAt b header.postBufferPos.toNat src, ?_, hf.memcpyAt hsrc hpos⟩
    simp [copyPayload, hb]

/-- What a piece of the body leads to: there is no memory for it, or the body is complete and
what follows it is left in the buffer, or more of it is to come. -/
def PayloadResult (srv : PostServer) (header : HttpRequestHeader) (body rest unread : List UInt8)
    (out : HttpRequestHeader × List UInt8 × PayloadStatus) : Prop :=
  match out.2.2 with
  | .refused => srv.postBufferReserve (header.contentlenght + 1) = false
  | .complete => FullyCopied body out.1 ∧ out.2.1 ++ unread = rest
  | .more => out.2.1 = [] ∧ PartlyCopied body out.1 ∧
      unread = body.drop out.1.postBufferPos.toNat ++ rest ∧ SameBody header out.1

/-- A piece that lies in the body. -/
theorem payloadResult_inside {srv : PostServer} {header header' : HttpRequestHeader}
    {body rest piece unread b : List UInt8} (hsmall : body.length < 2 ^ 31)
    (hn : header'.contentlenght.toNat = body.length) (hsame : SameBody header header')
    (hb : header'.postBuffer = some b) (hf : Filled body [0] header'.postBufferPos.toNat b)
    (hfit : header'.postBufferPos.toNat + piece.length ≤ body.length)
    (hstream : piece ++ unread = body.drop header'.postBufferPos.toNat ++ rest) :
    PayloadResult srv header body rest unread (copyPayload header' piece, [],
      if (copyPayload header' piece).postBufferPos.toUInt64 = (copyPayload header' piece).contentlenght
        then .complete else .more) := by
  have hsrc : piece <+: body.drop header'.postBufferPos.toNat := by
    refine List.prefix_of_prefix_length_le (List.prefix_append piece unread) ?_ ?_
    · rw [hstream]
      exact List.prefix_append _ _
    · rw [List.length_drop]
      omega
  obtain ⟨hpos, b', hb', hf'⟩ := copyPayload_filled hsmall hb hf (by omega) hsrc
  have hunread : unread = body.drop (header'.postBufferPos.toNat + piece.length) ++ rest := by
    obtain ⟨t, ht⟩ := hsrc
    rw [← ht, List.append_assoc] at hstream
    rw [List.append_cancel_left hstream, ← List.drop_drop, ← ht, List.drop_left]
  have hend : (copyPayload header' piece).postBufferPos.toUInt64 =
      (copyPayload header' piece).contentlenght ↔
      header'.postBufferPos.toNat + piece.length = body.length := by
    rw [← UInt64.toNat_inj, ← hpos, ← hn]
    rfl
  by_cases hall : header'.postBufferPos.toNat + piece.length = body.length
  · rw [if_pos (hend.mpr hall)]
    rw [hall] at hf'
    refine ⟨⟨by rw [hpos, hall], by rw [hb', hf'.eq]⟩, ?_⟩
    rw [List.nil_append, hunread, hall, List.drop_length, List.nil_append]
  · rw [if_neg (fun h => hall (hend.mp h))]
    refine ⟨rfl, ⟨hn, by rw [hpos]; omega, ?_, ?_⟩, ?_, hsame.method, hsame.headerComplete,
      hsame.contentlenght⟩
    · intro h0
      rw [hb'] at h0
      cases h0
    · intro b'' h0
      rw [hb', Option.some_inj] at h0
      rw [← h0, hpos]
      exact hf'
    · rw [hpos]
      exact hunread

/-- **One piece of the body.** The piece goes to the post buffer as far as it belongs to the
body; what is behind the body stays in the header buffer. -/
theorem recvPostPayload_spec {srv : PostServer} {header : HttpRequestHeader}
    {body rest piece unread : List UInt8} (hsmall : body.length < 2 ^ 31)
    (h : PartlyCopied body header) (hpiece : piece.length ≤ webserverMaxHeaderLineLenght)
    (hstream : piece ++ unread = body.drop header.postBufferPos.toNat ++ rest) :
    PayloadResult srv header body rest unread (recvPostPayload srv header piece) := by
  have hp := h.pos
  have hpl : piece.length ≤ 2048 := hpiece
  rcases allocPostBuffer_spec hsmall h with ⟨hnone, hres⟩ | ⟨header', b, hsome, hb, hf, hpos, hsame⟩
  · rw [recvPostPayload, hnone]
    exact hres
  · have hn : header'.contentlenght.toNat = body.length := by
      rw [hsame.contentlenght, h.length]
    rw [← hpos] at hp hf hstream
    have hsum : (header'.postBufferPos + piece.length.toUInt32).toUInt64.toNat =
        header'.postBufferPos.toNat + piece.length := by
      show (header'.postBufferPos + piece.length.toUInt32).toNat = _
      rw [UInt32.toNat_add, Nat.toUInt32_eq, UInt32.toNat_ofNat']
      omega
    rw [recvPostPayload, hsome]
    simp only [UInt64.le_iff_toNat_le, hsum, hn]
    by_cases hfit : header'.postBufferPos.toNat + piece.length ≤ body.length
    · rw [if_pos hfit]
      exact payloadResult_inside hsmall hn hsame hb hf hfit hstream
    · -- the body ends in the piece, and the difference is the missing part of the body
      rw [if_neg hfit]
      have hdiff : (header'.contentlenght - header'.postBufferPos.toUInt64).toUInt32.toNat =
          body.length - header'.postBufferPos.toNat := by
        rw [UInt64.toNat_toUInt32, UInt64.toNat_sub, hn]
        show (2 ^ 64 - header'.postBufferPos.toNat + body.length) % 2 ^ 64 % 2 ^ 32 = _
        omega
      have hlt : (header'.contentlenght - header'.postBufferPos.toUInt64).toUInt32 <
          piece.length.toUInt32 := by
        rw [UInt32.lt_iff_toNat_lt, hdiff, Nat.toUInt32_eq, UInt32.toNat_ofNat']
        omega
      rw [if_pos hlt, hdiff]
      have hdrop : (body.drop header'.postBufferPos.toNat).length =
          body.length - header'.postBufferPos.toNat := List.length_drop
      have htake : piece.take (body.length - header'.postBufferPos.toNat) =
          body.drop header'.postBufferPos.toNat := by
        have := congrArg (List.take (body.length - header'.postBufferPos.toNat)) hstream
        rwa [List.take_append_of_le_length (by omega), ← hdrop, List.take_left, hdrop] at this
      have hrest : piece.drop (body.length - header'.postBufferPos.toNat) ++ unread = rest := by
        have := congrArg (List.drop (body.length - header'.postBufferPos.toNat)) hstream
        rwa [List.drop_append_of_le_length (by omega), ← hdrop, List.drop_left, hdrop] at this
      obtain ⟨hpos', b', hb', hf'⟩ := copyPayload_filled hsmall hb hf hp.le
        (List.prefix_refl (body.drop header'.postBufferPos.toNat))
      have hall : header'.postBufferPos.toNat + (body.drop header'.postBufferPos.toNat).length =
          body.length := by omega
      rw [hall] at hpos' hf'
      rw [htake]
      exact ⟨⟨hpos', by rw [hb', hf'.eq]⟩, hrest⟩

/-! ## The body phase -/

/-- A request whose header has been read and whose body is missing in part. -/
structure BodyPhase (body rest : List UInt8) (r : HeaderReader) : Prop where
  method : r.sock.header.method = .post
  headerComplete : r.sock.header.headerComplete = true
  copied : PartlyCopied body r.sock.header
  empty : r.headerBuffer = []
  stream : r.unread = body.drop r.sock.header.postBufferPos.toNat ++ rest

/-- The body is in the post buffer, and everything behind it is in the header buffer or still
to come. -/
structure Delivered (body rest : List UInt8) (r : HeaderReader) : Prop where
  copied : FullyCopied body r.sock.header
  rest : r.headerBuffer ++ r.unread = rest

/-- What a round leads to: the proxy takes over, the header lacks a boundary, there is no memory
for the body, the body is delivered, or the connection goes on as `P` says. -/
def RequestResult (srv : PostServer) (body rest : List UInt8) (P : HeaderReader → Prop)
    (out : HeaderReader × Option RequestOutcome) : Prop :=
  match out.2 with
  | none => P out.1
  | some .complete => Delivered body rest out.1
  | some .reverseProxy => True
  | some (.error code) =>
      code = some 400 ∨
        code = some 503 ∧ srv.postBufferReserve (body.length.toUInt64 + 1) = false
  | some (.streaming _) => False

theorem payloadRound_spec {srv : PostServer} {body rest piece : List UInt8} {r : HeaderReader}
    (hsmall : body.length < 2 ^ 31) (hmethod : r.sock.header.method = .post)
    (hcomplete : r.sock.header.headerComplete = true) (hcopied : PartlyCopied body r.sock.header)
    (hpiece : piece.length ≤ webserverMaxHeaderLineLenght)
    (hstream : piece ++ r.unread = body.drop r.sock.header.postBufferPos.toNat ++ rest) :
    RequestResult srv body rest (BodyPhase body rest) (payloadRound srv r piece) := by
  have hspec := @recvPostPayload_spec srv _ _ _ _ _ hsmall hcopied hpiece hstream
  have hlen : body.length.toUInt64 = r.sock.header.contentlenght := by
    rw [← hcopied.length, Nat.toUInt64_eq, UInt64.ofNat_toNat]
  unfold payloadRound
  revert hspec
  rcases recvPostPayload srv r.sock.header piece with ⟨header, buffer, _ | _ | _⟩
  · rintro ⟨hbuf, hpart, hunread, hsame⟩
    exact ⟨hsame.method.trans hmethod, hsame.headerComplete.trans hcomplete, hpart, hbuf, hunread⟩
  · rintro ⟨hfull, hrest⟩
    exact ⟨⟨hfull.pos, hfull.buffer⟩, hrest⟩
  · intro hres
    refine .inr ⟨rfl, ?_⟩
    rw [hlen]
    exact hres

/-- **A round in the body** keeps the phase, or delivers the body. -/
theorem bodyRound_spec {srv : PostServer} {body rest : List UInt8} {r : HeaderReader}
    (hsmall : body.length < 2 ^ 31) (h : BodyPhase body rest r) (n : Nat) :
    RequestResult srv body rest (BodyPhase body rest) (bodyRound srv r n) := by
  have hroom : ([] : List UInt8).length < webserverMaxHeaderLineLenght := by decide
  have hopen : r.sock.header.postBufferPos.toUInt64 < r.sock.header.contentlenght := by
    rw [UInt64.lt_iff_toNat_lt, h.copied.length]
    exact h.copied.pos
  rw [bodyRound, h.empty, if_pos hroom]
  simp only [List.length_nil, List.drop_zero]
  split_ifs with h0
  · exact h
  · -- the header buffer was empty, so the piece is all that is in it now
    rw [List.take_length]
    refine payloadRound_spec hsmall h.method h.headerComplete h.copied ?_ ?_
    · simp only [HeaderReader.recv, h.empty, List.nil_append, List.length_take, List.length_nil]
      omega
    · simp only [HeaderReader.recv, h.empty, List.nil_append, List.take_append_drop]
      exact h.stream

/-! ## The end of the header -/

/-- A body within `max_post_size` passes the check of its length. -/
theorem maxBodySize_le {srv : PostServer} {header : HttpRequestHeader} {n : Nat}
    (hlen : header.contentlenght.toNat = n) (hmax : (n : Int) ≤ srv.maxPostSize.toInt)
    (hbuffered : streamHandlerOf srv header = none) :
    ¬ maxBodySize srv header < header.contentlenght := by
  have h0 : (0 : Int64) ≤ srv.maxPostSize.toInt64 := by
    rw [Int64.le_iff_toInt_le, Int32.toInt_toInt64]
    show (0 : Int) ≤ _
    omega
  have hcast : srv.maxPostSize.toInt64.toUInt64.toNat = srv.maxPostSize.toInt.toNat := by
    rw [Int64.toNat_toUInt64_of_le h0, Int32.toNatClampNeg_toInt64]
    rfl
  rw [maxBodySize, hbuffered, UInt64.lt_iff_toNat_lt, hcast, hlen]
  omega

/-- The request of the theorem: a POST request with this body length, which is within the
limit, for which there is no stream handler, and which does not ask for the websocket
protocol. -/
structure BufferedPost (srv : PostServer) (header : HttpRequestHeader) (n : Nat) : Prop where
  method : header.method = .post
  length : header.contentlenght.toNat = n
  pos : 0 < n
  max : (n : Int) ≤ srv.maxPostSize.toInt
  buffered : streamHandlerOf srv header = none
  plain : isWebsocketRequest header = false

/-- The body is short enough for the 32-bit position in the post buffer. -/
theorem BufferedPost.small {srv : PostServer} {header : HttpRequestHeader} {n : Nat}
    (h : BufferedPost srv header n) : n < 2 ^ 31 := by
  have h1 := h.max
  have h2 := srv.maxPostSize.toInt_lt
  omega

/-- A POST request at the end of its header, with the first bytes of the body in the header
buffer or none of them. -/
theorem postHeaderEnd_spec {srv : PostServer} {body rest : List UInt8} {r : HeaderReader}
    {status : HeaderStatus} (hpost : BufferedPost srv r.sock.header body.length)
    (hstate : r.sock.header.bodyState = (true, none, 0))
    (hbuf : r.headerBuffer.length ≤ webserverMaxHeaderLineLenght)
    (hbytes : r.headerBuffer ++ r.unread = body ++ rest)
    (hempty : status = .complete → r.headerBuffer = []) :
    RequestResult srv body rest (BodyPhase body rest) (postHeaderEnd srv r status) := by
  obtain ⟨hcomplete, hnone, hzero⟩ : r.sock.header.headerComplete = true ∧
      r.sock.header.postBuffer = none ∧ r.sock.header.postBufferPos = 0 := by
    simpa [HttpRequestHeader.bodyState] using hstate
  have hdrop : body.drop r.sock.header.postBufferPos.toNat = body := by
    rw [hzero]
    rfl
  have hcopied : PartlyCopied body r.sock.header := by
    refine ⟨hpost.length, ?_, fun _ => hzero, ?_⟩
    · rw [hzero]
      exact hpost.pos
    · intro b hb
      rw [hb] at hnone
      cases hnone
  have hlen0 : r.sock.header.contentlenght ≠ 0 := by
    intro h0
    have hlen := hpost.length
    have hpos := hpost.pos
    rw [h0] at hlen
    have : (0 : UInt64).toNat = 0 := rfl
    omega
  unfold postHeaderEnd
  cases hcheck : checkPostHeader srv r.sock.header with
  | some code =>
      left
      unfold checkPostHeader at hcheck
      rw [if_neg (maxBodySize_le hpost.length hpost.max hpost.buffered)] at hcheck
      split_ifs at hcheck
      exact hcheck.symm
  | none =>
      simp only [if_neg hlen0, hpost.buffered]
      split_ifs with hst
      · -- nothing of the body has been received
        have hb := hempty hst
        rw [hb, List.nil_append] at hbytes
        exact ⟨hpost.method, hcomplete, hcopied, hb, by rw [hdrop]; exact hbytes⟩
      · exact payloadRound_spec hpost.small hpost.method hcomplete hcopied hbuf
          (by rw [hdrop]; exact hbytes)

/-- **The end of the header** starts the body phase, or delivers the body at once. -/
theorem requestHeaderEnd_spec {srv : PostServer} {body rest : List UInt8} {r : HeaderReader}
    {status : HeaderStatus} (hpost : BufferedPost srv r.sock.header body.length)
    (hstate : r.sock.header.bodyState = (true, none, 0))
    (hbuf : r.headerBuffer.length ≤ webserverMaxHeaderLineLenght)
    (hbytes : r.headerBuffer ++ r.unread = body ++ rest)
    (hempty : status = .complete → r.headerBuffer = []) :
    RequestResult srv body rest (BodyPhase body rest) (requestHeaderEnd srv r status) := by
  have hcheck : checkIskWebsocketConnection r.sock.header =
      { r.sock.header with isWebsocket := 0 } := by
    rw [checkIskWebsocketConnection, hpost.plain]
    rfl
  have hsame : (if status = .complete
      then { r.setHeader { r.sock.header with isWebsocket := 0 } with headerBuffer := [] }
      else r.setHeader { r.sock.header with isWebsocket := 0 }) =
      r.setHeader { r.sock.header with isWebsocket := 0 } := by
    split_ifs with hst
    · rw [← hempty hst]
      rfl
    · rfl
  have hmethod : (r.setHeader { r.sock.header with isWebsocket := 0 }).sock.header.method = .post :=
    hpost.method
  rw [requestHeaderEnd, hcheck]
  simp only [hsame, hpost.plain, if_pos hmethod, Bool.false_eq_true, if_false]
  exact postHeaderEnd_spec ⟨hpost.method, hpost.length, hpost.pos, hpost.max, hpost.buffered,
    hpost.plain⟩ hstate hbuf hbytes hempty

/-! ## The header phase -/

/-- What the parser does to the fields of the body phase: it marks the end of the header. -/
theorem parseHeader_bodyState {registrations : List ProxyRegistration} {s : HeaderSocket}
    {buffer : List UInt8} (hstart : s.header.parsedBytes ≠ 0 ∨ ¬ crlf <+: buffer) :
    (parseHeader registrations s buffer).1.header.bodyState =
      ((if (parseHeader registrations s buffer).2.norm = .complete then true
        else s.header.headerComplete), s.header.postBuffer, s.header.postBufferPos) := by
  unfold parseHeader
  by_cases hp : crlf <+: buffer
  · have hparsed : s.header.parsedBytes ≠ 0 := hstart.resolve_right (fun h => h hp)
    rw [if_pos hp, headerEnd, if_neg (fun h => hparsed h.1)]
    split_ifs with h1 h2 h2
    · rfl
    · exact absurd rfl h2
    · rfl
    · exact absurd rfl h2
  · rw [if_neg hp]
    cases searchLine buffer with
    | notFound => rfl
    | tooLong => rfl
    | found i =>
        cases checkReverseProxy registrations s.reverseProxyChecked buffer with
        | taken _ => rfl
        | pass checked =>
            have hline := analyseHeaderLine_bodyState (buffer.take (i - 1)) s.header
            simp only [headerLine]
            by_cases hlarge : webserverMaxHeaderSize < s.header.parsedBytes + i + 1
            · rw [if_pos hlarge]
              rfl
            · rw [if_neg hlarge]
              revert hline
              rcases analyseHeaderLine (buffer.take (i - 1)) s.header with ⟨header, _ | _⟩
              · intro hline
                exact hline
              · intro hline
                exact hline

/-- A header that ends with the buffer ends with its last two bytes. -/
theorem parseHeader_complete {registrations : List ProxyRegistration} {s : HeaderSocket}
    {buffer : List UInt8} (h : (parseHeader registrations s buffer).2 = .complete) :
    buffer.length ≤ 2 := by
  unfold parseHeader at h
  by_cases hp : crlf <+: buffer
  · rw [if_pos hp, headerEnd] at h
    split_ifs at h with h1 h2
    omega
  · rw [if_neg hp] at h
    cases hsearch : searchLine buffer with
    | notFound => simp [hsearch] at h
    | tooLong => simp [hsearch] at h
    | found i =>
        cases hcheck : checkReverseProxy registrations s.reverseProxyChecked buffer with
        | taken _ => simp [hsearch, hcheck] at h
        | pass checked =>
            simp only [hsearch, hcheck, headerLine] at h
            split_ifs at h
            revert h
            rcases analyseHeaderLine (buffer.take (i - 1)) s.header with ⟨header, _ | _⟩ <;> simp

/-- A request whose header is being read. -/
structure HeaderPhase (header : HttpRequestHeader) (body rest : List UInt8) (r : HeaderReader) :
    Prop where
  ready : r.Ready
  result : r.result = (header, body ++ rest, .complete)
  state : r.sock.header.bodyState = (false, none, 0)

theorem HeaderPhase.recv {header : HttpRequestHeader} {body rest : List UInt8} {r : HeaderReader}
    (h : HeaderPhase header body rest r) (n : Nat) : HeaderPhase header body rest (r.recv n) := by
  refine ⟨h.ready.recv n, ?_, h.state⟩
  rw [← h.result, HeaderReader.result, HeaderReader.result, recv_bytes]
  rfl

/-- The fields of the body phase behind a round of parsing. -/
theorem parseRound_bodyState {registrations : List ProxyRegistration} {r : HeaderReader}
    (hr : r.Ready) :
    (parseRound registrations r).1.sock.header.bodyState =
      ((if (parseHeader registrations r.sock r.headerBuffer).2.norm = .complete then true
        else r.sock.header.headerComplete), r.sock.header.postBuffer, r.sock.header.postBufferPos) := by
  refine parseHeader_bodyState (hr.start.imp id ?_)
  intro hne hp
  exact hne (hp.trans (List.prefix_append _ _))

/-- What the two phases of a request have in common. -/
def InRequest (header : HttpRequestHeader) (body rest : List UInt8) (r : HeaderReader) : Prop :=
  HeaderPhase header body rest r ∨ BodyPhase body rest r

theorem RequestResult.mono {srv : PostServer} {body rest : List UInt8} {P Q : HeaderReader → Prop}
    {out : HeaderReader × Option RequestOutcome} (h : RequestResult srv body rest P out)
    (hPQ : ∀ r, P r → Q r) : RequestResult srv body rest Q out := by
  rcases out with ⟨r, _ | _ | _ | _ | _⟩
  · exact hPQ r h
  · exact h
  · exact h
  · exact h
  · exact h

/-- An outcome of the header phase says what the parser returned. -/
theorem headerOutcome_ended {r : HeaderReader} {status st : HeaderStatus}
    (h : headerOutcome r status = some (.ended st)) : status = st := by
  cases status with
  | noLine =>
      rw [headerOutcome] at h
      split_ifs at h
      cases h
  | line _ => simp [headerOutcome] at h
  | _ => simpa [headerOutcome] using h

theorem headerOutcome_none {r : HeaderReader} {status : HeaderStatus}
    (h : headerOutcome r status = none) : status.norm ≠ .complete := by
  intro hc
  cases status <;> simp_all [HeaderStatus.norm, headerOutcome]

/-- **A round in the header** keeps the phase, or leads to the body. -/
theorem headerPhase_round {srv : PostServer} {header : HttpRequestHeader}
    {body rest : List UInt8} {r : HeaderReader} (hpost : BufferedPost srv header body.length)
    (h : HeaderPhase header body rest r) (n : Nat) :
    RequestResult srv body rest (InRequest header body rest) (requestRound srv r n) := by
  have hopen : ¬ (r.sock.header.method = .post ∧ r.sock.header.headerComplete = true) := by
    rintro ⟨-, hc⟩
    have hstate := congrArg Prod.fst h.state
    rw [show r.sock.header.headerComplete = false from hstate] at hc
    cases hc
  have hrecv := h.recv n
  rw [requestRound, if_neg hopen, headerRound_eq]
  by_cases hempty : (r.recv n).headerBuffer = []
  · rw [if_pos hempty]
    exact .inl hrecv
  · rw [if_neg hempty]
    have hstate := @parseRound_bodyState srv.registrations (r.recv n) hrecv.ready
    have hbefore : (r.recv n).sock.header.bodyState = (false, none, 0) := hrecv.state
    obtain ⟨hc0, hb0, hp0⟩ : (r.recv n).sock.header.headerComplete = false ∧
        (r.recv n).sock.header.postBuffer = none ∧
        (r.recv n).sock.header.postBufferPos = 0 := by
      simpa [HttpRequestHeader.bodyState] using hbefore
    rw [hc0, hb0, hp0] at hstate
    by_cases hproxy : (parseRound srv.registrations (r.recv n)).2 = some (.ended .reverseProxy)
    · revert hproxy
      rcases parseRound srv.registrations (r.recv n) with ⟨r', o⟩
      rintro rfl
      trivial
    · rcases parseRound_spec hrecv.ready hproxy with ⟨hnone, hready, hres⟩ | ⟨status, hst, hres, -⟩
      · -- the header goes on
        have hne := headerOutcome_none hnone
        rw [if_neg hne] at hstate
        have hphase : HeaderPhase header body rest (parseRound srv.registrations (r.recv n)).1 :=
          ⟨hready, hres.trans hrecv.result, hstate⟩
        revert hnone hphase
        rcases parseRound srv.registrations (r.recv n) with ⟨r', o⟩
        rintro rfl hphase
        exact .inl hphase
      · -- the header ends, and it is the one of the stream
        have hparse := headerOutcome_ended hst
        rw [hrecv.result] at hres
        simp only [Prod.mk.injEq] at hres
        obtain ⟨hheader, hbytes, hnorm⟩ := hres
        rw [hparse, ← hnorm, if_pos rfl] at hstate
        have hlen : (parseRound srv.registrations (r.recv n)).1.headerBuffer.length ≤
            webserverMaxHeaderLineLenght := by
          refine Nat.le_trans ?_ hrecv.ready.buffer
          simp only [parseRound, HeaderReader.reCopyHeaderBuffer, List.length_drop]
          omega
        have hshort : status = .complete →
            (parseRound srv.registrations (r.recv n)).1.headerBuffer = [] := by
          intro hc
          have htwo := parseHeader_complete (hparse.trans hc)
          simp only [parseRound, HeaderReader.reCopyHeaderBuffer, hparse, hc, HeaderStatus.parsed]
          exact List.drop_eq_nil_of_le htwo
        have hend := @requestHeaderEnd_spec srv body rest
          (parseRound srv.registrations (r.recv n)).1 status (hheader ▸ hpost) hstate hlen
          hbytes.symm hshort
        revert hst hend
        rcases parseRound srv.registrations (r.recv n) with ⟨r', o⟩
        rintro rfl hend
        refine RequestResult.mono ?_ (fun _ => Or.inr)
        cases status with
        | complete => exact hend
        | completeMoreData => exact hend
        | _ => simp [HeaderStatus.norm] at hnorm

/-! ## Whole requests -/

/-- **A run of a request** keeps one of the phases until it ends, and what it ends with is the
body. -/
theorem runRequest_spec {srv : PostServer} {header : HttpRequestHeader} {body rest : List UInt8}
    (hpost : BufferedPost srv header body.length) (ns : List Nat) {r : HeaderReader}
    (h : InRequest header body rest r) :
    RequestResult srv body rest (InRequest header body rest) (runRequest srv r ns) := by
  induction ns generalizing r with
  | nil => exact h
  | cons n ns ih =>
      have hround : RequestResult srv body rest (InRequest header body rest)
          (requestRound srv r n) := by
        rcases h with hhead | hbody
        · exact headerPhase_round hpost hhead n
        · rw [requestRound, if_pos ⟨hbody.method, hbody.headerComplete⟩]
          exact (bodyRound_spec hpost.small hbody n).mono (fun _ => Or.inr)
      rw [runRequest]
      revert hround
      rcases requestRound srv r n with ⟨r', _ | o⟩
      · intro hround
        exact ih hround
      · intro hround
        exact hround

/-- A connection at the start of a request: the record has been allocated or put back, and
bytes that came with the request before are in the buffer. -/
structure AtStart (r : HeaderReader) : Prop where
  method : r.sock.header.method = .none
  parsedBytes : r.sock.header.parsedBytes = 0
  state : r.sock.header.bodyState = (false, none, 0)
  buffer : r.headerBuffer.length ≤ webserverMaxHeaderLineLenght

/-- A stream that starts with an empty line gives no method. -/
theorem headerOf_crlf_method {header : HttpRequestHeader} {bytes : List UInt8}
    (h : crlf <+: bytes) : (headerOf header bytes).1.method = header.method := by
  rw [headerOf, readHeader, parseHeader, if_pos h, headerEnd]
  split_ifs <;> rfl

/-- **The body of a buffered POST request.** Let the stream of a connection, from the start of
a request on, be a header, a body of the announced length and something behind it, and let the
length be positive and within `max_post_size`. However the stream is received, when
`handleClientHeaderData` returns `1` the post buffer holds the body with a terminator behind it,
and what has been received of the rest stands in the header buffer, with nothing lost. The
request is one without a stream handler that does not ask for the websocket protocol. -/
theorem buffered_post_body (srv : PostServer) (r : HeaderReader) (header : HttpRequestHeader)
    (body rest : List UInt8) (status : HeaderStatus) (ns : List Nat) (hstart : AtStart r)
    (hstream : headerOf r.sock.header (r.headerBuffer ++ r.unread) = (header, body ++ rest, status))
    (hcomplete : status.norm = .complete) (hpost : BufferedPost srv header body.length)
    (hreturn : (runRequest srv r ns).2 = some .complete) :
    (runRequest srv r ns).1.sock.header.postBuffer = some (body ++ [0]) ∧
      (runRequest srv r ns).1.sock.header.postBufferPos.toNat = body.length ∧
      (runRequest srv r ns).1.headerBuffer ++ (runRequest srv r ns).1.unread = rest := by
  have hcrlf : ¬ crlf <+: r.bytes := by
    intro hp
    have hmethod := @headerOf_crlf_method r.sock.header r.bytes hp
    rw [HeaderReader.bytes, hstream, hpost.method, hstart.method] at hmethod
    cases hmethod
  have hphase : HeaderPhase header body rest r := by
    refine ⟨⟨hstart.buffer, .inr hcrlf⟩, ?_, hstart.state⟩
    rw [HeaderReader.result, HeaderReader.bytes, hstream, hcomplete]
  have hrun := runRequest_spec hpost ns (.inl hphase)
  rw [RequestResult, hreturn] at hrun
  exact ⟨hrun.copied.buffer, hrun.copied.pos, hrun.rest⟩

/-- A server with the default limit, without handlers. -/
def defaultServer : PostServer where
  registrations := []
  maxPostSize := 2 * 1024 * 1024
  streamHandlers := []
  postBufferReserve := fun _ => true
  uninit := fun _ => 170

/-- A connection that is to receive a request. -/
def freshReader (stream : List UInt8) : HeaderReader :=
  ⟨⟨webserverMallocHttpRequestHeader, false⟩, [], stream⟩

/-- The header of a small POST request. -/
def smallPostHeader : List UInt8 := ascii "POST /f HTTP/1.1\r\nContent-Length: 3\r\n\r\n"

/-- The header of a small POST request, with the first bytes of the body and of the next
request. -/
def smallPost : List UInt8 := smallPostHeader ++ ascii "abc" ++ ascii "GET /"

/-- The record of the request. -/
def smallPostRecord : HttpRequestHeader :=
  { webserverMallocHttpRequestHeader with
    url := some (ascii "f")
    method := .post
    isHttp11 := true
    contentlenght := 3
    headerComplete := true
    parsedBytes := 39 }

/-- A cut in the header, one in the body, and a read that reaches into the next request. -/
theorem buffered_post_body_small :
    (runRequest defaultServer (freshReader smallPost) [9, 30, 0, 1, 4]).1.sock.header.postBuffer =
        some (ascii "abc" ++ [0]) ∧
      (runRequest defaultServer (freshReader smallPost)
        [9, 30, 0, 1, 4]).1.sock.header.postBufferPos.toNat = (ascii "abc").length ∧
      (runRequest defaultServer (freshReader smallPost) [9, 30, 0, 1, 4]).1.headerBuffer ++
        (runRequest defaultServer (freshReader smallPost) [9, 30, 0, 1, 4]).1.unread = ascii "GET /" :=
  buffered_post_body defaultServer (freshReader smallPost) smallPostRecord (ascii "abc")
    (ascii "GET /") .completeMoreData [9, 30, 0, 1, 4] ⟨rfl, rfl, rfl, by decide⟩
    (by decide +kernel) rfl ⟨rfl, rfl, by decide, by decide, rfl, rfl⟩ (by decide +kernel)

/-- The header of a POST request that asks for the websocket protocol. -/
def websocketPostHeader : List UInt8 :=
  ascii "POST /f HTTP/1.1\r\nContent-Length: 3\r\nConnection: Upgrade\r\nUpgrade: websocket\r\n" ++
    ascii "Sec-WebSocket-Version: 13\r\nSec-WebSocket-Key: AAAAAAAAAAAAAAAAAAAAAA==\r\n\r\n"

/-- The request received in one read. -/
def websocketPostRun : HeaderReader × Option RequestOutcome :=
  runRequest defaultServer (freshReader (websocketPostHeader ++ ascii "abc"))
    [2048, 0, 0, 0, 0, 0, 0]

/-- A POST request that asks for the websocket protocol is handed on without its body, which
stays in the header buffer. -/
theorem websocket_post_without_body :
    websocketPostRun.2 = some .complete ∧
      websocketPostRun.1.sock.header.method = .post ∧
      websocketPostRun.1.sock.header.contentlenght = 3 ∧
      websocketPostRun.1.sock.header.postBuffer ≠ some (ascii "abc" ++ [0]) ∧
      websocketPostRun.1.headerBuffer = ascii "abc" := by
  have hrun : (websocketPostRun.2, websocketPostRun.1.sock.header.method,
      websocketPostRun.1.sock.header.contentlenght, websocketPostRun.1.sock.header.postBuffer,
      websocketPostRun.1.headerBuffer) = (some .complete, .post, 3, none, ascii "abc") := by
    decide +kernel
  simp only [Prod.mk.injEq] at hrun
  obtain ⟨h1, h2, h3, h4, h5⟩ := hrun
  exact ⟨h1, h2, h3, by rw [h4]; simp, h5⟩

end CWebUI.Http
