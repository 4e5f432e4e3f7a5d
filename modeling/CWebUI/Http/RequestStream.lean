import CWebUI.Http.PostBody

set_option autoImplicit false

/-! # The next request of a stream

`nextRequest` says what the bytes of a connection lead to from the start of a request on, with all
of them in view: a request for the handlers, with its body if it has one, an error page, a refused
or accepted upgrade, an upload for a stream handler, or nothing because the stream ends too early.

`handleClientHeaderData` is a single call of the function, from a read event to its return. Whatever
the calls of `recv` give, what is still to come of the request does not change (`Reads`), and a call
that returns without a result has used up what it could (`Stuck`).
-/

namespace CWebUI.Http

open ByteString ListLemmas CWebUI.Proxy

/-! ## The next request -/

/-- What comes next in a stream. The bytes are those behind it. -/
inductive Next where
  /-- The stream ends within the request. -/
  | waiting
  /-- The request is answered with an error page, or with nothing, and the connection ends. -/
  | error (header : HttpRequestHeader) (status : Option Nat)
  /-- An empty line before the first line. -/
  | emptyLine
  /-- An accepted request for the websocket protocol. -/
  | upgrade (header : HttpRequestHeader) (rest : List UInt8)
  /-- A refused one. -/
  | refused (header : HttpRequestHeader) (rest : List UInt8)
  | upload (header : HttpRequestHeader) (handler : PostStreamHandlerEntry) (rest : List UInt8)
  | request (header : HttpRequestHeader) (rest : List UInt8)
  deriving DecidableEq, Repr

/-- The record of a request with its body in the post buffer. -/
def HttpRequestHeader.withBody (header : HttpRequestHeader) (body : List UInt8) :
    HttpRequestHeader :=
  { header with
    postBufferReserved := header.contentlenght + 1
    postBuffer := some (body ++ [0])
    postBufferPos := header.contentlenght.toUInt32
    headerComplete := false }

/-- A POST request behind its header. -/
def postNext (srv : PostServer) (header : HttpRequestHeader) (rest : List UInt8) : Next :=
  match checkPostHeader srv header with
  | some code => .error { header with error := true } (some code)
  | none =>
      if header.contentlenght = 0 then .request { header with headerComplete := false } rest
      else
        match streamHandlerOf srv header with
        | some e => .upload header e rest
        | none =>
            if rest = [] then .waiting
            else if srv.postBufferReserve (header.contentlenght + 1) = false then
              .error header (some 503)
            else if rest.length < header.contentlenght.toNat then .waiting
            else
              .request (header.withBody (rest.take header.contentlenght.toNat))
                (rest.drop header.contentlenght.toNat)

/-- A request behind its header. -/
def headerNext (srv : PostServer) (header : HttpRequestHeader) (rest : List UInt8) : Next :=
  let checked := checkIskWebsocketConnection header
  if isWebsocketRequest header then
    if checked.isWebsocket = 1 then .upgrade { checked with headerComplete := false } rest
    else .refused { checked with headerComplete := false } rest
  else if checked.method = .post then postNext srv checked rest
  else .request { checked with headerComplete := false } rest

/-- The result of the header parser, with the record and the bytes behind what it has read. -/
def statusNext (srv : PostServer) (header : HttpRequestHeader) (rest : List UInt8) :
    HeaderStatus → Next
  | .complete | .completeMoreData => headerNext srv header rest
  | .lineTooLong => .error header (some 400)
  | .methodNotAllowed => .error header (if header.noWebsocketSupport then none else some 405)
  | .headerTooLarge => .error header (some 431)
  | _ => .waiting

/-- The next request of a stream, into a record that is ready for it. -/
def nextRequest (srv : PostServer) (header : HttpRequestHeader) (bytes : List UInt8) : Next :=
  if header.parsedBytes = 0 ∧ crlf <+: bytes then .emptyLine
  else
    statusNext srv (headerOf header bytes).1 (headerOf header bytes).2.1 (headerOf header bytes).2.2

/-! ## One call -/

/-- What `recv` answers: so many bytes at most, or that the client is gone. -/
inductive RecvAnswer where
  | data (n : Nat)
  | gone
  deriving DecidableEq, Repr

/-- How a call of `handleClientHeaderData` ends. -/
inductive CallEnd where
  /-- `0`: it waits for more bytes. -/
  | wait
  /-- `-1`: the client is gone. -/
  | gone
  | done (outcome : RequestOutcome)
  deriving DecidableEq, Repr

/-- What the loop does behind a round: it goes on, with the number of body bytes so far, or
returns. -/
inductive RoundEnd where
  | again (postRead : Nat)
  | stop (callEnd : CallEnd)
  deriving DecidableEq, Repr

/-- Body bytes that a call reads before other sockets get their turn. -/
def maxPostRead : Nat := 20000

/-- A round of the loop of `handleClientHeaderData`, and whether the loop goes on. -/
def clientRound (srv : PostServer) (r : HeaderReader) (postRead n : Nat) :
    HeaderReader × RoundEnd :=
  match requestRound srv r n with
  | (r', some outcome) => (r', .stop (.done outcome))
  | (r', none) =>
      if r.sock.header.method = .post ∧ r.sock.header.headerComplete then
        let len := ((r.recv n).headerBuffer.drop r.headerBuffer.length).length
        if len = 0 ∨ maxPostRead < postRead + len then (r', .stop .wait)
        else (r', .again (postRead + len))
      else if (r.recv n).headerBuffer = [] then (r', .stop .wait)
      else
        match (parseHeader srv.registrations r.sock (r.recv n).headerBuffer).2 with
        | .line _ | .completeMoreData => (r', .again postRead)
        | _ => (r', .stop .wait)

/-- `handleClientHeaderData` from a read event on, with an answer of `recv` for each round; a round
with a full buffer makes no call. There is no result when the answers do not suffice. -/
def handleClientHeaderData (srv : PostServer) :
    List RecvAnswer → Nat → HeaderReader → Option (HeaderReader × CallEnd)
  | [], _, _ => none
  | .gone :: answers, postRead, r =>
      if r.headerBuffer.length < webserverMaxHeaderLineLenght then some (r, .gone)
      else
        match clientRound srv r postRead 0 with
        | (r', .again postRead) => handleClientHeaderData srv answers postRead r'
        | (r', .stop callEnd) => some (r', callEnd)
  | .data n :: answers, postRead, r =>
      match clientRound srv r postRead n with
      | (r', .again postRead) => handleClientHeaderData srv answers postRead r'
      | (r', .stop callEnd) => some (r', callEnd)

/-! ## One piece of a body -/

section Payload

variable {srv : PostServer} {header h : HttpRequestHeader} {stream piece : List UInt8}

/-- The fields of a record that belong to the body. -/
def HttpRequestHeader.bodyFrom (header source : HttpRequestHeader) : HttpRequestHeader :=
  { header with
    postBuffer := source.postBuffer
    postBufferPos := source.postBufferPos
    postBufferReserved := source.postBufferReserved }

/-- The buffer of a body is there, or it is allocated, or there is no memory for it. -/
theorem allocPostBuffer_cases (srv : PostServer) (header : HttpRequestHeader) :
    (allocPostBuffer srv header = none ∧ header.postBuffer = none ∧
      srv.postBufferReserve (header.contentlenght + 1) = false) ∨
    ∃ h b, allocPostBuffer srv header = some h ∧ h.postBuffer = some b ∧ h = header.bodyFrom h ∧
      h.postBufferReserved =
        (if header.postBuffer = none then header.contentlenght + 1
          else header.postBufferReserved) ∧
      (header.postBuffer = none → srv.postBufferReserve (header.contentlenght + 1) = true) := by
  unfold allocPostBuffer
  cases hb : header.postBuffer with
  | some b => exact Or.inr ⟨header, b, rfl, hb, rfl, rfl, fun h => by cases h⟩
  | none =>
      cases hres : srv.postBufferReserve (header.contentlenght + 1) with
      | false => exact Or.inl ⟨rfl, rfl, rfl⟩
      | true => exact Or.inr ⟨_, _, rfl, rfl, rfl, rfl, fun _ => rfl⟩

/-- With a buffer, bytes are copied. -/
theorem recvPostPayload_copies (halloc : allocPostBuffer srv header = some h)
    (piece : List UInt8) : ∃ src, (recvPostPayload srv header piece).1 = copyPayload h src ∧
      (recvPostPayload srv header piece).2.1.length ≤ piece.length ∧
      (recvPostPayload srv header piece).2.2 ≠ .refused := by
  have hcomplete : PayloadStatus.complete ≠ .refused := by decide
  have hmore : PayloadStatus.more ≠ .refused := by decide
  rw [recvPostPayload, halloc]
  dsimp only
  split_ifs
  · exact ⟨piece, rfl, Nat.zero_le _, hcomplete⟩
  · exact ⟨piece, rfl, Nat.zero_le _, hmore⟩
  · exact ⟨_, rfl, Nat.le_trans (Nat.le_of_eq List.length_drop) (Nat.sub_le ..), hcomplete⟩
  · exact ⟨_, rfl, Nat.zero_le _, hcomplete⟩
  · exact ⟨_, rfl, Nat.zero_le _, hmore⟩

/-- `recv_post_payload` changes the fields of the body only. -/
theorem recvPostPayload_bodyFrom (srv : PostServer) (header : HttpRequestHeader)
    (piece : List UInt8) :
    (recvPostPayload srv header piece).1 = header.bodyFrom (recvPostPayload srv header piece).1 := by
  obtain ⟨hnone, -, -⟩ | ⟨h, b, hsome, -, hframe, -, -⟩ := allocPostBuffer_cases srv header
  · rw [recvPostPayload, hnone]
    rfl
  · obtain ⟨src, hsrc, -, -⟩ := recvPostPayload_copies hsome piece
    rw [hsrc, hframe]
    rfl

/-- What has been reserved for the body, when there is memory for it. -/
theorem recvPostPayload_reserved (hdone : (recvPostPayload srv header piece).2.2 ≠ .refused) :
    (recvPostPayload srv header piece).2.1.length ≤ piece.length ∧
      (recvPostPayload srv header piece).1.postBuffer ≠ none ∧
      (recvPostPayload srv header piece).1.postBufferReserved =
        (if header.postBuffer = none then header.contentlenght + 1
          else header.postBufferReserved) ∧
      (header.postBuffer = none → srv.postBufferReserve (header.contentlenght + 1) = true) := by
  obtain ⟨hnone, -, -⟩ | ⟨h, b, hsome, hb, -, hreserved, hmem⟩ := allocPostBuffer_cases srv header
  · rw [recvPostPayload, hnone] at hdone
    exact absurd rfl hdone
  · obtain ⟨src, hsrc, hlen, -⟩ := recvPostPayload_copies hsome piece
    rw [hsrc]
    refine ⟨hlen, ?_, hreserved, hmem⟩
    rw [copyPayload, hb]
    exact Option.some_ne_none _

/-- Without memory the record is left alone. -/
theorem recvPostPayload_refused (hrefused : (recvPostPayload srv header piece).2.2 = .refused) :
    recvPostPayload srv header piece = (header, [], .refused) ∧ header.postBuffer = none ∧
      srv.postBufferReserve (header.contentlenght + 1) = false := by
  obtain ⟨hnone, hb, hres⟩ | ⟨h, b, hsome, -, -, -, -⟩ := allocPostBuffer_cases srv header
  · exact ⟨by rw [recvPostPayload, hnone], hb, hres⟩
  · obtain ⟨src, -, -, hne⟩ := recvPostPayload_copies hsome piece
    exact absurd hrefused hne

end Payload

/-! ## A request that is being read -/

/-- The body of a request, as far as the stream has it; zeros stand for what is missing. -/
def bodyOf (header : HttpRequestHeader) (stream : List UInt8) : List UInt8 :=
  (stream ++ List.replicate header.contentlenght.toNat 0).take header.contentlenght.toNat

/-- What is behind the body. -/
def behindBody (header : HttpRequestHeader) (stream : List UInt8) : List UInt8 :=
  (stream ++ List.replicate header.contentlenght.toNat 0).drop header.contentlenght.toNat

/-- A POST request whose body is read into the post buffer. -/
structure Buffers (srv : PostServer) (header : HttpRequestHeader) : Prop where
  method : header.method = .post
  headerComplete : header.headerComplete = true
  check : checkPostHeader srv header = none
  pos : header.contentlenght ≠ 0
  buffered : streamHandlerOf srv header = none
  plain : header.isWebsocket = 0
  fresh : header.postBuffer = none ∧ header.postBufferPos = 0
  max : 0 ≤ srv.maxPostSize.toInt

/-- The header has been read, and so many bytes of the body. `stream` is everything that comes
behind the header. -/
structure InBody (srv : PostServer) (header : HttpRequestHeader) (stream : List UInt8)
    (r : HeaderReader) : Prop where
  buffers : Buffers srv header
  copied : PartlyCopied (bodyOf header stream) r.sock.header
  frame : r.sock.header = header.bodyFrom r.sock.header
  reserved : r.sock.header.postBufferReserved =
    if r.sock.header.postBuffer = none then header.postBufferReserved
    else header.contentlenght + 1
  memory : r.sock.header.postBuffer ≠ none →
    stream ≠ [] ∧ srv.postBufferReserve (header.contentlenght + 1) = true
  empty : r.headerBuffer = []
  within : r.sock.header.postBufferPos.toNat ≤ stream.length
  unread : r.unread = stream.drop r.sock.header.postBufferPos.toNat

/-- The header is being read. -/
structure InHeader (srv : PostServer) (next : Next) (r : HeaderReader) : Prop where
  ready : r.Ready
  state : r.sock.header.bodyState = (false, none, 0)
  next_eq : nextRequest srv r.sock.header r.bytes = next

/-- A request is being read, and it will be this one. -/
inductive Reads (srv : PostServer) (next : Next) (r : HeaderReader) : Prop
  | header (h : InHeader srv next r)
  | body (header : HttpRequestHeader) (stream : List UInt8) (h : InBody srv header stream r)
      (hnext : postNext srv header stream = next)

/-- A request that is handed on is the next one, and the bytes behind it are kept. -/
structure Handed (next : Next) (r : HeaderReader) : Prop where
  buffer : r.headerBuffer.length ≤ webserverMaxHeaderLineLenght
  headerComplete : r.sock.header.headerComplete = false
  refused : r.sock.header.isWebsocket = 2 → r.sock.header.bodyState = (false, none, 0)
  next_eq : next =
    if r.sock.header.isWebsocket = 1 then .upgrade r.sock.header r.bytes
    else if r.sock.header.isWebsocket = 2 then .refused r.sock.header r.bytes
    else .request r.sock.header r.bytes

theorem Handed.of_plain {r : HeaderReader}
    (hbuffer : r.headerBuffer.length ≤ webserverMaxHeaderLineLenght)
    (hcomplete : r.sock.header.headerComplete = false) (hplain : r.sock.header.isWebsocket = 0) :
    Handed (.request r.sock.header r.bytes) r where
  buffer := hbuffer
  headerComplete := hcomplete
  refused := fun h => absurd (hplain.symm.trans h) (by decide)
  next_eq := by
    rw [hplain]
    rfl

/-- A request that has ended is the next one, unless the proxy has taken over. -/
def Ended (next : Next) (r : HeaderReader) : RequestOutcome → Prop
  | .complete => Handed next r
  | .error status => next = .error r.sock.header status
  | .reverseProxy => True
  | .streaming handler => ∃ header rest, next = .upload header handler rest

/-- What a round may lead to. -/
def RoundResult (next : Next) (P : HeaderReader → Prop)
    (out : HeaderReader × Option RequestOutcome) : Prop :=
  match out.2 with
  | none => P out.1
  | some outcome => Ended next out.1 outcome

theorem RoundResult.mono {next : Next} {P Q : HeaderReader → Prop}
    {out : HeaderReader × Option RequestOutcome} (h : RoundResult next P out)
    (hPQ : ∀ r, P r → Q r) : RoundResult next Q out := by
  rcases out with ⟨r, _ | o⟩
  · exact hPQ r h
  · exact h

section Body

variable {srv : PostServer} {header : HttpRequestHeader} {stream piece : List UInt8}
  {r : HeaderReader}

theorem length_bodyOf (header : HttpRequestHeader) (stream : List UInt8) :
    (bodyOf header stream).length = header.contentlenght.toNat := by
  rw [bodyOf, List.length_take, List.length_append, List.length_replicate]
  omega

/-- The body and what is behind it, from a position in the stream on. -/
theorem bodyOf_drop {n : Nat} (hn : n ≤ header.contentlenght.toNat) (hstream : n ≤ stream.length) :
    (bodyOf header stream).drop n ++ behindBody header stream =
      stream.drop n ++ List.replicate header.contentlenght.toNat 0 := by
  have hlen := length_bodyOf header stream
  rw [← List.drop_append_of_le_length (by omega), bodyOf, behindBody, List.take_append_drop,
    List.drop_append_of_le_length hstream]

/-- A body that is within `max_post_size` fits the position. -/
theorem Buffers.small (h : Buffers srv header) : header.contentlenght.toNat < 2 ^ 31 := by
  have hcheck := h.check
  have hmax := h.max
  unfold checkPostHeader maxBodySize at hcheck
  rw [h.buffered] at hcheck
  split_ifs at hcheck with hboundary hlarge
  have h0 : (0 : Int64) ≤ srv.maxPostSize.toInt64 := by
    rw [Int64.le_iff_toInt_le, Int32.toInt_toInt64]
    exact hmax
  have hcast : srv.maxPostSize.toInt64.toUInt64.toNat = srv.maxPostSize.toInt.toNat := by
    rw [Int64.toNat_toUInt64_of_le h0, Int32.toNatClampNeg_toInt64]
    rfl
  rw [UInt64.lt_iff_toNat_lt, hcast] at hlarge
  have hint := srv.maxPostSize.toInt_lt
  omega

/-- What comes next, when there is memory for the body. -/
theorem Buffers.postNext_eq (h : Buffers srv header) (hstream : stream ≠ [])
    (hmem : srv.postBufferReserve (header.contentlenght + 1) = true) :
    postNext srv header stream =
      if stream.length < header.contentlenght.toNat then .waiting
      else .request (header.withBody (stream.take header.contentlenght.toNat))
        (stream.drop header.contentlenght.toNat) := by
  rw [postNext, h.check]
  dsimp only
  rw [if_neg h.pos, h.buffered]
  dsimp only
  rw [if_neg hstream, hmem, if_neg (by decide)]

/-- What has been received of the body cannot be more than the stream has. -/
theorem InBody.rest_eq {rest : List UInt8} {n : Nat} (hn : n ≤ header.contentlenght.toNat)
    (h : rest ++ List.replicate header.contentlenght.toNat 0 =
      (bodyOf header stream).drop n ++ behindBody header stream) :
    n ≤ stream.length ∧ rest = stream.drop n := by
  have hlen := congrArg List.length h
  have hbehind : (behindBody header stream).length = stream.length := by
    rw [behindBody, List.length_drop, List.length_append, List.length_replicate]
    omega
  rw [List.length_append, List.length_append, List.length_drop, length_bodyOf, hbehind,
    List.length_replicate] at hlen
  have hwithin : n ≤ stream.length := by omega
  rw [bodyOf_drop hn hwithin] at h
  exact ⟨hwithin, List.append_cancel_right h⟩

/-- A body that has no memory has not changed the record. -/
theorem InBody.header_eq (h : InBody srv header stream r) (hnone : r.sock.header.postBuffer = none) :
    r.sock.header = header := by
  have hpos := h.copied.fresh hnone
  have hreserved := h.reserved
  rw [if_pos hnone] at hreserved
  rw [h.frame, HttpRequestHeader.bodyFrom, hnone, hpos, hreserved]
  obtain ⟨hbuffer, hzero⟩ := h.buffers.fresh
  rw [← hbuffer, ← hzero]

/-- A body that is complete is the one of the stream. -/
theorem InBody.complete {g : HttpRequestHeader} {buffer unread : List UInt8}
    (hbuffers : Buffers srv header) (hfull : FullyCopied (bodyOf header stream) g)
    (hframe : g = header.bodyFrom g) (hreserved : g.postBufferReserved = header.contentlenght + 1)
    (hstream : stream ≠ []) (hmem : srv.postBufferReserve (header.contentlenght + 1) = true)
    (hrest : (buffer ++ unread) ++ List.replicate header.contentlenght.toNat 0 =
      behindBody header stream) :
    postNext srv header stream = .request { g with headerComplete := false } (buffer ++ unread) := by
  have hdrop : (bodyOf header stream).drop header.contentlenght.toNat = [] := by
    rw [← length_bodyOf header stream, List.drop_length]
  obtain ⟨hlong, hbehind⟩ := InBody.rest_eq (Nat.le_refl header.contentlenght.toNat)
    (hrest.trans (by rw [hdrop, List.nil_append]))
  have hbody : bodyOf header stream = stream.take header.contentlenght.toNat := by
    rw [bodyOf, List.take_append_of_le_length hlong]
  have hsmall := hbuffers.small
  have hpos : g.postBufferPos = header.contentlenght.toUInt32 := by
    rw [← UInt32.toNat_inj, hfull.pos, length_bodyOf, UInt64.toNat_toUInt32]
    omega
  rw [hbuffers.postNext_eq hstream hmem, if_neg (by omega), hbehind, HttpRequestHeader.withBody,
    ← hbody, ← hpos, ← hfull.buffer, ← hreserved, hframe]
  rfl

/-- **A piece of the body** that stands in the header buffer. -/
theorem InBody.payload
    (h : InBody srv header stream { r with headerBuffer := [], unread := piece ++ r.unread })
    (hpiece : piece ≠ []) (hroom : piece.length ≤ webserverMaxHeaderLineLenght) :
    RoundResult (postNext srv header stream) (InBody srv header stream)
      (payloadRound srv r piece) := by
  have hpos : r.sock.header.postBufferPos.toNat < header.contentlenght.toNat := by
    have := h.copied.pos
    rwa [length_bodyOf] at this
  have hsmall : (bodyOf header stream).length < 2 ^ 31 := by
    rw [length_bodyOf]
    exact h.buffers.small
  have hdrop : piece ++ r.unread = stream.drop r.sock.header.postBufferPos.toNat := h.unread
  have hstream : stream ≠ [] := by
    rintro rfl
    rw [List.drop_nil] at hdrop
    exact hpiece (List.append_eq_nil_iff.mp hdrop).1
  have hall : piece ++ (r.unread ++ List.replicate header.contentlenght.toNat 0) =
      (bodyOf header stream).drop r.sock.header.postBufferPos.toNat ++ behindBody header stream := by
    rw [bodyOf_drop (Nat.le_of_lt hpos) h.within, ← hdrop, List.append_assoc]
  have hlength : r.sock.header.contentlenght = header.contentlenght := by
    rw [show r.sock.header = header.bodyFrom r.sock.header from h.frame]
    rfl
  have hspec := @recvPostPayload_spec srv _ _ _ _ _ hsmall h.copied hroom hall
  have hframe := recvPostPayload_bodyFrom srv r.sock.header piece
  have hreserved := @recvPostPayload_reserved srv r.sock.header piece
  have hrefused := @recvPostPayload_refused srv r.sock.header piece
  unfold payloadRound
  revert hspec hframe hreserved hrefused
  rcases recvPostPayload srv r.sock.header piece with ⟨g, buffer, status⟩
  intro hspec hframe hreserved hrefused
  have hframe' : g = header.bodyFrom g := by
    rw [show g = r.sock.header.bodyFrom g from hframe,
      show r.sock.header = header.bodyFrom r.sock.header from h.frame]
    rfl
  -- what has been reserved, if the piece has been taken
  have htaken : status ≠ .refused → buffer.length ≤ piece.length ∧ g.postBuffer ≠ none ∧
      g.postBufferReserved = header.contentlenght + 1 ∧
      srv.postBufferReserve (header.contentlenght + 1) = true := by
    intro hstatus
    obtain ⟨hlen, hb, hres, hmem⟩ := hreserved hstatus
    rw [hlength] at hres hmem
    refine ⟨hlen, hb, ?_, ?_⟩
    · refine hres.trans ?_
      split_ifs with hnone
      · rfl
      · exact h.reserved.trans (if_neg hnone)
    · by_cases hnone : r.sock.header.postBuffer = none
      · exact hmem hnone
      · exact (h.memory hnone).2
  cases status with
  | more =>
      obtain ⟨hbuf, hpart, hunread, hsame⟩ := hspec
      obtain ⟨-, hb, hres, hmem⟩ := htaken (by decide)
      have hlt : g.postBufferPos.toNat < header.contentlenght.toNat := by
        have := hpart.pos
        rwa [length_bodyOf] at this
      obtain ⟨hwithin, hrest⟩ := InBody.rest_eq (Nat.le_of_lt hlt) hunread
      exact ⟨h.buffers, hpart, hframe', hres.trans (if_neg hb).symm, fun _ => ⟨hstream, hmem⟩,
        hbuf, hwithin, hrest⟩
  | complete =>
      obtain ⟨hfull, hrest⟩ := hspec
      obtain ⟨hlen, hb, hres, hmem⟩ := htaken (by decide)
      have hweb : g.isWebsocket = 0 := by
        rw [hframe']
        exact h.buffers.plain
      rw [InBody.complete h.buffers hfull hframe' hres hstream hmem
        (by rw [← hrest, List.append_assoc])]
      exact @Handed.of_plain
        (({ r with headerBuffer := buffer }.setHeader g).handOn) (Nat.le_trans hlen hroom) rfl hweb
  | refused =>
      obtain ⟨hsame, hnone, hmem⟩ := hrefused rfl
      cases hsame
      rw [hlength] at hmem
      have heq : r.sock.header = header := h.header_eq hnone
      show postNext srv header stream = .error r.sock.header (some 503)
      rw [heq, postNext, h.buffers.check]
      dsimp only
      rw [if_neg h.buffers.pos, h.buffers.buffered]
      dsimp only
      rw [if_neg hstream, if_pos hmem]

/-- **A round in the body.** -/
theorem InBody.round (h : InBody srv header stream r) (n : Nat) :
    RoundResult (postNext srv header stream) (InBody srv header stream) (bodyRound srv r n) := by
  have hempty := h.empty
  have hroom : ([] : List UInt8).length < webserverMaxHeaderLineLenght := by decide
  have hopen : r.sock.header.postBufferPos.toUInt64 < r.sock.header.contentlenght := by
    rw [UInt64.lt_iff_toNat_lt, h.copied.length]
    exact h.copied.pos
  have hpiece : (r.recv n).headerBuffer.length ≤ webserverMaxHeaderLineLenght := by
    simp only [HeaderReader.recv, hempty, List.nil_append, List.length_take, List.length_nil]
    omega
  -- the piece, taken back to the stream
  have hback : { r.recv n with
      headerBuffer := []
      unread := (r.recv n).headerBuffer ++ (r.recv n).unread } = r := by
    have hbytes := recv_bytes r n
    rw [HeaderReader.bytes, HeaderReader.bytes, hempty, List.nil_append] at hbytes
    rw [hbytes, ← hempty]
    rfl
  rw [bodyRound, hempty, if_pos hroom]
  simp only [List.length_nil, List.drop_zero, List.take_length]
  by_cases hnone : (r.recv n).headerBuffer.length = 0
  · rw [if_pos hnone]
    exact h
  · rw [if_neg hnone, if_pos hopen]
    refine InBody.payload (by rw [hback]; exact h) ?_ hpiece
    intro hnil
    rw [hnil] at hnone
    exact hnone rfl

/-- **The end of the header of a POST request.** -/
theorem postHeaderEnd_next {status : HeaderStatus} (hmethod : r.sock.header.method = .post)
    (hstate : r.sock.header.bodyState = (true, none, 0)) (hplain : r.sock.header.isWebsocket = 0)
    (hmax : 0 ≤ srv.maxPostSize.toInt)
    (hroom : r.headerBuffer.length ≤ webserverMaxHeaderLineLenght)
    (hempty : status = .complete ↔ r.headerBuffer = []) :
    RoundResult (postNext srv r.sock.header r.bytes) (InBody srv r.sock.header r.bytes)
      (postHeaderEnd srv r status) := by
  obtain ⟨hcomplete, hnone, hzero⟩ : r.sock.header.headerComplete = true ∧
      r.sock.header.postBuffer = none ∧ r.sock.header.postBufferPos = 0 := by
    simpa [HttpRequestHeader.bodyState] using hstate
  rw [postHeaderEnd]
  cases hcheck : checkPostHeader srv r.sock.header with
  | some code =>
      show postNext srv r.sock.header r.bytes = _
      rw [postNext, hcheck]
      rfl
  | none =>
      dsimp only
      by_cases hlen : r.sock.header.contentlenght = 0
      · rw [if_pos hlen]
        have hnext : postNext srv r.sock.header r.bytes =
            .request r.handOn.sock.header r.handOn.bytes := by
          rw [postNext, hcheck]
          dsimp only
          rw [if_pos hlen]
          rfl
        rw [hnext]
        exact @Handed.of_plain r.handOn hroom rfl hplain
      rw [if_neg hlen]
      cases hhandler : streamHandlerOf srv r.sock.header with
      | some e =>
          refine ⟨r.sock.header, r.bytes, ?_⟩
          rw [postNext, hcheck]
          dsimp only
          rw [if_neg hlen, hhandler]
      | none =>
          have hbuffers : Buffers srv r.sock.header :=
            ⟨hmethod, hcomplete, hcheck, hlen, hhandler, hplain, ⟨hnone, hzero⟩, hmax⟩
          have hpos : 0 < r.sock.header.contentlenght.toNat := by
            refine Nat.pos_of_ne_zero fun h0 => hlen ?_
            rw [← UInt64.toNat_inj, h0]
            rfl
          have hstart : InBody srv r.sock.header r.bytes
              { r with headerBuffer := [], unread := r.headerBuffer ++ r.unread } := by
            refine ⟨hbuffers, ⟨(length_bodyOf ..).symm, ?_, fun _ => hzero, fun b hb => ?_⟩, rfl,
              (if_pos hnone).symm, fun hb => absurd hnone hb, rfl, ?_, ?_⟩
            · rw [hzero, length_bodyOf]
              exact hpos
            · cases hnone.symm.trans hb
            · rw [hzero]
              exact Nat.zero_le _
            · rw [hzero]
              rfl
          dsimp only
          by_cases hst : status = .complete
          · rw [if_pos hst]
            have hback : { r with headerBuffer := [], unread := r.headerBuffer ++ r.unread } = r := by
              rw [hempty.mp hst, List.nil_append, ← hempty.mp hst]
            rw [hback] at hstart
            exact hstart
          · rw [if_neg hst]
            exact InBody.payload hstart (fun hnil => hst (hempty.mpr hnil)) hroom

/-- A request for the websocket protocol is accepted or refused. -/
theorem checkIsk_isWebsocket (h : isWebsocketRequest header = true) :
    (checkIskWebsocketConnection header).isWebsocket = 1 ∨
      (checkIskWebsocketConnection header).isWebsocket = 2 := by
  rw [checkIskWebsocketConnection, if_pos h]
  split_ifs
  · exact Or.inr rfl
  · exact Or.inl rfl
  · exact Or.inr rfl

/-- **The end of a header.** -/
theorem requestHeaderEnd_next {status : HeaderStatus}
    (hstate : r.sock.header.bodyState = (true, none, 0)) (hmax : 0 ≤ srv.maxPostSize.toInt)
    (hroom : r.headerBuffer.length ≤ webserverMaxHeaderLineLenght)
    (hempty : status = .complete ↔ r.headerBuffer = []) :
    RoundResult (headerNext srv r.sock.header r.bytes)
      (fun r' => ∃ header stream, InBody srv header stream r' ∧
        postNext srv header stream = headerNext srv r.sock.header r.bytes)
      (requestHeaderEnd srv r status) := by
  rw [requestHeaderEnd, headerNext]
  dsimp only
  cases hweb : isWebsocketRequest r.sock.header with
  | true =>
      have hbody : (checkIskWebsocketConnection r.sock.header).bodyState = (true, none, 0) := by
        obtain ⟨w, s, heq⟩ := checkIsk_frame r.sock.header
        rw [heq]
        exact hstate
      have hrest := congrArg Prod.snd hbody
      rw [if_pos rfl, if_pos rfl]
      refine ⟨hroom, rfl, fun _ => Prod.ext rfl hrest, ?_⟩
      show (if (checkIskWebsocketConnection r.sock.header).isWebsocket = 1 then _ else _) =
        if (checkIskWebsocketConnection r.sock.header).isWebsocket = 1 then _ else _
      obtain h1 | h2 := checkIsk_isWebsocket hweb
      · rw [if_pos h1, if_pos h1]
        rfl
      · have h1 : (checkIskWebsocketConnection r.sock.header).isWebsocket ≠ 1 := by
          rw [h2]
          decide
        rw [if_neg h1, if_neg h1]
        show _ = if (checkIskWebsocketConnection r.sock.header).isWebsocket = 2 then _ else _
        rw [if_pos h2]
        rfl
  | false =>
      have hcheck : checkIskWebsocketConnection r.sock.header =
          { r.sock.header with isWebsocket := 0 } := by
        rw [checkIskWebsocketConnection, hweb]
        rfl
      have hsame : (if status = .complete
          then { r.setHeader { r.sock.header with isWebsocket := 0 } with headerBuffer := [] }
          else r.setHeader { r.sock.header with isWebsocket := 0 }) =
          r.setHeader { r.sock.header with isWebsocket := 0 } := by
        split_ifs with hst
        · rw [← hempty.mp hst]
          rfl
        · rfl
      rw [if_neg Bool.false_ne_true, if_neg Bool.false_ne_true, hcheck, hsame]
      by_cases hmethod : r.sock.header.method = .post
      · have hend := @postHeaderEnd_next srv (r.setHeader { r.sock.header with isWebsocket := 0 })
          status hmethod hstate rfl hmax hroom hempty
        have hmethod' : (r.setHeader { r.sock.header with isWebsocket := 0 }).sock.header.method =
            .post := hmethod
        rw [if_pos hmethod, if_pos hmethod']
        revert hend
        rcases postHeaderEnd srv (r.setHeader { r.sock.header with isWebsocket := 0 }) status with
          ⟨r', _ | o⟩
        · intro hend
          exact ⟨_, _, hend, rfl⟩
        · exact id
      · have hmethod' : ¬ (r.setHeader { r.sock.header with isWebsocket := 0 }).sock.header.method =
            .post := hmethod
        rw [if_neg hmethod, if_neg hmethod']
        exact @Handed.of_plain (r.setHeader { r.sock.header with isWebsocket := 0 }).handOn hroom
          rfl rfl

end Body

/-! ## Rounds -/

section Rounds

variable {srv : PostServer} {next : Next} {r : HeaderReader}

/-- Between two rounds the next request is the one of the header parser. -/
theorem HeaderReader.Ready.nextRequest_eq (h : r.Ready) :
    nextRequest srv r.sock.header r.bytes = statusNext srv r.result.1 r.result.2.1 r.result.2.2 := by
  have hnorm : ∀ g rest status, statusNext srv g rest status.norm = statusNext srv g rest status := by
    intro g rest status
    cases status <;> rfl
  have hline : ¬ (r.sock.header.parsedBytes = 0 ∧ crlf <+: r.bytes) := fun hempty =>
    h.start.elim (fun hp => hp hempty.1) fun hp => hp hempty.2
  rw [nextRequest, if_neg hline, HeaderReader.result, hnorm]

theorem InHeader.recv (h : InHeader srv next r) (n : Nat) : InHeader srv next (r.recv n) where
  ready := h.ready.recv n
  state := h.state
  next_eq := by
    rw [recv_bytes]
    exact h.next_eq

/-- A header with more bytes behind it ends before the last of them. -/
theorem parseHeader_completeMoreData {registrations : List ProxyRegistration} {s : HeaderSocket}
    {buffer : List UInt8} (h : (parseHeader registrations s buffer).2 = .completeMoreData) :
    2 < buffer.length := by
  unfold parseHeader at h
  by_cases hp : crlf <+: buffer
  · rw [if_pos hp, headerEnd] at h
    split_ifs at h with h1 h2
    · exact h1.2
    · exact h2
  · rw [if_neg hp] at h
    cases hsearch : searchLine buffer with
    | notFound | tooLong =>
        rw [hsearch] at h
        cases h
    | found i =>
        rw [hsearch] at h
        cases hcheck : checkReverseProxy registrations s.reverseProxyChecked buffer with
        | taken _ =>
            rw [hcheck] at h
            cases h
        | pass checked =>
            rw [hcheck] at h
            dsimp only [headerLine] at h
            split_ifs at h
            revert h
            rcases analyseHeaderLine (buffer.take (i - 1)) s.header with ⟨header, _ | _⟩ <;>
              exact fun h => by cases h

/-- The buffer is empty behind a header that ends with it. -/
theorem parseRound_empty {registrations : List ProxyRegistration} {status : HeaderStatus}
    (hst : (parseRound registrations r).2 = some (.ended status)) (hnorm : status.norm = .complete) :
    status = .complete ↔ (parseRound registrations r).1.headerBuffer = [] := by
  have hparse := headerOutcome_ended hst
  simp only [parseRound, HeaderReader.reCopyHeaderBuffer, hparse]
  cases status with
  | complete =>
      have hshort := parseHeader_complete hparse
      exact iff_of_true rfl (List.drop_eq_nil_of_le hshort)
  | completeMoreData =>
      have hlong := parseHeader_completeMoreData hparse
      refine iff_of_false (by simp) fun hnil => ?_
      have hlen := List.drop_eq_nil_iff.mp hnil
      rw [HeaderStatus.parsed] at hlen
      omega
  | _ => simp [HeaderStatus.norm] at hnorm

/-- **A round in the header.** -/
theorem InHeader.round (h : InHeader srv next r) (hmax : 0 ≤ srv.maxPostSize.toInt) (n : Nat) :
    RoundResult next (Reads srv next) (requestRound srv r n) := by
  have hopen : ¬ (r.sock.header.method = .post ∧ r.sock.header.headerComplete = true) := by
    rintro ⟨-, hc⟩
    rw [show r.sock.header.headerComplete = false from congrArg Prod.fst h.state] at hc
    cases hc
  have hrecv := h.recv n
  rw [requestRound, if_neg hopen, headerRound_eq]
  by_cases hempty : (r.recv n).headerBuffer = []
  · rw [if_pos hempty]
    exact .header hrecv
  rw [if_neg hempty]
  have hstate := @parseRound_bodyState srv.registrations (r.recv n) hrecv.ready
  obtain ⟨hc0, hb0, hp0⟩ : (r.recv n).sock.header.headerComplete = false ∧
      (r.recv n).sock.header.postBuffer = none ∧ (r.recv n).sock.header.postBufferPos = 0 := by
    simpa [HttpRequestHeader.bodyState] using hrecv.state
  rw [hc0, hb0, hp0] at hstate
  by_cases hproxy : (parseRound srv.registrations (r.recv n)).2 = some (.ended .reverseProxy)
  · revert hproxy
    rcases parseRound srv.registrations (r.recv n) with ⟨r', o⟩
    rintro rfl
    trivial
  have hnext := hrecv.next_eq.symm.trans hrecv.ready.nextRequest_eq
  rcases parseRound_spec hrecv.ready hproxy with ⟨hnone, hready, hres⟩ | ⟨status, hst, hres, hne⟩
  · -- the header goes on
    rw [if_neg (headerOutcome_none hnone)] at hstate
    have hphase : InHeader srv next (parseRound srv.registrations (r.recv n)).1 :=
      ⟨hready, hstate, by rw [hready.nextRequest_eq, hres, ← hnext]⟩
    revert hnone hphase
    rcases parseRound srv.registrations (r.recv n) with ⟨r', o⟩
    rintro rfl hphase
    exact .header hphase
  · -- the header ends
    have hparse := headerOutcome_ended hst
    have hline : ∀ k, status ≠ .line k := by
      rintro k rfl
      rw [parseRound] at hst
      dsimp only at hst
      rw [hparse] at hst
      cases hst
    rw [hres] at hnext
    have hend : status.norm = .complete → RoundResult next (Reads srv next)
        (requestHeaderEnd srv (parseRound srv.registrations (r.recv n)).1 status) := by
      intro hnorm
      rw [hparse, if_pos hnorm] at hstate
      have hroom : (parseRound srv.registrations (r.recv n)).1.headerBuffer.length ≤
          webserverMaxHeaderLineLenght := by
        refine Nat.le_trans ?_ hrecv.ready.buffer
        simp only [parseRound, HeaderReader.reCopyHeaderBuffer, List.length_drop]
        omega
      rw [hnorm] at hnext
      rw [hnext]
      refine (requestHeaderEnd_next hstate hmax hroom (parseRound_empty hst hnorm)).mono ?_
      rintro r' ⟨header, stream, hbody, heq⟩
      exact .body header stream hbody heq
    revert hst hnext hend
    rcases parseRound srv.registrations (r.recv n) with ⟨r', o⟩
    rintro hnext rfl hend
    cases status with
    | complete => exact hend rfl
    | completeMoreData => exact hend rfl
    | lineTooLong => exact hnext
    | methodNotAllowed => exact hnext
    | headerTooLarge => exact hnext
    | noLine => exact absurd rfl hne
    | reverseProxy => trivial
    | line k => exact absurd rfl (hline k)

/-- **A round of the loop** keeps the request that is being read, or ends with it. -/
theorem Reads.round (h : Reads srv next r) (hmax : 0 ≤ srv.maxPostSize.toInt) (n : Nat) :
    RoundResult next (Reads srv next) (requestRound srv r n) := by
  cases h with
  | header h => exact h.round hmax n
  | body header stream h hnext =>
      have hmethod : r.sock.header.method = .post := by
        rw [h.frame]
        exact h.buffers.method
      have hcomplete : r.sock.header.headerComplete = true := by
        rw [h.frame]
        exact h.buffers.headerComplete
      rw [requestRound, if_pos ⟨hmethod, hcomplete⟩, ← hnext]
      exact (h.round n).mono fun r' h' => .body header stream h' rfl

end Rounds

/-! ## Calls -/

section Calls

variable {srv : PostServer} {next : Next} {r : HeaderReader}

/-- Nothing can be done without more bytes: the buffer is empty, or has no complete line. -/
def HeaderReader.Stuck (srv : PostServer) (r : HeaderReader) : Prop :=
  r.headerBuffer = [] ∨ (parseHeader srv.registrations r.sock r.headerBuffer).2 = .noLine

/-- A stream that is at its end when nothing more can be done ends within the request. -/
theorem Reads.waiting (h : Reads srv next r) (hstuck : r.Stuck srv) (hunread : r.unread = []) :
    next = .waiting := by
  cases h with
  | header h =>
      rw [← h.next_eq, h.ready.nextRequest_eq, result_of_waiting hunread hstuck]
      rfl
  | body header stream h hnext =>
      have hend : stream.length ≤ r.sock.header.postBufferPos.toNat := by
        rw [← List.drop_eq_nil_iff, ← h.unread, hunread]
      have hshort : r.sock.header.postBufferPos.toNat < header.contentlenght.toNat := by
        have := h.copied.pos
        rwa [length_bodyOf] at this
      rw [← hnext]
      by_cases hstream : stream = []
      · rw [postNext, h.buffers.check]
        dsimp only
        rw [if_neg h.buffers.pos, h.buffers.buffered]
        dsimp only
        rw [if_pos hstream]
      · have hmem := h.memory fun hnone => hstream (by
          rw [h.copied.fresh hnone] at hend
          exact List.length_eq_zero_iff.mp (Nat.le_zero.mp hend))
        rw [h.buffers.postNext_eq hstream hmem.2, if_pos (by omega)]

/-- How a call leaves the request that is being read. -/
def CallResult (srv : PostServer) (next : Next) (r : HeaderReader) : CallEnd → Prop
  | .wait => Reads srv next r ∧ r.Stuck srv
  | .gone => Reads srv next r
  | .done outcome => Ended next r outcome

/-- How a round leaves it. -/
def RoundEndResult (srv : PostServer) (next : Next) (out : HeaderReader × RoundEnd) : Prop :=
  match out.2 with
  | .again _ => Reads srv next out.1
  | .stop callEnd => CallResult srv next out.1 callEnd

/-- A header that ends with the buffer leaves nothing in it. -/
theorem postHeaderEnd_complete {r' : HeaderReader} (hempty : r.headerBuffer = [])
    (h : postHeaderEnd srv r .complete = (r', none)) : r'.headerBuffer = [] := by
  unfold postHeaderEnd at h
  simp only [if_true] at h
  split at h
  · cases h
  · split_ifs at h
    · cases h
    · split at h
      · cases h
      · cases h
        exact hempty

theorem requestHeaderEnd_complete {r' : HeaderReader}
    (h : requestHeaderEnd srv r .complete = (r', none)) : r'.headerBuffer = [] := by
  unfold requestHeaderEnd at h
  simp only [if_true] at h
  split_ifs at h
  · cases h
  · exact postHeaderEnd_complete rfl h
  · cases h

/-- A round in the header behind which the loop returns. -/
theorem requestRound_stuck {r' : HeaderReader} {n : Nat}
    (hopen : ¬ (r.sock.header.method = .post ∧ r.sock.header.headerComplete = true))
    (hround : requestRound srv r n = (r', none))
    (hline : ∀ k, (parseHeader srv.registrations r.sock (r.recv n).headerBuffer).2 ≠ .line k)
    (hmore : (parseHeader srv.registrations r.sock (r.recv n).headerBuffer).2 ≠ .completeMoreData) :
    r'.Stuck srv := by
  rw [requestRound, if_neg hopen, headerRound_eq] at hround
  by_cases hempty : (r.recv n).headerBuffer = []
  · rw [if_pos hempty] at hround
    cases hround
    exact Or.inl hempty
  rw [if_neg hempty] at hround
  have hsock : (r.recv n).sock = r.sock := rfl
  cases hst : (parseHeader srv.registrations (r.recv n).sock (r.recv n).headerBuffer).2 with
  | noLine =>
      rw [parseRound_noLine hst] at hround
      cases hround
      exact Or.inr hst
  | complete =>
      simp only [parseRound, hst, headerOutcome, afterHeader] at hround
      exact Or.inl (requestHeaderEnd_complete hround)
  | line k => exact absurd hst (hline k)
  | completeMoreData => exact absurd hst hmore
  | lineTooLong | methodNotAllowed | headerTooLarge | reverseProxy =>
      simp only [parseRound, hst, headerOutcome, afterHeader] at hround
      cases hround

/-- **A round, and what the loop does behind it.** -/
theorem Reads.clientRound (h : Reads srv next r) (hmax : 0 ≤ srv.maxPostSize.toInt)
    (postRead n : Nat) : RoundEndResult srv next (clientRound srv r postRead n) := by
  have hround := h.round hmax n
  rw [CWebUI.Http.clientRound]
  cases h with
  | header h =>
      have hopen : ¬ (r.sock.header.method = .post ∧ r.sock.header.headerComplete = true) := by
        rintro ⟨-, hc⟩
        rw [show r.sock.header.headerComplete = false from congrArg Prod.fst h.state] at hc
        cases hc
      have hstuck := @requestRound_stuck srv r
      revert hround
      rcases hreq : requestRound srv r n with ⟨r', _ | o⟩
      · intro hround
        dsimp only
        rw [if_neg hopen]
        by_cases hempty : (r.recv n).headerBuffer = []
        · rw [if_pos hempty]
          refine ⟨hround, Or.inl ?_⟩
          rw [requestRound, if_neg hopen, headerRound_eq, if_pos hempty] at hreq
          cases hreq
          exact hempty
        · rw [if_neg hempty]
          split
          · exact hround
          · exact hround
          · next hline hmore => exact ⟨hround, requestRound_stuck hopen hreq hline hmore⟩
      · exact id
  | body header stream h hnext =>
      have hbody : r.sock.header.method = .post ∧ r.sock.header.headerComplete = true := by
        rw [h.frame]
        exact ⟨h.buffers.method, h.buffers.headerComplete⟩
      have hin := h.round n
      rw [hnext] at hin
      rw [requestRound, if_pos hbody] at hround ⊢
      revert hround hin
      rcases bodyRound srv r n with ⟨r', _ | o⟩
      · intro hround hin
        dsimp only
        rw [if_pos hbody]
        split_ifs
        · exact ⟨hround, Or.inl hin.empty⟩
        · exact hround
      · exact fun hround _ => hround

/-! ### A call returns -/

/-- **A call of `handleClientHeaderData`** keeps the request that is being read, or ends with
it. -/
theorem Reads.call (h : Reads srv next r) (hmax : 0 ≤ srv.maxPostSize.toInt)
    {answers : List RecvAnswer} {postRead : Nat} {r' : HeaderReader} {callEnd : CallEnd}
    (hcall : handleClientHeaderData srv answers postRead r = some (r', callEnd)) :
    CallResult srv next r' callEnd := by
  induction answers generalizing postRead r with
  | nil => cases hcall
  | cons answer answers ih =>
      have hgo : ∀ n, (match CWebUI.Http.clientRound srv r postRead n with
          | (r', .again postRead) => handleClientHeaderData srv answers postRead r'
          | (r', .stop callEnd) => some (r', callEnd)) = some (r', callEnd) →
          CallResult srv next r' callEnd := by
        intro n hn
        have hround := h.clientRound hmax postRead n
        revert hround hn
        rcases CWebUI.Http.clientRound srv r postRead n with ⟨r₁, postRead' | stop⟩
        · intro hn hround
          exact ih hround hn
        · intro hn hround
          cases hn
          exact hround
      cases answer with
      | data n => exact hgo n hcall
      | gone =>
          rw [handleClientHeaderData] at hcall
          split_ifs at hcall with hroom
          · cases hcall
            exact h
          · exact hgo 0 hcall

end Calls

/-! ## A request takes bytes from the stream -/

/-- The number of bytes that are left, if the stream goes on. -/
def Next.size : Next → Nat
  | .request _ rest => rest.length + 1
  | .refused _ rest => rest.length + 1
  | _ => 0

/-- A header has at least the empty line at its end. -/
theorem length_headerOf (header : HttpRequestHeader) (bytes : List UInt8)
    (h : (headerOf header bytes).2.2.norm = .complete) :
    (headerOf header bytes).2.1.length + 2 ≤ bytes.length := by
  induction hn : bytes.length using Nat.strongRecOn generalizing header bytes with
  | ind n ih =>
      subst hn
      cases hst : (parseHeader [] ⟨header, true⟩ bytes).2 with
      | line k =>
          obtain ⟨h4, hk, -⟩ := parseHeader_line hst
          rw [headerOf_line hst] at h ⊢
          have hdrop : (bytes.drop k).length = bytes.length - k := List.length_drop
          have := ih (bytes.drop k).length (by omega) _ _ h rfl
          omega
      | _ =>
          have hend := @headerOf_end header bytes (by rw [hst]; simp)
          have hparsed := @parseHeader_parsed [] ⟨header, true⟩ bytes
          rw [hend, hst] at h ⊢
          rw [hst] at hparsed
          simp [HeaderStatus.norm, HeaderStatus.parsed] at h hparsed ⊢ <;> omega

theorem size_nextRequest (srv : PostServer) (header : HttpRequestHeader) (bytes : List UInt8) :
    (nextRequest srv header bytes).size ≤ bytes.length := by
  have hpost : ∀ (g : HttpRequestHeader) (rest : List UInt8),
      (postNext srv g rest).size ≤ rest.length + 1 := by
    intro g rest
    have hdrop : (rest.drop g.contentlenght.toNat).length ≤ rest.length := by
      rw [List.length_drop]
      exact Nat.sub_le ..
    rw [postNext]
    cases checkPostHeader srv g with
    | some code => exact Nat.zero_le _
    | none =>
        cases streamHandlerOf srv g with
        | some e =>
            dsimp only
            split_ifs
            · exact Nat.le_refl _
            · exact Nat.zero_le _
        | none =>
            dsimp only
            split_ifs
            · exact Nat.le_refl _
            · exact Nat.zero_le _
            · exact Nat.zero_le _
            · exact Nat.zero_le _
            · exact Nat.succ_le_succ hdrop
  have hheader : ∀ (g : HttpRequestHeader) (rest : List UInt8),
      (headerNext srv g rest).size ≤ rest.length + 1 := by
    intro g rest
    unfold headerNext
    dsimp only
    split_ifs
    · exact Nat.zero_le _
    · exact Nat.le_refl _
    · exact hpost _ _
    · exact Nat.le_refl _
  have hlen := length_headerOf header bytes
  unfold nextRequest
  split_ifs
  · exact Nat.zero_le _
  · revert hlen
    rcases headerOf header bytes with ⟨g, rest, status⟩
    intro hlen
    have hg := hheader g rest
    cases status with
    | complete | completeMoreData =>
        have := hlen rfl
        exact Nat.le_trans hg (by dsimp only at this; omega)
    | _ => exact Nat.zero_le _

end CWebUI.Http
