import CWebUI.Proxy.Response

set_option autoImplicit false

/-! # Forwarding a request

A request is collected until its header and the announced body are there, its header is
rewritten, and the buffer is sent. The invariants of these stages account for every byte: the
buffer is what the client has sent, later it is the rewritten header with the announced body
behind it, and the backend has got a part of that.
-/

namespace CWebUI.Proxy

open ByteString

/-! ## What may be sent -/

/-- The stream begins with a header whose body has a certain length. -/
structure Framed (stream header : List UInt8) (n : Nat) : Prop where
  found : proxyFindHeaderEnd stream = some header.length
  inStream : header <+: stream
  te : fieldLines transferEncodingFieldName header = []
  length : BodyLength header n

/-- The bytes `out` are what is sent for the first request of the stream; they begin with the
rewritten header `sent`. Behind an upgrade there is no end of the request. -/
structure Forwards (setup : ProxySetup) (stream header : List UInt8) (n : Nat)
    (sent out : List UInt8) : Prop where
  framed : Framed stream header n
  injected : proxyInjectForwardedHeaders setup header = some sent
  inOut : sent <+: out
  plain : proxyRequestIsUpgrade header = false →
    header.length + n ≤ stream.length ∧ out = sent ++ (stream.drop header.length).take n

/-- What the backend has got, at any time. When it answers, it has got the whole request. -/
def RequestSafe (setup : ProxySetup) (w : List WireEvent) : Prop :=
  sentToBackend w = [] ∨ ∃ stream header n sent out, stream <+: readFromClient w ∧
    Forwards setup stream header n sent out ∧
    (proxyRequestIsUpgrade header = false →
      stream = readFromClient w ∧ sentToBackend w <+: out ∧
        (readFromBackend w ≠ [] → sentToBackend w = out))

/-- The request has been sent. -/
def RequestDone (setup : ProxySetup) (w : List WireEvent) : Prop :=
  ∃ header n sent out, Forwards setup (readFromClient w) header n sent out ∧ sentToBackend w = out

/-- The request was an upgrade. -/
def RequestUpgrade (setup : ProxySetup) (w : List WireEvent) : Prop :=
  ∃ stream header n sent out, stream <+: readFromClient w ∧
    Forwards setup stream header n sent out ∧ proxyRequestIsUpgrade header = true

theorem RequestUpgrade.safe {setup : ProxySetup} {w : List WireEvent}
    (h : RequestUpgrade setup w) : RequestSafe setup w := by
  obtain ⟨stream, header, n, sent, out, hstream, hf, hup⟩ := h
  refine .inr ⟨stream, header, n, sent, out, hstream, hf, fun hplain => ?_⟩
  rw [hup] at hplain
  exact absurd hplain (by decide)

/-- Whatever comes after an upgrade, it was one. -/
theorem RequestUpgrade.mono {setup : ProxySetup} {w w' : List WireEvent}
    (h : RequestUpgrade setup w) (hw : w <:+ w') : RequestUpgrade setup w' := by
  obtain ⟨stream, header, n, sent, out, hstream, hf⟩ := h
  obtain ⟨v, rfl⟩ := hw
  refine ⟨stream, header, n, sent, out, hstream.trans ?_, hf⟩
  rw [readFromClient_append]
  exact List.prefix_append _ _

theorem RequestDone.safe {setup : ProxySetup} {w : List WireEvent} (h : RequestDone setup w) :
    RequestSafe setup w := by
  obtain ⟨header, n, sent, out, hf, hsent⟩ := h
  exact .inr ⟨_, header, n, sent, out, List.prefix_rfl, hf, fun _ =>
    ⟨rfl, hsent ▸ List.prefix_rfl, fun _ => hsent⟩⟩

theorem RequestSafe.same {setup : ProxySetup} {c c' : ReverseProxyConnection}
    (h : RequestSafe setup c.wire) (hreq : SameRequest c c')
    (hback : readFromBackend c'.wire = readFromBackend c.wire) : RequestSafe setup c'.wire := by
  unfold RequestSafe
  rw [hreq.client, hreq.backend, hback]
  exact h

theorem RequestDone.same {setup : ProxySetup} {c c' : ReverseProxyConnection}
    (h : RequestDone setup c.wire) (hreq : SameRequest c c') : RequestDone setup c'.wire := by
  unfold RequestDone
  rw [hreq.client, hreq.backend]
  exact h

/-- More of the stream does not change the header. -/
theorem Framed.append {stream header : List UInt8} {n : Nat} (h : Framed stream header n)
    (more : List UInt8) : Framed (stream ++ more) header n :=
  ⟨proxyFindHeaderEnd_append h.found more, h.inStream.trans (List.prefix_append _ _), h.te,
    h.length⟩

theorem Framed.take {stream header : List UInt8} {n : Nat} (h : Framed stream header n) :
    stream.take header.length = header := (List.prefix_iff_eq_take.mp h.inStream).symm

/-- A header block ends in an empty line. -/
theorem Framed.ending {stream header : List UInt8} {n : Nat} (h : Framed stream header n) :
    [lf, cr, lf] <:+ header := by
  obtain ⟨b, t, hstream, hlen⟩ := proxyFindHeaderEnd_spec h.found
  have hheader : header = b ++ (crlf ++ crlf) := by
    rw [← h.take, hstream]
    refine List.take_left' ?_
    rw [hlen, List.length_append]
    rfl
  rw [hheader]
  exact ⟨b ++ [cr], by simp [crlf]⟩

/-! ## The stages -/

/-- The request is being collected. -/
structure Collecting (c : ReverseProxyConnection) : Prop where
  buffer : c.request.buffer = readFromClient c.wire
  response : c.response = {}
  sendPos : c.sendPos = 0
  backendHandle : c.sockets.backendHandle = false
  quiet : Quiet c.wire
  backend : sentToBackend c.wire = []
  nothing : sentToClient c.wire = []
  silent : readFromBackend c.wire = []

/-- The header has come, and it says how long the body is. -/
structure HeaderRead (c : ReverseProxyConnection) (header : List UInt8) (n : Nat) : Prop where
  collecting : Collecting c
  framed : Framed (readFromClient c.wire) header n
  headerEnd : c.request.headerEnd = header.length
  contentLength : c.request.contentLength = n

/-- The request buffer holds what is sent. -/
structure Forwarding (setup : ProxySetup) (c : ReverseProxyConnection)
    (header : List UInt8) (n : Nat) (sent : List UInt8) : Prop where
  forwards : Forwards setup (readFromClient c.wire) header n sent c.request.buffer
  headerEnd : c.request.headerEnd = sent.length

/-- The request is being sent. -/
structure Sending (setup : ProxySetup) (c : ReverseProxyConnection) : Prop where
  forwarding : ∃ header n sent, Forwarding setup c header n sent
  sendPos : c.sendPos ≤ c.request.buffer.length
  sent : sentToBackend c.wire = c.request.buffer.take c.sendPos
  response : c.response = {}
  clientEvents : c.sockets.clientEvents = .peerClose
  quiet : Quiet c.wire
  nothing : sentToClient c.wire = []
  silent : readFromBackend c.wire = []

/-- What holds when the connection is over. `hung` says that the client has hung up. -/
structure Ended (setup : ProxySetup) (hung : Prop) (c : ReverseProxyConnection) : Prop where
  closed : Over c
  request : RequestSafe setup c.wire
  response : ResponseSafe c
  tunnel : WireEvent.tunnel ∈ c.wire → Tunnelled c
  done : c.state = .done → hung ∨ DoneReason c

/-- The stages of a connection before the response starts, each with its invariant, and its
end. -/
inductive Early (setup : ProxySetup) (hung : Prop) (c : ReverseProxyConnection) : Prop where
  | header (h : Collecting c) (hstate : c.state = .recvClientHeader)
  | body (header : List UInt8) (n : Nat) (h : HeaderRead c header n)
      (hstate : c.state = .recvClientBody)
  | send (h : Sending setup c) (hstate : c.state = .sendToBackend)
  | await (header : List UInt8) (n : Nat) (sent : List UInt8)
      (h : Forwarding setup c header n sent) (hsent : sentToBackend c.wire = c.request.buffer)
      (ha : Awaiting c) (hstate : c.state = .recvBackendHeader)
  | ended (h : Ended setup hung c)

/-- The stages of a connection. -/
inductive Phase (setup : ProxySetup) (hung : Prop) (c : ReverseProxyConnection) : Prop where
  | early (h : Early setup hung c)
  | stream (hrequest : RequestDone setup c.wire) (h : Streaming c)
      (hp : ∃ e, Passing c.response c.sendPos c.wire e)
  | upgrade (hrequest : RequestUpgrade setup c.wire) (hq : Quiet c.wire)
      (h : Upgrading c.response c.sendPos c.wire) (hstate : c.state = .streamingWaitWrite)
  | tunnel (hrequest : RequestUpgrade setup c.wire) (h : Tunnelled c)
      (hstate : c.state = .websocketTunnel)

/-! ## How a stage is entered -/

variable {setup : ProxySetup} {hung : Prop} {c c' : ReverseProxyConnection}

/-- A connection that was refused is over. -/
theorem Refused.early (h : Refused c c') (hrequest : RequestSafe setup c.wire) :
    Early setup hung c' := by
  refine .ended ⟨h.closed, hrequest.same h.request h.backend, h.response, fun hm => absurd hm h.tunnel,
    fun hd => ?_⟩
  rw [h.state] at hd
  exact absurd hd (by decide)

/-- A response that is passed on stays in its stage, or the connection is over. -/
theorem PassNext.phase (h : PassNext c c') (hrequest : RequestDone setup c.wire) :
    Phase setup hung c' := by
  rcases h.outcome with ⟨hs, hp⟩ | ⟨hover, hsafe, hdone⟩
  · exact .stream (hrequest.same h.request) hs hp
  · exact .early (.ended ⟨hover, (hrequest.same h.request).safe, hsafe,
      fun hm => absurd hm h.tunnel, fun hd => .inr (hdone hd)⟩)

theorem doneReason_of_none (h : c.response.bodyMode = .none) : DoneReason c := by
  constructor
  · intro hm
    rw [h] at hm
    exact absurd hm (by decide)
  · intro hm
    rw [h] at hm
    exact absurd hm (by decide)

/-- So does an upgrade. -/
theorem UpgradeNext.phase (h : UpgradeNext c c') (hrequest : RequestUpgrade setup c.wire) :
    Phase setup hung c' := by
  have hrequest' := hrequest.mono h.wire
  rcases h.outcome with ⟨hstate, hq, hu⟩ | ⟨ht, hstate | hover⟩ | ⟨hover, hstate, hlost, htunnel⟩
  · exact .upgrade hrequest' hq hu hstate
  · exact .tunnel hrequest' ht hstate
  · exact .early (.ended ⟨hover, hrequest'.safe, .upgraded ht.upgrade.1, fun _ => ht,
      fun _ => .inr (doneReason_of_none ht.upgrade.2)⟩)
  · refine .early (.ended ⟨hover, hrequest'.safe, .lost hlost, fun hm => absurd hm htunnel,
      fun hd => ?_⟩)
    rw [hstate] at hd
    exact absurd hd (by decide)

/-- The client has gone before a response has come. -/
theorem enterDone_early (hrequest : RequestSafe setup c.wire) (hq : Quiet c.wire)
    (hnothing : sentToClient c.wire = []) (hmode : c.response.bodyMode = .none)
    (hbody : c.response.bodySent = 0) : Early setup hung (enterDone c) := by
  refine .ended ⟨over_closeDown (.inr rfl) c, hrequest, .page ⟨0, "", [], ?_⟩ hbody,
    fun hm => absurd hm hq.tunnel, fun _ => .inr (doneReason_of_none hmode)⟩
  have hsent : sentToClient (enterDone c).wire = [] := hnothing
  rw [hsent]
  exact List.nil_prefix

/-! ## Sending the request -/

theorem Sending.safe (h : Sending setup c) : RequestSafe setup c.wire := by
  obtain ⟨header, n, sent, hf⟩ := h.forwarding
  refine .inr ⟨_, header, n, sent, c.request.buffer, List.prefix_rfl, hf.forwards,
    fun _ => ⟨rfl, ?_, fun hne => absurd h.silent hne⟩⟩
  rw [h.sent]
  exact List.take_prefix _ _

/-- An error before the request is out. -/
theorem Sending.error (h : Sending setup c) : Early setup hung (enterError setup c) := by
  refine (enterError_refused setup h.quiet h.nothing ?_ ?_).early h.safe
  · rw [h.response]
  · rw [h.response]

/-- Nothing but the watched events and the answers has changed. -/
theorem Sending.frame (h : Sending setup c) (answers : Answers) (backendHandle : Bool)
    (backendEvents : Events) : Sending setup { c with
      answers := answers
      sockets.backendHandle := backendHandle
      sockets.backendEvents := backendEvents } := by
  obtain ⟨header, n, sent, hf⟩ := h.forwarding
  exact ⟨⟨header, n, sent, hf.forwards, hf.headerEnd⟩, h.sendPos, h.sent, h.response,
    h.clientEvents, h.quiet, h.nothing, h.silent⟩

/-- `k` more bytes of the request are out. -/
theorem Sending.more (h : Sending setup c) {k : Nat} (hk : c.sendPos + k ≤ c.request.buffer.length) :
    Sending setup { c with
      sendPos := c.sendPos + k
      wire := .toBackend ((c.request.buffer.drop c.sendPos).take k) :: c.wire } := by
  obtain ⟨header, n, sent, hf⟩ := h.forwarding
  refine ⟨⟨header, n, sent, hf.forwards, hf.headerEnd⟩, hk, ?_, h.response, h.clientEvents,
    h.quiet.cons (by simp) (by simp), h.nothing, h.silent⟩
  show sentToBackend c.wire ++ _ = _
  rw [h.sent, List.take_add]

/-- **Sending the request keeps the invariant.** -/
theorem processSend_early (h : Sending setup c) (hstate : c.state = .sendToBackend) :
    Early setup hung (processSend setup c) := by
  unfold processSend
  by_cases hso : c.sendPos = 0 ∧ c.answers.soError = true
  · rw [if_pos hso]
    exact h.error
  rw [if_neg hso]
  simp only
  cases c.answers.backendSend with
  | nil => exact .send (h.frame _ true .write) hstate
  | cons a rest =>
      cases a with
      | again => exact .send (h.frame _ true .write) hstate
      | failed => exact (h.frame _ true _).error
      | taken n =>
          simp only
          set k := min n (c.request.buffer.length - c.sendPos) with hk
          have hpos := h.sendPos
          have hmore := h.more (k := k) (by omega)
          by_cases hleft : c.sendPos + k < c.request.buffer.length
          · rw [if_pos hleft]
            exact .send (hmore.frame _ true .write) hstate
          · rw [if_neg hleft]
            -- all of the buffer is out, and the response is awaited
            have hall : c.request.buffer.take (c.sendPos + k) = c.request.buffer :=
              List.take_of_length_le (Nat.le_of_not_lt hleft)
            obtain ⟨header, n, sent, hf⟩ := hmore.forwarding
            refine .await header n sent ⟨hf.forwards, hf.headerEnd⟩ (hmore.sent.trans hall)
              ⟨?_, ?_, rfl, hmore.clientEvents, hmore.quiet, hmore.nothing⟩ rfl
            · exact h.response.trans (by rw [show readFromBackend _ = [] from hmore.silent])
            · rw [show readFromBackend _ = [] from hmore.silent]
              exact Nat.zero_le _

/-! ## Collecting the request -/

theorem Collecting.safe (h : Collecting c) : RequestSafe setup c.wire := .inl h.backend

/-- An error before anything was sent. -/
theorem Collecting.error (h : Collecting c) (hwire : c'.wire = c.wire)
    (hresponse : c'.response = c.response) : Early setup hung (enterError setup c') := by
  rw [h.response] at hresponse
  refine Refused.early (enterError_refused setup ?_ ?_ (by rw [hresponse]) (by rw [hresponse])) ?_
  · rw [hwire]
    exact h.quiet
  · rw [hwire]
    exact h.nothing
  · rw [hwire]
    exact h.safe

/-- The request is refused. -/
theorem Collecting.refuse {code : Nat} {reason : String} (h : Collecting c)
    (hwire : c'.wire = c.wire) (hresponse : c'.response = c.response) :
    Early setup hung (refuse setup code reason c') := by
  rw [h.response] at hresponse
  refine Refused.early (refuse_refused setup code reason ?_ ?_ (by rw [hresponse])) ?_
  · rw [hwire]
    exact h.quiet
  · rw [hwire]
    exact h.nothing
  · rw [hwire]
    exact h.safe

/-- Behind an announced body nothing is kept. -/
theorem trimRequest_spec {header : List UInt8} {n : Nat} (h : HeaderRead c header n) :
    ∃ buffer bodyReceived, trimRequest c =
        { c with request.buffer := buffer, request.bodyReceived := bodyReceived } ∧
      header <+: buffer ∧ (proxyRequestIsUpgrade header = false →
        buffer = (readFromClient c.wire).take (header.length + n)) := by
  have htake : c.request.buffer.take c.request.headerEnd = header := by
    rw [h.collecting.buffer, h.headerEnd, h.framed.take]
  have hwant : c.request.headerEnd + c.request.contentLength = header.length + n := by
    rw [h.headerEnd, h.contentLength]
  unfold trimRequest
  simp only [htake, hwant]
  by_cases hlong : proxyRequestIsUpgrade header = false ∧
      header.length + n < c.request.buffer.length
  · rw [if_pos hlong]
    refine ⟨c.request.buffer.take (header.length + n), _, rfl, ?_, fun _ => ?_⟩
    · rw [h.collecting.buffer]
      exact List.prefix_take_iff.mpr ⟨h.framed.inStream, Nat.le_add_right _ _⟩
    · rw [h.collecting.buffer]
  · rw [if_neg hlong]
    refine ⟨c.request.buffer, c.request.bodyReceived, rfl, ?_, fun hplain => ?_⟩
    · rw [h.collecting.buffer]
      exact h.framed.inStream
    · have hle : c.request.buffer.length ≤ header.length + n :=
        Nat.le_of_not_lt fun hlt => hlong ⟨hplain, hlt⟩
      rw [← h.collecting.buffer, List.take_of_length_le hle]

/-- What a trimmed buffer becomes when its header is rewritten. -/
theorem forwards_of_trimmed {stream header buffer sent : List UInt8} {n : Nat}
    (hframed : Framed stream header n) (hcomplete : header.length + n ≤ stream.length)
    (hplain : proxyRequestIsUpgrade header = false → buffer = stream.take (header.length + n))
    (hinject : proxyInjectForwardedHeaders setup header = some sent) :
    Forwards setup stream header n sent (sent ++ buffer.drop header.length) := by
  refine ⟨hframed, hinject, List.prefix_append _ _, fun hup => ⟨hcomplete, ?_⟩⟩
  rw [hplain hup, List.drop_take, Nat.add_sub_cancel_left]

/-- **A request that is complete is rewritten and sent.** -/
theorem processConnect_early {header : List UInt8} {n : Nat} (h : HeaderRead c header n)
    (hcomplete : header.length + n ≤ (readFromClient c.wire).length) :
    Early setup hung (processConnect setup c) := by
  obtain ⟨buffer, bodyReceived, htrim, hheader, hplain⟩ := trimRequest_spec h
  have htake : buffer.take c.request.headerEnd = header := by
    rw [h.headerEnd]
    exact (List.prefix_iff_eq_take.mp hheader).symm
  unfold processConnect
  simp only [htrim, htake]
  by_cases hconnects : (!c.answers.connects) = true
  · rw [if_pos hconnects]
    exact h.collecting.error rfl rfl
  rw [if_neg hconnects]
  cases hinject : proxyInjectForwardedHeaders setup header with
  | none => exact h.collecting.error rfl rfl
  | some sent =>
      simp only
      by_cases hgrow : c.request.bufferSize < (sent ++ buffer.drop c.request.headerEnd).length ∧
          (!c.answers.growsInjected) = true
      · rw [if_pos hgrow]
        exact h.collecting.error rfl rfl
      rw [if_neg hgrow]
      have hforwards := forwards_of_trimmed h.framed hcomplete hplain hinject
      rw [← h.headerEnd] at hforwards
      refine processSend_early ⟨⟨header, n, sent, hforwards, rfl⟩, ?_, ?_, h.collecting.response,
        rfl, h.collecting.quiet, h.collecting.nothing, h.collecting.silent⟩ rfl
      · show c.sendPos ≤ _
        rw [h.collecting.sendPos]
        exact Nat.zero_le _
      · show sentToBackend c.wire = List.take c.sendPos _
        rw [h.collecting.sendPos, h.collecting.backend, List.take_zero]

/-- How much of the body is there. -/
theorem HeaderRead.bodyLength {header : List UInt8} {n : Nat} (h : HeaderRead c header n) :
    header.length + (c.request.buffer.length - c.request.headerEnd) =
      (readFromClient c.wire).length := by
  have hle := h.framed.inStream.length_le
  rw [h.collecting.buffer, h.headerEnd]
  omega

/-- Nothing but the size of the buffer, and what is counted, has changed. -/
theorem HeaderRead.frame {header : List UInt8} {n : Nat} (h : HeaderRead c header n)
    (bufferSize bodyReceived : Nat) (state : ProxyState) : HeaderRead { c with
      request.bufferSize := bufferSize
      request.bodyReceived := bodyReceived
      state := state } header n :=
  ⟨⟨h.collecting.buffer, h.collecting.response, h.collecting.sendPos, h.collecting.backendHandle,
    h.collecting.quiet, h.collecting.backend, h.collecting.nothing, h.collecting.silent⟩,
    h.framed, h.headerEnd, h.contentLength⟩

/-- **Collecting the body keeps the invariant.** -/
theorem processClientBody_early {header : List UInt8} {n : Nat} (h : HeaderRead c header n)
    (hstate : c.state = .recvClientBody) : Early setup hung (processClientBody setup c) := by
  have hbody := h.bodyLength
  have hframe := h.frame c.request.bufferSize (c.request.buffer.length - c.request.headerEnd) c.state
  unfold processClientBody
  simp only
  by_cases hcomplete : c.request.contentLength ≤ c.request.buffer.length - c.request.headerEnd
  · rw [if_pos hcomplete]
    rw [h.contentLength] at hcomplete
    refine processConnect_early hframe ?_
    show header.length + n ≤ (readFromClient c.wire).length
    omega
  rw [if_neg hcomplete]
  by_cases hfull : c.request.bufferSize ≤ c.request.buffer.length
  · rw [if_pos hfull]
    exact hframe.collecting.refuse rfl rfl
  · rw [if_neg hfull]
    exact .body header n hframe hstate

/-- A request with a body: it may be complete already. -/
theorem startBody_early {header : List UInt8} {n : Nat} (h : HeaderRead { c with
      request.contentLength := n } header n) : Early setup hung (startBody setup n c) := by
  have hbody : header.length + (c.request.buffer.length - c.request.headerEnd) =
    (readFromClient c.wire).length := h.bodyLength
  unfold startBody
  simp only
  by_cases hgrow : c.request.bufferSize < min (c.request.headerEnd + n + 1) proxyMaxRequestSize ∧
      (!c.answers.growsRequest) = true
  · rw [if_pos hgrow]
    exact h.collecting.error rfl rfl
  rw [if_neg hgrow]
  by_cases hshort : c.request.buffer.length - c.request.headerEnd < n
  · rw [if_pos hshort]
    exact .body header n ⟨⟨h.collecting.buffer, h.collecting.response, h.collecting.sendPos,
      h.collecting.backendHandle, h.collecting.quiet, h.collecting.backend, h.collecting.nothing,
      h.collecting.silent⟩, h.framed, h.headerEnd, rfl⟩ rfl
  · rw [if_neg hshort]
    refine @processConnect_early setup hung _ header n ⟨⟨h.collecting.buffer, h.collecting.response,
      h.collecting.sendPos, h.collecting.backendHandle, h.collecting.quiet, h.collecting.backend,
      h.collecting.nothing, h.collecting.silent⟩, h.framed, h.headerEnd, rfl⟩ ?_
    show header.length + n ≤ (readFromClient c.wire).length
    omega

/-- **Only a header whose framing is certain gets through.** -/
theorem processClientHeader_early (h : Collecting c) (hstate : c.state = .recvClientHeader) :
    Early setup hung (processClientHeader setup c) := by
  unfold processClientHeader
  cases hfound : proxyFindHeaderEnd c.request.buffer with
  | none =>
      simp only
      split_ifs
      · exact h.refuse rfl rfl
      · exact .header h hstate
  | some e =>
      simp only
      by_cases hlong : proxyMaxHeaderSize < e
      · rw [if_pos hlong]
        exact h.refuse rfl rfl
      rw [if_neg hlong]
      by_cases hboth : (proxyParseContentLength (c.request.buffer.take e) ≠ .missing ∧
          proxyParseContentLength (c.request.buffer.take e) ≠ .invalid) ∧
          proxyCheckTransferEncoding (c.request.buffer.take e) ≠ .none
      · rw [if_pos hboth]
        exact h.refuse rfl rfl
      rw [if_neg hboth]
      by_cases hother : proxyCheckTransferEncoding (c.request.buffer.take e) = .other
      · rw [if_pos hother]
        exact h.refuse rfl rfl
      rw [if_neg hother]
      by_cases hinvalid : proxyParseContentLength (c.request.buffer.take e) = .invalid
      · rw [if_pos hinvalid]
        exact h.refuse rfl rfl
      rw [if_neg hinvalid]
      by_cases hchunked : proxyCheckTransferEncoding (c.request.buffer.take e) = .chunked
      · rw [if_pos hchunked]
        exact h.refuse rfl rfl
      rw [if_neg hchunked]
      -- what is left has no transfer encoding, and a length or none
      have hle := (proxyFindHeaderEnd_le hfound).2
      have hlen : (c.request.buffer.take e).length = e := List.length_take_of_le hle
      have hte : fieldLines transferEncodingFieldName (c.request.buffer.take e) = [] := by
        rw [← proxyCheckTransferEncoding_none_iff]
        cases hmode : proxyCheckTransferEncoding (c.request.buffer.take e) with
        | none => rfl
        | chunked => exact absurd hmode hchunked
        | other => exact absurd hmode hother
      have hframed : ∀ n, BodyLength (c.request.buffer.take e) n →
          Framed (readFromClient c.wire) (c.request.buffer.take e) n := by
        intro n hn
        rw [← h.buffer]
        exact ⟨by rw [hfound, hlen], List.take_prefix _ _, hte, hn⟩
      obtain ⟨hmissing, hlength⟩ := proxyParseContentLength_spec (c.request.buffer.take e)
      have hread : ∀ n, BodyLength (c.request.buffer.take e) n → ∀ bodyMode,
          HeaderRead { c with
            request.headerEnd := e
            request.bodyMode := bodyMode
            request.contentLength := n } (c.request.buffer.take e) n := by
        intro n hn bodyMode
        exact ⟨⟨h.buffer, h.response, h.sendPos, h.backendHandle, h.quiet, h.backend, h.nothing,
          h.silent⟩, hframed n hn, hlen.symm, rfl⟩
      have hzero : ∀ bodyMode, BodyLength (c.request.buffer.take e) 0 →
          Early setup hung (processConnect setup { c with
            request.headerEnd := e
            request.bodyMode := bodyMode
            request.contentLength := 0 }) := by
        intro bodyMode hn
        refine processConnect_early (hread 0 hn bodyMode) ?_
        show (c.request.buffer.take e).length + 0 ≤ (readFromClient c.wire).length
        rw [hlen, ← h.buffer]
        exact hle
      cases hparse : proxyParseContentLength (c.request.buffer.take e) with
      | invalid => exact absurd hparse hinvalid
      | missing => exact hzero _ (hmissing hparse)
      | length n =>
          cases n with
          | zero => exact hzero _ (hlength 0 hparse)
          | succ n => exact startBody_early (hread (n + 1) (hlength (n + 1) hparse) c.request.bodyMode)

/-- Reading from the client keeps the invariant. -/
theorem readClient_collecting (answers : List ClientRecv) (h : Collecting c) :
    Collecting (readClient answers c).1 ∧ (readClient answers c).1.state = c.state ∧
      ∃ data, readFromClient (readClient answers c).1.wire = readFromClient c.wire ++ data ∧
        (readClient answers c).1.request.headerEnd = c.request.headerEnd ∧
        (readClient answers c).1.request.contentLength = c.request.contentLength := by
  obtain ⟨w, data, heq, hw, hread⟩ := readClient_spec answers c
  have hothers : sentToBackend w = [] ∧ sentToClient w = [] ∧ readFromBackend w = [] := by
    clear heq hread
    induction w with
    | nil => exact ⟨rfl, rfl, rfl⟩
    | cons e w ih =>
        obtain ⟨d, rfl⟩ := hw e List.mem_cons_self
        exact ih fun x hx => hw x (List.mem_cons_of_mem _ hx)
  have hno : ∀ e, (∀ d, e ≠ WireEvent.fromClient d) → e ∉ w := by
    intro e he hm
    obtain ⟨d, hd⟩ := hw e hm
    exact he d hd
  have hclient : readFromClient (w ++ c.wire) = readFromClient c.wire ++ data := by
    rw [readFromClient_append, hread]
  rw [heq]
  refine ⟨⟨?_, h.response, h.sendPos, h.backendHandle, ⟨?_, ?_⟩, ?_, ?_, ?_⟩, rfl, data, hclient,
    rfl, rfl⟩
  · rw [hclient, h.buffer]
  · rw [List.mem_append, not_or]
    exact ⟨hno _ (by simp), h.quiet.tunnel⟩
  · rw [List.mem_append, not_or]
    exact ⟨hno _ (by simp), h.quiet.clientLost⟩
  · rw [sentToBackend_append, hothers.1, h.backend]
    rfl
  · rw [sentToClient_append, hothers.2.1, h.nothing]
    rfl
  · rw [readFromBackend_append, hothers.2.2, h.silent]
    rfl

end CWebUI.Proxy
