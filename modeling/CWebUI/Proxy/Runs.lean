import CWebUI.Proxy.Request

set_option autoImplicit false

/-! # Runs of the reverse proxy

Every handler keeps the invariant of the stage that the connection is in, so every run does.
From this the three laws of the proxy follow: the backend gets one request and nothing behind
it, a tunnel neither loses nor invents a byte, and the client gets the response as it came.
-/

namespace CWebUI.Proxy

open ByteString

variable {setup : ProxySetup} {hung : Prop} {c c' : ReverseProxyConnection}

/-! ## The handlers -/

theorem Early.not_streaming (h : Early setup hung c) : c.state ≠ .streaming := by
  intro hs
  cases h with
  | header h hstate => exact absurd (hstate.symm.trans hs) (by decide)
  | body header n h hstate => exact absurd (hstate.symm.trans hs) (by decide)
  | send h hstate => exact absurd (hstate.symm.trans hs) (by decide)
  | await header n sent h hsent ha hstate => exact absurd (hstate.symm.trans hs) (by decide)
  | ended h =>
      rcases h.closed.state with hstate | hstate
      · exact absurd (hstate.symm.trans hs) (by decide)
      · exact absurd (hstate.symm.trans hs) (by decide)

theorem Early.step (h : Early setup hung c') : Phase setup hung c' ∧
    (c'.state = .streaming → c'.sockets.bytesReceived = c.sockets.bytesReceived) :=
  ⟨.early h, fun hs => absurd hs h.not_streaming⟩

theorem UpgradeNext.not_streaming (h : UpgradeNext c c') : c'.state ≠ .streaming := by
  intro hs
  rcases h.outcome with ⟨hw, -⟩ | ⟨-, hw | hover⟩ | ⟨-, hw, -⟩
  · exact absurd (hw.symm.trans hs) (by decide)
  · exact absurd (hw.symm.trans hs) (by decide)
  · rcases hover.state with hw | hw
    · exact absurd (hw.symm.trans hs) (by decide)
    · exact absurd (hw.symm.trans hs) (by decide)
  · exact absurd (hw.symm.trans hs) (by decide)

/-- The client handler, while the request is being collected. -/
theorem clientHandler_header (h : Collecting c) (hstate : c.state = .recvClientHeader) :
    Early setup hung (reverseProxyClientHandler setup c) := by
  obtain ⟨hread, hsame, -⟩ := readClient_collecting c.answers.clientRecv h
  unfold reverseProxyClientHandler
  rw [hstate]
  simp only
  revert hread hsame
  rcases readClient c.answers.clientRecv c with ⟨c₁, alive⟩
  intro hread hsame
  have hstate₁ : c₁.state = .recvClientHeader := hsame.trans hstate
  cases alive with
  | false => exact hread.error rfl rfl
  | true =>
      simp only [proxyProcessState, hstate₁]
      exact processClientHeader_early hread hstate₁

theorem clientHandler_body {header : List UInt8} {n : Nat} (h : HeaderRead c header n)
    (hstate : c.state = .recvClientBody) :
    Early setup hung (reverseProxyClientHandler setup c) := by
  obtain ⟨hread, hsame, data, hdata, hend, hlength⟩ :=
    readClient_collecting c.answers.clientRecv h.collecting
  unfold reverseProxyClientHandler
  rw [hstate]
  simp only
  revert hread hsame hdata hend hlength
  rcases readClient c.answers.clientRecv c with ⟨c₁, alive⟩
  intro hread hsame hdata hend hlength
  have hstate₁ : c₁.state = .recvClientBody := hsame.trans hstate
  cases alive with
  | false => exact hread.error rfl rfl
  | true =>
      simp only [proxyProcessState, hstate₁]
      have hframed : Framed (readFromClient c₁.wire) header n := by
        rw [hdata]
        exact h.framed.append data
      exact processClientBody_early
        ⟨hread, hframed, hend.trans h.headerEnd, hlength.trans h.contentLength⟩ hstate₁

/-- **The client handler keeps the invariant.** In the streaming state it is only called when
the client has hung up. It never comes back to that state after it has read something. -/
theorem reverseProxyClientHandler_phase (h : Phase setup hung c)
    (hopen : c.sockets.clientHandle = true) (hstream : c.state = .streaming → hung) :
    Phase setup hung (reverseProxyClientHandler setup c) ∧
      ((reverseProxyClientHandler setup c).state = .streaming →
        (reverseProxyClientHandler setup c).sockets.bytesReceived = c.sockets.bytesReceived) := by
  cases h with
  | early h =>
      cases h with
      | header h hstate => exact (clientHandler_header h hstate).step
      | body header n h hstate => exact (clientHandler_body h hstate).step
      | send h hstate =>
          refine Early.step ?_
          simp only [reverseProxyClientHandler, hstate]
          exact enterDone_early h.safe h.quiet h.nothing (by rw [h.response]) (by rw [h.response])
      | await header n sent h hsent ha hstate =>
          refine Early.step ?_
          simp only [reverseProxyClientHandler, hstate]
          have hrequest : RequestDone setup c.wire := ⟨header, n, sent, _, h.forwards, hsent⟩
          exact enterDone_early hrequest.safe ha.quiet ha.nothing (by rw [ha.response])
            (by rw [ha.response])
      | ended h =>
          rw [h.closed.clientHandle] at hopen
          exact absurd hopen (by decide)
  | stream hrequest h hp =>
      obtain ⟨e, hp⟩ := hp
      rcases h.state with ⟨hstate, -, -⟩ | hstate
      · refine Early.step ?_
        simp only [reverseProxyClientHandler, hstate]
        exact .ended ⟨over_closeDown (.inr rfl) c, hrequest.safe, .passed e hp,
          fun hm => absurd hm h.quiet.tunnel, fun _ => .inl (hstream hstate)⟩
      · simp only [reverseProxyClientHandler, hstate]
        have hnext : PassNext c (processStreaming setup { c with
            sockets.clientEvents := .peerClose
            sockets.backendEvents := .read
            state := .streaming }) :=
          processStreaming_next ⟨rfl, rfl, rfl⟩ h.quiet hp rfl rfl
        exact ⟨hnext.phase hrequest, fun _ => hnext.request.bytes⟩
  | upgrade hrequest hq h hstate =>
      simp only [reverseProxyClientHandler, hstate]
      have hnext : UpgradeNext c (processStreaming setup { c with
          sockets.clientEvents := .peerClose
          sockets.backendEvents := .read
          state := .streaming }) :=
        @UpgradeNext.after c _ _ (processStreaming_upgrade hq h) List.suffix_rfl
      exact ⟨hnext.phase hrequest, fun hs => absurd hs hnext.not_streaming⟩
  | tunnel hrequest h hstate =>
      simp only [reverseProxyClientHandler, hstate]
      have hnext : UpgradeNext c (tunnelClient setup c) := (tunnelClient_next h hstate).upgrade
      exact ⟨hnext.phase hrequest, fun hs => absurd hs hnext.not_streaming⟩

/-- The backend handler, while the header of the response is awaited. -/
theorem readBackendHeader_phase {header sent : List UInt8} {n : Nat}
    (h : Forwarding setup c header n sent) (hsent : sentToBackend c.wire = c.request.buffer)
    (ha : Awaiting c) (hstate : c.state = .recvBackendHeader) :
    Phase setup hung (readBackendHeader setup c) := by
  have hrequest : RequestDone setup c.wire := ⟨header, n, sent, _, h.forwards, hsent⟩
  have herror : Early setup hung (enterError setup c) :=
    (enterError_refused setup ha.quiet ha.nothing (by rw [ha.response])
      (by rw [ha.response])).early hrequest.safe
  unfold readBackendHeader
  by_cases hfull : c.response.bufferSize ≤ c.response.buffer.length
  · rw [if_pos hfull]
    exact .early herror
  rw [if_neg hfull]
  cases c.answers.backendRecv with
  | again => exact .early (.await header n sent h hsent ha hstate)
  | failed => exact .early herror
  | closed =>
      refine .early (Refused.early (enterError_refused setup
        (ha.quiet.cons (by simp) (by simp)) ha.nothing ?_ ?_) hrequest.safe)
      · rw [ha.response]
      · rw [ha.response]
  | data first more =>
      simp only
      set data := (first :: more).take (c.response.bufferSize - c.response.buffer.length) with hdata
      have hbuffer : c.response.buffer = readFromBackend c.wire := by rw [ha.response]
      have hsize : c.response.bufferSize = proxyBufferSize := by rw [ha.response]
      have ha' : Awaiting { c with
          response.buffer := c.response.buffer ++ data
          wire := .fromBackend data :: c.wire } := by
        refine ⟨?_, ?_, ha.sendPos, ha.clientEvents, ha.quiet.cons (by simp) (by simp), ha.nothing⟩
        · rw [hbuffer, ha.response]
          rfl
        · show (readFromBackend c.wire ++ data).length ≤ proxyBufferSize
          have hlen : data.length ≤ c.response.bufferSize - c.response.buffer.length :=
            List.length_take_le _ _
          have hle := ha.size
          rw [hbuffer, hsize] at hlen
          rw [List.length_append]
          omega
      rcases processBackendHeader_next ha' with heq | hnext | ⟨hup, hnext⟩
      · rw [heq]
        exact .early (.await header n sent ⟨h.forwards, h.headerEnd⟩ hsent ha' hstate)
      · exact hnext.phase hrequest
      · refine hnext.phase ⟨readFromClient c.wire, header, n, sent, c.request.buffer,
          List.prefix_rfl, h.forwards, ?_⟩
        -- the request that the backend has accepted as an upgrade was one
        have htake : c.request.buffer.take c.request.headerEnd = sent := by
          rw [h.headerEnd]
          exact (List.prefix_iff_eq_take.mp h.forwards.inOut).symm
        have hup' : proxyRequestIsUpgrade (c.request.buffer.take c.request.headerEnd) = true := hup
        rw [htake] at hup'
        exact proxyInjectForwardedHeaders_upgrade h.forwards.framed.ending h.forwards.injected hup'

/-- **The backend handler keeps the invariant.** -/
theorem reverseProxyBackendHandler_phase (h : Phase setup hung c)
    (hopen : c.sockets.backendHandle = true) (hevents : c.sockets.backendEvents ≠ .none) :
    Phase setup hung (reverseProxyBackendHandler setup c) := by
  cases h with
  | early h =>
      cases h with
      | header h hstate =>
          rw [h.backendHandle] at hopen
          exact absurd hopen (by decide)
      | body header n h hstate =>
          rw [h.collecting.backendHandle] at hopen
          exact absurd hopen (by decide)
      | send h hstate =>
          simp only [reverseProxyBackendHandler, hstate]
          exact .early (processSend_early h hstate)
      | await header n sent h hsent ha hstate =>
          simp only [reverseProxyBackendHandler, hstate]
          exact readBackendHeader_phase h hsent ha hstate
      | ended h => exact absurd h.closed.backendEvents hevents
  | stream hrequest h hp =>
      obtain ⟨e, hp⟩ := hp
      rcases h.state with ⟨hstate, hev, hs⟩ | hstate
      · simp only [reverseProxyBackendHandler, hstate]
        exact (streamBackend_next h.quiet hp hstate hev hs).phase hrequest
      · simp only [reverseProxyBackendHandler, hstate, proxyProcessState]
        exact .stream hrequest h ⟨e, hp⟩
  | upgrade hrequest hq h hstate =>
      simp only [reverseProxyBackendHandler, hstate, proxyProcessState]
      exact .upgrade hrequest hq h hstate
  | tunnel hrequest h hstate =>
      simp only [reverseProxyBackendHandler, hstate]
      exact ((tunnelBackend_next h hstate).upgrade).phase hrequest

/-! ## The loop -/

/-- The invariants do not depend on the answers to come. -/
theorem Phase.answers (h : Phase setup hung c) (answers : Answers) :
    Phase setup hung { c with answers := answers } := by
  cases h with
  | early h =>
      cases h with
      | header h hstate => exact .early (.header { h with } hstate)
      | body header n h hstate =>
          exact .early (.body header n { h with collecting := { h.collecting with } } hstate)
      | send h hstate =>
          obtain ⟨header, n, sent, hf⟩ := h.forwarding
          exact .early (.send { h with forwarding := ⟨header, n, sent, { hf with }⟩ } hstate)
      | await header n sent h hsent ha hstate =>
          exact .early (.await header n sent { h with } hsent { ha with } hstate)
      | ended h =>
          refine .early (.ended ⟨{ h.closed with }, h.request, ?_, fun hm => ?_, fun hd => ?_⟩)
          · cases h.response with
            | lost hl => exact .lost hl
            | upgraded hu => exact .upgraded hu
            | page hpage hsent => exact .page hpage hsent
            | passed e hp => exact .passed e hp
          · exact { h.tunnel hm with }
          · rcases h.done hd with hhung | hr
            · exact .inl hhung
            · exact .inr { hr with }
  | stream hrequest h hp => exact .stream hrequest { h with } hp
  | upgrade hrequest hq h hstate => exact .upgrade hrequest hq h hstate
  | tunnel hrequest h hstate => exact .tunnel hrequest { h with } hstate

/-- **All calls of one event keep the invariant.** -/
theorem runExternHandler_phase (calls : List Answers) (h : Phase setup hung c)
    (hstream : c.state = .streaming → hung) : Phase setup hung (runExternHandler setup calls c) := by
  induction calls generalizing c with
  | nil => exact h
  | cons answers calls ih =>
      rw [runExternHandler]
      by_cases hopen : c.sockets.clientHandle = true
      · rw [if_pos hopen]
        simp only
        obtain ⟨hnext, hbytes⟩ := reverseProxyClientHandler_phase (h.answers answers) hopen hstream
        split_ifs with hstop
        · exact hnext
        · refine ih hnext fun hs => ?_
          rw [not_or, not_or] at hstop
          exact absurd (hbytes hs) hstop.2.2
      · rw [if_neg hopen]
        exact h

/-- **The connection is taken over in the stage that its first bytes put it in.** -/
theorem takeOver_phase (buffer : List UInt8) (answers : Answers) (calls : List Answers) :
    Phase setup hung (takeOver setup buffer answers calls) := by
  have hstart : Collecting { request := { buffer := buffer }, wire := [.fromClient buffer], answers := answers } := by
    refine ⟨?_, rfl, rfl, rfl, ⟨by simp, by simp⟩, rfl, rfl, rfl⟩
    simp [readFromClient]
  have hfirst : Early setup hung (processClientHeader setup
    { request := { buffer := buffer }, wire := [.fromClient buffer], answers := answers }) :=
    processClientHeader_early hstart rfl
  unfold takeOver
  simp only
  revert hfirst
  generalize processClientHeader setup { request := { buffer := buffer }, wire := [.fromClient buffer], answers := answers } = c
  intro hfirst
  have hwatched : Early setup hung (if c.sockets.closeSocket = true then c
      else if c.state = .recvClientHeader ∨ c.state = .recvClientBody then
        { c with sockets.clientEvents := .read }
      else c) := by
    split_ifs with hclose hcollect
    · exact hfirst
    · cases hfirst with
      | header h hstate => exact .header { h with } hstate
      | body header n h hstate =>
          exact .body header n { h with collecting := { h.collecting with } } hstate
      | send h hstate =>
          rw [hstate] at hcollect
          exact absurd hcollect (by decide)
      | await header n sent h hsent ha hstate =>
          rw [hstate] at hcollect
          exact absurd hcollect (by decide)
      | ended h =>
          rcases h.closed.state with hstate | hstate
          · rw [hstate] at hcollect
            exact absurd hcollect (by decide)
          · rw [hstate] at hcollect
            exact absurd hcollect (by decide)
    · exact hfirst
  exact runExternHandler_phase calls (.early hwatched) fun hs => absurd hs hwatched.not_streaming

/-- The client has hung up in one of the events. -/
def HungUp (events : List Event) : Prop := ∃ calls, Event.client .hangup calls ∈ events

theorem Phase.mono {hung' : Prop} (h : Phase setup hung c) (himp : hung → hung') :
    Phase setup hung' c := by
  cases h with
  | early h =>
      cases h with
      | header h hstate => exact .early (.header h hstate)
      | body header n h hstate => exact .early (.body header n h hstate)
      | send h hstate => exact .early (.send h hstate)
      | await header n sent h hsent ha hstate => exact .early (.await header n sent h hsent ha hstate)
      | ended h =>
          exact .early (.ended ⟨h.closed, h.request, h.response, h.tunnel,
            fun hd => (h.done hd).imp_left himp⟩)
  | stream hrequest h hp => exact .stream hrequest h hp
  | upgrade hrequest hq h hstate => exact .upgrade hrequest hq h hstate
  | tunnel hrequest h hstate => exact .tunnel hrequest h hstate

/-- In the streaming state only the end of the client connection is reported. -/
theorem Phase.streaming_events (h : Phase setup hung c) (hs : c.state = .streaming) :
    c.sockets.clientEvents = .peerClose := by
  cases h with
  | early h => exact absurd hs h.not_streaming
  | stream hrequest h hp =>
      rcases h.state with ⟨-, hev, -⟩ | hstate
      · exact hev
      · exact absurd (hstate.symm.trans hs) (by decide)
  | upgrade hrequest hq h hstate => exact absurd (hstate.symm.trans hs) (by decide)
  | tunnel hrequest h hstate => exact absurd (hstate.symm.trans hs) (by decide)

/-- **Every run keeps the invariant.** -/
theorem Run.phase {events : List Event} (h : Run setup events c) :
    Phase setup (HungUp events) c := by
  induction h with
  | start buffer answers calls hbuffer => exact takeOver_phase buffer answers calls
  | @step events c e h he ih =>
      have hmono : Phase setup (HungUp (e :: events)) c :=
        ih.mono fun ⟨calls, hm⟩ => ⟨calls, List.mem_cons_of_mem _ hm⟩
      cases e with
      | client kind calls =>
          obtain ⟨-, hreport⟩ := he
          refine runExternHandler_phase calls hmono fun hs => ?_
          rw [hmono.streaming_events hs] at hreport
          cases kind with
          | readable => exact absurd hreport (by decide)
          | writable => exact absurd hreport (by decide)
          | hangup => exact ⟨calls, List.mem_cons_self⟩
      | backend kind answers =>
          obtain ⟨hopen, hreport⟩ := he
          refine reverseProxyBackendHandler_phase (hmono.answers answers) hopen fun hnone => ?_
          have hnone' : c.sockets.backendEvents = .none := hnone
          rw [hnone'] at hreport
          exact absurd hreport (by simp [Events.reports])

/-! ## The request -/

theorem Phase.requestSafe (h : Phase setup hung c) : RequestSafe setup c.wire := by
  cases h with
  | early h =>
      cases h with
      | header h hstate => exact h.safe
      | body header n h hstate => exact h.collecting.safe
      | send h hstate => exact h.safe
      | await header n sent h hsent ha hstate =>
          have hrequest : RequestDone setup c.wire := ⟨header, n, sent, _, h.forwards, hsent⟩
          exact hrequest.safe
      | ended h => exact h.request
  | stream hrequest h hp => exact hrequest.safe
  | upgrade hrequest hq h hstate => exact hrequest.safe
  | tunnel hrequest h hstate => exact hrequest.safe

/-- **The backend gets one request and nothing behind it.** Whenever anything was sent to the
backend, the client's stream begins with a header that has no transfer encoding and says at
most once, and clearly, how long the body is. Unless it is an upgrade, what was sent is the
rewritten header with that many bytes behind it, or a part of this; when the backend answers,
it is all of it. -/
theorem proxy_request_framing {events : List Event} (h : Run setup events c)
    (hsent : sentToBackend c.wire ≠ []) :
    ∃ header n sent, proxyFindHeaderEnd (readFromClient c.wire) = some header.length ∧
      header <+: readFromClient c.wire ∧ fieldLines transferEncodingFieldName header = [] ∧
      BodyLength header n ∧ Injected setup header sent ∧
      (proxyRequestIsUpgrade header = false →
        header.length + n ≤ (readFromClient c.wire).length ∧
        sentToBackend c.wire <+: sent ++ ((readFromClient c.wire).drop header.length).take n ∧
        (readFromBackend c.wire ≠ [] → sentToBackend c.wire =
          sent ++ ((readFromClient c.wire).drop header.length).take n)) := by
  rcases h.phase.requestSafe with hnone | ⟨stream, header, n, sent, out, hstream, hf, hplain⟩
  · exact absurd hnone hsent
  · obtain ⟨more, hmore⟩ := hstream
    have hframed : Framed (readFromClient c.wire) header n := by
      rw [← hmore]
      exact hf.framed.append more
    refine ⟨header, n, sent, hframed.found, hframed.inStream, hframed.te, hframed.length,
      proxyInjectForwardedHeaders_spec hf.injected, fun hup => ?_⟩
    obtain ⟨hall, hout, hanswer⟩ := hplain hup
    obtain ⟨hlen, heq⟩ := hf.plain hup
    rw [hall] at hlen heq
    rw [heq] at hout hanswer
    exact ⟨hlen, hout, hanswer⟩

/-- A client on the machine itself. -/
def localSetup : ProxySetup :=
  { backendPath := ascii "/run/app.sock", clientIpStr := ascii "::1", useSsl := false, clientIpStr_line := by decide +kernel }

/-- Answers of sockets that take and give nothing more. -/
def idleAnswers : Answers :=
  { clientRecv := [], clientSend := [], backendRecv := .again, backendSend := [], sslPending := false, connects := true, soError := false, growsRequest := true, growsInjected := true, growsResponse := true }

/-- A connection that has sent a request with a body of two bytes; the client has sent the
beginning of another behind it. -/
def pipelinedConnection : ReverseProxyConnection :=
  takeOver localSetup (ascii "POST / HTTP/1.1\r\nContent-Length: 2\r\n\r\nabGET /x")
    { idleAnswers with backendSend := [.taken 999] } []

theorem proxy_request_framing_pipelined : sentToBackend pipelinedConnection.wire ≠ [] ∧
    ∃ header n sent,
      proxyFindHeaderEnd (readFromClient pipelinedConnection.wire) = some header.length ∧
      BodyLength header n ∧ Injected localSetup header sent := by
  have hsent : sentToBackend pipelinedConnection.wire ≠ [] := by decide +kernel
  have hrun : Run localSetup [] pipelinedConnection := .start _ _ _ (by decide +kernel)
  obtain ⟨header, n, sent, hfound, -, -, hlen, hinj, -⟩ := proxy_request_framing hrun hsent
  exact ⟨hsent, header, n, sent, hfound, hlen, hinj⟩

/-! ## The tunnel -/

/-- Every event of a record that holds the beginning of a tunnel. -/
theorem TunnelTrace.at {v w : List WireEvent} {e : WireEvent} (h : TunnelTrace (v ++ e :: w)) :
    (WireEvent.tunnel ∈ w → Allowed w e) ∧ (WireEvent.tunnel ∈ e :: w → InOrder (e :: w)) := by
  induction v with
  | nil => exact h.2
  | cons x v ih => exact ih h.1

theorem Phase.tunnelled (h : Phase setup hung c) (ht : WireEvent.tunnel ∈ c.wire) :
    Tunnelled c := by
  cases h with
  | early h =>
      cases h with
      | header h hstate => exact absurd ht h.quiet.tunnel
      | body header n h hstate => exact absurd ht h.collecting.quiet.tunnel
      | send h hstate => exact absurd ht h.quiet.tunnel
      | await header n sent h hsent ha hstate => exact absurd ht ha.quiet.tunnel
      | ended h => exact h.tunnel ht
  | stream hrequest h hp => exact absurd ht h.quiet.tunnel
  | upgrade hrequest hq h hstate => exact absurd ht hq.tunnel
  | tunnel hrequest h hstate => exact h

/-- **A tunnel loses and invents nothing.** In every state of a run in which a tunnel has
begun, what was read in a direction is what was sent in it followed by the backlog, and the
backlog lies in the buffer. Towards the client this counts from the first byte that the backend
has sent, so it includes the response header and what came with it. After every single event
the bytes are in order, and data was read only when the backlog of its direction was empty. -/
theorem proxy_tunnel_conserves {events : List Event} (h : Run setup events c)
    (ht : WireEvent.tunnel ∈ c.wire) :
    readFromClient (sinceTunnel c.wire) = sentToBackend (sinceTunnel c.wire) ++ pendingC2b c ∧
      readFromBackend c.wire = sentToClient c.wire ++ pendingB2c c ∧
      c.tunnel.c2bSent ≤ c.tunnel.c2bLen ∧ c.tunnel.c2bLen ≤ c.request.bufferSize ∧
      c.tunnel.b2cSent ≤ c.tunnel.b2cLen ∧ c.tunnel.b2cLen ≤ c.response.bufferSize ∧
      ∀ v e w, c.wire = v ++ e :: w →
        (WireEvent.tunnel ∈ e :: w → InOrder (e :: w)) ∧ (WireEvent.tunnel ∈ w → Allowed w e) := by
  have htunnel := h.phase.tunnelled ht
  refine ⟨htunnel.c2b, htunnel.b2c, htunnel.c2bSent, htunnel.c2bSize, htunnel.b2cSent,
    htunnel.b2cSize, fun v e w hw => ?_⟩
  have htrace := htunnel.trace
  rw [hw] at htrace
  exact ⟨htrace.at.2, htrace.at.1⟩

/-- A client that asks for an upgrade. -/
def upgradeConnection : ReverseProxyConnection :=
  takeOver localSetup (ascii "GET / HTTP/1.1\r\nConnection: Upgrade\r\nUpgrade: websocket\r\n\r\n")
    { idleAnswers with backendSend := [.taken 999] } []

/-- The backend switches, and its first byte comes with the header. -/
def switchEvent : Event :=
  .backend .readable { idleAnswers with
    backendRecv := .data 72 (ascii "TTP/1.1 101 S\r\nUpgrade: websocket\r\n\r\nX")
    clientSend := [⟨.noMoreData, 999⟩] }

theorem proxy_tunnel_conserves_switch :
    WireEvent.tunnel ∈ (dispatch localSetup upgradeConnection switchEvent).wire ∧
      readFromBackend (dispatch localSetup upgradeConnection switchEvent).wire =
        sentToClient (dispatch localSetup upgradeConnection switchEvent).wire ++
          pendingB2c (dispatch localSetup upgradeConnection switchEvent) := by
  have hrun : Run localSetup [] upgradeConnection := .start _ _ _ (by decide +kernel)
  have henabled : switchEvent.Enabled upgradeConnection :=
    show upgradeConnection.sockets.backendHandle = true ∧
      upgradeConnection.sockets.backendEvents.reports .readable = true by decide +kernel
  have ht : WireEvent.tunnel ∈ (dispatch localSetup upgradeConnection switchEvent).wire := by
    decide +kernel
  exact ⟨ht, (proxy_tunnel_conserves (hrun.step henabled) ht).2.1⟩

/-! ## The response -/

/-- The client has got a beginning of the response, whose header was `e` bytes long. -/
def ResponsePrefix (w : List WireEvent) (e : Nat) : Prop :=
  proxyFindHeaderEnd (readFromBackend w) = some e ∧
    sentToClient w <+: passedHeader w e ++ (readFromBackend w).drop e

/-- What the client has got of a response, and what it means that the connection is done. -/
structure Delivered (hung : Prop) (c : ReverseProxyConnection) (e : Nat) : Prop where
  inOrder : ResponsePrefix c.wire e
  bodySent : c.response.bodySent = (sentToClient c.wire).length - (passedHeader c.wire e).length
  framing : (c.response.bodyMode, c.response.contentLength) = responseFraming
    (proxyGetStatusCode ((readFromBackend c.wire).take e))
    (proxyParseContentLength (passedHeader c.wire e))
    (proxyCheckTransferEncoding (passedHeader c.wire e))
  contentLength : c.state = .done → ¬ hung → c.response.bodyMode = .contentLength →
    c.response.contentLength ≤ c.response.bodySent
  chunked : c.state = .done → ¬ hung → c.response.bodyMode = .chunked →
    WireEvent.backendClosed ∈ c.wire ∨
      sentToClient c.wire = passedHeader c.wire e ++ (readFromBackend c.wire).drop e ∧
        (ChunkScanner.init.run ((readFromBackend c.wire).drop e)).chunkState = .done

theorem Passing.delivered {e : Nat} (h : Passing c.response c.sendPos c.wire e)
    (hdone : c.state = .done → hung ∨ DoneReason c) : Delivered hung c e := by
  have hreason : c.state = .done → ¬ hung → DoneReason c := fun hd hn => (hdone hd).resolve_left hn
  refine ⟨⟨h.found, _, h.total⟩, ?_, h.framing, fun hd hn => (hreason hd hn).contentLength,
    fun hd hn hm => ?_⟩
  · cases hs : c.response.headerSent with
    | false =>
        obtain ⟨hlen, hpos, -, hzero⟩ := h.unsent hs
        rw [hzero, hlen, ← h.headerEnd]
        omega
    | true =>
        rw [h.sent hs, ← h.headerEnd]
        omega
  · rcases (hreason hd hn).chunked hm with hclosed | ⟨hstate, hempty⟩
    · exact .inl hclosed
    · have htotal := h.total
      rw [hempty, List.append_nil] at htotal
      rw [h.chunk hm] at hstate
      exact .inr ⟨htotal, hstate⟩

/-- The client has got nothing. -/
theorem onlyPage_of_nil {w : List WireEvent} (h : sentToClient w = []) : OnlyPage w := by
  refine ⟨0, "", [], ?_⟩
  rw [h]
  exact List.nil_prefix

/-- **A response is passed on in order.** As long as no send to the client has failed, and the
backend has not switched protocols, the client has got nothing or a part of an error page of the
proxy, and no body byte is counted; or it has got a beginning of the response. -/
theorem proxy_response_delivered {events : List Event} (h : Run setup events c)
    (hlost : WireEvent.clientLost ∉ c.wire) (hplain : c.response.isUpgrade = false) :
    (OnlyPage c.wire ∧ c.response.bodySent = 0) ∨ ∃ e, Delivered (HungUp events) c e := by
  cases h.phase with
  | early he =>
      cases he with
      | header h hstate => exact .inl ⟨onlyPage_of_nil h.nothing, by rw [h.response]⟩
      | body header n h hstate =>
          exact .inl ⟨onlyPage_of_nil h.collecting.nothing, by rw [h.collecting.response]⟩
      | send h hstate => exact .inl ⟨onlyPage_of_nil h.nothing, by rw [h.response]⟩
      | await header n sent h hsent ha hstate =>
          exact .inl ⟨onlyPage_of_nil ha.nothing, by rw [ha.response]⟩
      | ended h =>
          cases h.response with
          | lost hl => exact absurd hl hlost
          | upgraded hu => exact absurd (hplain.symm.trans hu) (by decide)
          | page hpage hsent => exact .inl ⟨hpage, hsent⟩
          | passed e hp => exact .inr ⟨e, hp.delivered h.done⟩
  | stream hrequest h hp =>
      obtain ⟨e, hp⟩ := hp
      refine .inr ⟨e, hp.delivered fun hd => ?_⟩
      rcases h.state with ⟨hstate, -, -⟩ | hstate
      · exact absurd (hstate.symm.trans hd) (by decide)
      · exact absurd (hstate.symm.trans hd) (by decide)
  | upgrade hrequest hq h hstate => exact absurd (hplain.symm.trans h.upgrade) (by decide)
  | tunnel hrequest h hstate => exact absurd (hplain.symm.trans h.upgrade.1) (by decide)

/-- A connection that waits for a response. -/
def waitingConnection : ReverseProxyConnection :=
  takeOver localSetup (ascii "GET / HTTP/1.1\r\n\r\n") { idleAnswers with backendSend := [.taken 999] } []

theorem waiting_run : Run localSetup [] waitingConnection := .start _ _ _ (by decide +kernel)

theorem waiting_enabled (answers : Answers) :
    (Event.backend .readable answers).Enabled waitingConnection :=
  show waitingConnection.sockets.backendHandle = true ∧
    waitingConnection.sockets.backendEvents.reports .readable = true by decide +kernel

/-- A response of one byte. -/
def answerEvent : Event :=
  .backend .readable { idleAnswers with
    backendRecv := .data 72 (ascii "TTP/1.1 200 OK\r\nContent-Length: 1\r\n\r\nX")
    clientSend := [⟨.noMoreData, 999⟩, ⟨.noMoreData, 999⟩] }

theorem proxy_response_delivered_answer :
    (dispatch localSetup waitingConnection answerEvent).state = .done ∧
      ∃ e, Delivered (HungUp [answerEvent]) (dispatch localSetup waitingConnection answerEvent) e := by
  have hstep : (dispatch localSetup waitingConnection answerEvent).state = .done ∧
      WireEvent.clientLost ∉ (dispatch localSetup waitingConnection answerEvent).wire ∧
      (dispatch localSetup waitingConnection answerEvent).response.isUpgrade = false ∧
      (dispatch localSetup waitingConnection answerEvent).response.bodySent ≠ 0 := by
    decide +kernel
  obtain ⟨hdone, hlost, hplain, hsent⟩ := hstep
  refine ⟨hdone, ?_⟩
  have henabled : answerEvent.Enabled waitingConnection := waiting_enabled _
  rcases proxy_response_delivered (waiting_run.step henabled) hlost hplain with
    ⟨-, hzero⟩ | hdelivered
  · exact absurd hzero hsent
  · exact hdelivered

/-- A response whose length is no number. -/
def garbledEvent : Event :=
  .backend .readable { idleAnswers with
    backendRecv := .data 72 (ascii "TTP/1.1 200 OK\r\nContent-Length: x\r\n\r\n")
    clientSend := [⟨.noMoreData, 999⟩] }

/-- The client does not always get a beginning of the response: the proxy may answer with a
page of its own. -/
theorem proxy_response_page : ¬ ∀ (setup : ProxySetup) (events : List Event)
    (c : ReverseProxyConnection), Run setup events c → WireEvent.clientLost ∉ c.wire →
      sentToClient c.wire ≠ [] → ∃ e, ResponsePrefix c.wire e := by
  intro hall
  have hstep : WireEvent.clientLost ∉ (dispatch localSetup waitingConnection garbledEvent).wire ∧
      sentToClient (dispatch localSetup waitingConnection garbledEvent).wire ≠ [] ∧
      proxyFindHeaderEnd (readFromBackend
        (dispatch localSetup waitingConnection garbledEvent).wire) = some 38 ∧
      ¬ ResponsePrefix (dispatch localSetup waitingConnection garbledEvent).wire 38 := by
    unfold ResponsePrefix
    decide +kernel
  obtain ⟨hlost, hsent, h38, hno⟩ := hstep
  have henabled : garbledEvent.Enabled waitingConnection := waiting_enabled _
  obtain ⟨e, hbegin⟩ := hall _ _ _ (waiting_run.step henabled) hlost hsent
  have he : e = 38 := Option.some.inj (hbegin.1.symm.trans h38)
  rw [he] at hbegin
  exact hno hbegin

end CWebUI.Proxy
