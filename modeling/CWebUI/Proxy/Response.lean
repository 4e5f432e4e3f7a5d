import CWebUI.Proxy.Tunnel

set_option autoImplicit false

/-! # Passing a response on

The response buffer holds a window of the response: first the header, rewritten in place, with
whatever body bytes came with it, later one read after the other. The invariant (`Passing`)
says that what the client has got, followed by what is left in the buffer, is the rewritten
header followed by all that the backend has sent behind its own.
-/

namespace CWebUI.Proxy

open ByteString

/-! ## The invariant -/

/-- The header that the client gets for the first `e` bytes from the backend. -/
def passedHeader (w : List WireEvent) (e : Nat) : List UInt8 :=
  proxyInjectConnectionClose ((readFromBackend w).take e)

/-- A response is being passed on, whose header was `e` bytes long. -/
structure Passing (r : ProxyResponse) (sendPos : Nat) (w : List WireEvent) (e : Nat) : Prop where
  found : proxyFindHeaderEnd (readFromBackend w) = some e
  plain : r.isUpgrade = false
  headerEnd : r.headerEnd = (passedHeader w e).length
  inBuffer : sendPos ≤ r.buffer.length
  total : sentToClient w ++ r.buffer.drop sendPos = passedHeader w e ++ (readFromBackend w).drop e
  /-- Until the header has been sent, the buffer starts with it. -/
  unsent : r.headerSent = false → (sentToClient w).length = sendPos ∧ sendPos ≤ r.headerEnd ∧
    r.headerEnd ≤ r.buffer.length ∧ r.bodySent = 0
  sent : r.headerSent = true → (sentToClient w).length = r.headerEnd + r.bodySent
  framing : (r.bodyMode, r.contentLength) = responseFraming
    (proxyGetStatusCode ((readFromBackend w).take e)) (proxyParseContentLength (passedHeader w e))
    (proxyCheckTransferEncoding (passedHeader w e))
  /-- Every body byte has gone through the scanner. -/
  chunk : r.bodyMode = .chunked → r.chunk = ChunkScanner.init.run ((readFromBackend w).drop e)

/-- An accepted upgrade, whose header is being passed on as it came. -/
structure Upgrading (r : ProxyResponse) (sendPos : Nat) (w : List WireEvent) : Prop where
  upgrade : r.isUpgrade = true
  headerSent : r.headerSent = false
  bodyMode : r.bodyMode = .none
  inHeader : sendPos ≤ r.headerEnd
  headerEnd : r.headerEnd ≤ r.buffer.length
  size : r.buffer.length ≤ r.bufferSize
  total : readFromBackend w = sentToClient w ++ r.buffer.drop sendPos

/-- Nothing has gone wrong towards the client, and there is no tunnel. -/
structure Quiet (w : List WireEvent) : Prop where
  tunnel : WireEvent.tunnel ∉ w
  clientLost : WireEvent.clientLost ∉ w

/-- Why a connection is done, while the client is there. -/
structure DoneReason (c : ReverseProxyConnection) : Prop where
  contentLength : c.response.bodyMode = .contentLength →
    c.response.contentLength ≤ c.response.bodySent
  chunked : c.response.bodyMode = .chunked → WireEvent.backendClosed ∈ c.wire ∨
    c.response.chunk.chunkState = .done ∧ c.response.buffer.drop c.sendPos = []

/-- The client has got nothing, or a part of an error page. -/
def OnlyPage (w : List WireEvent) : Prop :=
  ∃ code reason detail, sentToClient w <+: errorPage code reason detail

/-- What holds of a response at the end of a connection. -/
inductive ResponseSafe (c : ReverseProxyConnection) : Prop where
  /-- A send to the client has failed. -/
  | lost (h : WireEvent.clientLost ∈ c.wire)
  /-- The response was an upgrade. -/
  | upgraded (h : c.response.isUpgrade = true)
  /-- No response was passed on. -/
  | page (h : OnlyPage c.wire) (hsent : c.response.bodySent = 0)
  | passed (e : Nat) (h : Passing c.response c.sendPos c.wire e)

/-- The connection is over. -/
structure Over (c : ReverseProxyConnection) : Prop where
  state : c.state = .error ∨ c.state = .done
  clientHandle : c.sockets.clientHandle = false
  backendEvents : c.sockets.backendEvents = .none

theorem over_closeDown {state : ProxyState} (h : state = .error ∨ state = .done)
    (c : ReverseProxyConnection) : Over (closeDown { c with state := state }) := ⟨h, rfl, rfl⟩

theorem over_shutDown {state : ProxyState} (h : state = .error ∨ state = .done)
    (headerSent : Bool) (w : List WireEvent) (rest : List ClientSend)
    (c : ReverseProxyConnection) : Over (shutDown state headerSent w rest c) := ⟨h, rfl, rfl⟩

/-! ## Sending a part -/

/-- Counted bytes that have been sent keep the invariant. -/
theorem Passing.count {r : ProxyResponse} {sendPos e k : Nat} {w v : List WireEvent}
    (h : Passing r sendPos w e) (hv : OnlyClient v)
    (hsent : sentToClient v = (r.buffer.drop sendPos).take k)
    (hk : sendPos + k ≤ if r.headerSent then r.buffer.length else r.headerEnd) :
    Passing { r with bodySent := if r.headerSent then r.bodySent + k else r.bodySent }
      (sendPos + k) (v ++ w) e := by
  obtain ⟨hv1, hv2, hv3⟩ := hv.others
  have hback : readFromBackend (v ++ w) = readFromBackend w := by
    rw [readFromBackend_append, hv3, List.append_nil]
  have hheader : passedHeader (v ++ w) e = passedHeader w e := by rw [passedHeader, hback]; rfl
  have hle : sendPos + k ≤ r.buffer.length := by
    cases hs : r.headerSent with
    | true =>
        rw [hs] at hk
        exact hk
    | false =>
        rw [hs] at hk
        exact Nat.le_trans hk (h.unsent hs).2.2.1
  have hlen : (sentToClient (v ++ w)).length = (sentToClient w).length + k := by
    rw [sentToClient_append, hsent, List.length_append, List.length_take, List.length_drop]
    omega
  refine ⟨?_, h.plain, ?_, hle, ?_, fun hs => ?_, fun hs => ?_, ?_, fun hm => ?_⟩
  · rw [hback]
    exact h.found
  · rw [hheader]
    exact h.headerEnd
  · rw [hheader, hback, ← h.total, sentToClient_append, hsent, List.append_assoc,
      ← List.drop_drop, List.take_append_drop]
  · have hs' : r.headerSent = false := hs
    obtain ⟨h1, h2, h3, h4⟩ := h.unsent hs'
    rw [hs'] at hk
    refine ⟨by rw [hlen, h1], hk, h3, ?_⟩
    rw [hs']
    exact h4
  · have hs' : r.headerSent = true := hs
    rw [hlen, h.sent hs', hs']
    exact Nat.add_assoc _ _ _
  · rw [hheader, hback]
    exact h.framing
  · rw [hback]
    exact h.chunk hm

/-- The header has been sent in full. -/
theorem Passing.header {r : ProxyResponse} {w : List WireEvent} {e : Nat}
    (h : Passing r r.headerEnd w e) (hs : r.headerSent = false) :
    Passing { r with headerSent := true } r.headerEnd w e := by
  obtain ⟨h1, -, -, h4⟩ := h.unsent hs
  refine ⟨h.found, h.plain, h.headerEnd, h.inBuffer, h.total, fun hs => absurd hs (by simp),
    fun _ => ?_, h.framing, h.chunk⟩
  rw [h1]
  exact (congrArg (r.headerEnd + ·) h4).symm

/-- The buffer has been sent in full, and is free. -/
theorem Passing.drained {r : ProxyResponse} {sendPos e : Nat} {w : List WireEvent}
    (h : Passing r sendPos w e) (hs : r.headerSent = true) (hpos : r.buffer.length ≤ sendPos) :
    Passing { r with buffer := [] } 0 w e := by
  have htotal := h.total
  rw [List.drop_eq_nil_of_le hpos, List.append_nil] at htotal
  refine ⟨h.found, h.plain, h.headerEnd, Nat.le_refl _, ?_, fun hf => ?_, h.sent, h.framing,
    h.chunk⟩
  · simpa using htotal
  · rw [show r.headerSent = false from hf] at hs
    exact absurd hs (by decide)

/-- More of the body has come. -/
theorem Passing.more {r : ProxyResponse} {e : Nat} {w : List WireEvent} (h : Passing r 0 w e)
    (hs : r.headerSent = true) (hempty : r.buffer = []) (data : List UInt8) :
    Passing { r with
      buffer := data
      chunk := if r.bodyMode = .chunked then (proxyChunkedScan r.chunk data).1 else r.chunk }
      0 (.fromBackend data :: w) e := by
  have hle := (proxyFindHeaderEnd_le h.found).2
  have hback : readFromBackend (.fromBackend data :: w) = readFromBackend w ++ data := rfl
  have htake : (readFromBackend (.fromBackend data :: w)).take e = (readFromBackend w).take e := by
    rw [hback, List.take_append_of_le_length hle]
  have hdrop : (readFromBackend (.fromBackend data :: w)).drop e =
      (readFromBackend w).drop e ++ data := by
    rw [hback, List.drop_append_of_le_length hle]
  have hheader : passedHeader (.fromBackend data :: w) e = passedHeader w e := by
    rw [passedHeader, htake]
    rfl
  refine ⟨proxyFindHeaderEnd_append h.found data, h.plain, ?_, Nat.zero_le _, ?_, fun hf => ?_,
    h.sent, ?_, fun hm => ?_⟩
  · rw [hheader]
    exact h.headerEnd
  · have htotal := h.total
    rw [hempty, List.drop_nil, List.append_nil] at htotal
    rw [hheader, hdrop, ← List.append_assoc, ← htotal]
    rfl
  · rw [show r.headerSent = false from hf] at hs
    exact absurd hs (by decide)
  · rw [hheader, htake]
    exact h.framing
  · have hm' : r.bodyMode = .chunked := hm
    rw [hdrop, ChunkScanner.run_append, ← h.chunk hm', if_pos hm', proxyChunkedScan_eq]

/-! ## The states of streaming -/

/-- A connection that passes a response on, between two events. -/
structure Streaming (c : ReverseProxyConnection) : Prop where
  state : c.state = .streaming ∧ c.sockets.clientEvents = .peerClose ∧ c.response.headerSent = true ∨
    c.state = .streamingWaitWrite
  quiet : Quiet c.wire

/-- The request side of `c'` is that of `c`. -/
structure SameRequest (c c' : ReverseProxyConnection) : Prop where
  client : readFromClient c'.wire = readFromClient c.wire
  backend : sentToBackend c'.wire = sentToBackend c.wire
  bytes : c'.sockets.bytesReceived = c.sockets.bytesReceived

/-- What can become of a response that is being passed on: it goes on, or the connection is
over. -/
structure PassNext (c c' : ReverseProxyConnection) : Prop where
  request : SameRequest c c'
  tunnel : WireEvent.tunnel ∉ c'.wire
  outcome : (Streaming c' ∧ ∃ e, Passing c'.response c'.sendPos c'.wire e) ∨
    (Over c' ∧ ResponseSafe c' ∧ (c'.state = .done → DoneReason c'))

theorem SameRequest.trans {c c' c'' : ReverseProxyConnection} (h : SameRequest c c')
    (h' : SameRequest c' c'') : SameRequest c c'' :=
  ⟨h'.client.trans h.client, h'.backend.trans h.backend, h'.bytes.trans h.bytes⟩

/-- Events towards the client leave the request side alone. -/
theorem SameRequest.onlyClient {c c' : ReverseProxyConnection} {v : List WireEvent}
    (hv : OnlyClient v) (hwire : c'.wire = v ++ c.wire)
    (hbytes : c'.sockets.bytesReceived = c.sockets.bytesReceived) : SameRequest c c' := by
  obtain ⟨h1, h2, -⟩ := hv.others
  refine ⟨?_, ?_, hbytes⟩
  · rw [hwire, readFromClient_append, h1, List.append_nil]
  · rw [hwire, sentToBackend_append, h2, List.append_nil]

theorem PassNext.after {c c' c'' : ReverseProxyConnection} (h : PassNext c' c'')
    (hc : SameRequest c c') : PassNext c c'' :=
  ⟨hc.trans h.request, h.tunnel, h.outcome⟩

theorem Quiet.append {v w : List WireEvent} (h : Quiet w) (hv : OnlyClient v)
    (hlost : WireEvent.clientLost ∉ v) : Quiet (v ++ w) := by
  constructor
  · rw [List.mem_append, not_or]
    exact ⟨hv.not_tunnel, h.tunnel⟩
  · rw [List.mem_append, not_or]
    exact ⟨hlost, h.clientLost⟩

/-- Whatever an error adds to the record is for the client. -/
theorem enterError_wire (setup : ProxySetup) (c : ReverseProxyConnection) :
    ∃ w, OnlyClient w ∧ (enterError setup c).wire = w ++ c.wire ∧ Over (enterError setup c) ∧
      (enterError setup c).state = .error ∧
      (enterError setup c).sockets.bytesReceived = c.sockets.bytesReceived := by
  have hshut : ∃ page w, Shut page w .error c (enterError setup c) := by
    cases hs : c.response.headerSent with
    | false =>
        obtain ⟨w, hshut⟩ := enterError_shut_page setup hs
        exact ⟨_, w, hshut⟩
    | true => exact ⟨_, _, enterError_shut_sent setup hs⟩
  obtain ⟨page, w, headerSent, rest, heq, hw, -⟩ := hshut
  rw [heq]
  exact ⟨w, hw, rfl, over_shutDown (.inl rfl) _ _ _ _, rfl, rfl⟩

/-- The client is lost. -/
theorem passNext_lost (setup : ProxySetup) {c c' : ReverseProxyConnection} {v : List WireEvent}
    (hq : Quiet c.wire) (hv : OnlyClient v) (hlost : WireEvent.clientLost ∈ v)
    (hwire : c'.wire = v ++ c.wire) (hbytes : c'.sockets.bytesReceived = c.sockets.bytesReceived) :
    PassNext c (enterError setup c') := by
  obtain ⟨w, hw, heq, hover, hstate, hbytes'⟩ := enterError_wire setup c'
  rw [hwire, ← List.append_assoc] at heq
  refine ⟨SameRequest.onlyClient (hw.append hv) heq (hbytes'.trans hbytes), ?_,
    .inr ⟨hover, .lost ?_, fun hd => ?_⟩⟩
  · rw [heq, List.mem_append, not_or]
    exact ⟨(hw.append hv).not_tunnel, hq.tunnel⟩
  · rw [heq]
    simp [hlost]
  · rw [hstate] at hd
    exact absurd hd (by decide)

/-- The response has been passed on as far as the connection goes. -/
theorem passNext_done {c c' : ReverseProxyConnection} {e : Nat} (hreq : SameRequest c c')
    (hq : Quiet c'.wire) (hp : Passing c'.response c'.sendPos c'.wire e) (hr : DoneReason c') :
    PassNext c (enterDone c') :=
  ⟨⟨hreq.client, hreq.backend, hreq.bytes⟩, hq.tunnel, .inr ⟨over_closeDown (.inr rfl) c',
    .passed e hp, fun _ => ⟨hr.contentLength, hr.chunked⟩⟩⟩

/-- The backend side has failed behind the header. -/
theorem passNext_error (setup : ProxySetup) {c c' : ReverseProxyConnection} {e : Nat}
    (hreq : SameRequest c c') (hq : Quiet c'.wire)
    (hp : Passing c'.response c'.sendPos c'.wire e) (hs : c'.response.headerSent = true) :
    PassNext c (enterError setup c') := by
  have heq : enterError setup c' = closeDown { c' with state := .error } := by
    unfold enterError
    simp only [if_pos hs]
  rw [heq]
  exact ⟨⟨hreq.client, hreq.backend, hreq.bytes⟩, hq.tunnel, .inr ⟨over_closeDown (.inl rfl) c',
    .passed e hp, fun hd => absurd hd ProxyState.noConfusion⟩⟩

/-- The client takes no more for now. -/
theorem passNext_wait {c c' : ReverseProxyConnection} {e : Nat} (hreq : SameRequest c c')
    (hq : Quiet c'.wire) (hp : Passing c'.response c'.sendPos c'.wire e) :
    PassNext c (waitWrite c') :=
  ⟨⟨hreq.client, hreq.backend, hreq.bytes⟩, hq.tunnel, .inl ⟨⟨.inr rfl, hq⟩, e, hp⟩⟩

/-- The end of a stretch of the body. -/
theorem streamingDrained_next {c c' : ReverseProxyConnection} {e : Nat} (hreq : SameRequest c c')
    (hq : Quiet c'.wire) (hp : Passing c'.response c'.sendPos c'.wire e)
    (hs : c'.response.headerSent = true) (hpos : c'.response.buffer.length ≤ c'.sendPos)
    (hstate : c'.state = .streaming) (hev : c'.sockets.clientEvents = .peerClose) :
    PassNext c (streamingDrained c') := by
  have hdrained := hp.drained hs hpos
  have hreq' : SameRequest c { c' with response.buffer := [], sendPos := 0 } :=
    ⟨hreq.client, hreq.backend, hreq.bytes⟩
  unfold streamingDrained
  simp only
  split_ifs with hlength hup hchunk
  · exact absurd (hp.plain.symm.trans hup) (by decide)
  · refine passNext_done hreq' hq hdrained ⟨fun _ => hlength.2, fun hm => ?_⟩
    rw [show c'.response.bodyMode = .chunked from hm] at hlength
    exact absurd hlength.1 (by decide)
  · refine passNext_done hreq' hq hdrained ⟨fun hm => ?_, fun _ => .inr ⟨hchunk.2, rfl⟩⟩
    rw [show c'.response.bodyMode = .contentLength from hm] at hchunk
    exact absurd hchunk.1 (by decide)
  · exact ⟨hreq', hq.tunnel, .inl ⟨⟨.inl ⟨hstate, hev, hs⟩, hq⟩, e, hdrained⟩⟩

/-- **Sending the body.** -/
theorem streamBody_next {setup : ProxySetup} {c c' : ReverseProxyConnection} {e : Nat}
    (hreq : SameRequest c c') (hq : Quiet c'.wire)
    (hp : Passing c'.response c'.sendPos c'.wire e) (hs : c'.response.headerSent = true)
    (hstate : c'.state = .streaming) (hev : c'.sockets.clientEvents = .peerClose) :
    PassNext c (streamBody setup c') := by
  obtain ⟨k, v, rest, hv, hk, heq, hend⟩ := sendResponse_spec c'.response.buffer.length true
    c'.answers.clientSend c' hp.inBuffer
  unfold streamBody
  revert heq hend
  rcases sendResponse _ _ _ _ with ⟨c₁, result⟩
  intro heq hend
  have hc₁ : c₁ = { countSent true k c' with answers.clientSend := rest, wire := v ++ c'.wire } := heq
  have hreq₁ : SameRequest c' c₁ := SameRequest.onlyClient hv (by rw [hc₁]) (by rw [hc₁]; rfl)
  rcases hend with ⟨hlost, hsent, hres⟩ | ⟨hlost, hres⟩
  · have hcount := hp.count hv hsent (by rw [hs]; exact hk)
    have hp₁ : Passing c₁.response c₁.sendPos c₁.wire e := by
      rw [hc₁]
      simp only [if_pos hs] at hcount
      exact hcount
    have hq₁ : Quiet c₁.wire := by
      rw [hc₁]
      exact hq.append hv hlost
    rcases hres with hres | ⟨hres, hpos⟩
    · rw [show result = .wait from hres]
      exact passNext_wait (hreq.trans hreq₁) hq₁ hp₁
    · rw [show result = .sent from hres]
      refine streamingDrained_next (hreq.trans hreq₁) hq₁ hp₁ ?_ ?_ ?_ ?_
      · rw [hc₁]
        exact hs
      · rw [hc₁]
        exact Nat.le_of_eq hpos.symm
      · rw [hc₁]
        exact hstate
      · rw [hc₁]
        exact hev
  · rw [show result = .failed from hres]
    exact (passNext_lost setup hq hv hlost (by rw [hc₁]) (by rw [hc₁]; rfl)).after hreq

/-- **One pass of the streaming state keeps the response in order.** -/
theorem processStreaming_next {setup : ProxySetup} {c c' : ReverseProxyConnection} {e : Nat}
    (hreq : SameRequest c c') (hq : Quiet c'.wire)
    (hp : Passing c'.response c'.sendPos c'.wire e) (hstate : c'.state = .streaming)
    (hev : c'.sockets.clientEvents = .peerClose) : PassNext c (processStreaming setup c') := by
  unfold processStreaming
  by_cases hs : c'.response.headerSent = true
  · rw [if_pos hs]
    exact streamBody_next hreq hq hp hs hstate hev
  · have hs' : c'.response.headerSent = false := Bool.eq_false_iff.mpr hs
    rw [if_neg hs]
    obtain ⟨-, hinHeader, -, -⟩ := hp.unsent hs'
    obtain ⟨k, v, rest, hv, hk, heq, hend⟩ := sendResponse_spec c'.response.headerEnd false
      c'.answers.clientSend c' hinHeader
    revert heq hend
    rcases sendResponse _ _ _ _ with ⟨c₁, result⟩
    intro heq hend
    have hc₁ : c₁ = { countSent false k c' with answers.clientSend := rest, wire := v ++ c'.wire } :=
      heq
    have hreq₁ : SameRequest c' c₁ := SameRequest.onlyClient hv (by rw [hc₁]) (by rw [hc₁]; rfl)
    rcases hend with ⟨hlost, hsent, hres⟩ | ⟨hlost, hres⟩
    · have hcount := hp.count hv hsent (by rw [hs']; exact hk)
      have hp₁ : Passing c₁.response c₁.sendPos c₁.wire e := by
        rw [hc₁]
        simp only [if_neg hs] at hcount
        exact hcount
      have hq₁ : Quiet c₁.wire := by
        rw [hc₁]
        exact hq.append hv hlost
      have hs₁ : c₁.response.headerSent = false := by
        rw [hc₁]
        exact hs'
      rcases hres with hres | ⟨hres, hpos⟩
      · rw [show result = .wait from hres]
        exact passNext_wait (hreq.trans hreq₁) hq₁ hp₁
      · -- the header is out, and the body follows
        rw [show result = .sent from hres]
        have hend : c₁.sendPos = c₁.response.headerEnd := by
          rw [hc₁]
          exact hpos
        have hheader : Passing { c₁.response with headerSent := true } c₁.sendPos c₁.wire e := by
          rw [hend] at hp₁ ⊢
          exact hp₁.header hs₁
        have hplain : ¬ c₁.response.isUpgrade = true := by rw [hp₁.plain]; decide
        simp only [if_neg hplain]
        have hreq₂ : SameRequest c { c₁ with response.headerSent := true } := by
          have hreq₁ := hreq.trans hreq₁
          exact ⟨hreq₁.client, hreq₁.backend, hreq₁.bytes⟩
        refine streamBody_next hreq₂ hq₁ hheader rfl ?_ ?_
        · rw [hc₁]
          exact hstate
        · rw [hc₁]
          exact hev
    · rw [show result = .failed from hres]
      exact (passNext_lost setup hq hv hlost (by rw [hc₁]) (by rw [hc₁]; rfl)).after hreq

/-! ## The handlers -/

theorem SameRequest.refl (c : ReverseProxyConnection) : SameRequest c c := ⟨rfl, rfl, rfl⟩

/-- That the backend has closed is no byte. -/
theorem Passing.closed {r : ProxyResponse} {sendPos e : Nat} {w : List WireEvent}
    (h : Passing r sendPos w e) : Passing r sendPos (.backendClosed :: w) e :=
  ⟨h.found, h.plain, h.headerEnd, h.inBuffer, h.total, h.unsent, h.sent, h.framing, h.chunk⟩

theorem Quiet.cons {w : List WireEvent} {e : WireEvent} (h : Quiet w) (htunnel : e ≠ .tunnel)
    (hlost : e ≠ .clientLost) : Quiet (e :: w) := by
  constructor
  · rw [List.mem_cons, not_or]
    exact ⟨htunnel.symm, h.tunnel⟩
  · rw [List.mem_cons, not_or]
    exact ⟨hlost.symm, h.clientLost⟩

/-- The backend has closed: the response is complete, or the error shows. -/
theorem streamClosed_next {setup : ProxySetup} {c c' : ReverseProxyConnection} {e : Nat}
    (hreq : SameRequest c c') (hq : Quiet c'.wire)
    (hp : Passing c'.response c'.sendPos c'.wire e) (hs : c'.response.headerSent = true)
    (hclosed : WireEvent.backendClosed ∈ c'.wire) : PassNext c (streamClosed setup c') := by
  unfold streamClosed
  split_ifs with hchunk hend
  · refine passNext_done hreq hq hp ⟨fun hm => ?_, fun _ => .inl hclosed⟩
    rw [hm] at hchunk
    exact absurd hchunk.1 (by decide)
  · refine passNext_done hreq hq hp ⟨fun hm => ?_, fun _ => .inl hclosed⟩
    rcases hend with hclose | hle
    · rw [hm] at hclose
      exact absurd hclose (by decide)
    · exact hle
  · exact passNext_error setup hreq hq hp hs

/-- **The backend handler keeps the response in order.** -/
theorem streamBackend_next {setup : ProxySetup} {c : ReverseProxyConnection} {e : Nat}
    (hq : Quiet c.wire) (hp : Passing c.response c.sendPos c.wire e) (hstate : c.state = .streaming)
    (hev : c.sockets.clientEvents = .peerClose) (hs : c.response.headerSent = true) :
    PassNext c (streamBackend setup c) := by
  unfold streamBackend
  by_cases hpos : c.sendPos < c.response.buffer.length
  · rw [if_pos hpos]
    exact processStreaming_next (SameRequest.refl c) hq hp hstate hev
  rw [if_neg hpos]
  by_cases hlength : c.response.bodyMode = .contentLength ∧
      c.response.contentLength ≤ c.response.bodySent
  · rw [if_pos hlength]
    refine passNext_done (SameRequest.refl c) hq hp ⟨fun _ => hlength.2, fun hm => ?_⟩
    rw [hm] at hlength
    exact absurd hlength.1 (by decide)
  rw [if_neg hlength]
  have hdrained := hp.drained hs (Nat.le_of_not_lt hpos)
  simp only
  cases c.answers.backendRecv with
  | again => exact ⟨⟨rfl, rfl, rfl⟩, hq.tunnel, .inl ⟨⟨.inl ⟨hstate, hev, hs⟩, hq⟩, e, hdrained⟩⟩
  | failed =>
      have hreq : SameRequest c { c with response.buffer := [], sendPos := 0 } := ⟨rfl, rfl, rfl⟩
      exact passNext_error setup hreq hq hdrained hs
  | closed =>
      have hreq : SameRequest c
          { c with response.buffer := [], sendPos := 0, wire := .backendClosed :: c.wire } :=
        ⟨rfl, rfl, rfl⟩
      exact streamClosed_next hreq (hq.cons (by simp) (by simp)) hdrained.closed hs
        List.mem_cons_self
  | data first more =>
      have hmore := hdrained.more hs rfl ((first :: more).take c.response.bufferSize)
      exact processStreaming_next ⟨rfl, rfl, rfl⟩ (hq.cons (by simp) (by simp)) hmore hstate hev

/-! ## An upgrade -/

/-- What can become of an accepted upgrade: it waits for the client, or it is a tunnel, or the
client is lost. -/
structure UpgradeNext (c c' : ReverseProxyConnection) : Prop where
  wire : c.wire <:+ c'.wire
  outcome : (c'.state = .streamingWaitWrite ∧ Quiet c'.wire ∧
      Upgrading c'.response c'.sendPos c'.wire) ∨
    (Tunnelled c' ∧ (c'.state = .websocketTunnel ∨ Over c')) ∨
    (Over c' ∧ c'.state = .error ∧ WireEvent.clientLost ∈ c'.wire ∧ WireEvent.tunnel ∉ c'.wire)

theorem TunnelNext.upgrade {c c' : ReverseProxyConnection} (h : TunnelNext c c') :
    UpgradeNext c c' := by
  refine ⟨h.wire, .inr (.inl ⟨h.tunnelled, ?_⟩)⟩
  rcases h.state with hs | ⟨hs, hclient, hbackend, -⟩
  · exact .inl hs
  · exact .inr ⟨hs, hclient, hbackend⟩

theorem UpgradeNext.after {c c' c'' : ReverseProxyConnection} (h : UpgradeNext c' c'')
    (hwire : c.wire <:+ c'.wire) : UpgradeNext c c'' := ⟨hwire.trans h.wire, h.outcome⟩

/-- **The header of an upgrade goes out as it came, and the tunnel begins behind it.** -/
theorem processStreaming_upgrade {setup : ProxySetup} {c : ReverseProxyConnection}
    (hq : Quiet c.wire) (hu : Upgrading c.response c.sendPos c.wire) :
    UpgradeNext c (processStreaming setup c) := by
  unfold processStreaming
  have hs : ¬ c.response.headerSent = true := by rw [hu.headerSent]; decide
  rw [if_neg hs]
  obtain ⟨k, v, rest, hv, hk, heq, hend⟩ := sendResponse_spec c.response.headerEnd false
    c.answers.clientSend c hu.inHeader
  revert heq hend
  rcases sendResponse _ _ _ _ with ⟨c₁, result⟩
  intro heq hend
  have hc₁ : c₁ = { countSent false k c with answers.clientSend := rest, wire := v ++ c.wire } := heq
  have hsuffix : c.wire <:+ c₁.wire := by
    rw [hc₁]
    exact List.suffix_append v c.wire
  rcases hend with ⟨hlost, hsent, hres⟩ | ⟨hlost, hres⟩
  · have htotal : readFromBackend (v ++ c.wire) = sentToClient (v ++ c.wire) ++
        c.response.buffer.drop (c.sendPos + k) := by
      rw [readFromBackend_append, hv.others.2.2, List.append_nil, sentToClient_append, hsent,
        List.append_assoc, ← List.drop_drop, List.take_append_drop]
      exact hu.total
    have hq₁ : Quiet c₁.wire := by
      rw [hc₁]
      exact hq.append hv hlost
    rcases hres with hres | ⟨hres, hpos⟩
    · rw [show result = .wait from hres]
      refine ⟨hsuffix, .inl ⟨rfl, hq₁, ?_⟩⟩
      simp only [hc₁]
      exact ⟨hu.upgrade, hu.headerSent, hu.bodyMode, hk, hu.headerEnd, hu.size, htotal⟩
    · rw [show result = .sent from hres]
      have hupgrade : c₁.response.isUpgrade = true := by
        rw [hc₁]
        exact hu.upgrade
      simp only [if_pos hupgrade]
      have hswitch : Switching { c₁ with response.headerSent := true } := by
        rw [hc₁]
        exact ⟨(hq.append hv hlost).tunnel, Nat.le_trans hk hu.headerEnd, hu.size, htotal, rfl,
          hu.upgrade, hu.bodyMode⟩
      exact (tunnelStart_next hswitch).upgrade.after hsuffix
  · rw [show result = .failed from hres]
    obtain ⟨w, hw, hwire, hover, hstate, -⟩ := enterError_wire setup c₁
    have hwire₁ : (enterError setup c₁).wire = w ++ (v ++ c.wire) := by
      rw [hwire, hc₁]
    refine ⟨?_, .inr (.inr ⟨hover, hstate, ?_, ?_⟩)⟩
    · show c.wire <:+ (enterError setup c₁).wire
      rw [hwire₁]
      exact (List.suffix_append v c.wire).trans (List.suffix_append w _)
    · rw [hwire₁]
      simp [hlost]
    · rw [hwire₁, List.mem_append, List.mem_append, not_or, not_or]
      exact ⟨hw.not_tunnel, hv.not_tunnel, hq.tunnel⟩

/-! ## The header of a response -/

/-- A connection that has not got the whole header of the response. -/
structure Awaiting (c : ReverseProxyConnection) : Prop where
  response : c.response = { buffer := readFromBackend c.wire }
  size : (readFromBackend c.wire).length ≤ proxyBufferSize
  sendPos : c.sendPos = 0
  clientEvents : c.sockets.clientEvents = .peerClose
  quiet : Quiet c.wire
  nothing : sentToClient c.wire = []

/-- The connection `c'` has come out of `c` by an error that the client was told. -/
structure Refused (c c' : ReverseProxyConnection) : Prop where
  request : SameRequest c c'
  backend : readFromBackend c'.wire = readFromBackend c.wire
  tunnel : WireEvent.tunnel ∉ c'.wire
  closed : Over c'
  state : c'.state = .error
  response : ResponseSafe c'

theorem Shut.refused {code : Nat} {reason : String} {detail : List UInt8} {w : List WireEvent}
    {c c' : ReverseProxyConnection} (h : Shut (errorPage code reason detail) w .error c c')
    (hq : Quiet c.wire) (hnothing : sentToClient c.wire = []) (hbody : c.response.bodySent = 0) :
    Refused c c' := by
  obtain ⟨headerSent, rest, rfl, hw, hpage⟩ := h
  have hsent : sentToClient (w ++ c.wire) = sentToClient w := by
    rw [sentToClient_append, hnothing, List.nil_append]
  have hmem : WireEvent.tunnel ∉ w ++ c.wire := by
    rw [List.mem_append, not_or]
    exact ⟨hw.not_tunnel, hq.tunnel⟩
  have hback : readFromBackend (w ++ c.wire) = readFromBackend c.wire := by
    rw [readFromBackend_append, hw.others.2.2, List.append_nil]
  exact ⟨SameRequest.onlyClient hw rfl rfl, hback, hmem, over_shutDown (.inl rfl) _ _ _ _, rfl,
    .page ⟨code, reason, detail, hsent ▸ hpage⟩ hbody⟩

/-- An error before anything was sent. -/
theorem enterError_refused (setup : ProxySetup) {c : ReverseProxyConnection} (hq : Quiet c.wire)
    (hnothing : sentToClient c.wire = []) (hs : c.response.headerSent = false)
    (hbody : c.response.bodySent = 0) : Refused c (enterError setup c) := by
  obtain ⟨w, hshut⟩ := enterError_shut_page setup hs
  exact hshut.refused hq hnothing hbody

theorem refuse_refused (setup : ProxySetup) (code : Nat) (reason : String)
    {c : ReverseProxyConnection} (hq : Quiet c.wire) (hnothing : sentToClient c.wire = [])
    (hbody : c.response.bodySent = 0) : Refused c (refuse setup code reason c) := by
  obtain ⟨w, hshut⟩ := refuse_shut setup code reason c
  exact hshut.refused hq hnothing hbody

/-- A response that cannot be passed on is answered with a page. -/
theorem Refused.passNext {c c' c'' : ReverseProxyConnection} (h : Refused c' c'')
    (hreq : SameRequest c c') : PassNext c c'' := by
  refine ⟨hreq.trans h.request, h.tunnel, .inr ⟨h.closed, h.response, fun hd => ?_⟩⟩
  rw [h.state] at hd
  exact absurd hd (by decide)

/-- The chunk scanner has seen the part of the body that came with the header. -/
theorem chunk_start (mode : BodyTransferMode) (body : List UInt8) (hm : mode = .chunked) :
    (if mode = .chunked ∧ body ≠ [] then (proxyChunkedScan ChunkScanner.init body).1
      else ChunkScanner.init) = ChunkScanner.init.run body := by
  by_cases hbody : body = []
  · rw [if_neg (fun h => h.2 hbody), hbody]
    rfl
  · rw [if_pos ⟨hm, hbody⟩, proxyChunkedScan_eq]

/-- The buffer at the beginning of a response. -/
theorem passing_start {r : ProxyResponse} {w : List WireEvent} {e : Nat}
    (hfound : proxyFindHeaderEnd (readFromBackend w) = some e) (hnothing : sentToClient w = [])
    (hbuffer : r.buffer = passedHeader w e ++ (readFromBackend w).drop e)
    (hend : r.headerEnd = (passedHeader w e).length) (hplain : r.isUpgrade = false)
    (hs : r.headerSent = false) (hbody : r.bodySent = 0)
    (hframing : (r.bodyMode, r.contentLength) = responseFraming
      (proxyGetStatusCode ((readFromBackend w).take e))
      (proxyParseContentLength (passedHeader w e)) (proxyCheckTransferEncoding (passedHeader w e)))
    (hchunk : r.bodyMode = .chunked →
      r.chunk = ChunkScanner.init.run ((readFromBackend w).drop e)) : Passing r 0 w e := by
  refine ⟨hfound, hplain, hend, Nat.zero_le _, ?_, fun _ => ⟨?_, Nat.zero_le _, ?_, hbody⟩,
    fun hs' => ?_, hframing, hchunk⟩
  · rw [hnothing, hbuffer]
    rfl
  · rw [hnothing]
    rfl
  · rw [hbuffer, hend, List.length_append]
    exact Nat.le_add_right _ _
  · rw [hs] at hs'
    exact absurd hs' (by decide)

/-- A response that is no upgrade is passed on, or refused. -/
theorem startStreaming_next {setup : ProxySetup} {c c' : ReverseProxyConnection} {e : Nat}
    (ha : Awaiting c) (hfound : proxyFindHeaderEnd (readFromBackend c.wire) = some e)
    (hc' : c' = { c with
      response := { buffer := readFromBackend c.wire, headerEnd := e, statusCode := proxyGetStatusCode ((readFromBackend c.wire).take e) } }) :
    PassNext c (startStreaming setup c') := by
  have hpage : ∀ c₁ : ReverseProxyConnection, c₁.wire = c.wire →
      c₁.sockets.bytesReceived = c.sockets.bytesReceived → c₁.response.headerSent = false →
      c₁.response.bodySent = 0 → PassNext c (enterError setup c₁) := by
    intro c₁ hwire hbytes hs hbody
    have hreq : SameRequest c c₁ := ⟨by rw [hwire], by rw [hwire], hbytes⟩
    have hq : Quiet c₁.wire := by
      rw [hwire]
      exact ha.quiet
    have hnothing : sentToClient c₁.wire = [] := by
      rw [hwire]
      exact ha.nothing
    exact (enterError_refused setup hq hnothing hs hbody).passNext hreq
  have hdrop : (passedHeader c.wire e ++ (readFromBackend c.wire).drop e).drop
      (passedHeader c.wire e).length = (readFromBackend c.wire).drop e := List.drop_left
  have hheader : proxyInjectConnectionClose ((readFromBackend c.wire).take e) =
      passedHeader c.wire e := rfl
  unfold startStreaming
  simp only [hc', hheader]
  by_cases hgrow : proxyBufferSize < (passedHeader c.wire e ++
      (readFromBackend c.wire).drop e).length ∧ (!c.answers.growsResponse) = true
  · rw [if_pos hgrow]
    exact hpage _ rfl rfl rfl rfl
  rw [if_neg hgrow]
  by_cases hinvalid : proxyParseContentLength (passedHeader c.wire e) = .invalid
  · rw [if_pos hinvalid]
    exact hpage _ rfl rfl rfl rfl
  rw [if_neg hinvalid]
  by_cases hboth : proxyParseContentLength (passedHeader c.wire e) ≠ .missing ∧
      proxyCheckTransferEncoding (passedHeader c.wire e) ≠ .none
  · rw [if_pos hboth]
    exact hpage _ rfl rfl rfl rfl
  rw [if_neg hboth]
  refine @processStreaming_next setup c _ e ⟨rfl, rfl, rfl⟩ ha.quiet ?_ rfl ha.clientEvents
  refine passing_start hfound ha.nothing rfl rfl rfl rfl rfl rfl (fun hm => ?_)
  exact (chunk_start _ _ hm).trans (congrArg ChunkScanner.init.run hdrop)

/-- **The header of the response has come in part, or the response starts.** -/
theorem processBackendHeader_next {setup : ProxySetup} {c : ReverseProxyConnection}
    (ha : Awaiting c) :
    processBackendHeader setup c = c ∨ PassNext c (processBackendHeader setup c) ∨
      proxyRequestIsUpgrade (c.request.buffer.take c.request.headerEnd) = true ∧
        UpgradeNext c (processBackendHeader setup c) := by
  unfold processBackendHeader
  rw [ha.response]
  simp only
  cases hfound : proxyFindHeaderEnd (readFromBackend c.wire) with
  | none => exact .inl rfl
  | some e =>
      simp only
      by_cases h101 : proxyGetStatusCode ((readFromBackend c.wire).take e) = some 101
      · rw [if_pos h101]
        by_cases hgranted : upgradeGranted (c.request.buffer.take c.request.headerEnd)
            ((readFromBackend c.wire).take e) = true
        · rw [if_pos hgranted]
          refine .inr (.inr ⟨?_, ?_⟩)
          · unfold upgradeGranted at hgranted
            split at hgranted
            · rw [Bool.and_eq_true] at hgranted
              exact hgranted.1
            · exact absurd hgranted (by decide)
          · refine @UpgradeNext.after c _ _ (processStreaming_upgrade ha.quiet ?_) List.suffix_rfl
            have hle := (proxyFindHeaderEnd_le hfound).2
            refine ⟨rfl, rfl, rfl, ?_, hle, ha.size, ?_⟩
            · rw [ha.sendPos]
              exact Nat.zero_le _
            · rw [ha.sendPos, ha.nothing]
              rfl
        · rw [if_neg hgranted]
          refine .inr (.inl (Refused.passNext (enterError_refused setup ?_ ?_ rfl rfl) ⟨rfl, rfl, rfl⟩))
          · exact ha.quiet
          · exact ha.nothing
      · rw [if_neg h101]
        exact .inr (.inl (startStreaming_next ha hfound rfl))

end CWebUI.Proxy
