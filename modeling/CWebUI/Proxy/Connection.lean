import CWebUI.Http.ParseHeader
import CWebUI.Proxy.ChunkedScan
import CWebUI.Proxy.Injection

set_option autoImplicit false

/-! # A connection of the reverse proxy

The state machine of `reverse_proxy.c`. A connection stands between two sockets; the event
loop calls a handler when one of them is ready, the handler makes a number of system calls,
and `proxy_process_state` moves the connection on.

The environment is made explicit. What the system calls of one handler call will return is
written down beforehand (`Answers`); a list that is used up goes on with "try again later".
Every byte that crosses a socket is recorded in `wire`, newest event first, which the code
does not have and nothing here reads.

A buffer is modelled by the bytes in use. Its fill position is its length, and what stands
behind it in memory is not read before it is written.
-/

namespace CWebUI.Proxy

open ByteString

/-! ## The environment -/

/-- What a read from the client returns. -/
inductive ClientRecv where
  /-- At least one byte; `pending` says whether the TLS layer then holds more. -/
  | data (first : UInt8) (more : List UInt8) (pending : Bool)
  /-- `CLIENT_NO_MORE_DATA` -/
  | noMoreData
  /-- The client has closed, or the connection is broken. -/
  | broken
  deriving DecidableEq, Repr

/-- What `recv` on the backend socket returns. -/
inductive BackendRecv where
  | data (first : UInt8) (more : List UInt8)
  /-- `EAGAIN` -/
  | again
  /-- The backend has closed. -/
  | closed
  | failed
  deriving DecidableEq, Repr

/-- The status of `WebserverSend`. -/
inductive SendStatus where
  | noMoreData
  | sendBufferFull
  /-- Everything else ends the connection. -/
  | failed
  deriving DecidableEq, Repr

/-- What `WebserverSend` returns: its status, and the number of bytes it has taken, as far as
there are that many. -/
structure ClientSend where
  status : SendStatus
  taken : Nat
  deriving DecidableEq, Repr

/-- What `send` on the backend socket returns. -/
inductive BackendSend where
  | taken (n : Nat)
  | again
  | failed
  deriving DecidableEq, Repr

/-- The answers to the system calls of one handler call. -/
structure Answers where
  clientRecv : List ClientRecv
  clientSend : List ClientSend
  backendRecv : BackendRecv
  backendSend : List BackendSend
  /-- The TLS layer of the client holds bytes, as the backend handler sees it. -/
  sslPending : Bool
  /-- The backend can be connected. -/
  connects : Bool
  /-- The connect that was in progress has failed. -/
  soError : Bool
  /-- Memory for a large request, for the injected header, and for the response. -/
  growsRequest : Bool
  growsInjected : Bool
  growsResponse : Bool
  deriving DecidableEq, Repr

/-- What happens on the wire. -/
inductive WireEvent where
  | fromClient (data : List UInt8)
  | toBackend (data : List UInt8)
  | fromBackend (data : List UInt8)
  | toClient (data : List UInt8)
  /-- A send to the client has failed. -/
  | clientLost
  /-- The backend has closed. -/
  | backendClosed
  /-- The tunnel begins. -/
  | tunnel
  deriving DecidableEq, Repr

/-- The events that a socket is registered for. -/
inductive Events where
  | none
  /-- Only the end of the connection is reported. -/
  | peerClose
  | read
  | write
  | readWrite
  deriving DecidableEq, Repr

/-! ## The state -/

/-- `proxy_state_t`. -/
inductive ProxyState where
  | recvClientHeader
  | recvClientBody
  | connectBackend
  | sendToBackend
  | recvBackendHeader
  | streaming
  | streamingWaitWrite
  | websocketTunnel
  | error
  | done
  deriving DecidableEq, Repr

/-- `body_transfer_mode_t`. -/
inductive BodyTransferMode where
  | none
  | contentLength
  | chunked
  | close
  deriving DecidableEq, Repr

/-- `PROXY_BUFFER_SIZE` -/
def proxyBufferSize : Nat := 64 * 1024

/-- `PROXY_MAX_HEADER_SIZE` -/
def proxyMaxHeaderSize : Nat := 16 * 1024

/-- The largest request buffer. -/
def proxyMaxRequestSize : Nat := 512 * 1024 * 1024

/-- The request of a connection: the buffer that it is received in, and how it is framed. -/
structure ProxyRequest where
  buffer : List UInt8
  bufferSize : Nat := proxyBufferSize
  headerEnd : Nat := 0
  bodyMode : BodyTransferMode := .none
  contentLength : Nat := 0
  bodyReceived : Nat := 0
  deriving DecidableEq, Repr

/-- The response of a connection. -/
structure ProxyResponse where
  buffer : List UInt8 := []
  bufferSize : Nat := proxyBufferSize
  headerEnd : Nat := 0
  /-- `none` stands for `-1`. -/
  statusCode : Option Nat := some 0
  bodyMode : BodyTransferMode := .none
  contentLength : Nat := 0
  bodyReceived : Nat := 0
  isUpgrade : Bool := false
  headerSent : Bool := false
  bodySent : Nat := 0
  chunk : ChunkScanner := ChunkScanner.init
  deriving DecidableEq, Repr

/-- How full the buffers are in a tunnel, and how much of that has been sent. The bytes
towards the backend are in the request buffer, those towards the client in the response
buffer. -/
structure ProxyTunnel where
  c2bLen : Nat := 0
  c2bSent : Nat := 0
  b2cLen : Nat := 0
  b2cSent : Nat := 0
  deriving DecidableEq, Repr

/-- The fields of the two sockets that the proxy sets. -/
structure ProxySockets where
  /-- `backend_fd` is a descriptor. -/
  connected : Bool := false
  /-- The handlers of the two sockets are installed. -/
  clientHandle : Bool := true
  backendHandle : Bool := false
  clientEvents : Events := .none
  backendEvents : Events := .none
  closeSocket : Bool := false
  /-- `bytes_received` of the client socket. -/
  bytesReceived : Nat := 0
  deriving DecidableEq, Repr

/-- `reverse_proxy_connection_t`. The fields that are only written, for the access log and for
error pages of the server itself, are left out. -/
structure ReverseProxyConnection where
  state : ProxyState := .recvClientHeader
  request : ProxyRequest
  response : ProxyResponse := {}
  /-- How much of the request, and later of the response buffer, has been sent. -/
  sendPos : Nat := 0
  tunnel : ProxyTunnel := {}
  sockets : ProxySockets := {}
  /-- The answers that are still to come. -/
  answers : Answers
  wire : List WireEvent
  deriving DecidableEq, Repr

/-! ## The end of a connection -/

/-- The body of an error page. -/
def errorBody (code : Nat) (reason : String) (detail : List UInt8) : List UInt8 :=
  let title := ascii (toString code ++ " " ++ reason)
  ascii "<html><head><title>" ++ title ++ ascii "</title></head><body><h1>" ++ title ++
    ascii "</h1><p>" ++ detail ++ ascii "</p></body></html>"

/-- An error page. The buffer of the body has 512 bytes; the length that is announced is that
of the whole body. -/
@[irreducible] def errorPage (code : Nat) (reason : String) (detail : List UInt8) : List UInt8 :=
  let body := errorBody code reason detail
  ascii ("HTTP/1.1 " ++ toString code ++ " " ++ reason ++ "\r\n" ++
    "Content-Type: text/html; charset=utf-8\r\n" ++
    "Content-Length: " ++ toString body.length ++ "\r\n" ++
    "Connection: close\r\n\r\n") ++ body.take 511

/-- The loop of `proxy_send_error_response`: a page that is not taken at once is given up. -/
def sendPage : List ClientSend → List UInt8 → ReverseProxyConnection → ReverseProxyConnection
  | [], _, c => { c with answers.clientSend := [] }
  | a :: rest, page, c =>
      if page = [] then { c with answers.clientSend := a :: rest }
      else
        let n := min a.taken page.length
        let c := { c with answers.clientSend := rest, wire := .toClient (page.take n) :: c.wire }
        match a.status with
        | .failed => { c with wire := .clientLost :: c.wire }
        | .sendBufferFull => c
        | .noMoreData => if n = 0 then c else sendPage rest (page.drop n) c

/-- `proxy_send_error_response`. -/
def proxySendErrorResponse (code : Nat) (reason : String) (detail : List UInt8)
    (c : ReverseProxyConnection) : ReverseProxyConnection :=
  sendPage c.answers.clientSend (errorPage code reason detail) c

/-- What `PROXY_STATE_ERROR` and `PROXY_STATE_DONE` have in common: the connection is marked
for closing, its handler is taken away, and the backend is no longer watched. -/
def closeDown (c : ReverseProxyConnection) : ReverseProxyConnection :=
  { c with
    sockets.closeSocket := true
    sockets.clientHandle := false
    sockets.backendEvents := .none
    sockets.clientEvents := .read }

/-- `PROXY_STATE_ERROR`: the client is told, if nothing has been sent to it. -/
def enterError (setup : ProxySetup) (c : ReverseProxyConnection) : ReverseProxyConnection :=
  let c := { c with state := .error }
  let c := if c.response.headerSent then c
    else proxySendErrorResponse 502 "Bad Gateway" setup.backendPath c
  closeDown c

/-- A request that is refused with a page of its own. -/
def refuse (setup : ProxySetup) (code : Nat) (reason : String) (c : ReverseProxyConnection) :
    ReverseProxyConnection :=
  enterError setup { proxySendErrorResponse code reason [] c with response.headerSent := true }

/-- `PROXY_STATE_DONE` -/
def enterDone (c : ReverseProxyConnection) : ReverseProxyConnection :=
  closeDown { c with state := .done }

/-! ## The tunnel -/

/-- `proxy_tunnel_update_events`, for one socket. -/
def tunnelEvents (read write : Bool) : Events :=
  if read ∧ write then .readWrite else if write then .write else if read then .read else .none

/-- `proxy_tunnel_update_events`: read from a side only while the opposite direction has
nothing pending, ask for writability exactly while something is pending. -/
def proxyTunnelUpdateEvents (c : ReverseProxyConnection) : ReverseProxyConnection :=
  { c with
    sockets.clientEvents := tunnelEvents (c.tunnel.c2bLen == 0) (0 < c.tunnel.b2cLen)
    sockets.backendEvents := tunnelEvents (c.tunnel.b2cLen == 0) (0 < c.tunnel.c2bLen) }

/-- `proxy_tunnel_flush_c2b`: push what is pending towards the backend. The second component
is false if the connection is broken. -/
def proxyTunnelFlushC2b : List BackendSend → ReverseProxyConnection → ReverseProxyConnection × Bool
  | answers, c =>
      if c.tunnel.c2bSent < c.tunnel.c2bLen then
        match answers with
        | [] => ({ c with answers.backendSend := [] }, true)
        | .again :: rest => ({ c with answers.backendSend := rest }, true)
        | .failed :: rest => ({ c with answers.backendSend := rest }, false)
        | .taken n :: rest =>
            let n := min n (c.tunnel.c2bLen - c.tunnel.c2bSent)
            let data := (c.request.buffer.drop c.tunnel.c2bSent).take n
            if n = 0 then ({ c with answers.backendSend := rest }, true)
            else proxyTunnelFlushC2b rest { c with
              tunnel.c2bSent := c.tunnel.c2bSent + n
              wire := .toBackend data :: c.wire }
      else ({ c with tunnel.c2bLen := 0, tunnel.c2bSent := 0, answers.backendSend := answers }, true)

/-- `proxy_tunnel_flush_b2c`: push what is pending towards the client. What was taken counts
whatever the status is. -/
def proxyTunnelFlushB2c : List ClientSend → ReverseProxyConnection → ReverseProxyConnection × Bool
  | answers, c =>
      if c.tunnel.b2cSent < c.tunnel.b2cLen then
        match answers with
        | [] => ({ c with answers.clientSend := [] }, true)
        | a :: rest =>
            let n := min a.taken (c.tunnel.b2cLen - c.tunnel.b2cSent)
            let data := (c.response.buffer.drop c.tunnel.b2cSent).take n
            let c := { c with
              tunnel.b2cSent := c.tunnel.b2cSent + n
              wire := .toClient data :: c.wire }
            match a.status with
            | .failed =>
                ({ c with answers.clientSend := rest, wire := .clientLost :: c.wire }, false)
            | .sendBufferFull => ({ c with answers.clientSend := rest }, true)
            | .noMoreData =>
                if n = 0 then ({ c with answers.clientSend := rest }, true)
                else proxyTunnelFlushB2c rest c
      else ({ c with tunnel.b2cLen := 0, tunnel.b2cSent := 0, answers.clientSend := answers }, true)

/-- Data from the client is the backlog towards the backend. -/
def tunnelFillC2b (data : List UInt8) (c : ReverseProxyConnection) : ReverseProxyConnection :=
  { c with
    sockets.bytesReceived := c.sockets.bytesReceived + data.length
    request.buffer := data
    tunnel.c2bLen := data.length
    tunnel.c2bSent := 0
    wire := .fromClient data :: c.wire }

/-- Data from the backend is the backlog towards the client. -/
def tunnelFillB2c (data : List UInt8) (c : ReverseProxyConnection) : ReverseProxyConnection :=
  { c with
    response.buffer := data
    tunnel.b2cLen := data.length
    tunnel.b2cSent := 0
    wire := .fromBackend data :: c.wire }

/-- Flush towards the backend, if there is one. -/
def tunnelPushC2b (c : ReverseProxyConnection) : ReverseProxyConnection × Bool :=
  if c.sockets.connected then proxyTunnelFlushC2b c.answers.backendSend c else (c, true)

/-- How the read loop of the tunnel ends. -/
inductive TunnelRead where
  | ok
  /-- The client has closed. -/
  | done
  /-- The backend is gone. -/
  | error
  deriving DecidableEq, Repr

/-- The read loop of the tunnel on the client side. It reads only while nothing is pending
towards the backend, and again only while the TLS layer holds more. -/
def tunnelReadClient : List ClientRecv → ReverseProxyConnection →
    ReverseProxyConnection × TunnelRead
  | [], c => (c, .ok)
  | a :: rest, c =>
      if c.tunnel.c2bLen = 0 then
        match a with
        | .noMoreData => (c, .ok)
        | .broken => (c, .done)
        | .data first more pending =>
            let data := (first :: more).take c.request.bufferSize
            match tunnelPushC2b (tunnelFillC2b data c) with
            | (c, false) => (c, .error)
            | (c, true) => if pending then tunnelReadClient rest c else (c, .ok)
      else (c, .ok)

/-- `PROXY_STATE_WEBSOCKET_TUNNEL` of the client handler. -/
def tunnelClient (setup : ProxySetup) (c : ReverseProxyConnection) : ReverseProxyConnection :=
  let (c, alive) :=
    if 0 < c.tunnel.b2cLen then proxyTunnelFlushB2c c.answers.clientSend c else (c, true)
  if alive then
    match tunnelReadClient c.answers.clientRecv c with
    | (c, .ok) => proxyTunnelUpdateEvents c
    | (c, .done) => enterDone c
    | (c, .error) => enterError setup c
  else enterDone c

/-- The part of the backend handler that reads from the backend, while nothing is pending
towards the client. -/
def tunnelReadBackend (setup : ProxySetup) (c : ReverseProxyConnection) : ReverseProxyConnection :=
  if c.tunnel.b2cLen = 0 then
    match c.answers.backendRecv with
    | .again => proxyTunnelUpdateEvents c
    | .closed => enterDone { c with wire := .backendClosed :: c.wire }
    | .failed => enterDone c
    | .data first more =>
        let c := tunnelFillB2c ((first :: more).take c.response.bufferSize) c
        match proxyTunnelFlushB2c c.answers.clientSend c with
        | (c, false) => enterError setup c
        | (c, true) => proxyTunnelUpdateEvents c
  else proxyTunnelUpdateEvents c

/-- `PROXY_STATE_WEBSOCKET_TUNNEL` of the backend handler. When the backlog towards the
backend is gone, bytes that wait in the TLS layer are read by the client handler. -/
def tunnelBackend (setup : ProxySetup) (c : ReverseProxyConnection) : ReverseProxyConnection :=
  if 0 < c.tunnel.c2bLen then
    match proxyTunnelFlushC2b c.answers.backendSend c with
    | (c, false) => enterError setup c
    | (c, true) =>
        if c.tunnel.c2bLen = 0 ∧ c.answers.sslPending then tunnelClient setup c
        else tunnelReadBackend setup c
  else tunnelReadBackend setup c

/-- The switch to the tunnel: what is left in the response buffer is the first backlog. -/
def tunnelOpen (c : ReverseProxyConnection) : ReverseProxyConnection :=
  { c with
    state := .websocketTunnel
    sockets.clientEvents := .none
    sockets.backendEvents := .none
    tunnel := ⟨0, 0, c.response.buffer.length, c.sendPos⟩
    wire := .tunnel :: c.wire }

/-- The switch to the tunnel, behind the response header. -/
def tunnelStart (setup : ProxySetup) (c : ReverseProxyConnection) : ReverseProxyConnection :=
  let c := tunnelOpen c
  if c.tunnel.b2cLen ≤ c.tunnel.b2cSent then
    proxyTunnelUpdateEvents { c with tunnel.b2cLen := 0, tunnel.b2cSent := 0 }
  else
    match proxyTunnelFlushB2c c.answers.clientSend c with
    | (c, false) => enterError setup c
    | (c, true) => proxyTunnelUpdateEvents c

/-! ## The response -/

/-- How a send loop ends. -/
inductive SendEnd where
  | sent
  /-- The client socket takes no more for now. -/
  | wait
  | failed
  deriving DecidableEq, Repr

/-- Count bytes that the client socket has taken. -/
def countSent (body : Bool) (n : Nat) (c : ReverseProxyConnection) : ReverseProxyConnection :=
  { c with
    sendPos := c.sendPos + n
    response.bodySent := if body then c.response.bodySent + n else c.response.bodySent }

/-- The two send loops of `PROXY_STATE_STREAMING`: send the response buffer up to `stop`. Body
bytes are counted. A failed send is not counted at all. -/
def sendResponse (stop : Nat) (body : Bool) : List ClientSend → ReverseProxyConnection →
    ReverseProxyConnection × SendEnd
  | answers, c =>
      if c.sendPos < stop then
        match answers with
        | [] => ({ c with answers.clientSend := [] }, .wait)
        | a :: rest =>
            let n := min a.taken (stop - c.sendPos)
            let data := (c.response.buffer.drop c.sendPos).take n
            let c := { c with wire := .toClient data :: c.wire }
            match a.status with
            | .failed =>
                ({ c with answers.clientSend := rest, wire := .clientLost :: c.wire }, .failed)
            | .sendBufferFull => ({ countSent body n c with answers.clientSend := rest }, .wait)
            | .noMoreData =>
                if n = 0 then ({ countSent body n c with answers.clientSend := rest }, .wait)
                else sendResponse stop body rest (countSent body n c)
      else ({ c with answers.clientSend := answers }, .sent)

/-- The client socket is full: wait until it can be written, and do not read from the
backend meanwhile. -/
def waitWrite (c : ReverseProxyConnection) : ReverseProxyConnection :=
  { c with state := .streamingWaitWrite, sockets.backendEvents := .none, sockets.clientEvents := .write }

/-- The end of `PROXY_STATE_STREAMING`, when the buffer has been sent: is the response
complete? -/
def streamingDrained (c : ReverseProxyConnection) : ReverseProxyConnection :=
  let c := { c with response.buffer := [], sendPos := 0 }
  if c.response.bodyMode = .contentLength ∧ c.response.contentLength ≤ c.response.bodySent then
    if c.response.isUpgrade then
      proxyTunnelUpdateEvents { c with
        state := .websocketTunnel, tunnel := {}, wire := .tunnel :: c.wire }
    else enterDone c
  else if c.response.bodyMode = .chunked ∧ c.response.chunk.chunkState = .done then enterDone c
  else c

/-- The body part of `PROXY_STATE_STREAMING`. -/
def streamBody (setup : ProxySetup) (c : ReverseProxyConnection) : ReverseProxyConnection :=
  match sendResponse c.response.buffer.length true c.answers.clientSend c with
  | (c, .wait) => waitWrite c
  | (c, .failed) => enterError setup c
  | (c, .sent) => streamingDrained c

/-- `PROXY_STATE_STREAMING` -/
def processStreaming (setup : ProxySetup) (c : ReverseProxyConnection) : ReverseProxyConnection :=
  if c.response.headerSent then streamBody setup c
  else
    match sendResponse c.response.headerEnd false c.answers.clientSend c with
    | (c, .wait) => waitWrite c
    | (c, .failed) => enterError setup c
    | (c, .sent) =>
        let c := { c with response.headerSent := true }
        if c.response.isUpgrade then tunnelStart setup c else streamBody setup c

/-- `proxy_parse_response_header`, its check of a `101`: the client has asked for the protocol
that the backend switches to. -/
def upgradeGranted (requestHeader responseHeader : List UInt8) : Bool :=
  match proxyGetUpgradeValue requestHeader, proxyGetUpgradeValue responseHeader with
  | some asked, some given =>
      proxyRequestIsUpgrade requestHeader && sameIgnoreCase (cString asked) (cString given)
  | _, _ => false

/-- How the body of a response is framed. -/
def responseFraming (status : Option Nat) (length : ContentLength) (te : ProxyTeMode) :
    BodyTransferMode × Nat :=
  if status = some 204 ∨ status = some 304 then (.contentLength, 0)
  else
    match length with
    | .length n => (.contentLength, n)
    | _ => if te = .chunked then (.chunked, 0) else (.close, 0)

/-- `PROXY_STATE_RECV_BACKEND_HEADER`, once the header is there and is no upgrade. The length
is read from the header as it will be sent. -/
def startStreaming (setup : ProxySetup) (c : ReverseProxyConnection) : ReverseProxyConnection :=
  let header := proxyInjectConnectionClose (c.response.buffer.take c.response.headerEnd)
  let buffer := header ++ c.response.buffer.drop c.response.headerEnd
  if c.response.bufferSize < buffer.length ∧ !c.answers.growsResponse then enterError setup c
  else
    let c := { c with
      response.buffer := buffer
      response.headerEnd := header.length
      response.bufferSize := if c.response.bufferSize < buffer.length then buffer.length + 1024
        else c.response.bufferSize }
    let length := proxyParseContentLength header
    let te := proxyCheckTransferEncoding header
    if length = .invalid then enterError setup c
    else if length ≠ .missing ∧ te ≠ .none then enterError setup c
    else
      let (mode, n) := responseFraming c.response.statusCode length te
      let body := buffer.drop header.length
      let complete := mode = .contentLength ∧ n ≤ body.length
      processStreaming setup { c with
        response.bodyMode := mode
        response.contentLength := n
        response.bodyReceived := body.length
        response.chunk := if mode = .chunked ∧ body ≠ [] then (proxyChunkedScan c.response.chunk body).1 else c.response.chunk
        sockets.backendEvents := if complete then .none else c.sockets.backendEvents
        state := .streaming
        sendPos := 0
        response.headerSent := false
        response.bodySent := 0 }

/-- `PROXY_STATE_RECV_BACKEND_HEADER` -/
def processBackendHeader (setup : ProxySetup) (c : ReverseProxyConnection) :
    ReverseProxyConnection :=
  match proxyFindHeaderEnd c.response.buffer with
  | none => c
  | some e =>
      let header := c.response.buffer.take e
      let c := { c with
        response.headerEnd := e
        response.statusCode := proxyGetStatusCode header
        response.isUpgrade := false }
      if c.response.statusCode = some 101 then
        if upgradeGranted (c.request.buffer.take c.request.headerEnd) header then
          processStreaming setup { c with response.isUpgrade := true, state := .streaming }
        else enterError setup c
      else startStreaming setup c

/-! ## The request -/

/-- `PROXY_STATE_SEND_TO_BACKEND`: one `send`, of all that is left. -/
def processSend (setup : ProxySetup) (c : ReverseProxyConnection) : ReverseProxyConnection :=
  if c.sendPos = 0 ∧ c.answers.soError then enterError setup c
  else
    let c := { c with sockets.backendHandle := true }
    match c.answers.backendSend with
    | [] => { c with sockets.backendEvents := .write }
    | .again :: rest => { c with answers.backendSend := rest, sockets.backendEvents := .write }
    | .failed :: rest => enterError setup { c with answers.backendSend := rest }
    | .taken n :: rest =>
        let n := min n (c.request.buffer.length - c.sendPos)
        let data := (c.request.buffer.drop c.sendPos).take n
        let c := { c with
          answers.backendSend := rest
          sendPos := c.sendPos + n
          wire := .toBackend data :: c.wire }
        if c.sendPos < c.request.buffer.length then { c with sockets.backendEvents := .write }
        else { c with sendPos := 0, state := .recvBackendHeader, sockets.backendEvents := .read }

/-- The bytes behind the body are dropped, unless they are the beginning of a tunnel. -/
def trimRequest (c : ReverseProxyConnection) : ReverseProxyConnection :=
  let want := c.request.headerEnd + c.request.contentLength
  if proxyRequestIsUpgrade (c.request.buffer.take c.request.headerEnd) = false ∧
      want < c.request.buffer.length then
    { c with
      request.buffer := c.request.buffer.take want
      request.bodyReceived := c.request.contentLength }
  else c

/-- `PROXY_STATE_CONNECT_BACKEND` -/
def processConnect (setup : ProxySetup) (c : ReverseProxyConnection) : ReverseProxyConnection :=
  let c := trimRequest c
  let c := { c with state := .connectBackend, sockets.clientEvents := .peerClose }
  if !c.answers.connects then enterError setup c
  else
    let c := { c with sockets.connected := true }
    match proxyInjectForwardedHeaders setup (c.request.buffer.take c.request.headerEnd) with
    | none => enterError setup c
    | some header =>
        let buffer := header ++ c.request.buffer.drop c.request.headerEnd
        if c.request.bufferSize < buffer.length ∧ !c.answers.growsInjected then enterError setup c
        else processSend setup { c with
          request.buffer := buffer
          request.headerEnd := header.length
          request.bufferSize := if c.request.bufferSize < buffer.length then buffer.length + 1024
            else c.request.bufferSize
          state := .sendToBackend }

/-- `PROXY_STATE_RECV_CLIENT_BODY` -/
def processClientBody (setup : ProxySetup) (c : ReverseProxyConnection) : ReverseProxyConnection :=
  let c := { c with request.bodyReceived := c.request.buffer.length - c.request.headerEnd }
  if c.request.contentLength ≤ c.request.bodyReceived then processConnect setup c
  else if c.request.bufferSize ≤ c.request.buffer.length then
    refuse setup 413 "Payload Too Large" c
  else c

/-- A request with a body. The buffer grows to the announced size, up to a limit. -/
def startBody (setup : ProxySetup) (n : Nat) (c : ReverseProxyConnection) :
    ReverseProxyConnection :=
  let c := { c with
    request.bodyMode := .contentLength
    request.contentLength := n
    request.bodyReceived := c.request.buffer.length - c.request.headerEnd }
  let needed := min (c.request.headerEnd + n + 1) proxyMaxRequestSize
  if c.request.bufferSize < needed ∧ !c.answers.growsRequest then enterError setup c
  else
    let c := { c with request.bufferSize := max c.request.bufferSize needed }
    if c.request.bodyReceived < n then { c with state := .recvClientBody }
    else processConnect setup c

/-- `PROXY_STATE_RECV_CLIENT_HEADER`. A request whose length is not certain is refused. -/
def processClientHeader (setup : ProxySetup) (c : ReverseProxyConnection) :
    ReverseProxyConnection :=
  match proxyFindHeaderEnd c.request.buffer with
  | none =>
      if proxyMaxHeaderSize < c.request.buffer.length then
        refuse setup 431 "Request Header Fields Too Large" c
      else c
  | some e =>
      if proxyMaxHeaderSize < e then refuse setup 431 "Request Header Fields Too Large" c
      else
        let c := { c with request.headerEnd := e }
        let length := proxyParseContentLength (c.request.buffer.take e)
        let te := proxyCheckTransferEncoding (c.request.buffer.take e)
        if (length ≠ .missing ∧ length ≠ .invalid) ∧ te ≠ .none then
          refuse setup 400 "Bad Request" c
        else if te = .other then refuse setup 400 "Bad Request" c
        else if length = .invalid then refuse setup 400 "Bad Request" c
        else if te = .chunked then refuse setup 411 "Length Required" c
        else
          match length with
          | .length (n + 1) => startBody setup (n + 1) c
          | _ => processConnect setup { c with request.bodyMode := .none, request.contentLength := 0 }

/-- `proxy_process_state` -/
def proxyProcessState (setup : ProxySetup) (c : ReverseProxyConnection) : ReverseProxyConnection :=
  match c.state with
  | .recvClientHeader => processClientHeader setup c
  | .recvClientBody => processClientBody setup c
  | .connectBackend => processConnect setup c
  | .sendToBackend => processSend setup c
  | .recvBackendHeader => processBackendHeader setup c
  | .streaming => processStreaming setup c
  | .streamingWaitWrite => c
  | .websocketTunnel => c
  | .error => enterError setup c
  | .done => enterDone c

/-! ## The handlers -/

/-- The read loop of the client handler, for header and body. It stops when the buffer is
full; the second component is false if the connection is broken. -/
def readClient : List ClientRecv → ReverseProxyConnection → ReverseProxyConnection × Bool
  | [], c => (c, true)
  | a :: rest, c =>
      if c.request.bufferSize ≤ c.request.buffer.length then (c, true)
      else
        match a with
        | .noMoreData => (c, true)
        | .broken => (c, false)
        | .data first more pending =>
            let data := (first :: more).take (c.request.bufferSize - c.request.buffer.length)
            let c := { c with
              sockets.bytesReceived := c.sockets.bytesReceived + data.length
              request.buffer := c.request.buffer ++ data
              wire := .fromClient data :: c.wire }
            if pending then readClient rest c else (c, true)

/-- `reverse_proxy_client_handler` -/
def reverseProxyClientHandler (setup : ProxySetup) (c : ReverseProxyConnection) :
    ReverseProxyConnection :=
  match c.state with
  | .recvClientHeader | .recvClientBody =>
      match readClient c.answers.clientRecv c with
      | (c, true) => proxyProcessState setup c
      | (c, false) => enterError setup c
  | .streamingWaitWrite =>
      processStreaming setup
        { c with sockets.clientEvents := .peerClose, sockets.backendEvents := .read, state := .streaming }
  | .connectBackend | .sendToBackend | .recvBackendHeader | .streaming => enterDone c
  | .websocketTunnel => tunnelClient setup c
  | .error | .done => proxyProcessState setup c

/-- The end of the stream, as the backend handler sees it while it is passing on a body. -/
def streamClosed (setup : ProxySetup) (c : ReverseProxyConnection) : ReverseProxyConnection :=
  if c.response.bodyMode = .chunked ∧ c.response.chunk.chunkState ≠ .done then enterDone c
  else if c.response.bodyMode = .close ∨ c.response.contentLength ≤ c.response.bodySent then
    enterDone c
  else enterError setup c

/-- `PROXY_STATE_STREAMING` of the backend handler: what is unsent comes first, and only an
empty buffer is filled again. -/
def streamBackend (setup : ProxySetup) (c : ReverseProxyConnection) : ReverseProxyConnection :=
  if c.sendPos < c.response.buffer.length then processStreaming setup c
  else if c.response.bodyMode = .contentLength ∧ c.response.contentLength ≤ c.response.bodySent then
    enterDone c
  else
    let c := { c with response.buffer := [], sendPos := 0 }
    match c.answers.backendRecv with
    | .again => c
    | .failed => enterError setup c
    | .closed => streamClosed setup { c with wire := .backendClosed :: c.wire }
    | .data first more =>
        let data := (first :: more).take c.response.bufferSize
        processStreaming setup { c with
          response.buffer := data
          wire := .fromBackend data :: c.wire
          response.chunk := if c.response.bodyMode = .chunked then (proxyChunkedScan c.response.chunk data).1
            else c.response.chunk }

/-- `PROXY_STATE_RECV_BACKEND_HEADER` of the backend handler. -/
def readBackendHeader (setup : ProxySetup) (c : ReverseProxyConnection) : ReverseProxyConnection :=
  if c.response.bufferSize ≤ c.response.buffer.length then enterError setup c
  else
    match c.answers.backendRecv with
    | .again => c
    | .failed => enterError setup c
    | .closed => enterError setup { c with wire := .backendClosed :: c.wire }
    | .data first more =>
        let data := (first :: more).take (c.response.bufferSize - c.response.buffer.length)
        processBackendHeader setup { c with
          response.buffer := c.response.buffer ++ data
          wire := .fromBackend data :: c.wire }

/-- `reverse_proxy_backend_handler` -/
def reverseProxyBackendHandler (setup : ProxySetup) (c : ReverseProxyConnection) :
    ReverseProxyConnection :=
  match c.state with
  | .sendToBackend => processSend setup c
  | .recvBackendHeader => readBackendHeader setup c
  | .streaming => streamBackend setup c
  | .websocketTunnel => tunnelBackend setup c
  | _ => proxyProcessState setup c

/-! ## The event loop -/

/-- What is reported for a socket. -/
inductive EventKind where
  | readable
  | writable
  /-- The peer has closed, or the connection is gone. -/
  | hangup
  deriving DecidableEq, Repr

/-- What is reported for a socket that is registered for the events. -/
def Events.reports : Events → EventKind → Bool
  | .none, _ => false
  | _, .hangup => true
  | .peerClose, _ => false
  | .read, k => k == .readable
  | .write, k => k == .writable
  | .readWrite, _ => true

/-- `run_extern_handler`. The handler is called again if it has read from the client and the
TLS layer holds more; there is one entry of `calls` for each call. -/
def runExternHandler (setup : ProxySetup) : List Answers → ReverseProxyConnection →
    ReverseProxyConnection
  | [], c => c
  | answers :: calls, c =>
      if c.sockets.clientHandle then
        let before := c.sockets.bytesReceived
        let c := reverseProxyClientHandler setup { c with answers := answers }
        if c.sockets.closeSocket ∨ c.sockets.clientHandle = false ∨ c.sockets.bytesReceived = before then c
        else runExternHandler setup calls c
      else c

/-- `checkReverseProxy`, from the hand-over on: the bytes that the header parser has read are
the beginning of the request. The handler runs at once if the TLS layer holds more. -/
def takeOver (setup : ProxySetup) (buffer : List UInt8) (answers : Answers)
    (calls : List Answers) : ReverseProxyConnection :=
  let c : ReverseProxyConnection :=
    { request := { buffer := buffer }, wire := [.fromClient buffer], answers := answers }
  let c := processClientHeader setup c
  let c := if c.sockets.closeSocket then c
    else if c.state = .recvClientHeader ∨ c.state = .recvClientBody then
      { c with sockets.clientEvents := .read }
    else c
  runExternHandler setup calls c

/-- An event of the loop, with the answers that the handler will get. -/
inductive Event where
  | client (kind : EventKind) (calls : List Answers)
  | backend (kind : EventKind) (answers : Answers)
  deriving DecidableEq, Repr

/-- The event can happen: the socket has its handler and is registered for it. -/
def Event.Enabled (c : ReverseProxyConnection) : Event → Prop
  | .client kind _ => c.sockets.clientHandle = true ∧ c.sockets.clientEvents.reports kind = true
  | .backend kind _ => c.sockets.backendHandle = true ∧ c.sockets.backendEvents.reports kind = true

/-- What the loop does with it. -/
def dispatch (setup : ProxySetup) (c : ReverseProxyConnection) : Event → ReverseProxyConnection
  | .client _ calls => runExternHandler setup calls c
  | .backend _ answers => reverseProxyBackendHandler setup { c with answers := answers }

/-- The runs of a connection, with their events, newest first. The connection is taken over
with what the buffer of the header parser holds. -/
inductive Run (setup : ProxySetup) : List Event → ReverseProxyConnection → Prop where
  | start (buffer : List UInt8) (answers : Answers) (calls : List Answers)
      (hbuffer : buffer.length ≤ Http.webserverMaxHeaderLineLenght) :
      Run setup [] (takeOver setup buffer answers calls)
  | step {events : List Event} {c : ReverseProxyConnection} {e : Event} (h : Run setup events c)
      (he : e.Enabled c) : Run setup (e :: events) (dispatch setup c e)

end CWebUI.Proxy
