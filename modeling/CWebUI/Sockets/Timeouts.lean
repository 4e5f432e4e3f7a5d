import CWebUI.Sockets.SocketInfo
import CWebUI.Websocket.Output

set_option autoImplicit false

/-! # Idle timeouts

Once a second, after the events of a round, a sweep over all sockets closes those whose deadline
has passed and pings silent websockets (`conn_timeout_action` and `connTimeoutSweep`,
`system_sockets_container.c`). It decides from the stamps of a socket, seconds in 32 bits, and
some of these it sets itself.

The list of the sockets is a list of addresses, a freed record is gone, and an access to one gives
no result. What `connHasPendingInput` answers is an argument. What closing does beyond the
container, as the message to the handler of a websocket, is left out.
-/

namespace CWebUI.Timeouts

open CWebUI.Sockets (SockId ExternHandle)
open CWebUI.Proxy (ProxyState)
open CWebUI.Websocket (writeChunk)

/-! ## The records -/

/-- The address of a `reverse_proxy_connection_t`. -/
abbrev ProxyId : Type := Nat

/-- `reverse_proxy_connection_t`, as far as the sweep and the end of a connection read it. -/
structure ReverseProxyConnection where
  state : ProxyState := .recvClientHeader
  timedState : ProxyState := .recvClientHeader
  stateAt : UInt32 := 0
  backendAt : UInt32 := 0
  clientSock : Option SockId
  backendSock : Option SockId := none
  deriving DecidableEq, Repr

/-- What the sweep reads of a `HttpRequestHeader`. -/
structure RequestProgress where
  headerComplete : Bool := false
  parsedBytes : UInt32 := 0
  deriving DecidableEq, Repr

/-- `socket_info`, as far as the sweep reads it. -/
structure TimedSocket where
  server : Bool := false
  externHandle : ExternHandle := .none
  externHandleDataPtr : Option ProxyId := none
  header : Option RequestProgress := none
  outputListEmpty : Bool := true
  isWebsocket : Bool := false
  closeSocket : Bool := false
  postStreamingActive : Bool := false
  headerBufferPos : UInt32 := 0
  runSslAccept : Bool := false
  bytesReceived : UInt64 := 0
  websocketChunkList : List (List UInt8) := []
  websocketSendPos : Int32 := 0
  writeEvents : Bool := false
  rxAt : UInt32 := 0
  txAt : UInt32 := 0
  phaseAt : UInt32 := 0
  wsPingAt : UInt32 := 0
  wsOutSince : UInt32 := 0
  wsPingSentAt : UInt32 := 0
  sparedAt : UInt32 := 0
  wsChunksSent : UInt32 := 0
  wsPingSeq : UInt32 := 0
  wsPingEnd : UInt32 := 0
  deriving DecidableEq, Repr

/-- The configured limits in seconds. One that is not positive is switched off. -/
structure TimeoutConfig where
  toRequestHeader : Int32 := 30
  toKeepAlive : Int32 := 120
  toReceiveIdle : Int32 := 120
  toSendIdle : Int32 := 120
  toWsPingIdle : Int32 := 60
  toWsPong : Int32 := 30
  toProxyConnect : Int32 := 10
  toProxyBackendHeader : Int32 := 300
  toClosing : Int32 := 5
  deriving DecidableEq, Repr

/-- The proxy connections in memory. -/
abbrev ProxyMemory : Type := ProxyId → Option ReverseProxyConnection

/-- The sockets in the container, from first to last, the records in memory, and
`loop_sweep_pending`. -/
structure Container where
  ids : List SockId
  socks : SockId → Option TimedSocket
  proxies : ProxyMemory
  loopSweepPending : Bool := false

/-- The record of a socket in memory. -/
def Container.setSock (t : Container) (a : SockId) (sock : TimedSocket) : Container :=
  { t with socks := Function.update t.socks a (some sock) }

/-- The record of a proxy connection in memory. -/
def Container.setProxy (t : Container) (p : ProxyId) (proxy : ReverseProxyConnection) : Container :=
  { t with proxies := Function.update t.proxies p (some proxy) }

/-! ## What the sweep does with a socket -/

/-- `conn_expired` -/
def connExpired (now since : UInt32) (limit : Int32) : Bool :=
  0 < limit && since ≠ 0 && limit.toUInt32 ≤ now - since

/-- `conn_later` -/
def connLater (a b : UInt32) : UInt32 := if 0 < (a - b).toInt32 then a else b

/-- What the sweep does with a socket. -/
inductive ConnAction where
  | keep
  | close
  | closeIfIdle
  | ping
  deriving DecidableEq, Repr

/-- An action, when the deadline has passed. -/
def ConnAction.when (action : ConnAction) (expired : Bool) : ConnAction :=
  if expired then action else .keep

/-- `timed_state` and `state_at`: when the sweep has seen the state first. -/
def noteProxyState (now : UInt32) (proxy : ReverseProxyConnection) : ReverseProxyConnection :=
  if proxy.state ≠ proxy.timedState then { proxy with timedState := proxy.state, stateAt := now }
  else proxy

/-- The deadlines of `conn_timeout_proxy`. -/
def proxyDeadline (cfg : TimeoutConfig) (now : UInt32) (sock : TimedSocket)
    (proxy : ReverseProxyConnection) : ConnAction :=
  match proxy.state with
  | .recvClientHeader =>
      ConnAction.closeIfIdle.when (connExpired now sock.phaseAt cfg.toRequestHeader)
  | .recvClientBody => ConnAction.closeIfIdle.when (connExpired now sock.rxAt cfg.toReceiveIdle)
  | .connectBackend | .sendToBackend =>
      ConnAction.close.when
        (connExpired now (connLater proxy.stateAt proxy.backendAt) cfg.toProxyConnect)
  | .recvBackendHeader =>
      ConnAction.close.when (connExpired now proxy.stateAt cfg.toProxyBackendHeader)
  | .streaming | .streamingWaitWrite =>
      ConnAction.close.when (connExpired now (connLater sock.txAt proxy.backendAt) cfg.toSendIdle)
  | .websocketTunnel | .error | .done => .keep

/-- `conn_timeout_proxy` -/
def connTimeoutProxy (cfg : TimeoutConfig) (now : UInt32) (sock : TimedSocket)
    (proxy : ReverseProxyConnection) : ConnAction × ReverseProxyConnection :=
  let proxy := noteProxyState now proxy
  (proxyDeadline cfg now sock proxy, proxy)

/-- The answer to a ping, or the wait for it. -/
def awaitPong (cfg : TimeoutConfig) (now : UInt32) (sock : TimedSocket) (pingOut : Bool) :
    ConnAction × TimedSocket :=
  if 0 ≤ (sock.rxAt - sock.wsPingAt).toInt32 then
    (.keep, { sock with wsPingAt := 0, wsPingSentAt := 0 })
  else if sock.wsPingSentAt = 0 then
    (.keep, if pingOut then { sock with wsPingSentAt := now } else sock)
  else (ConnAction.close.when (connExpired now sock.wsPingSentAt cfg.toWsPong), sock)

/-- `ws_out_since`: since when the sweep has seen output waiting. -/
def noteOutSince (now : UInt32) (sock : TimedSocket) (outWaiting : Bool) : TimedSocket :=
  if !outWaiting then { sock with wsOutSince := 0 }
  else if sock.wsOutSince = 0 then { sock with wsOutSince := now }
  else sock

/-- The part of `conn_timeout_websocket` behind the deadline of its output. -/
def connTimeoutPing (cfg : TimeoutConfig) (now : UInt32) (sock : TimedSocket)
    (outWaiting pingOut : Bool) : ConnAction × TimedSocket :=
  if sock.closeSocket then
    if outWaiting then (.keep, sock)
    else
      (ConnAction.close.when (connExpired now (connLater sock.rxAt sock.txAt) cfg.toClosing), sock)
  else if sock.wsPingAt ≠ 0 then awaitPong cfg now sock pingOut
  else (ConnAction.ping.when (connExpired now sock.rxAt cfg.toWsPingIdle), sock)

/-- `conn_timeout_websocket` -/
def connTimeoutWebsocket (cfg : TimeoutConfig) (now : UInt32) (sock : TimedSocket)
    (outWaiting pingOut : Bool) : ConnAction × TimedSocket :=
  if outWaiting && sock.wsOutSince ≠ 0 &&
      connExpired now (connLater sock.wsOutSince sock.txAt) cfg.toSendIdle then (.close, sock)
  else connTimeoutPing cfg now (noteOutSince now sock outWaiting) outWaiting pingOut

/-- The last ping of a websocket has been written: its chunk is gone, or written past it. -/
def pingOut (sock : TimedSocket) : Bool :=
  0 ≤ (sock.wsChunksSent - sock.wsPingSeq).toInt32 ||
    (sock.wsChunksSent + 1 = sock.wsPingSeq && sock.wsPingEnd ≤ sock.websocketSendPos.toUInt32)

/-- The last part of `conn_timeout_action`: a connection that the HTTP parser owns. -/
def connTimeoutRequest (cfg : TimeoutConfig) (now : UInt32) (sock : TimedSocket)
    (header : RequestProgress) : ConnAction :=
  if sock.postStreamingActive || header.headerComplete then
    ConnAction.closeIfIdle.when (connExpired now sock.rxAt cfg.toReceiveIdle)
  else if 0 < sock.headerBufferPos || 0 < header.parsedBytes || sock.runSslAccept ||
      sock.bytesReceived = 0 then
    ConnAction.closeIfIdle.when (connExpired now sock.phaseAt cfg.toRequestHeader)
  else ConnAction.closeIfIdle.when (connExpired now sock.txAt cfg.toKeepAlive)

/-- `conn_timeout_action` -/
def connTimeoutAction (cfg : TimeoutConfig) (now : UInt32) (proxies : ProxyMemory)
    (sock : TimedSocket) : Option (ConnAction × TimedSocket × ProxyMemory) :=
  if sock.server then some (.keep, sock, proxies)
  else if sock.externHandle = .none && sock.header = none then some (.keep, sock, proxies)
  else if !sock.outputListEmpty then
    some (ConnAction.close.when (connExpired now sock.txAt cfg.toSendIdle), sock, proxies)
  else if sock.isWebsocket then
    let (action, sock) :=
      connTimeoutWebsocket cfg now sock (!sock.websocketChunkList.isEmpty) (pingOut sock)
    some (action, sock, proxies)
  else if sock.closeSocket then
    some (ConnAction.close.when (connExpired now (connLater sock.rxAt sock.txAt) cfg.toClosing),
      sock, proxies)
  else
    match sock.externHandle, sock.externHandleDataPtr, sock.header with
    | .reverseProxyClient, some p, _ => do
        let proxy ← proxies p
        let (action, proxy) := connTimeoutProxy cfg now sock proxy
        some (action, sock, Function.update proxies p (some proxy))
    | .none, _, some header => some (connTimeoutRequest cfg now sock header, sock, proxies)
    | _, _, _ => some (.keep, sock, proxies)

/-! ## The walk -/

/-- `CONN_SWEEP_MAX` -/
def connSweepMax : Nat := 64

/-- The sockets to close, each with whether input spares it, and those to ping. -/
structure Collected where
  closeList : List (SockId × Bool) := []
  pingList : List SockId := []

/-- The records in memory behind a look at a socket. -/
def Container.visit (t : Container) (a : SockId) (sock : TimedSocket) (proxies : ProxyMemory) :
    Container :=
  { t with socks := Function.update t.socks a (some sock), proxies := proxies }

/-- What the walk of `connTimeoutSweep` does with an action. The flag is false where it ends. -/
def takeAction (now : UInt32) (a : SockId) (action : ConnAction) (sock : TimedSocket)
    (t : Container) (c : Collected) : Container × Collected × Bool :=
  match action with
  | .keep => (t.setSock a { sock with sparedAt := 0 }, c, true)
  | .ping =>
      if c.pingList.length < connSweepMax then (t, { c with pingList := c.pingList ++ [a] }, true)
      else ({ t with loopSweepPending := true }, c, true)
  | action =>
      if action = .closeIfIdle && sock.sparedAt ≠ 0 && now - sock.sparedAt < 2 then (t, c, true)
      else if c.closeList.length = connSweepMax then ({ t with loopSweepPending := true }, c, false)
      else
        (t, { c with closeList := c.closeList ++ [(a, decide (action = .closeIfIdle))] }, true)

/-- The walk of `connTimeoutSweep`. -/
def collect (cfg : TimeoutConfig) (now : UInt32) :
    List SockId → Container → Collected → Option (Container × Collected)
  | [], t, c => some (t, c)
  | a :: ids, t, c => do
      let sock ← t.socks a
      let (action, sock, proxies) ← connTimeoutAction cfg now t.proxies sock
      let (t, c, more) := takeAction now a action sock (t.visit a sock proxies) c
      if more then collect cfg now ids t c else some (t, c)

/-! ## Pings -/

/-- A ping frame without payload. -/
def pingFrame : List UInt8 := [0x89, 0x00]

/-- `conn_send_ping` -/
def connSendPing (now : UInt32) (sock : TimedSocket) : TimedSocket :=
  if sock.closeSocket then sock
  else
    let chunks := writeChunk sock.websocketChunkList pingFrame
    { sock with
      websocketChunkList := chunks
      writeEvents := sock.writeEvents || sock.websocketChunkList.isEmpty
      wsPingSeq := sock.wsChunksSent + UInt32.ofNat chunks.length
      wsPingEnd := UInt32.ofNat (chunks.getLastD []).length
      wsPingAt := now
      wsPingSentAt := 0 }

/-- The pings of a sweep. -/
def sendPings (now : UInt32) : List SockId → Container → Option Container
  | [], t => some t
  | a :: ids, t => do
      let sock ← t.socks a
      sendPings now ids (t.setSock a (connSendPing now sock))

/-! ## Closing -/

/-- `deleteSocket` -/
def deleteSocket (a : SockId) (t : Container) : Option Container := do
  let sock ← t.socks a
  let t := { t with ids := t.ids.erase a }
  some (t.setSock a { sock with closeSocket := true })

/-- `WebserverFree` of a `socket_info`. -/
def freeSock (a : SockId) (t : Container) : Container :=
  { t with socks := Function.update t.socks a none }

/-- The backend of a proxy connection in `proxy_cleanup_connection`; its
`extern_handle_data_ptr` is null, so it is freed without more. -/
def releaseBackend (proxy : ReverseProxyConnection) (t : Container) : Option Container :=
  match proxy.backendSock with
  | none => some t
  | some b => do
      let t ← deleteSocket b t
      some (freeSock b t)

/-- The client of a proxy connection in `proxy_cleanup_connection`. -/
def releaseClient (proxy : ReverseProxyConnection) (t : Container) : Option Container :=
  match proxy.clientSock with
  | none => some t
  | some c => do
      let sock ← t.socks c
      some (t.setSock c { sock with externHandle := .none, externHandleDataPtr := none })

/-- `reverse_proxy_cleanup` with `proxy_cleanup_connection`. -/
def reverseProxyCleanup (a : SockId) (t : Container) : Option Container := do
  let sock ← t.socks a
  match sock.externHandleDataPtr with
  | none => some t
  | some p =>
      let t := t.setSock a { sock with externHandleDataPtr := none }
      let proxy ← t.proxies p
      let proxy := if proxy.backendSock = some a then { proxy with backendSock := none } else proxy
      let t ← releaseBackend proxy (t.setProxy p proxy)
      let t ← releaseClient proxy t
      some { t with proxies := Function.update t.proxies p none }

/-- `WebserverConnectionManagerCloseRequest`: `deleteSocket`, then `WebserverFreeSocketInfo`. -/
def closeRequest (a : SockId) (t : Container) : Option Container := do
  let t ← deleteSocket a t
  let t ← reverseProxyCleanup a t
  some (freeSock a t)

/-- The sockets to close: one that was found idle is spared once, if it has input. -/
def closeAll (now : UInt32) (connHasPendingInput : SockId → Bool) :
    List (SockId × Bool) → Container → Option Container
  | [], t => some t
  | (a, ifIdle) :: entries, t => do
      let sock ← t.socks a
      if ifIdle && sock.sparedAt = 0 && connHasPendingInput a then
        closeAll now connHasPendingInput entries (t.setSock a { sock with sparedAt := now })
      else do
        let t ← closeRequest a t
        closeAll now connHasPendingInput entries t

/-- `connTimeoutSweep` -/
def connTimeoutSweep (cfg : TimeoutConfig) (now : UInt32) (connHasPendingInput : SockId → Bool)
    (t : Container) : Option Container := do
  let (t, c) ← collect cfg now t.ids { t with loopSweepPending := false } {}
  let t ← sendPings now c.pingList t
  closeAll now connHasPendingInput c.closeList t

/-- Sweeps one after the other in the same second, with no events in between. What
`connHasPendingInput` answers may be different each time. -/
def sweeps (cfg : TimeoutConfig) (now : UInt32) :
    (connHasPendingInput : Nat → SockId → Bool) → Nat → Container → Option Container
  | _, 0, t => some t
  | connHasPendingInput, n + 1, t => do
      let t ← connTimeoutSweep cfg now (connHasPendingInput 0) t
      sweeps cfg now (fun i => connHasPendingInput (i + 1)) n t

end CWebUI.Timeouts
