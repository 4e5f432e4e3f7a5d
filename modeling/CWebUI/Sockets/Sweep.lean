import CWebUI.Sockets.Timeouts

set_option autoImplicit false

/-! # The timeout sweep does its work

A sweep has more to do only when it has filled one of its lists. Each socket in the lists is
closed, spared or pinged, and none of these happens to a socket twice in the same second, so the
sweeps of one second come to an end. Listeners and the backends of proxy connections are never
picked.
-/

namespace CWebUI.Timeouts

open CWebUI.Sockets (SockId ExternHandle)
open CWebUI.Proxy (ProxyState)
open CWebUI.Websocket (writeChunk)

/-! ## What the sweep does not change -/

/-- A socket without the fields that the sweep writes. -/
def core (sock : TimedSocket) : TimedSocket :=
  { sock with
    websocketChunkList := []
    writeEvents := false
    wsPingAt := 0
    wsOutSince := 0
    wsPingSentAt := 0
    sparedAt := 0
    wsPingSeq := 0
    wsPingEnd := 0 }

/-- A proxy connection without the fields that the sweep writes. -/
def proxyCore (proxy : ReverseProxyConnection) : ReverseProxyConnection :=
  { proxy with timedState := .recvClientHeader, stateAt := 0 }

/-- The same container but for the fields that the sweep writes. -/
structure SameCore (t t' : Container) : Prop where
  ids : t'.ids = t.ids
  socks : ∀ a, (t'.socks a).map core = (t.socks a).map core
  proxies : ∀ p, (t'.proxies p).map proxyCore = (t.proxies p).map proxyCore

theorem SameCore.refl (t : Container) : SameCore t t := ⟨rfl, fun _ => rfl, fun _ => rfl⟩

theorem SameCore.trans {t t' t'' : Container} (h : SameCore t t') (h' : SameCore t' t'') :
    SameCore t t'' :=
  ⟨h'.ids.trans h.ids, fun a => (h'.socks a).trans (h.socks a),
    fun p => (h'.proxies p).trans (h.proxies p)⟩

/-- A socket is there before and after, or neither. -/
theorem SameCore.sock {t t' : Container} (h : SameCore t t') {a : SockId} {sock : TimedSocket}
    (hsock : t.socks a = some sock) : ∃ sock', t'.socks a = some sock' ∧ core sock' = core sock := by
  have hmap := h.socks a
  rw [hsock, Option.map_some, Option.map_eq_some_iff] at hmap
  exact hmap

/-- A proxy connection is there before and after, or neither. -/
theorem SameCore.proxy {t t' : Container} (h : SameCore t t') {p : ProxyId}
    {proxy : ReverseProxyConnection} (hproxy : t.proxies p = some proxy) :
    ∃ proxy', t'.proxies p = some proxy' ∧ proxyCore proxy' = proxyCore proxy := by
  have hmap := h.proxies p
  rw [hproxy, Option.map_some, Option.map_eq_some_iff] at hmap
  exact hmap

theorem SameCore.symm {t t' : Container} (h : SameCore t t') : SameCore t' t :=
  ⟨h.ids.symm, fun a => (h.socks a).symm, fun p => (h.proxies p).symm⟩

theorem setSock_self {t : Container} {a : SockId} {sock : TimedSocket} :
    (t.setSock a sock).socks a = some sock := Function.update_self ..

theorem setSock_others {t : Container} {a b : SockId} {sock : TimedSocket} (h : b ≠ a) :
    (t.setSock a sock).socks b = t.socks b := Function.update_of_ne h ..

/-- A socket is written without a change of its core. -/
theorem sameCore_setSock {t : Container} {a : SockId} {sock sock' : TimedSocket}
    (h : t.socks a = some sock) (hcore : core sock' = core sock) : SameCore t (t.setSock a sock') := by
  refine ⟨rfl, fun b => ?_, fun _ => rfl⟩
  by_cases hb : b = a
  · subst hb
    simp [Container.setSock, h, hcore]
  · simp [Container.setSock, Function.update_of_ne hb]

/-! ## One socket -/

/-- The deadline of a socket that is closed unless it has input has passed. -/
def idleExpired (cfg : TimeoutConfig) (now : UInt32) (proxies : ProxyMemory) (sock : TimedSocket) :
    Bool :=
  !sock.server && sock.outputListEmpty && !sock.isWebsocket && !sock.closeSocket &&
    match sock.externHandle, sock.externHandleDataPtr, sock.header with
    | .reverseProxyClient, some p, _ =>
        match (proxies p).map ReverseProxyConnection.state with
        | some .recvClientHeader => connExpired now sock.phaseAt cfg.toRequestHeader
        | some .recvClientBody => connExpired now sock.rxAt cfg.toReceiveIdle
        | _ => false
    | .none, _, some header => connTimeoutRequest cfg now sock header = .closeIfIdle
    | _, _, _ => false

/-- A backend of a proxy connection with nothing to send that is not to be closed. -/
def quietBackend (sock : TimedSocket) : Bool :=
  (sock.externHandle = .reverseProxyBackend || sock.externHandle = .none && sock.header = none) &&
    sock.outputListEmpty && !sock.isWebsocket && !sock.closeSocket

theorem idleExpired_core (cfg : TimeoutConfig) (now : UInt32) (proxies : ProxyMemory)
    (sock : TimedSocket) : idleExpired cfg now proxies sock =
      idleExpired cfg now (fun p => (proxies p).map proxyCore) (core sock) := by
  unfold idleExpired
  simp only [Option.map_map]
  rfl

/-- What a look at a socket does. -/
structure Visit (cfg : TimeoutConfig) (now : UInt32) (proxies proxies' : ProxyMemory)
    (sock sock' : TimedSocket) (action : ConnAction) : Prop where
  core : core sock' = core sock
  sparedAt : sock'.sparedAt = sock.sparedAt
  chunks : sock'.websocketChunkList = sock.websocketChunkList
  proxyCores : ∀ p, (proxies' p).map proxyCore = (proxies p).map proxyCore
  pingAt : sock'.wsPingAt = sock.wsPingAt ∨
    sock'.wsPingAt = 0 ∧ sock.isWebsocket = true ∧ 0 ≤ (sock.rxAt - sock.wsPingAt).toInt32
  ping : action = .ping → sock.isWebsocket = true ∧
    connExpired now sock.rxAt cfg.toWsPingIdle = true ∧ sock'.wsPingAt = 0 ∧
      sock.closeSocket = false
  idle : action = .closeIfIdle ↔ idleExpired cfg now proxies sock = true
  unpicked : sock.server = true ∨ quietBackend sock = true → action = .keep

theorem when_eq_iff {action : ConnAction} {expired : Bool} (h : action ≠ .keep) :
    action.when expired = action ↔ expired = true := by
  cases expired with
  | true => simp [ConnAction.when]
  | false =>
      simp only [ConnAction.when, Bool.false_eq_true, if_false, iff_false]
      exact fun h' => h h'.symm

theorem when_ne {action other : ConnAction} (expired : Bool) (h : action ≠ other)
    (hkeep : other ≠ .keep) : action.when expired ≠ other := by
  cases expired with
  | true => exact h
  | false => exact fun h' => hkeep h'.symm

/-- What `conn_timeout_websocket` does. -/
structure WebsocketVisit (cfg : TimeoutConfig) (now : UInt32) (sock sock' : TimedSocket)
    (action : ConnAction) : Prop where
  core : core sock' = core sock
  sparedAt : sock'.sparedAt = sock.sparedAt
  chunks : sock'.websocketChunkList = sock.websocketChunkList
  pingAt : sock'.wsPingAt = sock.wsPingAt ∨
    sock'.wsPingAt = 0 ∧ 0 ≤ (sock.rxAt - sock.wsPingAt).toInt32
  ping : action = .ping → connExpired now sock.rxAt cfg.toWsPingIdle = true ∧
    sock'.wsPingAt = 0 ∧ sock.closeSocket = false
  notIdle : action ≠ .closeIfIdle

theorem awaitPong_visit (cfg : TimeoutConfig) (now : UInt32) (sock : TimedSocket) (out : Bool) :
    WebsocketVisit cfg now sock (awaitPong cfg now sock out).2 (awaitPong cfg now sock out).1 := by
  unfold awaitPong
  split_ifs with hanswer hsent hout
  · exact ⟨rfl, rfl, rfl, Or.inr ⟨rfl, hanswer⟩, by simp, by simp⟩
  · exact ⟨rfl, rfl, rfl, Or.inl rfl, by simp, by simp⟩
  · exact ⟨rfl, rfl, rfl, Or.inl rfl, by simp, by simp⟩
  · exact ⟨rfl, rfl, rfl, Or.inl rfl, fun h => absurd h (when_ne _ (by decide) (by decide)),
      when_ne _ (by decide) (by decide)⟩

theorem connTimeoutPing_visit (cfg : TimeoutConfig) (now : UInt32) (sock : TimedSocket)
    (outWaiting out : Bool) :
    WebsocketVisit cfg now sock (connTimeoutPing cfg now sock outWaiting out).2
      (connTimeoutPing cfg now sock outWaiting out).1 := by
  unfold connTimeoutPing
  split_ifs with hclose hout hping
  · exact ⟨rfl, rfl, rfl, Or.inl rfl, by simp, by simp⟩
  · exact ⟨rfl, rfl, rfl, Or.inl rfl, fun h => absurd h (when_ne _ (by decide) (by decide)),
      when_ne _ (by decide) (by decide)⟩
  · exact awaitPong_visit cfg now _ out
  · refine ⟨rfl, rfl, rfl, Or.inl rfl, fun h => ?_, when_ne _ (by decide) (by decide)⟩
    rw [when_eq_iff (by decide)] at h
    exact ⟨h, not_not.mp hping, by simpa using hclose⟩

theorem noteOutSince_eq (now : UInt32) (sock : TimedSocket) (outWaiting : Bool) :
    ∃ since, noteOutSince now sock outWaiting = { sock with wsOutSince := since } := by
  unfold noteOutSince
  split_ifs
  · exact ⟨0, rfl⟩
  · exact ⟨now, rfl⟩
  · exact ⟨sock.wsOutSince, rfl⟩

theorem connTimeoutWebsocket_visit (cfg : TimeoutConfig) (now : UInt32) (sock : TimedSocket)
    (outWaiting out : Bool) :
    WebsocketVisit cfg now sock (connTimeoutWebsocket cfg now sock outWaiting out).2
      (connTimeoutWebsocket cfg now sock outWaiting out).1 := by
  unfold connTimeoutWebsocket
  split_ifs with hout
  · exact ⟨rfl, rfl, rfl, Or.inl rfl, by simp, by simp⟩
  · obtain ⟨since, heq⟩ := noteOutSince_eq now sock outWaiting
    have h := connTimeoutPing_visit cfg now (noteOutSince now sock outWaiting) outWaiting out
    rw [heq] at h ⊢
    exact ⟨h.core, h.sparedAt, h.chunks, h.pingAt, h.ping, h.notIdle⟩

theorem noteProxyState_core (now : UInt32) (proxy : ReverseProxyConnection) :
    proxyCore (noteProxyState now proxy) = proxyCore proxy := by
  unfold noteProxyState
  split_ifs <;> rfl

theorem noteProxyState_state (now : UInt32) (proxy : ReverseProxyConnection) :
    (noteProxyState now proxy).state = proxy.state := by
  unfold noteProxyState
  split_ifs <;> rfl

theorem proxyDeadline_idle (cfg : TimeoutConfig) (now : UInt32) (sock : TimedSocket)
    (proxy : ReverseProxyConnection) :
    proxyDeadline cfg now sock proxy = .closeIfIdle ↔
      (match some proxy.state with
        | some .recvClientHeader => connExpired now sock.phaseAt cfg.toRequestHeader
        | some .recvClientBody => connExpired now sock.rxAt cfg.toReceiveIdle
        | _ => false) = true := by
  unfold proxyDeadline
  cases proxy.state with
  | recvClientHeader => exact when_eq_iff (by decide)
  | recvClientBody => exact when_eq_iff (by decide)
  | connectBackend => exact iff_of_false (when_ne _ (by decide) (by decide)) (by simp)
  | sendToBackend => exact iff_of_false (when_ne _ (by decide) (by decide)) (by simp)
  | recvBackendHeader => exact iff_of_false (when_ne _ (by decide) (by decide)) (by simp)
  | streaming => exact iff_of_false (when_ne _ (by decide) (by decide)) (by simp)
  | streamingWaitWrite => exact iff_of_false (when_ne _ (by decide) (by decide)) (by simp)
  | websocketTunnel => simp
  | error => simp
  | done => simp

/-- A proxy connection and a request are never pinged. -/
theorem proxyDeadline_ne_ping (cfg : TimeoutConfig) (now : UInt32) (sock : TimedSocket)
    (proxy : ReverseProxyConnection) : proxyDeadline cfg now sock proxy ≠ .ping := by
  unfold proxyDeadline
  split <;> first | exact when_ne _ (by decide) (by decide) | decide

theorem connTimeoutRequest_ne_ping (cfg : TimeoutConfig) (now : UInt32) (sock : TimedSocket)
    (header : RequestProgress) : connTimeoutRequest cfg now sock header ≠ .ping := by
  unfold connTimeoutRequest
  split_ifs <;> exact when_ne _ (by decide) (by decide)

/-- **A look at a socket.** -/
theorem connTimeoutAction_visit {cfg : TimeoutConfig} {now : UInt32}
    {proxies proxies' : ProxyMemory} {sock sock' : TimedSocket} {action : ConnAction}
    (h : connTimeoutAction cfg now proxies sock = some (action, sock', proxies')) :
    Visit cfg now proxies proxies' sock sock' action := by
  unfold connTimeoutAction at h
  split_ifs at h with hserver hother hout hws hclose
  · cases h
    exact ⟨rfl, rfl, rfl, fun _ => rfl, Or.inl rfl, by simp, by simp [idleExpired, hserver], by simp⟩
  · cases h
    rw [Bool.and_eq_true, decide_eq_true_eq, decide_eq_true_eq] at hother
    exact ⟨rfl, rfl, rfl, fun _ => rfl, Or.inl rfl, by simp, by simp [idleExpired, hother], by simp⟩
  · cases h
    have hempty : sock.outputListEmpty = false := by simpa using hout
    refine ⟨rfl, rfl, rfl, fun _ => rfl, Or.inl rfl, fun h => ?_, ?_, ?_⟩
    · exact absurd h (when_ne _ (by decide) (by decide))
    · exact iff_of_false (when_ne _ (by decide) (by decide)) (by simp [idleExpired, hempty])
    · simp [hserver, quietBackend, hempty]
  · have hv := connTimeoutWebsocket_visit cfg now sock (!sock.websocketChunkList.isEmpty)
      (pingOut sock)
    cases h
    refine ⟨hv.core, hv.sparedAt, hv.chunks, fun _ => rfl, ?_, fun hp => ⟨hws, hv.ping hp⟩, ?_, ?_⟩
    · exact hv.pingAt.imp_right fun h => ⟨h.1, hws, h.2⟩
    · exact iff_of_false hv.notIdle (by simp [idleExpired, hws])
    · simp [hserver, quietBackend, hws]
  · cases h
    refine ⟨rfl, rfl, rfl, fun _ => rfl, Or.inl rfl, fun h => ?_, ?_, ?_⟩
    · exact absurd h (when_ne _ (by decide) (by decide))
    · exact iff_of_false (when_ne _ (by decide) (by decide)) (by simp [idleExpired, hclose])
    · simp [hserver, quietBackend, hclose]
  · have hidle : idleExpired cfg now proxies sock =
        match sock.externHandle, sock.externHandleDataPtr, sock.header with
        | .reverseProxyClient, some p, _ =>
            match (proxies p).map ReverseProxyConnection.state with
            | some .recvClientHeader => connExpired now sock.phaseAt cfg.toRequestHeader
            | some .recvClientBody => connExpired now sock.rxAt cfg.toReceiveIdle
            | _ => false
        | .none, _, some header => connTimeoutRequest cfg now sock header = .closeIfIdle
        | _, _, _ => false := by
      have h1 : sock.outputListEmpty = true := by simpa using hout
      simp [idleExpired, hserver, h1, hws, hclose]
    split at h
    · next p hhandle hptr =>
        simp only [Option.bind_eq_bind, Option.bind_eq_some_iff, connTimeoutProxy] at h
        obtain ⟨proxy, hproxy, heq⟩ := h
        cases heq
        refine ⟨rfl, rfl, rfl, fun q => ?_, Or.inl rfl,
          fun h => absurd h (proxyDeadline_ne_ping _ _ _ _), ?_, ?_⟩
        · by_cases hq : q = p
          · subst hq
            simp [hproxy, noteProxyState_core]
          · simp [Function.update_of_ne hq]
        · rw [hidle, hhandle, hptr, proxyDeadline_idle, noteProxyState_state]
          dsimp only
          rw [hproxy, Option.map_some]
        · simp [hserver, quietBackend, hhandle]
    · next header hhandle hheader =>
        cases h
        refine ⟨rfl, rfl, rfl, fun _ => rfl, Or.inl rfl,
          fun h => absurd h (connTimeoutRequest_ne_ping _ _ _ _), ?_, ?_⟩
        · rw [hidle, hhandle, hheader]
          simp
        · simp [hserver, quietBackend, hhandle, hheader]
    · next h1 h2 =>
        cases h
        refine ⟨rfl, rfl, rfl, fun _ => rfl, Or.inl rfl, by simp, ?_, by simp⟩
        rw [hidle]
        split
        · next p hhandle hptr => exact absurd hptr (h1 p hhandle)
        · next header hhandle hheader => exact absurd hheader (h2 header hhandle)
        · simp

/-- A look at a socket has a result, where its proxy connection is in memory. -/
theorem connTimeoutAction_isSome (cfg : TimeoutConfig) (now : UInt32) {proxies : ProxyMemory}
    {sock : TimedSocket}
    (h : ∀ p, sock.externHandleDataPtr = some p → ∃ proxy, proxies p = some proxy) :
    ∃ r, connTimeoutAction cfg now proxies sock = some r := by
  unfold connTimeoutAction
  split_ifs
  · exact ⟨_, rfl⟩
  · exact ⟨_, rfl⟩
  · exact ⟨_, rfl⟩
  · exact ⟨_, rfl⟩
  · exact ⟨_, rfl⟩
  · split
    · next p _ hptr =>
        obtain ⟨proxy, hproxy⟩ := h p hptr
        rw [hproxy]
        exact ⟨_, rfl⟩
    · exact ⟨_, rfl⟩
    · exact ⟨_, rfl⟩

/-! ## The walk -/

/-- What the walk has done with a socket, when it has collected these. -/
structure Walked (cfg : TimeoutConfig) (now : UInt32) (proxies : ProxyMemory)
    (closes : List (SockId × Bool)) (pings : List SockId) (a : SockId)
    (sock sock' : TimedSocket) : Prop where
  core : core sock' = core sock
  chunks : sock'.websocketChunkList = sock.websocketChunkList
  sparedAt : sock'.sparedAt = sock.sparedAt ∨
    sock'.sparedAt = 0 ∧ idleExpired cfg now proxies sock = false
  pingAt : sock'.wsPingAt = sock.wsPingAt ∨
    sock'.wsPingAt = 0 ∧ sock.isWebsocket = true ∧ 0 ≤ (sock.rxAt - sock.wsPingAt).toInt32
  ping : a ∈ pings → sock.isWebsocket = true ∧
    connExpired now sock.rxAt cfg.toWsPingIdle = true ∧ sock'.wsPingAt = 0 ∧
      sock.closeSocket = false ∧ a ∉ closes.map Prod.fst
  close : ∀ ifIdle, (a, ifIdle) ∈ closes → ifIdle = idleExpired cfg now proxies sock ∧
    (ifIdle = true → sock.sparedAt = 0 ∨ ¬ now - sock.sparedAt < 2)
  unpicked : sock.server = true ∨ quietBackend sock = true →
    a ∉ closes.map Prod.fst ∧ a ∉ pings

theorem not_mem_of_map {closes : List (SockId × Bool)} {a : SockId}
    (h : a ∉ closes.map Prod.fst) (ifIdle : Bool) : (a, ifIdle) ∉ closes :=
  fun hmem => h (List.mem_map_of_mem hmem)

/-- A socket that the walk has not come to. -/
theorem Walked.unseen (cfg : TimeoutConfig) (now : UInt32) (proxies : ProxyMemory)
    {closes : List (SockId × Bool)} {pings : List SockId} {a : SockId} (sock : TimedSocket)
    (hcloses : a ∉ closes.map Prod.fst) (hpings : a ∉ pings) :
    Walked cfg now proxies closes pings a sock sock :=
  ⟨rfl, rfl, Or.inl rfl, Or.inl rfl, fun h => absurd h hpings,
    fun b h => absurd h (not_mem_of_map hcloses b), fun _ => ⟨hcloses, hpings⟩⟩

/-- More is collected from other sockets. -/
theorem Walked.mono {cfg : TimeoutConfig} {now : UInt32} {proxies proxies' : ProxyMemory}
    {closes closes' : List (SockId × Bool)} {pings pings' : List SockId} {a : SockId}
    {sock sock' : TimedSocket} (h : Walked cfg now proxies closes pings a sock sock')
    (hidle : idleExpired cfg now proxies' sock = idleExpired cfg now proxies sock)
    (hcloses : ∀ ifIdle, (a, ifIdle) ∈ closes' → (a, ifIdle) ∈ closes)
    (hpings : a ∈ pings' → a ∈ pings) : Walked cfg now proxies' closes' pings' a sock sock' := by
  have hkeys : a ∈ closes'.map Prod.fst → a ∈ closes.map Prod.fst := by
    intro hmem
    obtain ⟨⟨_, ifIdle⟩, hentry, rfl⟩ := List.mem_map.mp hmem
    exact List.mem_map_of_mem (hcloses ifIdle hentry)
  refine ⟨h.core, h.chunks, ?_, h.pingAt, fun hp => ?_, fun b hb => ?_, fun hu => ?_⟩
  · rw [hidle]
    exact h.sparedAt
  · obtain ⟨h1, h2, h3, h4, h5⟩ := h.ping (hpings hp)
    exact ⟨h1, h2, h3, h4, fun hmem => h5 (hkeys hmem)⟩
  · rw [hidle]
    exact h.close b (hcloses b hb)
  · obtain ⟨h1, h2⟩ := h.unpicked hu
    exact ⟨fun hmem => h1 (hkeys hmem), fun hmem => h2 (hpings hmem)⟩

/-- What a walk over these sockets has done. -/
structure WalkSpec (cfg : TimeoutConfig) (now : UInt32) (ids : List SockId) (t t' : Container)
    (c : Collected) (closes : List (SockId × Bool)) (pings : List SockId) : Prop where
  core : SameCore t t'
  others : ∀ a, a ∉ ids → t'.socks a = t.socks a
  closes_sub : (closes.map Prod.fst).Sublist ids
  pings_sub : pings.Sublist ids
  closes_le : (c.closeList ++ closes).length ≤ connSweepMax
  pings_le : (c.pingList ++ pings).length ≤ connSweepMax
  pending : t'.loopSweepPending = true → t.loopSweepPending = true ∨
    (c.closeList ++ closes).length = connSweepMax ∨ (c.pingList ++ pings).length = connSweepMax
  walked : ∀ a ∈ ids, ∀ sock, t.socks a = some sock → ∃ sock', t'.socks a = some sock' ∧
    Walked cfg now t.proxies closes pings a sock sock'

theorem SameCore.idleExpired_eq {t t' : Container} (h : SameCore t t') (cfg : TimeoutConfig)
    (now : UInt32) {sock sock' : TimedSocket} (hcore : core sock' = core sock) :
    idleExpired cfg now t'.proxies sock' = idleExpired cfg now t.proxies sock := by
  rw [idleExpired_core cfg now t'.proxies, idleExpired_core cfg now t.proxies, hcore]
  congr 1
  funext p
  exact h.proxies p

/-- What is done with the action of a socket: it is collected or not, and the rest of the container
stays as it is. -/
structure Taken (cfg : TimeoutConfig) (now : UInt32) (a : SockId) (t t' : Container)
    (c : Collected) (more : Bool) (closes : List (SockId × Bool)) (pings : List SockId)
    (sock : TimedSocket) : Prop where
  core : SameCore t t'
  others : ∀ b, b ≠ a → t'.socks b = t.socks b
  closes_sub : (closes.map Prod.fst).Sublist [a]
  pings_sub : pings.Sublist [a]
  closes_le : (c.closeList ++ closes).length ≤ connSweepMax
  pings_le : (c.pingList ++ pings).length ≤ connSweepMax
  pending : t'.loopSweepPending = true → t.loopSweepPending = true ∨
    (c.closeList ++ closes).length = connSweepMax ∨ (c.pingList ++ pings).length = connSweepMax
  walked : ∃ sock', t'.socks a = some sock' ∧
    Walked cfg now t.proxies closes pings a sock sock'

/-- The walk looks at the first socket, and then goes on. -/
theorem WalkSpec.cons {cfg : TimeoutConfig} {now : UInt32} {a : SockId} {ids : List SockId}
    {t t₁ t' : Container} {c : Collected} {close₁ closes : List (SockId × Bool)}
    {ping₁ pings : List SockId} {sock : TimedSocket} (ha : a ∉ ids)
    (hsock : t.socks a = some sock) (h₁ : Taken cfg now a t t₁ c true close₁ ping₁ sock)
    (h : WalkSpec cfg now ids t₁ t' ⟨c.closeList ++ close₁, c.pingList ++ ping₁⟩ closes pings) :
    WalkSpec cfg now (a :: ids) t t' c (close₁ ++ closes) (ping₁ ++ pings) := by
  have hcloses : a ∉ closes.map Prod.fst := fun hmem => ha (h.closes_sub.subset hmem)
  have hpings : a ∉ pings := fun hmem => ha (h.pings_sub.subset hmem)
  have hle := h.closes_le
  have hle' := h.pings_le
  dsimp only at hle hle'
  refine ⟨h₁.core.trans h.core, fun b hb => ?_, ?_, ?_, ?_, ?_, fun hp => ?_, fun b hb s hs => ?_⟩
  · rw [List.mem_cons, not_or] at hb
    rw [h.others b hb.2, h₁.others b hb.1]
  · rw [List.map_append]
    exact h₁.closes_sub.append h.closes_sub
  · exact h₁.pings_sub.append h.pings_sub
  · rwa [← List.append_assoc]
  · rwa [← List.append_assoc]
  · rw [← List.append_assoc, ← List.append_assoc]
    rcases h.pending hp with hp | hp
    · rw [List.length_append] at hle hle'
      rw [List.length_append, @List.length_append _ (c.pingList ++ ping₁)]
      rcases h₁.pending hp with h2 | h2 | h2
      · exact Or.inl h2
      · exact Or.inr (Or.inl (by omega))
      · exact Or.inr (Or.inr (by omega))
    · exact Or.inr hp
  · rcases List.mem_cons.mp hb with rfl | hb
    · obtain rfl := Option.some.inj (hsock.symm.trans hs)
      obtain ⟨sock₁, hsock₁, hhead⟩ := h₁.walked
      refine ⟨sock₁, (h.others b ha).trans hsock₁, hhead.mono rfl (fun i hi => ?_) fun hi => ?_⟩
      · exact (List.mem_append.mp hi).resolve_right (not_mem_of_map hcloses i)
      · exact (List.mem_append.mp hi).resolve_right hpings
    · have hne : b ≠ a := fun heq => ha (heq ▸ hb)
      rw [← h₁.others b hne] at hs
      obtain ⟨s', hs', hw⟩ := h.walked b hb s hs
      have hidle : idleExpired cfg now t.proxies s = idleExpired cfg now t₁.proxies s :=
        (h₁.core.idleExpired_eq cfg now rfl).symm
      refine ⟨s', hs', hw.mono hidle (fun i hi => ?_) fun hi => ?_⟩
      · refine (List.mem_append.mp hi).resolve_left fun hi' => hne ?_
        exact List.mem_singleton.mp (h₁.closes_sub.subset (List.mem_map_of_mem hi'))
      · exact (List.mem_append.mp hi).resolve_left fun hi' =>
          hne (List.mem_singleton.mp (h₁.pings_sub.subset hi'))

/-- The walk looks at the first socket, and ends there. -/
theorem WalkSpec.stop {cfg : TimeoutConfig} {now : UInt32} {a : SockId} {ids : List SockId}
    {t t₁ : Container} {c : Collected} {sock : TimedSocket} (ha : a ∉ ids)
    (hsock : t.socks a = some sock) (h₁ : Taken cfg now a t t₁ c false [] [] sock) :
    WalkSpec cfg now (a :: ids) t t₁ c [] [] := by
  refine ⟨h₁.core, fun b hb => ?_, by simp, by simp, h₁.closes_le, h₁.pings_le, h₁.pending,
    fun b hb s hs => ?_⟩
  · rw [List.mem_cons, not_or] at hb
    exact h₁.others b hb.1
  · rcases List.mem_cons.mp hb with rfl | hb
    · obtain rfl := Option.some.inj (hsock.symm.trans hs)
      exact h₁.walked
    · have hne : b ≠ a := fun heq => ha (heq ▸ hb)
      exact ⟨s, (h₁.others b hne).trans hs, Walked.unseen cfg now t.proxies s (by simp) (by simp)⟩

/-- The record of a socket is in memory, and so is its proxy connection. -/
def Live (t : Container) (a : SockId) : Prop :=
  ∃ sock, t.socks a = some sock ∧
    ∀ p, sock.externHandleDataPtr = some p → ∃ proxy, t.proxies p = some proxy

theorem dataPtr_of_core {sock sock' : TimedSocket} (h : core sock' = core sock) :
    sock'.externHandleDataPtr = sock.externHandleDataPtr :=
  congrArg (fun s => s.externHandleDataPtr) h

theorem SameCore.live {t t' : Container} (h : SameCore t t') {a : SockId} (hlive : Live t a) :
    Live t' a := by
  obtain ⟨sock, hsock, hproxy⟩ := hlive
  obtain ⟨sock', hsock', hcore⟩ := h.sock hsock
  refine ⟨sock', hsock', fun p hp => ?_⟩
  rw [dataPtr_of_core hcore] at hp
  obtain ⟨proxy, hp'⟩ := hproxy p hp
  obtain ⟨proxy', hproxy', -⟩ := h.proxy hp'
  exact ⟨proxy', hproxy'⟩

theorem Visit.sameCore {cfg : TimeoutConfig} {now : UInt32} {t : Container}
    {proxies' : ProxyMemory} {a : SockId} {sock sock' : TimedSocket} {action : ConnAction}
    (h : Visit cfg now t.proxies proxies' sock sock' action) (hsock : t.socks a = some sock) :
    SameCore t (t.visit a sock' proxies') := by
  refine ⟨rfl, fun b => ?_, h.proxyCores⟩
  by_cases hb : b = a
  · subst hb
    simp [Container.visit, hsock, h.core]
  · simp [Container.visit, Function.update_of_ne hb]

/-- What a look at a socket does not change. -/
theorem visit_others {t : Container} {a b : SockId} {sock : TimedSocket} (proxies : ProxyMemory)
    (h : b ≠ a) : (t.visit a sock proxies).socks b = t.socks b := Function.update_of_ne h ..

theorem visit_self {t : Container} {a : SockId} {sock : TimedSocket} (proxies : ProxyMemory) :
    (t.visit a sock proxies).socks a = some sock := Function.update_self ..

/-- **What is done with the action of a socket.** -/
theorem takeAction_spec {cfg : TimeoutConfig} {now : UInt32} {a : SockId} {t : Container}
    {c : Collected} {sock sock' : TimedSocket} {action : ConnAction} {proxies : ProxyMemory}
    (hsock : t.socks a = some sock) (hv : Visit cfg now t.proxies proxies sock sock' action)
    (hclose : c.closeList.length ≤ connSweepMax) (hping : c.pingList.length ≤ connSweepMax) :
    ∃ t' more closes pings, takeAction now a action sock' (t.visit a sock' proxies) c =
        (t', ⟨c.closeList ++ closes, c.pingList ++ pings⟩, more) ∧
      (more = false → closes = [] ∧ pings = []) ∧
      Taken cfg now a t t' c more closes pings sock := by
  have hcore : SameCore t (t.visit a sock' proxies) := hv.sameCore hsock
  -- a look that collects nothing
  have hseen : Walked cfg now t.proxies [] [] a sock sock' :=
    ⟨hv.core, hv.chunks, Or.inl hv.sparedAt, hv.pingAt, by simp, by simp, by simp⟩
  -- a socket that is picked
  have hpicked : ∀ {closes : List (SockId × Bool)} {pings : List SockId}, action ≠ .keep →
      sock.server = true ∨ quietBackend sock = true →
        a ∉ closes.map Prod.fst ∧ a ∉ pings := fun h hu => absurd (hv.unpicked hu) h
  unfold takeAction
  split
  · have hidle : idleExpired cfg now t.proxies sock = false := by
      cases h : idleExpired cfg now t.proxies sock with
      | false => rfl
      | true => exact absurd (hv.idle.mpr h) (by simp)
    refine ⟨(t.visit a sock' proxies).setSock a { sock' with sparedAt := 0 }, true, [], [],
      by rw [List.append_nil, List.append_nil], by simp,
      hcore.trans (sameCore_setSock (visit_self proxies) rfl), fun b hb => ?_, by simp, by simp,
      by simpa using hclose, by simpa using hping, Or.inl, _, setSock_self, hv.core,
      hv.chunks, Or.inr ⟨rfl, hidle⟩, hv.pingAt, by simp, by simp, by simp⟩
    rw [setSock_others hb, visit_others proxies hb]
  · split_ifs with hlt
    · obtain ⟨h1, h2, h3, h4⟩ := hv.ping rfl
      refine ⟨_, true, [], [a], by rw [List.append_nil], by simp, hcore, fun b hb => visit_others proxies hb,
        by simp, by simp, by simpa using hclose, ?_, Or.inl, _, visit_self proxies, hv.core, hv.chunks,
        Or.inl hv.sparedAt, hv.pingAt, fun _ => ⟨h1, h2, h3, h4, by simp⟩, by simp,
        hpicked (by simp)⟩
      rw [List.length_append, List.length_singleton]
      omega
    · refine ⟨{ t.visit a sock' proxies with loopSweepPending := true }, true, [], [],
        by rw [List.append_nil, List.append_nil], by simp,
        hcore.trans ⟨rfl, fun _ => rfl, fun _ => rfl⟩, fun b hb => visit_others proxies hb, by simp, by simp,
        by simpa using hclose, by simpa using hping, fun _ => Or.inr (Or.inr ?_), _, visit_self proxies,
        hseen⟩
      rw [List.append_nil]
      omega
  · next hkeep hnoping =>
      split_ifs with hspared hfull
      · exact ⟨_, true, [], [], by rw [List.append_nil, List.append_nil], by simp, hcore,
          fun b hb => visit_others proxies hb, by simp, by simp, by simpa using hclose, by simpa using hping,
          Or.inl, _, visit_self proxies, hseen⟩
      · exact ⟨{ t.visit a sock' proxies with loopSweepPending := true }, false, [], [],
          by rw [List.append_nil, List.append_nil], by simp,
          hcore.trans ⟨rfl, fun _ => rfl, fun _ => rfl⟩, fun b hb => visit_others proxies hb, by simp,
          by simp, by simpa using hclose, by simpa using hping,
          fun _ => Or.inr (Or.inl (by simpa using hfull)), _, visit_self proxies, hseen⟩
      · refine ⟨_, true, [(a, decide (action = .closeIfIdle))], [], by rw [List.append_nil], by simp,
          hcore, fun b hb => visit_others proxies hb, by simp, by simp, ?_, by simpa using hping, Or.inl, _,
          visit_self proxies, hv.core, hv.chunks, Or.inl hv.sparedAt, hv.pingAt, by simp, fun b hb => ?_,
          hpicked hkeep⟩
        · rw [List.length_append, List.length_singleton]
          omega
        · obtain rfl : b = decide (action = .closeIfIdle) := by simpa using hb
          refine ⟨?_, fun h => ?_⟩
          · rw [Bool.eq_iff_iff, decide_eq_true_eq]
            exact hv.idle
          · rw [← hv.sparedAt]
            rw [h] at hspared
            simpa [imp_iff_not_or] using hspared

/-- **The walk.** -/
theorem collect_spec (cfg : TimeoutConfig) (now : UInt32) (ids : List SockId) (t : Container)
    (c : Collected) (hnodup : ids.Nodup) (hlive : ∀ a ∈ ids, Live t a)
    (hclose : c.closeList.length ≤ connSweepMax) (hping : c.pingList.length ≤ connSweepMax) :
    ∃ t' closes pings,
      collect cfg now ids t c = some (t', ⟨c.closeList ++ closes, c.pingList ++ pings⟩) ∧
        WalkSpec cfg now ids t t' c closes pings := by
  induction ids generalizing t c with
  | nil =>
      exact ⟨t, [], [], by simp [collect], SameCore.refl t, fun _ _ => rfl, by simp, by simp,
        by simpa using hclose, by simpa using hping, Or.inl, by simp⟩
  | cons a ids ih =>
      obtain ⟨sock, hsock, hproxy⟩ := hlive a (by simp)
      obtain ⟨⟨action, sock', proxies⟩, haction⟩ := connTimeoutAction_isSome cfg now hproxy
      obtain ⟨ha, hids⟩ := List.nodup_cons.mp hnodup
      obtain ⟨t₁, more, close₁, ping₁, htake, hstop, htaken⟩ :=
        takeAction_spec hsock (connTimeoutAction_visit haction) hclose hping
      rw [collect]
      simp only [Option.bind_eq_bind]
      rw [hsock, Option.bind_some, haction, Option.bind_some]
      dsimp only
      rw [htake]
      dsimp only
      cases more with
      | false =>
          obtain ⟨rfl, rfl⟩ := hstop rfl
          exact ⟨t₁, [], [], rfl, WalkSpec.stop ha hsock htaken⟩
      | true =>
          obtain ⟨t', closes, pings, heq, hspec⟩ := ih t₁ ⟨c.closeList ++ close₁, c.pingList ++ ping₁⟩
            hids (fun b hb => htaken.core.live (hlive b (by simp [hb]))) htaken.closes_le
            htaken.pings_le
          refine ⟨t', close₁ ++ closes, ping₁ ++ pings, ?_, WalkSpec.cons ha hsock htaken hspec⟩
          rw [if_pos rfl, heq]
          simp only [List.append_assoc]

/-! ## Pings -/

theorem connSendPing_core (now : UInt32) (sock : TimedSocket) :
    core (connSendPing now sock) = core sock := by
  unfold connSendPing
  split_ifs <;> rfl

/-- The websocket has been pinged in this second. -/
def Pinged (now : UInt32) (sock sock' : TimedSocket) : Prop :=
  sock'.wsPingAt = now ∧
    sock'.websocketChunkList = writeChunk sock.websocketChunkList pingFrame

theorem connSendPing_pinged {now : UInt32} {sock : TimedSocket} (h : sock.closeSocket = false) :
    Pinged now sock (connSendPing now sock) := by
  unfold connSendPing
  rw [if_neg (by simp [h])]
  exact ⟨rfl, rfl⟩

theorem connSendPing_sparedAt (now : UInt32) (sock : TimedSocket) :
    (connSendPing now sock).sparedAt = sock.sparedAt := by
  unfold connSendPing
  split_ifs <;> rfl

/-- **The pings of a sweep.** -/
theorem sendPings_spec (now : UInt32) (pings : List SockId) (t : Container) (hnodup : pings.Nodup)
    (hlive : ∀ a ∈ pings, ∃ sock, t.socks a = some sock) :
    ∃ t', sendPings now pings t = some t' ∧ SameCore t t' ∧
      t'.loopSweepPending = t.loopSweepPending ∧
      (∀ a, a ∉ pings → t'.socks a = t.socks a) ∧
      ∀ a ∈ pings, ∀ sock, t.socks a = some sock → t'.socks a = some (connSendPing now sock) := by
  induction pings generalizing t with
  | nil => exact ⟨t, rfl, SameCore.refl t, rfl, fun _ _ => rfl, by simp⟩
  | cons a pings ih =>
      obtain ⟨ha, hpings⟩ := List.nodup_cons.mp hnodup
      obtain ⟨sock, hsock⟩ := hlive a (by simp)
      have hcore := sameCore_setSock hsock (connSendPing_core now sock)
      obtain ⟨t', heq, hsame, hpending, hothers, hpinged⟩ :=
        ih (t.setSock a (connSendPing now sock)) hpings fun b hb => by
          obtain ⟨s, hs⟩ := hlive b (by simp [hb])
          obtain ⟨s', hs', -⟩ := hcore.sock hs
          exact ⟨s', hs'⟩
      refine ⟨t', ?_, hcore.trans hsame, hpending, fun b hb => ?_, fun b hb s hs => ?_⟩
      · rw [sendPings]
        simp only [Option.bind_eq_bind]
        rw [hsock, Option.bind_some, heq]
      · rw [List.mem_cons, not_or] at hb
        rw [hothers b hb.2, setSock_others hb.1]
      · rcases List.mem_cons.mp hb with rfl | hb
        · rw [hothers b ha, setSock_self, Option.some.inj (hs.symm.trans hsock)]
        · have hne : b ≠ a := fun h => ha (h ▸ hb)
          exact hpinged b hb s (by rw [setSock_others hne, hs])

/-! ## Closing -/

/-- A container without dangling pointers, whose backends have nothing to send and are not to be
closed. -/
structure Sound (t : Container) : Prop where
  nodup : t.ids.Nodup
  live : ∀ a ∈ t.ids, ∃ sock, t.socks a = some sock
  proxy : ∀ a ∈ t.ids, ∀ sock p, t.socks a = some sock → sock.externHandleDataPtr = some p →
    ∃ proxy, t.proxies p = some proxy ∧
      (proxy.clientSock = some a ∨ proxy.backendSock = some a)
  backend : ∀ p proxy b, t.proxies p = some proxy → proxy.backendSock = some b →
    b ∈ t.ids ∧ proxy.clientSock ≠ some b ∧ ∃ sock, t.socks b = some sock ∧
      sock.server = false ∧ quietBackend sock = true ∧ sock.externHandleDataPtr = some p

/-- The socket is the backend of a proxy connection. -/
def IsBackend (t : Container) (b : SockId) : Prop :=
  ∃ p proxy, t.proxies p = some proxy ∧ proxy.backendSock = some b

/-- The backend of the proxy connection of a socket. -/
def backendOf (t : Container) (a : SockId) : Option SockId := do
  let sock ← t.socks a
  let p ← sock.externHandleDataPtr
  let proxy ← t.proxies p
  proxy.backendSock

theorem quietBackend_of_core {sock sock' : TimedSocket} (h : core sock' = core sock) :
    quietBackend sock' = quietBackend sock :=
  (congrArg quietBackend h :)

theorem Sound.of_sameCore {t t' : Container} (h : Sound t) (hsame : SameCore t t') : Sound t' := by
  constructor
  · rw [hsame.ids]
    exact h.nodup
  · intro a ha
    rw [hsame.ids] at ha
    obtain ⟨sock, hsock⟩ := h.live a ha
    obtain ⟨sock', hsock', -⟩ := hsame.sock hsock
    exact ⟨sock', hsock'⟩
  · intro a ha sock' p hsock' hp
    rw [hsame.ids] at ha
    obtain ⟨sock, hsock, hcore⟩ := hsame.symm.sock hsock'
    rw [← dataPtr_of_core hcore] at hp
    obtain ⟨proxy, hproxy, hends⟩ := h.proxy a ha sock p hsock hp
    obtain ⟨proxy', hproxy', hcore'⟩ := hsame.proxy hproxy
    have hclient : proxy'.clientSock = proxy.clientSock := congrArg (fun x => x.clientSock) hcore'
    have hbackend : proxy'.backendSock = proxy.backendSock :=
      congrArg (fun x => x.backendSock) hcore'
    exact ⟨proxy', hproxy', by rwa [hclient, hbackend]⟩
  · intro p proxy' b hproxy' hb
    obtain ⟨proxy, hproxy, hcore'⟩ := hsame.symm.proxy hproxy'
    have hclient : proxy.clientSock = proxy'.clientSock := congrArg (fun x => x.clientSock) hcore'
    have hbackend : proxy.backendSock = proxy'.backendSock :=
      congrArg (fun x => x.backendSock) hcore'
    obtain ⟨hmem, hne, sock, hsock, hserver, hquiet, hptr⟩ :=
      h.backend p proxy b hproxy (hbackend.trans hb)
    obtain ⟨sock', hsock', hcore⟩ := hsame.sock hsock
    refine ⟨hsame.ids ▸ hmem, hclient ▸ hne, sock', hsock', ?_, ?_, ?_⟩
    · rw [← hserver]
      exact congrArg (fun s => s.server) hcore
    · rw [quietBackend_of_core hcore, hquiet]
    · rw [dataPtr_of_core hcore, hptr]

/-- The container behind the end of a socket and of the backend of its proxy connection. -/
structure Closed (t t' : Container) (a : SockId) (sock : TimedSocket) : Prop where
  pending : t'.loopSweepPending = t.loopSweepPending
  ids_sub : t'.ids.Sublist t.ids
  ids : ∀ c, c ∈ t'.ids ↔ c ∈ t.ids ∧ c ≠ a ∧ backendOf t a ≠ some c
  socks : ∀ c, t'.socks c = if c = a ∨ backendOf t a = some c then none else t.socks c
  proxies : ∀ p, t'.proxies p = if sock.externHandleDataPtr = some p then none else t.proxies p

theorem deleteSocket_eq {t : Container} {a : SockId} {sock : TimedSocket}
    (hsock : t.socks a = some sock) : deleteSocket a t =
      some (({ t with ids := t.ids.erase a } : Container).setSock a
        { sock with closeSocket := true }) := by
  unfold deleteSocket
  rw [hsock]
  rfl

theorem closeRequest_plain {t : Container} {a : SockId} {sock : TimedSocket} (hnodup : t.ids.Nodup)
    (hsock : t.socks a = some sock) (hptr : sock.externHandleDataPtr = none) :
    ∃ t', closeRequest a t = some t' ∧ Closed t t' a sock := by
  have hback : backendOf t a = none := by simp [backendOf, hsock, hptr]
  have heq : closeRequest a t = some (freeSock a
      (({ t with ids := t.ids.erase a } : Container).setSock a { sock with closeSocket := true })) := by
    unfold closeRequest reverseProxyCleanup
    simp only [Option.bind_eq_bind]
    rw [deleteSocket_eq hsock, Option.bind_some, setSock_self, Option.bind_some]
    dsimp only
    rw [hptr]
    rfl
  refine ⟨_, heq, rfl, List.erase_sublist, fun c => ?_, fun c => ?_, fun p => ?_⟩
  · simp [hback, freeSock, Container.setSock, hnodup.mem_erase_iff, and_comm]
  · by_cases hc : c = a
    · simp [hc, freeSock]
    · simp [hc, hback, freeSock, Container.setSock]
  · rw [hptr, if_neg (by simp)]
    rfl

/-- The backend of the proxy connection goes. -/
theorem releaseBackend_spec (proxy : ReverseProxyConnection) (t : Container)
    (h : ∀ b, proxy.backendSock = some b → ∃ sock, t.socks b = some sock) (hnodup : t.ids.Nodup) :
    ∃ t', releaseBackend proxy t = some t' ∧ t'.loopSweepPending = t.loopSweepPending ∧
      t'.ids.Sublist t.ids ∧ (∀ c, c ∈ t'.ids ↔ c ∈ t.ids ∧ proxy.backendSock ≠ some c) ∧
      (∀ c, t'.socks c = if proxy.backendSock = some c then none else t.socks c) ∧
      t'.proxies = t.proxies := by
  unfold releaseBackend
  cases hb : proxy.backendSock with
  | none => exact ⟨t, rfl, rfl, List.Sublist.refl _, by simp, by simp, rfl⟩
  | some b =>
      obtain ⟨sock, hsock⟩ := h b hb
      simp only [Option.bind_eq_bind]
      rw [deleteSocket_eq hsock, Option.bind_some]
      refine ⟨_, rfl, rfl, List.erase_sublist, fun c => ?_, fun c => ?_, rfl⟩
      · simp [freeSock, Container.setSock, hnodup.mem_erase_iff, and_comm, eq_comm]
      · by_cases hc : b = c
        · simp [hc, freeSock]
        · simp [hc, freeSock, Container.setSock, Function.update_of_ne (Ne.symm hc)]

theorem reverseProxyCleanup_eq {t : Container} {a : SockId} {sock : TimedSocket} {p : ProxyId}
    {proxy : ReverseProxyConnection} (hsock : t.socks a = some sock)
    (hptr : sock.externHandleDataPtr = some p) (hproxy : t.proxies p = some proxy)
    (hne : proxy.backendSock ≠ some a) :
    reverseProxyCleanup a t =
      (releaseBackend proxy ((t.setSock a { sock with externHandleDataPtr := none }).setProxy p
        proxy)).bind fun t => (releaseClient proxy t).bind fun t =>
          some { t with proxies := Function.update t.proxies p none } := by
  unfold reverseProxyCleanup
  simp only [Option.bind_eq_bind]
  rw [hsock, Option.bind_some]
  split
  · next hnone =>
      rw [hptr] at hnone
      exact absurd hnone (by simp)
  · next q hq =>
      obtain rfl := Option.some.inj (hq.symm.trans hptr)
      have hp : (t.setSock a { sock with externHandleDataPtr := none }).proxies q = some proxy :=
        hproxy
      rw [hp, Option.bind_some, if_neg hne]

theorem closeRequest_proxy {t : Container} {a : SockId} {sock : TimedSocket} {p : ProxyId}
    {proxy : ReverseProxyConnection} (hnodup : t.ids.Nodup) (hsock : t.socks a = some sock)
    (hptr : sock.externHandleDataPtr = some p) (hproxy : t.proxies p = some proxy)
    (hclient : proxy.clientSock = some a)
    (hback : ∀ b, proxy.backendSock = some b → b ≠ a ∧ ∃ s, t.socks b = some s) :
    ∃ t', closeRequest a t = some t' ∧ Closed t t' a sock := by
  have hbackend : backendOf t a = proxy.backendSock := by simp [backendOf, hsock, hptr, hproxy]
  have hne : proxy.backendSock ≠ some a := fun h => (hback a h).1 rfl
  obtain ⟨t₁, ht₁⟩ : ∃ t₁, t₁ = ((({ t with ids := t.ids.erase a } : Container).setSock a
      { sock with closeSocket := true }).setSock a
        { sock with closeSocket := true, externHandleDataPtr := none }).setProxy p proxy := ⟨_, rfl⟩
  have hself : t₁.socks a =
      some { sock with closeSocket := true, externHandleDataPtr := none } := by
    rw [ht₁]
    exact setSock_self
  have hothers : ∀ c, c ≠ a → t₁.socks c = t.socks c := by
    intro c hc
    rw [ht₁, Container.setProxy, setSock_others hc, setSock_others hc]
  have hlive : ∀ b, proxy.backendSock = some b → ∃ s, t₁.socks b = some s := by
    intro b hb
    obtain ⟨hba, s, hs⟩ := hback b hb
    exact ⟨s, (hothers b hba).trans hs⟩
  obtain ⟨t₂, hrelease, hpending, hsub, hids, hsocks, hproxies⟩ :=
    releaseBackend_spec proxy t₁ hlive (by rw [ht₁]; exact hnodup.erase a)
  have hself₂ : t₂.socks a = some { sock with closeSocket := true, externHandleDataPtr := none } := by
    rw [hsocks, if_neg hne, hself]
  have heq : closeRequest a t = some (freeSock a
      ({ t₂.setSock a { sock with
          closeSocket := true
          externHandleDataPtr := none
          externHandle := .none } with
        proxies := Function.update t₂.proxies p none })) := by
    have hclean : reverseProxyCleanup a (({ t with ids := t.ids.erase a } : Container).setSock a
        { sock with closeSocket := true }) =
          (releaseBackend proxy t₁).bind fun t => (releaseClient proxy t).bind fun t =>
            some { t with proxies := Function.update t.proxies p none } := by
      rw [ht₁]
      exact reverseProxyCleanup_eq setSock_self hptr hproxy hne
    unfold closeRequest
    simp only [Option.bind_eq_bind]
    rw [deleteSocket_eq hsock, Option.bind_some, hclean, hrelease, Option.bind_some, releaseClient,
      hclient]
    dsimp only
    simp only [Option.bind_eq_bind]
    rw [hself₂]
    rfl
  refine ⟨_, heq, ?_, ?_, fun c => ?_, fun c => ?_, fun q => ?_⟩
  · rw [freeSock, Container.setSock, hpending, ht₁]
    rfl
  · refine hsub.trans ?_
    rw [ht₁]
    exact List.erase_sublist
  · show c ∈ t₂.ids ↔ _
    rw [hids, hbackend, ht₁]
    show c ∈ t.ids.erase a ∧ _ ↔ _
    rw [hnodup.mem_erase_iff]
    tauto
  · rw [hbackend]
    by_cases hc : c = a
    · simp [hc, freeSock]
    · simp only [hc, false_or, freeSock, Container.setSock, Function.update_of_ne hc, hsocks,
        hothers c hc]
  · show Function.update t₂.proxies p none q = _
    rw [hptr, hproxies, ht₁]
    by_cases hq : q = p
    · simp [hq]
    · rw [Function.update_of_ne hq, if_neg (by simpa using Ne.symm hq)]
      exact Function.update_of_ne hq ..

/-- **The end of a socket** that is no backend. -/
theorem closeRequest_spec {t : Container} (h : Sound t) {a : SockId} (ha : a ∈ t.ids)
    (hclient : ¬ IsBackend t a) {sock : TimedSocket} (hsock : t.socks a = some sock) :
    ∃ t', closeRequest a t = some t' ∧ Closed t t' a sock := by
  cases hptr : sock.externHandleDataPtr with
  | none => exact closeRequest_plain h.nodup hsock hptr
  | some p =>
      obtain ⟨proxy, hproxy, hends⟩ := h.proxy a ha sock p hsock hptr
      have hnot : proxy.backendSock ≠ some a := fun hb => hclient ⟨p, proxy, hproxy, hb⟩
      refine closeRequest_proxy h.nodup hsock hptr hproxy (hends.resolve_right hnot) fun b hb => ?_
      obtain ⟨-, -, s, hs, -⟩ := h.backend p proxy b hproxy hb
      exact ⟨fun heq => hnot (heq ▸ hb), s, hs⟩

theorem backendOf_some {t : Container} {a b : SockId} {sock : TimedSocket}
    (hsock : t.socks a = some sock) (h : backendOf t a = some b) :
    ∃ p proxy, sock.externHandleDataPtr = some p ∧ t.proxies p = some proxy ∧
      proxy.backendSock = some b := by
  simp only [backendOf, Option.bind_eq_bind, Option.bind_eq_some_iff] at h
  obtain ⟨s, hs, p, hp, proxy, hproxy, hb⟩ := h
  obtain rfl := Option.some.inj (hs.symm.trans hsock)
  exact ⟨p, proxy, hp, hproxy, hb⟩

/-- Closing keeps the container sound. -/
theorem Closed.sound {t t' : Container} {a : SockId} {sock : TimedSocket}
    (h : Closed t t' a sock) (hsound : Sound t) (ha : a ∈ t.ids) (hclient : ¬ IsBackend t a)
    (hsock : t.socks a = some sock) : Sound t' := by
  have hstays : ∀ c, c ∈ t'.ids → c ∈ t.ids ∧ t'.socks c = t.socks c := by
    intro c hc
    obtain ⟨hmem, hne, hnb⟩ := (h.ids c).mp hc
    exact ⟨hmem, by rw [h.socks, if_neg (by tauto)]⟩
  have hproxies : ∀ p proxy, t'.proxies p = some proxy →
      t.proxies p = some proxy ∧ sock.externHandleDataPtr ≠ some p := by
    intro p proxy hp
    rw [h.proxies] at hp
    split_ifs at hp with hptr
    exact ⟨hp, hptr⟩
  refine ⟨hsound.nodup.sublist h.ids_sub, fun c hc => ?_, fun c hc s p hs hp => ?_,
    fun p proxy b hp hb => ?_⟩
  · obtain ⟨hmem, heq⟩ := hstays c hc
    rw [heq]
    exact hsound.live c hmem
  · obtain ⟨hmem, heq⟩ := hstays c hc
    rw [heq] at hs
    obtain ⟨proxy, hproxy, hends⟩ := hsound.proxy c hmem s p hs hp
    refine ⟨proxy, ?_, hends⟩
    rw [h.proxies, if_neg, hproxy]
    intro hptr
    -- both sockets would be ends of one proxy connection
    obtain ⟨proxy', hproxy', hends'⟩ := hsound.proxy a ha sock p hsock hptr
    obtain rfl := Option.some.inj (hproxy.symm.trans hproxy')
    have hca : proxy.clientSock = some a :=
      hends'.resolve_right fun hb => hclient ⟨p, proxy, hproxy, hb⟩
    obtain ⟨-, hne, hnb⟩ := (h.ids c).mp hc
    rcases hends with hcc | hcb
    · exact hne (Option.some.inj (hcc.symm.trans hca))
    · refine hnb ?_
      simp [backendOf, hsock, hptr, hproxy, hcb]
  · obtain ⟨hproxy, hptr⟩ := hproxies p proxy hp
    obtain ⟨hmem, hne, s, hs, hserver, hquiet, hsp⟩ := hsound.backend p proxy b hproxy hb
    have hba : b ≠ a := fun heq => hclient ⟨p, proxy, hproxy, heq ▸ hb⟩
    have hnb : backendOf t a ≠ some b := by
      intro hback
      obtain ⟨q, proxy', hq, hproxy', hb'⟩ := backendOf_some hsock hback
      obtain ⟨-, -, s', hs', -, -, hsq⟩ := hsound.backend q proxy' b hproxy' hb'
      obtain rfl := Option.some.inj (hs.symm.trans hs')
      exact hptr (hq.trans (hsq.symm.trans hsp))
    refine ⟨(h.ids b).mpr ⟨hmem, hba, hnb⟩, hne, s, ?_, hserver, hquiet, hsp⟩
    rw [h.socks, if_neg (by tauto), hs]

/-- A socket in the close list is spared. -/
def Spares (connHasPendingInput : SockId → Bool) (a : SockId) (ifIdle : Bool) (sock : TimedSocket) :
    Prop :=
  ifIdle = true ∧ sock.sparedAt = 0 ∧ connHasPendingInput a = true

/-- What closing these has done. -/
structure Swept (now : UInt32) (connHasPendingInput : SockId → Bool)
    (entries : List (SockId × Bool)) (t t' : Container) : Prop where
  sound : Sound t'
  pending : t'.loopSweepPending = t.loopSweepPending
  ids_sub : t'.ids.Sublist t.ids
  untouched : ∀ c ∈ t'.ids, c ∉ entries.map Prod.fst → t'.socks c = t.socks c
  spared : ∀ c ifIdle sock, (c, ifIdle) ∈ entries → t.socks c = some sock →
    Spares connHasPendingInput c ifIdle sock →
      c ∈ t'.ids ∧ t'.socks c = some { sock with sparedAt := now }
  closed : ∀ c ifIdle sock, (c, ifIdle) ∈ entries → t.socks c = some sock →
    ¬ Spares connHasPendingInput c ifIdle sock → c ∉ t'.ids
  gone : ∀ c ∈ t.ids, c ∉ t'.ids → c ∈ entries.map Prod.fst ∨
    ∃ a ∈ entries.map Prod.fst, a ∉ t'.ids ∧ backendOf t a = some c
  freed : ∀ c, c ∈ t.ids ∨ t.socks c = none → c ∉ t'.ids → t'.socks c = none
  proxies_sub : ∀ p proxy, t'.proxies p = some proxy → t.proxies p = some proxy

theorem Swept.nil (now : UInt32) (connHasPendingInput : SockId → Bool) {t : Container}
    (h : Sound t) : Swept now connHasPendingInput [] t t :=
  ⟨h, rfl, List.Sublist.refl _, fun _ _ _ => rfl, by simp, by simp, fun _ hc hc' => absurd hc hc',
    fun _ hc hc' => hc.resolve_left hc', fun _ _ hp => hp⟩

/-- The first socket is spared. -/
theorem Swept.spare {now : UInt32} {connHasPendingInput : SockId → Bool} {a : SockId}
    {ifIdle : Bool} {entries : List (SockId × Bool)} {t t' : Container} {sock : TimedSocket}
    (ha : a ∉ entries.map Prod.fst) (hin : a ∈ t.ids) (hclient : ¬ IsBackend t a)
    (hsock : t.socks a = some sock) (hspares : Spares connHasPendingInput a ifIdle sock)
    (h : Swept now connHasPendingInput entries (t.setSock a { sock with sparedAt := now }) t') :
    Swept now connHasPendingInput ((a, ifIdle) :: entries) t t' := by
  -- the first socket is neither in the rest of the list nor a backend
  have hstays : a ∈ t'.ids := by
    by_contra hgone
    rcases h.gone a hin hgone with hmem | ⟨c, hc, -, hback⟩
    · exact ha hmem
    · obtain ⟨s, hs⟩ : ∃ s, (t.setSock a { sock with sparedAt := now }).socks c = some s := by
        simp only [backendOf, Option.bind_eq_bind, Option.bind_eq_some_iff] at hback
        obtain ⟨s, hs, -⟩ := hback
        exact ⟨s, hs⟩
      obtain ⟨p, proxy, -, hproxy, hb⟩ := backendOf_some hs hback
      exact hclient ⟨p, proxy, hproxy, hb⟩
  have hself : t'.socks a = some { sock with sparedAt := now } :=
    (h.untouched a hstays ha).trans setSock_self
  have hne : ∀ {c ifIdle'}, (c, ifIdle') ∈ entries → c ≠ a :=
    fun hmem heq => ha (heq ▸ List.mem_map_of_mem hmem)
  refine ⟨h.sound, h.pending, h.ids_sub, fun c hc hnot => ?_, fun c i s hmem hs hsp => ?_,
    fun c i s hmem hs hsp => ?_, fun c hc hgone => ?_, fun c hc hgone => ?_, h.proxies_sub⟩
  · rw [List.map_cons, List.mem_cons, not_or] at hnot
    rw [h.untouched c hc hnot.2, setSock_others hnot.1]
  · rcases List.mem_cons.mp hmem with heq | hmem
    · cases heq
      obtain rfl := Option.some.inj (hs.symm.trans hsock)
      exact ⟨hstays, hself⟩
    · exact h.spared c i s hmem (by rw [setSock_others (hne hmem), hs]) hsp
  · rcases List.mem_cons.mp hmem with heq | hmem
    · cases heq
      obtain rfl := Option.some.inj (hs.symm.trans hsock)
      exact absurd hspares hsp
    · exact h.closed c i s hmem (by rw [setSock_others (hne hmem), hs]) hsp
  · rcases h.gone c hc hgone with hmem | ⟨d, hd, hgone', hback⟩
    · exact Or.inl (List.mem_cons_of_mem _ hmem)
    · refine Or.inr ⟨d, List.mem_cons_of_mem _ hd, hgone', ?_⟩
      have hda : d ≠ a := fun heq => ha (heq ▸ hd)
      rw [backendOf, setSock_others hda] at hback
      exact hback
  · have hca : c ≠ a := fun heq => hgone (heq ▸ hstays)
    exact h.freed c (by rwa [setSock_others hca]) hgone

/-- The first socket is closed. -/
theorem Swept.close {now : UInt32} {connHasPendingInput : SockId → Bool} {a : SockId}
    {ifIdle : Bool} {entries : List (SockId × Bool)} {t t₁ t' : Container} {sock : TimedSocket}
    (ha : a ∉ entries.map Prod.fst) (hin : ∀ c ∈ entries.map Prod.fst, c ∈ t.ids ∧ ¬ IsBackend t c)
    (hsock : t.socks a = some sock) (hspares : ¬ Spares connHasPendingInput a ifIdle sock)
    (hclosed : Closed t t₁ a sock) (h : Swept now connHasPendingInput entries t₁ t') :
    Swept now connHasPendingInput ((a, ifIdle) :: entries) t t' := by
  have hgone : a ∉ t'.ids := fun hmem => ((hclosed.ids a).mp (h.ids_sub.subset hmem)).2.1 rfl
  have hsame : ∀ c, c ∈ t₁.ids → t₁.socks c = t.socks c := by
    intro c hc
    obtain ⟨-, hne, hnb⟩ := (hclosed.ids c).mp hc
    rw [hclosed.socks, if_neg (by tauto)]
  have hentry : ∀ {c i}, (c, i) ∈ entries → c ∈ t₁.ids := by
    intro c i hmem
    have hkey := List.mem_map_of_mem (f := Prod.fst) hmem
    obtain ⟨hc, hnb⟩ := hin c hkey
    refine (hclosed.ids c).mpr ⟨hc, fun heq => ha (heq ▸ hkey), fun hback => hnb ?_⟩
    obtain ⟨p, proxy, -, hproxy, hb⟩ := backendOf_some hsock hback
    exact ⟨p, proxy, hproxy, hb⟩
  refine ⟨h.sound, h.pending.trans hclosed.pending, h.ids_sub.trans hclosed.ids_sub,
    fun c hc hnot => ?_, fun c i s hmem hs hsp => ?_, fun c i s hmem hs hsp => ?_,
    fun c hc hc' => ?_, fun c hc hc' => ?_, fun p proxy hp => ?_⟩
  · rw [List.map_cons, List.mem_cons, not_or] at hnot
    rw [h.untouched c hc hnot.2, hsame c (h.ids_sub.subset hc)]
  · rcases List.mem_cons.mp hmem with heq | hmem
    · cases heq
      obtain rfl := Option.some.inj (hs.symm.trans hsock)
      exact absurd hsp hspares
    · exact h.spared c i s hmem (by rw [hsame c (hentry hmem), hs]) hsp
  · rcases List.mem_cons.mp hmem with heq | hmem
    · cases heq
      exact hgone
    · exact h.closed c i s hmem (by rw [hsame c (hentry hmem), hs]) hsp
  · by_cases hc₁ : c ∈ t₁.ids
    · rcases h.gone c hc₁ hc' with hmem | ⟨d, hd, hd', hback⟩
      · exact Or.inl (List.mem_cons_of_mem _ hmem)
      · refine Or.inr ⟨d, List.mem_cons_of_mem _ hd, hd', ?_⟩
        obtain ⟨⟨_, i⟩, hmem, rfl⟩ := List.mem_map.mp hd
        have hsd := hsame _ (hentry hmem)
        obtain ⟨s, hs⟩ : ∃ s, t.socks _ = some s := by
          simp only [backendOf, Option.bind_eq_bind, Option.bind_eq_some_iff] at hback
          obtain ⟨s, hs, -⟩ := hback
          exact ⟨s, hsd ▸ hs⟩
        obtain ⟨p, proxy, hp, hproxy, hb⟩ := backendOf_some (hsd.trans hs) hback
        rw [hclosed.proxies] at hproxy
        split_ifs at hproxy
        simp [backendOf, hs, hp, hproxy, hb]
    · rw [hclosed.ids, not_and_or] at hc₁
      by_cases hca : c = a
      · exact Or.inl (by simp [hca])
      · refine Or.inr ⟨a, by simp, hgone, ?_⟩
        by_contra hnb
        exact hc₁.elim (fun h => h hc) fun h => h ⟨hca, hnb⟩
  · refine h.freed c ?_ hc'
    by_cases hc₁ : c ∈ t₁.ids
    · exact Or.inl hc₁
    · refine Or.inr ?_
      rw [hclosed.ids] at hc₁
      rw [hclosed.socks]
      split_ifs with hends
      · rfl
      · exact hc.resolve_left (by tauto)
  · have hp₁ := h.proxies_sub p proxy hp
    rw [hclosed.proxies] at hp₁
    split_ifs at hp₁
    exact hp₁

/-- **Closing.** The sockets in the list are no backends, so none of them goes with another. -/
theorem closeAll_spec (now : UInt32) (connHasPendingInput : SockId → Bool)
    (entries : List (SockId × Bool)) (t : Container) (h : Sound t)
    (hnodup : (entries.map Prod.fst).Nodup)
    (hin : ∀ c ∈ entries.map Prod.fst, c ∈ t.ids ∧ ¬ IsBackend t c) :
    ∃ t', closeAll now connHasPendingInput entries t = some t' ∧
      Swept now connHasPendingInput entries t t' := by
  induction entries generalizing t with
  | nil => exact ⟨t, rfl, Swept.nil now connHasPendingInput h⟩
  | cons entry entries ih =>
      obtain ⟨a, ifIdle⟩ := entry
      obtain ⟨ha, hentries⟩ := List.nodup_cons.mp hnodup
      obtain ⟨hmem, hclient⟩ := hin a (by simp)
      obtain ⟨sock, hsock⟩ := h.live a hmem
      have hrest : ∀ c ∈ entries.map Prod.fst, c ∈ t.ids ∧ ¬ IsBackend t c :=
        fun c hc => hin c (List.mem_cons_of_mem _ hc)
      rw [closeAll]
      simp only [Option.bind_eq_bind]
      rw [hsock, Option.bind_some]
      by_cases hspares : Spares connHasPendingInput a ifIdle sock
      · have hcore : SameCore t (t.setSock a { sock with sparedAt := now }) :=
          sameCore_setSock hsock rfl
        obtain ⟨t', heq, hswept⟩ := ih _ (h.of_sameCore hcore) hentries hrest
        refine ⟨t', ?_, Swept.spare ha hmem hclient hsock hspares hswept⟩
        rw [if_pos (by simpa [Spares, and_assoc] using hspares), heq]
      · obtain ⟨t₁, hclose, hclosed⟩ := closeRequest_spec h hmem hclient hsock
        have hrest₁ : ∀ c ∈ entries.map Prod.fst, c ∈ t₁.ids ∧ ¬ IsBackend t₁ c := by
          intro c hc
          obtain ⟨hc', hnb⟩ := hrest c hc
          constructor
          · refine (hclosed.ids c).mpr ⟨hc', fun heq => ha (heq ▸ hc), fun hback => hnb ?_⟩
            obtain ⟨p, proxy, -, hproxy, hb⟩ := backendOf_some hsock hback
            exact ⟨p, proxy, hproxy, hb⟩
          · rintro ⟨p, proxy, hproxy, hb⟩
            rw [hclosed.proxies] at hproxy
            split_ifs at hproxy
            exact hnb ⟨p, proxy, hproxy, hb⟩
        obtain ⟨t', heq, hswept⟩ := ih t₁ (hclosed.sound h hmem hclient hsock) hentries hrest₁
        refine ⟨t', ?_, Swept.close ha hrest hsock hspares hclosed hswept⟩
        rw [if_neg (by simpa [Spares, and_assoc] using hspares), hclose, Option.bind_some, heq]

end CWebUI.Timeouts
