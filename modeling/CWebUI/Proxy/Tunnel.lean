import CWebUI.Proxy.Wire

set_option autoImplicit false

/-! # The tunnel

Once the backend has switched protocols, the proxy copies bytes both ways. What a direction
has read and not yet sent is its backlog, and it lies in the buffer of that direction. The
invariant (`Tunnelled`) accounts for every byte: what has been read is what has been sent
followed by the backlog. It holds along the whole record, event by event (`TunnelTrace`).
-/

namespace CWebUI.Proxy

open ByteString

/-! ## The invariant -/

/-- The events since the tunnel began. -/
def sinceTunnel (w : List WireEvent) : List WireEvent := w.takeWhile (· ≠ .tunnel)

/-- The backlog towards the backend. -/
def pendingC2b (c : ReverseProxyConnection) : List UInt8 :=
  (c.request.buffer.take c.tunnel.c2bLen).drop c.tunnel.c2bSent

/-- The backlog towards the client. -/
def pendingB2c (c : ReverseProxyConnection) : List UInt8 :=
  (c.response.buffer.take c.tunnel.b2cLen).drop c.tunnel.b2cSent

/-- At this moment of a tunnel nothing has been lost, invented or reordered. Towards the client
this includes all that the backend has sent from the start. -/
structure InOrder (w : List WireEvent) : Prop where
  c2b : sentToBackend (sinceTunnel w) <+: readFromClient (sinceTunnel w)
  b2c : sentToClient w <+: readFromBackend w

/-- The next event of a tunnel is one that the record `w` allows: data is read only in a
direction in which all data has been sent. -/
def Allowed (w : List WireEvent) : WireEvent → Prop
  | .fromClient _ => sentToBackend (sinceTunnel w) = readFromClient (sinceTunnel w)
  | .fromBackend _ => sentToClient w = readFromBackend w
  | _ => True

/-- Every event of the tunnel was allowed, and left the bytes in order. -/
def TunnelTrace : List WireEvent → Prop
  | [] => True
  | e :: w => TunnelTrace w ∧ (WireEvent.tunnel ∈ w → Allowed w e) ∧
      (WireEvent.tunnel ∈ e :: w → InOrder (e :: w))

/-- The invariant of a tunnel. -/
structure Tunnelled (c : ReverseProxyConnection) : Prop where
  started : WireEvent.tunnel ∈ c.wire
  trace : TunnelTrace c.wire
  c2bSent : c.tunnel.c2bSent ≤ c.tunnel.c2bLen
  c2bLen : c.tunnel.c2bLen ≤ c.request.buffer.length
  c2bSize : c.tunnel.c2bLen ≤ c.request.bufferSize
  b2cSent : c.tunnel.b2cSent ≤ c.tunnel.b2cLen
  b2cLen : c.tunnel.b2cLen ≤ c.response.buffer.length
  b2cSize : c.tunnel.b2cLen ≤ c.response.bufferSize
  c2b : readFromClient (sinceTunnel c.wire) = sentToBackend (sinceTunnel c.wire) ++ pendingC2b c
  b2c : readFromBackend c.wire = sentToClient c.wire ++ pendingB2c c
  headerSent : c.response.headerSent = true
  upgrade : c.response.isUpgrade = true ∧ c.response.bodyMode = .none

/-! ## One event -/

theorem sinceTunnel_cons {e : WireEvent} (he : e ≠ .tunnel) (w : List WireEvent) :
    sinceTunnel (e :: w) = e :: sinceTunnel w := by
  rw [sinceTunnel, List.takeWhile_cons, if_pos (by simpa using he)]
  rfl

/-- The record of a tunnel grows by an allowed event that leaves the bytes in order. -/
theorem TunnelTrace.cons {w : List WireEvent} {e : WireEvent} (h : TunnelTrace w)
    (hallowed : Allowed w e) (horder : InOrder (e :: w)) : TunnelTrace (e :: w) :=
  ⟨h, fun _ => hallowed, fun _ => horder⟩

/-- Sending a part of what is pending. -/
theorem drop_take_add (l : List UInt8) (len sent n : Nat) (hn : sent + n ≤ len) :
    (l.take len).drop sent = (l.drop sent).take n ++ (l.take len).drop (sent + n) := by
  have hsplit : ((l.take len).drop sent).take n = (l.drop sent).take n := by
    rw [List.drop_take, List.take_take, Nat.min_eq_left (by omega)]
  rw [← hsplit, ← List.drop_drop, List.take_append_drop]

/-- What one call of `send` does to a tunnel. -/
theorem Tunnelled.toBackend {c : ReverseProxyConnection} (h : Tunnelled c) {n : Nat}
    (hn : c.tunnel.c2bSent + n ≤ c.tunnel.c2bLen) :
    Tunnelled { c with
      tunnel.c2bSent := c.tunnel.c2bSent + n
      wire := .toBackend ((c.request.buffer.drop c.tunnel.c2bSent).take n) :: c.wire } := by
  set data := (c.request.buffer.drop c.tunnel.c2bSent).take n with hdata
  have hpending : pendingC2b c =
      data ++ (c.request.buffer.take c.tunnel.c2bLen).drop (c.tunnel.c2bSent + n) :=
    drop_take_add _ _ _ _ hn
  have hsince := sinceTunnel_cons (e := .toBackend data) (by simp) c.wire
  have hread : readFromClient (sinceTunnel (.toBackend data :: c.wire)) =
      sentToBackend (sinceTunnel (.toBackend data :: c.wire)) ++
        (c.request.buffer.take c.tunnel.c2bLen).drop (c.tunnel.c2bSent + n) := by
    rw [hsince]
    simp only [readFromClient, sentToBackend]
    rw [h.c2b, hpending, List.append_assoc]
  refine ⟨List.mem_cons_of_mem _ h.started, h.trace.cons trivial ⟨⟨_, hread.symm⟩, ?_⟩, hn,
    h.c2bLen, h.c2bSize, h.b2cSent, h.b2cLen, h.b2cSize, hread, h.b2c, h.headerSent, h.upgrade⟩
  exact ⟨_, h.b2c.symm⟩

/-- What one call of `WebserverSend` does to a tunnel. -/
theorem Tunnelled.toClient {c : ReverseProxyConnection} (h : Tunnelled c) {n : Nat}
    (hn : c.tunnel.b2cSent + n ≤ c.tunnel.b2cLen) :
    Tunnelled { c with
      tunnel.b2cSent := c.tunnel.b2cSent + n
      wire := .toClient ((c.response.buffer.drop c.tunnel.b2cSent).take n) :: c.wire } := by
  set data := (c.response.buffer.drop c.tunnel.b2cSent).take n with hdata
  have hpending : pendingB2c c =
      data ++ (c.response.buffer.take c.tunnel.b2cLen).drop (c.tunnel.b2cSent + n) :=
    drop_take_add _ _ _ _ hn
  have hsince := sinceTunnel_cons (e := .toClient data) (by simp) c.wire
  have hread : readFromBackend (.toClient data :: c.wire) = sentToClient (.toClient data :: c.wire) ++
      (c.response.buffer.take c.tunnel.b2cLen).drop (c.tunnel.b2cSent + n) := by
    simp only [readFromBackend, sentToClient]
    rw [h.b2c, hpending, List.append_assoc]
  have hc2b : readFromClient (sinceTunnel (.toClient data :: c.wire)) =
      sentToBackend (sinceTunnel (.toClient data :: c.wire)) ++ pendingC2b c := by
    rw [hsince]
    exact h.c2b
  exact ⟨List.mem_cons_of_mem _ h.started, h.trace.cons trivial ⟨⟨_, hc2b.symm⟩, ⟨_, hread.symm⟩⟩,
    h.c2bSent, h.c2bLen, h.c2bSize, hn, h.b2cLen, h.b2cSize, hc2b, hread, h.headerSent, h.upgrade⟩

/-- Something that is no byte happens on the wire. -/
theorem Tunnelled.note {c : ReverseProxyConnection} (h : Tunnelled c) {e : WireEvent}
    (he : e = .clientLost ∨ e = .backendClosed) : Tunnelled { c with wire := e :: c.wire } := by
  have hsince : sinceTunnel (e :: c.wire) = e :: sinceTunnel c.wire :=
    sinceTunnel_cons (by rcases he with rfl | rfl <;> simp) c.wire
  have hc2b : readFromClient (sinceTunnel (e :: c.wire)) =
      sentToBackend (sinceTunnel (e :: c.wire)) ++ pendingC2b c := by
    rw [hsince]
    rcases he with rfl | rfl
    · exact h.c2b
    · exact h.c2b
  have hb2c : readFromBackend (e :: c.wire) = sentToClient (e :: c.wire) ++ pendingB2c c := by
    rcases he with rfl | rfl
    · exact h.b2c
    · exact h.b2c
  have hallowed : Allowed c.wire e := by
    rcases he with rfl | rfl
    · trivial
    · trivial
  exact ⟨List.mem_cons_of_mem _ h.started, h.trace.cons hallowed ⟨⟨_, hc2b.symm⟩, ⟨_, hb2c.symm⟩⟩,
    h.c2bSent, h.c2bLen, h.c2bSize, h.b2cSent, h.b2cLen, h.b2cSize, hc2b, hb2c, h.headerSent,
    h.upgrade⟩

/-- A read from the client, while nothing is pending towards the backend. -/
theorem Tunnelled.fromClient {c : ReverseProxyConnection} (h : Tunnelled c)
    (hempty : c.tunnel.c2bLen = 0) {data : List UInt8}
    (hsize : data.length ≤ c.request.bufferSize) : Tunnelled (tunnelFillC2b data c) := by
  have hnone : pendingC2b c = [] := by simp [pendingC2b, hempty]
  have hcaught := h.c2b
  rw [hnone, List.append_nil] at hcaught
  have hsince := sinceTunnel_cons (e := .fromClient data) (by simp) c.wire
  have hread : readFromClient (sinceTunnel (.fromClient data :: c.wire)) =
      sentToBackend (sinceTunnel (.fromClient data :: c.wire)) ++ (data.take data.length).drop 0 := by
    rw [hsince]
    simp only [readFromClient, sentToBackend, List.take_length, List.drop_zero]
    rw [hcaught]
  exact ⟨List.mem_cons_of_mem _ h.started,
    h.trace.cons hcaught.symm ⟨⟨_, hread.symm⟩, ⟨_, h.b2c.symm⟩⟩, Nat.zero_le _, Nat.le_refl _,
    hsize, h.b2cSent, h.b2cLen, h.b2cSize, hread, h.b2c, h.headerSent, h.upgrade⟩

/-- A read from the backend, while nothing is pending towards the client. -/
theorem Tunnelled.fromBackend {c : ReverseProxyConnection} (h : Tunnelled c)
    (hempty : c.tunnel.b2cLen = 0) {data : List UInt8}
    (hsize : data.length ≤ c.response.bufferSize) : Tunnelled (tunnelFillB2c data c) := by
  have hnone : pendingB2c c = [] := by simp [pendingB2c, hempty]
  have hcaught := h.b2c
  rw [hnone, List.append_nil] at hcaught
  have hsince := sinceTunnel_cons (e := .fromBackend data) (by simp) c.wire
  have hread : readFromBackend (.fromBackend data :: c.wire) =
      sentToClient (.fromBackend data :: c.wire) ++ (data.take data.length).drop 0 := by
    simp only [readFromBackend, sentToClient, List.take_length, List.drop_zero]
    rw [hcaught]
  have hc2b : readFromClient (sinceTunnel (.fromBackend data :: c.wire)) =
      sentToBackend (sinceTunnel (.fromBackend data :: c.wire)) ++ pendingC2b c := by
    rw [hsince]
    exact h.c2b
  exact ⟨List.mem_cons_of_mem _ h.started,
    h.trace.cons hcaught.symm ⟨⟨_, hc2b.symm⟩, ⟨_, hread.symm⟩⟩, h.c2bSent, h.c2bLen, h.c2bSize,
    Nat.zero_le _, Nat.le_refl _, hsize, hc2b, hread, h.headerSent, h.upgrade⟩

/-! ## The handlers -/

/-- The invariant does not depend on the sockets, on the answers and on the state. -/
theorem Tunnelled.frame {c : ReverseProxyConnection} (h : Tunnelled c) (state : ProxyState)
    (sockets : ProxySockets) (answers : Answers) :
    Tunnelled { c with state := state, sockets := sockets, answers := answers } :=
  ⟨h.started, h.trace, h.c2bSent, h.c2bLen, h.c2bSize, h.b2cSent, h.b2cLen, h.b2cSize, h.c2b,
    h.b2c, h.headerSent, h.upgrade⟩

/-- The connection `c'` is a tunnel that has come out of `c`. -/
structure TunnelGoesOn (c c' : ReverseProxyConnection) : Prop where
  tunnelled : Tunnelled c'
  state : c'.state = c.state
  wire : c.wire <:+ c'.wire

theorem TunnelGoesOn.trans {c c' c'' : ReverseProxyConnection} (h : TunnelGoesOn c c')
    (h' : TunnelGoesOn c' c'') : TunnelGoesOn c c'' :=
  ⟨h'.tunnelled, h'.state.trans h.state, h.wire.trans h'.wire⟩

theorem Tunnelled.refl {c : ReverseProxyConnection} (h : Tunnelled c) : TunnelGoesOn c c :=
  ⟨h, rfl, List.suffix_rfl⟩

/-- An empty backlog leaves the buffer free. -/
theorem Tunnelled.resetC2b {c : ReverseProxyConnection} (h : Tunnelled c)
    (hsent : ¬ c.tunnel.c2bSent < c.tunnel.c2bLen) :
    Tunnelled { c with tunnel.c2bLen := 0, tunnel.c2bSent := 0 } := by
  have hnone : pendingC2b c = [] := by
    rw [pendingC2b, List.drop_eq_nil_iff, List.length_take]
    omega
  have hc2b := h.c2b
  rw [hnone] at hc2b
  exact ⟨h.started, h.trace, Nat.le_refl _, Nat.zero_le _, Nat.zero_le _, h.b2cSent, h.b2cLen,
    h.b2cSize, hc2b.trans (by simp [pendingC2b]), h.b2c, h.headerSent, h.upgrade⟩

theorem Tunnelled.resetB2c {c : ReverseProxyConnection} (h : Tunnelled c)
    (hsent : ¬ c.tunnel.b2cSent < c.tunnel.b2cLen) :
    Tunnelled { c with tunnel.b2cLen := 0, tunnel.b2cSent := 0 } := by
  have hnone : pendingB2c c = [] := by
    rw [pendingB2c, List.drop_eq_nil_iff, List.length_take]
    omega
  have hb2c := h.b2c
  rw [hnone] at hb2c
  exact ⟨h.started, h.trace, h.c2bSent, h.c2bLen, h.c2bSize, Nat.le_refl _, Nat.zero_le _,
    Nat.zero_le _, h.c2b, hb2c.trans (by simp [pendingB2c]), h.headerSent, h.upgrade⟩

/-- **Flushing towards the backend keeps the invariant.** -/
theorem proxyTunnelFlushC2b_tunnelled (answers : List BackendSend) {c : ReverseProxyConnection}
    (h : Tunnelled c) : TunnelGoesOn c (proxyTunnelFlushC2b answers c).1 := by
  induction answers generalizing c with
  | nil =>
      rw [proxyTunnelFlushC2b]
      by_cases hlt : c.tunnel.c2bSent < c.tunnel.c2bLen
      · rw [if_pos hlt]
        exact ⟨h.frame _ _ _, rfl, List.suffix_rfl⟩
      · rw [if_neg hlt]
        exact ⟨(h.resetC2b hlt).frame _ _ _, rfl, List.suffix_rfl⟩
  | cons a answers ih =>
      by_cases hlt : c.tunnel.c2bSent < c.tunnel.c2bLen
      · cases a with
        | again =>
            rw [proxyTunnelFlushC2b, if_pos hlt]
            exact ⟨h.frame _ _ _, rfl, List.suffix_rfl⟩
        | failed =>
            rw [proxyTunnelFlushC2b, if_pos hlt]
            exact ⟨h.frame _ _ _, rfl, List.suffix_rfl⟩
        | taken n =>
            rw [proxyTunnelFlushC2b, if_pos hlt]
            simp only
            by_cases hzero : min n (c.tunnel.c2bLen - c.tunnel.c2bSent) = 0
            · rw [if_pos hzero]
              exact ⟨h.frame _ _ _, rfl, List.suffix_rfl⟩
            · rw [if_neg hzero]
              have hnext := h.toBackend (n := min n (c.tunnel.c2bLen - c.tunnel.c2bSent)) (by omega)
              have hstep : TunnelGoesOn c _ := ⟨hnext, rfl, List.suffix_cons _ _⟩
              exact hstep.trans (ih hnext)
      · have hreset : (proxyTunnelFlushC2b (a :: answers) c).1 =
            { c with tunnel.c2bLen := 0, tunnel.c2bSent := 0, answers.backendSend := a :: answers } := by
          cases a <;> rw [proxyTunnelFlushC2b, if_neg hlt]
        rw [hreset]
        exact ⟨(h.resetC2b hlt).frame _ _ _, rfl, List.suffix_rfl⟩

/-- **Flushing towards the client keeps the invariant.** -/
theorem proxyTunnelFlushB2c_tunnelled (answers : List ClientSend) {c : ReverseProxyConnection}
    (h : Tunnelled c) : TunnelGoesOn c (proxyTunnelFlushB2c answers c).1 := by
  induction answers generalizing c with
  | nil =>
      rw [proxyTunnelFlushB2c]
      by_cases hlt : c.tunnel.b2cSent < c.tunnel.b2cLen
      · rw [if_pos hlt]
        exact ⟨h.frame _ _ _, rfl, List.suffix_rfl⟩
      · rw [if_neg hlt]
        exact ⟨(h.resetB2c hlt).frame _ _ _, rfl, List.suffix_rfl⟩
  | cons a answers ih =>
      rw [proxyTunnelFlushB2c]
      by_cases hlt : c.tunnel.b2cSent < c.tunnel.b2cLen
      · rw [if_pos hlt]
        simp only
        have hnext := h.toClient (n := min a.taken (c.tunnel.b2cLen - c.tunnel.b2cSent)) (by omega)
        have hstep : TunnelGoesOn c _ := ⟨hnext, rfl, List.suffix_cons _ _⟩
        cases a.status with
        | failed =>
            exact hstep.trans ⟨(hnext.note (.inl rfl)).frame _ _ _, rfl, List.suffix_cons _ _⟩
        | sendBufferFull => exact hstep.trans ⟨hnext.frame _ _ _, rfl, List.suffix_rfl⟩
        | noMoreData =>
            simp only
            by_cases hzero : min a.taken (c.tunnel.b2cLen - c.tunnel.b2cSent) = 0
            · rw [if_pos hzero]
              exact hstep.trans ⟨hnext.frame _ _ _, rfl, List.suffix_rfl⟩
            · rw [if_neg hzero]
              exact hstep.trans (ih hnext)
      · rw [if_neg hlt]
        exact ⟨(h.resetB2c hlt).frame _ _ _, rfl, List.suffix_rfl⟩

theorem tunnelPushC2b_tunnelled {c : ReverseProxyConnection} (h : Tunnelled c) :
    TunnelGoesOn c (tunnelPushC2b c).1 := by
  unfold tunnelPushC2b
  split_ifs
  · exact proxyTunnelFlushC2b_tunnelled _ h
  · exact h.refl

/-- **Reading from the client keeps the invariant.** -/
theorem tunnelReadClient_tunnelled (answers : List ClientRecv) {c : ReverseProxyConnection}
    (h : Tunnelled c) : TunnelGoesOn c (tunnelReadClient answers c).1 := by
  induction answers generalizing c with
  | nil => exact h.refl
  | cons a answers ih =>
      unfold tunnelReadClient
      by_cases hempty : c.tunnel.c2bLen = 0
      · rw [if_pos hempty]
        cases a with
        | noMoreData => exact h.refl
        | broken => exact h.refl
        | data first more pending =>
            simp only
            have hread := h.fromClient hempty (List.length_take_le c.request.bufferSize (first :: more))
            have hstep : TunnelGoesOn c _ := ⟨hread, rfl, List.suffix_cons _ _⟩
            have hpush := hstep.trans (tunnelPushC2b_tunnelled hread)
            revert hpush
            rcases tunnelPushC2b _ with ⟨c', alive⟩
            intro hpush
            cases alive with
            | false => exact hpush
            | true =>
                cases pending with
                | false => exact hpush
                | true => exact hpush.trans (ih hpush.tunnelled)
      · rw [if_neg hempty]
        exact h.refl

/-- What can become of a tunnel: it goes on, or it is closed down. -/
structure TunnelNext (c c' : ReverseProxyConnection) : Prop where
  tunnelled : Tunnelled c'
  wire : c.wire <:+ c'.wire
  state : c'.state = .websocketTunnel ∨
    (c'.state = .error ∨ c'.state = .done) ∧ c'.sockets.clientHandle = false ∧
      c'.sockets.backendEvents = .none ∧ c'.sockets.closeSocket = true

theorem TunnelGoesOn.done {c c' : ReverseProxyConnection} (h : TunnelGoesOn c c') :
    TunnelNext c (enterDone c') :=
  ⟨h.tunnelled.frame _ _ _, h.wire, .inr ⟨.inr rfl, rfl, rfl, rfl⟩⟩

theorem TunnelGoesOn.error {c c' : ReverseProxyConnection} (h : TunnelGoesOn c c')
    (setup : ProxySetup) : TunnelNext c (enterError setup c') := by
  have heq : enterError setup c' = closeDown { c' with state := .error } := by
    unfold enterError
    simp only [if_pos h.tunnelled.headerSent]
  rw [heq]
  exact ⟨h.tunnelled.frame _ _ _, h.wire, .inr ⟨.inl rfl, rfl, rfl, rfl⟩⟩

theorem TunnelGoesOn.events {c c' : ReverseProxyConnection} (h : TunnelGoesOn c c')
    (hc : c.state = .websocketTunnel) : TunnelNext c (proxyTunnelUpdateEvents c') :=
  ⟨h.tunnelled.frame _ _ _, h.wire, .inl (h.state.trans hc)⟩

/-- **The client handler keeps the invariant of a tunnel.** -/
theorem tunnelClient_next {setup : ProxySetup} {c : ReverseProxyConnection} (h : Tunnelled c)
    (hc : c.state = .websocketTunnel) : TunnelNext c (tunnelClient setup c) := by
  unfold tunnelClient
  -- first the backlog towards the client
  have hflush : TunnelGoesOn c (if 0 < c.tunnel.b2cLen then
      proxyTunnelFlushB2c c.answers.clientSend c else (c, true)).1 := by
    split_ifs
    · exact proxyTunnelFlushB2c_tunnelled _ h
    · exact h.refl
  revert hflush
  rcases (if 0 < c.tunnel.b2cLen then proxyTunnelFlushB2c c.answers.clientSend c
    else (c, true)) with ⟨c', alive⟩
  intro hflush
  cases alive with
  | false => exact hflush.done
  | true =>
      have hread := hflush.trans (tunnelReadClient_tunnelled c'.answers.clientRecv hflush.tunnelled)
      simp only [if_true]
      revert hread
      rcases tunnelReadClient c'.answers.clientRecv c' with ⟨c'', result⟩
      intro hread
      cases result with
      | ok => exact hread.events hc
      | done => exact hread.done
      | error => exact hread.error setup

theorem TunnelNext.after {c c' c'' : ReverseProxyConnection} (h : TunnelNext c' c'')
    (hwire : c.wire <:+ c'.wire) : TunnelNext c c'' :=
  ⟨h.tunnelled, hwire.trans h.wire, h.state⟩

theorem tunnelReadBackend_next {setup : ProxySetup} {c : ReverseProxyConnection}
    (h : Tunnelled c) (hc : c.state = .websocketTunnel) :
    TunnelNext c (tunnelReadBackend setup c) := by
  unfold tunnelReadBackend
  by_cases hempty : c.tunnel.b2cLen = 0
  · rw [if_pos hempty]
    cases c.answers.backendRecv with
    | again => exact h.refl.events hc
    | closed =>
        have hnote : TunnelGoesOn c { c with wire := .backendClosed :: c.wire } :=
          ⟨h.note (.inr rfl), rfl, List.suffix_cons _ _⟩
        exact hnote.done
    | failed => exact h.refl.done
    | data first more =>
        simp only
        have hread := h.fromBackend hempty (List.length_take_le c.response.bufferSize (first :: more))
        have hstep : TunnelGoesOn c _ := ⟨hread, rfl, List.suffix_cons _ _⟩
        have hflush := hstep.trans (proxyTunnelFlushB2c_tunnelled
          (tunnelFillB2c ((first :: more).take c.response.bufferSize) c).answers.clientSend hread)
        revert hflush
        rcases proxyTunnelFlushB2c _ _ with ⟨c', alive⟩
        intro hflush
        cases alive with
        | false => exact hflush.error setup
        | true => exact hflush.events hc
  · rw [if_neg hempty]
    exact h.refl.events hc

/-- **The backend handler keeps the invariant of a tunnel.** -/
theorem tunnelBackend_next {setup : ProxySetup} {c : ReverseProxyConnection} (h : Tunnelled c)
    (hc : c.state = .websocketTunnel) : TunnelNext c (tunnelBackend setup c) := by
  unfold tunnelBackend
  by_cases hpending : 0 < c.tunnel.c2bLen
  · rw [if_pos hpending]
    have hflush := proxyTunnelFlushC2b_tunnelled c.answers.backendSend h
    revert hflush
    rcases proxyTunnelFlushC2b c.answers.backendSend c with ⟨c', alive⟩
    intro hflush
    cases alive with
    | false => exact hflush.error setup
    | true =>
        simp only
        have hc' : c'.state = .websocketTunnel := hflush.state.trans hc
        split_ifs
        · exact (tunnelClient_next hflush.tunnelled hc').after hflush.wire
        · exact (tunnelReadBackend_next hflush.tunnelled hc').after hflush.wire
  · rw [if_neg hpending]
    exact tunnelReadBackend_next h hc

/-! ## The beginning -/

theorem tunnelTrace_of_not_mem {w : List WireEvent} (h : WireEvent.tunnel ∉ w) :
    TunnelTrace w := by
  induction w with
  | nil => trivial
  | cons e w ih =>
      rw [List.mem_cons, not_or] at h
      refine ⟨ih h.2, fun hm => absurd hm h.2, fun hm => ?_⟩
      rcases List.mem_cons.mp hm with hm | hm
      · exact absurd hm h.1
      · exact absurd hm h.2

/-- A response header that has been sent before the tunnel begins. What came behind it is
still in the buffer. -/
structure Switching (c : ReverseProxyConnection) : Prop where
  tunnel : WireEvent.tunnel ∉ c.wire
  sendPos : c.sendPos ≤ c.response.buffer.length
  size : c.response.buffer.length ≤ c.response.bufferSize
  b2c : readFromBackend c.wire = sentToClient c.wire ++ c.response.buffer.drop c.sendPos
  headerSent : c.response.headerSent = true
  upgrade : c.response.isUpgrade = true ∧ c.response.bodyMode = .none

/-- **A tunnel begins with the bytes that came with the response header.** -/
theorem tunnelStart_next {setup : ProxySetup} {c : ReverseProxyConnection} (h : Switching c) :
    TunnelNext c (tunnelStart setup c) := by
  have hsince : sinceTunnel (.tunnel :: c.wire) = [] := by simp [sinceTunnel]
  have htrace : TunnelTrace (.tunnel :: c.wire) := by
    refine ⟨tunnelTrace_of_not_mem h.tunnel, fun hm => absurd hm h.tunnel, fun _ => ⟨?_, ⟨_, h.b2c.symm⟩⟩⟩
    rw [hsince]
    exact List.prefix_rfl
  have hstart : Tunnelled (tunnelOpen c) := by
    refine ⟨List.mem_cons_self, htrace, Nat.le_refl _, Nat.zero_le _, Nat.zero_le _, h.sendPos,
      Nat.le_refl _, h.size, ?_, ?_, h.headerSent, h.upgrade⟩
    · have hnone : pendingC2b (tunnelOpen c) = [] := by simp [pendingC2b, tunnelOpen]
      rw [hnone]
      exact (congrArg readFromClient hsince).trans (congrArg sentToBackend hsince).symm
    · have hrest : pendingB2c (tunnelOpen c) = c.response.buffer.drop c.sendPos :=
        congrArg (List.drop c.sendPos) List.take_length
      rw [hrest]
      exact h.b2c
  unfold tunnelStart
  simp only
  split_ifs with hsent
  · exact ⟨(hstart.resetB2c (Nat.not_lt.mpr hsent)).frame _ _ _, List.suffix_cons _ _, .inl rfl⟩
  · have hflush := proxyTunnelFlushB2c_tunnelled (tunnelOpen c).answers.clientSend hstart
    revert hflush
    rcases proxyTunnelFlushB2c _ _ with ⟨c', alive⟩
    intro hflush
    have hwire : c.wire <:+ (tunnelOpen c).wire := List.suffix_cons _ _
    cases alive with
    | false => exact (hflush.error setup).after hwire
    | true => exact (hflush.events rfl).after hwire

end CWebUI.Proxy
