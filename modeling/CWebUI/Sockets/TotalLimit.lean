import Mathlib.Logic.Relation
import CWebUI.Sockets.GlobalVictim

set_option autoImplicit false

/-! # The limit on all connections

`connLimitEnsureTotalRoom` (`system_sockets.c`) is asked before a connection is accepted and before
a proxy opens its backend. At the limit it closes connections that the server only waits for, a few
in one call. When the limit has been lowered the total may stay above it, and a connection is
admitted all the same if the total still comes down.

The state is the container with what closing needs of the proxies. What `connHasPendingInput`
answers is an argument, as in `Sockets/Admission.lean`. `total_limit` is what holds in every run of
admissions (`LimitRun`), in which the rest of the server does what it likes with the connections.
-/

namespace CWebUI.Sockets

/-! ## The model -/

/-- The container, the counter of the transfers, and for each socket the `backend_sock` of the proxy
connection that its `extern_handle_data_ptr` points at. -/
structure LimitState where
  container : SockContainer
  connIoSeq : Nat
  backendSock : SockId → Option SockId

/-- What a call has done: the connections that were asked about, with the answers, and the sockets
that were closed, with what they were then. -/
structure RoomState where
  state : LimitState
  asked : List (SockId × Bool) := []
  closed : List (SockId × SocketInfo) := []

/-- `CONN_LIMIT_NOTE_IO` -/
def LimitState.noteIo (sock : SockId) (t : LimitState) : LimitState :=
  { t with
    container := t.container.modify sock fun info => { info with lastIo := t.connIoSeq + 1 }
    connIoSeq := t.connIoSeq + 1 }

/-- A socket leaves the container and is freed. -/
def LimitState.delete (sock : SockId) (t : LimitState) : LimitState :=
  { t with
    container := deleteSocket sock t.container
    backendSock := Function.update t.backendSock sock none }

/-- A socket is closed in a call. -/
def RoomState.close (sock : SockId) (r : RoomState) : RoomState :=
  { r with
    state := r.state.delete sock
    closed := r.closed ++ [(sock, r.state.container.socks sock)] }

/-- `WebserverConnectionManagerCloseRequest`: with the client of a proxy, `reverse_proxy_cleanup`
closes the backend. -/
def RoomState.closeRequest (sock : SockId) (r : RoomState) : RoomState :=
  match r.state.backendSock sock with
  | some backend => if backend = sock then r.close sock else (r.close sock).close backend
  | none => r.close sock

/-- `CONN_TOTAL_MAX_TRIES` -/
def connTotalMaxTries : Nat := 8

/-- The loop of `connLimitEnsureTotalRoom`. -/
def roomLoop (pending : Nat → SockId → Bool) (limit : UInt32) : Nat → RoomState → RoomState
  | 0, r => r
  | tries + 1, r =>
      if r.state.container.clients < limit then r
      else
        let (container, victim) := connLimitPickGlobalVictim r.state.container
        let r := { r with state.container := container }
        match victim with
        | none => r
        | some victim =>
            let answer := pending r.asked.length victim
            let r := { r with asked := r.asked ++ [(victim, answer)] }
            if answer then roomLoop pending limit tries { r with state := r.state.noteIo victim }
            else roomLoop pending limit tries (r.closeRequest victim)

/-- `connLimitEnsureTotalRoom` -/
def connLimitEnsureTotalRoom (pending : Nat → SockId → Bool) (limit : Int32) (t : LimitState) :
    Bool × RoomState :=
  let before := t.container.clients
  if limit ≤ 0 ∨ before < limit.toUInt32 then (true, { state := t })
  else
    let r := roomLoop pending limit.toUInt32 connTotalMaxTries { state := t }
    let after := r.state.container.clients
    (after < limit.toUInt32 || after + 1 < before, r)

/-! ## The invariant -/

/-- **The state is consistent**: the container is, its counter is exact, and the proxies have their
backends when they have them: a connection that the server waits for has none, and a backend is
never taken for a client. Each socket has a descriptor, a nonnegative `int`, so there are few. -/
structure LimitInv (t : LimitState) (ids : List SockId) : Prop where
  container : ContainerInv t.container ids
  exact : t.container.clients.toNat = clientCount t.container.socks ids
  few : t.container.clients.toNat + 8 < 2 ^ 31
  waiting : ∀ a, connLimitIsEvictable (t.container.socks a) = true → t.backendSock a = none
  backend : ∀ a b, t.backendSock a = some b → isClientSocket (t.container.socks b) = false

/-! ## What the list does not see -/

/-- A socket without its links in the container. -/
def unlinked (info : SocketInfo) : SocketInfo :=
  { info with sockListPrev := none, sockListNext := none, inSockList := false }

theorem evictable_of_unlinked {info info' : SocketInfo} (h : unlinked info' = unlinked info) :
    connLimitIsEvictable info' = connLimitIsEvictable info :=
  (congrArg connLimitIsEvictable h :)

theorem isClientSocket_of_unlinked {info info' : SocketInfo} (h : unlinked info' = unlinked info) :
    isClientSocket info' = isClientSocket info :=
  (congrArg isClientSocket h :)

theorem server_of_unlinked {info info' : SocketInfo} (h : unlinked info' = unlinked info) :
    info'.server = info.server :=
  (congrArg SocketInfo.server h :)

section Links

variable {s : SockContainer}

theorem unlinked_modify {a : SockId} {f : SocketInfo → SocketInfo}
    (hf : unlinked (f (s.socks a)) = unlinked (s.socks a)) (b : SockId) :
    unlinked ((s.modify a f).socks b) = unlinked (s.socks b) := by
  by_cases hb : b = a
  · subst hb
    simp only [SockContainer.modify, Function.update_self, hf]
  · simp only [SockContainer.modify, Function.update_of_ne hb]

theorem unlinked_setNext (prev next : Option SockId) (b : SockId) :
    unlinked ((s.setNext prev next).socks b) = unlinked (s.socks b) := by
  cases prev with
  | none => rfl
  | some a =>
      refine unlinked_modify (s := s) (a := a) (f := fun sock => { sock with sockListNext := next })
        ?_ b
      rfl

theorem unlinked_setPrev (next prev : Option SockId) (b : SockId) :
    unlinked ((s.setPrev next prev).socks b) = unlinked (s.socks b) := by
  cases next with
  | none => rfl
  | some a =>
      refine unlinked_modify (s := s) (a := a) (f := fun sock => { sock with sockListPrev := prev })
        ?_ b
      rfl

theorem unlinked_sockListUnlink (sock b : SockId) :
    unlinked ((sockListUnlink sock s).socks b) = unlinked (s.socks b) := by
  unfold sockListUnlink
  dsimp only
  split_ifs
  · rfl
  all_goals
    refine (unlinked_modify ?_ b).trans ((unlinked_setPrev _ _ b).trans (unlinked_setNext _ _ b))
    rfl

theorem unlinked_addSocketContainer (sock b : SockId) :
    unlinked ((addSocketContainer sock s).socks b) = unlinked (s.socks b) := by
  let s₁ := s.modify sock fun info => { info with sockListPrev := s.tail, sockListNext := none }
  let s₂ := s₁.setNext s.tail (some sock)
  let s₃ := ({ s₂ with tail := some sock } : SockContainer).modify sock
    fun info => { info with inSockList := true }
  have h₁ : unlinked (s₁.socks b) = unlinked (s.socks b) := by
    refine unlinked_modify ?_ b
    rfl
  have h₂ : unlinked (s₂.socks b) = unlinked (s₁.socks b) := unlinked_setNext _ _ b
  have h₃ : unlinked (s₃.socks b) = unlinked (s₂.socks b) := by
    refine unlinked_modify (s := { s₂ with tail := some sock }) ?_ b
    rfl
  have hall : unlinked (s₃.socks b) = unlinked (s.socks b) := h₃.trans (h₂.trans h₁)
  unfold addSocketContainer
  dsimp only
  split_ifs
  · exact hall
  · exact hall
  · rfl

/-- A socket that is closed is no longer one to close; the others are what they were. -/
theorem deleteSocket_unlinked (sock b : SockId) :
    unlinked ((deleteSocket sock s).socks b) =
      if b = sock then { unlinked (s.socks b) with closeSocket := true }
      else unlinked (s.socks b) := by
  unfold deleteSocket
  rw [unlinked_sockListUnlink]
  by_cases hb : b = sock
  · subst hb
    simp only [SockContainer.modify, Function.update_self, if_true, unlinked]
  · simp only [SockContainer.modify, Function.update_of_ne hb, if_neg hb]

theorem deleteSocket_evictable {sock b : SockId}
    (h : connLimitIsEvictable ((deleteSocket sock s).socks b) = true) :
    b ≠ sock ∧ connLimitIsEvictable (s.socks b) = true := by
  have hun := deleteSocket_unlinked (s := s) sock b
  by_cases hb : b = sock
  · rw [if_pos hb] at hun
    have hclose : ((deleteSocket sock s).socks b).closeSocket = true :=
      (congrArg SocketInfo.closeSocket hun :)
    simp [connLimitIsEvictable, hclose] at h
  · rw [if_neg hb] at hun
    rw [evictable_of_unlinked hun] at h
    exact ⟨hb, h⟩

theorem deleteSocket_isClientSocket (sock b : SockId) :
    isClientSocket ((deleteSocket sock s).socks b) = isClientSocket (s.socks b) := by
  have hun := congrArg isClientSocket (deleteSocket_unlinked (s := s) sock b)
  split_ifs at hun <;> exact hun

theorem deleteSocket_server (sock b : SockId) :
    ((deleteSocket sock s).socks b).server = (s.socks b).server := by
  have hun := congrArg SocketInfo.server (deleteSocket_unlinked (s := s) sock b)
  split_ifs at hun <;> exact hun

end Links

/-! ## What the operations keep -/

section Invariant

variable {t : LimitState} {ids : List SockId}

theorem clientCount_erase (socks : SockMemory) {sock : SockId} (hsock : sock ∈ ids) :
    clientCount socks ids =
      clientCount socks (ids.erase sock) + if (socks sock).server = false then 1 else 0 := by
  unfold clientCount
  rw [(List.perm_cons_erase hsock).countP_eq, List.countP_cons]
  simp

/-- A count below `2 ^ 32` is the counter of the container. -/
theorem ContainerInv.clients_eq {s : SockContainer} (h : ContainerInv s ids)
    (hlt : clientCount s.socks ids < 2 ^ 32) : s.clients.toNat = clientCount s.socks ids := by
  rw [h.clients, Nat.mod_eq_of_lt hlt]

/-- A socket is closed, wherever it stands. -/
theorem LimitInv.delete (h : LimitInv t ids) (sock : SockId) :
    LimitInv (t.delete sock) (ids.erase sock) ∧
      (t.delete sock).container.clients.toNat ≤ t.container.clients.toNat ∧
      (sock ∈ ids → (t.container.socks sock).server = false →
        (t.delete sock).container.clients.toNat + 1 = t.container.clients.toNat) := by
  have hcont := h.container.delete sock
  have hcount : clientCount (deleteSocket sock t.container).socks (ids.erase sock) =
      clientCount t.container.socks (ids.erase sock) :=
    clientCount_congr fun a _ => deleteSocket_server sock a
  have hle : clientCount t.container.socks (ids.erase sock) ≤ clientCount t.container.socks ids :=
    List.erase_sublist.countP_le
  have hexact := h.exact
  have hfew := h.few
  have hnew : (deleteSocket sock t.container).clients.toNat =
      clientCount t.container.socks (ids.erase sock) := by
    rw [hcont.clients_eq (by rw [hcount]; omega), hcount]
  refine ⟨⟨hcont, by rw [← hcount] at hnew; exact hnew, ?_, ?_, ?_⟩, ?_, ?_⟩
  · show (deleteSocket sock t.container).clients.toNat + 8 < 2 ^ 31
    omega
  · intro a ha
    obtain ⟨hne, hevict⟩ := deleteSocket_evictable ha
    show Function.update t.backendSock sock none a = none
    rw [Function.update_of_ne hne]
    exact h.waiting a hevict
  · intro a b hb
    show isClientSocket ((deleteSocket sock t.container).socks b) = false
    rw [deleteSocket_isClientSocket]
    have hupdate : Function.update t.backendSock sock none a = some b := hb
    by_cases ha : a = sock
    · subst ha
      rw [Function.update_self] at hupdate
      cases hupdate
    · rw [Function.update_of_ne ha] at hupdate
      exact h.backend a b hupdate
  · show (deleteSocket sock t.container).clients.toNat ≤ t.container.clients.toNat
    omega
  · intro hsock hserver
    have herase := clientCount_erase t.container.socks hsock
    rw [if_pos hserver] at herase
    show (deleteSocket sock t.container).clients.toNat + 1 = t.container.clients.toNat
    omega

/-- A change that the list does not see, and that keeps what is known about the proxies. -/
theorem LimitInv.noteIo (h : LimitInv t ids) (sock : SockId) : LimitInv (t.noteIo sock) ids := by
  have hsame : ∀ a, connLimitIsEvictable ((t.noteIo sock).container.socks a) =
        connLimitIsEvictable (t.container.socks a) ∧
      isClientSocket ((t.noteIo sock).container.socks a) = isClientSocket (t.container.socks a) ∧
      ((t.noteIo sock).container.socks a).server = (t.container.socks a).server := by
    intro a
    by_cases ha : a = sock
    · subst ha
      simp [LimitState.noteIo, SockContainer.modify, connLimitIsEvictable, isClientSocket]
    · simp [LimitState.noteIo, SockContainer.modify, Function.update_of_ne ha]
  refine ⟨?_, ?_, h.few, fun a ha => ?_, fun a b hb => ?_⟩
  · refine h.container.modify sock
      (f := fun info => { info with lastIo := t.connIoSeq + 1 }) ?_ ?_ ?_ fun _ => ?_
    all_goals rfl
  · have hcount : clientCount (t.noteIo sock).container.socks ids =
        clientCount t.container.socks ids := clientCount_congr fun a _ => (hsame a).2.2
    rw [hcount]
    exact h.exact
  · rw [(hsame a).1] at ha
    exact h.waiting a ha
  · rw [(hsame b).2.1]
    exact h.backend a b hb

/-- The search moves its cursor only. -/
theorem LimitInv.pick (h : LimitInv t ids) :
    LimitInv { t with container := (connLimitPickGlobalVictim t.container).1 } ids :=
  ⟨h.container.pick, h.exact, h.few, h.waiting, h.backend⟩

/-- A socket is added. -/
theorem LimitInv.add (h : LimitInv t ids) {sock : SockId} (hsock : sock ∉ ids)
    (hserver : (t.container.socks sock).server = false)
    (hfew : t.container.clients.toNat + 9 < 2 ^ 31) :
    LimitInv { t with container := addSocketContainer sock t.container } (ids ++ [sock]) ∧
      (addSocketContainer sock t.container).clients.toNat = t.container.clients.toNat + 1 := by
  have hcont := h.container.add hsock
  have hcount : clientCount (addSocketContainer sock t.container).socks (ids ++ [sock]) =
      clientCount t.container.socks ids + 1 := by
    have hsame : clientCount (addSocketContainer sock t.container).socks (ids ++ [sock]) =
        clientCount t.container.socks (ids ++ [sock]) :=
      clientCount_congr fun a _ => server_of_unlinked (unlinked_addSocketContainer sock a)
    rw [hsame]
    unfold clientCount
    rw [List.countP_append, List.countP_singleton, hserver]
    rfl
  have hexact := h.exact
  have hnew := hcont.clients_eq (by rw [hcount]; omega)
  refine ⟨⟨hcont, hnew, ?_, fun a ha => ?_, fun a b hb => ?_⟩, by omega⟩
  · show (addSocketContainer sock t.container).clients.toNat + 8 < 2 ^ 31
    omega
  · exact h.waiting a ((evictable_of_unlinked (unlinked_addSocketContainer sock a)).symm.trans ha)
  · exact (isClientSocket_of_unlinked (unlinked_addSocketContainer sock b)).trans
      (h.backend a b hb)

end Invariant

/-! ## A call -/

/-- What closing did is right: each socket was linked, a connection of a client that may be closed
and had no input waiting, and it is the backend of no proxy. -/
structure ClosedRightly (backendSock : SockId → Option SockId) (ids : List SockId)
    (asked : List (SockId × Bool)) (entry : SockId × SocketInfo) : Prop where
  linked : entry.1 ∈ ids
  client : isClientSocket entry.2 = true
  evictable : connLimitIsEvictable entry.2 = true
  idle : (entry.1, false) ∈ asked
  backend : ∀ a, backendSock a ≠ some entry.1

/-- What some tries have done: they have closed at most as many sockets, all of them rightly, and
the total has come down by their number. -/
structure Tried (ids : List SockId) (tries : Nat) (r r' : RoomState) : Prop where
  inv : ∃ ids', LimitInv r'.state ids' ∧ ids'.Sublist ids
  asked : r.asked <+: r'.asked
  backends : r'.state.backendSock = r.state.backendSock
  closed : ∃ new, r'.closed = r.closed ++ new ∧ new.length ≤ tries ∧
    r'.state.container.clients.toNat + new.length = r.state.container.clients.toNat ∧
    ∀ entry ∈ new, ClosedRightly r.state.backendSock ids r'.asked entry

section Room

variable {r r₁ r' : RoomState} {ids : List SockId}

/-- Nothing has been closed. -/
theorem Tried.keep (hinv : LimitInv r'.state ids) (hasked : r.asked <+: r'.asked)
    (hbackends : r'.state.backendSock = r.state.backendSock) (hclosed : r'.closed = r.closed)
    (hclients : r'.state.container.clients = r.state.container.clients) (tries : Nat) :
    Tried ids tries r r' := by
  refine ⟨⟨ids, hinv, List.Sublist.refl _⟩, hasked, hbackends, [], ?_, Nat.zero_le _, ?_, ?_⟩
  · rw [hclosed, List.append_nil]
  · rw [hclients]
    rfl
  · intro entry hentry
    cases hentry

/-- A first part, and then some tries. -/
theorem Tried.trans {ids₁ : List SockId} {first rest : Nat} (h : Tried ids first r r₁)
    (hids : ids₁.Sublist ids) (h₁ : Tried ids₁ rest r₁ r') : Tried ids (first + rest) r r' := by
  obtain ⟨new, hnew, hlen, hcount, hall⟩ := h.closed
  obtain ⟨new₁, hnew₁, hlen₁, hcount₁, hall₁⟩ := h₁.closed
  obtain ⟨ids', hinv, hsub⟩ := h₁.inv
  refine ⟨⟨ids', hinv, hsub.trans hids⟩, h.asked.trans h₁.asked, h₁.backends.trans h.backends,
    new ++ new₁, ?_, ?_, ?_, ?_⟩
  · rw [hnew₁, hnew, List.append_assoc]
  · rw [List.length_append]
    omega
  · rw [List.length_append]
    omega
  · intro entry hentry
    rcases List.mem_append.mp hentry with hin | hin
    · obtain ⟨hlinked, hclient, hevict, hidle, hback⟩ := hall entry hin
      exact ⟨hlinked, hclient, hevict, h₁.asked.subset hidle, hback⟩
    · obtain ⟨hlinked, hclient, hevict, hidle, hback⟩ := hall₁ entry hin
      refine ⟨hids.subset hlinked, hclient, hevict, hidle, fun a => ?_⟩
      rw [← h.backends]
      exact hback a

/-- A victim without input is closed: it alone leaves the container. -/
theorem LimitInv.closeRequest (h : LimitInv r.state ids) {victim : SockId} (hin : victim ∈ ids)
    (hclient : isClientSocket (r.state.container.socks victim) = true)
    (hevict : connLimitIsEvictable (r.state.container.socks victim) = true)
    (hidle : (victim, false) ∈ r.asked) :
    LimitInv (r.closeRequest victim).state (ids.erase victim) ∧
      Tried ids 1 r (r.closeRequest victim) := by
  -- the server waits for it, so it has no backend
  have hnone := h.waiting victim hevict
  have hclose : r.closeRequest victim = r.close victim := by
    unfold RoomState.closeRequest
    rw [hnone]
  have hserver : (r.state.container.socks victim).server = false := by
    cases hs : (r.state.container.socks victim).server with
    | false => rfl
    | true => simp [isClientSocket, hs] at hclient
  obtain ⟨hinv, -, hcount⟩ := h.delete victim
  rw [hclose]
  refine ⟨hinv, ⟨_, hinv, List.erase_sublist⟩, List.prefix_rfl, ?_,
    [(victim, r.state.container.socks victim)], rfl, Nat.le_refl _, hcount hin hserver, ?_⟩
  · show Function.update r.state.backendSock victim none = r.state.backendSock
    rw [← hnone, Function.update_eq_self]
  · intro entry hentry
    obtain rfl := List.mem_singleton.mp hentry
    refine ⟨hin, hclient, hevict, hidle, fun a ha => ?_⟩
    have hback := h.backend a victim ha
    rw [hclient] at hback
    cases hback

/-- **The loop** closes at most one connection in each try. -/
theorem LimitInv.roomLoop (h : LimitInv r.state ids) (pending : Nat → SockId → Bool)
    (limit : UInt32) (tries : Nat) :
    Tried ids tries r (Sockets.roomLoop pending limit tries r) := by
  induction tries generalizing r ids with
  | zero => exact Tried.keep h List.prefix_rfl rfl rfl rfl 0
  | succ tries ih =>
      rw [Sockets.roomLoop]
      by_cases hroom : r.state.container.clients < limit
      · rw [if_pos hroom]
        exact Tried.keep h List.prefix_rfl rfl rfl rfl _
      · rw [if_neg hroom]
        have hpick := h.pick
        cases hv : (connLimitPickGlobalVictim r.state.container).2 with
        | none =>
            dsimp only
            rw [hv]
            refine Tried.keep ?_ ?_ ?_ ?_ ?_ _
            · exact hpick
            · exact List.prefix_rfl
            all_goals rfl
        | some victim =>
            obtain ⟨hin, hclient, hevict⟩ := h.container.pick_victim hv
            dsimp only
            rw [hv]
            dsimp only
            cases hanswer : pending r.asked.length victim with
            | true =>
                -- its input counts as a transfer, and the next try looks for another one
                rw [if_pos rfl, Nat.add_comm tries 1]
                have hnoted := hpick.noteIo victim
                have hfirst : Tried ids 1 r { r with
                    state := LimitState.noteIo victim
                      { r.state with container := (connLimitPickGlobalVictim r.state.container).1 }
                    asked := r.asked ++ [(victim, true)] } := by
                  refine Tried.keep ?_ ?_ ?_ ?_ ?_ _
                  · exact hnoted
                  · exact List.prefix_append _ _
                  all_goals rfl
                exact hfirst.trans (List.Sublist.refl _) (ih hnoted)
            | false =>
                rw [if_neg (by decide), Nat.add_comm tries 1]
                obtain ⟨hinv, htried⟩ := LimitInv.closeRequest
                  (r := { r with
                    state.container := (connLimitPickGlobalVictim r.state.container).1
                    asked := r.asked ++ [(victim, false)] })
                  hpick hin hclient hevict (by simp)
                have hfirst : Tried ids 1 r _ :=
                  ⟨htried.inv, (List.prefix_append _ _).trans htried.asked, htried.backends,
                    htried.closed⟩
                exact hfirst.trans List.erase_sublist (ih hinv)

end Room

/-- The number of connections that the limit counts. -/
def LimitState.total (t : LimitState) : Nat := t.container.clients.toNat

theorem toUInt32_of_pos {limit : Int32} (h : 0 < limit) :
    (limit.toUInt32.toNat : Int) = limit.toInt := by
  have hpos : 0 < limit.toBitVec.toInt := Int32.lt_iff_toInt_lt.mp h
  have hcond := BitVec.toInt_eq_toNat_cond limit.toBitVec
  have hlt := limit.toBitVec.isLt
  show (limit.toBitVec.toNat : Int) = limit.toBitVec.toInt
  split_ifs at hcond <;> omega

/-- What a call does: it closes few sockets, all of them rightly, and it admits a connection only
if the total with it is within the limit, or comes down. -/
structure RoomSpec (pending : Nat → SockId → Bool) (limit : Int32) (t : LimitState)
    (ids : List SockId) (res : Bool × RoomState) : Prop where
  few : res.2.closed.length ≤ connTotalMaxTries
  closed : ∀ entry ∈ res.2.closed, ClosedRightly t.backendSock ids res.2.asked entry
  room : res.1 = true → 0 < limit →
    (res.2.state.total + 1 : Int) ≤ limit.toInt ∨ res.2.state.total + 1 < t.total
  inv : ∃ ids', LimitInv res.2.state ids' ∧ ids'.Sublist ids
  total : res.2.state.total ≤ t.total

theorem Tried.roomSpec {pending : Nat → SockId → Bool} {limit : Int32} {t : LimitState}
    {ids : List SockId} {r' : RoomState} {admitted : Bool}
    (h : Tried ids connTotalMaxTries { state := t } r')
    (hroom : admitted = true → 0 < limit →
      (r'.state.total + 1 : Int) ≤ limit.toInt ∨ r'.state.total + 1 < t.total) :
    RoomSpec pending limit t ids (admitted, r') := by
  obtain ⟨new, hnew, hlen, hcount, hall⟩ := h.closed
  rw [List.nil_append] at hnew
  refine ⟨?_, ?_, hroom, h.inv, ?_⟩
  · rw [hnew]
    exact hlen
  · rw [hnew]
    exact hall
  · have hcount' : r'.state.total + new.length = t.total := hcount
    show r'.state.total ≤ t.total
    omega

/-- **`connLimitEnsureTotalRoom`** -/
theorem LimitInv.ensureTotalRoom {t : LimitState} {ids : List SockId} (h : LimitInv t ids)
    (pending : Nat → SockId → Bool) (limit : Int32) :
    RoomSpec pending limit t ids (connLimitEnsureTotalRoom pending limit t) := by
  unfold connLimitEnsureTotalRoom
  dsimp only
  by_cases hfree : limit ≤ 0 ∨ t.container.clients < limit.toUInt32
  · rw [if_pos hfree]
    refine (Tried.keep h List.prefix_rfl rfl rfl rfl _).roomSpec fun _ hpos => .inl ?_
    have hlimit := toUInt32_of_pos hpos
    have hlt := UInt32.lt_iff_toNat_lt.mp
      (hfree.resolve_left fun hle => absurd hpos (Int32.not_lt.mpr hle))
    show (t.container.clients.toNat + 1 : Int) ≤ limit.toInt
    omega
  · rw [if_neg hfree]
    have htried := LimitInv.roomLoop (r := { state := t }) h pending limit.toUInt32
      connTotalMaxTries
    refine htried.roomSpec fun hadmit hpos => ?_
    have hlimit := toUInt32_of_pos hpos
    obtain ⟨ids', hinv, -⟩ := htried.inv
    have hfew := hinv.few
    set r' := Sockets.roomLoop pending limit.toUInt32 connTotalMaxTries { state := t } with hr'
    rw [Bool.or_eq_true, decide_eq_true_eq, decide_eq_true_eq, UInt32.lt_iff_toNat_lt,
      UInt32.lt_iff_toNat_lt, UInt32.toNat_add] at hadmit
    have hone : (1 : UInt32).toNat = 1 := rfl
    rw [hone, Nat.mod_eq_of_lt (by omega)] at hadmit
    show (r'.state.container.clients.toNat + 1 : Int) ≤ limit.toInt ∨
      r'.state.container.clients.toNat + 1 < t.container.clients.toNat
    omega

/-! ## Runs of admissions -/

/-- What the rest of the server does with the connections and the proxies: the list stays, and what
is known about the proxies stays true. -/
structure Unseen (t t' : LimitState) : Prop where
  record : t'.container.head = t.container.head ∧ t'.container.tail = t.container.tail ∧
    t'.container.clients = t.container.clients ∧ t'.container.cursor = t.container.cursor
  links : sockLinks t'.container.socks = sockLinks t.container.socks
  inSockList : ∀ a, (t'.container.socks a).inSockList = (t.container.socks a).inSockList
  server : ∀ a, (t.container.socks a).inSockList = true →
    (t'.container.socks a).server = (t.container.socks a).server
  waiting : ∀ a, connLimitIsEvictable (t'.container.socks a) = true → t'.backendSock a = none
  backend : ∀ a b, t'.backendSock a = some b → isClientSocket (t'.container.socks b) = false

/-- A step of a run. A connection is admitted when there is room, and then there is a descriptor for
it; or it is refused, or lost before it is added. Connections are closed elsewhere too. -/
inductive LimitStep (limit : Int32) : LimitState → LimitState → Prop
  | accept {t t' : LimitState} (pending : Nat → SockId → Bool) (sock : SockId)
      (hroom : (connLimitEnsureTotalRoom pending limit t).1 = true)
      (ht' : (connLimitEnsureTotalRoom pending limit t).2.state = t')
      (hnew : (t'.container.socks sock).inSockList = false)
      (hserver : (t'.container.socks sock).server = false)
      (hdescriptor : t'.total + 9 < 2 ^ 31) :
      LimitStep limit t { t' with container := addSocketContainer sock t'.container }
  | refuse {t : LimitState} (pending : Nat → SockId → Bool) :
      LimitStep limit t (connLimitEnsureTotalRoom pending limit t).2.state
  | close {t : LimitState} (sock : SockId) : LimitStep limit t (t.delete sock)
  | change {t t' : LimitState} (h : Unseen t t') : LimitStep limit t t'

/-- A run under a fixed limit. -/
abbrev LimitRun (limit : Int32) : LimitState → LimitState → Prop :=
  Relation.ReflTransGen (LimitStep limit)

theorem LimitInv.change {t t' : LimitState} {ids : List SockId} (h : LimitInv t ids)
    (hunseen : Unseen t t') : LimitInv t' ids := by
  obtain ⟨⟨hhead, htail, hclients, hcursor⟩, hlinks, hlist, hserver, hwaiting, hbackend⟩ := hunseen
  have hcount : clientCount t'.container.socks ids = clientCount t.container.socks ids :=
    clientCount_congr fun a ha => hserver a ((h.container.inSockList a).mpr ha)
  refine ⟨⟨h.container.nodup, ?_, fun a => ?_, ?_, fun a ha => ?_⟩, ?_, ?_, hwaiting, hbackend⟩
  · unfold Listed
    rw [hlinks, hhead, htail]
    exact h.container.linked
  · rw [hlist a]
    exact h.container.inSockList a
  · rw [hclients, hcount]
    exact h.container.clients
  · rw [hcursor] at ha
    exact h.container.cursor a ha
  · rw [hclients, hcount]
    exact h.exact
  · rw [hclients]
    exact h.few

/-- **A step** keeps the state consistent. With a limit, the total is then within the limit, or no
larger than it was. -/
theorem LimitStep.spec {limit : Int32} {t t' : LimitState} {ids : List SockId}
    (hstep : LimitStep limit t t') (h : LimitInv t ids) :
    (∃ ids', LimitInv t' ids') ∧
      (0 < limit → (t'.total : Int) ≤ limit.toInt ∨ t'.total ≤ t.total) := by
  cases hstep with
  | @accept t₁ pending sock hroom ht₁ hnew hserver hdescriptor =>
      have hspec := h.ensureTotalRoom pending limit
      obtain ⟨ids₁, hinv, -⟩ := hspec.inv
      rw [ht₁] at hinv
      have hout : sock ∉ ids₁ := fun hin => by
        rw [(hinv.container.inSockList sock).mpr hin] at hnew
        cases hnew
      obtain ⟨hadd, htotal⟩ := hinv.add hout hserver hdescriptor
      refine ⟨⟨_, hadd⟩, fun hpos => ?_⟩
      have hafter := hspec.room hroom hpos
      rw [ht₁] at hafter
      have htotal' : (⟨addSocketContainer sock t₁.container, t₁.connIoSeq, t₁.backendSock⟩ :
          LimitState).total = t₁.total + 1 := htotal
      rw [htotal']
      omega
  | refuse pending =>
      have hspec := h.ensureTotalRoom pending limit
      obtain ⟨ids₁, hinv, -⟩ := hspec.inv
      exact ⟨⟨ids₁, hinv⟩, fun _ => .inr hspec.total⟩
  | close sock =>
      obtain ⟨hinv, hle, -⟩ := h.delete sock
      exact ⟨⟨_, hinv⟩, fun _ => .inr hle⟩
  | change hunseen =>
      have hclients := hunseen.record.2.2.1
      refine ⟨⟨ids, h.change hunseen⟩, fun _ => .inr ?_⟩
      rw [LimitState.total, LimitState.total, hclients]

/-- **A run** keeps the state consistent, and the total within the limit or what it began with. -/
theorem LimitRun.spec {limit : Int32} {t₀ t : LimitState} {ids₀ : List SockId}
    (hrun : LimitRun limit t₀ t) (h₀ : LimitInv t₀ ids₀) :
    (∃ ids, LimitInv t ids) ∧
      (0 < limit → (t.total : Int) ≤ limit.toInt ∨ t.total ≤ t₀.total) := by
  induction hrun with
  | refl => exact ⟨⟨ids₀, h₀⟩, fun _ => .inr (Nat.le_refl _)⟩
  | tail _ hstep ih =>
      obtain ⟨⟨ids, hinv⟩, hbound⟩ := ih
      obtain ⟨hinv', hnext⟩ := hstep.spec hinv
      refine ⟨hinv', fun hpos => ?_⟩
      rcases hnext hpos with hwithin | hle
      · exact .inl hwithin
      · rcases hbound hpos with hwithin | hle₀
        · exact .inl (by omega)
        · exact .inr (hle.trans hle₀)

/-- What a search does from wherever its cursor stands: it leaves it null or at a linked socket, and
with few connections and listeners it finds the client with the oldest transfer of those that may be
closed. -/
structure SearchSpec (s : SockContainer) (ids : List SockId) : Prop where
  cursor : ∀ a, (connLimitPickGlobalVictim s).1.cursor = some a → a ∈ ids
  oldest : (clientsOf s.socks ids).length ≤ connGlobalWindow →
    (listenersOf s.socks ids).length ≤ 8 →
    ∀ victim, (connLimitPickGlobalVictim s).2 = some victim →
      IsOldest s.socks (clientsOf s.socks ids) victim
  nothing : (clientsOf s.socks ids).length ≤ connGlobalWindow →
    (listenersOf s.socks ids).length ≤ 8 →
    ((connLimitPickGlobalVictim s).2 = none ↔
      ∀ a ∈ clientsOf s.socks ids, connLimitIsEvictable (s.socks a) = false)

theorem LimitInv.search {t : LimitState} {ids : List SockId} (h : LimitInv t ids) :
    SearchSpec t.container ids :=
  ⟨h.container.pick.cursor,
    fun hclients hlisteners =>
      (h.container.pick_all h.exact h.few hclients hlisteners).2,
    fun hclients hlisteners =>
      (h.container.pick_all h.exact h.few hclients hlisteners).none_iff⟩

/-- The state after `initSocketContainer` is consistent. -/
theorem limitInv_init (socks : SockMemory) (hsocks : ∀ a, (socks a).inSockList = false) :
    LimitInv ⟨initSocketContainer socks, 0, fun _ => none⟩ [] := by
  have hfew : (0 : UInt32).toNat + 8 < 2 ^ 31 := by decide
  refine ⟨⟨List.nodup_nil, ⟨rfl, rfl⟩, fun a => ?_, rfl, fun a ha => ?_⟩, rfl, hfew,
    fun _ _ => rfl, fun a b hb => ?_⟩
  · simp [initSocketContainer, hsocks a]
  · exact absurd ha (by simp [initSocketContainer])
  · cases hb

/-- **The limit on all connections.** In every state of every run, the search for a victim is right,
a call makes room rightly, and no step lets the total rise while it is above the limit: so it stays
within the limit, or what the run began with. -/
theorem total_limit (limit : Int32) {t₀ t : LimitState} {ids₀ : List SockId}
    (h₀ : LimitInv t₀ ids₀) (hrun : LimitRun limit t₀ t) :
    ∃ ids, LimitInv t ids ∧ SearchSpec t.container ids ∧
      (∀ pending, RoomSpec pending limit t ids (connLimitEnsureTotalRoom pending limit t)) ∧
      (0 < limit → ((t.total : Int) ≤ limit.toInt ∨ t.total ≤ t₀.total) ∧
        ∀ t', LimitStep limit t t' → limit.toInt < t.total → t'.total ≤ t.total) := by
  obtain ⟨⟨ids, hinv⟩, hbound⟩ := hrun.spec h₀
  refine ⟨ids, hinv, hinv.search, fun pending => hinv.ensureTotalRoom pending limit, fun hpos =>
    ⟨hbound hpos, fun t' hstep habove => ?_⟩⟩
  rcases (hstep.spec hinv).2 hpos with hwithin | hle
  · omega
  · exact hle

/-- A connection is admitted under a limit of one. -/
theorem total_limit_one :
    let socks : SockMemory := fun _ => { header := some (false, 0) }
    let t : LimitState := ⟨addSocketContainer 3 (initSocketContainer socks), 0, fun _ => none⟩
    ∃ ids, LimitInv t ids ∧ SearchSpec t.container ids ∧
      (∀ pending, RoomSpec pending 1 t ids (connLimitEnsureTotalRoom pending 1 t)) ∧
      ((0 : Int32) < 1 → ((t.total : Int) ≤ (1 : Int32).toInt ∨ t.total ≤ 0) ∧
        ∀ t', LimitStep 1 t t' → (1 : Int32).toInt < t.total → t'.total ≤ t.total) :=
  total_limit 1 (limitInv_init (fun _ => { header := some (false, 0) }) fun _ => rfl)
    (Relation.ReflTransGen.single
      (LimitStep.accept (fun _ _ => false) 3 rfl rfl rfl rfl (by decide)))

end CWebUI.Sockets
