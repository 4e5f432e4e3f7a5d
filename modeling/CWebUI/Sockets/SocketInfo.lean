import CWebUI.Basic.DoublyLinked
import CWebUI.Proxy.Connection

set_option autoImplicit false

/-! # The sockets of the server

`socket_info` (`dataTypes.h`), as far as the socket container and the connection limits read it
(`system_sockets_container.c`). A socket is named by its address. It is linked into two lists
through fields of its own: the list of all sockets, and the list of the connections from one
address.
-/

namespace CWebUI.Sockets

open DoublyLinked CWebUI.Proxy

/-- The address of a `socket_info`. -/
abbrev SockId : Type := Nat

/-- The address of a `conn_group`. -/
abbrev GroupId : Type := Nat

/-- `extern_handle`, as far as it is told apart. -/
inductive ExternHandle where
  | none
  | reverseProxyClient
  | reverseProxyBackend
  | other
  deriving DecidableEq, Repr

/-- `socket_info`. Of the proxy connection that `extern_handle_data_ptr` points at, only the
state and `request_body_received` are kept, of the header record only `header_complete` and
`post_buffer_pos`. `last_io` counts transfers, in 64 bits. -/
structure SocketInfo where
  server : Bool := false
  sockListPrev : Option SockId := none
  sockListNext : Option SockId := none
  inSockList : Bool := false
  connGroup : Option GroupId := none
  grpPrev : Option SockId := none
  grpNext : Option SockId := none
  lastIo : Nat := 0
  closeSocket : Bool := false
  isWebsocket : Bool := false
  postStreamingActive : Bool := false
  outputListEmpty : Bool := true
  externHandle : ExternHandle := .none
  proxy : Option (ProxyState × Nat) := none
  header : Option (Bool × Nat) := none
  deriving DecidableEq, Repr

/-- The memory of the sockets. -/
abbrev SockMemory : Type := SockId → SocketInfo

/-- `connLimitIsEvictable` -/
def connLimitIsEvictable (sock : SocketInfo) : Bool :=
  if sock.closeSocket || sock.isWebsocket || sock.postStreamingActive || !sock.outputListEmpty then
    false
  else if sock.externHandle ≠ .none then
    match sock.externHandle, sock.proxy with
    | .reverseProxyClient, some (state, requestBodyReceived) =>
        state = .recvClientHeader || (state = .recvClientBody && requestBodyReceived = 0)
    | _, _ => false
  else
    match sock.header with
    | none => false
    | some (headerComplete, postBufferPos) => !(headerComplete && 0 < postBufferPos)

/-! ## The links of the container list -/

/-- The links of the container list, as a heap of list nodes. -/
def sockLinks (socks : SockMemory) : SockId → Option (Node SockId Unit) := fun a =>
  some ⟨(socks a).sockListNext, (socks a).sockListPrev, ()⟩

/-- The sockets, from first to last, are linked both ways into the container list. -/
def Listed (socks : SockMemory) (first : Option SockId) (ids : List SockId)
    (last : Option SockId) : Prop :=
  Segment (sockLinks socks) none first (ids.map (·, ())) none last

theorem map_fst_unit (ids : List SockId) : (ids.map (·, ())).map Prod.fst = ids := by
  rw [List.map_map]
  exact List.map_id ids

theorem sockLinks_update (socks : SockMemory) (a : SockId) (sock : SocketInfo) :
    sockLinks (Function.update socks a sock) =
      Function.update (sockLinks socks) a (some ⟨sock.sockListNext, sock.sockListPrev, ()⟩) := by
  funext b
  by_cases hb : b = a
  · subst hb
    simp [sockLinks]
  · simp [sockLinks, Function.update_of_ne hb]

/-! ## The links of the members of a group -/

/-- The links of the members of a group, as a heap of list nodes. -/
def grpLinks (socks : SockMemory) : SockId → Option (Node SockId Unit) := fun a =>
  some ⟨(socks a).grpNext, (socks a).grpPrev, ()⟩

theorem grpLinks_update (socks : SockMemory) (a : SockId) (sock : SocketInfo) :
    grpLinks (Function.update socks a sock) =
      Function.update (grpLinks socks) a (some ⟨sock.grpNext, sock.grpPrev, ()⟩) := by
  funext b
  by_cases hb : b = a
  · subst hb
    simp [grpLinks]
  · simp [grpLinks, Function.update_of_ne hb]

end CWebUI.Sockets
