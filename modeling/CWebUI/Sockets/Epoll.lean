import Mathlib.Logic.Function.Basic
import CWebUI.Sockets.SocketInfo

set_option autoImplicit false

/-! # Event registration of the epoll backend

`system_sockets_epoll.c` keeps nothing but the flag `registered` of a `socket_info`: what a socket
waits for is in the kernel. `modifyEpoll` changes it or adds it, by the flag, and does the other one
when the kernel does not agree with the flag.

`epoll_events_kept` is the contract that the callers rely on, for every sequence of calls: the
kernel has, for every descriptor, what the last call asked for.
-/

namespace CWebUI.Sockets.Epoll

/-! ## The kernel -/

/-- The events that a descriptor is watched for; `oneshot` is `EPOLLONESHOT`. -/
structure EpollEvents where
  epollin : Bool := false
  epollout : Bool := false
  epollrdhup : Bool := false
  oneshot : Bool := false
  deriving DecidableEq, Repr

/-- `struct epoll_event`: the events, and `data.ptr`. -/
structure EpollEvent where
  events : EpollEvents
  ptr : SockId
  deriving DecidableEq, Repr

/-- What the kernel keeps: the open descriptors, and the events of those that are watched. -/
structure EpollKernel where
  opened : Nat → Bool
  interest : Nat → Option EpollEvent

inductive EpollOp where
  | add
  | mod
  | del
  deriving DecidableEq, Repr

/-- The errors of `epoll_ctl`; `enomem` is that there is no room for one more descriptor. -/
inductive Errno where
  | eexist
  | enoent
  | ebadf
  | enomem
  deriving DecidableEq, Repr

/-- `epoll_ctl`. The argument `room` says whether a descriptor can be added. -/
def epollCtl (room : Bool) (k : EpollKernel) (op : EpollOp) (fd : Nat) (ev : EpollEvent) :
    EpollKernel × Option Errno :=
  if !k.opened fd then (k, some .ebadf)
  else
    match op, k.interest fd with
    | .add, some _ => (k, some .eexist)
    | .add, none =>
        if room then ({ k with interest := Function.update k.interest fd (some ev) }, none)
        else (k, some .enomem)
    | .mod, some _ => ({ k with interest := Function.update k.interest fd (some ev) }, none)
    | .mod, none => (k, some .enoent)
    | .del, some _ => ({ k with interest := Function.update k.interest fd none }, none)
    | .del, none => (k, some .enoent)

/-- `close`: the kernel forgets a descriptor that is closed. -/
def closeDescriptor (k : EpollKernel) (fd : Nat) : EpollKernel where
  opened := Function.update k.opened fd false
  interest := Function.update k.interest fd none

/-! ## The backend -/

/-- What the backend uses of a `socket_info`. -/
structure EpollSock where
  socket : Nat
  registered : Bool := false
  deriving DecidableEq, Repr

/-- `modifyEpoll`. `room` is for its two calls of `epoll_ctl`. -/
def modifyEpoll (room : Bool) (k : EpollKernel) (id : SockId) (sock : EpollSock)
    (events : EpollEvents) (persist : Bool) : EpollKernel × EpollSock :=
  let ev : EpollEvent := ⟨{ events with oneshot := !persist }, id⟩
  let op : EpollOp := if sock.registered then .mod else .add
  match epollCtl room k op sock.socket ev with
  | (k, none) => (k, { sock with registered := true })
  | (k, some .eexist) =>
      match epollCtl room k .mod sock.socket ev with
      | (k, none) => (k, { sock with registered := true })
      | (k, some _) => (k, { sock with registered := false })
  | (k, some .enoent) =>
      match epollCtl room k .add sock.socket ev with
      | (k, none) => (k, { sock with registered := true })
      | (k, some _) => (k, { sock with registered := false })
  | (k, some _) => (k, { sock with registered := false })

/-- `delEventSocketAll` -/
def delEventSocketAll (k : EpollKernel) (id : SockId) (sock : EpollSock) :
    EpollKernel × EpollSock :=
  if sock.registered then
    ((epollCtl true k .del sock.socket ⟨{}, id⟩).1, { sock with registered := false })
  else (k, sock)

/-- The calls of the backend for a socket. -/
inductive EpollCall where
  | addEventSocketRead
  | addEventSocketReadPersist
  | addEventSocketWritePersist
  | addEventSocketReadWritePersist
  | addEventSocketPeerClosePersist
  | delEventSocketReadPersist
  | delEventSocketWritePersist
  | delEventSocketAll
  | activateEventSocketWrite
  | updateWebsocketEventFlags (listEmpty : Bool)
  | deleteEvent
  deriving DecidableEq, Repr

/-- The functions of the backend. -/
def EpollCall.apply (room : Bool) (k : EpollKernel) (id : SockId) (sock : EpollSock) :
    EpollCall → EpollKernel × EpollSock
  | .addEventSocketRead => modifyEpoll room k id sock { epollin := true } false
  | .addEventSocketReadPersist => modifyEpoll room k id sock { epollin := true } true
  | .addEventSocketWritePersist => modifyEpoll room k id sock { epollout := true } true
  | .addEventSocketReadWritePersist =>
      modifyEpoll room k id sock { epollin := true, epollout := true } true
  | .addEventSocketPeerClosePersist => modifyEpoll room k id sock { epollrdhup := true } true
  | .delEventSocketReadPersist => Epoll.delEventSocketAll k id sock
  | .delEventSocketWritePersist => Epoll.delEventSocketAll k id sock
  | .delEventSocketAll => Epoll.delEventSocketAll k id sock
  | .activateEventSocketWrite =>
      modifyEpoll room k id sock { epollin := true, epollout := true } true
  | .updateWebsocketEventFlags listEmpty =>
      if listEmpty then modifyEpoll room k id sock { epollin := true } true
      else modifyEpoll room k id sock { epollin := true, epollout := true } true
  | .deleteEvent => Epoll.delEventSocketAll k id sock

/-- What a call asks for: the events from now on, or none. -/
def EpollCall.asked : EpollCall → Option EpollEvents
  | .addEventSocketRead => some { epollin := true, oneshot := true }
  | .addEventSocketReadPersist => some { epollin := true }
  | .addEventSocketWritePersist => some { epollout := true }
  | .addEventSocketReadWritePersist => some { epollin := true, epollout := true }
  | .addEventSocketPeerClosePersist => some { epollrdhup := true }
  | .delEventSocketReadPersist => none
  | .delEventSocketWritePersist => none
  | .delEventSocketAll => none
  | .activateEventSocketWrite => some { epollin := true, epollout := true }
  | .updateWebsocketEventFlags listEmpty => some { epollin := true, epollout := !listEmpty }
  | .deleteEvent => none

section Calls

variable {k : EpollKernel} {id : SockId} {sock : EpollSock}

/-- The kernel with other events for a descriptor. -/
def EpollKernel.set (k : EpollKernel) (fd : Nat) (ev : Option EpollEvent) : EpollKernel :=
  { k with interest := Function.update k.interest fd ev }

section Kernel

variable {fd : Nat} {ev old : EpollEvent} {room : Bool}

theorem epollCtl_add (hopen : k.opened fd = true) (hnone : k.interest fd = none) :
    epollCtl true k .add fd ev = (k.set fd (some ev), none) := by
  simp [epollCtl, hopen, hnone, EpollKernel.set]

theorem epollCtl_add_exists (hopen : k.opened fd = true) (hsome : k.interest fd = some old) :
    epollCtl room k .add fd ev = (k, some .eexist) := by
  simp [epollCtl, hopen, hsome]

theorem epollCtl_mod (hopen : k.opened fd = true) (hsome : k.interest fd = some old) :
    epollCtl room k .mod fd ev = (k.set fd (some ev), none) := by
  simp [epollCtl, hopen, hsome, EpollKernel.set]

theorem epollCtl_mod_none (hopen : k.opened fd = true) (hnone : k.interest fd = none) :
    epollCtl room k .mod fd ev = (k, some .enoent) := by
  simp [epollCtl, hopen, hnone]

/-- A descriptor is not watched behind a deletion. -/
theorem epollCtl_del (hopen : k.opened fd = true) :
    (epollCtl room k .del fd ev).1 = k.set fd none := by
  cases hold : k.interest fd with
  | none =>
      have hsame : Function.update k.interest fd none = k.interest := by
        rw [← hold, Function.update_eq_self]
      simp [epollCtl, hopen, hold, EpollKernel.set, hsame]
  | some old => simp [epollCtl, hopen, hold, EpollKernel.set]

end Kernel

/-- **Whatever the flag says, the kernel gets the events.** -/
theorem modifyEpoll_eq (hopen : k.opened sock.socket = true) (events : EpollEvents)
    (persist : Bool) :
    modifyEpoll true k id sock events persist
      = (k.set sock.socket (some ⟨{ events with oneshot := !persist }, id⟩),
          { sock with registered := true }) := by
  rw [modifyEpoll]
  cases hflag : sock.registered with
  | false =>
      cases hold : k.interest sock.socket with
      | none => simp [epollCtl_add hopen hold]
      | some old => simp [epollCtl_add_exists hopen hold, epollCtl_mod hopen hold]
  | true =>
      cases hold : k.interest sock.socket with
      | none => simp [epollCtl_mod_none hopen hold, epollCtl_add hopen hold]
      | some old => simp [epollCtl_mod hopen hold]

/-- A socket whose flag is right is not watched behind a deletion. -/
theorem delEventSocketAll_eq (hopen : k.opened sock.socket = true)
    (hflag : sock.registered = false → k.interest sock.socket = none) :
    delEventSocketAll k id sock = (k.set sock.socket none, { sock with registered := false }) := by
  rw [delEventSocketAll]
  cases hreg : sock.registered with
  | false =>
      have hsame : k.set sock.socket none = k := by
        rw [EpollKernel.set, ← hflag hreg, Function.update_eq_self]
      rw [if_neg Bool.false_ne_true, hsame, ← hreg]
  | true => rw [if_pos rfl, epollCtl_del hopen]

/-- **What a call leaves**: the events that it asks for, and a flag that agrees with the kernel. -/
theorem EpollCall.apply_eq (c : EpollCall) (hopen : k.opened sock.socket = true)
    (hflag : sock.registered = false → k.interest sock.socket = none) :
    c.apply true k id sock
      = (k.set sock.socket (c.asked.map fun events => ⟨events, id⟩),
          { sock with registered := c.asked.isSome }) := by
  cases c with
  | updateWebsocketEventFlags listEmpty =>
      cases listEmpty <;> exact modifyEpoll_eq hopen _ _
  | addEventSocketRead => exact modifyEpoll_eq hopen _ _
  | addEventSocketReadPersist => exact modifyEpoll_eq hopen _ _
  | addEventSocketWritePersist => exact modifyEpoll_eq hopen _ _
  | addEventSocketReadWritePersist => exact modifyEpoll_eq hopen _ _
  | addEventSocketPeerClosePersist => exact modifyEpoll_eq hopen _ _
  | activateEventSocketWrite => exact modifyEpoll_eq hopen _ _
  | delEventSocketReadPersist => exact delEventSocketAll_eq hopen hflag
  | delEventSocketWritePersist => exact delEventSocketAll_eq hopen hflag
  | delEventSocketAll => exact delEventSocketAll_eq hopen hflag
  | deleteEvent => exact delEventSocketAll_eq hopen hflag

end Calls

/-! ## Runs -/

/-- The kernel and the sockets. -/
structure EpollBackend where
  kernel : EpollKernel
  socks : SockId → EpollSock

/-- A run of calls, each for a socket. -/
def runEpoll (b : EpollBackend) : List (SockId × EpollCall) → EpollBackend
  | [] => b
  | (id, c) :: calls =>
      let result := c.apply true b.kernel id (b.socks id)
      runEpoll { kernel := result.1, socks := Function.update b.socks id result.2 } calls

/-- What the last call for every socket asks for. -/
def lastAsked (asked : SockId → Option EpollEvents) :
    List (SockId × EpollCall) → SockId → Option EpollEvents
  | [] => asked
  | (id, c) :: calls => lastAsked (Function.update asked id c.asked) calls

/-- The kernel has what the sockets ask for, and the flags agree with it. -/
structure Keeps (socket : SockId → Nat) (b : EpollBackend) (asked : SockId → Option EpollEvents) :
    Prop where
  opened : ∀ id, b.kernel.opened (socket id) = true
  sock : ∀ id, b.socks id = { socket := socket id, registered := (asked id).isSome }
  interest : ∀ id, b.kernel.interest (socket id) = (asked id).map fun events => ⟨events, id⟩
  others : ∀ fd, (∀ id, socket id ≠ fd) → b.kernel.interest fd = none

/-- A call keeps the agreement. -/
theorem Keeps.call {socket : SockId → Nat} (hsocket : Function.Injective socket)
    {b : EpollBackend} {asked : SockId → Option EpollEvents} (h : Keeps socket b asked)
    (id : SockId) (c : EpollCall) :
    Keeps socket
      { kernel := (c.apply true b.kernel id (b.socks id)).1
        socks := Function.update b.socks id (c.apply true b.kernel id (b.socks id)).2 }
      (Function.update asked id c.asked) := by
  have hfd : (b.socks id).socket = socket id := by rw [h.sock id]
  have hflag : (b.socks id).registered = false →
      b.kernel.interest (b.socks id).socket = none := by
    intro hreg
    rw [h.sock id] at hreg
    have hnone : asked id = none := Option.not_isSome_iff_eq_none.mp (Bool.eq_false_iff.mp hreg)
    rw [hfd, h.interest id, hnone]
    rfl
  rw [c.apply_eq (by rw [hfd]; exact h.opened id) hflag, hfd]
  refine ⟨h.opened, ?_, ?_, ?_⟩
  · intro a
    show Function.update b.socks id _ a = _
    by_cases ha : a = id
    · rw [ha, Function.update_self, Function.update_self]
    · rw [Function.update_of_ne ha, Function.update_of_ne ha, h.sock a]
  · intro a
    show Function.update _ _ _ _ = _
    by_cases ha : a = id
    · rw [ha, Function.update_self, Function.update_self]
    · rw [Function.update_of_ne ha, Function.update_of_ne (hsocket.ne ha), h.interest a]
  · intro fd hfree
    show Function.update _ _ _ _ = _
    rw [Function.update_of_ne (hfree id).symm, h.others fd hfree]

theorem Keeps.run {socket : SockId → Nat} (hsocket : Function.Injective socket)
    {b : EpollBackend} {asked : SockId → Option EpollEvents} (h : Keeps socket b asked)
    (calls : List (SockId × EpollCall)) :
    Keeps socket (runEpoll b calls) (lastAsked asked calls) := by
  induction calls generalizing b asked with
  | nil => exact h
  | cons call calls ih => exact ih (h.call hsocket call.1 call.2)

end CWebUI.Sockets.Epoll
