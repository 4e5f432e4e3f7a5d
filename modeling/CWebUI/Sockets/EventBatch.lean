import Mathlib.Logic.Relation
import CWebUI.Sockets.Epoll

set_option autoImplicit false

/-! # Events of sockets that are released

The loop of `waitEvents` (`system_sockets_epoll.c`) takes up to 64 events from the kernel and
dispatches them one after the other. An event carries the address of its socket. A handler may
close any socket, and the memory and the descriptor may then go to a new connection while events of
the old one are still in the batch; other threads register sockets at any time.

`LoopStep` has the steps of the loop, of its handlers and of the other threads in any order, down to
the single call of `epoll_ctl` and the single store to the flag `registered`. Every socket gets a
number that is never given again. It is in the model only: with it, `EventsSafe` can say that an
event is given to the very socket that it was reported for.
-/

namespace CWebUI.Sockets.Epoll

/-! ## The batch -/

/-- The flags of an event that is reported. -/
structure EpollFlags where
  epollin : Bool := false
  epollout : Bool := false
  epollerr : Bool := false
  epollhup : Bool := false
  epollrdhup : Bool := false
  deriving DecidableEq, Repr

inductive EventType where
  | timeout
  | read
  | write
  deriving DecidableEq, Repr

/-- `eventHandler`: the type that `handleer` is called with, if it is called. -/
def eventHandler (flags : EpollFlags) : Option EventType :=
  if flags.epollerr || flags.epollhup || flags.epollrdhup then some .timeout
  else if flags.epollin then some .read
  else if flags.epollout then some .write
  else none

/-- An entry of `batch_events`. The last three fields are what the event was reported for: the
socket, its number, and its descriptor. -/
structure BatchEntry where
  ptr : Option SockId
  flags : EpollFlags
  source : SockId
  number : Nat
  fd : Nat
  deriving DecidableEq, Repr

/-- `eventSocketFreed`; `next` is `batch_pos + 1`. -/
def eventSocketFreed (sock : SockId) (next : Nat) (batch : List BatchEntry) : List BatchEntry :=
  batch.mapIdx fun i e => if next ≤ i ∧ e.ptr = some sock then { e with ptr := none } else e

/-! ## The loop -/

/-- How far a socket is on its way out. A descriptor of the caller (`WebserverInjectExternFD`) is
touched by the thread of the loop only. -/
inductive Phase where
  | external
  | shared
  /-- Behind `deleteSocket`: no other thread finds the socket. -/
  | deleted
  /-- Behind `WebserverCloseSocket`. -/
  | closed
  /-- Behind `eventSocketFreed`. -/
  | announced
  deriving DecidableEq, Repr

/-- A socket in memory, with its number. -/
structure LoopSock where
  sock : EpollSock
  number : Nat
  phase : Phase

/-- The program and the kernel. -/
structure EventLoop where
  kernel : EpollKernel
  socks : SockId → Option LoopSock
  /-- The next number. -/
  fresh : Nat
  batch : List BatchEntry
  next : Nat

/-- `MAX_EVENTS` -/
def maxEvents : Nat := 64

/-- The entry for an event of a descriptor, if the descriptor is watched. -/
def EventLoop.report (s : EventLoop) (event : Nat × EpollFlags) : Option BatchEntry :=
  (s.kernel.interest event.1).map fun ev =>
    { ptr := some ev.ptr
      flags := event.2
      source := ev.ptr
      number := ((s.socks ev.ptr).map LoopSock.number).getD 0
      fd := event.1 }

/-- A socket record is replaced. -/
def EventLoop.store (s : EventLoop) (p : SockId) (r : LoopSock) : EventLoop :=
  { s with socks := Function.update s.socks p (some r) }

/-- The steps. -/
inductive LoopStep (s : EventLoop) : EventLoop → Prop
  /-- A new socket, in memory that is free. Its descriptor is not one of a socket that is open. -/
  | addSocket (p : SockId) (fd : Nat) (phase : Phase) (hp : s.socks p = none)
      (hphase : phase = .external ∨ phase = .shared)
      (hfd : ∀ q r, s.socks q = some r → r.sock.socket = fd →
        r.phase = .closed ∨ r.phase = .announced) :
      LoopStep s
        { s with
          kernel := { s.kernel with opened := Function.update s.kernel.opened fd true }
          socks := Function.update s.socks p
            (some { sock := { socket := fd }, number := s.fresh, phase := phase })
          fresh := s.fresh + 1 }
  /-- A call of `epoll_ctl`, by any thread. -/
  | ctl (p : SockId) (r : LoopSock) (op : EpollOp) (ev : EpollEvent) (room : Bool)
      (hp : s.socks p = some r) (hphase : r.phase = .shared ∨ r.phase = .deleted)
      (hev : ev.ptr = p) :
      LoopStep s { s with kernel := (epollCtl room s.kernel op r.sock.socket ev).1 }
  /-- A store to the flag, by any thread. -/
  | flag (p : SockId) (r : LoopSock) (registered : Bool) (hp : s.socks p = some r)
      (hphase : r.phase = .shared ∨ r.phase = .deleted) :
      LoopStep s (s.store p { r with sock := { r.sock with registered := registered } })
  /-- `addEventSocketReadPersist` for a descriptor of the caller. -/
  | externRead (p : SockId) (r : LoopSock) (room : Bool) (hp : s.socks p = some r)
      (hphase : r.phase = .external) :
      LoopStep s
        { s with
          kernel := (EpollCall.addEventSocketReadPersist.apply room s.kernel p r.sock).1
          socks := Function.update s.socks p (some { r with
            sock := (EpollCall.addEventSocketReadPersist.apply room s.kernel p r.sock).2 }) }
  /-- `releaseExternSocket`: the descriptor stays open. -/
  | releaseExtern (p : SockId) (r : LoopSock) (hp : s.socks p = some r)
      (hphase : r.phase = .external) :
      LoopStep s
        { s with
          kernel := (delEventSocketAll s.kernel p r.sock).1
          socks := Function.update s.socks p none
          batch := eventSocketFreed p s.next s.batch }
  | deleteSocket (p : SockId) (r : LoopSock) (hp : s.socks p = some r)
      (hphase : r.phase = .shared) : LoopStep s (s.store p { r with phase := .deleted })
  | closeSocket (p : SockId) (r : LoopSock) (hp : s.socks p = some r)
      (hphase : r.phase = .deleted) :
      LoopStep s
        { s.store p { r with phase := .closed } with
          kernel := closeDescriptor s.kernel r.sock.socket }
  | freed (p : SockId) (r : LoopSock) (hp : s.socks p = some r) (hphase : r.phase = .closed) :
      LoopStep s
        { s.store p { r with phase := .announced } with
          batch := eventSocketFreed p s.next s.batch }
  | free (p : SockId) (r : LoopSock) (hp : s.socks p = some r) (hphase : r.phase = .announced) :
      LoopStep s { s with socks := Function.update s.socks p none }
  /-- `epoll_wait` -/
  | wait (events : List (Nat × EpollFlags)) (hbatch : s.batch = [])
      (hmax : events.length ≤ maxEvents) :
      LoopStep s { s with batch := events.filterMap s.report, next := 0 }
  /-- The loop goes on to the next entry; its handler makes the steps above. -/
  | dispatch (hnext : s.next < s.batch.length) : LoopStep s { s with next := s.next + 1 }
  | endBatch (hnext : s.batch.length ≤ s.next) : LoopStep s { s with batch := [], next := 0 }

/-- The program before its first socket. -/
def startLoop (opened : Nat → Bool) : EventLoop where
  kernel := { opened := opened, interest := fun _ => none }
  socks := fun _ => none
  fresh := 0
  batch := []
  next := 0

/-- The states of all runs. -/
def LoopReachable (opened : Nat → Bool) (s : EventLoop) : Prop :=
  Relation.ReflTransGen LoopStep (startLoop opened) s

/-! ## The invariant -/

/-- An entry that has not been dispatched: it has the address of its socket, unless that has been
announced as released. -/
structure EntryInv (s : EventLoop) (e : BatchEntry) : Prop where
  live : ∀ p, e.ptr = some p → p = e.source ∧
    ∃ r, s.socks p = some r ∧ r.number = e.number ∧ r.sock.socket = e.fd ∧ r.phase ≠ .announced
  dropped : e.ptr = none → ∀ r, s.socks e.source = some r → r.number = e.number →
    r.phase = .announced
  number : e.number < s.fresh

/-- No descriptor that is closed is watched. -/
def EpollKernel.ClosedFree (k : EpollKernel) : Prop :=
  ∀ fd, k.opened fd = false → k.interest fd = none

structure LoopInv (s : EventLoop) : Prop where
  /-- What the kernel watches belongs to a socket with an open descriptor. -/
  watched : ∀ fd ev, s.kernel.interest fd = some ev → ∃ r, s.socks ev.ptr = some r ∧
    r.sock.socket = fd ∧ r.phase ≠ .closed ∧ r.phase ≠ .announced
  /-- The flag of a descriptor of the caller is right. -/
  externFlag : ∀ p r, s.socks p = some r → r.phase = .external → r.sock.registered = false →
    ∀ fd ev, s.kernel.interest fd = some ev → ev.ptr ≠ p
  closedFree : s.kernel.ClosedFree
  fresh : ∀ p r, s.socks p = some r → r.number < s.fresh
  entries : ∀ e ∈ s.batch.drop s.next, EntryInv s e

/-! ## The entries -/

section Entries

variable {s s' : EventLoop} {e : BatchEntry} {p : SockId}

/-- What a step may do to the sockets without a change of the entries: it keeps number, descriptor
and announcement of a socket, and gives no old number again. -/
structure SocksKept (s s' : EventLoop) : Prop where
  forth : ∀ q r, s.socks q = some r → r.phase ≠ .announced →
    ∃ r', s'.socks q = some r' ∧ r'.number = r.number ∧ r'.sock.socket = r.sock.socket ∧
      r'.phase ≠ .announced
  back : ∀ q r', s'.socks q = some r' → r'.number < s.fresh →
    ∃ r, s.socks q = some r ∧ r.number = r'.number ∧ (r.phase = .announced → r'.phase = .announced)
  fresh : s.fresh ≤ s'.fresh

theorem EntryInv.kept (h : EntryInv s e) (hkept : SocksKept s s') : EntryInv s' e where
  live := by
    intro p hp
    obtain ⟨hsource, r, hr, hnumber, hfd, hphase⟩ := h.live p hp
    obtain ⟨r', hr', hnumber', hfd', hphase'⟩ := hkept.forth p r hr hphase
    exact ⟨hsource, r', hr', hnumber'.trans hnumber, hfd'.trans hfd, hphase'⟩
  dropped := by
    intro hp r' hr' hnumber
    obtain ⟨r, hr, hnumber', hphase⟩ := hkept.back _ r' hr' (hnumber ▸ h.number)
    exact hphase (h.dropped hp r hr (hnumber'.trans hnumber))
  number := Nat.lt_of_lt_of_le h.number hkept.fresh

/-- One record is replaced. -/
theorem SocksKept.update {r r' : LoopSock} (hp : s.socks p = some r)
    (hsocks : s'.socks = Function.update s.socks p (some r')) (hfresh : s'.fresh = s.fresh)
    (hnumber : r'.number = r.number) (hfd : r'.sock.socket = r.sock.socket)
    (hphase : r'.phase = .announced ↔ r.phase = .announced) : SocksKept s s' where
  forth := by
    intro q a hq ha
    rw [hsocks]
    by_cases hqp : q = p
    · rw [hqp, Function.update_self]
      rw [hqp, hp] at hq
      cases hq
      exact ⟨r', rfl, hnumber, hfd, fun h => ha (hphase.mp h)⟩
    · rw [Function.update_of_ne hqp]
      exact ⟨a, hq, rfl, rfl, ha⟩
  back := by
    intro q a hq _
    rw [hsocks] at hq
    by_cases hqp : q = p
    · rw [hqp, Function.update_self] at hq
      cases hq
      exact ⟨r, hqp ▸ hp, hnumber.symm, hphase.mpr⟩
    · rw [Function.update_of_ne hqp] at hq
      exact ⟨a, hq, rfl, id⟩
  fresh := Nat.le_of_eq hfresh.symm

/-- The entries behind the current one, after a release. -/
theorem mem_eventSocketFreed {next : Nat} {batch : List BatchEntry}
    (h : e ∈ (eventSocketFreed p next batch).drop next) :
    ∃ a ∈ batch.drop next, e = if a.ptr = some p then { a with ptr := none } else a := by
  obtain ⟨i, hi, rfl⟩ := List.getElem_of_mem h
  rw [List.length_drop, eventSocketFreed, List.length_mapIdx] at hi
  have hmem : batch[next + i] ∈ batch.drop next := by
    rw [← List.getElem_drop (h := by rw [List.length_drop]; omega)]
    exact List.getElem_mem _
  refine ⟨batch[next + i], hmem, ?_⟩
  rw [List.getElem_drop]
  simp [eventSocketFreed]

/-- The entries of a socket that is announced as released are dropped, and no others. -/
theorem EntryInv.freed (h : EntryInv s e)
    (hforth : ∀ q a, q ≠ p → s.socks q = some a → s'.socks q = some a)
    (hback : ∀ q a, q ≠ p → s'.socks q = some a → s.socks q = some a)
    (hgone : ∀ a, s'.socks p = some a → a.phase = .announced) (hfresh : s'.fresh = s.fresh) :
    EntryInv s' (if e.ptr = some p then { e with ptr := none } else e) := by
  by_cases hptr : e.ptr = some p
  · rw [if_pos hptr]
    obtain ⟨hsource, -⟩ := h.live p hptr
    refine ⟨?_, ?_, hfresh ▸ h.number⟩
    · intro q hq
      cases hq
    · intro _ a ha _
      exact hgone a (hsource ▸ ha)
  · rw [if_neg hptr]
    refine ⟨?_, ?_, hfresh ▸ h.number⟩
    · intro q hq
      obtain ⟨hsource, a, ha, hrest⟩ := h.live q hq
      exact ⟨hsource, a, hforth q a (fun hqp => hptr (hqp ▸ hq)) ha, hrest⟩
    · intro hnone a ha hnumber
      by_cases hsource : e.source = p
      · exact hgone a (hsource ▸ ha)
      · exact h.dropped hnone a (hback _ a hsource ha) hnumber

end Entries

/-! ## The kernel -/

section Kernel

variable {k : EpollKernel} {op : EpollOp} {fd fd' : Nat} {ev ev' : EpollEvent} {room : Bool}

/-- A call fails without a change, or sets the events of the descriptor, or takes them away. -/
theorem epollCtl_cases (room : Bool) (k : EpollKernel) (op : EpollOp) (fd : Nat) (ev : EpollEvent) :
    (∃ err, epollCtl room k op fd ev = (k, some err)) ∨
      (k.opened fd = true ∧ epollCtl room k op fd ev = (k.set fd (some ev), none)) ∨
      epollCtl room k op fd ev = (k.set fd none, none) := by
  cases hopen : k.opened fd with
  | false => exact Or.inl ⟨.ebadf, by simp [epollCtl, hopen]⟩
  | true =>
      cases op with
      | add =>
          cases hold : k.interest fd with
          | none =>
              cases room with
              | false => exact Or.inl ⟨.enomem, by simp [epollCtl, hopen, hold]⟩
              | true => exact Or.inr (Or.inl ⟨rfl, epollCtl_add hopen hold⟩)
          | some old => exact Or.inl ⟨.eexist, epollCtl_add_exists hopen hold⟩
      | mod =>
          cases hold : k.interest fd with
          | none => exact Or.inl ⟨.enoent, epollCtl_mod_none hopen hold⟩
          | some old => exact Or.inr (Or.inl ⟨rfl, epollCtl_mod hopen hold⟩)
      | del =>
          cases hold : k.interest fd with
          | none => exact Or.inl ⟨.enoent, by simp [epollCtl, hopen, hold]⟩
          | some old => exact Or.inr (Or.inr (by simp [epollCtl, hopen, hold, EpollKernel.set]))

theorem set_interest {new : Option EpollEvent}
    (h : (k.set fd new).interest fd' = some ev') :
    (fd' = fd ∧ new = some ev') ∨ (fd' ≠ fd ∧ k.interest fd' = some ev') := by
  change Function.update k.interest fd new fd' = some ev' at h
  by_cases hfd : fd' = fd
  · rw [hfd, Function.update_self] at h
    exact Or.inl ⟨hfd, h⟩
  · rw [Function.update_of_ne hfd] at h
    exact Or.inr ⟨hfd, h⟩

/-- What is watched behind a call was watched before, or is what the call asks for. -/
theorem epollCtl_interest (h : (epollCtl room k op fd ev).1.interest fd' = some ev') :
    k.interest fd' = some ev' ∨ (fd' = fd ∧ ev' = ev) := by
  obtain ⟨err, hctl⟩ | ⟨-, hctl⟩ | hctl := epollCtl_cases room k op fd ev
  · rw [hctl] at h
    exact Or.inl h
  · rw [hctl] at h
    obtain ⟨hfd, hev⟩ | ⟨-, hold⟩ := set_interest h
    · exact Or.inr ⟨hfd, (Option.some.inj hev).symm⟩
    · exact Or.inl hold
  · rw [hctl] at h
    obtain ⟨-, hev⟩ | ⟨-, hold⟩ := set_interest h
    · cases hev
    · exact Or.inl hold

theorem EpollKernel.ClosedFree.ctl (h : k.ClosedFree) (room : Bool) (op : EpollOp) (fd : Nat)
    (ev : EpollEvent) : (epollCtl room k op fd ev).1.ClosedFree := by
  intro d hd
  obtain ⟨err, hctl⟩ | ⟨hopen, hctl⟩ | hctl := epollCtl_cases room k op fd ev
  · rw [hctl] at hd ⊢
    exact h d hd
  · rw [hctl] at hd ⊢
    have hne : d ≠ fd := by
      intro heq
      rw [heq] at hd
      exact absurd (hopen.symm.trans hd) (by decide)
    exact (Function.update_of_ne hne _ _).trans (h d hd)
  · rw [hctl] at hd ⊢
    by_cases hfd : d = fd
    · rw [hfd]
      exact Function.update_self ..
    · exact (Function.update_of_ne hfd _ _).trans (h d hd)

/-- `modifyEpoll` gives the kernel the events, or it clears the flag of a socket that is not
watched. -/
theorem modifyEpoll_cases (hclosed : k.ClosedFree) (room : Bool) (id : SockId) (sock : EpollSock)
    (events : EpollEvents) (persist : Bool) :
    (modifyEpoll room k id sock events persist
        = (k.set sock.socket (some ⟨{ events with oneshot := !persist }, id⟩),
            { sock with registered := true }) ∧ k.opened sock.socket = true) ∨
      (modifyEpoll room k id sock events persist = (k, { sock with registered := false }) ∧
        k.interest sock.socket = none) := by
  cases hopen : k.opened sock.socket with
  | false =>
      have hbadf : ∀ op ev, epollCtl room k op sock.socket ev = (k, some .ebadf) := fun op ev => by
        simp [epollCtl, hopen]
      exact Or.inr ⟨by simp [modifyEpoll, hbadf], hclosed _ hopen⟩
  | true =>
      cases hold : k.interest sock.socket with
      | none =>
          have hfull : ∀ ev, epollCtl false k .add sock.socket ev = (k, some .enomem) := fun ev => by
            simp [epollCtl, hopen, hold]
          cases room with
          | true => exact Or.inl ⟨modifyEpoll_eq hopen events persist, rfl⟩
          | false =>
              refine Or.inr ⟨?_, rfl⟩
              cases hflag : sock.registered with
              | false => simp [modifyEpoll, hflag, hfull]
              | true => simp [modifyEpoll, hflag, epollCtl_mod_none hopen hold, hfull]
      | some old =>
          refine Or.inl ⟨?_, rfl⟩
          cases hflag : sock.registered with
          | false =>
              simp [modifyEpoll, hflag, epollCtl_add_exists hopen hold, epollCtl_mod hopen hold]
          | true => simp [modifyEpoll, hflag, epollCtl_mod hopen hold]

end Kernel

/-! ## The steps keep the invariant -/

section Steps

variable {s : EventLoop} {p : SockId} {r : LoopSock}

/-- A step that leaves the batch where it is. -/
theorem LoopInv.entries_kept (h : LoopInv s) {s' : EventLoop} (hkept : SocksKept s s')
    (hbatch : s'.batch = s.batch) (hnext : s'.next = s.next) :
    ∀ e ∈ s'.batch.drop s'.next, EntryInv s' e := by
  intro e he
  rw [hbatch, hnext] at he
  exact (h.entries e he).kept hkept

theorem LoopInv.addSocket (h : LoopInv s) (fd : Nat) (phase : Phase) (hp : s.socks p = none) :
    LoopInv
      { s with
        kernel := { s.kernel with opened := Function.update s.kernel.opened fd true }
        socks := Function.update s.socks p
          (some { sock := { socket := fd }, number := s.fresh, phase := phase })
        fresh := s.fresh + 1 } where
  watched := by
    intro fd' ev hev
    obtain ⟨r, hr, hrest⟩ := h.watched fd' ev hev
    have hne : ev.ptr ≠ p := fun heq => by rw [heq, hp] at hr; cases hr
    exact ⟨r, (Function.update_of_ne hne _ _).trans hr, hrest⟩
  externFlag := by
    intro q r hq hextern hflag fd' ev hev heq
    obtain ⟨r', hr', -⟩ := h.watched fd' ev hev
    by_cases hqp : q = p
    · rw [heq, hqp, hp] at hr'
      cases hr'
    · change Function.update s.socks p _ q = some r at hq
      rw [Function.update_of_ne hqp] at hq
      exact h.externFlag q r hq hextern hflag fd' ev hev heq
  closedFree := by
    intro d hd
    change Function.update s.kernel.opened fd true d = false at hd
    by_cases hfd : d = fd
    · rw [hfd, Function.update_self] at hd
      cases hd
    · rw [Function.update_of_ne hfd] at hd
      exact h.closedFree d hd
  fresh := by
    intro q r hq
    change Function.update s.socks p _ q = some r at hq
    show r.number < s.fresh + 1
    by_cases hqp : q = p
    · rw [hqp, Function.update_self] at hq
      cases hq
      exact Nat.lt_succ_self _
    · rw [Function.update_of_ne hqp] at hq
      exact Nat.lt_succ_of_lt (h.fresh q r hq)
  entries := by
    refine h.entries_kept ⟨?_, ?_, Nat.le_succ _⟩ rfl rfl
    · intro q r hq ha
      have hne : q ≠ p := fun heq => by rw [heq, hp] at hq; cases hq
      exact ⟨r, (Function.update_of_ne hne _ _).trans hq, rfl, rfl, ha⟩
    · intro q r' hq hold
      change Function.update s.socks p _ q = some r' at hq
      by_cases hqp : q = p
      · rw [hqp, Function.update_self] at hq
        cases hq
        exact absurd hold (Nat.lt_irrefl _)
      · rw [Function.update_of_ne hqp] at hq
        exact ⟨r', hq, rfl, id⟩

/-- A call of `epoll_ctl` and a store to the flag, in one: the new record has another flag. -/
theorem LoopInv.touched (h : LoopInv s) (hp : s.socks p = some r) {k : EpollKernel}
    (hopen : r.phase ≠ .closed ∧ r.phase ≠ .announced)
    (hinterest : ∀ fd ev, k.interest fd = some ev →
      s.kernel.interest fd = some ev ∨ (fd = r.sock.socket ∧ ev.ptr = p))
    (hclosed : k.ClosedFree) (registered : Bool)
    (hflag : r.phase = .external → registered = false →
      ∀ fd ev, k.interest fd = some ev → ev.ptr ≠ p) :
    LoopInv
      { s with
        kernel := k
        socks := Function.update s.socks p
          (some { r with sock := { r.sock with registered := registered } }) } where
  watched := by
    intro fd ev hev
    obtain hold | ⟨rfl, hptr⟩ := hinterest fd ev hev
    · obtain ⟨a, ha, hfd, hphase⟩ := h.watched fd ev hold
      by_cases hne : ev.ptr = p
      · rw [hne, hp] at ha
        cases ha
        exact ⟨_, (congrArg _ hne).trans (Function.update_self ..), hfd, hopen⟩
      · exact ⟨a, (Function.update_of_ne hne _ _).trans ha, hfd, hphase⟩
    · exact ⟨_, (congrArg _ hptr).trans (Function.update_self ..), rfl, hopen⟩
  externFlag := by
    intro q a hq hextern hreg fd ev hev
    change Function.update s.socks p _ q = some a at hq
    by_cases hqp : q = p
    · rw [hqp, Function.update_self] at hq
      cases hq
      rw [hqp]
      exact hflag hextern hreg fd ev hev
    · rw [Function.update_of_ne hqp] at hq
      obtain hold | ⟨-, hptr⟩ := hinterest fd ev hev
      · exact h.externFlag q a hq hextern hreg fd ev hold
      · rw [hptr]
        exact Ne.symm hqp
  closedFree := hclosed
  fresh := by
    intro q a hq
    change Function.update s.socks p _ q = some a at hq
    by_cases hqp : q = p
    · rw [hqp, Function.update_self] at hq
      cases hq
      exact h.fresh p r hp
    · rw [Function.update_of_ne hqp] at hq
      exact h.fresh q a hq
  entries := h.entries_kept (SocksKept.update hp rfl rfl rfl rfl Iff.rfl) rfl rfl

/-- A socket goes on to a phase in which it is not one of the caller's. -/
theorem LoopInv.moved (h : LoopInv s) (hp : s.socks p = some r) {k : EpollKernel} {phase : Phase}
    {batch : List BatchEntry} (hphase : phase ≠ .external)
    (hinterest : ∀ fd ev, k.interest fd = some ev → s.kernel.interest fd = some ev)
    (hgone : phase = .closed ∨ phase = .announced → ∀ fd ev, k.interest fd = some ev → ev.ptr ≠ p)
    (hclosed : k.ClosedFree)
    (hentries : ∀ e ∈ batch.drop s.next,
      EntryInv { s with
        kernel := k
        socks := Function.update s.socks p (some { r with phase := phase })
        batch := batch } e) :
    LoopInv
      { s with
        kernel := k
        socks := Function.update s.socks p (some { r with phase := phase })
        batch := batch } where
  watched := by
    intro fd ev hev
    obtain ⟨a, ha, hfd, ha'⟩ := h.watched fd ev (hinterest fd ev hev)
    by_cases hne : ev.ptr = p
    · rw [hne, hp] at ha
      cases ha
      exact ⟨_, (congrArg _ hne).trans (Function.update_self ..), hfd,
        fun hc => hgone (Or.inl hc) fd ev hev hne, fun hc => hgone (Or.inr hc) fd ev hev hne⟩
    · exact ⟨a, (Function.update_of_ne hne _ _).trans ha, hfd, ha'⟩
  externFlag := by
    intro q a hq hextern hreg fd ev hev
    change Function.update s.socks p _ q = some a at hq
    by_cases hqp : q = p
    · rw [hqp, Function.update_self] at hq
      cases hq
      exact absurd hextern hphase
    · rw [Function.update_of_ne hqp] at hq
      exact h.externFlag q a hq hextern hreg fd ev (hinterest fd ev hev)
  closedFree := hclosed
  fresh := by
    intro q a hq
    change Function.update s.socks p _ q = some a at hq
    by_cases hqp : q = p
    · rw [hqp, Function.update_self] at hq
      cases hq
      exact h.fresh p r hp
    · rw [Function.update_of_ne hqp] at hq
      exact h.fresh q a hq
  entries := hentries

/-- The memory of a socket that is not watched is released. -/
theorem LoopInv.released (h : LoopInv s) {k : EpollKernel} {batch : List BatchEntry}
    (hinterest : ∀ fd ev, k.interest fd = some ev →
      s.kernel.interest fd = some ev ∧ ev.ptr ≠ p)
    (hclosed : k.ClosedFree)
    (hentries : ∀ e ∈ batch.drop s.next,
      EntryInv { s with
        kernel := k
        socks := Function.update s.socks p none
        batch := batch } e) :
    LoopInv
      { s with
        kernel := k
        socks := Function.update s.socks p none
        batch := batch } where
  watched := by
    intro fd ev hev
    obtain ⟨hold, hne⟩ := hinterest fd ev hev
    obtain ⟨a, ha, hrest⟩ := h.watched fd ev hold
    exact ⟨a, (Function.update_of_ne hne _ _).trans ha, hrest⟩
  externFlag := by
    intro q a hq hextern hreg fd ev hev
    change Function.update s.socks p none q = some a at hq
    by_cases hqp : q = p
    · rw [hqp, Function.update_self] at hq
      cases hq
    · rw [Function.update_of_ne hqp] at hq
      exact h.externFlag q a hq hextern hreg fd ev (hinterest fd ev hev).1
  closedFree := hclosed
  fresh := by
    intro q a hq
    change Function.update s.socks p none q = some a at hq
    by_cases hqp : q = p
    · rw [hqp, Function.update_self] at hq
      cases hq
    · rw [Function.update_of_ne hqp] at hq
      exact h.fresh q a hq
  entries := hentries

/-- The entry of an event that the kernel reports. -/
theorem LoopInv.report (h : LoopInv s) {event : Nat × EpollFlags} {e : BatchEntry}
    (he : s.report event = some e) (batch : List BatchEntry) (next : Nat) :
    EntryInv { s with batch := batch, next := next } e := by
  obtain ⟨ev, hev, rfl⟩ := Option.map_eq_some_iff.mp he
  obtain ⟨r, hr, hfd, -, hphase⟩ := h.watched event.1 ev hev
  have hnumber : ((s.socks ev.ptr).map LoopSock.number).getD 0 = r.number := by
    rw [hr]
    rfl
  refine ⟨?_, ?_, ?_⟩
  · intro q hq
    cases hq
    exact ⟨rfl, r, hr, hnumber.symm, hfd, hphase⟩
  · intro hnone
    cases hnone
  · show ((s.socks ev.ptr).map LoopSock.number).getD 0 < s.fresh
    rw [hnumber]
    exact h.fresh ev.ptr r hr

/-- The batch and the place in it. -/
theorem LoopInv.batched (h : LoopInv s) {batch : List BatchEntry} {next : Nat}
    (hentries : ∀ e ∈ batch.drop next, EntryInv { s with batch := batch, next := next } e) :
    LoopInv { s with batch := batch, next := next } :=
  ⟨h.watched, h.externFlag, h.closedFree, h.fresh, hentries⟩

/-- The release of a descriptor of the caller: it is not watched any more. -/
theorem LoopInv.releaseExtern (h : LoopInv s) (hp : s.socks p = some r)
    (hphase : r.phase = .external) :
    LoopInv
      { s with
        kernel := (delEventSocketAll s.kernel p r.sock).1
        socks := Function.update s.socks p none
        batch := eventSocketFreed p s.next s.batch } := by
  refine h.released ?_ ?_ ?_
  · intro fd ev hev
    rw [delEventSocketAll] at hev
    cases hreg : r.sock.registered with
    | false =>
        rw [hreg, if_neg Bool.false_ne_true] at hev
        exact ⟨hev, h.externFlag p r hp hphase hreg fd ev hev⟩
    | true =>
        rw [hreg, if_pos rfl] at hev
        by_cases hopen : s.kernel.opened r.sock.socket = true
        · rw [epollCtl_del hopen] at hev
          obtain ⟨-, hnone⟩ | ⟨hne, hold⟩ := set_interest hev
          · cases hnone
          · refine ⟨hold, fun hptr => hne ?_⟩
            obtain ⟨a, ha, hfd, -⟩ := h.watched fd ev hold
            rw [hptr, hp] at ha
            cases ha
            exact hfd.symm
        · -- the caller has closed the descriptor
          have hclosed := Bool.eq_false_iff.mpr hopen
          have hsame : (epollCtl true s.kernel .del r.sock.socket ⟨{}, p⟩).1 = s.kernel := by
            simp [epollCtl, hclosed]
          rw [hsame] at hev
          refine ⟨hev, fun hptr => ?_⟩
          obtain ⟨a, ha, hfd, -⟩ := h.watched fd ev hev
          rw [hptr, hp] at ha
          cases ha
          rw [← hfd, h.closedFree _ hclosed] at hev
          cases hev
  · rw [delEventSocketAll]
    cases r.sock.registered with
    | false => exact h.closedFree
    | true => exact h.closedFree.ctl true .del r.sock.socket ⟨{}, p⟩
  · intro e he
    obtain ⟨a, ha, rfl⟩ := mem_eventSocketFreed he
    refine (h.entries a ha).freed (fun q b hq hb => ?_) (fun q b hq hb => ?_) (fun b hb => ?_) rfl
    · exact (Function.update_of_ne hq _ _).trans hb
    · exact (Function.update_of_ne hq _ _).symm.trans hb
    · cases (Function.update_self ..).symm.trans hb

theorem LoopInv.closeSocket (h : LoopInv s) (hp : s.socks p = some r)
    (hphase : r.phase = .deleted) :
    LoopInv
      { s.store p { r with phase := .closed } with
        kernel := closeDescriptor s.kernel r.sock.socket } := by
  have hinterest : ∀ fd ev, (closeDescriptor s.kernel r.sock.socket).interest fd = some ev →
      fd ≠ r.sock.socket ∧ s.kernel.interest fd = some ev := by
    intro fd ev hev
    obtain ⟨-, hnone⟩ | hold := @set_interest s.kernel _ _ _ none hev
    · cases hnone
    · exact hold
  refine h.moved hp (by decide) (fun fd ev hev => (hinterest fd ev hev).2) ?_ ?_ ?_
  · intro _ fd ev hev hptr
    obtain ⟨a, ha, hfd, -⟩ := h.watched fd ev (hinterest fd ev hev).2
    rw [hptr, hp] at ha
    cases ha
    exact (hinterest fd ev hev).1 hfd.symm
  · intro d hd
    change Function.update s.kernel.opened _ false d = false at hd
    show Function.update s.kernel.interest _ none d = none
    by_cases hfd : d = r.sock.socket
    · rw [hfd, Function.update_self]
    · rw [Function.update_of_ne hfd] at hd ⊢
      exact h.closedFree d hd
  · intro e he
    refine (h.entries e he).kept (SocksKept.update hp rfl rfl rfl rfl ?_)
    rw [hphase]
    show Phase.closed = .announced ↔ Phase.deleted = .announced
    decide

theorem LoopInv.freed (h : LoopInv s) (hp : s.socks p = some r) (hphase : r.phase = .closed) :
    LoopInv
      { s.store p { r with phase := .announced } with
        batch := eventSocketFreed p s.next s.batch } := by
  refine h.moved hp (by decide) (fun _ _ hev => hev) ?_ h.closedFree ?_
  · intro _ fd ev hev hptr
    obtain ⟨a, ha, -, hopen, -⟩ := h.watched fd ev hev
    rw [hptr, hp] at ha
    cases ha
    exact hopen hphase
  · intro e he
    obtain ⟨a, ha, rfl⟩ := mem_eventSocketFreed he
    refine (h.entries a ha).freed (fun q b hq hb => ?_) (fun q b hq hb => ?_) (fun b hb => ?_) rfl
    · exact (Function.update_of_ne hq _ _).trans hb
    · exact (Function.update_of_ne hq _ _).symm.trans hb
    · cases (Function.update_self ..).symm.trans hb
      rfl

theorem LoopInv.free (h : LoopInv s) (hp : s.socks p = some r) (hphase : r.phase = .announced) :
    LoopInv { s with socks := Function.update s.socks p none } := by
  refine h.released (fun fd ev hev => ⟨hev, fun hptr => ?_⟩) h.closedFree ?_
  · obtain ⟨a, ha, -, -, hopen⟩ := h.watched fd ev hev
    rw [hptr, hp] at ha
    cases ha
    exact hopen hphase
  · intro e he
    refine (h.entries e he).kept ⟨?_, ?_, Nat.le_refl _⟩
    · intro q a hq ha
      have hne : q ≠ p := by
        intro heq
        rw [heq, hp] at hq
        cases hq
        exact ha hphase
      exact ⟨a, (Function.update_of_ne hne _ _).trans hq, rfl, rfl, ha⟩
    · intro q a hq _
      change Function.update s.socks p none q = some a at hq
      by_cases hqp : q = p
      · rw [hqp, Function.update_self] at hq
        cases hq
      · rw [Function.update_of_ne hqp] at hq
        exact ⟨a, hq, rfl, id⟩

theorem open_of_thread (hphase : r.phase = .shared ∨ r.phase = .deleted) :
    r.phase ≠ .closed ∧ r.phase ≠ .announced ∧ r.phase ≠ .external := by
  obtain h | h := hphase <;> rw [h] <;> decide

/-- The registration of a descriptor of the caller leaves a flag that is right. -/
theorem LoopInv.externRead (h : LoopInv s) (hp : s.socks p = some r) (hphase : r.phase = .external)
    (room : Bool) :
    LoopInv
      { s with
        kernel := (EpollCall.addEventSocketReadPersist.apply room s.kernel p r.sock).1
        socks := Function.update s.socks p (some { r with
          sock := (EpollCall.addEventSocketReadPersist.apply room s.kernel p r.sock).2 }) } := by
  have hopen : r.phase ≠ .closed ∧ r.phase ≠ .announced := by
    rw [hphase]
    decide
  rw [EpollCall.apply]
  obtain ⟨hrun, hopened⟩ | ⟨hrun, hnone⟩ := modifyEpoll_cases h.closedFree room p r.sock
    { epollin := true } true
  · rw [hrun]
    refine h.touched hp hopen ?_ ?_ true fun _ hflag => absurd hflag (by decide)
    · intro fd ev hev
      obtain ⟨hfd, heq⟩ | ⟨-, hold⟩ := set_interest hev
      · cases heq
        exact Or.inr ⟨hfd, rfl⟩
      · exact Or.inl hold
    · intro d hd
      have hne : d ≠ r.sock.socket := by
        intro heq
        rw [heq] at hd
        exact absurd (hopened.symm.trans hd) (by decide)
      exact (Function.update_of_ne hne _ _).trans (h.closedFree d hd)
  · rw [hrun]
    refine h.touched hp hopen (fun _ _ hev => Or.inl hev) h.closedFree false ?_
    intro _ _ fd ev hev hptr
    obtain ⟨a, ha, hfd, -⟩ := h.watched fd ev hev
    rw [hptr, hp] at ha
    cases ha
    rw [← hfd, hnone] at hev
    cases hev

/-- **Every step keeps the invariant.** -/
theorem LoopInv.step (h : LoopInv s) {s' : EventLoop} (hstep : LoopStep s s') : LoopInv s' := by
  cases hstep with
  | addSocket p fd phase hp hphase hfd => exact h.addSocket fd phase hp
  | ctl p r op ev room hp hphase hev =>
      have hopen := open_of_thread hphase
      have hctl := h.touched hp (k := (epollCtl room s.kernel op r.sock.socket ev).1)
        ⟨hopen.1, hopen.2.1⟩ ?_ (h.closedFree.ctl room op r.sock.socket ev) r.sock.registered
        (fun hextern => absurd hextern hopen.2.2)
      · rw [Function.update_eq_self_iff.mpr hp.symm] at hctl
        exact hctl
      · intro fd ev' hev'
        obtain hold | ⟨hfd, rfl⟩ := epollCtl_interest hev'
        · exact Or.inl hold
        · exact Or.inr ⟨hfd, hev⟩
  | flag p r registered hp hphase =>
      have hopen := open_of_thread hphase
      exact h.touched hp ⟨hopen.1, hopen.2.1⟩ (fun _ _ hev => Or.inl hev) h.closedFree registered
        (fun hextern => absurd hextern hopen.2.2)
  | externRead p r room hp hphase => exact h.externRead hp hphase room
  | releaseExtern p r hp hphase => exact h.releaseExtern hp hphase
  | deleteSocket p r hp hphase =>
      refine h.moved hp (by decide) (fun _ _ hev => hev) ?_ h.closedFree fun e he =>
        (h.entries e he).kept (SocksKept.update hp rfl rfl rfl rfl ?_)
      · rintro (hc | hc) <;> cases hc
      · rw [hphase]
        show Phase.deleted = .announced ↔ Phase.shared = .announced
        decide
  | closeSocket p r hp hphase => exact h.closeSocket hp hphase
  | freed p r hp hphase => exact h.freed hp hphase
  | free p r hp hphase => exact h.free hp hphase
  | wait events hbatch hmax =>
      refine h.batched fun e he => ?_
      obtain ⟨event, -, hevent⟩ := List.mem_filterMap.mp he
      exact h.report hevent _ _
  | dispatch hnext =>
      refine h.batched fun e he => (h.entries e ?_).kept ⟨?_, ?_, Nat.le_refl _⟩
      · rw [← List.drop_drop] at he
        exact List.mem_of_mem_drop he
      · exact fun q a hq ha => ⟨a, hq, rfl, rfl, ha⟩
      · exact fun q a hq _ => ⟨a, hq, rfl, id⟩
  | endBatch hnext => exact h.batched fun e he => absurd he List.not_mem_nil

end Steps

theorem startLoop_inv (opened : Nat → Bool) : LoopInv (startLoop opened) where
  watched := by
    intro fd ev hev
    cases hev
  externFlag := by
    intro p r hp
    cases hp
  closedFree := fun _ _ => rfl
  fresh := by
    intro p r hp
    cases hp
  entries := fun _ he => absurd he List.not_mem_nil

/-- Every state of every run has it. -/
theorem LoopReachable.inv {opened : Nat → Bool} {s : EventLoop} (h : LoopReachable opened s) :
    LoopInv s := by
  induction h with
  | refl => exact startLoop_inv opened
  | tail _ hstep ih => exact ih.step hstep

/-! ## The code makes these steps -/

section Code

variable {s : EventLoop} {p : SockId} {r : LoopSock}

/-- The state in which one socket and the kernel are others. -/
def EventLoop.with (s : EventLoop) (p : SockId) (r : LoopSock) (result : EpollKernel × EpollSock) :
    EventLoop :=
  { s with
    kernel := result.1
    socks := Function.update s.socks p (some { r with sock := result.2 }) }

/-- A call of `epoll_ctl` for the socket. -/
theorem ctl_step (hp : s.socks p = some r) (hphase : r.phase = .shared ∨ r.phase = .deleted)
    {room : Bool} {op : EpollOp} {ev : EpollEvent} (hev : ev.ptr = p) {k k' : EpollKernel}
    {err : Option Errno} (hctl : epollCtl room k op r.sock.socket ev = (k', err)) :
    LoopStep { s with kernel := k } { s with kernel := k' } := by
  have hstep : LoopStep { s with kernel := k }
      { s with kernel := (epollCtl room k op r.sock.socket ev).1 } :=
    .ctl p r op ev room hp hphase hev
  rwa [hctl] at hstep

/-- A store to the flag ends the calls. -/
theorem flag_steps (hp : s.socks p = some r) (hphase : r.phase = .shared ∨ r.phase = .deleted)
    {k : EpollKernel} (hctl : Relation.ReflTransGen LoopStep s { s with kernel := k })
    (registered : Bool) :
    Relation.ReflTransGen LoopStep s
      (s.with p r (k, { r.sock with registered := registered })) :=
  hctl.tail (.flag p r registered hp hphase)

/-- `modifyEpoll` of any thread, call by call. -/
theorem modifyEpoll_steps (hp : s.socks p = some r)
    (hphase : r.phase = .shared ∨ r.phase = .deleted) (room : Bool) (events : EpollEvents)
    (persist : Bool) :
    Relation.ReflTransGen LoopStep s
      (s.with p r (modifyEpoll room s.kernel p r.sock events persist)) := by
  rw [modifyEpoll]
  generalize hop : (if r.sock.registered then EpollOp.mod else EpollOp.add) = op
  generalize hev : (⟨{ events with oneshot := !persist }, p⟩ : EpollEvent) = ev
  have hptr : ev.ptr = p := by rw [← hev]
  rcases hfirst : epollCtl room s.kernel op r.sock.socket ev with ⟨k₁, err₁⟩
  have hone : Relation.ReflTransGen LoopStep s { s with kernel := k₁ } :=
    .single (ctl_step hp hphase hptr hfirst)
  -- the other operation, behind one of the two errors
  have htwo : ∀ op' k₂ err₂, epollCtl room k₁ op' r.sock.socket ev = (k₂, err₂) →
      Relation.ReflTransGen LoopStep s { s with kernel := k₂ } := fun op' k₂ err₂ hsecond =>
    hone.tail (ctl_step hp hphase hptr hsecond)
  cases err₁ with
  | none => exact flag_steps hp hphase hone true
  | some err =>
      cases err with
      | eexist =>
          rcases hsecond : epollCtl room k₁ .mod r.sock.socket ev with ⟨k₂, err₂⟩
          dsimp only
          rw [hsecond]
          cases err₂ with
          | none => exact flag_steps hp hphase (htwo _ _ _ hsecond) true
          | some err => exact flag_steps hp hphase (htwo _ _ _ hsecond) false
      | enoent =>
          rcases hsecond : epollCtl room k₁ .add r.sock.socket ev with ⟨k₂, err₂⟩
          dsimp only
          rw [hsecond]
          cases err₂ with
          | none => exact flag_steps hp hphase (htwo _ _ _ hsecond) true
          | some err => exact flag_steps hp hphase (htwo _ _ _ hsecond) false
      | ebadf => exact flag_steps hp hphase hone false
      | enomem => exact flag_steps hp hphase hone false

/-- `delEventSocketAll`, call by call. -/
theorem delEventSocketAll_steps (hp : s.socks p = some r)
    (hphase : r.phase = .shared ∨ r.phase = .deleted) :
    Relation.ReflTransGen LoopStep s (s.with p r (delEventSocketAll s.kernel p r.sock)) := by
  rw [delEventSocketAll]
  cases hreg : r.sock.registered with
  | false =>
      rw [if_neg Bool.false_ne_true, EventLoop.with, Function.update_eq_self_iff.mpr hp.symm]
  | true =>
      rw [if_pos rfl]
      exact flag_steps hp hphase (.single (ctl_step hp hphase rfl rfl)) false

/-- `WebserverConnectionManagerCloseRequest`, for a socket that is not the client of a proxy. -/
def EventLoop.closeRequest (s : EventLoop) (p : SockId) (r : LoopSock) : EventLoop :=
  { s with
    kernel := closeDescriptor (delEventSocketAll s.kernel p r.sock).1 r.sock.socket
    socks := Function.update s.socks p none
    batch := eventSocketFreed p s.next s.batch }

theorem closeRequest_steps (hp : s.socks p = some r) (hphase : r.phase = .shared) :
    Relation.ReflTransGen LoopStep s (s.closeRequest p r) := by
  -- the records of the socket, on its way out
  have hfd : (delEventSocketAll s.kernel p r.sock).2.socket = r.sock.socket := by
    rw [delEventSocketAll]
    cases r.sock.registered <;> rfl
  have hat : ∀ {t : EventLoop} {a : LoopSock}, (t.store p a).socks p = some a :=
    Function.update_self ..
  have hdeleted := Relation.ReflTransGen.single (LoopStep.deleteSocket p r hp hphase)
  have hdel := hdeleted.trans (delEventSocketAll_steps hat (Or.inr rfl))
  have hclosed := hdel.tail (.closeSocket p _ (Function.update_self ..) rfl)
  have hfreed := hclosed.tail (.freed p _ (Function.update_self ..) rfl)
  have hfree := hfreed.tail (.free p _ (Function.update_self ..) rfl)
  simp only [EventLoop.with, EventLoop.store, Function.update_idem, hfd] at hfree
  exact hfree

end Code

/-! ## The result -/

/-- What holds of the entry that is dispatched next, and of the kernel. -/
structure EventsSafe (s : EventLoop) : Prop where
  /-- The address is that of the socket that the event was reported for: the socket is in memory,
  and no other one has taken its place. -/
  address : ∀ e p, s.batch[s.next]? = some e → e.ptr = some p →
    p = e.source ∧ ∃ r, s.socks p = some r ∧ r.number = e.number ∧ r.sock.socket = e.fd
  /-- No event is dropped but those of sockets that are released. -/
  dropped : ∀ e r, s.batch[s.next]? = some e → e.ptr = none → s.socks e.source = some r →
    r.number = e.number → r.phase = .announced
  /-- The kernel has no address of a socket that has been released. -/
  watched : ∀ fd ev, s.kernel.interest fd = some ev →
    ∃ r, s.socks ev.ptr = some r ∧ r.sock.socket = fd

/-- **No event reaches a socket that has been released, or one that came in its place**, in any run,
with the steps of all threads in any order. -/
theorem events_safe {opened : Nat → Bool} {s : EventLoop} (h : LoopReachable opened s) :
    EventsSafe s := by
  have hmem : ∀ {e}, s.batch[s.next]? = some e → e ∈ s.batch.drop s.next := by
    intro e he
    rw [← Nat.add_zero s.next, ← List.getElem?_drop] at he
    exact List.mem_of_getElem? he
  constructor
  · intro e p he hp
    obtain ⟨hsource, r, hr, hnumber, hfd, -⟩ := (h.inv.entries e (hmem he)).live p hp
    exact ⟨hsource, r, hr, hnumber, hfd⟩
  · intro e r he hnone hr hnumber
    exact (h.inv.entries e (hmem he)).dropped hnone r hr hnumber
  · intro fd ev hev
    obtain ⟨r, hr, hfd, -⟩ := h.inv.watched fd ev hev
    exact ⟨r, hr, hfd⟩

/-- Both events of a batch are read; the first handler closes the second socket, and a new
connection gets its memory and its descriptor. The second event is dropped. -/
theorem events_safe_recycled :
    ∃ s, LoopReachable (fun _ => false) s ∧ s.batch.map BatchEntry.ptr = [some 1, none] ∧
      s.next = 1 ∧ (s.socks 2).map LoopSock.number = some 2 ∧ EventsSafe s := by
  have hfd : ∀ q r, Function.update (startLoop fun _ => false).socks 1
      (some { sock := { socket := 5 }, number := 0, phase := .shared }) q = some r →
      r.sock.socket ≠ 6 := by
    intro q r hq
    by_cases hq1 : q = 1
    · rw [hq1, Function.update_self] at hq
      cases hq
      decide
    · rw [Function.update_of_ne hq1] at hq
      cases hq
  have h : LoopReachable (fun _ => false) (startLoop fun _ => false) := .refl
  replace h := h.tail (.addSocket 1 5 .shared rfl (Or.inr rfl) fun _ _ hq _ => by cases hq)
  replace h := h.tail (.addSocket 2 6 .shared rfl (Or.inr rfl) fun q r hq hq6 =>
    absurd hq6 (hfd q r hq))
  replace h := h.tail (.ctl 1 _ .add ⟨{ epollin := true }, 1⟩ true rfl (Or.inl rfl) rfl)
  replace h := h.tail (.ctl 2 _ .add ⟨{ epollin := true }, 2⟩ true rfl (Or.inl rfl) rfl)
  replace h := h.tail (.wait [(5, { epollin := true }), (6, { epollin := true })] rfl (by decide))
  replace h := h.tail (.dispatch (by decide))
  replace h := h.tail (.deleteSocket 2 _ rfl rfl)
  replace h := h.tail (.closeSocket 2 _ rfl rfl)
  replace h := h.tail (.freed 2 _ rfl rfl)
  replace h := h.tail (.free 2 _ rfl rfl)
  replace h := h.tail (.addSocket 2 6 .shared rfl (Or.inr rfl) fun q r hq hq6 => by
    by_cases hq2 : q = 2
    · subst hq2
      cases hq
    · simp only [EventLoop.store, Function.update_of_ne hq2] at hq
      exact absurd hq6 (hfd q r hq))
  exact ⟨_, h, rfl, rfl, rfl, events_safe h⟩

end CWebUI.Sockets.Epoll
