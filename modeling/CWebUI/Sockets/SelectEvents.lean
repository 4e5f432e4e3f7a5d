import Mathlib.Data.Finset.Card
import CWebUI.Basic.Lists
import CWebUI.Sockets.SocketInfo

set_option autoImplicit false

/-! # Event registration of the select backend

`system_sockets_select.c` keeps the sockets that wait for events in the table `client_sock`, one
slot for each, and two descriptor sets for the call of `select`. The callers rely on what epoll
gives them: an add call sets the complete event set of a socket, whatever it was before, and
`delEventSocketAll` leaves nothing of it. `register_socket` takes a free slot each time.

A descriptor set is the set of its descriptors. The calls hold the lock of the table, so a
run is a sequence of calls. The pipe that wakes the event loop is left out.
-/

namespace CWebUI.Sockets

open ListLemmas

/-! ## The table -/

/-- `FD_SETSIZE`. -/
def fdSetSize : Nat := 1024

/-- The bits `EVENT_READ`, `EVENT_WRITE` and `EVENT_PERSIST`. -/
structure EventFlags where
  read : Bool := false
  write : Bool := false
  persist : Bool := false
  deriving DecidableEq, Repr

/-- `struct client_socket`. A negative descriptor marks a free slot. -/
structure ClientSocket where
  socket : Int := -1
  flags : EventFlags := {}
  sock : Option SockId := none
  deriving DecidableEq, Repr

/-- The global state of the backend. -/
structure SelectTable where
  clientSock : List ClientSocket
  gesamtLeseSockets : Nat → Bool
  gesamtSchreibeSockets : Nat → Bool
  sockMax : Nat := 0
  max : Nat := 0

/-- What a call reads of a `socket_info`: its address and its descriptor. -/
structure EventSocket where
  sock : SockId
  socket : Nat
  deriving DecidableEq, Repr

/-- `register_socket`. `none` is the exit of the program when no slot is free. -/
def registerSocket (t : SelectTable) (s : EventSocket) (flags : EventFlags) :
    Option SelectTable :=
  match t.clientSock.findIdx? (fun c => c.socket < 0) with
  | none => none
  | some i => some
      { clientSock := t.clientSock.set i ⟨s.socket, flags, some s.sock⟩
        gesamtLeseSockets :=
          if flags.read then Function.update t.gesamtLeseSockets s.socket true
          else t.gesamtLeseSockets
        gesamtSchreibeSockets :=
          if flags.write then Function.update t.gesamtSchreibeSockets s.socket true
          else t.gesamtSchreibeSockets
        sockMax := Nat.max t.sockMax s.socket
        max := Nat.max t.max i }

/-- `addEventSocketRead`. -/
def addEventSocketRead (t : SelectTable) (s : EventSocket) : Option SelectTable :=
  registerSocket t s { read := true }

/-- `addEventSocketReadPersist`. -/
def addEventSocketReadPersist (t : SelectTable) (s : EventSocket) : Option SelectTable :=
  registerSocket t s { read := true, persist := true }

/-- `addEventSocketWritePersist`. -/
def addEventSocketWritePersist (t : SelectTable) (s : EventSocket) : Option SelectTable :=
  registerSocket t s { write := true, persist := true }

/-- `addEventSocketReadWritePersist`. -/
def addEventSocketReadWritePersist (t : SelectTable) (s : EventSocket) : Option SelectTable :=
  registerSocket t s { read := true, write := true, persist := true }

/-- `delEventSocketAll2`: free the first slot of the descriptor. -/
def delEventSocketAll2 (t : SelectTable) (socket : Nat) : SelectTable :=
  match t.clientSock.findIdx? (fun c => c.socket = (socket : Int)) with
  | none => t
  | some i =>
      { t with
        clientSock := t.clientSock.set i {}
        gesamtLeseSockets := Function.update t.gesamtLeseSockets socket false
        gesamtSchreibeSockets := Function.update t.gesamtSchreibeSockets socket false }

/-- `delEventSocketAll`. -/
def delEventSocketAll (t : SelectTable) (s : EventSocket) : SelectTable :=
  delEventSocketAll2 t s.socket

/-! ## Runs -/

/-- A call of the backend. -/
inductive EventCall where
  | addEventSocketRead (s : EventSocket)
  | addEventSocketReadPersist (s : EventSocket)
  | addEventSocketWritePersist (s : EventSocket)
  | addEventSocketReadWritePersist (s : EventSocket)
  | delEventSocketAll (s : EventSocket)
  deriving DecidableEq, Repr

namespace EventCall

/-- The socket of a call. -/
def target : EventCall → EventSocket
  | .addEventSocketRead s => s
  | .addEventSocketReadPersist s => s
  | .addEventSocketWritePersist s => s
  | .addEventSocketReadWritePersist s => s
  | .delEventSocketAll s => s

/-- The events that an add call asks for. -/
def events : EventCall → Option EventFlags
  | .addEventSocketRead _ => some { read := true }
  | .addEventSocketReadPersist _ => some { read := true, persist := true }
  | .addEventSocketWritePersist _ => some { write := true, persist := true }
  | .addEventSocketReadWritePersist _ => some { read := true, write := true, persist := true }
  | .delEventSocketAll _ => none

/-- The call. -/
def apply (t : SelectTable) : EventCall → Option SelectTable
  | .addEventSocketRead s => CWebUI.Sockets.addEventSocketRead t s
  | .addEventSocketReadPersist s => CWebUI.Sockets.addEventSocketReadPersist t s
  | .addEventSocketWritePersist s => CWebUI.Sockets.addEventSocketWritePersist t s
  | .addEventSocketReadWritePersist s => CWebUI.Sockets.addEventSocketReadWritePersist t s
  | .delEventSocketAll s => some (CWebUI.Sockets.delEventSocketAll t s)

/-- A call registers its socket for the events it asks for, or removes it. -/
theorem apply_eq (t : SelectTable) (c : EventCall) :
    c.apply t = match c.events with
      | some flags => registerSocket t c.target flags
      | none => some (delEventSocketAll2 t c.target.socket) := by
  cases c <;> rfl

end EventCall

/-- A run of calls. -/
def runEvents : SelectTable → List EventCall → Option SelectTable
  | t, [] => some t
  | t, c :: calls => (c.apply t).bind (runEvents · calls)

/-! ## What the callers rely on -/

/-- The sockets that are registered, by their descriptors, with the events of the last
call. -/
abbrev Registered : Type := Nat → Option (EventFlags × SockId)

/-- A call replaces what was registered for its socket, as a modification of epoll does. -/
def EventCall.record (reg : Registered) (c : EventCall) : Registered :=
  Function.update reg c.target.socket (c.events.map (·, c.target.sock))

/-- What is registered after a run. -/
def lastCalls (reg : Registered) (calls : List EventCall) : Registered :=
  calls.foldl EventCall.record reg

/-- The slots that a socket should have. -/
def slotsOf (d : Nat) : Option (EventFlags × SockId) → List ClientSocket
  | none => []
  | some (flags, a) => [⟨d, flags, some a⟩]

/-- The table holds exactly what is registered: each registered socket has one slot, a socket that
is not registered has none, and the descriptor sets are those of the events. -/
structure Holds (t : SelectTable) (reg : Registered) : Prop where
  size : t.clientSock.length = fdSetSize
  slots : ∀ d : Nat, t.clientSock.filter (fun c => c.socket = (d : Int)) = slotsOf d (reg d)
  readSet : ∀ d, t.gesamtLeseSockets d = (reg d).any (·.1.read)
  writeSet : ∀ d, t.gesamtSchreibeSockets d = (reg d).any (·.1.write)

/-- At every moment of the run the program goes on, and the table holds exactly what is
registered. -/
def EventsKept (t : SelectTable) (reg : Registered) (calls : List EventCall) : Prop :=
  ∀ done, done <+: calls → ∃ t', runEvents t done = some t' ∧ Holds t' (lastCalls reg done)

variable {t : SelectTable} {reg : Registered}

theorem slotsOf_length (d : Nat) (r : Option (EventFlags × SockId)) : (slotsOf d r).length ≤ 1 := by
  match r with
  | none => exact Nat.zero_le 1
  | some (flags, a) => exact Nat.le_refl 1

/-- As long as fewer sockets are registered than there are slots, one is free. -/
theorem Holds.free (h : Holds t reg) {ds : Finset Nat} (hds : ∀ d, reg d ≠ none → d ∈ ds)
    (hfew : ds.card < fdSetSize) :
    ∃ i, t.clientSock.findIdx? (fun c => c.socket < 0) = some i := by
  cases hfind : t.clientSock.findIdx? (fun c => c.socket < 0) with
  | some i => exact ⟨i, rfl⟩
  | none =>
      exfalso
      have hused : ∀ c ∈ t.clientSock, 0 ≤ c.socket := by
        intro c hc
        have := List.findIdx?_eq_none_iff.mp hfind c hc
        simpa using this
      have hcount : ∀ d : Nat, (t.clientSock.map (fun c => c.socket.toNat)).count d =
          (slotsOf d (reg d)).length := by
        intro d
        rw [← h.slots d, List.count, List.countP_map, List.countP_eq_length_filter]
        congr 1
        refine List.filter_congr (fun c hc => ?_)
        have := hused c hc
        rw [Function.comp_apply, Bool.eq_iff_iff, beq_iff_eq, decide_eq_true_eq]
        omega
      -- every slot belongs to a registered socket of its own
      have hnodup : (t.clientSock.map (fun c => c.socket.toNat)).Nodup := by
        rw [List.nodup_iff_count_le_one]
        intro d
        rw [hcount d]
        exact slotsOf_length d (reg d)
      have hsub : (t.clientSock.map (fun c => c.socket.toNat)).toFinset ⊆ ds := by
        intro d hd
        refine hds d (fun hnone => ?_)
        have hpos := List.count_pos_iff.mpr (List.mem_toFinset.mp hd)
        rw [hcount d, hnone] at hpos
        exact absurd hpos (Nat.lt_irrefl 0)
      have hcard := Finset.card_le_card hsub
      rw [List.toFinset_card_of_nodup hnodup, List.length_map, h.size] at hcard
      omega

theorem EventsKept.holds {calls : List EventCall} (h : EventsKept t reg calls) : Holds t reg := by
  obtain ⟨t0, ht0, h0⟩ := h [] List.nil_prefix
  obtain rfl := Option.some.inj ht0
  exact h0

end CWebUI.Sockets
