import CWebUI.Basic.Circular
import CWebUI.Sockets.Admission
import CWebUI.Sockets.Container

set_option autoImplicit false

/-! # The connection to close for the total limit

`connLimitPickGlobalVictim` (`system_sockets_container.c`) goes round the list of the sockets from
where the last search has stopped. It looks at no more sockets than `sock_list_clients + 8`, and
ends earlier when it has seen `CONN_GLOBAL_WINDOW` connections of clients and one of them may be
closed.

The sockets that it has looked at are a walk round the list (`pickGlobalLoop_walk`), and the choice
is the one that `connLimitPickVictim` makes among the connections of an address. With few
connections and listeners the walk meets all of them (`ContainerInv.pick_all`).
-/

namespace CWebUI.Sockets

open DoublyLinked CircularList

variable {s : SockContainer} {ids : List SockId}

/-! ## The list as a circle -/

/-- The next socket, from the last one on to the head again. -/
def nextSocket (s : SockContainer) (a : SockId) : SockId :=
  (((s.socks a).sockListNext).or s.head).getD a

/-- What is linked one behind the other, with the pointer behind the last one. -/
theorem chained_of_segment {prev first last : Option SockId} {l : List SockId} {z : SockId}
    (hseg : Segment (sockLinks s.socks) prev first (l.map (·, ())) none last)
    (hhead : s.head = some z) : Chained (nextSocket s) l z := by
  induction l generalizing first prev with
  | nil => exact trivial
  | cons a l ih =>
      obtain ⟨-, n, hnode, hrest⟩ := hseg
      have hn : (s.socks a).sockListNext = n := congrArg Node.next (Option.some.inj hnode)
      cases l with
      | nil =>
          have hnone : n = none := hrest.1
          show nextSocket s a = z
          rw [nextSocket, hn, hnone, hhead]
          rfl
      | cons b l =>
          have hb : n = some b := hrest.1
          refine ⟨?_, ih hrest⟩
          rw [nextSocket, hn, hb]
          rfl

theorem ContainerInv.circle (h : ContainerInv s ids) : Circle (nextSocket s) ids := by
  intro a ha
  cases ids with
  | nil => cases ha
  | cons b ids =>
      have hab : b = a := Option.some.inj ha
      subst hab
      exact chained_of_segment h.linked h.linked.1

/-- A linked socket has a next one. -/
theorem ContainerInv.nextSocket_eq (h : ContainerInv s ids) {a : SockId} (ha : a ∈ ids) :
    ((s.socks a).sockListNext).or s.head = some (nextSocket s a) := by
  have hhead : s.head ≠ none := by
    cases ids with
    | nil => cases ha
    | cons b ids =>
        have hb : s.head = some b := h.linked.1
        rw [hb]
        exact fun hnone => by cases hnone
  obtain ⟨b, hb⟩ := Option.ne_none_iff_exists'.mp hhead
  unfold nextSocket
  cases (s.socks a).sockListNext with
  | some c => rfl
  | none =>
      rw [hb]
      rfl

/-! ## The walk -/

/-- The connections of clients among these sockets. -/
def clientsOf (socks : SockMemory) (ids : List SockId) : List SockId :=
  ids.filter fun a => isClientSocket (socks a)

/-- The two searches choose in the same way. -/
theorem betterVictim_eq_older (socks : SockMemory) (best : Option SockId) (a : SockId) :
    betterVictim socks best a = older socks best a := by
  unfold betterVictim older
  cases connLimitIsEvictable (socks a) with
  | false => rfl
  | true => rfl

/-- **The sockets that were looked at** are a walk round the list. It takes all its steps, or it has
seen a window of clients. -/
theorem ContainerInv.pickGlobalLoop_walk (h : ContainerInv s ids) {a : SockId} (ha : a ∈ ids)
    (steps looked : Nat) (best : Option SockId) :
    ∃ k, (Sockets.pickGlobalLoop s steps (some a) looked best).2 =
        (clientsOf s.socks (List.iterate (nextSocket s) a k)).foldl (older s.socks) best ∧
      (k = steps ∨ connGlobalWindow ≤
        looked + (clientsOf s.socks (List.iterate (nextSocket s) a k)).length) := by
  induction steps generalizing a looked best with
  | zero => exact ⟨0, rfl, .inl rfl⟩
  | succ steps ih =>
      have hnext := h.nextSocket_eq ha
      have hmem := h.circle.next_mem ha
      by_cases hlooked : looked < 2 * connGlobalWindow
      · cases hclient : isClientSocket (s.socks a) with
        | false =>
            -- a listener or a backend is passed
            obtain ⟨k, hres, hend⟩ := ih hmem looked best
            have hwalk : clientsOf s.socks (List.iterate (nextSocket s) a (k + 1)) =
                clientsOf s.socks (List.iterate (nextSocket s) (nextSocket s a) k) := by
              simp [clientsOf, List.iterate, hclient]
            refine ⟨k + 1, ?_, ?_⟩
            · rw [hwalk, ← hres, Sockets.pickGlobalLoop, if_pos hlooked, hnext]
              simp [hclient]
            · rw [hwalk]
              exact hend.imp (congrArg (· + 1)) id
        | true =>
            have hwalk : ∀ k, clientsOf s.socks (List.iterate (nextSocket s) a (k + 1)) =
                a :: clientsOf s.socks (List.iterate (nextSocket s) (nextSocket s a) k) := by
              intro k
              simp [clientsOf, List.iterate, hclient]
            by_cases hstop : (betterVictim s.socks best a).isSome = true ∧
                connGlobalWindow ≤ looked + 1
            · refine ⟨1, ?_, .inr ?_⟩
              · rw [hwalk 0, Sockets.pickGlobalLoop, if_pos hlooked]
                simp only [hclient, if_true]
                rw [if_pos hstop]
                exact betterVictim_eq_older s.socks best a
              · rw [hwalk 0]
                exact hstop.2
            · obtain ⟨k, hres, hend⟩ := ih hmem (looked + 1) (betterVictim s.socks best a)
              refine ⟨k + 1, ?_, ?_⟩
              · rw [hwalk k, List.foldl_cons, ← betterVictim_eq_older, ← hres,
                  Sockets.pickGlobalLoop, if_pos hlooked, hnext]
                simp only [hclient, if_true]
                rw [if_neg hstop]
              · rw [hwalk k, List.length_cons]
                exact hend.imp (congrArg (· + 1)) fun hseen => by omega
      · refine ⟨0, ?_, .inr ?_⟩
        · rw [Sockets.pickGlobalLoop, if_neg hlooked]
          rfl
        · omega

/-! ## The choice -/

theorem mem_clientsOf {socks : SockMemory} {a : SockId} :
    a ∈ clientsOf socks ids ↔ a ∈ ids ∧ isClientSocket (socks a) = true := List.mem_filter

/-- What matters is which connections have been seen. -/
theorem IsChoice.congr {socks : SockMemory} {seen seen' : List SockId} {best : Option SockId}
    (h : IsChoice socks seen best) (hseen : ∀ a, a ∈ seen ↔ a ∈ seen') :
    IsChoice socks seen' best := by
  refine ⟨fun hnone a ha => h.1 hnone a ((hseen a).mpr ha), fun victim hvictim => ?_⟩
  obtain ⟨hin, hevict, holdest⟩ := h.2 victim hvictim
  exact ⟨(hseen victim).mp hin, hevict, fun a ha => holdest a ((hseen a).mpr ha)⟩

/-- There is no choice exactly when there is nothing to choose. -/
theorem IsChoice.none_iff {socks : SockMemory} {seen : List SockId} {best : Option SockId}
    (h : IsChoice socks seen best) :
    best = none ↔ ∀ a ∈ seen, connLimitIsEvictable (socks a) = false := by
  constructor
  · exact h.1
  · intro hall
    cases best with
    | none => rfl
    | some victim =>
        obtain ⟨hin, hevict, -⟩ := h.2 victim rfl
        rw [hall victim hin] at hevict
        cases hevict

/-- The number of sockets that `connLimitPickGlobalVictim` looks at, at most. -/
def scanSteps (s : SockContainer) : Nat := (s.clients.toInt32.toInt + 8).toNat

/-- Where the search starts. -/
theorem ContainerInv.start_mem (h : ContainerInv s ids) {a : SockId}
    (ha : s.cursor.or s.head = some a) : a ∈ ids := by
  cases hc : s.cursor with
  | none =>
      rw [hc, Option.none_or] at ha
      exact h.head_mem ha
  | some c =>
      rw [hc, Option.some_or] at ha
      rw [← Option.some.inj ha]
      exact h.cursor c hc

theorem ContainerInv.start_none (h : ContainerInv s ids) (hnone : s.cursor.or s.head = none) :
    ids = [] := by
  cases ids with
  | nil => rfl
  | cons a ids =>
      have hhead : s.head = some a := h.linked.1
      rw [hhead] at hnone
      cases hc : s.cursor with
      | none =>
          rw [hc] at hnone
          cases hnone
      | some c =>
          rw [hc] at hnone
          cases hnone

/-- The search chooses among connections of clients in the list, and these are all of them when it
has seen enough. -/
theorem ContainerInv.pick_choice (h : ContainerInv s ids) :
    ∃ seen, IsChoice s.socks seen (connLimitPickGlobalVictim s).2 ∧
      (∀ a ∈ seen, a ∈ clientsOf s.socks ids) ∧
      (ids.length ≤ scanSteps s → (clientsOf s.socks ids).length ≤ connGlobalWindow →
        ∀ a ∈ clientsOf s.socks ids, a ∈ seen) := by
  have hempty : IsChoice s.socks [] none :=
    ⟨fun _ a ha => absurd ha List.not_mem_nil, fun victim hv => absurd hv (by simp)⟩
  cases hstart : s.cursor.or s.head with
  | none =>
      have hids := h.start_none hstart
      have hres : (connLimitPickGlobalVictim s).2 = none := by
        unfold connLimitPickGlobalVictim
        rw [hstart]
        cases (s.clients.toInt32.toInt + 8).toNat <;> rfl
      refine ⟨[], by rw [hres]; exact hempty, fun a ha => absurd ha List.not_mem_nil, ?_⟩
      intro _ _ a ha
      rw [hids] at ha
      exact absurd ha List.not_mem_nil
  | some a =>
      have ha := h.start_mem hstart
      obtain ⟨k, hres, hend⟩ := h.pickGlobalLoop_walk ha (scanSteps s) 0 none
      have hpick : (connLimitPickGlobalVictim s).2 =
          (Sockets.pickGlobalLoop s (scanSteps s) (some a) 0 none).2 := by
        unfold connLimitPickGlobalVictim scanSteps
        rw [hstart]
      refine ⟨clientsOf s.socks (List.iterate (nextSocket s) a k), ?_, ?_, ?_⟩
      · rw [hpick, hres]
        have hchoice := hempty.foldl (clientsOf s.socks (List.iterate (nextSocket s) a k))
        rw [List.nil_append] at hchoice
        exact hchoice
      · intro b hb
        rw [mem_clientsOf] at hb ⊢
        exact ⟨h.circle.iterate_mem ha k b hb.1, hb.2⟩
      · intro hsteps hwindow b hb
        rw [mem_clientsOf] at hb ⊢
        have hcount : ids.length ≤ k ∨ ids.countP (fun a => isClientSocket (s.socks a)) ≤
            (List.iterate (nextSocket s) a k).countP (fun a => isClientSocket (s.socks a)) := by
          rw [List.countP_eq_length_filter, List.countP_eq_length_filter]
          rcases hend with hk | hseen
          · exact .inl (by omega)
          · rw [Nat.zero_add] at hseen
            exact .inr (hwindow.trans hseen)
        exact ⟨h.circle.mem_walk ha _ hcount b hb.1 hb.2, hb.2⟩

/-- A victim is a connection of a client that may be closed. -/
theorem ContainerInv.pick_victim (h : ContainerInv s ids) {victim : SockId}
    (hv : (connLimitPickGlobalVictim s).2 = some victim) :
    victim ∈ ids ∧ isClientSocket (s.socks victim) = true ∧
      connLimitIsEvictable (s.socks victim) = true := by
  obtain ⟨seen, hchoice, hseen, -⟩ := h.pick_choice
  obtain ⟨hin, hevict, -⟩ := hchoice.2 victim hv
  obtain ⟨hids, hclient⟩ := mem_clientsOf.mp (hseen victim hin)
  exact ⟨hids, hclient, hevict⟩

/-- The listeners in the list. -/
def listenersOf (socks : SockMemory) (ids : List SockId) : List SockId :=
  ids.filter fun a => (socks a).server

theorem length_eq_count (socks : SockMemory) (ids : List SockId) :
    ids.length = clientCount socks ids + (listenersOf socks ids).length := by
  unfold clientCount listenersOf
  induction ids with
  | nil => rfl
  | cons a ids ih =>
      cases hs : (socks a).server with
      | true =>
          simp [hs] at ih ⊢
          omega
      | false =>
          simp [hs] at ih ⊢
          omega

/-- **With few clients and listeners the search looks at all of them**, wherever it starts. -/
theorem ContainerInv.pick_all (h : ContainerInv s ids)
    (hexact : s.clients.toNat = clientCount s.socks ids) (hfew : s.clients.toNat + 8 < 2 ^ 31)
    (hclients : (clientsOf s.socks ids).length ≤ connGlobalWindow)
    (hlisteners : (listenersOf s.socks ids).length ≤ 8) :
    IsChoice s.socks (clientsOf s.socks ids) (connLimitPickGlobalVictim s).2 := by
  obtain ⟨seen, hchoice, hseen, hall⟩ := h.pick_choice
  have hsteps : scanSteps s = s.clients.toNat + 8 := by
    have hint : s.clients.toInt32.toInt = (s.clients.toNat : Int) := by
      have hlt : 2 * s.clients.toBitVec.toNat < 2 ^ 32 := by
        rw [UInt32.toNat_toBitVec]
        omega
      exact BitVec.toInt_eq_toNat_of_lt hlt
    rw [scanSteps, hint]
    omega
  have hlen := length_eq_count s.socks ids
  exact hchoice.congr fun a => ⟨hseen a, hall (by omega) hclients a⟩

end CWebUI.Sockets
