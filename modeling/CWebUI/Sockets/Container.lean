import CWebUI.Sockets.SocketInfo

set_option autoImplicit false

/-! # The socket container

The list of all sockets (`system_sockets_container.c`), linked through the sockets themselves,
with a counter of those that are no listeners and a cursor that goes round the list.
-/

namespace CWebUI.Sockets

open DoublyLinked

/-- The container: `sock_list_head`, `sock_list_tail`, `sock_list_clients` and
`global_scan_cursor`, with the memory of the sockets. -/
structure SockContainer where
  socks : SockMemory
  head : Option SockId := none
  tail : Option SockId := none
  clients : UInt32 := 0
  cursor : Option SockId := none

/-- A field of a socket is assigned. -/
def SockContainer.modify (s : SockContainer) (a : SockId) (f : SocketInfo → SocketInfo) :
    SockContainer :=
  { s with socks := Function.update s.socks a (f (s.socks a)) }

/-- `initSocketContainer` -/
def initSocketContainer (socks : SockMemory) : SockContainer := { socks }

/-- The pointer on to a socket that is taken out: in its predecessor, or `sock_list_head`. -/
def SockContainer.setNext (s : SockContainer) (prev next : Option SockId) : SockContainer :=
  match prev with
  | some a => s.modify a fun sock => { sock with sockListNext := next }
  | none => { s with head := next }

/-- The pointer back to a socket that is taken out: in its successor, or `sock_list_tail`. -/
def SockContainer.setPrev (s : SockContainer) (next prev : Option SockId) : SockContainer :=
  match next with
  | some a => s.modify a fun sock => { sock with sockListPrev := prev }
  | none => { s with tail := prev }

/-- `sock_list_unlink` -/
def sockListUnlink (sock : SockId) (s : SockContainer) : SockContainer :=
  let info := s.socks sock
  if info.inSockList = false then s
  else
    let s := if s.cursor = some sock then { s with cursor := info.sockListNext } else s
    let s := if info.server = false then { s with clients := s.clients - 1 } else s
    let s := s.setNext info.sockListPrev info.sockListNext
    let s := s.setPrev info.sockListNext info.sockListPrev
    s.modify sock fun info => { info with
      sockListPrev := none
      sockListNext := none
      inSockList := false }

/-- `deleteSocket`, without the tree of the websockets. -/
def deleteSocket (sock : SockId) (s : SockContainer) : SockContainer :=
  sockListUnlink sock (s.modify sock fun info => { info with closeSocket := true })

/-- `addSocketContainer` -/
def addSocketContainer (sock : SockId) (s : SockContainer) : SockContainer :=
  if (s.socks sock).inSockList = false then
    let tail := s.tail
    let s := s.modify sock fun info => { info with sockListPrev := tail, sockListNext := none }
    let s := s.setNext tail (some sock)
    let s := { s with tail := some sock }
    let s := s.modify sock fun info => { info with inSockList := true }
    if (s.socks sock).server = false then { s with clients := s.clients + 1 } else s
  else s

/-! ## The cursor -/

/-- `CONN_GLOBAL_WINDOW` -/
def connGlobalWindow : Nat := 64

/-- A client connection, which the search counts. Listeners and proxy backends are passed. -/
def isClientSocket (sock : SocketInfo) : Bool :=
  !sock.server && !(sock.externHandle = .none && sock.header.isNone) &&
    sock.externHandle ≠ .reverseProxyBackend

/-- The better of the victim so far and a socket. -/
def betterVictim (socks : SockMemory) (best : Option SockId) (a : SockId) : Option SockId :=
  if connLimitIsEvictable (socks a) then
    match best with
    | none => some a
    | some b => if (socks a).lastIo < (socks b).lastIo then some a else best
  else best

/-- The loop of `connLimitPickGlobalVictim`, for a number of steps at most: where it stops, and
the victim. -/
def pickGlobalLoop (s : SockContainer) :
    Nat → Option SockId → Nat → Option SockId → Option SockId × Option SockId
  | 0, sock, _, best => (sock, best)
  | _ + 1, none, _, best => (none, best)
  | steps + 1, some a, looked, best =>
      if looked < 2 * connGlobalWindow then
        let next := ((s.socks a).sockListNext).or s.head
        if isClientSocket (s.socks a) then
          let best := betterVictim s.socks best a
          if best.isSome ∧ connGlobalWindow ≤ looked + 1 then (next, best)
          else pickGlobalLoop s steps next (looked + 1) best
        else pickGlobalLoop s steps next looked best
      else (some a, best)

/-- `connLimitPickGlobalVictim` -/
def connLimitPickGlobalVictim (s : SockContainer) : SockContainer × Option SockId :=
  let (sock, best) := pickGlobalLoop s (s.clients.toInt32.toInt + 8).toNat (s.cursor.or s.head) 0 none
  ({ s with cursor := sock }, best)

/-! ## Closing everything -/

/-- The walk of `deleteAllSockets` that shuts the connections down. -/
def shutdownAll (s : SockContainer) : Nat → Option SockId → Option (List SockId)
  | _, none => some []
  | 0, some _ => none
  | fuel + 1, some a => (shutdownAll s fuel (s.socks a).sockListNext).map (a :: ·)

/-- The loop of `deleteAllSockets`: the first socket is taken out and closed. Besides it,
`WebserverConnectionManagerCloseRequest` removes the sockets that `partners` gives: the backend
connection of a proxy's client. -/
def closeAll (partners : SockContainer → SockId → List SockId) :
    Nat → SockContainer → Option SockContainer
  | 0, _ => none
  | fuel + 1, s =>
      match s.head with
      | none => some s
      | some sock =>
          let s := deleteSocket sock (sockListUnlink sock s)
          closeAll partners fuel ((partners s sock).foldl (fun s a => deleteSocket a s) s)

/-- `deleteAllSockets` -/
def deleteAllSockets (partners : SockContainer → SockId → List SockId) (fuel : Nat)
    (s : SockContainer) : Option SockContainer :=
  match shutdownAll s fuel s.head with
  | none => none
  | some _ => closeAll partners fuel s

/-! ## Sequences of calls -/

/-- A call, or a change of a socket from outside. -/
inductive ContainerOp where
  | add (sock : SockId)
  | delete (sock : SockId)
  | pickGlobalVictim
  | deleteAll
  | change (sock : SockId) (info : SocketInfo)

/-- The rest of the server changes a socket: not its links, and not whether it is a listener
while it is linked. -/
def changeSocket (sock : SockId) (info : SocketInfo) (s : SockContainer) : SockContainer :=
  s.modify sock fun old => { info with
    sockListPrev := old.sockListPrev
    sockListNext := old.sockListNext
    inSockList := old.inSockList
    server := if old.inSockList then old.server else info.server }

/-- Perform a call. -/
def ContainerOp.exec (partners : SockContainer → SockId → List SockId) (fuel : Nat)
    (s : SockContainer) : ContainerOp → Option SockContainer
  | .add sock => some (addSocketContainer sock s)
  | .delete sock => some (deleteSocket sock s)
  | .pickGlobalVictim => some (connLimitPickGlobalVictim s).1
  | .deleteAll => deleteAllSockets partners fuel s
  | .change sock info => some (changeSocket sock info s)

/-- Perform calls one after the other. -/
def runContainer (partners : SockContainer → SockId → List SockId) (fuel : Nat)
    (ops : List ContainerOp) (s : SockContainer) : Option SockContainer :=
  ops.foldlM (fun s op => op.exec partners fuel s) s

/-! ## The invariant -/

/-- The sockets of a list that are no listeners. -/
def clientCount (socks : SockMemory) (ids : List SockId) : Nat :=
  ids.countP fun a => (socks a).server = false

/-- **The container is consistent**: the sockets of a list without repetition are linked both
ways from head to tail, they are the ones that are marked as linked, the clients among them are
counted, and the cursor is null or at one of them. -/
structure ContainerInv (s : SockContainer) (ids : List SockId) : Prop where
  nodup : ids.Nodup
  linked : Listed s.socks s.head ids s.tail
  inSockList : ∀ a, (s.socks a).inSockList = true ↔ a ∈ ids
  clients : s.clients.toNat = clientCount s.socks ids % 2 ^ 32
  cursor : ∀ a, s.cursor = some a → a ∈ ids

/-! ## The assignments -/

variable {s : SockContainer} {ids : List SockId}

theorem setNext_links (s : SockContainer) (prev next : Option SockId) :
    sockLinks (s.setNext prev next).socks = relinkNext (sockLinks s.socks) prev next := by
  cases prev with
  | none => rfl
  | some a =>
      simp only [SockContainer.setNext, SockContainer.modify, sockLinks_update]
      rfl

theorem setPrev_links (s : SockContainer) (next prev : Option SockId) :
    sockLinks (s.setPrev next prev).socks = relinkPrev (sockLinks s.socks) next prev := by
  cases next with
  | none => rfl
  | some a =>
      simp only [SockContainer.setPrev, SockContainer.modify, sockLinks_update]
      rfl

theorem setNext_record (s : SockContainer) (prev next : Option SockId) :
    (s.setNext prev next).head = (if prev = none then next else s.head) ∧
      (s.setNext prev next).tail = s.tail ∧ (s.setNext prev next).clients = s.clients ∧
      (s.setNext prev next).cursor = s.cursor := by
  cases prev with
  | none => exact ⟨(if_pos rfl).symm, rfl, rfl, rfl⟩
  | some a => exact ⟨(if_neg (by simp)).symm, rfl, rfl, rfl⟩

theorem setPrev_record (s : SockContainer) (next prev : Option SockId) :
    (s.setPrev next prev).head = s.head ∧
      (s.setPrev next prev).tail = (if next = none then prev else s.tail) ∧
      (s.setPrev next prev).clients = s.clients ∧ (s.setPrev next prev).cursor = s.cursor := by
  cases next with
  | none => exact ⟨rfl, (if_pos rfl).symm, rfl, rfl⟩
  | some a => exact ⟨rfl, (if_neg (by simp)).symm, rfl, rfl⟩

/-- The flags of the sockets are the same in two states of the memory. -/
def SameFlags (socks socks' : SockMemory) : Prop :=
  ∀ a, (socks' a).inSockList = (socks a).inSockList ∧ (socks' a).server = (socks a).server

theorem sameFlags_modify (s : SockContainer) (a : SockId) {f : SocketInfo → SocketInfo}
    (hlist : (f (s.socks a)).inSockList = (s.socks a).inSockList)
    (hserver : (f (s.socks a)).server = (s.socks a).server) :
    SameFlags s.socks (s.modify a f).socks := by
  intro b
  by_cases hb : b = a
  · subst hb
    simp only [SockContainer.modify, Function.update_self]
    exact ⟨hlist, hserver⟩
  · simp only [SockContainer.modify, Function.update_of_ne hb, and_self]

theorem sameFlags_setNext (s : SockContainer) (prev next : Option SockId) :
    SameFlags s.socks (s.setNext prev next).socks := by
  cases prev with
  | none => exact fun _ => ⟨rfl, rfl⟩
  | some a => exact sameFlags_modify s a rfl rfl

theorem sameFlags_setPrev (s : SockContainer) (next prev : Option SockId) :
    SameFlags s.socks (s.setPrev next prev).socks := by
  cases next with
  | none => exact fun _ => ⟨rfl, rfl⟩
  | some a => exact sameFlags_modify s a rfl rfl

theorem SameFlags.trans {socks₁ socks₂ socks₃ : SockMemory} (h : SameFlags socks₁ socks₂)
    (h' : SameFlags socks₂ socks₃) : SameFlags socks₁ socks₃ := fun a =>
  ⟨(h' a).1.trans (h a).1, (h' a).2.trans (h a).2⟩

theorem clientCount_congr {socks socks' : SockMemory}
    (h : ∀ a ∈ ids, (socks' a).server = (socks a).server) :
    clientCount socks' ids = clientCount socks ids :=
  List.countP_congr fun a ha => by rw [h a ha]

/-- A change of a socket that the container does not see. -/
theorem ContainerInv.modify (h : ContainerInv s ids) (a : SockId) {f : SocketInfo → SocketInfo}
    (hnext : (f (s.socks a)).sockListNext = (s.socks a).sockListNext)
    (hprev : (f (s.socks a)).sockListPrev = (s.socks a).sockListPrev)
    (hlist : (f (s.socks a)).inSockList = (s.socks a).inSockList)
    (hserver : a ∈ ids → (f (s.socks a)).server = (s.socks a).server) :
    ContainerInv (s.modify a f) ids := by
  refine ⟨h.nodup, ?_, fun b => ?_, ?_, h.cursor⟩
  · -- the links are what they were, so the list is too
    have hlinks : sockLinks (s.modify a f).socks = sockLinks s.socks := by
      simp only [SockContainer.modify, sockLinks_update, hnext, hprev]
      exact Function.update_eq_self a (sockLinks s.socks)
    unfold Listed
    rw [hlinks]
    exact h.linked
  · rw [← h.inSockList b]
    by_cases hb : b = a
    · subst hb
      simp only [SockContainer.modify, Function.update_self, hlist]
    · simp only [SockContainer.modify, Function.update_of_ne hb]
  · have hcount : clientCount (s.modify a f).socks ids = clientCount s.socks ids :=
      clientCount_congr fun b hb => by
        by_cases hba : b = a
        · subst hba
          simp only [SockContainer.modify, Function.update_self]
          exact hserver hb
        · simp only [SockContainer.modify, Function.update_of_ne hba]
    rw [hcount]
    exact h.clients

/-! ## Taking a socket out -/

/-- What a linked socket points at. -/
theorem ContainerInv.split (h : ContainerInv s ids) {sock : SockId} (hsock : sock ∈ ids) :
    ∃ pre post, ids = pre ++ sock :: post ∧
      ((s.socks sock).sockListNext = none ↔ post = []) ∧
      (∀ b, (s.socks sock).sockListNext = some b → b ∈ post) ∧
      ((s.socks sock).sockListPrev = none ↔ pre = []) ∧
      ∀ node', Segment (Function.update (bypass (sockLinks s.socks)
          ⟨(s.socks sock).sockListNext, (s.socks sock).sockListPrev, ()⟩) sock node') none
        (if pre = [] then (s.socks sock).sockListNext else s.head) ((pre ++ post).map (·, ())) none
        (if post = [] then (s.socks sock).sockListPrev else s.tail) := by
  obtain ⟨pre, post, rfl⟩ := List.append_of_mem hsock
  have hseg := h.linked
  unfold Listed at hseg
  rw [List.map_append, List.map_cons] at hseg
  have hnodup : ((pre.map (·, ()) ++ (sock, ()) :: post.map (·, ())).map Prod.fst).Nodup := by
    rw [List.map_append, List.map_cons, map_fst_unit, map_fst_unit]
    exact h.nodup
  obtain ⟨node, hnode, -, hprev, hnext, -, -, hrest⟩ := hseg.takeOut hnodup
  obtain rfl := Option.some.inj hnode
  simp only [List.map_eq_nil_iff] at hprev hnext hrest
  refine ⟨pre, post, rfl, hnext, fun b hb => ?_, hprev, fun node' => ?_⟩
  · -- the next pointer is the first of what follows
    obtain ⟨mid, link, -, -, n, hn, hpost⟩ := segment_append.mp hseg
    have hnb : n = some b := by
      have hnn := congrArg Node.next (Option.some.inj (hnode.symm.trans hn))
      exact hnn.symm.trans hb
    cases post with
    | nil => exact absurd (hpost.1.symm.trans hnb) (by simp)
    | cons c post =>
        have hcb : c = b := Option.some.inj (hpost.1.symm.trans hnb)
        simp [hcb]
  · rw [List.map_append]
    exact hrest node'

/-- The list record after a socket was taken out. -/
theorem sockListUnlink_record (sock : SockId) (hin : (s.socks sock).inSockList = true) :
    (sockListUnlink sock s).cursor =
        (if s.cursor = some sock then (s.socks sock).sockListNext else s.cursor) ∧
      (sockListUnlink sock s).clients =
        (if (s.socks sock).server = false then s.clients - 1 else s.clients) ∧
      (sockListUnlink sock s).head = (if (s.socks sock).sockListPrev = none then
        (s.socks sock).sockListNext else s.head) ∧
      (sockListUnlink sock s).tail = (if (s.socks sock).sockListNext = none then
        (s.socks sock).sockListPrev else s.tail) := by
  unfold sockListUnlink
  simp only [hin, Bool.true_eq_false, if_false, SockContainer.modify]
  -- cursor and counter are written first, and the links do not depend on them
  generalize hs₁ : (if s.cursor = some sock then { s with cursor := (s.socks sock).sockListNext }
    else s) = s₁
  generalize hs₂ : (if (s.socks sock).server = false then { s₁ with clients := s₁.clients - 1 }
    else s₁) = s₂
  obtain ⟨hhead, htail, hclients, hcursor⟩ :=
    setNext_record s₂ (s.socks sock).sockListPrev (s.socks sock).sockListNext
  obtain ⟨hhead', htail', hclients', hcursor'⟩ :=
    setPrev_record (s₂.setNext (s.socks sock).sockListPrev (s.socks sock).sockListNext)
      (s.socks sock).sockListNext (s.socks sock).sockListPrev
  rw [hhead', htail', hclients', hcursor', hhead, htail, hclients, hcursor, ← hs₂, ← hs₁]
  refine ⟨?_, ?_, ?_, ?_⟩
  · split_ifs <;> rfl
  · split_ifs <;> rfl
  · congr 1
    split_ifs <;> rfl
  · congr 1
    split_ifs <;> rfl

/-- The sockets after one of them was taken out. -/
theorem sockListUnlink_socks (sock : SockId) (hin : (s.socks sock).inSockList = true) :
    sockLinks (sockListUnlink sock s).socks = Function.update (bypass (sockLinks s.socks)
        ⟨(s.socks sock).sockListNext, (s.socks sock).sockListPrev, ()⟩) sock (some ⟨none, none, ()⟩) ∧
      (∀ a, ((sockListUnlink sock s).socks a).server = (s.socks a).server) ∧
      ∀ a, ((sockListUnlink sock s).socks a).inSockList = true ↔
        (s.socks a).inSockList = true ∧ a ≠ sock := by
  unfold sockListUnlink
  simp only [hin, Bool.true_eq_false, if_false]
  generalize hs₁ : (if s.cursor = some sock then { s with cursor := (s.socks sock).sockListNext }
    else s) = s₁
  generalize hs₂ : (if (s.socks sock).server = false then { s₁ with clients := s₁.clients - 1 }
    else s₁) = s₂
  have hsocks : s₂.socks = s.socks := by
    rw [← hs₂, ← hs₁]
    split_ifs <;> rfl
  generalize hn : (s.socks sock).sockListNext = n
  generalize hp : (s.socks sock).sockListPrev = prev
  have hflags := (sameFlags_setNext s₂ prev n).trans (sameFlags_setPrev (s₂.setNext prev n) n prev)
  rw [hsocks] at hflags
  refine ⟨?_, fun a => ?_, fun a => ?_⟩
  · simp only [SockContainer.modify, sockLinks_update, setPrev_links, setNext_links, hsocks, bypass]
  · by_cases ha : a = sock
    · subst ha
      simp only [SockContainer.modify, Function.update_self]
      exact (hflags a).2
    · simp only [SockContainer.modify, Function.update_of_ne ha]
      exact (hflags a).2
  · by_cases ha : a = sock
    · subst ha
      simp [SockContainer.modify]
    · simp only [SockContainer.modify, Function.update_of_ne ha, (hflags a).1, ne_eq, ha,
        not_false_eq_true, and_true]

/-- `sock_list_unlink` on the abstract list. -/
theorem ContainerInv.unlink (h : ContainerInv s ids) (sock : SockId) :
    ContainerInv (sockListUnlink sock s) (ids.erase sock) := by
  by_cases hsock : sock ∈ ids
  · have hin : (s.socks sock).inSockList = true := (h.inSockList sock).mpr hsock
    obtain ⟨hcursor, hclients, hhead, htail⟩ := sockListUnlink_record sock hin
    obtain ⟨hlinks, hserver, hlist⟩ := sockListUnlink_socks sock hin
    obtain ⟨pre, post, rfl, hnext, hmem, hprev, hseg⟩ := h.split hsock
    have hpre : sock ∉ pre := fun hm =>
      (List.nodup_append.mp h.nodup).2.2 sock hm sock List.mem_cons_self rfl
    have hpost : sock ∉ post := (List.nodup_cons.mp (List.nodup_append.mp h.nodup).2.1).1
    have herase : (pre ++ sock :: post).erase sock = pre ++ post := by
      rw [List.erase_append_right _ hpre, List.erase_cons_head]
    rw [herase]
    refine ⟨?_, ?_, fun a => ?_, ?_, fun a ha => ?_⟩
    · rw [← herase]
      exact h.nodup.erase sock
    · unfold Listed
      rw [hlinks, hhead, htail]
      simp only [hprev, hnext]
      exact hseg _
    · rw [hlist, h.inSockList]
      simp only [List.mem_append, List.mem_cons]
      constructor
      · rintro ⟨ha | rfl | ha, hne⟩
        · exact Or.inl ha
        · exact absurd rfl hne
        · exact Or.inr ha
      · rintro (ha | ha)
        · exact ⟨Or.inl ha, fun heq => hpre (heq ▸ ha)⟩
        · exact ⟨Or.inr (Or.inr ha), fun heq => hpost (heq ▸ ha)⟩
    · -- the counter is taken modulo `2 ^ 32`, as the list could be longer
      have hcount := h.clients
      rw [hclients, clientCount_congr fun a _ => hserver a]
      unfold clientCount at hcount ⊢
      rw [List.countP_append, List.countP_cons] at hcount
      rw [List.countP_append]
      by_cases hs : (s.socks sock).server = false
      · simp only [hs, decide_true, if_true] at hcount ⊢
        rw [UInt32.toNat_sub, hcount]
        simp only [UInt32.toNat_one]
        omega
      · simp only [hs] at hcount ⊢
        exact hcount
    · -- a cursor at the socket moves on to the next one, which is linked
      rw [hcursor] at ha
      by_cases hc : s.cursor = some sock
      · rw [if_pos hc] at ha
        exact List.mem_append_right _ (hmem a ha)
      · rw [if_neg hc] at ha
        have hne : a ≠ sock := fun heq => hc (heq ▸ ha)
        rcases List.mem_append.mp (h.cursor a ha) with hm | hm
        · exact List.mem_append_left _ hm
        · exact List.mem_append_right _ ((List.mem_cons.mp hm).resolve_left hne)
  · -- a socket that is not linked
    have hout : (s.socks sock).inSockList = false :=
      Bool.eq_false_iff.mpr fun hin => hsock ((h.inSockList sock).mp hin)
    rw [List.erase_of_not_mem hsock]
    simp only [sockListUnlink, hout, if_true]
    exact h

theorem ContainerInv.delete (h : ContainerInv s ids) (sock : SockId) :
    ContainerInv (deleteSocket sock s) (ids.erase sock) :=
  (h.modify sock rfl rfl rfl fun _ => rfl).unlink sock

/-! ## Adding a socket -/

/-- The state after a socket was added, written out. -/
theorem addSocketContainer_eq (sock : SockId) (hout : (s.socks sock).inSockList = false) :
    sockLinks (addSocketContainer sock s).socks = relinkNext
        (Function.update (sockLinks s.socks) sock (some ⟨none, s.tail, ()⟩)) s.tail (some sock) ∧
      (addSocketContainer sock s).head = (if s.tail = none then some sock else s.head) ∧
      (addSocketContainer sock s).tail = some sock ∧
      (addSocketContainer sock s).cursor = s.cursor ∧
      (addSocketContainer sock s).clients =
        (if (s.socks sock).server = false then s.clients + 1 else s.clients) ∧
      (∀ a, ((addSocketContainer sock s).socks a).server = (s.socks a).server) ∧
      ∀ a, ((addSocketContainer sock s).socks a).inSockList = true ↔
        (s.socks a).inSockList = true ∨ a = sock := by
  -- the state before the socket is marked
  let s₁ := s.modify sock fun info => { info with sockListPrev := s.tail, sockListNext := none }
  let s₂ := s₁.setNext s.tail (some sock)
  let s₃ := { s₂ with tail := some sock }.modify sock fun info => { info with inSockList := true }
  have hlinks₁ : sockLinks s₁.socks =
      Function.update (sockLinks s.socks) sock (some ⟨none, s.tail, ()⟩) := by
    simp only [s₁, SockContainer.modify, sockLinks_update]
  have hlinks₂ := setNext_links s₁ s.tail (some sock)
  obtain ⟨hhead, htail, hclients, hcursor⟩ := setNext_record s₁ s.tail (some sock)
  have hflags : SameFlags s.socks s₂.socks :=
    (sameFlags_modify s sock rfl rfl).trans (sameFlags_setNext s₁ s.tail (some sock))
  have hserver : ∀ a, (s₃.socks a).server = (s.socks a).server := fun a => by
    rw [← (hflags a).2]
    by_cases ha : a = sock
    · subst ha
      simp only [s₃, SockContainer.modify, Function.update_self]
    · simp only [s₃, SockContainer.modify, Function.update_of_ne ha]
  have hlist : ∀ a, (s₃.socks a).inSockList = true ↔
      (s.socks a).inSockList = true ∨ a = sock := fun a => by
    rw [← (hflags a).1]
    by_cases ha : a = sock
    · subst ha
      simp [s₃, SockContainer.modify]
    · simp only [s₃, SockContainer.modify, Function.update_of_ne ha, ha, or_false]
  have hlinks₃ : sockLinks s₃.socks = sockLinks s₂.socks := by
    simp only [s₃, SockContainer.modify, sockLinks_update]
    exact Function.update_eq_self sock (sockLinks s₂.socks)
  have hadd : addSocketContainer sock s =
      if (s.socks sock).server = false then { s₃ with clients := s₃.clients + 1 } else s₃ := by
    unfold addSocketContainer
    rw [if_pos hout]
    exact if_congr (by rw [hserver]) rfl rfl
  rw [hadd]
  rw [hlinks₂, hlinks₁] at hlinks₃
  by_cases hs : (s.socks sock).server = false
  · simp only [if_pos hs]
    exact ⟨hlinks₃, hhead, rfl, hcursor, congrArg (· + 1) hclients, hserver, hlist⟩
  · simp only [if_neg hs]
    exact ⟨hlinks₃, hhead, rfl, hcursor, hclients, hserver, hlist⟩

/-- `addSocketContainer` on the abstract list. -/
theorem ContainerInv.add (h : ContainerInv s ids) {sock : SockId} (hsock : sock ∉ ids) :
    ContainerInv (addSocketContainer sock s) (ids ++ [sock]) := by
  have hout : (s.socks sock).inSockList = false :=
    Bool.eq_false_iff.mpr fun hin => hsock ((h.inSockList sock).mp hin)
  obtain ⟨hlinks, hhead, htail, hcursor, hclients, hserver, hlist⟩ := addSocketContainer_eq sock hout
  refine ⟨?_, ?_, fun a => ?_, ?_, fun a ha => ?_⟩
  · rw [List.nodup_append]
    exact ⟨h.nodup, by simp, fun a ha b hb => by
      rw [List.mem_singleton.mp hb]
      exact fun heq => hsock (heq ▸ ha)⟩
  · unfold Listed
    rw [hlinks, hhead, htail, List.map_append]
    have hfresh : sock ∉ (ids.map (·, ())).map Prod.fst := by
      rw [map_fst_unit]
      exact hsock
    have hseg := Segment.update h.linked hfresh (some ⟨none, s.tail, ()⟩)
    -- the first socket of a list, or one behind the last
    by_cases hnil : ids = []
    · subst hnil
      obtain ⟨-, htail₀⟩ := h.linked
      rw [htail₀]
      exact ⟨rfl, none, by simp [relinkNext], rfl, rfl⟩
    · have hne : ids.map (·, ()) ≠ [] := fun hmap => hnil (List.map_eq_nil_iff.mp hmap)
      obtain ⟨b, hb, htb⟩ := Segment.exists_last h.linked hne
      rw [htb] at hseg ⊢
      have hnodup : ((ids.map (·, ())).map Prod.fst).Nodup := by
        rw [map_fst_unit]
        exact h.nodup
      obtain ⟨node, hnode, -, hseg'⟩ := hseg.setNext hne hnodup (some sock)
      have hbs : sock ≠ b := fun heq => hfresh (heq ▸ hb)
      simp only [relinkNext, hnode, Option.map_some]
      refine segment_append.mpr ⟨some sock, some b, ?_, rfl, none, ?_, rfl, rfl⟩
      · rw [if_neg (by simp)]
        exact hseg'
      · rw [Function.update_of_ne hbs, Function.update_self]
  · rw [hlist, h.inSockList]
    simp
  · have hcount := h.clients
    rw [hclients, clientCount_congr fun a _ => hserver a]
    unfold clientCount at hcount ⊢
    rw [List.countP_append, List.countP_singleton]
    by_cases hs : (s.socks sock).server = false
    · simp only [hs, decide_true, if_true]
      rw [UInt32.toNat_add, hcount]
      simp only [UInt32.toNat_one]
      omega
    · simp only [hs]
      exact hcount
  · rw [hcursor] at ha
    exact List.mem_append_left _ (h.cursor a ha)

/-! ## The cursor stays on the list -/

theorem ContainerInv.head_mem (h : ContainerInv s ids) {a : SockId} (ha : s.head = some a) :
    a ∈ ids := by
  have hseg := h.linked
  cases ids with
  | nil => exact absurd (hseg.1.symm.trans ha) (by simp)
  | cons b ids =>
      have hba : b = a := Option.some.inj (hseg.1.symm.trans ha)
      simp [hba]

/-- Where the search goes on. -/
theorem ContainerInv.next_mem (h : ContainerInv s ids) {a b : SockId} (ha : a ∈ ids)
    (hb : ((s.socks a).sockListNext).or s.head = some b) : b ∈ ids := by
  -- behind the last socket the search begins again at the head
  cases hn : (s.socks a).sockListNext with
  | none =>
      rw [hn, Option.none_or] at hb
      exact h.head_mem hb
  | some c =>
      rw [hn, Option.some_or] at hb
      obtain ⟨pre, post, rfl, -, hmem, -⟩ := h.split ha
      rw [← Option.some.inj hb]
      exact List.mem_append_right _ (List.mem_cons_of_mem _ (hmem c hn))

theorem ContainerInv.pickGlobalLoop (h : ContainerInv s ids) (steps : Nat) (sock : Option SockId)
    (looked : Nat) (best : Option SockId) (hsock : ∀ a, sock = some a → a ∈ ids) (a : SockId)
    (ha : (pickGlobalLoop s steps sock looked best).1 = some a) : a ∈ ids := by
  induction steps generalizing sock looked best with
  | zero => exact hsock a ha
  | succ steps ih =>
      cases sock with
      | none => exact absurd ha (by simp [Sockets.pickGlobalLoop])
      | some b =>
          have hnext : ∀ c, ((s.socks b).sockListNext).or s.head = some c → c ∈ ids := fun c =>
            h.next_mem (hsock b rfl)
          simp only [Sockets.pickGlobalLoop] at ha
          -- whichever way the round ends, the search stands at a linked socket
          split_ifs at ha with hlooked hclient hbest
          · exact hnext a ha
          · exact ih _ _ _ hnext ha
          · exact ih _ _ _ hnext ha
          · exact hsock a ha

theorem ContainerInv.pick (h : ContainerInv s ids) :
    ContainerInv (connLimitPickGlobalVictim s).1 ids := by
  refine ⟨h.nodup, h.linked, h.inSockList, h.clients, fun a ha => ?_⟩
  refine h.pickGlobalLoop _ _ _ _ (fun b hb => ?_) a ha
  cases hc : s.cursor with
  | none =>
      rw [hc, Option.none_or] at hb
      exact h.head_mem hb
  | some c =>
      rw [hc, Option.some_or] at hb
      rw [← Option.some.inj hb]
      exact h.cursor c hc

/-! ## Closing everything -/

theorem ContainerInv.deletes (h : ContainerInv s ids) (socks : List SockId) :
    ∃ ids', ContainerInv (socks.foldl (fun s a => deleteSocket a s) s) ids' ∧
      ids'.length ≤ ids.length := by
  induction socks generalizing s ids with
  | nil => exact ⟨ids, h, Nat.le_refl _⟩
  | cons a socks ih =>
      obtain ⟨ids', hinv, hle⟩ := ih (h.delete a)
      exact ⟨ids', hinv, hle.trans List.length_erase_le⟩

/-- The walk ends behind the last socket. -/
theorem ContainerInv.shutdownAll (h : ContainerInv s ids) {fuel : Nat} (hfuel : ids.length ≤ fuel) :
    shutdownAll s fuel s.head = some ids := by
  have hwalk : ∀ (rest : List SockId) (fuel : Nat) (prev first last : Option SockId),
      Segment (sockLinks s.socks) prev first (rest.map (·, ())) none last → rest.length ≤ fuel →
      Sockets.shutdownAll s fuel first = some rest := by
    intro rest
    induction rest with
    | nil =>
        intro fuel prev first last hseg _
        rw [hseg.1]
        cases fuel <;> rfl
    | cons a rest ih =>
        intro fuel prev first last hseg hle
        obtain ⟨rfl, n, hnode, hrest⟩ := hseg
        cases fuel with
        | zero => exact absurd hle (by simp)
        | succ fuel =>
            have hn : (s.socks a).sockListNext = n := congrArg Node.next (Option.some.inj hnode)
            rw [Sockets.shutdownAll, hn, ih fuel _ n last hrest (Nat.le_of_succ_le_succ hle)]
            rfl
  exact hwalk ids fuel none s.head s.tail h.linked hfuel

/-- Every round takes a socket out, so the loop ends. -/
theorem ContainerInv.closeAll (partners : SockContainer → SockId → List SockId) (fuel : Nat)
    (h : ContainerInv s ids) (hfuel : ids.length < fuel) :
    ∃ s', closeAll partners fuel s = some s' ∧ ContainerInv s' [] := by
  induction fuel generalizing s ids with
  | zero => exact absurd hfuel (Nat.not_lt_zero _)
  | succ fuel ih =>
      cases ids with
      | nil =>
          refine ⟨s, ?_, h⟩
          have hhead : s.head = none := h.linked.1
          simp [Sockets.closeAll, hhead]
      | cons a ids =>
          have hhead : s.head = some a := h.linked.1
          have hdelete := (h.unlink a).delete a
          obtain ⟨ids', hinv, hle⟩ :=
            hdelete.deletes (partners (deleteSocket a (sockListUnlink a s)) a)
          -- the partners only make the list shorter
          have hlen : ids'.length < fuel := by
            have herase : (((a :: ids).erase a).erase a).length ≤ ids.length := by
              rw [List.erase_cons_head]
              exact List.length_erase_le
            simp only [List.length_cons] at hfuel
            omega
          obtain ⟨s', hs', hinv'⟩ := ih hinv hlen
          refine ⟨s', ?_, hinv'⟩
          simp only [Sockets.closeAll, hhead]
          exact hs'

theorem ContainerInv.deleteAll (partners : SockContainer → SockId → List SockId) {fuel : Nat}
    (h : ContainerInv s ids) (hfuel : ids.length < fuel) :
    ∃ s', deleteAllSockets partners fuel s = some s' ∧ ContainerInv s' [] := by
  unfold deleteAllSockets
  rw [h.shutdownAll (Nat.le_of_lt hfuel)]
  exact h.closeAll partners fuel hfuel

/-! ## Whole runs -/

theorem ContainerInv.exec (partners : SockContainer → SockId → List SockId) {fuel : Nat}
    (h : ContainerInv s ids) (hfuel : ids.length < fuel) (op : ContainerOp) :
    ∃ s' ids', op.exec partners fuel s = some s' ∧ ContainerInv s' ids' ∧
      ids'.length ≤ ids.length + 1 := by
  cases op with
  | add sock =>
      by_cases hsock : sock ∈ ids
      · refine ⟨s, ids, ?_, h, Nat.le_succ _⟩
        have hin : (s.socks sock).inSockList = true := (h.inSockList sock).mpr hsock
        simp [ContainerOp.exec, addSocketContainer, hin]
      · exact ⟨_, _, rfl, h.add hsock, by simp⟩
  | delete sock =>
      exact ⟨_, _, rfl, h.delete sock, List.length_erase_le.trans (Nat.le_succ _)⟩
  | pickGlobalVictim => exact ⟨_, _, rfl, h.pick, Nat.le_succ _⟩
  | deleteAll =>
      obtain ⟨s', hs', hinv⟩ := h.deleteAll partners hfuel
      exact ⟨s', [], hs', hinv, Nat.zero_le _⟩
  | change sock info =>
      refine ⟨_, _, rfl, h.modify sock rfl rfl rfl fun hsock => ?_, Nat.le_succ _⟩
      exact if_pos ((h.inSockList sock).mpr hsock)

theorem ContainerInv.run (partners : SockContainer → SockId → List SockId) {fuel : Nat}
    (ops : List ContainerOp) (h : ContainerInv s ids) (hfuel : ids.length + ops.length < fuel) :
    ∃ s' ids', runContainer partners fuel ops s = some s' ∧ ContainerInv s' ids' := by
  induction ops generalizing s ids with
  | nil => exact ⟨s, ids, rfl, h⟩
  | cons op ops ih =>
      simp only [List.length_cons] at hfuel
      have hlt : ids.length < fuel := by omega
      obtain ⟨s₁, ids₁, hs₁, hinv, hle⟩ := h.exec partners hlt op
      obtain ⟨s', ids', hs', hinv'⟩ := ih hinv (by omega)
      refine ⟨s', ids', ?_, hinv'⟩
      simp only [runContainer, List.foldlM_cons]
      rw [hs₁]
      exact hs'

/-- **The socket container.** Every sequence of calls on any sockets, starting with none of
them linked, has a result, and leaves a consistent container: the two loops of
`deleteAllSockets` end whatever the partners of the closed sockets are. -/
theorem container_consistent (partners : SockContainer → SockId → List SockId)
    (socks : SockMemory) (hsocks : ∀ a, (socks a).inSockList = false) (ops : List ContainerOp)
    (fuel : Nat) (hfuel : ops.length < fuel) :
    ∃ s ids, runContainer partners fuel ops (initSocketContainer socks) = some s ∧
      ContainerInv s ids := by
  have hinit : ContainerInv (initSocketContainer socks) [] :=
    ⟨List.nodup_nil, ⟨rfl, rfl⟩, fun a => by simp [initSocketContainer, hsocks a], rfl,
      fun a ha => absurd ha (by simp [initSocketContainer])⟩
  exact hinit.run partners ops (by simpa using hfuel)

theorem container_consistent_three :
    ∃ s ids, runContainer (fun _ _ => []) 5 [.add 1, .add 2, .pickGlobalVictim, .delete 1]
      (initSocketContainer fun _ => {}) = some s ∧ ContainerInv s ids :=
  container_consistent (fun _ _ => []) (fun _ => {}) (fun _ => rfl)
    [.add 1, .add 2, .pickGlobalVictim, .delete 1] 5 (by decide)

end CWebUI.Sockets
