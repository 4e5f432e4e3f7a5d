import CWebUI.Basic.SinglyLinked
import CWebUI.Sockets.SocketInfo
import Mathlib.Data.Finset.Card

set_option autoImplicit false

/-! # The connection groups

The connections from one address form a group (`system_sockets_container.c`). The groups are in
a hash table; a group that nothing uses any more goes to a free list. A function that follows a
pointer to memory that is not allocated has no result; so has a loop that does not end within
the given number of rounds. What `malloc` returns is an argument of `connLimitAcquire`.
-/

namespace CWebUI.Sockets

open DoublyLinked SinglyLinked

/-- `ws_peer_key` -/
structure PeerKey where
  addr : Vector UInt8 16
  valid : Bool := true
  deriving DecidableEq

/-- `conn_group`. The two counters are 32 bits wide; a process has fewer descriptors. -/
structure ConnGroup where
  key : PeerKey
  count : Nat := 0
  pinned : Nat := 0
  members : Option SockId := none
  hashNext : Option GroupId := none

/-- `CONN_GROUP_BUCKETS` -/
abbrev connGroupBuckets : Nat := 256

/-- The table, its free list, the memory of groups and sockets, the key of the hash function
and `g_conn_io_seq`. -/
structure ConnTable where
  socks : SockMemory
  groups : GroupId → Option ConnGroup := fun _ => none
  connBuckets : Fin connGroupBuckets → Option GroupId := fun _ => none
  connGroupFree : Option GroupId := none
  connHashKey : UInt32 × UInt32
  connIoSeq : Nat := 0

/-! ## The hash function -/

/-- `CONN_ROTL` -/
def connRotl (x b : UInt32) : UInt32 := x <<< b ||| x >>> (32 - b)

/-- The four words of the hash function. -/
structure HashWords where
  v0 : UInt32
  v1 : UInt32
  v2 : UInt32
  v3 : UInt32

/-- `CONN_HROUND` -/
def connHround (w : HashWords) : HashWords :=
  let v0 := w.v0 + w.v1
  let v1 := connRotl w.v1 5 ^^^ v0
  let v0 := connRotl v0 16
  let v2 := w.v2 + w.v3
  let v3 := connRotl w.v3 8 ^^^ v2
  let v0 := v0 + v3
  let v3 := connRotl v3 7 ^^^ v0
  let v2 := v2 + v1
  let v1 := connRotl v1 13 ^^^ v2
  ⟨v0, v1, connRotl v2 16, v3⟩

/-- Four bytes of an address, the lowest first. -/
def addrWord (addr : Vector UInt8 16) (i : Nat) : UInt32 :=
  let byte := fun k => (addr.toList.getD (i + k) 0).toUInt32
  byte 0 ||| byte 1 <<< 8 ||| byte 2 <<< 16 ||| byte 3 <<< 24

/-- A word goes into the hash. -/
def absorbWord (w : HashWords) (m : UInt32) : HashWords :=
  let w := connHround { w with v3 := w.v3 ^^^ m }
  { w with v0 := w.v0 ^^^ m }

/-- `conn_hash` -/
def connHash (hashKey : UInt32 × UInt32) (key : PeerKey) : UInt32 :=
  let (k0, k1) := hashKey
  let w : HashWords := ⟨k0, k1, 0x6c796765 ^^^ k0, 0x74656462 ^^^ k1⟩
  let w := [0, 4, 8, 12].foldl (fun w i => absorbWord w (addrWord key.addr i)) w
  let w := absorbWord w ((16 : UInt32) <<< 24)
  let w := connHround (connHround (connHround { w with v2 := w.v2 ^^^ 0xff }))
  w.v1 ^^^ w.v3

/-- The bucket of a key. -/
def ConnTable.bucketOf (t : ConnTable) (key : PeerKey) : Fin connGroupBuckets :=
  Fin.ofNat connGroupBuckets (connHash t.connHashKey key &&& 255).toNat

/-! ## Assignments -/

/-- Fields of a group are assigned. -/
def ConnTable.modifyGroup (t : ConnTable) (g : GroupId) (f : ConnGroup → ConnGroup) :
    Option ConnTable :=
  (t.groups g).map fun group => { t with groups := Function.update t.groups g (some (f group)) }

/-- Fields of a socket are assigned. -/
def ConnTable.modifySock (t : ConnTable) (sock : SockId) (f : SocketInfo → SocketInfo) : ConnTable :=
  { t with socks := Function.update t.socks sock (f (t.socks sock)) }

/-- The same, if the pointer is not null. -/
def ConnTable.modifyAt (t : ConnTable) (sock : Option SockId) (f : SocketInfo → SocketInfo) :
    ConnTable :=
  match sock with
  | none => t
  | some a => t.modifySock a f

/-- `*pos = next`, where `pos` points into a group, or is the bucket. -/
def ConnTable.assignPos (t : ConnTable) (bucket : Fin connGroupBuckets) (pos next : Option GroupId) :
    Option ConnTable :=
  match pos with
  | none => some { t with connBuckets := Function.update t.connBuckets bucket next }
  | some g => t.modifyGroup g fun group => { group with hashNext := next }

/-- `CONN_LIMIT_NOTE_IO` -/
def connLimitNoteIo (sock : SockId) (t : ConnTable) : ConnTable :=
  { t.modifySock sock fun info => { info with lastIo := t.connIoSeq + 1 } with
    connIoSeq := t.connIoSeq + 1 }

/-! ## The operations -/

/-- The search of `connLimitAcquire` in a bucket. -/
def findGroup (t : ConnTable) (key : PeerKey) : Nat → Option GroupId → Option (Option GroupId)
  | _, none => some none
  | 0, some _ => none
  | fuel + 1, some g =>
      match t.groups g with
      | none => none
      | some group =>
          -- `memcmp` on the address alone; the family is in it
          if group.key.addr = key.addr then some (some g)
          else findGroup t key fuel group.hashNext

/-- The memory of a new group: the first of the free list, or what `malloc` returns. -/
def takeGroup (new : GroupId) (t : ConnTable) : Option (ConnTable × GroupId) :=
  match t.connGroupFree with
  | none => some (t, new)
  | some g => (t.groups g).map fun group => ({ t with connGroupFree := group.hashNext }, g)

/-- `connLimitAcquire` -/
def connLimitAcquire (fuel : Nat) (key : PeerKey) (new : GroupId) (t : ConnTable) :
    Option (ConnTable × GroupId) := do
  let bucket := t.bucketOf key
  match ← findGroup t key fuel (t.connBuckets bucket) with
  | some g =>
      let t ← t.modifyGroup g fun group => { group with pinned := group.pinned + 1 }
      some (t, g)
  | none =>
      -- a new group becomes the first of its bucket
      let (t, g) ← takeGroup new t
      some ({ t with
        groups := Function.update t.groups g
          (some { key := key, pinned := 1, hashNext := t.connBuckets bucket })
        connBuckets := Function.update t.connBuckets bucket (some g) }, g)

/-- The search of `conn_group_put` in a bucket: the place that points at the group. -/
def groupPos (t : ConnTable) (g : GroupId) :
    Nat → Option GroupId → Option GroupId → Option (Option (Option GroupId))
  | _, _, none => some none
  | 0, _, some _ => none
  | fuel + 1, pos, some cur =>
      if cur = g then some (some pos)
      else
        match t.groups cur with
        | none => none
        | some group => groupPos t g fuel (some cur) group.hashNext

/-- `conn_group_put` -/
def connGroupPut (fuel : Nat) (g : GroupId) (t : ConnTable) : Option ConnTable := do
  let group ← t.groups g
  -- a group in use stays where it is
  if group.count ≠ 0 ∨ group.pinned ≠ 0 then some t
  else
    let bucket := t.bucketOf group.key
    match ← groupPos t g fuel none (t.connBuckets bucket) with
    | none => some t
    | some pos =>
        let t ← t.assignPos bucket pos group.hashNext
        -- the memory is kept for the next address
        let t ← t.modifyGroup g fun group => { group with hashNext := t.connGroupFree }
        some { t with connGroupFree := some g }

/-- `connLimitRelease` -/
def connLimitRelease (fuel : Nat) (g : GroupId) (t : ConnTable) : Option ConnTable := do
  let t ← t.modifyGroup g fun group => { group with pinned := group.pinned - 1 }
  connGroupPut fuel g t

/-- `connLimitAttach` -/
def connLimitAttach (fuel : Nat) (g : GroupId) (sock : SockId) (t : ConnTable) :
    Option ConnTable := do
  let group ← t.groups g
  let t := t.modifySock sock fun info => { info with
    connGroup := some g
    grpPrev := none
    grpNext := group.members }
  let t := t.modifyAt group.members fun info => { info with grpPrev := some sock }
  let t ← t.modifyGroup g fun group => { group with
    members := some sock
    count := group.count + 1 }
  connLimitRelease fuel g (connLimitNoteIo sock t)

/-- `connLimitDetach` -/
def connLimitDetach (fuel : Nat) (sock : SockId) (t : ConnTable) : Option ConnTable :=
  let info := t.socks sock
  match info.connGroup with
  | none => some t
  | some g => do
      let t ← match info.grpPrev with
        | some prev => some (t.modifySock prev fun p => { p with grpNext := info.grpNext })
        | none => t.modifyGroup g fun group => { group with members := info.grpNext }
      let t := t.modifyAt info.grpNext fun n => { n with grpPrev := info.grpPrev }
      let t := t.modifySock sock fun info => { info with
        grpPrev := none
        grpNext := none
        connGroup := none }
      let t ← t.modifyGroup g fun group => { group with count := group.count - 1 }
      connGroupPut fuel g t

/-- The walk of `connLimitFree` over a bucket. -/
def freeBucket (bucket : Fin connGroupBuckets) :
    Nat → Option GroupId → Option GroupId → ConnTable → Option ConnTable
  | _, _, none, t => some t
  | 0, _, some _, _ => none
  | fuel + 1, pos, some g, t =>
      match t.groups g with
      | none => none
      | some group =>
          if group.count = 0 ∧ group.pinned = 0 then
            match t.assignPos bucket pos group.hashNext with
            | none => none
            | some t =>
                freeBucket bucket fuel pos group.hashNext
                  { t with groups := Function.update t.groups g none }
          else freeBucket bucket fuel (some g) group.hashNext t

/-- The loop of `connLimitFree` over the free list. -/
def freeFreeList : Nat → ConnTable → Option ConnTable
  | 0, t => if t.connGroupFree = none then some t else none
  | fuel + 1, t =>
      match t.connGroupFree with
      | none => some t
      | some g =>
          match t.groups g with
          | none => none
          | some group => freeFreeList fuel { t with
              connGroupFree := group.hashNext
              groups := Function.update t.groups g none }

/-- `connLimitFree` -/
def connLimitFree (fuel : Nat) (t : ConnTable) : Option ConnTable := do
  let t ← (List.finRange connGroupBuckets).foldlM
    (fun t bucket => freeBucket bucket fuel none (t.connBuckets bucket) t) t
  freeFreeList fuel t

/-! ## Sequences of calls -/

/-- A call, or a transfer on a socket. A call that ends an acquire names it by its position
among those that are open. -/
inductive GroupOp where
  | acquire (key : PeerKey) (new : GroupId)
  | release (i : Nat)
  | attach (i : Nat) (sock : SockId)
  | detach (sock : SockId)
  | free
  | noteIo (sock : SockId)

/-- Perform a call; `opened` are the groups of the acquires that are open. Nothing is called to
end an acquire that is not open, or to attach a socket that is in a group, and `malloc` returns
memory that is not in use. -/
def GroupOp.exec (fuel : Nat) (t : ConnTable) (opened : List GroupId) :
    GroupOp → Option (ConnTable × List GroupId)
  | .acquire key new =>
      if (t.groups new).isSome then some (t, opened)
      else (connLimitAcquire fuel key new t).map fun r => (r.1, r.2 :: opened)
  | .release i =>
      match opened[i]? with
      | none => some (t, opened)
      | some g => (connLimitRelease fuel g t).map fun t => (t, opened.eraseIdx i)
  | .attach i sock =>
      match opened[i]?, (t.socks sock).connGroup with
      | some g, none => (connLimitAttach fuel g sock t).map fun t => (t, opened.eraseIdx i)
      | _, _ => some (t, opened)
  | .detach sock => (connLimitDetach fuel sock t).map fun t => (t, opened)
  | .free => (connLimitFree fuel t).map fun t => (t, opened)
  | .noteIo sock => some (connLimitNoteIo sock t, opened)

/-- Perform calls one after the other. -/
def runGroups (fuel : Nat) (ops : List GroupOp) (t : ConnTable) (opened : List GroupId) :
    Option (ConnTable × List GroupId) :=
  ops.foldlM (fun s op => op.exec fuel s.1 s.2) (t, opened)

/-! ## The invariant -/

/-- The successor of a group in its chain. -/
def ConnTable.nextOf (t : ConnTable) (g : GroupId) : Option GroupId :=
  (t.groups g).bind ConnGroup.hashNext

/-- The sockets are linked both ways into the list of members. -/
def Members (socks : SockMemory) (first : Option SockId) (ids : List SockId) : Prop :=
  ids.Nodup ∧ ∃ last, Segment (grpLinks socks) none first (ids.map (·, ())) none last

/-- The chains of the table, the free list, and the members of the groups. -/
structure TableView where
  chain : Fin connGroupBuckets → List GroupId
  freed : List GroupId
  members : GroupId → List SockId

/-- **The table is consistent**: its chains and the free list have nothing in common and are
all groups that there are; a group is in the bucket of its key, which no other group has, its
counter and its list are right, and something uses it, unless it is one of the `idle` ones;
every socket with a group is a member of it, and every group that is used is in the table. -/
structure TableInv (idle : GroupId → Prop) (t : ConnTable) (opened : List GroupId)
    (v : TableView) : Prop where
  chains : ∀ b, Chain t.nextOf (t.connBuckets b) (v.chain b) ∧ (v.chain b).Nodup
  freed : Chain t.nextOf t.connGroupFree v.freed ∧ v.freed.Nodup
  apart : ∀ b, ∀ g ∈ v.chain b, g ∉ v.freed
  allocated : ∀ g, t.groups g ≠ none ↔ (∃ b, g ∈ v.chain b) ∨ g ∈ v.freed
  entry : ∀ b g group, g ∈ v.chain b → t.groups g = some group →
    t.bucketOf group.key = b ∧ group.count = (v.members g).length ∧
      group.pinned = opened.count g ∧ Members t.socks group.members (v.members g) ∧
      (idle g ∨ 0 < group.count ∨ 0 < group.pinned)
  unique : ∀ b g g' group group', g ∈ v.chain b → g' ∈ v.chain b → t.groups g = some group →
    t.groups g' = some group' → group.key.addr = group'.key.addr → g = g'
  member : ∀ sock g, (t.socks sock).connGroup = some g ↔ sock ∈ v.members g
  used : ∀ g, v.members g ≠ [] ∨ g ∈ opened → ∃ b, g ∈ v.chain b
  stamps : ∀ sock, (t.socks sock).lastIo ≤ t.connIoSeq

/-- Between two calls no group is idle in the table. -/
def noneIdle : GroupId → Prop := fun _ => False

/-! ## One group changes -/

variable {idle idle' : GroupId → Prop} {t : ConnTable} {opened opened' : List GroupId}
  {v : TableView} {g : GroupId} {group group' : ConnGroup} {b : Fin connGroupBuckets}

theorem Members.congr {socks socks' : SockMemory} {first : Option SockId} {ids : List SockId}
    (h : Members socks first ids) (hsame : ∀ a ∈ ids, grpLinks socks' a = grpLinks socks a) :
    Members socks' first ids := by
  obtain ⟨hnodup, last, hseg⟩ := h
  refine ⟨hnodup, last, hseg.congr fun a ha => ?_⟩
  rw [List.map_map] at ha
  obtain ⟨c, hc, rfl⟩ := List.mem_map.mp ha
  exact hsame c hc

/-- A group is in the chain of one bucket. -/
theorem TableInv.bucket_unique (h : TableInv idle t opened v) {b' : Fin connGroupBuckets}
    (hb : g ∈ v.chain b) (hb' : g ∈ v.chain b') : b = b' := by
  obtain ⟨group, hgroup⟩ := Option.ne_none_iff_exists'.mp ((h.allocated g).mpr (Or.inl ⟨b, hb⟩))
  exact (h.entry b g group hb hgroup).1.symm.trans (h.entry b' g group hb' hgroup).1

theorem nextOf_update (t : ConnTable) (g : GroupId) (group : Option ConnGroup) :
    ConnTable.nextOf { t with groups := Function.update t.groups g group } =
      Function.update t.nextOf g (group.bind ConnGroup.hashNext) := by
  funext a
  by_cases ha : a = g
  · subst ha
    simp [ConnTable.nextOf]
  · simp [ConnTable.nextOf, Function.update_of_ne ha]

/-- The counters and the members of one group in the table change. -/
theorem TableInv.replace {socks' : SockMemory} {seq' : Nat} {ids : List SockId}
    (h : TableInv idle t opened v) (hg : g ∈ v.chain b) (hgroup : t.groups g = some group)
    (hkey : group'.key = group.key) (hnext : group'.hashNext = group.hashNext)
    (hcount : group'.count = ids.length) (hpinned : group'.pinned = opened'.count g)
    (hmembers : Members socks' group'.members ids)
    (hactive : idle' g ∨ 0 < group'.count ∨ 0 < group'.pinned)
    (hidle : ∀ g' ≠ g, idle g' → idle' g')
    (hopened : ∀ g' ≠ g, opened'.count g' = opened.count g')
    (hlinks : ∀ g' ≠ g, ∀ a ∈ v.members g', grpLinks socks' a = grpLinks t.socks a)
    (hmember : ∀ sock g', (socks' sock).connGroup = some g' ↔
      sock ∈ Function.update v.members g ids g')
    (hstamps : ∀ sock, (socks' sock).lastIo ≤ seq') :
    TableInv idle' { t with
        socks := socks'
        groups := Function.update t.groups g (some group')
        connIoSeq := seq' } opened'
      { v with members := Function.update v.members g ids } := by
  have hgroups : ∀ g' group'', Function.update t.groups g (some group') g' = some group'' →
      (g' = g ∧ group'' = group') ∨ (g' ≠ g ∧ t.groups g' = some group'') := by
    intro g' group'' hg'
    by_cases heq : g' = g
    · subst heq
      rw [Function.update_self] at hg'
      exact Or.inl ⟨rfl, (Option.some.inj hg').symm⟩
    · rw [Function.update_of_ne heq] at hg'
      exact Or.inr ⟨heq, hg'⟩
  -- the chains run through `hashNext`, which is the same
  have hnextOf : ConnTable.nextOf { t with
      socks := socks'
      groups := Function.update t.groups g (some group')
      connIoSeq := seq' } = t.nextOf := by
    refine (nextOf_update t g (some group')).trans ?_
    have hself : (some group').bind ConnGroup.hashNext = t.nextOf g := by
      simp [ConnTable.nextOf, hgroup, hnext]
    rw [hself]
    exact Function.update_eq_self g t.nextOf
  refine ⟨fun b' => ?_, ?_, h.apart, fun g' => ?_, fun b' g' group'' hb' hg' => ?_, ?_, hmember,
    fun g' hused => ?_, hstamps⟩
  · rw [hnextOf]
    exact h.chains b'
  · rw [hnextOf]
    exact h.freed
  · rw [← h.allocated g']
    by_cases heq : g' = g
    · subst heq
      simp [hgroup]
    · simp [Function.update_of_ne heq]
  · rcases hgroups g' group'' hg' with ⟨rfl, rfl⟩ | ⟨hne, hg'⟩
    · refine ⟨?_, ?_, hpinned, ?_, hactive⟩
      · rw [hkey, ← h.bucket_unique hg hb']
        exact (h.entry b g' group hg hgroup).1
      · simp only [Function.update_self]
        exact hcount
      · simp only [Function.update_self]
        exact hmembers
    · obtain ⟨hbucket, hcount', hpinned', hmembers', hactive'⟩ := h.entry b' g' group'' hb' hg'
      simp only [Function.update_of_ne hne]
      refine ⟨hbucket, hcount', ?_, hmembers'.congr (hlinks g' hne), ?_⟩
      · rw [hopened g' hne]
        exact hpinned'
      · exact hactive'.imp_left (hidle g' hne)
  · -- keys stay as they are
    intro b' g₁ g₂ group₁ group₂ h₁ h₂ hg₁ hg₂ haddr
    have hold : ∀ g' group'', Function.update t.groups g (some group') g' = some group'' →
        ∃ old, t.groups g' = some old ∧ old.key = group''.key := by
      intro g' group'' hg'
      rcases hgroups g' group'' hg' with ⟨rfl, rfl⟩ | ⟨-, hg'⟩
      · exact ⟨group, hgroup, hkey.symm⟩
      · exact ⟨group'', hg', rfl⟩
    obtain ⟨old₁, hold₁, hkey₁⟩ := hold g₁ group₁ hg₁
    obtain ⟨old₂, hold₂, hkey₂⟩ := hold g₂ group₂ hg₂
    exact h.unique b' g₁ g₂ old₁ old₂ h₁ h₂ hold₁ hold₂ (by rw [hkey₁, hkey₂, haddr])
  · -- a group that is used was in the table before
    by_cases heq : g' = g
    · exact ⟨b, heq ▸ hg⟩
    · simp only [Function.update_of_ne heq] at hused
      refine h.used g' (hused.imp_right fun hm => ?_)
      rw [← List.count_pos_iff, ← hopened g' heq]
      exact List.count_pos_iff.mpr hm

/-- Groups move between the chains and the free list, or are freed. -/
theorem TableInv.relist {t' : ConnTable} {v' : TableView} (h : TableInv idle t opened v)
    (hsocks : t'.socks = t.socks) (hseq : t'.connIoSeq = t.connIoSeq)
    (hhash : t'.connHashKey = t.connHashKey) (hmembers : v'.members = v.members)
    (hgroups : ∀ g group', t'.groups g = some group' → ∃ group, t.groups g = some group ∧
      group.key = group'.key ∧ group.count = group'.count ∧ group.pinned = group'.pinned ∧
      group.members = group'.members)
    (hchains : ∀ b, Chain t'.nextOf (t'.connBuckets b) (v'.chain b) ∧ (v'.chain b).Nodup)
    (hfreed : Chain t'.nextOf t'.connGroupFree v'.freed ∧ v'.freed.Nodup)
    (hapart : ∀ b, ∀ g ∈ v'.chain b, g ∉ v'.freed)
    (halloc : ∀ g, t'.groups g ≠ none ↔ (∃ b, g ∈ v'.chain b) ∨ g ∈ v'.freed)
    (hsub : ∀ b, ∀ g ∈ v'.chain b, g ∈ v.chain b ∧ (idle g → idle' g))
    (hused : ∀ g, v.members g ≠ [] ∨ g ∈ opened → ∃ b, g ∈ v'.chain b) :
    TableInv idle' t' opened v' := by
  refine ⟨hchains, hfreed, hapart, halloc, fun b g group' hg hgroup' => ?_,
    fun b g₁ g₂ group₁ group₂ h₁ h₂ hg₁ hg₂ haddr => ?_, ?_, ?_, ?_⟩
  · obtain ⟨group, hgroup, hkey, hcount, hpinned, hfirst⟩ := hgroups g group' hgroup'
    obtain ⟨hin, hidle⟩ := hsub b g hg
    obtain ⟨hbucket, hcount', hpinned', hmembers', hactive⟩ := h.entry b g group hin hgroup
    -- the bucket is a function of the key and of the hash key
    have hsame : t'.bucketOf group'.key = t.bucketOf group.key := by
      rw [ConnTable.bucketOf, ConnTable.bucketOf, hhash, hkey]
    refine ⟨hsame.trans hbucket, ?_, ?_, ?_, ?_⟩
    · rw [hmembers, ← hcount]
      exact hcount'
    · rw [← hpinned]
      exact hpinned'
    · rw [hmembers, hsocks, ← hfirst]
      exact hmembers'
    · rw [← hcount, ← hpinned]
      exact hactive.imp_left hidle
  · obtain ⟨old₁, hold₁, hkey₁, -⟩ := hgroups g₁ group₁ hg₁
    obtain ⟨old₂, hold₂, hkey₂, -⟩ := hgroups g₂ group₂ hg₂
    refine h.unique b g₁ g₂ old₁ old₂ (hsub b g₁ h₁).1 (hsub b g₂ h₂).1 hold₁ hold₂ ?_
    rw [hkey₁, hkey₂, haddr]
  · rw [hsocks, hmembers]
    exact h.member
  · rw [hmembers]
    exact hused
  · rw [hsocks, hseq]
    exact h.stamps

/-! ## `conn_group_put` -/

/-- The groups of a chain are in memory. -/
theorem TableInv.group_of_mem (h : TableInv idle t opened v) (hg : g ∈ v.chain b) :
    ∃ group, t.groups g = some group :=
  Option.ne_none_iff_exists'.mp ((h.allocated g).mpr (Or.inl ⟨b, hg⟩))

theorem nextOf_some (hgroup : t.groups g = some group) : t.nextOf g = group.hashNext := by
  simp [ConnTable.nextOf, hgroup]

/-- The search finds the place that points at the group. -/
theorem groupPos_spec {fuel : Nat} {pos first : Option GroupId} {pre post : List GroupId}
    (hchain : Chain t.nextOf first (pre ++ g :: post)) (hpre : g ∉ pre)
    (halloc : ∀ a ∈ pre, ∃ group, t.groups a = some group) (hfuel : pre.length < fuel) :
    groupPos t g fuel pos first = some (some ((pre.getLast?).or pos)) := by
  induction pre generalizing fuel pos first with
  | nil =>
      obtain ⟨fuel, rfl⟩ : ∃ k, fuel = k + 1 := ⟨fuel - 1, by simp at hfuel; omega⟩
      rw [hchain.1]
      simp [groupPos]
  -- the place moves along with the walk, so it ends up in the group before
  | cons a pre ih =>
      obtain ⟨fuel, rfl⟩ : ∃ k, fuel = k + 1 := ⟨fuel - 1, by simp at hfuel; omega⟩
      obtain ⟨group, hgroup⟩ := halloc a List.mem_cons_self
      have hne : a ≠ g := fun heq => hpre (heq ▸ List.mem_cons_self)
      obtain ⟨hfirst, hrest⟩ := hchain
      rw [nextOf_some hgroup] at hrest
      rw [hfirst]
      simp only [groupPos, if_neg hne, hgroup]
      rw [ih hrest (fun hm => hpre (List.mem_cons_of_mem a hm))
        (fun c hc => halloc c (List.mem_cons_of_mem a hc)) (by simpa using hfuel)]
      cases pre with
      | nil => rfl
      | cons c pre => simp [List.getLast?_cons]

/-- Two states of the memory hold the same groups, up to the chains they are in. -/
def SameGroups (t t' : ConnTable) : Prop :=
  (∀ g, t'.groups g ≠ none ↔ t.groups g ≠ none) ∧
    ∀ g group', t'.groups g = some group' → ∃ group, t.groups g = some group ∧
      group.key = group'.key ∧ group.count = group'.count ∧ group.pinned = group'.pinned ∧
      group.members = group'.members

/-- Nothing but chains changes. -/
def SameRest (t t' : ConnTable) : Prop :=
  t'.socks = t.socks ∧ t'.connIoSeq = t.connIoSeq ∧ t'.connHashKey = t.connHashKey

/-- A group is linked elsewhere. -/
theorem sameGroups_update (hgroup : t.groups g = some group) (next : Option GroupId) :
    SameGroups t { t with
      groups := Function.update t.groups g (some { group with hashNext := next }) } := by
  constructor
  · intro a
    by_cases ha : a = g
    · subst ha
      simp [hgroup]
    · simp [Function.update_of_ne ha]
  · intro a group' ha'
    by_cases ha : a = g
    · subst ha
      simp only [Function.update_self] at ha'
      obtain rfl := Option.some.inj ha'
      exact ⟨group, hgroup, rfl, rfl, rfl, rfl⟩
    · simp only [Function.update_of_ne ha] at ha'
      exact ⟨group', ha', rfl, rfl, rfl, rfl⟩

theorem SameGroups.trans {t₁ t₂ t₃ : ConnTable} (h : SameGroups t₁ t₂) (h' : SameGroups t₂ t₃) :
    SameGroups t₁ t₃ := by
  refine ⟨fun g => (h'.1 g).trans (h.1 g), fun g group₃ hg₃ => ?_⟩
  obtain ⟨group₂, hg₂, hkey, hcount, hpinned, hmembers⟩ := h'.2 g group₃ hg₃
  obtain ⟨group₁, hg₁, hkey', hcount', hpinned', hmembers'⟩ := h.2 g group₂ hg₂
  exact ⟨group₁, hg₁, hkey'.trans hkey, hcount'.trans hcount, hpinned'.trans hpinned,
    hmembers'.trans hmembers⟩

/-- The place that pointed at a group points at its successor. -/
theorem TableInv.assignPos {pre post : List GroupId} (h : TableInv idle t opened v)
    (hchain : v.chain b = pre ++ g :: post) (hgroup : t.groups g = some group) :
    ∃ t₁, t.assignPos b pre.getLast? group.hashNext = some t₁ ∧ SameGroups t t₁ ∧
      SameRest t t₁ ∧ t₁.connGroupFree = t.connGroupFree ∧ t₁.groups g = some group ∧
      Chain t₁.nextOf (t₁.connBuckets b) (pre ++ post) ∧
      (∀ b' ≠ b, t₁.connBuckets b' = t.connBuckets b') ∧
      ∀ a, a ∉ pre → t₁.nextOf a = t.nextOf a := by
  obtain ⟨hlinked, hnodup⟩ := h.chains b
  rw [hchain] at hlinked hnodup
  rcases List.eq_nil_or_concat pre with rfl | ⟨front, p, rfl⟩
  · refine ⟨{ t with connBuckets := Function.update t.connBuckets b group.hashNext }, rfl,
      ⟨fun _ => Iff.rfl, fun g group' hg => ⟨group', hg, rfl, rfl, rfl, rfl⟩⟩, ⟨rfl, rfl, rfl⟩, rfl,
      hgroup, ?_, fun b' hb' => Function.update_of_ne hb' _ _, fun _ _ => rfl⟩
    simp only [Function.update_self]
    rw [← nextOf_some hgroup]
    exact hlinked.2
  · rw [List.concat_eq_append, List.append_assoc] at hchain hlinked hnodup
    obtain ⟨pgroup, hpgroup⟩ := @TableInv.group_of_mem _ _ _ _ p b h (by rw [hchain]; simp)
    have hpg : g ≠ p := by
      intro heq
      rw [List.nodup_append] at hnodup
      obtain ⟨-, hrest, -⟩ := hnodup
      simp [heq] at hrest
    have hlast : (front.concat p).getLast? = some p := by simp
    refine ⟨{ t with
        groups := Function.update t.groups p (some { pgroup with hashNext := group.hashNext }) }, ?_,
      sameGroups_update hpgroup group.hashNext, ⟨rfl, rfl, rfl⟩, rfl, ?_, ?_, fun _ _ => rfl,
      fun a ha => ?_⟩
    · rw [hlast]
      simp [ConnTable.assignPos, ConnTable.modifyGroup, hpgroup]
    · simp only
      rw [Function.update_of_ne hpg]
      exact hgroup
    · rw [nextOf_update, List.concat_eq_append, List.append_assoc]
      simp only [Option.bind_some]
      rw [← nextOf_some hgroup]
      exact hlinked.takeOut hnodup
    · rw [nextOf_update]
      have hap : a ≠ p := fun heq => ha (by simp [heq])
      exact Function.update_of_ne hap _ _

/-- **`conn_group_put`.** A group that nothing uses goes from its chain to the free list. -/
theorem TableInv.put {fuel : Nat} (h : TableInv (· = g) t opened v) (hg : g ∈ v.chain b)
    (hfuel : (v.chain b).length ≤ fuel) :
    ∃ t' v', connGroupPut fuel g t = some t' ∧ TableInv noneIdle t' opened v' ∧
      v'.members = v.members ∧ SameGroups t t' ∧ SameRest t t' := by
  obtain ⟨group, hgroup⟩ := h.group_of_mem hg
  obtain ⟨hbucket, hcount, hpinned, -, -⟩ := h.entry b g group hg hgroup
  by_cases huse : group.count ≠ 0 ∨ group.pinned ≠ 0
  · -- the group is still used
    refine ⟨t, v, ?_, ⟨h.chains, h.freed, h.apart, h.allocated, fun b' g' group' hb' hg' => ?_,
      h.unique, h.member, h.used, h.stamps⟩, rfl,
      ⟨fun _ => Iff.rfl, fun g group' hg => ⟨group', hg, rfl, rfl, rfl, rfl⟩⟩, rfl, rfl, rfl⟩
    · simp [connGroupPut, hgroup, huse]
    · obtain ⟨h₁, h₂, h₃, h₄, hactive⟩ := h.entry b' g' group' hb' hg'
      refine ⟨h₁, h₂, h₃, h₄, Or.inr ?_⟩
      rcases hactive with rfl | hactive
      · obtain rfl := Option.some.inj (hgroup.symm.trans hg')
        exact huse.imp Nat.pos_of_ne_zero Nat.pos_of_ne_zero
      · exact hactive
  · rw [not_or, not_not, not_not] at huse
    obtain ⟨pre, post, hchain⟩ := List.append_of_mem hg
    obtain ⟨hlinked, hnodup⟩ := h.chains b
    have hnodup' := hnodup
    rw [hchain] at hlinked hnodup'
    have hpre : g ∉ pre := fun hm =>
      (List.nodup_append.mp hnodup').2.2 g hm g List.mem_cons_self rfl
    have hpost : g ∉ post := (List.nodup_cons.mp (List.nodup_append.mp hnodup').2.1).1
    have hpos : groupPos t g fuel none (t.connBuckets b) = some (some pre.getLast?) := by
      rw [groupPos_spec hlinked hpre (fun a ha => h.group_of_mem (by rw [hchain]; simp [ha]))
        (by rw [hchain] at hfuel; simp at hfuel; omega), Option.or_none]
    obtain ⟨t₁, ht₁, hsame, hrest, hfree, hgroup₁, hchain₁, hbuckets, hnext⟩ :=
      h.assignPos hchain hgroup
    let t' : ConnTable := { t₁ with
      groups := Function.update t₁.groups g (some { group with hashNext := t₁.connGroupFree })
      connGroupFree := some g }
    have hnextOf : t'.nextOf = Function.update t₁.nextOf g t.connGroupFree := by
      rw [← hfree]
      exact nextOf_update t₁ g _
    have hsame' : SameGroups t t' := hsame.trans (sameGroups_update hgroup₁ _)
    have hother : ∀ b' ≠ b, ∀ a ∈ v.chain b', a ≠ g ∧ a ∉ pre := fun b' hb' a ha =>
      ⟨fun heq => hb' (h.bucket_unique (heq ▸ ha) hg),
        fun hm => hb' (h.bucket_unique ha (by rw [hchain]; simp [hm]))⟩
    have hmem : ∀ b' a, a ∈ Function.update v.chain b (pre ++ post) b' ↔ a ∈ v.chain b' ∧ a ≠ g := by
      intro b' a
      by_cases hb' : b' = b
      · subst hb'
        rw [Function.update_self, hchain]
        constructor
        · intro ha
          refine ⟨?_, fun heq => ?_⟩
          · rcases List.mem_append.mp ha with ha | ha
            · exact List.mem_append_left _ ha
            · exact List.mem_append_right _ (List.mem_cons_of_mem g ha)
          · rcases List.mem_append.mp ha with ha | ha
            · exact hpre (heq ▸ ha)
            · exact hpost (heq ▸ ha)
        · rintro ⟨ha, hne⟩
          rcases List.mem_append.mp ha with ha | ha
          · exact List.mem_append_left _ ha
          · exact List.mem_append_right _ ((List.mem_cons.mp ha).resolve_left hne)
      · rw [Function.update_of_ne hb']
        exact ⟨fun ha => ⟨ha, (hother b' hb' a ha).1⟩, fun ha => ha.1⟩
    refine ⟨t', { v with chain := Function.update v.chain b (pre ++ post), freed := g :: v.freed }, ?_,
      h.relist hrest.1 hrest.2.1 hrest.2.2 rfl hsame'.2 (fun b' => ?_) ?_ (fun b' a ha => ?_)
        (fun a => ?_) (fun b' a ha => ?_) (fun a ha => ?_), rfl, hsame', hrest⟩
    · simp only [connGroupPut, hgroup, Option.bind_eq_bind, Option.bind_some, hbucket, hpos, ht₁,
        ConnTable.modifyGroup, hgroup₁, Option.map_some]
      rw [if_neg (by simp [huse])]
    · rw [hnextOf]
      by_cases hb' : b' = b
      · subst hb'
        simp only [Function.update_self]
        refine ⟨hchain₁.update (by simp [hpre, hpost]) _, ?_⟩
        exact hnodup'.sublist ((List.sublist_cons_self g post).append_left pre)
      · simp only [Function.update_of_ne hb']
        refine ⟨?_, (h.chains b').2⟩
        have hstart : t'.connBuckets b' = t.connBuckets b' := hbuckets b' hb'
        rw [hstart]
        refine Chain.congr (h.chains b').1 fun a ha => ?_
        rw [Function.update_of_ne (hother b' hb' a ha).1]
        exact hnext a (hother b' hb' a ha).2
    · rw [hnextOf]
      have hgfree : g ∉ v.freed := h.apart b g hg
      refine ⟨⟨rfl, ?_⟩, List.nodup_cons.mpr ⟨hgfree, h.freed.2⟩⟩
      rw [Function.update_self]
      refine Chain.congr h.freed.1 fun a ha => ?_
      have hag : a ≠ g := fun heq => hgfree (heq ▸ ha)
      rw [Function.update_of_ne hag]
      exact hnext a fun hm => h.apart b a (by rw [hchain]; simp [hm]) ha
    · obtain ⟨ha, hne⟩ := (hmem b' a).mp ha
      rw [List.mem_cons, not_or]
      exact ⟨hne, h.apart b' a ha⟩
    · rw [hsame'.1 a, h.allocated a, List.mem_cons]
      simp only [hmem]
      constructor
      · rintro (⟨b', ha⟩ | ha)
        · by_cases heq : a = g
          · exact Or.inr (Or.inl heq)
          · exact Or.inl ⟨b', ha, heq⟩
        · exact Or.inr (Or.inr ha)
      · rintro (⟨b', ha, -⟩ | rfl | ha)
        · exact Or.inl ⟨b', ha⟩
        · exact Or.inl ⟨b, hg⟩
        · exact Or.inr ha
    · obtain ⟨ha, hne⟩ := (hmem b' a).mp ha
      exact ⟨ha, fun heq => hne heq⟩
    · -- a group in use is not the one that was put away
      have hne : a ≠ g := by
        rintro rfl
        rcases ha with ha | ha
        · rw [huse.1] at hcount
          exact ha (List.length_eq_zero_iff.mp hcount.symm)
        · rw [huse.2] at hpinned
          exact absurd (List.count_pos_iff.mpr ha) (by omega)
      obtain ⟨b', ha'⟩ := h.used a ha
      exact ⟨b', (hmem b' a).mpr ⟨ha', hne⟩⟩

/-! ## `connLimitAcquire` -/

/-- The search finds the group of the key, if the chain has one. -/
theorem findGroup_spec {fuel : Nat} {first : Option GroupId} {ids : List GroupId}
    (key : PeerKey) (hchain : Chain t.nextOf first ids)
    (halloc : ∀ a ∈ ids, ∃ group, t.groups a = some group) (hfuel : ids.length ≤ fuel) :
    ∃ r, findGroup t key fuel first = some r ∧
      (∀ g, r = some g → g ∈ ids ∧ ∃ group, t.groups g = some group ∧ group.key.addr = key.addr) ∧
      (r = none → ∀ g ∈ ids, ∀ group, t.groups g = some group → group.key.addr ≠ key.addr) := by
  induction ids generalizing fuel first with
  | nil =>
      have hnone : first = none := hchain
      subst hnone
      exact ⟨none, by cases fuel <;> rfl, fun g hg => absurd hg (by simp),
        fun _ g hg => absurd hg List.not_mem_nil⟩
  | cons a ids ih =>
      obtain ⟨hfirst, hrest⟩ := hchain
      obtain ⟨group, hgroup⟩ := halloc a List.mem_cons_self
      cases fuel with
      | zero => exact absurd hfuel (by simp)
      | succ fuel =>
          rw [hfirst]
          simp only [findGroup, hgroup]
          by_cases hkey : group.key.addr = key.addr
          · rw [if_pos hkey]
            refine ⟨some a, rfl, fun g hg => ?_, fun hr => absurd hr (by simp)⟩
            rw [← Option.some.inj hg]
            exact ⟨List.mem_cons_self, group, hgroup, hkey⟩
          · rw [if_neg hkey]
            rw [nextOf_some hgroup] at hrest
            obtain ⟨r, hr, hsome, hnone⟩ := ih hrest
              (fun c hc => halloc c (List.mem_cons_of_mem a hc)) (Nat.le_of_succ_le_succ hfuel)
            refine ⟨r, hr, fun g hg => ?_, fun hr' g hg group' hg' => ?_⟩
            · exact ⟨List.mem_cons_of_mem a (hsome g hg).1, (hsome g hg).2⟩
            · rcases List.mem_cons.mp hg with rfl | hg
              · rw [← Option.some.inj (hgroup.symm.trans hg')]
                exact hkey
              · exact hnone hr' g hg group' hg'

/-- A new group comes in front of its bucket, its memory from the free list or from
`malloc`. -/
theorem TableInv.insertGroup {key : PeerKey} {free' : Option GroupId} {freed' : List GroupId}
    (h : TableInv noneIdle t opened v) (hout : ∀ b, g ∉ v.chain b)
    (hfreed : Chain t.nextOf free' freed' ∧ freed'.Nodup) (hg : g ∉ freed')
    (hsame : ∀ a ≠ g, (a ∈ v.freed ↔ a ∈ freed'))
    (hnew : ∀ a ∈ v.chain (t.bucketOf key), ∀ group, t.groups a = some group →
      group.key.addr ≠ key.addr) :
    TableInv noneIdle { t with
        groups := Function.update t.groups g
          (some { key := key, pinned := 1, hashNext := t.connBuckets (t.bucketOf key) })
        connBuckets := Function.update t.connBuckets (t.bucketOf key) (some g)
        connGroupFree := free' } (g :: opened)
      { v with
        chain := Function.update v.chain (t.bucketOf key) (g :: v.chain (t.bucketOf key))
        freed := freed' } := by
  have hunused : v.members g = [] ∧ g ∉ opened := by
    constructor
    · by_contra hm
      obtain ⟨b, hb⟩ := h.used g (Or.inl hm)
      exact hout b hb
    · intro hm
      obtain ⟨b, hb⟩ := h.used g (Or.inr hm)
      exact hout b hb
  have hnextOf : ConnTable.nextOf { t with
      groups := Function.update t.groups g
        (some { key := key, pinned := 1, hashNext := t.connBuckets (t.bucketOf key) })
      connBuckets := Function.update t.connBuckets (t.bucketOf key) (some g)
      connGroupFree := free' } = Function.update t.nextOf g (t.connBuckets (t.bucketOf key)) :=
    nextOf_update t g _
  have hmem : ∀ b a, a ∈ Function.update v.chain (t.bucketOf key) (g :: v.chain (t.bucketOf key)) b ↔
      a ∈ v.chain b ∨ (a = g ∧ b = t.bucketOf key) := by
    intro b a
    by_cases hb : b = t.bucketOf key
    · rw [hb, Function.update_self, List.mem_cons]
      simp [or_comm]
    · rw [Function.update_of_ne hb]
      simp [hb]
  have hold : ∀ a group', a ≠ g → Function.update t.groups g
      (some { key := key, pinned := 1, hashNext := t.connBuckets (t.bucketOf key) }) a = some group' →
      t.groups a = some group' := fun a group' hne ha => by
    rw [Function.update_of_ne hne] at ha
    exact ha
  refine ⟨fun b => ?_, ?_, fun b a ha => ?_, fun a => ?_, fun b a group' ha hgroup' => ?_,
    fun b a₁ a₂ group₁ group₂ h₁ h₂ hg₁ hg₂ haddr => ?_, h.member, fun a ha => ?_, h.stamps⟩
  · rw [hnextOf]
    by_cases hb : b = t.bucketOf key
    · subst hb
      simp only [Function.update_self]
      refine ⟨⟨rfl, ?_⟩, List.nodup_cons.mpr ⟨hout _, (h.chains _).2⟩⟩
      rw [Function.update_self]
      exact (h.chains _).1.update (hout _) _
    · simp only [Function.update_of_ne hb]
      exact ⟨(h.chains b).1.update (hout b) _, (h.chains b).2⟩
  · rw [hnextOf]
    exact ⟨hfreed.1.update hg _, hfreed.2⟩
  · rcases (hmem b a).mp ha with ha | ⟨rfl, -⟩
    · have hne : a ≠ g := fun heq => hout b (heq ▸ ha)
      exact fun hm => h.apart b a ha ((hsame a hne).mpr hm)
    · exact hg
  · simp only [hmem]
    by_cases hne : a = g
    · subst hne
      simp
    · rw [Function.update_of_ne hne, h.allocated a, hsame a hne]
      simp [hne]
  · rcases (hmem b a).mp ha with ha | ⟨rfl, hb⟩
    · have hne : a ≠ g := fun heq => hout b (heq ▸ ha)
      obtain ⟨hbucket, hcount, hpinned, hmembers, hactive⟩ := h.entry b a group' ha (hold a group' hne hgroup')
      refine ⟨hbucket, hcount, ?_, hmembers, hactive⟩
      rw [List.count_cons_of_ne (Ne.symm hne)]
      exact hpinned
    · simp only [Function.update_self] at hgroup'
      obtain rfl := Option.some.inj hgroup'
      refine ⟨hb.symm, ?_, ?_, ?_, Or.inr (Or.inr Nat.one_pos)⟩
      · rw [hunused.1]
        rfl
      · rw [List.count_cons_self, List.count_eq_zero.mpr hunused.2]
      · rw [hunused.1]
        exact ⟨List.nodup_nil, none, rfl, rfl⟩
  · -- no other group has the key
    have hother : ∀ c group', c ∈ v.chain b → Function.update t.groups g
        (some { key := key, pinned := 1, hashNext := t.connBuckets (t.bucketOf key) }) c =
          some group' → b = t.bucketOf key → group'.key.addr ≠ key.addr := fun c group' hc hc' hb =>
      hnew c (hb ▸ hc) group' (hold c group' (fun heq => hout b (heq ▸ hc)) hc')
    have hself : ∀ group', Function.update t.groups g
        (some { key := key, pinned := 1, hashNext := t.connBuckets (t.bucketOf key) }) g =
          some group' → group'.key = key := fun group' hg' => by
      rw [Function.update_self] at hg'
      rw [← Option.some.inj hg']
    rcases (hmem b a₁).mp h₁ with hm₁ | ⟨rfl, hb₁⟩
    · rcases (hmem b a₂).mp h₂ with hm₂ | ⟨rfl, hb₂⟩
      · exact h.unique b a₁ a₂ group₁ group₂ hm₁ hm₂
          (hold a₁ group₁ (fun heq => hout b (heq ▸ hm₁)) hg₁)
          (hold a₂ group₂ (fun heq => hout b (heq ▸ hm₂)) hg₂) haddr
      · rw [hself group₂ hg₂] at haddr
        exact absurd haddr (hother a₁ group₁ hm₁ hg₁ hb₂)
    · rcases (hmem b a₂).mp h₂ with hm₂ | ⟨rfl, -⟩
      · rw [hself group₁ hg₁] at haddr
        exact absurd haddr.symm (hother a₂ group₂ hm₂ hg₂ hb₁)
      · rfl
  · simp only [hmem]
    by_cases hne : a = g
    · exact ⟨t.bucketOf key, Or.inr ⟨hne, rfl⟩⟩
    · obtain ⟨b, hb⟩ := h.used a (ha.imp_right fun hm => (List.mem_cons.mp hm).resolve_left hne)
      exact ⟨b, Or.inl hb⟩

/-- The counters of a group in the table change, and nothing else. -/
theorem TableInv.counters (h : TableInv idle t opened v) (hg : g ∈ v.chain b)
    (hgroup : t.groups g = some group) {pinned : Nat} (hpinned : pinned = opened'.count g)
    (hactive : idle' g ∨ 0 < group.count ∨ 0 < pinned) (hidle : ∀ g' ≠ g, idle g' → idle' g')
    (hopened : ∀ g' ≠ g, opened'.count g' = opened.count g') :
    TableInv idle' { t with
      groups := Function.update t.groups g (some { group with pinned := pinned }) } opened' v := by
  obtain ⟨-, hcount, -, hmembers, -⟩ := h.entry b g group hg hgroup
  have hsame : Function.update v.members g (v.members g) = v.members :=
    Function.update_eq_self g v.members
  have hinv := @TableInv.replace idle idle' t opened opened' v g group
    { group with pinned := pinned } b t.socks t.connIoSeq (v.members g) h hg hgroup rfl rfl hcount
    hpinned hmembers hactive hidle hopened (fun _ _ _ _ => rfl)
    (fun sock g' => by rw [hsame]; exact h.member sock g') h.stamps
  rw [hsame] at hinv
  exact hinv

/-- At most so many groups are in memory. -/
def AtMost (t : ConnTable) (n : Nat) : Prop :=
  ∃ S : Finset GroupId, (∀ g, t.groups g ≠ none → g ∈ S) ∧ S.card ≤ n

theorem AtMost.chain_length {n : Nat} (hmost : AtMost t n) (h : TableInv idle t opened v)
    (b : Fin connGroupBuckets) : (v.chain b).length ≤ n := by
  obtain ⟨S, hS, hcard⟩ := hmost
  rw [← List.toFinset_card_of_nodup (h.chains b).2]
  refine (Finset.card_le_card fun g hg => ?_).trans hcard
  exact hS g ((h.allocated g).mpr (Or.inl ⟨b, List.mem_toFinset.mp hg⟩))

theorem AtMost.freed_length {n : Nat} (hmost : AtMost t n) (h : TableInv idle t opened v) :
    v.freed.length ≤ n := by
  obtain ⟨S, hS, hcard⟩ := hmost
  rw [← List.toFinset_card_of_nodup h.freed.2]
  refine (Finset.card_le_card fun g hg => ?_).trans hcard
  exact hS g ((h.allocated g).mpr (Or.inr (List.mem_toFinset.mp hg)))

theorem AtMost.mono {t' : ConnTable} {n m : Nat} (hmost : AtMost t n) (hnm : n ≤ m)
    (hsame : ∀ g, t'.groups g ≠ none → t.groups g ≠ none) : AtMost t' m := by
  obtain ⟨S, hS, hcard⟩ := hmost
  exact ⟨S, fun g hg => hS g (hsame g hg), hcard.trans hnm⟩

/-- A group that is in memory is written. -/
theorem AtMost.replace {t' : ConnTable} {n : Nat} {g : GroupId} {group group' : ConnGroup}
    (hmost : AtMost t n) (hgroup : t.groups g = some group)
    (hgroups : t'.groups = Function.update t.groups g (some group')) : AtMost t' n := by
  refine hmost.mono (Nat.le_refl n) fun a ha => ?_
  by_cases heq : a = g
  · subst heq
    simp [hgroup]
  · rwa [hgroups, Function.update_of_ne heq] at ha

/-- **`connLimitAcquire`** -/
theorem TableInv.acquire {fuel n : Nat} (h : TableInv noneIdle t opened v) (hmost : AtMost t n)
    (hfuel : n ≤ fuel) (key : PeerKey) {new : GroupId} (hnew : t.groups new = none) :
    ∃ t' g v', connLimitAcquire fuel key new t = some (t', g) ∧
      TableInv noneIdle t' (g :: opened) v' ∧ AtMost t' (n + 1) := by
  obtain ⟨r, hr, hsome, hnone⟩ := findGroup_spec key (h.chains (t.bucketOf key)).1
    (fun a ha => h.group_of_mem ha) ((hmost.chain_length h _).trans hfuel)
  cases r with
  | some g =>
      obtain ⟨hg, group, hgroup, -⟩ := hsome g rfl
      obtain ⟨-, -, hpinned, -, -⟩ := h.entry _ g group hg hgroup
      refine ⟨{ t with
        groups := Function.update t.groups g (some { group with pinned := group.pinned + 1 }) },
        g, v, ?_, ?_, ?_⟩
      · simp [connLimitAcquire, hr, ConnTable.modifyGroup, hgroup]
      · refine h.counters hg hgroup ?_ (Or.inr (Or.inr (Nat.succ_pos _))) (fun _ _ hi => hi)
          fun g' hne => List.count_cons_of_ne (Ne.symm hne)
        rw [List.count_cons_self, hpinned]
      · exact (hmost.replace hgroup rfl).mono (Nat.le_succ n) fun a ha => ha
  | none =>
      have hmost' : ∀ (a : GroupId) (group' : ConnGroup) (t' : ConnTable),
          t'.groups = Function.update t.groups a (some group') → AtMost t' (n + 1) := by
        intro a group' t' hgroups
        obtain ⟨S, hS, hcard⟩ := hmost
        refine ⟨insert a S, fun c hc => ?_, (Finset.card_insert_le a S).trans (by omega)⟩
        rw [hgroups] at hc
        by_cases heq : c = a
        · exact Finset.mem_insert.mpr (Or.inl heq)
        · rw [Function.update_of_ne heq] at hc
          exact Finset.mem_insert_of_mem (hS c hc)
      cases hfree : t.connGroupFree with
      | none =>
          have hnil : v.freed = [] := by
            have hchain := h.freed.1
            rw [hfree] at hchain
            exact hchain.eq_nil
          have hout : ∀ b, new ∉ v.chain b := fun b hb =>
            (h.allocated new).mpr (Or.inl ⟨b, hb⟩) hnew
          refine ⟨_, new, _, ?_, h.insertGroup hout h.freed (by rw [hnil]; simp) (fun _ _ => Iff.rfl)
            (hnone rfl), hmost' new _ _ rfl⟩
          simp [connLimitAcquire, hr, takeGroup, hfree]
      | some g =>
          obtain ⟨hchain, hnodup⟩ := h.freed
          rw [hfree] at hchain
          cases hcons : v.freed with
          | nil =>
              rw [hcons] at hchain
              exact absurd hchain (by simp [Chain])
          | cons c rest =>
              rw [hcons] at hchain hnodup
              obtain ⟨hc, hrest⟩ := hchain
              obtain rfl := Option.some.inj hc
              have hin : g ∈ v.freed := by
                rw [hcons]
                exact List.mem_cons_self
              obtain ⟨group, hgroup⟩ :=
                Option.ne_none_iff_exists'.mp ((h.allocated g).mpr (Or.inr hin))
              rw [List.nodup_cons] at hnodup
              refine ⟨_, g, _, ?_, h.insertGroup (fun b hb => h.apart b g hb hin) ⟨hrest, hnodup.2⟩
                hnodup.1 (fun a hne => ?_) (hnone rfl), hmost' g _ _ rfl⟩
              · simp [connLimitAcquire, hr, takeGroup, hfree, hgroup, nextOf_some hgroup]
              · rw [hcons, List.mem_cons]
                exact or_iff_right hne

end CWebUI.Sockets
