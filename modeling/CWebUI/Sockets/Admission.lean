import CWebUI.Sockets.GroupRuns

set_option autoImplicit false

/-! # Admission of a connection

`conn_limit_admit` (`system_sockets.c`): when the group of an address is full, connections of the
address that the server only waits on are closed, the one whose last transfer is the oldest
first. The accept in progress holds the group. What `connHasPendingInput` answers is an argument:
a function of the number of the question and of the socket. A loop that does not end within the
given number of rounds has no result.
-/

namespace CWebUI.Sockets

open DoublyLinked SinglyLinked

/-! ## The model -/

/-- The older of the best connection so far and the next one. -/
def older (socks : SockMemory) (best : Option SockId) (sock : SockId) : Option SockId :=
  if !connLimitIsEvictable (socks sock) then best
  else
    match best with
    | none => some sock
    | some b => if (socks sock).lastIo < (socks b).lastIo then some sock else best

/-- The walk of `connLimitPickVictim` over the members. -/
def pickWalk (socks : SockMemory) : Nat → Option SockId → Option SockId → Option (Option SockId)
  | _, best, none => some best
  | 0, _, some _ => none
  | fuel + 1, best, some sock => pickWalk socks fuel (older socks best sock) (socks sock).grpNext

/-- `connLimitPickVictim` -/
def connLimitPickVictim (fuel : Nat) (g : GroupId) (t : ConnTable) : Option (Option SockId) := do
  let group ← t.groups g
  pickWalk t.socks fuel none group.members

/-- `WebserverConnectionManagerCloseRequest`, as far as the groups and the flags of the sockets
go: `deleteSocket` marks the socket, `WebserverFreeSocketInfo` takes it out of its group. -/
def webserverConnectionManagerCloseRequest (fuel : Nat) (sock : SockId) (t : ConnTable) :
    Option ConnTable :=
  connLimitDetach fuel sock (t.modifySock sock fun info => { info with closeSocket := true })

/-- The table, and the connections that were asked about so far, with the answers. -/
structure AdmitState where
  table : ConnTable
  asked : List (SockId × Bool) := []

/-- The loop of `conn_limit_admit`. -/
def admitLoop (pending : Nat → SockId → Bool) (fuel : Nat) (g : GroupId) (limit : Int)
    (startSeq : Nat) : Nat → AdmitState → Option AdmitState
  | 0, _ => none
  | rounds + 1, s => do
      let group ← s.table.groups g
      if (group.count : Int) < limit then some s
      else
        match ← connLimitPickVictim fuel g s.table with
        | none => some s
        | some victim =>
            if startSeq < (s.table.socks victim).lastIo then some s
            else if pending s.asked.length victim then
              admitLoop pending fuel g limit startSeq rounds
                ⟨connLimitNoteIo victim s.table, s.asked ++ [(victim, true)]⟩
            else
              let table ← webserverConnectionManagerCloseRequest fuel victim s.table
              admitLoop pending fuel g limit startSeq rounds ⟨table, s.asked ++ [(victim, false)]⟩

/-- `conn_limit_admit` -/
def connLimitAdmit (pending : Nat → SockId → Bool) (fuel : Nat) (g : GroupId) (limit : Int)
    (t : ConnTable) : Option (Bool × AdmitState) :=
  if limit ≤ 0 then some (true, ⟨t, []⟩)
  else do
    let s ← admitLoop pending fuel g limit t.connIoSeq fuel ⟨t, []⟩
    let group ← s.table.groups g
    some (decide ((group.count : Int) < limit), s)

/-! ## The group of the accept -/

/-- The group has these members, and an accept in progress holds it. -/
def HeldGroup (t : ConnTable) (g : GroupId) (ids : List SockId) : Prop :=
  ∃ group, t.groups g = some group ∧ group.count = ids.length ∧ 0 < group.pinned ∧
    Members t.socks group.members ids ∧ ∀ a ∈ ids, (t.socks a).connGroup = some g

variable {t : ConnTable} {g : GroupId} {ids : List SockId} {fuel : Nat}

/-- The groups of the open acquires of a consistent table are held, and no stamp is later than
the counter. -/
theorem TableInv.held {idle : GroupId → Prop} {opened : List GroupId} {v : TableView}
    (h : TableInv idle t opened v) (hg : g ∈ opened) :
    HeldGroup t g (v.members g) ∧ ∀ a ∈ v.members g, (t.socks a).lastIo ≤ t.connIoSeq := by
  obtain ⟨b, hb⟩ := h.used g (Or.inr hg)
  obtain ⟨group, hgroup⟩ := h.group_of_mem hb
  obtain ⟨-, hcount, hpinned, hmembers, -⟩ := h.entry b g group hb hgroup
  refine ⟨⟨group, hgroup, hcount, ?_, hmembers, fun a ha => (h.member a g).mpr ha⟩,
    fun a _ => h.stamps a⟩
  rw [hpinned]
  exact List.count_pos_iff.mpr hg

/-- Memory with the same links and groups. -/
theorem HeldGroup.congr {t' : ConnTable} (h : HeldGroup t g ids) (hgroups : t'.groups = t.groups)
    (hlinks : grpLinks t'.socks = grpLinks t.socks)
    (hgroup : ∀ a, (t'.socks a).connGroup = (t.socks a).connGroup) : HeldGroup t' g ids := by
  obtain ⟨group, hg, hcount, hpinned, hmembers, hids⟩ := h
  refine ⟨group, by rw [hgroups, hg], hcount, hpinned, hmembers.congr fun a _ => by rw [hlinks],
    fun a ha => ?_⟩
  rw [hgroup a]
  exact hids a ha

/-! ## `connLimitPickVictim` -/

theorem pickWalk_eq_foldl {socks : SockMemory} {first prev last : Option SockId}
    (hseg : Segment (grpLinks socks) prev first (ids.map (·, ())) none last)
    (best : Option SockId) (hfuel : ids.length ≤ fuel) :
    pickWalk socks fuel best first = some (ids.foldl (older socks) best) := by
  induction ids generalizing fuel first prev best with
  | nil =>
      have hnone : first = none := hseg.1
      subst hnone
      cases fuel <;> rfl
  | cons a ids ih =>
      obtain ⟨hfirst, n, hnode, hrest⟩ := hseg
      cases fuel with
      | zero => exact absurd hfuel (by simp)
      | succ fuel =>
          subst hfirst
          have hnext : (socks a).grpNext = n := congrArg Node.next (Option.some.inj hnode)
          simp only [pickWalk, List.foldl_cons]
          rw [hnext]
          exact ih hrest _ (Nat.le_of_succ_le_succ hfuel)

/-- The connection is one of these that may be closed, and none of those has an older
transfer. -/
def IsOldest (socks : SockMemory) (ids : List SockId) (victim : SockId) : Prop :=
  victim ∈ ids ∧ connLimitIsEvictable (socks victim) = true ∧
    ∀ a ∈ ids, connLimitIsEvictable (socks a) = true → (socks victim).lastIo ≤ (socks a).lastIo

/-- The choice among the connections seen so far. -/
def IsChoice (socks : SockMemory) (seen : List SockId) (best : Option SockId) : Prop :=
  (best = none → ∀ a ∈ seen, connLimitIsEvictable (socks a) = false) ∧
    ∀ victim, best = some victim → IsOldest socks seen victim

theorem IsChoice.older {socks : SockMemory} {seen : List SockId} {best : Option SockId}
    (h : IsChoice socks seen best) (a : SockId) :
    IsChoice socks (seen ++ [a]) (older socks best a) := by
  unfold Sockets.older
  cases hev : connLimitIsEvictable (socks a) with
  | false =>
      simp only [Bool.not_false, if_true]
      constructor
      · intro hnone c hc
        rcases List.mem_append.mp hc with hc | hc
        · exact h.1 hnone c hc
        · rw [List.mem_singleton.mp hc]
          exact hev
      · intro victim hvictim
        obtain ⟨hin, hevict, holdest⟩ := h.2 victim hvictim
        refine ⟨List.mem_append_left _ hin, hevict, fun c hc hcev => ?_⟩
        rcases List.mem_append.mp hc with hc | hc
        · exact holdest c hc hcev
        · rw [List.mem_singleton.mp hc, hev] at hcev
          exact absurd hcev (by simp)
  | true =>
      simp only [Bool.not_true, Bool.false_eq_true, if_false]
      -- the new one is at least as old as all the others
      have hnew : (∀ c ∈ seen, connLimitIsEvictable (socks c) = true →
          (socks a).lastIo ≤ (socks c).lastIo) → IsChoice socks (seen ++ [a]) (some a) := by
        intro hall
        refine ⟨fun hnone => absurd hnone (by simp), fun victim hvictim => ?_⟩
        obtain rfl := Option.some.inj hvictim
        refine ⟨by simp, hev, fun c hc hcev => ?_⟩
        rcases List.mem_append.mp hc with hc | hc
        · exact hall c hc hcev
        · rw [List.mem_singleton.mp hc]
      cases best with
      | none =>
          apply hnew
          intro c hc hcev
          rw [h.1 rfl c hc] at hcev
          exact absurd hcev (by simp)
      -- of two with the same stamp the one seen first stays
      | some b =>
          obtain ⟨hin, hevict, holdest⟩ := h.2 b rfl
          by_cases hlt : (socks a).lastIo < (socks b).lastIo
          · simp only [if_pos hlt]
            apply hnew
            intro c hc hcev
            have hle := holdest c hc hcev
            omega
          · simp only [if_neg hlt]
            refine ⟨fun hnone => absurd hnone (by simp), fun victim hvictim => ?_⟩
            obtain rfl := Option.some.inj hvictim
            refine ⟨List.mem_append_left _ hin, hevict, fun c hc hcev => ?_⟩
            rcases List.mem_append.mp hc with hc | hc
            · exact holdest c hc hcev
            · rw [List.mem_singleton.mp hc]
              omega

theorem IsChoice.foldl {socks : SockMemory} {seen : List SockId} {best : Option SockId}
    (h : IsChoice socks seen best) (ids : List SockId) :
    IsChoice socks (seen ++ ids) (ids.foldl (Sockets.older socks) best) := by
  induction ids generalizing seen best with
  | nil =>
      rw [List.append_nil]
      exact h
  | cons a ids ih =>
      have hrest := ih (h.older a)
      rw [List.append_assoc] at hrest
      exact hrest

/-- **`connLimitPickVictim`** chooses the connection with the oldest transfer of those that may
be closed. -/
theorem connLimitPickVictim_spec (h : HeldGroup t g ids) (hfuel : ids.length ≤ fuel) :
    ∃ best, connLimitPickVictim fuel g t = some best ∧ IsChoice t.socks ids best := by
  obtain ⟨group, hgroup, -, -, ⟨-, last, hseg⟩, -⟩ := h
  have hempty : IsChoice t.socks [] none :=
    ⟨fun _ a ha => absurd ha List.not_mem_nil, fun victim hv => absurd hv (by simp)⟩
  refine ⟨_, ?_, hempty.foldl ids⟩
  simp only [connLimitPickVictim, hgroup, Option.bind_eq_bind, Option.bind_some]
  exact pickWalk_eq_foldl hseg none hfuel

/-! ## A transfer is noted, a connection is closed -/

theorem HeldGroup.noteIo (h : HeldGroup t g ids) (sock : SockId) :
    HeldGroup (connLimitNoteIo sock t) g ids := by
  refine h.congr rfl (noteIo_links t sock) fun a => ?_
  by_cases ha : a = sock
  · subst ha
    simp [connLimitNoteIo, ConnTable.modifySock]
  · simp [connLimitNoteIo, ConnTable.modifySock, Function.update_of_ne ha]

theorem noteIo_evictable (t : ConnTable) (sock a : SockId) :
    connLimitIsEvictable ((connLimitNoteIo sock t).socks a) = connLimitIsEvictable (t.socks a) := by
  by_cases ha : a = sock
  · subst ha
    simp [connLimitNoteIo, ConnTable.modifySock, connLimitIsEvictable]
  · simp [connLimitNoteIo, ConnTable.modifySock, Function.update_of_ne ha]

theorem noteIo_lastIo (t : ConnTable) (sock a : SockId) :
    ((connLimitNoteIo sock t).socks a).lastIo =
      if a = sock then t.connIoSeq + 1 else (t.socks a).lastIo := by
  by_cases ha : a = sock
  · subst ha
    simp [connLimitNoteIo, ConnTable.modifySock]
  · simp [connLimitNoteIo, ConnTable.modifySock, ha]

theorem modifyAt_evictable (t : ConnTable) (p : Option SockId) {f : SocketInfo → SocketInfo}
    (hf : ∀ info, connLimitIsEvictable (f info) = connLimitIsEvictable info) (a : SockId) :
    connLimitIsEvictable ((t.modifyAt p f).socks a) = connLimitIsEvictable (t.socks a) := by
  cases p with
  | none => rfl
  | some c =>
      by_cases ha : a = c
      · subst ha
        simp [ConnTable.modifyAt, ConnTable.modifySock, hf]
      · simp [ConnTable.modifyAt, ConnTable.modifySock, Function.update_of_ne ha]

/-- The links of the group do not say whether a connection may be closed. -/
theorem evictable_links (info : SocketInfo) (prev next : Option SockId) (group : Option GroupId) :
    connLimitIsEvictable { info with grpPrev := prev, grpNext := next, connGroup := group } =
      connLimitIsEvictable info := by
  simp only [connLimitIsEvictable]

theorem detachedSocks_evictable (t : ConnTable) (sock a : SockId) :
    connLimitIsEvictable (detachedSocks t sock a) = connLimitIsEvictable (t.socks a) := by
  let t₁ := t.modifyAt (t.socks sock).grpPrev fun p => { p with grpNext := (t.socks sock).grpNext }
  let t₂ := t₁.modifyAt (t.socks sock).grpNext fun n => { n with grpPrev := (t.socks sock).grpPrev }
  have h₁ : connLimitIsEvictable (t₁.socks a) = connLimitIsEvictable (t.socks a) :=
    modifyAt_evictable t _ (fun info => evictable_links info info.grpPrev _ info.connGroup) a
  have h₂ : connLimitIsEvictable (t₂.socks a) = connLimitIsEvictable (t₁.socks a) :=
    modifyAt_evictable t₁ _ (fun info => evictable_links info _ info.grpNext info.connGroup) a
  have h₃ : connLimitIsEvictable (detachedSocks t sock a) = connLimitIsEvictable (t₂.socks a) :=
    modifyAt_evictable t₂ (some sock) (fun info => evictable_links info none none none) a
  exact h₃.trans (h₂.trans h₁)

/-- A member of a held group is closed: the group stays, with the other members, and nothing
that the limits read changes about these. -/
theorem HeldGroup.close {victim : SockId} {pre post : List SockId}
    (h : HeldGroup t g (pre ++ victim :: post)) :
    ∃ t', webserverConnectionManagerCloseRequest fuel victim t = some t' ∧
      HeldGroup t' g (pre ++ post) ∧ t'.connIoSeq = t.connIoSeq ∧
      ∀ a ≠ victim, (t'.socks a).lastIo = (t.socks a).lastIo ∧
        connLimitIsEvictable (t'.socks a) = connLimitIsEvictable (t.socks a) := by
  -- the flag is set before the socket leaves its group
  let t₁ : ConnTable := t.modifySock victim fun info => { info with closeSocket := true }
  have hlinks : grpLinks t₁.socks = grpLinks t.socks := by
    simp only [t₁, ConnTable.modifySock, grpLinks_update]
    exact Function.update_eq_self victim (grpLinks t.socks)
  have hconn : ∀ a, (t₁.socks a).connGroup = (t.socks a).connGroup := fun a => by
    by_cases ha : a = victim
    · subst ha
      simp [t₁, ConnTable.modifySock]
    · simp [t₁, ConnTable.modifySock, Function.update_of_ne ha]
  have hheld : HeldGroup t₁ g (pre ++ victim :: post) := h.congr rfl hlinks hconn
  obtain ⟨group, hgroup, hcount, hpinned, hmembers, hids⟩ := hheld
  refine ⟨detachedTable t₁ g group victim, ?_, ?_, rfl, fun a ha => ?_⟩
  · -- the accept holds the group, so it is not put away
    have hput : connGroupPut fuel g (detachedTable t₁ g group victim) =
        some (detachedTable t₁ g group victim) := by
      have hne : group.pinned ≠ 0 := by omega
      simp [connGroupPut, detachedTable, hne]
    exact (connLimitDetach_eq (hids victim (by simp)) hgroup).trans hput
  · refine ⟨_, Function.update_self .., ?_, hpinned, hmembers.detached, fun a ha => ?_⟩
    · simp only [hcount, List.length_append, List.length_cons]
      omega
    · have hne : a ≠ victim := by
        rintro rfl
        have hnodup := hmembers.1
        rw [List.nodup_middle] at hnodup
        exact (List.nodup_cons.mp hnodup).1 ha
      simp only [detachedTable, (detachedSocks_fields t₁ victim a).1, if_neg hne]
      exact hids a (by
        rcases List.mem_append.mp ha with ha | ha
        · exact List.mem_append_left _ ha
        · exact List.mem_append_right _ (List.mem_cons_of_mem _ ha))
  · have hsame : t₁.socks a = t.socks a := Function.update_of_ne ha _ _
    simp only [detachedTable]
    rw [(detachedSocks_fields t₁ victim a).2, detachedSocks_evictable, hsame]
    exact ⟨rfl, rfl⟩

/-! ## The loop -/

/-- The members that have not been closed. -/
def remaining (ids : List SockId) (asked : List (SockId × Bool)) : List SockId :=
  ids.filter fun a => (a, false) ∉ asked

theorem mem_remaining {asked : List (SockId × Bool)} {a : SockId} :
    a ∈ remaining ids asked ↔ a ∈ ids ∧ (a, false) ∉ asked := by
  simp [remaining]

theorem remaining_spared (ids : List SockId) (asked : List (SockId × Bool)) (victim : SockId) :
    remaining ids (asked ++ [(victim, true)]) = remaining ids asked := by
  simp [remaining]

theorem remaining_closed {asked : List (SockId × Bool)} {victim : SockId} {pre post : List SockId}
    (hsplit : remaining ids asked = pre ++ victim :: post) (hnodup : (remaining ids asked).Nodup) :
    remaining ids (asked ++ [(victim, false)]) = pre ++ post := by
  have hfilter : remaining ids (asked ++ [(victim, false)]) =
      (remaining ids asked).filter (· ≠ victim) := by
    simp only [remaining, List.filter_filter]
    refine List.filter_congr fun a _ => ?_
    simp [and_comm]
  rw [hsplit, List.nodup_middle, List.nodup_cons, List.mem_append, not_or] at hnodup
  have hkeep : ∀ l : List SockId, victim ∉ l → l.filter (· ≠ victim) = l := fun l hl =>
    List.filter_eq_self.mpr fun a ha => by
      simp only [decide_eq_true_eq]
      rintro rfl
      exact hl ha
  rw [hfilter, hsplit, List.filter_append, List.filter_cons_of_neg (by simp), hkeep pre hnodup.1.1,
    hkeep post hnodup.1.2]

/-- **The state of the loop.** Each connection was asked about at most once, in the order of the
last transfers when the call began, and the answer was its `connHasPendingInput`. The ones found
with input waiting have a stamp from this call, the others the one they had. -/
structure AdmitInv (pending : Nat → SockId → Bool) (t : ConnTable) (g : GroupId)
    (ids : List SockId) (s : AdmitState) : Prop where
  held : HeldGroup s.table g (remaining ids s.asked)
  asked : ∀ i sock waiting, s.asked[i]? = some (sock, waiting) →
    sock ∈ ids ∧ connLimitIsEvictable (t.socks sock) = true ∧ waiting = pending i sock
  once : (s.asked.map Prod.fst).Nodup
  sorted : (s.asked.map Prod.fst).Pairwise fun a c => (t.socks a).lastIo ≤ (t.socks c).lastIo
  oldest : ∀ a ∈ s.asked.map Prod.fst, ∀ c ∈ ids, connLimitIsEvictable (t.socks c) = true →
    c ∉ s.asked.map Prod.fst → (t.socks a).lastIo ≤ (t.socks c).lastIo
  flags : ∀ a ∈ remaining ids s.asked,
    connLimitIsEvictable (s.table.socks a) = connLimitIsEvictable (t.socks a)
  stamp : ∀ a ∈ remaining ids s.asked, (a, true) ∉ s.asked →
    (s.table.socks a).lastIo = (t.socks a).lastIo
  later : ∀ a ∈ remaining ids s.asked, (a, true) ∈ s.asked →
    t.connIoSeq < (s.table.socks a).lastIo
  seq : t.connIoSeq ≤ s.table.connIoSeq

variable {pending : Nat → SockId → Bool} {s : AdmitState} {victim : SockId}

/-- A victim with an old stamp has not been asked about. -/
theorem AdmitInv.fresh (h : AdmitInv pending t g ids s) (hin : victim ∈ remaining ids s.asked)
    (hold : (s.table.socks victim).lastIo ≤ t.connIoSeq) : victim ∉ s.asked.map Prod.fst := by
  intro hm
  obtain ⟨⟨sock, waiting⟩, hx, rfl⟩ := List.mem_map.mp hm
  -- asked and spared, it would have a stamp of this call; closed, it would be gone
  cases waiting with
  | true =>
      have hlater : t.connIoSeq < (s.table.socks sock).lastIo := h.later sock hin hx
      exact absurd hold (Nat.not_le.mpr hlater)
  | false => exact (mem_remaining.mp hin).2 hx

/-- The next connection is asked about. -/
theorem AdmitInv.ask {t' : ConnTable} (h : AdmitInv pending t g ids s)
    (hvictim : IsOldest s.table.socks (remaining ids s.asked) victim)
    (hold : (s.table.socks victim).lastIo ≤ t.connIoSeq)
    (hheld : HeldGroup t' g (remaining ids (s.asked ++ [(victim, pending s.asked.length victim)])))
    (hflags : ∀ a ≠ victim, (t'.socks a).lastIo = (s.table.socks a).lastIo ∧
      connLimitIsEvictable (t'.socks a) = connLimitIsEvictable (s.table.socks a))
    (hself : pending s.asked.length victim = true → t.connIoSeq < (t'.socks victim).lastIo ∧
      connLimitIsEvictable (t'.socks victim) = connLimitIsEvictable (s.table.socks victim))
    (hseq : s.table.connIoSeq ≤ t'.connIoSeq) :
    AdmitInv pending t g ids
      ⟨t', s.asked ++ [(victim, pending s.asked.length victim)]⟩ := by
  obtain ⟨hin, hevict, holdest⟩ := hvictim
  have hids : victim ∈ ids := (mem_remaining.mp hin).1
  have hfresh := h.fresh hin hold
  have hnot : ∀ waiting, (victim, waiting) ∉ s.asked := fun waiting hm =>
    hfresh (List.mem_map.mpr ⟨_, hm, rfl⟩)
  have hevict' : connLimitIsEvictable (t.socks victim) = true := by
    rw [← h.flags victim hin]
    exact hevict
  have hstamp : (s.table.socks victim).lastIo = (t.socks victim).lastIo :=
    h.stamp victim hin (hnot true)
  -- a member that remains now remained before; it is the victim only if that had input waiting
  have hback : ∀ a ∈ remaining ids (s.asked ++ [(victim, pending s.asked.length victim)]),
      a ∈ remaining ids s.asked ∧ (a = victim → pending s.asked.length victim = true) := by
    intro a ha
    obtain ⟨haids, hno⟩ := mem_remaining.mp ha
    simp only [List.mem_append, List.mem_singleton, not_or] at hno
    refine ⟨mem_remaining.mpr ⟨haids, hno.1⟩, ?_⟩
    rintro rfl
    cases hp : pending s.asked.length a with
    | true => rfl
    | false => exact absurd (by rw [hp]) hno.2
  refine ⟨hheld, fun i sock waiting hi => ?_, ?_, ?_, fun a ha c hc hcev hcno => ?_, fun a ha => ?_,
    fun a ha hno => ?_, fun a ha hyes => ?_, h.seq.trans hseq⟩
  · rcases Nat.lt_trichotomy i s.asked.length with hlt | heq | hgt
    · rw [List.getElem?_append_left hlt] at hi
      exact h.asked i sock waiting hi
    · subst heq
      rw [List.getElem?_concat_length] at hi
      obtain ⟨rfl, rfl⟩ := Prod.mk.injEq .. ▸ Option.some.inj hi
      exact ⟨hids, hevict', rfl⟩
    · rw [List.getElem?_eq_none (by simp only [List.length_append, List.length_singleton]; omega)] at hi
      exact absurd hi (by simp)
  · rw [List.map_append, List.map_singleton]
    exact List.nodup_append.mpr ⟨h.once, List.nodup_singleton _, fun a ha c hc heq => by
      have hc' : c = victim := List.mem_singleton.mp hc
      rw [heq, hc'] at ha
      exact hfresh ha⟩
  · rw [List.map_append, List.map_singleton]
    refine List.pairwise_append.mpr ⟨h.sorted, List.pairwise_singleton _ _, fun a ha c hc => ?_⟩
    rw [List.mem_singleton.mp hc]
    exact h.oldest a ha victim hids hevict' hfresh
  · simp only [List.map_append, List.map_singleton, List.mem_append, List.mem_singleton,
      not_or] at ha hcno
    rcases ha with ha | rfl
    · exact h.oldest a ha c hc hcev hcno.1
    · have hcrem : c ∈ remaining ids s.asked := mem_remaining.mpr ⟨hc, fun hm =>
        hcno.1 (List.mem_map.mpr ⟨_, hm, rfl⟩)⟩
      have hcstamp : (s.table.socks c).lastIo = (t.socks c).lastIo :=
        h.stamp c hcrem fun hm => hcno.1 (List.mem_map.mpr ⟨_, hm, rfl⟩)
      calc (t.socks a).lastIo = (s.table.socks a).lastIo := hstamp.symm
        _ ≤ (s.table.socks c).lastIo := holdest c hcrem (by rw [h.flags c hcrem]; exact hcev)
        _ = (t.socks c).lastIo := hcstamp
  · obtain ⟨hrem, hwait⟩ := hback a ha
    rw [← h.flags a hrem]
    by_cases heq : a = victim
    · subst heq
      exact (hself (hwait rfl)).2
    · exact (hflags a heq).2
  · obtain ⟨hrem, hwait⟩ := hback a ha
    simp only [List.mem_append, List.mem_singleton, not_or] at hno
    have hne : a ≠ victim := by
      rintro rfl
      exact hno.2 (by rw [hwait rfl])
    rw [(hflags a hne).1]
    exact h.stamp a hrem hno.1
  · obtain ⟨hrem, hwait⟩ := hback a ha
    by_cases heq : a = victim
    · subst heq
      exact (hself (hwait rfl)).1
    · rw [(hflags a heq).1]
      rcases List.mem_append.mp hyes with hm | hm
      · exact h.later a hrem hm
      · exact absurd (congrArg Prod.fst (List.mem_singleton.mp hm)) heq

/-- The victim has input waiting: it is stamped. -/
theorem AdmitInv.spare (h : AdmitInv pending t g ids s)
    (hvictim : IsOldest s.table.socks (remaining ids s.asked) victim)
    (hold : (s.table.socks victim).lastIo ≤ t.connIoSeq)
    (hwaiting : pending s.asked.length victim = true) :
    AdmitInv pending t g ids ⟨connLimitNoteIo victim s.table, s.asked ++ [(victim, true)]⟩ := by
  have hseq : s.table.connIoSeq ≤ (connLimitNoteIo victim s.table).connIoSeq := Nat.le_succ _
  have hinv : AdmitInv pending t g ids ⟨connLimitNoteIo victim s.table,
      s.asked ++ [(victim, pending s.asked.length victim)]⟩ := h.ask hvictim hold (by
      rw [hwaiting, remaining_spared]
      exact h.held.noteIo victim)
    (fun a ha => ⟨by rw [noteIo_lastIo, if_neg ha], noteIo_evictable _ _ _⟩)
    (fun _ => ⟨by rw [noteIo_lastIo, if_pos rfl]; exact Nat.lt_succ_of_le h.seq,
      noteIo_evictable _ _ _⟩) hseq
  rw [hwaiting] at hinv
  exact hinv

/-- The victim has none: it is closed. -/
theorem AdmitInv.close (h : AdmitInv pending t g ids s)
    (hvictim : IsOldest s.table.socks (remaining ids s.asked) victim)
    (hold : (s.table.socks victim).lastIo ≤ t.connIoSeq)
    (hidle : pending s.asked.length victim = false) :
    ∃ t', webserverConnectionManagerCloseRequest fuel victim s.table = some t' ∧
      AdmitInv pending t g ids ⟨t', s.asked ++ [(victim, false)]⟩ := by
  obtain ⟨pre, post, hsplit⟩ := List.append_of_mem hvictim.1
  have hnodup : (remaining ids s.asked).Nodup := by
    obtain ⟨_, -, -, -, hmembers, -⟩ := h.held
    exact hmembers.1
  have hheld := h.held
  rw [hsplit] at hheld
  obtain ⟨t', ht', hheld', hseq, hflags⟩ :=
    @HeldGroup.close s.table g fuel victim pre post hheld
  have hinv : AdmitInv pending t g ids
      ⟨t', s.asked ++ [(victim, pending s.asked.length victim)]⟩ := h.ask hvictim hold (by
      rw [hidle, remaining_closed hsplit hnodup]
      exact hheld')
    hflags (fun hwaiting => absurd (hidle.symm.trans hwaiting) (by simp)) (by rw [hseq])
  rw [hidle] at hinv
  exact ⟨t', ht', hinv⟩

/-- The loop ends: each round asks about one more member. Then there is room, or no member is
left that may be closed and has not been found with input waiting. -/
theorem AdmitInv.loop {limit : Int} {rounds : Nat} (h : AdmitInv pending t g ids s)
    (hstamps : ∀ a ∈ ids, (t.socks a).lastIo ≤ t.connIoSeq) (hfuel : ids.length ≤ fuel)
    (hrounds : ids.length < rounds + s.asked.length) :
    ∃ s' group, admitLoop pending fuel g limit t.connIoSeq rounds s = some s' ∧
      AdmitInv pending t g ids s' ∧ s'.table.groups g = some group ∧
      ((group.count : Int) < limit ∨ ∀ a ∈ remaining ids s'.asked,
        connLimitIsEvictable (s'.table.socks a) = false ∨ (a, true) ∈ s'.asked) := by
  induction rounds generalizing s with
  | zero =>
      -- nobody is asked about twice
      have hsub : s.asked.map Prod.fst ⊆ ids := fun a ha => by
        obtain ⟨⟨sock, waiting⟩, hx, rfl⟩ := List.mem_map.mp ha
        obtain ⟨i, hi⟩ := List.mem_iff_getElem?.mp hx
        exact (h.asked i sock waiting hi).1
      have hle := (h.once.subperm hsub).length_le
      rw [List.length_map] at hle
      omega
  | succ rounds ih =>
      obtain ⟨group, hgroup, -⟩ := h.held
      by_cases hroom : (group.count : Int) < limit
      · refine ⟨s, group, ?_, h, hgroup, Or.inl hroom⟩
        simp [admitLoop, hgroup, hroom]
      · have hlength : (remaining ids s.asked).length ≤ fuel :=
          (List.length_filter_le ..).trans hfuel
        obtain ⟨best, hbest, hnone, hsome⟩ := connLimitPickVictim_spec h.held hlength
        cases best with
        | none =>
            refine ⟨s, group, ?_, h, hgroup, Or.inr fun a ha => Or.inl (hnone rfl a ha)⟩
            simp [admitLoop, hgroup, hbest]
        | some victim =>
            have hvictim := hsome victim rfl
            by_cases hlater : t.connIoSeq < (s.table.socks victim).lastIo
            · refine ⟨s, group, ?_, h, hgroup, Or.inr fun a ha => ?_⟩
              · simp [admitLoop, hgroup, hbest, hlater]
              · -- the oldest one has a stamp from this call, so all that may be closed have
                cases hev : connLimitIsEvictable (s.table.socks a) with
                | false => exact Or.inl rfl
                | true =>
                    right
                    by_contra hno
                    have hstamp := h.stamp a ha hno
                    have holdest := hvictim.2.2 a ha hev
                    have hstart := hstamps a (mem_remaining.mp ha).1
                    omega
            · have hold : (s.table.socks victim).lastIo ≤ t.connIoSeq := Nat.not_lt.mp hlater
              cases hp : pending s.asked.length victim with
              | true =>
                  have hinv := h.spare hvictim hold hp
                  obtain ⟨s', group', hs', hrest⟩ := ih hinv (by
                    simp only [List.length_append, List.length_singleton]
                    omega)
                  refine ⟨s', group', ?_, hrest⟩
                  rw [← hs']
                  simp [admitLoop, hgroup, hroom, hbest, hlater, hp]
              | false =>
                  obtain ⟨t', ht', hinv⟩ := @AdmitInv.close t g ids fuel pending s victim h hvictim
                    hold hp
                  obtain ⟨s', group', hs', hrest⟩ := ih hinv (by
                    simp only [List.length_append, List.length_singleton]
                    omega)
                  refine ⟨s', group', ?_, hrest⟩
                  rw [← hs']
                  simp [admitLoop, hgroup, hroom, hbest, hlater, hp, ht']

/-- **Admission.** The call ends. It asks about members that may be closed, each at most once,
the ones with the oldest transfer first, closes those that have no input waiting and no others,
and admits the new connection exactly if there is room at the end. If it refuses, every member
left is busy or was found with input waiting. -/
theorem conn_limit_admit_spec (hheld : HeldGroup t g ids)
    (hstamps : ∀ a ∈ ids, (t.socks a).lastIo ≤ t.connIoSeq) (pending : Nat → SockId → Bool)
    (limit : Int) (hlimit : 0 < limit) (hfuel : ids.length < fuel) :
    ∃ admitted s group, connLimitAdmit pending fuel g limit t = some (admitted, s) ∧
      (∀ i sock waiting, s.asked[i]? = some (sock, waiting) →
        sock ∈ ids ∧ connLimitIsEvictable (t.socks sock) = true ∧ waiting = pending i sock) ∧
      (s.asked.map Prod.fst).Nodup ∧
      (s.asked.map Prod.fst).Pairwise (fun a c => (t.socks a).lastIo ≤ (t.socks c).lastIo) ∧
      (∀ a ∈ s.asked.map Prod.fst, ∀ c ∈ ids, connLimitIsEvictable (t.socks c) = true →
        c ∉ s.asked.map Prod.fst → (t.socks a).lastIo ≤ (t.socks c).lastIo) ∧
      HeldGroup s.table g (remaining ids s.asked) ∧
      s.table.groups g = some group ∧ (admitted = true ↔ (group.count : Int) < limit) ∧
      (admitted = false → ∀ a ∈ remaining ids s.asked,
        connLimitIsEvictable (s.table.socks a) = false ∨ (a, true) ∈ s.asked) := by
  have hall : remaining ids [] = ids := List.filter_eq_self.mpr fun a _ => by simp
  have hinit : AdmitInv pending t g ids ⟨t, []⟩ :=
    ⟨by rw [hall]; exact hheld, fun i sock waiting hi => by simp at hi, List.nodup_nil,
      List.Pairwise.nil, fun a ha => absurd ha List.not_mem_nil, fun _ _ => rfl, fun _ _ _ => rfl,
      fun _ _ hm => absurd hm List.not_mem_nil, Nat.le_refl _⟩
  obtain ⟨s, group, hs, hinv, hgroup, hend⟩ :=
    @AdmitInv.loop t g ids fuel pending ⟨t, []⟩ limit fuel hinit hstamps (Nat.le_of_lt hfuel) hfuel
  refine ⟨decide ((group.count : Int) < limit), s, group, ?_, hinv.asked, hinv.once, hinv.sorted,
    hinv.oldest, hinv.held, hgroup, by simp, fun hrefused => ?_⟩
  · have hpos : ¬ limit ≤ 0 := by omega
    simp [connLimitAdmit, hpos, hs, hgroup]
  · exact hend.resolve_left (by simpa using hrefused)

/-- Two connections of one address, both idle, the first with the older transfer. -/
def twoMembers : ConnTable where
  socks := fun a =>
    if a = 1 then { connGroup := some 0, grpNext := some 2, lastIo := 1, header := some (false, 0) }
    else if a = 2 then
      { connGroup := some 0, grpPrev := some 1, lastIo := 2, header := some (false, 0) }
    else {}
  groups := fun g =>
    if g = 0 then
      some { key := ⟨Vector.replicate 16 0, true⟩, count := 2, pinned := 1, members := some 1 }
    else none
  connHashKey := (1, 2)
  connIoSeq := 2

theorem conn_limit_admit_spec_two :
    ∃ admitted s group, connLimitAdmit (fun _ sock => sock = 1) 3 0 1 twoMembers =
        some (admitted, s) ∧ s.table.groups 0 = some group ∧ (admitted = true ↔ (group.count : Int) < 1) := by
  have hheld : HeldGroup twoMembers 0 [1, 2] :=
    ⟨_, rfl, rfl, by decide, ⟨by decide, some 2, rfl, some 2, rfl, rfl, none, rfl, rfl, rfl⟩, by decide⟩
  obtain ⟨admitted, s, group, hrun, -, -, -, -, -, hgroup, hiff, -⟩ :=
    conn_limit_admit_spec hheld (by decide) (fun _ sock => sock = 1) 1 (by decide)
      (show [1, 2].length < 3 by decide)
  exact ⟨admitted, s, group, hrun, hgroup, hiff⟩

end CWebUI.Sockets
