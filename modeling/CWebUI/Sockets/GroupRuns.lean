import CWebUI.Sockets.Groups

set_option autoImplicit false

/-! # Runs of the connection groups

Each call keeps the table consistent, and so does every sequence of calls.
-/

namespace CWebUI.Sockets

open DoublyLinked SinglyLinked

variable {idle idle' : GroupId → Prop} {t : ConnTable} {opened : List GroupId}
  {v : TableView} {g : GroupId} {group : ConnGroup} {b : Fin connGroupBuckets} {fuel n : Nat}

/-! ## `connLimitRelease` -/

/-- Ending an acquire counts it once less. -/
theorem count_eraseIdx_open {i : Nat} (hi : opened[i]? = some g) :
    opened.count g = (opened.eraseIdx i).count g + 1 ∧
      ∀ g' ≠ g, (opened.eraseIdx i).count g' = opened.count g' := by
  obtain ⟨hlt, heq⟩ := List.getElem?_eq_some_iff.mp hi
  have hperm := List.getElem_cons_eraseIdx_perm hlt
  rw [heq] at hperm
  constructor
  · rw [← hperm.count_eq g, List.count_cons_self]
  · intro g' hne
    rw [← hperm.count_eq g', List.count_cons_of_ne (Ne.symm hne)]

theorem TableInv.release {i : Nat} (h : TableInv noneIdle t opened v) (hmost : AtMost t n)
    (hfuel : n ≤ fuel) (hi : opened[i]? = some g) :
    ∃ t' v', connLimitRelease fuel g t = some t' ∧ TableInv noneIdle t' (opened.eraseIdx i) v' ∧
      AtMost t' n := by
  obtain ⟨b, hg⟩ := h.used g (Or.inr (List.mem_of_getElem? hi))
  obtain ⟨group, hgroup⟩ := h.group_of_mem hg
  obtain ⟨-, -, hpinned, -, -⟩ := h.entry b g group hg hgroup
  obtain ⟨hcount, hothers⟩ := count_eraseIdx_open hi
  let t₁ : ConnTable := { t with
    groups := Function.update t.groups g (some { group with pinned := group.pinned - 1 }) }
  have hinv : TableInv (· = g) t₁ (opened.eraseIdx i) v :=
    h.counters hg hgroup (by omega) (Or.inl rfl) (fun _ _ hi => absurd hi id) hothers
  have hmost₁ : AtMost t₁ n := hmost.replace hgroup rfl
  obtain ⟨t', v', ht', hinv', -, hsame, -⟩ := hinv.put hg ((hmost₁.chain_length hinv b).trans hfuel)
  refine ⟨t', v', ?_, hinv', hmost₁.mono (Nat.le_refl n) fun a ha => (hsame.1 a).mp ha⟩
  simp only [connLimitRelease, ConnTable.modifyGroup, hgroup, Option.map_some]
  exact ht'

/-! ## `connLimitAttach` -/

/-- The socket becomes the first member. -/
def attachedSocks (t : ConnTable) (g : GroupId) (group : ConnGroup) (sock : SockId) : SockMemory :=
  let t := t.modifySock sock fun info => { info with
    connGroup := some g
    grpPrev := none
    grpNext := group.members }
  let t := t.modifyAt group.members fun info => { info with grpPrev := some sock }
  (connLimitNoteIo sock t).socks

/-- A socket that has no group is not among the members of one. -/
theorem TableInv.not_member (h : TableInv idle t opened v) {sock : SockId}
    (hsock : (t.socks sock).connGroup = none) (g : GroupId) : sock ∉ v.members g := by
  intro hm
  rw [← h.member sock g, hsock] at hm
  exact absurd hm (by simp)

/-- The members of different groups are different. -/
theorem TableInv.members_apart (h : TableInv idle t opened v) {sock sock' : SockId} {g g' : GroupId}
    (hne : g' ≠ g) (hm : sock ∈ v.members g) (hm' : sock' ∈ v.members g') : sock' ≠ sock := by
  rintro rfl
  have hg := (h.member sock' g).mpr hm
  have hg' := (h.member sock' g').mpr hm'
  exact hne (Option.some.inj (hg'.symm.trans hg))

theorem Members.first_mem {socks : SockMemory} {first : Option SockId} {ids : List SockId}
    (h : Members socks first ids) {a : SockId} (ha : first = some a) : a ∈ ids := by
  obtain ⟨-, last, hseg⟩ := h
  cases ids with
  | nil => exact absurd (hseg.1.symm.trans ha) (by simp)
  | cons c ids =>
      rw [Option.some.inj (hseg.1.symm.trans ha)]
      exact List.mem_cons_self

theorem modifyAt_links (t : ConnTable) (p prev : Option SockId) :
    grpLinks (t.modifyAt p fun info => { info with grpPrev := prev }).socks =
      relinkPrev (grpLinks t.socks) p prev := by
  cases p with
  | none => rfl
  | some a =>
      simp only [ConnTable.modifyAt, ConnTable.modifySock, grpLinks_update]
      rfl

theorem noteIo_links (t : ConnTable) (sock : SockId) :
    grpLinks (connLimitNoteIo sock t).socks = grpLinks t.socks := by
  simp only [connLimitNoteIo, ConnTable.modifySock, grpLinks_update]
  exact Function.update_eq_self sock (grpLinks t.socks)

theorem attachedSocks_links (t : ConnTable) (g : GroupId) (group : ConnGroup) (sock : SockId) :
    grpLinks (attachedSocks t g group sock) = relinkPrev (Function.update (grpLinks t.socks) sock
      (some ⟨group.members, none, ()⟩)) group.members (some sock) := by
  simp only [attachedSocks, noteIo_links, modifyAt_links, ConnTable.modifySock, grpLinks_update]

/-- A change of a socket that leaves its group and its stamp alone. -/
theorem modifyAt_fields {f : SocketInfo → SocketInfo}
    (hf : ∀ info, (f info).connGroup = info.connGroup ∧ (f info).lastIo = info.lastIo)
    (t : ConnTable) (p : Option SockId) (a : SockId) :
    ((t.modifyAt p f).socks a).connGroup = (t.socks a).connGroup ∧
      ((t.modifyAt p f).socks a).lastIo = (t.socks a).lastIo := by
  cases p with
  | none => exact ⟨rfl, rfl⟩
  | some c =>
      by_cases hac : a = c
      · subst hac
        simp only [ConnTable.modifyAt, ConnTable.modifySock, Function.update_self]
        exact hf (t.socks a)
      · simp [ConnTable.modifyAt, ConnTable.modifySock, Function.update_of_ne hac]

theorem attachedSocks_fields (t : ConnTable) (g : GroupId) (group : ConnGroup) (sock a : SockId) :
    (attachedSocks t g group sock a).connGroup =
        (if a = sock then some g else (t.socks a).connGroup) ∧
      (attachedSocks t g group sock a).lastIo =
        (if a = sock then t.connIoSeq + 1 else (t.socks a).lastIo) := by
  have hseq : ∀ t' : ConnTable, (t'.modifyAt group.members fun info =>
      { info with grpPrev := some sock }).connIoSeq = t'.connIoSeq := fun t' => by
    cases group.members <;> rfl
  by_cases ha : a = sock
  · subst ha
    simp only [attachedSocks, connLimitNoteIo, ConnTable.modifySock, Function.update_self, if_true,
      hseq, and_true]
    rw [(modifyAt_fields (f := fun info => { info with grpPrev := some a }) (fun _ => ⟨rfl, rfl⟩) _
      group.members a).1]
    simp
  · simp only [attachedSocks, connLimitNoteIo, ConnTable.modifySock, Function.update_of_ne ha, if_neg ha]
    have hfields := modifyAt_fields (f := fun info => { info with grpPrev := some sock })
      (fun _ => ⟨rfl, rfl⟩) (t.modifySock sock fun info => { info with
        connGroup := some g
        grpPrev := none
        grpNext := group.members }) group.members a
    simp only [ConnTable.modifySock, Function.update_of_ne ha] at hfields
    exact hfields

/-- **`connLimitAttach`** -/
theorem TableInv.attach {i : Nat} {sock : SockId} (h : TableInv noneIdle t opened v)
    (hmost : AtMost t n) (hfuel : n ≤ fuel) (hi : opened[i]? = some g)
    (hsock : (t.socks sock).connGroup = none) :
    ∃ t' v', connLimitAttach fuel g sock t = some t' ∧
      TableInv noneIdle t' (opened.eraseIdx i) v' ∧ AtMost t' n := by
  obtain ⟨b, hg⟩ := h.used g (Or.inr (List.mem_of_getElem? hi))
  obtain ⟨group, hgroup⟩ := h.group_of_mem hg
  obtain ⟨-, hcount, hpinned, ⟨hnodup, last, hseg⟩, -⟩ := h.entry b g group hg hgroup
  have hout : sock ∉ v.members g := h.not_member hsock g
  let group' : ConnGroup := { group with members := some sock, count := group.count + 1 }
  let t₁ : ConnTable := { t with
    socks := attachedSocks t g group sock
    groups := Function.update t.groups g (some group')
    connIoSeq := t.connIoSeq + 1 }
  -- the list of the group, with the socket in front
  have hmembers : Members t₁.socks group'.members (sock :: v.members g) := by
    refine ⟨List.nodup_cons.mpr ⟨hout, hnodup⟩, ?_⟩
    simp only [t₁, attachedSocks_links]
    exact hseg.pushFront (by rw [map_fst_unit]; exact hnodup) (by rw [map_fst_unit]; exact hout) ()
  -- only the socket and the old first member are written, and no other group has them
  have hlinks : ∀ g' ≠ g, ∀ a ∈ v.members g', grpLinks t₁.socks a = grpLinks t.socks a := by
    intro g' hne a ha
    have has : a ≠ sock := fun heq => h.not_member hsock g' (heq ▸ ha)
    simp only [t₁, attachedSocks_links]
    cases hfirst : group.members with
    | none =>
        rw [relinkPrev]
        exact Function.update_of_ne has _ _
    | some m =>
        have hm : m ∈ v.members g := Members.first_mem ⟨hnodup, last, hseg⟩ hfirst
        rw [relinkPrev, Function.update_of_ne (h.members_apart hne hm ha), Function.update_of_ne has]
  have hmember : ∀ a g', (t₁.socks a).connGroup = some g' ↔
      a ∈ Function.update v.members g (sock :: v.members g) g' := by
    intro a g'
    simp only [t₁, (attachedSocks_fields t g group sock a).1]
    by_cases hg' : g' = g
    · subst hg'
      rw [Function.update_self, List.mem_cons]
      by_cases ha : a = sock
      · simp [ha]
      · rw [if_neg ha, h.member a g']
        exact (or_iff_right ha).symm
    · rw [Function.update_of_ne hg']
      by_cases ha : a = sock
      · subst ha
        rw [if_pos rfl]
        exact iff_of_false (fun heq => hg' (Option.some.inj heq).symm) (h.not_member hsock g')
      · rw [if_neg ha]
        exact h.member a g'
  have hstamps : ∀ a, (t₁.socks a).lastIo ≤ t₁.connIoSeq := by
    intro a
    simp only [t₁, (attachedSocks_fields t g group sock a).2]
    split
    · exact Nat.le_refl _
    · exact (h.stamps a).trans (Nat.le_succ _)
  have hinv : TableInv noneIdle t₁ opened
      { v with members := Function.update v.members g (sock :: v.members g) } :=
    h.replace hg hgroup rfl rfl (by simp [group', hcount]) hpinned hmembers
      (Or.inr (Or.inl (Nat.succ_pos _))) (fun _ _ hidle => hidle) (fun _ _ => rfl) hlinks hmember
      hstamps
  have hmost₁ : AtMost t₁ n := hmost.replace hgroup rfl
  -- the acquire that led here ends
  obtain ⟨t', v', ht', hrest⟩ := hinv.release hmost₁ hfuel hi
  refine ⟨t', v', ?_, hrest⟩
  rw [← ht']
  cases hfirst : group.members with
  | none =>
      simp [connLimitAttach, hgroup, hfirst, ConnTable.modifySock, ConnTable.modifyAt,
        ConnTable.modifyGroup, connLimitNoteIo, t₁, attachedSocks, group']
  | some m =>
      simp [connLimitAttach, hgroup, hfirst, ConnTable.modifySock, ConnTable.modifyAt,
        ConnTable.modifyGroup, connLimitNoteIo, t₁, attachedSocks, group']

/-! ## `connLimitDetach` -/

/-- The neighbours of a socket in a list are in the list. -/
theorem neighbour_mem {socks : SockMemory} {first last : Option SockId} {pre post : List SockId}
    {sock c : SockId} (hseg : Segment (grpLinks socks) none first
      (pre.map (·, ()) ++ (sock, ()) :: post.map (·, ())) none last)
    (hc : (socks sock).grpPrev = some c ∨ (socks sock).grpNext = some c) :
    c ∈ pre ++ sock :: post := by
  obtain ⟨mid, link, hpre, -, n, hnode, hpost⟩ := segment_append.mp hseg
  have hfields := Option.some.inj hnode
  -- the one before is the last of the front, the one behind the first of the rest
  rcases hc with hc | hc
  · have hlink : link = some c := (congrArg Node.prev hfields).symm.trans hc
    by_cases hnil : pre = []
    · subst hnil
      exact absurd (hpre.2.symm.trans hlink) (by simp)
    · obtain ⟨d, hd, hlink'⟩ := hpre.exists_last fun hmap => hnil (List.map_eq_nil_iff.mp hmap)
      rw [List.map_map] at hd
      obtain ⟨e, he, rfl⟩ := List.mem_map.mp hd
      rw [Option.some.inj (hlink.symm.trans hlink')]
      exact List.mem_append_left _ he
  · have hn : n = some c := (congrArg Node.next hfields).symm.trans hc
    cases post with
    | nil => exact absurd (hpost.1.symm.trans hn) (by simp)
    | cons d post =>
        have hdc : d = c := Option.some.inj (hpost.1.symm.trans hn)
        simp [hdc]

/-- The neighbours of the socket are linked to each other. -/
def detachedSocks (t : ConnTable) (sock : SockId) : SockMemory :=
  let info := t.socks sock
  let t := t.modifyAt info.grpPrev fun p => { p with grpNext := info.grpNext }
  let t := t.modifyAt info.grpNext fun n => { n with grpPrev := info.grpPrev }
  (t.modifySock sock fun info => { info with
    grpPrev := none
    grpNext := none
    connGroup := none }).socks

theorem modifyAt_next_links (t : ConnTable) (p next : Option SockId) :
    grpLinks (t.modifyAt p fun info => { info with grpNext := next }).socks =
      relinkNext (grpLinks t.socks) p next := by
  cases p with
  | none => rfl
  | some a =>
      simp only [ConnTable.modifyAt, ConnTable.modifySock, grpLinks_update]
      rfl

theorem detachedSocks_links (t : ConnTable) (sock : SockId) :
    grpLinks (detachedSocks t sock) = Function.update (bypass (grpLinks t.socks)
      ⟨(t.socks sock).grpNext, (t.socks sock).grpPrev, ()⟩) sock (some ⟨none, none, ()⟩) := by
  simp only [detachedSocks, ConnTable.modifySock, grpLinks_update, modifyAt_links,
    modifyAt_next_links, bypass]

theorem detachedSocks_fields (t : ConnTable) (sock a : SockId) :
    (detachedSocks t sock a).connGroup = (if a = sock then none else (t.socks a).connGroup) ∧
      (detachedSocks t sock a).lastIo = (t.socks a).lastIo := by
  have hnext := modifyAt_fields (f := fun p => { p with grpNext := (t.socks sock).grpNext })
    (fun _ => ⟨rfl, rfl⟩) t (t.socks sock).grpPrev a
  have hprev := modifyAt_fields (f := fun n => { n with grpPrev := (t.socks sock).grpPrev })
    (fun _ => ⟨rfl, rfl⟩) (t.modifyAt (t.socks sock).grpPrev fun p =>
      { p with grpNext := (t.socks sock).grpNext }) (t.socks sock).grpNext a
  by_cases ha : a = sock
  · subst ha
    simp only [detachedSocks, ConnTable.modifySock, Function.update_self, if_true, true_and]
    exact hprev.2.trans hnext.2
  · simp only [detachedSocks, ConnTable.modifySock, Function.update_of_ne ha, if_neg ha]
    exact ⟨hprev.1.trans hnext.1, hprev.2.trans hnext.2⟩

/-- The other members stay linked. -/
theorem Members.detached {sock : SockId} {first : Option SockId} {pre post : List SockId}
    (h : Members t.socks first (pre ++ sock :: post)) :
    Members (detachedSocks t sock)
      (if (t.socks sock).grpPrev = none then (t.socks sock).grpNext else first) (pre ++ post) := by
  obtain ⟨hnodup, last, hseg⟩ := h
  rw [List.map_append, List.map_cons] at hseg
  obtain ⟨node, hnode, -, hprev, -, -, -, hrest⟩ := hseg.takeOut (by
    rw [List.map_append, List.map_cons, map_fst_unit, map_fst_unit]
    exact hnodup)
  obtain rfl := Option.some.inj hnode
  simp only [List.map_eq_nil_iff] at hprev hrest
  refine ⟨hnodup.sublist ((List.sublist_cons_self sock post).append_left pre),
    if post = [] then (t.socks sock).grpPrev else last, ?_⟩
  simp only [detachedSocks_links, hprev, List.map_append]
  exact hrest _

/-- The table when a socket has left its group, before the group is put away. -/
def detachedTable (t : ConnTable) (g : GroupId) (group : ConnGroup) (sock : SockId) : ConnTable :=
  { t with
    socks := detachedSocks t sock
    groups := Function.update t.groups g (some { group with
      members := if (t.socks sock).grpPrev = none then (t.socks sock).grpNext else group.members
      count := group.count - 1 }) }

theorem connLimitDetach_eq {sock : SockId} (hsock : (t.socks sock).connGroup = some g)
    (hgroup : t.groups g = some group) :
    connLimitDetach fuel sock t = connGroupPut fuel g (detachedTable t g group sock) := by
  cases hp : (t.socks sock).grpPrev with
  | none =>
      cases hn : (t.socks sock).grpNext <;>
        simp [connLimitDetach, hsock, hgroup, hp, hn, ConnTable.modifySock, ConnTable.modifyAt,
          ConnTable.modifyGroup, detachedTable, detachedSocks]
  | some c =>
      cases hn : (t.socks sock).grpNext <;>
        simp [connLimitDetach, hsock, hgroup, hp, hn, ConnTable.modifySock, ConnTable.modifyAt,
          ConnTable.modifyGroup, detachedTable, detachedSocks]

/-- **`connLimitDetach`** -/
theorem TableInv.detach (h : TableInv noneIdle t opened v) (hmost : AtMost t n)
    (hfuel : n ≤ fuel) (sock : SockId) :
    ∃ t' v', connLimitDetach fuel sock t = some t' ∧ TableInv noneIdle t' opened v' ∧
      AtMost t' n := by
  cases hsock : (t.socks sock).connGroup with
  | none =>
      -- a socket without a group is left alone
      refine ⟨t, v, ?_, h, hmost⟩
      simp [connLimitDetach, hsock]
  | some g =>
      have hin : sock ∈ v.members g := (h.member sock g).mp hsock
      obtain ⟨b, hg⟩ := h.used g (Or.inl (List.ne_nil_of_mem hin))
      obtain ⟨group, hgroup⟩ := h.group_of_mem hg
      obtain ⟨-, hcount, hpinned, hold, -⟩ := h.entry b g group hg hgroup
      obtain ⟨pre, post, hsplit⟩ := List.append_of_mem hin
      rw [hsplit] at hold
      have hmembers := hold.detached
      obtain ⟨hnodup', last, hseg⟩ := hold
      rw [List.map_append, List.map_cons] at hseg
      have hpre : sock ∉ pre := fun hm =>
        (List.nodup_append.mp hnodup').2.2 sock hm sock List.mem_cons_self rfl
      have hpost : sock ∉ post := (List.nodup_cons.mp (List.nodup_append.mp hnodup').2.1).1
      let t₁ : ConnTable := detachedTable t g group sock
      -- the neighbours that are written are members of the same group
      have hlinks : ∀ g' ≠ g, ∀ a ∈ v.members g', grpLinks t₁.socks a = grpLinks t.socks a := by
        intro g' hne a ha
        have hother : ∀ c ∈ v.members g, a ≠ c := fun c hc => h.members_apart hne hc ha
        simp only [t₁, detachedTable, detachedSocks_links]
        rw [Function.update_of_ne (hother sock hin)]
        have hneigh : ∀ c, (t.socks sock).grpPrev = some c ∨ (t.socks sock).grpNext = some c →
            c ∈ v.members g := fun c hc => by
          rw [hsplit]
          exact neighbour_mem hseg hc
        have hnextSame : relinkNext (grpLinks t.socks) (t.socks sock).grpPrev
            (t.socks sock).grpNext a = grpLinks t.socks a := by
          cases hp : (t.socks sock).grpPrev with
          | none => rfl
          | some c => exact Function.update_of_ne (hother c (hneigh c (Or.inl hp))) _ _
        simp only [bypass]
        rw [← hnextSame]
        cases hn : (t.socks sock).grpNext with
        | none => rfl
        | some c => exact Function.update_of_ne (hother c (hneigh c (Or.inr hn))) _ _
      have hmember : ∀ a g', (t₁.socks a).connGroup = some g' ↔
          a ∈ Function.update v.members g (pre ++ post) g' := by
        intro a g'
        simp only [t₁, detachedTable, (detachedSocks_fields t sock a).1]
        by_cases ha : a = sock
        · subst ha
          rw [if_pos rfl]
          refine iff_of_false (by simp) fun hm => ?_
          by_cases hg' : g' = g
          · subst hg'
            rw [Function.update_self] at hm
            exact (List.mem_append.mp hm).elim hpre hpost
          · rw [Function.update_of_ne hg'] at hm
            exact h.members_apart hg' hin hm rfl
        · rw [if_neg ha, h.member a g']
          by_cases hg' : g' = g
          · subst hg'
            rw [Function.update_self, hsplit]
            simp [ha]
          · rw [Function.update_of_ne hg']
      -- the group may be idle now, until it is put away
      have hinv : TableInv (· = g) t₁ opened
          { v with members := Function.update v.members g (pre ++ post) } :=
        h.replace hg hgroup rfl rfl (by rw [hsplit] at hcount; simp [hcount]) hpinned
          hmembers (Or.inl rfl) (fun _ _ hidle => absurd hidle id) (fun _ _ => rfl) hlinks hmember
          fun a => by
            rw [(detachedSocks_fields t sock a).2]
            exact h.stamps a
      have hmost₁ : AtMost t₁ n := hmost.replace hgroup rfl
      obtain ⟨t', v', ht', hinv', -, hsame, -⟩ :=
        hinv.put hg ((hmost₁.chain_length hinv b).trans hfuel)
      refine ⟨t', v', ?_, hinv', hmost₁.mono (Nat.le_refl n) fun a ha => (hsame.1 a).mp ha⟩
      rw [← ht']
      exact connLimitDetach_eq hsock hgroup

/-! ## `connLimitFree` -/

/-- A bucket whose groups are all in use stays as it is. -/
theorem freeBucket_used {first pos : Option GroupId} {ids : List GroupId}
    (hchain : Chain t.nextOf first ids)
    (hused : ∀ a ∈ ids, ∃ group, t.groups a = some group ∧ (0 < group.count ∨ 0 < group.pinned))
    (hfuel : ids.length ≤ fuel) : freeBucket b fuel pos first t = some t := by
  induction ids generalizing fuel first pos with
  | nil =>
      have hnone : first = none := hchain
      subst hnone
      cases fuel <;> rfl
  | cons a ids ih =>
      obtain ⟨hfirst, hrest⟩ := hchain
      obtain ⟨group, hgroup, huse⟩ := hused a List.mem_cons_self
      cases fuel with
      | zero => exact absurd hfuel (by simp)
      | succ fuel =>
          rw [nextOf_some hgroup] at hrest
          -- a group in use is walked past
          have hbusy : ¬ (group.count = 0 ∧ group.pinned = 0) := by omega
          rw [hfirst]
          simp only [freeBucket, hgroup, if_neg hbusy]
          exact ih hrest (fun c hc => hused c (List.mem_cons_of_mem a hc))
            (Nat.le_of_succ_le_succ hfuel)

/-- The groups of the free list are freed, the others stay. -/
theorem freeFreeList_spec {ids : List GroupId} (hchain : Chain t.nextOf t.connGroupFree ids)
    (hnodup : ids.Nodup) (halloc : ∀ a ∈ ids, t.groups a ≠ none) (hfuel : ids.length ≤ fuel) :
    ∃ t', freeFreeList fuel t = some t' ∧ SameRest t t' ∧ t'.connBuckets = t.connBuckets ∧
      t'.connGroupFree = none ∧ ∀ a, t'.groups a = if a ∈ ids then none else t.groups a := by
  induction ids generalizing fuel t with
  | nil =>
      have hnone : t.connGroupFree = none := hchain
      refine ⟨t, ?_, ⟨rfl, rfl, rfl⟩, rfl, hnone, fun a => by simp⟩
      cases fuel <;> simp [freeFreeList, hnone]
  | cons g ids ih =>
      obtain ⟨hfirst, hrest⟩ := hchain
      obtain ⟨group, hgroup⟩ := Option.ne_none_iff_exists'.mp (halloc g List.mem_cons_self)
      rw [List.nodup_cons] at hnodup
      cases fuel with
      | zero => exact absurd hfuel (by simp)
      | succ fuel =>
          -- the first of the list is freed, and the rest of it does not run through it
          let t₁ : ConnTable := { t with
            connGroupFree := group.hashNext
            groups := Function.update t.groups g none }
          have hnext : t₁.nextOf = Function.update t.nextOf g none := nextOf_update t g none
          have hchain₁ : Chain t₁.nextOf t₁.connGroupFree ids := by
            rw [hnext]
            rw [nextOf_some hgroup] at hrest
            exact hrest.update hnodup.1 none
          have halloc₁ : ∀ a ∈ ids, t₁.groups a ≠ none := fun a ha => by
            have hne : a ≠ g := fun heq => hnodup.1 (heq ▸ ha)
            simp only [t₁, Function.update_of_ne hne]
            exact halloc a (List.mem_cons_of_mem g ha)
          obtain ⟨t', ht', hsame, hbuckets, hfree, hgroups⟩ :=
            ih hchain₁ hnodup.2 halloc₁ (Nat.le_of_succ_le_succ hfuel)
          refine ⟨t', ?_, hsame, hbuckets, hfree, fun a => ?_⟩
          · simp only [freeFreeList, hfirst, hgroup]
            exact ht'
          · rw [hgroups a]
            by_cases ha : a = g
            · subst ha
              simp [t₁]
            · simp [t₁, ha]

/-- **`connLimitFree`** -/
theorem TableInv.free (h : TableInv noneIdle t opened v) (hmost : AtMost t n) (hfuel : n ≤ fuel) :
    ∃ t' v', connLimitFree fuel t = some t' ∧ TableInv noneIdle t' opened v' ∧ AtMost t' n := by
  -- between two calls no group is idle, so the walk over the buckets frees nothing
  have hbuckets : ∀ bs : List (Fin connGroupBuckets), bs.foldlM
      (fun t b => freeBucket b fuel none (t.connBuckets b) t) t = some t := by
    intro bs
    induction bs with
    | nil => rfl
    | cons b bs ih =>
        have hbucket : freeBucket b fuel none (t.connBuckets b) t = some t := by
          refine freeBucket_used (h.chains b).1 (fun a ha => ?_)
            ((hmost.chain_length h b).trans hfuel)
          obtain ⟨group, hgroup⟩ := h.group_of_mem ha
          exact ⟨group, hgroup, ((h.entry b a group ha hgroup).2.2.2.2).resolve_left id⟩
        rw [List.foldlM_cons, hbucket]
        exact ih
  obtain ⟨t', ht', hrest, hbuckets', hfree, hgroups⟩ := freeFreeList_spec h.freed.1 h.freed.2
    (fun a ha => (h.allocated a).mpr (Or.inr ha)) ((hmost.freed_length h).trans hfuel)
  have hkeep : ∀ b, ∀ a ∈ v.chain b, t'.groups a = t.groups a := fun b a ha => by
    rw [hgroups a, if_neg (h.apart b a ha)]
  refine ⟨t', { v with freed := [] }, ?_, h.relist hrest.1 hrest.2.1 hrest.2.2 rfl ?_ (fun b => ?_)
    ⟨hfree, List.nodup_nil⟩ (fun _ _ _ => List.not_mem_nil) (fun a => ?_)
    (fun b a ha => ⟨ha, id⟩) h.used, hmost.mono (Nat.le_refl n) fun a ha => ?_⟩
  · simp only [connLimitFree, hbuckets]
    exact ht'
  · intro a group' ha
    rw [hgroups a] at ha
    split at ha
    · exact absurd ha (by simp)
    · exact ⟨group', ha, rfl, rfl, rfl, rfl⟩
  · rw [hbuckets']
    refine ⟨Chain.congr (h.chains b).1 fun a ha => ?_, (h.chains b).2⟩
    rw [ConnTable.nextOf, ConnTable.nextOf, hkeep b a ha]
  · rw [hgroups a]
    by_cases hf : a ∈ v.freed
    · simp only [if_pos hf, ne_eq, not_true_eq_false, false_iff, List.not_mem_nil, or_false]
      rintro ⟨b, hb⟩
      exact h.apart b a hb hf
    · rw [if_neg hf, h.allocated a]
      simp [hf]
  · rw [hgroups a] at ha
    split at ha
    · exact absurd rfl ha
    · exact ha

theorem TableInv.noteIo (h : TableInv noneIdle t opened v) (sock : SockId) :
    TableInv noneIdle (connLimitNoteIo sock t) opened v := by
  refine ⟨h.chains, h.freed, h.apart, h.allocated, fun b g group hg hgroup => ?_, h.unique,
    fun a g => ?_, h.used, fun a => ?_⟩
  · obtain ⟨hbucket, hcount, hpinned, hmembers, hactive⟩ := h.entry b g group hg hgroup
    refine ⟨hbucket, hcount, hpinned, hmembers.congr fun a _ => ?_, hactive⟩
    rw [noteIo_links]
  · rw [← h.member a g]
    by_cases ha : a = sock
    · subst ha
      simp [connLimitNoteIo, ConnTable.modifySock]
    · simp [connLimitNoteIo, ConnTable.modifySock, Function.update_of_ne ha]
  · by_cases ha : a = sock
    · subst ha
      simp [connLimitNoteIo, ConnTable.modifySock]
    · simp only [connLimitNoteIo, ConnTable.modifySock, Function.update_of_ne ha]
      exact (h.stamps a).trans (Nat.le_succ _)

/-! ## Whole runs -/

/-- A call on a consistent table has a result, and leaves it consistent. -/
theorem TableInv.exec (h : TableInv noneIdle t opened v) (hmost : AtMost t n) (hfuel : n ≤ fuel)
    (op : GroupOp) :
    ∃ t' opened' v', op.exec fuel t opened = some (t', opened') ∧
      TableInv noneIdle t' opened' v' ∧ AtMost t' (n + 1) := by
  have hmore : ∀ {t' : ConnTable}, AtMost t' n → AtMost t' (n + 1) := fun hm =>
    hm.mono (Nat.le_succ n) fun _ hg => hg
  cases op with
  | acquire key new =>
      cases hnew : t.groups new with
      | some group =>
          refine ⟨t, opened, v, ?_, h, hmore hmost⟩
          simp [GroupOp.exec, hnew]
      | none =>
          obtain ⟨t', g, v', ht', hinv, hmost'⟩ := h.acquire hmost hfuel key hnew
          refine ⟨t', g :: opened, v', ?_, hinv, hmost'⟩
          simp [GroupOp.exec, hnew, ht']
  | release i =>
      cases hi : opened[i]? with
      | none =>
          refine ⟨t, opened, v, ?_, h, hmore hmost⟩
          simp [GroupOp.exec, hi]
      | some g =>
          obtain ⟨t', v', ht', hinv, hmost'⟩ := h.release hmost hfuel hi
          refine ⟨t', opened.eraseIdx i, v', ?_, hinv, hmore hmost'⟩
          simp [GroupOp.exec, hi, ht']
  | attach i sock =>
      cases hi : opened[i]? with
      | none =>
          refine ⟨t, opened, v, ?_, h, hmore hmost⟩
          simp [GroupOp.exec, hi]
      | some g =>
          cases hsock : (t.socks sock).connGroup with
          | some g' =>
              refine ⟨t, opened, v, ?_, h, hmore hmost⟩
              simp [GroupOp.exec, hi, hsock]
          | none =>
              obtain ⟨t', v', ht', hinv, hmost'⟩ := h.attach hmost hfuel hi hsock
              refine ⟨t', opened.eraseIdx i, v', ?_, hinv, hmore hmost'⟩
              simp [GroupOp.exec, hi, hsock, ht']
  | detach sock =>
      obtain ⟨t', v', ht', hinv, hmost'⟩ := h.detach hmost hfuel sock
      refine ⟨t', opened, v', ?_, hinv, hmore hmost'⟩
      simp [GroupOp.exec, ht']
  | free =>
      obtain ⟨t', v', ht', hinv, hmost'⟩ := h.free hmost hfuel
      refine ⟨t', opened, v', ?_, hinv, hmore hmost'⟩
      simp [GroupOp.exec, ht']
  | noteIo sock => exact ⟨_, opened, v, rfl, h.noteIo sock, hmore hmost⟩

theorem TableInv.run (ops : List GroupOp) (h : TableInv noneIdle t opened v) (hmost : AtMost t n)
    (hfuel : n + ops.length ≤ fuel) :
    ∃ t' opened' v', runGroups fuel ops t opened = some (t', opened') ∧
      TableInv noneIdle t' opened' v' := by
  induction ops generalizing t opened v n with
  | nil => exact ⟨t, opened, v, rfl, h⟩
  | cons op ops ih =>
      simp only [List.length_cons] at hfuel
      -- every call adds at most one group, so the fuel suffices for the chains
      have hle : n ≤ fuel := by omega
      obtain ⟨t₁, opened₁, v₁, ht₁, hinv₁, hmost₁⟩ := h.exec hmost hle op
      obtain ⟨t', opened', v', ht', hinv'⟩ := ih hinv₁ hmost₁ (by omega)
      refine ⟨t', opened', v', ?_, hinv'⟩
      simp only [runGroups, List.foldlM_cons]
      rw [ht₁]
      exact ht'

/-- Two groups of the table with one address are the same group: the bucket is a function of the
address. -/
theorem TableInv.unique_key (h : TableInv idle t opened v) {b b' : Fin connGroupBuckets}
    {g g' : GroupId} {group group' : ConnGroup} (hg : g ∈ v.chain b) (hg' : g' ∈ v.chain b')
    (hgroup : t.groups g = some group) (hgroup' : t.groups g' = some group')
    (hkey : group.key.addr = group'.key.addr) : g = g' := by
  have hbucket := (h.entry b g group hg hgroup).1
  have hbucket' := (h.entry b' g' group' hg' hgroup').1
  have hsame : b = b' := by
    calc b = t.bucketOf group.key := hbucket.symm
      _ = t.bucketOf group'.key := by simp only [ConnTable.bucketOf, connHash, hkey]
      _ = b' := hbucket'
  subst hsame
  exact h.unique b g g' group group' hg hg' hgroup hgroup' hkey

/-- **The connection groups.** Every sequence of calls, starting with an empty table and with
no socket in a group, has a result, and leaves the table consistent, with no two groups for one
address. -/
theorem connection_groups_consistent (socks : SockMemory)
    (hsocks : ∀ a, (socks a).connGroup = none ∧ (socks a).lastIo = 0) (hashKey : UInt32 × UInt32)
    (ops : List GroupOp) (fuel : Nat) (hfuel : ops.length ≤ fuel) :
    ∃ t opened v, runGroups fuel ops { socks := socks, connHashKey := hashKey } [] = some (t, opened) ∧
      TableInv noneIdle t opened v ∧
      ∀ b b' g g' group group', g ∈ v.chain b → g' ∈ v.chain b' → t.groups g = some group →
        t.groups g' = some group' → group.key.addr = group'.key.addr → g = g' := by
  have hinit : TableInv noneIdle { socks := socks, connHashKey := hashKey } []
      ⟨fun _ => [], [], fun _ => []⟩ := by
    refine ⟨fun _ => ⟨rfl, List.nodup_nil⟩, ⟨rfl, List.nodup_nil⟩, fun _ _ hg => absurd hg List.not_mem_nil,
      fun g => by simp, fun _ _ _ hg => absurd hg List.not_mem_nil,
      fun _ _ _ _ _ hg => absurd hg List.not_mem_nil, fun sock g => by simp [(hsocks sock).1],
      fun g hg => by simp at hg, fun sock => ?_⟩
    rw [(hsocks sock).2]
  have hmost : AtMost { socks := socks, connHashKey := hashKey } 0 :=
    ⟨∅, fun g hg => absurd rfl hg, Nat.le_refl 0⟩
  have hlength : 0 + ops.length ≤ fuel := by omega
  obtain ⟨t, opened, v, hrun, hinv⟩ := hinit.run ops hmost hlength
  exact ⟨t, opened, v, hrun, hinv, fun _ _ _ _ _ _ hg hg' hgroup hgroup' hkey =>
    hinv.unique_key hg hg' hgroup hgroup' hkey⟩

theorem connection_groups_consistent_six :
    ∃ t opened v, runGroups 6 [.acquire ⟨Vector.replicate 16 0, true⟩ 7, .attach 0 3,
        .acquire ⟨Vector.replicate 16 1, true⟩ 8, .release 0, .detach 3, .free]
        { socks := fun _ => {}, connHashKey := (1, 2) } [] = some (t, opened) ∧
      TableInv noneIdle t opened v ∧
      ∀ b b' g g' group group', g ∈ v.chain b → g' ∈ v.chain b' → t.groups g = some group →
        t.groups g' = some group' → group.key.addr = group'.key.addr → g = g' :=
  connection_groups_consistent (fun _ => {}) (fun _ => ⟨rfl, rfl⟩) (1, 2)
    [.acquire ⟨Vector.replicate 16 0, true⟩ 7, .attach 0 3,
      .acquire ⟨Vector.replicate 16 1, true⟩ 8, .release 0, .detach 3, .free] 6 (by decide)

end CWebUI.Sockets
