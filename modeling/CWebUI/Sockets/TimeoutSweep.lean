import CWebUI.Sockets.SweepRuns

set_option autoImplicit false

/-! # The timeout sweep neither spins nor misjudges

A socket whose deadline has passed, but which has input waiting, is spared once. Behind that stands
the theorem about the timeout sweep, and what happens to containers that it does not speak of: with
a websocket that has received something after the second of the sweep, a ping of this second counts
as answered at once, and with enough of them the sweeps of the second do not end.

A sweep is made only where the clock works, so `now` is not 0 (`eventLoopAfterDispatch`).
-/

namespace CWebUI.Timeouts

open CWebUI.Sockets (SockId ExternHandle)

/-! ## A socket with input -/

/-- The close list is not full when the walk comes to the socket. -/
def Reached (cfg : TimeoutConfig) (now : UInt32) (t : Container) (a : SockId) : Prop :=
  ∃ t₁ c₁, collect cfg now (t.ids.takeWhile (· ≠ a)) { t with loopSweepPending := false } {} =
    some (t₁, c₁) ∧ c₁.closeList.length < connSweepMax

/-- What is added to the close list, and where the walk ends. -/
theorem takeAction_closes (now : UInt32) (a : SockId) (action : ConnAction) (sock : TimedSocket)
    (t : Container) (c : Collected) :
    c.closeList <+: (takeAction now a action sock t c).2.1.closeList ∧
      (c.closeList.length = connSweepMax →
        (takeAction now a action sock t c).2.1.closeList = c.closeList) ∧
      ((takeAction now a action sock t c).2.2 = false →
        (takeAction now a action sock t c).2.1.closeList.length = connSweepMax) := by
  unfold takeAction
  split
  · exact ⟨List.prefix_rfl, fun _ => rfl, by simp⟩
  · split_ifs
    · exact ⟨List.prefix_rfl, fun _ => rfl, by simp⟩
    · exact ⟨List.prefix_rfl, fun _ => rfl, by simp⟩
  · split_ifs with h1 h2
    · exact ⟨List.prefix_rfl, fun _ => rfl, by simp⟩
    · exact ⟨List.prefix_rfl, fun _ => rfl, fun _ => h2⟩
    · exact ⟨List.prefix_append _ _, fun h => absurd h h2, by simp⟩

/-- One round of the walk. -/
theorem collect_cons_some {cfg : TimeoutConfig} {now : UInt32} {a : SockId} {ids : List SockId}
    {t : Container} {c : Collected} {r : Container × Collected}
    (h : collect cfg now (a :: ids) t c = some r) :
    ∃ sock action sock' proxies, t.socks a = some sock ∧
      connTimeoutAction cfg now t.proxies sock = some (action, sock', proxies) ∧
      (if (takeAction now a action sock' (t.visit a sock' proxies) c).2.2 then
        collect cfg now ids (takeAction now a action sock' (t.visit a sock' proxies) c).1
          (takeAction now a action sock' (t.visit a sock' proxies) c).2.1
      else some ((takeAction now a action sock' (t.visit a sock' proxies) c).1,
        (takeAction now a action sock' (t.visit a sock' proxies) c).2.1)) = some r := by
  rw [collect] at h
  simp only [Option.bind_eq_bind, Option.bind_eq_some_iff] at h
  obtain ⟨sock, hsock, ⟨action, sock', proxies⟩, haction, hrest⟩ := h
  exact ⟨sock, action, sock', proxies, hsock, haction, hrest⟩

/-- A full close list stays as it is. -/
theorem collect_full {cfg : TimeoutConfig} {now : UInt32} (ids : List SockId) {t t' : Container}
    {c c' : Collected} (hfull : c.closeList.length = connSweepMax)
    (h : collect cfg now ids t c = some (t', c')) : c'.closeList = c.closeList := by
  induction ids generalizing t c with
  | nil =>
      rw [collect, Option.some.injEq, Prod.mk.injEq] at h
      rw [h.2]
  | cons a ids ih =>
      obtain ⟨sock, action, sock', proxies, -, -, hrest⟩ := collect_cons_some h
      have hkeep := (takeAction_closes now a action sock' (t.visit a sock' proxies) c).2.1 hfull
      split_ifs at hrest with hmore
      · rw [ih (by rw [hkeep, hfull]) hrest, hkeep]
      · rw [Option.some.injEq, Prod.mk.injEq] at hrest
        rw [← hrest.2, hkeep]

/-- The close list only grows. -/
theorem collected_before {cfg : TimeoutConfig} {now : UInt32} (ids : List SockId) {t t' : Container}
    {c c' : Collected} (h : collect cfg now ids t c = some (t', c')) :
    c.closeList <+: c'.closeList := by
  induction ids generalizing t c with
  | nil =>
      rw [collect, Option.some.injEq, Prod.mk.injEq] at h
      exact h.2 ▸ List.prefix_rfl
  | cons a ids ih =>
      obtain ⟨sock, action, sock', proxies, -, -, hrest⟩ := collect_cons_some h
      have hgrow := (takeAction_closes now a action sock' (t.visit a sock' proxies) c).1
      split_ifs at hrest with hmore
      · exact hgrow.trans (ih hrest)
      · rw [Option.some.injEq, Prod.mk.injEq] at hrest
        rwa [← hrest.2]

/-- The walk goes on behind a list that has not filled the close list. -/
theorem collect_append_of_lt {cfg : TimeoutConfig} {now : UInt32} (front back : List SockId)
    {t t₁ : Container} {c c₁ : Collected} (h : collect cfg now front t c = some (t₁, c₁))
    (hlt : c₁.closeList.length < connSweepMax) :
    collect cfg now (front ++ back) t c = collect cfg now back t₁ c₁ := by
  induction front generalizing t c with
  | nil =>
      rw [collect, Option.some.injEq, Prod.mk.injEq] at h
      rw [List.nil_append, h.1, h.2]
  | cons a front ih =>
      obtain ⟨sock, action, sock', proxies, hsock, haction, hrest⟩ := collect_cons_some h
      split_ifs at hrest with hmore
      · rw [List.cons_append, collect]
        simp only [Option.bind_eq_bind]
        rw [hsock, Option.bind_some, haction, Option.bind_some]
        dsimp only
        rw [if_pos hmore, ih hrest]
      · have hfull := (takeAction_closes now a action sock' (t.visit a sock' proxies) c).2.2
          (by simpa using hmore)
        rw [Option.some.injEq, Prod.mk.injEq] at hrest
        rw [hrest.2] at hfull
        omega

/-- The walk adds nothing behind a list that has filled the close list. -/
theorem collect_append_of_full {cfg : TimeoutConfig} {now : UInt32} (front back : List SockId)
    {t t₁ t' : Container} {c c₁ c' : Collected} (h : collect cfg now front t c = some (t₁, c₁))
    (hfull : c₁.closeList.length = connSweepMax)
    (h' : collect cfg now (front ++ back) t c = some (t', c')) : c'.closeList = c₁.closeList := by
  induction front generalizing t c with
  | nil =>
      rw [collect, Option.some.injEq, Prod.mk.injEq] at h
      obtain ⟨rfl, rfl⟩ := h
      exact collect_full back hfull h'
  | cons a front ih =>
      obtain ⟨sock, action, sock', proxies, hsock, haction, hrest⟩ := collect_cons_some h
      rw [List.cons_append, collect] at h'
      simp only [Option.bind_eq_bind] at h'
      rw [hsock, Option.bind_some, haction, Option.bind_some] at h'
      dsimp only at h'
      split_ifs at hrest h' with hmore
      · exact ih hrest h'
      · rw [Option.some.injEq, Prod.mk.injEq] at hrest h'
        rw [← hrest.2, ← h'.2]

/-- A quiet backend has no deadline. -/
theorem idleExpired_of_quiet {cfg : TimeoutConfig} {now : UInt32} {proxies : ProxyMemory}
    {sock : TimedSocket} (h : quietBackend sock = true) :
    idleExpired cfg now proxies sock = false := by
  unfold quietBackend at h
  unfold idleExpired
  rw [Bool.and_eq_false_iff]
  refine Or.inr ?_
  simp only [Bool.and_eq_true, Bool.or_eq_true, decide_eq_true_eq] at h
  rcases h.1.1.1 with hhandle | ⟨hhandle, hheader⟩
  · simp [hhandle]
  · simp [hhandle, hheader]

theorem takeWhile_ne_append {a : SockId} {ids : List SockId} (ha : a ∈ ids) :
    ∃ back, ids = ids.takeWhile (· ≠ a) ++ a :: back ∧ a ∉ ids.takeWhile (· ≠ a) := by
  obtain ⟨front, back, rfl, hfront⟩ := List.eq_append_cons_of_mem ha
  have htake : (front ++ a :: back).takeWhile (· ≠ a) = front := by
    rw [List.takeWhile_append_of_pos fun b hb => ?_, List.takeWhile_cons_of_neg (by simp),
      List.append_nil]
    simpa using fun heq : b = a => hfront (heq ▸ hb)
  rw [htake]
  exact ⟨back, rfl, hfront⟩

/-- **Which sockets are put into the close list** of those whose deadline has passed. -/
theorem mem_closes_iff {cfg : TimeoutConfig} {now : UInt32} {t t₁ : Container}
    {closes : List (SockId × Bool)} {pings : List SockId} (h : Sound t)
    (hcollect : collect cfg now t.ids { t with loopSweepPending := false } {} =
      some (t₁, ⟨closes, pings⟩)) {a : SockId} {sock : TimedSocket} (ha : a ∈ t.ids)
    (hsock : t.socks a = some sock) (hidle : idleExpired cfg now t.proxies sock = true) :
    a ∈ closes.map Prod.fst ↔
      Reached cfg now t a ∧ (sock.sparedAt = 0 ∨ ¬ now - sock.sparedAt < 2) := by
  have h₀ : Sound { t with loopSweepPending := false } := ⟨h.nodup, h.live, h.proxy, h.backend⟩
  obtain ⟨back, hids, hfront⟩ := takeWhile_ne_append ha
  obtain ⟨t₂, closes₂, pings₂, hwalk₂, hspec₂⟩ := collect_spec cfg now (t.ids.takeWhile (· ≠ a))
    { t with loopSweepPending := false } {} (h.nodup.sublist (List.takeWhile_sublist _))
    (fun b hb => h₀.allLive b ((List.takeWhile_sublist _).subset hb)) (by simp) (by simp)
  simp only [List.nil_append] at hwalk₂
  have hle := hspec₂.closes_le
  simp only [List.nil_append] at hle
  have hsock₂ : t₂.socks a = some sock := (hspec₂.others a hfront).trans hsock
  have hsplit : collect cfg now (t.ids.takeWhile (· ≠ a) ++ a :: back)
      { t with loopSweepPending := false } {} = some (t₁, ⟨closes, pings⟩) := by
    rw [← hids]
    exact hcollect
  have hreached : Reached cfg now t a ↔ closes₂.length < connSweepMax := by
    constructor
    · rintro ⟨t₃, c₃, hwalk₃, hlt⟩
      rw [hwalk₂, Option.some.injEq, Prod.mk.injEq] at hwalk₃
      rwa [← hwalk₃.2] at hlt
    · exact fun hlt => ⟨t₂, _, hwalk₂, hlt⟩
  rw [hreached]
  rcases Nat.lt_or_ge closes₂.length connSweepMax with hlt | hge
  · -- the walk goes on with the socket
    have hwalk := collect_append_of_lt _ (a :: back) hwalk₂ hlt
    rw [hsplit] at hwalk
    obtain ⟨sock', action, sock₁, proxies, hsock', haction, hrest⟩ := collect_cons_some hwalk.symm
    obtain rfl := Option.some.inj (hsock'.symm.trans hsock₂)
    have hv := connTimeoutAction_visit haction
    have hact : action = .closeIfIdle :=
      hv.idle.mpr ((hspec₂.core.idleExpired_eq cfg now rfl).trans hidle)
    subst hact
    obtain ⟨t₃, closes₃, pings₃, hwalk₃, hspec₃⟩ := collect_spec cfg now t.ids
      { t with loopSweepPending := false } {} h.nodup h₀.allLive (by simp) (by simp)
    rw [hcollect] at hwalk₃
    obtain ⟨sock₃, -, hw⟩ := hspec₃.walked a ha sock' hsock
    constructor
    · intro hmem
      obtain ⟨⟨b, ifIdle⟩, hentry, rfl⟩ := List.mem_map.mp hmem
      have hin : (b, ifIdle) ∈ closes₃ := by
        simp only [List.nil_append, Option.some.injEq, Prod.mk.injEq, Collected.mk.injEq] at hwalk₃
        rwa [← hwalk₃.2.1]
      obtain ⟨hidle', hspared⟩ := hw.close ifIdle hin
      exact ⟨hlt, hspared (hidle'.trans hidle)⟩
    · rintro ⟨-, hspared⟩
      have htaken : (takeAction now a .closeIfIdle sock₁ (t₂.visit a sock₁ proxies)
          ⟨closes₂, pings₂⟩) = (t₂.visit a sock₁ proxies, ⟨closes₂ ++ [(a, true)], pings₂⟩, true) := by
        have hskip : ¬ (sock₁.sparedAt ≠ 0 ∧ now - sock₁.sparedAt < 2) := by
          rw [hv.sparedAt]
          tauto
        unfold takeAction
        dsimp only
        rw [if_neg (by simpa using hskip), if_neg (by simpa using Nat.ne_of_lt hlt)]
        rfl
      rw [htaken] at hrest
      dsimp only at hrest
      rw [if_pos rfl] at hrest
      have hin : (a, true) ∈ closes := (collected_before back hrest).subset (by simp)
      exact List.mem_map_of_mem (f := Prod.fst) hin
  · have hfull : closes₂.length = connSweepMax := by omega
    have hsame := collect_append_of_full _ (a :: back) hwalk₂ hfull hsplit
    dsimp only at hsame
    rw [hsame]
    refine iff_of_false (fun hmem => hfront (hspec₂.closes_sub.subset hmem)) ?_
    rw [hfull]
    simp

/-- The deadline of a socket has passed at a sweep, and it has input waiting. -/
structure Waiting (cfg : TimeoutConfig) (now : UInt32) (connHasPendingInput : SockId → Bool)
    (t : Container) (a : SockId) (sock : TimedSocket) : Prop where
  clock : now ≠ 0
  sound : Sound t
  listed : a ∈ t.ids
  record : t.socks a = some sock
  expired : idleExpired cfg now t.proxies sock = true
  input : connHasPendingInput a = true

/-- A socket that waits with input is closed by a sweep that reaches it two seconds after it was
spared, and is else spared if it is reached for the first time. -/
theorem Waiting.sweep {cfg : TimeoutConfig} {now : UInt32} {connHasPendingInput : SockId → Bool}
    {t t' : Container} {a : SockId} {sock : TimedSocket}
    (h : Waiting cfg now connHasPendingInput t a sock)
    (hsweep : connTimeoutSweep cfg now connHasPendingInput t = some t') :
    (a ∉ t'.ids ↔ Reached cfg now t a ∧ sock.sparedAt ≠ 0 ∧ ¬ now - sock.sparedAt < 2) ∧
      (a ∉ t'.ids → t'.socks a = none) ∧
      (a ∈ t'.ids → ∃ sock', t'.socks a = some sock' ∧
        (Reached cfg now t a → sock.sparedAt = 0 → sock'.sparedAt = now) ∧
        (¬ Reached cfg now t a ∨ sock.sparedAt ≠ 0 → sock'.sparedAt = sock.sparedAt)) := by
  obtain ⟨hclock, hsound, hlisted, hsock, hexpired, hinput⟩ := h
  obtain ⟨t'', t₁, closes, pings, heq, hcollect, -, -, hspec⟩ :=
    connTimeoutSweep_spec cfg now connHasPendingInput hsound
  obtain rfl := Option.some.inj (hsweep.symm.trans heq)
  have hmem := mem_closes_iff hsound hcollect hlisted hsock hexpired
  obtain ⟨sock₁, hw, hafter⟩ := hspec.walked a hlisted sock hsock
  have hkeep : sock₁.sparedAt = sock.sparedAt := by
    rcases hw.sparedAt with heq | ⟨-, hnot⟩
    · exact heq
    · rw [hexpired] at hnot
      exact absurd hnot (by simp)
  -- in the close list, it is spared or closed; else it stays
  have hstays : a ∈ t'.ids ↔ a ∉ closes.map Prod.fst ∨ sock.sparedAt = 0 := by
    by_cases hin : a ∈ closes.map Prod.fst
    · obtain ⟨⟨b, ifIdle⟩, hentry, rfl⟩ := List.mem_map.mp hin
      rw [hspec.entry b ifIdle sock hentry hsock]
      have hidle : ifIdle = true := (hw.close ifIdle hentry).1.trans hexpired
      simp [Spares, hidle, hinput, hin]
    · refine iff_of_true ?_ (Or.inl hin)
      by_contra hgone
      rcases hspec.gone a hlisted hgone with h1 | ⟨c, hc, -, hback⟩
      · exact hin h1
      · obtain ⟨s, hs⟩ := hsound.live c (hspec.closes_sub.subset hc)
        obtain ⟨p, proxy, -, hproxy, hb⟩ := backendOf_some hs hback
        obtain ⟨-, -, s', hs', -, hquiet, -⟩ := hsound.backend p proxy a hproxy hb
        obtain rfl := Option.some.inj (hs'.symm.trans hsock)
        rw [idleExpired_of_quiet hquiet] at hexpired
        exact absurd hexpired (by simp)
  refine ⟨?_, hspec.freed a hlisted, fun ha => ⟨_, hafter ha, fun hr hzero => ?_, fun hor => ?_⟩⟩
  · rw [hstays, hmem]
    tauto
  · exact finish_sparedAt_of_mem _ (hmem.mpr ⟨hr, Or.inl hzero⟩)
  · rw [finish_sparedAt, hkeep]
    rw [hstays, hmem] at ha
    rw [hmem]
    tauto

/-- Events between two sweeps: anything may happen, but the socket stays, and the time when it was
spared is written by sweeps only. -/
structure Events (t t' : Container) (a : SockId) : Prop where
  sparedAt : ∀ sock sock', t.socks a = some sock → t'.socks a = some sock' →
    sock'.sparedAt = sock.sparedAt

/-- A run of sweeps at which the deadline of a socket has passed and it has input waiting, with the
times of those that have reached it. It has not been closed yet. -/
inductive WaitRun (cfg : TimeoutConfig) (a : SockId) (t₀ : Container) :
    List UInt32 → Container → Prop
  | start : WaitRun cfg a t₀ [] t₀
  | missed {times : List UInt32} {t t₁ t₂ : Container} {now : UInt32}
      {connHasPendingInput : SockId → Bool} {sock : TimedSocket} :
      WaitRun cfg a t₀ times t → Events t t₁ a → Waiting cfg now connHasPendingInput t₁ a sock →
      ¬ Reached cfg now t₁ a → connTimeoutSweep cfg now connHasPendingInput t₁ = some t₂ →
      a ∈ t₂.ids → WaitRun cfg a t₀ times t₂
  | reached {times : List UInt32} {t t₁ t₂ : Container} {now : UInt32}
      {connHasPendingInput : SockId → Bool} {sock : TimedSocket} :
      WaitRun cfg a t₀ times t → Events t t₁ a → Waiting cfg now connHasPendingInput t₁ a sock →
      Reached cfg now t₁ a → connTimeoutSweep cfg now connHasPendingInput t₁ = some t₂ →
      a ∈ t₂.ids → WaitRun cfg a t₀ (times ++ [now]) t₂

/-- **A socket that waits is spared once**, by the first sweep that reaches it, and the others have
come before two seconds were over. -/
theorem WaitRun.spared {cfg : TimeoutConfig} {a : SockId} {t₀ t : Container} {times : List UInt32}
    (h : WaitRun cfg a t₀ times t) {sock₀ : TimedSocket} (hsock₀ : t₀.socks a = some sock₀)
    (hzero : sock₀.sparedAt = 0) :
    ∃ sock, t.socks a = some sock ∧ sock.sparedAt = times.headD 0 ∧ (∀ now ∈ times, now ≠ 0) ∧
      ∀ now ∈ times.tail, now - times.headD 0 < 2 := by
  induction h with
  | start => exact ⟨sock₀, hsock₀, hzero, by simp, by simp⟩
  | @missed times t t₁ t₂ now pend sock hrun hevents hwait hreach hsweep hin ih =>
      obtain ⟨s, hs, hat, hne, hsoon⟩ := ih
      have hsame := hevents.sparedAt s sock hs hwait.record
      obtain ⟨s', hs', -, hkeep⟩ := (hwait.sweep hsweep).2.2 hin
      exact ⟨s', hs', by rw [hkeep (Or.inl hreach), hsame, hat], hne, hsoon⟩
  | @reached times t t₁ t₂ now pend sock hrun hevents hwait hreach hsweep hin ih =>
      obtain ⟨s, hs, hat, hne, hsoon⟩ := ih
      have hsame := hevents.sparedAt s sock hs hwait.record
      obtain ⟨hclosed, -, hstay⟩ := hwait.sweep hsweep
      obtain ⟨s', hs', hfirst, hkeep⟩ := hstay hin
      have hne' : ∀ time ∈ times ++ [now], time ≠ 0 := by
        intro time htime
        rcases List.mem_append.mp htime with htime | htime
        · exact hne time htime
        · rw [List.mem_singleton.mp htime]
          exact hwait.clock
      cases times with
      | nil =>
          exact ⟨s', hs', hfirst hreach (hsame.trans hat), hne', by simp⟩
      | cons first times =>
          have hspared : sock.sparedAt = first := hsame.trans hat
          have hpos : sock.sparedAt ≠ 0 := by
            rw [hspared]
            exact hne first (by simp)
          refine ⟨s', hs', by rw [hkeep (Or.inr hpos), hspared]; rfl, hne', fun time htime => ?_⟩
          rw [List.cons_append, List.tail_cons] at htime
          rcases List.mem_append.mp htime with htime | htime
          · exact hsoon time htime
          · rw [List.mem_singleton.mp htime, List.cons_append, List.headD_cons]
            by_contra hlate
            exact hclosed.mpr ⟨hreach, hpos, by rw [hspared]; exact hlate⟩ hin

/-- It is closed by the next sweep that reaches it two seconds after it was spared. -/
theorem WaitRun.closed {cfg : TimeoutConfig} {a : SockId} {t₀ t t₁ t₂ : Container}
    {times : List UInt32} {now : UInt32} {connHasPendingInput : SockId → Bool}
    {sock₀ sock : TimedSocket} (h : WaitRun cfg a t₀ times t) (hsock₀ : t₀.socks a = some sock₀)
    (hzero : sock₀.sparedAt = 0) (hevents : Events t t₁ a)
    (hwait : Waiting cfg now connHasPendingInput t₁ a sock)
    (hsweep : connTimeoutSweep cfg now connHasPendingInput t₁ = some t₂) :
    a ∉ t₂.ids ↔ Reached cfg now t₁ a ∧ times ≠ [] ∧ ¬ now - times.headD 0 < 2 := by
  obtain ⟨s, hs, hat, hne, -⟩ := h.spared hsock₀ hzero
  have hspared : sock.sparedAt = times.headD 0 := (hevents.sparedAt s sock hs hwait.record).trans hat
  rw [(hwait.sweep hsweep).1, hspared]
  cases times with
  | nil => simp
  | cons first times => simp [hne first (by simp)]

/-! ## The timeout sweep -/

/-- `CONN_SWEEP_MAX` sockets have been picked for closing, and each is closed or spared. -/
def FilledClose (now : UInt32) (t t' : Container) : Prop :=
  ∃ picked : List SockId, picked.length = connSweepMax ∧ picked.Nodup ∧
    ∀ a ∈ picked, a ∈ t.ids ∧
      (a ∉ t'.ids ∧ t'.socks a = none ∨
        a ∈ t'.ids ∧ ∃ sock sock', t.socks a = some sock ∧ t'.socks a = some sock' ∧
          sock.sparedAt = 0 ∧ sock'.sparedAt = now)

/-- `CONN_SWEEP_MAX` websockets have been pinged. -/
def FilledPing (now : UInt32) (t t' : Container) : Prop :=
  ∃ picked : List SockId, picked.length = connSweepMax ∧ picked.Nodup ∧
    ∀ a ∈ picked, a ∈ t.ids ∧ a ∈ t'.ids ∧
      ∃ sock sock', t.socks a = some sock ∧ t'.socks a = some sock' ∧ Pinged now sock sock'

theorem SweepSpec.filled {cfg : TimeoutConfig} {now : UInt32} {connHasPendingInput : SockId → Bool}
    {closes : List (SockId × Bool)} {pings : List SockId} {t t' : Container}
    (h : SweepSpec cfg now connHasPendingInput closes pings t t') (hsound : Sound t)
    (hpending : t'.loopSweepPending = true) : FilledClose now t t' ∨ FilledPing now t t' := by
  rcases h.pending hpending with hfull | hfull
  · exact Or.inl ⟨closes.map Prod.fst, by rw [List.length_map, hfull],
      hsound.nodup.sublist h.closes_sub, fun a ha => h.closed hsound ha⟩
  · exact Or.inr ⟨pings, hfull, hsound.nodup.sublist h.pings_sub, fun a ha => h.pinged hsound ha⟩

/-- **The timeout sweep neither spins nor misjudges.** A sweep leaves more to do only when it has
filled a list, and no listener or quiet backend is picked, so a backend goes only with its client.
If no websocket has received something after `now`, the sweeps of a second come to an end. And a
socket that waits with input is spared once, and closed by the next sweep that reaches it two
seconds later. -/
theorem timeout_sweep (cfg : TimeoutConfig) (now : UInt32) (hnow : now ≠ 0) (t : Container)
    (h : Sound t) :
    (∀ connHasPendingInput, ∃ t', connTimeoutSweep cfg now connHasPendingInput t = some t' ∧
      (t'.loopSweepPending = true → FilledClose now t t' ∨ FilledPing now t t') ∧
      ∀ a ∈ t.ids, ∀ sock, t.socks a = some sock →
        sock.server = true ∨ quietBackend sock = true →
          a ∈ t'.ids ∨ sock.server = false ∧ ∃ c ∈ t.ids, c ∉ t'.ids ∧ backendOf t c = some a) ∧
    (RxBehind now t → ∀ connHasPendingInput, ∃ n t', 0 < n ∧ n ≤ 3 * t.ids.length + 1 ∧
      sweeps cfg now connHasPendingInput n t = some t' ∧ t'.loopSweepPending = false) ∧
    ∀ a sock, t.socks a = some sock → sock.sparedAt = 0 → ∀ times t₁, WaitRun cfg a t times t₁ →
      (∃ sock₁, t₁.socks a = some sock₁ ∧ sock₁.sparedAt = times.headD 0 ∧
        ∀ time ∈ times.tail, time - times.headD 0 < 2) ∧
      ∀ time connHasPendingInput t₂ t₃ sock₂, Events t₁ t₂ a →
        Waiting cfg time connHasPendingInput t₂ a sock₂ →
        connTimeoutSweep cfg time connHasPendingInput t₂ = some t₃ →
          (a ∉ t₃.ids ↔ Reached cfg time t₂ a ∧ times ≠ [] ∧ ¬ time - times.headD 0 < 2) := by
  refine ⟨fun pend => ?_, fun hrx pend => ?_, fun a sock hsock hzero times t₁ hrun => ⟨?_, ?_⟩⟩
  · obtain ⟨t', -, closes, pings, heq, -, -, -, hspec⟩ := connTimeoutSweep_spec cfg now pend h
    exact ⟨t', heq, hspec.filled h,
      fun a ha sock hsock hu => (hspec.unpicked h ha hsock hu).2.2⟩
  · obtain ⟨n, t', hpos, hle, heq, hend⟩ := sweeps_end cfg hnow pend h hrx
    exact ⟨n, t', hpos, hle.trans (Nat.succ_le_succ (work_le cfg now t)), heq, hend⟩
  · obtain ⟨sock₁, hsock₁, hat, -, hsoon⟩ := hrun.spared hsock hzero
    exact ⟨sock₁, hsock₁, hat, hsoon⟩
  · exact fun time pend t₂ t₃ sock₂ hevents hwait hsweep =>
      hrun.closed hsock hzero hevents hwait hsweep

/-- A client of a proxy connection that has taken nothing for long, and its backend. -/
def proxyPair (backendClosing : Bool) : Container where
  ids := [0, 1]
  socks := fun a =>
    match a with
    | 0 => some
        { externHandle := .reverseProxyClient
          externHandleDataPtr := some 0
          rxAt := 1
          txAt := 1 }
    | 1 => some
        { externHandle := .reverseProxyBackend
          externHandleDataPtr := some 0
          closeSocket := backendClosing
          rxAt := 1
          txAt := 1 }
    | _ => none
  proxies := fun p =>
    match p with
    | 0 => some
        { state := .streaming
          timedState := .streaming
          backendAt := 1
          clientSock := some 0
          backendSock := some 1 }
    | _ => none

theorem proxyPair_sound : Sound (proxyPair false) := by
  refine ⟨by decide, fun a ha => ?_, fun a ha sock p hsock hp => ?_, fun p proxy b hproxy hb => ?_⟩
  · simp only [proxyPair, List.mem_cons, List.not_mem_nil, or_false] at ha
    rcases ha with rfl | rfl
    · exact ⟨_, rfl⟩
    · exact ⟨_, rfl⟩
  · simp only [proxyPair, List.mem_cons, List.not_mem_nil, or_false] at ha
    rcases ha with rfl | rfl
    · cases hsock
      cases hp
      exact ⟨_, rfl, Or.inl rfl⟩
    · cases hsock
      cases hp
      exact ⟨_, rfl, Or.inr rfl⟩
  · cases p with
    | zero =>
        cases hproxy
        cases hb
        exact ⟨by decide, by decide, _, rfl, rfl, rfl, rfl⟩
    | succ p => exact absurd hproxy (by simp [proxyPair])

theorem timeout_sweep_pair : ∃ n t', 0 < n ∧ n ≤ 7 ∧
    sweeps {} 1000 (fun _ _ => true) n (proxyPair false) = some t' ∧
      t'.loopSweepPending = false := by
  refine (timeout_sweep {} 1000 (by decide) (proxyPair false) proxyPair_sound).2.1 ?_ (fun _ _ => true)
  intro a ha sock hsock hws
  simp only [proxyPair, List.mem_cons, List.not_mem_nil, or_false] at ha
  rcases ha with rfl | rfl
  · cases hsock
    exact absurd hws (by simp)
  · cases hsock
    exact absurd hws (by simp)

/-! ## Websockets that are ahead of the sweep -/

/-- The limit for output that is not taken is switched off. -/
def patientConfig : TimeoutConfig := { toSendIdle := 0 }

/-- A websocket that has received something after the second 1000. It is not pinged, or the ping of
this second is answered already. -/
structure Ahead (sock : TimedSocket) : Prop where
  server : sock.server = false
  header : sock.header.isSome = true
  dataPtr : sock.externHandleDataPtr = none
  output : sock.outputListEmpty = true
  websocket : sock.isWebsocket = true
  closing : sock.closeSocket = false
  rxAt : sock.rxAt = 1001
  pingAt : sock.wsPingAt = 0 ∨ sock.wsPingAt = 1000

theorem Ahead.ping {sock : TimedSocket} (h : Ahead sock) (outWaiting out : Bool) :
    ∃ sock', connTimeoutPing patientConfig 1000 sock outWaiting out =
        (if sock.wsPingAt = 0 then .ping else .keep, sock') ∧
      Ahead sock' ∧ sock'.wsPingAt = 0 := by
  rw [connTimeoutPing, if_neg (by simp [h.closing])]
  rcases h.pingAt with hzero | hpinged
  · have hexpired : connExpired 1000 sock.rxAt patientConfig.toWsPingIdle = true := by
      rw [h.rxAt]
      decide
    rw [if_neg (by simp [hzero]), if_pos hzero, hexpired]
    exact ⟨sock, rfl, h, hzero⟩
  · have hanswer : 0 ≤ (sock.rxAt - sock.wsPingAt).toInt32 := by
      rw [h.rxAt, hpinged]
      decide
    have hne : sock.wsPingAt ≠ 0 := by
      rw [hpinged]
      decide
    rw [if_pos hne, if_neg hne, awaitPong, if_pos hanswer]
    exact ⟨_, rfl, ⟨h.server, h.header, h.dataPtr, h.output, h.websocket, h.closing, h.rxAt,
      Or.inl rfl⟩, rfl⟩

/-- It is pinged, or its ping is answered. -/
theorem Ahead.visit {sock : TimedSocket} (h : Ahead sock) (proxies : ProxyMemory) :
    ∃ sock', connTimeoutAction patientConfig 1000 proxies sock =
        some (if sock.wsPingAt = 0 then .ping else .keep, sock', proxies) ∧
      Ahead sock' ∧ sock'.wsPingAt = 0 := by
  have hheader : sock.header ≠ none := Option.isSome_iff_ne_none.mp h.header
  have hoff : ∀ since, connExpired 1000 since patientConfig.toSendIdle = false := fun _ => rfl
  obtain ⟨since, hnote⟩ := noteOutSince_eq 1000 sock (!sock.websocketChunkList.isEmpty)
  have hahead : Ahead { sock with wsOutSince := since } :=
    ⟨h.server, h.header, h.dataPtr, h.output, h.websocket, h.closing, h.rxAt, h.pingAt⟩
  obtain ⟨sock', hping, hahead', hzero⟩ :=
    hahead.ping (!sock.websocketChunkList.isEmpty) (pingOut sock)
  refine ⟨sock', ?_, hahead', hzero⟩
  rw [connTimeoutAction, if_neg (by simp [h.server]), if_neg (by simp [hheader]),
    if_neg (by simp [h.output]), if_pos h.websocket, connTimeoutWebsocket, hoff, Bool.and_false,
    if_neg (by simp), hnote, hping]

/-- The websocket is not pinged. -/
def unpinged (t : Container) (a : SockId) : Bool := (t.socks a).any (fun sock => sock.wsPingAt = 0)

/-- One of them is looked at: it is collected, or there is more to do, or it was not to be
pinged. -/
theorem takeAction_ahead {a : SockId} {t : Container} {c : Collected} {sock sock' : TimedSocket}
    (hsock : t.socks a = some sock) (hah : Ahead sock') (hzero : sock'.wsPingAt = 0)
    (hlen : c.pingList.length ≤ connSweepMax) :
    ∃ t' c', takeAction 1000 a (if sock.wsPingAt = 0 then .ping else .keep) sock'
        (t.visit a sock' t.proxies) c = (t', c', true) ∧
      c'.closeList = c.closeList ∧ c'.pingList.length ≤ connSweepMax ∧
      (t.loopSweepPending = true → t'.loopSweepPending = true) ∧
      (t'.loopSweepPending = true ∨
        c.pingList.length + (unpinged t a).toNat ≤ c'.pingList.length) ∧
      (∀ b, b ≠ a → t'.socks b = t.socks b) ∧
      ∃ s, t'.socks a = some s ∧ Ahead s ∧ s.wsPingAt = 0 := by
  have hunpinged : unpinged t a = decide (sock.wsPingAt = 0) := by rw [unpinged, hsock]; rfl
  rw [hunpinged]
  by_cases hping : sock.wsPingAt = 0
  · rw [if_pos hping, decide_eq_true hping, takeAction]
    split_ifs with hlt
    · refine ⟨_, _, rfl, rfl, ?_, id, Or.inr ?_, fun b hb => visit_others t.proxies hb, sock',
        visit_self t.proxies, hah, hzero⟩
      · rw [List.length_append, List.length_singleton]
        omega
      · rw [List.length_append, List.length_singleton, Bool.toNat_true]
    · exact ⟨_, _, rfl, rfl, hlen, fun _ => rfl, Or.inl rfl, fun b hb => visit_others t.proxies hb,
        sock', visit_self t.proxies, hah, hzero⟩
  · rw [if_neg hping, decide_eq_false hping, takeAction]
    refine ⟨_, _, rfl, rfl, hlen, id, Or.inr (Nat.le_refl _), fun b hb => ?_, _, setSock_self,
      ⟨hah.server, hah.header, hah.dataPtr, hah.output, hah.websocket, hah.closing, hah.rxAt,
        hah.pingAt⟩, hzero⟩
    rw [setSock_others hb, visit_others t.proxies hb]

/-- **The walk over such websockets**: when there are more to ping than the list takes, the sweep
leaves more to do. -/
theorem collect_ahead (ids : List SockId) {t t' : Container} {c c' : Collected}
    (hnodup : ids.Nodup) (hahead : ∀ a ∈ ids, ∃ sock, t.socks a = some sock ∧ Ahead sock)
    (hlen : c.pingList.length ≤ connSweepMax)
    (h : collect patientConfig 1000 ids t c = some (t', c')) :
    c'.closeList = c.closeList ∧ c'.pingList.length ≤ connSweepMax ∧
      (t.loopSweepPending = true ∨ connSweepMax < c.pingList.length + ids.countP (unpinged t) →
        t'.loopSweepPending = true) ∧
      (∀ b, b ∉ ids → t'.socks b = t.socks b) ∧
      ∀ a ∈ ids, ∃ sock, t'.socks a = some sock ∧ Ahead sock ∧ sock.wsPingAt = 0 := by
  induction ids generalizing t c with
  | nil =>
      rw [collect, Option.some.injEq, Prod.mk.injEq] at h
      obtain ⟨rfl, rfl⟩ := h
      refine ⟨rfl, hlen, fun hp => ?_, fun _ _ => rfl, by simp⟩
      rcases hp with hp | hp
      · exact hp
      · simp only [List.countP_nil] at hp
        omega
  | cons a ids ih =>
      obtain ⟨ha, hids⟩ := List.nodup_cons.mp hnodup
      obtain ⟨sock, hsock, hah⟩ := hahead a (by simp)
      obtain ⟨sock', haction, hah', hzero⟩ := hah.visit t.proxies
      obtain ⟨s, action, s', proxies, hs, haction', hrest⟩ := collect_cons_some h
      obtain rfl := Option.some.inj (hs.symm.trans hsock)
      rw [haction, Option.some.injEq, Prod.mk.injEq, Prod.mk.injEq] at haction'
      obtain ⟨rfl, rfl, rfl⟩ := haction'
      obtain ⟨t₁, c₁, htake, hcl, hlen₁, hkeep, hcount, hothers, s₁, hs₁, hah₁, hzero₁⟩ :=
        takeAction_ahead hs hah' hzero hlen
      rw [htake] at hrest
      dsimp only at hrest
      rw [if_pos rfl] at hrest
      have hsame : ∀ b ∈ ids, t₁.socks b = t.socks b :=
        fun b hb => hothers b fun heq => ha (heq ▸ hb)
      obtain ⟨hcl', hlen', hpend, hout, hin⟩ := ih hids
        (fun b hb => by rw [hsame b hb]; exact hahead b (by simp [hb])) hlen₁ hrest
      have hcountP : ids.countP (unpinged t₁) = ids.countP (unpinged t) :=
        List.countP_congr fun b hb => by rw [unpinged, unpinged, hsame b hb]
      refine ⟨hcl'.trans hcl, hlen', fun hp => hpend ?_, fun b hb => ?_, fun b hb => ?_⟩
      · rw [hcountP]
        rcases hp with hp | hp
        · exact Or.inl (hkeep hp)
        · refine hcount.imp_right fun hle => ?_
          rw [List.countP_cons] at hp
          have hone : (if unpinged t a = true then 1 else 0) = (unpinged t a).toNat := by
            cases unpinged t a <;> rfl
          omega
      · rw [List.mem_cons, not_or] at hb
        rw [hout b hb.2, hothers b hb.1]
      · rcases List.mem_cons.mp hb with rfl | hb
        · exact ⟨s₁, (hout b ha).trans hs₁, hah₁, hzero₁⟩
        · exact hin b hb

/-- The second 1000 begins with 129 websockets that are ahead of it, and at most as many as one
sweep pings have been pinged. -/
structure Spinning (t : Container) : Prop where
  ids : t.ids = List.range 129
  proxies : ∀ p, t.proxies p = none
  ahead : ∃ busy : List SockId, busy.length ≤ connSweepMax ∧ ∀ a < 129, ∃ sock,
    t.socks a = some sock ∧ Ahead sock ∧ (a ∉ busy → sock.wsPingAt = 0)

theorem Spinning.sound {t : Container} (h : Spinning t) : Sound t := by
  obtain ⟨hids, hproxies, busy, -, hahead⟩ := h
  refine ⟨by rw [hids]; exact List.nodup_range, fun a ha => ?_, fun a ha sock p hsock hp => ?_,
    fun p proxy b hproxy _ => ?_⟩
  · rw [hids, List.mem_range] at ha
    obtain ⟨sock, hsock, -⟩ := hahead a ha
    exact ⟨sock, hsock⟩
  · rw [hids, List.mem_range] at ha
    obtain ⟨s, hs, hah, -⟩ := hahead a ha
    obtain rfl := Option.some.inj (hs.symm.trans hsock)
    rw [hah.dataPtr] at hp
    exact absurd hp (by simp)
  · rw [hproxies] at hproxy
    exact absurd hproxy (by simp)

/-- More than one sweep pings have not been pinged. -/
theorem Spinning.unpinged {t : Container} (h : Spinning t) :
    connSweepMax < t.ids.countP (unpinged t) := by
  obtain ⟨hids, -, busy, hbusy, hahead⟩ := h
  rw [hids]
  have hsplit := List.length_eq_countP_add_countP (fun a => decide (a ∈ busy)) (l := List.range 129)
  have hfew : (List.range 129).countP (fun a => decide (a ∈ busy)) ≤ busy.length := by
    rw [List.countP_eq_length_filter]
    refine List.Nodup.length_le_of_subset (List.nodup_range.sublist List.filter_sublist)
      fun a ha => ?_
    simpa using (List.mem_filter.mp ha).2
  have hmany : (List.range 129).countP (fun a => ¬ decide (a ∈ busy) = true) ≤
      (List.range 129).countP (Timeouts.unpinged t) := by
    refine List.countP_mono_left fun a ha hnot => ?_
    obtain ⟨sock, hsock, -, hzero⟩ := hahead a (List.mem_range.mp ha)
    rw [Timeouts.unpinged, hsock]
    simpa using hzero (by simpa using hnot)
  rw [List.length_range] at hsplit
  have hmax : connSweepMax = 64 := rfl
  omega

/-- **A sweep of a spinning container** leaves more to do, and it goes on spinning. -/
theorem Spinning.sweep {t : Container} (h : Spinning t) (connHasPendingInput : SockId → Bool) :
    ∃ t', connTimeoutSweep patientConfig 1000 connHasPendingInput t = some t' ∧ Spinning t' ∧
      t'.loopSweepPending = true := by
  obtain ⟨t', t₁, closes, pings, heq, hcollect, hpending, hfinish, hspec⟩ :=
    connTimeoutSweep_spec patientConfig 1000 connHasPendingInput h.sound
  have hmany := h.unpinged
  have hnodup := h.sound.nodup
  obtain ⟨hids, hproxies, busy, -, hahead⟩ := h
  have hall : ∀ a ∈ t.ids, ∃ sock, t.socks a = some sock ∧ Ahead sock := by
    intro a ha
    rw [hids, List.mem_range] at ha
    obtain ⟨sock, hsock, hah, -⟩ := hahead a ha
    exact ⟨sock, hsock, hah⟩
  obtain ⟨hcl, hlen, hmore, -, hwalked⟩ :=
    collect_ahead (t := { t with loopSweepPending := false }) (c := {}) t.ids hnodup hall
      (by decide) hcollect
  -- nothing is closed
  have hcloses : closes = [] := hcl
  subst hcloses
  have hstay : ∀ a ∈ t.ids, a ∈ t'.ids := by
    intro a ha
    by_contra hgone
    rcases hspec.gone a ha hgone with hmem | ⟨c, hc, -⟩
    · exact absurd hmem (by simp)
    · exact absurd hc (by simp)
  have hids' : t'.ids = t.ids :=
    hspec.ids_sub.eq_of_length_le (List.Nodup.length_le_of_subset hnodup hstay)
  refine ⟨t', heq, ⟨hids'.trans hids, fun p => ?_, pings, hlen, fun a ha => ?_⟩, ?_⟩
  · cases hp : t'.proxies p with
    | none => rfl
    | some proxy' =>
        obtain ⟨proxy, hproxy, -⟩ := hspec.proxies p proxy' hp
        rw [hproxies] at hproxy
        exact absurd hproxy (by simp)
  · have hmem : a ∈ t.ids := by rwa [hids, List.mem_range]
    obtain ⟨sock₁, hsock₁, hah, hzero⟩ := hwalked a hmem
    refine ⟨_, hfinish a (hstay a hmem) sock₁ hsock₁, ?_, fun hnot => ?_⟩
    · have hcore := finish_core 1000 [] pings a sock₁
      have hpingAt : (finish 1000 [] pings a sock₁).wsPingAt = 0 ∨
          (finish 1000 [] pings a sock₁).wsPingAt = 1000 := by
        by_cases hin : a ∈ pings
        · exact Or.inr (finish_wsPingAt_of_mem hin hah.closing)
        · exact Or.inl ((finish_wsPingAt sock₁ hin).trans hzero)
      exact ⟨(congrArg (fun s => s.server) hcore).trans hah.server,
        (congrArg (fun s => s.header.isSome) hcore).trans hah.header,
        (congrArg (fun s => s.externHandleDataPtr) hcore).trans hah.dataPtr,
        (congrArg (fun s => s.outputListEmpty) hcore).trans hah.output,
        (congrArg (fun s => s.isWebsocket) hcore).trans hah.websocket,
        (congrArg (fun s => s.closeSocket) hcore).trans hah.closing,
        (congrArg (fun s => s.rxAt) hcore).trans hah.rxAt, hpingAt⟩
    · rw [finish_wsPingAt sock₁ hnot, hzero]
  · rw [hpending]
    refine hmore (Or.inr ?_)
    rw [List.length_nil, Nat.zero_add]
    exact hmany

/-- **A spinning container**: there is more to do after every sweep. -/
theorem Spinning.sweeps {t : Container} (h : Spinning t) (connHasPendingInput : Nat → SockId → Bool)
    (n : Nat) : ∃ t', sweeps patientConfig 1000 connHasPendingInput (n + 1) t = some t' ∧
      t'.loopSweepPending = true := by
  induction n generalizing t connHasPendingInput with
  | zero =>
      obtain ⟨t', heq, -, hpending⟩ := h.sweep (connHasPendingInput 0)
      refine ⟨t', ?_, hpending⟩
      rw [Timeouts.sweeps, heq]
      rfl
  | succ n ih =>
      obtain ⟨t₁, heq, hspin, -⟩ := h.sweep (connHasPendingInput 0)
      obtain ⟨t', hsweeps, hpending⟩ := ih hspin fun i => connHasPendingInput (i + 1)
      refine ⟨t', ?_, hpending⟩
      rw [Timeouts.sweeps, heq]
      exact hsweeps

/-- 129 websockets that have received something in the second 1001. -/
def websocketsAhead : Container where
  ids := List.range 129
  socks := fun _ => some { isWebsocket := true, header := some {}, rxAt := 1001 }
  proxies := fun _ => none

theorem websocketsAhead_spinning : Spinning websocketsAhead :=
  ⟨rfl, fun _ => rfl, [], by decide, fun _ _ => ⟨_, rfl,
    ⟨rfl, rfl, rfl, rfl, rfl, rfl, rfl, Or.inl rfl⟩, fun _ => rfl⟩⟩

/-- A client that has taken nothing of a response for long. -/
def stalledResponse : Container where
  ids := [0]
  socks := fun _ => some { outputListEmpty := false, header := some {}, txAt := 1 }
  proxies := fun _ => none

/-- With stamps ahead of it the sweep spins, a quiet backend goes with its client, a client that
takes nothing is closed without being spared, and a backend that is to be closed itself is used
after it was freed. -/
theorem timeout_sweep_misjudges :
    (∀ n, ∃ t', sweeps patientConfig 1000 (fun _ _ => false) (n + 1) websocketsAhead = some t' ∧
      t'.loopSweepPending = true) ∧
    (((proxyPair false).socks 1).map quietBackend = some true ∧
      (connTimeoutSweep {} 1000 (fun _ => true) (proxyPair false)).map (·.ids) = some []) ∧
    (connTimeoutSweep {} 1000 (fun _ => true) stalledResponse).map (·.ids) = some [] ∧
    (connTimeoutSweep {} 1000 (fun _ => true) (proxyPair true)).isNone = true :=
  ⟨fun n => websocketsAhead_spinning.sweeps (fun _ _ => false) n, ⟨by decide +kernel,
    by decide +kernel⟩, by decide +kernel, by decide +kernel⟩

end CWebUI.Timeouts
