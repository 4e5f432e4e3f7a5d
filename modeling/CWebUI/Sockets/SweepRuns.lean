import CWebUI.Sockets.Sweep

set_option autoImplicit false

/-! # The sweeps of a second

The work that is left in a second is what a sweep can still do with the sockets: close each of
them, ping it or spare it. A sweep that leaves more to do has done some of it.
-/

namespace CWebUI.Timeouts

open CWebUI.Sockets (SockId ExternHandle)
open CWebUI.Proxy (ProxyState)
open CWebUI.Websocket (writeChunk)

/-! ## One sweep -/

/-- The record of a socket that is still there after a sweep, from that after the walk. -/
def finish (now : UInt32) (closes : List (SockId × Bool)) (pings : List SockId) (a : SockId)
    (sock : TimedSocket) : TimedSocket :=
  let sock := if a ∈ pings then connSendPing now sock else sock
  if a ∈ closes.map Prod.fst then { sock with sparedAt := now } else sock

/-- What a sweep has done that has collected these. -/
structure SweepSpec (cfg : TimeoutConfig) (now : UInt32) (connHasPendingInput : SockId → Bool)
    (closes : List (SockId × Bool)) (pings : List SockId) (t t' : Container) : Prop where
  sound : Sound t'
  ids_sub : t'.ids.Sublist t.ids
  closes_sub : (closes.map Prod.fst).Sublist t.ids
  pings_sub : pings.Sublist t.ids
  pending : t'.loopSweepPending = true →
    closes.length = connSweepMax ∨ pings.length = connSweepMax
  walked : ∀ a ∈ t.ids, ∀ sock, t.socks a = some sock → ∃ sock',
    Walked cfg now t.proxies closes pings a sock sock' ∧
      (a ∈ t'.ids → t'.socks a = some (finish now closes pings a sock'))
  entry : ∀ a ifIdle sock, (a, ifIdle) ∈ closes → t.socks a = some sock →
    (a ∈ t'.ids ↔ Spares connHasPendingInput a ifIdle sock)
  gone : ∀ c ∈ t.ids, c ∉ t'.ids → c ∈ closes.map Prod.fst ∨
    ∃ a ∈ closes.map Prod.fst, a ∉ t'.ids ∧ backendOf t a = some c
  freed : ∀ c ∈ t.ids, c ∉ t'.ids → t'.socks c = none
  proxies : ∀ p proxy', t'.proxies p = some proxy' →
    ∃ proxy, t.proxies p = some proxy ∧ proxyCore proxy' = proxyCore proxy

theorem Sound.allLive {t : Container} (h : Sound t) : ∀ a ∈ t.ids, Live t a := by
  intro a ha
  obtain ⟨sock, hsock⟩ := h.live a ha
  refine ⟨sock, hsock, fun p hp => ?_⟩
  obtain ⟨proxy, hproxy, -⟩ := h.proxy a ha sock p hsock hp
  exact ⟨proxy, hproxy⟩

theorem SameCore.backendOf {t t' : Container} (h : SameCore t t') {a b : SockId}
    (hb : backendOf t' a = some b) : backendOf t a = some b := by
  obtain ⟨sock', hsock'⟩ : ∃ sock', t'.socks a = some sock' := by
    simp only [Timeouts.backendOf, Option.bind_eq_bind, Option.bind_eq_some_iff] at hb
    obtain ⟨s, hs, -⟩ := hb
    exact ⟨s, hs⟩
  obtain ⟨p, proxy', hp, hproxy', hb'⟩ := backendOf_some hsock' hb
  obtain ⟨sock, hsock, hcore⟩ := h.symm.sock hsock'
  obtain ⟨proxy, hproxy, hcore'⟩ := h.symm.proxy hproxy'
  rw [← dataPtr_of_core hcore] at hp
  have hback : proxy.backendSock = proxy'.backendSock := congrArg (fun x => x.backendSock) hcore'
  simp [Timeouts.backendOf, hsock, hp, hproxy, hback, hb']

/-- **One sweep.** -/
theorem connTimeoutSweep_spec (cfg : TimeoutConfig) (now : UInt32)
    (connHasPendingInput : SockId → Bool) {t : Container} (h : Sound t) :
    ∃ t' t₁ closes pings, connTimeoutSweep cfg now connHasPendingInput t = some t' ∧
      collect cfg now t.ids { t with loopSweepPending := false } {} = some (t₁, ⟨closes, pings⟩) ∧
      t'.loopSweepPending = t₁.loopSweepPending ∧
      (∀ a ∈ t'.ids, ∀ sock, t₁.socks a = some sock →
        t'.socks a = some (finish now closes pings a sock)) ∧
      SweepSpec cfg now connHasPendingInput closes pings t t' := by
  have h₀ : Sound { t with loopSweepPending := false } := ⟨h.nodup, h.live, h.proxy, h.backend⟩
  obtain ⟨t₁, closes, pings, hcollect, hwalk⟩ :=
    collect_spec cfg now t.ids { t with loopSweepPending := false } {} h.nodup h₀.allLive (by simp)
      (by simp)
  simp only [List.nil_append] at hcollect
  have h₁ : Sound t₁ := h₀.of_sameCore hwalk.core
  obtain ⟨t₂, hpings, hcore₂, hpending₂, hothers₂, hpinged⟩ :=
    sendPings_spec now pings t₁ (h.nodup.sublist hwalk.pings_sub) fun a ha =>
      h₁.live a (hwalk.core.ids ▸ hwalk.pings_sub.subset ha)
  have h₂ : Sound t₂ := h₁.of_sameCore hcore₂
  have hcore : SameCore { t with loopSweepPending := false } t₂ := hwalk.core.trans hcore₂
  -- a backend has nothing to do
  have hclient : ∀ c ∈ closes.map Prod.fst, c ∈ t₂.ids ∧ ¬ IsBackend t₂ c := by
    intro c hc
    have hmem : c ∈ t.ids := hwalk.closes_sub.subset hc
    refine ⟨hcore.ids ▸ hmem, ?_⟩
    rintro ⟨p, proxy, hproxy, hb⟩
    obtain ⟨-, -, sock₂, hsock₂, -, hquiet, -⟩ := h₂.backend p proxy c hproxy hb
    obtain ⟨sock, hsock, hsame⟩ := hcore.symm.sock hsock₂
    obtain ⟨sock₁, -, hw⟩ := hwalk.walked c hmem sock hsock
    exact (hw.unpicked (Or.inr (by rw [quietBackend_of_core hsame, hquiet]))).1 hc
  obtain ⟨t', hclose, hswept⟩ := closeAll_spec now connHasPendingInput closes t₂ h₂
    (h.nodup.sublist hwalk.closes_sub) hclient
  have hsweep : connTimeoutSweep cfg now connHasPendingInput t = some t' := by
    unfold connTimeoutSweep
    simp only [Option.bind_eq_bind]
    rw [hcollect, Option.bind_some]
    dsimp only
    rw [hpings, Option.bind_some, hclose]
  have hlists : ∀ a sock', t₁.socks a = some sock' →
      t₂.socks a = some (if a ∈ pings then connSendPing now sock' else sock') := by
    intro a sock' hsock'
    split_ifs with ha
    · exact hpinged a ha sock' hsock'
    · rw [hothers₂ a ha, hsock']
  have hentry : ∀ a ifIdle sock, (a, ifIdle) ∈ closes → t.socks a = some sock →
      (a ∈ t'.ids ↔ Spares connHasPendingInput a ifIdle sock) := by
    intro a ifIdle sock hmem hsock
    obtain ⟨sock₁, hsock₁, hw⟩ := hwalk.walked a
      (hwalk.closes_sub.subset (List.mem_map_of_mem hmem)) sock hsock
    have hsock₂ := hlists a sock₁ hsock₁
    have hspares : Spares connHasPendingInput a ifIdle
        (if a ∈ pings then connSendPing now sock₁ else sock₁) ↔
          Spares connHasPendingInput a ifIdle sock := by
      refine and_congr_right fun hidle => ?_
      have hkeep : sock₁.sparedAt = sock.sparedAt := by
        rcases hw.sparedAt with heq | ⟨-, hnot⟩
        · exact heq
        · have hcontra := (hw.close ifIdle hmem).1
          rw [hnot, hidle] at hcontra
          exact absurd hcontra (by simp)
      split_ifs
      · rw [connSendPing_sparedAt, hkeep]
      · rw [hkeep]
    rw [← hspares]
    refine ⟨fun ha => ?_, fun hs => (hswept.spared a ifIdle _ hmem hsock₂ hs).1⟩
    by_contra hs
    exact hswept.closed a ifIdle _ hmem hsock₂ hs ha
  have hfinish : ∀ a ∈ t'.ids, ∀ sock₁, t₁.socks a = some sock₁ →
      t'.socks a = some (finish now closes pings a sock₁) := by
    intro a hmem sock₁ hsock₁
    obtain ⟨sock₂, hsock₂, heq⟩ : ∃ sock₂, t₂.socks a = some sock₂ ∧
        (if a ∈ pings then connSendPing now sock₁ else sock₁) = sock₂ := ⟨_, hlists a sock₁ hsock₁, rfl⟩
    rw [finish, heq]
    by_cases hkey : a ∈ closes.map Prod.fst
    · rw [if_pos hkey]
      obtain ⟨⟨b, ifIdle⟩, hin, rfl⟩ := List.mem_map.mp hkey
      have hspares : Spares connHasPendingInput b ifIdle sock₂ := by
        by_contra hs
        exact hswept.closed b ifIdle sock₂ hin hsock₂ hs hmem
      exact (hswept.spared b ifIdle sock₂ hin hsock₂ hspares).2
    · rw [if_neg hkey, hswept.untouched a hmem hkey, hsock₂]
  refine ⟨t', t₁, closes, pings, hsweep, hcollect, hswept.pending.trans hpending₂, hfinish, ?_⟩
  constructor
  · exact hswept.sound
  · exact hcore.ids ▸ hswept.ids_sub
  · exact hwalk.closes_sub
  · exact hwalk.pings_sub
  · intro hp
    rw [hswept.pending, hpending₂] at hp
    simpa using hwalk.pending hp
  · intro a ha sock hsock
    obtain ⟨sock₁, hsock₁, hw⟩ := hwalk.walked a ha sock hsock
    exact ⟨sock₁, hw, fun hmem => hfinish a hmem sock₁ hsock₁⟩
  · exact hentry
  · intro c hc hgone
    rcases hswept.gone c (hcore.ids ▸ hc) hgone with hmem | ⟨a, ha, hgone', hback⟩
    · exact Or.inl hmem
    · exact Or.inr ⟨a, ha, hgone', hcore.backendOf hback⟩
  · exact fun c hc hgone => hswept.freed c (Or.inl (hcore.ids ▸ hc)) hgone
  · intro p proxy' hproxy'
    obtain ⟨proxy, hproxy, hsame⟩ := hcore.symm.proxy (hswept.proxies_sub p proxy' hproxy')
    exact ⟨proxy, hproxy, hsame.symm⟩

theorem finish_core (now : UInt32) (closes : List (SockId × Bool)) (pings : List SockId)
    (a : SockId) (sock : TimedSocket) : core (finish now closes pings a sock) = core sock := by
  unfold finish
  split_ifs
  · exact connSendPing_core now sock
  · exact connSendPing_core now sock
  · rfl
  · rfl

section OneSweep

variable {cfg : TimeoutConfig} {now : UInt32} {connHasPendingInput : SockId → Bool}
variable {closes : List (SockId × Bool)} {pings : List SockId} {t t' : Container}

/-- What is there after a sweep was there before. -/
theorem SweepSpec.before (h : SweepSpec cfg now connHasPendingInput closes pings t t')
    (hsound : Sound t) {a : SockId} {sock' : TimedSocket} (ha : a ∈ t'.ids)
    (hsock' : t'.socks a = some sock') : ∃ sock sock₁, t.socks a = some sock ∧
      Walked cfg now t.proxies closes pings a sock sock₁ ∧
        sock' = finish now closes pings a sock₁ ∧ core sock' = core sock := by
  obtain ⟨sock, hsock⟩ := hsound.live a (h.ids_sub.subset ha)
  obtain ⟨sock₁, hw, hafter⟩ := h.walked a (h.ids_sub.subset ha) sock hsock
  have heq := Option.some.inj (hsock'.symm.trans (hafter ha))
  exact ⟨sock, sock₁, hsock, hw, heq, by rw [heq, finish_core, hw.core]⟩

/-- A listener or a quiet backend is not picked. A listener stays, and a backend goes only with
the client of its proxy connection. -/
theorem SweepSpec.unpicked (h : SweepSpec cfg now connHasPendingInput closes pings t t')
    (hsound : Sound t) {a : SockId} {sock : TimedSocket} (ha : a ∈ t.ids)
    (hsock : t.socks a = some sock) (hu : sock.server = true ∨ quietBackend sock = true) :
    a ∉ closes.map Prod.fst ∧ a ∉ pings ∧
      (a ∈ t'.ids ∨ sock.server = false ∧ ∃ c ∈ t.ids, c ∉ t'.ids ∧ backendOf t c = some a) := by
  obtain ⟨sock₁, hw, -⟩ := h.walked a ha sock hsock
  obtain ⟨hclose, hping⟩ := hw.unpicked hu
  refine ⟨hclose, hping, ?_⟩
  by_contra hgone
  rw [not_or] at hgone
  rcases h.gone a ha hgone.1 with hmem | ⟨c, hc, hc', hback⟩
  · exact hclose hmem
  · obtain ⟨s, hs⟩ := hsound.live c (h.closes_sub.subset hc)
    obtain ⟨p, proxy, -, hproxy, hb⟩ := backendOf_some hs hback
    obtain ⟨-, -, s', hs', hserver, -⟩ := hsound.backend p proxy a hproxy hb
    obtain rfl := Option.some.inj (hs'.symm.trans hsock)
    exact hgone.2 ⟨hserver, c, h.closes_sub.subset hc, hc', hback⟩

/-- A socket that is pinged stays. -/
theorem SweepSpec.pinged (h : SweepSpec cfg now connHasPendingInput closes pings t t')
    (hsound : Sound t) {a : SockId} (ha : a ∈ pings) : a ∈ t.ids ∧ a ∈ t'.ids ∧
      ∃ sock sock', t.socks a = some sock ∧ t'.socks a = some sock' ∧ Pinged now sock sock' := by
  have hmem : a ∈ t.ids := h.pings_sub.subset ha
  obtain ⟨sock, hsock⟩ := hsound.live a hmem
  obtain ⟨sock₁, hw, hafter⟩ := h.walked a hmem sock hsock
  obtain ⟨hws, -, -, hclosed, hclose⟩ := hw.ping ha
  have hstays : a ∈ t'.ids := by
    by_contra hgone
    rcases h.gone a hmem hgone with hmem | ⟨c, hc, -, hback⟩
    · exact hclose hmem
    · obtain ⟨s, hs⟩ := hsound.live c (h.closes_sub.subset hc)
      obtain ⟨p, proxy, -, hproxy, hb⟩ := backendOf_some hs hback
      obtain ⟨-, -, s', hs', -, hquiet, -⟩ := hsound.backend p proxy a hproxy hb
      obtain rfl := Option.some.inj (hs'.symm.trans hsock)
      exact (hw.unpicked (Or.inr hquiet)).2 ha
  refine ⟨hmem, hstays, sock, _, hsock, hafter hstays, ?_⟩
  have hclosed₁ : sock₁.closeSocket = false := by
    rw [← hclosed]
    exact congrArg (fun s => s.closeSocket) hw.core
  rw [finish, if_pos ha, if_neg hclose]
  obtain ⟨h1, h2⟩ : Pinged now sock₁ (connSendPing now sock₁) := connSendPing_pinged hclosed₁
  exact ⟨h1, by rw [h2, hw.chunks]⟩

/-- A socket of the close list is closed, or spared for the first time. -/
theorem SweepSpec.closed (h : SweepSpec cfg now connHasPendingInput closes pings t t')
    (hsound : Sound t) {a : SockId} (ha : a ∈ closes.map Prod.fst) : a ∈ t.ids ∧
      (a ∉ t'.ids ∧ t'.socks a = none ∨
        a ∈ t'.ids ∧ ∃ sock sock', t.socks a = some sock ∧ t'.socks a = some sock' ∧
          sock.sparedAt = 0 ∧ sock'.sparedAt = now) := by
  have hmem : a ∈ t.ids := h.closes_sub.subset ha
  refine ⟨hmem, ?_⟩
  by_cases hstays : a ∈ t'.ids
  · obtain ⟨sock, hsock⟩ := hsound.live a hmem
    obtain ⟨sock₁, hw, hafter⟩ := h.walked a hmem sock hsock
    obtain ⟨⟨b, ifIdle⟩, hin, rfl⟩ := List.mem_map.mp ha
    obtain ⟨-, hspared, -⟩ := (h.entry b ifIdle sock hin hsock).mp hstays
    refine Or.inr ⟨hstays, sock, _, hsock, hafter hstays, hspared, ?_⟩
    rw [finish, if_pos ha]
  · exact Or.inl ⟨hstays, h.freed a hmem hstays⟩

end OneSweep

/-! ## The work that is left in a second -/

/-- A websocket may still be pinged. -/
def mayPing (cfg : TimeoutConfig) (now : UInt32) (sock : TimedSocket) : Bool :=
  sock.isWebsocket && connExpired now sock.rxAt cfg.toWsPingIdle && sock.wsPingAt ≠ now

/-- A socket may still be spared. -/
def maySpare (cfg : TimeoutConfig) (now : UInt32) (proxies : ProxyMemory) (sock : TimedSocket) :
    Bool :=
  idleExpired cfg now proxies sock && sock.sparedAt ≠ now

/-- What a sweep can still do with a socket. -/
def weight (cfg : TimeoutConfig) (now : UInt32) (t : Container) (a : SockId) : Nat :=
  match t.socks a with
  | none => 0
  | some sock =>
      1 + (mayPing cfg now sock).toNat + (maySpare cfg now t.proxies sock).toNat

/-- The work that is left. -/
def work (cfg : TimeoutConfig) (now : UInt32) (t : Container) : Nat :=
  (t.ids.map (weight cfg now t)).sum

/-- No websocket has received something after `now`. -/
def RxBehind (now : UInt32) (t : Container) : Prop :=
  ∀ a ∈ t.ids, ∀ sock, t.socks a = some sock → sock.isWebsocket = true →
    (sock.rxAt - now).toInt32 ≤ 0

/-- The last input of a websocket that is silent does not answer a ping of this second. -/
theorem not_answered {now rxAt : UInt32} {limit : Int32} (hexpired : connExpired now rxAt limit = true)
    (hrx : (rxAt - now).toInt32 ≤ 0) : ¬ 0 ≤ (rxAt - now).toInt32 := by
  intro hle
  have hzero : (rxAt - now).toInt32 = 0 := Int32.le_antisymm hrx hle
  have hsub : rxAt - now = 0 := congrArg Int32.toUInt32 hzero
  have heq : rxAt = now := by
    have h := UInt32.sub_add_cancel rxAt now
    rw [hsub, UInt32.zero_add] at h
    exact h.symm
  simp only [connExpired, heq, Bool.and_eq_true, decide_eq_true_eq, UInt32.sub_self] at hexpired
  obtain ⟨⟨hlimit, -⟩, hle⟩ := hexpired
  have h0 : limit.toUInt32 = 0 := UInt32.le_antisymm hle (UInt32.zero_le)
  have h1 : limit = 0 := congrArg UInt32.toInt32 h0
  rw [h1] at hlimit
  exact absurd hlimit (by decide)

theorem idleExpired_sub {cfg : TimeoutConfig} {now : UInt32} {proxies proxies' : ProxyMemory}
    {sock : TimedSocket} (hsub : ∀ p proxy, proxies' p = some proxy → proxies p = some proxy)
    (h : idleExpired cfg now proxies' sock = true) : idleExpired cfg now proxies sock = true := by
  unfold idleExpired at h ⊢
  rw [Bool.and_eq_true] at h ⊢
  refine ⟨h.1, ?_⟩
  obtain ⟨-, h⟩ := h
  split at h
  · next p hhandle hptr =>
      cases hp : proxies' p with
      | none =>
          rw [hp] at h
          exact absurd h (by simp)
      | some proxy =>
          rw [hp] at h
          rw [hsub p proxy hp]
          exact h
  · exact h
  · exact h

/-- A socket whose deadline has passed, and whose proxy connection is the same as before. -/
theorem idleExpired_mono {cfg : TimeoutConfig} {now : UInt32} {proxies proxies' : ProxyMemory}
    {sock sock' : TimedSocket} (hcore : core sock' = core sock)
    (hsub : ∀ p proxy', proxies' p = some proxy' →
      ∃ proxy, proxies p = some proxy ∧ proxyCore proxy' = proxyCore proxy)
    (h : idleExpired cfg now proxies' sock' = true) : idleExpired cfg now proxies sock = true := by
  rw [idleExpired_core, hcore] at h
  rw [idleExpired_core]
  refine idleExpired_sub (fun p proxy' hp => ?_) h
  rw [Option.map_eq_some_iff] at hp
  obtain ⟨x, hx, rfl⟩ := hp
  obtain ⟨proxy, hproxy, hsame⟩ := hsub p x hx
  rw [hproxy, Option.map_some, hsame]

theorem finish_wsPingAt {now : UInt32} {closes : List (SockId × Bool)} {pings : List SockId}
    {a : SockId} (sock : TimedSocket) (ha : a ∉ pings) :
    (finish now closes pings a sock).wsPingAt = sock.wsPingAt := by
  rw [finish, if_neg ha]
  split_ifs <;> rfl

theorem finish_wsPingAt_of_mem {now : UInt32} {closes : List (SockId × Bool)}
    {pings : List SockId} {a : SockId} {sock : TimedSocket} (ha : a ∈ pings)
    (hclosed : sock.closeSocket = false) : (finish now closes pings a sock).wsPingAt = now := by
  rw [finish, if_pos ha]
  split_ifs
  · exact (connSendPing_pinged hclosed).1
  · exact (connSendPing_pinged hclosed).1

theorem finish_sparedAt {now : UInt32} {closes : List (SockId × Bool)} {pings : List SockId}
    {a : SockId} (sock : TimedSocket) (ha : a ∉ closes.map Prod.fst) :
    (finish now closes pings a sock).sparedAt = sock.sparedAt := by
  rw [finish, if_neg ha]
  split_ifs
  · exact connSendPing_sparedAt now sock
  · rfl

theorem finish_sparedAt_of_mem {now : UInt32} {closes : List (SockId × Bool)}
    {pings : List SockId} {a : SockId} (sock : TimedSocket) (ha : a ∈ closes.map Prod.fst) :
    (finish now closes pings a sock).sparedAt = now := by
  rw [finish, if_pos ha]

section Work

variable {cfg : TimeoutConfig} {now : UInt32} {connHasPendingInput : SockId → Bool}
variable {closes : List (SockId × Bool)} {pings : List SockId} {t t' : Container}
variable {a : SockId} {sock sock₁ : TimedSocket}

/-- A ping that can still be sent after the sweep could be sent before, and the sweep has not sent
it. -/
theorem Walked.mayPing_before (hw : Walked cfg now t.proxies closes pings a sock sock₁)
    (hrx : sock.isWebsocket = true → (sock.rxAt - now).toInt32 ≤ 0)
    (hmay : mayPing cfg now (finish now closes pings a sock₁) = true) :
    mayPing cfg now sock = true ∧ a ∉ pings := by
  have hcore : Timeouts.core (finish now closes pings a sock₁) = Timeouts.core sock := by
    rw [finish_core, hw.core]
  have hws : (finish now closes pings a sock₁).isWebsocket = sock.isWebsocket :=
    congrArg (fun s => s.isWebsocket) hcore
  have hrxAt : (finish now closes pings a sock₁).rxAt = sock.rxAt :=
    congrArg (fun s => s.rxAt) hcore
  simp only [mayPing, Bool.and_eq_true, decide_eq_true_eq, hws, hrxAt] at hmay ⊢
  obtain ⟨⟨hsocket, hexpired⟩, hne⟩ := hmay
  have hnot : a ∉ pings := by
    intro ha
    have hclosed : sock₁.closeSocket = false := by
      rw [← (hw.ping ha).2.2.2.1]
      exact congrArg (fun s => s.closeSocket) hw.core
    exact hne (finish_wsPingAt_of_mem ha hclosed)
  rw [finish_wsPingAt _ hnot] at hne
  refine ⟨⟨⟨hsocket, hexpired⟩, fun hnow => ?_⟩, hnot⟩
  rcases hw.pingAt with heq | ⟨-, -, hanswer⟩
  · exact hne (heq.trans hnow)
  · rw [hnow] at hanswer
    exact not_answered hexpired (hrx hsocket) hanswer

/-- A socket that can still be spared after the sweep could be spared before, and the sweep has not
spared it. -/
theorem SweepSpec.maySpare_before (h : SweepSpec cfg now connHasPendingInput closes pings t t')
    (hw : Walked cfg now t.proxies closes pings a sock sock₁)
    (hmay : maySpare cfg now t'.proxies (finish now closes pings a sock₁) = true) :
    maySpare cfg now t.proxies sock = true ∧ a ∉ closes.map Prod.fst := by
  have hcore : core (finish now closes pings a sock₁) = core sock := by
    rw [finish_core, hw.core]
  simp only [maySpare, Bool.and_eq_true, decide_eq_true_eq] at hmay ⊢
  obtain ⟨hidle, hne⟩ := hmay
  have hidle₀ := idleExpired_mono hcore h.proxies hidle
  have hnot : a ∉ closes.map Prod.fst := fun ha => hne (finish_sparedAt_of_mem _ ha)
  rw [finish_sparedAt _ hnot] at hne
  refine ⟨⟨hidle₀, ?_⟩, hnot⟩
  rcases hw.sparedAt with heq | ⟨-, hno⟩
  · rwa [heq] at hne
  · rw [hidle₀] at hno
    exact absurd hno (by simp)

theorem weight_of_some (h : t.socks a = some sock) : weight cfg now t a =
    1 + (mayPing cfg now sock).toNat + (maySpare cfg now t.proxies sock).toNat := by
  rw [weight, h]

theorem toNat_le_of_imp {b b' : Bool} (h : b' = true → b = true) : b'.toNat ≤ b.toNat := by
  cases b' with
  | false => exact Nat.zero_le _
  | true =>
      rw [h rfl]

/-- A sweep adds no work to a socket. -/
theorem SweepSpec.weight_le (h : SweepSpec cfg now connHasPendingInput closes pings t t')
    (hsound : Sound t) (hrx : RxBehind now t) (ha : a ∈ t'.ids) :
    weight cfg now t' a ≤ weight cfg now t a := by
  have hmem := h.ids_sub.subset ha
  obtain ⟨sock, hsock⟩ := hsound.live a hmem
  obtain ⟨sock₁, hw, hafter⟩ := h.walked a hmem sock hsock
  rw [weight_of_some hsock, weight_of_some (hafter ha)]
  have hping := toNat_le_of_imp fun hmay => (hw.mayPing_before (hrx a hmem sock hsock) hmay).1
  have hspare := toNat_le_of_imp fun hmay => (h.maySpare_before hw hmay).1
  omega

/-- A sweep that picks a socket has less to do with it. -/
theorem SweepSpec.weight_lt (h : SweepSpec cfg now connHasPendingInput closes pings t t')
    (hsound : Sound t) (hrx : RxBehind now t) (hnow : now ≠ 0)
    (hpicked : a ∈ closes.map Prod.fst ∨ a ∈ pings) (ha : a ∈ t'.ids) :
    weight cfg now t' a < weight cfg now t a := by
  have hmem := h.ids_sub.subset ha
  obtain ⟨sock, hsock⟩ := hsound.live a hmem
  obtain ⟨sock₁, hw, hafter⟩ := h.walked a hmem sock hsock
  rw [weight_of_some hsock, weight_of_some (hafter ha)]
  have hping := fun hmay => hw.mayPing_before (hrx a hmem sock hsock) hmay
  have hspare := fun hmay => h.maySpare_before hw hmay
  have hping' := toNat_le_of_imp fun hmay => (hping hmay).1
  have hspare' := toNat_le_of_imp fun hmay => (hspare hmay).1
  rcases hpicked with hclose | hpinged
  · -- the socket is spared
    obtain ⟨⟨b, ifIdle⟩, hin, rfl⟩ := List.mem_map.mp hclose
    obtain ⟨hidle, hspared, -⟩ := (h.entry b ifIdle sock hin hsock).mp ha
    have hbefore : maySpare cfg now t.proxies sock = true := by
      simp only [maySpare, Bool.and_eq_true, decide_eq_true_eq]
      refine ⟨by rw [← (hw.close ifIdle hin).1, hidle], ?_⟩
      rw [hspared]
      exact hnow.symm
    have hafter' : maySpare cfg now t'.proxies (finish now closes pings b sock₁) = false := by
      by_contra hmay
      exact (hspare (by simpa using hmay)).2 hclose
    rw [hbefore, hafter', Bool.toNat_true, Bool.toNat_false]
    omega
  · obtain ⟨hsocket, hexpired, hzero, -⟩ := hw.ping hpinged
    have hbefore : mayPing cfg now sock = true := by
      simp only [mayPing, Bool.and_eq_true, decide_eq_true_eq]
      refine ⟨⟨hsocket, hexpired⟩, fun hat => ?_⟩
      rcases hw.pingAt with heq | ⟨-, -, hanswer⟩
      · exact hnow (hat.symm.trans (heq.symm.trans hzero))
      · rw [hat] at hanswer
        exact not_answered hexpired (hrx a hmem sock hsock hsocket) hanswer
    have hafter' : mayPing cfg now (finish now closes pings a sock₁) = false := by
      by_contra hmay
      exact (hping (by simpa using hmay)).2 hpinged
    rw [hbefore, hafter', Bool.toNat_true, Bool.toNat_false]
    omega

/-- **A sweep that leaves more to do has done some of it.** -/
theorem SweepSpec.work_lt (h : SweepSpec cfg now connHasPendingInput closes pings t t')
    (hsound : Sound t) (hrx : RxBehind now t) (hnow : now ≠ 0)
    (hpending : t'.loopSweepPending = true) : work cfg now t' < work cfg now t := by
  obtain ⟨a, hpicked⟩ : ∃ a, a ∈ closes.map Prod.fst ∨ a ∈ pings := by
    rcases h.pending hpending with hfull | hfull
    · obtain ⟨entry, hentry⟩ := List.exists_mem_of_length_pos (l := closes) (by rw [hfull]; decide)
      exact ⟨entry.1, Or.inl (List.mem_map_of_mem hentry)⟩
    · obtain ⟨a, ha⟩ := List.exists_mem_of_length_pos (l := pings) (by rw [hfull]; decide)
      exact ⟨a, Or.inr ha⟩
  have hmem : a ∈ t.ids := hpicked.elim (fun h' => h.closes_sub.subset h') fun h' =>
    h.pings_sub.subset h'
  refine ListLemmas.sum_map_lt_of_sublist h.ids_sub (fun b hb => h.weight_le hsound hrx hb) hmem
    (fun _ => ?_) fun ha => h.weight_lt hsound hrx hnow hpicked ha
  obtain ⟨sock, hsock⟩ := hsound.live a hmem
  rw [weight_of_some hsock]
  omega

theorem SweepSpec.rxBehind (h : SweepSpec cfg now connHasPendingInput closes pings t t')
    (hsound : Sound t) (hrx : RxBehind now t) : RxBehind now t' := by
  intro a ha sock' hsock' hws
  obtain ⟨sock, -, hsock, -, -, hcore⟩ := h.before hsound ha hsock'
  have hws' : sock'.isWebsocket = sock.isWebsocket := congrArg (fun s => s.isWebsocket) hcore
  have hrxAt : sock'.rxAt = sock.rxAt := congrArg (fun s => s.rxAt) hcore
  rw [hrxAt]
  exact hrx a (h.ids_sub.subset ha) sock hsock (hws' ▸ hws)

end Work

/-- **The sweeps of a second come to an end.** -/
theorem sweeps_end (cfg : TimeoutConfig) {now : UInt32} (hnow : now ≠ 0)
    (connHasPendingInput : Nat → SockId → Bool) {t : Container} (h : Sound t)
    (hrx : RxBehind now t) :
    ∃ n t', 0 < n ∧ n ≤ work cfg now t + 1 ∧
      sweeps cfg now connHasPendingInput n t = some t' ∧ t'.loopSweepPending = false := by
  induction hk : work cfg now t using Nat.strong_induction_on generalizing t connHasPendingInput with
  | _ k ih =>
      obtain ⟨t₁, -, closes, pings, heq, -, -, -, hspec⟩ :=
        connTimeoutSweep_spec cfg now (connHasPendingInput 0) h
      cases hpending : t₁.loopSweepPending with
      | false =>
          refine ⟨1, t₁, by omega, by omega, ?_, hpending⟩
          rw [sweeps, heq]
          rfl
      | true =>
          have hlt := hspec.work_lt h hrx hnow hpending
          obtain ⟨n, t', hpos, hle, hsweeps, hend⟩ := ih (work cfg now t₁) (hk ▸ hlt)
            (fun i => connHasPendingInput (i + 1)) hspec.sound (hspec.rxBehind h hrx) rfl
          refine ⟨n + 1, t', by omega, by omega, ?_, hend⟩
          rw [sweeps, heq]
          exact hsweeps

theorem work_le (cfg : TimeoutConfig) (now : UInt32) (t : Container) :
    work cfg now t ≤ 3 * t.ids.length := by
  have hweight : ∀ a, weight cfg now t a ≤ 3 := by
    intro a
    unfold weight
    split
    · omega
    · next sock _ =>
        have h1 := Bool.toNat_le (mayPing cfg now sock)
        have h2 := Bool.toNat_le (maySpare cfg now t.proxies sock)
        omega
  have hsum := ListLemmas.sum_map_le_of_sublist (f := fun _ => 3) (List.Sublist.refl t.ids)
    fun a _ => hweight a
  rw [List.map_const', List.sum_replicate_nat] at hsum
  unfold work
  omega

end CWebUI.Timeouts
