import CWebUI.Session.Store

set_option autoImplicit false

/-! # Keys of sessions come from the server

Requests are served one after the other. Each brings its cookies, and may then look for its
session, or have one created, any number of times. Time passes, and sessions expire. Whatever the
cookies are, the keys of the tree are values of `generateGUID`, and a request gets the session
that its cookie names, or a new one.
-/

namespace CWebUI.Session

open ByteString CWebUI.Http

/-! ## Runs -/

/-- The sessions, the request that is served, and the cookie values that clients have sent. -/
structure World where
  sessions : Sessions
  request : HttpRequest
  presented : List (List UInt8)
  deriving DecidableEq, Repr

/-- What happens: a request arrives and its session cookie is checked, or the request calls
`restoreSession`. With each stand the values that `generateGUID` returns if it is called. -/
inductive Event where
  | request (cookies : List Cookie) (useSsl : Bool) (guid guidSsl : List UInt8)
  | restore (clock : Clock) (create : Bool) (guid guidSsl : List UInt8)

def World.step (w : World) : Event → World
  | .request cookies useSsl guid guidSsl =>
      let r := checkSessionCookie guid guidSsl w.sessions { cookieList := cookies, useSsl := useSsl }
      { sessions := r.1
        request := r.2
        presented := cookies.map (fun c => copiedValue c.value) ++ w.presented }
  | .restore clock create guid guidSsl =>
      let r := restoreSession clock create guid guidSsl w.sessions w.request
      { w with sessions := r.1, request := r.2 }

def World.run (w : World) (events : List Event) : World := events.foldl World.step w

/-- The server at its start. There is no request: the half that stands for it looks for no
session. -/
def World.start : World :=
  { sessions := { tree := [], lastTimeoutCheck := 0, issued := [] }
    request := { cookieList := [], useSsl := false, plain := { store := some [] } }
    presented := [] }

/-- A value is fresh: it fits into a GUID buffer, was not returned before, and no client has sent
it. -/
structure Fresh (issued presented : List (List UInt8)) (guid : List UInt8) : Prop where
  fits : guid.length ≤ webserverGuidLength
  notIssued : guid ∉ issued
  notPresented : guid ∉ presented

/-- `generateGUID` returns fresh values in a step. -/
def FreshEvent (w : World) : Event → Prop
  | .request cookies _ guid guidSsl =>
      let presented := cookies.map (fun c => copiedValue c.value) ++ w.presented
      Fresh w.sessions.issued presented guid ∧ Fresh w.sessions.issued presented guidSsl ∧
        guid ≠ guidSsl
  | .restore _ _ guid guidSsl =>
      Fresh w.sessions.issued w.presented guid ∧ Fresh w.sessions.issued w.presented guidSsl ∧
        guid ≠ guidSsl

/-- `generateGUID` returns fresh values in a run. -/
def FreshRun (w : World) : List Event → Prop
  | [] => True
  | e :: events => FreshEvent w e ∧ FreshRun (w.step e) events

/-! ## One half of a request -/

/-- One half of a request that has no session yet: its GUID is what its cookie says, or was made
for it and is not used. -/
structure SideOk (st : Sessions) (presented : List (List UInt8)) (cookie : Option (List UInt8))
    (side : SessionSide) : Prop where
  cookie : side.store = none → side.createCookie = false → cookie = some side.guid
  pending : side.store = none → side.createCookie = true →
    side.guid ∈ st.issued ∧ side.guid ∉ presented ∧ side.guid ∉ st.keys ∧
      side.guid.length ≤ webserverGuidLength

/-- A half that has its session. -/
theorem SideOk.of_store {st : Sessions} {presented : List (List UInt8)}
    {cookie : Option (List UInt8)} {side : SessionSide} {key : List UInt8}
    (h : side.store = some key) : SideOk st presented cookie side := by
  constructor
  · intro hnone
    rw [h] at hnone
    cases hnone
  · intro hnone
    rw [h] at hnone
    cases hnone

/-- What a step does to the tree: no session is new but those in `created`, given by key and
kind, and their keys were made by the server and were not sent by a client. -/
structure Grows (st st' : Sessions) (presented : List (List UInt8))
    (created : List (List UInt8 × Bool)) : Prop where
  tree : ∀ ss ∈ st'.tree, (∃ old ∈ st.tree, old.guid = ss.guid ∧ old.ssl = ss.ssl) ∨
    (ss.guid, ss.ssl) ∈ created
  issued : ∀ key ∈ st.issued, key ∈ st'.issued
  created : ∀ c ∈ created, c.1 ∈ st'.issued ∧ c.1 ∉ presented ∧ c.1 ∉ st.keys

theorem Grows.keys {st st' : Sessions} {presented : List (List UInt8)}
    {created : List (List UInt8 × Bool)} (h : Grows st st' presented created) {key : List UInt8}
    (hkey : key ∈ st'.keys) : key ∈ st.keys ∨ key ∈ created.map Prod.fst := by
  obtain ⟨ss, hss, rfl⟩ := List.mem_map.mp hkey
  rcases h.tree ss hss with ⟨old, hold, hguid, -⟩ | hnew
  · left
    rw [← hguid]
    exact List.mem_map_of_mem hold
  · exact Or.inr (List.mem_map_of_mem hnew)

/-- Nothing is new in a part of the tree. -/
theorem grows_nil {st st' : Sessions} (presented : List (List UInt8))
    (htree : ∀ ss ∈ st'.tree, ∃ old ∈ st.tree, old.guid = ss.guid ∧ old.ssl = ss.ssl)
    (hissued : st'.issued = st.issued) : Grows st st' presented [] := by
  refine ⟨fun ss hss => Or.inl (htree ss hss), ?_, ?_⟩
  · intro key hkey
    rw [hissued]
    exact hkey
  · intro c hc
    cases hc

theorem Grows.trans {st st' st'' : Sessions} {presented : List (List UInt8)}
    {a b : List (List UInt8 × Bool)} (h : Grows st st' presented a)
    (h' : Grows st' st'' presented b) (hb : ∀ c ∈ b, c.1 ∉ st.keys) :
    Grows st st'' presented (a ++ b) := by
  refine ⟨?_, fun key hk => h'.issued key (h.issued key hk), ?_⟩
  · intro ss hss
    rcases h'.tree ss hss with ⟨mid, hmid, hguid, hssl⟩ | hnew
    · rcases h.tree mid hmid with ⟨old, hold, hguid', hssl'⟩ | hnew
      · exact Or.inl ⟨old, hold, hguid'.trans hguid, hssl'.trans hssl⟩
      · rw [hguid, hssl] at hnew
        exact Or.inr (List.mem_append_left _ hnew)
    · exact Or.inr (List.mem_append_right _ hnew)
  · intro c hc
    rcases List.mem_append.mp hc with hc | hc
    · obtain ⟨h1, h2, h3⟩ := h.created c hc
      exact ⟨h'.issued c.1 h1, h2, h3⟩
    · obtain ⟨h1, h2, -⟩ := h'.created c hc
      exact ⟨h1, h2, hb c hc⟩

/-- How a half gets its session. -/
inductive Attached (now : UInt64) (st st' : Sessions) (created : List (List UInt8 × Bool))
    (ssl : Bool) (cookie : Option (List UInt8)) (key : List UInt8) : Prop where
  /-- The session was there, is of the kind, and the cookie names it. -/
  | found (hcookie : cookie = some key) (h : ∃ ss ∈ st.tree, ss.guid = key ∧ ss.ssl = ssl)
  /-- The session is new. -/
  | new (hcreated : (key, ssl) ∈ created)
      (h : ∃ ss ∈ st'.tree, ss.guid = key ∧ ss.ssl = ssl ∧ ss.vars = [] ∧ ss.lastUse = now)

@[simp] theorem issued_checkSessionTimeout (clock : Clock) (st : Sessions) :
    (checkSessionTimeout clock st).issued = st.issued := by
  unfold checkSessionTimeout
  split_ifs <;> rfl

theorem mem_checkSessionTimeout {clock : Clock} {st : Sessions} {ss : SessionStore}
    (h : ss ∈ (checkSessionTimeout clock st).tree) : ss ∈ st.tree := by
  unfold checkSessionTimeout at h
  split_ifs at h
  · exact h
  · exact (List.mem_filter.mp h).1

theorem grows_checkSessionTimeout (clock : Clock) (st : Sessions)
    (presented : List (List UInt8)) : Grows st (checkSessionTimeout clock st) presented [] :=
  grows_nil presented (fun ss hss => ⟨ss, mem_checkSessionTimeout hss, rfl, rfl⟩)
    (issued_checkSessionTimeout clock st)

/-- `findSessionStore` finds the session that the GUID names, or leaves the half as it is. -/
theorem findSessionStore_spec (clock : Clock) (ssl : Bool) (st : Sessions) (side : SessionSide)
    (presented : List (List UInt8)) :
    ∃ st', Grows st st' presented [] ∧ st'.issued = st.issued ∧
      (findSessionStore clock ssl st side = (st', side, false) ∨
        findSessionStore clock ssl st side =
            (st', { side with store := some side.guid }, true) ∧
          ∃ ss ∈ st.tree, ss.guid = side.guid ∧ ss.ssl = ssl) := by
  have htimeout := grows_checkSessionTimeout clock st presented
  have hissued := issued_checkSessionTimeout clock st
  unfold findSessionStore rbExactQuery
  dsimp only
  cases hfind : (checkSessionTimeout clock st).tree.find? (fun ss => ss.guid == side.guid) with
  | none => exact ⟨_, htimeout, hissued, Or.inl rfl⟩
  | some store =>
      have hmem := List.mem_of_find?_eq_some hfind
      have hguid : store.guid = side.guid := by
        have hbeq := @List.find?_some _ (fun ss : SessionStore => ss.guid == side.guid) _ _ hfind
        exact beq_iff_eq.mp hbeq
      dsimp only
      by_cases hssl : store.ssl = ssl
      · rw [if_pos hssl, hguid]
        refine ⟨_, ?_, ?_, Or.inr ⟨rfl, store, mem_checkSessionTimeout hmem, hguid, hssl⟩⟩
        · -- the time of the last use is neither key nor kind
          refine grows_nil presented ?_ hissued
          intro ss hss
          obtain ⟨old, hold, rfl⟩ := List.mem_map.mp hss
          refine ⟨old, mem_checkSessionTimeout hold, ?_⟩
          split_ifs <;> exact ⟨rfl, rfl⟩
        · exact hissued
      · rw [if_neg hssl]
        exact ⟨_, htimeout, hissued, Or.inl rfl⟩

/-- `createSession` for a GUID that fits and is not used. -/
theorem createSession_spec (clock : Clock) (ssl : Bool) (st : Sessions) (side : SessionSide)
    {presented : List (List UInt8)} (hissued : side.guid ∈ st.issued)
    (hfresh : side.guid ∉ presented) (hnew : side.guid ∉ st.keys)
    (hfits : side.guid.length ≤ webserverGuidLength) :
    ∃ st', createSession clock ssl st side = (st', { side with store := some side.guid }) ∧
      st'.issued = st.issued ∧ Grows st st' presented [(side.guid, ssl)] ∧
      ∃ ss ∈ st'.tree, ss.guid = side.guid ∧ ss.ssl = ssl ∧ ss.vars = [] ∧
        ss.lastUse = clock.now := by
  have hkey : side.guid.take webserverGuidLength = side.guid := List.take_of_length_le hfits
  unfold createSession
  rw [hkey]
  refine ⟨_, rfl, rfl, ⟨?_, fun _ h => h, ?_⟩, ⟨_, List.mem_cons_self, rfl, rfl, rfl, rfl⟩⟩
  · intro ss hss
    rcases List.mem_cons.mp hss with rfl | hss
    · exact Or.inr (List.mem_singleton.mpr rfl)
    · exact Or.inl ⟨ss, hss, rfl, rfl⟩
  · intro c hc
    rw [List.mem_singleton.mp hc]
    exact ⟨hissued, hfresh, hnew⟩

/-- A half is not touched by the steps of the other: the key that the other creates is not its
own. -/
theorem SideOk.mono {st st' : Sessions} {presented : List (List UInt8)}
    {created : List (List UInt8 × Bool)} {cookie : Option (List UInt8)} {side : SessionSide}
    (h : SideOk st presented cookie side) (hgrows : Grows st st' presented created)
    (hcreated : side.store = none → side.createCookie = true →
      side.guid ∉ created.map Prod.fst) :
    SideOk st' presented cookie side := by
  refine ⟨h.cookie, fun hs hc => ?_⟩
  obtain ⟨h1, h2, h3, h4⟩ := h.pending hs hc
  refine ⟨hgrows.issued _ h1, h2, ?_, h4⟩
  intro hk
  rcases hgrows.keys hk with hk | hk
  · exact h3 hk
  · exact hcreated hs hc hk

/-- What one half of `restoreSession` does. At most one session is created, under a GUID that was
made for this half. -/
structure RestoredSide (clock : Clock) (guid : List UInt8) (ssl : Bool)
    (presented : List (List UInt8)) (cookie : Option (List UInt8)) (st : Sessions)
    (side : SessionSide) (st' : Sessions) (side' : SessionSide)
    (created : List (List UInt8 × Bool)) : Prop where
  grows : Grows st st' presented created
  ok : SideOk st' presented cookie side'
  issued : ∀ key ∈ st'.issued, key ∈ st.issued ∨ key = guid
  own : ∀ c ∈ created, c.2 = ssl ∧ (c.1 = guid ∨
    (side.store = none ∧ side.createCookie = true ∧ c.1 = side.guid))
  attached : side' = side ∨ ∃ key, side.store = none ∧ side'.store = some key ∧
    Attached clock.now st st' created ssl cookie key

/-- A half that stays as it is. -/
theorem RestoredSide.idle {clock : Clock} {guid : List UInt8} {ssl : Bool}
    {presented : List (List UInt8)} {cookie : Option (List UInt8)} {st st' : Sessions}
    {side : SessionSide} (hside : SideOk st presented cookie side)
    (hgrows : Grows st st' presented []) (hissued : st'.issued = st.issued) :
    RestoredSide clock guid ssl presented cookie st side st' side [] := by
  refine ⟨hgrows, hside.mono hgrows (fun _ _ => List.not_mem_nil), ?_, ?_, Or.inl rfl⟩
  · intro key hk
    rw [hissued] at hk
    exact Or.inl hk
  · intro c hc
    cases hc

/-- **One half of `restoreSession`.** -/
theorem restoreSide_spec (clock : Clock) (create : Bool) {guid : List UInt8} (ssl : Bool)
    {st : Sessions} {side : SessionSide} {presented : List (List UInt8)}
    {cookie : Option (List UInt8)} (hside : SideOk st presented cookie side)
    (hfresh : Fresh st.issued presented guid) (hkeys : ∀ key ∈ st.keys, key ∈ st.issued) :
    ∃ st' side' created, restoreSide clock create guid ssl st side = (st', side') ∧
      RestoredSide clock guid ssl presented cookie st side st' side' created := by
  unfold restoreSide
  by_cases hstore : side.store = none
  · rw [if_pos hstore]
    by_cases hcookie : side.createCookie = true
    · have hnot : ¬ ((!side.createCookie) = true) := by
        rw [hcookie]
        decide
      rw [if_neg hnot]
      cases create with
      | false => exact ⟨st, side, [], rfl, .idle hside (grows_nil presented
          (fun ss hss => ⟨ss, hss, rfl, rfl⟩) rfl) rfl⟩
      | true =>
          -- the request came without a cookie: the session is created under its GUID
          obtain ⟨h1, h2, h3, h4⟩ := hside.pending hstore hcookie
          obtain ⟨st₂, hcreate, hissued', hgrows', hnew⟩ :=
            createSession_spec clock ssl st side h1 h2 h3 h4
          rw [if_pos rfl, hcreate]
          refine ⟨st₂, _, [(side.guid, ssl)], rfl, hgrows', SideOk.of_store rfl, ?_, ?_, ?_⟩
          · intro key hk
            rw [hissued'] at hk
            exact Or.inl hk
          · intro c hc
            rw [List.mem_singleton.mp hc]
            exact ⟨rfl, Or.inr ⟨hstore, hcookie, rfl⟩⟩
          · exact Or.inr ⟨side.guid, hstore, rfl, .new (List.mem_singleton.mpr rfl) hnew⟩
    · have hcookie' : side.createCookie = false := by simpa using hcookie
      have hyes : (!side.createCookie) = true := by
        rw [hcookie']
        rfl
      rw [if_pos hyes]
      obtain ⟨st₁, hgrows, hissued, hfound | ⟨hfound, hss⟩⟩ :=
        findSessionStore_spec clock ssl st side presented
      · rw [hfound]
        dsimp only
        cases create with
        | false => exact ⟨st₁, side, [], rfl, .idle hside hgrows hissued⟩
        | true =>
            -- the cookie names no session: a new GUID, and a session under it
            have hnotOld : guid ∉ st.keys := fun hin => hfresh.notIssued (hkeys guid hin)
            have hunused : guid ∉ (st₁.generateGUID guid).keys := by
              intro hk
              rcases hgrows.keys hk with hk | hk
              · exact hnotOld hk
              · cases hk
            obtain ⟨st₂, hcreate, hissued', hgrows', hnew⟩ := createSession_spec clock ssl
              (st₁.generateGUID guid) { side with createCookie := true, guid := guid }
              List.mem_cons_self hfresh.notPresented hunused hfresh.fits
            rw [if_pos rfl, hcreate]
            have hdraw : Grows st (st₁.generateGUID guid) presented [] :=
              ⟨hgrows.tree, fun key hk => List.mem_cons_of_mem _ (hgrows.issued key hk),
                fun _ hc => absurd hc List.not_mem_nil⟩
            have hall : Grows st st₂ presented [(guid, ssl)] :=
              hdraw.trans hgrows' (by
                intro c hc
                rw [List.mem_singleton.mp hc]
                exact hnotOld)
            refine ⟨st₂, _, [(guid, ssl)], rfl, hall, SideOk.of_store rfl, ?_, ?_, ?_⟩
            · intro key hk
              rw [hissued'] at hk
              rcases List.mem_cons.mp hk with rfl | hk
              · exact Or.inr rfl
              · rw [hissued] at hk
                exact Or.inl hk
            · intro c hc
              rw [List.mem_singleton.mp hc]
              exact ⟨rfl, Or.inl rfl⟩
            · exact Or.inr ⟨guid, hstore, rfl, .new (List.mem_singleton.mpr rfl) hnew⟩
      · rw [hfound]
        refine ⟨st₁, _, [], rfl, hgrows, SideOk.of_store rfl, ?_, ?_, ?_⟩
        · intro key hk
          rw [hissued] at hk
          exact Or.inl hk
        · intro c hc
          cases hc
        · exact Or.inr ⟨side.guid, hstore, rfl, .found (hside.cookie hstore hcookie') hss⟩
  · rw [if_neg hstore]
    exact ⟨st, side, [], rfl, .idle hside (grows_nil presented
      (fun ss hss => ⟨ss, hss, rfl, rfl⟩) rfl) rfl⟩

/-- A session that is used now stays in the tree. -/
theorem restoreSide_keeps (clock : Clock) (create : Bool) (guid : List UInt8) (ssl : Bool)
    (st : Sessions) (side : SessionSide) {ss : SessionStore} (hmem : ss ∈ st.tree)
    (hnow : ss.lastUse = clock.now) :
    ss ∈ (restoreSide clock create guid ssl st side).1.tree := by
  have hlive : clock.expired ss = false := by
    unfold Clock.expired
    rw [hnow, UInt64.sub_self]
    simp
  have htimeout : ss ∈ (checkSessionTimeout clock st).tree := by
    unfold checkSessionTimeout
    split_ifs
    · exact hmem
    · exact List.mem_filter.mpr ⟨hmem, by rw [hlive]; rfl⟩
  have hfind : ss ∈ (findSessionStore clock ssl st side).1.tree := by
    unfold findSessionStore
    dsimp only
    cases rbExactQuery (checkSessionTimeout clock st).tree side.guid with
    | none => exact htimeout
    | some store =>
        dsimp only
        by_cases hssl : store.ssl = ssl
        · rw [if_pos hssl]
          refine List.mem_map.mpr ⟨ss, htimeout, ?_⟩
          by_cases hguid : ss.guid = store.guid
          · rw [if_pos hguid, ← hnow]
          · rw [if_neg hguid]
        · rw [if_neg hssl]
          exact htimeout
  unfold restoreSide
  by_cases hstore : side.store = none
  · rw [if_pos hstore]
    cases side.createCookie with
    | false =>
        simp only [Bool.not_false, if_true]
        rcases hresult : findSessionStore clock ssl st side with ⟨st₁, side₁, found⟩
        rw [hresult] at hfind
        cases found with
        | true => exact hfind
        | false =>
            dsimp only
            cases create with
            | true => exact List.mem_cons_of_mem _ hfind
            | false => exact hfind
    | true =>
        simp only [Bool.not_true, Bool.false_eq_true, if_false]
        cases create with
        | true => exact List.mem_cons_of_mem _ hmem
        | false => exact hmem
  · rw [if_neg hstore]
    exact hmem

/-! ## Both halves -/

/-- The two halves have not been given the same new GUID. -/
def Distinct (s : HttpRequest) : Prop :=
  s.plain.store = none → s.plain.createCookie = true → s.ssl.store = none →
    s.ssl.createCookie = true → s.plain.guid ≠ s.ssl.guid

/-- The cookie of a half. -/
def HttpRequest.cookie (s : HttpRequest) (ssl : Bool) : Option (List UInt8) :=
  checkCookie (cookieName ssl) s.cookieList

/-- A half of a request. -/
def HttpRequest.side (s : HttpRequest) (ssl : Bool) : SessionSide :=
  if ssl then s.ssl else s.plain

/-- What holds between two steps. -/
structure Inv (w : World) : Prop where
  keys : ∀ key ∈ w.sessions.keys, key ∈ w.sessions.issued
  plain : SideOk w.sessions w.presented (w.request.cookie false) w.request.plain
  ssl : w.request.useSsl = true →
    SideOk w.sessions w.presented (w.request.cookie true) w.request.ssl
  distinct : w.request.useSsl = true → Distinct w.request

theorem inv_start : Inv World.start := by
  refine ⟨?_, SideOk.of_store rfl, ?_, ?_⟩
  · intro key hk
    cases hk
  · intro h
    cases h
  · intro h
    cases h

/-- What a call of `restoreSession` does. -/
structure Restored (now : UInt64) (w w' : World) (created : List (List UInt8 × Bool)) : Prop where
  inv : Inv w'
  presented : w'.presented = w.presented
  grows : Grows w.sessions w'.sessions w.presented created
  attached : ∀ ssl, w'.request.side ssl = w.request.side ssl ∨
    ∃ key, (w.request.side ssl).store = none ∧ (w'.request.side ssl).store = some key ∧
      Attached now w.sessions w'.sessions created ssl (w.request.cookie ssl) key

theorem Grows.keys_issued {st st' : Sessions} {presented : List (List UInt8)}
    {created : List (List UInt8 × Bool)} (h : Grows st st' presented created)
    (hkeys : ∀ key ∈ st.keys, key ∈ st.issued) : ∀ key ∈ st'.keys, key ∈ st'.issued := by
  intro key hk
  rcases h.keys hk with hk | hk
  · exact h.issued key (hkeys key hk)
  · obtain ⟨c, hc, rfl⟩ := List.mem_map.mp hk
    exact (h.created c hc).1

/-- What the first half has attached, seen from the ends of the call. -/
theorem Attached.outer {now : UInt64} {st₀ st₁ st₂ st₃ : Sessions}
    {a b : List (List UInt8 × Bool)} {ssl : Bool} {cookie : Option (List UInt8)}
    {key : List UInt8} (h : Attached now st₁ st₂ a ssl cookie key)
    (hbefore : ∀ ss ∈ st₁.tree, ss.ssl = ssl →
      ∃ old ∈ st₀.tree, old.guid = ss.guid ∧ old.ssl = ss.ssl)
    (hafter : ∀ ss ∈ st₂.tree, ss.lastUse = now → ss ∈ st₃.tree)
    (hcreated : ∀ c ∈ a, c ∈ b) : Attached now st₀ st₃ b ssl cookie key := by
  cases h with
  | found hcookie hss =>
      obtain ⟨ss, hmem, hguid, hssl⟩ := hss
      obtain ⟨old, hold, hguid', hssl'⟩ := hbefore ss hmem hssl
      exact .found hcookie ⟨old, hold, hguid'.trans hguid, hssl'.trans hssl⟩
  | new hnew hss =>
      obtain ⟨ss, hmem, hguid, hssl, hvars, hnow⟩ := hss
      exact .new (hcreated _ hnew) ⟨ss, hafter ss hmem hnow, hguid, hssl, hvars, hnow⟩

/-- **A call of `restoreSession`.** -/
theorem restore_spec {w : World} (h : Inv w) (clock : Clock) (create : Bool)
    {guid guidSsl : List UInt8} (hfresh : FreshEvent w (.restore clock create guid guidSsl)) :
    ∃ created, Restored clock.now w (w.step (.restore clock create guid guidSsl)) created := by
  obtain ⟨hguid, hguidSsl, hne⟩ := hfresh
  obtain ⟨st₀, s, presented⟩ := w
  have htimeout := grows_checkSessionTimeout clock st₀ presented
  have hissued₁ := issued_checkSessionTimeout clock st₀
  have hkeys₁ := htimeout.keys_issued h.keys
  have hplain₁ := h.plain.mono htimeout (fun _ _ => List.not_mem_nil)
  have hguid₁ : Fresh (checkSessionTimeout clock st₀).issued presented guid := by
    rw [hissued₁]
    exact hguid
  obtain ⟨st₂, plain, created₁, hrun₁, hhalf₁⟩ :=
    restoreSide_spec clock create false hplain₁ hguid₁ hkeys₁
  have hkeys₂ := hhalf₁.grows.keys_issued hkeys₁
  have hnew₁ : ∀ c ∈ created₁, c.1 ∉ st₀.keys := by
    intro c hc
    rcases (hhalf₁.own c hc).2 with hg | ⟨hs, hcc, hg⟩
    · rw [hg]
      exact fun hin => hguid.notIssued (h.keys _ hin)
    · rw [hg]
      exact (h.plain.pending hs hcc).2.2.1
  have hgrows₂ : Grows st₀ st₂ presented created₁ := htimeout.trans hhalf₁.grows hnew₁
  have hbefore₁ : ∀ ss ∈ (checkSessionTimeout clock st₀).tree, ss.ssl = false →
      ∃ old ∈ st₀.tree, old.guid = ss.guid ∧ old.ssl = ss.ssl :=
    fun ss hss _ => ⟨ss, mem_checkSessionTimeout hss, rfl, rfl⟩
  by_cases huse : s.useSsl = true
  · -- the key that the plain half has created is not the one of the other half
    have hssl₂ : SideOk st₂ presented (s.cookie true) s.ssl := by
      refine (h.ssl huse).mono hgrows₂ ?_
      intro hs hc hin
      obtain ⟨c, hc', heq⟩ := List.mem_map.mp hin
      obtain ⟨hi, -, -, -⟩ := (h.ssl huse).pending hs hc
      rcases (hhalf₁.own c hc').2 with hg | ⟨hps, hpc, hg⟩
      · rw [heq] at hg
        exact hguid.notIssued (hg ▸ hi)
      · exact h.distinct huse hps hpc hs hc (hg.symm.trans heq)
    have hguid₂ : Fresh st₂.issued presented guidSsl := by
      refine ⟨hguidSsl.fits, ?_, hguidSsl.notPresented⟩
      intro hin
      rcases hhalf₁.issued _ hin with hin | heq
      · rw [hissued₁] at hin
        exact hguidSsl.notIssued hin
      · exact hne heq.symm
    obtain ⟨st₃, ssl, created₂, hrun₂, hhalf₂⟩ :=
      restoreSide_spec clock create true hssl₂ hguid₂ hkeys₂
    have hnew₂ : ∀ c ∈ created₂, c.1 ∉ st₀.keys := by
      intro c hc
      rcases (hhalf₂.own c hc).2 with hg | ⟨hs, hcc, hg⟩
      · rw [hg]
        exact fun hin => hguidSsl.notIssued (h.keys _ hin)
      · rw [hg]
        exact ((h.ssl huse).pending hs hcc).2.2.1
    have hgrows₃ := hgrows₂.trans hhalf₂.grows hnew₂
    have hstep : World.step ⟨st₀, s, presented⟩ (.restore clock create guid guidSsl) =
        ⟨st₃, { s with plain := plain, ssl := ssl }, presented⟩ := by
      simp only [World.step, restoreSession, hrun₁, hrun₂, huse, if_true]
    rw [hstep]
    have hkeep₂ : ∀ ss ∈ st₂.tree, ss.lastUse = clock.now → ss ∈ st₃.tree := by
      intro ss hss hnow
      have hkeep := restoreSide_keeps clock create guidSsl true st₂ s.ssl hss hnow
      rwa [hrun₂] at hkeep
    refine ⟨created₁ ++ created₂, ⟨hhalf₂.grows.keys_issued hkeys₂, ?_, fun _ => hhalf₂.ok, ?_⟩,
      rfl, hgrows₃, ?_⟩
    · refine hhalf₁.ok.mono hhalf₂.grows ?_
      intro hs hc hin
      obtain ⟨c, hc', heq⟩ := List.mem_map.mp hin
      rcases hhalf₁.attached with hsame | ⟨key, -, hsome, -⟩
      · rw [hsame] at hs hc heq
        obtain ⟨hi, -, -, -⟩ := h.plain.pending hs hc
        rcases (hhalf₂.own c hc').2 with hg | ⟨hss, hsc, hg⟩
        · rw [heq] at hg
          exact hguidSsl.notIssued (hg ▸ hi)
        · exact h.distinct huse hs hc hss hsc (heq.symm.trans hg)
      · have hnone : plain.store = none := hs
        rw [hsome] at hnone
        cases hnone
    · intro _ hps hpc hss hsc
      have hsame₁ : plain = s.plain := by
        rcases hhalf₁.attached with hsame | ⟨key, -, hsome, -⟩
        · exact hsame
        · have hnone : plain.store = none := hps
          rw [hsome] at hnone
          cases hnone
      have hsame₂ : ssl = s.ssl := by
        rcases hhalf₂.attached with hsame | ⟨key, -, hsome, -⟩
        · exact hsame
        · have hnone : ssl.store = none := hss
          rw [hsome] at hnone
          cases hnone
      rw [hsame₁] at hps hpc ⊢
      rw [hsame₂] at hss hsc ⊢
      exact h.distinct huse hps hpc hss hsc
    · intro kind
      cases kind with
      | false =>
          rcases hhalf₁.attached with hsame | ⟨key, hs, hsome, hatt⟩
          · exact Or.inl hsame
          · exact Or.inr ⟨key, hs, hsome, hatt.outer hbefore₁ hkeep₂
              (fun c hc => List.mem_append_left _ hc)⟩
      | true =>
          rcases hhalf₂.attached with hsame | ⟨key, hs, hsome, hatt⟩
          · exact Or.inl hsame
          · refine Or.inr ⟨key, hs, hsome, hatt.outer ?_ (fun ss hss _ => hss)
              (fun c hc => List.mem_append_right _ hc)⟩
            -- a session over TLS is not one that the plain half has created
            intro ss hss hssl
            rcases hgrows₂.tree ss hss with hold | hnew
            · exact hold
            · have hkind := (hhalf₁.own _ hnew).1
              rw [hssl] at hkind
              cases hkind
  · have hstep : World.step ⟨st₀, s, presented⟩ (.restore clock create guid guidSsl) =
        ⟨st₂, { s with plain := plain }, presented⟩ := by
      simp only [World.step, restoreSession, hrun₁, if_neg huse]
    rw [hstep]
    refine ⟨created₁, ⟨hkeys₂, hhalf₁.ok, fun h => absurd h huse, fun h => absurd h huse⟩, rfl,
      hgrows₂, ?_⟩
    intro kind
    cases kind with
    | false =>
        rcases hhalf₁.attached with hsame | ⟨key, hs, hsome, hatt⟩
        · exact Or.inl hsame
        · exact Or.inr ⟨key, hs, hsome, hatt.outer hbefore₁ (fun ss hss _ => hss)
            (fun c hc => hc)⟩
    | true => exact Or.inl rfl

/-! ## A new request -/

/-- One half of `checkSessionCookie`, for a half that is new. -/
theorem checkSessionSide_spec {guid : List UInt8} (ssl : Bool) (cookies : List Cookie)
    {st : Sessions} {presented : List (List UInt8)} (hfresh : Fresh st.issued presented guid)
    (hkeys : ∀ key ∈ st.keys, key ∈ st.issued) :
    ∃ st' side, checkSessionSide guid ssl cookies st {} = (st', side) ∧ st'.tree = st.tree ∧
      (∀ key ∈ st.issued, key ∈ st'.issued) ∧ (∀ key ∈ st'.issued, key ∈ st.issued ∨ key = guid) ∧
      SideOk st' presented (checkCookie (cookieName ssl) cookies) side ∧
      side.store = none ∧ (side.createCookie = true → side.guid = guid) := by
  unfold checkSessionSide
  cases hcookie : checkCookie (cookieName ssl) cookies with
  | some value =>
      refine ⟨st, _, rfl, rfl, fun _ h => h, fun _ h => Or.inl h, ?_, rfl, ?_⟩
      · refine ⟨fun _ _ => rfl, ?_⟩
        intro _ h
        cases h
      · intro h
        cases h
  | none =>
      refine ⟨st.generateGUID guid, _, rfl, rfl, fun _ h => List.mem_cons_of_mem _ h, ?_, ?_, rfl,
        fun _ => rfl⟩
      · intro key hk
        rcases List.mem_cons.mp hk with rfl | hk
        · exact Or.inr rfl
        · exact Or.inl hk
      · refine ⟨?_, fun _ _ => ⟨List.mem_cons_self, hfresh.notPresented, ?_, hfresh.fits⟩⟩
        · intro _ h
          cases h
        · intro hin
          exact hfresh.notIssued (hkeys guid hin)

/-- **A new request** leaves the tree as it is. -/
theorem request_spec {w : World} (h : Inv w) (cookies : List Cookie) (useSsl : Bool)
    {guid guidSsl : List UInt8} (hfresh : FreshEvent w (.request cookies useSsl guid guidSsl)) :
    Inv (w.step (.request cookies useSsl guid guidSsl)) ∧
      (w.step (.request cookies useSsl guid guidSsl)).sessions.tree = w.sessions.tree ∧
      ∀ ssl, ((w.step (.request cookies useSsl guid guidSsl)).request.side ssl).store = none := by
  obtain ⟨hguid, hguidSsl, hne⟩ := hfresh
  obtain ⟨st₀, s, presented⟩ := w
  obtain ⟨st₁, plain, hrun₁, htree₁, hmono₁, hissued₁, hok₁, hstore₁, hpending₁⟩ :=
    checkSessionSide_spec false cookies hguid h.keys
  have hkeysEq₁ : st₁.keys = st₀.keys := by rw [Sessions.keys, htree₁]; rfl
  have hkeys₁ : ∀ key ∈ st₁.keys, key ∈ st₁.issued := by
    intro key hk
    rw [hkeysEq₁] at hk
    exact hmono₁ key (h.keys key hk)
  cases useSsl with
  | false =>
      have hstep : World.step ⟨st₀, s, presented⟩ (.request cookies false guid guidSsl) =
          ⟨st₁, { cookieList := cookies, useSsl := false, plain := plain },
            cookies.map (fun c => copiedValue c.value) ++ presented⟩ := by
        simp only [World.step, checkSessionCookie, hrun₁, Bool.false_eq_true, if_false]
      rw [hstep]
      refine ⟨⟨hkeys₁, hok₁, ?_, ?_⟩, htree₁, ?_⟩
      · intro hno
        cases hno
      · intro hno
        cases hno
      · intro ssl
        cases ssl with
        | false => exact hstore₁
        | true => rfl
  | true =>
      have hfresh₂ : Fresh st₁.issued (cookies.map (fun c => copiedValue c.value) ++ presented)
          guidSsl := by
        refine ⟨hguidSsl.fits, ?_, hguidSsl.notPresented⟩
        intro hin
        rcases hissued₁ _ hin with hin | heq
        · exact hguidSsl.notIssued hin
        · exact hne heq.symm
      obtain ⟨st₂, ssl, hrun₂, htree₂, hmono₂, hissued₂, hok₂, hstore₂, hpending₂⟩ :=
        checkSessionSide_spec true cookies hfresh₂ hkeys₁
      have hstep : World.step ⟨st₀, s, presented⟩ (.request cookies true guid guidSsl) =
          ⟨st₂, { cookieList := cookies, useSsl := true, plain := plain, ssl := ssl },
            cookies.map (fun c => copiedValue c.value) ++ presented⟩ := by
        simp only [World.step, checkSessionCookie, hrun₁, hrun₂, if_true]
      have hgrows : Grows st₁ st₂ (cookies.map (fun c => copiedValue c.value) ++ presented) [] := by
        refine ⟨?_, hmono₂, fun _ hc => absurd hc List.not_mem_nil⟩
        intro ss hss
        rw [htree₂] at hss
        exact Or.inl ⟨ss, hss, rfl, rfl⟩
      rw [hstep]
      refine ⟨⟨hgrows.keys_issued hkeys₁, hok₁.mono hgrows (fun _ _ => List.not_mem_nil),
        fun _ => hok₂, ?_⟩, htree₂.trans htree₁, ?_⟩
      · intro _ _ hpc _ hsc heq
        rw [hpending₁ hpc, hpending₂ hsc] at heq
        exact hne heq
      · intro kind
        cases kind with
        | false => exact hstore₁
        | true => exact hstore₂

/-! ## Runs -/

/-- **One step**: the invariant is kept, what was presented stays so, and a value that was
presented does not become a key. -/
theorem step_spec {w : World} (h : Inv w) {e : Event} (hfresh : FreshEvent w e) :
    Inv (w.step e) ∧ (∀ value ∈ w.presented, value ∈ (w.step e).presented) ∧
      ∀ value ∈ w.presented, value ∉ w.sessions.keys → value ∉ (w.step e).sessions.keys := by
  cases e with
  | request cookies useSsl guid guidSsl =>
      obtain ⟨hinv, htree, -⟩ := request_spec h cookies useSsl hfresh
      refine ⟨hinv, fun value hv => List.mem_append_right _ hv, ?_⟩
      intro value _ hno hin
      unfold Sessions.keys at hno hin
      rw [htree] at hin
      exact hno hin
  | restore clock create guid guidSsl =>
      obtain ⟨created, hrestored⟩ := restore_spec h clock create hfresh
      refine ⟨hrestored.inv, ?_, ?_⟩
      · intro value hv
        rw [hrestored.presented]
        exact hv
      · intro value hv hno hin
        rcases hrestored.grows.keys hin with hin | hin
        · exact hno hin
        · obtain ⟨c, hc, rfl⟩ := List.mem_map.mp hin
          exact (hrestored.grows.created c hc).2.1 hv

theorem FreshRun.append {w : World} {before after : List Event}
    (h : FreshRun w (before ++ after)) : FreshRun w before ∧ FreshRun (w.run before) after := by
  induction before generalizing w with
  | nil => exact ⟨trivial, h⟩
  | cons e before ih =>
      obtain ⟨h1, h2⟩ := h
      obtain ⟨h3, h4⟩ := ih h2
      exact ⟨⟨h1, h3⟩, h4⟩

theorem run_spec {w : World} (h : Inv w) {events : List Event} (hfresh : FreshRun w events) :
    Inv (w.run events) ∧
      ∀ value ∈ w.presented, value ∉ w.sessions.keys → value ∉ (w.run events).sessions.keys := by
  induction events generalizing w with
  | nil => exact ⟨h, fun _ _ hno => hno⟩
  | cons e events ih =>
      obtain ⟨he, hrest⟩ := hfresh
      obtain ⟨hinv, hpresented, hkeys⟩ := step_spec h he
      obtain ⟨hinv', hkeys'⟩ := ih hinv hrest
      refine ⟨hinv', ?_⟩
      intro value hv hno
      exact hkeys' value (hpresented value hv) (hkeys value hv hno)

/-- **No session fixation.** Whatever cookies the requests bring, at the end of every run: the
keys of the tree are values that `generateGUID` has returned; a cookie value that was no key when
it had been sent is none later; and a request gets a session only when it calls `restoreSession`,
where the session is one of its kind that was in the tree under the value of its cookie, or a new
one, under a value of `generateGUID` that no client had sent and that was no key. -/
theorem sessions_not_fixed (events : List Event) (hfresh : FreshRun World.start events) :
    (∀ key ∈ (World.start.run events).sessions.keys,
        key ∈ (World.start.run events).sessions.issued) ∧
      (∀ before after, events = before ++ after →
        ∀ value ∈ (World.start.run before).presented,
          value ∉ (World.start.run before).sessions.keys →
          value ∉ (World.start.run events).sessions.keys) ∧
      (∀ before after cookies useSsl guid guidSsl,
        events = before ++ .request cookies useSsl guid guidSsl :: after →
        ∀ ssl, (((World.start.run before).step
          (.request cookies useSsl guid guidSsl)).request.side ssl).store = none) ∧
      ∀ before after clock create guid guidSsl,
        events = before ++ .restore clock create guid guidSsl :: after →
        ∀ w w', w = World.start.run before → w' = w.step (.restore clock create guid guidSsl) →
          ∀ ssl, w'.request.side ssl = w.request.side ssl ∨
            ∃ key, (w.request.side ssl).store = none ∧ (w'.request.side ssl).store = some key ∧
              ((w.request.cookie ssl = some key ∧
                  ∃ ss ∈ w.sessions.tree, ss.guid = key ∧ ss.ssl = ssl) ∨
                (key ∈ w'.sessions.issued ∧ key ∉ w.presented ∧ key ∉ w.sessions.keys ∧
                  ∃ ss ∈ w'.sessions.tree, ss.guid = key ∧ ss.ssl = ssl ∧ ss.vars = [])) := by
  refine ⟨(run_spec inv_start hfresh).1.keys, ?_, ?_, ?_⟩
  · intro before after hsplit
    subst hsplit
    obtain ⟨hbefore, hafter⟩ := hfresh.append
    have hinv := (run_spec inv_start hbefore).1
    intro value hv hno
    have hlater := (run_spec hinv hafter).2 value hv hno
    unfold World.run at hlater ⊢
    rwa [List.foldl_append]
  · intro before after cookies useSsl guid guidSsl hsplit
    subst hsplit
    obtain ⟨hbefore, hafter⟩ := hfresh.append
    have hinv := (run_spec inv_start hbefore).1
    exact (request_spec hinv cookies useSsl hafter.1).2.2
  · intro before after clock create guid guidSsl hsplit w w' hw hw' ssl
    subst hsplit hw hw'
    obtain ⟨hbefore, hafter⟩ := hfresh.append
    have hinv := (run_spec inv_start hbefore).1
    obtain ⟨created, hrestored⟩ := restore_spec hinv clock create hafter.1
    rcases hrestored.attached ssl with hsame | ⟨key, hnone, hsome, hatt⟩
    · exact Or.inl hsame
    · refine Or.inr ⟨key, hnone, hsome, ?_⟩
      cases hatt with
      | found hcookie hss => exact Or.inl ⟨hcookie, hss⟩
      | new hcreated hss =>
          obtain ⟨h1, h2, h3⟩ := hrestored.grows.created _ hcreated
          obtain ⟨ss, hmem, hguid, hssl, hvars, -⟩ := hss
          exact Or.inr ⟨h1, h2, h3, ss, hmem, hguid, hssl, hvars⟩

/-- A client sends a value of its own: the session that it gets is under another key. -/
theorem sessions_not_fixed_attack :
    (World.start.run [.request [⟨ascii "session-id", ascii "chosen"⟩] false (ascii "g1") (ascii "g2"),
        .restore ⟨100, 1, 600⟩ true (ascii "g3") (ascii "g4")]).sessions.keys = [ascii "g3"] ∧
      ascii "chosen" ∉ (World.start.run
        [.request [⟨ascii "session-id", ascii "chosen"⟩] false (ascii "g1") (ascii "g2"),
          .restore ⟨100, 1, 600⟩ true (ascii "g3") (ascii "g4")]).sessions.keys := by
  have hfresh : FreshRun World.start
      [.request [⟨ascii "session-id", ascii "chosen"⟩] false (ascii "g1") (ascii "g2"),
        .restore ⟨100, 1, 600⟩ true (ascii "g3") (ascii "g4")] := by
    refine ⟨⟨⟨by decide, by decide, by decide +kernel⟩, ⟨by decide, by decide, by decide +kernel⟩,
      by decide⟩, ⟨⟨by decide, by decide +kernel, by decide +kernel⟩,
      ⟨by decide, by decide +kernel, by decide +kernel⟩, by decide⟩, trivial⟩
  refine ⟨by decide +kernel, ?_⟩
  exact (sessions_not_fixed _ hfresh).2.1 [.request [⟨ascii "session-id", ascii "chosen"⟩] false
    (ascii "g1") (ascii "g2")] [.restore ⟨100, 1, 600⟩ true (ascii "g3") (ascii "g4")] rfl
    (ascii "chosen") (by decide +kernel) (by decide +kernel)

end CWebUI.Session
