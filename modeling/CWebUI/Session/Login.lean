import CWebUI.Session.Integrity

set_option autoImplicit false

/-! # Logging in and out

`setUserRegistered` (`session.c`) writes the login state into the plain session and into the one
over TLS, and looks whether it is there. The text that `generateGUID` returns is an argument.
-/

namespace CWebUI.Session

open ByteString CWebUI.Http

/-! ## The model -/

/-- The four writes of `setUserRegistered`: the identifier that links the two sessions, and the
status. -/
def writeLoginState (st : Variables) (i : Nat) (buf1 status : List UInt8) : Variables :=
  let (st, _) := intSetSessionValue st i .sessionStore (ascii "session-id") (some buf1)
  let (st, _) := intSetSessionValue st i .sessionStoreSsl (ascii "session-id-ssl") (some buf1)
  let (st, _) := intSetSessionValue st i .sessionStore (ascii "registered") (some status)
  let (st, _) := intSetSessionValue st i .sessionStoreSsl (ascii "registered") (some status)
  st

/-- The last look of `setUserRegistered` at the identifiers. -/
def loginStateWritten (st : Variables) (i : Nat) (buf1 : List UInt8) : Bool :=
  match st.value i .sessionStore (ascii "session-id") with
  | none => false
  | some var =>
      if guidCmp var.text buf1 then
        match st.value i .sessionStoreSsl (ascii "session-id-ssl") with
        | none => false
        | some var => guidCmp var.text buf1
      else false

/-- `setUserRegistered` -/
def setUserRegistered (guid : List UInt8) (st : Variables) (i : Nat) (status : UInt8) :
    Variables × Bool :=
  if status = 0 then
    if checkUserRegistered st i ≠ .notRegistered then
      (writeLoginState st i [] (ascii "false"), true)
    else (st, true)
  else if status = 1 then
    if checkUserRegistered st i = .sslCheckOk then (st, true)
    else
      let st := writeLoginState st i guid (ascii "true")
      (st, loginStateWritten st i guid)
  else (st, false)

/-! ## One write -/

/-- An assignment changes the values of the names under which the variable is found. -/
theorem valueIn_setValue (memory : List WsVar) (vars : List Nat) (id : Nat) (value : WsValue)
    (name : List UInt8) (hid : id < memory.length) :
    valueIn (setValue memory id value) vars name =
      if searchVariable memory vars name = some id then some value
      else valueIn memory vars name := by
  have hnames : searchVariable (setValue memory id value) vars name =
      searchVariable memory vars name :=
    searchVariable_congr (fun x _ => (varAt_setValue memory id value x).1) name
  unfold valueIn
  rw [hnames]
  cases hsearch : searchVariable memory vars name with
  | none => rw [if_neg (fun h => nomatch h), Option.map_none, Option.map_none]
  | some x =>
      by_cases hx : x = id
      · subst hx
        rw [if_pos rfl, Option.map_some]
        unfold varAt setValue
        rw [List.getD_eq_getElem?_getD, List.getElem?_modify_eq, List.getElem?_eq_getElem hid]
        rfl
      · rw [if_neg (fun h => hx (Option.some.inj h)), Option.map_some, Option.map_some,
          (varAt_setValue memory id value x).2 hx]

/-- The variable of a name behind `newSessionVariable`. -/
theorem newSessionVariable_found {st : Variables} {ss : SessionStore}
    (hss : rbExactQuery st.sessions ss.guid = some ss) (h : WellFormed st) (name : List UInt8) :
    ∃ ss', rbExactQuery (st.newSessionVariable ss name).1.sessions ss.guid = some ss' ∧
      searchVariable (st.newSessionVariable ss name).1.memory ss'.vars name =
        some (st.newSessionVariable ss name).2 := by
  rcases newSessionVariable_cases hss name with ⟨id, hsearch, heq⟩ | ⟨hsearch, heq⟩
  · rw [heq]
    exact ⟨ss, hss, hsearch⟩
  · rw [heq]
    have hquery := rbExactQuery_updateSession
      (f := fun x : SessionStore => { x with vars := ss.vars ++ [st.memory.length] })
      (fun _ => rfl) ss.guid st.sessions ss.guid
    rw [if_pos rfl, hss] at hquery
    refine ⟨_, hquery, ?_⟩
    have hold : searchVariable (st.memory ++ [{ name := name }]) ss.vars name =
        searchVariable st.memory ss.vars name :=
      searchVariable_congr (fun id hid => by
        rw [varAt_append _ (h.allocated ss (rbExactQuery_mem hss).1 id hid)]) name
    rw [hsearch] at hold
    change searchVariable (st.memory ++ [{ name := name }]) (ss.vars ++ [st.memory.length]) name =
      some st.memory.length
    unfold searchVariable at hold ⊢
    rw [List.find?_append, hold, Option.none_or, List.find?_cons, varAt_append_self,
      beq_self_eq_true]

/-- The sessions behind `newSessionVariable`. -/
theorem newSessionVariable_query {st : Variables} {ss : SessionStore}
    (hss : rbExactQuery st.sessions ss.guid = some ss) (name guid : List UInt8) :
    (guid ≠ ss.guid → rbExactQuery (st.newSessionVariable ss name).1.sessions guid =
      rbExactQuery st.sessions guid) ∧
    (rbExactQuery (st.newSessionVariable ss name).1.sessions guid).isSome =
      (rbExactQuery st.sessions guid).isSome := by
  rcases newSessionVariable_cases hss name with ⟨id, -, heq⟩ | ⟨-, heq⟩
  · rw [heq]
    exact ⟨fun _ => rfl, rfl⟩
  · rw [heq]
    have hquery := rbExactQuery_updateSession
      (f := fun x : SessionStore => { x with vars := ss.vars ++ [st.memory.length] })
      (fun _ => rfl) ss.guid st.sessions guid
    unfold Variables.pushVariable
    rw [hquery]
    by_cases hg : guid = ss.guid
    · rw [if_pos hg, Option.isSome_map]
      exact ⟨fun hne => absurd hg hne, rfl⟩
    · rw [if_neg hg]
      exact ⟨fun _ => rfl, rfl⟩

/-- What the write of a session variable changes: in its session the name has the value, and
elsewhere at most the same value comes under this name. -/
theorem valueByGuid_write {st : Variables} {ss : SessionStore}
    (hss : rbExactQuery st.sessions ss.guid = some ss) (h : WellFormed st) (name : List UInt8)
    (value : WsValue) (guid other : List UInt8) :
    let st' : Variables := { (st.newSessionVariable ss name).1 with
      memory := setValue (st.newSessionVariable ss name).1.memory
        (st.newSessionVariable ss name).2 value }
    if guid = ss.guid ∧ other = name then st'.valueByGuid guid other = some value
    else st'.valueByGuid guid other = st.valueByGuid guid other ∨
      (other = name ∧ st'.valueByGuid guid other = some value) := by
  have hnew := h.newSessionVariable hss name
  have hname := newSessionVariable_name hss name
  obtain ⟨ss', hss', hfound⟩ := newSessionVariable_found hss h name
  have hid : (st.newSessionVariable ss name).2 <
      (st.newSessionVariable ss name).1.memory.length :=
    hnew.allocated ss' (rbExactQuery_mem hss').1 _ (searchVariable_some hfound).1
  have hkept : other ≠ name ∨ guid ≠ ss.guid →
      (st.newSessionVariable ss name).1.valueByGuid guid other = st.valueByGuid guid other := by
    intro hne
    rcases newSessionVariable_cases hss name with ⟨id, -, heq⟩ | ⟨-, heq⟩
    · rw [heq]
    · rw [heq]
      exact valueByGuid_pushVariable h hss hne
  generalize st.newSessionVariable ss name = r at *
  obtain ⟨st₁, id⟩ := r
  dsimp only at *
  unfold Variables.valueByGuid at hkept ⊢
  dsimp only
  split_ifs with hwritten
  · obtain ⟨rfl, rfl⟩ := hwritten
    rw [hss', Option.bind_some, valueIn_setValue _ _ _ _ _ hid, if_pos hfound]
  · have hne : other ≠ name ∨ guid ≠ ss.guid := by
      by_cases hother : other = name
      · exact Or.inr fun hguid => hwritten ⟨hguid, hother⟩
      · exact Or.inl hother
    have hold := hkept hne
    cases hquery : rbExactQuery st₁.sessions guid with
    | none =>
        rw [hquery] at hold
        exact Or.inl hold
    | some x =>
        rw [hquery, Option.bind_some] at hold
        rw [Option.bind_some, valueIn_setValue _ _ _ _ _ hid]
        split_ifs with hsame
        · exact Or.inr ⟨(searchVariable_some hsame).2.symm.trans hname, rfl⟩
        · exact Or.inl hold

/-- What a write of a session variable does: in its session the name has the value, and anywhere
else at most the same value comes under this name. -/
structure Wrote (st st' : Variables) (i : Nat) (store : StoreTypes) (name : List UInt8)
    (value : WsValue) : Prop where
  wellFormed : WellFormed st'
  requests : st'.requests = st.requests
  sessionOf : ∀ j s, (st'.sessionOf j s).isSome = (st.sessionOf j s).isSome
  written : (st.sessionOf i store).isSome → st'.value i store name = some value
  same : ∀ j s, st'.value j s name = st.value j s name ∨ st'.value j s name = some value
  others : ∀ j s other, other ≠ name → st'.value j s other = st.value j s other

/-- The requests behind `newSessionVariable`. -/
theorem newSessionVariable_requests (st : Variables) (ss : SessionStore) (name : List UInt8) :
    (st.newSessionVariable ss name).1.requests = st.requests := rfl

theorem intSetSessionValue_wrote {st : Variables} (h : WellFormed st) (i : Nat)
    (store : StoreTypes) (name text : List UInt8) :
    Wrote st (intSetSessionValue st i store name (some text)).1 i store name
      (.string (cString text)) := by
  unfold intSetSessionValue
  cases hsession : st.sessionOf i store with
  | none =>
      exact ⟨h, rfl, fun _ _ => rfl, fun hsome => by simp [hsession] at hsome,
        fun _ _ => Or.inl rfl, fun _ _ _ _ => rfl⟩
  | some ss =>
      have hss := sessionOf_query hsession
      have hwrite := valueByGuid_write hss h name (.string (cString text))
      have hquery := newSessionVariable_query hss name
      have hwell := (h.newSessionVariable hss name).assign
        (st.newSessionVariable ss name).2 (.string (cString text))
      refine ⟨hwell, rfl, fun j s => ?_, fun _ => ?_, fun j s => ?_, fun j s other hne => ?_⟩
      · unfold Variables.sessionOf
        dsimp only
        rw [newSessionVariable_requests]
        cases (st.requests j).session s with
        | none => rfl
        | some guid => exact (hquery guid).2
      · unfold Variables.sessionOf at hsession
        obtain ⟨guid, hguid, hfind⟩ := Option.bind_eq_some_iff.mp hsession
        have hthis := hwrite ss.guid name
        dsimp only at hthis
        rw [if_pos ⟨rfl, rfl⟩] at hthis
        rw [value_eq]
        dsimp only
        rw [newSessionVariable_requests, hguid, Option.bind_some, ← (rbExactQuery_mem hfind).2]
        exact hthis
      · rw [value_eq, value_eq]
        dsimp only
        rw [newSessionVariable_requests]
        cases (st.requests j).session s with
        | none => exact Or.inl rfl
        | some guid =>
            have hthis := hwrite guid name
            dsimp only at hthis
            split_ifs at hthis with hsame
            · exact Or.inr hthis
            · exact hthis.imp_right And.right
      · rw [value_eq, value_eq]
        dsimp only
        rw [newSessionVariable_requests]
        cases (st.requests j).session s with
        | none => rfl
        | some guid =>
            have hthis := hwrite guid other
            dsimp only at hthis
            rw [if_neg fun hboth => hne hboth.2] at hthis
            exact hthis.resolve_right fun hboth => hne hboth.1

/-! ## The four writes -/

/-- The login state that the four writes leave. -/
structure LoginState (st st' : Variables) (i : Nat) (buf1 status : List UInt8) : Prop where
  requests : st'.requests = st.requests
  sessionOf : ∀ s, (st'.sessionOf i s).isSome = (st.sessionOf i s).isSome
  sessionId : (st.sessionOf i .sessionStore).isSome →
    st'.value i .sessionStore (ascii "session-id") = some (.string buf1)
  sessionIdSsl : (st.sessionOf i .sessionStoreSsl).isSome →
    st'.value i .sessionStoreSsl (ascii "session-id-ssl") = some (.string buf1)
  registered : ∀ s, (st.sessionOf i s).isSome →
    st'.value i s (ascii "registered") = some (.string status)

theorem writeLoginState_spec {st : Variables} (h : WellFormed st) (i : Nat)
    {buf1 status : List UInt8} (hbuf1 : (0 : UInt8) ∉ buf1) (hstatus : (0 : UInt8) ∉ status) :
    LoginState st (writeLoginState st i buf1 status) i buf1 status := by
  have w₁ := intSetSessionValue_wrote h i .sessionStore (ascii "session-id") buf1
  have w₂ := intSetSessionValue_wrote w₁.wellFormed i .sessionStoreSsl (ascii "session-id-ssl") buf1
  have w₃ := intSetSessionValue_wrote w₂.wellFormed i .sessionStore (ascii "registered") status
  have w₄ := intSetSessionValue_wrote w₃.wellFormed i .sessionStoreSsl (ascii "registered") status
  rw [cString_of_not_mem hbuf1] at w₁ w₂
  rw [cString_of_not_mem hstatus] at w₃ w₄
  have hplain : ascii "session-id" ≠ ascii "registered" := by decide
  have hssl : ascii "session-id-ssl" ≠ ascii "registered" := by decide
  have hids : ascii "session-id" ≠ ascii "session-id-ssl" := by decide
  refine ⟨?_, fun s => ?_, fun hsome => ?_, fun hsome => ?_, fun s hsome => ?_⟩
  · exact w₄.requests.trans (w₃.requests.trans (w₂.requests.trans w₁.requests))
  · exact (w₄.sessionOf i s).trans ((w₃.sessionOf i s).trans ((w₂.sessionOf i s).trans
      (w₁.sessionOf i s)))
  · exact (w₄.others i _ _ hplain).trans ((w₃.others i _ _ hplain).trans
      ((w₂.others i _ _ hids).trans (w₁.written hsome)))
  · exact (w₄.others i _ _ hssl).trans ((w₃.others i _ _ hssl).trans
      (w₂.written ((w₁.sessionOf i _).trans hsome)))
  · have hsome₂ := (w₂.sessionOf i s).trans ((w₁.sessionOf i s).trans hsome)
    cases s with
    | sessionStore =>
        -- the last write may at most bring the same value again
        rcases w₄.same i .sessionStore with hold | hnew
        · exact hold.trans (w₃.written hsome₂)
        · exact hnew
    | sessionStoreSsl => exact w₄.written ((w₃.sessionOf i _).trans hsome₂)

/-! ## The result of the check -/

/-- A request without a session has no values of it. -/
theorem value_none {st : Variables} {i : Nat} {store : StoreTypes}
    (h : (st.sessionOf i store).isSome = false) (name : List UInt8) :
    st.value i store name = none := by
  unfold Variables.value intGetSessionValue
  rw [Option.isSome_eq_false_iff, Option.isNone_iff_eq_none] at h
  rw [h, Option.bind_none, Option.map_none]

/-- The plain session of a request is logged in. -/
def LoggedIn (st : Variables) (i : Nat) : Prop :=
  st.value i .sessionStore (ascii "registered") = some (.string (ascii "true")) ∧
    (st.value i .sessionStore (ascii "session-id")).isSome

/-- Without a plain session that says so nobody is registered. -/
theorem checkUserRegistered_false {st : Variables} {i : Nat}
    (h : st.value i .sessionStore (ascii "registered") ≠ some (.string (ascii "true"))) :
    checkUserRegistered st i = .notRegistered := by
  unfold checkUserRegistered
  rw [if_pos h]

/-- The check without a session over TLS. -/
theorem checkUserRegistered_plain {st : Variables} {i : Nat}
    (h : (st.sessionOf i .sessionStoreSsl).isSome = false) :
    (LoggedIn st i → checkUserRegistered st i =
      if (st.requests i).useSsl then .sessionMismatchError else .normalCheckOk) ∧
    (¬ LoggedIn st i → checkUserRegistered st i = .notRegistered) := by
  by_cases hregistered :
      st.value i .sessionStore (ascii "registered") = some (.string (ascii "true"))
  · unfold checkUserRegistered LoggedIn
    rw [if_neg (not_not.mpr hregistered), value_none h (ascii "session-id-ssl")]
    cases st.value i .sessionStore (ascii "session-id") with
    | none => exact ⟨fun hlogged => absurd hlogged.2 (by decide), fun _ => rfl⟩
    | some id => exact ⟨fun _ => rfl, fun hlogged => absurd ⟨hregistered, rfl⟩ hlogged⟩
  · exact ⟨fun hlogged => absurd hlogged.1 hregistered, fun _ =>
      checkUserRegistered_false hregistered⟩

/-- Both sessions have the same identifier and say that the user is registered. -/
theorem checkUserRegistered_ssl {st : Variables} {i : Nat} {guid : List UInt8}
    (hssl : (st.requests i).useSsl = true) (hguid : guid ≠ [])
    (hregistered : ∀ s, st.value i s (ascii "registered") = some (.string (ascii "true")))
    (hid : st.value i .sessionStore (ascii "session-id") = some (.string guid))
    (hidSsl : st.value i .sessionStoreSsl (ascii "session-id-ssl") = some (.string guid)) :
    checkUserRegistered st i = .sslCheckOk := by
  have hsame : guidCmp guid guid = true := decide_eq_true ⟨hguid, rfl⟩
  unfold checkUserRegistered
  rw [if_neg (not_not.mpr (hregistered _)), hid, hidSsl, hregistered, hssl]
  simp [WsValue.text, hsame]

/-! ## Logging in -/

/-- What a login and a logout of a request are to do: a login that fails changes nothing for the
check, one that succeeds is seen by it, and so is a logout. -/
structure LoginAtomic (guid : List UInt8) (st : Variables) (i : Nat) : Prop where
  failed : (setUserRegistered guid st i 1).2 = false →
    checkUserRegistered (setUserRegistered guid st i 1).1 i = checkUserRegistered st i
  succeeded : (setUserRegistered guid st i 1).2 = true →
    checkUserRegistered (setUserRegistered guid st i 1).1 i = .normalCheckOk ∨
      checkUserRegistered (setUserRegistered guid st i 1).1 i = .sslCheckOk
  loggedOut : checkUserRegistered (setUserRegistered guid st i 0).1 i = .notRegistered

variable {st : Variables} {guid : List UInt8}

/-- A session over TLS is reached over TLS only. -/
theorem useSsl_of_sessionOf {i : Nat} (h : (st.sessionOf i .sessionStoreSsl).isSome = true) :
    (st.requests i).useSsl = true := by
  unfold Variables.sessionOf RequestVars.session at h
  by_contra hplain
  rw [if_neg hplain, Option.bind_none] at h
  cases h

theorem setUserRegistered_logout (h : WellFormed st) (guid : List UInt8) (i : Nat) :
    checkUserRegistered (setUserRegistered guid st i 0).1 i = .notRegistered := by
  unfold setUserRegistered
  rw [if_pos rfl]
  split_ifs with hcheck
  · have hnil : (0 : UInt8) ∉ [] := List.not_mem_nil
    have hspec := writeLoginState_spec h i hnil (by decide : (0 : UInt8) ∉ ascii "false")
    refine checkUserRegistered_false ?_
    cases hsome : (st.sessionOf i .sessionStore).isSome with
    | false =>
        rw [value_none ((hspec.sessionOf _).trans hsome)]
        exact fun heq => nomatch heq
    | true =>
        rw [hspec.registered _ hsome]
        decide
  · exact not_not.mp hcheck

/-- The last look finds the login state exactly if both sessions are there. -/
theorem loginStateWritten_iff {st' : Variables} {i : Nat} {status : List UInt8} (hguid : guid ≠ [])
    (hspec : LoginState st st' i guid status) :
    loginStateWritten st' i guid = true ↔
      (st.sessionOf i .sessionStore).isSome ∧ (st.sessionOf i .sessionStoreSsl).isSome := by
  have hsame : guidCmp guid guid = true := decide_eq_true ⟨hguid, rfl⟩
  unfold loginStateWritten
  cases hplain : (st.sessionOf i .sessionStore).isSome with
  | false =>
      rw [value_none ((hspec.sessionOf _).trans hplain)]
      simp
  | true =>
      rw [hspec.sessionId hplain]
      cases hssl : (st.sessionOf i .sessionStoreSsl).isSome with
      | false =>
          rw [value_none ((hspec.sessionOf _).trans hssl)]
          simp [WsValue.text, hsame]
      | true =>
          rw [hspec.sessionIdSsl hssl]
          simp [WsValue.text, hsame]

theorem setUserRegistered_login (guid : List UInt8) (st : Variables) (i : Nat) :
    setUserRegistered guid st i 1 =
      if checkUserRegistered st i = .sslCheckOk then (st, true)
      else (writeLoginState st i guid (ascii "true"),
        loginStateWritten (writeLoginState st i guid (ascii "true")) i guid) := rfl

/-- With both sessions a login succeeds. -/
theorem loginAtomic_ssl (h : WellFormed st) (hguid : guid ≠ []) (hnul : (0 : UInt8) ∉ guid)
    {i : Nat} (hplain : (st.sessionOf i .sessionStore).isSome = true)
    (hssl : (st.sessionOf i .sessionStoreSsl).isSome = true) : LoginAtomic guid st i := by
  have hspec := writeLoginState_spec h i hnul (by decide : (0 : UInt8) ∉ ascii "true")
  have hwritten := (loginStateWritten_iff hguid hspec).mpr ⟨hplain, hssl⟩
  have hlogin := setUserRegistered_login guid st i
  rw [hwritten] at hlogin
  refine ⟨fun hfailed => ?_, fun _ => Or.inr ?_, setUserRegistered_logout h guid i⟩
  · rw [hlogin] at hfailed
    split_ifs at hfailed
  · rw [hlogin]
    split_ifs with hcheck
    · exact hcheck
    · have hboth : ∀ s, (st.sessionOf i s).isSome = true := by
        intro s
        cases s with
        | sessionStore => exact hplain
        | sessionStoreSsl => exact hssl
      exact checkUserRegistered_ssl (hspec.requests ▸ useSsl_of_sessionOf hssl) hguid
        (fun s => hspec.registered s (hboth s)) (hspec.sessionId hplain) (hspec.sessionIdSsl hssl)

/-- Without a plain session a login fails, and the check never says anything else. -/
theorem loginAtomic_noSession (h : WellFormed st) (hguid : guid ≠ []) (hnul : (0 : UInt8) ∉ guid)
    {i : Nat} (hplain : (st.sessionOf i .sessionStore).isSome = false) :
    LoginAtomic guid st i := by
  have hspec := writeLoginState_spec h i hnul (by decide : (0 : UInt8) ∉ ascii "true")
  have hcheck : ∀ {st' : Variables}, (st'.sessionOf i .sessionStore).isSome = false →
      checkUserRegistered st' i = .notRegistered := by
    intro st' hnone
    refine checkUserRegistered_false ?_
    rw [value_none hnone]
    exact fun heq => nomatch heq
  have hwritten :
      loginStateWritten (writeLoginState st i guid (ascii "true")) i guid = false := by
    rw [← Bool.not_eq_true, loginStateWritten_iff hguid hspec, hplain]
    exact fun hboth => nomatch hboth.1
  have hlogin := setUserRegistered_login guid st i
  rw [hcheck hplain, if_neg (by decide), hwritten] at hlogin
  refine ⟨fun _ => ?_, fun hsucceeded => ?_, setUserRegistered_logout h guid i⟩
  · rw [hlogin, hcheck hplain]
    exact hcheck ((hspec.sessionOf _).trans hplain)
  · rw [hlogin] at hsucceeded
    cases hsucceeded

/-- Without a session over TLS a login fails, and the plain session is logged in behind it. -/
theorem loginAtomic_plain_iff (h : WellFormed st) (hguid : guid ≠ []) (hnul : (0 : UInt8) ∉ guid)
    {i : Nat} (hplain : (st.sessionOf i .sessionStore).isSome = true)
    (hssl : (st.sessionOf i .sessionStoreSsl).isSome = false) :
    LoginAtomic guid st i ↔ LoggedIn st i := by
  have hspec := writeLoginState_spec h i hnul (by decide : (0 : UInt8) ∉ ascii "true")
  have hbefore := checkUserRegistered_plain hssl
  have hlogged : LoggedIn (writeLoginState st i guid (ascii "true")) i := by
    refine ⟨hspec.registered _ hplain, ?_⟩
    rw [hspec.sessionId hplain]
    rfl
  have hafter := (checkUserRegistered_plain ((hspec.sessionOf _).trans hssl)).1 hlogged
  rw [hspec.requests] at hafter
  have hwritten :
      loginStateWritten (writeLoginState st i guid (ascii "true")) i guid = false := by
    rw [← Bool.not_eq_true, loginStateWritten_iff hguid hspec, hssl]
    exact fun hboth => nomatch hboth.2
  have hnot : checkUserRegistered st i ≠ .sslCheckOk := by
    by_cases hin : LoggedIn st i
    · rw [hbefore.1 hin]
      split_ifs <;> decide
    · rw [hbefore.2 hin]
      decide
  have hlogin := setUserRegistered_login guid st i
  rw [if_neg hnot, hwritten] at hlogin
  constructor
  · intro hatomic
    by_contra hin
    have hsame := hatomic.failed (by rw [hlogin])
    rw [hlogin, hafter, hbefore.2 hin] at hsame
    split_ifs at hsame
  · intro hin
    refine ⟨fun _ => ?_, fun hsucceeded => ?_, setUserRegistered_logout h guid i⟩
    · rw [hlogin, hafter, hbefore.1 hin]
    · rw [hlogin] at hsucceeded
      cases hsucceeded

/-- **Logging in** does what it is to do exactly if there is no plain session, or one over TLS as
well, or the plain one was logged in before. -/
theorem loginAtomic_iff (h : WellFormed st) (hguid : guid ≠ []) (hnul : (0 : UInt8) ∉ guid)
    (i : Nat) :
    LoginAtomic guid st i ↔
      st.sessionOf i .sessionStore = none ∨ (st.sessionOf i .sessionStoreSsl).isSome ∨
        LoggedIn st i := by
  cases hplain : (st.sessionOf i .sessionStore).isSome with
  | false =>
      refine iff_of_true (loginAtomic_noSession h hguid hnul hplain) (Or.inl ?_)
      rwa [Option.isSome_eq_false_iff, Option.isNone_iff_eq_none] at hplain
  | true =>
      cases hssl : (st.sessionOf i .sessionStoreSsl).isSome with
      | false =>
          rw [loginAtomic_plain_iff h hguid hnul hplain hssl]
          refine ⟨fun hin => Or.inr (Or.inr hin), ?_⟩
          rintro (hnone | hreached | hin)
          · rw [hnone] at hplain
            cases hplain
          · cases hreached
          · exact hin
      | true => exact iff_of_true (loginAtomic_ssl h hguid hnul hplain hssl) (Or.inr (Or.inl rfl))

/-- A request over TLS with both sessions. -/
def bothSessions : Variables where
  memory := []
  sessions := [{ guid := ascii "k", ssl := false, vars := [], lastUse := 0 },
    { guid := ascii "t", ssl := true, vars := [], lastUse := 0 }]
  globals := []
  requests := fun _ => { useSsl := true, store := some (ascii "k"), storeSsl := some (ascii "t") }

/-- A login with both sessions. -/
theorem loginAtomic_iff_both : LoginAtomic (ascii "4F2A-9C") bothSessions 0 := by
  have hwell : WellFormed bothSessions := by
    refine ⟨by decide, ?_, ?_⟩
    · intro i id hid
      cases hid
    · intro i id hid
      cases hid
  exact (loginAtomic_iff hwell (by decide) (by decide) 0).mpr (Or.inr (Or.inl (by decide)))

/-- A login on a connection without TLS says that it failed, but the user is registered. -/
theorem loginAtomic_fails : ¬ ∀ (guid : List UInt8) (st : Variables) (i : Nat), WellFormed st →
    guid ≠ [] → (0 : UInt8) ∉ guid → LoginAtomic guid st i := by
  intro hall
  have hatomic := hall (ascii "4F2A-9C") loggedOut 0 loggedOut_wellFormed (by decide) (by decide)
  have hin := (loginAtomic_plain_iff loggedOut_wellFormed (by decide) (by decide) (by decide)
    (by decide)).mp hatomic
  exact absurd hin.1 (by decide)

end CWebUI.Session
