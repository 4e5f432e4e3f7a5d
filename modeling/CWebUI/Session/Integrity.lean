import CWebUI.Session.Variables
import Mathlib.Logic.Function.Basic

set_option autoImplicit false

/-! # Who can change the login state

The login state of a session is kept in three of its variables. Every accessor of session
variables guards the names of these variables for itself, or does not: those that name a session
by its key have no guard, nor has the removal of a variable, and a template reaches `registered`
through `getSessionValue`. The theorem at the end says that there is no other way.
-/

namespace CWebUI.Session

open ByteString CWebUI.Http

/-! ## What is to be kept -/

/-- The value of the variable of a name in a store. -/
def valueIn (memory : List WsVar) (vars : List Nat) (name : List UInt8) : Option WsValue :=
  (searchVariable memory vars name).map fun id => (varAt memory id).value

/-- The value of a variable of the session under a key. -/
def Variables.valueByGuid (st : Variables) (guid name : List UInt8) : Option WsValue :=
  (rbExactQuery st.sessions guid).bind fun ss => valueIn st.memory ss.vars name

/-- The variables of the sessions and of the rendering are in memory, and apart from each other. -/
structure WellFormed (st : Variables) : Prop where
  allocated : ∀ ss ∈ st.sessions, ∀ id ∈ ss.vars, id < st.memory.length
  rendered : ∀ i, ∀ id ∈ (st.requests i).renderVars, id < st.memory.length
  apart : ∀ i, ∀ id ∈ (st.requests i).renderVars, ∀ ss ∈ st.sessions, id ∉ ss.vars

/-- The sessions that the requests are attached to are the same, and so is every reserved
variable of every session. -/
structure Kept (st st' : Variables) : Prop where
  values : ∀ guid, ∀ name ∈ reservedNames, st'.valueByGuid guid name = st.valueByGuid guid name
  requests : ∀ i store, (st'.requests i).session store = (st.requests i).session store
  useSsl : ∀ i, (st'.requests i).useSsl = (st.requests i).useSsl

theorem Kept.refl (st : Variables) : Kept st st :=
  ⟨fun _ _ _ => rfl, fun _ _ => rfl, fun _ => rfl⟩

theorem Kept.trans {st st' st'' : Variables} (h : Kept st st') (h' : Kept st' st'') :
    Kept st st'' := by
  refine ⟨?_, ?_, ?_⟩
  · intro guid name hname
    exact (h'.values guid name hname).trans (h.values guid name hname)
  · intro i store
    exact (h'.requests i store).trans (h.requests i store)
  · intro i
    exact (h'.useSsl i).trans (h.useSsl i)

theorem value_eq (st : Variables) (i : Nat) (store : StoreTypes) (name : List UInt8) :
    st.value i store name =
      ((st.requests i).session store).bind fun guid => st.valueByGuid guid name := by
  unfold Variables.value intGetSessionValue Variables.sessionOf Variables.valueByGuid
  cases (st.requests i).session store with
  | none => rfl
  | some guid =>
      rw [Option.bind_some, Option.bind_some]
      cases rbExactQuery st.sessions guid with
      | none => rfl
      | some ss => rfl

/-- **The login state is a matter of the reserved variables.** -/
theorem Kept.checkUserRegistered {st st' : Variables} (h : Kept st st') (i : Nat) :
    checkUserRegistered st' i = checkUserRegistered st i := by
  have hvalue : ∀ store, ∀ name ∈ reservedNames, st'.value i store name = st.value i store name := by
    intro store name hname
    rw [value_eq, value_eq, h.requests i store]
    cases (st.requests i).session store with
    | none => rfl
    | some guid => exact h.values guid name hname
  unfold Session.checkUserRegistered
  rw [hvalue _ (ascii "registered") (by decide), hvalue _ (ascii "session-id") (by decide),
    hvalue _ (ascii "registered") (by decide), hvalue _ (ascii "session-id-ssl") (by decide),
    h.useSsl i]

/-! ## Memory -/

theorem varAt_append {memory : List WsVar} {id : Nat} (more : List WsVar)
    (h : id < memory.length) : varAt (memory ++ more) id = varAt memory id := by
  unfold varAt
  rw [List.getD_eq_getElem?_getD, List.getD_eq_getElem?_getD, List.getElem?_append_left h]

theorem searchVariable_congr {memory memory' : List WsVar} {vars : List Nat}
    (h : ∀ id ∈ vars, (varAt memory' id).name = (varAt memory id).name) (name : List UInt8) :
    searchVariable memory' vars name = searchVariable memory vars name := by
  unfold searchVariable
  induction vars with
  | nil => rfl
  | cons id vars ih =>
      rw [List.find?_cons, List.find?_cons, h id List.mem_cons_self,
        ih (fun x hx => h x (List.mem_cons_of_mem _ hx))]

theorem searchVariable_some {memory : List WsVar} {vars : List Nat} {name : List UInt8} {id : Nat}
    (h : searchVariable memory vars name = some id) :
    id ∈ vars ∧ (varAt memory id).name = name := by
  refine ⟨List.mem_of_find?_eq_some h, ?_⟩
  have hbeq := @List.find?_some _ (fun id => (varAt memory id).name == name) _ _ h
  exact beq_iff_eq.mp hbeq

theorem valueIn_congr {memory memory' : List WsVar} {vars : List Nat} {name : List UInt8}
    (hname : ∀ id ∈ vars, (varAt memory' id).name = (varAt memory id).name)
    (hvalue : ∀ id ∈ vars, (varAt memory id).name = name →
      (varAt memory' id).value = (varAt memory id).value) :
    valueIn memory' vars name = valueIn memory vars name := by
  unfold valueIn
  rw [searchVariable_congr hname]
  cases hsearch : searchVariable memory vars name with
  | none => rfl
  | some id =>
      obtain ⟨hid, hidname⟩ := searchVariable_some hsearch
      rw [Option.map_some, Option.map_some, hvalue id hid hidname]

theorem varAt_setValue (memory : List WsVar) (id : Nat) (value : WsValue) (x : Nat) :
    (varAt (setValue memory id value) x).name = (varAt memory x).name ∧
      (x ≠ id → varAt (setValue memory id value) x = varAt memory x) := by
  unfold varAt setValue
  rw [List.getD_eq_getElem?_getD, List.getD_eq_getElem?_getD, List.getElem?_modify]
  cases memory[x]? with
  | none => exact ⟨rfl, fun _ => rfl⟩
  | some v =>
      by_cases h : id = x
      · constructor
        · simp [h]
        · intro hne
          exact absurd h.symm hne
      · simp [h]

/-! ## Sessions -/

theorem rbExactQuery_updateSession {f : SessionStore → SessionStore}
    (hf : ∀ ss, (f ss).guid = ss.guid) (key : List UInt8) (sessions : List SessionStore)
    (guid : List UInt8) :
    rbExactQuery (updateSession key f sessions) guid =
      if guid = key then (rbExactQuery sessions guid).map f else rbExactQuery sessions guid := by
  unfold rbExactQuery
  induction sessions with
  | nil => simp [updateSession]
  | cons ss sessions ih =>
      unfold updateSession
      by_cases hkey : ss.guid = key
      · rw [if_pos hkey, List.find?_cons, List.find?_cons, hf]
        by_cases hguid : guid = key
        · have heq : (ss.guid == guid) = true := by rw [hkey, hguid]; exact beq_self_eq_true _
          rw [heq, if_pos hguid]
          rfl
        · have hne : (ss.guid == guid) = false := by
            rw [hkey]
            exact beq_false_of_ne (Ne.symm hguid)
          rw [hne, if_neg hguid]
      · rw [if_neg hkey, List.find?_cons, List.find?_cons, ih]
        cases hmatch : ss.guid == guid with
        | true =>
            have hne : guid ≠ key := by
              rintro rfl
              exact hkey (beq_iff_eq.mp hmatch)
            simp [hne]
        | false => rfl

theorem mem_updateSession {f : SessionStore → SessionStore} {key : List UInt8}
    {sessions : List SessionStore} {ss : SessionStore} (h : ss ∈ updateSession key f sessions) :
    ss ∈ sessions ∨ ∃ old, rbExactQuery sessions key = some old ∧ ss = f old := by
  unfold rbExactQuery
  induction sessions with
  | nil => cases h
  | cons x sessions ih =>
      unfold updateSession at h
      by_cases hkey : x.guid = key
      · rw [if_pos hkey] at h
        rcases List.mem_cons.mp h with rfl | h
        · right
          refine ⟨x, ?_, rfl⟩
          rw [List.find?_cons, hkey, beq_self_eq_true]
        · exact Or.inl (List.mem_cons_of_mem _ h)
      · rw [if_neg hkey] at h
        rcases List.mem_cons.mp h with rfl | h
        · exact Or.inl List.mem_cons_self
        · rcases ih h with h | ⟨old, hold, heq⟩
          · exact Or.inl (List.mem_cons_of_mem _ h)
          · right
            refine ⟨old, ?_, heq⟩
            rw [List.find?_cons, beq_false_of_ne hkey]
            exact hold

theorem updateSession_self {f : SessionStore → SessionStore} {key : List UInt8}
    {sessions : List SessionStore} (h : ∀ ss, rbExactQuery sessions key = some ss → f ss = ss) :
    updateSession key f sessions = sessions := by
  unfold rbExactQuery at h
  induction sessions with
  | nil => rfl
  | cons x sessions ih =>
      unfold updateSession
      by_cases hkey : x.guid = key
      · rw [if_pos hkey, h x (by rw [List.find?_cons, hkey, beq_self_eq_true])]
      · rw [if_neg hkey, ih]
        intro ss hss
        apply h ss
        rw [List.find?_cons, beq_false_of_ne hkey]
        exact hss

theorem rbExactQuery_mem {sessions : List SessionStore} {key : List UInt8} {ss : SessionStore}
    (h : rbExactQuery sessions key = some ss) : ss ∈ sessions ∧ ss.guid = key := by
  refine ⟨List.mem_of_find?_eq_some h, ?_⟩
  have hbeq := @List.find?_some _ (fun ss : SessionStore => ss.guid == key) _ _ h
  exact beq_iff_eq.mp hbeq

/-! ## Changes that leave the reserved variables alone -/

/-- A variable that is under a reserved name in a session. -/
def IsReserved (st : Variables) (id : Nat) : Prop :=
  ∃ ss ∈ st.sessions, id ∈ ss.vars ∧ (varAt st.memory id).name ∈ reservedNames

theorem kept_of_memory {st st' : Variables} (hsessions : st'.sessions = st.sessions)
    (hname : ∀ ss ∈ st.sessions, ∀ id ∈ ss.vars,
      (varAt st'.memory id).name = (varAt st.memory id).name)
    (hvalue : ∀ id, IsReserved st id → (varAt st'.memory id).value = (varAt st.memory id).value)
    (hrequests : ∀ i store, (st'.requests i).session store = (st.requests i).session store)
    (hssl : ∀ i, (st'.requests i).useSsl = (st.requests i).useSsl) : Kept st st' := by
  refine ⟨?_, hrequests, hssl⟩
  intro guid name hreserved
  unfold Variables.valueByGuid
  rw [hsessions]
  cases hfind : rbExactQuery st.sessions guid with
  | none => rfl
  | some ss =>
      have hmem := (rbExactQuery_mem hfind).1
      rw [Option.bind_some, Option.bind_some]
      apply valueIn_congr (hname ss hmem)
      intro id hid hidname
      exact hvalue id ⟨ss, hmem, hid, by rwa [hidname]⟩

/-- An assignment to a variable that is not reserved. -/
theorem kept_assign {st : Variables} {id : Nat} (h : ¬ IsReserved st id) (value : WsValue) :
    Kept st { st with memory := setValue st.memory id value } := by
  apply kept_of_memory
  · rfl
  · intro ss _ x _
    exact (varAt_setValue st.memory id value x).1
  · intro x hx
    have hne : x ≠ id := by
      rintro rfl
      exact h hx
    exact congrArg WsVar.value ((varAt_setValue st.memory id value x).2 hne)
  · intro i store
    rfl
  · intro i
    rfl

theorem length_setValue (memory : List WsVar) (id : Nat) (value : WsValue) :
    (setValue memory id value).length = memory.length := by
  unfold setValue
  exact List.length_modify _ _ _

theorem WellFormed.assign {st : Variables} (h : WellFormed st) (id : Nat) (value : WsValue) :
    WellFormed { st with memory := setValue st.memory id value } := by
  refine ⟨?_, ?_, h.apart⟩
  · intro ss hss x hx
    rw [length_setValue]
    exact h.allocated ss hss x hx
  · intro i x hx
    rw [length_setValue]
    exact h.rendered i x hx

/-! ## A new variable of a session -/

/-- A variable appended to a session. -/
def Variables.pushVariable (st : Variables) (ss : SessionStore) (name : List UInt8) : Variables :=
  { st with
    memory := st.memory ++ [{ name := name }]
    sessions := updateSession ss.guid
      (fun x => { x with vars := ss.vars ++ [st.memory.length] }) st.sessions }

theorem varAt_append_self (memory : List WsVar) (v : WsVar) :
    varAt (memory ++ [v]) memory.length = v := by
  unfold varAt
  simp

/-- What `newSessionVariable` can do: nothing, or append a variable that was not there. -/
theorem newSessionVariable_cases {st : Variables} {ss : SessionStore}
    (hss : rbExactQuery st.sessions ss.guid = some ss) (name : List UInt8) :
    (∃ id, searchVariable st.memory ss.vars name = some id ∧
      st.newSessionVariable ss name = (st, id)) ∨
    (searchVariable st.memory ss.vars name = none ∧
      st.newSessionVariable ss name = (st.pushVariable ss name, st.memory.length)) := by
  unfold Variables.newSessionVariable newVariable
  cases hsearch : searchVariable st.memory ss.vars name with
  | none =>
      right
      exact ⟨rfl, rfl⟩
  | some id =>
      left
      refine ⟨id, rfl, ?_⟩
      have hself : updateSession ss.guid (fun x => { x with vars := ss.vars }) st.sessions =
          st.sessions := by
        apply updateSession_self
        intro x hx
        rw [hss] at hx
        cases hx
        rfl
      show ({ st with
              memory := st.memory
              sessions := updateSession ss.guid (fun x => { x with vars := ss.vars }) st.sessions },
            id) = (st, id)
      rw [hself]

/-- The variables of a session after the push. -/
theorem mem_vars_pushVariable {st : Variables} {ss x : SessionStore} {name : List UInt8} {id : Nat}
    (hss : ss ∈ st.sessions) (hx : x ∈ (st.pushVariable ss name).sessions) (hid : id ∈ x.vars) :
    (∃ old ∈ st.sessions, id ∈ old.vars) ∨ id = st.memory.length := by
  rcases mem_updateSession hx with hx | ⟨old, _, rfl⟩
  · exact Or.inl ⟨x, hx, hid⟩
  · rcases List.mem_append.mp hid with hid | hid
    · exact Or.inl ⟨ss, hss, hid⟩
    · exact Or.inr (List.mem_singleton.mp hid)

theorem WellFormed.pushVariable {st : Variables} (h : WellFormed st) {ss : SessionStore}
    (hss : ss ∈ st.sessions) (name : List UInt8) : WellFormed (st.pushVariable ss name) := by
  have hlength : (st.pushVariable ss name).memory.length = st.memory.length + 1 := by
    unfold Variables.pushVariable
    rw [List.length_append, List.length_singleton]
  refine ⟨?_, ?_, ?_⟩
  · intro x hx id hid
    rw [hlength]
    rcases mem_vars_pushVariable hss hx hid with ⟨old, hold, hid⟩ | rfl
    · have := h.allocated old hold id hid
      omega
    · omega
  · intro i id hid
    rw [hlength]
    have := h.rendered i id hid
    omega
  · intro i id hid x hx hidx
    rcases mem_vars_pushVariable hss hx hidx with ⟨old, hold, hidx⟩ | rfl
    · exact h.apart i id hid old hold hidx
    · have := h.rendered i _ hid
      omega

/-- A variable of another name is found or not found as before. -/
theorem valueIn_append {memory : List WsVar} {vars : List Nat} {name other : List UInt8}
    (halloc : ∀ id ∈ vars, id < memory.length) (hne : other ≠ name) :
    valueIn (memory ++ [{ name := name }]) (vars ++ [memory.length]) other =
      valueIn memory vars other := by
  have hold : valueIn (memory ++ [{ name := name }]) vars other = valueIn memory vars other := by
    apply valueIn_congr
    · intro id hid
      rw [varAt_append _ (halloc id hid)]
    · intro id hid _
      rw [varAt_append _ (halloc id hid)]
  have hnew : searchVariable (memory ++ [{ name := name }]) [memory.length] other = none := by
    unfold searchVariable
    rw [List.find?_cons, varAt_append_self, beq_false_of_ne (Ne.symm hne)]
    rfl
  rw [← hold]
  unfold valueIn
  unfold searchVariable at hnew ⊢
  rw [List.find?_append, hnew, Option.or_none]

/-- The push of a variable leaves those of other names and of other sessions alone. -/
theorem valueByGuid_pushVariable {st : Variables} (h : WellFormed st) {ss : SessionStore}
    (hss : rbExactQuery st.sessions ss.guid = some ss) {name other guid : List UInt8}
    (hne : other ≠ name ∨ guid ≠ ss.guid) :
    (st.pushVariable ss name).valueByGuid guid other = st.valueByGuid guid other := by
  have hquery := rbExactQuery_updateSession
    (f := fun x : SessionStore => { x with vars := ss.vars ++ [st.memory.length] })
    (fun _ => rfl) ss.guid st.sessions guid
  unfold Variables.valueByGuid Variables.pushVariable
  rw [hquery]
  by_cases hg : guid = ss.guid
  · rw [if_pos hg, hg, hss]
    exact valueIn_append (h.allocated ss (rbExactQuery_mem hss).1)
      (hne.resolve_right fun hother => hother hg)
  · rw [if_neg hg]
    cases hfind : rbExactQuery st.sessions guid with
    | none => rfl
    | some x =>
        -- the variables of a session were allocated before the new one
        have hvalue : ∀ id ∈ x.vars,
            varAt (st.memory ++ [{ name := name }]) id = varAt st.memory id := by
          intro id hid
          exact varAt_append _ (h.allocated x (rbExactQuery_mem hfind).1 id hid)
        apply valueIn_congr
        · intro id hid
          rw [hvalue id hid]
        · intro id hid _
          rw [hvalue id hid]

/-- **A variable of a name that is not reserved** can be added to a session. -/
theorem kept_pushVariable {st : Variables} (h : WellFormed st) {ss : SessionStore}
    (hss : rbExactQuery st.sessions ss.guid = some ss) {name : List UInt8}
    (hname : name ∉ reservedNames) : Kept st (st.pushVariable ss name) := by
  refine ⟨?_, fun _ _ => rfl, fun _ => rfl⟩
  intro guid other hother
  have hne : other ≠ name := by
    rintro rfl
    exact hname hother
  exact valueByGuid_pushVariable h hss (Or.inl hne)

theorem WellFormed.newSessionVariable {st : Variables} (h : WellFormed st) {ss : SessionStore}
    (hss : rbExactQuery st.sessions ss.guid = some ss) (name : List UInt8) :
    WellFormed (st.newSessionVariable ss name).1 := by
  rcases newSessionVariable_cases hss name with ⟨id, _, heq⟩ | ⟨_, heq⟩
  · rw [heq]
    exact h
  · rw [heq]
    exact h.pushVariable (rbExactQuery_mem hss).1 name

theorem newSessionVariable_kept {st : Variables} (h : WellFormed st) {ss : SessionStore}
    (hss : rbExactQuery st.sessions ss.guid = some ss) {name : List UInt8}
    (hname : name ∈ reservedNames → searchVariable st.memory ss.vars name ≠ none) :
    Kept st (st.newSessionVariable ss name).1 := by
  rcases newSessionVariable_cases hss name with ⟨id, hsearch, heq⟩ | ⟨hsearch, heq⟩
  · rw [heq]
    exact Kept.refl st
  · rw [heq]
    exact kept_pushVariable h hss fun hmem => hname hmem hsearch

theorem newSessionVariable_name {st : Variables} {ss : SessionStore}
    (hss : rbExactQuery st.sessions ss.guid = some ss) (name : List UInt8) :
    (varAt (st.newSessionVariable ss name).1.memory (st.newSessionVariable ss name).2).name =
      name := by
  rcases newSessionVariable_cases hss name with ⟨id, hsearch, heq⟩ | ⟨_, heq⟩
  · rw [heq]
    exact (searchVariable_some hsearch).2
  · rw [heq]
    show (varAt (st.memory ++ [{ name := name }]) st.memory.length).name = name
    rw [varAt_append_self]

/-- **A variable of a name that is not reserved** can be written. -/
theorem write_kept {st : Variables} (h : WellFormed st) {ss : SessionStore}
    (hss : rbExactQuery st.sessions ss.guid = some ss) {name : List UInt8}
    (hname : name ∉ reservedNames) (value : WsValue) :
    Kept st { (st.newSessionVariable ss name).1 with
      memory := setValue (st.newSessionVariable ss name).1.memory
        (st.newSessionVariable ss name).2 value } := by
  have hnew : Kept st (st.newSessionVariable ss name).1 :=
    newSessionVariable_kept h hss fun hmem => absurd hmem hname
  apply hnew.trans
  apply kept_assign
  rintro ⟨x, _, _, hreserved⟩
  rw [newSessionVariable_name hss name] at hreserved
  exact hname hreserved

/-! ## The removal of a variable -/

theorem find?_erase_of_false {α : Type} [BEq α] [LawfulBEq α] {p : α → Bool} {a : α}
    (h : p a = false) (l : List α) : (l.erase a).find? p = l.find? p := by
  induction l with
  | nil => rfl
  | cons x l ih =>
      rw [List.erase_cons]
      by_cases hx : (x == a) = true
      · rw [if_pos hx, List.find?_cons, beq_iff_eq.mp hx, h]
      · rw [if_neg hx, List.find?_cons, List.find?_cons, ih]

theorem mem_of_mem_delVariable {memory : List WsVar} {vars : List Nat} {name : List UInt8}
    {id : Nat} (h : id ∈ delVariable memory vars name) : id ∈ vars := by
  unfold delVariable at h
  cases hsearch : searchVariable memory vars name with
  | none =>
      rw [hsearch] at h
      exact h
  | some x =>
      rw [hsearch] at h
      exact List.mem_of_mem_erase h

/-- A reserved variable survives the removal of a name that is not reserved, or that is not
there. -/
theorem valueIn_delVariable {memory : List WsVar} {vars : List Nat} {name other : List UInt8}
    (h : other ≠ name ∨ searchVariable memory vars name = none) :
    valueIn memory (delVariable memory vars name) other = valueIn memory vars other := by
  unfold delVariable
  cases hsearch : searchVariable memory vars name with
  | none => rfl
  | some id =>
      have hne : other ≠ name := by
        rcases h with h | h
        · exact h
        · rw [hsearch] at h
          cases h
      have hid : ((varAt memory id).name == other) = false := by
        rw [(searchVariable_some hsearch).2]
        exact beq_false_of_ne (Ne.symm hne)
      unfold valueIn searchVariable
      rw [find?_erase_of_false (p := fun id => (varAt memory id).name == other) hid]

/-- The session under its own key, without a variable. -/
def Variables.dropVariable (st : Variables) (ss : SessionStore) (name : List UInt8) : Variables :=
  { st with
    sessions := updateSession ss.guid
      (fun x => { x with vars := delVariable st.memory x.vars name }) st.sessions }

theorem WellFormed.dropVariable {st : Variables} (h : WellFormed st) (ss : SessionStore)
    (name : List UInt8) : WellFormed (st.dropVariable ss name) := by
  have hold : ∀ x ∈ (st.dropVariable ss name).sessions, ∀ id ∈ x.vars,
      ∃ old ∈ st.sessions, id ∈ old.vars := by
    intro x hx id hid
    rcases mem_updateSession hx with hx | ⟨old, hfind, rfl⟩
    · exact ⟨x, hx, hid⟩
    · exact ⟨old, (rbExactQuery_mem hfind).1, mem_of_mem_delVariable hid⟩
  refine ⟨?_, h.rendered, ?_⟩
  · intro x hx id hid
    obtain ⟨old, hmem, hid⟩ := hold x hx id hid
    exact h.allocated old hmem id hid
  · intro i id hid x hx hidx
    obtain ⟨old, hmem, hidx⟩ := hold x hx id hidx
    exact h.apart i id hid old hmem hidx

theorem dropVariable_kept {st : Variables} {ss : SessionStore}
    (hss : rbExactQuery st.sessions ss.guid = some ss) {name : List UInt8}
    (hname : name ∈ reservedNames → searchVariable st.memory ss.vars name = none) :
    Kept st (st.dropVariable ss name) := by
  refine ⟨?_, fun _ _ => rfl, fun _ => rfl⟩
  intro guid other hother
  have hquery := rbExactQuery_updateSession
    (f := fun x : SessionStore => { x with vars := delVariable st.memory x.vars name })
    (fun _ => rfl) ss.guid st.sessions guid
  unfold Variables.valueByGuid Variables.dropVariable
  rw [hquery]
  by_cases hg : guid = ss.guid
  · rw [if_pos hg, hg, hss]
    apply valueIn_delVariable
    by_cases hne : other = name
    · subst hne
      exact Or.inr (hname hother)
    · exact Or.inl hne
  · rw [if_neg hg]

/-! ## Reading a template expression -/

/-- A step that leaves the sessions alone, and at most appends to the memory. -/
structure Extends (st st' : Variables) : Prop where
  sessions : st'.sessions = st.sessions
  memory : st.memory <+: st'.memory
  requests : ∀ i store, (st'.requests i).session store = (st.requests i).session store
  useSsl : ∀ i, (st'.requests i).useSsl = (st.requests i).useSsl
  wellFormed : WellFormed st → WellFormed st'

theorem Extends.refl (st : Variables) : Extends st st :=
  ⟨rfl, List.prefix_rfl, fun _ _ => rfl, fun _ => rfl, id⟩

theorem Extends.trans {st st' st'' : Variables} (h : Extends st st') (h' : Extends st' st'') :
    Extends st st'' := by
  refine ⟨h'.sessions.trans h.sessions, h.memory.trans h'.memory, ?_, ?_, ?_⟩
  · intro i store
    exact (h'.requests i store).trans (h.requests i store)
  · intro i
    exact (h'.useSsl i).trans (h.useSsl i)
  · intro hst
    exact h'.wellFormed (h.wellFormed hst)

theorem Extends.varAt {st st' : Variables} (h : Extends st st') (hst : WellFormed st)
    {ss : SessionStore} (hss : ss ∈ st.sessions) {id : Nat} (hid : id ∈ ss.vars) :
    varAt st'.memory id = varAt st.memory id := by
  obtain ⟨more, hmore⟩ := h.memory
  rw [← hmore]
  exact varAt_append more (hst.allocated ss hss id hid)

theorem Extends.kept {st st' : Variables} (h : Extends st st') (hst : WellFormed st) :
    Kept st st' := by
  apply kept_of_memory h.sessions
  · intro ss hss id hid
    rw [h.varAt hst hss hid]
  · rintro id ⟨ss, hss, hid, _⟩
    rw [h.varAt hst hss hid]
  · exact h.requests
  · exact h.useSsl

theorem Extends.isReserved {st st' : Variables} (h : Extends st st') (hst : WellFormed st) {id : Nat}
    (hid : IsReserved st' id) : IsReserved st id := by
  obtain ⟨ss, hss, hmem, hname⟩ := hid
  rw [h.sessions] at hss
  rw [h.varAt hst hss hmem] at hname
  exact ⟨ss, hss, hmem, hname⟩

/-- What `newVariable` can do. -/
theorem newVariable_cases (memory : List WsVar) (vars : List Nat) (name : List UInt8) :
    (∃ id ∈ vars, newVariable memory vars name = (memory, vars, id)) ∨
      newVariable memory vars name =
        (memory ++ [{ name := name }], vars ++ [memory.length], memory.length) := by
  unfold newVariable
  cases hsearch : searchVariable memory vars name with
  | none => exact Or.inr rfl
  | some id => exact Or.inl ⟨id, (searchVariable_some hsearch).1, rfl⟩

theorem getGlobalVariable_extends (st : Variables) (name : List UInt8) :
    Extends st (getGlobalVariable st name).1 := by
  unfold getGlobalVariable
  rcases newVariable_cases st.memory st.globals name with ⟨id, _, heq⟩ | heq
  · rw [heq]
    exact Extends.refl st
  · rw [heq]
    refine ⟨rfl, List.prefix_append _ _, fun _ _ => rfl, fun _ => rfl, ?_⟩
    intro h
    have hlength : (st.memory ++ [({ name := name } : WsVar)]).length = st.memory.length + 1 := by
      rw [List.length_append, List.length_singleton]
    refine ⟨?_, ?_, h.apart⟩
    · intro ss hss id hid
      show id < (st.memory ++ [_]).length
      have := h.allocated ss hss id hid
      omega
    · intro i id hid
      show id < (st.memory ++ [_]).length
      have := h.rendered i id hid
      omega

theorem update_renderVars (requests : Nat → RequestVars) (i : Nat) (vars : List Nat) (j : Nat) :
    Function.update requests i { requests i with renderVars := vars } j =
      { requests j with renderVars := if j = i then vars else (requests j).renderVars } := by
  by_cases hij : j = i
  · subst hij
    rw [Function.update_self, if_pos rfl]
  · rw [Function.update_of_ne hij, if_neg hij]

theorem getRenderVariable_extends (st : Variables) (i : Nat) (name : List UInt8) :
    Extends st (getRenderVariable st i name).1 := by
  unfold getRenderVariable
  rcases newVariable_cases st.memory (st.requests i).renderVars name with ⟨id, _, heq⟩ | heq
  · rw [heq]
    have hself : Function.update st.requests i
        { st.requests i with renderVars := (st.requests i).renderVars } = st.requests :=
      Function.update_eq_self i st.requests
    show Extends st { st with
      memory := st.memory
      requests := Function.update st.requests i
        { st.requests i with renderVars := (st.requests i).renderVars } }
    rw [hself]
    exact Extends.refl st
  · rw [heq]
    refine ⟨rfl, List.prefix_append _ _, ?_, ?_, ?_⟩
    · intro j store
      show (Function.update st.requests i _ j).session store = _
      rw [update_renderVars]
      cases store <;> rfl
    · intro j
      show (Function.update st.requests i _ j).useSsl = _
      rw [update_renderVars]
    · intro h
      have hlength : (st.memory ++ [({ name := name } : WsVar)]).length = st.memory.length + 1 := by
        rw [List.length_append, List.length_singleton]
      have hmem : ∀ j, ∀ id ∈ (Function.update st.requests i { st.requests i with
          renderVars := (st.requests i).renderVars ++ [st.memory.length] } j).renderVars,
          id ∈ (st.requests j).renderVars ∨ id = st.memory.length := by
        intro j id hid
        rw [update_renderVars] at hid
        by_cases hij : j = i
        · rw [if_pos hij] at hid
          rcases List.mem_append.mp hid with hid | hid
          · rw [hij]
            exact Or.inl hid
          · exact Or.inr (List.mem_singleton.mp hid)
        · rw [if_neg hij] at hid
          exact Or.inl hid
      refine ⟨?_, ?_, ?_⟩
      · intro ss hss id hid
        show id < (st.memory ++ [_]).length
        have := h.allocated ss hss id hid
        omega
      · intro j id hid
        show id < (st.memory ++ [_]).length
        rcases hmem j id hid with hid | rfl
        · have := h.rendered j id hid
          omega
        · omega
      · intro j id hid ss hss hidss
        rcases hmem j id hid with hid | rfl
        · exact h.apart j id hid ss hss hidss
        · have := h.allocated ss hss _ hidss
          omega

/-- The variable is a render variable afterwards. -/
theorem getRenderVariable_mem (st : Variables) (i : Nat) (name : List UInt8) :
    (getRenderVariable st i name).2 ∈ ((getRenderVariable st i name).1.requests i).renderVars := by
  unfold getRenderVariable
  rcases newVariable_cases st.memory (st.requests i).renderVars name with ⟨id, hid, heq⟩ | heq
  · rw [heq]
    show id ∈ (Function.update st.requests i _ i).renderVars
    rw [Function.update_self]
    exact hid
  · rw [heq]
    show st.memory.length ∈ (Function.update st.requests i _ i).renderVars
    rw [Function.update_self]
    exact List.mem_append_right _ (List.mem_singleton_self _)

theorem lookupName_extends (st : Variables) (i : Nat) (space : NameSpace) (name : List UInt8) :
    Extends st (lookupName st i space name).1 := by
  cases space with
  | none => exact Extends.refl st
  | global => exact getGlobalVariable_extends st name
  | render =>
      have h := getRenderVariable_extends st i name
      unfold lookupName
      by_cases hempty : (varAt (getRenderVariable st i name).1.memory
          (getRenderVariable st i name).2).value = .empty
      · simp only [hempty, if_true]
        exact h
      · simp only [hempty, if_false]
        exact h
  | session => exact Extends.refl st
  | parameter => exact Extends.refl st

theorem parseVariable_extends (st : Variables) (i : Nat) (buffer : List UInt8) :
    Extends st (parseVariable st i buffer).1 := by
  unfold parseVariable
  generalize nameSpaceOf buffer = front
  obtain ⟨space, text⟩ := front
  by_cases hquote : text.head? = some 34
  · simp only [if_pos hquote]
    by_cases hspace : space = .none
    · rw [if_pos hspace]
      exact Extends.refl st
    · rw [if_neg hspace]
      have h := lookupName_extends st i space ((text.drop 1).takeWhile (· ≠ 34))
      generalize lookupName st i space ((text.drop 1).takeWhile (· ≠ 34)) = found at h
      obtain ⟨st', tmp, _ | id⟩ := found
      · exact h
      · dsimp only
        cases elementsOf st'.memory (derefVar st'.memory id) with
        | none => exact h
        | some elements => exact h
  · simp only [if_neg hquote]
    exact Extends.refl st

theorem WellFormed.assignOption {st : Variables} (h : WellFormed st) (id : Nat)
    (value : Option WsValue) : WellFormed (st.assign id value) := by
  cases value with
  | none => exact h
  | some v => exact h.assign id v

theorem assign_kept {st : Variables} {id : Nat} (hid : ¬ IsReserved st id)
    (value : Option WsValue) : Kept st (st.assign id value) := by
  cases value with
  | none => exact Kept.refl st
  | some v => exact kept_assign hid v

/-- A render variable is not a variable of a session. -/
theorem assign_render_kept {st : Variables} (h : WellFormed st) (i : Nat) (name : List UInt8)
    (value : Option WsValue) :
    Kept st ((getRenderVariable st i name).1.assign (getRenderVariable st i name).2 value) := by
  have hext := getRenderVariable_extends st i name
  have hfree : ¬ IsReserved (getRenderVariable st i name).1 (getRenderVariable st i name).2 := by
    rintro ⟨ss, hss, hmem, _⟩
    exact (hext.wellFormed h).apart i _ (getRenderVariable_mem st i name) ss hss hmem
  exact (hext.kept h).trans (assign_kept hfree value)

/-- What `engine_setVariable` can do: assign to the variable that its target refers to, or to a
render variable. -/
theorem engineSetVariable_cases (st : Variables) (i : Nat) (target value : List UInt8) :
    ∃ st' assigned, Extends st st' ∧
      ((∃ id, (parseVariable st i target).2.value = .ref id ∧
          engineSetVariable st i target value = st'.assign id assigned) ∨
        ∃ name, engineSetVariable st i target value =
          (getRenderVariable st' i name).1.assign (getRenderVariable st' i name).2 assigned) := by
  have hfirst := parseVariable_extends st i target
  unfold engineSetVariable
  generalize parseVariable st i target = first at hfirst ⊢
  obtain ⟨st₁, var⟩ := first
  have hsecond := parseVariable_extends st₁ i value
  dsimp only
  generalize parseVariable st₁ i value = second at hsecond ⊢
  obtain ⟨st₂, setValueVar⟩ := second
  refine ⟨st₂, assignable setValueVar.value, hfirst.trans hsecond, ?_⟩
  cases hvalue : var.value with
  | ref id => exact Or.inl ⟨id, rfl, rfl⟩
  | empty => exact Or.inr ⟨var.name, rfl⟩
  | string text => exact Or.inr ⟨var.name, rfl⟩
  | int n => exact Or.inr ⟨var.name, rfl⟩
  | ulong n => exact Or.inr ⟨var.name, rfl⟩
  | long n => exact Or.inr ⟨var.name, rfl⟩
  | array elements => exact Or.inr ⟨var.name, rfl⟩
  | customData => exact Or.inr ⟨var.name, rfl⟩

theorem WellFormed.engineSetVariable {st : Variables} (h : WellFormed st) (i : Nat)
    (target value : List UInt8) : WellFormed (engineSetVariable st i target value) := by
  obtain ⟨st', assigned, hext, ⟨id, _, heq⟩ | ⟨name, heq⟩⟩ :=
    engineSetVariable_cases st i target value
  · rw [heq]
    exact (hext.wellFormed h).assignOption id assigned
  · rw [heq]
    have hrender := getRenderVariable_extends st' i name
    exact (hrender.wellFormed (hext.wellFormed h)).assignOption _ assigned

/-- **The template tag** `set` keeps the login state, unless its target is a reserved variable. -/
theorem engineSetVariable_kept {st : Variables} (h : WellFormed st) {i : Nat} {target : List UInt8}
    (htarget : ∀ id, (parseVariable st i target).2.value = .ref id → ¬ IsReserved st id)
    (value : List UInt8) : Kept st (engineSetVariable st i target value) := by
  obtain ⟨st', assigned, hext, ⟨id, hvalue, heq⟩ | ⟨name, heq⟩⟩ :=
    engineSetVariable_cases st i target value
  · rw [heq]
    have hfree : ¬ IsReserved st' id := fun hid => htarget id hvalue (hext.isReserved h hid)
    exact (hext.kept h).trans (assign_kept hfree assigned)
  · rw [heq]
    exact (hext.kept h).trans (assign_render_kept (hext.wellFormed h) i name assigned)

/-! ## Runs -/

/-- The calls that are no login. -/
inductive Call where
  | setSessionValue (i : Nat) (store : StoreTypes) (name : List UInt8) (value : Option (List UInt8))
  | addSessionValue (i : Nat) (store : StoreTypes) (name : List UInt8) (value : WsValue)
  | setSessionValueByGUID (guid : List UInt8) (store : StoreTypes) (name : List UInt8)
      (value : Option (List UInt8))
  | getSessionValue (i : Nat) (store : StoreTypes) (name : List UInt8)
  | getSessionValueByGUID (guid : List UInt8) (store : StoreTypes) (name : List UInt8)
  | removeSessionValue (i : Nat) (store : StoreTypes) (name : List UInt8)
  | engineSetVariable (i : Nat) (target value : List UInt8)

/-- The state after a call. The variable that `addSessionValue` returns is assigned to. -/
def Variables.apply (st : Variables) : Call → Variables
  | .setSessionValue i store name value => (setSessionValue st i store name value).1
  | .addSessionValue i store name value =>
      match addSessionValue st i store name with
      | (st, none) => st
      | (st, some id) => { st with memory := setValue st.memory id value }
  | .setSessionValueByGUID guid store name value =>
      (setSessionValueByGUID st guid store name value).1
  | .getSessionValue _ _ _ => st
  | .getSessionValueByGUID guid store name => (getSessionValueByGUID st guid store name).1
  | .removeSessionValue i store name => (removeSessionValue st i store name).1
  | .engineSetVariable i target value => engineSetVariable st i target value

/-- A call that does not get past a missing guard: by key, a reserved variable is not written, and
read only where it is; it is removed only where it is not; and the target of the template tag is
not reserved. -/
def Guarded (st : Variables) : Call → Prop
  | .setSessionValue _ _ _ _ => True
  | .addSessionValue _ _ _ _ => True
  | .setSessionValueByGUID guid store name _ =>
      name ∈ reservedNames → st.sessionByGuid guid store = none
  | .getSessionValue _ _ _ => True
  | .getSessionValueByGUID guid store name =>
      name ∈ reservedNames → ∀ ss, st.sessionByGuid guid store = some ss →
        searchVariable st.memory ss.vars name ≠ none
  | .removeSessionValue i store name =>
      name ∈ reservedNames → ∀ ss, st.sessionOf i store = some ss →
        searchVariable st.memory ss.vars name = none
  | .engineSetVariable i target _ =>
      ∀ id, (parseVariable st i target).2.value = .ref id → ¬ IsReserved st id

/-- Every call of the run is guarded in the state that it is made in. -/
def AllGuarded : Variables → List Call → Prop
  | _, [] => True
  | st, call :: calls => Guarded st call ∧ AllGuarded (st.apply call) calls

theorem sessionOf_query {st : Variables} {i : Nat} {store : StoreTypes} {ss : SessionStore}
    (h : st.sessionOf i store = some ss) : rbExactQuery st.sessions ss.guid = some ss := by
  unfold Variables.sessionOf at h
  obtain ⟨guid, _, hquery⟩ := Option.bind_eq_some_iff.mp h
  rw [(rbExactQuery_mem hquery).2]
  exact hquery

theorem sessionByGuid_query {st : Variables} {guid : List UInt8} {store : StoreTypes}
    {ss : SessionStore} (h : st.sessionByGuid guid store = some ss) :
    rbExactQuery st.sessions ss.guid = some ss := by
  unfold Variables.sessionByGuid at h
  cases hquery : rbExactQuery st.sessions guid with
  | none =>
      rw [hquery] at h
      cases h
  | some x =>
      rw [hquery] at h
      dsimp only at h
      by_cases hssl : (x.ssl = true) = (store = .sessionStoreSsl)
      · rw [if_pos hssl] at h
        cases h
        rw [(rbExactQuery_mem hquery).2]
        exact hquery
      · rw [if_neg hssl] at h
        cases h

/-- What a call can do to the variables, and what a guarded call leaves alone. -/
inductive CallEffect (st : Variables) (call : Call) : Variables → Prop where
  | same : CallEffect st call st
  | write (ss : SessionStore) (name : List UInt8) (value : WsValue)
      (hss : rbExactQuery st.sessions ss.guid = some ss)
      (hname : Guarded st call → name ∉ reservedNames) :
      CallEffect st call { (st.newSessionVariable ss name).1 with
        memory := setValue (st.newSessionVariable ss name).1.memory
          (st.newSessionVariable ss name).2 value }
  | create (ss : SessionStore) (name : List UInt8)
      (hss : rbExactQuery st.sessions ss.guid = some ss)
      (hname : Guarded st call → name ∈ reservedNames →
        searchVariable st.memory ss.vars name ≠ none) :
      CallEffect st call (st.newSessionVariable ss name).1
  | drop (ss : SessionStore) (name : List UInt8)
      (hss : rbExactQuery st.sessions ss.guid = some ss)
      (hname : Guarded st call → name ∈ reservedNames →
        searchVariable st.memory ss.vars name = none) :
      CallEffect st call (st.dropVariable ss name)
  | template (i : Nat) (target value : List UInt8)
      (htarget : Guarded st call →
        ∀ id, (parseVariable st i target).2.value = .ref id → ¬ IsReserved st id) :
      CallEffect st call (engineSetVariable st i target value)

theorem apply_effect (st : Variables) (call : Call) : CallEffect st call (st.apply call) := by
  cases call with
  | setSessionValue i store name value =>
      show CallEffect st _ (setSessionValue st i store name value).1
      unfold setSessionValue intSetSessionValue
      -- the check of the name stands before the search for the session
      by_cases hname : name ∈ reservedNames
      · rw [if_pos hname]
        exact .same
      · rw [if_neg hname]
        cases hss : st.sessionOf i store with
        | none => exact .same
        | some ss => exact .write ss name _ (sessionOf_query hss) fun _ => hname
  | addSessionValue i store name value =>
      unfold Variables.apply Session.addSessionValue
      dsimp only
      by_cases hname : name ∈ reservedNames
      · rw [if_pos hname]
        exact .same
      · rw [if_neg hname]
        cases hss : st.sessionOf i store with
        | none => exact .same
        | some ss => exact .write ss name value (sessionOf_query hss) fun _ => hname
  | setSessionValueByGUID guid store name value =>
      -- no check of the name here: only a guarded call stays away from the reserved ones
      show CallEffect st _ (setSessionValueByGUID st guid store name value).1
      unfold setSessionValueByGUID
      cases hss : st.sessionByGuid guid store with
      | none => exact .same
      | some ss =>
          refine .write ss name _ (sessionByGuid_query hss) fun hcall hmem => ?_
          rw [hcall hmem] at hss
          cases hss
  | getSessionValue i store name => exact .same
  | getSessionValueByGUID guid store name =>
      -- a variable that is not there is created by the search
      show CallEffect st _ (getSessionValueByGUID st guid store name).1
      unfold getSessionValueByGUID
      cases hss : st.sessionByGuid guid store with
      | none => exact .same
      | some ss =>
          exact .create ss name (sessionByGuid_query hss) fun hcall hmem => hcall hmem ss hss
  | removeSessionValue i store name =>
      show CallEffect st _ (removeSessionValue st i store name).1
      unfold removeSessionValue
      cases hss : st.sessionOf i store with
      | none => exact .same
      | some ss => exact .drop ss name (sessionOf_query hss) fun hcall hmem => hcall hmem ss hss
  | engineSetVariable i target value => exact .template i target value id

/-- No call makes a state that is not well formed. -/
theorem WellFormed.apply {st : Variables} (h : WellFormed st) (call : Call) :
    WellFormed (st.apply call) := by
  have heffect := apply_effect st call
  generalize st.apply call = st' at heffect ⊢
  cases heffect with
  | same => exact h
  | write ss name value hss hname => exact (h.newSessionVariable hss name).assign _ value
  | create ss name hss hname => exact h.newSessionVariable hss name
  | drop ss name hss hname => exact h.dropVariable ss name
  | template i target value htarget => exact h.engineSetVariable i target value

/-- **One call** that is guarded keeps the login state. -/
theorem kept_apply {st : Variables} (h : WellFormed st) {call : Call} (hcall : Guarded st call) :
    Kept st (st.apply call) := by
  have heffect := apply_effect st call
  generalize st.apply call = st' at heffect ⊢
  cases heffect with
  | same => exact Kept.refl st
  | write ss name value hss hname => exact write_kept h hss (hname hcall) value
  | create ss name hss hname => exact newSessionVariable_kept h hss (hname hcall)
  | drop ss name hss hname => exact dropVariable_kept hss (hname hcall)
  | template i target value htarget => exact engineSetVariable_kept h (htarget hcall) value

/-- A run of guarded calls. -/
theorem kept_run {st : Variables} (h : WellFormed st) {calls : List Call}
    (hcalls : AllGuarded st calls) : Kept st (calls.foldl Variables.apply st) := by
  induction calls generalizing st with
  | nil => exact Kept.refl st
  | cons call calls ih =>
      rw [List.foldl_cons]
      exact (kept_apply h hcalls.1).trans (ih (h.apply call) hcalls.2)

/-- **Only a missing guard changes the login state.** In every run of guarded calls, the result of
`checkUserRegistered` and the reserved variables of every session stay as they were. -/
theorem login_state_kept {st : Variables} (h : WellFormed st) {calls : List Call}
    (hcalls : AllGuarded st calls) :
    (∀ i, checkUserRegistered (calls.foldl Variables.apply st) i = checkUserRegistered st i) ∧
      ∀ guid, ∀ name ∈ reservedNames,
        (calls.foldl Variables.apply st).valueByGuid guid name = st.valueByGuid guid name := by
  have hkept := kept_run h hcalls
  exact ⟨hkept.checkUserRegistered, hkept.values⟩

/-- A server with one session, whose user has logged out, and one request of that session. -/
def loggedOut : Variables where
  memory := [{ name := ascii "session-id", value := .string [] },
    { name := ascii "registered", value := .string (ascii "false") }]
  sessions := [{ guid := ascii "k", ssl := false, vars := [0, 1], lastUse := 0 }]
  globals := []
  requests := fun _ => { store := some (ascii "k") }

theorem loggedOut_wellFormed : WellFormed loggedOut := by
  refine ⟨by decide, ?_, ?_⟩
  · intro i id hid
    cases hid
  · intro i id hid
    cases hid

/-- A run of guarded calls. -/
theorem login_state_kept_logged_out :
    checkUserRegistered ([Call.setSessionValue 0 .sessionStore (ascii "color") (some (ascii "red")),
        .setSessionValue 0 .sessionStore (ascii "registered") (some (ascii "true")),
        .engineSetVariable 0 (ascii "session;\"color\"") (ascii "\"blue\"")].foldl
      Variables.apply loggedOut) 0 = .notRegistered := by
  have hcalls : AllGuarded loggedOut
      [Call.setSessionValue 0 .sessionStore (ascii "color") (some (ascii "red")),
        .setSessionValue 0 .sessionStore (ascii "registered") (some (ascii "true")),
        .engineSetVariable 0 (ascii "session;\"color\"") (ascii "\"blue\"")] := by
    refine ⟨trivial, trivial, ?_, trivial⟩
    intro id hid
    have htwo : id = 2 := by
      have hvalue : (parseVariable (((loggedOut.apply
          (.setSessionValue 0 .sessionStore (ascii "color") (some (ascii "red")))).apply
          (.setSessionValue 0 .sessionStore (ascii "registered") (some (ascii "true"))))) 0
          (ascii "session;\"color\"")).2.value = .ref 2 := by decide +kernel
      rw [hvalue] at hid
      cases hid
      rfl
    subst htwo
    rintro ⟨ss, _, _, hname⟩
    revert hname
    decide +kernel
  rw [(login_state_kept loggedOut_wellFormed hcalls).1 0]
  decide +kernel

/-- A template logs the user in. -/
theorem login_state_set_by_template :
    ¬ ∀ (st : Variables) (calls : List Call), WellFormed st →
      (∀ i, checkUserRegistered (calls.foldl Variables.apply st) i = checkUserRegistered st i) ∧
        ∀ guid, ∀ name ∈ reservedNames,
          (calls.foldl Variables.apply st).valueByGuid guid name = st.valueByGuid guid name := by
  intro h
  have hcheck := (h loggedOut
    [.engineSetVariable 0 (ascii "session;\"registered\"") (ascii "\"true\"")]
    loggedOut_wellFormed).1 0
  have hbefore : checkUserRegistered loggedOut 0 = .notRegistered := by decide +kernel
  have hafter : checkUserRegistered ([Call.engineSetVariable 0 (ascii "session;\"registered\"")
      (ascii "\"true\"")].foldl Variables.apply loggedOut) 0 = .normalCheckOk := by decide +kernel
  rw [hbefore, hafter] at hcheck
  cases hcheck

end CWebUI.Session
