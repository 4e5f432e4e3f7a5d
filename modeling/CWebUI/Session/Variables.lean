import CWebUI.Session.Store

set_option autoImplicit false

/-! # Variables of sessions, and the template tag that sets one

The variable stores (`variable_store.c`, `variable.c`), the accessors of session variables
(`session.c`), and `engine_setVariable` with `parseVariable` (`engine_functions.c`,
`engine_parser.c`). Variables live in a memory and are named by their place in it, since a
variable may refer to another one; a store is the list of its variables. The functions are called
with a request and a name that are not null.
-/

namespace CWebUI.Session

open ByteString CWebUI.Http

/-! ## Variables -/

/-- The type and the value of a variable. -/
inductive WsValue where
  | empty
  | string (text : List UInt8)
  | int (n : Int)
  | ulong (n : UInt64)
  | long (n : Int64)
  | array (elements : List Nat)
  | ref (target : Nat)
  | customData
  deriving DecidableEq, Repr

/-- `ws_variable` -/
structure WsVar where
  name : List UInt8
  value : WsValue := .empty
  deriving DecidableEq, Repr

/-- The variable at a place. -/
def varAt (memory : List WsVar) (id : Nat) : WsVar := memory.getD id { name := [] }

/-- `searchVariable` -/
def searchVariable (memory : List WsVar) (vars : List Nat) (name : List UInt8) : Option Nat :=
  vars.find? fun id => (varAt memory id).name == name

/-- `newVariable`: the memory, the store, and the variable, which is the one of that name if
there is one. -/
def newVariable (memory : List WsVar) (vars : List Nat) (name : List UInt8) :
    List WsVar × List Nat × Nat :=
  match searchVariable memory vars name with
  | some id => (memory, vars, id)
  | none => (memory ++ [{ name := name }], vars ++ [memory.length], memory.length)

/-- An assignment to a variable. -/
def setValue (memory : List WsVar) (id : Nat) (value : WsValue) : List WsVar :=
  memory.modify id fun v => { v with value := value }

/-- What `setWSVariableString` stores. -/
def stringValue (name : List UInt8) : Option (List UInt8) → WsValue
  | some text => .string (cString text)
  | none => .string ((ascii "Var " ++ name ++ ascii " text=0x0").take 99)

/-- `setWSVariableString` -/
def setWSVariableString (memory : List WsVar) (id : Nat) (text : Option (List UInt8)) :
    List WsVar :=
  setValue memory id (stringValue (varAt memory id).name text)

/-- `delVariable` -/
def delVariable (memory : List WsVar) (vars : List Nat) (name : List UInt8) : List Nat :=
  match searchVariable memory vars name with
  | none => vars
  | some id => vars.erase id

/-! ## The stores of the server -/

/-- `STORE_TYPES` -/
inductive StoreTypes where
  | sessionStore
  | sessionStoreSsl
  deriving DecidableEq, Repr

/-- The part of `http_request` that the accessors use. The sessions are named by their keys. -/
structure RequestVars where
  useSsl : Bool := false
  store : Option (List UInt8) := none
  storeSsl : Option (List UInt8) := none
  renderVars : List Nat := []
  parameters : List Nat := []
  deriving DecidableEq, Repr

/-- The variables of the server: those of the sessions, the global ones and those of the
requests. -/
structure Variables where
  memory : List WsVar
  sessions : List SessionStore
  globals : List Nat
  requests : Nat → RequestVars

/-- A change of the session under a key. -/
def updateSession (key : List UInt8) (f : SessionStore → SessionStore) :
    List SessionStore → List SessionStore
  | [] => []
  | ss :: rest => if ss.guid = key then f ss :: rest else ss :: updateSession key f rest

/-- The key of the session of a request. -/
def RequestVars.session (s : RequestVars) : StoreTypes → Option (List UInt8)
  | .sessionStore => s.store
  | .sessionStoreSsl => if s.useSsl then s.storeSsl else none

/-- The session of a request. -/
def Variables.sessionOf (st : Variables) (i : Nat) (store : StoreTypes) : Option SessionStore :=
  ((st.requests i).session store).bind (rbExactQuery st.sessions)

/-- `newVariable` in the store of a session. -/
def Variables.newSessionVariable (st : Variables) (ss : SessionStore) (name : List UInt8) :
    Variables × Nat :=
  let (memory, vars, id) := newVariable st.memory ss.vars name
  ({ st with
      memory := memory
      sessions := updateSession ss.guid (fun ss => { ss with vars := vars }) st.sessions }, id)

/-! ## The accessors -/

/-- The names that the accessors guard. -/
def reservedNames : List (List UInt8) :=
  [ascii "registered", ascii "session-id", ascii "session-id-ssl"]

/-- `int_setSessionValue` -/
def intSetSessionValue (st : Variables) (i : Nat) (store : StoreTypes) (name : List UInt8)
    (value : Option (List UInt8)) : Variables × Bool :=
  match st.sessionOf i store with
  | none => (st, false)
  | some ss =>
      let (st, id) := st.newSessionVariable ss name
      ({ st with memory := setWSVariableString st.memory id value }, true)

/-- `setSessionValue` -/
def setSessionValue (st : Variables) (i : Nat) (store : StoreTypes) (name : List UInt8)
    (value : Option (List UInt8)) : Variables × Bool :=
  if name ∈ reservedNames then (st, false) else intSetSessionValue st i store name value

/-- `addSessionValue` -/
def addSessionValue (st : Variables) (i : Nat) (store : StoreTypes) (name : List UInt8) :
    Variables × Option Nat :=
  if name ∈ reservedNames then (st, none)
  else
    match st.sessionOf i store with
    | none => (st, none)
    | some ss =>
        let (st, id) := st.newSessionVariable ss name
        (st, some id)

/-- `int_getSessionValue` -/
def intGetSessionValue (st : Variables) (i : Nat) (store : StoreTypes) (name : List UInt8) :
    Option Nat :=
  (st.sessionOf i store).bind fun ss => searchVariable st.memory ss.vars name

/-- `getSessionValue`. The name `registered` is not guarded here. -/
def getSessionValue (st : Variables) (i : Nat) (store : StoreTypes) (name : List UInt8) :
    Option Nat :=
  if name = ascii "session-id" then none
  else if name = ascii "session-id-ssl" then none
  else intGetSessionValue st i store name

/-- The session under a key, if it is of the kind. -/
def Variables.sessionByGuid (st : Variables) (guid : List UInt8) (store : StoreTypes) :
    Option SessionStore :=
  match rbExactQuery st.sessions guid with
  | none => none
  | some ss => if ss.ssl = (store = .sessionStoreSsl) then some ss else none

/-- `setSessionValueByGUID` -/
def setSessionValueByGUID (st : Variables) (guid : List UInt8) (store : StoreTypes)
    (name : List UInt8) (value : Option (List UInt8)) : Variables × Bool :=
  match st.sessionByGuid guid store with
  | none => (st, false)
  | some ss =>
      let (st, id) := st.newSessionVariable ss name
      ({ st with memory := setWSVariableString st.memory id value }, true)

/-- `getSessionValueByGUID` -/
def getSessionValueByGUID (st : Variables) (guid : List UInt8) (store : StoreTypes)
    (name : List UInt8) : Variables × Option Nat :=
  match st.sessionByGuid guid store with
  | none => (st, none)
  | some ss =>
      let (st, id) := st.newSessionVariable ss name
      (st, some id)

/-- `removeSessionValue` -/
def removeSessionValue (st : Variables) (i : Nat) (store : StoreTypes) (name : List UInt8) :
    Variables × Bool :=
  match st.sessionOf i store with
  | none => (st, false)
  | some ss =>
      let delete (ss : SessionStore) : SessionStore :=
        { ss with vars := delVariable st.memory ss.vars name }
      ({ st with sessions := updateSession ss.guid delete st.sessions }, true)

/-! ## The login state -/

/-- The results of `checkUserRegistered`. -/
inductive RegisteredCheck where
  | notRegistered
  | normalCheckOk
  | sslCheckOk
  | sessionMismatchError
  deriving DecidableEq, Repr

/-- The text of a string variable. -/
def WsValue.text : WsValue → List UInt8
  | .string text => text
  | _ => []

/-- `guid_cmp` -/
def guidCmp (a b : List UInt8) : Bool := a ≠ [] ∧ a = b

/-- The value of a session variable of a request. -/
def Variables.value (st : Variables) (i : Nat) (store : StoreTypes) (name : List UInt8) :
    Option WsValue :=
  (intGetSessionValue st i store name).map fun id => (varAt st.memory id).value

/-- `checkUserRegistered` -/
def checkUserRegistered (st : Variables) (i : Nat) : RegisteredCheck :=
  if st.value i .sessionStore (ascii "registered") ≠ some (.string (ascii "true")) then
    .notRegistered
  else
    let trueSsl := (st.requests i).useSsl ∧
      st.value i .sessionStoreSsl (ascii "registered") = some (.string (ascii "true"))
    match st.value i .sessionStore (ascii "session-id") with
    | none => .notRegistered
    | some guid =>
        if (st.requests i).useSsl then
          match st.value i .sessionStoreSsl (ascii "session-id-ssl") with
          | none => .sessionMismatchError
          | some guidSsl =>
              if guidCmp guid.text guidSsl.text ∧ trueSsl then .sslCheckOk
              else if (guidCmp guid.text guidSsl.text = true) ≠ trueSsl then .sessionMismatchError
              else if ¬ trueSsl then .sessionMismatchError
              else .normalCheckOk
        else .normalCheckOk

/-! ## Template expressions -/

/-- `atoi` -/
def atoi (text : List UInt8) : Int := (scanInt text).getD 0

/-- The name spaces of an expression. -/
inductive NameSpace where
  | none
  | global
  | render
  | session
  | parameter
  deriving DecidableEq, Repr

/-- The name space of an expression, and the text behind it. -/
def nameSpaceOf (buffer : List UInt8) : NameSpace × List UInt8 :=
  if ascii "global;" <+: buffer then (.global, buffer.drop 7)
  else if ascii "render;" <+: buffer then (.render, buffer.drop 7)
  else if ascii "session;" <+: buffer then (.session, buffer.drop 8)
  else if ascii "parameter;" <+: buffer then (.parameter, buffer.drop 10)
  else (.none, buffer)

/-- `getRenderVariable` -/
def getRenderVariable (st : Variables) (i : Nat) (name : List UInt8) : Variables × Nat :=
  let (memory, vars, id) := newVariable st.memory (st.requests i).renderVars name
  ({ st with
      memory := memory
      requests := Function.update st.requests i { st.requests i with renderVars := vars } }, id)

/-- `getGlobalVariable` -/
def getGlobalVariable (st : Variables) (name : List UInt8) : Variables × Nat :=
  let (memory, vars, id) := newVariable st.memory st.globals name
  ({ st with memory := memory, globals := vars }, id)

/-- The variable that a name means in a name space. The result has the name of the temporary
variable, too: an empty render variable gives it its own. -/
def lookupName (st : Variables) (i : Nat) (space : NameSpace) (name : List UInt8) :
    Variables × List UInt8 × Option Nat :=
  match space with
  | .none => (st, ascii "tmp", none)
  | .global =>
      let (st, id) := getGlobalVariable st name
      (st, ascii "tmp", some id)
  | .render =>
      let (st, id) := getRenderVariable st i name
      if (varAt st.memory id).value = .empty then (st, name, none) else (st, ascii "tmp", some id)
  | .session => (st, ascii "tmp", getSessionValue st i .sessionStore name)
  | .parameter => (st, ascii "tmp", searchVariable st.memory (st.requests i).parameters name)

/-- The message for a name that is not found. -/
def notFoundText (space : NameSpace) (name : List UInt8) : List UInt8 :=
  let front := match space with
    | .global => ascii "GLOBAL VAR "
    | .render => ascii "RENDER VAR "
    | .session => ascii "SESSION VAR "
    | .parameter => ascii "PARAMETER VAR "
    | .none => ascii "UNKNOWN NameSpace VAR "
  (front ++ name ++ ascii " not found").take 99

/-- The elements of an array; `none` for a variable of another type. -/
def elementsOf (memory : List WsVar) (id : Nat) : Option (List Nat) :=
  match (varAt memory id).value with
  | .array elements => some elements
  | _ => none

/-- The index at the front of a text that starts with a bracket: the element, the text of the
index, and the text where the search for another index goes on. Behind a number that is one byte
too far. A negative number becomes one of 32 bits without a sign. -/
def elementAt (memory : List WsVar) (elements : List Nat) (text : List UInt8) :
    Option Nat × List UInt8 × List UInt8 :=
  let inner := (text.drop 1).takeWhile (· ≠ 93)
  match inner with
  | 34 :: quoted =>
      let name := quoted.dropLast
      (searchVariable memory elements name, name, text.drop (name.length + 4))
  | _ =>
      (elements[(atoi inner % 2 ^ 32).toNat]?, inner, text.drop (inner.length + 3))

/-- The loop over the indices behind the name of an array. Every round takes a bracket. -/
def arrayLoop (memory : List WsVar) : Nat → Nat → List Nat → List UInt8 → WsValue
  | 0, id, _, _ => .ref id
  | fuel + 1, id, elements, text =>
      if text.head? = some 91 then
        match elementAt memory elements text with
        | (none, index, _) =>
            .string ((ascii "ARRAY " ++ (varAt memory id).name ++ ascii " INDEX " ++ index ++
              ascii " not found").take 129)
        | (some element, _, behind) =>
            match behind.head?, elementsOf memory element with
            | some 91, some inner => arrayLoop memory fuel element inner behind
            | _, _ => .ref element
      else .ref id

/-- The variable that a reference stands for. -/
def derefVar (memory : List WsVar) (id : Nat) : Nat :=
  match (varAt memory id).value with
  | .ref target => target
  | _ => id

/-- `parseVariable`: the temporary variable that it returns. -/
def parseVariable (st : Variables) (i : Nat) (buffer : List UInt8) : Variables × WsVar :=
  let (space, text) := nameSpaceOf buffer
  if text.head? = some 34 then
    let name := (text.drop 1).takeWhile (· ≠ 34)
    if space = .none then (st, { name := ascii "tmp", value := .string name })
    else
      match lookupName st i space name with
      | (st, tmp, none) => (st, { name := tmp, value := .string (notFoundText space name) })
      | (st, tmp, some id) =>
          let id := derefVar st.memory id
          let behind := text.drop (name.length + 2)
          match elementsOf st.memory id with
          | some elements =>
              (st, { name := tmp,
                     value := arrayLoop st.memory (behind.length + 1) id elements behind })
          | none => (st, { name := tmp, value := .ref id })
  else (st, { name := ascii "tmp", value := .int (atoi buffer) })

/-- The values that `engine_setVariable` can assign. -/
def assignable : WsValue → Option WsValue
  | .string text => some (.string text)
  | .int n => some (.int n)
  | _ => none

/-- An assignment, if the value is one that is handled. -/
def Variables.assign (st : Variables) (id : Nat) (value : Option WsValue) : Variables :=
  match value with
  | some v => { st with memory := setValue st.memory id v }
  | none => st

/-- `engine_setVariable` on the texts of its two parameters. -/
def engineSetVariable (st : Variables) (i : Nat) (target value : List UInt8) : Variables :=
  let (st, var) := parseVariable st i target
  let (st, setValueVar) := parseVariable st i value
  match var.value with
  | .ref id => st.assign id (assignable setValueVar.value)
  | _ =>
      let (st, id) := getRenderVariable st i var.name
      st.assign id (assignable setValueVar.value)

end CWebUI.Session
