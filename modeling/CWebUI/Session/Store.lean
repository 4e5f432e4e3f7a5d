import CWebUI.Basic.CString
import CWebUI.Http.Header

set_option autoImplicit false

/-! # Sessions

`session.c` and `checkCookie` (`cookie.c`). A session is a record in a tree whose key is its
GUID. A request has two halves, one for the plain session and one for the session over TLS; the
code treats them alike. The tree is a list of records with lookup by key. What `generateGUID`
returns, and the clock, are arguments.
-/

namespace CWebUI.Session

open ByteString CWebUI.Http

/-- `WEBSERVER_GUID_LENGTH` -/
def webserverGuidLength : Nat := 50

/-- `sessionStore`. The variables are those of the store's list, by their place in memory. -/
structure SessionStore where
  guid : List UInt8
  ssl : Bool
  vars : List Nat
  lastUse : UInt64
  deriving DecidableEq, Repr

/-- What the platform says when it is asked: the tick, the ticks of a second, and
`session_timeout` from the configuration. -/
structure Clock where
  now : UInt64
  ticksPerSeconde : UInt64
  sessionTimeout : UInt64
  deriving DecidableEq, Repr

/-- One half of a request: `guid`, `create_cookie` and `store`, or those with `_ssl`. The store
is named by its key. -/
structure SessionSide where
  guid : List UInt8 := []
  createCookie : Bool := false
  store : Option (List UInt8) := none
  deriving DecidableEq, Repr

/-- The part of `http_request` that sessions use. -/
structure HttpRequest where
  cookieList : List Cookie
  useSsl : Bool
  plain : SessionSide := {}
  ssl : SessionSide := {}
  deriving DecidableEq, Repr

/-- The session tree, and the values that `generateGUID` has returned so far. -/
structure Sessions where
  tree : List SessionStore
  lastTimeoutCheck : UInt64
  issued : List (List UInt8)
  deriving DecidableEq, Repr

/-- The keys of the tree. -/
def Sessions.keys (st : Sessions) : List (List UInt8) := st.tree.map SessionStore.guid

/-- `RBExactQuery` -/
def rbExactQuery (tree : List SessionStore) (key : List UInt8) : Option SessionStore :=
  tree.find? (fun ss => ss.guid == key)

/-- What `checkCookie` copies of a cookie's value. -/
def copiedValue (value : List UInt8) : List UInt8 := (cString value).take webserverGuidLength

/-- `checkCookie`: the value that it copies, of the first cookie with the name. -/
def checkCookie (name : List UInt8) (cookies : List Cookie) : Option (List UInt8) :=
  (cookies.find? (fun c => c.name == name)).map fun c => copiedValue c.value

/-- The name of the session cookie. -/
def cookieName (ssl : Bool) : List UInt8 :=
  if ssl then ascii "session-id-ssl" else ascii "session-id"

/-- The test of `checkSessionTimeout` on one session. -/
def Clock.expired (clock : Clock) (ss : SessionStore) : Bool :=
  clock.sessionTimeout ≠ 0 ∧
    clock.now - ss.lastUse > clock.sessionTimeout * clock.ticksPerSeconde

/-- `checkSessionTimeout` -/
def checkSessionTimeout (clock : Clock) (st : Sessions) : Sessions :=
  if clock.now - st.lastTimeoutCheck < 10 * clock.ticksPerSeconde then st
  else { st with
    lastTimeoutCheck := clock.now
    tree := st.tree.filter fun ss => !clock.expired ss }

/-- `createSession` -/
def createSession (clock : Clock) (ssl : Bool) (st : Sessions) (side : SessionSide) :
    Sessions × SessionSide :=
  let guid := side.guid.take webserverGuidLength
  ({ st with tree := ⟨guid, ssl, [], clock.now⟩ :: st.tree }, { side with store := some guid })

/-- `generateGUID`, for the value that it returns. -/
def Sessions.generateGUID (st : Sessions) (guid : List UInt8) : Sessions :=
  { st with issued := guid :: st.issued }

/-- `findSessionStore` -/
def findSessionStore (clock : Clock) (ssl : Bool) (st : Sessions) (side : SessionSide) :
    Sessions × SessionSide × Bool :=
  let st := checkSessionTimeout clock st
  match rbExactQuery st.tree side.guid with
  | none => (st, side, false)
  | some store =>
      if store.ssl = ssl then
        ({ st with tree := st.tree.map fun ss =>
            if ss.guid = store.guid then { ss with lastUse := clock.now } else ss },
          { side with store := some store.guid }, true)
      else (st, side, false)

/-- One half of `restoreSession`. -/
def restoreSide (clock : Clock) (create : Bool) (guid : List UInt8) (ssl : Bool)
    (st : Sessions) (side : SessionSide) : Sessions × SessionSide :=
  if side.store = none then
    if !side.createCookie then
      match findSessionStore clock ssl st side with
      | (st, side, true) => (st, side)
      | (st, side, false) =>
          if create then
            createSession clock ssl (st.generateGUID guid)
              { side with createCookie := true, guid := guid }
          else (st, side)
    else if create then createSession clock ssl st side
    else (st, side)
  else (st, side)

/-- `restoreSession` -/
def restoreSession (clock : Clock) (create : Bool) (guid guidSsl : List UInt8) (st : Sessions)
    (s : HttpRequest) : Sessions × HttpRequest :=
  let st := checkSessionTimeout clock st
  let (st, plain) := restoreSide clock create guid false st s.plain
  if s.useSsl then
    let (st, ssl) := restoreSide clock create guidSsl true st s.ssl
    (st, { s with plain := plain, ssl := ssl })
  else (st, { s with plain := plain })

/-- One half of `checkSessionCookie`. -/
def checkSessionSide (guid : List UInt8) (ssl : Bool) (cookies : List Cookie) (st : Sessions)
    (side : SessionSide) : Sessions × SessionSide :=
  match checkCookie (cookieName ssl) cookies with
  | some value => (st, { side with guid := value })
  | none => (st.generateGUID guid, { side with createCookie := true, guid := guid })

/-- `checkSessionCookie` -/
def checkSessionCookie (guid guidSsl : List UInt8) (st : Sessions) (s : HttpRequest) :
    Sessions × HttpRequest :=
  let (st, plain) := checkSessionSide guid false s.cookieList st s.plain
  if s.useSsl then
    let (st, ssl) := checkSessionSide guidSsl true s.cookieList st s.ssl
    (st, { s with plain := plain, ssl := ssl })
  else (st, { s with plain := plain })

end CWebUI.Session
