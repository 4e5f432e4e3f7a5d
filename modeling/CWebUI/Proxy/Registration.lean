import CWebUI.Basic.CString

set_option autoImplicit false

/-! # Which requests belong to the reverse proxy

A registration of `reverse_proxy.c` names a method and a prefix of the address. The check
is made by the header parser when it has found the end of a line, on all the bytes it has
in its buffer at that time.
-/

namespace CWebUI.Proxy

open ByteString

/-- `reverse_proxy_registration_t`. A method `*` stands for every method. -/
structure ProxyRegistration where
  method : List UInt8
  urlPrefix : List UInt8
  backendPath : List UInt8
  deriving DecidableEq, Repr

/-- `strcasecmp(a, b) == 0`. -/
def sameIgnoreCase (a b : List UInt8) : Bool := a.map toLower == b.map toLower

/-- `proxy_parse_request_line`: the method, in a buffer of 16 bytes, and the address without
its parameters, in a buffer of 512 bytes. -/
def proxyParseRequestLine (buffer : List UInt8) : Option (List UInt8 × List UInt8) :=
  let method := (buffer.takeWhile (· ≠ 32)).take 15
  match buffer.drop method.length with
  | 32 :: rest =>
      some (cString method, cString ((rest.takeWhile (fun c => c ≠ 32 ∧ c ≠ 63)).take 511))
  | _ => none

/-- `proxy_find_registration`: the first registration that fits. -/
def proxyFindRegistration (registrations : List ProxyRegistration) (method url : List UInt8) :
    Option ProxyRegistration :=
  registrations.find? (fun r =>
    r.urlPrefix.isPrefixOf url && (r.method == ascii "*" || sameIgnoreCase r.method method))

/-- What `checkReverseProxy` decides. -/
inductive ProxyCheck where
  /-- The request is not for the proxy; `checked` says whether that is settled. -/
  | pass (checked : Bool)
  /-- The connection has been handed over. A request that came behind a response which is
  still to be written is dropped instead. -/
  | taken (registration : ProxyRegistration)
  deriving DecidableEq, Repr

/-- `checkReverseProxy`, up to the hand-over. -/
def checkReverseProxy (registrations : List ProxyRegistration) (checked : Bool)
    (buffer : List UInt8) : ProxyCheck :=
  if checked then .pass true
  else
    match proxyParseRequestLine buffer with
    | none => .pass false
    | some (method, url) =>
        match proxyFindRegistration registrations method url with
        | none => .pass true
        | some r => .taken r

end CWebUI.Proxy
