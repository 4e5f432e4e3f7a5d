import CWebUI.Basic.Bytes

set_option autoImplicit false

/-! # The request header record

`HttpRequestHeader` (`dataTypes.h`) is what the header parser fills in and what the request
handlers read. One record belongs to a connection: it is allocated zeroed and is reset
between the requests of a keep-alive connection. Strings are C strings, written without
their terminator; a pointer that may be null is an `Option`.
-/

namespace CWebUI.Http

/-- The methods the server knows; `none` is the `0` of a header whose request line has not
been read. -/
inductive HttpMethod where
  | none
  | post
  | get
  | options
  deriving DecidableEq, Repr

/-- The content types the parser tells apart; `none` is `0`. -/
inductive ContentType where
  | none
  | multipartFormData
  | applicationXWwwFormUrlencoded
  deriving DecidableEq, Repr

/-- A variable of the parameter store: its name, and its string value if one was set. -/
structure WsVariable where
  name : List UInt8
  value : Option (List UInt8)
  deriving DecidableEq, Repr

/-- A cookie of the request. -/
structure Cookie where
  name : List UInt8
  value : List UInt8
  deriving DecidableEq, Repr

/-- `HttpRequestHeader`. The defaults are the bytes that `memset` leaves. -/
structure HttpRequestHeader where
  url : Option (List UInt8) := none
  method : HttpMethod := .none
  errorMethod : List UInt8 := []
  error : Bool := false
  gzip : Bool := false
  deflate : Bool := false
  contentlenght : UInt64 := 0
  contenttype : ContentType := .none
  ifModifiedSince : Option (List UInt8) := none
  etag : Option (List UInt8) := none
  upgrade : Option (List UInt8) := none
  connection : Option (List UInt8) := none
  host : Option (List UInt8) := none
  hostName : Option (List UInt8) := none
  origin : Option (List UInt8) := none
  accessControlRequestMethod : Option (List UInt8) := none
  accessControlRequestHeaders : Option (List UInt8) := none
  acceptEncoding : Option (List UInt8) := none
  isHttp11 : Bool := false
  userAgent : Option (List UInt8) := none
  accept : Option (List UInt8) := none
  authorization : Option (List UInt8) := none
  referer : Option (List UInt8) := none
  headerComplete : Bool := false
  parsedBytes : Nat := 0
  /-- The bytes of the accept key, up to the terminator. -/
  webSocketOutHash : List UInt8 := []
  secWebSocketProtocol : Option (List UInt8) := none
  secWebSocketKey : Option (List UInt8) := none
  secWebSocketVersion : Int := 0
  isWebsocket : Nat := 0
  noWebsocketSupport : Bool := false
  postBuffer : Option (List UInt8) := none
  postBufferPos : UInt32 := 0
  postBufferReserved : UInt64 := 0
  boundary : Option (List UInt8) := none
  contentDisposition : Option (List UInt8) := none
  contentType : Option (List UInt8) := none
  parameterStore : List WsVariable := []
  cookieList : List Cookie := []
  requestStartMs : UInt64 := 0
  responseBytes : UInt64 := 0
  responseStatus : Int := 0
  accessLogUser : Option (List UInt8) := none
  deriving DecidableEq, Repr

/-- `WebserverMallocHttpRequestHeader`: a zeroed record with empty stores. -/
def webserverMallocHttpRequestHeader : HttpRequestHeader := {}

end CWebUI.Http
