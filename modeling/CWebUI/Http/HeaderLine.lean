import CWebUI.Http.FormData

set_option autoImplicit false

/-! # Reading a line of a request header

`analyseHeaderLine` (`header_parser.c`) and what it calls. The first line of a request gives
the method, the version, the address and its parameters; every further line is one of the
fields the server knows, or is ignored. A line is given without its CRLF. The code puts a
NUL byte behind it and reads much of it as a C string, so a NUL byte in the line ends most
values early.

The parsers of parameters and cookies go through the text once and cut it in place. Here
their state is the text since the last separator.
-/

namespace CWebUI.Http

open ByteString

/-! ## Decoding -/

/-- `toHex`: the value of a hexadecimal digit, and `0` for anything else. -/
def toHex (c : UInt8) : UInt8 :=
  if 48 ≤ c ∧ c ≤ 57 then c - 48
  else if 97 ≤ c ∧ c ≤ 102 then c - 87
  else if 65 ≤ c ∧ c ≤ 70 then c - 55
  else 0

/-- The loop of `url_decode`. -/
def urlDecodeLoop : List UInt8 → List UInt8
  | [] => []
  | [a] => [if a = 43 then 32 else a]
  | [a, b] => [if a = 43 then 32 else a, if b = 43 then 32 else b]
  | a :: b :: c :: rest =>
      if a = 37 then ((toHex b <<< 4) + toHex c) :: urlDecodeLoop rest
      else (if a = 43 then 32 else a) :: urlDecodeLoop (b :: c :: rest)

/-- `url_decode` on a C string. A byte that decodes to NUL ends the result. -/
def urlDecode (text : List UInt8) : List UInt8 := cString (urlDecodeLoop (cString text))

/-! ## Parameters -/

/-- `newVariable` and, for a value, `setWSVariableString`: a variable that exists already is
used again, a new one stands at the end. -/
def newVariable (store : List WsVariable) (name : List UInt8) (value : Option (List UInt8)) :
    List WsVariable :=
  if store.any (fun v => v.name == name) then
    match value with
    | none => store
    | some _ => store.replaceF (fun v => if v.name = name then some { v with value := value } else none)
  else store ++ [⟨name, value⟩]

/-- A text with a script tag. -/
def hasScript (text : List UInt8) : Bool :=
  0 < stringfind text (ascii "<script>") || 0 < stringfind text (ascii "</script>")

/-- `createParameter`. -/
def createParameter (header : HttpRequestHeader) (name : List UInt8)
    (value : Option (List UInt8)) : HttpRequestHeader :=
  match value with
  | none =>
      { header with parameterStore := newVariable header.parameterStore (urlDecode name) none }
  | some v =>
      { header with
        parameterStore := newVariable header.parameterStore (urlDecode name) (some (urlDecode v))
        error := header.error || hasScript (urlDecode v) }

/-- The states of the parsers of parameters and of cookies, with the text read so far. -/
inductive ParseState where
  | parseName (name : List UInt8)
  | parseValue (name value : List UInt8)
  /-- Behind the separator of two cookies, where blanks are skipped. -/
  | skipBlanks

/-- One byte of the loop of `recieveParameterFromGet`. -/
def parameterStep (header : HttpRequestHeader) (state : ParseState) (c : UInt8) :
    HttpRequestHeader × ParseState :=
  match state with
  | .parseName name =>
      if c = 38 then
        (if name ≠ [] then createParameter header name none else header, .parseName [])
      else if c = 61 then (header, .parseValue name [])
      else (header, .parseName (name ++ [c]))
  | .parseValue name value =>
      if c = 38 then (createParameter header name (some value), .parseName [])
      else (header, .parseValue name (value ++ [c]))
  | .skipBlanks => (header, state)

/-- `recieveParameterFromGet`. -/
def recieveParameterFromGet (text : List UInt8) (header : HttpRequestHeader) :
    HttpRequestHeader :=
  if text = [] then header
  else
    match text.foldl (fun s c => parameterStep s.1 s.2 c) (header, .parseName []) with
    | (header, .parseName name) => createParameter header name none
    | (header, .parseValue name value) => createParameter header name (some value)
    | (header, .skipBlanks) => header

/-! ## Cookies -/

/-- `createCookie`. -/
def createCookie (header : HttpRequestHeader) (name : List UInt8)
    (value : Option (List UInt8)) : HttpRequestHeader :=
  { header with
    cookieList := header.cookieList ++ [⟨urlDecode name, urlDecode (value.getD [])⟩] }

/-- A byte of a cookie's name. -/
def cookieNameStep (header : HttpRequestHeader) (name : List UInt8) (c : UInt8) :
    HttpRequestHeader × ParseState :=
  if c = 59 then (if name ≠ [] then createCookie header name none else header, .skipBlanks)
  else if c = 61 then (header, .parseValue name [])
  else (header, .parseName (name ++ [c]))

/-- One byte of the loop of `parseCookies`. -/
def cookieStep (header : HttpRequestHeader) (state : ParseState) (c : UInt8) :
    HttpRequestHeader × ParseState :=
  match state with
  | .skipBlanks => if c = 32 then (header, .skipBlanks) else cookieNameStep header [] c
  | .parseName name => cookieNameStep header name c
  | .parseValue name value =>
      if c = 59 then (createCookie header name (some value), .skipBlanks)
      else (header, .parseValue name (value ++ [c]))

/-- `parseCookies`, for the text behind `Cookie: `. -/
def parseCookies (text : List UInt8) (header : HttpRequestHeader) : HttpRequestHeader :=
  match text.foldl (fun s c => cookieStep s.1 s.2 c) (header, .parseName []) with
  | (header, .parseName name) => if name ≠ [] then createCookie header name none else header
  | (header, .parseValue name value) => createCookie header name (some value)
  | (header, .skipBlanks) => header

/-! ## The request line -/

/-- `url_sanity_check`, for the address that was just stored. An error that is there already
is kept, and the address then stays as it was received. -/
def urlSanityCheck (header : HttpRequestHeader) : HttpRequestHeader :=
  if header.error then header
  else
    let url := header.url.getD []
    if 0 < stringfind url (ascii "%00") then { header with error := true }
    else
      let url := urlDecode url
      { header with
        url := some url
        error := 0 < stringfind url (ascii "..") || hasScript url }

/-- The address of a request line: `text` is what follows the method and the first byte of
the address. Without parameters the address ends at the next blank. -/
def requestUrl (text : List UInt8) (header : HttpRequestHeader) : HttpRequestHeader :=
  match strchr 63 (cString text) with
  | none =>
      { header with url := some ((cString text).take (stringfind text (ascii " "))) }
  | some _ =>
      let url := text.takeWhile (· ≠ 63)
      recieveParameterFromGet ((text.drop (url.length + 1)).take (text.length - 9 - (url.length + 1)))
        { header with url := some url }

/-- A request with a known method, whose address follows `skip` bytes. -/
def knownMethod (method : HttpMethod) (skip : Nat) (line : List UInt8)
    (header : HttpRequestHeader) : HttpRequestHeader :=
  urlSanityCheck (requestUrl (line.drop skip) { header with method := method })

/-- A request with another method: its name is kept for the log. -/
def unknownMethod (line : List UInt8) (header : HttpRequestHeader) : HttpRequestHeader :=
  { header with
    errorMethod := if 32 ∈ line then cString ((line.takeWhile (· ≠ 32)).take 29)
      else header.errorMethod
    error := true }

/-- The version at the end of a request line of at least twelve bytes. -/
inductive HttpVersion where
  | http10
  | http11
  | unsupported
  deriving DecidableEq, Repr

/-- The check of the version. -/
def httpVersion (line : List UInt8) : HttpVersion :=
  if line.length < 12 then .unsupported
  else if line.drop (line.length - 9) = ascii " HTTP/1.1" then .http11
  else if line.drop (line.length - 9) = ascii " HTTP/1.0" then .http10
  else .unsupported

/-- The address and the method of a request line whose version is supported. -/
def requestMethod (line : List UInt8) (header : HttpRequestHeader) : HttpRequestHeader :=
  if ascii "GET " <+: line then
    knownMethod .get 5 line { header with noWebsocketSupport := false }
  else if ascii "POST " <+: line then knownMethod .post 6 line header
  else if ascii "OPTIONS " <+: line then knownMethod .options 9 line header
  else unknownMethod line header

/-- The first half of `analyseHeaderLine`: the request line. `false` is the result `-1`. -/
def requestLine (line : List UInt8) (header : HttpRequestHeader) : HttpRequestHeader × Bool :=
  match httpVersion line with
  | .unsupported => ({ header with error := true }, false)
  | .http11 =>
      let header := requestMethod line { header with isHttp11 := true }
      (header, !header.error)
  | .http10 =>
      let header := requestMethod line header
      (header, !header.error)

/-! ## The other lines -/

/-- `CHECK_HEADER_LINE`: the value of the field `name`, if the line is that field. -/
def checkHeaderLine (name line : List UInt8) : Option (List UInt8) :=
  if startsWithIgnoreCase name line then some (cString (line.drop name.length)) else none

/-- `Content-Length: ` with a value. A number with something other than a blank behind it is an
error. -/
def contentLengthField (value : List UInt8) (header : HttpRequestHeader) : HttpRequestHeader :=
  if isDigit (value.headD 0) then
    let (n, rest) := strtoull value
    if rest.headD 0 ∈ [0, 13, 10, 32] then { header with contentlenght := UInt64.ofNat n }
    else { header with contentlenght := 0, error := true }
  else { header with contentlenght := 0 }

/-- The boundary of a `Content-Type` line: what follows `boundary=`, with two dashes before
it. -/
def boundaryOfLine (line : List UInt8) : List UInt8 :=
  ascii "--" ++
    cString ((line.drop (stringfind line (ascii "boundary=") + 1)).takeWhile (· ≠ cr))

/-- The lines that start with `a`. -/
def aBlock (line : List UInt8) (header : HttpRequestHeader) : HttpRequestHeader :=
  if startsWithIgnoreCase (ascii "Accept-Language: ") line then header
  else if startsWithIgnoreCase (ascii "Accept-Charset: ") line then header
  else if let some v := checkHeaderLine (ascii "Accept-Encoding: ") line then
    { header with acceptEncoding := some v }
  else if let some v := checkHeaderLine (ascii "Accept: ") line then
    { header with accept := some v }
  else if let some v := checkHeaderLine (ascii "Access-Control-Request-Method: ") line then
    { header with accessControlRequestMethod := some v }
  else if let some v := checkHeaderLine (ascii "Access-Control-Request-Headers: ") line then
    { header with accessControlRequestHeaders := some v }
  else if let some v := checkHeaderLine (ascii "Authorization: ") line then
    { header with authorization := some v }
  else header

/-- A `Content-Type` that the server knows. -/
def contentTypeField (line : List UInt8) (header : HttpRequestHeader) : HttpRequestHeader :=
  if 0 < stringfindCaseInsensitive (line.drop 14) (ascii "multipart/form-data") then
    { header with contenttype := .multipartFormData, boundary := some (boundaryOfLine line) }
  else if startsWithIgnoreCase (ascii "application/x-www-form-urlencoded") (line.drop 14) then
    { header with contenttype := .applicationXWwwFormUrlencoded }
  else header

/-- The lines that start with `c`. -/
def cBlock (line : List UInt8) (header : HttpRequestHeader) : HttpRequestHeader :=
  if startsWithIgnoreCase (ascii "Cache-Control:") line then header
  else if startsWithIgnoreCase (ascii "Cookie: ") line then parseCookies (line.drop 8) header
  else if startsWithIgnoreCase (ascii "Content-Length: ") line ∧ cString (line.drop 16) ≠ [] then
    contentLengthField (cString (line.drop 16)) header
  else if startsWithIgnoreCase (ascii "Content-Type: ") line then contentTypeField line header
  else if let some v := checkHeaderLine (ascii "Connection: ") line then
    { header with connection := some v }
  else header

/-- The lines that start with `h`: the host with its port, and without it. -/
def hBlock (line : List UInt8) (header : HttpRequestHeader) : HttpRequestHeader :=
  if let some v := checkHeaderLine (ascii "Host: ") line then
    { header with host := some v, hostName := some (v.takeWhile (· ≠ 58)) }
  else header

/-- The lines that start with `i`. -/
def iBlock (line : List UInt8) (header : HttpRequestHeader) : HttpRequestHeader :=
  if let some v := checkHeaderLine (ascii "If-Modified-Since: ") line then
    { header with ifModifiedSince := some v }
  else if let some v := checkHeaderLine (ascii "If-None-Match: ") line then
    { header with etag := some v }
  else header

/-- The lines that start with `o`. -/
def oBlock (line : List UInt8) (header : HttpRequestHeader) : HttpRequestHeader :=
  if let some v := checkHeaderLine (ascii "Origin: ") line then { header with origin := some v }
  else header

/-- The lines that start with `r`. -/
def rBlock (line : List UInt8) (header : HttpRequestHeader) : HttpRequestHeader :=
  if let some v := checkHeaderLine (ascii "Referer: ") line then { header with referer := some v }
  else header

/-- The version in a `Sec-WebSocket-Version: ` line, if the line is one with a number. -/
def websocketVersionOfLine (line : List UInt8) : Option Int :=
  if startsWithIgnoreCase (ascii "Sec-WebSocket-Version: ") line then scanInt (line.drop 23)
  else none

/-- The lines that start with `s`. A version that is not a number leaves the field as it
was. -/
def sBlock (line : List UInt8) (header : HttpRequestHeader) : HttpRequestHeader :=
  if let some v := checkHeaderLine (ascii "Sec-WebSocket-Key: ") line then
    { header with secWebSocketKey := some v }
  else if let some v := checkHeaderLine (ascii "Sec-WebSocket-Protocol: ") line then
    { header with secWebSocketProtocol := some v }
  else
    match websocketVersionOfLine line with
    | some n => { header with secWebSocketVersion := n }
    | none => header

/-- The lines that start with `u`. -/
def uBlock (line : List UInt8) (header : HttpRequestHeader) : HttpRequestHeader :=
  if let some v := checkHeaderLine (ascii "Upgrade: ") line then { header with upgrade := some v }
  else if let some v := checkHeaderLine (ascii "User-Agent: ") line then
    { header with userAgent := some v }
  else header

/-- `matchHeaderFields`. It always succeeds; a `Keep-Alive` line, and every line the server
does not know, is ignored. -/
def matchHeaderFields (line : List UInt8) (header : HttpRequestHeader) : HttpRequestHeader :=
  match toLower (line.headD 0) with
  | 97 => aBlock line header
  | 99 => cBlock line header
  | 104 => hBlock line header
  | 105 => iBlock line header
  | 111 => oBlock line header
  | 114 => rBlock line header
  | 115 => sBlock line header
  | 117 => uBlock line header
  | _ => header

/-- `analyseHeaderLine`: the record after the line, and whether the result is not `-1`. The
method tells whether the request line has been read. -/
def analyseHeaderLine (line : List UInt8) (header : HttpRequestHeader) :
    HttpRequestHeader × Bool :=
  if header.method = .none then requestLine line header
  else (matchHeaderFields line header, true)

end CWebUI.Http
