import CWebUI.Basic.Decimal
import CWebUI.Http.OutputBuffer
import CWebUI.Http.SecurityPolicy

set_option autoImplicit false

/-! # The headers of responses

The senders of `header_send.c` and `server_error_pages.c`: what they print, text by text, into the
chunk lists of header and page. How the library is built and configured is a record. A handler for
cross-origin requests answers by what it is asked (`cors_infos`); the code asks it once for each
header field.
-/

namespace CWebUI.Http

open ByteString
open CWebUI.Websocket (writeChunk)

/-! ## The data -/

/-- `CORS_HEADER_TYPES` -/
inductive CorsHeaderType where
  | allowOrigin
  | allowCredentials
  | allowMethods
  | allowHeaders
  deriving DecidableEq, Repr

/-- `cors_infos`. For other methods than these three the method is not set. -/
structure CorsInfos where
  type : CorsHeaderType
  origin : List UInt8
  method : Option (List UInt8)

/-- `WEBSERVER_USE_SSL`, `WEBSERVER_USE_SESSIONS`, `WEBSERVER_DISABLE_CACHE`, `MAX_CACHE_AGE`, the
names of the server, the configuration, and the handler for cross-origin requests. -/
structure SenderConfig where
  useSsl : Bool := false
  useSessions : Bool := true
  disableCache : Bool := false
  maxCacheAge : Nat := 15
  serverName : List UInt8
  serverDomain : List UInt8
  port : Nat
  sslPort : Nat
  useCsp : Int := 0
  cookieSamesiteStrict : Int := 0
  corsHandleFunc : Option (CorsInfos → Int) := none

/-- `FILE_TYPES` -/
inductive FileType where
  | plain
  | html
  | htmlInc
  | css
  | js
  | xml
  | xsl
  | ico
  | bmp
  | jpg
  | png
  | gif
  | manifest
  | svg
  | pdf
  | json
  | woff
  | eot
  | ttf
  | cSrc
  | custom
  | all
  deriving DecidableEq, Repr

/-- The part of `WebserverFileInfo` that the senders use. -/
structure WebserverFileInfo where
  url : List UInt8 := []
  data : List UInt8 := []
  fileType : FileType := .plain
  compressed : Nat := 0
  templateFile : Bool := false
  authOnly : Bool := false
  lastmodified : Option (List UInt8) := none
  etag : Option (List UInt8) := none
  deriving DecidableEq, Repr

/-- The part of `http_request` that the senders use, with that of its socket. -/
structure HttpRequest where
  header : HttpRequestHeader
  socket : ResponseSocket
  closeSocket : Bool := false
  useSsl : Bool := false
  errorRequestsOnSocket : Nat := 0
  createCookie : Bool := false
  guid : List UInt8 := []
  createCookieSsl : Bool := false
  guidSsl : List UInt8 := []
  customResponseHeaders : List (List UInt8 × List UInt8) := []
  forceDownload : Bool := false
  forceDownloadName : List UInt8 := []

/-- `printHeaderChunk`, once for each text. -/
def HttpRequest.printHeader (s : HttpRequest) (texts : List (List UInt8)) : HttpRequest :=
  { s with socket := { s.socket with
      headerChunkList := texts.foldl writeChunk s.socket.headerChunkList } }

/-- `printHTMLChunk`, once for each text. -/
def HttpRequest.printPage (s : HttpRequest) (texts : List (List UInt8)) : HttpRequest :=
  { s with socket := { s.socket with
      htmlChunkList := texts.foldl writeChunk s.socket.htmlChunkList } }

/-- `s->header->response_status = status` -/
def HttpRequest.setStatus (s : HttpRequest) (status : Int) : HttpRequest :=
  { s with header := { s.header with responseStatus := status } }

/-! ## Parts of a header -/

/-- The first line of a response. -/
def statusText (header : HttpRequestHeader) (status : List UInt8) : List UInt8 :=
  ascii (if header.isHttp11 then "HTTP/1.1 " else "HTTP/1.0 ") ++ status ++ crlf

def serverText : List UInt8 := ascii "Server: libCWebUI\r\n"

/-- `Content-Length: %d` -/
def contentLengthText (n : Nat) : List UInt8 := ascii "Content-Length: " ++ decimal n ++ crlf

/-- `checkCORS`, compared with `COND_TRUE` -/
def checkCors (config : SenderConfig) (type : CorsHeaderType) (header : HttpRequestHeader) : Bool :=
  match config.corsHandleFunc with
  | none => false
  | some handler =>
      handler
        { type := type
          origin := header.origin.getD []
          method := match header.method with
            | .options => some (ascii "OPTIONS")
            | .get => some (ascii "GET")
            | .post => some (ascii "POST")
            | .none => none } == 1

/-- A field whose value is that of the request, if there is one and the handler agrees. -/
def corsField (config : SenderConfig) (type : CorsHeaderType) (header : HttpRequestHeader)
    (name : String) (value : Option (List UInt8)) : List (List UInt8) :=
  match value with
  | none => []
  | some value =>
      if checkCors config type header then [ascii name ++ sanitizeHeaderValue value 512 ++ crlf]
      else []

/-- `Access-Control-Allow-Credentials` -/
def credentialsField (config : SenderConfig) (header : HttpRequestHeader) : List (List UInt8) :=
  if checkCors config .allowCredentials header then
    [ascii "Access-Control-Allow-Credentials: true\r\n"]
  else []

/-- `addConnectionStatusLines` -/
def addConnectionStatusLines (config : SenderConfig) (closeSocket : Bool)
    (header : HttpRequestHeader) : List (List UInt8) :=
  (if closeSocket then [ascii "Connection: close\r\n"]
    else
      match header.connection with
      | some connection =>
          if connection = ascii "close" then [ascii "Connection: close\r\n"]
          else [ascii "Connection: " ++ sanitizeHeaderValue connection 512 ++ crlf]
      | none =>
          if header.isHttp11 then [ascii "Connection: keep-alive\r\n"]
          else [ascii "Connection: close\r\n"]) ++
    corsField config .allowOrigin header "Access-Control-Allow-Origin: " header.origin ++
    credentialsField config header

/-- `addCacheControlLines` -/
def addCacheControlLines (config : SenderConfig) (info : WebserverFileInfo) : List (List UInt8) :=
  if config.disableCache = false ∧ info.fileType ≠ .html ∧ info.templateFile = false then
    [ascii "Cache-Control: max-age=" ++ decimal config.maxCacheAge ++ ascii ", public\r\n"] ++
      (info.etag.map fun etag => ascii "ETag: " ++ etag ++ crlf).toList ++
      (info.lastmodified.map fun time => ascii "Last-Modified: " ++ time ++ crlf).toList
  else [ascii "Cache-Control: no-cache, no-store, must-revalidate\r\n"]

/-- The content types of `addContentTypeLines`. The handler of a `custom` page sets its own; for the
others there is only a line in the log. -/
def contentType : FileType → Option String
  | .plain => some "text/plain"
  | .html => some "text/html"
  | .htmlInc => some "text/html"
  | .xml => some "text/xml"
  | .xsl => some "text/xsl"
  | .css => some "text/css"
  | .js => some "text/javascript"
  | .jpg => some "image/jpeg"
  | .png => some "image/png"
  | .gif => some "image/gif"
  | .ico => some "image/x-icon"
  | .manifest => some "text/cache-manifest"
  | .svg => some "image/svg+xml"
  | .bmp => some "image/bmp"
  | .json => some "application/json"
  | .pdf => some "application/pdf"
  | .woff => some "application/x-font-woff"
  | .eot => some "application/vnd.ms-fontobject"
  | .ttf => some "application/x-font-ttf"
  | .cSrc => some "text/x-c"
  | .custom => none
  | .all => none

/-- `addContentTypeLines` -/
def addContentTypeLines (info : WebserverFileInfo) : List (List UInt8) :=
  (if info.compressed = 1 then [ascii "Content-Encoding: gzip\r\n"]
    else if info.compressed = 2 then [ascii "Content-Encoding: deflate\r\n"]
    else []) ++
    ((contentType info.fileType).map fun type =>
      ascii "Content-Type: " ++ ascii type ++ crlf).toList

/-- `addSessionCookies` -/
def addSessionCookies (config : SenderConfig) (s : HttpRequest) : List (List UInt8) :=
  let samesite := ascii (if config.cookieSamesiteStrict = 1 then "Strict" else "Lax")
  if config.useSessions = false then []
  else if config.useSsl then
    (if s.createCookie then
      [ascii "Set-Cookie: session-id=" ++ s.guid ++
        ascii "; HttpOnly; Version=1; Path=/; Discard; SameSite=" ++ samesite ++ crlf]
      else []) ++
      if s.createCookieSsl && s.useSsl then
        [ascii "Set-Cookie: session-id-ssl=" ++ s.guidSsl ++
          ascii "; HttpOnly; Version=1; Path=/; Discard; Secure; SameSite=" ++ samesite ++ crlf]
      else []
  else if s.createCookie then
    [ascii "Set-Cookie: session-id=" ++ s.guid ++
      ascii "; Version=1; Path=/; Discard; HttpOnly; SameSite=" ++ samesite ++ crlf]
  else []

/-- `reasonPhrase` -/
def reasonPhrase (status : Nat) : String :=
  match status with
  | 200 => "OK"
  | 201 => "Created"
  | 202 => "Accepted"
  | 204 => "No Content"
  | 400 => "Bad Request"
  | 401 => "Unauthorized"
  | 403 => "Forbidden"
  | 404 => "Not Found"
  | 405 => "Method Not Allowed"
  | 409 => "Conflict"
  | 413 => "Payload Too Large"
  | 429 => "Too Many Requests"
  | 431 => "Request Header Fields Too Large"
  | 500 => "Internal Server Error"
  | 501 => "Not Implemented"
  | 502 => "Bad Gateway"
  | 503 => "Service Unavailable"
  | _ => "Unknown"

/-- The fields of a page that is to be downloaded. -/
def downloadFields (s : HttpRequest) (info : WebserverFileInfo) : List (List UInt8) :=
  if s.forceDownload then
    [ascii "Content-Description: File Transfer\r\n",
      ascii "Content-Disposition: attachment; filename=\"" ++
        (if s.forceDownloadName = [] then info.url else s.forceDownloadName) ++ ascii "\"\r\n",
      ascii "Content-Transfer-Encoding: binary\r\n",
      ascii "Expires: 0\r\n",
      ascii "Cache-Control: must-revalidate, post-check=0, pre-check=0\r\n",
      ascii "Pragma: public\r\n"]
  else []

/-! ## The senders -/

/-- `sendPreflightAllowed` -/
def sendPreflightAllowed (config : SenderConfig) (s : HttpRequest) : HttpRequest :=
  (s.setStatus 204).printHeader
    ([statusText s.header (ascii "204 No Content"), serverText] ++
      corsField config .allowMethods s.header "Access-Control-Allow-Methods: "
        s.header.accessControlRequestMethod ++
      corsField config .allowHeaders s.header "Access-Control-Allow-Headers: "
        s.header.accessControlRequestHeaders ++
      corsField config .allowOrigin s.header "Access-Control-Allow-Origin: " s.header.origin ++
      credentialsField config s.header ++ [crlf])

/-- `sendHeaderNotModified` -/
def sendHeaderNotModified (config : SenderConfig) (s : HttpRequest) (info : WebserverFileInfo) :
    HttpRequest :=
  (s.setStatus 304).printHeader
    ([statusText s.header (ascii "304 Not Modified"), serverText] ++
      addCacheControlLines config info ++
      addConnectionStatusLines config s.closeSocket s.header ++ [crlf])

/-- The header of an error page of `length` bytes. -/
def errorHeader (config : SenderConfig) (s : HttpRequest) (message : List UInt8) (length : Nat) :
    List (List UInt8) :=
  [statusText s.header message, serverText, contentLengthText length,
    ascii "Content-Type: text/html\r\n"] ++
    addConnectionStatusLines config s.closeSocket s.header ++ [crlf]

/-- `sendHeaderNotFound` -/
def sendHeaderNotFound (config : SenderConfig) (s : HttpRequest) (length : Nat) : HttpRequest :=
  (s.setStatus 404).printHeader (errorHeader config s (ascii "404 Not Found") length)

/-- `sendHeaderError`, with the number at the start of the message. -/
def sendHeaderError (config : SenderConfig) (s : HttpRequest) (code : Nat) (message : List UInt8)
    (length : Nat) : HttpRequest :=
  let s := { s with socket := { s.socket with useOutputCompression := false } }
  (s.setStatus code).printHeader (errorHeader config s message length)

/-- The status of `sendHeader`: a handler may have chosen one. -/
def pageStatus (header : HttpRequestHeader) : Nat :=
  if header.responseStatus < 100 ∨ 599 < header.responseStatus then 200
  else header.responseStatus.toNat

/-- `sendHeader`; the length of the page is given where it is not compressed. The buffer of the
policy holds `stack` before. -/
def sendHeader (config : SenderConfig) (stack : List UInt8) (s : HttpRequest)
    (info : WebserverFileInfo) (length : Nat) : Except Nat HttpRequest := do
  let status := pageStatus s.header
  let policy ← addCSPHeaderLines config.useSsl config.useCsp stack s.header
  return (s.setStatus status).printHeader
    ([statusText s.header (decimal status ++ ascii " " ++ ascii (reasonPhrase status)),
        serverText] ++
      addSessionCookies config s ++ [ascii "Accept-Ranges: bytes\r\n"] ++
      (if s.socket.useOutputCompression then [] else [contentLengthText length]) ++ policy ++
      addContentTypeLines info ++ addCacheControlLines config info ++
      addConnectionStatusLines config s.closeSocket s.header ++
      s.customResponseHeaders.map (fun h => h.1 ++ ascii ": " ++ h.2 ++ crlf) ++
      downloadFields s info ++ (if s.socket.useOutputCompression then [] else [crlf]))

/-! ## The pages -/

/-- `printAddressInfo` -/
def printAddressInfo (config : SenderConfig) (s : HttpRequest) : List (List UInt8) :=
  [ascii "<address>" ++ config.serverName ++ ascii " at " ++ config.serverDomain ++ ascii " ",
    ascii "Port " ++ decimal (if config.useSsl && s.useSsl then config.sslPort else config.port) ++
      ascii "</address></body></html>"]

/-- The sum of what `printHTMLChunk` returns. -/
def textLength (texts : List (List UInt8)) : Nat := (texts.map List.length).sum

/-- `sendFileNotFound` -/
def sendFileNotFound (config : SenderConfig) (s : HttpRequest) : HttpRequest :=
  let texts :=
    [ascii "<html><title>404 Not Found</title><body><h1>Not Found</h1><p>",
      ascii "The requested URL was not found on this server.</p><hr />"] ++
      printAddressInfo config s
  sendHeaderNotFound config (s.printPage texts) (textLength texts)

/-- `sendAccessDenied` -/
def sendAccessDenied (config : SenderConfig) (s : HttpRequest) : HttpRequest :=
  let texts :=
    [ascii "<html><title>403 Forbidden</title><body>", ascii "<h1>403 Forbidden</h1>",
      ascii "<p>Your client does not have permission to access file.</p><hr />"] ++
      printAddressInfo config s
  sendHeaderError config (s.printPage texts) 403 (ascii "403 Forbidden") (textLength texts)

/-- `http_error_pages` -/
def httpErrorPages : List (Nat × String × String) :=
  [(400, "Bad Request",
      "The request could not be understood by the server due to malformed syntax."),
    (405, "Method Not Allowed", "The Method is not allowed on this server."),
    (413, "Request Entity Too Large",
      "The request body is larger than this server accepts for this URL."),
    (431, "Request Header Fields Too Large",
      "The request header is larger than this server accepts."),
    (500, "Internal Server Error", "The request could not be handled."),
    (503, "Service Unavailable",
      "The server is temporarily unable to buffer the request body.")]

/-- `findErrorPage` -/
def findErrorPage (code : Nat) : Option (Nat × String × String) :=
  httpErrorPages.find? fun page => page.1 == code

/-- `sendHttpErrorPage`. The status line has 64 bytes, which is enough for all of the table. -/
def sendHttpErrorPage (config : SenderConfig) (s : HttpRequest) (code : Nat)
    (detail : Option (List UInt8)) : Option HttpRequest := do
  let (code, reason, description) ← (findErrorPage code).or (findErrorPage 500)
  let s := { s with
    errorRequestsOnSocket := s.errorRequestsOnSocket + 1
    closeSocket := true }
  let line := (decimal code ++ ascii " " ++ ascii reason).take 63
  let texts :=
    [ascii "<html><title>" ++ line ++ ascii "</title>", ascii "<body><h1>" ++ line ++ ascii "</h1>",
      ascii "<p>" ++ ascii description] ++
      (detail.map fun detail => ascii " " ++ detail).toList ++ [ascii "</p><hr />"] ++
      printAddressInfo config s
  return sendHeaderError config (s.printPage texts) code line (textLength texts)

/-- `reverse_proxy_gen_error_msg`: all of it goes into the header list. -/
def reverseProxyGenErrorMsg (s : HttpRequest) : HttpRequest :=
  s.printHeader
    [ascii (if s.header.isHttp11 then "HTTP/1.1 " else "HTTP/1.0 "),
      ascii "502 Bad Gateway\r\n", ascii "Server: libCWebUI\r\n",
      ascii "Content-Type: text/html\r\n", ascii "Content-Length: 50\r\n",
      ascii "Connection: close\r\n", ascii "\r\n",
      ascii "<html><body><h1>502 Bad Gateway</h1></body></html>"]

end CWebUI.Http
