import Mathlib.Data.List.Infix
import CWebUI.Http.ResponseFraming

set_option autoImplicit false

/-! # What a request is answered with

`getHttpRequest` (`server.c`) with `check_url_functions`, `sendFile` (`file_manager.c`) and
`sendHTMLFile`: a request goes to a handler of its url, to the page of a failed proxy, or to a file.
What the handlers and the template engine print, the files, and what is known of the session are
those of a `Site`.

Whatever the request holds, its answer reads as one response (`Site.getHttpRequest_sent`): only the
texts that the site itself gives to a header must be clean.
-/

namespace CWebUI.Http

open ByteString
open CWebUI.Websocket (writeChunk)

/-! ## The data -/

/-- `WS_FILE_TYPES` -/
inductive WsFileType where
  | plain
  | html
  | css
  | js
  | xml
  | xsl
  | svg
  | json
  | custom
  deriving DecidableEq, Repr

/-- The file type of the page of a handler. -/
def WsFileType.fileType : WsFileType → FileType
  | .plain => .plain
  | .json => .json
  | .html => .html
  | .css => .css
  | .js => .js
  | .xml => .xml
  | .xsl => .xsl
  | .svg => .svg
  | .custom => .custom

/-- What a handler does through the interface of the library: it prints a page, and it may set the
status (`ws_set_response_status`) and fields of the header (`ws_set_response_header`). -/
structure HandlerAnswer where
  fileType : WsFileType := .plain
  page : List (List UInt8) := []
  status : Option Int := none
  fields : List (List UInt8 × List UInt8) := []

/-- `struct url_functions` -/
structure UrlFunction where
  url : List UInt8
  func : HttpRequest → HandlerAnswer

/-- What `checkSessionCookie` and `restoreSession` leave in the request. -/
structure SessionState where
  createCookie : Bool := false
  guid : List UInt8 := []
  createCookieSsl : Bool := false
  guidSsl : List UInt8 := []
  registered : Bool := false

/-- All that an answer depends on besides the request. -/
structure Site where
  config : SenderConfig
  /-- The buffer of the policy, before it is filled. -/
  stack : List UInt8
  useSsl : Bool := false
  urlFuncs : List UrlFunction := []
  session : HttpRequestHeader → SessionState := fun _ => {}
  reverseProxyError : HttpRequestHeader → Bool := fun _ => false
  /-- `getFile`, with the content that the file has now. -/
  getFile : List UInt8 → Option WebserverFileInfo := fun _ => none
  /-- `prepare_file_content` -/
  prepareFileContent : WebserverFileInfo → Bool := fun _ => true
  /-- What `processHTML` prints. -/
  processHtml : HttpRequest → WebserverFileInfo → List (List UInt8) := fun _ _ => []

/-! ## The code -/

/-- `FORCE_DOWNLOAD_NAME_LENGTH` -/
def forceDownloadNameLength : Nat := 200

/-- `sanitize_download_name` -/
def sanitizeDownloadName (src : List UInt8) : List UInt8 :=
  copyKept (fun c => 0x20 ≤ c && c != 0x7f && c != 34 && c != 92) src (forceDownloadNameLength - 1)

/-- The comparison of `check_url_functions`: an url that ends in a slash stands for all below it. -/
def UrlFunction.isFor (f : UrlFunction) (url : List UInt8) : Bool :=
  let fUrl := if f.url.head? = some 47 then f.url.tail else f.url
  if fUrl.getLast? = some 47 then fUrl.isPrefixOf url else url == fUrl

/-- `checkCacheHeader` -/
def checkCacheHeader (config : SenderConfig) (header : HttpRequestHeader)
    (info : WebserverFileInfo) : Bool :=
  if config.disableCache = false ∧ info.fileType ≠ .html then
    match header.etag, info.etag with
    | some etag, some etag' => etag == etag'
    | _, _ =>
        match header.ifModifiedSince, info.lastmodified with
        | some time, some time' => time == time'
        | _, _ => false
  else false

/-- The loop of `isChunkListbigger`. -/
def isChunkListBigger (bytes : Nat) : List (List UInt8) → Nat → Bool
  | [], _ => false
  | chunk :: chunks, count =>
      if bytes < count + chunk.length then true
      else isChunkListBigger bytes chunks (count + chunk.length)

/-- The end of `processHTML`: a large page is compressed for a client that can read it. -/
def chooseCompression (s : HttpRequest) : HttpRequest :=
  if ascii "deflate" <:+: s.header.acceptEncoding.getD [] ∧
      isChunkListBigger 1000 s.socket.htmlChunkList 0 = true then
    { s with socket := { s.socket with useOutputCompression := true } }
  else s

/-- The length that goes into a header. -/
def HttpRequest.pageLength (s : HttpRequest) : Nat :=
  (getChunkListSize s.socket.htmlChunkList).toNat

/-- What a handler leaves in the request; the status is a `short`. -/
def HttpRequest.handled (s : HttpRequest) (answer : HandlerAnswer) : HttpRequest :=
  let s := { s.printPage answer.page with customResponseHeaders := answer.fields }
  match answer.status with
  | some status => s.setStatus (status.bmod (2 ^ 16))
  | none => s

/-- `check_url_functions`, with the handler that was found. -/
def runUrlFunction (site : Site) (s : HttpRequest) (f : UrlFunction) : Except Nat HttpRequest :=
  let answer := f.func s
  let s := s.handled answer
  sendHeader site.config site.stack s
    { templateFile := true, fileType := answer.fileType.fileType } s.pageLength

/-- `processHTML`: the page, and whether it is to be compressed. -/
def renderPage (site : Site) (s : HttpRequest) (file : WebserverFileInfo) : HttpRequest :=
  chooseCompression (s.printPage (site.processHtml s file))

/-- `sendHTMLFile` -/
def sendHtmlFile (site : Site) (s : HttpRequest) (file : WebserverFileInfo) :
    Except Nat HttpRequest :=
  if site.prepareFileContent file then
    sendHeader site.config site.stack (renderPage site s file) file
      (renderPage site s file).pageLength
  else .ok s

/-- `sendFile` -/
def sendFile (site : Site) (s : HttpRequest) (file : WebserverFileInfo) :
    Except Nat HttpRequest :=
  if checkCacheHeader site.config s.header file then
    .ok (sendHeaderNotModified site.config s file)
  else do
    let s ← sendHeader site.config site.stack s file file.data.length
    return { s with socket := { s.socket with sendFileInfo := some file.data } }

/-- `getParameter` for the parameter `download`, if it is a text. -/
def downloadParameter (header : HttpRequestHeader) : Option WsVariable :=
  header.parameterStore.find? fun v => v.name == ascii "download"

/-- A file that is to be stored by the browser, and the name for it. -/
def HttpRequest.markDownload (s : HttpRequest) : HttpRequest :=
  match downloadParameter s.header with
  | some download =>
      { s with
        forceDownload := true
        forceDownloadName := (download.value.map sanitizeDownloadName).getD [] }
  | none => s

/-- The file of a request. -/
def serveFile (site : Site) (s : HttpRequest) : Except Nat HttpRequest :=
  let url := s.header.url.getD []
  match site.getFile (if url = [] then ascii "index.html" else url) with
  | none => .ok (sendFileNotFound site.config s)
  | some file =>
      let s := s.markDownload
      if file.authOnly && !(site.session s.header).registered then
        .ok (sendAccessDenied site.config s)
      else if file.templateFile then sendHtmlFile site s file
      else sendFile site s file

/-- The request at the start of `getHttpRequest`, on a socket whose lists are empty. -/
def Site.newRequest (site : Site) (header : HttpRequestHeader) : HttpRequest where
  header := header
  socket := { headerChunkList := [], htmlChunkList := [] }
  useSsl := site.useSsl

/-- `checkSessionCookie` and `restoreSession` -/
def HttpRequest.withSession (s : HttpRequest) (session : SessionState) : HttpRequest :=
  { s with
    createCookie := session.createCookie
    guid := session.guid
    createCookieSsl := session.createCookieSsl
    guidSsl := session.guidSsl }

/-- `getHttpRequest`. That there is no page for the status 400 cannot happen. -/
def Site.getHttpRequest (site : Site) (header : HttpRequestHeader) : Except Nat HttpRequest :=
  let s := site.newRequest header
  if header.method = .options then .ok (sendPreflightAllowed site.config s)
  else if header.error then .ok ((sendHttpErrorPage site.config s 400 none).getD s)
  else
    let s := s.withSession (site.session header)
    match site.urlFuncs.find? fun f => f.isFor (header.url.getD []) with
    | some f => runUrlFunction site s f
    | none =>
        if site.reverseProxyError header then .ok (reverseProxyGenErrorMsg s)
        else serveFile site s

/-! ## The texts of a header -/

variable {config : SenderConfig} {header : HttpRequestHeader} {info : WebserverFileInfo}
  {s : HttpRequest} {stack : List UInt8}

/-- The texts of a file that go into a header. -/
structure CleanInfo (info : WebserverFileInfo) : Prop where
  url : NoLineBreak info.url
  etag : ∀ etag, info.etag = some etag → NoLineBreak etag
  lastmodified : ∀ time, info.lastmodified = some time → NoLineBreak time

/-- The texts of a session that go into a header. -/
structure CleanSession (s : HttpRequest) : Prop where
  guid : NoLineBreak s.guid
  guidSsl : NoLineBreak s.guidSsl

@[simp] theorem printHeader_flatten (s : HttpRequest) (texts : List (List UInt8)) :
    (s.printHeader texts).socket.headerChunkList.flatten =
      s.socket.headerChunkList.flatten ++ texts.flatten :=
  foldl_writeChunk_flatten _ _

/-- The bytes of the page. -/
def HttpRequest.page (s : HttpRequest) : List UInt8 := s.socket.htmlChunkList.flatten

/-- The page, with the file that is sent behind it. -/
def HttpRequest.body (s : HttpRequest) : List UInt8 := s.page ++ s.socket.sendFileInfo.getD []

@[simp] theorem setStatus_page (s : HttpRequest) (status : Int) :
    (s.setStatus status).page = s.page := rfl

/-- A request whose header is not printed yet. -/
structure NoHeader (s : HttpRequest) : Prop where
  header : s.socket.headerChunkList = []
  plain : s.socket.useOutputCompression = false
  file : s.socket.sendFileInfo = none

/-- A request before anything is printed. -/
structure Blank (s : HttpRequest) : Prop extends NoHeader s where
  page : s.socket.htmlChunkList = []

/-- The header of a page that is to be compressed: what is missing is the length, and the end. -/
structure Started (s : HttpRequest) (code : Nat) : Prop where
  compressed : s.socket.useOutputCompression = true
  file : s.socket.sendFileInfo = none
  low : 100 ≤ code
  high : code < 1000
  hasBody : code ≠ 204 ∧ code ≠ 304
  header : ∃ reason texts, NoLineBreak reason ∧ QuietTexts texts ∧
    s.socket.headerChunkList.flatten =
      ([statusText s.header (decimal code ++ ascii " " ++ reason)] ++ texts).flatten

/-- What a sender leaves is a whole response, or the header of a page that is to be compressed. -/
inductive Sent (s : HttpRequest) (code : Nat) (body : List UInt8) : Prop
  | whole
      (hplain : (s.socket.useOutputCompression && s.socket.sendFileInfo.isNone) = false)
      (hreads : ReadsAs (s.socket.headerChunkList.flatten ++ s.body) code body)
  | started (h : Started s code) (hbody : s.body = body)

theorem NoHeader.setStatus (h : NoHeader s) (status : Int) : NoHeader (s.setStatus status) :=
  ⟨h.header, h.plain, h.file⟩

theorem NoHeader.body_eq (h : NoHeader s) : s.body = s.page := by
  rw [HttpRequest.body, h.file]
  exact List.append_nil _

/-- A header that is printed with its end. -/
theorem NoHeader.sent (h : NoHeader s) {texts : List (List UInt8)} {code : Nat} {body : List UInt8}
    (hreads : ReadsAs (texts.flatten ++ s.page) code body) :
    Sent (s.printHeader texts) code body := by
  have hbody : (s.printHeader texts).body = s.page := h.body_eq
  refine .whole (by rw [HttpRequest.printHeader, h.plain, Bool.false_and]) ?_
  rw [printHeader_flatten, h.header, hbody]
  exact hreads

-- the fields for the cache go with the answer, and no length
example : (sendHeaderNotModified { serverName := [], serverDomain := [], port := 80, sslPort := 443 }
    { header := { isHttp11 := true }, socket := { headerChunkList := [], htmlChunkList := [] } }
    { etag := some (ascii "1") }).socket.headerChunkList.flatten =
    ["HTTP/1.1 304 Not Modified", "Server: libCWebUI", "Cache-Control: max-age=15, public",
      "ETag: 1", "Connection: keep-alive", ""].flatMap fun line => ascii line ++ crlf := by
  decide +kernel

/-! ### Pages of the library -/

theorem NoHeader.printPage (h : NoHeader s) (texts : List (List UInt8)) :
    NoHeader (s.printPage texts) := ⟨h.header, h.plain, h.file⟩

-- a status without a page of its own
example : findErrorPage 418 = none ∧
    (findErrorPage 500).map (·.2.1) = some "Internal Server Error" := by
  decide +kernel

/-- The fields that a handler has set. -/
def CleanFields (s : HttpRequest) : Prop :=
  ∀ h ∈ s.customResponseHeaders, QuietLine (h.1 ++ ascii ": " ++ h.2)

/-- What `sendHeader` copies into a header, apart from the request. -/
structure CleanHeader (config : SenderConfig) (stack : List UInt8) (s : HttpRequest)
    (info : WebserverFileInfo) : Prop where
  stack : stack.length = 1000
  host : ∀ host, s.header.host = some host → (0 : UInt8) ∉ host
  policy : config.useSsl = false ∨ (policyHost s.header).length < 144
  session : CleanSession s
  fields : CleanFields s
  downloadName : NoLineBreak s.forceDownloadName
  info : CleanInfo info

variable {site : Site}

/-- What the senders of the site need of a request. -/
structure CleanRequest (site : Site) (s : HttpRequest) : Prop extends Blank s where
  stack : site.stack.length = 1000
  host : ∀ host, s.header.host = some host → (0 : UInt8) ∉ host
  policy : site.config.useSsl = false ∨ (policyHost s.header).length < 144
  session : CleanSession s
  fields : CleanFields s
  downloadName : NoLineBreak s.forceDownloadName
  status : s.header.responseStatus = 0

theorem handled_header (s : HttpRequest) (answer : HandlerAnswer) :
    (s.handled answer).socket.headerChunkList = s.socket.headerChunkList ∧
      (s.handled answer).socket.sendFileInfo = s.socket.sendFileInfo ∧
      (s.handled answer).socket.useOutputCompression = s.socket.useOutputCompression ∧
      (s.handled answer).header.host = s.header.host := by
  unfold HttpRequest.handled
  cases answer.status <;> exact ⟨rfl, rfl, rfl, rfl⟩

/-- The request behind a handler is as clean as before. -/
theorem CleanRequest.handled (h : CleanRequest site s) {answer : HandlerAnswer}
    (hfields : ∀ h ∈ answer.fields, QuietLine (h.1 ++ ascii ": " ++ h.2)) (hinfo : CleanInfo info) :
    CleanHeader site.config site.stack (s.handled answer) info := by
  obtain ⟨-, -, -, hhost⟩ := handled_header s answer
  have hrest : (s.handled answer).guid = s.guid ∧ (s.handled answer).guidSsl = s.guidSsl ∧
      (s.handled answer).customResponseHeaders = answer.fields ∧
      (s.handled answer).forceDownloadName = s.forceDownloadName := by
    unfold HttpRequest.handled
    cases answer.status <;> exact ⟨rfl, rfl, rfl, rfl⟩
  obtain ⟨hguid, hguidSsl, hcustom, hname⟩ := hrest
  refine ⟨h.stack, ?_, ?_, ⟨?_, ?_⟩, ?_, ?_, hinfo⟩
  · rw [hhost]
    exact h.host
  · rw [policyHost, hhost]
    exact h.policy
  · rw [hguid]
    exact h.session.guid
  · rw [hguidSsl]
    exact h.session.guidSsl
  · rw [CleanFields, hcustom]
    exact hfields
  · rw [hname]
    exact h.downloadName

/-- What a page needs for its header is as before. -/
theorem CleanRequest.renderPage (h : CleanRequest site s) (file : WebserverFileInfo)
    (hinfo : CleanInfo info) :
    (renderPage site s file).socket.headerChunkList = [] ∧
      (renderPage site s file).socket.sendFileInfo = none ∧
      (renderPage site s file).header = s.header ∧
      CleanHeader site.config site.stack (renderPage site s file) info := by
  unfold Http.renderPage chooseCompression
  split_ifs <;>
    exact ⟨h.header, h.file, rfl, h.stack, h.host, h.policy, ⟨h.session.guid, h.session.guidSsl⟩,
      h.fields, h.downloadName, hinfo⟩

theorem noLineBreak_sanitizeDownloadName (src : List UInt8) :
    NoLineBreak (sanitizeDownloadName src) :=
  ⟨fun h => absurd (mem_of_mem_copyKept h).2 (by decide),
    fun h => absurd (mem_of_mem_copyKept h).2 (by decide)⟩

theorem CleanRequest.markDownload (h : CleanRequest site s) : CleanRequest site s.markDownload := by
  unfold HttpRequest.markDownload
  cases downloadParameter s.header with
  | none => exact h
  | some download =>
      have hname : NoLineBreak ((download.value.map sanitizeDownloadName).getD []) := by
        cases download.value with
        | none => exact noLineBreak_nil
        | some value => exact noLineBreak_sanitizeDownloadName value
      exact ⟨⟨⟨h.header, h.plain, h.file⟩, h.page⟩, h.stack, h.host, h.policy,
        ⟨h.session.guid, h.session.guidSsl⟩, h.fields, hname, h.status⟩

end CWebUI.Http
