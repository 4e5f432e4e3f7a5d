import CWebUI.Http.HeaderLoop

set_option autoImplicit false

/-! # What one request leaves behind for the next

A keep-alive connection has one header record. `WebserverResetHttpRequestHeader` puts it
back between two requests, but it forgets three fields that the parser does not always
write: the version flag, the websocket version and the error flag. This file says exactly
when the next request is parsed as on a fresh record.

The method is to name the fields that the parser only passes on (`Carried`): reading a line
commutes with changing them, so two runs that differ in them go through the same lines, and
the difference at the end can be read off.
-/

namespace CWebUI.Http

open ByteString CWebUI.Proxy

/-! ## The reset -/

/-- `WebserverResetHttpRequestHeader`. -/
def webserverResetHttpRequestHeader (header : HttpRequestHeader) : HttpRequestHeader :=
  { header with
    parameterStore := []
    cookieList := []
    parsedBytes := 0
    postBufferPos := 0
    contenttype := .none
    contentlenght := 0
    method := .none
    errorMethod := []
    requestStartMs := 0
    responseBytes := 0
    responseStatus := 0
    accessLogUser := none
    url := none
    ifModifiedSince := none
    etag := none
    host := none
    hostName := none
    connection := none
    upgrade := none
    origin := none
    postBuffer := none
    postBufferReserved := 0
    boundary := none
    contentDisposition := none
    contentType := none
    accessControlRequestMethod := none
    accessControlRequestHeaders := none
    acceptEncoding := none
    userAgent := none
    referer := none
    accept := none
    authorization := none
    secWebSocketKey := none
    secWebSocketProtocol := none }

/-! ## The websocket check -/

/-- The tokens of a `Connection` field, without the blanks around them. -/
def connectionTokens (value : List UInt8) : List (List UInt8) :=
  (value.splitOn 44).map (fun t =>
    ((t.dropWhile (fun c => c = 32 ∨ c = 9)).reverse.dropWhile (fun c => c = 32 ∨ c = 9)).reverse)

/-- `validWebsocketKey`: sixteen bytes in base64. -/
def validWebsocketKey (key : List UInt8) : Bool :=
  key.length == 24 &&
  (key.take 22).all (fun c => (65 ≤ c && c ≤ 90) || (97 ≤ c && c ≤ 122) || isDigit c ||
    c == 43 || c == 47) &&
  key.drop 22 == [61, 61]

/-- The request asks for the websocket protocol. -/
def isWebsocketRequest (header : HttpRequestHeader) : Bool :=
  match header.secWebSocketKey, header.connection, header.upgrade with
  | some _, some connection, some upgrade =>
      (connectionTokens connection).any (sameIgnoreCase (ascii "Upgrade")) &&
        sameIgnoreCase (ascii "websocket") upgrade
  | _, _, _ => false

/-- `checkIskWebsocketConnection`, without the responses it queues: a websocket request is
accepted, or refused for its version or its key. -/
def checkIskWebsocketConnection (header : HttpRequestHeader) : HttpRequestHeader :=
  if isWebsocketRequest header then
    if header.secWebSocketVersion < 13 then
      { header with isWebsocket := 2, responseStatus := 426 }
    else if validWebsocketKey (header.secWebSocketKey.getD []) then
      { header with isWebsocket := 1 }
    else { header with isWebsocket := 2, responseStatus := 400 }
  else { header with isWebsocket := 0 }

/-- A request header, parsed into `header`. -/
def parseRequest (header : HttpRequestHeader) (request : List UInt8) :
    HttpRequestHeader × List UInt8 × HeaderStatus :=
  let result := headerOf header request
  if result.2.2.norm = .complete then (checkIskWebsocketConnection result.1, result.2)
  else result

/-! ## The parameters of a request line -/

/-- The variables and the error flag that the parameters of `text` give. -/
def parametersOf (text : List UInt8) (store : List WsVariable) : List WsVariable × Bool :=
  let header := recieveParameterFromGet text
    { webserverMallocHttpRequestHeader with parameterStore := store }
  (header.parameterStore, header.error)

/-- A header record with the variables and the error flag of another. -/
def withParameters (header source : HttpRequestHeader) : HttpRequestHeader :=
  { header with parameterStore := source.parameterStore, error := header.error || source.error }

theorem createParameter_with (header source : HttpRequestHeader) (name : List UInt8)
    (value : Option (List UInt8)) :
    createParameter (withParameters header source) name value =
      withParameters header (createParameter source name value) := by
  cases value with
  | none => rfl
  | some v => simp [createParameter, withParameters, Bool.or_assoc]

theorem parameterStep_with (header source : HttpRequestHeader) (state : ParseState) (c : UInt8) :
    parameterStep (withParameters header source) state c =
      (withParameters header (parameterStep source state c).1, (parameterStep source state c).2) := by
  cases state with
  | parseName name =>
      simp only [parameterStep, createParameter_with]
      split_ifs <;> rfl
  | parseValue name value =>
      simp only [parameterStep, createParameter_with]
      split_ifs <;> rfl
  | skipBlanks => rfl

theorem parameterLoop_with (header : HttpRequestHeader) (text : List UInt8)
    (source : HttpRequestHeader) (state : ParseState) :
    text.foldl (fun s c => parameterStep s.1 s.2 c) (withParameters header source, state) =
      (withParameters header (text.foldl (fun s c => parameterStep s.1 s.2 c) (source, state)).1,
        (text.foldl (fun s c => parameterStep s.1 s.2 c) (source, state)).2) := by
  induction text generalizing source state with
  | nil => rfl
  | cons c text ih =>
      rw [List.foldl_cons, List.foldl_cons]
      simp only [parameterStep_with]
      exact ih _ _

/-- **Parameters change the store and the error flag only.** -/
theorem recieveParameterFromGet_eq (text : List UInt8) (header : HttpRequestHeader) :
    recieveParameterFromGet text header =
      { header with
        parameterStore := (parametersOf text header.parameterStore).1
        error := header.error || (parametersOf text header.parameterStore).2 } := by
  have hstart : header = withParameters header
      { webserverMallocHttpRequestHeader with parameterStore := header.parameterStore } := by
    simp [withParameters, webserverMallocHttpRequestHeader]
  have hall : recieveParameterFromGet text (withParameters header
      { webserverMallocHttpRequestHeader with parameterStore := header.parameterStore }) =
      withParameters header (recieveParameterFromGet text
        { webserverMallocHttpRequestHeader with parameterStore := header.parameterStore }) := by
    unfold recieveParameterFromGet
    split_ifs
    · rfl
    · rw [parameterLoop_with]
      rcases text.foldl (fun s c => parameterStep s.1 s.2 c)
        ({ webserverMallocHttpRequestHeader with parameterStore := header.parameterStore },
          ParseState.parseName []) with ⟨h, _ | _ | _⟩
      · exact createParameter_with _ _ _ _
      · exact createParameter_with _ _ _ _
      · rfl
  rw [← hstart] at hall
  exact hall

/-- The address in a request line, as it was received. -/
def rawUrl (text : List UInt8) : List UInt8 :=
  match strchr 63 (cString text) with
  | none => (cString text).take (stringfind text (ascii " "))
  | some _ => text.takeWhile (· ≠ 63)

/-- The variables and the error flag that the parameters in a request line give. -/
def urlParameters (text : List UInt8) (store : List WsVariable) : List WsVariable × Bool :=
  match strchr 63 (cString text) with
  | none => (store, false)
  | some _ =>
      let url := text.takeWhile (· ≠ 63)
      parametersOf ((text.drop (url.length + 1)).take (text.length - 9 - (url.length + 1))) store

theorem requestUrl_eq (text : List UInt8) (header : HttpRequestHeader) :
    requestUrl text header =
      { header with
        url := some (rawUrl text)
        parameterStore := (urlParameters text header.parameterStore).1
        error := header.error || (urlParameters text header.parameterStore).2 } := by
  unfold requestUrl rawUrl urlParameters
  cases strchr 63 (cString text) with
  | none => simp
  | some _ => exact recieveParameterFromGet_eq _ _

/-! ## Fields that are passed on -/

/-- The fields that reading a line writes, if at all, without looking at them. The method only
decides how the line is read. -/
structure Carried where
  isHttp11 : Bool
  secWebSocketVersion : Int
  gzip : Bool
  deflate : Bool
  webSocketOutHash : List UInt8
  isWebsocket : Nat
  headerComplete : Bool
  parsedBytes : Nat
  method : HttpMethod
  deriving DecidableEq, Repr

/-- The header record with these fields. The flag for missing websocket support is never set
in a server that has it. -/
def HttpRequestHeader.carry (header : HttpRequestHeader) (c : Carried) : HttpRequestHeader :=
  { header with
    isHttp11 := c.isHttp11
    secWebSocketVersion := c.secWebSocketVersion
    gzip := c.gzip
    deflate := c.deflate
    webSocketOutHash := c.webSocketOutHash
    isWebsocket := c.isWebsocket
    headerComplete := c.headerComplete
    parsedBytes := c.parsedBytes
    method := c.method
    noWebsocketSupport := false }

/-- These fields of a header record. -/
def HttpRequestHeader.carried (header : HttpRequestHeader) : Carried where
  isHttp11 := header.isHttp11
  secWebSocketVersion := header.secWebSocketVersion
  gzip := header.gzip
  deflate := header.deflate
  webSocketOutHash := header.webSocketOutHash
  isWebsocket := header.isWebsocket
  headerComplete := header.headerComplete
  parsedBytes := header.parsedBytes
  method := header.method

@[simp] theorem carry_carried (header : HttpRequestHeader) (c : Carried) :
    (header.carry c).carried = c := rfl

@[simp] theorem carry_carry (header : HttpRequestHeader) (c d : Carried) :
    (header.carry c).carry d = header.carry d := rfl

theorem carry_self {header : HttpRequestHeader} (h : header.noWebsocketSupport = false) :
    header.carry header.carried = header := by
  rw [HttpRequestHeader.carry, ← h]
  rfl

theorem requestUrl_carry (text : List UInt8) (header : HttpRequestHeader) (c : Carried) :
    requestUrl text (header.carry c) = (requestUrl text header).carry c := by
  rw [requestUrl_eq, requestUrl_eq]
  rfl

theorem urlSanityCheck_carry (header : HttpRequestHeader) (c : Carried) :
    urlSanityCheck (header.carry c) = (urlSanityCheck header).carry c := by
  have h1 : (header.carry c).error = header.error := rfl
  have h2 : (header.carry c).url = header.url := rfl
  simp only [urlSanityCheck, h1, h2]
  split_ifs <;> rfl

theorem knownMethod_carry (method : HttpMethod) (skip : Nat) (line : List UInt8)
    (header : HttpRequestHeader) (c : Carried) :
    knownMethod method skip line (header.carry c) =
      (knownMethod method skip line header).carry { c with method := method } := by
  have hm : ({ header.carry c with method := method } : HttpRequestHeader) =
      HttpRequestHeader.carry { header with method := method } { c with method := method } := rfl
  rw [knownMethod, knownMethod, hm, requestUrl_carry, urlSanityCheck_carry]

/-- The method that a request line gives, with `m` for a line without a known one. -/
def methodOfLine (line : List UInt8) (m : HttpMethod) : HttpMethod :=
  if ascii "GET " <+: line then .get
  else if ascii "POST " <+: line then .post
  else if ascii "OPTIONS " <+: line then .options
  else m

theorem requestMethod_carry (line : List UInt8) (header : HttpRequestHeader) (c : Carried) :
    requestMethod line (header.carry c) =
      (requestMethod line header).carry { c with method := methodOfLine line c.method } := by
  have hg : ({ header.carry c with noWebsocketSupport := false } : HttpRequestHeader) =
      HttpRequestHeader.carry { header with noWebsocketSupport := false } c := rfl
  unfold requestMethod methodOfLine
  rw [hg, knownMethod_carry, knownMethod_carry, knownMethod_carry]
  split_ifs <;> rfl

/-- The fields behind the request line. -/
def Carried.afterRequestLine (c : Carried) (line : List UInt8) : Carried :=
  { c with
    isHttp11 := c.isHttp11 || httpVersion line == .http11
    method := if httpVersion line = .unsupported then c.method else methodOfLine line c.method }

/-- **Reading a request line commutes with the fields that are passed on.** -/
theorem requestLine_carry (line : List UInt8) (header : HttpRequestHeader) (c : Carried) :
    requestLine line (header.carry c) =
      ((requestLine line header).1.carry (c.afterRequestLine line), (requestLine line header).2) := by
  unfold requestLine Carried.afterRequestLine
  cases httpVersion line with
  | unsupported => simp [HttpRequestHeader.carry]
  | http10 =>
      simp only [requestMethod_carry]
      simp [HttpRequestHeader.carry]
  | http11 =>
      have hv : ({ header.carry c with isHttp11 := true } : HttpRequestHeader) =
          HttpRequestHeader.carry { header with isHttp11 := true } { c with isHttp11 := true } := rfl
      simp only [hv, requestMethod_carry]
      simp [HttpRequestHeader.carry]

/-- A request line that is accepted has a known method. -/
theorem requestLine_method {line : List UInt8} {header : HttpRequestHeader}
    (h : (requestLine line header).2 = true) :
    httpVersion line ≠ .unsupported ∧ ∀ m, methodOfLine line m ≠ .none := by
  have hknown (header : HttpRequestHeader) (he : (requestMethod line header).error = false) :
      ∀ m, methodOfLine line m ≠ .none := by
    intro m
    unfold requestMethod at he
    unfold methodOfLine
    split_ifs at he ⊢
    · simp
    · simp
    · simp
    · simp [unknownMethod] at he
  unfold requestLine at h
  cases hv : httpVersion line with
  | unsupported => simp [hv] at h
  | http10 =>
      rw [hv] at h
      exact ⟨by simp, hknown header (by simpa using h)⟩
  | http11 =>
      rw [hv] at h
      exact ⟨by simp, hknown { header with isHttp11 := true } (by simpa using h)⟩

/-! ### The other lines -/

theorem createCookie_carry (header : HttpRequestHeader) (c : Carried) (name : List UInt8)
    (value : Option (List UInt8)) :
    createCookie (header.carry c) name value = (createCookie header name value).carry c := rfl

theorem cookieNameStep_carry (header : HttpRequestHeader) (c : Carried) (name : List UInt8)
    (b : UInt8) :
    cookieNameStep (header.carry c) name b =
      ((cookieNameStep header name b).1.carry c, (cookieNameStep header name b).2) := by
  simp only [cookieNameStep, createCookie_carry]
  split_ifs <;> rfl

theorem cookieStep_carry (header : HttpRequestHeader) (c : Carried) (state : ParseState)
    (b : UInt8) :
    cookieStep (header.carry c) state b =
      ((cookieStep header state b).1.carry c, (cookieStep header state b).2) := by
  cases state with
  | skipBlanks =>
      simp only [cookieStep, cookieNameStep_carry]
      split_ifs <;> rfl
  | parseName name => exact cookieNameStep_carry header c name b
  | parseValue name value =>
      simp only [cookieStep, createCookie_carry]
      split_ifs <;> rfl

theorem parseCookies_carry (text : List UInt8) (header : HttpRequestHeader) (c : Carried) :
    parseCookies text (header.carry c) = (parseCookies text header).carry c := by
  have hloop : ∀ (text : List UInt8) (header : HttpRequestHeader) (state : ParseState),
      text.foldl (fun s b => cookieStep s.1 s.2 b) (header.carry c, state) =
        ((text.foldl (fun s b => cookieStep s.1 s.2 b) (header, state)).1.carry c,
          (text.foldl (fun s b => cookieStep s.1 s.2 b) (header, state)).2) := by
    intro text
    induction text with
    | nil => intro header state; rfl
    | cons b text ih =>
        intro header state
        rw [List.foldl_cons, List.foldl_cons]
        simp only [cookieStep_carry]
        exact ih _ _
  unfold parseCookies
  rw [hloop]
  rcases text.foldl (fun s b => cookieStep s.1 s.2 b) (header, ParseState.parseName []) with
    ⟨h, name | ⟨name, value⟩ | _⟩
  · simp only [createCookie_carry]
    split_ifs <;> rfl
  · rfl
  · rfl

/-- The fields behind another line. -/
def Carried.afterField (c : Carried) (line : List UInt8) : Carried :=
  { c with secWebSocketVersion := (websocketVersionOfLine line).getD c.secWebSocketVersion }

theorem sBlock_carry (line : List UInt8) (header : HttpRequestHeader) (c : Carried) :
    sBlock line (header.carry c) = (sBlock line header).carry (c.afterField line) := by
  unfold sBlock Carried.afterField checkHeaderLine websocketVersionOfLine
  by_cases h1 : startsWithIgnoreCase (ascii "Sec-WebSocket-Key: ") line = true
  · have h3 : startsWithIgnoreCase (ascii "Sec-WebSocket-Version: ") line = false :=
      startsWithIgnoreCase_disjoint (by decide) (by decide) h1
    simp [h1, h3, HttpRequestHeader.carry]
  · by_cases h2 : startsWithIgnoreCase (ascii "Sec-WebSocket-Protocol: ") line = true
    · have h3 : startsWithIgnoreCase (ascii "Sec-WebSocket-Version: ") line = false :=
        startsWithIgnoreCase_disjoint (by decide) (by decide) h2
      simp [h1, h2, h3, HttpRequestHeader.carry]
    · simp only [h1, h2]
      cases (if startsWithIgnoreCase (ascii "Sec-WebSocket-Version: ") line = true
        then scanInt (line.drop 23) else none) <;> rfl

/-- A line that does not start with an `s` has no websocket version. -/
theorem websocketVersionOfLine_eq_none {line : List UInt8} (h : toLower (line.headD 0) ≠ 115) :
    websocketVersionOfLine line = none := by
  unfold websocketVersionOfLine
  rw [if_neg]
  intro hs
  rw [startsWithIgnoreCase_iff] at hs
  cases line with
  | nil => exact absurd hs (by decide)
  | cons c cs =>
      obtain ⟨h1, -⟩ := List.cons_prefix_cons.mp hs
      exact h (h1.symm.trans (by decide))

/-- **Reading a field commutes with the fields that are passed on.** -/
theorem matchHeaderFields_carry (line : List UInt8) (header : HttpRequestHeader) (c : Carried) :
    matchHeaderFields line (header.carry c) =
      (matchHeaderFields line header).carry (c.afterField line) := by
  by_cases hs : toLower (line.headD 0) = 115
  · simp only [matchHeaderFields, hs]
    exact sBlock_carry line header c
  · have hc : c.afterField line = c := by
      rw [Carried.afterField, websocketVersionOfLine_eq_none hs]
      rfl
    rw [hc]
    unfold matchHeaderFields
    split
    · unfold aBlock
      split_ifs
      · rfl
      · rfl
      · repeat' split
        all_goals rfl
    · unfold cBlock
      split_ifs
      · rfl
      · exact parseCookies_carry _ _ _
      · unfold contentLengthField
        split_ifs
        · simp only
          split_ifs <;> rfl
        · rfl
      · unfold contentTypeField
        split_ifs <;> rfl
      · split <;> rfl
    · unfold hBlock
      split <;> rfl
    · unfold iBlock
      repeat' split
      all_goals rfl
    · unfold oBlock
      split <;> rfl
    · unfold rBlock
      split <;> rfl
    · rename_i h
      exact absurd h hs
    · unfold uBlock
      repeat' split
      all_goals rfl
    · rfl

/-- The fields behind a line. -/
def Carried.afterLine (c : Carried) (line : List UInt8) : Carried :=
  if c.method = .none then c.afterRequestLine line else c.afterField line

theorem analyseHeaderLine_carry (line : List UInt8) {header : HttpRequestHeader} {c : Carried}
    (hm : c.method = header.method) :
    analyseHeaderLine line (header.carry c) =
      ((analyseHeaderLine line header).1.carry (c.afterLine line),
        (analyseHeaderLine line header).2) := by
  have hm' : (header.carry c).method = header.method := hm
  unfold analyseHeaderLine Carried.afterLine
  rw [hm', hm]
  split_ifs
  · exact requestLine_carry line header c
  · rw [matchHeaderFields_carry]

/-- What is passed on behind a line, for a record of the server. -/
theorem analyseHeaderLine_carried (line : List UInt8) {header : HttpRequestHeader}
    (h : header.noWebsocketSupport = false) :
    (analyseHeaderLine line header).1.carried = header.carried.afterLine line ∧
      (analyseHeaderLine line header).1.noWebsocketSupport = false := by
  have heq := analyseHeaderLine_carry line (c := header.carried) rfl
  rw [carry_self h] at heq
  have h1 := congrArg Prod.fst heq
  constructor
  · rw [h1]
    rfl
  · rw [h1]
    rfl

/-- A line that is accepted leaves a method behind. -/
theorem afterLine_method {line : List UInt8} {header : HttpRequestHeader}
    (hok : (analyseHeaderLine line header).2 = true) :
    (header.carried.afterLine line).method ≠ .none := by
  unfold analyseHeaderLine at hok
  unfold Carried.afterLine
  have hm : header.carried.method = header.method := rfl
  rw [hm]
  split_ifs at hok ⊢ with h
  · obtain ⟨h1, h2⟩ := requestLine_method hok
    simp only [Carried.afterRequestLine, if_neg h1]
    exact h2 _
  · exact h

/-- What a line does to the fields that decide how the parser goes on. -/
theorem afterLine_control (c d : Carried) (line : List UInt8) (hm : c.method = d.method) :
    (c.afterLine line).method = (d.afterLine line).method ∧
      (c.afterLine line).parsedBytes = c.parsedBytes ∧
      (c.afterLine line).headerComplete = c.headerComplete := by
  unfold Carried.afterLine Carried.afterRequestLine Carried.afterField
  rw [hm]
  split_ifs
  · exact ⟨rfl, rfl, rfl⟩
  · exact ⟨rfl, rfl, rfl⟩
  · exact ⟨rfl, rfl, rfl⟩

/-- The lines do not look at the counter of the parsed bytes. -/
theorem afterLines_parsedBytes (ls : List (List UInt8)) (c : Carried) (p : Nat) :
    ls.foldl Carried.afterLine { c with parsedBytes := p } =
      { ls.foldl Carried.afterLine c with parsedBytes := p } := by
  induction ls generalizing c with
  | nil => rfl
  | cons l ls ih =>
      have hstep : Carried.afterLine { c with parsedBytes := p } l =
          { c.afterLine l with parsedBytes := p } := by
        unfold Carried.afterLine Carried.afterRequestLine Carried.afterField
        split_ifs <;> rfl
      rw [List.foldl_cons, List.foldl_cons, hstep, ih]

/-! ## Two runs -/

/-- The lines that the parser reads from the front of a byte string. -/
def linesRead : Nat → HttpRequestHeader → List UInt8 → List (List UInt8)
  | 0, _, _ => []
  | n + 1, header, bytes =>
      if crlf <+: bytes then []
      else
        match searchLine bytes with
        | .found i =>
            if webserverMaxHeaderSize < header.parsedBytes + i + 1 then []
            else
              bytes.take (i - 1) ::
                match analyseHeaderLine (bytes.take (i - 1)) header with
                | (header, true) =>
                    linesRead n { header with parsedBytes := header.parsedBytes + (i + 1) }
                      (bytes.drop (i + 1))
                | (_, false) => []
        | _ => []

theorem carry_control {header : HttpRequestHeader} {c : Carried}
    (hp : c.parsedBytes = header.parsedBytes) (hc : c.headerComplete = header.headerComplete) :
    header.carry c = header.carry { c with
      parsedBytes := header.parsedBytes, headerComplete := header.headerComplete } := by
  rw [← hp, ← hc]

/-- **Two runs that differ in the fields that are passed on** read the same lines, stop at the
same place, and differ at the end in these fields only. -/
theorem readHeader_carry (n : Nat) (bytes : List UInt8) {header : HttpRequestHeader} {c : Carried}
    (hw : header.noWebsocketSupport = false) (hm : c.method = header.method)
    (hp : c.parsedBytes = header.parsedBytes) (hc : c.headerComplete = header.headerComplete) :
    readHeader n (header.carry c) bytes =
      ((readHeader n header bytes).1.carry
          { (linesRead n header bytes).foldl Carried.afterLine c with
            parsedBytes := (readHeader n header bytes).1.parsedBytes
            headerComplete := (readHeader n header bytes).1.headerComplete },
        (readHeader n header bytes).2) := by
  induction n generalizing header c bytes with
  | zero => exact congrArg (·, _) (carry_control hp hc)
  | succ n ih =>
      have hsame := carry_control hp hc
      have hpc : (header.carry c).parsedBytes = header.parsedBytes := hp
      unfold readHeader linesRead parseHeader
      by_cases hcrlf : crlf <+: bytes
      · simp only [if_pos hcrlf]
        unfold headerEnd
        rw [hpc]
        split_ifs
        · exact congrArg (·, _) hsame
        · rfl
        · rfl
      · simp only [if_neg hcrlf]
        cases hsearch : searchLine bytes with
        | notFound => exact congrArg (·, _) hsame
        | tooLong => exact congrArg (·, _) hsame
        | found i =>
            have hcheck : checkReverseProxy [] true bytes = .pass true := rfl
            simp only [hcheck]
            unfold headerLine
            simp only [hpc]
            split_ifs
            · exact congrArg (·, _) hsame
            · rw [analyseHeaderLine_carry (bytes.take (i - 1)) hm]
              have hframe := analyseHeaderLine_carried (bytes.take (i - 1)) hw
              obtain ⟨hcm, hcp, hcc⟩ :=
                afterLine_control c header.carried (bytes.take (i - 1)) hm
              obtain ⟨-, hhp, hhc⟩ :=
                afterLine_control header.carried header.carried (bytes.take (i - 1)) rfl
              revert hframe
              rcases analyseHeaderLine (bytes.take (i - 1)) header with ⟨h', _ | _⟩
              · -- the line is refused, and the run ends
                rintro ⟨hcar, -⟩
                have h1 : h'.parsedBytes = header.parsedBytes :=
                  (congrArg Carried.parsedBytes hcar).trans hhp
                have h2 : h'.headerComplete = header.headerComplete :=
                  (congrArg Carried.headerComplete hcar).trans hhc
                have hlast : c.afterLine (bytes.take (i - 1)) =
                    { c.afterLine (bytes.take (i - 1)) with
                      parsedBytes := h'.parsedBytes, headerComplete := h'.headerComplete } := by
                  rw [h1, h2, ← hp, ← hc, ← hcp, ← hcc]
                exact congrArg (fun d => (h'.carry d, _)) hlast
              · rintro ⟨hcar, hw'⟩
                have h0 : h'.method = (header.carried.afterLine (bytes.take (i - 1))).method :=
                  congrArg Carried.method hcar
                have h1 : h'.parsedBytes = header.parsedBytes :=
                  (congrArg Carried.parsedBytes hcar).trans hhp
                have h2 : h'.headerComplete = header.headerComplete :=
                  (congrArg Carried.headerComplete hcar).trans hhc
                have hgo := @ih (bytes.drop (i + 1))
                  { h' with parsedBytes := h'.parsedBytes + (i + 1) }
                  { c.afterLine (bytes.take (i - 1)) with
                    parsedBytes := (c.afterLine (bytes.take (i - 1))).parsedBytes + (i + 1) }
                  hw' (hcm.trans h0.symm) (by rw [hcp, hp, h1]) (by
                    show (c.afterLine (bytes.take (i - 1))).headerComplete = h'.headerComplete
                    rw [hcc, hc, h2])
                rw [afterLines_parsedBytes] at hgo
                exact hgo

/-! ## What the lines of a request say -/

/-- The websocket version behind these lines. -/
def versionAfter (v : Int) (ls : List (List UInt8)) : Int :=
  ls.foldl (fun v l => (websocketVersionOfLine l).getD v) v

/-- One of the lines gives a websocket version. -/
def GivesVersion (ls : List (List UInt8)) : Prop := ∃ l ∈ ls, (websocketVersionOfLine l).isSome

theorem versionAfter_eq_iff (v w : Int) (ls : List (List UInt8)) :
    versionAfter v ls = versionAfter w ls ↔ v = w ∨ GivesVersion ls := by
  induction ls generalizing v w with
  | nil => simp [versionAfter, GivesVersion]
  | cons l ls ih =>
      have hstep (v : Int) : versionAfter v (l :: ls) =
          versionAfter ((websocketVersionOfLine l).getD v) ls := rfl
      rw [hstep, hstep, ih]
      cases hl : websocketVersionOfLine l with
      | none => simp [GivesVersion, hl]
      | some n => simp [GivesVersion, hl]

/-- The fields behind a number of lines that are not request lines. -/
theorem afterLines_fields (ls : List (List UInt8)) (c : Carried) (hm : c.method ≠ .none) :
    ls.foldl Carried.afterLine c =
      { c with secWebSocketVersion := versionAfter c.secWebSocketVersion ls } := by
  induction ls generalizing c with
  | nil => rfl
  | cons l ls ih =>
      have hstep : c.afterLine l = c.afterField l := by
        rw [Carried.afterLine, if_neg hm]
      rw [List.foldl_cons, hstep, ih (c.afterField l) hm]
      rfl

/-- The first of the lines that are read is the request line; if there are more, it was
accepted. -/
theorem linesRead_first (n : Nat) (bytes : List UInt8) (header : HttpRequestHeader) :
    (linesRead n header bytes).tail = [] ∨
      ∃ l ls, linesRead n header bytes = l :: ls ∧ (analyseHeaderLine l header).2 = true := by
  cases n with
  | zero => exact .inl rfl
  | succ n =>
      unfold linesRead
      split_ifs
      · exact .inl rfl
      · cases searchLine bytes with
        | notFound => exact .inl rfl
        | tooLong => exact .inl rfl
        | found i =>
            simp only
            split_ifs
            · exact .inl rfl
            · cases hana : analyseHeaderLine (bytes.take (i - 1)) header with
              | mk h' ok =>
                  cases ok with
                  | false => exact .inl rfl
                  | true => exact .inr ⟨_, _, rfl, by rw [hana]⟩

/-- The first line says HTTP/1.1. -/
def SaysHttp11 (ls : List (List UInt8)) : Prop := ∃ l, ls.head? = some l ∧ httpVersion l = .http11

instance (ls : List (List UInt8)) : Decidable (SaysHttp11 ls) :=
  match ls with
  | [] => .isFalse (by simp [SaysHttp11])
  | l :: _ => decidable_of_iff (httpVersion l = .http11) (by simp [SaysHttp11])

/-- **The two fields behind a whole header.** -/
theorem afterLines_request (n : Nat) (bytes : List UInt8) (header : HttpRequestHeader)
    (hm : header.method = .none) (c : Carried) (hc : c.method = .none) :
    ((linesRead n header bytes).foldl Carried.afterLine c).isHttp11 =
        (c.isHttp11 || decide (SaysHttp11 (linesRead n header bytes))) ∧
      ((linesRead n header bytes).foldl Carried.afterLine c).secWebSocketVersion =
        versionAfter c.secWebSocketVersion (linesRead n header bytes).tail := by
  have hfirst := linesRead_first n bytes header
  revert hfirst
  rcases linesRead n header bytes with _ | ⟨l, ls⟩
  · intro _
    simp [SaysHttp11, versionAfter]
  · intro hfirst
    have hl : c.afterLine l = c.afterRequestLine l := by rw [Carried.afterLine, if_pos hc]
    have hsays : decide (SaysHttp11 (l :: ls)) = (httpVersion l == .http11) := by
      rw [Bool.eq_iff_iff]
      simp [SaysHttp11]
    rw [List.foldl_cons, hl, hsays]
    rcases hfirst with htail | ⟨l', ls', heq, hok⟩
    · have hnil : ls = [] := htail
      subst hnil
      exact ⟨rfl, rfl⟩
    · obtain ⟨rfl, rfl⟩ := List.cons_eq_cons.mp heq
      have hmethod : (c.afterRequestLine l).method ≠ .none := by
        have h1 := afterLine_method hok
        have h2 := (afterLine_control c header.carried l (hc.trans hm.symm)).1
        rw [← hl, h2]
        exact h1
      rw [afterLines_fields ls _ hmethod]
      exact ⟨rfl, rfl⟩

/-- The lines treat the two fields apart from the others. -/
theorem afterLines_others (ls : List (List UInt8)) (c : Carried) (isHttp11 : Bool)
    (version : Int) :
    ∃ a v, ls.foldl Carried.afterLine
        { c with isHttp11 := isHttp11, secWebSocketVersion := version } =
      { ls.foldl Carried.afterLine c with isHttp11 := a, secWebSocketVersion := v } := by
  induction ls generalizing c isHttp11 version with
  | nil => exact ⟨isHttp11, version, rfl⟩
  | cons l ls ih =>
      have hstep : ∃ a v, Carried.afterLine
          { c with isHttp11 := isHttp11, secWebSocketVersion := version } l =
          { c.afterLine l with isHttp11 := a, secWebSocketVersion := v } := by
        unfold Carried.afterLine Carried.afterRequestLine Carried.afterField
        split_ifs
        · exact ⟨_, _, rfl⟩
        · exact ⟨_, _, rfl⟩
        · exact ⟨_, _, rfl⟩
      obtain ⟨a, v, heq⟩ := hstep
      rw [List.foldl_cons, List.foldl_cons, heq]
      exact ih (c.afterLine l) a v

/-- The counter of the parsed bytes only grows. -/
theorem readHeader_parsedBytes (n : Nat) (bytes : List UInt8) {header : HttpRequestHeader}
    (hw : header.noWebsocketSupport = false) :
    header.parsedBytes ≤ (readHeader n header bytes).1.parsedBytes := by
  induction n generalizing header bytes with
  | zero => exact Nat.le_refl _
  | succ n ih =>
      unfold readHeader parseHeader
      by_cases hcrlf : crlf <+: bytes
      · simp only [if_pos hcrlf]
        unfold headerEnd
        split_ifs
        · exact Nat.le_refl _
        · exact Nat.le_add_right _ _
        · exact Nat.le_add_right _ _
      · simp only [if_neg hcrlf]
        cases searchLine bytes with
        | notFound => exact Nat.le_refl _
        | tooLong => exact Nat.le_refl _
        | found i =>
            have hcheck : checkReverseProxy [] true bytes = .pass true := rfl
            have hframe := analyseHeaderLine_carried (bytes.take (i - 1)) hw
            have hp := (afterLine_control header.carried header.carried (bytes.take (i - 1)) rfl).2.1
            simp only [hcheck]
            unfold headerLine
            split_ifs
            · exact Nat.le_refl _
            · revert hframe
              simp only
              rcases analyseHeaderLine (bytes.take (i - 1)) header with ⟨h', _ | _⟩
              · rintro ⟨hcar, -⟩
                exact Nat.le_of_eq ((congrArg Carried.parsedBytes hcar).trans hp).symm
              · rintro ⟨hcar, hw'⟩
                have h1 : h'.parsedBytes = header.parsedBytes :=
                  (congrArg Carried.parsedBytes hcar).trans hp
                exact Nat.le_trans (by rw [← h1]; exact Nat.le_add_right _ _)
                  (ih (bytes.drop (i + 1)) hw')

/-! ## An error that is left behind -/

/-- The address that a request line stores before it is checked, with `url` for a line that
stores none. -/
def storedUrl (line : List UInt8) (url : Option (List UInt8)) : Option (List UInt8) :=
  if httpVersion line = .unsupported then url
  else if ascii "GET " <+: line then some (rawUrl (line.drop 5))
  else if ascii "POST " <+: line then some (rawUrl (line.drop 6))
  else if ascii "OPTIONS " <+: line then some (rawUrl (line.drop 9))
  else url

theorem urlSanityCheck_error (header : HttpRequestHeader) :
    urlSanityCheck { header with error := true } =
      { urlSanityCheck header with url := header.url, error := true } := by
  have h1 : urlSanityCheck { header with error := true } = { header with error := true } := rfl
  rw [h1]
  simp only [urlSanityCheck]
  split_ifs <;> rfl

theorem knownMethod_error (method : HttpMethod) (skip : Nat) (line : List UInt8)
    (header : HttpRequestHeader) :
    knownMethod method skip line { header with error := true } =
      { knownMethod method skip line header with
        url := some (rawUrl (line.drop skip)), error := true } := by
  rw [knownMethod, knownMethod, requestUrl_eq, requestUrl_eq]
  simp only [Bool.true_or]
  rw [urlSanityCheck_error { header with
    method := method
    url := some (rawUrl (line.drop skip))
    parameterStore := (urlParameters (line.drop skip) header.parameterStore).1
    error := header.error || (urlParameters (line.drop skip) header.parameterStore).2 }]

/-- **With an error left behind every request line is refused**, and its address is stored as
it was received. -/
theorem requestLine_error (line : List UInt8) (header : HttpRequestHeader) :
    requestLine line { header with error := true } =
      ({ (requestLine line header).1 with url := storedUrl line header.url, error := true },
        false) := by
  have hmethod (header : HttpRequestHeader) (hv : httpVersion line ≠ .unsupported) :
      requestMethod line { header with error := true } =
        { requestMethod line header with url := storedUrl line header.url, error := true } := by
    unfold requestMethod storedUrl
    rw [if_neg hv]
    split_ifs
    · exact knownMethod_error .get 5 line { header with noWebsocketSupport := false }
    · exact knownMethod_error .post 6 line header
    · exact knownMethod_error .options 9 line header
    · rfl
  unfold requestLine
  cases hv : httpVersion line with
  | unsupported => simp [storedUrl, hv]
  | http10 =>
      simp only [hmethod header (by rw [hv]; simp)]
      rfl
  | http11 =>
      have h := hmethod { header with isHttp11 := true } (by rw [hv]; simp)
      simp only at h ⊢
      rw [h]
      rfl

/-- A refused request line has set the error flag. -/
theorem requestLine_refused {line : List UInt8} {header : HttpRequestHeader}
    (h : (requestLine line header).2 = false) : (requestLine line header).1.error = true := by
  unfold requestLine at h ⊢
  cases hv : httpVersion line with
  | unsupported => rfl
  | http10 =>
      rw [hv] at h
      simpa using h
  | http11 =>
      rw [hv] at h
      simpa using h

/-- A request line that a fresh parser refuses without having decoded its address. -/
def RefusedAsReceived (ls : List (List UInt8)) : Prop :=
  ∃ l, ls.head? = some l ∧ (requestLine l webserverMallocHttpRequestHeader).2 = false ∧
    (requestLine l webserverMallocHttpRequestHeader).1.url = storedUrl l none

/-! ## The exact condition -/

/-- The lines that a fresh parser reads from a request. -/
def requestLines (request : List UInt8) : List (List UInt8) :=
  linesRead (request.length + 1) webserverMallocHttpRequestHeader request

/-- A fresh record with the three fields that the reset forgets. -/
def leaked (isHttp11 : Bool) (version : Int) (error : Bool) : HttpRequestHeader :=
  { webserverMallocHttpRequestHeader with
    isHttp11 := isHttp11, secWebSocketVersion := version, error := error }

/-- Nothing of the three fields shows after the request `request`. -/
structure Hidden (isHttp11 : Bool) (version : Int) (error : Bool) (request : List UInt8) :
    Prop where
  http11 : isHttp11 = true → SaysHttp11 (requestLines request)
  websocket : version ≠ 0 → GivesVersion (requestLines request).tail
  error : error = true → RefusedAsReceived (requestLines request)

/-- Without an error left behind. -/
theorem headerOf_leaked (isHttp11 : Bool) (version : Int) (request : List UInt8) :
    headerOf (leaked isHttp11 version false) request =
      ((headerOf webserverMallocHttpRequestHeader request).1.carry
        { (headerOf webserverMallocHttpRequestHeader request).1.carried with
          isHttp11 := isHttp11 || decide (SaysHttp11 (requestLines request))
          secWebSocketVersion := versionAfter version (requestLines request).tail },
        (headerOf webserverMallocHttpRequestHeader request).2) := by
  set fresh := webserverMallocHttpRequestHeader with hfresh
  -- the run on the fresh record, with its own fields passed on
  have hself := readHeader_carry (request.length + 1) request
    (c := fresh.carried) rfl rfl rfl rfl
  rw [carry_self rfl] at hself
  have hcar := congrArg (fun r => r.1.carried) hself
  simp only [carry_carried] at hcar
  -- the run with the two fields changed
  have hrun := readHeader_carry (request.length + 1) request
    (c := { fresh.carried with isHttp11 := isHttp11, secWebSocketVersion := version }) rfl rfl rfl rfl
  obtain ⟨g1, g2⟩ := afterLines_request (request.length + 1) request fresh rfl
    { fresh.carried with isHttp11 := isHttp11, secWebSocketVersion := version } rfl
  obtain ⟨a, v, hav⟩ := afterLines_others (linesRead (request.length + 1) fresh request)
    fresh.carried isHttp11 version
  rw [hav] at hrun g1 g2
  have hstart : leaked isHttp11 version false = fresh.carry
      { fresh.carried with isHttp11 := isHttp11, secWebSocketVersion := version } := rfl
  rw [hstart]
  refine hrun.trans (congrArg (fun d => (HttpRequestHeader.carry _ d, _)) ?_)
  show _ = { (headerOf fresh request).1.carried with
    isHttp11 := isHttp11 || decide (SaysHttp11 (linesRead (request.length + 1) fresh request))
    secWebSocketVersion := versionAfter version (linesRead (request.length + 1) fresh request).tail }
  rw [← g1, ← g2, headerOf, hcar]

/-- The two fields of a fresh record behind a request. -/
theorem headerOf_fresh_fields (request : List UInt8) :
    (headerOf webserverMallocHttpRequestHeader request).1.isHttp11 =
        decide (SaysHttp11 (requestLines request)) ∧
      (headerOf webserverMallocHttpRequestHeader request).1.secWebSocketVersion =
        versionAfter 0 (requestLines request).tail := by
  have h := headerOf_leaked false 0 request
  have hfresh : leaked false 0 false = webserverMallocHttpRequestHeader := rfl
  rw [hfresh] at h
  have h1 := congrArg (fun r => r.1.isHttp11) h
  have h2 := congrArg (fun r => r.1.secWebSocketVersion) h
  rw [Bool.false_or] at h1
  exact ⟨h1, h2⟩

/-- The header behind a request line whose LF has the index `i`. -/
def headerBehind (request : List UInt8) (i : Nat) :
    HttpRequestHeader × Bool → HttpRequestHeader × List UInt8 × HeaderStatus
  | (header, false) => (header, request, .methodNotAllowed)
  | (header, true) =>
      readHeader request.length { header with parsedBytes := header.parsedBytes + (i + 1) }
        (request.drop (i + 1))

/-- How a request starts: with a request line, or with none that can be read. -/
theorem headerOf_start (request : List UInt8) :
    (requestLines request = [] ∧ ∀ header : HttpRequestHeader, header.parsedBytes = 0 →
      (headerOf header request).1.error = header.error) ∨
    ∃ line i ls, requestLines request = line :: ls ∧
      ((requestLine line webserverMallocHttpRequestHeader).2 = false → ls = []) ∧
      ∀ header : HttpRequestHeader, header.parsedBytes = 0 → header.method = .none →
        headerOf header request = headerBehind request i (requestLine line header) := by
  unfold requestLines linesRead headerOf readHeader parseHeader
  by_cases hcrlf : crlf <+: request
  · refine .inl ⟨by rw [if_pos hcrlf], fun header hp => ?_⟩
    simp only [if_pos hcrlf]
    unfold headerEnd
    split_ifs <;> rfl
  · simp only [if_neg hcrlf]
    cases hsearch : searchLine request with
    | notFound => exact .inl ⟨rfl, fun header hp => rfl⟩
    | tooLong => exact .inl ⟨rfl, fun header hp => rfl⟩
    | found i =>
        have hcheck : checkReverseProxy [] true request = .pass true := rfl
        simp only [hcheck]
        by_cases hlarge : webserverMaxHeaderSize < 0 + i + 1
        · refine .inl ⟨if_pos hlarge, fun header hp => ?_⟩
          rw [headerLine, if_pos (by rw [hp]; exact hlarge)]
        · right
          refine ⟨request.take (i - 1), i, _, if_neg hlarge, ?_, fun header hp hm => ?_⟩
          · intro href
            have hana : analyseHeaderLine (request.take (i - 1)) webserverMallocHttpRequestHeader =
                requestLine (request.take (i - 1)) webserverMallocHttpRequestHeader := rfl
            rw [hana]
            revert href
            rcases requestLine (request.take (i - 1)) webserverMallocHttpRequestHeader with
              ⟨h', _ | _⟩
            · intro _
              rfl
            · intro h
              exact absurd h (by simp)
          · rw [headerLine, if_neg (by rw [hp]; exact hlarge), analyseHeaderLine]
            simp only [if_pos hm]
            rcases requestLine (request.take (i - 1)) header with ⟨h', _ | _⟩
            · rfl
            · rfl

/-- The parts of a record in which a leak can show. -/
def HttpRequestHeader.trace (header : HttpRequestHeader) :
    Bool × Int × Bool × Option (List UInt8) × Nat :=
  (header.isHttp11, header.secWebSocketVersion, header.error, header.url, header.parsedBytes)

/-- The record that a leaked error leaves of a refused request line. -/
theorem requestLine_leaked (isHttp11 : Bool) (version : Int) (line : List UInt8) :
    requestLine line (leaked isHttp11 version true) =
      ({ (requestLine line webserverMallocHttpRequestHeader).1.carry
          (Carried.afterRequestLine { webserverMallocHttpRequestHeader.carried with
            isHttp11 := isHttp11, secWebSocketVersion := version } line) with
          url := storedUrl line none, error := true }, false) := by
  have h1 := requestLine_error line (leaked isHttp11 version false)
  have h2 := requestLine_carry line webserverMallocHttpRequestHeader
    { webserverMallocHttpRequestHeader.carried with
      isHttp11 := isHttp11, secWebSocketVersion := version }
  have hstart : leaked isHttp11 version false = webserverMallocHttpRequestHeader.carry
      { webserverMallocHttpRequestHeader.carried with
        isHttp11 := isHttp11, secWebSocketVersion := version } := rfl
  rw [hstart, h2] at h1
  exact h1

theorem headerOf_noWebsocketSupport (request : List UInt8) :
    (headerOf webserverMallocHttpRequestHeader request).1.noWebsocketSupport = false := by
  have h := headerOf_leaked false 0 request
  have hfresh : leaked false 0 false = webserverMallocHttpRequestHeader := rfl
  rw [hfresh] at h
  rw [h]
  rfl

/-- The fields that are passed on, behind the request line of a fresh record. -/
theorem requestLine_fresh_carried (line : List UInt8) :
    (requestLine line webserverMallocHttpRequestHeader).1.carried =
        webserverMallocHttpRequestHeader.carried.afterRequestLine line ∧
      (requestLine line webserverMallocHttpRequestHeader).1.noWebsocketSupport = false :=
  @analyseHeaderLine_carried line webserverMallocHttpRequestHeader rfl

/-- **A leak that does not show leaves no difference at all.** -/
theorem headerOf_leaked_of_hidden {isHttp11 : Bool} {version : Int} {error : Bool}
    {request : List UInt8} (h : Hidden isHttp11 version error request) :
    headerOf (leaked isHttp11 version error) request =
      headerOf webserverMallocHttpRequestHeader request := by
  cases herr : error with
  | false =>
      obtain ⟨f1, f2⟩ := headerOf_fresh_fields request
      have h1 : (isHttp11 || decide (SaysHttp11 (requestLines request))) =
          (headerOf webserverMallocHttpRequestHeader request).1.isHttp11 := by
        rw [f1]
        cases hh : isHttp11 with
        | false => rfl
        | true => simp [h.http11 hh]
      have h2 : versionAfter version (requestLines request).tail =
          (headerOf webserverMallocHttpRequestHeader request).1.secWebSocketVersion := by
        rw [f2, versionAfter_eq_iff]
        exact or_iff_not_imp_left.mpr h.websocket
      rw [headerOf_leaked, h1, h2]
      exact congrArg (·, _) (carry_self (headerOf_noWebsocketSupport request))
  | true =>
      obtain ⟨line, hline, href, hurl⟩ := h.error herr
      rcases headerOf_start request with ⟨hnil, -⟩ | ⟨line', i, ls, hls, hone, hbehind⟩
      · rw [hnil] at hline
        exact absurd hline (by simp)
      · have hsame : line' = line := by
          rw [hls] at hline
          simpa using hline
        subst hsame
        have hv : version = 0 := by
          by_contra hne
          obtain ⟨l, hl, -⟩ := h.websocket hne
          rw [hls, List.tail_cons, hone href] at hl
          exact absurd hl (by simp)
        have hvers : (isHttp11 || httpVersion line' == .http11) = (httpVersion line' == .http11) := by
          cases hh : isHttp11 with
          | false => rfl
          | true =>
              obtain ⟨l, hl, h11⟩ := h.http11 hh
              rw [hls] at hl
              obtain rfl : line' = l := by simpa using hl
              simp [h11]
        obtain ⟨hcar, hws⟩ := requestLine_fresh_carried line'
        have hc : Carried.afterRequestLine { webserverMallocHttpRequestHeader.carried with
            isHttp11 := isHttp11, secWebSocketVersion := version } line' =
            (requestLine line' webserverMallocHttpRequestHeader).1.carried := by
          rw [hcar, hv]
          simp only [Carried.afterRequestLine, hvers]
          rfl
        have hrec : requestLine line' (leaked isHttp11 version true) =
            requestLine line' webserverMallocHttpRequestHeader := by
          rw [requestLine_leaked, hc, carry_self hws, ← hurl, ← requestLine_refused href, ← href]
        rw [hbehind _ rfl rfl, hbehind _ rfl rfl, hrec]

/-- **A leak that shows, shows in the record.** -/
theorem hidden_of_trace_eq {isHttp11 : Bool} {version : Int} {error : Bool}
    {request : List UInt8}
    (h : (headerOf (leaked isHttp11 version error) request).1.trace =
      (headerOf webserverMallocHttpRequestHeader request).1.trace) :
    Hidden isHttp11 version error request := by
  have t1 := congrArg Prod.fst h
  have t2 := congrArg (fun x => x.2.1) h
  have t3 := congrArg (fun x => x.2.2.1) h
  have t4 := congrArg (fun x => x.2.2.2.1) h
  have t5 := congrArg (fun x => x.2.2.2.2) h
  simp only [HttpRequestHeader.trace] at t1 t2 t3 t4 t5
  cases herr : error with
  | false =>
      rw [herr] at t1 t2
      obtain ⟨f1, f2⟩ := headerOf_fresh_fields request
      rw [headerOf_leaked] at t1 t2
      refine ⟨fun hh => ?_, fun hne => ?_, fun he => absurd he (by simp)⟩
      · have t1' : (isHttp11 || decide (SaysHttp11 (requestLines request))) =
            decide (SaysHttp11 (requestLines request)) := t1.trans f1
        rw [hh, Bool.true_or] at t1'
        exact of_decide_eq_true t1'.symm
      · have t2' : versionAfter version (requestLines request).tail =
            versionAfter 0 (requestLines request).tail := t2.trans f2
        exact ((versionAfter_eq_iff _ _ _).mp t2').resolve_left hne
  | true =>
      rw [herr] at t1 t2 t3 t4 t5
      rcases headerOf_start request with ⟨-, hkeep⟩ | ⟨line, i, ls, hls, hone, hbehind⟩
      · rw [hkeep _ rfl, hkeep _ rfl] at t3
        exact absurd t3 (by simp [leaked, webserverMallocHttpRequestHeader])
      · rw [hbehind _ rfl rfl, hbehind _ rfl rfl, requestLine_leaked] at t1 t2 t4 t5
        obtain ⟨hcar, hws⟩ := requestLine_fresh_carried line
        cases hreq : requestLine line webserverMallocHttpRequestHeader with
        | mk F ok =>
            rw [hreq] at t1 t2 t4 t5 hcar hws
            cases ok with
            | true =>
                -- the fresh parser goes on, and counts the line
                have hcount := @readHeader_parsedBytes request.length (request.drop (i + 1))
                  { F with parsedBytes := F.parsedBytes + (i + 1) } hws
                have hzero : (headerBehind request i (F, true)).1.parsedBytes = 0 := t5.symm
                simp only [headerBehind] at hzero
                rw [hzero] at hcount
                exact absurd hcount (by simp)
            | false =>
                have hF1 : F.isHttp11 = (httpVersion line == .http11) :=
                  (congrArg Carried.isHttp11 hcar).trans (Bool.false_or _)
                have hF2 : F.secWebSocketVersion = 0 := congrArg Carried.secWebSocketVersion hcar
                refine ⟨fun hh => ?_, fun hne => ?_, fun _ => ?_⟩
                · have t1' : (isHttp11 || httpVersion line == .http11) = F.isHttp11 := t1
                  rw [hF1, hh, Bool.true_or] at t1'
                  exact ⟨line, by rw [hls]; rfl, by simpa using t1'.symm⟩
                · have t2' : version = F.secWebSocketVersion := t2
                  exact absurd (t2'.trans hF2) hne
                · exact ⟨line, by rw [hls]; rfl, by rw [hreq], by rw [hreq]; exact t4.symm⟩

/-! ## Keep-alive connections -/

/-- What serving a request does to the header record, from its parsing to the reset. The
fields listed here are written by the header parser only, except that the parts of a form can
set the error flag too; whatever else the handlers change is put back by the reset. The loop
clears `header_complete` when it hands the request over. -/
structure Served (parsed atReset : HttpRequestHeader) : Prop where
  error : parsed.error = true → atReset.error = true
  isHttp11 : atReset.isHttp11 = parsed.isHttp11
  secWebSocketVersion : atReset.secWebSocketVersion = parsed.secWebSocketVersion
  gzip : atReset.gzip = parsed.gzip
  deflate : atReset.deflate = parsed.deflate
  webSocketOutHash : atReset.webSocketOutHash = parsed.webSocketOutHash
  noWebsocketSupport : atReset.noWebsocketSupport = parsed.noWebsocketSupport
  isWebsocket : atReset.isWebsocket = parsed.isWebsocket
  headerComplete : atReset.headerComplete = false

/-- The check for a websocket request changes its own field and the status only. -/
theorem checkIsk_frame (header : HttpRequestHeader) :
    ∃ w s, checkIskWebsocketConnection header =
      { header with isWebsocket := w, responseStatus := s } := by
  unfold checkIskWebsocketConnection
  split_ifs
  · exact ⟨_, _, rfl⟩
  · exact ⟨_, header.responseStatus, rfl⟩
  · exact ⟨_, _, rfl⟩
  · exact ⟨_, header.responseStatus, rfl⟩

theorem parseRequest_frame (header : HttpRequestHeader) (request : List UInt8) :
    ∃ w s, (parseRequest header request).1 =
      { (headerOf header request).1 with isWebsocket := w, responseStatus := s } := by
  unfold parseRequest
  simp only
  split_ifs
  · exact checkIsk_frame _
  · exact ⟨_, _, rfl⟩

/-- What parsing a request on a fresh record leaves alone. -/
theorem headerOf_fresh_others (request : List UInt8) :
    (headerOf webserverMallocHttpRequestHeader request).1.gzip = false ∧
      (headerOf webserverMallocHttpRequestHeader request).1.deflate = false ∧
      (headerOf webserverMallocHttpRequestHeader request).1.webSocketOutHash = [] := by
  have hself := readHeader_carry (request.length + 1) request
   
    (c := webserverMallocHttpRequestHeader.carried) rfl rfl rfl rfl
  rw [carry_self rfl] at hself
  have hkeep (ls : List (List UInt8)) (c : Carried) :
      (ls.foldl Carried.afterLine c).gzip = c.gzip ∧
        (ls.foldl Carried.afterLine c).deflate = c.deflate ∧
        (ls.foldl Carried.afterLine c).webSocketOutHash = c.webSocketOutHash := by
    induction ls generalizing c with
    | nil => exact ⟨rfl, rfl, rfl⟩
    | cons l ls ih =>
        have hstep : (c.afterLine l).gzip = c.gzip ∧ (c.afterLine l).deflate = c.deflate ∧
            (c.afterLine l).webSocketOutHash = c.webSocketOutHash := by
          unfold Carried.afterLine Carried.afterRequestLine Carried.afterField
          split_ifs <;> exact ⟨rfl, rfl, rfl⟩
        obtain ⟨h1, h2, h3⟩ := ih (c.afterLine l)
        exact ⟨h1.trans hstep.1, h2.trans hstep.2.1, h3.trans hstep.2.2⟩
  obtain ⟨h1, h2, h3⟩ := hkeep (linesRead (request.length + 1) webserverMallocHttpRequestHeader
    request) webserverMallocHttpRequestHeader.carried
  exact ⟨(congrArg (fun r => r.1.gzip) hself).trans h1,
    (congrArg (fun r => r.1.deflate) hself).trans h2,
    (congrArg (fun r => r.1.webSocketOutHash) hself).trans h3⟩

/-- **What is left of a request after the reset**: the three forgotten fields. -/
theorem reset_of_served {request : List UInt8} {atReset : HttpRequestHeader}
    (hplain : (parseRequest webserverMallocHttpRequestHeader request).1.isWebsocket = 0)
    (hs : Served (parseRequest webserverMallocHttpRequestHeader request).1 atReset) :
    webserverResetHttpRequestHeader atReset =
      leaked atReset.isHttp11 atReset.secWebSocketVersion atReset.error := by
  obtain ⟨w, s, hframe⟩ := parseRequest_frame webserverMallocHttpRequestHeader request
  obtain ⟨h1, h2, h3⟩ := headerOf_fresh_others request
  have hg : atReset.gzip = false := hs.gzip.trans ((by rw [hframe] : _ = _).trans h1)
  have hd : atReset.deflate = false := hs.deflate.trans ((by rw [hframe] : _ = _).trans h2)
  have ho : atReset.webSocketOutHash = [] :=
    hs.webSocketOutHash.trans ((by rw [hframe] : _ = _).trans h3)
  have hn : atReset.noWebsocketSupport = false :=
    hs.noWebsocketSupport.trans ((by rw [hframe] : _ = _).trans (headerOf_noWebsocketSupport request))
  have hi : atReset.isWebsocket = 0 := hs.isWebsocket.trans hplain
  have hc := hs.headerComplete
  unfold webserverResetHttpRequestHeader leaked webserverMallocHttpRequestHeader
  simp only [hg, hd, ho, hn, hi, hc]

/-- **When two requests on a connection are isolated.** Let the request `a` be parsed on a
fresh record, answered and the record be reset. Then the request `b` is parsed into the same
record as on a fresh one if and only if none of the three forgotten fields shows: the version
flag is not set, or `b` says HTTP/1.1 itself; the websocket version is zero, or `b` gives one;
the error flag is not set, or the request line of `b` is refused anyway, with its address as
received. -/
theorem keepalive_isolation_iff (a b : List UInt8) (atReset : HttpRequestHeader)
    (hplain : (parseRequest webserverMallocHttpRequestHeader a).1.isWebsocket = 0)
    (hs : Served (parseRequest webserverMallocHttpRequestHeader a).1 atReset) :
    (parseRequest (webserverResetHttpRequestHeader atReset) b).1 =
        (parseRequest webserverMallocHttpRequestHeader b).1 ↔
      (atReset.isHttp11 = true → SaysHttp11 (requestLines b)) ∧
      (atReset.secWebSocketVersion ≠ 0 → GivesVersion (requestLines b).tail) ∧
      (atReset.error = true → RefusedAsReceived (requestLines b)) := by
  rw [reset_of_served hplain hs]
  constructor
  · intro heq
    obtain ⟨w, s, h1⟩ := parseRequest_frame
      (leaked atReset.isHttp11 atReset.secWebSocketVersion atReset.error) b
    obtain ⟨w', s', h2⟩ := parseRequest_frame webserverMallocHttpRequestHeader b
    rw [h1, h2] at heq
    have htrace := congrArg HttpRequestHeader.trace heq
    change (headerOf (leaked atReset.isHttp11 atReset.secWebSocketVersion
      atReset.error) b).1.trace = (headerOf webserverMallocHttpRequestHeader b).1.trace at htrace
    have h := hidden_of_trace_eq htrace
    exact ⟨h.http11, h.websocket, h.error⟩
  · rintro ⟨h1, h2, h3⟩
    have h := headerOf_leaked_of_hidden ⟨h1, h2, h3⟩
    unfold parseRequest
    rw [h]

/-- A request that says HTTP/1.1. -/
def requestOfVersion11 : List UInt8 := ascii "GET / HTTP/1.1\r\n\r\n"

/-- A request that says HTTP/1.0. -/
def requestOfVersion10 : List UInt8 := ascii "GET / HTTP/1.0\r\n\r\n"

/-- The record of a request that was answered without changing it. -/
def answered (request : List UInt8) : HttpRequestHeader :=
  { (parseRequest webserverMallocHttpRequestHeader request).1 with headerComplete := false }

/-- The same request twice: the version flag of the first is hidden by the second. -/
theorem keepalive_isolation_twice :
    (parseRequest (webserverResetHttpRequestHeader (answered requestOfVersion11))
        requestOfVersion11).1 =
      (parseRequest webserverMallocHttpRequestHeader requestOfVersion11).1 :=
  (keepalive_isolation_iff requestOfVersion11 requestOfVersion11 (answered requestOfVersion11)
    (by decide +kernel) ⟨fun h => h, rfl, rfl, rfl, rfl, rfl, rfl, rfl, rfl⟩).2
    ⟨fun _ => by decide +kernel, fun h => absurd (by decide +kernel) h,
      fun h => absurd h (by decide +kernel)⟩

/-- After a request of HTTP/1.1, one of HTTP/1.0 is taken for HTTP/1.1. -/
theorem keepalive_version_leaks :
    (parseRequest (webserverResetHttpRequestHeader (answered requestOfVersion11))
        requestOfVersion10).1.isHttp11 = true ∧
      (parseRequest webserverMallocHttpRequestHeader requestOfVersion10).1.isHttp11 = false ∧
      (parseRequest (webserverResetHttpRequestHeader (answered requestOfVersion11))
        requestOfVersion10).1 ≠ (parseRequest webserverMallocHttpRequestHeader requestOfVersion10).1 ∧
      Served (parseRequest webserverMallocHttpRequestHeader requestOfVersion11).1
        (answered requestOfVersion11) := by
  have h1 : (parseRequest (webserverResetHttpRequestHeader (answered requestOfVersion11))
      requestOfVersion10).1.isHttp11 = true := by decide +kernel
  have h2 : (parseRequest webserverMallocHttpRequestHeader
      requestOfVersion10).1.isHttp11 = false := by decide +kernel
  refine ⟨h1, h2, fun h => ?_, ⟨fun h => h, rfl, rfl, rfl, rfl, rfl, rfl, rfl, rfl⟩⟩
  rw [h, h2] at h1
  exact absurd h1 (by decide)

end CWebUI.Http
