import Mathlib.Logic.Relation
import CWebUI.Http.RequestStream
import CWebUI.Sockets.Output
import CWebUI.Websocket.Handshake

set_option autoImplicit false

/-! # A connection, from event to event

`handleer` and `handleClient` (`system_sockets.c`) with `handleWebRequest` (`system.c`), for a client
without TLS: a read event reads requests, one after the other, and queues their answers; then the
connection waits for writing until all of them are sent, and for reading again. A connection that is
taken over by the websocket code, the proxy or an upload leaves this file.

What a connection does is compared with `requestsOf`, which takes the requests from the bytes of the
whole stream. Events come in any order, `recv` and `send` may do with every call what they like.
-/

namespace CWebUI.Sockets

open ByteString CWebUI.Proxy Http Websocket

/-! ## The server -/

/-- What the answers depend on besides the request; the number is that of the request on its
connection. -/
structure HttpServer where
  post : Nat → PostServer
  /-- `sendPreflightAllowed` -/
  preflight : Nat → HttpRequestHeader → Response
  /-- The rest of `getHttpRequest`: the page, and whether the form had an error. -/
  page : Nat → HttpRequestHeader → Response × Bool
  /-- `sendHttpErrorPage`; without a status there is no page. -/
  errorPage : Nat → HttpRequestHeader → Option Nat → Response

/-- What has been done with a request: the response that is queued, the record behind it, and
whether the connection is to be closed. -/
structure Reply where
  response : Option Response
  header : HttpRequestHeader
  close : Bool := false

/-- `getHttpRequest` -/
def getHttpRequest (srv : HttpServer) (k : Nat) (header : HttpRequestHeader) : Reply :=
  if header.method = .options then { response := srv.preflight k header, header := header }
  else if header.error then
    { response := srv.errorPage k header (some 400), header := header, close := true }
  else
    { response := (srv.page k header).1
      header := { header with error := (srv.page k header).2 } }

/-- `handleWebRequest`, with the number of error pages so far. -/
def handleWebRequest (srv : HttpServer) (k errorRequests : Nat) (header : HttpRequestHeader) :
    Option Reply :=
  if 5 < errorRequests then none
  -- an empty line is not answered
  else if header.parsedBytes = 0 then some { response := none, header := header }
  else if header.method = .none then
    some { response := srv.errorPage k header (some 405), header := header, close := true }
  else if header.url = none then
    some { response := srv.errorPage k header (some 400), header := header, close := true }
  else some (getHttpRequest srv k header)

/-- The refusal of a request for the websocket protocol. -/
def refusalPage (header : HttpRequestHeader) : Response where
  body := some (queueRefusal { header := header, outHash := [] }).flatten

/-! ## The connection -/

/-- What is answered on a connection. -/
inductive Item where
  | request (header : HttpRequestHeader)
  | refused (header : HttpRequestHeader)
  | error (header : HttpRequestHeader) (status : Option Nat)
  deriving DecidableEq, Repr

/-- Who has the connection. -/
inductive Owner where
  | plain
  | websocket
  | proxy
  | upload
  | closed
  deriving DecidableEq, Repr

/-- What the kernel reports: the next read event only, or all write events. -/
inductive Armed where
  | read
  | write
  deriving DecidableEq, Repr

/-- A connection. The items are not in the program: they say what has been answered. -/
structure HttpConn where
  reader : HeaderReader
  outputList : List Output := []
  wire : Wire := {}
  closeSocket : Bool := false
  errorRequests : Nat := 0
  armed : Option Armed := some .read
  owner : Owner := .plain
  items : List Item := []

/-- `generateOutputBuffer`: the response is appended to the output list. -/
def HttpConn.answer (c : HttpConn) (item : Item) (response : Option Response) : HttpConn :=
  { c with
    outputList := c.outputList ++ response.toList.map Response.output
    items := c.items ++ [item] }

/-- `WebserverConnectionManagerCloseRequest` -/
def HttpConn.closeRequest (c : HttpConn) : HttpConn :=
  { c with owner := .closed, armed := none, closeSocket := true }

/-- `addEventSocketRead` -/
def HttpConn.addEventSocketRead (c : HttpConn) : HttpConn := { c with armed := some .read }

/-- `addEventSocketWritePersist` -/
def HttpConn.addEventSocketWritePersist (c : HttpConn) : HttpConn := { c with armed := some .write }

/-- The results of `handleClient`. -/
inductive ClientReturn where
  /-- `-1` -/
  | failed
  /-- `0` -/
  | incomplete
  /-- `1` -/
  | answered
  /-- `2` -/
  | taken
  deriving DecidableEq, Repr

/-- `handleClient`, with the answers of `recv`; there is no result when they do not suffice. -/
def handleClient (srv : HttpServer) (answers : List RecvAnswer) (c : HttpConn) :
    Option (HttpConn × ClientReturn) :=
  match handleClientHeaderData (srv.post c.items.length) answers 0 c.reader with
  | none => none
  | some (r, .wait) => some ({ c with reader := r }, .incomplete)
  | some (r, .gone) => some ({ c with reader := r, closeSocket := true }, .failed)
  | some (r, .done .reverseProxy) => some ({ c with reader := r, owner := .proxy }, .taken)
  | some (r, .done (.streaming _)) => some ({ c with reader := r, owner := .upload }, .taken)
  | some (r, .done (.error status)) =>
      some ({ c with
          reader := r
          closeSocket := true
          errorRequests := c.errorRequests + if status = none then 0 else 1 }.answer
        (.error r.sock.header status) (srv.errorPage c.items.length r.sock.header status), .answered)
  | some (r, .done .complete) =>
      if r.sock.header.isWebsocket = 1 then
        some ({ c with reader := r, owner := .websocket }, .taken)
      else if r.sock.header.isWebsocket = 2 then
        some (({ c with reader := r }.answer (.refused r.sock.header)
          (refusalPage r.sock.header)).addEventSocketWritePersist, .taken)
      else
        match handleWebRequest srv c.items.length c.errorRequests r.sock.header with
        | none => some ({ c with reader := r }, .failed)
        | some reply =>
            some ({ c with
                reader := { r with
                  sock := ⟨webserverResetHttpRequestHeader reply.header, false⟩ }
                closeSocket := c.closeSocket || reply.close
                errorRequests := c.errorRequests + if reply.close then 1 else 0 }.answer
              (.request r.sock.header) reply.response, .answered)

/-- The end of a read event. -/
def HttpConn.finishRead (c : HttpConn) : HttpConn :=
  if c.closeSocket ∧ c.outputList = [] then c.closeRequest
  else if c.outputList = [] then c.addEventSocketRead
  else c.addEventSocketWritePersist

/-- The loop over the requests that are in the header buffer already. -/
def handleBuffered (srv : HttpServer) : List (List RecvAnswer) → HttpConn → Option HttpConn
  | calls, c =>
      if c.closeSocket = false ∧ c.reader.headerBuffer ≠ [] then
        match calls with
        | [] => none
        | answers :: calls =>
            match handleClient srv answers c with
            | none => none
            | some (c, .failed) => some c.closeRequest
            | some (c, .taken) => some c
            | some (c, .incomplete) => some c.finishRead
            | some (c, .answered) => handleBuffered srv calls c
      else some c.finishRead

/-- `handleer` for `EVENT_READ`. -/
def handleRead (srv : HttpServer) (calls : List (List RecvAnswer)) (c : HttpConn) :
    Option HttpConn :=
  if c.closeSocket then some c.closeRequest
  else
    match calls with
    | [] => none
    | answers :: calls =>
        match handleClient srv answers c with
        | none => none
        | some (c, .failed) => some c.closeRequest
        | some (c, .taken) => some c
        | some (c, .incomplete) => some c.addEventSocketRead
        | some (c, .answered) => handleBuffered srv calls c

/-- `checkConnectionKeepAlive` -/
def checkConnectionKeepAlive (header : HttpRequestHeader) : Bool :=
  match header.connection with
  | some connection => sameIgnoreCase connection (ascii "keep-alive")
  | none => header.isHttp11

/-- `handleer` for `EVENT_WRITE`. -/
def handleWrite (sends : Nat → SendAnswer) (c : HttpConn) : HttpConn :=
  if c.closeSocket ∧ c.outputList = [] then c.closeRequest
  else
    match handleClientWriteData sends c.outputList c.wire with
    | (.noMoreData, outputs, wire) =>
        let c := { c with outputList := outputs, wire := wire, armed := none }
        if checkConnectionKeepAlive c.reader.sock.header then
          if c.closeSocket then c.closeRequest else c.addEventSocketRead
        else if c.reader.sock.header.isWebsocket = 2 then c.addEventSocketRead
        else c.closeRequest
    | (.dataPending, outputs, wire) => { c with outputList := outputs, wire := wire }
    | (.clientDisconnected, outputs, wire) =>
        { c with outputList := outputs, wire := wire }.closeRequest

/-- The events of a connection. -/
inductive ConnStep (srv : HttpServer) (c : HttpConn) : HttpConn → Prop
  | read (calls : List (List RecvAnswer)) (c' : HttpConn) (howner : c.owner = .plain)
      (harmed : c.armed = some .read) (hrun : handleRead srv calls { c with armed := none } = some c') :
      ConnStep srv c c'
  | write (sends : Nat → SendAnswer) (howner : c.owner = .plain) (harmed : c.armed = some .write) :
      ConnStep srv c (handleWrite sends c)
  /-- `EVENT_TIMEOUT`, or a closing from outside. -/
  | timeout (howner : c.owner = .plain) : ConnStep srv c c.closeRequest

/-- A connection that has been accepted, with all that its client is going to send. -/
def acceptedConn (stream : List UInt8) : HttpConn where
  reader := ⟨⟨webserverMallocHttpRequestHeader, false⟩, [], stream⟩

/-- The states of all runs. -/
def ConnReachable (srv : HttpServer) (stream : List UInt8) (c : HttpConn) : Prop :=
  Relation.ReflTransGen (ConnStep srv) (acceptedConn stream) c

/-! ## What the stream asks for -/

/-- The items from the next one on, and where the stream stops: where nothing more is answered. -/
def itemsOf (srv : HttpServer) : Nat → Nat → Next → List Item × Next
  | 0, _, next => ([], next)
  | fuel + 1, k, next =>
      match next with
      | .request header rest =>
          match handleWebRequest srv k 0 header with
          | none => ([], next)
          | some reply =>
              if reply.close then ([.request header], next)
              else
                let later := itemsOf srv fuel (k + 1) (nextRequest (srv.post (k + 1))
                  (webserverResetHttpRequestHeader reply.header) rest)
                (.request header :: later.1, later.2)
      | .refused header rest =>
          let later := itemsOf srv fuel (k + 1) (nextRequest (srv.post (k + 1)) header rest)
          (.refused header :: later.1, later.2)
      | .error header status => ([.error header status], next)
      | next => ([], next)

/-- What is answered on a connection with this stream. -/
def requestsOf (srv : HttpServer) (stream : List UInt8) : List Item × Next :=
  itemsOf srv (stream.length + 1) 0
    (nextRequest (srv.post 0) webserverMallocHttpRequestHeader stream)

/-- The answer to an item. -/
def answerOf (srv : HttpServer) (k : Nat) : Item → Option Response
  | .request header => (handleWebRequest srv k 0 header).bind Reply.response
  | .refused header => some (refusalPage header)
  | .error header status => some (srv.errorPage k header status)

/-- The bytes of an answer. -/
def answerBytes (srv : HttpServer) (k : Nat) (item : Item) : List UInt8 :=
  ((answerOf srv k item).map Response.bytes).getD []

/-- The answers to all items, one behind the other. -/
def bytesOf (srv : HttpServer) (items : List Item) : List UInt8 :=
  (items.mapIdx (answerBytes srv)).flatten

theorem bytesOf_append (srv : HttpServer) (items : List Item) (item : Item) :
    bytesOf srv (items ++ [item]) = bytesOf srv items ++ answerBytes srv items.length item := by
  simp [bytesOf, List.mapIdx_append]

/-! ## The invariant -/

section Invariant

variable {srv : HttpServer} {all : List Item × Next} {c c' : HttpConn}

/-- A connection that goes on: what has been answered and what is still to come is what the stream
asks for. -/
structure Serving (srv : HttpServer) (all : List Item × Next) (c : HttpConn) : Prop where
  goesOn : c.closeSocket = false
  errors : c.errorRequests = 0
  next : ∃ fuel next, next.size < fuel ∧ Reads (srv.post c.items.length) next c.reader ∧
    c.items ++ (itemsOf srv fuel c.items.length next).1 = all.1 ∧
    (itemsOf srv fuel c.items.length next).2 = all.2

/-- No upgrade has been refused. -/
def HttpConn.NoRefusal (c : HttpConn) : Prop := ∀ header, Item.refused header ∉ c.items

/-- Nothing more can be done with the bytes that have been received. -/
def HttpConn.Idle (srv : HttpServer) (c : HttpConn) : Prop :=
  c.NoRefusal → c.closeSocket = false → c.reader.Stuck (srv.post c.items.length)

/-- What a connection waits for. -/
structure Waits (srv : HttpServer) (c : HttpConn) : Prop where
  idle : c.Idle srv
  armed : (c.armed = some .read ∧ c.outputList = [] ∧
      (c.closeSocket = true → c.reader.sock.header.isWebsocket = 2)) ∨
    (c.armed = some .write ∧ c.outputList ≠ [])

/-- What has been sent and what is in the output list are the answers. -/
def Balanced (srv : HttpServer) (c : HttpConn) : Prop :=
  c.wire.sent ++ c.outputList.flatMap Output.rest = bytesOf srv c.items

structure ConnInv (srv : HttpServer) (all : List Item × Next) (c : HttpConn) : Prop where
  items : c.items <+: all.1
  sent : c.wire.sent <+: bytesOf srv c.items
  balanced : c.owner = .plain → Balanced srv c
  serving : c.owner = .plain → c.closeSocket = false → Serving srv all c
  waits : c.owner = .plain → Waits srv c

/-! ### What the stream asks for, from a request on -/

theorem Serving.items (h : Serving srv all c) : c.items <+: all.1 := by
  obtain ⟨fuel, next, -, -, hall, -⟩ := h.next
  rw [← hall]
  exact List.prefix_append _ _

/-- What is sent and what is waited for does not matter. -/
theorem Serving.frame (h : Serving srv all c) (hclose : c'.closeSocket = c.closeSocket)
    (herrors : c'.errorRequests = c.errorRequests) (hitems : c'.items = c.items)
    (hreader : c'.reader = c.reader) : Serving srv all c' := by
  obtain ⟨hopen, herr, hnext⟩ := h
  rw [← hclose] at hopen
  rw [← herrors] at herr
  rw [← hitems, ← hreader] at hnext
  exact ⟨hopen, herr, hnext⟩

/-- A connection at the start of a request. -/
theorem Serving.start (hstate : c.reader.sock.header.bodyState = (false, none, 0))
    (hbuffer : c.reader.headerBuffer.length ≤ webserverMaxHeaderLineLenght)
    (hopen : c.closeSocket = false) (herrors : c.errorRequests = 0) {fuel : Nat}
    (hfuel : c.reader.bytes.length < fuel) (hend : all.2 ≠ .emptyLine)
    (hitems : c.items ++ (itemsOf srv fuel c.items.length
      (nextRequest (srv.post c.items.length) c.reader.sock.header c.reader.bytes)).1 = all.1)
    (hstop : (itemsOf srv fuel c.items.length
      (nextRequest (srv.post c.items.length) c.reader.sock.header c.reader.bytes)).2 = all.2) :
    Serving srv all c := by
  refine ⟨hopen, herrors, fuel, _, Nat.lt_of_le_of_lt (size_nextRequest ..) hfuel,
    .header ⟨⟨hbuffer, ?_⟩, hstate, rfl⟩, hitems, hstop⟩
  by_contra hline
  obtain ⟨hparsed, hcrlf⟩ := not_or.mp hline
  refine hend ?_
  rw [← hstop, nextRequest, if_pos ⟨not_not.mp hparsed, not_not.mp hcrlf⟩]
  cases fuel with
  | zero => exact absurd hfuel (Nat.not_lt_zero _)
  | succ fuel => rfl

/-- A connection behind an item. -/
theorem Serving.behind {item : Item} (hitems : c'.items = c.items ++ [item])
    (hstate : c'.reader.sock.header.bodyState = (false, none, 0))
    (hbuffer : c'.reader.headerBuffer.length ≤ webserverMaxHeaderLineLenght)
    (hopen : c'.closeSocket = false) (herrors : c'.errorRequests = 0) {fuel : Nat}
    (hfuel : c'.reader.bytes.length < fuel) (hend : all.2 ≠ .emptyLine)
    (hall : c.items ++ item :: (itemsOf srv fuel (c.items.length + 1)
      (nextRequest (srv.post (c.items.length + 1)) c'.reader.sock.header c'.reader.bytes)).1 = all.1)
    (hstop : (itemsOf srv fuel (c.items.length + 1)
      (nextRequest (srv.post (c.items.length + 1)) c'.reader.sock.header c'.reader.bytes)).2 = all.2) :
    Serving srv all c' := by
  have hlen : c'.items.length = c.items.length + 1 := by
    rw [hitems, List.length_append, List.length_singleton]
  refine Serving.start hstate hbuffer hopen herrors hfuel hend ?_ ?_
  · rw [hlen, hitems, List.append_assoc]
    exact hall
  · rw [hlen]
    exact hstop

theorem acceptedConn_serving {stream : List UInt8}
    (hend : (requestsOf srv stream).2 ≠ .emptyLine) :
    Serving srv (requestsOf srv stream) (acceptedConn stream) :=
  Serving.start rfl (Nat.zero_le _) rfl rfl (Nat.lt_succ_self _) hend rfl rfl

/-! ### One request -/

/-- The answer to an item has been queued. -/
structure Answers (srv : HttpServer) (c c' : HttpConn) (item : Item) : Prop where
  items : c'.items = c.items ++ [item]
  outputList : c'.outputList =
    c.outputList ++ (answerOf srv c.items.length item).toList.map Response.output
  wire : c'.wire = c.wire
  owner : c'.owner = c.owner

/-- What a call of `handleClient` leaves behind. -/
inductive ClientResult (srv : HttpServer) (all : List Item × Next) (c c' : HttpConn) :
    ClientReturn → Prop
  | failed (items : c'.items = c.items) (wire : c'.wire = c.wire) : ClientResult srv all c c' .failed
  | incomplete (r : HeaderReader) (heq : c' = { c with reader := r }) (serving : Serving srv all c')
      (stuck : r.Stuck (srv.post c.items.length)) : ClientResult srv all c c' .incomplete
  | answered (item : Item) (answers : Answers srv c c' item) (items : c'.items <+: all.1)
      (serving : c'.closeSocket = false → Serving srv all c') : ClientResult srv all c c' .answered
  | away (items : c'.items = c.items) (wire : c'.wire = c.wire) (owner : c'.owner ≠ .plain) :
      ClientResult srv all c c' .taken
  | refused (header : HttpRequestHeader) (answers : Answers srv c c' (.refused header))
      (armed : c'.armed = some .write) (serving : Serving srv all c') :
      ClientResult srv all c c' .taken

/-- The record behind an answer is still marked as read. -/
theorem handleWebRequest_headerComplete {k errorRequests : Nat} {header : HttpRequestHeader}
    {reply : Reply} (h : handleWebRequest srv k errorRequests header = some reply) :
    reply.header.headerComplete = header.headerComplete := by
  unfold handleWebRequest getHttpRequest at h
  split_ifs at h <;> cases h <;> rfl

/-- **A call of `handleClient`.** -/
theorem Serving.handleClient (h : Serving srv all c)
    (hmax : ∀ k, 0 ≤ (srv.post k).maxPostSize.toInt) (hend : all.2 ≠ .emptyLine)
    {answers : List RecvAnswer} {ret : ClientReturn}
    (hrun : CWebUI.Sockets.handleClient srv answers c = some (c', ret)) :
    ClientResult srv all c c' ret := by
  obtain ⟨fuel, next, hfuel, hreads, hall, hstop⟩ := h.next
  obtain ⟨fuel, rfl⟩ : ∃ n, fuel = n + 1 := ⟨fuel - 1, by omega⟩
  rw [CWebUI.Sockets.handleClient] at hrun
  cases hcall : handleClientHeaderData (srv.post c.items.length) answers 0 c.reader with
  | none =>
      rw [hcall] at hrun
      cases hrun
  | some result =>
      obtain ⟨r, callEnd⟩ := result
      have hres := hreads.call (hmax _) hcall
      rw [hcall] at hrun
      cases callEnd with
      | wait =>
          cases hrun
          exact .incomplete r rfl ⟨h.goesOn, h.errors, fuel + 1, next, hfuel, hres.1, hall, hstop⟩
            hres.2
      | gone =>
          cases hrun
          exact .failed rfl rfl
      | done outcome =>
          cases outcome with
          | reverseProxy =>
              cases hrun
              exact .away rfl rfl (by simp)
          | streaming handler =>
              cases hrun
              exact .away rfl rfl (by simp)
          | error status =>
              cases hrun
              have hnext : next = .error r.sock.header status := hres
              rw [hnext, itemsOf] at hall
              exact .answered (.error r.sock.header status) ⟨rfl, rfl, rfl, rfl⟩
                (hall ▸ List.prefix_refl _) fun hopen => by cases hopen
          | complete =>
              have hhanded : Handed next r := hres
              have hnext := hhanded.next_eq
              dsimp only at hrun
              by_cases h1 : r.sock.header.isWebsocket = 1
              · rw [if_pos h1] at hrun
                cases hrun
                exact .away rfl rfl (by simp)
              rw [if_neg h1] at hrun hnext
              by_cases h2 : r.sock.header.isWebsocket = 2
              · rw [if_pos h2] at hrun hnext
                cases hrun
                rw [hnext, itemsOf] at hall hstop
                have hsize : r.bytes.length < fuel := by
                  rw [hnext] at hfuel
                  exact Nat.lt_of_succ_lt_succ hfuel
                exact .refused r.sock.header ⟨rfl, rfl, rfl, rfl⟩ rfl
                  (Serving.behind rfl (hhanded.refused h2) hhanded.buffer h.goesOn h.errors hsize
                    hend hall hstop)
              · rw [if_neg h2] at hrun hnext
                rw [h.errors] at hrun
                cases hreply : handleWebRequest srv c.items.length 0 r.sock.header with
                | none =>
                    rw [hreply] at hrun
                    cases hrun
                    exact .failed rfl rfl
                | some reply =>
                    rw [hreply] at hrun
                    cases hrun
                    have hsize : r.bytes.length < fuel := by
                      rw [hnext] at hfuel
                      exact Nat.lt_of_succ_lt_succ hfuel
                    have hstate : (webserverResetHttpRequestHeader reply.header).bodyState =
                        (false, none, 0) :=
                      Prod.ext ((handleWebRequest_headerComplete hreply).trans
                        hhanded.headerComplete) rfl
                    have hanswer : answerOf srv c.items.length (.request r.sock.header) =
                        reply.response := by
                      rw [answerOf, hreply]
                      rfl
                    rw [hnext, itemsOf, hreply] at hall hstop
                    dsimp only at hall hstop
                    cases hclose : reply.close with
                    | true =>
                        rw [hclose, if_pos rfl] at hall
                        refine .answered (.request r.sock.header) ⟨rfl, by rw [hanswer]; rfl, rfl, rfl⟩
                          (hall ▸ List.prefix_refl _) fun hopen => ?_
                        simp [HttpConn.answer, h.goesOn] at hopen
                    | false =>
                        rw [hclose, if_neg Bool.false_ne_true] at hall hstop
                        have hserving : Serving srv all ({ c with
                            reader := { r with
                              sock := ⟨webserverResetHttpRequestHeader reply.header, false⟩ }
                            closeSocket := c.closeSocket || reply.close
                            errorRequests := 0 + if reply.close then 1 else 0 }.answer
                            (.request r.sock.header) reply.response) :=
                          Serving.behind rfl hstate hhanded.buffer (by rw [hclose, h.goesOn]; rfl)
                            (by rw [hclose]; rfl) hsize hend hall hstop
                        rw [hclose] at hserving
                        exact .answered (.request r.sock.header)
                          ⟨rfl, by rw [hanswer]; rfl, rfl, rfl⟩ hserving.items fun _ => hserving

/-! ### Events -/

theorem Balanced.answers {item : Item} (h : Balanced srv c) (ha : Answers srv c c' item) :
    Balanced srv c' := by
  have hbytes : ((answerOf srv c.items.length item).toList.map Response.output).flatMap Output.rest =
      answerBytes srv c.items.length item := by
    rw [answerBytes]
    cases answerOf srv c.items.length item with
    | none => rfl
    | some response =>
        show response.output.rest ++ [] = response.bytes
        rw [Response.output_rest, List.append_nil]
  rw [Balanced, ha.items, ha.outputList, ha.wire, bytesOf_append, List.flatMap_append, hbytes,
    ← List.append_assoc, h]

theorem Balanced.sent (h : Balanced srv c) : c.wire.sent <+: bytesOf srv c.items := by
  rw [← h]
  exact List.prefix_append _ _

/-- A connection within a read event. -/
structure Reading (srv : HttpServer) (all : List Item × Next) (c : HttpConn) : Prop where
  owner : c.owner = .plain
  items : c.items <+: all.1
  balanced : Balanced srv c
  serving : c.closeSocket = false → Serving srv all c

/-- A connection that nobody here looks at any more. -/
theorem ConnInv.of_away (hitems : c.items <+: all.1) (hsent : c.wire.sent <+: bytesOf srv c.items)
    (howner : c.owner ≠ .plain) : ConnInv srv all c :=
  ⟨hitems, hsent, fun h => absurd h howner, fun h => absurd h howner, fun h => absurd h howner⟩

theorem ConnInv.closeRequest (hitems : c.items <+: all.1)
    (hsent : c.wire.sent <+: bytesOf srv c.items) : ConnInv srv all c.closeRequest :=
  .of_away hitems hsent (by simp [HttpConn.closeRequest])

theorem Reading.finishRead (h : Reading srv all c) (hidle : c.Idle srv) :
    ConnInv srv all c.finishRead := by
  rw [HttpConn.finishRead]
  split_ifs with hclose hempty
  · exact .closeRequest h.items h.balanced.sent
  · exact ⟨h.items, h.balanced.sent, fun _ => h.balanced,
      fun _ hopen => (h.serving hopen).frame rfl rfl rfl rfl,
      fun _ => ⟨hidle, Or.inl ⟨rfl, hempty, fun hc => absurd ⟨hc, hempty⟩ hclose⟩⟩⟩
  · exact ⟨h.items, h.balanced.sent, fun _ => h.balanced,
      fun _ hopen => (h.serving hopen).frame rfl rfl rfl rfl,
      fun _ => ⟨hidle, Or.inr ⟨rfl, hempty⟩⟩⟩

/-- A call behind which the read event is over. -/
theorem Reading.taken (h : Reading srv all c) (hres : ClientResult srv all c c' .taken) :
    ConnInv srv all c' := by
  cases hres with
  | away items wire owner =>
      refine .of_away (items ▸ h.items) ?_ owner
      rw [items, wire]
      exact h.balanced.sent
  | refused header answers armed serving =>
      have hbalanced := h.balanced.answers answers
      refine ⟨serving.items, hbalanced.sent, fun _ => hbalanced, fun _ _ => serving, fun _ => ⟨?_,
        Or.inr ⟨armed, ?_⟩⟩⟩
      · intro hno _
        refine absurd ?_ (hno header)
        rw [answers.items]
        exact List.mem_append_right _ List.mem_cons_self
      · rw [answers.outputList]
        exact List.append_ne_nil_of_right_ne_nil _ (List.cons_ne_nil _ _)

theorem Reading.failed (h : Reading srv all c) (hres : ClientResult srv all c c' .failed) :
    ConnInv srv all c'.closeRequest := by
  cases hres with
  | failed items wire =>
      refine .closeRequest (items ▸ h.items) ?_
      rw [items, wire]
      exact h.balanced.sent

theorem Reading.answered (h : Reading srv all c) (hres : ClientResult srv all c c' .answered) :
    Reading srv all c' := by
  cases hres with
  | answered item answers items serving =>
      exact ⟨answers.owner.trans h.owner, items, h.balanced.answers answers, serving⟩

/-- **The requests that are in the header buffer already.** -/
theorem Reading.buffered (h : Reading srv all c) (hmax : ∀ k, 0 ≤ (srv.post k).maxPostSize.toInt)
    (hend : all.2 ≠ .emptyLine) {calls : List (List RecvAnswer)}
    (hrun : handleBuffered srv calls c = some c') : ConnInv srv all c' := by
  induction calls generalizing c with
  | nil =>
      rw [handleBuffered] at hrun
      split_ifs at hrun with hmore
      cases hrun
      refine h.finishRead fun _ hopen => Or.inl ?_
      by_contra hne
      exact hmore ⟨hopen, hne⟩
  | cons answers calls ih =>
      rw [handleBuffered] at hrun
      split_ifs at hrun with hmore
      · cases hcall : CWebUI.Sockets.handleClient srv answers c with
        | none =>
            rw [hcall] at hrun
            cases hrun
        | some result =>
            obtain ⟨c₁, ret⟩ := result
            have hres := (h.serving hmore.1).handleClient hmax hend hcall
            rw [hcall] at hrun
            cases ret with
            | failed =>
                cases hrun
                exact h.failed hres
            | taken =>
                cases hrun
                exact h.taken hres
            | answered => exact ih (h.answered hres) hrun
            | incomplete =>
                cases hrun
                cases hres with
                | incomplete r heq serving stuck =>
                    cases heq
                    exact Reading.finishRead ⟨h.owner, h.items, h.balanced, fun _ => serving⟩
                      fun _ _ => stuck
      · cases hrun
        refine h.finishRead fun _ hopen => Or.inl ?_
        by_contra hne
        exact hmore ⟨hopen, hne⟩

/-- **A read event.** -/
theorem Reading.read (h : Reading srv all c) (hempty : c.outputList = [])
    (hmax : ∀ k, 0 ≤ (srv.post k).maxPostSize.toInt) (hend : all.2 ≠ .emptyLine)
    {calls : List (List RecvAnswer)} (hrun : handleRead srv calls c = some c') :
    ConnInv srv all c' := by
  unfold handleRead at hrun
  cases hclose : c.closeSocket with
  | true =>
      rw [hclose, if_pos rfl] at hrun
      cases hrun
      exact .closeRequest h.items h.balanced.sent
  | false =>
      rw [hclose, if_neg Bool.false_ne_true] at hrun
      cases calls with
      | nil => cases hrun
      | cons answers calls =>
          dsimp only at hrun
          cases hcall : CWebUI.Sockets.handleClient srv answers c with
          | none =>
              rw [hcall] at hrun
              cases hrun
          | some result =>
              obtain ⟨c₁, ret⟩ := result
              have hres := (h.serving hclose).handleClient hmax hend hcall
              rw [hcall] at hrun
              cases ret with
              | failed =>
                  cases hrun
                  exact h.failed hres
              | taken =>
                  cases hrun
                  exact h.taken hres
              | answered => exact (h.answered hres).buffered hmax hend hrun
              | incomplete =>
                  cases hrun
                  cases hres with
                  | incomplete r heq serving stuck =>
                      cases heq
                      exact ⟨h.items, h.balanced.sent, fun _ => h.balanced,
                        fun _ _ => serving.frame rfl rfl rfl rfl,
                        fun _ => ⟨fun _ _ => stuck, Or.inl ⟨rfl, hempty, fun hc => by
                          rw [show _ = false from hclose] at hc
                          cases hc⟩⟩⟩

/-- A write event that leaves something to send leaves it in the list. -/
theorem handleClientWriteData_pending {sends : Nat → SendAnswer} {outputs outputs' : List Output}
    {w w' : Wire} (h : handleClientWriteData sends outputs w = (.dataPending, outputs', w')) :
    outputs' ≠ [] := by
  induction outputs generalizing w with
  | nil => cases h
  | cons output outputs ih =>
      rw [handleClientWriteData] at h
      revert h
      rcases handleClientWriteDataSendOutputBuffer sends output w with ⟨_ | _ | _, o, w₁⟩
      · exact ih
      · intro h
        cases h
        exact List.cons_ne_nil _ _
      · intro h
        cases h

/-- **A write event.** -/
theorem ConnInv.write (h : ConnInv srv all c) (howner : c.owner = .plain)
    (harmed : c.armed = some .write) (sends : Nat → SendAnswer) : ConnInv srv all (handleWrite sends c) := by
  have hbalanced : c.wire.sent ++ c.outputList.flatMap Output.rest = bytesOf srv c.items :=
    h.balanced howner
  obtain ⟨status, outputs, w, hrun, hdel, hall⟩ :=
    handleClientWriteData_delivers sends c.outputList c.wire
  rw [handleWrite, hrun]
  split_ifs with hclose
  · exact .closeRequest h.items h.sent
  cases status with
  | noMoreData =>
      have hsent : w.sent = bytesOf srv c.items := hdel.1.trans hbalanced
      have hnil := hall rfl
      subst hnil
      have hclosed : ConnInv srv all
          ({ c with outputList := [], wire := w, armed := none } : HttpConn).closeRequest :=
        .closeRequest h.items (hsent ▸ List.prefix_refl _)
      have hread : (c.closeSocket = true → c.reader.sock.header.isWebsocket = 2) →
          ConnInv srv all
            ({ c with outputList := [], wire := w, armed := none } : HttpConn).addEventSocketRead :=
        fun hweb => ⟨h.items, hsent ▸ List.prefix_refl _,
          fun _ => (List.append_nil _).trans hsent,
          fun _ hopen => (h.serving howner hopen).frame rfl rfl rfl rfl,
          fun _ => ⟨(h.waits howner).idle, Or.inl ⟨rfl, rfl, hweb⟩⟩⟩
      dsimp only
      split_ifs with hkeep hclosing hweb
      · exact hclosed
      · exact hread fun hc => absurd hc hclosing
      · exact hread fun _ => hweb
      · exact hclosed
  | dataPending =>
      have hsent : w.sent ++ outputs.flatMap Output.rest = bytesOf srv c.items :=
        (show w.sent ++ outputs.flatMap Output.rest = _ from hdel).trans hbalanced
      have hpending := handleClientWriteData_pending hrun
      exact ⟨h.items, hsent ▸ List.prefix_append _ _, fun _ => hsent,
        fun _ hopen => (h.serving howner hopen).frame rfl rfl rfl rfl,
        fun _ => ⟨(h.waits howner).idle, Or.inr ⟨harmed, hpending⟩⟩⟩
  | clientDisconnected =>
      refine .closeRequest h.items ?_
      rw [← hbalanced]
      exact hdel

/-- **An event keeps the invariant.** -/
theorem ConnInv.step (h : ConnInv srv all c) (hmax : ∀ k, 0 ≤ (srv.post k).maxPostSize.toInt)
    (hend : all.2 ≠ .emptyLine) (hstep : ConnStep srv c c') : ConnInv srv all c' := by
  cases hstep with
  | read calls c' howner harmed hrun =>
      obtain ⟨-, hempty, -⟩ | ⟨hwrite, -⟩ := (h.waits howner).armed
      · have hreading : Reading srv all { c with armed := none } :=
          ⟨howner, h.items, h.balanced howner, fun hopen =>
            (h.serving howner hopen).frame rfl rfl rfl rfl⟩
        exact hreading.read hempty hmax hend hrun
      · cases hwrite.symm.trans harmed
  | write sends howner harmed => exact h.write howner harmed sends
  | timeout howner => exact .closeRequest h.items h.sent

theorem ConnReachable.inv {stream : List UInt8} (h : ConnReachable srv stream c)
    (hmax : ∀ k, 0 ≤ (srv.post k).maxPostSize.toInt)
    (hend : (requestsOf srv stream).2 ≠ .emptyLine) : ConnInv srv (requestsOf srv stream) c := by
  induction h with
  | refl =>
      exact ⟨List.nil_prefix, List.nil_prefix, fun _ => rfl, fun _ _ => acceptedConn_serving hend,
        fun _ => ⟨fun _ _ => Or.inl rfl, Or.inl ⟨rfl, rfl, fun hc => by cases hc⟩⟩⟩
  | tail _ hstep ih => exact ih.step hmax hend hstep

/-! ### A read event returns -/

end Invariant

/-! ## A run -/

/-- A server whose pages are the addresses. -/
def echoServer : HttpServer where
  post := fun _ => defaultServer
  preflight := fun _ _ => {}
  page := fun _ header => ({ body := header.url }, false)
  errorPage := fun _ _ _ => {}

/-- Two requests in one piece, and the beginning of a third. -/
def threeRequests : List UInt8 :=
  ascii "GET /a HTTP/1.1\r\n\r\nGET /b HTTP/1.1\r\n\r\nGET /c"

/-- The connection behind the first read event: the first call of `recv` reaches into the second
request. -/
def afterRead : HttpConn :=
  (handleRead echoServer [[.data 25, .data 0], [.data 100, .data 0], [.data 0]]
    { acceptedConn threeRequests with armed := none }).getD (acceptedConn [])

theorem afterRead_reachable : ConnReachable echoServer threeRequests afterRead := by
  refine .single (.read [[.data 25, .data 0], [.data 100, .data 0], [.data 0]] _ rfl rfl ?_)
  have hsome : (handleRead echoServer [[.data 25, .data 0], [.data 100, .data 0], [.data 0]]
      { acceptedConn threeRequests with armed := none }).isSome = true := by decide +kernel
  rw [afterRead, Option.getD_of_ne_none (Option.isSome_iff_ne_none.mp hsome)]

theorem echoServer_max (k : Nat) : 0 ≤ (echoServer.post k).maxPostSize.toInt :=
  show (0 : Int) ≤ defaultServer.maxPostSize.toInt by decide

theorem threeRequests_lines : (requestsOf echoServer threeRequests).2 ≠ .emptyLine := by
  decide +kernel

/-! ## The results -/

section Results

variable {srv : HttpServer} {stream : List UInt8} {c : HttpConn}

/-- **Requests are answered once, in their order, however they are received and however the answers
are sent.** What has been answered is the beginning of what the stream asks for, and what went to
the client the beginning of the answers; as long as the connection is not handed over or closed,
everything else of them is in the output list. -/
theorem connection_serves (h : ConnReachable srv stream c)
    (hmax : ∀ k, 0 ≤ (srv.post k).maxPostSize.toInt)
    (hline : (requestsOf srv stream).2 ≠ .emptyLine) :
    c.items <+: (requestsOf srv stream).1 ∧ c.wire.sent <+: bytesOf srv c.items ∧
      (c.owner = .plain →
        c.wire.sent ++ c.outputList.flatMap Output.rest = bytesOf srv c.items) :=
  have hinv := h.inv hmax hline
  ⟨hinv.items, hinv.sent, hinv.balanced⟩

theorem connection_serves_two :
    afterRead.items.length = 2 ∧ afterRead.outputList.length = 2 ∧
      afterRead.items <+: (requestsOf echoServer threeRequests).1 :=
  ⟨by decide +kernel, by decide +kernel,
    (connection_serves afterRead_reachable echoServer_max threeRequests_lines).1⟩

end Results

end CWebUI.Sockets
