import CWebUI.Crypto.Base64Encode
import CWebUI.Crypto.Sha1
import CWebUI.Http.ChunkLists
import CWebUI.Http.KeepAlive

set_option autoImplicit false

/-! # The handshake

A request for the websocket protocol is answered by `checkIskWebsocketConnection`
(`websockets.c`), which queues the refusals, or by `startWebsocketConnection`, which computes the
accept key (`websocketAcceptKey`) and sends it (`sendHeaderWebsocket` of `header_send.c`).

`websocketHandshake_eq` says what a client gets for every header record. The keys that are accepted
are the texts of sixteen bytes in base64; the bits of the last digit that stand for no byte may be
anything.
-/

namespace CWebUI.Websocket

open Base64 ByteString Crypto Http ListLemmas

/-! ## The code -/

/-- The GUID of `websocketAcceptKey`, with its terminator. -/
def protocolGuid : List UInt8 := ascii "258EAFA5-E914-47DA-95CA-C5AB0DC85B11" ++ [0]

/-- `websocketAcceptKey`: the value, and the buffer behind it. `stack` is what the context of the
hash on the stack holds before. -/
def websocketAcceptKey (stack : Sha1Ctx) (key : Option (List UInt8)) (out : List UInt8)
    (outSize : Nat) : Option (Int × List UInt8) :=
  match key with
  | none => some (-1, out)
  | some key =>
      if !validWebsocketKey key || outSize < 29 then some (-1, out)
      else do
        let buffer := key ++ protocolGuid
        let sha1 ← webserverSHA1 stack (buffer.take (buffer.length - 1))
        let out ← (webserverBase64Encode sha1 20 out outSize).toOption
        some (0, out)

/-- The part of `socket_info` that the handshake uses; `outHash` is the memory of
`WebSocketOutHash`. -/
structure HandshakeSocket where
  header : HttpRequestHeader
  outHash : List UInt8
  headerChunkList : List (List UInt8) := []
  websocketChunkList : List (List UInt8) := []

/-- The refusals that `checkIskWebsocketConnection` queues. -/
def queueRefusal (sock : HandshakeSocket) : List (List UInt8) :=
  if isWebsocketRequest sock.header then
    if sock.header.secWebSocketVersion < 13 then
      [ascii "HTTP/1.1 426 Upgrade Required\r\n", ascii "Sec-WebSocket-Version: 13\r\n",
        ascii "\r\n"].foldl writeChunk sock.headerChunkList
    else if !validWebsocketKey (sock.header.secWebSocketKey.getD []) then
      [ascii "HTTP/1.1 400 Bad Request\r\n", ascii "Content-Length: 0\r\n",
        ascii "\r\n"].foldl writeChunk sock.headerChunkList
    else sock.headerChunkList
  else sock.headerChunkList

/-- `sendHeaderWebsocket` -/
def sendHeaderWebsocket (sock : HandshakeSocket) : HandshakeSocket :=
  { sock with
    header := { sock.header with responseStatus := 101 }
    websocketChunkList :=
      [if sock.header.isHttp11 then ascii "HTTP/1.1 101 Switching Protocols\r\n"
        else ascii "HTTP/1.0 101 Switching Protocols\r\n",
        ascii "Upgrade: websocket\r\n",
        ascii "Connection: Upgrade\r\n",
        ascii "Sec-WebSocket-Accept: " ++ sock.header.webSocketOutHash ++ ascii "\r\n",
        ascii "\r\n"].foldl writeChunk sock.websocketChunkList }

/-- `startWebsocketConnection`, up to the response. -/
def startWebsocketConnection (stack : Sha1Ctx) (sock : HandshakeSocket) :
    Option HandshakeSocket :=
  match sock.header.secWebSocketKey with
  | none => some (sendHeaderWebsocket sock)
  | some key => do
      let (_, outHash) ← websocketAcceptKey stack (some key) sock.outHash sock.outHash.length
      some (sendHeaderWebsocket { sock with
        header := { sock.header with webSocketOutHash := cString outHash }
        outHash := outHash })

/-- What a complete header leads to: the check, and the start of an accepted connection. -/
def websocketHandshake (stack : Sha1Ctx) (sock : HandshakeSocket) : Option HandshakeSocket :=
  let checked : HandshakeSocket := { sock with
    header := checkIskWebsocketConnection sock.header
    headerChunkList := queueRefusal sock }
  if checked.header.isWebsocket = 1 then startWebsocketConnection stack checked else some checked

/-! ## The key -/

/-- The characters of the test are the digits. -/
theorem mem_alphabet_iff : ∀ c : UInt8,
    ((65 ≤ c && c ≤ 90) || (97 ≤ c && c ≤ 122) || isDigit c || c == 43 || c == 47) = true ↔
      c ∈ alphabet :=
  forall_byte (by decide +kernel)

theorem validWebsocketKey_eq_true (key : List UInt8) :
    validWebsocketKey key = true ↔
      key.length = 24 ∧ (∀ c ∈ key.take 22, c ∈ alphabet) ∧ key.drop 22 = [pad, pad] := by
  simp only [validWebsocketKey, Bool.and_eq_true, beq_iff_eq, List.all_eq_true, mem_alphabet_iff,
    and_assoc]
  rfl

/-- **A key is valid if and only if it is a text of sixteen bytes.** -/
theorem validWebsocketKey_iff (key : List UInt8) :
    validWebsocketKey key = true ↔ ∃ nonce, decode key = some nonce ∧ nonce.length = 16 := by
  rw [validWebsocketKey_eq_true]
  constructor
  · rintro ⟨hlen, hbody, hpads⟩
    have hkey : key = key.take 22 ++ [pad, pad] := by rw [← hpads, List.take_append_drop]
    obtain ⟨nonce, hnonce, hone⟩ :=
      (decode_two_pads key).mpr ⟨by rw [hlen], key.take 22, hkey, hbody⟩
    have := length_of_decode hnonce
    exact ⟨nonce, hnonce, by omega⟩
  · rintro ⟨nonce, hnonce, h16⟩
    obtain ⟨-, body, rfl, hbody⟩ := (decode_two_pads key).mp ⟨nonce, hnonce, by omega⟩
    have hlen : (body ++ [pad, pad]).length = 24 := by rw [length_of_decode hnonce, h16]
    have h22 : body.length = 22 := by
      rw [List.length_append] at hlen
      exact Nat.add_right_cancel hlen
    refine ⟨hlen, ?_, ?_⟩
    · rw [List.take_left' h22]
      exact hbody
    · rw [List.drop_left' h22]

/-- The keys of a header that are accepted. -/
def GoodKey (header : HttpRequestHeader) : Prop :=
  ∃ nonce, decode (header.secWebSocketKey.getD []) = some nonce ∧ nonce.length = 16

/-! ## The accept key -/

/-- The accept key of a key, as the protocol defines it. -/
def acceptKey (key : List UInt8) : List UInt8 :=
  encode (sha1 (key ++ ascii "258EAFA5-E914-47DA-95CA-C5AB0DC85B11"))

theorem length_acceptKey (key : List UInt8) : (acceptKey key).length = 28 := by
  rw [acceptKey, length_encode, length_sha1]

/-- The accept key and zeros behind it. -/
theorem websocketAcceptKey_eq {stack : Sha1Ctx} (hstack : stack.buffer.length = 64)
    {key out : List UInt8} (hkey : validWebsocketKey key = true) (hout : 29 ≤ out.length)
    (hsize : out.length ≤ intMax) :
    websocketAcceptKey stack (some key) out out.length
      = some (0, acceptKey key ++ List.replicate (out.length - 28) 0) := by
  have hlen : key.length = 24 := ((validWebsocketKey_eq_true key).mp hkey).1
  have hbuffer : (key ++ protocolGuid).take ((key ++ protocolGuid).length - 1)
      = key ++ ascii "258EAFA5-E914-47DA-95CA-C5AB0DC85B11" := by
    rw [protocolGuid, ← List.append_assoc]
    exact List.take_left'
      (by simp only [List.length_append, List.length_singleton, Nat.add_sub_cancel])
  have hsmall : (key ++ ascii "258EAFA5-E914-47DA-95CA-C5AB0DC85B11").length = 60 := by
    rw [List.length_append, hlen]
    rfl
  have hencode := webserverBase64Encode_eq
    (sha1 (key ++ ascii "258EAFA5-E914-47DA-95CA-C5AB0DC85B11"))
    (by rw [length_encode, length_sha1]; decide) (Nat.le_refl out.length) hsize
  have h28 := length_acceptKey key
  rw [acceptKey] at h28
  rw [length_sha1, h28, if_pos (by omega), List.drop_length, List.append_nil] at hencode
  rw [websocketAcceptKey, hkey]
  dsimp only
  rw [if_neg (by simp; omega), hbuffer, webserverSHA1_eq hstack (by omega)]
  show ((webserverBase64Encode _ 20 out out.length).toOption >>= _) = _
  rw [hencode]
  rfl

/-! ## What the client gets -/

/-- The answer to an accepted request with a key. -/
def switchingProtocols (http11 : Bool) (key : List UInt8) : List UInt8 :=
  (if http11 then ascii "HTTP/1.1" else ascii "HTTP/1.0") ++
    ascii " 101 Switching Protocols\r\nUpgrade: websocket\r\nConnection: Upgrade\r\n" ++
    ascii "Sec-WebSocket-Accept: " ++ acceptKey key ++ ascii "\r\n\r\n"

/-- What is queued for a header record. The four cases exclude each other. -/
inductive Answered (sock sock' : HandshakeSocket) : Prop
  /-- No request for the protocol: nothing is queued. -/
  | other (h : isWebsocketRequest sock.header = false)
      (state : sock'.header.isWebsocket = 0)
      (header : sock'.headerChunkList = sock.headerChunkList)
      (websocket : sock'.websocketChunkList = sock.websocketChunkList)
  | version (h : isWebsocketRequest sock.header = true) (old : sock.header.secWebSocketVersion < 13)
      (state : sock'.header.isWebsocket = 2 ∧ sock'.header.responseStatus = 426)
      (header : sock'.headerChunkList.flatten = sock.headerChunkList.flatten ++
        ascii "HTTP/1.1 426 Upgrade Required\r\nSec-WebSocket-Version: 13\r\n\r\n")
      (websocket : sock'.websocketChunkList = sock.websocketChunkList)
  | key (h : isWebsocketRequest sock.header = true) (new : 13 ≤ sock.header.secWebSocketVersion)
      (bad : ¬ GoodKey sock.header)
      (state : sock'.header.isWebsocket = 2 ∧ sock'.header.responseStatus = 400)
      (header : sock'.headerChunkList.flatten = sock.headerChunkList.flatten ++
        ascii "HTTP/1.1 400 Bad Request\r\nContent-Length: 0\r\n\r\n")
      (websocket : sock'.websocketChunkList = sock.websocketChunkList)
  | accepted (h : isWebsocketRequest sock.header = true)
      (new : 13 ≤ sock.header.secWebSocketVersion) (good : GoodKey sock.header)
      (state : sock'.header.isWebsocket = 1 ∧ sock'.header.responseStatus = 101)
      (header : sock'.headerChunkList = sock.headerChunkList)
      (websocket : sock'.websocketChunkList.flatten = sock.websocketChunkList.flatten ++
        switchingProtocols sock.header.isHttp11 (sock.header.secWebSocketKey.getD []))

/-- A request for the protocol has a key. -/
theorem exists_key {header : HttpRequestHeader} (h : isWebsocketRequest header = true) :
    ∃ key, header.secWebSocketKey = some key := by
  unfold isWebsocketRequest at h
  cases hkey : header.secWebSocketKey with
  | none =>
      rw [hkey] at h
      cases h
  | some key => exact ⟨key, rfl⟩

/-- The accept key is a C string. -/
theorem cString_acceptKey (key : List UInt8) (n : Nat) :
    cString (acceptKey key ++ List.replicate (n + 1) 0) = acceptKey key := by
  rw [← List.append_nil (_ ++ _)]
  exact cString_encode _ n []

section Check

variable {header : HttpRequestHeader}

theorem check_other (h : isWebsocketRequest header = false) :
    checkIskWebsocketConnection header = { header with isWebsocket := 0 } := by
  rw [checkIskWebsocketConnection, h]
  rfl

theorem check_version (h : isWebsocketRequest header = true)
    (hold : header.secWebSocketVersion < 13) :
    checkIskWebsocketConnection header
      = { header with isWebsocket := 2, responseStatus := 426 } := by
  rw [checkIskWebsocketConnection, if_pos h, if_pos hold]

theorem check_key (h : isWebsocketRequest header = true)
    (hnew : ¬ header.secWebSocketVersion < 13)
    (hbad : ¬ validWebsocketKey (header.secWebSocketKey.getD []) = true) :
    checkIskWebsocketConnection header
      = { header with isWebsocket := 2, responseStatus := 400 } := by
  rw [checkIskWebsocketConnection, if_pos h, if_neg hnew, if_neg hbad]

theorem check_accepted (h : isWebsocketRequest header = true)
    (hnew : ¬ header.secWebSocketVersion < 13)
    (hgood : validWebsocketKey (header.secWebSocketKey.getD []) = true) :
    checkIskWebsocketConnection header = { header with isWebsocket := 1 } := by
  rw [checkIskWebsocketConnection, if_pos h, if_neg hnew, if_pos hgood]

end Check

/-- The answer that `startWebsocketConnection` queues. -/
theorem startWebsocketConnection_eq {stack : Sha1Ctx} (hstack : stack.buffer.length = 64)
    {sock : HandshakeSocket} (hroom : sock.outHash.length = 40) {key : List UInt8}
    (hkey : sock.header.secWebSocketKey = some key) (hvalid : validWebsocketKey key = true) :
    ∃ sock', startWebsocketConnection stack sock = some sock' ∧
      sock'.header.isWebsocket = sock.header.isWebsocket ∧ sock'.header.responseStatus = 101 ∧
      sock'.headerChunkList = sock.headerChunkList ∧
      sock'.websocketChunkList.flatten = sock.websocketChunkList.flatten ++
        switchingProtocols sock.header.isHttp11 key := by
  have haccept := @websocketAcceptKey_eq _ hstack key sock.outHash hvalid (by omega)
    (by rw [hroom]; decide)
  have hrest : sock.outHash.length - 28 = 11 + 1 := by rw [hroom]
  refine ⟨sendHeaderWebsocket { sock with
      header := { sock.header with webSocketOutHash := acceptKey key }
      outHash := acceptKey key ++ List.replicate (sock.outHash.length - 28) 0 },
    ?_, rfl, rfl, rfl, ?_⟩
  · rw [startWebsocketConnection, hkey]
    dsimp only
    rw [haccept, Option.bind_eq_bind, Option.bind_some, hrest, cString_acceptKey]
  · rw [sendHeaderWebsocket, foldl_writeChunk_flatten, switchingProtocols]
    congr 1
    cases sock.header.isHttp11 <;>
      simp only [List.flatten_cons, List.flatten_nil, if_true, List.append_assoc, List.append_nil] <;>
      rfl

/-- **The answer to every header record.** -/
theorem websocketHandshake_eq {stack : Sha1Ctx} (hstack : stack.buffer.length = 64)
    (sock : HandshakeSocket) (hroom : sock.outHash.length = 40) :
    ∃ sock', websocketHandshake stack sock = some sock' ∧ Answered sock sock' := by
  have hother : (0 : Nat) ≠ 1 := by decide
  have hrefused : (2 : Nat) ≠ 1 := by decide
  rw [websocketHandshake, queueRefusal]
  dsimp only
  cases hrequest : isWebsocketRequest sock.header with
  | false =>
      rw [check_other hrequest, if_neg hother]
      exact ⟨_, rfl, .other hrequest rfl rfl rfl⟩
  | true =>
      obtain ⟨key, hkey⟩ := exists_key hrequest
      have hgood : GoodKey sock.header ↔ validWebsocketKey key = true := by
        rw [GoodKey, hkey, validWebsocketKey_iff]
        rfl
      by_cases hold : sock.header.secWebSocketVersion < 13
      · rw [check_version hrequest hold, if_neg hrefused, if_pos rfl, if_pos hold]
        exact ⟨_, rfl, .version hrequest hold ⟨rfl, rfl⟩ (foldl_writeChunk_flatten _ _) rfl⟩
      have hnew : 13 ≤ sock.header.secWebSocketVersion := Int.not_lt.mp hold
      by_cases hvalid : validWebsocketKey key = true
      · have hvalid' : validWebsocketKey (sock.header.secWebSocketKey.getD []) = true := by
          rwa [hkey]
        rw [check_accepted hrequest hold hvalid', if_pos rfl, if_pos rfl, if_neg hold, hvalid',
          if_neg (by decide)]
        obtain ⟨sock', hrun, hstate, hstatus, hheader, hwebsocket⟩ :=
          @startWebsocketConnection_eq _ hstack
            { sock with header := { sock.header with isWebsocket := 1 } } hroom _ hkey hvalid
        refine ⟨sock', hrun, .accepted hrequest hnew (hgood.mpr hvalid) ⟨hstate, hstatus⟩ hheader ?_⟩
        rw [hwebsocket, hkey]
        rfl
      · have hvalid' : ¬ validWebsocketKey (sock.header.secWebSocketKey.getD []) = true := by
          rwa [hkey]
        rw [check_key hrequest hold hvalid', if_neg hrefused, if_pos rfl, if_neg hold,
          if_pos (by simpa using hvalid')]
        exact ⟨_, rfl, .key hrequest hnew (fun h => hvalid (hgood.mp h)) ⟨rfl, rfl⟩
          (foldl_writeChunk_flatten _ _) rfl⟩

/-- A connection with the key of the example in the standard of the protocol. -/
def exampleSocket : HandshakeSocket where
  header :=
    { upgrade := ascii "WebSocket"
      connection := ascii "keep-alive, Upgrade"
      secWebSocketKey := ascii "dGhlIHNhbXBsZSBub25jZQ=="
      secWebSocketVersion := 13
      isHttp11 := true }
  outHash := List.replicate 40 0

theorem websocketHandshake_eq_example :
    ∃ sock', websocketHandshake Sha1Ctx.cleared exampleSocket = some sock' ∧
      Answered exampleSocket sock' :=
  websocketHandshake_eq rfl exampleSocket rfl

/-- The accept key of the example. -/
example : websocketAcceptKey Sha1Ctx.cleared (some (ascii "dGhlIHNhbXBsZSBub25jZQ=="))
      (List.replicate 29 1) 29
    = some (0, ascii "s3pPLMBiTxaQ9kYGzzhZRbK+xOo=" ++ [0]) := by
  decide +kernel

end CWebUI.Websocket
