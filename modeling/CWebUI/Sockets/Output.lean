import Mathlib.Data.List.Induction
import Mathlib.Tactic.Common

set_option autoImplicit false

/-! # Sending, and the output of responses

`WebserverSend` (`system_sockets_send.c`), and above it the output list of a connection: each
completed response is a header, a body and perhaps a file, and goes out in the order of the
requests (`sendData` to `handleClientWriteData`, `system_sockets.c`). A send may take a part of
what it is given, or nothing; the rest waits for the next write event. What the system answers
to the sends is an argument, a function of the number of the send. Of the files, those in memory
are modelled; the others go out through `sendfile`.
-/

namespace CWebUI.Sockets

/-! ## `WebserverSend` -/

/-- `SOCKET_SEND_STATUS` -/
inductive SendStatus where
  | noMoreData
  | clientDisconnected
  | sendBufferFull
  | sslError
  | unknownError
  | sslProtocolError
  deriving DecidableEq, Repr

/-- What the system answers to a send: the value of `PlatformSendSocketNonBlocking`, or, on a TLS
connection, how `WebserverSSLSendNonBlocking` ends; `tlsWant` is a full buffer behind the given
number of bytes. -/
inductive SendAnswer where
  | plain (ret : Int)
  | tlsWritten
  | tlsWant (sent : Nat)
  | tlsDisconnected
  | tlsError
  | tlsProtocolError
  deriving DecidableEq, Repr

/-- `WebserverSend`: the status and the number of bytes that were taken, which is never larger
than the number given. -/
def webserverSend (answer : SendAnswer) (len : Nat) : SendStatus × Nat :=
  match answer with
  | .tlsWritten => (.noMoreData, len)
  | .tlsWant sent => (.sendBufferFull, min sent len)
  | .tlsDisconnected => (.clientDisconnected, 0)
  | .tlsError => (.sslError, 0)
  | .tlsProtocolError => (.sslProtocolError, 0)
  | .plain ret =>
      let ret := min ret len
      if ret = len then (.noMoreData, len)
      -- `CLIENT_SEND_BUFFER_FULL`, `CLIENT_DISCONNECTED`
      else if ret = -3 then (.sendBufferFull, 0)
      else if ret = -1 then (.clientDisconnected, 0)
      else if 0 < ret then (.noMoreData, ret.toNat)
      else (.unknownError, 0)

/-- The sends so far, and the bytes that went to the client. -/
structure Wire where
  calls : Nat := 0
  sent : List UInt8 := []

/-- Send bytes. -/
def Wire.send (answers : Nat → SendAnswer) (w : Wire) (data : List UInt8) :
    SendStatus × Nat × Wire :=
  let r := webserverSend (answers w.calls) data.length
  (r.1, r.2, ⟨w.calls + 1, w.sent ++ data.take r.2⟩)

/-! ## Responses -/

/-- `WRITE_DATA_SIZE` -/
def writeDataSize : Nat := 20000

/-- `CLIENT_WRITE_DATA_STATUS` -/
inductive WriteStatus where
  | noMoreData
  | dataPending
  | clientDisconnected
  deriving DecidableEq, Repr

/-- The loop of `sendData`. It ends when the position is at the end, so its rounds are bounded
by the number of bytes left. -/
def sendLoop (answers : Nat → SendAnswer) (data : List UInt8) :
    Nat → Nat → Wire → WriteStatus × Nat × Wire
  | 0, pos, w => (.noMoreData, pos, w)
  | rounds + 1, pos, w =>
      if pos < data.length then
        let toSend := min (data.length - pos) writeDataSize
        let (status, ret, w) := w.send answers ((data.drop pos).take toSend)
        match status with
        | .noMoreData => sendLoop answers data rounds (pos + ret) w
        | .sendBufferFull => (.dataPending, pos + ret, w)
        | _ => (.clientDisconnected, pos, w)
      else (.noMoreData, pos, w)

/-- `sendData` -/
def sendData (answers : Nat → SendAnswer) (data : List UInt8) (pos : Nat) (w : Wire) :
    WriteStatus × Nat × Wire :=
  sendLoop answers data (data.length - pos) pos w

/-- `output_buffer` -/
structure OutputBuffer where
  buffer : Option (List UInt8) := none
  bufferSendPos : Nat := 0

/-- `socket_file_infos`, of a file in memory -/
structure SocketFileInfos where
  fileInfo : Option (List UInt8) := none
  fileSendPos : Nat := 0

/-- `output_struct` -/
structure Output where
  header : OutputBuffer := {}
  body : OutputBuffer := {}
  fileInfos : SocketFileInfos := {}

/-- One buffer of a response: it is freed when all of it is sent, and when the client is gone. -/
def sendOutputBuffer (answers : Nat → SendAnswer) (b : OutputBuffer) (w : Wire) :
    WriteStatus × OutputBuffer × Wire :=
  match b.buffer with
  | none => (.noMoreData, b, w)
  | some data =>
      let (status, pos, w) := sendData answers data b.bufferSendPos w
      match status with
      | .dataPending => (.dataPending, { b with bufferSendPos := pos }, w)
      | status => (status, {}, w)

/-- `handleClientWriteDataSendRamFile` -/
def handleClientWriteDataSendRamFile (answers : Nat → SendAnswer) (file : SocketFileInfos)
    (w : Wire) : WriteStatus × SocketFileInfos × Wire :=
  match file.fileInfo with
  | none => (.noMoreData, file, w)
  | some data =>
      let (status, pos, w) := sendData answers data file.fileSendPos w
      match status with
      | .dataPending => (.dataPending, { file with fileSendPos := pos }, w)
      | status => (status, {}, w)

/-- `handleClientWriteDataSendOutputBuffer` -/
def handleClientWriteDataSendOutputBuffer (answers : Nat → SendAnswer) (output : Output) (w : Wire) :
    WriteStatus × Output × Wire :=
  let (status, header, w) := sendOutputBuffer answers output.header w
  match status with
  | .dataPending => (.dataPending, { output with header := header }, w)
  | .clientDisconnected => (.clientDisconnected, { output with header := header, body := {} }, w)
  | .noMoreData =>
      let (status, body, w) := sendOutputBuffer answers output.body w
      match status with
      | .dataPending => (.dataPending, { output with header := header, body := body }, w)
      | .clientDisconnected =>
          (.clientDisconnected, { output with header := header, body := body }, w)
      | .noMoreData =>
          let (status, file, w) := handleClientWriteDataSendRamFile answers output.fileInfos w
          (status, ⟨header, body, file⟩, w)

/-- `handleClientWriteData` -/
def handleClientWriteData (answers : Nat → SendAnswer) :
    List Output → Wire → WriteStatus × List Output × Wire
  | [], w => (.noMoreData, [], w)
  | output :: outputs, w =>
      let (status, output, w) := handleClientWriteDataSendOutputBuffer answers output w
      match status with
      | .noMoreData => handleClientWriteData answers outputs w
      | status => (status, output :: outputs, w)

/-! ## Runs of a connection -/

/-- A response as it was completed (`generateOutputBuffer`). -/
structure Response where
  header : Option (List UInt8) := none
  body : Option (List UInt8) := none
  file : Option (List UInt8) := none

/-- What the client is to receive. -/
def Response.bytes (r : Response) : List UInt8 :=
  r.header.getD [] ++ r.body.getD [] ++ r.file.getD []

/-- The entry of the output list. -/
def Response.output (r : Response) : Output where
  header := { buffer := r.header }
  body := { buffer := r.body }
  fileInfos := { fileInfo := r.file }

/-- A response is completed, the socket is ready for writing, or the connection is closed for
another reason. -/
inductive OutputEvent where
  | respond (r : Response)
  | write
  | close

/-- The output list of a connection. -/
structure OutputConn where
  outputs : List Output := []
  wire : Wire := {}
  isOpen : Bool := true

/-- An event on the connection; nothing happens on one that is closed. -/
def OutputConn.step (answers : Nat → SendAnswer) (s : OutputConn) (e : OutputEvent) : OutputConn :=
  if s.isOpen then
    match e with
    | .respond r => { s with outputs := s.outputs ++ [r.output] }
    | .write =>
        let (status, outputs, wire) := handleClientWriteData answers s.outputs s.wire
        ⟨outputs, wire, status ≠ .clientDisconnected⟩
    | .close => { s with isOpen := false }
  else s

/-- Events, one after the other. -/
def runOutput (answers : Nat → SendAnswer) (events : List OutputEvent) : OutputConn :=
  events.foldl (OutputConn.step answers) {}

/-- The responses among the events. -/
def responses (events : List OutputEvent) : List Response :=
  events.filterMap fun
    | .respond r => some r
    | _ => none

/-! ## What a send takes -/

theorem webserverSend_le (answer : SendAnswer) (len : Nat) : (webserverSend answer len).2 ≤ len := by
  cases answer with
  | plain ret =>
      simp only [webserverSend]
      split_ifs
      all_goals
        simp only [Nat.zero_le, Nat.le_refl]
      omega
  | tlsWant sent => exact Nat.min_le_right sent len
  | tlsWritten => exact Nat.le_refl len
  | tlsDisconnected => exact Nat.zero_le len
  | tlsError => exact Nat.zero_le len
  | tlsProtocolError => exact Nat.zero_le len

/-- A send that reports no error and no full buffer took at least one byte. -/
theorem webserverSend_pos {answer : SendAnswer} {len : Nat} (hlen : 0 < len)
    (hstatus : (webserverSend answer len).1 = .noMoreData) : 0 < (webserverSend answer len).2 := by
  cases answer with
  | plain ret =>
      simp only [webserverSend] at hstatus ⊢
      split_ifs at hstatus ⊢ <;> simp_all
  | tlsWritten => exact hlen
  | tlsWant sent => exact absurd hstatus (by simp [webserverSend])
  | tlsDisconnected => exact absurd hstatus (by simp [webserverSend])
  | tlsError => exact absurd hstatus (by simp [webserverSend])
  | tlsProtocolError => exact absurd hstatus (by simp [webserverSend])

/-- A send that failed took nothing. -/
theorem webserverSend_failed {answer : SendAnswer} {len : Nat}
    (hdata : (webserverSend answer len).1 ≠ .noMoreData)
    (hfull : (webserverSend answer len).1 ≠ .sendBufferFull) : (webserverSend answer len).2 = 0 := by
  cases answer with
  | plain ret =>
      simp only [webserverSend] at hdata hfull ⊢
      split_ifs at hdata hfull ⊢ <;> simp_all
  | tlsWritten => exact absurd rfl hdata
  | tlsWant sent => exact absurd rfl hfull
  | tlsDisconnected => rfl
  | tlsError => rfl
  | tlsProtocolError => rfl

/-! ## What is sent and what is left -/

/-- From `before`, what is sent goes out in order and `after` is left; when the client is gone,
nothing else went out. -/
def Delivers (status : WriteStatus) (w w' : Wire) (before after : List UInt8) : Prop :=
  match status with
  | .noMoreData => w'.sent = w.sent ++ before ∧ after = []
  | .dataPending => w'.sent ++ after = w.sent ++ before
  | .clientDisconnected => w'.sent <+: w.sent ++ before

variable {status : WriteStatus} {w w₁ w₂ : Wire} {before after : List UInt8}

/-- All of it is sent, then something else. -/
theorem Delivers.andThen {mid rest : List UInt8} (h : Delivers .noMoreData w w₁ before after)
    (hrest : Delivers status w₁ w₂ mid rest) : Delivers status w w₂ (before ++ mid) rest := by
  have hsent : w₁.sent = w.sent ++ before := h.1
  cases status <;> simp only [Delivers, hsent, List.append_assoc] at hrest ⊢ <;> exact hrest

/-- More waits behind it. -/
theorem Delivers.withMore (h : Delivers status w w₁ before after) (hstatus : status ≠ .noMoreData)
    (more : List UInt8) : Delivers status w w₁ (before ++ more) (after ++ more) := by
  cases status with
  | noMoreData => exact absurd rfl hstatus
  | dataPending =>
      calc w₁.sent ++ (after ++ more) = (w₁.sent ++ after) ++ more := (List.append_assoc ..).symm
        _ = (w.sent ++ before) ++ more := by rw [show w₁.sent ++ after = w.sent ++ before from h]
        _ = w.sent ++ (before ++ more) := List.append_assoc ..
  | clientDisconnected =>
      have hmore : w.sent ++ before <+: w.sent ++ before ++ more := List.prefix_append ..
      rw [List.append_assoc] at hmore
      exact List.IsPrefix.trans h hmore

/-- **`sendData`** -/
theorem sendLoop_delivers (answers : Nat → SendAnswer) (data : List UInt8) {rounds pos : Nat}
    (w : Wire) (hrounds : data.length - pos ≤ rounds) :
    ∃ status pos' w', sendLoop answers data rounds pos w = (status, pos', w') ∧
      Delivers status w w' (data.drop pos) (data.drop pos') := by
  induction rounds generalizing pos w with
  | zero =>
      have hnil : data.drop pos = [] := List.drop_eq_nil_of_le (by omega)
      exact ⟨.noMoreData, pos, w, rfl, by simp [hnil], hnil⟩
  | succ rounds ih =>
      by_cases hpos : pos < data.length
      · let block := (data.drop pos).take (min (data.length - pos) writeDataSize)
        let r := webserverSend (answers w.calls) block.length
        let w₁ : Wire := ⟨w.calls + 1, w.sent ++ block.take r.2⟩
        have hlength : block.length = min (data.length - pos) writeDataSize := by
          simp only [block, List.length_take, List.length_drop]
          omega
        have hle : r.2 ≤ block.length := webserverSend_le _ _
        -- the bytes taken are the next ones of the data
        have htake : block.take r.2 = (data.drop pos).take r.2 := by
          simp only [block, List.take_take]
          congr 1
          omega
        have hmove : w₁.sent ++ data.drop (pos + r.2) = w.sent ++ data.drop pos := by
          simp only [w₁, htake, List.append_assoc]
          rw [← List.drop_drop, List.take_append_drop]
        have hstep : sendLoop answers data (rounds + 1) pos w =
            match r.1 with
            | .noMoreData => sendLoop answers data rounds (pos + r.2) w₁
            | .sendBufferFull => (.dataPending, pos + r.2, w₁)
            | _ => (.clientDisconnected, pos, w₁) := by
          rw [sendLoop, if_pos hpos]
          rfl
        cases hstatus : r.1 with
        | noMoreData =>
            have hprogress : 0 < r.2 := webserverSend_pos (by
              rw [hlength]
              simp only [writeDataSize]
              omega) hstatus
            obtain ⟨status, pos', w', hrun, hrest⟩ := @ih (pos + r.2) w₁ (by omega)
            refine ⟨status, pos', w', by rw [hstep, hstatus]; exact hrun, ?_⟩
            cases status <;> simp only [Delivers, hmove] at hrest ⊢ <;> exact hrest
        | sendBufferFull =>
            exact ⟨.dataPending, pos + r.2, w₁, by rw [hstep, hstatus], hmove⟩
        | clientDisconnected | sslError | unknownError | sslProtocolError =>
            refine ⟨.clientDisconnected, pos, w₁, by rw [hstep, hstatus], ?_⟩
            have hnone : r.2 = 0 := webserverSend_failed
              (by rw [show (webserverSend _ _).1 = r.1 from rfl, hstatus]; simp)
              (by rw [show (webserverSend _ _).1 = r.1 from rfl, hstatus]; simp)
            simp [Delivers, w₁, hnone]
      · have hnil : data.drop pos = [] := List.drop_eq_nil_of_le (by omega)
        refine ⟨.noMoreData, pos, w, by rw [sendLoop, if_neg hpos], ?_, hnil⟩
        simp [hnil]

/-- What is left of a buffer. -/
def OutputBuffer.rest (b : OutputBuffer) : List UInt8 := (b.buffer.getD []).drop b.bufferSendPos

/-- What is left of a file. -/
def SocketFileInfos.rest (f : SocketFileInfos) : List UInt8 :=
  (f.fileInfo.getD []).drop f.fileSendPos

/-- What is left of a response. -/
def Output.rest (output : Output) : List UInt8 :=
  output.header.rest ++ (output.body.rest ++ output.fileInfos.rest)

theorem sendOutputBuffer_delivers (answers : Nat → SendAnswer) (b : OutputBuffer) (w : Wire) :
    ∃ status b' w', sendOutputBuffer answers b w = (status, b', w') ∧
      Delivers status w w' b.rest b'.rest := by
  cases hb : b.buffer with
  | none =>
      have hnil : b.rest = [] := by simp [OutputBuffer.rest, hb]
      refine ⟨.noMoreData, b, w, by simp [sendOutputBuffer, hb], ?_, hnil⟩
      simp [hnil]
  | some data =>
      obtain ⟨status, pos, w', hrun, hdel⟩ :=
        sendLoop_delivers answers data w (Nat.le_refl (data.length - b.bufferSendPos))
      have hrest : b.rest = data.drop b.bufferSendPos := by simp [OutputBuffer.rest, hb]
      rw [← hrest] at hdel
      cases status with
      | noMoreData =>
          exact ⟨.noMoreData, {}, w', by simp [sendOutputBuffer, hb, sendData, hrun], hdel.1, rfl⟩
      | dataPending =>
          refine ⟨.dataPending, { b with bufferSendPos := pos }, w',
            by simp [sendOutputBuffer, hb, sendData, hrun], ?_⟩
          simpa [OutputBuffer.rest, hb] using hdel
      | clientDisconnected =>
          exact ⟨.clientDisconnected, {}, w', by simp [sendOutputBuffer, hb, sendData, hrun], hdel⟩

theorem handleClientWriteDataSendRamFile_delivers (answers : Nat → SendAnswer)
    (file : SocketFileInfos) (w : Wire) :
    ∃ status file' w', handleClientWriteDataSendRamFile answers file w = (status, file', w') ∧
      Delivers status w w' file.rest file'.rest := by
  cases hf : file.fileInfo with
  | none =>
      have hnil : file.rest = [] := by simp [SocketFileInfos.rest, hf]
      refine ⟨.noMoreData, file, w, by simp [handleClientWriteDataSendRamFile, hf], ?_, hnil⟩
      simp [hnil]
  | some data =>
      obtain ⟨status, pos, w', hrun, hdel⟩ :=
        sendLoop_delivers answers data w (Nat.le_refl (data.length - file.fileSendPos))
      have hrest : file.rest = data.drop file.fileSendPos := by simp [SocketFileInfos.rest, hf]
      rw [← hrest] at hdel
      cases status with
      | noMoreData =>
          exact ⟨.noMoreData, {}, w',
            by simp [handleClientWriteDataSendRamFile, hf, sendData, hrun], hdel.1, rfl⟩
      | dataPending =>
          refine ⟨.dataPending, { file with fileSendPos := pos }, w',
            by simp [handleClientWriteDataSendRamFile, hf, sendData, hrun], ?_⟩
          simpa [SocketFileInfos.rest, hf] using hdel
      | clientDisconnected =>
          exact ⟨.clientDisconnected, {}, w',
            by simp [handleClientWriteDataSendRamFile, hf, sendData, hrun], hdel⟩

/-- **One response**: header, body and file go out in this order. -/
theorem handleClientWriteDataSendOutputBuffer_delivers (answers : Nat → SendAnswer)
    (output : Output) (w : Wire) :
    ∃ status output' w',
      handleClientWriteDataSendOutputBuffer answers output w = (status, output', w') ∧
      Delivers status w w' output.rest output'.rest := by
  obtain ⟨status, header, w₁, hheader, hdel₁⟩ := sendOutputBuffer_delivers answers output.header w
  cases status with
  | dataPending =>
      exact ⟨.dataPending, { output with header := header }, w₁,
        by simp [handleClientWriteDataSendOutputBuffer, hheader], hdel₁.withMore (by simp) _⟩
  | clientDisconnected =>
      exact ⟨.clientDisconnected, { output with header := header, body := {} }, w₁,
        by simp [handleClientWriteDataSendOutputBuffer, hheader], hdel₁.withMore (by simp) _⟩
  | noMoreData =>
      obtain ⟨status, body, w₂, hbody, hdel₂⟩ := sendOutputBuffer_delivers answers output.body w₁
      cases status with
      | dataPending =>
          refine ⟨.dataPending, { output with header := header, body := body }, w₂,
            by simp [handleClientWriteDataSendOutputBuffer, hheader, hbody], ?_⟩
          have hboth := hdel₁.andThen (hdel₂.withMore (by simp) output.fileInfos.rest)
          simpa [Output.rest, hdel₁.2] using hboth
      | clientDisconnected =>
          refine ⟨.clientDisconnected, { output with header := header, body := body }, w₂,
            by simp [handleClientWriteDataSendOutputBuffer, hheader, hbody], ?_⟩
          exact hdel₁.andThen (hdel₂.withMore (by simp) output.fileInfos.rest)
      | noMoreData =>
          obtain ⟨status, file, w₃, hfile, hdel₃⟩ :=
            handleClientWriteDataSendRamFile_delivers answers output.fileInfos w₂
          refine ⟨status, ⟨header, body, file⟩, w₃,
            by simp [handleClientWriteDataSendOutputBuffer, hheader, hbody, hfile], ?_⟩
          have hall := hdel₁.andThen (hdel₂.andThen hdel₃)
          simpa [Output.rest, hdel₁.2, hdel₂.2] using hall

/-- **One write event.** -/
theorem handleClientWriteData_delivers (answers : Nat → SendAnswer) (outputs : List Output)
    (w : Wire) :
    ∃ status outputs' w', handleClientWriteData answers outputs w = (status, outputs', w') ∧
      Delivers status w w' (outputs.flatMap Output.rest) (outputs'.flatMap Output.rest) ∧
      (status = .noMoreData → outputs' = []) := by
  induction outputs generalizing w with
  | nil => exact ⟨.noMoreData, [], w, rfl, by simp [Delivers], fun _ => rfl⟩
  | cons output outputs ih =>
      obtain ⟨status, output', w₁, hrun, hdel⟩ :=
        handleClientWriteDataSendOutputBuffer_delivers answers output w
      simp only [List.flatMap_cons]
      by_cases hstatus : status = .noMoreData
      · subst hstatus
        obtain ⟨status, outputs', w₂, hrest, hdel₂, hend⟩ := ih w₁
        refine ⟨status, outputs', w₂, ?_, hdel.andThen hdel₂, hend⟩
        simp [handleClientWriteData, hrun, hrest]
      · refine ⟨status, output' :: outputs, w₁, ?_, hdel.withMore hstatus _,
          fun h => absurd h hstatus⟩
        cases status with
        | noMoreData => exact absurd rfl hstatus
        | dataPending => simp [handleClientWriteData, hrun]
        | clientDisconnected => simp [handleClientWriteData, hrun]

/-! ## Runs -/

/-- **What went out and what is left**, of the bytes of the responses so far. -/
structure OutputInv (s : OutputConn) (all : List UInt8) : Prop where
  sent_prefix : s.wire.sent <+: all
  rest : s.isOpen = true → s.wire.sent ++ s.outputs.flatMap Output.rest = all

theorem Response.output_rest (r : Response) : r.output.rest = r.bytes := by
  simp [Output.rest, OutputBuffer.rest, SocketFileInfos.rest, Response.output, Response.bytes]

/-- The bytes an event adds. -/
def OutputEvent.bytes : OutputEvent → List UInt8
  | .respond r => r.bytes
  | .write => []
  | .close => []

theorem OutputInv.step {s : OutputConn} {all : List UInt8} (h : OutputInv s all)
    (answers : Nat → SendAnswer) (e : OutputEvent) :
    OutputInv (s.step answers e) (all ++ e.bytes) := by
  have hgrow : s.wire.sent <+: all ++ e.bytes := h.sent_prefix.trans (List.prefix_append ..)
  cases hopen : s.isOpen with
  | false =>
      simp only [OutputConn.step, hopen, Bool.false_eq_true, if_false]
      exact ⟨hgrow, fun ho => absurd (hopen.symm.trans ho) (by simp)⟩
  | true =>
      have hrest := h.rest hopen
      simp only [OutputConn.step, hopen, if_true]
      cases e with
      | respond r =>
          refine ⟨hgrow, fun _ => ?_⟩
          simp only [List.flatMap_append, List.flatMap_singleton, Response.output_rest,
            OutputEvent.bytes]
          rw [← List.append_assoc, hrest]
      | close =>
          exact ⟨hgrow, fun ho => absurd ho (by simp)⟩
      | write =>
          obtain ⟨status, outputs', w', hrun, hdel, -⟩ :=
            handleClientWriteData_delivers answers s.outputs s.wire
          simp only [OutputEvent.bytes, List.append_nil, hrun]
          cases status with
          | noMoreData =>
              have hsent : w'.sent = all := hdel.1.trans hrest
              refine ⟨hsent ▸ List.prefix_refl _, fun _ => ?_⟩
              simp only [hdel.2, List.append_nil]
              exact hsent
          | dataPending =>
              have hsent : w'.sent ++ outputs'.flatMap Output.rest = all := hdel.trans hrest
              exact ⟨hsent ▸ List.prefix_append .., fun _ => hsent⟩
          | clientDisconnected =>
              refine ⟨?_, fun ho => absurd ho (by simp)⟩
              rw [← hrest]
              exact hdel

theorem OutputInv.run (answers : Nat → SendAnswer) (events : List OutputEvent) :
    OutputInv (runOutput answers events) ((responses events).flatMap Response.bytes) := by
  induction events using List.reverseRecOn with
  | nil => exact ⟨List.prefix_refl _, fun _ => rfl⟩
  | append_singleton events e ih =>
      have hstep := ih.step answers e
      have hall : (responses (events ++ [e])).flatMap Response.bytes =
          (responses events).flatMap Response.bytes ++ e.bytes := by
        cases e <;> simp [responses, OutputEvent.bytes, List.filterMap_append]
      rw [hall]
      simpa [runOutput] using hstep

/-- **Response output is FIFO.** Whatever the system answers to the sends, the bytes that went to
the client are at every moment the beginning of the responses in the order of the requests, and
while the connection is open the output list is exactly the rest. A write event returns
`NO_MORE_DATA` only when all of it has been sent and the list is empty. -/
theorem response_output_fifo (answers : Nat → SendAnswer) (events : List OutputEvent) :
    let s := runOutput answers events
    let all := (responses events).flatMap Response.bytes
    s.wire.sent <+: all ∧ (s.isOpen = true → s.wire.sent ++ s.outputs.flatMap Output.rest = all) ∧
      ∀ outputs w, s.isOpen = true →
        handleClientWriteData answers s.outputs s.wire = (.noMoreData, outputs, w) →
        w.sent = all ∧ outputs = [] := by
  have hinv := OutputInv.run answers events
  refine ⟨hinv.sent_prefix, hinv.rest, fun outputs w hopen hwrite => ?_⟩
  obtain ⟨status, outputs', w', hrun, hdel, hend⟩ := handleClientWriteData_delivers answers
    (runOutput answers events).outputs (runOutput answers events).wire
  obtain ⟨rfl, rfl, rfl⟩ : status = .noMoreData ∧ outputs' = outputs ∧ w' = w := by
    have hsame := hrun.symm.trans hwrite
    simpa using hsame
  exact ⟨hdel.1.trans (hinv.rest hopen), hend rfl⟩

end CWebUI.Sockets
