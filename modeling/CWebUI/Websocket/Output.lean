import CWebUI.Sockets.Output

set_option autoImplicit false

/-! # The output of a websocket

Frames are appended to the chunk list of the socket by any thread, under the mutex of the socket
(`writeChunk`, `server_chunk_functions.c`; `sendWebsocketFrameReal`). The write event sends the
chunks from the front (`handleWebsocket`, `websocket_handler.c`), under the same mutex, so the
appends and the events of a run come one after the other. `websocket_send_pos` is how far the
first chunk has been sent.
-/

namespace CWebUI.Websocket

open CWebUI.Sockets

/-! ## The model -/

/-- The size of an `html_chunk`. -/
def chunkSize : Nat := 2000

/-- The loop of `writeChunk`: with `current`, the last chunk is the one to be filled, else a new
one. The first round may find a full chunk; every other round writes something. -/
def writeChunkLoop : Nat → List (List UInt8) → Bool → List UInt8 → List (List UInt8)
  | 0, chunks, _, _ => chunks
  | rounds + 1, chunks, current, text =>
      if text.isEmpty then chunks
      else
        let chunks := if current then chunks else chunks ++ [[]]
        let chunk := chunks.getLastD []
        let toWrite := min text.length (chunkSize - chunk.length)
        writeChunkLoop rounds (chunks.dropLast ++ [chunk ++ text.take toWrite]) false
          (text.drop toWrite)

/-- `writeChunk` -/
def writeChunk (chunks : List (List UInt8)) (text : List UInt8) : List (List UInt8) :=
  if chunks.isEmpty then writeChunkLoop (text.length + 1) [[]] true text
  else
    writeChunkLoop (text.length + 1) chunks ((chunks.getLastD []).length ≤ chunkSize) text

/-- The loop of `handleWebsocket` at a write event. The flag is false where the function returns
`-1`. -/
def sendChunks (answers : Nat → SendAnswer) :
    List (List UInt8) → Nat → Wire → Bool × List (List UInt8) × Nat × Wire
  | [], pos, w => (true, [], pos, w)
  | chunk :: chunks, pos, w =>
      let toSend := (chunk.drop pos).length
      let (status, sendBytes, w) := w.send answers (chunk.drop pos)
      if sendBytes = toSend then
        -- the chunk is deleted; whatever else the status is, it ends in a return
        if status = .noMoreData then sendChunks answers chunks 0 w
        else (false, chunks, 0, w)
      else if status = .noMoreData then (true, chunk :: chunks, pos + sendBytes, w)
      else (false, chunk :: chunks, pos, w)

/-- The fields of a websocket that its output reads: the chunk list, `websocket_send_pos`,
`closeSocket`, and whether write events are registered. `appended` are the frames that were
put into the list. -/
structure WsOutput where
  chunks : List (List UInt8) := []
  sendPos : Nat := 0
  closeSocket : Bool := false
  writeEvents : Bool := false
  isOpen : Bool := true
  wire : Wire := {}
  appended : List (List UInt8) := []

/-- A frame comes from the output queue or the sweep, the websocket is to be closed when its
output is through, or there is an event on the socket; of a read event, whether `recFrame`
succeeded. -/
inductive OutEvent where
  | append (frame : List UInt8)
  | requestClose
  | read (ok : Bool)
  | write

/-- `sendWebsocketFrameReal` -/
def sendWebsocketFrameReal (s : WsOutput) (frame : List UInt8) : WsOutput :=
  if s.closeSocket then s
  else { s with
    chunks := writeChunk s.chunks frame
    writeEvents := s.writeEvents || s.chunks.isEmpty
    appended := s.appended ++ [frame] }

/-- `handleWebsocket` at a write event, and the result for `websocket_event_handler`. -/
def handleWebsocketWrite (answers : Nat → SendAnswer) (s : WsOutput) : WsOutput :=
  let (ok, chunks, sendPos, wire) := sendChunks answers s.chunks s.sendPos s.wire
  if ok then { s with
    chunks := chunks
    sendPos := sendPos
    wire := wire
    writeEvents := !chunks.isEmpty }
  else { s with
    chunks := chunks
    sendPos := sendPos
    wire := wire
    isOpen := false }

/-- A step; the events go through `websocket_event_handler`, and nothing happens on a socket
that is closed. -/
def WsOutput.step (answers : Nat → SendAnswer) (s : WsOutput) (e : OutEvent) : WsOutput :=
  if s.isOpen then
    match e with
    | .append frame => sendWebsocketFrameReal s frame
    | .requestClose => { s with closeSocket := true }
    | .read ok =>
        if s.closeSocket && s.chunks.isEmpty then { s with isOpen := false }
        else { s with isOpen := ok }
    | .write =>
        if s.closeSocket && s.chunks.isEmpty then { s with isOpen := false }
        else handleWebsocketWrite answers s
  else s

/-- Steps, one after the other. -/
def runWsOutput (answers : Nat → SendAnswer) (events : List OutEvent) : WsOutput :=
  events.foldl (WsOutput.step answers) {}

/-! ## Appending a frame -/

/-- Bytes go to the end of the last chunk. -/
theorem extend_last {l : List (List UInt8)} (hl : l ≠ []) (t : List UInt8) :
    (l.dropLast ++ [l.getLastD [] ++ t]).flatten = l.flatten ++ t ∧
      l.headD [] <+: (l.dropLast ++ [l.getLastD [] ++ t]).headD [] := by
  induction l using List.reverseRecOn with
  | nil => exact absurd rfl hl
  | append_singleton front last _ =>
      rw [List.dropLast_concat, List.getLastD_concat]
      constructor
      · simp
      · cases front <;> simp

theorem writeChunkLoop_spec {rounds : Nat} {chunks : List (List UInt8)} {current : Bool}
    {text : List UInt8} (hchunks : current = true → chunks ≠ [])
    (hrounds : text.length + (if current then 1 else 0) ≤ rounds) :
    (writeChunkLoop rounds chunks current text).flatten = chunks.flatten ++ text ∧
      chunks.headD [] <+: (writeChunkLoop rounds chunks current text).headD [] := by
  induction rounds generalizing chunks current text with
  | zero =>
      have hnil : text = [] := List.length_eq_zero_iff.mp (by omega)
      simp [writeChunkLoop, hnil]
  | succ rounds ih =>
      cases text with
      | nil => simp [writeChunkLoop]
      | cons b text =>
          let chunks' := if current then chunks else chunks ++ [[]]
          let toWrite := min (b :: text).length (chunkSize - (chunks'.getLastD []).length)
          have hne : chunks' ≠ [] := by
            cases current with
            | true => exact hchunks rfl
            | false => simp [chunks']
          have hsame : chunks'.flatten = chunks.flatten ∧ chunks.headD [] <+: chunks'.headD [] := by
            cases current with
            | true => exact ⟨rfl, List.prefix_refl _⟩
            | false => cases chunks <;> simp [chunks']
          -- a new chunk has room
          have hprogress : current = false → 0 < toWrite := by
            intro hnew
            simp only [toWrite, chunks', hnew, chunkSize, Bool.false_eq_true, if_false,
              List.getLastD_concat, List.length_nil, List.length_cons]
            omega
          obtain ⟨hflat, hhead⟩ := extend_last hne ((b :: text).take toWrite)
          obtain ⟨hflat', hhead'⟩ := @ih (chunks'.dropLast ++
            [chunks'.getLastD [] ++ (b :: text).take toWrite]) false ((b :: text).drop toWrite)
            (fun h => absurd h (by simp)) (by
              rw [List.length_drop]
              cases current with
              | true =>
                  simp only [if_true] at hrounds
                  simp only [Bool.false_eq_true, if_false]
                  omega
              | false =>
                  have hpos := hprogress rfl
                  simp only [Bool.false_eq_true, if_false] at hrounds ⊢
                  omega)
          have hstep : writeChunkLoop (rounds + 1) chunks current (b :: text) =
              writeChunkLoop rounds (chunks'.dropLast ++
                [chunks'.getLastD [] ++ (b :: text).take toWrite]) false
                ((b :: text).drop toWrite) := rfl
          rw [hstep]
          constructor
          · rw [hflat', hflat, hsame.1, List.append_assoc, List.take_append_drop]
          · exact hsame.2.trans (hhead.trans hhead')

/-- **`writeChunk`** puts the bytes behind those that wait. -/
theorem writeChunk_spec (chunks : List (List UInt8)) (text : List UInt8) :
    (writeChunk chunks text).flatten = chunks.flatten ++ text ∧
      chunks.headD [] <+: (writeChunk chunks text).headD [] := by
  unfold writeChunk
  cases chunks with
  | nil =>
      have hspec := @writeChunkLoop_spec (text.length + 1) [[]] true text (by simp) (by simp)
      simpa using hspec
  | cons c cs =>
      simp only [List.isEmpty_cons, Bool.false_eq_true, if_false]
      refine writeChunkLoop_spec (by simp) ?_
      split_ifs <;> omega

/-! ## Sending -/

/-- The answer says that the send buffer is full. -/
def IsFull : SendAnswer → Prop
  | .plain ret => ret = -3
  | .tlsWant _ => True
  | _ => False

/-- The answer says that the connection is broken. -/
def IsFailure : SendAnswer → Prop
  | .plain ret => ret ≤ 0 ∧ ret ≠ -3
  | .tlsDisconnected => True
  | .tlsError => True
  | .tlsProtocolError => True
  | _ => False

/-- Short of a failure, the status tells a full buffer from a send that took something. -/
theorem webserverSend_noMoreData_iff {answer : SendAnswer} (hok : ¬ IsFailure answer) (len : Nat) :
    (webserverSend answer len).1 = .noMoreData ↔ ¬ IsFull answer := by
  cases answer with
  | plain ret =>
      simp only [IsFailure, not_and, not_not] at hok
      by_cases hfull : ret = -3
      · subst hfull
        have hmin : min (-3 : Int) len = -3 := by omega
        have hne : (-3 : Int) ≠ len := by omega
        simp only [webserverSend, hmin]
        simp [IsFull, hne]
      · have hpos : 0 < ret := by
          by_contra hneg
          exact hfull (hok (by omega))
        simp only [webserverSend, IsFull]
        split_ifs <;> simp <;> omega
  | tlsWritten => simp [webserverSend, IsFull]
  | tlsWant sent => simp [webserverSend, IsFull]
  | tlsDisconnected => exact absurd trivial hok
  | tlsError => exact absurd trivial hok
  | tlsProtocolError => exact absurd trivial hok

/-- What a write event does: the bytes go out in order, and if it succeeds, the rest is what is
left behind the position. Short of failures it succeeds exactly if no send met a full buffer. -/
theorem sendChunks_spec (answers : Nat → SendAnswer) {chunks : List (List UInt8)} {pos : Nat}
    (w : Wire) (hpos : pos ≤ (chunks.headD []).length) :
    ∃ ok chunks' pos' w', sendChunks answers chunks pos w = (ok, chunks', pos', w') ∧
      w'.sent <+: w.sent ++ chunks.flatten.drop pos ∧
      (ok = true → w'.sent ++ chunks'.flatten.drop pos' = w.sent ++ chunks.flatten.drop pos ∧
        pos' ≤ (chunks'.headD []).length) ∧
      w.calls ≤ w'.calls ∧
      ((∀ i, ¬ IsFailure (answers i)) →
        (ok = true ↔ ∀ i, w.calls ≤ i → i < w'.calls → ¬ IsFull (answers i))) := by
  induction chunks generalizing pos w with
  | nil =>
      refine ⟨true, [], pos, w, rfl, by simp, fun _ => ⟨by simp, hpos⟩, Nat.le_refl _, fun _ => ?_⟩
      exact iff_of_true rfl fun i hle hlt => absurd hlt (Nat.not_lt.mpr hle)
  | cons chunk chunks ih =>
      let r := webserverSend (answers w.calls) (chunk.drop pos).length
      let w₁ : Wire := ⟨w.calls + 1, w.sent ++ (chunk.drop pos).take r.2⟩
      have hpos' : pos ≤ chunk.length := hpos
      have hflat : (chunk :: chunks).flatten.drop pos = chunk.drop pos ++ chunks.flatten := by
        rw [List.flatten_cons, List.drop_append_of_le_length hpos']
      have hstatus : (∀ i, ¬ IsFailure (answers i)) →
          (r.1 = .noMoreData ↔ ¬ IsFull (answers w.calls)) := fun hok =>
        webserverSend_noMoreData_iff (hok w.calls) _
      -- one send: the claim about the answers is about this one
      have hone : ∀ P : Nat → Prop, (∀ i, w.calls ≤ i → i < w₁.calls → P i) ↔ P w.calls := by
        intro P
        constructor
        · intro h
          exact h w.calls (Nat.le_refl _) (Nat.lt_succ_self _)
        · intro h i hle hlt
          rwa [Nat.le_antisymm (Nat.le_of_lt_succ hlt) hle]
      have hstep : sendChunks answers (chunk :: chunks) pos w =
          if r.2 = (chunk.drop pos).length then
            if r.1 = .noMoreData then sendChunks answers chunks 0 w₁ else (false, chunks, 0, w₁)
          else if r.1 = .noMoreData then (true, chunk :: chunks, pos + r.2, w₁)
          else (false, chunk :: chunks, pos, w₁) := rfl
      have hsent : w₁.sent <+: w.sent ++ (chunk :: chunks).flatten.drop pos := by
        rw [hflat]
        refine (List.prefix_append_right_inj _).mpr ?_
        exact (List.take_prefix r.2 _).trans (List.prefix_append ..)
      rw [hstep]
      by_cases hall : r.2 = (chunk.drop pos).length
      · rw [if_pos hall]
        have hsent₁ : w₁.sent = w.sent ++ chunk.drop pos := by
          simp only [w₁, hall, List.take_length]
        by_cases hdata : r.1 = .noMoreData
        · rw [if_pos hdata]
          obtain ⟨ok, chunks', pos', w', hrun, hpre, hrest, hcalls, hiff⟩ :=
            @ih 0 w₁ (Nat.zero_le _)
          have htotal : w₁.sent ++ chunks.flatten.drop 0 =
              w.sent ++ (chunk :: chunks).flatten.drop pos := by
            rw [hflat, hsent₁, List.drop_zero, List.append_assoc]
          refine ⟨ok, chunks', pos', w', hrun, htotal ▸ hpre, fun hok => ?_,
            Nat.le_of_succ_le hcalls, fun hok => ?_⟩
          · exact ⟨(hrest hok).1.trans htotal, (hrest hok).2⟩
          · rw [hiff hok]
            have hfirst : ¬ IsFull (answers w.calls) := (hstatus hok).mp hdata
            constructor
            · intro h i hle hlt
              rcases Nat.eq_or_lt_of_le hle with rfl | hlt'
              · exact hfirst
              · exact h i hlt' hlt
            · intro h i hle hlt
              exact h i (Nat.le_of_succ_le hle) hlt
        · rw [if_neg hdata]
          refine ⟨false, chunks, 0, w₁, rfl, hsent, fun h => absurd h (by simp), Nat.le_succ _,
            fun hok => ?_⟩
          rw [hone, ← hstatus hok]
          simp [hdata]
      · rw [if_neg hall]
        by_cases hdata : r.1 = .noMoreData
        · rw [if_pos hdata]
          have hle : r.2 ≤ (chunk.drop pos).length := webserverSend_le _ _
          have hle' : pos + r.2 ≤ chunk.length := by
            rw [List.length_drop] at hle hall
            omega
          refine ⟨true, chunk :: chunks, pos + r.2, w₁, rfl, hsent, fun _ => ⟨?_, hle'⟩,
            Nat.le_succ _, fun hok => ?_⟩
          · rw [hflat, List.flatten_cons, List.drop_append_of_le_length hle', ← List.drop_drop]
            simp only [w₁, List.append_assoc]
            rw [← List.append_assoc (List.take _ _), List.take_append_drop]
          · rw [hone, ← hstatus hok]
            simp [hdata]
        · rw [if_neg hdata]
          refine ⟨false, chunk :: chunks, pos, w₁, rfl, hsent, fun h => absurd h (by simp),
            Nat.le_succ _, fun hok => ?_⟩
          rw [hone, ← hstatus hok]
          simp [hdata]

/-! ## Runs -/

/-- **The output of a websocket**: what was sent is the beginning of the frames; while the socket
is open the chunks hold the rest, and write events are registered as long as there is one. -/
structure WsOutputInv (s : WsOutput) : Prop where
  sent_prefix : s.wire.sent <+: s.appended.flatten
  rest : s.isOpen = true → s.wire.sent ++ s.chunks.flatten.drop s.sendPos = s.appended.flatten
  pos : s.isOpen = true → s.sendPos ≤ (s.chunks.headD []).length
  events : s.isOpen = true → s.chunks ≠ [] → s.writeEvents = true

variable {s : WsOutput} {answers : Nat → SendAnswer}

/-- A socket that is closed keeps what was sent. -/
theorem WsOutputInv.closed (h : WsOutputInv s) : WsOutputInv { s with isOpen := false } :=
  ⟨h.sent_prefix, fun ho => absurd ho (by simp), fun ho => absurd ho (by simp),
    fun ho => absurd ho (by simp)⟩

theorem WsOutputInv.append (h : WsOutputInv s) (hopen : s.isOpen = true) (frame : List UInt8) :
    WsOutputInv (sendWebsocketFrameReal s frame) := by
  unfold sendWebsocketFrameReal
  by_cases hclose : s.closeSocket = true
  · rw [if_pos hclose]
    exact h
  · rw [if_neg hclose]
    obtain ⟨hflat, hhead⟩ := writeChunk_spec s.chunks frame
    have hpos := h.pos hopen
    have hle : s.sendPos ≤ s.chunks.flatten.length := by
      refine Nat.le_trans hpos ?_
      cases s.chunks <;> simp
    refine ⟨?_, fun _ => ?_, fun _ => Nat.le_trans hpos hhead.length_le, fun _ _ => ?_⟩
    · simp only [List.flatten_append]
      exact h.sent_prefix.trans (List.prefix_append ..)
    · calc s.wire.sent ++ (writeChunk s.chunks frame).flatten.drop s.sendPos
          = s.wire.sent ++ (s.chunks.flatten.drop s.sendPos ++ frame) := by
            rw [hflat, List.drop_append_of_le_length hle]
        _ = s.appended.flatten ++ frame := by rw [← List.append_assoc, h.rest hopen]
        _ = (s.appended ++ [frame]).flatten := by simp
    · simp only [Bool.or_eq_true]
      by_cases hempty : s.chunks = []
      · exact Or.inr (by simp [hempty])
      · exact Or.inl (h.events hopen hempty)

/-- A write event. The socket stays open, short of failures, exactly if no send met a full
buffer. -/
theorem WsOutputInv.write (h : WsOutputInv s) (hopen : s.isOpen = true) :
    WsOutputInv (handleWebsocketWrite answers s) ∧
      s.wire.calls ≤ (handleWebsocketWrite answers s).wire.calls ∧
      ((∀ i, ¬ IsFailure (answers i)) → ((handleWebsocketWrite answers s).isOpen = true ↔
        ∀ i, s.wire.calls ≤ i → i < (handleWebsocketWrite answers s).wire.calls →
          ¬ IsFull (answers i))) := by
  obtain ⟨ok, chunks, pos, w, hrun, hpre, hrest, hcalls, hiff⟩ :=
    sendChunks_spec answers s.wire (h.pos hopen)
  rw [h.rest hopen] at hpre hrest
  cases ok with
  | true =>
      have hres : handleWebsocketWrite answers s =
          { s with chunks := chunks, sendPos := pos, wire := w, writeEvents := !chunks.isEmpty } := by
        simp [handleWebsocketWrite, hrun]
      rw [hres]
      refine ⟨⟨hpre, fun _ => (hrest rfl).1, fun _ => (hrest rfl).2, fun _ hne => ?_⟩, hcalls,
        fun hok => ?_⟩
      · simpa using hne
      · rw [← hiff hok]
        simp [hopen]
  | false =>
      have hres : handleWebsocketWrite answers s =
          { s with chunks := chunks, sendPos := pos, wire := w, isOpen := false } := by
        simp [handleWebsocketWrite, hrun]
      rw [hres]
      refine ⟨⟨hpre, fun ho => absurd ho (by simp), fun ho => absurd ho (by simp),
        fun ho => absurd ho (by simp)⟩, hcalls, fun hok => ?_⟩
      rw [← hiff hok]

theorem WsOutputInv.step (h : WsOutputInv s) (e : OutEvent) : WsOutputInv (s.step answers e) := by
  cases hopen : s.isOpen with
  | false =>
      simp only [WsOutput.step, hopen, Bool.false_eq_true, if_false]
      exact h
  | true =>
      simp only [WsOutput.step, hopen, if_true]
      cases e with
      | append frame => exact h.append hopen frame
      | requestClose =>
          exact ⟨h.sent_prefix, fun _ => h.rest hopen, fun _ => h.pos hopen,
            fun _ => h.events hopen⟩
      | read ok =>
          dsimp only
          split_ifs
          · exact h.closed
          · exact ⟨h.sent_prefix, fun _ => h.rest hopen, fun _ => h.pos hopen,
              fun _ => h.events hopen⟩
      | write =>
          dsimp only
          split_ifs
          · exact h.closed
          · exact (h.write hopen).1

theorem WsOutputInv.run (answers : Nat → SendAnswer) (events : List OutEvent) :
    WsOutputInv (runWsOutput answers events) := by
  induction events using List.reverseRecOn with
  | nil => exact ⟨List.prefix_refl _, fun _ => rfl, fun _ => Nat.zero_le _, fun _ h => absurd rfl h⟩
  | append_singleton events e ih =>
      rw [runWsOutput, List.foldl_append]
      exact ih.step e

/-- The event gives no reason to close the socket. -/
def IsHarmless : OutEvent → Prop
  | .append _ => True
  | .requestClose => False
  | .read ok => ok = true
  | .write => True

/-- **The socket is open exactly as long as no send met a full buffer**, if nothing else closes
it. -/
theorem open_iff_not_full (hok : ∀ i, ¬ IsFailure (answers i)) (events : List OutEvent)
    (hevents : ∀ e ∈ events, IsHarmless e) :
    (runWsOutput answers events).closeSocket = false ∧
      ((runWsOutput answers events).isOpen = true ↔
        ∀ i < (runWsOutput answers events).wire.calls, ¬ IsFull (answers i)) := by
  induction events using List.reverseRecOn with
  | nil =>
      exact ⟨rfl, iff_of_true rfl fun i hi => absurd hi (Nat.not_lt_zero i)⟩
  | append_singleton events e ih =>
      obtain ⟨hclose, hiff⟩ := ih fun e he => hevents e (List.mem_append_left _ he)
      have hharmless := hevents e (by simp)
      have hinv := WsOutputInv.run answers events
      have hrun : runWsOutput answers (events ++ [e]) = (runWsOutput answers events).step answers e := by
        simp [runWsOutput]
      rw [hrun]
      generalize runWsOutput answers events = s at hclose hiff hinv
      cases hopen : s.isOpen with
      | false =>
          simp only [WsOutput.step, hopen, Bool.false_eq_true, if_false]
          exact ⟨hclose, by rw [← hiff, hopen]; simp⟩
      | true =>
          have hnone := hiff.mp hopen
          simp only [WsOutput.step, hopen, if_true]
          cases e with
          | append frame =>
              simp only [sendWebsocketFrameReal, hclose, Bool.false_eq_true, if_false]
              exact ⟨trivial, iff_of_true hopen hnone⟩
          | requestClose => exact absurd hharmless (by simp [IsHarmless])
          | read ok =>
              have hread : ok = true := hharmless
              simp only [hclose, Bool.false_and, Bool.false_eq_true, if_false, hread]
              exact ⟨trivial, iff_of_true trivial hnone⟩
          | write =>
              simp only [hclose, Bool.false_and, Bool.false_eq_true, if_false]
              obtain ⟨-, hcalls, hwrite⟩ := @WsOutputInv.write s answers hinv hopen
              refine ⟨?_, (hwrite hok).trans ⟨fun h i hi => ?_, fun h i _ hi => h i hi⟩⟩
              · simp only [handleWebsocketWrite]
                split_ifs <;> exact hclose
              · by_cases hlt : i < s.wire.calls
                · exact hnone i hlt
                · exact h i (by omega) hi

/-- **The output of a websocket is FIFO, and a full send buffer ends it.** Whatever is appended
and whatever the system answers to the sends, the bytes that went to the client are the beginning
of the frames in the order they were appended, and while the socket is open the chunk list holds
exactly the rest and waits for the next write event. If nothing else closes the socket, it is
open exactly as long as no send has met a full buffer. -/
theorem websocket_output_open_iff (answers : Nat → SendAnswer) (events : List OutEvent) :
    let s := runWsOutput answers events
    s.wire.sent <+: s.appended.flatten ∧
      (s.isOpen = true → s.wire.sent ++ s.chunks.flatten.drop s.sendPos = s.appended.flatten ∧
        (s.chunks ≠ [] → s.writeEvents = true)) ∧
      ((∀ i, ¬ IsFailure (answers i)) → (∀ e ∈ events, IsHarmless e) →
        (s.isOpen = true ↔ ∀ i < s.wire.calls, ¬ IsFull (answers i))) := by
  have hinv := WsOutputInv.run answers events
  refine ⟨hinv.sent_prefix, fun hopen => ⟨hinv.rest hopen, hinv.events hopen⟩, fun hok hevents => ?_⟩
  exact (open_iff_not_full hok events hevents).2

/-- The first chunk of a frame goes out whole, then the send buffer is full: the socket is
closed with the rest of the frame unsent. -/
theorem full_buffer_closes : ¬ ∀ (answers : Nat → SendAnswer) (events : List OutEvent),
    (∀ i, ¬ IsFailure (answers i)) → (∀ e ∈ events, IsHarmless e) →
      (runWsOutput answers events).isOpen = true := by
  intro hall
  have hrun := hall (fun i => if i = 0 then .plain 2000 else .plain (-3))
    [.append (List.replicate 2001 0), .write]
    (fun i => by
      by_cases hi : i = 0
      · simp [hi, IsFailure]
      · simp [hi, IsFailure])
    (fun e he => by
      rcases List.mem_cons.mp he with rfl | he
      · exact trivial
      · rw [List.mem_singleton.mp he]
        exact trivial)
  revert hrun
  decide +kernel

end CWebUI.Websocket
