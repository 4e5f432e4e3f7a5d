import CWebUI.Http.ChunkLists
import CWebUI.Sockets.LoopClock

set_option autoImplicit false

/-! # The position of a ping

A ping is appended to the output of a websocket, behind what waits there and before what comes
later (`conn_send_ping`, `system_sockets_container.c`). When its last byte has been sent is known
from `ws_chunks_sent`, which counts the chunks that were sent as a whole (`handleWebsocket`,
`websocket_handler.c`), and from how far the first chunk is sent (`ping_out` in
`conn_timeout_action`). Appends, sends and looks of the sweep are under the mutex of the socket,
so they come one after the other.
-/

namespace CWebUI.Timeouts

open CWebUI.Sockets (SendAnswer Wire)
open CWebUI.Websocket (writeChunk chunkSize sendChunks sendChunks_spec writeChunk_spec)
open CWebUI.Http (writeChunk_written writeChunk_last)

/-! ## The model -/

/-- The loop of `handleWebsocket` at a write event, with `ws_chunks_sent`. The flag is false where
the function returns `-1`. -/
def sendCounted (answers : Nat → SendAnswer) :
    List (List UInt8) → Nat → UInt32 → Wire → Bool × List (List UInt8) × Nat × UInt32 × Wire
  | [], pos, wsChunksSent, w => (true, [], pos, wsChunksSent, w)
  | chunk :: chunks, pos, wsChunksSent, w =>
      let toSend := (chunk.drop pos).length
      let (status, sendBytes, w) := w.send answers (chunk.drop pos)
      if sendBytes = toSend then
        -- the chunk is deleted; whatever else the status is, it ends in a return
        if status = .noMoreData then sendCounted answers chunks 0 (wsChunksSent + 1) w
        else (false, chunks, 0, wsChunksSent + 1, w)
      else if status = .noMoreData then (true, chunk :: chunks, pos + sendBytes, wsChunksSent, w)
      else (false, chunk :: chunks, pos, wsChunksSent, w)

/-- A ping that was queued: the chunks of the list behind it, those sent as a whole since then, and
all bytes of the connection up to its last one. The code does not keep them. -/
structure QueuedPing where
  chunks : Nat
  chunksSince : Nat := 0
  bytes : List UInt8

/-- A websocket and its connection. -/
structure PingedSocket where
  sock : TimedSocket
  wire : Wire := {}
  isOpen : Bool := true
  ping : Option QueuedPing := none

/-- What waits to be sent. -/
def PingedSocket.unsent (s : PingedSocket) : List UInt8 :=
  s.sock.websocketChunkList.flatten.drop s.sock.websocketSendPos.toUInt32.toNat

/-- All bytes of the connection: those that were sent, and those that wait. -/
def PingedSocket.stream (s : PingedSocket) : List UInt8 := s.wire.sent ++ s.unsent

/-- A frame comes from the output queue, the sweep looks at the socket or queues a ping, the
websocket is to be closed when its output is through, or there is an event on the socket; of a read
event, whether `recFrame` succeeded. -/
inductive PingEvent where
  | append (frame : List UInt8)
  | look (cfg : TimeoutConfig) (now : UInt32)
  | ping (now : UInt32)
  | requestClose
  | read (now : UInt32) (ok : Bool)
  | write

/-- `sendWebsocketFrameReal` -/
def PingedSocket.append (s : PingedSocket) (frame : List UInt8) : PingedSocket :=
  if s.sock.closeSocket then s
  else { s with sock := { s.sock with
    websocketChunkList := writeChunk s.sock.websocketChunkList frame
    writeEvents := s.sock.writeEvents || s.sock.websocketChunkList.isEmpty } }

/-- `conn_timeout_action` of a websocket. -/
def PingedSocket.look (s : PingedSocket) (cfg : TimeoutConfig) (now : UInt32) : PingedSocket :=
  { s with sock :=
    (connTimeoutWebsocket cfg now s.sock (!s.sock.websocketChunkList.isEmpty) (pingOut s.sock)).2 }

/-- `conn_send_ping` -/
def PingedSocket.queuePing (s : PingedSocket) (now : UInt32) : PingedSocket :=
  if s.sock.closeSocket then s
  else { s with
    sock := connSendPing now s.sock
    ping := some {
      chunks := (connSendPing now s.sock).websocketChunkList.length
      bytes := s.stream ++ pingFrame } }

/-- `handleWebsocket` at a write event, and the result for `websocket_event_handler`. -/
def PingedSocket.write (answers : Nat → SendAnswer) (s : PingedSocket) : PingedSocket :=
  let (ok, chunks, sendPos, wsChunksSent, wire) := sendCounted answers s.sock.websocketChunkList
    s.sock.websocketSendPos.toUInt32.toNat s.sock.wsChunksSent s.wire
  let gone := s.sock.websocketChunkList.length - chunks.length
  { s with
    sock := { s.sock with
      websocketChunkList := chunks
      websocketSendPos := Int32.ofNat sendPos
      wsChunksSent := wsChunksSent
      writeEvents := if ok then !chunks.isEmpty else s.sock.writeEvents }
    wire := wire
    isOpen := ok
    ping := s.ping.map fun p => { p with chunksSince := p.chunksSince + gone } }

/-- A step; nothing happens on a socket that is closed. -/
def PingedSocket.step (answers : Nat → SendAnswer) (s : PingedSocket) (e : PingEvent) :
    PingedSocket :=
  if s.isOpen then
    match e with
    | .append frame => s.append frame
    | .look cfg now => s.look cfg now
    | .ping now => s.queuePing now
    | .requestClose => { s with sock := { s.sock with closeSocket := true } }
    | .read now ok =>
        if s.sock.closeSocket && s.sock.websocketChunkList.isEmpty then { s with isOpen := false }
        else { s with sock := { s.sock with rxAt := now }, isOpen := ok }
    | .write =>
        if s.sock.closeSocket && s.sock.websocketChunkList.isEmpty then { s with isOpen := false }
        else s.write answers
  else s

/-- Steps, one after the other. -/
def runPings (answers : Nat → SendAnswer) (s : PingedSocket) (events : List PingEvent) :
    PingedSocket :=
  events.foldl (PingedSocket.step answers) s

/-! ## Sending -/

/-- The loop sends as the one without the counter does, and counts the chunks that are gone. -/
theorem sendCounted_eq (answers : Nat → SendAnswer) (chunks : List (List UInt8)) (pos : Nat)
    (wsChunksSent : UInt32) (w : Wire) :
    ∃ ok gone pos' w', sendChunks answers chunks pos w = (ok, chunks.drop gone, pos', w') ∧
      gone ≤ chunks.length ∧ w.sent <+: w'.sent ∧
      sendCounted answers chunks pos wsChunksSent w =
        (ok, chunks.drop gone, pos', wsChunksSent + UInt32.ofNat gone, w') := by
  induction chunks generalizing pos wsChunksSent w with
  | nil => exact ⟨true, 0, pos, w, rfl, Nat.le_refl _, List.prefix_rfl, by simp [sendCounted]⟩
  | cons chunk chunks ih =>
      rcases hsend : w.send answers (chunk.drop pos) with ⟨status, sendBytes, w₁⟩
      have hmore : w.sent <+: w₁.sent := by
        unfold Wire.send at hsend
        cases hsend
        exact List.prefix_append _ _
      by_cases hall : sendBytes = (chunk.drop pos).length
      · by_cases hdata : status = .noMoreData
        · obtain ⟨ok, gone, pos', w', hplain, hgone, hmore', hcounted⟩ :=
            ih 0 (wsChunksSent + 1) w₁
          refine ⟨ok, gone + 1, pos', w', ?_, Nat.succ_le_succ hgone, hmore.trans hmore', ?_⟩
          · simp only [sendChunks, hsend, if_pos hall, if_pos hdata, hplain, List.drop_succ_cons]
          · simp only [sendCounted, hsend, if_pos hall, if_pos hdata, hcounted,
              List.drop_succ_cons]
            rw [UInt32.ofNat_add, UInt32.add_assoc, UInt32.add_comm (UInt32.ofNat gone)]
            rfl
        · refine ⟨false, 1, 0, w₁, ?_, Nat.le_add_left 1 _, hmore, ?_⟩
          · simp only [sendChunks, hsend, if_pos hall, if_neg hdata, List.drop_succ_cons,
              List.drop_zero]
          · simp only [sendCounted, hsend, if_pos hall, if_neg hdata, List.drop_succ_cons,
              List.drop_zero]
            rfl
      · by_cases hdata : status = .noMoreData
        · refine ⟨true, 0, pos + sendBytes, w₁, ?_, Nat.zero_le _, hmore, ?_⟩
          · simp only [sendChunks, hsend, if_neg hall, if_pos hdata, List.drop_zero]
          · simp only [sendCounted, hsend, if_neg hall, if_pos hdata, List.drop_zero]
            exact Prod.ext rfl (by simp)
        · refine ⟨false, 0, pos, w₁, ?_, Nat.zero_le _, hmore, ?_⟩
          · simp only [sendChunks, hsend, if_neg hall, if_neg hdata, List.drop_zero]
          · simp only [sendCounted, hsend, if_neg hall, if_neg hdata, List.drop_zero]
            exact Prod.ext rfl (by simp)

/-! ## The place of the ping -/

/-- `websocket_send_pos` -/
theorem toNat_sendPos {n : Nat} (h : n < 2 ^ 32) : (Int32.ofNat n).toUInt32.toNat = n := by
  rw [Int32.toUInt32_ofNat', UInt32.toNat_ofNat', Nat.mod_eq_of_lt h]

/-- The ping is out, or its last byte is byte `wsPingEnd` of the chunk behind those that have to be
sent first. -/
def PingPlace (s : PingedSocket) (p : QueuedPing) : Prop :=
  (p.chunks ≤ p.chunksSince ∧ p.bytes.length ≤ s.wire.sent.length) ∨
  ∃ front chunk rest, s.sock.websocketChunkList = front ++ chunk :: rest ∧
    p.chunksSince + front.length + 1 = p.chunks ∧
    0 < s.sock.wsPingEnd.toNat ∧ s.sock.wsPingEnd.toNat ≤ chunk.length ∧
    p.bytes.length + s.sock.websocketSendPos.toUInt32.toNat =
      s.wire.sent.length + front.flatten.length + s.sock.wsPingEnd.toNat

/-- What is known of a queued ping. -/
structure PingTracked (s : PingedSocket) (p : QueuedPing) : Prop where
  bytes : p.bytes <+: s.stream
  seq : s.sock.wsPingSeq + UInt32.ofNat p.chunksSince =
    s.sock.wsChunksSent + UInt32.ofNat p.chunks
  place : PingPlace s p

/-- The chunks and the position in the first of them, and the ping, as long as the socket is
open. -/
structure PingInv (s : PingedSocket) : Prop where
  fits : ∀ c ∈ s.sock.websocketChunkList, c.length ≤ chunkSize
  pos : s.sock.websocketSendPos.toUInt32.toNat ≤ (s.sock.websocketChunkList.headD []).length
  tracked : ∀ p, s.ping = some p → PingTracked s p

/-- **The test** for a ping that is tracked. -/
theorem PingTracked.pingOut_iff {s : PingedSocket} {p : QueuedPing} (h : PingTracked s p)
    (hpos : s.sock.websocketSendPos.toUInt32.toNat ≤
      (s.sock.websocketChunkList.headD []).length)
    (hchunks : p.chunks < 2 ^ 31) (hsince : p.chunksSince < 2 ^ 31) :
    pingOut s.sock = true ↔ p.bytes <+: s.wire.sent := by
  have hprefix : p.bytes <+: s.wire.sent ↔ p.bytes.length ≤ s.wire.sent.length :=
    ⟨List.IsPrefix.length_le, List.prefix_of_prefix_length_le h.bytes (List.prefix_append _ _)⟩
  have hseq := congrArg UInt32.toNat h.seq
  rw [UInt32.toNat_add, UInt32.toNat_add, UInt32.toNat_ofNat', UInt32.toNat_ofNat'] at hseq
  have hpingSeq := s.sock.wsPingSeq.toNat_lt
  have hsent := s.sock.wsChunksSent.toNat_lt
  have hgone : 0 ≤ (s.sock.wsChunksSent - s.sock.wsPingSeq).toInt32 ↔
      p.chunks ≤ p.chunksSince := by
    rw [Int32.le_iff_toInt_le, Int32.toInt_zero, toInt_toInt32, UInt32.toNat_sub]
    split <;> omega
  have hfirst : s.sock.wsChunksSent + 1 = s.sock.wsPingSeq ↔ p.chunksSince + 1 = p.chunks := by
    rw [← UInt32.toNat_inj, UInt32.toNat_add, UInt32.toNat_one]
    omega
  unfold pingOut
  rw [Bool.or_eq_true, Bool.and_eq_true, decide_eq_true_eq, decide_eq_true_eq, decide_eq_true_eq,
    hgone, hfirst, UInt32.le_iff_toNat_le, hprefix]
  rcases h.place with ⟨hout, hlength⟩ | ⟨front, chunk, rest, hlist, hplace, hend, hwithin, hbytes⟩
  · exact iff_of_true (Or.inl hout) hlength
  · cases front with
    | nil =>
        -- the ping ends in the first chunk
        rw [List.length_nil] at hplace
        rw [List.flatten_nil, List.length_nil] at hbytes
        omega
    | cons first front =>
        rw [hlist] at hpos
        have hpos' : s.sock.websocketSendPos.toUInt32.toNat ≤ first.length := hpos
        rw [List.length_cons] at hplace
        rw [List.flatten_cons, List.length_append] at hbytes
        omega

/-! ## The steps -/

variable {s : PingedSocket}

theorem sendPos_le (hpos : s.sock.websocketSendPos.toUInt32.toNat ≤
      (s.sock.websocketChunkList.headD []).length) :
    s.sock.websocketSendPos.toUInt32.toNat ≤ s.sock.websocketChunkList.flatten.length := by
  refine Nat.le_trans hpos ?_
  cases s.sock.websocketChunkList with
  | nil => exact Nat.le_refl _
  | cons c cs =>
      rw [List.flatten_cons, List.length_append]
      exact Nat.le_add_right _ _

theorem stream_length (hpos : s.sock.websocketSendPos.toUInt32.toNat ≤
      (s.sock.websocketChunkList.headD []).length) :
    s.stream.length + s.sock.websocketSendPos.toUInt32.toNat =
      s.wire.sent.length + s.sock.websocketChunkList.flatten.length := by
  have hroom := sendPos_le hpos
  rw [PingedSocket.stream, PingedSocket.unsent, List.length_append, List.length_drop]
  omega

/-- Bytes come behind those that wait. -/
theorem stream_append {s s' : PingedSocket} {frame : List UInt8}
    (hpos : s.sock.websocketSendPos.toUInt32.toNat ≤
      (s.sock.websocketChunkList.headD []).length)
    (hlist : s'.sock.websocketChunkList = writeChunk s.sock.websocketChunkList frame)
    (hsame : s'.sock.websocketSendPos = s.sock.websocketSendPos) (hwire : s'.wire = s.wire) :
    s'.stream = s.stream ++ frame := by
  rw [PingedSocket.stream, PingedSocket.stream, PingedSocket.unsent, PingedSocket.unsent, hlist,
    hsame, hwire, (writeChunk_spec _ frame).1, List.drop_append_of_le_length (sendPos_le hpos),
    List.append_assoc]

/-- A ping that is tracked stays so when bytes are appended. -/
theorem PingTracked.append {s s' : PingedSocket} {p : QueuedPing} {frame : List UInt8}
    (h : PingTracked s p)
    (hpos : s.sock.websocketSendPos.toUInt32.toNat ≤
      (s.sock.websocketChunkList.headD []).length)
    (hlist : s'.sock.websocketChunkList = writeChunk s.sock.websocketChunkList frame)
    (hsame : s'.sock.websocketSendPos = s.sock.websocketSendPos) (hwire : s'.wire = s.wire)
    (hsent : s'.sock.wsChunksSent = s.sock.wsChunksSent)
    (hseq : s'.sock.wsPingSeq = s.sock.wsPingSeq) (hend : s'.sock.wsPingEnd = s.sock.wsPingEnd) :
    PingTracked s' p := by
  refine ⟨?_, by rw [hsent, hseq]; exact h.seq, ?_⟩
  · rw [stream_append hpos hlist hsame hwire]
    exact h.bytes.trans (List.prefix_append _ _)
  · rcases h.place with hout | ⟨front, chunk, rest, hchunks, hplace, hpositive, hwithin, hbytes⟩
    · refine Or.inl ?_
      rw [hwire]
      exact hout
    · refine Or.inr ?_
      rw [hlist, hsame, hwire, hend]
      have hwritten := writeChunk_written s.sock.websocketChunkList frame
      rcases List.eq_nil_or_concat rest with rfl | ⟨middle, last, rfl⟩
      · -- the chunk of the ping is the last one, and grows
        obtain ⟨more, rest', hmore⟩ := hwritten.front front chunk hchunks
        refine ⟨front, chunk ++ more, rest', hmore, hplace, hpositive, ?_, hbytes⟩
        rw [List.length_append]
        omega
      · obtain ⟨more, rest', hmore⟩ := hwritten.front (front ++ chunk :: middle) last (by
          rw [hchunks, List.concat_eq_append, List.append_assoc, List.cons_append])
        exact ⟨front, chunk, middle ++ (last ++ more) :: rest', by
          rw [hmore, List.append_assoc, List.cons_append], hplace, hpositive, hwithin, hbytes⟩

/-- The position stays in the first chunk when bytes are appended. -/
theorem PingInv.pos_append (h : PingInv s) (frame : List UInt8) :
    s.sock.websocketSendPos.toUInt32.toNat ≤
      ((writeChunk s.sock.websocketChunkList frame).headD []).length :=
  Nat.le_trans h.pos (writeChunk_spec _ frame).2.length_le

theorem PingInv.append (h : PingInv s) (frame : List UInt8) : PingInv (s.append frame) := by
  unfold PingedSocket.append
  split
  · exact h
  · exact ⟨(writeChunk_written _ frame).fits h.fits, h.pos_append frame,
      fun p hp => (h.tracked p hp).append h.pos rfl rfl rfl rfl rfl rfl⟩

/-- What a look at a websocket keeps. -/
structure SameOutput (sock sock' : TimedSocket) : Prop where
  chunkList : sock'.websocketChunkList = sock.websocketChunkList
  sendPos : sock'.websocketSendPos = sock.websocketSendPos
  chunksSent : sock'.wsChunksSent = sock.wsChunksSent
  pingSeq : sock'.wsPingSeq = sock.wsPingSeq
  pingEnd : sock'.wsPingEnd = sock.wsPingEnd

theorem connTimeoutWebsocket_sameOutput (cfg : TimeoutConfig) (now : UInt32) (sock : TimedSocket)
    (outWaiting pingOut : Bool) :
    SameOutput sock (connTimeoutWebsocket cfg now sock outWaiting pingOut).2 := by
  have hsince : SameOutput sock (noteOutSince now sock outWaiting) := by
    unfold noteOutSince
    split_ifs <;> exact ⟨rfl, rfl, rfl, rfl, rfl⟩
  have hping : ∀ sock', SameOutput sock sock' →
      SameOutput sock (connTimeoutPing cfg now sock' outWaiting pingOut).2 := by
    rintro sock' ⟨hchunks, hpos, hsent, hseq, hend⟩
    unfold connTimeoutPing awaitPong
    split_ifs <;> exact ⟨hchunks, hpos, hsent, hseq, hend⟩
  unfold connTimeoutWebsocket
  split_ifs
  · exact ⟨rfl, rfl, rfl, rfl, rfl⟩
  · exact hping _ hsince

/-- What is kept of a socket is all that the invariant reads. -/
theorem PingInv.sameOutput {sock' : TimedSocket} (h : PingInv s) (hsame : SameOutput s.sock sock')
    (isOpen : Bool) : PingInv { s with sock := sock', isOpen := isOpen } := by
  obtain ⟨hchunks, hpos, hsent, hseq, hend⟩ := hsame
  refine ⟨?_, ?_, fun p hp => ?_⟩
  · rw [hchunks]
    exact h.fits
  · rw [hchunks, hpos]
    exact h.pos
  · obtain ⟨hbytes, hcounted, hplace⟩ := h.tracked p hp
    refine ⟨?_, ?_, ?_⟩
    · rw [PingedSocket.stream, PingedSocket.unsent, hchunks, hpos]
      exact hbytes
    · rw [hseq, hsent]
      exact hcounted
    · rw [PingPlace, hchunks, hpos, hend]
      exact hplace

/-- A ping that was queued just now. -/
theorem PingTracked.queued {s s' : PingedSocket} (h : PingInv s)
    (hlist : s'.sock.websocketChunkList = writeChunk s.sock.websocketChunkList pingFrame)
    (hsame : s'.sock.websocketSendPos = s.sock.websocketSendPos) (hwire : s'.wire = s.wire)
    (hsent : s'.sock.wsChunksSent = s.sock.wsChunksSent)
    (hseq : s'.sock.wsPingSeq =
      s.sock.wsChunksSent + UInt32.ofNat s'.sock.websocketChunkList.length)
    (hend : s'.sock.wsPingEnd =
      UInt32.ofNat (s'.sock.websocketChunkList.getLastD []).length) :
    PingTracked s' {
      chunks := s'.sock.websocketChunkList.length
      bytes := s.stream ++ pingFrame } := by
  refine ⟨?_, ?_, Or.inr ?_⟩
  · exact stream_append h.pos hlist hsame hwire ▸ List.prefix_rfl
  · rw [hseq, hsent]
    exact UInt32.add_zero _
  · have hfits := (writeChunk_written s.sock.websocketChunkList pingFrame).fits h.fits
    have hlast := @writeChunk_last s.sock.websocketChunkList pingFrame (List.cons_ne_nil _ _)
    have hflat := (writeChunk_spec s.sock.websocketChunkList pingFrame).1
    rw [← hlist] at hfits hlast hflat
    rw [hend]
    rcases List.eq_nil_or_concat s'.sock.websocketChunkList with hnil | ⟨front, last, hconcat⟩
    · rw [hnil] at hlast
      exact absurd rfl hlast
    · rw [List.concat_eq_append] at hconcat
      rw [hconcat] at hfits hlast hflat ⊢
      rw [List.getLastD_concat] at hlast ⊢
      have hlength : last.length ≤ chunkSize :=
        hfits last (List.mem_append_right _ (List.mem_singleton_self _))
      have hsize : (UInt32.ofNat last.length).toNat = last.length := by
        rw [UInt32.toNat_ofNat', Nat.mod_eq_of_lt (Nat.lt_of_le_of_lt hlength (by decide))]
      refine ⟨front, last, [], rfl, ?_, ?_, ?_, ?_⟩
      · rw [List.length_append, List.length_singleton, Nat.zero_add]
      · rw [hsize]
        exact List.length_pos_iff.mpr hlast
      · rw [hsize]
      · have htotal := congrArg List.length hflat
        have hstream := stream_length h.pos
        rw [List.flatten_append, List.flatten_singleton, List.length_append,
          List.length_append] at htotal
        rw [hsize, hsame, hwire, List.length_append]
        omega

theorem PingInv.queuePing (h : PingInv s) (now : UInt32) : PingInv (s.queuePing now) := by
  unfold PingedSocket.queuePing
  split
  · exact h
  · rename_i hclose
    unfold connSendPing
    rw [if_neg hclose]
    refine ⟨(writeChunk_written _ pingFrame).fits h.fits, h.pos_append pingFrame, ?_⟩
    rintro p ⟨⟩
    exact PingTracked.queued h rfl rfl rfl rfl rfl rfl

/-- A ping that is tracked stays so when the first chunks are sent. -/
theorem PingTracked.sent {s s' : PingedSocket} {p : QueuedPing} {gone : Nat} (h : PingTracked s p)
    (hlist : s'.sock.websocketChunkList = s.sock.websocketChunkList.drop gone)
    (hgone : gone ≤ s.sock.websocketChunkList.length) (hstream : s'.stream = s.stream)
    (hpos : s.sock.websocketSendPos.toUInt32.toNat ≤
      (s.sock.websocketChunkList.headD []).length)
    (hpos' : s'.sock.websocketSendPos.toUInt32.toNat ≤
      (s'.sock.websocketChunkList.headD []).length)
    (hsent : s'.sock.wsChunksSent = s.sock.wsChunksSent + UInt32.ofNat gone)
    (hseq : s'.sock.wsPingSeq = s.sock.wsPingSeq) (hend : s'.sock.wsPingEnd = s.sock.wsPingEnd)
    (hmore : s.wire.sent.length ≤ s'.wire.sent.length) :
    PingTracked s' { p with chunksSince := p.chunksSince + gone } := by
  refine ⟨hstream ▸ h.bytes, ?_, ?_⟩
  · rw [hsent, hseq, UInt32.ofNat_add, ← UInt32.add_assoc, h.seq, UInt32.add_assoc,
      UInt32.add_assoc, UInt32.add_comm (UInt32.ofNat p.chunks)]
  · rcases h.place with ⟨hout, hlength⟩ |
      ⟨front, chunk, rest, hchunks, hplace, hend', hwithin, hbytes⟩
    · exact Or.inl ⟨Nat.le_add_right_of_le hout, Nat.le_trans hlength hmore⟩
    · have hlength := stream_length hpos
      have hlength' := stream_length hpos'
      rw [hstream, hlist] at hlength'
      rw [hchunks] at hlength hlength' hlist hgone
      rw [PingPlace]
      dsimp only
      by_cases hbefore : gone ≤ front.length
      · refine Or.inr ⟨front.drop gone, chunk, rest, ?_, ?_, hend ▸ hend', hend ▸ hwithin, ?_⟩
        · rw [hlist, List.drop_append_of_le_length hbefore]
        · rw [List.length_drop]
          omega
        · rw [List.drop_append_of_le_length hbefore] at hlength'
          rw [List.flatten_append, List.length_append] at hlength hlength'
          rw [hend]
          omega
      · -- the chunk of the ping is gone
        refine Or.inl ⟨?_, ?_⟩
        · omega
        · obtain ⟨k, rfl⟩ : ∃ k, gone = front.length + 1 + k :=
            ⟨gone - (front.length + 1), by omega⟩
          have hdrop : (front ++ chunk :: rest).drop (front.length + 1 + k) = rest.drop k := by
            rw [List.append_cons, ← List.drop_drop]
            congr 1
            exact List.drop_left' (by simp)
          have hrest : (rest.drop k).flatten.length ≤ rest.flatten.length := by
            conv_rhs => rw [← List.take_append_drop k rest, List.flatten_append, List.length_append]
            exact Nat.le_add_left _ _
          rw [hdrop] at hlength'
          rw [List.flatten_append, List.flatten_cons, List.length_append,
            List.length_append] at hlength
          omega

/-- A write event that succeeds. One that does not closes the socket. -/
theorem PingInv.write (h : PingInv s) (answers : Nat → SendAnswer)
    (hopen : (s.write answers).isOpen = true) : PingInv (s.write answers) := by
  obtain ⟨ok, gone, pos, wire, hplain, hgone, hmore, hcounted⟩ := sendCounted_eq answers
    s.sock.websocketChunkList s.sock.websocketSendPos.toUInt32.toNat s.sock.wsChunksSent s.wire
  obtain ⟨ok', chunks', pos'', wire', hrun, -, hkept, -⟩ := sendChunks_spec answers s.wire h.pos
  rw [hplain] at hrun
  cases hrun
  unfold PingedSocket.write at hopen ⊢
  rw [hcounted] at hopen ⊢
  obtain ⟨hstream, hpos⟩ := hkept hopen
  have hfits : ∀ c ∈ s.sock.websocketChunkList.drop gone, c.length ≤ chunkSize :=
    fun c hc => h.fits c (List.mem_of_mem_drop hc)
  have hhead : ((s.sock.websocketChunkList.drop gone).headD []).length ≤ chunkSize := by
    cases hdrop : s.sock.websocketChunkList.drop gone with
    | nil => exact Nat.zero_le _
    | cons c cs => exact hfits c (hdrop ▸ List.mem_cons_self)
  have hsize : chunkSize < 2 ^ 32 := by decide
  have hsendPos := toNat_sendPos (Nat.lt_of_le_of_lt (Nat.le_trans hpos hhead) hsize)
  have hpos' : (Int32.ofNat pos).toUInt32.toNat ≤
      ((s.sock.websocketChunkList.drop gone).headD []).length := by
    rw [hsendPos]
    exact hpos
  refine ⟨hfits, hpos', fun p hp => ?_⟩
  obtain ⟨p, hqueued, rfl⟩ := Option.map_eq_some_iff.mp hp
  have hcount : s.sock.websocketChunkList.length -
      (s.sock.websocketChunkList.drop gone).length = gone := by
    rw [List.length_drop]
    omega
  have hall : wire.sent ++ (s.sock.websocketChunkList.drop gone).flatten.drop
      (Int32.ofNat pos).toUInt32.toNat = s.stream := by
    rw [hsendPos]
    exact hstream
  rw [hcount]
  exact (h.tracked p hqueued).sent rfl hgone hall h.pos hpos' rfl rfl rfl
    hmore.length_le

theorem PingInv.step (h : PingInv s) (answers : Nat → SendAnswer) (e : PingEvent)
    (hopen : (s.step answers e).isOpen = true) : PingInv (s.step answers e) := by
  have hsame : ∀ f : TimedSocket → TimedSocket, SameOutput s.sock (f s.sock) → ∀ isOpen,
      PingInv { s with sock := f s.sock, isOpen := isOpen } := fun _ => h.sameOutput
  by_cases hold : s.isOpen = true
  · unfold PingedSocket.step at hopen ⊢
    rw [if_pos hold] at hopen ⊢
    cases e with
    | append frame => exact h.append frame
    | look cfg now => exact h.sameOutput (connTimeoutWebsocket_sameOutput cfg now _ _ _) _
    | ping now => exact h.queuePing now
    | requestClose =>
        exact hsame (fun sock => { sock with closeSocket := true }) ⟨rfl, rfl, rfl, rfl, rfl⟩ _
    | read now ok =>
        dsimp only at hopen ⊢
        split_ifs at hopen ⊢
        exact hsame (fun sock => { sock with rxAt := now }) ⟨rfl, rfl, rfl, rfl, rfl⟩ _
    | write =>
        dsimp only at hopen ⊢
        split_ifs at hopen ⊢
        exact h.write answers hopen
  · unfold PingedSocket.step
    rw [if_neg hold]
    exact h

/-! ## Runs -/

/-- A socket that is closed stays so. -/
theorem isOpen_of_step {answers : Nat → SendAnswer} {e : PingEvent}
    (h : (s.step answers e).isOpen = true) : s.isOpen = true := by
  by_contra hclosed
  unfold PingedSocket.step at h
  rw [if_neg hclosed] at h
  exact hclosed h

theorem runPings_pingInv (answers : Nat → SendAnswer) {sock : TimedSocket}
    (hlist : sock.websocketChunkList = []) (hpos : sock.websocketSendPos = 0)
    (events : List PingEvent) (hopen : (runPings answers { sock := sock } events).isOpen = true) :
    PingInv (runPings answers { sock := sock } events) := by
  induction events using List.reverseRecOn with
  | nil =>
      refine ⟨fun c hc => ?_, ?_, fun p hp => nomatch hp⟩
      · rw [runPings, List.foldl_nil, hlist] at hc
        exact absurd hc List.not_mem_nil
      · rw [runPings, List.foldl_nil, hpos]
        exact Nat.zero_le _
  | append_singleton events e ih =>
      rw [runPings, List.foldl_append] at hopen ⊢
      exact (ih (isOpen_of_step hopen)).step answers e hopen

/-- **The position of a ping**: while the socket is open, the test says that the last ping is out
exactly when all bytes up to its last one have been sent. -/
theorem pingOut_iff_sent (answers : Nat → SendAnswer) {sock : TimedSocket}
    (hlist : sock.websocketChunkList = []) (hpos : sock.websocketSendPos = 0)
    (events : List PingEvent) (hopen : (runPings answers { sock := sock } events).isOpen = true)
    {p : QueuedPing} (hping : (runPings answers { sock := sock } events).ping = some p)
    (hchunks : p.chunks < 2 ^ 31) (hsince : p.chunksSince < 2 ^ 31) :
    pingOut (runPings answers { sock := sock } events).sock = true ↔
      p.bytes <+: (runPings answers { sock := sock } events).wire.sent := by
  have hinv := runPings_pingInv answers hlist hpos events hopen
  exact (hinv.tracked p hping).pingOut_iff hinv.pos hchunks hsince

/-- A ping behind a frame of two bytes, in the same chunk; three bytes have been sent, then one. -/
theorem pingOut_iff_sent_split : pingOut (runPings
    (fun i => if i = 0 then .plain 3 else .plain 1) { sock := { isWebsocket := true } }
    [.append [0x81, 0x00], .ping 5, .write, .append [0x8A, 0x00], .write]).sock = true :=
  (pingOut_iff_sent (fun i => if i = 0 then .plain 3 else .plain 1) rfl rfl
    [.append [0x81, 0x00], .ping 5, .write, .append [0x8A, 0x00], .write] (by decide) rfl
    (by decide) (by decide)).mpr (by decide)

end CWebUI.Timeouts
