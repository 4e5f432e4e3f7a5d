import CWebUI.Websocket.RecFrame

set_option autoImplicit false

/-! # The reassembly of fragments

Without a stream handler the fragments of a message are kept in a list until the last one is
there (`recFrameV8`). The list, its length in bytes, the number of fragments and the opcode of
the first one are kept in four fields, which change on different branches.
-/

namespace CWebUI.Websocket

/-! ## The states of a connection -/

/-- A call of `recv` has given so many bytes. -/
def WsSocket.received (s : WsSocket) (n : Nat) : WsSocket :=
  { s with
    websocketBuffer := s.websocketBuffer ++ s.unread.take n
    unread := s.unread.drop n
    inCall := true }

/-- The states that a connection without stream handler goes through, those between two frames
of one call included: `recv` gives something or nothing, the buffer is full, or a frame at the
front of the buffer is handled. -/
inductive Visited (srv : WsServer) (stream : List UInt8) : WsSocket → Prop where
  | init : Visited srv stream (initWebsocketStructures stream)
  | received {s : WsSocket} (n : Nat) (h : Visited srv stream s) (hopen : s.closed = false) :
      Visited srv stream (s.received n)
  | nothing {s : WsSocket} (h : Visited srv stream s) :
      Visited srv stream { s with inCall := false }
  | full {s : WsSocket} (h : Visited srv stream s) :
      Visited srv stream { s with closed := true, inCall := false }
  | next {s s' : WsSocket} {base base' : Nat} (h : Visited srv stream s) (hopen : s.closed = false)
      (hround : frameRound srv s base = .next s' base') : Visited srv stream s'
  | stop {s s' : WsSocket} {base : Nat} (h : Visited srv stream s) (hopen : s.closed = false)
      (hround : frameRound srv s base = .stop s') : Visited srv stream s'

variable {srv : WsServer} {stream : List UInt8} {s : WsSocket}

/-- The state behind a frame that is handled as a whole. -/
def WsSocket.handled (srv : WsServer) (s : WsSocket) (f : WebsocketFrame) : WsSocket :=
  { handleFrame srv s f
      (unmask f.mask 0 ((s.websocketBuffer.drop f.headerLength).take f.realLength)) with
    websocketBuffer := s.websocketBuffer.drop f.total }

/-- What becomes of a frame: it is refused, it is not complete, or it is handled. -/
theorem wholeFrame_cases (srv : WsServer) (s : WsSocket) (f : WebsocketFrame) (base : Nat) :
    wholeFrame srv s f base = .stop (s.closeWith 1009) ∨
      (∃ size, wholeFrame srv s f base = .stop { s with bufferSize := size }) ∨
      (f.total ≤ s.websocketBuffer.length ∧ (wholeFrame srv s f base = .stop (s.handled srv f) ∨
        (wholeFrame srv s f base = .next (s.handled srv f) (base + f.total) ∧
          (s.handled srv f).closed = false))) := by
  unfold wholeFrame
  by_cases hlarge : websocketMaxInbufferSize < f.realLength
  · exact Or.inl (by rw [if_pos hlarge])
  · rw [if_neg hlarge]
    by_cases hshort : s.websocketBuffer.length < f.total
    · refine Or.inr (Or.inl ?_)
      rw [if_pos hshort]
      by_cases hgrow : base = 0 ∧ s.bufferSize < f.realLength
      · exact ⟨f.total + 10, by rw [if_pos hgrow]⟩
      · exact ⟨s.bufferSize, by rw [if_neg hgrow]⟩
    · refine Or.inr (Or.inr ⟨Nat.not_lt.mp hshort, ?_⟩)
      rw [if_neg hshort]
      by_cases hend : (s.handled srv f).closed = true ∨ (s.handled srv f).websocketBuffer = []
      · exact Or.inl (if_pos hend)
      · exact Or.inr ⟨if_neg hend, by simpa using (not_or.mp hend).1⟩

theorem frameRound_plain (hsrv : srv.handler = none) (s : WsSocket) (base : Nat) :
    frameRound srv s base =
      match scanHeader s.websocketBuffer with
      | .more => .stop s
      | .refuse status => .stop (s.closeWith status)
      | .frame f => wholeFrame srv s f base := by
  unfold frameRound
  cases scanHeader s.websocketBuffer <;> simp [hsrv]

/-- The loop over the frames goes on only while the connection is open. -/
theorem frameRound_next_open (hsrv : srv.handler = none) {base base' : Nat} {s' : WsSocket}
    (hround : frameRound srv s base = .next s' base') : s'.closed = false := by
  rw [frameRound_plain hsrv] at hround
  split at hround
  · exact absurd hround (by simp)
  · exact absurd hround (by simp)
  · rename_i f _
    rcases wholeFrame_cases srv s f base with h | ⟨size, h⟩ | ⟨-, h | ⟨h, hopen⟩⟩
    · exact absurd (h.symm.trans hround) (by simp)
    · exact absurd (h.symm.trans hround) (by simp)
    · exact absurd (h.symm.trans hround) (by simp)
    · rw [← (FrameLoop.next.inj (h.symm.trans hround)).1]
      exact hopen

theorem Visited.frameLoop (hsrv : srv.handler = none) {fuel base : Nat} (h : Visited srv stream s)
    (hopen : s.closed = false) : Visited srv stream (frameLoop srv fuel s base) := by
  induction fuel generalizing s base with
  | zero => exact h
  | succ fuel ih =>
      rw [Websocket.frameLoop]
      cases hround : frameRound srv s base with
      | next s' base' => exact ih (h.next hopen hround) (frameRound_next_open hsrv hround)
      | stop s' => exact h.stop hopen hround

/-- A call of `recv` for the buffer. -/
theorem recFrame_reads (hreads : s.inCall = true ∨ s.stream = none ∨ srv.handler = none)
    (hopen : s.closed = false) (n : Nat) :
    recFrame srv s n =
      if s.bufferSize - s.websocketBuffer.length = 0 then { s with closed := true, inCall := false }
      else if s.unread.take (min n (s.bufferSize - s.websocketBuffer.length)) = [] then
        { s with inCall := false }
      else
        let data := s.unread.take (min n (s.bufferSize - s.websocketBuffer.length))
        frameLoop srv ((s.received data.length).websocketBuffer.length + 1)
          (s.received data.length) 0 := by
  have htake : ∀ data : List UInt8, data = s.unread.take (min n
      (s.bufferSize - s.websocketBuffer.length)) → s.unread.take data.length = data := by
    intro data hdata
    rw [hdata, List.length_take, List.take_eq_take_iff]
    omega
  unfold recFrame
  rw [if_neg (by simp [hopen])]
  split
  · rename_i hcall hstream hhandler
    rcases hreads with h | h | h
    · exact absurd (h.symm.trans hcall) (by decide)
    · exact absurd (h.symm.trans hstream) (by simp)
    · exact absurd (h.symm.trans hhandler) (by simp)
  · simp only [WsSocket.received, htake _ rfl]

theorem Visited.recFrame (hsrv : srv.handler = none) (h : Visited srv stream s) (n : Nat) :
    Visited srv stream (recFrame srv s n) := by
  by_cases hclosed : s.closed = true
  · simpa [Websocket.recFrame, hclosed] using h
  · have hopen : s.closed = false := by simpa using hclosed
    rw [recFrame_reads (Or.inr (Or.inr hsrv)) hopen]
    split_ifs
    · exact h.full
    · exact h.nothing
    · exact (h.received _ hopen).frameLoop hsrv hopen

/-- Every state between two calls is one of them. -/
theorem Visited.run (hsrv : srv.handler = none) (stream : List UInt8) (ns : List Nat) :
    Visited srv stream (runWebsocket srv (initWebsocketStructures stream) ns) := by
  have hrun : ∀ s, Visited srv stream s → Visited srv stream (runWebsocket srv s ns) := by
    induction ns with
    | nil => exact fun s h => h
    | cons n ns ih => exact fun s h => ih _ (h.recFrame hsrv n)
  exact hrun _ Visited.init

/-! ## The four fields -/

/-- **The fields agree**: the length is the sum of the sizes of the fragments and below the
limit, the number of fragments is bounded, and there is an opcode exactly if there is a
fragment. Without a stream handler there is no stream. -/
structure FragmentsInv (s : WsSocket) : Prop where
  length : s.fragmentsLength = (s.fragments.map List.length).sum
  bound : s.fragmentsLength < websocketMaxInbufferSize
  count : s.fragmentCount ≤ websocketMaxFragments
  start : s.fragmentStartOpcode = none ↔ s.fragments = []
  stream : s.stream = none

/-- The state with the same fragments. -/
theorem FragmentsInv.congr {s' : WsSocket} (h : FragmentsInv s)
    (hfragments : s'.fragments = s.fragments)
    (hstart : s'.fragmentStartOpcode = s.fragmentStartOpcode)
    (hlength : s'.fragmentsLength = s.fragmentsLength)
    (hcount : s'.fragmentCount = s.fragmentCount) (hstream : s'.stream = s.stream) :
    FragmentsInv s' := by
  obtain ⟨hl, hb, hc, hs, hst⟩ := h
  exact ⟨by rw [hlength, hfragments, hl], by rw [hlength]; exact hb, by rw [hcount]; exact hc,
    by rw [hstart, hfragments]; exact hs, by rw [hstream]; exact hst⟩

/-- No fragment is stored. -/
theorem FragmentsInv.empty {s' : WsSocket} (hfragments : s'.fragments = [])
    (hstart : s'.fragmentStartOpcode = none) (hlength : s'.fragmentsLength = 0)
    (hcount : s'.fragmentCount = 0) (hstream : s'.stream = none) : FragmentsInv s' := by
  refine ⟨by rw [hlength, hfragments]; rfl, ?_, ?_, by rw [hstart, hfragments]; simp, hstream⟩
  · rw [hlength]
    decide
  · rw [hcount]
    exact Nat.zero_le _

/-- A fragment behind the first one is stored; an empty one only counts. -/
def WsSocket.storeFragment (s : WsSocket) (f : WebsocketFrame) (payload : List UInt8) : WsSocket :=
  { s with
    fragments := if f.realLength = 0 then s.fragments else s.fragments ++ [payload]
    fragmentsLength := s.fragmentsLength + f.realLength
    fragmentCount := s.fragmentCount + 1 }

/-- A frame that continues a message which is not streamed. -/
theorem continueFrame_plain (hsrv : srv.handler = none) (hstream : s.stream = none)
    (f : WebsocketFrame) (payload : List UInt8) :
    continueFrame srv s f payload =
      if s.fragmentStartOpcode = none then s.closeWith 1002
      else if websocketMaxInbufferSize - s.fragmentsLength ≤ f.realLength then s.closeWith 1009
      else if websocketMaxFragments < s.fragmentCount + 1 then s.closeWith 1009
      else if f.fin then
        endFragments (s.storeFragment f payload) (s.fragmentStartOpcode.getD false)
      else s.storeFragment f payload := by
  unfold continueFrame
  rw [hsrv, hstream]
  simp only [WsSocket.inFragments, hstream, Option.map_none, Option.getD_none, Bool.false_or]
  cases hstart : s.fragmentStartOpcode with
  | none => simp
  | some binary => simp [WsSocket.storeFragment, hstart, hstream]

/-- The fields agree when a fragment that fits has been stored. -/
theorem FragmentsInv.store (h : FragmentsInv s) {f : WebsocketFrame} {payload : List UInt8}
    (hpayload : payload.length = f.realLength) (hstart : s.fragmentStartOpcode ≠ none)
    (hfits : ¬ websocketMaxInbufferSize - s.fragmentsLength ≤ f.realLength)
    (hcount : ¬ websocketMaxFragments < s.fragmentCount + 1) :
    FragmentsInv (s.storeFragment f payload) := by
  have hne : s.fragments ≠ [] := fun heq => hstart (h.start.mpr heq)
  refine ⟨?_, ?_, Nat.not_lt.mp hcount, ?_, h.stream⟩
  · simp only [WsSocket.storeFragment]
    by_cases hzero : f.realLength = 0
    · rw [if_pos hzero, hzero, Nat.add_zero, h.length]
    · rw [if_neg hzero, List.map_append, List.sum_append, ← h.length]
      simp [hpayload]
  · simp only [WsSocket.storeFragment]
    omega
  · refine iff_of_false hstart ?_
    simp only [WsSocket.storeFragment]
    split_ifs
    · exact hne
    · simp

/-- The fragments that are copied into the message are as long as the length says. -/
theorem FragmentsInv.copied (h : FragmentsInv s) : s.fragments.flatten.length = s.fragmentsLength := by
  rw [List.length_flatten, h.length]

theorem deliver_fields (s : WsSocket) (binary : Bool) (msg : List UInt8) :
    (s.deliver binary msg).fragments = s.fragments ∧
      (s.deliver binary msg).fragmentStartOpcode = s.fragmentStartOpcode ∧
      (s.deliver binary msg).fragmentsLength = s.fragmentsLength ∧
      (s.deliver binary msg).fragmentCount = s.fragmentCount ∧
      (s.deliver binary msg).stream = s.stream := by
  unfold WsSocket.deliver
  split_ifs <;> exact ⟨rfl, rfl, rfl, rfl, rfl⟩

/-- A message that is delivered goes to the input queue, text with a terminator. -/
theorem deliver_trace {binary : Bool} {msg : List UInt8} (hopen : (s.deliver binary msg).closed = false) :
    (s.deliver binary msg).trace =
      s.trace ++ [.message binary (if binary then msg else msg ++ [0])] := by
  unfold WsSocket.deliver at hopen ⊢
  cases binary with
  | true => rfl
  | false =>
      simp only [Bool.false_eq_true, if_false] at hopen ⊢
      by_cases hutf8 : isUtf8 msg ≠ 0
      · rw [if_pos hutf8] at hopen
        exact absurd hopen (by simp [WsSocket.closeWith])
      · rw [if_neg hutf8]
        rfl

theorem FragmentsInv.deliver (h : FragmentsInv s) (binary : Bool) (msg : List UInt8) :
    FragmentsInv (s.deliver binary msg) := by
  obtain ⟨hfragments, hstart, hlength, hcount, hstream⟩ := deliver_fields s binary msg
  exact h.congr hfragments hstart hlength hcount hstream

/-- The connection is open only if the fields agree. -/
def OpenInv (s : WsSocket) : Prop := s.closed = false → FragmentsInv s

theorem OpenInv.closeWith (s : WsSocket) (status : Nat) : OpenInv (s.closeWith status) :=
  fun hopen => absurd hopen (by simp [WsSocket.closeWith])

theorem FragmentsInv.continueFrame (hsrv : srv.handler = none) (h : FragmentsInv s)
    {f : WebsocketFrame} {payload : List UInt8} (hpayload : payload.length = f.realLength) :
    OpenInv (continueFrame srv s f payload) := by
  rw [continueFrame_plain hsrv h.stream]
  split_ifs with hstart hlarge hmany hfin
  · exact OpenInv.closeWith s 1002
  · exact OpenInv.closeWith s 1009
  · exact OpenInv.closeWith s 1009
  · have hstored := h.store hpayload hstart hlarge hmany
    unfold endFragments
    split_ifs with htext
    · exact OpenInv.closeWith _ 1000
    · have hempty : FragmentsInv { s.storeFragment f payload with
          fragments := []
          fragmentStartOpcode := none
          fragmentsLength := 0
          fragmentCount := 0 } := FragmentsInv.empty rfl rfl rfl rfl hstored.stream
      exact fun _ => hempty.deliver _ _
  · exact fun _ => h.store hpayload hstart hlarge hmany

theorem FragmentsInv.dataFrame (hsrv : srv.handler = none) (h : FragmentsInv s)
    {f : WebsocketFrame} {payload : List UInt8} (hpayload : payload.length = f.realLength) :
    OpenInv (dataFrame srv s f payload) := by
  unfold Websocket.dataFrame
  rw [hsrv]
  dsimp only
  split_ifs with hopen hfin htext hlarge
  · exact OpenInv.closeWith s 1002
  · exact OpenInv.closeWith s 1000
  · exact fun _ => h.deliver _ _
  · exact OpenInv.closeWith s 1009
  · -- the first fragment; nothing is stored yet
    have hnone : s.fragmentStartOpcode = none := by
      simp only [WsSocket.inFragments, h.stream, Option.map_none, Option.getD_none, Bool.false_or,
        Bool.not_eq_true, Option.isSome_eq_false_iff, Option.isNone_iff_eq_none] at hopen
      exact hopen
    have hnil : s.fragments = [] := h.start.mp hnone
    intro _
    have hone : 1 ≤ websocketMaxFragments := by decide
    refine ⟨?_, Nat.not_le.mp hlarge, hone, ?_, h.stream⟩
    · simp [hnil, hpayload]
    · simp

theorem FragmentsInv.controlFrame (h : FragmentsInv s) (f : WebsocketFrame) (payload : List UInt8) :
    OpenInv (controlFrame s f payload) := by
  unfold Websocket.controlFrame
  split_ifs with hfin hlong
  · exact OpenInv.closeWith s 1002
  · exact OpenInv.closeWith s 1002
  · split
    · exact OpenInv.closeWith s 1000
    · exact fun _ => h.congr rfl rfl rfl rfl rfl
    · exact fun _ => h

/-- **One frame.** -/
theorem FragmentsInv.handleFrame (hsrv : srv.handler = none) (h : FragmentsInv s)
    {f : WebsocketFrame} {payload : List UInt8} (hpayload : payload.length = f.realLength) :
    OpenInv (handleFrame srv s f payload) := by
  unfold Websocket.handleFrame
  cases f.opcode with
  | wsfText => exact h.dataFrame hsrv hpayload
  | wsfBinary => exact h.dataFrame hsrv hpayload
  | wsfContinue => exact h.continueFrame hsrv hpayload
  | wsfClose => exact h.controlFrame f payload
  | wsfPing => exact h.controlFrame f payload
  | wsfPong => exact h.controlFrame f payload
  | wsfReserved => exact OpenInv.closeWith s 1002

theorem unmask_length (mask : List UInt8) (offset : Nat) (payload : List UInt8) :
    (unmask mask offset payload).length = payload.length := by
  simp [unmask]

theorem FragmentsInv.handled (hsrv : srv.handler = none) (h : FragmentsInv s) {f : WebsocketFrame}
    (hlength : f.total ≤ s.websocketBuffer.length) : OpenInv (s.handled srv f) := by
  intro hopen
  have hpayload : (unmask f.mask 0
      ((s.websocketBuffer.drop f.headerLength).take f.realLength)).length = f.realLength := by
    rw [unmask_length, List.length_take, List.length_drop]
    simp only [WebsocketFrame.total] at hlength
    omega
  exact (h.handleFrame hsrv hpayload hopen).congr rfl rfl rfl rfl rfl

theorem Visited.openInv (hsrv : srv.handler = none) (h : Visited srv stream s) : OpenInv s := by
  -- what a round does to the state, whether or not the loop goes on
  have hround : ∀ {s s' : WsSocket} {base : Nat}, FragmentsInv s →
      (frameRound srv s base = .stop s' ∨ ∃ base', frameRound srv s base = .next s' base') →
      OpenInv s' := by
    intro s s' base hinv hres
    rw [frameRound_plain hsrv] at hres
    split at hres
    · obtain rfl : s = s' := by simpa using hres
      exact fun _ => hinv
    · rename_i status _
      obtain rfl : s.closeWith status = s' := by simpa using hres
      exact OpenInv.closeWith s status
    · rename_i f _
      rcases wholeFrame_cases srv s f base with heq | ⟨size, heq⟩ | ⟨hlength, heq | ⟨heq, -⟩⟩
      · obtain rfl : s.closeWith 1009 = s' := by simpa [heq] using hres
        exact OpenInv.closeWith s 1009
      · obtain rfl : { s with bufferSize := size } = s' := by simpa [heq] using hres
        exact fun _ => hinv.congr rfl rfl rfl rfl rfl
      · obtain rfl : s.handled srv f = s' := by simpa [heq] using hres
        exact hinv.handled hsrv hlength
      · obtain rfl : s.handled srv f = s' := by simpa [heq] using hres
        exact hinv.handled hsrv hlength
  induction h with
  | init => exact fun _ => FragmentsInv.empty rfl rfl rfl rfl rfl
  | received n h hopen ih => exact fun _ => (ih hopen).congr rfl rfl rfl rfl rfl
  | nothing h ih => exact fun hopen => (ih hopen).congr rfl rfl rfl rfl rfl
  | full h ih => exact fun hopen => absurd hopen (by simp)
  | next h hopen heq ih => exact hround (ih hopen) (Or.inr ⟨_, heq⟩)
  | stop h hopen heq ih => exact hround (ih hopen) (Or.inl heq)

/-- The last fragment of a message that is accepted: what the message holds is what was copied
out of the fragments, for text with the terminator behind it. -/
theorem continueFrame_message (hsrv : srv.handler = none) (h : FragmentsInv s)
    {f : WebsocketFrame} {payload : List UInt8} (hpayload : payload.length = f.realLength)
    (hfin : f.fin = true) (hopen : (continueFrame srv s f payload).closed = false) :
    ∃ binary msg, s.fragmentStartOpcode = some binary ∧
      msg = (s.storeFragment f payload).fragments.flatten ∧
      msg.length = (s.storeFragment f payload).fragmentsLength ∧
      (continueFrame srv s f payload).trace =
        s.trace ++ [.message binary (if binary then msg else msg ++ [0])] := by
  rw [continueFrame_plain hsrv h.stream] at hopen ⊢
  split_ifs at hopen ⊢ with hstart hlarge hmany
  · exact absurd hopen (by simp [WsSocket.closeWith])
  · exact absurd hopen (by simp [WsSocket.closeWith])
  · exact absurd hopen (by simp [WsSocket.closeWith])
  · have hstored := h.store hpayload hstart hlarge hmany
    obtain ⟨binary, hbinary⟩ := Option.ne_none_iff_exists'.mp hstart
    refine ⟨binary, _, hbinary, rfl, hstored.copied, ?_⟩
    rw [hbinary, Option.getD_some] at hopen ⊢
    by_cases htext : binary = false ∧
        websocketMaxInbufferSize ≤ (s.storeFragment f payload).fragmentsLength
    · rw [endFragments, if_pos htext] at hopen
      exact absurd hopen (by simp [WsSocket.closeWith])
    · rw [endFragments, if_neg htext] at hopen ⊢
      exact deliver_trace hopen

/-- **The reassembly of fragments is bounded.** In every state that a connection without stream
handler goes through while it is open, the length is the sum of the sizes of the fragments and
below the limit, so that the subtraction from the limit does not wrap; the number of fragments
is bounded; there is an opcode exactly if there is a fragment; and when a last fragment is
accepted, the copy into the message writes exactly as many bytes as the length says. -/
theorem fragment_reassembly_bounds (hsrv : srv.handler = none) (hvisited : Visited srv stream s)
    (hopen : s.closed = false) :
    s.fragmentsLength = (s.fragments.map List.length).sum ∧
      s.fragmentsLength < websocketMaxInbufferSize ∧
      s.fragmentCount ≤ websocketMaxFragments ∧
      ((websocketMaxInbufferSize - s.fragmentsLength : Nat) : Int) =
        websocketMaxInbufferSize - s.fragmentsLength ∧
      (s.fragmentStartOpcode = none ↔ s.fragments = []) ∧
      ∀ f payload, payload.length = f.realLength → f.fin = true →
        (continueFrame srv s f payload).closed = false →
        ∃ binary msg, s.fragmentStartOpcode = some binary ∧
          msg = (s.storeFragment f payload).fragments.flatten ∧
          msg.length = (s.storeFragment f payload).fragmentsLength ∧
          (continueFrame srv s f payload).trace =
            s.trace ++ [.message binary (if binary then msg else msg ++ [0])] := by
  have hinv := hvisited.openInv hsrv hopen
  have hbound := hinv.bound
  refine ⟨hinv.length, hbound, hinv.count, by omega, hinv.start, fun f payload hpayload hfin hres => ?_⟩
  exact continueFrame_message hsrv hinv hpayload hfin hres

/-- A text message of two fragments: the first one is there. -/
theorem fragment_reassembly_bounds_two :
    let s := runWebsocket ⟨none, false⟩
      (initWebsocketStructures [0x01, 0x82, 0, 0, 0, 0, 0x61, 0x62, 0x80, 0x81, 0, 0, 0, 0, 0x63]) [8]
    s.fragmentsLength = 2 ∧ s.fragmentsLength = (s.fragments.map List.length).sum ∧
      s.fragmentCount ≤ websocketMaxFragments := by
  intro s
  have hvisited : Visited ⟨none, false⟩ _ s := Visited.run rfl _ _
  have hopen : s.closed = false ∧ s.fragmentsLength = 2 := by decide +kernel
  obtain ⟨hlength, -, hcount, -⟩ := fragment_reassembly_bounds rfl hvisited hopen.1
  exact ⟨hopen.2, hlength, hcount⟩

end CWebUI.Websocket
