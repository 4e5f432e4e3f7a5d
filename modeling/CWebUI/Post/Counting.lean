import CWebUI.Http.PostBody
import CWebUI.Post.Multipart

set_option autoImplicit false

/-! # The byte count of a streamed body

A body that a stream handler takes is not buffered. The first bytes of it may be in the header
buffer, and `handleClientHeaderData` goes on reading into that buffer; when it is called again it
hands over to `handlePostStreamData`, which reads into a buffer of its own
(`system_sockets.c`). Both give what they read to `recv_post_payload_streaming`, which feeds the
machine and leaves what is behind the body for the next request.

All of them subtract `post_buffer_pos`, the count of the bytes fed, from the announced length. The
length is a 64-bit number, and a stream handler's limit may be one; the count has 32 bits.
-/

namespace CWebUI.Post

open ByteString CWebUI.Http

/-- `POST_STREAM_READ_CHUNK_SIZE`, the size of the read buffer of a stream. -/
def postStreamReadChunkSize : UInt32 := 32 * 1024

/-! ## Reading a body -/

/-- A connection with a running stream, and the bytes that have not been received. `fed` are the
bytes that the machine has been fed with, and `lastFeed` is what it said last. -/
structure StreamReader where
  stream : PostStream
  headerBuffer : List UInt8 := []
  unread : List UInt8
  closeSocket : Bool := false
  fed : List UInt8 := []
  lastFeed : Option Int := none
  deriving DecidableEq, Repr

/-- How the reading of a body ends. -/
inductive StreamOutcome where
  /-- The body is complete, and the request is served. -/
  | complete
  /-- The machine refused the body. The request is served with an error, and the connection is
  closed. -/
  | failed
  /-- The client is gone. -/
  | disconnected
  deriving DecidableEq, Repr

/-- What a call of `recv` is made for, with the number of bytes it gives at most. -/
inductive StreamRead where
  /-- `handleClientHeaderData` reads into the header buffer. -/
  | headerBuffer (n : Nat)
  /-- `handlePostStreamData` reads into the buffer of the stream. -/
  | readBuf (n : Nat)
  | disconnected
  deriving DecidableEq, Repr

/-- How much of the body is to come. -/
def PostStream.remaining (s : PostStream) : UInt64 :=
  s.header.contentlenght - s.header.postBufferPos.toUInt64

/-- A 32-bit size, cut to what is to come. -/
def clampTo (remaining : UInt64) (len : UInt32) : UInt32 :=
  if remaining < len.toUInt64 then remaining.toUInt32 else len

/-- `to_read` of `handlePostStreamData`. -/
def StreamReader.toRead (r : StreamReader) : UInt32 :=
  clampTo r.stream.remaining postStreamReadChunkSize

/-- Change the header record of the stream. -/
def StreamReader.setHeader (r : StreamReader) (f : HttpRequestHeader → HttpRequestHeader) :
    StreamReader :=
  { r with stream := { r.stream with header := f r.stream.header } }

/-- `recv_post_payload_streaming` with the bytes `buffer`, and the end of the header that its
callers note when the body has ended. -/
def recvPostPayloadStreaming (H : Handler) (r : StreamReader) (buffer : List UInt8) :
    StreamReader × Option StreamOutcome :=
  let len : UInt32 := buffer.length.toUInt32
  let use := clampTo r.stream.remaining len
  let fed := postStreamFeed H r.stream (buffer.take use.toNat)
  let r := { r with
    stream := fed.1
    fed := r.fed ++ buffer.take use.toNat
    lastFeed := some fed.2 }
  if fed.2 < 0 then
    ({ r with headerBuffer := [], closeSocket := true }.setHeader
      (fun header => { header with error := true, headerComplete := false }), some .failed)
  else if use < len then
    ({ r with headerBuffer := buffer.drop use.toNat }.setHeader
      (fun header => { header with headerComplete := false }), some .complete)
  else if fed.2 = 1 then
    ({ r with headerBuffer := [] }.setHeader
      (fun header => { header with headerComplete := false }), some .complete)
  else ({ r with headerBuffer := [] }, none)

/-- A call of `recv` and what is done with its bytes. The limits on what is read in one event only
end the event, and are left out. -/
def streamRound (H : Handler) (r : StreamReader) : StreamRead →
    StreamReader × Option StreamOutcome
  | .headerBuffer n =>
      let k := min n webserverMaxHeaderLineLenght
      let piece := r.unread.take k
      if piece = [] then (r, none)
      else if r.stream.header.postBufferPos.toUInt64 < r.stream.header.contentlenght then
        recvPostPayloadStreaming H { r with unread := r.unread.drop k } piece
      else ({ r with unread := r.unread.drop k }, none)
  | .readBuf n =>
      if r.stream.remaining = 0 then (r, none)
      else
        let k := min n r.toRead.toNat
        let piece := r.unread.take k
        if piece = [] then (r, none)
        else recvPostPayloadStreaming H { r with unread := r.unread.drop k } piece
  | .disconnected => ({ r with closeSocket := true }, some .disconnected)

/-- The stream is started at the end of the header, and gets what is in the header buffer
already. -/
def startStreaming (H : Handler) (header : HttpRequestHeader) (boundary : List UInt8)
    (discard : Bool) (buffered unread : List UInt8) : StreamReader × Option StreamOutcome :=
  let r : StreamReader := { stream := startPostStream header boundary discard, unread }
  if buffered = [] then (r, none) else recvPostPayloadStreaming H r buffered

/-- The reading of a body: it stops when it has ended. -/
def runStreaming (H : Handler) :
    StreamReader × Option StreamOutcome → List StreamRead → StreamReader × Option StreamOutcome
  | (r, some o), _ => (r, some o)
  | (r, none), [] => (r, none)
  | (r, none), read :: reads => runStreaming H (streamRound H r read) reads

/-! ## What should hold at every moment -/

/-- **The count is exact**, for a body of `n` bytes at the front of `body`: it is the number of the
bytes fed, no more than the body is asked for or consumed, and the stream is complete exactly when
all of the body has been fed. What is refused has not come to its closing boundary. -/
structure StreamExact (n : Nat) (body : List UInt8)
    (result : StreamReader × Option StreamOutcome) : Prop where
  counted : result.1.stream.header.postBufferPos.toNat = result.1.fed.length
  within : result.1.fed.length ≤ n
  requested : result.1.fed.length + result.1.toRead.toNat ≤ n
  consumed : result.2 ≠ some .failed →
    result.1.fed ++ result.1.headerBuffer ++ result.1.unread = body
  remaining : result.1.stream.remaining = 0 ↔ result.1.fed.length = n
  feed : ∀ ret, result.1.lastFeed = some ret → ret ≠ -1 → (ret = 1 ↔ result.1.fed.length = n)
  refused : result.1.lastFeed = some (-1) → result.1.stream.state ≠ .epilogue
  complete : result.2 = some .complete ↔ result.1.lastFeed = some 1

/-- The count is exact at every moment of the reading. -/
def AlwaysExact (H : Handler) (n : Nat) (body : List UInt8)
    (start : StreamReader × Option StreamOutcome) (reads : List StreamRead) : Prop :=
  ∀ done, done <+: reads → StreamExact n body (runStreaming H start done)

/-! ## One call -/

theorem clampTo_toNat (remaining : UInt64) (len : UInt32) :
    (clampTo remaining len).toNat = min remaining.toNat len.toNat := by
  have hlen := len.toNat_lt
  unfold clampTo
  by_cases h : remaining < len.toUInt64
  · rw [if_pos h]
    rw [UInt64.lt_iff_toNat_lt, UInt32.toNat_toUInt64] at h
    rw [UInt64.toNat_toUInt32, Nat.mod_eq_of_lt (by omega)]
    omega
  · rw [if_neg h]
    rw [UInt64.lt_iff_toNat_lt, UInt32.toNat_toUInt64] at h
    omega

theorem remaining_toNat {s : PostStream} {k n : Nat} (hpos : s.header.postBufferPos.toNat = k)
    (hlen : s.header.contentlenght.toNat = n) (h : k ≤ n) : s.remaining.toNat = n - k := by
  have hle : s.header.postBufferPos.toUInt64 ≤ s.header.contentlenght := by
    rw [UInt64.le_iff_toNat_le, UInt32.toNat_toUInt64]
    omega
  rw [PostStream.remaining, UInt64.toNat_sub_of_le _ _ hle, UInt32.toNat_toUInt64, hpos, hlen]

/-- What a call of `postStreamFeed` says about the end of the body. -/
def FeedEnds (s : PostStream) (ret : Int) : Prop :=
  (ret = -1 ∧ s.state ≠ .epilogue) ∨ (ret = 0 ∧ s.header.postBufferPos.toNat < s.header.contentlenght.toNat) ∨
    (ret = 1 ∧ s.header.contentlenght.toNat ≤ s.header.postBufferPos.toNat)

/-- A call of `postStreamFeed` advances the count by what it is given, and compares it with the
announced length. -/
theorem postStreamFeed_counters (H : Handler) (s : PostStream) (data : List UInt8) (hwf : s.WF)
    (ha : s.active = true) :
    (postStreamFeed H s data).1.counters = (s.count data.length).counters ∧
      FeedEnds (postStreamFeed H s data).1 (postStreamFeed H s data).2 ∧
      ((postStreamFeed H s data).2 ≠ -1 →
        (postStreamFeed H s data).1.WF ∧ (postStreamFeed H s data).1.active = true) := by
  obtain ⟨s', rest, hsteps, hend⟩ := postStreamFeed_steps H s data hwf ha
  have hcounters := hsteps.counters
  have hwf' := hsteps.wf (hwf.count _)
  have ha' : s'.active = true := hsteps.taken.2.2.trans ha
  rcases hend with ⟨herror, heq⟩ | ⟨-, -, heq⟩
  · rw [heq]
    refine ⟨hcounters, .inl ⟨rfl, ?_⟩, fun h => absurd rfl h⟩
    show s'.state ≠ .epilogue
    rw [herror]
    decide
  · rw [heq, feedEnd]
    split_ifs with hover hstate
    · obtain ⟨sink, hsink⟩ : ∃ sink, postStreamFinish H s' false = { s' with sink := sink } := by
        unfold postStreamFinish
        split_ifs
        · exact ⟨_, rfl⟩
        · exact ⟨_, rfl⟩
      rw [hsink, ← hcounters]
      exact ⟨rfl, .inl ⟨rfl, hstate⟩, fun h => absurd rfl h⟩
    · exact ⟨hcounters, .inr (.inr ⟨rfl, hover⟩), fun _ => ⟨hwf', ha'⟩⟩
    · exact ⟨hcounters, .inr (.inl ⟨rfl, Nat.lt_of_not_le hover⟩), fun _ => ⟨hwf', ha'⟩⟩

/-- The parts of exactness that follow from the count. -/
theorem StreamExact.of_counted {n : Nat} {body : List UInt8} {r : StreamReader}
    {o : Option StreamOutcome} (htotal : r.stream.header.contentlenght.toNat = n)
    (hcounted : r.stream.header.postBufferPos.toNat = r.fed.length) (hwithin : r.fed.length ≤ n)
    (hconsumed : o ≠ some .failed → r.fed ++ r.headerBuffer ++ r.unread = body)
    (hfeed : ∀ ret, r.lastFeed = some ret → ret ≠ -1 → (ret = 1 ↔ r.fed.length = n))
    (hrefused : r.lastFeed = some (-1) → r.stream.state ≠ .epilogue)
    (hcomplete : o = some .complete ↔ r.lastFeed = some 1) : StreamExact n body (r, o) := by
  have hremaining := remaining_toNat hcounted htotal hwithin
  refine ⟨hcounted, hwithin, ?_, hconsumed, ?_, hfeed, hrefused, hcomplete⟩
  · show r.fed.length + r.toRead.toNat ≤ n
    rw [StreamReader.toRead, clampTo_toNat, hremaining]
    omega
  · show r.stream.remaining = 0 ↔ r.fed.length = n
    rw [← UInt64.toNat_inj, hremaining, UInt64.toNat_zero]
    omega

/-- A body that is being read: some of it is to come, and nothing of it waits in the header
buffer. -/
structure StreamRunning (n : Nat) (body : List UInt8) (r : StreamReader) : Prop where
  wf : r.stream.WF
  active : r.stream.active = true
  total : r.stream.header.contentlenght.toNat = n
  counted : r.stream.header.postBufferPos.toNat = r.fed.length
  rest : r.fed.length < n
  drained : r.headerBuffer = []
  kept : r.fed ++ r.unread = body
  last : ∀ ret, r.lastFeed = some ret → ret = 0

theorem StreamRunning.exact {n : Nat} {body : List UInt8} {r : StreamReader}
    (h : StreamRunning n body r) : StreamExact n body (r, none) := by
  refine .of_counted h.total h.counted h.rest.le (fun _ => ?_) (fun ret hret hne => ?_)
    (fun hlast => absurd (h.last (-1) hlast) (by decide)) ?_
  · rw [h.drained, List.append_nil]
    exact h.kept
  · rw [h.last ret hret]
    have := h.rest
    omega
  · constructor
    · intro hnone
      exact absurd hnone (by simp)
    · intro hlast
      exact absurd (h.last 1 hlast) (by decide)

/-- What a round of the reading gives: the body is still being read, or it has ended and the count
is exact. -/
def RoundExact (n : Nat) (body : List UInt8) (result : StreamReader × Option StreamOutcome) : Prop :=
  StreamExact n body result ∧ (result.2 = none → StreamRunning n body result.1)

/-- **A call of `recv_post_payload_streaming`** with the next bytes of the stream, `r.unread` being
what is behind them. -/
theorem recvPostPayloadStreaming_exact (H : Handler) {n : Nat} {body buffer : List UInt8}
    {r : StreamReader} (hn : n < 2 ^ 32) (hwf : r.stream.WF) (ha : r.stream.active = true)
    (htotal : r.stream.header.contentlenght.toNat = n)
    (hcounted : r.stream.header.postBufferPos.toNat = r.fed.length) (hrest : r.fed.length < n)
    (hlen : buffer.length < 2 ^ 32) (hbody : r.fed ++ (buffer ++ r.unread) = body) :
    RoundExact n body (recvPostPayloadStreaming H r buffer) := by
  have hlen32 : (buffer.length.toUInt32).toNat = buffer.length := by
    show (UInt32.ofNat buffer.length).toNat = buffer.length
    rw [UInt32.toNat_ofNat', Nat.mod_eq_of_lt hlen]
  set use := clampTo r.stream.remaining buffer.length.toUInt32 with huse
  have huseNat : use.toNat = min (n - r.fed.length) buffer.length := by
    rw [huse, clampTo_toNat, hlen32, remaining_toNat hcounted htotal hrest.le]
  have hdata : (buffer.take use.toNat).length = use.toNat := by
    rw [List.length_take]
    omega
  obtain ⟨hcounters, hends, hkeep⟩ :=
    postStreamFeed_counters H r.stream (buffer.take use.toNat) hwf ha
  set fed := postStreamFeed H r.stream (buffer.take use.toNat) with hfed
  have htotal' : fed.1.header.contentlenght.toNat = n := by
    have h : fed.1.header.contentlenght = r.stream.header.contentlenght :=
      congrArg Prod.snd hcounters
    rw [h, htotal]
  have hcounted' : fed.1.header.postBufferPos.toNat =
      (r.fed ++ buffer.take use.toNat).length := by
    have h : fed.1.header.postBufferPos = r.stream.header.postBufferPos +
        UInt32.ofNat (buffer.take use.toNat).length := congrArg Prod.fst hcounters
    rw [h, UInt32.toNat_add, UInt32.toNat_ofNat', hcounted, List.length_append, hdata]
    omega
  have hwithin : (r.fed ++ buffer.take use.toNat).length ≤ n := by
    rw [List.length_append, hdata]
    omega
  have hfeed : ∀ ret, some fed.2 = some ret → ret ≠ -1 →
      (ret = 1 ↔ (r.fed ++ buffer.take use.toNat).length = n) := by
    intro ret hret hne
    obtain rfl := Option.some.inj hret
    rw [← hcounted']
    rcases hends with ⟨h, -⟩ | ⟨hzero, h⟩ | ⟨hone, h⟩
    · exact absurd h hne
    · rw [htotal'] at h
      rw [hzero]
      constructor
      · intro h1
        exact absurd h1 (by decide)
      · intro h1
        omega
    · rw [htotal'] at h
      refine ⟨fun _ => ?_, fun _ => hone⟩
      rw [hcounted'] at h ⊢
      omega
  have hrefused : some fed.2 = some (-1) → fed.1.state ≠ .epilogue := by
    intro hret
    rcases hends with ⟨-, h⟩ | ⟨hzero, -⟩ | ⟨hone, -⟩
    · exact h
    · exact absurd (Option.some.inj hret) (by rw [hzero]; decide)
    · exact absurd (Option.some.inj hret) (by rw [hone]; decide)
  have hsplit : ∀ rest, rest = buffer.drop use.toNat →
      r.fed ++ buffer.take use.toNat ++ rest ++ r.unread = body := by
    rintro rest rfl
    rw [List.append_assoc, List.append_assoc, ← List.append_assoc (buffer.take use.toNat),
      List.take_append_drop]
    exact hbody
  have hdrop : ¬ use < buffer.length.toUInt32 → buffer.drop use.toNat = [] := by
    intro h
    rw [UInt32.lt_iff_toNat_lt, hlen32] at h
    exact List.drop_eq_nil_of_le (by omega)
  have hmore : ¬ fed.2 < 0 → fed.2 ≠ 1 → fed.2 = 0 := by
    intro h h1
    rcases hends with ⟨h2, -⟩ | ⟨h2, -⟩ | ⟨h2, -⟩
    · omega
    · exact h2
    · exact absurd h2 h1
  unfold recvPostPayloadStreaming
  dsimp only
  rw [← huse, ← hfed]
  split_ifs with hfail hover hone
  · -- the machine has refused the body
    refine ⟨.of_counted htotal' hcounted' hwithin (fun h => absurd rfl h) hfeed hrefused ?_, by simp⟩
    constructor
    · intro h
      exact absurd h (by simp)
    · intro h
      have : fed.2 = 1 := Option.some.inj h
      omega
  · -- bytes of the next request: all of the body is there
    refine ⟨.of_counted htotal' hcounted' hwithin (fun _ => hsplit _ rfl) hfeed hrefused ?_, by simp⟩
    rw [UInt32.lt_iff_toNat_lt, hlen32] at hover
    have hall : (r.fed ++ buffer.take use.toNat).length = n := by
      rw [List.length_append, hdata]
      omega
    have hret := (hfeed fed.2 rfl (by omega)).mpr hall
    exact ⟨fun _ => congrArg some hret, fun _ => rfl⟩
  · refine ⟨.of_counted htotal' hcounted' hwithin (fun _ => hsplit [] (hdrop hover).symm) hfeed
      hrefused ?_, by simp⟩
    exact ⟨fun _ => congrArg some hone, fun _ => rfl⟩
  · have hzero := hmore hfail hone
    obtain ⟨hwf', ha'⟩ := hkeep (by omega)
    have hlt : (r.fed ++ buffer.take use.toNat).length < n := by
      have h := (hfeed fed.2 rfl (by omega)).not.mp hone
      omega
    have hrun : StreamRunning n body
        { r with
          stream := fed.1
          headerBuffer := []
          fed := r.fed ++ buffer.take use.toNat
          lastFeed := some fed.2 } := by
      refine ⟨hwf', ha', htotal', hcounted', hlt, rfl, ?_, fun ret hret => ?_⟩
      · have h := hsplit [] (hdrop hover).symm
        rwa [List.append_nil] at h
      · rw [← Option.some.inj hret]
        exact hzero
    exact ⟨hrun.exact, fun _ => hrun⟩

/-- **A round of the reading.** -/
theorem streamRound_exact (H : Handler) {n : Nat} {body : List UInt8} {r : StreamReader}
    (hn : n < 2 ^ 32) (h : StreamRunning n body r) (read : StreamRead) :
    RoundExact n body (streamRound H r read) := by
  have hstay : RoundExact n body (r, none) := ⟨h.exact, fun _ => h⟩
  have hpiece : ∀ k, k < 2 ^ 32 → RoundExact n body
      (recvPostPayloadStreaming H { r with unread := r.unread.drop k } (r.unread.take k)) := by
    intro k hk
    refine recvPostPayloadStreaming_exact H hn h.wf h.active h.total h.counted h.rest ?_ ?_
    · rw [List.length_take]
      omega
    · show r.fed ++ (r.unread.take k ++ r.unread.drop k) = body
      rw [List.take_append_drop]
      exact h.kept
  cases read with
  | headerBuffer m =>
      rw [streamRound]
      have hmax : webserverMaxHeaderLineLenght = 2048 := rfl
      have hmore : r.stream.header.postBufferPos.toUInt64 < r.stream.header.contentlenght := by
        have hrest := h.rest
        rw [UInt64.lt_iff_toNat_lt, UInt32.toNat_toUInt64, h.counted, h.total]
        exact hrest
      split_ifs
      · exact hstay
      · exact hpiece _ (by omega)
  | readBuf m =>
      rw [streamRound]
      dsimp only
      have hto : r.toRead.toNat < 2 ^ 32 := r.toRead.toNat_lt
      split_ifs
      · exact hstay
      · exact hstay
      · exact hpiece _ (by omega)
  | disconnected =>
      refine ⟨?_, fun hnone => absurd hnone (by simp [streamRound])⟩
      refine .of_counted h.total h.counted h.rest.le (fun _ => ?_) h.exact.feed h.exact.refused ?_
      · show r.fed ++ r.headerBuffer ++ r.unread = body
        rw [h.drained, List.append_nil]
        exact h.kept
      · constructor
        · intro h'
          exact absurd h' (by simp)
        · intro h'
          exact absurd (h.last 1 h') (by decide)

/-- **The whole reading**, from the moment that the stream has been started. -/
theorem runStreaming_exact (H : Handler) {n : Nat} {body : List UInt8} (hn : n < 2 ^ 32)
    (start : StreamReader × Option StreamOutcome) (h : RoundExact n body start)
    (reads : List StreamRead) : StreamExact n body (runStreaming H start reads) := by
  induction reads generalizing start with
  | nil =>
      rcases start with ⟨r, _ | o⟩
      · exact h.1
      · exact h.1
  | cons read reads ih =>
      rcases start with ⟨r, _ | o⟩
      · exact ih _ (streamRound_exact H hn (h.2 rfl) read)
      · exact h.1

theorem startStreaming_exact (H : Handler) {header : HttpRequestHeader} {boundary : List UInt8}
    (discard : Bool) {buffered unread : List UInt8} (hb : boundary ≠ [])
    (hpos : header.postBufferPos = 0) (hlen : header.contentlenght ≠ 0)
    (hn : header.contentlenght.toNat < 2 ^ 32)
    (hbuffered : buffered.length ≤ webserverMaxHeaderLineLenght) :
    RoundExact header.contentlenght.toNat (buffered ++ unread)
      (startStreaming H header boundary discard buffered unread) := by
  have hwf := startPostStream_wf header boundary discard hb
  have hcounted : header.postBufferPos.toNat = ([] : List UInt8).length := by
    rw [hpos]
    rfl
  have hrest : ([] : List UInt8).length < header.contentlenght.toNat := by
    refine Nat.pos_of_ne_zero (fun h => hlen ?_)
    exact UInt64.toNat_inj.mp h
  rw [startStreaming]
  split_ifs with hnil
  · have hrun : StreamRunning header.contentlenght.toNat (buffered ++ unread)
        { stream := startPostStream header boundary discard, unread } :=
      ⟨hwf, rfl, rfl, hcounted, hrest, rfl, by rw [hnil], by simp⟩
    exact ⟨hrun.exact, fun _ => hrun⟩
  · have hmax : webserverMaxHeaderLineLenght = 2048 := rfl
    exact recvPostPayloadStreaming_exact H hn hwf rfl rfl hcounted hrest (by omega) rfl

/-! ## A count that wraps around -/

/-- A body that has given `k` bytes of its preamble, of `n` equal bytes that no boundary starts
with. -/
structure InPreamble (boundary : List UInt8) (c : UInt8) (n k : Nat) (r : StreamReader) : Prop where
  state : r.stream.state = .preamble
  hold : r.stream.hold = []
  active : r.stream.active = true
  delim : r.stream.delim = crlf ++ boundary
  total : r.stream.header.contentlenght.toNat = n
  counted : r.stream.header.postBufferPos.toNat = k % 2 ^ 32
  fed : r.fed.length = k
  unread : r.unread = List.replicate (n - k) c

/-- A byte of the preamble that cannot start the boundary. -/
theorem postStreamFeed_preamble (H : Handler) {s : PostStream} {boundary : List UInt8} {c : UInt8}
    (hs : s.state = .preamble) (hh : s.hold = []) (ha : s.active = true)
    (hd : s.delim = crlf ++ boundary) (hc : boundary.head? ≠ some c)
    (hmore : (s.header.postBufferPos + 1).toNat < s.header.contentlenght.toNat) :
    postStreamFeed H s [c] = ((s.count 1).take [c], 0) := by
  have hneedle : s.delim.drop 2 = boundary := by
    rw [hd]
    rfl
  have hover : ¬ (((s.count 1).take [c]).header.contentlenght.toNat ≤
      ((s.count 1).take [c]).header.postBufferPos.toNat) := Nat.not_le_of_lt hmore
  have hloop : feedLoop H (2 * [c].length + 1) (s.count 1) [c] = ((s.count 1).take [c], [], false) := by
    have hround : feedRound H (s.count 1) [c] = .next ((s.count 1).take [c]) [] := by
      have hskip : scanSkip H (s.delim.drop 2) false (s.count 1) [c] =
          ((s.count 1).take [c], []) := by
        have hhold : (s.count 1).hold = [] := hh
        rw [scanSkip, if_pos hhold, hneedle]
        simp [hc]
      unfold feedRound
      have hstate : (s.count 1).state = .preamble := hs
      have hdelim : (s.count 1).delim = s.delim := rfl
      simp only [hstate, hdelim, scanRounds, scanForNeedle, hskip, if_true]
    simp only [List.length_singleton, feedLoop, hround]
  rw [postStreamFeed, if_neg (by simp [ha]), List.length_singleton]
  rw [List.length_singleton] at hloop
  simp only [hloop, feedEnd]
  rw [if_neg hover]

/-- One more byte of the preamble is read. -/
theorem streamRound_preamble (H : Handler) {boundary : List UInt8} {c : UInt8} {n k : Nat}
    {r : StreamReader} (hc : boundary.head? ≠ some c) (hn : 2 ^ 32 ≤ n) (hk : k < 2 ^ 32)
    (h : InPreamble boundary c n k r) :
    ∃ r', streamRound H r (.readBuf 1) = (r', none) ∧ InPreamble boundary c n (k + 1) r' := by
  have hcounted : r.stream.header.postBufferPos.toNat = k := by
    rw [h.counted, Nat.mod_eq_of_lt hk]
  have hremaining := remaining_toNat hcounted h.total (by omega)
  have hne : r.stream.remaining ≠ 0 := by
    intro h0
    rw [h0, UInt64.toNat_zero] at hremaining
    omega
  have hchunk : postStreamReadChunkSize.toNat = 32768 := rfl
  have hto : min 1 r.toRead.toNat = 1 := by
    rw [StreamReader.toRead, clampTo_toNat, hremaining, hchunk]
    omega
  have hpiece : r.unread.take 1 = [c] ∧ r.unread.drop 1 = List.replicate (n - (k + 1)) c := by
    obtain ⟨m, hm⟩ : ∃ m, n - k = m + 1 := ⟨n - k - 1, by omega⟩
    rw [h.unread, hm, List.replicate_succ, show n - (k + 1) = m by omega]
    exact ⟨rfl, rfl⟩
  have hcount : (r.stream.header.postBufferPos + 1).toNat = (k + 1) % 2 ^ 32 := by
    rw [UInt32.toNat_add, hcounted]
    rfl
  have hfeed : postStreamFeed H r.stream [c] = ((r.stream.count 1).take [c], 0) := by
    refine postStreamFeed_preamble H h.state h.hold h.active h.delim hc ?_
    rw [hcount, h.total]
    omega
  have huse : clampTo r.stream.remaining (([c] : List UInt8).length.toUInt32) = 1 := by
    rw [← UInt32.toNat_inj, clampTo_toNat, hremaining]
    have h1 : (([c] : List UInt8).length.toUInt32).toNat = 1 := rfl
    have h1' : (1 : UInt32).toNat = 1 := rfl
    rw [h1, h1']
    omega
  have hround : streamRound H r (.readBuf 1) =
      ({ r with
          stream := (r.stream.count 1).take [c]
          headerBuffer := []
          unread := List.replicate (n - (k + 1)) c
          fed := r.fed ++ [c]
          lastFeed := some 0 }, none) := by
    rw [streamRound, if_neg hne]
    dsimp only
    rw [hto, hpiece.1, hpiece.2, if_neg (by simp), recvPostPayloadStreaming]
    dsimp only
    rw [huse]
    have htake : ([c] : List UInt8).take (1 : UInt32).toNat = [c] := rfl
    have hlt : ¬ (1 : UInt32) < ([c] : List UInt8).length.toUInt32 :=
      show ¬ (1 : UInt32) < 1 by decide
    have hneg : ¬ (0 : Int) < 0 := by decide
    have hone : ¬ (0 : Int) = 1 := by decide
    rw [htake, hfeed, if_neg hneg, if_neg hlt, if_neg hone]
  refine ⟨_, hround, ?_⟩
  refine ⟨h.state, h.hold, h.active, h.delim, h.total, ?_, ?_, rfl⟩
  · exact hcount
  · rw [List.length_append, h.fed]
    rfl

/-- The bytes of the preamble are read one by one. -/
theorem runStreaming_preamble (H : Handler) {boundary : List UInt8} {c : UInt8} {n : Nat}
    (hc : boundary.head? ≠ some c) (hn : 2 ^ 32 ≤ n) (m k : Nat) (hk : k + m ≤ 2 ^ 32)
    {r : StreamReader} (h : InPreamble boundary c n k r) :
    ∃ r', runStreaming H (r, none) (List.replicate m (.readBuf 1)) = (r', none) ∧
      InPreamble boundary c n (k + m) r' := by
  induction m generalizing k r with
  | zero => exact ⟨r, rfl, h⟩
  | succ m ih =>
      obtain ⟨r1, hround, h1⟩ := streamRound_preamble H hc hn (by omega) h
      obtain ⟨r2, hrun, h2⟩ := ih (k + 1) (by omega) h1
      refine ⟨r2, ?_, ?_⟩
      · rw [List.replicate_succ, runStreaming, hround, hrun]
      · rw [show k + (m + 1) = k + 1 + m by omega]
        exact h2

/-- **After `2 ^ 32` bytes the count is `0` again.** -/
theorem streaming_wraps (H : Handler) {header : HttpRequestHeader} {boundary : List UInt8}
    (discard : Bool) {c : UInt8} (hc : boundary.head? ≠ some c) (hpos : header.postBufferPos = 0)
    (hn : 2 ^ 32 ≤ header.contentlenght.toNat) :
    ¬ AlwaysExact H header.contentlenght.toNat (List.replicate header.contentlenght.toNat c)
      (startStreaming H header boundary discard []
        (List.replicate header.contentlenght.toNat c))
      (List.replicate (2 ^ 32) (.readBuf 1)) := by
  intro h
  have hstart : InPreamble boundary c header.contentlenght.toNat 0
      { stream := startPostStream header boundary discard,
        unread := List.replicate header.contentlenght.toNat c } :=
    ⟨rfl, rfl, rfl, rfl, rfl, by
      show header.postBufferPos.toNat = 0 % 2 ^ 32
      rw [hpos]
      rfl, rfl, rfl⟩
  obtain ⟨r', hrun, h'⟩ := runStreaming_preamble H hc hn (2 ^ 32) 0 (by omega) hstart
  have hexact := h _ List.prefix_rfl
  rw [startStreaming, if_pos rfl, hrun] at hexact
  have hcounted := hexact.counted
  rw [h'.counted, h'.fed] at hcounted
  omega

/-! ## Which uploads are counted exactly -/

/-- A request that is given to a stream handler has a body. -/
theorem contentlenght_of_streaming {srv : PostServer} {r r' : HeaderReader} {status : HeaderStatus}
    {e : PostStreamHandlerEntry} (h : postHeaderEnd srv r status = (r', some (.streaming e))) :
    r.sock.header.contentlenght ≠ 0 := by
  intro h0
  unfold postHeaderEnd at h
  cases hcheck : checkPostHeader srv r.sock.header with
  | some code =>
      rw [hcheck] at h
      exact absurd (congrArg Prod.snd h) (by simp)
  | none =>
      rw [hcheck] at h
      simp only [if_pos h0] at h
      exact absurd (congrArg Prod.snd h) (by simp)

/-- **Which uploads are counted exactly**: a request that `check_post_header` admits for a stream
handler, with any body in any segmentation, if and only if its length is a 32-bit number. -/
theorem streamed_count_iff (srv : PostServer) (r r' : HeaderReader) (status : HeaderStatus)
    (e : PostStreamHandlerEntry) (h : postHeaderEnd srv r status = (r', some (.streaming e)))
    (hpos : r.sock.header.postBufferPos = 0) (name : List UInt8)
    (hb : r.sock.header.boundary = some (ascii "--" ++ name)) :
    (∀ (H : Handler) (discard : Bool) (buffered unread : List UInt8) (reads : List StreamRead),
      buffered.length ≤ webserverMaxHeaderLineLenght →
      AlwaysExact H r.sock.header.contentlenght.toNat (buffered ++ unread)
        (startStreaming H r.sock.header (r.sock.header.boundary.getD []) discard buffered unread)
        reads) ↔
      r.sock.header.contentlenght.toNat < 2 ^ 32 := by
  have hlen := contentlenght_of_streaming h
  rw [hb, Option.getD_some]
  constructor
  · intro hexact
    by_contra hn
    have hhead : (ascii "--" ++ name).head? ≠ some 97 := by simp [ascii]
    exact streaming_wraps (fun _ => false) false hhead hpos (Nat.le_of_not_lt hn)
      (hexact _ false [] _ _ (Nat.zero_le _))
  · intro hn H discard buffered unread reads hbuffered done _
    exact runStreaming_exact H hn _
      (startStreaming_exact H discard (by simp [ascii]) hpos hlen hn hbuffered) done

/-- A server with a handler for `upload`, which takes bodies of up to `maxSize` bytes. -/
def uploadServer (maxSize : UInt64) : PostServer where
  registrations := []
  maxPostSize := 1000000
  streamHandlers := [⟨ascii "upload", maxSize⟩]
  postBufferReserve := fun _ => true
  uninit := fun _ => 0

/-- An upload to that handler, at the end of its header. -/
def uploadRequest (contentlenght : UInt64) : HeaderReader where
  sock :=
    { header :=
        { webserverMallocHttpRequestHeader with
          url := some (ascii "upload")
          method := .post
          contenttype := .multipartFormData
          boundary := some (ascii "--b")
          contentlenght := contentlenght
          headerComplete := true }
      reverseProxyChecked := true }
  headerBuffer := []
  unread := []

/-- An upload of a million bytes. -/
theorem streamed_count_million :
    (∀ (H : Handler) (discard : Bool) (buffered unread : List UInt8) (reads : List StreamRead),
      buffered.length ≤ webserverMaxHeaderLineLenght →
      AlwaysExact H 1000000 (buffered ++ unread)
        (startStreaming H (uploadRequest 1000000).sock.header (ascii "--b") discard buffered unread)
        reads) ↔ 1000000 < 2 ^ 32 :=
  streamed_count_iff (uploadServer 2000000) (uploadRequest 1000000) (uploadRequest 1000000) .complete
    ⟨ascii "upload", 2000000⟩ rfl rfl (ascii "b") rfl

/-- An upload of `2 ^ 32` bytes is admitted, and is not counted exactly. -/
theorem streamed_count_fourGiB :
    postHeaderEnd (uploadServer 0x200000000) (uploadRequest 0x100000000) .complete =
        (uploadRequest 0x100000000, some (.streaming ⟨ascii "upload", 0x200000000⟩)) ∧
      ¬ ∀ (H : Handler) (discard : Bool) (buffered unread : List UInt8) (reads : List StreamRead),
        buffered.length ≤ webserverMaxHeaderLineLenght →
        AlwaysExact H (2 ^ 32) (buffered ++ unread)
          (startStreaming H (uploadRequest 0x100000000).sock.header (ascii "--b") discard buffered
            unread) reads := by
  refine ⟨rfl, fun hexact => ?_⟩
  have hlen : (uploadRequest 0x100000000).sock.header.contentlenght.toNat = 2 ^ 32 := rfl
  have hhead : (ascii "--b").head? ≠ some 97 := by decide
  have hpos : (uploadRequest 0x100000000).sock.header.postBufferPos = 0 := rfl
  have hwraps := streaming_wraps (fun _ => false) false hhead hpos hlen.ge
  rw [hlen] at hwraps
  exact hwraps (hexact _ false [] _ _ (Nat.zero_le _))

end CWebUI.Post
