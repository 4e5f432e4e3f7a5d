import CWebUI.Http.HeaderLine
import CWebUI.Proxy.Registration

set_option autoImplicit false

/-! # Reading a request header

`ParseHeader` (`header_parser.c`) and the loop of `handleClientHeaderData`
(`system_sockets.c`) around it. The loop receives into a buffer of fixed size, has the
parser take one line from its front, shifts the rest to the front and goes on. It returns to
the event loop when no line is complete, and is entered again when more bytes are there.

The socket is a stream of bytes that are still to come. How many of them a call of `recv`
gives is decided from outside, so a run is a list of numbers: one for each call.
-/

namespace CWebUI.Http

open ByteString CWebUI.Proxy

/-- `WEBSERVER_MAX_HEADER_LINE_LENGHT`, the size of the header buffer. -/
def webserverMaxHeaderLineLenght : Nat := 2048

/-- `WEBSERVER_MAX_HEADER_SIZE`. -/
def webserverMaxHeaderSize : Nat := 16 * 1024

/-! ## One line -/

/-- The results of `ParseHeader`. -/
inductive HeaderStatus where
  /-- A line of so many bytes, its CRLF included, has been read. -/
  | line (length : Nat)
  /-- `0`: the line does not fit into the buffer. -/
  | lineTooLong
  /-- `-6`: no complete line. -/
  | noLine
  /-- `-4`: the line was refused. -/
  | methodNotAllowed
  /-- `-3`: the header is complete, and more bytes follow. -/
  | completeMoreData
  /-- `-2`: the header is complete. -/
  | complete
  /-- `-7`: the reverse proxy has taken over. -/
  | reverseProxy
  /-- `-8`: the header as a whole is too large. -/
  | headerTooLarge
  deriving DecidableEq, Repr

/-- What the search for the end of the first line finds. -/
inductive LineSearch where
  | notFound
  | tooLong
  /-- The index of the LF. -/
  | found (i : Nat)
  deriving DecidableEq, Repr

/-- The loop of `ParseHeader`, at index `i` with `prev` the byte before it. Its second test,
for two line ends in a row, comes too late to be true: the first has returned by then. -/
def findLine (prev : UInt8) : Nat → List UInt8 → LineSearch
  | _, [] => .notFound
  | i, c :: rest =>
      if webserverMaxHeaderLineLenght - 1 ≤ i then .tooLong
      else if c = lf ∧ prev = cr then .found i
      else findLine c (i + 1) rest

/-- The search as `ParseHeader` starts it, with the index `3`. -/
def searchLine (buffer : List UInt8) : LineSearch :=
  match buffer with
  | _ :: _ :: c :: rest => findLine c 3 rest
  | _ => .notFound

/-- The part of a connection that the parser changes. -/
structure HeaderSocket where
  header : HttpRequestHeader
  reverseProxyChecked : Bool
  deriving DecidableEq, Repr

/-- The end of a header, when the buffer starts with an empty line. An empty line before the
first line is dropped if more bytes follow it. -/
def headerEnd (s : HeaderSocket) (buffer : List UInt8) : HeaderSocket × HeaderStatus :=
  if s.header.parsedBytes = 0 ∧ 2 < buffer.length then (s, .completeMoreData)
  else
    ({ s with header := { s.header with
        parsedBytes := s.header.parsedBytes + 2
        headerComplete := true } },
      if 2 < buffer.length then .completeMoreData else .complete)

/-- A line whose LF has the index `i`. -/
def headerLine (s : HeaderSocket) (buffer : List UInt8) (i : Nat) : HeaderSocket × HeaderStatus :=
  if webserverMaxHeaderSize < s.header.parsedBytes + i + 1 then (s, .headerTooLarge)
  else
    match analyseHeaderLine (buffer.take (i - 1)) s.header with
    | (header, false) => ({ s with header := header }, .methodNotAllowed)
    | (header, true) =>
        ({ s with header := { header with parsedBytes := header.parsedBytes + (i + 1) } },
          .line (i + 1))

/-- `ParseHeader`. -/
def parseHeader (registrations : List ProxyRegistration) (s : HeaderSocket)
    (buffer : List UInt8) : HeaderSocket × HeaderStatus :=
  if crlf <+: buffer then headerEnd s buffer
  else
    match searchLine buffer with
    | .notFound => (s, .noLine)
    | .tooLong => (s, .lineTooLong)
    | .found i =>
        match checkReverseProxy registrations s.reverseProxyChecked buffer with
        | .taken _ => ({ s with reverseProxyChecked := true }, .reverseProxy)
        | .pass checked => headerLine { s with reverseProxyChecked := checked } buffer i

/-- The number of bytes that `ParseHeader` reports as parsed. -/
def HeaderStatus.parsed : HeaderStatus → Nat
  | .line n => n
  | .completeMoreData => 2
  | .complete => 2
  | _ => 0

/-! ## The loop -/

/-- How the header phase of a request ends. -/
inductive HeaderOutcome where
  /-- The buffer is full and no line has been recognised: the internal error. -/
  | internalError
  | ended (status : HeaderStatus)
  deriving DecidableEq, Repr

/-- A connection in its header phase, with the bytes that have not been received. -/
structure HeaderReader where
  sock : HeaderSocket
  headerBuffer : List UInt8
  unread : List UInt8
  deriving DecidableEq, Repr

/-- `WebserverRecv` into the free part of the header buffer: at most `n` bytes, none when
the buffer is full and the call is left out. -/
def HeaderReader.recv (r : HeaderReader) (n : Nat) : HeaderReader :=
  let k := min n (webserverMaxHeaderLineLenght - r.headerBuffer.length)
  { r with headerBuffer := r.headerBuffer ++ r.unread.take k, unread := r.unread.drop k }

/-- `reCopyHeaderBuffer`. -/
def HeaderReader.reCopyHeaderBuffer (r : HeaderReader) (parsed : Nat) : HeaderReader :=
  { r with headerBuffer := r.headerBuffer.drop parsed }

/-- What a round of the loop does with the result of `ParseHeader`. `none` means that the
loop goes on, or waits for more bytes. -/
def headerOutcome (r : HeaderReader) : HeaderStatus → Option HeaderOutcome
  | .line _ => none
  | .noLine =>
      if webserverMaxHeaderLineLenght - r.headerBuffer.length = 0 then some .internalError else none
  | status => some (.ended status)

/-- One round of the loop of `handleClientHeaderData`, with a call of `recv` that gives at
most `n` bytes. -/
def headerRound (registrations : List ProxyRegistration) (r : HeaderReader) (n : Nat) :
    HeaderReader × Option HeaderOutcome :=
  let r := r.recv n
  if r.headerBuffer = [] then (r, none)
  else
    let (sock, status) := parseHeader registrations r.sock r.headerBuffer
    let r := { r with sock := sock }.reCopyHeaderBuffer status.parsed
    (r, headerOutcome r status)

/-- The header phase of a request, with the calls of `recv` giving these numbers of bytes. -/
def runHeader (registrations : List ProxyRegistration) :
    HeaderReader → List Nat → HeaderReader × Option HeaderOutcome
  | r, [] => (r, none)
  | r, n :: ns =>
      match headerRound registrations r n with
      | (r', some o) => (r', some o)
      | (r', none) => runHeader registrations r' ns

/-- A header phase with nothing left to do: it has ended, or it waits and no bytes are to
come. -/
def Settled (registrations : List ProxyRegistration)
    (result : HeaderReader × Option HeaderOutcome) : Prop :=
  result.2 ≠ none ∨ (result.1.unread = [] ∧ (result.1.headerBuffer = [] ∨
    (parseHeader registrations result.1.sock result.1.headerBuffer).2 = .noLine))

/-! ## The header as a whole

What the loop computes does not depend on the buffer: it is `readHeader`, which has all the
bytes in view, takes line after line from them and never waits. -/

/-- The parser with all the bytes in view and without a proxy. -/
def readHeader : Nat → HttpRequestHeader → List UInt8 →
    HttpRequestHeader × List UInt8 × HeaderStatus
  | 0, header, bytes => (header, bytes, .noLine)
  | n + 1, header, bytes =>
      match parseHeader [] ⟨header, true⟩ bytes with
      | (s, .line k) => readHeader n s.header (bytes.drop k)
      | (s, status) => (s.header, bytes.drop status.parsed, status)

/-- The header at the front of a byte string. Every line has at least four bytes. -/
def headerOf (header : HttpRequestHeader) (bytes : List UInt8) :
    HttpRequestHeader × List UInt8 × HeaderStatus :=
  readHeader (bytes.length + 1) header bytes

/-- The result without the difference between `-2` and `-3`. -/
def HeaderStatus.norm : HeaderStatus → HeaderStatus
  | .completeMoreData => .complete
  | status => status

/-! ### The search for a line -/

theorem findLine_append (prev : UInt8) (i : Nat) (buffer rest : List UInt8)
    (h : findLine prev i buffer ≠ .notFound) :
    findLine prev i (buffer ++ rest) = findLine prev i buffer := by
  induction buffer generalizing prev i with
  | nil => exact absurd rfl h
  | cons c buffer ih =>
      rw [List.cons_append]
      unfold findLine at h ⊢
      split_ifs at h ⊢
      · rfl
      · rfl
      · exact ih c (i + 1) h

/-- A search without a result has not reached the end of the buffer. -/
theorem findLine_notFound (prev : UInt8) (i : Nat) (buffer : List UInt8)
    (h : findLine prev i buffer = .notFound) (hne : buffer ≠ []) :
    i + buffer.length < webserverMaxHeaderLineLenght := by
  induction buffer generalizing prev i with
  | nil => exact absurd rfl hne
  | cons c buffer ih =>
      unfold findLine at h
      split_ifs at h with h1 h2
      have hmax : 1 ≤ webserverMaxHeaderLineLenght := by decide
      cases buffer with
      | nil =>
          simp only [List.length_cons, List.length_nil]
          omega
      | cons d buffer =>
          have := ih c (i + 1) h (by simp)
          simp only [List.length_cons] at this ⊢
          omega

theorem findLine_found (prev : UInt8) (i j : Nat) (buffer : List UInt8)
    (h : findLine prev i buffer = .found j) : i ≤ j ∧ j < i + buffer.length := by
  induction buffer generalizing prev i with
  | nil => simp [findLine] at h
  | cons c buffer ih =>
      unfold findLine at h
      split_ifs at h with h1 h2
      · have hij : i = j := by simpa using h
        simp only [List.length_cons]
        omega
      · have := ih c (i + 1) h
        simp only [List.length_cons]
        omega

theorem searchLine_append (buffer rest : List UInt8) (h : searchLine buffer ≠ .notFound) :
    searchLine (buffer ++ rest) = searchLine buffer := by
  match buffer with
  | [] => exact absurd rfl h
  | [a] => exact absurd rfl h
  | [a, b] => exact absurd rfl h
  | a :: b :: c :: buffer => exact findLine_append c 3 buffer rest h

theorem searchLine_notFound (buffer : List UInt8) (h : searchLine buffer = .notFound) :
    buffer.length < webserverMaxHeaderLineLenght := by
  have hmax : webserverMaxHeaderLineLenght = 2048 := rfl
  match buffer with
  | [] => simp [hmax]
  | [a] => simp [hmax]
  | [a, b] => simp [hmax]
  | [a, b, c] => simp [hmax]
  | a :: b :: c :: d :: buffer =>
      have := findLine_notFound c 3 (d :: buffer) h (by simp)
      simp only [List.length_cons] at this ⊢
      omega

theorem searchLine_found {buffer : List UInt8} {i : Nat} (h : searchLine buffer = .found i) :
    3 ≤ i ∧ i < buffer.length := by
  match buffer with
  | [] => simp [searchLine] at h
  | [a] => simp [searchLine] at h
  | [a, b] => simp [searchLine] at h
  | a :: b :: c :: buffer =>
      have := findLine_found c 3 i buffer h
      simp only [List.length_cons]
      omega

theorem searchLine_length {buffer : List UInt8} (h : searchLine buffer ≠ .notFound) :
    3 < buffer.length := by
  match buffer with
  | [] => exact absurd rfl h
  | [a] => exact absurd rfl h
  | [a, b] => exact absurd rfl h
  | [a, b, c] => exact absurd rfl h
  | a :: b :: c :: d :: buffer =>
      simp only [List.length_cons]
      omega

/-- A buffer that has two bytes starts with an empty line if and only if the stream does. -/
theorem crlf_prefix_append {buffer : List UInt8} (rest : List UInt8) (h : 2 ≤ buffer.length) :
    crlf <+: buffer ++ rest ↔ crlf <+: buffer := by
  constructor
  · intro hp
    exact List.prefix_of_prefix_length_le hp (List.prefix_append _ _) h
  · intro hp
    exact hp.trans (List.prefix_append _ _)

/-! ### One line, seen with more bytes behind it -/

theorem headerEnd_append (s : HeaderSocket) (buffer rest : List UInt8)
    (hs : s.header.parsedBytes ≠ 0) :
    (headerEnd ⟨s.header, true⟩ (buffer ++ rest)).1.header = (headerEnd s buffer).1.header ∧
      (headerEnd ⟨s.header, true⟩ (buffer ++ rest)).2.norm = (headerEnd s buffer).2.norm := by
  have h1 : ¬ (s.header.parsedBytes = 0 ∧ 2 < (buffer ++ rest).length) := fun h => hs h.1
  have h2 : ¬ (s.header.parsedBytes = 0 ∧ 2 < buffer.length) := fun h => hs h.1
  rw [headerEnd, if_neg h1, headerEnd, if_neg h2]
  refine ⟨rfl, ?_⟩
  split_ifs <;> rfl

theorem headerLine_append (s : HeaderSocket) (checked : Bool) (buffer rest : List UInt8)
    {i : Nat} (hi : i < buffer.length) :
    (headerLine ⟨s.header, true⟩ (buffer ++ rest) i).1.header =
        (headerLine { s with reverseProxyChecked := checked } buffer i).1.header ∧
      (headerLine ⟨s.header, true⟩ (buffer ++ rest) i).2 =
        (headerLine { s with reverseProxyChecked := checked } buffer i).2 := by
  have htake : (buffer ++ rest).take (i - 1) = buffer.take (i - 1) :=
    List.take_append_of_le_length (by omega)
  unfold headerLine
  rw [htake]
  split_ifs
  · exact ⟨rfl, rfl⟩
  · rcases analyseHeaderLine (buffer.take (i - 1)) s.header with ⟨header, _ | _⟩
    · exact ⟨rfl, rfl⟩
    · exact ⟨rfl, rfl⟩

/-- **A result of `ParseHeader` does not change when more bytes follow**, as long as the
proxy does not take over. -/
theorem parseHeader_append {registrations : List ProxyRegistration} {s : HeaderSocket}
    {buffer rest : List UInt8} (hstart : s.header.parsedBytes ≠ 0 ∨ ¬ crlf <+: buffer ++ rest)
    (hline : (parseHeader registrations s buffer).2 ≠ .noLine)
    (hproxy : (parseHeader registrations s buffer).2 ≠ .reverseProxy) :
    (parseHeader [] ⟨s.header, true⟩ (buffer ++ rest)).1.header =
        (parseHeader registrations s buffer).1.header ∧
      (parseHeader [] ⟨s.header, true⟩ (buffer ++ rest)).2.norm =
        (parseHeader registrations s buffer).2.norm := by
  unfold parseHeader at hline hproxy ⊢
  by_cases hp : crlf <+: buffer
  · have hp' : crlf <+: buffer ++ rest := hp.trans (List.prefix_append _ _)
    rw [if_pos hp, if_pos hp']
    exact headerEnd_append s buffer rest (hstart.resolve_right (not_not.mpr hp'))
  · rw [if_neg hp] at hline hproxy ⊢
    have hfound : searchLine buffer ≠ .notFound := by
      intro h
      rw [h] at hline
      exact hline rfl
    have hp' : ¬ crlf <+: buffer ++ rest := by
      have := searchLine_length hfound
      rw [crlf_prefix_append rest (by omega)]
      exact hp
    rw [if_neg hp', searchLine_append buffer rest hfound]
    cases hsearch : searchLine buffer with
    | notFound => exact absurd hsearch hfound
    | tooLong => exact ⟨rfl, rfl⟩
    | found i =>
        rw [hsearch] at hproxy
        cases hcheck : checkReverseProxy registrations s.reverseProxyChecked buffer with
        | taken r => exact absurd (by rw [hcheck]) hproxy
        | pass checked =>
            obtain ⟨h1, h2⟩ := headerLine_append s checked buffer rest (searchLine_found hsearch).2
            exact ⟨h1, congrArg HeaderStatus.norm h2⟩

theorem headerLine_ne_noLine (s : HeaderSocket) (buffer : List UInt8) (i : Nat) :
    (headerLine s buffer i).2 ≠ .noLine := by
  unfold headerLine
  split_ifs
  · simp
  · rcases analyseHeaderLine (buffer.take (i - 1)) s.header with ⟨header, _ | _⟩ <;> simp

/-- Without a complete line nothing happens, and the buffer is not full. -/
theorem parseHeader_noLine {registrations : List ProxyRegistration} {s : HeaderSocket}
    {buffer : List UInt8} (h : (parseHeader registrations s buffer).2 = .noLine) :
    (parseHeader registrations s buffer).1 = s ∧ ¬ crlf <+: buffer ∧
      searchLine buffer = .notFound := by
  unfold parseHeader at h ⊢
  by_cases hp : crlf <+: buffer
  · rw [if_pos hp, headerEnd] at h
    split_ifs at h
  · rw [if_neg hp] at h ⊢
    cases hsearch : searchLine buffer with
    | notFound => exact ⟨rfl, hp, rfl⟩
    | tooLong =>
        rw [hsearch] at h
        exact absurd h (by simp)
    | found i =>
        rw [hsearch] at h
        exfalso
        cases hcheck : checkReverseProxy registrations s.reverseProxyChecked buffer with
        | taken r =>
            simp [hcheck] at h
        | pass checked =>
            simp only [hcheck] at h
            exact headerLine_ne_noLine _ buffer i h

end CWebUI.Http
