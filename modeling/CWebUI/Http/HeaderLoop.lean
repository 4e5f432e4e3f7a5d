import CWebUI.Http.ParseHeader

set_option autoImplicit false

/-! # How a header is cut does not matter

The loop of `handleClientHeaderData` gives the header that `headerOf` reads from the whole
stream, whatever `recv` does. The invariant is that the header still to be read, from the
bytes in the buffer and the bytes to come, does not change from round to round
(`headerRound_spec`). The buffer is never full without a line or an error in it.
-/

namespace CWebUI.Http

open ByteString CWebUI.Proxy

/-! ## Lines are taken from the front -/

/-- A line has at least four bytes, lies in the buffer, and is counted. -/
theorem parseHeader_line {registrations : List ProxyRegistration} {s : HeaderSocket}
    {buffer : List UInt8} {k : Nat} (h : (parseHeader registrations s buffer).2 = .line k) :
    4 ≤ k ∧ k ≤ buffer.length ∧
      (parseHeader registrations s buffer).1.header.parsedBytes ≠ 0 := by
  unfold parseHeader at h ⊢
  by_cases hp : crlf <+: buffer
  · rw [if_pos hp, headerEnd] at h
    split_ifs at h
  · rw [if_neg hp] at h ⊢
    cases hsearch : searchLine buffer with
    | notFound => simp [hsearch] at h
    | tooLong => simp [hsearch] at h
    | found i =>
        obtain ⟨h3, hlt⟩ := searchLine_found hsearch
        cases hcheck : checkReverseProxy registrations s.reverseProxyChecked buffer with
        | taken r => simp [hsearch, hcheck] at h
        | pass checked =>
            simp only [hsearch, hcheck] at h ⊢
            unfold headerLine at h ⊢
            split_ifs at h ⊢
            cases hana : analyseHeaderLine (buffer.take (i - 1)) s.header with
            | mk header ok =>
                cases ok with
                | false => simp [hana] at h
                | true =>
                    simp only [hana] at h ⊢
                    have hk : i + 1 = k := by simpa using h
                    exact ⟨by omega, by omega, by omega⟩

/-- The end of a header is an empty line, of two bytes. -/
theorem parseHeader_parsed {registrations : List ProxyRegistration} {s : HeaderSocket}
    {buffer : List UInt8} :
    (parseHeader registrations s buffer).2.parsed ≤ buffer.length := by
  by_cases hp : crlf <+: buffer
  · have hlen : 2 ≤ buffer.length := hp.length_le
    unfold parseHeader
    rw [if_pos hp, headerEnd]
    split_ifs <;> exact hlen
  · cases hst : (parseHeader registrations s buffer).2 with
    | line k => exact (parseHeader_line hst).2.1
    | completeMoreData | complete =>
        exfalso
        unfold parseHeader at hst
        rw [if_neg hp] at hst
        cases hsearch : searchLine buffer with
        | notFound | tooLong => simp [hsearch] at hst
        | found i =>
            cases hcheck : checkReverseProxy registrations s.reverseProxyChecked buffer with
            | taken r => simp [hsearch, hcheck] at hst
            | pass checked =>
                simp only [hsearch, hcheck] at hst
                revert hst
                unfold headerLine
                split_ifs
                · simp
                · rcases analyseHeaderLine (buffer.take (i - 1)) s.header with ⟨header, _ | _⟩ <;>
                    simp
    | _ => exact Nat.zero_le _

theorem readHeader_fuel (n m : Nat) (header : HttpRequestHeader) (bytes : List UInt8)
    (hn : bytes.length < n) (hm : bytes.length < m) :
    readHeader n header bytes = readHeader m header bytes := by
  induction n generalizing m header bytes with
  | zero => omega
  | succ n ih =>
      obtain ⟨m, rfl⟩ : ∃ k, m = k + 1 := ⟨m - 1, by omega⟩
      have hline := @parseHeader_line [] ⟨header, true⟩ bytes
      unfold readHeader
      revert hline
      rcases parseHeader [] ⟨header, true⟩ bytes with ⟨s, status⟩
      intro hline
      cases status with
      | line k =>
          obtain ⟨h4, hk, -⟩ := hline rfl
          exact ih m s.header (bytes.drop k) (by rw [List.length_drop]; omega)
            (by rw [List.length_drop]; omega)
      | _ => rfl

/-- The header behind a line. -/
theorem headerOf_line {header : HttpRequestHeader} {bytes : List UInt8} {k : Nat}
    (h : (parseHeader [] ⟨header, true⟩ bytes).2 = .line k) :
    headerOf header bytes =
      headerOf (parseHeader [] ⟨header, true⟩ bytes).1.header (bytes.drop k) := by
  obtain ⟨h4, hk, -⟩ := parseHeader_line h
  have hstep : headerOf header bytes =
      readHeader bytes.length (parseHeader [] ⟨header, true⟩ bytes).1.header (bytes.drop k) := by
    rw [headerOf, readHeader]
    revert h
    rcases parseHeader [] ⟨header, true⟩ bytes with ⟨s, status⟩
    rintro rfl
    rfl
  rw [hstep]
  exact readHeader_fuel _ _ _ _ (by rw [List.length_drop]; omega) (by omega)

/-- The header at its end, or where it cannot be read on. -/
theorem headerOf_end {header : HttpRequestHeader} {bytes : List UInt8}
    (h : ∀ k, (parseHeader [] ⟨header, true⟩ bytes).2 ≠ .line k) :
    headerOf header bytes = ((parseHeader [] ⟨header, true⟩ bytes).1.header,
      bytes.drop (parseHeader [] ⟨header, true⟩ bytes).2.parsed,
      (parseHeader [] ⟨header, true⟩ bytes).2) := by
  rw [headerOf, readHeader]
  revert h
  rcases parseHeader [] ⟨header, true⟩ bytes with ⟨s, status⟩
  intro h
  cases status with
  | line k => exact absurd rfl (h k)
  | _ => rfl

/-! ## One round -/

/-- The bytes that have not been parsed. -/
def HeaderReader.bytes (r : HeaderReader) : List UInt8 := r.headerBuffer ++ r.unread

/-- The header that is still to be read, without the difference between `-2` and `-3`. -/
def HeaderReader.result (r : HeaderReader) : HttpRequestHeader × List UInt8 × HeaderStatus :=
  ((headerOf r.sock.header r.bytes).1, (headerOf r.sock.header r.bytes).2.1,
    (headerOf r.sock.header r.bytes).2.2.norm)

/-- What holds between two rounds. -/
structure HeaderReader.Ready (r : HeaderReader) : Prop where
  buffer : r.headerBuffer.length ≤ webserverMaxHeaderLineLenght
  start : r.sock.header.parsedBytes ≠ 0 ∨ ¬ crlf <+: r.bytes

theorem recv_bytes (r : HeaderReader) (n : Nat) : (r.recv n).bytes = r.bytes := by
  simp [HeaderReader.recv, HeaderReader.bytes]

theorem HeaderReader.Ready.recv {r : HeaderReader} (h : r.Ready) (n : Nat) :
    (r.recv n).Ready := by
  refine ⟨?_, ?_⟩
  · have hb := h.buffer
    simp only [HeaderReader.recv, List.length_append, List.length_take]
    omega
  · rw [recv_bytes]
    exact h.start

theorem norm_line {status : HeaderStatus} {k : Nat} (h : status.norm = .line k) :
    status = .line k := by
  cases status <;> simp_all [HeaderStatus.norm]

theorem norm_parsed (status : HeaderStatus) : status.norm.parsed = status.parsed := by
  cases status <;> rfl

/-- The round after `recv`, when there is something in the buffer. -/
def parseRound (registrations : List ProxyRegistration) (r : HeaderReader) :
    HeaderReader × Option HeaderOutcome :=
  let status := (parseHeader registrations r.sock r.headerBuffer).2
  let r' := { r with sock := (parseHeader registrations r.sock r.headerBuffer).1 }.reCopyHeaderBuffer
    status.parsed
  (r', headerOutcome r' status)

theorem headerRound_eq (registrations : List ProxyRegistration) (r : HeaderReader) (n : Nat) :
    headerRound registrations r n =
      if (r.recv n).headerBuffer = [] then (r.recv n, none)
      else parseRound registrations (r.recv n) := rfl

/-- Parsing without a complete line changes nothing, and waits. -/
theorem parseRound_noLine {registrations : List ProxyRegistration} {r : HeaderReader}
    (h : (parseHeader registrations r.sock r.headerBuffer).2 = .noLine) :
    parseRound registrations r = (r, none) := by
  obtain ⟨hsame, -, hsearch⟩ := parseHeader_noLine h
  have hroom := searchLine_notFound _ hsearch
  have hr : ({ r with sock := (parseHeader registrations r.sock r.headerBuffer).1
      }.reCopyHeaderBuffer HeaderStatus.noLine.parsed) = r := by
    rw [hsame]
    rfl
  have hopen : ¬ (webserverMaxHeaderLineLenght - r.headerBuffer.length = 0) := by omega
  rw [parseRound]
  simp only [h, hr, headerOutcome, if_neg hopen]

/-- What is left of the buffer, and of the stream, behind the parsed bytes. -/
theorem parseRound_bytes (registrations : List ProxyRegistration) (r : HeaderReader) :
    (parseRound registrations r).1.bytes =
      r.bytes.drop (parseHeader registrations r.sock r.headerBuffer).2.parsed := by
  simp only [parseRound, HeaderReader.reCopyHeaderBuffer, HeaderReader.bytes]
  rw [List.drop_append_of_le_length parseHeader_parsed]

/-- **A round of parsing keeps the header that is still to be read, or gives it.** -/
theorem parseRound_spec {registrations : List ProxyRegistration} {r : HeaderReader}
    (hr : r.Ready)
    (hproxy : (parseRound registrations r).2 ≠ some (.ended .reverseProxy)) :
    ((parseRound registrations r).2 = none ∧ (parseRound registrations r).1.Ready ∧
      (parseRound registrations r).1.result = r.result) ∨
    ∃ status, (parseRound registrations r).2 = some (.ended status) ∧
      r.result = ((parseRound registrations r).1.sock.header,
        (parseRound registrations r).1.bytes, status.norm) ∧ status.norm ≠ .noLine := by
  have hbytes := parseRound_bytes registrations r
  cases hst : (parseHeader registrations r.sock r.headerBuffer).2 with
  | noLine =>
      rw [parseRound_noLine hst]
      exact .inl ⟨rfl, hr, rfl⟩
  | reverseProxy =>
      refine absurd ?_ hproxy
      simp only [parseRound, hst, headerOutcome]
  | line k =>
      have happ := parseHeader_append hr.start (by rw [hst]; simp)
        (by rw [hst]; simp)
      have hline : (parseHeader [] ⟨r.sock.header, true⟩ r.bytes).2 = .line k :=
        norm_line (by rw [HeaderReader.bytes, happ.2, hst]; rfl)
      rw [hst] at hbytes
      refine .inl ⟨by simp only [parseRound, hst, headerOutcome], ⟨?_, .inl ?_⟩, ?_⟩
      · simp only [parseRound, HeaderReader.reCopyHeaderBuffer, List.length_drop]
        exact Nat.le_trans (Nat.sub_le _ _) hr.buffer
      · exact (parseHeader_line hst).2.2
      · have hof : headerOf r.sock.header r.bytes =
            headerOf (parseRound registrations r).1.sock.header
              (parseRound registrations r).1.bytes := by
          rw [headerOf_line hline, hbytes, HeaderReader.bytes, happ.1]
          rfl
        rw [HeaderReader.result, HeaderReader.result, hof]
  | lineTooLong | methodNotAllowed | completeMoreData | complete | headerTooLarge =>
      have happ := parseHeader_append hr.start (by rw [hst]; simp)
        (by rw [hst]; simp)
      have hnorm : (parseHeader [] ⟨r.sock.header, true⟩ r.bytes).2.norm =
          (parseHeader registrations r.sock r.headerBuffer).2.norm := happ.2
      have hend : ∀ k, (parseHeader [] ⟨r.sock.header, true⟩ r.bytes).2 ≠ .line k := by
        intro k hk
        rw [hk, hst] at hnorm
        simp [HeaderStatus.norm] at hnorm
      have hparsed : (parseHeader [] ⟨r.sock.header, true⟩ r.bytes).2.parsed =
          (parseHeader registrations r.sock r.headerBuffer).2.parsed := by
        rw [← norm_parsed, hnorm, norm_parsed]
      refine .inr ⟨(parseHeader registrations r.sock r.headerBuffer).2, ?_, ?_, ?_⟩
      · simp only [parseRound, hst, headerOutcome]
      · rw [HeaderReader.result, headerOf_end hend, hbytes, hparsed, hnorm]
        exact congrArg (·, _) happ.1
      · rw [hst]
        simp [HeaderStatus.norm]

/-! ## Whole runs -/

/-- **A run keeps the header that is still to be read, or gives it.** -/
theorem runHeader_spec {registrations : List ProxyRegistration} (ns : List Nat)
    {r : HeaderReader} (hr : r.Ready)
    (hproxy : (runHeader registrations r ns).2 ≠ some (.ended .reverseProxy)) :
    ((runHeader registrations r ns).2 = none ∧
      (runHeader registrations r ns).1.result = r.result) ∨
    ∃ status, (runHeader registrations r ns).2 = some (.ended status) ∧
      r.result = ((runHeader registrations r ns).1.sock.header,
        (runHeader registrations r ns).1.bytes, status.norm) ∧ status.norm ≠ .noLine := by
  induction ns generalizing r with
  | nil => exact .inl ⟨rfl, rfl⟩
  | cons n ns ih =>
      have hrecv : (r.recv n).result = r.result := by
        rw [HeaderReader.result, HeaderReader.result, recv_bytes]
        rfl
      have hready := hr.recv n
      rw [runHeader, headerRound_eq] at hproxy ⊢
      by_cases hempty : (r.recv n).headerBuffer = []
      · rw [if_pos hempty] at hproxy ⊢
        rw [← hrecv]
        exact ih hready hproxy
      · rw [if_neg hempty] at hproxy ⊢
        have hround := @parseRound_spec registrations (r.recv n) hready
        revert hround hproxy
        rcases parseRound registrations (r.recv n) with ⟨r', _ | o⟩
        · intro hproxy hround
          rcases hround (by simp) with ⟨-, hready', hres⟩ | ⟨status, hst, -⟩
          · rw [← hrecv, ← hres]
            exact ih hready' hproxy
          · exact absurd hst (by simp)
        · intro hproxy hround
          rcases hround hproxy with ⟨hnone, -⟩ | hend
          · exact absurd hnone (by simp)
          · rw [← hrecv]
            exact .inr hend

/-- The buffer is never full without a line or an error in it. -/
theorem runHeader_ne_internalError (registrations : List ProxyRegistration) (ns : List Nat)
    (r : HeaderReader) : (runHeader registrations r ns).2 ≠ some .internalError := by
  induction ns generalizing r with
  | nil => simp [runHeader]
  | cons n ns ih =>
      rw [runHeader, headerRound_eq]
      by_cases hempty : (r.recv n).headerBuffer = []
      · rw [if_pos hempty]
        exact ih _
      · rw [if_neg hempty]
        have hround : (parseRound registrations (r.recv n)).2 ≠ some .internalError := by
          cases hst : (parseHeader registrations (r.recv n).sock (r.recv n).headerBuffer).2 with
          | noLine =>
              rw [parseRound_noLine hst]
              simp
          | _ => simp [parseRound, hst, headerOutcome]
        revert hround
        rcases parseRound registrations (r.recv n) with ⟨r', _ | o⟩
        · intro _
          exact ih r'
        · exact id

/-- A connection that waits with nothing to come has an incomplete header. -/
theorem result_of_waiting {registrations : List ProxyRegistration} {r : HeaderReader}
    (hu : r.unread = [])
    (hw : r.headerBuffer = [] ∨
      (parseHeader registrations r.sock r.headerBuffer).2 = .noLine) :
    r.result = (r.sock.header, r.bytes, .noLine) := by
  have hparse : parseHeader [] ⟨r.sock.header, true⟩ r.bytes = (⟨r.sock.header, true⟩, .noLine) := by
    rw [HeaderReader.bytes, hu, List.append_nil]
    rcases hw with hb | hst
    · rw [hb]
      rfl
    · obtain ⟨-, hp, hsearch⟩ := parseHeader_noLine hst
      rw [parseHeader, if_neg hp, hsearch]
  rw [HeaderReader.result, headerOf_end (by rw [hparse]; simp), hparse]
  rfl

/-- The outcome of a settled run as a result of the parser. -/
def outcomeStatus : Option HeaderOutcome → HeaderStatus
  | some (.ended status) => status.norm
  | _ => .noLine

/-- **A settled run has read the header of the stream.** -/
theorem runHeader_settled {registrations : List ProxyRegistration} (ns : List Nat)
    {r : HeaderReader} (hr : r.Ready)
    (hproxy : (runHeader registrations r ns).2 ≠ some (.ended .reverseProxy))
    (hset : Settled registrations (runHeader registrations r ns)) :
    r.result = ((runHeader registrations r ns).1.sock.header,
      (runHeader registrations r ns).1.bytes, outcomeStatus (runHeader registrations r ns).2) := by
  rcases runHeader_spec ns hr hproxy with ⟨hnone, hres⟩ | ⟨status, hst, hres, -⟩
  · rcases hset with hne | ⟨hu, hw⟩
    · exact absurd hnone hne
    · rw [← hres, result_of_waiting hu hw, hnone]
      rfl
  · rw [hst]
    exact hres

/-- A connection that waits with nothing to come goes on waiting. -/
theorem runHeader_waiting {registrations : List ProxyRegistration} {r : HeaderReader}
    (hu : r.unread = [])
    (hw : r.headerBuffer = [] ∨
      (parseHeader registrations r.sock r.headerBuffer).2 = .noLine) (ns : List Nat) :
    runHeader registrations r ns = (r, none) := by
  induction ns with
  | nil => rfl
  | cons n ns ih =>
      have hrecv : r.recv n = r := by
        cases r
        simp_all [HeaderReader.recv]
      rw [runHeader, headerRound_eq, hrecv]
      by_cases hb : r.headerBuffer = []
      · rw [if_pos hb]
        exact ih
      · rw [if_neg hb, parseRound_noLine (hw.resolve_left hb)]
        exact ih

/-- What a connection has left to do: bytes to receive and bytes to parse. -/
def HeaderReader.work (r : HeaderReader) : Nat := 2 * r.unread.length + r.headerBuffer.length

theorem recv_work (r : HeaderReader) (n : Nat) : (r.recv n).work ≤ r.work := by
  simp only [HeaderReader.work, HeaderReader.recv, List.length_append, List.length_take,
    List.length_drop]
  omega

theorem recv_work_lt (r : HeaderReader) (n : Nat) (hn : 0 < n) (hu : r.unread ≠ [])
    (hroom : r.headerBuffer.length < webserverMaxHeaderLineLenght) : (r.recv n).work < r.work := by
  have : 0 < r.unread.length := List.length_pos_iff.mpr hu
  simp only [HeaderReader.work, HeaderReader.recv, List.length_append, List.length_take,
    List.length_drop]
  omega

/-- **The header phase comes to an end**: enough calls of `recv` that give something whenever
something is there settle it. -/
theorem runHeader_terminates (registrations : List ProxyRegistration) (ns : List Nat)
    (hns : ∀ n ∈ ns, 0 < n) (r : HeaderReader) (hr : r.Ready) (hlen : r.work < ns.length) :
    Settled registrations (runHeader registrations r ns) := by
  induction ns generalizing r with
  | nil => simp at hlen
  | cons n ns ih =>
      have hn : 0 < n := hns n (by simp)
      have hns' : ∀ m ∈ ns, 0 < m := fun m hm => hns m (by simp [hm])
      have hle := recv_work r n
      have hbuf := (hr.recv n).buffer
      rw [List.length_cons] at hlen
      -- a connection that waits has received everything, or has just received something
      have hwait (hw : (r.recv n).headerBuffer = [] ∨
          (parseHeader registrations (r.recv n).sock (r.recv n).headerBuffer).2 = .noLine) :
          Settled registrations (runHeader registrations (r.recv n) ns) := by
        by_cases hu : (r.recv n).unread = []
        · rw [runHeader_waiting hu hw ns]
          exact .inr ⟨hu, hw⟩
        · have hu' : r.unread ≠ [] := by
            intro h
            simp [HeaderReader.recv, h] at hu
          have hroom : r.headerBuffer.length < webserverMaxHeaderLineLenght := by
            have hsub : r.headerBuffer.length ≤ (r.recv n).headerBuffer.length := by
              simp [HeaderReader.recv]
            rcases hw with hb | hst
            · rw [hb] at hsub
              have : r.headerBuffer.length = 0 := by simpa using hsub
              rw [this]
              decide
            · have := searchLine_notFound _ (parseHeader_noLine hst).2.2
              omega
          have hlt := recv_work_lt r n hn hu' hroom
          exact ih hns' _ (hr.recv n) (by omega)
      rw [runHeader, headerRound_eq]
      by_cases hempty : (r.recv n).headerBuffer = []
      · rw [if_pos hempty]
        exact hwait (.inl hempty)
      · rw [if_neg hempty]
        cases hst : (parseHeader registrations (r.recv n).sock (r.recv n).headerBuffer).2 with
        | noLine =>
            rw [parseRound_noLine hst]
            exact hwait (.inr hst)
        | line k =>
            obtain ⟨h4, hk, hpos⟩ := parseHeader_line hst
            have hnone : (parseRound registrations (r.recv n)).2 = none := by
              simp only [parseRound, hst, headerOutcome]
            have hwork : (parseRound registrations (r.recv n)).1.work < (r.recv n).work := by
              simp only [HeaderReader.work, parseRound, HeaderReader.reCopyHeaderBuffer, hst,
                HeaderStatus.parsed, List.length_drop]
              omega
            have hready : (parseRound registrations (r.recv n)).1.Ready := by
              refine ⟨?_, .inl hpos⟩
              simp only [parseRound, HeaderReader.reCopyHeaderBuffer, List.length_drop]
              omega
            have hgo := ih hns' _ hready (by omega)
            revert hnone hgo
            rcases parseRound registrations (r.recv n) with ⟨r', o⟩
            rintro rfl hgo
            exact hgo
        | lineTooLong | methodNotAllowed | completeMoreData | complete | headerTooLarge
        | reverseProxy =>
            have hsome : (parseRound registrations (r.recv n)).2 ≠ none := by
              simp [parseRound, hst, headerOutcome]
            revert hsome
            rcases parseRound registrations (r.recv n) with ⟨r', _ | o⟩
            · intro h
              exact absurd rfl h
            · intro h
              exact .inl h

/-- The number of bytes of the stream that have been parsed. -/
def consumed (stream : List UInt8) (r : HeaderReader) : Nat := stream.length - r.bytes.length

/-- **Header parsing does not depend on how the header is received.** For a stream that does
not start with an empty line, any two ways of receiving it that are not taken over by the
proxy give the same header record, the same number of parsed bytes and the same outcome, up
to the difference between `-2` and `-3`. The internal error of a full buffer without a line
does not occur, and the header phase always settles when bytes keep coming. -/
theorem header_segmentation (registrations : List ProxyRegistration) (s : HeaderSocket)
    (stream : List UInt8) (hstart : ¬ crlf <+: stream) :
    let run := runHeader registrations ⟨s, [], stream⟩
    (∀ ns ms, Settled registrations (run ns) → Settled registrations (run ms) →
      (run ns).2 ≠ some (.ended .reverseProxy) → (run ms).2 ≠ some (.ended .reverseProxy) →
      (run ns).1.sock.header = (run ms).1.sock.header ∧
      consumed stream (run ns).1 = consumed stream (run ms).1 ∧
      outcomeStatus (run ns).2 = outcomeStatus (run ms).2) ∧
    (∀ ns, (run ns).2 ≠ some .internalError) ∧
    (∀ ns, (∀ n ∈ ns, 0 < n) → 2 * stream.length < ns.length →
      Settled registrations (run ns)) := by
  intro run
  have hready : HeaderReader.Ready ⟨s, [], stream⟩ := ⟨Nat.zero_le _, .inr hstart⟩
  refine ⟨fun ns ms hns hms hpn hpm => ?_, fun ns => runHeader_ne_internalError _ ns _,
    fun ns hns hlen => runHeader_terminates _ ns hns _ hready ?_⟩
  · have heq := (runHeader_settled ns hready hpn hns).symm.trans
      (runHeader_settled ms hready hpm hms)
    have hheader := congrArg Prod.fst heq
    have hbytes := congrArg (fun x => x.2.1) heq
    have hstatus := congrArg (fun x => x.2.2) heq
    exact ⟨hheader, congrArg (fun b : List UInt8 => stream.length - b.length) hbytes, hstatus⟩
  · simpa [HeaderReader.work] using hlen

/-- A small request. -/
def sampleRequest : List UInt8 := ascii "GET /x HTTP/1.1\r\n\r\n"

/-- A connection that is to receive it. -/
def sampleReader : HeaderReader := ⟨⟨webserverMallocHttpRequestHeader, false⟩, [], sampleRequest⟩

/-- Received at once, and with a cut in the line and one between its CR and LF. -/
theorem header_segmentation_sample :
    (runHeader [] sampleReader [19, 1]).1.sock.header =
        (runHeader [] sampleReader [5, 11, 1, 2, 1]).1.sock.header ∧
      consumed sampleRequest (runHeader [] sampleReader [19, 1]).1 =
        consumed sampleRequest (runHeader [] sampleReader [5, 11, 1, 2, 1]).1 ∧
      outcomeStatus (runHeader [] sampleReader [19, 1]).2 =
        outcomeStatus (runHeader [] sampleReader [5, 11, 1, 2, 1]).2 :=
  (header_segmentation [] ⟨webserverMallocHttpRequestHeader, false⟩ sampleRequest
    (by decide)).1 [19, 1] [5, 11, 1, 2, 1] (.inl (by decide)) (.inl (by decide)) (by decide)
    (by decide)

end CWebUI.Http
