import CWebUI.Http.ParseHeader

set_option autoImplicit false

/-! # The line law of `ParseHeader`

A line of a header ends at the first CRLF. `ParseHeader` is called with the bytes from the
start of a line on, so it should give the bytes before the first CRLF to `analyseHeaderLine`
and report these and the CRLF as parsed; an empty line ends the header.

The search starts at the index `3`, and its first test asks whether an LF stands there with
a CR before it. A line of two bytes is found with that, an empty line has a test of its own
before the search, and a line of one byte, whose LF has the index `2`, is found by neither.
The search then goes on to the end of the line behind it.
-/

namespace CWebUI.Http

open ByteString CWebUI.Proxy

/-! ## The first line end -/

/-- The first CRLF of the buffer stands at the index `k`. -/
structure FirstCrlf (buffer : List UInt8) (k : Nat) : Prop where
  here : crlf <+: buffer.drop k
  first : ∀ j < k, ¬ crlf <+: buffer.drop j

theorem firstCrlf_zero (buffer : List UInt8) : FirstCrlf buffer 0 ↔ crlf <+: buffer := by
  constructor
  · intro h
    exact h.here
  · intro h
    exact ⟨h, fun j hj => absurd hj (Nat.not_lt_zero j)⟩

theorem firstCrlf_succ (c : UInt8) (buffer : List UInt8) (k : Nat) :
    FirstCrlf (c :: buffer) (k + 1) ↔ ¬ crlf <+: c :: buffer ∧ FirstCrlf buffer k := by
  constructor
  · intro h
    refine ⟨h.first 0 (by omega), ⟨h.here, fun j hj => ?_⟩⟩
    exact h.first (j + 1) (by omega)
  · rintro ⟨h0, h⟩
    refine ⟨h.here, fun j hj => ?_⟩
    cases j with
    | zero => exact h0
    | succ j => exact h.first j (by omega)

theorem FirstCrlf.length {buffer : List UInt8} {k : Nat} (h : FirstCrlf buffer k) :
    k + 2 ≤ buffer.length := by
  have hlen := h.here.length_le
  have hcrlf : crlf.length = 2 := rfl
  rw [hcrlf, List.length_drop] at hlen
  omega

theorem crlf_prefix_cons (a b : UInt8) (rest : List UInt8) :
    crlf <+: a :: b :: rest ↔ b = lf ∧ a = cr := by
  rw [crlf, List.cons_prefix_cons, List.cons_prefix_cons]
  constructor
  · rintro ⟨h1, h2, -⟩
    exact ⟨h2.symm, h1.symm⟩
  · rintro ⟨h1, h2⟩
    exact ⟨h2.symm, h1.symm, List.nil_prefix⟩

/-- The loop finds the first CRLF of what it looks at, the byte `prev` included. -/
theorem findLine_firstCrlf (prev : UInt8) (i k : Nat) (buffer : List UInt8)
    (h : FirstCrlf (prev :: buffer) k) (hmax : i + k < webserverMaxHeaderLineLenght - 1) :
    findLine prev i buffer = .found (i + k) := by
  induction buffer generalizing prev i k with
  | nil =>
      have hlen := h.length
      rw [List.length_singleton] at hlen
      omega
  | cons c buffer ih =>
      unfold findLine
      rw [if_neg (by omega)]
      cases k with
      | zero =>
          rw [firstCrlf_zero, crlf_prefix_cons] at h
          rw [if_pos h, Nat.add_zero]
      | succ k =>
          rw [firstCrlf_succ, crlf_prefix_cons] at h
          rw [if_neg h.1, ih c (i + 1) k h.2 (by omega)]
          congr 1
          omega

/-- The search finds the end of every line of at least two bytes. -/
theorem searchLine_firstCrlf {buffer : List UInt8} {k : Nat} (h : FirstCrlf buffer k)
    (hk : 2 ≤ k) (hmax : k + 2 < webserverMaxHeaderLineLenght) :
    searchLine buffer = .found (k + 1) := by
  have hlen := h.length
  match buffer, k with
  | a :: b :: c :: buffer, k + 2 =>
      rw [firstCrlf_succ, firstCrlf_succ] at h
      have hfind := findLine_firstCrlf c 3 k buffer h.2.2 (by omega)
      rw [searchLine, hfind]
      congr 1
      omega
  | [a, b], k + 2 =>
      simp only [List.length_cons, List.length_nil] at hlen
      omega
  | [a], k + 2 =>
      simp only [List.length_cons, List.length_nil] at hlen
      omega
  | [], k + 2 =>
      simp only [List.length_nil] at hlen
      omega

/-! ## The law -/

/-- A buffer whose first line, of `k` bytes, is within the limits of the parser, is not taken
over by the proxy and is accepted. An empty line ends a header only behind another line. -/
structure AcceptableLine (registrations : List ProxyRegistration) (s : HeaderSocket)
    (buffer : List UInt8) (k : Nat) : Prop where
  ends : FirstCrlf buffer k
  lineLimit : k + 2 < webserverMaxHeaderLineLenght
  headerLimit : s.header.parsedBytes + (k + 2) ≤ webserverMaxHeaderSize
  notTaken : 0 < k → ∃ checked,
    checkReverseProxy registrations s.reverseProxyChecked buffer = .pass checked
  accepted : 0 < k → (analyseHeaderLine (buffer.take k) s.header).2 = true
  afterLine : k = 0 → s.header.parsedBytes ≠ 0

/-- The record behind a line: what `analyseHeaderLine` makes of it, and the count of the
bytes with `k + 2` more. -/
def afterLine (line : List UInt8) (header : HttpRequestHeader) : HttpRequestHeader :=
  { (analyseHeaderLine line header).1 with
    parsedBytes := (analyseHeaderLine line header).1.parsedBytes + (line.length + 2) }

/-- **The line law**: for a first line of `k` bytes `ParseHeader` parses `k + 2` bytes. It
analyses exactly the `k` bytes if there are any, and otherwise ends the header. -/
structure LineLaw (registrations : List ProxyRegistration) (s : HeaderSocket)
    (buffer : List UInt8) (k : Nat) : Prop where
  consumed : (parseHeader registrations s buffer).2.parsed = k + 2
  analysed : 0 < k → (parseHeader registrations s buffer).2 = .line (k + 2) ∧
    (parseHeader registrations s buffer).1.header = afterLine (buffer.take k) s.header
  ended : k = 0 → (parseHeader registrations s buffer).1.header.headerComplete = true ∧
    (parseHeader registrations s buffer).2.norm = .complete

theorem lineLaw_empty {registrations : List ProxyRegistration} {s : HeaderSocket}
    {buffer : List UInt8} (h : AcceptableLine registrations s buffer 0) :
    LineLaw registrations s buffer 0 := by
  have hp : crlf <+: buffer := (firstCrlf_zero buffer).mp h.ends
  have hs : ¬ (s.header.parsedBytes = 0 ∧ 2 < buffer.length) := fun h' => h.afterLine rfl h'.1
  have hparse : parseHeader registrations s buffer = headerEnd s buffer := by
    rw [parseHeader, if_pos hp]
  rw [headerEnd, if_neg hs] at hparse
  constructor
  · rw [hparse]
    split_ifs <;> rfl
  · intro h0
    exact absurd h0 (Nat.lt_irrefl 0)
  · intro _
    rw [hparse]
    refine ⟨rfl, ?_⟩
    split_ifs <;> rfl

/-- A line of the right length for the search. -/
theorem parseHeader_firstLine {registrations : List ProxyRegistration} {s : HeaderSocket}
    {buffer : List UInt8} {k : Nat} (h : AcceptableLine registrations s buffer k) (hk : 2 ≤ k) :
    (parseHeader registrations s buffer).1.header = afterLine (buffer.take k) s.header ∧
      (parseHeader registrations s buffer).2 = .line (k + 2) := by
  have hp : ¬ crlf <+: buffer := h.ends.first 0 (by omega)
  have hlen : (buffer.take k).length = k := by
    have := h.ends.length
    rw [List.length_take]
    omega
  have hlimit := h.headerLimit
  obtain ⟨checked, hchecked⟩ := h.notTaken (by omega)
  have haccepted := h.accepted (by omega)
  rw [parseHeader, if_neg hp, searchLine_firstCrlf h.ends hk h.lineLimit]
  simp only [hchecked, headerLine, Nat.add_sub_cancel]
  rw [if_neg (by omega), afterLine, hlen]
  rcases hline : analyseHeaderLine (buffer.take k) s.header with ⟨header, _ | _⟩
  · rw [hline] at haccepted
    exact absurd haccepted (by simp)
  · exact ⟨rfl, rfl⟩

/-- The number of bytes that are parsed is never three: a line that the search finds has at
least four, and an empty line has two. -/
theorem parsed_ne_three (registrations : List ProxyRegistration) (s : HeaderSocket)
    (buffer : List UInt8) : (parseHeader registrations s buffer).2.parsed ≠ 3 := by
  unfold parseHeader
  split_ifs with hp
  · unfold headerEnd
    split_ifs <;> simp [HeaderStatus.parsed]
  · cases hsearch : searchLine buffer with
    | notFound => simp [HeaderStatus.parsed]
    | tooLong => simp [HeaderStatus.parsed]
    | found i =>
        have hi := searchLine_found hsearch
        cases checkReverseProxy registrations s.reverseProxyChecked buffer with
        | taken r => simp [HeaderStatus.parsed]
        | pass checked =>
            simp only [headerLine]
            split_ifs
            · simp [HeaderStatus.parsed]
            · rcases analyseHeaderLine (buffer.take (i - 1)) s.header with ⟨header, _ | _⟩
              · simp [HeaderStatus.parsed]
              · simp only [HeaderStatus.parsed]
                omega

/-- **The law holds exactly for the lines that do not have one byte.** -/
theorem lineLaw_iff (registrations : List ProxyRegistration) (s : HeaderSocket)
    (buffer : List UInt8) (k : Nat) (h : AcceptableLine registrations s buffer k) :
    LineLaw registrations s buffer k ↔ k ≠ 1 := by
  constructor
  · rintro hlaw rfl
    exact parsed_ne_three registrations s buffer hlaw.consumed
  · intro hk
    rcases Nat.eq_zero_or_pos k with rfl | hpos
    · exact lineLaw_empty h
    · obtain ⟨hheader, hstatus⟩ := parseHeader_firstLine h (by omega)
      constructor
      · rw [hstatus, HeaderStatus.parsed]
      · intro _
        exact ⟨hstatus, hheader⟩
      · intro h0
        omega

/-- A connection that has read the request line `GET / HTTP/1.1`. -/
def afterRequestLine : HeaderSocket :=
  (parseHeader [] ⟨webserverMallocHttpRequestHeader, false⟩ (ascii "GET / HTTP/1.1\r\n")).1

theorem firstCrlf_of_take {buffer : List UInt8} {k : Nat} (h : crlf <+: buffer.drop k)
    (hfirst : ∀ j ∈ List.range k, ¬ crlf <+: buffer.drop j) : FirstCrlf buffer k :=
  ⟨h, fun j hj => hfirst j (List.mem_range.mpr hj)⟩

/-- A field behind the request line. -/
theorem lineLaw_field : LineLaw [] afterRequestLine (ascii "Host: a\r\n\r\n") 7 :=
  (lineLaw_iff [] afterRequestLine (ascii "Host: a\r\n\r\n") 7
    ⟨firstCrlf_of_take (by decide) (by decide), by decide, by decide +kernel,
      fun _ => ⟨true, by decide +kernel⟩, fun _ => by decide +kernel,
      fun h => absurd h (by decide)⟩).2 (by decide)

/-- A line of one byte before the end of the header: `ParseHeader` takes the empty line with
it. -/
theorem lineLaw_oneByte :
    AcceptableLine [] afterRequestLine (ascii "a\r\n\r\n") 1 ∧
      (parseHeader [] afterRequestLine (ascii "a\r\n\r\n")).2 = .line 5 ∧
      ¬ LineLaw [] afterRequestLine (ascii "a\r\n\r\n") 1 := by
  refine ⟨⟨firstCrlf_of_take (by decide) (by decide), by decide, by decide +kernel,
    fun _ => ⟨true, by decide +kernel⟩, fun _ => by decide +kernel,
    fun h => absurd h (by decide)⟩, by decide +kernel, fun h => ?_⟩
  exact parsed_ne_three [] afterRequestLine (ascii "a\r\n\r\n") h.consumed

end CWebUI.Http
