import CWebUI.Basic.Bytes
import CWebUI.Basic.Machine

set_option autoImplicit false

/-! # Following a chunked response body

The reverse proxy forwards a chunked body byte for byte and only needs to know where it
ends. `proxyChunkedScan` (`reverse_proxy.c`) is the incremental scanner that finds the end:
its state survives from one call to the next, because a chunk header can be split across
two reads.

The file has three layers. The scanner as the code computes it, with the bulk skip over
chunk data and a 64-bit size register; the byte machine `ChunkScanner.step`, which reads
one byte at a time and which the scanner is shown to agree with (`proxyChunkedScan_eq`);
and the grammar `ChunkedBody` of complete chunked bodies, which is the residual language
of the machine's start state.
-/

namespace CWebUI.Proxy

open ByteString

/-! ## The scanner -/

/-- The states for following a chunked response body. -/
inductive ProxyChunkState where
  /-- The first hex digit of a size line, which is required. -/
  | sizeStart
  /-- Further hex digits of the chunk size. -/
  | size
  /-- A chunk extension, up to the end of the line. -/
  | ext
  /-- The CR of the size line has been seen. -/
  | sizeLf
  /-- Payload, `currentChunkSize` bytes of it still open. -/
  | data
  /-- The CRLF behind the payload is expected. -/
  | dataCr
  | dataLf
  /-- The start of a trailer line after the null chunk. -/
  | trailer
  /-- The CR of the empty line has been seen; the LF ends the response. -/
  | trailerLf
  | trailerLine
  | trailerLineLf
  /-- Null chunk and trailer are complete. -/
  | done
  /-- Broken framing. -/
  | error
  deriving DecidableEq, Repr

/-- The part of the proxy connection that the scanner works on. -/
structure ChunkScanner where
  chunkState : ProxyChunkState
  currentChunkSize : UInt64
  deriving DecidableEq, Repr

/-- The scanner before the first body byte. -/
def ChunkScanner.init : ChunkScanner := ⟨.sizeStart, 0⟩

/-- `PROXY_CHUNK_SIZE_MAX`, the largest size that is accepted. -/
def proxyChunkSizeMax : UInt64 := 0x7FFFFFFFFFFFFFFF

/-- `proxy_hex_value`, in the unsigned 64-bit arithmetic of the code. -/
def proxyHexValue (c : UInt8) : UInt64 :=
  if c ≤ 57 then c.toUInt64 - 48
  else if c ≤ 70 then c.toUInt64 - 65 + 10
  else c.toUInt64 - 97 + 10

/-- What one round of the scanner's loop does: return from the function, or go round again
with the bytes that are left. -/
inductive ScanRound where
  | ret (p : ChunkScanner)
  | next (p : ChunkScanner) (rest : List UInt8)

/-- One round of the loop of `proxy_chunked_scan`, at the byte `c` with `rest` behind it.
The bulk skip of the data state takes as much of `c :: rest` as the chunk still wants. -/
def scanRound (p : ChunkScanner) (c : UInt8) (rest : List UInt8) : ScanRound :=
  let fail := ScanRound.ret { p with chunkState := .error }
  match p.chunkState with
  | .sizeStart =>
      if isHexDigit c then .next ⟨.size, proxyHexValue c⟩ rest else fail
  | .size =>
      if isHexDigit c then
        if p.currentChunkSize > (proxyChunkSizeMax - proxyHexValue c) / 16 then fail
        else .next ⟨.size, p.currentChunkSize * 16 + proxyHexValue c⟩ rest
      else if c = 59 ∨ c = 32 ∨ c = 9 then .next { p with chunkState := .ext } rest
      else if c = cr then .next { p with chunkState := .sizeLf } rest
      else fail
  | .ext =>
      if c = cr then .next { p with chunkState := .sizeLf } rest
      else if c = lf then fail
      else .next p rest
  | .sizeLf =>
      if c ≠ lf then fail
      else if p.currentChunkSize = 0 then .next { p with chunkState := .trailer } rest
      else .next { p with chunkState := .data } rest
  | .data =>
      let skip := min p.currentChunkSize.toNat (rest.length + 1)
      let left := p.currentChunkSize - UInt64.ofNat skip
      if left = 0 then .next ⟨.dataCr, left⟩ ((c :: rest).drop skip)
      else .next ⟨.data, left⟩ ((c :: rest).drop skip)
  | .dataCr => if c ≠ cr then fail else .next { p with chunkState := .dataLf } rest
  | .dataLf => if c ≠ lf then fail else .next ⟨.sizeStart, 0⟩ rest
  | .trailer =>
      if c = cr then .next { p with chunkState := .trailerLf } rest
      else if c = lf then fail
      else .next { p with chunkState := .trailerLine } rest
  | .trailerLf => if c ≠ lf then fail else .ret { p with chunkState := .done }
  | .trailerLine =>
      if c = cr then .next { p with chunkState := .trailerLineLf } rest
      else if c = lf then fail
      else .next p rest
  | .trailerLineLf => if c ≠ lf then fail else .next { p with chunkState := .trailer } rest
  | .done => .ret p
  | .error => .ret p

/-- The loop of `proxy_chunked_scan`. A round either consumes a byte or leaves the data
state, so `2 * data.length + 1` rounds are enough (`scanLoop_eq`). -/
def scanLoop : Nat → ChunkScanner → List UInt8 → ChunkScanner
  | 0, p, _ => p
  | _ + 1, p, [] => p
  | n + 1, p, c :: rest =>
      match scanRound p c rest with
      | .ret q => q
      | .next q rest' => scanLoop n q rest'

/-- `proxy_chunked_scan`: the scanner after the bytes `data`, and whether the null chunk
and its trailer are complete. -/
def proxyChunkedScan (p : ChunkScanner) (data : List UInt8) : ChunkScanner × Bool :=
  if p.chunkState = .done then (p, true)
  else if p.chunkState = .error then (p, false)
  else
    let q := scanLoop (2 * data.length + 1) p data
    (q, q.chunkState == .done)

/-! ## The byte machine -/

/-- A scanner whose size register is used up inside a chunk reads the CR behind the data. -/
def dataCrStep (p : ChunkScanner) (c : UInt8) : ChunkScanner :=
  if c ≠ cr then ⟨.error, p.currentChunkSize⟩ else ⟨.dataLf, p.currentChunkSize⟩

/-- The scanner as a machine that reads one byte at a time. Only the data state differs
from the code's round: the bulk skip is taken byte by byte. -/
def ChunkScanner.step (p : ChunkScanner) (c : UInt8) : ChunkScanner :=
  match p.chunkState with
  | .data =>
      if p.currentChunkSize = 0 then dataCrStep p c
      else if p.currentChunkSize = 1 then ⟨.dataCr, 0⟩
      else ⟨.data, p.currentChunkSize - 1⟩
  | _ =>
      match scanRound p c [] with
      | .ret q => q
      | .next q _ => q

/-- The machine run over a byte string. -/
def ChunkScanner.run (p : ChunkScanner) (data : List UInt8) : ChunkScanner :=
  data.foldl ChunkScanner.step p

@[simp] theorem ChunkScanner.run_nil (p : ChunkScanner) : p.run [] = p := rfl

@[simp] theorem ChunkScanner.run_cons (p : ChunkScanner) (c : UInt8) (l : List UInt8) :
    p.run (c :: l) = (p.step c).run l := rfl

theorem ChunkScanner.run_append (p : ChunkScanner) (a b : List UInt8) :
    p.run (a ++ b) = (p.run a).run b := List.foldl_append

theorem ChunkScanner.run_done (p : ChunkScanner) (l : List UInt8)
    (h : p.chunkState = .done) : p.run l = p := by
  induction l with
  | nil => rfl
  | cons c l ih =>
      have hstep : p.step c = p := by simp [ChunkScanner.step, scanRound, h]
      rw [ChunkScanner.run_cons, hstep, ih]

theorem ChunkScanner.run_error (p : ChunkScanner) (l : List UInt8)
    (h : p.chunkState = .error) : p.run l = p := by
  induction l with
  | nil => rfl
  | cons c l ih =>
      have hstep : p.step c = p := by simp [ChunkScanner.step, scanRound, h]
      rw [ChunkScanner.run_cons, hstep, ih]

/-- A size that is not used up counts down without borrowing. -/
theorem toNat_sub_one (v : UInt64) (h : v ≠ 0) : (v - 1).toNat = v.toNat - 1 := by
  have hpos : v.toNat ≠ 0 := fun h0 => h (UInt64.toNat_inj.mp (by simpa using h0))
  rw [UInt64.toNat_sub_of_le _ _ (by rw [UInt64.le_iff_toNat_le]; simp; omega)]
  rfl

/-- Inside a chunk the machine counts down and stops at the CR. -/
theorem ChunkScanner.run_data (k : Nat) (v : UInt64) (l : List UInt8) (hv : v ≠ 0)
    (hk : l.length = k) (hle : k ≤ v.toNat) :
    (ChunkScanner.mk .data v).run l =
      if v - UInt64.ofNat k = 0 then ⟨.dataCr, 0⟩ else ⟨.data, v - UInt64.ofNat k⟩ := by
  induction l generalizing k v with
  | nil =>
      subst hk
      simp [hv]
  | cons c l ih =>
      obtain ⟨m, rfl⟩ : ∃ m, k = m + 1 := ⟨l.length, by simpa using hk.symm⟩
      have hlen : l.length = m := by simpa using hk
      by_cases h1 : v = 1
      · subst h1
        have hm : m = 0 := by
          have : (1 : UInt64).toNat = 1 := rfl
          omega
        subst hm
        rw [List.length_eq_zero_iff.mp hlen]
        simp [ChunkScanner.step]
      · have hstep : (ChunkScanner.mk .data v).step c = ⟨.data, v - 1⟩ := by
          simp [ChunkScanner.step, hv, h1]
        have hpos : v.toNat ≠ 0 := fun h => hv (UInt64.toNat_inj.mp (by simpa using h))
        have hone : v.toNat ≠ 1 := fun h => h1 (UInt64.toNat_inj.mp (by simpa using h))
        have hsub : (v - 1).toNat = v.toNat - 1 := toNat_sub_one v hv
        have hv' : v - 1 ≠ 0 := by
          intro h
          have := congrArg UInt64.toNat h
          rw [hsub] at this
          simp at this
          omega
        have hshift : v - 1 - UInt64.ofNat m = v - UInt64.ofNat (m + 1) := by
          rw [UInt64.ofNat_add]
          grind
        rw [ChunkScanner.run_cons, hstep, ih m (v - 1) hv' hlen (by omega), hshift]


/-- Outside chunk data a round of the loop is one step of the machine; it returns only in
the two states the machine never leaves. -/
theorem scanRound_of_ne_data (p : ChunkScanner) (c : UInt8) (rest : List UInt8)
    (h : p.chunkState ≠ .data) :
    (scanRound p c rest = .ret (p.step c) ∧
      ((p.step c).chunkState = .done ∨ (p.step c).chunkState = .error)) ∨
    scanRound p c rest = .next (p.step c) rest := by
  obtain ⟨st, v⟩ := p
  cases st with
  | data => exact absurd rfl h
  | done => exact .inl ⟨rfl, .inl rfl⟩
  | error => exact .inl ⟨rfl, .inr rfl⟩
  | _ =>
      simp only [ChunkScanner.step, scanRound]
      split_ifs <;> simp

/-- In chunk data a round of the loop skips as far as the chunk and the call reach. -/
theorem scanRound_data (v : UInt64) (c : UInt8) (rest : List UInt8) :
    ∃ q, scanRound ⟨.data, v⟩ c rest = .next q ((c :: rest).drop (min v.toNat (rest.length + 1)))
      ∧ (ChunkScanner.mk .data v).run (c :: rest)
          = q.run ((c :: rest).drop (min v.toNat (rest.length + 1)))
      ∧ (v = 0 → q.chunkState = .dataCr) := by
  set k := min v.toNat (rest.length + 1) with hk
  by_cases hv : v = 0
  · subst hv
    refine ⟨⟨.dataCr, 0⟩, ?_, ?_, fun _ => rfl⟩
    · simp [scanRound, hk]
    · simp [ChunkScanner.step, hk, dataCrStep, scanRound]
      split_ifs <;> rfl
  · refine ⟨if v - UInt64.ofNat k = 0 then ⟨.dataCr, 0⟩ else ⟨.data, v - UInt64.ofNat k⟩,
      ?_, ?_, fun h => absurd h hv⟩
    · simp only [scanRound, ← hk]
      split_ifs with hz
      · rw [hz]
      · rfl
    · conv_lhs => rw [← List.take_append_drop k (c :: rest)]
      rw [ChunkScanner.run_append, ChunkScanner.run_data k v _ hv ?_ (Nat.min_le_left _ _)]
      simp [hk]

/-- The rounds the loop may still need: two for each byte, one more to leave chunk data. -/
def scanFuel (p : ChunkScanner) (data : List UInt8) : Nat :=
  2 * data.length + if p.chunkState = .data then 1 else 0

/-- **The loop is the byte machine**, given enough rounds. -/
theorem scanLoop_eq (n : Nat) (p : ChunkScanner) (data : List UInt8)
    (hn : scanFuel p data ≤ n) : scanLoop n p data = p.run data := by
  induction n generalizing p data with
  | zero =>
      have hlen : data.length = 0 := by unfold scanFuel at hn; omega
      rw [List.length_eq_zero_iff.mp hlen]
      rfl
  | succ n ih =>
      cases data with
      | nil => rfl
      | cons c rest =>
          simp only [scanFuel, List.length_cons] at hn
          by_cases hd : p.chunkState = .data
          · obtain ⟨st, v⟩ := p
            subst hd
            obtain ⟨q, hq, hrun, h0⟩ := scanRound_data v c rest
            rw [hrun]
            simp only [scanLoop, hq]
            apply ih
            -- either the skip consumed a byte, or the chunk was used up and the state moves on
            by_cases hv : v = 0
            · simp only [scanFuel, h0 hv, List.length_drop, List.length_cons]
              simp at hn ⊢
              omega
            · have hpos : v.toNat ≠ 0 := fun h => hv (UInt64.toNat_inj.mp (by simpa using h))
              simp only [scanFuel, List.length_drop, List.length_cons]
              simp at hn
              split_ifs <;> omega
          · rcases scanRound_of_ne_data p c rest hd with ⟨hr, hend⟩ | hr
            · simp only [scanLoop, hr, ChunkScanner.run_cons]
              rcases hend with hend | hend
              · exact (ChunkScanner.run_done _ rest hend).symm
              · exact (ChunkScanner.run_error _ rest hend).symm
            · simp only [scanLoop, hr, ChunkScanner.run_cons]
              apply ih
              simp only [scanFuel]
              split_ifs <;> omega

/-- **The scanner is the byte machine**: the state after a call, and the answer. -/
theorem proxyChunkedScan_eq (p : ChunkScanner) (data : List UInt8) :
    proxyChunkedScan p data = (p.run data, (p.run data).chunkState == .done) := by
  unfold proxyChunkedScan
  split_ifs with hd he
  · rw [ChunkScanner.run_done p data hd, hd]; rfl
  · rw [ChunkScanner.run_error p data he, he]; rfl
  · rw [scanLoop_eq _ p data (by unfold scanFuel; split_ifs <;> omega)]

/-! ## The grammar of chunked bodies -/

/-- A chunk extension: nothing, or a byte that ends the size and then any bytes of the
line. -/
def ChunkExt (e : List UInt8) : Prop :=
  e = [] ∨ ∃ c t, e = c :: t ∧ (c = 59 ∨ c = 32 ∨ c = 9) ∧ NoLineBreak t

/-- A size line that announces `n` bytes: at least one hex digit, an optional extension and
the end of the line. The size stays within the scanner's limit. -/
def SizeLine (n : Nat) (l : List UInt8) : Prop :=
  ∃ ds e, l = ds ++ e ++ crlf ∧ ds ≠ [] ∧ (∀ c ∈ ds, isHexDigit c = true) ∧
    hexValue ds = n ∧ n ≤ proxyChunkSizeMax.toNat ∧ ChunkExt e

/-- The trailer of a chunked body: non-empty lines, then the empty line. -/
inductive Trailer : List UInt8 → Prop where
  | done : Trailer crlf
  | line {l t : List UInt8} : l ≠ [] → NoLineBreak l → Trailer t → Trailer (l ++ crlf ++ t)

/-- **The strict chunked grammar**: chunks with the announced number of data bytes, a last
chunk of size `0`, and the trailer. -/
inductive ChunkedBody : List UInt8 → Prop where
  | last {l t : List UInt8} : SizeLine 0 l → Trailer t → ChunkedBody (l ++ t)
  | chunk {n : Nat} {l d r : List UInt8} : 0 < n → SizeLine n l → d.length = n →
      ChunkedBody r → ChunkedBody (l ++ d ++ crlf ++ r)

/-- What may follow a size line that announces `n` bytes. -/
def AfterSize (n : Nat) (w : List UInt8) : Prop :=
  if n = 0 then Trailer w
  else ∃ d r, w = d ++ crlf ++ r ∧ d.length = n ∧ ChunkedBody r

/-- The completions of each scanner state: the words that lead from it to `done`. -/
def ChunkScanner.lang (p : ChunkScanner) (w : List UInt8) : Prop :=
  match p.chunkState with
  | .sizeStart => ChunkedBody w
  | .size => ∃ ds e t, w = ds ++ e ++ crlf ++ t ∧ (∀ c ∈ ds, isHexDigit c = true) ∧
      (ds = [] ∨ hexValueFrom p.currentChunkSize.toNat ds ≤ proxyChunkSizeMax.toNat) ∧
      ChunkExt e ∧ AfterSize (hexValueFrom p.currentChunkSize.toNat ds) t
  | .ext => ∃ e t, w = e ++ crlf ++ t ∧ NoLineBreak e ∧
      AfterSize p.currentChunkSize.toNat t
  | .sizeLf => ∃ t, w = lf :: t ∧ AfterSize p.currentChunkSize.toNat t
  | .data => ∃ d r, w = d ++ crlf ++ r ∧ d.length = p.currentChunkSize.toNat ∧ ChunkedBody r
  | .dataCr => ∃ r, w = crlf ++ r ∧ ChunkedBody r
  | .dataLf => ∃ r, w = lf :: r ∧ ChunkedBody r
  | .trailer => Trailer w
  | .trailerLf => w = [lf]
  | .trailerLine => ∃ l t, w = l ++ crlf ++ t ∧ NoLineBreak l ∧ Trailer t
  | .trailerLineLf => ∃ t, w = lf :: t ∧ Trailer t
  | .done => w = []
  | .error => False

/-! ## The machine recognises the grammar -/

theorem proxyHexValue_toNat (c : UInt8) (h : isHexDigit c = true) :
    (proxyHexValue c).toNat = hexDigitValue c ∧ hexDigitValue c < 16 := by
  exact forall_byte (P := fun c => isHexDigit c = true →
    (proxyHexValue c).toNat = hexDigitValue c ∧ hexDigitValue c < 16) (by decide +kernel) c h

/-- The guard of the accumulator is exactly the limit, and below it nothing wraps. -/
theorem sizeDigit (v : UInt64) (c : UInt8) (h : isHexDigit c = true) :
    (v > (proxyChunkSizeMax - proxyHexValue c) / 16 ↔
      proxyChunkSizeMax.toNat < 16 * v.toNat + hexDigitValue c) ∧
    (¬ v > (proxyChunkSizeMax - proxyHexValue c) / 16 →
      (v * 16 + proxyHexValue c).toNat = 16 * v.toNat + hexDigitValue c) := by
  obtain ⟨hval, hlt⟩ := proxyHexValue_toNat c h
  have hmax : proxyChunkSizeMax.toNat = 9223372036854775807 := rfl
  have hsub : (proxyChunkSizeMax - proxyHexValue c).toNat
      = 9223372036854775807 - hexDigitValue c := by
    rw [UInt64.toNat_sub_of_le _ _ (by rw [UInt64.le_iff_toNat_le]; omega), hval, hmax]
  have hdiv : ((proxyChunkSizeMax - proxyHexValue c) / 16).toNat
      = (9223372036854775807 - hexDigitValue c) / 16 := by
    rw [UInt64.toNat_div, hsub]; rfl
  have hguard : v > (proxyChunkSizeMax - proxyHexValue c) / 16 ↔
      (9223372036854775807 - hexDigitValue c) / 16 < v.toNat := by
    rw [gt_iff_lt, UInt64.lt_iff_toNat_lt, hdiv]
  refine ⟨by rw [hguard, hmax]; omega, ?_⟩
  intro hng
  rw [hguard] at hng
  rw [UInt64.toNat_add, UInt64.toNat_mul, hval]
  have h16 : (16 : UInt64).toNat = 16 := rfl
  rw [h16]
  omega

theorem trailer_cons_iff (c : UInt8) (w : List UInt8) :
    Trailer (c :: w) ↔ (c = cr ∧ w = [lf]) ∨
      (c ≠ cr ∧ c ≠ lf ∧ ∃ l t, w = l ++ crlf ++ t ∧ NoLineBreak l ∧ Trailer t) := by
  constructor
  · intro h
    generalize hw : c :: w = u at h
    cases h with
    | done =>
        obtain ⟨rfl, rfl⟩ := List.cons_eq_cons.mp hw
        exact .inl ⟨rfl, rfl⟩
    | @line l t hne hl ht =>
        cases l with
        | nil => exact absurd rfl hne
        | cons d l =>
            obtain ⟨rfl, rfl⟩ := List.cons_eq_cons.mp hw
            obtain ⟨h1, h2, h3⟩ := noLineBreak_cons.mp hl
            exact .inr ⟨h1, h2, l, t, rfl, h3, ht⟩
  · rintro (⟨rfl, rfl⟩ | ⟨h1, h2, l, t, rfl, hl, ht⟩)
    · exact Trailer.done
    · exact Trailer.line (l := c :: l) (by simp) (noLineBreak_cons.mpr ⟨h1, h2, hl⟩) ht

theorem not_trailer_nil : ¬ Trailer [] := by
  intro h
  generalize hw : ([] : List UInt8) = u at h
  cases h with
  | done => simp [crlf] at hw
  | line hne hl ht => simp [crlf] at hw

/-- A chunked body is a size line and what may follow it. -/
theorem chunkedBody_iff (w : List UInt8) :
    ChunkedBody w ↔ ∃ n l t, w = l ++ t ∧ SizeLine n l ∧ AfterSize n t := by
  constructor
  · intro h
    cases h with
    | @last l t hl ht => exact ⟨0, l, t, rfl, hl, by simpa [AfterSize] using ht⟩
    | @chunk n l d r hn hl hd hr =>
        refine ⟨n, l, d ++ crlf ++ r, by simp, hl, ?_⟩
        rw [AfterSize, if_neg (by omega)]
        exact ⟨d, r, rfl, hd, hr⟩
  · rintro ⟨n, l, t, rfl, hl, ht⟩
    by_cases hn : n = 0
    · subst hn
      exact ChunkedBody.last hl (by simpa [AfterSize] using ht)
    · rw [AfterSize, if_neg hn] at ht
      obtain ⟨d, r, rfl, hd, hr⟩ := ht
      have := ChunkedBody.chunk (by omega) hl hd hr
      simpa using this

/-- A chunked body starts with a hex digit, and what follows it completes a size. -/
theorem chunkedBody_cons_iff (c : UInt8) (w : List UInt8) :
    ChunkedBody (c :: w) ↔
      isHexDigit c = true ∧ (ChunkScanner.mk .size (proxyHexValue c)).lang w := by
  rw [chunkedBody_iff]
  constructor
  · rintro ⟨n, l, t, hw, ⟨ds, e, rfl, hne, hds, rfl, hmax, he⟩, ht⟩
    cases ds with
    | nil => exact absurd rfl hne
    | cons d ds =>
        obtain ⟨rfl, rfl⟩ := List.cons_eq_cons.mp hw
        have hd : isHexDigit c = true := hds c (by simp)
        obtain ⟨hval, -⟩ := proxyHexValue_toNat c hd
        have hv : hexValueFrom (proxyHexValue c).toNat ds = hexValue (c :: ds) := by
          rw [hval, hexValue, hexValueFrom_cons]; simp
        refine ⟨hd, ds, e, t, rfl, fun x hx => hds x (by simp [hx]), .inr ?_, he, ?_⟩
        · rw [hv]; exact hmax
        · rw [hv]; exact ht
  · rintro ⟨hd, ds, e, t, rfl, hds, hmax, he, ht⟩
    obtain ⟨hval, hlt⟩ := proxyHexValue_toNat c hd
    have hv : hexValueFrom (proxyHexValue c).toNat ds = hexValue (c :: ds) := by
      rw [hval, hexValue, hexValueFrom_cons]; simp
    rw [hv] at ht hmax
    have hle : hexValue (c :: ds) ≤ proxyChunkSizeMax.toNat := by
      rcases hmax with rfl | h
      · have hmax : proxyChunkSizeMax.toNat = 9223372036854775807 := rfl
        simp only [hexValue, hexValueFrom_cons, hexValueFrom_nil]
        omega
      · exact h
    refine ⟨hexValue (c :: ds), (c :: ds) ++ e ++ crlf, t, by simp, ⟨c :: ds, e, rfl, by simp,
      ?_, rfl, hle, he⟩, ht⟩
    intro x hx
    rcases List.mem_cons.mp hx with rfl | hx
    · exact hd
    · exact hds x hx

theorem not_chunkedBody_nil : ¬ ChunkedBody [] := by
  rw [chunkedBody_iff]
  rintro ⟨n, l, t, hw, ⟨ds, e, rfl, hne, -⟩, -⟩
  cases ds with
  | nil => exact hne rfl
  | cons d ds => simp at hw

/-- The derivative in the middle of a size: a digit goes on with the size, an extension or
the end of the line closes it. -/
theorem lang_size_cons (v : UInt64) (c : UInt8) (w : List UInt8) :
    (ChunkScanner.mk .size v).lang (c :: w) ↔
      (isHexDigit c = true ∧ ¬ v > (proxyChunkSizeMax - proxyHexValue c) / 16 ∧
        (ChunkScanner.mk .size (v * 16 + proxyHexValue c)).lang w) ∨
      ((c = 59 ∨ c = 32 ∨ c = 9) ∧ (ChunkScanner.mk .ext v).lang w) ∨
      (c = cr ∧ (ChunkScanner.mk .sizeLf v).lang w) := by
  constructor
  · rintro ⟨ds, e, t, hw, hds, hmax, he, ht⟩
    cases ds with
    | cons d ds =>
        obtain ⟨rfl, rfl⟩ := List.cons_eq_cons.mp hw
        have hd : isHexDigit c = true := hds c (by simp)
        obtain ⟨hguard, hval⟩ := sizeDigit v c hd
        have hle : hexValueFrom v.toNat (c :: ds) ≤ proxyChunkSizeMax.toNat :=
          hmax.resolve_left (by simp)
        have hng : ¬ v > (proxyChunkSizeMax - proxyHexValue c) / 16 := by
          rw [hguard]
          rw [hexValueFrom_cons] at hle
          exact Nat.not_lt.mpr (Nat.le_trans (le_hexValueFrom _ ds) hle)
        refine .inl ⟨hd, hng, ds, e, t, rfl, fun x hx => hds x (by simp [hx]), .inr ?_, he, ?_⟩
        · rw [hval hng]; exact hle
        · rw [hval hng]; exact ht
    | nil =>
        rcases he with rfl | ⟨d, e, rfl, hd, hbr⟩
        · obtain ⟨rfl, rfl⟩ := List.cons_eq_cons.mp hw
          exact .inr (.inr ⟨rfl, t, rfl, ht⟩)
        · obtain ⟨rfl, rfl⟩ := List.cons_eq_cons.mp hw
          exact .inr (.inl ⟨hd, e, t, rfl, hbr, ht⟩)
  · rintro (⟨hd, hng, ds, e, t, rfl, hds, hmax, he, ht⟩ | ⟨hc, e, t, rfl, hbr, ht⟩ |
      ⟨rfl, t, rfl, ht⟩)
    · obtain ⟨hguard, hval⟩ := sizeDigit v c hd
      rw [hval hng] at hmax ht
      refine ⟨c :: ds, e, t, rfl, ?_, .inr ?_, he, ht⟩
      · intro x hx
        rcases List.mem_cons.mp hx with rfl | hx
        · exact hd
        · exact hds x hx
      · rcases hmax with rfl | h
        · exact Nat.not_lt.mp (fun h => hng (hguard.mpr h))
        · exact h
    · exact ⟨[], c :: e, t, rfl, by simp, .inl rfl, .inr ⟨c, e, rfl, hc, hbr⟩, ht⟩
    · exact ⟨[], [], t, rfl, by simp, .inl rfl, .inl rfl, ht⟩

/-- The derivative inside a line that ends in CRLF. -/
theorem line_cons_iff (P : List UInt8 → Prop) (c : UInt8) (w : List UInt8) :
    (∃ l t, c :: w = l ++ crlf ++ t ∧ NoLineBreak l ∧ P t) ↔
      (c = cr ∧ ∃ t, w = lf :: t ∧ P t) ∨
      (c ≠ cr ∧ c ≠ lf ∧ ∃ l t, w = l ++ crlf ++ t ∧ NoLineBreak l ∧ P t) := by
  constructor
  · rintro ⟨l, t, hw, hl, ht⟩
    cases l with
    | nil =>
        obtain ⟨rfl, rfl⟩ := List.cons_eq_cons.mp hw
        exact .inl ⟨rfl, t, rfl, ht⟩
    | cons d l =>
        obtain ⟨rfl, rfl⟩ := List.cons_eq_cons.mp hw
        obtain ⟨h1, h2, h3⟩ := noLineBreak_cons.mp hl
        exact .inr ⟨h1, h2, l, t, rfl, h3, ht⟩
  · rintro (⟨rfl, t, rfl, ht⟩ | ⟨h1, h2, l, t, rfl, hl, ht⟩)
    · exact ⟨[], t, rfl, noLineBreak_nil, ht⟩
    · exact ⟨c :: l, t, rfl, noLineBreak_cons.mpr ⟨h1, h2, hl⟩, ht⟩

/-- The derivative inside chunk data. -/
theorem lang_data_cons (v : UInt64) (c : UInt8) (w : List UInt8) :
    (ChunkScanner.mk .data v).lang (c :: w) ↔ ((ChunkScanner.mk .data v).step c).lang w := by
  by_cases h0 : v = 0
  · subst h0
    have hstep : (ChunkScanner.mk .data 0).step c = dataCrStep ⟨.data, 0⟩ c := by
      simp [ChunkScanner.step]
    rw [hstep]
    constructor
    · rintro ⟨d, r, hw, hd, hr⟩
      obtain rfl : d = [] := List.length_eq_zero_iff.mp (by simpa using hd)
      obtain ⟨rfl, rfl⟩ := List.cons_eq_cons.mp hw
      exact ⟨r, rfl, hr⟩
    · intro h
      unfold dataCrStep at h
      split_ifs at h with hc
      · exact h.elim
      · obtain ⟨r, rfl, hr⟩ := h
        exact ⟨[], r, by rw [not_not.mp hc]; rfl, rfl, hr⟩
  · have hpos : v.toNat ≠ 0 := fun h => h0 (UInt64.toNat_inj.mp (by simpa using h))
    have hdata : (ChunkScanner.mk .data v).lang (c :: w) ↔
        ∃ d r, w = d ++ crlf ++ r ∧ d.length = v.toNat - 1 ∧ ChunkedBody r := by
      constructor
      · rintro ⟨d, r, hw, hd, hr⟩
        cases d with
        | nil => exact absurd hd.symm hpos
        | cons x d =>
            obtain ⟨rfl, rfl⟩ := List.cons_eq_cons.mp hw
            simp only [List.length_cons] at hd
            exact ⟨d, r, rfl, by omega, hr⟩
      · rintro ⟨d, r, rfl, hd, hr⟩
        exact ⟨c :: d, r, rfl, by simp only [List.length_cons]; omega, hr⟩
    rw [hdata]
    by_cases h1 : v = 1
    · subst h1
      have hstep : (ChunkScanner.mk .data 1).step c = ⟨.dataCr, 0⟩ := by
        simp [ChunkScanner.step]
      rw [hstep]
      constructor
      · rintro ⟨d, r, rfl, hd, hr⟩
        obtain rfl : d = [] := List.length_eq_zero_iff.mp (by simpa using hd)
        exact ⟨r, rfl, hr⟩
      · rintro ⟨r, rfl, hr⟩
        exact ⟨[], r, rfl, rfl, hr⟩
    · have hstep : (ChunkScanner.mk .data v).step c = ⟨.data, v - 1⟩ := by
        simp [ChunkScanner.step, h0, h1]
      rw [hstep]
      show _ ↔ ∃ d r, w = d ++ crlf ++ r ∧ d.length = (v - 1).toNat ∧ ChunkedBody r
      rw [toNat_sub_one v h0]

theorem lf_ne_cr : lf ≠ cr := by decide

/-- A hex digit does not close a size. -/
theorem hexDigit_not_delimiter (c : UInt8) (h : isHexDigit c = true) :
    ¬ (c = 59 ∨ c = 32 ∨ c = 9) ∧ c ≠ cr := by
  constructor
  · rintro (rfl | rfl | rfl) <;> exact absurd h (by decide)
  · rintro rfl
    exact absurd h (by decide)

/-- **The grammar is the residual language of the scanner's states.** -/
theorem residual_lang :
    Machine.Residual ChunkScanner.step (fun p => p.chunkState = .done) ChunkScanner.lang where
  absorbing := by
    intro p c h
    have := ChunkScanner.run_done p [c] h
    rw [ChunkScanner.run_cons, ChunkScanner.run_nil] at this
    rw [this]
    exact h
  nil_iff := by
    rintro ⟨st, v⟩
    cases st with
    | sizeStart => simpa [ChunkScanner.lang] using not_chunkedBody_nil
    | trailer => simpa [ChunkScanner.lang] using not_trailer_nil
    | _ => simp [ChunkScanner.lang, crlf]
  cons_iff := by
    rintro ⟨st, v⟩ c w hdone
    cases st with
    | data => exact lang_data_cons v c w
    | done => exact absurd rfl hdone
    | sizeStart =>
        show ChunkedBody (c :: w) ↔ _
        rw [chunkedBody_cons_iff]
        by_cases hc : isHexDigit c = true
        · simp [ChunkScanner.step, scanRound, hc]
        · simp [ChunkScanner.step, scanRound, hc, ChunkScanner.lang]
    | size =>
        rw [lang_size_cons]
        by_cases hx : isHexDigit c = true
        · obtain ⟨hext, hcr⟩ := hexDigit_not_delimiter c hx
          by_cases hg : v > (proxyChunkSizeMax - proxyHexValue c) / 16
          · simp [ChunkScanner.step, scanRound, ChunkScanner.lang, hx, hext, hcr, hg]
          · simp [ChunkScanner.step, scanRound, hx, hext, hcr, hg]
        · by_cases hext : c = 59 ∨ c = 32 ∨ c = 9
          · have hcr : c ≠ cr := by rcases hext with rfl | rfl | rfl <;> decide
            simp [ChunkScanner.step, scanRound, hx, hext, hcr]
          · by_cases hcr : c = cr
            · subst hcr
              simp [ChunkScanner.step, scanRound, hx, hext]
            · simp [ChunkScanner.step, scanRound, ChunkScanner.lang, hx, hext, hcr]
    | ext =>
        show (∃ e t, c :: w = e ++ crlf ++ t ∧ NoLineBreak e ∧ AfterSize v.toNat t) ↔ _
        rw [line_cons_iff]
        by_cases hcr : c = cr
        · simp [ChunkScanner.step, scanRound, ChunkScanner.lang, hcr]
        · by_cases hlf : c = lf
          · simp [ChunkScanner.step, scanRound, ChunkScanner.lang, hlf, lf_ne_cr]
          · simp [ChunkScanner.step, scanRound, ChunkScanner.lang, hcr, hlf]
    | sizeLf =>
        have hzero : v = 0 ↔ v.toNat = 0 := by
          rw [← UInt64.toNat_inj]; rfl
        by_cases hlf : c = lf
        · by_cases h0 : v = 0
          · simp [ChunkScanner.step, scanRound, ChunkScanner.lang, hlf, h0, AfterSize]
          · have h0' : v.toNat ≠ 0 := fun h => h0 (hzero.mpr h)
            simp [ChunkScanner.step, scanRound, ChunkScanner.lang, hlf, h0, h0', AfterSize]
        · simp [ChunkScanner.step, scanRound, ChunkScanner.lang, hlf]
    | dataCr =>
        by_cases hcr : c = cr
        · simp [ChunkScanner.step, scanRound, ChunkScanner.lang, hcr, crlf]
        · simp [ChunkScanner.step, scanRound, ChunkScanner.lang, hcr, crlf]
    | trailer =>
        show Trailer (c :: w) ↔ _
        rw [trailer_cons_iff]
        by_cases hcr : c = cr
        · simp [ChunkScanner.step, scanRound, ChunkScanner.lang, hcr]
        · by_cases hlf : c = lf
          · simp [ChunkScanner.step, scanRound, ChunkScanner.lang, hlf, lf_ne_cr]
          · simp [ChunkScanner.step, scanRound, ChunkScanner.lang, hcr, hlf]
    | trailerLine =>
        show (∃ l t, c :: w = l ++ crlf ++ t ∧ NoLineBreak l ∧ Trailer t) ↔ _
        rw [line_cons_iff]
        by_cases hcr : c = cr
        · simp [ChunkScanner.step, scanRound, ChunkScanner.lang, hcr]
        · by_cases hlf : c = lf
          · simp [ChunkScanner.step, scanRound, ChunkScanner.lang, hlf, lf_ne_cr]
          · simp [ChunkScanner.step, scanRound, ChunkScanner.lang, hcr, hlf]
    | error => simp [ChunkScanner.step, scanRound, ChunkScanner.lang]
    | _ =>
        by_cases hlf : c = lf
        · simp [ChunkScanner.step, scanRound, ChunkScanner.lang, hlf]
        · simp [ChunkScanner.step, scanRound, ChunkScanner.lang, hlf]

/-- **Exact recognition.** The scanner reports the end exactly when a prefix of the bytes it
has seen is a complete chunked body. -/
theorem run_done_iff (data : List UInt8) :
    (ChunkScanner.init.run data).chunkState = .done ↔
      ∃ body, body <+: data ∧ ChunkedBody body :=
  residual_lang.accepts_iff data ChunkScanner.init

/-! ## The size register -/

/-- One byte keeps the size register within the 63-bit range. -/
theorem step_size_le (p : ChunkScanner) (c : UInt8)
    (h : p.currentChunkSize.toNat ≤ proxyChunkSizeMax.toNat) :
    (p.step c).currentChunkSize.toNat ≤ proxyChunkSizeMax.toNat := by
  obtain ⟨st, v⟩ := p
  simp only at h
  have hmax : proxyChunkSizeMax.toNat = 9223372036854775807 := rfl
  cases st with
  | sizeStart =>
      by_cases hx : isHexDigit c = true
      · obtain ⟨hval, hlt⟩ := proxyHexValue_toNat c hx
        simp only [ChunkScanner.step, scanRound, hx, if_true]
        omega
      · simpa [ChunkScanner.step, scanRound, hx] using h
  | size =>
      by_cases hx : isHexDigit c = true
      · obtain ⟨hguard, hval⟩ := sizeDigit v c hx
        by_cases hg : v > (proxyChunkSizeMax - proxyHexValue c) / 16
        · simpa [ChunkScanner.step, scanRound, hx, hg] using h
        · simp only [ChunkScanner.step, scanRound, hx, hg, if_true, if_false]
          rw [hval hg]
          exact Nat.not_lt.mp (fun hlt => hg (hguard.mpr hlt))
      · simp only [ChunkScanner.step, scanRound, if_neg hx]
        split_ifs <;> exact h
  | data =>
      simp only [ChunkScanner.step, dataCrStep]
      split_ifs with h0 hcr h1
      · exact h
      · exact h
      · simp
      · rw [toNat_sub_one v h0]
        omega
  | dataLf =>
      simp only [ChunkScanner.step, scanRound]
      split_ifs
      · exact h
      · simp
  | done => exact h
  | error => exact h
  | _ =>
      simp only [ChunkScanner.step, scanRound]
      split_ifs <;> exact h

/-- The size register never leaves the 63-bit range. -/
theorem run_size_le (data : List UInt8) (p : ChunkScanner)
    (h : p.currentChunkSize.toNat ≤ proxyChunkSizeMax.toNat) :
    (p.run data).currentChunkSize.toNat ≤ proxyChunkSizeMax.toNat := by
  induction data generalizing p with
  | nil => exact h
  | cons c data ih =>
      rw [ChunkScanner.run_cons]
      exact ih _ (step_size_le p c h)

/-- Further digits of a size line: the register holds the number they denote, and a number
above the limit is an error. -/
theorem run_digits (ds : List UInt8) (v : UInt64) (hds : ∀ c ∈ ds, isHexDigit c = true)
    (hv : v.toNat ≤ proxyChunkSizeMax.toNat) :
    (hexValueFrom v.toNat ds ≤ proxyChunkSizeMax.toNat →
      (ChunkScanner.mk .size v).run ds = ⟨.size, UInt64.ofNat (hexValueFrom v.toNat ds)⟩) ∧
    (proxyChunkSizeMax.toNat < hexValueFrom v.toNat ds →
      ((ChunkScanner.mk .size v).run ds).chunkState = .error) := by
  induction ds generalizing v with
  | nil =>
      refine ⟨fun _ => by simp, fun h => ?_⟩
      rw [hexValueFrom_nil] at h
      omega
  | cons c ds ih =>
      have hx : isHexDigit c = true := hds c (by simp)
      obtain ⟨hguard, hval⟩ := sizeDigit v c hx
      by_cases hg : v > (proxyChunkSizeMax - proxyHexValue c) / 16
      · have hstep : (ChunkScanner.mk .size v).step c = ⟨.error, v⟩ := by
          simp [ChunkScanner.step, scanRound, hx, hg]
        have hbig := hguard.mp hg
        have hmono := le_hexValueFrom (16 * v.toNat + hexDigitValue c) ds
        rw [ChunkScanner.run_cons, hstep, hexValueFrom_cons]
        refine ⟨fun h => by omega, fun _ => ?_⟩
        rw [ChunkScanner.run_error _ _ rfl]
      · have hstep : (ChunkScanner.mk .size v).step c = ⟨.size, v * 16 + proxyHexValue c⟩ := by
          simp [ChunkScanner.step, scanRound, hx, hg]
        rw [ChunkScanner.run_cons, hstep, hexValueFrom_cons, ← hval hg]
        apply ih _ (fun x hx => hds x (by simp [hx]))
        rw [hval hg]
        exact Nat.not_lt.mp (fun hlt => hg (hguard.mpr hlt))

/-- **A size line is read exactly or refused.** From the start of a size line, digits `ds`
leave their value in the register if it is within the limit, and an error otherwise. -/
theorem run_size_line (p : ChunkScanner) (ds : List UInt8) (hp : p.chunkState = .sizeStart)
    (hne : ds ≠ []) (hds : ∀ c ∈ ds, isHexDigit c = true) :
    (hexValue ds ≤ proxyChunkSizeMax.toNat →
      p.run ds = ⟨.size, UInt64.ofNat (hexValue ds)⟩) ∧
    (proxyChunkSizeMax.toNat < hexValue ds → (p.run ds).chunkState = .error) := by
  cases ds with
  | nil => exact absurd rfl hne
  | cons c ds =>
      have hx : isHexDigit c = true := hds c (by simp)
      obtain ⟨hval, hlt⟩ := proxyHexValue_toNat c hx
      have hstep : p.step c = ⟨.size, proxyHexValue c⟩ := by
        simp [ChunkScanner.step, scanRound, hx, hp]
      have hmax : proxyChunkSizeMax.toNat = 9223372036854775807 := rfl
      have hfrom : hexValue (c :: ds) = hexValueFrom (proxyHexValue c).toNat ds := by
        rw [hval, hexValue, hexValueFrom_cons]; simp
      rw [ChunkScanner.run_cons, hstep, hfrom]
      exact run_digits ds _ (fun x hx => hds x (by simp [hx])) (by omega)

/-! ## The scanner in the proxy -/

/-- The scanner after the pieces of a body, one call for each. -/
def scanPieces (pieces : List (List UInt8)) : ChunkScanner :=
  pieces.foldl (fun p data => (proxyChunkedScan p data).1) ChunkScanner.init

/-- The scanner does not see where the body was cut. -/
theorem scanPieces_eq (pieces : List (List UInt8)) :
    scanPieces pieces = ChunkScanner.init.run pieces.flatten := by
  have hfeed : (fun p data => (proxyChunkedScan p data).1) = ChunkScanner.run := by
    funext p data
    rw [proxyChunkedScan_eq]
  rw [scanPieces, hfeed]
  exact Machine.foldl_feed ChunkScanner.run (fun _ => rfl) ChunkScanner.run_append _ pieces

/-- **`proxy_chunked_scan` recognises the strict chunked grammar, incrementally.** For every
cutting of the body into calls the scanner ends as after one call on the whole; it is done
exactly when some prefix is a complete chunked body, and then ignores what follows; an
error is final; and the size register never wraps: it stays within the 63-bit limit, holds
the exact value of the digits of a size line, and a size above the limit is an error. -/
theorem proxyChunkedScan_recognises (pieces : List (List UInt8)) :
    scanPieces pieces = (proxyChunkedScan ChunkScanner.init pieces.flatten).1 ∧
    ((scanPieces pieces).chunkState = .done ↔
      ∃ body, body <+: pieces.flatten ∧ ChunkedBody body) ∧
    ((proxyChunkedScan ChunkScanner.init pieces.flatten).2 = true ↔
      (scanPieces pieces).chunkState = .done) ∧
    (∀ more, (scanPieces pieces).chunkState = .done →
      proxyChunkedScan (scanPieces pieces) more = (scanPieces pieces, true)) ∧
    (∀ more, (scanPieces pieces).chunkState = .error →
      proxyChunkedScan (scanPieces pieces) more = (scanPieces pieces, false)) ∧
    (scanPieces pieces).currentChunkSize.toNat ≤ 2 ^ 63 - 1 ∧
    (∀ ds, (scanPieces pieces).chunkState = .sizeStart → ds ≠ [] →
      (∀ c ∈ ds, isHexDigit c = true) →
      (hexValue ds ≤ 2 ^ 63 - 1 →
        (proxyChunkedScan (scanPieces pieces) ds).1 = ⟨.size, UInt64.ofNat (hexValue ds)⟩) ∧
      (2 ^ 63 - 1 < hexValue ds →
        (proxyChunkedScan (scanPieces pieces) ds).1.chunkState = .error)) := by
  have hmax : proxyChunkSizeMax.toNat = 2 ^ 63 - 1 := rfl
  have hwhole : proxyChunkedScan ChunkScanner.init pieces.flatten =
      (scanPieces pieces, (scanPieces pieces).chunkState == .done) := by
    rw [proxyChunkedScan_eq, scanPieces_eq]
  refine ⟨by rw [hwhole], ?_, ?_, ?_, ?_, ?_, ?_⟩
  · rw [scanPieces_eq]
    exact run_done_iff pieces.flatten
  · rw [hwhole]
    exact beq_iff_eq
  · intro more h
    simp [proxyChunkedScan, h]
  · intro more h
    simp [proxyChunkedScan, h]
  · rw [scanPieces_eq, ← hmax]
    exact run_size_le _ _ (by decide)
  · intro ds hstart hne hds
    rw [proxyChunkedScan_eq, ← hmax]
    exact run_size_line _ ds hstart hne hds

/-- A body with an extension and a trailer, cut in the middle of its size line. -/
example : (scanPieces [ascii "4", ascii ";x\r\nwi", ascii "ki\r\n0\r\nA: b\r\n\r\nmore"]).chunkState
    = .done := by decide

end CWebUI.Proxy
