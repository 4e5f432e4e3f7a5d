import CWebUI.Http.PartHeader
import CWebUI.Post.Multipart

set_option autoImplicit false

/-! # Uploads arrive as they were sent

The round trip of a `multipart/form-data` body: a list of files is written down with its
boundary, and the streaming machine gives the same list to the handler. The machine is the
byte machine of `Post.Multipart`; each stretch of the body (preamble, part header, payload
with its closing delimiter) has its own run lemma.

The payloads are arbitrary, except that a payload must not contain its own end. For them the
invariant is that the bytes read so far are the bytes given out, followed by the ones held
back (`PayloadInv`): held bytes are a part of the delimiter, or a whole delimiter of which
the next two bytes are not yet known.
-/

namespace CWebUI.Post

open ByteString CWebUI.Http ListLemmas

/-! ## Bodies -/

/-- A file to be uploaded. -/
structure FileUpload where
  header : FilePartHeader
  payload : List UInt8
  deriving DecidableEq, Repr

/-- A part of a body, behind the boundary before it: the header, the data and the
delimiter that ends them. -/
def FileUpload.encode (boundary : List UInt8) (p : FileUpload) : List UInt8 :=
  headerText p.header.lines ++ (p.payload ++ (crlf ++ boundary))

/-- A body with its parts. -/
def encodeBody (boundary preamble epilogue : List UInt8) (parts : List FileUpload) :
    List UInt8 :=
  preamble ++ (boundary ++ ((parts.map (FileUpload.encode boundary)).flatten ++
    (45 :: 45 :: epilogue)))

/-- The text contains the pattern, followed by CRLF or by two dashes. -/
def Delimits (pattern text : List UInt8) : Prop :=
  pattern ++ crlf <:+: text ∨ pattern ++ [45, 45] <:+: text

instance (pattern text : List UInt8) : Decidable (Delimits pattern text) :=
  inferInstanceAs (Decidable (_ ∨ _))

/-- A file that can be sent with this boundary: its header is well formed and fits into the
buffer, and its payload does not contain its own end. -/
structure FileUpload.WellFormed (boundary : List UInt8) (p : FileUpload) : Prop where
  header : p.header.WellFormed
  short : (headerText p.header.lines).length < postStreamMaxPartHeader
  payload : ¬ Delimits (crlf ++ boundary) (p.payload ++ (crlf ++ boundary))

/-- A file that arrives as it was sent with this boundary. -/
structure FileUpload.Readable (boundary : List UInt8) (p : FileUpload) : Prop where
  header : p.header.Readable
  short : (headerText p.header.lines).length < postStreamMaxPartHeader
  payload : ¬ Delimits (crlf ++ boundary) (p.payload ++ (crlf ++ boundary))

theorem FileUpload.WellFormed.readable {boundary : List UInt8} {p : FileUpload}
    (h : p.WellFormed boundary) : p.Readable boundary :=
  ⟨h.header.readable, h.short, h.payload⟩

/-- A text that may stand before the first boundary. -/
structure Preamble (boundary preamble : List UInt8) : Prop where
  ending : preamble = [] ∨ crlf <:+ preamble
  clean : ¬ Delimits boundary preamble

/-- What the handler is to get. -/
def FileUpload.file (p : FileUpload) : FilePart := ⟨some p.header.fileName, p.payload, some true⟩

theorem Delimits.of_suffix {pattern w : List UInt8} {x c : UInt8} {e : List UInt8}
    (hw : w ++ [c] = e ++ (pattern ++ [x, c])) (h : [x, c] = [45, 45] ∨ [x, c] = crlf) :
    Delimits pattern (w ++ [c]) := by
  rcases h with h | h
  · exact .inr ⟨e, [], by rw [hw, h]; simp⟩
  · exact .inl ⟨e, [], by rw [hw, h]; simp⟩

theorem Delimits.mono {pattern w text : List UInt8} (h : Delimits pattern w) (hw : w <+: text) :
    Delimits pattern text := by
  rcases h with h | h
  · exact .inl (h.trans hw.isInfix)
  · exact .inr (h.trans hw.isInfix)

/-! ## The pattern itself -/

/-- A machine that has read a part of its pattern finds the pattern when the rest follows. -/
theorem run_needle (boundary needle : List UInt8) (inData : Bool) (state : PostStreamState)
    (hscan : ∀ (m : Multipart) c, m.state = state → m.step boundary c = m.scan needle inData c)
    (r h : List UInt8) (m : Multipart) (hs : m.state = state) (hh : m.hold = h)
    (hn : needle = h ++ r) (hr : r ≠ []) :
    m.run boundary r = { m with hold := [], delimInData := inData, state := .delimCheck } := by
  induction r generalizing h m with
  | nil => exact absurd rfl hr
  | cons c r ih =>
      have hc : needle[m.hold.length]? = some c := by
        rw [hh, hn]
        simp
      rw [Multipart.run_cons, hscan m c hs, Multipart.scan, if_pos hc]
      by_cases hlast : r = []
      · have hl : m.hold.length + 1 = needle.length := by
          rw [hh, hn, hlast]
          simp
        rw [if_pos hl, hlast, Multipart.run_nil]
      · have hl : ¬ (m.hold.length + 1 = needle.length) := by
          have : 0 < r.length := List.length_pos_iff.mpr hlast
          rw [hh, hn]
          simp
          omega
        rw [if_neg hl]
        exact ih (h ++ [c]) { m with hold := m.hold ++ [c] } hs (by simp [hh]) (by simp [hn]) hlast

/-- What a byte does to a machine that holds a part of its pattern: the byte completes the
pattern, continues it, starts it anew, or does none of these. -/
theorem scan_cases (needle : List UInt8) (inData : Bool) (m : Multipart) (c : UInt8)
    (hpre : m.hold <+: needle) :
    (m.hold ++ [c] = needle ∧
      m.scan needle inData c = { m with hold := [], delimInData := inData, state := .delimCheck }) ∨
    (m.hold ++ [c] <+: needle ∧ m.scan needle inData c = { m with hold := m.hold ++ [c] }) ∨
    ([c] <+: needle ∧
      m.scan needle inData c = { (if inData then m.emit m.hold else m) with hold := [c] }) ∨
    m.scan needle inData c = { (if inData then m.emit (m.hold ++ [c]) else m) with hold := [] } := by
  by_cases h1 : needle[m.hold.length]? = some c
  · have hsnoc := prefix_snoc hpre h1
    by_cases h2 : m.hold.length + 1 = needle.length
    · refine .inl ⟨hsnoc.eq_of_length (by rw [List.length_append]; exact h2), ?_⟩
      rw [Multipart.scan, if_pos h1, if_pos h2]
    · refine .inr (.inl ⟨hsnoc, ?_⟩)
      rw [Multipart.scan, if_pos h1, if_neg h2]
  · by_cases h3 : needle.head? = some c
    · refine .inr (.inr (.inl ⟨?_, ?_⟩))
      · obtain ⟨t, rfl⟩ := List.head?_eq_some_iff.mp h3
        exact ⟨t, rfl⟩
      · rw [Multipart.scan, if_neg h1, if_pos h3]
    · refine .inr (.inr (.inr ?_))
      rw [Multipart.scan, if_neg h1, if_neg h3]

/-- A boundary in the preamble that is not one. -/
theorem delimByte_preamble (m : Multipart) (delim : List UInt8) (x c : UInt8)
    (h1 : ¬ ([x, c] = [45, 45])) (h2 : ¬ ([x, c] = crlf)) (hd : ¬ (m.delimInData = true)) :
    m.delimByte delim x c = { m with hold := [], state := .preamble } := by
  rw [Multipart.delimByte]
  simp only [if_neg h1, if_neg h2, if_neg hd]

/-- A delimiter in the data that is not one: it was data, and so are the two bytes behind it,
except for a CR at the end, which may start the next one. -/
theorem delimByte_data (m : Multipart) (delim : List UInt8) (x c : UInt8)
    (h1 : ¬ ([x, c] = [45, 45])) (h2 : ¬ ([x, c] = crlf)) (hd : m.delimInData = true) :
    m.delimByte delim x c =
      if c = cr then { m.emit (delim ++ [x]) with hold := [c], state := .partData }
      else { m.emit (delim ++ [x, c]) with hold := [], state := .partData } := by
  rw [Multipart.delimByte]
  simp only [if_neg h1, if_neg h2, if_pos hd]

/-! ## The preamble -/

/-- What every byte keeps, as long as the bytes so far hold no delimiter. -/
theorem run_undelimited {boundary pattern : List UInt8} {P : List UInt8 → Multipart → Prop}
    (hstep : ∀ {w : List UInt8} {m : Multipart} {c : UInt8}, P w m →
      ¬ Delimits pattern (w ++ [c]) → P (w ++ [c]) (m.step boundary c))
    {w : List UInt8} {m : Multipart} (r : List UInt8) (h : P w m)
    (hno : ¬ Delimits pattern (w ++ r)) : P (w ++ r) (m.run boundary r) := by
  induction r generalizing w m with
  | nil => simpa using h
  | cons c r ih =>
      have hsplit : w ++ c :: r = w ++ [c] ++ r := by simp
      rw [hsplit] at hno ⊢
      rw [Multipart.run_cons]
      exact ih (hstep h (fun hdel => hno (hdel.mono (List.prefix_append _ _)))) hno

/-- The machine `m` after the bytes `w` of a preamble, started as `m₀`: it holds a part of a
boundary, or has seen a whole one and holds what follows it. -/
def PreambleInv (boundary w : List UInt8) (m₀ m : Multipart) : Prop :=
  (∃ h, m = { m₀ with hold := h, state := .preamble } ∧ h <:+ w ∧ h <+: boundary) ∨
  (∃ x, m = { m₀ with hold := x, state := .delimCheck } ∧ boundary ++ x <:+ w ∧ x.length < 2)

theorem PreambleInv.step {boundary w : List UInt8} {m₀ m : Multipart} {c : UInt8}
    (hd : m₀.delimInData = false) (h : PreambleInv boundary w m₀ m)
    (hno : ¬ Delimits boundary (w ++ [c])) :
    PreambleInv boundary (w ++ [c]) m₀ (m.step boundary c) := by
  rcases h with ⟨h, rfl, hsuf, hpre⟩ | ⟨x, rfl, hsuf, hlen⟩
  · rw [step_preamble boundary _ c rfl]
    rcases scan_cases boundary false { m₀ with hold := h, state := .preamble } c hpre with
      ⟨hfull, heq⟩ | ⟨hmore, heq⟩ | ⟨hnew, heq⟩ | heq
    · refine .inr ⟨[], by rw [heq, ← hd], ?_, by simp⟩
      rw [List.append_nil, ← hfull]
      exact suffix_snoc hsuf c
    · exact .inl ⟨h ++ [c], heq, suffix_snoc hsuf c, hmore⟩
    · exact .inl ⟨[c], heq, List.suffix_append _ _, hnew⟩
    · exact .inl ⟨[], heq, List.nil_suffix, List.nil_prefix⟩
  · match x, hlen with
    | [], _ =>
        right
        refine ⟨[c], rfl, ?_, by simp⟩
        rw [List.append_nil] at hsuf
        exact suffix_snoc hsuf c
    | [x], _ =>
        left
        obtain ⟨e, he⟩ := hsuf
        have hw : w ++ [c] = e ++ (boundary ++ [x, c]) := by simp [← he]
        have h1 : ¬ ([x, c] = [45, 45]) := fun h => hno (.of_suffix hw (.inl h))
        have h2 : ¬ ([x, c] = crlf) := fun h => hno (.of_suffix hw (.inr h))
        refine ⟨[], ?_, List.nil_suffix, List.nil_prefix⟩
        exact delimByte_preamble { m₀ with hold := [x], state := .delimCheck } (crlf ++ boundary)
          x c h1 h2 (by simp [hd])

theorem PreambleInv.run {boundary w : List UInt8} {m₀ m : Multipart} (r : List UInt8)
    (hd : m₀.delimInData = false) (h : PreambleInv boundary w m₀ m)
    (hno : ¬ Delimits boundary (w ++ r)) :
    PreambleInv boundary (w ++ r) m₀ (m.run boundary r) :=
  run_undelimited (P := fun w m => PreambleInv boundary w m₀ m)
    (fun hinv hclear => hinv.step hd hclear) r h hno

/-- **A preamble leaves no trace.** -/
theorem run_preamble {boundary preamble : List UInt8} (hcr : cr ∉ boundary)
    (hhead : boundary.head? = some 45) (hp : Preamble boundary preamble) {m₀ : Multipart}
    (hs : m₀.state = .preamble) (hh : m₀.hold = []) (hd : m₀.delimInData = false) :
    m₀.run boundary preamble = m₀ := by
  rcases hp.ending with rfl | ⟨u, rfl⟩
  · rfl
  · have hm₀ : m₀ = { m₀ with hold := [], state := .preamble } := by rw [← hs, ← hh]
    have hstart : PreambleInv boundary [] m₀ m₀ :=
      .inl ⟨[], hm₀, List.suffix_rfl, List.nil_prefix⟩
    have hinv := hstart.run u hd (fun h => hp.clean (h.mono (List.prefix_append u crlf)))
    -- a line feed cannot start a boundary
    have hlf : Multipart.step boundary m₀ lf = m₀ := by
      rw [step_preamble boundary m₀ lf hs, scan_pass boundary false m₀ lf hh (by rw [hhead]; decide)]
      rfl
    rw [Multipart.run_append]
    show Multipart.step boundary (Multipart.step boundary (m₀.run boundary u) cr) lf = m₀
    rcases hinv with ⟨h, heq, -, hpre⟩ | ⟨x, heq, hsuf, hlen⟩
    · have hmiss : boundary[h.length]? ≠ some cr := fun h => hcr (List.mem_of_getElem? h)
      have hstep : Multipart.step boundary { m₀ with hold := h, state := .preamble } cr = m₀ := by
        rw [step_preamble boundary _ cr rfl, Multipart.scan, if_neg hmiss,
          if_neg (by rw [hhead]; decide)]
        exact hm₀.symm
      rw [heq, hstep, hlf]
    · cases x with
      | nil =>
          obtain ⟨e, he⟩ := hsuf
          exact absurd (.inl ⟨e, [], by simpa using congrArg (· ++ crlf) he⟩) hp.clean
      | cons x more =>
          rw [List.length_cons] at hlen
          obtain rfl : more = [] := List.length_eq_zero_iff.mp (by omega)
          have h1 : ¬ ([x, cr] = [45, 45]) := by simp [cr]
          have h2 : ¬ ([x, cr] = crlf) := by simp [crlf, cr, lf]
          have hstep : Multipart.step boundary { m₀ with hold := [x], state := .delimCheck } cr =
              m₀ := by
            rw [hm₀]
            exact delimByte_preamble { m₀ with hold := [x], state := .delimCheck }
              (crlf ++ boundary) x cr h1 h2 (by simp [hd])
          rw [heq, hstep, hlf]

/-! ## The payload of a part -/

/-- The machine `m` after the bytes `w` of a payload, started as `m₀`: the bytes are those
given out, followed by those held back. -/
def PayloadInv (boundary w : List UInt8) (m₀ m : Multipart) : Prop :=
  (∃ e h d, m = { m₀.emit e with hold := h, state := .partData, delimInData := d } ∧
    w = e ++ h ∧ h <+: crlf ++ boundary) ∨
  (∃ e x, m = { m₀.emit e with hold := x, state := .delimCheck, delimInData := true } ∧
    w = e ++ (crlf ++ boundary ++ x) ∧ x.length < 2)

/-- What has been given out may be given out further. -/
theorem emit_emit_with (m₀ : Multipart) (e a h h' : List UInt8) (s s' : PostStreamState)
    (d d' : Bool) :
    ({ Multipart.emit { m₀.emit e with hold := h, state := s, delimInData := d } a with
        hold := h', state := s', delimInData := d' } : Multipart) =
      { m₀.emit (e ++ a) with hold := h', state := s', delimInData := d' } := by
  simp only [Multipart.emit, Receiver.emit_append]

theorem PayloadInv.step {boundary w : List UInt8} {m₀ m : Multipart} {c : UInt8}
    (h : PayloadInv boundary w m₀ m) (hno : ¬ Delimits (crlf ++ boundary) (w ++ [c])) :
    PayloadInv boundary (w ++ [c]) m₀ (m.step boundary c) := by
  rcases h with ⟨e, h, d, rfl, rfl, hpre⟩ | ⟨e, x, rfl, rfl, hlen⟩
  · rw [step_partData boundary _ c rfl]
    rcases scan_cases (crlf ++ boundary) true
      { m₀.emit e with hold := h, state := .partData, delimInData := d } c hpre with
      ⟨hfull, heq⟩ | ⟨hmore, heq⟩ | ⟨hnew, heq⟩ | heq
    · refine .inr ⟨e, [], heq, ?_, by simp⟩
      rw [List.append_nil, ← hfull, List.append_assoc]
    · exact .inl ⟨e, h ++ [c], d, heq, List.append_assoc e h [c], hmore⟩
    · exact .inl ⟨e ++ h, [c], d, heq.trans (emit_emit_with m₀ e h h [c] _ _ d d), rfl, hnew⟩
    · refine .inl ⟨e ++ (h ++ [c]), [], d,
        heq.trans (emit_emit_with m₀ e (h ++ [c]) h [] _ _ d d), by simp, List.nil_prefix⟩
  · match x, hlen with
    | [], _ =>
        refine .inr ⟨e, [c], rfl, by simp, by simp⟩
    | [x], _ =>
        left
        have hw : e ++ (crlf ++ boundary ++ [x]) ++ [c] = e ++ (crlf ++ boundary ++ [x, c]) := by
          simp
        have h1 : ¬ ([x, c] = [45, 45]) := fun h => hno (.of_suffix hw (.inl h))
        have h2 : ¬ ([x, c] = crlf) := fun h => hno (.of_suffix hw (.inr h))
        have hstep := delimByte_data
          { m₀.emit e with hold := [x], state := .delimCheck, delimInData := true }
          (crlf ++ boundary) x c h1 h2 rfl
        by_cases hc : c = cr
        · rw [if_pos hc] at hstep
          refine ⟨e ++ (crlf ++ boundary ++ [x]), [c], true,
            hstep.trans (emit_emit_with m₀ e _ _ _ _ _ true true), by simp, ?_⟩
          rw [hc]
          exact ⟨lf :: boundary, rfl⟩
        · rw [if_neg hc] at hstep
          exact ⟨e ++ (crlf ++ boundary ++ [x, c]), [], true,
            hstep.trans (emit_emit_with m₀ e _ _ _ _ _ true true), by simp, List.nil_prefix⟩

theorem PayloadInv.run {boundary w : List UInt8} {m₀ m : Multipart} (r : List UInt8)
    (h : PayloadInv boundary w m₀ m) (hno : ¬ Delimits (crlf ++ boundary) (w ++ r)) :
    PayloadInv boundary (w ++ r) m₀ (m.run boundary r) :=
  run_undelimited (P := fun w m => PayloadInv boundary w m₀ m)
    (fun hinv hclear => hinv.step hclear) r h hno

/-- The CR of the closing delimiter: whatever was held back is payload. -/
theorem PayloadInv.closing {boundary payload : List UInt8} {m₀ m : Multipart}
    (hcr : cr ∉ boundary) (h : PayloadInv boundary payload m₀ m)
    (hno : ¬ Delimits (crlf ++ boundary) (payload ++ (crlf ++ boundary))) :
    ∃ d, m.step boundary cr =
      { m₀.emit payload with hold := [cr], state := .partData, delimInData := d } := by
  rcases h with ⟨e, h, d, rfl, rfl, hpre⟩ | ⟨e, x, rfl, rfl, hlen⟩
  · refine ⟨d, ?_⟩
    rw [step_partData boundary _ cr rfl]
    rcases h with _ | ⟨a, h⟩
    · -- nothing is held back
      rw [List.append_nil]
      have h0 : (crlf ++ boundary)[([] : List UInt8).length]? = some cr := rfl
      have hl : ¬ (([] : List UInt8).length + 1 = (crlf ++ boundary).length) := by simp [crlf]
      rw [Multipart.scan, if_pos h0, if_neg hl]
      rfl
    · -- a CR does not continue a delimiter
      have hmiss : (crlf ++ boundary)[(a :: h).length]? ≠ some cr := by
        show (lf :: boundary)[h.length]? ≠ some cr
        intro hget
        rcases List.mem_cons.mp (List.mem_of_getElem? hget) with h | h
        · exact absurd h (by decide)
        · exact hcr h
      have hhead : (crlf ++ boundary).head? = some cr := rfl
      rw [Multipart.scan, if_neg hmiss, if_pos hhead]
      exact emit_emit_with m₀ e (a :: h) (a :: h) [cr] _ _ d d
  · cases x with
    | nil =>
        -- the payload would end in a delimiter, and the CRLF of the next would make it count
        refine absurd (.inl ⟨e, boundary, ?_⟩) hno
        simp
    | cons x more =>
        rw [List.length_cons] at hlen
        obtain rfl : more = [] := List.length_eq_zero_iff.mp (by omega)
        have h1 : ¬ ([x, cr] = [45, 45]) := by simp [cr]
        have h2 : ¬ ([x, cr] = crlf) := by simp [crlf, cr, lf]
        have hstep := delimByte_data
          { m₀.emit e with hold := [x], state := .delimCheck, delimInData := true }
          (crlf ++ boundary) x cr h1 h2 rfl
        rw [if_pos rfl] at hstep
        exact ⟨true, hstep.trans (emit_emit_with m₀ e _ _ _ _ _ true true)⟩

/-- **A payload and its closing delimiter**: the payload is given out, byte for byte. -/
theorem run_payload {boundary payload : List UInt8} (hcr : cr ∉ boundary) {m₀ : Multipart}
    (hs : m₀.state = .partData) (hh : m₀.hold = [])
    (hno : ¬ Delimits (crlf ++ boundary) (payload ++ (crlf ++ boundary))) :
    m₀.run boundary (payload ++ (crlf ++ boundary)) =
      { m₀.emit payload with hold := [], state := .delimCheck, delimInData := true } := by
  have hstart : PayloadInv boundary [] m₀ m₀ := by
    refine .inl ⟨[], [], m₀.delimInData, ?_, rfl, List.nil_prefix⟩
    simp only [Multipart.emit, Receiver.emit_nil]
    rw [← hs, ← hh]
  have hinv := hstart.run payload (fun h => hno (h.mono (List.prefix_append _ _)))
  obtain ⟨d, hd⟩ := hinv.closing hcr hno
  rw [Multipart.run_append]
  show Multipart.run boundary (Multipart.step boundary (m₀.run boundary payload) cr)
    (lf :: boundary) = _
  rw [hd]
  exact run_needle boundary (crlf ++ boundary) true .partData
    (fun m c hm => step_partData boundary m c hm) (lf :: boundary) [cr] _ rfl rfl rfl (by simp)

/-! ## The header of a part -/

/-- The header of a part is collected to its end, and no further. -/
theorem run_header (boundary : List UInt8) {ls : List (List UInt8)}
    (hplain : ∀ l ∈ ls, PlainLine l) (hshort : (headerText ls).length < postStreamMaxPartHeader)
    (r : List UInt8) (hr : r ≠ []) {m : Multipart} (hs : m.state = .partHeader)
    (hm : m.partHeader ++ r = headerText ls) :
    m.run boundary r = Multipart.beginPart { m with partHeader := headerText ls } := by
  induction r generalizing m with
  | nil => exact absurd rfl hr
  | cons c r ih =>
      have hlen : m.partHeader.length + 1 + r.length < postStreamMaxPartHeader := by
        rw [← hm] at hshort
        simp at hshort
        omega
      have hroom : ¬ (postStreamMaxPartHeader ≤ m.partHeader.length + 1 ∧
          m.receiver.aborted = false) := by omega
      have hpush : pushHeaderByte m.partHeader c = m.partHeader ++ [c] := by
        rw [pushHeaderByte, if_neg (by omega)]
      have hstep : m.step boundary c = if headerComplete (m.partHeader ++ [c])
          then Multipart.beginPart { m with partHeader := m.partHeader ++ [c] }
          else { m with partHeader := m.partHeader ++ [c] } := by
        have hbyte : m.step boundary c = m.headerByte c := by simp only [Multipart.step, hs]
        rw [hbyte, Multipart.headerByte, if_neg hroom, hpush]
      have hsplit : m.partHeader ++ [c] ++ r = headerText ls := by simpa using hm
      rw [Multipart.run_cons, hstep]
      by_cases hlast : r = []
      · -- the whole text ends in an empty line
        rw [hlast, List.append_nil] at hsplit
        have hdone : headerComplete (headerText ls) = true := by
          rw [headerComplete, headerText, decide_eq_true_eq]
          simp [crlf]
        rw [hsplit, hdone, hlast]
        rfl
      · have hmore : headerComplete (m.partHeader ++ [c]) = false := by
          rw [headerComplete, decide_eq_false_iff_not]
          rintro ⟨-, hend⟩
          -- an empty line before the end would be the end
          have hu := List.take_append_drop ((m.partHeader ++ [c]).length - 4) (m.partHeader ++ [c])
          rw [hend] at hu
          have hwhole := headerText_end ls hplain _ (by rw [hu]; exact ⟨r, hsplit⟩)
          rw [hu, ← hsplit] at hwhole
          exact hlast (by simpa using hwhole)
        rw [hmore]
        exact ih hlast hs hsplit

/-- The header record after a part header. -/
theorem partFields_readable {h : FilePartHeader} (hw : h.Readable) {m : Multipart}
    (hm : m.partHeader = headerText h.lines) :
    m.partFields.error = m.header.error ∧
      m.partFields.contentDisposition = some h.disposition := by
  obtain ⟨ct, hct⟩ := analyseFormDataLine_readable h hw []
    { m.header with contentDisposition := none, contentType := none }
  rw [List.append_nil, ← hm] at hct
  have hfields : m.partFields = _ := congrArg Prod.fst hct
  exact ⟨by rw [hfields], by rw [hfields]⟩

/-! ## Whole parts -/

/-- The machine without the part that the delimiter just read has ended. -/
def Multipart.closed (m : Multipart) : Receiver :=
  if m.delimInData then m.receiver.endPart true else m.receiver

/-- A machine that has just read a boundary, with `n` parts and these files behind it. -/
structure AtBoundary (n : Nat) (files : List FilePart) (m : Multipart) : Prop where
  state : m.state = .delimCheck
  hold : m.hold = []
  error : m.header.error = false
  aborted : m.closed.aborted = false
  discard : m.closed.discard = false
  partsCount : m.closed.partsCount = n
  files : m.closed.files = files

/-- The CRLF behind a boundary. -/
theorem run_crlf {boundary : List UInt8} {m : Multipart} (hs : m.state = .delimCheck)
    (hh : m.hold = []) :
    m.run boundary crlf = { m with receiver := m.closed, hold := [], state := .afterBoundary } := by
  show Multipart.step boundary (Multipart.step boundary m cr) lf = _
  have h1 : m.step boundary cr = { m with hold := [cr] } := by
    simp only [Multipart.step, hs, hh]
  have h2 : Multipart.step boundary { m with hold := [cr] } lf =
      Multipart.delimByte { m with hold := [cr] } (crlf ++ boundary) cr lf := by
    simp only [Multipart.step, hs]
  rw [h1, h2, Multipart.delimByte, Multipart.closed]
  have h3 : ¬ ([cr, lf] = [45, 45]) := by decide
  simp only [if_neg h3]
  cases m.delimInData <;> rfl

/-- The two dashes behind the last boundary, and whatever follows them. -/
theorem run_dashes {boundary epilogue : List UInt8} {m : Multipart} (hs : m.state = .delimCheck)
    (hh : m.hold = []) :
    m.run boundary (45 :: 45 :: epilogue) =
      { m with receiver := m.closed, hold := [], state := .epilogue } := by
  rw [Multipart.run_cons, Multipart.run_cons]
  have h1 : m.step boundary 45 = { m with hold := [45] } := by
    simp only [Multipart.step, hs, hh]
  have h2 : Multipart.step boundary { m with hold := [45] } 45 =
      Multipart.delimByte { m with hold := [45] } (crlf ++ boundary) 45 45 := by
    simp only [Multipart.step, hs]
  have h3 : Multipart.delimByte { m with hold := [45] } (crlf ++ boundary) 45 45 =
      { m with receiver := m.closed, hold := [], state := .epilogue } := by
    rw [Multipart.delimByte, Multipart.closed]
    cases m.delimInData <;> rfl
  rw [h1, h2, h3]
  exact run_of_final boundary _ epilogue (.inr rfl)

/-- What the receiving side makes of a whole file. -/
theorem receiver_file (r : Receiver) (fieldName : Option (List UInt8))
    (fileName payload : List UInt8) (ha : r.aborted = false) (hd : r.discard = false) :
    let r' := ((r.openPart fieldName (some fileName)).emit payload).endPart true
    r'.aborted = false ∧ r'.discard = false ∧ r'.partsCount = r.partsCount + 1 ∧
      r'.files = ⟨some fileName, payload, some true⟩ :: r.files := by
  by_cases hp : payload = []
  · subst hp
    simp [Receiver.openPart, Receiver.endPart, ha, hd]
  · simp [Receiver.openPart, Receiver.endPart, Receiver.emit, ha, hd, hp]

/-- **A whole part**, from the boundary before it to the one behind it. -/
theorem run_part {boundary : List UInt8} (hcr : cr ∉ boundary) {n : Nat} {files : List FilePart}
    {m : Multipart} (hm : AtBoundary n files m) (hn : n < postStreamMaxParts) {p : FileUpload}
    (hp : p.Readable boundary) :
    AtBoundary (n + 1) (p.file :: files) (m.run boundary (p.encode boundary)) := by
  have hfn := extractDispositionValue_readable p.header hp.header
  -- behind the CRLF of the boundary the header is collected
  obtain ⟨rest, hrest⟩ := lines_start p.header.lines crlf
  have htext : headerText p.header.lines = crlf ++ rest := hrest
  have hne : rest ≠ [] := by
    rintro rfl
    have hlen := congrArg List.length htext
    simp [headerText, FilePartHeader.lines, crlf] at hlen
    omega
  set m₁ : Multipart := { m with receiver := m.closed, hold := [], state := .afterBoundary } with hm₁
  obtain ⟨c, rest', rfl⟩ := List.exists_cons_of_ne_nil hne
  have hfirst : m₁.run boundary (c :: rest') = m₁.afterBoundary.run boundary (c :: rest') := by
    rw [Multipart.run_cons, Multipart.run_cons]
    rfl
  have hheader := run_header boundary hp.header.plain hp.short (c :: rest') (by simp)
    (m := m₁.afterBoundary) rfl htext.symm
  set m₂ : Multipart := { m₁.afterBoundary with partHeader := headerText p.header.lines } with hm₂
  obtain ⟨herr, hdisp⟩ := partFields_readable hp.header (m := m₂) rfl
  have hcount : ¬ (postStreamMaxParts ≤ m.closed.partsCount) := by
    rw [hm.partsCount]
    omega
  have hab : m₂.receiver.aborted = false := by
    show (m.closed.aborted || decide (postStreamMaxParts ≤ m.closed.partsCount)) = false
    rw [hm.aborted, decide_eq_false hcount]
    rfl
  have herr' : m₂.partFields.error = false := herr.trans hm.error
  -- the part begins with the name of the file
  obtain ⟨m₃, hm₃, hs₃, hh₃, he₃, fieldName, hr₃⟩ : ∃ m₃, m₂.beginPart = m₃ ∧
      m₃.state = .partData ∧ m₃.hold = [] ∧ m₃.header.error = false ∧
      ∃ fieldName, m₃.receiver = Receiver.openPart { m₂.receiver with currentPart := false }
        fieldName (some p.header.fileName) := by
    refine ⟨_, rfl, ?_⟩
    rw [Multipart.beginPart, if_neg (by rw [hab]; decide), if_neg (by rw [herr']; decide)]
    refine ⟨rfl, rfl, herr', extractDispositionValue m₂.partFields.contentDisposition
      (ascii "name="), ?_⟩
    show Receiver.openPart _ _
      (extractDispositionValue m₂.partFields.contentDisposition fileNameKey) = _
    rw [hdisp, hfn]
  have hrun : m.run boundary (p.encode boundary) =
      { m₃.emit p.payload with hold := [], state := .delimCheck, delimInData := true } := by
    rw [FileUpload.encode, htext, List.append_assoc, Multipart.run_append,
      run_crlf hm.state hm.hold, ← hm₁, Multipart.run_append, hfirst, hheader, hm₃,
      run_payload hcr hs₃ hh₃ hp.payload]
  obtain ⟨h1, h2, h3, h4⟩ := receiver_file { m₂.receiver with currentPart := false } fieldName
    p.header.fileName p.payload hab hm.discard
  rw [← hr₃] at h1 h2 h3 h4
  rw [hrun]
  refine ⟨rfl, rfl, he₃, h1, h2, h3.trans ?_, h4.trans ?_⟩
  · exact congrArg (· + 1) hm.partsCount
  · exact congrArg (p.file :: ·) hm.files

/-- A list of parts. -/
theorem run_parts {boundary : List UInt8} (hcr : cr ∉ boundary) (parts : List FileUpload)
    (hp : ∀ p ∈ parts, p.Readable boundary) {n : Nat} {files : List FilePart} {m : Multipart}
    (hm : AtBoundary n files m) (hn : n + parts.length ≤ postStreamMaxParts) :
    AtBoundary (n + parts.length) ((parts.map FileUpload.file).reverse ++ files)
      (m.run boundary (parts.map (FileUpload.encode boundary)).flatten) := by
  induction parts generalizing n files m with
  | nil => exact hm
  | cons p parts ih =>
      rw [List.length_cons] at hn
      have hpart := run_part hcr hm (by omega) (hp p (by simp))
      have hrest := ih (fun q hq => hp q (by simp [hq])) hpart (by omega)
      have hcount : n + (parts.length + 1) = n + 1 + parts.length := by omega
      rw [List.map_cons, List.map_cons, List.flatten_cons, Multipart.run_append,
        List.reverse_cons, List.append_assoc, List.length_cons, hcount]
      exact hrest

/-- A body with its parts, read by a fresh machine. -/
theorem run_encodeBody {boundary preamble : List UInt8} (epilogue : List UInt8)
    (hcr : cr ∉ boundary) (hhead : boundary.head? = some 45) (hpre : Preamble boundary preamble)
    (parts : List FileUpload) (hp : ∀ p ∈ parts, p.Readable boundary)
    (hn : parts.length ≤ postStreamMaxParts) (header : HttpRequestHeader)
    (herr : header.error = false) :
    ((startPostStream header boundary false).view.run boundary
        (encodeBody boundary preamble epilogue parts)).state = .epilogue ∧
      ((startPostStream header boundary false).view.run boundary
        (encodeBody boundary preamble epilogue parts)).receiver.files =
        (parts.map FileUpload.file).reverse := by
  set m₀ := (startPostStream header boundary false).view with hm₀
  have hne : boundary ≠ [] := by
    rintro rfl
    exact absurd hhead (by simp)
  have hfound := run_needle boundary boundary false .preamble
    (fun m c hm => step_preamble boundary m c hm) boundary [] m₀ rfl rfl rfl hne
  have hat : AtBoundary 0 [] (m₀.run boundary boundary) := by
    rw [hfound]
    exact ⟨rfl, rfl, herr, rfl, rfl, rfl, rfl⟩
  have hparts := run_parts hcr parts hp hat (by omega)
  rw [encodeBody, Multipart.run_append, run_preamble hcr hhead hpre rfl rfl rfl,
    Multipart.run_append, Multipart.run_append, run_dashes hparts.state hparts.hold]
  exact ⟨rfl, by simpa using hparts.files⟩

/-- What a handler gets of files that arrive as they were sent. -/
theorem feedAll_readable (header : HttpRequestHeader) (b preamble epilogue : List UInt8)
    (parts : List FileUpload) (pieces : List (List UInt8))
    (hcr : cr ∉ b) (hpre : Preamble (ascii "--" ++ b) preamble)
    (hp : ∀ p ∈ parts, p.Readable (ascii "--" ++ b)) (hn : parts.length ≤ postStreamMaxParts)
    (hbody : pieces.flatten = encodeBody (ascii "--" ++ b) preamble epilogue parts)
    (hne : ∀ p ∈ pieces, p ≠ []) (h32 : pieces.flatten.length < 2 ^ 32)
    (hpos : header.postBufferPos = 0) (hlen : header.contentlenght.toNat = pieces.flatten.length)
    (herr : header.error = false) :
    let r := feedAll neverAborts (startPostStream header (ascii "--" ++ b) false) pieces
    r.2 = 1 ∧ (filesOf r.1.sink.trace).reverse = parts.map FileUpload.file := by
  intro r
  have hdash : ascii "--" = [45, 45] := by decide
  have hb : ascii "--" ++ b ≠ [] := by simp [hdash]
  have hcr' := cr_not_mem_boundary hcr
  have hl2 : 2 ≤ (ascii "--" ++ b).length := by simp [hdash]
  have hhead : (ascii "--" ++ b).head? = some 45 := by simp [hdash]
  have hpieces : pieces ≠ [] := by
    rintro rfl
    have hlen0 := congrArg List.length hbody
    simp [encodeBody, hdash] at hlen0
  have hread := startPostStream_reading false hb hpos hlen
  have hview := feedAll_view hcr' hl2 h32 pieces hpieces hne 0 hread (by omega)
  obtain ⟨hstate, hfiles⟩ := run_encodeBody epilogue hcr' hhead hpre parts hp hn header herr
  rw [hbody, Multipart.bodyEnd, if_neg (by rw [hstate]; decide), if_pos hstate] at hview
  have hret : r.2 = 1 := congrArg (fun r : Multipart × Int => r.2) hview
  have htrace : filesOf r.1.sink.trace = (parts.map FileUpload.file).reverse :=
    (congrArg (fun r : Multipart × Int => r.1.receiver.files) hview).trans hfiles
  exact ⟨hret, by rw [htrace, List.reverse_reverse]⟩

end CWebUI.Post
