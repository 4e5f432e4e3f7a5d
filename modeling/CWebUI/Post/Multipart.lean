import CWebUI.Post.Protocol

set_option autoImplicit false

/-! # The multipart machine, one byte at a time

What a stream is for does not depend on how its body is cut. This file gives the machine
that says so: `Multipart` reads one byte at a time, and keeps of the receiving side only
what a handler and the request can see in the end, namely the files with their bytes and
results, and the records of the parts. It knows nothing of calls, of chunks or of field
buffers.

`PostStream.view` takes the state of a stream to the state of this machine. For a handler
that never aborts, every move of the stream is a run of the machine (`view_step`), so a
call of `postStreamFeed` is the machine run over its bytes, and the cutting of the body
disappears (`feed_segmentation`).
-/

namespace CWebUI.Post

open ByteString CWebUI.Http

/-! ## What can be seen of a stream -/

/-- A file as its handler got it: the name in `on_start`, all its bytes, and the flag of
`on_end` once it was called. -/
structure FilePart where
  name : Option (List UInt8)
  bytes : List UInt8
  result : Option Bool
  deriving DecidableEq, Repr

/-- What is recorded of a part. The length counts for files only. -/
structure PartInfo where
  name : List UInt8
  isFile : Bool
  failed : Bool
  length : Nat
  deriving DecidableEq, Repr

/-- One callback, as it changes the files. The newest file stands first. -/
def filesStep (files : List FilePart) (c : Callback) : List FilePart :=
  match c with
  | .onStart _ fileName => ⟨fileName, [], none⟩ :: files
  | .onChunk data => files.modifyHead (fun f => { f with bytes := f.bytes ++ data })
  | .onEnd success => files.modifyHead (fun f => { f with result := some success })

/-- The files of a trace of callbacks, newest first. -/
def filesOf (trace : List Event) : List FilePart := (calls trace).foldl filesStep []

/-- The record of a part without its buffer. -/
def PostStreamPart.info (p : PostStreamPart) : PartInfo where
  name := p.name
  isFile := p.isFile
  failed := p.failed
  length := if p.isFile then p.length else 0

/-- The receiving side of the machine. The newest file and the newest part stand first. -/
structure Receiver where
  partIsFile : Bool
  currentPart : Bool
  started : Bool
  discard : Bool
  aborted : Bool
  receivedLength : Nat
  partsCount : Nat
  files : List FilePart
  parts : List PartInfo
  deriving DecidableEq, Repr

/-- What the machine keeps of the receiving side of a stream. -/
def PartSink.view (k : PartSink) : Receiver where
  partIsFile := k.partIsFile
  currentPart := k.currentPart
  started := k.started
  discard := k.discard
  aborted := k.aborted
  receivedLength := k.receivedLength
  partsCount := k.partsCount
  files := filesOf k.trace
  parts := k.parts.map PostStreamPart.info

/-- Data of the open part: it is added to the file. -/
def Receiver.emit (r : Receiver) (data : List UInt8) : Receiver :=
  if data = [] ∨ r.aborted ∨ r.partIsFile = false then r
  else { r with
    receivedLength := r.receivedLength + data.length
    files := if r.discard then r.files
      else r.files.modifyHead (fun f => { f with bytes := f.bytes ++ data }) }

/-- A part begins. -/
def Receiver.openPart (r : Receiver) (fieldName fileName : Option (List UInt8)) : Receiver :=
  let r := { r with partIsFile := fileName.isSome, receivedLength := 0 }
  if r.discard then r
  else
    let name := (if r.partIsFile then fileName else fieldName).getD []
    let r := { r with
      parts := ⟨name.take postStreamMaxName, r.partIsFile, false, 0⟩ :: r.parts
      currentPart := true
      partsCount := r.partsCount + 1 }
    if r.partIsFile then { r with files := ⟨fileName, [], none⟩ :: r.files, started := true }
    else r

/-- The open part ends. -/
def Receiver.endPart (r : Receiver) (success : Bool) : Receiver :=
  { r with
    files := if r.partIsFile ∧ r.started then
        r.files.modifyHead (fun f => { f with result := some (!r.aborted && success) })
      else r.files
    started := if r.partIsFile ∧ r.started then false else r.started
    parts := if r.currentPart then
        r.parts.modifyHead (fun p => if p.isFile then
          { p with length := r.receivedLength, failed := p.failed || !success || r.aborted }
          else p)
      else r.parts
    currentPart := false
    partIsFile := false }

/-! ## The machine -/

/-- The machine that reads a multipart body one byte at a time. -/
structure Multipart where
  header : HttpRequestHeader
  state : PostStreamState
  hold : List UInt8
  delimInData : Bool
  partHeader : List UInt8
  receiver : Receiver
  deriving DecidableEq, Repr

/-- What the machine keeps of a stream: everything but the counter of the body bytes. -/
def PostStream.view (s : PostStream) : Multipart where
  header := { s.header with postBufferPos := 0 }
  state := s.state
  hold := s.hold
  delimInData := s.delimInData
  partHeader := s.partHeader
  receiver := s.sink.view

/-- Data of the open part. -/
def Multipart.emit (m : Multipart) (data : List UInt8) : Multipart :=
  { m with receiver := m.receiver.emit data }

/-- A byte while the machine searches for `needle`. A byte that does not continue the held
bytes gives them up; it may itself start the pattern. -/
def Multipart.scan (m : Multipart) (needle : List UInt8) (inData : Bool) (c : UInt8) :
    Multipart :=
  if needle[m.hold.length]? = some c then
    if m.hold.length + 1 = needle.length then
      { m with hold := [], delimInData := inData, state := .delimCheck }
    else { m with hold := m.hold ++ [c] }
  else if needle.head? = some c then
    { (if inData then m.emit m.hold else m) with hold := [c] }
  else { (if inData then m.emit (m.hold ++ [c]) else m) with hold := [] }

/-- The start of a part header. -/
def Multipart.afterBoundary (m : Multipart) : Multipart :=
  { m with
    receiver := { m.receiver with
      aborted := m.receiver.aborted || decide (postStreamMaxParts ≤ m.receiver.partsCount) }
    partHeader := crlf
    hold := []
    state := .partHeader }

/-- The header record after the collected part header has been read. -/
def Multipart.partFields (m : Multipart) : HttpRequestHeader :=
  (analyseFormDataLine m.partHeader
    { m.header with contentDisposition := none, contentType := none }).1

/-- A complete part header. -/
def Multipart.beginPart (m : Multipart) : Multipart :=
  if m.receiver.aborted then
    { m with
      receiver := { m.receiver with currentPart := false, partIsFile := false }
      state := .partData }
  else if m.partFields.error then
    { m with
      header := m.partFields
      receiver := { m.receiver with currentPart := false }
      state := .error }
  else
    { m with
      header := m.partFields
      receiver := Receiver.openPart { m.receiver with currentPart := false }
        (extractDispositionValue m.partFields.contentDisposition (ascii "name="))
        (extractDispositionValue m.partFields.contentDisposition (ascii "filename="))
      state := .partData }

/-- A byte of a part header. -/
def Multipart.headerByte (m : Multipart) (c : UInt8) : Multipart :=
  if postStreamMaxPartHeader ≤ m.partHeader.length + 1 ∧ m.receiver.aborted = false then
    { m with state := .error }
  else
    let m := { m with partHeader := pushHeaderByte m.partHeader c }
    if headerComplete m.partHeader then m.beginPart else m

/-- The second byte behind a boundary, `x` being the first. -/
def Multipart.delimByte (m : Multipart) (delim : List UInt8) (x c : UInt8) : Multipart :=
  let closed := if m.delimInData then { m with receiver := m.receiver.endPart true } else m
  if [x, c] = [45, 45] then { closed with hold := [], state := .epilogue }
  else if [x, c] = crlf then { closed with hold := [], state := .afterBoundary }
  else if m.delimInData then
    if c = cr then { m.emit (delim ++ [x]) with hold := [c], state := .partData }
    else { m.emit (delim ++ [x, c]) with hold := [], state := .partData }
  else { m with hold := [], state := .preamble }

/-- **The multipart machine**: what it does with one byte of a body whose boundary is
`boundary`. -/
def Multipart.step (boundary : List UInt8) (m : Multipart) (c : UInt8) : Multipart :=
  match m.state with
  | .preamble => m.scan boundary false c
  | .partData => m.scan (crlf ++ boundary) true c
  | .afterBoundary => m.afterBoundary.headerByte c
  | .partHeader => m.headerByte c
  | .delimCheck =>
      match m.hold with
      | [] => { m with hold := [c] }
      | x :: _ => m.delimByte (crlf ++ boundary) x c
  | .epilogue => m
  | .error => m

/-- The machine run over a byte string. -/
def Multipart.run (boundary : List UInt8) (m : Multipart) (data : List UInt8) : Multipart :=
  data.foldl (Multipart.step boundary) m

@[simp] theorem Multipart.run_nil (boundary : List UInt8) (m : Multipart) :
    m.run boundary [] = m := rfl

@[simp] theorem Multipart.run_cons (boundary : List UInt8) (m : Multipart) (c : UInt8)
    (data : List UInt8) : m.run boundary (c :: data) = (m.step boundary c).run boundary data := rfl

theorem Multipart.run_append (boundary : List UInt8) (m : Multipart) (a b : List UInt8) :
    m.run boundary (a ++ b) = (m.run boundary a).run boundary b := List.foldl_append

/-! ## The receiving side follows -/

/-- The handler that never aborts. -/
def neverAborts : Handler := fun _ => false

theorem filesOf_snoc (trace : List Event) (e : Event) :
    filesOf (trace ++ [e]) = filesStep (filesOf trace) e.call := by
  simp [filesOf, calls]

/-- Buffering a form field cannot be seen. -/
theorem view_emitField (k : PartSink) (p : PostStreamPart) (ps : List PostStreamPart)
    (data : List UInt8) (hk : k.parts = p :: ps) : (emitField k p data).view = k.view := by
  unfold emitField
  split_ifs with h1 h2
  · rfl
  · have hfile : p.isFile = false := by
      by_contra h
      exact h1 (.inl (by simpa using h))
    simp [PartSink.view, PartSink.modifyPart, hk, PostStreamPart.info, hfile]
  · have hfile : p.isFile = false := by
      by_contra h
      exact h1 (.inl (by simpa using h))
    simp [PartSink.view, PartSink.modifyPart, hk, PostStreamPart.info, hfile]

theorem view_emitPartData (pos : Nat) (k : PartSink) (data : List UInt8) :
    (emitPartData neverAborts pos k data).view = k.view.emit data := by
  unfold emitPartData Receiver.emit
  by_cases h1 : data = [] ∨ k.aborted = true
  · have h2 : data = [] ∨ k.view.aborted = true ∨ k.view.partIsFile = false := by
      rcases h1 with h | h
      · exact .inl h
      · exact .inr (.inl h)
    rw [if_pos h1, if_pos h2]
  · rw [if_neg h1]
    by_cases hf : k.partIsFile = true
    · have h2 : ¬ (data = [] ∨ k.view.aborted = true ∨ k.view.partIsFile = false) := by
        rintro (h | h | h)
        · exact h1 (.inl h)
        · exact h1 (.inr h)
        · exact absurd (hf.symm.trans h) (by decide)
      rw [if_pos hf, if_neg h2]
      cases hd : k.discard with
      | true => simp [PartSink.view, hd]
      | false =>
          simp [PartSink.view, PartSink.callback, neverAborts, filesOf_snoc, filesStep, hd]
    · have h2 : data = [] ∨ k.view.aborted = true ∨ k.view.partIsFile = false :=
        .inr (.inr (Bool.eq_false_iff.mpr hf))
      rw [if_neg hf, if_pos h2]
      split_ifs
      · cases hk : k.parts with
        | nil => rfl
        | cons p ps => exact view_emitField k p ps data hk
      · rfl

/-- Data that comes in two pieces is data that comes in one. -/
theorem Receiver.emit_append (r : Receiver) (a b : List UInt8) :
    (r.emit a).emit b = r.emit (a ++ b) := by
  unfold Receiver.emit
  by_cases h : r.aborted = true ∨ r.partIsFile = false
  · simp only [h, or_true, if_true]
  · by_cases ha : a = []
    · subst ha
      simp
    · by_cases hb : b = []
      · subst hb
        simp [h]
      · have hab : ¬ (a ++ b = []) := by simp [ha]
        simp only [ha, hb, hab, h, or_false, if_false]
        cases r.discard <;> cases r.files <;> simp [Nat.add_assoc]

@[simp] theorem Receiver.emit_nil (r : Receiver) : r.emit [] = r := by
  simp [Receiver.emit]

theorem view_emitEach (pos : Nat) (bytes : List UInt8) (k : PartSink) :
    (bytes.foldl (fun k b => emitPartData neverAborts pos k [b]) k).view = k.view.emit bytes := by
  induction bytes generalizing k with
  | nil => exact (Receiver.emit_nil k.view).symm
  | cons b bytes ih =>
      rw [List.foldl_cons, ih, view_emitPartData, Receiver.emit_append]
      rfl

theorem view_openPart (pos : Nat) (k : PartSink) (fieldName fileName : Option (List UInt8)) :
    (openPart neverAborts pos k fieldName fileName).view = k.view.openPart fieldName fileName := by
  unfold openPart Receiver.openPart
  cases hd : k.discard with
  | true => simp [PartSink.view, hd]
  | false =>
      cases hf : fileName.isSome with
      | true =>
          simp [PartSink.view, hd, PartSink.callback, PartSink.partName, neverAborts,
            filesOf_snoc, filesStep, PostStreamPart.info]
      | false =>
          simp [PartSink.view, hd, PartSink.partName, PostStreamPart.info]

theorem map_info_modifyHead (parts : List PostStreamPart) (f : PostStreamPart → PostStreamPart)
    (g : PartInfo → PartInfo) (h : ∀ p, (f p).info = g p.info) :
    (parts.modifyHead f).map PostStreamPart.info
      = (parts.map PostStreamPart.info).modifyHead g := by
  cases parts with
  | nil => rfl
  | cons p ps => simp [h]

theorem view_endPart (pos : Nat) (k : PartSink) (success : Bool) :
    (endPart neverAborts pos k success).view = k.view.endPart success := by
  unfold endPart Receiver.endPart
  by_cases h1 : k.partIsFile = true ∧ k.started = true
  · have h1' : k.view.partIsFile = true ∧ k.view.started = true := h1
    simp only [if_pos h1, if_pos h1']
    cases hc : k.currentPart with
    | true =>
        simp [PartSink.view, PartSink.modifyPart, PartSink.callback, neverAborts, hc,
          filesOf_snoc, filesStep]
        apply map_info_modifyHead
        intro p
        cases hp : p.isFile <;> simp [PostStreamPart.info, hp]
    | false =>
        simp [PartSink.view, PartSink.callback, neverAborts, hc, filesOf_snoc, filesStep]
  · have h1' : ¬ (k.view.partIsFile = true ∧ k.view.started = true) := h1
    simp only [if_neg h1, if_neg h1']
    cases hc : k.currentPart with
    | true =>
        simp [PartSink.view, PartSink.modifyPart, hc]
        apply map_info_modifyHead
        intro p
        cases hp : p.isFile <;> simp [PostStreamPart.info, hp]
    | false => simp [PartSink.view, hc]

/-! ## The machine follows -/

/-- Held bytes that do not contain the first byte of the pattern are all given out. -/
theorem rebase_of_not_mem (a : UInt8) (needle h : List UInt8) (ha : a ∉ h) :
    rebase (a :: needle) h = (h, []) := by
  induction h with
  | nil => rfl
  | cons b h ih =>
      have hb : ¬ (b :: h <+: a :: needle) := by
        intro hp
        obtain ⟨rfl, -⟩ := List.cons_prefix_cons.mp hp
        exact ha (by simp)
      rw [rebase, if_neg hb, ih (fun h => ha (by simp [h]))]

/-- The two bytes behind a false delimiter. -/
theorem rebase_pair (boundary : List UInt8) (x c : UInt8) (hne : [x, c] ≠ crlf) :
    rebase (crlf ++ boundary) [x, c] = if c = cr then ([x], [c]) else ([x, c], []) := by
  have hxc : ¬ ([x, c] <+: crlf ++ boundary) := by
    intro hp
    obtain ⟨rfl, hp'⟩ := List.cons_prefix_cons.mp hp
    obtain ⟨rfl, -⟩ := List.cons_prefix_cons.mp hp'
    exact hne rfl
  rw [rebase, if_neg hxc]
  split_ifs with hc
  · subst hc
    simp [rebase, crlf]
  · have : rebase (crlf ++ boundary) [c] = ([c], []) :=
      rebase_of_not_mem cr (lf :: boundary) [c] (by simpa using fun h => hc h.symm)
    rw [this]

/-- The counter of the body bytes does not matter to a part header. -/
theorem analyseFormDataLoop_withPos (length n : Nat) (line : List UInt8)
    (header : HttpRequestHeader) (p : UInt32) :
    (analyseFormDataLoop length n line { header with postBufferPos := p }).1 =
      { (analyseFormDataLoop length n line header).1 with postBufferPos := p } := by
  induction n generalizing line header with
  | zero => rfl
  | succ n ih =>
      unfold analyseFormDataLoop
      split_ifs
      · rfl
      · rfl
      · cases checkHeaderLine2 contentDispositionName line with
        | malformed => rfl
        | value v rest => exact ih rest { header with contentDisposition := some v }
        | other =>
            cases checkHeaderLine2 contentTypeName line with
            | malformed => rfl
            | value v rest => exact ih rest { header with contentType := some v }
            | other => exact ih line.tail header

theorem view_partFields (s : PostStream) :
    s.view.partFields = { s.partFields with postBufferPos := 0 } :=
  analyseFormDataLoop_withPos _ _ s.partHeader
    { s.header with contentDisposition := none, contentType := none } 0

theorem view_beginPart (s : PostStream) :
    PostStream.view { (beginPart neverAborts s).1 with
      state := if (beginPart neverAborts s).2 then .partData else .error } = s.view.beginPart := by
  have hfields := view_partFields s
  unfold Multipart.beginPart
  rcases beginPart_cases neverAborts s with ⟨hab, heq⟩ | ⟨hab, he, heq⟩ | ⟨hab, he, heq⟩
  · have hab' : s.view.receiver.aborted = true := hab
    rw [heq, if_pos hab']
    rfl
  · have hab' : ¬ (s.view.receiver.aborted = true) := by
      rw [show s.view.receiver.aborted = false from hab]; decide
    have he' : s.view.partFields.error = true := by rw [hfields]; exact he
    rw [heq, if_neg hab', if_pos he', hfields]
    rfl
  · have hab' : ¬ (s.view.receiver.aborted = true) := by
      rw [show s.view.receiver.aborted = false from hab]; decide
    have he' : ¬ (s.view.partFields.error = true) := by
      rw [hfields, show ({ s.partFields with postBufferPos := 0 } : HttpRequestHeader).error = false
        from he]
      decide
    rw [heq, if_neg hab', if_neg he', hfields]
    simp only [PostStream.view, view_openPart]
    rfl

theorem view_headerByte (s : PostStream) (c : UInt8)
    (hroom : s.partHeader.length + 1 < postStreamMaxPartHeader ∨ s.sink.aborted = true) :
    s.view.headerByte c = if headerComplete (s.pushHeader c).partHeader
      then (s.pushHeader c).view.beginPart else (s.pushHeader c).view := by
  have hnot : ¬ (postStreamMaxPartHeader ≤ s.view.partHeader.length + 1 ∧
      s.view.receiver.aborted = false) := by
    rintro ⟨h1, h2⟩
    rcases hroom with h | h
    · exact absurd h1 (Nat.not_le.mpr h)
    · exact absurd (h2.symm.trans h) (by decide)
  rw [Multipart.headerByte, if_neg hnot]
  rfl

/-- A byte that cannot start the pattern passes through an empty hold buffer. -/
theorem scan_pass (needle : List UInt8) (inData : Bool) (m : Multipart) (c : UInt8)
    (hh : m.hold = []) (hc : needle.head? ≠ some c) :
    m.scan needle inData c = if inData then m.emit [c] else m := by
  have hc' : needle[m.hold.length]? ≠ some c := by
    rw [hh, List.length_nil, ← List.head?_eq_getElem?]
    exact hc
  rw [Multipart.scan, if_neg hc', if_neg hc, hh]
  cases inData with
  | false =>
      show { m with hold := [] } = m
      rw [← hh]
  | true =>
      show { m.emit [c] with hold := [] } = m.emit [c]
      rw [← hh]
      rfl

/-- Bytes of the preamble that cannot start a boundary pass through the machine. -/
theorem preamble_run (boundary run : List UInt8) (m : Multipart) (hs : m.state = .preamble)
    (hh : m.hold = []) (hr : ∀ c ∈ run, boundary.head? ≠ some c) : m.run boundary run = m := by
  induction run with
  | nil => rfl
  | cons c run ih =>
      have hstep : m.step boundary c = m := by
        simp only [Multipart.step, hs]
        exact scan_pass boundary false m c hh (hr c (by simp))
      rw [Multipart.run_cons, hstep]
      exact ih (fun d hd => hr d (by simp [hd]))

/-- Bytes of a part that cannot start a delimiter pass through the machine as data. -/
theorem partData_run (boundary run : List UInt8) (m : Multipart) (hs : m.state = .partData)
    (hh : m.hold = []) (hr : ∀ c ∈ run, c ≠ cr) : m.run boundary run = m.emit run := by
  induction run generalizing m with
  | nil => simp [Multipart.emit]
  | cons c run ih =>
      have hc : (crlf ++ boundary).head? ≠ some c := by
        intro h
        exact hr c (by simp) (Option.some.inj h).symm
      have hstep : m.step boundary c = m.emit [c] := by
        simp only [Multipart.step, hs]
        exact scan_pass _ true m c hh hc
      rw [Multipart.run_cons, hstep, ih (m.emit [c]) hs hh (fun d hd => hr d (by simp [hd]))]
      simp only [Multipart.emit, Receiver.emit_append]
      rfl

/-- A byte that does not continue the held bytes is read with an empty hold buffer. -/
theorem scan_mismatch (needle : List UInt8) (inData : Bool) (m : Multipart) (c : UInt8)
    (hl : 2 ≤ needle.length) (hc : needle[m.hold.length]? ≠ some c) :
    m.scan needle inData c =
      Multipart.scan { (if inData then m.emit m.hold else m) with hold := [] } needle inData c := by
  by_cases hh : needle.head? = some c
  · have h0 : needle[([] : List UInt8).length]? = some c := by
      rw [List.length_nil, ← List.head?_eq_getElem?]
      exact hh
    have h1 : ¬ (([] : List UInt8).length + 1 = needle.length) := by
      rw [List.length_nil]
      omega
    rw [Multipart.scan, if_neg hc, if_pos hh, Multipart.scan, if_pos h0, if_neg h1]
    cases inData <;> rfl
  · rw [Multipart.scan, if_neg hc, if_neg hh, scan_pass needle inData _ c rfl hh]
    cases inData with
    | false => rfl
    | true =>
        simp only [Multipart.emit, Receiver.emit_append, if_true]

theorem step_preamble (boundary : List UInt8) (m : Multipart) (c : UInt8)
    (hs : m.state = .preamble) : m.step boundary c = m.scan boundary false c := by
  simp only [Multipart.step, hs]

theorem step_partData (boundary : List UInt8) (m : Multipart) (c : UInt8)
    (hs : m.state = .partData) : m.step boundary c = m.scan (crlf ++ boundary) true c := by
  simp only [Multipart.step, hs]

/-- A scanning stream is a scanning machine. -/
theorem view_scan {boundary : List UInt8} {s : PostStream} (hs : s.Scanning)
    (hd : s.delim = crlf ++ boundary) (c : UInt8) :
    s.view.step boundary c = s.view.scan s.needle (s.state == .partData) c := by
  rcases hs with hs | hs
  · have hn : s.needle = boundary := by
      rw [PostStream.needle, if_neg (by rw [hs]; decide), hd]; rfl
    rw [step_preamble boundary s.view c hs, hn, hs]
    rfl
  · have hn : s.needle = crlf ++ boundary := by rw [PostStream.needle, if_pos hs, hd]
    rw [step_partData boundary s.view c hs, hn, hs]
    rfl

/-- The second byte behind a boundary, seen by the machine. -/
theorem view_delimSecond {boundary : List UInt8} {s : PostStream} {x c : UInt8}
    (hd : s.delim = crlf ++ boundary) (hh : s.hold = [x]) :
    (delimCheck neverAborts (s.pushHold [c])).view = s.view.delimByte (crlf ++ boundary) x c := by
  have hhold : (s.pushHold [c]).hold = [x, c] := by simp [PostStream.pushHold, hh]
  unfold Multipart.delimByte
  rcases delimCheck_cases neverAborts (s.pushHold [c]) with ⟨h1, heq⟩ | ⟨h1, heq⟩ |
    ⟨h1, h2, h3, heq⟩ | ⟨h1, h2, h3, heq⟩
  · rw [hhold] at h1
    rw [heq]
    simp only [if_pos h1]
    cases hdi : s.delimInData <;>
      simp [PostStream.view, PostStream.pushHold, PostStream.take, hdi, view_endPart]
  · rw [hhold] at h1
    have hne : ¬ ([x, c] = [45, 45]) := by
      rw [h1]
      decide
    rw [heq]
    simp only [if_neg hne, if_pos h1]
    cases hdi : s.delimInData <;>
      simp [PostStream.view, PostStream.pushHold, PostStream.take, hdi, view_endPart]
  · rw [hhold] at h1 h2
    have hdelim : (s.pushHold [c]).delim = crlf ++ boundary := hd
    have h3' : s.view.delimInData = true := h3
    rw [heq, if_neg h1, if_neg h2, if_pos h3', hhold, hdelim, rebase_pair boundary x c h2]
    simp only [PostStream.view, PostStream.emitEach, view_emitEach, PostStream.emit,
      view_emitPartData, Receiver.emit_append, Multipart.emit]
    split_ifs <;> rfl
  · rw [hhold] at h1 h2
    have h3' : ¬ (s.view.delimInData = true) := by
      rw [show s.view.delimInData = false from h3]; decide
    rw [heq, if_neg h1, if_neg h2, if_neg h3']
    rfl

/-- The machine does not leave the error state or the epilogue. -/
theorem run_of_final (boundary : List UInt8) (m : Multipart) (data : List UInt8)
    (h : m.state = .error ∨ m.state = .epilogue) : m.run boundary data = m := by
  induction data with
  | nil => rfl
  | cons c data ih =>
      have hstep : m.step boundary c = m := by
        rcases h with h | h <;> simp only [Multipart.step, h]
      rw [Multipart.run_cons, hstep, ih]

/-- **Every move of a stream is a run of the machine**, for a handler that never aborts. -/
theorem view_step {boundary : List UInt8} (hcr : cr ∉ boundary) (hb : 2 ≤ boundary.length)
    {c c' : Config} (h : Step neverAborts c c') (hwf : c.1.WF)
    (hd : c.1.delim = crlf ++ boundary) :
    c.1.view.run boundary c.2 = c'.1.view.run boundary c'.2 := by
  have hlen : 2 ≤ (crlf ++ boundary).length := by simp [crlf]
  cases h with
  | @skip s run rest hs hh hr =>
      have hn : s.needle = boundary := by
        rw [PostStream.needle, if_neg (by rw [hs]; decide), hd]; rfl
      rw [hn] at hr
      rw [Multipart.run_append, preamble_run boundary run s.view hs hh hr]
      rfl
  | @emitRun s run rest hs hh hr =>
      have hn : s.needle = crlf ++ boundary := by rw [PostStream.needle, if_pos hs, hd]
      rw [hn] at hr
      have hr' : ∀ c ∈ run, c ≠ cr := by
        rintro c hc rfl
        exact hr _ hc rfl
      rw [Multipart.run_append, partData_run boundary run s.view hs hh hr']
      congr 1
      simp only [Multipart.emit, PostStream.view, PostStream.emit, PostStream.take]
      rw [view_emitPartData]
  | @push s c rest hs hc hl =>
      have hv : s.view.scan s.needle (s.state == .partData) c = (s.pushHold [c]).view := by
        have hc' : s.needle[s.view.hold.length]? = some c := hc
        have hl' : ¬ (s.view.hold.length + 1 = s.needle.length) := Nat.ne_of_lt hl
        rw [Multipart.scan, if_pos hc', if_neg hl']
        rfl
      rw [Multipart.run_cons, view_scan hs hd, hv]
  | @found s c rest hs hc hl =>
      have hv : s.view.scan s.needle (s.state == .partData) c = (s.found [c]).view := by
        have hc' : s.needle[s.view.hold.length]? = some c := hc
        have hl' : s.view.hold.length + 1 = s.needle.length := hl
        rw [Multipart.scan, if_pos hc', if_pos hl']
        rfl
      rw [Multipart.run_cons, view_scan hs hd, hv]
  | @preambleMismatch s c rest hs hh hc =>
      have hn : s.needle = boundary := by
        rw [PostStream.needle, if_neg (by rw [hs]; decide), hd]; rfl
      rw [hn] at hc
      have hv : s.view.step boundary c =
          (PostStream.view { s with hold := [] }).step boundary c := by
        rw [step_preamble boundary s.view c hs,
          step_preamble boundary (PostStream.view { s with hold := [] }) c hs,
          scan_mismatch boundary false s.view c hb hc]
        rfl
      rw [Multipart.run_cons, Multipart.run_cons, hv]
  | @dataMismatch s b c t rest hs hh hc =>
      have hn : s.needle = crlf ++ boundary := by rw [PostStream.needle, if_pos hs, hd]
      -- the held bytes start with the only CR of the pattern
      have ht : cr ∉ t := by
        have hp := (hwf.scan (.inr hs)).1
        rw [hh, hn] at hp
        obtain ⟨-, hp'⟩ := List.cons_prefix_cons.mp hp
        intro hmem
        rcases List.mem_cons.mp (hp'.subset hmem) with h | h
        · exact absurd h (by decide)
        · exact hcr h
      have hre : rebase s.delim t = (t, []) := by
        rw [hd]
        exact rebase_of_not_mem cr (lf :: boundary) t ht
      rw [hn] at hc
      have hv : s.view.step boundary c =
          (PostStream.view { s.emitEach neverAborts (b :: (rebase s.delim t).1) with
            hold := (rebase s.delim t).2 }).step boundary c := by
        have hview : PostStream.view { s.emitEach neverAborts (b :: t) with hold := [] } =
            { s.view.emit s.view.hold with hold := [] } := by
          simp only [PostStream.view, PostStream.emitEach, view_emitEach, Multipart.emit, hh]
        rw [hre, hview, step_partData boundary s.view c hs,
          step_partData boundary { s.view.emit s.view.hold with hold := [] } c hs,
          scan_mismatch (crlf ++ boundary) true s.view c hlen hc]
        rfl
      rw [Multipart.run_cons, Multipart.run_cons, hv]
  | @delimFirst s c rest hs hh =>
      have hv : s.view.step boundary c = (s.pushHold [c]).view := by
        have h1 : s.view.state = .delimCheck := hs
        have h2 : s.view.hold = [] := hh
        simp only [Multipart.step, h1, h2]
        simp [PostStream.view, PostStream.pushHold, PostStream.take, hh, hs]
      rw [Multipart.run_cons, hv]
  | @delimSecond s x c rest hs hh =>
      have hv : s.view.step boundary c = s.view.delimByte (crlf ++ boundary) x c := by
        have h1 : s.view.state = .delimCheck := hs
        have h2 : s.view.hold = [x] := hh
        simp only [Multipart.step, h1, h2]
      rw [Multipart.run_cons, hv, view_delimSecond hd hh]
  | @afterBoundary s c rest hs =>
      have hv : s.view.step boundary c = (Post.afterBoundary s).view.step boundary c := by
        have h1 : s.view.state = .afterBoundary := hs
        simp only [Multipart.step, h1]
        rfl
      rw [Multipart.run_cons, Multipart.run_cons, hv]
  | @header s c rest hs hroom hmore =>
      have hv : s.view.step boundary c = (s.pushHeader c).view := by
        have h1 : s.view.state = .partHeader := hs
        simp only [Multipart.step, h1]
        rw [view_headerByte s c hroom, hmore]
        rfl
      rw [Multipart.run_cons, hv]
  | @headerTooLong s c rest hs hfull hab =>
      have hv : s.view.step boundary c = PostStream.view { s with state := .error } := by
        have h1 : s.view.state = .partHeader := hs
        simp only [Multipart.step, h1]
        rw [Multipart.headerByte, if_pos ⟨hfull, hab⟩]
        rfl
      rw [Multipart.run_cons, hv, run_of_final boundary _ _ (.inl rfl),
        run_of_final boundary _ _ (.inl rfl)]
  | @headerDone s c rest hs hroom hdone =>
      have hv : s.view.step boundary c = (s.pushHeader c).view.beginPart := by
        have h1 : s.view.state = .partHeader := hs
        simp only [Multipart.step, h1]
        rw [view_headerByte s c hroom, hdone]
        rfl
      rw [Multipart.run_cons, hv, ← view_beginPart]
  | @epilogue s rest hs =>
      rw [run_of_final boundary s.view rest (.inr hs)]
      rfl

/-- The counters of the header do not change while a part header is read. -/
theorem analyseFormDataLoop_counters (length n : Nat) (line : List UInt8)
    (header : HttpRequestHeader) :
    (analyseFormDataLoop length n line header).1.postBufferPos = header.postBufferPos ∧
      (analyseFormDataLoop length n line header).1.contentlenght = header.contentlenght := by
  induction n generalizing line header with
  | zero => exact ⟨rfl, rfl⟩
  | succ n ih =>
      unfold analyseFormDataLoop
      split_ifs
      · exact ⟨rfl, rfl⟩
      · exact ⟨rfl, rfl⟩
      · cases checkHeaderLine2 contentDispositionName line with
        | malformed => exact ⟨rfl, rfl⟩
        | value v rest => exact ih rest { header with contentDisposition := some v }
        | other =>
            cases checkHeaderLine2 contentTypeName line with
            | malformed => exact ⟨rfl, rfl⟩
            | value v rest => exact ih rest { header with contentType := some v }
            | other => exact ih line.tail header

/-- The counters that decide when a body has ended: the bytes read, the bytes announced. -/
def PostStream.counters (s : PostStream) : UInt32 × UInt64 :=
  (s.header.postBufferPos, s.header.contentlenght)

theorem beginPart_counters (H : Handler) (s : PostStream) :
    (beginPart H s).1.counters = s.counters := by
  have hfields : (s.partFields.postBufferPos, s.partFields.contentlenght) = s.counters := by
    obtain ⟨h1, h2⟩ := analyseFormDataLoop_counters s.partHeader.length s.partHeader.length
      s.partHeader { s.header with contentDisposition := none, contentType := none }
    exact Prod.ext h1 h2
  rcases beginPart_cases H s with ⟨-, heq⟩ | ⟨-, -, heq⟩ | ⟨-, -, heq⟩
  · rw [heq]
    rfl
  · rw [heq]
    exact hfields
  · rw [heq]
    exact hfields

theorem delimCheck_counters (H : Handler) (s : PostStream) :
    (delimCheck H s).counters = s.counters := by
  rcases delimCheck_cases H s with ⟨-, heq⟩ | ⟨-, heq⟩ | ⟨-, -, -, heq⟩ | ⟨-, -, -, heq⟩
  all_goals
    rw [heq]
    rfl

/-- No move touches the counters. -/
theorem Step.counters {H : Handler} {c c' : Config} (h : Step H c c') :
    c'.1.counters = c.1.counters := by
  cases h with
  | headerDone hs hroom hdone => exact beginPart_counters H _
  | delimSecond hs hh => exact delimCheck_counters H _
  | _ => rfl

theorem Steps.counters {H : Handler} {c c' : Config} (h : Steps H c c') :
    c'.1.counters = c.1.counters := by
  induction h with
  | refl => rfl
  | tail _ hstep ih => exact hstep.counters.trans ih

/-- **A sequence of moves is a run of the machine.** -/
theorem view_steps {boundary : List UInt8} (hcr : cr ∉ boundary) (hb : 2 ≤ boundary.length)
    {c c' : Config} (h : Steps neverAborts c c') (hwf : c.1.WF)
    (hd : c.1.delim = crlf ++ boundary) :
    c.1.view.run boundary c.2 = c'.1.view.run boundary c'.2 := by
  induction h with
  | refl => rfl
  | @tail d e hsteps hstep ih =>
      have hd' : d.1.delim = crlf ++ boundary := (Steps.taken hsteps).2.1.trans hd
      exact ih.trans (view_step hcr hb hstep (Steps.wf hsteps hwf) hd')

/-! ## Whole bodies -/

/-- The calls of `postStreamFeed` with the pieces of a body, and the result of the last. -/
def feedAll (H : Handler) (s : PostStream) (pieces : List (List UInt8)) : PostStream × Int :=
  pieces.foldl (fun r data => postStreamFeed H r.1 data) (s, 0)

/-- A body that is over before its closing boundary ends the open part without success. -/
def Multipart.finish (m : Multipart) : Multipart :=
  if m.receiver.started then { m with receiver := m.receiver.endPart false } else m

/-- The end of a body: the machine, and the result of the call that got the last byte. -/
def Multipart.bodyEnd (m : Multipart) : Multipart × Int :=
  if m.state = .error then (m, -1)
  else if m.state = .epilogue then (m, 1)
  else (m.finish, -1)

/-- A stream in the middle of a body of `total` bytes, of which `n` have been read. -/
structure Reading (boundary : List UInt8) (total n : Nat) (s : PostStream) : Prop where
  wf : s.WF
  active : s.active = true
  delim : s.delim = crlf ++ boundary
  pos : s.header.postBufferPos.toNat = n
  total : s.header.contentlenght.toNat = total

theorem view_finish (s : PostStream) (ha : s.active = true) :
    (postStreamFinish neverAborts s false).view = s.view.finish := by
  unfold postStreamFinish Multipart.finish
  by_cases hs : s.sink.started = true
  · have hs' : s.view.receiver.started = true := hs
    rw [if_pos ⟨ha, hs⟩, if_pos hs']
    simp only [PostStream.view, PostStream.endPart, view_endPart]
  · have hs' : ¬ (s.view.receiver.started = true) := hs
    rw [if_neg (fun h => hs h.2), if_neg hs']

section Feeding

variable {boundary : List UInt8} (hcr : cr ∉ boundary) (hb : 2 ≤ boundary.length)
include hcr hb

/-- **A call of `postStreamFeed` is a run of the machine.** The call returns early in the
error state only, and else looks at the counters. -/
theorem feed_view {total n : Nat} {s : PostStream} (h : Reading boundary total n s)
    {data : List UInt8} (hne : data ≠ []) (hn : n + data.length < 2 ^ 32) :
    ∃ s', Reading boundary total (n + data.length) s' ∧
      s'.view = s.view.run boundary data ∧
      ((s'.state = .error ∧ postStreamFeed neverAborts s data = (s', -1)) ∨
        (s'.state ≠ .error ∧ postStreamFeed neverAborts s data = feedEnd neverAborts s')) := by
  obtain ⟨s', rest, hsteps, hend⟩ := postStreamFeed_steps neverAborts s data h.wf h.active
  obtain ⟨-, hd, ha⟩ := hsteps.taken
  have hview : s.view.run boundary data = s'.view.run boundary rest :=
    view_steps hcr hb hsteps (h.wf.count _) h.delim
  have hcount : (s.count data.length).header.postBufferPos.toNat = n + data.length := by
    show (s.header.postBufferPos + UInt32.ofNat data.length).toNat = n + data.length
    rw [UInt32.toNat_add, UInt32.toNat_ofNat', h.pos]
    omega
  have hread : Reading boundary total (n + data.length) s' := by
    have hc := hsteps.counters
    have h1 : s'.header.postBufferPos = (s.count data.length).header.postBufferPos :=
      congrArg Prod.fst hc
    have h2 : s'.header.contentlenght = s.header.contentlenght := congrArg Prod.snd hc
    exact ⟨hsteps.wf (h.wf.count _), ha.trans h.active, hd.trans h.delim, by rw [h1, hcount],
      by rw [h2, h.total]⟩
  refine ⟨s', hread, ?_, ?_⟩
  · rcases hend with ⟨he, -⟩ | ⟨rfl, -, -⟩
    · rw [hview, run_of_final boundary s'.view rest (.inl he)]
    · rw [hview, Multipart.run_nil]
  · rcases hend with ⟨he, heq⟩ | ⟨rfl, hkeep, heq⟩
    · exact .inl ⟨he, heq⟩
    · refine .inr ⟨?_, heq⟩
      -- a call in the error state looks at no byte, so it cannot use up its data
      refine hkeep (fun he => ?_)
      have hsame := hsteps.of_error he
      exact hne (congrArg Prod.snd hsame).symm

/-- The call that gets the last byte of a body. -/
theorem feed_last {total n : Nat} {s : PostStream} (h : Reading boundary total n s)
    {data : List UInt8} (hne : data ≠ []) (hn : n + data.length = total) (h32 : total < 2 ^ 32) :
    ((postStreamFeed neverAborts s data).1.view, (postStreamFeed neverAborts s data).2) =
      (s.view.run boundary data).bodyEnd := by
  obtain ⟨s', hread, hview, hend⟩ := feed_view hcr hb h hne (by omega)
  rw [← hview]
  rcases hend with ⟨he, heq⟩ | ⟨he, heq⟩
  · have he' : s'.view.state = .error := he
    rw [heq, Multipart.bodyEnd, if_pos he']
  · have he' : ¬ (s'.view.state = .error) := he
    have hover : s'.header.postBufferPos.toNat ≥ s'.header.contentlenght.toNat := by
      rw [hread.pos, hread.total]
      omega
    rw [heq, feedEnd, if_pos hover, Multipart.bodyEnd, if_neg he']
    by_cases hep : s'.state = .epilogue
    · have hep' : s'.view.state = .epilogue := hep
      rw [if_neg (fun hn => hn hep), if_pos hep']
    · have hep' : ¬ (s'.view.state = .epilogue) := hep
      rw [if_pos hep, if_neg hep', view_finish s' hread.active]

/-- A call in the middle of a body leaves the stream reading. -/
theorem feed_more {total n : Nat} {s : PostStream} (h : Reading boundary total n s)
    {data : List UInt8} (hne : data ≠ []) (hn : n + data.length < total) (h32 : total < 2 ^ 32) :
    Reading boundary total (n + data.length) (postStreamFeed neverAborts s data).1 ∧
      (postStreamFeed neverAborts s data).1.view = s.view.run boundary data := by
  obtain ⟨s', hread, hview, hend⟩ := feed_view hcr hb h hne (by omega)
  rcases hend with ⟨-, heq⟩ | ⟨-, heq⟩
  · rw [heq]
    exact ⟨hread, hview⟩
  · have hover : ¬ (s'.header.postBufferPos.toNat ≥ s'.header.contentlenght.toNat) := by
      rw [hread.pos, hread.total]
      omega
    rw [heq, feedEnd, if_neg hover]
    exact ⟨hread, hview⟩

/-- **The cutting of a body does not matter**: the calls for its pieces are one run of the
machine over the whole body. -/
theorem feedAll_view {total : Nat} (h32 : total < 2 ^ 32) (pieces : List (List UInt8))
    (hp : pieces ≠ []) (hne : ∀ p ∈ pieces, p ≠ []) {n : Nat} {s : PostStream} (ret : Int)
    (h : Reading boundary total n s) (hn : n + pieces.flatten.length = total) :
    ((pieces.foldl (fun r data => postStreamFeed neverAborts r.1 data) (s, ret)).1.view,
      (pieces.foldl (fun r data => postStreamFeed neverAborts r.1 data) (s, ret)).2) =
      (s.view.run boundary pieces.flatten).bodyEnd := by
  induction pieces generalizing n s ret with
  | nil => exact absurd rfl hp
  | cons p pieces ih =>
      have hpne : p ≠ [] := hne p (by simp)
      rw [List.flatten_cons, List.length_append] at hn
      rw [List.foldl_cons, List.flatten_cons]
      by_cases hlast : pieces = []
      · subst hlast
        rw [List.flatten_nil, List.append_nil]
        exact feed_last hcr hb h hpne (by simpa using hn) h32
      · have hpos : 0 < pieces.flatten.length := by
          rcases pieces with _ | ⟨q, pieces⟩
          · exact absurd rfl hlast
          · have hq : 0 < q.length := List.length_pos_iff.mpr (hne q (by simp))
            rw [List.flatten_cons, List.length_append]
            omega
        obtain ⟨hread, hview⟩ := feed_more hcr hb h hpne (by omega) h32
        rw [Multipart.run_append, ← hview]
        exact ih hlast (fun q hq => hne q (by simp [hq])) _ hread (by omega)

end Feeding

/-- The file names of the `on_start` calls, in order. -/
def startNames (l : List Callback) : List (Option (List UInt8)) :=
  l.filterMap (fun c => match c with
    | .onStart _ fileName => some fileName
    | _ => none)

/-- The success flags of the `on_end` calls, in order. -/
def endFlags (l : List Callback) : List Bool :=
  l.filterMap (fun c => match c with
    | .onEnd success => some success
    | _ => none)

/-- The file of a complete sequence of callbacks. -/
def PartCalls.file (p : PartCalls) : FilePart := ⟨p.fileName, p.chunks.flatten, some p.success⟩

theorem files_chunks (chunks : List (List UInt8)) (f : FilePart) (files : List FilePart) :
    (chunks.map Callback.onChunk).foldl filesStep (f :: files) =
      { f with bytes := f.bytes ++ chunks.flatten } :: files := by
  induction chunks generalizing f with
  | nil => simp
  | cons data chunks ih =>
      rw [List.map_cons, List.foldl_cons]
      exact (ih { f with bytes := f.bytes ++ data }).trans (by simp)

theorem files_partsCalls (ps : List PartCalls) (files : List FilePart) :
    (partsCalls ps).foldl filesStep files = (ps.map PartCalls.file).reverse ++ files := by
  induction ps generalizing files with
  | nil => rfl
  | cons p ps ih =>
      have hp : p.calls.foldl filesStep files = p.file :: files := by
        rw [PartCalls.calls, List.foldl_append]
        show filesStep ((p.chunks.map .onChunk).foldl filesStep (⟨p.fileName, [], none⟩ :: files))
          (.onEnd p.success) = _
        rw [files_chunks]
        simp [filesStep, PartCalls.file]
      have hsplit : partsCalls (p :: ps) = p.calls ++ partsCalls ps := rfl
      rw [hsplit, List.foldl_append, hp, ih]
      simp

theorem startNames_append (l₁ l₂ : List Callback) :
    startNames (l₁ ++ l₂) = startNames l₁ ++ startNames l₂ := List.filterMap_append

theorem endFlags_append (l₁ l₂ : List Callback) :
    endFlags (l₁ ++ l₂) = endFlags l₁ ++ endFlags l₂ := List.filterMap_append

theorem names_chunks (chunks : List (List UInt8)) :
    startNames (chunks.map Callback.onChunk) = [] ∧
      endFlags (chunks.map Callback.onChunk) = [] := by
  constructor <;> simp [startNames, endFlags, List.filterMap_map]

theorem names_partsCalls (ps : List PartCalls) :
    startNames (partsCalls ps) = ps.map PartCalls.fileName ∧
      endFlags (partsCalls ps) = ps.map PartCalls.success := by
  induction ps with
  | nil => exact ⟨rfl, rfl⟩
  | cons p ps ih =>
      have hsplit : partsCalls (p :: ps) =
          [.onStart p.fieldName p.fileName] ++ p.chunks.map .onChunk ++ [.onEnd p.success] ++
            partsCalls ps := rfl
      simp only [hsplit, startNames_append, endFlags_append, names_chunks, ih]
      exact ⟨rfl, rfl⟩

/-- The names and the flags of a trace can be read off its files. -/
theorem TraceForm.files {isOpen : Bool} {l : List Callback} (h : TraceForm isOpen l) :
    startNames l = ((l.foldl filesStep []).map FilePart.name).reverse ∧
      endFlags l = ((l.foldl filesStep []).filterMap FilePart.result).reverse := by
  have hmap (ps : List PartCalls) : (ps.map PartCalls.file).map FilePart.name =
      ps.map PartCalls.fileName := by simp [PartCalls.file, Function.comp_def]
  have hres (ps : List PartCalls) : (ps.map PartCalls.file).filterMap FilePart.result =
      ps.map PartCalls.success := by
    simp [List.filterMap_map, PartCalls.file, Function.comp_def]
  cases isOpen with
  | false =>
      obtain ⟨ps, rfl⟩ := h
      rw [files_partsCalls, List.append_nil, List.map_reverse, List.filterMap_reverse,
        List.reverse_reverse, List.reverse_reverse, hmap, hres]
      exact names_partsCalls ps
  | true =>
      obtain ⟨ps, fieldName, fileName, chunks, rfl⟩ := h
      have hfiles : (partsCalls ps ++ .onStart fieldName fileName ::
          List.map Callback.onChunk chunks).foldl filesStep [] =
          ⟨fileName, chunks.flatten, none⟩ :: (ps.map PartCalls.file).reverse := by
        rw [List.foldl_append, files_partsCalls, List.foldl_cons, filesStep, files_chunks]
        simp
      have hsplit : partsCalls ps ++ .onStart fieldName fileName ::
          List.map Callback.onChunk chunks =
          partsCalls ps ++ [.onStart fieldName fileName] ++ List.map Callback.onChunk chunks := by
        simp
      rw [hfiles, hsplit]
      simp only [startNames_append, endFlags_append, names_chunks, names_partsCalls,
        List.map_cons, List.map_reverse, List.filterMap_cons, List.filterMap_reverse, hmap, hres,
        List.reverse_cons, List.reverse_reverse, List.append_nil]
      exact ⟨rfl, List.append_nil _⟩

theorem feedAll_eq_runActions (H : Handler) (s : PostStream) (pieces : List (List UInt8)) :
    (feedAll H s pieces).1 = runActions H s (pieces.map .feed) := by
  unfold feedAll runActions
  generalize (0 : Int) = ret
  induction pieces generalizing s ret with
  | nil => rfl
  | cons p pieces ih => exact ih _ _

/-- The names and the flags of a stream can be read off its files. -/
theorem feedAll_files (H : Handler) (header : HttpRequestHeader) (boundary : List UInt8)
    (discard : Bool) (hb : boundary ≠ []) (pieces : List (List UInt8)) :
    let trace := (feedAll H (startPostStream header boundary discard) pieces).1.sink.trace
    startNames (calls trace) = ((filesOf trace).map FilePart.name).reverse ∧
      endFlags (calls trace) = ((filesOf trace).filterMap FilePart.result).reverse := by
  intro trace
  have h := runActions_inv H header boundary discard hb (pieces.map .feed)
  rw [← feedAll_eq_runActions] at h
  exact h.inv.sink.form.files

/-- The boundary with its leading dashes has no carriage return. -/
theorem cr_not_mem_boundary {b : List UInt8} (hcr : cr ∉ b) : cr ∉ ascii "--" ++ b := by
  have hdashes : cr ∉ ascii "--" := by decide
  intro hmem
  exact (List.mem_append.mp hmem).elim hdashes hcr

theorem startPostStream_reading {header : HttpRequestHeader} {boundary : List UInt8}
    {total : Nat} (discard : Bool) (hb : boundary ≠ []) (hpos : header.postBufferPos = 0)
    (hlen : header.contentlenght.toNat = total) :
    Reading boundary total 0 (startPostStream header boundary discard) :=
  ⟨startPostStream_wf header boundary discard hb, rfl, rfl, congrArg UInt32.toNat hpos, hlen⟩

/-- **A stream does not depend on how its body is cut.** For a boundary without CR and a body
of the announced length, cut into any non-empty pieces, the file names, the bytes of each
file, the flags of `on_end`, the records of the parts and the result of the last call are
those of a single call with the whole body. -/
theorem post_stream_segmentation (header : HttpRequestHeader) (b : List UInt8) (discard : Bool)
    (pieces : List (List UInt8)) (hcr : cr ∉ b) (hp : pieces ≠ []) (hne : ∀ p ∈ pieces, p ≠ [])
    (h32 : pieces.flatten.length < 2 ^ 32) (hpos : header.postBufferPos = 0)
    (hlen : header.contentlenght.toNat = pieces.flatten.length) :
    let s := startPostStream header (ascii "--" ++ b) discard
    let cut := feedAll neverAborts s pieces
    let whole := postStreamFeed neverAborts s pieces.flatten
    startNames (calls cut.1.sink.trace) = startNames (calls whole.1.sink.trace) ∧
    (filesOf cut.1.sink.trace).map FilePart.bytes = (filesOf whole.1.sink.trace).map FilePart.bytes ∧
    endFlags (calls cut.1.sink.trace) = endFlags (calls whole.1.sink.trace) ∧
    cut.1.sink.parts.map PostStreamPart.info = whole.1.sink.parts.map PostStreamPart.info ∧
    cut.2 = whole.2 := by
  intro s cut whole
  have hdash : ascii "--" = [45, 45] := by decide
  have hb : ascii "--" ++ b ≠ [] := by simp [hdash]
  have hcr' := cr_not_mem_boundary hcr
  have hread := startPostStream_reading discard hb hpos hlen
  have hl2 : 2 ≤ (ascii "--" ++ b).length := by simp [hdash]
  have hfl : pieces.flatten ≠ [] := by
    obtain ⟨p, ps, rfl⟩ := List.exists_cons_of_ne_nil hp
    simp [hne p]
  -- both are the same run of the machine
  have hcut := feedAll_view hcr' hl2 h32 pieces hp hne 0 hread (by omega)
  have hwhole := feed_last hcr' hl2 hread hfl (by omega) h32
  have heq := hcut.trans hwhole.symm
  have hrecv : cut.1.sink.view = whole.1.sink.view :=
    congrArg (fun r : Multipart × Int => r.1.receiver) heq
  have hfiles : filesOf cut.1.sink.trace = filesOf whole.1.sink.trace :=
    congrArg Receiver.files hrecv
  have h1 := feedAll_files neverAborts header (ascii "--" ++ b) discard hb pieces
  have h2 := feedAll_files neverAborts header (ascii "--" ++ b) discard hb [pieces.flatten]
  refine ⟨?_, congrArg _ hfiles, ?_, congrArg Receiver.parts hrecv,
    congrArg (fun r : Multipart × Int => r.2) heq⟩
  · exact h1.1.trans ((congrArg (fun f => (f.map FilePart.name).reverse) hfiles).trans h2.1.symm)
  · exact h1.2.trans
      ((congrArg (fun f => (f.filterMap FilePart.result).reverse) hfiles).trans h2.2.symm)

/-- A body with one file, cut inside its closing delimiter. -/
def sampleUpload : List (List UInt8) :=
  [ascii "--b\r\nContent-Disposition: form-data; filename=\"f\"\r\n\r\nhi\r\n-", ascii "-b--"]

/-- The request header that announces it. -/
def sampleUploadHeader : HttpRequestHeader :=
  { webserverMallocHttpRequestHeader with contentlenght := 62 }

theorem post_stream_segmentation_sample :
    let s := startPostStream sampleUploadHeader (ascii "--" ++ ascii "b") false
    (feedAll neverAborts s sampleUpload).2 = (postStreamFeed neverAborts s sampleUpload.flatten).2 :=
  (post_stream_segmentation sampleUploadHeader (ascii "b") false sampleUpload (by decide)
    (by decide) (by decide) (by decide) (by decide) (by decide)).2.2.2.2

end CWebUI.Post
