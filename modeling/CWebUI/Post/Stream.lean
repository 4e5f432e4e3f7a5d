import CWebUI.Http.FormData

set_option autoImplicit false

/-! # Streaming reception of multipart uploads

The state machine of `post_streaming.c`. A registered handler gets the body of a
`multipart/form-data` request in chunks: the machine finds the boundaries, reads the part
headers and passes the data of file parts on; form fields are buffered. A boundary may lie
across two reads, so bytes that may belong to one are held back until it is clear what they
are.

The functions are those of the code, in its order and with its words. Loops that the
compiler cannot see to end get a number of rounds, which is always chosen large enough.

Two things are added that the code does not keep. `taken` is the part of the body that the
machine has consumed, and `trace` is the list of the callbacks it has made, each with the
number of body bytes consumed at that time. The handler is a function from the callbacks so
far to whether it calls `PostStreamAbort` in the last of them.
-/

namespace CWebUI.Post

open ByteString CWebUI.Http

/-! ## The state -/

/-- `POST_STREAM_MAX_PART_HEADER`. -/
def postStreamMaxPartHeader : Nat := 8 * 1024

/-- `POST_STREAM_MAX_FIELD_SIZE`. -/
def postStreamMaxFieldSize : Nat := 64 * 1024

/-- `POST_STREAM_MAX_FIELDS_TOTAL`. -/
def postStreamMaxFieldsTotal : Nat := 256 * 1024

/-- `POST_STREAM_MAX_NAME`. -/
def postStreamMaxName : Nat := 256

/-- `POST_STREAM_MAX_PARTS`. -/
def postStreamMaxParts : Nat := 64

/-- The states of the multipart machine. -/
inductive PostStreamState where
  /-- Before the first boundary. -/
  | preamble
  /-- A boundary and its CRLF have been read. -/
  | afterBoundary
  | partHeader
  | partData
  /-- Behind the closing boundary. -/
  | epilogue
  | error
  /-- A boundary counts only after the two bytes that follow it. -/
  | delimCheck
  deriving DecidableEq, Repr

/-- The callbacks of a handler. `onStart` sees the names of the part in the context. -/
inductive Callback where
  | onStart (fieldName fileName : Option (List UInt8))
  | onChunk (data : List UInt8)
  | onEnd (success : Bool)
  deriving DecidableEq, Repr

/-- A callback, and how much of the body had been consumed when it was made. -/
structure Event where
  pos : Nat
  call : Callback
  deriving DecidableEq, Repr

/-- A handler: given the callbacks so far, does it abort the stream in the last one? -/
abbrev Handler := List Callback → Bool

/-- `post_stream_part`: the record of one part. -/
structure PostStreamPart where
  name : List UInt8
  isFile : Bool
  failed : Bool := false
  truncated : Bool := false
  length : Nat := 0
  capacity : Nat := 0
  data : List UInt8 := []
  deriving DecidableEq, Repr

/-- The receiving side of a stream: the stream context, the records of the parts and the
callbacks made so far. `currentPart` says whether the part pointer is set; it then points
to the head of `parts`. -/
structure PartSink where
  partIsFile : Bool := false
  currentPart : Bool := false
  parts : List PostStreamPart := []
  partsCount : Nat := 0
  fieldsTotal : Nat := 0
  fieldLimitLogged : Bool := false
  started : Bool := false
  discard : Bool
  aborted : Bool := false
  receivedLength : Nat := 0
  fieldName : Option (List UInt8) := none
  fileName : Option (List UInt8) := none
  trace : List Event := []
  deriving DecidableEq, Repr

/-- The streaming state of a socket: the multipart machine and its receiving side. -/
structure PostStream where
  header : HttpRequestHeader
  active : Bool
  delim : List UInt8
  state : PostStreamState
  hold : List UInt8
  delimInData : Bool
  partHeader : List UInt8
  taken : List UInt8
  sink : PartSink
  deriving DecidableEq, Repr

/-- `startPostStream` for a header with the given boundary. The pattern that is searched for
is CRLF and the boundary, which the header parser has stored with its leading dashes. -/
def startPostStream (header : HttpRequestHeader) (boundary : List UInt8) (discard : Bool) :
    PostStream where
  header := header
  active := true
  delim := crlf ++ boundary
  state := .preamble
  hold := []
  delimInData := false
  partHeader := []
  taken := []
  sink := { discard := discard }

/-- The callbacks of a trace. -/
def calls (trace : List Event) : List Callback := trace.map Event.call

/-- Make a callback, with `pos` bytes of the body consumed. The handler may abort in it. -/
def PartSink.callback (H : Handler) (pos : Nat) (k : PartSink) (c : Callback) : PartSink :=
  { k with
    trace := k.trace ++ [⟨pos, c⟩]
    aborted := k.aborted || H (calls k.trace ++ [c]) }

/-- Change the record of the current part. -/
def PartSink.modifyPart (k : PartSink) (f : PostStreamPart → PostStreamPart) : PartSink :=
  { k with parts := k.parts.modifyHead f }

/-- The machine has consumed these bytes. -/
def PostStream.take (s : PostStream) (bytes : List UInt8) : PostStream :=
  { s with taken := s.taken ++ bytes }

/-! ## Passing data on -/

/-- The doubling loop of the field buffer. -/
def growCapacity (need : Nat) : Nat → Nat → Nat
  | 0, neu => neu
  | n + 1, neu => if neu < need then growCapacity need n (neu * 2) else neu

/-- The capacity of a field buffer that has to hold `need` bytes. -/
def fieldCapacity (capacity need : Nat) : Nat :=
  if need > capacity then
    let neu := growCapacity need need (if capacity = 0 then 256 else capacity * 2)
    if neu > postStreamMaxFieldSize + 1 then need else neu
  else capacity

/-- The second half of `emitPartData`: append to the form field `p`, within the limits. -/
def emitField (k : PartSink) (p : PostStreamPart) (data : List UInt8) : PartSink :=
  if p.isFile ∨ p.truncated then k
  else if k.fieldsTotal + data.length > postStreamMaxFieldsTotal ∨
      p.length + data.length > postStreamMaxFieldSize then
    { k.modifyPart (fun p => { p with truncated := true }) with fieldLimitLogged := true }
  else
    { k.modifyPart (fun p => { p with
        data := p.data ++ data
        length := p.length + data.length
        capacity := fieldCapacity p.capacity (p.length + data.length + 1) }) with
      fieldsTotal := k.fieldsTotal + data.length }

/-- `emitPartData`: the data of a file part goes to the handler, unless the request is only
read and discarded; the data of a form field is buffered. -/
def emitPartData (H : Handler) (pos : Nat) (k : PartSink) (data : List UInt8) : PartSink :=
  if data = [] ∨ k.aborted then k
  else if k.partIsFile then
    let k' := { k with receivedLength := k.receivedLength + data.length }
    if k.discard then k' else k'.callback H pos (.onChunk data)
  else if k.currentPart then
    match k.parts with
    | [] => k
    | p :: _ => emitField k p data
  else k

/-- Pass data on to the receiving side. -/
def PostStream.emit (H : Handler) (s : PostStream) (data : List UInt8) : PostStream :=
  { s with sink := emitPartData H s.taken.length s.sink data }

/-- `rebaseHold`: give out the first held byte until the rest starts the pattern again. -/
def rebaseHold (H : Handler) (needle : List UInt8) : Nat → PostStream → PostStream
  | 0, s => s
  | n + 1, s =>
      if s.hold ≠ [] ∧ ¬ s.hold <+: needle then
        rebaseHold H needle n { s.emit H (s.hold.take 1) with hold := s.hold.drop 1 }
      else s

/-! ## Searching for the pattern -/

/-- The fast path of `scanForNeedle`: with nothing held back, everything before the next
possible start of the pattern is data. -/
def scanSkip (H : Handler) (needle : List UInt8) (emit : Bool) (s : PostStream)
    (data : List UInt8) : PostStream × List UInt8 :=
  if s.hold = [] then
    let run := data.takeWhile (fun c => needle.head? ≠ some c)
    (((if emit then s.emit H run else s).take run),
      data.dropWhile (fun c => needle.head? ≠ some c))
  else (s, data)

/-- Fill the hold buffer as long as the bytes continue the pattern. -/
def fillHold (needle : List UInt8) : List UInt8 → List UInt8 → List UInt8 × List UInt8
  | hold, [] => (hold, [])
  | hold, c :: rest =>
      if needle[hold.length]? = some c then fillHold needle (hold ++ [c]) rest
      else (hold, c :: rest)

/-- A mismatch: the first held byte is data after all, and the rest is aligned again. In the
preamble the held bytes are dropped. -/
def scanMismatch (H : Handler) (needle : List UInt8) (emit : Bool) (s : PostStream) :
    PostStream :=
  if emit then
    let s' := { s.emit H (s.hold.take 1) with hold := s.hold.drop 1 }
    rebaseHold H needle s'.hold.length s'
  else { s with hold := [] }

/-- `scanForNeedle`: search the data for the pattern. The result holds the bytes behind the
pattern and `true`, or no bytes and `false`. -/
def scanForNeedle (H : Handler) (needle : List UInt8) (emit : Bool) :
    Nat → PostStream → List UInt8 → PostStream × List UInt8 × Bool
  | 0, s, data => (s, data, false)
  | _ + 1, s, [] => (s, [], false)
  | n + 1, s, c :: data =>
      let (s1, rest) := scanSkip H needle emit s (c :: data)
      if rest = [] then (s1, [], false)
      else
        let (hold, rest') := fillHold needle s1.hold rest
        let s2 := { s1.take (rest.take (rest.length - rest'.length)) with hold := hold }
        if hold.length = needle.length then ({ s2 with hold := [] }, rest', true)
        else if rest' = [] then (s2, [], false)
        else scanForNeedle H needle emit n (scanMismatch H needle emit s2) rest'

/-- The rounds `scanForNeedle` may need. -/
def scanRounds (s : PostStream) (data : List UInt8) : Nat :=
  2 * data.length + s.hold.length + 1

/-! ## Parts -/

/-- The name a new part is kept under, uncut. -/
def PartSink.partName (k : PartSink) : List UInt8 :=
  (if k.partIsFile then k.fileName else k.fieldName).getD []

/-- Open a part with the names that its header gave. -/
def openPart (H : Handler) (pos : Nat) (k : PartSink) (fieldName fileName : Option (List UInt8)) :
    PartSink :=
  let k := { k with
    fieldName := fieldName
    fileName := fileName
    partIsFile := fileName.isSome
    receivedLength := 0 }
  if k.discard then k
  else
    let k := { k with
      fieldLimitLogged := k.fieldLimitLogged || decide (postStreamMaxName < k.partName.length)
      parts := { name := k.partName.take postStreamMaxName, isFile := k.partIsFile } :: k.parts
      currentPart := true
      partsCount := k.partsCount + 1 }
    if k.partIsFile then { k.callback H pos (.onStart k.fieldName k.fileName) with started := true }
    else k

/-- `beginPart`: read the collected part header and open the part. `false` is the code's
`-1`: the header cannot be read and the request is refused. -/
def beginPart (H : Handler) (s : PostStream) : PostStream × Bool :=
  let k := { s.sink with currentPart := false }
  if k.aborted then ({ s with sink := { k with partIsFile := false } }, true)
  else
    let header := (analyseFormDataLine s.partHeader
      { s.header with contentDisposition := none, contentType := none }).1
    if header.error then ({ s with header := header, sink := k }, false)
    else
      let fieldName := extractDispositionValue header.contentDisposition (ascii "name=")
      let fileName := extractDispositionValue header.contentDisposition (ascii "filename=")
      ({ s with header := header, sink := openPart H s.taken.length k fieldName fileName }, true)

/-- `endPart`: close the current part. The result is noted after the callback, in which the
handler may still abort. -/
def endPart (H : Handler) (pos : Nat) (k : PartSink) (success : Bool) : PartSink :=
  let k :=
    if k.partIsFile ∧ k.started then
      { k.callback H pos (.onEnd (!k.aborted && success)) with started := false }
    else k
  let k :=
    if k.currentPart then
      k.modifyPart (fun p =>
        if p.isFile then
          { p with length := k.receivedLength, failed := p.failed || !success || k.aborted }
        else p)
    else k
  { k with currentPart := false, partIsFile := false }

/-- Close the current part of the stream. -/
def PostStream.endPart (H : Handler) (s : PostStream) (success : Bool) : PostStream :=
  { s with sink := Post.endPart H s.taken.length s.sink success }

/-- What `collectPartHeader` reports. -/
inductive Collected where
  | more
  | complete
  | tooLong
  deriving DecidableEq, Repr

/-- The header buffer after one more byte. When the rest of the body is only skipped, a full
buffer keeps its last three bytes. -/
def pushHeaderByte (partHeader : List UInt8) (c : UInt8) : List UInt8 :=
  (if partHeader.length + 1 ≥ postStreamMaxPartHeader then
    partHeader.drop (partHeader.length - 3) else partHeader) ++ [c]

/-- The collected bytes end a part header. -/
def headerComplete (partHeader : List UInt8) : Bool :=
  decide (4 ≤ partHeader.length ∧ partHeader.drop (partHeader.length - 4) = crlf ++ crlf)

/-- `collectPartHeader`: collect bytes up to the empty line. -/
def collectPartHeader : PostStream → List UInt8 → PostStream × List UInt8 × Collected
  | s, [] => (s, [], .more)
  | s, c :: rest =>
      if s.partHeader.length + 1 ≥ postStreamMaxPartHeader ∧ ¬ s.sink.aborted then
        (s, c :: rest, .tooLong)
      else
        let s := { s.take [c] with partHeader := pushHeaderByte s.partHeader c }
        if headerComplete s.partHeader then (s, rest, .complete)
        else collectPartHeader s rest

/-! ## The machine -/

/-- The `AFTER_BOUNDARY` case: apply the part limit and start a part header, which begins
with the CRLF behind the boundary. -/
def afterBoundary (s : PostStream) : PostStream :=
  { s with
    sink := { s.sink with
      aborted := s.sink.aborted || decide (postStreamMaxParts ≤ s.sink.partsCount) }
    partHeader := crlf
    hold := []
    state := .partHeader }

/-- The `DELIM_CHECK` case once two bytes are held. -/
def delimCheck (H : Handler) (s : PostStream) : PostStream :=
  if s.hold = [45, 45] then
    let s := { s with hold := [] }
    { (if s.delimInData then s.endPart H true else s) with state := .epilogue }
  else if s.hold = crlf then
    let s := { s with hold := [] }
    { (if s.delimInData then s.endPart H true else s) with state := .afterBoundary }
  else if s.delimInData then
    let s := s.emit H s.delim
    { rebaseHold H s.delim s.hold.length s with state := .partData }
  else { s with hold := [], state := .preamble }

/-- What one round of the loop of `postStreamFeed` does: go on, or return `-1`. -/
inductive FeedRound where
  | next (s : PostStream) (rest : List UInt8)
  | ret (s : PostStream) (rest : List UInt8)

/-- One round of the loop of `postStreamFeed`, with at least one byte left. -/
def feedRound (H : Handler) (s : PostStream) (data : List UInt8) : FeedRound :=
  match s.state with
  | .preamble =>
      match scanForNeedle H (s.delim.drop 2) false (scanRounds s data) s data with
      | (s', rest, true) => .next { s' with delimInData := false, state := .delimCheck } rest
      | (s', rest, false) => .next s' rest
  | .afterBoundary => .next (afterBoundary s) data
  | .partHeader =>
      match collectPartHeader s data with
      | (s', rest, .tooLong) => .ret { s' with state := .error } rest
      | (s', rest, .more) => .next s' rest
      | (s', rest, .complete) =>
          match beginPart H s' with
          | (s'', false) => .ret { s'' with state := .error } rest
          | (s'', true) => .next { s'' with state := .partData } rest
  | .partData =>
      match scanForNeedle H s.delim true (scanRounds s data) s data with
      | (s', rest, true) => .next { s' with delimInData := true, state := .delimCheck } rest
      | (s', rest, false) => .next s' rest
  | .delimCheck =>
      let n := 2 - s.hold.length
      let s' : PostStream := { s.take (data.take n) with hold := s.hold ++ data.take n }
      if s'.hold.length < 2 then .next s' (data.drop n)
      else .next (delimCheck H s') (data.drop n)
  | .epilogue => .next (s.take data) []
  | .error => .ret s data

/-- The loop of `postStreamFeed`: the machine, the bytes it has not looked at, and whether it
returns early. -/
def feedLoop (H : Handler) :
    Nat → PostStream → List UInt8 → PostStream × List UInt8 × Bool
  | 0, s, data => (s, data, false)
  | _ + 1, s, [] => (s, [], false)
  | n + 1, s, c :: data =>
      match feedRound H s (c :: data) with
      | .ret s' rest => (s', rest, true)
      | .next s' rest => feedLoop H n s' rest

/-- `postStreamFinish`: end a running stream, for example when the client goes away. -/
def postStreamFinish (H : Handler) (s : PostStream) (success : Bool) : PostStream :=
  if s.active ∧ s.sink.started then s.endPart H success else s

/-- The header counts the body bytes in 32 bits. -/
def PostStream.count (s : PostStream) (n : Nat) : PostStream :=
  { s with header := { s.header with
      postBufferPos := s.header.postBufferPos + UInt32.ofNat n } }

/-- The end of `postStreamFeed`, once its data is used up: has the body ended, and did it end
behind its closing boundary? -/
def feedEnd (H : Handler) (s : PostStream) : PostStream × Int :=
  if s.header.postBufferPos.toNat ≥ s.header.contentlenght.toNat then
    if s.state ≠ .epilogue then (postStreamFinish H s false, -1) else (s, 1)
  else (s, 0)

/-- `postStreamFeed`: the machine after the bytes `data`, and the result: `1` when the body
is complete, `0` when more is expected and `-1` for an error. -/
def postStreamFeed (H : Handler) (s : PostStream) (data : List UInt8) : PostStream × Int :=
  if ¬ s.active then (s, -1)
  else
    match feedLoop H (2 * data.length + 1) (s.count data.length) data with
    | (s', _, true) => (s', -1)
    | (s', _, false) => feedEnd H s'

end CWebUI.Post
