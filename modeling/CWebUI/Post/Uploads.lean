import CWebUI.Post.Protocol

set_option autoImplicit false

/-! # The uploads that a stream reports

After the body, `postStreamFillUploadInfo` turns the records of the parts into the list that
`getFileName` and `getFileSize` read. The record of a part is written when the part begins and
again when it ends, through a pointer that is not always set. This file proves that what is
reported is what the callbacks tell: the file parts that ended with success and that the handler
did not turn down in its last callback.
-/

namespace CWebUI.Post

open ByteString CWebUI.Http ListLemmas

/-! ## The report -/

/-- `upload_file_info`. The data of a streamed file is not there any more. -/
structure UploadFileInfo where
  data : Option (List UInt8)
  name : List UInt8
  length : Nat
  deriving DecidableEq, Repr

/-- The flag `keep` of `postStreamFillUploadInfo`. -/
def keepPart (discard : Bool) (part : PostStreamPart) : Bool :=
  let keep := part.isFile
  let keep := keep && !(discard || (part.isFile && part.failed))
  keep && !part.truncated

/-- What is taken over from the record of a part. The buffer of a field is allocated with its
first byte. -/
def uploadInfo (part : PostStreamPart) : UploadFileInfo where
  data := if part.capacity = 0 then none else some part.data
  name := part.name
  length := part.length

/-- `postStreamFillUploadInfo`: the stream, and what is appended to the uploads of the request. The
records have been put in front of each other, so they are turned round. -/
def postStreamFillUploadInfo (s : PostStream) : PostStream × List UploadFileInfo :=
  if ¬ s.active then (s, [])
  else
    ({ s with sink := { s.sink with parts := [], currentPart := false, partsCount := 0 } },
      (s.sink.parts.reverse.filter (keepPart s.sink.discard)).map uploadInfo)

/-! ## What should be reported -/

/-- The entry of a file part, by its callbacks. -/
def PartCalls.upload (p : PartCalls) : UploadFileInfo where
  data := none
  name := (p.fileName.getD []).take postStreamMaxName
  length := p.chunks.flatten.length

/-- The entries of the parts whose `on_end` said success and that the handler did not abort in
it; `before` are the callbacks before these parts. -/
def successful (H : Handler) : List Callback → List PartCalls → List UploadFileInfo
  | _, [] => []
  | before, p :: ps =>
      (if p.success ∧ H (before ++ p.calls) = false then [p.upload] else []) ++
        successful H (before ++ p.calls) ps

@[simp] theorem partsCalls_nil : partsCalls [] = [] := rfl

@[simp] theorem partsCalls_cons (p : PartCalls) (ps : List PartCalls) :
    partsCalls (p :: ps) = p.calls ++ partsCalls ps := rfl

theorem partsCalls_append (ps qs : List PartCalls) :
    partsCalls (ps ++ qs) = partsCalls ps ++ partsCalls qs := by
  unfold partsCalls
  rw [List.map_append, List.flatten_append]

theorem successful_append (H : Handler) (before : List Callback) (ps qs : List PartCalls) :
    successful H before (ps ++ qs) =
      successful H before ps ++ successful H (before ++ partsCalls ps) qs := by
  induction ps generalizing before with
  | nil => simp [successful]
  | cons p ps ih =>
      rw [List.cons_append, successful, successful, ih, partsCalls_cons, List.append_assoc,
        List.append_assoc]

theorem successful_snoc (H : Handler) (ps : List PartCalls) (p : PartCalls) :
    successful H [] (ps ++ [p]) = successful H [] ps ++
      if p.success ∧ H (partsCalls (ps ++ [p])) = false then [p.upload] else [] := by
  have hcalls : [] ++ partsCalls ps ++ p.calls = partsCalls (ps ++ [p]) := by
    rw [partsCalls_append, partsCalls_cons, partsCalls_nil, List.append_nil, List.nil_append]
  rw [successful_append, successful, successful, hcalls, List.append_nil]

/-! ## Records -/

/-- The entries of the records of finished parts. -/
def finished (parts : List PostStreamPart) : List UploadFileInfo :=
  (parts.reverse.filter (keepPart false)).map uploadInfo

theorem finished_cons (part : PostStreamPart) (parts : List PostStreamPart) :
    finished (part :: parts) =
      finished parts ++ if keepPart false part then [uploadInfo part] else [] := by
  unfold finished
  rw [List.reverse_cons, List.filter_append, List.map_append]
  by_cases h : keepPart false part = true
  · simp [h]
  · simp [h]

theorem finished_cons_field {part : PostStreamPart} (h : part.isFile = false)
    (parts : List PostStreamPart) : finished (part :: parts) = finished parts := by
  have hkeep : keepPart false part = false := by simp [keepPart, h]
  rw [finished_cons, hkeep]
  exact List.append_nil _

/-- The record of a file part while it is open. -/
def openRecord (fileName : Option (List UInt8)) : PostStreamPart where
  name := (fileName.getD []).take postStreamMaxName
  isFile := true

/-- What the records say, against the callbacks of parts of which `first` are the first. An open
file part has its record at the head of the list, untouched since its `on_start`. -/
structure UploadInv (H : Handler) (first : List PartCalls) (k : PartSink) : Prop where
  isOpen : k.started = true → ∃ ps fieldName fileName chunks rest, first <+: ps ∧
    calls k.trace = partsCalls ps ++ .onStart fieldName fileName :: List.map .onChunk chunks ∧
    k.currentPart = true ∧ k.parts = openRecord fileName :: rest ∧
    k.receivedLength = chunks.flatten.length ∧ finished rest = successful H [] ps
  closed : k.started = false → ∃ ps, first <+: ps ∧
    calls k.trace = partsCalls ps ∧ finished k.parts = successful H [] ps
  field : k.started = false → k.currentPart = true →
    ∃ p rest, k.parts = p :: rest ∧ p.isFile = false
  discarded : k.discard = true → k.parts = [] ∧ k.currentPart = false

/-! ## Passing data on -/

/-- What `emitPartData` can do: nothing, count bytes that nobody gets, pass a chunk on, or append
to the field that is open. -/
theorem emitPartData_cases (H : Handler) (pos : Nat) (k : PartSink) (data : List UInt8) :
    emitPartData H pos k data = k ∨
    (k.partIsFile = true ∧ k.discard = true ∧
      emitPartData H pos k data = { k with receivedLength := k.receivedLength + data.length }) ∨
    (k.partIsFile = true ∧ k.discard = false ∧
      emitPartData H pos k data =
        { k with receivedLength := k.receivedLength + data.length }.callback H pos
          (.onChunk data)) ∨
    (k.partIsFile = false ∧ ∃ p rest, k.parts = p :: rest ∧ p.isFile = false ∧
      ∃ p', p'.isFile = false ∧ ∃ total logged, emitPartData H pos k data =
        { k with parts := p' :: rest, fieldsTotal := total, fieldLimitLogged := logged }) := by
  unfold emitPartData
  by_cases hskip : data = [] ∨ k.aborted = true
  · rw [if_pos hskip]
    exact Or.inl rfl
  · rw [if_neg hskip]
    by_cases hfile : k.partIsFile = true
    · rw [if_pos hfile]
      by_cases hdiscard : k.discard = true
      · exact Or.inr (Or.inl ⟨hfile, hdiscard, if_pos hdiscard⟩)
      · exact Or.inr (Or.inr (Or.inl ⟨hfile, by simpa using hdiscard, if_neg hdiscard⟩))
    · rw [if_neg hfile]
      have hfield : k.partIsFile = false := by simpa using hfile
      by_cases hcurrent : k.currentPart = true
      · rw [if_pos hcurrent]
        cases hparts : k.parts with
        | nil => exact Or.inl rfl
        | cons p rest =>
            dsimp only
            unfold emitField PartSink.modifyPart
            by_cases hpass : p.isFile = true ∨ p.truncated = true
            · rw [if_pos hpass]
              exact Or.inl rfl
            · have hp : p.isFile = false := by
                by_contra hp
                exact hpass (Or.inl (by simpa using hp))
              rw [if_neg hpass, hparts]
              refine Or.inr (Or.inr (Or.inr ⟨hfield, p, rest, rfl, hp, ?_⟩))
              by_cases hlimit : k.fieldsTotal + data.length > postStreamMaxFieldsTotal ∨
                  p.length + data.length > postStreamMaxFieldSize
              · rw [if_pos hlimit]
                exact ⟨{ p with truncated := true }, hp, _, _, rfl⟩
              · rw [if_neg hlimit]
                exact ⟨{ p with
                  data := p.data ++ data
                  length := p.length + data.length
                  capacity := fieldCapacity p.capacity (p.length + data.length + 1) }, hp, _, _, rfl⟩
      · rw [if_neg hcurrent]
        exact Or.inl rfl

theorem UploadInv.emit {H : Handler} {first : List PartCalls} {delim body : List UInt8} {k : PartSink} (h : UploadInv H first k)
    (hsink : SinkInv H delim body k) (pos : Nat) (data : List UInt8) :
    UploadInv H first (emitPartData H pos k data) := by
  rcases emitPartData_cases H pos k data with heq | ⟨_, hdiscard, heq⟩ | ⟨hfile, hdiscard, heq⟩ |
    ⟨hfield, p, rest, hparts, hp, p', hp', total, logged, heq⟩
  · rw [heq]
    exact h
  · rw [heq]
    have hstarted := (hsink.quiet hdiscard).2
    refine ⟨fun hs => ?_, h.closed, h.field, h.discarded⟩
    exact absurd (hstarted.symm.trans hs) (by decide)
  · rw [heq]
    have hstarted := hsink.started hfile hdiscard
    obtain ⟨ps, fieldName, fileName, chunks, rest, hfirst, htrace, hcurrent, hparts, hlength, hrest⟩ :=
      h.isOpen hstarted
    refine ⟨?_, ?_, ?_, ?_⟩
    · intro _
      refine ⟨ps, fieldName, fileName, chunks ++ [data], rest, hfirst, ?_, hcurrent, hparts, ?_, hrest⟩
      · simp [PartSink.callback, htrace]
      · show k.receivedLength + data.length = _
        rw [hlength, List.flatten_append, List.length_append]
        simp
    · intro hs
      exact absurd (hstarted.symm.trans hs) (by decide)
    · intro hs
      exact absurd (hstarted.symm.trans hs) (by decide)
    · intro hd
      exact absurd (hdiscard.symm.trans hd) (by decide)
  · rw [heq]
    have hstarted : k.started = false := by
      by_contra hs
      exact absurd (hfield.symm.trans (hsink.file (by simpa using hs))) (by decide)
    refine ⟨?_, ?_, ?_, ?_⟩
    · intro hs
      exact absurd (hstarted.symm.trans hs) (by decide)
    · intro hs
      obtain ⟨ps, hfirst, htrace, hfinished⟩ := h.closed hs
      refine ⟨ps, hfirst, htrace, ?_⟩
      show finished (p' :: rest) = _
      rw [← hfinished, hparts, finished_cons_field hp, finished_cons_field hp']
    · intro _ _
      exact ⟨p', rest, rfl, hp'⟩
    · intro hd
      have hnil := (h.discarded hd).1
      rw [hparts] at hnil
      cases hnil

theorem UploadInv.emitEach {H : Handler} {first : List PartCalls} {delim body : List UInt8} (pos : Nat)
    (bytes : List UInt8) {k : PartSink} (h : UploadInv H first k) (hsink : SinkInv H delim body k) :
    UploadInv H first (bytes.foldl (fun k b => emitPartData H pos k [b]) k) := by
  induction bytes generalizing k with
  | nil => exact h
  | cons b bytes ih => exact ih (h.emit hsink pos [b]) (hsink.emit pos [b]).1

/-! ## Opening and closing a part -/

/-- Before a part is opened no part is. -/
theorem UploadInv.detach {H : Handler} {first : List PartCalls} {k : PartSink} (h : UploadInv H first k) (hs : k.started = false)
    (isFile aborted : Bool) :
    UploadInv H first { k with currentPart := false, partIsFile := isFile, aborted := aborted } := by
  refine ⟨fun hs' => ?_, fun _ => h.closed hs, fun _ hc => ?_, fun hd => ⟨(h.discarded hd).1, rfl⟩⟩
  · exact absurd (hs.symm.trans hs') (by decide)
  · cases hc

theorem UploadInv.openPart {H : Handler} {first : List PartCalls} {k : PartSink} (h : UploadInv H first k)
    (hs : k.started = false) (hcurrent : k.currentPart = false) (pos : Nat)
    (fieldName fileName : Option (List UInt8)) :
    UploadInv H first (openPart H pos k fieldName fileName) := by
  obtain ⟨ps, hfirst, htrace, hfinished⟩ := h.closed hs
  unfold Post.openPart
  dsimp only
  by_cases hdiscard : k.discard = true
  · rw [if_pos hdiscard]
    refine ⟨fun hs' => ?_, fun _ => ⟨ps, hfirst, htrace, hfinished⟩, fun _ hc => ?_, h.discarded⟩
    · exact absurd (hs.symm.trans hs') (by decide)
    · exact absurd (hcurrent.symm.trans hc) (by decide)
  · rw [if_neg hdiscard]
    by_cases hfile : fileName.isSome = true
    · rw [if_pos hfile]
      refine ⟨fun _ => ?_, fun hs' => ?_, fun hs' => ?_, fun hd => absurd hd hdiscard⟩
      · refine ⟨ps, fieldName, fileName, [], k.parts, hfirst, ?_, rfl, ?_, rfl, hfinished⟩
        · show calls (k.trace ++ [_]) = _
          rw [calls_snoc, htrace]
          rfl
        · show _ :: k.parts = _
          simp [PartSink.partName, openRecord, hfile]
      · cases hs'
      · cases hs'
    · rw [if_neg hfile]
      have hfield : fileName.isSome = false := by simpa using hfile
      refine ⟨fun hs' => ?_, fun _ => ⟨ps, hfirst, htrace, ?_⟩, fun _ _ => ⟨_, k.parts, rfl, hfield⟩,
        fun hd => absurd hd hdiscard⟩
      · exact absurd (hs.symm.trans hs') (by decide)
      · show finished (_ :: k.parts) = _
        rw [finished_cons_field hfield, hfinished]

/-- The record of a file part after its end. -/
def closedRecord (fileName : Option (List UInt8)) (length : Nat) (failed : Bool) : PostStreamPart :=
  { openRecord fileName with length := length, failed := failed }

theorem endPart_open (H : Handler) (pos : Nat) {k : PartSink} {fileName : Option (List UInt8)}
    {rest : List PostStreamPart} (hfile : k.partIsFile = true) (hs : k.started = true)
    (hcurrent : k.currentPart = true) (hparts : k.parts = openRecord fileName :: rest)
    (success : Bool) :
    let ok := !k.aborted && success
    let aborted := k.aborted || H (calls k.trace ++ [.onEnd ok])
    endPart H pos k success = { k with
      trace := k.trace ++ [⟨pos, .onEnd ok⟩]
      aborted := aborted
      parts := closedRecord fileName k.receivedLength (!success || aborted) :: rest
      started := false
      currentPart := false
      partIsFile := false } := by
  intro ok aborted
  unfold endPart
  simp [hfile, hs, hcurrent, hparts, PartSink.callback, PartSink.modifyPart, openRecord,
    closedRecord, ok, aborted]

/-- The flags of a record are what the last callback said and what the handler did in it. -/
theorem finished_closedRecord (H : Handler) (before : List Callback) (p : PartCalls)
    (aborted success : Bool) (rest : List PostStreamPart) (hok : p.success = (!aborted && success)) :
    finished (closedRecord p.fileName p.chunks.flatten.length
      (!success || (aborted || H before)) :: rest) =
      finished rest ++ if p.success ∧ H before = false then [p.upload] else [] := by
  rw [finished_cons, hok]
  congr 1
  cases aborted <;> cases success <;> cases H before <;>
    simp [keepPart, closedRecord, openRecord, uploadInfo, PartCalls.upload]

/-- **The end of a part** adds its entry to the finished ones, or not. -/
theorem UploadInv.endPart {H : Handler} {first : List PartCalls} {delim body : List UInt8} {k : PartSink}
    (h : UploadInv H first k) (hsink : SinkInv H delim body k) (pos : Nat) (success : Bool) :
    UploadInv H first (endPart H pos k success) := by
  by_cases hs : k.started = true
  · obtain ⟨ps, fieldName, fileName, chunks, rest, hfirst, htrace, hcurrent, hparts, hlength, hrest⟩ :=
      h.isOpen hs
    -- the part that ends here
    let p : PartCalls := ⟨fieldName, fileName, chunks, !k.aborted && success⟩
    have hcalls : calls k.trace ++ [.onEnd (!k.aborted && success)] = partsCalls (ps ++ [p]) := by
      rw [htrace, partsCalls_append]
      simp [PartCalls.calls, p]
    rw [endPart_open H pos (hsink.file hs) hs hcurrent hparts success, hcalls, hlength]
    refine ⟨fun hs' => ?_, fun _ => ⟨ps ++ [p], hfirst.trans (List.prefix_append _ _), ?_, ?_⟩, fun _ hc => ?_, fun hd => ?_⟩
    · cases hs'
    · show calls (k.trace ++ [_]) = _
      rw [calls_snoc, hcalls]
    · rw [successful_snoc, ← hrest]
      exact finished_closedRecord H _ p k.aborted success rest rfl
    · cases hc
    · exact absurd ((hsink.quiet hd).2.symm.trans hs) (by decide)
  · have hstarted : k.started = false := by simpa using hs
    -- no file part is open: at most there is a field, and its record stays as it is
    have heq : (Post.endPart H pos k success) = { k with currentPart := false, partIsFile := false } := by
      unfold Post.endPart
      simp only [hstarted, Bool.false_eq_true, and_false, if_false]
      by_cases hcurrent : k.currentPart = true
      · obtain ⟨p, rest, hparts, hp⟩ := h.field hstarted hcurrent
        rw [if_pos hcurrent]
        simp [PartSink.modifyPart, hparts, hp, hstarted]
      · rw [if_neg hcurrent]
        simp [hstarted]
    rw [heq]
    exact h.detach hstarted false k.aborted

/-! ## Runs -/

/-- **Every move keeps what the records say.** -/
theorem Step.uploads {H : Handler} {first : List PartCalls} {c c' : Config} (hstep : Step H c c') (hinv : Inv H c.1)
    (h : UploadInv H first c.1.sink) : UploadInv H first c'.1.sink := by
  cases hstep with
  | @emitRun s run rest hs hh hr => exact h.emit hinv.sink s.taken.length run
  | @dataMismatch s b c t rest hs hh hc =>
      exact h.emitEach s.taken.length (b :: (rebase s.delim t).1) hinv.sink
  | @delimSecond s x c rest hs hh =>
      have hend := h.endPart hinv.sink (s.pushHold [c]).taken.length true
      rcases delimCheck_cases H (s.pushHold [c]) with ⟨-, heq⟩ | ⟨-, heq⟩ | ⟨-, -, -, heq⟩ |
        ⟨-, -, -, heq⟩
      · rw [heq]
        dsimp only
        split_ifs
        · exact hend
        · exact h
      · rw [heq]
        dsimp only
        split_ifs
        · exact hend
        · exact h
      · rw [heq]
        have hemit := h.emit hinv.sink (s.pushHold [c]).taken.length s.delim
        have hsink := (hinv.sink.emit (s.pushHold [c]).taken.length s.delim).1
        exact hemit.emitEach _ _ hsink
      · rw [heq]
        exact h
  | @afterBoundary s c rest hs =>
      have hst : s.sink.started = false :=
        hinv.started_false (by rw [hs]; decide) (fun h => absurd (hs.symm.trans h) (by decide))
      refine ⟨fun hs' => absurd (hst.symm.trans hs') (by decide), h.closed, h.field, h.discarded⟩
  | @headerDone s c rest hs hroom hdone =>
      have hst : s.sink.started = false :=
        hinv.started_false (by rw [hs]; decide) (fun h => absurd (hs.symm.trans h) (by decide))
      rcases beginPart_cases H (s.pushHeader c) with ⟨-, heq⟩ | ⟨-, -, heq⟩ | ⟨-, -, heq⟩
      · rw [heq]
        exact h.detach hst false s.sink.aborted
      · rw [heq]
        exact h.detach hst s.sink.partIsFile s.sink.aborted
      · rw [heq]
        exact (h.detach hst s.sink.partIsFile s.sink.aborted).openPart hst rfl _ _ _
  | skip => exact h
  | push => exact h
  | found => exact h
  | preambleMismatch => exact h
  | delimFirst => exact h
  | header => exact h
  | headerTooLong => exact h
  | epilogue => exact h

theorem Steps.uploads {H : Handler} {first : List PartCalls} {c c' : Config} (hsteps : Steps H c c') (hinv : Inv H c.1)
    (h : UploadInv H first c.1.sink) : UploadInv H first c'.1.sink := by
  induction hsteps with
  | refl => exact h
  | tail hsteps hstep ih => exact hstep.uploads (Steps.inv hsteps hinv) ih

theorem postStreamFinish_uploads {H : Handler} {first : List PartCalls} {s : PostStream} (hinv : Inv H s)
    (h : UploadInv H first s.sink) : UploadInv H first (postStreamFinish H s false).sink := by
  unfold postStreamFinish
  split_ifs
  · exact h.endPart hinv.sink s.taken.length false
  · exact h

theorem postStreamFeed_uploads {H : Handler} {first : List PartCalls} {s : PostStream} (hinv : Inv H s)
    (hactive : s.active = true) (h : UploadInv H first s.sink) (data : List UInt8) :
    UploadInv H first (postStreamFeed H s data).1.sink := by
  obtain ⟨s', rest, hsteps, hend⟩ := postStreamFeed_steps H s data hinv.wf hactive
  have hinv' : Inv H s' := Steps.inv hsteps (hinv.withHeader _)
  have h' : UploadInv H first s'.sink := hsteps.uploads (hinv.withHeader _) h
  rcases hend with ⟨-, heq⟩ | ⟨-, -, heq⟩
  · rw [heq]
    exact h'
  · rw [heq]
    unfold feedEnd
    split_ifs
    · exact postStreamFinish_uploads hinv' h'
    · exact h'
    · exact h'

theorem runActions_uploads {H : Handler} {first : List PartCalls} {delim body : List UInt8}
    {discard : Bool} {s : PostStream} (hs : StreamInv H delim body discard s)
    (h : UploadInv H first s.sink) (acts : List StreamAction) :
    UploadInv H first (runActions H s acts).sink := by
  induction acts generalizing s body with
  | nil => exact h
  | cons a acts ih =>
      cases a with
      | feed data => exact ih (hs.feed data) (postStreamFeed_uploads hs.inv hs.active h data)
      | disconnect => exact ih hs.finish (postStreamFinish_uploads hs.inv h)

theorem startPostStream_uploads (H : Handler) (header : HttpRequestHeader) (boundary : List UInt8)
    (discard : Bool) : UploadInv H [] (startPostStream header boundary discard).sink := by
  refine ⟨fun hs => ?_, fun _ => ⟨[], List.nil_prefix, rfl, rfl⟩, fun _ hc => ?_, fun _ => ⟨rfl, rfl⟩⟩
  · cases hs
  · cases hc

/-! ## Parts that have ended -/

/-- The records of the parts that have ended. -/
def PartSink.endedParts (k : PartSink) : List PostStreamPart :=
  if k.started then k.parts.tail else k.parts

/-- From here on the parts that have ended are the first ones. -/
theorem UploadInv.fix {H : Handler} {first : List PartCalls} {k : PartSink}
    (h : UploadInv H first k) :
    ∃ ps, UploadInv H ps k ∧ finished k.endedParts = successful H [] ps := by
  unfold PartSink.endedParts
  by_cases hs : k.started = true
  · obtain ⟨ps, fieldName, fileName, chunks, rest, -, htrace, hcurrent, hparts, hlength, hrest⟩ :=
      h.isOpen hs
    refine ⟨ps, ⟨?_, ?_, h.field, h.discarded⟩, ?_⟩
    · intro _
      exact ⟨ps, fieldName, fileName, chunks, rest, List.prefix_rfl, htrace, hcurrent, hparts,
        hlength, hrest⟩
    · intro hs'
      exact absurd (hs.symm.trans hs') (by decide)
    · rw [if_pos hs, hparts]
      exact hrest
  · have hstarted : k.started = false := by simpa using hs
    obtain ⟨ps, -, htrace, hfinished⟩ := h.closed hstarted
    refine ⟨ps, ⟨?_, ?_, h.field, h.discarded⟩, ?_⟩
    · intro hs'
      exact absurd hs' hs
    · intro _
      exact ⟨ps, List.prefix_rfl, htrace, hfinished⟩
    · rw [if_neg hs]
      exact hfinished

theorem successful_prefix (H : Handler) {ps qs : List PartCalls} (h : ps <+: qs) :
    successful H [] ps <+: successful H [] qs := by
  obtain ⟨rest, rfl⟩ := h
  rw [successful_append]
  exact List.prefix_append _ _

/-- When the body has ended, well or not, no part is open. -/
theorem postStreamFeed_closed {H : Handler} {s : PostStream} (hinv : Inv H s)
    (hactive : s.active = true) {data : List UInt8} (h : (postStreamFeed H s data).2 ≠ 0) :
    (postStreamFeed H s data).1.sink.started = false := by
  obtain ⟨s', rest, hsteps, hend⟩ := postStreamFeed_steps H s data hinv.wf hactive
  have hinv' : Inv H s' := Steps.inv hsteps (hinv.withHeader _)
  have hactive' : s'.active = true := hsteps.taken.2.2.trans hactive
  rcases hend with ⟨herror, heq⟩ | ⟨-, -, heq⟩
  · rw [heq]
    exact hinv'.started_false (by rw [herror]; decide)
      (fun hc => absurd (herror.symm.trans hc) (by decide))
  · rw [heq] at h ⊢
    unfold feedEnd at h ⊢
    split_ifs at h ⊢ with hall hstate
    · exact (postStreamFinish_inv hinv' hactive').2
    · have hepilogue : s'.state = .epilogue := by
        by_contra hne
        exact hstate hne
      exact hinv'.started_false (by rw [hepilogue]; decide)
        (fun hc => absurd (hepilogue.symm.trans hc) (by decide))
    · exact absurd rfl h

/-- What is appended for a stream with no open part. -/
theorem postStreamFillUploadInfo_eq {H : Handler} {first : List PartCalls} {s : PostStream}
    (hactive : s.active = true) (h : UploadInv H first s.sink) :
    (postStreamFillUploadInfo s).2 = finished s.sink.parts := by
  unfold postStreamFillUploadInfo finished
  rw [if_neg (by simp [hactive])]
  by_cases hd : s.sink.discard = true
  · rw [(h.discarded hd).1]
    rfl
  · have hdiscard : s.sink.discard = false := by simpa using hd
    rw [hdiscard]

/-- **Reported uploads are the successful ones.** For every body and every cutting of it, every
handler and every disconnect on the way: when the body has ended, the callbacks are those of a
list of complete file parts, and what is reported are the entries of those that ended with success
and without an abort, in their order. Of a discarded body nothing is reported. The entries of the
parts that had ended at any earlier time are the first ones of the report. -/
theorem reported_uploads_are_successful (H : Handler) (header : HttpRequestHeader)
    (b : List UInt8) (discard : Bool) (acts later : List StreamAction) (data : List UInt8) :
    let s₀ := runActions H (startPostStream header (ascii "--" ++ b) discard) acts
    let s := runActions H s₀ later
    let s' := (postStreamFeed H s data).1
    (postStreamFeed H s data).2 ≠ 0 →
      (∃ ps, calls s'.sink.trace = partsCalls ps ∧
        (postStreamFillUploadInfo s').2 = successful H [] ps) ∧
      (discard = true → (postStreamFillUploadInfo s').2 = []) ∧
      finished s₀.sink.endedParts <+: (postStreamFillUploadInfo s').2 := by
  intro s₀ s s' hend
  have hs₀ := runActions_inv H header (ascii "--" ++ b) discard (by simp [ascii]) acts
  have hs : ∃ body, StreamInv H (crlf ++ (ascii "--" ++ b)) body discard s := by
    have hrun : s = runActions H (startPostStream header (ascii "--" ++ b) discard)
        (acts ++ later) := by
      unfold s s₀ runActions
      rw [List.foldl_append]
    rw [hrun]
    exact ⟨_, runActions_inv H header (ascii "--" ++ b) discard (by simp [ascii]) (acts ++ later)⟩
  obtain ⟨body, hs⟩ := hs
  -- the parts that had ended at the earlier time stay the first ones
  have hstart := startPostStream_inv H header (ascii "--" ++ b) discard (by simp [ascii])
  obtain ⟨first, hfix, hfirst⟩ := (runActions_uploads (s := startPostStream header (ascii "--" ++ b)
    discard) ⟨hstart, rfl, rfl, rfl, List.prefix_rfl, fun _ => rfl⟩
    (startPostStream_uploads H header (ascii "--" ++ b) discard) acts).fix
  have hinv : UploadInv H first s'.sink :=
    postStreamFeed_uploads hs.inv hs.active (runActions_uploads hs₀ hfix later) data
  have hactive : s'.active = true := (hs.feed data).active
  have hclosed : s'.sink.started = false := postStreamFeed_closed hs.inv hs.active hend
  obtain ⟨ps, hprefix, htrace, hfinished⟩ := hinv.closed hclosed
  rw [postStreamFillUploadInfo_eq hactive hinv]
  refine ⟨⟨ps, htrace, hfinished⟩, ?_, ?_⟩
  · intro hd
    rw [(hinv.discarded ((hs.feed data).discard.trans hd)).1]
    rfl
  · rw [hfinished]
    exact hfirst ▸ successful_prefix H hprefix

/-- A body with one file, in one read, and a handler that takes it. -/
theorem reported_uploads_are_successful_file :
    let body := ascii
      "--B\r\nContent-Disposition: form-data; name=\"a\"; filename=\"f\"\r\n\r\nhi\r\n--B--"
    let s := (postStreamFeed (fun _ => false)
      (startPostStream { contentlenght := 72 } (ascii "--B") false) body).1
    (postStreamFillUploadInfo s).2 = [⟨none, ascii "f", 2⟩] ∧
      ∃ ps, calls s.sink.trace = partsCalls ps ∧
        (postStreamFillUploadInfo s).2 = successful (fun _ => false) [] ps := by
  refine ⟨by decide +kernel, ?_⟩
  exact (reported_uploads_are_successful (fun _ => false) { contentlenght := 72 } (ascii "B") false
    [] [] _ (by decide +kernel)).1

end CWebUI.Post
