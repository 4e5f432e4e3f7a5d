import Mathlib.Data.List.Induction
import CWebUI.Post.Steps

set_option autoImplicit false

/-! # The callback protocol of a stream

A handler relies on the order of its callbacks: for each file one `on_start`, then the
data, then one `on_end`. This file proves that the order is kept whatever the body is and
however it is cut, whatever the handler does, and whenever the client goes away.

`SinkInv` is what the receiving side keeps; it is preserved by passing data on, by opening
and by closing a part. `Inv` adds where the machine stands in the body, so that a successful
`on_end` can be traced back to a delimiter.
-/

namespace CWebUI.Post

open ByteString CWebUI.Http ListLemmas

/-! ## The shape of a trace -/

/-- The callbacks of one complete file part. -/
structure PartCalls where
  fieldName : Option (List UInt8)
  fileName : Option (List UInt8)
  chunks : List (List UInt8)
  success : Bool

/-- `on_start`, any number of `on_chunk`, `on_end`. -/
def PartCalls.calls (p : PartCalls) : List Callback :=
  .onStart p.fieldName p.fileName :: p.chunks.map .onChunk ++ [.onEnd p.success]

/-- The callbacks of a sequence of complete file parts. -/
def partsCalls (ps : List PartCalls) : List Callback := (ps.map PartCalls.calls).flatten

/-- The callbacks are those of complete parts, followed, if a part is open, by its `on_start`
and its data so far. -/
def TraceForm (isOpen : Bool) (l : List Callback) : Prop :=
  if isOpen then ∃ ps fieldName fileName chunks,
    l = partsCalls ps ++ .onStart fieldName fileName :: List.map Callback.onChunk chunks
  else ∃ ps, l = partsCalls ps

theorem TraceForm.start {l : List Callback} (h : TraceForm false l)
    (fieldName fileName : Option (List UInt8)) :
    TraceForm true (l ++ [.onStart fieldName fileName]) := by
  obtain ⟨ps, rfl⟩ := h
  exact ⟨ps, fieldName, fileName, [], rfl⟩

theorem TraceForm.chunk {l : List Callback} (h : TraceForm true l) (data : List UInt8) :
    TraceForm true (l ++ [.onChunk data]) := by
  obtain ⟨ps, fieldName, fileName, chunks, rfl⟩ := h
  exact ⟨ps, fieldName, fileName, chunks ++ [data], by simp⟩

theorem TraceForm.finish {l : List Callback} (h : TraceForm true l) (success : Bool) :
    TraceForm false (l ++ [.onEnd success]) := by
  obtain ⟨ps, fieldName, fileName, chunks, rfl⟩ := h
  exact ⟨ps ++ [⟨fieldName, fileName, chunks, success⟩], by
    simp [partsCalls, PartCalls.calls]⟩

/-- The position of the last `on_start` of a trace. -/
def lastStart (trace : List Event) : Nat :=
  trace.foldl (fun m e => match e.call with
    | .onStart _ _ => e.pos
    | _ => m) 0

/-- The callbacks a handler must not get after it has aborted. -/
def Callback.NeedsConsent : Callback → Prop
  | .onStart _ _ => True
  | .onChunk _ => True
  | .onEnd success => success = true

/-- The handler has not aborted in any of these callbacks. -/
def NoAbort (H : Handler) (l : List Callback) : Prop := ∀ p, p ≠ [] → p <+: l → H p = false

theorem noAbort_snoc {H : Handler} {l : List Callback} {c : Callback} (h : NoAbort H l)
    (hc : H (l ++ [c]) = false) : NoAbort H (l ++ [c]) := by
  intro p hne hp
  rcases List.prefix_concat_iff.mp hp with rfl | hp'
  · exact hc
  · exact h p hne hp'

/-- The part that began at `m` was ended at `n` by a delimiter: the last bytes before `n` are
the pattern and the CRLF or the dashes that make it a delimiter, all behind `m`. -/
def Terminated (delim body : List UInt8) (m n : Nat) : Prop :=
  n ≤ body.length ∧ m + delim.length + 2 ≤ n ∧
    (delim ++ crlf <:+ body.take n ∨ delim ++ [45, 45] <:+ body.take n)

theorem Terminated.mono {delim body body' : List UInt8} {m n : Nat}
    (h : Terminated delim body m n) (hb : body <+: body') : Terminated delim body' m n := by
  obtain ⟨t, rfl⟩ := hb
  obtain ⟨h1, h2, h3⟩ := h
  refine ⟨by simp; omega, h2, ?_⟩
  rwa [List.take_append_of_le_length h1]

/-! ## The receiving side -/

/-- What the receiving side keeps, with `body` the part of the body consumed so far. -/
structure SinkInv (H : Handler) (delim body : List UInt8) (k : PartSink) : Prop where
  form : TraceForm k.started (calls k.trace)
  file : k.started = true → k.partIsFile = true
  started : k.partIsFile = true → k.discard = false → k.started = true
  quiet : k.discard = true → k.trace = [] ∧ k.started = false
  consent : k.aborted = false → NoAbort H (calls k.trace)
  order : Along (fun t e => e.NeedsConsent → NoAbort H t) (calls k.trace)
  ends : Along (fun t e => e.call = .onEnd true → Terminated delim body (lastStart t) e.pos) k.trace

theorem SinkInv.mono {H : Handler} {delim body body' : List UInt8} {k : PartSink}
    (h : SinkInv H delim body k) (hb : body <+: body') : SinkInv H delim body' k where
  form := h.form
  file := h.file
  started := h.started
  quiet := h.quiet
  consent := h.consent
  order := h.order
  ends := h.ends.mono (fun _ _ hx he => (hx he).mono hb)

@[simp] theorem calls_snoc (trace : List Event) (e : Event) :
    calls (trace ++ [e]) = calls trace ++ [e.call] := by
  simp [calls]

@[simp] theorem lastStart_snoc (trace : List Event) (e : Event) :
    lastStart (trace ++ [e]) = match e.call with
      | .onStart _ _ => e.pos
      | _ => lastStart trace := by
  simp only [lastStart, List.foldl_append]
  rfl

/-- The receiving side without the fields that `emitPartData` may change. -/
def PartSink.frame (k : PartSink) : PartSink :=
  { k with
    parts := []
    fieldsTotal := 0
    fieldLimitLogged := false
    trace := []
    aborted := false
    receivedLength := 0 }

theorem frame_emitPartData (H : Handler) (pos : Nat) (k : PartSink) (data : List UInt8) :
    (emitPartData H pos k data).frame = k.frame := by
  unfold emitPartData
  split_ifs
  · rfl
  · rfl
  · rfl
  · split
    · rfl
    · unfold emitField
      split_ifs <;> rfl
  · rfl

/-- Passing data on adds at most a chunk to the trace, and that only for an open file part
that the handler still wants. -/
theorem emitPartData_trace (H : Handler) (pos : Nat) (k : PartSink) (data : List UInt8) :
    ((emitPartData H pos k data).trace = k.trace ∧
      (emitPartData H pos k data).aborted = k.aborted) ∨
    (k.aborted = false ∧ k.partIsFile = true ∧ k.discard = false ∧
      (emitPartData H pos k data).trace = k.trace ++ [⟨pos, .onChunk data⟩] ∧
      (emitPartData H pos k data).aborted = H (calls k.trace ++ [.onChunk data])) := by
  unfold emitPartData
  split_ifs with h1 h2 h3 h4
  · exact .inl ⟨rfl, rfl⟩
  · exact .inl ⟨rfl, rfl⟩
  · have hab : k.aborted = false := by
      by_contra hab
      exact h1 (.inr (by simpa using hab))
    exact .inr ⟨hab, h2, by simpa using h3, rfl, by simp [PartSink.callback, hab]⟩
  · refine .inl ?_
    split
    · exact ⟨rfl, rfl⟩
    · unfold emitField
      split_ifs <;> exact ⟨rfl, rfl⟩
  · exact .inl ⟨rfl, rfl⟩

theorem SinkInv.emit {H : Handler} {delim body : List UInt8} {k : PartSink}
    (h : SinkInv H delim body k) (pos : Nat) (data : List UInt8) :
    SinkInv H delim body (emitPartData H pos k data) ∧
      lastStart (emitPartData H pos k data).trace = lastStart k.trace := by
  have hframe := frame_emitPartData H pos k data
  have hstarted : (emitPartData H pos k data).started = k.started :=
    (congrArg PartSink.started hframe :)
  have hfile : (emitPartData H pos k data).partIsFile = k.partIsFile :=
    (congrArg PartSink.partIsFile hframe :)
  have hdiscard : (emitPartData H pos k data).discard = k.discard :=
    (congrArg PartSink.discard hframe :)
  rcases emitPartData_trace H pos k data with ⟨ht, ha⟩ | ⟨hab, hf, hd, ht, ha⟩
  · refine ⟨⟨?_, ?_, ?_, ?_, ?_, ?_, ?_⟩, by rw [ht]⟩
    · rw [ht, hstarted]; exact h.form
    · rw [hstarted, hfile]; exact h.file
    · rw [hstarted, hfile, hdiscard]; exact h.started
    · rw [ht, hstarted, hdiscard]; exact h.quiet
    · rw [ht, ha]; exact h.consent
    · rw [ht]; exact h.order
    · rw [ht]; exact h.ends
  · have hst : k.started = true := h.started hf hd
    have hna : NoAbort H (calls k.trace) := h.consent hab
    refine ⟨⟨?_, ?_, ?_, ?_, ?_, ?_, ?_⟩, by rw [ht, lastStart_snoc]⟩
    · rw [ht, hstarted, hst, calls_snoc]
      have hform := h.form
      rw [hst] at hform
      exact hform.chunk data
    · rw [hstarted, hfile]; exact h.file
    · rw [hstarted, hfile, hdiscard]; exact h.started
    · rw [hdiscard, hd]; intro hc; exact absurd hc (by decide)
    · rw [ht, ha, calls_snoc]
      exact noAbort_snoc hna
    · rw [ht, calls_snoc]
      exact along_snoc h.order (fun _ => hna)
    · rw [ht]
      exact along_snoc h.ends (by simp)

theorem SinkInv.emitEach {H : Handler} {delim body : List UInt8} (pos : Nat)
    (bytes : List UInt8) {k : PartSink} (h : SinkInv H delim body k) :
    SinkInv H delim body (bytes.foldl (fun k b => emitPartData H pos k [b]) k) ∧
      lastStart (bytes.foldl (fun k b => emitPartData H pos k [b]) k).trace
        = lastStart k.trace := by
  induction bytes generalizing k with
  | nil => exact ⟨h, rfl⟩
  | cons b bytes ih =>
      obtain ⟨h1, h2⟩ := h.emit pos [b]
      obtain ⟨h3, h4⟩ := ih h1
      exact ⟨h3, h4.trans h2⟩

/-- Opening a part keeps the protocol, when no part is open and the handler still wants
parts. -/
theorem SinkInv.openPart {H : Handler} {delim body : List UInt8} {k : PartSink}
    (h : SinkInv H delim body k) (hst : k.started = false) (hab : k.aborted = false)
    (pos : Nat) (fieldName fileName : Option (List UInt8)) :
    SinkInv H delim body (openPart H pos k fieldName fileName) := by
  have hform := h.form
  rw [hst] at hform
  have hna : NoAbort H (calls k.trace) := h.consent hab
  unfold Post.openPart
  dsimp only
  split_ifs with hd hf
  · exact ⟨h.form, fun hs => absurd hs (by simp [hst]), fun _ hd' => absurd (hd.symm.trans hd') (by decide),
      h.quiet, h.consent, h.order, h.ends⟩
  · refine ⟨?_, fun _ => hf, fun _ _ => rfl, fun hd' => absurd hd' hd, ?_, ?_, ?_⟩
    · simp only [PartSink.callback, calls_snoc]
      exact hform.start fieldName fileName
    · simp only [PartSink.callback, calls_snoc, hab, Bool.false_or]
      exact noAbort_snoc hna
    · simp only [PartSink.callback, calls_snoc]
      exact along_snoc h.order (fun _ => hna)
    · simp only [PartSink.callback]
      exact along_snoc h.ends (by simp)
  · exact ⟨h.form, fun hs => absurd hs (by simp [hst]), fun hf' => absurd hf' hf,
      h.quiet, h.consent, h.order, h.ends⟩

/-- Opening a part moves the start of the open part to where the machine stands, or leaves it
where it was. -/
theorem lastStart_openPart (H : Handler) (pos : Nat) (k : PartSink)
    (fieldName fileName : Option (List UInt8)) (h : lastStart k.trace ≤ pos) :
    lastStart (openPart H pos k fieldName fileName).trace ≤ pos := by
  unfold openPart
  dsimp only
  split_ifs
  · exact h
  · simp only [PartSink.callback, lastStart_snoc]
    exact Nat.le_refl pos
  · exact h

/-- What closing a part does to the trace: an open file part gets its `on_end`, and nothing
else happens. -/
theorem endPart_trace (H : Handler) (pos : Nat) (k : PartSink) (success : Bool) :
    ((endPart H pos k success).started = (k.started && !k.partIsFile)) ∧
    (endPart H pos k success).partIsFile = false ∧
    (endPart H pos k success).discard = k.discard ∧
    ((k.partIsFile = true ∧ k.started = true ∧
      (endPart H pos k success).trace = k.trace ++ [⟨pos, .onEnd (!k.aborted && success)⟩] ∧
      (endPart H pos k success).aborted =
        (k.aborted || H (calls k.trace ++ [.onEnd (!k.aborted && success)]))) ∨
    (¬ (k.partIsFile = true ∧ k.started = true) ∧
      (endPart H pos k success).trace = k.trace ∧
      (endPart H pos k success).aborted = k.aborted)) := by
  unfold endPart
  by_cases h : k.partIsFile = true ∧ k.started = true
  · simp only [if_pos h]
    refine ⟨?_, trivial, ?_, .inl ⟨h.1, h.2, ?_, ?_⟩⟩
    · split_ifs <;> simp [PartSink.modifyPart, PartSink.callback, h.1]
    · split_ifs <;> rfl
    · split_ifs <;> rfl
    · split_ifs <;> rfl
  · simp only [if_neg h]
    refine ⟨?_, trivial, ?_, .inr ⟨h, ?_, ?_⟩⟩
    · have : k.started = (k.started && !k.partIsFile) := by
        cases hst : k.started <;> cases hf : k.partIsFile <;> simp_all
      split_ifs <;> exact this
    · split_ifs <;> rfl
    · split_ifs <;> rfl
    · split_ifs <;> rfl

/-- Closing a part keeps the protocol. A successful `on_end` needs a delimiter. -/
theorem SinkInv.endPart {H : Handler} {delim body : List UInt8} {k : PartSink}
    (h : SinkInv H delim body k) (pos : Nat) (success : Bool)
    (hend : success = true → Terminated delim body (lastStart k.trace) pos) :
    SinkInv H delim body (endPart H pos k success) ∧
      (Post.endPart H pos k success).started = false ∧
      lastStart (Post.endPart H pos k success).trace = lastStart k.trace := by
  obtain ⟨hs, hf, hd, hcase⟩ := endPart_trace H pos k success
  have hstarted : (Post.endPart H pos k success).started = false := by
    rw [hs]
    cases hst : k.started with
    | false => rfl
    | true => simp [h.file hst]
  rcases hcase with ⟨hpf, hst, ht, ha⟩ | ⟨hno, ht, ha⟩
  · refine ⟨⟨?_, ?_, ?_, ?_, ?_, ?_, ?_⟩, hstarted, by rw [ht, lastStart_snoc]⟩
    · rw [hstarted, ht, calls_snoc]
      have hform := h.form
      rw [hst] at hform
      exact hform.finish _
    · rw [hstarted]; intro hc; exact absurd hc (by decide)
    · rw [hf]; intro hc; exact absurd hc (by decide)
    · rw [hd]
      intro hdis
      exact absurd hst (by simp [(h.quiet hdis).2])
    · rw [ha, ht, calls_snoc]
      intro hab
      obtain ⟨hab1, hab2⟩ := Bool.or_eq_false_iff.mp hab
      exact noAbort_snoc (h.consent hab1) hab2
    · rw [ht, calls_snoc]
      refine along_snoc h.order (fun hc => ?_)
      have hc' : (!k.aborted && success) = true := hc
      exact h.consent (by cases hk : k.aborted <;> simp_all)
    · rw [ht]
      refine along_snoc h.ends (fun hc => ?_)
      have hc' : (!k.aborted && success) = true := by simpa using hc
      exact hend (by cases success <;> simp_all)
  · have hst : k.started = false := by
      by_contra hst
      have hst' : k.started = true := by simpa using hst
      exact hno ⟨h.file hst', hst'⟩
    refine ⟨⟨?_, ?_, ?_, ?_, ?_, ?_, ?_⟩, hstarted, by rw [ht]⟩
    · rw [hstarted, ht, ← hst]; exact h.form
    · rw [hstarted]; intro hc; exact absurd hc (by decide)
    · rw [hf]; intro hc; exact absurd hc (by decide)
    · rw [hd, ht, hstarted]; exact fun hdis => ⟨(h.quiet hdis).1, rfl⟩
    · rw [ha, ht]; exact h.consent
    · rw [ht]; exact h.order
    · rw [ht]; exact h.ends

/-! ## The machine -/

/-- What the machine keeps: the receiving side's protocol, that a part is open only in its
data or at a possible end of it, and that the bytes held back are the last ones consumed and
lie behind the start of the part. -/
structure Inv (H : Handler) (s : PostStream) : Prop where
  wf : s.WF
  sink : SinkInv H s.delim s.taken s.sink
  isOpen : s.sink.started = true →
    s.state = .partData ∨ (s.state = .delimCheck ∧ s.delimInData = true)
  pos : lastStart s.sink.trace ≤ s.taken.length
  hold : s.state = .partData →
    s.hold <:+ s.taken ∧ lastStart s.sink.trace + s.hold.length ≤ s.taken.length
  check : s.state = .delimCheck → s.delimInData = true →
    s.delim ++ s.hold <:+ s.taken ∧
      lastStart s.sink.trace + s.delim.length + s.hold.length ≤ s.taken.length

/-- In the other states no part is open and there is nothing to say about held bytes. -/
theorem Inv.of_closed {H : Handler} {s : PostStream} (hwf : s.WF)
    (hsink : SinkInv H s.delim s.taken s.sink) (hst : s.sink.started = false)
    (hpos : lastStart s.sink.trace ≤ s.taken.length) (hs : s.state ≠ .partData)
    (hd : s.state = .delimCheck → s.delimInData = false) : Inv H s where
  wf := hwf
  sink := hsink
  isOpen := fun h => absurd (hst.symm.trans h) (by decide)
  pos := hpos
  hold := fun h => absurd h hs
  check := fun h h' => absurd ((hd h).symm.trans h') (by decide)

theorem startPostStream_inv (H : Handler) (header : HttpRequestHeader) (boundary : List UInt8)
    (discard : Bool) (hb : boundary ≠ []) :
    Inv H (startPostStream header boundary discard) := by
  refine Inv.of_closed (startPostStream_wf header boundary discard hb) ?_ rfl
    (Nat.le_refl _) (by simp [startPostStream]) (by simp [startPostStream])
  refine ⟨⟨[], rfl⟩, by simp [startPostStream], by simp [startPostStream], fun _ => ⟨rfl, rfl⟩, ?_, ?_, ?_⟩
  · intro _ p hne hp
    exact absurd (List.prefix_nil.mp hp) hne
  · exact along_nil _
  · exact along_nil _

theorem Inv.started_false {H : Handler} {s : PostStream} (h : Inv H s)
    (hs : s.state ≠ .partData) (hd : s.state = .delimCheck → s.delimInData = false) :
    s.sink.started = false := by
  by_contra hst
  rcases h.isOpen (by simpa using hst) with h1 | ⟨h1, h2⟩
  · exact hs h1
  · exact absurd ((hd h1).symm.trans h2) (by decide)

/-- Consuming bytes moves the end of what has been consumed. -/
theorem SinkInv.take {H : Handler} {s : PostStream} {k : PartSink} (bytes : List UInt8)
    (h : SinkInv H s.delim s.taken k) : SinkInv H s.delim (s.taken ++ bytes) k :=
  h.mono (List.prefix_append _ _)

theorem Inv.pos_take {H : Handler} {s : PostStream} (h : Inv H s) (bytes : List UInt8) :
    lastStart s.sink.trace ≤ (s.taken ++ bytes).length := by
  have := h.pos
  rw [List.length_append]
  omega

/-- Outside a part, a move that leaves the receiving side alone keeps the invariant. -/
theorem Inv.closed {H : Handler} {s s' : PostStream} (h : Inv H s) (hwf : s'.WF)
    (hs : s.state ≠ .partData) (hd : s.state = .delimCheck → s.delimInData = false)
    (hs' : s'.state ≠ .partData) (hd' : s'.state = .delimCheck → s'.delimInData = false)
    (hdelim : s'.delim = s.delim) (hsink : s'.sink = s.sink) (bytes : List UInt8)
    (htaken : s'.taken = s.taken ++ bytes) : Inv H s' := by
  refine Inv.of_closed hwf ?_ ?_ ?_ hs' hd'
  · rw [hdelim, hsink, htaken]
    exact h.sink.take bytes
  · rw [hsink]
    exact h.started_false hs hd
  · rw [hsink, htaken]
    exact h.pos_take bytes

theorem suffix_snoc {l taken : List UInt8} (h : l <:+ taken) (c : UInt8) :
    l ++ [c] <:+ taken ++ [c] := by
  obtain ⟨t, rfl⟩ := h
  exact ⟨t, by simp⟩

/-- A delimiter ends the part: the receiving side is closed, with a proof of where the
delimiter is. -/
theorem delimiter_sink {H : Handler} {s : PostStream} {x c : UInt8} (h : Inv H s)
    (hs : s.state = .delimCheck) (hh : s.hold = [x])
    (hxc : [x, c] = crlf ∨ [x, c] = [45, 45]) :
    let k := if s.delimInData then endPart H (s.taken ++ [c]).length s.sink true else s.sink
    SinkInv H s.delim (s.taken ++ [c]) k ∧ k.started = false ∧
      lastStart k.trace ≤ (s.taken ++ [c]).length := by
  have hsink : SinkInv H s.delim (s.taken ++ [c]) s.sink := h.sink.take [c]
  have hpos : lastStart s.sink.trace ≤ (s.taken ++ [c]).length := h.pos_take [c]
  cases hd : s.delimInData with
  | false =>
      exact ⟨hsink, h.started_false (by rw [hs]; decide) (fun _ => hd), hpos⟩
  | true =>
      obtain ⟨hsuf, hle⟩ := h.check hs hd
      rw [hh] at hsuf hle
      have hsuf2 := suffix_snoc hsuf c
      have hterm : Terminated s.delim (s.taken ++ [c]) (lastStart s.sink.trace)
          (s.taken ++ [c]).length := by
        refine ⟨Nat.le_refl _, ?_, ?_⟩
        · simp only [List.length_append, List.length_cons, List.length_nil] at hle ⊢
          omega
        · rw [List.take_length]
          rcases hxc with hxc | hxc
          · exact .inl (by rw [← hxc]; simpa using hsuf2)
          · exact .inr (by rw [← hxc]; simpa using hsuf2)
      obtain ⟨h1, h2, h3⟩ := hsink.endPart (s.taken ++ [c]).length true (fun _ => hterm)
      exact ⟨h1, h2, Nat.le_trans (Nat.le_of_eq h3) hpos⟩

/-- The second byte behind a boundary keeps the invariant. -/
theorem delimSecond_inv {H : Handler} {s : PostStream} {x c : UInt8} (h : Inv H s)
    (hs : s.state = .delimCheck) (hh : s.hold = [x]) :
    Inv H (delimCheck H (s.pushHold [c])) := by
  have hwf : (delimCheck H (s.pushHold [c])).WF :=
    (@Step.delimSecond H s x c [] hs hh).wf h.wf
  have hhold : (s.pushHold [c]).hold = [x, c] := by simp [PostStream.pushHold, hh]
  rcases delimCheck_cases H (s.pushHold [c]) with ⟨hxc, heq⟩ | ⟨hxc, heq⟩ | ⟨-, -, hd, heq⟩ |
    ⟨-, -, hd, heq⟩
  · rw [heq] at hwf ⊢
    obtain ⟨h1, h2, h3⟩ := delimiter_sink (c := c) h hs hh (.inr (hhold.symm.trans hxc))
    exact Inv.of_closed hwf h1 h2 h3 (by simp) (by simp)
  · rw [heq] at hwf ⊢
    obtain ⟨h1, h2, h3⟩ := delimiter_sink (c := c) h hs hh (.inl (hhold.symm.trans hxc))
    exact Inv.of_closed hwf h1 h2 h3 (by simp) (by simp)
  · -- the pattern was data: it is given out, and the two bytes may start the pattern again
    obtain ⟨hsuf, hle⟩ := h.check hs hd
    rw [hh] at hsuf hle
    have hlen : (s.taken ++ [c]).length = s.taken.length + 1 := by simp
    have hsink : SinkInv H s.delim (s.taken ++ [c]) s.sink := h.sink.take [c]
    obtain ⟨h1, h2⟩ := hsink.emit (s.taken ++ [c]).length s.delim
    obtain ⟨h3, h4⟩ := h1.emitEach (s.taken ++ [c]).length (rebase s.delim [x, c]).1
    have hkeep : (rebase s.delim [x, c]).2 <:+ s.taken ++ [c] := by
      have hq : (rebase s.delim [x, c]).2 <:+ [x, c] := ⟨_, rebase_append s.delim [x, c]⟩
      have hxc : [x, c] <:+ s.delim ++ [x] ++ [c] := ⟨s.delim, by simp⟩
      exact hq.trans (hxc.trans (suffix_snoc hsuf c))
    have hklen := rebase_length s.delim [x, c]
    have h5 := h4.trans h2
    rw [heq, hhold] at hwf ⊢
    refine ⟨hwf, h3, fun _ => .inl rfl, ?_, fun _ => ⟨hkeep, ?_⟩, fun hc => absurd hc (by simp)⟩
    · refine Nat.le_trans (Nat.le_of_eq h5) ?_
      show lastStart s.sink.trace ≤ (s.taken ++ [c]).length
      omega
    · refine Nat.le_trans (Nat.add_le_add_right (Nat.le_of_eq h5) _) ?_
      show lastStart s.sink.trace + (rebase s.delim [x, c]).2.length ≤ (s.taken ++ [c]).length
      simp only [List.length_cons, List.length_nil] at hklen hle
      have := h.wf.delim
      omega
  · rw [heq] at hwf ⊢
    exact h.closed hwf (by rw [hs]; decide) (fun _ => hd) (by simp) (by simp) rfl rfl [c] rfl

/-- The byte that completes a part header keeps the invariant. -/
theorem headerDone_inv {H : Handler} {s : PostStream} {c : UInt8} {rest : List UInt8}
    (h : Inv H s) (hs : s.state = .partHeader)
    (hstep : Step H (s, c :: rest) ({ (beginPart H (s.pushHeader c)).1 with
      state := if (beginPart H (s.pushHeader c)).2 then .partData else .error }, rest)) :
    Inv H { (beginPart H (s.pushHeader c)).1 with
      state := if (beginPart H (s.pushHeader c)).2 then .partData else .error } := by
  have hwf := hstep.wf h.wf
  have hst : s.sink.started = false :=
    h.started_false (by rw [hs]; decide) (fun h => absurd (hs.symm.trans h) (by decide))
  have hsink : SinkInv H s.delim (s.taken ++ [c]) s.sink := h.sink.take [c]
  have hpos : lastStart s.sink.trace ≤ (s.taken ++ [c]).length := h.pos_take [c]
  have hold : (s.pushHeader c).hold = [] := h.wf.header hs
  have hnil : ([] : List UInt8) <:+ s.taken ++ [c] := List.nil_suffix
  rcases beginPart_cases H (s.pushHeader c) with ⟨hab, heq⟩ | ⟨hab, -, heq⟩ | ⟨hab, -, heq⟩
  · rw [heq] at hwf ⊢
    refine ⟨hwf, ⟨hsink.form, fun h => absurd (hst.symm.trans h) (by decide),
      fun h => absurd h (by simp), hsink.quiet, hsink.consent, hsink.order, hsink.ends⟩,
      fun _ => .inl rfl, hpos, fun _ => ⟨?_, ?_⟩, fun h => absurd h (by simp)⟩
    · rw [hold]; exact hnil
    · rw [hold]; exact hpos
  · rw [heq] at hwf ⊢
    refine Inv.of_closed hwf ?_ hst hpos (by simp) (by simp)
    exact ⟨hsink.form, hsink.file, hsink.started, hsink.quiet, hsink.consent, hsink.order,
      hsink.ends⟩
  · rw [heq] at hwf ⊢
    have hclosed : SinkInv H s.delim (s.taken ++ [c]) { s.sink with currentPart := false } :=
      ⟨hsink.form, hsink.file, hsink.started, hsink.quiet, hsink.consent, hsink.order, hsink.ends⟩
    have hopen := hclosed.openPart hst hab (s.taken ++ [c]).length
      (extractDispositionValue (s.pushHeader c).partFields.contentDisposition (ascii "name="))
      (extractDispositionValue (s.pushHeader c).partFields.contentDisposition (ascii "filename="))
    have hpos' := lastStart_openPart H (s.taken ++ [c]).length
      { s.sink with currentPart := false } 
      (extractDispositionValue (s.pushHeader c).partFields.contentDisposition (ascii "name="))
      (extractDispositionValue (s.pushHeader c).partFields.contentDisposition (ascii "filename="))
      hpos
    refine ⟨hwf, hopen, fun _ => .inl rfl, hpos', fun _ => ⟨?_, ?_⟩, fun h => absurd h (by simp)⟩
    · rw [hold]; exact hnil
    · rw [hold]; exact hpos'

/-- **Every move keeps the invariant.** -/
theorem Step.inv {H : Handler} {c c' : Config} (hstep : Step H c c') (h : Inv H c.1) :
    Inv H c'.1 := by
  have hwf := hstep.wf h.wf
  cases hstep with
  | @skip s run rest hs hh hr =>
      refine h.closed hwf ?_ ?_ ?_ ?_ rfl rfl run rfl
      all_goals simp [PostStream.take, hs]
  | @emitRun s run rest hs hh hr =>
      replace h : Inv H s := h
      obtain ⟨h1, h2⟩ := h.sink.emit s.taken.length run
      have hpos : lastStart (emitPartData H s.taken.length s.sink run).trace
          ≤ (s.taken ++ run).length := by
        rw [h2]
        exact h.pos_take run
      refine ⟨hwf, h1.take run, fun _ => .inl hs, hpos, fun _ => ⟨?_, ?_⟩,
        fun hc => absurd (hs.symm.trans hc) (by decide)⟩
      · show s.hold <:+ _
        rw [hh]
        exact List.nil_suffix
      · show _ + s.hold.length ≤ _
        rw [hh]
        exact hpos
  | @push s c rest hs hc hl =>
      replace h : Inv H s := h
      rcases hs with hs | hs
      · refine h.closed hwf ?_ ?_ ?_ ?_ rfl rfl [c] rfl
        all_goals simp [PostStream.pushHold, PostStream.take, hs]
      · obtain ⟨h1, h2⟩ := h.hold hs
        refine ⟨hwf, h.sink.take [c], fun _ => .inl hs, h.pos_take [c],
          fun _ => ⟨suffix_snoc h1 c, ?_⟩, fun hc => absurd (hs.symm.trans hc) (by decide)⟩
        show lastStart s.sink.trace + (s.hold ++ [c]).length ≤ (s.taken ++ [c]).length
        simp only [List.length_append, List.length_cons, List.length_nil]
        omega
  | @found s c rest hs hc hl =>
      replace h : Inv H s := h
      rcases hs with hs | hs
      · refine h.closed hwf ?_ ?_ ?_ ?_ rfl rfl [c] rfl
        all_goals simp [PostStream.found, hs]
      · obtain ⟨h1, h2⟩ := h.hold hs
        -- the held bytes and the last one are the whole pattern
        have hn : s.needle = s.delim := by simp [PostStream.needle, hs]
        have hfull : s.hold ++ [c] = s.delim := by
          rw [hn] at hc hl
          have hp := prefix_snoc (hn ▸ (h.wf.scan (.inr hs)).1) hc
          exact hp.eq_of_length (by simpa using hl)
        refine ⟨hwf, h.sink.take [c], fun _ => .inr ⟨rfl, by simp [PostStream.found, hs]⟩,
          h.pos_take [c], fun hc => absurd hc (by simp [PostStream.found]), fun _ _ => ⟨?_, ?_⟩⟩
        · show s.delim ++ [] <:+ s.taken ++ [c]
          rw [List.append_nil, ← hfull]
          exact suffix_snoc h1 c
        · show lastStart s.sink.trace + s.delim.length + 0 ≤ (s.taken ++ [c]).length
          rw [← hfull]
          simp only [List.length_append, List.length_cons, List.length_nil]
          omega
  | @preambleMismatch s c rest hs hh hc =>
      refine h.closed hwf ?_ ?_ ?_ ?_ rfl rfl [] (by simp)
      all_goals simp [hs]
  | @dataMismatch s b c t rest hs hh hc =>
      replace h : Inv H s := h
      obtain ⟨h1, h2⟩ := h.hold hs
      obtain ⟨h3, h4⟩ := h.sink.emitEach s.taken.length (b :: (rebase s.delim t).1)
      have hlen := rebase_length s.delim t
      have hkeep : (rebase s.delim t).2 <:+ s.taken := by
        have hq : (rebase s.delim t).2 <:+ t := ⟨_, rebase_append s.delim t⟩
        have ht : t <:+ s.hold := by rw [hh]; exact List.suffix_cons b t
        exact hq.trans (ht.trans h1)
      rw [hh, List.length_cons] at h2
      refine ⟨hwf, h3, fun _ => .inl hs, Nat.le_trans (Nat.le_of_eq h4) h.pos,
        fun _ => ⟨hkeep, ?_⟩, fun hc => absurd (hs.symm.trans hc) (by decide)⟩
      refine Nat.le_trans (Nat.add_le_add_right (Nat.le_of_eq h4) _) ?_
      show lastStart s.sink.trace + (rebase s.delim t).2.length ≤ s.taken.length
      omega
  | @delimFirst s c rest hs hh =>
      replace h : Inv H s := h
      cases hd : s.delimInData with
      | false =>
          refine h.closed hwf ?_ ?_ ?_ ?_ rfl rfl [c] rfl
          all_goals simp [PostStream.pushHold, PostStream.take, hs, hd]
      | true =>
          obtain ⟨h1, h2⟩ := h.check hs hd
          refine ⟨hwf, h.sink.take [c], fun _ => .inr ⟨hs, hd⟩, h.pos_take [c],
            fun hc => absurd (hs.symm.trans hc) (by decide), fun _ _ => ⟨?_, ?_⟩⟩
          · show s.delim ++ (s.hold ++ [c]) <:+ s.taken ++ [c]
            rw [← List.append_assoc]
            exact suffix_snoc h1 c
          · show lastStart s.sink.trace + s.delim.length + (s.hold ++ [c]).length
              ≤ (s.taken ++ [c]).length
            simp only [List.length_append, List.length_cons, List.length_nil]
            omega
  | @delimSecond s x c rest hs hh => exact delimSecond_inv h hs hh
  | @afterBoundary s c rest hs =>
      replace h : Inv H s := h
      have hst := h.started_false (by rw [hs]; decide)
        (fun h => absurd (hs.symm.trans h) (by decide))
      have hk := h.sink
      refine Inv.of_closed hwf ⟨hk.form, hk.file, hk.started, hk.quiet, ?_, hk.order, hk.ends⟩
        hst h.pos (by simp [Post.afterBoundary]) (by simp [Post.afterBoundary])
      intro hab
      exact hk.consent (Bool.or_eq_false_iff.mp hab).1
  | @header s c rest hs hroom hmore =>
      refine h.closed hwf ?_ ?_ ?_ ?_ rfl rfl [c] rfl
      all_goals simp [PostStream.pushHeader, PostStream.take, hs]
  | @headerTooLong s c rest hs hfull hab =>
      refine h.closed hwf ?_ ?_ ?_ ?_ rfl rfl [] (by simp)
      all_goals simp [hs]
  | @headerDone s c rest hs hroom hdone =>
      exact headerDone_inv h hs (@Step.headerDone H s c rest hs hroom hdone)
  | @epilogue s rest hs =>
      refine h.closed hwf ?_ ?_ ?_ ?_ rfl rfl rest rfl
      all_goals simp [PostStream.take, hs]

theorem Steps.inv {H : Handler} {c c' : Config} (hsteps : Steps H c c') (h : Inv H c.1) :
    Inv H c'.1 := by
  induction hsteps with
  | refl => exact h
  | tail _ hstep ih => exact hstep.inv ih

/-! ## Whole streams -/

/-- What can happen to a stream: bytes of the body arrive, or the client goes away. -/
inductive StreamAction where
  | feed (data : List UInt8)
  | disconnect

/-- The stream after an action. -/
def StreamAction.apply (H : Handler) (s : PostStream) : StreamAction → PostStream
  | .feed data => (postStreamFeed H s data).1
  | .disconnect => postStreamFinish H s false

/-- The stream after a sequence of actions. -/
def runActions (H : Handler) (s : PostStream) (acts : List StreamAction) : PostStream :=
  acts.foldl (StreamAction.apply H) s

/-- The body bytes of an action. -/
def StreamAction.bytes : StreamAction → List UInt8
  | .feed data => data
  | .disconnect => []

/-- The body bytes of a sequence of actions. -/
def fedBytes (acts : List StreamAction) : List UInt8 := (acts.map StreamAction.bytes).flatten

theorem runActions_snoc (H : Handler) (s : PostStream) (acts : List StreamAction)
    (a : StreamAction) : runActions H s (acts ++ [a]) = a.apply H (runActions H s acts) := by
  simp [runActions]

theorem fedBytes_snoc (acts : List StreamAction) (a : StreamAction) :
    fedBytes (acts ++ [a]) = fedBytes acts ++ a.bytes := by
  simp [fedBytes]

/-- The machine has consumed the body it was fed; after an error it stands still. -/
def Fed (s : PostStream) (body : List UInt8) : Prop :=
  s.taken <+: body ∧ (s.state ≠ .error → s.taken = body)

theorem Inv.withHeader {H : Handler} {s : PostStream} (h : Inv H s)
    (header : HttpRequestHeader) : Inv H { s with header := header } :=
  ⟨⟨h.wf.delim, h.wf.scan, h.wf.check, h.wf.header⟩, h.sink, h.isOpen, h.pos, h.hold, h.check⟩

/-- Ending a stream closes the open part without success, and leaves no part open. -/
theorem postStreamFinish_inv {H : Handler} {s : PostStream} (h : Inv H s) (ha : s.active = true) :
    Inv H (postStreamFinish H s false) ∧ (postStreamFinish H s false).sink.started = false := by
  unfold postStreamFinish
  split_ifs with hc
  · obtain ⟨h1, h2, h3⟩ := h.sink.endPart s.taken.length false (by simp)
    refine ⟨⟨⟨h.wf.delim, h.wf.scan, h.wf.check, h.wf.header⟩, h1,
      fun hs => absurd (h2.symm.trans hs) (by decide), Nat.le_trans (Nat.le_of_eq h3) h.pos,
      fun hs => ?_, fun hs hd => ?_⟩, h2⟩
    · obtain ⟨h4, h5⟩ := h.hold hs
      exact ⟨h4, Nat.le_trans (Nat.add_le_add_right (Nat.le_of_eq h3) _) h5⟩
    · obtain ⟨h4, h5⟩ := h.check hs hd
      refine ⟨h4, Nat.le_trans ?_ h5⟩
      exact Nat.add_le_add_right (Nat.add_le_add_right (Nat.le_of_eq h3) _) _
  · refine ⟨h, ?_⟩
    by_contra hst
    exact hc ⟨ha, by simpa using hst⟩

theorem Step.not_error {H : Handler} {c c' : Config} (h : Step H c c') :
    c.1.state ≠ .error := by
  intro he
  cases h with
  | push hs hc hl => rcases hs with hs | hs <;> exact absurd (he.symm.trans hs) (by decide)
  | found hs hc hl => rcases hs with hs | hs <;> exact absurd (he.symm.trans hs) (by decide)
  | skip hs _ _ | emitRun hs _ _ | preambleMismatch hs _ _ | dataMismatch hs _ _
  | delimFirst hs _ | delimSecond hs _ | afterBoundary hs | header hs _ _ | headerTooLong hs _ _
  | headerDone hs _ _ | epilogue hs => exact absurd (he.symm.trans hs) (by decide)

/-- A machine in the error state makes no moves. -/
theorem Steps.of_error {H : Handler} {c c' : Config} (h : Steps H c c')
    (he : c.1.state = .error) : c' = c := by
  rcases Relation.ReflTransGen.cases_head h with rfl | ⟨d, hstep, -⟩
  · rfl
  · exact absurd he hstep.not_error

theorem emitEach_discard (H : Handler) (pos : Nat) (bytes : List UInt8) (k : PartSink) :
    (bytes.foldl (fun k b => emitPartData H pos k [b]) k).discard = k.discard := by
  induction bytes generalizing k with
  | nil => rfl
  | cons b bytes ih => exact (ih _).trans (congrArg PartSink.discard (frame_emitPartData H pos k [b]) :)

theorem openPart_discard (H : Handler) (pos : Nat) (k : PartSink)
    (fieldName fileName : Option (List UInt8)) :
    (openPart H pos k fieldName fileName).discard = k.discard := by
  unfold openPart
  dsimp only
  split_ifs <;> rfl

/-- Whether the body is discarded is settled when the stream starts. -/
theorem Step.discard {H : Handler} {c c' : Config} (h : Step H c c') :
    c'.1.sink.discard = c.1.sink.discard := by
  cases h with
  | @emitRun s run rest hs hh hr =>
      exact (congrArg PartSink.discard (frame_emitPartData H s.taken.length s.sink run) :)
  | @dataMismatch s b c t rest hs hh hc =>
      exact emitEach_discard H s.taken.length (b :: (rebase s.delim t).1) s.sink
  | @delimSecond s x c rest hs hh =>
      have hend := (endPart_trace H (s.pushHold [c]).taken.length s.sink true).2.2.1
      rcases delimCheck_cases H (s.pushHold [c]) with ⟨-, h⟩ | ⟨-, h⟩ | ⟨-, -, -, h⟩ | ⟨-, -, -, h⟩
      · rw [h]
        dsimp only
        split_ifs
        · exact hend
        · rfl
      · rw [h]
        dsimp only
        split_ifs
        · exact hend
        · rfl
      · rw [h]
        refine (emitEach_discard H _ _ _).trans ?_
        exact (congrArg PartSink.discard (frame_emitPartData H _ s.sink s.delim) :)
      · rw [h]
        rfl
  | @headerDone s c rest hs hroom hdone =>
      rcases beginPart_cases H (s.pushHeader c) with ⟨-, h⟩ | ⟨-, -, h⟩ | ⟨-, -, h⟩
      · rw [h]
        rfl
      · rw [h]
        rfl
      · rw [h]
        exact openPart_discard H _ _ _ _
  | _ => rfl

theorem Steps.discard {H : Handler} {c c' : Config} (h : Steps H c c') :
    c'.1.sink.discard = c.1.sink.discard := by
  induction h with
  | refl => rfl
  | tail _ hstep ih => exact hstep.discard.trans ih

/-- What a stream keeps from action to action, with `body` the bytes it was fed. -/
structure StreamInv (H : Handler) (delim body : List UInt8) (discard : Bool) (s : PostStream) :
    Prop where
  inv : Inv H s
  active : s.active = true
  delim : s.delim = delim
  discard : s.sink.discard = discard
  fed : Fed s body

/-- Ending the stream keeps what the stream keeps. -/
theorem StreamInv.finish {H : Handler} {delim body : List UInt8} {discard : Bool}
    {s : PostStream} (h : StreamInv H delim body discard s) :
    StreamInv H delim body discard (postStreamFinish H s false) := by
  have hinv := (postStreamFinish_inv h.inv h.active).1
  unfold postStreamFinish at hinv ⊢
  split_ifs at hinv ⊢
  · exact ⟨hinv, h.active, h.delim,
      (endPart_trace H s.taken.length s.sink false).2.2.1.trans h.discard, h.fed⟩
  · exact h

/-- A call of `postStreamFeed` keeps what the stream keeps. -/
theorem StreamInv.feed {H : Handler} {delim body : List UInt8} {discard : Bool}
    {s : PostStream} (h : StreamInv H delim body discard s) (data : List UInt8) :
    StreamInv H delim (body ++ data) discard (postStreamFeed H s data).1 := by
  obtain ⟨s', rest, hsteps, hend⟩ := postStreamFeed_steps H s data h.inv.wf h.active
  obtain ⟨ht, hd, ha⟩ := hsteps.taken
  have hfed : Fed s' (body ++ data) := by
    by_cases he : s.state = .error
    · -- an error is final, and the bytes behind it are not looked at
      obtain ⟨rfl, rfl⟩ := Prod.mk.inj (hsteps.of_error he)
      exact ⟨h.fed.1.trans (List.prefix_append _ _), fun hne => absurd he hne⟩
    · have htaken : s.taken = body := h.fed.2 he
      have heq : s'.taken ++ rest = body ++ data := by rw [← htaken]; exact ht
      refine ⟨⟨rest, heq⟩, fun hne => ?_⟩
      rcases hend with ⟨hes, -⟩ | ⟨rfl, -, -⟩
      · exact absurd hes hne
      · simpa using heq
  have hs' : StreamInv H delim (body ++ data) discard s' :=
    ⟨hsteps.inv (h.inv.withHeader _), ha.trans h.active, hd.trans h.delim,
      hsteps.discard.trans h.discard, hfed⟩
  rcases hend with ⟨-, heq⟩ | ⟨-, -, heq⟩
  · rw [heq]
    exact hs'
  · rw [heq]
    unfold feedEnd
    split_ifs
    · exact hs'.finish
    · exact hs'
    · exact hs'

/-- **What holds of every stream.** -/
theorem runActions_inv (H : Handler) (header : HttpRequestHeader) (boundary : List UInt8)
    (discard : Bool) (hb : boundary ≠ []) (acts : List StreamAction) :
    StreamInv H (crlf ++ boundary) (fedBytes acts) discard
      (runActions H (startPostStream header boundary discard) acts) := by
  induction acts using List.reverseRecOn with
  | nil =>
      exact ⟨startPostStream_inv H header boundary discard hb, rfl, rfl, rfl,
        List.prefix_rfl, fun _ => rfl⟩
  | append_singleton acts a ih =>
      rw [runActions_snoc, fedBytes_snoc]
      cases a with
      | feed data => exact ih.feed data
      | disconnect =>
          rw [StreamAction.bytes, List.append_nil]
          exact ih.finish

/-- **The callback protocol.** For every body and every cutting of it, every handler and every
time at which the client goes away: the callbacks are those of complete parts, followed by an
open one at most; once the stream is finished, or its closing boundary has been read, every
`on_start` has its one `on_end`; a discarded body causes no callback; after an abort there is
no further `on_start`, `on_chunk` or successful `on_end`; and a successful `on_end` is made
exactly behind a delimiter that ended the part. -/
theorem post_stream_callback_protocol (H : Handler) (header : HttpRequestHeader)
    (b : List UInt8) (discard : Bool) (acts : List StreamAction) :
    let s := runActions H (startPostStream header (ascii "--" ++ b) discard) acts
    let delim := crlf ++ (ascii "--" ++ b)
    TraceForm s.sink.started (calls s.sink.trace) ∧
    TraceForm false (calls (postStreamFinish H s false).sink.trace) ∧
    (s.state = .epilogue → TraceForm false (calls s.sink.trace)) ∧
    (discard = true → s.sink.trace = []) ∧
    Along (fun t e => e.NeedsConsent → NoAbort H t) (calls s.sink.trace) ∧
    Along (fun t e => e.call = .onEnd true →
      Terminated delim (fedBytes acts) (lastStart t) e.pos) s.sink.trace := by
  intro s delim
  have h : StreamInv H delim (fedBytes acts) discard s :=
    runActions_inv H header (ascii "--" ++ b) discard (by simp [ascii]) acts
  have hk := h.inv.sink
  obtain ⟨hfin, hclosed⟩ := postStreamFinish_inv h.inv h.active
  refine ⟨hk.form, ?_, fun he => ?_, fun hd => (hk.quiet (h.discard.trans hd)).1, hk.order, ?_⟩
  · have hform := hfin.sink.form
    rwa [hclosed] at hform
  · have hst := h.inv.started_false (by rw [he]; decide)
      (fun hc => absurd (he.symm.trans hc) (by decide))
    have hform := hk.form
    rwa [hst] at hform
  · refine hk.ends.mono (fun t e hte he => ?_)
    rw [← h.delim]
    exact (hte he).mono h.fed.1

end CWebUI.Post
