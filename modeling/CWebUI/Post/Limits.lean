import CWebUI.Post.Uploads

set_option autoImplicit false

/-! # The limits of a stream

A body is as long as the client likes, and what the machine keeps of it must not be. There
are limits on the records of the parts, on their names, on the form fields one by one and
together, on the header of a part and on the bytes that are held back. They are kept by
counters that different states of the machine write. This file proves that the counters count
what they say and that no limit is passed, from move to move.
-/

namespace CWebUI.Post

open ByteString CWebUI.Http

/-! ## The buffer of a field -/

/-- Doubling often enough makes room. -/
theorem le_growCapacity (need n neu : Nat) (h : need ≤ neu * 2 ^ n) :
    need ≤ growCapacity need n neu := by
  induction n generalizing neu with
  | zero => simpa [growCapacity] using h
  | succ n ih =>
      unfold growCapacity
      split_ifs with hlt
      · apply ih
        calc need ≤ neu * 2 ^ (n + 1) := h
          _ = neu * (2 * 2 ^ n) := by rw [Nat.pow_succ, Nat.mul_comm (2 ^ n)]
          _ = neu * 2 * 2 ^ n := (Nat.mul_assoc _ _ _).symm
      · exact Nat.not_lt.mp hlt

/-- A field buffer has room for what it has to hold. -/
theorem le_fieldCapacity (capacity need : Nat) : need ≤ fieldCapacity capacity need := by
  unfold fieldCapacity
  by_cases hgrow : need > capacity
  · rw [if_pos hgrow]
    dsimp only
    generalize hstart : (if capacity = 0 then 256 else capacity * 2) = start
    have hone : 1 ≤ start := by
      rw [← hstart]
      split_ifs <;> omega
    have hneu : need ≤ growCapacity need need start := by
      apply le_growCapacity
      calc need ≤ 2 ^ need := Nat.le_of_lt Nat.lt_two_pow_self
        _ = 1 * 2 ^ need := (Nat.one_mul _).symm
        _ ≤ start * 2 ^ need := Nat.mul_le_mul_right _ hone
    split_ifs
    · exact Nat.le_refl need
    · exact hneu
  · rw [if_neg hgrow]
    exact Nat.not_lt.mp hgrow

/-! ## The records of the parts -/

/-- The bytes that are buffered for the form fields among the parts. -/
def bufferedLength (parts : List PostStreamPart) : Nat :=
  ((parts.filter (fun p => !p.isFile)).map PostStreamPart.length).sum

theorem bufferedLength_file {p : PostStreamPart} (h : p.isFile = true)
    (parts : List PostStreamPart) : bufferedLength (p :: parts) = bufferedLength parts := by
  simp [bufferedLength, h]

theorem bufferedLength_field {p : PostStreamPart} (h : p.isFile = false)
    (parts : List PostStreamPart) :
    bufferedLength (p :: parts) = p.length + bufferedLength parts := by
  simp [bufferedLength, h]

/-- The record of a part keeps its limits. The length of a file part counts bytes that are not
kept. -/
structure PostStreamPart.Limits (p : PostStreamPart) : Prop where
  name : p.name.length ≤ postStreamMaxName
  length : p.isFile = false → p.length = p.data.length
  size : p.isFile = false → p.length ≤ postStreamMaxFieldSize
  room : p.isFile = false → p.data ≠ [] → p.length + 1 ≤ p.capacity

/-- The receiving side keeps its limits, and its counters are true. -/
structure PartSink.Limits (k : PartSink) : Prop where
  count : k.partsCount = k.parts.length
  most : k.parts.length ≤ postStreamMaxParts
  part : ∀ p ∈ k.parts, p.Limits
  total : k.fieldsTotal = bufferedLength k.parts
  totalMost : k.fieldsTotal ≤ postStreamMaxFieldsTotal

/-- A change to the other fields of the receiving side. -/
theorem PartSink.Limits.of_eq {k k' : PartSink} (h : k.Limits)
    (hparts : k'.parts = k.parts) (hcount : k'.partsCount = k.partsCount)
    (htotal : k'.fieldsTotal = k.fieldsTotal) : k'.Limits := by
  refine ⟨?_, ?_, ?_, ?_, ?_⟩
  · rw [hcount, hparts]
    exact h.count
  · rw [hparts]
    exact h.most
  · rw [hparts]
    exact h.part
  · rw [htotal, hparts]
    exact h.total
  · rw [htotal]
    exact h.totalMost

/-- The record at the head is replaced. -/
theorem PartSink.Limits.setHead {k k' : PartSink} (h : k.Limits) {p p' : PostStreamPart}
    {rest : List PostStreamPart} (hk : k.parts = p :: rest) (hparts : k'.parts = p' :: rest)
    (hcount : k'.partsCount = k.partsCount) (hp : p.Limits → p'.Limits)
    (htotal : k'.fieldsTotal = bufferedLength (p' :: rest))
    (hmost : k'.fieldsTotal ≤ postStreamMaxFieldsTotal) : k'.Limits := by
  refine ⟨?_, ?_, ?_, ?_, hmost⟩
  · rw [hcount, h.count, hk, hparts, List.length_cons, List.length_cons]
  · have := h.most
    rw [hk, List.length_cons] at this
    rw [hparts, List.length_cons]
    exact this
  · rw [hparts]
    intro q hq
    rcases List.mem_cons.mp hq with rfl | hq
    · exact hp (h.part p (by rw [hk]; exact List.mem_cons_self))
    · exact h.part q (by rw [hk]; exact List.mem_cons_of_mem p hq)
  · rw [hparts]
    exact htotal

/-- What `emitPartData` does to the records: nothing; or the field that is open is cut off
here, because the data would pass a limit; or the data is appended to it. -/
theorem emitPartData_records (H : Handler) (pos : Nat) (k : PartSink) (data : List UInt8) :
    ((emitPartData H pos k data).parts = k.parts ∧
      (emitPartData H pos k data).fieldsTotal = k.fieldsTotal ∧
      (∀ p rest, k.parts = p :: rest → p.isFile = false → p.truncated = false →
        k.currentPart = true → k.partIsFile = false → k.aborted = false → data = [])) ∨
    ∃ p rest, k.parts = p :: rest ∧ p.isFile = false ∧ p.truncated = false ∧
      (((emitPartData H pos k data).parts = { p with truncated := true } :: rest ∧
        (emitPartData H pos k data).fieldsTotal = k.fieldsTotal) ∨
      (k.fieldsTotal + data.length ≤ postStreamMaxFieldsTotal ∧
        p.length + data.length ≤ postStreamMaxFieldSize ∧
        (emitPartData H pos k data).parts = { p with
          data := p.data ++ data
          length := p.length + data.length
          capacity := fieldCapacity p.capacity (p.length + data.length + 1) } :: rest ∧
        (emitPartData H pos k data).fieldsTotal = k.fieldsTotal + data.length)) := by
  unfold emitPartData
  split_ifs with hskip hfile hdiscard hcurrent
  · refine Or.inl ⟨rfl, rfl, ?_⟩
    intro p rest _ _ _ _ _ hab
    rcases hskip with hnil | hskip
    · exact hnil
    · exact absurd (hab.symm.trans hskip) (by decide)
  · refine Or.inl ⟨rfl, rfl, ?_⟩
    intro p rest _ _ _ _ hfield _
    exact absurd (hfield.symm.trans hfile) (by decide)
  · refine Or.inl ⟨rfl, rfl, ?_⟩
    intro p rest _ _ _ _ hfield _
    exact absurd (hfield.symm.trans hfile) (by decide)
  · cases hparts : k.parts with
    | nil =>
        refine Or.inl ⟨hparts, rfl, ?_⟩
        intro p rest hp
        cases hp
    | cons p rest =>
        dsimp only
        unfold emitField PartSink.modifyPart
        rw [hparts]
        split_ifs with hpass hlimit
        · refine Or.inl ⟨hparts, rfl, ?_⟩
          intro q rest' hq hf ht _ _ _
          obtain ⟨rfl, -⟩ := List.cons_eq_cons.mp hq
          rcases hpass with hpass | hpass
          · exact absurd (hf.symm.trans hpass) (by decide)
          · exact absurd (ht.symm.trans hpass) (by decide)
        · have hp : p.isFile = false ∧ p.truncated = false := by simpa using hpass
          exact Or.inr ⟨p, rest, rfl, hp.1, hp.2, Or.inl ⟨rfl, rfl⟩⟩
        · have hp : p.isFile = false ∧ p.truncated = false := by simpa using hpass
          obtain ⟨htotal, hsize⟩ := not_or.mp hlimit
          exact Or.inr ⟨p, rest, rfl, hp.1, hp.2,
            Or.inr ⟨Nat.not_lt.mp htotal, Nat.not_lt.mp hsize, rfl, rfl⟩⟩
  · refine Or.inl ⟨rfl, rfl, ?_⟩
    intro p rest _ _ _ hc _ _
    exact absurd hc hcurrent

theorem emitPartData_partsCount (H : Handler) (pos : Nat) (k : PartSink) (data : List UInt8) :
    (emitPartData H pos k data).partsCount = k.partsCount :=
  (congrArg PartSink.partsCount (frame_emitPartData H pos k data) :)

/-- **Passing data on** keeps the limits: what would pass one is dropped. -/
theorem PartSink.Limits.emit {k : PartSink} (h : k.Limits) (H : Handler) (pos : Nat)
    (data : List UInt8) : (emitPartData H pos k data).Limits := by
  have hcount := emitPartData_partsCount H pos k data
  rcases emitPartData_records H pos k data with ⟨hparts, htotal, -⟩ |
    ⟨p, rest, hk, hfield, -, hcase⟩
  · exact h.of_eq hparts hcount htotal
  · have htotal' := h.total
    rw [hk, bufferedLength_field hfield] at htotal'
    rcases hcase with ⟨hparts, htotal⟩ | ⟨htotalMost, hsize, hparts, htotal⟩
    · refine h.setHead hk hparts hcount ?_ ?_ ?_
      · intro hp
        exact ⟨hp.name, hp.length, hp.size, hp.room⟩
      · rw [htotal, bufferedLength_field (by exact hfield)]
        exact htotal'
      · rw [htotal]
        exact h.totalMost
    · refine h.setHead hk hparts hcount ?_ ?_ ?_
      · intro hp
        refine ⟨hp.name, fun _ => ?_, fun _ => hsize, fun _ _ => le_fieldCapacity _ _⟩
        show p.length + data.length = (p.data ++ data).length
        rw [List.length_append, hp.length hfield]
      · rw [htotal, bufferedLength_field (by exact hfield)]
        show k.fieldsTotal + data.length = p.length + data.length + bufferedLength rest
        omega
      · rw [htotal]
        exact htotalMost

theorem PartSink.Limits.emitEach (H : Handler) (pos : Nat) (bytes : List UInt8) {k : PartSink}
    (h : k.Limits) : (bytes.foldl (fun k b => emitPartData H pos k [b]) k).Limits := by
  induction bytes generalizing k with
  | nil => exact h
  | cons b bytes ih => exact ih (h.emit H pos [b])

/-- **Opening a part** keeps the limits, when there is room for one more record. -/
theorem PartSink.Limits.openPart {k : PartSink} (h : k.Limits)
    (hroom : k.partsCount < postStreamMaxParts) (H : Handler) (pos : Nat)
    (fieldName fileName : Option (List UInt8)) :
    (openPart H pos k fieldName fileName).Limits := by
  unfold Post.openPart
  dsimp only
  split_ifs with hdiscard hfile
  · exact h.of_eq rfl rfl rfl
  all_goals
    refine ⟨?_, ?_, ?_, ?_, h.totalMost⟩
    · show k.partsCount + 1 = (_ :: k.parts).length
      rw [List.length_cons, h.count]
    · show (_ :: k.parts).length ≤ _
      have := h.count
      rw [List.length_cons]
      omega
    · intro p hp
      rcases List.mem_cons.mp hp with rfl | hp
      · exact ⟨List.length_take_le _ _, fun _ => rfl, fun _ => Nat.zero_le _,
          fun _ hne => absurd rfl hne⟩
      · exact h.part p hp
  · show k.fieldsTotal = bufferedLength (_ :: k.parts)
    rw [bufferedLength_file hfile, h.total]
  · show k.fieldsTotal = bufferedLength (_ :: k.parts)
    rw [bufferedLength_field (by simpa using hfile), h.total]
    exact (Nat.zero_add _).symm

/-- What closing a part does to the records: at most the record of a file changes, and that in
its length and its result only. -/
theorem endPart_records (H : Handler) (pos : Nat) (k : PartSink) (success : Bool) :
    (endPart H pos k success).partsCount = k.partsCount ∧
    (endPart H pos k success).fieldsTotal = k.fieldsTotal ∧
    ((endPart H pos k success).parts = k.parts ∨
      ∃ p rest length failed, k.parts = p :: rest ∧ p.isFile = true ∧
        (endPart H pos k success).parts =
          { p with length := length, failed := failed } :: rest) := by
  unfold endPart
  dsimp only
  generalize hk : (if k.partIsFile = true ∧ k.started = true then
    { k.callback H pos (.onEnd (!k.aborted && success)) with started := false } else k) = k'
  have hsame : k'.parts = k.parts ∧ k'.partsCount = k.partsCount ∧
      k'.fieldsTotal = k.fieldsTotal := by
    subst hk
    split_ifs <;> exact ⟨rfl, rfl, rfl⟩
  obtain ⟨hparts, hcount, htotal⟩ := hsame
  by_cases hcurrent : k'.currentPart = true
  · rw [if_pos hcurrent]
    refine ⟨hcount, htotal, ?_⟩
    unfold PartSink.modifyPart
    dsimp only
    rw [hparts]
    cases hp : k.parts with
    | nil => exact Or.inl rfl
    | cons p rest =>
        cases hfile : p.isFile with
        | false => exact Or.inl (by simp [hfile])
        | true => exact Or.inr ⟨p, rest, k'.receivedLength, p.failed || !success || k'.aborted, rfl,
            hfile, by simp [hfile]⟩
  · rw [if_neg hcurrent]
    exact ⟨hcount, htotal, Or.inl hparts⟩

theorem endPart_aborted {H : Handler} {k : PartSink} {pos : Nat} {success : Bool}
    (h : (endPart H pos k success).aborted = false) : k.aborted = false := by
  rcases (endPart_trace H pos k success).2.2.2 with ⟨-, -, -, ha⟩ | ⟨-, -, ha⟩
  · rw [ha] at h
    exact (Bool.or_eq_false_iff.mp h).1
  · exact ha.symm.trans h

theorem PartSink.Limits.endPart {k : PartSink} (h : k.Limits) (H : Handler) (pos : Nat)
    (success : Bool) : (endPart H pos k success).Limits := by
  obtain ⟨hcount, htotal, hparts | ⟨p, rest, length, failed, hk, hfile, hparts⟩⟩ :=
    endPart_records H pos k success
  · exact h.of_eq hparts hcount htotal
  · refine h.setHead hk hparts hcount ?_ ?_ ?_
    · intro hp
      have hno : ∀ {P : Prop}, p.isFile = false → P :=
        fun hf => absurd (hf.symm.trans hfile) (by decide)
      exact ⟨hp.name, hno, hno, hno⟩
    · rw [htotal, h.total, hk, bufferedLength_file hfile, bufferedLength_file (by exact hfile)]
    · rw [htotal]
      exact h.totalMost

/-! ## The machine -/

/-- The machine keeps its limits. While a part header is collected for which a record may be
made, there is room for the record. -/
structure PostStream.Limits (s : PostStream) : Prop where
  sink : s.sink.Limits
  header : s.partHeader.length < postStreamMaxPartHeader
  hold : s.hold.length ≤ s.delim.length
  room : s.state = .partHeader → s.sink.aborted = false → s.sink.partsCount < postStreamMaxParts

theorem startPostStream_limits (header : HttpRequestHeader) (boundary : List UInt8)
    (discard : Bool) : (startPostStream header boundary discard).Limits := by
  refine ⟨⟨rfl, Nat.zero_le _, ?_, rfl, Nat.zero_le _⟩, Nat.zero_lt_succ _, Nat.zero_le _, ?_⟩
  · intro p hp
    cases hp
  · intro hs
    cases hs

/-- One more byte of a part header: a full buffer has been cut to its last bytes before. -/
theorem pushHeaderByte_length (partHeader : List UInt8) (c : UInt8)
    (h : partHeader.length < postStreamMaxPartHeader) :
    (pushHeaderByte partHeader c).length < postStreamMaxPartHeader := by
  unfold pushHeaderByte
  rw [List.length_append]
  split_ifs with hfull
  · rw [List.length_drop]
    unfold postStreamMaxPartHeader at *
    simp only [List.length_cons, List.length_nil]
    omega
  · simp only [List.length_cons, List.length_nil]
    omega

/-- A move that leaves the receiving side and the part header alone. -/
theorem PostStream.Limits.of_eq {s s' : PostStream} (h : s.Limits) (hsink : s'.sink = s.sink)
    (hheader : s'.partHeader = s.partHeader) (hhold : s'.hold.length ≤ s'.delim.length)
    (hs : s'.state ≠ .partHeader) : s'.Limits := by
  refine ⟨?_, ?_, hhold, fun hs' => absurd hs' hs⟩
  · rw [hsink]
    exact h.sink
  · rw [hheader]
    exact h.header

/-- **Every move keeps the limits.** -/
theorem Step.limits {H : Handler} {c c' : Config} (hstep : Step H c c') (hwf : c.1.WF)
    (h : c.1.Limits) : c'.1.Limits := by
  cases hstep with
  | @skip s run rest hs hh hr => exact h.of_eq rfl rfl h.hold (by simp [PostStream.take, hs])
  | @emitRun s run rest hs hh hr =>
      exact ⟨h.sink.emit H _ run, h.header, h.hold, fun hs' => absurd (hs.symm.trans hs') (by decide)⟩
  | @push s c rest hs hc hl =>
      replace hwf : s.WF := hwf
      have hneedle : s.needle.length ≤ s.delim.length := by
        unfold PostStream.needle
        split_ifs
        · exact Nat.le_refl _
        · rw [List.length_drop]
          omega
      refine h.of_eq rfl rfl ?_ ?_
      · show (s.hold ++ [c]).length ≤ s.delim.length
        rw [List.length_append]
        simp only [List.length_cons, List.length_nil]
        omega
      · rcases hs with hs | hs <;> simp [PostStream.pushHold, PostStream.take, hs]
  | @found s c rest hs hc hl => exact h.of_eq rfl rfl (Nat.zero_le _) (by simp [PostStream.found])
  | @preambleMismatch s c rest hs hh hc => exact h.of_eq rfl rfl (Nat.zero_le _) (by simp [hs])
  | @dataMismatch s b c t rest hs hh hc =>
      have hkeep := rebase_prefix s.delim t
      exact ⟨PartSink.Limits.emitEach H _ (b :: (rebase s.delim t).1) h.sink, h.header,
        hkeep.length_le, fun hs' => absurd (hs.symm.trans hs') (by decide)⟩
  | @delimFirst s c rest hs hh =>
      replace hwf : s.WF := hwf
      refine h.of_eq rfl rfl ?_ (by simp [PostStream.pushHold, PostStream.take, hs])
      show (s.hold ++ [c]).length ≤ s.delim.length
      have := hwf.delim
      rw [hh]
      simp only [List.nil_append, List.length_cons, List.length_nil]
      omega
  | @delimSecond s x c rest hs hh =>
      have hend : (if s.delimInData then endPart H (s.pushHold [c]).taken.length s.sink true
          else s.sink).Limits := by
        split_ifs
        · exact h.sink.endPart H _ true
        · exact h.sink
      rcases delimCheck_cases H (s.pushHold [c]) with ⟨-, heq⟩ | ⟨-, heq⟩ | ⟨-, -, -, heq⟩ |
        ⟨-, -, -, heq⟩
      · rw [heq]
        exact ⟨hend, h.header, Nat.zero_le _, by simp⟩
      · rw [heq]
        exact ⟨hend, h.header, Nat.zero_le _, by simp⟩
      · rw [heq]
        have hkeep := rebase_prefix s.delim (s.pushHold [c]).hold
        refine ⟨?_, h.header, hkeep.length_le, by simp⟩
        exact PartSink.Limits.emitEach H _ _ (h.sink.emit H _ s.delim)
      · rw [heq]
        exact ⟨h.sink, h.header, Nat.zero_le _, by simp⟩
  | @afterBoundary s c rest hs =>
      have hcrlf : crlf.length < postStreamMaxPartHeader := by decide
      refine ⟨h.sink.of_eq rfl rfl rfl, hcrlf, Nat.zero_le _, ?_⟩
      -- the part limit is applied here: with all records in use the rest is only skipped
      intro _ hab
      have hroom := (Bool.or_eq_false_iff.mp hab).2
      exact Nat.not_le.mp (of_decide_eq_false hroom)
  | @header s c rest hs hroom hmore =>
      exact ⟨h.sink, pushHeaderByte_length _ _ h.header, h.hold, h.room⟩
  | @headerTooLong s c rest hs hfull hab => exact h.of_eq rfl rfl h.hold (by simp)
  | @headerDone s c rest hs hroom hdone =>
      have hheader := pushHeaderByte_length s.partHeader c h.header
      have hstate : ∀ ok : Bool, (if ok then PostStreamState.partData else .error) ≠ .partHeader := by
        decide
      rcases beginPart_cases H (s.pushHeader c) with ⟨-, heq⟩ | ⟨-, -, heq⟩ | ⟨hab, -, heq⟩
      · rw [heq]
        exact ⟨h.sink.of_eq rfl rfl rfl, hheader, h.hold, fun hs' => absurd hs' (hstate true)⟩
      · rw [heq]
        exact ⟨h.sink.of_eq rfl rfl rfl, hheader, h.hold, fun hs' => absurd hs' (hstate false)⟩
      · rw [heq]
        refine ⟨?_, hheader, h.hold, fun hs' => absurd hs' (hstate true)⟩
        have hk : PartSink.Limits { s.sink with currentPart := false } := h.sink.of_eq rfl rfl rfl
        exact hk.openPart (h.room hs hab) H _ _ _
  | @epilogue s rest hs => exact h.of_eq rfl rfl h.hold (by simp [PostStream.take, hs])

theorem Steps.limits {H : Handler} {c c' : Config} (hsteps : Steps H c c') (hwf : c.1.WF)
    (h : c.1.Limits) : c'.1.Limits := by
  induction hsteps with
  | refl => exact h
  | tail hsteps hstep ih => exact hstep.limits (Steps.wf hsteps hwf) ih

/-! ## Whole streams -/

theorem postStreamFinish_limits {s : PostStream} (h : s.Limits) (H : Handler) (success : Bool) :
    (postStreamFinish H s success).Limits := by
  unfold postStreamFinish
  split_ifs
  · obtain ⟨hcount, -, -⟩ := endPart_records H s.taken.length s.sink success
    refine ⟨h.sink.endPart H s.taken.length success, h.header, h.hold, ?_⟩
    intro hs hab
    have hab' : s.sink.aborted = false := endPart_aborted hab
    show (endPart H s.taken.length s.sink success).partsCount < _
    rw [hcount]
    exact h.room hs hab'
  · exact h

theorem StreamInv.feed_limits {H : Handler} {delim body : List UInt8} {discard : Bool}
    {s : PostStream} (hs : StreamInv H delim body discard s) (h : s.Limits) (data : List UInt8) :
    (postStreamFeed H s data).1.Limits := by
  obtain ⟨s', rest, hsteps, hend⟩ := postStreamFeed_steps H s data hs.inv.wf hs.active
  have hcount : (s.count data.length).Limits := ⟨h.sink, h.header, h.hold, h.room⟩
  have h' : s'.Limits := hsteps.limits (hs.inv.wf.count _) hcount
  rcases hend with ⟨-, heq⟩ | ⟨-, -, heq⟩
  · rw [heq]
    exact h'
  · rw [heq]
    unfold feedEnd
    split_ifs
    · exact postStreamFinish_limits h' H false
    · exact h'
    · exact h'

/-- **No stream passes a limit**, whatever its body is. -/
theorem runActions_limits (H : Handler) (header : HttpRequestHeader) (boundary : List UInt8)
    (discard : Bool) (hb : boundary ≠ []) (acts : List StreamAction) :
    (runActions H (startPostStream header boundary discard) acts).Limits := by
  induction acts using List.reverseRecOn with
  | nil => exact startPostStream_limits header boundary discard
  | append_singleton acts a ih =>
      rw [runActions_snoc]
      cases a with
      | feed data => exact (runActions_inv H header boundary discard hb acts).feed_limits ih data
      | disconnect => exact postStreamFinish_limits ih H false

end CWebUI.Post
