import Mathlib.Logic.Relation
import CWebUI.Basic.Lists
import CWebUI.Post.Stream

set_option autoImplicit false

/-! # What the streaming machine does, step by step

`postStreamFeed` is a loop around loops. This file says once what it can do: a
configuration is the machine with the bytes of the current call that it has not looked at
yet, and `Step` lists the elementary moves between configurations. `feedLoop_steps` shows
that the loop is a sequence of such moves that uses up the data, or ends in the error
state. Every property of whole runs is then proved by looking at the moves one by one.
-/

namespace CWebUI.Post

open ByteString CWebUI.Http

/-! ## Aligning the hold buffer -/

/-- Data that is passed on byte by byte. -/
def PostStream.emitEach (H : Handler) (s : PostStream) (bytes : List UInt8) : PostStream :=
  { s with sink := bytes.foldl (fun k b => emitPartData H s.taken.length k [b]) s.sink }

/-- What `rebaseHold` does to the held bytes: those it gives out, and those it keeps. -/
def rebase (needle : List UInt8) : List UInt8 → List UInt8 × List UInt8
  | [] => ([], [])
  | b :: h =>
      if b :: h <+: needle then ([], b :: h)
      else (b :: (rebase needle h).1, (rebase needle h).2)

theorem rebase_append (needle h : List UInt8) :
    (rebase needle h).1 ++ (rebase needle h).2 = h := by
  induction h with
  | nil => rfl
  | cons b h ih =>
      unfold rebase
      split_ifs
      · rfl
      · simpa using ih

theorem rebase_prefix (needle h : List UInt8) : (rebase needle h).2 <+: needle := by
  induction h with
  | nil => exact List.nil_prefix
  | cons b h ih =>
      unfold rebase
      split_ifs with hp
      · exact hp
      · exact ih

theorem rebase_length (needle h : List UInt8) : (rebase needle h).2.length ≤ h.length := by
  have := congrArg List.length (rebase_append needle h)
  simp only [List.length_append] at this
  omega

/-- `rebaseHold` in one line. -/
theorem rebaseHold_eq (H : Handler) (needle : List UInt8) (n : Nat) (s : PostStream)
    (hn : s.hold.length ≤ n) :
    rebaseHold H needle n s =
      { s.emitEach H (rebase needle s.hold).1 with hold := (rebase needle s.hold).2 } := by
  induction n generalizing s with
  | zero =>
      have hnil : s.hold = [] := List.length_eq_zero_iff.mp (by omega)
      rw [hnil]
      show s = { s with hold := [] }
      rw [← hnil]
  | succ n ih =>
      cases hh : s.hold with
      | nil =>
          simp only [rebaseHold, hh, rebase]
          show s = { s with hold := [] }
          rw [← hh]
      | cons b h =>
          by_cases hp : b :: h <+: needle
          · simp only [rebaseHold, hh, rebase, hp, not_true_eq_false, and_false, if_false, if_true]
            show s = { s with hold := b :: h }
            rw [← hh]
          · have hlen : h.length ≤ n := by rw [hh] at hn; simpa using hn
            simp only [rebaseHold, hh, rebase, hp, if_false]
            rw [if_pos (by simp)]
            exact ih { s.emit H [b] with hold := h } hlen

/-! ## Configurations and moves -/

/-- The machine with the bytes of the current call that are left. -/
abbrev Config := PostStream × List UInt8

/-- The pattern a scanning machine searches for: in the preamble the first boundary, which
has no CRLF before it. -/
def PostStream.needle (s : PostStream) : List UInt8 :=
  if s.state = .partData then s.delim else s.delim.drop 2

/-- The machine is searching for its pattern. -/
def PostStream.Scanning (s : PostStream) : Prop := s.state = .preamble ∨ s.state = .partData

/-- The machine after the last bytes of its pattern. -/
def PostStream.found (s : PostStream) (bytes : List UInt8) : PostStream :=
  { s.take bytes with
    hold := []
    delimInData := s.state == .partData
    state := .delimCheck }

/-- The machine with one more byte of a part header. -/
def PostStream.pushHeader (s : PostStream) (c : UInt8) : PostStream :=
  { s.take [c] with partHeader := pushHeaderByte s.partHeader c }

/-- The machine with more bytes held back. -/
def PostStream.pushHold (s : PostStream) (bytes : List UInt8) : PostStream :=
  { s.take bytes with hold := s.hold ++ bytes }

@[simp] theorem pushHold_nil (s : PostStream) : s.pushHold [] = s := by
  simp [PostStream.pushHold, PostStream.take]

@[simp] theorem pushHold_pushHold (s : PostStream) (a b : List UInt8) :
    (s.pushHold a).pushHold b = s.pushHold (a ++ b) := by
  simp [PostStream.pushHold, PostStream.take]

@[simp] theorem found_pushHold (s : PostStream) (a b : List UInt8) :
    (s.pushHold a).found b = s.found (a ++ b) := by
  simp [PostStream.pushHold, PostStream.take, PostStream.found]

/-- The elementary moves of the streaming machine. -/
inductive Step (H : Handler) : Config → Config → Prop where
  /-- Bytes of the preamble that cannot start a boundary. -/
  | skip {s : PostStream} {run rest : List UInt8} (hs : s.state = .preamble)
      (hh : s.hold = []) (hr : ∀ c ∈ run, s.needle.head? ≠ some c) :
      Step H (s, run ++ rest) (s.take run, rest)
  /-- Bytes of a part that cannot start a boundary. -/
  | emitRun {s : PostStream} {run rest : List UInt8} (hs : s.state = .partData)
      (hh : s.hold = []) (hr : ∀ c ∈ run, s.needle.head? ≠ some c) :
      Step H (s, run ++ rest) ((s.emit H run).take run, rest)
  /-- A byte that continues the pattern is held back. -/
  | push {s : PostStream} {c : UInt8} {rest : List UInt8} (hs : s.Scanning)
      (hc : s.needle[s.hold.length]? = some c) (hl : s.hold.length + 1 < s.needle.length) :
      Step H (s, c :: rest) (s.pushHold [c], rest)
  /-- The byte that completes the pattern. -/
  | found {s : PostStream} {c : UInt8} {rest : List UInt8} (hs : s.Scanning)
      (hc : s.needle[s.hold.length]? = some c) (hl : s.hold.length + 1 = s.needle.length) :
      Step H (s, c :: rest) (s.found [c], rest)
  /-- A mismatch in the preamble: the held bytes are dropped. -/
  | preambleMismatch {s : PostStream} {c : UInt8} {rest : List UInt8} (hs : s.state = .preamble)
      (hh : s.hold ≠ []) (hc : s.needle[s.hold.length]? ≠ some c) :
      Step H (s, c :: rest) ({ s with hold := [] }, c :: rest)
  /-- A mismatch in a part: the held bytes are given out until the rest starts the pattern. -/
  | dataMismatch {s : PostStream} {b c : UInt8} {h rest : List UInt8} (hs : s.state = .partData)
      (hh : s.hold = b :: h) (hc : s.needle[s.hold.length]? ≠ some c) :
      Step H (s, c :: rest)
        ({ s.emitEach H (b :: (rebase s.delim h).1) with hold := (rebase s.delim h).2 }, c :: rest)
  /-- The first byte behind a boundary. -/
  | delimFirst {s : PostStream} {c : UInt8} {rest : List UInt8} (hs : s.state = .delimCheck)
      (hh : s.hold = []) : Step H (s, c :: rest) (s.pushHold [c], rest)
  /-- The second byte behind a boundary decides what it is. -/
  | delimSecond {s : PostStream} {x c : UInt8} {rest : List UInt8} (hs : s.state = .delimCheck)
      (hh : s.hold = [x]) : Step H (s, c :: rest) (delimCheck H (s.pushHold [c]), rest)
  /-- A part header is started as soon as there is a byte for it. -/
  | afterBoundary {s : PostStream} {c : UInt8} {rest : List UInt8}
      (hs : s.state = .afterBoundary) : Step H (s, c :: rest) (afterBoundary s, c :: rest)
  /-- A byte of a part header. -/
  | header {s : PostStream} {c : UInt8} {rest : List UInt8} (hs : s.state = .partHeader)
      (hroom : s.partHeader.length + 1 < postStreamMaxPartHeader ∨ s.sink.aborted = true)
      (hmore : headerComplete (s.pushHeader c).partHeader = false) :
      Step H (s, c :: rest) (s.pushHeader c, rest)
  /-- A part header that outgrows its buffer. -/
  | headerTooLong {s : PostStream} {c : UInt8} {rest : List UInt8} (hs : s.state = .partHeader)
      (hfull : postStreamMaxPartHeader ≤ s.partHeader.length + 1)
      (hab : s.sink.aborted = false) : Step H (s, c :: rest) ({ s with state := .error }, c :: rest)
  /-- The byte that completes a part header: the part begins, or the header is refused. -/
  | headerDone {s : PostStream} {c : UInt8} {rest : List UInt8} (hs : s.state = .partHeader)
      (hroom : s.partHeader.length + 1 < postStreamMaxPartHeader ∨ s.sink.aborted = true)
      (hdone : headerComplete (s.pushHeader c).partHeader = true) :
      Step H (s, c :: rest)
        ({ (beginPart H (s.pushHeader c)).1 with
            state := if (beginPart H (s.pushHeader c)).2 then .partData else .error }, rest)
  /-- Whatever follows the closing boundary is ignored. -/
  | epilogue {s : PostStream} {rest : List UInt8} (hs : s.state = .epilogue) :
      Step H (s, rest) (s.take rest, [])

/-- A sequence of moves. -/
abbrev Steps (H : Handler) : Config → Config → Prop := Relation.ReflTransGen (Step H)

/-! ## Well-formed machines -/

/-- What holds of the hold buffer between two calls. -/
structure PostStream.WF (s : PostStream) : Prop where
  /-- The boundary is not empty. -/
  delim : 3 ≤ s.delim.length
  /-- A scanning machine holds a proper prefix of its pattern. -/
  scan : s.Scanning → s.hold <+: s.needle ∧ s.hold.length < s.needle.length
  check : s.state = .delimCheck → s.hold.length < 2
  header : s.state = .partHeader → s.hold = []

theorem startPostStream_wf (header : HttpRequestHeader) (boundary : List UInt8)
    (discard : Bool) (hb : boundary ≠ []) : (startPostStream header boundary discard).WF where
  delim := by
    have : 0 < boundary.length := List.length_pos_iff.mpr hb
    simp [startPostStream, crlf]
    omega
  scan := by
    intro _
    have : 0 < boundary.length := List.length_pos_iff.mpr hb
    refine ⟨List.nil_prefix, ?_⟩
    simp [startPostStream, PostStream.needle, crlf]
    omega
  check := by simp [startPostStream]
  header := by simp [startPostStream]

/-- The header record after the collected part header has been read. -/
def PostStream.partFields (s : PostStream) : HttpRequestHeader :=
  (analyseFormDataLine s.partHeader
    { s.header with contentDisposition := none, contentType := none }).1

/-- Beginning a part: after an abort nothing is read any more, a header that cannot be read
is refused, and otherwise a part is opened with the names the header gave. -/
theorem beginPart_cases (H : Handler) (s : PostStream) :
    (s.sink.aborted = true ∧ beginPart H s =
      ({ s with sink := { s.sink with currentPart := false, partIsFile := false } }, true)) ∨
    (s.sink.aborted = false ∧ s.partFields.error = true ∧ beginPart H s =
      ({ s with header := s.partFields, sink := { s.sink with currentPart := false } }, false)) ∨
    (s.sink.aborted = false ∧ s.partFields.error = false ∧ beginPart H s =
      ({ s with
          header := s.partFields
          sink := openPart H s.taken.length { s.sink with currentPart := false }
            (extractDispositionValue s.partFields.contentDisposition (ascii "name="))
            (extractDispositionValue s.partFields.contentDisposition (ascii "filename=")) },
        true)) := by
  unfold beginPart
  by_cases hab : s.sink.aborted = true
  · exact .inl ⟨hab, by simp only [if_pos hab]⟩
  · have hab' : s.sink.aborted = false := by simpa using hab
    simp only [if_neg hab]
    by_cases he : s.partFields.error = true
    · refine .inr (.inl ⟨hab', he, ?_⟩)
      rw [PostStream.partFields] at he
      simp only [if_pos he]
      rfl
    · refine .inr (.inr ⟨hab', by simpa using he, ?_⟩)
      rw [PostStream.partFields] at he
      simp only [if_neg he]
      rfl

/-- Beginning a part changes the header record and the receiving side only. -/
theorem beginPart_frame (H : Handler) (s : PostStream) :
    ∃ header sink, (beginPart H s).1 = { s with header := header, sink := sink } := by
  rcases beginPart_cases H s with ⟨-, h⟩ | ⟨-, -, h⟩ | ⟨-, -, h⟩
  · exact ⟨_, _, by rw [h]⟩
  · exact ⟨_, _, by rw [h]⟩
  · exact ⟨_, _, by rw [h]⟩

/-- A machine that does not scan, with its hold buffer empty, is well formed. -/
theorem PostStream.WF.of_hold_nil {s : PostStream} (hd : 3 ≤ s.delim.length)
    (hh : s.hold = []) : s.WF where
  delim := hd
  scan := by
    intro hs
    rw [hh]
    refine ⟨List.nil_prefix, ?_⟩
    rcases hs with hs | hs
    · simp [PostStream.needle, hs]
      omega
    · simp [PostStream.needle, hs]
      omega
  check := by simp [hh]
  header := fun _ => hh

/-- A machine in the data of a part with a proper prefix of the delimiter held back is well
formed. -/
theorem PostStream.WF.of_partData {s : PostStream} (hd : 3 ≤ s.delim.length)
    (hs : s.state = .partData) (hp : s.hold <+: s.delim) (hl : s.hold.length < s.delim.length) :
    s.WF where
  delim := hd
  scan := by
    intro _
    simp only [PostStream.needle, hs, if_true]
    exact ⟨hp, hl⟩
  check := by simp [hs]
  header := by simp [hs]

/-- The two bytes behind a boundary: the end, the next part, or no boundary at all. In the
last case the pattern was data of the part, or text of the preamble. -/
theorem delimCheck_cases (H : Handler) (s : PostStream) :
    (s.hold = [45, 45] ∧ delimCheck H s = { s with
      hold := []
      state := .epilogue
      sink := if s.delimInData then endPart H s.taken.length s.sink true else s.sink }) ∨
    (s.hold = crlf ∧ delimCheck H s = { s with
      hold := []
      state := .afterBoundary
      sink := if s.delimInData then endPart H s.taken.length s.sink true else s.sink }) ∨
    (s.hold ≠ [45, 45] ∧ s.hold ≠ crlf ∧ s.delimInData = true ∧ delimCheck H s =
      { (s.emit H s.delim).emitEach H (rebase s.delim s.hold).1 with
        hold := (rebase s.delim s.hold).2
        state := .partData }) ∨
    (s.hold ≠ [45, 45] ∧ s.hold ≠ crlf ∧ s.delimInData = false ∧ delimCheck H s =
      { s with hold := [], state := .preamble }) := by
  unfold delimCheck
  by_cases h1 : s.hold = [45, 45]
  · refine .inl ⟨h1, ?_⟩
    rw [if_pos h1]
    cases s.delimInData <;> rfl
  · rw [if_neg h1]
    by_cases h2 : s.hold = crlf
    · refine .inr (.inl ⟨h2, ?_⟩)
      rw [if_pos h2]
      cases s.delimInData <;> rfl
    · rw [if_neg h2]
      by_cases h3 : s.delimInData = true
      · refine .inr (.inr (.inl ⟨h1, h2, h3, ?_⟩))
        rw [if_pos h3]
        dsimp only
        rw [rebaseHold_eq H _ _ _ (Nat.le_refl _)]
        rfl
      · refine .inr (.inr (.inr ⟨h1, h2, by simpa using h3, ?_⟩))
        rw [if_neg h3]

theorem delimCheck_ne_error (H : Handler) (s : PostStream) :
    (delimCheck H s).state ≠ .error := by
  rcases delimCheck_cases H s with ⟨-, h⟩ | ⟨-, h⟩ | ⟨-, -, -, h⟩ | ⟨-, -, -, h⟩
  all_goals
    rw [h]
    simp

theorem delimCheck_wf (H : Handler) (s : PostStream) (hd : 3 ≤ s.delim.length)
    (hl : s.hold.length = 2) : (delimCheck H s).WF := by
  rcases delimCheck_cases H s with ⟨-, h⟩ | ⟨-, h⟩ | ⟨-, -, -, h⟩ | ⟨-, -, -, h⟩
  · rw [h]
    exact PostStream.WF.of_hold_nil hd rfl
  · rw [h]
    exact PostStream.WF.of_hold_nil hd rfl
  · rw [h]
    apply PostStream.WF.of_partData
    · exact hd
    · rfl
    · exact rebase_prefix s.delim s.hold
    · have := rebase_length s.delim s.hold
      show (rebase s.delim s.hold).2.length < s.delim.length
      omega
  · rw [h]
    exact PostStream.WF.of_hold_nil hd rfl

/-- **The hold buffer stays well formed** from move to move. -/
theorem Step.wf {H : Handler} {c c' : Config} (h : Step H c c') (hwf : c.1.WF) : c'.1.WF := by
  cases h with
  | skip hs hh hr => exact ⟨hwf.delim, hwf.scan, hwf.check, hwf.header⟩
  | emitRun hs hh hr => exact ⟨hwf.delim, hwf.scan, hwf.check, hwf.header⟩
  | @push s c rest hs hc hl =>
      refine ⟨hwf.delim, fun _ => ⟨?_, ?_⟩, ?_, ?_⟩
      · exact ListLemmas.prefix_snoc (hwf.scan hs).1 hc
      · show (s.hold ++ [c]).length < s.needle.length
        simpa using hl
      · intro h
        rcases hs with hs | hs <;> exact absurd (hs.symm.trans h) (by decide)
      · intro h
        rcases hs with hs | hs <;> exact absurd (hs.symm.trans h) (by decide)
  | found hs hc hl => exact PostStream.WF.of_hold_nil hwf.delim rfl
  | preambleMismatch hs hh hc => exact PostStream.WF.of_hold_nil hwf.delim rfl
  | @dataMismatch s b c h rest hs hh hc =>
      have hlt : s.hold.length < s.delim.length := by
        have := (hwf.scan (.inr hs)).2
        simpa [PostStream.needle, hs] using this
      apply PostStream.WF.of_partData
      · exact hwf.delim
      · exact hs
      · exact rebase_prefix s.delim h
      · have hle := rebase_length s.delim h
        rw [hh, List.length_cons] at hlt
        show (rebase s.delim h).2.length < s.delim.length
        omega
  | @delimFirst s c rest hs hh =>
      refine ⟨hwf.delim, ?_, ?_, ?_⟩
      · rintro (h | h) <;> exact absurd (hs.symm.trans h) (by decide)
      · intro _
        show (s.hold ++ [c]).length < 2
        rw [hh]
        exact Nat.lt_succ_self 1
      · intro h
        exact absurd (hs.symm.trans h) (by decide)
  | @delimSecond s x c rest hs hh =>
      apply delimCheck_wf
      · exact hwf.delim
      · show (s.hold ++ [c]).length = 2
        rw [hh]
        rfl
  | afterBoundary hs => exact PostStream.WF.of_hold_nil hwf.delim rfl
  | header hs hroom hmore => exact PostStream.WF.of_hold_nil hwf.delim (hwf.header hs)
  | headerTooLong hs hfull hab => exact PostStream.WF.of_hold_nil hwf.delim (hwf.header hs)
  | @headerDone s c rest hs hroom hdone =>
      obtain ⟨header, sink, hb⟩ := beginPart_frame H (s.pushHeader c)
      refine PostStream.WF.of_hold_nil ?_ ?_
      · show 3 ≤ (beginPart H (s.pushHeader c)).1.delim.length
        rw [hb]
        exact hwf.delim
      · show (beginPart H (s.pushHeader c)).1.hold = []
        rw [hb]
        exact hwf.header hs
  | epilogue hs => exact ⟨hwf.delim, hwf.scan, hwf.check, hwf.header⟩

/-- No byte is lost: what has been consumed and what is left make up the same bytes. -/
theorem Step.taken {H : Handler} {c c' : Config} (h : Step H c c') :
    c'.1.taken ++ c'.2 = c.1.taken ++ c.2 ∧ c'.1.delim = c.1.delim ∧
      c'.1.active = c.1.active := by
  cases h with
  | skip hs hh hr => exact ⟨by simp [PostStream.take], rfl, rfl⟩
  | emitRun hs hh hr => exact ⟨by simp [PostStream.take, PostStream.emit], rfl, rfl⟩
  | push hs hc hl => exact ⟨by simp [PostStream.pushHold, PostStream.take], rfl, rfl⟩
  | found hs hc hl => exact ⟨by simp [PostStream.found, PostStream.take], rfl, rfl⟩
  | preambleMismatch hs hh hc => exact ⟨rfl, rfl, rfl⟩
  | dataMismatch hs hh hc => exact ⟨rfl, rfl, rfl⟩
  | delimFirst hs hh => exact ⟨by simp [PostStream.pushHold, PostStream.take], rfl, rfl⟩
  | @delimSecond s x c rest hs hh =>
      have hpush : (s.pushHold [c]).taken ++ rest = s.taken ++ c :: rest := by
        simp [PostStream.pushHold, PostStream.take]
      rcases delimCheck_cases H (s.pushHold [c]) with ⟨-, h⟩ | ⟨-, h⟩ | ⟨-, -, -, h⟩ | ⟨-, -, -, h⟩
      all_goals
        rw [h]
        exact ⟨hpush, rfl, rfl⟩
  | afterBoundary hs => exact ⟨rfl, rfl, rfl⟩
  | header hs hroom hmore => exact ⟨by simp [PostStream.pushHeader, PostStream.take], rfl, rfl⟩
  | headerTooLong hs hfull hab => exact ⟨rfl, rfl, rfl⟩
  | @headerDone s c rest hs hroom hdone =>
      obtain ⟨header, sink, hb⟩ := beginPart_frame H (s.pushHeader c)
      rw [hb]
      exact ⟨by simp [PostStream.pushHeader, PostStream.take], rfl, rfl⟩
  | epilogue hs => exact ⟨by simp [PostStream.take], rfl, rfl⟩

theorem Steps.taken {H : Handler} {c c' : Config} (h : Steps H c c') :
    c'.1.taken ++ c'.2 = c.1.taken ++ c.2 ∧ c'.1.delim = c.1.delim ∧
      c'.1.active = c.1.active := by
  induction h with
  | refl => exact ⟨rfl, rfl, rfl⟩
  | tail _ hstep ih =>
      obtain ⟨h1, h2, h3⟩ := hstep.taken
      exact ⟨h1.trans ih.1, h2.trans ih.2.1, h3.trans ih.2.2⟩

/-! ## The loops as sequences of moves -/

/-- Filling the hold buffer is a sequence of moves: it stops before the end of the pattern,
at a byte that does not continue it, or it completes the pattern. -/
theorem fillHold_steps (H : Handler) (rest : List UInt8) (s : PostStream) (hs : s.Scanning)
    (hl : s.hold.length < s.needle.length) :
    ∃ pushed rest', fillHold s.needle s.hold rest = (s.hold ++ pushed, rest') ∧
      rest = pushed ++ rest' ∧
      ((s.hold.length + pushed.length < s.needle.length ∧
        Steps H (s, rest) (s.pushHold pushed, rest') ∧
        ∀ c t, rest' = c :: t → s.needle[s.hold.length + pushed.length]? ≠ some c) ∨
      (s.hold.length + pushed.length = s.needle.length ∧ pushed ≠ [] ∧
        Steps H (s, rest) (s.found pushed, rest'))) := by
  induction rest generalizing s with
  | nil =>
      refine ⟨[], [], by simp [fillHold], rfl, .inl ⟨by simpa using hl, ?_, by simp⟩⟩
      rw [pushHold_nil]
  | cons c rest ih =>
      by_cases hc : s.needle[s.hold.length]? = some c
      · by_cases hfull : s.hold.length + 1 = s.needle.length
        · -- the pattern is complete, the next round of the loop stops
          refine ⟨[c], rest, ?_, rfl, .inr ⟨by simpa using hfull, by simp, ?_⟩⟩
          · cases rest with
            | nil => simp [fillHold, hc]
            | cons d t =>
                have hnone : s.needle[(s.hold ++ [c]).length]? = none := by
                  rw [List.getElem?_eq_none_iff]
                  simp
                  omega
                simp only [fillHold, hc, if_true, hnone]
                simp
          · exact Relation.ReflTransGen.single (Step.found hs hc hfull)
        · have hlt : s.hold.length + 1 < s.needle.length := by omega
          obtain ⟨pushed, rest', hfill, hrest, hcase⟩ := ih (s.pushHold [c]) hs (by
            show (s.hold ++ [c]).length < s.needle.length
            simpa using hlt)
          have hstep : Step H (s, c :: rest) (s.pushHold [c], rest) := Step.push hs hc hlt
          have hlen : (s.pushHold [c]).hold.length + pushed.length
              = s.hold.length + (c :: pushed).length := by
            show (s.hold ++ [c]).length + pushed.length = _
            simp
            omega
          refine ⟨c :: pushed, rest', ?_, by simp [hrest], ?_⟩
          · simp only [fillHold, hc, if_true]
            refine hfill.trans ?_
            show ((s.hold ++ [c]) ++ pushed, rest') = _
            simp
          · rw [hlen] at hcase
            rcases hcase with ⟨h1, h2, h3⟩ | ⟨h1, -, h2⟩
            · refine .inl ⟨h1, ?_, h3⟩
              rw [pushHold_pushHold] at h2
              exact Relation.ReflTransGen.head hstep h2
            · refine .inr ⟨h1, by simp, ?_⟩
              rw [found_pushHold] at h2
              exact Relation.ReflTransGen.head hstep h2
      · refine ⟨[], c :: rest, by simp [fillHold, hc], rfl, .inl ⟨by simpa using hl, ?_, ?_⟩⟩
        · rw [pushHold_nil]
        · intro d t hd
          obtain ⟨rfl, -⟩ := List.cons_eq_cons.mp hd
          simpa using hc

/-- One call of `scanForNeedle`, as moves: the pattern was found, or the data is used up. -/
def ScanDone (H : Handler) (s : PostStream) (data : List UInt8)
    (r : PostStream × List UInt8 × Bool) : Prop :=
  if r.2.2 then
    Steps H (s, data) ({ r.1 with delimInData := s.state == .partData, state := .delimCheck }, r.2.1) ∧
      r.2.1.length < data.length
  else Steps H (s, data) (r.1, []) ∧ r.2.1 = [] ∧ r.1.state = s.state

/-- Moves before a call of `scanForNeedle` can be put in front of it. -/
theorem ScanDone.of_steps {H : Handler} {s s' : PostStream} {data data' : List UInt8}
    {r : PostStream × List UInt8 × Bool} (h : Steps H (s, data) (s', data'))
    (hs : s'.state = s.state) (hl : data'.length ≤ data.length) (hr : ScanDone H s' data' r) :
    ScanDone H s data r := by
  unfold ScanDone at hr ⊢
  split_ifs with hf
  · rw [if_pos hf, hs] at hr
    exact ⟨h.trans hr.1, by omega⟩
  · rw [if_neg hf, hs] at hr
    exact ⟨h.trans hr.1, hr.2⟩

/-- The fast path is a move. What it leaves starts with the first byte of the pattern, if
nothing was held back. -/
theorem scanSkip_steps (H : Handler) (s : PostStream) (data : List UInt8) (hs : s.Scanning) :
    ∃ s1 rest, scanSkip H s.needle (s.state == .partData) s data = (s1, rest) ∧
      Steps H (s, data) (s1, rest) ∧ s1.state = s.state ∧ s1.needle = s.needle ∧
      s1.hold = s.hold ∧ rest.length ≤ data.length ∧
      (s.hold = [] → ∀ d t, rest = d :: t → s.needle.head? = some d) := by
  by_cases hh : s.hold = []
  · set run := data.takeWhile (fun c => s.needle.head? ≠ some c) with hrun
    set rest := data.dropWhile (fun c => s.needle.head? ≠ some c) with hrest
    have hsplit : run ++ rest = data := List.takeWhile_append_dropWhile
    have hmem : ∀ c ∈ run, s.needle.head? ≠ some c := by
      intro c hc
      simpa using List.mem_takeWhile_imp hc
    have hlen : rest.length ≤ data.length := by
      rw [← hsplit, List.length_append]
      omega
    have hhead : ∀ d t, rest = d :: t → s.needle.head? = some d := by
      intro d t hd
      have := List.head?_dropWhile_not (fun c => decide (s.needle.head? ≠ some c)) data
      rw [← hrest, hd] at this
      simpa using this
    rcases hs with hs | hs
    · refine ⟨s.take run, rest, ?_, ?_, rfl, rfl, rfl, hlen, fun _ => hhead⟩
      · rw [scanSkip, if_pos hh]
        simp [hs, hrun, hrest]
      · have hstep := @Step.skip H s run rest hs hh hmem
        rw [hsplit] at hstep
        exact Relation.ReflTransGen.single hstep
    · refine ⟨(s.emit H run).take run, rest, ?_, ?_, rfl, rfl, rfl, hlen, fun _ => hhead⟩
      · rw [scanSkip, if_pos hh]
        simp [hs, hrun, hrest]
      · have hstep := @Step.emitRun H s run rest hs hh hmem
        rw [hsplit] at hstep
        exact Relation.ReflTransGen.single hstep
  · refine ⟨s, data, by rw [scanSkip, if_neg hh], Relation.ReflTransGen.refl, rfl, rfl, rfl,
      Nat.le_refl _, fun h => absurd h hh⟩

/-- A mismatch in the data of a part, in one line. -/
theorem scanMismatch_data (H : Handler) (needle : List UInt8) (s : PostStream) (b : UInt8)
    (h : List UInt8) (hh : s.hold = b :: h) : scanMismatch H needle true s =
      { s.emitEach H (b :: (rebase needle h).1) with hold := (rebase needle h).2 } := by
  have htake : s.hold.take 1 = [b] := by rw [hh]; rfl
  have hdrop : s.hold.drop 1 = h := by rw [hh]; rfl
  have hre := rebaseHold_eq H needle h.length { s.emit H [b] with hold := h } (Nat.le_refl _)
  simp only [scanMismatch, if_true, htake, hdrop]
  exact hre

/-- A mismatch is a move, and shortens the hold buffer. -/
theorem scanMismatch_step (H : Handler) (s : PostStream) (c : UInt8) (rest : List UInt8)
    (hs : s.Scanning) (hh : s.hold ≠ []) (hc : s.needle[s.hold.length]? ≠ some c) :
    Step H (s, c :: rest) (scanMismatch H s.needle (s.state == .partData) s, c :: rest) ∧
    (scanMismatch H s.needle (s.state == .partData) s).hold.length + 1 ≤ s.hold.length ∧
    (s.state = .preamble → (scanMismatch H s.needle (s.state == .partData) s).hold = []) ∧
    (scanMismatch H s.needle (s.state == .partData) s).state = s.state ∧
    (scanMismatch H s.needle (s.state == .partData) s).delim = s.delim := by
  obtain ⟨b, h, hbh⟩ := List.exists_cons_of_ne_nil hh
  rcases hs with hs | hs
  · have hm : scanMismatch H s.needle (s.state == .partData) s = { s with hold := [] } := by
      simp [scanMismatch, hs]
    rw [hm]
    exact ⟨Step.preambleMismatch hs hh hc, by simp [hbh], fun _ => rfl, rfl, rfl⟩
  · have hn : s.needle = s.delim := by simp [PostStream.needle, hs]
    have hm : scanMismatch H s.needle (s.state == .partData) s =
        { s.emitEach H (b :: (rebase s.delim h).1) with hold := (rebase s.delim h).2 } := by
      rw [hs, hn]
      exact scanMismatch_data H s.delim s b h hbh
    have hle := rebase_length s.delim h
    rw [hm]
    refine ⟨Step.dataMismatch hs hbh hc, ?_, ?_, rfl, rfl⟩
    · rw [hbh, List.length_cons]
      exact Nat.succ_le_succ hle
    · intro hp
      exact absurd (hs.symm.trans hp) (by decide)

/-- **`scanForNeedle` is a sequence of moves**, given enough rounds. -/
theorem scanForNeedle_steps (H : Handler) (n : Nat) (s : PostStream) (data : List UInt8)
    (hs : s.Scanning) (hl : s.hold.length < s.needle.length)
    (hn : 2 * data.length + s.hold.length + 1 ≤ n) :
    ScanDone H s data (scanForNeedle H s.needle (s.state == .partData) n s data) := by
  induction n generalizing s data with
  | zero => omega
  | succ n ih =>
      cases data with
      | nil => exact ⟨Relation.ReflTransGen.refl, rfl, rfl⟩
      | cons c data =>
          obtain ⟨s1, rest, hskip, hsteps, hst1, hn1, hh1, hlen1, hhead⟩ :=
            scanSkip_steps H s (c :: data) hs
          have hs1 : s1.Scanning := by unfold PostStream.Scanning; rw [hst1]; exact hs
          simp only [scanForNeedle, hskip]
          by_cases hrest : rest = []
          · rw [if_pos hrest]
            subst hrest
            exact ⟨hsteps, rfl, hst1⟩
          · rw [if_neg hrest]
            obtain ⟨pushed, rest', hfill, hsplit, hcase⟩ :=
              fillHold_steps H rest s1 hs1 (by rw [hh1, hn1]; exact hl)
            have htake : rest.take (rest.length - rest'.length) = pushed := by
              rw [hsplit]; simp
            have hlen : rest.length = pushed.length + rest'.length := by
              rw [hsplit, List.length_append]
            rw [hn1] at hfill hcase
            simp only [hfill, htake]
            have hpush : ({ s1.take pushed with hold := s1.hold ++ pushed } : PostStream)
                = s1.pushHold pushed := rfl
            rw [hpush]
            rcases hcase with ⟨hlt, hfsteps, hmis⟩ | ⟨hfull, hne, hfsteps⟩
            · -- the pattern is not complete: the data is used up, or the next byte mismatches
              rw [if_neg (by simp; omega)]
              cases rest' with
              | nil =>
                  rw [if_pos rfl]
                  exact ⟨hsteps.trans hfsteps, rfl, hst1⟩
              | cons d t =>
                  rw [if_neg (by simp)]
                  have hhold : (s1.pushHold pushed).hold ≠ [] := by
                    intro hnil
                    obtain ⟨h1, rfl⟩ := List.append_eq_nil_iff.mp hnil
                    rw [hh1] at h1
                    have := hhead h1 d t (by simpa using hsplit)
                    refine hmis d t rfl ?_
                    simpa [hh1, h1, List.head?_eq_getElem?] using this
                  have hn2 : (s1.pushHold pushed).needle = s.needle := hn1
                  have hst2 : (s1.pushHold pushed).state = s.state := hst1
                  have hl2 : (s1.pushHold pushed).hold.length = s1.hold.length + pushed.length :=
                    List.length_append
                  obtain ⟨hstep, hshort, hpre, hst3, hd3⟩ := scanMismatch_step H
                    (s1.pushHold pushed) d t hs1 hhold (by
                      rw [hn2, hl2]; exact hmis d t rfl)
                  rw [hst2, hn2] at hstep hshort hpre hst3 hd3
                  set s3 := scanMismatch H s.needle (s.state == .partData) (s1.pushHold pushed)
                  have hn3 : s3.needle = s.needle := by
                    rw [← hn2, PostStream.needle, PostStream.needle, hst3, hst2, hd3]
                  have hscan3 : s3.Scanning := by
                    unfold PostStream.Scanning; rw [hst3]; exact hs
                  have hdone := ih s3 (d :: t) hscan3 (by rw [hn3]; omega) ?_
                  · rw [hn3, hst3] at hdone
                    refine ScanDone.of_steps ((hsteps.trans hfsteps).tail hstep) hst3 ?_ hdone
                    omega
                  · -- every round consumes a byte or shortens the hold buffer
                    rw [hl2, hh1] at hshort
                    simp only [List.length_cons] at hlen hlen1 hn ⊢
                    rcases hs with hp | hp
                    · have hnil := hpre hp
                      rw [hnil] at hshort ⊢
                      simp at hshort ⊢
                      omega
                    · omega
            · rw [if_pos (by simpa using hfull)]
              refine ⟨?_, ?_⟩
              · have hfound : s1.found pushed = { s1.pushHold pushed with
                    hold := []
                    delimInData := s.state == .partData
                    state := .delimCheck } := by
                  rw [← hst1]; rfl
                rw [hfound] at hfsteps
                exact hsteps.trans hfsteps
              · have : 0 < pushed.length := List.length_pos_iff.mpr hne
                simp only
                omega

/-- `collectPartHeader` as moves, up to the byte that ends it. -/
theorem collectPartHeader_steps (H : Handler) (data : List UInt8) (s : PostStream)
    (hs : s.state = .partHeader) :
    match collectPartHeader s data with
    | (s', rest, .more) => Steps H (s, data) (s', []) ∧ rest = [] ∧ s'.state = .partHeader
    | (s', rest, .tooLong) => Steps H (s, data) ({ s' with state := .error }, rest)
    | (s', rest, .complete) => Steps H (s, data)
        ({ (beginPart H s').1 with
            state := if (beginPart H s').2 then .partData else .error }, rest) ∧
          rest.length < data.length := by
  induction data generalizing s with
  | nil => exact ⟨Relation.ReflTransGen.refl, rfl, hs⟩
  | cons c data ih =>
      by_cases hfull : s.partHeader.length + 1 ≥ postStreamMaxPartHeader ∧ ¬ s.sink.aborted
      · simp only [collectPartHeader, if_pos hfull]
        exact Relation.ReflTransGen.single
          (Step.headerTooLong hs hfull.1 (by simpa using hfull.2))
      · have hroom : s.partHeader.length + 1 < postStreamMaxPartHeader ∨
            s.sink.aborted = true := by
          by_cases hab : s.sink.aborted = true
          · exact .inr hab
          · exact .inl (Nat.not_le.mp (fun h => hfull ⟨h, hab⟩))
        simp only [collectPartHeader, if_neg hfull]
        have hpush : ({ s.take [c] with partHeader := pushHeaderByte s.partHeader c } : PostStream)
            = s.pushHeader c := rfl
        have hph : (s.pushHeader c).partHeader = pushHeaderByte s.partHeader c := rfl
        rw [hpush, ← hph]
        cases hdone : headerComplete (s.pushHeader c).partHeader with
        | true =>
            simp only [if_true]
            exact ⟨Relation.ReflTransGen.single (Step.headerDone hs hroom hdone), by simp⟩
        | false =>
            simp only [Bool.false_eq_true, if_false]
            have hstep : Step H (s, c :: data) (s.pushHeader c, data) :=
              Step.header hs hroom hdone
            have hrec := ih (s.pushHeader c) hs
            revert hrec
            rcases collectPartHeader (s.pushHeader c) data with ⟨s', rest, _ | _ | _⟩
            · rintro ⟨h1, h2⟩
              exact ⟨Relation.ReflTransGen.head hstep h1, h2⟩
            · rintro ⟨h1, h2⟩
              exact ⟨Relation.ReflTransGen.head hstep h1, Nat.lt_succ_of_lt h2⟩
            · intro h1
              exact Relation.ReflTransGen.head hstep h1

/-- One round of `postStreamFeed` as moves: it consumes a byte, unless it starts a part
header, and returns only in the error state. -/
def RoundDone (H : Handler) (s : PostStream) (data : List UInt8) : FeedRound → Prop
  | .next s' rest => Steps H (s, data) (s', rest) ∧
      (rest.length < data.length ∨
        (s.state = .afterBoundary ∧ s'.state = .partHeader ∧ rest = data)) ∧
      s'.state ≠ .error
  | .ret s' rest => Steps H (s, data) (s', rest) ∧ s'.state = .error

/-- A call of `scanForNeedle` as a round of the loop. -/
theorem ScanDone.roundDone {H : Handler} {s s' : PostStream} {data rest : List UInt8}
    {found : Bool} (h : ScanDone H s data (s', rest, found)) (hs : s.Scanning) (hne : data ≠ []) :
    RoundDone H s data (if found then
      .next { s' with delimInData := s.state == .partData, state := .delimCheck } rest
      else .next s' rest) := by
  cases found with
  | false =>
      obtain ⟨h1, h2, h3⟩ := h
      obtain rfl : rest = [] := h2
      refine ⟨h1, .inl (List.length_pos_iff.mpr hne), ?_⟩
      rw [h3]
      rcases hs with hs | hs <;> simp [hs]
  | true =>
      obtain ⟨h1, h2⟩ := h
      exact ⟨h1, .inl h2, by simp⟩

/-- One round of `postStreamFeed` is a sequence of moves. -/
theorem feedRound_steps (H : Handler) (s : PostStream) (c : UInt8) (data : List UInt8)
    (hwf : s.WF) : RoundDone H s (c :: data) (feedRound H s (c :: data)) := by
  cases hs : s.state with
  | preamble =>
      have hn : s.needle = s.delim.drop 2 := by simp [PostStream.needle, hs]
      have hscan : ScanDone H s (c :: data)
          (scanForNeedle H (s.delim.drop 2) false (scanRounds s (c :: data)) s (c :: data)) := by
        have h := scanForNeedle_steps H (scanRounds s (c :: data)) s (c :: data) (.inl hs)
          (hwf.scan (.inl hs)).2 (Nat.le_refl _)
        rw [hs, hn] at h
        exact h
      simp only [feedRound, hs]
      revert hscan
      rcases scanForNeedle H (s.delim.drop 2) false (scanRounds s (c :: data)) s (c :: data) with
        ⟨s', rest, _ | _⟩
      · intro hscan
        exact hscan.roundDone (.inl hs) (by simp)
      · intro hscan
        have h := hscan.roundDone (.inl hs) (by simp)
        rw [hs] at h
        exact h
  | partData =>
      have hn : s.needle = s.delim := by simp [PostStream.needle, hs]
      have hscan : ScanDone H s (c :: data)
          (scanForNeedle H s.delim true (scanRounds s (c :: data)) s (c :: data)) := by
        have h := scanForNeedle_steps H (scanRounds s (c :: data)) s (c :: data) (.inr hs)
          (hwf.scan (.inr hs)).2 (Nat.le_refl _)
        rw [hs, hn] at h
        exact h
      simp only [feedRound, hs]
      revert hscan
      rcases scanForNeedle H s.delim true (scanRounds s (c :: data)) s (c :: data) with
        ⟨s', rest, _ | _⟩
      · intro hscan
        exact hscan.roundDone (.inr hs) (by simp)
      · intro hscan
        have h := hscan.roundDone (.inr hs) (by simp)
        rw [hs] at h
        exact h
  | afterBoundary =>
      have h : feedRound H s (c :: data) = .next (afterBoundary s) (c :: data) := by
        simp only [feedRound, hs]
      rw [h]
      exact ⟨Relation.ReflTransGen.single (Step.afterBoundary hs), .inr ⟨hs, rfl, rfl⟩,
        by simp [afterBoundary]⟩
  | partHeader =>
      have hcollect := collectPartHeader_steps H (c :: data) s hs
      simp only [feedRound, hs]
      revert hcollect
      rcases collectPartHeader s (c :: data) with ⟨s', rest, _ | _ | _⟩
      · rintro ⟨h1, rfl, h2⟩
        exact ⟨h1, .inl (Nat.succ_pos _), by simp [h2]⟩
      · rintro ⟨h1, h2⟩
        dsimp only
        revert h1
        rcases beginPart H s' with ⟨s'', _ | _⟩
        · intro h1
          exact ⟨h1, rfl⟩
        · intro h1
          exact ⟨h1, .inl h2, by simp⟩
      · intro h1
        exact ⟨h1, rfl⟩
  | delimCheck =>
      have hl := hwf.check hs
      cases hh : s.hold with
      | nil =>
          have h1 : Step H (s, c :: data) (s.pushHold [c], data) := Step.delimFirst hs hh
          cases data with
          | nil =>
              have h : feedRound H s [c] = .next (s.pushHold [c]) [] := by
                simp [feedRound, hs, hh, PostStream.pushHold, PostStream.take]
              rw [h]
              exact ⟨Relation.ReflTransGen.single h1, .inl (Nat.succ_pos _),
                by simp [PostStream.pushHold, PostStream.take, hs]⟩
          | cons d t =>
              have h : feedRound H s (c :: d :: t) =
                  .next (delimCheck H ((s.pushHold [c]).pushHold [d])) t := by
                simp [feedRound, hs, hh, PostStream.pushHold, PostStream.take]
              have hx : (s.pushHold [c]).hold = [c] := by simp [PostStream.pushHold, hh]
              have h2 : Step H (s.pushHold [c], d :: t)
                  (delimCheck H ((s.pushHold [c]).pushHold [d]), t) := Step.delimSecond hs hx
              rw [h]
              exact ⟨(Relation.ReflTransGen.single h1).tail h2,
                .inl (by simp only [List.length_cons]; omega), delimCheck_ne_error H _⟩
      | cons x h =>
          have hx : s.hold = [x] := by
            rw [hh, List.length_cons] at hl
            rw [hh, List.length_eq_zero_iff.mp (by omega : h.length = 0)]
          have hr : feedRound H s (c :: data) = .next (delimCheck H (s.pushHold [c])) data := by
            simp [feedRound, hs, hx, PostStream.pushHold, PostStream.take]
          rw [hr]
          exact ⟨Relation.ReflTransGen.single (Step.delimSecond hs hx), .inl (Nat.lt_succ_self _),
            delimCheck_ne_error H _⟩
  | epilogue =>
      have h : feedRound H s (c :: data) = .next (s.take (c :: data)) [] := by
        simp only [feedRound, hs]
      rw [h]
      exact ⟨Relation.ReflTransGen.single (Step.epilogue hs), .inl (Nat.succ_pos _),
        by simp [PostStream.take, hs]⟩
  | error =>
      have h : feedRound H s (c :: data) = .ret s (c :: data) := by
        simp only [feedRound, hs]
      rw [h]
      exact ⟨Relation.ReflTransGen.refl, hs⟩

theorem Steps.wf {H : Handler} {c c' : Config} (h : Steps H c c') (hwf : c.1.WF) : c'.1.WF := by
  induction h with
  | refl => exact hwf
  | tail _ hstep ih => exact hstep.wf ih

/-- **The loop of `postStreamFeed` is a sequence of moves**, given enough rounds: it uses up
its data, or returns early in the error state. -/
theorem feedLoop_steps (H : Handler) (n : Nat) (s : PostStream) (data : List UInt8)
    (hwf : s.WF) (hn : 2 * data.length + (if s.state = .afterBoundary then 1 else 0) ≤ n) :
    Steps H (s, data) ((feedLoop H n s data).1, (feedLoop H n s data).2.1) ∧
      ((feedLoop H n s data).2.2 = false → (feedLoop H n s data).2.1 = [] ∧
        (s.state ≠ .error → (feedLoop H n s data).1.state ≠ .error)) ∧
      ((feedLoop H n s data).2.2 = true → (feedLoop H n s data).1.state = .error) := by
  induction n generalizing s data with
  | zero =>
      have hlen : data.length = 0 := by omega
      rw [List.length_eq_zero_iff.mp hlen]
      exact ⟨Relation.ReflTransGen.refl, fun _ => ⟨rfl, id⟩, by simp [feedLoop]⟩
  | succ n ih =>
      cases data with
      | nil => exact ⟨Relation.ReflTransGen.refl, fun _ => ⟨rfl, id⟩, by simp [feedLoop]⟩
      | cons c data =>
          have hround := feedRound_steps H s c data hwf
          simp only [feedLoop]
          revert hround
          cases feedRound H s (c :: data) with
          | ret s' rest =>
              rintro ⟨h1, h2⟩
              exact ⟨h1, by simp, fun _ => h2⟩
          | next s' rest =>
              rintro ⟨h1, h2, hne⟩
              obtain ⟨h3, h4, h5⟩ := ih s' rest (Steps.wf h1 hwf) (by
                rcases h2 with hlt | ⟨hb, hp, rfl⟩
                · simp only [List.length_cons] at hlt hn
                  split_ifs <;> omega
                · rw [if_pos hb] at hn
                  rw [if_neg (by rw [hp]; decide)]
                  omega)
              exact ⟨h1.trans h3, fun hf => ⟨(h4 hf).1, fun _ => (h4 hf).2 hne⟩, h5⟩

theorem PostStream.WF.count {s : PostStream} (h : s.WF) (n : Nat) : (s.count n).WF :=
  ⟨h.delim, h.scan, h.check, h.header⟩

/-- **A call of `postStreamFeed` as moves**, from the machine with its counter advanced: the
call uses up its data, or returns early in the error state. -/
theorem postStreamFeed_steps (H : Handler) (s : PostStream) (data : List UInt8) (hwf : s.WF)
    (ha : s.active = true) :
    ∃ s' rest, Steps H (s.count data.length, data) (s', rest) ∧
      ((s'.state = .error ∧ postStreamFeed H s data = (s', -1)) ∨
        (rest = [] ∧ (s.state ≠ .error → s'.state ≠ .error) ∧
          postStreamFeed H s data = feedEnd H s')) := by
  obtain ⟨h1, h2, h3⟩ := feedLoop_steps H (2 * data.length + 1) (s.count data.length) data
    (hwf.count _) (by split_ifs <;> omega)
  refine ⟨_, _, h1, ?_⟩
  simp only [postStreamFeed, ha, not_true_eq_false, if_false]
  revert h2 h3
  rcases feedLoop H (2 * data.length + 1) (s.count data.length) data with ⟨s', rest, _ | _⟩
  · intro h2 _
    exact .inr ⟨(h2 rfl).1, (h2 rfl).2, rfl⟩
  · intro _ h3
    exact .inl ⟨h3 rfl, rfl⟩

end CWebUI.Post
