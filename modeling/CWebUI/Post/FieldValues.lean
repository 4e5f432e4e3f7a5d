import Mathlib.Data.List.Forall2
import CWebUI.Post.Limits
import CWebUI.Post.Multipart

set_option autoImplicit false

/-! # What is buffered of a form field

A form field is buffered while its bytes come in, in pieces that depend on where the reads end
and on what had to be held back. The body itself says what its value is: the bytes behind the
header of the part, up to the first delimiter. This file proves that what is buffered is a
prefix of that value at all times. Together with the limits this bounds everything that a
stream keeps.

The delimiter has only one carriage return, at its front, because the header parser cuts the
boundary at the first one. So bytes that have turned out to be data cannot start a delimiter
any more.
-/

namespace CWebUI.Post

open ByteString CWebUI.Http ListLemmas

/-! ## The value of a part -/

/-- A delimiter begins here: the pattern, and the two bytes that make it a delimiter. -/
def DelimAt (delim l : List UInt8) : Prop := delim ++ crlf <+: l ∨ delim ++ [45, 45] <+: l

instance (delim l : List UInt8) : Decidable (DelimAt delim l) :=
  inferInstanceAs (Decidable (delim ++ crlf <+: l ∨ delim ++ [45, 45] <+: l))

/-- The value of a part whose data begins here: everything before the first delimiter. -/
def partValue (delim : List UInt8) : List UInt8 → List UInt8
  | [] => []
  | c :: l => if DelimAt delim (c :: l) then [] else c :: partValue delim l

/-- No delimiter begins within the first `n` bytes. -/
def Clear (delim l : List UInt8) (n : Nat) : Prop := ∀ j < n, ¬ DelimAt delim (l.drop j)

theorem Clear.tail {delim l : List UInt8} {c : UInt8} {n : Nat} (h : Clear delim (c :: l) (n + 1)) :
    Clear delim l n := by
  intro j hj
  exact h (j + 1) (by omega)

/-- Bytes without a delimiter belong to the value. -/
theorem Clear.prefix_value {delim l : List UInt8} {n : Nat} (h : Clear delim l n) :
    l.take n <+: partValue delim l := by
  induction l generalizing n with
  | nil => simp [partValue]
  | cons c l ih =>
      cases n with
      | zero => exact List.nil_prefix
      | succ n =>
          have hfirst : ¬ DelimAt delim (c :: l) := h 0 (Nat.zero_lt_succ n)
          rw [partValue, if_neg hfirst, List.take_succ_cons]
          exact List.cons_prefix_cons.mpr ⟨rfl, ih h.tail⟩

/-- The value ends where the first delimiter begins. -/
theorem Clear.value_eq {delim l : List UInt8} {n : Nat} (h : Clear delim l n)
    (hd : DelimAt delim (l.drop n)) : partValue delim l = l.take n := by
  induction l generalizing n with
  | nil => simp [partValue]
  | cons c l ih =>
      cases n with
      | zero =>
          have hfirst : DelimAt delim (c :: l) := hd
          rw [partValue, if_pos hfirst, List.take_zero]
      | succ n =>
          have hfirst : ¬ DelimAt delim (c :: l) := h 0 (Nat.zero_lt_succ n)
          rw [partValue, if_neg hfirst, List.take_succ_cons, ih h.tail hd]

theorem Clear.succ {delim l : List UInt8} {n : Nat} (h : Clear delim l n)
    (hn : ¬ DelimAt delim (l.drop n)) : Clear delim l (n + 1) := by
  intro j hj
  rcases Nat.lt_succ_iff_lt_or_eq.mp hj with hlt | rfl
  · exact h j hlt
  · exact hn

/-- A delimiter starts with a carriage return. -/
theorem DelimAt.head {boundary l : List UInt8} (h : DelimAt (crlf ++ boundary) l) :
    ∃ t, l = cr :: lf :: t := by
  rcases h with ⟨t, rfl⟩ | ⟨t, rfl⟩
  · exact ⟨boundary ++ crlf ++ t, by simp [crlf]⟩
  · exact ⟨boundary ++ [45, 45] ++ t, by simp [crlf]⟩

/-- Bytes other than a carriage return do not start a delimiter. -/
theorem Clear.plain {boundary l : List UInt8} (u : List UInt8) {n : Nat}
    (h : Clear (crlf ++ boundary) l n) (hu : u <+: l.drop n) (hcr : cr ∉ u) :
    Clear (crlf ++ boundary) l (n + u.length) := by
  induction u generalizing n with
  | nil => exact h
  | cons b u ih =>
      obtain ⟨t, ht⟩ := hu
      have hfirst : ¬ DelimAt (crlf ++ boundary) (l.drop n) := by
        intro hd
        obtain ⟨t', ht'⟩ := hd.head
        rw [ht'] at ht
        obtain ⟨rfl, -⟩ := List.cons_eq_cons.mp ht
        exact hcr List.mem_cons_self
      have hnext : u <+: l.drop (n + 1) := by
        rw [← List.drop_drop, ← ht]
        exact ⟨t, rfl⟩
      have hrest := ih (h.succ hfirst) hnext (fun hc => hcr (List.mem_cons_of_mem b hc))
      rw [List.length_cons]
      exact (by omega : n + 1 + u.length = n + (u.length + 1)) ▸ hrest

/-! ## The parts of a body -/

/-- A part header as the machine reads it: from the CRLF behind the boundary to the first empty
line. -/
structure IsPartHeader (header : List UInt8) : Prop where
  first : crlf <+: header
  complete : headerComplete header = true
  minimal : ∀ q, q <+: header → q ≠ header → headerComplete q = false

/-- The text `taken` of the body ends with the boundary and the header of the part that follows
the given ones, of which the latest comes first. The first boundary of a body may stand
anywhere; after that a boundary is the delimiter that ends the value of the part before. -/
def Opens (delim body : List UInt8) (ms : List (Nat × List UInt8)) (taken header : List UInt8) :
    Prop :=
  match ms with
  | [] => ∃ preamble, taken = preamble ++ delim.drop 2 ++ header
  | (m, _) :: _ =>
      taken = body.take (m + (partValue delim (body.drop m)).length) ++ delim ++ header

/-- The first parts of a body, the latest first: where the data of each begins, and its header. -/
inductive PartsOf (delim body : List UInt8) : List (Nat × List UInt8) → Prop where
  | nil : PartsOf delim body []
  | cons {ms : List (Nat × List UInt8)} {taken header : List UInt8} (hms : PartsOf delim body ms)
      (hopens : Opens delim body ms taken header) (hbody : taken <+: body)
      (hheader : IsPartHeader header) : PartsOf delim body ((taken.length, header) :: ms)

/-- The record is that of the part: its name and kind are what the header of the part says, and
what is buffered of a form field is a prefix of its value. -/
def RecordOf (delim body : List UInt8) (p : PostStreamPart) (part : Nat × List UInt8) : Prop :=
  (∃ request : HttpRequestHeader,
    let fields := (analyseFormDataLine part.2
      { request with contentDisposition := none, contentType := none }).1
    let fileName := extractDispositionValue fields.contentDisposition (ascii "filename=")
    let fieldName := extractDispositionValue fields.contentDisposition (ascii "name=")
    p.isFile = fileName.isSome ∧
      p.name = ((if p.isFile then fileName else fieldName).getD []).take postStreamMaxName) ∧
  (p.isFile = false → p.data <+: partValue delim (body.drop part.1))

/-- The records of a stream are those of the first parts of the body, one for one. -/
def Recorded (delim body : List UInt8) (k : PartSink) : Prop :=
  ∃ ms, PartsOf delim body ms ∧ List.Forall₂ (RecordOf delim body) k.parts ms

/-! ## Where the machine stands -/

/-- The machine stands in the data of a part that begins at `m`: it has passed `n` bytes on and
has consumed `pending` behind them. -/
structure InPart (delim body taken pending : List UInt8) (m n : Nat) : Prop where
  clear : Clear delim (body.drop m) n
  le : m + n ≤ taken.length
  pending : taken.drop (m + n) = pending

theorem InPart.push {delim body taken pending : List UInt8} {m n : Nat}
    (h : InPart delim body taken pending m n) (u : List UInt8) :
    InPart delim body (taken ++ u) (pending ++ u) m n := by
  have hle := h.le
  refine ⟨h.clear, ?_, ?_⟩
  · rw [List.length_append]
    omega
  · rw [List.drop_append_of_le_length hle, h.pending]

/-- Some of the pending bytes have turned out to be data. -/
theorem InPart.move {delim body taken pending u : List UInt8} {m n : Nat}
    (h : InPart delim body taken (u ++ pending) m n)
    (hclear : Clear delim (body.drop m) (n + u.length)) :
    InPart delim body taken pending m (n + u.length) := by
  have hlen := congrArg List.length h.pending
  have hle := h.le
  rw [List.length_drop, List.length_append] at hlen
  refine ⟨hclear, by omega, ?_⟩
  rw [← Nat.add_assoc, ← List.drop_drop, h.pending, List.drop_left]

/-- The pending bytes and what follows them, in the body. -/
theorem InPart.ahead {delim body taken pending rest : List UInt8} {m n : Nat}
    (h : InPart delim body taken pending m n) (hbody : taken ++ rest <+: body) :
    pending ++ rest <+: (body.drop m).drop n := by
  obtain ⟨t, rfl⟩ := hbody
  refine ⟨t, ?_⟩
  rw [List.drop_drop, List.append_assoc, List.append_assoc, List.drop_append_of_le_length h.le,
    h.pending]

/-- While a form field is received, its buffer holds the bytes `u`, unless it was cut off. -/
def Buffers (k : PartSink) (u : List UInt8) : Prop :=
  ∀ p rest, k.parts = p :: rest → p.isFile = false →
    k.currentPart = true ∧ k.partIsFile = false ∧ k.aborted = false ∧
      (p.truncated = false → p.data = u)

/-- The machine stands in the data of the latest part. -/
def Inside (delim body : List UInt8) (s : PostStream) (ms : List (Nat × List UInt8))
    (pending : List UInt8) : Prop :=
  ∃ m header ms' n, ms = (m, header) :: ms' ∧ InPart delim body s.taken pending m n ∧
    Buffers s.sink ((body.drop m).take n)

/-- A part header that is not complete yet. -/
structure Collecting (header : List UInt8) : Prop where
  first : crlf <+: header
  more : ∀ q, q <+: header → headerComplete q = false

/-- Where the machine stands in the body, by its state. -/
def Place (delim body : List UInt8) (s : PostStream) (ms : List (Nat × List UInt8)) : Prop :=
  match s.state with
  | .preamble => ms = [] ∧ s.hold <:+ s.taken
  | .delimCheck =>
      if s.delimInData then Inside delim body s ms (delim ++ s.hold)
      else ms = [] ∧ delim.drop 2 ++ s.hold <:+ s.taken
  | .afterBoundary => Opens delim body ms s.taken crlf
  | .partHeader => Opens delim body ms s.taken s.partHeader ∧ Collecting s.partHeader
  | .partData => Inside delim body s ms s.hold
  | .epilogue => True
  | .error => True

theorem place_preamble {delim body : List UInt8} {s : PostStream} {ms : List (Nat × List UInt8)}
    (hs : s.state = .preamble) : Place delim body s ms ↔ ms = [] ∧ s.hold <:+ s.taken := by
  unfold Place
  rw [hs]

theorem place_partHeader {delim body : List UInt8} {s : PostStream} {ms : List (Nat × List UInt8)}
    (hs : s.state = .partHeader) : Place delim body s ms ↔
      Opens delim body ms s.taken s.partHeader ∧ Collecting s.partHeader := by
  unfold Place
  rw [hs]

theorem place_afterBoundary {delim body : List UInt8} {s : PostStream}
    {ms : List (Nat × List UInt8)} (hs : s.state = .afterBoundary) :
    Place delim body s ms ↔ Opens delim body ms s.taken crlf := by
  unfold Place
  rw [hs]

theorem place_partData {delim body : List UInt8} {s : PostStream} {ms : List (Nat × List UInt8)}
    (hs : s.state = .partData) : Place delim body s ms ↔ Inside delim body s ms s.hold := by
  unfold Place
  rw [hs]

theorem place_delimCheck {delim body : List UInt8} {s : PostStream} {ms : List (Nat × List UInt8)}
    (hs : s.state = .delimCheck) : Place delim body s ms ↔
      if s.delimInData then Inside delim body s ms (delim ++ s.hold)
      else ms = [] ∧ delim.drop 2 ++ s.hold <:+ s.taken := by
  unfold Place
  rw [hs]

/-! ## Passing data on -/

/-- Data that is passed on in pieces. -/
def emitAll (H : Handler) (pos : Nat) (k : PartSink) (chunks : List (List UInt8)) : PartSink :=
  chunks.foldl (emitPartData H pos) k

theorem emitEach_eq_emitAll (H : Handler) (pos : Nat) (bytes : List UInt8) (k : PartSink) :
    bytes.foldl (fun k b => emitPartData H pos k [b]) k =
      emitAll H pos k (bytes.map (fun b => [b])) := by
  unfold emitAll
  rw [List.foldl_map]

theorem flatten_singletons (bytes : List UInt8) : (bytes.map (fun b => [b])).flatten = bytes := by
  rw [← List.flatMap_def, List.flatMap_singleton']

/-- The record of a part stays its record when only its counters change. -/
theorem RecordOf.of_eq {delim body : List UInt8} {p p' : PostStreamPart} {part : Nat × List UInt8}
    (h : RecordOf delim body p part) (hname : p'.name = p.name) (hfile : p'.isFile = p.isFile)
    (hdata : p'.isFile = false → p'.data <+: partValue delim (body.drop part.1)) :
    RecordOf delim body p' part := by
  obtain ⟨request, h1, h2⟩ := h.1
  refine ⟨⟨request, ?_, ?_⟩, hdata⟩
  · rw [hfile]
    exact h1
  · rw [hname, hfile]
    exact h2

/-- **Passing data on** keeps the record of the open field a prefix of the value, as long as the
data is the next of the value. -/
theorem emitPartData_buffers {delim body u data : List UInt8} {k : PartSink} {m : Nat}
    {header : List UInt8} {ms : List (Nat × List UInt8)} (H : Handler) (pos : Nat)
    (hrec : List.Forall₂ (RecordOf delim body) k.parts ((m, header) :: ms)) (hbuf : Buffers k u)
    (hval : u ++ data <+: partValue delim (body.drop m)) :
    List.Forall₂ (RecordOf delim body) (emitPartData H pos k data).parts ((m, header) :: ms) ∧
      Buffers (emitPartData H pos k data) (u ++ data) := by
  have hframe := frame_emitPartData H pos k data
  have hcurrent : (emitPartData H pos k data).currentPart = k.currentPart :=
    (congrArg PartSink.currentPart hframe :)
  have hfile : (emitPartData H pos k data).partIsFile = k.partIsFile :=
    (congrArg PartSink.partIsFile hframe :)
  have haborted : k.partIsFile = false →
      (emitPartData H pos k data).aborted = k.aborted := by
    intro hf
    rcases emitPartData_trace H pos k data with ⟨-, ha⟩ | ⟨-, hf', -⟩
    · exact ha
    · exact absurd (hf.symm.trans hf') (by decide)
  rcases emitPartData_records H pos k data with ⟨hparts, -, hnone⟩ |
    ⟨p, rest, hk, hfield, hopen, hcase⟩
  · rw [Buffers, hparts, hcurrent, hfile]
    refine ⟨hrec, ?_⟩
    intro p rest hp hfield
    obtain ⟨h1, h2, h3, h4⟩ := hbuf p rest hp hfield
    refine ⟨h1, h2, (haborted h2).trans h3, ?_⟩
    intro hopen
    rw [hnone p rest hp hfield hopen h1 h2 h3, List.append_nil]
    exact h4 hopen
  · obtain ⟨h1, h2, h3, h4⟩ := hbuf p rest hk hfield
    rw [hk] at hrec
    obtain ⟨hp, hrest⟩ := List.forall₂_cons.mp hrec
    rw [Buffers, hcurrent, hfile, haborted h2]
    rcases hcase with ⟨hparts, -⟩ | ⟨-, -, hparts, -⟩
    · rw [hparts]
      refine ⟨List.Forall₂.cons (hp.of_eq rfl rfl hp.2) hrest, ?_⟩
      intro q rest' hq _
      obtain ⟨rfl, -⟩ := List.cons_eq_cons.mp hq
      exact ⟨h1, h2, h3, fun hopen => by cases hopen⟩
    · rw [hparts]
      have hdata : p.data ++ data = u ++ data := by rw [h4 hopen]
      refine ⟨List.Forall₂.cons (hp.of_eq rfl rfl fun _ => ?_) hrest, ?_⟩
      · show p.data ++ data <+: _
        rw [hdata]
        exact hval
      · intro q rest' hq _
        obtain ⟨rfl, -⟩ := List.cons_eq_cons.mp hq
        exact ⟨h1, h2, h3, fun _ => hdata⟩

theorem emitAll_buffers {delim body : List UInt8} {m : Nat} {header : List UInt8}
    {ms : List (Nat × List UInt8)} (H : Handler) (pos : Nat) (chunks : List (List UInt8))
    {u : List UInt8} {k : PartSink}
    (hrec : List.Forall₂ (RecordOf delim body) k.parts ((m, header) :: ms)) (hbuf : Buffers k u)
    (hval : u ++ chunks.flatten <+: partValue delim (body.drop m)) :
    List.Forall₂ (RecordOf delim body) (emitAll H pos k chunks).parts ((m, header) :: ms) ∧
      Buffers (emitAll H pos k chunks) (u ++ chunks.flatten) := by
  induction chunks generalizing u k with
  | nil =>
      rw [List.flatten_nil, List.append_nil]
      exact ⟨hrec, hbuf⟩
  | cons data chunks ih =>
      rw [List.flatten_cons, ← List.append_assoc] at hval ⊢
      obtain ⟨hrec', hbuf'⟩ := emitPartData_buffers H pos hrec hbuf
        ((List.prefix_append _ _).trans hval)
      exact ih hrec' hbuf' hval

/-- After an abort, and without a record, nothing is buffered. -/
theorem emitAll_idle (H : Handler) (pos : Nat) (chunks : List (List UInt8)) {k : PartSink}
    (h : k.aborted = true ∨ k.parts = []) :
    (emitAll H pos k chunks).parts = k.parts ∧
      (k.aborted = true → (emitAll H pos k chunks).aborted = true) := by
  induction chunks generalizing k with
  | nil => exact ⟨rfl, id⟩
  | cons data chunks ih =>
      by_cases hab : k.aborted = true
      · have hsame : emitPartData H pos k data = k := by
          unfold emitPartData
          rw [if_pos (Or.inr hab)]
        have hnext := ih (k := k) (Or.inl hab)
        unfold emitAll at hnext ⊢
        rw [List.foldl_cons, hsame]
        exact hnext
      · have hnil : k.parts = [] := h.resolve_left hab
        have hparts : (emitPartData H pos k data).parts = [] := by
          rcases emitPartData_records H pos k data with ⟨hparts, -⟩ | ⟨p, rest, hk, -⟩
          · rw [hparts, hnil]
          · rw [hnil] at hk
            cases hk
        refine ⟨?_, fun hab' => absurd hab' hab⟩
        rw [hnil, ← hparts]
        exact (ih (Or.inr hparts)).1

/-! ## The machine -/

/-- What holds of the records: they are those of the first parts of the body, and as long as
further data is recorded the machine stands where it should. `rest` is what the current call has
not looked at. -/
structure FieldInv (delim body : List UInt8) (s : PostStream) (rest : List UInt8)
    (ms : List (Nat × List UInt8)) : Prop where
  parts : PartsOf delim body ms
  records : List.Forall₂ (RecordOf delim body) s.sink.parts ms
  ahead : s.state ≠ .error → s.taken ++ rest <+: body
  discarded : s.sink.discard = true → ms = []
  place : s.sink.aborted = false → s.sink.discard = false → Place delim body s ms

/-- A move that leaves the receiving side alone. -/
theorem FieldInv.of_sink {delim body : List UInt8} {s s' : PostStream} {rest rest' : List UInt8}
    {ms : List (Nat × List UInt8)} (h : FieldInv delim body s rest ms) (hsink : s'.sink = s.sink)
    (hahead : s'.state ≠ .error → s'.taken ++ rest' <+: body)
    (hplace : Place delim body s ms → Place delim body s' ms) :
    FieldInv delim body s' rest' ms := by
  refine ⟨h.parts, ?_, hahead, ?_, ?_⟩
  · rw [hsink]
    exact h.records
  · rw [hsink]
    exact h.discarded
  · rw [hsink]
    intro hab hd
    exact hplace (h.place hab hd)

/-- Bytes of the body move from what is left to what is consumed. -/
theorem FieldInv.ahead_take {delim body : List UInt8} {s : PostStream} {u rest : List UInt8}
    {ms : List (Nat × List UInt8)} (h : FieldInv delim body s (u ++ rest) ms)
    (hs : s.state ≠ .error) : s.taken ++ u ++ rest <+: body := by
  rw [List.append_assoc]
  exact h.ahead hs

theorem emitAll_discard (H : Handler) (pos : Nat) (chunks : List (List UInt8)) (k : PartSink) :
    (emitAll H pos k chunks).discard = k.discard := by
  induction chunks generalizing k with
  | nil => rfl
  | cons data chunks ih =>
      exact (ih _).trans (congrArg PartSink.discard (frame_emitPartData H pos k data) :)

/-- **Data of a part** is passed on in pieces: the machine stands behind it, and the open field
holds it. -/
theorem FieldInv.emitted {delim body : List UInt8} {s s' : PostStream} {rest rest' : List UInt8}
    {ms : List (Nat × List UInt8)} (h : FieldInv delim body s rest ms) (H : Handler) (pos : Nat)
    (chunks : List (List UInt8)) (hsink : s'.sink = emitAll H pos s.sink chunks)
    (hs' : s'.state = .partData) (hahead : s'.taken ++ rest' <+: body)
    (hlive : Place delim body s ms → ∃ m header ms' n, ms = (m, header) :: ms' ∧
      InPart delim body s'.taken (chunks.flatten ++ s'.hold) m n ∧
      Buffers s.sink ((body.drop m).take n) ∧
      Clear delim (body.drop m) (n + chunks.flatten.length)) :
    FieldInv delim body s' rest' ms := by
  by_cases hidle : s.sink.aborted = true ∨ s.sink.discard = true
  · -- nothing is recorded any more
    have hnone : s.sink.aborted = true ∨ s.sink.parts = [] := by
      rcases hidle with hab | hd
      · exact Or.inl hab
      · have hrec := h.records
        rw [h.discarded hd] at hrec
        exact Or.inr (List.forall₂_nil_right_iff.mp hrec)
    obtain ⟨hparts, hab'⟩ := emitAll_idle H pos chunks hnone
    refine ⟨h.parts, ?_, fun _ => hahead, ?_, ?_⟩
    · rw [hsink, hparts]
      exact h.records
    · rw [hsink, emitAll_discard]
      exact h.discarded
    · rw [hsink, emitAll_discard]
      intro hno hd
      rcases hidle with hab | hd'
      · exact absurd (hno.symm.trans (hab' hab)) (by decide)
      · exact absurd (hd.symm.trans hd') (by decide)
  · obtain ⟨hab, hd⟩ := not_or.mp hidle
    -- the chunks are the next bytes of the part, so the buffer stays a prefix of its value
    obtain ⟨m, header, ms', n, rfl, hin, hbuf, hclear⟩ :=
      hlive (h.place (by simpa using hab) (by simpa using hd))
    have hnext : chunks.flatten ++ s'.hold <+: (body.drop m).drop n := by
      have := hin.ahead hahead
      exact (List.prefix_append _ _).trans this
    have hbytes : (body.drop m).take n ++ chunks.flatten =
        (body.drop m).take (n + chunks.flatten.length) := by
      rw [List.take_add]
      congr 1
      exact List.prefix_iff_eq_take.mp ((List.prefix_append _ _).trans hnext)
    obtain ⟨hrec, hbuf'⟩ := emitAll_buffers H pos chunks h.records hbuf
      (hbytes ▸ hclear.prefix_value)
    refine ⟨h.parts, ?_, fun _ => hahead, ?_, ?_⟩
    · rw [hsink]
      exact hrec
    · rw [hsink, emitAll_discard]
      exact h.discarded
    · intro _ _
      refine (place_partData hs').mpr ⟨m, header, ms', n + chunks.flatten.length, rfl,
        hin.move hclear, ?_⟩
      rw [hsink, ← hbytes]
      exact hbuf'

/-- Closing a part changes no name and no buffer. -/
theorem endPart_recorded {delim body : List UInt8} {k : PartSink} {ms : List (Nat × List UInt8)}
    (h : List.Forall₂ (RecordOf delim body) k.parts ms) (H : Handler) (pos : Nat)
    (success : Bool) : List.Forall₂ (RecordOf delim body) (endPart H pos k success).parts ms := by
  obtain ⟨-, -, hparts | ⟨p, rest, length, failed, hk, hfile, hparts⟩⟩ :=
    endPart_records H pos k success
  · rw [hparts]
    exact h
  · rw [hk] at h
    rw [hparts]
    cases h with
    | cons hp hrest => exact List.Forall₂.cons (hp.of_eq rfl rfl hp.2) hrest

section Moves

variable {H : Handler} {boundary body : List UInt8} {s : PostStream} {rest : List UInt8}
  {ms : List (Nat × List UInt8)}

/-- Behind its CR the pattern has no other. -/
theorem cr_not_mem_line (hcr : cr ∉ boundary) : cr ∉ lf :: boundary := by
  intro hmem
  rcases List.mem_cons.mp hmem with hlf | hb
  · exact absurd hlf (by decide)
  · exact hcr hb

/-- Bytes of a part that cannot start the delimiter. -/
theorem FieldInv.emitRun {run : List UInt8}
    (h : FieldInv (crlf ++ boundary) body s (run ++ rest) ms) (hd : s.delim = crlf ++ boundary)
    (hs : s.state = .partData) (hh : s.hold = []) (hr : ∀ c ∈ run, s.needle.head? ≠ some c) :
    FieldInv (crlf ++ boundary) body ((s.emit H run).take run) rest ms := by
  have hne : s.state ≠ .error := by
    rw [hs]
    decide
  -- inside a part the pattern begins with a CR
  have hcr : cr ∉ run := by
    intro hc
    apply hr cr hc
    rw [PostStream.needle, if_pos hs, hd]
    rfl
  have hahead := h.ahead_take hne
  refine h.emitted H s.taken.length [run] rfl hs hahead ?_
  intro hplace
  obtain ⟨m, header, ms', n, hms, hin, hbuf⟩ := (place_partData hs).mp hplace
  rw [hh] at hin
  have hflat : [run].flatten = run := by simp
  have hnext : run <+: (body.drop m).drop n := by
    have := hin.ahead (h.ahead hne)
    exact (List.prefix_append _ _).trans this
  refine ⟨m, header, ms', n, hms, ?_, hbuf, ?_⟩
  · show InPart _ body (s.taken ++ run) ([run].flatten ++ s.hold) m n
    rw [hflat, hh, List.append_nil]
    exact hin.push run
  · rw [hflat]
    exact hin.clear.plain run hnext hcr

/-- A mismatch in a part: what was held back is data, and none of it starts a delimiter. -/
theorem FieldInv.dataMismatch {b c : UInt8} {t : List UInt8}
    (h : FieldInv (crlf ++ boundary) body s (c :: rest) ms) (hwf : s.WF)
    (hd : s.delim = crlf ++ boundary) (hcr : cr ∉ boundary) (hs : s.state = .partData)
    (hh : s.hold = b :: t) (hc : s.needle[s.hold.length]? ≠ some c) :
    FieldInv (crlf ++ boundary) body
      { s.emitEach H (b :: (rebase s.delim t).1) with hold := (rebase s.delim t).2 }
      (c :: rest) ms := by
  have hne : s.state ≠ .error := by
    rw [hs]
    decide
  have hneedle : s.needle = crlf ++ boundary := by rw [PostStream.needle, if_pos hs, hd]
  obtain ⟨r, hr⟩ := hneedle ▸ (hwf.scan (.inr hs)).1
  -- the boundary has no CR, so only the first byte held back could start a delimiter
  have hplain : cr ∉ t := by
    rw [hh] at hr
    have ht : t ++ r = lf :: boundary := (List.cons_eq_cons.mp hr).2
    intro hmem
    exact cr_not_mem_line hcr (ht ▸ List.mem_append_left r hmem)
  have hrebase : rebase s.delim t = (t, []) := by
    rw [hd]
    exact rebase_of_not_mem cr (lf :: boundary) t hplain
  rw [hrebase]
  refine h.emitted H s.taken.length ((b :: t).map (fun b => [b]))
    (emitEach_eq_emitAll H s.taken.length (b :: t) s.sink) hs (h.ahead hne) ?_
  intro hplace
  obtain ⟨m, header, ms', n, hms, hin, hbuf⟩ := (place_partData hs).mp hplace
  have hnext := hin.ahead (h.ahead hne)
  have hfirst : ¬ DelimAt (crlf ++ boundary) ((body.drop m).drop n) := by
    intro hdelim
    -- the byte that did not fit stands where the pattern has another one
    have hpat : crlf ++ boundary <+: (body.drop m).drop n := by
      rcases hdelim with hdelim | hdelim
      · exact (List.prefix_append _ _).trans hdelim
      · exact (List.prefix_append _ _).trans hdelim
    have hshort : s.hold.length < (crlf ++ boundary).length := hneedle ▸ (hwf.scan (.inr hs)).2
    have hheld : s.hold ++ [c] <+: (body.drop m).drop n := by
      refine List.IsPrefix.trans ?_ hnext
      exact ⟨rest, by simp⟩
    have hat : s.hold ++ [c] <+: crlf ++ boundary := by
      apply List.prefix_of_prefix_length_le hheld hpat
      rw [List.length_append]
      exact hshort
    apply hc
    rw [hneedle]
    obtain ⟨r', hr'⟩ := hat
    rw [← hr']
    simp
  refine ⟨m, header, ms', n, hms, ?_, hbuf, ?_⟩
  · show InPart _ body s.taken (((b :: t).map (fun b => [b])).flatten ++ []) m n
    rw [flatten_singletons, List.append_nil, ← hh]
    exact hin
  · rw [flatten_singletons, List.length_cons]
    have htail : t <+: (body.drop m).drop (n + 1) := by
      rw [← List.drop_drop]
      rw [hh] at hnext
      obtain ⟨r', hr'⟩ := hnext
      rw [← hr']
      exact ⟨c :: rest ++ r', by simp⟩
    have := (hin.clear.succ hfirst).plain t htail hplain
    rwa [Nat.add_assoc, Nat.add_comm 1] at this

theorem pair_eq_of_le {a b x c : UInt8} {r : List UInt8} (h : [a, b] <+: [x, c] ++ r) :
    [x, c] = [a, b] := by
  obtain ⟨rfl, h'⟩ := List.cons_prefix_cons.mp h
  obtain ⟨rfl, -⟩ := List.cons_prefix_cons.mp h'
  rfl

/-- A pattern with two other bytes behind it starts no delimiter, and neither does anything in it
or the first of the two bytes. -/
theorem Clear.pattern {l r : List UInt8} {n : Nat} {x c : UInt8}
    (h : Clear (crlf ++ boundary) l n) (hcr : cr ∉ boundary)
    (hl : l.drop n = crlf ++ boundary ++ ([x, c] ++ r)) (hcrlf : [x, c] ≠ crlf)
    (hdash : [x, c] ≠ [45, 45]) :
    Clear (crlf ++ boundary) l (n + (crlf ++ boundary).length + 1) := by
  have hfirst : ¬ DelimAt (crlf ++ boundary) (l.drop n) := by
    rw [hl]
    rintro (hp | hp)
    · exact hcrlf (pair_eq_of_le ((List.prefix_append_right_inj _).mp hp))
    · exact hdash (pair_eq_of_le ((List.prefix_append_right_inj _).mp hp))
  have htail : lf :: boundary <+: l.drop (n + 1) := by
    rw [← List.drop_drop, hl]
    exact ⟨[x, c] ++ r, by simp [crlf]⟩
  have hplain := cr_not_mem_line hcr
  -- behind its first byte the pattern has no CR
  have hpat : Clear (crlf ++ boundary) l (n + (crlf ++ boundary).length) := by
    have := (h.succ hfirst).plain (lf :: boundary) htail hplain
    have hlen : n + 1 + (lf :: boundary).length = n + (crlf ++ boundary).length := by
      simp [crlf]
      omega
    exact hlen ▸ this
  apply hpat.succ
  -- a delimiter at the first of the two bytes would make them CRLF
  intro hdelim
  obtain ⟨t, ht⟩ := hdelim.head
  rw [← List.drop_drop, hl, List.drop_left] at ht
  obtain ⟨rfl, ht'⟩ := List.cons_eq_cons.mp ht
  obtain ⟨rfl, -⟩ := List.cons_eq_cons.mp ht'
  exact hcrlf rfl

/-- Two bytes that make no delimiter: the pattern was data, and at most the last byte may start
another one. -/
theorem FieldInv.noDelimiter {x c : UInt8}
    (h : FieldInv (crlf ++ boundary) body s (c :: rest) ms) (hd : s.delim = crlf ++ boundary)
    (hcr : cr ∉ boundary) (hs : s.state = .delimCheck) (hh : s.hold = [x])
    (hcrlf : [x, c] ≠ crlf) (hdash : [x, c] ≠ [45, 45]) (hdata : s.delimInData = true) :
    FieldInv (crlf ++ boundary) body
      { ((s.pushHold [c]).emit H s.delim).emitEach H (rebase s.delim [x, c]).1 with
        hold := (rebase s.delim [x, c]).2
        state := .partData } rest ms := by
  have hne : s.state ≠ .error := by
    rw [hs]
    decide
  have hahead : s.taken ++ [c] ++ rest <+: body := FieldInv.ahead_take (u := [c]) h hne
  have hpos : ((s.pushHold [c]).emit H s.delim).taken.length = (s.taken ++ [c]).length := rfl
  refine h.emitted H (s.taken ++ [c]).length
    (s.delim :: (rebase s.delim [x, c]).1.map (fun b => [b])) ?_ rfl hahead ?_
  · exact emitEach_eq_emitAll H _ _ _
  · intro hplace
    have hplace' := (place_delimCheck hs).mp hplace
    rw [if_pos hdata] at hplace'
    obtain ⟨m, header, ms', n, hms, hin, hbuf⟩ := hplace'
    rw [hh] at hin
    have hin' := hin.push [c]
    obtain ⟨r, hr⟩ := hin'.ahead hahead
    have hl : (body.drop m).drop n = crlf ++ boundary ++ ([x, c] ++ (rest ++ r)) := by
      rw [← hr]
      simp
    have hclear := hin.clear.pattern hcr hl hcrlf hdash
    refine ⟨m, header, ms', n, hms, ?_, hbuf, ?_⟩
    · show InPart _ body (s.taken ++ [c]) _ m n
      rw [List.flatten_cons, flatten_singletons, List.append_assoc, rebase_append, hd]
      simpa using hin'
    · rw [List.flatten_cons, flatten_singletons, hd, rebase_pair boundary x c hcrlf,
        List.length_append, ← Nat.add_assoc]
      -- the last byte is held back if it is a CR, and data otherwise
      split_ifs with hc
      · exact hclear
      · have hlast : [c] <+: (body.drop m).drop (n + (crlf ++ boundary).length + 1) := by
          rw [Nat.add_assoc, ← List.drop_drop, hl, ← List.drop_drop, List.drop_left]
          exact ⟨rest ++ r, rfl⟩
        exact hclear.plain [c] hlast (by simpa using fun h => hc h.symm)

/-- A delimiter ends the value of the part. -/
theorem Inside.opens {x c : UInt8} (hin : Inside (crlf ++ boundary) body s ms (crlf ++ boundary ++ [x]))
    (hahead : s.taken ++ (c :: rest) <+: body) (hcrlf : [x, c] = crlf) :
    Opens (crlf ++ boundary) body ms (s.taken ++ [c]) crlf := by
  obtain ⟨m, header, ms', n, rfl, hpart, -⟩ := hin
  have hbody : s.taken ++ [c] ++ rest <+: body := by
    rw [List.append_assoc]
    exact hahead
  have hnext := (hpart.push [c]).ahead hbody
  have hpending : crlf ++ boundary ++ [x] ++ [c] = crlf ++ boundary ++ crlf := by
    rw [List.append_assoc, List.singleton_append, hcrlf]
  have hdelim : DelimAt (crlf ++ boundary) ((body.drop m).drop n) := by
    refine Or.inl (List.IsPrefix.trans ?_ hnext)
    rw [hpending]
    exact List.prefix_append _ _
  have hvalue := hpart.clear.value_eq hdelim
  -- the value ends exactly where the pattern began
  have hlen : (partValue (crlf ++ boundary) (body.drop m)).length = n := by
    have hle := (hpart.push [c]).le
    have hlong := hbody.length_le
    rw [List.length_append] at hlong
    rw [hvalue, List.length_take, List.length_drop]
    omega
  show s.taken ++ [c] = _
  rw [hlen]
  have hfront : (s.taken ++ [c]).take (m + n) = body.take (m + n) := by
    obtain ⟨t, rfl⟩ := hbody
    rw [List.append_assoc, List.take_append_of_le_length (hpart.push [c]).le]
  calc s.taken ++ [c] = (s.taken ++ [c]).take (m + n) ++ (s.taken ++ [c]).drop (m + n) :=
        (List.take_append_drop _ _).symm
    _ = body.take (m + n) ++ (crlf ++ boundary ++ crlf) := by
        rw [hfront, (hpart.push [c]).pending, hpending]
    _ = body.take (m + n) ++ (crlf ++ boundary) ++ crlf := (List.append_assoc _ _ _).symm

/-- A part is closed, and the machine stands where `hplace` says. -/
theorem FieldInv.endPart {delim : List UInt8} {s' : PostStream} {rest' : List UInt8}
    (h : FieldInv delim body s rest ms) (H : Handler) (pos : Nat) (success : Bool)
    (hsink : s'.sink = endPart H pos s.sink success)
    (hahead : s'.state ≠ .error → s'.taken ++ rest' <+: body)
    (hplace : Place delim body s ms → Place delim body s' ms) :
    FieldInv delim body s' rest' ms := by
  have hdiscard := (endPart_trace H pos s.sink success).2.2.1
  refine ⟨h.parts, ?_, hahead, ?_, ?_⟩
  · rw [hsink]
    exact endPart_recorded h.records H pos success
  · rw [hsink, hdiscard]
    exact h.discarded
  · rw [hsink, hdiscard]
    intro hab hd
    exact hplace (h.place (endPart_aborted hab) hd)

/-- A delimiter closes the part that is open, if one is. -/
theorem FieldInv.close {delim : List UInt8} {s' : PostStream} {rest' : List UInt8}
    (h : FieldInv delim body s rest ms) (H : Handler) (pos : Nat) (inData : Bool)
    (hsink : s'.sink = if inData then Post.endPart H pos s.sink true else s.sink)
    (hahead : s'.state ≠ .error → s'.taken ++ rest' <+: body)
    (hplace : Place delim body s ms → Place delim body s' ms) :
    FieldInv delim body s' rest' ms := by
  cases inData with
  | true => exact h.endPart H pos true hsink hahead hplace
  | false => exact h.of_sink hsink hahead hplace

/-- The second byte behind a boundary. -/
theorem FieldInv.delimSecond {x c : UInt8}
    (h : FieldInv (crlf ++ boundary) body s (c :: rest) ms) (hd : s.delim = crlf ++ boundary)
    (hcr : cr ∉ boundary) (hs : s.state = .delimCheck) (hh : s.hold = [x]) :
    FieldInv (crlf ++ boundary) body (delimCheck H (s.pushHold [c])) rest ms := by
  have hne : s.state ≠ .error := by
    rw [hs]
    decide
  have hahead : s.taken ++ [c] ++ rest <+: body := FieldInv.ahead_take (u := [c]) h hne
  have hhold : (s.pushHold [c]).hold = [x, c] := by simp [PostStream.pushHold, hh]
  have hopens : [x, c] = crlf → Place (crlf ++ boundary) body s ms →
      Opens (crlf ++ boundary) body ms (s.taken ++ [c]) crlf := by
    intro hxc hplace
    have hplace' := (place_delimCheck hs).mp hplace
    rw [hh] at hplace'
    cases hdata : s.delimInData with
    | true =>
        rw [if_pos hdata] at hplace'
        exact hplace'.opens (h.ahead hne) hxc
    | false =>
        rw [if_neg (by simp [hdata])] at hplace'
        obtain ⟨rfl, preamble, hpre⟩ := hplace'
        refine ⟨preamble, ?_⟩
        rw [← hpre, ← hxc]
        simp
  -- the last delimiter, one with another part behind it, data, or a line of the preamble
  rcases delimCheck_cases H (s.pushHold [c]) with ⟨-, heq⟩ | ⟨hxc, heq⟩ | ⟨hdash, hcrlf, hdata, heq⟩ |
    ⟨-, -, hdata, heq⟩
  · rw [heq]
    exact h.close H (s.taken ++ [c]).length s.delimInData rfl (fun _ => hahead) (fun _ => trivial)
  · rw [heq]
    have hxc' : [x, c] = crlf := hhold.symm.trans hxc
    exact h.close H (s.taken ++ [c]).length s.delimInData rfl (fun _ => hahead) (hopens hxc')
  · rw [heq, hhold]
    rw [hhold] at hdash hcrlf
    exact h.noDelimiter hd hcr hs hh hcrlf hdash hdata
  · rw [heq]
    refine h.of_sink rfl (fun _ => hahead) ?_
    intro hplace
    have hplace' := (place_delimCheck hs).mp hplace
    have hdata' : s.delimInData = false := hdata
    rw [hdata'] at hplace'
    exact ⟨hplace'.1, List.nil_suffix⟩

theorem headerComplete_of_short {q : List UInt8} (h : q.length < 4) : headerComplete q = false := by
  unfold headerComplete
  apply decide_eq_false
  intro hq
  omega

/-- A part header begins with the CRLF behind the boundary. -/
theorem collecting_crlf : Collecting crlf where
  first := List.prefix_rfl
  more := by
    intro q hq
    apply headerComplete_of_short
    have : q.length ≤ 2 := hq.length_le
    omega

theorem Collecting.push {header : List UInt8} {c : UInt8} (h : Collecting header)
    (hmore : headerComplete (header ++ [c]) = false) : Collecting (header ++ [c]) where
  first := h.first.trans (List.prefix_append _ _)
  more := by
    intro q hq
    rcases List.prefix_concat_iff.mp hq with rfl | hq'
    · exact hmore
    · exact h.more q hq'

theorem Collecting.done {header : List UInt8} {c : UInt8} (h : Collecting header)
    (hdone : headerComplete (header ++ [c]) = true) : IsPartHeader (header ++ [c]) where
  first := h.first.trans (List.prefix_append _ _)
  complete := hdone
  minimal := by
    intro q hq hne
    rcases List.prefix_concat_iff.mp hq with rfl | hq'
    · exact absurd rfl hne
    · exact h.more q hq'

theorem Opens.push {delim taken header : List UInt8} (h : Opens delim body ms taken header)
    (c : UInt8) : Opens delim body ms (taken ++ [c]) (header ++ [c]) := by
  cases ms with
  | nil =>
      obtain ⟨preamble, rfl⟩ := h
      exact ⟨preamble, List.append_assoc _ _ _⟩
  | cons part ms =>
      have htaken : taken = _ := h
      show taken ++ [c] = _
      rw [htaken, List.append_assoc]

/-- Without an abort the header buffer holds the header and not only its end. -/
theorem pushHeaderByte_eq {partHeader : List UInt8} {aborted : Bool} (c : UInt8)
    (hroom : partHeader.length + 1 < postStreamMaxPartHeader ∨ aborted = true)
    (hab : aborted = false) : pushHeaderByte partHeader c = partHeader ++ [c] := by
  have hshort : partHeader.length + 1 < postStreamMaxPartHeader := by
    rcases hroom with hroom | hroom
    · exact hroom
    · exact absurd (hab.symm.trans hroom) (by decide)
  unfold pushHeaderByte
  rw [if_neg (Nat.not_le.mpr hshort)]

/-- What opening a part does: a record is put in front, unless the body is discarded. -/
theorem openPart_records (H : Handler) (pos : Nat) (k : PartSink)
    (fieldName fileName : Option (List UInt8)) :
    let k' := openPart H pos k fieldName fileName
    (k.discard = true ∧ k'.parts = k.parts) ∨
    (k.discard = false ∧ k'.currentPart = true ∧ k'.partIsFile = fileName.isSome ∧
      (fileName.isSome = false → k'.aborted = k.aborted) ∧
      k'.parts = {
        name := ((if fileName.isSome then fileName else fieldName).getD []).take postStreamMaxName
        isFile := fileName.isSome } :: k.parts) := by
  intro k'
  unfold k' openPart
  dsimp only
  by_cases hdiscard : k.discard = true
  · rw [if_pos hdiscard]
    exact Or.inl ⟨hdiscard, rfl⟩
  · rw [if_neg hdiscard]
    have hkeep : k.discard = false := by simpa using hdiscard
    by_cases hfile : fileName.isSome = true
    · rw [if_pos hfile]
      refine Or.inr ⟨hkeep, rfl, rfl, ?_, rfl⟩
      intro hf
      exact absurd (hf.symm.trans hfile) (by decide)
    · rw [if_neg hfile]
      exact Or.inr ⟨hkeep, rfl, rfl, fun _ => rfl, rfl⟩

/-- **The end of a part header** opens the next part of the body. -/
theorem FieldInv.headerDone {delim : List UInt8} {c : UInt8}
    (h : FieldInv delim body s (c :: rest) ms) (hwf : s.WF) (hs : s.state = .partHeader)
    (hroom : s.partHeader.length + 1 < postStreamMaxPartHeader ∨ s.sink.aborted = true)
    (hdone : headerComplete (s.pushHeader c).partHeader = true) :
    ∃ ms', FieldInv delim body
      { (beginPart H (s.pushHeader c)).1 with
        state := if (beginPart H (s.pushHeader c)).2 then .partData else .error } rest ms' := by
  have hne : s.state ≠ .error := by
    rw [hs]
    decide
  have hahead : s.taken ++ [c] ++ rest <+: body := FieldInv.ahead_take (u := [c]) h hne
  -- after an abort nothing is recorded; the limit of parts is an error; or a part begins
  rcases beginPart_cases H (s.pushHeader c) with ⟨hab, heq⟩ | ⟨-, -, heq⟩ | ⟨hab, -, heq⟩
  · rw [heq]
    refine ⟨ms, h.parts, h.records, fun _ => hahead, h.discarded, ?_⟩
    intro hno
    exact absurd (hab.symm.trans hno) (by decide)
  · rw [heq]
    exact ⟨ms, h.parts, h.records, fun hno => absurd rfl hno, h.discarded, fun _ _ => trivial⟩
  · rw [heq]
    replace hab : s.sink.aborted = false := hab
    rcases openPart_records H (s.taken ++ [c]).length { s.sink with currentPart := false }
      (extractDispositionValue (s.pushHeader c).partFields.contentDisposition (ascii "name="))
      (extractDispositionValue (s.pushHeader c).partFields.contentDisposition (ascii "filename="))
      with ⟨hd, hparts⟩ | ⟨hd, hcurrent, hfile, haborted, hparts⟩
    · refine ⟨ms, h.parts, ?_, fun _ => hahead, fun _ => h.discarded hd, ?_⟩
      · refine (congrArg (fun l => List.Forall₂ (RecordOf delim body) l ms) hparts).mpr ?_
        exact h.records
      · intro _ hno
        have hd' := (openPart_discard H (s.taken ++ [c]).length
          { s.sink with currentPart := false } _ _).symm.trans hno
        exact absurd (hd.symm.trans hd') (by decide)
    · obtain ⟨hopens, hcollect⟩ := (place_partHeader hs).mp (h.place hab hd)
      have hpush : pushHeaderByte s.partHeader c = s.partHeader ++ [c] :=
        pushHeaderByte_eq c hroom hab
      have hdone' : headerComplete (s.partHeader ++ [c]) = true := hpush ▸ hdone
      have hbody : s.taken ++ [c] <+: body := (List.prefix_append _ _).trans hahead
      -- the new record stands for the part that begins here, with nothing buffered yet
      refine ⟨((s.taken ++ [c]).length, s.partHeader ++ [c]) :: ms,
        PartsOf.cons h.parts (hopens.push c) hbody (hcollect.done hdone'), ?_, fun _ => hahead, ?_, ?_⟩
      · refine (congrArg (fun l => List.Forall₂ (RecordOf delim body) l _) hparts).mpr ?_
        refine List.Forall₂.cons ⟨⟨s.header, ?_⟩, fun _ => List.nil_prefix⟩ h.records
        have hfields : (s.pushHeader c).partFields = (analyseFormDataLine (s.partHeader ++ [c])
            { s.header with contentDisposition := none, contentType := none }).1 := by
          rw [← hpush]
          rfl
        rw [← hfields]
        exact ⟨rfl, rfl⟩
      · intro hd'
        have := (openPart_discard H (s.taken ++ [c]).length
          { s.sink with currentPart := false } _ _).symm.trans hd'
        exact absurd (hd.symm.trans this) (by decide)
      · intro _ _
        refine (place_partData rfl).mpr ⟨_, _, ms, 0, rfl, ⟨?_, Nat.le_refl _, ?_⟩, ?_⟩
        · intro j hj
          exact absurd hj (Nat.not_lt_zero j)
        · show (s.taken ++ [c]).drop (s.taken ++ [c]).length = s.hold
          rw [List.drop_length, hwf.header hs]
        · intro p ps hp hfield
          obtain ⟨rfl, -⟩ := List.cons_eq_cons.mp (hparts.symm.trans hp)
          exact ⟨hcurrent, hfile.trans hfield, (haborted hfield).trans hab, fun _ => rfl⟩

/-- The last byte of the pattern. -/
theorem FieldInv.found {c : UInt8} (h : FieldInv (crlf ++ boundary) body s (c :: rest) ms)
    (hwf : s.WF) (hd : s.delim = crlf ++ boundary) (hs : s.Scanning)
    (hc : s.needle[s.hold.length]? = some c) (hl : s.hold.length + 1 = s.needle.length) :
    FieldInv (crlf ++ boundary) body (s.found [c]) rest ms := by
  have hne : s.state ≠ .error := by
    rcases hs with hs | hs <;> simp [hs]
  have hfull : s.hold ++ [c] = s.needle :=
    (prefix_snoc (hwf.scan hs).1 hc).eq_of_length (by simpa using hl)
  refine h.of_sink rfl (fun _ => FieldInv.ahead_take (u := [c]) h hne) ?_
  intro hplace
  refine (place_delimCheck rfl).mpr ?_
  rcases hs with hs | hs
  · -- in the preamble the CRLF of the pattern is not asked for
    have hinData : (s.found [c]).delimInData = false := by simp [PostStream.found, hs]
    have hneedle : s.needle = (crlf ++ boundary).drop 2 := by
      rw [PostStream.needle, if_neg (by simp [hs]), hd]
    obtain ⟨hms, hsuf⟩ := (place_preamble hs).mp hplace
    rw [hinData]
    refine ⟨hms, ?_⟩
    show (crlf ++ boundary).drop 2 ++ [] <:+ s.taken ++ [c]
    rw [List.append_nil, ← hneedle, ← hfull]
    exact suffix_snoc hsuf c
  · have hinData : (s.found [c]).delimInData = true := by simp [PostStream.found, hs]
    have hneedle : s.needle = crlf ++ boundary := by rw [PostStream.needle, if_pos hs, hd]
    obtain ⟨m, header, ms', n, hms, hin, hbuf⟩ := (place_partData hs).mp hplace
    rw [if_pos hinData]
    refine ⟨m, header, ms', n, hms, ?_, hbuf⟩
    show InPart _ body (s.taken ++ [c]) (crlf ++ boundary ++ []) m n
    have hpush := hin.push [c]
    rw [hfull, hneedle] at hpush
    rw [List.append_nil]
    exact hpush

/-- A byte is held back, because it continues the pattern or because it stands behind it. -/
theorem FieldInv.pushHold {c : UInt8} (h : FieldInv (crlf ++ boundary) body s (c :: rest) ms)
    (hs : s.Scanning ∨ s.state = .delimCheck) :
    FieldInv (crlf ++ boundary) body (s.pushHold [c]) rest ms := by
  have hne : s.state ≠ .error := by
    rcases hs with (hs | hs) | hs <;> simp [hs]
  refine h.of_sink rfl (fun _ => FieldInv.ahead_take (u := [c]) h hne) ?_
  intro hplace
  rcases hs with (hs | hs) | hs
  · obtain ⟨hms, hsuf⟩ := (place_preamble hs).mp hplace
    have hs' : (s.pushHold [c]).state = .preamble := hs
    exact (place_preamble hs').mpr ⟨hms, suffix_snoc hsuf c⟩
  · obtain ⟨m, header, ms', n, hms, hin, hbuf⟩ := (place_partData hs).mp hplace
    have hs' : (s.pushHold [c]).state = .partData := hs
    exact (place_partData hs').mpr ⟨m, header, ms', n, hms, hin.push [c], hbuf⟩
  · have hplace' := (place_delimCheck hs).mp hplace
    have hs' : (s.pushHold [c]).state = .delimCheck := hs
    refine (place_delimCheck hs').mpr ?_
    show if s.delimInData then _ else _
    cases hdata : s.delimInData with
    | true =>
        rw [if_pos hdata] at hplace'
        obtain ⟨m, header, ms', n, hms, hin, hbuf⟩ := hplace'
        refine ⟨m, header, ms', n, hms, ?_, hbuf⟩
        have := hin.push [c]
        rwa [List.append_assoc] at this
    | false =>
        rw [if_neg (by simp [hdata])] at hplace'
        refine ⟨hplace'.1, ?_⟩
        have := suffix_snoc hplace'.2 c
        rwa [List.append_assoc] at this

end Moves

/-- **Every move** keeps the records those of the first parts of the body. -/
theorem Step.fields {H : Handler} {boundary body : List UInt8} {c c' : Config}
    {ms : List (Nat × List UInt8)} (hstep : Step H c c') (hwf : c.1.WF)
    (hd : c.1.delim = crlf ++ boundary) (hcr : cr ∉ boundary)
    (h : FieldInv (crlf ++ boundary) body c.1 c.2 ms) :
    ∃ ms', FieldInv (crlf ++ boundary) body c'.1 c'.2 ms' := by
  have hne := hstep.not_error
  cases hstep with
  -- one case for each kind of move; most of them leave the receiving side alone
  | @skip s run rest hs hh hr =>
      refine ⟨ms, h.of_sink rfl (fun _ => h.ahead_take hne) ?_⟩
      intro hplace
      have hs' : (s.take run).state = .preamble := hs
      refine (place_preamble hs').mpr ⟨((place_preamble hs).mp hplace).1, ?_⟩
      show s.hold <:+ _
      rw [hh]
      exact List.nil_suffix
  | @emitRun s run rest hs hh hr => exact ⟨ms, h.emitRun hd hs hh hr⟩
  | @push s c rest hs hc hl => exact ⟨ms, h.pushHold (Or.inl hs)⟩
  | @found s c rest hs hc hl => exact ⟨ms, h.found hwf hd hs hc hl⟩
  | @preambleMismatch s c rest hs hh hc =>
      refine ⟨ms, h.of_sink rfl (fun _ => h.ahead hne) ?_⟩
      intro hplace
      have hs' : ({ s with hold := [] } : PostStream).state = .preamble := hs
      exact (place_preamble hs').mpr ⟨((place_preamble hs).mp hplace).1, List.nil_suffix⟩
  | @dataMismatch s b c t rest hs hh hc => exact ⟨ms, h.dataMismatch hwf hd hcr hs hh hc⟩
  | @delimFirst s c rest hs hh => exact ⟨ms, h.pushHold (Or.inr hs)⟩
  | @delimSecond s x c rest hs hh => exact ⟨ms, h.delimSecond hd hcr hs hh⟩
  -- the CRLF behind the boundary already belongs to the part header
  | @afterBoundary s c rest hs =>
      refine ⟨ms, h.parts, h.records, fun _ => h.ahead hne, h.discarded, ?_⟩
      intro hab hdiscard
      have hplace := h.place (Bool.or_eq_false_iff.mp hab).1 hdiscard
      exact (place_partHeader rfl).mpr ⟨(place_afterBoundary hs).mp hplace, collecting_crlf⟩
  | @header s c rest hs hroom hmore =>
      refine ⟨ms, h.parts, h.records, fun _ => FieldInv.ahead_take (u := [c]) h hne,
        h.discarded, ?_⟩
      intro hab hdiscard
      obtain ⟨hopens, hcollect⟩ := (place_partHeader hs).mp (h.place hab hdiscard)
      have hpush : (s.pushHeader c).partHeader = s.partHeader ++ [c] := pushHeaderByte_eq c hroom hab
      have hs' : (s.pushHeader c).state = .partHeader := hs
      refine (place_partHeader hs').mpr ?_
      rw [hpush] at hmore ⊢
      exact ⟨hopens.push c, hcollect.push hmore⟩
  | @headerTooLong s c rest hs hfull hab =>
      exact ⟨ms, h.of_sink rfl (fun hno => absurd rfl hno) (fun _ => trivial)⟩
  | @headerDone s c rest hs hroom hdone => exact h.headerDone hwf hs hroom hdone
  | @epilogue s rest hs =>
      refine ⟨ms, h.of_sink rfl (fun _ => ?_) ?_⟩
      · show s.taken ++ rest ++ [] <+: body
        rw [List.append_nil]
        exact h.ahead hne
      · intro _
        have hs' : (s.take rest).state = .epilogue := hs
        unfold Place
        rw [hs']
        trivial

theorem Steps.fields {H : Handler} {boundary body : List UInt8} {c c' : Config}
    {ms : List (Nat × List UInt8)} (hsteps : Steps H c c') (hwf : c.1.WF)
    (hd : c.1.delim = crlf ++ boundary) (hcr : cr ∉ boundary)
    (h : FieldInv (crlf ++ boundary) body c.1 c.2 ms) :
    ∃ ms', FieldInv (crlf ++ boundary) body c'.1 c'.2 ms' := by
  induction hsteps with
  | refl => exact ⟨ms, h⟩
  | tail hsteps hstep ih =>
      obtain ⟨ms', h'⟩ := ih
      exact hstep.fields (Steps.wf hsteps hwf) ((Steps.taken hsteps).2.1.trans hd) hcr h'

/-! ## Whole streams -/

/-- The receiving side matters to the place of the machine only while a field is received. -/
theorem Place.of_buffers {delim body : List UInt8} {s : PostStream} {ms : List (Nat × List UInt8)}
    {k : PartSink} (h : Place delim body s ms) (hk : ∀ u, Buffers k u) :
    Place delim body { s with sink := k } ms := by
  have hinside : ∀ pending, Inside delim body s ms pending →
      Inside delim body { s with sink := k } ms pending := by
    rintro pending ⟨m, header, ms', n, hms, hin, -⟩
    exact ⟨m, header, ms', n, hms, hin, hk _⟩
  unfold Place at h ⊢
  dsimp only at h ⊢
  cases hs : s.state with
  | partData =>
      rw [hs] at h
      exact hinside _ h
  | delimCheck =>
      rw [hs] at h
      dsimp only at h ⊢
      split_ifs at h ⊢
      · exact hinside _ h
      · exact h
  | preamble | afterBoundary | partHeader | epilogue | error =>
      rw [hs] at h
      exact h

/-- The end of a stream closes a file, and no field is received then. -/
theorem postStreamFinish_fields {H : Handler} {first : List PartCalls} {delim body : List UInt8}
    {s : PostStream} {rest : List UInt8} {ms : List (Nat × List UInt8)}
    (h : FieldInv delim body s rest ms) (hup : UploadInv H first s.sink) :
    FieldInv delim body (postStreamFinish H s false) rest ms := by
  unfold postStreamFinish
  split_ifs with hc
  · refine h.endPart H s.taken.length false rfl h.ahead ?_
    intro hplace
    refine hplace.of_buffers ?_
    intro u p ps hp hfield
    obtain ⟨-, -, fileName, -, files, -, -, -, hparts, -⟩ := hup.isOpen hc.2
    -- the record in front is that of the open file
    exfalso
    rcases (endPart_records H s.taken.length s.sink false).2.2 with
      hsame | ⟨q, rest', length, failed, hk, hfile, hset⟩
    · rw [hsame, hparts] at hp
      obtain ⟨rfl, -⟩ := List.cons_eq_cons.mp hp
      exact absurd hfield (by simp [openRecord])
    · rw [hset] at hp
      obtain ⟨rfl, -⟩ := List.cons_eq_cons.mp hp
      exact absurd (hfield.symm.trans hfile) (by decide)
  · exact h

/-- The moves of a call of `postStreamFeed`, from the machine at its start. -/
theorem FieldInv.start {H : Handler} {delim body fed data : List UInt8} {discard : Bool}
    {s : PostStream} {ms : List (Nat × List UInt8)} (h : FieldInv delim body s [] ms)
    (hs : StreamInv H delim fed discard s) (hbody : fed ++ data <+: body) :
    FieldInv delim body (s.count data.length) data ms := by
  refine ⟨h.parts, h.records, ?_, h.discarded, h.place⟩
  intro hne
  have htaken : s.taken = fed := hs.fed.2 hne
  show s.taken ++ data <+: body
  rw [htaken]
  exact hbody

theorem StreamInv.feed_fields {H : Handler} {first : List PartCalls}
    {boundary body fed : List UInt8} {discard : Bool} {s : PostStream}
    {ms : List (Nat × List UInt8)} (hs : StreamInv H (crlf ++ boundary) fed discard s)
    (hcr : cr ∉ boundary) (hup : UploadInv H first s.sink)
    (h : FieldInv (crlf ++ boundary) body s [] ms) (data : List UInt8)
    (hbody : fed ++ data <+: body) :
    ∃ ms', FieldInv (crlf ++ boundary) body (postStreamFeed H s data).1 [] ms' := by
  obtain ⟨s', rest, hsteps, hend⟩ := postStreamFeed_steps H s data hs.inv.wf hs.active
  have hup' : UploadInv H first s'.sink := hsteps.uploads (hs.inv.withHeader _) hup
  obtain ⟨ms', h'⟩ := hsteps.fields (hs.inv.wf.count _) hs.delim hcr (h.start hs hbody)
  rcases hend with ⟨herror, heq⟩ | ⟨hrest, -, heq⟩
  · rw [heq]
    exact ⟨ms', h'.parts, h'.records, fun hne => absurd herror hne, h'.discarded, h'.place⟩
  · rw [heq]
    have hdone : FieldInv (crlf ++ boundary) body s' [] ms' := hrest ▸ h'
    unfold feedEnd
    split_ifs
    · exact ⟨ms', postStreamFinish_fields hdone hup'⟩
    · exact ⟨ms', hdone⟩
    · exact ⟨ms', hdone⟩

/-- **What is recorded of every stream.** -/
theorem runActions_fields (H : Handler) (header : HttpRequestHeader) {boundary : List UInt8}
    (discard : Bool) (hb : boundary ≠ []) (hcr : cr ∉ boundary) {body : List UInt8}
    (acts : List StreamAction) (hbody : fedBytes acts <+: body) :
    ∃ ms, FieldInv (crlf ++ boundary) body
      (runActions H (startPostStream header boundary discard) acts) [] ms := by
  induction acts using List.reverseRecOn with
  | nil =>
      refine ⟨[], PartsOf.nil, List.Forall₂.nil, fun _ => List.nil_prefix, fun _ => rfl, ?_⟩
      intro _ _
      exact ⟨rfl, List.nil_suffix⟩
  | append_singleton acts a ih =>
      rw [fedBytes_snoc] at hbody
      obtain ⟨ms, h⟩ := ih ((List.prefix_append _ _).trans hbody)
      have hs := runActions_inv H header boundary discard hb acts
      have hstart : StreamInv H (crlf ++ boundary) [] discard
          (startPostStream header boundary discard) :=
        ⟨startPostStream_inv H header boundary discard hb, rfl, rfl, rfl, List.prefix_rfl,
          fun _ => rfl⟩
      have hup := runActions_uploads hstart (startPostStream_uploads H header boundary discard) acts
      rw [runActions_snoc]
      cases a with
      | feed data => exact hs.feed_fields hcr hup h data hbody
      | disconnect => exact ⟨ms, postStreamFinish_fields h hup⟩

/-- **The bounds of a stream.** For every body and every cutting of it, every handler and every
disconnect, between two calls and after every move within a call: there are at most
`POST_STREAM_MAX_PARTS` records, every name is at most `POST_STREAM_MAX_NAME` bytes long, every
form field is within its limit and has its buffer, the total is the sum of the fields and within
its limit, the part header fits its buffer and no more than a delimiter is held back. The records
are those of the first parts of the body, one for one, and what is buffered of a field is a prefix
of its value, whatever is still to come. -/
theorem post_stream_resource_bounds (H : Handler) (header : HttpRequestHeader) (b : List UInt8)
    (hcr : cr ∉ b) (discard : Bool) (acts : List StreamAction) (data more : List UInt8) :
    let delim := crlf ++ (ascii "--" ++ b)
    let s := runActions H (startPostStream header (ascii "--" ++ b) discard) acts
    (s.Limits ∧ Recorded delim (fedBytes acts ++ more) s.sink) ∧
    ∀ c : Config, Steps H (s.count data.length, data) c →
      c.1.Limits ∧ Recorded delim (fedBytes acts ++ data ++ more) c.1.sink := by
  intro delim s
  have hb : ascii "--" ++ b ≠ [] := by simp [ascii]
  have hplain := cr_not_mem_boundary hcr
  have hs : StreamInv H delim (fedBytes acts) discard s :=
    runActions_inv H header (ascii "--" ++ b) discard hb acts
  have hlimits : s.Limits := runActions_limits H header (ascii "--" ++ b) discard hb acts
  constructor
  · obtain ⟨ms, h⟩ := runActions_fields H header discard hb hplain acts
      (List.prefix_append (fedBytes acts) more)
    exact ⟨hlimits, ms, h.parts, h.records⟩
  · intro c hsteps
    have hbody : fedBytes acts ++ data <+: fedBytes acts ++ data ++ more := List.prefix_append _ _
    obtain ⟨ms, h⟩ := runActions_fields H header discard hb hplain acts
      ((List.prefix_append _ _).trans hbody)
    have hcount : (s.count data.length).Limits :=
      ⟨hlimits.sink, hlimits.header, hlimits.hold, hlimits.room⟩
    obtain ⟨ms', h'⟩ := hsteps.fields (hs.inv.wf.count _) hs.delim hplain (h.start hs hbody)
    exact ⟨hsteps.limits (hs.inv.wf.count _) hcount, ms', h'.parts, h'.records⟩

/-- A form field whose read ends in the middle of its delimiter. -/
theorem post_stream_resource_bounds_field :
    let acts := [StreamAction.feed
      (ascii "--B\r\nContent-Disposition: form-data; name=\"a\"\r\n\r\nhi\r\n-")]
    let s := runActions (fun _ => false) (startPostStream { contentlenght := 72 } (ascii "--B") false)
      acts
    s.sink.parts.map (fun p => (p.name, p.data, p.capacity)) = [(ascii "a", ascii "hi", 256)] ∧
      s.Limits ∧ Recorded (crlf ++ ascii "--B") (fedBytes acts ++ ascii "-B--") s.sink := by
  refine ⟨by decide +kernel, ?_⟩
  exact (post_stream_resource_bounds (fun _ => false) { contentlenght := 72 } (ascii "B")
    (by decide) false _ [] (ascii "-B--")).1

end CWebUI.Post
