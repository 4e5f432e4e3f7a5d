import CWebUI.Basic.Blocks
import CWebUI.Proxy.Injection

set_option autoImplicit false

/-! # Lines inserted into a buffer

A request and a response of a proxy connection each have a buffer with three numbers: its size, how
far it is filled, and where the header ends. `proxy_inject_forwarded_headers` and
`proxy_inject_connection_close` (`reverse_proxy.c`) put lines into such a buffer while bytes of the
body stand behind the header: the body is moved within the buffer when there is room for the lines,
and into a larger one when there is not. `HeaderBuffer.insertText` is what both do then.

The header itself is written as in `Proxy/Injection.lean`; here it is connected to the buffer
(`Inserted`), for both ways and every room there is.
-/

namespace CWebUI.Proxy

open ByteString ListLemmas

/-! ## The buffer -/

/-- `request_buffer` or `response_buffer` of a connection, with the fields beside it: the block that
is allocated, its size, how many bytes of it are filled, and where the header ends. -/
structure HeaderBuffer where
  block : List UInt8
  size : UInt32
  pos : UInt32
  headerEnd : UInt32

/-- `WebserverMalloc`: a block of the length that is asked for, or `NULL`. What stands in the block
is not known. -/
structure Allocator where
  malloc : Nat → Option (List UInt8)
  length_eq : ∀ {n : Nat} {block : List UInt8}, malloc n = some block → block.length = n

/-- The header part of the buffer. -/
def HeaderBuffer.header (b : HeaderBuffer) : List UInt8 := b.block.take b.headerEnd.toNat

/-- The bytes of the buffer that are filled. -/
def HeaderBuffer.contents (b : HeaderBuffer) : List UInt8 := b.block.take b.pos.toNat

/-- `proxy_force_connection_close` on the header part, with its result. -/
def HeaderBuffer.forceConnectionClose (b : HeaderBuffer) : Int × HeaderBuffer :=
  match proxyForceConnectionClose b.header with
  | some forced => (1, { b with block := forced ++ b.block.drop b.headerEnd.toNat })
  | none => (0, b)

/-- Insert lines before the empty line that ends the header, as both injections do. With a
larger buffer the header is copied to its front first. -/
def HeaderBuffer.insertText (a : Allocator) (b : HeaderBuffer) (text : List UInt8) :
    Option (Int × HeaderBuffer) :=
  let len := UInt32.ofNat text.length
  let newSize := b.pos + len
  let bodyStart := b.headerEnd
  let bodyLen := b.pos - bodyStart
  -- what is left to do once it is known which buffer the bytes go to
  let fill (new : List UInt8) (size : UInt32) : Option (Int × HeaderBuffer) := do
    let new ← copyInto new (b.headerEnd - 2 + len + 2).toNat b.block bodyStart.toNat bodyLen.toNat
    let new ← copyInto new (b.headerEnd - 2).toNat text 0 text.length
    let new ← copyInto new (b.headerEnd - 2 + len).toNat [cr] 0 1
    let new ← copyInto new (b.headerEnd - 2 + len + 1).toNat [lf] 0 1
    some (0, { block := new, size := size, pos := b.pos + len, headerEnd := b.headerEnd + len })
  if b.size < newSize then
    match a.malloc (newSize + 1024).toNat with
    | none => some (-1, b)
    | some fresh => do
        let new ← copyInto fresh 0 b.block 0 (b.headerEnd - 2).toNat
        fill new (newSize + 1024)
  else fill b.block b.size

/-- `proxy_inject_forwarded_headers`, on the buffer. -/
def HeaderBuffer.injectForwardedHeaders (setup : ProxySetup) (a : Allocator) (b : HeaderBuffer) :
    Option (Int × HeaderBuffer) :=
  let (b, connClose) :=
    if proxyRequestIsUpgrade b.header then (b, [])
    else
      let (code, b) := b.forceConnectionClose
      (b, if code = 0 then connectionCloseLine else [])
  let text := forwardedHeaders setup b.header connClose
  if text.length ≥ 512 then some (-1, b) else b.insertText a text

/-- `proxy_inject_connection_close`, on the buffer. -/
def HeaderBuffer.injectConnectionClose (a : Allocator) (b : HeaderBuffer) :
    Option (Int × HeaderBuffer) :=
  let (code, b) := b.forceConnectionClose
  if code = 1 then some (0, b) else b.insertText a connectionCloseLine

/-- The largest size that the code gives to a buffer before lines are inserted: requests grow with
their announced length up to 512 MB, responses keep their 64 KB. -/
def bufferCap : Nat := 512 * 1024 * 1024

/-- The buffer holds this header and this body. -/
structure HeaderBuffer.Holds (b : HeaderBuffer) (header body : List UInt8) : Prop where
  block : b.block.length = b.size.toNat
  room : b.pos.toNat ≤ b.size.toNat
  pos : b.pos.toNat = header.length + body.length
  headerEnd : b.headerEnd.toNat = header.length
  contents : b.contents = header ++ body

theorem HeaderBuffer.Holds.header_eq {b : HeaderBuffer} {header body : List UInt8}
    (h : b.Holds header body) : b.header = header := by
  have hpos := h.pos
  have hend := h.headerEnd
  have hc := congrArg (List.take header.length) h.contents
  rw [HeaderBuffer.contents, List.take_take, Nat.min_eq_left (by omega), List.take_left] at hc
  rw [HeaderBuffer.header, hend, hc]

/-- The windows of the buffer. -/
theorem HeaderBuffer.Holds.window_header {b : HeaderBuffer} {header body : List UInt8}
    (h : b.Holds header body) {n : Nat} (hn : n ≤ header.length) :
    window b.block 0 n = header.take n := by
  rw [← h.header_eq, HeaderBuffer.header, h.headerEnd, window_zero, List.take_take,
    Nat.min_eq_left hn]

theorem HeaderBuffer.Holds.window_body {b : HeaderBuffer} {header body : List UInt8}
    (h : b.Holds header body) : window b.block header.length body.length = body := by
  have hc := h.contents
  rw [HeaderBuffer.contents, h.pos] at hc
  rw [← window_take (Nat.le_refl (header.length + body.length)), hc, window_append_right]

/-! ## Inserting lines -/

/-- The lines fit: what is computed with the numbers of the buffer does not overflow. -/
structure Positions (b : HeaderBuffer) (header body text : List UInt8) : Prop where
  front : (b.headerEnd - 2).toNat = header.length - 2
  behind : (b.headerEnd - 2 + UInt32.ofNat text.length).toNat = header.length - 2 + text.length
  last : (b.headerEnd - 2 + UInt32.ofNat text.length + 1).toNat = header.length - 1 + text.length
  moved : (b.headerEnd - 2 + UInt32.ofNat text.length + 2).toNat = header.length + text.length
  bodyLen : (b.pos - b.headerEnd).toNat = body.length
  pos : (b.pos + UInt32.ofNat text.length).toNat = header.length + body.length + text.length
  headerEnd : (b.headerEnd + UInt32.ofNat text.length).toNat = header.length + text.length
  larger : (b.pos + UInt32.ofNat text.length + 1024).toNat =
    header.length + body.length + text.length + 1024

theorem HeaderBuffer.Holds.positions {b : HeaderBuffer} {header body text : List UInt8}
    (h : b.Holds header body) (hheader : 4 ≤ header.length) (hcap : b.size.toNat ≤ bufferCap)
    (htext : text.length < 512) : Positions b header body text := by
  have hroom := h.room
  have hpos := h.pos
  have hend := h.headerEnd
  have hlen : (UInt32.ofNat text.length).toNat = text.length := by
    rw [UInt32.toNat_ofNat', Nat.mod_eq_of_lt (by omega)]
  have hsize : header.length + body.length ≤ 512 * 1024 * 1024 := by
    rw [← hpos]
    exact Nat.le_trans hroom hcap
  have hone : (1 : UInt32).toNat = 1 := rfl
  have htwo : (2 : UInt32).toNat = 2 := rfl
  have hslack : (1024 : UInt32).toNat = 1024 := rfl
  constructor
  all_goals
    simp only [UInt32.toNat_add, UInt32.toNat_sub, hlen, hpos, hend, hone, htwo, hslack]
    omega

/-- The copies behind the front of the header, into a block in which this front stands. -/
theorem HeaderBuffer.Holds.fill {b : HeaderBuffer} {header body : List UInt8}
    (h : b.Holds header body) (text : List UInt8) (hheader : 4 ≤ header.length)
    {new : List UInt8}
    (hnew : header.length + body.length + text.length ≤ new.length)
    (hfront : window new 0 (header.length - 2) = header.take (header.length - 2)) :
    ∃ new₁ new₂ new₃ new₄,
      copyInto new (header.length + text.length) b.block header.length body.length = some new₁ ∧
      copyInto new₁ (header.length - 2) text 0 text.length = some new₂ ∧
      copyInto new₂ (header.length - 2 + text.length) [cr] 0 1 = some new₃ ∧
      copyInto new₃ (header.length - 1 + text.length) [lf] 0 1 = some new₄ ∧
      new₄.length = new.length ∧
      new₄.take (header.length + body.length + text.length) = insertLines header text ++ body := by
  have hroom := h.room
  rw [h.pos, ← h.block] at hroom
  have hbody := h.window_body
  have hfit₁ : header.length + text.length + body.length ≤ new.length := by omega
  have h₁ : copyInto new (header.length + text.length) b.block header.length body.length =
      some (memcpyAt new (header.length + text.length) body) := by
    rw [copyInto_eq hroom hfit₁, hbody]
  set new₁ := memcpyAt new (header.length + text.length) body with hnew₁
  have hlen₁ : new₁.length = new.length := length_memcpyAt hfit₁
  have h₂ : copyInto new₁ (header.length - 2) text 0 text.length =
      some (memcpyAt new₁ (header.length - 2) text) := copyInto_all (by omega)
  set new₂ := memcpyAt new₁ (header.length - 2) text with hnew₂
  have hlen₂ : new₂.length = new.length := by rw [hnew₂, length_memcpyAt (by omega), hlen₁]
  have hcr : ([cr] : List UInt8).length = 1 := rfl
  have hlf : ([lf] : List UInt8).length = 1 := rfl
  have h₃ : copyInto new₂ (header.length - 2 + text.length) [cr] 0 1 =
      some (memcpyAt new₂ (header.length - 2 + text.length) [cr]) := copyInto_all (by omega)
  set new₃ := memcpyAt new₂ (header.length - 2 + text.length) [cr] with hnew₃
  have hlen₃ : new₃.length = new.length := by rw [hnew₃, length_memcpyAt (by omega), hlen₂]
  have h₄ : copyInto new₃ (header.length - 1 + text.length) [lf] 0 1 =
      some (memcpyAt new₃ (header.length - 1 + text.length) [lf]) := copyInto_all (by omega)
  set new₄ := memcpyAt new₃ (header.length - 1 + text.length) [lf] with hnew₄
  have hlen₄ : new₄.length = new.length := by rw [hnew₄, length_memcpyAt (by omega), hlen₃]
  refine ⟨new₁, new₂, new₃, new₄, h₁, h₂, h₃, h₄, hlen₄, ?_⟩
  -- the five windows: the front of the header, the lines, CR, LF and the body
  have hw₁ : window new₄ 0 (header.length - 2) = header.take (header.length - 2) := by
    rw [hnew₄, window_memcpyAt_before (by omega) (by omega), hnew₃,
      window_memcpyAt_before (by omega) (by omega), hnew₂,
      window_memcpyAt_before (by omega) (by omega), hnew₁,
      window_memcpyAt_before (by omega) (by omega), hfront]
  have hw₂ : window new₄ (header.length - 2) text.length = text := by
    rw [hnew₄, window_memcpyAt_before (by omega) (by omega), hnew₃,
      window_memcpyAt_before (by omega) (by omega), hnew₂, window_memcpyAt (by omega)]
  have hw₃ : window new₄ (header.length - 2 + text.length) 1 = [cr] := by
    rw [hnew₄, window_memcpyAt_before (by omega) (by omega), hnew₃]
    exact window_memcpyAt (by omega)
  have hw₄ : window new₄ (header.length - 1 + text.length) 1 = [lf] := by
    rw [hnew₄]
    exact window_memcpyAt (by omega)
  have hw₅ : window new₄ (header.length + text.length) body.length = body := by
    rw [hnew₄, window_memcpyAt_behind (by omega) (by omega), hnew₃,
      window_memcpyAt_behind (by omega) (by omega), hnew₂,
      window_memcpyAt_behind (by omega) (by omega), hnew₁, window_memcpyAt (by omega)]
  have hsum : header.length + body.length + text.length =
      header.length - 2 + text.length + 1 + 1 + body.length := by omega
  have hi₄ : 0 + (header.length - 2 + text.length + 1) = header.length - 1 + text.length := by omega
  have hi₅ : 0 + (header.length - 2 + text.length + 1 + 1) = header.length + text.length := by omega
  rw [← window_zero, hsum, window_add, window_add, window_add, window_add, hi₅, hi₄, Nat.zero_add,
    Nat.zero_add, hw₁, hw₂, hw₃, hw₄, hw₅, insertLines]
  simp [crlf]

theorem length_insertLines {header : List UInt8} (text : List UInt8) (h : 2 ≤ header.length) :
    (insertLines header text).length = header.length + text.length := by
  simp only [insertLines, crlf, List.length_append, List.length_take, List.length_cons,
    List.length_nil]
  omega

/-- The lines have been inserted: the buffer holds the new header and the same body, and both
positions have moved by the length of the lines. -/
structure HeaderBuffer.Moved (b b' : HeaderBuffer) (header body text : List UInt8) : Prop where
  holds : b'.Holds (insertLines header text) body
  headerEnd : b'.headerEnd.toNat = b.headerEnd.toNat + text.length
  pos : b'.pos.toNat = b.pos.toNat + text.length

/-- The buffer is too small for the lines, and there is no memory for a larger one. -/
def OutOfMemory (a : Allocator) (b : HeaderBuffer) (text : List UInt8) : Prop :=
  b.size.toNat < b.pos.toNat + text.length ∧ a.malloc (b.pos.toNat + text.length + 1024) = none

/-- **The lines are inserted**, in the buffer or in a larger one, or there is no memory. -/
theorem HeaderBuffer.Holds.insertText {b : HeaderBuffer} {header body : List UInt8}
    (h : b.Holds header body) (text : List UInt8) (hheader : 4 ≤ header.length)
    (hcap : b.size.toNat ≤ bufferCap) (htext : text.length < 512) (a : Allocator) :
    (∃ b', b.insertText a text = some (0, b') ∧ b.Moved b' header body text) ∨
      (OutOfMemory a b text ∧ b.insertText a text = some (-1, b)) := by
  have hp := h.positions hheader hcap htext
  have hpos := h.pos
  have hlines := length_insertLines text (show 2 ≤ header.length by omega)
  -- what the copies leave behind, in either buffer
  have hmoved : ∀ (new : List UInt8) (size : UInt32), new.length = size.toNat →
      header.length + body.length + text.length ≤ size.toNat →
      new.take (header.length + body.length + text.length) = insertLines header text ++ body →
      b.Moved ⟨new, size, b.pos + UInt32.ofNat text.length,
        b.headerEnd + UInt32.ofNat text.length⟩ header body text := by
    intro new size hsize hfit htake
    refine ⟨⟨hsize, ?_, ?_, ?_, ?_⟩, ?_, ?_⟩
    · rw [hp.pos]
      exact hfit
    · rw [hp.pos, hlines]
      omega
    · rw [hp.headerEnd, hlines]
    · rw [HeaderBuffer.contents, hp.pos, htake]
    · rw [hp.headerEnd, h.headerEnd]
    · rw [hp.pos, hpos]
  have hiff : b.size < b.pos + UInt32.ofNat text.length ↔
      b.size.toNat < header.length + body.length + text.length := by
    rw [UInt32.lt_iff_toNat_lt, hp.pos]
  unfold HeaderBuffer.insertText
  dsimp only
  rw [hp.moved, hp.front, hp.behind, hp.last, hp.bodyLen, hp.larger, h.headerEnd]
  by_cases hfull : b.size.toNat < header.length + body.length + text.length
  · rw [if_pos (hiff.mpr hfull)]
    cases hm : a.malloc (header.length + body.length + text.length + 1024) with
    | none =>
        refine .inr ⟨⟨?_, ?_⟩, rfl⟩
        · rw [hpos]
          exact hfull
        · rw [hpos]
          exact hm
    | some fresh =>
        left
        have hlen := a.length_eq hm
        have hroom := h.room
        rw [hpos, ← h.block] at hroom
        have hcopy : copyInto fresh 0 b.block 0 (header.length - 2) =
            some (memcpyAt fresh 0 (header.take (header.length - 2))) := by
          rw [copyInto_eq (by omega) (by omega), h.window_header (Nat.sub_le _ _)]
        have hfrontLen : (header.take (header.length - 2)).length = header.length - 2 :=
          List.length_take_of_le (Nat.sub_le _ _)
        have hfits : 0 + (header.take (header.length - 2)).length ≤ fresh.length := by omega
        have hfront := window_memcpyAt hfits
        rw [hfrontLen] at hfront
        have hblock : (memcpyAt fresh 0 (header.take (header.length - 2))).length =
            fresh.length := length_memcpyAt hfits
        obtain ⟨new₁, new₂, new₃, new₄, h₁, h₂, h₃, h₄, hlen₄, htake⟩ :=
          h.fill text hheader (by omega) hfront
        refine ⟨_, ?_, hmoved new₄ (b.pos + UInt32.ofNat text.length + 1024) ?_ ?_ htake⟩
        · simp only [hcopy, h₁, h₂, h₃, h₄, Option.bind_eq_bind, Option.bind_some]
        · rw [hp.larger, hlen₄, hblock, hlen]
        · rw [hp.larger]
          omega
  · rw [if_neg (fun hlt => hfull (hiff.mp hlt))]
    left
    obtain ⟨new₁, new₂, new₃, new₄, h₁, h₂, h₃, h₄, hlen₄, htake⟩ :=
      h.fill text hheader (by rw [h.block]; omega) (h.window_header (Nat.sub_le _ _))
    refine ⟨_, ?_, hmoved new₄ b.size ?_ ?_ htake⟩
    · simp only [h₁, h₂, h₃, h₄, Option.bind_eq_bind, Option.bind_some]
    · rw [hlen₄, h.block]
    · omega

/-! ## Forcing the value of a field -/

/-- One `Connection` value of the header is overwritten by `close` and blanks, which are as long as
it was. -/
def ValueOverwritten (header forced : List UInt8) : Prop :=
  ∃ front name value rest,
    header = front ++ name ++ value ++ rest ∧
    forced = front ++ name ++ (ascii " close" ++ List.replicate (value.length - 6) 32) ++ rest ∧
    6 ≤ value.length ∧ [lf] <:+ front ∧ startsWithIgnoreCase connectionFieldName name = true ∧
    name.length = connectionFieldName.length ∧ ∀ c ∈ value, isLineEnd c = false

/-- What the walk overwrites, in the lines that it walks over. -/
theorem forceConnectionCloseWalk_splits {n : Nat} {p p' : List UInt8}
    (h : forceConnectionCloseWalk n p = some p') (l : List UInt8) :
    ValueOverwritten (l ++ lf :: p) (l ++ lf :: p') := by
  induction n generalizing p p' l with
  | zero => simp [forceConnectionCloseWalk] at h
  | succ n ih =>
      rw [forceConnectionCloseWalk] at h
      split_ifs at h with hshort hstart
      · simp only at h
        split_ifs at h with hroom
        set name := p.take connectionFieldName.length with hname
        set value := p.drop connectionFieldName.length with hvalue
        have hsplit : p = name ++ valueAt value ++ value.drop (valueAt value).length := by
          have hprefix := List.prefix_iff_eq_append.mp
            (List.takeWhile_prefix (fun c => !isLineEnd c) (l := value))
          rw [List.append_assoc]
          exact ((List.take_append_drop _ _).symm).trans (congrArg (name ++ ·) hprefix.symm)
        refine ⟨l ++ [lf], name, valueAt value, value.drop (valueAt value).length, ?_, ?_,
          Nat.not_lt.mp hroom, List.suffix_append _ _, ?_, ?_, ?_⟩
        · conv_lhs => rw [hsplit]
          simp
        · rw [← Option.some.inj h]
          simp
        · have hkept := startsWithIgnoreCase_take hstart []
          rwa [List.append_nil] at hkept
        · exact List.length_take_of_le (Nat.not_lt.mp hshort)
        · intro c hc
          simpa using List.mem_takeWhile_imp hc
      · obtain ⟨q', hq', hp'⟩ := Option.map_eq_some_iff.mp h
        rcases lines_step p with ⟨-, -, hnext⟩ | ⟨m, hm, hp, -⟩
        · rw [hnext, forceConnectionCloseWalk_nil] at hq'
          exact absurd hq' (by simp)
        · rw [take_to_nextLine hp] at hp'
          have hover := ih hq' (l ++ lf :: m)
          have hold : l ++ lf :: p = (l ++ lf :: m) ++ lf :: nextLine p := by
            conv_lhs => rw [hp]
            simp
          have hnew : l ++ lf :: p' = (l ++ lf :: m) ++ lf :: q' := by
            rw [← hp']
            simp
          rw [hold, hnew]
          exact hover

theorem proxyForceConnectionClose_overwritten {header forced : List UInt8}
    (h : proxyForceConnectionClose header = some forced) : ValueOverwritten header forced := by
  obtain ⟨q', hq', hf⟩ := Option.map_eq_some_iff.mp h
  rcases lines_step header with ⟨-, -, hnext⟩ | ⟨l, -, hp, -⟩
  · rw [hnext, forceConnectionCloseWalk_nil] at hq'
    exact absurd hq' (by simp)
  · rw [take_to_nextLine hp] at hf
    have hover := forceConnectionCloseWalk_splits hq' l
    rw [← hp] at hover
    rw [← hf, List.append_assoc, List.singleton_append]
    exact hover

theorem ValueOverwritten.length_eq {header forced : List UInt8}
    (h : ValueOverwritten header forced) : forced.length = header.length := by
  obtain ⟨front, name, value, rest, rfl, rfl, hroom, -⟩ := h
  have hsix : (ascii " close").length = 6 := by decide
  simp only [List.length_append, List.length_replicate, hsix]
  omega

/-! ## A field that closes the connection -/

/-- The header has a `Connection` field that says `close`, and nothing else. -/
def HasConnectionClose (header : List UInt8) : Prop :=
  ∃ l ∈ (lines header).tail, startsWithIgnoreCase connectionFieldName l = true ∧
    tokensOf (valueAt (l.drop connectionFieldName.length)) = [ascii "close"]

/-- Lines that are inserted stand behind the first line. -/
theorem tail_lines_insertLines {header : List UInt8} (text : List UInt8)
    (hend : [lf, cr, lf] <:+ header) :
    ∃ L, (lines header).tail = L ++ [[cr], []] ∧
      (lines (insertLines header text)).tail = L ++ lines (text ++ crlf) := by
  obtain ⟨L, h1, h2⟩ := lines_insertLines text hend
  obtain ⟨x, rfl⟩ := hend
  have hL : L = lines x := by
    rw [lines_append_lf] at h1
    exact List.append_cancel_right h1.symm
  have hne : L ≠ [] := by
    rw [hL]
    exact lines_ne_nil x
  refine ⟨L.tail, ?_, ?_⟩
  · rw [h1, List.tail_append_of_ne_nil hne]
  · rw [h2, List.tail_append_of_ne_nil hne]

/-- A value that was forced is still there when lines are inserted. -/
theorem hasConnectionClose_forced {header forced : List UInt8}
    (h : proxyForceConnectionClose header = some forced) (hend : [lf, cr, lf] <:+ forced)
    (text : List UInt8) : HasConnectionClose (insertLines forced text) := by
  obtain ⟨l, q, q', -, hforced, hl, hover⟩ := proxyForceConnectionClose_spec h
  obtain ⟨A, m, m', B, -, hlines, ⟨-, hm⟩, k, hvalue⟩ := hover.lines
  obtain ⟨L, h1, h2⟩ := tail_lines_insertLines text hend
  have htail : (lines forced).tail = A ++ m' :: B := by
    rw [hforced, lines_append_lf, lines_of_not_mem hl, List.singleton_append, List.tail_cons,
      hlines]
  refine ⟨m', ?_, hm, by rw [hvalue, tokensOf_close]⟩
  have hmem : m' ∈ L ++ [[cr], []] := by
    rw [← h1, htail]
    simp
  rw [h2]
  rcases List.mem_append.mp hmem with hin | hin
  · exact List.mem_append_left _ hin
  · -- the two lines at the end are too short for a field
    have hlen := startsWithIgnoreCase_length hm
    have hname : connectionFieldName.length = 11 := by decide
    have hcase : m' = [cr] ∨ m' = [] := by simpa using hin
    rcases hcase with rfl | rfl
    · simp [hname] at hlen
    · simp [hname] at hlen

/-- The line of the proxy's own says it as well, behind whatever ends in a line end. -/
theorem hasConnectionClose_inserted {header : List UInt8} (before : List UInt8)
    (hend : [lf, cr, lf] <:+ header) (hbefore : before = [] ∨ [lf] <:+ before) :
    HasConnectionClose (insertLines header (before ++ connectionCloseLine)) := by
  obtain ⟨L, -, h2⟩ := tail_lines_insertLines (before ++ connectionCloseLine) hend
  have hown : lines (connectionCloseLine ++ crlf) = [ascii "Connection: close\r", [cr], []] := by
    decide
  have hmem : ascii "Connection: close\r" ∈ lines (before ++ connectionCloseLine ++ crlf) := by
    rcases hbefore with rfl | ⟨x, rfl⟩
    · rw [List.nil_append, hown]
      exact List.mem_cons_self
    · rw [List.append_assoc, List.append_assoc, List.singleton_append, lines_append_lf, hown]
      exact List.mem_append_right _ List.mem_cons_self
  refine ⟨ascii "Connection: close\r", ?_, by decide, by decide⟩
  rw [h2]
  exact List.mem_append_right _ hmem

/-! ## What the three functions do to a buffer -/

/-- The header that the lines are inserted into, and what is added to them, in a request. -/
def forcedRequest (header : List UInt8) : List UInt8 × List UInt8 :=
  if proxyRequestIsUpgrade header then (header, [])
  else
    match proxyForceConnectionClose header with
    | some forced => (forced, [])
    | none => (header, connectionCloseLine)

/-- The lines that a request gets. -/
def forwardedText (setup : ProxySetup) (header : List UInt8) : List UInt8 :=
  forwardedHeaders setup (forcedRequest header).1 (forcedRequest header).2

/-- The lines that a response gets: none when its field could be overwritten. -/
def closeText (header : List UInt8) : List UInt8 :=
  match proxyForceConnectionClose header with
  | some _ => []
  | none => connectionCloseLine

/-- The bytes of the buffer are the header without its last CRLF, with at most one `Connection`
value overwritten in its place, and then the lines, CRLF and the body. Both positions have moved by
the length of the lines. -/
structure Inserted (b b' : HeaderBuffer) (header body text : List UInt8) : Prop where
  contents : ∃ forced, (forced = header ∨ ValueOverwritten header forced) ∧
    b'.contents = forced.take (header.length - 2) ++ text ++ crlf ++ body
  headerEnd : b'.headerEnd.toNat = b.headerEnd.toNat + text.length
  pos : b'.pos.toNat = b.pos.toNat + text.length

/-- What an injection does to every buffer with this header and this body, whatever its size: lines
are inserted, or there is no memory for a larger buffer. What results does not depend on the way. -/
structure Inserts (run : Allocator → HeaderBuffer → Option (Int × HeaderBuffer))
    (header body text : List UInt8) (closes : Prop) : Prop where
  result : ∀ (a : Allocator) (b : HeaderBuffer), b.Holds header body → b.size.toNat ≤ bufferCap →
    (∃ b', run a b = some (0, b') ∧ Inserted b b' header body text ∧
      (closes → HasConnectionClose b'.header)) ∨
    (OutOfMemory a b text ∧ ∃ b', run a b = some (-1, b'))
  same : ∀ (a₁ a₂ : Allocator) (b₁ b₂ b₁' b₂' : HeaderBuffer),
    b₁.Holds header body → b₂.Holds header body →
    b₁.size.toNat ≤ bufferCap → b₂.size.toNat ≤ bufferCap →
    run a₁ b₁ = some (0, b₁') → run a₂ b₂ = some (0, b₂') → b₁'.contents = b₂'.contents

/-- A header that is forced stays in its buffer, with the body behind it. -/
theorem HeaderBuffer.Holds.force {b : HeaderBuffer} {header body forced : List UInt8}
    (h : b.Holds header body) (hforce : proxyForceConnectionClose header = some forced) :
    b.forceConnectionClose =
        (1, { b with block := forced ++ b.block.drop b.headerEnd.toNat }) ∧
      { b with block := forced ++ b.block.drop b.headerEnd.toNat : HeaderBuffer }.Holds
        forced body := by
  have hlen := (proxyForceConnectionClose_overwritten hforce).length_eq
  have hroom := h.room
  have hpos := h.pos
  have hblock := h.block
  have hend := h.headerEnd
  have hbody : window b.block header.length body.length = body := h.window_body
  constructor
  · unfold HeaderBuffer.forceConnectionClose
    rw [h.header_eq, hforce]
  · refine ⟨?_, hroom, ?_, ?_, ?_⟩
    · dsimp only
      rw [List.length_append, List.length_drop, hlen, hend, ← hblock]
      omega
    · dsimp only
      omega
    · dsimp only
      omega
    · show (forced ++ b.block.drop b.headerEnd.toNat).take b.pos.toNat = forced ++ body
      rw [hpos, hend, ← hlen, List.take_append, List.take_of_length_le (by omega),
        Nat.add_sub_cancel_left, hlen]
      exact congrArg (forced ++ ·) hbody

/-- A header that is not forced is left alone. -/
theorem HeaderBuffer.Holds.not_forced {b : HeaderBuffer} {header body : List UInt8}
    (h : b.Holds header body) (hforce : proxyForceConnectionClose header = none) :
    b.forceConnectionClose = (0, b) := by
  unfold HeaderBuffer.forceConnectionClose
  rw [h.header_eq, hforce]

theorem forcedRequest_cases (header : List UInt8) :
    (proxyRequestIsUpgrade header = true ∧ forcedRequest header = (header, [])) ∨
    (proxyRequestIsUpgrade header = false ∧
      ∃ forced, proxyForceConnectionClose header = some forced ∧
        forcedRequest header = (forced, [])) ∨
    (proxyRequestIsUpgrade header = false ∧ proxyForceConnectionClose header = none ∧
      forcedRequest header = (header, connectionCloseLine)) := by
  unfold forcedRequest
  cases hup : proxyRequestIsUpgrade header with
  | true => exact .inl ⟨rfl, rfl⟩
  | false =>
      cases hforce : proxyForceConnectionClose header with
      | some forced => exact .inr (.inl ⟨rfl, forced, rfl, rfl⟩)
      | none => exact .inr (.inr ⟨rfl, rfl, rfl⟩)

/-- The header that the lines of a request go into is as long, and ends in the same way. -/
theorem forcedRequest_spec {header : List UInt8} (hend : [lf, cr, lf] <:+ header) :
    ((forcedRequest header).1 = header ∨ ValueOverwritten header (forcedRequest header).1) ∧
      (forcedRequest header).1.length = header.length ∧
      [lf, cr, lf] <:+ (forcedRequest header).1 := by
  rcases forcedRequest_cases header with ⟨-, h⟩ | ⟨-, forced, hforce, h⟩ | ⟨-, -, h⟩
  · rw [h]
    exact ⟨.inl rfl, rfl, hend⟩
  · rw [h]
    have hover := proxyForceConnectionClose_overwritten hforce
    exact ⟨.inr hover, hover.length_eq, proxyForceConnectionClose_ending hforce hend⟩
  · rw [h]
    exact ⟨.inl rfl, rfl, hend⟩

/-- On the header alone, this is `proxyInjectForwardedHeaders`. -/
theorem proxyInjectForwardedHeaders_eq (setup : ProxySetup) (header : List UInt8) :
    proxyInjectForwardedHeaders setup header =
      if (forwardedText setup header).length ≥ 512 then none
      else some (insertLines (forcedRequest header).1 (forwardedText setup header)) := by
  unfold proxyInjectForwardedHeaders forwardedText
  rcases forcedRequest_cases header with ⟨hup, h⟩ | ⟨hup, forced, hforce, h⟩ | ⟨hup, hforce, h⟩
  · rw [h, if_pos hup]
  · rw [h, if_neg (by rw [hup]; decide), hforce]
  · rw [h, if_neg (by rw [hup]; decide), hforce]

/-- What is left of `proxy_inject_forwarded_headers` once the header has been forced. -/
theorem HeaderBuffer.Holds.forcedRequest {b : HeaderBuffer} {header body : List UInt8}
    (h : b.Holds header body) (setup : ProxySetup) (a : Allocator)
    (hfit : (forwardedText setup header).length < 512) :
    ∃ block, (⟨block, b.size, b.pos, b.headerEnd⟩ : HeaderBuffer).Holds
        (Proxy.forcedRequest header).1 body ∧
      b.injectForwardedHeaders setup a =
        (⟨block, b.size, b.pos, b.headerEnd⟩ : HeaderBuffer).insertText a
          (forwardedText setup header) := by
  unfold HeaderBuffer.injectForwardedHeaders
  unfold forwardedText at hfit ⊢
  rw [h.header_eq]
  rcases forcedRequest_cases header with ⟨hup, hreq⟩ | ⟨hup, forced, hforce, hreq⟩ |
    ⟨hup, hforce, hreq⟩
  · rw [hreq] at hfit ⊢
    refine ⟨b.block, h, ?_⟩
    rw [if_pos hup]
    dsimp only at hfit ⊢
    rw [h.header_eq, if_neg (Nat.not_le.mpr hfit)]
  · rw [hreq] at hfit ⊢
    obtain ⟨hrun, hholds⟩ := h.force hforce
    refine ⟨_, hholds, ?_⟩
    rw [if_neg (by rw [hup]; decide), hrun]
    have hheader := hholds.header_eq
    dsimp only at hfit hheader ⊢
    rw [hheader, if_neg (show (1 : Int) ≠ 0 by decide), if_neg (Nat.not_le.mpr hfit)]
  · rw [hreq] at hfit ⊢
    refine ⟨b.block, h, ?_⟩
    rw [if_neg (by rw [hup]; decide), h.not_forced hforce]
    dsimp only at hfit ⊢
    rw [h.header_eq, if_pos rfl, if_neg (Nat.not_le.mpr hfit)]

/-- A request that is no upgrade is sent with a `Connection` field that says `close`. -/
theorem hasConnectionClose_request (setup : ProxySetup) {header : List UInt8}
    (hend : [lf, cr, lf] <:+ header) (hplain : proxyRequestIsUpgrade header = false) :
    HasConnectionClose (insertLines (forcedRequest header).1 (forwardedText setup header)) := by
  unfold forwardedText
  rcases forcedRequest_cases header with ⟨hup, -⟩ | ⟨-, forced, hforce, h⟩ | ⟨-, -, h⟩
  · rw [hup] at hplain
    cases hplain
  · rw [h]
    exact hasConnectionClose_forced hforce (proxyForceConnectionClose_ending hforce hend) _
  · rw [h]
    dsimp only
    -- the line stands behind the three others
    have hsplit : ∃ before, [lf] <:+ before ∧
        forwardedHeaders setup header connectionCloseLine = before ++ connectionCloseLine := by
      refine ⟨forwardedHeaders setup header [], ?_, by simp [forwardedHeaders]⟩
      have hcrlf : [lf] <:+ crlf := ⟨[cr], rfl⟩
      unfold forwardedHeaders
      dsimp only
      rw [List.append_nil]
      exact ((hcrlf.trans (List.suffix_append _ _)).trans (List.suffix_append _ _)).trans
        (List.suffix_append _ _)
    obtain ⟨before, hbefore, hlines⟩ := hsplit
    rw [hlines]
    exact hasConnectionClose_inserted _ hend (.inr hbefore)

/-! ## The three functions -/

/-- Lines moved into a buffer with this header are what the claim about the bytes says. -/
theorem HeaderBuffer.Moved.inserted {b b' : HeaderBuffer} {header forced body text : List UInt8}
    (h : b.Moved b' forced body text) (hlen : forced.length = header.length)
    (hforced : forced = header ∨ ValueOverwritten header forced) :
    Inserted b b' header body text := by
  refine ⟨⟨forced, hforced, ?_⟩, h.headerEnd, h.pos⟩
  rw [h.holds.contents, insertLines, hlen]

/-- Two buffers that hold the same have the same bytes. -/
theorem HeaderBuffer.Moved.same {b₁ b₁' b₂ b₂' : HeaderBuffer} {forced body text : List UInt8}
    (h₁ : b₁.Moved b₁' forced body text) (h₂ : b₂.Moved b₂' forced body text) :
    b₁'.contents = b₂'.contents := by
  rw [h₁.holds.contents, h₂.holds.contents]

/-- A function that moves the same lines into every buffer inserts them. -/
theorem Inserts.of_moved {run : Allocator → HeaderBuffer → Option (Int × HeaderBuffer)}
    {header forced body text : List UInt8} {closes : Prop}
    (hforced : forced = header ∨ ValueOverwritten header forced)
    (hlen : forced.length = header.length)
    (hcloses : closes → HasConnectionClose (insertLines forced text))
    (hrun : ∀ (a : Allocator) (b : HeaderBuffer), b.Holds header body →
      b.size.toNat ≤ bufferCap →
      (∃ b', run a b = some (0, b') ∧ b.Moved b' forced body text) ∨
        (OutOfMemory a b text ∧ ∃ b', run a b = some (-1, b'))) :
    Inserts run header body text closes := by
  have hmoved : ∀ (a : Allocator) (b b' : HeaderBuffer), b.Holds header body →
      b.size.toNat ≤ bufferCap → run a b = some (0, b') → b.Moved b' forced body text := by
    intro a b b' h hcap hres
    rcases hrun a b h hcap with ⟨b'', hdone, hmove⟩ | ⟨-, b'', hfailed⟩
    · rw [hdone] at hres
      cases hres
      exact hmove
    · rw [hfailed] at hres
      cases hres
  refine ⟨fun a b h hcap => ?_, fun a₁ a₂ b₁ b₂ b₁' b₂' h₁ h₂ hcap₁ hcap₂ hres₁ hres₂ => ?_⟩
  · rcases hrun a b h hcap with ⟨b', hdone, hmove⟩ | hfailed
    · refine .inl ⟨b', hdone, hmove.inserted hlen hforced, fun hc => ?_⟩
      rw [hmove.holds.header_eq]
      exact hcloses hc
    · exact .inr hfailed
  · exact (hmoved a₁ b₁ b₁' h₁ hcap₁ hres₁).same (hmoved a₂ b₂ b₂' h₂ hcap₂ hres₂)

theorem insertLines_nil {header : List UInt8} (hend : crlf <:+ header) :
    insertLines header [] = header := by
  obtain ⟨x, rfl⟩ := hend
  have hlen : (x ++ crlf).length - 2 = x.length := by simp [crlf]
  rw [insertLines, hlen, List.take_left, List.append_nil]

/-- A header whose field was overwritten counts as one that nothing was inserted into. -/
theorem HeaderBuffer.Holds.moved_nil {b b' : HeaderBuffer} {header body : List UInt8}
    (h : b'.Holds header body) (hend : crlf <:+ header) (hhead : b'.headerEnd = b.headerEnd)
    (hpos : b'.pos = b.pos) : b.Moved b' header body [] := by
  refine ⟨?_, by rw [hhead]; rfl, by rw [hpos]; rfl⟩
  rw [insertLines_nil hend]
  exact h

/-- The header block that `proxy_find_header_end` finds ends in an empty line. -/
theorem ending_of_headerEnd {header body : List UInt8}
    (hend : proxyFindHeaderEnd (header ++ body) = some header.length) :
    4 ≤ header.length ∧ [lf, cr, lf] <:+ header ∧ crlf <:+ header := by
  obtain ⟨x, t, hsplit, hlen⟩ := proxyFindHeaderEnd_spec hend
  have hfour : (x ++ (crlf ++ crlf)).length = x.length + 4 := by simp [crlf]
  have hheader : header = x ++ (crlf ++ crlf) :=
    (List.append_inj hsplit (by rw [hlen, hfour])).1
  rw [hheader]
  exact ⟨by omega, ⟨x ++ [cr], by simp [crlf]⟩, ⟨x ++ crlf, by simp⟩⟩

/-- Forcing leaves the bytes alone but for the one value, and the positions as they are. -/
theorem HeaderBuffer.Holds.forceConnectionClose_inserted {b : HeaderBuffer}
    {header body : List UInt8} (h : b.Holds header body) (hlf : [lf, cr, lf] <:+ header)
    (hend : crlf <:+ header) :
    Inserted b b.forceConnectionClose.2 header body [] ∧
      (b.forceConnectionClose.1 = 1 → HasConnectionClose b.forceConnectionClose.2.header) ∧
      (b.forceConnectionClose.1 ≠ 1 → b.forceConnectionClose.2 = b) := by
  cases hforce : proxyForceConnectionClose header with
  | none =>
      rw [h.not_forced hforce]
      have hmoved : b.Moved b header body [] := h.moved_nil hend rfl rfl
      exact ⟨hmoved.inserted rfl (.inl rfl), fun hone => absurd hone (show (0 : Int) ≠ 1 by decide),
        fun _ => rfl⟩
  | some forced =>
      obtain ⟨hrun, hholds⟩ := h.force hforce
      have hover := proxyForceConnectionClose_overwritten hforce
      have hlf' := proxyForceConnectionClose_ending hforce hlf
      have hend' : crlf <:+ forced := List.IsSuffix.trans ⟨[lf], rfl⟩ hlf'
      rw [hrun]
      have hmoved : b.Moved _ forced body [] := hholds.moved_nil hend' rfl rfl
      refine ⟨hmoved.inserted hover.length_eq (.inr hover), fun _ => ?_, fun hne => absurd rfl hne⟩
      have hclose := hasConnectionClose_forced hforce hlf' []
      rw [insertLines_nil hend'] at hclose
      rw [hholds.header_eq]
      exact hclose

theorem injectForwardedHeaders_inserts (setup : ProxySetup) {header body : List UInt8}
    (hend : proxyFindHeaderEnd (header ++ body) = some header.length)
    (hfit : (forwardedText setup header).length < 512) :
    Inserts (fun a b => b.injectForwardedHeaders setup a) header body (forwardedText setup header)
      (proxyRequestIsUpgrade header = false) := by
  obtain ⟨hfour, hlf, -⟩ := ending_of_headerEnd hend
  obtain ⟨hforced, hlen, -⟩ := forcedRequest_spec hlf
  refine Inserts.of_moved hforced hlen (hasConnectionClose_request setup hlf) ?_
  intro a b h hcap
  obtain ⟨block, hholds, hrun⟩ := h.forcedRequest setup a hfit
  rcases hholds.insertText _ (by omega) hcap hfit a with ⟨b', hdone, hmove⟩ | ⟨hmem, hfailed⟩
  · exact .inl ⟨b', hrun.trans hdone, hmove.holds, hmove.headerEnd, hmove.pos⟩
  · exact .inr ⟨hmem, _, hrun.trans hfailed⟩

/-- The header in the buffer is then the one that `proxyInjectForwardedHeaders` sends. -/
theorem injectForwardedHeaders_header {setup : ProxySetup} {header body : List UInt8}
    {a : Allocator} {b b' : HeaderBuffer} (h : b.Holds header body)
    (hend : proxyFindHeaderEnd (header ++ body) = some header.length)
    (hcap : b.size.toNat ≤ bufferCap) (hfit : (forwardedText setup header).length < 512)
    (hrun : b.injectForwardedHeaders setup a = some (0, b')) :
    proxyInjectForwardedHeaders setup header = some b'.header := by
  obtain ⟨hfour, hlf, -⟩ := ending_of_headerEnd hend
  obtain ⟨-, hlen, -⟩ := forcedRequest_spec hlf
  obtain ⟨block, hholds, hrest⟩ := h.forcedRequest setup a hfit
  rw [hrest] at hrun
  rcases hholds.insertText _ (by omega) hcap hfit a with ⟨b'', hdone, hmove⟩ | ⟨-, hfailed⟩
  · rw [hdone] at hrun
    cases hrun
    rw [proxyInjectForwardedHeaders_eq, if_neg (Nat.not_le.mpr hfit), hmove.holds.header_eq]
  · rw [hfailed] at hrun
    cases hrun

theorem injectConnectionClose_inserts {header body : List UInt8}
    (hend : proxyFindHeaderEnd (header ++ body) = some header.length) :
    Inserts (fun a b => b.injectConnectionClose a) header body (closeText header) True := by
  obtain ⟨hfour, hlf, hcrlf⟩ := ending_of_headerEnd hend
  unfold closeText
  cases hforce : proxyForceConnectionClose header with
  | some forced =>
      have hover := proxyForceConnectionClose_overwritten hforce
      have hlf' := proxyForceConnectionClose_ending hforce hlf
      have hend' : crlf <:+ forced := List.IsSuffix.trans ⟨[lf], rfl⟩ hlf'
      refine Inserts.of_moved (.inr hover) hover.length_eq
        (fun _ => hasConnectionClose_forced hforce hlf' []) ?_
      intro a b h hcap
      obtain ⟨hrun, hholds⟩ := h.force hforce
      refine .inl ⟨_, ?_, hholds.moved_nil hend' rfl rfl⟩
      unfold HeaderBuffer.injectConnectionClose
      rw [hrun]
      rfl
  | none =>
      refine Inserts.of_moved (.inl rfl) rfl
        (fun _ => hasConnectionClose_inserted [] hlf (.inl rfl)) ?_
      intro a b h hcap
      have hrun : b.injectConnectionClose a = b.insertText a connectionCloseLine := by
        unfold HeaderBuffer.injectConnectionClose
        rw [h.not_forced hforce]
        rfl
      rcases h.insertText connectionCloseLine hfour hcap (by decide) a with
        ⟨b', hdone, hmove⟩ | ⟨hmem, hfailed⟩
      · exact .inl ⟨b', hrun.trans hdone, hmove⟩
      · exact .inr ⟨hmem, _, hrun.trans hfailed⟩

/-- **What the proxy writes into a header keeps everything else.** For every buffer that holds a
header block and a body: the three functions insert their lines and overwrite at most the one value,
in the buffer or in a larger one, and the header then closes the connection. -/
theorem injections_keep_header_and_body (setup : ProxySetup) {header body : List UInt8}
    (hend : proxyFindHeaderEnd (header ++ body) = some header.length) :
    (∀ b : HeaderBuffer, b.Holds header body →
      Inserted b b.forceConnectionClose.2 header body [] ∧
        (b.forceConnectionClose.1 = 1 → HasConnectionClose b.forceConnectionClose.2.header) ∧
        (b.forceConnectionClose.1 ≠ 1 → b.forceConnectionClose.2 = b)) ∧
    ((forwardedText setup header).length < 512 →
      Inserts (fun a b => b.injectForwardedHeaders setup a) header body
        (forwardedText setup header) (proxyRequestIsUpgrade header = false)) ∧
    Inserts (fun a b => b.injectConnectionClose a) header body (closeText header) True := by
  obtain ⟨-, hlf, hcrlf⟩ := ending_of_headerEnd hend
  exact ⟨fun b h => h.forceConnectionClose_inserted hlf hcrlf,
    injectForwardedHeaders_inserts setup hend, injectConnectionClose_inserts hend⟩

/-- A request with a body of one byte, in a buffer that has no room left. -/
theorem injections_keep_header_and_body_get :
    let setup : ProxySetup := ⟨ascii "/run/app", ascii "10.0.0.1", false, by decide⟩
    let a : Allocator := ⟨fun n => some (List.replicate n 0), fun h => by cases h; simp⟩
    let header := ascii "GET / HTTP/1.1\r\nConnection: keep-alive\r\n\r\n"
    let b : HeaderBuffer := ⟨header ++ [33], 43, 43, 42⟩
    (∃ b', b.injectForwardedHeaders setup a = some (0, b') ∧
      Inserted b b' header [33] (forwardedText setup header) ∧
      (proxyRequestIsUpgrade header = false → HasConnectionClose b'.header)) ∨
    (OutOfMemory a b (forwardedText setup header) ∧
      ∃ b', b.injectForwardedHeaders setup a = some (-1, b')) := by
  intro setup a header b
  exact ((injections_keep_header_and_body setup (by decide +kernel)).2.1 (by decide +kernel)).result
    a b ⟨by decide +kernel, by decide +kernel, by decide +kernel, by decide +kernel,
      by decide +kernel⟩ (by decide +kernel)

end CWebUI.Proxy
