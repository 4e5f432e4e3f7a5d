import CWebUI.Http.RequestDispatch

set_option autoImplicit false

/-! # Answers in the output list

What `getHttpRequest` leaves in the chunk lists is handed over by `generateOutputBuffer`. A page that
is to be compressed gets the rest of its header there, when its length is known; `deflateChunks`
compresses it chunk by chunk, and where that fails the page goes out as it is. The compressor is a
parameter, of which only is used that it stays in the room it is given.

`Site.answer_readsAs` puts it together: the bytes of the output are one response.
-/

namespace CWebUI.Http

open ByteString ListLemmas
open CWebUI.Websocket (writeChunk)

/-! ## The compressor -/

/-- `tdefl_status` -/
inductive TdeflStatus where
  | badParam
  | putBufFailed
  | okay
  | done
  deriving DecidableEq, Repr

/-- What a call of `tdefl_compress` does: how much it took, and what it wrote. -/
structure TdeflResult (σ : Type) where
  state : σ
  taken : Nat
  written : List UInt8
  status : TdeflStatus

/-- The compressor: `tdefl_compressor_alloc` with `tdefl_init`, and `tdefl_compress` on some bytes
with the room for its output; the last call finishes. -/
structure Tdefl (σ : Type) where
  init : Option σ
  compress : σ → List UInt8 → Nat → Bool → TdeflResult σ

variable {σ : Type}

/-- The loop of `deflateChunks`. -/
def deflateLoop (tdefl : Tdefl σ) (capacity : Nat) :
    List (List UInt8) → σ → List UInt8 → Option (σ × List UInt8)
  | [], state, out => some (state, out)
  | chunk :: chunks, state, out =>
      let r := tdefl.compress state chunk (capacity - out.length) false
      if r.status ≠ .okay ∨ r.taken ≠ chunk.length then none
      else deflateLoop tdefl capacity chunks r.state (out ++ r.written)

/-- `deflateChunks`: the compressed page; it is empty where that did not work. -/
def deflateChunks (tdefl : Tdefl σ) (chunks : List (List UInt8)) (capacity : UInt64) :
    List UInt8 :=
  match tdefl.init with
  | none => []
  | some state =>
      match deflateLoop tdefl capacity.toNat chunks state [] with
      | none => []
      | some (state, out) =>
          let r := tdefl.compress state [] (capacity.toNat - out.length) true
          if r.status ≠ .done then [] else out ++ r.written

/-- The compressor writes no more than it has room for. -/
def Tdefl.StaysInRoom (tdefl : Tdefl σ) : Prop :=
  ∀ state chunk room finish, (tdefl.compress state chunk room finish).written.length ≤ room

theorem deflateLoop_length {tdefl : Tdefl σ} (h : tdefl.StaysInRoom) {capacity : Nat}
    {chunks : List (List UInt8)} {state state' : σ} {out out' : List UInt8}
    (hout : out.length ≤ capacity)
    (hrun : deflateLoop tdefl capacity chunks state out = some (state', out')) :
    out'.length ≤ capacity := by
  induction chunks generalizing state out with
  | nil =>
      simp only [deflateLoop, Option.some.injEq, Prod.mk.injEq] at hrun
      rw [← hrun.2]
      exact hout
  | cons chunk chunks ih =>
      have hroom := h state chunk (capacity - out.length) false
      rw [deflateLoop] at hrun
      split_ifs at hrun
      refine ih ?_ hrun
      rw [List.length_append]
      omega

/-- **The compressed page fits into its buffer.** -/
theorem length_deflateChunks {tdefl : Tdefl σ} (h : tdefl.StaysInRoom)
    (chunks : List (List UInt8)) (capacity : UInt64) :
    (deflateChunks tdefl chunks capacity).length ≤ capacity.toNat := by
  unfold deflateChunks
  cases tdefl.init with
  | none => exact Nat.zero_le _
  | some state =>
      dsimp only
      cases hloop : deflateLoop tdefl capacity.toNat chunks state [] with
      | none => exact Nat.zero_le _
      | some result =>
          obtain ⟨state', out⟩ := result
          have hout := deflateLoop_length h (Nat.zero_le _) hloop
          have hroom := h state' [] (capacity.toNat - out.length) true
          dsimp only
          split_ifs
          · exact Nat.zero_le _
          · rw [List.length_append]
            omega

/-! ## The capacity -/

/-- The capacity is enough for the page, and has 32 bits. -/
theorem deflateCapacity_bounds {size count : Nat} (hsize : size < 2 ^ 31) (hcount : count < 2 ^ 26) :
    size ≤ (deflateCapacity (UInt64.ofNat size) (UInt32.ofNat count)).toNat ∧
      (deflateCapacity (UInt64.ofNat size) (UInt32.ofNat count)).toNat + 1 < 2 ^ 32 := by
  have hbody : (UInt64.ofNat size).toNat = size := by
    rw [UInt64.toNat_ofNat']
    omega
  have hchunks : (UInt32.ofNat count).toUInt64.toNat = count := by
    rw [UInt32.toNat_toUInt64, UInt32.toNat_ofNat']
    omega
  have ha : (128 + UInt64.ofNat size / 100 * 110 + UInt64.ofNat size % 100 * 110 / 100).toNat =
      128 + size / 100 * 110 + size % 100 * 110 / 100 := by
    have hquot : size / 100 * 110 % 2 ^ 64 = size / 100 * 110 := Nat.mod_eq_of_lt (by omega)
    have hrem : size % 100 * 110 % 2 ^ 64 = size % 100 * 110 := Nat.mod_eq_of_lt (by omega)
    simp only [UInt64.toNat_add, UInt64.toNat_mul, UInt64.toNat_div, UInt64.toNat_mod, hbody,
      UInt64.reduceToNat, hquot, hrem]
    have hfirst : 128 + size / 100 * 110 < 2 ^ 64 := by omega
    have hall : 128 + size / 100 * 110 + size % 100 * 110 / 100 < 2 ^ 64 := by omega
    rw [Nat.mod_eq_of_lt hfirst, Nat.mod_eq_of_lt hall]
  have hb : (128 + UInt64.ofNat size + (UInt64.ofNat size / (31 * 1024) + 1) * 5).toNat =
      128 + size + (size / (31 * 1024) + 1) * 5 := by
    simp only [UInt64.toNat_add, UInt64.toNat_mul, UInt64.toNat_div, hbody, UInt64.reduceToNat,
      UInt64.reduceMul]
    omega
  have hmax : ∀ a b : UInt64, (max a b).toNat = max a.toNat b.toNat := by
    intro a b
    change (if a ≤ b then b else a).toNat = _
    rw [Nat.max_def]
    simp only [UInt64.le_iff_toNat_le]
    split_ifs <;> rfl
  have hcapacity : (deflateCapacity (UInt64.ofNat size) (UInt32.ofNat count)).toNat =
      max (128 + size / 100 * 110 + size % 100 * 110 / 100)
        (128 + size + (size / (31 * 1024) + 1) * 5) + count * 16 := by
    unfold deflateCapacity
    simp only [UInt64.toNat_add, UInt64.toNat_mul, hmax, ha, hb, hchunks, UInt64.reduceToNat]
    omega
  rw [hcapacity]
  omega

/-! ## The output -/

/-- What is sent for an output. -/
def QueuedOutput.bytes (output : QueuedOutput) : List UInt8 :=
  (output.header.map fun header => header.buffer.take header.bufferSize.toNat).getD [] ++
    output.body.buffer.take output.body.bufferSize.toNat ++ output.fileInfo.getD []

/-- Chunks go into a block with room for them. -/
theorem writeChunksToBuffer_fits (chunks : List (List UInt8)) {buffer : List UInt8}
    (hroom : chunks.flatten.length ≤ buffer.length) (hlt : chunks.flatten.length < 2 ^ 64) :
    ∃ buffer', writeChunksToBuffer 0 chunks buffer 0 =
        some (buffer', UInt64.ofNat chunks.flatten.length) ∧
      buffer'.take chunks.flatten.length = chunks.flatten := by
  have hstart : Filled chunks.flatten (buffer.drop chunks.flatten.length) 0 buffer :=
    ⟨rfl, rfl, hroom⟩
  obtain ⟨buffer', hrun, hfilled⟩ := writeChunksToBuffer_all chunks hstart List.prefix_rfl
    (by omega) hlt
  rw [Nat.zero_add] at hfilled
  exact ⟨buffer', hrun, by rw [hfilled.eq, List.take_left]⟩

theorem length_webserverMalloc (content : Nat → UInt8) (size : UInt64) :
    (webserverMalloc content size).length = size.toNat := by
  rw [webserverMalloc, List.length_map, List.length_range]

theorem toNat_ofNat32 {n : Nat} (h : n < 2 ^ 32) : (UInt32.ofNat n).toNat = n := by
  rw [UInt32.toNat_ofNat']
  exact Nat.mod_eq_of_lt h

/-- `Content-Length`, as `generateOutputBuffer` prints it. -/
theorem ascii_contentLength {n : Nat} (h : n < 2 ^ 32) :
    ascii s!"Content-Length: {(UInt32.ofNat n).toNat}\r\n" = contentLengthText n := by
  have happend : ∀ a b : String, ascii (a ++ b) = ascii a ++ ascii b := by
    intro a b
    rw [ascii, String.toList_append, List.map_append]
    rfl
  rw [toNat_ofNat32 h, contentLengthText, decimal]
  change ascii ("Content-Length: " ++ toString n ++ "\r\n") = _
  rw [happend, happend]
  rfl

theorem writeChunk_flatten (chunks : List (List UInt8)) (text : List UInt8) :
    (writeChunk chunks text).flatten = chunks.flatten ++ text := by
  have := foldl_writeChunk_flatten [text] chunks
  rwa [List.foldl_cons, List.foldl_nil, List.flatten_singleton] at this

theorem length_contentLengthText {n : Nat} (h : n < 2 ^ 32) :
    (contentLengthText n).length ≤ 28 := by
  have hdigits := (@Nat.length_toDigits_le_iff 10 n 10 (by decide) (by decide)).mpr
    (Nat.lt_trans h (by decide))
  have hname : (ascii "Content-Length: ").length = 16 := by decide +kernel
  have hend : crlf.length = 2 := rfl
  rw [contentLengthText, List.length_append, List.length_append, decimal_eq, List.length_map,
    hname, hend]
  omega

/-- A header that is copied into a block of its own. -/
theorem headerBuffer_eq (content : Nat → UInt8) {chunks : List (List UInt8)} {text : List UInt8}
    (htext : chunks.flatten = text) (hlt : text.length + 1 < 2 ^ 32) :
    ∃ buffer, writeChunksToBuffer 0 chunks
        (webserverMalloc content (getChunkListSize chunks + 1)) 0 =
        some (buffer, UInt64.ofNat text.length) ∧
      (UInt64.ofNat text.length).toUInt32.toUInt64.toNat = text.length ∧
      buffer.take text.length = text := by
  subst htext
  have hsize : (getChunkListSize chunks + 1).toNat = chunks.flatten.length + 1 := by
    rw [getChunkListSize_eq, UInt64.toNat_add, UInt64.toNat_ofNat', UInt64.toNat_one]
    omega
  obtain ⟨buffer, hrun, htake⟩ := @writeChunksToBuffer_fits chunks
    (webserverMalloc content (getChunkListSize chunks + 1))
    (by rw [length_webserverMalloc, hsize]; omega) (by omega)
  refine ⟨buffer, hrun, ?_, htake⟩
  rw [UInt32.toNat_toUInt64, UInt64.toNat_toUInt32, UInt64.toNat_ofNat']
  omega

/-- The end of a header that is printed with the length of the body. -/
theorem finishedHeader_flatten {chunks : List (List UInt8)} {n : Nat} (hn : n < 2 ^ 32) :
    (writeChunk (writeChunk chunks
      (ascii s!"Content-Length: {(UInt32.ofNat n).toNat}\r\n")) (ascii "\r\n")).flatten =
      chunks.flatten ++ contentLengthText n ++ crlf := by
  rw [writeChunk_flatten, writeChunk_flatten, ascii_contentLength hn]
  rfl

/-- **A page that is compressed**: the length is that of the compressed page, or of the page itself
where it was not compressed after all. -/
theorem generateCompressed_bytes (content : Nat → UInt8) (gLoopNow : UInt32)
    {deflate : List (List UInt8) → UInt64 → List UInt8} {s : ResponseSocket}
    {deflated : List UInt8} {capacity : UInt64}
    (hcapacity : capacity = deflateCapacity (getChunkListSize s.htmlChunkList)
      (UInt32.ofNat s.htmlChunkList.length))
    (hdeflated : deflate s.htmlChunkList capacity = deflated)
    (hfit : deflated.length ≤ capacity.toNat) (hsize : s.htmlChunkList.flatten.length < 2 ^ 31)
    (hcount : s.htmlChunkList.length < 2 ^ 26)
    (hheader : s.headerChunkList.flatten.length < 2 ^ 31) :
    ∃ s' output, generateCompressed content deflate gLoopNow s = some s' ∧
      s'.outputList = s.outputList ++ [output] ∧ output.bytes =
        (if deflated = [] then
          s.headerChunkList.flatten ++ contentLengthText s.htmlChunkList.flatten.length ++ crlf ++
            s.htmlChunkList.flatten
        else
          s.headerChunkList.flatten ++ ascii "Content-Encoding: deflate\r\n" ++
            contentLengthText deflated.length ++ crlf ++ deflated) := by
  obtain ⟨hroom, hbits⟩ := deflateCapacity_bounds hsize hcount
  rw [← getChunkListSize_eq, ← hcapacity] at hroom hbits
  have hblock : (webserverMalloc content (capacity + 1)).length = capacity.toNat + 1 := by
    rw [length_webserverMalloc, UInt64.toNat_add, UInt64.toNat_one]
    omega
  have hcopy : copyInto (webserverMalloc content (capacity + 1)) 0 deflated 0 deflated.length =
      some (memcpyAt (webserverMalloc content (capacity + 1)) 0 deflated) :=
    copyInto_all (by omega)
  have hcontent : ∀ {n : Nat}, n < 2 ^ 32 → (contentLengthText n).length + crlf.length ≤ 30 := by
    intro n hn
    have := length_contentLengthText hn
    have hend : crlf.length = 2 := rfl
    omega
  unfold generateCompressed
  simp only [← hcapacity, hdeflated, hcopy, Option.bind_eq_bind, Option.bind_some]
  by_cases hnone : deflated = []
  · -- the page goes out as it is
    have hzero : ¬ (0 : UInt32) < UInt32.ofNat deflated.length := by
      rw [hnone]
      decide
    obtain ⟨buffer, hrun, htake⟩ := @writeChunksToBuffer_fits s.htmlChunkList
      (memcpyAt (webserverMalloc content (capacity + 1)) 0 deflated)
      (by rw [length_memcpyAt (by omega), hblock]; omega) (by omega)
    have hoffset : (UInt64.ofNat s.htmlChunkList.flatten.length).toUInt32 =
        UInt32.ofNat s.htmlChunkList.flatten.length := by
      rw [← UInt32.toNat_inj, UInt64.toNat_toUInt32, UInt64.toNat_ofNat', UInt32.toNat_ofNat']
      omega
    have hn : s.htmlChunkList.flatten.length < 2 ^ 32 := by omega
    obtain ⟨headerBuffer, hheaderRun, hsize', htake'⟩ := headerBuffer_eq content
      (@finishedHeader_flatten s.headerChunkList _ hn) (by
        have := hcontent hn
        rw [List.length_append, List.length_append]
        omega)
    simp only [if_neg hzero, hrun, Option.bind_some, hoffset, hheaderRun]
    refine ⟨_, _, rfl, rfl, ?_⟩
    rw [if_pos hnone]
    simp only [QueuedOutput.bytes, Option.map_some, Option.getD_some, hsize', htake',
      UInt32.toNat_toUInt64, toNat_ofNat32 hn, htake, Option.getD_none, List.append_nil]
  · have hn : deflated.length < 2 ^ 32 := by omega
    have hpos : (0 : UInt32) < UInt32.ofNat deflated.length := by
      rw [UInt32.lt_iff_toNat_lt, toNat_ofNat32 hn]
      exact List.length_pos_iff.mpr hnone
    have htake : (memcpyAt (webserverMalloc content (capacity + 1)) 0 deflated).take
        deflated.length = deflated := by
      rw [memcpyAt, List.take_zero, List.nil_append, List.take_left]
    obtain ⟨headerBuffer, hheaderRun, hsize', htake'⟩ := headerBuffer_eq content
      (@finishedHeader_flatten
        (writeChunk s.headerChunkList (ascii "Content-Encoding: deflate\r\n")) _ hn) (by
        have := hcontent hn
        have hencoding : (ascii "Content-Encoding: deflate\r\n").length = 27 := by decide +kernel
        rw [writeChunk_flatten, List.length_append, List.length_append, List.length_append,
          hencoding]
        omega)
    simp only [if_pos hpos, Option.bind_some, hheaderRun]
    refine ⟨_, _, rfl, rfl, ?_⟩
    rw [if_neg hnone]
    simp only [QueuedOutput.bytes, Option.map_some, Option.getD_some, hsize', htake',
      UInt32.toNat_toUInt64, toNat_ofNat32 hn, htake, Option.getD_none, List.append_nil]
    rw [writeChunk_flatten]

/-! ## Answers -/

/-- The sizes that a response may have: less than 4 GiB, and for a page that is to be compressed less
than 2 GiB in not too many chunks. -/
structure FitsOutput (s : HttpRequest) : Prop where
  whole : s.socket.headerChunkList.flatten.length + s.page.length < 2 ^ 32
  header : s.socket.useOutputCompression = true → s.socket.headerChunkList.flatten.length < 2 ^ 31
  page : s.socket.useOutputCompression = true → s.page.length < 2 ^ 31
  chunks : s.socket.useOutputCompression = true → s.socket.htmlChunkList.length < 2 ^ 26

/-- The body that a client gets for a page, with the compressor of the library. -/
def sentBody (tdefl : Tdefl σ) (s : HttpRequest) (body : List UInt8) : List UInt8 :=
  if s.socket.useOutputCompression && s.socket.sendFileInfo.isNone then
    let deflated := deflateChunks tdefl s.socket.htmlChunkList
      (deflateCapacity (getChunkListSize s.socket.htmlChunkList)
        (UInt32.ofNat s.socket.htmlChunkList.length))
    if deflated = [] then body else deflated
  else body

/-- What a sender leaves is handed over as one response. -/
theorem Sent.output {tdefl : Tdefl σ} (hroom : tdefl.StaysInRoom) (content : Nat → UInt8)
    (gLoopNow : UInt32) {s : HttpRequest} {code : Nat} {body : List UInt8} (h : Sent s code body)
    (hfits : FitsOutput s) :
    ∃ socket output,
      generateOutputBuffer content (deflateChunks tdefl) gLoopNow s.socket = some socket ∧
        socket.outputList = s.socket.outputList ++ [output] ∧
        ReadsAs output.bytes code (sentBody tdefl s body) := by
  cases h with
  | whole hplain hreads =>
      unfold generateOutputBuffer sentBody
      rw [hplain, if_neg Bool.false_ne_true, if_neg Bool.false_ne_true]
      have hlt : (s.socket.headerChunkList.flatten ++ s.page).length < 2 ^ 32 := by
        rw [List.length_append]
        exact hfits.whole
      refine ⟨_, _, generatePlain_eq content gLoopNow rfl hlt, rfl, ?_⟩
      have hsize : (UInt64.ofNat (s.socket.headerChunkList.flatten ++ s.page).length).toNat =
          (s.socket.headerChunkList.flatten ++ s.page).length := by
        rw [UInt64.toNat_ofNat']
        omega
      simp only [QueuedOutput.bytes, plainOutput, Option.map_none, Option.getD_none,
        List.nil_append]
      rw [← HttpRequest.page, hsize, List.take_left, List.append_assoc]
      exact hreads
  | started h hbody =>
      obtain ⟨reason, texts, hreason, htexts, hheader⟩ := h.header
      have hcompress : (s.socket.useOutputCompression && s.socket.sendFileInfo.isNone) = true := by
        rw [h.compressed, h.file]
        rfl
      have hpage : body = s.page := by
        rw [← hbody, HttpRequest.body, h.file]
        exact List.append_nil _
      have hallowed : ∀ b, BodyAllowed code b := fun b hcode =>
        (hcode.elim h.hasBody.1 h.hasBody.2).elim
      have hfit := length_deflateChunks hroom s.socket.htmlChunkList
        (deflateCapacity (getChunkListSize s.socket.htmlChunkList)
          (UInt32.ofNat s.socket.htmlChunkList.length))
      have hpageSize := hfits.page h.compressed
      obtain ⟨-, hbits⟩ := deflateCapacity_bounds hpageSize (hfits.chunks h.compressed)
      rw [HttpRequest.page, ← getChunkListSize_eq] at hbits
      obtain ⟨socket, output, hrun, hlist, hbytes⟩ := generateCompressed_bytes content gLoopNow rfl
        rfl hfit hpageSize (hfits.chunks h.compressed) (hfits.header h.compressed)
      have hint : (2 : Nat) ^ 32 ≤ Proxy.int64Max := by decide
      unfold generateOutputBuffer sentBody
      rw [if_pos hcompress, if_pos hcompress]
      refine ⟨socket, output, hrun, hlist, ?_⟩
      rw [hbytes, hheader, hpage]
      dsimp only
      split_ifs with hnone
      · have hreads := @readsAs_length s.header code reason s.page texts [] h.low h.high hreason
          htexts quietTexts_nil (by omega) (hallowed _)
        simpa [HttpRequest.page] using hreads
      · have hencoding : QuietTexts [ascii "Content-Encoding: deflate\r\n"] :=
          quietTexts_literal (by decide +kernel)
        have hreads := @readsAs_length s.header code reason _ _ [] h.low h.high hreason
          (htexts.append hencoding) quietTexts_nil (Nat.le_trans hfit (by omega)) (hallowed _)
        simpa using hreads

end CWebUI.Http
