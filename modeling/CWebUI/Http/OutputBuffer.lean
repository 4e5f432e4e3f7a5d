import CWebUI.Basic.Blocks
import CWebUI.Basic.Bytes
import CWebUI.Http.ChunkLists

set_option autoImplicit false

/-! # A response is handed over

`generateOutputBuffer` (`server_chunk_functions.c`): the chunks of the header and of the page are
copied into a block of memory that is queued for sending, and both lists are cleared. The block is
as long as both lists together, and one byte more. What a block of `WebserverMalloc` holds, and what
`deflateChunks` makes of the chunks, are arguments. A copy out of the bounds of a block has no
result.
-/

namespace CWebUI.Http

open ByteString ListLemmas
open CWebUI.Websocket (writeChunk chunkSize)

/-! ## The model -/

/-- `output_buffer`, with its block of memory. -/
structure QueuedBuffer where
  buffer : List UInt8
  bufferSize : UInt64

/-- `output_struct` -/
structure QueuedOutput where
  header : Option QueuedBuffer := none
  body : QueuedBuffer
  fileInfo : Option (List UInt8) := none

/-- The part of `socket_info` that `generateOutputBuffer` uses. A file to be sent is its bytes. -/
structure ResponseSocket where
  headerChunkList : List (List UInt8)
  htmlChunkList : List (List UInt8)
  useOutputCompression : Bool := false
  sendFileInfo : Option (List UInt8) := none
  outputList : List QueuedOutput := []
  responseBytes : UInt64 := 0
  txAt : UInt32 := 0

/-- `WebserverMalloc` -/
def webserverMalloc (content : Nat → UInt8) (size : UInt64) : List UInt8 :=
  (List.range size.toNat).map content

/-- The loop of `writeChunksToBuffer`, on a pointer into a block. -/
def writeChunksToBuffer (base : Nat) :
    List (List UInt8) → List UInt8 → UInt64 → Option (List UInt8 × UInt64)
  | [], buffer, offset => some (buffer, offset)
  | chunk :: chunks, buffer, offset => do
      let buffer ← copyInto buffer (base + offset.toNat) chunk 0 chunk.length
      writeChunksToBuffer base chunks buffer (offset + UInt64.ofNat chunk.length)

/-- `deflateCapacity` -/
def deflateCapacity (bodySize : UInt64) (chunkCount : UInt32) : UInt64 :=
  let a := 128 + bodySize / 100 * 110 + bodySize % 100 * 110 / 100
  let b := 128 + bodySize + (bodySize / (31 * 1024) + 1) * 5
  max a b + chunkCount.toUInt64 * 16

/-- The first branch of `generateOutputBuffer`: the page is compressed. -/
def generateCompressed (content : Nat → UInt8)
    (deflateChunks : List (List UInt8) → UInt64 → List UInt8) (gLoopNow : UInt32)
    (s : ResponseSocket) : Option ResponseSocket := do
  let capacity := deflateCapacity (getChunkListSize s.htmlChunkList)
    (UInt32.ofNat s.htmlChunkList.length)
  let buffer := webserverMalloc content (capacity + 1)
  let deflated := deflateChunks s.htmlChunkList capacity
  let buffer ← copyInto buffer 0 deflated 0 deflated.length
  let offset := UInt32.ofNat deflated.length
  let header :=
    if 0 < offset then writeChunk s.headerChunkList (ascii "Content-Encoding: deflate\r\n")
    else s.headerChunkList
  let (body, offset) ←
    if 0 < offset then some (buffer, offset)
    else do
      let (buffer, written) ← writeChunksToBuffer 0 s.htmlChunkList buffer 0
      some (buffer, written.toUInt32)
  let header := writeChunk header (ascii s!"Content-Length: {offset.toNat}\r\n")
  let header := writeChunk header (ascii "\r\n")
  let headerBuffer := webserverMalloc content (getChunkListSize header + 1)
  let (headerBuffer, written) ← writeChunksToBuffer 0 header headerBuffer 0
  let output : QueuedOutput := {
    header := some ⟨headerBuffer, written.toUInt32.toUInt64⟩
    body := ⟨body, offset.toUInt64⟩ }
  some { s with
    headerChunkList := []
    htmlChunkList := []
    outputList := s.outputList ++ [output]
    responseBytes := written.toUInt32.toUInt64 + offset.toUInt64
    txAt := gLoopNow }

/-- The second branch: header and page go out as they are, in one block. The offset has 32 bits. -/
def generatePlain (content : Nat → UInt8) (gLoopNow : UInt32) (s : ResponseSocket) :
    Option ResponseSocket := do
  let size := getChunkListSize s.headerChunkList + getChunkListSize s.htmlChunkList
  let buffer := webserverMalloc content (size + 1)
  let (buffer, written) ← writeChunksToBuffer 0 s.headerChunkList buffer 0
  let offset := written.toUInt32
  let (buffer, written) ← writeChunksToBuffer offset.toNat s.htmlChunkList buffer 0
  let offset := (offset.toUInt64 + written).toUInt32
  let output : QueuedOutput := {
    body := ⟨buffer, offset.toUInt64⟩
    fileInfo := s.sendFileInfo }
  some { s with
    headerChunkList := []
    htmlChunkList := []
    sendFileInfo := none
    outputList := s.outputList ++ [output]
    responseBytes := offset.toUInt64 + UInt64.ofNat (s.sendFileInfo.getD []).length
    txAt := gLoopNow }

/-- `generateOutputBuffer` -/
def generateOutputBuffer (content : Nat → UInt8)
    (deflateChunks : List (List UInt8) → UInt64 → List UInt8) (gLoopNow : UInt32)
    (s : ResponseSocket) : Option ResponseSocket :=
  if s.useOutputCompression && s.sendFileInfo.isNone then
    generateCompressed content deflateChunks gLoopNow s
  else generatePlain content gLoopNow s

/-! ## Copying the chunks -/

/-- The chunks fill the block, one behind the other. -/
theorem writeChunksToBuffer_filled {base : Nat} {content tail : List UInt8}
    (chunks : List (List UInt8)) {buffer : List UInt8} {offset : UInt64}
    (h : Filled content tail (base + offset.toNat) buffer)
    (hchunks : chunks.flatten <+: content.drop (base + offset.toNat))
    (hroom : base + offset.toNat + chunks.flatten.length ≤ content.length)
    (hoffset : offset.toNat + chunks.flatten.length < 2 ^ 64) :
    ∃ buffer', writeChunksToBuffer base chunks buffer offset =
        some (buffer', UInt64.ofNat (offset.toNat + chunks.flatten.length)) ∧
      Filled content tail (base + offset.toNat + chunks.flatten.length) buffer' := by
  induction chunks generalizing buffer offset with
  | nil =>
      refine ⟨buffer, ?_, h⟩
      rw [writeChunksToBuffer, List.flatten_nil, List.length_nil, Nat.add_zero, UInt64.ofNat_toNat]
  | cons chunk chunks ih =>
      rw [List.flatten_cons, List.length_append] at hroom hoffset
      have hnext : (offset + UInt64.ofNat chunk.length).toNat = offset.toNat + chunk.length := by
        rw [UInt64.toNat_add, UInt64.toNat_ofNat']
        omega
      have hchunk : chunk <+: content.drop (base + offset.toNat) :=
        (List.flatten_cons ▸ List.prefix_append chunk chunks.flatten).trans hchunks
      have hcopy : copyInto buffer (base + offset.toNat) chunk 0 chunk.length =
          some (memcpyAt buffer (base + offset.toNat) chunk) := by
        refine copyInto_all ?_
        have := h.room
        omega
      have hfilled := h.memcpyAt hchunk (by omega)
      rw [Nat.add_assoc, ← hnext] at hfilled
      obtain ⟨buffer', hrun, hdone⟩ := ih hfilled (by
          obtain ⟨rest, hrest⟩ := hchunks
          rw [List.flatten_cons, List.append_assoc] at hrest
          rw [hnext, ← Nat.add_assoc, ← List.drop_drop, ← hrest, List.drop_left]
          exact List.prefix_append _ _)
        (by rw [hnext]; omega) (by rw [hnext]; omega)
      refine ⟨buffer', ?_, ?_⟩
      · rw [writeChunksToBuffer, hcopy, List.flatten_cons, List.length_append, ← Nat.add_assoc,
          ← hnext]
        exact hrun
      · rw [List.flatten_cons, List.length_append]
        have hsum : base + offset.toNat + (chunk.length + chunks.flatten.length) =
            base + (offset + UInt64.ofNat chunk.length).toNat + chunks.flatten.length := by
          omega
        rw [hsum]
        exact hdone

theorem writeChunksToBuffer_all {base : Nat} {content tail buffer : List UInt8}
    (chunks : List (List UInt8)) (h : Filled content tail base buffer)
    (hchunks : chunks.flatten <+: content.drop base)
    (hroom : base + chunks.flatten.length ≤ content.length)
    (hlength : chunks.flatten.length < 2 ^ 64) :
    ∃ buffer', writeChunksToBuffer base chunks buffer 0 =
        some (buffer', UInt64.ofNat chunks.flatten.length) ∧
      Filled content tail (base + chunks.flatten.length) buffer' := by
  have hzero : (0 : UInt64).toNat = 0 := rfl
  have hrun := @writeChunksToBuffer_filled base content tail chunks buffer 0
  rw [hzero, Nat.add_zero, Nat.zero_add] at hrun
  exact hrun h hchunks hroom hlength

/-! ## The block of a response -/

theorem webserverMalloc_succ (content : Nat → UInt8) {n : Nat} (h : n + 1 < 2 ^ 64) :
    webserverMalloc content (UInt64.ofNat n + 1) = (List.range n).map content ++ [content n] := by
  have hsize : (UInt64.ofNat n + 1).toNat = n + 1 := by
    rw [UInt64.toNat_add, UInt64.toNat_ofNat', UInt64.toNat_one]
    omega
  rw [webserverMalloc, hsize, List.range_succ, List.map_append]
  rfl

/-- The output of a response that is not compressed: header and page, and the last byte of the block
as it was. -/
def plainOutput (content : Nat → UInt8) (s : ResponseSocket) (bytes : List UInt8) : QueuedOutput where
  body := ⟨bytes ++ [content bytes.length], UInt64.ofNat bytes.length⟩
  fileInfo := s.sendFileInfo

/-- **A response of less than 4 GiB** is queued as it was written. -/
theorem generatePlain_eq (content : Nat → UInt8) (gLoopNow : UInt32) {s : ResponseSocket}
    {bytes : List UInt8} (hbytes : s.headerChunkList.flatten ++ s.htmlChunkList.flatten = bytes)
    (h : bytes.length < 2 ^ 32) :
    generatePlain content gLoopNow s = some { s with
      headerChunkList := []
      htmlChunkList := []
      sendFileInfo := none
      outputList := s.outputList ++ [plainOutput content s bytes]
      responseBytes := UInt64.ofNat bytes.length +
        UInt64.ofNat (s.sendFileInfo.getD []).length
      txAt := gLoopNow } := by
  have hlength : s.headerChunkList.flatten.length + s.htmlChunkList.flatten.length =
      bytes.length := by rw [← hbytes, List.length_append]
  have hstart : Filled bytes [content bytes.length] 0
      (webserverMalloc content (UInt64.ofNat bytes.length + 1)) := by
    rw [webserverMalloc_succ content (by omega)]
    exact Filled.start (by simp)
  obtain ⟨buffer, hheader, hfilled⟩ := writeChunksToBuffer_all s.headerChunkList hstart
    (hbytes ▸ List.prefix_append _ _) (by omega) (by omega)
  rw [Nat.zero_add] at hfilled
  have hrest : bytes.drop s.headerChunkList.flatten.length = s.htmlChunkList.flatten := by
    rw [← hbytes, List.drop_left]
  obtain ⟨buffer', hpage, hfull⟩ := writeChunksToBuffer_all s.htmlChunkList hfilled
    (hrest ▸ List.prefix_rfl) (by omega) (by omega)
  rw [hlength] at hfull
  have hoffset : (UInt64.ofNat s.headerChunkList.flatten.length).toUInt32.toNat =
      s.headerChunkList.flatten.length := by
    rw [UInt64.toNat_toUInt32, UInt64.toNat_ofNat']
    omega
  have hsum : ((UInt64.ofNat s.headerChunkList.flatten.length).toUInt32.toUInt64 +
      UInt64.ofNat s.htmlChunkList.flatten.length).toUInt32.toUInt64 =
      UInt64.ofNat bytes.length := by
    rw [← UInt64.toNat_inj, UInt32.toNat_toUInt64, UInt64.toNat_toUInt32, UInt64.toNat_add,
      UInt32.toNat_toUInt64, hoffset, UInt64.toNat_ofNat', UInt64.toNat_ofNat']
    omega
  have hsize : getChunkListSize s.headerChunkList + getChunkListSize s.htmlChunkList =
      UInt64.ofNat bytes.length := by
    rw [getChunkListSize_eq, getChunkListSize_eq, ← UInt64.ofNat_add, hlength]
  unfold generatePlain
  simp only [hsize, hheader, hoffset, hpage, hsum, hfull.eq, Option.bind_eq_bind, Option.bind_some]
  rfl

/-- The size of what is queued has 32 bits. -/
theorem generatePlain_size {content : Nat → UInt8} {gLoopNow : UInt32} {s s' : ResponseSocket}
    (h : generatePlain content gLoopNow s = some s') :
    ∃ output, s'.outputList = s.outputList ++ [output] ∧
      output.body.bufferSize.toNat < 2 ^ 32 := by
  unfold generatePlain at h
  simp only [Option.bind_eq_bind, Option.bind_eq_some_iff, Option.some.injEq] at h
  obtain ⟨header, -, page, -, rfl⟩ := h
  refine ⟨_, rfl, ?_⟩
  rw [UInt32.toNat_toUInt64]
  exact UInt32.toNat_lt _

/-! ## Responses -/

/-- What chunk lists are to keep, from the writes to the header and to the page, up to the output:
the bytes, the capacity of a chunk, the sizes, and what the output holds. -/
structure KeepsBytes (content : Nat → UInt8)
    (deflateChunks : List (List UInt8) → UInt64 → List UInt8) (gLoopNow : UInt32)
    (header page : List (List UInt8)) (s : ResponseSocket) : Prop where
  header_flatten : s.headerChunkList.flatten = header.flatten
  page_flatten : s.htmlChunkList.flatten = page.flatten
  fits : ∀ c ∈ s.headerChunkList ++ s.htmlChunkList, c.length ≤ chunkSize
  header_size : (getChunkListSize s.headerChunkList).toNat = header.flatten.length
  page_size : (getChunkListSize s.htmlChunkList).toNat = page.flatten.length
  queued : ∃ s' output, generateOutputBuffer content deflateChunks gLoopNow s = some s' ∧
    s'.outputList = s.outputList ++ [output] ∧ output.header.isNone ∧
    output.body.buffer = header.flatten ++ page.flatten ++
      [content (header.flatten ++ page.flatten).length] ∧
    output.body.bufferSize.toNat = (header.flatten ++ page.flatten).length ∧
    s'.headerChunkList = [] ∧ s'.htmlChunkList = []

/-- The lists of a response that was written, with an output that is not compressed. -/
structure WrittenResponse (header page : List (List UInt8)) (s : ResponseSocket) : Prop where
  headerChunkList : s.headerChunkList = writeChunks header
  htmlChunkList : s.htmlChunkList = writeChunks page
  plain : (s.useOutputCompression && s.sendFileInfo.isNone) = false

/-- A response that was written just now. -/
theorem writtenResponse (header page : List (List UInt8)) : WrittenResponse header page
    { headerChunkList := writeChunks header, htmlChunkList := writeChunks page } :=
  ⟨rfl, rfl, rfl⟩

theorem KeepsBytes.length_lt {content : Nat → UInt8}
    {deflateChunks : List (List UInt8) → UInt64 → List UInt8} {gLoopNow : UInt32}
    {header page : List (List UInt8)} {s : ResponseSocket}
    (hplain : (s.useOutputCompression && s.sendFileInfo.isNone) = false)
    (h : KeepsBytes content deflateChunks gLoopNow header page s) :
    (header.flatten ++ page.flatten).length < 2 ^ 32 := by
  obtain ⟨s', output, hrun, hqueued, -, -, hsize, -, -⟩ := h.queued
  unfold generateOutputBuffer at hrun
  rw [hplain, if_neg (by decide)] at hrun
  -- the size of the output went through 32 bits, and it is that of all bytes
  obtain ⟨output', hqueued', hlt⟩ := generatePlain_size hrun
  rw [hqueued] at hqueued'
  obtain rfl := List.singleton_inj.mp (List.append_cancel_left hqueued')
  rw [← hsize]
  exact hlt

theorem WrittenResponse.keepsBytes {header page : List (List UInt8)} {s : ResponseSocket}
    (h : WrittenResponse header page s) (content : Nat → UInt8)
    (deflateChunks : List (List UInt8) → UInt64 → List UInt8) (gLoopNow : UInt32)
    (hlt : (header.flatten ++ page.flatten).length < 2 ^ 32) :
    KeepsBytes content deflateChunks gLoopNow header page s := by
  have hheader : s.headerChunkList.flatten = header.flatten := by
    rw [h.headerChunkList, writeChunks_flatten]
  have hpage : s.htmlChunkList.flatten = page.flatten := by
    rw [h.htmlChunkList, writeChunks_flatten]
  have hlengths := List.length_append ▸ hlt
  refine ⟨hheader, hpage, fun c hc => ?_, ?_, ?_, ?_⟩
  · rcases List.mem_append.mp hc with hc | hc
    · exact writeChunks_fits header c (h.headerChunkList ▸ hc)
    · exact writeChunks_fits page c (h.htmlChunkList ▸ hc)
  · rw [getChunkListSize_eq, hheader, UInt64.toNat_ofNat']
    omega
  · rw [getChunkListSize_eq, hpage, UInt64.toNat_ofNat']
    omega
  · have hrun : generateOutputBuffer content deflateChunks gLoopNow s =
        generatePlain content gLoopNow s := by
      unfold generateOutputBuffer
      rw [h.plain, if_neg (by decide)]
    rw [generatePlain_eq content gLoopNow (by rw [hheader, hpage]) hlt] at hrun
    refine ⟨_, _, hrun, rfl, rfl, rfl, ?_, rfl, rfl⟩
    change (UInt64.ofNat _).toNat = _
    rw [UInt64.toNat_ofNat']
    omega

/-- **The bytes of a response** arrive in the output as they were written exactly when they are less
than 4 GiB. -/
theorem keepsBytes_iff (content : Nat → UInt8)
    (deflateChunks : List (List UInt8) → UInt64 → List UInt8) (gLoopNow : UInt32)
    {header page : List (List UInt8)} {s : ResponseSocket} (h : WrittenResponse header page s) :
    KeepsBytes content deflateChunks gLoopNow header page s ↔
      (header.flatten ++ page.flatten).length < 2 ^ 32 :=
  ⟨fun hkeeps => hkeeps.length_lt h.plain, h.keepsBytes content deflateChunks gLoopNow⟩

/-- A short response. -/
theorem keepsBytes_iff_short : KeepsBytes (fun _ => 0) (fun _ _ => []) 0
    [ascii "HTTP/1.1 200 OK\r\n", ascii "\r\n"] [ascii "page"]
    { headerChunkList := writeChunks [ascii "HTTP/1.1 200 OK\r\n", ascii "\r\n"]
      htmlChunkList := writeChunks [ascii "page"] } :=
  (keepsBytes_iff (fun _ => 0) (fun _ _ => []) 0 (writtenResponse _ _)).mpr (by decide)

/-- Two writes of 2 GiB to a page. -/
theorem keepsBytes_fails : ¬ ∀ (content : Nat → UInt8)
    (deflateChunks : List (List UInt8) → UInt64 → List UInt8) (gLoopNow : UInt32)
    (header page : List (List UInt8)) (s : ResponseSocket), WrittenResponse header page s →
    KeepsBytes content deflateChunks gLoopNow header page s := by
  intro hall
  have hwritten := writtenResponse [] (List.replicate 2 (List.replicate (2 ^ 31) 0))
  have hlt := (hall (fun _ => 0) (fun _ _ => []) 0 _ _ _ hwritten).length_lt hwritten.plain
  rw [List.flatten_nil, List.nil_append, List.length_flatten, List.map_replicate,
    List.length_replicate] at hlt
  exact absurd hlt (by decide)

end CWebUI.Http
