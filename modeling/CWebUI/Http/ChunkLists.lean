import CWebUI.Websocket.Output

set_option autoImplicit false

/-! # Chunk lists

The header, the body of a page and the output of a websocket are collected in lists of chunks of
2000 bytes (`writeChunk` and `getChunkListSize`, `server_chunk_functions.c`). What is written goes to
the end of the last chunk and into new ones behind it.
-/

namespace CWebUI.Http

open CWebUI.Websocket (writeChunk writeChunkLoop chunkSize writeChunk_spec)

/-- `getChunkListSize` -/
def getChunkListSize (chunks : List (List UInt8)) : UInt64 :=
  chunks.foldl (fun ret chunk => ret + UInt64.ofNat chunk.length) 0

/-- The list behind several writes. -/
def writeChunks (writes : List (List UInt8)) : List (List UInt8) := writes.foldl writeChunk []

/-! ## One write -/

/-- What a write does to the chunks of a list: no chunk gets too long, all of them but the last stay
as they are, the last one grows, and the last one is not empty. -/
structure Written (chunks chunks' : List (List UInt8)) : Prop where
  fits : (∀ c ∈ chunks, c.length ≤ chunkSize) → ∀ c ∈ chunks', c.length ≤ chunkSize
  front : ∀ front last, chunks = front ++ [last] →
    ∃ more rest, chunks' = front ++ (last ++ more) :: rest

theorem Written.refl (chunks : List (List UInt8)) : Written chunks chunks :=
  ⟨id, fun _ last h => ⟨[], [], by rw [h, List.append_nil]⟩⟩

theorem Written.trans {chunks chunks' chunks'' : List (List UInt8)} (h : Written chunks chunks')
    (h' : Written chunks' chunks'') : Written chunks chunks'' := by
  refine ⟨fun hfits => h'.fits (h.fits hfits), fun front last heq => ?_⟩
  obtain ⟨more, rest, hmore⟩ := h.front front last heq
  rcases List.eq_nil_or_concat rest with rfl | ⟨middle, end', rfl⟩
  · obtain ⟨more', rest', hmore'⟩ := h'.front front (last ++ more) hmore
    exact ⟨more ++ more', rest', by rw [hmore', List.append_assoc]⟩
  · obtain ⟨more', rest', hmore'⟩ := h'.front (front ++ (last ++ more) :: middle) end' (by
      rw [hmore, List.concat_eq_append, List.append_assoc, List.cons_append])
    exact ⟨more, middle ++ (end' ++ more') :: rest', by
      rw [hmore', List.append_assoc, List.cons_append]⟩

/-- A new chunk. -/
theorem Written.new (chunks : List (List UInt8)) : Written chunks (chunks ++ [[]]) := by
  refine ⟨fun hfits c hc => ?_, fun front last h => ⟨[], [[]], by simp [h]⟩⟩
  rcases List.mem_append.mp hc with hc | hc
  · exact hfits c hc
  · rw [List.mem_singleton.mp hc]
    exact Nat.zero_le _

/-- Bytes go into the last chunk, as long as there is room. -/
theorem Written.fill (front : List (List UInt8)) (last text : List UInt8) {n : Nat}
    (hn : n ≤ chunkSize - last.length) :
    Written (front ++ [last]) (front ++ [last ++ text.take n]) := by
  refine ⟨fun hfits c hc => ?_, fun front' last' h => ?_⟩
  · rcases List.mem_append.mp hc with hc | hc
    · exact hfits c (List.mem_append_left _ hc)
    · have hlast := hfits last (List.mem_append_right _ (List.mem_singleton_self _))
      rw [List.mem_singleton.mp hc, List.length_append, List.length_take]
      omega
  · obtain ⟨rfl, hlast⟩ := List.append_inj' h rfl
    obtain rfl := List.singleton_inj.mp hlast
    exact ⟨text.take n, [], rfl⟩

/-- A round of the loop of `writeChunk`. -/
theorem writeChunkLoop_round {chunks : List (List UInt8)} {current : Bool} {text : List UInt8}
    (hchunks : current = true → chunks ≠ []) (htext : text ≠ []) (rounds : Nat) :
    ∃ front last n, n = min text.length (chunkSize - last.length) ∧
      (current = false → last = []) ∧ Written chunks (front ++ [last]) ∧
      writeChunkLoop (rounds + 1) chunks current text =
        writeChunkLoop rounds (front ++ [last ++ text.take n]) false (text.drop n) := by
  have hnonempty : text.isEmpty = false := by simpa using htext
  cases current with
  | false =>
      refine ⟨chunks, [], min text.length (chunkSize - 0), rfl, fun _ => rfl, Written.new chunks, ?_⟩
      rw [writeChunkLoop, hnonempty]
      simp
  | true =>
      obtain ⟨front, last, rfl⟩ := (List.eq_nil_or_concat chunks).resolve_left (hchunks rfl)
      refine ⟨front, last, _, rfl, (fun h => absurd h Bool.noConfusion), ?_, ?_⟩
      · rw [List.concat_eq_append]
        exact Written.refl _
      · rw [writeChunkLoop, hnonempty]
        simp

theorem writeChunkLoop_written {rounds : Nat} {chunks : List (List UInt8)} {current : Bool}
    {text : List UInt8} (hchunks : current = true → chunks ≠ []) :
    Written chunks (writeChunkLoop rounds chunks current text) := by
  induction rounds generalizing chunks current text with
  | zero => exact Written.refl chunks
  | succ rounds ih =>
      by_cases htext : text = []
      · subst htext
        exact Written.refl chunks
      · obtain ⟨front, last, n, hn, -, hwritten, hround⟩ :=
          writeChunkLoop_round hchunks htext rounds
        rw [hround]
        have hfill := Written.fill front last text (n := n) (by rw [hn]; exact Nat.min_le_right _ _)
        exact (hwritten.trans hfill).trans (ih fun h => nomatch h)

/-- The last chunk is not empty, once something is written. -/
theorem writeChunkLoop_last {rounds : Nat} {chunks : List (List UInt8)} {current : Bool}
    {text : List UInt8} (hchunks : current = true → chunks ≠ [])
    (hrounds : text.length + (if current then 1 else 0) ≤ rounds)
    (hlast : text = [] → chunks.getLastD [] ≠ []) :
    (writeChunkLoop rounds chunks current text).getLastD [] ≠ [] := by
  induction rounds generalizing chunks current text with
  | zero => exact hlast (List.length_eq_zero_iff.mp (by omega))
  | succ rounds ih =>
      by_cases htext : text = []
      · subst htext
        exact hlast rfl
      · obtain ⟨front, last, n, hn, hnew, -, hround⟩ := writeChunkLoop_round hchunks htext rounds
        have hpos : 0 < text.length := List.length_pos_iff.mpr htext
        rw [hround]
        refine ih (fun h => absurd h Bool.noConfusion) ?_ fun _ => ?_
        · -- only a chunk that was there before may have been full
          rw [List.length_drop]
          cases current with
          | true =>
              simp only [if_true] at hrounds
              simp only [Bool.false_eq_true, if_false]
              omega
          | false =>
              rw [hnew rfl, List.length_nil] at hn
              simp only [Bool.false_eq_true, if_false] at hrounds ⊢
              have : 0 < chunkSize := by decide
              omega
        · rw [List.getLastD_concat]
          intro hempty
          have hlength := congrArg List.length hempty
          rw [List.length_append, List.length_take, List.length_nil] at hlength
          have : chunkSize = 2000 := rfl
          omega

theorem writeChunk_written (chunks : List (List UInt8)) (text : List UInt8) :
    Written chunks (writeChunk chunks text) := by
  unfold writeChunk
  cases chunks with
  | nil => exact (Written.new []).trans (writeChunkLoop_written fun _ => List.cons_ne_nil _ _)
  | cons c cs => exact writeChunkLoop_written fun _ => List.cons_ne_nil _ _

theorem writeChunk_last (chunks : List (List UInt8)) {text : List UInt8} (htext : text ≠ []) :
    (writeChunk chunks text).getLastD [] ≠ [] := by
  unfold writeChunk
  cases chunks with
  | nil =>
      exact writeChunkLoop_last (fun _ => List.cons_ne_nil _ _) (Nat.le_refl _)
        fun h => absurd h htext
  | cons c cs =>
      refine writeChunkLoop_last (fun _ => List.cons_ne_nil _ _) ?_ fun h => absurd h htext
      split <;> omega

/-! ## Several writes -/

theorem foldl_writeChunk_flatten (writes chunks : List (List UInt8)) :
    (writes.foldl writeChunk chunks).flatten = chunks.flatten ++ writes.flatten := by
  induction writes generalizing chunks with
  | nil => simp
  | cons text writes ih =>
      rw [List.foldl_cons, ih, (writeChunk_spec chunks text).1, List.flatten_cons,
        List.append_assoc]

theorem foldl_writeChunk_written (writes chunks : List (List UInt8)) :
    Written chunks (writes.foldl writeChunk chunks) := by
  induction writes generalizing chunks with
  | nil => exact Written.refl chunks
  | cons text writes ih => exact (writeChunk_written chunks text).trans (ih _)

/-- The chunks hold what was written. -/
theorem writeChunks_flatten (writes : List (List UInt8)) :
    (writeChunks writes).flatten = writes.flatten := foldl_writeChunk_flatten writes []

/-- No chunk is too long. -/
theorem writeChunks_fits (writes : List (List UInt8)) :
    ∀ c ∈ writeChunks writes, c.length ≤ chunkSize :=
  (foldl_writeChunk_written writes []).fits fun _ hc => absurd hc List.not_mem_nil

/-- The size of a list is the number of its bytes, in 64 bits. -/
theorem getChunkListSize_eq (chunks : List (List UInt8)) :
    getChunkListSize chunks = UInt64.ofNat chunks.flatten.length := by
  have hloop : ∀ ret : UInt64,
      chunks.foldl (fun ret chunk => ret + UInt64.ofNat chunk.length) ret =
        ret + UInt64.ofNat chunks.flatten.length := by
    induction chunks with
    | nil =>
        intro ret
        exact (UInt64.add_zero ret).symm
    | cons chunk chunks ih =>
        intro ret
        rw [List.foldl_cons, ih, List.flatten_cons, List.length_append, UInt64.ofNat_add,
          UInt64.add_assoc]
  rw [getChunkListSize, hloop, UInt64.zero_add]

end CWebUI.Http
