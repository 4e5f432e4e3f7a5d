import CWebUI.Http.SubstringSearch
import CWebUI.Post.Steps

set_option autoImplicit false

/-! # What the scanner gives out and what it holds back

`scanForNeedle` sees the bytes that it has held back, and then those of the chunk. Of this text it
gives out a first part, and what follows is held back or is the pattern. How it cuts the text does
not depend on who receives the data: a `Scan` is the cut alone, and the law of the scanner is about
it.

An occurrence of the pattern is passed over at no place of the text: `NoneBefore` goes with the
bytes that have been given out.
-/

namespace CWebUI.Post

open ByteString CWebUI.Http

/-! ## Places where the pattern does not stand -/

/-- The pattern stands at none of the first `k` places of the text. -/
def NoneBefore (needle text : List UInt8) (k : Nat) : Prop :=
  ∀ j < k, ¬ needle <+: text.drop j

theorem noneBefore_zero (needle text : List UInt8) : NoneBefore needle text 0 :=
  fun j hj => absurd hj (Nat.not_lt_zero j)

theorem NoneBefore.append {needle pre text : List UInt8} {k : Nat}
    (hpre : NoneBefore needle (pre ++ text) pre.length) (h : NoneBefore needle text k) :
    NoneBefore needle (pre ++ text) (pre.length + k) := by
  intro j hj hp
  by_cases hlt : j < pre.length
  · exact hpre j hlt hp
  · obtain ⟨i, rfl⟩ := Nat.exists_eq_add_of_le (Nat.not_lt.mp hlt)
    rw [List.drop_length_add_append] at hp
    exact h i (by omega) hp

/-- One more place at the front of the text. -/
theorem NoneBefore.cons {needle text : List UInt8} {b : UInt8} {k : Nat}
    (hb : ¬ needle <+: b :: text) (h : NoneBefore needle text k) :
    NoneBefore needle (b :: text) (k + 1) := by
  intro j hj
  cases j with
  | zero => exact hb
  | succ j => exact h j (by omega)

/-- Bytes that the pattern does not start with. -/
theorem noneBefore_run {needle run : List UInt8} (rest : List UInt8) (hne : needle ≠ [])
    (hrun : ∀ c ∈ run, needle.head? ≠ some c) :
    NoneBefore needle (run ++ rest) run.length := by
  induction run with
  | nil => exact noneBefore_zero _ _
  | cons c run ih =>
      refine NoneBefore.cons ?_ (ih fun d hd => hrun d (List.mem_cons_of_mem c hd))
      rintro ⟨post, hpost⟩
      obtain ⟨p, ps, rfl⟩ := List.exists_cons_of_ne_nil hne
      apply hrun c List.mem_cons_self
      have hhead := congrArg List.head? hpost
      simpa using hhead

/-- A byte that does not continue the pattern. -/
theorem not_prefix_of_mismatch {needle hold rest : List UInt8} {c : UInt8}
    (hlt : hold.length < needle.length) (hc : needle[hold.length]? ≠ some c) :
    ¬ needle <+: hold ++ c :: rest := by
  rintro ⟨post, hpost⟩
  apply hc
  have hget := congrArg (fun l => l[hold.length]?) hpost
  rw [List.getElem?_append_left hlt, List.getElem?_append_right (Nat.le_refl _)] at hget
  simpa using hget

/-- A text that ends in a beginning of the pattern does not hold it behind the first places. -/
theorem NoneBefore.absent {needle text : List UInt8} {k : Nat} (h : NoneBefore needle text k)
    (hend : text.length < k + needle.length) : ¬ needle <:+: text := by
  rintro ⟨pre, post, rfl⟩
  rw [List.append_assoc] at h hend
  have hk : pre.length < k := by
    rw [List.length_append, List.length_append] at hend
    omega
  apply h pre.length hk
  rw [List.drop_left]
  exact List.prefix_append needle post

/-- What `rebase` gives out is the shortest beginning that leaves a beginning of the pattern. -/
theorem rebase_shortest (needle h : List UInt8) :
    ∀ j < (rebase needle h).1.length, ¬ h.drop j <+: needle := by
  induction h with
  | nil => simp [rebase]
  | cons b h ih =>
      by_cases hp : b :: h <+: needle
      · simp [rebase, hp]
      · intro j hj
        cases j with
        | zero => exact hp
        | succ j =>
            rw [rebase, if_neg hp, List.length_cons] at hj
            exact ih j (by omega)

/-- The pattern does not stand where a held byte is given out: what is held from there on would
be a beginning of it. -/
theorem noneBefore_rebase {needle h : List UInt8} (rest : List UInt8)
    (hlt : h.length < needle.length) :
    NoneBefore needle (h ++ rest) (rebase needle h).1.length := by
  intro j hj hp
  apply rebase_shortest needle h j hj
  have hle := congrArg List.length (rebase_append needle h)
  rw [List.length_append] at hle
  have hdrop : (h ++ rest).drop j = h.drop j ++ rest := by
    rw [List.drop_append_of_le_length]
    omega
  rw [hdrop] at hp
  apply List.prefix_of_prefix_length_le (List.prefix_append _ rest) hp
  rw [List.length_drop]
  omega

/-! ## The cut of a scan -/

/-- The data that is passed on in several pieces, each with the bytes consumed at its time. -/
def emitPieces (H : Handler) (pieces : List (Nat × List UInt8)) (k : PartSink) : PartSink :=
  pieces.foldl (fun k p => emitPartData H p.1 k p.2) k

/-- How a call of `scanForNeedle` cuts the text: the pieces given out, the bytes of the chunk that
are consumed and those that are not, what is held back, and whether the pattern was found. -/
structure Scan where
  pieces : List (Nat × List UInt8)
  consumed : List UInt8
  rest : List UInt8
  hold : List UInt8
  found : Bool
  deriving DecidableEq, Repr

/-- The bytes given out. -/
def Scan.emitted (r : Scan) : List UInt8 := r.pieces.flatMap Prod.snd

/-- The result of a scan that cuts the text so, for a machine with its receiving side. -/
def Scan.result (H : Handler) (r : Scan) (s : PostStream) : PostStream × List UInt8 × Bool :=
  ({ s with
      hold := r.hold
      taken := s.taken ++ r.consumed
      sink := emitPieces H r.pieces s.sink }, r.rest, r.found)

/-- **The law of the scanner** for what was held and the chunk: nothing is lost between them, and
the pattern is found where it first stands. -/
structure ScanLaw (needle hold data : List UInt8) (r : Scan) : Prop where
  chunk : data = r.consumed ++ r.rest
  /-- The pattern is behind what was given out. -/
  found : r.found = true → hold ++ r.consumed = r.emitted ++ needle ∧ r.hold = [] ∧
    FirstAt needle (hold ++ data) r.emitted.length
  /-- The chunk is used up, and what is held may become the pattern. -/
  missing : r.found = false → hold ++ r.consumed = r.emitted ++ r.hold ∧ r.rest = [] ∧
    r.hold <+: needle ∧ r.hold.length < needle.length ∧ ¬ needle <:+: hold ++ data

/-- The chunk is used up without the pattern. -/
theorem ScanLaw.of_missing {needle hold data kept : List UInt8} {pieces : List (Nat × List UInt8)}
    (heq : hold ++ data = pieces.flatMap Prod.snd ++ kept) (hkept : kept <+: needle)
    (hlt : kept.length < needle.length) (habsent : ¬ needle <:+: hold ++ data) :
    ScanLaw needle hold data ⟨pieces, data, [], kept, false⟩ := by
  constructor
  · exact (List.append_nil data).symm
  · intro hf
    cases hf
  · intro _
    exact ⟨heq, rfl, hkept, hlt, habsent⟩

/-- A scan behind moves that have given out some pieces and consumed some bytes. -/
def Scan.after (r : Scan) (pieces : List (Nat × List UInt8)) (consumed : List UInt8) : Scan :=
  { r with pieces := pieces ++ r.pieces, consumed := consumed ++ r.consumed }

theorem Scan.emitted_after (r : Scan) (pieces : List (Nat × List UInt8))
    (consumed : List UInt8) :
    (r.after pieces consumed).emitted = pieces.flatMap Prod.snd ++ r.emitted :=
  List.flatMap_append

theorem Scan.result_after (H : Handler) (r : Scan) (pieces : List (Nat × List UInt8))
    (consumed : List UInt8) (s : PostStream) (hold : List UInt8) :
    (r.after pieces consumed).result H s =
      r.result H { s with
        hold := hold
        taken := s.taken ++ consumed
        sink := emitPieces H pieces s.sink } := by
  simp only [Scan.result, Scan.after, emitPieces, List.foldl_append, List.append_assoc]

/-- The law of what is left of a scan is the law of the scan, when the pattern stands at none of the
bytes given out so far. -/
theorem ScanLaw.after {needle hold hold1 data1 consumed : List UInt8}
    {pieces : List (Nat × List UInt8)} {r : Scan} (h : ScanLaw needle hold1 data1 r)
    (hcut : hold ++ consumed = pieces.flatMap Prod.snd ++ hold1)
    (hnone : NoneBefore needle (hold ++ (consumed ++ data1))
      (pieces.flatMap Prod.snd).length) :
    ScanLaw needle hold (consumed ++ data1) (r.after pieces consumed) := by
  have htext : hold ++ (consumed ++ data1) = pieces.flatMap Prod.snd ++ (hold1 ++ data1) := by
    rw [← List.append_assoc, hcut, List.append_assoc]
  have hcut' : hold ++ (consumed ++ r.consumed) =
      pieces.flatMap Prod.snd ++ (hold1 ++ r.consumed) := by
    rw [← List.append_assoc, hcut, List.append_assoc]
  rw [htext] at hnone
  constructor
  · show consumed ++ data1 = (consumed ++ r.consumed) ++ r.rest
    rw [h.chunk, List.append_assoc]
  · intro hf
    obtain ⟨heq, hnil, hfirst⟩ := h.found hf
    rw [Scan.emitted_after, htext]
    refine ⟨?_, hnil, ?_, ?_⟩
    · show hold ++ (consumed ++ r.consumed) = _
      rw [hcut', heq, List.append_assoc]
    · rw [List.length_append, List.drop_length_add_append]
      exact hfirst.here
    · rw [List.length_append]
      exact hnone.append hfirst.before
  · intro hf
    obtain ⟨heq, hrest, hpre, hlt, habs⟩ := h.missing hf
    rw [Scan.emitted_after, htext]
    refine ⟨?_, hrest, hpre, hlt, ?_⟩
    · show hold ++ (consumed ++ r.consumed) = _
      rw [hcut', heq, List.append_assoc]
      rfl
    · -- the text ends in what is held, and the pattern is longer
      have hall : NoneBefore needle (pieces.flatMap Prod.snd ++ (hold1 ++ data1))
          ((pieces.flatMap Prod.snd).length + (hold1 ++ data1).length) := by
        apply hnone.append
        intro j hj hp
        exact habs (hp.isInfix.trans (List.drop_suffix j _).isInfix)
      apply hall.absent
      rw [List.length_append]
      omega

/-! ## The rounds of the loop -/

/-- `fillHold` moves bytes that continue the pattern, and stops at one that does not. -/
theorem fillHold_spec {needle hold : List UInt8} (data : List UInt8) (hp : hold <+: needle) :
    ∃ pushed rest, fillHold needle hold data = (hold ++ pushed, rest) ∧ data = pushed ++ rest ∧
      hold ++ pushed <+: needle ∧
      ∀ c t, rest = c :: t → needle[(hold ++ pushed).length]? ≠ some c := by
  induction data generalizing hold with
  | nil => exact ⟨[], [], by rw [fillHold, List.append_nil], rfl, by simpa using hp, by simp⟩
  | cons c data ih =>
      by_cases hc : needle[hold.length]? = some c
      · obtain ⟨pushed, rest, hfill, hdata, hpre, hstop⟩ := ih (ListLemmas.prefix_snoc hp hc)
        rw [List.append_assoc] at hfill hpre hstop
        refine ⟨c :: pushed, rest, ?_, by rw [hdata, List.cons_append], hpre, hstop⟩
        rw [fillHold, if_pos hc]
        exact hfill
      · refine ⟨[], c :: data, by rw [fillHold, if_neg hc, List.append_nil], rfl,
          by simpa using hp, ?_⟩
        intro d t hd
        rw [← (List.cons_eq_cons.mp hd).1, List.append_nil]
        exact hc

/-- A run on a chunk cuts the text by the law, whoever receives the data. -/
def ScansBy (needle : List UInt8) (s : PostStream) (data : List UInt8)
    (run : Handler → PostStream → PostStream × List UInt8 × Bool) : Prop :=
  ∃ r : Scan, ScanLaw needle s.hold data r ∧
    ∀ H sink, run H { s with sink := sink } = r.result H { s with sink := sink }

/-- The second half of a round of `scanForNeedle`, behind the fast path. -/
def scanRound (H : Handler) (needle : List UInt8) (n : Nat) (s : PostStream)
    (data : List UInt8) : PostStream × List UInt8 × Bool :=
  let (hold, rest) := fillHold needle s.hold data
  let s := { s.take (data.take (data.length - rest.length)) with hold := hold }
  if hold.length = needle.length then ({ s with hold := [] }, rest, true)
  else if rest = [] then (s, [], false)
  else scanForNeedle H needle true n (scanMismatch H needle true s) rest

theorem scanForNeedle_round (H : Handler) (needle : List UInt8) (n : Nat) (s : PostStream)
    (c : UInt8) (data : List UInt8) : scanForNeedle H needle true (n + 1) s (c :: data) =
      if (scanSkip H needle true s (c :: data)).2 = [] then
        ((scanSkip H needle true s (c :: data)).1, [], false)
      else scanRound H needle n (scanSkip H needle true s (c :: data)).1
        (scanSkip H needle true s (c :: data)).2 := rfl

/-- A byte does not continue what is held: the shortest beginning of it that leaves a beginning of
the pattern is given out, byte by byte, and the next round sees the byte again. -/
theorem scanMismatch_law {needle : List UInt8} {n : Nat} {s : PostStream}
    {pushed held t : List UInt8} {c : UInt8}
    (ih : ∀ (s : PostStream) (data : List UInt8), s.hold <+: needle →
      s.hold.length < needle.length → 2 * data.length + s.hold.length + 1 ≤ n →
      ScansBy needle s data fun H s => scanForNeedle H needle true n s data)
    (hheld : s.hold ++ pushed = held) (hne : held ≠ []) (hshort : held.length < needle.length)
    (hc : needle[held.length]? ≠ some c) (hn : 2 * (c :: t).length + held.length ≤ n) :
    ScansBy needle s (pushed ++ c :: t) fun H s =>
      scanForNeedle H needle true n
        (scanMismatch H needle true { s.take pushed with hold := held }) (c :: t) := by
  obtain ⟨b, h, hbh⟩ := List.exists_cons_of_ne_nil hne
  set gone := b :: (rebase needle h).1 with hgone
  have hcut : held = gone ++ (rebase needle h).2 := by
    rw [hbh, hgone, List.cons_append, rebase_append]
  -- at least one byte is given out, which pays for the round that sees `c` again
  have hkept : (rebase needle h).2.length < held.length := by
    rw [hcut, hgone, List.length_append, List.length_cons]
    omega
  set s1 : PostStream :=
    { s with hold := (rebase needle h).2, taken := s.taken ++ pushed } with hs1
  have hprefix : s1.hold <+: needle := rebase_prefix needle h
  have hproper : s1.hold.length < needle.length := Nat.lt_trans hkept hshort
  have hfuel : 2 * (c :: t).length + s1.hold.length + 1 ≤ n := by
    show 2 * (c :: t).length + (rebase needle h).2.length + 1 ≤ n
    omega
  obtain ⟨r, hlaw, hrun⟩ := ih s1 (c :: t) hprefix hproper hfuel
  set pieces := gone.map fun x => ((s.taken ++ pushed).length, [x]) with hpieces
  have hbytes : pieces.flatMap Prod.snd = gone := by
    rw [hpieces, List.flatMap_map]
    exact List.flatMap_singleton' gone
  refine ⟨r.after pieces pushed, hlaw.after ?_ ?_, ?_⟩
  · rw [hbytes, hheld]
    exact hcut
  · -- the first held byte is no start of the pattern, and those behind it are not either
    rw [hbytes, ← List.append_assoc, hheld, hbh, hgone, List.length_cons, List.cons_append]
    apply NoneBefore.cons
    · rw [← List.cons_append, ← hbh]
      exact not_prefix_of_mismatch hshort hc
    · apply noneBefore_rebase
      rw [hbh, List.length_cons] at hshort
      omega
  · intro H sink
    have hsink : emitPieces H pieces sink =
        gone.foldl (fun k x => emitPartData H (s.taken ++ pushed).length k [x]) sink := by
      rw [emitPieces, hpieces, List.foldl_map]
    rw [Scan.result_after H r pieces pushed _ (rebase needle h).2]
    dsimp only
    rw [scanMismatch_data H needle _ b h hbh, hsink]
    exact hrun H _

/-- A round moves the bytes that continue the pattern, and then the pattern is complete, the chunk
is used up, or a byte does not continue it. -/
theorem scanRound_law {needle : List UInt8} {n : Nat} {s : PostStream} {data : List UInt8}
    (ih : ∀ (s : PostStream) (data : List UInt8), s.hold <+: needle →
      s.hold.length < needle.length → 2 * data.length + s.hold.length + 1 ≤ n →
      ScansBy needle s data fun H s => scanForNeedle H needle true n s data)
    (hp : s.hold <+: needle)
    (hstart : s.hold = [] → ∀ d t, data = d :: t → needle.head? = some d)
    (hn : 2 * data.length + s.hold.length ≤ n) :
    ScansBy needle s data fun H s => scanRound H needle n s data := by
  obtain ⟨pushed, rest, hfill, rfl, hpre, hstop⟩ := fillHold_spec data hp
  have htake : (pushed ++ rest).take ((pushed ++ rest).length - rest.length) = pushed := by
    simp
  have hle := hpre.length_le
  by_cases hfull : (s.hold ++ pushed).length = needle.length
  · -- the pattern is complete
    have heq : s.hold ++ pushed = needle := hpre.eq_of_length hfull
    refine ⟨⟨[], pushed, rest, [], true⟩, ⟨rfl, fun _ => ⟨heq, rfl, ?_, ?_⟩, ?_⟩, ?_⟩
    · rw [← List.append_assoc, heq]
      exact List.prefix_append needle rest
    · exact noneBefore_zero needle _
    · intro hf
      cases hf
    · intro H sink
      simp only [scanRound, hfill, htake, if_pos hfull]
      rfl
  · have hshort : (s.hold ++ pushed).length < needle.length := by omega
    cases rest with
    | nil =>
        refine ⟨⟨[], pushed, [], s.hold ++ pushed, false⟩, ?_, ?_⟩
        · rw [List.append_nil]
          apply ScanLaw.of_missing
          · rfl
          · exact hpre
          · exact hshort
          · exact (noneBefore_zero needle (s.hold ++ pushed)).absent (by omega)
        · intro H sink
          simp only [scanRound, hfill, htake, if_neg hfull, if_true]
          rfl
    | cons c t =>
        have hc := hstop c t rfl
        -- without anything held, the first byte would have continued the pattern
        have hhold : s.hold ++ pushed ≠ [] := by
          intro hnil
          obtain ⟨h1, rfl⟩ := List.append_eq_nil_iff.mp hnil
          apply hc
          rw [hnil, List.length_nil, ← List.head?_eq_getElem?]
          exact hstart h1 c t rfl
        have hfuel : 2 * (c :: t).length + (s.hold ++ pushed).length ≤ n := by
          rw [List.length_append] at hn ⊢
          omega
        obtain ⟨r, hlaw, hrun⟩ := scanMismatch_law ih rfl hhold hshort hc hfuel
        refine ⟨r, hlaw, fun H sink => ?_⟩
        simp only [scanRound, hfill, htake, if_neg hfull, reduceCtorEq, if_false]
        exact hrun H sink

/-- The fast path gives out what the pattern cannot start with, and the round goes on behind it. -/
theorem scanSkip_law {needle : List UInt8} {n : Nat} {s : PostStream} {c : UInt8}
    {data : List UInt8} (hne : needle ≠ []) (hh : s.hold = [])
    (hround : ∀ (s : PostStream) (data : List UInt8), s.hold = [] →
      (∀ d t, data = d :: t → needle.head? = some d) → 2 * data.length ≤ n →
      ScansBy needle s data fun H s => scanRound H needle n s data)
    (hn : 2 * (c :: data).length ≤ n) :
    ScansBy needle s (c :: data) fun H s => scanForNeedle H needle true (n + 1) s (c :: data) := by
  set run := (c :: data).takeWhile (fun c => needle.head? ≠ some c) with hrun
  set rest := (c :: data).dropWhile (fun c => needle.head? ≠ some c) with hrest
  have hsplit : c :: data = run ++ rest := List.takeWhile_append_dropWhile.symm
  have hmem : ∀ c ∈ run, needle.head? ≠ some c := by
    intro c hc
    simpa using List.mem_takeWhile_imp hc
  have hhead : ∀ d t, rest = d :: t → needle.head? = some d := by
    intro d t hd
    have := List.head?_dropWhile_not (fun c => decide (needle.head? ≠ some c)) (c :: data)
    rw [← hrest, hd] at this
    simpa using this
  have hskip : ∀ (H : Handler) (sink : PartSink),
      scanSkip H needle true { s with sink := sink } (c :: data) =
        ({ s with
            hold := []
            taken := s.taken ++ run
            sink := emitPieces H [(s.taken.length, run)] sink }, rest) := by
    intro H sink
    rw [scanSkip, if_pos hh]
    show _ = (({ s with hold := [], taken := _, sink := _ } : PostStream), rest)
    rw [← hh]
    rfl
  have hlen := congrArg List.length hsplit
  rw [List.length_append] at hlen
  set s1 : PostStream := { s with hold := [], taken := s.taken ++ run } with hs1
  have hbytes : [(s.taken.length, run)].flatMap Prod.snd = run := by simp
  have hnone := noneBefore_run rest hne hmem
  by_cases hnil : rest = []
  · -- no byte of the chunk starts the pattern
    have hall : c :: data = run := by
      rw [hsplit, hnil, List.append_nil]
    have hpos := List.length_pos_of_ne_nil hne
    refine ⟨⟨[(s.taken.length, run)], run, [], [], false⟩, ?_, ?_⟩
    · rw [hall]
      apply ScanLaw.of_missing
      · rw [hh, List.append_nil]
        exact hbytes.symm
      · exact List.nil_prefix
      · exact hpos
      · rw [hnil, List.append_nil] at hnone
        rw [hh, List.nil_append]
        exact hnone.absent (by omega)
    · intro H sink
      calc scanForNeedle H needle true (n + 1) { s with sink := sink } (c :: data)
          = _ := scanForNeedle_round H needle n _ c data
        _ = (_, [], false) := by rw [hskip H sink, if_pos hnil]
  · obtain ⟨r, hlaw, hres⟩ := hround s1 rest rfl hhead (by omega)
    refine ⟨r.after [(s.taken.length, run)] run, ?_, ?_⟩
    · rw [hsplit]
      apply hlaw.after
      · rw [hbytes, hh, List.append_nil]
        rfl
      · rw [hbytes, hh]
        exact hnone
    · intro H sink
      calc scanForNeedle H needle true (n + 1) { s with sink := sink } (c :: data)
          = _ := scanForNeedle_round H needle n _ c data
        _ = scanRound H needle n _ rest := by rw [hskip H sink, if_neg hnil]
        _ = r.result H _ := hres H _
        _ = _ := (Scan.result_after H r _ run { s with sink := sink } []).symm

/-- The scanner keeps its law, given enough rounds. -/
theorem scanForNeedle_scansBy {needle : List UInt8} (hne : needle ≠ []) (n : Nat) :
    ∀ (s : PostStream) (data : List UInt8), s.hold <+: needle →
      s.hold.length < needle.length → 2 * data.length + s.hold.length + 1 ≤ n →
      ScansBy needle s data fun H s => scanForNeedle H needle true n s data := by
  induction n with
  | zero =>
      intro s data _ _ hn
      omega
  | succ n ih =>
      intro s data hp hlt hn
      cases data with
      | nil =>
          refine ⟨⟨[], [], [], s.hold, false⟩, ?_, fun H sink => ?_⟩
          · apply ScanLaw.of_missing
            · exact List.append_nil s.hold
            · exact hp
            · exact hlt
            · exact (noneBefore_zero needle _).absent (by simpa using hlt)
          · show (({ s with sink := sink } : PostStream), ([] : List UInt8), false) = _
            rw [Scan.result, List.append_nil]
            rfl
      | cons c data =>
          by_cases hh : s.hold = []
          · apply scanSkip_law hne hh
            · intro s data hh hstart hn
              apply scanRound_law ih (hh ▸ List.nil_prefix) (fun _ => hstart)
              rw [hh, List.length_nil]
              omega
            · omega
          · have hround : ScansBy needle s (c :: data) fun H s =>
                scanRound H needle n s (c :: data) :=
              scanRound_law ih hp (fun hnil => absurd hnil hh) (by omega)
            obtain ⟨r, hlaw, hres⟩ := hround
            refine ⟨r, hlaw, fun H sink => ?_⟩
            have hskip : scanSkip H needle true { s with sink := sink } (c :: data) =
                ({ s with sink := sink }, c :: data) := if_neg hh
            calc scanForNeedle H needle true (n + 1) { s with sink := sink } (c :: data)
                = _ := scanForNeedle_round H needle n _ c data
              _ = scanRound H needle n _ (c :: data) := by
                rw [hskip, if_neg (List.cons_ne_nil c data)]
              _ = r.result H _ := hres H sink

/-- **What the scanner does to a chunk.** With a proper beginning of the pattern held back, a call
of `scanForNeedle` that passes data on cuts the text by the law, and changes nothing else;
`rebaseHold` gives out the shortest beginning of what is held that leaves a beginning of the
pattern. -/
theorem scanForNeedle_law (needle : List UInt8) (hne : needle ≠ []) :
    (∀ (s : PostStream) (data : List UInt8), s.hold <+: needle → s.hold ≠ needle →
      ∃ r : Scan, ScanLaw needle s.hold data r ∧ ∀ H sink,
        scanForNeedle H needle true (scanRounds s data) { s with sink := sink } data =
          r.result H { s with sink := sink }) ∧
    ∀ s : PostStream, ∃ gone kept : List UInt8, s.hold = gone ++ kept ∧ kept <+: needle ∧
      (∀ j < gone.length, ¬ s.hold.drop j <+: needle) ∧ ∀ H sink,
        rebaseHold H needle s.hold.length { s with sink := sink } =
          { s with
            hold := kept
            sink := emitPieces H (gone.map fun b => (s.taken.length, [b])) sink } := by
  constructor
  · intro s data hp hproper
    apply scanForNeedle_scansBy hne
    · exact hp
    · have := hp.length_le
      have : s.hold.length ≠ needle.length := fun h => hproper (hp.eq_of_length h)
      omega
    · exact Nat.le_refl _
  · intro s
    refine ⟨(rebase needle s.hold).1, (rebase needle s.hold).2, (rebase_append _ _).symm,
      rebase_prefix _ _, rebase_shortest _ _, fun H sink => ?_⟩
    have h := rebaseHold_eq H needle s.hold.length { s with sink := sink } (Nat.le_refl _)
    rw [emitPieces, List.foldl_map]
    exact h

/-- The CR of a boundary lies in one chunk and the rest of it in the next. -/
theorem scanForNeedle_law_cr :
    ∃ r : Scan, ScanLaw (crlf ++ ascii "--b") [13] ([10] ++ ascii "--b--") r ∧ ∀ H sink,
      scanForNeedle H (crlf ++ ascii "--b") true 16
          { startPostStream {} (ascii "--b") false with hold := [13], sink := sink }
          ([10] ++ ascii "--b--") =
        r.result H { startPostStream {} (ascii "--b") false with hold := [13], sink := sink } :=
  (scanForNeedle_law (crlf ++ ascii "--b") (by decide)).1
    { startPostStream {} (ascii "--b") false with hold := [13] } ([10] ++ ascii "--b--")
    (by decide) (by decide)

end CWebUI.Post
