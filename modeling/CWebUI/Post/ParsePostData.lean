import CWebUI.Post.RoundTrip
import CWebUI.Post.Uploads

set_option autoImplicit false

/-! # Uploads from a buffered body

Without a registered handler the whole body is received into a buffer, and `parsePostData`
(`server.c`) looks for the parts in it, with `getFormDataFilename` (`header_parser.c`) for the
names. It goes over the buffer with offsets, from boundary to boundary.

A position in the buffer is the text from there on. Behind the body the buffer has a NUL byte,
which ends every comparison.
-/

namespace CWebUI.Post

open ByteString CWebUI.Http ListLemmas

/-! ## The functions -/

/-- `0 == strncmp(a, b, n)`; behind its end a text has a NUL byte. -/
def strncmpEq : Nat → List UInt8 → List UInt8 → Bool
  | 0, _, _ => true
  | n + 1, a, b =>
      if a.headD 0 ≠ b.headD 0 then false
      else if a.headD 0 = 0 then true
      else strncmpEq n a.tail b.tail

/-- `getFormDataFilename`: what stands between the byte behind `filename=` and the last byte of the
disposition. -/
def getFormDataFilename (contentDisposition : Option (List UInt8)) : Option (List UInt8) :=
  let text := cString (contentDisposition.getD [])
  let tmp := stringfind text fileNameKey
  if tmp = 0 then none
  else
    let tmp := tmp + 2
    let len := if text.length < tmp + 1 then 0 else text.length - tmp - 1
    some ((text.drop tmp).take len)

/-- What ends the inner loop of `parsePostData`. -/
inductive PartEnd where
  /-- A boundary at this offset. -/
  | boundary (offset3 : Nat)
  | finish
  | none
  deriving DecidableEq, Repr

/-- The inner loop of `parsePostData`, at the offset `offset3` with this text. The second test never
succeeds where the first one fails. -/
def partEndLoop (boundLen : Nat) (boundEnd : List UInt8) : Nat → List UInt8 → PartEnd
  | _, [] => .none
  | offset3, c :: text =>
      if strncmpEq boundLen (c :: text) boundEnd then .boundary offset3
      else if strncmpEq (boundLen + 2) (c :: text) boundEnd then .finish
      else partEndLoop boundLen boundEnd (offset3 + 1) text

/-- The entry of a part: its data without the CRLF before the boundary, and its name. -/
def partEntry (header : HttpRequestHeader) (dataStart : List UInt8) (partLen : Nat) :
    List UploadFileInfo :=
  if partLen < 2 then []
  else
    [{ data := some (dataStart.take (partLen - 2))
       name := (getFormDataFilename header.contentDisposition).getD []
       length := partLen - 2 }]

/-- The loop of `parsePostData`, at this text. The record of the part headers is used for all
parts. -/
def parsePostLoop (boundLen : Nat) (boundEnd : List UInt8) :
    Nat → List UInt8 → HttpRequestHeader → List UploadFileInfo
  | 0, _, _ => []
  | _ + 1, [], _ => []
  | n + 1, c :: text, header =>
      if strncmpEq (boundLen + 2) (c :: text) boundEnd then []
      else if strncmpEq boundLen (c :: text) boundEnd then
        let pos := (c :: text).drop boundLen
        let (header, offset2) := analyseFormDataLine pos header
        match partEndLoop boundLen boundEnd offset2 (pos.drop offset2) with
        | .boundary offset3 =>
            partEntry header (pos.drop offset2) (offset3 - offset2) ++
              parsePostLoop boundLen boundEnd n (pos.drop offset3) header
        | .finish => []
        | .none => parsePostLoop boundLen boundEnd n text header
      else parsePostLoop boundLen boundEnd n text header

/-- `parsePostData` for a buffered body: what is appended to the uploads of the request. The
boundary is stored with its leading dashes. Every round of the loop moves forward. -/
def parsePostData (boundary body : List UInt8) : List UploadFileInfo :=
  parsePostLoop boundary.length (boundary ++ ascii "--") body.length body
    { webserverMallocHttpRequestHeader with method := .post }

/-! ## Comparing -/

/-- With a text without NUL a comparison is a test for a prefix. -/
theorem strncmpEq_iff {n : Nat} {b : List UInt8} (hb : 0 ∉ b) (hn : n ≤ b.length)
    (a : List UInt8) : strncmpEq n a b = true ↔ b.take n <+: a := by
  induction n generalizing a b with
  | zero => simp [strncmpEq]
  | succ n ih =>
      obtain ⟨x, b, rfl⟩ : ∃ x y, b = x :: y := by
        apply List.exists_cons_of_ne_nil
        rintro rfl
        simp at hn
      have hx : x ≠ 0 := fun h => hb (by simp [h])
      have hb' : 0 ∉ b := fun h => hb (List.mem_cons_of_mem _ h)
      have hn' : n ≤ b.length := by
        rw [List.length_cons] at hn
        omega
      cases a with
      | nil => simp [strncmpEq, Ne.symm hx]
      | cons y a =>
          rw [strncmpEq, List.take_succ_cons, List.cons_prefix_cons, ← ih hb' hn' a]
          by_cases hxy : y = x
          · simp [hxy, hx]
          · simp [hxy, Ne.symm hxy]

/-- A pattern without the byte that ends the text lies in the text. -/
theorem prefix_of_not_mem {α : Type} {pattern text rest : List α} {c : α} (hc : c ∉ pattern)
    (h : pattern <+: text ++ c :: rest) : pattern <+: text := by
  rcases Nat.lt_or_ge text.length pattern.length with hlt | hge
  · exfalso
    obtain ⟨t, ht⟩ := h
    have hget : (pattern ++ t)[text.length]? = some c := by
      rw [ht]
      simp
    rw [List.getElem?_append_left hlt] at hget
    exact hc (List.mem_of_getElem? hget)
  · exact List.prefix_of_prefix_length_le h (List.prefix_append _ _) hge

/-! ## One part -/

/-- A round of the loop at a boundary. -/
theorem parsePostLoop_found {boundary : List UInt8} (n : Nat) {text : List UInt8} (htext : text ≠ [])
    {header : HttpRequestHeader}
    (hopen : ¬ strncmpEq (boundary.length + 2) text (boundary ++ ascii "--") = true)
    (hfound : strncmpEq boundary.length text (boundary ++ ascii "--") = true) {offset3 : Nat}
    (hend : partEndLoop boundary.length (boundary ++ ascii "--")
      (analyseFormDataLine (text.drop boundary.length) header).2
      ((text.drop boundary.length).drop
        (analyseFormDataLine (text.drop boundary.length) header).2) = .boundary offset3) :
    parsePostLoop boundary.length (boundary ++ ascii "--") (n + 1) text header =
      partEntry (analyseFormDataLine (text.drop boundary.length) header).1
        ((text.drop boundary.length).drop
          (analyseFormDataLine (text.drop boundary.length) header).2)
        (offset3 - (analyseFormDataLine (text.drop boundary.length) header).2) ++
      parsePostLoop boundary.length (boundary ++ ascii "--") n
        ((text.drop boundary.length).drop offset3)
        (analyseFormDataLine (text.drop boundary.length) header).1 := by
  obtain ⟨c, text, rfl⟩ := List.exists_cons_of_ne_nil htext
  rw [parsePostLoop, if_neg hopen, if_pos hfound]
  dsimp only
  rw [hend]

section

variable {boundary : List UInt8} (hcr : cr ∉ boundary) (hnul : 0 ∉ boundary)
  (hhead : boundary.head? = some 45)

include hnul

theorem boundEnd_noNul : 0 ∉ boundary ++ ascii "--" := by
  intro h
  rcases List.mem_append.mp h with h | h
  · exact hnul h
  · revert h
    decide

theorem strncmp_boundary (text : List UInt8) :
    strncmpEq boundary.length text (boundary ++ ascii "--") = true ↔ boundary <+: text := by
  rw [strncmpEq_iff (boundEnd_noNul hnul) (by simp), List.take_left]

theorem strncmp_boundEnd (text : List UInt8) :
    strncmpEq (boundary.length + 2) text (boundary ++ ascii "--") = true ↔
      boundary ++ ascii "--" <+: text := by
  have hlen : (boundary ++ ascii "--").length = boundary.length + 2 := by
    rw [List.length_append]
    rfl
  rw [strncmpEq_iff (boundEnd_noNul hnul) (by omega), ← hlen, List.take_length]

include hcr hhead

/-- **The end of a payload** that does not contain the boundary is found. -/
theorem partEndLoop_payload (payload rest : List UInt8) (hno : ¬ boundary <:+: payload)
    (offset : Nat) :
    partEndLoop boundary.length (boundary ++ ascii "--") offset
      (payload ++ (crlf ++ (boundary ++ rest))) = .boundary (offset + payload.length + 2) := by
  -- where the boundary does not stand the loop goes on
  have hskip : ∀ (offset : Nat) (c : UInt8) (text : List UInt8), ¬ boundary <+: c :: text →
      partEndLoop boundary.length (boundary ++ ascii "--") offset (c :: text) =
        partEndLoop boundary.length (boundary ++ ascii "--") (offset + 1) text := by
    intro offset c text hnot
    have h1 : ¬ strncmpEq boundary.length (c :: text) (boundary ++ ascii "--") = true := by
      rw [strncmp_boundary hnul]
      exact hnot
    have h2 : ¬ strncmpEq (boundary.length + 2) (c :: text) (boundary ++ ascii "--") = true := by
      rw [strncmp_boundEnd hnul]
      intro h
      exact hnot ((List.prefix_append _ _).trans h)
    rw [partEndLoop, if_neg h1, if_neg h2]
  have hstart : ∀ (c : UInt8) (text : List UInt8), c ≠ 45 → ¬ boundary <+: c :: text := by
    intro c text hc h
    obtain ⟨tail, rfl⟩ := List.head?_eq_some_iff.mp hhead
    exact hc (List.cons_prefix_cons.mp h).1.symm
  induction payload generalizing offset with
  | nil =>
      show partEndLoop _ _ offset (cr :: lf :: (boundary ++ rest)) = _
      rw [hskip _ _ _ (hstart cr _ (by decide)), hskip _ _ _ (hstart lf _ (by decide))]
      obtain ⟨tail, rfl⟩ := List.head?_eq_some_iff.mp hhead
      have hfound : strncmpEq (45 :: tail).length (45 :: (tail ++ rest))
          (45 :: tail ++ ascii "--") = true := by
        rw [strncmp_boundary hnul]
        exact List.prefix_append (45 :: tail) rest
      show partEndLoop _ _ (offset + 1 + 1) (45 :: (tail ++ rest)) = _
      rw [partEndLoop, if_pos hfound]
      rfl
  | cons c payload ih =>
      have hnot : ¬ boundary <+: c :: (payload ++ (crlf ++ (boundary ++ rest))) := by
        intro h
        have hin : boundary <+: c :: payload :=
          @prefix_of_not_mem _ boundary (c :: payload) (lf :: (boundary ++ rest)) cr hcr h
        exact hno hin.isInfix
      have hno' : ¬ boundary <:+: payload := fun h => hno (List.infix_cons h)
      rw [List.cons_append, hskip _ _ _ hnot, ih hno' (offset + 1), List.length_cons]
      congr 1
      omega

/-- **One part**, from its boundary to the next. -/
theorem parsePostLoop_part (n : Nat) {p : FileUpload} (hp : p.header.Readable)
    (hno : ¬ boundary <:+: p.payload) (rest : List UInt8) (header : HttpRequestHeader) :
    ∃ header', parsePostLoop boundary.length (boundary ++ ascii "--") (n + 1)
      (boundary ++ (p.encode boundary ++ rest)) header =
      { data := some p.payload
        name := (getFormDataFilename (some p.header.disposition)).getD []
        length := p.payload.length } ::
        parsePostLoop boundary.length (boundary ++ ascii "--") n (boundary ++ rest) header' := by
  obtain ⟨ct, hread⟩ := analyseFormDataLine_readable p.header hp
    (p.payload ++ (crlf ++ (boundary ++ rest))) header
  refine ⟨{ header with contentDisposition := some p.header.disposition, contentType := ct }, ?_⟩
  have hencode : p.encode boundary ++ rest =
      headerText p.header.lines ++ (p.payload ++ (crlf ++ (boundary ++ rest))) := by
    simp [FileUpload.encode]
  have hend := partEndLoop_payload hcr hnul hhead p.payload rest hno (headerText p.header.lines).length
  -- behind the boundary stands a CR, so it is not the closing one
  have hopen : ¬ strncmpEq (boundary.length + 2) (boundary ++ (p.encode boundary ++ rest))
      (boundary ++ ascii "--") = true := by
    rw [strncmp_boundEnd hnul, List.prefix_append_right_inj, hencode]
    obtain ⟨more, hmore⟩ := lines_start p.header.lines crlf
    rw [show headerText p.header.lines = crlf ++ more from hmore]
    intro h
    exact absurd (List.cons_prefix_cons.mp h).1 (by decide)
  have hfound : strncmpEq boundary.length (boundary ++ (p.encode boundary ++ rest))
      (boundary ++ ascii "--") = true := by
    rw [strncmp_boundary hnul]
    exact List.prefix_append _ _
  have hpos : (boundary ++ (p.encode boundary ++ rest)).drop boundary.length =
      headerText p.header.lines ++ (p.payload ++ (crlf ++ (boundary ++ rest))) := by
    rw [List.drop_left, hencode]
  have hne : boundary ++ (p.encode boundary ++ rest) ≠ [] := by
    intro h
    rw [(List.append_eq_nil_iff.mp h).1] at hhead
    cases hhead
  have hround := @parsePostLoop_found boundary n _ hne header hopen hfound
    ((headerText p.header.lines).length + p.payload.length + 2)
    (by rw [hpos, hread]; dsimp only; rw [List.drop_left]; exact hend)
  rw [hpos, hread] at hround
  rw [hround]
  dsimp only
  rw [List.drop_left]
  have hlen : (headerText p.header.lines).length + p.payload.length + 2 -
      (headerText p.header.lines).length = p.payload.length + 2 := by omega
  have hrest : (headerText p.header.lines ++ (p.payload ++ (crlf ++ (boundary ++ rest)))).drop
      ((headerText p.header.lines).length + p.payload.length + 2) = boundary ++ rest := by
    rw [show headerText p.header.lines ++ (p.payload ++ (crlf ++ (boundary ++ rest))) =
      (headerText p.header.lines ++ p.payload ++ crlf) ++ (boundary ++ rest) by simp]
    apply List.drop_left'
    simp [crlf]
    omega
  rw [hlen, hrest, partEntry, if_neg (by omega), Nat.add_sub_cancel, List.take_left]
  rfl

/-- The parts of a body, up to the closing boundary. -/
theorem parsePostLoop_parts (epilogue : List UInt8) (parts : List FileUpload)
    (hp : ∀ p ∈ parts, p.header.Readable) (hno : ∀ p ∈ parts, ¬ boundary <:+: p.payload) {n : Nat}
    (hn : parts.length < n) (header : HttpRequestHeader) :
    parsePostLoop boundary.length (boundary ++ ascii "--") n
      (boundary ++ ((parts.map (FileUpload.encode boundary)).flatten ++ 45 :: 45 :: epilogue))
      header =
      parts.map fun p =>
        { data := some p.payload
          name := (getFormDataFilename (some p.header.disposition)).getD []
          length := p.payload.length } := by
  induction parts generalizing n header with
  | nil =>
      obtain ⟨n, rfl⟩ : ∃ k, n = k + 1 := ⟨n - 1, by omega⟩
      have hclosing : strncmpEq (boundary.length + 2) (boundary ++ 45 :: 45 :: epilogue)
          (boundary ++ ascii "--") = true := by
        rw [strncmp_boundEnd hnul, List.prefix_append_right_inj]
        exact ⟨epilogue, rfl⟩
      have hne : boundary ++ 45 :: 45 :: epilogue ≠ [] := by simp
      show parsePostLoop _ _ (n + 1) (boundary ++ 45 :: 45 :: epilogue) header = []
      obtain ⟨c, text, htext⟩ := List.exists_cons_of_ne_nil hne
      rw [htext] at hclosing ⊢
      rw [parsePostLoop, if_pos hclosing]
  | cons p parts ih =>
      rw [List.length_cons] at hn
      obtain ⟨n, rfl⟩ : ∃ k, n = k + 1 := ⟨n - 1, by omega⟩
      obtain ⟨header', hpart⟩ := parsePostLoop_part hcr hnul hhead n (hp p List.mem_cons_self)
        (hno p List.mem_cons_self)
        ((parts.map (FileUpload.encode boundary)).flatten ++ 45 :: 45 :: epilogue) header
      rw [List.map_cons, List.flatten_cons, List.append_assoc, hpart,
        ih (fun q hq => hp q (List.mem_cons_of_mem _ hq))
          (fun q hq => hno q (List.mem_cons_of_mem _ hq)) (by omega) header']
      rfl

/-- **What is read from a buffered body.** -/
theorem parsePostData_encodeBody (epilogue : List UInt8) (parts : List FileUpload)
    (hp : ∀ p ∈ parts, p.header.Readable) (hno : ∀ p ∈ parts, ¬ boundary <:+: p.payload) :
    parsePostData boundary (encodeBody boundary [] epilogue parts) =
      parts.map fun p =>
        { data := some p.payload
          name := (getFormDataFilename (some p.header.disposition)).getD []
          length := p.payload.length } := by
  have hlength : parts.length ≤ (parts.map (FileUpload.encode boundary)).flatten.length := by
    clear hp hno
    induction parts with
    | nil => exact Nat.le_refl _
    | cons p parts ih =>
        have hpos : 0 < (p.encode boundary).length := by
          simp only [FileUpload.encode, headerText, crlf, List.length_append, List.length_cons]
          omega
        rw [List.length_cons, List.map_cons, List.flatten_cons, List.length_append]
        omega
  unfold parsePostData
  have hfuel : parts.length < (encodeBody boundary [] epilogue parts).length := by
    rw [encodeBody, List.nil_append, List.length_append, List.length_append, List.length_cons,
      List.length_cons]
    omega
  exact parsePostLoop_parts hcr hnul hhead epilogue parts hp hno hfuel _

end

/-! ## The file name -/

/-- A byte that is not in the pattern starts the search anew. -/
theorem findLoop_reset {pattern pat : List UInt8} (hpat : pat ≠ []) (hsub : pat <:+ pattern)
    {c : UInt8} (hc : c ∉ pattern) (i : Nat) (text : List UInt8) :
    findLoop (· == ·) pattern i pat (c :: text) =
      findLoop (· == ·) pattern (i + 1) pattern text := by
  obtain ⟨x, pat, rfl⟩ := List.exists_cons_of_ne_nil hpat
  have hx : (c == x) = false := by
    apply beq_false_of_ne
    rintro rfl
    exact hc (hsub.mem List.mem_cons_self)
  rw [findLoop, hx]
  rfl

/-- A text without the last byte of the pattern holds no match. -/
theorem findLoop_pass {pattern pat : List UInt8} (hpattern : pattern ≠ []) {z : UInt8}
    (hlast : pattern.getLast? = some z) (hpat : pat ≠ []) (hsub : pat <:+ pattern)
    (x : List UInt8) (hx : z ∉ x) (i : Nat) (text : List UInt8) :
    ∃ pat', pat' ≠ [] ∧ pat' <:+ pattern ∧
      findLoop (· == ·) pattern i pat (x ++ text) =
        findLoop (· == ·) pattern (i + x.length) pat' text := by
  induction x generalizing pat i with
  | nil => exact ⟨pat, hpat, hsub, rfl⟩
  | cons c x ih =>
      have hx' : z ∉ x := fun h => hx (List.mem_cons_of_mem _ h)
      have hlength : i + (c :: x).length = i + 1 + x.length := by
        rw [List.length_cons]
        omega
      obtain ⟨y, pat, rfl⟩ := List.exists_cons_of_ne_nil hpat
      rw [List.cons_append, findLoop, hlength]
      by_cases hcy : (c == y) = true
      · -- the byte is not the last one of the pattern
        have hne : pat ≠ [] := by
          rintro rfl
          obtain ⟨front, hfront⟩ := hsub
          rw [← hfront, List.getLast?_append, List.getLast?_singleton] at hlast
          have hyz : y = z := by simpa using hlast
          exact hx (by rw [← hyz, ← beq_iff_eq.mp hcy]; exact List.mem_cons_self)
        rw [if_pos hcy, if_neg hne]
        exact ih hne ((List.suffix_cons y pat).trans hsub) hx' (i + 1)
      · rw [if_neg hcy]
        exact ih hpattern List.suffix_rfl hx' (i + 1)

/-- `form-data; name="`. -/
def formDataFront : List UInt8 := ascii "form-data; name=\""

/-- The name of the field does not hide the key. -/
theorem stringfind_fileName (name rest : List UInt8) (hname : 61 ∉ name)
    (hnul : 0 ∉ formDataFront ++ (name ++ (ascii "\"; " ++ (fileNameKey ++ rest)))) :
    stringfind (formDataFront ++ (name ++ (ascii "\"; " ++ (fileNameKey ++ rest)))) fileNameKey =
      (formDataFront ++ (name ++ ascii "\"; ")).length + 8 := by
  have hfront : ∀ text, findLoop (· == ·) fileNameKey 0 fileNameKey (formDataFront ++ text) =
      findLoop (· == ·) fileNameKey 17 fileNameKey text := by
    intro text
    rfl
  have hkey : ∀ i, findLoop (· == ·) fileNameKey i fileNameKey (fileNameKey ++ rest) =
      some (i + 8) := by
    intro i
    rfl
  obtain ⟨pat, hpat, hsub, hpass⟩ := @findLoop_pass fileNameKey fileNameKey (by decide) 61
    (by decide) (by decide) List.suffix_rfl name hname 17 (ascii "\"; " ++ (fileNameKey ++ rest))
  -- the quote behind the name ends whatever of the key has been matched
  have hquote := findLoop_reset hpat hsub (c := 34) (by decide) (17 + name.length)
    (59 :: 32 :: (fileNameKey ++ rest))
  have hsemicolon := @findLoop_reset fileNameKey fileNameKey (by decide) List.suffix_rfl 59
    (by decide) (17 + name.length + 1) (32 :: (fileNameKey ++ rest))
  have hblank := @findLoop_reset fileNameKey fileNameKey (by decide) List.suffix_rfl 32
    (by decide) (17 + name.length + 1 + 1) (fileNameKey ++ rest)
  have hend : ascii "\"; " ++ (fileNameKey ++ rest) = 34 :: 59 :: 32 :: (fileNameKey ++ rest) := rfl
  rw [stringfind, cString_of_not_mem hnul, hfront, hpass, hend, hquote, hsemicolon, hblank, hkey,
    Option.getD_some, List.length_append, List.length_append]
  show 17 + name.length + 1 + 1 + 1 + 8 = 17 + (name.length + 3) + 8
  omega

/-- **The file name of a disposition** that ends in it. -/
theorem getFormDataFilename_eq (name fileName : List UInt8) (hname : 61 ∉ name)
    (hnul : 0 ∉ formDataFront ++
      (name ++ (ascii "\"; " ++ (fileNameKey ++ 34 :: (fileName ++ [34]))))) :
    getFormDataFilename (some (formDataFront ++
      (name ++ (ascii "\"; " ++ (fileNameKey ++ 34 :: (fileName ++ [34])))))) = some fileName := by
  have hfind := stringfind_fileName name (34 :: (fileName ++ [34])) hname hnul
  set text := formDataFront ++
    (name ++ (ascii "\"; " ++ (fileNameKey ++ 34 :: (fileName ++ [34])))) with htext
  have hfront : text = (formDataFront ++ (name ++ ascii "\"; ") ++ (fileNameKey ++ [34])) ++
      (fileName ++ [34]) := by
    rw [htext]
    simp
  have hten : (fileNameKey ++ [34]).length = 10 := rfl
  have hlength : text.length = (formDataFront ++ (name ++ ascii "\"; ")).length + 10 +
      (fileName.length + 1) := by
    rw [hfront, List.length_append, List.length_append, hten, @List.length_append _ fileName]
    rfl
  have hdrop : text.drop ((formDataFront ++ (name ++ ascii "\"; ")).length + 8 + 2) =
      fileName ++ [34] := by
    rw [hfront]
    apply List.drop_left'
    rw [List.length_append, hten]
  unfold getFormDataFilename
  rw [Option.getD_some, cString_of_not_mem hnul]
  dsimp only
  rw [hfind, if_neg (by omega), hdrop, if_neg (by omega)]
  have hlen : text.length - ((formDataFront ++ (name ++ ascii "\"; ")).length + 8 + 2) - 1 =
      fileName.length := by omega
  rw [hlen, List.take_left]

end CWebUI.Post
