import CWebUI.Basic.Lists
import CWebUI.Http.FormData

set_option autoImplicit false

/-! # Well-formed part headers

The grammar of the header of a file part, and what `analyseFormDataLine` and
`extractDispositionValue` make of it. A part header is a list of lines, each behind a CRLF,
and an empty line. One of them is the `Content-Disposition` with the file name. Because the
code looks for the name of a field at every position and not at the start of a line only,
the other lines must not contain the text `Content-Disposition: `; they may be anything
else, a `Content-Type` included.
-/

namespace CWebUI.Http

open ByteString ListLemmas

/-! ## The grammar -/

/-- The header of a file part: the lines before and after the `Content-Disposition`, and of
that line the name of the field as it was written, the text up to `filename="`, the file
name, and the text behind its closing quote. -/
structure FilePartHeader where
  before : List (List UInt8)
  field : List UInt8
  params : List UInt8
  fileName : List UInt8
  rest : List UInt8
  after : List (List UInt8)
  deriving DecidableEq, Repr

/-- `filename=`. -/
def fileNameKey : List UInt8 := ascii "filename="

namespace FilePartHeader

/-- The value of the `Content-Disposition`. -/
def disposition (h : FilePartHeader) : List UInt8 :=
  h.params ++ (fileNameKey ++ 34 :: (h.fileName ++ 34 :: h.rest))

/-- The lines of the header. -/
def lines (h : FilePartHeader) : List (List UInt8) :=
  h.before ++ (h.field ++ h.disposition) :: h.after

end FilePartHeader

/-- The text of a header with these lines: each stands behind a CRLF, and an empty line
ends it. -/
def headerText (lines : List (List UInt8)) : List UInt8 :=
  (lines.map (crlf ++ ·)).flatten ++ (crlf ++ crlf)

/-- A line that is not empty and contains no CR, LF or NUL. -/
structure PlainLine (l : List UInt8) : Prop where
  ne_nil : l ≠ []
  noCR : cr ∉ l
  noLF : lf ∉ l
  noNUL : 0 ∉ l

/-- The text `Content-Disposition: ` does not occur in the line, in any case. -/
def Unrelated (l : List UInt8) : Prop :=
  ∀ y ∈ l.tails, startsWithIgnoreCase contentDispositionName y = false

/-- **A well-formed header of a file part.** -/
structure FilePartHeader.WellFormed (h : FilePartHeader) : Prop where
  plain : ∀ l ∈ h.lines, PlainLine l
  before : ∀ l ∈ h.before, Unrelated l
  after : ∀ l ∈ h.after, Unrelated l
  /-- The field is `Content-Disposition: ` in any case. -/
  field : h.field.map toLower = contentDispositionName.map toLower
  /-- `filename` stands at the start or behind a blank or a semicolon. -/
  boundary : h.params.getLast? ∈ [none, some 32, some 59]
  /-- It is the first one. -/
  first : ¬ (fileNameKey ++ [34] <:+: h.params)
  quote : 34 ∉ h.fileName

/-- A line that is not taken for a disposition: a `Content-Type` is read to its end, whatever
stands in it. -/
def Harmless (l : List UInt8) : Prop :=
  Unrelated l ∨ startsWithIgnoreCase contentTypeName l = true

/-- A header of a file part that is read as it is meant: the other lines are harmless. -/
structure FilePartHeader.Readable (h : FilePartHeader) : Prop where
  plain : ∀ l ∈ h.lines, PlainLine l
  before : ∀ l ∈ h.before, Harmless l
  after : ∀ l ∈ h.after, Harmless l
  field : h.field.map toLower = contentDispositionName.map toLower
  boundary : h.params.getLast? ∈ [none, some 32, some 59]
  first : ¬ (fileNameKey ++ [34] <:+: h.params)
  quote : 34 ∉ h.fileName

theorem FilePartHeader.WellFormed.readable {h : FilePartHeader} (hw : h.WellFormed) :
    h.Readable where
  plain := hw.plain
  before := fun l hl => .inl (hw.before l hl)
  after := fun l hl => .inl (hw.after l hl)
  field := hw.field
  boundary := hw.boundary
  first := hw.first
  quote := hw.quote

/-! ## Names of fields -/

/-- A name that has no CR in it and starts a line ends before the end of the line. -/
theorem startsWithIgnoreCase_line (name x tail : List UInt8)
    (hname : ∀ t ∈ name, toLower t ≠ cr)
    (h : startsWithIgnoreCase name (x ++ (crlf ++ tail)) = true) :
    startsWithIgnoreCase name x = true ∧ name.length ≤ x.length := by
  induction name generalizing x with
  | nil => exact ⟨rfl, Nat.zero_le _⟩
  | cons t ts ih =>
      cases x with
      | nil =>
          have ht : toLower t = toLower cr := by
            simp only [List.nil_append, crlf, List.cons_append, startsWithIgnoreCase,
              Bool.and_eq_true, beq_iff_eq] at h
            exact h.1
          exact absurd ht (hname t (by simp))
      | cons c cs =>
          simp only [List.cons_append, startsWithIgnoreCase, Bool.and_eq_true] at h ⊢
          obtain ⟨h1, h2⟩ := ih cs (fun u hu => hname u (by simp [hu])) h.2
          exact ⟨⟨h.1, h1⟩, Nat.succ_le_succ h2⟩

theorem startsWithIgnoreCase_field (name field tail : List UInt8)
    (h : field.map toLower = name.map toLower) :
    startsWithIgnoreCase name (field ++ tail) = true ∧ field.length = name.length := by
  induction name generalizing field with
  | nil =>
      rw [List.map_nil, List.map_eq_nil_iff] at h
      subst h
      exact ⟨rfl, rfl⟩
  | cons t ts ih =>
      cases field with
      | nil => simp at h
      | cons c cs =>
          simp only [List.map_cons, List.cons.injEq] at h
          obtain ⟨h1, h2⟩ := ih cs h.2
          refine ⟨?_, congrArg Nat.succ h2⟩
          simp only [List.cons_append, startsWithIgnoreCase, Bool.and_eq_true, beq_iff_eq]
          exact ⟨h.1.symm, h1⟩

/-! ## One line -/

/-- The search for the end of a line without CR finds it. -/
theorem findLoop_crlf (i : Nat) (x tail : List UInt8) (hx : cr ∉ x) :
    findLoop (· == ·) crlf i crlf (x ++ (crlf ++ tail)) = some (i + x.length + 1) := by
  induction x generalizing i with
  | nil => simp [crlf, findLoop]
  | cons c x ih =>
      have hc : (c == cr) = false := by
        rw [beq_eq_false_iff_ne]
        rintro rfl
        exact hx (by simp)
      have hstep : findLoop (· == ·) crlf i crlf (c :: x ++ (crlf ++ tail)) =
          findLoop (· == ·) crlf (i + 1) crlf (x ++ (crlf ++ tail)) := by
        rw [List.cons_append]
        conv_lhs => rw [crlf, findLoop]
        rw [hc]
        rfl
      rw [hstep, ih (i + 1) (fun h => hx (by simp [h]))]
      simp only [List.length_cons, Option.some.injEq]
      omega

/-- A field that starts here has the rest of the line as its value. -/
theorem checkHeaderLine2_value (name x tail : List UInt8) (hcr : cr ∉ x) (hnul : 0 ∉ x)
    (hlen : name.length ≤ x.length)
    (h : startsWithIgnoreCase name (x ++ (crlf ++ tail)) = true) :
    checkHeaderLine2 name (x ++ (crlf ++ tail)) = .value (x.drop name.length) (crlf ++ tail) := by
  have hfind : stringnfind (x ++ (crlf ++ tail)) crlf = some (x.length + 1) := by
    rw [stringnfind, findLoop_crlf 0 x tail hcr, Nat.zero_add]
  have htake : (x ++ (crlf ++ tail)).take (x.length + 1) = x ++ [cr] := by
    rw [List.take_append, List.take_of_length_le (by omega)]
    simp [crlf]
  have hok : ¬ (x.length + 1 ≤ name.length ∨ 0 ∈ (x ++ (crlf ++ tail)).take (x.length + 1)) := by
    rw [htake]
    rintro (h | h)
    · omega
    · rcases List.mem_append.mp h with h | h
      · exact hnul h
      · simp [cr] at h
  have hl : x.length + 1 - name.length - 1 = x.length - name.length := by omega
  have hl' : name.length + (x.length - name.length) = x.length := by omega
  rw [checkHeaderLine2, if_pos h, hfind]
  simp only [if_neg hok, hl, hl']
  rw [List.drop_append_of_le_length hlen, List.drop_left,
    List.take_append_of_le_length (by simp), List.take_of_length_le (by simp)]

theorem checkHeaderLine2_other {name line : List UInt8}
    (h : startsWithIgnoreCase name line = false) : checkHeaderLine2 name line = .other := by
  rw [checkHeaderLine2, h]
  rfl

theorem contentDispositionName_noCR : ∀ t ∈ contentDispositionName, toLower t ≠ cr := by
  decide +kernel

theorem contentTypeName_noCR : ∀ t ∈ contentTypeName, toLower t ≠ cr := by
  decide +kernel

/-- Neither name starts with a CR or an LF. -/
theorem checkHeaderLine2_lineBreak {c : UInt8} (hc : c = cr ∨ c = lf) (tail : List UInt8) :
    checkHeaderLine2 contentDispositionName (c :: tail) = .other ∧
      checkHeaderLine2 contentTypeName (c :: tail) = .other := by
  constructor
  · apply checkHeaderLine2_other
    rcases hc with rfl | rfl <;> rfl
  · apply checkHeaderLine2_other
    rcases hc with rfl | rfl <;> rfl

/-! ## The loop of `analyseFormDataLine` -/

/-- At a byte of a line that starts no field the loop goes on by one byte. -/
theorem analyse_skip (length n : Nat) (c : UInt8) (rest : List UInt8)
    (header : HttpRequestHeader) (hend : ¬ (crlf ++ crlf <+: c :: rest))
    (h1 : checkHeaderLine2 contentDispositionName (c :: rest) = .other)
    (h2 : checkHeaderLine2 contentTypeName (c :: rest) = .other) :
    analyseFormDataLoop length (n + 1) (c :: rest) header =
      analyseFormDataLoop length n rest header := by
  rw [analyseFormDataLoop, if_neg (by simp), if_neg hend, h1, h2]
  rfl

theorem not_headerEnd_of_ne_cr {c : UInt8} (hc : c ≠ cr) (rest : List UInt8) :
    ¬ (crlf ++ crlf <+: c :: rest) := by
  intro h
  obtain ⟨h1, -⟩ := List.cons_prefix_cons.mp h
  exact hc h1.symm

-- one line break does not end a header
example : ¬ (crlf ++ crlf <+: crlf ++ contentTypeName) := by decide +kernel

/-- The CRLF before a line is passed over. -/
theorem analyse_crlf (length n : Nat) (c : UInt8) (rest : List UInt8)
    (header : HttpRequestHeader) (hc : c ≠ cr) :
    analyseFormDataLoop length (n + 2) (crlf ++ c :: rest) header =
      analyseFormDataLoop length n (c :: rest) header := by
  have hend : ¬ (crlf ++ crlf <+: cr :: lf :: c :: rest) := by
    intro h
    obtain ⟨-, h1⟩ := List.cons_prefix_cons.mp h
    obtain ⟨-, h2⟩ := List.cons_prefix_cons.mp h1
    obtain ⟨h3, -⟩ := List.cons_prefix_cons.mp h2
    exact hc h3.symm
  obtain ⟨h1, h2⟩ := checkHeaderLine2_lineBreak (.inl rfl : cr = cr ∨ cr = lf) (lf :: c :: rest)
  obtain ⟨h3, h4⟩ := checkHeaderLine2_lineBreak (.inr rfl : lf = cr ∨ lf = lf) (c :: rest)
  show analyseFormDataLoop length (n + 2) (cr :: lf :: c :: rest) header = _
  rw [analyse_skip length (n + 1) cr _ header hend h1 h2,
    analyse_skip length n lf _ header (not_headerEnd_of_ne_cr (by decide) _) h3 h4]

/-- **An unrelated line** can set the type of the part, and nothing else. -/
theorem analyse_unrelated (length : Nat) (tail x : List UInt8) (header : HttpRequestHeader)
    (hcr : cr ∉ x) (hnul : 0 ∉ x) (hun : Unrelated x) :
    ∃ ct, ∀ n, x.length + (2 + tail.length) ≤ n → ∃ m, 2 + tail.length ≤ m ∧
      analyseFormDataLoop length n (x ++ (crlf ++ tail)) header =
        analyseFormDataLoop length m (crlf ++ tail) { header with contentType := ct } := by
  induction x with
  | nil => exact ⟨header.contentType, fun n hn => ⟨n, by simpa using hn, rfl⟩⟩
  | cons c x ih =>
      have hc : c ≠ cr := by
        rintro rfl
        exact hcr (by simp)
      have hend := not_headerEnd_of_ne_cr hc (x ++ (crlf ++ tail))
      have hdisp : checkHeaderLine2 contentDispositionName (c :: (x ++ (crlf ++ tail))) =
          .other := by
        apply checkHeaderLine2_other
        by_contra hne
        have hstart := startsWithIgnoreCase_line contentDispositionName (c :: x) tail
          contentDispositionName_noCR (by simpa using hne)
        have hno := hun (c :: x) (by simp)
        exact absurd (hstart.1.symm.trans hno) (by decide)
      by_cases htype : startsWithIgnoreCase contentTypeName (c :: (x ++ (crlf ++ tail))) = true
      · -- the rest of the line is the value of the type
        obtain ⟨-, hlen⟩ := startsWithIgnoreCase_line contentTypeName (c :: x) tail
          contentTypeName_noCR htype
        have hval := checkHeaderLine2_value contentTypeName (c :: x) tail hcr hnul hlen htype
        refine ⟨some ((c :: x).drop contentTypeName.length), fun n hn => ?_⟩
        obtain ⟨n, rfl⟩ : ∃ k, n = k + 1 := ⟨n - 1, by simp at hn; omega⟩
        refine ⟨n, by simp at hn; omega, ?_⟩
        rw [List.cons_append] at hval ⊢
        rw [analyseFormDataLoop, if_neg (by simp), if_neg hend, hdisp, hval]
      · obtain ⟨ct, hct⟩ := ih (fun h => hcr (by simp [h])) (fun h => hnul (by simp [h]))
          (fun y hy => hun y (by simp [List.tails] at hy ⊢; exact .inr hy))
        refine ⟨ct, fun n hn => ?_⟩
        obtain ⟨n, rfl⟩ : ∃ k, n = k + 1 := ⟨n - 1, by simp at hn; omega⟩
        obtain ⟨m, hm, heq⟩ := hct n (by simp at hn; omega)
        refine ⟨m, hm, ?_⟩
        rw [List.cons_append, analyse_skip length n c _ header hend hdisp
          (checkHeaderLine2_other (by simpa using htype)), heq]

/-- **A harmless line** can set the type of the part, and nothing else. -/
theorem analyse_harmless (length : Nat) (tail x : List UInt8) (header : HttpRequestHeader)
    (hcr : cr ∉ x) (hnul : 0 ∉ x) (hx : Harmless x) :
    ∃ ct, ∀ n, x.length + (2 + tail.length) ≤ n → ∃ m, 2 + tail.length ≤ m ∧
      analyseFormDataLoop length n (x ++ (crlf ++ tail)) header =
        analyseFormDataLoop length m (crlf ++ tail) { header with contentType := ct } := by
  rcases hx with hx | hx
  · exact analyse_unrelated length tail x header hcr hnul hx
  · have htype := startsWithIgnoreCase_append (crlf ++ tail) hx
    have hdisp : startsWithIgnoreCase contentDispositionName (x ++ (crlf ++ tail)) = false :=
      startsWithIgnoreCase_disjoint (by decide) (by decide) htype
    have hvalue := checkHeaderLine2_value contentTypeName x tail hcr hnul
      (startsWithIgnoreCase_length hx) htype
    refine ⟨some (x.drop contentTypeName.length), ?_⟩
    intro n hn
    obtain ⟨c, y, rfl⟩ : ∃ c y, x = c :: y := by
      apply List.exists_cons_of_ne_nil
      rintro rfl
      cases hx
    have hc : c ≠ cr := by
      rintro rfl
      exact hcr List.mem_cons_self
    obtain ⟨n, rfl⟩ : ∃ k, n = k + 1 := ⟨n - 1, by simp at hn; omega⟩
    refine ⟨n, by simp at hn; omega, ?_⟩
    have hend := not_headerEnd_of_ne_cr hc (y ++ (crlf ++ tail))
    rw [List.cons_append] at hvalue hdisp ⊢
    rw [analyseFormDataLoop, if_neg (by simp), if_neg hend, checkHeaderLine2_other hdisp, hvalue]

/-- The lines of a header, with what follows them, start with a CRLF. -/
theorem lines_start (ls : List (List UInt8)) (tail : List UInt8) :
    ∃ rest, (ls.map (crlf ++ ·)).flatten ++ (crlf ++ tail) = crlf ++ rest := by
  cases ls with
  | nil => exact ⟨tail, rfl⟩
  | cons l ls => exact ⟨l ++ ((ls.map (crlf ++ ·)).flatten ++ (crlf ++ tail)), by simp⟩

/-- The lines before and after the `Content-Disposition`. -/
theorem analyse_harmless_lines (length : Nat) (tail : List UInt8) (ls : List (List UInt8))
    (header : HttpRequestHeader) (hplain : ∀ l ∈ ls, PlainLine l) (hun : ∀ l ∈ ls, Harmless l) :
    ∃ ct, ∀ n, ((ls.map (crlf ++ ·)).flatten ++ (crlf ++ tail)).length ≤ n →
      ∃ m, (crlf ++ tail).length ≤ m ∧
        analyseFormDataLoop length n ((ls.map (crlf ++ ·)).flatten ++ (crlf ++ tail)) header =
          analyseFormDataLoop length m (crlf ++ tail) { header with contentType := ct } := by
  induction ls generalizing header with
  | nil => exact ⟨header.contentType, fun n hn => ⟨n, hn, rfl⟩⟩
  | cons l ls ih =>
      have hl := hplain l (by simp)
      obtain ⟨rest, hrest⟩ := lines_start ls tail
      obtain ⟨c, l', rfl⟩ := List.exists_cons_of_ne_nil hl.ne_nil
      have hc : c ≠ cr := fun h => hl.noCR (by simp [h])
      obtain ⟨ct, hct⟩ := analyse_harmless length rest (c :: l') header hl.noCR hl.noNUL
        (hun _ (by simp))
      obtain ⟨ct', hct'⟩ := ih { header with contentType := ct }
        (fun k hk => hplain k (by simp [hk])) (fun k hk => hun k (by simp [hk]))
      refine ⟨ct', fun n hn => ?_⟩
      have htext : ((c :: l') :: ls).map (crlf ++ ·) = (crlf ++ c :: l') :: ls.map (crlf ++ ·) :=
        rfl
      rw [htext, List.flatten_cons, List.append_assoc, List.append_assoc, hrest] at hn ⊢
      have hlen2 : crlf.length = 2 := rfl
      simp only [List.length_append, List.length_cons, hlen2] at hn
      obtain ⟨n, rfl⟩ : ∃ k, n = k + 2 := ⟨n - 2, by omega⟩
      obtain ⟨m, hm, heq⟩ := hct n (by simp only [List.length_cons]; omega)
      obtain ⟨m', hm', heq'⟩ := hct' m (by
        rw [hrest, List.length_append, hlen2]
        exact hm)
      refine ⟨m', hm', ?_⟩
      rw [List.cons_append, analyse_crlf length n c _ header hc, ← List.cons_append, heq, ← hrest,
        heq']

/-- The line of the `Content-Disposition`, and the CRLF before it. -/
theorem analyse_disposition (length n : Nat) (field v tail : List UInt8)
    (header : HttpRequestHeader) (hl : PlainLine (field ++ v))
    (hf : field.map toLower = contentDispositionName.map toLower) :
    analyseFormDataLoop length (n + 3) (crlf ++ (field ++ v ++ (crlf ++ tail))) header =
      analyseFormDataLoop length n (crlf ++ tail) { header with contentDisposition := some v } := by
  obtain ⟨hstart, hlen⟩ := startsWithIgnoreCase_field contentDispositionName field
    (v ++ (crlf ++ tail)) hf
  obtain ⟨c, l, hcl⟩ := List.exists_cons_of_ne_nil hl.ne_nil
  have hc : c ≠ cr := fun h => hl.noCR (by simp [hcl, h])
  have hval := checkHeaderLine2_value contentDispositionName (field ++ v) tail hl.noCR hl.noNUL
    (by rw [List.length_append]; omega) (by rw [List.append_assoc]; exact hstart)
  rw [← hlen, List.drop_left] at hval
  rw [hcl, List.cons_append] at hval ⊢
  have hend := not_headerEnd_of_ne_cr hc (l ++ (crlf ++ tail))
  rw [analyse_crlf length (n + 1) c _ header hc, analyseFormDataLoop, if_neg (by simp),
    if_neg hend, hval]

/-- The empty line ends the header. -/
theorem analyse_end (length m : Nat) (tail : List UInt8) (header : HttpRequestHeader)
    (hm : 4 ≤ m) :
    analyseFormDataLoop length m (crlf ++ (crlf ++ tail)) header =
      (header, length - (crlf ++ (crlf ++ tail)).length + 4) := by
  obtain ⟨m, rfl⟩ : ∃ k, m = k + 1 := ⟨m - 1, by omega⟩
  rw [analyseFormDataLoop, if_neg (by simp [crlf]), if_pos ⟨tail, by simp⟩]

/-- **What is read of a part header**, whatever follows it: its disposition, and possibly a type;
and how long it is. -/
theorem analyseFormDataLine_readable (h : FilePartHeader) (hw : h.Readable) (tail : List UInt8)
    (header : HttpRequestHeader) :
    ∃ ct, analyseFormDataLine (headerText h.lines ++ tail) header =
      ({ header with contentDisposition := some h.disposition, contentType := ct },
        (headerText h.lines).length) := by
  obtain ⟨rest, hrest⟩ := lines_start h.after (crlf ++ tail)
  have htext : headerText h.lines ++ tail = (h.before.map (crlf ++ ·)).flatten ++
      (crlf ++ (h.field ++ h.disposition ++ (crlf ++ rest))) := by
    rw [headerText, FilePartHeader.lines, List.map_append, List.map_cons, List.flatten_append,
      List.flatten_cons, ← hrest]
    simp only [List.append_assoc]
  have hmem : h.field ++ h.disposition ∈ h.lines := by simp [FilePartHeader.lines]
  set length := (headerText h.lines ++ tail).length with hlength
  obtain ⟨ct, hct⟩ := analyse_harmless_lines length
    (h.field ++ h.disposition ++ (crlf ++ rest)) h.before header
    (fun l hl => hw.plain l (by simp [FilePartHeader.lines, hl])) hw.before
  obtain ⟨ct', hct'⟩ := analyse_harmless_lines length (crlf ++ tail) h.after
    { header with contentType := ct, contentDisposition := some h.disposition }
    (fun l hl => hw.plain l (by simp [FilePartHeader.lines, hl])) hw.after
  refine ⟨ct', ?_⟩
  obtain ⟨m, hm, heq⟩ := hct length (by rw [hlength, htext])
  -- the line itself is not empty, so three rounds take the loop behind it
  have hpos : 0 < (h.field ++ h.disposition).length :=
    List.length_pos_iff.mpr (hw.plain _ hmem).ne_nil
  have hlen2 : crlf.length = 2 := rfl
  simp only [List.length_append, hlen2] at hm hpos
  obtain ⟨m, rfl⟩ : ∃ k, m = k + 3 := ⟨m - 3, by omega⟩
  obtain ⟨m', hm', heq'⟩ := hct' m (by
    rw [hrest]
    simp only [List.length_append, hlen2]
    omega)
  have hoffset : length - (crlf ++ (crlf ++ tail)).length + 4 = (headerText h.lines).length := by
    have htotal : length = (headerText h.lines).length + tail.length := by
      rw [hlength, List.length_append]
    have hfour : 4 ≤ (headerText h.lines).length := by
      rw [headerText, List.length_append]
      exact Nat.le_add_left 4 _
    simp only [List.length_append, hlen2]
    omega
  calc analyseFormDataLine (headerText h.lines ++ tail) header
      = analyseFormDataLoop length length (headerText h.lines ++ tail) header := rfl
    _ = analyseFormDataLoop length (m + 3)
          (crlf ++ (h.field ++ h.disposition ++ (crlf ++ rest)))
          { header with contentType := ct } := by
        rw [← heq, ← htext]
    _ = analyseFormDataLoop length m (crlf ++ rest)
          { header with contentType := ct, contentDisposition := some h.disposition } := by
        rw [analyse_disposition _ m _ _ _ _ (hw.plain _ hmem) hw.field]
    _ = ({ header with contentDisposition := some h.disposition, contentType := ct' },
          (headerText h.lines).length) := by
        rw [← hrest, heq', analyse_end _ m' _ _ (by
          simp only [List.length_append, hlen2] at hm'
          omega), hoffset]

/-! ## The file name -/

/-- A parameter is found behind a text that does not contain it with its opening quote. -/
theorem findParameter_first (k : UInt8) (key rest : List UInt8) (hk : k ∉ key) (hq : k ≠ 34)
    (text : List UInt8) (skip : Nat) (prev : Option UInt8) (hskip : skip ≤ text.length)
    (hlast : (if text = [] then prev else text.getLast?) ∈ [none, some 32, some 59])
    (hno : ¬ ((k :: key) ++ [34] <:+: text)) :
    findParameter (k :: key) skip prev (text ++ (k :: key ++ 34 :: rest)) = some rest := by
  induction text generalizing skip prev with
  | nil =>
      obtain rfl : skip = 0 := by simpa using hskip
      have hprev : prev = none ∨ prev = some 32 ∨ prev = some 59 := by simpa using hlast
      have hget : (k :: (key ++ 34 :: rest))[(k :: key).length]? = some 34 := by simp
      rw [List.nil_append, List.cons_append, findParameter, if_pos (by simp),
        if_pos ⟨hprev, hget⟩]
      simp
  | cons c text ih =>
      have hno' : ¬ ((k :: key) ++ [34] <:+: text) := fun h => hno (List.infix_cons h)
      have hlast' : (if text = [] then some c else text.getLast?) ∈ [none, some 32, some 59] := by
        rw [if_neg (by simp)] at hlast
        cases text with
        | nil => exact hlast
        | cons d text => simpa using hlast
      cases skip with
      | succ skip =>
          rw [List.cons_append, findParameter]
          exact ih skip (some c) (by simpa using hskip) hlast' hno'
      | zero =>
          rw [List.cons_append, findParameter]
          by_cases hp : k :: key <+: c :: (text ++ (k :: key ++ 34 :: rest))
          · obtain ⟨rfl, hp'⟩ := List.cons_prefix_cons.mp hp
            -- the key does not overlap with the key behind the text
            have hlen : key.length ≤ text.length := by
              by_contra hgt
              obtain ⟨t, ht⟩ := hp'
              have hget : key[text.length]? = some k := by
                have happ : (key ++ t)[text.length]? = key[text.length]? :=
                  List.getElem?_append_left (by omega)
                rw [← happ, ht]
                simp
              exact hk (List.mem_of_getElem? hget)
            have hpre : key <+: text := List.prefix_of_prefix_length_le hp'
              (List.prefix_append text _) hlen
            have hreject : (k :: (text ++ (k :: key ++ 34 :: rest)))[(k :: key).length]? ≠
                some 34 := by
              rw [List.length_cons, List.getElem?_cons_succ]
              intro h34
              rcases Nat.lt_or_eq_of_le hlen with hlt | heq
              · rw [List.getElem?_append_left hlt] at h34
                obtain ⟨t, ht⟩ := prefix_snoc hpre h34
                exact hno ⟨[], t, by simp [← ht]⟩
              · rw [heq] at h34
                exact hq (by simpa using h34)
            rw [if_pos hp, if_neg (fun h => hreject h.2)]
            exact ih _ (some k) (by simpa using hlen) hlast' hno'
          · rw [if_neg hp]
            exact ih 0 (some c) (Nat.zero_le _) hlast' hno'

/-- **The file name of a part header.** -/
theorem extractDispositionValue_readable (h : FilePartHeader) (hw : h.Readable) :
    extractDispositionValue (some h.disposition) fileNameKey = some h.fileName := by
  have hkey : fileNameKey = 102 :: ascii "ilename=" := by decide
  have hlast : (if h.params = [] then none else h.params.getLast?) ∈
      [none, some 32, some 59] := by
    have hb := hw.boundary
    split_ifs
    · simp
    · exact hb
  have hfind : findParameter fileNameKey 0 none h.disposition =
      some (h.fileName ++ 34 :: h.rest) := by
    rw [FilePartHeader.disposition, hkey]
    exact findParameter_first 102 (ascii "ilename=") _ (by decide) (by decide) h.params 0 none
      (Nat.zero_le _) hlast (by rw [← hkey]; exact hw.first)
  have htake : (h.fileName ++ 34 :: h.rest).takeWhile (· ≠ 34) = h.fileName := by
    rw [List.takeWhile_append_of_pos]
    · simp
    · intro c hc
      have : c ≠ 34 := fun h34 => hw.quote (h34 ▸ hc)
      simpa using this
  rw [extractDispositionValue]
  simp only [hfind, htake]
  rw [if_pos (by simp)]

/-! ## The end of the header -/

/-- The empty line of a header is found at its end and not before. -/
theorem headerText_end (ls : List (List UInt8)) (hplain : ∀ l ∈ ls, PlainLine l)
    (u : List UInt8) (h : u ++ (crlf ++ crlf) <+: headerText ls) :
    u ++ (crlf ++ crlf) = headerText ls := by
  induction ls generalizing u with
  | nil =>
      have hu : u = [] := by
        have hlen := h.length_le
        have hlen2 : crlf.length = 2 := rfl
        simp only [headerText, List.map_nil, List.flatten_nil, List.nil_append,
          List.length_append, hlen2] at hlen
        exact List.length_eq_zero_iff.mp (by omega)
      subst hu
      rfl
  | cons l ls ih =>
      have hl := hplain l (by simp)
      have htext : headerText (l :: ls) = crlf ++ l ++ headerText ls := by
        simp [headerText]
      rw [htext] at h ⊢
      by_cases hlen : (crlf ++ l).length ≤ u.length
      · -- the empty line lies behind this line
        have hp : crlf ++ l <+: u := List.prefix_of_prefix_length_le
          (List.prefix_append _ _) ((List.prefix_append u _).trans h) hlen
        obtain ⟨u', rfl⟩ := hp
        rw [List.append_assoc, List.prefix_append_right_inj] at h
        rw [List.append_assoc, ih (fun k hk => hplain k (by simp [hk])) u' h]
      · exfalso
        obtain ⟨t, ht⟩ := h
        obtain ⟨c, l', rfl⟩ := List.exists_cons_of_ne_nil hl.ne_nil
        have hc : c ≠ cr := fun h => hl.noCR (by simp [h])
        match u, hlen, ht with
        | [], _, ht =>
            simp [crlf] at ht
            exact hc ht.1.symm
        | [d], _, ht =>
            simp [crlf, cr, lf] at ht
        | d :: e :: u, hlen, ht =>
            have hul : u.length < (c :: l').length := by
              simp [crlf] at hlen
              simp
              omega
            have ht' : u ++ (crlf ++ crlf ++ t) = c :: l' ++ headerText ls := by
              simp [crlf] at ht
              simpa [crlf] using ht.2.2
            have hget : (c :: l')[u.length]? = some cr := by
              have happ : (c :: l' ++ headerText ls)[u.length]? = (c :: l')[u.length]? :=
                List.getElem?_append_left hul
              rw [← happ, ← ht']
              simp [crlf]
            exact hl.noCR (List.mem_of_getElem? hget)

end CWebUI.Http
