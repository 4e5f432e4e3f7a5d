import CWebUI.Http.ResponseHeader
import CWebUI.Proxy.Connection
import CWebUI.Proxy.ContentLengths

set_option autoImplicit false

/-! # Responses as a client reads them

The library is a client itself: its reverse proxy looks for the end of a header and for the length
of the body behind it. `ReadsAs` says with the functions of the proxy what a client makes of some
bytes: the status and the body of a response. The lines of a header must not hold a line break, and
one of them at most may say something about the body (`readsAs_length`).
-/

namespace CWebUI.Http

open ByteString
open CWebUI.Proxy

/-! ## Reading a response -/

/-- The status, and how the body is framed, as the reverse proxy takes them from a header. -/
def framingOf (header : List UInt8) : BodyTransferMode × Nat :=
  responseFraming (proxyGetStatusCode header) (proxyParseContentLength header)
    (proxyCheckTransferEncoding header)

/-- The bytes are a response with the status and the body: its header ends where the body starts,
and it gives the length of the body. -/
structure ReadsAs (bytes : List UInt8) (status : Nat) (body : List UInt8) : Prop where
  split : ∃ header, bytes = header ++ body ∧ proxyFindHeaderEnd bytes = some header.length ∧
    proxyGetStatusCode header = some status ∧ framingOf header = (.contentLength, body.length)

/-! ## Lines -/

/-- A line that says nothing about the body. -/
structure QuietLine (line : List UInt8) : Prop where
  clean : NoLineBreak line
  ne_nil : line ≠ []
  notLength : startsWithIgnoreCase contentLengthFieldName line = false
  notCoding : startsWithIgnoreCase transferEncodingFieldName line = false

/-- The name of a field, or a whole line, that has nothing to do with the body. -/
def isQuietName (name : List UInt8) : Bool :=
  !name.contains cr && !name.contains lf && !name.isEmpty &&
    !(name.map toLower).isPrefixOf (contentLengthFieldName.map toLower) &&
    !(contentLengthFieldName.map toLower).isPrefixOf (name.map toLower) &&
    !(name.map toLower).isPrefixOf (transferEncodingFieldName.map toLower) &&
    !(transferEncodingFieldName.map toLower).isPrefixOf (name.map toLower)

instance (l : List UInt8) : Decidable (NoLineBreak l) :=
  inferInstanceAs (Decidable (cr ∉ l ∧ lf ∉ l))

theorem noLineBreak_append {a b : List UInt8} (ha : NoLineBreak a) (hb : NoLineBreak b) :
    NoLineBreak (a ++ b) := by
  simp only [NoLineBreak, List.mem_append, not_or] at ha hb ⊢
  exact ⟨⟨ha.1, hb.1⟩, ha.2, hb.2⟩

/-- A field with such a name is quiet, whatever its value. -/
theorem quietLine_field {name : List UInt8} (h : isQuietName name = true) {value : List UInt8}
    (hvalue : NoLineBreak value) : QuietLine (name ++ value) := by
  simp only [isQuietName, Bool.and_eq_true, Bool.not_eq_true', List.contains_eq_mem,
    decide_eq_false_iff_not, List.isEmpty_eq_false_iff] at h
  obtain ⟨⟨⟨⟨⟨⟨hcr, hlf⟩, hne⟩, h1⟩, h2⟩, h3⟩, h4⟩ := h
  have hstart : startsWithIgnoreCase name (name ++ value) = true := by
    rw [startsWithIgnoreCase_iff, List.map_append]
    exact List.prefix_append _ _
  have hnot : ∀ {a b : List UInt8}, a.isPrefixOf b = false → ¬ a <+: b := by
    intro a b hab hp
    rw [← List.isPrefixOf_iff_prefix, hab] at hp
    cases hp
  exact ⟨noLineBreak_append ⟨hcr, hlf⟩ hvalue, by simp [hne],
    startsWithIgnoreCase_disjoint (hnot h1) (hnot h2) hstart,
    startsWithIgnoreCase_disjoint (hnot h3) (hnot h4) hstart⟩

theorem quietLine_of_isQuietName {line : List UInt8} (h : isQuietName line = true) :
    QuietLine line := by
  have := quietLine_field h noLineBreak_nil
  rwa [List.append_nil] at this

/-- Texts that are such lines, each with its CRLF. -/
def QuietTexts (texts : List (List UInt8)) : Prop :=
  ∃ lines : List (List UInt8), texts = lines.map (· ++ crlf) ∧ ∀ line ∈ lines, QuietLine line

theorem quietTexts_nil : QuietTexts [] := ⟨[], rfl, by simp⟩

theorem QuietTexts.append {a b : List (List UInt8)} (ha : QuietTexts a) (hb : QuietTexts b) :
    QuietTexts (a ++ b) := by
  obtain ⟨la, rfl, hla⟩ := ha
  obtain ⟨lb, rfl, hlb⟩ := hb
  refine ⟨la ++ lb, by rw [List.map_append], fun line hline => ?_⟩
  exact (List.mem_append.mp hline).elim (hla line) (hlb line)

theorem quietTexts_singleton {line : List UInt8} (h : QuietLine line) :
    QuietTexts [line ++ crlf] := ⟨[line], rfl, by simpa using h⟩

/-- A text of the program that is a line with its CRLF. -/
def isQuietText (text : List UInt8) : Bool :=
  isQuietName (text.take (text.length - 2)) && text.drop (text.length - 2) == crlf

theorem quietTexts_literal {texts : List (List UInt8)} (h : texts.all isQuietText = true) :
    QuietTexts texts := by
  induction texts with
  | nil => exact quietTexts_nil
  | cons text texts ih =>
      rw [List.all_cons, Bool.and_eq_true, isQuietText, Bool.and_eq_true, beq_iff_eq] at h
      obtain ⟨⟨hname, hcrlf⟩, hrest⟩ := h
      have hfirst := quietTexts_singleton (quietLine_of_isQuietName hname)
      rw [← hcrlf, List.take_append_drop] at hfirst
      exact hfirst.append (ih hrest)

/-! ## The end of the header -/

theorem proxyFindHeaderEnd_line {line : List UInt8} (h : cr ∉ line) (rest : List UInt8) :
    proxyFindHeaderEnd (line ++ rest) = (proxyFindHeaderEnd rest).map (· + line.length) := by
  induction line with
  | nil => simp
  | cons c line ih =>
      rw [List.mem_cons, not_or] at h
      have hno : ¬ crlf ++ crlf <+: c :: (line ++ rest) := by
        intro hp
        exact h.1 (List.cons_prefix_cons.mp hp).1
      rw [List.cons_append, proxyFindHeaderEnd, if_neg hno, ih h.2, Option.map_map]
      rfl

theorem proxyFindHeaderEnd_crlf {c : UInt8} (h : c ≠ cr) (rest : List UInt8) :
    proxyFindHeaderEnd (crlf ++ c :: rest) = (proxyFindHeaderEnd (c :: rest)).map (· + 2) := by
  have hfirst : ¬ crlf ++ crlf <+: cr :: lf :: c :: rest := by
    intro hp
    have hp' := (List.cons_prefix_cons.mp hp).2
    exact h (List.cons_prefix_cons.mp (List.cons_prefix_cons.mp hp').2).1.symm
  have hsecond : ¬ crlf ++ crlf <+: lf :: c :: rest := by
    intro hp
    exact absurd (List.cons_prefix_cons.mp hp).1 (by decide)
  rw [crlf, List.cons_append, List.cons_append, List.nil_append, proxyFindHeaderEnd, if_neg hfirst,
    proxyFindHeaderEnd, if_neg hsecond, Option.map_map]
  rfl

/-- **The header ends behind its lines**, if they are not empty and without a CR. -/
theorem proxyFindHeaderEnd_lines {lines : List (List UInt8)} (hne : lines ≠ [])
    (h : ∀ line ∈ lines, NoLineBreak line ∧ line ≠ []) (body : List UInt8) :
    proxyFindHeaderEnd (headerBlock lines ++ crlf ++ body) =
      some (headerBlock lines ++ crlf).length := by
  induction lines with
  | nil => exact absurd rfl hne
  | cons line lines ih =>
      obtain ⟨hline, -⟩ := h line List.mem_cons_self
      have hblock : headerBlock (line :: lines) = line ++ crlf ++ headerBlock lines := by
        simp [headerBlock]
      cases lines with
      | nil =>
          have hend : proxyFindHeaderEnd (crlf ++ crlf ++ body) = some 4 := by
            rw [show crlf ++ crlf ++ body = cr :: (lf :: (crlf ++ body)) from rfl,
              proxyFindHeaderEnd, if_pos ⟨body, rfl⟩]
          rw [hblock, show headerBlock [] = [] from rfl, List.append_nil, List.append_assoc line,
            List.append_assoc line, proxyFindHeaderEnd_line hline.1, hend, List.length_append]
          exact congrArg some (Nat.add_comm _ _)
      | cons next lines =>
          obtain ⟨hnext, hnonempty⟩ := h next (by simp)
          have hrest := ih (by simp) fun l hl => h l (List.mem_cons_of_mem _ hl)
          obtain ⟨c, cs, hcs⟩ := List.exists_cons_of_ne_nil hnonempty
          have hc : c ≠ cr := by
            rintro rfl
            exact hnext.1 (hcs ▸ List.mem_cons_self)
          have hsplit : headerBlock (next :: lines) ++ crlf ++ body =
              c :: (cs ++ crlf ++ headerBlock lines ++ crlf ++ body) := by
            simp [headerBlock, hcs]
          rw [hblock, List.append_assoc (line ++ crlf), List.append_assoc (line ++ crlf),
            List.append_assoc line, proxyFindHeaderEnd_line hline.1, hsplit,
            proxyFindHeaderEnd_crlf hc, ← hsplit, hrest]
          simp only [Option.map_some, List.length_append, Option.some.injEq]
          have : crlf.length = 2 := rfl
          omega

/-! ## The fields of the header -/

theorem flatten_headerTexts (lines : List (List UInt8)) :
    (lines.map (· ++ crlf) ++ [crlf]).flatten = headerBlock lines ++ crlf := by
  rw [List.flatten_append, List.flatten_singleton, headerBlock, List.flatMap_def]

/-- The empty line at the end is a line of the block as well. -/
theorem headerBlock_end (lines : List (List UInt8)) :
    headerBlock lines ++ crlf = headerBlock (lines ++ [[]]) := by
  rw [headerBlock, headerBlock, List.flatMap_append]
  simp

/-- The part of one line is a field if the line starts with the name. -/
theorem fieldLines_one {name : List UInt8} (hname : ∀ t ∈ name, toLower t ≠ toLower cr)
    {line : List UInt8} (hline : lf ∉ line) :
    fieldLines name (line ++ [cr]) =
      if startsWithIgnoreCase name line then [line ++ [cr]] else [] := by
  have hno : lf ∉ line ++ [cr] := by
    simp only [List.mem_append, List.mem_singleton, not_or]
    exact ⟨hline, by decide⟩
  have hstart : startsWithIgnoreCase name (line ++ [cr]) = startsWithIgnoreCase name line :=
    startsWithIgnoreCase_stop hname line []
  rw [fieldLines, lines_of_not_mem hno, List.filter_singleton, hstart, Bool.cond_eq_ite]

/-- The lines that are fields of the name, of a whole header. -/
theorem fieldLines_header {name : List UInt8} (hfield : FieldName name)
    (hname : ∀ t ∈ name, toLower t ≠ toLower cr) {lines : List (List UInt8)}
    (h : ∀ line ∈ lines, lf ∉ line) :
    fieldLines name (headerBlock lines ++ crlf) =
      (lines.filter (startsWithIgnoreCase name)).map (· ++ [cr]) := by
  have hempty : startsWithIgnoreCase name [] = false := by
    cases name with
    | nil => exact absurd rfl hfield.ne_nil
    | cons t name => rfl
  rw [headerBlock_end, fieldLines_headerBlock hfield, List.flatMap_append]
  have hlast : [([] : List UInt8)].flatMap (fun line => fieldLines name (line ++ [cr])) = [] := by
    rw [List.flatMap_singleton, fieldLines_one hname List.not_mem_nil, hempty]
    rfl
  rw [hlast, List.append_nil]
  induction lines with
  | nil => rfl
  | cons line lines ih =>
      rw [List.flatMap_cons, fieldLines_one hname (h line List.mem_cons_self),
        ih fun l hl => h l (List.mem_cons_of_mem _ hl), List.filter_cons]
      by_cases hstart : startsWithIgnoreCase name line = true
      · rw [if_pos hstart, if_pos hstart]
        rfl
      · rw [if_neg hstart, if_neg hstart]
        rfl

theorem contentLengthFieldName_noCR :
    ∀ t ∈ contentLengthFieldName, toLower t ≠ toLower cr := by
  decide +kernel

theorem transferEncodingFieldName_noCR :
    ∀ t ∈ transferEncodingFieldName, toLower t ≠ toLower cr := by
  decide +kernel

/-! ## The length of the body -/

/-- The line of a length. -/
def lengthLine (n : Nat) : List UInt8 := ascii "Content-Length: " ++ decimal n

theorem lengthLine_starts (n : Nat) :
    startsWithIgnoreCase contentLengthFieldName (lengthLine n) = true := by
  rw [startsWithIgnoreCase_iff, lengthLine, List.map_append]
  exact List.IsPrefix.trans (by decide +kernel) (List.prefix_append _ _)

example : lengthLine 50 = ascii "Content-Length: 50" := by decide +kernel

theorem lengthLine_notCoding (n : Nat) :
    startsWithIgnoreCase transferEncodingFieldName (lengthLine n) = false :=
  startsWithIgnoreCase_disjoint (by decide +kernel) (by decide +kernel) (lengthLine_starts n)

theorem noLineBreak_decimal (n : Nat) : NoLineBreak (decimal n) :=
  ⟨fun h => absurd (isDigit_decimal h) (by decide), fun h => absurd (isDigit_decimal h) (by decide)⟩

theorem noLineBreak_lengthLine (n : Nat) : NoLineBreak (lengthLine n) :=
  noLineBreak_append (by decide +kernel) (noLineBreak_decimal n)

/-- The value of the line is the length. -/
theorem isLength_lengthLine {n : Nat} (h : n ≤ int64Max) :
    IsLength (valueAt ((lengthLine n ++ [cr]).drop contentLengthFieldName.length)) n := by
  have hdrop : (lengthLine n ++ [cr]).drop contentLengthFieldName.length =
      [32] ++ decimal n ++ [cr] := by
    have hname : ascii "Content-Length: " = contentLengthFieldName ++ [32] := by decide +kernel
    rw [lengthLine, hname, List.append_assoc, List.append_assoc, List.drop_left, List.append_assoc]
  have hvalue : ∀ c ∈ [32] ++ decimal n, isLineEnd c = false := by
    intro c hc
    rcases List.mem_append.mp hc with hc | hc
    · rw [List.mem_singleton.mp hc]
      decide
    · exact isLineEnd_of_isDigit (isDigit_decimal hc)
  rw [hdrop, valueAt_append hvalue (by decide)]
  have hblank : ∀ c ∈ [(32 : UInt8)], isBlank c := by
    intro c hc
    rw [List.mem_singleton.mp hc]
    decide
  exact ⟨[32], decimal n, [], by rw [List.append_nil], hblank, by simp, decimal_ne_nil n,
    fun c hc => isDigit_decimal hc, decValue_decimal n, h⟩

/-! ## The status -/

theorem length_decimal_three {code : Nat} (hlow : 100 ≤ code) (hhigh : code < 1000) :
    (decimal code).length = 3 := by
  have hthree := (@Nat.length_toDigits_le_iff 10 code 3 (by decide) (by decide)).mpr hhigh
  have htwo := mt (@Nat.length_toDigits_le_iff 10 code 2 (by decide) (by decide)).mp
    (Nat.not_lt_of_le hlow)
  rw [decimal_eq, List.length_map]
  omega

/-- The first line of a header. -/
def statusLine (isHttp11 : Bool) (code : Nat) (reason : List UInt8) : List UInt8 :=
  ascii (if isHttp11 then "HTTP/1.1 " else "HTTP/1.0 ") ++ (decimal code ++ ascii " " ++ reason)

theorem proxyGetStatusCode_statusLine (isHttp11 : Bool) {code : Nat} (hlow : 100 ≤ code)
    (hhigh : code < 1000) (reason rest : List UInt8) :
    proxyGetStatusCode (statusLine isHttp11 code reason ++ rest) = some code := by
  have hversion : ∀ behind : List UInt8,
      ((ascii (if isHttp11 then "HTTP/1.1 " else "HTTP/1.0 ") ++ behind).dropWhile
        (· ≠ 32)).drop 1 = behind := by
    intro behind
    cases isHttp11 <;> rfl
  have hthree : (decimal code ++ (ascii " " ++ reason ++ rest)).take 3 = decimal code :=
    List.take_left' (length_decimal_three hlow hhigh)
  have hdigits : (decimal code).takeWhile isDigit = decimal code :=
    List.takeWhile_eq_self_iff.mpr fun c hc => isDigit_decimal hc
  have hline : statusLine isHttp11 code reason ++ rest =
      ascii (if isHttp11 then "HTTP/1.1 " else "HTTP/1.0 ") ++
        (decimal code ++ (ascii " " ++ reason ++ rest)) := by
    simp only [statusLine, List.append_assoc]
  rw [hline, proxyGetStatusCode, hversion, hthree, hdigits, if_neg (decimal_ne_nil code),
    decValue_decimal]

/-- The status of a header that starts with such a line. -/
theorem proxyGetStatusCode_block (isHttp11 : Bool) {code : Nat} (hlow : 100 ≤ code)
    (hhigh : code < 1000) (reason : List UInt8) (lines : List (List UInt8)) :
    proxyGetStatusCode (headerBlock (statusLine isHttp11 code reason :: lines) ++ crlf) =
      some code := by
  have hblock : headerBlock (statusLine isHttp11 code reason :: lines) ++ crlf =
      statusLine isHttp11 code reason ++ (crlf ++ headerBlock lines ++ crlf) := by
    simp [headerBlock]
  rw [hblock, proxyGetStatusCode_statusLine isHttp11 hlow hhigh]

theorem quietLine_statusLine (isHttp11 : Bool) (code : Nat) {reason : List UInt8}
    (h : NoLineBreak reason) : QuietLine (statusLine isHttp11 code reason) := by
  refine quietLine_field ?_ (noLineBreak_append (noLineBreak_append (noLineBreak_decimal code)
    (by decide +kernel)) h)
  cases isHttp11 <;> decide +kernel

/-! ## Whole responses -/

/-- A header with one length among its lines. -/
theorem framing_length {pre post : List (List UInt8)} {n : Nat} (hn : n ≤ int64Max)
    (hpre : ∀ line ∈ pre, QuietLine line) (hpost : ∀ line ∈ post, QuietLine line) :
    proxyParseContentLength (headerBlock (pre ++ lengthLine n :: post) ++ crlf) = .length n ∧
      proxyCheckTransferEncoding (headerBlock (pre ++ lengthLine n :: post) ++ crlf) = .none := by
  have hclean : ∀ line ∈ pre ++ lengthLine n :: post, lf ∉ line := by
    intro line hline
    rcases List.mem_append.mp hline with hline | hline
    · exact (hpre line hline).clean.2
    · rcases List.mem_cons.mp hline with rfl | hline
      · exact (noLineBreak_lengthLine n).2
      · exact (hpost line hline).clean.2
  have hnone : ∀ {name : List UInt8} {part : List (List UInt8)},
      (∀ line ∈ part, startsWithIgnoreCase name line = false) →
      part.filter (startsWithIgnoreCase name) = [] := by
    intro name part hpart
    rw [List.filter_eq_nil_iff]
    intro line hline
    rw [hpart line hline]
    exact Bool.false_ne_true
  constructor
  · rw [(proxyParseContentLength_iff _).2, fieldLines_header contentLengthFieldName_field
      contentLengthFieldName_noCR hclean, List.filter_append,
      hnone fun line hline => (hpre line hline).notLength,
      List.filter_cons_of_pos (lengthLine_starts n),
      hnone fun line hline => (hpost line hline).notLength]
    exact ⟨_, rfl, isLength_lengthLine hn⟩
  · rw [proxyCheckTransferEncoding_none_iff, fieldLines_header transferEncodingFieldName_field
      transferEncodingFieldName_noCR hclean, List.filter_append,
      hnone fun line hline => (hpre line hline).notCoding,
      List.filter_cons_of_neg (by rw [lengthLine_notCoding]; exact Bool.false_ne_true),
      hnone fun line hline => (hpost line hline).notCoding]
    rfl

/-- The end of the header and the status, for lines that have no line break. -/
theorem readsAs_of_framing {isHttp11 : Bool} {code : Nat} {reason body : List UInt8}
    {lines : List (List UInt8)} (hlow : 100 ≤ code) (hhigh : code < 1000)
    (hlines : ∀ line ∈ statusLine isHttp11 code reason :: lines, NoLineBreak line ∧ line ≠ [])
    (hframing : framingOf (headerBlock (statusLine isHttp11 code reason :: lines) ++ crlf) =
      (.contentLength, body.length)) :
    ReadsAs (headerBlock (statusLine isHttp11 code reason :: lines) ++ crlf ++ body) code body := by
  exact ⟨_, rfl, proxyFindHeaderEnd_lines (List.cons_ne_nil _ _) hlines body,
    proxyGetStatusCode_block isHttp11 hlow hhigh reason lines, hframing⟩

/-- The bodies that go with a status: with 204 and 304 there is none. -/
def BodyAllowed (code : Nat) (body : List UInt8) : Prop :=
  (code = 204 ∨ code = 304) → body = []

theorem statusText_eq (header : HttpRequestHeader) (code : Nat) (reason : List UInt8) :
    statusText header (decimal code ++ ascii " " ++ reason) =
      statusLine header.isHttp11 code reason ++ crlf := rfl

/-- **A header with the length of the body**: quiet texts, the length, and quiet texts. -/
theorem readsAs_length {header : HttpRequestHeader} {code : Nat} {reason body : List UInt8}
    {pre post : List (List UInt8)} (hlow : 100 ≤ code) (hhigh : code < 1000)
    (hreason : NoLineBreak reason) (hpre : QuietTexts pre) (hpost : QuietTexts post)
    (hbody : body.length ≤ int64Max) (hallowed : BodyAllowed code body) :
    ReadsAs (([statusText header (decimal code ++ ascii " " ++ reason)] ++ pre ++
      [contentLengthText body.length] ++ post ++ [crlf]).flatten ++ body) code body := by
  obtain ⟨lpre, rfl, hlpre⟩ := hpre
  obtain ⟨lpost, rfl, hlpost⟩ := hpost
  have hstatus := quietLine_statusLine header.isHttp11 code hreason
  have hlines : ∀ line ∈ statusLine header.isHttp11 code reason :: lpre, QuietLine line := by
    intro line hline
    rcases List.mem_cons.mp hline with rfl | hline
    · exact hstatus
    · exact hlpre line hline
  have htexts : [statusText header (decimal code ++ ascii " " ++ reason)] ++
      lpre.map (· ++ crlf) ++ [contentLengthText body.length] ++ lpost.map (· ++ crlf) ++ [crlf] =
      (statusLine header.isHttp11 code reason ::
        (lpre ++ lengthLine body.length :: lpost)).map (· ++ crlf) ++ [crlf] := by
    rw [statusText_eq]
    simp [contentLengthText, lengthLine]
  obtain ⟨hlength, hcoding⟩ := framing_length hbody hlines hlpost
  rw [htexts, flatten_headerTexts]
  refine readsAs_of_framing hlow hhigh ?_ ?_
  · intro line hline
    rw [List.mem_cons, List.mem_append, List.mem_cons] at hline
    obtain rfl | hline | rfl | hline := hline
    · exact ⟨hstatus.clean, hstatus.ne_nil⟩
    · exact ⟨(hlpre line hline).clean, (hlpre line hline).ne_nil⟩
    · exact ⟨noLineBreak_lengthLine _, by simp [lengthLine, decimal_ne_nil]⟩
    · exact ⟨(hlpost line hline).clean, (hlpost line hline).ne_nil⟩
  · rw [framingOf, ← List.cons_append, hlength, hcoding, responseFraming]
    split_ifs with hcode
    · rw [List.cons_append, proxyGetStatusCode_block header.isHttp11 hlow hhigh,
        Option.some.injEq, Option.some.injEq] at hcode
      rw [hallowed hcode]
      rfl
    · rfl

end CWebUI.Http
