import CWebUI.Basic.CString
import CWebUI.Http.Header

set_option autoImplicit false

/-! # Searching text, and the header of a form part

`stringfind` and its relatives (`utils.c`) search a text for a literal. They go through the
text once with an index into the pattern and fall back to the start of the pattern after a
mismatch, without looking at the mismatching byte again. On top of them stands
`analyseFormDataLine` (`header_parser.c`), which reads the header of one part of a
`multipart/form-data` body, and `extractDispositionValue` (`post_streaming.c`), which takes
a parameter out of its `Content-Disposition`.
-/

namespace CWebUI.Http

open ByteString

/-! ## Substring search -/

/-- The loop of the search functions: `i` is the index into the text, `pat` what is left of
`pattern` to match. The result is the index of the last byte of the match. -/
def findLoop (same : UInt8 → UInt8 → Bool) (pattern : List UInt8) :
    Nat → List UInt8 → List UInt8 → Option Nat
  | _, _, [] => none
  | _, [], _ :: _ => none
  | i, p :: ps, c :: text =>
      if same c p then
        if ps = [] then some i else findLoop same pattern (i + 1) ps text
      else findLoop same pattern (i + 1) pattern text

/-- `stringfind`: the index of the last byte of a match, or `0`. -/
def stringfind (buffer pattern : List UInt8) : Nat :=
  (findLoop (· == ·) pattern 0 pattern (cString buffer)).getD 0

/-- `stringfindCaseInsensitive`. -/
def stringfindCaseInsensitive (buffer pattern : List UInt8) : Nat :=
  (findLoop (fun c p => toLower c == toLower p) pattern 0 pattern (cString buffer)).getD 0

/-- `stringnfind` on a buffer of the given length; `none` is the code's `-1`. The search is
bounded by the length and not by a NUL byte. -/
def stringnfind (buffer pattern : List UInt8) : Option Nat :=
  findLoop (· == ·) pattern 0 pattern buffer

/-! ## The header of a form part -/

/-- What `CHECK_HEADER_LINE2` finds at a position of the part header. -/
inductive PartHeaderLine where
  /-- The line does not start with the field's name. -/
  | other
  /-- The field has no end of line, or a NUL byte in it. -/
  | malformed
  /-- The field's value, and the text from the end of the value on. -/
  | value (v rest : List UInt8)

/-- `CHECK_HEADER_LINE2` for the field `name`, which ends in `": "`. -/
def checkHeaderLine2 (name line2 : List UInt8) : PartHeaderLine :=
  if startsWithIgnoreCase name line2 then
    match stringnfind line2 crlf with
    | none => .malformed
    | some crlfPos =>
        if crlfPos ≤ name.length ∨ 0 ∈ line2.take crlfPos then .malformed
        else
          let len := crlfPos - name.length - 1
          .value ((line2.drop name.length).take len) (line2.drop (name.length + len))
  else .other

/-- `"Content-Disposition: "`. -/
def contentDispositionName : List UInt8 := ascii "Content-Disposition: "

/-- `"Content-Type: "`. -/
def contentTypeName : List UInt8 := ascii "Content-Type: "

/-- The loop of `analyseFormDataLine`, at the suffix `line2` of a part header of `length`
bytes. It gives the header record and the offset that was reached. -/
def analyseFormDataLoop (length : Nat) :
    Nat → List UInt8 → HttpRequestHeader → HttpRequestHeader × Nat
  | 0, line2, header => (header, length - line2.length)
  | n + 1, line2, header =>
      if line2 = [] then (header, length)
      else if crlf ++ crlf <+: line2 then (header, length - line2.length + 4)
      else
        match checkHeaderLine2 contentDispositionName line2 with
        | .malformed => ({ header with error := true }, length)
        | .value v rest =>
            analyseFormDataLoop length n rest { header with contentDisposition := some v }
        | .other =>
            match checkHeaderLine2 contentTypeName line2 with
            | .malformed => ({ header with error := true }, length)
            | .value v rest =>
                analyseFormDataLoop length n rest { header with contentType := some v }
            | .other => analyseFormDataLoop length n line2.tail header

/-- `analyseFormDataLine`: the fields of a part header. Every round of the loop moves
forward, so one round for each byte is enough. -/
def analyseFormDataLine (line : List UInt8) (header : HttpRequestHeader) :
    HttpRequestHeader × Nat :=
  analyseFormDataLoop line.length line.length line header

/-! ## Parameters of the disposition -/

/-- The search of `extractDispositionValue`: the text behind the first occurrence of `key`
that stands at a parameter boundary and is followed by a quote. `prev` is the byte before
the position, `skip` how much of an occurrence that was passed over is still to be
skipped. -/
def findParameter (key : List UInt8) : Nat → Option UInt8 → List UInt8 → Option (List UInt8)
  | _, _, [] => none
  | skip + 1, _, c :: text => findParameter key skip (some c) text
  | 0, prev, c :: text =>
      if key <+: c :: text then
        if (prev = none ∨ prev = some 32 ∨ prev = some 59) ∧
            (c :: text)[key.length]? = some 34 then
          some ((c :: text).drop (key.length + 1))
        else findParameter key (key.length - 1) (some c) text
      else findParameter key 0 (some c) text

/-- `extractDispositionValue`: the quoted value of the parameter `key` (which ends in
`=`). -/
def extractDispositionValue (disposition : Option (List UInt8)) (key : List UInt8) :
    Option (List UInt8) :=
  match disposition with
  | none => none
  | some d =>
      match findParameter key 0 none d with
      | none => none
      | some start => if 34 ∈ start then some (start.takeWhile (· ≠ 34)) else none

end CWebUI.Http
