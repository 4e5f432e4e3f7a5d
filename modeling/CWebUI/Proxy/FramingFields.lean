import CWebUI.Proxy.ContentLengths

set_option autoImplicit false

/-! # The framing fields, byte by byte

`proxy_parse_content_length`, `proxy_check_transfer_encoding` and
`proxy_header_has_connection_upgrade` (`reverse_proxy.c`) with what `HeaderFields` leaves out of
them: the look at the byte before the pointer, the 64-bit arithmetic of the length, and loops that
could run out of rounds (`none`). A `Pointer` knows the byte before it.

The walks agree with those of `HeaderFields`, and what they accept is said by the lines of the
block: the grammar of a length, the last transfer coding, a token of a `Connection` field.
-/

namespace CWebUI.Proxy

open ByteString CWebUI.Http

/-! ## Pointers into a header block -/

/-- `p`, between `header` and `end`: the byte before it, if it is not `header`, and the bytes from
it to `end`. -/
structure Pointer where
  before : Option UInt8
  rest : List UInt8

/-- The start of a block. -/
def Pointer.start (header : List UInt8) : Pointer := ⟨none, header⟩

/-- `p` moved forward, to where the bytes `rest` are left. -/
def Pointer.moveTo (p : Pointer) (rest : List UInt8) : Pointer :=
  ⟨((p.rest.take (p.rest.length - rest.length)).getLast?).or p.before, rest⟩

/-- `(p == header) || (*(p - 1) == '\n')` -/
def Pointer.atLineStart (p : Pointer) : Bool := p.before == none || p.before == some lf

@[simp] theorem Pointer.moveTo_rest (p : Pointer) (rest : List UInt8) :
    (p.moveTo rest).rest = rest := rfl

theorem Pointer.moveTo_before {p : Pointer} {a rest : List UInt8} {c : UInt8}
    (h : p.rest = a ++ c :: rest) : (p.moveTo rest).before = some c := by
  have hlen : p.rest.length - rest.length = (a ++ [c]).length := by
    rw [h]
    simp only [List.length_append, List.length_cons, List.length_nil]
    omega
  have hsplit : p.rest = (a ++ [c]) ++ rest := by
    rw [h, List.append_assoc, List.singleton_append]
  rw [Pointer.moveTo, hlen, hsplit, List.take_left]
  simp

/-- A pointer that stands at the start of a line, or at the end of the block. -/
def Pointer.Anchored (p : Pointer) : Prop := p.rest ≠ [] → p.atLineStart = true

theorem Pointer.anchored_start (header : List UInt8) : (Pointer.start header).Anchored :=
  fun _ => rfl

/-- Behind an LF a line starts. -/
theorem Pointer.anchored_nextLine (p : Pointer) : (p.moveTo (nextLine p.rest)).Anchored := by
  intro hne
  rcases lines_step p.rest with ⟨-, -, hnext⟩ | ⟨l, -, hp, -⟩
  · exact absurd hnext hne
  · rw [Pointer.atLineStart, Pointer.moveTo_before hp]
    rfl

/-! ## The length -/

/-- `INT64_MAX` in the type of the value. -/
def int64Max64 : UInt64 := 0x7fffffffffffffff

/-- `(uint64_t)(*p - '0')` -/
def digit64 (c : UInt8) : UInt64 := (c - 48).toUInt64

/-- The loop over the digits; `none` is a value that does not fit. -/
def contentLengthDigits64 (value : UInt64) : List UInt8 → Option (UInt64 × List UInt8)
  | [] => some (value, [])
  | c :: rest =>
      if isDigit c then
        if value > (int64Max64 - digit64 c) / 10 then none
        else contentLengthDigits64 (value * 10 + digit64 c) rest
      else some (value, c :: rest)

/-- The values and the digits that the loop multiplies and adds. -/
def multiplications (value : UInt64) : List UInt8 → List (UInt64 × UInt64)
  | [] => []
  | c :: rest =>
      if isDigit c then
        if value > (int64Max64 - digit64 c) / 10 then []
        else (value, digit64 c) :: multiplications (value * 10 + digit64 c) rest
      else []

/-- The search for a second field. -/
def contentLengthAgain64 : Nat → Pointer → Option Bool
  | 0, _ => none
  | n + 1, p =>
      if p.rest.length < contentLengthFieldName.length then some false
      else if p.atLineStart ∧ startsWithIgnoreCase contentLengthFieldName p.rest then some true
      else contentLengthAgain64 n (p.moveTo (nextLine p.rest))

/-- The value of the field, `p` standing behind its name. -/
def contentLengthValue64 (p : Pointer) : Option ContentLength :=
  let digits := p.rest.dropWhile isBlank
  if !isDigit (digits.headD 0) then some .invalid
  else
    match contentLengthDigits64 0 digits with
    | none => some .invalid
    | some (value, rest) =>
        let rest := rest.dropWhile isBlank
        if !isLineEnd (rest.headD lf) then some .invalid
        else
          let p := (p.moveTo rest).moveTo (nextLine rest)
          (contentLengthAgain64 (rest.length + 1) p).map fun again =>
            if again then .invalid else .length value.toNat

/-- The loop over the lines. -/
def contentLengthWalk64 : Nat → Pointer → Option ContentLength
  | 0, _ => none
  | n + 1, p =>
      if p.rest.length < contentLengthFieldName.length then some .missing
      else if p.atLineStart ∧ startsWithIgnoreCase contentLengthFieldName p.rest then
        contentLengthValue64 (p.moveTo (p.rest.drop contentLengthFieldName.length))
      else contentLengthWalk64 n (p.moveTo (nextLine p.rest))

/-- `proxy_parse_content_length` -/
def proxyParseContentLength64 (header : List UInt8) : Option ContentLength :=
  contentLengthWalk64 (header.length + 1) (.start header)

/-! ### No product wraps -/

theorem int64Max64_toNat : int64Max64.toNat = int64Max := rfl

theorem digit64_toNat {c : UInt8} (h : isDigit c = true) :
    (digit64 c).toNat = c.toNat - 48 ∧ c.toNat - 48 ≤ 9 := by
  simp only [isDigit, Bool.and_eq_true, decide_eq_true_eq] at h
  have h57 : c.toNat ≤ 57 := UInt8.le_iff_toNat_le.mp h.2
  rw [digit64, UInt8.toNat_toUInt64, UInt8.toNat_sub_of_le _ _ h.1]
  refine ⟨rfl, ?_⟩
  show c.toNat - 48 ≤ 9
  omega

/-- The check before a multiplication, on numbers. -/
theorem fits_iff {value : UInt64} {c : UInt8} (h : isDigit c = true) :
    value > (int64Max64 - digit64 c) / 10 ↔
      value.toNat > (int64Max - (c.toNat - 48)) / 10 := by
  obtain ⟨hdigit, hle⟩ := digit64_toNat h
  have hsub : digit64 c ≤ int64Max64 := by
    rw [UInt64.le_iff_toNat_le, hdigit, int64Max64_toNat, int64Max]
    omega
  have h10 : (10 : UInt64).toNat = 10 := rfl
  rw [gt_iff_lt, UInt64.lt_iff_toNat_lt, UInt64.toNat_div, UInt64.toNat_sub_of_le _ _ hsub, hdigit,
    int64Max64_toNat, h10]

/-- What passes the check does not wrap, and stays in the range. -/
theorem multiplication_fits {value : UInt64} {c : UInt8} (h : isDigit c = true)
    (hfit : ¬ value > (int64Max64 - digit64 c) / 10) :
    value.toNat * 10 + (digit64 c).toNat ≤ int64Max ∧
      (value * 10 + digit64 c).toNat = value.toNat * 10 + (c.toNat - 48) := by
  obtain ⟨hdigit, hle⟩ := digit64_toNat h
  rw [fits_iff h] at hfit
  have hmax : int64Max = 9223372036854775807 := rfl
  have hbound : value.toNat * 10 + (c.toNat - 48) ≤ int64Max := by omega
  have h10 : (10 : UInt64).toNat = 10 := rfl
  refine ⟨by rw [hdigit]; exact hbound, ?_⟩
  rw [UInt64.toNat_add, UInt64.toNat_mul, hdigit, h10]
  omega

theorem multiplications_fit (value : UInt64) (p : List UInt8) :
    ∀ m ∈ multiplications value p, m.1.toNat * 10 + m.2.toNat ≤ int64Max := by
  induction p generalizing value with
  | nil => simp [multiplications]
  | cons c p ih =>
      rw [multiplications]
      split_ifs with hc hbig
      · simp
      · rw [List.forall_mem_cons]
        exact ⟨(multiplication_fits hc hbig).1, ih _⟩
      · simp

/-- The digits are read as numbers. -/
theorem contentLengthDigits64_eq (value : UInt64) (p : List UInt8) :
    (contentLengthDigits64 value p).map (fun r => (r.1.toNat, r.2)) =
      contentLengthDigits value.toNat p := by
  induction p generalizing value with
  | nil => rfl
  | cons c p ih =>
      rw [contentLengthDigits64, contentLengthDigits]
      by_cases hc : isDigit c = true
      · rw [if_pos hc, if_pos hc]
        by_cases hbig : value > (int64Max64 - digit64 c) / 10
        · rw [if_pos hbig, if_pos ((fits_iff hc).mp hbig), Option.map_none]
        · rw [if_neg hbig, if_neg (mt (fits_iff hc).mpr hbig), ih, (multiplication_fits hc hbig).2]
      · rw [if_neg hc, if_neg hc, Option.map_some]

/-! ### The walk and the lines -/

/-- The search for a second field ends, and finds a field if there is one. -/
theorem contentLengthAgain64_eq (n : Nat) {p : Pointer} (hp : p.Anchored)
    (hn : p.rest.length < n) :
    contentLengthAgain64 n p = some (hasField contentLengthFieldName n p.rest) := by
  induction n generalizing p with
  | zero => omega
  | succ n ih =>
      rw [contentLengthAgain64, hasField]
      by_cases hshort : p.rest.length < contentLengthFieldName.length
      · rw [if_pos hshort, if_pos hshort]
      · have hne : p.rest ≠ [] := fun h => hshort (by rw [h]; decide)
        have hlt := nextLine_length_lt hne
        rw [if_neg hshort, if_neg hshort]
        by_cases hstart : startsWithIgnoreCase contentLengthFieldName p.rest = true
        · rw [if_pos ⟨hp hne, hstart⟩, hstart, Bool.true_or]
        · rw [if_neg (fun h => hstart h.2), ih p.anchored_nextLine (by rw [Pointer.moveTo_rest]; omega),
            Pointer.moveTo_rest, Bool.not_eq_true _ |>.mp hstart, Bool.false_or]

theorem nextLine_length_le (p : List UInt8) : (nextLine p).length ≤ p.length := by
  by_cases hnil : p = []
  · rw [hnil]
    exact Nat.le_refl _
  · exact Nat.le_of_lt (nextLine_length_lt hnil)

/-- The search for a second field answers the same with more rounds. -/
theorem contentLengthAgain64_value (p : Pointer) (rest : List UInt8) :
    contentLengthAgain64 (rest.length + 1) ((p.moveTo rest).moveTo (nextLine rest)) =
      some (contentLengthAgain rest.length (nextLine rest)) := by
  have hle := nextLine_length_le rest
  have hanchored : ((p.moveTo rest).moveTo (nextLine rest)).Anchored :=
    Pointer.anchored_nextLine (p.moveTo rest)
  rw [contentLengthAgain64_eq (rest.length + 1) hanchored (Nat.lt_succ_of_le hle),
    contentLengthAgain_eq, Pointer.moveTo_rest]
  congr 1
  rw [Bool.eq_iff_iff, hasField_iff contentLengthFieldName_field _ _ (Nat.le_succ_of_le hle),
    hasField_iff contentLengthFieldName_field _ _ hle]

theorem contentLengthValue64_eq (p : Pointer) :
    contentLengthValue64 p = some (contentLengthValue p.rest) := by
  unfold contentLengthValue64 contentLengthValue
  dsimp only
  have hdigits := contentLengthDigits64_eq 0 (p.rest.dropWhile isBlank)
  rw [UInt64.toNat_zero] at hdigits
  rw [← hdigits]
  by_cases hdigit : (!isDigit ((p.rest.dropWhile isBlank).headD 0)) = true
  · rw [if_pos hdigit, if_pos hdigit]
  · rw [if_neg hdigit, if_neg hdigit]
    cases contentLengthDigits64 0 (p.rest.dropWhile isBlank) with
    | none => rfl
    | some r =>
        obtain ⟨value, rest⟩ := r
        rw [Option.map_some]
        dsimp only
        by_cases hend : (!isLineEnd ((rest.dropWhile isBlank).headD lf)) = true
        · rw [if_pos hend, if_pos hend]
        · rw [if_neg hend, if_neg hend, contentLengthAgain64_value, Option.map_some]

theorem contentLengthWalk64_eq (n : Nat) {p : Pointer} (hp : p.Anchored)
    (hn : p.rest.length < n) : contentLengthWalk64 n p = some (contentLengthWalk n p.rest) := by
  induction n generalizing p with
  | zero => omega
  | succ n ih =>
      rw [contentLengthWalk64, contentLengthWalk]
      by_cases hshort : p.rest.length < contentLengthFieldName.length
      · rw [if_pos hshort, if_pos hshort]
      · have hne : p.rest ≠ [] := fun h => hshort (by rw [h]; decide)
        have hlt := nextLine_length_lt hne
        rw [if_neg hshort, if_neg hshort]
        by_cases hstart : startsWithIgnoreCase contentLengthFieldName p.rest = true
        · rw [if_pos ⟨hp hne, hstart⟩, if_pos hstart, contentLengthValue64_eq, Pointer.moveTo_rest]
        · rw [if_neg (fun h => hstart h.2), if_neg hstart,
            ih p.anchored_nextLine (by rw [Pointer.moveTo_rest]; omega), Pointer.moveTo_rest]

theorem proxyParseContentLength64_eq (header : List UInt8) :
    proxyParseContentLength64 header = some (proxyParseContentLength header) :=
  contentLengthWalk64_eq _ (Pointer.anchored_start header) (Nat.lt_succ_self _)

/-- **The grammar of a length.** A length is returned if and only if one line is a `Content-Length`
field, with digits between blanks for a number that fits; none is found if and only if no line is
such a field; every other block is invalid. No product of the loop wraps. -/
theorem proxyParseContentLength_grammar (header : List UInt8) :
    (∀ n, proxyParseContentLength64 header = some (.length n) ↔
        ∃ l, fieldLines contentLengthFieldName header = [l] ∧
          IsLength (valueAt (l.drop contentLengthFieldName.length)) n) ∧
      (proxyParseContentLength64 header = some .missing ↔
        fieldLines contentLengthFieldName header = []) ∧
      (proxyParseContentLength64 header = some .invalid ↔
        fieldLines contentLengthFieldName header ≠ [] ∧
          ¬ ∃ l n, fieldLines contentLengthFieldName header = [l] ∧
            IsLength (valueAt (l.drop contentLengthFieldName.length)) n) ∧
      ∀ digits : List UInt8, ∀ m ∈ multiplications 0 digits,
        m.1.toNat * 10 + m.2.toNat ≤ int64Max := by
  obtain ⟨hmissing, hlength⟩ := proxyParseContentLength_iff header
  simp only [proxyParseContentLength64_eq, Option.some.injEq]
  refine ⟨hlength, hmissing, ?_, multiplications_fit 0⟩
  have hsome : fieldLines contentLengthFieldName header ≠ [] ↔
      proxyParseContentLength header ≠ .missing := not_congr hmissing.symm
  rw [hsome]
  constructor
  · intro hinvalid
    rw [hinvalid]
    refine ⟨by simp, ?_⟩
    rintro ⟨l, n, hl⟩
    have hgiven := (hlength n).mpr ⟨l, hl⟩
    rw [hinvalid] at hgiven
    cases hgiven
  · rintro ⟨hgiven, hnot⟩
    cases hresult : proxyParseContentLength header with
    | missing => exact absurd hresult hgiven
    | invalid => rfl
    | length n =>
        obtain ⟨l, hl⟩ := (hlength n).mp hresult
        exact absurd ⟨l, n, hl⟩ hnot

/-! ## Lists of tokens -/

section FieldLists

variable {σ ρ : Type} (onField : σ → σ) (onToken : σ → List UInt8 → Except ρ σ)

/-- The loop over the tokens of a value. Each token is handed to `onToken` with the blanks behind it
cut off, and may end the function (`error`). -/
def tokenLoop : Nat → σ → List UInt8 → Option (Except ρ (σ × List UInt8))
  | 0, _, _ => none
  | n + 1, s, p =>
      if p = [] ∨ isLineEnd (p.headD lf) then some (.ok (s, p))
      else
        let p := p.dropWhile (fun c => isBlank c || c == 44)
        let token := trimToken (p.takeWhile (fun c => !(c == 44 || isLineEnd c)))
        match onToken s token with
        | .error result => some (.error result)
        | .ok s => tokenLoop n s (p.dropWhile (fun c => !(c == 44 || isLineEnd c)))

/-- The loop over the lines, which hands every field of the name to `onField` and to the loop over
its tokens. Behind a value it goes on where it stands. -/
def fieldLoop (name : List UInt8) : Nat → σ → Pointer → Option (Except ρ σ)
  | 0, _, _ => none
  | n + 1, s, p =>
      if p.rest.length < name.length then some (.ok s)
      else if p.atLineStart ∧ startsWithIgnoreCase name p.rest then
        let value := p.rest.drop name.length
        match tokenLoop onToken (value.length + 1) (onField s) value with
        | none => none
        | some (.error result) => some (.error result)
        | some (.ok (s, rest)) => fieldLoop name n s (p.moveTo rest)
      else fieldLoop name n s (p.moveTo (nextLine p.rest))

/-- What the loop does on a field line. -/
def onLine (name : List UInt8) (s : σ) (line : List UInt8) : Except ρ σ :=
  (tokensOf (valueAt (line.drop name.length))).foldlM onToken (onField s)

variable {onField onToken}

/-- Nothing is done for an empty token. -/
def SkipsEmpty (onToken : σ → List UInt8 → Except ρ σ) : Prop := ∀ s, onToken s [] = .ok s

/-- The loop over the tokens ends, at the end of the value. -/
theorem tokenLoop_eq (hempty : SkipsEmpty onToken) (n : Nat) (s : σ) (p : List UInt8)
    (hn : p.length < n) :
    tokenLoop onToken n s p = some (do
      let s ← (tokensAt n p).foldlM onToken s
      return (s, p.dropWhile fun c => !isLineEnd c)) := by
  induction n generalizing s p with
  | zero => omega
  | succ n ih =>
      cases p with
      | nil => rfl
      | cons c rest =>
          rw [tokenLoop, tokensAt]
          by_cases hc : isLineEnd c = true
          · have hcond : c :: rest = [] ∨ isLineEnd ((c :: rest).headD lf) = true := Or.inr hc
            rw [if_pos hcond, if_pos hc, List.dropWhile_cons, if_neg (by simp [hc])]
            rfl
          · have hcond : ¬ (c :: rest = [] ∨ isLineEnd ((c :: rest).headD lf) = true) := by
              simpa using hc
            rw [if_neg hcond, if_neg hc]
            dsimp only
            have hlt := @tokensAt_round_lt c rest hc
            have hsame : ((((c :: rest).dropWhile fun c => isBlank c || c == 44).dropWhile
                fun c => !(c == 44 || isLineEnd c)).dropWhile fun c => !isLineEnd c) =
                (c :: rest).dropWhile fun c => !isLineEnd c := by
              rw [dropWhile_dropWhile_of_imp not_isLineEnd_of_inToken,
                dropWhile_dropWhile_of_imp not_isLineEnd_of_separator]
            generalize (c :: rest).dropWhile (fun c => isBlank c || c == 44) = q at hlt hsame ⊢
            have hround (s' : σ) := ih s' (q.dropWhile fun c => !(c == 44 || isLineEnd c)) (by omega)
            by_cases htoken : trimToken (q.takeWhile fun c => !(c == 44 || isLineEnd c)) = []
            · rw [htoken, hempty, if_pos rfl]
              dsimp only
              rw [hround, hsame]
            · rw [if_neg htoken, List.foldlM_cons]
              cases onToken s (trimToken (q.takeWhile fun c => !(c == 44 || isLineEnd c))) with
              | error result => rfl
              | ok s' =>
                  dsimp only
                  rw [hround, hsame]
                  rfl

/-- A pointer that does not stand at the start of a line. -/
def Pointer.Inside (p : Pointer) : Prop := p.atLineStart = false

/-- Behind the value of a field the pointer stands in the middle of its line. -/
theorem Pointer.inside_value {name : List UInt8} (hname : FieldName name) {p : Pointer}
    (hstart : startsWithIgnoreCase name p.rest = true) :
    (p.moveTo ((p.rest.drop name.length).dropWhile fun c => !isLineEnd c)).Inside := by
  have hfit := firstLine_of_field hname hstart
  have hsplit : p.rest = (p.rest.take name.length ++ valueAt (p.rest.drop name.length)) ++
      (p.rest.drop name.length).dropWhile fun c => !isLineEnd c := by
    rw [List.append_assoc, valueAt, List.takeWhile_append_dropWhile, List.take_append_drop]
  have hline : p.rest.take name.length = (p.rest.takeWhile (· ≠ lf)).take name.length := by
    conv_lhs => rw [← List.takeWhile_append_dropWhile (p := (· ≠ lf)) (l := p.rest)]
    rw [List.take_append_of_le_length hfit]
  have hno : ∀ c ∈ p.rest.take name.length ++ valueAt (p.rest.drop name.length), c ≠ lf := by
    intro c hc
    rcases List.mem_append.mp hc with hc | hc
    · rw [hline] at hc
      simpa using List.mem_takeWhile_imp (List.mem_of_mem_take hc)
    · have hend := List.mem_takeWhile_imp hc
      rintro rfl
      exact absurd hend (by decide)
  rcases List.eq_nil_or_concat (p.rest.take name.length ++ valueAt (p.rest.drop name.length))
    with hnil | ⟨a, c, hconcat⟩
  · have hpos := hname.pos
    have hlen := startsWithIgnoreCase_length hstart
    have hzero := congrArg List.length (List.append_eq_nil_iff.mp hnil).1
    rw [List.length_take, List.length_nil] at hzero
    omega
  · have hc : c ≠ lf := hno c (by rw [hconcat]; simp)
    rw [hconcat, List.concat_eq_append, List.append_assoc, List.singleton_append] at hsplit
    rw [Pointer.Inside, Pointer.atLineStart, Pointer.moveTo_before hsplit]
    simpa using hc

/-- **The loop over the lines** ends, and does for each field of the name, in order, what is to be
done for its tokens. -/
theorem fieldLoop_eq {name : List UInt8} (hname : FieldName name) (hempty : SkipsEmpty onToken)
    (n : Nat) :
    (∀ s (p : Pointer), p.Anchored → p.rest.length < n → fieldLoop onField onToken name n s p =
        some ((fieldLines name p.rest).foldlM (onLine onField onToken name) s)) ∧
      ∀ s (p : Pointer), p.Inside → p.rest.length < n → fieldLoop onField onToken name n s p =
        some ((fieldLines name (nextLine p.rest)).foldlM (onLine onField onToken name) s) := by
  induction n with
  | zero => exact ⟨fun s p _ h => absurd h (by omega), fun s p _ h => absurd h (by omega)⟩
  | succ n ih =>
      have hnext (s : σ) (p : Pointer) (hp : p.rest.length < n + 1)
          (hshort : ¬ p.rest.length < name.length) :
          fieldLoop onField onToken name n s (p.moveTo (nextLine p.rest)) =
            some ((fieldLines name (nextLine p.rest)).foldlM (onLine onField onToken name) s) := by
        have hne : p.rest ≠ [] := fun h => hshort (by rw [h]; exact hname.pos)
        have hlt := nextLine_length_lt hne
        exact ih.1 s _ p.anchored_nextLine (by rw [Pointer.moveTo_rest]; omega)
      constructor
      · intro s p hanchored hp
        rw [fieldLoop]
        by_cases hshort : p.rest.length < name.length
        · rw [if_pos hshort, fieldLines_of_short hname hshort]
          rfl
        · rw [if_neg hshort, fieldLines_step hname p.rest]
          have hne : p.rest ≠ [] := fun h => hshort (by rw [h]; exact hname.pos)
          by_cases hstart : startsWithIgnoreCase name p.rest = true
          · have hfit := firstLine_of_field hname hstart
            have hline : onLine onField onToken name s (p.rest.takeWhile (· ≠ lf)) =
                (tokensOf (valueAt (p.rest.drop name.length))).foldlM onToken (onField s) := by
              rw [onLine, valueAt_line p.rest _ hfit]
            have hrest : nextLine ((p.rest.drop name.length).dropWhile fun c => !isLineEnd c) =
                nextLine p.rest := by
              have hv : lf ∉ valueAt (p.rest.drop name.length) := by
                intro hm
                exact absurd (List.mem_takeWhile_imp hm) (by decide)
              rw [← nextLine_drop hfit, ← nextLine_append hv]
              exact congrArg nextLine List.takeWhile_append_dropWhile
            have hlen : ((p.rest.drop name.length).dropWhile fun c => !isLineEnd c).length < n := by
              have h1 := (List.dropWhile_suffix (fun c => !isLineEnd c)
                (l := p.rest.drop name.length)).length_le
              have h2 := hname.pos
              rw [List.length_drop] at h1
              omega
            rw [if_pos ⟨hanchored hne, hstart⟩, if_pos hstart, List.singleton_append,
              List.foldlM_cons, hline]
            dsimp only
            rw [tokenLoop_eq hempty _ _ _ (Nat.lt_succ_self _), tokensAt_eq (Nat.lt_succ_self _)]
            cases (tokensOf (valueAt (p.rest.drop name.length))).foldlM onToken (onField s) with
            | error result => rfl
            | ok s' =>
                have hgo := ih.2 s' _ (Pointer.inside_value hname hstart) hlen
                rw [Pointer.moveTo_rest, hrest] at hgo
                exact hgo
          · rw [if_neg (fun h => hstart h.2), if_neg hstart, List.nil_append]
            exact hnext s p hp hshort
      · intro s p hinside hp
        rw [fieldLoop]
        by_cases hshort : p.rest.length < name.length
        · have hle : (nextLine p.rest).length < name.length :=
            Nat.lt_of_le_of_lt (nextLine_length_le _) hshort
          rw [if_pos hshort, fieldLines_of_short hname hle]
          rfl
        · have hnot : ¬ (p.atLineStart = true ∧ startsWithIgnoreCase name p.rest = true) := by
            rw [hinside]
            simp
          rw [if_neg hshort, if_neg hnot]
          exact hnext s p hp hshort

end FieldLists

/-! ## What the tokens of a value are -/

/-- A piece without the blanks around it. -/
def trim (piece : List UInt8) : List UInt8 := trimToken (piece.dropWhile isBlank)

/-- The pieces of a value between its commas, without the blanks around them; empty pieces do not
count. -/
def piecesOf (value : List UInt8) : List (List UInt8) :=
  ((value.splitOn 44).map trim).filter (· ≠ [])

@[simp] theorem trim_nil : trim [] = [] := rfl

theorem trim_blank {c : UInt8} (hc : isBlank c = true) (piece : List UInt8) :
    trim (c :: piece) = trim piece := by
  rw [trim, trim, List.dropWhile_cons, if_pos hc]

theorem piecesOf_nil : piecesOf [] = [] := rfl

/-- A piece and what follows its comma. -/
theorem piecesOf_comma {piece : List UInt8} (hpiece : (44 : UInt8) ∉ piece) (rest : List UInt8) :
    piecesOf (piece ++ 44 :: rest) =
      (if trim piece = [] then [] else [trim piece]) ++ piecesOf rest := by
  unfold piecesOf
  rw [List.splitOn_append_cons_self, List.splitOn_eq_singleton hpiece, List.map_append,
    List.filter_append, List.map_singleton]
  split_ifs with h <;> simp [h]

theorem piecesOf_last {piece : List UInt8} (hpiece : (44 : UInt8) ∉ piece) :
    piecesOf piece = if trim piece = [] then [] else [trim piece] := by
  unfold piecesOf
  rw [List.splitOn_eq_singleton hpiece, List.map_singleton]
  split_ifs with h <;> simp [h]

/-- Blanks in front of a value belong to no piece. -/
theorem splitOn_trim_blank {c : UInt8} (hc : isBlank c = true) (value : List UInt8) :
    ((c :: value).splitOn 44).map trim = (value.splitOn 44).map trim := by
  have hbeq : (c == 44) = false := by
    rw [beq_eq_false_iff_ne]
    rintro rfl
    exact absurd hc (by decide)
  rw [List.splitOn_cons_eq_if_modifyHead, hbeq, if_neg (by simp)]
  obtain ⟨piece, pieces, hsplit⟩ := List.exists_cons_of_ne_nil (List.splitOn_ne_nil 44 value)
  rw [hsplit, List.modifyHead_cons, List.map_cons, List.map_cons, trim_blank hc]

/-- Separators in front of a value do not count. -/
theorem piecesOf_separator {c : UInt8} (hc : (isBlank c || c == 44) = true) (value : List UInt8) :
    piecesOf (c :: value) = piecesOf value := by
  by_cases hcomma : c = 44
  · have h := @piecesOf_comma [] (by simp) value
    rw [trim_nil, if_pos rfl, List.nil_append, List.nil_append, ← hcomma] at h
    exact h
  · have hblank : isBlank c = true := by simpa [hcomma] using hc
    rw [piecesOf, piecesOf, splitOn_trim_blank hblank]

theorem piecesOf_dropWhile (value : List UInt8) :
    piecesOf (value.dropWhile fun c => isBlank c || c == 44) = piecesOf value := by
  induction value with
  | nil => rfl
  | cons c value ih =>
      by_cases hc : (isBlank c || c == 44) = true
      · rw [List.dropWhile_cons, if_pos hc, ih, piecesOf_separator hc]
      · rw [List.dropWhile_cons, if_neg hc]

theorem takeWhile_congr_mem {q r : UInt8 → Bool} {l : List UInt8} (h : ∀ c ∈ l, q c = r c) :
    l.takeWhile q = l.takeWhile r := by
  induction l with
  | nil => rfl
  | cons c l ih =>
      rw [List.forall_mem_cons] at h
      rw [List.takeWhile_cons, List.takeWhile_cons, h.1, ih h.2]

/-- **The tokens of a value are its pieces.** -/
theorem tokensAt_pieces (n : Nat) {value : List UInt8} (hn : value.length < n)
    (hline : ∀ c ∈ value, isLineEnd c = false) : tokensAt n value = piecesOf value := by
  induction n generalizing value with
  | zero => omega
  | succ n ih =>
      cases value with
      | nil => rfl
      | cons c rest =>
          have hc : ¬ isLineEnd c = true := by simp [hline c List.mem_cons_self]
          have hlt := @tokensAt_round_lt c rest hc
          have hsub := (List.dropWhile_suffix (fun c => isBlank c || c == 44)
            (l := c :: rest)).subset
          have hhead := List.head?_dropWhile_not (fun c => isBlank c || c == 44) (c :: rest)
          rw [tokensAt, if_neg hc, ← piecesOf_dropWhile]
          dsimp only
          generalize (c :: rest).dropWhile (fun c => isBlank c || c == 44) = q at hlt hsub hhead ⊢
          -- no line end is left: a token goes to the next comma
          have hsame : ∀ d ∈ q, (!(d == 44 || isLineEnd d)) = !(d == 44) := by
            intro d hd
            rw [hline d (hsub hd), Bool.or_false]
          have htake : q.takeWhile (fun c => !(c == 44 || isLineEnd c)) =
              q.takeWhile (fun c => !(c == 44)) := takeWhile_congr_mem hsame
          have hdrop : q.dropWhile (fun c => !(c == 44 || isLineEnd c)) =
              q.dropWhile (fun c => !(c == 44)) := by
            have hsplit := List.takeWhile_append_dropWhile (l := q)
              (p := fun c => !(c == 44 || isLineEnd c))
            rw [htake] at hsplit
            conv_rhs at hsplit => rw [← List.takeWhile_append_dropWhile (l := q)
              (p := fun c => !(c == 44))]
            exact List.append_cancel_left hsplit
          rw [hdrop] at hlt ⊢
          rw [htake, ih (Nat.lt_of_lt_of_le hlt (Nat.le_of_lt_succ hn)) (fun d hd =>
            hline d (hsub ((List.dropWhile_suffix _).subset hd)))]
          have hno : (44 : UInt8) ∉ q.takeWhile (fun c => !(c == 44)) := by
            intro hm
            simpa using List.mem_takeWhile_imp hm
          have htrim : trim (q.takeWhile fun c => !(c == 44)) =
              trimToken (q.takeWhile fun c => !(c == 44)) := by
            cases q with
            | nil => rfl
            | cons d q =>
                have hd : isBlank d = false := by
                  have : (isBlank d || d == 44) = false := by simpa using hhead
                  exact (Bool.or_eq_false_iff.mp this).1
                by_cases hcomma : d = 44
                · simp [hcomma, trim]
                · rw [List.takeWhile_cons, if_pos (by simpa using hcomma), trim, List.dropWhile_cons,
                    if_neg (by simp [hd])]
          have hsplit : q = q.takeWhile (fun c => !(c == 44)) ++ q.dropWhile (fun c => !(c == 44)) :=
            List.takeWhile_append_dropWhile.symm
          have hstop := List.head?_dropWhile_not (fun c => !(c == (44 : UInt8))) q
          conv_rhs => rw [hsplit]
          cases hrest : q.dropWhile (fun c => !(c == 44)) with
          | nil =>
              rw [List.append_nil, piecesOf_last hno, htrim, piecesOf_nil]
          | cons d later =>
              rw [hrest] at hstop
              have hd : d = 44 := by simpa using hstop
              rw [hd, piecesOf_comma hno, htrim, piecesOf_separator (by decide)]
              split_ifs <;> rfl

theorem valueAt_isLineEnd (p : List UInt8) : ∀ c ∈ valueAt p, isLineEnd c = false := by
  intro c hc
  simpa using List.mem_takeWhile_imp hc

theorem tokensOf_pieces (p : List UInt8) : tokensOf (valueAt p) = piecesOf (valueAt p) :=
  tokensAt_pieces _ (Nat.lt_succ_self _) (valueAt_isLineEnd p)

/-- The pieces of all fields of the name, in order. -/
def fieldPieces (name block : List UInt8) : List (List UInt8) :=
  (fieldLines name block).flatMap fun l => piecesOf (valueAt (l.drop name.length))

/-! ## The last transfer coding -/

/-- `seen`, and `last_tok` with `last_len`. -/
structure CodingScan where
  seen : Bool
  lastTok : List UInt8

/-- What is done for a `Transfer-Encoding` field. -/
def codingSeen (s : CodingScan) : CodingScan := { s with seen := true }

/-- What is done for a token of a `Transfer-Encoding` field. -/
def keepCoding (s : CodingScan) (token : List UInt8) : Except ProxyTeMode CodingScan :=
  if token.length > 0 then .ok { s with lastTok := token } else .ok s

/-- The end of `proxy_check_transfer_encoding`. -/
def codingMode (s : CodingScan) : ProxyTeMode :=
  if s.seen = false then .none
  else if s.lastTok.length = 7 ∧ startsWithIgnoreCase (ascii "chunked") s.lastTok then .chunked
  else .other

/-- `proxy_check_transfer_encoding` as one walk. -/
def proxyCheckTransferEncodingWalk (header : List UInt8) : Option ProxyTeMode :=
  match fieldLoop codingSeen keepCoding transferEncodingFieldName
      (header.length + 1) ⟨false, []⟩ (.start header) with
  | none => none
  | some (.error mode) => some mode
  | some (.ok s) => some (codingMode s)

theorem keepCoding_skipsEmpty : SkipsEmpty keepCoding := fun _ => rfl

/-- The tokens of a value: the last of them is kept. -/
theorem keepCodings {tokens : List (List UInt8)} (h : ∀ t ∈ tokens, t ≠ []) (s : CodingScan) :
    tokens.foldlM keepCoding s = .ok { s with lastTok := tokens.getLastD s.lastTok } := by
  induction tokens generalizing s with
  | nil => rfl
  | cons t tokens ih =>
      rw [List.forall_mem_cons] at h
      have hkeep : keepCoding s t = .ok { s with lastTok := t } := by
        rw [keepCoding, if_pos (List.length_pos_of_ne_nil h.1)]
      rw [List.foldlM_cons, hkeep, List.getLastD_cons]
      exact ih h.2 _

theorem piecesOf_ne_nil {value : List UInt8} : ∀ t ∈ piecesOf value, t ≠ [] := by
  intro t ht
  simpa using (List.mem_filter.mp ht).2

theorem getLastD_append {α : Type} (a b : List α) (d : α) :
    (a ++ b).getLastD d = b.getLastD (a.getLastD d) := by
  rw [List.getLastD_eq_getLast?, List.getLastD_eq_getLast?, List.getLastD_eq_getLast?,
    List.getLast?_append]
  cases b.getLast? <;> rfl

/-- The fields of a block: `seen` is set by the first, and the last token of all is kept. -/
theorem keepFields (ls : List (List UInt8)) (s : CodingScan) :
    ls.foldlM (onLine codingSeen keepCoding transferEncodingFieldName) s =
      .ok ⟨s.seen || !ls.isEmpty, (ls.flatMap fun l =>
        piecesOf (valueAt (l.drop transferEncodingFieldName.length))).getLastD s.lastTok⟩ := by
  induction ls generalizing s with
  | nil =>
      rw [List.isEmpty_nil, Bool.not_true, Bool.or_false]
      rfl
  | cons l ls ih =>
      rw [List.foldlM_cons, onLine, tokensOf_pieces, keepCodings piecesOf_ne_nil]
      refine (ih _).trans ?_
      rw [List.flatMap_cons, getLastD_append]
      simp [codingSeen]

/-- The comparison with a length is the comparison of the whole token. -/
theorem sameIgnoreCase_iff_length {name token : List UInt8} :
    sameIgnoreCase token name = true ↔
      token.length = name.length ∧ startsWithIgnoreCase name token = true := by
  rw [sameIgnoreCase, beq_iff_eq, startsWithIgnoreCase_iff]
  constructor
  · intro h
    have hlen := congrArg List.length h
    rw [List.length_map, List.length_map] at hlen
    exact ⟨hlen, h ▸ List.prefix_rfl⟩
  · rintro ⟨hlen, hp⟩
    exact (hp.eq_of_length (by rw [List.length_map, List.length_map, hlen])).symm

/-- **The mode of a block.** The walk ends. It finds no field if and only if no line is a
`Transfer-Encoding` field, and `chunked` if and only if that is the last of the codings of all
fields, without case. -/
theorem proxyCheckTransferEncoding_codings (header : List UInt8) :
    ∃ mode, proxyCheckTransferEncodingWalk header = some mode ∧
      (mode = .none ↔ fieldLines transferEncodingFieldName header = []) ∧
      (mode = .chunked ↔ ∃ coding, (fieldPieces transferEncodingFieldName header).getLast? =
        some coding ∧ sameIgnoreCase coding (ascii "chunked") = true) ∧
      (mode = .other ↔ fieldLines transferEncodingFieldName header ≠ [] ∧
        ¬ ∃ coding, (fieldPieces transferEncodingFieldName header).getLast? =
          some coding ∧ sameIgnoreCase coding (ascii "chunked") = true) := by
  have hloop := (@fieldLoop_eq _ _ codingSeen _ _ transferEncodingFieldName_field
    keepCoding_skipsEmpty (header.length + 1)).1 ⟨false, []⟩ (.start header)
    (Pointer.anchored_start header) (Nat.lt_succ_self _)
  rw [keepFields] at hloop
  refine ⟨_, by rw [proxyCheckTransferEncodingWalk, hloop], ?_⟩
  have hpieces : (fieldLines transferEncodingFieldName header).flatMap
      (fun l => piecesOf (valueAt (l.drop transferEncodingFieldName.length))) =
      fieldPieces transferEncodingFieldName header := rfl
  have hempty : fieldLines transferEncodingFieldName header = [] →
      fieldPieces transferEncodingFieldName header = [] := by
    intro h
    rw [fieldPieces, h]
    rfl
  dsimp only [Pointer.start]
  rw [hpieces, Bool.false_or]
  unfold codingMode
  dsimp only
  by_cases hnone : fieldLines transferEncodingFieldName header = []
  · rw [hempty hnone, hnone]
    simp
  · have hseen : (!(fieldLines transferEncodingFieldName header).isEmpty) = true := by
      simpa using hnone
    have hmode : (((fieldPieces transferEncodingFieldName header).getLastD []).length = 7 ∧
        startsWithIgnoreCase (ascii "chunked")
          ((fieldPieces transferEncodingFieldName header).getLastD []) = true) ↔
        ∃ coding, (fieldPieces transferEncodingFieldName header).getLast? = some coding ∧
          sameIgnoreCase coding (ascii "chunked") = true := by
      rw [List.getLastD_eq_getLast?]
      cases (fieldPieces transferEncodingFieldName header).getLast? with
      | none => simp
      | some coding =>
          have hlen : (ascii "chunked").length = 7 := rfl
          simp only [Option.getD_some, Option.some.injEq, exists_eq_left', sameIgnoreCase_iff_length,
            hlen]
    rw [hseen, if_neg (by simp)]
    by_cases hlast : ((fieldPieces transferEncodingFieldName header).getLastD []).length = 7 ∧
        startsWithIgnoreCase (ascii "chunked")
          ((fieldPieces transferEncodingFieldName header).getLastD []) = true
    · have hchunked := hmode.mp hlast
      rw [if_pos hlast]
      simp [hnone, hchunked]
    · have hother := mt hmode.mpr hlast
      rw [if_neg hlast]
      simp [hnone, hother]

/-- The tokens that the walk of `HeaderFields` collects are the pieces. -/
theorem fieldTokens_pieces {name : List UInt8} (hname : FieldName name) (header : List UInt8) :
    fieldTokens name (header.length + 1) true header = fieldPieces name header := by
  rw [(fieldTokens_eq hname _).1 header (Nat.lt_succ_self _), fieldPieces]
  congr 1
  funext l
  exact tokensOf_pieces _

/-- The one walk gives what the two walks of `HeaderFields` give. -/
theorem proxyCheckTransferEncodingWalk_eq (header : List UInt8) :
    proxyCheckTransferEncodingWalk header = some (proxyCheckTransferEncoding header) := by
  obtain ⟨mode, hwalk, hnone, hchunked, hother⟩ := proxyCheckTransferEncoding_codings header
  rw [hwalk]
  congr 1
  have hfield := hasField_iff transferEncodingFieldName_field (header.length + 1) header
    (Nat.le_succ _)
  unfold proxyCheckTransferEncoding
  rw [fieldTokens_pieces transferEncodingFieldName_field]
  by_cases hlines : fieldLines transferEncodingFieldName header = []
  · rw [if_neg (fun h => hfield.mp h hlines)]
    exact hnone.mpr hlines
  · rw [if_pos (hfield.mpr hlines)]
    cases hlast : (fieldPieces transferEncodingFieldName header).getLast? with
    | none => exact hother.mpr ⟨hlines, by simp [hlast]⟩
    | some coding =>
        dsimp only
        split_ifs with hsame
        · exact hchunked.mpr ⟨coding, hlast, hsame⟩
        · exact hother.mpr ⟨hlines, by simpa [hlast] using hsame⟩

/-! ## The tokens of a `Connection` field -/

/-- What is done for a token of a `Connection` field. -/
def findUpgrade (_ : Unit) (token : List UInt8) : Except Bool Unit :=
  if token.length = 7 ∧ startsWithIgnoreCase (ascii "upgrade") token then .error true else .ok ()

/-- `proxy_header_has_connection_upgrade` -/
def proxyHeaderHasConnectionUpgradeWalk (header : List UInt8) : Option Bool :=
  match fieldLoop id findUpgrade connectionFieldName (header.length + 1) () (.start header) with
  | none => none
  | some (.error found) => some found
  | some (.ok ()) => some false

theorem findUpgrade_skipsEmpty : SkipsEmpty findUpgrade := fun _ => rfl

/-- The tokens of a value. -/
theorem findUpgrades (tokens : List (List UInt8)) :
    tokens.foldlM findUpgrade () =
      if tokens.any (fun token => sameIgnoreCase token (ascii "upgrade")) then .error true
      else .ok () := by
  induction tokens with
  | nil => rfl
  | cons token tokens ih =>
      have hlen : (ascii "upgrade").length = 7 := rfl
      rw [List.foldlM_cons, findUpgrade, List.any_cons]
      by_cases hsame : sameIgnoreCase token (ascii "upgrade") = true
      · have htoken := sameIgnoreCase_iff_length.mp hsame
        rw [hlen] at htoken
        rw [if_pos htoken, if_pos (by rw [hsame, Bool.true_or])]
        rfl
      · have htoken := mt sameIgnoreCase_iff_length.mpr hsame
        rw [hlen] at htoken
        rw [if_neg htoken, Bool.not_eq_true _ |>.mp hsame, Bool.false_or]
        exact ih

/-- The fields of a block. -/
theorem findUpgradeFields (ls : List (List UInt8)) :
    ls.foldlM (onLine id findUpgrade connectionFieldName) () =
      if (ls.flatMap fun l => piecesOf (valueAt (l.drop connectionFieldName.length))).any
        (fun token => sameIgnoreCase token (ascii "upgrade")) then .error true else .ok () := by
  induction ls with
  | nil => rfl
  | cons l ls ih =>
      rw [List.foldlM_cons, onLine, tokensOf_pieces, id, findUpgrades, List.flatMap_cons,
        List.any_append]
      by_cases hline : (piecesOf (valueAt (l.drop connectionFieldName.length))).any
          (fun token => sameIgnoreCase token (ascii "upgrade")) = true
      · rw [if_pos hline, if_pos (by rw [hline, Bool.true_or])]
        rfl
      · rw [if_neg hline, Bool.not_eq_true _ |>.mp hline, Bool.false_or]
        exact ih

theorem proxyHeaderHasConnectionUpgradeWalk_eq (header : List UInt8) :
    proxyHeaderHasConnectionUpgradeWalk header =
      some ((fieldPieces connectionFieldName header).any
        (fun token => sameIgnoreCase token (ascii "upgrade"))) := by
  have hloop := (@fieldLoop_eq _ _ id _ _ connectionFieldName_field findUpgrade_skipsEmpty
    (header.length + 1)).1 () (.start header) (Pointer.anchored_start header) (Nat.lt_succ_self _)
  rw [findUpgradeFields] at hloop
  rw [proxyHeaderHasConnectionUpgradeWalk, hloop]
  change (match some (if (fieldPieces connectionFieldName header).any
    (fun token => sameIgnoreCase token (ascii "upgrade")) then Except.error true else .ok ()) with
    | none => none
    | some (.error found) => some found
    | some (.ok ()) => some false) = _
  cases (fieldPieces connectionFieldName header).any
    (fun token => sameIgnoreCase token (ascii "upgrade")) <;> rfl

/-- The one walk gives what `HeaderFields` says. -/
theorem proxyHeaderHasConnectionUpgradeWalk_some (header : List UInt8) :
    proxyHeaderHasConnectionUpgradeWalk header = some (proxyHeaderHasConnectionUpgrade header) := by
  rw [proxyHeaderHasConnectionUpgradeWalk_eq, proxyHeaderHasConnectionUpgrade,
    fieldTokens_pieces connectionFieldName_field]

/-! ### The scan of the server -/

/-- The two spellings of each letter that the server compares a token with. -/
def upgradeLetters : List (UInt8 × UInt8) :=
  [(85, 117), (112, 80), (103, 71), (114, 82), (97, 65), (100, 68), (101, 69)]

/-- `token_len == 7 && (token_start[0] == 'U' || token_start[0] == 'u') && ...` -/
def isUpgradeToken (token : List UInt8) : Bool :=
  token.length == 7 && (token.zip upgradeLetters).all fun c => c.1 == c.2.1 || c.1 == c.2.2

/-- The scan of `checkIskWebsocketConnection` over the C string `header->Connection`. -/
def upgradeScan : Nat → List UInt8 → Option Bool
  | 0, _ => none
  | n + 1, p =>
      if p = [] then some false
      else
        let p := p.dropWhile isBlank
        let token := trimToken (p.takeWhile (· ≠ 44))
        if isUpgradeToken token then some true
        else upgradeScan n ((p.dropWhile (· ≠ 44)).drop 1)

/-- `upgrade_found` -/
def upgradeFound (connection : List UInt8) : Option Bool :=
  upgradeScan (connection.length + 1) connection

/-- The letters are those of the name, in both cases. -/
theorem isUpgradeToken_eq (token : List UInt8) :
    isUpgradeToken token = sameIgnoreCase token (ascii "upgrade") := by
  have hu : ∀ c : UInt8, (c == 85 || c == 117) = (toLower c == 117) :=
    forall_byte (by decide +kernel)
  have hp : ∀ c : UInt8, (c == 112 || c == 80) = (toLower c == 112) :=
    forall_byte (by decide +kernel)
  have hg : ∀ c : UInt8, (c == 103 || c == 71) = (toLower c == 103) :=
    forall_byte (by decide +kernel)
  have hr : ∀ c : UInt8, (c == 114 || c == 82) = (toLower c == 114) :=
    forall_byte (by decide +kernel)
  have ha : ∀ c : UInt8, (c == 97 || c == 65) = (toLower c == 97) :=
    forall_byte (by decide +kernel)
  have hd : ∀ c : UInt8, (c == 100 || c == 68) = (toLower c == 100) :=
    forall_byte (by decide +kernel)
  have he : ∀ c : UInt8, (c == 101 || c == 69) = (toLower c == 101) :=
    forall_byte (by decide +kernel)
  have hname : (ascii "upgrade").map toLower = [117, 112, 103, 114, 97, 100, 101] := by decide
  unfold isUpgradeToken sameIgnoreCase upgradeLetters
  rw [hname]
  by_cases hlen : token.length = 7
  · match token, hlen with
    | [c0, c1, c2, c3, c4, c5, c6], _ =>
        simp only [List.zip_cons_cons, List.zip_nil_right, List.all_cons, List.all_nil, hu, hp, hg, hr,
          ha, hd, he, List.map_cons, List.map_nil, List.length_cons, List.length_nil]
        rw [Bool.eq_iff_iff]
        simp
  · have hne : ¬ token.map toLower = [117, 112, 103, 114, 97, 100, 101] := by
      intro h
      have hl := congrArg List.length h
      rw [List.length_map] at hl
      exact hlen hl
    rw [beq_eq_false_iff_ne.mpr hlen, beq_eq_false_iff_ne.mpr hne, Bool.false_and]

theorem splitOn_trim_blanks (value : List UInt8) :
    ((value.dropWhile isBlank).splitOn 44).map trim = (value.splitOn 44).map trim := by
  induction value with
  | nil => rfl
  | cons c value ih =>
      by_cases hc : isBlank c = true
      · rw [List.dropWhile_cons, if_pos hc, ih, splitOn_trim_blank hc]
      · rw [List.dropWhile_cons, if_neg hc]

/-- A token that starts with no blank has its blanks cut off behind. -/
theorem trim_of_head {token : List UInt8} (h : token.head?.all (fun c => !isBlank c)) :
    trim token = trimToken token := by
  cases token with
  | nil => rfl
  | cons c token =>
      have hc : isBlank c = false := by simpa using h
      rw [trim, List.dropWhile_cons, if_neg (by simp [hc])]

/-- **The scan of the server** ends, and asks the pieces of the value. -/
theorem upgradeScan_eq (n : Nat) {p : List UInt8} (hn : p.length < n) :
    upgradeScan n p = some (((p.splitOn 44).map trim).any isUpgradeToken) := by
  induction n generalizing p with
  | zero => omega
  | succ n ih =>
      rw [upgradeScan]
      by_cases hp : p = []
      · rw [if_pos hp, hp]
        rfl
      · rw [if_neg hp, ← splitOn_trim_blanks]
        dsimp only
        have hpos := List.length_pos_of_ne_nil hp
        have hle := (List.dropWhile_suffix isBlank (l := p)).length_le
        have hhead := List.head?_dropWhile_not isBlank p
        generalize p.dropWhile isBlank = q at hle hhead ⊢
        have hsplit : q = q.takeWhile (· ≠ 44) ++ q.dropWhile (· ≠ 44) :=
          List.takeWhile_append_dropWhile.symm
        have hno : (44 : UInt8) ∉ q.takeWhile (· ≠ 44) := by
          intro hm
          simpa using List.mem_takeWhile_imp hm
        have htrim : trim (q.takeWhile (· ≠ 44)) = trimToken (q.takeWhile (· ≠ 44)) := by
          apply trim_of_head
          cases q with
          | nil => rfl
          | cons d q =>
              have hd : isBlank d = false := by simpa using hhead
              rw [List.takeWhile_cons]
              split_ifs <;> simp [hd]
        have hstop := List.head?_dropWhile_not (· ≠ (44 : UInt8)) q
        conv_rhs => rw [hsplit]
        cases hrest : q.dropWhile (· ≠ 44) with
        | nil =>
            have hempty : upgradeScan n [] = some false := by
              obtain ⟨m, rfl⟩ := Nat.exists_eq_succ_of_ne_zero (n := n) (by omega)
              rfl
            rw [List.append_nil, List.splitOn_eq_singleton hno, List.map_singleton, htrim,
              List.any_cons, List.any_nil, Bool.or_false, List.drop_nil, hempty]
            cases isUpgradeToken (trimToken (q.takeWhile (· ≠ 44))) <;> rfl
        | cons d later =>
            have hd : d = 44 := by
              rw [hrest] at hstop
              simpa using hstop
            have hlt : later.length < n := by
              have hlen := congrArg List.length hsplit
              rw [hrest, List.length_append, List.length_cons] at hlen
              omega
            rw [hd, List.splitOn_append_cons_self, List.splitOn_eq_singleton hno, List.map_append,
              List.map_singleton, List.singleton_append, List.any_cons, htrim, List.drop_succ_cons,
              List.drop_zero, ih hlt]
            cases isUpgradeToken (trimToken (q.takeWhile (· ≠ 44))) <;> rfl

/-- Empty pieces are no upgrades. -/
theorem any_upgrade_pieces (value : List UInt8) :
    (piecesOf value).any (fun token => sameIgnoreCase token (ascii "upgrade")) =
      ((value.splitOn 44).map trim).any isUpgradeToken := by
  have hempty : sameIgnoreCase [] (ascii "upgrade") = false := by decide
  unfold piecesOf
  generalize (value.splitOn 44).map trim = pieces
  induction pieces with
  | nil => rfl
  | cons piece pieces ih =>
      rw [List.filter_cons, List.any_cons, ← ih, isUpgradeToken_eq]
      by_cases hpiece : piece = []
      · rw [hpiece, if_neg (by simp), hempty, Bool.false_or]
      · rw [if_pos (by simpa using hpiece), List.any_cons]

/-- The tokens that `KeepAlive` names are the pieces. -/
theorem connectionTokens_eq (value : List UInt8) :
    connectionTokens value = (value.splitOn 44).map trim := by
  have hblank : (fun c : UInt8 => decide (c = 32 ∨ c = 9)) = isBlank := by
    funext c
    rw [Bool.eq_iff_iff]
    simp [isBlank]
  rw [connectionTokens, hblank]
  rfl

/-- The scan of the server gives what `KeepAlive` says. -/
theorem upgradeFound_eq (connection : List UInt8) :
    upgradeFound connection =
      some ((connectionTokens connection).any (sameIgnoreCase (ascii "Upgrade"))) := by
  have hsame (token : List UInt8) :
      isUpgradeToken token = sameIgnoreCase (ascii "Upgrade") token := by
    have hname : (ascii "upgrade").map toLower = (ascii "Upgrade").map toLower := by decide
    rw [isUpgradeToken_eq, sameIgnoreCase, sameIgnoreCase, hname, Bool.beq_comm]
  rw [upgradeFound, upgradeScan_eq _ (Nat.lt_succ_self _), connectionTokens_eq]
  congr 2
  funext token
  exact hsame token

/-- **The two scans agree** on a value without CR, LF and NUL: the server looks at the value itself,
the proxy at a block whose only `Connection` field has it, with blanks before it and a CR or the end
of the line behind it. -/
theorem connection_scans_agree {value block line blanks tail : List UInt8}
    (hvalue : NoLineBreak value) (hnul : (0 : UInt8) ∉ value)
    (hblock : fieldLines connectionFieldName block = [line])
    (hline : line.drop connectionFieldName.length = blanks ++ value ++ tail)
    (hblanks : ∀ c ∈ blanks, isBlank c = true) (htail : tail = [] ∨ tail.head? = some cr) :
    ∃ found, upgradeFound (cString value) = some found ∧
      proxyHeaderHasConnectionUpgradeWalk block = some found := by
  have hat : valueAt (line.drop connectionFieldName.length) = blanks ++ value := by
    rw [hline]
    apply valueAt_append
    · intro c hc
      rcases List.mem_append.mp hc with hc | hc
      · exact isLineEnd_of_isBlank (hblanks c hc)
      · have hcr : c ≠ cr := fun h => hvalue.1 (h ▸ hc)
        have hlf : c ≠ lf := fun h => hvalue.2 (h ▸ hc)
        simp [isLineEnd, hcr, hlf]
    · rcases htail with rfl | htail
      · rfl
      · cases tail with
        | nil => rfl
        | cons c tail =>
            rw [List.head?_cons, Option.some.injEq] at htail
            rw [htail]
            rfl
  have hpieces : fieldPieces connectionFieldName block = piecesOf value := by
    rw [fieldPieces, hblock, List.flatMap_singleton, hat]
    clear hat hline
    induction blanks with
    | nil => rfl
    | cons c blanks ih =>
        rw [List.forall_mem_cons] at hblanks
        rw [List.cons_append, piecesOf_separator (by rw [hblanks.1, Bool.true_or]), ih hblanks.2]
  refine ⟨_, upgradeScan_eq _ (Nat.lt_succ_self _), ?_⟩
  rw [proxyHeaderHasConnectionUpgradeWalk_eq, hpieces, any_upgrade_pieces, cString_of_not_mem hnul]

theorem connection_scans_agree_list :
    ∃ found, upgradeFound (cString (ascii "keep-alive, upgrade")) = some found ∧
      proxyHeaderHasConnectionUpgradeWalk
        (ascii "GET / HTTP/1.1\r\nConnection: keep-alive, upgrade\r\n\r\n") = some found :=
  @connection_scans_agree _ _ (ascii "Connection: keep-alive, upgrade\r") [32] [cr]
    ⟨by decide, by decide⟩ (by decide) (by decide +kernel) (by decide +kernel)
    (by decide +kernel) (Or.inr rfl)

end CWebUI.Proxy
