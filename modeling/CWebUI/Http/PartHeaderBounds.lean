import CWebUI.Basic.Checked
import CWebUI.Http.SubstringSearch

set_option autoImplicit false

/-! # A part header in memory

`analyseFormDataLine` (`header_parser.c`) on the bytes of a part header and the terminator behind
them. It keeps a pointer into the line and the number of bytes behind it, which has no sign. A read
behind the terminator, or a number that would go below zero, ends a run. There are no such runs:
every run has the result of `analyseFormDataLine` on lists, whatever the bytes are.
-/

namespace CWebUI.Http

open ByteString

/-! ## The model -/

/-- What ends a run: a read behind the terminator of the line or of a literal, an unsigned number
that goes below zero, or a loop that goes on without an end. -/
inductive LineFault where
  | line (position : Nat)
  | literal (position : Nat)
  | underflow
  | endless
  deriving DecidableEq, Repr

/-- What `CHECK_HEADER_LINE2` finds at a place of the line: not the field, a field without an end of
line or with a null byte in it, or its value and how far the pointer moves. -/
inductive FieldAt where
  | other
  | malformed
  | value (v : List UInt8) (advance : Nat)
  deriving DecidableEq, Repr

namespace LineBytes

/-- `line[p]` -/
def readAt (line : List UInt8) (p : Nat) : Except LineFault UInt8 := Checked.get .line line p

/-- `a - b` for unsigned numbers. -/
def subtract (a b : Nat) : Except LineFault Nat := Checked.fit a .underflow b (a - b)

/-- `strncmp` and `strncasecmp` with the length of a literal. They stop at the first difference; a
literal has no null byte in it, so that a null byte of the line is one. -/
def compareAt (same : UInt8 → UInt8 → Bool) (line : List UInt8) :
    Nat → List UInt8 → Except LineFault Bool
  | _, [] => .ok true
  | p, t :: ts => do
      if same t (← readAt line p) then compareAt same line (p + 1) ts else return false

/-- The loop of `stringnfind` at the place `p` of the line, with the number of bytes that it has not
looked at. -/
def stringnfindLoop (line pattern : List UInt8) (p : Nat) :
    Nat → Nat → Nat → Except LineFault (Option Nat)
  | 0, _, _ => .ok none
  | n + 1, i, i2 => do
      if (← readAt line (p + i)) = (← Checked.get .literal (pattern ++ [0]) i2) then
        if (← Checked.get .literal (pattern ++ [0]) (i2 + 1)) = 0 then return some i
        else stringnfindLoop line pattern p n (i + 1) (i2 + 1)
      else stringnfindLoop line pattern p n (i + 1) 0

/-- The `n` bytes from a place on, as `memchr` and `strncpy` read them. -/
def readBytes (line : List UInt8) : Nat → Nat → Except LineFault (List UInt8)
  | 0, _ => .ok []
  | n + 1, p => do
      let c ← readAt line p
      let cs ← readBytes line n (p + 1)
      return c :: cs

/-- `CHECK_HEADER_LINE2` for the field `name`. -/
def checkHeaderLine2 (line name : List UInt8) (line2 length2 : Nat) :
    Except LineFault FieldAt := do
  if ← compareAt (fun t c => toLower t == toLower c) line line2 name then
    match ← stringnfindLoop line crlf line2 length2 0 0 with
    | none => return .malformed
    | some crlfPos =>
        if crlfPos ≤ name.length then return .malformed
        else if 0 ∈ (← readBytes line crlfPos line2) then return .malformed
        else
          let len ← subtract crlfPos (name.length + 1)
          let v ← readBytes line len (line2 + name.length)
          return .value v (name.length + len)
  else return .other

/-- The loop of `analyseFormDataLine`, with a number of rounds: the header record, and the pointer
that is returned as an offset. -/
def analyseFormDataLoop (line : List UInt8) (length : Nat) :
    Nat → Nat → Nat → HttpRequestHeader → Except LineFault (HttpRequestHeader × Nat)
  | _, line2, 0, header => .ok (header, line2)
  | 0, _, _ + 1, _ => .error .endless
  | rounds + 1, line2, length2 + 1, header => do
      if ← compareAt (· == ·) line line2 (crlf ++ crlf) then return (header, line2 + 4)
      else
        match ← checkHeaderLine2 line contentDispositionName line2 (length2 + 1) with
        | .malformed => return ({ header with error := true }, length)
        | .value v advance =>
            let rest ← subtract (length2 + 1) advance
            analyseFormDataLoop line length rounds (line2 + advance) rest
              { header with contentDisposition := some v }
        | .other =>
            match ← checkHeaderLine2 line contentTypeName line2 (length2 + 1) with
            | .malformed => return ({ header with error := true }, length)
            | .value v advance =>
                let rest ← subtract (length2 + 1) advance
                analyseFormDataLoop line length rounds (line2 + advance) rest
                  { header with contentType := some v }
            | .other =>
                analyseFormDataLoop line length rounds (line2 + 1) length2 header

/-- `analyseFormDataLine` on a line and its terminator. -/
def analyseFormDataLine (rounds : Nat) (line : List UInt8) (header : HttpRequestHeader) :
    Except LineFault (HttpRequestHeader × Nat) :=
  analyseFormDataLoop (line ++ [0]) line.length rounds 0 line.length header

/-! ## Reading -/

variable {line text behind : List UInt8} {p : Nat}

theorem readAt_eq {k : Nat} {c : UInt8} (h : line.drop p = text) (hk : text[k]? = some c) :
    readAt line (p + k) = .ok c := by
  subst h
  rw [List.getElem?_drop] at hk
  exact Checked.get_eq hk

theorem readBytes_eq {n : Nat} (h : line.drop p = text ++ behind) (hn : n ≤ text.length) :
    readBytes line n p = .ok (text.take n) := by
  induction n generalizing p text with
  | zero => rfl
  | succ n ih =>
      cases text with
      | nil => simp at hn
      | cons c text =>
          have hread : readAt line p = .ok c := readAt_eq h (k := 0) rfl
          have hnext : line.drop (p + 1) = text ++ behind := by
            rw [← List.drop_drop, h]
            rfl
          rw [readBytes, Checked.bind_ok hread, Checked.bind_ok (ih hnext (by simpa using hn))]
          rfl

/-- The text starts with the pattern, by a comparison of their bytes. -/
def startsBy (same : UInt8 → UInt8 → Bool) : List UInt8 → List UInt8 → Bool
  | [], _ => true
  | _ :: _, [] => false
  | t :: ts, c :: cs => same t c && startsBy same ts cs

theorem startsBy_ignoreCase (name text : List UInt8) :
    startsBy (fun t c => toLower t == toLower c) name text = startsWithIgnoreCase name text := by
  induction name generalizing text with
  | nil => rfl
  | cons t ts ih =>
      cases text with
      | nil => rfl
      | cons c text =>
          show (_ && startsBy _ ts text) = (_ && startsWithIgnoreCase ts text)
          rw [ih]

theorem startsBy_beq (pattern text : List UInt8) :
    startsBy (· == ·) pattern text = true ↔ pattern <+: text := by
  induction pattern generalizing text with
  | nil => exact ⟨fun _ => List.nil_prefix, fun _ => rfl⟩
  | cons t ts ih =>
      cases text with
      | nil => simp [startsBy]
      | cons c text => rw [startsBy, Bool.and_eq_true, ih, beq_iff_eq, List.cons_prefix_cons]

/-- A literal is compared with the string that stands at a place: its terminator is a difference. -/
theorem compareAt_eq {same : UInt8 → UInt8 → Bool} {pattern : List UInt8}
    (h : line.drop p = text ++ 0 :: behind) (hstop : ∀ t ∈ pattern, same t 0 = false) :
    compareAt same line p pattern = .ok (startsBy same pattern text) := by
  induction pattern generalizing p text with
  | nil => rfl
  | cons t ts ih =>
      cases text with
      | nil =>
          have hread : readAt line p = .ok 0 := readAt_eq h (k := 0) rfl
          rw [compareAt, Checked.bind_ok hread, hstop t List.mem_cons_self]
          rfl
      | cons c text =>
          have hread : readAt line p = .ok c := readAt_eq h (k := 0) rfl
          have hnext : line.drop (p + 1) = text ++ 0 :: behind := by
            rw [← List.drop_drop, h]
            rfl
          rw [compareAt, Checked.bind_ok hread, ih hnext fun u hu => hstop u (by simp [hu]),
            startsBy]
          cases same t c <;> rfl

/-- The search reads the bytes it is given, and the pattern up to its terminator. `d` is what of
the pattern has been matched. -/
theorem stringnfindLoop_eq {pattern d pat : List UInt8} (hsplit : pattern = d ++ pat)
    (hne : pat ≠ []) (hclean : (0 : UInt8) ∉ pattern) {i : Nat}
    (h : line.drop (p + i) = text ++ behind) :
    stringnfindLoop line pattern p text.length i d.length =
      .ok (findLoop (· == ·) pattern i pat text) := by
  induction text generalizing i d pat with
  | nil => cases pat <;> rfl
  | cons c text ih =>
      obtain ⟨t, ts, rfl⟩ := List.exists_cons_of_ne_nil hne
      have hread : readAt line (p + i) = .ok c := readAt_eq h (k := 0) rfl
      have hnext : line.drop (p + (i + 1)) = text ++ behind := by
        rw [← Nat.add_assoc, ← List.drop_drop, h]
        rfl
      have hpat : (pattern ++ [0])[d.length]? = some t := by
        rw [hsplit]
        simp
      rw [List.length_cons, stringnfindLoop, Checked.bind_ok hread,
        Checked.bind_ok (Checked.get_eq hpat), findLoop]
      by_cases hc : c = t
      · rw [if_pos hc, if_pos (beq_iff_eq.mpr hc)]
        cases ts with
        | nil =>
            have hend : (pattern ++ [0])[d.length + 1]? = some 0 := by
              rw [hsplit]
              simp
            rw [Checked.bind_ok (Checked.get_eq hend), if_pos rfl, if_pos rfl]
            rfl
        | cons u us =>
            have hmore : (pattern ++ [0])[d.length + 1]? = some u := by
              rw [hsplit]
              simp
            have hu : u ≠ 0 := by
              rintro rfl
              exact hclean (by rw [hsplit]; simp)
            have hrest := ih (d := d ++ [t]) (by rw [hsplit]; simp) (List.cons_ne_nil u us) hnext
            rw [List.length_append, List.length_singleton] at hrest
            rw [Checked.bind_ok (Checked.get_eq hmore), if_neg hu, if_neg (List.cons_ne_nil u us)]
            exact hrest
      · rw [if_neg hc, if_neg (by simpa using hc)]
        exact ih (d := []) rfl (by rw [hsplit]; simp) hnext

/-! ## One field -/

/-- **`CHECK_HEADER_LINE2` stays inside the line**, and the pointer moves over bytes that are left
of it. -/
theorem checkHeaderLine2_cases (name : List UInt8) (hne : name ≠ [])
    (hname : ∀ t ∈ name, (toLower t == toLower 0) = false) (h : line.drop p = text ++ [0]) :
    (checkHeaderLine2 line name p text.length = .ok .other ∧
      Http.checkHeaderLine2 name text = .other) ∨
    (checkHeaderLine2 line name p text.length = .ok .malformed ∧
      Http.checkHeaderLine2 name text = .malformed) ∨
    ∃ v advance, checkHeaderLine2 line name p text.length = .ok (.value v advance) ∧
      Http.checkHeaderLine2 name text = .value v (text.drop advance) ∧
      0 < advance ∧ advance < text.length := by
  have hcompare : compareAt (fun t c => toLower t == toLower c) line p name =
      .ok (startsWithIgnoreCase name text) := by
    rw [← startsBy_ignoreCase]
    exact compareAt_eq h hname
  have hfind : stringnfindLoop line crlf p text.length 0 0 = .ok (stringnfind text crlf) :=
    stringnfindLoop_eq (d := []) rfl (by decide) (by decide) h
  rw [checkHeaderLine2, Http.checkHeaderLine2, Checked.bind_ok hcompare]
  by_cases hstart : startsWithIgnoreCase name text = true
  · rw [if_pos hstart, if_pos hstart, Checked.bind_ok hfind]
    cases hpos : stringnfind text crlf with
    | none => exact .inr (.inl ⟨rfl, rfl⟩)
    | some crlfPos =>
        have hlt : crlfPos < text.length := by
          rw [stringnfind_answer] at hpos
          obtain ⟨pre, post, -, -, hj, hbound⟩ := findWithin_found hpos
          omega
        dsimp only
        by_cases hshort : crlfPos ≤ name.length
        · rw [if_pos hshort, if_pos (.inl hshort)]
          exact .inr (.inl ⟨rfl, rfl⟩)
        · have hread := readBytes_eq h (Nat.le_of_lt hlt)
          rw [if_neg hshort, Checked.bind_ok hread]
          by_cases hnul : (0 : UInt8) ∈ text.take crlfPos
          · rw [if_pos hnul, if_pos (.inr hnul)]
            exact .inr (.inl ⟨rfl, rfl⟩)
          · have hsub : subtract crlfPos (name.length + 1) = .ok (crlfPos - (name.length + 1)) :=
              Checked.fit_eq (by omega)
            have hvalue : readBytes line (crlfPos - (name.length + 1)) (p + name.length) =
                .ok ((text.drop name.length).take (crlfPos - (name.length + 1))) := by
              apply readBytes_eq
              · rw [← List.drop_drop, h, List.drop_append_of_le_length (by omega)]
              · rw [List.length_drop]
                omega
            rw [if_neg hnul, if_neg (by simp [hshort, hnul]), Checked.bind_ok hsub,
              Checked.bind_ok hvalue]
            refine .inr (.inr ⟨_, _, rfl, rfl, ?_, ?_⟩)
            · have := List.length_pos_of_ne_nil hne
              omega
            · omega
  · rw [if_neg hstart, if_neg hstart]
    exact .inl ⟨rfl, rfl⟩

/-! ## The whole line -/

/-- The places of the line that the pointer has not passed: the pointer and what is left make up
the line. -/
structure Left (line : List UInt8) (line2 : Nat) (text : List UInt8) : Prop where
  drop_eq : (line ++ [0]).drop line2 = text ++ [0]
  length_eq : line2 + text.length = line.length

/-- The pointer moves over bytes that are left. -/
theorem Left.advance {line2 k : Nat} (h : Left line line2 text) (hk : k ≤ text.length) :
    Left line (line2 + k) (text.drop k) where
  drop_eq := by rw [← List.drop_drop, h.drop_eq, List.drop_append_of_le_length hk]
  length_eq := by
    have := h.length_eq
    rw [List.length_drop]
    omega

/-- A value moves the pointer to its end, and the remaining length does not go below zero. -/
theorem Left.value {line2 advance : Nat} (h : Left line line2 text) (hpos : 0 < advance)
    (hlt : advance < text.length) :
    subtract text.length advance = .ok (text.drop advance).length ∧
      Left line (line2 + advance) (text.drop advance) ∧
      (text.drop advance).length < text.length := by
  rw [List.length_drop]
  exact ⟨Checked.fit_eq (Nat.le_of_lt hlt), h.advance (Nat.le_of_lt hlt), by omega⟩

/-- The names of the fields have no null byte. -/
theorem disposition_clean : contentDispositionName ≠ [] ∧
    ∀ t ∈ contentDispositionName, (toLower t == toLower 0) = false := by
  decide +kernel

theorem type_clean : contentTypeName ≠ [] ∧
    ∀ t ∈ contentTypeName, (toLower t == toLower 0) = false := by
  decide +kernel

/-- Every round moves the pointer over bytes that are left, so that a round for each of them is
enough, and more make no difference. -/
theorem analyseFormDataLoop_eq (more n : Nat) {line2 : Nat} (h : Left line line2 text)
    (hn : text.length ≤ n) (header : HttpRequestHeader) :
    ∃ r, analyseFormDataLoop (line ++ [0]) line.length (n + more) line2 text.length header = .ok r ∧
      Http.analyseFormDataLoop line.length n text header = r ∧ r.2 ≤ line.length := by
  induction n generalizing text line2 header with
  | zero =>
      obtain rfl : text = [] := List.length_eq_zero_iff.mp (by omega)
      have hplace : line2 = line.length := h.length_eq
      rw [List.length_nil, hplace, analyseFormDataLoop]
      exact ⟨_, rfl, rfl, Nat.le_refl _⟩
  | succ n ih =>
      have hplace := h.length_eq
      cases text with
      | nil =>
          rw [List.length_nil, Nat.add_zero] at hplace
          rw [List.length_nil, hplace, analyseFormDataLoop, Http.analyseFormDataLoop, if_pos rfl]
          exact ⟨_, rfl, rfl, Nat.le_refl _⟩
      | cons c text =>
          rw [List.length_cons] at hn hplace
          have hcompare : compareAt (· == ·) (line ++ [0]) line2 (crlf ++ crlf) =
              .ok (startsBy (· == ·) (crlf ++ crlf) (c :: text)) :=
            compareAt_eq h.drop_eq (by decide +kernel)
          -- behind a value the loop goes on with what is left of the line
          have hmove : ∀ advance header, 0 < advance → advance < (c :: text).length →
              ∃ r, (subtract (text.length + 1) advance >>= fun rest =>
                  analyseFormDataLoop (line ++ [0]) line.length (n + more) (line2 + advance) rest
                    header) = .ok r ∧
                Http.analyseFormDataLoop line.length n ((c :: text).drop advance) header = r ∧
                r.2 ≤ line.length := by
            intro advance header hpos hlt
            obtain ⟨hsub, hleft, hshort⟩ := h.value hpos hlt
            rw [List.length_cons] at hsub hshort
            rw [Checked.bind_ok hsub]
            exact ih hleft (by omega) header
          rw [Nat.succ_add, List.length_cons, analyseFormDataLoop, Checked.bind_ok hcompare,
            Http.analyseFormDataLoop, if_neg (List.cons_ne_nil c text)]
          by_cases hend : crlf ++ crlf <+: c :: text
          · -- the end of the header: four bytes of the line are left
            have hfour := hend.length_le
            rw [if_pos ((startsBy_beq _ _).mpr hend), if_pos hend]
            refine ⟨_, rfl, ?_, ?_⟩
            · rw [List.length_cons, show line.length - (text.length + 1) = line2 by omega]
            · simp only [List.length_cons] at hfour
              have : (crlf ++ crlf).length = 4 := rfl
              dsimp only
              omega
          · rw [if_neg fun hs => hend ((startsBy_beq _ _).mp hs), if_neg hend]
            rcases checkHeaderLine2_cases contentDispositionName disposition_clean.1
              disposition_clean.2 h.drop_eq
              with ⟨h1, h2⟩ | ⟨h1, h2⟩ | ⟨v, advance, h1, h2, hpos, hlt⟩
            · rw [List.length_cons] at h1
              rw [Checked.bind_ok h1, h2]
              rcases checkHeaderLine2_cases contentTypeName type_clean.1 type_clean.2 h.drop_eq
                with ⟨h1, h2⟩ | ⟨h1, h2⟩ | ⟨v, advance, h1, h2, hpos, hlt⟩
              · rw [List.length_cons] at h1
                dsimp only
                rw [Checked.bind_ok h1, h2]
                exact ih (h.advance (k := 1) (by simp)) (by simpa using hn) header
              · rw [List.length_cons] at h1
                dsimp only
                rw [Checked.bind_ok h1, h2]
                exact ⟨_, rfl, rfl, Nat.le_refl _⟩
              · rw [List.length_cons] at h1
                dsimp only
                rw [Checked.bind_ok h1, h2]
                exact hmove advance _ hpos hlt
            · rw [List.length_cons] at h1
              rw [Checked.bind_ok h1, h2]
              exact ⟨_, rfl, rfl, Nat.le_refl _⟩
            · rw [List.length_cons] at h1
              rw [Checked.bind_ok h1, h2]
              exact hmove advance _ hpos hlt

end LineBytes

/-- **A part header is read inside its bounds**: whatever the bytes of the line are, the run ends
with the result on lists, in as many rounds as there are bytes. Its offset is at most the length,
also as the `int` that is returned. -/
theorem analyseFormDataLine_inBounds (line : List UInt8) (header : HttpRequestHeader) (more : Nat) :
    LineBytes.analyseFormDataLine (line.length + more) line header =
        .ok (analyseFormDataLine line header) ∧
      (analyseFormDataLine line header).2 ≤ line.length ∧
      ((analyseFormDataLine line header).2 : Int).bmod (2 ^ 32) ≤ line.length := by
  have hleft : LineBytes.Left line 0 line := ⟨rfl, Nat.zero_add _⟩
  obtain ⟨r, hrun, hlist, hle⟩ :=
    LineBytes.analyseFormDataLoop_eq more line.length hleft (Nat.le_refl _) header
  rw [analyseFormDataLine, hlist]
  refine ⟨hrun, hle, ?_⟩
  generalize r.2 = offset at hle ⊢
  rw [Int.bmod_def]
  split <;> omega

end CWebUI.Http
