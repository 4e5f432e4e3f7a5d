import CWebUI.Http.KeepAlive
import CWebUI.Proxy.HeaderFields

set_option autoImplicit false

/-! # Two readings of a body length

The server reads the `Content-Length` of a request with `matchHeaderFields`, line by line; the
proxy reads it with `proxy_parse_content_length`, in the block as a whole. They differ in where
a line starts (behind CRLF, behind any LF), in the blanks before the number, in what may follow
it, in numbers that are too large and in repeated fields. The theorem at the end says which
blocks are read alike.
-/

namespace CWebUI.Proxy

open ByteString CWebUI.Http

/-! ## What the proxy accepts -/

/-- A number is at least what its first digits give. -/
theorem le_decValueFrom (value : Nat) (ds : List UInt8) : value ≤ decValueFrom value ds := by
  induction ds generalizing value with
  | nil => exact Nat.le_refl _
  | cons d ds ih =>
      have hrest : 10 * value + (d.toNat - 48) ≤ decValueFrom value (d :: ds) := ih _
      omega

theorem contentLengthDigits_complete {value : Nat} {ds rest : List UInt8}
    (hds : ∀ c ∈ ds, isDigit c) (hfit : decValueFrom value ds ≤ int64Max)
    (hrest : isDigit (rest.headD 0) = false) :
    contentLengthDigits value (ds ++ rest) = some (decValueFrom value ds, rest) := by
  induction ds generalizing value with
  | nil =>
      cases rest with
      | nil => rfl
      | cons c rest =>
          rw [List.nil_append, contentLengthDigits]
          simp [show isDigit c = false from hrest, decValueFrom]
  | cons c ds ih =>
      have hc := hds c List.mem_cons_self
      have hstep : decValueFrom value (c :: ds) = decValueFrom (value * 10 + (c.toNat - 48)) ds := by
        rw [decValueFrom, decValueFrom, List.foldl_cons, Nat.mul_comm]
      rw [hstep] at hfit ⊢
      have hgrow : value * 10 + (c.toNat - 48) ≤ int64Max := Nat.le_trans (le_decValueFrom _ ds) hfit
      have hsmall : ¬ value > (int64Max - (c.toNat - 48)) / 10 := by
        omega
      rw [List.cons_append, contentLengthDigits, if_pos hc, if_neg hsmall]
      exact ih (fun d hd => hds d (List.mem_cons_of_mem _ hd)) hfit

/-- A value is what stands before a line end. -/
theorem valueAt_split (p : List UInt8) :
    ∃ tail, p = valueAt p ++ tail ∧ isLineEnd (tail.headD lf) = true := by
  refine ⟨p.dropWhile (fun c => !isLineEnd c), (List.takeWhile_append_dropWhile).symm, ?_⟩
  have hhead := List.head?_dropWhile_not (fun c => !isLineEnd c) p
  cases hd : p.dropWhile (fun c => !isLineEnd c) with
  | nil => decide
  | cons c rest =>
      rw [hd] at hhead
      simpa using hhead

theorem isDigit_of_isBlank {c : UInt8} (h : isBlank c = true) : isDigit c = false := by
  simp only [isBlank, Bool.or_eq_true, beq_iff_eq] at h
  rcases h with rfl | rfl
  · rfl
  · rfl

theorem isBlank_of_isDigit {c : UInt8} (h : isDigit c = true) : isBlank c = false := by
  cases hb : isBlank c with
  | false => rfl
  | true => exact absurd h (by rw [isDigit_of_isBlank hb]; decide)

theorem isDigit_of_isLineEnd {c : UInt8} (h : isLineEnd c = true) :
    isDigit c = false ∧ isBlank c = false := by
  simp only [isLineEnd, Bool.or_eq_true, beq_iff_eq] at h
  rcases h with rfl | rfl
  · exact ⟨rfl, rfl⟩
  · exact ⟨rfl, rfl⟩

/-- Blanks are dropped up to the first byte that is none. -/
theorem dropWhile_blanks {a rest : List UInt8} (ha : ∀ c ∈ a, isBlank c)
    (hrest : ∀ c, rest.head? = some c → isBlank c = false) :
    (a ++ rest).dropWhile isBlank = rest := by
  rw [List.dropWhile_append_of_pos ha]
  cases rest with
  | nil => rfl
  | cons c rest => simp [hrest c rfl]

/-- **A length that no second field follows is accepted.** -/
theorem contentLengthValue_complete {p : List UInt8} {n : Nat} (hlen : IsLength (valueAt p) n)
    (hagain : fieldLines contentLengthFieldName (nextLine p) = []) :
    contentLengthValue p = .length n := by
  obtain ⟨a, ds, b, hvalue, ha, hb, hne, hds, hn, hfit⟩ := hlen
  obtain ⟨tail, hp, htail⟩ := valueAt_split p
  rw [hvalue] at hp
  obtain ⟨d, ds', rfl⟩ := List.exists_cons_of_ne_nil hne
  have hd := hds d List.mem_cons_self
  have hfront : p.dropWhile isBlank = d :: ds' ++ (b ++ tail) := by
    rw [hp, List.append_assoc, List.append_assoc]
    apply dropWhile_blanks ha
    intro c hc
    have hcd : d = c := by simpa using hc
    rw [← hcd]
    exact isBlank_of_isDigit hd
  have hend : tail.head? = none ∨ ∃ c, tail.head? = some c ∧ isLineEnd c = true := by
    cases tail with
    | nil => exact Or.inl rfl
    | cons c tail => exact Or.inr ⟨c, rfl, htail⟩
  have hstop : isDigit ((b ++ tail).headD 0) = false := by
    cases b with
    | nil =>
        cases tail with
        | nil => decide
        | cons c tail => exact (isDigit_of_isLineEnd htail).1
    | cons c b => exact isDigit_of_isBlank (hb c List.mem_cons_self)
  have hdigits : contentLengthDigits 0 (d :: ds' ++ (b ++ tail)) = some (n, b ++ tail) := by
    have hcomplete := @contentLengthDigits_complete 0 (d :: ds') (b ++ tail) hds
      (by rw [← hn] at hfit; exact hfit) hstop
    rw [hcomplete]
    congr 2
  have hbehind : (b ++ tail).dropWhile isBlank = tail := by
    apply dropWhile_blanks hb
    intro c hc
    rcases hend with h | ⟨c', h, hline⟩
    · rw [h] at hc
      cases hc
    · rw [h, Option.some.injEq] at hc
      rw [← hc]
      exact (isDigit_of_isLineEnd hline).2
  have hline : ∀ c ∈ a ++ (d :: ds') ++ b, isLineEnd c = false := by
    intro c hc
    rcases List.mem_append.mp hc with hc | hc
    · rcases List.mem_append.mp hc with hc | hc
      · exact isLineEnd_of_isBlank (ha c hc)
      · exact isLineEnd_of_isDigit (hds c hc)
    · exact isLineEnd_of_isBlank (hb c hc)
  have hnext : nextLine p = nextLine tail := by
    rw [hp]
    exact nextLine_append (not_mem_lf_of_isLineEnd hline) tail
  have hno : contentLengthAgain tail.length (nextLine tail) = false := by
    by_contra hyes
    rw [Bool.not_eq_false, contentLengthAgain_eq] at hyes
    have hle : (nextLine tail).length ≤ tail.length := by
      by_cases hnil : tail = []
      · rw [hnil]
        exact Nat.le_refl _
      · exact Nat.le_of_lt (nextLine_length_lt hnil)
    have hfield := (hasField_iff contentLengthFieldName_field _ _ hle).mp hyes
    rw [hnext] at hagain
    exact hfield hagain
  simp only [contentLengthValue, hfront]
  rw [List.cons_append] at hdigits ⊢
  simp only [List.headD_cons, hd, Bool.not_true, Bool.false_eq_true, if_false, hdigits, hbehind,
    htail, hno]

/-- **What the proxy reads**, by the lines of the block. -/
theorem proxyParseContentLength_iff (header : List UInt8) :
    (proxyParseContentLength header = .missing ↔ fieldLines contentLengthFieldName header = []) ∧
      ∀ n, proxyParseContentLength header = .length n ↔
        ∃ l, fieldLines contentLengthFieldName header = [l] ∧
          IsLength (valueAt (l.drop contentLengthFieldName.length)) n := by
  obtain ⟨hmissing, hfield⟩ := contentLengthWalk_eq (header.length + 1) header (by omega)
  unfold proxyParseContentLength
  by_cases hnil : fieldLines contentLengthFieldName header = []
  · rw [hmissing hnil]
    refine ⟨⟨fun _ => hnil, fun _ => rfl⟩, fun n => ⟨?_, ?_⟩⟩
    · intro h
      cases h
    · rintro ⟨l, hl, -⟩
      rw [hnil] at hl
      cases hl
  · obtain ⟨q, hstart, hlines, hwalk⟩ := hfield hnil
    rw [hwalk]
    have hfit := firstLine_of_field contentLengthFieldName_field hstart
    refine ⟨⟨fun h => absurd h (contentLengthValue_ne_missing _), fun h => absurd h hnil⟩, ?_⟩
    intro n
    constructor
    · intro h
      obtain ⟨hlen, hagain⟩ := contentLengthValue_spec h
      refine ⟨q.takeWhile (· ≠ lf), ?_, ?_⟩
      · rw [hlines, ← nextLine_drop hfit, hagain]
      · rw [valueAt_line q _ hfit]
        exact hlen
    · rintro ⟨l, hl, hlen⟩
      rw [hlines, List.cons.injEq] at hl
      rw [← hl.1, valueAt_line q _ hfit] at hlen
      apply contentLengthValue_complete hlen
      rw [nextLine_drop hfit]
      exact hl.2

/-! ## What the server reads -/

/-- The name as the server compares it, with a blank. -/
def contentLengthName : List UInt8 := ascii "Content-Length: "

/-- A line that sets the length of the server. -/
def SetsLength (line : List UInt8) : Prop :=
  startsWithIgnoreCase contentLengthName line = true ∧ cString (line.drop 16) ≠ []

theorem parseCookies_length (text : List UInt8) (header : HttpRequestHeader) :
    (parseCookies text header).contentlenght = header.contentlenght ∧
      (parseCookies text header).error = header.error := by
  have hname : ∀ (header : HttpRequestHeader) (name : List UInt8) (c : UInt8),
      (cookieNameStep header name c).1.contentlenght = header.contentlenght ∧
        (cookieNameStep header name c).1.error = header.error := by
    intro header name c
    unfold cookieNameStep
    split_ifs <;> exact ⟨rfl, rfl⟩
  have hstep : ∀ (header : HttpRequestHeader) (state : ParseState) (c : UInt8),
      (cookieStep header state c).1.contentlenght = header.contentlenght ∧
        (cookieStep header state c).1.error = header.error := by
    intro header state c
    cases state with
    | skipBlanks =>
        unfold cookieStep
        dsimp only
        split_ifs
        · exact ⟨rfl, rfl⟩
        · exact hname header [] c
    | parseName name => exact hname header name c
    | parseValue name value =>
        unfold cookieStep
        dsimp only
        split_ifs <;> exact ⟨rfl, rfl⟩
  have hloop : ∀ (text : List UInt8) (header : HttpRequestHeader) (state : ParseState),
      (text.foldl (fun s c => cookieStep s.1 s.2 c) (header, state)).1.contentlenght =
          header.contentlenght ∧
        (text.foldl (fun s c => cookieStep s.1 s.2 c) (header, state)).1.error = header.error := by
    intro text
    induction text with
    | nil => intro header state; exact ⟨rfl, rfl⟩
    | cons c text ih =>
        intro header state
        rw [List.foldl_cons]
        have hrest := ih (cookieStep header state c).1 (cookieStep header state c).2
        exact ⟨hrest.1.trans (hstep header state c).1, hrest.2.trans (hstep header state c).2⟩
  have hall := hloop text header (.parseName [])
  unfold parseCookies
  revert hall
  rcases text.foldl (fun s c => cookieStep s.1 s.2 c) (header, ParseState.parseName []) with
    ⟨h, name | ⟨name, value⟩ | _⟩
  · intro hall
    dsimp only
    split_ifs <;> exact hall
  · exact fun hall => hall
  · exact fun hall => hall

/-- Every other line leaves the length and the error flag. -/
theorem matchHeaderFields_other {line : List UInt8} (h : ¬ SetsLength line)
    (header : HttpRequestHeader) :
    (matchHeaderFields line header).contentlenght = header.contentlenght ∧
      (matchHeaderFields line header).error = header.error := by
  unfold SetsLength contentLengthName at h
  unfold matchHeaderFields
  split
  · unfold aBlock
    split_ifs
    · exact ⟨rfl, rfl⟩
    · exact ⟨rfl, rfl⟩
    · repeat' split
      all_goals exact ⟨rfl, rfl⟩
  · unfold cBlock
    by_cases h1 : startsWithIgnoreCase (ascii "Cache-Control:") line = true
    · rw [if_pos h1]
      exact ⟨rfl, rfl⟩
    · rw [if_neg h1, if_neg h]
      split_ifs
      · exact parseCookies_length _ _
      · unfold contentTypeField
        split_ifs <;> exact ⟨rfl, rfl⟩
      · split <;> exact ⟨rfl, rfl⟩
  · unfold hBlock
    split <;> exact ⟨rfl, rfl⟩
  · unfold iBlock
    repeat' split
    all_goals exact ⟨rfl, rfl⟩
  · unfold oBlock
    split <;> exact ⟨rfl, rfl⟩
  · unfold rBlock
    split <;> exact ⟨rfl, rfl⟩
  · unfold sBlock
    repeat' split
    all_goals exact ⟨rfl, rfl⟩
  · unfold uBlock
    repeat' split
    all_goals exact ⟨rfl, rfl⟩
  · exact ⟨rfl, rfl⟩

/-- A line that sets the length is read by `contentLengthField`. -/
theorem matchHeaderFields_setsLength {line : List UInt8} (h : SetsLength line)
    (header : HttpRequestHeader) :
    matchHeaderFields line header = contentLengthField (cString (line.drop 16)) header := by
  have hhead : toLower (line.headD 0) = 99 := by
    have hstart := (startsWithIgnoreCase_iff _ _).mp h.1
    cases line with
    | nil => exact absurd hstart (by decide)
    | cons c cs =>
        obtain ⟨h1, -⟩ := List.cons_prefix_cons.mp hstart
        exact h1.symm.trans (by decide)
  have h1 : startsWithIgnoreCase (ascii "Cache-Control:") line = false :=
    startsWithIgnoreCase_disjoint (by decide) (by decide) h.1
  have h2 : startsWithIgnoreCase (ascii "Cookie: ") line = false :=
    startsWithIgnoreCase_disjoint (by decide) (by decide) h.1
  unfold matchHeaderFields
  rw [hhead]
  unfold cBlock
  rw [if_neg (by rw [h1]; decide), if_neg (by rw [h2]; decide)]
  exact if_pos h

/-- A line whose number the server reads: one blank and then a digit behind the name. -/
def ReadsNumber (line : List UInt8) : Prop :=
  startsWithIgnoreCase contentLengthName line = true ∧ isDigit ((line.drop 16).headD 0) = true

theorem ReadsNumber.sets {line : List UInt8} (h : ReadsNumber line) : SetsLength line := by
  refine ⟨h.1, ?_⟩
  have hdigit := h.2
  cases hd : line.drop 16 with
  | nil =>
      rw [hd] at hdigit
      exact absurd hdigit (by decide)
  | cons c rest =>
      rw [hd] at hdigit
      rw [List.headD_cons] at hdigit
      have hc : c ≠ 0 := by
        rintro rfl
        exact absurd hdigit (by decide)
      simp [cString, hc]

/-- Without a number, the length stays or becomes zero. -/
theorem matchHeaderFields_noNumber {line : List UInt8} (h : ¬ ReadsNumber line)
    {header : HttpRequestHeader} (hzero : header.contentlenght = 0) :
    (matchHeaderFields line header).contentlenght = 0 := by
  by_cases hsets : SetsLength line
  · rw [matchHeaderFields_setsLength hsets]
    have hdigit : isDigit ((cString (line.drop 16)).headD 0) = false := by
      by_contra hyes
      rw [Bool.not_eq_false] at hyes
      apply h
      refine ⟨hsets.1, ?_⟩
      cases hd : line.drop 16 with
      | nil =>
          rw [hd] at hyes
          exact absurd hyes (by decide)
      | cons c rest =>
          rw [hd] at hyes
          by_cases hc : c = 0
          · rw [hc] at hyes
            exact absurd hyes (by simp [cString, isDigit])
          · simpa [cString, hc] using hyes
    unfold contentLengthField
    rw [if_neg (by rw [hdigit]; decide)]
  · rw [(matchHeaderFields_other hsets header).1]
    exact hzero

/-! ## The block of some lines -/

/-- The lines of a header, each with its CRLF. -/
def headerBlock (ls : List (List UInt8)) : List UInt8 := ls.flatMap (· ++ crlf)

/-- `matchHeaderFields` applied to every line. -/
def matchLines (ls : List (List UInt8)) (header : HttpRequestHeader) : HttpRequestHeader :=
  ls.foldl (fun header line => matchHeaderFields line header) header

theorem fieldLines_headerBlock {name : List UInt8} (hname : FieldName name)
    (ls : List (List UInt8)) :
    fieldLines name (headerBlock ls) = ls.flatMap fun line => fieldLines name (line ++ [cr]) := by
  induction ls with
  | nil => exact fieldLines_of_short hname hname.pos
  | cons line ls ih =>
      have hblock : headerBlock (line :: ls) = (line ++ [cr]) ++ lf :: headerBlock ls := by
        simp [headerBlock, crlf]
      rw [hblock, fieldLines, lines_append_lf, List.filter_append, List.flatMap_cons, ← ih]
      rfl

/-- A line that starts with the name is the first field of its part of the block. -/
theorem fieldLines_line {line : List UInt8}
    (h : startsWithIgnoreCase contentLengthFieldName line = true) :
    ∃ more, fieldLines contentLengthFieldName (line ++ [cr]) =
      (line ++ [cr]).takeWhile (· ≠ lf) :: more := by
  rw [fieldLines_step contentLengthFieldName_field,
    if_pos (startsWithIgnoreCase_append [cr] h)]
  exact ⟨_, rfl⟩

theorem field_of_setsName {line : List UInt8}
    (h : startsWithIgnoreCase contentLengthName line = true) :
    startsWithIgnoreCase contentLengthFieldName line = true := by
  rw [startsWithIgnoreCase_iff] at h ⊢
  exact List.IsPrefix.trans (by decide) h

/-- Lines without a field leave the length and the error flag. -/
theorem matchLines_other {ls : List (List UInt8)}
    (h : ∀ line ∈ ls, startsWithIgnoreCase contentLengthFieldName line = false)
    (header : HttpRequestHeader) :
    (matchLines ls header).contentlenght = header.contentlenght ∧
      (matchLines ls header).error = header.error := by
  induction ls generalizing header with
  | nil => exact ⟨rfl, rfl⟩
  | cons line ls ih =>
      have hline : ¬ SetsLength line := by
        intro hsets
        have hno := h line List.mem_cons_self
        rw [field_of_setsName hsets.1] at hno
        cases hno
      have hother := matchHeaderFields_other hline header
      have hrest := ih (fun l hl => h l (List.mem_cons_of_mem _ hl)) (matchHeaderFields line header)
      exact ⟨hrest.1.trans hother.1, hrest.2.trans hother.2⟩

theorem matchLines_noNumber {ls : List (List UInt8)} (h : ∀ line ∈ ls, ¬ ReadsNumber line)
    {header : HttpRequestHeader} (hzero : header.contentlenght = 0) :
    (matchLines ls header).contentlenght = 0 := by
  induction ls generalizing header with
  | nil => exact hzero
  | cons line ls ih =>
      have hline := matchHeaderFields_noNumber (h line List.mem_cons_self) hzero
      exact ih (fun l hl => h l (List.mem_cons_of_mem _ hl)) hline

/-- One field in the block: it is in the part of one line, and no other line starts with the
name. -/
theorem one_field {ls : List (List UInt8)} {l : List UInt8}
    (h : fieldLines contentLengthFieldName (headerBlock ls) = [l]) {line : List UInt8}
    (hline : line ∈ ls) (hstart : startsWithIgnoreCase contentLengthFieldName line = true) :
    l = (line ++ [cr]).takeWhile (· ≠ lf) ∧
      ∃ pre post, ls = pre ++ line :: post ∧
        (∀ x ∈ pre, startsWithIgnoreCase contentLengthFieldName x = false) ∧
        ∀ x ∈ post, startsWithIgnoreCase contentLengthFieldName x = false := by
  rw [fieldLines_headerBlock contentLengthFieldName_field] at h
  obtain ⟨pre, post, rfl⟩ := List.append_of_mem hline
  obtain ⟨more, hmore⟩ := fieldLines_line hstart
  rw [List.flatMap_append, List.flatMap_cons, hmore] at h
  have hnone : ∀ part : List (List UInt8),
      part.flatMap (fun line => fieldLines contentLengthFieldName (line ++ [cr])) = [] →
      ∀ x ∈ part, startsWithIgnoreCase contentLengthFieldName x = false := by
    intro part hpart x hx
    by_contra hyes
    rw [Bool.not_eq_false] at hyes
    obtain ⟨more', hmore'⟩ := fieldLines_line hyes
    have hnil := List.flatMap_eq_nil_iff.mp hpart x hx
    rw [hmore'] at hnil
    cases hnil
  have hlength := congrArg List.length h
  simp only [List.length_append, List.length_cons, List.length_nil] at hlength
  have hpre : pre.flatMap (fun line => fieldLines contentLengthFieldName (line ++ [cr])) = [] :=
    List.length_eq_zero_iff.mp (by omega)
  have hpost : post.flatMap (fun line => fieldLines contentLengthFieldName (line ++ [cr])) = [] :=
    List.length_eq_zero_iff.mp (by omega)
  have hmore0 : more = [] := List.length_eq_zero_iff.mp (by omega)
  rw [hpre, hpost, hmore0] at h
  refine ⟨?_, pre, post, rfl, hnone pre hpre, hnone post hpost⟩
  simpa using h.symm

/-! ## The number of a line -/

theorem eq_blank_of_toLower {c : UInt8} (h : toLower 32 = toLower c) : c = 32 := by
  revert h
  revert c
  apply forall_byte
  decide +kernel

/-- The name with its blank is the name and a blank. -/
theorem drop_contentLengthName {line : List UInt8}
    (h : startsWithIgnoreCase contentLengthName line = true) :
    line.drop 15 = 32 :: line.drop 16 := by
  rw [startsWithIgnoreCase_iff] at h
  have hlen : 16 ≤ line.length := by
    have hle := h.length_le
    rw [List.length_map, List.length_map] at hle
    exact Nat.le_trans (by decide) hle
  have hget : 15 < line.length := by omega
  rw [List.drop_eq_getElem_cons hget]
  congr 1
  obtain ⟨rest, hrest⟩ := h
  have hat : (contentLengthName.map toLower ++ rest)[15]? = (line.map toLower)[15]? := by
    rw [hrest]
  rw [List.getElem?_append_left (by decide), List.getElem?_map, List.getElem?_map,
    List.getElem?_eq_getElem hget] at hat
  have hname : contentLengthName[15]? = some 32 := by decide
  rw [hname, Option.map_some, Option.map_some, Option.some.injEq] at hat
  exact eq_blank_of_toLower hat

/-- A value that starts with one blank and a digit has its digits right behind the blank. -/
theorem isLength_blank {value : List UInt8} {n : Nat} (h : IsLength (32 :: value) n)
    (hdigit : isDigit (value.headD 0) = true) :
    ∃ ds b, value = ds ++ b ∧ (∀ c ∈ b, isBlank c) ∧ (∀ c ∈ ds, isDigit c) ∧ decValue ds = n ∧
      n ≤ int64Max := by
  obtain ⟨a, ds, b, hvalue, ha, hb, hne, hds, hn, hfit⟩ := h
  obtain ⟨d, ds', rfl⟩ := List.exists_cons_of_ne_nil hne
  cases a with
  | nil =>
      rw [List.nil_append, List.cons_append, List.cons.injEq] at hvalue
      have hd := hds d List.mem_cons_self
      rw [← hvalue.1] at hd
      exact absurd hd (by decide)
  | cons c a =>
      rw [List.cons_append, List.cons_append, List.cons.injEq] at hvalue
      cases a with
      | nil => exact ⟨d :: ds', b, hvalue.2, hb, hds, hn, hfit⟩
      | cons c' a =>
          rw [hvalue.2, List.cons_append, List.cons_append, List.headD_cons] at hdigit
          have hblank := isDigit_of_isBlank (ha c' (by simp))
          rw [hdigit] at hblank
          cases hblank

theorem takeWhile_isDigit_cString (text : List UInt8) :
    (cString text).takeWhile isDigit = text.takeWhile isDigit := by
  refine takeWhile_takeWhile_of_imp ?_ text
  intro c hc
  have hne : c ≠ 0 := by
    rintro rfl
    exact absurd hc (by decide)
  simpa using hne

/-- **The server and the proxy read the same number**, where the server reads one without an
error. -/
theorem matchHeaderFields_number {line : List UInt8} {n : Nat} (h : ReadsNumber line)
    (hlen : IsLength (valueAt (((line ++ [cr]).takeWhile (· ≠ lf)).drop 15)) n)
    (header : HttpRequestHeader) (herror : (matchHeaderFields line header).error = false) :
    (matchHeaderFields line header).contentlenght.toNat = n := by
  have hfield := startsWithIgnoreCase_append [cr] (field_of_setsName h.1)
  have hfit := firstLine_of_field contentLengthFieldName_field hfield
  have h15 : contentLengthFieldName.length = 15 := rfl
  rw [h15] at hfit
  have h16 := startsWithIgnoreCase_length h.1
  have h16' : contentLengthName.length = 16 := rfl
  rw [h16'] at h16
  have hdrop : (line ++ [cr]).drop 15 = 32 :: (line.drop 16 ++ [cr]) := by
    rw [List.drop_append_of_le_length (by omega), drop_contentLengthName h.1, List.cons_append]
  have hblank : valueAt (32 :: (line.drop 16 ++ [cr])) = 32 :: valueAt (line.drop 16 ++ [cr]) := by
    simp [valueAt, isLineEnd, cr, lf]
  have hnumber := h.2
  -- the digits of the value are those that `strtoull` takes
  have hdigits : ∃ ds, (line.drop 16).takeWhile isDigit = ds ∧ decValue ds = n ∧ n ≤ int64Max := by
    rw [valueAt_line _ _ hfit, hdrop, hblank] at hlen
    obtain ⟨tail, hsplit, htail⟩ := valueAt_split (line.drop 16 ++ [cr])
    have hhead : isDigit ((valueAt (line.drop 16 ++ [cr])).headD 0) = true := by
      cases hd : line.drop 16 with
      | nil =>
          rw [hd] at hnumber
          exact absurd hnumber (by decide)
      | cons c rest =>
          rw [hd, List.headD_cons] at hnumber
          simpa [valueAt, isLineEnd_of_isDigit hnumber] using hnumber
    obtain ⟨ds, b, hvalue, hb, hds, hn, hle⟩ := isLength_blank hlen hhead
    refine ⟨ds, ?_, hn, hle⟩
    have hcr : (line.drop 16 ++ [cr]).takeWhile isDigit = (line.drop 16).takeWhile isDigit := by
      have hstop : List.takeWhile isDigit [cr] = [] := by decide
      rw [List.takeWhile_append, hstop]
      split_ifs with hall
      · rw [List.append_nil]
        exact ((List.takeWhile_prefix _).eq_of_length hall).symm
      · rfl
    rw [← hcr, hsplit, hvalue, List.append_assoc, List.takeWhile_append_of_pos hds]
    have hstop : (b ++ tail).takeWhile isDigit = [] := by
      cases b with
      | nil =>
          cases tail with
          | nil => rfl
          | cons c tail =>
              rw [List.headD_cons] at htail
              rw [List.nil_append, List.takeWhile_cons, if_neg]
              rw [(isDigit_of_isLineEnd htail).1]
              decide
      | cons c b =>
          rw [List.cons_append, List.takeWhile_cons, if_neg]
          rw [isDigit_of_isBlank (hb c List.mem_cons_self)]
          decide
    rw [hstop, List.append_nil]
  obtain ⟨ds, hds, hn, hle⟩ := hdigits
  have hsets := h.sets
  rw [matchHeaderFields_setsLength hsets] at herror ⊢
  have hdigit : isDigit ((cString (line.drop 16)).headD 0) = true := by
    cases hd : line.drop 16 with
    | nil =>
        rw [hd] at hnumber
        exact absurd hnumber (by decide)
    | cons c rest =>
        rw [hd, List.headD_cons] at hnumber
        have hc : c ≠ 0 := by
          rintro rfl
          exact absurd hnumber (by decide)
        simpa [cString, hc] using hnumber
  unfold contentLengthField strtoull at herror ⊢
  rw [if_pos hdigit] at herror ⊢
  dsimp only at herror ⊢
  by_cases hrest : ((cString (line.drop 16)).dropWhile isDigit).headD 0 ∈ ([0, 13, 10, 32] : List UInt8)
  · rw [if_pos hrest, takeWhile_isDigit_cString, hds, hn]
    unfold int64Max at hle
    have hmin : min n (2 ^ 64 - 1) = n := by omega
    rw [hmin, UInt64.toNat_ofNat']
    omega
  · rw [if_neg hrest] at herror
    cases herror

/-! ## Where they agree -/

/-- The proxy reads a block as the server does: the same number, or no field where the server
has zero. -/
def SameLength (ls : List (List UInt8)) (header : HttpRequestHeader) : Prop :=
  proxyParseContentLength (headerBlock ls) =
      .length (matchLines ls header).contentlenght.toNat ∨
    (proxyParseContentLength (headerBlock ls) = .missing ∧
      (matchLines ls header).contentlenght = 0)

/-- Behind the LFs of a block there is no field, or one whose value is a number that fits, with
nothing but blanks around it; and the number is zero, or one of the lines starts with the field,
with one blank before the number. -/
def PlainlySpelled (ls : List (List UInt8)) : Prop :=
  fieldLines contentLengthFieldName (headerBlock ls) = [] ∨
    ∃ l n, fieldLines contentLengthFieldName (headerBlock ls) = [l] ∧
      IsLength (valueAt (l.drop contentLengthFieldName.length)) n ∧
      (n = 0 ∨ ∃ line ∈ ls, ReadsNumber line)

/-- **The two readings agree exactly on the blocks that are plainly spelled.** -/
theorem content_lengths_agree_iff (ls : List (List UInt8)) (header : HttpRequestHeader)
    (hzero : header.contentlenght = 0) (haccept : (matchLines ls header).error = false) :
    SameLength ls header ↔ PlainlySpelled ls := by
  obtain ⟨hmissing, hlength⟩ := proxyParseContentLength_iff (headerBlock ls)
  constructor
  · rintro (hsame | ⟨hnone, -⟩)
    · obtain ⟨l, hl, hlen⟩ := (hlength _).mp hsame
      refine Or.inr ⟨l, _, hl, hlen, ?_⟩
      by_cases hread : ∃ line ∈ ls, ReadsNumber line
      · exact Or.inr hread
      · left
        have hno : ∀ line ∈ ls, ¬ ReadsNumber line := fun line hline hr => hread ⟨line, hline, hr⟩
        rw [matchLines_noNumber hno hzero]
        rfl
    · exact Or.inl (hmissing.mp hnone)
  · rintro (hnone | ⟨l, n, hl, hlen, hread⟩)
    · right
      refine ⟨hmissing.mpr hnone, ?_⟩
      have hno : ∀ line ∈ ls, startsWithIgnoreCase contentLengthFieldName line = false := by
        intro line hline
        by_contra hyes
        rw [Bool.not_eq_false] at hyes
        rw [fieldLines_headerBlock contentLengthFieldName_field] at hnone
        have hnil := List.flatMap_eq_nil_iff.mp hnone line hline
        obtain ⟨more, hmore⟩ := fieldLines_line hyes
        rw [hmore] at hnil
        cases hnil
      rw [(matchLines_other hno header).1]
      exact hzero
    · left
      have hproxy := (hlength n).mpr ⟨l, hl, hlen⟩
      by_cases hnumber : ∃ line ∈ ls, ReadsNumber line
      · -- the line is the one field, and the lines around it change nothing
        obtain ⟨line, hline, hr⟩ := hnumber
        obtain ⟨hfirst, pre, post, rfl, hpre, hpost⟩ :=
          one_field hl hline (field_of_setsName hr.1)
        have hsplit : matchLines (pre ++ line :: post) header =
            matchLines post (matchHeaderFields line (matchLines pre header)) := by
          unfold matchLines
          rw [List.foldl_append, List.foldl_cons]
        rw [hsplit] at haccept ⊢
        have hbehind := matchLines_other hpost (matchHeaderFields line (matchLines pre header))
        rw [hbehind.2] at haccept
        rw [hfirst] at hlen
        rw [hproxy, hbehind.1, matchHeaderFields_number hr hlen _ haccept]
      · have hn : n = 0 := by
          rcases hread with hn | hr
          · exact hn
          · exact absurd hr hnumber
        have hno : ∀ line ∈ ls, ¬ ReadsNumber line :=
          fun line hline hr => hnumber ⟨line, hline, hr⟩
        rw [hproxy, matchLines_noNumber hno hzero, hn]
        rfl

/-- Without a blank behind the colon the server reads no length and the proxy reads five; of two
fields the server takes the second and the proxy none. -/
theorem content_lengths_differ :
    ((matchLines [ascii "Content-Length:5"] {}).error = false ∧
        (matchLines [ascii "Content-Length:5"] {}).contentlenght = 0 ∧
        proxyParseContentLength (headerBlock [ascii "Content-Length:5"]) = .length 5 ∧
        ¬ SameLength [ascii "Content-Length:5"] {}) ∧
      ((matchLines [ascii "Content-Length: 5", ascii "Content-Length: 6"] {}).error = false ∧
        (matchLines [ascii "Content-Length: 5", ascii "Content-Length: 6"] {}).contentlenght = 6 ∧
        proxyParseContentLength (headerBlock [ascii "Content-Length: 5", ascii "Content-Length: 6"]) =
          .invalid ∧
        ¬ SameLength [ascii "Content-Length: 5", ascii "Content-Length: 6"] {}) := by
  unfold SameLength
  decide +kernel

theorem content_lengths_agree_plain :
    PlainlySpelled [ascii "Host: a", ascii "content-length: 42", []] ∧
      proxyParseContentLength (headerBlock [ascii "Host: a", ascii "content-length: 42", []]) =
        .length 42 := by
  have hsame : SameLength [ascii "Host: a", ascii "content-length: 42", []] {} := by
    unfold SameLength
    decide +kernel
  exact ⟨(content_lengths_agree_iff _ _ rfl (by decide +kernel)).mp hsame, by decide +kernel⟩

end CWebUI.Proxy
