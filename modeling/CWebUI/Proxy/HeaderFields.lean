import CWebUI.Basic.Lists
import CWebUI.Proxy.Registration

set_option autoImplicit false

/-! # The header fields that the proxy reads

`reverse_proxy.c` does not parse a header into a table. Each question (is there a
`Content-Length`, which coding comes last, is this an upgrade) is answered by a walk over the
header block, from line to line: a pointer `p` stands at the start of a line, the name is
compared there, and otherwise `p` moves behind the next LF.

The walks are translated as they stand, the pointer being the rest of the block. What they
find is then said in terms of the *lines* of the block (`lines`), which makes it easy to see
what becomes of it when a line is overwritten or lines are inserted.
-/

namespace CWebUI.Proxy

open ByteString

/-! ## Walking over a header block -/

/-- The byte ends a value: CR or LF. -/
def isLineEnd (c : UInt8) : Bool := c == cr || c == lf

/-- The byte is a blank or a tab. -/
def isBlank (c : UInt8) : Bool := c == 32 || c == 9

/-- Move `p` behind the next LF, or to the end. -/
def nextLine (p : List UInt8) : List UInt8 := (p.dropWhile (· ≠ lf)).drop 1

/-- A field value, from `p` up to the end of its line. -/
def valueAt (p : List UInt8) : List UInt8 := p.takeWhile (fun c => !isLineEnd c)

/-- `proxy_find_header_end`: the number of bytes up to and with the first CRLFCRLF. -/
def proxyFindHeaderEnd : List UInt8 → Option Nat
  | [] => none
  | c :: rest =>
      if crlf ++ crlf <+: c :: rest then some 4 else (proxyFindHeaderEnd rest).map (· + 1)

/-! ## Content-Length -/

/-- What `proxy_parse_content_length` returns. -/
inductive ContentLength where
  /-- `PROXY_CL_MISSING` -/
  | missing
  /-- `PROXY_CL_INVALID` -/
  | invalid
  | length (n : Nat)
  deriving DecidableEq, Repr

/-- `INT64_MAX`. -/
def int64Max : Nat := 2 ^ 63 - 1

/-- The name, with its colon. -/
def contentLengthFieldName : List UInt8 := ascii "Content-Length:"

/-- The digits of a length, `value` being what the digits before them gave. The value is
checked before each multiplication; `none` is a value that does not fit. -/
def contentLengthDigits (value : Nat) : List UInt8 → Option (Nat × List UInt8)
  | [] => some (value, [])
  | c :: rest =>
      if isDigit c then
        if value > (int64Max - (c.toNat - 48)) / 10 then none
        else contentLengthDigits (value * 10 + (c.toNat - 48)) rest
      else some (value, c :: rest)

/-- The search for a second `Content-Length` behind the line of the first. -/
def contentLengthAgain : Nat → List UInt8 → Bool
  | 0, _ => false
  | n + 1, p =>
      if p.length < contentLengthFieldName.length then false
      else if startsWithIgnoreCase contentLengthFieldName p then true
      else contentLengthAgain n (nextLine p)

/-- The value of a `Content-Length` field, `p` standing behind its name. -/
def contentLengthValue (p : List UInt8) : ContentLength :=
  let p := p.dropWhile isBlank
  if !isDigit (p.headD 0) then .invalid
  else
    match contentLengthDigits 0 p with
    | none => .invalid
    | some (value, p) =>
        let p := p.dropWhile isBlank
        if !isLineEnd (p.headD lf) then .invalid
        else if contentLengthAgain p.length (nextLine p) then .invalid
        else .length value

/-- The walk of `proxy_parse_content_length`. Every position it reaches is the start of a
line, so that the check of the byte before is left out here. -/
def contentLengthWalk : Nat → List UInt8 → ContentLength
  | 0, _ => .missing
  | n + 1, p =>
      if p.length < contentLengthFieldName.length then .missing
      else if startsWithIgnoreCase contentLengthFieldName p then
        contentLengthValue (p.drop contentLengthFieldName.length)
      else contentLengthWalk n (nextLine p)

/-- `proxy_parse_content_length`. -/
def proxyParseContentLength (header : List UInt8) : ContentLength :=
  contentLengthWalk (header.length + 1) header

/-! ## Lists of tokens -/

/-- A token without the blanks behind it. -/
def trimToken (token : List UInt8) : List UInt8 := (token.reverse.dropWhile isBlank).reverse

/-- The tokens of a comma separated value, `p` standing behind the name of the field. Empty
tokens are passed over. A round of the loop takes at least one byte. -/
def tokensAt : Nat → List UInt8 → List (List UInt8)
  | 0, _ => []
  | _ + 1, [] => []
  | n + 1, c :: rest =>
      if isLineEnd c then []
      else
        let p := (c :: rest).dropWhile (fun c => isBlank c || c == 44)
        let token := trimToken (p.takeWhile (fun c => !(c == 44 || isLineEnd c)))
        let later := tokensAt n (p.dropWhile (fun c => !(c == 44 || isLineEnd c)))
        if token = [] then later else token :: later

/-- The tokens of all fields `name` of a header, in order. Behind a value the walk goes on in
the middle of a line, where no name is looked for. -/
def fieldTokens (name : List UInt8) : Nat → Bool → List UInt8 → List (List UInt8)
  | 0, _, _ => []
  | n + 1, atStart, p =>
      if p.length < name.length then []
      else if atStart ∧ startsWithIgnoreCase name p then
        let value := p.drop name.length
        tokensAt (value.length + 1) value ++
          fieldTokens name n false (value.dropWhile (fun c => !isLineEnd c))
      else fieldTokens name n true (nextLine p)

/-- The walk of `fieldTokens`, asked only whether it finds the field. -/
def hasField (name : List UInt8) : Nat → List UInt8 → Bool
  | 0, _ => false
  | n + 1, p =>
      if p.length < name.length then false
      else startsWithIgnoreCase name p || hasField name n (nextLine p)

/-! ## Transfer-Encoding -/

/-- `PROXY_TE_MODE`: how a message frames its body. -/
inductive ProxyTeMode where
  /-- There is no `Transfer-Encoding` at all. -/
  | none
  /-- `chunked` is the final coding. -/
  | chunked
  /-- The field is there, but `chunked` is not final. -/
  | other
  deriving DecidableEq, Repr

/-- The name, with its colon. -/
def transferEncodingFieldName : List UInt8 := ascii "Transfer-Encoding:"

/-- `proxy_check_transfer_encoding`. Only the last coding counts. -/
def proxyCheckTransferEncoding (header : List UInt8) : ProxyTeMode :=
  if hasField transferEncodingFieldName (header.length + 1) header then
    match (fieldTokens transferEncodingFieldName (header.length + 1) true header).getLast? with
    | some token => if sameIgnoreCase token (ascii "chunked") then .chunked else .other
    | none => .other
  else .none

/-! ## Upgrades -/

/-- The names, with their colons. -/
def connectionFieldName : List UInt8 := ascii "Connection:"

def upgradeFieldName : List UInt8 := ascii "Upgrade:"

/-- `proxy_header_has_connection_upgrade`. -/
def proxyHeaderHasConnectionUpgrade (header : List UInt8) : Bool :=
  (fieldTokens connectionFieldName (header.length + 1) true header).any
    (fun token => sameIgnoreCase token (ascii "upgrade"))

/-- `proxy_request_is_upgrade`: both fields are there. `Upgrade` is looked for behind the
request line. -/
def proxyRequestIsUpgrade (header : List UInt8) : Bool :=
  proxyHeaderHasConnectionUpgrade header &&
    hasField upgradeFieldName header.length (nextLine header)

/-- The walk of `proxy_get_upgrade_value`, which goes from byte to byte and looks for the
name at the start of a line. -/
def upgradeValueWalk : Bool → List UInt8 → Option (List UInt8)
  | _, [] => none
  | atStart, c :: rest =>
      if (c :: rest).length < 8 then none
      else if atStart ∧ startsWithIgnoreCase upgradeFieldName (c :: rest) then
        some (trimToken ((valueAt (((c :: rest).drop 8).dropWhile isBlank)).take 63))
      else upgradeValueWalk (c == lf) rest

/-- `proxy_get_upgrade_value`: the value of the `Upgrade` field, if it is not empty. The
caller's buffer has 64 bytes. -/
def proxyGetUpgradeValue (header : List UInt8) : Option (List UInt8) :=
  (upgradeValueWalk true header).filter (· ≠ [])

/-- `proxy_get_status_code`: the up to three digits behind the first blank. -/
def proxyGetStatusCode (header : List UInt8) : Option Nat :=
  let p := (header.dropWhile (· ≠ 32)).drop 1
  let digits := (p.take 3).takeWhile isDigit
  if digits = [] then none else some (decValue digits)

/-! ## Rewriting a header -/

/-- The walk of `proxy_force_connection_close`. The value of the first `Connection` field is
overwritten and filled up with blanks; a value that is too short is left alone. -/
def forceConnectionCloseWalk : Nat → List UInt8 → Option (List UInt8)
  | 0, _ => none
  | n + 1, p =>
      if p.length < connectionFieldName.length then none
      else if startsWithIgnoreCase connectionFieldName p then
        let value := p.drop connectionFieldName.length
        let length := (valueAt value).length
        if length < 6 then none
        else some (p.take connectionFieldName.length ++ ascii " close" ++
          List.replicate (length - 6) 32 ++ value.drop length)
      else
        (forceConnectionCloseWalk n (nextLine p)).map
          (p.take (p.length - (nextLine p).length) ++ ·)

/-- `proxy_force_connection_close`: the header with its `Connection` field set to `close`, if
it has one with room for it. The first line is no field. -/
def proxyForceConnectionClose (header : List UInt8) : Option (List UInt8) :=
  (forceConnectionCloseWalk header.length (nextLine header)).map
    (header.take (header.length - (nextLine header).length) ++ ·)

/-- The walk of `proxy_extract_host_header`. -/
def hostWalk : Nat → List UInt8 → List UInt8
  | 0, _ => []
  | n + 1, p =>
      if p.length < 5 then []
      else if startsWithIgnoreCase (ascii "Host:") p then
        (valueAt ((p.drop 5).dropWhile isBlank)).take 255
      else hostWalk n (nextLine p)

/-- `proxy_extract_host_header`, as the C string that the caller's buffer of 256 bytes then
holds. -/
def proxyExtractHostHeader (header : List UInt8) : List UInt8 :=
  cString (hostWalk (header.length + 1) header)

/-- Insert lines before the empty line that ends the header. -/
def insertLines (header lines : List UInt8) : List UInt8 :=
  header.take (header.length - 2) ++ lines ++ crlf

/-! ## Where a header ends -/

theorem proxyFindHeaderEnd_append {s : List UInt8} {e : Nat} (h : proxyFindHeaderEnd s = some e)
    (t : List UInt8) : proxyFindHeaderEnd (s ++ t) = some e := by
  induction s generalizing e with
  | nil => simp [proxyFindHeaderEnd] at h
  | cons c s ih =>
      rw [proxyFindHeaderEnd] at h
      rw [List.cons_append, proxyFindHeaderEnd]
      split_ifs at h with hp
      · have hp' : crlf ++ crlf <+: c :: (s ++ t) := hp.trans (List.prefix_append (c :: s) t)
        rw [if_pos hp']
        exact h
      · obtain ⟨e', he', rfl⟩ := Option.map_eq_some_iff.mp h
        -- a CRLFCRLF that reaches into the new bytes would start behind the one that was found
        have hlen : 4 ≤ s.length := by
          clear ih h hp
          induction s generalizing e' with
          | nil => simp [proxyFindHeaderEnd] at he'
          | cons d s ih =>
              rw [proxyFindHeaderEnd] at he'
              split_ifs at he' with hd
              · have := hd.length_le
                simpa [crlf] using this
              · obtain ⟨e'', he'', -⟩ := Option.map_eq_some_iff.mp he'
                have := ih e'' he''
                simp only [List.length_cons]
                omega
        have hnp : ¬ crlf ++ crlf <+: c :: (s ++ t) := by
          intro hpre
          exact hp (List.prefix_of_prefix_length_le hpre (List.prefix_append (c :: s) t)
            (by simp only [crlf, List.length_append, List.length_cons, List.length_nil]; omega))
        rw [if_neg hnp, ih he']
        rfl

/-- A header block: what stands before the end that was found ends in an empty line. -/
theorem proxyFindHeaderEnd_spec {s : List UInt8} {e : Nat} (h : proxyFindHeaderEnd s = some e) :
    ∃ b t, s = b ++ (crlf ++ crlf) ++ t ∧ e = b.length + 4 := by
  induction s generalizing e with
  | nil => simp [proxyFindHeaderEnd] at h
  | cons c s ih =>
      rw [proxyFindHeaderEnd] at h
      split_ifs at h with hp
      · obtain ⟨t, ht⟩ := hp
        exact ⟨[], t, by simpa using ht.symm, by simpa using h.symm⟩
      · obtain ⟨e', he', rfl⟩ := Option.map_eq_some_iff.mp h
        obtain ⟨b, t, rfl, rfl⟩ := ih he'
        exact ⟨c :: b, t, by simp, Nat.add_right_comm b.length 4 1⟩

theorem proxyFindHeaderEnd_le {s : List UInt8} {e : Nat} (h : proxyFindHeaderEnd s = some e) :
    4 ≤ e ∧ e ≤ s.length := by
  obtain ⟨b, t, rfl, rfl⟩ := proxyFindHeaderEnd_spec h
  simp only [crlf, List.length_append, List.length_cons, List.length_nil]
  omega

/-! ## The lines of a block -/

/-- The lines of a block, without the LF behind them. -/
def lines : List UInt8 → List (List UInt8)
  | [] => [[]]
  | c :: rest =>
      if c = lf then [] :: lines rest
      else
        match lines rest with
        | [] => [[c]]
        | l :: ls => (c :: l) :: ls

theorem lines_ne_nil (p : List UInt8) : lines p ≠ [] := by
  cases p with
  | nil => simp [lines]
  | cons c p =>
      rw [lines]
      split_ifs
      · simp
      · split <;> simp

theorem lines_append_lf (a b : List UInt8) : lines (a ++ lf :: b) = lines a ++ lines b := by
  induction a with
  | nil => simp [lines]
  | cons c a ih =>
      rw [List.cons_append, lines, lines, ih]
      by_cases hc : c = lf
      · simp [hc]
      · rw [if_neg hc, if_neg hc]
        obtain ⟨l, ls, hl⟩ := List.exists_cons_of_ne_nil (lines_ne_nil a)
        simp [hl]

theorem lines_of_not_mem {p : List UInt8} (h : lf ∉ p) : lines p = [p] := by
  induction p with
  | nil => rfl
  | cons c p ih =>
      rw [List.mem_cons, not_or] at h
      rw [lines, if_neg (fun hc => h.1 hc.symm), ih h.2]

/-- A block is its first line, and the lines behind the next LF if there is one. -/
theorem lines_step (p : List UInt8) :
    (lf ∉ p ∧ lines p = [p] ∧ nextLine p = []) ∨
      ∃ l, lf ∉ l ∧ p = l ++ lf :: nextLine p ∧ lines p = l :: lines (nextLine p) := by
  by_cases h : lf ∈ p
  · right
    have hsplit := List.takeWhile_append_dropWhile (p := (· ≠ lf)) (l := p)
    have hne : p.dropWhile (· ≠ lf) ≠ [] := by
      intro hnil
      rw [List.dropWhile_eq_nil_iff] at hnil
      simpa using hnil lf h
    obtain ⟨c, rest, hd⟩ := List.exists_cons_of_ne_nil hne
    have hc : c = lf := by
      have := List.head?_dropWhile_not (· ≠ lf) p
      rw [hd] at this
      simpa using this
    have hnl : lf ∉ p.takeWhile (· ≠ lf) := by
      intro hm
      simpa using List.mem_takeWhile_imp hm
    have hnext : nextLine p = rest := by rw [nextLine, hd]; rfl
    rw [hd, hc] at hsplit
    refine ⟨p.takeWhile (· ≠ lf), hnl, ?_, ?_⟩
    · rw [hnext]
      exact hsplit.symm
    · rw [hnext]
      conv_lhs => rw [← hsplit]
      rw [lines_append_lf, lines_of_not_mem hnl]
      rfl
  · left
    refine ⟨h, lines_of_not_mem h, ?_⟩
    rw [nextLine, List.dropWhile_eq_nil_iff.mpr, List.drop_nil]
    intro c hc
    simpa using fun hcl : c = lf => h (hcl ▸ hc)

/-! ## Fields by lines -/

/-- A field name, with its colon: not empty, and without an LF. -/
structure FieldName (name : List UInt8) : Prop where
  ne_nil : name ≠ []
  noLF : ∀ t ∈ name, toLower t ≠ toLower lf

theorem FieldName.pos {name : List UInt8} (h : FieldName name) : 0 < name.length :=
  List.length_pos_iff.mpr h.ne_nil

theorem fieldName_of_all {name : List UInt8} (hne : name ≠ [])
    (h : name.all (fun t => toLower t != toLower lf) = true) : FieldName name := by
  refine ⟨hne, fun t ht heq => ?_⟩
  have := List.all_eq_true.mp h t ht
  rw [heq, bne_self_eq_false] at this
  cases this

theorem contentLengthFieldName_field : FieldName contentLengthFieldName :=
  fieldName_of_all (by decide) rfl

theorem transferEncodingFieldName_field : FieldName transferEncodingFieldName :=
  fieldName_of_all (by decide) rfl

theorem connectionFieldName_field : FieldName connectionFieldName :=
  fieldName_of_all (by decide) rfl

theorem upgradeFieldName_field : FieldName upgradeFieldName :=
  fieldName_of_all (by decide) rfl

/-- The lines of a block that are fields of the name. -/
def fieldLines (name block : List UInt8) : List (List UInt8) :=
  (lines block).filter (startsWithIgnoreCase name)

theorem fieldLines_step {name : List UInt8} (hname : FieldName name) (p : List UInt8) :
    fieldLines name p =
      (if startsWithIgnoreCase name p then [p.takeWhile (· ≠ lf)] else []) ++
        fieldLines name (nextLine p) := by
  rcases lines_step p with ⟨hno, hlines, hnext⟩ | ⟨l, hl, hp, hlines⟩
  · have htake : p.takeWhile (· ≠ lf) = p := by
      rw [List.takeWhile_eq_self_iff]
      intro c hc
      simpa using fun hcl : c = lf => hno (hcl ▸ hc)
    have hnil : startsWithIgnoreCase name [] = false := by
      cases name with
      | nil => exact absurd rfl hname.ne_nil
      | cons t ts => rfl
    rw [fieldLines, fieldLines, hlines, hnext, htake]
    by_cases h : startsWithIgnoreCase name p
    · simp [h, lines, hnil]
    · simp [h, lines, hnil]
  · have htake : p.takeWhile (· ≠ lf) = l := by
      rw [hp, List.takeWhile_append_of_pos]
      · simp
      · intro c hc
        simpa using fun hcl : c = lf => hl (hcl ▸ hc)
    have hstart : startsWithIgnoreCase name p = startsWithIgnoreCase name l := by
      rw [hp]
      exact startsWithIgnoreCase_stop hname.noLF l _
    rw [fieldLines, fieldLines, hlines, htake, hstart, List.filter_cons]
    split <;> rfl

/-- A block that is shorter than the name has no such field. -/
theorem fieldLines_of_short {name p : List UInt8} (hname : FieldName name)
    (h : p.length < name.length) : fieldLines name p = [] := by
  induction hn : p.length using Nat.strong_induction_on generalizing p with
  | _ n ih =>
      subst hn
      rw [fieldLines_step hname]
      have hstart : startsWithIgnoreCase name p = false := by
        by_contra hs
        rw [Bool.not_eq_false] at hs
        exact absurd (startsWithIgnoreCase_length hs) (Nat.not_le.mpr h)
      rw [if_neg (by simp [hstart]), List.nil_append]
      rcases lines_step p with ⟨-, -, hnext⟩ | ⟨l, -, hp, -⟩
      · rw [hnext]
        cases name with
        | nil => exact absurd rfl hname.ne_nil
        | cons t ts => rfl
      · have hlt : (nextLine p).length < p.length := by
          conv_rhs => rw [hp]
          simp only [List.length_append, List.length_cons]
          omega
        exact ih _ hlt (Nat.lt_trans hlt h) rfl

theorem nextLine_length_lt {p : List UInt8} (h : p ≠ []) : (nextLine p).length < p.length := by
  rcases lines_step p with ⟨-, -, hnext⟩ | ⟨l, -, hp, -⟩
  · rw [hnext]
    exact List.length_pos_iff.mpr h
  · conv_rhs => rw [hp]
    simp only [List.length_append, List.length_cons]
    omega

/-- **The walk finds a field if and only if there is one.** -/
theorem hasField_iff {name : List UInt8} (hname : FieldName name) (n : Nat) (p : List UInt8)
    (hn : p.length ≤ n) : hasField name n p = true ↔ fieldLines name p ≠ [] := by
  induction n generalizing p with
  | zero =>
      have hp : p = [] := List.length_eq_zero_iff.mp (Nat.le_zero.mp hn)
      subst hp
      have hnil : fieldLines name [] = [] := fieldLines_of_short hname hname.pos
      rw [hnil]
      simp [hasField]
  | succ n ih =>
      rw [hasField]
      by_cases hshort : p.length < name.length
      · rw [if_pos hshort, fieldLines_of_short hname hshort]
        simp
      · have hp : p ≠ [] := fun h => hshort (by rw [h]; exact hname.pos)
        have hlt := nextLine_length_lt hp
        rw [if_neg hshort, Bool.or_eq_true, ih _ (by omega), fieldLines_step hname p]
        by_cases hs : startsWithIgnoreCase name p
        · simp [hs]
        · simp [hs]

/-- `proxy_check_transfer_encoding` finds nothing if and only if no line is a
`Transfer-Encoding` field. -/
theorem proxyCheckTransferEncoding_none_iff (header : List UInt8) :
    proxyCheckTransferEncoding header = .none ↔
      fieldLines transferEncodingFieldName header = [] := by
  have hiff := hasField_iff transferEncodingFieldName_field (header.length + 1) header (by omega)
  unfold proxyCheckTransferEncoding
  by_cases h : hasField transferEncodingFieldName (header.length + 1) header
  · rw [if_pos h]
    have hne := hiff.mp h
    constructor
    · intro hnone
      split at hnone
      · split_ifs at hnone
      · exact absurd hnone (by decide)
    · intro hnil
      exact absurd hnil hne
  · rw [if_neg h]
    simp only [true_iff]
    by_contra hne
    exact h (hiff.mpr hne)

/-! ## The length that a header gives -/

/-- A value that is a length: digits, with blanks around them, for a number that fits. -/
def IsLength (value : List UInt8) (n : Nat) : Prop :=
  ∃ a ds b, value = a ++ ds ++ b ∧ (∀ c ∈ a, isBlank c) ∧ (∀ c ∈ b, isBlank c) ∧ ds ≠ [] ∧
    (∀ c ∈ ds, isDigit c) ∧ decValue ds = n ∧ n ≤ int64Max

/-- The body length of a header: there is one `Content-Length` field with a length as its
value, or there is none and the length is zero. -/
def BodyLength (header : List UInt8) (n : Nat) : Prop :=
  (fieldLines contentLengthFieldName header = [] ∧ n = 0) ∨
    ∃ l, fieldLines contentLengthFieldName header = [l] ∧
      IsLength (valueAt (l.drop contentLengthFieldName.length)) n

theorem contentLengthAgain_eq (n : Nat) (p : List UInt8) :
    contentLengthAgain n p = hasField contentLengthFieldName n p := by
  induction n generalizing p with
  | zero => rfl
  | succ n ih =>
      rw [contentLengthAgain, hasField, ih]
      split_ifs with h1 h2
      · rfl
      · simp [h2]
      · simp [h2]

/-- The digits of a length are read to their end, and the value is the number. -/
theorem contentLengthDigits_spec {value : Nat} {p : List UInt8} {n : Nat} {rest : List UInt8}
    (hv : value ≤ int64Max) (h : contentLengthDigits value p = some (n, rest)) :
    ∃ ds, p = ds ++ rest ∧ (∀ c ∈ ds, isDigit c) ∧ n = decValueFrom value ds ∧ n ≤ int64Max ∧
      isDigit (rest.headD 0) = false := by
  induction p generalizing value with
  | nil =>
      simp only [contentLengthDigits, Option.some.injEq, Prod.mk.injEq] at h
      obtain ⟨rfl, rfl⟩ := h
      exact ⟨[], rfl, by simp, rfl, hv, by decide⟩
  | cons c p ih =>
      rw [contentLengthDigits] at h
      split_ifs at h with hc hbig
      · -- one more digit: the check before the multiplication keeps the value in range
        have hfit : value * 10 + (c.toNat - 48) ≤ int64Max := by
          have hdigit : c.toNat - 48 ≤ 9 := by
            simp only [isDigit, Bool.and_eq_true, decide_eq_true_eq, UInt8.le_iff_toNat_le] at hc
            have h57 : (57 : UInt8).toNat = 57 := rfl
            omega
          simp only [int64Max] at hbig ⊢
          omega
        obtain ⟨ds, rfl, hds, hn, hle, hrest⟩ := ih hfit h
        refine ⟨c :: ds, rfl, ?_, ?_, hle, hrest⟩
        · intro d hd
          rcases List.mem_cons.mp hd with rfl | hd
          · exact hc
          · exact hds d hd
        · rw [hn, decValueFrom, decValueFrom, List.foldl_cons, Nat.mul_comm]
      · simp only [Option.some.injEq, Prod.mk.injEq] at h
        obtain ⟨rfl, rfl⟩ := h
        exact ⟨[], rfl, by simp, rfl, hv, by simpa using hc⟩

theorem isLineEnd_of_isBlank {c : UInt8} (h : isBlank c = true) : isLineEnd c = false := by
  simp only [isBlank, Bool.or_eq_true, beq_iff_eq] at h
  rcases h with rfl | rfl
  · rfl
  · rfl

theorem isLineEnd_of_isDigit {c : UInt8} (h : isDigit c = true) : isLineEnd c = false := by
  cases hl : isLineEnd c with
  | false => rfl
  | true =>
      simp only [isLineEnd, Bool.or_eq_true, beq_iff_eq] at hl
      rcases hl with rfl | rfl
      · exact absurd h (by decide)
      · exact absurd h (by decide)

/-- A value ends where its line ends. -/
theorem valueAt_append {v rest : List UInt8} (hv : ∀ c ∈ v, isLineEnd c = false)
    (hrest : isLineEnd (rest.headD lf) = true) : valueAt (v ++ rest) = v := by
  rw [valueAt, List.takeWhile_append_of_pos (fun c hc => by simp [hv c hc])]
  cases rest with
  | nil => simp
  | cons c rest => simp [show isLineEnd c = true from hrest]

theorem nextLine_append {v : List UInt8} (hv : lf ∉ v) (rest : List UInt8) :
    nextLine (v ++ rest) = nextLine rest := by
  rw [nextLine, nextLine, List.dropWhile_append_of_pos]
  intro c hc
  simpa using fun hcl : c = lf => hv (hcl ▸ hc)

theorem not_mem_lf_of_isLineEnd {v : List UInt8} (hv : ∀ c ∈ v, isLineEnd c = false) : lf ∉ v :=
  fun h => absurd (hv lf h) (by decide)

/-- **A value that is accepted is a length, and no second field follows.** -/
theorem contentLengthValue_spec {p : List UInt8} {n : Nat}
    (h : contentLengthValue p = .length n) :
    IsLength (valueAt p) n ∧ fieldLines contentLengthFieldName (nextLine p) = [] := by
  simp only [contentLengthValue] at h
  split_ifs at h with hdigit
  split at h
  · exact absurd h (by simp)
  · rename_i value p₂ hvalue
    split_ifs at h with hend hagain
    have hn : value = n := by simpa using h
    subst hn
    obtain ⟨ds, hds, hall, hval, hle, -⟩ := contentLengthDigits_spec (Nat.zero_le _) hvalue
    -- the value is made of blanks, digits and blanks
    have hp := List.takeWhile_append_dropWhile (p := isBlank) (l := p)
    have hp₂ := List.takeWhile_append_dropWhile (p := isBlank) (l := p₂)
    have ha : ∀ c ∈ p.takeWhile isBlank, isBlank c := fun c hc => List.mem_takeWhile_imp hc
    have hb : ∀ c ∈ p₂.takeWhile isBlank, isBlank c := fun c hc => List.mem_takeWhile_imp hc
    have hsplit : p = p.takeWhile isBlank ++ ds ++ p₂.takeWhile isBlank ++ p₂.dropWhile isBlank := by
      rw [List.append_assoc, hp₂, List.append_assoc, ← hds]
      exact hp.symm
    have hne : ds ≠ [] := by
      rintro rfl
      rw [List.nil_append] at hds
      rw [hds] at hdigit
      rw [hds] at hvalue
      cases p₂ with
      | nil => exact absurd rfl hdigit
      | cons c p₂ =>
          rw [List.headD_cons, Bool.not_eq_true, Bool.not_eq_false'] at hdigit
          obtain ⟨-, -, -, -, -, hrest⟩ := contentLengthDigits_spec (Nat.zero_le _) hvalue
          rw [List.headD_cons, hdigit] at hrest
          exact absurd hrest (by decide)
    have hline : ∀ c ∈ p.takeWhile isBlank ++ ds ++ p₂.takeWhile isBlank, isLineEnd c = false := by
      intro c hc
      rcases List.mem_append.mp hc with hc | hc
      · rcases List.mem_append.mp hc with hc | hc
        · exact isLineEnd_of_isBlank (ha c hc)
        · exact isLineEnd_of_isDigit (hall c hc)
      · exact isLineEnd_of_isBlank (hb c hc)
    have hend' : isLineEnd ((p₂.dropWhile isBlank).headD lf) = true := by simpa using hend
    constructor
    · rw [hsplit, valueAt_append hline hend']
      exact ⟨_, ds, _, rfl, ha, hb, hne, hall, hval.symm, hle⟩
    · rw [hsplit, nextLine_append (not_mem_lf_of_isLineEnd hline)]
      by_contra hfields
      apply hagain
      rw [contentLengthAgain_eq]
      refine (hasField_iff contentLengthFieldName_field _ _ ?_).mpr hfields
      by_cases hnil : p₂.dropWhile isBlank = []
      · rw [hnil]
        exact Nat.le_refl _
      · exact Nat.le_of_lt (nextLine_length_lt hnil)

/-- The value of a field is that of its line. -/
theorem valueAt_line (p : List UInt8) (n : Nat) (hn : n ≤ (p.takeWhile (· ≠ lf)).length) :
    valueAt ((p.takeWhile (· ≠ lf)).drop n) = valueAt (p.drop n) := by
  have hp := List.takeWhile_append_dropWhile (p := (· ≠ lf)) (l := p)
  have hdrop : p.drop n = (p.takeWhile (· ≠ lf)).drop n ++ p.dropWhile (· ≠ lf) := by
    conv_lhs => rw [← hp]
    rw [List.drop_append_of_le_length hn]
  have hstop : isLineEnd ((p.dropWhile (· ≠ lf)).headD lf) = true := by
    have hhead := List.head?_dropWhile_not (· ≠ lf) p
    cases hd : p.dropWhile (· ≠ lf) with
    | nil => decide
    | cons c rest =>
        rw [hd] at hhead
        have hc : c = lf := by simpa using hhead
        rw [hc]
        rfl
  rw [hdrop, valueAt, valueAt, List.takeWhile_append]
  split_ifs with hall
  · have hnil : (p.dropWhile (· ≠ lf)).takeWhile (fun c => !isLineEnd c) = [] := by
      cases hd : p.dropWhile (· ≠ lf) with
      | nil => rfl
      | cons c rest =>
          rw [hd] at hstop
          simp [show isLineEnd c = true from hstop]
    rw [hnil, List.append_nil]
    exact (List.takeWhile_prefix _).eq_of_length hall
  · rfl

/-- The name of a field stands in the first line. -/
theorem firstLine_of_field {name p : List UInt8} (hname : FieldName name)
    (h : startsWithIgnoreCase name p = true) :
    name.length ≤ (p.takeWhile (· ≠ lf)).length := by
  rcases lines_step p with ⟨hno, -, -⟩ | ⟨l, hl, hp, -⟩
  · rw [List.takeWhile_eq_self_iff.mpr]
    · exact startsWithIgnoreCase_length h
    · intro c hc
      simpa using fun hcl : c = lf => hno (hcl ▸ hc)
  · rw [hp, startsWithIgnoreCase_stop hname.noLF] at h
    rw [hp, List.takeWhile_append_of_pos]
    · exact Nat.le_trans (startsWithIgnoreCase_length h) (by simp)
    · intro c hc
      simpa using fun hcl : c = lf => hl (hcl ▸ hc)

theorem nextLine_drop {p : List UInt8} {n : Nat} (h : n ≤ (p.takeWhile (· ≠ lf)).length) :
    nextLine (p.drop n) = nextLine p := by
  have hp := List.takeWhile_append_dropWhile (p := (· ≠ lf)) (l := p)
  have hno : lf ∉ p.takeWhile (· ≠ lf) := fun hm => by simpa using List.mem_takeWhile_imp hm
  have htake : lf ∉ p.take n := by
    intro hm
    rw [← hp, List.take_append_of_le_length h] at hm
    exact hno (List.mem_of_mem_take hm)
  conv_rhs => rw [← List.take_append_drop n p]
  exact (nextLine_append htake _).symm

/-- The walk stops at the first field. -/
theorem contentLengthWalk_eq (k : Nat) (p : List UInt8) (hk : p.length ≤ k) :
    (fieldLines contentLengthFieldName p = [] → contentLengthWalk k p = .missing) ∧
      (fieldLines contentLengthFieldName p ≠ [] →
        ∃ q, startsWithIgnoreCase contentLengthFieldName q = true ∧
          fieldLines contentLengthFieldName p =
            q.takeWhile (· ≠ lf) :: fieldLines contentLengthFieldName (nextLine q) ∧
          contentLengthWalk k p =
            contentLengthValue (q.drop contentLengthFieldName.length)) := by
  induction k generalizing p with
  | zero =>
      have hnil : p = [] := List.length_eq_zero_iff.mp (Nat.le_zero.mp hk)
      subst hnil
      refine ⟨fun _ => rfl, fun hne => absurd ?_ hne⟩
      exact fieldLines_of_short contentLengthFieldName_field contentLengthFieldName_field.pos
  | succ k ih =>
      rw [contentLengthWalk]
      by_cases hshort : p.length < contentLengthFieldName.length
      · rw [if_pos hshort]
        refine ⟨fun _ => rfl, fun hne => absurd ?_ hne⟩
        exact fieldLines_of_short contentLengthFieldName_field hshort
      · rw [if_neg hshort]
        have hstep := fieldLines_step contentLengthFieldName_field p
        by_cases hstart : startsWithIgnoreCase contentLengthFieldName p = true
        · rw [if_pos hstart] at hstep ⊢
          refine ⟨fun hnil => ?_, fun _ => ⟨p, hstart, hstep, rfl⟩⟩
          rw [hstep] at hnil
          cases hnil
        · rw [if_neg hstart, List.nil_append] at hstep
          rw [if_neg hstart, hstep]
          have hne : p ≠ [] := fun h => hshort (by rw [h]; decide)
          have hlt := nextLine_length_lt hne
          exact ih (nextLine p) (by omega)

theorem contentLengthValue_ne_missing (p : List UInt8) : contentLengthValue p ≠ .missing := by
  intro h
  simp only [contentLengthValue] at h
  split_ifs at h
  split at h
  · cases h
  · split_ifs at h

/-- **The length of a header that is not refused.** -/
theorem proxyParseContentLength_spec (header : List UInt8) :
    (proxyParseContentLength header = .missing → BodyLength header 0) ∧
      ∀ n, proxyParseContentLength header = .length n → BodyLength header n := by
  obtain ⟨hmissing, hfield⟩ := contentLengthWalk_eq (header.length + 1) header (by omega)
  unfold proxyParseContentLength
  by_cases hnil : fieldLines contentLengthFieldName header = []
  · rw [hmissing hnil]
    refine ⟨fun _ => .inl ⟨hnil, rfl⟩, fun n h => ?_⟩
    cases h
  · obtain ⟨q, hstart, hlines, hwalk⟩ := hfield hnil
    rw [hwalk]
    refine ⟨fun h => absurd h (contentLengthValue_ne_missing _), fun n h => .inr ?_⟩
    obtain ⟨hlen, hagain⟩ := contentLengthValue_spec h
    have hfit := firstLine_of_field contentLengthFieldName_field hstart
    refine ⟨q.takeWhile (· ≠ lf), ?_, ?_⟩
    · rw [hlines, ← nextLine_drop hfit, hagain]
    · rw [valueAt_line q _ hfit]
      exact hlen

/-! ## The tokens that a header gives -/

theorem dropWhile_takeWhile_comm {q r : UInt8 → Bool} (hqr : ∀ c, q c = true → r c = true)
    (p : List UInt8) : (p.takeWhile r).dropWhile q = (p.dropWhile q).takeWhile r := by
  induction p with
  | nil => rfl
  | cons c p ih =>
      by_cases hq : q c = true
      · simp [hq, hqr c hq, ih]
      · by_cases hr : r c = true
        · simp [hq, hr]
        · simp [hq, hr]

theorem dropWhile_dropWhile_of_imp {q r : UInt8 → Bool} (hqr : ∀ c, q c = true → r c = true)
    (p : List UInt8) : (p.dropWhile q).dropWhile r = p.dropWhile r := by
  induction p with
  | nil => rfl
  | cons c p ih =>
      by_cases hq : q c = true
      · simp [hq, hqr c hq, ih]
      · simp [hq]

theorem takeWhile_takeWhile_of_imp {q r : UInt8 → Bool} (hqr : ∀ c, q c = true → r c = true)
    (p : List UInt8) : (p.takeWhile r).takeWhile q = p.takeWhile q := by
  induction p with
  | nil => rfl
  | cons c p ih =>
      by_cases hq : q c = true
      · simp [hq, hqr c hq, ih]
      · by_cases hr : r c = true
        · simp [hq, hr]
        · simp [hq, hr]

theorem not_isLineEnd_of_separator (c : UInt8) (h : (isBlank c || c == 44) = true) :
    (!isLineEnd c) = true := by
  rw [Bool.or_eq_true] at h
  rcases h with hblank | hcomma
  · rw [isLineEnd_of_isBlank hblank]
    rfl
  · rw [beq_iff_eq] at hcomma
    rw [hcomma]
    rfl

theorem not_isLineEnd_of_inToken (c : UInt8) (h : (!(c == 44 || isLineEnd c)) = true) :
    (!isLineEnd c) = true := by
  rw [Bool.not_or, Bool.and_eq_true] at h
  exact h.2

/-- The tokens of a field depend on its value only. -/
theorem tokensAt_valueAt (n : Nat) (p : List UInt8) : tokensAt n p = tokensAt n (valueAt p) := by
  induction n generalizing p with
  | zero => rfl
  | succ n ih =>
      cases p with
      | nil => rfl
      | cons c rest =>
          by_cases hc : isLineEnd c = true
          · simp [tokensAt, valueAt, hc]
          · have hv : valueAt (c :: rest) = c :: valueAt rest := by simp [valueAt, hc]
            have hdrop := dropWhile_takeWhile_comm not_isLineEnd_of_separator (c :: rest)
            have htake := takeWhile_takeWhile_of_imp not_isLineEnd_of_inToken
              ((c :: rest).dropWhile (fun c => isBlank c || c == 44))
            have hlast := dropWhile_takeWhile_comm not_isLineEnd_of_inToken
              ((c :: rest).dropWhile (fun c => isBlank c || c == 44))
            have hv' : (c :: rest).takeWhile (fun c => !isLineEnd c) = c :: valueAt rest := hv
            rw [hv'] at hdrop
            rw [hv, tokensAt, tokensAt, if_neg hc, if_neg hc]
            simp only [hdrop, htake, hlast]
            rw [ih]
            rfl

/-- A round takes the separators and the token, at least one byte. -/
theorem tokensAt_round_lt {c : UInt8} {rest : List UInt8} (hc : ¬ isLineEnd c = true) :
    (((c :: rest).dropWhile (fun c => isBlank c || c == 44)).dropWhile
      (fun c => !(c == 44 || isLineEnd c))).length < (c :: rest).length := by
  by_cases hsep : (isBlank c || c == 44) = true
  · rw [List.dropWhile_cons, if_pos hsep]
    have h1 := (List.dropWhile_suffix (fun c => !(c == 44 || isLineEnd c))
      (l := rest.dropWhile (fun c => isBlank c || c == 44))).length_le
    have h2 := (List.dropWhile_suffix (fun c => isBlank c || c == 44) (l := rest)).length_le
    simp only [List.length_cons]
    omega
  · have h44 : (c == 44) = false := by
      rw [Bool.not_eq_true, Bool.or_eq_false_iff] at hsep
      exact hsep.2
    rw [List.dropWhile_cons, if_neg hsep, List.dropWhile_cons, if_pos (by simp [h44, hc])]
    have h1 := (List.dropWhile_suffix (fun c => !(c == 44 || isLineEnd c)) (l := rest)).length_le
    simp only [List.length_cons]
    omega

/-- Enough rounds are enough. -/
theorem tokensAt_fuel (n m : Nat) (p : List UInt8) (hn : p.length < n) (hm : p.length < m) :
    tokensAt n p = tokensAt m p := by
  induction n generalizing m p with
  | zero => omega
  | succ n ih =>
      cases m with
      | zero => omega
      | succ m =>
          cases p with
          | nil => rfl
          | cons c rest =>
              rw [tokensAt, tokensAt]
              by_cases hc : isLineEnd c = true
              · rw [if_pos hc, if_pos hc]
              · rw [if_neg hc, if_neg hc]
                have hlt := @tokensAt_round_lt c rest hc
                have hround := ih m _ (Nat.lt_of_lt_of_le hlt (Nat.le_of_lt_succ hn))
                  (Nat.lt_of_lt_of_le hlt (Nat.le_of_lt_succ hm))
                simp only [hround]

/-- The tokens of a value. -/
def tokensOf (value : List UInt8) : List (List UInt8) := tokensAt (value.length + 1) value

theorem tokensAt_eq {n : Nat} {p : List UInt8} (hn : p.length < n) :
    tokensAt n p = tokensOf (valueAt p) := by
  have hle : (valueAt p).length ≤ p.length := (List.takeWhile_prefix _).length_le
  rw [tokensAt_valueAt]
  exact tokensAt_fuel _ _ _ (by omega) (by omega)

/-- **The walk collects the tokens of all fields of the name.** -/
theorem fieldTokens_eq {name : List UInt8} (hname : FieldName name) (n : Nat) :
    (∀ p, p.length < n → fieldTokens name n true p =
        (fieldLines name p).flatMap (fun l => tokensOf (valueAt (l.drop name.length)))) ∧
      ∀ p, p.length < n → fieldTokens name n false p =
        (fieldLines name (nextLine p)).flatMap (fun l => tokensOf (valueAt (l.drop name.length))) := by
  induction n with
  | zero => exact ⟨fun p h => absurd h (by omega), fun p h => absurd h (by omega)⟩
  | succ n ih =>
      have hnext (p : List UInt8) (hp : p.length < n + 1) (hshort : ¬ p.length < name.length) :
          fieldTokens name n true (nextLine p) = (fieldLines name (nextLine p)).flatMap
            (fun l => tokensOf (valueAt (l.drop name.length))) := by
        have hne : p ≠ [] := fun h => hshort (by rw [h]; exact hname.pos)
        exact ih.1 _ (by have := nextLine_length_lt hne; omega)
      constructor
      · intro p hp
        rw [fieldTokens]
        by_cases hshort : p.length < name.length
        · rw [if_pos hshort, fieldLines_of_short hname hshort]
          rfl
        · rw [if_neg hshort, fieldLines_step hname p]
          by_cases hstart : startsWithIgnoreCase name p = true
          · have hfit := firstLine_of_field hname hstart
            rw [if_pos ⟨rfl, hstart⟩, if_pos hstart, List.flatMap_append, List.flatMap_singleton,
              valueAt_line p _ hfit]
            simp only
            rw [tokensAt_eq (Nat.lt_succ_self _)]
            -- behind the value the walk stands in the middle of the same line
            have hv : lf ∉ valueAt (p.drop name.length) := by
              intro hm
              have := List.mem_takeWhile_imp hm
              exact absurd this (by decide)
            have hrest : nextLine ((p.drop name.length).dropWhile (fun c => !isLineEnd c)) =
                nextLine p := by
              rw [← nextLine_drop hfit, ← nextLine_append hv]
              exact congrArg nextLine List.takeWhile_append_dropWhile
            have hlen : ((p.drop name.length).dropWhile (fun c => !isLineEnd c)).length < n := by
              have h1 := (List.dropWhile_suffix (fun c => !isLineEnd c)
                (l := p.drop name.length)).length_le
              have h2 := hname.pos
              rw [List.length_drop] at h1
              omega
            rw [ih.2 _ hlen, hrest]
          · rw [if_neg (by simp [hstart]), if_neg hstart, List.nil_append]
            exact hnext p hp hshort
      · intro p hp
        rw [fieldTokens]
        by_cases hshort : p.length < name.length
        · rw [if_pos hshort]
          have hle : (nextLine p).length < name.length := by
            by_cases hne : p = []
            · rw [hne]
              exact hname.pos
            · exact Nat.lt_trans (nextLine_length_lt hne) hshort
          rw [fieldLines_of_short hname hle]
          rfl
        · rw [if_neg hshort, if_neg (by simp)]
          exact hnext p hp hshort

end CWebUI.Proxy
