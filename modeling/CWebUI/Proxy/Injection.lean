import CWebUI.Proxy.HeaderFields

set_option autoImplicit false

/-! # What the proxy writes into a header

The proxy passes a header on with lines of its own before the empty line that ends it, and
with the value of the `Connection` field overwritten. The point of this file is that a request
that is no upgrade does not become one by that (`proxyInjectForwardedHeaders_upgrade`): the
decision is made twice, on the header as received and on the header as sent.
-/

namespace CWebUI.Proxy

open ByteString

/-- What a proxy connection knows from its start: the socket of the backend, the address of
the client in its text form, and whether the client speaks TLS. -/
structure ProxySetup where
  backendPath : List UInt8
  clientIpStr : List UInt8
  useSsl : Bool
  /-- The text form of an address is one line. -/
  clientIpStr_line : lf ∉ clientIpStr

/-- The line that tells the peer not to keep the connection. -/
def connectionCloseLine : List UInt8 := ascii "Connection: close\r\n"

/-- The text that is put into a request. -/
def forwardedHeaders (setup : ProxySetup) (header : List UInt8) (connClose : List UInt8) :
    List UInt8 :=
  let host := proxyExtractHostHeader header
  ascii "X-Forwarded-For: " ++ setup.clientIpStr ++ crlf ++
    (ascii "X-Forwarded-Host: " ++ (if host = [] then ascii "unknown" else host) ++ crlf ++
      (ascii "X-Forwarded-Proto: " ++ ascii (if setup.useSsl then "https" else "http") ++ crlf ++
        connClose))

/-- `proxy_inject_forwarded_headers`, on the header part of the buffer. `Connection: close` is
forced on the backend, except for an upgrade. The text has a buffer of 512 bytes. -/
def proxyInjectForwardedHeaders (setup : ProxySetup) (header : List UInt8) :
    Option (List UInt8) :=
  let (forced, connClose) :=
    if proxyRequestIsUpgrade header then (header, [])
    else
      match proxyForceConnectionClose header with
      | some forced => (forced, [])
      | none => (header, connectionCloseLine)
  let text := forwardedHeaders setup forced connClose
  if text.length ≥ 512 then none else some (insertLines forced text)

/-- `proxy_inject_connection_close`, on the header part of the buffer. -/
def proxyInjectConnectionClose (header : List UInt8) : List UInt8 :=
  match proxyForceConnectionClose header with
  | some forced => forced
  | none => insertLines header connectionCloseLine

/-! ## Upgrades by lines -/

/-- The line is a `Connection` field with the token `upgrade`. -/
def AsksUpgrade (l : List UInt8) : Prop :=
  startsWithIgnoreCase connectionFieldName l = true ∧
    (tokensOf (valueAt (l.drop connectionFieldName.length))).any
      (fun token => sameIgnoreCase token (ascii "upgrade")) = true

theorem proxyHeaderHasConnectionUpgrade_iff (header : List UInt8) :
    proxyHeaderHasConnectionUpgrade header = true ↔ ∃ l ∈ lines header, AsksUpgrade l := by
  rw [proxyHeaderHasConnectionUpgrade,
    (fieldTokens_eq connectionFieldName_field (header.length + 1)).1 header (by omega),
    List.any_flatMap, List.any_eq_true]
  simp only [fieldLines, List.mem_filter, AsksUpgrade]
  constructor
  · rintro ⟨l, ⟨hl, hs⟩, ht⟩
    exact ⟨l, hl, hs, ht⟩
  · rintro ⟨l, hl, hs, ht⟩
    exact ⟨l, ⟨hl, hs⟩, ht⟩

theorem proxyRequestIsUpgrade_iff (header : List UInt8) :
    proxyRequestIsUpgrade header = true ↔
      (∃ l ∈ lines header, AsksUpgrade l) ∧
        ∃ l ∈ (lines header).tail, startsWithIgnoreCase upgradeFieldName l = true := by
  have hle : (nextLine header).length ≤ header.length := by
    by_cases h : header = []
    · rw [h]
      exact Nat.le_refl _
    · exact Nat.le_of_lt (nextLine_length_lt h)
  have hfield : hasField upgradeFieldName header.length (nextLine header) = true ↔
      ∃ l ∈ (lines header).tail, startsWithIgnoreCase upgradeFieldName l = true := by
    rw [hasField_iff upgradeFieldName_field _ _ hle, fieldLines, ne_eq,
      List.filter_eq_nil_iff]
    rcases lines_step header with ⟨-, hlines, hnext⟩ | ⟨l, -, -, hlines⟩
    · rw [hnext, hlines]
      constructor
      · intro h
        exact absurd (by decide) h
      · rintro ⟨l, hl, -⟩
        exact absurd hl (by simp)
    · rw [hlines, List.tail_cons]
      push Not
      rfl
  rw [proxyRequestIsUpgrade, Bool.and_eq_true, proxyHeaderHasConnectionUpgrade_iff, hfield]

/-! ## Overwriting a value -/

/-- Text without an LF in front of a block goes into its first line. -/
theorem lines_front (r : List UInt8) :
    ∃ t B, (∀ y, lf ∉ y → lines (y ++ r) = (y ++ t) :: B) ∧ t <+: r ∧
      (∀ c, r.head? = some c → c ≠ lf → t.head? = some c) := by
  rcases lines_step r with ⟨hno, -, -⟩ | ⟨t, ht, hr, -⟩
  · refine ⟨r, [], fun y hy => lines_of_not_mem ?_, List.prefix_rfl, fun c hc _ => hc⟩
    rw [List.mem_append, not_or]
    exact ⟨hy, hno⟩
  · refine ⟨t, lines (nextLine r), fun y hy => ?_, ⟨_, hr.symm⟩, fun c hc hne => ?_⟩
    · rw [hr, ← List.append_assoc, lines_append_lf, lines_of_not_mem]
      · rw [← hr]
        rfl
      · rw [List.mem_append, not_or]
        exact ⟨hy, ht⟩
    · cases t with
      | nil =>
          rw [hr] at hc
          exact absurd (by simpa using hc.symm) hne
      | cons d t =>
          rw [hr] at hc
          simpa using hc

/-- A block with one `Connection` line overwritten: the value of the new one is `close`. -/
structure Overwritten (p p' : List UInt8) : Prop where
  length : p'.length = p.length
  long : 3 ≤ p.length
  lines : ∃ A l l' B, lines p = A ++ l :: B ∧ lines p' = A ++ l' :: B ∧
    (startsWithIgnoreCase connectionFieldName l = true ∧
      startsWithIgnoreCase connectionFieldName l' = true) ∧
    ∃ k, valueAt (l'.drop connectionFieldName.length) = ascii " close" ++ List.replicate k 32
  /-- The end of the block is not touched. -/
  ending : [lf, cr, lf] <:+ p → [lf, cr, lf] <:+ p'

/-- An ending that consists of line ends does not reach into a value before it. -/
theorem ending_of_value {x v r : List UInt8} (hv : v ≠ []) (hline : ∀ c ∈ v, isLineEnd c = false)
    (h : [lf, cr, lf] <:+ x ++ v ++ r) : [lf, cr, lf] <:+ r := by
  by_cases hlen : 3 ≤ r.length
  · exact List.suffix_of_suffix_length_le h (List.suffix_append _ _) hlen
  · obtain ⟨v', c, rfl⟩ := (List.eq_nil_or_concat v).resolve_left hv
    have hc : c :: r <:+ [lf, cr, lf] := by
      refine List.suffix_of_suffix_length_le ⟨x ++ v', by simp⟩ h ?_
      simp only [List.length_cons, List.length_nil]
      omega
    have hmem : c ∈ [lf, cr, lf] := hc.subset List.mem_cons_self
    have hend := hline c (by simp)
    have hcase : c = lf ∨ c = cr := by
      simp only [List.mem_cons, List.not_mem_nil, or_false] at hmem
      tauto
    rcases hcase with rfl | rfl
    · exact absurd hend (by decide)
    · exact absurd hend (by decide)

/-- The value of the first field is overwritten. -/
theorem overwritten_line {p : List UInt8}
    (hstart : startsWithIgnoreCase connectionFieldName p = true)
    (hroom : 6 ≤ (valueAt (p.drop connectionFieldName.length)).length) :
    Overwritten p (p.take connectionFieldName.length ++ ascii " close" ++
      List.replicate ((valueAt (p.drop connectionFieldName.length)).length - 6) 32 ++
      (p.drop connectionFieldName.length).drop
        (valueAt (p.drop connectionFieldName.length)).length) := by
  set name := p.take connectionFieldName.length with hname
  set value := p.drop connectionFieldName.length with hvalue
  have hsplit : value = valueAt value ++ value.drop (valueAt value).length :=
    (List.prefix_iff_eq_append.mp (List.takeWhile_prefix _)).symm
  have hdrop : value.drop (valueAt value).length = value.dropWhile (fun c => !isLineEnd c) := by
    conv_lhs =>
      arg 2
      rw [← List.takeWhile_append_dropWhile (p := fun c => !isLineEnd c) (l := value)]
    exact List.drop_left
  set v := valueAt value with hv
  set r := value.drop v.length with hr
  have hp : p = name ++ v ++ r := by
    rw [List.append_assoc, ← hsplit]
    exact (List.take_append_drop _ _).symm
  have hfit := firstLine_of_field connectionFieldName_field hstart
  have hnameLen : name.length = connectionFieldName.length := by
    rw [hname, List.length_take]
    exact Nat.min_eq_left (startsWithIgnoreCase_length hstart)
  -- neither the name nor the two values hold a line end
  have hnameLF : lf ∉ name := by
    intro hm
    have hno : lf ∉ p.takeWhile (· ≠ lf) := fun hm => by simpa using List.mem_takeWhile_imp hm
    have hpre : name <+: p.takeWhile (· ≠ lf) :=
      List.prefix_of_prefix_length_le (List.take_prefix _ _) (List.takeWhile_prefix _)
        (by rw [hnameLen]; exact hfit)
    exact hno (hpre.subset hm)
  have hvline : ∀ c ∈ v, isLineEnd c = false := by
    intro c hc
    simpa using List.mem_takeWhile_imp hc
  set close := ascii " close" ++ List.replicate (v.length - 6) 32 with hclose
  have hcloseLine : ∀ c ∈ close, isLineEnd c = false := by
    have hword : ∀ c ∈ ascii " close", isLineEnd c = false := by decide +kernel
    intro c hc
    rcases List.mem_append.mp hc with hc | hc
    · exact hword c hc
    · rw [List.eq_of_mem_replicate hc]
      decide
  have hcloseLen : close.length = v.length := by
    have h6 : (ascii " close").length = 6 := by decide
    rw [hclose, List.length_append, List.length_replicate, h6]
    omega
  have hp' : name ++ ascii " close" ++ List.replicate (v.length - 6) 32 ++ r =
      name ++ close ++ r := by simp only [hclose, List.append_assoc]
  rw [hp']
  obtain ⟨t, B, hlines, htr, hthead⟩ := lines_front r
  refine ⟨?_, ?_, ⟨[], name ++ v ++ t, name ++ close ++ t, B, ?_, ?_, ?_, v.length - 6, ?_⟩, ?_⟩
  · conv_rhs => rw [hp]
    simp only [List.length_append, hcloseLen]
  · have h11 : connectionFieldName.length = 11 := by decide
    have hle := startsWithIgnoreCase_length hstart
    omega
  · conv_lhs => rw [hp]
    refine hlines _ ?_
    rw [List.mem_append, not_or]
    exact ⟨hnameLF, not_mem_lf_of_isLineEnd hvline⟩
  · refine hlines _ ?_
    rw [List.mem_append, not_or]
    exact ⟨hnameLF, not_mem_lf_of_isLineEnd hcloseLine⟩
  · rw [List.append_assoc, List.append_assoc]
    exact ⟨startsWithIgnoreCase_take hstart _, startsWithIgnoreCase_take hstart _⟩
  · rw [List.append_assoc, ← hnameLen, List.drop_left]
    refine valueAt_append hcloseLine ?_
    cases ht : t with
    | nil => decide
    | cons c t' =>
        obtain ⟨u, hu⟩ := htr
        have hc : r.head? = some c := by rw [← hu, ht]; rfl
        have hhead := List.head?_dropWhile_not (fun c => !isLineEnd c) value
        rw [← hdrop, hc] at hhead
        simpa using hhead
  · intro hend
    rw [hp] at hend
    have hvne : v ≠ [] := fun hnil => by rw [hnil] at hroom; exact absurd hroom (by decide)
    exact (ending_of_value hvne hvline hend).trans (List.suffix_append _ _)

/-- A line in front of a block that is overwritten. -/
theorem Overwritten.behind {q q' l : List UInt8} (h : Overwritten q q') (hl : lf ∉ l) :
    Overwritten (l ++ lf :: q) (l ++ lf :: q') := by
  obtain ⟨A, m, m', B, h1, h2, h3, h4⟩ := h.lines
  refine ⟨?_, ?_, ⟨l :: A, m, m', B, ?_, ?_, h3, h4⟩, ?_⟩
  · simp only [List.length_append, List.length_cons, h.length]
  · have := h.long
    simp only [List.length_append, List.length_cons]
    omega
  · rw [lines_append_lf, lines_of_not_mem hl, h1]
    rfl
  · rw [lines_append_lf, lines_of_not_mem hl, h2]
    rfl
  · intro hend
    have hsuf : [lf, cr, lf] <:+ q :=
      List.suffix_of_suffix_length_le hend ⟨l ++ [lf], by simp⟩ h.long
    exact (h.ending hsuf).trans ⟨l ++ [lf], by simp⟩

/-- What `nextLine` passes over. -/
theorem take_to_nextLine {p l : List UInt8} (hp : p = l ++ lf :: nextLine p) :
    p.take (p.length - (nextLine p).length) = l ++ [lf] := by
  have hlen : p.length = l.length + 1 + (nextLine p).length := by
    conv_lhs => rw [hp]
    simp only [List.length_append, List.length_cons]
    omega
  have hk : p.length - (nextLine p).length = (l ++ [lf]).length := by
    rw [List.length_append, List.length_singleton]
    omega
  rw [hk]
  conv_lhs => rw [hp]
  rw [show l ++ lf :: nextLine p = (l ++ [lf]) ++ nextLine p by simp, List.take_left]

theorem forceConnectionCloseWalk_nil (n : Nat) : forceConnectionCloseWalk n [] = none := by
  cases n with
  | zero => rfl
  | succ n => rfl

/-- **The walk overwrites a field.** -/
theorem forceConnectionCloseWalk_spec {n : Nat} {p p' : List UInt8}
    (h : forceConnectionCloseWalk n p = some p') : Overwritten p p' := by
  induction n generalizing p p' with
  | zero => simp [forceConnectionCloseWalk] at h
  | succ n ih =>
      rw [forceConnectionCloseWalk] at h
      split_ifs at h with hshort hstart
      · simp only at h
        split_ifs at h with hroom
        rw [← Option.some.inj h]
        exact overwritten_line hstart (Nat.not_lt.mp hroom)
      · obtain ⟨q', hq', hp'⟩ := Option.map_eq_some_iff.mp h
        rcases lines_step p with ⟨-, -, hnext⟩ | ⟨l, hl, hp, -⟩
        · rw [hnext, forceConnectionCloseWalk_nil] at hq'
          exact absurd hq' (by simp)
        · rw [take_to_nextLine hp] at hp'
          have hover := (ih hq').behind hl
          rw [← hp] at hover
          rw [← hp', List.append_assoc]
          exact hover

/-- The first line is left alone. -/
theorem proxyForceConnectionClose_spec {header forced : List UInt8}
    (h : proxyForceConnectionClose header = some forced) :
    ∃ l q q', header = l ++ lf :: q ∧ forced = l ++ lf :: q' ∧ lf ∉ l ∧ Overwritten q q' := by
  obtain ⟨q', hq', hf⟩ := Option.map_eq_some_iff.mp h
  rcases lines_step header with ⟨-, -, hnext⟩ | ⟨l, hl, hp, -⟩
  · rw [hnext, forceConnectionCloseWalk_nil] at hq'
    exact absurd hq' (by simp)
  · rw [take_to_nextLine hp] at hf
    exact ⟨l, nextLine header, q', hp, by rw [← hf]; simp, hl, forceConnectionCloseWalk_spec hq'⟩

/-! ## No upgrade is made -/

/-- A line that plays no part in asking for an upgrade. -/
def Harmless (l : List UInt8) : Prop :=
  ¬ AsksUpgrade l ∧ startsWithIgnoreCase upgradeFieldName l = false

theorem trimToken_close (k : Nat) :
    trimToken (ascii "close" ++ List.replicate k 32) = ascii "close" := by
  rw [trimToken, List.reverse_append, List.reverse_replicate, List.dropWhile_append_of_pos]
  · decide
  · intro c hc
    rw [List.eq_of_mem_replicate hc]
    decide

theorem tokensOf_close (k : Nat) :
    tokensOf (ascii " close" ++ List.replicate k 32) = [ascii "close"] := by
  have hword : ascii " close" = 32 :: ascii "close" := by decide
  have hdrop : ((32 :: ascii "close") ++ List.replicate k 32).dropWhile
      (fun c => isBlank c || c == 44) = ascii "close" ++ List.replicate k 32 := by
    rw [List.cons_append, List.dropWhile_cons, if_pos (by decide)]
    rfl
  have hall : ∀ c ∈ ascii "close" ++ List.replicate k 32, (!(c == 44 || isLineEnd c)) = true := by
    have hfixed : ∀ c ∈ ascii "close", (!(c == 44 || isLineEnd c)) = true := by decide +kernel
    intro c hc
    rcases List.mem_append.mp hc with hc | hc
    · exact hfixed c hc
    · rw [List.eq_of_mem_replicate hc]
      decide
  have htake : (ascii "close" ++ List.replicate k 32).takeWhile
      (fun c => !(c == 44 || isLineEnd c)) = ascii "close" ++ List.replicate k 32 :=
    List.takeWhile_eq_self_iff.mpr hall
  have hrest : (ascii "close" ++ List.replicate k 32).dropWhile
      (fun c => !(c == 44 || isLineEnd c)) = [] := List.dropWhile_eq_nil_iff.mpr hall
  have hnil (n : Nat) : tokensAt n [] = [] := by
    cases n with
    | zero => rfl
    | succ n => rfl
  rw [tokensOf, hword, List.cons_append, tokensAt, if_neg (by decide), ← List.cons_append]
  simp only [hdrop, htake, hrest, hnil, trimToken_close]
  rw [if_neg (by decide)]

/-- A line that starts with another letter is no field of the name. -/
theorem not_startsWith_of_head {t : UInt8} {ts l : List UInt8}
    (h : ∀ c, l.head? = some c → toLower t ≠ toLower c) :
    startsWithIgnoreCase (t :: ts) l = false := by
  cases l with
  | nil => rfl
  | cons c l => simp [startsWithIgnoreCase, h c rfl]

theorem harmless_overwritten {l : List UInt8} {k : Nat}
    (hl : startsWithIgnoreCase connectionFieldName l = true)
    (hv : valueAt (l.drop connectionFieldName.length) = ascii " close" ++ List.replicate k 32) :
    Harmless l := by
  constructor
  · rintro ⟨-, hup⟩
    rw [hv, tokensOf_close] at hup
    exact absurd hup (by decide)
  · have hname : upgradeFieldName = 85 :: (ascii "pgrade:") := by decide
    rw [hname]
    apply not_startsWith_of_head
    intro c hc
    cases l with
    | nil => simp at hc
    | cons d l =>
        have hd : d = c := by simpa using hc
        have hconn : connectionFieldName = 67 :: ascii "onnection:" := by decide
        rw [hconn, startsWithIgnoreCase, Bool.and_eq_true, beq_iff_eq] at hl
        rw [← hd, ← hl.1]
        decide

/-- Harmless lines in the place of others, or between them, make no upgrade. -/
theorem upgrade_of_lines {h h' : List UInt8}
    (hall : ∀ l ∈ lines h', l ∈ lines h ∨ Harmless l)
    (htail : ∀ l ∈ (lines h').tail, l ∈ (lines h).tail ∨ Harmless l)
    (hup : proxyRequestIsUpgrade h' = true) : proxyRequestIsUpgrade h = true := by
  rw [proxyRequestIsUpgrade_iff] at hup ⊢
  obtain ⟨⟨l, hl, hask⟩, m, hm, hfield⟩ := hup
  refine ⟨⟨l, ?_, hask⟩, m, ?_, hfield⟩
  · rcases hall l hl with h | h
    · exact h
    · exact absurd hask h.1
  · rcases htail m hm with h | h
    · exact h
    · rw [h.2] at hfield
      exact absurd hfield (by decide)

theorem proxyForceConnectionClose_upgrade {header forced : List UInt8}
    (h : proxyForceConnectionClose header = some forced)
    (hup : proxyRequestIsUpgrade forced = true) : proxyRequestIsUpgrade header = true := by
  obtain ⟨l, q, q', rfl, rfl, hl, hover⟩ := proxyForceConnectionClose_spec h
  obtain ⟨A, m, m', B, h1, h2, h3, k, h4⟩ := hover.lines
  have hharm : Harmless m' := harmless_overwritten h3.2 h4
  have hrest : ∀ x ∈ lines q', x ∈ lines q ∨ Harmless x := by
    intro x hx
    rw [h2, List.mem_append, List.mem_cons] at hx
    rw [h1, List.mem_append, List.mem_cons]
    rcases hx with hx | rfl | hx
    · exact .inl (.inl hx)
    · exact .inr hharm
    · exact .inl (.inr (.inr hx))
  refine upgrade_of_lines (h := l ++ lf :: q) ?_ ?_ hup
  · intro x hx
    rw [lines_append_lf, List.mem_append] at hx ⊢
    rcases hx with hx | hx
    · exact .inl (.inl hx)
    · exact (hrest x hx).imp .inr id
  · intro x hx
    rw [lines_append_lf, lines_of_not_mem hl, List.singleton_append, List.tail_cons] at hx ⊢
    exact hrest x hx

/-- A header that ends in an empty line, with lines inserted before that. -/
theorem lines_insertLines {header : List UInt8} (text : List UInt8)
    (hend : [lf, cr, lf] <:+ header) :
    ∃ L, lines header = L ++ [[cr], []] ∧ lines (insertLines header text) = L ++ lines (text ++ crlf) := by
  obtain ⟨x, rfl⟩ := hend
  refine ⟨lines x, ?_, ?_⟩
  · rw [lines_append_lf]
    rfl
  · have htake : (x ++ [lf, cr, lf]).take ((x ++ [lf, cr, lf]).length - 2) = x ++ [lf] := by
      have hlen : (x ++ [lf, cr, lf]).length - 2 = (x ++ [lf]).length := by simp
      rw [hlen, show x ++ [lf, cr, lf] = (x ++ [lf]) ++ [cr, lf] by simp, List.take_left]
    rw [insertLines, htake,
      show x ++ [lf] ++ text ++ crlf = x ++ lf :: (text ++ crlf) by simp, lines_append_lf]

theorem insertLines_upgrade {header text : List UInt8} (hend : [lf, cr, lf] <:+ header)
    (htext : ∀ l ∈ lines (text ++ crlf), Harmless l)
    (hup : proxyRequestIsUpgrade (insertLines header text) = true) :
    proxyRequestIsUpgrade header = true := by
  obtain ⟨L, h1, h2⟩ := lines_insertLines text hend
  refine upgrade_of_lines ?_ ?_ hup
  · intro l hl
    rw [h2, List.mem_append] at hl
    rw [h1, List.mem_append]
    exact hl.imp .inl (htext l)
  · intro l hl
    rw [h2] at hl
    rw [h1]
    cases L with
    | nil =>
        rw [List.nil_append] at hl
        exact .inr (htext l (List.mem_of_mem_tail hl))
    | cons m L =>
        rw [List.cons_append, List.tail_cons, List.mem_append] at hl
        rw [List.cons_append, List.tail_cons, List.mem_append]
        exact hl.imp .inl (htext l)

theorem not_mem_hostWalk (n : Nat) (p : List UInt8) : lf ∉ hostWalk n p := by
  induction n generalizing p with
  | zero => simp [hostWalk]
  | succ n ih =>
      rw [hostWalk]
      split_ifs
      · simp
      · intro hm
        have hv := List.mem_takeWhile_imp (List.mem_of_mem_take hm)
        exact absurd hv (by decide)
      · exact ih _

theorem not_mem_proxyExtractHostHeader (header : List UInt8) :
    lf ∉ proxyExtractHostHeader header :=
  fun hm => not_mem_hostWalk _ _ ((List.takeWhile_prefix _).subset hm)

/-- A line of the proxy's own, whose name starts with `X`. -/
theorem harmless_forwarded (l : List UInt8) : Harmless (88 :: l) := by
  have hname : upgradeFieldName = 85 :: ascii "pgrade:" := by decide
  have hconn : connectionFieldName = 67 :: ascii "onnection:" := by decide
  have hother (c : UInt8) (hc : (88 :: l).head? = some c) : toLower 67 ≠ toLower c ∧
      toLower 85 ≠ toLower c := by
    have h88 : 88 = c := by simpa using hc
    rw [← h88]
    decide
  constructor
  · rintro ⟨hs, -⟩
    rw [hconn, not_startsWith_of_head (fun c hc => (hother c hc).1)] at hs
    exact absurd hs (by decide)
  · rw [hname]
    exact not_startsWith_of_head (fun c hc => (hother c hc).2)

/-- **The lines that are put into a request are harmless.** -/
theorem forwardedHeaders_harmless (setup : ProxySetup) (header : List UInt8)
    {connClose : List UInt8} (hconn : connClose = [] ∨ connClose = connectionCloseLine) :
    ∀ l ∈ lines (forwardedHeaders setup header connClose ++ crlf), Harmless l := by
  have hrest : ∀ l ∈ lines (connClose ++ crlf), Harmless l := by
    have hempty : Harmless [cr] ∧ Harmless [] := by
      constructor
      · exact ⟨fun h => absurd h.1 (by decide), by decide⟩
      · exact ⟨fun h => absurd h.1 (by decide), by decide⟩
    rcases hconn with rfl | rfl
    · intro l hl
      have hcase : l = [cr] ∨ l = [] := by simpa [lines, crlf, cr, lf] using hl
      rcases hcase with rfl | rfl
      · exact hempty.1
      · exact hempty.2
    · have hlines : lines (connectionCloseLine ++ crlf) =
          [ascii "Connection: close\r", [cr], []] := by decide
      intro l hl
      rw [hlines] at hl
      have hcase : l = ascii "Connection: close\r" ∨ l = [cr] ∨ l = [] := by simpa using hl
      rcases hcase with rfl | rfl | rfl
      · refine harmless_overwritten (k := 0) (by decide) (by decide)
      · exact hempty.1
      · exact hempty.2
  -- three lines whose names start with `X`, and then the rest
  have hstep : ∀ (name value rest : List UInt8), lf ∉ name → lf ∉ value →
      name.head? = some 88 → (∀ l ∈ lines rest, Harmless l) →
      ∀ l ∈ lines (name ++ value ++ crlf ++ rest), Harmless l := by
    intro name value rest hname hvalue hx hrest l hl
    have heq : name ++ value ++ crlf ++ rest = (name ++ value ++ [cr]) ++ lf :: rest := by
      simp [crlf]
    have hno : lf ∉ name ++ value ++ [cr] := by
      simp only [List.mem_append, not_or]
      exact ⟨⟨hname, hvalue⟩, by decide⟩
    rw [heq, lines_append_lf, lines_of_not_mem hno, List.singleton_append, List.mem_cons] at hl
    rcases hl with rfl | hl
    · cases name with
      | nil => simp at hx
      | cons c name =>
          have hc : c = 88 := by simpa using hx
          rw [hc, List.cons_append, List.cons_append]
          exact harmless_forwarded _
    · exact hrest l hl
  have hhost : lf ∉ (if proxyExtractHostHeader header = [] then ascii "unknown"
      else proxyExtractHostHeader header) := by
    split_ifs
    · decide
    · exact not_mem_proxyExtractHostHeader header
  have hproto : lf ∉ ascii (if setup.useSsl then "https" else "http") := by
    split_ifs
    · decide
    · decide
  have hfinal := hstep (ascii "X-Forwarded-For: ") setup.clientIpStr _ (by decide)
    setup.clientIpStr_line (by decide)
    (hstep (ascii "X-Forwarded-Host: ") _ _ (by decide) hhost (by decide)
      (hstep (ascii "X-Forwarded-Proto: ") _ _ (by decide) hproto (by decide) hrest))
  have heq : forwardedHeaders setup header connClose ++ crlf =
      ascii "X-Forwarded-For: " ++ setup.clientIpStr ++ crlf ++
        (ascii "X-Forwarded-Host: " ++ (if proxyExtractHostHeader header = [] then ascii "unknown"
            else proxyExtractHostHeader header) ++ crlf ++
          (ascii "X-Forwarded-Proto: " ++ ascii (if setup.useSsl then "https" else "http") ++ crlf ++
            (connClose ++ crlf))) := by
    simp only [forwardedHeaders, List.append_assoc]
  rw [heq]
  exact hfinal

/-- The end of a header is kept when its `Connection` field is forced. -/
theorem proxyForceConnectionClose_ending {header forced : List UInt8}
    (h : proxyForceConnectionClose header = some forced) (hend : [lf, cr, lf] <:+ header) :
    [lf, cr, lf] <:+ forced := by
  obtain ⟨l, q, q', rfl, rfl, hl, hover⟩ := proxyForceConnectionClose_spec h
  exact (hover.behind hl).ending hend

/-- **A request that is no upgrade is not sent as one.** -/
theorem proxyInjectForwardedHeaders_upgrade {setup : ProxySetup} {header sent : List UInt8}
    (hend : [lf, cr, lf] <:+ header) (h : proxyInjectForwardedHeaders setup header = some sent)
    (hup : proxyRequestIsUpgrade sent = true) : proxyRequestIsUpgrade header = true := by
  by_cases hplain : proxyRequestIsUpgrade header = true
  · exact hplain
  · simp only [proxyInjectForwardedHeaders, if_neg hplain] at h
    cases hforce : proxyForceConnectionClose header with
    | none =>
        simp only [hforce] at h
        split_ifs at h
        rw [← Option.some.inj h] at hup
        exact insertLines_upgrade hend (forwardedHeaders_harmless setup header (.inr rfl)) hup
    | some forced =>
        simp only [hforce] at h
        split_ifs at h
        rw [← Option.some.inj h] at hup
        exact proxyForceConnectionClose_upgrade hforce
          (insertLines_upgrade (proxyForceConnectionClose_ending hforce hend)
            (forwardedHeaders_harmless setup forced (.inl rfl)) hup)

/-- What the backend gets for a header: lines of the proxy's own stand before the empty line,
and one `Connection` field may have been overwritten. -/
def Injected (setup : ProxySetup) (header sent : List UInt8) : Prop :=
  ∃ forced connClose, (forced = header ∨ Overwritten header forced) ∧
    (connClose = [] ∨ connClose = connectionCloseLine) ∧
    sent = insertLines forced (forwardedHeaders setup forced connClose)

theorem proxyInjectForwardedHeaders_spec {setup : ProxySetup} {header sent : List UInt8}
    (h : proxyInjectForwardedHeaders setup header = some sent) : Injected setup header sent := by
  have hsome : ∀ forced connClose, (if (forwardedHeaders setup forced connClose).length ≥ 512 then none
      else some (insertLines forced (forwardedHeaders setup forced connClose))) = some sent →
      sent = insertLines forced (forwardedHeaders setup forced connClose) := by
    intro forced connClose hif
    split_ifs at hif
    exact (Option.some.inj hif).symm
  unfold proxyInjectForwardedHeaders at h
  by_cases hup : proxyRequestIsUpgrade header = true
  · simp only [if_pos hup] at h
    exact ⟨header, [], .inl rfl, .inl rfl, hsome _ _ h⟩
  · simp only [if_neg hup] at h
    cases hforce : proxyForceConnectionClose header with
    | none =>
        rw [hforce] at h
        exact ⟨header, connectionCloseLine, .inl rfl, .inr rfl, hsome _ _ h⟩
    | some forced =>
        rw [hforce] at h
        obtain ⟨l, q, q', rfl, rfl, hl, hover⟩ := proxyForceConnectionClose_spec hforce
        exact ⟨_, [], .inr (hover.behind hl), .inl rfl, hsome _ _ h⟩

end CWebUI.Proxy
