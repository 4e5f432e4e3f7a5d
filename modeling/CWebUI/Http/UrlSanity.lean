import CWebUI.Http.KeepAlive

set_option autoImplicit false

/-! # What a request line may carry

The address and the parameters of a request line are searched for `..`, for script tags and for
an escaped NUL byte (`url_sanity_check`, `createParameter`). The search falls back to the start
of its pattern after a mismatch without looking at the mismatching byte again, so it misses an
occurrence that stands directly behind a beginning of the pattern; and the search for `%00` does
not see the escapes that are not hexadecimal numbers, which decode to NUL as well. The theorem at
the end says that nothing else is missed.
-/

namespace CWebUI.Http

open ByteString

/-! ## What the search misses -/

theorem findLoop_match (pattern : List UInt8) (i : Nat) (pat post : List UInt8) (hpat : pat ≠ []) :
    findLoop (· == ·) pattern i pat (pat ++ post) = some (i + pat.length - 1) := by
  induction pat generalizing i with
  | nil => exact absurd rfl hpat
  | cons p ps ih =>
      rw [List.cons_append, findLoop, if_pos (beq_self_eq_true p)]
      by_cases hps : ps = []
      · rw [if_pos hps, hps]
        simp
      · rw [if_neg hps, ih (i + 1) hps, List.length_cons]
        congr 1
        omega

/-- The index of a match is that of its last byte. -/
theorem le_of_findLoop {pattern : List UInt8} {i j : Nat} {pat text : List UInt8}
    (hlen : pat.length ≤ pattern.length) (h : findLoop (· == ·) pattern i pat text = some j) :
    i + pat.length ≤ j + 1 := by
  induction text generalizing i pat with
  | nil => cases pat <;> simp [findLoop] at h
  | cons c text ih =>
      cases pat with
      | nil => simp [findLoop] at h
      | cons p ps =>
          rw [findLoop] at h
          rw [List.length_cons] at hlen ⊢
          by_cases hc : (c == p) = true
          · rw [if_pos hc] at h
            by_cases hps : ps = []
            · rw [if_pos hps, Option.some.injEq] at h
              rw [hps, List.length_nil]
              omega
            · rw [if_neg hps] at h
              have hrest := ih (by omega) h
              omega
          · rw [if_neg hc] at h
            have hrest := ih (Nat.le_refl _) h
            omega

/-- An occurrence that the loop does not find stands directly behind a beginning of the pattern.
The induction is on the text before the occurrence; `d` is what of the pattern the loop has
matched, and ends the text read so far. -/
theorem findLoop_missed {pattern d pat : List UInt8} (hsplit : pattern = d ++ pat)
    (hpat : pat ≠ []) {i : Nat} {read pre post : List UInt8} (hdone : d <:+ read)
    (h : findLoop (· == ·) pattern i pat (pre ++ (pattern ++ post)) = none) :
    ∃ k, 0 < k ∧ k < pattern.length ∧ pattern.take k <:+ read ++ pre := by
  induction pre generalizing i pat d read with
  | nil =>
      by_cases hnil : d = []
      · rw [hnil, List.nil_append] at hsplit
        rw [List.nil_append, ← hsplit, findLoop_match _ _ _ _ (hsplit ▸ hpat)] at h
        cases h
      · refine ⟨d.length, List.length_pos_of_ne_nil hnil, ?_, ?_⟩
        · have hpos := List.length_pos_of_ne_nil hpat
          rw [hsplit, List.length_append]
          omega
        · rw [hsplit, List.take_left, List.append_nil]
          exact hdone
  | cons c pre ih =>
      cases pat with
      | nil => exact absurd rfl hpat
      | cons p ps =>
          have hmove : read ++ c :: pre = (read ++ [c]) ++ pre := by simp
          rw [List.cons_append, findLoop] at h
          rw [hmove]
          by_cases hc : (c == p) = true
          · rw [if_pos hc] at h
            by_cases hps : ps = []
            · rw [if_pos hps] at h
              cases h
            · rw [if_neg hps] at h
              have hcp : c = p := beq_iff_eq.mp hc
              obtain ⟨front, hfront⟩ := hdone
              refine ih (d := d ++ [p]) (by rw [hsplit]; simp) hps ?_ h
              exact ⟨front, by rw [← hfront, hcp]; simp⟩
          · rw [if_neg hc] at h
            have hne : pattern ≠ [] := by rw [hsplit]; simp
            exact ih (d := []) rfl hne (List.nil_suffix) h

/-- `stringfind` answers `0` for a pattern of at least two bytes that it does not find. -/
theorem findLoop_of_stringfind {buffer pattern : List UInt8} (hlen : 2 ≤ pattern.length)
    (h : stringfind buffer pattern = 0) :
    findLoop (· == ·) pattern 0 pattern (cString buffer) = none := by
  unfold stringfind at h
  cases hfind : findLoop (· == ·) pattern 0 pattern (cString buffer) with
  | none => rfl
  | some j =>
      have hj := le_of_findLoop (Nat.le_refl _) hfind
      rw [hfind, Option.getD_some] at h
      omega

theorem stringfind_missed {buffer pattern pre post : List UInt8} (hlen : 2 ≤ pattern.length)
    (hbuffer : cString buffer = pre ++ (pattern ++ post)) (h : stringfind buffer pattern = 0) :
    ∃ k, 0 < k ∧ k < pattern.length ∧ pattern.take k <:+ pre := by
  have hloop := findLoop_of_stringfind hlen h
  rw [hbuffer] at hloop
  have hne : pattern ≠ [] := by
    rintro rfl
    simp at hlen
  have hmissed := findLoop_missed (d := []) rfl hne (List.nil_suffix (l := [])) hloop
  simpa using hmissed

/-- An occurrence behind a beginning of itself. -/
def Doubled (pattern text : List UInt8) : Prop :=
  ∃ k, 0 < k ∧ k < pattern.length ∧ pattern.take k ++ pattern <:+: text

/-- **The search is right up to doubled patterns.** -/
theorem infix_iff_doubled {buffer pattern : List UInt8} (hlen : 2 ≤ pattern.length)
    (h : stringfind buffer pattern = 0) :
    pattern <:+: cString buffer ↔ Doubled pattern (cString buffer) := by
  constructor
  · rintro ⟨pre, post, hbuffer⟩
    rw [List.append_assoc] at hbuffer
    obtain ⟨k, hpos, hlt, front, hfront⟩ := stringfind_missed hlen hbuffer.symm h
    refine ⟨k, hpos, hlt, front, post, ?_⟩
    rw [← hbuffer, ← hfront]
    simp
  · rintro ⟨k, -, -, hk⟩
    exact (List.suffix_append _ _).isInfix.trans hk

/-- Two equal bytes are always found: the first occurrence has no such byte before it. -/
theorem not_infix_pair {buffer : List UInt8} {c : UInt8} (h : stringfind buffer [c, c] = 0) :
    ¬ [c, c] <:+: cString buffer := by
  have hnone : ∀ n pre post, pre.length = n → cString buffer ≠ pre ++ ([c, c] ++ post) := by
    intro n
    induction n with
    | zero =>
        intro pre post hn hbuffer
        obtain ⟨k, hpos, hlt, hk⟩ := stringfind_missed (by simp) hbuffer h
        have hk1 : k = 1 := by
          simp only [List.length_cons, List.length_nil] at hlt
          omega
        rw [List.length_eq_zero_iff.mp hn, hk1] at hk
        simp at hk
    | succ n ih =>
        intro pre post hn hbuffer
        obtain ⟨k, hpos, hlt, hk⟩ := stringfind_missed (by simp) hbuffer h
        have hk1 : k = 1 := by
          simp only [List.length_cons, List.length_nil] at hlt
          omega
        obtain ⟨front, hfront⟩ := hk
        rw [hk1] at hfront
        have hlength := congrArg List.length hfront
        rw [List.length_append] at hlength
        refine ih front ([c] ++ post) ?_ ?_
        · simp only [List.take_succ_cons, List.take_zero, List.length_cons, List.length_nil]
            at hlength
          omega
        · rw [hbuffer, ← hfront]
          simp
  rintro ⟨pre, post, hbuffer⟩
  rw [List.append_assoc] at hbuffer
  exact hnone _ pre post rfl hbuffer.symm

/-! ## Escapes -/

/-- An escape that `url_decode` reads: the text before it and the two bytes behind the percent
sign. -/
structure Escape where
  before : List UInt8
  high : UInt8
  low : UInt8
  deriving DecidableEq, Repr

/-- The escapes that `url_decode` reads behind a text. -/
def escapes (before : List UInt8) : List UInt8 → List Escape
  | [] => []
  | [_] => []
  | [_, _] => []
  | a :: b :: c :: rest =>
      if a = 37 then ⟨before, b, c⟩ :: escapes (before ++ [a, b, c]) rest
      else escapes (before ++ [a]) (b :: c :: rest)

/-- Both bytes have the value zero: each is `0` or no hexadecimal digit. -/
def Escape.isNul (e : Escape) : Prop := toHex e.high = 0 ∧ toHex e.low = 0

theorem toHex_lt (c : UInt8) : (toHex c).toNat < 16 := by
  unfold toHex
  split_ifs with h1 h2 h3
  · rw [UInt8.le_iff_toNat_le, UInt8.le_iff_toNat_le] at h1
    rw [UInt8.toNat_sub_of_le _ _ (UInt8.le_iff_toNat_le.mpr h1.1)]
    have h9 := h1.2
    simp at h9 ⊢
    omega
  · rw [UInt8.le_iff_toNat_le, UInt8.le_iff_toNat_le] at h2
    rw [UInt8.toNat_sub_of_le _ _ (UInt8.le_iff_toNat_le.mpr (by have := h2.1; simp at this ⊢; omega))]
    have h9 := h2.2
    simp at h9 ⊢
    omega
  · rw [UInt8.le_iff_toNat_le, UInt8.le_iff_toNat_le] at h3
    rw [UInt8.toNat_sub_of_le _ _ (UInt8.le_iff_toNat_le.mpr (by have := h3.1; simp at this ⊢; omega))]
    have h9 := h3.2
    simp at h9 ⊢
    omega
  · simp

theorem hexByte_eq_zero (b c : UInt8) :
    (toHex b <<< 4) + toHex c = 0 ↔ toHex b = 0 ∧ toHex c = 0 := by
  have hb := toHex_lt b
  have hc := toHex_lt c
  rw [← UInt8.toNat_inj, ← UInt8.toNat_inj, ← UInt8.toNat_inj, UInt8.toNat_add,
    UInt8.toNat_shiftLeft]
  simp [Nat.shiftLeft_eq]
  omega

/-- **A text without NUL decodes to NUL only through such an escape.** -/
theorem zero_mem_urlDecodeLoop (before text : List UInt8) (htext : (0 : UInt8) ∉ text) :
    (0 : UInt8) ∈ urlDecodeLoop text ↔ ∃ e ∈ escapes before text, e.isNul := by
  have hplain : ∀ a : UInt8, a ≠ 0 → (if a = 43 then 32 else a) ≠ 0 := by
    intro a ha
    split_ifs
    · decide
    · exact ha
  induction text using urlDecodeLoop.induct generalizing before with
  | case1 => simp [urlDecodeLoop, escapes]
  | case2 a =>
      have ha := hplain a (by rintro rfl; simp at htext)
      simp [urlDecodeLoop, escapes, Ne.symm ha]
  | case3 a b =>
      have ha := hplain a (by rintro rfl; simp at htext)
      have hb := hplain b (by rintro rfl; simp at htext)
      simp [urlDecodeLoop, escapes, Ne.symm ha, Ne.symm hb]
  | case4 b c rest ih =>
      have hrest : (0 : UInt8) ∉ rest := by
        intro h
        exact htext (by simp [h])
      have hih : (0 : UInt8) ∈ urlDecodeLoop rest ↔
          ∃ e ∈ escapes (before ++ [37, b, c]) rest, e.isNul := ih (before ++ [37, b, c]) hrest
      rw [urlDecodeLoop, if_pos rfl, escapes, if_pos rfl, List.mem_cons, hih, eq_comm,
        hexByte_eq_zero]
      constructor
      · rintro (h | ⟨e, he, hnul⟩)
        · exact ⟨_, List.mem_cons_self, h⟩
        · exact ⟨e, List.mem_cons_of_mem _ he, hnul⟩
      · rintro ⟨e, he, hnul⟩
        rcases List.mem_cons.mp he with rfl | he
        · exact Or.inl hnul
        · exact Or.inr ⟨e, he, hnul⟩
  | case5 a b c rest hne ih =>
      have ha := hplain a (by rintro rfl; simp at htext)
      have hrest : (0 : UInt8) ∉ b :: c :: rest := by
        intro h
        exact htext (List.mem_cons_of_mem _ h)
      have hih : (0 : UInt8) ∈ urlDecodeLoop (b :: c :: rest) ↔
          ∃ e ∈ escapes (before ++ [a]) (b :: c :: rest), e.isNul := ih (before ++ [a]) hrest
      rw [urlDecodeLoop, if_neg hne, escapes, if_neg hne, List.mem_cons, hih]
      constructor
      · rintro (h | h)
        · exact absurd h.symm ha
        · exact h
      · exact Or.inr

/-- An escape is where it says it is. -/
theorem escapes_split {before text : List UInt8} {e : Escape} (he : e ∈ escapes before text) :
    ∃ post, before ++ text = e.before ++ (37 :: e.high :: e.low :: post) := by
  induction text using urlDecodeLoop.induct generalizing before with
  | case1 => simp [escapes] at he
  | case2 a => simp [escapes] at he
  | case3 a b => simp [escapes] at he
  | case4 b c rest ih =>
      rw [escapes, if_pos rfl] at he
      rcases List.mem_cons.mp he with rfl | he
      · exact ⟨rest, rfl⟩
      · obtain ⟨post, hpost⟩ := ih he
        refine ⟨post, ?_⟩
        rw [← hpost]
        simp
  | case5 a b c rest hne ih =>
      rw [escapes, if_neg hne] at he
      obtain ⟨post, hpost⟩ := ih he
      refine ⟨post, ?_⟩
      rw [← hpost]
      simp

/-- An escape that is zero and is not seen as `%00`: it is not written with zeros, or stands
directly behind `%` or `%0`. -/
def Escape.Hidden (e : Escape) : Prop :=
  e.isNul ∧ ¬ (e.high = 48 ∧ e.low = 48 ∧ ¬ [37] <:+ e.before ∧ ¬ [37, 48] <:+ e.before)

/-- **No other NUL passes the search for `%00`.** -/
theorem zero_mem_iff_hidden {url : List UInt8} (hurl : (0 : UInt8) ∉ url)
    (h : stringfind url (ascii "%00") = 0) :
    (0 : UInt8) ∈ urlDecodeLoop url ↔ ∃ e ∈ escapes [] url, e.Hidden := by
  rw [zero_mem_urlDecodeLoop [] url hurl]
  constructor
  · rintro ⟨e, he, hnul⟩
    refine ⟨e, he, hnul, ?_⟩
    rintro ⟨hhigh, hlow, hone, htwo⟩
    obtain ⟨post, hpost⟩ := escapes_split he
    rw [List.nil_append, hhigh, hlow] at hpost
    have hc : cString url = e.before ++ (ascii "%00" ++ post) := by
      rw [cString_of_not_mem hurl, hpost]
      rfl
    obtain ⟨k, hpos, hlt, hk⟩ := stringfind_missed (by decide) hc h
    have hcases : k = 1 ∨ k = 2 := by
      have hlen : (ascii "%00").length = 3 := rfl
      omega
    rcases hcases with rfl | rfl
    · exact hone hk
    · exact htwo hk
  · rintro ⟨e, he, hhidden⟩
    exact ⟨e, he, hhidden.1⟩

/-! ## The parameters of a query -/

/-- What a byte of a query completes, if anything, and the state behind it. -/
def cutStep : ParseState → UInt8 → Option (List UInt8 × Option (List UInt8)) × ParseState
  | .parseName name, c =>
      if c = 38 then (if name ≠ [] then some (name, none) else none, .parseName [])
      else if c = 61 then (none, .parseValue name [])
      else (none, .parseName (name ++ [c]))
  | .parseValue name value, c =>
      if c = 38 then (some (name, some value), .parseName [])
      else (none, .parseValue name (value ++ [c]))
  | .skipBlanks, _ => (none, .skipBlanks)

/-- The parameters, name and value, that are cut out of a text from a state on. -/
def cutsFrom : ParseState → List UInt8 → List (List UInt8 × Option (List UInt8))
  | .parseName name, [] => [(name, none)]
  | .parseValue name value, [] => [(name, some value)]
  | .skipBlanks, [] => []
  | state, c :: text => (cutStep state c).1.toList ++ cutsFrom (cutStep state c).2 text

/-- The parameters of a query. -/
def cuts (text : List UInt8) : List (List UInt8 × Option (List UInt8)) :=
  if text = [] then [] else cutsFrom (.parseName []) text

/-- The decoded values of a query. -/
def decodedValues (text : List UInt8) : List (List UInt8) :=
  (cuts text).filterMap fun p => p.2.map urlDecode

/-- `createParameter` for a parameter that was cut out. -/
def addParameter (header : HttpRequestHeader) (p : List UInt8 × Option (List UInt8)) :
    HttpRequestHeader :=
  createParameter header p.1 p.2

theorem parameterStep_eq (header : HttpRequestHeader) (state : ParseState) (c : UInt8) :
    parameterStep header state c =
      ((cutStep state c).1.toList.foldl addParameter header, (cutStep state c).2) := by
  cases state with
  | parseName name =>
      unfold parameterStep cutStep
      dsimp only
      split_ifs <;> rfl
  | parseValue name value =>
      unfold parameterStep cutStep
      dsimp only
      split_ifs <;> rfl
  | skipBlanks => rfl

/-- **The loop creates the parameters that are cut out**, from whatever state it is in. -/
theorem parameterLoop_eq (text : List UInt8) (header : HttpRequestHeader) (state : ParseState) :
    (match text.foldl (fun s c => parameterStep s.1 s.2 c) (header, state) with
      | (header, .parseName name) => createParameter header name none
      | (header, .parseValue name value) => createParameter header name (some value)
      | (header, .skipBlanks) => header) =
      (cutsFrom state text).foldl addParameter header := by
  induction text generalizing header state with
  | nil => cases state <;> rfl
  | cons c text ih =>
      have hcuts : cutsFrom state (c :: text) =
          (cutStep state c).1.toList ++ cutsFrom (cutStep state c).2 text := by
        cases state <;> rfl
      rw [List.foldl_cons, hcuts, List.foldl_append, parameterStep_eq]
      exact ih _ _

theorem recieveParameterFromGet_cuts (text : List UInt8) (header : HttpRequestHeader) :
    recieveParameterFromGet text header = (cuts text).foldl addParameter header := by
  unfold recieveParameterFromGet cuts
  by_cases htext : text = []
  · rw [if_pos htext, if_pos htext]
    rfl
  · rw [if_neg htext, if_neg htext]
    exact parameterLoop_eq text header (.parseName [])

/-- A script tag in a value is remembered as an error. -/
theorem error_addParameters (ps : List (List UInt8 × Option (List UInt8)))
    (header : HttpRequestHeader) :
    (ps.foldl addParameter header).error = false ↔
      header.error = false ∧
        ∀ v ∈ ps.filterMap (fun p => p.2.map urlDecode), hasScript v = false := by
  induction ps generalizing header with
  | nil => simp
  | cons p ps ih =>
      rw [List.foldl_cons, ih]
      obtain ⟨name, value⟩ := p
      cases value with
      | none => simp [addParameter, createParameter]
      | some v => simp [addParameter, createParameter, and_assoc]

theorem mem_newVariable {store : List WsVariable} {name : List UInt8} {value : Option (List UInt8)}
    {p : WsVariable} (h : p ∈ newVariable store name value) : p ∈ store ∨ p.value = value := by
  unfold newVariable at h
  by_cases hany : store.any (fun v => v.name == name) = true
  · rw [if_pos hany] at h
    cases value with
    | none => exact Or.inl h
    | some v =>
        clear hany
        dsimp only at h
        induction store with
        | nil => simp at h
        | cons x store ih =>
            rw [List.replaceF_cons] at h
            by_cases hx : x.name = name
            · rw [if_pos hx] at h
              rcases List.mem_cons.mp h with rfl | h
              · exact Or.inr rfl
              · exact Or.inl (List.mem_cons_of_mem _ h)
            · rw [if_neg hx] at h
              rcases List.mem_cons.mp h with rfl | h
              · exact Or.inl List.mem_cons_self
              · rcases ih h with h | h
                · exact Or.inl (List.mem_cons_of_mem _ h)
                · exact Or.inr h
  · rw [if_neg hany] at h
    rcases List.mem_append.mp h with h | h
    · exact Or.inl h
    · rw [List.mem_singleton] at h
      rw [h]
      exact Or.inr rfl

/-- A value in the store was there, or is a decoded value of the query. -/
theorem value_addParameters (ps : List (List UInt8 × Option (List UInt8)))
    (header : HttpRequestHeader) {p : WsVariable} {v : List UInt8}
    (hp : p ∈ (ps.foldl addParameter header).parameterStore) (hv : p.value = some v) :
    p ∈ header.parameterStore ∨ v ∈ ps.filterMap (fun p => p.2.map urlDecode) := by
  induction ps generalizing header with
  | nil => exact Or.inl hp
  | cons q ps ih =>
      rw [List.foldl_cons] at hp
      rcases ih _ hp with hold | hnew
      · obtain ⟨name, value⟩ := q
        cases value with
        | none =>
            rcases mem_newVariable hold with h | h
            · exact Or.inl h
            · rw [hv] at h
              cases h
        | some w =>
            rcases mem_newVariable hold with h | h
            · exact Or.inl h
            · rw [hv, Option.some.injEq] at h
              rw [h]
              exact Or.inr (by simp)
      · right
        rw [List.filterMap_cons]
        split
        · exact hnew
        · exact List.mem_cons_of_mem _ hnew

/-! ## Accepted request lines -/

/-- What follows the method and the first byte of the address. -/
def addressText (line : List UInt8) : List UInt8 :=
  if ascii "GET " <+: line then line.drop 5
  else if ascii "POST " <+: line then line.drop 6
  else line.drop 9

/-- The query of an address. -/
def queryText (text : List UInt8) : List UInt8 :=
  match strchr 63 (cString text) with
  | none => []
  | some _ =>
      let url := text.takeWhile (· ≠ 63)
      (text.drop (url.length + 1)).take (text.length - 9 - (url.length + 1))

theorem requestUrl_cuts (text : List UInt8) (header : HttpRequestHeader) :
    requestUrl text header =
      (cuts (queryText text)).foldl addParameter { header with url := some (rawUrl text) } := by
  unfold requestUrl queryText rawUrl
  cases strchr 63 (cString text) with
  | none => rfl
  | some _ => exact recieveParameterFromGet_cuts _ _

/-- The address is a C string. -/
theorem zero_notMem_rawUrl (text : List UInt8) : (0 : UInt8) ∉ rawUrl text := by
  unfold rawUrl
  cases hmark : strchr 63 (cString text) with
  | none =>
      intro h
      exact not_mem_cString text (List.mem_of_mem_take h)
  | some _ =>
      have hmem : (63 : UInt8) ∈ cString text := by
        by_contra hno
        rw [strchr, if_neg hno] at hmark
        cases hmark
      clear hmark
      dsimp only
      induction text with
      | nil => simp
      | cons c text ih =>
          unfold cString at hmem
          rw [List.takeWhile_cons] at hmem ⊢
          by_cases hc : c = 63
          · simp [hc]
          · by_cases h0 : c = 0
            · simp [h0] at hmem
            · have hrest : (63 : UInt8) ∈ cString text := by
                simpa [h0, Ne.symm hc, cString] using hmem
              simp only [hc, ne_eq, not_false_eq_true, decide_true, if_true, List.mem_cons, not_or]
              exact ⟨Ne.symm h0, ih hrest⟩

/-- What an accepted request line has passed. -/
structure Passed (line : List UInt8) (oldStore : List WsVariable) (after : HttpRequestHeader) :
    Prop where
  url : after.url = some (urlDecode (rawUrl (addressText line)))
  store : ∃ base : HttpRequestHeader, base.parameterStore = oldStore ∧
    after.parameterStore = ((cuts (queryText (addressText line))).foldl addParameter base).parameterStore
  nul : stringfind (rawUrl (addressText line)) (ascii "%00") = 0
  dots : stringfind (urlDecode (rawUrl (addressText line))) (ascii "..") = 0
  script : hasScript (urlDecode (rawUrl (addressText line))) = false
  values : ∀ v ∈ decodedValues (queryText (addressText line)), hasScript v = false

theorem urlSanityCheck_passed {text : List UInt8} {header : HttpRequestHeader}
    (h : (urlSanityCheck (requestUrl text header)).error = false) :
    (requestUrl text header).error = false ∧
      stringfind (rawUrl text) (ascii "%00") = 0 ∧
      stringfind (urlDecode (rawUrl text)) (ascii "..") = 0 ∧
      hasScript (urlDecode (rawUrl text)) = false ∧
      urlSanityCheck (requestUrl text header) =
        { requestUrl text header with url := some (urlDecode (rawUrl text)), error := false } := by
  have hurl : (requestUrl text header).url = some (rawUrl text) := by rw [requestUrl_eq]
  unfold urlSanityCheck at h ⊢
  by_cases herror : (requestUrl text header).error = true
  · rw [if_pos herror, herror] at h
    cases h
  · rw [if_neg herror] at h ⊢
    rw [hurl, Option.getD_some] at h ⊢
    dsimp only at h ⊢
    by_cases hnul : 0 < stringfind (rawUrl text) (ascii "%00")
    · rw [if_pos hnul] at h
      cases h
    · rw [if_neg hnul] at h ⊢
      simp only [Bool.or_eq_false_iff, decide_eq_false_iff_not] at h
      refine ⟨by simpa using herror, by omega, by omega, h.2, ?_⟩
      simp [h.1, h.2]

theorem requestMethod_passed {line : List UInt8} {header : HttpRequestHeader}
    (h : (requestMethod line header).error = false) :
    Passed line header.parameterStore (requestMethod line header) := by
  have hknown : ∀ base : HttpRequestHeader, base.parameterStore = header.parameterStore →
      (urlSanityCheck (requestUrl (addressText line) base)).error = false →
      Passed line header.parameterStore (urlSanityCheck (requestUrl (addressText line) base)) := by
    intro base hbase hb
    obtain ⟨herror, hnul, hdots, hscript, heq⟩ := urlSanityCheck_passed hb
    rw [requestUrl_cuts, error_addParameters] at herror
    rw [heq]
    refine ⟨rfl, ⟨{ base with url := some (rawUrl (addressText line)) }, hbase, ?_⟩, hnul, hdots,
      hscript, herror.2⟩
    rw [requestUrl_cuts]
  unfold requestMethod knownMethod at h ⊢
  unfold addressText at hknown
  by_cases hget : ascii "GET " <+: line
  · simp only [if_pos hget] at h hknown ⊢
    exact hknown _ rfl h
  · by_cases hpost : ascii "POST " <+: line
    · simp only [if_neg hget, if_pos hpost] at h hknown ⊢
      exact hknown _ rfl h
    · by_cases hoptions : ascii "OPTIONS " <+: line
      · simp only [if_neg hget, if_neg hpost, if_pos hoptions] at h hknown ⊢
        exact hknown _ rfl h
      · simp only [if_neg hget, if_neg hpost, if_neg hoptions] at h
        cases h

theorem analyseHeaderLine_passed {line : List UInt8} {header : HttpRequestHeader}
    (hmethod : header.method = .none) (haccept : (analyseHeaderLine line header).2 = true) :
    Passed line header.parameterStore (analyseHeaderLine line header).1 := by
  unfold analyseHeaderLine at haccept ⊢
  rw [if_pos hmethod] at haccept ⊢
  unfold requestLine at haccept ⊢
  cases hversion : httpVersion line with
  | unsupported => simp [hversion] at haccept
  | http10 =>
      rw [hversion] at haccept
      exact requestMethod_passed (by simpa using haccept)
  | http11 =>
      rw [hversion] at haccept
      exact @requestMethod_passed line { header with isHttp11 := true } (by simpa using haccept)

/-! ## What is promised, and when it holds -/

/-- The two tags that are looked for. -/
def scriptTags : List (List UInt8) := [ascii "<script>", ascii "</script>"]

/-- What an accepted request line should not carry: the stored address is the whole decoded
path, without NUL, `..` or a script tag, and no decoded value has a script tag. -/
structure Sane (line : List UInt8) (before after : HttpRequestHeader) : Prop where
  whole : after.url = some (urlDecodeLoop (rawUrl (addressText line)))
  nul : (0 : UInt8) ∉ urlDecodeLoop (rawUrl (addressText line))
  dots : ∀ url, after.url = some url → ¬ ascii ".." <:+: url
  script : ∀ url, after.url = some url → ∀ tag ∈ scriptTags, ¬ tag <:+: url
  values : ∀ v ∈ decodedValues (queryText (addressText line)), ∀ tag ∈ scriptTags, ¬ tag <:+: v
  stored : ∀ p ∈ after.parameterStore, p ∉ before.parameterStore →
    ∀ v, p.value = some v → ∀ tag ∈ scriptTags, ¬ tag <:+: v

/-- A request line with nothing that the searches miss: no zero escape in its path that is not
seen as `%00`, and no tag, in the decoded path or in a decoded value, directly behind a beginning
of itself. -/
structure NothingHidden (line : List UInt8) : Prop where
  escapes : ∀ e ∈ escapes [] (rawUrl (addressText line)), ¬ e.Hidden
  path : ∀ tag ∈ scriptTags, ¬ Doubled tag (urlDecode (rawUrl (addressText line)))
  values : ∀ v ∈ decodedValues (queryText (addressText line)), ∀ tag ∈ scriptTags, ¬ Doubled tag v

theorem cString_urlDecode (text : List UInt8) : cString (urlDecode text) = urlDecode text :=
  cString_of_not_mem (not_mem_cString _)

/-- A text that passes the search has a tag only if the tag is doubled. -/
theorem tag_iff_doubled {text tag : List UInt8} (hscript : hasScript (urlDecode text) = false)
    (htag : tag ∈ scriptTags) :
    tag <:+: urlDecode text ↔ Doubled tag (urlDecode text) := by
  unfold hasScript at hscript
  rw [Bool.or_eq_false_iff, decide_eq_false_iff_not, decide_eq_false_iff_not] at hscript
  have hmissed : ∀ tag, 2 ≤ tag.length → stringfind (urlDecode text) tag = 0 →
      (tag <:+: urlDecode text ↔ Doubled tag (urlDecode text)) := by
    intro tag hlen hfind
    have hiff := infix_iff_doubled hlen hfind
    rwa [cString_urlDecode] at hiff
  rcases List.mem_cons.mp htag with rfl | htag
  · exact hmissed _ (by decide) (by omega)
  · rw [List.mem_singleton.mp htag]
    exact hmissed _ (by decide) (by omega)

theorem mem_decodedValues {query v : List UInt8} (h : v ∈ decodedValues query) :
    ∃ text, v = urlDecode text := by
  obtain ⟨p, -, hp⟩ := List.mem_filterMap.mp h
  obtain ⟨text, -, rfl⟩ := Option.map_eq_some_iff.mp hp
  exact ⟨text, rfl⟩

/-- **An accepted request line is sane exactly if nothing in it is hidden from the searches.** -/
theorem accepted_request_line_sane_iff (line : List UInt8) (header : HttpRequestHeader)
    (hmethod : header.method = .none) (haccept : (analyseHeaderLine line header).2 = true) :
    Sane line header (analyseHeaderLine line header).1 ↔ NothingHidden line := by
  have hpassed := analyseHeaderLine_passed hmethod haccept
  obtain ⟨hurl, ⟨base, hbase, hstore⟩, hnul, hdots, hscript, hvalues⟩ := hpassed
  have hzero := zero_notMem_rawUrl (addressText line)
  have hhidden := zero_mem_iff_hidden hzero hnul
  have hvalue : ∀ v ∈ decodedValues (queryText (addressText line)), ∀ tag ∈ scriptTags,
      (tag <:+: v ↔ Doubled tag v) := by
    intro v hv tag htag
    obtain ⟨text, rfl⟩ := mem_decodedValues hv
    exact tag_iff_doubled (hvalues _ hv) htag
  constructor
  · intro hsane
    refine ⟨?_, ?_, ?_⟩
    · intro e he hh
      exact hsane.nul (hhidden.mpr ⟨e, he, hh⟩)
    · intro tag htag hdoubled
      exact hsane.script _ hurl tag htag ((tag_iff_doubled hscript htag).mpr hdoubled)
    · intro v hv tag htag hdoubled
      exact hsane.values v hv tag htag ((hvalue v hv tag htag).mpr hdoubled)
  · intro hnothing
    have hnonul : (0 : UInt8) ∉ urlDecodeLoop (rawUrl (addressText line)) := by
      intro h
      obtain ⟨e, he, hh⟩ := hhidden.mp h
      exact hnothing.escapes e he hh
    have hclean : ∀ v ∈ decodedValues (queryText (addressText line)), ∀ tag ∈ scriptTags,
        ¬ tag <:+: v := by
      intro v hv tag htag hsub0
      exact hnothing.values v hv tag htag ((hvalue v hv tag htag).mp hsub0)
    refine ⟨?_, hnonul, ?_, ?_, hclean, ?_⟩
    · rw [hurl, urlDecode, cString_of_not_mem hzero, cString_of_not_mem hnonul]
    · intro url heq hsub0
      rw [hurl, Option.some.injEq] at heq
      rw [← heq, ← cString_urlDecode] at hsub0
      exact not_infix_pair hdots hsub0
    · intro url heq tag htag hsub0
      rw [hurl, Option.some.injEq] at heq
      rw [← heq] at hsub0
      exact hnothing.path tag htag ((tag_iff_doubled hscript htag).mp hsub0)
    · intro p hp hnew v hv
      rw [hstore] at hp
      rcases value_addParameters _ base hp hv with hold | hdecoded
      · rw [hbase] at hold
        exact absurd hold hnew
      · exact hclean v hdecoded

/-- A tag behind its own first byte passes, in the path and in a value, and so does an escape
that is not a number. -/
theorem accepted_request_line_hidden :
    (∃ header, analyseHeaderLine (ascii "GET /<<script>?q=%3C%3Cscript> HTTP/1.1")
          webserverMallocHttpRequestHeader = (header, true) ∧ header.error = false ∧
        header.url = some (ascii "<<script>") ∧
        header.parameterStore = [⟨ascii "q", some (ascii "<<script>")⟩] ∧
        ¬ Sane (ascii "GET /<<script>?q=%3C%3Cscript> HTTP/1.1")
          webserverMallocHttpRequestHeader header) ∧
      (∃ header, analyseHeaderLine (ascii "POST /a%zzb HTTP/1.1")
          webserverMallocHttpRequestHeader = (header, true) ∧ header.error = false ∧
        header.url = some (ascii "a") ∧
        ¬ Sane (ascii "POST /a%zzb HTTP/1.1") webserverMallocHttpRequestHeader header) := by
  constructor
  · refine ⟨(analyseHeaderLine (ascii "GET /<<script>?q=%3C%3Cscript> HTTP/1.1")
      webserverMallocHttpRequestHeader).1, by decide +kernel, by decide +kernel,
      by decide +kernel, by decide +kernel, ?_⟩
    intro hsane
    exact hsane.script (ascii "<<script>") (by decide +kernel) (ascii "<script>")
      List.mem_cons_self ⟨ascii "<", [], by decide +kernel⟩
  · refine ⟨(analyseHeaderLine (ascii "POST /a%zzb HTTP/1.1")
      webserverMallocHttpRequestHeader).1, by decide +kernel, by decide +kernel,
      by decide +kernel, ?_⟩
    intro hsane
    exact hsane.nul (by decide +kernel)

/-- A tag starts with `<`. -/
theorem not_doubled_of_notMem {text tag : List UInt8} (htext : (60 : UInt8) ∉ text)
    (htag : tag ∈ scriptTags) : ¬ Doubled tag text := by
  rintro ⟨k, -, -, hsub0⟩
  have hmem : (60 : UInt8) ∈ tag := by
    rcases List.mem_cons.mp htag with rfl | htag
    · decide
    · rw [List.mem_singleton.mp htag]
      decide
  exact htext (hsub0.subset (List.mem_append_right _ hmem))

theorem accepted_request_line_sane_index :
    Sane (ascii "GET /index.html?a=1%2e HTTP/1.1") webserverMallocHttpRequestHeader
      (analyseHeaderLine (ascii "GET /index.html?a=1%2e HTTP/1.1")
        webserverMallocHttpRequestHeader).1 := by
  refine (accepted_request_line_sane_iff _ _ rfl (by decide +kernel)).mpr ⟨?_, ?_, ?_⟩
  · have hnone : escapes [] (rawUrl (addressText (ascii "GET /index.html?a=1%2e HTTP/1.1"))) = [] := by
      decide +kernel
    intro e he
    rw [hnone] at he
    cases he
  · intro tag htag
    exact not_doubled_of_notMem (by decide +kernel) htag
  · have hvalues : decodedValues (queryText (addressText
        (ascii "GET /index.html?a=1%2e HTTP/1.1"))) = [ascii "1."] := by decide +kernel
    intro v hv tag htag
    rw [hvalues, List.mem_singleton] at hv
    rw [hv]
    exact not_doubled_of_notMem (by decide +kernel) htag

end CWebUI.Http
