import CWebUI.Http.Pieces
import CWebUI.Session.Store

set_option autoImplicit false

/-! # Cookies, cut in place

`parseCookies`, `createCookie` and `checkCookie` (`cookie.c`) on the line itself. The scanner is the
one for parameters with another separator, behind which it skips blanks. It computes what the parser
of `HeaderLine` computes on the text alone (`parseCookies_inPlace`), and so a list of cookies that is
percent-encoded and joined is stored as it was.
-/

namespace CWebUI.Http

open ByteString

/-! ## The scanner -/

/-- What `createCookie` does to the header. -/
def appendCookie : Create := fun header name value =>
  { header with cookieList := header.cookieList ++ [⟨name, value.getD []⟩] }

theorem createCookie_eq (header : HttpRequestHeader) (name : List UInt8)
    (value : Option (List UInt8)) :
    createCookie header name value = appendCookie header (urlDecode name) (value.map urlDecode) := by
  cases value <;> rfl

namespace InPlace

/-- `createCookie` -/
def createCookie : CreateCall := createAt appendCookie

/-- `while ( i < length - 8 && line[i] == ' ' ) i++;` in at most `rounds` rounds. -/
def skipSpaces (line : List UInt8) (len : Nat) : Nat → Nat → Nat
  | 0, i => i
  | rounds + 1, i =>
      if i < len ∧ line.getD i 0 = 32 then skipSpaces line len rounds (i + 1) else i

/-- The body of the loop of `parseCookies` at the byte `i`, and the byte of the next round. -/
def scanCookie (len : Nat) (s : PieceScan) (i : Nat) : PieceScan × Nat :=
  match s.state with
  | .parseName =>
      if s.line.getD i 0 = 59 then
        let s := if i - s.nameStart > 0 then createName createCookie s i
          else { s with nameEnd := i }
        let i := skipSpaces s.line len len (i + 1)
        ({ s with nameStart := i }, i)
      else if s.line.getD i 0 = 61 then
        ({ s with nameEnd := i, valueStart := some (i + 1), state := .parseValue }, i + 1)
      else (s, i + 1)
  | .parseValue =>
      if s.line.getD i 0 = 59 then
        let s := createValue createCookie s i
        let i := skipSpaces s.line len len (i + 1)
        ({ s with valueStart := none, nameStart := i, nameEnd := i, state := .parseName }, i)
      else (s, i + 1)

/-- At most `rounds` rounds of the loop of `parseCookies`. -/
def scanCookies (len : Nat) : Nat → PieceScan → Nat → PieceScan × Nat
  | 0, s, i => (s, i)
  | rounds + 1, s, i =>
      if i < len then scanCookies len rounds (scanCookie len s i).1 (scanCookie len s i).2
      else (s, i)

/-- `parseCookies`: the line and the header afterwards. Every round of the loop moves forward. -/
def parseCookies (line : List UInt8) (length : Nat) (header : HttpRequestHeader) :
    List UInt8 × HttpRequestHeader :=
  let len := length - 8
  let (s, i) := scanCookies len len ⟨line.drop 8, header, .parseName, 0, 0, none⟩ 0
  let s := match s.state with
    | .parseName =>
        if i - s.nameStart > 0 then createName createCookie s i else { s with nameEnd := i }
    | .parseValue => createValue createCookie s i
  (line.take 8 ++ s.line, s.header)

/-- `checkCookie`: the buffer `value` after the call, or nothing if no cookie has the name. It copies
the value with its terminator, but at most `WEBSERVER_GUID_LENGTH` bytes. -/
def checkCookie (guidLength : Nat) (name value : List UInt8) (cookieList : List Cookie) :
    Option (List UInt8) :=
  match cookieList.find? (fun cookie => cookie.name == name) with
  | none => none
  | some cookie =>
      let l := min (cookie.value.length + 1) guidLength
      some ((cookie.value ++ [0]).take l ++ value.drop l)

end InPlace

/-! ## Skipping blanks -/

/-- The first byte that is not skipped, and the blanks before it. -/
theorem skipSpaces_spec (line : List UInt8) (len rounds : Nat) {i : Nat} (hi : i ≤ len)
    (hrounds : len ≤ i + rounds) :
    i ≤ InPlace.skipSpaces line len rounds i ∧ InPlace.skipSpaces line len rounds i ≤ len ∧
      (∀ k, i ≤ k → k < InPlace.skipSpaces line len rounds i → line.getD k 0 = 32) ∧
      (InPlace.skipSpaces line len rounds i < len →
        line.getD (InPlace.skipSpaces line len rounds i) 0 ≠ 32) := by
  induction rounds generalizing i with
  | zero => exact ⟨Nat.le_refl i, hi, fun k h1 h2 => absurd h1 (by simpa [InPlace.skipSpaces] using h2),
      fun h => absurd h (by simp only [InPlace.skipSpaces]; omega)⟩
  | succ rounds ih =>
      rw [InPlace.skipSpaces]
      by_cases hskip : i < len ∧ line.getD i 0 = 32
      · rw [if_pos hskip]
        obtain ⟨h1, h2, h3, h4⟩ := ih (i := i + 1) hskip.1 (by omega)
        refine ⟨by omega, h2, fun k hk hlt => ?_, h4⟩
        rcases Nat.eq_or_lt_of_le hk with rfl | hk
        · exact hskip.2
        · exact h3 k hk hlt
      · rw [if_neg hskip]
        refine ⟨Nat.le_refl i, hi, fun k h1 h2 => by omega, fun hlt h32 => hskip ⟨hlt, h32⟩⟩

/-- The parser stays where it is over blanks. -/
theorem cookieFold_blanks {blanks : List UInt8} (h : ∀ c ∈ blanks, c = 32)
    (header : HttpRequestHeader) :
    blanks.foldl (fun s c => cookieStep s.1 s.2 c) (header, .skipBlanks) =
      (header, .skipBlanks) := by
  induction blanks with
  | nil => rfl
  | cons c blanks ih =>
      rw [List.forall_mem_cons] at h
      have hstep : cookieStep header .skipBlanks c = (header, .skipBlanks) := by
        rw [cookieStep, if_pos h.1]
      rw [List.foldl_cons, hstep, ih h.2]

/-! ## The scanner and the text -/

section Scanned

variable {text tail : List UInt8} {c : UInt8} {i : Nat} {s : PieceScan}

/-- The parser behind the first `i` bytes of a text. -/
def cookieFold (header : HttpRequestHeader) (bytes : List UInt8) : HttpRequestHeader × ParseState :=
  bytes.foldl (fun s c => cookieStep s.1 s.2 c) (header, .parseName [])

/-- The scanner at the byte `i`, where it does not stand on a blank that is to be skipped. -/
structure CookieScanned (text tail : List UInt8) (c : UInt8) (header : HttpRequestHeader) (i : Nat)
    (s : PieceScan) : Prop where
  inside : i ≤ text.length
  scanned : Scanned (text ++ c :: tail) i s (cookieFold header (text.take i))
  blank : (cookieFold header (text.take i)).2 = .skipBlanks → i < text.length →
    (text ++ c :: tail).getD i 0 ≠ 32

variable {header : HttpRequestHeader}

theorem cookieFold_snoc (header : HttpRequestHeader) {text : List UInt8} (tail : List UInt8)
    (c : UInt8) {i : Nat} (hi : i < text.length) :
    cookieFold header (text.take (i + 1)) =
      cookieStep (cookieFold header (text.take i)).1 (cookieFold header (text.take i)).2
        ((text ++ c :: tail).getD i 0) := by
  have hget : (text ++ c :: tail).getD i 0 = text[i] := by
    rw [List.getD_append _ _ _ _ hi, List.getD_eq_getElem _ _ hi]
  rw [hget, cookieFold, List.take_add_one, List.getElem?_eq_getElem hi, Option.toList_some,
    List.foldl_append]
  rfl

/-- Behind a separator: the scanner moves over the blanks, as the parser does. -/
theorem CookieScanned.afterSeparator {header' : HttpRequestHeader} {s' : PieceScan}
    (hi : i < text.length) (hfold : cookieFold header (text.take (i + 1)) = (header', .skipBlanks))
    (hheader : s'.header = header') (hlen : s'.line.length = (text ++ c :: tail).length)
    (hdrop : s'.line.drop (i + 1) = (text ++ c :: tail).drop (i + 1))
    (hstate : s'.state = .parseName) {j : Nat}
    (hj : j = InPlace.skipSpaces s'.line text.length text.length (i + 1))
    (hstart : s'.nameStart = j) : CookieScanned text tail c header j s' := by
  obtain ⟨h1, h2, h3, h4⟩ := skipSpaces_spec s'.line text.length text.length
    (i := i + 1) hi (by omega)
  rw [← hj] at h1 h2 h3 h4
  have hread {k : Nat} (hk : i + 1 ≤ k) : s'.line.getD k 0 = (text ++ c :: tail).getD k 0 := by
    obtain ⟨n, rfl⟩ := Nat.exists_eq_add_of_le hk
    rw [List.getD_eq_getElem?_getD, List.getD_eq_getElem?_getD, ← List.getElem?_drop,
      ← List.getElem?_drop, hdrop]
  have hblanks : ∀ b ∈ (text.drop (i + 1)).take (j - (i + 1)), b = 32 := by
    intro b hb
    obtain ⟨n, hn, rfl⟩ := List.mem_iff_getElem.mp hb
    rw [List.length_take, List.length_drop] at hn
    have hlt : i + 1 + n < text.length := by omega
    have hblank := h3 (i + 1 + n) (by omega) (by omega)
    rw [hread (by omega), List.getD_append _ _ _ _ hlt, List.getD_eq_getElem _ _ hlt] at hblank
    rw [List.getElem_take, List.getElem_drop, hblank]
  have hfold' : cookieFold header (text.take j) = (header', .skipBlanks) := by
    obtain ⟨n, rfl⟩ := Nat.exists_eq_add_of_le h1
    rw [Nat.add_sub_cancel_left] at hblanks
    rw [List.take_add, cookieFold, List.foldl_append]
    have hfront := hfold
    rw [cookieFold] at hfront
    rw [hfront, cookieFold_blanks hblanks]
  refine ⟨h2, ⟨hlen, Nat.le_of_eq hstart, ?_, ?_, ?_⟩, fun _ hlt => ?_⟩
  · obtain ⟨n, hn⟩ := Nat.exists_eq_add_of_le h1
    rw [hstart, hn, ← List.drop_drop, hdrop, List.drop_drop]
  · rw [hfold', hheader]
  · rw [hfold']
    exact ⟨hstate, hstart⟩
  · rw [← hread h1]
    exact h4 hlt

/-- A byte that belongs to a piece, or ends a name: the scanner goes one byte on. -/
theorem CookieScanned.oneByte {s' : PieceScan} {t : HttpRequestHeader × ParseState}
    (hi : i < text.length) (hfold : cookieFold header (text.take (i + 1)) = t)
    (hscan : Scanned (text ++ c :: tail) (i + 1) s' t) (ht : t.2 ≠ .skipBlanks) :
    CookieScanned text tail c header (i + 1) s' := by
  subst hfold
  exact ⟨hi, hscan, fun h => absurd h ht⟩

/-- A byte of a name. -/
theorem CookieScanned.nameStep {header' : HttpRequestHeader} {name : List UInt8}
    (hi : i < text.length) (h : Scanned (text ++ c :: tail) i s (header', .parseName name))
    (hfold : cookieFold header (text.take (i + 1)) =
      cookieNameStep header' name ((text ++ c :: tail).getD i 0)) :
    CookieScanned text tail c header (InPlace.scanCookie text.length s i).2
      (InPlace.scanCookie text.length s i).1 := by
  have hlt : i < (text ++ c :: tail).length := by
    rw [List.length_append]
    omega
  obtain ⟨hstate, hname⟩ := h.pieces
  unfold InPlace.scanCookie
  rw [hstate, h.read h.start]
  dsimp only
  unfold cookieNameStep at hfold
  by_cases hsemi : (text ++ c :: tail).getD i 0 = 59
  · rw [if_pos hsemi] at hfold ⊢
    by_cases hpos : i - s.nameStart > 0
    · obtain ⟨hheader, hlen, hdrop⟩ := h.createName appendCookie hname hlt
      rw [if_pos ((h.name_ne_nil hlt).mpr hpos), createCookie_eq] at hfold
      rw [if_pos hpos]
      have hnext := congrArg (List.drop 1) hdrop
      rw [List.drop_drop, List.drop_drop] at hnext
      refine CookieScanned.afterSeparator hi hfold ?_ ?_ ?_ ?_ rfl ?_
      · exact hheader
      · exact hlen
      · exact hnext
      · exact hstate
      · rfl
    · rw [if_neg (mt (h.name_ne_nil hlt).mp hpos)] at hfold
      rw [if_neg hpos]
      refine CookieScanned.afterSeparator hi hfold ?_ ?_ ?_ ?_ rfl ?_
      · exact h.header
      · exact h.room
      · exact h.drop_back (Nat.le_succ_of_le h.start)
      · rfl
      · rfl
  · rw [if_neg hsemi] at hfold ⊢
    by_cases heq : (text ++ c :: tail).getD i 0 = 61
    · rw [if_pos heq] at hfold ⊢
      exact CookieScanned.oneByte hi hfold h.nameEnds (by simp)
    · rw [if_neg heq] at hfold ⊢
      exact CookieScanned.oneByte hi hfold (h.nameByte hlt) (by simp)

/-- **One round**: the scanner does on the line what the parser does on the text. -/
theorem CookieScanned.step (h : CookieScanned text tail c header i s) (hi : i < text.length) :
    CookieScanned text tail c header (InPlace.scanCookie text.length s i).2
      (InPlace.scanCookie text.length s i).1 := by
  have hlt : i < (text ++ c :: tail).length := by
    rw [List.length_append]
    omega
  have hfold := cookieFold_snoc header tail c hi
  have hscan := h.scanned
  have hblank := h.blank
  generalize cookieFold header (text.take i) = t at hfold hscan hblank
  obtain ⟨header', state⟩ := t
  cases state with
  | skipBlanks =>
      obtain ⟨hstate, hstart⟩ := hscan.pieces
      rw [cookieStep, if_neg (hblank rfl hi)] at hfold
      have hname : Scanned (text ++ c :: tail) i s (header', .parseName []) :=
        ⟨hscan.room, hscan.start, hscan.back, hscan.header, hstate,
          by rw [hstart, Nat.sub_self, List.take_zero]⟩
      exact CookieScanned.nameStep hi hname hfold
  | parseName name => exact CookieScanned.nameStep hi hscan hfold
  | parseValue name value =>
      unfold InPlace.scanCookie
      rw [hscan.pieces.1, hscan.read hscan.start]
      dsimp only
      rw [cookieStep] at hfold
      by_cases hsemi : (text ++ c :: tail).getD i 0 = 59
      · obtain ⟨hheader, hlen, hdrop⟩ := hscan.createValue appendCookie hscan.pieces hlt
        rw [if_pos hsemi, createCookie_eq] at hfold
        rw [if_pos hsemi]
        have hnext := congrArg (List.drop 1) hdrop
        rw [List.drop_drop, List.drop_drop] at hnext
        refine CookieScanned.afterSeparator hi hfold ?_ ?_ ?_ rfl rfl rfl
        · exact hheader
        · exact hlen
        · exact hnext
      · rw [if_neg hsemi] at hfold ⊢
        exact CookieScanned.oneByte hi hfold (hscan.valueByte hlt) (by simp)

/-- Every round moves forward. -/
theorem scanCookie_forward (s : PieceScan) (hi : i < text.length) :
    i + 1 ≤ (InPlace.scanCookie text.length s i).2 := by
  have hskip (line : List UInt8) : i + 1 ≤ InPlace.skipSpaces line text.length text.length (i + 1) :=
    (skipSpaces_spec line _ _ (i := i + 1) hi (by omega)).1
  unfold InPlace.scanCookie
  split
  · split
    · exact hskip _
    · split <;> exact Nat.le_refl _
  · split
    · exact hskip _
    · exact Nat.le_refl _

/-- **The whole loop** ends at the end of the text. -/
theorem CookieScanned.run (h : CookieScanned text tail c header i s) (rounds : Nat)
    (hrounds : text.length ≤ i + rounds) :
    (InPlace.scanCookies text.length rounds s i).2 = text.length ∧
      CookieScanned text tail c header text.length
        (InPlace.scanCookies text.length rounds s i).1 := by
  induction rounds generalizing s i with
  | zero =>
      have heq : i = text.length := Nat.le_antisymm h.inside hrounds
      subst heq
      exact ⟨rfl, h⟩
  | succ rounds ih =>
      rw [InPlace.scanCookies]
      by_cases hi : i < text.length
      · rw [if_pos hi]
        have hforward := scanCookie_forward s hi
        exact ih (h.step hi) (by omega)
      · have heq : i = text.length := Nat.le_antisymm h.inside (Nat.le_of_not_lt hi)
        subst heq
        rw [if_neg hi]
        exact ⟨rfl, h⟩

end Scanned

/-- **Cutting in place is parsing the text**, for a line that starts with eight bytes of a field
name; the bytes before and behind the text stay as they were. -/
theorem parseCookies_inPlace (name : List UInt8) (hname : name.length = 8) (text : List UInt8)
    (c : UInt8) (tail : List UInt8) (header : HttpRequestHeader) :
    (InPlace.parseCookies (name ++ (text ++ c :: tail)) (8 + text.length) header).2 =
        parseCookies text header ∧
      (InPlace.parseCookies (name ++ (text ++ c :: tail)) (8 + text.length) header).1.take 8 =
        name ∧
      (InPlace.parseCookies (name ++ (text ++ c :: tail)) (8 + text.length) header).1.drop
        (8 + text.length) = c :: tail := by
  have hlt : text.length < (text ++ c :: tail).length := by
    rw [List.length_append, List.length_cons]
    omega
  have hbehind : (text ++ c :: tail).drop text.length = c :: tail := List.drop_left
  have hstart : CookieScanned text tail c header 0
      ⟨text ++ c :: tail, header, .parseName, 0, 0, none⟩ :=
    ⟨Nat.zero_le _, ⟨rfl, Nat.le_refl _, rfl, rfl, rfl, rfl⟩, nofun⟩
  obtain ⟨hend, hrun⟩ := hstart.run text.length (by omega)
  have hscan := hrun.scanned
  rw [List.take_length] at hscan
  unfold InPlace.parseCookies
  rw [Nat.add_sub_cancel_left, List.drop_left' hname, List.take_left' hname]
  dsimp only
  generalize InPlace.scanCookies text.length text.length
    ⟨text ++ c :: tail, header, .parseName, 0, 0, none⟩ 0 = r at hend hscan ⊢
  obtain ⟨s, i⟩ := r
  dsimp only at hend hscan ⊢
  subst hend
  -- what is in front of the pointer is never touched
  have hframe (line : List UInt8) (h : line.drop text.length = c :: tail) :
      (name ++ line).take 8 = name ∧ (name ++ line).drop (8 + text.length) = c :: tail := by
    rw [← hname, List.take_left, ← List.drop_drop, List.drop_left]
    exact ⟨rfl, h⟩
  rw [parseCookies, ← cookieFold]
  generalize cookieFold header text = t at hscan ⊢
  obtain ⟨header', state⟩ := t
  cases state with
  | skipBlanks =>
      obtain ⟨hstate, hnone⟩ := hscan.pieces
      dsimp only
      rw [hstate]
      dsimp only
      rw [if_neg (by omega)]
      exact ⟨hscan.header, hframe _ ((hscan.drop_back hscan.start).trans hbehind)⟩
  | parseName cookie =>
      obtain ⟨hstate, hpiece⟩ := hscan.pieces
      dsimp only
      rw [hstate]
      dsimp only
      by_cases hpos : text.length - s.nameStart > 0
      · obtain ⟨hheader, -, hdrop⟩ := hscan.createName appendCookie hpiece hlt
        rw [if_pos hpos, if_pos ((hscan.name_ne_nil hlt).mpr hpos), createCookie_eq]
        exact ⟨hheader, hframe _ (hdrop.trans hbehind)⟩
      · rw [if_neg hpos, if_neg (mt (hscan.name_ne_nil hlt).mp hpos)]
        exact ⟨hscan.header, hframe _ ((hscan.drop_back hscan.start).trans hbehind)⟩
  | parseValue cookie value =>
      obtain ⟨hheader, -, hdrop⟩ := hscan.createValue appendCookie hscan.pieces hlt
      dsimp only
      rw [hscan.pieces.1, createCookie_eq]
      exact ⟨hheader, hframe _ (hdrop.trans hbehind)⟩

/-! ## The round trip -/

/-- The bytes that may stand literally in a cookie: all but NUL, a space, `%`, `+`, `;` and `=`. -/
def CookieLiteral (c : UInt8) : Prop := c ≠ 0 ∧ c ≠ 32 ∧ c ≠ 37 ∧ c ≠ 43 ∧ c ≠ 59 ∧ c ≠ 61

instance (c : UInt8) : Decidable (CookieLiteral c) := inferInstanceAs (Decidable (_ ∧ _))

/-- Encodings of the name and of the value of a cookie. -/
structure CookieEncodes (cookie : Cookie) (raw : List UInt8 × List UInt8) : Prop where
  name : PercentEncodes CookieLiteral cookie.name raw.1
  value : PercentEncodes CookieLiteral cookie.value raw.2

/-- Items `name=value` that are joined by `;` and any number of spaces. -/
inductive CookieText : List (List UInt8 × List UInt8) → List UInt8 → Prop where
  | nil : CookieText [] []
  | last (raw : List UInt8 × List UInt8) : CookieText [raw] (raw.1 ++ 61 :: raw.2)
  | next (raw : List UInt8 × List UInt8) (spaces : Nat) {raws : List (List UInt8 × List UInt8)}
      {text : List UInt8} : raws ≠ [] → CookieText raws text →
      CookieText (raw :: raws) (raw.1 ++ 61 :: raw.2 ++ 59 :: (List.replicate spaces 32 ++ text))

/-- A cookie that can be told apart from its neighbours. -/
structure CookieSeparate (raw : List UInt8 × List UInt8) : Prop where
  nonempty : raw.1 ≠ []
  name : (59 : UInt8) ∉ raw.1 ∧ (61 : UInt8) ∉ raw.1 ∧ (32 : UInt8) ∉ raw.1
  value : (59 : UInt8) ∉ raw.2

theorem CookieEncodes.separate {cookie : Cookie} {raw : List UInt8 × List UInt8}
    (h : CookieEncodes cookie raw) (hname : cookie.name ≠ []) : CookieSeparate raw := by
  refine ⟨fun hnil => hname (h.name.nil_iff.mp hnil), ⟨?_, ?_, ?_⟩, ?_⟩
  · exact h.name.not_mem (fun hc => hc.2.2.2.2.1 rfl) (by decide) (by decide) (by decide)
  · exact h.name.not_mem (fun hc => hc.2.2.2.2.2 rfl) (by decide) (by decide) (by decide)
  · exact h.name.not_mem (fun hc => hc.2.1 rfl) (by decide) (by decide) (by decide)
  · exact h.value.not_mem (fun hc => hc.2.2.2.2.1 rfl) (by decide) (by decide) (by decide)

/-- The parser reads a name on to its end. -/
theorem cookieFold_name {x : List UInt8} (hsemi : (59 : UInt8) ∉ x) (heq : (61 : UInt8) ∉ x)
    (header : HttpRequestHeader) (name : List UInt8) :
    x.foldl (fun s c => cookieStep s.1 s.2 c) (header, .parseName name) =
      (header, .parseName (name ++ x)) := by
  induction x generalizing name with
  | nil => rw [List.append_nil]; rfl
  | cons c x ih =>
      rw [List.mem_cons, not_or] at hsemi heq
      have hstep : cookieStep header (.parseName name) c = (header, .parseName (name ++ [c])) := by
        rw [cookieStep, cookieNameStep, if_neg (Ne.symm hsemi.1), if_neg (Ne.symm heq.1)]
      rw [List.foldl_cons, hstep, ih hsemi.2 heq.2, List.append_assoc, List.singleton_append]

/-- The parser reads a value on to its end. -/
theorem cookieFold_value {x : List UInt8} (hsemi : (59 : UInt8) ∉ x) (header : HttpRequestHeader)
    (name value : List UInt8) :
    x.foldl (fun s c => cookieStep s.1 s.2 c) (header, .parseValue name value) =
      (header, .parseValue name (value ++ x)) := by
  induction x generalizing value with
  | nil => rw [List.append_nil]; rfl
  | cons c x ih =>
      rw [List.mem_cons, not_or] at hsemi
      have hstep : cookieStep header (.parseValue name value) c =
          (header, .parseValue name (value ++ [c])) := by
        rw [cookieStep, if_neg (Ne.symm hsemi.1)]
      rw [List.foldl_cons, hstep, ih hsemi.2, List.append_assoc, List.singleton_append]

/-- An item, from the start of the text or from behind the blanks. -/
theorem cookieFold_item {raw : List UInt8 × List UInt8} (h : CookieSeparate raw)
    {state : ParseState} (hstate : state = .parseName [] ∨ state = .skipBlanks)
    (header : HttpRequestHeader) :
    (raw.1 ++ 61 :: raw.2).foldl (fun s c => cookieStep s.1 s.2 c) (header, state) =
      (header, .parseValue raw.1 raw.2) := by
  obtain ⟨name, value⟩ := raw
  obtain ⟨c, rest, rfl⟩ := List.exists_cons_of_ne_nil h.nonempty
  obtain ⟨⟨hsemi, heq, hblank⟩, hvalue⟩ := And.intro h.name h.value
  rw [List.mem_cons, not_or] at hsemi heq hblank
  have hfirst : cookieStep header state c = (header, .parseName [c]) := by
    rcases hstate with rfl | rfl
    · rw [cookieStep, cookieNameStep, if_neg (Ne.symm hsemi.1), if_neg (Ne.symm heq.1)]
      rfl
    · rw [cookieStep, if_neg (Ne.symm hblank.1), cookieNameStep, if_neg (Ne.symm hsemi.1),
        if_neg (Ne.symm heq.1)]
      rfl
  have hmid : cookieStep header (.parseName (c :: rest)) 61 =
      (header, .parseValue (c :: rest) []) := by
    rw [cookieStep, cookieNameStep, if_neg (by decide), if_pos rfl]
  rw [List.cons_append, List.foldl_cons, hfirst, List.foldl_append,
    cookieFold_name hsemi.2 heq.2, List.singleton_append, List.foldl_cons, hmid,
    cookieFold_value hvalue, List.nil_append]

/-- What `parseCookies` does at the end of the text. -/
def finishCookies (t : HttpRequestHeader × ParseState) : HttpRequestHeader :=
  match t with
  | (header, .parseName name) => if name ≠ [] then createCookie header name none else header
  | (header, .parseValue name value) => createCookie header name (some value)
  | (header, .skipBlanks) => header

/-- `createCookie` for an item. -/
def addCookie (header : HttpRequestHeader) (raw : List UInt8 × List UInt8) : HttpRequestHeader :=
  createCookie header raw.1 (some raw.2)

/-- **Joining and cutting**: every item becomes a cookie, in order. -/
theorem finishCookies_joined {raws : List (List UInt8 × List UInt8)} {text : List UInt8}
    (htext : CookieText raws text) (h : ∀ raw ∈ raws, CookieSeparate raw) {state : ParseState}
    (hstate : state = .parseName [] ∨ state = .skipBlanks) (header : HttpRequestHeader) :
    finishCookies (text.foldl (fun s c => cookieStep s.1 s.2 c) (header, state)) =
      raws.foldl addCookie header := by
  induction htext generalizing state header with
  | nil => rcases hstate with rfl | rfl <;> rfl
  | last raw =>
      rw [cookieFold_item (h raw List.mem_cons_self) hstate]
      rfl
  | next raw spaces _ _ ih =>
      rw [List.forall_mem_cons] at h
      have hsemi : cookieStep header (.parseValue raw.1 raw.2) 59 =
          (addCookie header raw, .skipBlanks) := by
        rw [cookieStep, if_pos rfl, addCookie]
      have hblanks : ∀ c ∈ List.replicate spaces (32 : UInt8), c = 32 := by
        intro c hc
        exact List.eq_of_mem_replicate hc
      rw [List.foldl_append, cookieFold_item h.1 hstate, List.foldl_cons, hsemi, List.foldl_append,
        cookieFold_blanks hblanks, ih h.2 (Or.inr rfl), List.foldl_cons]

/-! ### What is stored -/

theorem urlDecode_cookieEncoded {s e : List UInt8} (h : PercentEncodes CookieLiteral s e)
    (hs : (0 : UInt8) ∉ s) : urlDecode e = s := by
  have hzero : (0 : UInt8) ∉ e :=
    h.not_mem (fun hc => hc.1 rfl) (by decide) (by decide) (by decide)
  rw [urlDecode, cString_of_not_mem hzero,
    urlDecodeLoop_encoding (fun c hc => ⟨hc.2.2.1, hc.2.2.2.1⟩) h, cString_of_not_mem hs]

/-- A cookie whose bytes are none of them NUL. -/
def Cookie.NulFree (cookie : Cookie) : Prop :=
  (0 : UInt8) ∉ cookie.name ∧ (0 : UInt8) ∉ cookie.value

theorem addCookies_encoded {cookies : List Cookie} {raws : List (List UInt8 × List UInt8)}
    (henc : List.Forall₂ CookieEncodes cookies raws) (hnul : ∀ cookie ∈ cookies, cookie.NulFree)
    (header : HttpRequestHeader) :
    raws.foldl addCookie header =
      { header with cookieList := header.cookieList ++ cookies } := by
  induction henc generalizing header with
  | nil => simp
  | @cons cookie raw cookies raws hcookie _ ih =>
      rw [List.forall_mem_cons] at hnul
      have hadd : addCookie header raw =
          { header with cookieList := header.cookieList ++ [cookie] } := by
        rw [addCookie, createCookie_eq, urlDecode_cookieEncoded hcookie.name hnul.1.1, Option.map_some,
          urlDecode_cookieEncoded hcookie.value hnul.1.2]
        rfl
      rw [List.foldl_cons, hadd, ih hnul.2]
      simp

theorem cookieSeparate_of_encodes {cookies : List Cookie} {raws : List (List UInt8 × List UInt8)}
    (henc : List.Forall₂ CookieEncodes cookies raws) (hne : ∀ cookie ∈ cookies, cookie.name ≠ []) :
    ∀ raw ∈ raws, CookieSeparate raw := by
  induction henc with
  | nil => simp
  | cons hcookie _ ih =>
      rw [List.forall_mem_cons] at hne ⊢
      exact ⟨hcookie.separate hne.1, ih hne.2⟩

/-! ### What is found -/

/-- `checkCookie` finds the first cookie of the name. -/
theorem checkCookie_first (guidLength : Nat) {name : List UInt8} {before after : List Cookie}
    {cookie : Cookie} (hname : cookie.name = name) (hbefore : ∀ c ∈ before, c.name ≠ name)
    (value : List UInt8) :
    InPlace.checkCookie guidLength name value (before ++ cookie :: after) =
      some ((cookie.value ++ [0]).take (min (cookie.value.length + 1) guidLength) ++
        value.drop (min (cookie.value.length + 1) guidLength)) := by
  have hfind : (before ++ cookie :: after).find? (fun c => c.name == name) = some cookie := by
    rw [List.find?_append, List.find?_eq_none.mpr (by simpa using hbefore), Option.none_or,
      List.find?_cons_of_pos (by simpa using hname)]
  rw [InPlace.checkCookie, hfind]

theorem checkCookie_none (guidLength : Nat) {name : List UInt8} {cookies : List Cookie}
    (h : ∀ c ∈ cookies, c.name ≠ name) (value : List UInt8) :
    InPlace.checkCookie guidLength name value cookies = none := by
  have hfind : cookies.find? (fun c => c.name == name) = none :=
    List.find?_eq_none.mpr (by simpa using h)
  rw [InPlace.checkCookie, hfind]

/-- What is copied of a value, read up to its terminator. -/
theorem cString_copied (v rest : List UInt8) (n : Nat) :
    cString (((v ++ [0]).take (min (v.length + 1) n) ++ rest).take n) = (cString v).take n := by
  have htake : cString (v.take n) = (cString v).take n := List.take_takeWhile.symm
  by_cases hlen : v.length + 1 ≤ n
  · obtain ⟨k, rfl⟩ := Nat.exists_eq_add_of_le hlen
    have hall : v.length + 1 = (v ++ [(0 : UInt8)]).length := by simp
    have hshort : (cString v).length ≤ (v ++ [(0 : UInt8)]).length + k := by
      have := (List.takeWhile_prefix (l := v) (· ≠ (0 : UInt8))).length_le
      rw [cString, ← hall]
      omega
    rw [Nat.min_eq_left hlen, hall, List.take_length, List.take_length_add_append, List.append_assoc,
      List.singleton_append, cString_piece, List.take_of_length_le hshort]
  · have hcopied : (v ++ [(0 : UInt8)]).take n = v.take n := by
      rw [List.take_append_of_le_length (by omega)]
    have hn : (v.take n).length = n := List.length_take_of_le (by omega)
    rw [Nat.min_eq_right (by omega), hcopied, List.take_left' hn, htake]

/-- The copy into the buffer holds what the session code reads of it. -/
theorem checkCookie_session (name value : List UInt8) (cookies : List Cookie) :
    (InPlace.checkCookie Session.webserverGuidLength name value cookies).map
        (fun buffer => cString (buffer.take Session.webserverGuidLength)) =
      Session.checkCookie name cookies := by
  unfold InPlace.checkCookie Session.checkCookie
  cases cookies.find? (fun cookie => cookie.name == name) with
  | none => rfl
  | some cookie =>
      dsimp only
      rw [Option.map_some, Option.map_some]
      rw [cString_copied]
      rfl

/-- **Cookies are stored as they were encoded**, in order and with duplicates, behind those that were
there; nothing else of the header changes. `checkCookie` then copies for a name at most
`WEBSERVER_GUID_LENGTH` bytes of the value of the first cookie that has it, and copies nothing for a
name that none has. -/
theorem parseCookies_stores {cookies : List Cookie} {raws : List (List UInt8 × List UInt8)}
    {text : List UInt8} (henc : List.Forall₂ CookieEncodes cookies raws)
    (htext : CookieText raws text) (hne : ∀ cookie ∈ cookies, cookie.name ≠ [])
    (hnul : ∀ cookie ∈ cookies, cookie.NulFree) (header : HttpRequestHeader) (c : UInt8)
    (tail : List UInt8) (guidLength : Nat) (name value : List UInt8) :
    (InPlace.parseCookies (ascii "Cookie: " ++ (text ++ c :: tail)) (8 + text.length) header).2 =
        { header with cookieList := header.cookieList ++ cookies } ∧
      (∀ before cookie after, header.cookieList ++ cookies = before ++ cookie :: after →
        cookie.name = name → (∀ c ∈ before, c.name ≠ name) →
        InPlace.checkCookie guidLength name value (header.cookieList ++ cookies) =
          some ((cookie.value ++ [0]).take (min (cookie.value.length + 1) guidLength) ++
            value.drop (min (cookie.value.length + 1) guidLength))) ∧
      ((∀ c ∈ header.cookieList ++ cookies, c.name ≠ name) →
        InPlace.checkCookie guidLength name value (header.cookieList ++ cookies) = none) := by
  obtain ⟨hheader, -, -⟩ := parseCookies_inPlace (ascii "Cookie: ") rfl text c tail header
  refine ⟨?_, fun before cookie after hsplit hname hbefore => ?_, fun h => checkCookie_none _ h _⟩
  · rw [hheader]
    have hjoined := finishCookies_joined htext (cookieSeparate_of_encodes henc hne) (Or.inl rfl)
      header
    rw [addCookies_encoded henc hnul] at hjoined
    exact hjoined
  · rw [hsplit]
    exact checkCookie_first _ hname hbefore _

/-- Two cookies of one name, the second without a value. -/
theorem parseCookies_stores_two :
    (InPlace.parseCookies (ascii "Cookie: " ++ (ascii "a=%31;  a=" ++ 0 :: []))
        (8 + (ascii "a=%31;  a=").length) {}).2.cookieList =
      [⟨ascii "a", ascii "1"⟩, ⟨ascii "a", []⟩] := by
  have henc : List.Forall₂ CookieEncodes [⟨ascii "a", ascii "1"⟩, ⟨ascii "a", []⟩]
      [(ascii "a", ascii "%31"), (ascii "a", [])] :=
    .cons ⟨.literal (by decide) .nil, .escape (by decide) (by decide) (by decide) .nil⟩
      (.cons ⟨.literal (by decide) .nil, .nil⟩ .nil)
  have htext : CookieText [(ascii "a", ascii "%31"), (ascii "a", [])] (ascii "a=%31;  a=") :=
    .next _ 2 (by simp) (.last _)
  exact congrArg HttpRequestHeader.cookieList
    (parseCookies_stores henc htext (by decide) (by unfold Cookie.NulFree; decide) {} 0 [] 50 [] []).1

end CWebUI.Http
