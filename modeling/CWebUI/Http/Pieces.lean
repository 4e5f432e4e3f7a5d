import Mathlib.Data.List.GetD
import CWebUI.Http.UrlDecode

set_option autoImplicit false

/-! # Pieces of a line

The parsers of parameters and of cookies cut names and values out of a line where they stand: the
byte at the end of a piece becomes a NUL byte, `url_decode` works on the piece in place, and the
byte is put back. `decodeAt` is `url_decode` at a pointer into a line, `cut_name` and `cut_value` are
what cutting does, and `Scanned` relates a scanner of this kind to the parser of `HeaderLine` that
has read the same text: from the name on, the line is as it was.
-/

namespace CWebUI.Http

open ByteString

/-! ## Decoding a piece -/

/-- `url_decode` at a pointer into a line. -/
def decodeAt (line : List UInt8) (p : Nat) : List UInt8 :=
  line.take p ++ urlDecodeInPlace (line.drop p)

/-- The C string at a pointer into a line. -/
def stringAt (line : List UInt8) (p : Nat) : List UInt8 := cString (line.drop p)

/-- A terminator behind a piece ends the C string, if nothing in the piece does. -/
theorem cString_piece (piece rest : List UInt8) : cString (piece ++ 0 :: rest) = cString piece := by
  by_cases hzero : (0 : UInt8) ∈ piece
  · obtain ⟨tail, htail⟩ := cString_split hzero
    conv_lhs => rw [htail, List.append_assoc, List.cons_append]
    exact cString_append_zero (not_mem_cString piece) _
  · rw [cString_append_zero hzero, cString_of_not_mem hzero]

/-- What is decoded in place of a piece that is ended by a NUL byte. -/
theorem urlDecodeInPlace_piece (piece rest : List UInt8) :
    cString (urlDecodeInPlace (piece ++ 0 :: rest)) = urlDecode piece ∧
      (urlDecodeInPlace (piece ++ 0 :: rest)).length = (piece ++ 0 :: rest).length ∧
      (urlDecodeInPlace (piece ++ 0 :: rest)).drop piece.length = 0 :: rest := by
  have hends : (0 : UInt8) ∈ piece ++ 0 :: rest := by simp
  obtain ⟨tail, htail⟩ := cString_split hends
  rw [cString_piece] at htail
  have hnul := not_mem_cString piece
  have heq := urlDecodeInPlace_eq hnul tail
  rw [← htail] at heq
  have hout := urlDecodeLoop_length_le (cString piece)
  have hshort : (cString piece).length ≤ piece.length := (List.takeWhile_prefix _).length_le
  rw [heq]
  refine ⟨cString_piece _ _, ?_, ?_⟩
  · simp only [List.length_append, List.length_cons, List.length_drop]
    omega
  · rcases Nat.lt_or_eq_of_le (Nat.le_trans hout hshort) with hlt | hall
    · obtain ⟨k, hk⟩ := Nat.exists_eq_add_of_lt hlt
      rw [hk, Nat.add_assoc, List.drop_append, List.drop_eq_nil_of_le (by omega), List.nil_append,
        Nat.add_sub_cancel_left, List.drop_succ_cons, List.drop_drop,
        show (urlDecodeLoop (cString piece)).length + 1 + k = piece.length by omega, List.drop_left]
    · rw [← hall, List.drop_left, hall]
      simp

/-- **Decoding a piece that ends with a NUL byte at `e`** changes nothing before the piece and
nothing from its end on. -/
theorem decodeAt_spec {line : List UInt8} {p e : Nat} (hp : p ≤ e) (he : (line)[e]? = some 0) :
    stringAt (decodeAt line p) p = urlDecode ((line.drop p).take (e - p)) ∧
      (decodeAt line p).length = line.length ∧ (decodeAt line p).drop e = line.drop e := by
  obtain ⟨hlt, hzero⟩ := List.getElem?_eq_some_iff.mp he
  have hdrop : line.drop e = 0 :: line.drop (e + 1) := by
    rw [List.drop_eq_getElem_cons hlt, hzero]
  have hsplit : line.drop p = (line.drop p).take (e - p) ++ 0 :: line.drop (e + 1) := by
    conv_lhs => rw [← List.take_append_drop (e - p) (line.drop p)]
    rw [List.drop_drop, Nat.add_sub_cancel' hp, hdrop]
  have hpiece : ((line.drop p).take (e - p)).length = e - p := by
    rw [List.length_take, List.length_drop]
    omega
  have htake : (line.take p).length = p := List.length_take_of_le (by omega)
  obtain ⟨hstring, hlen, htail⟩ :=
    urlDecodeInPlace_piece ((line.drop p).take (e - p)) (line.drop (e + 1))
  rw [← hsplit] at hstring hlen htail
  rw [hpiece] at htail
  refine ⟨?_, ?_, ?_⟩
  · rw [stringAt, decodeAt, List.drop_left' htake, hstring]
  · rw [decodeAt, List.length_append, hlen, ← List.length_append, List.take_append_drop]
  · rw [decodeAt, List.drop_append, List.drop_eq_nil_of_le (by omega), List.nil_append, htake, htail,
      hdrop]

/-- A byte behind a piece does not matter to it. -/
theorem piece_set {line : List UInt8} {p e k : Nat} (c : UInt8) (hp : p ≤ e) (hk : e ≤ k) :
    ((line.set k c).drop p).take (e - p) = (line.drop p).take (e - p) := by
  rw [List.drop_set, if_neg (by omega), List.take_set_of_le (by omega)]

/-- A byte that is put back. -/
theorem drop_set_back {line d : List UInt8} {e : Nat} (he : e < line.length)
    (hd : d.drop (e + 1) = line.drop (e + 1)) (hlen : d.length = line.length) :
    (d.set e (line.getD e 0)).drop e = line.drop e := by
  have hlt : e < d.length := by omega
  rw [List.drop_eq_getElem_cons he, ← hd, List.drop_set, if_neg (by omega), Nat.sub_self,
    List.drop_eq_getElem_cons hlt, List.set_cons_zero, List.getD_eq_getElem _ _ he]

/-- **A name that is cut out**: the byte at its end is a NUL byte while it is decoded. -/
theorem cut_name (line : List UInt8) {p e : Nat} (hp : p ≤ e) (he : e < line.length) :
    stringAt (decodeAt (line.set e 0) p) p = urlDecode ((line.drop p).take (e - p)) ∧
      ((decodeAt (line.set e 0) p).set e (line.getD e 0)).length = line.length ∧
      ((decodeAt (line.set e 0) p).set e (line.getD e 0)).drop e = line.drop e := by
  have hzero : (line.set e 0)[e]? = some 0 := by
    rw [List.getElem?_set_self he]
  obtain ⟨hstring, hlen, hdrop⟩ := decodeAt_spec hp hzero
  rw [List.length_set] at hlen
  refine ⟨?_, by rw [List.length_set, hlen], drop_set_back he ?_ hlen⟩
  · rw [hstring, piece_set 0 hp (Nat.le_refl _)]
  · have hnext := congrArg (List.drop 1) hdrop
    rw [List.drop_drop, List.drop_drop, List.drop_set_of_lt (Nat.lt_succ_self _)] at hnext
    exact hnext

/-- **A name and a value that are cut out**, with NUL bytes at both ends while they are decoded. -/
theorem cut_value (line : List UInt8) {p n e : Nat} (hp : p ≤ n) (hn : n < e)
    (he : e < line.length) :
    stringAt (decodeAt ((line.set n 0).set e 0) p) p = urlDecode ((line.drop p).take (n - p)) ∧
      stringAt (decodeAt (decodeAt ((line.set n 0).set e 0) p) (n + 1)) (n + 1) =
        urlDecode ((line.drop (n + 1)).take (e - (n + 1))) ∧
      ∀ b, (((decodeAt (decodeAt ((line.set n 0).set e 0) p) (n + 1)).set n b).set e
          (line.getD e 0)).length = line.length ∧
        (((decodeAt (decodeAt ((line.set n 0).set e 0) p) (n + 1)).set n b).set e
          (line.getD e 0)).drop e = line.drop e := by
  have hzero : ((line.set n 0).set e 0)[n]? = some 0 := by
    rw [List.getElem?_set_ne (by omega), List.getElem?_set_self (by omega)]
  obtain ⟨hstring, hlen, hdrop⟩ := decodeAt_spec hp hzero
  rw [List.length_set, List.length_set] at hlen
  generalize decodeAt ((line.set n 0).set e 0) p = d at hstring hlen hdrop ⊢
  -- from the end of the name on, the first decoding has left the line with its two NUL bytes
  have hbehind {k : Nat} (hk : n < k) : d.drop k = (line.set e 0).drop k := by
    obtain ⟨j, rfl⟩ := Nat.exists_eq_add_of_lt hk
    have hj := congrArg (List.drop (j + 1)) hdrop
    rw [List.drop_drop, List.drop_drop, List.set_comm _ _ (by omega),
      List.drop_set_of_lt (by omega)] at hj
    exact hj
  have hzero' : d[e]? = some 0 := by
    have hhead := congrArg List.head? (hbehind hn)
    rw [List.head?_drop, List.head?_drop, List.getElem?_set_self he] at hhead
    exact hhead
  obtain ⟨hvalue, hlen', hdrop'⟩ := decodeAt_spec hn hzero'
  refine ⟨?_, ?_, fun b => ⟨?_, ?_⟩⟩
  · rw [hstring, piece_set 0 hp (by omega), piece_set 0 hp (Nat.le_refl _)]
  · rw [hvalue, hbehind (Nat.lt_succ_self _), piece_set 0 hn (Nat.le_refl _)]
  · rw [List.length_set, List.length_set, hlen', hlen]
  · refine drop_set_back he ?_ (by rw [List.length_set, hlen', hlen])
    have hnext := congrArg (List.drop 1) hdrop'
    rw [List.drop_drop, List.drop_drop, hbehind (by omega),
      List.drop_set_of_lt (Nat.lt_succ_self _)] at hnext
    rw [List.drop_set_of_lt (by omega), hnext]

/-! ## The scanner -/

/-- `enum ParameterParseStates` and `enum CookieParseStates` -/
inductive PieceParseStates where
  | parseName
  | parseValue
  deriving DecidableEq, Repr

/-- The line, the header and the local variables of `recieveParameterFromGet` and of `parseCookies`.
A pointer is an index into the line; `valueStart` may be null. -/
structure PieceScan where
  line : List UInt8
  header : HttpRequestHeader
  state : PieceParseStates
  nameStart : Nat
  nameEnd : Nat
  valueStart : Option Nat

/-- What is done to the header with a name and a value, when they are decoded. -/
abbrev Create := HttpRequestHeader → List UInt8 → Option (List UInt8) → HttpRequestHeader

/-- `createParameter` and `createCookie`, from what they do to the header: the name is copied before
the value is decoded. -/
def createAt (create : Create) (line : List UInt8) (header : HttpRequestHeader) (name : Nat) (value : Option Nat) :
    List UInt8 × HttpRequestHeader :=
  let line := decodeAt line name
  let copied := stringAt line name
  match value with
  | none => (line, create header copied none)
  | some value =>
      let line := decodeAt line value
      (line, create header copied (some (stringAt line value)))

/-- A call of `createParameter` or `createCookie`: the line, the header, and the pointers to the name
and to the value. -/
abbrev CreateCall :=
  List UInt8 → HttpRequestHeader → Nat → Option Nat → List UInt8 × HttpRequestHeader

/-- The scanner has a name without a value, which ends at `nameEnd`. -/
def createName (call : CreateCall) (s : PieceScan) (nameEnd : Nat) : PieceScan :=
  let bak1 := s.line.getD nameEnd 0
  let (line, header) := call (s.line.set nameEnd 0) s.header s.nameStart none
  { s with line := line.set nameEnd bak1, header := header, nameEnd := nameEnd }

/-- The scanner has a name and a value, which ends at `valueEnd`. -/
def createValue (call : CreateCall) (s : PieceScan) (valueEnd : Nat) : PieceScan :=
  let bak1 := s.line.getD s.nameEnd 0
  let line := s.line.set s.nameEnd 0
  let bak2 := line.getD valueEnd 0
  let (line, header) := call (line.set valueEnd 0) s.header s.nameStart s.valueStart
  { s with line := (line.set s.nameEnd bak1).set valueEnd bak2, header := header }

/-! ## The scanner and the text -/

/-- The pieces that the scanner has at the byte `i` of the line as it was. -/
def PiecesAt (line : List UInt8) (i : Nat) (s : PieceScan) : ParseState → Prop
  | .parseName name => s.state = .parseName ∧ name = (line.drop s.nameStart).take (i - s.nameStart)
  | .parseValue name value =>
      s.state = .parseValue ∧ s.nameStart ≤ s.nameEnd ∧ s.nameEnd < i ∧
        s.valueStart = some (s.nameEnd + 1) ∧
        name = (line.drop s.nameStart).take (s.nameEnd - s.nameStart) ∧
        value = (line.drop (s.nameEnd + 1)).take (i - (s.nameEnd + 1))
  | .skipBlanks => s.state = .parseName ∧ s.nameStart = i

/-- The scanner at the byte `i`, and what the parser on the text has made of the bytes before it. -/
structure Scanned (line : List UInt8) (i : Nat) (s : PieceScan)
    (t : HttpRequestHeader × ParseState) : Prop where
  room : s.line.length = line.length
  start : s.nameStart ≤ i
  back : s.line.drop s.nameStart = line.drop s.nameStart
  header : s.header = t.1
  pieces : PiecesAt line i s t.2

section Scanned

variable {line : List UInt8} {i : Nat} {s : PieceScan} {t : HttpRequestHeader × ParseState}

theorem Scanned.drop_back (h : Scanned line i s t) {k : Nat} (hk : s.nameStart ≤ k) :
    s.line.drop k = line.drop k := by
  obtain ⟨j, rfl⟩ := Nat.exists_eq_add_of_le hk
  rw [← List.drop_drop, h.back, List.drop_drop]

theorem Scanned.read (h : Scanned line i s t) {k : Nat} (hk : s.nameStart ≤ k) :
    s.line.getD k 0 = line.getD k 0 := by
  have hhead := congrArg List.head? (h.drop_back hk)
  rw [List.head?_drop, List.head?_drop] at hhead
  rw [List.getD_eq_getElem?_getD, List.getD_eq_getElem?_getD, hhead]

/-- A piece grows by the byte that is read. -/
theorem take_snoc {k : Nat} (hk : k ≤ i) (hi : i < line.length) :
    (line.drop k).take (i + 1 - k) = (line.drop k).take (i - k) ++ [line.getD i 0] := by
  have hget : (line.drop k)[i - k]? = some (line.getD i 0) := by
    rw [List.getElem?_drop, Nat.add_sub_cancel' hk, List.getElem?_eq_getElem hi,
      List.getD_eq_getElem _ _ hi]
  rw [Nat.sub_add_comm hk, List.take_add_one, hget, Option.toList_some]

/-- A name is decoded as on the text, and the line is behind it as it was. -/
theorem Scanned.createName (create : Create) {name : List UInt8} (h : Scanned line i s t)
    (hname : name = (line.drop s.nameStart).take (i - s.nameStart)) (hi : i < line.length) :
    (Http.createName (createAt create) s i).header = create t.1 (urlDecode name) none ∧
      (Http.createName (createAt create) s i).line.length = line.length ∧
      (Http.createName (createAt create) s i).line.drop i = line.drop i := by
  obtain ⟨hstring, hlen, hdrop⟩ := cut_name s.line h.start (by rw [h.room]; exact hi)
  rw [h.back, ← hname] at hstring
  rw [h.drop_back h.start] at hdrop
  unfold Http.createName createAt
  dsimp only
  rw [hstring, h.header]
  exact ⟨rfl, hlen.trans h.room, hdrop⟩

/-- The same for a name with a value. -/
theorem Scanned.createValue (create : Create) {name value : List UInt8} (h : Scanned line i s t)
    (hpieces : PiecesAt line i s (.parseValue name value)) (hi : i < line.length) :
    (Http.createValue (createAt create) s i).header = create t.1 (urlDecode name) (some (urlDecode value)) ∧
      (Http.createValue (createAt create) s i).line.length = line.length ∧
      (Http.createValue (createAt create) s i).line.drop i = line.drop i := by
  obtain ⟨-, hstart, hend, hvalueStart, hname, hvalue⟩ := hpieces
  obtain ⟨hname', hvalue', hrest⟩ := cut_value s.line hstart hend (by rw [h.room]; exact hi)
  rw [h.back, ← hname] at hname'
  rw [h.drop_back (by omega), ← hvalue] at hvalue'
  obtain ⟨hlen, hdrop⟩ := hrest (s.line.getD s.nameEnd 0)
  rw [h.drop_back h.start] at hdrop
  have hbak : (s.line.set s.nameEnd 0).getD i 0 = s.line.getD i 0 := by
    rw [List.getD_eq_getElem?_getD, List.getElem?_set_ne (by omega), List.getD_eq_getElem?_getD]
  unfold Http.createValue createAt
  rw [hvalueStart]
  dsimp only
  rw [hname', hvalue', h.header, hbak]
  exact ⟨rfl, hlen.trans h.room, hdrop⟩

/-- A byte of a name: the scanner goes on. -/
theorem Scanned.nameByte {header : HttpRequestHeader} {name : List UInt8}
    (h : Scanned line i s (header, .parseName name)) (hi : i < line.length) :
    Scanned line (i + 1) s (header, .parseName (name ++ [line.getD i 0])) := by
  obtain ⟨hstate, hname⟩ := h.pieces
  refine ⟨h.room, Nat.le_succ_of_le h.start, h.back, h.header, hstate, ?_⟩
  rw [take_snoc h.start hi, ← hname]

/-- A byte of a value: the scanner goes on. -/
theorem Scanned.valueByte {header : HttpRequestHeader} {name value : List UInt8}
    (h : Scanned line i s (header, .parseValue name value)) (hi : i < line.length) :
    Scanned line (i + 1) s (header, .parseValue name (value ++ [line.getD i 0])) := by
  obtain ⟨hstate, hstart, hend, hvalueStart, hname, hvalue⟩ := h.pieces
  refine ⟨h.room, Nat.le_succ_of_le h.start, h.back, h.header, hstate, hstart,
    Nat.lt_succ_of_lt hend, hvalueStart, hname, ?_⟩
  rw [take_snoc hend hi, ← hvalue]

/-- The end of a name: the value starts behind it. -/
theorem Scanned.nameEnds {header : HttpRequestHeader} {name : List UInt8}
    (h : Scanned line i s (header, .parseName name)) :
    Scanned line (i + 1)
      { s with nameEnd := i, valueStart := some (i + 1), state := .parseValue }
      (header, .parseValue name []) := by
  refine ⟨h.room, Nat.le_succ_of_le h.start, h.back, h.header, rfl, h.start, Nat.lt_succ_self i, rfl,
    h.pieces.2, ?_⟩
  rw [Nat.sub_self, List.take_zero]

/-- A name is empty if nothing lies between its two ends. -/
theorem Scanned.name_ne_nil {header : HttpRequestHeader} {name : List UInt8}
    (h : Scanned line i s (header, .parseName name)) (hi : i < line.length) :
    name ≠ [] ↔ i - s.nameStart > 0 := by
  rw [h.pieces.2, Ne, List.take_eq_nil_iff, List.drop_eq_nil_iff]
  have := h.start
  omega

end Scanned

end CWebUI.Http
