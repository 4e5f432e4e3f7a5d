import CWebUI.Http.Pieces
import CWebUI.Http.SubstringSearch

set_option autoImplicit false

/-! # The parameters of a query, cut in place

`recieveParameterFromGet` and `createParameter` (`header_parser.c`) on the line itself. The scanner
is behind a piece when it decodes it and never reads the decoded bytes again, so that it computes
what the parser of `HeaderLine` computes on the text alone (`recieveParameterFromGet_inPlace`).

On top of that stands the round trip: a list of parameters that is percent-encoded and joined with
`&` is stored as it was.
-/

namespace CWebUI.Http

open ByteString

/-! ## The scanner -/

/-- What `createParameter` does to the header. -/
def storeParameter : Create := fun header name value =>
  { header with
    parameterStore := newVariable header.parameterStore name value
    error := header.error || value.any hasScript }

theorem createParameter_eq (header : HttpRequestHeader) (name : List UInt8)
    (value : Option (List UInt8)) :
    createParameter header name value =
      storeParameter header (urlDecode name) (value.map urlDecode) := by
  cases value with
  | none => simp [createParameter, storeParameter]
  | some v => rfl

namespace InPlace

/-- `createParameter` -/
def createParameter : CreateCall := createAt storeParameter

/-- The body of the loop of `recieveParameterFromGet`, at the byte `i`. -/
def scanParameter (s : PieceScan) (i : Nat) : PieceScan :=
  match s.state with
  | .parseName =>
      if s.line.getD i 0 = 38 then
        let s := if i - s.nameStart > 0 then createName createParameter s i
          else { s with nameEnd := i }
        { s with nameStart := i + 1 }
      else if s.line.getD i 0 = 61 then
        { s with nameEnd := i, valueStart := some (i + 1), state := .parseValue }
      else s
  | .parseValue =>
      if s.line.getD i 0 = 38 then
        { createValue createParameter s i with
          valueStart := none, nameStart := i + 1, nameEnd := i + 1, state := .parseName }
      else s

/-- `recieveParameterFromGet`: the line and the header afterwards. -/
def recieveParameterFromGet (line : List UInt8) (header : HttpRequestHeader) (len : Nat) :
    List UInt8 × HttpRequestHeader :=
  if len < 1 then (line, header)
  else
    let s := (List.range len).foldl scanParameter ⟨line, header, .parseName, 0, 0, none⟩
    let s := match s.state with
      | .parseName => createName createParameter s len
      | .parseValue => createValue createParameter s len
    (s.line, s.header)

end InPlace

/-! ## The scanner and the text -/

/-- The parser of a query never skips blanks. -/
theorem parameterStep_state {header : HttpRequestHeader} {state : ParseState} (c : UInt8)
    (h : state ≠ .skipBlanks) : (parameterStep header state c).2 ≠ .skipBlanks := by
  cases state with
  | parseName name =>
      unfold parameterStep
      dsimp only
      split_ifs <;> simp
  | parseValue name value =>
      unfold parameterStep
      dsimp only
      split_ifs <;> simp
  | skipBlanks => exact absurd rfl h

section Scanned

variable {line : List UInt8} {i : Nat} {s : PieceScan} {t : HttpRequestHeader × ParseState}

/-- The scanner behind a parameter, at the byte behind its separator. -/
theorem Scanned.next {header : HttpRequestHeader} {s' : PieceScan}
    (hstate : s'.state = .parseName) (hstart : s'.nameStart = i + 1) (hheader : s'.header = header)
    (hlen : s'.line.length = line.length) (hdrop : s'.line.drop i = line.drop i) :
    Scanned line (i + 1) s' (header, .parseName []) := by
  refine ⟨hlen, Nat.le_of_eq hstart, ?_, hheader, hstate, ?_⟩
  · have hnext := congrArg (List.drop 1) hdrop
    rwa [List.drop_drop, List.drop_drop, ← hstart] at hnext
  · rw [hstart, Nat.sub_self, List.take_zero]

/-- **One byte**: the scanner does on the line what the parser does on the text. -/
theorem Scanned.scanParameter (h : Scanned line i s t) (hi : i < line.length)
    (hblanks : t.2 ≠ .skipBlanks) :
    Scanned line (i + 1) (InPlace.scanParameter s i) (parameterStep t.1 t.2 (line.getD i 0)) := by
  have hread := h.read h.start
  obtain ⟨header, state⟩ := t
  cases state with
  | parseName name =>
      obtain ⟨hstate, hname⟩ := h.pieces
      unfold InPlace.scanParameter parameterStep
      rw [hstate, hread]
      dsimp only
      by_cases hamp : line.getD i 0 = 38
      · rw [if_pos hamp, if_pos hamp]
        by_cases hpos : i - s.nameStart > 0
        · obtain ⟨hheader, hlen, hdrop⟩ := h.createName storeParameter hname hi
          rw [if_pos hpos, if_pos ((h.name_ne_nil hi).mpr hpos), createParameter_eq]
          refine Scanned.next ?_ rfl hheader hlen hdrop
          exact hstate
        · rw [if_neg hpos, if_neg (mt (h.name_ne_nil hi).mp hpos)]
          exact Scanned.next rfl rfl h.header h.room (h.drop_back h.start)
      · rw [if_neg hamp, if_neg hamp]
        by_cases heq : line.getD i 0 = 61
        · rw [if_pos heq, if_pos heq]
          exact h.nameEnds
        · rw [if_neg heq, if_neg heq]
          exact h.nameByte hi
  | parseValue name value =>
      unfold InPlace.scanParameter parameterStep
      rw [h.pieces.1, hread]
      dsimp only
      by_cases hamp : line.getD i 0 = 38
      · obtain ⟨hheader, hlen, hdrop⟩ := h.createValue storeParameter h.pieces hi
        rw [if_pos hamp, if_pos hamp, createParameter_eq]
        exact Scanned.next rfl rfl hheader hlen hdrop
      · rw [if_neg hamp, if_neg hamp]
        exact h.valueByte hi
  | skipBlanks => exact absurd rfl hblanks

end Scanned

/-- **The whole loop.** -/
theorem scanParameter_run (text : List UInt8) (c : UInt8) (tail : List UInt8)
    (header : HttpRequestHeader) {n : Nat} (hn : n ≤ text.length) :
    Scanned (text ++ c :: tail) n
        ((List.range n).foldl InPlace.scanParameter
          ⟨text ++ c :: tail, header, .parseName, 0, 0, none⟩)
        ((text.take n).foldl (fun s c => parameterStep s.1 s.2 c) (header, .parseName [])) ∧
      ((text.take n).foldl (fun s c => parameterStep s.1 s.2 c) (header, .parseName [])).2 ≠
        .skipBlanks := by
  induction n with
  | zero => exact ⟨⟨rfl, Nat.le_refl _, rfl, rfl, rfl, rfl⟩, by simp⟩
  | succ n ih =>
      have hlt : n < text.length := hn
      have hget : (text ++ c :: tail).getD n 0 = text[n] := by
        rw [List.getD_append _ _ _ _ hlt, List.getD_eq_getElem _ _ hlt]
      obtain ⟨hscan, hblanks⟩ := ih (Nat.le_of_lt hlt)
      have hstep := hscan.scanParameter (by rw [List.length_append]; omega) hblanks
      rw [hget] at hstep
      rw [List.range_succ, List.foldl_append, List.take_add_one, List.getElem?_eq_getElem hlt,
        Option.toList_some, List.foldl_append]
      exact ⟨hstep, parameterStep_state _ hblanks⟩

/-- **Cutting in place is parsing the text**, and the line behind the text stays as it was. -/
theorem recieveParameterFromGet_inPlace (text : List UInt8) (c : UInt8) (tail : List UInt8)
    (header : HttpRequestHeader) :
    (InPlace.recieveParameterFromGet (text ++ c :: tail) header text.length).2 =
        recieveParameterFromGet text header ∧
      (InPlace.recieveParameterFromGet (text ++ c :: tail) header text.length).1.drop text.length =
        c :: tail := by
  unfold InPlace.recieveParameterFromGet recieveParameterFromGet
  by_cases hempty : text = []
  · rw [if_pos (by rw [hempty]; decide), if_pos hempty, hempty]
    exact ⟨rfl, rfl⟩
  · have hpos := List.length_pos_of_ne_nil hempty
    have hlt : text.length < (text ++ c :: tail).length := by
      rw [List.length_append, List.length_cons]
      omega
    have hbehind : (text ++ c :: tail).drop text.length = c :: tail := List.drop_left
    obtain ⟨hrun, hblanks⟩ := scanParameter_run text c tail header (Nat.le_refl _)
    rw [List.take_length] at hrun hblanks
    rw [if_neg (by omega), if_neg hempty]
    generalize (List.range text.length).foldl InPlace.scanParameter _ = s at hrun ⊢
    generalize text.foldl (fun s c => parameterStep s.1 s.2 c) (header, .parseName []) = t
      at hrun hblanks ⊢
    obtain ⟨header', state⟩ := t
    cases state with
    | parseName name =>
        obtain ⟨hstate, hname⟩ := hrun.pieces
        obtain ⟨hheader, -, hdrop⟩ := hrun.createName storeParameter hname hlt
        dsimp only
        rw [hstate, createParameter_eq]
        exact ⟨hheader, hdrop.trans hbehind⟩
    | parseValue name value =>
        obtain ⟨hheader, -, hdrop⟩ := hrun.createValue storeParameter hrun.pieces hlt
        dsimp only
        rw [hrun.pieces.1, createParameter_eq]
        exact ⟨hheader, hdrop.trans hbehind⟩
    | skipBlanks => exact absurd rfl hblanks

/-! ## The round trip -/

/-- The bytes that may stand literally in a name: all but NUL, `%`, `&`, `+` and `=`. -/
def NameLiteral (c : UInt8) : Prop := c ≠ 0 ∧ c ≠ 37 ∧ c ≠ 38 ∧ c ≠ 43 ∧ c ≠ 61

instance (c : UInt8) : Decidable (NameLiteral c) := inferInstanceAs (Decidable (_ ∧ _))

/-- The bytes that may stand literally in a value: all but NUL, `%`, `&` and `+`. -/
def ValueLiteral (c : UInt8) : Prop := c ≠ 0 ∧ c ≠ 37 ∧ c ≠ 38 ∧ c ≠ 43

instance (c : UInt8) : Decidable (ValueLiteral c) := inferInstanceAs (Decidable (_ ∧ _))

/-- The item of a query for a parameter, from the encodings of its name and of its value. -/
def itemOf (raw : List UInt8 × Option (List UInt8)) : List UInt8 :=
  match raw.2 with
  | none => raw.1
  | some v => raw.1 ++ 61 :: v

/-- Encodings of the name and of the value of a parameter. -/
structure ParameterEncodes (p : WsVariable) (raw : List UInt8 × Option (List UInt8)) : Prop where
  name : PercentEncodes NameLiteral p.name raw.1
  value : Option.Rel (PercentEncodes ValueLiteral) p.value raw.2

/-- A value with a script tag in it. -/
def HasTag (value : List UInt8) : Prop :=
  ascii "<script>" <:+: value ∨ ascii "</script>" <:+: value

theorem hasTag_of_hasScript {value : List UInt8} (hvalue : (0 : UInt8) ∉ value)
    (h : hasScript value = true) : HasTag value := by
  unfold hasScript at h
  rw [Bool.or_eq_true, decide_eq_true_eq, decide_eq_true_eq] at h
  unfold HasTag
  rw [← cString_of_not_mem hvalue]
  exact h.imp infix_of_stringfind infix_of_stringfind

/-- The unreserved characters may stand literally. -/
theorem Unreserved.nameLiteral {c : UInt8} (h : Unreserved c) : NameLiteral c := by
  refine ⟨?_, ?_, ?_, ?_, ?_⟩ <;> rintro rfl <;> revert h <;> unfold Unreserved isDigit <;> decide

theorem PercentEncodes.urlDecode {literal : UInt8 → Prop} {s e : List UInt8}
    (hlit : ∀ c, literal c → c ≠ 0 ∧ c ≠ 37 ∧ c ≠ 43) (h : PercentEncodes literal s e)
    (hs : (0 : UInt8) ∉ s) : Http.urlDecode e = s := by
  have hzero : (0 : UInt8) ∉ e :=
    h.not_mem (fun hc => (hlit 0 hc).1 rfl) (by decide) (by decide) (by decide)
  rw [Http.urlDecode, cString_of_not_mem hzero, urlDecodeLoop_encoding (fun c hc => (hlit c hc).2) h,
    cString_of_not_mem hs]

theorem PercentEncodes.urlDecode_name {s e : List UInt8} (h : PercentEncodes NameLiteral s e)
    (hs : (0 : UInt8) ∉ s) : Http.urlDecode e = s :=
  h.urlDecode (fun _ hc => ⟨hc.1, hc.2.1, hc.2.2.2.1⟩) hs

theorem PercentEncodes.urlDecode_value {s e : List UInt8} (h : PercentEncodes ValueLiteral s e)
    (hs : (0 : UInt8) ∉ s) : Http.urlDecode e = s :=
  h.urlDecode (fun _ hc => ⟨hc.1, hc.2.1, hc.2.2.2⟩) hs

/-! ### What is cut out of a joined text -/

/-- The parser reads a name on to its end. -/
theorem cutsFrom_name {x : List UInt8} (hamp : (38 : UInt8) ∉ x) (heq : (61 : UInt8) ∉ x)
    (name rest : List UInt8) :
    cutsFrom (.parseName name) (x ++ rest) = cutsFrom (.parseName (name ++ x)) rest := by
  induction x generalizing name with
  | nil => rw [List.nil_append, List.append_nil]
  | cons c x ih =>
      rw [List.mem_cons, not_or] at hamp heq
      have hstep : cutStep (.parseName name) c = (none, .parseName (name ++ [c])) := by
        rw [cutStep, if_neg (Ne.symm hamp.1), if_neg (Ne.symm heq.1)]
      rw [List.cons_append, cutsFrom, hstep, Option.toList_none, List.nil_append,
        ih hamp.2 heq.2, List.append_assoc, List.singleton_append]

/-- The parser reads a value on to its end. -/
theorem cutsFrom_value {x : List UInt8} (hamp : (38 : UInt8) ∉ x) (name value rest : List UInt8) :
    cutsFrom (.parseValue name value) (x ++ rest) =
      cutsFrom (.parseValue name (value ++ x)) rest := by
  induction x generalizing value with
  | nil => rw [List.nil_append, List.append_nil]
  | cons c x ih =>
      rw [List.mem_cons, not_or] at hamp
      have hstep : cutStep (.parseValue name value) c = (none, .parseValue name (value ++ [c])) := by
        rw [cutStep, if_neg (Ne.symm hamp.1)]
      rw [List.cons_append, cutsFrom, hstep, Option.toList_none, List.nil_append, ih hamp.2,
        List.append_assoc, List.singleton_append]

/-- The state behind an item. -/
def itemState (raw : List UInt8 × Option (List UInt8)) : ParseState :=
  match raw.2 with
  | none => .parseName raw.1
  | some v => .parseValue raw.1 v

/-- An item that can be told apart from its neighbours. -/
structure Separate (raw : List UInt8 × Option (List UInt8)) : Prop where
  nonempty : raw.1 ≠ []
  name : (38 : UInt8) ∉ raw.1 ∧ (61 : UInt8) ∉ raw.1
  value : ∀ v ∈ raw.2, (38 : UInt8) ∉ v

theorem ParameterEncodes.separate {p : WsVariable} {raw : List UInt8 × Option (List UInt8)}
    (h : ParameterEncodes p raw) (hname : p.name ≠ []) : Separate raw := by
  refine ⟨fun hnil => hname (h.name.nil_iff.mp hnil), ⟨?_, ?_⟩, fun v hv => ?_⟩
  · exact h.name.not_mem (fun hc => hc.2.2.1 rfl) (by decide) (by decide) (by decide)
  · exact h.name.not_mem (fun hc => hc.2.2.2.2 rfl) (by decide) (by decide) (by decide)
  · have hrel := h.value
    rw [Option.mem_def.mp hv] at hrel
    generalize p.value = value at hrel
    cases hrel with
    | some henc => exact henc.not_mem (fun hc => hc.2.2.1 rfl) (by decide) (by decide) (by decide)

theorem separate_of_encodes {params : List WsVariable}
    {raws : List (List UInt8 × Option (List UInt8))}
    (henc : List.Forall₂ ParameterEncodes params raws) (hne : ∀ p ∈ params, p.name ≠ []) :
    ∀ raw ∈ raws, Separate raw := by
  induction henc with
  | nil => simp
  | cons hp _ ih =>
      rw [List.forall_mem_cons] at hne ⊢
      exact ⟨hp.separate hne.1, ih hne.2⟩

theorem cutsFrom_item {raw : List UInt8 × Option (List UInt8)} (h : Separate raw)
    (rest : List UInt8) :
    cutsFrom (.parseName []) (itemOf raw ++ rest) = cutsFrom (itemState raw) rest := by
  obtain ⟨name, value⟩ := raw
  cases value with
  | none => exact cutsFrom_name h.name.1 h.name.2 [] rest
  | some v =>
      have hstep : cutStep (.parseName name) 61 = (none, .parseValue name []) := rfl
      show cutsFrom _ ((name ++ 61 :: v) ++ rest) = _
      rw [List.append_assoc, cutsFrom_name h.name.1 h.name.2, List.nil_append, List.cons_append,
        cutsFrom, hstep, Option.toList_none, List.nil_append, cutsFrom_value (h.value v rfl)]
      rfl

/-- **Joining and cutting**: what is cut out of items that are joined with `&` are the items. -/
theorem cutsFrom_joined {raws : List (List UInt8 × Option (List UInt8))} (hne : raws ≠ [])
    (h : ∀ raw ∈ raws, Separate raw) :
    cutsFrom (.parseName []) (List.intercalate [38] (raws.map itemOf)) = raws := by
  induction raws with
  | nil => exact absurd rfl hne
  | cons raw raws ih =>
      have hraw := h raw List.mem_cons_self
      cases raws with
      | nil =>
          have hcut := cutsFrom_item hraw []
          rw [List.append_nil] at hcut
          rw [List.map_singleton, List.intercalate_singleton, hcut]
          obtain ⟨name, value⟩ := raw
          cases value <;> rfl
      | cons raw' raws =>
          have hrest := ih (List.cons_ne_nil _ _) fun r hr => h r (List.mem_cons_of_mem _ hr)
          have hsep : cutsFrom (itemState raw)
              (38 :: List.intercalate [38] ((raw' :: raws).map itemOf)) =
                raw :: cutsFrom (.parseName []) (List.intercalate [38] ((raw' :: raws).map itemOf)) := by
            obtain ⟨name, value⟩ := raw
            cases value with
            | none =>
                have hname : name ≠ [] := hraw.nonempty
                show cutsFrom (.parseName name) _ = _
                rw [cutsFrom, cutStep, if_pos rfl, if_pos hname]
                rfl
            | some v =>
                show cutsFrom (.parseValue name v) _ = _
                rw [cutsFrom, cutStep, if_pos rfl]
                rfl
          rw [List.map_cons, List.map_cons, List.intercalate_cons_cons, List.append_assoc,
            cutsFrom_item hraw, List.singleton_append, ← List.map_cons, hsep, hrest]

theorem cuts_joined {raws : List (List UInt8 × Option (List UInt8))}
    (h : ∀ raw ∈ raws, Separate raw) :
    cuts (List.intercalate [38] (raws.map itemOf)) = raws := by
  unfold cuts
  cases raws with
  | nil => rfl
  | cons raw raws =>
      have hcuts := cutsFrom_joined (List.cons_ne_nil raw raws) h
      rw [if_neg ?_, hcuts]
      intro hempty
      have hone := congrArg (cutsFrom (.parseName [])) hempty
      rw [hcuts] at hone
      obtain ⟨hraw, -⟩ := List.cons_eq_cons.mp hone
      exact (h raw List.mem_cons_self).nonempty (congrArg Prod.fst hraw)

/-! ### What is stored -/

/-- A parameter of a new name stands at the end of the store. -/
theorem newVariable_of_new {store : List WsVariable} {name : List UInt8}
    (value : Option (List UInt8)) (h : ∀ v ∈ store, v.name ≠ name) :
    newVariable store name value = store ++ [⟨name, value⟩] := by
  have hany : ¬ store.any (fun v => v.name == name) = true := by
    rw [List.any_eq_true]
    rintro ⟨v, hv, heq⟩
    exact h v hv (beq_iff_eq.mp heq)
  unfold newVariable
  rw [if_neg hany]

/-- A parameter whose bytes are none of them NUL. -/
def NulFree (p : WsVariable) : Prop := (0 : UInt8) ∉ p.name ∧ ∀ v ∈ p.value, (0 : UInt8) ∉ v

/-- `createParameter` on the encodings of a parameter. -/
theorem addParameter_encoded {p : WsVariable} {raw : List UInt8 × Option (List UInt8)}
    (h : ParameterEncodes p raw) (hnul : NulFree p) (header : HttpRequestHeader) :
    addParameter header raw = storeParameter header p.name p.value := by
  obtain ⟨name, value⟩ := p
  obtain ⟨rawName, rawValue⟩ := raw
  have hname : urlDecode rawName = name := h.name.urlDecode_name hnul.1
  have hvalue : rawValue.map urlDecode = value := by
    have hrel := h.value
    dsimp only at hrel
    cases hrel with
    | none => rfl
    | some henc => rw [Option.map_some, henc.urlDecode_value (hnul.2 _ rfl)]
  rw [addParameter, createParameter_eq, hname, hvalue]

/-- The parameters are stored one behind the other. -/
theorem addParameters_encoded {params : List WsVariable}
    {raws : List (List UInt8 × Option (List UInt8))}
    (henc : List.Forall₂ ParameterEncodes params raws) (hnames : (params.map WsVariable.name).Nodup)
    (hnul : ∀ p ∈ params, NulFree p) (header : HttpRequestHeader)
    (hnew : ∀ p ∈ params, ∀ v ∈ header.parameterStore, v.name ≠ p.name) :
    raws.foldl addParameter header =
      { header with
        parameterStore := header.parameterStore ++ params
        error := header.error || params.any fun p => p.value.any hasScript } := by
  induction henc generalizing header with
  | nil => simp
  | @cons p raw params raws hp _ ih =>
      rw [List.map_cons, List.nodup_cons] at hnames
      have hstore := newVariable_of_new p.value (hnew p List.mem_cons_self)
      rw [List.foldl_cons, addParameter_encoded hp (hnul p List.mem_cons_self), storeParameter, hstore]
      rw [ih hnames.2 (fun q hq => hnul q (List.mem_cons_of_mem _ hq))]
      · simp [Bool.or_assoc]
      · intro q hq v hv
        rcases List.mem_append.mp hv with hv | hv
        · exact hnew q (List.mem_cons_of_mem _ hq) v hv
        · rw [List.mem_singleton.mp hv]
          intro heq
          exact hnames.1 (heq ▸ List.mem_map_of_mem hq)

/-- **A query is stored as it was encoded**: parameters without NUL bytes, of distinct names that are
new to the store, percent-encoded and joined with `&`, are added to the store, these and no others;
and if no value has a script tag, nothing else of the header changes. The line behind the query stays
as it was. -/
theorem recieveParameterFromGet_stores {params : List WsVariable}
    {raws : List (List UInt8 × Option (List UInt8))}
    (henc : List.Forall₂ ParameterEncodes params raws) (hnames : (params.map WsVariable.name).Nodup)
    (hne : ∀ p ∈ params, p.name ≠ []) (hnul : ∀ p ∈ params, NulFree p)
    (header : HttpRequestHeader)
    (hnew : ∀ p ∈ params, ∀ v ∈ header.parameterStore, v.name ≠ p.name) (c : UInt8)
    (tail : List UInt8) {text : List UInt8}
    (htext : text = List.intercalate [38] (raws.map itemOf)) :
    (InPlace.recieveParameterFromGet (text ++ c :: tail) header text.length).2.parameterStore =
        header.parameterStore ++ params ∧
      ((∀ p ∈ params, ∀ v ∈ p.value, ¬ HasTag v) →
        (InPlace.recieveParameterFromGet (text ++ c :: tail) header text.length).2 =
          { header with parameterStore := header.parameterStore ++ params }) ∧
      (InPlace.recieveParameterFromGet (text ++ c :: tail) header text.length).1.drop text.length =
        c :: tail := by
  subst htext
  obtain ⟨hheader, hline⟩ := recieveParameterFromGet_inPlace _ c tail header
  rw [recieveParameterFromGet_cuts, cuts_joined (separate_of_encodes henc hne),
    addParameters_encoded henc hnames hnul header hnew] at hheader
  refine ⟨by rw [hheader], fun htags => ?_, hline⟩
  have hscript : (params.any fun p => p.value.any hasScript) = false := by
    rw [List.any_eq_false]
    intro p hp hany
    rw [Option.any_eq_true] at hany
    obtain ⟨v, hv, hscript⟩ := hany
    exact htags p hp v hv (hasTag_of_hasScript ((hnul p hp).2 v hv) hscript)
  rw [hheader, hscript, Bool.or_false]

/-- A bare name and a name with a value. -/
theorem recieveParameterFromGet_stores_two :
    (InPlace.recieveParameterFromGet (ascii "a&b=1+2" ++ 32 :: ascii "HTTP/1.1") {}
      (ascii "a&b=1+2").length).2.parameterStore =
      [⟨ascii "a", none⟩, ⟨ascii "b", some (ascii "1 2")⟩] := by
  have ha : ParameterEncodes ⟨ascii "a", none⟩ (ascii "a", none) :=
    ⟨.literal (by decide) .nil, .none⟩
  have hb : ParameterEncodes ⟨ascii "b", some (ascii "1 2")⟩ (ascii "b", some (ascii "1+2")) :=
    ⟨.literal (by decide) .nil, .some (.literal (by decide) (.plus (.literal (by decide) .nil)))⟩
  exact (recieveParameterFromGet_stores (.cons ha (.cons hb .nil)) (by decide) (by decide)
    (by unfold NulFree; decide) {} (by simp) 32 (ascii "HTTP/1.1") rfl).1

/-- A value with a NUL byte is stored up to it. -/
theorem recieveParameterFromGet_cuts_value :
    ParameterEncodes ⟨ascii "a", some [120, 0, 121]⟩ (ascii "a", some (ascii "x%00y")) ∧
      (InPlace.recieveParameterFromGet (itemOf (ascii "a", some (ascii "x%00y")) ++ [32]) {}
        (itemOf (ascii "a", some (ascii "x%00y"))).length).2.parameterStore ≠
        [⟨ascii "a", some [120, 0, 121]⟩] := by
  refine ⟨⟨.literal (by decide) .nil, .some (.literal (by decide)
    (.escape (by decide) (by decide) (by decide) (.literal (by decide) .nil)))⟩, ?_⟩
  decide +kernel

end CWebUI.Http
