import CWebUI.Template.Engine

set_option autoImplicit false

/-! # Template trees

Templates as trees: text, get tags of global variables, and if blocks. `print` writes a tree as the
text of a page, `render` is what the page means. The tag searches of the engine find in a printed
tree what the tree has there.
-/

namespace CWebUI.Template

open ByteString

/-! ## Trees -/

/-- A byte of text: no brace. -/
structure PlainByte where
  byte : UInt8
  plain : byte ≠ 123 ∧ byte ≠ 125
  deriving DecidableEq

/-- The text of a parameter of a tag, which `checkParameterString` accepts; its length has 16
bits. -/
structure ParameterText where
  text : List UInt8
  valid : checkParameterString text = true
  short : text.length < 65536
  deriving DecidableEq

/-- The parameters of an if tag. There are less than the engine has room for. -/
structure Condition where
  name : ParameterText
  arguments : List ParameterText := []
  few : arguments.length + 1 < maxFuncParas := by decide
  deriving DecidableEq

/-- The name of a global variable, as it can stand in a tag between quotes. -/
structure VariableName where
  name : List UInt8
  valid : name.all fun c => parameterByte c && c != 34
  short : name.length + 9 < 65536
  deriving DecidableEq

/-- A template. A piece of text is the sequence of its bytes. -/
inductive PageTree where
  | done
  | byte (c : PlainByte) (rest : PageTree)
  | get (n : VariableName) (rest : PageTree)
  /-- An if block without an else tag. -/
  | ifEnd (c : Condition) (branch rest : PageTree)
  /-- An if block with an else tag. -/
  | ifElse (c : Condition) (branch elseBranch rest : PageTree)
  deriving DecidableEq

/-- A tag: the word of its function, and its parameters. -/
def tagText (word : List UInt8) (parameter : List (List UInt8)) : List UInt8 :=
  123 :: word ++ parameter.flatMap (fun text => 58 :: text) ++ [125]

/-- The expression of a global variable. -/
def VariableName.expression (n : VariableName) : List UInt8 :=
  ascii "global;\"" ++ n.name ++ [34]

/-- `FUNCTION_PARAS` of a get tag. -/
def VariableName.func (n : VariableName) : FunctionParas := ⟨.getVariable, [n.expression]⟩

def VariableName.tag (n : VariableName) : List UInt8 := tagText (ascii "get") [n.expression]

def Condition.parameter (c : Condition) : List (List UInt8) :=
  c.name.text :: c.arguments.map ParameterText.text

/-- `FUNCTION_PARAS` of an if tag. -/
def Condition.func (c : Condition) : FunctionParas := ⟨.ifFunction, c.parameter⟩

def Condition.tag (c : Condition) : List UInt8 := tagText (ascii "if") c.parameter

namespace PageTree

/-- The text of a page. -/
def print : PageTree → List UInt8
  | done => []
  | byte c rest => c.byte :: rest.print
  | get n rest => n.tag ++ rest.print
  | ifEnd c branch rest => c.tag ++ (branch.print ++ (TagId.endifTag.text ++ rest.print))
  | ifElse c branch elseBranch rest =>
      c.tag ++ (branch.print ++ (TagId.elseTag.text ++ (elseBranch.print ++
        (TagId.endifTag.text ++ rest.print))))

/-- The depth of the nesting of blocks. -/
def depth : PageTree → Nat
  | done => 0
  | byte _ rest | get _ rest => rest.depth
  | ifEnd _ branch rest => max (branch.depth + 1) rest.depth
  | ifElse _ branch elseBranch rest =>
      max (max branch.depth elseBranch.depth + 1) rest.depth

/-- The variables whose get tags a template has. -/
def names : PageTree → List VariableName
  | done => []
  | byte _ rest => rest.names
  | get n rest => n :: rest.names
  | ifEnd _ branch rest => branch.names ++ rest.names
  | ifElse _ branch elseBranch rest => branch.names ++ elseBranch.names ++ rest.names

/-- The conditions of its blocks. -/
def conditions : PageTree → List Condition
  | done => []
  | byte _ rest | get _ rest => rest.conditions
  | ifEnd c branch rest => c :: (branch.conditions ++ rest.conditions)
  | ifElse c branch elseBranch rest =>
      c :: (branch.conditions ++ elseBranch.conditions ++ rest.conditions)

end PageTree

/-- What the names of a template mean: the texts of variables, and the values of conditions. -/
structure Meaning where
  value : VariableName → List UInt8
  holds : Condition → Bool

/-- The value of a condition, as `engine_callCondition` returns it. -/
def Meaning.condition (m : Meaning) (c : Condition) : ConditionReturn :=
  if m.holds c then .conditionTrue else .conditionFalse

/-- The same conditions, with nothing for every variable. -/
def Meaning.textOnly (m : Meaning) : Meaning := { m with value := fun _ => [] }

namespace PageTree

/-- What a template means: the text as it is, values for get tags, and for a block the branch that
is selected. -/
def render (m : Meaning) : PageTree → List UInt8
  | done => []
  | byte c rest => c.byte :: rest.render m
  | get n rest => m.value n ++ rest.render m
  | ifEnd c branch rest => (if m.holds c then branch.render m else []) ++ rest.render m
  | ifElse c branch elseBranch rest =>
      (if m.holds c then branch.render m else elseBranch.render m) ++ rest.render m

/-- The text that a template shows. -/
abbrev texts (m : Meaning) (t : PageTree) : List UInt8 := t.render m.textOnly

/-- A tag is what comes first. -/
def startsWithTag : PageTree → Bool
  | done | byte _ _ => false
  | get _ _ | ifEnd _ _ _ | ifElse _ _ _ _ => true

/-- The text starts like a page with a header. -/
def startsWithHeader (t : PageTree) : Bool := templateV1Header.isPrefixOf t.print

/-- In what is rendered of the template no tag stands directly behind a block, and no branch starts
like a page with a header. -/
def clear (m : Meaning) : PageTree → Bool
  | done => true
  | byte _ rest | get _ rest => rest.clear m
  | ifEnd c branch rest =>
      (!m.holds c || (!branch.startsWithHeader && branch.clear m)) && !rest.startsWithTag &&
        rest.clear m
  | ifElse c branch elseBranch rest =>
      (if m.holds c then !branch.startsWithHeader && branch.clear m
        else !elseBranch.startsWithHeader && elseBranch.clear m) && !rest.startsWithTag &&
        rest.clear m

end PageTree

/-! ## Reading a tag -/

theorem parameterByte_plain :
    ∀ c : UInt8, parameterByte c = true → c ≠ 58 ∧ c ≠ 123 ∧ c ≠ 125 :=
  forall_byte (by decide +kernel)

/-- A part of what stands somewhere. -/
theorem Slice.reads_of_append {S : Slice} {i : Int} {a b : List UInt8}
    (h : S.reads i (a ++ b) = true) : S.reads i a = true ∧ S.reads (i + a.length) b = true := by
  rwa [Slice.reads_append, Bool.and_eq_true] at h

theorem Slice.at_of_reads {S : Slice} {i : Int} {c : UInt8} {text : List UInt8}
    (h : S.reads i (c :: text) = true) : S.at i = c ∧ S.reads (i + 1) text = true := by
  rwa [Slice.reads_cons, Bool.and_eq_true, beq_iff_eq] at h

theorem Slice.bytes_eq (S : Slice) :
    S.bytes = (List.range S.length.toNat).map fun k : Nat => S.at k := by
  simp [Slice.bytes, List.map_eq_flatMap, List.flatMap_assoc]

/-- What stands somewhere are the bytes of the slice there. -/
theorem Slice.bytes_of_reads {S : Slice} {i : Int} {text : List UInt8}
    (h : S.reads i text = true) : (S.sub i text.length).bytes = text := by
  rw [Slice.reads_iff] at h
  rw [Slice.bytes_eq, Slice.sub_length, Int.toNat_natCast]
  refine List.ext_getElem (by simp) fun k _ hk => ?_
  simp only [List.getElem_map, List.getElem_range, Slice.sub_at]
  exact h k hk

/-- The closing brace of a text that has none before its end. -/
theorem closingBrace_of_reads {S : Slice} {i : Int} {text : List UInt8} (n : Nat)
    (h : S.reads i (text ++ [125]) = true) (hno : ∀ c ∈ text, c ≠ 125) :
    closingBrace S (text.length + (n + 1)) i = some (i + text.length) := by
  induction text generalizing i with
  | nil =>
      obtain ⟨hat, -⟩ := Slice.at_of_reads h
      rw [List.length_nil, Nat.zero_add, closingBrace, if_pos hat]
      simp
  | cons c text ih =>
      obtain ⟨hat, hrest⟩ := Slice.at_of_reads h
      have hc : S.at i ≠ 125 := hat ▸ hno c List.mem_cons_self
      have hn : (c :: text).length + (n + 1) = text.length + (n + 1) + 1 := by
        rw [List.length_cons]
        omega
      rw [hn, closingBrace, if_neg hc, ih hrest fun d hd => hno d (List.mem_cons_of_mem c hd),
        List.length_cons]
      congr 1
      push_cast
      omega

/-- The loop of `parseFunction` passes bytes that end no parameter. -/
theorem parametersFrom_skip {S : Slice} {i paraStart : Int} {text : List UInt8} (n : Nat)
    (h : S.reads i text = true) (hno : ∀ c ∈ text, c ≠ 58 ∧ c ≠ 125) :
    parametersFrom S (text.length + n) i paraStart =
      parametersFrom S n (i + text.length) paraStart := by
  induction text generalizing i with
  | nil => simp
  | cons c text ih =>
      obtain ⟨hat, hrest⟩ := Slice.at_of_reads h
      have hc : ¬(S.at i = 58 ∨ S.at i = 125) := by
        rw [hat, not_or]
        exact hno c List.mem_cons_self
      have hn : (c :: text).length + n = text.length + n + 1 := by
        rw [List.length_cons]
        omega
      rw [hn, parametersFrom, if_neg hc, ih hrest fun d hd => hno d (List.mem_cons_of_mem c hd),
        List.length_cons]
      congr 1
      push_cast
      omega

/-- A parameter, from its first byte on, and those behind it. -/
theorem parametersFrom_parameter {S : Slice} {i : Int} {text : List UInt8}
    {parameter : List (List UInt8)}
    (h : S.reads i (text ++ (parameter.flatMap (fun text => 58 :: text) ++ [125])) = true)
    (hplain : ∀ p ∈ text :: parameter, (∀ c ∈ p, c ≠ 58 ∧ c ≠ 125) ∧ p.length < 65536)
    (h0 : 0 < i) :
    parametersFrom S (text.length + (parameter.flatMap (fun text => 58 :: text)).length + 1) i i =
      text :: parameter := by
  induction parameter generalizing i text with
  | nil =>
      obtain ⟨htext, hend⟩ := Slice.reads_of_append h
      obtain ⟨hat, -⟩ := Slice.at_of_reads hend
      obtain ⟨hno, hshort⟩ := hplain text List.mem_cons_self
      rw [List.flatMap_nil, List.length_nil, Nat.add_zero, parametersFrom_skip 1 htext hno,
        parametersFrom, if_pos (Or.inr hat), if_neg h0.ne', parametersFrom]
      have hlen : (i + (text.length : Int) - i) % 65536 = text.length := by omega
      rw [hlen, Slice.bytes_of_reads htext]
  | cons p parameter ih =>
      obtain ⟨htext, hend⟩ := Slice.reads_of_append h
      rw [List.flatMap_cons, List.cons_append, List.cons_append] at hend
      obtain ⟨hat, hrest⟩ := Slice.at_of_reads hend
      obtain ⟨hno, hshort⟩ := hplain text List.mem_cons_self
      rw [List.append_assoc] at hrest
      have hn : text.length + ((p :: parameter).flatMap (fun text => 58 :: text)).length + 1 =
          text.length +
            (p.length + (parameter.flatMap (fun text => 58 :: text)).length + 1 + 1) := by
        rw [List.flatMap_cons, List.length_append, List.length_cons]
        omega
      rw [hn, parametersFrom_skip _ htext hno, parametersFrom, if_pos (Or.inl hat), if_neg h0.ne']
      have hlen : (i + (text.length : Int) - i) % 65536 = text.length := by omega
      rw [hlen, Slice.bytes_of_reads htext]
      exact congrArg _ (ih hrest
        (fun q hq => hplain q (List.mem_cons_of_mem text hq)) (by omega))

/-- The parameters of a tag are read as they were written. -/
theorem parametersFrom_tag {S : Slice} {word text : List UInt8} {parameter : List (List UInt8)}
    (h : S.reads 0 (tagText word (text :: parameter)) = true)
    (hword : ∀ c ∈ word, c ≠ 58 ∧ c ≠ 125)
    (hplain : ∀ p ∈ text :: parameter, (∀ c ∈ p, c ≠ 58 ∧ c ≠ 125) ∧ p.length < 65536) :
    parametersFrom S (tagText word (text :: parameter)).length 0 0 = text :: parameter := by
  have hsplit : tagText word (text :: parameter) =
      (123 :: word) ++ (58 :: (text ++ (parameter.flatMap (fun text => 58 :: text) ++ [125]))) := by
    simp [tagText]
  rw [hsplit] at h ⊢
  obtain ⟨hfront, hrest⟩ := Slice.reads_of_append h
  obtain ⟨hat, htext⟩ := Slice.at_of_reads hrest
  have hno : ∀ c ∈ (123 :: word : List UInt8), c ≠ 58 ∧ c ≠ 125 := by
    intro c hc
    rcases List.mem_cons.mp hc with rfl | hc
    · decide
    · exact hword c hc
  have hn : ((123 :: word) ++
        (58 :: (text ++ (parameter.flatMap (fun text => 58 :: text) ++ [125])))).length =
      (123 :: word).length +
        (text.length + (parameter.flatMap (fun text => 58 :: text)).length + 1 + 1) := by
    simp only [List.length_append, List.length_cons, List.length_nil]
    omega
  rw [hn, parametersFrom_skip _ hfront hno, parametersFrom, if_pos (Or.inl hat), if_pos rfl]
  exact parametersFrom_parameter htext hplain (by simp; omega)

/-- A tag of the engine, at any position of a slice. -/
theorem functionAt_tag {registered : FunctionParas → Bool} {S : Slice} {i : Int}
    {word text : List UInt8} {parameter : List (List UInt8)} {function : EngineFunctions}
    (h : S.reads i (tagText word (text :: parameter)) = true)
    (hend : i + (tagText word (text :: parameter)).length ≤ S.length)
    (hword : ∀ c ∈ word, c ≠ 58 ∧ c ≠ 125)
    (hplain : ∀ p ∈ text :: parameter, checkParameterString p = true ∧ p.length < 65536)
    (hfew : (text :: parameter).length ≤ maxFuncParas)
    (hcode : ∀ U : Slice, U.reads 0 (tagText word (text :: parameter)) = true →
      U.length + 1 = (tagText word (text :: parameter)).length → getEngineFunctionCode U = function)
    (hfunction : function = .getVariable ∨ function = .ifFunction) :
    functionAt registered S i =
      .function ⟨function, text :: parameter⟩
        (i + (tagText word (text :: parameter)).length - 1) := by
  generalize htag : tagText word (text :: parameter) = tag at *
  have hno : ∀ p ∈ text :: parameter, ∀ c ∈ p, c ≠ 58 ∧ c ≠ 125 := by
    intro p hp c hc
    have hbyte := parameterByte_plain c (List.all_eq_true.mp (hplain p hp).1 c hc)
    exact ⟨hbyte.1, hbyte.2.2⟩
  -- the tag is its inside and the closing brace
  obtain ⟨inside, hinside⟩ : ∃ inside, tag = inside ++ [125] := ⟨_, htag.symm⟩
  have hclosed : ∀ c ∈ inside, c ≠ 125 := by
    have heq : inside = 123 :: word ++ (text :: parameter).flatMap (fun text => 58 :: text) :=
      List.append_cancel_right (hinside.symm.trans htag.symm)
    intro c hc
    rw [heq] at hc
    rcases List.mem_append.mp hc with hc | hc
    · rcases List.mem_cons.mp hc with rfl | hc
      · decide
      · exact (hword c hc).2
    · obtain ⟨p, hp, hc⟩ := List.mem_flatMap.mp hc
      rcases List.mem_cons.mp hc with rfl | hc
      · decide
      · exact (hno p hp c hc).2
  have hlen : tag.length = inside.length + 1 := by rw [hinside]; simp
  have hopen : S.at i = 123 := by
    rw [← htag] at h
    exact (Slice.at_of_reads h).1
  have hclose : closingBrace S (S.length - i).toNat i = some (i + inside.length) := by
    have hn : (S.length - i).toNat =
        inside.length + ((S.length - i).toNat - inside.length - 1 + 1) := by omega
    rw [hn]
    exact closingBrace_of_reads _ (hinside ▸ h) hclosed
  have hlength : i + (inside.length : Int) - i = inside.length := by omega
  have hU : (S.sub i (inside.length : Int)).reads 0 tag = true := by
    rw [Slice.sub_reads, add_zero]
    exact h
  have hparameter : parametersFrom (S.sub i (inside.length : Int))
      ((S.sub i (inside.length : Int)).length.toNat + 1) 0 0 = text :: parameter := by
    rw [Slice.sub_length, Int.toNat_natCast, ← hlen, ← htag]
    exact parametersFrom_tag (htag.symm ▸ hU) hword fun p hp => ⟨hno p hp, (hplain p hp).2⟩
  have hparse : parseFunction registered (S.sub i (inside.length : Int)) =
      ⟨function, text :: parameter⟩ := by
    have hall : (text :: parameter).all checkParameterString = true :=
      List.all_eq_true.mpr fun p hp => (hplain p hp).1
    unfold parseFunction
    rw [hcode _ hU (by rw [Slice.sub_length]; omega)]
    rcases hfunction with rfl | rfl
    · dsimp only
      rw [hparameter, List.take_of_length_le hfew, hall]
      rfl
    · dsimp only
      rw [hparameter, List.take_of_length_le hfew, hall]
      rfl
  have hknown : function ≠ .unknown := by
    rcases hfunction with rfl | rfl <;> decide
  unfold functionAt
  rw [if_neg (not_not.mpr hopen), hclose]
  dsimp only
  rw [hlength, hparse, if_neg hknown]
  congr 1
  omega

/-! ## The tags of a block -/

/-- The search in a part of a slice is the search in the slice. -/
theorem getNextTagLoop_sub (S : Slice) (start length i : Int) (n : Nat) :
    getNextTagLoop (S.sub start length) n i =
      (getNextTagLoop S n (start + i)).map fun r => (r.1, r.2 - start) := by
  induction n generalizing i with
  | zero => rfl
  | succ n ih =>
      unfold getNextTagLoop
      simp only [Slice.sub_at, Slice.sub_reads, ih, ← add_assoc]
      split
      · split
        · simp only [Option.map_some]
          congr 2
          omega
        · rfl
      · rfl

/-- A round of `find_if_tags_pos`, with positions in the slice. -/
theorem findIfTagsLoop_succ (S : Slice) (rounds : Nat) (offset : Int) (level : Nat)
    (elsePos : Int) :
    findIfTagsLoop S (rounds + 1) offset level elsePos =
      match getNextTagLoop S (S.length - offset).toNat offset with
      | none => none
      | some (.ifTag, pos) => findIfTagsLoop S rounds pos (level + 1) elsePos
      | some (.elseTag, pos) =>
          findIfTagsLoop S rounds pos level (if level = 0 then pos else elsePos)
      | some (.endifTag, pos) =>
          if level = 0 then some ⟨elsePos, pos⟩
          else findIfTagsLoop S rounds pos (level - 1) elsePos := by
  have hback : ∀ pos : Int, offset + (pos - offset) = pos := fun pos => by omega
  rw [findIfTagsLoop, getNextTag, getNextTagLoop_sub, Slice.sub_length, add_zero]
  rcases getNextTagLoop S (S.length - offset).toNat offset with _ | ⟨tag, pos⟩
  · rfl
  · cases tag <;> simp only [Option.map_some, hback]

/-- No tag of a block starts at a position. -/
def Slice.NoTagAt (S : Slice) (i : Int) : Prop := ∀ tag : TagId, S.reads i tag.text = false

theorem Slice.noTagAt_of_ne {S : Slice} {i : Int} (h : S.at i ≠ 123) : S.NoTagAt i := by
  intro tag
  have hopen : (S.at i == 123) = false := beq_eq_false_iff_ne.mpr h
  cases tag <;> exact Bool.and_eq_false_iff.mpr (Or.inl hopen)

/-- A position without a tag is passed. -/
theorem findIfTagsLoop_skip {S : Slice} {i : Int} (hno : S.NoTagAt i) (hi : i < S.length)
    (rounds level : Nat) (elsePos : Int) :
    findIfTagsLoop S rounds i level elsePos = findIfTagsLoop S rounds (i + 1) level elsePos := by
  cases rounds with
  | zero => rfl
  | succ rounds =>
      have hn : (S.length - i).toNat = (S.length - (i + 1)).toNat + 1 := by omega
      have hfind : ifTags.find? (fun tag => S.reads i tag.text) = none :=
        List.find?_eq_none.mpr fun tag _ => by rw [hno tag]; decide
      have hnext : getNextTagLoop S (S.length - i).toNat i =
          getNextTagLoop S (S.length - (i + 1)).toNat (i + 1) := by
        rw [hn, getNextTagLoop, hfind]
        exact ite_self _
      rw [findIfTagsLoop_succ, findIfTagsLoop_succ, hnext]

theorem findIfTagsLoop_bytes {S : Slice} {i : Int} {text : List UInt8}
    (h : S.reads i text = true) (hend : i + text.length ≤ S.length) (hno : ∀ c ∈ text, c ≠ 123)
    (rounds level : Nat) (elsePos : Int) :
    findIfTagsLoop S rounds i level elsePos =
      findIfTagsLoop S rounds (i + text.length) level elsePos := by
  induction text generalizing i with
  | nil => simp
  | cons c text ih =>
      obtain ⟨hat, hrest⟩ := Slice.at_of_reads h
      have hc : S.at i ≠ 123 := hat ▸ hno c List.mem_cons_self
      rw [List.length_cons] at hend ⊢
      rw [findIfTagsLoop_skip (Slice.noTagAt_of_ne hc) (by omega),
        ih hrest (by omega) fun d hd => hno d (List.mem_cons_of_mem c hd)]
      congr 1
      push_cast
      omega

theorem TagId.text_eq (tag : TagId) : tag.text = 123 :: tag.text.tail := by
  cases tag <;> rfl

/-- A tag that stands at a position is the one that is found there. -/
theorem find_tag {S : Slice} {i : Int} {tag : TagId} (h : S.reads i tag.text = true) :
    ifTags.find? (fun tag => S.reads i tag.text) = some tag := by
  have hname := (Slice.at_of_reads (tag.text_eq ▸ h)).2
  cases tag with
  | ifTag => simp [ifTags, h]
  | elseTag =>
      have hif : S.reads i TagId.ifTag.text = false := by
        have h1 : S.at (i + 1) = 101 := (Slice.at_of_reads hname).1
        simp [TagId.text, ascii, h1]
      simp [ifTags, h, hif]
  | endifTag =>
      have h1 : S.at (i + 1) = 101 := (Slice.at_of_reads hname).1
      have h2 : S.at (i + 1 + 1) = 110 := (Slice.at_of_reads (Slice.at_of_reads hname).2).1
      have hif : S.reads i TagId.ifTag.text = false := by
        simp [TagId.text, ascii, h1]
      have helse : S.reads i TagId.elseTag.text = false := by
        simp [TagId.text, ascii, h2]
      simp [ifTags, h, hif, helse]

/-- A tag that stands at a position is the next one. -/
theorem getNextTagLoop_tag {S : Slice} {i : Int} {tag : TagId} (h : S.reads i tag.text = true)
    (n : Nat) : getNextTagLoop S (n + 1) i = some (tag, i + tag.text.length) := by
  have hopen : S.at i = 123 := (Slice.at_of_reads (tag.text_eq ▸ h)).1
  rw [getNextTagLoop, if_pos hopen, find_tag h]

namespace PageTree

/-- The number of the tags of its blocks. -/
def tags : PageTree → Nat
  | done => 0
  | byte _ rest | get _ rest => rest.tags
  | ifEnd _ branch rest => branch.tags + (rest.tags + 1) + 1
  | ifElse _ branch elseBranch rest => branch.tags + (elseBranch.tags + (rest.tags + 1) + 1) + 1

end PageTree

theorem elseTag_length_int : (TagId.elseTag.text.length : Int) = 6 := by decide
theorem endifTag_length_int : (TagId.endifTag.text.length : Int) = 7 := by decide

/-- The inside of an if tag has no brace. -/
theorem Condition.tag_eq (c : Condition) :
    ∃ inside : List UInt8, c.tag = TagId.ifTag.text ++ inside ∧ ∀ d ∈ inside, d ≠ 123 := by
  have hparameter : ∀ (p : ParameterText), ∀ d ∈ p.text, d ≠ 123 := fun p d hd =>
    (parameterByte_plain d (List.all_eq_true.mp p.valid d hd)).2.1
  refine ⟨c.name.text ++ ((c.arguments.map ParameterText.text).flatMap
    (fun text => 58 :: text) ++ [125]), ?_, ?_⟩
  · simp [Condition.tag, Condition.parameter, tagText, TagId.text, ascii]
  · intro d hd
    simp only [List.mem_append, List.mem_flatMap, List.mem_map, List.mem_cons,
      List.not_mem_nil, or_false] at hd
    rcases hd with hd | ⟨_, ⟨p, _, rfl⟩, rfl | hd⟩ | rfl
    · exact hparameter c.name d hd
    · decide
    · exact hparameter p d hd
    · decide

/-- A get tag has one opening brace, and is no tag of a block. -/
theorem VariableName.tag_eq (n : VariableName) :
    ∃ inside : List UInt8, n.tag = 123 :: 103 :: inside ∧ ∀ d ∈ inside, d ≠ 123 := by
  refine ⟨ascii "et:global;\"" ++ (n.name ++ [34, 125]), ?_, ?_⟩
  · simp [VariableName.tag, VariableName.expression, tagText, ascii]
  · intro d hd
    have hword : ∀ d ∈ ascii "et:global;\"", d ≠ 123 := by decide +kernel
    have hquote : ∀ d ∈ ([34, 125] : List UInt8), d ≠ 123 := by decide +kernel
    rcases List.mem_append.mp hd with hd | hd
    · exact hword d hd
    · rcases List.mem_append.mp hd with hd | hd
      · have hvalid := List.all_eq_true.mp n.valid d hd
        rw [Bool.and_eq_true] at hvalid
        exact (parameterByte_plain d hvalid.1).2.1
      · exact hquote d hd

theorem findIfTagsLoop_getTag {S : Slice} {i : Int} {n : VariableName}
    (h : S.reads i n.tag = true) (hend : i + n.tag.length ≤ S.length)
    (rounds level : Nat) (elsePos : Int) :
    findIfTagsLoop S rounds i level elsePos =
      findIfTagsLoop S rounds (i + n.tag.length) level elsePos := by
  obtain ⟨inside, htag, hno⟩ := n.tag_eq
  rw [htag] at h hend ⊢
  obtain ⟨hat, hrest⟩ := Slice.at_of_reads h
  obtain ⟨hg, -⟩ := Slice.at_of_reads hrest
  rw [List.length_cons] at hend ⊢
  have hopen : S.NoTagAt i := by
    intro tag
    cases tag <;> simp [TagId.text, ascii, hg]
  have hinside : ∀ d ∈ 103 :: inside, d ≠ 123 := by
    intro d hd
    rcases List.mem_cons.mp hd with rfl | hd
    · decide
    · exact hno d hd
  rw [findIfTagsLoop_skip hopen (by omega),
    findIfTagsLoop_bytes hrest (by push_cast at hend ⊢; omega) hinside]
  congr 1
  push_cast
  omega

/-- An if tag opens a level. -/
theorem findIfTagsLoop_ifTag {S : Slice} {i : Int} {c : Condition}
    (h : S.reads i c.tag = true) (hend : i + c.tag.length ≤ S.length)
    (rounds level : Nat) (elsePos : Int) :
    findIfTagsLoop S (rounds + 1) i level elsePos =
      findIfTagsLoop S rounds (i + c.tag.length) (level + 1) elsePos := by
  obtain ⟨inside, htag, hno⟩ := c.tag_eq
  rw [htag] at h hend ⊢
  obtain ⟨hif, hinside⟩ := Slice.reads_of_append h
  rw [List.length_append, ifTag_length] at hend ⊢
  have hn : (S.length - i).toNat = (S.length - i).toNat - 1 + 1 := by omega
  rw [findIfTagsLoop_succ, hn, getNextTagLoop_tag hif]
  dsimp only
  rw [findIfTagsLoop_bytes hinside (by rw [ifTag_length]; push_cast at hend ⊢; omega) hno,
    ifTag_length]
  congr 1
  push_cast
  omega

/-- An else tag counts on the level of the block. -/
theorem findIfTagsLoop_elseTag {S : Slice} {i : Int} (h : S.reads i TagId.elseTag.text = true)
    (hi : i < S.length) (rounds level : Nat) (elsePos : Int) :
    findIfTagsLoop S (rounds + 1) i level elsePos =
      findIfTagsLoop S rounds (i + 6) level (if level = 0 then i + 6 else elsePos) := by
  have hn : (S.length - i).toNat = (S.length - i).toNat - 1 + 1 := by omega
  rw [findIfTagsLoop_succ, hn, getNextTagLoop_tag h, elseTag_length]
  rfl

/-- An endif tag closes a level. -/
theorem findIfTagsLoop_endifTag {S : Slice} {i : Int} (h : S.reads i TagId.endifTag.text = true)
    (hi : i < S.length) (rounds level : Nat) (elsePos : Int) :
    findIfTagsLoop S (rounds + 1) i level elsePos =
      if level = 0 then some ⟨elsePos, i + 7⟩
      else findIfTagsLoop S rounds (i + 7) (level - 1) elsePos := by
  have hn : (S.length - i).toNat = (S.length - i).toNat - 1 + 1 := by omega
  rw [findIfTagsLoop_succ, hn, getNextTagLoop_tag h, endifTag_length]
  rfl

namespace PageTree

/-- The blocks of a printed tree are closed: the search goes behind it on the same level. -/
theorem findIfTagsLoop_print {S : Slice} (t : PageTree) {i : Int}
    (h : S.reads i t.print = true) (hend : i + t.print.length ≤ S.length)
    (rounds level : Nat) (elsePos : Int) :
    findIfTagsLoop S (t.tags + rounds) i level elsePos =
      findIfTagsLoop S rounds (i + t.print.length) level elsePos := by
  induction t generalizing i rounds level elsePos with
  | done => simp [tags, print]
  | byte c rest ih =>
      obtain ⟨hat, hrest⟩ := Slice.at_of_reads h
      rw [print, List.length_cons] at hend ⊢
      rw [tags, findIfTagsLoop_skip (Slice.noTagAt_of_ne (hat ▸ c.plain.1)) (by omega),
        ih hrest (by omega)]
      congr 1
      push_cast
      omega
  | get n rest ih =>
      obtain ⟨htag, hrest⟩ := Slice.reads_of_append h
      rw [print, List.length_append] at hend ⊢
      rw [tags, findIfTagsLoop_getTag htag (by omega), ih hrest (by omega)]
      congr 1
      push_cast
      omega
  | ifEnd c branch rest ihbranch ihrest =>
      obtain ⟨htag, h⟩ := Slice.reads_of_append h
      obtain ⟨hbranch, h⟩ := Slice.reads_of_append h
      obtain ⟨hendif, hrest⟩ := Slice.reads_of_append h
      rw [print] at hend ⊢
      rw [endifTag_length_int] at hrest
      simp only [List.length_append, endifTag_length] at hend ⊢
      have hrounds : (ifEnd c branch rest).tags + rounds =
          branch.tags + (rest.tags + rounds + 1) + 1 := by
        rw [tags]
        omega
      rw [hrounds, findIfTagsLoop_ifTag htag (by omega), ihbranch hbranch (by omega),
        findIfTagsLoop_endifTag hendif (by omega), if_neg (by omega), Nat.add_sub_cancel]
      rw [ihrest hrest (by push_cast at hend ⊢; omega)]
      congr 1
      push_cast
      omega
  | ifElse c branch elseBranch rest ihbranch ihelse ihrest =>
      obtain ⟨htag, h⟩ := Slice.reads_of_append h
      obtain ⟨hbranch, h⟩ := Slice.reads_of_append h
      obtain ⟨helseTag, h⟩ := Slice.reads_of_append h
      obtain ⟨helse, h⟩ := Slice.reads_of_append h
      obtain ⟨hendif, hrest⟩ := Slice.reads_of_append h
      rw [print] at hend ⊢
      rw [endifTag_length_int, elseTag_length_int] at hrest
      rw [elseTag_length_int] at hendif helse
      simp only [List.length_append, endifTag_length, elseTag_length] at hend ⊢
      have hrounds : (ifElse c branch elseBranch rest).tags + rounds =
          branch.tags + (elseBranch.tags + (rest.tags + rounds + 1) + 1) + 1 := by
        rw [tags]
        omega
      rw [hrounds, findIfTagsLoop_ifTag htag (by omega), ihbranch hbranch (by omega),
        findIfTagsLoop_elseTag helseTag (by omega), if_neg (by omega)]
      rw [ihelse helse (by push_cast at hend ⊢; omega),
        findIfTagsLoop_endifTag hendif (by push_cast at hend ⊢; omega), if_neg (by omega),
        Nat.add_sub_cancel]
      rw [ihrest hrest (by push_cast at hend ⊢; omega)]
      congr 1
      push_cast
      omega

theorem tags_le (t : PageTree) : t.tags ≤ t.print.length := by
  induction t with
  | done => exact le_refl _
  | byte c rest ih =>
      rw [tags, print, List.length_cons]
      omega
  | get n rest ih =>
      rw [tags, print, List.length_append]
      omega
  | ifEnd c branch rest ihbranch ihrest =>
      simp only [tags, print, List.length_append, endifTag_length]
      omega
  | ifElse c branch elseBranch rest ihbranch ihelse ihrest =>
      simp only [tags, print, List.length_append, endifTag_length, elseTag_length]
      omega

/-- Behind the tag of a block without an else tag, its end is found. -/
theorem findIfTagsPos_ifEnd {S : Slice} {branch : PageTree}
    (h : S.reads 0 (branch.print ++ TagId.endifTag.text) = true)
    (hend : branch.print.length + 7 ≤ S.length) :
    findIfTagsPos S = some ⟨-1, branch.print.length + 7⟩ := by
  obtain ⟨hbranch, hendif⟩ := Slice.reads_of_append h
  have hle := branch.tags_le
  have hrounds : S.length.toNat + 1 = branch.tags + (S.length.toNat - branch.tags + 1) := by omega
  rw [findIfTagsPos, hrounds, branch.findIfTagsLoop_print hbranch (by omega),
    findIfTagsLoop_endifTag hendif (by omega), if_pos rfl, zero_add]

/-- Behind the tag of a block with an else tag, both tags are found. -/
theorem findIfTagsPos_ifElse {S : Slice} {branch elseBranch : PageTree}
    (h : S.reads 0 (branch.print ++ (TagId.elseTag.text ++
      (elseBranch.print ++ TagId.endifTag.text))) = true)
    (hend : branch.print.length + 6 + elseBranch.print.length + 7 ≤ S.length) :
    findIfTagsPos S = some
      ⟨branch.print.length + 6, branch.print.length + 6 + elseBranch.print.length + 7⟩ := by
  obtain ⟨hbranch, h⟩ := Slice.reads_of_append h
  obtain ⟨helseTag, h⟩ := Slice.reads_of_append h
  rw [elseTag_length_int] at h
  obtain ⟨helse, hendif⟩ := Slice.reads_of_append h
  have hle := branch.tags_le
  have hle' := elseBranch.tags_le
  have hrounds : S.length.toNat + 1 =
      branch.tags + (elseBranch.tags + (S.length.toNat - branch.tags - elseBranch.tags - 1 + 1) +
        1) := by omega
  rw [findIfTagsPos, hrounds, branch.findIfTagsLoop_print hbranch (by omega),
    findIfTagsLoop_elseTag helseTag (by omega), if_pos rfl]
  rw [elseBranch.findIfTagsLoop_print helse (by omega), findIfTagsLoop_endifTag hendif (by omega),
    if_pos rfl, zero_add]

end PageTree

/-! ## The functions of a printed tree -/

theorem getEngineFunctionCode_get {U : Slice} {parameter : List (List UInt8)}
    (h : U.reads 0 (tagText (ascii "get") parameter) = true) (hne : parameter ≠ [])
    (hlen : 3 ≤ U.length) : getEngineFunctionCode U = .getVariable := by
  obtain ⟨p, rest, rfl⟩ := List.exists_cons_of_ne_nil hne
  have hreads : U.reads 0 (ascii "\x7bget:" ++
      (p ++ (rest.flatMap (fun text => 58 :: text) ++ [125]))) = true := by
    simpa [tagText, ascii] using h
  have hfront := (Slice.reads_of_append hreads).1
  simp [ascii] at hfront
  simp [getEngineFunctionCode, funcCmp, funcCmpOpts, funcCmpExtendet, ascii, hfront, hlen]

theorem getEngineFunctionCode_if {U : Slice} {parameter : List (List UInt8)}
    (h : U.reads 0 (tagText (ascii "if") parameter) = true) (hne : parameter ≠ []) :
    getEngineFunctionCode U = .ifFunction := by
  obtain ⟨p, rest, rfl⟩ := List.exists_cons_of_ne_nil hne
  have hreads : U.reads 0 (ascii "\x7bif:" ++
      (p ++ (rest.flatMap (fun text => 58 :: text) ++ [125]))) = true := by
    simpa [tagText, ascii] using h
  have hfront := (Slice.reads_of_append hreads).1
  simp [ascii] at hfront
  simp [getEngineFunctionCode, funcCmp, funcCmpOpts, funcCmpExtendet, ascii, hfront]

theorem ParameterText.plain (p : ParameterText) :
    checkParameterString p.text = true ∧ p.text.length < 65536 := ⟨p.valid, p.short⟩

/-- The expression of a variable passes the check of the parameters. -/
theorem VariableName.expression_valid (n : VariableName) :
    checkParameterString n.expression = true ∧ n.expression.length < 65536 := by
  constructor
  · have hword : (ascii "global;\"").all parameterByte = true := by decide +kernel
    have hname : n.name.all parameterByte = true := by
      refine List.all_eq_true.mpr fun c hc => ?_
      have hvalid := List.all_eq_true.mp n.valid c hc
      rw [Bool.and_eq_true] at hvalid
      exact hvalid.1
    rw [checkParameterString, VariableName.expression, List.all_append, List.all_append, hword,
      hname]
    decide
  · have hword : (ascii "global;\"").length = 8 := by decide
    have hshort := n.short
    rw [VariableName.expression, List.length_append, List.length_append, hword,
      List.length_singleton]
    omega

/-- A get tag is found. -/
theorem VariableName.functionAt_eq (n : VariableName) {registered : FunctionParas → Bool}
    {S : Slice} {i : Int} (h : S.reads i n.tag = true) (hend : i + n.tag.length ≤ S.length) :
    functionAt registered S i = .function n.func (i + n.tag.length - 1) := by
  refine functionAt_tag h hend (by decide +kernel) ?_ (show 1 ≤ 20 by decide) ?_ (Or.inl rfl)
  · intro p hp
    rw [List.mem_singleton.mp hp]
    exact n.expression_valid
  · intro U hU hlen
    have hlong : 6 ≤ (tagText (ascii "get") [n.expression]).length := by
      simp [tagText, ascii, VariableName.expression]
    exact getEngineFunctionCode_get hU (List.cons_ne_nil _ _) (by omega)

theorem Condition.parameter_valid (c : Condition) :
    ∀ p ∈ c.parameter, checkParameterString p = true ∧ p.length < 65536 := by
  intro p hp
  rcases List.mem_cons.mp hp with rfl | hp
  · exact c.name.plain
  · obtain ⟨p, -, rfl⟩ := List.mem_map.mp hp
    exact p.plain

/-- An if tag is found. -/
theorem Condition.functionAt_eq (c : Condition) {registered : FunctionParas → Bool}
    {S : Slice} {i : Int} (h : S.reads i c.tag = true) (hend : i + c.tag.length ≤ S.length) :
    functionAt registered S i = .function c.func (i + c.tag.length - 1) := by
  refine functionAt_tag h hend (by decide +kernel) c.parameter_valid ?_ ?_ (Or.inr rfl)
  · have hfew := c.few
    rw [List.length_cons, List.length_map]
    omega
  · exact fun U hU _ => getEngineFunctionCode_if hU (List.cons_ne_nil _ _)

/-- The inside of a tag has no brace. -/
theorem tagText_eq {word : List UInt8} {parameter : List (List UInt8)}
    (hword : ∀ d ∈ word, d ≠ 123) (hvalid : ∀ p ∈ parameter, checkParameterString p = true) :
    ∃ inside : List UInt8,
      tagText word parameter = 123 :: (inside ++ [125]) ∧ ∀ d ∈ inside, d ≠ 123 := by
  refine ⟨word ++ parameter.flatMap (fun text => 58 :: text), rfl, fun d hd => ?_⟩
  rcases List.mem_append.mp hd with hd | hd
  · exact hword d hd
  · obtain ⟨p, hp, hd⟩ := List.mem_flatMap.mp hd
    rcases List.mem_cons.mp hd with rfl | hd
    · decide
    · exact (parameterByte_plain d (List.all_eq_true.mp (hvalid p hp) d hd)).2.1

/-- A tree that starts with a tag starts with its braces. -/
theorem PageTree.print_of_startsWithTag {t : PageTree} (h : t.startsWithTag = true) :
    ∃ inside more : List UInt8,
      t.print = 123 :: (inside ++ 125 :: more) ∧ ∀ d ∈ inside, d ≠ 123 := by
  have hcondition : ∀ (c : Condition) (more : List UInt8), ∃ inside more' : List UInt8,
      c.tag ++ more = 123 :: (inside ++ 125 :: more') ∧ ∀ d ∈ inside, d ≠ 123 := by
    intro c more
    obtain ⟨inside, htag, hno⟩ := @tagText_eq (ascii "if") c.parameter (by decide +kernel)
      fun p hp => (c.parameter_valid p hp).1
    exact ⟨inside, more, by rw [Condition.tag, htag]; simp, hno⟩
  cases t with
  | done => cases h
  | byte c rest => cases h
  | get n rest =>
      obtain ⟨inside, htag, hno⟩ := @tagText_eq (ascii "get") [n.expression] (by decide +kernel)
        fun p hp => List.mem_singleton.mp hp ▸ n.expression_valid.1
      exact ⟨inside, rest.print, by rw [print, VariableName.tag, htag]; simp, hno⟩
  | ifEnd c branch rest => exact hcondition c _
  | ifElse c branch elseBranch rest => exact hcondition c _

/-! ## The header of a page -/

/-- Whether a text stands at the front of another one can be read off, if it ends before the next
brace. -/
theorem Slice.reads_eq_isPrefixOf {S : Slice} {i : Int} {text more l : List UInt8}
    (h : S.reads i (text ++ 123 :: more) = true) (hl : 123 ∉ l) :
    S.reads i l = l.isPrefixOf text := by
  induction l generalizing i text with
  | nil => simp
  | cons d l ih =>
      rw [List.mem_cons, not_or] at hl
      cases text with
      | nil =>
          obtain ⟨hat, -⟩ := Slice.at_of_reads h
          rw [Slice.reads_cons, hat, beq_eq_false_iff_ne.mpr hl.1]
          rfl
      | cons c text =>
          obtain ⟨hat, hrest⟩ := Slice.at_of_reads h
          rw [Slice.reads_cons, hat, ih hrest hl.2, List.isPrefixOf, Bool.beq_comm]

theorem Slice.isPrefixOf_of_reads {S : Slice} {i : Int} {l text : List UInt8}
    (hl : S.reads i l = true) (htext : S.reads i text = true) (hle : l.length ≤ text.length) :
    l.isPrefixOf text = true := by
  induction l generalizing i text with
  | nil => simp
  | cons d l ih =>
      cases text with
      | nil => exact absurd hle (by simp)
      | cons c text =>
          obtain ⟨hd, hl⟩ := Slice.at_of_reads hl
          obtain ⟨hc, htext⟩ := Slice.at_of_reads htext
          rw [List.isPrefixOf, ← hd, hc, beq_self_eq_true, Bool.true_and]
          exact ih hl htext (Nat.le_of_succ_le_succ hle)

namespace PageTree

/-- The tree without bytes of text at its front. -/
def dropBytes : Nat → PageTree → PageTree
  | k + 1, byte _ rest => rest.dropBytes k
  | _, t => t

theorem depth_dropBytes (k : Nat) (t : PageTree) : (t.dropBytes k).depth = t.depth := by
  fun_induction dropBytes k t with
  | case1 k c rest ih => rw [ih, depth]
  | case2 k t => rfl

/-- What stands at the front of a tree and has no brace is text of the tree. -/
theorem dropBytes_of_prefix {l : List UInt8} (hl : 123 ∉ l) {t : PageTree}
    (h : l.isPrefixOf t.print = true) (m : Meaning) :
    t.print = l ++ (t.dropBytes l.length).print ∧
      t.texts m = l ++ (t.dropBytes l.length).texts m := by
  induction l generalizing t with
  | nil =>
      rw [List.length_nil, dropBytes.eq_def]
      exact ⟨rfl, rfl⟩
  | cons d l ih =>
      rw [List.mem_cons, not_or] at hl
      cases htag : t.startsWithTag with
      | true =>
          obtain ⟨inside, more, hprint, -⟩ := print_of_startsWithTag htag
          rw [hprint, List.isPrefixOf, Bool.and_eq_true, beq_iff_eq] at h
          exact absurd h.1.symm hl.1
      | false =>
          cases t with
          | done => cases h
          | byte c rest =>
              rw [print, List.isPrefixOf, Bool.and_eq_true, beq_iff_eq] at h
              obtain ⟨hprint, htexts⟩ := ih hl.2 h.2
              rw [List.length_cons, dropBytes, print, hprint, texts, render, h.1]
              exact ⟨rfl, congrArg _ htexts⟩
          | get n rest => cases htag
          | ifEnd c branch rest => cases htag
          | ifElse c branch elseBranch rest => cases htag

end PageTree

end CWebUI.Template
