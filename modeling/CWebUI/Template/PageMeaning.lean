import CWebUI.Template.Recursion
import CWebUI.Template.Rendering

set_option autoImplicit false

/-! # Pages and their meaning

The page that a tree is printed as, rendered with the variables of the server: `processHTML` sends
what the tree means exactly when no tag stands directly behind a block, and neither the page nor a
branch starts with the header of a page.
-/

namespace CWebUI.Template

open ByteString Traced CWebUI.Session

/-! ## Get tags of global text variables -/

theorem VariableName.takeWhile_name (n : VariableName) (more : List UInt8) :
    (n.name ++ 34 :: more).takeWhile (· ≠ 34) = n.name := by
  have hall : ∀ c ∈ n.name, decide (c ≠ 34) = true := by
    intro c hc
    have hvalid := List.all_eq_true.mp n.valid c hc
    rw [Bool.and_eq_true] at hvalid
    simpa using hvalid.2
  rw [List.takeWhile_append_of_pos hall, List.takeWhile_cons_of_neg (by decide), List.append_nil]

theorem VariableName.nameSpace_eq (n : VariableName) :
    nameSpaceOf n.expression = (.global, 34 :: (n.name ++ [34])) := by
  have hexpression : n.expression = ascii "global;" ++ 34 :: (n.name ++ [34]) := by
    simp [VariableName.expression, ascii]
  have hdrop : (ascii "global;" ++ 34 :: (n.name ++ [34])).drop 7 = 34 :: (n.name ++ [34]) := rfl
  rw [nameSpaceOf, hexpression, if_pos (List.prefix_append _ _), hdrop]

/-- A global variable that is a text. -/
theorem globalString_eq_some {st : Variables} {name text : List UInt8}
    (h : globalString st name = some text) :
    ∃ id, getGlobalVariable st name = (st, id) ∧ (varAt st.memory id).value = .string text := by
  obtain ⟨id, hsearch, htext⟩ := Option.bind_eq_some_iff.mp h
  refine ⟨id, ?_, ?_⟩
  · rw [getGlobalVariable, newVariable, hsearch]
  · cases hvalue : (varAt st.memory id).value with
    | string text' =>
        rw [hvalue] at htext
        rw [Option.some.inj htext]
    | empty | int _ | ulong _ | long _ | array _ | ref _ | customData =>
        rw [hvalue] at htext
        cases htext

/-- The expression of a global text variable is a reference to it, and nothing is gone through. -/
theorem RenderState.parse_global {st : RenderState} {i : Nat} {n : VariableName} {id : Nat}
    {text : List UInt8} (hget : getGlobalVariable st.vars n.name = (st.vars, id))
    (hvalue : (varAt st.vars.memory id).value = .string text) :
    st.parse i n.expression =
      { value := { name := ascii "tmp", value := .ref id }, state := st } := by
  have hname : ((34 :: (n.name ++ [34]) : List UInt8).drop 1).takeWhile (· ≠ 34) = n.name :=
    n.takeWhile_name []
  have hhead : (34 :: (n.name ++ [34]) : List UInt8).head? = some 34 := rfl
  have hlookup : lookupName st.vars i .global n.name = (st.vars, ascii "tmp", some id) := by
    rw [lookupName, hget]
  have hderef : derefVar st.vars.memory id = id := by rw [derefVar, hvalue]
  have helements : elementsOf st.vars.memory id = none := by rw [elementsOf, hvalue]
  have hparse : parseVariable st.vars i n.expression =
      (st.vars, { name := ascii "tmp", value := .ref id }) := by
    unfold parseVariable
    rw [n.nameSpace_eq]
    dsimp only
    rw [if_pos hhead, if_neg (by decide), hname, hlookup]
    dsimp only
    rw [hderef, helements]
  have hiterates : parseIterates st.vars i n.expression = [] := by
    unfold parseIterates
    rw [n.nameSpace_eq]
    dsimp only
    rw [if_pos ⟨hhead, by decide⟩, hname, hlookup]
    dsimp only
    rw [hderef, helements]
  unfold RenderState.parse
  rw [hparse, hiterates]
  rfl

/-- `engine_getVariable` on a global text variable sends the text. -/
theorem engineGetVariable_globalString {st : RenderState} (i : Nat) {n : VariableName}
    {text : List UInt8} (h : globalString st.vars n.name = some text) :
    engineGetVariable i n.func true st = { value := (), state := st, sent := text } := by
  obtain ⟨id, hget, hvalue⟩ := globalString_eq_some h
  have hchunk : writeChunkVariable st.vars.memory (st.vars.memory.length + 1) id =
      { bytes := text } := by
    rw [writeChunkVariable, hvalue]
  show sendTemporary true (st.parse i n.expression) = _
  rw [RenderState.parse_global hget hvalue, sendTemporary, printTemporary]
  dsimp only
  rw [if_pos rfl, hchunk]
  rfl

/-- The host of a request knows what a tree means, if its variables and conditions are as they
should. -/
theorem PageTree.answered_variableHost {i : Nat} {others : TemplateHost RenderState} {m : Meaning}
    {st : RenderState} {t : PageTree}
    (hnames : ∀ n ∈ t.names, globalString st.vars n.name = some (m.value n))
    (hconditions : ∀ c ∈ t.conditions,
      others.callCondition c.func st = { value := m.condition c, state := st }) :
    t.Answered (variableHost i others) m st := by
  induction t with
  | done => trivial
  | byte c rest ih => exact ih hnames hconditions
  | get n rest ih =>
      refine ⟨engineGetVariable_globalString i (hnames n List.mem_cons_self), ?_⟩
      exact ih (fun n' hn' => hnames n' (List.mem_cons_of_mem n hn')) hconditions
  | ifEnd c branch rest ihbranch ihrest =>
      refine ⟨hconditions c List.mem_cons_self, ?_, ?_⟩
      · exact ihbranch (fun n hn => hnames n (List.mem_append_left _ hn)) fun d hd =>
          hconditions d (List.mem_cons_of_mem c (List.mem_append_left _ hd))
      · exact ihrest (fun n hn => hnames n (List.mem_append_right _ hn)) fun d hd =>
          hconditions d (List.mem_cons_of_mem c (List.mem_append_right _ hd))
  | ifElse c branch elseBranch rest ihbranch ihelse ihrest =>
      refine ⟨hconditions c List.mem_cons_self, ?_, ?_, ?_⟩
      · exact ihbranch
          (fun n hn => hnames n (List.mem_append_left _ (List.mem_append_left _ hn))) fun d hd =>
          hconditions d
            (List.mem_cons_of_mem c (List.mem_append_left _ (List.mem_append_left _ hd)))
      · exact ihelse
          (fun n hn => hnames n (List.mem_append_left _ (List.mem_append_right _ hn))) fun d hd =>
          hconditions d
            (List.mem_cons_of_mem c (List.mem_append_left _ (List.mem_append_right _ hd)))
      · exact ihrest (fun n hn => hnames n (List.mem_append_right _ hn)) fun d hd =>
          hconditions d (List.mem_cons_of_mem c (List.mem_append_right _ hd))

/-! ## The page of a tree -/

/-- The text of a tree has no braces. -/
theorem PageTree.texts_plain (m : Meaning) (t : PageTree) :
    ∀ c ∈ t.texts m, c ≠ 123 ∧ c ≠ 125 := by
  induction t with
  | done => exact fun c hc => nomatch hc
  | byte d rest ih =>
      intro c hc
      rcases List.mem_cons.mp hc with rfl | hc
      · exact d.plain
      · exact ih c hc
  | get n rest ih => exact ih
  | ifEnd d branch rest ihbranch ihrest =>
      intro c hc
      rcases List.mem_append.mp hc with hc | hc
      · split at hc
        · exact ihbranch c hc
        · exact nomatch hc
      · exact ihrest c hc
  | ifElse d branch elseBranch rest ihbranch ihelse ihrest =>
      intro c hc
      rcases List.mem_append.mp hc with hc | hc
      · split at hc
        · exact ihbranch c hc
        · exact ihelse c hc
      · exact ihrest c hc

/-- A run of `processHTML` sends what a tree means: the text and nothing else of the page, and the
values where they belong. It ends in the state in which it began. -/
structure Renders {σ : Type} (m : Meaning) (t : PageTree) (s : Engine σ)
    (o : Outcome Stop (Engine σ) (Event σ) Bool) : Prop where
  result : o.result = .ok false
  state : o.state = s
  sent : sentBytes o.events = t.render m
  texts : pageBytes o.events = t.texts m
  lengths : ∀ X, .chunk X ∈ o.events → 0 ≤ X.length

theorem Shows.renders_iff {σ : Type} {m : Meaning} {t : PageTree} {s : Engine σ}
    {o : Outcome Stop (Engine σ) (Event σ) Bool} {clear : Bool}
    (h : Shows o false clear (t.render m) (t.texts m) s) : Renders m t s o ↔ clear = true := by
  cases h with
  | @broken X hclear hX hbroken =>
      rw [hclear]
      refine iff_of_false (fun hr => ?_) (by decide)
      have hmem : ∀ c ∈ X.bytes, c ∈ t.texts m := by
        intro c hc
        rw [← hr.texts]
        exact List.mem_flatMap.mpr ⟨_, hX, hc⟩
      rcases hbroken with hlen | hopen | hclose
      · have hnonneg := hr.lengths X hX
        omega
      · exact (t.texts_plain m 123 (hmem 123 hopen)).1 rfl
      · exact (t.texts_plain m 125 (hmem 125 hclose)).2 rfl
  | sent hresult hstate hsends =>
      cases clear with
      | true => exact iff_of_true ⟨hresult, hstate, hsends.1, hsends.2.1, hsends.2.2⟩ rfl
      | false =>
          refine iff_of_false (fun hr => ?_) (by decide)
          have hlt : (pageBytes o.events).length < (t.texts m).length := hsends
          rw [hr.texts] at hlt
          exact lt_irrefl _ hlt

/-- The page of a tree is rendered as it means exactly when no tag stands directly behind a block in
what is rendered, and neither the page nor a branch that is rendered starts with the header of a
page. -/
theorem processHTML_renders_iff (i : Nat) (others : TemplateHost RenderState) (m : Meaning)
    (t : PageTree) (p : Page) (fuel : Nat) (s : Engine RenderState)
    (hsize : p.size = t.print.length) (hreads : p.whole.reads 0 t.print = true) (hs : s.Plain)
    (hdepth : s.engineIndex + t.depth < maxEngineRecurtion) (hfuel : maxEngineRecurtion ≤ fuel)
    (hnames : ∀ n ∈ t.names, globalString s.host.vars n.name = some (m.value n))
    (hconditions : ∀ c ∈ t.conditions,
      others.callCondition c.func s.host = { value := m.condition c, state := s.host }) :
    Renders m t s ((processHTML (variableHost i others) fuel p.whole).run s) ↔
      p.whole.reads 0 templateV1Header = false ∧ t.clear m = true := by
  obtain ⟨fuel, rfl⟩ := Nat.exists_eq_succ_of_ne_zero
    (Nat.ne_of_gt (Nat.lt_of_lt_of_le (Nat.zero_lt_of_lt hdepth) hfuel))
  have hdepth' : t.depth ≤ fuel := by omega
  have hshows := PageTree.processHTML_shows (fun u _ => u.tailShows) hreads
    (congrArg Nat.cast hsize) hdepth' hs
    (PageTree.answered_variableHost (i := i) hnames hconditions)
  rw [hshows.renders_iff, Bool.and_eq_true, Bool.not_eq_true']

/-! ## Examples -/

/-- A host that knows the conditions `is_true` and `is_false`, and nothing else. -/
def constantHost : TemplateHost RenderState where
  platformFunctionExists _ := false
  platformFunction _ st := { value := (), state := st }
  callCondition func st := {
    value :=
      if func.parameter.head? = some (ascii "is_true") then .conditionTrue
      else if func.parameter.head? = some (ascii "is_false") then .conditionFalse
      else .conditionError
    state := st }
  getFile _ st := { value := .notFound, state := st }
  getVariable _ _ st := { value := (), state := st }
  setVariable _ st := { value := (), state := st }
  loopArray _ st := { value := none, state := st }
  loopNames _ st := { value := none, state := st }
  arrayFirst _ st := { value := none, state := st }
  loopVariables _ st := { value := ⟨0, none⟩, state := st }
  bindElement _ _ st := { value := (), state := st }
  arrayNext _ st := { value := none, state := st }

/-- The condition `is_true`. -/
def isTrue : Condition := { name := ⟨ascii "is_true", by decide, by decide⟩ }

/-- The variable `x`. -/
def variableX : VariableName := ⟨ascii "x", by decide, by decide⟩

/-- `x` is `"1"`. -/
def oneVariable : RenderState where
  vars := {
    memory := [{ name := ascii "x", value := .string (ascii "1") }]
    sessions := []
    globals := [0]
    requests := fun _ => {} }
  curIter := fun _ => none

/-- What this means. -/
def oneMeaning : Meaning := ⟨fun _ => ascii "1", fun _ => true⟩

/-- A text behind the block of a page. -/
def textBehindBlock : PageTree :=
  .ifElse isTrue (.byte ⟨97, by decide⟩ .done) (.byte ⟨98, by decide⟩ .done)
    (.byte ⟨32, by decide⟩ (.get variableX .done))

/-- A tag directly behind the block of a page. -/
def tagBehindBlock : PageTree :=
  .ifEnd isTrue (.byte ⟨97, by decide⟩ .done) (.get variableX .done)

theorem processHTML_renders_iff_text :
    Renders oneMeaning textBehindBlock { host := oneVariable }
      ((processHTML (variableHost 0 constantHost) 20 (Page.ofBytes textBehindBlock.print).whole).run
        { host := oneVariable }) :=
  (processHTML_renders_iff 0 constantHost oneMeaning textBehindBlock
    (Page.ofBytes textBehindBlock.print) 20 { host := oneVariable } rfl (by decide +kernel)
    ⟨rfl, rfl⟩ (by decide) (le_refl _)
    (fun n hn => by rw [List.mem_singleton.mp hn]; decide)
    (fun c hc => by rw [List.mem_singleton.mp hc]; rfl)).mpr ⟨by decide +kernel, by decide +kernel⟩

/-- The page of a tree is not always rendered as it means: a tag directly behind a block is sent as
it is. -/
theorem processHTML_misses_tag :
    ¬∀ (i : Nat) (others : TemplateHost RenderState) (m : Meaning) (t : PageTree) (p : Page)
      (fuel : Nat) (s : Engine RenderState), p.size = t.print.length →
      p.whole.reads 0 t.print = true → s.Plain →
      s.engineIndex + t.depth < maxEngineRecurtion → maxEngineRecurtion ≤ fuel →
      (∀ n ∈ t.names, globalString s.host.vars n.name = some (m.value n)) →
      (∀ c ∈ t.conditions,
        others.callCondition c.func s.host = { value := m.condition c, state := s.host }) →
      Renders m t s ((processHTML (variableHost i others) fuel p.whole).run s) := by
  intro hall
  have hrenders := hall 0 constantHost oneMeaning tagBehindBlock
    (Page.ofBytes tagBehindBlock.print) 20 { host := oneVariable } rfl (by decide +kernel)
    ⟨rfl, rfl⟩ (by decide) (le_refl _)
    (fun n hn => by rw [List.mem_singleton.mp hn]; decide)
    (fun c hc => by rw [List.mem_singleton.mp hc]; rfl)
  have hsent : sentBytes ((processHTML (variableHost 0 constantHost) 20
      (Page.ofBytes tagBehindBlock.print).whole).run { host := oneVariable }).events =
      ascii "a" ++ variableX.tag := by decide +kernel
  rw [hrenders.sent] at hsent
  exact absurd hsent (by decide +kernel)

end CWebUI.Template
