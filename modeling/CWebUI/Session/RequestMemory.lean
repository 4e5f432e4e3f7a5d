import CWebUI.Session.PathIndices

set_option autoImplicit false

/-! # The variables of a request and the elements of arrays

The variables of a request that a template makes (`getRenderVariable`), and the elements of arrays,
are all in one memory. No variable is both: an element is made for its array, and a variable of a
request is made for the request.
-/

namespace CWebUI.Session

/-- A step that at most makes new variables, some of them variables of a request. -/
structure AddsVariables (i : Nat) (st st' : Variables) : Prop where
  memory : st.memory <+: st'.memory
  rendered : ∀ id ∈ (st'.requests i).renderVars,
    id ∈ (st.requests i).renderVars ∨ (st.memory.length ≤ id ∧ id < st'.memory.length)

theorem AddsVariables.refl (i : Nat) (st : Variables) : AddsVariables i st st :=
  ⟨List.prefix_rfl, fun _ h => Or.inl h⟩

theorem AddsVariables.trans {i : Nat} {st st' st'' : Variables} (h : AddsVariables i st st')
    (h' : AddsVariables i st' st'') : AddsVariables i st st'' := by
  refine ⟨h.memory.trans h'.memory, fun id hid => ?_⟩
  have hle := h.memory.length_le
  have hle' := h'.memory.length_le
  rcases h'.rendered id hid with hid | ⟨hge, hlt⟩
  · rcases h.rendered id hid with hid | ⟨hge, hlt⟩
    · exact Or.inl hid
    · exact Or.inr ⟨hge, by omega⟩
  · exact Or.inr ⟨by omega, hlt⟩

section

variable (i : Nat) (st : Variables)

theorem getRenderVariable_adds (name : List UInt8) :
    AddsVariables i st (getRenderVariable st i name).1 := by
  refine ⟨(getRenderVariable_extends st i name).memory, fun id hid => ?_⟩
  unfold getRenderVariable at hid ⊢
  rcases newVariable_cases st.memory (st.requests i).renderVars name with ⟨id', -, heq⟩ | heq
  · rw [heq] at hid
    dsimp only at hid
    rw [Function.update_self] at hid
    exact Or.inl hid
  · rw [heq] at hid ⊢
    dsimp only at hid ⊢
    rw [Function.update_self] at hid
    rcases List.mem_append.mp hid with hid | hid
    · exact Or.inl hid
    · rw [List.mem_singleton.mp hid]
      exact Or.inr ⟨le_refl _, by rw [List.length_append, List.length_singleton]; omega⟩

end

section

variable {i : Nat} {st st' : Variables} {elements : List Nat}

theorem AddsVariables.elementsOf (h : AddsVariables i st st') {array : Nat}
    (helements : elementsOf st.memory array = some elements) :
    elementsOf st'.memory array = some elements := by
  obtain ⟨more, hmore⟩ := h.memory
  rw [← hmore, Session.elementsOf, varAt_append more (lt_of_elementsOf helements)]
  exact helements

end

/-! ## The states of a request -/

/-- One operation on the memory: a new variable in any store, an element of an array, or a value, of
which `setWSVariableArray` is an empty array. -/
inductive MakesStep : List WsVar → List WsVar → Prop where
  | named (memory : List WsVar) (vars : List Nat) (name : List UInt8) :
      MakesStep memory (newVariable memory vars name).1
  | element (memory : List WsVar) (var : Nat) (name : Option (List UInt8))
      (noCheckNameExists : Bool) :
      MakesStep memory (addWSVariableArray memory var name noCheckNameExists).1
  | deleted (memory : List WsVar) (var : Nat) (name : List UInt8) :
      MakesStep memory (delWSVariableArray memory var name)
  | array (memory : List WsVar) (var : Nat) : MakesStep memory (setValue memory var (.array []))
  | value (memory : List WsVar) (var : Nat) {value : WsValue}
      (hvalue : ∀ elements, value ≠ .array elements) : MakesStep memory (setValue memory var value)

/-- The states of the variables while a request is served: it starts without variables of its own,
on a memory that others have made, and it shares the memory with them. -/
inductive Served (i : Nat) : Variables → Prop where
  | start {st : Variables} : Made st.memory → (st.requests i).renderVars = [] → Served i st
  | render {st : Variables} (name : List UInt8) :
      Served i st → Served i (getRenderVariable st i name).1
  | memory {st st' : Variables} : Served i st → MakesStep st.memory st'.memory →
      (st'.requests i).renderVars = (st.requests i).renderVars → Served i st'

/-- Every element was one of the same array before, or is a new variable. -/
structure ElementsFrom (memory memory' : List WsVar) : Prop where
  length : memory.length ≤ memory'.length
  elements : ∀ {array elements'}, elementsOf memory' array = some elements' → ∀ e ∈ elements',
    (∃ elements, elementsOf memory array = some elements ∧ e ∈ elements) ∨
      (memory.length ≤ e ∧ e < memory'.length)

section

variable {memory : List WsVar}

theorem ElementsFrom.refl (memory : List WsVar) : ElementsFrom memory memory :=
  ⟨le_refl _, fun helements _ he => Or.inl ⟨_, helements, he⟩⟩

theorem elementsFrom_push (memory : List WsVar) (name : List UInt8) :
    ElementsFrom memory (memory ++ [{ name := name }]) := by
  refine ⟨by simp, fun helements e he => Or.inl ⟨_, ?_, he⟩⟩
  rw [← elementsOf_push name]
  exact helements

theorem elementsFrom_newVariable (memory : List WsVar) (vars : List Nat) (name : List UInt8) :
    ElementsFrom memory (newVariable memory vars name).1 := by
  rcases newVariable_cases memory vars name with ⟨id, -, heq⟩ | heq
  · rw [heq]
    exact ElementsFrom.refl memory
  · rw [heq]
    exact elementsFrom_push memory name

/-- A value for a variable, as an array only with elements that it had, or that are new. -/
theorem ElementsFrom.setValue {memory' : List WsVar} (h : ElementsFrom memory memory') (var : Nat)
    {value : WsValue}
    (hvalue : ∀ elements', value = .array elements' → ∀ e ∈ elements',
      (∃ elements, elementsOf memory var = some elements ∧ e ∈ elements) ∨
        (memory.length ≤ e ∧ e < memory'.length)) :
    ElementsFrom memory (setValue memory' var value) := by
  refine ⟨?_, fun {array elements'} helements e he => ?_⟩
  · rw [length_setValue]
    exact h.length
  · rw [length_setValue]
    by_cases harray : array = var
    · subst harray
      exact hvalue elements' (value_of_elementsOf helements) e he
    · rw [elementsOf_setValue_ne value harray] at helements
      exact h.elements helements e he

theorem elementsFrom_newElement {array : Nat} {elements : List Nat}
    (helements : elementsOf memory array = some elements) (name : Option (List UInt8))
    (noCheckNameExists : Bool) :
    ElementsFrom memory (newElement memory array name noCheckNameExists).1 := by
  have hpush : ∀ name : List UInt8, ElementsFrom memory
      (Session.setValue (memory ++ [{ name := name }]) array
        (.array (elements ++ [memory.length]))) := by
    refine fun name => (elementsFrom_push memory name).setValue array fun elements' heq e he => ?_
    cases heq
    rcases List.mem_append.mp he with he | he
    · exact Or.inl ⟨elements, helements, he⟩
    · rw [List.mem_singleton.mp he, List.length_append, List.length_singleton]
      exact Or.inr ⟨le_refl _, Nat.lt_succ_self _⟩
  have hnamed : ∀ name : List UInt8, ElementsFrom memory
      (Session.setValue (newVariable memory elements name).1 array
        (.array (newVariable memory elements name).2.1)) := by
    intro name
    rcases newVariable_cases memory elements name with ⟨id, -, heq⟩ | heq
    · rw [heq]
      refine (ElementsFrom.refl memory).setValue array fun elements' heq e he => ?_
      cases heq
      exact Or.inl ⟨elements, helements, he⟩
    · rw [heq]
      exact hpush name
  unfold newElement newVariableFlags
  rw [helements]
  cases name with
  | none => exact hpush []
  | some name =>
      cases noCheckNameExists with
      | true => exact hpush name
      | false => exact hnamed name

theorem MakesStep.elementsFrom {memory' : List WsVar} (h : MakesStep memory memory') :
    ElementsFrom memory memory' := by
  cases h with
  | named vars name => exact elementsFrom_newVariable memory vars name
  | element var name noCheckNameExists =>
      unfold addWSVariableArray
      split
      · next elements hvalue =>
        exact elementsFrom_newElement (by rw [elementsOf, hvalue]) name noCheckNameExists
      · next target _ =>
        by_cases harray : (elementsOf memory target).isSome
        · obtain ⟨elements, helements⟩ := Option.isSome_iff_exists.mp harray
          rw [if_pos harray]
          exact elementsFrom_newElement helements name noCheckNameExists
        · rw [if_neg harray]
          exact ElementsFrom.refl memory
      · exact ElementsFrom.refl memory
  | deleted var name =>
      unfold delWSVariableArray
      cases helements : elementsOf memory var with
      | none => exact ElementsFrom.refl memory
      | some elements =>
          refine (ElementsFrom.refl memory).setValue var fun elements' heq e he => ?_
          cases heq
          refine Or.inl ⟨elements, helements, ?_⟩
          unfold delVariable at he
          split at he
          · exact he
          · exact List.mem_of_mem_erase he
  | array var =>
      refine (ElementsFrom.refl memory).setValue var fun elements' heq e he => ?_
      cases heq
      cases he
  | value var hvalue =>
      exact (ElementsFrom.refl memory).setValue var fun elements' heq =>
        absurd heq (hvalue elements')

end

theorem Served.rendered {i : Nat} {st : Variables} (h : Served i st) :
    ∀ id ∈ (st.requests i).renderVars, id < st.memory.length := by
  induction h with
  | start _ hnone => simp [hnone]
  | @render st name _ ih =>
      intro id hid
      have hadds := getRenderVariable_adds i st name
      rcases hadds.rendered id hid with hid | ⟨-, hlt⟩
      · exact lt_of_lt_of_le (ih id hid) hadds.memory.length_le
      · exact hlt
  | memory _ hstep hvars ih =>
      rw [hvars]
      exact fun id hid => lt_of_lt_of_le (ih id hid) hstep.elementsFrom.length

end CWebUI.Session
