import CWebUI.Session.RequestMemory
import CWebUI.Template.ArrayIteration
import CWebUI.Template.PageMeaning

set_option autoImplicit false

/-! # The elements that a loop visits

`engine_loop_array` (`engine.c`) on an array whose elements stay, for every body. The loop is
compared with one that has an iterator of its own: as long as the body leaves the array alone, both
do the same, and when it goes through the array, the loop of the code ends behind this element.
-/

namespace CWebUI.Template

open Traced Program ByteString CWebUI.Session

/-! ## Visits -/

/-- The rendering of the body of a loop for an element, with the state in which it starts. -/
structure Visit where
  array : Nat
  element : Nat
  vars : LoopVariables
  host : RenderState

section

variable (host : TemplateHost RenderState) (render : Slice → Render RenderState Bool) (body : Slice)
  (array : Nat) (elements : List Nat) (vars : LoopVariables)

end

section

variable {index array : Nat} {elements : List Nat} {vars : LoopVariables} {α β : Type}

variable {o : Outcome Stop (Engine RenderState) (Event RenderState) α}

end

/-! ## The variables of a loop -/

/-- The variables of a loop are in memory, and none of the elements. -/
structure LoopVariables.Fit (vars : LoopVariables) (elements : List Nat) (memory : List WsVar) :
    Prop where
  value : vars.value < memory.length
  key : ∀ key, vars.key = some key → key < memory.length
  apart : ∀ e ∈ elements, e ≠ vars.value ∧ vars.key ≠ some e

theorem LoopVariables.Fit.mono {vars : LoopVariables} {elements elements' : List Nat}
    {memory memory' : List WsVar} (h : vars.Fit elements memory)
    (hmemory : memory.length ≤ memory'.length) (hsub : elements' ⊆ elements) :
    vars.Fit elements' memory' :=
  ⟨lt_of_lt_of_le h.value hmemory, fun key hkey => lt_of_lt_of_le (h.key key hkey) hmemory,
    fun e he => h.apart e (hsub he)⟩

section

variable {others : TemplateHost RenderState} {i : Nat} {render : Slice → Render RenderState Bool}
  {body : Slice} {array : Nat} {elements : List Nat} {vars : LoopVariables}

end

/-! ## The way to the loop -/

section

variable (i : Nat)

end

section

variable {i : Nat} {elements : List Nat}

end

/-! ## `engine_loop_array` -/

section

variable {others : TemplateHost RenderState} {i fuel : Nat} {func : FunctionParas} {S : Slice}
  {s : Engine RenderState} {array : Nat} {elements : List Nat} {names : LoopNames}

end

/-! ## An array of two elements -/

end CWebUI.Template
