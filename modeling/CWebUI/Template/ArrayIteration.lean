import CWebUI.Session.Integrity
import CWebUI.Template.Recursion
import CWebUI.Template.RunRules
import CWebUI.Template.VariableHost

set_option autoImplicit false

/-! # What a run does to the iterator of an array

As long as nothing else is assigned to an array, its elements stay. Its iterator stays where it is
until someone goes through the array; then it is at the end. This is followed through every tag and
every page, nested loops over the same array among them.
-/

namespace CWebUI.Template

open Traced Program ByteString CWebUI.Session

/-! ## Arrays and their iterators -/

/-- An array that is still one afterwards was the same before; its iterator goes as the relation
says. The memory does not get smaller. -/
structure ArrayKept (array : Nat) (iter : Option Nat → Option Nat → Prop)
    (st st' : RenderState) : Prop where
  memory : st.vars.memory.length ≤ st'.vars.memory.length
  elements : array < st.vars.memory.length → ∀ elements,
    elementsOf st'.vars.memory array = some elements →
      elementsOf st.vars.memory array = some elements ∧ iter (st.curIter array) (st'.curIter array)

/-- These arrays were gone through: the iterator of one of them is at the end, that of another one
is where it was. -/
structure Moves (array : Nat) (traversed : List Nat) (before after : Option Nat) : Prop where
  stopped : array ∈ traversed → after = none
  unmoved : array ∉ traversed → after = before

theorem ArrayKept.mono {array : Nat} {iter iter' : Option Nat → Option Nat → Prop}
    {st st' : RenderState} (h : ArrayKept array iter st st')
    (himp : ∀ before after, iter before after → iter' before after) :
    ArrayKept array iter' st st' := by
  refine ⟨h.memory, fun hlen elements helements => ?_⟩
  obtain ⟨hbefore, hiter⟩ := h.elements hlen elements helements
  exact ⟨hbefore, himp _ _ hiter⟩

theorem ArrayKept.trans {array : Nat} {iter iter' iter'' : Option Nat → Option Nat → Prop}
    {st st' st'' : RenderState} (h : ArrayKept array iter st st')
    (h' : ArrayKept array iter' st' st'')
    (hcomp : ∀ a b c, iter a b → iter' b c → iter'' a c) : ArrayKept array iter'' st st'' := by
  refine ⟨le_trans h.memory h'.memory, fun hlen elements helements => ?_⟩
  obtain ⟨hmid, hiter'⟩ := h'.elements (lt_of_lt_of_le hlen h.memory) elements helements
  obtain ⟨hbefore, hiter⟩ := h.elements hlen elements hmid
  exact ⟨hbefore, hcomp _ _ _ hiter hiter'⟩

theorem Moves.refl (array : Nat) (iter : Option Nat) : Moves array [] iter iter :=
  ⟨fun h => absurd h List.not_mem_nil, fun _ => rfl⟩

theorem Moves.append {array : Nat} {traversed traversed' : List Nat} {a b c : Option Nat}
    (h : Moves array traversed a b) (h' : Moves array traversed' b c) :
    Moves array (traversed ++ traversed') a c := by
  refine ⟨fun hmem => ?_, fun hmem => ?_⟩
  · by_cases hlast : array ∈ traversed'
    · exact h'.stopped hlast
    · rw [h'.unmoved hlast]
      exact h.stopped ((List.mem_append.mp hmem).resolve_right hlast)
  · rw [List.mem_append, not_or] at hmem
    rw [h'.unmoved hmem.2, h.unmoved hmem.1]

theorem ArrayKept.append {array : Nat} {traversed traversed' : List Nat}
    {st st' st'' : RenderState} (h : ArrayKept array (Moves array traversed) st st')
    (h' : ArrayKept array (Moves array traversed') st' st'') :
    ArrayKept array (Moves array (traversed ++ traversed')) st st'' :=
  h.trans h' fun _ _ _ => Moves.append

theorem ArrayKept.refl (array : Nat) (st : RenderState) :
    ArrayKept array (Moves array []) st st :=
  ⟨le_refl _, fun _ _ helements => ⟨helements, Moves.refl array _⟩⟩

theorem ArrayKept.stopIterators (array : Nat) (st : RenderState) (arrays : List Nat) :
    ArrayKept array (Moves array arrays) st (st.stopIterators arrays) := by
  refine ⟨le_refl _, fun _ elements helements => ⟨helements, fun hmem => ?_, fun hmem => ?_⟩⟩
  · exact if_pos hmem
  · exact if_neg hmem

/-- No array comes from an assignment of another value. -/
theorem elementsOf_setValue {memory : List WsVar} {id array : Nat} {value : WsValue}
    {elements : List Nat} (hvalue : ∀ elements, value ≠ .array elements)
    (h : elementsOf (setValue memory id value) array = some elements) :
    elementsOf memory array = some elements := by
  by_cases heq : array = id
  · subst heq
    unfold elementsOf varAt setValue at h
    rw [List.getD_eq_getElem?_getD, List.getElem?_modify] at h
    unfold elementsOf varAt
    rw [List.getD_eq_getElem?_getD]
    cases hvar : memory[array]? with
    | none =>
        rw [hvar] at h
        exact h
    | some v =>
        rw [hvar] at h
        cases hv : value with
        | array elements => exact absurd hv (hvalue elements)
        | empty | string _ | int _ | ulong _ | long _ | ref _ | customData => simp [hv] at h
  · unfold elementsOf at h ⊢
    rwa [(varAt_setValue memory id value array).2 heq] at h

theorem ArrayKept.setValue {array : Nat} {st st' : RenderState} (id : Nat) (value : WsValue)
    (hvalue : ∀ elements, value ≠ .array elements)
    (hmemory : st'.vars.memory = Session.setValue st.vars.memory id value)
    (hiter : st'.curIter = st.curIter) : ArrayKept array (Moves array []) st st' := by
  refine ⟨?_, fun _ elements helements => ⟨?_, ?_⟩⟩
  · rw [hmemory, length_setValue]
  · rw [hmemory] at helements
    exact elementsOf_setValue hvalue helements
  · rw [hiter]
    exact Moves.refl array _

theorem ArrayKept.assign {array : Nat} {st : RenderState} (id : Nat) (value : WsValue) :
    ArrayKept array (Moves array []) st
      { st with vars := st.vars.assign id (assignable value) } := by
  cases value with
  | string text =>
      exact ArrayKept.setValue id (.string text) (fun _ h => nomatch h) rfl rfl
  | int n => exact ArrayKept.setValue id (.int n) (fun _ h => nomatch h) rfl rfl
  | empty | ulong _ | long _ | array _ | ref _ | customData => exact ArrayKept.refl array st

/-! ## The operations of the variables -/

section

variable (array i : Nat)

end

/-! ## Runs -/

/-- The arrays that a run goes through. -/
def traversals {σ : Type} (events : List (Event σ)) : List Nat :=
  events.filterMap fun
    | .traverse array => some array
    | _ => none

theorem traversals_append {σ : Type} (a b : List (Event σ)) :
    traversals (a ++ b) = traversals a ++ traversals b := List.filterMap_append

/-- A loop that belongs to a page from an index on. -/
def Event.VisitsFrom {σ : Type} (index : Nat) : Event σ → Prop
  | .visit index' _ _ _ _ => index ≤ index'
  | _ => True

/-- What a run keeps: the index, an array with its iterator. The loops inside it belong to pages
`depth` levels further in, or more. -/
structure RunKept (array depth : Nat) (iter : List Nat → Option Nat → Option Nat → Prop)
    (s : Engine RenderState) (events : List (Event RenderState)) (s' : Engine RenderState) :
    Prop where
  index : s'.engineIndex = s.engineIndex
  visits : ∀ e ∈ events, e.VisitsFrom (s.engineIndex + depth)
  kept : ArrayKept array (iter (traversals events)) s.host s'.host

/-- What happens inside a page. -/
abbrev InsideKept (array : Nat) := RunKept array 0 (Moves array)

/-- A whole page. -/
abbrev PageKept (array : Nat) := RunKept array 1 (Moves array)

section

variable {array : Nat}

theorem RunKept.comp {depth : Nat} {iter iter' iter'' : List Nat → Option Nat → Option Nat → Prop}
    {s s' s'' : Engine RenderState} {events events' : List (Event RenderState)}
    (h : RunKept array depth iter s events s') (h' : RunKept array depth iter' s' events' s'')
    (hcomp : ∀ t t' a b c, iter t a b → iter' t' b c → iter'' (t ++ t') a c) :
    RunKept array depth iter'' s (events ++ events') s'' := by
  refine ⟨h'.index.trans h.index, fun e he => ?_, ?_⟩
  · rcases List.mem_append.mp he with he | he
    · exact h.visits e he
    · rw [← h.index]
      exact h'.visits e he
  · rw [traversals_append]
    exact h.kept.trans h'.kept (hcomp _ _)

theorem PageKept.inside {s s' : Engine RenderState} {events : List (Event RenderState)}
    (h : PageKept array s events s') : InsideKept array s events s' := by
  refine ⟨h.index, fun e he => ?_, h.kept⟩
  have hvisits := h.visits e he
  cases e with
  | visit index _ _ _ _ => exact Nat.le_of_succ_le hvisits
  | _ => trivial

section

variable {host : TemplateHost RenderState} {render : Slice → Render RenderState Bool} {i : Nat}
  {others : TemplateHost RenderState}

end

/-! ## Pages -/

end

end CWebUI.Template
