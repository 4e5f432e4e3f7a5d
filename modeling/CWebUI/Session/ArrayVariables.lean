import CWebUI.Session.Integrity

set_option autoImplicit false

/-! # Elements of array variables by number

`addWSVariableArray`, `addWSVariableArrayIndex` and `getWSVariableArrayIndex` (`variable.c`, with
`newVariable` in `variable_store.c`). An array is a store of named variables, and its elements are
counted in the order in which they came. An element that is missing is added under the text of its
number. Every walk sets the iterator of the list to its start, so the walks do not disturb each
other here. A loop that does not end has no result.
-/

namespace CWebUI.Session

open ByteString CWebUI.Http

/-! ## The model -/

/-- `addVariable` of a new variable. -/
def pushVariable (memory : List WsVar) (vars : List Nat) (name : List UInt8) :
    List WsVar × List Nat × Nat :=
  (memory ++ [{ name := name }], vars ++ [memory.length], memory.length)

/-- `newVariable` with the flag `NO_CHECK_NAME_EXISTS`, for a name that may be null. -/
def newVariableFlags (memory : List WsVar) (vars : List Nat) (name : Option (List UInt8))
    (noCheckNameExists : Bool) : List WsVar × List Nat × Nat :=
  match name with
  | some name =>
      if noCheckNameExists then pushVariable memory vars name else newVariable memory vars name
  | none => pushVariable memory vars []

/-- `newVariable` in the store of an array. -/
def newElement (memory : List WsVar) (array : Nat) (name : Option (List UInt8))
    (noCheckNameExists : Bool) : List WsVar × Nat :=
  let (memory, elements, id) :=
    newVariableFlags memory ((elementsOf memory array).getD []) name noCheckNameExists
  (setValue memory array (.array elements), id)

/-- `addWSVariableArray` -/
def addWSVariableArray (memory : List WsVar) (var : Nat) (name : Option (List UInt8))
    (noCheckNameExists : Bool) : List WsVar × Option Nat :=
  match (varAt memory var).value with
  | .array _ =>
      let (memory, id) := newElement memory var name noCheckNameExists
      (memory, some id)
  | .ref target =>
      if (elementsOf memory target).isSome then
        let (memory, id) := newElement memory target name noCheckNameExists
        (memory, some id)
      else (memory, none)
  | _ => (memory, none)

/-- The walk to an index: the element, and how far the counter has come. -/
def walkToIndex : List Nat → UInt32 → UInt32 → Option Nat × UInt32
  | [], i, _ => (none, i)
  | tmp :: elements, i, index =>
      if i = index then (some tmp, i) else walkToIndex elements (i + 1) index

/-- `getWSVariableArrayIndex` -/
def getWSVariableArrayIndex (memory : List WsVar) (var : Nat) (index : UInt32) : Option Nat :=
  match elementsOf memory var with
  | none => none
  | some elements => (walkToIndex elements 0 index).1

/-- The name of an element that is added by its number: `%d`, in ten bytes. -/
def indexName (i : UInt32) : List UInt8 := (ascii (toString i.toInt32.toInt)).take 9

/-- The loop of `addWSVariableArrayIndex` that adds the missing elements. -/
def addIndexLoop (array : Nat) (index : UInt32) :
    Nat → List WsVar → UInt32 → Option Nat → Option (List WsVar × Option Nat)
  | 0, _, _, _ => none
  | fuel + 1, memory, i, tmp =>
      if i ≤ index then
        let (memory, id) := newElement memory array (some (indexName i)) false
        addIndexLoop array index fuel memory (i + 1) (some id)
      else some (memory, tmp)

/-- `addWSVariableArrayIndex` -/
def addWSVariableArrayIndex (fuel : Nat) (memory : List WsVar) (var : Nat) (index : UInt32) :
    Option (List WsVar × Option Nat) :=
  match elementsOf memory var with
  | none => some (memory, none)
  | some elements =>
      match walkToIndex elements 0 index with
      | (some tmp, _) => some (memory, some tmp)
      | (none, i) => addIndexLoop var index fuel memory i none

/-! ## The walk -/

theorem walkToIndex_spec (elements : List Nat) {i index : UInt32} (hi : i ≤ index) :
    (walkToIndex elements i index).1 = elements[index.toNat - i.toNat]? ∧
      (elements.length ≤ index.toNat - i.toNat →
        (walkToIndex elements i index).2 = i + UInt32.ofNat elements.length) := by
  induction elements generalizing i with
  | nil => exact ⟨rfl, fun _ => (UInt32.add_zero i).symm⟩
  | cons tmp elements ih =>
      rw [UInt32.le_iff_toNat_le] at hi
      have hindex := index.toNat_lt
      by_cases heq : i = index
      · subst heq
        rw [walkToIndex, if_pos rfl, Nat.sub_self]
        exact ⟨rfl, fun hlength => absurd hlength (Nat.not_succ_le_zero _)⟩
      · have hne : i.toNat ≠ index.toNat := fun hsame => heq (UInt32.toNat_inj.mp hsame)
        have hnext : (i + 1).toNat = i.toNat + 1 := by
          rw [UInt32.toNat_add, UInt32.toNat_one]
          omega
        have hsub : index.toNat - i.toNat = (index.toNat - (i + 1).toNat) + 1 := by omega
        obtain ⟨hfound, hcount⟩ := ih (i := i + 1) (by rw [UInt32.le_iff_toNat_le]; omega)
        rw [walkToIndex, if_neg heq, hsub, List.getElem?_cons_succ, List.length_cons]
        refine ⟨hfound, fun hlength => ?_⟩
        rw [hcount (Nat.le_of_succ_le_succ hlength), UInt32.ofNat_add, UInt32.add_assoc,
          UInt32.add_comm 1]
        rfl

/-- The element of an index. -/
theorem getWSVariableArrayIndex_eq {memory : List WsVar} {array : Nat} {elements : List Nat}
    (h : elementsOf memory array = some elements) (index : UInt32) :
    getWSVariableArrayIndex memory array index = elements[index.toNat]? := by
  unfold getWSVariableArrayIndex
  rw [h]
  exact (walkToIndex_spec elements (UInt32.zero_le (a := index))).1

/-! ## One new element -/

/-- An array variable and its elements in memory. -/
structure ArrayIn (memory : List WsVar) (array : Nat) (elements : List Nat) : Prop where
  elements_eq : elementsOf memory array = some elements
  allocated : ∀ id ∈ elements, id < memory.length
  array_lt : array < memory.length
  apart : array ∉ elements

/-- The names of the elements of an array. -/
def namesOf (memory : List WsVar) (elements : List Nat) : List (List UInt8) :=
  elements.map fun id => (varAt memory id).name

/-- The variables in memory stay as they are, but for the array itself. -/
structure OthersKept (memory memory' : List WsVar) (array : Nat) : Prop where
  length_le : memory.length ≤ memory'.length
  varAt_eq : ∀ id < memory.length, id ≠ array → varAt memory' id = varAt memory id

theorem OthersKept.refl (memory : List WsVar) (array : Nat) : OthersKept memory memory array :=
  ⟨Nat.le_refl _, fun _ _ _ => rfl⟩

theorem OthersKept.trans {memory memory' memory'' : List WsVar} {array : Nat}
    (h : OthersKept memory memory' array) (h' : OthersKept memory' memory'' array) :
    OthersKept memory memory'' array := by
  refine ⟨Nat.le_trans h.length_le h'.length_le, fun id hid hne => ?_⟩
  exact (h'.varAt_eq id (Nat.lt_of_lt_of_le hid h.length_le) hne).trans (h.varAt_eq id hid hne)

/-- The elements of an array behind an assignment to it. -/
theorem elementsOf_setValue {memory : List WsVar} {array : Nat} (h : array < memory.length)
    (elements : List Nat) :
    elementsOf (setValue memory array (.array elements)) array = some elements := by
  unfold elementsOf varAt setValue
  rw [List.getD_eq_getElem?_getD, List.getElem?_modify_eq, List.getElem?_eq_getElem h]
  rfl

section

variable {memory : List WsVar} {array : Nat} {elements : List Nat}

/-- What a new element does to an array: it is the last one then. -/
structure Appended (memory memory' : List WsVar) (array : Nat) (elements : List Nat) (id : Nat)
    (name : List UInt8) : Prop where
  arrayIn : ArrayIn memory' array (elements ++ [id])
  names : namesOf memory' (elements ++ [id]) = namesOf memory elements ++ [name]
  others : OthersKept memory memory' array

theorem pushVariable_appended (h : ArrayIn memory array elements) (name : List UInt8) :
    Appended memory
      (setValue (memory ++ [{ name := name }]) array (.array (elements ++ [memory.length])))
      array elements memory.length name := by
  have hothers : OthersKept memory
      (setValue (memory ++ [{ name := name }]) array (.array (elements ++ [memory.length])))
      array := by
    refine ⟨?_, fun id hid hne => ?_⟩
    · rw [length_setValue, List.length_append]
      exact Nat.le_add_right _ _
    · rw [(varAt_setValue _ array _ id).2 hne, varAt_append _ hid]
  have hlength : (memory ++ [({ name := name } : WsVar)]).length = memory.length + 1 := by
    rw [List.length_append, List.length_singleton]
  refine ⟨⟨?_, fun id hid => ?_, ?_, fun hmem => ?_⟩, ?_, hothers⟩
  · exact elementsOf_setValue (by rw [hlength]; exact Nat.lt_succ_of_lt h.array_lt) _
  · rw [length_setValue, hlength]
    rcases List.mem_append.mp hid with hid | hid
    · exact Nat.lt_succ_of_lt (h.allocated id hid)
    · exact Nat.lt_succ_of_le (Nat.le_of_eq (List.mem_singleton.mp hid))
  · rw [length_setValue, hlength]
    exact Nat.lt_succ_of_lt h.array_lt
  · rcases List.mem_append.mp hmem with hmem | hmem
    · exact h.apart hmem
    · exact absurd (List.mem_singleton.mp hmem) (Nat.ne_of_lt h.array_lt)
  · have hnew : (varAt (setValue (memory ++ [{ name := name }]) array
        (.array (elements ++ [memory.length]))) memory.length).name = name := by
      rw [(varAt_setValue _ array _ _).1, varAt_append_self]
    unfold namesOf
    rw [List.map_append, List.map_singleton, hnew]
    congr 1
    refine List.map_congr_left fun id hid => ?_
    rw [hothers.varAt_eq id (h.allocated id hid) fun heq => h.apart (heq ▸ hid)]

/-- An assignment of the value that is there. -/
theorem setValue_self {id : Nat} {value : WsValue} (hvalue : (varAt memory id).value = value) :
    setValue memory id value = memory := by
  unfold varAt at hvalue
  rw [List.getD_eq_getElem?_getD] at hvalue
  unfold setValue
  refine List.ext_getElem? fun x => ?_
  rw [List.getElem?_modify]
  by_cases hx : id = x
  · subst hx
    cases hget : memory[id]? with
    | none => rfl
    | some v =>
        rw [hget] at hvalue
        rw [← hvalue]
        simp
  · simp [hx]

theorem elementsOf_value (h : elementsOf memory array = some elements) :
    (varAt memory array).value = .array elements := by
  unfold elementsOf at h
  split at h
  · rename_i hvalue
    rw [hvalue, Option.some.inj h]
  · cases h

theorem searchVariable_none_iff (name : List UInt8) :
    searchVariable memory elements name = none ↔ name ∉ namesOf memory elements := by
  unfold searchVariable namesOf
  rw [List.find?_eq_none, List.mem_map]
  constructor
  · rintro hall ⟨id, hid, hname⟩
    exact hall id hid (beq_iff_eq.mpr hname)
  · intro hnone id hid hname
    exact hnone ⟨id, hid, beq_iff_eq.mp hname⟩

/-- `newVariable` in an array: a name that is there is found, any other one is appended. -/
theorem newElement_spec (h : ArrayIn memory array elements) (name : List UInt8) :
    ∃ memory' id, newElement memory array (some name) false = (memory', id) ∧
      ((name ∉ namesOf memory elements ∧ Appended memory memory' array elements id name) ∨
        (name ∈ namesOf memory elements ∧ memory' = memory)) := by
  unfold newElement newVariableFlags newVariable
  rw [h.elements_eq]
  dsimp only [Option.getD_some]
  rw [if_neg Bool.false_ne_true]
  cases hsearch : searchVariable memory elements name with
  | none =>
      exact ⟨_, _, rfl, Or.inl ⟨(searchVariable_none_iff name).mp hsearch,
        pushVariable_appended h name⟩⟩
  | some id =>
      refine ⟨_, _, rfl, Or.inr ⟨?_, setValue_self (elementsOf_value h.elements_eq)⟩⟩
      by_contra hnew
      rw [(searchVariable_none_iff name).mpr hnew] at hsearch
      cases hsearch

/-! ## The loop -/

/-- The names of the elements that are missing. -/
def missingNames (i : UInt32) : Nat → List (List UInt8)
  | 0 => []
  | n + 1 => indexName i :: missingNames (i + 1) n

/-- The names are new to an array, and no two of them are the same. -/
def NamesNew (names old : List (List UInt8)) : Prop :=
  names.Nodup ∧ ∀ name ∈ names, name ∉ old

theorem namesNew_cons (name : List UInt8) (names old : List (List UInt8)) :
    NamesNew (name :: names) old ↔ name ∉ old ∧ NamesNew names (old ++ [name]) := by
  unfold NamesNew
  rw [List.nodup_cons, List.forall_mem_cons]
  simp only [List.mem_append, List.mem_singleton, not_or]
  constructor
  · rintro ⟨⟨hname, hnodup⟩, hold, hnames⟩
    exact ⟨hold, hnodup, fun n hn => ⟨hnames n hn, fun heq => hname (heq ▸ hn)⟩⟩
  · rintro ⟨hold, hnodup, hnames⟩
    exact ⟨⟨fun hmem => (hnames name hmem).2 rfl, hnodup⟩, hold, fun n hn => (hnames n hn).1⟩

/-- What the loop leaves: at most one element more for every number, and one for each exactly if
all the names are new. -/
structure AddedUpTo (memory memory' : List WsVar) (array : Nat) (elements : List Nat) (n : Nat)
    (names : List (List UInt8)) (tmp tmp' : Option Nat) : Prop where
  others : OthersKept memory memory' array
  added : ∃ more, ArrayIn memory' array (elements ++ more) ∧ more.length ≤ n ∧
    (more.length = n ↔ NamesNew names (namesOf memory elements)) ∧
    (more.length = n → tmp' = more.getLast?.or tmp)

/-- The loop ends below the last number, whatever the names are. -/
theorem addIndexLoop_spec {index : UInt32} (hindex : index.toNat + 1 < 2 ^ 32) (n : Nat)
    {memory : List WsVar} {elements : List Nat} (h : ArrayIn memory array elements)
    {i : UInt32} (hi : i.toNat + n = index.toNat + 1) (tmp : Option Nat) :
    ∃ memory' tmp', addIndexLoop array index (n + 1) memory i tmp = some (memory', tmp') ∧
      AddedUpTo memory memory' array elements n (missingNames i n) tmp tmp' := by
  induction n generalizing memory elements i tmp with
  | zero =>
      refine ⟨memory, tmp, ?_, OthersKept.refl memory array, [], ?_, Nat.le_refl _, ?_, ?_⟩
      · rw [addIndexLoop, if_neg]
        rw [UInt32.le_iff_toNat_le]
        omega
      · rw [List.append_nil]
        exact h
      · exact iff_of_true rfl ⟨List.nodup_nil, fun _ hmem => absurd hmem List.not_mem_nil⟩
      · exact fun _ => rfl
  | succ n ih =>
      have hle : i ≤ index := by
        rw [UInt32.le_iff_toNat_le]
        omega
      have hnext : (i + 1).toNat + n = index.toNat + 1 := by
        rw [UInt32.toNat_add, UInt32.toNat_one]
        omega
      obtain ⟨memory₁, id, hnew, hcases⟩ := newElement_spec h (indexName i)
      rw [addIndexLoop, if_pos hle, hnew, missingNames]
      rcases hcases with ⟨hfresh, happended⟩ | ⟨hfound, rfl⟩
      · obtain ⟨memory', tmp', hrun, hothers, more, harray, hmore, hiff, hlast⟩ :=
          ih happended.arrayIn hnext (some id)
        refine ⟨memory', tmp', hrun, happended.others.trans hothers, id :: more, ?_, ?_, ?_, ?_⟩
        · rw [List.append_cons]
          exact harray
        · exact Nat.succ_le_succ hmore
        · rw [List.length_cons, Nat.succ_inj, hiff, happended.names, namesNew_cons]
          exact ⟨fun hnames => ⟨hfresh, hnames⟩, And.right⟩
        · intro hlength
          rw [hlast (Nat.succ.inj hlength), List.getLast?_cons]
          cases more.getLast? <;> rfl
      · obtain ⟨memory', tmp', hrun, hothers, more, harray, hmore, hiff, hlast⟩ :=
          ih h hnext (some id)
        refine ⟨memory', tmp', hrun, hothers, more, harray, Nat.le_succ_of_le hmore, ?_, ?_⟩
        · refine iff_of_false (fun heq => ?_) fun hnames => ?_
          · omega
          · exact ((namesNew_cons _ _ _).mp hnames).1 hfound
        · intro hlength
          omega

/-- The loop has no end, if every number is up to the index. -/
theorem addIndexLoop_none {index : UInt32} (hindex : index.toNat + 1 = 2 ^ 32) (fuel : Nat)
    (memory : List WsVar) (i : UInt32) (tmp : Option Nat) :
    addIndexLoop array index fuel memory i tmp = none := by
  induction fuel generalizing memory i tmp with
  | zero => rfl
  | succ fuel ih =>
      have hle : i ≤ index := by
        have hi := i.toNat_lt
        rw [UInt32.le_iff_toNat_le]
        omega
      rw [addIndexLoop, if_pos hle]
      exact ih _ _ _

/-! ## Additions by number -/

/-- What the addition of an element by its number is to do: it ends, the array has the element, what
was there stays in place, and the number leads to the element that was returned. -/
def AddsIndex (memory : List WsVar) (array : Nat) (elements : List Nat) (index : UInt32) : Prop :=
  ∃ fuel memory' element elements',
    addWSVariableArrayIndex fuel memory array index = some (memory', some element) ∧
      elementsOf memory' array = some elements' ∧ index.toNat < elements'.length ∧
      elements <+: elements' ∧ (∀ id ∈ elements, varAt memory' id = varAt memory id) ∧
      getWSVariableArrayIndex memory' array index = some element

/-- An element that is there. -/
theorem addsIndex_present (h : ArrayIn memory array elements) {index : UInt32}
    (hindex : index.toNat < elements.length) : AddsIndex memory array elements index := by
  have hget := getWSVariableArrayIndex_eq h.elements_eq index
  rw [List.getElem?_eq_getElem hindex] at hget
  refine ⟨0, memory, _, elements, ?_, h.elements_eq, hindex, List.prefix_rfl, fun _ _ => rfl, hget⟩
  unfold getWSVariableArrayIndex at hget
  unfold addWSVariableArrayIndex
  rw [h.elements_eq] at hget ⊢
  dsimp only at hget ⊢
  rcases hwalk : walkToIndex elements 0 index with ⟨found, i⟩
  rw [hwalk] at hget
  dsimp only at hget
  rw [hget]

/-- An element that is missing: the loop starts behind the last one. -/
theorem addWSVariableArrayIndex_missing (h : ArrayIn memory array elements) {index : UInt32}
    (hindex : elements.length ≤ index.toNat) (fuel : Nat) :
    addWSVariableArrayIndex fuel memory array index =
      addIndexLoop array index fuel memory (UInt32.ofNat elements.length) none := by
  obtain ⟨hfound, hcount⟩ := walkToIndex_spec elements (UInt32.zero_le (a := index))
  rcases hwalk : walkToIndex elements 0 index with ⟨found, i⟩
  rw [hwalk] at hfound hcount
  have hi : i = UInt32.ofNat elements.length := (hcount hindex).trans (UInt32.zero_add _)
  have hnone : found = none := hfound.trans (List.getElem?_eq_none hindex)
  unfold addWSVariableArrayIndex
  rw [h.elements_eq]
  dsimp only
  rw [hwalk, hnone, hi]

/-- More fuel does not change a result. -/
theorem addIndexLoop_mono {index : UInt32} {fuel fuel' : Nat} (hfuel : fuel ≤ fuel')
    {memory : List WsVar} {i : UInt32} {tmp : Option Nat} {r : List WsVar × Option Nat}
    (h : addIndexLoop array index fuel memory i tmp = some r) :
    addIndexLoop array index fuel' memory i tmp = some r := by
  induction fuel generalizing fuel' memory i tmp with
  | zero => cases h
  | succ fuel ih =>
      obtain ⟨fuel', rfl⟩ := Nat.exists_eq_succ_of_ne_zero (Nat.ne_zero_of_lt hfuel)
      rw [addIndexLoop] at h ⊢
      split_ifs at h ⊢
      · exact ih (Nat.le_of_succ_le_succ hfuel) h
      · exact h

/-- An element that is missing, but whose number is not the last one of all. -/
theorem addsIndex_missing_iff (h : ArrayIn memory array elements) {index : UInt32}
    (hmissing : elements.length ≤ index.toNat) (hindex : index.toNat + 1 < 2 ^ 32) :
    AddsIndex memory array elements index ↔
      NamesNew (missingNames (UInt32.ofNat elements.length) (index.toNat + 1 - elements.length))
        (namesOf memory elements) := by
  have hstart : (UInt32.ofNat elements.length).toNat +
      (index.toNat + 1 - elements.length) = index.toNat + 1 := by
    rw [UInt32.toNat_ofNat']
    omega
  obtain ⟨memory', tmp, hrun, hothers, more, harray, hmore, hiff, hlast⟩ :=
    addIndexLoop_spec hindex _ h hstart none
  rw [← hiff]
  constructor
  · rintro ⟨fuel, memory'', element, elements', hadd, helements', hlength, -, -, -⟩
    rw [addWSVariableArrayIndex_missing h hmissing] at hadd
    have hsame := (addIndexLoop_mono (Nat.le_max_left _ _) hadd).symm.trans
      (addIndexLoop_mono (Nat.le_max_right _ _) hrun)
    cases hsame
    rw [harray.elements_eq] at helements'
    cases helements'
    rw [List.length_append] at hlength
    omega
  · intro hall
    have htotal : (elements ++ more).length = index.toNat + 1 := by
      rw [List.length_append]
      omega
    obtain ⟨front, element, rfl⟩ := (List.eq_nil_or_concat more).resolve_left fun hnil => by
      rw [hnil, List.length_nil] at hall
      omega
    rw [List.concat_eq_append] at *
    have htmp := hlast hall
    rw [List.getLast?_concat, Option.some_or] at htmp
    subst htmp
    refine ⟨index.toNat + 1 - elements.length + 1, memory', element, _, ?_, harray.elements_eq,
      ?_, List.prefix_append _ _, fun id hid => ?_, ?_⟩
    · rw [addWSVariableArrayIndex_missing h hmissing]
      exact hrun
    · rw [htotal]
      exact Nat.lt_succ_self _
    · exact hothers.varAt_eq id (h.allocated id hid) fun heq => h.apart (heq ▸ hid)
    · have hplace : index.toNat = (elements ++ front).length := by
        rw [← List.append_assoc, List.length_append, List.length_singleton] at htotal
        omega
      rw [getWSVariableArrayIndex_eq harray.elements_eq, ← List.append_assoc, hplace,
        List.getElem?_concat_length]

/-- When an addition by number does what it is to do. -/
theorem addsIndex_iff (h : ArrayIn memory array elements) (index : UInt32) :
    AddsIndex memory array elements index ↔
      index.toNat < elements.length ∨ (index.toNat + 1 < 2 ^ 32 ∧
        NamesNew (missingNames (UInt32.ofNat elements.length) (index.toNat + 1 - elements.length))
          (namesOf memory elements)) := by
  rcases Nat.lt_or_ge index.toNat elements.length with hpresent | hmissing
  · exact iff_of_true (addsIndex_present h hpresent) (Or.inl hpresent)
  · rw [or_iff_right (Nat.not_lt.mpr hmissing)]
    by_cases hindex : index.toNat + 1 < 2 ^ 32
    · rw [addsIndex_missing_iff h hmissing hindex, and_iff_right hindex]
    · refine iff_of_false ?_ fun hboth => hindex hboth.1
      rintro ⟨fuel, memory', element, elements', hadd, -⟩
      have hlast : index.toNat + 1 = 2 ^ 32 := by
        have := index.toNat_lt
        omega
      rw [addWSVariableArrayIndex_missing h hmissing, addIndexLoop_none hlast] at hadd
      cases hadd

end

/-! ## Arrays that are built -/

/-- An array that is built by additions, with or without a name or by number. -/
inductive Built (array : Nat) : List WsVar → Prop where
  | start {memory : List WsVar} : elementsOf memory array = some [] → array < memory.length →
      Built array memory
  | named {memory : List WsVar} (name : Option (List UInt8)) (noCheckNameExists : Bool) :
      Built array memory → Built array (addWSVariableArray memory array name noCheckNameExists).1
  | indexed {memory memory' : List WsVar} {fuel : Nat} {index : UInt32} {element : Option Nat} :
      Built array memory →
      addWSVariableArrayIndex fuel memory array index = some (memory', element) →
      Built array memory'

theorem addIndexLoop_arrayIn {array : Nat} {index : UInt32} {fuel : Nat}
    {memory memory' : List WsVar} {i : UInt32} {tmp tmp' : Option Nat} {elements : List Nat}
    (h : ArrayIn memory array elements)
    (hrun : addIndexLoop array index fuel memory i tmp = some (memory', tmp')) :
    ∃ elements', ArrayIn memory' array elements' := by
  induction fuel generalizing memory i tmp elements with
  | zero => cases hrun
  | succ fuel ih =>
      rw [addIndexLoop] at hrun
      split_ifs at hrun
      · obtain ⟨memory₁, id, hnew, ⟨-, happended⟩ | ⟨-, rfl⟩⟩ := newElement_spec h (indexName i)
        · rw [hnew] at hrun
          exact ih happended.arrayIn hrun
        · rw [hnew] at hrun
          exact ih h hrun
      · cases hrun
        exact ⟨elements, h⟩

theorem newElement_arrayIn {memory : List WsVar} {array : Nat} {elements : List Nat}
    (h : ArrayIn memory array elements) (name : Option (List UInt8)) (noCheckNameExists : Bool) :
    ∃ elements', ArrayIn (newElement memory array name noCheckNameExists).1 array elements' := by
  have hpush : ∀ name, ArrayIn (setValue (memory ++ [{ name := name }]) array
      (.array (elements ++ [memory.length]))) array (elements ++ [memory.length]) :=
    fun name => (pushVariable_appended h name).arrayIn
  match name, noCheckNameExists with
  | none, _ =>
      unfold newElement
      rw [h.elements_eq]
      exact ⟨_, hpush []⟩
  | some name, true =>
      unfold newElement
      rw [h.elements_eq]
      exact ⟨_, hpush name⟩
  | some name, false =>
      obtain ⟨memory', id, hnew, ⟨-, happended⟩ | ⟨-, rfl⟩⟩ := newElement_spec h name
      · rw [hnew]
        exact ⟨_, happended.arrayIn⟩
      · rw [hnew]
        exact ⟨elements, h⟩

theorem Built.arrayIn {array : Nat} {memory : List WsVar} (h : Built array memory) :
    ∃ elements, ArrayIn memory array elements := by
  induction h with
  | start hempty harray =>
      exact ⟨[], hempty, fun _ hid => absurd hid List.not_mem_nil, harray, List.not_mem_nil⟩
  | named name noCheckNameExists _ ih =>
      obtain ⟨elements, h⟩ := ih
      unfold addWSVariableArray
      rw [elementsOf_value h.elements_eq]
      exact newElement_arrayIn h name noCheckNameExists
  | @indexed memory memory' fuel index element _ hadd ih =>
      obtain ⟨elements, h⟩ := ih
      unfold addWSVariableArrayIndex at hadd
      rw [h.elements_eq] at hadd
      dsimp only at hadd
      split at hadd
      · cases hadd
        exact ⟨elements, h⟩
      · exact addIndexLoop_arrayIn h hadd

/-- **An addition by number** to an array that was built so does what it is to do exactly if the
element is there, or the number is not the last one of all and the names of the missing elements are
new and different. -/
theorem addWSVariableArrayIndex_iff {memory : List WsVar} {array : Nat} {elements : List Nat}
    (h : Built array memory) (helements : elementsOf memory array = some elements)
    (index : UInt32) :
    AddsIndex memory array elements index ↔
      index.toNat < elements.length ∨ (index.toNat + 1 < 2 ^ 32 ∧
        NamesNew (missingNames (UInt32.ofNat elements.length) (index.toNat + 1 - elements.length))
          (namesOf memory elements)) := by
  obtain ⟨elements', harray⟩ := h.arrayIn
  have hsame := harray.elements_eq
  rw [helements] at hsame
  cases hsame
  exact addsIndex_iff harray index

/-- An array with one element. -/
def oneElement (name : List UInt8) : List WsVar :=
  [{ name := ascii "list", value := .array [1] }, { name := name }]

theorem oneElement_built (name : List UInt8) : Built 0 (oneElement name) :=
  Built.named (some name) false
    (@Built.start 0 [{ name := ascii "list", value := .array [] }] rfl (by decide))

/-- Three elements behind one with a name of its own. -/
theorem addWSVariableArrayIndex_iff_named : AddsIndex (oneElement (ascii "first")) 0 [1] 3 :=
  (addWSVariableArrayIndex_iff (oneElement_built (ascii "first")) rfl 3).mpr
    (Or.inr ⟨by decide, by decide, by decide⟩)

/-- The only element has the name that the second one would get. -/
theorem addWSVariableArrayIndex_fails : ¬ ∀ (memory : List WsVar) (array : Nat)
    (elements : List Nat) (index : UInt32), Built array memory →
    elementsOf memory array = some elements → AddsIndex memory array elements index := by
  intro hall
  have hadds := hall (oneElement (ascii "1")) 0 [1] 1 (oneElement_built (ascii "1")) rfl
  obtain ⟨elements, harray⟩ := (oneElement_built (ascii "1")).arrayIn
  have hsame : elements = [1] := Option.some.inj (harray.elements_eq.symm.trans rfl)
  subst hsame
  rcases (addsIndex_iff harray 1).mp hadds with hpresent | ⟨-, hnew⟩
  · exact absurd hpresent (by decide)
  · exact hnew.2 (ascii "1") (by decide) (by decide)

end CWebUI.Session
