import CWebUI.Session.PathBytes

set_option autoImplicit false

/-! # The indices of a variable path

What `parseVariable` returns for a path into a global array, whose elements may be arrays again. An
element belongs to one array and is younger than this, so no path leads back. Behind a number the
code looks for the next bracket one byte too far, and does not go on.
-/

namespace CWebUI.Session

open ByteString CWebUI.Http

/-! ## Paths -/

/-- A name or a key: without quotes, brackets and null bytes, and shorter than 100 bytes. -/
structure PathName where
  text : List UInt8
  plain : ∀ c ∈ text, c ≠ 0 ∧ c ≠ 34 ∧ c ≠ 91 ∧ c ≠ 93
  short : text.length < 100

/-- A decimal number. -/
structure Decimal where
  digits : List UInt8
  nonempty : digits ≠ []
  digit : ∀ c ∈ digits, isDigit c = true

/-- An index of a path. -/
inductive PathIndex where
  | number (n : Decimal)
  | key (k : PathName)

/-- The number that is meant. -/
def Decimal.value (n : Decimal) : Nat := decValue n.digits

/-- The number that the code looks for: the library clamps it to 63 bits, and 32 of these are
kept. -/
def Decimal.stored (n : Decimal) : Nat := min n.value (2 ^ 63 - 1) % 2 ^ 32

namespace PathIndex

/-- The text of an index. -/
def print : PathIndex → List UInt8
  | number n => 91 :: (n.digits ++ [93])
  | key k => 91 :: 34 :: (k.text ++ [34, 93])

/-- The element of an array that an index means. -/
def element (memory : List WsVar) (elements : List Nat) : PathIndex → Option Nat
  | number n => elements[n.value]?
  | key k => searchVariable memory elements k.text

end PathIndex

/-- The text of indices. -/
def printIndices (indices : List PathIndex) : List UInt8 := indices.flatMap PathIndex.print

/-- The text of a path into a global array. -/
def pathText (name : PathName) (indices : List PathIndex) : List UInt8 :=
  ascii "global;\"" ++ (name.text ++ 34 :: printIndices indices)

/-- The element that a path leads to, with all its indices from left to right. -/
def follow (memory : List WsVar) : List Nat → List PathIndex → Option Nat
  | _, [] => none
  | elements, [i] => i.element memory elements
  | elements, i :: j :: rest =>
      (i.element memory elements).bind fun e =>
        (elementsOf memory e).bind fun inner => follow memory inner (j :: rest)

/-- Every index but the last one selects an array. -/
def SelectsArrays (memory : List WsVar) : List Nat → List PathIndex → Prop
  | _, [] => True
  | _, [_] => True
  | elements, i :: j :: rest => ∃ e inner, i.element memory elements = some e ∧
      elementsOf memory e = some inner ∧ SelectsArrays memory inner (j :: rest)

/-- The answer for an element, or for an index that does not exist. -/
def Answers : Option Nat → WsValue → Prop
  | some e, value => value = .ref e
  | none, value => ∃ text, value = .string text

/-- The condition for a number at the end of a path: it has 32 bits, or what the code makes of it is
behind the array, too; and its text fits into `error_index`, or the element exists. -/
def NumberOk (elements : List Nat) (n : Decimal) : Prop :=
  (n.value < 2 ^ 32 ∨ elements.length ≤ n.stored) ∧
    (n.digits.length < PathBytes.errorIndexSize ∨ n.value < elements.length)

/-- The condition for a path to be followed: no index but the last one is a number. -/
def FollowsAll (memory : List WsVar) : List Nat → List PathIndex → Prop
  | _, [] => True
  | elements, [.number n] => NumberOk elements n
  | _, [.key _] => True
  | _, .number _ :: _ :: _ => False
  | elements, .key k :: j :: rest => ∀ e inner, searchVariable memory elements k.text = some e →
      elementsOf memory e = some inner → FollowsAll memory inner (j :: rest)

/-! ## Arrays in memory -/

/-- Every element belongs to one array, at one place, and is younger than this. -/
structure Owned (memory : List WsVar) : Prop where
  younger : ∀ {array elements}, elementsOf memory array = some elements →
    ∀ e ∈ elements, array < e ∧ e < memory.length
  nodup : ∀ {array elements}, elementsOf memory array = some elements → elements.Nodup
  apart : ∀ {array array' elements elements'}, elementsOf memory array = some elements →
    elementsOf memory array' = some elements' → ∀ e ∈ elements, e ∈ elements' → array = array'

/-- `delWSVariableArray` -/
def delWSVariableArray (memory : List WsVar) (var : Nat) (name : List UInt8) : List WsVar :=
  match elementsOf memory var with
  | none => memory
  | some elements => setValue memory var (.array (delVariable memory elements name))

/-- What the operations on variables make of the memory: new variables in any store, elements of
arrays, and values, of which `setWSVariableArray` is an empty array. -/
inductive Made : List WsVar → Prop where
  | empty : Made []
  | named {memory : List WsVar} (vars : List Nat) (name : List UInt8) :
      Made memory → Made (newVariable memory vars name).1
  | element {memory : List WsVar} (var : Nat) (name : Option (List UInt8))
      (noCheckNameExists : Bool) :
      Made memory → Made (addWSVariableArray memory var name noCheckNameExists).1
  | deleted {memory : List WsVar} (var : Nat) (name : List UInt8) :
      Made memory → Made (delWSVariableArray memory var name)
  | array {memory : List WsVar} (var : Nat) :
      Made memory → Made (setValue memory var (.array []))
  | value {memory : List WsVar} (var : Nat) {value : WsValue}
      (hvalue : ∀ elements, value ≠ .array elements) :
      Made memory → Made (setValue memory var value)

section

variable {memory : List WsVar}

theorem elementsOf_push (name : List UInt8) (id : Nat) :
    elementsOf (memory ++ [{ name := name }]) id = elementsOf memory id := by
  unfold elementsOf varAt
  rw [List.getD_eq_getElem?_getD, List.getD_eq_getElem?_getD]
  rcases Nat.lt_trichotomy id memory.length with hlt | heq | hgt
  · rw [List.getElem?_append_left hlt]
  · rw [heq, List.getElem?_concat_length, List.getElem?_eq_none (Nat.le_refl _)]
    rfl
  · rw [List.getElem?_eq_none (by simp; omega), List.getElem?_eq_none hgt.le]

theorem lt_of_elementsOf {id : Nat} {elements : List Nat}
    (h : elementsOf memory id = some elements) : id < memory.length := by
  by_contra hge
  unfold elementsOf varAt at h
  rw [List.getD_eq_getElem?_getD, List.getElem?_eq_none (Nat.le_of_not_lt hge)] at h
  cases h

/-- The elements of another variable than the one that has got a value. -/
theorem elementsOf_setValue_ne {var id : Nat} (value : WsValue) (h : id ≠ var) :
    elementsOf (setValue memory var value) id = elementsOf memory id := by
  unfold elementsOf
  rw [(varAt_setValue memory var value id).2 h]

/-- An array that a variable is behind an assignment is the value that it has got. -/
theorem value_of_elementsOf {var : Nat} {value : WsValue} {elements : List Nat}
    (h : elementsOf (setValue memory var value) var = some elements) : value = .array elements := by
  have hlt := lt_of_elementsOf h
  rw [length_setValue] at hlt
  have hget := elementsOf_value h
  unfold varAt Session.setValue at hget
  rw [List.getD_eq_getElem?_getD, List.getElem?_modify_eq, List.getElem?_eq_getElem hlt] at hget
  exact hget

/-- Arrays that have some of the elements which they had. -/
theorem Owned.of_sublist (h : Owned memory) {memory' : List WsVar}
    (hlength : memory'.length = memory.length)
    (hsub : ∀ id elements', elementsOf memory' id = some elements' → elements' = [] ∨
      ∃ elements, elementsOf memory id = some elements ∧ elements'.Sublist elements) :
    Owned memory' := by
  refine ⟨fun {array elements'} helements' e he => ?_, fun {array elements'} helements' => ?_,
    fun {array array' elements' elements''} h' h'' e he he' => ?_⟩
  · rcases hsub _ _ helements' with rfl | ⟨elements, helements, hsublist⟩
    · exact absurd he List.not_mem_nil
    · rw [hlength]
      exact h.younger helements e (hsublist.subset he)
  · rcases hsub _ _ helements' with rfl | ⟨elements, helements, hsublist⟩
    · exact List.nodup_nil
    · exact hsublist.nodup (h.nodup helements)
  · rcases hsub _ _ h' with rfl | ⟨elements₁, h₁, hsub₁⟩
    · exact absurd he List.not_mem_nil
    · rcases hsub _ _ h'' with rfl | ⟨elements₂, h₂, hsub₂⟩
      · exact absurd he' List.not_mem_nil
      · exact h.apart h₁ h₂ e (hsub₁.subset he) (hsub₂.subset he')

/-- A value for a variable, an array only with elements that it had. -/
theorem Owned.setValue (h : Owned memory) (var : Nat) {value : WsValue}
    (hvalue : ∀ elements', value = .array elements' → elements' = [] ∨
      ∃ elements, elementsOf memory var = some elements ∧ elements'.Sublist elements) :
    Owned (setValue memory var value) := by
  refine h.of_sublist (length_setValue memory var value) fun id elements' helements' => ?_
  by_cases hid : id = var
  · subst hid
    exact hvalue elements' (value_of_elementsOf helements')
  · rw [elementsOf_setValue_ne value hid] at helements'
    exact Or.inr ⟨elements', helements', List.Sublist.refl _⟩

/-- A new variable that no array has. -/
theorem Owned.push (h : Owned memory) (name : List UInt8) :
    Owned (memory ++ [{ name := name }]) := by
  refine ⟨fun helements e he => ?_, fun helements => ?_, fun h₁ h₂ => ?_⟩
  · rw [elementsOf_push] at helements
    obtain ⟨hlt, hlength⟩ := h.younger helements e he
    exact ⟨hlt, by rw [List.length_append]; omega⟩
  · rw [elementsOf_push] at helements
    exact h.nodup helements
  · rw [elementsOf_push] at h₁ h₂
    exact h.apart h₁ h₂

/-- A new variable that one array gets as its last element. -/
theorem Owned.pushElement (h : Owned memory) (name : List UInt8) {array : Nat}
    {elements : List Nat} (helements : elementsOf memory array = some elements) :
    Owned (Session.setValue (memory ++ [{ name := name }]) array
      (.array (elements ++ [memory.length]))) := by
  have hvalue : ∀ id elements',
      elementsOf (Session.setValue (memory ++ [{ name := name }]) array
        (.array (elements ++ [memory.length]))) id = some elements' →
      (id = array ∧ elements' = elements ++ [memory.length]) ∨
        (id ≠ array ∧ elementsOf memory id = some elements') := by
    intro id elements' h'
    by_cases hid : id = array
    · subst hid
      cases value_of_elementsOf h'
      exact Or.inl ⟨rfl, rfl⟩
    · rw [elementsOf_setValue_ne _ hid, elementsOf_push] at h'
      exact Or.inr ⟨hid, h'⟩
  have hlength : (Session.setValue (memory ++ [({ name := name } : WsVar)]) array
      (.array (elements ++ [memory.length]))).length = memory.length + 1 := by
    rw [length_setValue, List.length_append, List.length_singleton]
  have harray := lt_of_elementsOf helements
  have hnew : ∀ {id elements'}, elementsOf memory id = some elements' →
      memory.length ∉ elements' := by
    intro id elements' h' hmem
    exact absurd (h.younger h' _ hmem).2 (Nat.lt_irrefl _)
  refine ⟨fun {id elements'} h' e he => ?_, fun {id elements'} h' => ?_,
    fun {id id' elements' elements''} h' h'' e he he' => ?_⟩
  · rw [hlength]
    rcases hvalue _ _ h' with ⟨rfl, rfl⟩ | ⟨-, hold⟩
    · rcases List.mem_append.mp he with he | he
      · obtain ⟨hlt, hle⟩ := h.younger helements e he
        exact ⟨hlt, by omega⟩
      · rw [List.mem_singleton.mp he]
        exact ⟨harray, Nat.lt_succ_self _⟩
    · obtain ⟨hlt, hle⟩ := h.younger hold e he
      exact ⟨hlt, by omega⟩
  · rcases hvalue _ _ h' with ⟨rfl, rfl⟩ | ⟨-, hold⟩
    · refine List.nodup_append.mpr ⟨h.nodup helements, by simp, fun e he e' he' heq => ?_⟩
      exact hnew helements (List.mem_singleton.mp he' ▸ heq ▸ he)
    · exact h.nodup hold
  · rcases hvalue _ _ h' with ⟨rfl, rfl⟩ | ⟨hne, hold⟩
    · rcases hvalue _ _ h'' with ⟨rfl, -⟩ | ⟨hne', hold'⟩
      · rfl
      · rcases List.mem_append.mp he with he | he
        · exact h.apart helements hold' e he he'
        · exact absurd (List.mem_singleton.mp he ▸ he') (hnew hold')
    · rcases hvalue _ _ h'' with ⟨rfl, rfl⟩ | ⟨hne', hold'⟩
      · rcases List.mem_append.mp he' with he' | he'
        · exact h.apart hold helements e he he'
        · exact absurd (List.mem_singleton.mp he' ▸ he) (hnew hold)
      · exact h.apart hold hold' e he he'

theorem Owned.newElement (h : Owned memory) {array : Nat} {elements : List Nat}
    (helements : elementsOf memory array = some elements) (name : Option (List UInt8))
    (noCheckNameExists : Bool) : Owned (newElement memory array name noCheckNameExists).1 := by
  have hsame : Owned (Session.setValue memory array (.array elements)) := by
    rw [setValue_self (elementsOf_value helements)]
    exact h
  unfold Session.newElement newVariableFlags
  rw [helements]
  cases name with
  | none => exact h.pushElement [] helements
  | some name =>
      cases noCheckNameExists with
      | true => exact h.pushElement name helements
      | false =>
          unfold newVariable
          cases hsearch : searchVariable memory elements name with
          | none =>
              simp only [Option.getD_some, hsearch]
              exact h.pushElement name helements
          | some id =>
              simp only [Option.getD_some, hsearch]
              exact hsame

/-- Whatever the operations make of the memory, arrays own their elements. -/
theorem Made.owned (h : Made memory) : Owned memory := by
  induction h with
  | empty =>
      exact ⟨fun h' => absurd (lt_of_elementsOf h') (Nat.not_lt_zero _),
        fun h' => absurd (lt_of_elementsOf h') (Nat.not_lt_zero _),
        fun h' => absurd (lt_of_elementsOf h') (Nat.not_lt_zero _)⟩
  | @named memory vars name _ ih =>
      unfold newVariable
      cases searchVariable memory vars name with
      | none => exact ih.push name
      | some id => exact ih
  | @element memory var name noCheckNameExists _ ih =>
      unfold addWSVariableArray
      split
      · next elements hvalue =>
        exact ih.newElement (by rw [elementsOf, hvalue]) name noCheckNameExists
      · next target hvalue =>
        by_cases harray : (elementsOf memory target).isSome
        · obtain ⟨elements, helements⟩ := Option.isSome_iff_exists.mp harray
          rw [if_pos harray]
          exact ih.newElement helements name noCheckNameExists
        · rw [if_neg harray]
          exact ih
      · exact ih
  | @deleted memory var name _ ih =>
      unfold delWSVariableArray
      cases helements : elementsOf memory var with
      | none => exact ih
      | some elements =>
          refine ih.setValue var fun elements' heq => Or.inr ⟨elements, helements, ?_⟩
          cases heq
          unfold delVariable
          cases searchVariable memory elements name with
          | none => exact List.Sublist.refl _
          | some id => exact List.erase_sublist
  | array var _ ih => exact ih.setValue var fun elements' heq => Or.inl (by cases heq; rfl)
  | value var hvalue _ ih =>
      exact ih.setValue var fun elements' heq => absurd heq (hvalue elements')

end

/-! ## The texts of indices -/

/-- A digit is neither a blank nor a sign, nor a byte with a meaning in a path. -/
theorem digit_plain : ∀ c : UInt8, isDigit c = true →
    isSpace c = false ∧ c ≠ 45 ∧ c ≠ 43 ∧ c ≠ 0 ∧ c ≠ 34 ∧ c ≠ 91 ∧ c ≠ 93 :=
  forall_byte (by decide +kernel)

/-- What the library reads in a decimal number. -/
theorem atoi_digits (n : Decimal) : (atoi n.digits % 2 ^ 32).toNat = n.stored := by
  obtain ⟨c, rest, hdigits⟩ := List.exists_cons_of_ne_nil n.nonempty
  have hplain := fun d hd => digit_plain d (n.digit d hd)
  have hc := hplain c (by rw [hdigits]; exact List.mem_cons_self)
  have hstring : cString n.digits = n.digits :=
    cString_of_not_mem fun h0 => (hplain 0 h0).2.2.2.1 rfl
  have hspace : n.digits.dropWhile isSpace = n.digits := by
    rw [hdigits, List.dropWhile_cons, if_neg (by rw [hc.1]; simp)]
  have hwhile : n.digits.takeWhile isDigit = n.digits :=
    List.takeWhile_eq_self_iff.mpr n.digit
  have hhead : n.digits.head? = some c := by rw [hdigits]; rfl
  rw [atoi, scanInt, hstring, hspace, hhead]
  have h45 : some c ≠ some (45 : UInt8) := fun h => hc.2.1 (Option.some.inj h)
  have h43 : some c ≠ some (43 : UInt8) := fun h => hc.2.2.1 (Option.some.inj h)
  simp only [h45, h43, or_self, if_false, hwhile, n.nonempty, Option.getD_some]
  have hmod : ∀ x : Int, x.bmod (2 ^ 32) % 2 ^ 32 = x % 2 ^ 32 := fun x => @Int.bmod_emod x (2 ^ 32)
  rw [Decimal.stored, Decimal.value, intOfScan, hmod]
  generalize decValue n.digits = v
  omega

/-- The text before the first byte of a kind. -/
theorem takeWhile_before {c : UInt8} {front : List UInt8} (h : c ∉ front) (rest : List UInt8) :
    (front ++ c :: rest).takeWhile (· ≠ c) = front := by
  rw [List.takeWhile_append_of_pos fun d hd => by simpa using fun heq : d = c => h (heq ▸ hd)]
  simp

theorem PathName.not_mem (k : PathName) :
    (0 : UInt8) ∉ k.text ∧ 34 ∉ k.text ∧ 91 ∉ k.text ∧ 93 ∉ k.text :=
  ⟨fun h => (k.plain _ h).1 rfl, fun h => (k.plain _ h).2.1 rfl, fun h => (k.plain _ h).2.2.1 rfl,
    fun h => (k.plain _ h).2.2.2 rfl⟩

/-- A key in a text: its element, and the indices behind it. -/
theorem elementAt_printKey (memory : List WsVar) (elements : List Nat) (k : PathName)
    (rest : List UInt8) :
    elementAt memory elements ((PathIndex.key k).print ++ rest) =
      (searchVariable memory elements k.text, k.text, rest) := by
  have hprint : (PathIndex.key k).print ++ rest =
      91 :: ((34 :: (k.text ++ [34])) ++ 93 :: rest) := by simp [PathIndex.print]
  have hinner : (((PathIndex.key k).print ++ rest).drop 1).takeWhile (· ≠ 93) =
      34 :: (k.text ++ [34]) := by
    rw [hprint]
    refine takeWhile_before (fun h => ?_) rest
    simp only [List.mem_cons, List.mem_append, List.not_mem_nil, or_false] at h
    exact h.elim (by decide) fun h => h.elim k.not_mem.2.2.2 (by decide)
  have hrest : ((PathIndex.key k).print ++ rest).drop (k.text.length + 4) = rest :=
    List.drop_left' (by simp [PathIndex.print])
  rw [PathBytes.elementAt_key hinner, List.dropLast_concat, hrest]

/-- A number in a text: its element, and what the code takes for the indices behind it. -/
theorem elementAt_printNumber (memory : List WsVar) (elements : List Nat) (n : Decimal)
    (rest : List UInt8) :
    elementAt memory elements ((PathIndex.number n).print ++ rest) =
      (elements[n.stored]?, n.digits, rest.drop 1) := by
  have hdigit := fun d hd => (digit_plain d (n.digit d hd)).2.2.2.2
  have hprint : (PathIndex.number n).print ++ rest = 91 :: (n.digits ++ 93 :: rest) := by
    simp [PathIndex.print]
  have hinner : (((PathIndex.number n).print ++ rest).drop 1).takeWhile (· ≠ 93) = n.digits := by
    rw [hprint]
    exact takeWhile_before (fun h => (hdigit 93 h).2.2 rfl) rest
  have hhead : ((((PathIndex.number n).print ++ rest).drop 1).takeWhile (· ≠ 93)).head? ≠
      some 34 := by
    rw [hinner]
    exact fun h => (hdigit 34 (List.mem_of_mem_head? h)).1 rfl
  have hrest : ((PathIndex.number n).print ++ rest).drop (n.digits.length + 3) = rest.drop 1 := by
    rw [hprint, ← List.cons_append, List.drop_append, List.drop_of_length_le (by simp)]
    simp
  rw [PathBytes.elementAt_number hhead, hinner, atoi_digits, hrest]

/-- The text of indices starts with a bracket, and no bracket follows. -/
theorem printIndices_cons (i : PathIndex) (rest : List PathIndex) :
    ∃ c more, printIndices (i :: rest) = 91 :: c :: more ∧ c ≠ 91 := by
  cases i with
  | number n =>
      obtain ⟨c, digits, hdigits⟩ := List.exists_cons_of_ne_nil n.nonempty
      refine ⟨c, digits ++ [93] ++ printIndices rest, ?_, ?_⟩
      · simp [printIndices, PathIndex.print, hdigits]
      · exact (digit_plain c (n.digit c (by rw [hdigits]; exact List.mem_cons_self))).2.2.2.2.2.1
  | key k =>
      exact ⟨34, k.text ++ [34, 93] ++ printIndices rest, by simp [printIndices, PathIndex.print],
        by decide⟩

/-! ## Following a path -/

theorem Decimal.stored_spec (n : Decimal) :
    n.stored ≤ n.value ∧ n.stored < 2 ^ 32 ∧ (n.value < 2 ^ 32 → n.stored = n.value) := by
  unfold Decimal.stored
  omega

/-- When the code finds what a number at the end of a path means. -/
theorem numberOk_iff {elements : List Nat} (hnodup : elements.Nodup) (n : Decimal) :
    (elements[n.stored]? = elements[n.value]? ∧
        (elements[n.stored]? = none → n.digits.length < PathBytes.errorIndexSize)) ↔
      NumberOk elements n := by
  obtain ⟨hle, hlt, hsmall⟩ := n.stored_spec
  constructor
  · rintro ⟨hsame, hshort⟩
    constructor
    · -- a number that is cut to 32 bits finds another element
      by_contra hnot
      rw [not_or, Nat.not_lt, Nat.not_le] at hnot
      have heq := (List.getElem?_inj hnot.2 hnodup).mp hsame
      omega
    · by_cases hvalue : n.value < elements.length
      · exact Or.inr hvalue
      · exact Or.inl (hshort (hsame.trans (List.getElem?_eq_none (Nat.le_of_not_lt hvalue))))
  · rintro ⟨hbits, hshort⟩
    have hsame : elements[n.stored]? = elements[n.value]? := by
      rcases hbits with hbits | hbehind
      · rw [hsmall hbits]
      · rw [List.getElem?_eq_none hbehind, List.getElem?_eq_none (Nat.le_trans hbehind hle)]
    refine ⟨hsame, fun hnone => ?_⟩
    rw [hsame, List.getElem?_eq_none_iff] at hnone
    exact hshort.resolve_right (Nat.not_lt.mpr hnone)

section

variable {memory : List WsVar} {elements : List Nat}

/-- What a path leads to is an element of an array that is not older than the one before it. -/
theorem follow_mem (howned : Owned memory) {array : Nat}
    (helements : elementsOf memory array = some elements) {indices : List PathIndex} {e : Nat}
    (h : follow memory elements indices = some e) :
    ∃ array' elements', array ≤ array' ∧ elementsOf memory array' = some elements' ∧
      e ∈ elements' := by
  have hmem : ∀ {elements : List Nat} {i : PathIndex} {e : Nat},
      i.element memory elements = some e → e ∈ elements := by
    intro elements i e h
    cases i with
    | number n => exact List.mem_of_getElem? h
    | key k => exact List.mem_of_find?_eq_some h
  induction indices generalizing array elements with
  | nil => cases h
  | cons i rest ih =>
      cases rest with
      | nil => exact ⟨array, elements, Nat.le_refl _, helements, hmem h⟩
      | cons j rest =>
          obtain ⟨e', he', hrest⟩ := Option.bind_eq_some_iff.mp h
          obtain ⟨inner, hinner, hfollow⟩ := Option.bind_eq_some_iff.mp hrest
          obtain ⟨array', elements', hle, harray', hmem'⟩ := ih hinner hfollow
          have hlt := (howned.younger helements e' (hmem he')).1
          exact ⟨array', elements', by omega, harray', hmem'⟩

variable {array fuel : Nat} {text behind index : List UInt8}

theorem arrayLoop_notFound (hopen : text.head? = some 91)
    (hat : elementAt memory elements text = (none, index, behind)) :
    ∃ message, arrayLoop memory (fuel + 1) array elements text = .string message := by
  rw [arrayLoop, if_pos hopen, hat]
  exact ⟨_, rfl⟩

theorem arrayLoop_found {e : Nat} (hopen : text.head? = some 91)
    (hat : elementAt memory elements text = (some e, index, behind))
    (hbehind : behind.head? ≠ some 91) :
    arrayLoop memory (fuel + 1) array elements text = .ref e := by
  rw [arrayLoop, if_pos hopen, hat]
  dsimp only
  split
  · next hsome _ => exact absurd hsome hbehind
  · rfl

theorem arrayLoop_inner {e : Nat} {inner : List Nat} (hopen : text.head? = some 91)
    (hat : elementAt memory elements text = (some e, index, behind))
    (hbehind : behind.head? = some 91) (hinner : elementsOf memory e = some inner) :
    arrayLoop memory (fuel + 1) array elements text = arrayLoop memory fuel e inner behind := by
  rw [arrayLoop, if_pos hopen, hat]
  dsimp only
  rw [hbehind, hinner]
  rfl

theorem printIndices_head (i : PathIndex) (rest : List PathIndex) :
    (printIndices (i :: rest)).head? = some 91 := by
  obtain ⟨c, more, hprint, -⟩ := printIndices_cons i rest
  rw [hprint]
  rfl

theorem answers_string (found : Option Nat) (message : List UInt8) :
    Answers found (.string message) ↔ found = none := by
  cases found with
  | none => exact iff_of_true ⟨message, rfl⟩ rfl
  | some e => exact iff_of_false (fun h => nomatch h) fun h => nomatch h

theorem answers_ref (found : Option Nat) (e : Nat) : Answers found (.ref e) ↔ found = some e := by
  cases found with
  | none => exact iff_of_false (fun ⟨_, h⟩ => nomatch h) fun h => nomatch h
  | some e' =>
      constructor
      · rintro ⟨⟩
        rfl
      · rintro ⟨⟩
        rfl

/-- An index behind which no other one is found: the element that the code finds is the one that is
meant, and if there is none, the text of the index is short. -/
theorem arrayLoop_end {found meant : Option Nat} (hopen : text.head? = some 91)
    (hat : elementAt memory elements text = (found, index, behind))
    (hbehind : behind.head? ≠ some 91) :
    (¬ LongMissing memory elements text ∧
        Answers meant (arrayLoop memory (fuel + 1) array elements text)) ↔
      found = meant ∧ (found = none → index.length < PathBytes.errorIndexSize) := by
  cases found with
  | none =>
      obtain ⟨message, hloop⟩ := @arrayLoop_notFound memory elements array fuel text behind index
        hopen hat
      rw [hloop, answers_string, LongMissing.missing_iff hopen (by rw [hat]), hat, Nat.not_le]
      constructor
      · rintro ⟨hshort, rfl⟩
        exact ⟨rfl, fun _ => hshort⟩
      · rintro ⟨rfl, hshort⟩
        exact ⟨hshort rfl, rfl⟩
  | some e =>
      have hshort : ¬ LongMissing memory elements text := by
        rw [LongMissing.found_iff hopen (by rw [hat]), hat]
        rintro ⟨_, _, hmissing⟩
        exact hbehind hmissing.head
      rw [arrayLoop_found hopen hat hbehind, answers_ref]
      constructor
      · rintro ⟨-, rfl⟩
        exact ⟨rfl, fun hnone => nomatch hnone⟩
      · rintro ⟨rfl, -⟩
        exact ⟨hshort, rfl⟩

/-- What `parseVariable` returns for the indices of a path: the element that they lead to, or the
message that an index does not exist, if and only if the code follows them all. -/
theorem arrayLoop_path (howned : Owned memory) (helements : elementsOf memory array = some elements)
    {indices : List PathIndex} (hne : indices ≠ [])
    (hselects : SelectsArrays memory elements indices)
    (hfuel : (printIndices indices).length < fuel) :
    (¬ LongMissing memory elements (printIndices indices) ∧
        Answers (follow memory elements indices)
          (arrayLoop memory fuel array elements (printIndices indices))) ↔
      FollowsAll memory elements indices := by
  induction indices generalizing array elements fuel with
  | nil => exact absurd rfl hne
  | cons i rest ih =>
      obtain ⟨fuel, rfl⟩ : ∃ n, fuel = n + 1 := ⟨fuel - 1, by omega⟩
      have hopen := printIndices_head i rest
      cases i with
      | number n =>
          have hat := elementAt_printNumber memory elements n (printIndices rest)
          change elementAt memory elements (printIndices (.number n :: rest)) = _ at hat
          -- the code looks for a bracket one byte behind the one that is there
          have hbehind : ((printIndices rest).drop 1).head? ≠ some 91 := by
            cases rest with
            | nil => simp [printIndices]
            | cons j rest =>
                obtain ⟨c, more, hprint, hc⟩ := printIndices_cons j rest
                rw [hprint]
                simpa using hc
          rw [arrayLoop_end hopen hat hbehind]
          cases rest with
          | nil => exact numberOk_iff (howned.nodup helements) n
          | cons j rest =>
              refine iff_of_false ?_ id
              rintro ⟨hsame, -⟩
              -- The code returns an element of this array, the path leads into a younger one.
              obtain ⟨e, inner, he, hinner, -⟩ := hselects
              rw [follow, he, Option.bind_some, hinner, Option.bind_some] at hsame
              obtain ⟨hlt, -⟩ := List.getElem?_eq_some_iff.mp he
              have hstored : n.stored < elements.length := Nat.lt_of_le_of_lt n.stored_spec.1 hlt
              rw [List.getElem?_eq_getElem hstored] at hsame
              obtain ⟨array', elements', hle, harray', hmem⟩ :=
                follow_mem howned hinner hsame.symm
              have hsame' := howned.apart helements harray' _ (List.getElem_mem hstored) hmem
              have hyounger := (howned.younger helements e (List.mem_of_getElem? he)).1
              omega
      | key k =>
          have hat := elementAt_printKey memory elements k (printIndices rest)
          change elementAt memory elements (printIndices (.key k :: rest)) = _ at hat
          cases rest with
          | nil =>
              rw [arrayLoop_end hopen hat (by simp [printIndices])]
              exact iff_of_true ⟨rfl, fun _ => k.short⟩ trivial
          | cons j rest =>
              obtain ⟨e, inner, he, hinner, hrest⟩ := hselects
              change searchVariable memory elements k.text = some e at he
              rw [he] at hat
              have hfollow : follow memory elements (.key k :: j :: rest) =
                  follow memory inner (j :: rest) := by
                rw [follow, PathIndex.element, he, Option.bind_some, hinner, Option.bind_some]
              have hlength : (printIndices (j :: rest)).length < fuel := by
                have hprint : printIndices (.key k :: j :: rest) =
                    (PathIndex.key k).print ++ printIndices (j :: rest) := rfl
                rw [hprint, List.length_append, PathIndex.print, List.length_cons] at hfuel
                omega
              rw [arrayLoop_inner hopen hat (printIndices_head j rest) hinner,
                LongMissing.found_iff hopen (by rw [hat]), hat, hfollow, FollowsAll]
              have hinside := ih hinner (by simp) hrest hlength
              constructor
              · rintro ⟨hshort, hanswers⟩ e' inner' he' hinner'
                cases he.symm.trans he'
                cases hinner.symm.trans hinner'
                exact hinside.mp ⟨fun hlong => hshort ⟨inner, hinner, hlong⟩, hanswers⟩
              · intro hall
                obtain ⟨hshort, hanswers⟩ := hinside.mpr (hall e inner he hinner)
                refine ⟨?_, hanswers⟩
                rintro ⟨inner', hinner', hlong⟩
                cases hinner.symm.trans hinner'
                exact hshort hlong

end

/-! ## Paths into global arrays -/

theorem nameSpaceOf_pathText (name : PathName) (indices : List PathIndex) :
    nameSpaceOf (pathText name indices) =
      (.global, 34 :: (name.text ++ 34 :: printIndices indices)) := by
  have hsplit : pathText name indices =
      ascii "global;" ++ (34 :: (name.text ++ 34 :: printIndices indices)) := by
    have hfront : ascii "global;\"" = ascii "global;" ++ [34] := by decide +kernel
    rw [pathText, hfront, List.append_assoc, List.singleton_append]
  rw [nameSpaceOf, hsplit, if_pos (List.prefix_append _ _)]
  exact congrArg _ (List.drop_left' (by decide))

theorem quotedPart_pathText (name : PathName) (indices : List PathIndex) :
    quotedPart (pathText name indices) = name.text ++ 34 :: printIndices indices := by
  rw [quotedPart, nameSpaceOf_pathText]
  rfl

theorem name_pathText (name : PathName) (indices : List PathIndex) :
    (quotedPart (pathText name indices)).takeWhile (· ≠ 34) = name.text := by
  rw [quotedPart_pathText]
  exact takeWhile_before name.not_mem.2.1 _

theorem indicesPart_pathText (name : PathName) (indices : List PathIndex) :
    indicesPart (pathText name indices) = printIndices indices := by
  rw [indicesPart, name_pathText, quotedPart_pathText, ← List.drop_drop, List.drop_left]
  rfl

theorem clean_pathText (name : PathName) (indices : List PathIndex) :
    (0 : UInt8) ∉ pathText name indices := by
  have hindex : ∀ i : PathIndex, (0 : UInt8) ∉ i.print := by
    intro i
    cases i with
    | number n =>
        have hdigits : (0 : UInt8) ∉ n.digits :=
          fun h => (digit_plain 0 (n.digit 0 h)).2.2.2.1 rfl
        simp [PathIndex.print, hdigits]
    | key k => simp [PathIndex.print, k.not_mem.1]
  have hindices : (0 : UInt8) ∉ printIndices indices := by
    intro h
    obtain ⟨i, -, hi⟩ := List.mem_flatMap.mp h
    exact hindex i hi
  have hfront : (0 : UInt8) ∉ ascii "global;\"" := by decide +kernel
  simp [pathText, hfront, name.not_mem.1, hindices]

/-- A global variable that is there. -/
theorem lookupName_global {st : Variables} (i : Nat) {name : List UInt8} {array : Nat}
    (h : searchVariable st.memory st.globals name = some array) :
    lookupName st i .global name = (st, ascii "tmp", some array) := by
  rw [lookupName, getGlobalVariable, newVariable, h]

theorem derefVar_array {memory : List WsVar} {array : Nat} {elements : List Nat}
    (h : elementsOf memory array = some elements) : derefVar memory array = array := by
  rw [derefVar, elementsOf_value h]

/-- For every path into a global array, in any memory that the operations on variables make: the
code returns a reference to the element that all indices lead to, or a message if and only if an
index does not exist, exactly if no index but the last one is a number, and this one is small or its
array is, too. -/
theorem parseVariable_path_iff {st : Variables} (i : Nat) (hmade : Made st.memory)
    {name : PathName} {array : Nat} {elements : List Nat}
    (hglobal : searchVariable st.memory st.globals name.text = some array)
    (helements : elementsOf st.memory array = some elements) {indices : List PathIndex}
    (hne : indices ≠ []) (hselects : SelectsArrays st.memory elements indices) :
    (∃ b st' var, PathBytes.parseVariable st i (pathText name indices ++ [0]) = .ok (b, st', var) ∧
        Answers (follow st.memory elements indices) var.value) ↔
      FollowsAll st.memory elements indices := by
  have hquote : (nameSpaceOf (pathText name indices)).2.head? = some 34 := by
    rw [nameSpaceOf_pathText]
    rfl
  have hspace : (nameSpaceOf (pathText name indices)).1 = .global := by
    rw [nameSpaceOf_pathText]
  have hderef := derefVar_array helements
  have hvalue := PathBytes.parseVariable_list st i hquote (by rw [hspace]; decide)
    (name_pathText name indices)
  rw [hspace, lookupName_global i hglobal] at hvalue
  dsimp only at hvalue
  rw [hderef, helements, indicesPart_pathText] at hvalue
  have harray : pathArray st i (pathText name indices) = some (st.memory, elements) := by
    rw [PathBytes.pathArray_eq st i hquote (by rw [hspace]; decide), hspace, name_pathText,
      lookupName_global i hglobal]
    dsimp only
    rw [hderef, helements]
    rfl
  have hbounds : PathInBounds st i (pathText name indices) ↔
      ¬ LongMissing st.memory elements (printIndices indices) := by
    rw [PathInBounds, harray, quotedPart_pathText, indicesPart_pathText]
    constructor
    · exact fun h => (h _ _ rfl).2
    · rintro h _ _ ⟨⟩
      exact ⟨by simp, h⟩
  rw [← arrayLoop_path hmade.owned helements hne hselects (Nat.lt_succ_self _), ← hbounds]
  obtain ⟨hin, hout⟩ := PathBytes.parseVariable_eq st i (clean_pathText name indices)
  constructor
  · rintro ⟨b, st', var, hrun, hanswers⟩
    by_cases hinside : PathInBounds st i (pathText name indices)
    · obtain ⟨b', hrun'⟩ := hin hinside
      rw [hrun', hvalue] at hrun
      cases hrun
      exact ⟨hinside, hanswers⟩
    · obtain ⟨fault, -, herror⟩ := hout hinside
      rw [hrun] at herror
      cases herror
  · rintro ⟨hinside, hanswers⟩
    obtain ⟨b, hrun⟩ := hin hinside
    rw [hvalue] at hrun
    exact ⟨b, _, _, hrun, hanswers⟩

/-- An array `a` with an element `b`, which is an array with an element `c`. -/
def nestedMemory : List WsVar :=
  [{ name := ascii "a", value := .array [1] }, { name := ascii "b", value := .array [2] },
    { name := ascii "c" }]

theorem nestedMemory_made : Made nestedMemory := by
  have hmade := Made.element 1 (some (ascii "c")) false <| Made.array 1 <|
    Made.element 0 (some (ascii "b")) false <| Made.array 0 <| Made.named [] (ascii "a") Made.empty
  obtain ⟨memory, rfl, hmemory⟩ : ∃ memory, memory = nestedMemory ∧ Made memory :=
    ⟨_, by decide +kernel, hmade⟩
  exact hmemory

def nestedVariables : Variables where
  memory := nestedMemory
  sessions := []
  globals := [0]
  requests := fun _ => {}

def nameA : PathName := ⟨ascii "a", by decide +kernel, by decide +kernel⟩

def keyB : PathIndex := .key ⟨ascii "b", by decide +kernel, by decide +kernel⟩

def numberZero : PathIndex := .number ⟨ascii "0", by decide +kernel, by decide +kernel⟩

/-- `global;"a"["b"][0]` -/
theorem parseVariable_path_iff_key :
    ∃ b st' var, PathBytes.parseVariable nestedVariables 0
        (pathText nameA [keyB, numberZero] ++ [0]) = .ok (b, st', var) ∧
      Answers (follow nestedMemory [1] [keyB, numberZero]) var.value :=
  (@parseVariable_path_iff nestedVariables 0 nestedMemory_made nameA 0 [1] (by decide +kernel)
    (by decide +kernel) [keyB, numberZero] (by simp)
    ⟨1, [2], by decide +kernel, by decide +kernel, trivial⟩).mpr
    fun _ _ _ _ => ⟨Or.inl (by decide +kernel), Or.inl (by decide +kernel)⟩

/-- `global;"a"[0][0]` is a reference to `b`. -/
theorem parseVariable_path_fails :
    ¬ ∀ (st : Variables) (i : Nat), Made st.memory → ∀ (name : PathName) (array : Nat)
      (elements : List Nat), searchVariable st.memory st.globals name.text = some array →
      elementsOf st.memory array = some elements → ∀ indices : List PathIndex, indices ≠ [] →
      SelectsArrays st.memory elements indices →
      ∃ b st' var, PathBytes.parseVariable st i (pathText name indices ++ [0]) = .ok (b, st', var) ∧
        Answers (follow st.memory elements indices) var.value := by
  intro hall
  obtain ⟨b, st', var, hrun, hanswers⟩ := hall nestedVariables 0 nestedMemory_made nameA 0 [1]
    (by decide +kernel) (by decide +kernel) [numberZero, numberZero] (by simp)
    ⟨1, [2], by decide +kernel, by decide +kernel, trivial⟩
  obtain ⟨hin, hout⟩ := PathBytes.parseVariable_eq nestedVariables 0
    (clean_pathText nameA [numberZero, numberZero])
  by_cases hinside : PathInBounds nestedVariables 0 (pathText nameA [numberZero, numberZero])
  · obtain ⟨b', hrun'⟩ := hin hinside
    have hvalue : (parseVariable nestedVariables 0
        (pathText nameA [numberZero, numberZero])).2.value = .ref 1 := by decide +kernel
    have hfollow : follow nestedMemory [1] [numberZero, numberZero] = some 2 := by decide +kernel
    obtain ⟨-, hresult⟩ := Prod.mk.inj (Except.ok.inj (hrun.symm.trans hrun'))
    rw [← hresult] at hvalue
    rw [hvalue] at hanswers
    exact absurd (hfollow.symm.trans ((answers_ref _ 1).mp hanswers)) (by decide)
  · obtain ⟨fault, -, herror⟩ := hout hinside
    exact nomatch hrun.symm.trans herror

end CWebUI.Session
