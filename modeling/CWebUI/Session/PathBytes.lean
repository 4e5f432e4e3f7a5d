import CWebUI.Basic.Checked
import CWebUI.Session.ArrayVariables
import CWebUI.Template.Functions

set_option autoImplicit false

/-! # The text of a variable path in memory

`parseVariable` (`engine_parser.c`) on the bytes of its text, which it cuts with null bytes in
place. The text ends with a null byte, and nothing is known about the memory behind that. An access
there, or a text that is copied to a buffer that is too small for it, ends a run. Every other run
has the result of `parseVariable` on lists: the bytes behind the place of a run are never written
before.
-/

namespace CWebUI.Session

open ByteString CWebUI.Http

/-! ## The model -/

/-- What ends a run of `parseVariable`: an access to the text behind its terminator, a copy behind
the end of one of the two buffers, or a loop that goes on without an end. -/
inductive PathFault where
  | text (position : Nat)
  | errorIndex
  | errorBuffer
  | endless
  deriving DecidableEq, Repr

namespace PathBytes

/-- `buffer[p]` -/
def readAt (b : List UInt8) (p : Nat) : Except PathFault UInt8 := Checked.get .text b p

/-- `buffer[p] = '\0'` -/
def cutAt (b : List UInt8) (p : Nat) : Except PathFault (List UInt8) := Checked.put .text b p 0

/-- The string at a place, as `strlen` and the others read it: up to the first null byte. -/
def stringAt (b : List UInt8) (p : Nat) : Except PathFault (List UInt8) :=
  let s := cString (b.drop p)
  if p + s.length < b.length then .ok s else .error (.text (p + s.length))

/-- `for (; i < l; i++) if (buffer[i] == c) break;`, with the number of bytes before `l`. -/
def scanFor (b : List UInt8) (c : UInt8) (p : Nat) : Nat → Nat → Except PathFault Nat
  | 0, i => .ok i
  | n + 1, i => do
      if (← readAt b (p + i)) = c then return i else scanFor b c p n (i + 1)

/-- A copy of a text and its terminator to a buffer. -/
def copyTo (size : Nat) (fault : PathFault) (text : List UInt8) : Except PathFault (List UInt8) :=
  Checked.fit size fault (text.length + 1) text

/-- `char error_index[100]` -/
def errorIndexSize : Nat := 100

/-- `char error_buffer[130]` -/
def errorBufferSize : Nat := 130

/-- The index at the place `p` of an array, with the text cut at its end: the bytes, the place of
the text of the index, and the element. -/
def indexAt (memory : List WsVar) (array : Nat) (b : List UInt8) (p : Nat) :
    Except PathFault (List UInt8 × Nat × Option Nat) := do
  let l := (← stringAt b p).length
  let i ← scanFor b 93 p l 0
  -- without a closing bracket this is the terminator of the text
  let b ← cutAt b (p + i)
  if (← readAt b (p + 1)) = 34 then
    -- whatever stands before the bracket is taken for the closing quote
    let b ← cutAt b (p + 1 + i - 2)
    let name ← stringAt b (p + 2)
    return (b, p + 2, searchVariable memory ((elementsOf memory array).getD []) name)
  else
    let index ← stringAt b (p + 1)
    return (b, p + 1, getWSVariableArrayIndex memory array (UInt32.ofInt (atoi index)))

/-- The loop over the indices behind the name of an array, with the bytes that it leaves. -/
def arrayLoop (memory : List WsVar) (bufferEnd : Nat) :
    Nat → Nat → List UInt8 → Nat → Except PathFault (List UInt8 × WsValue)
  | 0, _, _, _ => .error .endless
  | fuel + 1, array, b, p => do
      if (← readAt b p) = 91 then
        let (b, p, tmp2) ← indexAt memory array b p
        match tmp2 with
        | none =>
            let errorIndex ← copyTo errorIndexSize .errorIndex (← stringAt b p)
            let errorBuffer ← copyTo errorBufferSize .errorBuffer
              ((ascii "ARRAY " ++ (varAt memory array).name ++ ascii " INDEX " ++ errorIndex ++
                ascii " not found").take 129)
            return (b, .string errorBuffer)
        | some element =>
            -- behind a key this is the next byte; behind a number it is the one after that
            let nextIndex := p + ((← stringAt b p).length + 2)
            if nextIndex < bufferEnd then
              if (← readAt b nextIndex) = 91 ∧ (elementsOf memory element).isSome then
                arrayLoop memory bufferEnd fuel element b nextIndex
              else return (b, .ref element)
            else return (b, .ref element)
      else return (b, .ref array)

/-- The length of the text of a name space. -/
def offsetOf : NameSpace → Nat
  | .none => 0
  | .global => 7
  | .render => 7
  | .session => 8
  | .parameter => 10

/-- `parseVariable` on a text with its terminator: the bytes that it leaves, the variables, and the
temporary variable that it returns. -/
def parseVariable (st : Variables) (i : Nat) (b : List UInt8) :
    Except PathFault (List UInt8 × Variables × WsVar) := do
  let text ← stringAt b 0
  let space := (nameSpaceOf text).1
  let offset := offsetOf space
  if (← readAt b offset) = 34 then
    let offset := offset + 1
    let quote ← scanFor b 34 0 (text.length - offset) offset
    let b ← cutAt b quote
    let name ← stringAt b offset
    if space = .none then return (b, st, { name := ascii "tmp", value := .string name })
    else
      match lookupName st i space name with
      | (st, tmp, none) =>
          let errorBuffer ← copyTo errorBufferSize .errorBuffer (notFoundText space name)
          return (b, st, { name := tmp, value := .string errorBuffer })
      | (st, tmp, some id) =>
          let id := derefVar st.memory id
          if (elementsOf st.memory id).isSome then
            -- the end of the text is where it was before the name was cut
            let (b, value) ← arrayLoop st.memory text.length (text.length + 1) id b
              (offset + (name.length + 1))
            return (b, st, { name := tmp, value := value })
          else return (b, st, { name := tmp, value := .ref id })
  else return (b, st, { name := ascii "tmp", value := .int (atoi text) })

/-! ## Reading -/

/-- The bytes from a place on: a string, its terminator, and what is behind that. -/
structure Holds (b : List UInt8) (p : Nat) (text behind : List UInt8) : Prop where
  drop_eq : b.drop p = text ++ 0 :: behind
  clean : (0 : UInt8) ∉ text

variable {b : List UInt8} {p : Nat} {text behind : List UInt8}

theorem Holds.length_eq (h : Holds b p text behind) :
    b.length = p + text.length + 1 + behind.length := by
  have hlength := congrArg List.length h.drop_eq
  rw [List.length_drop, List.length_append, List.length_cons] at hlength
  omega

theorem readAt_eq {k : Nat} {c : UInt8} (h : b.drop p = text) (hk : text[k]? = some c) :
    readAt b (p + k) = .ok c := by
  subst h
  rw [List.getElem?_drop] at hk
  exact Checked.get_eq hk

theorem Holds.stringAt (h : Holds b p text behind) : stringAt b p = .ok text := by
  have hstring : cString (b.drop p) = text := by
    rw [h.drop_eq, cString, List.takeWhile_append_of_pos fun c hc => by
      simpa using fun h0 : c = 0 => h.clean (h0 ▸ hc)]
    simp
  rw [PathBytes.stringAt, hstring, if_pos (by rw [h.length_eq]; omega)]

/-- A part of a string. -/
theorem Holds.suffix {front rest : List UInt8} (h : Holds b p (front ++ rest) behind) :
    Holds b (p + front.length) rest behind := by
  refine ⟨?_, fun h0 => h.clean (List.mem_append_right front h0)⟩
  rw [← List.drop_drop, h.drop_eq, List.append_assoc, List.drop_left]

/-- Where the search for a byte ends: at the first one of its kind, or behind the string. -/
theorem scanFor_eq {front rest : List UInt8} {c : UInt8} (hdrop : b.drop p = front ++ rest)
    (i : Nat) (hi : i ≤ front.length) :
    scanFor b c p (front.length - i) i =
      .ok (i + ((front.drop i).takeWhile (· ≠ c)).length) := by
  -- induction on the bytes that the search has before it
  obtain ⟨n, hn⟩ : ∃ n, front.length - i = n := ⟨_, rfl⟩
  induction n generalizing i with
  | zero =>
      rw [hn, scanFor, List.drop_of_length_le (by omega)]
      rfl
  | succ n ih =>
      have hlt : i < front.length := by omega
      have hread : readAt b (p + i) = .ok front[i] :=
        readAt_eq hdrop (by rw [List.getElem?_append_left hlt, List.getElem?_eq_getElem hlt])
      rw [hn, scanFor, Checked.bind_ok hread, List.drop_eq_getElem_cons hlt, List.takeWhile_cons]
      by_cases hc : front[i] = c
      · rw [if_pos hc, if_neg (by simpa using hc)]
        rfl
      · have hnext := ih (i + 1) (by omega) (by omega)
        rw [show front.length - (i + 1) = n by omega] at hnext
        rw [if_neg hc, if_pos (by simpa using hc), hnext, List.length_cons]
        congr 1
        omega

/-! ## Cutting -/

/-- A byte of a string becomes its end. -/
theorem Holds.cut {front rest : List UInt8} {c : UInt8}
    (h : Holds b p (front ++ c :: rest) behind) :
    Holds (b.set (p + front.length) 0) p front (rest ++ 0 :: behind) := by
  refine ⟨?_, fun h0 => h.clean (List.mem_append_left _ h0)⟩
  rw [List.drop_set, if_neg (by omega), Nat.add_sub_cancel_left, h.drop_eq, List.append_assoc,
    List.set_append_right _ _ (Nat.le_refl _), Nat.sub_self]
  simp

/-- The end of a string is cut where it is. -/
theorem Holds.cutEnd (h : Holds b p text behind) :
    Holds (b.set (p + text.length) 0) p text behind := by
  refine ⟨?_, h.clean⟩
  rw [List.drop_set, if_neg (by omega), Nat.add_sub_cancel_left, h.drop_eq,
    List.set_append_right _ _ (Nat.le_refl _), Nat.sub_self]
  simp

theorem cutAt_eq {k : Nat} (hk : k < b.length) : cutAt b k = .ok (b.set k 0) := Checked.put_eq hk

/-- What is behind a cut stays as it is. -/
theorem drop_cut {k q : Nat} (h : k < q) : (b.set k 0).drop q = b.drop q := by
  rw [List.drop_set, if_pos h]

/-- A string is cut where the search for a byte ends. -/
theorem Holds.cutScan (h : Holds b p text behind) (c : UInt8) :
    ∃ behind', Holds (b.set (p + (text.takeWhile (· ≠ c)).length) 0) p
      (text.takeWhile (· ≠ c)) behind' := by
  have hsplit : text = text.takeWhile (· ≠ c) ++ text.dropWhile (· ≠ c) :=
    List.takeWhile_append_dropWhile.symm
  cases hdrop : text.dropWhile (· ≠ c) with
  | nil =>
      -- no such byte: the terminator is written once more
      rw [hdrop, List.append_nil] at hsplit
      rw [← hsplit]
      exact ⟨_, h.cutEnd⟩
  | cons d rest =>
      rw [hdrop] at hsplit
      rw [hsplit] at h
      exact ⟨_, h.cut⟩

/-! ## One index -/

theorem elementAt_key {memory : List WsVar} {elements : List Nat} {text quoted : List UInt8}
    (h : (text.drop 1).takeWhile (· ≠ 93) = 34 :: quoted) :
    elementAt memory elements text =
      (searchVariable memory elements quoted.dropLast, quoted.dropLast,
        text.drop (quoted.dropLast.length + 4)) := by
  rw [elementAt, h]
  rfl

theorem elementAt_number {memory : List WsVar} {elements : List Nat} {text : List UInt8}
    (h : ((text.drop 1).takeWhile (· ≠ 93)).head? ≠ some 34) :
    elementAt memory elements text =
      (elements[(atoi ((text.drop 1).takeWhile (· ≠ 93)) % 2 ^ 32).toNat]?,
        (text.drop 1).takeWhile (· ≠ 93),
        text.drop (((text.drop 1).takeWhile (· ≠ 93)).length + 3)) := by
  rw [elementAt]
  dsimp only
  split
  · next quoted heq =>
    rw [heq] at h
    exact absurd rfl h
  · rfl

theorem toNat_ofInt (n : Int) : (UInt32.ofInt n).toNat = (n % 2 ^ 32).toNat := by
  rw [UInt32.ofInt, UInt32.toNat_ofNat']
  exact Nat.mod_eq_of_lt (by omega)

/-- What an index does: its element is that of the list, the string at the place that it leaves is
its text, and the bytes from the next place on are those that were there. -/
structure IndexRun (b b' : List UInt8) (p p' : Nat) (text index rest : List UInt8) : Prop where
  string : stringAt b' p' = .ok index
  next : ∃ k, 0 < k ∧ rest = text.drop k ∧ p' + (index.length + 2) = p + k ∧
    b'.drop (p + k) = b.drop (p + k)

/-- The search for the end of an index, and the first cut. -/
theorem index_cut {t : List UInt8} (h : Holds b p (91 :: t) behind) :
    scanFor b 93 p (91 :: t).length 0 = .ok (91 :: t.takeWhile (· ≠ 93)).length ∧
      cutAt b (p + (91 :: t.takeWhile (· ≠ 93)).length) =
        .ok (b.set (p + (91 :: t.takeWhile (· ≠ 93)).length) 0) ∧
      ∃ behind', Holds (b.set (p + (91 :: t.takeWhile (· ≠ 93)).length) 0) p
        (91 :: t.takeWhile (· ≠ 93)) behind' := by
  have hwhile : (91 :: t).takeWhile (· ≠ 93) = 91 :: t.takeWhile (· ≠ 93) := by simp
  have hlength : (t.takeWhile (· ≠ 93)).length ≤ t.length :=
    (List.takeWhile_sublist _).length_le
  have hscan := @scanFor_eq b p (91 :: t) (0 :: behind) 93 h.drop_eq 0 (Nat.zero_le _)
  have hcut := h.cutScan 93
  rw [List.drop_zero, hwhile, Nat.sub_zero, Nat.zero_add] at hscan
  rw [hwhile] at hcut
  refine ⟨hscan, cutAt_eq ?_, hcut⟩
  rw [h.length_eq, List.length_cons, List.length_cons]
  omega

theorem indexAt_number {memory : List WsVar} {array : Nat} {elements : List Nat}
    (helements : elementsOf memory array = some elements) {t : List UInt8}
    (h : Holds b p (91 :: t) behind) (hnumber : (t.takeWhile (· ≠ 93)).head? ≠ some 34) :
    ∃ b' p', indexAt memory array b p =
        .ok (b', p', elements[(atoi (t.takeWhile (· ≠ 93)) % 2 ^ 32).toNat]?) ∧
      IndexRun b b' p p' (91 :: t) (t.takeWhile (· ≠ 93))
        ((91 :: t).drop ((t.takeWhile (· ≠ 93)).length + 3)) := by
  obtain ⟨hscan, hcut, behind', hholds⟩ := index_cut h
  generalize t.takeWhile (· ≠ 93) = inner at *
  have hindex : Holds (b.set (p + (91 :: inner).length) 0) (p + 1) inner behind' :=
    @Holds.suffix _ p behind' [91] inner hholds
  obtain ⟨c, hread, hc⟩ : ∃ c, readAt (b.set (p + (91 :: inner).length) 0) (p + 1) = .ok c ∧
      c ≠ 34 := by
    cases inner with
    -- an empty index: the byte behind the bracket is the one that was cut
    | nil => exact ⟨0, readAt_eq (k := 0) hindex.drop_eq rfl, by decide⟩
    | cons c inner =>
        exact ⟨c, readAt_eq (k := 0) hindex.drop_eq rfl, fun heq => hnumber (heq ▸ rfl)⟩
  refine ⟨_, p + 1, ?_, hindex.stringAt, inner.length + 3, by omega, rfl, by omega, ?_⟩
  · rw [indexAt, Checked.bind_ok h.stringAt, Checked.bind_ok hscan, Checked.bind_ok hcut,
      Checked.bind_ok hread, if_neg hc, Checked.bind_ok hindex.stringAt,
      getWSVariableArrayIndex_eq helements, toNat_ofInt]
    rfl
  · exact drop_cut (by rw [List.length_cons]; omega)

/-- The closing quote of a key is cut. If there is none, the opening one is. -/
theorem key_cut {quoted : List UInt8} (h : Holds b p (91 :: 34 :: quoted) behind) :
    ∃ behind', Holds (b.set (p + 1 + quoted.length) 0) (p + 2) quoted.dropLast behind' := by
  rcases List.eq_nil_or_concat' quoted with rfl | ⟨name, c, rfl⟩
  · have hcut : Holds (b.set (p + 1) 0) p [91] (0 :: behind) := @Holds.cut b p behind [91] [] 34 h
    refine ⟨behind, ?_, List.not_mem_nil⟩
    change (b.set (p + 1) 0).drop (p + 2) = 0 :: behind
    rw [← List.drop_drop, hcut.drop_eq]
    rfl
  · have hcut := @Holds.cut b p behind (91 :: 34 :: name) [] c h
    rw [List.dropLast_concat,
      show p + 1 + (name ++ [c]).length = p + (91 :: 34 :: name).length by simp; omega]
    exact ⟨_, @Holds.suffix _ p _ [91, 34] name hcut⟩

theorem indexAt_key {memory : List WsVar} {array : Nat} {elements : List Nat}
    (helements : elementsOf memory array = some elements) {t quoted : List UInt8}
    (h : Holds b p (91 :: t) behind) (hquote : t.takeWhile (· ≠ 93) = 34 :: quoted) :
    ∃ b' p', indexAt memory array b p =
        .ok (b', p', searchVariable memory elements quoted.dropLast) ∧
      IndexRun b b' p p' (91 :: t) quoted.dropLast
        ((91 :: t).drop (quoted.dropLast.length + 4)) := by
  obtain ⟨hscan, hcut, behind', hholds⟩ := index_cut h
  rw [hquote] at hscan hcut hholds
  have hdrop : ∀ q, p + quoted.length + 2 < q →
      (b.set (p + (91 :: 34 :: quoted).length) 0).drop q = b.drop q :=
    fun q hq => drop_cut (by rw [List.length_cons, List.length_cons]; omega)
  generalize b.set (p + (91 :: 34 :: quoted).length) 0 = b₁ at *
  have hread : readAt b₁ (p + 1) = .ok 34 := readAt_eq hholds.drop_eq rfl
  obtain ⟨behind'', hname⟩ := key_cut hholds
  have hlength := hholds.length_eq
  rw [List.length_cons, List.length_cons] at hlength
  have hcut' : cutAt b₁ (p + 1 + (91 :: 34 :: quoted).length - 2) =
      .ok (b₁.set (p + 1 + quoted.length) 0) := by
    rw [show p + 1 + (91 :: 34 :: quoted).length - 2 = p + 1 + quoted.length by
      rw [List.length_cons, List.length_cons]; omega]
    exact cutAt_eq (by omega)
  have hshort := quoted.length_dropLast
  refine ⟨_, p + 2, ?_, hname.stringAt, quoted.dropLast.length + 4, by omega, rfl, by omega, ?_⟩
  · rw [indexAt, Checked.bind_ok h.stringAt, Checked.bind_ok hscan, Checked.bind_ok hcut,
      Checked.bind_ok hread, if_pos rfl, Checked.bind_ok hcut', Checked.bind_ok hname.stringAt,
      helements]
    rfl
  · rw [drop_cut (by omega), hdrop _ (by omega)]

/-- An index of the text in memory is the index of the list. -/
theorem indexAt_eq {memory : List WsVar} {array : Nat} {elements : List Nat}
    (helements : elementsOf memory array = some elements) {text : List UInt8}
    (h : Holds b p text behind) (hopen : text.head? = some 91) :
    ∃ b' p', indexAt memory array b p = .ok (b', p', (elementAt memory elements text).1) ∧
      IndexRun b b' p p' text (elementAt memory elements text).2.1
        (elementAt memory elements text).2.2 := by
  obtain ⟨t, rfl⟩ := List.head?_eq_some_iff.mp hopen
  by_cases hhead : (t.takeWhile (· ≠ 93)).head? = some 34
  · obtain ⟨quoted, hquote⟩ := List.head?_eq_some_iff.mp hhead
    rw [@elementAt_key memory elements (91 :: t) quoted hquote]
    exact indexAt_key helements h hquote
  · rw [@elementAt_number memory elements (91 :: t) hhead]
    exact indexAt_number helements h hhead

/-! ## The loop over the indices -/

end PathBytes

/-- An index of the path is not in its array, and is too long for `error_index`. -/
inductive LongMissing (memory : List WsVar) : List Nat → List UInt8 → Prop where
  | here {elements : List Nat} {text : List UInt8} (hopen : text.head? = some 91)
      (hmissing : (elementAt memory elements text).1 = none)
      (hlong : PathBytes.errorIndexSize ≤ (elementAt memory elements text).2.1.length) :
      LongMissing memory elements text
  | behind {elements inner : List Nat} {text : List UInt8} {element : Nat}
      (hopen : text.head? = some 91) (hfound : (elementAt memory elements text).1 = some element)
      (hinner : elementsOf memory element = some inner)
      (hrest : LongMissing memory inner (elementAt memory elements text).2.2) :
      LongMissing memory elements text

section

variable {memory : List WsVar} {elements : List Nat} {text : List UInt8}

theorem LongMissing.head (h : LongMissing memory elements text) : text.head? = some 91 := by
  cases h with
  | here hopen _ _ => exact hopen
  | behind hopen _ _ _ => exact hopen

theorem LongMissing.missing_iff (hopen : text.head? = some 91)
    (hmissing : (elementAt memory elements text).1 = none) :
    LongMissing memory elements text ↔
      PathBytes.errorIndexSize ≤ (elementAt memory elements text).2.1.length := by
  constructor
  · intro h
    cases h with
    | here _ _ hlong => exact hlong
    | behind _ hfound _ _ => exact absurd (hmissing.symm.trans hfound) (by simp)
  · exact fun hlong => .here hopen hmissing hlong

theorem LongMissing.found_iff (hopen : text.head? = some 91) {element : Nat}
    (hfound : (elementAt memory elements text).1 = some element) :
    LongMissing memory elements text ↔ ∃ inner, elementsOf memory element = some inner ∧
      LongMissing memory inner (elementAt memory elements text).2.2 := by
  constructor
  · intro h
    cases h with
    | here _ hmissing _ => exact absurd (hmissing.symm.trans hfound) (by simp)
    | behind _ hfound' hinner hrest =>
        cases hfound.symm.trans hfound'
        exact ⟨_, hinner, hrest⟩
  · exact fun ⟨inner, hinner, hrest⟩ => .behind hopen hfound hinner hrest

end

namespace PathBytes

variable {b : List UInt8} {p : Nat} {text behind : List UInt8}

/-- Where a text does not start with a bracket, none is read. -/
theorem head_ne {text : List UInt8} (h : text.head? ≠ some 91) : text.head?.getD 0 ≠ 91 := by
  cases text with
  | nil => decide
  | cons c text => exact fun heq => h (congrArg some heq)

/-- The byte at a place: that of the string, or its terminator. -/
theorem Holds.readAt (h : Holds b p text behind) : readAt b p = .ok (text.head?.getD 0) := by
  refine readAt_eq (k := 0) h.drop_eq ?_
  cases text <;> rfl

section

variable {memory : List WsVar} {bufferEnd fuel array : Nat}

theorem arrayLoop_stop {c : UInt8} (hread : readAt b p = .ok c) (hc : c ≠ 91) :
    arrayLoop memory bufferEnd (fuel + 1) array b p = .ok (b, .ref array) := by
  rw [arrayLoop, Checked.bind_ok hread, if_neg hc]
  rfl

theorem copyTo_eq {size : Nat} {fault : PathFault} {text : List UInt8} (h : text.length < size) :
    copyTo size fault text = .ok text := Checked.fit_eq h

theorem copyTo_long {size : Nat} {fault : PathFault} {text : List UInt8} (h : size ≤ text.length) :
    copyTo size fault text = .error fault := Checked.fit_long (Nat.lt_succ_of_le h)

theorem arrayLoop_missing {b' : List UInt8} {p' : Nat} {index : List UInt8}
    (hread : readAt b p = .ok 91) (hindex : indexAt memory array b p = .ok (b', p', none))
    (hstring : stringAt b' p' = .ok index) :
    arrayLoop memory bufferEnd (fuel + 1) array b p =
      if index.length < errorIndexSize then
        .ok (b', .string ((ascii "ARRAY " ++ (varAt memory array).name ++ ascii " INDEX " ++
          index ++ ascii " not found").take 129))
      else .error .errorIndex := by
  have hmessage := @copyTo_eq errorBufferSize .errorBuffer ((ascii "ARRAY " ++
    (varAt memory array).name ++ ascii " INDEX " ++ index ++ ascii " not found").take 129)
    (Nat.lt_succ_of_le (List.length_take_le 129 _))
  rw [arrayLoop, Checked.bind_ok hread, if_pos rfl, Checked.bind_ok hindex]
  dsimp only
  rw [Checked.bind_ok hstring]
  by_cases hlong : index.length < errorIndexSize
  · rw [Checked.bind_ok (copyTo_eq hlong), if_pos hlong, Checked.bind_ok hmessage]
    rfl
  · rw [Checked.bind_error (copyTo_long (Nat.le_of_not_lt hlong)), if_neg hlong]

theorem arrayLoop_last {b' : List UInt8} {p' element : Nat} {index : List UInt8}
    (hread : readAt b p = .ok 91) (hindex : indexAt memory array b p = .ok (b', p', some element))
    (hstring : stringAt b' p' = .ok index) (hend : bufferEnd ≤ p' + (index.length + 2)) :
    arrayLoop memory bufferEnd (fuel + 1) array b p = .ok (b', .ref element) := by
  rw [arrayLoop, Checked.bind_ok hread, if_pos rfl, Checked.bind_ok hindex]
  dsimp only
  rw [Checked.bind_ok hstring, if_neg (Nat.not_lt.mpr hend)]
  rfl

theorem arrayLoop_next {b' : List UInt8} {p' element : Nat} {index : List UInt8} {c : UInt8}
    (hread : readAt b p = .ok 91) (hindex : indexAt memory array b p = .ok (b', p', some element))
    (hstring : stringAt b' p' = .ok index) (hend : p' + (index.length + 2) < bufferEnd)
    (hnext : readAt b' (p' + (index.length + 2)) = .ok c) :
    arrayLoop memory bufferEnd (fuel + 1) array b p =
      if c = 91 ∧ (elementsOf memory element).isSome then
        arrayLoop memory bufferEnd fuel element b' (p' + (index.length + 2))
      else .ok (b', .ref element) := by
  rw [arrayLoop, Checked.bind_ok hread, if_pos rfl, Checked.bind_ok hindex]
  dsimp only
  rw [Checked.bind_ok hstring, if_pos hend, Checked.bind_ok hnext]
  rfl

end

/-- The string at the next place, if that is before the end. -/
theorem Holds.next {b' : List UInt8} {k : Nat} (h : Holds b p text [])
    (hdrop : b'.drop (p + k) = b.drop (p + k)) (hk : k ≤ text.length) :
    Holds b' (p + k) (text.drop k) [] := by
  refine ⟨?_, fun h0 => h.clean (List.mem_of_mem_drop h0)⟩
  rw [hdrop, ← List.drop_drop, h.drop_eq, List.drop_append_of_le_length hk]

/-- The loop over the indices on the bytes of a text is that on lists, unless an index that is not
there is too long. -/
theorem arrayLoop_eq {memory : List WsVar} {bufferEnd fuel fuel' : Nat} {array : Nat}
    {elements : List Nat} (helements : elementsOf memory array = some elements)
    (h : Holds b p text []) (hend : bufferEnd = p + text.length) (hfuel : text.length < fuel)
    (hfuel' : text.length < fuel') :
    (LongMissing memory elements text →
        arrayLoop memory bufferEnd fuel array b p = .error .errorIndex) ∧
      (¬ LongMissing memory elements text →
        ∃ b', arrayLoop memory bufferEnd fuel array b p =
          .ok (b', Session.arrayLoop memory fuel' array elements text)) := by
  induction fuel generalizing fuel' array elements b p text with
  | zero => omega
  | succ fuel ih =>
      obtain ⟨fuel', rfl⟩ : ∃ n, fuel' = n + 1 := ⟨fuel' - 1, by omega⟩
      by_cases hopen : text.head? = some 91
      · have hread : PathBytes.readAt b p = .ok 91 := by
          rw [h.readAt, hopen]
          rfl
        obtain ⟨b', p', hindex, hrun⟩ := indexAt_eq helements h hopen
        rw [Session.arrayLoop, if_pos hopen]
        rcases hat : elementAt memory elements text with ⟨_ | element, index, rest⟩
        · rw [hat] at hindex hrun
          dsimp only at hindex hrun
          rw [LongMissing.missing_iff hopen (by rw [hat]), hat,
            arrayLoop_missing hread hindex hrun.string]
          constructor
          · exact fun hlong => if_neg (Nat.not_lt.mpr hlong)
          · exact fun hshort => ⟨b', if_pos (Nat.not_le.mp hshort)⟩
        · rw [hat] at hindex hrun
          dsimp only at hindex hrun
          rw [LongMissing.found_iff hopen (by rw [hat]), hat]
          obtain ⟨k, hk, rfl, hnext, hdrop⟩ := hrun.next
          dsimp only
          by_cases hbefore : k < text.length
          · have hholds := h.next hdrop hbefore.le
            have hreadNext := hholds.readAt
            rw [← hnext] at hreadNext
            rw [@arrayLoop_next b p memory bufferEnd fuel array b' p' element index _ hread hindex
              hrun.string (by omega) hreadNext, hnext]
            cases hinner : elementsOf memory element with
            | none =>
                -- the element is no array, so both loops end with a reference to it
                rw [if_neg fun hand => nomatch hand.2]
                refine ⟨fun ⟨_, hsome, _⟩ => absurd hsome (by simp), fun _ => ⟨b', ?_⟩⟩
                split
                · next hsome => cases hsome
                · rfl
            | some inner =>
                by_cases hhead : (text.drop k).head? = some 91
                · have hlength : (text.drop k).length = text.length - k := List.length_drop
                  obtain ⟨hlong, hshort⟩ := @ih b' (p + k) (text.drop k) fuel' element inner hinner
                    hholds (by omega) (by omega) (by omega)
                  rw [hhead, if_pos ⟨rfl, rfl⟩]
                  constructor
                  · rintro ⟨_, ⟨rfl⟩, hmissing⟩
                    exact hlong hmissing
                  · exact fun hnot => hshort fun hmissing => hnot ⟨inner, rfl, hmissing⟩
                · rw [if_neg fun hand => head_ne hhead hand.1]
                  refine ⟨fun ⟨_, _, hmissing⟩ => absurd hmissing.head hhead, fun _ => ⟨b', ?_⟩⟩
                  split
                  · next hsome _ => exact absurd hsome hhead
                  · rfl
          · -- the index was the last one: the code does not read behind the end of the text
            have hdropNil : text.drop k = [] := List.drop_of_length_le (by omega)
            rw [arrayLoop_last hread hindex hrun.string (by omega), hdropNil]
            constructor
            · rintro ⟨_, _, hmissing⟩
              exact absurd hmissing.head (by simp)
            · exact fun _ => ⟨b', rfl⟩
      · rw [Session.arrayLoop, if_neg hopen]
        exact ⟨fun hlong => absurd hlong.head hopen,
          fun _ => ⟨b, arrayLoop_stop h.readAt (head_ne hopen)⟩⟩

/-! ## The name -/

end PathBytes

/-- The array whose name a path starts with: the variables, and its elements. -/
def pathArray (st : Variables) (i : Nat) (text : List UInt8) : Option (List WsVar × List Nat) :=
  let (space, rest) := nameSpaceOf text
  if rest.head? = some 34 ∧ space ≠ .none then
    match lookupName st i space ((rest.drop 1).takeWhile (· ≠ 34)) with
    | (st, _, some id) => (elementsOf st.memory (derefVar st.memory id)).map (st.memory, ·)
    | (_, _, none) => none
  else none

/-- What stands behind the opening quote of the name of a path. -/
def quotedPart (text : List UInt8) : List UInt8 := (nameSpaceOf text).2.drop 1

/-- What stands behind the name of a path: its indices. -/
def indicesPart (text : List UInt8) : List UInt8 :=
  (quotedPart text).drop (((quotedPart text).takeWhile (· ≠ 34)).length + 1)

namespace PathBytes

theorem nameSpaceOf_spec (text : List UInt8) :
    (nameSpaceOf text).2 = text.drop (offsetOf (nameSpaceOf text).1) ∧
      offsetOf (nameSpaceOf text).1 ≤ text.length := by
  unfold nameSpaceOf
  split_ifs with h1 h2 h3 h4
  · exact ⟨rfl, h1.length_le⟩
  · exact ⟨rfl, h2.length_le⟩
  · exact ⟨rfl, h3.length_le⟩
  · exact ⟨rfl, h4.length_le⟩
  · exact ⟨rfl, Nat.zero_le _⟩

/-- A text with its terminator. -/
theorem holds_drop {text : List UInt8} (hclean : (0 : UInt8) ∉ text) {offset : Nat}
    (hoffset : offset ≤ text.length) :
    Holds (text ++ [0]) offset (text.drop offset) [] :=
  ⟨List.drop_append_of_le_length hoffset, fun h => hclean (List.mem_of_mem_drop h)⟩

/-- The search for the end of the name, and the cut behind it. -/
theorem name_cut {text : List UInt8} (hclean : (0 : UInt8) ∉ text) {offset : Nat}
    (hoffset : offset ≤ text.length) {name : List UInt8}
    (hname : (text.drop offset).takeWhile (· ≠ 34) = name) :
    scanFor (text ++ [0]) 34 0 (text.length - offset) offset = .ok (offset + name.length) ∧
      cutAt (text ++ [0]) (offset + name.length) =
        .ok ((text ++ [0]).set (offset + name.length) 0) ∧
      stringAt ((text ++ [0]).set (offset + name.length) 0) offset = .ok name := by
  subst hname
  have hholds := holds_drop hclean hoffset
  have hscan := @scanFor_eq (text ++ [0]) 0 text [0] 34 List.drop_zero offset hoffset
  have hshort : ((text.drop offset).takeWhile (· ≠ 34)).length ≤ (text.drop offset).length :=
    (List.takeWhile_sublist _).length_le
  obtain ⟨behind, hcut⟩ := hholds.cutScan 34
  refine ⟨hscan, cutAt_eq ?_, hcut.stringAt⟩
  rw [hholds.length_eq]
  omega

/-- What the code does behind the name, on lists. -/
theorem parseVariable_list (st : Variables) (i : Nat) {text : List UInt8}
    (hquote : (nameSpaceOf text).2.head? = some 34) (hspace : (nameSpaceOf text).1 ≠ .none)
    {name : List UInt8} (hname : (quotedPart text).takeWhile (· ≠ 34) = name) :
    Session.parseVariable st i text =
      match lookupName st i (nameSpaceOf text).1 name with
      | (st, tmp, none) =>
          (st, { name := tmp, value := .string (notFoundText (nameSpaceOf text).1 name) })
      | (st, tmp, some id) =>
          match elementsOf st.memory (derefVar st.memory id) with
          | some elements =>
              (st, { name := tmp,
                     value := Session.arrayLoop st.memory ((indicesPart text).length + 1)
                       (derefVar st.memory id) elements (indicesPart text) })
          | none => (st, { name := tmp, value := .ref (derefVar st.memory id) }) := by
  have hindices : (nameSpaceOf text).2.drop (name.length + 2) = indicesPart text := by
    rw [indicesPart, hname, quotedPart, List.drop_drop]
    congr 1
    omega
  rw [quotedPart] at hname
  rw [Session.parseVariable]
  generalize hfront : nameSpaceOf text = front at *
  obtain ⟨space, rest⟩ := front
  dsimp only at *
  rw [if_pos hquote, hname, ← hindices]
  obtain ⟨st', tmp, _ | id⟩ := lookupName st i space name
  · exact if_neg hspace
  · dsimp only
    cases elementsOf st'.memory (derefVar st'.memory id) <;> exact if_neg hspace

/-- The place behind the opening quote of the name. -/
theorem quotedPart_eq {text : List UInt8} (hquote : (nameSpaceOf text).2.head? = some 34) :
    text.drop (offsetOf (nameSpaceOf text).1 + 1) = quotedPart text ∧
      offsetOf (nameSpaceOf text).1 + 1 ≤ text.length := by
  obtain ⟨hrest, -⟩ := nameSpaceOf_spec text
  obtain ⟨quoted, hquoted⟩ := List.head?_eq_some_iff.mp hquote
  have hlength := congrArg List.length (hrest.symm.trans hquoted)
  rw [List.length_drop, List.length_cons] at hlength
  refine ⟨?_, by omega⟩
  rw [quotedPart, hrest, List.drop_drop]

/-- A run of `parseVariable` up to the name of a variable. -/
theorem parseVariable_name (st : Variables) (i : Nat) {text : List UInt8}
    (hclean : (0 : UInt8) ∉ text) (hquote : (nameSpaceOf text).2.head? = some 34)
    (hspace : (nameSpaceOf text).1 ≠ .none) {offset : Nat}
    (hoffset : offset = offsetOf (nameSpaceOf text).1 + 1) {name : List UInt8}
    (hname : (quotedPart text).takeWhile (· ≠ 34) = name) :
    parseVariable st i (text ++ [0]) =
      match lookupName st i (nameSpaceOf text).1 name with
      | (st, tmp, none) =>
          .ok ((text ++ [0]).set (offset + name.length) 0, st,
            { name := tmp, value := .string (notFoundText (nameSpaceOf text).1 name) })
      | (st, tmp, some id) =>
          if (elementsOf st.memory (derefVar st.memory id)).isSome then do
            let (b, value) ← arrayLoop st.memory text.length (text.length + 1)
              (derefVar st.memory id) ((text ++ [0]).set (offset + name.length) 0)
              (offset + (name.length + 1))
            return (b, st, { name := tmp, value := value })
          else
            .ok ((text ++ [0]).set (offset + name.length) 0, st,
              { name := tmp, value := .ref (derefVar st.memory id) }) := by
  obtain ⟨hrest, hle⟩ := nameSpaceOf_spec text
  have hall : Holds (text ++ [0]) 0 text [] := holds_drop hclean (Nat.zero_le _)
  have hfront := holds_drop hclean hle
  rw [← hrest] at hfront
  have hread : readAt (text ++ [0]) (offsetOf (nameSpaceOf text).1) = .ok 34 := by
    rw [hfront.readAt, hquote]
    rfl
  obtain ⟨hpart, hlt⟩ := quotedPart_eq hquote
  rw [← hoffset] at hpart hlt
  rw [← hpart] at hname
  obtain ⟨hscan, hcut, hstring⟩ := name_cut hclean hlt hname
  rw [parseVariable, Checked.bind_ok hall.stringAt]
  dsimp only
  rw [Checked.bind_ok hread, if_pos rfl, ← hoffset, Checked.bind_ok hscan, Checked.bind_ok hcut,
    Checked.bind_ok hstring, if_neg hspace]
  obtain ⟨st', tmp, _ | id⟩ := lookupName st i (nameSpaceOf text).1 name
  · have hshort : (notFoundText (nameSpaceOf text).1 name).length ≤ 99 := List.length_take_le _ _
    exact Checked.bind_ok (copyTo_eq (Nat.lt_of_le_of_lt hshort (by decide)))
  · rfl

/-- The place behind the name: that of the indices, or behind the terminator. -/
theorem behindName {text : List UInt8} (hclean : (0 : UInt8) ∉ text) {offset : Nat}
    (hoffset : offset ≤ text.length) (hpart : text.drop offset = quotedPart text)
    {name : List UInt8} (hname : (quotedPart text).takeWhile (· ≠ 34) = name) :
    (34 ∈ quotedPart text →
        Holds ((text ++ [0]).set (offset + name.length) 0) (offset + (name.length + 1))
          (indicesPart text) [] ∧
        text.length = offset + (name.length + 1) + (indicesPart text).length) ∧
      (34 ∉ quotedPart text → offset + (name.length + 1) = (text ++ [0]).length) := by
  have hlength := congrArg List.length hpart
  rw [List.length_drop] at hlength
  constructor
  · intro hquote
    have hsplit : name ++ (quotedPart text).dropWhile (· ≠ 34) = quotedPart text :=
      hname ▸ List.takeWhile_append_dropWhile
    have hne : (quotedPart text).dropWhile (· ≠ 34) ≠ [] := by
      intro hnil
      rw [List.dropWhile_eq_nil_iff] at hnil
      exact absurd (hnil 34 hquote) (by simp)
    have hlt : name.length < (quotedPart text).length := by
      have hparts := congrArg List.length hsplit
      rw [List.length_append] at hparts
      have hpos := List.length_pos_of_ne_nil hne
      omega
    have hle : offset + (name.length + 1) ≤ text.length := by omega
    have hindices : indicesPart text = text.drop (offset + (name.length + 1)) := by
      rw [indicesPart, hname, ← hpart, List.drop_drop]
    have hholds := holds_drop hclean hle
    rw [hindices]
    refine ⟨⟨?_, hholds.clean⟩, by rw [List.length_drop]; omega⟩
    rw [drop_cut (by omega)]
    exact hholds.drop_eq
  · intro hquote
    have hall : (quotedPart text).takeWhile (· ≠ 34) = quotedPart text := by
      rw [List.takeWhile_eq_self_iff]
      intro c hc
      simpa using fun heq : c = 34 => hquote (heq ▸ hc)
    rw [← hname, hall, List.length_append, List.length_singleton]
    omega

/-- Behind the terminator, the loop over the indices reads. -/
theorem arrayLoop_outside {memory : List WsVar} {bufferEnd fuel array : Nat} {b : List UInt8}
    (fault : Nat) (h : fault = b.length) :
    arrayLoop memory bufferEnd (fuel + 1) array b fault = .error (.text fault) := by
  rw [arrayLoop]
  exact Checked.bind_error (Checked.get_outside h.ge)

end PathBytes

/-- The condition for a path to be parsed in bounds: if it starts with the name of an array, then
the name has its closing quote, and an index that is not there fits into `error_index`. -/
def PathInBounds (st : Variables) (i : Nat) (text : List UInt8) : Prop :=
  ∀ memory elements, pathArray st i text = some (memory, elements) →
    34 ∈ quotedPart text ∧ ¬ LongMissing memory elements (indicesPart text)

namespace PathBytes

theorem pathArray_eq (st : Variables) (i : Nat) {text : List UInt8}
    (hquote : (nameSpaceOf text).2.head? = some 34) (hspace : (nameSpaceOf text).1 ≠ .none) :
    pathArray st i text =
      match lookupName st i (nameSpaceOf text).1 ((quotedPart text).takeWhile (· ≠ 34)) with
      | (st, _, some id) => (elementsOf st.memory (derefVar st.memory id)).map (st.memory, ·)
      | (_, _, none) => none := by
  rw [quotedPart, pathArray]
  generalize nameSpaceOf text = front at *
  obtain ⟨space, rest⟩ := front
  dsimp only at *
  rw [if_pos ⟨hquote, hspace⟩]

/-- A number, or a text in quotes. -/
theorem parseVariable_other (st : Variables) (i : Nat) {text : List UInt8}
    (hclean : (0 : UInt8) ∉ text)
    (h : ¬ ((nameSpaceOf text).2.head? = some 34 ∧ (nameSpaceOf text).1 ≠ .none)) :
    ∃ b, parseVariable st i (text ++ [0]) = .ok (b, Session.parseVariable st i text) := by
  obtain ⟨hrest, hle⟩ := nameSpaceOf_spec text
  have hall : Holds (text ++ [0]) 0 text [] := holds_drop hclean (Nat.zero_le _)
  have hfront := holds_drop hclean hle
  rw [← hrest] at hfront
  have hread := hfront.readAt
  rw [parseVariable, Checked.bind_ok hall.stringAt, Session.parseVariable]
  dsimp only
  rw [Checked.bind_ok hread]
  by_cases hquote : (nameSpaceOf text).2.head? = some 34
  · have hspace : (nameSpaceOf text).1 = .none := by
      by_contra hne
      exact h ⟨hquote, hne⟩
    obtain ⟨hpart, hlt⟩ := quotedPart_eq hquote
    generalize hname : (quotedPart text).takeWhile (· ≠ 34) = name
    rw [← hpart] at hname
    obtain ⟨hscan, hcut, hstring⟩ := name_cut hclean hlt hname
    refine ⟨(text ++ [0]).set (offsetOf (nameSpaceOf text).1 + 1 + name.length) 0, ?_⟩
    rw [hquote, Option.getD_some, if_pos rfl, Checked.bind_ok hscan, Checked.bind_ok hcut,
      Checked.bind_ok hstring, if_pos hspace]
    rw [if_pos rfl, if_pos hspace]
    rw [hpart, quotedPart] at hname
    rw [hname]
    rfl
  · have hc : (nameSpaceOf text).2.head?.getD 0 ≠ 34 := by
      cases hhead : (nameSpaceOf text).2.head? with
      | none => decide
      | some c => exact fun heq => hquote (hhead.trans (congrArg some heq))
    refine ⟨text ++ [0], ?_⟩
    rw [if_neg hc, if_neg hquote]
    rfl

/-- A run of `parseVariable` on the bytes of a text: if the path is in bounds, it has the result of
`parseVariable` on lists; otherwise it ends in an access out of bounds. -/
theorem parseVariable_eq (st : Variables) (i : Nat) {text : List UInt8}
    (hclean : (0 : UInt8) ∉ text) :
    (PathInBounds st i text → ∃ b, parseVariable st i (text ++ [0]) =
        .ok (b, Session.parseVariable st i text)) ∧
      (¬ PathInBounds st i text → ∃ fault, fault ≠ .endless ∧
        parseVariable st i (text ++ [0]) = .error fault) := by
  by_cases hname : (nameSpaceOf text).2.head? = some 34 ∧ (nameSpaceOf text).1 ≠ .none
  · obtain ⟨hquote, hspace⟩ := hname
    obtain ⟨hpart, hlt⟩ := quotedPart_eq hquote
    generalize hoffset : offsetOf (nameSpaceOf text).1 + 1 = offset at hpart hlt
    obtain ⟨hinside, houtside⟩ := behindName hclean hlt hpart rfl
    rw [PathInBounds, pathArray_eq st i hquote hspace,
      parseVariable_name st i hclean hquote hspace hoffset.symm rfl,
      parseVariable_list st i hquote hspace rfl]
    obtain ⟨st', tmp, _ | id⟩ := lookupName st i (nameSpaceOf text).1
      ((quotedPart text).takeWhile (· ≠ 34))
    · exact ⟨fun _ => ⟨_, rfl⟩, fun hnot => absurd (fun _ _ hnone => nomatch hnone) hnot⟩
    · dsimp only
      cases helements : elementsOf st'.memory (derefVar st'.memory id) with
      | none =>
          exact ⟨fun _ => ⟨_, rfl⟩, fun hnot => absurd (fun _ _ hnone => nomatch hnone) hnot⟩
      | some elements =>
          have hiff : (∀ memory elements', (some elements).map (st'.memory, ·) =
              some (memory, elements') →
                34 ∈ quotedPart text ∧ ¬ LongMissing memory elements' (indicesPart text)) ↔
              34 ∈ quotedPart text ∧ ¬ LongMissing st'.memory elements (indicesPart text) := by
            refine ⟨fun h => h _ _ rfl, fun h memory elements' hsome => ?_⟩
            cases hsome
            exact h
          rw [hiff, Option.isSome_some, if_pos rfl]
          by_cases hclosed : 34 ∈ quotedPart text
          · obtain ⟨hholds, hend⟩ := hinside hclosed
            obtain ⟨hlong, hshort⟩ := @arrayLoop_eq _ _ _ st'.memory text.length (text.length + 1)
              ((indicesPart text).length + 1) _ _ helements hholds hend (by omega) (by omega)
            constructor
            · rintro ⟨-, hnot⟩
              obtain ⟨b, hrun⟩ := hshort hnot
              rw [hrun]
              exact ⟨b, rfl⟩
            · intro hnot
              rw [hlong (by_contra fun h => hnot ⟨hclosed, h⟩)]
              exact ⟨.errorIndex, by decide, rfl⟩
          · refine ⟨fun hand => absurd hand.1 hclosed, fun _ => ?_⟩
            rw [arrayLoop_outside _ (by rw [List.length_set, houtside hclosed])]
            exact ⟨.text _, by simp, rfl⟩
  · have hnone : PathInBounds st i text := by
      intro memory elements hsome
      rw [pathArray] at hsome
      dsimp only at hsome
      rw [if_neg hname] at hsome
      cases hsome
    exact ⟨fun _ => parseVariable_other st i hclean hname, fun hnot => absurd hnone hnot⟩

end PathBytes

/-! ## Bounds -/

/-- A text that `checkParameterString` accepts has no null byte. -/
theorem clean_of_check {text : List UInt8} (h : Template.checkParameterString text = true) :
    (0 : UInt8) ∉ text := by
  intro h0
  rw [Template.checkParameterString, List.all_eq_true] at h
  exact absurd (h 0 h0) (by decide)

/-- The loop over the indices ends, whatever the text is. -/
theorem parseVariable_ends (st : Variables) (i : Nat) {text : List UInt8}
    (h : Template.checkParameterString text = true) :
    PathBytes.parseVariable st i (text ++ [0]) ≠ .error .endless := by
  obtain ⟨hin, hout⟩ := PathBytes.parseVariable_eq st i (clean_of_check h)
  by_cases hbounds : PathInBounds st i text
  · obtain ⟨b, hrun⟩ := hin hbounds
    rw [hrun]
    exact fun heq => nomatch heq
  · obtain ⟨fault, hne, hrun⟩ := hout hbounds
    rw [hrun]
    exact fun heq => hne (Except.error.inj heq)

/-- For every text that `checkParameterString` accepts, and all contents of the stores:
`parseVariable` ends, with all accesses to the text and all copies to its buffers in bounds, if and
only if the path does not start with the name of an array without its closing quote, and has no
index of 100 bytes or more that is looked for and not found. -/
theorem parseVariable_inBounds_iff (st : Variables) (i : Nat) {text : List UInt8}
    (h : Template.checkParameterString text = true) :
    (∃ b result, PathBytes.parseVariable st i (text ++ [0]) = .ok (b, result)) ↔
      PathInBounds st i text := by
  obtain ⟨hin, hout⟩ := PathBytes.parseVariable_eq st i (clean_of_check h)
  constructor
  · rintro ⟨b, result, hrun⟩
    by_contra hbounds
    obtain ⟨fault, -, herror⟩ := hout hbounds
    exact nomatch hrun.symm.trans herror
  · intro hbounds
    obtain ⟨b, hrun⟩ := hin hbounds
    exact ⟨b, _, hrun⟩

/-- A global array `a` with an element `k`, which is an empty array. -/
def globalArray : Variables where
  memory := [{ name := ascii "a", value := .array [1] }, { name := ascii "k", value := .array [] }]
  sessions := []
  globals := [0]
  requests := fun _ => {}

/-- Indices with a missing bracket at the end. -/
theorem parseVariable_inBounds_iff_open :
    (∃ b result, PathBytes.parseVariable globalArray 0 (ascii "global;\"a\"[\"k\"][3" ++ [0]) =
        .ok (b, result)) ↔
      PathInBounds globalArray 0 (ascii "global;\"a\"[\"k\"][3") :=
  parseVariable_inBounds_iff globalArray 0 (by decide +kernel)

/-- Behind the name of an array without its closing quote, the byte behind the terminator is
read. -/
theorem parseVariable_inBounds_fails :
    ¬ ∀ (st : Variables) (i : Nat) (text : List UInt8),
      Template.checkParameterString text = true →
      ∃ b result, PathBytes.parseVariable st i (text ++ [0]) = .ok (b, result) := by
  intro hall
  have hopen : ¬ PathInBounds globalArray 0 (ascii "global;\"a") := by
    intro h
    exact absurd (h globalArray.memory [1] (by decide +kernel)).1 (by decide +kernel)
  obtain ⟨b, result, hrun⟩ := hall globalArray 0 (ascii "global;\"a") (by decide +kernel)
  obtain ⟨fault, -, herror⟩ := (PathBytes.parseVariable_eq globalArray 0
    (clean_of_check (by decide +kernel))).2 hopen
  exact nomatch hrun.symm.trans herror

end CWebUI.Session
