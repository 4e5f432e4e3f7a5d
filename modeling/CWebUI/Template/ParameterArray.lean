import CWebUI.Basic.Checked
import CWebUI.Template.Trees

set_option autoImplicit false

/-! # The array of the parameters

`parseFunction` (`engine.c`) with the array of parameters that it fills, for every text of a tag. An
access by an index that the array does not have ends a run, with that index. When every slot of the
array has got a parameter, the scan that counts them goes on behind the last slot.
-/

namespace CWebUI.Template

open ByteString

/-! ## The array -/

/-- `parameter` of `FUNCTION_PARAS`: the text of every slot, if it has one. -/
structure ParameterArray where
  slots : List (Option (List UInt8))
  size : slots.length = maxFuncParas

namespace ParameterArray

/-- All slots are empty. -/
def empty : ParameterArray := ⟨List.replicate maxFuncParas none, List.length_replicate⟩

/-- The first slots have texts, the others none. -/
def filled (texts : List (List UInt8)) (h : texts.length ≤ maxFuncParas) : ParameterArray where
  slots := texts.map some ++ List.replicate (maxFuncParas - texts.length) none
  size := by simp; omega

/-- `func->parameter[i].text` -/
def read (a : ParameterArray) (i : Nat) : Except Nat (Option (List UInt8)) :=
  Checked.get id a.slots i

/-- The stores to `func->parameter[i]`. -/
def write (a : ParameterArray) (i : Nat) (text : List UInt8) : Except Nat ParameterArray :=
  if i < a.slots.length then .ok ⟨a.slots.set i (some text), by rw [List.length_set, a.size]⟩
  else .error i

/-- The texts of the array. -/
def texts (a : ParameterArray) : List (List UInt8) := a.slots.filterMap id

end ParameterArray

/-- `FUNCTION_PARAS`, with its array. -/
structure FunctionArray where
  function : EngineFunctions
  parameter : ParameterArray
  parameterCount : Nat

namespace FunctionArray

/-- The loop over the slots that stores a parameter in the first empty one, with the number of slots
from `i2` on. -/
def storeParameter (text : List UInt8) : Nat → ParameterArray → Nat →
    Except Nat (ParameterArray × Nat)
  | 0, a, i2 => .ok (a, i2)
  | n + 1, a, i2 => do
      match ← a.read i2 with
      | none => return (← a.write i2 text, i2 + 1)
      | some _ => storeParameter text n a (i2 + 1)

/-- The loop over the bytes of the tag, with the number of those that remain. -/
def parameterLoop (S : Slice) : Nat → Int → Int → ParameterArray → Nat → Except Nat ParameterArray
  | 0, _, _, a, _ => .ok a
  | n + 1, i, paraStart, a, i2 =>
      if S.at i = 58 ∨ S.at i = 125 then
        -- the first colon ends the name of the function
        if paraStart = 0 then parameterLoop S n (i + 1) (i + 1) a i2
        else do
          let text := (S.sub paraStart ((i - paraStart) % 65536)).bytes
          let (a, i2) ← storeParameter text (maxFuncParas - i2) a i2
          parameterLoop S n (i + 1) (i + 1) a i2
      else parameterLoop S n (i + 1) paraStart a i2

/-- The scan for the first empty slot. The access behind the last slot ends it before its rounds
do. -/
def countParameters (a : ParameterArray) : Nat → Nat → Except Nat Nat
  | 0, i => .error i
  | n + 1, i => do
      match ← a.read i with
      | none => return i
      | some _ => countParameters a n (i + 1)

/-- The loop that checks the parameters, with the number of those that remain. -/
def checkParameters (a : ParameterArray) : Nat → Nat → EngineFunctions → Except Nat EngineFunctions
  | 0, _, function => .ok function
  | n + 1, i, function => do
      let text ← a.read i
      checkParameters a n (i + 1)
        (if checkParameterString (text.getD []) then function else .unknown)

/-- `check_platformFunction_exists`, for the names of functions in `user_func_map`. -/
def checkPlatformFunctionExists (userFuncMap : List UInt8 → Bool) (a : ParameterArray) :
    Except Nat Bool := do
  match ← a.read 0 with
  | none => return false
  | some name => return userFuncMap name

/-- The end of `parseFunction`, with the number of parameters in a byte: their check, and that of a
function of the platform. -/
def checkFunction (userFuncMap : List UInt8 → Bool) (code : EngineFunctions) (a : ParameterArray)
    (count : Nat) : Except Nat FunctionArray := do
  let function ← checkParameters a (count % 256) 0 code
  if function = .platformFunction ∨ function = .buildinFunction then
    let known ← checkPlatformFunctionExists userFuncMap a
    return ⟨if known then function else .unknown, a, count % 256⟩
  else return ⟨function, a, count % 256⟩

/-- `parseFunction` -/
def parseFunction (userFuncMap : List UInt8 → Bool) (func : FunctionArray) (S : Slice) :
    Except Nat FunctionArray :=
  if getEngineFunctionCode S = .unknown then .ok { func with function := .unknown }
  else do
    let a ← parameterLoop S (S.length.toNat + 1) 0 0 func.parameter 0
    let count ← countParameters a (maxFuncParas + 1) 0
    checkFunction userFuncMap (getEngineFunctionCode S) a count

end FunctionArray

/-- The pieces of the text of a tag before its closing brace: what stands behind the first colon,
split at the colons. -/
def pieces (text : List UInt8) : List (List UInt8) := (text.splitOn 58).tail

/-! ## A filled array -/

namespace ParameterArray

variable {texts : List (List UInt8)} {h : texts.length ≤ maxFuncParas}

theorem filled_congr {texts texts' : List (List UInt8)} (heq : texts = texts')
    (h : texts.length ≤ maxFuncParas) (h' : texts'.length ≤ maxFuncParas) :
    filled texts h = filled texts' h' := by
  subst heq
  rfl

theorem empty_eq : empty = filled [] (Nat.zero_le _) := rfl

@[simp] theorem texts_filled : (filled texts h).texts = texts := by
  simp [ParameterArray.texts, filled, List.filterMap_append, List.filterMap_map]

theorem read_filled {i : Nat} (hi : i < maxFuncParas) :
    (filled texts h).read i = .ok texts[i]? := by
  have hsize := (filled texts h).size
  refine Checked.get_eq ?_
  rw [filled]
  by_cases hlt : i < texts.length
  · rw [List.getElem?_append_left (by simpa using hlt), List.getElem?_map,
      List.getElem?_eq_getElem hlt]
    rfl
  · rw [List.getElem?_append_right (by simpa using hlt), List.getElem?_replicate,
      List.length_map, if_pos (by omega), List.getElem?_eq_none (Nat.le_of_not_lt hlt)]

theorem read_outside (a : ParameterArray) : a.read maxFuncParas = .error maxFuncParas :=
  Checked.get_outside a.size.le

theorem length_snoc_le (text : List UInt8) (hlt : texts.length < maxFuncParas) :
    (texts ++ [text]).length ≤ maxFuncParas := by
  rw [List.length_append, List.length_singleton]
  exact hlt

/-- The first empty slot gets a text. -/
theorem write_filled (text : List UInt8) (hlt : texts.length < maxFuncParas) :
    (filled texts h).write texts.length text =
      .ok (filled (texts ++ [text]) (length_snoc_le text hlt)) := by
  have hsize := (filled texts h).size
  rw [write, if_pos (by omega)]
  congr 2
  obtain ⟨n, hn⟩ : ∃ n, maxFuncParas - texts.length = n + 1 :=
    ⟨maxFuncParas - texts.length - 1, by omega⟩
  have hn' : maxFuncParas - (texts.length + 1) = n := by omega
  simp [filled, hn, hn', List.replicate_succ]

end ParameterArray

namespace FunctionArray

open ParameterArray

/-! ## The loops of `parseFunction` -/

theorem storeParameter_filled (text : List UInt8) {texts : List (List UInt8)}
    (hlt : texts.length < maxFuncParas) :
    storeParameter text (maxFuncParas - texts.length) (filled texts hlt.le) texts.length =
      .ok (filled (texts ++ [text]) (length_snoc_le text hlt), (texts ++ [text]).length) := by
  obtain ⟨n, hn⟩ : ∃ n, maxFuncParas - texts.length = n + 1 :=
    ⟨maxFuncParas - texts.length - 1, by omega⟩
  rw [hn, storeParameter, Checked.bind_ok (read_filled hlt), List.getElem?_eq_none (Nat.le_refl _)]
  dsimp only
  rw [Checked.bind_ok (write_filled text hlt)]
  have hlength : texts.length + 1 = (texts ++ [text]).length := by simp
  exact congrArg (fun i => Except.ok (filled (texts ++ [text]) _, i)) hlength

/-- When all slots have texts, the loop over them has no rounds left. -/
theorem storeParameter_full (text : List UInt8) {texts : List (List UInt8)}
    (h : texts.length = maxFuncParas) :
    storeParameter text (maxFuncParas - texts.length) (filled texts h.le) texts.length =
      .ok (filled texts h.le, texts.length) := by
  rw [show maxFuncParas - texts.length = 0 by omega, storeParameter]

/-- The scan of the tag stores the first parameters, as many as the array has slots. -/
theorem parameterLoop_filled (S : Slice) (n : Nat) (i paraStart : Int) {texts : List (List UInt8)}
    (h : texts.length ≤ maxFuncParas) :
    parameterLoop S n i paraStart (filled texts h) texts.length =
      .ok (filled ((texts ++ parametersFrom S n i paraStart).take maxFuncParas)
        (List.length_take_le _ _)) := by
  induction n generalizing i paraStart texts with
  | zero =>
      rw [parameterLoop]
      congr 1
      exact filled_congr (by rw [parametersFrom, List.append_nil, List.take_of_length_le h]) _ _
  | succ n ih =>
      rw [parameterLoop]
      by_cases hend : S.at i = 58 ∨ S.at i = 125
      · by_cases hstart : paraStart = 0
        · rw [if_pos hend, if_pos hstart, ih]
          congr 1
          exact filled_congr (by rw [parametersFrom, if_pos hend, if_pos hstart]) _ _
        · rw [if_pos hend, if_neg hstart]
          have hfrom : parametersFrom S (n + 1) i paraStart =
              (S.sub paraStart ((i - paraStart) % 65536)).bytes ::
                parametersFrom S n (i + 1) (i + 1) := by
            rw [parametersFrom, if_pos hend, if_neg hstart]
          rcases Nat.lt_or_eq_of_le h with hlt | heq
          · -- a slot is empty, and takes the parameter
            dsimp only
            rw [storeParameter_filled _ hlt]
            refine (ih (i + 1) (i + 1) (length_snoc_le _ hlt)).trans (congrArg _ (filled_congr ?_ _ _))
            rw [hfrom, List.append_assoc, List.singleton_append]
          · -- all slots have texts, and the parameter is lost
            dsimp only
            rw [storeParameter_full _ heq]
            refine (ih (i + 1) (i + 1) h).trans (congrArg _ (filled_congr ?_ _ _))
            rw [List.take_append_of_le_length heq.ge, List.take_append_of_le_length heq.ge]
      · rw [if_neg hend, ih]
        congr 1
        exact filled_congr (by rw [parametersFrom, if_neg hend]) _ _

/-- The scan that counts the parameters stays in the array if and only if it has an empty slot. -/
theorem countParameters_filled {texts : List (List UInt8)} (h : texts.length ≤ maxFuncParas) :
    countParameters (filled texts h) (maxFuncParas + 1) 0 =
      if texts.length < maxFuncParas then .ok texts.length else .error maxFuncParas := by
  suffices hall : ∀ k i, texts.length = i + k →
      countParameters (filled texts h) (maxFuncParas + 1 - i) i =
        if texts.length < maxFuncParas then .ok texts.length else .error maxFuncParas from
    hall texts.length 0 (Nat.zero_add _).symm
  -- induction on the slots with texts that the scan has before it
  intro k
  induction k with
  | zero =>
      intro i hi
      rw [Nat.add_zero] at hi
      subst hi
      rw [show maxFuncParas + 1 - texts.length = maxFuncParas - texts.length + 1 by omega,
        countParameters]
      by_cases hlt : texts.length < maxFuncParas
      · rw [Checked.bind_ok (read_filled hlt), List.getElem?_eq_none (Nat.le_refl _), if_pos hlt]
        rfl
      · have heq : texts.length = maxFuncParas := by omega
        rw [heq, Checked.bind_error (read_outside (filled texts h)), if_neg (Nat.lt_irrefl _)]
  | succ k ih =>
      intro i hi
      have hlt : i < texts.length := by omega
      rw [show maxFuncParas + 1 - i = maxFuncParas + 1 - (i + 1) + 1 by omega, countParameters,
        Checked.bind_ok (read_filled (by omega)), List.getElem?_eq_getElem hlt]
      exact ih (i + 1) (by omega)

theorem checkParameters_filled {texts : List (List UInt8)} (h : texts.length ≤ maxFuncParas)
    (n i : Nat) (function : EngineFunctions) (hi : i + n = texts.length) :
    checkParameters (filled texts h) n i function =
      .ok (if (texts.drop i).all checkParameterString then function else .unknown) := by
  induction n generalizing i function with
  | zero =>
      rw [checkParameters, List.drop_of_length_le (by omega)]
      rfl
  | succ n ih =>
      have hlt : i < texts.length := by omega
      rw [checkParameters, Checked.bind_ok (read_filled (by omega)), List.getElem?_eq_getElem hlt,
        Option.getD_some, ih (i + 1) _ (by omega), List.drop_eq_getElem_cons hlt, List.all_cons]
      cases checkParameterString texts[i] <;> simp

/-! ## `parseFunction` -/

/-- `check_platformFunction_exists`, from the parameters of a function. -/
def registered (userFuncMap : List UInt8 → Bool) (func : FunctionParas) : Bool :=
  match func.parameter with
  | [] => false
  | name :: _ => userFuncMap name

theorem checkPlatformFunctionExists_filled (userFuncMap : List UInt8 → Bool)
    (function : EngineFunctions) {texts : List (List UInt8)} (h : texts.length ≤ maxFuncParas) :
    checkPlatformFunctionExists userFuncMap (filled texts h) =
      .ok (registered userFuncMap ⟨function, texts⟩) := by
  rw [checkPlatformFunctionExists, Checked.bind_ok (read_filled (by decide))]
  cases texts with
  | nil => rfl
  | cons name texts => rfl

/-- The function that `parseFunction` stores, from its code and its parameters. -/
def checkedFunction (userFuncMap : List UInt8 → Bool) (code : EngineFunctions)
    (parameter : List (List UInt8)) : EngineFunctions :=
  if ¬ parameter.all checkParameterString then .unknown
  else if code = .platformFunction ∨ code = .buildinFunction then
    if registered userFuncMap ⟨code, parameter⟩ then code else .unknown
  else code

theorem parseFunction_list (userFuncMap : List UInt8 → Bool) {S : Slice}
    (hcode : getEngineFunctionCode S ≠ .unknown) :
    Template.parseFunction (registered userFuncMap) S =
      ⟨checkedFunction userFuncMap (getEngineFunctionCode S)
          ((parametersFrom S (S.length.toNat + 1) 0 0).take maxFuncParas),
        (parametersFrom S (S.length.toNat + 1) 0 0).take maxFuncParas⟩ := by
  rw [Template.parseFunction]
  split
  · contradiction
  · dsimp only
    rw [checkedFunction]
    split_ifs <;> rfl

theorem checkFunction_filled (userFuncMap : List UInt8 → Bool) (code : EngineFunctions)
    {texts : List (List UInt8)} (h : texts.length < maxFuncParas) :
    checkFunction userFuncMap code (filled texts h.le) texts.length =
      .ok ⟨checkedFunction userFuncMap code texts, filled texts h.le, texts.length⟩ := by
  have hmod : texts.length % 256 = texts.length :=
    Nat.mod_eq_of_lt (Nat.lt_trans h (by decide))
  have hcheck := checkParameters_filled h.le texts.length 0 code (Nat.zero_add _)
  rw [List.drop_zero] at hcheck
  rw [checkFunction, hmod, Checked.bind_ok hcheck, checkedFunction]
  by_cases hall : texts.all checkParameterString = true
  · rw [if_pos hall, if_neg (not_not.mpr hall)]
    by_cases hplatform : code = .platformFunction ∨ code = .buildinFunction
    · rw [if_pos hplatform, if_pos hplatform,
        Checked.bind_ok (checkPlatformFunctionExists_filled userFuncMap code h.le)]
      rfl
    · rw [if_neg hplatform, if_neg hplatform]
      rfl
  · rw [if_neg hall, if_pos hall]
    rfl

/-- The run of `parseFunction` on an empty array: it ends if and only if a slot stays empty, and its
result is that of the function on lists. -/
theorem parseFunction_eq (userFuncMap : List UInt8 → Bool) {func : FunctionArray} {S : Slice}
    (hempty : func.parameter = .empty) (hcode : getEngineFunctionCode S ≠ .unknown)
    {texts : List (List UInt8)} (htexts : parametersFrom S (S.length.toNat + 1) 0 0 = texts) :
    parseFunction userFuncMap func S =
      if h : texts.length < maxFuncParas then
        .ok ⟨(Template.parseFunction (registered userFuncMap) S).function, .filled texts h.le,
          texts.length⟩
      else .error maxFuncParas := by
  have hloop := @parameterLoop_filled S (S.length.toNat + 1) 0 0 [] (Nat.zero_le _)
  have hcount := countParameters_filled (List.length_take_le maxFuncParas texts)
  rw [← empty_eq, ← hempty, List.length_nil, List.nil_append] at hloop
  simp only [htexts] at hloop
  have hlist := parseFunction_list userFuncMap hcode
  rw [htexts] at hlist
  rw [parseFunction, if_neg hcode, Checked.bind_ok hloop, hlist]
  by_cases hlt : texts.length < maxFuncParas
  · have htake : texts.take maxFuncParas = texts := List.take_of_length_le hlt.le
    rw [if_pos (by rwa [htake])] at hcount
    rw [Checked.bind_ok hcount, dif_pos hlt]
    simp only [htake]
    exact checkFunction_filled userFuncMap _ hlt
  · rw [if_neg (by rw [List.length_take]; omega)] at hcount
    rw [Checked.bind_error hcount, dif_neg hlt]

end FunctionArray

/-! ## The pieces of a tag -/

/-- A text, from its pieces. -/
theorem splitOn_spec (c : UInt8) (text : List UInt8) :
    ∃ piece rest, text.splitOn c = piece :: rest ∧
      text = piece ++ rest.flatMap (fun piece => c :: piece) ∧ ∀ p ∈ piece :: rest, c ∉ p := by
  induction text with
  | nil => exact ⟨[], [], rfl, rfl, by simp⟩
  | cons d text ih =>
      obtain ⟨piece, rest, hsplit, htext, hno⟩ := ih
      rw [List.splitOn_cons_eq_if_modifyHead, hsplit]
      by_cases hd : d = c
      · subst hd
        exact ⟨[], piece :: rest, by simp, by simp [htext],
          List.forall_mem_cons.mpr ⟨List.not_mem_nil, hno⟩⟩
      · obtain ⟨hpiece, hrest⟩ := List.forall_mem_cons.mp hno
        refine ⟨d :: piece, rest, by simp [hd], by simp [htext],
          List.forall_mem_cons.mpr ⟨?_, hrest⟩⟩
        exact fun hmem => (List.mem_cons.mp hmem).elim (fun heq => hd heq.symm) hpiece

/-- The scan of a tag finds its pieces. -/
theorem parametersFrom_pieces {S : Slice} {text : List UInt8}
    (h : S.reads 0 (text ++ [125]) = true) (hbrace : 125 ∉ text)
    (hshort : ∀ piece ∈ pieces text, piece.length < 65536) :
    parametersFrom S (text.length + 1) 0 0 = pieces text := by
  obtain ⟨front, rest, hsplit, htext, hno⟩ := splitOn_spec 58 text
  have hplain : ∀ p ∈ front :: rest, ∀ c ∈ p, c ≠ 58 ∧ c ≠ 125 := by
    intro p hp c hc
    refine ⟨fun heq => hno p hp (heq ▸ hc), fun heq => hbrace ?_⟩
    rw [htext]
    rcases List.mem_cons.mp hp with rfl | hp
    · exact List.mem_append_left _ (heq ▸ hc)
    · exact List.mem_append_right _
        (List.mem_flatMap.mpr ⟨p, hp, List.mem_cons_of_mem _ (heq ▸ hc)⟩)
  obtain ⟨hfront, hrest⟩ := List.forall_mem_cons.mp hplain
  rw [pieces, hsplit, List.tail_cons] at hshort
  rw [pieces, hsplit, List.tail_cons]
  rw [htext] at h ⊢
  cases rest with
  | nil =>
      rw [List.flatMap_nil, List.append_nil] at h ⊢
      obtain ⟨hreads, hend⟩ := Slice.reads_of_append h
      obtain ⟨hat, -⟩ := Slice.at_of_reads hend
      rw [parametersFrom_skip 1 hreads hfront, parametersFrom, if_pos (Or.inr hat), if_pos rfl,
        parametersFrom]
  | cons p rest =>
      rw [List.flatMap_cons, List.append_assoc, List.cons_append, List.cons_append] at h
      obtain ⟨hreads, hend⟩ := Slice.reads_of_append h
      obtain ⟨hat, hparameter⟩ := Slice.at_of_reads hend
      rw [List.append_assoc] at hparameter
      have hn : (front ++ (p :: rest).flatMap fun piece => 58 :: piece).length + 1 =
          front.length +
            (p.length + (rest.flatMap (fun piece => 58 :: piece)).length + 1 + 1) := by
        rw [List.flatMap_cons, List.length_append, List.length_append, List.length_cons]
        omega
      rw [hn, parametersFrom_skip _ hreads hfront, parametersFrom, if_pos (Or.inl hat), if_pos rfl]
      exact parametersFrom_parameter hparameter (fun q hq => ⟨hrest q hq, hshort q hq⟩) (by omega)

/-- For every text of a tag of a known function, on an empty array: `parseFunction` makes no access
outside the array and stores the first pieces of the text, in order, and their number, if and only
if the text has fewer pieces than the array has slots. -/
theorem parseFunction_iff (userFuncMap : List UInt8 → Bool) {func : FunctionArray} {S : Slice}
    {text : List UInt8} (h : S.reads 0 (text ++ [125]) = true) (hlength : S.length = text.length)
    (hbrace : 125 ∉ text) (hcode : getEngineFunctionCode S ≠ .unknown)
    (hshort : ∀ piece ∈ pieces text, piece.length < 65536) (hempty : func.parameter = .empty) :
    (∃ func', FunctionArray.parseFunction userFuncMap func S = .ok func' ∧
        func'.parameter = .filled ((pieces text).take maxFuncParas) (List.length_take_le _ _) ∧
        func'.parameterCount = ((pieces text).take maxFuncParas).length) ↔
      (pieces text).length < maxFuncParas := by
  have htexts : parametersFrom S (S.length.toNat + 1) 0 0 = pieces text := by
    rw [hlength, Int.toNat_natCast]
    exact parametersFrom_pieces h hbrace hshort
  rw [FunctionArray.parseFunction_eq userFuncMap hempty hcode htexts]
  by_cases hlt : (pieces text).length < maxFuncParas
  · have htake : (pieces text).take maxFuncParas = pieces text := List.take_of_length_le hlt.le
    rw [dif_pos hlt]
    refine iff_of_true ⟨_, rfl, ParameterArray.filled_congr htake.symm hlt.le _, ?_⟩ hlt
    rw [htake]
  · rw [dif_neg hlt]
    exact iff_of_false (fun ⟨_, hrun, _⟩ => nomatch hrun) hlt

/-- An empty `FUNCTION_PARAS`. -/
def FunctionArray.empty : FunctionArray := ⟨.unknown, .empty, 0⟩

/-- `{get:global;x:}`: two pieces, the second of them empty. -/
theorem parseFunction_iff_get :
    (∃ func', FunctionArray.parseFunction (fun _ => false) .empty
          ((Page.ofBytes (ascii "\x7bget:global;x:\x7d")).whole.sub 0 14) = .ok func' ∧
        func'.parameter = .filled ((pieces (ascii "\x7bget:global;x:")).take maxFuncParas)
          (List.length_take_le _ _) ∧
        func'.parameterCount = ((pieces (ascii "\x7bget:global;x:")).take maxFuncParas).length) ↔
      (pieces (ascii "\x7bget:global;x:")).length < maxFuncParas :=
  parseFunction_iff (fun _ => false) (by decide +kernel) (by decide +kernel) (by decide +kernel)
    (by decide +kernel) (by decide +kernel) rfl

/-- An if tag with a name and 19 empty arguments. -/
def fullTag : List UInt8 := ascii "\x7bif:a" ++ List.replicate 19 58

/-- When every slot has a piece, the scan that counts them reads behind the last one. -/
theorem parseFunction_fails :
    ¬ ∀ (userFuncMap : List UInt8 → Bool) (func : FunctionArray) (S : Slice) (text : List UInt8),
      S.reads 0 (text ++ [125]) = true → S.length = text.length → 125 ∉ text →
      getEngineFunctionCode S ≠ .unknown → (∀ piece ∈ pieces text, piece.length < 65536) →
      func.parameter = .empty →
      ∃ func', FunctionArray.parseFunction userFuncMap func S = .ok func' ∧
        func'.parameter = .filled ((pieces text).take maxFuncParas) (List.length_take_le _ _) ∧
        func'.parameterCount = ((pieces text).take maxFuncParas).length := by
  intro hall
  have hcode : getEngineFunctionCode ((Page.ofBytes (fullTag ++ [125])).whole.sub 0 24) ≠
    .unknown := by decide +kernel
  obtain ⟨func', hrun, -⟩ := hall (fun _ => false) .empty
    ((Page.ofBytes (fullTag ++ [125])).whole.sub 0 24) fullTag (by decide +kernel)
    (by decide +kernel) (by decide +kernel) hcode (by decide +kernel) rfl
  rw [FunctionArray.parseFunction_eq (fun _ => false) rfl hcode rfl] at hrun
  rw [dif_neg (by decide +kernel)] at hrun
  cases hrun

end CWebUI.Template
