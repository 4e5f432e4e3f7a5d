import CWebUI.Session.Variables
import CWebUI.Template.Engine

set_option autoImplicit false

/-! # The variables of a template

The tags that read and write variables, and the array of a loop: `engine_getVariable` and
`engine_setVariable` (`engine_functions.c`), the variables of `engine_loop_array` (`engine.c`), what
`sendHTMLChunkVariable` sends (`server_chunk_functions.c`), and the iterator that every array keeps
in its own list (`variable_store.c`, `linked_list.c`). Whoever goes through an array uses this one
iterator: a loop, an index that is a number, and the output of a whole array.
-/

namespace CWebUI.Template

open ByteString CWebUI.Session

/-! ## The iterator of an array -/

/-- The variables of the server, and `cur_iter` of the list of every array: the place of the element
that comes next, if there is one. -/
structure RenderState where
  vars : Variables
  curIter : Nat → Option Nat

/-- An iterator that is at a place of a list. -/
def iterAt (elements : List Nat) (place : Nat) : Option Nat :=
  if place < elements.length then some place else none

/-- An assignment to the iterator of an array. -/
def RenderState.setIter (st : RenderState) (array : Nat) (iter : Option Nat) : RenderState :=
  { st with curIter := Function.update st.curIter array iter }

/-- These arrays were gone through: their iterators are at the end. -/
def RenderState.stopIterators (st : RenderState) (arrays : List Nat) : RenderState :=
  { st with curIter := fun a => if a ∈ arrays then none else st.curIter a }

/-- `getWSVariableArrayFirst`, with `getFirstVariable` -/
def getWSVariableArrayFirst (array : Nat) (st : RenderState) : Answer RenderState (Option Nat) :=
  match elementsOf st.vars.memory array with
  | some (element :: elements) => {
      value := some element
      state := st.setIter array (iterAt (element :: elements) 1)
      traversed := [array] }
  | _ => { value := none, state := st }

/-- `getWSVariableArrayNext`, with `getNextVariable` -/
def getWSVariableArrayNext (array : Nat) (st : RenderState) : Answer RenderState (Option Nat) :=
  match elementsOf st.vars.memory array, st.curIter array with
  | some elements, some place => {
      value := elements[place]?
      state := st.setIter array (iterAt elements (place + 1)) }
  | _, _ => { value := none, state := st }

/-! ## Expressions -/

/-- The index at the front of a text is a number: `getWSVariableArrayIndex` goes through the
array. -/
def indexIsNumber (text : List UInt8) : Bool :=
  ((text.drop 1).takeWhile (· ≠ 93)).head? ≠ some 34

/-- The arrays that the loop over the indices behind a name goes through. -/
def arrayLoopIterates (memory : List WsVar) : Nat → Nat → List Nat → List UInt8 → List Nat
  | 0, _, _, _ => []
  | fuel + 1, id, elements, text =>
      if text.head? = some 91 then
        (if indexIsNumber text then [id] else []) ++
          match elementAt memory elements text with
          | (none, _, _) => []
          | (some element, _, behind) =>
              match behind.head?, elementsOf memory element with
              | some 91, some inner => arrayLoopIterates memory fuel element inner behind
              | _, _ => []
      else []

/-- The arrays that `parseVariable` goes through. -/
def parseIterates (st : Variables) (i : Nat) (buffer : List UInt8) : List Nat :=
  let (space, text) := nameSpaceOf buffer
  if text.head? = some 34 ∧ space ≠ .none then
    let name := (text.drop 1).takeWhile (· ≠ 34)
    match lookupName st i space name with
    | (st, _, some id) =>
        let id := derefVar st.memory id
        let behind := text.drop (name.length + 2)
        match elementsOf st.memory id with
        | some elements => arrayLoopIterates st.memory (behind.length + 1) id elements behind
        | none => []
    | (_, _, none) => []
  else []

/-- `parseVariable` -/
def RenderState.parse (st : RenderState) (i : Nat) (buffer : List UInt8) :
    Answer RenderState WsVar :=
  let arrays := parseIterates st.vars i buffer
  let (vars, var) := parseVariable st.vars i buffer
  { value := var, state := { st with vars := vars }.stopIterators arrays, traversed := arrays }

/-! ## Output -/

/-- `getWSVariableString` on a number, into the 20 bytes of `writeChunkVariable`. -/
def numberText (n : Int) : List UInt8 := (ascii (toString n)).take 19

/-- A long number that is zero is taken for a variable without a value. -/
def longText (n : Int) : List UInt8 := if n = 0 then ascii "Empty" else numberText n

/-- What is sent for a variable, and the arrays that are gone through for it. -/
structure Printed where
  bytes : List UInt8 := []
  arrays : List Nat := []

/-- `writeChunkVariable` on the variable at a place. Arrays and references that lead to themselves
have no end; they are cut off. -/
def writeChunkVariable (memory : List WsVar) : Nat → Nat → Printed
  | 0, _ => {}
  | fuel + 1, id =>
      match (varAt memory id).value with
      | .string text => { bytes := text }
      | .int n => { bytes := numberText n }
      | .ulong n => { bytes := longText n.toNat }
      | .long n => { bytes := longText n.toInt }
      | .ref target => writeChunkVariable memory fuel target
      | .array elements => {
          bytes := ascii "Array <br>" ++ elements.flatMap fun it =>
            ascii "[" ++ (varAt memory it).name ++ ascii ":" ++
              (writeChunkVariable memory fuel it).bytes ++ ascii "]<br>"
          arrays := id :: elements.flatMap fun it => (writeChunkVariable memory fuel it).arrays }
      | .empty => {}
      | .customData => { bytes := ascii "custom_data" }

/-- `sendHTMLChunkVariable` on the temporary variable of an expression, which is a text, a number or
a reference. -/
def printTemporary (memory : List WsVar) (var : WsVar) : Printed :=
  match var.value with
  | .string text => { bytes := text }
  | .int n => { bytes := numberText n }
  | .ref target => writeChunkVariable memory (memory.length + 1) target
  | _ => {}

/-- `sendHTMLChunkVariable` behind `parseVariable`, with the output on or off. -/
def sendTemporary (shown : Bool) (parsed : Answer RenderState WsVar) : Answer RenderState Unit :=
  let printed := printTemporary parsed.state.vars.memory parsed.value
  if shown then {
    value := ()
    state := parsed.state.stopIterators printed.arrays
    sent := printed.bytes
    traversed := parsed.traversed ++ printed.arrays }
  else { value := (), state := parsed.state, traversed := parsed.traversed }

/-! ## The tags -/

/-- `engine_getVariable` -/
def engineGetVariable (i : Nat) (func : FunctionParas) (shown : Bool) (st : RenderState) :
    Answer RenderState Unit :=
  match func.parameter with
  | [] => { value := (), state := st }
  | buffer :: _ => sendTemporary shown (st.parse i buffer)

/-- `VAR_TYPES` -/
def varType : WsValue → Nat
  | .empty => 0
  | .string _ => 1
  | .int _ => 2
  | .ulong _ => 3
  | .long _ => 4
  | .array _ => 5
  | .ref _ => 6
  | .customData => 7

/-- The message for a value that cannot be assigned. -/
def notAssignableText (value : WsValue) : List UInt8 :=
  ascii "<font color=\"#FF0000\" >engine_setVariable Typ " ++ numberText (varType value) ++
    ascii " noch behandeln</font>"

/-- `engine_setVariable`. A value that cannot be assigned is reported in the page, unless the target
is a reference. -/
def engineSetVariable (i : Nat) (func : FunctionParas) (st : RenderState) :
    Answer RenderState Unit :=
  match func.parameter with
  | [] => { value := (), state := st }
  | [buffer] =>
      let var := st.parse i buffer
      { value := (), state := var.state, traversed := var.traversed }
  | buffer :: buffer' :: _ =>
      let var := st.parse i buffer
      let setValueVar := var.state.parse i buffer'
      let st := setValueVar.state
      let value := assignable setValueVar.value.value
      match var.value.value with
      | .ref id => {
          value := ()
          state := { st with vars := st.vars.assign id value }
          traversed := var.traversed ++ setValueVar.traversed }
      | _ =>
          let (vars, id) := getRenderVariable st.vars i var.value.name
          { value := ()
            state := { st with vars := vars.assign id value }
            sent := if value.isNone then notAssignableText setValueVar.value.value else []
            traversed := var.traversed ++ setValueVar.traversed }

/-- `engine_loop_array` on its first parameter: what is no reference is sent instead. -/
def loopArrayOf (i : Nat) (func : FunctionParas) (st : RenderState) :
    Answer RenderState (Option Nat) :=
  match func.parameter with
  | [] => { value := none, state := st }
  | buffer :: _ =>
      let parsed := st.parse i buffer
      match parsed.value.value with
      | .ref array => { value := some array, state := parsed.state, traversed := parsed.traversed }
      | _ => { sendTemporary true parsed with value := none }

/-- The text of an expression that is one. -/
def textOf : WsValue → Option (List UInt8)
  | .string text => some text
  | _ => none

/-- `engine_loop_array` on the names of its variables. -/
def loopNamesOf (i : Nat) (func : FunctionParas) (st : RenderState) :
    Answer RenderState (Option LoopNames) :=
  let value := st.parse i (func.parameter.getD 1 [])
  match textOf value.value.value with
  | none => { value := none, state := value.state, traversed := value.traversed }
  | some text =>
      match func.parameter[2]? with
      | none => { value := some ⟨text, none⟩, state := value.state, traversed := value.traversed }
      | some buffer =>
          let key := value.state.parse i buffer
          { value := some ⟨text, textOf key.value.value⟩
            state := key.state
            traversed := value.traversed ++ key.traversed }

/-- `getRenderVariable` for the variables of a loop. -/
def loopVariablesOf (i : Nat) (names : LoopNames) (st : RenderState) :
    Answer RenderState LoopVariables :=
  let (vars, value) := getRenderVariable st.vars i names.value
  match names.key with
  | none => { value := ⟨value, none⟩, state := { st with vars := vars } }
  | some name =>
      let (vars, key) := getRenderVariable vars i name
      { value := ⟨value, some key⟩, state := { st with vars := vars } }

/-- The name that the key variable of a loop gets: an element without a name has that of the
variable that it refers to. -/
def keyName (memory : List WsVar) (element : Nat) : List UInt8 :=
  match (varAt memory element).name, (varAt memory element).value with
  | [], .ref target => (varAt memory target).name
  | name, _ => name

/-- `engine_loop_array` on one element: its value variable refers to it, its key variable has its
name. -/
def bindElementOf (vars : LoopVariables) (element : Nat) (st : RenderState) :
    Answer RenderState Unit :=
  let memory := setValue st.vars.memory vars.value (.ref element)
  let memory :=
    match vars.key with
    | none => memory
    | some key => setWSVariableString memory key (some (keyName memory element))
  { value := (), state := { st with vars := { st.vars with memory := memory } } }

/-- The variables of the request `i` as a host of its pages. The functions and the conditions that
are registered, and the files, are those of another host. -/
def variableHost (i : Nat) (others : TemplateHost RenderState) : TemplateHost RenderState :=
  { others with
    getVariable := engineGetVariable i
    setVariable := engineSetVariable i
    loopArray := loopArrayOf i
    loopNames := loopNamesOf i
    arrayFirst := getWSVariableArrayFirst
    loopVariables := loopVariablesOf i
    bindElement := bindElementOf
    arrayNext := getWSVariableArrayNext }

/-! ## Global text variables -/

/-- The text of a global variable that is one. -/
def globalString (st : Variables) (name : List UInt8) : Option (List UInt8) :=
  (searchVariable st.memory st.globals name).bind fun id => textOf (varAt st.memory id).value

end CWebUI.Template
