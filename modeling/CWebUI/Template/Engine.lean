import CWebUI.Basic.Traced
import CWebUI.Template.Functions

set_option autoImplicit false

/-! # The template engine

`processHTML` and `engine_loop_array` (`engine.c`), `engine_TemplateIF` (`engine_if.c`) and
`engine_includeFile` (`engine_functions.c`). What they call outside the engine, the variables, the
conditions and functions that are registered, and the files, is a `TemplateHost` over a state of
its own. A run leaves a trace of its events. The fields of an entry of `engine_list` are the local
variables of the call of `processHTML` that it belongs to; the list itself is taken without its
bound, and the trace shows the indices that are used.
-/

namespace CWebUI.Template

open ByteString Traced

/-! ## What the engine calls -/

/-- `CONDITION_RETURN` -/
inductive ConditionReturn where
  | conditionTrue
  | conditionFalse
  | conditionError
  deriving DecidableEq, Repr

/-- The file of an include tag (`getFile` and `prepare_file_content`). -/
inductive FileResult where
  | notFound
  | readError
  | page (p : Page)

/-- The names of the variables of a loop: its value variable, and its key variable. -/
structure LoopNames where
  value : List UInt8
  key : Option (List UInt8)
  deriving DecidableEq, Repr

/-- The variables of a loop, `tmp` and `tmp_key` of `engine_loop_array`. -/
structure LoopVariables where
  value : Nat
  key : Option Nat
  deriving DecidableEq, Repr

/-- The answer of an operation: its value, the state behind it, the text that it sends, and the
arrays that it goes through with the iterator of their lists. -/
structure Answer (σ α : Type) where
  value : α
  state : σ
  sent : List UInt8 := []
  traversed : List Nat := []

/-- What the engine calls. Arrays, elements and variables have numbers. -/
structure TemplateHost (σ : Type) where
  /-- `check_platformFunction_exists` -/
  platformFunctionExists : FunctionParas → Bool
  /-- `engine_platformFunction` -/
  platformFunction : FunctionParas → σ → Answer σ Unit
  /-- `engine_callCondition` -/
  callCondition : FunctionParas → σ → Answer σ ConditionReturn
  /-- `getFile` and `prepare_file_content` -/
  getFile : List UInt8 → σ → Answer σ FileResult
  /-- `engine_getVariable`, with the output on or off. -/
  getVariable : FunctionParas → Bool → σ → Answer σ Unit
  /-- `engine_setVariable` -/
  setVariable : FunctionParas → σ → Answer σ Unit
  /-- `engine_loop_array` up to the array, if the first parameter is one. -/
  loopArray : FunctionParas → σ → Answer σ (Option Nat)
  /-- `engine_loop_array` up to the names of its variables, if the second parameter is a text. -/
  loopNames : FunctionParas → σ → Answer σ (Option LoopNames)
  /-- `getWSVariableArrayFirst` -/
  arrayFirst : Nat → σ → Answer σ (Option Nat)
  /-- `getRenderVariable` for the variables of a loop. -/
  loopVariables : LoopNames → σ → Answer σ LoopVariables
  /-- `engine_loop_array` on one element, up to the call of `processHTML`. -/
  bindElement : LoopVariables → Nat → σ → Answer σ Unit
  /-- `getWSVariableArrayNext` -/
  arrayNext : Nat → σ → Answer σ (Option Nat)

/-- A host without variables, functions, conditions and files. -/
def emptyHost : TemplateHost Unit where
  platformFunctionExists _ := false
  platformFunction _ s := { value := (), state := s }
  callCondition _ s := { value := .conditionError, state := s }
  getFile _ s := { value := .notFound, state := s }
  getVariable _ _ s := { value := (), state := s }
  setVariable _ s := { value := (), state := s }
  loopArray _ s := { value := none, state := s }
  loopNames _ s := { value := none, state := s }
  arrayFirst _ s := { value := none, state := s }
  loopVariables _ s := { value := ⟨0, none⟩, state := s }
  bindElement _ _ s := { value := (), state := s }
  arrayNext _ s := { value := none, state := s }

/-! ## The engine -/

/-- The part of `http_request` and of its socket that the engine uses. -/
structure Engine (σ : Type) where
  host : σ
  engineIndex : Nat := 0
  disableOutput : Bool := false
  enablePrintFuncs : Bool := false
  printFuncPrefix : List UInt8 := []
  printFuncPostfix : List UInt8 := []

/-- What a run does: `template_engine_start` hands out an entry for a slice,
`template_engine_stop` clears one, a slice is searched for tags or handed to `sendHTMLChunk`, bytes
are sent, an array is gone through, the body of a loop is rendered for an element. -/
inductive Event (σ : Type) where
  | start (index : Nat) (S : Slice)
  | stop (index : Nat)
  | search (S : Slice)
  | chunk (S : Slice)
  | sent (bytes : List UInt8)
  | traverse (array : Nat)
  | visit (index array element : Nat) (vars : LoopVariables) (host : σ)

/-- The runs that do not return: the model has no fuel left, or the code reads through a null
pointer. -/
inductive Stop where
  | outOfFuel
  | nullPointer
  deriving DecidableEq, Repr

/-- The programs of the engine. -/
abbrev Render (σ α : Type) : Type := Program Stop (Engine σ) (Event σ) α

variable {σ : Type}

/-- What is sent, unless the output is off. -/
def Engine.output (s : Engine σ) (bytes : List UInt8) : List (Event σ) :=
  if s.disableOutput then [] else [.sent bytes]

/-- `sendHTMLChunk` on a part of the page. The code takes a negative length as a huge one; here
nothing is sent for it. -/
def sendHTMLChunk (S : Slice) : Render σ Unit :=
  ⟨fun s => ⟨.ok (), s, .chunk S :: s.output S.bytes⟩⟩

/-- `sendHTMLChunk` on a text that is not of the page. -/
def sendText (bytes : List UInt8) : Render σ Unit := ⟨fun s => ⟨.ok (), s, s.output bytes⟩⟩

/-- A call of the host. -/
def call {α : Type} (f : σ → Answer σ α) : Render σ α := ⟨fun s =>
  ⟨.ok (f s.host).value, { s with host := (f s.host).state },
    (f s.host).traversed.map .traverse ++ s.output (f s.host).sent⟩⟩

/-- `template_engine_start` -/
def templateEngineStart (S : Slice) : Render σ Unit := ⟨fun s =>
  ⟨.ok (), { s with engineIndex := s.engineIndex + 1 }, [.start s.engineIndex S]⟩⟩

/-- `template_engine_stop` -/
def templateEngineStop : Render σ Unit := ⟨fun s =>
  if s.engineIndex = 0 then ⟨.ok (), s, []⟩
  else ⟨.ok (), { s with engineIndex := s.engineIndex - 1 }, [.stop (s.engineIndex - 1)]⟩⟩

section

variable (host : TemplateHost σ) (render : Slice → Render σ Bool)

/-- The loop of `engine_loop_array`, from an element on. The body is rendered at the index of the
loop. -/
def visitElements (body : Slice) (array : Nat) (vars : LoopVariables) :
    Nat → Option Nat → Render σ Unit
  | _, none => pure ()
  | 0, some _ => .fail .outOfFuel
  | fuel + 1, some element => do
      call (host.bindElement vars element)
      let s ← .read
      .emit (.visit s.engineIndex array element vars s.host)
      let _ ← render body
      let next ← call (host.arrayNext array)
      visitElements body array vars fuel next

/-- `engine_loop_array` on the array, up to its end. -/
def loopOverArray (fuel : Nat) (func : FunctionParas) (body : Slice) (array : Nat) :
    Render σ Unit := do
  match ← call (host.loopNames func) with
  | none => pure ()
  | some names =>
      let first ← call (host.arrayFirst array)
      let vars ← call (host.loopVariables names)
      visitElements host render body array vars fuel first

/-- `engine_loop_array` behind the tag search. A second parameter that is missing is read through
a null pointer. -/
def loopElements (fuel : Nat) (func : FunctionParas) (body : Slice) : Render σ Unit :=
  if func.parameter = [] then pure ()
  else do
    match ← call (host.loopArray func) with
    | none => pure ()
    | some array =>
        if func.parameter.length < 2 then .fail .nullPointer
        else loopOverArray host render fuel func body array

/-- `engine_loop_array` on the slice behind the tag; the result is what it adds to `i`. -/
def engineLoopArray (fuel : Nat) (func : FunctionParas) (S : Slice) : Render σ Int := do
  .emitAll (.search S :: (tagEndSearches S loopTag endloopTag (S.length.toNat + 1) 0 1).map .search)
  let pos1 := findTagEndPos S loopTag endloopTag
  loopElements host render fuel func (S.sub 0 (pos1 - 9))
  pure pos1

/-- The branch of `engine_TemplateIF` that a condition selects, if there is one. -/
def selectBranch (S : Slice) (tags : IfTags) : ConditionReturn → Option Slice
  | .conditionError => none
  | .conditionTrue =>
      some (S.sub 0 (if tags.elsePos ≠ -1 then tags.elsePos - 6 else tags.endifPos - 7))
  | .conditionFalse =>
      if tags.elsePos ≠ -1 then some (S.sub tags.elsePos (tags.endifPos - tags.elsePos - 7))
      else none

/-- `engine_TemplateIF` on the slice behind the tag; the results are what it adds to `i`, and
whether a branch has returned. -/
def engineTemplateIf (func : FunctionParas) (S : Slice) : Render σ (Int × Bool) := do
  .emitAll (.search S :: (ifTagSearches S (S.length.toNat + 1) 0 0).map .search)
  match findIfTagsPos S with
  | none => pure (0, false)
  | some tags =>
      let condition ← call (host.callCondition func)
      match selectBranch S tags condition with
      | none => pure (tags.endifPos, false)
      | some branch =>
          let returnFound ← render branch
          pure (tags.endifPos, returnFound)

/-- `engine_includeFile` -/
def engineIncludeFile (func : FunctionParas) : Render σ Unit :=
  match func.parameter with
  | [] => pure ()
  | name :: _ => do
      match ← call (host.getFile name) with
      | .notFound =>
          sendText (ascii "<font color=\"#FF0000\" >include " ++ name ++ ascii " not found</font>")
      | .readError =>
          sendText (ascii "<font color=\"#FF0000\" >include " ++ name ++ ascii " read error</font>")
      | .page p => do
          let _ ← render p.whole
          pure ()

/-- `TEMPLATE_ECHO_FUNCS_ON` -/
def echoFuncsOn (func : FunctionParas) (s : Engine σ) : Engine σ :=
  { s with
    enablePrintFuncs := true
    printFuncPrefix := (func.parameter.getD 0 []).take 49
    printFuncPostfix := (func.parameter.getD 1 []).take 49 }

/-- The local variables of `processHTML`: the position, the position up to which the page is sent,
and whether the page has returned. -/
structure Position where
  i : Int
  last : Int
  returnFound : Bool := false
  deriving DecidableEq, Repr

/-- The switch of the main loop, on a function with its closing brace at `e`. -/
def runFunction (fuel : Nat) (S : Slice) (func : FunctionParas) (e last : Int) :
    Render σ Position := do
  match func.function with
  | .buildinFunction | .platformFunction =>
      call (host.platformFunction func)
      pure ⟨e, e + 1, false⟩
  | .includeFile =>
      engineIncludeFile host render func
      pure ⟨e, e + 1, false⟩
  | .getVariable =>
      let s ← .read
      call (host.getVariable func ¬ s.disableOutput)
      pure ⟨e, e + 1, false⟩
  | .setVariable =>
      call (host.setVariable func)
      pure ⟨e, e + 1, false⟩
  | .loopArray =>
      let pos1 ← engineLoopArray host render fuel func (S.sub (e + 1) (S.length - e))
      pure ⟨e + pos1, e + pos1 + 1, false⟩
  | .returnFunction => pure ⟨S.length, S.length, true⟩
  | .echoOff =>
      .change fun s => { s with disableOutput := true }
      pure ⟨e, e + 1, false⟩
  | .echoOn =>
      .change fun s => { s with disableOutput := false }
      pure ⟨e, e + 1, false⟩
  | .echoFuncsOff =>
      .change fun s => { s with enablePrintFuncs := false }
      pure ⟨e, e + 1, false⟩
  | .echoFuncsOn =>
      .change (echoFuncsOn func)
      pure ⟨e, e + 1, false⟩
  | .ifFunction =>
      let (pos, returnFound) ← engineTemplateIf host render func (S.sub (e + 1) (S.length - (e + 1)))
      if returnFound then pure ⟨S.length, S.length, true⟩
      else pure ⟨e + 1 + pos, e + 1 + pos, false⟩
  | .unknown => pure ⟨e, last, false⟩

/-- The text before a function is sent, if there is some. -/
def sendBefore (S : Slice) (i last : Int) : Render σ Unit :=
  if last < i then sendHTMLChunk (S.sub last (i - last)) else pure ()

/-- A function from `i` to `e` is sent itself, if functions are printed. -/
def printFunction (S : Slice) (func : FunctionParas) (i e : Int) : Render σ Unit := do
  let s ← .read
  if s.enablePrintFuncs ∧ ¬ (func.function = .echoFuncsOn ∨ func.function = .echoFuncsOff) then do
    sendText s.printFuncPrefix
    sendHTMLChunk (S.sub i (e - i + 1))
    sendText s.printFuncPostfix
  else pure ()

/-- The main loop of `processHTML`. Every round goes forward; the first argument bounds their
number. -/
def mainLoop (fuel : Nat) (S : Slice) : Nat → Position → Render σ Position
  | 0, _ => .fail .outOfFuel
  | rounds + 1, p =>
      if p.i < S.length then
        match functionAt host.platformFunctionExists S p.i with
        | .plain => mainLoop fuel S rounds { p with i := p.i + 1 }
        | .unknown => mainLoop fuel S rounds { p with i := p.i + 2 }
        | .function func e => do
            sendBefore S p.i p.last
            printFunction S func p.i e
            let p ← runFunction host render fuel S func e p.last
            mainLoop fuel S rounds { p with i := p.i + 1 }
      else pure p

end

/-- `template_v1_header` -/
def templateV1Header : List UInt8 := ascii "TEMPLATE_V1"

/-- The page behind its header. The null byte of the string constant is counted, too. -/
def skipHeader (S : Slice) : Slice :=
  if S.reads 0 templateV1Header then S.sub 12 (S.length - 12) else S

/-- `processHTML`; the result is whether the page has returned. -/
def processHTML (host : TemplateHost σ) : Nat → Slice → Render σ Bool
  | 0, _ => .fail .outOfFuel
  | fuel + 1, S => do
      templateEngineStart S
      let T := skipHeader S
      let p ← mainLoop host (processHTML host fuel) (fuel + 1) T (T.length.toNat + 1) ⟨0, 0, false⟩
      sendHTMLChunk (T.sub p.last (T.length - p.last))
      templateEngineStop
      pure p.returnFound

/-- The bytes that a run sends. -/
def sentBytes (events : List (Event σ)) : List UInt8 :=
  events.flatMap fun
    | .sent bytes => bytes
    | _ => []

end CWebUI.Template
