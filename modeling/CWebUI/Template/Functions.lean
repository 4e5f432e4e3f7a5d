import CWebUI.Template.Tags

set_option autoImplicit false

/-! # The functions of a template

How the main loop of `processHTML` reads a tag: the closing brace, the function
(`getEngineFunctionCode`) and its parameters (`parseFunction`, `checkParameterString`), all in
`engine.c`.
-/

namespace CWebUI.Template

open ByteString

/-- `ENGINE_FUNCTIONS` -/
inductive EngineFunctions where
  | unknown
  | platformFunction
  | buildinFunction
  | ifFunction
  | includeFile
  | echoOff
  | echoOn
  | echoFuncsOff
  | echoFuncsOn
  | getVariable
  | setVariable
  | loopArray
  | returnFunction
  deriving DecidableEq, Repr

/-- `FUNCTION_PARAS`: a function, and the texts of its parameters. -/
structure FunctionParas where
  function : EngineFunctions
  parameter : List (List UInt8) := []
  deriving DecidableEq, Repr

/-- `MAX_FUNC_PARAS` of the configurations. -/
def maxFuncParas : Nat := 20

/-- `FUNC_CMP`: the name, and the closing brace. -/
def funcCmp (S : Slice) (name : List UInt8) : Bool :=
  S.reads 1 name && S.at (name.length + 1) == 125

/-- `FUNC_CMP_OPTS`: the name, and a colon or the closing brace. -/
def funcCmpOpts (S : Slice) (name : List UInt8) : Bool :=
  S.reads 1 name && (S.at (name.length + 1) == 58 || S.at (name.length + 1) == 125)

/-- `func_cmp_extendet`: the name, and a colon. -/
def funcCmpExtendet (S : Slice) (name : List UInt8) : Bool :=
  decide ((name.length : Int) ≤ S.length) && S.reads 1 name && S.at (name.length + 1) == 58

/-- `getEngineFunctionCode` -/
def getEngineFunctionCode (S : Slice) : EngineFunctions :=
  if S.at 0 ≠ 123 then .unknown
  else if S.at 1 = 102 ∧ S.at 2 = 58 then .platformFunction
  else if S.at 1 = 98 ∧ S.at 2 = 58 then .buildinFunction
  else if funcCmp S (ascii "echo_off") then .echoOff
  else if funcCmp S (ascii "echo_on") then .echoOn
  else if funcCmpOpts S (ascii "echo_funcs_off") then .echoFuncsOff
  else if funcCmpOpts S (ascii "echo_funcs_on") then .echoFuncsOn
  else if funcCmp S (ascii "return") then .returnFunction
  else if funcCmpExtendet S (ascii "get") then .getVariable
  else if funcCmpExtendet S (ascii "set") then .setVariable
  else if funcCmpOpts S (ascii "if") then .ifFunction
  else if funcCmpOpts S (ascii "include") then .includeFile
  else if funcCmpOpts S (ascii "loop") then .loopArray
  else .unknown

/-- The bytes that `checkParameterString` lets pass. -/
def parameterByte (c : UInt8) : Bool :=
  c ∈ ascii "\" -.=;_[]/<>" || (48 ≤ c && c ≤ 57) || (65 ≤ c && c ≤ 90) || (97 ≤ c && c ≤ 122)

/-- `checkParameterString` -/
def checkParameterString (text : List UInt8) : Bool := text.all parameterByte

/-- The loop of `parseFunction` from the position `i`, over the bytes that remain: every colon and
the closing brace end a parameter, the first of them apart. The length of a parameter is kept in 16
bits. -/
def parametersFrom (S : Slice) : Nat → Int → Int → List (List UInt8)
  | 0, _, _ => []
  | n + 1, i, paraStart =>
      if S.at i = 58 ∨ S.at i = 125 then
        if paraStart = 0 then parametersFrom S n (i + 1) (i + 1)
        else
          (S.sub paraStart ((i - paraStart) % 65536)).bytes :: parametersFrom S n (i + 1) (i + 1)
      else parametersFrom S n (i + 1) paraStart

/-- `parseFunction`. A parameter that is not well formed makes the function an unknown one, and so
does a function of the platform that is not registered. -/
def parseFunction (registered : FunctionParas → Bool) (S : Slice) : FunctionParas :=
  match getEngineFunctionCode S with
  | .unknown => ⟨.unknown, []⟩
  | function =>
      let parameter := (parametersFrom S (S.length.toNat + 1) 0 0).take maxFuncParas
      if ¬ parameter.all checkParameterString then ⟨.unknown, parameter⟩
      else if function = .platformFunction ∨ function = .buildinFunction then
        if registered ⟨function, parameter⟩ then ⟨function, parameter⟩ else ⟨.unknown, parameter⟩
      else ⟨function, parameter⟩

/-- The search for the closing brace, over the bytes that remain. -/
def closingBrace (S : Slice) : Nat → Int → Option Int
  | 0, _ => none
  | n + 1, i => if S.at i = 125 then some i else closingBrace S n (i + 1)

/-- What the main loop finds at a position: no tag, a tag that it does not know, or a function with
the position of its closing brace. -/
inductive Found where
  | plain
  | unknown
  | function (func : FunctionParas) (endPos : Int)
  deriving DecidableEq, Repr

/-- A position of the main loop of `processHTML`. -/
def functionAt (registered : FunctionParas → Bool) (S : Slice) (i : Int) : Found :=
  if S.at i ≠ 123 then .plain
  else
    match closingBrace S (S.length - i).toNat i with
    | none => .plain
    | some endPos =>
        let func := parseFunction registered (S.sub i (endPos - i))
        if func.function = .unknown then .unknown else .function func endPos

theorem closingBrace_spec {S : Slice} (n : Nat) (i : Int) {e : Int}
    (h : closingBrace S n i = some e) : i ≤ e ∧ e < i + n ∧ S.at e = 125 := by
  induction n generalizing i with
  | zero => cases h
  | succ n ih =>
      unfold closingBrace at h
      split at h
      · next hbrace =>
        cases h
        exact ⟨le_refl _, by omega, hbrace⟩
      · obtain ⟨h1, h2, h3⟩ := ih (i + 1) h
        exact ⟨by omega, by omega, h3⟩

/-- A function that is found ends in the slice. -/
theorem functionAt_spec {registered : FunctionParas → Bool} {S : Slice} {i e : Int}
    {func : FunctionParas} (h : functionAt registered S i = .function func e) :
    i < e ∧ e < S.length ∧ S.at i = 123 := by
  unfold functionAt at h
  split at h
  · cases h
  · next hopen =>
    rw [not_not] at hopen
    split at h
    · cases h
    · next e' hclose =>
      dsimp only at h
      split at h
      · cases h
      · cases h
        obtain ⟨h1, h2, h3⟩ := closingBrace_spec _ _ hclose
        refine ⟨?_, by omega, hopen⟩
        rcases Int.lt_or_eq_of_le h1 with hlt | heq
        · exact hlt
        · rw [heq, h3] at hopen
          exact absurd hopen (by decide)

end CWebUI.Template
