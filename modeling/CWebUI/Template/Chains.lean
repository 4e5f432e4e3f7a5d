import CWebUI.Template.Engine

set_option autoImplicit false

/-! # What the text of a page allows

Where the main loop of `processHTML` can get in a slice, which slices it can render there, and which
slices it hands to a search or to `sendHTMLChunk`, as far as the text decides it: which function
stands at a position does not depend on the values of variables and conditions, and neither does the
position behind it, unless a branch returns. The main result is that a run does nothing else.
-/

namespace CWebUI.Template

open Traced

/-- What a template can rely on: the functions that are registered, and the files. -/
structure Site where
  registered : FunctionParas → Bool
  files : List UInt8 → Page → Prop

/-- A host of the site. A file may be missing. -/
structure TemplateHost.Serves {σ : Type} (host : TemplateHost σ) (site : Site) : Prop where
  registered : host.platformFunctionExists = site.registered
  files : ∀ name s p, (host.getFile name s).value = .page p → site.files name p

/-! ## Positions -/

/-- The slice behind an if tag whose closing brace is at `e`. -/
def ifSlice (T : Slice) (e : Int) : Slice := T.sub (e + 1) (T.length - (e + 1))

/-- The slice behind a loop tag whose closing brace is at `e`; it is one byte too long. -/
def loopSlice (T : Slice) (e : Int) : Slice := T.sub (e + 1) (T.length - e)

/-- What the search for the end of a loop adds to the position. -/
def loopEnd (T : Slice) (e : Int) : Int := findTagEndPos (loopSlice T e) loopTag endloopTag

/-- The body of a loop. -/
def loopBody (T : Slice) (e : Int) : Slice := (loopSlice T e).sub 0 (loopEnd T e - 9)

/-- What an if tag adds to the position. -/
def ifEnd (T : Slice) (e : Int) : Int :=
  match findIfTagsPos (ifSlice T e) with
  | none => 0
  | some tags => tags.endifPos

/-- The position behind a function, unless a branch returns. -/
def nextPosition (T : Slice) (func : FunctionParas) (e last : Int) : Position :=
  match func.function with
  | .loopArray => ⟨e + loopEnd T e, e + loopEnd T e + 1, false⟩
  | .returnFunction => ⟨T.length, T.length, true⟩
  | .ifFunction => ⟨e + 1 + ifEnd T e, e + 1 + ifEnd T e, false⟩
  | .unknown => ⟨e, last, false⟩
  | _ => ⟨e, e + 1, false⟩

/-- The round after a function. -/
def Position.next (p : Position) : Position := { p with i := p.i + 1 }

/-- The positions of the main loop when no branch returns. -/
inductive Reached (site : Site) (T : Slice) : Position → Prop where
  | start : Reached site T ⟨0, 0, false⟩
  | plain {p : Position} : Reached site T p → p.i < T.length →
      functionAt site.registered T p.i = .plain → Reached site T p.next
  | unknown {p : Position} : Reached site T p → p.i < T.length →
      functionAt site.registered T p.i = .unknown →
      Reached site T { p with i := p.i + 2 }
  | function {p : Position} {func : FunctionParas} {e : Int} : Reached site T p →
      p.i < T.length → functionAt site.registered T p.i = .function func e →
      Reached site T (nextPosition T func e p.last).next

/-- A function that the main loop can get to. -/
structure TagAt (site : Site) (T : Slice) (p : Position) (func : FunctionParas) (e : Int) :
    Prop where
  reached : Reached site T p
  inside : p.i < T.length
  found : functionAt site.registered T p.i = .function func e

theorem TagAt.next {site : Site} {T : Slice} {p : Position} {func : FunctionParas} {e : Int}
    (h : TagAt site T p func e) : Reached site T (nextPosition T func e p.last).next :=
  .function h.reached h.inside h.found

theorem loopEnd_spec {T : Slice} {e : Int} (he : e ≤ T.length) :
    loopEnd T e = -1 ∨ (9 ≤ loopEnd T e ∧ loopEnd T e ≤ T.length - e) := by
  have hlen : 0 ≤ (loopSlice T e).length := by simp only [loopSlice, Slice.sub_length]; omega
  have hne : endloopTag ≠ [] := by decide
  rcases @findTagEndPos_spec _ loopTag _ hne hlen with h | ⟨h1, h2, -⟩
  · exact Or.inl h
  · rw [endloopTag_length] at h1
    exact Or.inr ⟨h1, h2⟩

theorem ifEnd_nonneg (T : Slice) (e : Int) : 0 ≤ ifEnd T e := by
  unfold ifEnd
  split
  · exact le_refl _
  · next tags htags =>
    have := (findIfTagsPos_ordered htags).endif_le
    omega

/-- Every round goes forward. -/
theorem nextPosition_forward {T : Slice} {func : FunctionParas} {e last : Int} (he : e < T.length) :
    e ≤ (nextPosition T func e last).next.i := by
  unfold nextPosition Position.next
  have hloop := loopEnd_spec (T := T) (e := e) (by omega)
  have hif := ifEnd_nonneg T e
  split <;> dsimp only <;> omega

/-- What has been sent is before the position. -/
theorem Reached.ordered {site : Site} {T : Slice} {p : Position} (h : Reached site T p) :
    0 ≤ p.last ∧ p.last ≤ p.i := by
  induction h with
  | start => exact ⟨le_refl _, le_refl _⟩
  | plain _ _ _ ih => exact ⟨ih.1, by simp only [Position.next]; omega⟩
  | unknown _ _ _ ih => exact ⟨ih.1, by dsimp only; omega⟩
  | @function p func e _ hi hfound ih =>
      obtain ⟨h1, h2, -⟩ := functionAt_spec hfound
      unfold nextPosition Position.next
      have hloop := loopEnd_spec (T := T) (e := e) (by omega)
      have hif := ifEnd_nonneg T e
      split <;> dsimp only <;> omega

/-! ## The slices of a run -/

/-- A slice that is rendered while another one is rendered: a branch, the body of a loop, or a file
that is included. -/
inductive Child (site : Site) (S : Slice) : Slice → Prop where
  | branch {p : Position} {func : FunctionParas} {e : Int} {tags : IfTags} {U : Slice}
      {condition : ConditionReturn} : TagAt site (skipHeader S) p func e →
      func.function = .ifFunction → findIfTagsPos (ifSlice (skipHeader S) e) = some tags →
      selectBranch (ifSlice (skipHeader S) e) tags condition = some U → Child site S U
  | body {p : Position} {func : FunctionParas} {e : Int} : TagAt site (skipHeader S) p func e →
      func.function = .loopArray → 2 ≤ func.parameter.length →
      Child site S (loopBody (skipHeader S) e)
  | file {p : Position} {func : FunctionParas} {e : Int} {name : List UInt8}
      {rest : List (List UInt8)} {q : Page} : TagAt site (skipHeader S) p func e →
      func.function = .includeFile → func.parameter = name :: rest → site.files name q →
      Child site S q.whole

/-- Slices that are rendered inside one another. -/
inductive Chain (site : Site) : Nat → Slice → Slice → Prop where
  | refl (S : Slice) : Chain site 0 S S
  | step {n : Nat} {S T U : Slice} : Child site S T → Chain site n T U → Chain site (n + 1) S U

/-- A slice that is searched or sent while a slice is rendered; `T` is the slice behind its
header. -/
inductive Used (site : Site) (T : Slice) : Slice → Prop where
  | text {p : Position} {func : FunctionParas} {e : Int} : TagAt site T p func e → p.last < p.i →
      Used site T (T.sub p.last (p.i - p.last))
  | tag {p : Position} {func : FunctionParas} {e : Int} : TagAt site T p func e →
      Used site T (T.sub p.i (e - p.i + 1))
  | rest {p : Position} : Reached site T p → T.length ≤ p.i →
      Used site T (T.sub p.last (T.length - p.last))
  | returned : Used site T (T.sub T.length 0)
  | loop {p : Position} {func : FunctionParas} {e : Int} {X : Slice} : TagAt site T p func e →
      func.function = .loopArray →
      X ∈ loopSlice T e ::
        tagEndSearches (loopSlice T e) loopTag endloopTag ((loopSlice T e).length.toNat + 1) 0 1 →
      Used site T X
  | if {p : Position} {func : FunctionParas} {e : Int} {X : Slice} : TagAt site T p func e →
      func.function = .ifFunction →
      X ∈ ifSlice T e :: ifTagSearches (ifSlice T e) ((ifSlice T e).length.toNat + 1) 0 0 →
      Used site T X

/-- The events that the text of a page allows, when its rendering starts at an index. -/
def Allowed {σ : Type} (site : Site) (index : Nat) (S : Slice) : Event σ → Prop
  | .start k X => ∃ n, k = index + n ∧ Chain site n S X
  | .stop k => ∃ n X, k = index + n ∧ Chain site n S X
  | .search X => ∃ n Y, Chain site n S Y ∧ Used site (skipHeader Y) X
  | .chunk X => ∃ n Y, Chain site n S Y ∧ Used site (skipHeader Y) X
  | _ => True

theorem Allowed.of_child {σ : Type} {site : Site} {index : Nat} {S U : Slice} (h : Child site S U)
    {e : Event σ} (he : Allowed site (index + 1) U e) : Allowed site index S e := by
  cases e with
  | start k X =>
      obtain ⟨n, rfl, hn⟩ := he
      exact ⟨n + 1, by omega, .step h hn⟩
  | stop k =>
      obtain ⟨n, X, rfl, hn⟩ := he
      exact ⟨n + 1, X, by omega, .step h hn⟩
  | search X | chunk X =>
      obtain ⟨n, Y, hn, hX⟩ := he
      exact ⟨n + 1, Y, .step h hn, hX⟩
  | sent bytes | traverse array | visit index array element vars host => trivial

/-! ## Runs -/

section

variable {σ : Type} {site : Site} {host : TemplateHost σ} {render : Slice → Render σ Bool}
  {index : Nat} {S : Slice}

/-- The event is allowed, and the next event comes at the same index. -/
abbrev Fits {α : Type} (site : Site) (index : Nat) (S : Slice) (m : Render σ α) : Prop :=
  ∀ s, s.engineIndex = index + 1 →
    (m.run s).Meets (Allowed site index S) fun _ s' => s'.engineIndex = index + 1

theorem meets_call {α : Type} (f : σ → Answer σ α) {s : Engine σ} (hs : s.engineIndex = index + 1) :
    ((call f).run s).Meets (Allowed site index S) fun a s' =>
      s'.engineIndex = index + 1 ∧ a = (f s.host).value := by
  refine ⟨fun e he => ?_, fun a ha => ⟨hs, (Except.ok.inj ha).symm⟩⟩
  rcases List.mem_append.mp he with he | he
  · obtain ⟨a, -, rfl⟩ := List.mem_map.mp he
    trivial
  · unfold Engine.output at he
    split at he
    · cases he
    · rw [List.mem_singleton.mp he]
      trivial

theorem fits_call {α : Type} (f : σ → Answer σ α) : Fits site index S (call f) :=
  fun _ hs => (meets_call f hs).mono fun _ _ h => h.1

theorem fits_sendText (bytes : List UInt8) : Fits (σ := σ) site index S (sendText bytes) := by
  intro s hs
  refine ⟨fun e he => ?_, fun a ha => hs⟩
  change e ∈ s.output bytes at he
  unfold Engine.output at he
  split at he
  · cases he
  · rw [List.mem_singleton.mp he]
    trivial

theorem fits_sendHTMLChunk {X : Slice} (h : Used site (skipHeader S) X) :
    Fits (σ := σ) site index S (sendHTMLChunk X) := by
  intro s hs
  refine ⟨fun e he => ?_, fun a ha => hs⟩
  rcases List.mem_cons.mp he with rfl | he
  · exact ⟨0, S, .refl S, h⟩
  · unfold Engine.output at he
    split at he
    · cases he
    · rw [List.mem_singleton.mp he]
      trivial

theorem fits_searches {X : Slice} {rounds : List Slice}
    (h : ∀ Y ∈ X :: rounds, Used site (skipHeader S) Y) :
    Fits (σ := σ) site index S (.emitAll (.search X :: rounds.map .search)) := by
  intro s hs
  refine .emitAll (fun e he => ?_) hs
  rw [← List.map_cons] at he
  obtain ⟨Y, hY, rfl⟩ := List.mem_map.mp he
  exact ⟨0, S, .refl S, h Y hY⟩

theorem fits_pure {α : Type} (a : α) : Fits (σ := σ) site index S (pure a : Render σ α) :=
  fun _ hs => .pure hs

theorem fits_fail {α : Type} (e : Stop) : Fits (σ := σ) site index S (.fail e : Render σ α) :=
  fun _ _ => .fail

theorem fits_read : Fits (σ := σ) site index S (.read : Render σ (Engine σ)) :=
  fun _ hs => .read hs

theorem fits_emit {e : Event σ} (he : Allowed site index S e) :
    Fits site index S (.emit e : Render σ Unit) :=
  fun _ hs => .emit he hs

theorem fits_change {f : Engine σ → Engine σ}
    (hf : ∀ s, s.engineIndex = index + 1 → (f s).engineIndex = index + 1) :
    Fits site index S (.change f : Render σ Unit) :=
  fun s hs => .change (hf s hs)

theorem Fits.bind {α β : Type} {m : Render σ α} {f : α → Render σ β} (hm : Fits site index S m)
    (hf : ∀ a, Fits site index S (f a)) : Fits site index S (m >>= f) :=
  fun s hs => .bind (hm s hs) fun a s' hs' => hf a s' hs'

/-- The call `processHTML(..)` on every slice that can be rendered here. -/
abbrev RendersChildren (site : Site) (index : Nat) (S : Slice) (render : Slice → Render σ Bool) :
    Prop :=
  ∀ U, Child site S U → Fits site index S (render U)

theorem fits_visitElements {body : Slice} (hrender : Fits site index S (render body))
    (array : Nat) (vars : LoopVariables) (fuel : Nat) (next : Option Nat) :
    Fits site index S (visitElements host render body array vars fuel next) := by
  induction fuel generalizing next with
  | zero =>
      cases next with
      | none => exact fits_pure ()
      | some element => exact fits_fail .outOfFuel
  | succ fuel ih =>
      cases next with
      | none => exact fits_pure ()
      | some element =>
          refine (fits_call _).bind fun _ => fits_read.bind fun t => (fits_emit ?_).bind fun _ =>
            hrender.bind fun _ => (fits_call _).bind fun next => ih next
          trivial

theorem fits_loopElements {func : FunctionParas} {body : Slice} (fuel : Nat)
    (hrender : 2 ≤ func.parameter.length → Fits site index S (render body)) :
    Fits site index S (loopElements host render fuel func body) := by
  unfold loopElements
  split
  · exact fits_pure ()
  · refine (fits_call _).bind fun array => ?_
    cases array with
    | none => exact fits_pure ()
    | some array =>
        dsimp only
        split
        · exact fits_fail .nullPointer
        · next hlen =>
          refine (fits_call _).bind fun names => ?_
          cases names with
          | none => exact fits_pure ()
          | some names =>
              exact (fits_call _).bind fun first => (fits_call _).bind fun vars =>
                fits_visitElements (hrender (by omega)) array vars fuel first

theorem fits_loopArray {T : Slice} {func : FunctionParas} {e : Int}
    (hsearch : ∀ X ∈ loopSlice T e :: tagEndSearches (loopSlice T e) loopTag endloopTag
      ((loopSlice T e).length.toNat + 1) 0 1, Used site (skipHeader S) X)
    (hrender : 2 ≤ func.parameter.length → Fits site index S (render (loopBody T e))) (fuel : Nat) :
    Fits site index S (engineLoopArray host render fuel func (loopSlice T e)) :=
  (fits_searches hsearch).bind fun _ => (fits_loopElements fuel hrender).bind fun _ => fits_pure _

theorem fits_templateIf {T : Slice} {func : FunctionParas} {e : Int}
    (hsearch : ∀ X ∈ ifSlice T e :: ifTagSearches (ifSlice T e)
      ((ifSlice T e).length.toNat + 1) 0 0, Used site (skipHeader S) X)
    (hrender : ∀ tags condition U, findIfTagsPos (ifSlice T e) = some tags →
      selectBranch (ifSlice T e) tags condition = some U → Fits site index S (render U)) :
    Fits site index S (engineTemplateIf host render func (ifSlice T e)) := by
  refine (fits_searches hsearch).bind fun _ => ?_
  cases htags : findIfTagsPos (ifSlice T e) with
  | none => exact fits_pure _
  | some tags =>
      refine (fits_call _).bind fun condition => ?_
      cases hU : selectBranch (ifSlice T e) tags condition with
      | none => exact fits_pure _
      | some U => exact (hrender tags condition U htags hU).bind fun _ => fits_pure _

theorem fits_includeFile {func : FunctionParas} (hhost : host.Serves site)
    (hrender : ∀ name rest q, func.parameter = name :: rest → site.files name q →
      Fits site index S (render q.whole)) :
    Fits site index S (engineIncludeFile host render func) := by
  intro s hs
  unfold engineIncludeFile
  split
  · exact fits_pure () s hs
  · next name rest hparam =>
    refine .bind (meets_call _ hs) ?_
    rintro file s' ⟨hs', rfl⟩
    split
    · exact fits_sendText _ s' hs'
    · exact fits_sendText _ s' hs'
    · next q hq =>
      refine ((hrender name rest q hparam ?_).bind fun _ => fits_pure ()) s' hs'
      exact hhost.files name s.host q hq

theorem fits_runFunction {p : Position} {func : FunctionParas} {e : Int}
    (hhost : host.Serves site) (hrender : RendersChildren site index S render)
    (htag : TagAt site (skipHeader S) p func e) (fuel : Nat) :
    Fits site index S (runFunction host render fuel (skipHeader S) func e p.last) := by
  unfold runFunction
  cases hfunc : func.function with
  | buildinFunction | platformFunction | setVariable =>
      exact (fits_call _).bind fun _ => fits_pure _
  | getVariable => exact fits_read.bind fun s => (fits_call _).bind fun _ => fits_pure _
  | echoOff | echoOn | echoFuncsOff | echoFuncsOn =>
      refine Fits.bind (fits_change ?_) fun _ => fits_pure _
      exact fun _ hs => hs
  | unknown | returnFunction => exact fits_pure _
  | includeFile =>
      refine (fits_includeFile hhost fun name rest q hparam hfile => ?_).bind fun _ => fits_pure _
      exact hrender _ (.file htag hfunc hparam hfile)
  | loopArray =>
      refine (fits_loopArray (fun X hX => ?_) (fun hlen => ?_) fuel).bind fun _ => fits_pure _
      · exact .loop htag hfunc hX
      · exact hrender _ (.body htag hfunc hlen)
  | ifFunction =>
      refine (fits_templateIf (fun X hX => ?_) (fun tags condition U htags hU => ?_)).bind fun r => ?_
      · exact .if htag hfunc hX
      · exact hrender _ (.branch htag hfunc htags hU)
      · obtain ⟨pos, returnFound⟩ := r
        cases returnFound <;> exact fits_pure _

/-- What the switch returns: the position that the text gives, or the end of the slice. -/
theorem runFunction_result (host : TemplateHost σ) (render : Slice → Render σ Bool) (fuel : Nat)
    (T : Slice) (func : FunctionParas) (e last : Int) (s : Engine σ) :
    ((runFunction host render fuel T func e last).run s).Meets (fun _ => True) fun q _ =>
      q = nextPosition T func e last ∨ q = ⟨T.length, T.length, true⟩ := by
  unfold runFunction nextPosition
  cases hfunc : func.function with
  | buildinFunction | platformFunction | setVariable | echoOff | echoOn | echoFuncsOff
  | echoFuncsOn | includeFile =>
      exact .bind (.any _) fun _ _ _ => .pure (Or.inl rfl)
  | getVariable => exact .bind (.any _) fun _ _ _ => .bind (.any _) fun _ _ _ => .pure (Or.inl rfl)
  | unknown | returnFunction => exact .pure (Or.inl rfl)
  | loopArray =>
      have hvalue : ((engineLoopArray host render fuel func (loopSlice T e)).run s).Meets
          (fun _ => True) fun pos1 _ => pos1 = loopEnd T e :=
        .bind (.any _) fun _ _ _ => .bind (.any _) fun _ _ _ => .pure rfl
      exact .bind hvalue fun pos1 _ hpos1 => .pure (Or.inl (by rw [hpos1]))
  | ifFunction =>
      have hvalue : ((engineTemplateIf host render func (ifSlice T e)).run s).Meets
          (fun _ => True) fun r _ => r.1 = ifEnd T e := by
        refine .bind (.any _) fun _ _ _ => ?_
        unfold ifEnd
        cases findIfTagsPos (ifSlice T e) with
        | none => exact .pure rfl
        | some tags =>
            refine .bind (.any _) fun condition _ _ => ?_
            cases selectBranch (ifSlice T e) tags condition with
            | none => exact .pure rfl
            | some U => exact .bind (.any _) fun _ _ _ => .pure rfl
      refine .bind hvalue ?_
      rintro ⟨pos, returnFound⟩ s' rfl
      cases returnFound with
      | true => exact .pure (Or.inr rfl)
      | false => exact .pure (Or.inl rfl)

theorem fits_printFunction {p : Position} {func : FunctionParas} {e : Int}
    (htag : TagAt site (skipHeader S) p func e) :
    Fits (σ := σ) site index S (printFunction (skipHeader S) func p.i e) := by
  unfold printFunction
  refine fits_read.bind fun t => ?_
  split
  · exact (fits_sendText _).bind fun _ => (fits_sendHTMLChunk (.tag htag)).bind fun _ =>
      fits_sendText _
  · exact fits_pure ()

theorem fits_sendBefore {p : Position} {func : FunctionParas} {e : Int}
    (htag : TagAt site (skipHeader S) p func e) :
    Fits (σ := σ) site index S (sendBefore (skipHeader S) p.i p.last) := by
  unfold sendBefore
  split
  · next hlt => exact fits_sendHTMLChunk (.text htag hlt)
  · exact fits_pure ()

/-- Where the main loop ends. -/
def Ended (site : Site) (T : Slice) (p : Position) : Prop :=
  (Reached site T p ∧ T.length ≤ p.i) ∨ p.last = T.length

/-- What is sent behind the main loop. -/
theorem Ended.used {T : Slice} {p : Position} (h : Ended site T p) :
    Used site T (T.sub p.last (T.length - p.last)) := by
  rcases h with ⟨hreach, hle⟩ | hlast
  · exact .rest hreach hle
  · rw [hlast, Int.sub_self]
    exact .returned

theorem meets_stop {s : Engine σ} (hs : s.engineIndex = index + 1) :
    ((templateEngineStop (σ := σ)).run s).Meets (Allowed site index S) fun _ s' =>
      s'.engineIndex = index := by
  unfold templateEngineStop
  dsimp only
  rw [if_neg (by omega), hs]
  refine ⟨fun e he => ?_, fun _ _ => rfl⟩
  rw [List.mem_singleton.mp he]
  exact ⟨0, S, rfl, .refl S⟩

theorem fits_mainLoop (hhost : host.Serves site) (hrender : RendersChildren site index S render)
    (fuel rounds : Nat) {p : Position} (hp : Reached site (skipHeader S) p ∨
      ((skipHeader S).length < p.i ∧ p.last = (skipHeader S).length)) :
    ∀ s, s.engineIndex = index + 1 →
      ((mainLoop host render fuel (skipHeader S) rounds p).run s).Meets (Allowed site index S)
        fun q s' => s'.engineIndex = index + 1 ∧ Ended site (skipHeader S) q := by
  induction rounds generalizing p with
  | zero => exact fun _ _ => .fail
  | succ rounds ih =>
      intro s hs
      unfold mainLoop
      by_cases hi : p.i < (skipHeader S).length
      · have hreach : Reached site (skipHeader S) p := hp.resolve_right fun h => by omega
        rw [if_pos hi, hhost.registered]
        split
        · next hplain => exact ih (Or.inl (hreach.plain hi hplain)) s hs
        · next hunknown => exact ih (Or.inl (hreach.unknown hi hunknown)) s hs
        · next func e hfound =>
          have htag : TagAt site (skipHeader S) p func e := ⟨hreach, hi, hfound⟩
          refine .bind (fits_sendBefore htag s hs) fun _ s₁ hs₁ => ?_
          refine .bind (fits_printFunction htag s₁ hs₁) fun _ s₂ hs₂ => ?_
          refine .bind ((fits_runFunction hhost hrender htag fuel s₂ hs₂).and
            (runFunction_result host render fuel _ func e p.last s₂)) ?_
          rintro q s₃ ⟨hs₃, rfl | rfl⟩
          · exact ih (Or.inl htag.next) s₃ hs₃
          · exact ih (Or.inr ⟨by dsimp only; omega, rfl⟩) s₃ hs₃
      · rw [if_neg hi]
        refine .pure ⟨hs, ?_⟩
        rcases hp with hp | hp
        · exact Or.inl ⟨hp, by omega⟩
        · exact Or.inr hp.2

end

/-- **What a run does.** Every event of a run is one that the text of the page allows, and the next
entry is the one that it started with. -/
theorem processHTML_allowed {σ : Type} {site : Site} {host : TemplateHost σ}
    (hhost : host.Serves site) (fuel : Nat) (S : Slice) (s : Engine σ) :
    ((processHTML host fuel S).run s).Meets (Allowed site s.engineIndex S) fun _ s' =>
      s'.engineIndex = s.engineIndex := by
  induction fuel generalizing S s with
  | zero => exact .fail
  | succ fuel ih =>
      have hrender : RendersChildren site s.engineIndex S (processHTML host fuel) := by
        intro U hU s₁ hs₁
        have hchild := ih U s₁
        rw [hs₁] at hchild
        exact ⟨fun e he => Allowed.of_child hU (hchild.events e he), hchild.returned⟩
      have hstart : ((templateEngineStart (σ := σ) S).run s).Meets (Allowed site s.engineIndex S)
          fun _ s₁ => s₁.engineIndex = s.engineIndex + 1 := by
        refine ⟨fun e he => ?_, fun _ _ => rfl⟩
        rw [List.mem_singleton.mp he]
        exact ⟨0, rfl, .refl S⟩
      unfold processHTML
      refine .bind hstart fun _ s₁ hs₁ => ?_
      refine .bind (fits_mainLoop hhost hrender _ _ (Or.inl .start) s₁ hs₁) fun p s₂ hs₂ => ?_
      refine .bind (fits_sendHTMLChunk hs₂.2.used s₂ hs₂.1) fun _ s₃ hs₃ => ?_
      exact .bind (meets_stop hs₃) fun _ s₄ hs₄ => .pure hs₄

end CWebUI.Template
