import CWebUI.Template.Steering

set_option autoImplicit false

/-! # Rules for runs of the engine

What a run of `processHTML` keeps, from what the calls of the host and the loops over arrays keep.
The engine itself adds events that touch neither the host nor the index, and takes an entry of
`engine_list` for the time of a page.
-/

namespace CWebUI.Template

open Traced Program

variable {σ : Type}

/-- A search, or something that is sent. -/
def Event.Silent : Event σ → Prop
  | .search _ | .chunk _ | .sent _ => True
  | _ => False

/-- A relation for what happens inside a page, and one for whole pages. -/
structure RunRules (host : TemplateHost σ)
    (inside page : Engine σ → List (Event σ) → Engine σ → Prop) : Prop where
  composes : Composes inside
  silent : ∀ {s s' : Engine σ} {events : List (Event σ)}, s'.host = s.host →
    s'.engineIndex = s.engineIndex → (∀ e ∈ events, e.Silent) → inside s events s'
  ofPage : ∀ {s s' : Engine σ} {events : List (Event σ)}, page s events s' → inside s events s'
  toPage : ∀ (S : Slice) {s s' : Engine σ} {events : List (Event σ)},
    inside { s with engineIndex := s.engineIndex + 1 } events s' →
      page s (.start s.engineIndex S :: (events ++ (templateEngineStop.run s').events))
        (templateEngineStop.run s').state
  platformFunction : ∀ func, (call (host.platformFunction func)).Keeps inside
  callCondition : ∀ func, (call (host.callCondition func)).Keeps inside
  getFile : ∀ name, (call (host.getFile name)).Keeps inside
  getVariable : ∀ func shown, (call (host.getVariable func shown)).Keeps inside
  setVariable : ∀ func, (call (host.setVariable func)).Keeps inside
  loopArray : ∀ func, (call (host.loopArray func)).Keeps inside
  loopOverArray : ∀ (render : Slice → Render σ Bool) fuel func body array,
    (∀ U, (render U).Keeps page) → (loopOverArray host render fuel func body array).Keeps inside

namespace RunRules

variable {host : TemplateHost σ} {inside page : Engine σ → List (Event σ) → Engine σ → Prop}
  {render : Slice → Render σ Bool}

/-- A program that sends something and does nothing else. -/
theorem keeps_silent {α : Type} (h : RunRules host inside page) {m : Render σ α}
    (hm : ∀ s a s' events, m.run s = ⟨.ok a, s', events⟩ →
      s'.host = s.host ∧ s'.engineIndex = s.engineIndex ∧ ∀ e ∈ events, e.Silent) :
    m.Keeps inside := by
  intro s a s' events hrun
  obtain ⟨hhost, hindex, hsilent⟩ := hm s a s' events hrun
  exact h.silent hhost hindex hsilent

theorem output_silent (s : Engine σ) (bytes : List UInt8) : ∀ e ∈ s.output bytes, e.Silent := by
  intro e he
  unfold Engine.output at he
  split at he
  · cases he
  · rw [List.mem_singleton.mp he]
    trivial

theorem sendText (h : RunRules host inside page) (bytes : List UInt8) :
    (Template.sendText bytes : Render σ Unit).Keeps inside := by
  refine h.keeps_silent fun s a s' events hrun => ?_
  cases hrun
  exact ⟨rfl, rfl, output_silent s bytes⟩

theorem sendHTMLChunk (h : RunRules host inside page) (X : Slice) :
    (Template.sendHTMLChunk X : Render σ Unit).Keeps inside := by
  refine h.keeps_silent fun s a s' events hrun => ?_
  cases hrun
  refine ⟨rfl, rfl, fun e he => ?_⟩
  rcases List.mem_cons.mp he with rfl | he
  · trivial
  · exact output_silent s X.bytes e he

theorem searches (h : RunRules host inside page) (X : Slice) (rounds : List Slice) :
    (.emitAll (.search X :: rounds.map .search) : Render σ Unit).Keeps inside := by
  refine h.keeps_silent fun s a s' events hrun => ?_
  cases hrun
  refine ⟨rfl, rfl, fun e he => ?_⟩
  rw [← List.map_cons] at he
  obtain ⟨Y, -, rfl⟩ := List.mem_map.mp he
  trivial

theorem change (h : RunRules host inside page) {f : Engine σ → Engine σ}
    (hf : ∀ s, (f s).host = s.host ∧ (f s).engineIndex = s.engineIndex) :
    (.change f : Render σ Unit).Keeps inside := by
  refine h.keeps_silent fun s a s' events hrun => ?_
  cases hrun
  exact ⟨(hf s).1, (hf s).2, fun e he => nomatch he⟩

theorem read (h : RunRules host inside page) : (.read : Render σ (Engine σ)).Keeps inside :=
  Keeps.read h.composes

theorem loopElements (h : RunRules host inside page) (hrender : ∀ U, (render U).Keeps page)
    (fuel : Nat) (func : FunctionParas) (body : Slice) :
    (Template.loopElements host render fuel func body).Keeps inside := by
  unfold Template.loopElements
  split
  · exact Keeps.pure h.composes ()
  · refine Keeps.bind h.composes (h.loopArray func) fun array => ?_
    cases array with
    | none => exact Keeps.pure h.composes ()
    | some array =>
        dsimp only
        split
        · exact Keeps.fail _
        · exact h.loopOverArray render fuel func body array hrender

theorem engineLoopArray (h : RunRules host inside page) (hrender : ∀ U, (render U).Keeps page)
    (fuel : Nat) (func : FunctionParas) (S : Slice) :
    (Template.engineLoopArray host render fuel func S).Keeps inside := by
  unfold Template.engineLoopArray
  refine Keeps.bind h.composes (h.searches _ _) fun _ => ?_
  exact Keeps.bind h.composes (h.loopElements hrender fuel func _) fun _ =>
    Keeps.pure h.composes _

theorem engineTemplateIf (h : RunRules host inside page) (hrender : ∀ U, (render U).Keeps page)
    (func : FunctionParas) (S : Slice) :
    (Template.engineTemplateIf host render func S).Keeps inside := by
  unfold Template.engineTemplateIf
  refine Keeps.bind h.composes (h.searches _ _) fun _ => ?_
  cases findIfTagsPos S with
  | none => exact Keeps.pure h.composes _
  | some tags =>
      refine Keeps.bind h.composes (h.callCondition func) fun condition => ?_
      cases selectBranch S tags condition with
      | none => exact Keeps.pure h.composes _
      | some U =>
          exact Keeps.bind h.composes ((hrender U).mono fun _ _ _ => h.ofPage) fun _ =>
            Keeps.pure h.composes _

theorem engineIncludeFile (h : RunRules host inside page) (hrender : ∀ U, (render U).Keeps page)
    (func : FunctionParas) : (Template.engineIncludeFile host render func).Keeps inside := by
  unfold Template.engineIncludeFile
  cases func.parameter with
  | nil => exact Keeps.pure h.composes ()
  | cons name rest =>
      refine Keeps.bind h.composes (h.getFile name) fun file => ?_
      cases file with
      | notFound | readError => exact h.sendText _
      | page p =>
          exact Keeps.bind h.composes ((hrender p.whole).mono fun _ _ _ => h.ofPage) fun _ =>
            Keeps.pure h.composes _

theorem runFunction (h : RunRules host inside page) (hrender : ∀ U, (render U).Keeps page)
    (fuel : Nat) (T : Slice) (func : FunctionParas) (e last : Int) :
    (Template.runFunction host render fuel T func e last).Keeps inside := by
  unfold Template.runFunction
  cases func.function with
  | buildinFunction | platformFunction =>
      exact Keeps.bind h.composes (h.platformFunction func) fun _ => Keeps.pure h.composes _
  | setVariable =>
      exact Keeps.bind h.composes (h.setVariable func) fun _ => Keeps.pure h.composes _
  | getVariable =>
      exact Keeps.bind h.composes h.read fun s =>
        Keeps.bind h.composes (h.getVariable func _) fun _ => Keeps.pure h.composes _
  | echoOff | echoOn | echoFuncsOff | echoFuncsOn =>
      exact Keeps.bind h.composes (h.change fun _ => ⟨rfl, rfl⟩) fun _ => Keeps.pure h.composes _
  | unknown | returnFunction => exact Keeps.pure h.composes _
  | includeFile =>
      exact Keeps.bind h.composes (h.engineIncludeFile hrender func) fun _ =>
        Keeps.pure h.composes _
  | loopArray =>
      exact Keeps.bind h.composes (h.engineLoopArray hrender fuel func _) fun _ =>
        Keeps.pure h.composes _
  | ifFunction =>
      refine Keeps.bind h.composes (h.engineTemplateIf hrender func _) fun r => ?_
      obtain ⟨pos, returnFound⟩ := r
      cases returnFound <;> exact Keeps.pure h.composes _

theorem sendBefore (h : RunRules host inside page) (T : Slice) (i last : Int) :
    (Template.sendBefore T i last : Render σ Unit).Keeps inside := by
  unfold Template.sendBefore
  split
  · exact h.sendHTMLChunk _
  · exact Keeps.pure h.composes ()

theorem printFunction (h : RunRules host inside page) (T : Slice) (func : FunctionParas)
    (i e : Int) : (Template.printFunction T func i e : Render σ Unit).Keeps inside := by
  unfold Template.printFunction
  refine Keeps.bind h.composes h.read fun s => ?_
  split
  · exact Keeps.bind h.composes (h.sendText _) fun _ =>
      Keeps.bind h.composes (h.sendHTMLChunk _) fun _ => h.sendText _
  · exact Keeps.pure h.composes ()

theorem mainLoop (h : RunRules host inside page) (hrender : ∀ U, (render U).Keeps page)
    (fuel : Nat) (T : Slice) (rounds : Nat) (p : Position) :
    (Template.mainLoop host render fuel T rounds p).Keeps inside := by
  induction rounds generalizing p with
  | zero => exact Keeps.fail _
  | succ rounds ih =>
      unfold Template.mainLoop
      split
      · split
        · exact ih _
        · exact ih _
        · refine Keeps.bind h.composes (h.sendBefore T _ _) fun _ => ?_
          refine Keeps.bind h.composes (h.printFunction T _ _ _) fun _ => ?_
          exact Keeps.bind h.composes (h.runFunction hrender fuel T _ _ _) fun p => ih _
      · exact Keeps.pure h.composes p

/-- **What pages keep.** -/
theorem processHTML (h : RunRules host inside page) (fuel : Nat) (S : Slice) :
    (Template.processHTML host fuel S).Keeps page := by
  induction fuel generalizing S with
  | zero => exact Keeps.fail _
  | succ fuel ih =>
      intro s a s' events hrun
      rw [processHTML_succ] at hrun
      obtain ⟨_, s₁, events₁, rest, hstart, hbody, rfl⟩ := Keeps.run_bind hrun
      obtain ⟨p, s₂, events₂, rest, hloop, hfinish, rfl⟩ := Keeps.run_bind hbody
      obtain ⟨_, s₃, events₃, rest, hchunk, hend, rfl⟩ := Keeps.run_bind hfinish
      obtain ⟨_, s₄, events₄, rest, hstop, hpure, rfl⟩ := Keeps.run_bind hend
      cases hstart
      cases hpure
      have hinside := h.mainLoop ih (fuel + 1) (skipHeader S) _ _ _ _ _ _ hloop
      have hpage := h.toPage S (h.composes.trans hinside (h.sendHTMLChunk _ _ _ _ _ hchunk))
      rw [hstop] at hpage
      rw [List.append_nil, ← List.append_assoc events₂, List.singleton_append]
      exact hpage

end RunRules

end CWebUI.Template
