import CWebUI.Template.Chains

set_option autoImplicit false

/-! # Runs that go where the text allows

A host that answers from a script. Every block that comes before a position can be passed by: an if
tag whose condition is not registered, a loop over something that is no array, a file that is
missing. So for every chain of slices there is a script with which a run renders them inside one
another.
-/

namespace CWebUI.Template

open Traced Program

/-- An answer of a script. -/
inductive Reply where
  | skip
  | branch (condition : ConditionReturn)
  | once
  | file (p : Page)

/-- The value of a condition. -/
def Reply.condition : Option Reply → ConditionReturn
  | some (.branch condition) => condition
  | _ => .conditionError

/-- The array of a loop tag. -/
def Reply.array : Option Reply → Option Nat
  | some .once => some 0
  | _ => none

open Classical in
/-- The file of an include tag. -/
noncomputable def Reply.fileResult (site : Site) (name : List UInt8) : Option Reply → FileResult
  | some (.file p) => if site.files name p then .page p else .notFound
  | _ => .notFound

/-- The host that answers conditions, loops and includes from a script. Its only array has one
element. -/
noncomputable def scriptHost (site : Site) : TemplateHost (List Reply) where
  platformFunctionExists := site.registered
  platformFunction _ s := { value := (), state := s }
  callCondition _ s := { value := Reply.condition s.head?, state := s.tail }
  getFile name s := { value := Reply.fileResult site name s.head?, state := s.tail }
  getVariable _ _ s := { value := (), state := s }
  setVariable _ s := { value := (), state := s }
  loopArray _ s := { value := Reply.array s.head?, state := s.tail }
  loopNames _ s := { value := some ⟨[], none⟩, state := s }
  arrayFirst _ s := { value := some 0, state := s }
  loopVariables _ s := { value := ⟨0, none⟩, state := s }
  bindElement _ _ s := { value := (), state := s }
  arrayNext _ s := { value := none, state := s }

theorem scriptHost_serves (site : Site) : (scriptHost site).Serves site := by
  refine ⟨rfl, fun name s p h => ?_⟩
  change Reply.fileResult site name s.head? = .page p at h
  unfold Reply.fileResult at h
  split at h
  · split at h
    · next hfile =>
      cases h
      exact hfile
    · cases h
  · cases h

section

variable {σ : Type} {site : Site} {render : Slice → Render (List Reply) Bool}

theorem returns_call {α : Type} (f : σ → Answer σ α) (s : Engine σ) :
    (call f).Returns s (f s.host).value { s with host := (f s.host).state } := ⟨_, rfl⟩

theorem returns_call_of {α : Type} {f : σ → Answer σ α} {s : Engine σ} {a : α} {t : σ}
    (ha : (f s.host).value = a) (ht : (f s.host).state = t) :
    (call f).Returns s a { s with host := t } := by
  subst ha ht
  exact returns_call f s

theorem returns_sendText (bytes : List UInt8) (s : Engine σ) : (sendText bytes).Returns s () s :=
  ⟨_, rfl⟩

theorem returns_sendHTMLChunk (X : Slice) (s : Engine σ) : (sendHTMLChunk X).Returns s () s :=
  ⟨_, rfl⟩

theorem returns_sendBefore (T : Slice) (i last : Int) (s : Engine σ) :
    (sendBefore T i last).Returns s () s := by
  unfold sendBefore
  split
  · exact returns_sendHTMLChunk _ s
  · exact .pure () s

theorem returns_printFunction (T : Slice) (func : FunctionParas) (i e : Int) (s : Engine σ) :
    (printFunction T func i e).Returns s () s := by
  unfold printFunction
  refine Returns.bind ⟨[], rfl⟩ ?_
  split
  · exact (returns_sendText _ s).bind ((returns_sendHTMLChunk _ s).bind (returns_sendText _ s))
  · exact .pure () s

/-- The script goes on, at the same index. -/
def Continues (s : Engine (List Reply)) (rest : List Reply) (s' : Engine (List Reply)) : Prop :=
  s'.host = rest ∧ s'.engineIndex = s.engineIndex

/-- An include tag: the file is missing. -/
theorem skip_includeFile (func : FunctionParas) : ∃ w : List Reply, ∀ render rest
    (s : Engine (List Reply)), s.host = w ++ rest →
      ∃ s', (engineIncludeFile (scriptHost site) render func).Returns s () s' ∧
        Continues s rest s' := by
  unfold engineIncludeFile
  cases func.parameter with
  | nil => exact ⟨[], fun render rest s hs => ⟨s, .pure () s, hs, rfl⟩⟩
  | cons name _ =>
      refine ⟨[.skip], fun render rest s hs => ⟨{ s with host := rest }, ?_, rfl, rfl⟩⟩
      have hcall : (call ((scriptHost site).getFile name)).Returns s .notFound
          { s with host := rest } := by
        refine returns_call_of ?_ ?_
        · change Reply.fileResult site name s.host.head? = _
          rw [hs]
          rfl
        · change s.host.tail = _
          rw [hs]
          rfl
      exact hcall.bind (returns_sendText _ _)

/-- The condition of an if tag, as the script has it. -/
theorem returns_callCondition {func : FunctionParas} {s : Engine (List Reply)} {reply : Reply}
    {rest : List Reply} (hs : s.host = reply :: rest) :
    (call ((scriptHost site).callCondition func)).Returns s (Reply.condition (some reply))
      { s with host := rest } := by
  refine returns_call_of ?_ ?_
  · change Reply.condition s.host.head? = _
    rw [hs]
    rfl
  · change s.host.tail = _
    rw [hs]
    rfl

/-- An if tag: the condition is not registered. -/
theorem skip_templateIf (T : Slice) (func : FunctionParas) (e : Int) :
    ∃ w : List Reply, ∀ render rest (s : Engine (List Reply)), s.host = w ++ rest →
      ∃ s', (engineTemplateIf (scriptHost site) render func (ifSlice T e)).Returns s
        (ifEnd T e, false) s' ∧ Continues s rest s' := by
  unfold engineTemplateIf ifEnd
  cases findIfTagsPos (ifSlice T e) with
  | none =>
      refine ⟨[], fun render rest s hs => ⟨s, Returns.bind ⟨_, rfl⟩ (.pure _ s), hs, rfl⟩⟩
  | some tags =>
      refine ⟨[.skip], fun render rest s hs => ⟨{ s with host := rest }, ?_, rfl, rfl⟩⟩
      exact Returns.bind ⟨_, rfl⟩ ((returns_callCondition hs).bind (.pure _ _))

/-- The array of a loop tag, as the script has it. -/
theorem returns_loopArray {func : FunctionParas} {s : Engine (List Reply)} {reply : Reply}
    {rest : List Reply} (hs : s.host = reply :: rest) :
    (call ((scriptHost site).loopArray func)).Returns s (Reply.array (some reply))
      { s with host := rest } := by
  refine returns_call_of ?_ ?_
  · change Reply.array s.host.head? = _
    rw [hs]
    rfl
  · change s.host.tail = _
    rw [hs]
    rfl

/-- A loop tag: its parameter is no array. -/
theorem skip_loopArray (T : Slice) (func : FunctionParas) (e : Int) :
    ∃ w : List Reply, ∀ render fuel rest (s : Engine (List Reply)), s.host = w ++ rest →
      ∃ s', (engineLoopArray (scriptHost site) render fuel func (loopSlice T e)).Returns s
        (loopEnd T e) s' ∧ Continues s rest s' := by
  unfold engineLoopArray loopElements
  by_cases hparam : func.parameter = []
  · simp only [if_pos hparam]
    refine ⟨[], fun render fuel rest s hs => ⟨s, Returns.bind ⟨_, rfl⟩ ?_, hs, rfl⟩⟩
    exact Returns.bind (.pure () s) (.pure _ s)
  · simp only [if_neg hparam]
    refine ⟨[.skip], fun render fuel rest s hs => ⟨{ s with host := rest }, ?_, rfl, rfl⟩⟩
    refine Returns.bind ⟨_, rfl⟩ (Returns.bind (a := ()) ?_ (.pure _ _))
    exact (returns_loopArray hs).bind (.pure () _)

/-- A function can be passed by. -/
theorem skip_function (T : Slice) (func : FunctionParas) (e last : Int) :
    ∃ w : List Reply, ∀ render fuel rest (s : Engine (List Reply)), s.host = w ++ rest →
      ∃ s', (runFunction (scriptHost site) render fuel T func e last).Returns s
        (nextPosition T func e last) s' ∧ Continues s rest s' := by
  have simple (m : Render (List Reply) Unit) (s : Engine (List Reply)) (rest : List Reply)
      (hm : ∃ s', m.Returns s () s' ∧ Continues s rest s')
      (hnext : nextPosition T func e last = ⟨e, e + 1, false⟩) :
      ∃ s', (m >>= fun _ => pure ⟨e, e + 1, false⟩).Returns s (nextPosition T func e last) s' ∧
        Continues s rest s' := by
    obtain ⟨s', hs', hc⟩ := hm
    exact ⟨s', hs'.bind (hnext ▸ .pure _ s'), hc⟩
  cases hfunc : func.function with
  | buildinFunction | platformFunction | setVariable =>
      refine ⟨[], fun render fuel rest s hs => ?_⟩
      unfold runFunction
      rw [hfunc]
      exact simple _ s rest ⟨_, returns_call _ s, hs, rfl⟩ (by simp [nextPosition, hfunc])
  | getVariable =>
      refine ⟨[], fun render fuel rest s hs => ?_⟩
      unfold runFunction
      rw [hfunc]
      have hget : ((.read : Render _ _) >>= fun t => call ((scriptHost site).getVariable func
          ¬ t.disableOutput)).Returns s () s := (Returns.read s).bind ⟨_, rfl⟩
      exact simple _ s rest ⟨s, hget, hs, rfl⟩ (by simp [nextPosition, hfunc])
  | echoOff | echoOn | echoFuncsOff | echoFuncsOn =>
      refine ⟨[], fun render fuel rest s hs => ?_⟩
      unfold runFunction
      rw [hfunc]
      exact simple _ s rest ⟨_, ⟨[], rfl⟩, hs, rfl⟩ (by simp [nextPosition, hfunc])
  | unknown | returnFunction =>
      refine ⟨[], fun render fuel rest s hs => ?_⟩
      unfold runFunction
      rw [hfunc]
      exact ⟨s, by simp only [nextPosition, hfunc]; exact .pure _ s, hs, rfl⟩
  | includeFile =>
      obtain ⟨w, hw⟩ := @skip_includeFile site func
      refine ⟨w, fun render fuel rest s hs => ?_⟩
      unfold runFunction
      rw [hfunc]
      exact simple _ s rest (hw render rest s hs) (by simp [nextPosition, hfunc])
  | loopArray =>
      obtain ⟨w, hw⟩ := @skip_loopArray site T func e
      refine ⟨w, fun render fuel rest s hs => ?_⟩
      obtain ⟨s', hs', hc⟩ := hw render fuel rest s hs
      unfold runFunction
      rw [hfunc]
      refine ⟨s', hs'.bind ?_, hc⟩
      simp only [nextPosition, hfunc]
      exact .pure _ s'
  | ifFunction =>
      obtain ⟨w, hw⟩ := @skip_templateIf site T func e
      refine ⟨w, fun render fuel rest s hs => ?_⟩
      obtain ⟨s', hs', hc⟩ := hw render rest s hs
      unfold runFunction
      rw [hfunc]
      refine ⟨s', hs'.bind ?_, hc⟩
      simp only [nextPosition, hfunc]
      exact .pure _ s'

/-- The round of the main loop at a function. -/
theorem mainLoop_function {host : TemplateHost σ} {render : Slice → Render σ Bool} {fuel rounds : Nat}
    {T : Slice} {p : Position} {func : FunctionParas} {e : Int}
    (hfound : functionAt host.platformFunctionExists T p.i = .function func e)
    (hi : p.i < T.length) :
    mainLoop host render fuel T (rounds + 1) p =
      sendBefore T p.i p.last >>= fun _ => printFunction T func p.i e >>= fun _ =>
        runFunction host render fuel T func e p.last >>= fun q =>
          mainLoop host render fuel T rounds q.next := by
  conv_lhs => unfold mainLoop
  rw [if_pos hi, hfound]
  rfl

/-- The same round with the host of the script, and with what follows the loop. -/
theorem mainLoop_function_bind {render : Slice → Render (List Reply) Bool} {fuel rounds : Nat}
    {T : Slice} {p : Position} {func : FunctionParas} {e : Int}
    (hfound : functionAt site.registered T p.i = .function func e) (hi : p.i < T.length)
    (k : Position → Render (List Reply) Bool) :
    mainLoop (scriptHost site) render fuel T (rounds + 1) p >>= k =
      sendBefore T p.i p.last >>= fun _ => printFunction T func p.i e >>= fun _ =>
        runFunction (scriptHost site) render fuel T func e p.last >>= fun q =>
          mainLoop (scriptHost site) render fuel T rounds q.next >>= k := by
  have hround := @mainLoop_function _ (scriptHost site) render fuel rounds T p func e hfound hi
  rw [hround, bind_assoc]
  simp only [bind_assoc]

/-- Every position can be reached: what comes behind it happens in the run. -/
theorem steer_reached {T : Slice} {p : Position} (h : Reached site T p) :
    ∃ (w : List Reply) (n : Nat), (n : Int) ≤ p.i ∧
      ∀ (k : Position → Render (List Reply) Bool) render fuel rounds rest (s : Engine (List Reply)),
        s.host = w ++ rest → ∃ s', Continues s rest s' ∧
          ∀ ev ∈ ((mainLoop (scriptHost site) render fuel T rounds p >>= k).run s').events,
            ev ∈ ((mainLoop (scriptHost site) render fuel T (rounds + n) ⟨0, 0, false⟩ >>= k).run
              s).events := by
  induction h with
  | start =>
      refine ⟨[], 0, le_refl _, fun k render fuel rounds rest s hs => ⟨s, ⟨hs, rfl⟩, ?_⟩⟩
      exact fun ev hev => hev
  | @plain p _ hi hfound ih =>
      obtain ⟨w, n, hn, hw⟩ := ih
      refine ⟨w, n + 1, by simp only [Position.next]; omega, fun k render fuel rounds rest s hs => ?_⟩
      obtain ⟨s', hc, hev⟩ := hw k render fuel (rounds + 1) rest s hs
      refine ⟨s', hc, fun ev h => ?_⟩
      rw [show rounds + (n + 1) = rounds + 1 + n by omega]
      refine hev ev ?_
      unfold mainLoop
      rw [if_pos hi]
      simp only [scriptHost, hfound]
      exact h
  | @unknown p _ hi hfound ih =>
      obtain ⟨w, n, hn, hw⟩ := ih
      refine ⟨w, n + 1, by dsimp only; omega, fun k render fuel rounds rest s hs => ?_⟩
      obtain ⟨s', hc, hev⟩ := hw k render fuel (rounds + 1) rest s hs
      refine ⟨s', hc, fun ev h => ?_⟩
      rw [show rounds + (n + 1) = rounds + 1 + n by omega]
      refine hev ev ?_
      unfold mainLoop
      rw [if_pos hi]
      simp only [scriptHost, hfound]
      exact h
  | @function p func e _ hi hfound ih =>
      obtain ⟨w, n, hn, hw⟩ := ih
      obtain ⟨w', hskip⟩ := @skip_function site T func e p.last
      obtain ⟨hlt, hle, -⟩ := functionAt_spec hfound
      have hforward := @nextPosition_forward _ func _ p.last hle
      refine ⟨w ++ w', n + 1, by push_cast; omega, fun k render fuel rounds rest s hs => ?_⟩
      rw [List.append_assoc] at hs
      obtain ⟨s₁, hc, hev⟩ := hw k render fuel (rounds + 1) (w' ++ rest) s hs
      obtain ⟨s', hrun, hc'⟩ := hskip render fuel rest s₁ hc.1
      refine ⟨s', ⟨hc'.1, hc'.2.trans hc.2⟩, fun ev h => ?_⟩
      rw [show rounds + (n + 1) = rounds + 1 + n by omega]
      refine hev ev ?_
      rw [mainLoop_function_bind hfound hi]
      refine (returns_sendBefore _ _ _ s₁).mem_bind ?_
      refine (returns_printFunction _ _ _ _ s₁).mem_bind ?_
      exact hrun.mem_bind h

/-- `processHTML` behind the main loop. -/
def finish (T : Slice) (q : Position) : Render σ Bool := do
  sendHTMLChunk (T.sub q.last (T.length - q.last))
  templateEngineStop
  pure q.returnFound

theorem processHTML_succ (host : TemplateHost σ) (fuel : Nat) (S : Slice) :
    processHTML host (fuel + 1) S = templateEngineStart S >>= fun _ =>
      mainLoop host (processHTML host fuel) (fuel + 1) (skipHeader S)
        ((skipHeader S).length.toNat + 1) ⟨0, 0, false⟩ >>= finish (skipHeader S) := rfl

/-- Every function that the text shows can be called. -/
theorem steer_mainLoop {T : Slice} {p : Position} {func : FunctionParas} {e : Int}
    (h : TagAt site T p func e) (k : Position → Render (List Reply) Bool) :
    ∃ (w : List Reply) (rounds : Nat), ∀ render fuel rest (s : Engine (List Reply)),
      s.host = w ++ rest → ∃ s', Continues s rest s' ∧
        ∀ ev ∈ ((runFunction (scriptHost site) render fuel T func e p.last >>= fun q =>
            mainLoop (scriptHost site) render fuel T (rounds + 1) q.next >>= k).run s').events,
          ev ∈ ((mainLoop (scriptHost site) render fuel T (T.length.toNat + 1) ⟨0, 0, false⟩ >>=
            k).run s).events := by
  obtain ⟨w, n, hn, hw⟩ := steer_reached h.reached
  have hi := h.inside
  have hrounds : T.length.toNat + 1 = T.length.toNat - 1 - n + 1 + 1 + n := by omega
  refine ⟨w, T.length.toNat - 1 - n, fun render fuel rest s hs => ?_⟩
  obtain ⟨s', hc, hev⟩ := hw k render fuel (T.length.toNat - 1 - n + 1 + 1) rest s hs
  refine ⟨s', hc, fun ev h' => ?_⟩
  rw [hrounds]
  refine hev ev ?_
  rw [mainLoop_function_bind h.found hi]
  refine (returns_sendBefore _ _ _ s').mem_bind ?_
  exact (returns_printFunction _ _ _ _ s').mem_bind h'

theorem steer_tag {S : Slice} {p : Position} {func : FunctionParas} {e : Int}
    (h : TagAt site (skipHeader S) p func e) :
    ∃ (w : List Reply) (rounds : Nat), ∀ fuel rest (s : Engine (List Reply)), s.host = w ++ rest →
      ∃ s', s'.host = rest ∧ s'.engineIndex = s.engineIndex + 1 ∧
        ∀ ev ∈ ((runFunction (scriptHost site) (processHTML (scriptHost site) fuel) (fuel + 1)
            (skipHeader S) func e p.last >>= fun q => mainLoop (scriptHost site)
            (processHTML (scriptHost site) fuel) (fuel + 1) (skipHeader S) (rounds + 1) q.next >>=
            finish (skipHeader S)).run s').events,
          ev ∈ ((processHTML (scriptHost site) (fuel + 1) S).run s).events := by
  obtain ⟨w, rounds, hw⟩ := steer_mainLoop h (finish (skipHeader S))
  refine ⟨w, rounds, fun fuel rest s hs => ?_⟩
  have hstart : (templateEngineStart (σ := List Reply) S).Returns s ()
      { s with engineIndex := s.engineIndex + 1 } := ⟨_, rfl⟩
  obtain ⟨s', hc, hev⟩ := hw (processHTML (scriptHost site) fuel) (fuel + 1) rest
    { s with engineIndex := s.engineIndex + 1 } hs
  refine ⟨s', hc.1, hc.2, fun ev h' => ?_⟩
  rw [processHTML_succ]
  exact hstart.mem_bind (hev ev h')

/-- A loop over the array of the script renders its body. -/
theorem steer_loopElements {func : FunctionParas} {body : Slice} (hlen : 2 ≤ func.parameter.length)
    (fuel : Nat) (rest : List Reply) (s : Engine (List Reply)) (hs : s.host = .once :: rest) :
    ∀ ev ∈ ((render body).run { s with host := rest }).events,
      ev ∈ ((loopElements (scriptHost site) render (fuel + 1) func body).run s).events := by
  intro ev hev
  unfold loopElements
  rw [if_neg (by rintro hnil; rw [hnil] at hlen; simp at hlen)]
  refine (returns_loopArray hs).mem_bind ?_
  change ev ∈ Outcome.events ((if func.parameter.length < 2 then _ else _ : Render _ _).run _)
  rw [if_neg (by omega)]
  unfold loopOverArray
  refine (returns_call _ _).mem_bind ?_
  refine (returns_call _ _).mem_bind ?_
  refine (returns_call _ _).mem_bind ?_
  refine (returns_call _ _).mem_bind ?_
  refine (Returns.read _).mem_bind ?_
  refine Returns.mem_bind ⟨[_], rfl⟩ ?_
  exact mem_bind_left hev

/-- Every slice that the text shows can be rendered. -/
theorem steer_child {S U : Slice} (h : Child site S U) :
    ∃ w : List Reply, ∀ fuel rest (s : Engine (List Reply)), s.host = w ++ rest →
      ∃ s', s'.host = rest ∧ s'.engineIndex = s.engineIndex + 1 ∧
        ∀ ev ∈ ((processHTML (scriptHost site) fuel U).run s').events,
          ev ∈ ((processHTML (scriptHost site) (fuel + 1) S).run s).events := by
  cases h with
  | @branch p func e tags _ condition htag hfunc htags hU =>
      obtain ⟨w, rounds, hw⟩ := steer_tag htag
      refine ⟨w ++ [.branch condition], fun fuel rest s hs => ?_⟩
      rw [List.append_assoc] at hs
      obtain ⟨s', hs', hindex, hev⟩ := hw fuel _ s hs
      refine ⟨{ s' with host := rest }, rfl, hindex, fun ev h' => hev ev (mem_bind_left ?_)⟩
      unfold runFunction engineTemplateIf
      rw [hfunc]
      refine mem_bind_left (Returns.mem_bind ⟨_, rfl⟩ ?_)
      rw [show (skipHeader S).sub (e + 1) ((skipHeader S).length - (e + 1))
        = ifSlice (skipHeader S) e from rfl, htags]
      refine (returns_callCondition hs').mem_bind ?_
      rw [show Reply.condition (some (Reply.branch condition)) = condition from rfl, hU]
      exact mem_bind_left h'
  | @body p func e htag hfunc hlen =>
      obtain ⟨w, rounds, hw⟩ := steer_tag htag
      refine ⟨w ++ [.once], fun fuel rest s hs => ?_⟩
      rw [List.append_assoc] at hs
      obtain ⟨s', hs', hindex, hev⟩ := hw fuel _ s hs
      refine ⟨{ s' with host := rest }, rfl, hindex, fun ev h' => hev ev (mem_bind_left ?_)⟩
      unfold runFunction engineLoopArray
      rw [hfunc]
      refine mem_bind_left (Returns.mem_bind ⟨_, rfl⟩ (mem_bind_left ?_))
      exact steer_loopElements hlen fuel rest s' hs' ev h'
  | @file p func e name others q htag hfunc hparam hfile =>
      obtain ⟨w, rounds, hw⟩ := steer_tag htag
      refine ⟨w ++ [.file q], fun fuel rest s hs => ?_⟩
      rw [List.append_assoc] at hs
      obtain ⟨s', hs', hindex, hev⟩ := hw fuel _ s hs
      refine ⟨{ s' with host := rest }, rfl, hindex, fun ev h' => hev ev (mem_bind_left ?_)⟩
      unfold runFunction engineIncludeFile
      rw [hfunc, hparam]
      refine mem_bind_left ?_
      have hcall : (call ((scriptHost site).getFile name)).Returns s' (.page q)
          { s' with host := rest } := by
        refine returns_call_of ?_ ?_
        · change Reply.fileResult site name s'.host.head? = _
          rw [hs']
          exact if_pos hfile
        · change s'.host.tail = _
          rw [hs']
          rfl
      exact hcall.mem_bind (mem_bind_left h')

/-- **Every chain can be rendered.** -/
theorem steer_chain {n : Nat} {S U : Slice} (h : Chain site n S U) :
    ∃ w : List Reply, ∀ fuel rest (s : Engine (List Reply)), s.host = w ++ rest →
      ∃ s', s'.host = rest ∧ s'.engineIndex = s.engineIndex + n ∧
        ∀ ev ∈ ((processHTML (scriptHost site) fuel U).run s').events,
          ev ∈ ((processHTML (scriptHost site) (fuel + n) S).run s).events := by
  induction h with
  | refl S => exact ⟨[], fun fuel rest s hs => ⟨s, hs, rfl, fun ev hev => hev⟩⟩
  | @step n S T U hchild _ ih =>
      obtain ⟨w₁, h₁⟩ := steer_child hchild
      obtain ⟨w₂, h₂⟩ := ih
      refine ⟨w₁ ++ w₂, fun fuel rest s hs => ?_⟩
      rw [List.append_assoc] at hs
      obtain ⟨s₁, hs₁, hindex₁, hev₁⟩ := h₁ (fuel + n) (w₂ ++ rest) s hs
      obtain ⟨s₂, hs₂, hindex₂, hev₂⟩ := h₂ fuel rest s₁ hs₁
      exact ⟨s₂, hs₂, by omega, fun ev hev => hev₁ ev (hev₂ ev hev)⟩

end

end CWebUI.Template
