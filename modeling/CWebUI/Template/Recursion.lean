import CWebUI.Template.Steering

set_option autoImplicit false

/-! # The depth of the recursion

The entries of `engine_list` that a run uses, and whether it ends. Nothing cuts a nesting off, so
both are as deep as the slices that the text of the page, and of the files that it includes, nests
into one another. A run ends if they are not nested without bound, since every round of a loop goes
forward in its array.
-/

namespace CWebUI.Template

open ByteString Traced Program

/-- `MAX_ENGINE_RECURTION` -/
def maxEngineRecurtion : Nat := 20

/-- The event uses an entry of `engine_list`, if it uses one. -/
def Event.IndexInList {σ : Type} : Event σ → Prop
  | .start index _ | .stop index => index < maxEngineRecurtion
  | _ => True

instance {σ : Type} : (e : Event σ) → Decidable e.IndexInList
  | .start index _ | .stop index => inferInstanceAs (Decidable (index < maxEngineRecurtion))
  | .search _ | .chunk _ | .sent _ | .traverse _ | .visit _ _ _ _ _ =>
      inferInstanceAs (Decidable True)

/-! ## Arrays are finite -/

section

variable {σ : Type}

/-- An operation starts no iteration: no array has more elements before it than before. -/
def Quiet {α : Type} (remaining : Nat → σ → Nat) (f : σ → Answer σ α) : Prop :=
  ∀ s a, remaining a (f s).state ≤ remaining a s

/-- The arrays of a host are finite: `remaining` counts the elements that an iteration has still
before it. Only an iteration that starts sets it back, and one that ends leaves nothing. -/
structure TemplateHost.Iterates (host : TemplateHost σ) (remaining : Nat → σ → Nat) : Prop where
  platformFunction : ∀ func, Quiet remaining (host.platformFunction func)
  callCondition : ∀ func, Quiet remaining (host.callCondition func)
  getFile : ∀ name, Quiet remaining (host.getFile name)
  getVariable : ∀ func shown, Quiet remaining (host.getVariable func shown)
  setVariable : ∀ func, Quiet remaining (host.setVariable func)
  loopArray : ∀ func, Quiet remaining (host.loopArray func)
  loopNames : ∀ func, Quiet remaining (host.loopNames func)
  loopVariables : ∀ names, Quiet remaining (host.loopVariables names)
  bindElement : ∀ vars element, Quiet remaining (host.bindElement vars element)
  first_other : ∀ array s a, a ≠ array →
    remaining a (host.arrayFirst array s).state ≤ remaining a s
  first_none : ∀ array s, (host.arrayFirst array s).value = none →
    remaining array (host.arrayFirst array s).state ≤ remaining array s
  next_other : ∀ array s a, a ≠ array →
    remaining a (host.arrayNext array s).state ≤ remaining a s
  next_some : ∀ array s element, (host.arrayNext array s).value = some element →
    remaining array (host.arrayNext array s).state < remaining array s
  next_none : ∀ array s, (host.arrayNext array s).value = none →
    remaining array (host.arrayNext array s).state = 0

variable {host : TemplateHost σ} {remaining : Nat → σ → Nat} {site : Site}

/-- No array has more elements before it than before. -/
def NoLonger (remaining : Nat → σ → Nat) (s s' : Engine σ) : Prop :=
  ∀ a, remaining a s'.host ≤ remaining a s.host

theorem NoLonger.refl (s : Engine σ) : NoLonger remaining s s := fun _ => le_refl _

theorem NoLonger.trans {s s' s'' : Engine σ} (h : NoLonger remaining s s')
    (h' : NoLonger remaining s' s'') : NoLonger remaining s s'' :=
  fun a => le_trans (h' a) (h a)

/-- The program ends, and starts no iteration that goes on behind it. -/
abbrev Ends {α : Type} (remaining : Nat → σ → Nat) (m : Nat → Render σ α) : Prop :=
  ∀ s, Converges .outOfFuel (fun _ s' => NoLonger remaining s s') m s

theorem Ends.bind {α β : Type} {m : Nat → Render σ α} {f : Nat → α → Render σ β}
    (hm : Ends remaining m) (hf : ∀ a, Ends remaining fun fuel => f fuel a) :
    Ends remaining fun fuel => m fuel >>= f fuel :=
  fun s => .bind (hm s) fun a s' hs' => (hf a s').mono fun _ _ h => hs'.trans h

theorem ends_pure {α : Type} (a : α) : Ends (σ := σ) remaining fun _ => (pure a : Render σ α) :=
  fun s => .pure (.refl s)

theorem ends_call {α : Type} {f : σ → Answer σ α} (hf : Quiet remaining f) :
    Ends remaining fun _ => call f :=
  fun s => .const (fun h => nomatch h) fun _ _ a => hf s.host a

/-- A program that does not touch the host. -/
theorem ends_still {α : Type} {m : Render σ α} (hres : ∀ s, (m.run s).result ≠ .error .outOfFuel)
    (hhost : ∀ s, (m.run s).state.host = s.host) : Ends remaining fun _ => m :=
  fun s => .const (hres s) fun _ _ a => le_of_eq (by rw [hhost s])

theorem ends_sendText (bytes : List UInt8) :
    Ends (σ := σ) remaining fun _ => sendText bytes :=
  ends_still (fun _ h => nomatch h) fun _ => rfl

theorem ends_sendHTMLChunk (X : Slice) : Ends (σ := σ) remaining fun _ => sendHTMLChunk X :=
  ends_still (fun _ h => nomatch h) fun _ => rfl

theorem ends_emitAll (events : List (Event σ)) :
    Ends (σ := σ) remaining fun _ => (.emitAll events : Render σ Unit) :=
  ends_still (fun _ h => nomatch h) fun _ => rfl

theorem ends_read : Ends (σ := σ) remaining fun _ => (.read : Render σ (Engine σ)) :=
  ends_still (fun _ h => nomatch h) fun _ => rfl

theorem ends_change {f : Engine σ → Engine σ} (hf : ∀ s, (f s).host = s.host) :
    Ends (σ := σ) remaining fun _ => (.change f : Render σ Unit) :=
  ends_still (fun _ h => nomatch h) hf

theorem ends_fail {α : Type} : Ends (σ := σ) remaining fun _ => (.fail .nullPointer : Render σ α) :=
  ends_still (fun _ h => nomatch h) fun _ => rfl

/-! ## Loops -/

/-- What a loop leaves behind: its own array is at its end, unless it had none. -/
def Finished (remaining : Nat → σ → Nat) (array : Nat) (next : Option Nat) (s s' : Engine σ) :
    Prop :=
  (∀ a, a ≠ array → remaining a s'.host ≤ remaining a s.host) ∧
    (next = none → remaining array s'.host ≤ remaining array s.host) ∧
    (next ≠ none → remaining array s'.host = 0)

theorem visitElements_none (host : TemplateHost σ) (render : Slice → Render σ Bool) (body : Slice)
    (array : Nat) (vars : LoopVariables) (fuel : Nat) :
    visitElements host render body array vars fuel none = pure () := by
  cases fuel <;> rfl

/-- The element behind this one. -/
theorem call_arrayNext (hit : host.Iterates remaining) (array : Nat) (s : Engine σ) :
    Converges .outOfFuel (fun next s' => (∀ a, a ≠ array → remaining a s'.host ≤ remaining a s.host) ∧
      (next ≠ none → remaining array s'.host < remaining array s.host) ∧
      (next = none → remaining array s'.host = 0)) (fun _ => call (host.arrayNext array)) s := by
  refine .const (fun h => nomatch h) fun next hnext => ⟨?_, fun hsome => ?_, fun hnone => ?_⟩
  · exact fun a ha => hit.next_other array s.host a ha
  · obtain rfl := Except.ok.inj hnext
    obtain ⟨element, helement⟩ := Option.ne_none_iff_exists'.mp hsome
    exact hit.next_some array s.host element helement
  · obtain rfl := Except.ok.inj hnext
    exact hit.next_none array s.host hnone

/-- A loop ends: every round takes an element. -/
theorem visitElements_ends (hit : host.Iterates remaining) {render : Nat → Slice → Render σ Bool}
    {body : Slice} (hrender : Ends remaining fun fuel => render fuel body) (array : Nat)
    (vars : LoopVariables) (next : Option Nat) (used : Nat) (s : Engine σ) :
    Converges .outOfFuel (fun _ s' => Finished remaining array next s s')
      (fun fuel => visitElements host (render fuel) body array vars (fuel - used) next) s := by
  generalize hn : remaining array s.host = n
  induction n using Nat.strong_induction_on generalizing next used s with
  | _ n ih =>
    cases next with
    | none =>
        simp only [visitElements_none]
        exact .pure ⟨fun a _ => le_refl _, fun _ => le_refl _, fun h => absurd rfl h⟩
    | some element =>
        have hround : Converges .outOfFuel
            (fun _ s' => Finished remaining array (some element) s s')
            (fun fuel => call (host.bindElement vars element) >>= fun _ => .read >>= fun t =>
              .emit (.visit t.engineIndex array element vars t.host) >>= fun _ =>
              render fuel body >>= fun _ => call (host.arrayNext array) >>= fun next =>
              visitElements host (render fuel) body array vars (fuel - (used + 1)) next) s := by
          refine .bind (ends_call (hit.bindElement vars element) s) fun _ s₁ h₁ => ?_
          refine .bind (ends_read s₁) fun t s₂ (h₂ : NoLonger remaining s₁ s₂) => ?_
          refine .bind (ends_emitAll [_] s₂) fun _ s₃ (h₃ : NoLonger remaining s₂ s₃) => ?_
          refine .bind (hrender s₃) fun _ s₄ h₄ => ?_
          refine .bind (call_arrayNext hit array s₄) fun next s₅ h₅ => ?_
          have h := ((h₁.trans h₂).trans h₃).trans h₄
          cases next with
          | none =>
              simp only [visitElements_none]
              exact .pure ⟨fun a ha => le_trans (h₅.1 a ha) (h a), (fun hno => nomatch hno),
                fun _ => h₅.2.2 rfl⟩
          | some element' =>
              have hlt := lt_of_lt_of_le (h₅.2.1 (Option.some_ne_none _)) (h array)
              refine (ih _ (hn ▸ hlt) (some element') (used + 1) s₅ rfl).mono fun _ s' h' => ?_
              exact ⟨fun a ha => le_trans (h'.1 a ha) (le_trans (h₅.1 a ha) (h a)),
                (fun hno => nomatch hno), fun _ => h'.2.2 (Option.some_ne_none _)⟩
        refine hround.of_eventually (used + 1) fun fuel hfuel => ?_
        rw [show fuel - used = fuel - (used + 1) + 1 by omega]
        rfl

/-- The first element of an array. -/
theorem call_arrayFirst (hit : host.Iterates remaining) (array : Nat) (s : Engine σ) :
    Converges .outOfFuel (fun next s' => (∀ a, a ≠ array → remaining a s'.host ≤ remaining a s.host) ∧
      (next = none → remaining array s'.host ≤ remaining array s.host))
      (fun _ => call (host.arrayFirst array)) s := by
  refine .const (fun h => nomatch h) fun next hnext => ⟨?_, fun hnone => ?_⟩
  · exact fun a ha => hit.first_other array s.host a ha
  · obtain rfl := Except.ok.inj hnext
    exact hit.first_none array s.host hnone

theorem loopOverArray_ends (hit : host.Iterates remaining) {render : Nat → Slice → Render σ Bool}
    {body : Slice} (hrender : Ends remaining fun fuel => render fuel body) (func : FunctionParas)
    (array : Nat) :
    Ends remaining fun fuel => loopOverArray host (render fuel) fuel func body array := by
  refine (ends_call (hit.loopNames func)).bind fun names => ?_
  cases names with
  | none => exact ends_pure ()
  | some names =>
      intro s
      refine .bind (call_arrayFirst hit array s) fun first s₁ h₁ => ?_
      refine .bind (ends_call (hit.loopVariables names) s₁) fun vars s₂ h₂ => ?_
      refine (visitElements_ends hit hrender array vars first 0 s₂).mono fun _ s₃ h₃ a => ?_
      by_cases ha : a = array
      · subst ha
        by_cases hfirst : first = none
        · exact le_trans (h₃.2.1 hfirst) (le_trans (h₂ a) (h₁.2 hfirst))
        · rw [h₃.2.2 hfirst]
          exact Nat.zero_le _
      · exact le_trans (h₃.1 a ha) (le_trans (h₂ a) (h₁.1 a ha))

theorem loopElements_ends (hit : host.Iterates remaining) {render : Nat → Slice → Render σ Bool}
    {body : Slice} {func : FunctionParas}
    (hrender : 2 ≤ func.parameter.length → Ends remaining fun fuel => render fuel body) :
    Ends remaining fun fuel => loopElements host (render fuel) fuel func body := by
  unfold loopElements
  split
  · exact ends_pure ()
  · refine (ends_call (hit.loopArray func)).bind fun array => ?_
    cases array with
    | none => exact ends_pure ()
    | some array =>
        dsimp only
        split
        · exact ends_fail
        · exact loopOverArray_ends hit (hrender (by omega)) func array

/-! ## Slices -/

theorem engineTemplateIf_ends (hit : host.Iterates remaining)
    {render : Nat → Slice → Render σ Bool} {func : FunctionParas} {X : Slice}
    (hrender : ∀ tags condition U, findIfTagsPos X = some tags →
      selectBranch X tags condition = some U → Ends remaining fun fuel => render fuel U) :
    Ends remaining fun fuel => engineTemplateIf host (render fuel) func X := by
  refine (ends_emitAll _).bind fun _ => ?_
  cases htags : findIfTagsPos X with
  | none => exact ends_pure _
  | some tags =>
      refine (ends_call (hit.callCondition func)).bind fun condition => ?_
      cases hU : selectBranch X tags condition with
      | none => exact ends_pure _
      | some U => exact (hrender tags condition U htags hU).bind fun _ => ends_pure _

/-- A file of an include tag. -/
theorem call_getFile (hhost : host.Serves site) (hit : host.Iterates remaining)
    (name : List UInt8) (s : Engine σ) :
    Converges .outOfFuel (fun file s' => NoLonger remaining s s' ∧
      ∀ q, file = .page q → site.files name q) (fun _ => call (host.getFile name)) s := by
  refine .const (fun h => nomatch h) fun file hfile => ⟨fun a => hit.getFile name s.host a, ?_⟩
  rintro q rfl
  exact hhost.files name s.host q (Except.ok.inj hfile)

theorem engineIncludeFile_ends (hhost : host.Serves site) (hit : host.Iterates remaining)
    {render : Nat → Slice → Render σ Bool} {func : FunctionParas}
    (hrender : ∀ name rest q, func.parameter = name :: rest → site.files name q →
      Ends remaining fun fuel => render fuel q.whole) :
    Ends remaining fun fuel => engineIncludeFile host (render fuel) func := by
  unfold engineIncludeFile
  cases hparam : func.parameter with
  | nil => exact ends_pure ()
  | cons name rest =>
      intro s
      refine .bind (call_getFile hhost hit name s) fun file s₁ h₁ => ?_
      cases file with
      | notFound => exact (ends_sendText _ s₁).mono fun _ _ h => h₁.1.trans h
      | readError => exact (ends_sendText _ s₁).mono fun _ _ h => h₁.1.trans h
      | page q =>
          refine (((hrender name rest q hparam (h₁.2 q rfl)).bind fun _ => ends_pure ()) s₁).mono ?_
          exact fun _ _ h => h₁.1.trans h

/-- The calls of `processHTML` within a slice end. -/
abbrev ChildrenEnd (site : Site) (remaining : Nat → σ → Nat) (S : Slice)
    (render : Nat → Slice → Render σ Bool) : Prop :=
  ∀ U, Child site S U → Ends remaining fun fuel => render fuel U

theorem runFunction_ends (hhost : host.Serves site) (hit : host.Iterates remaining)
    {render : Nat → Slice → Render σ Bool} {S : Slice} (hrender : ChildrenEnd site remaining S render)
    {p : Position} {func : FunctionParas} {e : Int} (htag : TagAt site (skipHeader S) p func e) :
    Ends remaining fun fuel => runFunction host (render fuel) fuel (skipHeader S) func e p.last := by
  unfold runFunction
  cases hfunc : func.function with
  | buildinFunction | platformFunction =>
      exact (ends_call (hit.platformFunction func)).bind fun _ => ends_pure _
  | setVariable => exact (ends_call (hit.setVariable func)).bind fun _ => ends_pure _
  | getVariable =>
      refine ends_read.bind fun s => ?_
      exact (ends_call (hit.getVariable func _)).bind fun _ => ends_pure _
  | echoOff | echoOn | echoFuncsOff | echoFuncsOn =>
      refine Ends.bind (ends_change ?_) fun _ => ends_pure _
      exact fun _ => rfl
  | unknown | returnFunction => exact ends_pure _
  | includeFile =>
      refine (engineIncludeFile_ends hhost hit fun name rest q hparam hfile => ?_).bind fun _ =>
        ends_pure _
      exact hrender _ (.file htag hfunc hparam hfile)
  | loopArray =>
      refine Ends.bind ((ends_emitAll _).bind fun _ => Ends.bind ?_ fun _ => ends_pure _) fun _ =>
        ends_pure _
      exact loopElements_ends hit fun hlen => hrender _ (.body htag hfunc hlen)
  | ifFunction =>
      refine (engineTemplateIf_ends hit fun tags condition U htags hU => ?_).bind fun r => ?_
      · exact hrender _ (.branch htag hfunc htags hU)
      · obtain ⟨pos, returnFound⟩ := r
        cases returnFound <;> exact ends_pure _

theorem ends_sendBefore (T : Slice) (i last : Int) :
    Ends (σ := σ) remaining fun _ => sendBefore T i last := by
  unfold sendBefore
  split
  · exact ends_sendHTMLChunk _
  · exact ends_pure ()

theorem ends_printFunction (T : Slice) (func : FunctionParas) (i e : Int) :
    Ends (σ := σ) remaining fun _ => printFunction T func i e := by
  unfold printFunction
  refine ends_read.bind fun s => ?_
  split
  · exact (ends_sendText _).bind fun _ => (ends_sendHTMLChunk _).bind fun _ => ends_sendText _
  · exact ends_pure ()

/-- Every round goes forward, so the rounds of the main loop suffice. -/
theorem mainLoop_ends (hhost : host.Serves site) (hit : host.Iterates remaining)
    {render : Nat → Slice → Render σ Bool} {S : Slice} (hrender : ChildrenEnd site remaining S render)
    (rounds : Nat) {p : Position} (hp : Reached site (skipHeader S) p ∨ (skipHeader S).length < p.i)
    (hrounds : (skipHeader S).length - p.i < rounds) (hpos : 0 < rounds) :
    Ends remaining fun fuel => mainLoop host (render fuel) fuel (skipHeader S) rounds p := by
  induction rounds generalizing p with
  | zero => exact absurd hpos (lt_irrefl 0)
  | succ rounds ih =>
      unfold mainLoop
      by_cases hi : p.i < (skipHeader S).length
      · have hreach := hp.resolve_right (by omega)
        simp only [if_pos hi, hhost.registered]
        cases hfound : functionAt site.registered (skipHeader S) p.i with
        | plain =>
            exact ih (Or.inl (hreach.plain hi hfound)) (by dsimp only; omega) (by omega)
        | unknown =>
            exact ih (Or.inl (hreach.unknown hi hfound)) (by dsimp only; omega) (by omega)
        | function func e =>
            have htag : TagAt site (skipHeader S) p func e := ⟨hreach, hi, hfound⟩
            obtain ⟨hlt, hle, -⟩ := functionAt_spec hfound
            refine (ends_sendBefore _ _ _).bind fun _ => (ends_printFunction _ _ _ _).bind fun _ => ?_
            intro s
            refine .bind ((runFunction_ends hhost hit hrender htag s).and fun fuel =>
              runFunction_result host (render fuel) fuel _ func e p.last s) ?_
            rintro q s₁ ⟨h₁, rfl | rfl⟩
            · have hforward := @nextPosition_forward _ func _ p.last hle
              refine (ih (Or.inl htag.next) ?_ (by omega) s₁).mono fun _ _ h => h₁.trans h
              push_cast at hrounds
              omega
            · refine (ih (Or.inr ?_) ?_ (by omega) s₁).mono fun _ _ h => h₁.trans h <;>
                dsimp only <;> omega
      · simp only [if_neg hi]
        exact ends_pure _

theorem ends_start (S : Slice) : Ends (σ := σ) remaining fun _ => templateEngineStart S :=
  ends_still (fun _ h => nomatch h) fun _ => rfl

theorem ends_stop : Ends (σ := σ) remaining fun _ => templateEngineStop := by
  refine ends_still (fun s h => ?_) fun s => ?_ <;> unfold templateEngineStop at * <;>
    dsimp only at *
  · split at h <;> cases h
  · split <;> rfl

/-- A page whose slices are nested with a bound is rendered in finite time. -/
theorem processHTML_ends (hhost : host.Serves site) (hit : host.Iterates remaining) (depth : Nat)
    (S : Slice) (hdepth : ∀ n U, Chain site n S U → n < depth) :
    Ends remaining fun fuel => processHTML host fuel S := by
  induction depth generalizing S with
  | zero => exact absurd (hdepth 0 S (.refl S)) (Nat.not_lt_zero 0)
  | succ depth ih =>
      have hrender : ChildrenEnd site remaining S fun fuel => processHTML host (fuel - 1) := by
        intro U hU s
        refine (ih U (fun n X hX => ?_) s).comp (· - 1) fun least => ⟨least + 1, fun fuel h => ?_⟩
        · exact Nat.lt_of_succ_lt_succ (hdepth (n + 1) X (.step hU hX))
        · exact Nat.le_sub_one_of_lt h
      intro s
      have hbody : Converges .outOfFuel (fun _ s' => NoLonger remaining s s')
          (fun fuel => templateEngineStart S >>= fun _ =>
            mainLoop host (processHTML host (fuel - 1)) fuel (skipHeader S)
              ((skipHeader S).length.toNat + 1) ⟨0, 0, false⟩ >>= finish (skipHeader S)) s := by
        refine ((ends_start S).bind fun _ => Ends.bind ?_ fun p => ?_) s
        · exact mainLoop_ends hhost hit hrender _ (Or.inl .start) (by dsimp only; omega) (by omega)
        · exact (ends_sendHTMLChunk _).bind fun _ => ends_stop.bind fun _ => ends_pure _
      refine hbody.of_eventually 1 fun fuel hfuel => ?_
      obtain ⟨n, rfl⟩ : ∃ n, fuel = n + 1 := ⟨fuel - 1, by omega⟩
      rw [processHTML_succ, Nat.add_sub_cancel]

end

/-! ## The bound -/

/-- The arrays of the script have nothing before them. -/
theorem scriptHost_iterates (site : Site) : (scriptHost site).Iterates fun _ _ => 0 := by
  constructor <;> intros <;> first | exact fun _ _ => le_refl _ | simp_all [scriptHost]

/-- **The depth of the recursion.** For every page the following are equivalent: whatever the
variables, conditions, functions and files answer, the rendering ends, and all entries of
`engine_list` that it hands out or clears lie in the list; and the slices that the text nests into
one another are at most as deep as the list is long. -/
theorem recursion_bounded_iff (site : Site) (p : Page) :
    (∀ (σ : Type) (host : TemplateHost σ) (remaining : Nat → σ → Nat), host.Serves site →
      host.Iterates remaining → ∀ s : Engine σ, s.engineIndex = 0 →
        (∃ fuel, ((processHTML host fuel p.whole).run s).result ≠ .error .outOfFuel) ∧
        ∀ fuel, ∀ e ∈ ((processHTML host fuel p.whole).run s).events, e.IndexInList) ↔
    ∀ n S, Chain site n p.whole S → n < maxEngineRecurtion := by
  constructor
  · intro h n S hS
    obtain ⟨w, hw⟩ := steer_chain hS
    obtain ⟨s', -, hindex, hev⟩ := hw 1 [] { host := w } (by simp)
    have hstart : Event.start s'.engineIndex S ∈
        ((processHTML (scriptHost site) (1 + n) p.whole).run { host := w }).events := by
      refine hev _ ?_
      rw [processHTML_succ]
      exact mem_bind_left (List.mem_singleton.mpr rfl)
    have hlt := (h _ _ _ (scriptHost_serves site) (scriptHost_iterates site) { host := w } rfl).2
      (1 + n) _ hstart
    change s'.engineIndex < maxEngineRecurtion at hlt
    rw [hindex] at hlt
    simpa using hlt
  · intro hdepth σ host remaining hhost hit s hs
    refine ⟨?_, fun fuel e he => ?_⟩
    · obtain ⟨o, hres, -, least, hall⟩ :=
        processHTML_ends hhost hit maxEngineRecurtion p.whole hdepth s
      exact ⟨least, by rw [hall least (le_refl _)]; exact hres⟩
    · have hallowed := (processHTML_allowed hhost fuel p.whole s).events e he
      rw [hs] at hallowed
      cases e with
      | start k X =>
          obtain ⟨n, rfl, hn⟩ := hallowed
          simpa [Event.IndexInList] using hdepth n X hn
      | stop k =>
          obtain ⟨n, X, rfl, hn⟩ := hallowed
          simpa [Event.IndexInList] using hdepth n X hn
      | search _ | chunk _ | sent _ | traverse _ | visit _ _ _ _ _ => trivial

/-! ## A page that includes itself -/

/-- A page that includes itself. -/
def selfIncludingPage : Page := .ofBytes (ascii "\x7binclude:a\x7d")

/-- The host that has this page as its only file. -/
def selfIncludingHost : TemplateHost Unit :=
  { emptyHost with
    getFile := fun _ s => { value := .page selfIncludingPage, state := s } }

theorem selfIncludingPage_overruns :
    ∃ e ∈ ((processHTML selfIncludingHost 21 selfIncludingPage.whole).run { host := () }).events,
      ¬ e.IndexInList := by
  decide +kernel

end CWebUI.Template
