import CWebUI.Template.Steering
import CWebUI.Template.Trees
import CWebUI.Template.VariableHost

set_option autoImplicit false

/-! # What the engine makes of a printed tree

`processHTML` on the text of a tree, against what the tree means. The handler of an if tag leaves
the position behind its endif tag, and the main loop adds one to it, so that it does not see a tag
that stands there; and a branch is rendered like a page, so that a text at its front that looks like
the header of a page is left out. The main result is that nothing else goes wrong.
-/

namespace CWebUI.Template

open ByteString Traced Program CWebUI.Session

/-- The bytes of the page itself that a run sends. -/
def pageBytes {σ : Type} (events : List (Event σ)) : List UInt8 :=
  events.flatMap fun
    | .chunk S => S.bytes
    | _ => []

/-- A part of a page that is no text of a tree: it has a brace, or a negative length. -/
def Slice.Broken (X : Slice) : Prop := X.length < 0 ∨ 123 ∈ X.bytes ∨ 125 ∈ X.bytes

variable {σ : Type}

/-! ## Events and what they send -/

theorem sentBytes_append (a b : List (Event σ)) :
    sentBytes (a ++ b) = sentBytes a ++ sentBytes b := List.flatMap_append

theorem pageBytes_append (a b : List (Event σ)) :
    pageBytes (a ++ b) = pageBytes a ++ pageBytes b := List.flatMap_append

/-- The events send what they should, if the text is clear; otherwise text of the page is lost. -/
def Sends (clear : Bool) (rendered texts : List UInt8) (events : List (Event σ)) : Prop :=
  if clear then
    sentBytes events = rendered ∧ pageBytes events = texts ∧
      ∀ X, .chunk X ∈ events → 0 ≤ X.length
  else (pageBytes events).length < texts.length

theorem Sends.length_le {clear : Bool} {rendered texts : List UInt8} {events : List (Event σ)}
    (h : Sends clear rendered texts events) : (pageBytes events).length ≤ texts.length := by
  cases clear with
  | true => exact le_of_eq (congrArg List.length h.2.1)
  | false => exact le_of_lt h

theorem Sends.append {clear clear' : Bool} {rendered rendered' texts texts' : List UInt8}
    {events events' : List (Event σ)} (h : Sends clear rendered texts events)
    (h' : Sends clear' rendered' texts' events') :
    Sends (clear && clear') (rendered ++ rendered') (texts ++ texts') (events ++ events') := by
  have hle := h.length_le
  have hle' := h'.length_le
  have hlen : (pageBytes (events ++ events')).length =
      (pageBytes events).length + (pageBytes events').length := by
    rw [pageBytes_append, List.length_append]
  cases clear with
  | false =>
      have hlt : (pageBytes events).length < texts.length := h
      show (pageBytes (events ++ events')).length < (texts ++ texts').length
      rw [hlen, List.length_append]
      omega
  | true =>
      cases clear' with
      | false =>
          have hlt : (pageBytes events').length < texts'.length := h'
          show (pageBytes (events ++ events')).length < (texts ++ texts').length
          rw [hlen, List.length_append]
          omega
      | true =>
          obtain ⟨hsent, hpage, hchunk⟩ := h
          obtain ⟨hsent', hpage', hchunk'⟩ := h'
          refine ⟨?_, ?_, ?_⟩
          · rw [sentBytes_append, hsent, hsent']
          · rw [pageBytes_append, hpage, hpage']
          · intro X hX
            rcases List.mem_append.mp hX with hX | hX
            · exact hchunk X hX
            · exact hchunk' X hX

/-- A run that ends with a value shows what it should, or something of the page that is no text. -/
inductive Shows {α : Type} (o : Outcome Stop (Engine σ) (Event σ) α) (a : α) (clear : Bool)
    (rendered texts : List UInt8) (s : Engine σ) : Prop where
  | broken {X : Slice} : clear = false → .chunk X ∈ o.events → X.Broken →
      Shows o a clear rendered texts s
  | sent : o.result = .ok a → o.state = s → Sends clear rendered texts o.events →
      Shows o a clear rendered texts s

/-- One program behind another. -/
theorem Shows.bind {α β : Type} {m : Render σ α} {f : α → Render σ β} {s s₁ s₂ : Engine σ} {a : α}
    {b : β} {clear clear' : Bool} {rendered rendered' texts texts' : List UInt8}
    (h : Shows (m.run s) a clear rendered texts s₁)
    (h' : Shows ((f a).run s₁) b clear' rendered' texts' s₂) :
    Shows ((m >>= f).run s) b (clear && clear') (rendered ++ rendered') (texts ++ texts') s₂ := by
  cases h with
  | broken hclear hX hbroken =>
      exact .broken (by rw [hclear, Bool.false_and]) (mem_bind_left hX) hbroken
  | sent hresult hstate hsends =>
      have hrun : (m.run s) = ⟨.ok a, s₁, (m.run s).events⟩ := by rw [← hresult, ← hstate]
      have hbind := bind_of_ok (f := f) hrun
      cases h' with
      | broken hclear hX hbroken =>
          refine .broken (by rw [hclear, Bool.and_false]) ?_ hbroken
          rw [hbind]
          exact List.mem_append_right _ hX
      | sent hresult' hstate' hsends' =>
          refine .sent ?_ ?_ ?_
          · rw [hbind]
            exact hresult'
          · rw [hbind]
            exact hstate'
          · rw [hbind]
            exact hsends.append hsends'

/-- A program that sends nothing. -/
theorem Shows.quiet {α : Type} {m : Render σ α} {s s' : Engine σ} {a : α} {events : List (Event σ)}
    (h : m.run s = ⟨.ok a, s', events⟩) (hsends : Sends true [] [] events) :
    Shows (m.run s) a true [] [] s' := by
  rw [h]
  exact .sent rfl rfl hsends

theorem sends_nil : Sends (σ := σ) true [] [] [] :=
  ⟨rfl, rfl, fun _ h => nomatch h⟩

/-- Searches send nothing. -/
theorem sends_search (searches : List Slice) :
    Sends (σ := σ) true [] [] (searches.map .search) := by
  refine ⟨?_, ?_, ?_⟩
  · rw [sentBytes, List.flatMap_eq_nil_iff]
    intro e he
    obtain ⟨S, -, rfl⟩ := List.mem_map.mp he
    rfl
  · rw [pageBytes, List.flatMap_eq_nil_iff]
    intro e he
    obtain ⟨S, -, rfl⟩ := List.mem_map.mp he
    rfl
  · intro X hX
    obtain ⟨S, -, hS⟩ := List.mem_map.mp hX
    cases hS

/-- The output is on, and functions are not printed. -/
structure Engine.Plain (s : Engine σ) : Prop where
  output : s.disableOutput = false
  functions : s.enablePrintFuncs = false

/-- A part of the page is sent. -/
theorem shows_chunk {s : Engine σ} (hs : s.Plain) {X : Slice} (hlen : 0 ≤ X.length) :
    Shows ((sendHTMLChunk X).run s) () true X.bytes X.bytes s := by
  refine .sent rfl rfl ⟨?_, ?_, ?_⟩
  · simp [sendHTMLChunk, Engine.output, hs.output, sentBytes]
  · simp [sendHTMLChunk, Engine.output, hs.output, pageBytes]
  · intro Y hY
    have hmem : Y = X := by
      simpa [sendHTMLChunk, Engine.output, hs.output] using hY
    rw [hmem]
    exact hlen

theorem shows_sendBefore {s : Engine σ} (hs : s.Plain) {T : Slice} {i last : Int} (h : last ≤ i) :
    Shows ((sendBefore T i last).run s) () true (T.sub last (i - last)).bytes
      (T.sub last (i - last)).bytes s := by
  unfold sendBefore
  by_cases hlt : last < i
  · rw [if_pos hlt]
    exact shows_chunk hs (by rw [Slice.sub_length]; omega)
  · have hempty : (T.sub last (i - last)).bytes = [] := by
      have hzero : (i - last).toNat = 0 := by omega
      rw [Slice.bytes_eq, Slice.sub_length, hzero]
      rfl
    rw [if_neg hlt, hempty]
    exact .quiet rfl sends_nil

theorem shows_printFunction {s : Engine σ} (hs : s.Plain) (T : Slice) (func : FunctionParas)
    (i e : Int) : Shows ((printFunction T func i e).run s) () true [] [] s := by
  have hrun : (printFunction T func i e).run s = ⟨.ok (), s, []⟩ := by
    unfold printFunction
    rw [bind_of_ok (run_read s), if_neg (by simp [hs.functions])]
    rfl
  exact .quiet hrun sends_nil

/-- The host answers without a change, and sends a text. -/
theorem shows_call {α : Type} {s : Engine σ} (hs : s.Plain) {f : σ → Answer σ α} {a : α}
    {text : List UInt8} (hf : f s.host = { value := a, state := s.host, sent := text }) :
    Shows ((call f).run s) a true text [] s := by
  have hout : s.output text = [.sent text] := by
    rw [Engine.output, hs.output]
    rfl
  have hrun : (call f).run s = ⟨.ok a, s, [.sent text]⟩ := by
    simp only [call, hf, hout]
    rfl
  rw [hrun]
  refine .sent rfl rfl ⟨?_, rfl, ?_⟩
  · simp [sentBytes]
  · intro X hX
    simp at hX

/-! ## What is sent behind a position -/

/-- What the main loop has not sent is sent in one piece up to the next function, or to the end. -/
theorem mainLoop_sends {host : TemplateHost σ} {render : Slice → Render σ Bool} {fuel : Nat}
    {T : Slice} {q : Int} (hq : q < T.length) (rounds : Nat) (p : Position) (hlast : p.last ≤ q)
    (hi : p.last ≤ p.i) (hno : ∀ j, p.i ≤ j → j ≤ q → T.at j ≠ 123)
    (hrounds : (T.length - p.i).toNat < rounds) (s : Engine σ) :
    ∃ k, q - p.last < k ∧
      .chunk (T.sub p.last k) ∈
        ((mainLoop host render fuel T rounds p >>= finish T).run s).events := by
  induction rounds generalizing p with
  | zero => omega
  | succ rounds ih =>
      by_cases hend : p.i < T.length
      · rcases hfound : functionAt host.platformFunctionExists T p.i with _ | _ | ⟨func, e⟩
        · have hround : mainLoop host render fuel T (rounds + 1) p =
              mainLoop host render fuel T rounds { p with i := p.i + 1 } := by
            rw [mainLoop, if_pos hend, hfound]
          rw [hround]
          exact ih { p with i := p.i + 1 } hlast (by dsimp only; omega)
            (fun j hj => hno j (by dsimp only at hj; omega)) (by dsimp only; omega)
        · have hround : mainLoop host render fuel T (rounds + 1) p =
              mainLoop host render fuel T rounds { p with i := p.i + 2 } := by
            rw [mainLoop, if_pos hend, hfound]
          rw [hround]
          exact ih { p with i := p.i + 2 } hlast (by dsimp only; omega)
            (fun j hj => hno j (by dsimp only at hj; omega)) (by dsimp only; omega)
        · -- the text before the function is sent first
          obtain ⟨-, -, hopen⟩ := functionAt_spec hfound
          have hbehind : q < p.i := by
            by_contra hle
            exact hno p.i (le_refl _) (by omega) hopen
          refine ⟨p.i - p.last, by omega, ?_⟩
          rw [mainLoop_function hfound hend]
          refine mem_bind_left (mem_bind_left ?_)
          rw [sendBefore, if_pos (by omega)]
          exact List.mem_cons_self
      · refine ⟨T.length - p.last, by omega, ?_⟩
        have hround : mainLoop host render fuel T (rounds + 1) p = pure p := by
          rw [mainLoop, if_neg hend]
        have hpure : (pure p : Render σ Position).run s = ⟨.ok p, s, []⟩ := rfl
        rw [hround, bind_of_ok hpure]
        exact mem_bind_left List.mem_cons_self

theorem Slice.mem_bytes_sub {T : Slice} {last q k : Int} (hq : last ≤ q) (hk : q - last < k) :
    T.at q ∈ (T.sub last k).bytes := by
  rw [Slice.bytes_eq, Slice.sub_length]
  refine List.mem_map.mpr ⟨(q - last).toNat, List.mem_range.mpr (by omega), ?_⟩
  rw [Slice.sub_at]
  congr 1
  omega

/-- A tag that the main loop does not see is sent as it is. -/
theorem shows_brace {host : TemplateHost σ} {render : Slice → Render σ Bool} {fuel rounds : Nat}
    {T : Slice} {p : Position} {q : Int} (hbrace : T.at q = 123 ∨ T.at q = 125) (hq : q < T.length)
    (hlast : p.last ≤ q) (hi : p.last ≤ p.i) (hno : ∀ j, p.i ≤ j → j ≤ q → T.at j ≠ 123)
    (hrounds : (T.length - p.i).toNat < rounds) (s : Engine σ) (rendered texts : List UInt8)
    (s' : Engine σ) :
    Shows ((mainLoop host render fuel T rounds p >>= finish T).run s) false false rendered texts
      s' := by
  obtain ⟨k, hk, hX⟩ := mainLoop_sends hq rounds p hlast hi hno hrounds s
  have hmem := Slice.mem_bytes_sub (T := T) hlast hk
  refine .broken rfl hX (Or.inr ?_)
  rcases hbrace with h | h
  · exact Or.inl (h ▸ hmem)
  · exact Or.inr (h ▸ hmem)

namespace PageTree

/-- The host knows what a tree means, and its answers change nothing. -/
def Answered (host : TemplateHost σ) (m : Meaning) (st : σ) : PageTree → Prop
  | done => True
  | byte _ rest => rest.Answered host m st
  | get n rest =>
      host.getVariable n.func true st = { value := (), state := st, sent := m.value n } ∧
        rest.Answered host m st
  | ifEnd c branch rest =>
      host.callCondition c.func st = { value := m.condition c, state := st } ∧
        branch.Answered host m st ∧ rest.Answered host m st
  | ifElse c branch elseBranch rest =>
      host.callCondition c.func st = { value := m.condition c, state := st } ∧
        branch.Answered host m st ∧ elseBranch.Answered host m st ∧ rest.Answered host m st

/-- The part of a slice from a position on is rendered as the tree that is printed there; what is
before it and is not sent yet is sent first. -/
def TailShows (host : TemplateHost σ) (m : Meaning) (t : PageTree) : Prop :=
  ∀ (T : Slice) (i last : Int) (rounds fuel : Nat) (s : Engine σ),
    T.reads i t.print = true → i + t.print.length = T.length → last ≤ i →
    t.print.length < rounds → t.depth ≤ fuel → s.Plain → t.Answered host m s.host →
    Shows ((mainLoop host (processHTML host fuel) (fuel + 1) T rounds ⟨i, last, false⟩ >>=
        finish T).run s) false (t.clear m) ((T.sub last (i - last)).bytes ++ t.render m)
      ((T.sub last (i - last)).bytes ++ t.texts m) { s with engineIndex := s.engineIndex - 1 }

end PageTree

/-! ## One step of the main loop -/

section

variable {host : TemplateHost σ} {m : Meaning}

/-- The end of a page. -/
theorem shows_finish {s : Engine σ} (hs : s.Plain) {T : Slice} {i last : Int}
    (h : last ≤ T.length) :
    Shows ((finish T ⟨i, last, false⟩).run s) false true (T.sub last (T.length - last)).bytes
      (T.sub last (T.length - last)).bytes { s with engineIndex := s.engineIndex - 1 } := by
  have hstop : Shows (((templateEngineStop >>= fun _ => pure false : Render σ Bool)).run s) false
      true [] [] { s with engineIndex := s.engineIndex - 1 } := by
    by_cases hzero : s.engineIndex = 0
    · have hrun : (templateEngineStop : Render σ Unit).run s = ⟨.ok (), s, []⟩ := if_pos hzero
      have hsame : { s with engineIndex := s.engineIndex - 1 } = s := by
        rw [hzero]
        cases s
        cases hzero
        rfl
      rw [hsame]
      exact .quiet (by rw [bind_of_ok hrun]; rfl) sends_nil
    · have hrun : (templateEngineStop : Render σ Unit).run s =
          ⟨.ok (), { s with engineIndex := s.engineIndex - 1 }, [.stop (s.engineIndex - 1)]⟩ :=
        if_neg hzero
      refine .quiet (by rw [bind_of_ok hrun]; rfl) ⟨rfl, rfl, fun X hX => ?_⟩
      simp at hX
  have hchunk := shows_chunk hs (X := T.sub last (T.length - last))
    (by rw [Slice.sub_length]; omega)
  have hboth := hchunk.bind (f := fun _ => templateEngineStop >>= fun _ => pure false) hstop
  rw [Bool.and_true, List.append_nil] at hboth
  exact hboth

theorem mainLoop_end {render : Slice → Render σ Bool} {fuel rounds : Nat} {T : Slice} {p : Position}
    (h : ¬p.i < T.length) :
    mainLoop host render fuel T (rounds + 1) p >>= finish T = finish T p := by
  rw [mainLoop, if_neg h]
  rfl

namespace PageTree

theorem tailShows_done : TailShows host m done := by
  intro T i last rounds fuel s _ hend hlast hrounds _ hs _
  obtain ⟨rounds, rfl⟩ := Nat.exists_eq_succ_of_ne_zero (Nat.ne_of_gt (Nat.zero_lt_of_lt hrounds))
  have hi : i = T.length := by simpa [print] using hend
  subst hi
  rw [mainLoop_end (by simp), render, texts, render, List.append_nil]
  exact shows_finish hs hlast

theorem bytes_sub_succ {T : Slice} {i last : Int} (hlast : last ≤ i) :
    (T.sub last (i + 1 - last)).bytes = (T.sub last (i - last)).bytes ++ [T.at i] := by
  have hn : (i + 1 - last).toNat = (i - last).toNat + 1 := by omega
  rw [Slice.bytes_eq, Slice.bytes_eq, Slice.sub_length, Slice.sub_length, hn, List.range_succ,
    List.map_append, List.map_singleton, Slice.sub_at]
  have hat : last + ((i - last).toNat : Int) = i := by omega
  rw [hat]
  rfl

/-- A byte of text is passed. -/
theorem TailShows.byte {c : PlainByte} {rest : PageTree} (hrest : TailShows host m rest) :
    TailShows host m (.byte c rest) := by
  intro T i last rounds fuel s h hend hlast hrounds hdepth hs hanswered
  obtain ⟨rounds, rfl⟩ := Nat.exists_eq_succ_of_ne_zero (Nat.ne_of_gt (Nat.zero_lt_of_lt hrounds))
  obtain ⟨hat, hreads⟩ := Slice.at_of_reads h
  rw [print, List.length_cons] at hend hrounds
  have hplain : functionAt host.platformFunctionExists T i = .plain := by
    rw [functionAt, if_pos (hat ▸ c.plain.1)]
  have hround : mainLoop host (processHTML host fuel) (fuel + 1) T (rounds + 1) ⟨i, last, false⟩ =
      mainLoop host (processHTML host fuel) (fuel + 1) T rounds ⟨i + 1, last, false⟩ := by
    rw [mainLoop, if_pos (by dsimp only; omega), hplain]
  have htail := hrest T (i + 1) last rounds fuel s hreads (by push_cast at hend; omega) (by omega)
    (by omega) hdepth hs hanswered
  rw [bytes_sub_succ hlast, hat, List.append_assoc, List.append_assoc] at htail
  rw [hround]
  exact htail

/-- A round of the main loop at a function: what is before it, the function, and what follows. -/
theorem shows_function (rounds : Nat) {T : Slice} {i last e : Int} {fuel : Nat}
    {func : FunctionParas} {s s₁ s₂ : Engine σ} {p : Position} {clear clear' : Bool}
    {rendered rendered' texts texts' : List UInt8} (hs : s.Plain) (hlast : last ≤ i)
    (hi : i < T.length)
    (hfound : functionAt host.platformFunctionExists T i = .function func e)
    (hrun : Shows ((runFunction host (processHTML host fuel) (fuel + 1) T func e last).run s) p
      clear rendered texts s₁)
    (hnext : Shows ((mainLoop host (processHTML host fuel) (fuel + 1) T rounds p.next >>=
      finish T).run s₁) false clear' rendered' texts' s₂) :
    Shows ((mainLoop host (processHTML host fuel) (fuel + 1) T (rounds + 1) ⟨i, last, false⟩ >>=
        finish T).run s) false (clear && clear')
      ((T.sub last (i - last)).bytes ++ (rendered ++ rendered'))
      ((T.sub last (i - last)).bytes ++ (texts ++ texts')) s₂ := by
  have hround := @mainLoop_function σ host (processHTML host fuel) (fuel + 1) rounds T
    ⟨i, last, false⟩ func e hfound hi
  have h₁ := hrun.bind (f := fun q =>
    mainLoop host (processHTML host fuel) (fuel + 1) T rounds q.next >>= finish T) hnext
  have h₂ := (shows_printFunction hs T func i e).bind (f := fun _ =>
    runFunction host (processHTML host fuel) (fuel + 1) T func e last >>= fun q =>
      mainLoop host (processHTML host fuel) (fuel + 1) T rounds q.next >>= finish T) h₁
  have h₃ := (shows_sendBefore (T := T) hs hlast).bind (f := fun _ =>
    printFunction T func i e >>= fun _ => runFunction host (processHTML host fuel) (fuel + 1) T func e last >>= fun q =>
      mainLoop host (processHTML host fuel) (fuel + 1) T rounds q.next >>= finish T) h₂
  rw [hround]
  simp only [Program.bind_assoc, Bool.true_and, List.nil_append] at h₃ ⊢
  exact h₃

theorem bytes_sub_self (T : Slice) (i : Int) : (T.sub i (i - i)).bytes = [] := by
  rw [Slice.bytes_eq, Slice.sub_length, sub_self]
  rfl

/-- The function of a get tag. -/
theorem shows_getVariable {T : Slice} {e last : Int} {fuel : Nat} {n : VariableName}
    {s : Engine σ} (hs : s.Plain)
    (hvalue : host.getVariable n.func true s.host =
      { value := (), state := s.host, sent := m.value n }) :
    Shows ((runFunction host (processHTML host fuel) (fuel + 1) T n.func e last).run s)
      ⟨e, e + 1, false⟩ true (m.value n) [] s := by
  have hshown : host.getVariable n.func (¬s.disableOutput) s.host =
      { value := (), state := s.host, sent := m.value n } := by
    rw [hs.output]
    exact hvalue
  have hread : Shows ((.read : Render σ (Engine σ)).run s) s true [] [] s :=
    .quiet (run_read s) sends_nil
  have hpure : Shows ((pure ⟨e, e + 1, false⟩ : Render σ Position).run s) ⟨e, e + 1, false⟩ true
      [] [] s := .quiet (run_pure _ s) sends_nil
  have hcall := (shows_call hs hshown).bind
    (f := fun _ => (pure ⟨e, e + 1, false⟩ : Render σ Position)) hpure
  have hboth := hread.bind (f := fun s => call (host.getVariable n.func (¬s.disableOutput)) >>=
    fun _ => (pure ⟨e, e + 1, false⟩ : Render σ Position)) hcall
  rw [List.nil_append, List.append_nil] at hboth
  exact hboth

/-- A get tag is replaced by its value. -/
theorem TailShows.get {n : VariableName} {rest : PageTree} (hrest : TailShows host m rest) :
    TailShows host m (.get n rest) := by
  intro T i last rounds fuel s h hend hlast hrounds hdepth hs hanswered
  obtain ⟨rounds, rfl⟩ := Nat.exists_eq_succ_of_ne_zero (Nat.ne_of_gt (Nat.zero_lt_of_lt hrounds))
  obtain ⟨htag, hreads⟩ := Slice.reads_of_append h
  rw [print, List.length_append] at hend hrounds
  have hpos : 0 < n.tag.length := by
    rw [VariableName.tag, tagText]
    exact Nat.zero_lt_succ _
  have hfound : functionAt host.platformFunctionExists T i =
      .function n.func (i + n.tag.length - 1) := n.functionAt_eq htag (by omega)
  have hnext := hrest T (i + n.tag.length) (i + n.tag.length) rounds fuel s hreads (by omega)
    (le_refl _) (by omega) hdepth hs hanswered.2
  have hback : i + (n.tag.length : Int) - 1 + 1 = i + n.tag.length := by omega
  have hrun := @shows_getVariable σ host m T (i + n.tag.length - 1) last fuel n s hs hanswered.1
  have hround := shows_function rounds hs hlast (by omega) hfound hrun (by
    rw [Position.next, hback]
    exact hnext)
  rw [bytes_sub_self] at hround
  exact hround

/-- What a block shows: nothing, or a branch. -/
def BranchShows (render : Slice → Render σ Bool) (s : Engine σ) (clear : Bool)
    (rendered texts : List UInt8) : Option Slice → Prop
  | none => clear = true ∧ rendered = [] ∧ texts = []
  | some U => Shows ((render U).run s) false clear rendered texts s

theorem shows_templateIf {render : Slice → Render σ Bool} {S : Slice} {tags : IfTags}
    {c : Condition} {s : Engine σ} {clear : Bool} {rendered texts : List UInt8} (hs : s.Plain)
    (htags : findIfTagsPos S = some tags)
    (hcondition : host.callCondition c.func s.host = { value := m.condition c, state := s.host })
    (hbranch : BranchShows render s clear rendered texts
      (selectBranch S tags (m.condition c))) :
    Shows ((engineTemplateIf host render c.func S).run s) (tags.endifPos, false) clear rendered
      texts s := by
  have hsearch : Shows ((.emitAll (.search S ::
      (ifTagSearches S (S.length.toNat + 1) 0 0).map .search) : Render σ Unit).run s) () true
      [] [] s :=
    .quiet rfl (sends_search (S :: ifTagSearches S (S.length.toNat + 1) 0 0))
  have hcall := shows_call hs hcondition
  unfold engineTemplateIf
  rw [htags]
  dsimp only
  rcases hselect : selectBranch S tags (m.condition c) with _ | U
  · rw [hselect] at hbranch
    obtain ⟨rfl, rfl, rfl⟩ := hbranch
    have hpure : Shows ((match selectBranch S tags (m.condition c) with
        | none => pure (tags.endifPos, false)
        | some branch => do
            let returnFound ← render branch
            pure (tags.endifPos, returnFound) : Render σ (Int × Bool)).run s) (tags.endifPos, false)
        true [] [] s := by
      rw [hselect]
      exact .quiet (run_pure _ s) sends_nil
    exact hsearch.bind (hcall.bind hpure)
  · rw [hselect] at hbranch
    have hpure : Shows ((pure (tags.endifPos, false) : Render σ (Int × Bool)).run s)
        (tags.endifPos, false) true [] [] s := .quiet (run_pure _ s) sends_nil
    have hrender : Shows ((match selectBranch S tags (m.condition c) with
        | none => pure (tags.endifPos, false)
        | some branch => do
            let returnFound ← render branch
            pure (tags.endifPos, returnFound) : Render σ (Int × Bool)).run s) (tags.endifPos, false)
        clear rendered texts s := by
      rw [hselect]
      have hboth := Shows.bind (f := fun returnFound => pure (tags.endifPos, returnFound)) hbranch
        hpure
      rw [Bool.and_true, List.append_nil, List.append_nil] at hboth
      exact hboth
    exact hsearch.bind (hcall.bind hrender)

/-- The function of an if tag. -/
theorem shows_ifFunction {T : Slice} {e last : Int} {fuel : Nat} {tags : IfTags} {c : Condition}
    {s : Engine σ} {clear : Bool} {rendered texts : List UInt8} (hs : s.Plain)
    (htags : findIfTagsPos (ifSlice T e) = some tags)
    (hcondition : host.callCondition c.func s.host = { value := m.condition c, state := s.host })
    (hbranch : BranchShows (processHTML host fuel) s clear rendered texts
      (selectBranch (ifSlice T e) tags (m.condition c))) :
    Shows ((runFunction host (processHTML host fuel) (fuel + 1) T c.func e last).run s)
      ⟨e + 1 + tags.endifPos, e + 1 + tags.endifPos, false⟩ clear rendered texts s := by
  have hpure : Shows ((pure ⟨e + 1 + tags.endifPos, e + 1 + tags.endifPos, false⟩ :
      Render σ Position).run s) ⟨e + 1 + tags.endifPos, e + 1 + tags.endifPos, false⟩ true
      [] [] s := .quiet (run_pure _ s) sends_nil
  have hboth := (shows_templateIf hs htags hcondition hbranch).bind
    (f := fun r : Int × Bool =>
      if r.2 = true then (pure ⟨T.length, T.length, true⟩ : Render σ Position)
      else pure ⟨e + 1 + r.1, e + 1 + r.1, false⟩)
    (a := (tags.endifPos, false)) hpure
  rw [Bool.and_true, List.append_nil, List.append_nil] at hboth
  exact hboth

/-- Behind a block the first byte is passed, whatever it is. -/
theorem shows_afterBlock {t : PageTree}
    (hrest : ∀ (c : PlainByte) (rest : PageTree), t = .byte c rest → TailShows host m rest)
    {T : Slice} {i : Int} {rounds fuel : Nat} {s : Engine σ} (h : T.reads i t.print = true)
    (hend : i + t.print.length = T.length) (hrounds : t.print.length < rounds)
    (hdepth : t.depth ≤ fuel) (hs : s.Plain) (hanswered : t.Answered host m s.host) :
    Shows ((mainLoop host (processHTML host fuel) (fuel + 1) T rounds ⟨i + 1, i, false⟩ >>=
        finish T).run s) false (!t.startsWithTag && t.clear m) (t.render m) (t.texts m)
      { s with engineIndex := s.engineIndex - 1 } := by
  cases htag : t.startsWithTag with
  | true =>
      -- a tag: its brace is sent
      obtain ⟨inside, more, hprint, -⟩ := print_of_startsWithTag htag
      rw [hprint] at h hend hrounds
      rw [List.length_cons] at hend hrounds
      exact shows_brace (Or.inl (Slice.at_of_reads h).1) (by push_cast at hend; omega) (le_refl _)
        (by dsimp only; omega) (fun j hj hle => by dsimp only at hj; omega)
        (by dsimp only; push_cast at hend; omega) s _ _ _
  | false =>
      cases t with
      | done =>
          obtain ⟨rounds, rfl⟩ := Nat.exists_eq_succ_of_ne_zero
            (Nat.ne_of_gt (Nat.zero_lt_of_lt hrounds))
          have hi : i = T.length := by simpa [print] using hend
          subst hi
          have hfinish := shows_finish (i := T.length + 1) hs (le_refl T.length)
          rw [bytes_sub_self] at hfinish
          rw [mainLoop_end (by dsimp only; omega)]
          exact hfinish
      | byte c rest =>
          obtain ⟨hat, hreads⟩ := Slice.at_of_reads h
          rw [print, List.length_cons] at hend hrounds
          have htail := hrest c rest rfl T (i + 1) i rounds fuel s hreads
            (by push_cast at hend; omega) (by omega) (by omega) hdepth hs hanswered
          rw [bytes_sub_succ (le_refl i), bytes_sub_self, hat] at htail
          exact htail
      | get n rest => cases htag
      | ifEnd c branch rest => cases htag
      | ifElse c branch elseBranch rest => cases htag

theorem Answered.dropBytes {t : PageTree} {st : σ} (k : Nat) (h : t.Answered host m st) :
    (t.dropBytes k).Answered host m st := by
  fun_induction PageTree.dropBytes k t with
  | case1 k c rest ih => exact ih h
  | case2 k t => exact h

/-- A page with a header, of which the byte behind the header is left out, too. -/
theorem shows_behindHeader {t : PageTree}
    (hshows : ∀ u : PageTree, u.print.length ≤ t.print.length → TailShows host m u)
    {S : Slice} {fuel : Nat} {s : Engine σ} (h : S.reads 0 t.print = true)
    (hend : S.length = t.print.length) (hdepth : t.depth ≤ fuel) (hs : s.Plain)
    (hanswered : t.Answered host m s.host) (hheader : S.reads 0 templateV1Header = true) :
    Shows ((mainLoop host (processHTML host fuel) (fuel + 1) (S.sub 12 (S.length - 12))
      ((S.sub 12 (S.length - 12)).length.toNat + 1) ⟨0, 0, false⟩ >>=
        finish (S.sub 12 (S.length - 12))).run s) false false (t.render m) (t.texts m)
      { s with engineIndex := s.engineIndex - 1 } := by
  generalize hT : S.sub 12 (S.length - 12) = T
  have hlength : T.length = S.length - 12 := by rw [← hT]; rfl
  by_cases hshort : S.length < 12
  · -- nothing is left, and the length is negative
    rw [mainLoop_end (by dsimp only; omega)]
    refine .broken (X := T.sub 0 (T.length - 0)) rfl (mem_bind_left List.mem_cons_self) (Or.inl ?_)
    rw [Slice.sub_length]
    omega
  · have hlen : templateV1Header.length = 11 := by decide
    have hprefix := Slice.isPrefixOf_of_reads hheader h (by omega)
    obtain ⟨hprint, htexts⟩ := dropBytes_of_prefix (by decide +kernel) hprefix m
    have hdepth' := t.depth_dropBytes templateV1Header.length
    have hanswered' := hanswered.dropBytes templateV1Header.length
    generalize t.dropBytes templateV1Header.length = u at hprint htexts hdepth' hanswered'
    have hreads : S.reads 11 u.print = true := by
      have hboth := (Slice.reads_of_append (hprint ▸ h)).2
      rw [hlen] at hboth
      exact hboth
    have hcount : t.print.length = 11 + u.print.length := by
      rw [hprint, List.length_append, hlen]
    cases htag : u.startsWithTag with
    | true =>
        -- the opening brace of a tag is left out, its closing brace is sent
        obtain ⟨inside, more, hu, hno⟩ := print_of_startsWithTag htag
        rw [hu] at hreads hcount
        have hrest := (Slice.at_of_reads hreads).2
        have hreadsT : T.reads 0 (inside ++ 125 :: more) = true := by
          rw [← hT, Slice.sub_reads]
          exact hrest
        obtain ⟨hinside, hclose⟩ := Slice.reads_of_append hreadsT
        have hbrace : T.at inside.length = 125 := by
          have hat := (Slice.at_of_reads hclose).1
          rwa [zero_add] at hat
        rw [List.length_cons, List.length_append, List.length_cons] at hcount
        refine shows_brace (Or.inr hbrace) (by omega) (by dsimp only; omega) (le_refl _) ?_
          (by dsimp only; omega) s _ _ _
        intro j hj hle
        dsimp only at hj
        by_cases hlast : j = inside.length
        · rw [hlast, hbrace]
          decide
        · have hlt : j.toNat < inside.length := by omega
          have hat := (Slice.reads_iff T 0 inside).mp hinside j.toNat hlt
          have hj' : 0 + (j.toNat : Int) = j := by omega
          rw [hj'] at hat
          rw [hat]
          exact hno _ (List.getElem_mem hlt)
    | false =>
        cases u with
        | done =>
            rw [print, List.length_nil] at hcount
            omega
        | byte c rest =>
            have hrest := (Slice.at_of_reads hreads).2
            have hreadsT : T.reads 0 rest.print = true := by
              rw [← hT, Slice.sub_reads]
              exact hrest
            rw [print, List.length_cons] at hcount
            have htail := hshows rest (by omega) T 0 0 (T.length.toNat + 1) fuel s hreadsT
              (by omega) (le_refl _) (by omega) (hdepth'.trans_le hdepth) hs hanswered'
            rw [bytes_sub_self, List.nil_append, List.nil_append] at htail
            cases htail with
            | broken _ hX hbroken => exact .broken rfl hX hbroken
            | sent hresult hstate hsends =>
                refine .sent hresult hstate ?_
                have hle := hsends.length_le
                have hcons : ((PageTree.byte c rest).texts m).length =
                    (rest.texts m).length + 1 := rfl
                show (pageBytes _).length < (t.texts m).length
                rw [htexts, List.length_append, hcons]
                omega
        | get n rest => cases htag
        | ifEnd c branch rest => cases htag
        | ifElse c branch elseBranch rest => cases htag

/-- A page or a branch. If it starts like a page with a header, some of its text is lost. -/
theorem processHTML_shows {t : PageTree}
    (hshows : ∀ u : PageTree, u.print.length ≤ t.print.length → TailShows host m u)
    {S : Slice} {fuel : Nat} {s : Engine σ} (h : S.reads 0 t.print = true)
    (hend : S.length = t.print.length) (hdepth : t.depth ≤ fuel) (hs : s.Plain)
    (hanswered : t.Answered host m s.host) :
    Shows ((processHTML host (fuel + 1) S).run s) false
      (!S.reads 0 templateV1Header && t.clear m) (t.render m) (t.texts m) s := by
  have hstart : Shows ((templateEngineStart S).run s) () true [] []
      { s with engineIndex := s.engineIndex + 1 } :=
    .quiet rfl ⟨rfl, rfl, fun X hX => by simp at hX⟩
  have hs' : Engine.Plain { s with engineIndex := s.engineIndex + 1 } := ⟨hs.output, hs.functions⟩
  suffices hpage : Shows ((mainLoop host (processHTML host fuel) (fuel + 1) (skipHeader S)
      ((skipHeader S).length.toNat + 1) ⟨0, 0, false⟩ >>= finish (skipHeader S)).run
        { s with engineIndex := s.engineIndex + 1 }) false
      (!S.reads 0 templateV1Header && t.clear m) (t.render m) (t.texts m) s by
    rw [processHTML_succ]
    exact hstart.bind (f := fun _ => mainLoop host (processHTML host fuel) (fuel + 1) (skipHeader S)
      ((skipHeader S).length.toNat + 1) ⟨0, 0, false⟩ >>= finish (skipHeader S)) hpage
  cases hheader : S.reads 0 templateV1Header with
  | false =>
      have hskip : skipHeader S = S := by rw [skipHeader, hheader]; rfl
      rw [hskip]
      have htail := hshows t (le_refl _) S 0 0 (S.length.toNat + 1) fuel _ h (by omega) (le_refl _)
        (by omega) hdepth hs' hanswered
      rw [bytes_sub_self] at htail
      exact htail
  | true =>
      have hskip : skipHeader S = S.sub 12 (S.length - 12) := by rw [skipHeader, hheader]; rfl
      rw [hskip]
      exact shows_behindHeader hshows h hend hdepth hs' hanswered hheader

/-! ## Blocks -/

/-- A branch in a slice, up to the tag behind it. -/
theorem shows_branch {t : PageTree}
    (hshows : ∀ u : PageTree, u.print.length ≤ t.print.length → TailShows host m u)
    {U : Slice} (more : List UInt8) {fuel : Nat} {s : Engine σ}
    (h : U.reads 0 (t.print ++ 123 :: more) = true) (hend : U.length = t.print.length)
    (hdepth : t.depth < fuel) (hs : s.Plain) (hanswered : t.Answered host m s.host) :
    Shows ((processHTML host fuel U).run s) false (!t.startsWithHeader && t.clear m) (t.render m)
      (t.texts m) s := by
  obtain ⟨fuel, rfl⟩ := Nat.exists_eq_succ_of_ne_zero (Nat.ne_of_gt (Nat.zero_lt_of_lt hdepth))
  have hheader : U.reads 0 templateV1Header = t.startsWithHeader :=
    Slice.reads_eq_isPrefixOf h (by decide +kernel)
  rw [← hheader]
  exact processHTML_shows hshows (Slice.reads_of_append h).1 hend (Nat.le_of_lt_succ hdepth) hs
    hanswered

/-- A block, what is before it, and what follows. -/
theorem shows_block (rounds : Nat) (clear : Bool) (rendered texts : List UInt8) {c : Condition}
    {rest : PageTree} {T : Slice} {i last : Int} {fuel : Nat} {s : Engine σ} {tags : IfTags}
    (hrest : ∀ (d : PlainByte) (u : PageTree), rest = .byte d u → TailShows host m u)
    (hs : s.Plain) (hlast : last ≤ i) (htag : T.reads i c.tag = true)
    (hend : i + c.tag.length + tags.endifPos + rest.print.length = T.length)
    (hendif : 0 ≤ tags.endifPos) (hrounds : rest.print.length < rounds) (hdepth : rest.depth ≤ fuel)
    (hanswered : rest.Answered host m s.host)
    (hrestReads : T.reads (i + c.tag.length + tags.endifPos) rest.print = true)
    (htags : findIfTagsPos (T.sub (i + c.tag.length) (T.length - (i + c.tag.length))) = some tags)
    (hcondition : host.callCondition c.func s.host = { value := m.condition c, state := s.host })
    (hbranch : BranchShows (processHTML host fuel) s clear rendered texts
      (selectBranch (T.sub (i + c.tag.length) (T.length - (i + c.tag.length))) tags
        (m.condition c))) :
    Shows ((mainLoop host (processHTML host fuel) (fuel + 1) T (rounds + 1) ⟨i, last, false⟩ >>=
        finish T).run s) false (clear && (!rest.startsWithTag && rest.clear m))
      ((T.sub last (i - last)).bytes ++ (rendered ++ rest.render m))
      ((T.sub last (i - last)).bytes ++ (texts ++ rest.texts m))
      { s with engineIndex := s.engineIndex - 1 } := by
  have hpos : 0 < c.tag.length := by
    rw [Condition.tag, tagText]
    exact Nat.zero_lt_succ _
  have hfound : functionAt host.platformFunctionExists T i =
      .function c.func (i + c.tag.length - 1) := c.functionAt_eq htag (by omega)
  have hback : i + (c.tag.length : Int) - 1 + 1 = i + c.tag.length := by omega
  have hslice : ifSlice T (i + c.tag.length - 1) =
      T.sub (i + c.tag.length) (T.length - (i + c.tag.length)) := by
    rw [ifSlice, hback]
  rw [← hslice] at htags hbranch
  have hrun := @shows_ifFunction σ host m T (i + c.tag.length - 1) last fuel tags c s clear rendered
    texts hs htags hcondition hbranch
  rw [hback] at hrun
  have hnext := shows_afterBlock hrest hrestReads hend hrounds hdepth hs hanswered
  exact shows_function rounds hs hlast (by omega) hfound hrun hnext

/-- The slice behind a tag. -/
theorem reads_behindTag {T : Slice} {i : Int} {tag more : List UInt8} (length : Int)
    (h : T.reads i (tag ++ more) = true) : (T.sub (i + tag.length) length).reads 0 more = true := by
  rw [Slice.sub_reads, add_zero]
  exact (Slice.reads_of_append h).2

theorem TailShows.ifEnd {c : Condition} {branch rest : PageTree}
    (hshows : ∀ u : PageTree, u.print.length < (PageTree.ifEnd c branch rest).print.length →
      TailShows host m u) :
    TailShows host m (.ifEnd c branch rest) := by
  intro T i last rounds fuel s h hend hlast hrounds hdepth hs hanswered
  obtain ⟨rounds, rfl⟩ := Nat.exists_eq_succ_of_ne_zero (Nat.ne_of_gt (Nat.zero_lt_of_lt hrounds))
  obtain ⟨hcondition, hanswered, hanswered'⟩ := hanswered
  have hsize : (PageTree.ifEnd c branch rest).print.length =
      c.tag.length + (branch.print.length + (7 + rest.print.length)) := by
    simp only [print, List.length_append, endifTag_length]
  rw [hsize] at hend hrounds hshows
  push_cast at hend
  rw [depth] at hdepth
  have hblock := reads_behindTag (T.length - (i + c.tag.length)) h
  have hrest : T.reads (i + c.tag.length + (branch.print.length + 7)) rest.print = true := by
    have hreads := (Slice.reads_of_append (Slice.reads_of_append
      (Slice.reads_of_append h).2).2).2
    rw [endifTag_length_int] at hreads
    rwa [← add_assoc]
  have hfront : (T.sub (i + c.tag.length) (T.length - (i + c.tag.length))).reads 0
      (branch.print ++ TagId.endifTag.text) = true := by
    rw [← List.append_assoc] at hblock
    exact (Slice.reads_of_append hblock).1
  have htags := findIfTagsPos_ifEnd hfront (by rw [Slice.sub_length]; omega)
  have hbranch : BranchShows (processHTML host fuel) s
      (!m.holds c || (!branch.startsWithHeader && branch.clear m))
      (if m.holds c then branch.render m else []) (if m.holds c then branch.texts m else [])
      (selectBranch (T.sub (i + c.tag.length) (T.length - (i + c.tag.length)))
        ⟨-1, branch.print.length + 7⟩ (m.condition c)) := by
    rw [Meaning.condition]
    cases m.holds c with
    | false => exact ⟨rfl, rfl, rfl⟩
    | true =>
        refine shows_branch (fun u hu => hshows u (by omega)) TagId.endifTag.text.tail ?_
          (by show (branch.print.length + 7 - 7 : Int) = _; omega)
          (lt_of_lt_of_le (Nat.lt_succ_self _) (le_trans (le_max_left _ _) hdepth)) hs hanswered
        rw [Slice.sub_reads]
        exact hfront
  have hshow := shows_block rounds _ _ _ (fun d u hu => hshows u (by
    rw [hu, print, List.length_cons]
    omega)) hs hlast (Slice.reads_of_append h).1 (by dsimp only; omega) (by dsimp only; omega)
    (by omega) (le_trans (le_max_right _ _) hdepth) hanswered' hrest htags hcondition hbranch
  rw [clear, Bool.and_assoc]
  exact hshow

theorem TailShows.ifElse {c : Condition} {branch elseBranch rest : PageTree}
    (hshows : ∀ u : PageTree,
      u.print.length < (PageTree.ifElse c branch elseBranch rest).print.length →
        TailShows host m u) :
    TailShows host m (.ifElse c branch elseBranch rest) := by
  intro T i last rounds fuel s h hend hlast hrounds hdepth hs hanswered
  obtain ⟨rounds, rfl⟩ := Nat.exists_eq_succ_of_ne_zero (Nat.ne_of_gt (Nat.zero_lt_of_lt hrounds))
  obtain ⟨hcondition, hanswered, helseAnswered, hanswered'⟩ := hanswered
  have hsize : (PageTree.ifElse c branch elseBranch rest).print.length =
      c.tag.length + (branch.print.length +
        (6 + (elseBranch.print.length + (7 + rest.print.length)))) := by
    simp only [print, List.length_append, endifTag_length, elseTag_length]
  rw [hsize] at hend hrounds hshows
  push_cast at hend
  rw [depth] at hdepth
  have hdepth' := le_trans (le_max_left _ _) hdepth
  have hblock := reads_behindTag (T.length - (i + c.tag.length)) h
  have hrest : T.reads (i + c.tag.length +
      (branch.print.length + 6 + elseBranch.print.length + 7)) rest.print = true := by
    have hreads := (Slice.reads_of_append (Slice.reads_of_append (Slice.reads_of_append
      (Slice.reads_of_append (Slice.reads_of_append h).2).2).2).2).2
    rw [endifTag_length_int, elseTag_length_int] at hreads
    rwa [← add_assoc, ← add_assoc, ← add_assoc]
  have hfront : (T.sub (i + c.tag.length) (T.length - (i + c.tag.length))).reads 0
      (branch.print ++ (TagId.elseTag.text ++ (elseBranch.print ++ TagId.endifTag.text))) =
        true := by
    have hassoc : branch.print ++ (TagId.elseTag.text ++ (elseBranch.print ++
        (TagId.endifTag.text ++ rest.print))) =
        (branch.print ++ (TagId.elseTag.text ++ (elseBranch.print ++ TagId.endifTag.text))) ++
          rest.print := by
      simp only [List.append_assoc]
    rw [hassoc] at hblock
    exact (Slice.reads_of_append hblock).1
  have htags := findIfTagsPos_ifElse hfront (by rw [Slice.sub_length]; omega)
  have hbranch : BranchShows (processHTML host fuel) s
      (if m.holds c then !branch.startsWithHeader && branch.clear m
        else !elseBranch.startsWithHeader && elseBranch.clear m)
      (if m.holds c then branch.render m else elseBranch.render m)
      (if m.holds c then branch.texts m else elseBranch.texts m)
      (selectBranch (T.sub (i + c.tag.length) (T.length - (i + c.tag.length)))
        ⟨branch.print.length + 6, branch.print.length + 6 + elseBranch.print.length + 7⟩
        (m.condition c)) := by
    have helsePos : (branch.print.length : Int) + 6 ≠ -1 := by omega
    rw [Meaning.condition]
    cases m.holds c with
    | true =>
        rw [if_pos rfl, if_pos rfl, if_pos rfl, if_pos rfl, selectBranch]
        rw [if_pos helsePos]
        refine shows_branch (fun u hu => hshows u (by omega)) (TagId.elseTag.text.tail ++
          (elseBranch.print ++ TagId.endifTag.text)) ?_
          (by rw [Slice.sub_length]; dsimp only; omega)
          (lt_of_le_of_lt (le_max_left _ _) hdepth') hs hanswered
        rw [Slice.sub_reads]
        exact hfront
    | false =>
        rw [if_neg (by decide), if_neg (by decide), if_neg (by decide), if_neg (by decide),
          selectBranch, if_pos helsePos]
        refine shows_branch (fun u hu => hshows u (by omega)) TagId.endifTag.text.tail ?_
          (by rw [Slice.sub_length]; dsimp only; omega)
          (lt_of_le_of_lt (le_max_right _ _) hdepth') hs helseAnswered
        have hreads := (Slice.reads_of_append (Slice.reads_of_append hfront).2).2
        rw [zero_add, elseTag_length_int] at hreads
        rw [Slice.sub_reads, add_zero]
        exact hreads
  have hshow := shows_block rounds _ _ _ (fun d u hu => hshows u (by
    rw [hu, print, List.length_cons]
    omega)) hs hlast (Slice.reads_of_append h).1 (by dsimp only; omega) (by dsimp only; omega)
    (by omega) (le_trans (le_max_right _ _) hdepth) hanswered' hrest htags hcondition hbranch
  rw [clear, Bool.and_assoc]
  exact hshow

/-- **Every tree is rendered, but for what its text makes the engine miss.** -/
theorem tailShows (t : PageTree) : TailShows host m t := by
  generalize hsize : t.print.length = size
  induction size using Nat.strong_induction_on generalizing t with
  | _ size ih =>
    have hshows : ∀ u : PageTree, u.print.length < t.print.length → TailShows host m u :=
      fun u hu => ih u.print.length (hsize ▸ hu) u rfl
    cases t with
    | done => exact tailShows_done
    | byte c rest =>
        exact (hshows rest (by rw [print, List.length_cons]; exact Nat.lt_succ_self _)).byte
    | get n rest =>
        refine (hshows rest ?_).get
        have hpos : 0 < n.tag.length := by
          rw [VariableName.tag, tagText]
          exact Nat.zero_lt_succ _
        rw [print, List.length_append]
        omega
    | ifEnd c branch rest => exact TailShows.ifEnd hshows
    | ifElse c branch elseBranch rest => exact TailShows.ifElse hshows

end PageTree

end

end CWebUI.Template
