import Mathlib.Data.List.Basic

set_option autoImplicit false

/-! # Programs that leave a trace

A program over a state `σ` emits events, and it ends with a value or with an error. Its events are
kept in both cases, so that a run that was cut off for want of fuel still shows what it did.

* `Outcome.Meets`: every event of a run has a property, and so have the value and the state that it
  ends with; the rules follow the program.
* `Program.Keeps`: a relation between the states before and behind a run, and its events; the rules
  need the relation to be reflexive and transitive.
* `Converges`: with enough fuel the run no longer depends on the fuel, and does not end for want
  of it.
-/

namespace Traced

/-- How a run ends, and what it emits. -/
structure Outcome (ε σ ω α : Type) where
  result : Except ε α
  state : σ
  events : List ω

/-- A program over a state. -/
structure Program (ε σ ω α : Type) where
  run : σ → Outcome ε σ ω α

variable {ε σ ω α β : Type}

/-- An outcome, behind events that were emitted before. -/
def Outcome.after (o : Outcome ε σ ω α) (events : List ω) : Outcome ε σ ω α :=
  { o with events := events ++ o.events }

namespace Program

/-- The program that returns a value. -/
def done (a : α) : Program ε σ ω α := ⟨fun s => ⟨.ok a, s, []⟩⟩

/-- One program, and then another one. -/
def andThen (m : Program ε σ ω α) (f : α → Program ε σ ω β) : Program ε σ ω β := ⟨fun s =>
  match (m.run s).result with
  | .ok a => ((f a).run (m.run s).state).after (m.run s).events
  | .error e => ⟨.error e, (m.run s).state, (m.run s).events⟩⟩

instance : Monad (Program ε σ ω) where
  pure := done
  bind := andThen

/-- The program that fails. -/
def fail (e : ε) : Program ε σ ω α := ⟨fun s => ⟨.error e, s, []⟩⟩

/-- The program that emits an event. -/
def emit (e : ω) : Program ε σ ω Unit := ⟨fun s => ⟨.ok (), s, [e]⟩⟩

/-- The program that emits a list of events. -/
def emitAll (events : List ω) : Program ε σ ω Unit := ⟨fun s => ⟨.ok (), s, events⟩⟩

/-- The program that reads the state. -/
def read : Program ε σ ω σ := ⟨fun s => ⟨.ok s, s, []⟩⟩

/-- The program that changes the state. -/
def change (f : σ → σ) : Program ε σ ω Unit := ⟨fun s => ⟨.ok (), f s, []⟩⟩

/-! ## What programs do -/

@[simp] theorem run_pure (a : α) (s : σ) :
    (pure a : Program ε σ ω α).run s = ⟨.ok a, s, []⟩ := rfl

@[simp] theorem run_fail (e : ε) (s : σ) :
    (fail e : Program ε σ ω α).run s = ⟨.error e, s, []⟩ := rfl

@[simp] theorem run_emit (e : ω) (s : σ) :
    (emit e : Program ε σ ω Unit).run s = ⟨.ok (), s, [e]⟩ := rfl

@[simp] theorem run_read (s : σ) : (read : Program ε σ ω σ).run s = ⟨.ok s, s, []⟩ := rfl

@[simp] theorem run_change (f : σ → σ) (s : σ) :
    (change f : Program ε σ ω Unit).run s = ⟨.ok (), f s, []⟩ := rfl

theorem bind_of_ok {m : Program ε σ ω α} {f : α → Program ε σ ω β} {s s' : σ} {a : α}
    {events : List ω} (h : m.run s = ⟨.ok a, s', events⟩) :
    (m >>= f).run s = ((f a).run s').after events := by
  change (andThen m f).run s = _
  simp only [andThen, h]

theorem bind_of_error {m : Program ε σ ω α} {f : α → Program ε σ ω β} {s s' : σ} {e : ε}
    {events : List ω} (h : m.run s = ⟨.error e, s', events⟩) :
    (m >>= f).run s = ⟨.error e, s', events⟩ := by
  change (andThen m f).run s = _
  simp only [andThen, h]

/-- What the first program emits is emitted. -/
theorem mem_bind_left {m : Program ε σ ω α} {f : α → Program ε σ ω β} {s : σ} {e : ω}
    (h : e ∈ (m.run s).events) : e ∈ ((m >>= f).run s).events := by
  rcases hm : m.run s with ⟨result, s', events⟩
  rw [hm] at h
  cases result with
  | ok a =>
      rw [bind_of_ok hm]
      exact List.mem_append_left _ h
  | error e =>
      rw [bind_of_error hm]
      exact h

theorem bind_assoc {γ : Type} (m : Program ε σ ω α) (f : α → Program ε σ ω β)
    (g : β → Program ε σ ω γ) : (m >>= f) >>= g = m >>= fun a => f a >>= g := by
  change (⟨_⟩ : Program ε σ ω γ) = ⟨_⟩
  congr 1
  funext s
  change ((m >>= f) >>= g).run s = (m >>= fun a => f a >>= g).run s
  rcases hm : m.run s with ⟨result, s', events⟩
  cases result with
  | error e => rw [bind_of_error hm, bind_of_error (bind_of_error hm)]
  | ok a =>
      have hmf : (m >>= f).run s = ((f a).run s').after events := bind_of_ok hm
      rcases hf : (f a).run s' with ⟨result', s'', events'⟩
      rw [hf] at hmf
      cases result' with
      | error e => rw [bind_of_error hmf, bind_of_ok hm, bind_of_error hf]; rfl
      | ok b =>
          rw [bind_of_ok hmf, bind_of_ok hm, bind_of_ok hf]
          simp [Outcome.after]

/-- The program returns a value, and ends in a state. -/
def Returns (m : Program ε σ ω α) (s : σ) (a : α) (s' : σ) : Prop :=
  ∃ events, m.run s = ⟨.ok a, s', events⟩

theorem Returns.pure (a : α) (s : σ) : (Pure.pure a : Program ε σ ω α).Returns s a s := ⟨[], rfl⟩

theorem Returns.read (s : σ) : (read : Program ε σ ω σ).Returns s s s := ⟨[], rfl⟩

theorem Returns.bind {m : Program ε σ ω α} {f : α → Program ε σ ω β} {s s' s'' : σ} {a : α} {b : β}
    (hm : m.Returns s a s') (hf : (f a).Returns s' b s'') : (m >>= f).Returns s b s'' := by
  obtain ⟨events, hm⟩ := hm
  obtain ⟨events', hf⟩ := hf
  exact ⟨events ++ events', by rw [bind_of_ok hm, hf]; rfl⟩

/-- What the second program emits is emitted. -/
theorem Returns.mem_bind {m : Program ε σ ω α} {f : α → Program ε σ ω β} {s s' : σ} {a : α} {e : ω}
    (hm : m.Returns s a s') (h : e ∈ ((f a).run s').events) : e ∈ ((m >>= f).run s).events := by
  obtain ⟨events, hm⟩ := hm
  rw [bind_of_ok hm]
  exact List.mem_append_right _ h

end Program

/-! ## Properties of runs -/

/-- Every event of a run has a property, and if it returns, so have the value and the state. -/
structure Outcome.Meets (event : ω → Prop) (post : α → σ → Prop) (o : Outcome ε σ ω α) : Prop where
  events : ∀ e ∈ o.events, event e
  returned : ∀ a, o.result = .ok a → post a o.state

namespace Outcome.Meets

variable {event : ω → Prop} {post : α → σ → Prop} {s : σ}

theorem mono {post' : α → σ → Prop} {o : Outcome ε σ ω α} (h : o.Meets event post)
    (hpost : ∀ a s', post a s' → post' a s') : o.Meets event post' :=
  ⟨h.events, fun a ha => hpost a _ (h.returned a ha)⟩

/-- What is known of every run. -/
theorem any (o : Outcome ε σ ω α) : o.Meets (fun _ => True) fun _ _ => True :=
  ⟨fun _ _ => trivial, fun _ _ => trivial⟩

theorem and {event' : ω → Prop} {post' : α → σ → Prop} {o : Outcome ε σ ω α}
    (h : o.Meets event post) (h' : o.Meets event' post') :
    o.Meets event fun a s' => post a s' ∧ post' a s' :=
  ⟨h.events, fun a ha => ⟨h.returned a ha, h'.returned a ha⟩⟩

theorem pure {a : α} (h : post a s) :
    ((Pure.pure a : Program ε σ ω α).run s).Meets event post := by
  refine ⟨fun e he => ?_, fun b hb => ?_⟩
  · cases he
  · cases hb
    exact h

theorem bind {m : Program ε σ ω α} {f : α → Program ε σ ω β} {mid : α → σ → Prop}
    {post : β → σ → Prop} (hm : (m.run s).Meets event mid)
    (hf : ∀ a s', mid a s' → ((f a).run s').Meets event post) :
    ((m >>= f).run s).Meets event post := by
  rcases hrun : m.run s with ⟨result, s', events⟩
  rw [hrun] at hm
  cases result with
  | ok a =>
      have hnext := hf a s' (hm.returned a rfl)
      rw [Program.bind_of_ok hrun]
      refine ⟨fun e he => ?_, fun b hb => hnext.returned b hb⟩
      rcases List.mem_append.mp he with he | he
      · exact hm.events e he
      · exact hnext.events e he
  | error e =>
      rw [Program.bind_of_error hrun]
      refine ⟨hm.events, fun b hb => ?_⟩
      cases hb

theorem fail {e : ε} : ((Program.fail e : Program ε σ ω α).run s).Meets event post := by
  refine ⟨fun e he => ?_, fun b hb => ?_⟩
  · cases he
  · cases hb

theorem emitAll {events : List ω} {post : Unit → σ → Prop} (he : ∀ e ∈ events, event e)
    (h : post () s) : ((Program.emitAll events : Program ε σ ω Unit).run s).Meets event post :=
  ⟨he, fun _ _ => h⟩

theorem emit {e : ω} {post : Unit → σ → Prop} (he : event e) (h : post () s) :
    ((Program.emit e : Program ε σ ω Unit).run s).Meets event post :=
  ⟨fun _ he' => List.mem_singleton.mp he' ▸ he, fun _ _ => h⟩

theorem read {post : σ → σ → Prop} (h : post s s) :
    ((Program.read : Program ε σ ω σ).run s).Meets event post := by
  refine ⟨fun e he => ?_, fun b hb => ?_⟩
  · cases he
  · cases hb
    exact h

theorem change {f : σ → σ} {post : Unit → σ → Prop} (h : post () (f s)) :
    ((Program.change f : Program ε σ ω Unit).run s).Meets event post := by
  refine ⟨fun e he => ?_, fun _ _ => h⟩
  cases he

end Outcome.Meets

/-! ## Relations that runs keep -/

/-- A relation between states, by way of the events between them, that runs can be composed in. -/
structure Composes (R : σ → List ω → σ → Prop) : Prop where
  refl : ∀ s, R s [] s
  trans : ∀ {s s' s'' : σ} {events events' : List ω}, R s events s' → R s' events' s'' →
    R s (events ++ events') s''

/-- If the program returns, its run is in the relation. -/
def Program.Keeps (R : σ → List ω → σ → Prop) (m : Program ε σ ω α) : Prop :=
  ∀ s a s' events, m.run s = ⟨.ok a, s', events⟩ → R s events s'

namespace Program.Keeps

variable {R R' : σ → List ω → σ → Prop}

theorem mono {m : Program ε σ ω α} (h : m.Keeps R)
    (himp : ∀ s events s', R s events s' → R' s events s') : m.Keeps R' :=
  fun s a s' events hrun => himp s events s' (h s a s' events hrun)

theorem pure (hR : Composes R) (a : α) : (Pure.pure a : Program ε σ ω α).Keeps R := by
  intro s b s' events hrun
  cases hrun
  exact hR.refl s

theorem fail (e : ε) : (Program.fail e : Program ε σ ω α).Keeps R := by
  intro s a s' events hrun
  cases hrun

theorem read (hR : Composes R) : (Program.read : Program ε σ ω σ).Keeps R := by
  intro s b s' events hrun
  cases hrun
  exact hR.refl s

/-- A run of two programs is a run of the one and of the other. -/
theorem run_bind {m : Program ε σ ω α} {f : α → Program ε σ ω β} {s s'' : σ} {b : β}
    {events : List ω} (hrun : (m >>= f).run s = ⟨.ok b, s'', events⟩) :
    ∃ a s' events₁ events₂, m.run s = ⟨.ok a, s', events₁⟩ ∧
      (f a).run s' = ⟨.ok b, s'', events₂⟩ ∧ events = events₁ ++ events₂ := by
  rcases hm : m.run s with ⟨result, s', events₁⟩
  cases result with
  | error e =>
      rw [bind_of_error hm] at hrun
      cases hrun
  | ok a =>
      rw [bind_of_ok hm] at hrun
      rcases hf : (f a).run s' with ⟨result, state, events₂⟩
      rw [hf] at hrun
      cases hrun
      exact ⟨a, s', events₁, events₂, rfl, hf, rfl⟩

theorem bind (hR : Composes R) {m : Program ε σ ω α} {f : α → Program ε σ ω β} (hm : m.Keeps R)
    (hf : ∀ a, (f a).Keeps R) : (m >>= f).Keeps R := by
  intro s b s'' events hrun
  obtain ⟨a, s', events₁, events₂, hfirst, hsecond, rfl⟩ := run_bind hrun
  exact hR.trans (hm s a s' events₁ hfirst) (hf a s' b s'' events₂ hsecond)

end Program.Keeps

/-! ## Fuel -/

/-- With enough fuel the run is always the same; it does not end for want of fuel, and what it
returns has a property. -/
def Converges (outOfFuel : ε) (post : α → σ → Prop) (m : Nat → Program ε σ ω α) (s : σ) : Prop :=
  ∃ o : Outcome ε σ ω α, o.result ≠ .error outOfFuel ∧ (∀ a, o.result = .ok a → post a o.state) ∧
    ∃ least, ∀ fuel, least ≤ fuel → (m fuel).run s = o

namespace Converges

variable {outOfFuel : ε} {post : α → σ → Prop} {s : σ}

theorem mono {post' : α → σ → Prop} {m : Nat → Program ε σ ω α}
    (h : Converges outOfFuel post m s) (hpost : ∀ a s', post a s' → post' a s') :
    Converges outOfFuel post' m s := by
  obtain ⟨o, hres, hp, hall⟩ := h
  exact ⟨o, hres, fun a ha => hpost a _ (hp a ha), hall⟩

/-- What is known of every run is known of the one with enough fuel. -/
theorem and {event : ω → Prop} {post' : α → σ → Prop} {m : Nat → Program ε σ ω α}
    (h : Converges outOfFuel post m s) (h' : ∀ fuel, ((m fuel).run s).Meets event post') :
    Converges outOfFuel (fun a s' => post a s' ∧ post' a s') m s := by
  obtain ⟨o, hres, hpost, least, hall⟩ := h
  refine ⟨o, hres, fun a ha => ⟨hpost a ha, ?_⟩, least, hall⟩
  have hmeets := h' least
  rw [hall least (Nat.le_refl _)] at hmeets
  exact hmeets.returned a ha

/-- A program that uses no fuel and does not ask for it. -/
theorem const {m : Program ε σ ω α} (hres : (m.run s).result ≠ .error outOfFuel)
    (hpost : ∀ a, (m.run s).result = .ok a → post a (m.run s).state) :
    Converges outOfFuel post (fun _ => m) s :=
  ⟨m.run s, hres, hpost, 0, fun _ _ => rfl⟩

theorem pure {a : α} (h : post a s) :
    Converges outOfFuel post (fun _ => (Pure.pure a : Program ε σ ω α)) s := by
  refine const (fun h => nomatch h) fun b hb => ?_
  cases hb
  exact h

theorem bind {m : Nat → Program ε σ ω α} {f : Nat → α → Program ε σ ω β} {mid : α → σ → Prop}
    {post : β → σ → Prop} (hm : Converges outOfFuel mid m s)
    (hf : ∀ a s', mid a s' → Converges outOfFuel post (fun fuel => f fuel a) s') :
    Converges outOfFuel post (fun fuel => m fuel >>= f fuel) s := by
  obtain ⟨⟨result, s', events⟩, hres, hmid, least, hall⟩ := hm
  cases result with
  | ok a =>
      obtain ⟨o, hres', hpost, least', hall'⟩ := hf a s' (hmid a rfl)
      refine ⟨o.after events, hres', hpost, max least least', fun fuel hfuel => ?_⟩
      have h₁ := hall fuel (Nat.le_trans (Nat.le_max_left _ _) hfuel)
      have h₂ := hall' fuel (Nat.le_trans (Nat.le_max_right _ _) hfuel)
      rw [Program.bind_of_ok h₁, h₂]
  | error e =>
      refine ⟨⟨.error e, s', events⟩, fun h => hres ?_, fun b hb => ?_, least,
        fun fuel hfuel => Program.bind_of_error (hall fuel hfuel)⟩
      · cases h
        rfl
      · cases hb

/-- Another way to count the fuel. -/
theorem comp {m : Nat → Program ε σ ω α} (h : Converges outOfFuel post m s) (g : Nat → Nat)
    (hg : ∀ least, ∃ n, ∀ fuel, n ≤ fuel → least ≤ g fuel) :
    Converges outOfFuel post (fun fuel => m (g fuel)) s := by
  obtain ⟨o, hres, hpost, least, hall⟩ := h
  obtain ⟨n, hn⟩ := hg least
  exact ⟨o, hres, hpost, n, fun fuel hfuel => hall _ (hn fuel hfuel)⟩

/-- A program may look at the fuel, as long as it has enough of it. -/
theorem of_eventually {m m' : Nat → Program ε σ ω α} (h : Converges outOfFuel post m' s)
    (least : Nat) (heq : ∀ fuel, least ≤ fuel → (m fuel).run s = (m' fuel).run s) :
    Converges outOfFuel post m s := by
  obtain ⟨o, hres, hpost, least', hall⟩ := h
  refine ⟨o, hres, hpost, max least least', fun fuel hfuel => ?_⟩
  rw [heq fuel (Nat.le_trans (Nat.le_max_left _ _) hfuel),
    hall fuel (Nat.le_trans (Nat.le_max_right _ _) hfuel)]

end Converges

end Traced
