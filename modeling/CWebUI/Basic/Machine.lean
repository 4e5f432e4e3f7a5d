import Mathlib.Data.List.Basic

set_option autoImplicit false

/-! # Machines that are fed in pieces

A machine reads a stream one symbol at a time; its environment hands the stream over in
pieces of any size. Two things are general about this situation and are proved here once.

* A consumer whose state after `a ++ b` is its state after `a` and then `b` does not see
  where the stream was cut (`foldl_feed`).
* A state whose set of completions is known is known as a recogniser: if every state
  carries a *residual language*, and reading a symbol takes the residual language to its
  derivative, then an absorbing accepting state has been reached exactly when some prefix
  of the stream read so far lies in the residual language of the start
  (`Residual.accepts_iff`).
-/

namespace Machine

variable {σ α : Type}

/-- **Segmentation.** A consumer that is compatible with concatenation ends in the same
state for every cutting of its input into pieces. -/
theorem foldl_feed (feed : σ → List α → σ) (hnil : ∀ s, feed s [] = s)
    (happ : ∀ s a b, feed s (a ++ b) = feed (feed s a) b) (s : σ) (pieces : List (List α)) :
    pieces.foldl feed s = feed s pieces.flatten := by
  induction pieces generalizing s with
  | nil => exact (hnil s).symm
  | cons p ps ih =>
      rw [List.foldl_cons, ih, List.flatten_cons, happ]

/-- The states of a machine with the languages of their completions: `lang s` holds the
words that lead from `s` to acceptance for the first time. -/
structure Residual (step : σ → α → σ) (accept : σ → Prop) (lang : σ → List α → Prop) :
    Prop where
  /-- Acceptance is final. -/
  absorbing : ∀ s c, accept s → accept (step s c)
  /-- The empty word completes exactly the accepting states. -/
  nil_iff : ∀ s, lang s [] ↔ accept s
  /-- Away from acceptance, reading a symbol takes the derivative. -/
  cons_iff : ∀ s c w, ¬ accept s → (lang s (c :: w) ↔ lang (step s c) w)

/-- An accepting machine stays accepting. -/
theorem Residual.accept_run {step : σ → α → σ} {accept : σ → Prop}
    {lang : σ → List α → Prop} (R : Residual step accept lang) (w : List α) (s : σ)
    (h : accept s) : accept (w.foldl step s) := by
  induction w generalizing s with
  | nil => exact h
  | cons c w ih => exact ih _ (R.absorbing s c h)

/-- **Recognition.** The machine has accepted after `w` exactly when a prefix of `w` is a
word of the start state's residual language. -/
theorem Residual.accepts_iff {step : σ → α → σ} {accept : σ → Prop}
    {lang : σ → List α → Prop} (R : Residual step accept lang) (w : List α) (s : σ) :
    accept (w.foldl step s) ↔ ∃ p, p <+: w ∧ lang s p := by
  induction w generalizing s with
  | nil =>
      constructor
      · intro h
        exact ⟨[], List.prefix_rfl, (R.nil_iff s).mpr h⟩
      · rintro ⟨p, hp, hl⟩
        rw [List.prefix_nil.mp hp] at hl
        exact (R.nil_iff s).mp hl
  | cons c w ih =>
      by_cases hs : accept s
      · constructor
        · intro _
          exact ⟨[], List.nil_prefix, (R.nil_iff s).mpr hs⟩
        · intro _
          exact R.accept_run (c :: w) s hs
      · rw [List.foldl_cons, ih]
        constructor
        · rintro ⟨p, hp, hl⟩
          exact ⟨c :: p, (List.prefix_cons_inj c).mpr hp, (R.cons_iff s c p hs).mpr hl⟩
        · rintro ⟨p, hp, hl⟩
          cases p with
          | nil => exact absurd ((R.nil_iff s).mp hl) hs
          | cons d p =>
              obtain ⟨rfl, hp'⟩ := List.cons_prefix_cons.mp hp
              exact ⟨p, hp', (R.cons_iff s d p hs).mp hl⟩

end Machine
