import CWebUI.Post.Steps

set_option autoImplicit false

/-! # What is taken out of a `Content-Disposition`

A `Content-Disposition` is `form-data` and a list of parameters `key="value"`, each behind
a `;` and a blank. `extractDispositionValue` searches its text for `key=`, with the start of
the text, a blank or a `;` before it and a quote behind it. That is the parameter `key`, or a
value that ends in such a text: the quote behind it is then the closing quote of that value,
and what is taken for the value of `key` is the text up to the next opening quote.
-/

namespace CWebUI.Http

open ByteString

/-! ## Dispositions -/

/-- A parameter of a disposition. -/
structure DispositionParam where
  key : List UInt8
  value : List UInt8
  deriving DecidableEq, Repr

/-- A key: not empty, and without the bytes that separate parameters. -/
structure IsToken (key : List UInt8) : Prop where
  ne_nil : key ≠ []
  noNUL : 0 ∉ key
  noBlank : 32 ∉ key
  noQuote : 34 ∉ key
  noSemicolon : 59 ∉ key
  noEquals : 61 ∉ key

namespace DispositionParam

/-- A parameter with a token for a key, and a value that can stand between quotes. -/
structure WellFormed (p : DispositionParam) : Prop where
  key : IsToken p.key
  noQuote : 34 ∉ p.value
  noNUL : 0 ∉ p.value

/-- The text of a parameter, with the separator before it. -/
def text (p : DispositionParam) : List UInt8 :=
  59 :: 32 :: (p.key ++ 61 :: 34 :: (p.value ++ [34]))

end DispositionParam

/-- The text of a list of parameters. -/
def paramsText (ps : List DispositionParam) : List UInt8 := ps.flatMap DispositionParam.text

/-- The text of a disposition. -/
def dispositionText (ps : List DispositionParam) : List UInt8 :=
  ascii "form-data" ++ paramsText ps

/-- The value of the parameter `key`, if there is one. -/
def valueOf (key : List UInt8) (ps : List DispositionParam) : Option (List UInt8) :=
  (ps.find? (fun p => p.key == key)).map DispositionParam.value

@[simp] theorem paramsText_nil : paramsText [] = [] := rfl

theorem paramsText_cons (p : DispositionParam) (ps : List DispositionParam) :
    paramsText (p :: ps) =
      59 :: 32 :: (p.key ++ 61 :: 34 :: (p.value ++ 34 :: paramsText ps)) := by
  simp [paramsText, DispositionParam.text]

@[simp] theorem valueOf_nil (key : List UInt8) : valueOf key [] = none := rfl

theorem valueOf_cons (key : List UInt8) (p : DispositionParam) (ps : List DispositionParam) :
    valueOf key (p :: ps) = if p.key = key then some p.value else valueOf key ps := by
  unfold valueOf
  rw [List.find?_cons]
  by_cases h : p.key = key
  · simp [h]
  · have hb : (p.key == key) = false := beq_false_of_ne h
    rw [hb, if_neg h]

/-! ## The search -/

/-- Where a parameter may start: at the front, or behind a blank or a `;`. -/
def Boundary (prev : Option UInt8) : Prop := prev = none ∨ prev = some 32 ∨ prev = some 59

instance (prev : Option UInt8) : Decidable (Boundary prev) :=
  inferInstanceAs (Decidable (_ ∨ _ ∨ _))

/-- The search stops here: `key="` stands at a boundary. -/
def StopsAt (key : List UInt8) (prev : Option UInt8) (text : List UInt8) : Prop :=
  Boundary prev ∧ key ++ [61, 34] <+: text

section Search

variable {key : List UInt8} (hkey : IsToken key)

include hkey

/-- Two occurrences of `key=` do not overlap, so nothing is lost when the search goes on
behind one. -/
theorem findParameter_skip (x u : List UInt8) (hx : x ≠ []) (heq : x ++ u = key ++ [61])
    (prev : Option UInt8) (text : List UInt8) (hu : u <+: text) :
    findParameter (key ++ [61]) u.length prev text = findParameter (key ++ [61]) 0 prev text := by
  induction u generalizing x prev text with
  | nil => rfl
  | cons c u ih =>
      obtain ⟨t, rfl⟩ := hu
      have hlast : (c :: u)[u.length]? = some 61 := by
        have h : (x ++ c :: u)[x.length + u.length]? = some 61 := by
          have hlen := congrArg List.length heq
          simp only [List.length_append, List.length_cons, List.length_nil] at hlen
          rw [heq, List.getElem?_append_right (by omega)]
          rw [show x.length + u.length - key.length = 0 by omega]
          rfl
        rwa [List.getElem?_append_right (by omega), Nat.add_sub_cancel_left] at h
      -- the `=` of the occurrence stands where another one would have a byte of the key
      have hnot : ¬ key ++ [61] <+: c :: u ++ t := by
        rintro ⟨t', ht'⟩
        have hlen := congrArg List.length heq
        have hpos := List.length_pos_iff.mpr hx
        simp only [List.length_append, List.length_cons, List.length_nil] at hlen
        have h61 : (key ++ [61] ++ t')[u.length]? = some 61 := by
          rw [ht', List.getElem?_append_left (by simp), hlast]
        rw [List.append_assoc, List.getElem?_append_left (by omega)] at h61
        exact hkey.noEquals (List.mem_of_getElem? h61)
      have hgo : findParameter (key ++ [61]) 0 prev (c :: u ++ t) =
          findParameter (key ++ [61]) 0 (some c) (u ++ t) := by
        rw [List.cons_append] at hnot ⊢
        rw [findParameter, if_neg hnot]
      rw [hgo, List.cons_append, List.length_cons, findParameter]
      exact ih (x ++ [c]) (by simp) (by simpa using heq) (some c) (u ++ t) (List.prefix_append u t)

/-- The search stops. -/
theorem findParameter_stop {prev : Option UInt8} {text : List UInt8} (hprev : Boundary prev) :
    findParameter (key ++ [61]) 0 prev (key ++ 61 :: 34 :: text) = some text := by
  obtain ⟨k, key', rfl⟩ := List.exists_cons_of_ne_nil hkey.ne_nil
  have hget : (k :: (key' ++ 61 :: 34 :: text))[(k :: key' ++ [61]).length]? = some 34 := by
    simp
  rw [List.cons_append, List.cons_append, findParameter, ← List.cons_append,
    if_pos (by simp), if_pos ⟨hprev, hget⟩]
  simp

/-- The search goes on with the next byte. -/
theorem findParameter_step {prev : Option UInt8} {c : UInt8} {text : List UInt8}
    (h : ¬ StopsAt key prev (c :: text)) :
    findParameter (key ++ [61]) 0 prev (c :: text) =
      findParameter (key ++ [61]) 0 (some c) text := by
  obtain ⟨k, key', rfl⟩ := List.exists_cons_of_ne_nil hkey.ne_nil
  rw [findParameter]
  by_cases hp : k :: key' ++ [61] <+: c :: text
  · rw [if_pos hp]
    have hstop : ¬ ((prev = none ∨ prev = some 32 ∨ prev = some 59) ∧
        (c :: text)[(k :: key' ++ [61]).length]? = some 34) := by
      rintro ⟨hprev, hget⟩
      refine h ⟨hprev, ?_⟩
      have := ListLemmas.prefix_snoc hp hget
      simpa using this
    rw [if_neg hstop]
    have hlen : (k :: key' ++ [61]).length - 1 = (key' ++ [61]).length := by simp
    rw [hlen]
    rw [List.cons_append, List.cons_prefix_cons] at hp
    exact findParameter_skip hkey [k] (key' ++ [61]) (by simp) rfl (some c) text hp.2
  · rw [if_neg hp]

/-- A byte that no key has is passed over. -/
theorem findParameter_separator {prev : Option UInt8} {c : UInt8} {text : List UInt8}
    (hc : c ∉ key) (hc' : c ≠ 61) :
    findParameter (key ++ [61]) 0 prev (c :: text) =
      findParameter (key ++ [61]) 0 (some c) text := by
  refine findParameter_step hkey ?_
  rintro ⟨-, hp⟩
  obtain ⟨k, key', rfl⟩ := List.exists_cons_of_ne_nil hkey.ne_nil
  obtain ⟨rfl, -⟩ := List.cons_prefix_cons.mp hp
  exact hc (by simp)

/-- Behind a byte that is no boundary, the byte itself does not matter. -/
theorem findParameter_prev {c d : UInt8} {text : List UInt8} (hc : ¬ Boundary (some c))
    (hd : ¬ Boundary (some d)) :
    findParameter (key ++ [61]) 0 (some c) text = findParameter (key ++ [61]) 0 (some d) text := by
  cases text with
  | nil => rfl
  | cons e text =>
      rw [findParameter_step hkey (fun h => hc h.1), findParameter_step hkey (fun h => hd h.1)]

/-- A text without a boundary is passed over. -/
theorem findParameter_plain {c : UInt8} (t text : List UInt8) (hc : ¬ Boundary (some c))
    (ht : ∀ d ∈ t, ¬ Boundary (some d)) :
    findParameter (key ++ [61]) 0 (some c) (t ++ text) =
      findParameter (key ++ [61]) 0 (some 34) text := by
  induction t generalizing c with
  | nil => exact findParameter_prev hkey hc (by decide)
  | cons d t ih =>
      rw [List.cons_append, findParameter_step hkey (fun h => hc h.1)]
      exact ih (ht d (by simp)) (fun e he => ht e (by simp [he]))

end Search

theorem IsToken.noBoundary {key : List UInt8} (h : IsToken key) :
    ∀ d ∈ key, ¬ Boundary (some d) := by
  rintro d hd (hb | hb | hb)
  · simp at hb
  · exact h.noBlank ((Option.some.inj hb) ▸ hd)
  · exact h.noSemicolon ((Option.some.inj hb) ▸ hd)

/-- The value ends in `key=` behind a blank or a `;`. -/
def MimicsKey (key value : List UInt8) : Prop :=
  32 :: (key ++ [61]) <:+ value ∨ 59 :: (key ++ [61]) <:+ value

instance (key value : List UInt8) : Decidable (MimicsKey key value) :=
  inferInstanceAs (Decidable (_ ∨ _))

theorem mimicsKey_cons (key value : List UInt8) (c : UInt8) :
    MimicsKey key (c :: value) ↔
      (Boundary (some c) ∧ value = key ++ [61]) ∨ MimicsKey key value := by
  simp only [MimicsKey, Boundary, List.suffix_cons_iff, List.cons_eq_cons, Option.some.injEq,
    reduceCtorEq, false_or]
  constructor
  · rintro ((⟨h, h'⟩ | h) | ⟨h, h'⟩ | h)
    · exact .inl ⟨.inl h.symm, h'.symm⟩
    · exact .inr (.inl h)
    · exact .inl ⟨.inr h.symm, h'.symm⟩
    · exact .inr (.inr h)
  · rintro (⟨h | h, h'⟩ | h | h)
    · exact .inl (.inl ⟨h.symm, h'.symm⟩)
    · exact .inr (.inl ⟨h.symm, h'.symm⟩)
    · exact .inl (.inr h)
    · exact .inr (.inr h)

/-- What stands before the first separator is determined by the text. -/
theorem eq_before_separator {c : UInt8} {x y z w : List UInt8} (hx : c ∉ x) (hy : c ∉ y)
    (h : x ++ c :: z = y ++ c :: w) : x = y := by
  induction x generalizing y with
  | nil =>
      cases y with
      | nil => rfl
      | cons b y =>
          obtain ⟨rfl, -⟩ := List.cons_eq_cons.mp h
          exact absurd (List.mem_cons_self) hy
  | cons a x ih =>
      cases y with
      | nil =>
          obtain ⟨rfl, -⟩ := List.cons_eq_cons.mp h
          exact absurd (List.mem_cons_self) hx
      | cons b y =>
          obtain ⟨rfl, htail⟩ := List.cons_eq_cons.mp h
          rw [ih (fun h' => hx (List.mem_cons_of_mem _ h'))
            (fun h' => hy (List.mem_cons_of_mem _ h')) htail]

/-- Before a closing quote the search stops only where what is left of the value is
`key=`. -/
theorem stopsAt_value {key : List UInt8} (hkey : IsToken key) {prev : Option UInt8}
    {value rest : List UInt8} (hq : 34 ∉ value) :
    StopsAt key prev (value ++ 34 :: rest) ↔ Boundary prev ∧ value = key ++ [61] := by
  constructor
  · rintro ⟨hprev, hp⟩
    refine ⟨hprev, ?_⟩
    have hpat : key ++ [61, 34] = (key ++ [61]) ++ 34 :: [] := by simp
    obtain ⟨t, ht⟩ := hp
    rw [hpat, List.append_assoc, List.cons_append, List.nil_append] at ht
    have hq' : 34 ∉ key ++ [61] := by
      simp only [List.mem_append, List.mem_singleton, not_or]
      exact ⟨hkey.noQuote, by decide⟩
    exact eq_before_separator hq hq' ht.symm
  · rintro ⟨hprev, rfl⟩
    exact ⟨hprev, rest, by simp⟩

/-- A value is passed over, unless it mimics the key: then the search stops behind its
closing quote. -/
theorem findParameter_value {key : List UInt8} (hkey : IsToken key) (value rest : List UInt8)
    (hq : 34 ∉ value) (c : UInt8) :
    findParameter (key ++ [61]) 0 (some c) (value ++ 34 :: rest) =
      if MimicsKey key (c :: value) then some rest
      else findParameter (key ++ [61]) 0 (some 34) rest := by
  induction value generalizing c with
  | nil =>
      have hno : ¬ MimicsKey key [c] := by
        rintro (h | h) <;> simpa using h.length_le
      rw [if_neg hno, List.nil_append]
      exact findParameter_separator hkey hkey.noQuote (by decide)
  | cons d value ih =>
      have hq' : 34 ∉ value := fun h => hq (by simp [h])
      by_cases hstop : Boundary (some c) ∧ d :: value = key ++ [61]
      · have hmimic : MimicsKey key (c :: d :: value) := (mimicsKey_cons key _ c).mpr (.inl hstop)
        rw [if_pos hmimic, hstop.2, List.append_assoc]
        exact findParameter_stop hkey hstop.1
      · have hgo : ¬ StopsAt key (some c) (d :: value ++ 34 :: rest) := by
          rw [stopsAt_value hkey hq]
          exact hstop
        have hmimic : MimicsKey key (c :: d :: value) ↔ MimicsKey key (d :: value) := by
          rw [mimicsKey_cons]
          exact or_iff_right hstop
        rw [List.cons_append] at hgo ⊢
        rw [findParameter_step hkey hgo, ih hq' d]
        simp only [hmimic]

/-- The first bytes of an occurrence of `key=`. -/
theorem key_unique {key name tail : List UInt8} (hkey : 61 ∉ key) (hname : 61 ∉ name)
    (h : key ++ [61, 34] <+: name ++ 61 :: tail) : key = name := by
  obtain ⟨t, ht⟩ := h
  rw [List.append_assoc] at ht
  exact eq_before_separator hkey hname ht

/-! ## What is found -/

/-- The text that the search finds the value in: behind the opening quote of the parameter,
or behind the closing quote of a value before it that mimics the key. -/
def foundText (key : List UInt8) : List DispositionParam → Option (List UInt8)
  | [] => none
  | p :: ps =>
      if p.key = key then some (p.value ++ 34 :: paramsText ps)
      else if MimicsKey key p.value then some (paramsText ps)
      else foundText key ps

theorem findParameter_params {key : List UInt8} (hkey : IsToken key)
    (ps : List DispositionParam) (hps : ∀ p ∈ ps, p.WellFormed) :
    findParameter (key ++ [61]) 0 (some 34) (paramsText ps) = foundText key ps := by
  induction ps with
  | nil => rfl
  | cons p ps ih =>
      have hp := hps p (by simp)
      rw [paramsText_cons, findParameter_separator hkey hkey.noSemicolon (by decide),
        findParameter_separator hkey hkey.noBlank (by decide), foundText]
      by_cases heq : p.key = key
      · rw [if_pos heq, heq]
        exact findParameter_stop hkey (.inr (.inl rfl))
      · rw [if_neg heq]
        obtain ⟨k, name, hname⟩ := List.exists_cons_of_ne_nil hp.key.ne_nil
        have hgo : ¬ StopsAt key (some 32) (p.key ++ 61 :: 34 :: (p.value ++ 34 :: paramsText ps)) :=
          fun h => heq (key_unique hkey.noEquals hp.key.noEquals h.2).symm
        have hplain := hp.key.noBoundary
        rw [hname] at hgo hplain ⊢
        have hquote : ∀ d ∈ name ++ [61, 34], ¬ Boundary (some d) := by
          intro d hd
          rcases List.mem_append.mp hd with h | h
          · exact hplain d (by simp [h])
          · rcases List.mem_cons.mp h with rfl | h
            · decide
            · rw [List.mem_singleton.mp h]
              decide
        have htext : name ++ 61 :: 34 :: (p.value ++ 34 :: paramsText ps) =
            (name ++ [61, 34]) ++ (p.value ++ 34 :: paramsText ps) := by simp
        have hmimic : MimicsKey key (34 :: p.value) ↔ MimicsKey key p.value := by
          rw [mimicsKey_cons]
          exact or_iff_right (fun h => absurd h.1 (by decide))
        rw [List.cons_append] at hgo ⊢
        rw [findParameter_step hkey hgo, htext,
          findParameter_plain hkey _ _ (hplain k (by simp)) hquote,
          findParameter_value hkey p.value (paramsText ps) hp.noQuote,
          ih (fun q hq => hps q (by simp [hq]))]
        simp only [hmimic]

/-- No key is found in the type of the disposition. -/
theorem findParameter_disposition {key : List UInt8} (hkey : IsToken key)
    (ps : List DispositionParam) (hps : ∀ p ∈ ps, p.WellFormed) :
    findParameter (key ++ [61]) 0 none (dispositionText ps) = foundText key ps := by
  have hgo : ¬ StopsAt key none (dispositionText ps) := by
    rintro ⟨-, t, ht⟩
    cases ps with
    | nil =>
        have h61 : (61 : UInt8) ∈ key ++ [61, 34] ++ t := by simp
        rw [ht] at h61
        exact absurd h61 (by decide)
    | cons p ps =>
        -- the text before the first `=` has a `;`
        have hu : dispositionText (p :: ps) = (ascii "form-data; " ++ p.key) ++
            61 :: 34 :: (p.value ++ 34 :: paramsText ps) := by
          rw [dispositionText, paramsText_cons]
          exact (List.append_assoc (ascii "form-data; ") p.key _).symm
        have hname : 61 ∉ ascii "form-data; " ++ p.key := by
          rw [List.mem_append, not_or]
          exact ⟨by decide, (hps p (by simp)).key.noEquals⟩
        have heq := key_unique hkey.noEquals hname ⟨t, ht.trans hu⟩
        refine hkey.noSemicolon ?_
        rw [heq]
        exact List.mem_append_left _ (by decide)
  have hplain : ∀ d ∈ ascii "orm-data", ¬ Boundary (some d) := by decide +kernel
  have htext : dispositionText ps = 102 :: (ascii "orm-data" ++ paramsText ps) := rfl
  rw [htext] at hgo ⊢
  rw [findParameter_step hkey hgo, findParameter_plain hkey _ _ (by decide) hplain,
    findParameter_params hkey ps hps]

/-- What `extractDispositionValue` gives for a disposition. -/
def extracted (key : List UInt8) : List DispositionParam → Option (List UInt8)
  | [] => none
  | p :: ps =>
      if p.key = key then some p.value
      else if MimicsKey key p.value then
        -- the text from the closing quote of this value to the next opening quote
        ps.head?.map (fun q => 59 :: 32 :: (q.key ++ [61]))
      else extracted key ps

/-- The text up to the next quote. -/
def quoted (start : List UInt8) : Option (List UInt8) :=
  if 34 ∈ start then some (start.takeWhile (· ≠ 34)) else none

theorem quoted_append (v tail : List UInt8) (hv : 34 ∉ v) : quoted (v ++ 34 :: tail) = some v := by
  rw [quoted, if_pos (by simp)]
  have hall : ∀ c ∈ v, decide (c ≠ 34) = true := by
    intro c hc
    have : c ≠ 34 := fun h => hv (h ▸ hc)
    simpa using this
  rw [List.takeWhile_append_of_pos hall]
  simp

theorem quoted_paramsText (ps : List DispositionParam) (hps : ∀ p ∈ ps, p.WellFormed) :
    quoted (paramsText ps) = ps.head?.map (fun q => 59 :: 32 :: (q.key ++ [61])) := by
  cases ps with
  | nil => rfl
  | cons p ps =>
      have htext : paramsText (p :: ps) =
          59 :: 32 :: (p.key ++ [61]) ++ 34 :: (p.value ++ 34 :: paramsText ps) := by
        rw [paramsText_cons]
        simp
      rw [htext, quoted_append]
      · rfl
      · have := (hps p (by simp)).key.noQuote
        simp [this]

theorem foundText_quoted (key : List UInt8) (ps : List DispositionParam)
    (hps : ∀ p ∈ ps, p.WellFormed) : (foundText key ps).bind quoted = extracted key ps := by
  induction ps with
  | nil => rfl
  | cons p ps ih =>
      have hps' : ∀ q ∈ ps, q.WellFormed := fun q hq => hps q (by simp [hq])
      rw [foundText, extracted]
      split_ifs with heq hmimic
      · exact quoted_append p.value _ (hps p (by simp)).noQuote
      · exact quoted_paramsText ps hps'
      · exact ih hps'

/-- **What `extractDispositionValue` computes**: the value of the parameter, or a text
between two values. -/
theorem extractDispositionValue_eq {key : List UInt8} (hkey : IsToken key)
    (ps : List DispositionParam) (hps : ∀ p ∈ ps, p.WellFormed) :
    extractDispositionValue (some (dispositionText ps)) (key ++ [61]) = extracted key ps := by
  rw [← foundText_quoted key ps hps, extractDispositionValue,
    findParameter_disposition hkey ps hps]
  cases foundText key ps with
  | none => rfl
  | some start => rfl

/-! ## When it is the value -/

/-- No parameter before `key` mimics it, and if it is missing none but the last. A mimicking
value does no harm in one more case: the text that is found is then the value of `key` word
for word. -/
def Unmistaken (key : List UInt8) : List DispositionParam → Prop
  | [] => True
  | p :: ps =>
      p.key = key ∨
        if MimicsKey key p.value then
          ∀ q ∈ ps.head?, valueOf key ps = some (59 :: 32 :: (q.key ++ [61]))
        else Unmistaken key ps

theorem extracted_eq_valueOf (key : List UInt8) (ps : List DispositionParam) :
    extracted key ps = valueOf key ps ↔ Unmistaken key ps := by
  induction ps with
  | nil => exact ⟨fun _ => trivial, fun _ => rfl⟩
  | cons p ps ih =>
      rw [extracted, valueOf_cons, Unmistaken]
      by_cases heq : p.key = key
      · simp [heq]
      · rw [if_neg heq, if_neg heq, or_iff_right heq]
        by_cases hmimic : MimicsKey key p.value
        · rw [if_pos hmimic, if_pos hmimic]
          cases ps with
          | nil => simp
          | cons q ps =>
              simp only [List.head?_cons, Option.map_some, Option.mem_some_iff, forall_eq']
              exact eq_comm
        · rw [if_neg hmimic, if_neg hmimic]
          exact ih

/-- The disposition has a parameter `key`. -/
def HasParam (key : List UInt8) (ps : List DispositionParam) : Prop := ∃ p ∈ ps, p.key = key

theorem hasParam_cons (key : List UInt8) (p : DispositionParam) (ps : List DispositionParam) :
    HasParam key (p :: ps) ↔ p.key = key ∨ HasParam key ps := by
  simp [HasParam]

/-- Something is found if there is such a parameter, or a value other than the last that
mimics it. -/
theorem extracted_isSome (key : List UInt8) (ps : List DispositionParam) :
    (extracted key ps).isSome = true ↔
      HasParam key ps ∨ ∃ p ∈ ps.dropLast, MimicsKey key p.value := by
  induction ps with
  | nil => simp [extracted, HasParam]
  | cons p ps ih =>
      rw [extracted, hasParam_cons]
      by_cases heq : p.key = key
      · simp [heq]
      · rw [if_neg heq, or_iff_right heq]
        cases ps with
        | nil =>
            by_cases hmimic : MimicsKey key p.value
            · simp [hmimic, HasParam]
            · simp [hmimic, HasParam, extracted]
        | cons q ps =>
            rw [List.dropLast_cons_cons, List.exists_mem_cons_iff]
            by_cases hmimic : MimicsKey key p.value
            · simp [hmimic]
            · rw [if_neg hmimic, or_iff_right (a := MimicsKey key p.value) hmimic]
              exact ih

/-- No value but the last mimics the key, unless there is such a parameter. -/
def ClassifiedByParam (key : List UInt8) (ps : List DispositionParam) : Prop :=
  HasParam key ps ∨ ∀ p ∈ ps.dropLast, ¬ MimicsKey key p.value

theorem extracted_isSome_iff (key : List UInt8) (ps : List DispositionParam) :
    ((extracted key ps).isSome = true ↔ HasParam key ps) ↔ ClassifiedByParam key ps := by
  rw [extracted_isSome, ClassifiedByParam]
  constructor
  · intro h
    by_cases hparam : HasParam key ps
    · exact .inl hparam
    · exact .inr (fun p hp hmimic => hparam (h.mp (.inr ⟨p, hp, hmimic⟩)))
  · rintro (h | h)
    · exact ⟨fun _ => h, .inl⟩
    · constructor
      · rintro (h' | ⟨p, hp, hmimic⟩)
        · exact h'
        · exact absurd hmimic (h p hp)
      · exact .inl

end CWebUI.Http

namespace CWebUI.Post

open ByteString CWebUI.Http

/-! ## The part -/

/-- `name`. -/
def nameKey : List UInt8 := ascii "name"

/-- `filename`. -/
def filenameKey : List UInt8 := ascii "filename"

theorem openPart_partIsFile (H : Handler) (pos : Nat) (k : PartSink)
    (fieldName fileName : Option (List UInt8)) :
    (openPart H pos k fieldName fileName).partIsFile = fileName.isSome := by
  unfold openPart
  dsimp only
  split_ifs
  · rfl
  · rfl
  · rfl

/-- A part is a file if the search for `filename=` gives something. -/
theorem beginPart_partIsFile (H : Handler) (s : PostStream) (hab : s.sink.aborted = false)
    (he : s.partFields.error = false) :
    (beginPart H s).1.sink.partIsFile =
      (extractDispositionValue s.partFields.contentDisposition (filenameKey ++ [61])).isSome := by
  have hkey : filenameKey ++ [61] = ascii "filename=" := by decide
  rcases beginPart_cases H s with ⟨h, -⟩ | ⟨-, h, -⟩ | ⟨-, -, heq⟩
  · rw [h] at hab
    exact absurd hab (by simp)
  · rw [h] at he
    exact absurd he (by simp)
  · rw [heq, hkey]
    exact openPart_partIsFile H _ _ _ _

/-- A part whose header has been collected, in a request that goes on, with this
disposition. -/
structure PartToBegin (s : PostStream) (ps : List DispositionParam) : Prop where
  notAborted : s.sink.aborted = false
  readable : s.partFields.error = false
  disposition : s.partFields.contentDisposition = some (dispositionText ps)
  wellFormed : ∀ p ∈ ps, p.WellFormed

theorem isToken_name : IsToken nameKey :=
  ⟨by decide, by decide, by decide, by decide, by decide, by decide⟩

theorem isToken_filename : IsToken filenameKey :=
  ⟨by decide, by decide, by decide, by decide, by decide, by decide⟩

/-- **When a value is extracted as it was written, and a part classified as what it is**: a
key is found exactly if no value before it mimics it, and a part is a file exactly if it has
a file name, unless one of its values mimics one. -/
theorem contentDisposition_iff (H : Handler) (s : PostStream) (ps : List DispositionParam)
    (h : PartToBegin s ps) (key : List UInt8) (hkey : IsToken key) :
    (extractDispositionValue s.partFields.contentDisposition (key ++ [61]) = valueOf key ps ↔
      Unmistaken key ps) ∧
    (((beginPart H s).1.sink.partIsFile = true ↔ HasParam filenameKey ps) ↔
      ClassifiedByParam filenameKey ps) := by
  constructor
  · rw [h.disposition, extractDispositionValue_eq hkey ps h.wellFormed]
    exact extracted_eq_valueOf key ps
  · rw [beginPart_partIsFile H s h.notAborted h.readable, h.disposition,
      extractDispositionValue_eq isToken_filename ps h.wellFormed]
    exact extracted_isSome_iff filenameKey ps

/-- A request that has collected the header of its first part, with this disposition. -/
def collected (ps : List DispositionParam) : PostStream :=
  { startPostStream webserverMallocHttpRequestHeader (ascii "--b") false with
    partHeader := crlf ++ contentDispositionName ++ dispositionText ps ++ crlf ++ crlf }

theorem wellFormed_pair {p q : DispositionParam} (hp : p.WellFormed) (hq : q.WellFormed) :
    ∀ r ∈ [p, q], r.WellFormed := by
  intro r hr
  simp only [List.mem_cons, List.not_mem_nil, or_false] at hr
  rcases hr with rfl | rfl
  · exact hp
  · exact hq

/-- A file name with `name=` in it, but not at its end. -/
def plainParams : List DispositionParam :=
  [⟨filenameKey, ascii "mein name=x.bin"⟩, ⟨nameKey, ascii "datei"⟩]

/-- The field name behind such a file name is found. -/
theorem contentDisposition_plain :
    (extractDispositionValue (collected plainParams).partFields.contentDisposition
        (nameKey ++ [61]) = some (ascii "datei") ↔ Unmistaken nameKey plainParams) ∧
      (((beginPart (fun _ => false) (collected plainParams)).1.sink.partIsFile = true ↔
        HasParam filenameKey plainParams) ↔ ClassifiedByParam filenameKey plainParams) :=
  contentDisposition_iff (fun _ => false) (collected plainParams) plainParams
    ⟨rfl, by decide +kernel, by decide +kernel,
      wellFormed_pair ⟨isToken_filename, by decide, by decide⟩ ⟨isToken_name, by decide, by decide⟩⟩
    nameKey isToken_name

/-- A file name that ends in `name=`, before the field name. -/
def mimickingFileName : List DispositionParam :=
  [⟨filenameKey, ascii "mein name="⟩, ⟨nameKey, ascii "datei"⟩]

/-- A form field with a name that ends in `filename=`, and one more parameter. -/
def mimickingField : List DispositionParam :=
  [⟨nameKey, ascii "a filename="⟩, ⟨ascii "charset", ascii "utf-8"⟩]

/-- The field name of the first is lost, and the second is taken for a file. -/
theorem contentDisposition_mimics :
    PartToBegin (collected mimickingFileName) mimickingFileName ∧
      PartToBegin (collected mimickingField) mimickingField ∧
      extractDispositionValue (collected mimickingFileName).partFields.contentDisposition
        (nameKey ++ [61]) = some (ascii "; name=") ∧
      valueOf nameKey mimickingFileName = some (ascii "datei") ∧
      (beginPart (fun _ => false) (collected mimickingField)).1.sink.partIsFile = true ∧
      ¬ HasParam filenameKey mimickingField := by
  refine ⟨⟨rfl, by decide +kernel, by decide +kernel, ?_⟩,
    ⟨rfl, by decide +kernel, by decide +kernel, ?_⟩, by decide +kernel, by decide +kernel,
    by decide +kernel, ?_⟩
  · exact wellFormed_pair ⟨isToken_filename, by decide, by decide⟩
      ⟨isToken_name, by decide, by decide⟩
  · exact wellFormed_pair ⟨isToken_name, by decide, by decide⟩
      ⟨⟨by decide, by decide, by decide, by decide, by decide, by decide⟩, by decide, by decide⟩
  rintro ⟨p, hp, hkey⟩
  simp only [mimickingField, List.mem_cons, List.not_mem_nil, or_false] at hp
  rcases hp with rfl | rfl
  · exact absurd hkey (by decide)
  · exact absurd hkey (by decide)

end CWebUI.Post
