import Mathlib.Data.Nat.Find
import CWebUI.Http.UrlSanity

set_option autoImplicit false

/-! # What the search functions find

`stringfind`, `stringfindCaseInsensitive` and `stringnfind` (`utils.c`) fall back to the start of
the pattern after a mismatch and do not look at the mismatching byte again. So the text before an
occurrence has to be used up by attempts that fail (`FailedAttempts`): each reads a beginning of the
pattern and one more byte. An occurrence that starts inside an attempt is passed over.

The first two functions keep the length of the text in an `int`; `stringfindInt` and
`stringfindCaseInsensitiveInt` are the functions with this length.
-/

namespace CWebUI.Http

open ByteString

/-! ## Occurrences -/

/-- The pattern stands at the position `k` of the text, and at none before. -/
structure FirstAt (pattern text : List UInt8) (k : Nat) : Prop where
  here : pattern <+: text.drop k
  before : ∀ j < k, ¬ pattern <+: text.drop j

instance (pattern text : List UInt8) (k : Nat) : Decidable (FirstAt pattern text k) :=
  decidable_of_iff (pattern <+: text.drop k ∧ ∀ j < k, ¬ pattern <+: text.drop j)
    ⟨fun h => ⟨h.1, h.2⟩, fun h => ⟨h.here, h.before⟩⟩

theorem FirstAt.split {pattern text : List UInt8} {k : Nat} (h : FirstAt pattern text k)
    (hne : pattern ≠ []) : ∃ post, text = text.take k ++ (pattern ++ post) ∧
      (text.take k).length = k := by
  obtain ⟨post, hpost⟩ := h.here
  refine ⟨post, by rw [hpost, List.take_append_drop], ?_⟩
  have hlen := congrArg List.length hpost
  have hpos := List.length_pos_of_ne_nil hne
  rw [List.length_append, List.length_drop] at hlen
  rw [List.length_take]
  omega

/-- A text that holds the pattern holds it a first time. -/
theorem exists_firstAt {pattern text : List UInt8} (h : pattern <:+: text) :
    ∃ k, FirstAt pattern text k := by
  classical
  obtain ⟨pre, post, rfl⟩ := h
  have hex : ∃ k, pattern <+: (pre ++ pattern ++ post).drop k :=
    ⟨pre.length, by rw [List.append_assoc, List.drop_left]; exact List.prefix_append _ _⟩
  exact ⟨Nat.find hex, Nat.find_spec hex, fun j hj => Nat.find_min hex hj⟩

/-- What a search returns when it is right: the index of the last byte of the first occurrence,
or `absent`. -/
def Answers (absent : Int) (pattern text : List UInt8) (answer : Int) : Prop :=
  (∀ k, FirstAt pattern text k → answer = k + pattern.length - 1) ∧
    (¬ pattern <:+: text → answer = absent)

/-! ## The attempts of the loop -/

/-- The text is used up by attempts to match the pattern, each of which reads a beginning of the
pattern and fails at the byte behind it. -/
inductive FailedAttempts (pattern : List UInt8) : List UInt8 → Prop where
  | nil : FailedAttempts pattern []
  | attempt {d ps rest : List UInt8} {p c : UInt8} : pattern = d ++ p :: ps → c ≠ p →
      FailedAttempts pattern rest → FailedAttempts pattern (d ++ c :: rest)

/-- The occurrence that the loop has to find: attempts fail up to it, and it ends within the first
`bound` bytes. -/
def Searchable (pattern text : List UInt8) (bound : Nat) : Prop :=
  ∀ k, FirstAt pattern text k →
    FailedAttempts pattern (text.take k) ∧ k + pattern.length ≤ bound

theorem findLoop_attempt (pattern : List UInt8) (i : Nat) (d ps rest : List UInt8) {p c : UInt8}
    (hc : c ≠ p) :
    findLoop (· == ·) pattern i (d ++ p :: ps) (d ++ c :: rest) =
      findLoop (· == ·) pattern (i + (d.length + 1)) pattern rest := by
  induction d generalizing i with
  | nil => rw [List.nil_append, List.nil_append, findLoop, if_neg (by simpa using hc)]; rfl
  | cons x d ih =>
      have hne : d ++ p :: ps ≠ [] := by simp
      rw [List.cons_append, List.cons_append, findLoop, if_pos (beq_self_eq_true x), if_neg hne,
        ih (i + 1), List.length_cons]
      congr 1
      omega

theorem findLoop_attempts {pattern pre : List UInt8} (h : FailedAttempts pattern pre) (i : Nat)
    (text : List UInt8) :
    findLoop (· == ·) pattern i pattern (pre ++ text) =
      findLoop (· == ·) pattern (i + pre.length) pattern text := by
  induction h generalizing i with
  | nil => rfl
  | @attempt d ps rest p c hsplit hc _ ih =>
      have hstep := findLoop_attempt pattern i d ps (rest ++ text) hc
      rw [← hsplit] at hstep
      rw [List.append_assoc, List.cons_append, hstep, ih, List.length_append, List.length_cons]
      congr 1
      omega

/-- What the loop finds is an occurrence behind failed attempts. `d` is what of the pattern has been
matched at the position `i`. -/
theorem findLoop_found {pattern d pat : List UInt8} (hsplit : pattern = d ++ pat) {i j : Nat}
    {text : List UInt8} (h : findLoop (· == ·) pattern i pat text = some j) :
    ∃ pre post, d ++ text = pre ++ (pattern ++ post) ∧ FailedAttempts pattern pre ∧
      j + 1 + d.length = i + pre.length + pattern.length := by
  induction text generalizing i d pat with
  | nil => cases pat <;> simp [findLoop] at h
  | cons c text ih =>
      cases pat with
      | nil => simp [findLoop] at h
      | cons p ps =>
          rw [findLoop] at h
          by_cases hc : (c == p) = true
          · have hcp : c = p := beq_iff_eq.mp hc
            rw [if_pos hc] at h
            by_cases hps : ps = []
            · rw [if_pos hps, Option.some.injEq] at h
              refine ⟨[], text, by rw [hsplit, hps, hcp]; simp, .nil, ?_⟩
              rw [hsplit, hps, h]
              simp
              omega
            · rw [if_neg hps] at h
              obtain ⟨pre, post, htext, hpre, hj⟩ := ih (d := d ++ [p]) (by rw [hsplit]; simp) h
              refine ⟨pre, post, by rw [← htext, hcp]; simp, hpre, ?_⟩
              rw [List.length_append, List.length_singleton] at hj
              omega
          · rw [if_neg hc] at h
            obtain ⟨pre, post, htext, hpre, hj⟩ := ih (d := []) rfl h
            refine ⟨d ++ c :: pre, post, ?_, .attempt hsplit (by simpa using hc) hpre, ?_⟩
            · rw [List.nil_append] at htext
              rw [htext]
              simp
            · rw [List.length_append, List.length_cons]
              rw [List.length_nil] at hj
              omega

/-- What `stringfind` finds is there. -/
theorem infix_of_stringfind {buffer pattern : List UInt8} (h : 0 < stringfind buffer pattern) :
    pattern <:+: cString buffer := by
  unfold stringfind at h
  cases hfind : findLoop (· == ·) pattern 0 pattern (cString buffer) with
  | none =>
      rw [hfind] at h
      cases h
  | some j =>
      obtain ⟨pre, post, htext, -, -⟩ := findLoop_found (d := []) (List.nil_append _).symm hfind
      exact ⟨pre, post, by simpa using htext.symm⟩

/-! ## The loop over a bounded part of a text -/

/-- The loop over the first `bound` bytes of a text. -/
def findWithin (pattern text : List UInt8) (bound : Nat) : Option Nat :=
  findLoop (· == ·) pattern 0 pattern (text.take bound)

theorem findWithin_found {pattern text : List UInt8} {bound j : Nat}
    (h : findWithin pattern text bound = some j) :
    ∃ pre post, text = pre ++ (pattern ++ post) ∧ FailedAttempts pattern pre ∧
      j + 1 = pre.length + pattern.length ∧ pre.length + pattern.length ≤ bound := by
  obtain ⟨pre, post, htext, hpre, hj⟩ := findLoop_found (d := []) (List.nil_append _).symm h
  rw [List.nil_append] at htext
  rw [List.length_nil] at hj
  refine ⟨pre, post ++ text.drop bound, ?_, hpre, by omega, ?_⟩
  · conv_lhs => rw [← List.take_append_drop bound text, htext]
    simp
  · have hlen := congrArg List.length htext
    rw [List.length_take, List.length_append, List.length_append] at hlen
    omega

theorem findWithin_occurrence {pattern pre post : List UInt8} {bound : Nat} (hne : pattern ≠ [])
    (hpre : FailedAttempts pattern pre) (hbound : pre.length + pattern.length ≤ bound) :
    findWithin pattern (pre ++ (pattern ++ post)) bound =
      some (pre.length + pattern.length - 1) := by
  obtain ⟨n, rfl⟩ := Nat.exists_eq_add_of_le hbound
  have htake : (pre ++ (pattern ++ post)).take (pre.length + pattern.length + n) =
      pre ++ (pattern ++ post.take n) := by
    rw [Nat.add_assoc, List.take_length_add_append, List.take_length_add_append]
  rw [findWithin, htake, findLoop_attempts hpre, findLoop_match _ _ _ _ hne, Nat.zero_add]

theorem findWithin_absent {pattern text : List UInt8} (bound : Nat) (h : ¬ pattern <:+: text) :
    findWithin pattern text bound = none := by
  rw [Option.eq_none_iff_forall_ne_some]
  intro j hj
  obtain ⟨pre, post, htext, -, -, -⟩ := findWithin_found hj
  exact h ⟨pre, post, by rw [htext]; simp⟩

/-- The loop is right if and only if attempts fail up to the first occurrence. The answer for an
absent pattern is none that an occurrence has. -/
theorem answers_iff {pattern text : List UInt8} {bound : Nat} {absent : Int}
    (hlen : 2 ≤ pattern.length) (habsent : absent ≤ 0) :
    Answers absent pattern text ((findWithin pattern text bound).elim absent fun j => (j : Int)) ↔
      Searchable pattern text bound := by
  have hne : pattern ≠ [] := List.ne_nil_of_length_pos (by omega)
  constructor
  · intro h k hk
    have hanswer := h.1 k hk
    cases hfind : findWithin pattern text bound with
    | none =>
        rw [hfind, Option.elim_none] at hanswer
        omega
    | some j =>
        rw [hfind, Option.elim_some] at hanswer
        obtain ⟨pre, post, htext, hpre, hj, hbound⟩ := findWithin_found hfind
        have hk : k = pre.length := by omega
        rw [hk, htext, List.take_left]
        exact ⟨hpre, hbound⟩
  · intro h
    refine ⟨fun k hk => ?_, fun habs => by rw [findWithin_absent bound habs, Option.elim_none]⟩
    obtain ⟨hpre, hbound⟩ := h k hk
    obtain ⟨post, htext, hklen⟩ := hk.split hne
    have hfind : findWithin pattern text bound = some (k + pattern.length - 1) := by
      rw [htext, findWithin_occurrence hne hpre (by omega), hklen]
    rw [hfind, Option.elim_some]
    omega

/-! ## The search functions -/

/-- `(int) strlen(buffer)`: how many bytes of a text the loop goes through. A text of 2 GiB does
not have all of its length there. -/
def strlenInt (text : List UInt8) : Nat := ((text.length : Int).bmod (2 ^ 32)).toNat

/-- `stringfind` with the length in an `int`. -/
def stringfindInt (buffer pattern : List UInt8) : Nat :=
  (findLoop (· == ·) pattern 0 pattern
    ((cString buffer).take (strlenInt (cString buffer)))).getD 0

/-- `stringfindCaseInsensitive` with the length in an `int`. -/
def stringfindCaseInsensitiveInt (buffer pattern : List UInt8) : Nat :=
  (findLoop (fun c p => toLower c == toLower p) pattern 0 pattern
    ((cString buffer).take (strlenInt (cString buffer)))).getD 0

theorem strlenInt_eq {text : List UInt8} (h : text.length < 2 ^ 31) :
    strlenInt text = text.length := by
  unfold strlenInt
  generalize text.length = n at h
  rw [Int.bmod_def]
  split <;> omega

/-- Below 2 GiB the length in an `int` is the length. -/
theorem stringfindInt_eq {buffer : List UInt8} (pattern : List UInt8)
    (h : (cString buffer).length < 2 ^ 31) :
    stringfindInt buffer pattern = stringfind buffer pattern ∧
      stringfindCaseInsensitiveInt buffer pattern = stringfindCaseInsensitive buffer pattern := by
  unfold stringfindInt stringfindCaseInsensitiveInt
  rw [strlenInt_eq h, List.take_length]
  exact ⟨rfl, rfl⟩

/-- Without case, the loop compares the lower case texts. -/
theorem findLoop_toLower (pattern : List UInt8) (i : Nat) (pat text : List UInt8) :
    findLoop (fun c p => toLower c == toLower p) pattern i pat text =
      findLoop (· == ·) (pattern.map toLower) i (pat.map toLower) (text.map toLower) := by
  induction text generalizing i pat with
  | nil => cases pat <;> rfl
  | cons c text ih =>
      cases pat with
      | nil => rfl
      | cons p ps =>
          rw [List.map_cons, List.map_cons, findLoop, findLoop, ih, ih]
          simp only [List.map_eq_nil_iff]

theorem stringfindInt_answer (buffer pattern : List UInt8) :
    (stringfindInt buffer pattern : Int) =
      (findWithin pattern (cString buffer) (strlenInt (cString buffer))).elim 0
        fun j => (j : Int) := by
  unfold stringfindInt findWithin
  cases findLoop (· == ·) pattern 0 pattern _ <;> rfl

theorem stringfindCaseInsensitiveInt_answer (buffer pattern : List UInt8) :
    (stringfindCaseInsensitiveInt buffer pattern : Int) =
      (findWithin (pattern.map toLower) ((cString buffer).map toLower)
        (strlenInt (cString buffer))).elim 0 fun j => (j : Int) := by
  unfold stringfindCaseInsensitiveInt findWithin
  rw [findLoop_toLower, List.map_take]
  cases findLoop (· == ·) (pattern.map toLower) 0 _ _ <;> rfl

theorem stringnfind_answer (buffer pattern : List UInt8) :
    stringnfind buffer pattern = findWithin pattern buffer buffer.length := by
  rw [stringnfind, findWithin, List.take_length]

/-- **The searches are right if and only if attempts fail up to the first occurrence**, and for
`stringfind` and `stringfindCaseInsensitive` it lies in the part of the text that an `int`
counts. -/
theorem searches_answer_iff (buffer pattern : List UInt8) (hlen : 2 ≤ pattern.length) :
    (Answers 0 pattern (cString buffer) (stringfindInt buffer pattern) ↔
      Searchable pattern (cString buffer) (strlenInt (cString buffer))) ∧
    (Answers 0 (pattern.map toLower) ((cString buffer).map toLower)
        (stringfindCaseInsensitiveInt buffer pattern) ↔
      Searchable (pattern.map toLower) ((cString buffer).map toLower)
        (strlenInt (cString buffer))) ∧
    (Answers (-1) pattern buffer ((stringnfind buffer pattern).elim (-1) fun j => (j : Int)) ↔
      Searchable pattern buffer buffer.length) := by
  refine ⟨?_, ?_, ?_⟩
  · rw [stringfindInt_answer]
    exact answers_iff hlen (Int.le_refl 0)
  · rw [stringfindCaseInsensitiveInt_answer]
    exact answers_iff (by simpa using hlen) (Int.le_refl 0)
  · rw [stringnfind_answer]
    exact answers_iff hlen (by decide)

theorem searches_answer_ab :
    (Answers 0 (ascii "ab") (cString (ascii "xab")) (stringfindInt (ascii "xab") (ascii "ab")) ↔
      Searchable (ascii "ab") (cString (ascii "xab")) (strlenInt (cString (ascii "xab")))) :=
  (searches_answer_iff (ascii "xab") (ascii "ab") (by decide)).1

/-- A pattern behind its own first byte is not found. -/
theorem searches_pass_over :
    2 ≤ (ascii "ab").length ∧ FirstAt (ascii "ab") (cString (ascii "aab")) 1 ∧
      ¬ Answers 0 (ascii "ab") (cString (ascii "aab")) (stringfindInt (ascii "aab") (ascii "ab")) ∧
      ¬ Answers 0 ((ascii "ab").map toLower) ((cString (ascii "aab")).map toLower)
        (stringfindCaseInsensitiveInt (ascii "aab") (ascii "ab")) ∧
      ¬ Answers (-1) (ascii "ab") (ascii "aab")
        ((stringnfind (ascii "aab") (ascii "ab")).elim (-1) fun j => (j : Int)) := by
  have hfirst : FirstAt (ascii "ab") (ascii "aab") 1 := by decide
  refine ⟨by decide, by decide, fun h => ?_, fun h => ?_, fun h => ?_⟩
  · exact absurd (h.1 1 hfirst) (by decide)
  · exact absurd (h.1 1 hfirst) (by decide)
  · exact absurd (h.1 1 hfirst) (by decide)

end CWebUI.Http
