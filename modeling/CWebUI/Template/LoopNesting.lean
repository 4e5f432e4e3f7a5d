import CWebUI.Template.Trees

set_option autoImplicit false

/-! # Nested loops

What `find_tag_end_pos` (`engine_tags.c`) finds behind a loop tag, for every text of nested loops.
The search goes from one end tag to the next, and looks between them for a start tag; it does not
count how many there are. `stringnfind` (`utils.c`) does not go back when a comparison fails, so it
overlooks a tag that stands directly behind the beginning of such a tag. The rest of an opening tag
is part of the text behind it.
-/

namespace CWebUI.Template

open ByteString

/-! ## The index into the pattern -/

/-- The index into the pattern behind a text, if `stringnfind` does not end in it. -/
def indexBehind (pattern : List UInt8) : Nat → List UInt8 → Option Nat
  | i2, [] => some i2
  | i2, c :: text =>
      if c == pattern.getD i2 0 then
        if i2 + 1 = pattern.length then none else indexBehind pattern (i2 + 1) text
      else indexBehind pattern 0 text

theorem indexBehind_append (pattern : List UInt8) (i2 : Nat) (a b : List UInt8) :
    indexBehind pattern i2 (a ++ b) =
      (indexBehind pattern i2 a).bind fun j => indexBehind pattern j b := by
  induction a generalizing i2 with
  | nil => rfl
  | cons c a ih =>
      rw [List.cons_append, indexBehind, indexBehind]
      split_ifs
      · rfl
      · exact ih _
      · exact ih _

theorem indexBehind_lt {pattern : List UInt8} {i2 j : Nat} {text : List UInt8}
    (hi2 : i2 < pattern.length) (h : indexBehind pattern i2 text = some j) :
    j < pattern.length := by
  induction text generalizing i2 with
  | nil =>
      cases h
      exact hi2
  | cons c text ih =>
      rw [indexBehind] at h
      split_ifs at h with heq hlen
      · exact ih (by omega) h
      · exact ih (by omega) h

/-- A byte that was compared extends the beginning of the pattern. -/
theorem take_compared {pattern : List UInt8} {i2 : Nat} {c : UInt8} (hi2 : i2 < pattern.length)
    (heq : (c == pattern.getD i2 0) = true) :
    pattern.take (i2 + 1) = pattern.take i2 ++ [c] := by
  rw [List.getD_eq_getElem?_getD, List.getElem?_eq_getElem hi2, Option.getD_some,
    beq_iff_eq] at heq
  rw [List.take_add_one, List.getElem?_eq_getElem hi2, Option.toList_some, heq]

/-- Where `stringnfind` ends, the pattern stands. -/
theorem infix_of_indexBehind {pattern : List UInt8} {i2 : Nat} {text : List UInt8}
    (hi2 : i2 < pattern.length) (h : indexBehind pattern i2 text = none) :
    pattern <:+: pattern.take i2 ++ text := by
  induction text generalizing i2 with
  | nil => cases h
  | cons c text ih =>
      rw [indexBehind] at h
      split_ifs at h with heq hlen
      · -- the last byte of the pattern
        have hnext := take_compared hi2 heq
        rw [hlen, List.take_length] at hnext
        refine ⟨[], text, ?_⟩
        rw [List.nil_append, List.append_cons, ← hnext]
      · have hnext := take_compared hi2 heq
        have hin := ih (by omega) h
        rwa [hnext, List.append_assoc] at hin
      · -- the comparison starts again, behind this byte
        have hin := ih (by omega) h
        rw [List.take_zero, List.nil_append] at hin
        exact hin.trans ⟨pattern.take i2 ++ [c], [], by simp⟩

/-- A text without the pattern is passed. -/
theorem indexBehind_plain {pattern text : List UInt8} (hpattern : 0 < pattern.length)
    (h : ¬ pattern <:+: text) :
    ∃ j < pattern.length, indexBehind pattern 0 text = some j := by
  cases hindex : indexBehind pattern 0 text with
  | none =>
      have hin := infix_of_indexBehind hpattern hindex
      rw [List.take_zero, List.nil_append] at hin
      exact absurd hin h
  | some j => exact ⟨j, indexBehind_lt hpattern hindex, rfl⟩

/-! ## `stringnfind` -/

/-- A text is passed with the index behind it. -/
theorem stringnfindLoop_pass {S : Slice} {pattern : List UInt8} {i2 j : Nat} {text : List UInt8}
    {i : Int} (h : S.reads i text = true) (hindex : indexBehind pattern i2 text = some j)
    (n : Nat) :
    stringnfindLoop S pattern (n + text.length) i i2 =
      stringnfindLoop S pattern n (i + text.length) j := by
  induction text generalizing i i2 with
  | nil =>
      cases hindex
      simp
  | cons c text ih =>
      obtain ⟨hat, hrest⟩ := Slice.at_of_reads h
      have hplace : i + 1 + (text.length : Int) = i + (c :: text).length := by
        rw [List.length_cons]
        push_cast
        omega
      rw [indexBehind] at hindex
      rw [List.length_cons, ← Nat.add_assoc, stringnfindLoop, hat]
      rw [List.length_cons] at hplace
      split_ifs at hindex ⊢
      · rw [ih hrest hindex, hplace]
      · rw [ih hrest hindex, hplace]

/-- The rest of the pattern is found where it stands. -/
theorem stringnfindLoop_rest {S : Slice} {pattern : List UInt8} {i2 : Nat} {i : Int}
    (hi2 : i2 < pattern.length) (h : S.reads i (pattern.drop i2) = true) (n : Nat) :
    stringnfindLoop S pattern (n + (pattern.length - i2)) i i2 = i + (pattern.length - i2) - 1 := by
  obtain ⟨m, hm⟩ : ∃ m, pattern.length - i2 = m + 1 := ⟨pattern.length - i2 - 1, by omega⟩
  induction m generalizing i2 i with
  | zero =>
      have hlast : i2 + 1 = pattern.length := by omega
      rw [List.drop_eq_getElem_cons hi2] at h
      have hat := (Slice.at_of_reads h).1
      rw [hm, stringnfindLoop, hat, List.getD_eq_getElem?_getD, List.getElem?_eq_getElem hi2,
        Option.getD_some, beq_self_eq_true, if_pos rfl, if_pos hlast]
      omega
  | succ m ih =>
      have hnext : i2 + 1 ≠ pattern.length := by omega
      rw [List.drop_eq_getElem_cons hi2] at h
      obtain ⟨hat, hrest⟩ := Slice.at_of_reads h
      have hless : pattern.length - i2 = pattern.length - (i2 + 1) + 1 := by omega
      rw [hless, ← Nat.add_assoc, stringnfindLoop, hat, List.getD_eq_getElem?_getD,
        List.getElem?_eq_getElem hi2, Option.getD_some, beq_self_eq_true, if_pos rfl,
        if_neg hnext, ih (by omega) hrest (by omega)]
      push_cast
      omega

/-- Behind a text that it passes, the pattern is found where it stands. -/
theorem stringnfind_found {S : Slice} {pattern text : List UInt8} (hpattern : 0 < pattern.length)
    (h : S.reads 0 (text ++ pattern) = true) (hindex : indexBehind pattern 0 text = some 0)
    (hend : text.length + pattern.length ≤ S.length) :
    stringnfind S pattern = text.length + pattern.length - 1 := by
  obtain ⟨htext, hreads⟩ := Slice.reads_of_append h
  have hlength : S.length.toNat =
      S.length.toNat - text.length - pattern.length + (pattern.length - 0) + text.length := by
    omega
  rw [stringnfind, hlength, stringnfindLoop_pass htext hindex,
    stringnfindLoop_rest hpattern (by simpa using hreads)]
  omega

theorem stringnfindLoop_le (S : Slice) (pattern : List UInt8) (n : Nat) (i : Int) (i2 : Nat) :
    stringnfindLoop S pattern n i i2 = -1 ∨ i ≤ stringnfindLoop S pattern n i i2 := by
  induction n generalizing i i2 with
  | zero => exact Or.inl rfl
  | succ n ih =>
      rw [stringnfindLoop]
      split_ifs
      · exact Or.inr (Int.le_refl i)
      · exact (ih (i + 1) (i2 + 1)).imp_right fun h => by omega
      · exact (ih (i + 1) 0).imp_right fun h => by omega

/-- What is found behind a text that is passed ends behind it. -/
theorem stringnfind_behind {S : Slice} {pattern text : List UInt8} {j : Nat}
    (h : S.reads 0 text = true) (hindex : indexBehind pattern 0 text = some j)
    (hend : text.length ≤ S.length) :
    stringnfind S pattern = -1 ∨ text.length ≤ stringnfind S pattern := by
  have hlength : S.length.toNat = S.length.toNat - text.length + text.length := by omega
  rw [stringnfind, hlength, stringnfindLoop_pass h hindex, Int.zero_add]
  exact stringnfindLoop_le S pattern _ _ j

/-- In a text in which it ends, `stringnfind` finds something. -/
theorem stringnfindLoop_ne {S : Slice} {pattern : List UInt8} {i2 : Nat} {text : List UInt8}
    {i : Int} (hi : 0 ≤ i) (h : S.reads i text = true)
    (hindex : indexBehind pattern i2 text = none) :
    0 ≤ stringnfindLoop S pattern text.length i i2 := by
  induction text generalizing i i2 with
  | nil => cases hindex
  | cons c text ih =>
      obtain ⟨hat, hrest⟩ := Slice.at_of_reads h
      rw [indexBehind] at hindex
      rw [List.length_cons, stringnfindLoop, hat]
      split_ifs at hindex ⊢
      · exact hi
      · exact ih (by omega) hrest hindex
      · exact ih (by omega) hrest hindex

/-- Whether `stringnfind` finds something in a slice, from the text that the slice holds. -/
theorem stringnfind_pos_iff {S : Slice} {pattern text : List UInt8} (hpattern : 1 < pattern.length)
    (h : S.reads 0 text = true) (hend : text.length = S.length) :
    0 < stringnfind S pattern ↔ indexBehind pattern 0 text = none := by
  have hlength : S.length.toNat = 0 + text.length := by omega
  cases hindex : indexBehind pattern 0 text with
  | none =>
      have hfound : 0 ≤ stringnfind S pattern := by
        rw [stringnfind, hlength, Nat.zero_add]
        exact stringnfindLoop_ne (Int.le_refl 0) h hindex
      have hspec := stringnfind_spec S (List.ne_nil_of_length_pos (by omega : 0 < pattern.length))
        (by omega)
      exact iff_of_true (by omega) rfl
  | some j =>
      rw [stringnfind, hlength, stringnfindLoop_pass h hindex, stringnfindLoop]
      exact iff_of_false (by decide) fun hnone => nomatch hnone

/-! ## Texts of loops -/

/-- The two tags. -/
inductive LoopTag where
  | start
  | finish
  deriving DecidableEq, Repr

/-- The text of a tag. -/
def LoopTag.text : LoopTag → List UInt8
  | .start => loopTag
  | .finish => endloopTag

/-- Text without a tag of loops. -/
structure LoopOther where
  text : List UInt8
  plain : ∀ tag : LoopTag, ¬ tag.text <:+: text

/-- A text in which all loops are closed. -/
inductive LoopText where
  | other (t : LoopOther)
  | block (t : LoopOther) (body rest : LoopText)

/-- A tag, with the text before it. -/
structure TaggedText where
  before : LoopOther
  tag : LoopTag

/-- The search for a tag finds it: it is not directly behind the beginning of such a tag that the
search has begun to compare. -/
def TaggedText.Seen (t : TaggedText) : Prop := indexBehind t.tag.text 0 t.before.text = some 0

instance (t : TaggedText) : Decidable t.Seen := inferInstanceAs (Decidable (_ = _))

/-- The bytes of texts with their tags. -/
def printTags (tags : List TaggedText) : List UInt8 :=
  tags.flatMap fun t => t.before.text ++ t.tag.text

namespace LoopText

def print : LoopText → List UInt8
  | other t => t.text
  | block t body rest => t.text ++ (loopTag ++ (body.print ++ (endloopTag ++ rest.print)))

/-- The tags of a text, the end tag behind it, and the tags behind that. -/
def tagsBefore : LoopText → List TaggedText → List TaggedText
  | other t, behind => ⟨t, .finish⟩ :: behind
  | block t body rest, behind => ⟨t, .start⟩ :: body.tagsBefore (rest.tagsBefore behind)

theorem printTags_tagsBefore (w : LoopText) (behind : List TaggedText) :
    printTags (w.tagsBefore behind) = w.print ++ (endloopTag ++ printTags behind) := by
  induction w generalizing behind with
  | other t => simp [tagsBefore, printTags, print, LoopTag.text]
  | block t body rest ihbody ihrest =>
      have hcons : printTags (tagsBefore (block t body rest) behind) =
          (t.text ++ loopTag) ++ printTags (body.tagsBefore (rest.tagsBefore behind)) := rfl
      rw [hcons, ihbody, ihrest]
      simp [print]

/-- The tags behind an opening tag, up to the end tag that belongs to it. -/
def tags (w : LoopText) : List TaggedText := w.tagsBefore []

end LoopText

/-- The condition for the last end tag to be found: of the tags that are seen, every end tag but the
last one comes behind a start tag; the last one is seen, and comes behind an end tag or first. The
flag tells whether a start tag came behind the last end tag that was seen. -/
def FindsLast : Bool → List TaggedText → Prop
  | _, [] => False
  | started, [t] => t.Seen ∧ started = false
  | started, t :: t' :: behind =>
      if t.Seen then
        match t.tag with
        | .start => FindsLast true (t' :: behind)
        | .finish => started = true ∧ FindsLast false (t' :: behind)
      else FindsLast started (t' :: behind)

/-! ## The tags in the searches -/

theorem loopTag_length : loopTag.length = 6 := by decide

/-- Behind any index of the search for an end tag, a start tag sets it back. -/
theorem indexBehind_end_start : ∀ i < 9, indexBehind endloopTag i loopTag = some 0 := by
  decide +kernel

/-- So does an end tag that is overlooked. -/
theorem indexBehind_end_end : ∀ i < 9, i ≠ 0 → indexBehind endloopTag i endloopTag = some 0 := by
  decide +kernel

/-- In the search for a start tag, an end tag sets the index back, with and without its last
byte. -/
theorem indexBehind_start_end : ∀ i < 6, indexBehind loopTag i endloopTag = some 0 ∧
    indexBehind loopTag i endloopTag.dropLast = some 0 := by
  decide +kernel

theorem indexBehind_start_start : indexBehind loopTag 0 loopTag = none ∧
    ∀ i < 6, i ≠ 0 → indexBehind loopTag i loopTag = some 0 := by
  decide +kernel

/-! ## Rounds -/

/-- A round gives up, or finds an end tag: then it is the last one, or the next round goes on at the
last byte of the tag. -/
theorem findTagEndLoop_next {S : Slice} {offset : Int} (hle : offset ≤ S.length)
    (rounds level : Nat) :
    findTagEndLoop S loopTag endloopTag (rounds + 1) offset level = -1 ∨
      ∃ pos1, stringnfind (S.sub offset (S.length - offset)) endloopTag = pos1 ∧ 8 ≤ pos1 ∧
        offset + pos1 ≤ S.length ∧
        (findTagEndLoop S loopTag endloopTag (rounds + 1) offset level = offset + pos1 + 1 ∨
          ∃ level', findTagEndLoop S loopTag endloopTag (rounds + 1) offset level =
            findTagEndLoop S loopTag endloopTag rounds (offset + pos1) level') := by
  have hspec := stringnfind_spec (S.sub offset (S.length - offset))
    (by decide : endloopTag ≠ []) (by rw [Slice.sub_length]; omega)
  rw [Slice.sub_length, endloopTag_length] at hspec
  rw [findTagEndLoop]
  generalize stringnfind (S.sub offset (S.length - offset)) endloopTag = pos1 at *
  dsimp only
  generalize (if 0 < stringnfind (S.sub offset pos1) loopTag then level - 1 + 1
    else level - 1) = level'
  split_ifs
  · exact Or.inl rfl
  · exact Or.inl rfl
  · exact Or.inr ⟨pos1, rfl, by omega, by omega, Or.inr ⟨level', rfl⟩⟩
  · exact Or.inr ⟨pos1, rfl, by omega, by omega, Or.inl rfl⟩

/-- What `find_tag_end_pos` returns is behind an end tag that starts at its offset or behind it. -/
theorem findTagEndLoop_ge {S : Slice} (rounds : Nat) {offset : Int} (hle : offset ≤ S.length)
    (level : Nat) :
    findTagEndLoop S loopTag endloopTag rounds offset level = -1 ∨
      offset + 9 ≤ findTagEndLoop S loopTag endloopTag rounds offset level := by
  induction rounds generalizing offset level with
  | zero => exact Or.inl rfl
  | succ rounds ih =>
      rcases findTagEndLoop_next hle rounds level with h | ⟨pos1, -, hpos, hend, h | ⟨level', h⟩⟩
      · exact Or.inl h
      · exact Or.inr (by omega)
      · rw [h]
        exact (ih hend level').imp_right fun hge => by omega

/-- Behind a text in which the search for the end tag ends nowhere, only a later end tag is
found. -/
theorem findTagEndLoop_behind {S : Slice} {offset : Int} {text : List UInt8} {j : Nat}
    (h : S.reads offset text = true) (hindex : indexBehind endloopTag 0 text = some j)
    (hend : offset + text.length ≤ S.length) (rounds level : Nat) :
    findTagEndLoop S loopTag endloopTag rounds offset level = -1 ∨
      offset + text.length < findTagEndLoop S loopTag endloopTag rounds offset level := by
  cases rounds with
  | zero => exact Or.inl rfl
  | succ rounds =>
      have hbehind := @stringnfind_behind (S.sub offset (S.length - offset)) endloopTag text j
        (by rw [Slice.sub_reads, add_zero]; exact h) hindex (by rw [Slice.sub_length]; omega)
      have hle : offset ≤ S.length := by omega
      rcases findTagEndLoop_next hle rounds level with
        hnone | ⟨pos1, hpos1, hpos, hlast, heq | ⟨level', heq⟩⟩
      · exact Or.inl hnone
      · rw [hpos1] at hbehind
        exact Or.inr (by omega)
      · rw [hpos1] at hbehind
        rw [heq]
        exact (findTagEndLoop_ge rounds hlast level').imp_right fun hge => by omega

/-- A round in which the end tag is found behind a text: it is the last round, if the search for a
start tag ends nowhere in the text. -/
theorem findTagEndLoop_round {S : Slice} {offset : Int} {text : List UInt8}
    (h : S.reads offset (text ++ endloopTag) = true)
    (hindex : indexBehind endloopTag 0 text = some 0)
    (hend : offset + text.length + 9 ≤ S.length) (rounds : Nat) :
    findTagEndLoop S loopTag endloopTag (rounds + 1) offset 1 =
      if indexBehind loopTag 0 (text ++ endloopTag.dropLast) = none then
        findTagEndLoop S loopTag endloopTag rounds (offset + text.length + 8) 1
      else offset + text.length + 9 := by
  have hpos1 : stringnfind (S.sub offset (S.length - offset)) endloopTag = text.length + 8 := by
    rw [stringnfind_found (by decide) (by rw [Slice.sub_reads, add_zero]; exact h) hindex
      (by rw [Slice.sub_length, endloopTag_length]; push_cast; omega), endloopTag_length]
    push_cast
    omega
  have hpos2 : 0 < stringnfind (S.sub offset (text.length + 8)) loopTag ↔
      indexBehind loopTag 0 (text ++ endloopTag.dropLast) = none := by
    have hsplit : text ++ endloopTag = (text ++ endloopTag.dropLast) ++ [125] := by
      rw [List.append_assoc]
      rfl
    refine stringnfind_pos_iff (by decide) ?_ ?_
    · rw [Slice.sub_reads, add_zero]
      exact (Slice.reads_of_append (hsplit ▸ h)).1
    · rw [Slice.sub_length, List.length_append, List.length_dropLast, endloopTag_length]
      push_cast
      omega
  rw [findTagEndLoop, hpos1]
  dsimp only
  rw [if_neg (by omega), if_neg (by omega : ¬ S.length - (text.length + 8) < offset)]
  by_cases hstart : indexBehind loopTag 0 (text ++ endloopTag.dropLast) = none
  · rw [if_pos (hpos2.mpr hstart), if_pos hstart, if_pos (by decide), ← add_assoc]
  · rw [if_neg fun hpos => hstart (hpos2.mp hpos), if_neg hstart, if_neg (by decide)]
    omega

/-- Which index the search for a start tag has in a region, from whether one has been seen there. -/
theorem indexBehind_loopTag_seen {pre : List UInt8} {started : Bool}
    (hpre : indexBehind loopTag 0 pre = if started then none else some 0) (text : List UInt8) :
    indexBehind loopTag 0 (pre ++ text) =
      if started then none else indexBehind loopTag 0 text := by
  rw [indexBehind_append, hpre]
  cases started <;> rfl

/-- An end tag is nothing in the search for a start tag. -/
theorem indexBehind_loopTag_finish (t : LoopOther) :
    indexBehind loopTag 0 (t.text ++ endloopTag) = some 0 ∧
      indexBehind loopTag 0 (t.text ++ endloopTag.dropLast) = some 0 := by
  obtain ⟨j, hj, hindex⟩ := indexBehind_plain (by decide) (t.plain .start)
  rw [indexBehind_append, indexBehind_append, LoopTag.text] at *
  rw [hindex]
  exact indexBehind_start_end j (by rwa [loopTag_length] at hj)

/-- A start tag is seen, or sets the index back. -/
theorem indexBehind_loopTag_start (t : LoopOther) :
    indexBehind loopTag 0 (t.text ++ loopTag) =
      if TaggedText.Seen ⟨t, .start⟩ then none else some 0 := by
  obtain ⟨j, hj, hindex⟩ := indexBehind_plain (by decide) (t.plain .start)
  have hseen : TaggedText.Seen ⟨t, .start⟩ ↔ j = 0 := by
    rw [TaggedText.Seen, hindex, Option.some.injEq]
  rw [LoopTag.text] at hj hindex
  rw [indexBehind_append, hindex, Option.bind_some]
  by_cases hzero : j = 0
  · rw [hzero, if_pos (hseen.mpr hzero)]
    exact indexBehind_start_start.1
  · rw [if_neg fun h => hzero (hseen.mp h)]
    exact indexBehind_start_start.2 j (by rwa [loopTag_length] at hj) hzero

/-- A start tag is nothing in the search for an end tag. -/
theorem indexBehind_endloopTag_start (t : LoopOther) :
    indexBehind endloopTag 0 (t.text ++ loopTag) = some 0 := by
  obtain ⟨j, hj, hindex⟩ := indexBehind_plain (by decide) (t.plain .finish)
  rw [LoopTag.text] at hj hindex
  rw [indexBehind_append, hindex, Option.bind_some]
  exact indexBehind_end_start j (by rwa [endloopTag_length] at hj)

/-- An end tag that is not seen sets the index back. -/
theorem indexBehind_endloopTag_unseen {t : LoopOther} (h : ¬ TaggedText.Seen ⟨t, .finish⟩) :
    indexBehind endloopTag 0 (t.text ++ endloopTag) = some 0 := by
  obtain ⟨j, hj, hindex⟩ := indexBehind_plain (by decide) (t.plain .finish)
  rw [TaggedText.Seen] at h
  rw [hindex] at h
  rw [LoopTag.text] at hj hindex
  rw [indexBehind_append, hindex, Option.bind_some]
  exact indexBehind_end_end j (by rwa [endloopTag_length] at hj) fun hzero => h (by rw [hzero])

theorem FindsLast.cons_iff (started : Bool) (t : TaggedText) {behind : List TaggedText}
    (h : behind ≠ []) :
    FindsLast started (t :: behind) ↔
      if t.Seen then
        match t.tag with
        | .start => FindsLast true behind
        | .finish => started = true ∧ FindsLast false behind
      else FindsLast started behind := by
  cases behind with
  | nil => exact absurd rfl h
  | cons t' behind => exact Iff.rfl

theorem printTags_cons (t : TaggedText) (tags : List TaggedText) :
    printTags (t :: tags) = t.before.text ++ t.tag.text ++ printTags tags := rfl

theorem printTags_append_finish (init : List TaggedText) (last : LoopOther) :
    printTags (init ++ [⟨last, .finish⟩]) = printTags init ++ (last.text ++ endloopTag) := by
  simp [printTags, LoopTag.text]

/-- A round that finds an end tag, behind what has been passed in it: it is the last one, if no
start tag has been seen. -/
theorem findTagEndLoop_finish {S : Slice} {t : LoopOther} {pre behind : List UInt8}
    {started : Bool} {offset : Int} (hseen : TaggedText.Seen ⟨t, .finish⟩)
    (h : S.reads offset (pre ++ (t.text ++ endloopTag) ++ behind) = true)
    (hpre : indexBehind endloopTag 0 pre = some 0)
    (hstart : indexBehind loopTag 0 pre = if started then none else some 0)
    (hend : offset + (pre ++ t.text).length + 9 ≤ S.length) (rounds : Nat) :
    findTagEndLoop S loopTag endloopTag (rounds + 1) offset 1 =
      if started then
        findTagEndLoop S loopTag endloopTag rounds (offset + (pre ++ t.text).length + 8) 1
      else offset + (pre ++ t.text).length + 9 := by
  have hindex : indexBehind endloopTag 0 (pre ++ t.text) = some 0 := by
    rw [indexBehind_append, hpre]
    exact hseen
  obtain ⟨hreads, -⟩ := Slice.reads_of_append h
  rw [← List.append_assoc] at hreads
  rw [findTagEndLoop_round hreads hindex hend, List.append_assoc,
    indexBehind_loopTag_seen hstart, (indexBehind_loopTag_finish t).2]
  cases started <;> simp

/-- Behind such a round the slice reads on with the last byte of the end tag. -/
theorem Slice.reads_behindFinish {S : Slice} {text behind : List UInt8} {offset : Int}
    (h : S.reads offset (text ++ endloopTag ++ behind) = true) :
    S.reads (offset + text.length + 8) ([125] ++ behind) = true := by
  have hsplit : text ++ endloopTag ++ behind =
      text ++ (endloopTag.dropLast ++ ([125] ++ behind)) := by
    rw [List.append_assoc]
    rfl
  rw [hsplit] at h
  exact (Slice.reads_of_append (Slice.reads_of_append h).2).2

/-- The last end tag, behind what has been passed in this round. -/
theorem findTagEndLoop_last {S : Slice} (last : LoopOther) {pre : List UInt8} {started : Bool}
    {offset : Int} (h0 : 0 ≤ offset)
    (h : S.reads offset (pre ++ (last.text ++ endloopTag)) = true)
    (hpre : indexBehind endloopTag 0 pre = some 0)
    (hstart : indexBehind loopTag 0 pre = if started then none else some 0)
    (hend : offset + (pre ++ (last.text ++ endloopTag)).length ≤ S.length) (rounds : Nat) :
    findTagEndLoop S loopTag endloopTag (rounds + 1) offset 1 =
        offset + (pre ++ (last.text ++ endloopTag)).length ↔
      TaggedText.Seen ⟨last, .finish⟩ ∧ started = false := by
  by_cases hseen : TaggedText.Seen ⟨last, .finish⟩
  · have hlength : ((pre ++ (last.text ++ endloopTag)).length : Int) =
        (pre ++ last.text).length + 9 := by
      rw [← List.append_assoc, List.length_append, endloopTag_length]
      push_cast
      rfl
    rw [@findTagEndLoop_finish S last pre [] started offset hseen (by rwa [List.append_nil]) hpre
      hstart (by omega), hlength]
    cases started with
    | false => simp [hseen, add_assoc]
    | true =>
        have hge := @findTagEndLoop_ge S rounds (offset + (pre ++ last.text).length + 8)
          (by omega) 1
        simp only [if_true]
        refine iff_of_false (fun heq => ?_) (by simp)
        -- The search found nothing or went on behind this end tag.
        rw [heq] at hge
        omega
  · have hindex : indexBehind endloopTag 0 (pre ++ (last.text ++ endloopTag)) = some 0 := by
      rw [indexBehind_append, hpre]
      exact indexBehind_endloopTag_unseen hseen
    have hbehind := findTagEndLoop_behind h hindex hend (rounds + 1) 1
    refine iff_of_false (fun heq => ?_) fun hand => hseen hand.1
    omega

/-- An end tag that is seen, with tags behind it: the search goes on if a start tag came before, and
ends too early if none did. -/
theorem findTagEndLoop_seen {S : Slice} {t : LoopOther} {pre : List UInt8}
    {behind : List TaggedText} {started : Bool} {offset : Int} {rounds : Nat}
    (hseen : TaggedText.Seen ⟨t, .finish⟩)
    (h : S.reads offset (pre ++ (t.text ++ endloopTag) ++ printTags behind) = true)
    (hpre : indexBehind endloopTag 0 pre = some 0)
    (hstart : indexBehind loopTag 0 pre = if started then none else some 0)
    (hend : offset + ((pre ++ t.text).length + 9 + (printTags behind).length) ≤ S.length)
    (hbehind : 0 < (printTags behind).length)
    (hnext : findTagEndLoop S loopTag endloopTag rounds (offset + (pre ++ t.text).length + 8) 1 =
        offset + (pre ++ t.text).length + 8 + (1 + (printTags behind).length) ↔
      FindsLast false behind) :
    findTagEndLoop S loopTag endloopTag (rounds + 1) offset 1 =
        offset + ((pre ++ t.text).length + 9 + (printTags behind).length) ↔
      started = true ∧ FindsLast false behind := by
  rw [findTagEndLoop_finish hseen h hpre hstart (by omega)]
  cases started with
  | false =>
      refine iff_of_false (fun heq => ?_) (by simp)
      rw [if_neg (by simp)] at heq
      omega
  | true =>
      simp only [if_true, true_and]
      rw [← hnext]
      constructor <;> intro heq <;> omega

/-- The search from a place in the text, behind what has been passed in this round. -/
theorem findTagEndLoop_tags {S : Slice} (last : LoopOther) {init : List TaggedText}
    {pre : List UInt8} {started : Bool} {offset : Int} {rounds : Nat} (h0 : 0 ≤ offset)
    (h : S.reads offset (pre ++ printTags (init ++ [⟨last, .finish⟩])) = true)
    (hpre : indexBehind endloopTag 0 pre = some 0)
    (hstart : indexBehind loopTag 0 pre = if started then none else some 0)
    (hend : offset + (pre ++ printTags (init ++ [⟨last, .finish⟩])).length ≤ S.length)
    (hrounds : init.length < rounds) :
    findTagEndLoop S loopTag endloopTag rounds offset 1 =
        offset + (pre ++ printTags (init ++ [⟨last, .finish⟩])).length ↔
      FindsLast started (init ++ [⟨last, .finish⟩]) := by
  induction init generalizing pre started offset rounds with
  | nil =>
      obtain ⟨rounds, rfl⟩ : ∃ n, rounds = n + 1 := ⟨rounds - 1, by simp at hrounds; omega⟩
      have hprint : printTags ([] ++ [⟨last, .finish⟩]) = last.text ++ endloopTag := by
        simp [printTags, LoopTag.text]
      rw [hprint] at h hend ⊢
      exact findTagEndLoop_last last h0 h hpre hstart hend rounds
  | cons t init ih =>
      obtain ⟨t, tag⟩ := t
      have hbehind : 0 < (printTags (init ++ [⟨last, .finish⟩])).length := by
        rw [printTags_append_finish, List.length_append, List.length_append, endloopTag_length]
        omega
      rw [List.cons_append, FindsLast.cons_iff started _ (by simp)]
      rw [List.length_cons] at hrounds
      rw [List.cons_append, printTags_cons, ← List.append_assoc] at h hend
      rw [printTags_cons, ← List.append_assoc]
      generalize hrest : init ++ [(⟨last, .finish⟩ : TaggedText)] = behind at *
      cases tag with
      | start =>
          have hpre' : indexBehind endloopTag 0 (pre ++ (t.text ++ loopTag)) = some 0 := by
            rw [indexBehind_append, hpre]
            exact indexBehind_endloopTag_start t
          have hstart' : indexBehind loopTag 0 (pre ++ (t.text ++ loopTag)) =
              if (started || decide (TaggedText.Seen ⟨t, .start⟩)) = true then none
              else some 0 := by
            rw [indexBehind_loopTag_seen hstart, indexBehind_loopTag_start]
            cases started <;> simp
          refine (ih h0 h hpre' hstart' hend (by omega)).trans ?_
          by_cases hseen : TaggedText.Seen ⟨t, .start⟩
          · simp [hseen]
          · simp [hseen]
      | finish =>
          change S.reads offset (pre ++ (t.text ++ endloopTag) ++ printTags behind) = true at h
          change offset + (pre ++ (t.text ++ endloopTag) ++ printTags behind).length ≤ S.length
            at hend
          change findTagEndLoop S loopTag endloopTag rounds offset 1 =
            offset + (pre ++ (t.text ++ endloopTag) ++ printTags behind).length ↔ _
          by_cases hseen : TaggedText.Seen ⟨t, .finish⟩
          · obtain ⟨rounds, rfl⟩ : ∃ n, rounds = n + 1 := ⟨rounds - 1, by omega⟩
            have hlength : ((pre ++ (t.text ++ endloopTag) ++ printTags behind).length : Int) =
                (pre ++ t.text).length + 9 + (printTags behind).length := by
              simp [endloopTag_length]
              omega
            rw [hlength] at hend
            have hone : (([125] ++ printTags behind).length : Int) =
                1 + (printTags behind).length := by
              rw [List.length_append]
              rfl
            have hreads := h
            rw [← List.append_assoc] at hreads
            -- the next round starts with the last byte of this end tag
            have hnext := @ih [125] false (offset + (pre ++ t.text).length + 8) rounds
              (by omega) (Slice.reads_behindFinish hreads) rfl rfl (by rw [hone]; omega) (by omega)
            rw [hone] at hnext
            rw [if_pos hseen, hlength]
            exact findTagEndLoop_seen hseen h hpre hstart hend hbehind hnext
          · -- the end tag is overlooked, and passed like any other text
            have hpre' : indexBehind endloopTag 0 (pre ++ (t.text ++ endloopTag)) = some 0 := by
              rw [indexBehind_append, hpre]
              exact indexBehind_endloopTag_unseen hseen
            have hstart' : indexBehind loopTag 0 (pre ++ (t.text ++ endloopTag)) =
                if started then none else some 0 := by
              rw [indexBehind_loopTag_seen hstart, (indexBehind_loopTag_finish t).1]
            rw [if_neg hseen]
            exact ih h0 h hpre' hstart' hend (by omega)

/-! ## The end tag of a loop -/

/-- The tags of a text end with the tag behind it. -/
theorem LoopText.tagsBefore_eq (w : LoopText) :
    ∃ init last, ∀ behind,
      w.tagsBefore behind = init ++ (⟨last, .finish⟩ : TaggedText) :: behind := by
  induction w with
  | other t => exact ⟨[], t, fun behind => rfl⟩
  | block t body rest ihbody ihrest =>
      obtain ⟨init, last, hbody⟩ := ihbody
      obtain ⟨init', last', hrest⟩ := ihrest
      refine ⟨⟨t, .start⟩ :: (init ++ ⟨last, .finish⟩ :: init'), last', fun behind => ?_⟩
      rw [tagsBefore, hrest, hbody]
      simp

theorem printTags_length_ge (tags : List TaggedText) : tags.length ≤ (printTags tags).length := by
  induction tags with
  | nil => exact Nat.le_refl 0
  | cons t tags ih =>
      have hpos : 0 < t.tag.text.length := by cases t.tag <;> decide
      rw [printTags_cons, List.length_append, List.length_append, List.length_cons]
      omega

/-- For every text of nested loops, with a loop tag before it and the end tag of that loop behind
it: `find_tag_end_pos` returns the position behind this end tag if and only if it finds the last end
tag of the text. -/
theorem findTagEndPos_iff {S : Slice} (w : LoopText)
    (h : S.reads 0 (w.print ++ endloopTag) = true)
    (hend : (w.print ++ endloopTag).length ≤ S.length) :
    findTagEndPos S loopTag endloopTag = (w.print ++ endloopTag).length ↔
      FindsLast false w.tags := by
  obtain ⟨init, last, htags⟩ := w.tagsBefore_eq
  have hprint : printTags (init ++ [⟨last, .finish⟩]) = w.print ++ endloopTag := by
    rw [← htags, w.printTags_tagsBefore]
    exact congrArg (w.print ++ ·) (List.append_nil endloopTag)
  have hlength := printTags_length_ge (init ++ [⟨last, .finish⟩])
  rw [hprint, List.length_append, List.length_singleton] at hlength
  rw [← hprint] at h hend
  rw [LoopText.tags, htags, findTagEndPos, ← hprint]
  have hsearch := @findTagEndLoop_tags S last init [] false 0 (S.length.toNat + 1) (Int.le_refl 0)
    h rfl rfl (by rwa [List.nil_append, Int.zero_add])
    (by rw [hprint] at hend; omega)
  rwa [List.nil_append, Int.zero_add] at hsearch

/-- Text without an opening brace. -/
def LoopOther.ofPlain (text : List UInt8) (h : ∀ c ∈ text, c ≠ 123) : LoopOther where
  text := text
  plain := by
    intro tag hin
    have hmem : (123 : UInt8) ∈ tag.text := by cases tag <;> decide +kernel
    exact h 123 (hin.subset hmem) rfl

theorem plain_nil : ∀ c ∈ ([] : List UInt8), c ≠ 123 := by decide +kernel

theorem plain_name : ∀ c ∈ ascii "a\x7dx", c ≠ 123 := by decide +kernel

theorem plain_letter : ∀ c ∈ ascii "y", c ≠ 123 := by decide +kernel

/-- `{loop:a}x{endloop}y{loop:b}z{endloop}w` behind a loop tag: two loops side by side. -/
def siblingLoops : LoopText :=
  .block (.ofPlain [] plain_nil) (.other (.ofPlain (ascii "a\x7dx") plain_name))
    (.block (.ofPlain (ascii "y") plain_letter)
      (.other (.ofPlain (ascii "b\x7dz") (by decide +kernel)))
      (.other (.ofPlain (ascii "w") (by decide +kernel))))

/-- `{loop:a}{loop:b}x{endloop}{endloop}` behind a loop tag: a loop in a loop. -/
def nestedLoops : LoopText :=
  .block (.ofPlain [] plain_nil)
    (.block (.ofPlain (ascii "a\x7d") (by decide +kernel))
      (.other (.ofPlain (ascii "b\x7dx") (by decide +kernel)))
      (.other (.ofPlain [] plain_nil)))
    (.other (.ofPlain [] plain_nil))

theorem findTagEndPos_iff_siblings :
    findTagEndPos (Page.ofBytes (siblingLoops.print ++ endloopTag)).whole loopTag endloopTag =
        (siblingLoops.print ++ endloopTag).length ↔
      FindsLast false siblingLoops.tags :=
  findTagEndPos_iff siblingLoops (by decide +kernel) (by decide +kernel)

/-- Behind a loop with a loop in it, the end tag of the outer one of the two is taken. -/
theorem findTagEndPos_fails :
    ¬ ∀ (S : Slice) (w : LoopText), S.reads 0 (w.print ++ endloopTag) = true →
      (w.print ++ endloopTag).length ≤ S.length →
      findTagEndPos S loopTag endloopTag = (w.print ++ endloopTag).length := by
  intro h
  exact absurd (h (Page.ofBytes (nestedLoops.print ++ endloopTag)).whole nestedLoops
    (by decide +kernel) (by decide +kernel)) (by decide +kernel)

/-! ## Loops side by side -/

/-- No loop stands in a loop. -/
def LoopText.Flat : LoopText → Prop
  | .other _ => True
  | .block _ body rest => (∃ t, body = .other t) ∧ rest.Flat

/-- How many of the tags are of a kind. -/
def countTags (tag : LoopTag) (tags : List TaggedText) : Nat := tags.countP fun t => t.tag == tag

@[simp] theorem countTags_cons (tag : LoopTag) (t : TaggedText) (tags : List TaggedText) :
    countTags tag (t :: tags) = countTags tag tags + if t.tag = tag then 1 else 0 := by
  rw [countTags, countTags, List.countP_cons]
  simp

/-- If the last end tag is found, there are no more end tags than start tags before them. -/
theorem FindsLast.count_le {started : Bool} {tags : List TaggedText}
    (hseen : ∀ t ∈ tags, t.Seen) (h : FindsLast started tags) :
    countTags .finish tags ≤ countTags .start tags + (if started then 2 else 1) := by
  induction tags generalizing started with
  | nil => exact absurd h id
  | cons t tags ih =>
      obtain ⟨ht, htags⟩ := List.forall_mem_cons.mp hseen
      rcases eq_or_ne tags [] with rfl | hne
      · obtain ⟨-, rfl⟩ := h
        have hone : countTags .finish [t] ≤ 1 := List.countP_le_length
        simp only [Bool.false_eq_true, if_false]
        omega
      · rw [FindsLast.cons_iff _ _ hne, if_pos ht] at h
        obtain ⟨before, tag⟩ := t
        cases tag with
        | start =>
            have hle := ih htags h
            simp only [if_true] at hle
            simp only [countTags_cons, reduceCtorEq, if_true, if_false]
            split <;> omega
        | finish =>
            have hle := ih htags h.2
            simp only [Bool.false_eq_true, if_false] at hle
            simp only [countTags_cons, reduceCtorEq, h.1, if_true, if_false]
            omega

/-- Every loop has a start tag and an end tag, and one more end tag stands behind the text. -/
theorem LoopText.count_tagsBefore (w : LoopText) (behind : List TaggedText) :
    countTags .finish (w.tagsBefore behind) + countTags .start behind =
      countTags .start (w.tagsBefore behind) + countTags .finish behind + 1 := by
  induction w generalizing behind with
  | other t =>
      simp only [tagsBefore, countTags_cons, reduceCtorEq, if_true, if_false]
      omega
  | block t body rest ihbody ihrest =>
      have hbody := ihbody (rest.tagsBefore behind)
      have hrest := ihrest behind
      simp only [tagsBefore, countTags_cons, reduceCtorEq, if_true, if_false]
      omega

/-- If all tags are seen, the end tag is found exactly behind texts in which no loop stands in a
loop. -/
theorem findsLast_iff_flat (w : LoopText) (hseen : ∀ t ∈ w.tags, t.Seen) :
    FindsLast false w.tags ↔ w.Flat := by
  induction w with
  | other t => exact iff_of_true ⟨hseen _ List.mem_cons_self, rfl⟩ trivial
  | block t body rest _ ihrest =>
      cases body with
      | other t' =>
          have hrest : ∀ t ∈ rest.tags, t.Seen := fun x hx => hseen x (by
            simp only [LoopText.tags, LoopText.tagsBefore, List.mem_cons]
            exact Or.inr (Or.inr hx))
          have hne : rest.tags ≠ [] := by cases rest <;> exact List.cons_ne_nil _ _
          have ht : TaggedText.Seen ⟨t, .start⟩ := hseen _ List.mem_cons_self
          have ht' : TaggedText.Seen ⟨t', .finish⟩ :=
            hseen _ (List.mem_cons_of_mem _ List.mem_cons_self)
          change FindsLast false (⟨t, .start⟩ :: ⟨t', .finish⟩ :: rest.tags) ↔ _
          rw [FindsLast.cons_iff _ _ (List.cons_ne_nil _ _), if_pos ht,
            FindsLast.cons_iff _ _ hne, if_pos ht', LoopText.Flat, ← ihrest hrest]
          simp
      | block t' body' rest' =>
          refine iff_of_false (fun h => ?_) fun hflat => nomatch hflat.1
          -- Two start tags in a row, so there are not enough of them between the end tags.
          have hcount := LoopText.count_tagsBefore (.block t (.block t' body' rest') rest) []
          change FindsLast false (⟨t, .start⟩ :: ⟨t', .start⟩ ::
            body'.tagsBefore (rest'.tagsBefore rest.tags)) at h
          change countTags .finish (⟨t, .start⟩ :: ⟨t', .start⟩ ::
            body'.tagsBefore (rest'.tagsBefore rest.tags)) + 0 = countTags .start (⟨t, .start⟩ ::
              ⟨t', .start⟩ :: body'.tagsBefore (rest'.tagsBefore rest.tags)) + 0 + 1 at hcount
          change ∀ x ∈ (⟨t, .start⟩ : TaggedText) :: ⟨t', .start⟩ ::
            body'.tagsBefore (rest'.tagsBefore rest.tags), x.Seen at hseen
          generalize body'.tagsBefore (rest'.tagsBefore rest.tags) = inner at h hcount hseen
          obtain ⟨ht, hrest⟩ := List.forall_mem_cons.mp hseen
          obtain ⟨ht', hinner⟩ := List.forall_mem_cons.mp hrest
          simp only [countTags_cons, reduceCtorEq, if_true, if_false] at hcount
          have hne : inner ≠ [] := by
            rintro rfl
            simp [countTags] at hcount
          rw [FindsLast.cons_iff _ _ (List.cons_ne_nil _ _), if_pos ht,
            FindsLast.cons_iff _ _ hne, if_pos ht'] at h
          have hle := h.count_le hinner
          simp only [if_true] at hle
          omega

end CWebUI.Template
