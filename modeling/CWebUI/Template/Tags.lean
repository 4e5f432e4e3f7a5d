import CWebUI.Basic.Bytes
import Mathlib.Algebra.Order.Group.Int

set_option autoImplicit false

/-! # The tag searches of the template engine

`stringnfind` (`utils.c`), `getNextTag` and `find_tag_end_pos` (`engine_tags.c`) and
`find_if_tags_pos` (`engine_if.c`). They get a pointer into a page and a length. A page is a buffer
in memory: the bytes around it can be read, too, and some of the searches do read them. Lengths and
positions are integers, as they are in the source; pages are far shorter than `INT_MAX`.
-/

namespace CWebUI.Template

open ByteString

/-! ## Pages and slices -/

/-- A buffer in memory: `byte` is the memory as seen from its first byte. -/
structure Page where
  byte : Int → UInt8
  size : Nat

/-- A buffer that holds these bytes, with null bytes around it. -/
def Page.ofBytes (bytes : List UInt8) : Page :=
  ⟨fun i => if 0 ≤ i then bytes.getD i.toNat 0 else 0, bytes.length⟩

/-- `pagedata` and `datalenght`: a pointer into a page, and a length. -/
structure Slice where
  page : Page
  start : Int
  length : Int

/-- A whole page. -/
def Page.whole (p : Page) : Slice := ⟨p, 0, p.size⟩

/-- The slice lies in its page. -/
def Slice.InPage (S : Slice) : Prop := 0 ≤ S.start ∧ 0 ≤ S.length ∧ S.start + S.length ≤ S.page.size

instance (S : Slice) : Decidable S.InPage := inferInstanceAs (Decidable (_ ∧ _ ∧ _))

/-- `pagedata[i]` -/
def Slice.at (S : Slice) (i : Int) : UInt8 := S.page.byte (S.start + i)

/-- `&pagedata[i]`, with a length of its own. -/
def Slice.sub (S : Slice) (i length : Int) : Slice := ⟨S.page, S.start + i, length⟩

/-- The bytes of a slice. -/
def Slice.bytes (S : Slice) : List UInt8 := (List.range S.length.toNat).map fun k => S.at k

/-- The text stands at a position, as `strncmp` sees it: the length of the slice does not
matter. -/
def Slice.reads (S : Slice) (i : Int) : List UInt8 → Bool
  | [] => true
  | c :: text => S.at i == c && S.reads (i + 1) text

@[simp] theorem Slice.reads_nil (S : Slice) (i : Int) : S.reads i [] = true := rfl
@[simp] theorem Slice.reads_cons (S : Slice) (i : Int) (c : UInt8) (text : List UInt8) :
    S.reads i (c :: text) = (S.at i == c && S.reads (i + 1) text) := rfl

@[simp] theorem Slice.sub_page (S : Slice) (i length : Int) : (S.sub i length).page = S.page := rfl
@[simp] theorem Slice.sub_start (S : Slice) (i length : Int) :
    (S.sub i length).start = S.start + i := rfl
@[simp] theorem Slice.sub_length (S : Slice) (i length : Int) :
    (S.sub i length).length = length := rfl

@[simp] theorem Slice.sub_at (S : Slice) (i length j : Int) :
    (S.sub i length).at j = S.at (i + j) := by
  unfold Slice.at
  rw [Slice.sub_start, Slice.sub_page, add_assoc]

@[simp] theorem Slice.sub_reads (S : Slice) (i length j : Int) (text : List UInt8) :
    (S.sub i length).reads j text = S.reads (i + j) text := by
  induction text generalizing j with
  | nil => rfl
  | cons c text ih =>
      rw [Slice.reads_cons, Slice.reads_cons, Slice.sub_at, ih, ← add_assoc]

/-! ## `stringnfind` -/

/-- The loop of `stringnfind` from the position `i` with the index `i2` into the pattern, over the
bytes that remain. -/
def stringnfindLoop (S : Slice) (pattern : List UInt8) : Nat → Int → Nat → Int
  | 0, _, _ => -1
  | n + 1, i, i2 =>
      if S.at i == pattern.getD i2 0 then
        if i2 + 1 = pattern.length then i else stringnfindLoop S pattern n (i + 1) (i2 + 1)
      else stringnfindLoop S pattern n (i + 1) 0

/-- `stringnfind`: the position of the last byte of the pattern, or -1. -/
def stringnfind (S : Slice) (pattern : List UInt8) : Int :=
  stringnfindLoop S pattern S.length.toNat 0 0

/-! ## The tags of a block -/

/-- `TAG_IDS` of the tags of `IF_TAG_GROUP`. -/
inductive TagId where
  | ifTag
  | elseTag
  | endifTag
  deriving DecidableEq, Repr

/-- The text of a tag. -/
def TagId.text : TagId → List UInt8
  | .ifTag => ascii "\x7bif:"
  | .elseTag => ascii "\x7belse\x7d"
  | .endifTag => ascii "\x7bendif\x7d"

/-- `if_tags` -/
def ifTags : List TagId := [.ifTag, .elseTag, .endifTag]

/-- The loop of `getNextTag` over the positions that remain. -/
def getNextTagLoop (S : Slice) : Nat → Int → Option (TagId × Int)
  | 0, _ => none
  | n + 1, i =>
      if S.at i = 123 then
        match ifTags.find? fun tag => S.reads i tag.text with
        | some tag => some (tag, i + tag.text.length)
        | none => getNextTagLoop S n (i + 1)
      else getNextTagLoop S n (i + 1)

/-- `getNextTag`: the first tag of the group that starts in the slice, and the position behind
it. -/
def getNextTag (S : Slice) : Option (TagId × Int) := getNextTagLoop S S.length.toNat 0

/-- `LOOP_TAG_TEXT` and `ENDLOOP_TAG_TEXT` -/
def loopTag : List UInt8 := ascii "\x7bloop:"
def endloopTag : List UInt8 := ascii "\x7bendloop\x7d"

/-- The rounds of `find_tag_end_pos`. -/
def findTagEndLoop (S : Slice) (startTag endTag : List UInt8) : Nat → Int → Nat → Int
  | 0, _, _ => -1
  | rounds + 1, offset, level =>
      let pos1 := stringnfind (S.sub offset (S.length - offset)) endTag
      if pos1 ≤ 0 then -1
      else
        let pos2 := stringnfind (S.sub offset pos1) startTag
        let level := if 0 < pos2 then level - 1 + 1 else level - 1
        if S.length - pos1 < offset then -1
        else if 0 < level then findTagEndLoop S startTag endTag rounds (offset + pos1) level
        else offset + pos1 + 1

/-- `find_tag_end_pos`: the position behind the end tag, or -1. Every round goes forward. -/
def findTagEndPos (S : Slice) (startTag endTag : List UInt8) : Int :=
  findTagEndLoop S startTag endTag (S.length.toNat + 1) 0 1

/-- The slices that the rounds of `find_tag_end_pos` search. -/
def tagEndSearches (S : Slice) (startTag endTag : List UInt8) : Nat → Int → Nat → List Slice
  | 0, _, _ => []
  | rounds + 1, offset, level =>
      let pos1 := stringnfind (S.sub offset (S.length - offset)) endTag
      if pos1 ≤ 0 then [S.sub offset (S.length - offset)]
      else
        let pos2 := stringnfind (S.sub offset pos1) startTag
        let level := if 0 < pos2 then level - 1 + 1 else level - 1
        S.sub offset (S.length - offset) :: S.sub offset pos1 ::
          if S.length - pos1 < offset then []
          else if 0 < level then tagEndSearches S startTag endTag rounds (offset + pos1) level
          else []

/-- The positions that `find_if_tags_pos` stores: behind the else tag of the block, or -1, and
behind its endif tag. -/
structure IfTags where
  elsePos : Int
  endifPos : Int
  deriving DecidableEq, Repr

/-- The rounds of `find_if_tags_pos`; `none` stands for its -1. -/
def findIfTagsLoop (S : Slice) : Nat → Int → Nat → Int → Option IfTags
  | 0, _, _, _ => none
  | rounds + 1, offset, level, elsePos =>
      match getNextTag (S.sub offset (S.length - offset)) with
      | none => none
      | some (.ifTag, pos) => findIfTagsLoop S rounds (offset + pos) (level + 1) elsePos
      | some (.elseTag, pos) =>
          findIfTagsLoop S rounds (offset + pos) level (if level = 0 then offset + pos else elsePos)
      | some (.endifTag, pos) =>
          if level = 0 then some ⟨elsePos, offset + pos⟩
          else findIfTagsLoop S rounds (offset + pos) (level - 1) elsePos

/-- `find_if_tags_pos`. Every round goes forward. -/
def findIfTagsPos (S : Slice) : Option IfTags := findIfTagsLoop S (S.length.toNat + 1) 0 0 (-1)

/-- The slices that the rounds of `find_if_tags_pos` search. -/
def ifTagSearches (S : Slice) : Nat → Int → Nat → List Slice
  | 0, _, _ => []
  | rounds + 1, offset, level =>
      S.sub offset (S.length - offset) ::
        match getNextTag (S.sub offset (S.length - offset)) with
        | none => []
        | some (.ifTag, pos) => ifTagSearches S rounds (offset + pos) (level + 1)
        | some (.elseTag, pos) => ifTagSearches S rounds (offset + pos) level
        | some (.endifTag, pos) =>
            if level = 0 then [] else ifTagSearches S rounds (offset + pos) (level - 1)

/-! ## What the searches find -/

theorem Slice.reads_append (S : Slice) (i : Int) (a b : List UInt8) :
    S.reads i (a ++ b) = (S.reads i a && S.reads (i + a.length) b) := by
  induction a generalizing i with
  | nil => simp
  | cons c a ih =>
      rw [List.cons_append, Slice.reads_cons, Slice.reads_cons, ih, Bool.and_assoc, List.length_cons,
        show i + 1 + (a.length : Int) = i + ((a.length + 1 : Nat) : Int) by push_cast; omega]

/-- A text that stands somewhere can be read byte for byte. -/
theorem Slice.reads_iff (S : Slice) (i : Int) (text : List UInt8) :
    S.reads i text = true ↔ ∀ k (h : k < text.length), S.at (i + k) = text[k] := by
  induction text generalizing i with
  | nil => simp
  | cons c text ih =>
      rw [Slice.reads_cons, Bool.and_eq_true, beq_iff_eq, ih]
      constructor
      · rintro ⟨h0, hrest⟩ k hk
        cases k with
        | zero => simpa using h0
        | succ k =>
            have := hrest k (by simpa using hk)
            rw [List.getElem_cons_succ, ← this]
            congr 1
            push_cast
            omega
      · intro h
        refine ⟨by rw [← add_zero i]; exact h 0 (by simp), fun k hk => ?_⟩
        have := h (k + 1) (by simpa using hk)
        rw [List.getElem_cons_succ] at this
        rw [← this]
        congr 1
        push_cast
        omega

/-- What `stringnfind` finds ends at the position that it returns. -/
theorem stringnfindLoop_spec {S : Slice} {pattern : List UInt8} (n : Nat) (i : Int) (i2 : Nat)
    (hlt : i2 < pattern.length) (hi : i2 ≤ i) (h : S.reads (i - i2) (pattern.take i2) = true) :
    stringnfindLoop S pattern n i i2 = -1 ∨
      (i ≤ stringnfindLoop S pattern n i i2 ∧ stringnfindLoop S pattern n i i2 < i + n ∧
        pattern.length ≤ stringnfindLoop S pattern n i i2 + 1 ∧
        S.reads (stringnfindLoop S pattern n i i2 + 1 - pattern.length) pattern = true) := by
  induction n generalizing i i2 with
  | zero => exact Or.inl rfl
  | succ n ih =>
      unfold stringnfindLoop
      split
      · next heq =>
        have htake : S.reads (i - i2) (pattern.take (i2 + 1)) = true := by
          rw [List.take_add_one, Slice.reads_append, h, List.getElem?_eq_getElem hlt,
            List.length_take_of_le (by omega)]
          rw [List.getD_eq_getElem?_getD, List.getElem?_eq_getElem hlt, beq_iff_eq] at heq
          simpa using heq
        split
        · next hlen =>
          refine Or.inr ⟨le_refl _, by omega, by omega, ?_⟩
          rw [hlen, List.take_length] at htake
          rwa [show i + 1 - (pattern.length : Int) = i - i2 by omega]
        · next hlen =>
          rcases ih (i + 1) (i2 + 1) (by omega) (by push_cast; omega)
            (by rwa [show i + 1 - ((i2 + 1 : Nat) : Int) = i - i2 by push_cast; omega]) with h | h
          · exact Or.inl h
          · exact Or.inr ⟨by omega, by omega, h.2.2⟩
      · rcases ih (i + 1) 0 (by omega) (by push_cast; omega) rfl with h | h
        · exact Or.inl h
        · exact Or.inr ⟨by omega, by omega, h.2.2⟩

theorem stringnfind_spec (S : Slice) {pattern : List UInt8} (hne : pattern ≠ [])
    (hlen : 0 ≤ S.length) :
    stringnfind S pattern = -1 ∨
      (stringnfind S pattern < S.length ∧ pattern.length ≤ stringnfind S pattern + 1 ∧
        S.reads (stringnfind S pattern + 1 - pattern.length) pattern = true) := by
  rcases stringnfindLoop_spec (S := S) S.length.toNat 0 0 (List.length_pos_iff.mpr hne) (by simp)
    rfl with h | ⟨_, hlt, h⟩
  · exact Or.inl h
  · exact Or.inr ⟨by unfold stringnfind; omega, h⟩

/-- What `find_tag_end_pos` finds: the end tag stands before the position that it returns. -/
theorem findTagEndLoop_spec {S : Slice} {startTag endTag : List UInt8} (hne : endTag ≠ [])
    (rounds : Nat) (offset : Int) (level : Nat) (h0 : 0 ≤ offset) (hle : offset ≤ S.length) :
    findTagEndLoop S startTag endTag rounds offset level = -1 ∨
      (endTag.length ≤ findTagEndLoop S startTag endTag rounds offset level ∧
        findTagEndLoop S startTag endTag rounds offset level ≤ S.length ∧
        S.reads (findTagEndLoop S startTag endTag rounds offset level - endTag.length) endTag
          = true) := by
  induction rounds generalizing offset level with
  | zero => exact Or.inl rfl
  | succ rounds ih =>
      unfold findTagEndLoop
      dsimp only
      rcases stringnfind_spec (S.sub offset (S.length - offset)) hne (by simpa using hle) with
        hnot | ⟨hlt, hlen, hreads⟩
      · rw [if_pos (by omega)]
        exact Or.inl rfl
      · rw [Slice.sub_length] at hlt
        rw [Slice.sub_reads] at hreads
        generalize stringnfind (S.sub offset (S.length - offset)) endTag = pos1 at *
        by_cases hpos : pos1 ≤ 0
        · rw [if_pos hpos]
          exact Or.inl rfl
        · rw [if_neg hpos, if_neg (by omega)]
          generalize (if 0 < stringnfind (S.sub offset pos1) startTag then level - 1 + 1
            else level - 1) = level'
          split
          · exact ih _ _ (by omega) (by omega)
          · refine Or.inr ⟨by omega, by omega, ?_⟩
            rwa [show offset + pos1 + 1 - (endTag.length : Int)
              = offset + (pos1 + 1 - endTag.length) by omega]

theorem findTagEndPos_spec {S : Slice} {startTag endTag : List UInt8} (hne : endTag ≠ [])
    (hlen : 0 ≤ S.length) :
    findTagEndPos S startTag endTag = -1 ∨
      (endTag.length ≤ findTagEndPos S startTag endTag ∧
        findTagEndPos S startTag endTag ≤ S.length ∧
        S.reads (findTagEndPos S startTag endTag - endTag.length) endTag = true) :=
  findTagEndLoop_spec hne _ 0 1 (le_refl _) hlen

/-- The rounds of `find_tag_end_pos` stay in the slice. -/
theorem tagEndSearches_spec {S : Slice} {startTag endTag : List UInt8} (hne : endTag ≠ [])
    (rounds : Nat) (offset : Int) (level : Nat) (h0 : 0 ≤ offset) (hle : offset ≤ S.length) :
    ∀ X ∈ tagEndSearches S startTag endTag rounds offset level, ∃ a b, X = S.sub a b ∧
      0 ≤ a ∧ 0 ≤ b ∧ a + b ≤ S.length := by
  induction rounds generalizing offset level with
  | zero =>
      intro X hX
      cases hX
  | succ rounds ih =>
      intro X hX
      unfold tagEndSearches at hX
      dsimp only at hX
      have hrest : ∃ a b, S.sub offset (S.length - offset) = S.sub a b ∧ 0 ≤ a ∧ 0 ≤ b ∧
          a + b ≤ S.length := ⟨offset, S.length - offset, rfl, h0, by omega, by omega⟩
      rcases stringnfind_spec (S.sub offset (S.length - offset)) hne (by simpa using hle) with
        hnot | ⟨hlt, _, _⟩
      · rw [if_pos (by omega), List.mem_singleton] at hX
        exact hX ▸ hrest
      · rw [Slice.sub_length] at hlt
        generalize stringnfind (S.sub offset (S.length - offset)) endTag = pos1 at *
        by_cases hpos : pos1 ≤ 0
        · rw [if_pos hpos, List.mem_singleton] at hX
          exact hX ▸ hrest
        · rw [if_neg hpos, if_neg (by omega)] at hX
          generalize (if 0 < stringnfind (S.sub offset pos1) startTag then level - 1 + 1
            else level - 1) = level' at hX
          rcases List.mem_cons.mp hX with rfl | hX
          · exact hrest
          · rcases List.mem_cons.mp hX with rfl | hX
            · exact ⟨offset, pos1, rfl, h0, by omega, by omega⟩
            · split at hX
              · exact ih _ _ (by omega) (by omega) X hX
              · cases hX

/-- What `getNextTag` finds: the tag starts in the slice. -/
theorem getNextTagLoop_spec {S : Slice} (n : Nat) (i : Int) {tag : TagId} {pos : Int}
    (h : getNextTagLoop S n i = some (tag, pos)) :
    ∃ j, i ≤ j ∧ j < i + n ∧ S.reads j tag.text = true ∧ pos = j + tag.text.length := by
  induction n generalizing i with
  | zero => cases h
  | succ n ih =>
      have hnext (h : getNextTagLoop S n (i + 1) = some (tag, pos)) :
          ∃ j, i ≤ j ∧ j < i + (n + 1 : Nat) ∧ S.reads j tag.text = true ∧
            pos = j + tag.text.length := by
        obtain ⟨j, h1, h2, h3⟩ := ih (i + 1) h
        exact ⟨j, by omega, by push_cast; omega, h3⟩
      unfold getNextTagLoop at h
      split at h
      · split at h
        · next tag' hfind =>
          cases h
          exact ⟨i, le_refl _, by push_cast; omega, by simpa using List.find?_some hfind, rfl⟩
        · exact hnext h
      · exact hnext h

theorem getNextTag_spec {S : Slice} {tag : TagId} {pos : Int}
    (h : getNextTag S = some (tag, pos)) :
    ∃ j, 0 ≤ j ∧ j < S.length ∧ S.reads j tag.text = true ∧ pos = j + tag.text.length := by
  obtain ⟨j, h1, h2, h3⟩ := getNextTagLoop_spec _ _ h
  exact ⟨j, h1, by omega, h3⟩

theorem ifTag_length : TagId.ifTag.text.length = 4 := by decide
theorem elseTag_length : TagId.elseTag.text.length = 6 := by decide
theorem endifTag_length : TagId.endifTag.text.length = 7 := by decide
theorem endloopTag_length : endloopTag.length = 9 := by decide

theorem TagId.text_pos (tag : TagId) : 0 < tag.text.length := by
  cases tag <;> decide

/-- The positions of the tags of a block. -/
structure IfTags.Ordered (tags : IfTags) : Prop where
  endif_le : 7 ≤ tags.endifPos
  else_cases : tags.elsePos = -1 ∨ (6 ≤ tags.elsePos ∧ tags.elsePos + 7 ≤ tags.endifPos)

theorem findIfTagsLoop_ordered {S : Slice} (rounds : Nat) (offset : Int) (level : Nat)
    (elsePos : Int) (h0 : 0 ≤ offset) (helse : elsePos = -1 ∨ (6 ≤ elsePos ∧ elsePos ≤ offset))
    {tags : IfTags} (h : findIfTagsLoop S rounds offset level elsePos = some tags) :
    tags.Ordered := by
  induction rounds generalizing offset level elsePos with
  | zero => cases h
  | succ rounds ih =>
      unfold findIfTagsLoop at h
      split at h
      · cases h
      · next pos hnext =>
        obtain ⟨j, hj, _, _, rfl⟩ := getNextTag_spec hnext
        have := TagId.ifTag.text_pos
        exact ih _ _ _ (by omega) (by omega) h
      · next pos hnext =>
        obtain ⟨j, hj, _, _, rfl⟩ := getNextTag_spec hnext
        rw [elseTag_length] at h
        refine ih _ _ _ (by omega) ?_ h
        split
        · exact Or.inr ⟨by omega, by omega⟩
        · omega
      · next pos hnext =>
        obtain ⟨j, hj, _, _, rfl⟩ := getNextTag_spec hnext
        rw [endifTag_length] at h
        split at h
        · cases h
          refine ⟨by dsimp only; omega, ?_⟩
          dsimp only
          omega
        · exact ih _ _ _ (by omega) (by omega) h

theorem findIfTagsPos_ordered {S : Slice} {tags : IfTags} (h : findIfTagsPos S = some tags) :
    tags.Ordered :=
  findIfTagsLoop_ordered _ 0 0 (-1) (le_refl _) (Or.inl rfl) h

/-- The rounds of `find_if_tags_pos` search to the end of the slice. -/
theorem ifTagSearches_spec {S : Slice} (rounds : Nat) (offset : Int) (level : Nat)
    (h0 : 0 ≤ offset) :
    ∀ X ∈ ifTagSearches S rounds offset level, ∃ a, 0 ≤ a ∧ X = S.sub a (S.length - a) := by
  induction rounds generalizing offset level with
  | zero =>
      intro X hX
      cases hX
  | succ rounds ih =>
      intro X hX
      unfold ifTagSearches at hX
      rcases List.mem_cons.mp hX with rfl | hX
      · exact ⟨offset, h0, rfl⟩
      · split at hX
        · cases hX
        all_goals
          next pos hnext =>
            obtain ⟨j, hj, _, _, rfl⟩ := getNextTag_spec hnext
            first
            | exact ih _ _ (by omega) X hX
            | split at hX
              · cases hX
              · exact ih _ _ (by omega) X hX

end CWebUI.Template
