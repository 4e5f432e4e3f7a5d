import CWebUI.Template.Trees

set_option autoImplicit false

/-! # Nested if blocks

What `find_if_tags_pos` (`engine_if.c`) finds behind an if tag, for every text of nested if blocks.
The rest of an opening tag, its condition and the brace, is part of the text behind it. The search
compares tags without a look at the length of the slice, so a tag that begins in the slice may end
behind it.
-/

namespace CWebUI.Template

open ByteString

/-! ## Texts -/

/-- Text without a tag of if blocks. -/
structure OtherText where
  text : List UInt8
  plain : ∀ tag : TagId, ¬ tag.text <:+: text

/-- A text in which all if blocks are closed: other text, or a block with what is before and behind
it. -/
inductive IfText where
  | other (t : OtherText)
  | ifEnd (t : OtherText) (branch rest : IfText)
  | ifElse (t : OtherText) (branch elseBranch rest : IfText)

/-- A text behind an if tag whose block is not closed: in one of its branches, or because a block in
one of them is not closed. -/
inductive OpenText where
  | branch (t : IfText)
  | elseBranch (t e : IfText)
  | inner (t : IfText) (o : OpenText)
  | innerElse (t e : IfText) (o : OpenText)

/-- What stands behind an if tag. -/
inductive BehindIf where
  | closed (branch : IfText) (tail : List UInt8)
  | closedElse (branch elseBranch : IfText) (tail : List UInt8)
  | unclosed (o : OpenText)

/-- A block without an else tag, with the text before it. -/
def endBlock (text branch : List UInt8) : List UInt8 :=
  text ++ (TagId.ifTag.text ++ (branch ++ TagId.endifTag.text))

/-- A block with an else tag, with the text before it. -/
def elseBlock (text branch elseBranch : List UInt8) : List UInt8 :=
  text ++ (TagId.ifTag.text ++ (branch ++ (TagId.elseTag.text ++
    (elseBranch ++ TagId.endifTag.text))))

namespace IfText

def print : IfText → List UInt8
  | other t => t.text
  | ifEnd t branch rest => endBlock t.text branch.print ++ rest.print
  | ifElse t branch elseBranch rest =>
      elseBlock t.text branch.print elseBranch.print ++ rest.print

/-- The number of its tags. -/
def tags : IfText → Nat
  | other _ => 0
  | ifEnd _ branch rest => branch.tags + (rest.tags + 1) + 1
  | ifElse _ branch elseBranch rest => branch.tags + (elseBranch.tags + (rest.tags + 1) + 1) + 1

end IfText

namespace OpenText

def print : OpenText → List UInt8
  | branch t => t.print
  | elseBranch t e => t.print ++ (TagId.elseTag.text ++ e.print)
  | inner t o => t.print ++ (TagId.ifTag.text ++ o.print)
  | innerElse t e o => t.print ++ (TagId.elseTag.text ++ (e.print ++ (TagId.ifTag.text ++ o.print)))

def tags : OpenText → Nat
  | branch t => t.tags
  | elseBranch t e => t.tags + (e.tags + 1)
  | inner t o => t.tags + (o.tags + 1)
  | innerElse t e o => t.tags + (e.tags + (o.tags + 1) + 1)

/-- The number of blocks in it that are not closed. -/
def depth : OpenText → Nat
  | branch _ | elseBranch _ _ => 0
  | inner _ o | innerElse _ _ o => o.depth + 1

end OpenText

namespace BehindIf

def print : BehindIf → List UInt8
  | closed branch tail => branch.print ++ (TagId.endifTag.text ++ tail)
  | closedElse branch elseBranch tail =>
      branch.print ++ (TagId.elseTag.text ++ (elseBranch.print ++ (TagId.endifTag.text ++ tail)))
  | unclosed o => o.print

/-- The positions behind the else tag and the endif tag of the block. -/
def positions : BehindIf → Option IfTags
  | closed branch _ => some ⟨-1, branch.print.length + 7⟩
  | closedElse branch elseBranch _ =>
      some ⟨branch.print.length + 6, branch.print.length + 6 + elseBranch.print.length + 7⟩
  | unclosed _ => none

end BehindIf

/-! ## Other text -/

/-- Of two texts that stand at one position, the shorter one is the beginning of the other. -/
theorem Slice.reads_prefix {S : Slice} {i : Int} {a b : List UInt8} (ha : S.reads i a = true)
    (hb : S.reads i b = true) (hle : a.length ≤ b.length) : a <+: b := by
  induction a generalizing i b with
  | nil => exact List.nil_prefix
  | cons c a ih =>
      cases b with
      | nil => exact absurd hle (Nat.not_succ_le_zero _)
      | cons d b =>
          obtain ⟨hc, ha⟩ := Slice.at_of_reads ha
          obtain ⟨hd, hb⟩ := Slice.at_of_reads hb
          rw [← hc, ← hd]
          exact List.cons_prefix_cons.mpr ⟨rfl, ih ha hb (Nat.le_of_succ_le_succ hle)⟩

theorem TagId.tail_ne (tag : TagId) : ∀ c ∈ tag.text.tail, c ≠ 123 := by
  cases tag <;> decide +kernel

/-- Behind the first byte of a tag there is no opening brace. -/
theorem Slice.at_ne_of_tag {S : Slice} {i j : Int} {tag : TagId}
    (h : S.reads i tag.text = true) (hij : i < j) (hj : j < i + tag.text.length) :
    S.at j ≠ 123 := by
  obtain ⟨k, rfl⟩ : ∃ k : Nat, j = i + (k + 1 : Nat) := ⟨(j - i - 1).toNat, by omega⟩
  have hk : k + 1 < tag.text.length := by omega
  rw [(Slice.reads_iff S i tag.text).mp h (k + 1) hk]
  refine tag.tail_ne _ ?_
  rw [← List.getElem_tail (by rw [List.length_tail]; omega)]
  exact List.getElem_mem _

/-- No tag begins in other text before an opening brace. -/
theorem Slice.noTagAt_other {S : Slice} {i : Int} {c : UInt8} {text : List UInt8}
    (h : S.reads i (c :: text) = true) (hbrace : S.at (i + (c :: text).length) = 123)
    (hplain : ∀ tag : TagId, ¬ tag.text <:+: c :: text) : S.NoTagAt i := by
  intro tag
  by_contra hread
  rw [Bool.not_eq_false] at hread
  rcases Nat.lt_or_ge (c :: text).length tag.text.length with hlong | hshort
  · exact Slice.at_ne_of_tag hread (by rw [List.length_cons]; push_cast; omega) (by omega) hbrace
  · exact hplain tag (Slice.reads_prefix hread h hshort).isInfix

/-- Other text before a tag is passed. -/
theorem findIfTagsLoop_other {S : Slice} {i : Int} {text : List UInt8}
    (h : S.reads i text = true) (hbrace : S.at (i + text.length) = 123)
    (hend : i + text.length ≤ S.length) (hplain : ∀ tag : TagId, ¬ tag.text <:+: text)
    (rounds level : Nat) (elsePos : Int) :
    findIfTagsLoop S rounds i level elsePos =
      findIfTagsLoop S rounds (i + text.length) level elsePos := by
  induction text generalizing i with
  | nil => simp
  | cons c text ih =>
      have hno := Slice.noTagAt_other h hbrace hplain
      have hrest := (Slice.at_of_reads h).2
      have hnext : i + 1 + (text.length : Int) = i + (c :: text).length := by
        rw [List.length_cons]
        push_cast
        omega
      rw [findIfTagsLoop_skip hno (by rw [List.length_cons] at hend; push_cast at hend; omega),
        ih hrest (hnext ▸ hbrace) (hnext ▸ hend)
          fun tag hin => hplain tag (hin.trans (List.suffix_cons c text).isInfix), hnext]

/-- A tag starts with an opening brace. -/
theorem Slice.at_of_tag {S : Slice} {i : Int} {tag : TagId} (h : S.reads i tag.text = true) :
    S.at i = 123 :=
  (Slice.at_of_reads (tag.text_eq ▸ h)).1

theorem ifTag_length_int : (TagId.ifTag.text.length : Int) = 4 := by decide

/-- The word of an if tag opens a level. -/
theorem findIfTagsLoop_ifWord {S : Slice} {i : Int} (h : S.reads i TagId.ifTag.text = true)
    (hi : i < S.length) (rounds level : Nat) (elsePos : Int) :
    findIfTagsLoop S (rounds + 1) i level elsePos =
      findIfTagsLoop S rounds (i + 4) (level + 1) elsePos := by
  have hn : (S.length - i).toNat = (S.length - i).toNat - 1 + 1 := by omega
  rw [findIfTagsLoop_succ, hn, getNextTagLoop_tag h, ifTag_length]
  rfl

/-! ## Closed blocks -/

/-- The search passes a text that stands before a tag, and its level stays. -/
def IfText.Passes (S : Slice) (t : IfText) : Prop :=
  ∀ i, S.reads i t.print = true → S.at (i + t.print.length) = 123 →
    i + t.print.length ≤ S.length → ∀ rounds level elsePos,
      findIfTagsLoop S (t.tags + rounds) i level elsePos =
        findIfTagsLoop S rounds (i + t.print.length) level elsePos

theorem endBlock_length (text branch : List UInt8) :
    ((endBlock text branch).length : Int) = text.length + 4 + branch.length + 7 := by
  simp only [endBlock, List.length_append, ifTag_length, endifTag_length]
  push_cast
  omega

theorem elseBlock_length (text branch elseBranch : List UInt8) :
    ((elseBlock text branch elseBranch).length : Int) =
      text.length + 4 + branch.length + 6 + elseBranch.length + 7 := by
  simp only [elseBlock, List.length_append, ifTag_length, elseTag_length, endifTag_length]
  push_cast
  omega

/-- A block without an else tag is passed. -/
theorem findIfTagsLoop_endBlock {S : Slice} {t : OtherText} {branch : IfText}
    (hbranch : branch.Passes S) {i : Int} (h : S.reads i (endBlock t.text branch.print) = true)
    (hend : i + (endBlock t.text branch.print).length ≤ S.length)
    (rounds level : Nat) (elsePos : Int) :
    findIfTagsLoop S (branch.tags + (rounds + 1) + 1) i level elsePos =
      findIfTagsLoop S rounds (i + (endBlock t.text branch.print).length) level elsePos := by
  obtain ⟨ht, h⟩ := Slice.reads_of_append h
  obtain ⟨hif, h⟩ := Slice.reads_of_append h
  obtain ⟨hinside, hendif⟩ := Slice.reads_of_append h
  rw [ifTag_length_int] at hinside hendif
  rw [endBlock_length] at hend ⊢
  rw [findIfTagsLoop_other ht (Slice.at_of_tag hif) (by omega) t.plain,
    findIfTagsLoop_ifWord hif (by omega),
    hbranch _ hinside (Slice.at_of_tag hendif) (by omega),
    findIfTagsLoop_endifTag hendif (by omega), if_neg (Nat.succ_ne_zero level),
    Nat.add_sub_cancel]
  congr 1
  omega

/-- A block with an else tag is passed. -/
theorem findIfTagsLoop_elseBlock {S : Slice} {t : OtherText} {branch elseBranch : IfText}
    (hbranch : branch.Passes S) (helseBranch : elseBranch.Passes S) {i : Int}
    (h : S.reads i (elseBlock t.text branch.print elseBranch.print) = true)
    (hend : i + (elseBlock t.text branch.print elseBranch.print).length ≤ S.length)
    (rounds level : Nat) (elsePos : Int) :
    findIfTagsLoop S (branch.tags + (elseBranch.tags + (rounds + 1) + 1) + 1) i level elsePos =
      findIfTagsLoop S rounds (i + (elseBlock t.text branch.print elseBranch.print).length) level
        elsePos := by
  obtain ⟨ht, h⟩ := Slice.reads_of_append h
  obtain ⟨hif, h⟩ := Slice.reads_of_append h
  obtain ⟨hinside, h⟩ := Slice.reads_of_append h
  obtain ⟨helseTag, h⟩ := Slice.reads_of_append h
  obtain ⟨helse, hendif⟩ := Slice.reads_of_append h
  rw [ifTag_length_int] at hinside helseTag helse hendif
  rw [elseTag_length_int] at helse hendif
  rw [elseBlock_length] at hend ⊢
  rw [findIfTagsLoop_other ht (Slice.at_of_tag hif) (by omega) t.plain,
    findIfTagsLoop_ifWord hif (by omega),
    hbranch _ hinside (Slice.at_of_tag helseTag) (by omega),
    findIfTagsLoop_elseTag helseTag (by omega), if_neg (Nat.succ_ne_zero level),
    helseBranch _ helse (Slice.at_of_tag hendif) (by omega),
    findIfTagsLoop_endifTag hendif (by omega), if_neg (Nat.succ_ne_zero level),
    Nat.add_sub_cancel]
  congr 1
  omega

/-- A text of closed blocks is passed. -/
theorem IfText.passes (S : Slice) (t : IfText) : t.Passes S := by
  induction t with
  | other t =>
      intro i h hbrace hend rounds level elsePos
      rw [tags, Nat.zero_add]
      exact findIfTagsLoop_other h hbrace hend t.plain rounds level elsePos
  | ifEnd t branch rest ihbranch ihrest =>
      intro i h hbrace hend rounds level elsePos
      obtain ⟨hblock, hrest⟩ := Slice.reads_of_append h
      have hrounds : (ifEnd t branch rest).tags + rounds =
          branch.tags + (rest.tags + rounds + 1) + 1 := by
        rw [tags]
        omega
      rw [print, List.length_append, Int.natCast_add, ← Int.add_assoc] at hbrace hend ⊢
      rw [hrounds, findIfTagsLoop_endBlock ihbranch hblock (by omega),
        ihrest _ hrest hbrace hend]
  | ifElse t branch elseBranch rest ihbranch ihelse ihrest =>
      intro i h hbrace hend rounds level elsePos
      obtain ⟨hblock, hrest⟩ := Slice.reads_of_append h
      have hrounds : (ifElse t branch elseBranch rest).tags + rounds =
          branch.tags + (elseBranch.tags + (rest.tags + rounds + 1) + 1) + 1 := by
        rw [tags]
        omega
      rw [print, List.length_append, Int.natCast_add, ← Int.add_assoc] at hbrace hend ⊢
      rw [hrounds, findIfTagsLoop_elseBlock ihbranch ihelse hblock (by omega),
        ihrest _ hrest hbrace hend]

theorem IfText.tags_le (t : IfText) : t.tags ≤ t.print.length := by
  induction t with
  | other t => exact Nat.zero_le _
  | ifEnd t branch rest ihbranch ihrest =>
      simp only [tags, print, endBlock, List.length_append, endifTag_length, ifTag_length]
      omega
  | ifElse t branch elseBranch rest ihbranch ihelse ihrest =>
      simp only [tags, print, elseBlock, List.length_append, endifTag_length, elseTag_length,
        ifTag_length]
      omega

/-- The positions of a block that is closed. -/
theorem findIfTagsPos_closed {S : Slice} (branch : IfText) (tail : List UInt8)
    (h : S.reads 0 (BehindIf.closed branch tail).print = true)
    (hend : (BehindIf.closed branch tail).print.length ≤ S.length) :
    findIfTagsPos S = (BehindIf.closed branch tail).positions := by
  obtain ⟨hbranch, h⟩ := Slice.reads_of_append h
  obtain ⟨hendif, -⟩ := Slice.reads_of_append h
  have hle := branch.tags_le
  simp only [BehindIf.print, List.length_append, endifTag_length] at hend
  push_cast at hend
  have hrounds : S.length.toNat + 1 = branch.tags + (S.length.toNat - branch.tags + 1) := by omega
  rw [findIfTagsPos, hrounds, branch.passes S _ hbranch (Slice.at_of_tag hendif) (by omega),
    findIfTagsLoop_endifTag hendif (by omega), if_pos rfl, zero_add, BehindIf.positions]

theorem findIfTagsPos_closedElse {S : Slice} (branch elseBranch : IfText) (tail : List UInt8)
    (h : S.reads 0 (BehindIf.closedElse branch elseBranch tail).print = true)
    (hend : (BehindIf.closedElse branch elseBranch tail).print.length ≤ S.length) :
    findIfTagsPos S = (BehindIf.closedElse branch elseBranch tail).positions := by
  obtain ⟨hbranch, h⟩ := Slice.reads_of_append h
  obtain ⟨helseTag, h⟩ := Slice.reads_of_append h
  obtain ⟨helse, h⟩ := Slice.reads_of_append h
  obtain ⟨hendif, -⟩ := Slice.reads_of_append h
  rw [elseTag_length_int] at helse hendif
  have hle := branch.tags_le
  have hle' := elseBranch.tags_le
  simp only [BehindIf.print, List.length_append, elseTag_length, endifTag_length] at hend
  push_cast at hend
  have hrounds : S.length.toNat + 1 = branch.tags +
      (elseBranch.tags + (S.length.toNat - branch.tags - elseBranch.tags - 1 + 1) + 1) := by omega
  rw [findIfTagsPos, hrounds, branch.passes S _ hbranch (Slice.at_of_tag helseTag) (by omega),
    findIfTagsLoop_elseTag helseTag (by omega), if_pos rfl,
    elseBranch.passes S _ helse (Slice.at_of_tag hendif) (by omega),
    findIfTagsLoop_endifTag hendif (by omega), if_pos rfl, zero_add, BehindIf.positions]

/-! ## Blocks that are not closed -/

/-- An endif tag begins in the slice and ends behind it. -/
def Slice.EndifAcross (S : Slice) : Prop :=
  ∃ j, 0 ≤ j ∧ j < S.length ∧ S.length < j + 7 ∧ S.reads j TagId.endifTag.text = true

/-- At the end of the slice the search finds nothing. -/
theorem findIfTagsLoop_end {S : Slice} {i : Int} (hi : S.length ≤ i) (rounds level : Nat)
    (elsePos : Int) : findIfTagsLoop S rounds i level elsePos = none := by
  cases rounds with
  | zero => rfl
  | succ rounds =>
      have hn : (S.length - i).toNat = 0 := by omega
      rw [findIfTagsLoop_succ, hn]
      rfl

/-- Where the last text before a position starts: at the start of all, or behind a tag. -/
structure LastText (S : Slice) (i stop p : Int) (text : List UInt8) : Prop where
  le : i ≤ p
  stop_eq : p + text.length = stop
  reads : S.reads p text = true
  plain : ∀ tag : TagId, ¬ tag.text <:+: text
  behind : p = i ∨ ∃ tag : TagId, S.reads (p - tag.text.length) tag.text = true

/-- The last text of a part is the last one of the whole. -/
theorem LastText.of_tag {S : Slice} {i i' stop p : Int} {text : List UInt8} {tag : TagId}
    (h : LastText S i' stop p text) (htag : S.reads (i' - tag.text.length) tag.text = true)
    (hi : i ≤ i') : LastText S i stop p text := by
  refine ⟨Int.le_trans hi h.le, h.stop_eq, h.reads, h.plain, ?_⟩
  rcases h.behind with rfl | hbehind
  · exact Or.inr ⟨tag, htag⟩
  · exact Or.inr hbehind

/-- The search comes to the last text of closed blocks. -/
theorem IfText.toLast {S : Slice} (t : IfText) {i : Int} (h : S.reads i t.print = true)
    (hend : i + t.print.length ≤ S.length) :
    ∃ p text, LastText S i (i + t.print.length) p text ∧ ∀ rounds level elsePos,
      findIfTagsLoop S (t.tags + rounds) i level elsePos =
        findIfTagsLoop S rounds p level elsePos := by
  induction t generalizing i with
  | other t =>
      have hlast : LastText S i (i + t.text.length) i t.text :=
        ⟨Int.le_refl _, rfl, h, t.plain, Or.inl rfl⟩
      refine ⟨i, t.text, hlast, fun rounds level elsePos => ?_⟩
      rw [tags, Nat.zero_add]
  | ifEnd t branch rest _ ihrest =>
      obtain ⟨hblock, hrest⟩ := Slice.reads_of_append h
      rw [print, List.length_append, Int.natCast_add, ← Int.add_assoc] at hend ⊢
      obtain ⟨p, text, hlast, hsame⟩ := ihrest hrest hend
      have hlength := endBlock_length t.text branch.print
      have htag : S.reads (i + (endBlock t.text branch.print).length - TagId.endifTag.text.length)
          TagId.endifTag.text = true := by
        have hendif := (Slice.reads_of_append (Slice.reads_of_append
          (Slice.reads_of_append hblock).2).2).2
        rw [hlength, endifTag_length_int]
        rw [ifTag_length_int] at hendif
        convert hendif using 2
        omega
      refine ⟨p, text, hlast.of_tag htag (by omega), fun rounds level elsePos => ?_⟩
      rw [← hsame, ← findIfTagsLoop_endBlock (branch.passes S) hblock (by omega), tags]
      congr 1
      omega
  | ifElse t branch elseBranch rest _ _ ihrest =>
      obtain ⟨hblock, hrest⟩ := Slice.reads_of_append h
      rw [print, List.length_append, Int.natCast_add, ← Int.add_assoc] at hend ⊢
      obtain ⟨p, text, hlast, hsame⟩ := ihrest hrest hend
      have hlength := elseBlock_length t.text branch.print elseBranch.print
      have htag : S.reads (i + (elseBlock t.text branch.print elseBranch.print).length -
          TagId.endifTag.text.length) TagId.endifTag.text = true := by
        have hendif := (Slice.reads_of_append (Slice.reads_of_append (Slice.reads_of_append
          (Slice.reads_of_append (Slice.reads_of_append hblock).2).2).2).2).2
        rw [hlength, endifTag_length_int]
        rw [ifTag_length_int, elseTag_length_int] at hendif
        convert hendif using 2
        omega
      refine ⟨p, text, hlast.of_tag htag (by omega), fun rounds level elsePos => ?_⟩
      rw [← hsame, ← findIfTagsLoop_elseBlock (branch.passes S) (elseBranch.passes S) hblock
        (by omega), tags]
      congr 1
      omega

/-- The search comes to the last text behind a block that is not closed, on the level of the blocks
that are open there. -/
theorem OpenText.toLast {S : Slice} (o : OpenText) {i : Int} (h : S.reads i o.print = true)
    (hend : i + o.print.length ≤ S.length) :
    ∃ p text, LastText S i (i + o.print.length) p text ∧ ∀ rounds level elsePos, ∃ elsePos',
      findIfTagsLoop S (o.tags + rounds) i level elsePos =
        findIfTagsLoop S rounds p (level + o.depth) elsePos' := by
  induction o generalizing i with
  | branch t =>
      obtain ⟨p, text, hlast, hsame⟩ := t.toLast h hend
      exact ⟨p, text, hlast, fun rounds level elsePos => ⟨elsePos, hsame rounds level elsePos⟩⟩
  | elseBranch t e =>
      obtain ⟨ht, h⟩ := Slice.reads_of_append h
      obtain ⟨helseTag, he⟩ := Slice.reads_of_append h
      rw [elseTag_length_int] at he
      have hlength : i + ((elseBranch t e).print.length : Int) =
          i + t.print.length + 6 + e.print.length := by
        simp only [print, List.length_append, elseTag_length]
        push_cast
        omega
      rw [hlength] at hend ⊢
      obtain ⟨p, text, hlast, hsame⟩ := e.toLast he hend
      have htag : S.reads (i + t.print.length + 6 - TagId.elseTag.text.length)
          TagId.elseTag.text = true := by
        rw [elseTag_length_int, Int.add_sub_cancel]
        exact helseTag
      refine ⟨p, text, hlast.of_tag htag (by omega), fun rounds level elsePos => ?_⟩
      refine ⟨if level = 0 then i + t.print.length + 6 else elsePos, ?_⟩
      have hrounds : (elseBranch t e).tags + rounds = t.tags + (e.tags + rounds + 1) := by
        rw [tags]
        omega
      rw [hrounds, t.passes S _ ht (Slice.at_of_tag helseTag) (by omega),
        findIfTagsLoop_elseTag helseTag (by omega), hsame]
      rfl
  | inner t o ih =>
      obtain ⟨ht, h⟩ := Slice.reads_of_append h
      obtain ⟨hif, ho⟩ := Slice.reads_of_append h
      rw [ifTag_length_int] at ho
      have hlength : i + ((inner t o).print.length : Int) =
          i + t.print.length + 4 + o.print.length := by
        simp only [print, List.length_append, ifTag_length]
        push_cast
        omega
      rw [hlength] at hend ⊢
      obtain ⟨p, text, hlast, hsame⟩ := ih ho hend
      have htag : S.reads (i + t.print.length + 4 - TagId.ifTag.text.length)
          TagId.ifTag.text = true := by
        rw [ifTag_length_int, Int.add_sub_cancel]
        exact hif
      refine ⟨p, text, hlast.of_tag htag (by omega), fun rounds level elsePos => ?_⟩
      obtain ⟨elsePos', hsame⟩ := hsame rounds (level + 1) elsePos
      have hrounds : (inner t o).tags + rounds = t.tags + (o.tags + rounds + 1) := by
        rw [tags]
        omega
      refine ⟨elsePos', ?_⟩
      rw [hrounds, t.passes S _ ht (Slice.at_of_tag hif) (by omega),
        findIfTagsLoop_ifWord hif (by omega), hsame, depth, Nat.add_assoc, Nat.add_comm 1]
  | innerElse t e o ih =>
      obtain ⟨ht, h⟩ := Slice.reads_of_append h
      obtain ⟨helseTag, h⟩ := Slice.reads_of_append h
      obtain ⟨he, h⟩ := Slice.reads_of_append h
      obtain ⟨hif, ho⟩ := Slice.reads_of_append h
      rw [elseTag_length_int] at he hif ho
      rw [ifTag_length_int] at ho
      have hlength : i + ((innerElse t e o).print.length : Int) =
          i + t.print.length + 6 + e.print.length + 4 + o.print.length := by
        simp only [print, List.length_append, elseTag_length, ifTag_length]
        push_cast
        omega
      rw [hlength] at hend ⊢
      obtain ⟨p, text, hlast, hsame⟩ := ih ho hend
      have htag : S.reads (i + t.print.length + 6 + e.print.length + 4 - TagId.ifTag.text.length)
          TagId.ifTag.text = true := by
        rw [ifTag_length_int, Int.add_sub_cancel]
        exact hif
      refine ⟨p, text, hlast.of_tag htag (by omega), fun rounds level elsePos => ?_⟩
      obtain ⟨elsePos', hsame⟩ := hsame rounds (level + 1)
        (if level = 0 then i + t.print.length + 6 else elsePos)
      have hrounds : (innerElse t e o).tags + rounds =
          t.tags + (e.tags + (o.tags + rounds + 1) + 1) := by
        rw [tags]
        omega
      refine ⟨elsePos', ?_⟩
      rw [hrounds, t.passes S _ ht (Slice.at_of_tag helseTag) (by omega),
        findIfTagsLoop_elseTag helseTag (by omega),
        e.passes S _ he (Slice.at_of_tag hif) (by omega),
        findIfTagsLoop_ifWord hif (by omega), hsame, depth, Nat.add_assoc, Nat.add_comm 1]

/-- Tags do not overlap. -/
theorem Slice.tags_apart {S : Slice} {i j : Int} {tag tag' : TagId}
    (h : S.reads i tag.text = true) (h' : S.reads j tag'.text = true) (hij : i < j) :
    i + tag.text.length ≤ j := by
  by_contra hlt
  exact Slice.at_ne_of_tag h hij (by omega) (Slice.at_of_tag h')

/-- One tag stands at a position. -/
theorem Slice.tag_unique {S : Slice} {i : Int} {tag tag' : TagId} (h : S.reads i tag.text = true)
    (h' : S.reads i tag'.text = true) : tag = tag' :=
  Option.some.inj ((find_tag h).symm.trans (find_tag h'))

/-- A tag that begins in the last text, if its end is not in it. -/
theorem LastText.le_across {S : Slice} {i p j : Int} {text : List UInt8}
    (h : LastText S i S.length p text) (hij : i ≤ j) (hend : S.length < j + 7)
    (hj : S.reads j TagId.endifTag.text = true) : p ≤ j := by
  have hp : p ≤ S.length := by
    have := h.stop_eq
    omega
  rcases h.behind with rfl | ⟨tag, htag⟩
  · exact hij
  · by_contra hlt
    rcases Int.lt_trichotomy (p - tag.text.length) j with hbefore | hsame | hbehind
    · have := Slice.tags_apart htag hj hbefore
      omega
    · have hplace := hsame ▸ htag
      have htags := Slice.tag_unique hplace hj
      subst htags
      rw [endifTag_length_int] at hsame
      omega
    · have := Slice.tags_apart hj htag hbehind
      rw [endifTag_length_int] at this
      omega

/-- In the last text the search finds nothing, but an endif tag that ends behind the slice on the
level of the block. -/
theorem findIfTagsLoop_last_none {S : Slice} {p : Int} {text : List UInt8}
    (hreads : S.reads p text = true) (hplain : ∀ tag : TagId, ¬ tag.text <:+: text)
    (hstop : p + text.length = S.length) {level : Nat}
    (hacross : level = 0 → ∀ j, p ≤ j → j < S.length → S.reads j TagId.endifTag.text = false)
    (rounds : Nat) (elsePos : Int) : findIfTagsLoop S rounds p level elsePos = none := by
  induction text generalizing p with
  | nil =>
      rw [List.length_nil] at hstop
      exact findIfTagsLoop_end (by omega) rounds level elsePos
  | cons c text ih =>
      rw [List.length_cons] at hstop
      push_cast at hstop
      by_cases hno : S.NoTagAt p
      · rw [findIfTagsLoop_skip hno (by omega)]
        exact ih (Slice.at_of_reads hreads).2
          (fun tag hin => hplain tag (hin.trans (List.suffix_cons c text).isInfix)) (by omega)
          fun hlevel j hj => hacross hlevel j (by omega)
      · obtain ⟨tag, htag⟩ := not_forall.mp hno
        rw [Bool.not_eq_false] at htag
        have hlong : S.length ≤ p + tag.text.length := by
          by_contra hshort
          refine hplain tag (Slice.reads_prefix htag hreads ?_).isInfix
          rw [List.length_cons]
          omega
        cases rounds with
        | zero => rfl
        | succ rounds =>
            have hn : (S.length - p).toNat = (S.length - p).toNat - 1 + 1 := by omega
            rw [findIfTagsLoop_succ, hn, getNextTagLoop_tag htag]
            cases tag with
            | ifTag => exact findIfTagsLoop_end hlong _ _ _
            | elseTag => exact findIfTagsLoop_end hlong _ _ _
            | endifTag =>
                by_cases hlevel : level = 0
                · rw [hacross hlevel p (Int.le_refl p) (by omega)] at htag
                  cases htag
                · dsimp only
                  rw [if_neg hlevel]
                  exact findIfTagsLoop_end hlong _ _ _

/-- An endif tag that begins in the last text is found. -/
theorem findIfTagsLoop_last_some {S : Slice} {p j : Int} (hpj : p ≤ j) (hj : j < S.length)
    (htag : S.reads j TagId.endifTag.text = true) (hend : S.length < j + 7)
    {text : List UInt8} (hreads : S.reads p text = true)
    (hplain : ∀ tag : TagId, ¬ tag.text <:+: text) (hstop : p + text.length = S.length)
    (rounds : Nat) (elsePos : Int) :
    findIfTagsLoop S (rounds + 1) p 0 elsePos = some ⟨elsePos, j + 7⟩ := by
  induction text generalizing p with
  | nil =>
      rw [List.length_nil] at hstop
      omega
  | cons c text ih =>
      rw [List.length_cons] at hstop
      push_cast at hstop
      rcases Int.lt_or_eq_of_le hpj with hlt | rfl
      · have hno : S.NoTagAt p := by
          intro tag
          by_contra hread
          rw [Bool.not_eq_false] at hread
          have hapart := Slice.tags_apart hread htag hlt
          refine hplain tag (Slice.reads_prefix hread hreads ?_).isInfix
          rw [List.length_cons]
          omega
        rw [findIfTagsLoop_skip hno (by omega)]
        exact ih (by omega) (Slice.at_of_reads hreads).2
          (fun tag hin => hplain tag (hin.trans (List.suffix_cons c text).isInfix)) (by omega)
      · rw [findIfTagsLoop_endifTag htag hj, if_pos rfl]

theorem OpenText.tags_le (o : OpenText) : o.tags ≤ o.print.length := by
  induction o with
  | branch t => exact t.tags_le
  | elseBranch t e =>
      have := t.tags_le
      have := e.tags_le
      simp only [tags, print, List.length_append, elseTag_length]
      omega
  | inner t o ih =>
      have := t.tags_le
      simp only [tags, print, List.length_append, ifTag_length]
      omega
  | innerElse t e o ih =>
      have := t.tags_le
      have := e.tags_le
      simp only [tags, print, List.length_append, elseTag_length, ifTag_length]
      omega

/-- Without the end of the block nothing is found, but an endif tag that ends behind the slice. -/
theorem findIfTagsPos_unclosed_iff {S : Slice} (o : OpenText) (h : S.reads 0 o.print = true)
    (hend : o.print.length = S.length) :
    findIfTagsPos S = none ↔ ¬ (o.depth = 0 ∧ S.EndifAcross) := by
  obtain ⟨p, text, hlast, hsame⟩ := o.toLast h (by omega)
  have hle := o.tags_le
  have hrounds : S.length.toNat + 1 = o.tags + (S.length.toNat - o.tags + 1) := by omega
  obtain ⟨elsePos, hrun⟩ := hsame (S.length.toNat - o.tags + 1) 0 (-1)
  rw [Int.zero_add, hend] at hlast
  rw [findIfTagsPos, hrounds, hrun, Nat.zero_add]
  constructor
  · rintro hnone ⟨hdepth, j, hj, hlt, hacross, htag⟩
    rw [hdepth, findIfTagsLoop_last_some (hlast.le_across hj hacross htag) hlt htag hacross
      hlast.reads hlast.plain hlast.stop_eq] at hnone
    cases hnone
  · intro hnot
    refine findIfTagsLoop_last_none hlast.reads hlast.plain hlast.stop_eq ?_ _ _
    intro hdepth j hj hlt
    by_contra htag
    rw [Bool.not_eq_false] at htag
    refine hnot ⟨hdepth, j, Int.le_trans hlast.le hj, hlt, ?_, htag⟩
    -- other text has no endif tag of its own
    by_contra hshort
    have hstop := hlast.stop_eq
    have hplace : p + ((text.take (j - p).toNat).length : Int) = j := by
      rw [List.length_take]
      omega
    have hsplit := hlast.reads
    rw [← List.take_append_drop (j - p).toNat text] at hsplit
    have hrest := (Slice.reads_of_append hsplit).2
    rw [hplace] at hrest
    refine hlast.plain .endifTag ((Slice.reads_prefix htag hrest ?_).isInfix.trans
      (List.drop_suffix _ text).isInfix)
    rw [List.length_drop, endifTag_length]
    omega

/-! ## The search -/

/-- The slice holds what stands behind an if tag, and ends there. -/
structure Slice.Holds (S : Slice) (w : BehindIf) : Prop where
  reads : S.reads 0 w.print = true
  length_eq : w.print.length = S.length

/-- More rounds than the slice has bytes change nothing. -/
theorem findIfTagsLoop_rounds {S : Slice} (rounds rounds' : Nat) (offset : Int) (level : Nat)
    (elsePos : Int) (h : (S.length - offset).toNat < rounds)
    (h' : (S.length - offset).toNat < rounds') :
    findIfTagsLoop S rounds offset level elsePos =
      findIfTagsLoop S rounds' offset level elsePos := by
  induction rounds generalizing rounds' offset level elsePos with
  | zero => exact absurd h (Nat.not_lt_zero _)
  | succ rounds ih =>
      obtain ⟨rounds', rfl⟩ := Nat.exists_eq_succ_of_ne_zero (Nat.ne_zero_of_lt h')
      rw [findIfTagsLoop_succ, findIfTagsLoop_succ]
      cases hnext : getNextTagLoop S (S.length - offset).toNat offset with
      | none => rfl
      | some found =>
          obtain ⟨tag, pos⟩ := found
          obtain ⟨j, hj, hlt, -, rfl⟩ := getNextTagLoop_spec _ _ hnext
          have hpos := tag.text_pos
          have hless : (S.length - (j + tag.text.length)).toNat < rounds := by omega
          have hless' : (S.length - (j + tag.text.length)).toNat < rounds' := by omega
          cases tag with
          | ifTag => exact ih _ _ _ _ hless hless'
          | elseTag => exact ih _ _ _ _ hless hless'
          | endifTag =>
              dsimp only
              split
              · rfl
              · exact ih _ _ _ _ hless hless'

/-- What `find_if_tags_pos` is to do: it finds the positions of the block, and it ends. -/
structure FindsBlock (S : Slice) (w : BehindIf) : Prop where
  positions : findIfTagsPos S = w.positions
  ends : ∀ rounds, S.length.toNat < rounds → findIfTagsLoop S rounds 0 0 (-1) = findIfTagsPos S

/-- **`find_if_tags_pos`** finds the positions of a block exactly if it is closed, or a block in it
is open as well, or no endif tag begins in the slice and ends behind it. -/
theorem findsBlock_iff {S : Slice} {w : BehindIf} (h : S.Holds w) :
    FindsBlock S w ↔ ∀ o, w = .unclosed o → o.depth = 0 → ¬ S.EndifAcross := by
  have hends : ∀ rounds, S.length.toNat < rounds →
      findIfTagsLoop S rounds 0 0 (-1) = findIfTagsPos S := by
    intro rounds hrounds
    exact findIfTagsLoop_rounds _ _ 0 0 (-1) (by omega) (by omega)
  have hiff : FindsBlock S w ↔ findIfTagsPos S = w.positions :=
    ⟨FindsBlock.positions, fun hpositions => ⟨hpositions, hends⟩⟩
  rw [hiff]
  cases w with
  | closed branch tail =>
      exact iff_of_true (findIfTagsPos_closed branch tail h.reads (Int.le_of_eq h.length_eq))
        fun o heq => nomatch heq
  | closedElse branch elseBranch tail =>
      exact iff_of_true
        (findIfTagsPos_closedElse branch elseBranch tail h.reads (Int.le_of_eq h.length_eq))
        fun o heq => nomatch heq
  | unclosed o =>
      have hnone := findIfTagsPos_unclosed_iff o h.reads h.length_eq
      rw [BehindIf.positions, hnone]
      constructor
      · rintro hnot o' ⟨⟩ hdepth hacross
        exact hnot ⟨hdepth, hacross⟩
      · rintro hnot ⟨hdepth, hacross⟩
        exact hnot o rfl hdepth hacross

/-- Text without an opening brace. -/
def OtherText.ofPlain (text : List UInt8) (h : ∀ c ∈ text, c ≠ 123) : OtherText where
  text := text
  plain := by
    intro tag hin
    have hmem : (123 : UInt8) ∈ tag.text := by
      rw [tag.text_eq]
      exact List.mem_cons_self
    exact h 123 (hin.subset hmem) rfl

/-- A block in a block, each with an else tag. -/
def nestedBlock : BehindIf :=
  .closedElse
    (.ifElse (.ofPlain (ascii "a\x7dx") (by decide +kernel))
      (.other (.ofPlain (ascii "b\x7d") (by decide +kernel)))
      (.other (.ofPlain (ascii "y") (by decide +kernel)))
      (.other (.ofPlain [] (by decide +kernel))))
    (.other (.ofPlain (ascii "z") (by decide +kernel))) (ascii " behind")

theorem findsBlock_iff_nested : FindsBlock (Page.ofBytes nestedBlock.print).whole nestedBlock :=
  (findsBlock_iff ⟨by decide +kernel, by decide +kernel⟩).mpr fun o heq => nomatch heq

/-- A page that ends in an endif tag, and the memory behind it has the rest of the tag. -/
def cutPage : Page := { Page.ofBytes (ascii "a\x7bendif\x7d") with size := 6 }

theorem findsBlock_fails : ¬ ∀ (S : Slice) (w : BehindIf), S.Holds w → FindsBlock S w := by
  intro hall
  let o : OpenText :=
    .branch (.other ⟨ascii "a\x7bendi", by intro tag; cases tag <;> decide +kernel⟩)
  have hfinds := hall cutPage.whole (.unclosed o) ⟨by decide +kernel, by decide +kernel⟩
  refine (findIfTagsPos_unclosed_iff o (by decide +kernel) (by decide +kernel)).mp
    hfinds.positions ⟨rfl, 1, ?_⟩
  decide +kernel

end CWebUI.Template
