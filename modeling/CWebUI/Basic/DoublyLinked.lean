import Mathlib.Data.List.Induction
import Mathlib.Logic.Function.Basic

set_option autoImplicit false

/-! # Doubly linked chains in a heap

A heap maps addresses to nodes. `Segment` says that the nodes of a list are linked both ways
between two ends, and is what an operation on a linked list keeps; `Forward` and `Backward`
follow only one kind of pointer. Everything is over arbitrary addresses and data.
-/

namespace DoublyLinked

/-- A node. A missing pointer is the null pointer. -/
structure Node (P D : Type) where
  next : Option P
  prev : Option P
  data : D
  deriving DecidableEq, Repr

variable {P D : Type}

/-- The nodes are linked both ways. `prev` is the pointer back from the first of them, `next`
the pointer on from the last; `first` and `last` point at the ends, and across an empty
segment. -/
def Segment (heap : P → Option (Node P D)) (prev first : Option P) :
    List (P × D) → Option P → Option P → Prop
  | [], next, last => first = next ∧ last = prev
  | (a, x) :: nodes, next, last => first = some a ∧
      ∃ n, heap a = some ⟨n, prev, x⟩ ∧ Segment heap (some a) n nodes next last

/-- The chain from a pointer by `next`. -/
inductive Forward (heap : P → Option (Node P D)) : Option P → List (P × D) → Prop where
  | nil : Forward heap none []
  | cons {a : P} {node : Node P D} {nodes : List (P × D)} (h : heap a = some node)
      (hrest : Forward heap node.next nodes) : Forward heap (some a) ((a, node.data) :: nodes)

/-- The chain from a pointer by `prev`. -/
inductive Backward (heap : P → Option (Node P D)) : Option P → List (P × D) → Prop where
  | nil : Backward heap none []
  | cons {a : P} {node : Node P D} {nodes : List (P × D)} (h : heap a = some node)
      (hrest : Backward heap node.prev nodes) : Backward heap (some a) ((a, node.data) :: nodes)

section Segment

variable {heap : P → Option (Node P D)} {prev first next last : Option P}
  {nodes pre post : List (P × D)}

theorem segment_append : Segment heap prev first (pre ++ post) next last ↔
    ∃ mid link, Segment heap prev first pre mid link ∧ Segment heap link mid post next last := by
  induction pre generalizing prev first with
  | nil =>
      constructor
      · intro h
        exact ⟨first, prev, ⟨rfl, rfl⟩, h⟩
      · rintro ⟨mid, link, ⟨rfl, rfl⟩, h⟩
        exact h
  | cons node pre ih =>
      obtain ⟨a, x⟩ := node
      constructor
      · rintro ⟨hfirst, n, hnode, hrest⟩
        obtain ⟨mid, link, hpre, hpost⟩ := ih.mp hrest
        exact ⟨mid, link, ⟨hfirst, n, hnode, hpre⟩, hpost⟩
      · rintro ⟨mid, link, ⟨hfirst, n, hnode, hpre⟩, hpost⟩
        exact ⟨hfirst, n, hnode, ih.mpr ⟨mid, link, hpre, hpost⟩⟩

/-- A segment that is not empty has a first node. -/
theorem Segment.head {a : P} {x : D}
    (h : Segment heap prev first ((a, x) :: nodes) next last) : first = some a := h.1

/-- The nodes of a segment are in memory. -/
theorem Segment.allocated {a : P} (h : Segment heap prev first nodes next last)
    (ha : a ∈ nodes.map Prod.fst) : heap a ≠ none := by
  induction nodes generalizing prev first with
  | nil => exact absurd ha (by simp)
  | cons node nodes ih =>
      obtain ⟨b, x⟩ := node
      obtain ⟨-, n, hnode, hrest⟩ := h
      rcases List.mem_cons.mp ha with rfl | ha
      · simp [hnode]
      · exact ih hrest ha

/-- A segment depends only on the contents of its own nodes. -/
theorem Segment.congr {heap' : P → Option (Node P D)}
    (h : Segment heap prev first nodes next last)
    (hsame : ∀ a ∈ nodes.map Prod.fst, heap' a = heap a) :
    Segment heap' prev first nodes next last := by
  induction nodes generalizing prev first with
  | nil => exact h
  | cons node nodes ih =>
      obtain ⟨a, x⟩ := node
      obtain ⟨hfirst, n, hnode, hrest⟩ := h
      refine ⟨hfirst, n, ?_, ih hrest fun c hc => hsame c (List.mem_cons_of_mem _ hc)⟩
      rw [hsame a List.mem_cons_self]
      exact hnode

theorem Segment.forward (h : Segment heap prev first nodes none last) :
    Forward heap first nodes := by
  induction nodes generalizing prev first with
  | nil =>
      rw [h.1]
      exact .nil
  | cons node nodes ih =>
      obtain ⟨a, x⟩ := node
      obtain ⟨rfl, n, hnode, hrest⟩ := h
      exact .cons hnode (ih hrest)

theorem Segment.backward (h : Segment heap none first nodes next last) :
    Backward heap last nodes.reverse := by
  -- from the end: the last node points back to the end of the rest
  induction nodes using List.reverseRecOn generalizing next last with
  | nil =>
      rw [h.2]
      exact .nil
  | append_singleton nodes node ih =>
      obtain ⟨a, x⟩ := node
      obtain ⟨mid, link, hpre, rfl, n, hnode, -, rfl⟩ := segment_append.mp h
      rw [List.reverse_append]
      exact .cons hnode (ih hpre)

/-- The pointer to the end. -/
theorem Segment.last_eq (h : Segment heap prev first nodes next last) (hne : nodes ≠ []) :
    last = nodes.getLast?.map Prod.fst := by
  obtain ⟨pre, ⟨a, x⟩, hsplit⟩ := (List.eq_nil_or_concat nodes).resolve_left hne
  rw [List.concat_eq_append] at hsplit
  subst hsplit
  obtain ⟨mid, link, -, rfl, n, -, -, rfl⟩ := segment_append.mp h
  simp

theorem Segment.exists_last (h : Segment heap prev first nodes next last) (hne : nodes ≠ []) :
    ∃ b ∈ nodes.map Prod.fst, last = some b := by
  rw [h.last_eq hne]
  cases hb : nodes.getLast? with
  | none => exact absurd (List.getLast?_eq_none_iff.mp hb) hne
  | some node => exact ⟨node.1, List.mem_map.mpr ⟨node, List.mem_of_getLast? hb, rfl⟩, rfl⟩

variable [DecidableEq P]

/-- A node that is not in the segment can be changed. -/
theorem Segment.update {b : P} (h : Segment heap prev first nodes next last)
    (hb : b ∉ nodes.map Prod.fst) (node : Option (Node P D)) :
    Segment (Function.update heap b node) prev first nodes next last := by
  induction nodes generalizing prev first with
  | nil => exact h
  | cons entry nodes ih =>
      obtain ⟨a, x⟩ := entry
      obtain ⟨hfirst, n, hnode, hrest⟩ := h
      rw [List.map_cons, List.mem_cons, not_or] at hb
      refine ⟨hfirst, n, ?_, ih hrest hb.2⟩
      rw [Function.update_of_ne (Ne.symm hb.1)]
      exact hnode

/-- The last node is made to point elsewhere. -/
theorem Segment.setNext {b : P} (h : Segment heap prev first nodes next (some b))
    (hne : nodes ≠ []) (hnodup : (nodes.map Prod.fst).Nodup) (next' : Option P) :
    ∃ node, heap b = some node ∧ b ∈ nodes.map Prod.fst ∧
      Segment (Function.update heap b (some { node with next := next' })) prev first nodes next'
        (some b) := by
  obtain ⟨pre, ⟨a, x⟩, hsplit⟩ := (List.eq_nil_or_concat nodes).resolve_left hne
  rw [List.concat_eq_append] at hsplit
  subst hsplit
  obtain ⟨mid, link, hpre, hmid, n, hnode, -, hb⟩ := segment_append.mp h
  have hab : b = a := Option.some.inj hb
  subst hab
  rw [List.map_append, List.nodup_append] at hnodup
  have hnot : b ∉ pre.map Prod.fst := fun hm => hnodup.2.2 b hm b (by simp) rfl
  refine ⟨_, hnode, by simp, segment_append.mpr ⟨mid, link, hpre.update hnot _, hmid, next', ?_, rfl, rfl⟩⟩
  rw [Function.update_self]

/-- The first node is made to point back elsewhere. -/
theorem Segment.setPrev {b : P} (h : Segment heap prev (some b) nodes next last)
    (hne : nodes ≠ []) (hnodup : (nodes.map Prod.fst).Nodup) (prev' : Option P) :
    ∃ node, heap b = some node ∧ b ∈ nodes.map Prod.fst ∧
      Segment (Function.update heap b (some { node with prev := prev' })) prev' (some b) nodes next
        last := by
  cases nodes with
  | nil => exact absurd rfl hne
  | cons entry nodes =>
      obtain ⟨a, x⟩ := entry
      obtain ⟨hfirst, n, hnode, hrest⟩ := h
      have hab : b = a := Option.some.inj hfirst
      subst hab
      rw [List.map_cons, List.nodup_cons] at hnodup
      refine ⟨_, hnode, by simp, rfl, n, ?_, hrest.update hnodup.1 _⟩
      rw [Function.update_self]

/-! ## Taking a node out -/

/-- A node is made to point on elsewhere; nothing happens at the null pointer. -/
def relinkNext (heap : P → Option (Node P D)) (p next : Option P) : P → Option (Node P D) :=
  match p with
  | none => heap
  | some a => Function.update heap a ((heap a).map fun node => { node with next := next })

/-- A node is made to point back elsewhere; nothing happens at the null pointer. -/
def relinkPrev (heap : P → Option (Node P D)) (p prev : Option P) : P → Option (Node P D) :=
  match p with
  | none => heap
  | some a => Function.update heap a ((heap a).map fun node => { node with prev := prev })

/-- A node is linked in at the front. -/
theorem Segment.pushFront {a : P} (h : Segment heap none first nodes none last)
    (hnodup : (nodes.map Prod.fst).Nodup) (ha : a ∉ nodes.map Prod.fst) (x : D) :
    ∃ last', Segment (relinkPrev (Function.update heap a (some ⟨first, none, x⟩)) first (some a))
      none (some a) ((a, x) :: nodes) none last' := by
  have hseg := h.update ha (some ⟨first, none, x⟩)
  cases nodes with
  | nil =>
      obtain ⟨rfl, -⟩ := h
      exact ⟨some a, rfl, none, Function.update_self _ _ _, rfl, rfl⟩
  | cons node nodes =>
      obtain rfl : first = some node.1 := h.head
      obtain ⟨e, he, hmem, hseg'⟩ := hseg.setPrev (by simp) hnodup (some a)
      have hne : a ≠ node.1 := fun heq => ha (heq ▸ hmem)
      refine ⟨last, rfl, some node.1, ?_, ?_⟩
      · simp only [relinkPrev]
        rw [Function.update_of_ne hne, Function.update_self]
      · simp only [relinkPrev, he, Option.map_some]
        exact hseg'

/-- The neighbours of a node are linked to each other. -/
def bypass (heap : P → Option (Node P D)) (node : Node P D) : P → Option (Node P D) :=
  relinkPrev (relinkNext heap node.prev node.next) node.next node.prev

/-- **Taking a node out.** The others are linked as before once its neighbours are linked to
each other, whatever becomes of the node itself. -/
theorem Segment.takeOut {a : P} {x : D}
    (h : Segment heap none first (pre ++ (a, x) :: post) none last)
    (hnodup : ((pre ++ (a, x) :: post).map Prod.fst).Nodup) :
    ∃ node, heap a = some node ∧ node.data = x ∧ (node.prev = none ↔ pre = []) ∧
      (node.next = none ↔ post = []) ∧ (first = some a ↔ pre = []) ∧ (last = some a ↔ post = []) ∧
      ∀ node', Segment (Function.update (bypass heap node) a node') none
        (if pre = [] then node.next else first) (pre ++ post) none
        (if post = [] then node.prev else last) := by
  obtain ⟨mid, link, hpre, rfl, n, hnode, hpost⟩ := segment_append.mp h
  rw [List.map_append, List.map_cons, List.nodup_append, List.nodup_cons] at hnodup
  obtain ⟨hnpre, ⟨hapost, hnpost⟩, hdisj⟩ := hnodup
  have hapre : a ∉ pre.map Prod.fst := fun hm => hdisj a hm a List.mem_cons_self rfl
  have hcross : ∀ b ∈ pre.map Prod.fst, b ∉ post.map Prod.fst := fun b hb hm =>
    hdisj b hb b (List.mem_cons_of_mem _ hm) rfl
  -- first the pointer on from the predecessor
  have hnext : Segment (relinkNext heap link n) none (if pre = [] then n else first) pre n link ∧
      Segment (relinkNext heap link n) (some a) n post none last := by
    by_cases hempty : pre = []
    · subst hempty
      obtain ⟨hfirst, rfl⟩ := hpre
      exact ⟨⟨by simp, rfl⟩, hpost⟩
    · obtain ⟨b, -, rfl⟩ := hpre.exists_last hempty
      obtain ⟨node, hnode', hmem, hpre'⟩ := hpre.setNext hempty hnpre n
      simp only [relinkNext, hnode', Option.map_some]
      refine ⟨?_, hpost.update (hcross b hmem) _⟩
      rw [if_neg hempty]
      exact hpre'
  obtain ⟨hpre₁, hpost₁⟩ := hnext
  -- then the pointer back from the successor
  have hprev : Segment (bypass heap ⟨n, link, x⟩) none (if pre = [] then n else first) pre n link ∧
      Segment (bypass heap ⟨n, link, x⟩) link n post none (if post = [] then link else last) := by
    by_cases hempty : post = []
    · subst hempty
      obtain ⟨rfl, -⟩ := hpost₁
      exact ⟨hpre₁, ⟨rfl, by simp⟩⟩
    · obtain ⟨⟨b, y⟩, rest, rfl⟩ := List.exists_cons_of_ne_nil hempty
      obtain rfl : n = some b := hpost₁.head
      obtain ⟨node, hnode', hmem, hpost'⟩ := hpost₁.setPrev (by simp) hnpost link
      simp only [bypass, relinkPrev, hnode', Option.map_some]
      refine ⟨hpre₁.update (fun hm => hcross b hm hmem) _, ?_⟩
      rw [if_neg (by simp)]
      exact hpost'
  refine ⟨⟨n, link, x⟩, hnode, rfl, ?_, ?_, ?_, ?_, fun node' => ?_⟩
  · by_cases hempty : pre = []
    · subst hempty
      simpa using hpre.2
    · obtain ⟨b, -, rfl⟩ := hpre.exists_last hempty
      simp [hempty]
  · cases post with
    | nil => simpa using hpost.1
    | cons node post => simp [hpost.head]
  · cases pre with
    | nil => simpa using hpre.1
    | cons node pre =>
        obtain ⟨b, y⟩ := node
        rw [hpre.head]
        have hne : b ≠ a := fun hba => hapre (by simp [hba])
        simp [hne]
  · by_cases hempty : post = []
    · subst hempty
      simpa using hpost.2
    · obtain ⟨b, hmem, rfl⟩ := hpost.exists_last hempty
      have hne : b ≠ a := fun hba => hapost (hba ▸ hmem)
      simp [hne, hempty]
  · exact segment_append.mpr ⟨n, link, hprev.1.update hapre _, hprev.2.update hapost _⟩

end Segment

end DoublyLinked
