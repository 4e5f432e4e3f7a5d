import Mathlib.Algebra.Group.Nat.Defs
import CWebUI.Containers.LinkedList

set_option autoImplicit false

/-! # The linked list is a sequence

The reference is a sequence of data pointers, with one function for what each call does to it
(`ListOp.spec`). As long as no call extracts the last of several entries, the list in memory
represents the reference and every call returns what the reference says.
-/

namespace CWebUI.Containers

open DoublyLinked

/-! ## The reference -/

/-- An element of the reference, as a call returns it. -/
def elementAt (xs : List Data) (i : Nat) : Data := (xs[i]?).getD none

/-- What a call does to the reference, and what it returns. -/
def ListOp.spec (freer : Bool) (xs : List Data) : ListOp → List Data × ListResult
  | .append data first _ => (if first then data :: xs else xs ++ [data], .status true)
  | .delete data => (xs.erase data, .status (decide (data ∈ xs)))
  | .extractAt pos => (xs.eraseIdx pos.toNat, .element (elementAt xs pos.toNat))
  | .getAt pos => (xs, .element (elementAt xs pos.toNat))
  | .clear => ([], .status (decide (xs ≠ [])))
  | .destroy => ([], .elements (if freer then xs else []))
  | .iterate n => (xs, .elements ((List.range n).map (elementAt xs)))

/-- The reference after a number of calls, and what they return. -/
def specList (freer : Bool) : List ListOp → List Data → List Data × List ListResult
  | [], xs => (xs, [])
  | op :: ops, xs =>
      let (ys, results) := specList freer ops (op.spec freer xs).1
      (ys, (op.spec freer xs).2 :: results)

/-- The list in memory represents the sequence. -/
def RefinesSequence (s : ListState) (xs : List Data) : Prop :=
  ∃ nodes : List (Ptr × Data), nodes.map Prod.snd = xs ∧ Forward s.heap s.list.first nodes ∧
    s.list.elementCount.toNat = xs.length ∧ (s.list.first = none ↔ xs = []) ∧
    (xs ≠ [] → s.list.last = nodes.getLast?.map Prod.fst ∧
      Backward s.heap s.list.last nodes.reverse)

/-- `malloc` returns memory that is not in use. -/
def ListOp.Fresh (heap : ListHeap) : ListOp → Prop
  | .append _ _ new => heap new = none
  | _ => True

/-- The call is one that keeps the list intact: it does not extract the last of several
entries, and the entries can still be counted. -/
def ListOp.Safe (xs : List Data) : ListOp → Prop
  | .append _ _ _ => xs.length + 1 < 2 ^ 32
  | .extractAt pos => ¬ (2 ≤ xs.length ∧ pos.toNat + 1 = xs.length)
  | _ => True

instance (heap : ListHeap) (op : ListOp) : Decidable (op.Fresh heap) :=
  match op with
  | .append _ _ new => inferInstanceAs (Decidable (heap new = none))
  | .delete _ | .extractAt _ | .getAt _ | .clear | .destroy | .iterate _ => .isTrue trivial

instance (xs : List Data) (op : ListOp) : Decidable (op.Safe xs) :=
  match op with
  | .append _ _ _ => inferInstanceAs (Decidable (_ < _))
  | .extractAt _ => inferInstanceAs (Decidable (¬ _))
  | .delete _ | .getAt _ | .clear | .destroy | .iterate _ => .isTrue trivial

/-- Every call of a run finds fresh memory and is safe. -/
def SafeRun (fuel : Nat) : List ListOp → ListState → List Data → Prop
  | [], _, _ => True
  | op :: ops, s, xs => op.Fresh s.heap ∧ op.Safe xs ∧
      ∀ s' r, op.exec fuel s = some (s', r) → SafeRun fuel ops s' (op.spec s.list.freer xs).1

/-! ## The invariant -/

/-- The list is linked through the nodes. An empty list may have any `last`. -/
structure Represents (s : ListState) (nodes : List (Ptr × Data)) : Prop where
  linked : ∃ last, Segment s.heap none s.list.first nodes none last ∧
    (nodes ≠ [] → s.list.last = last)
  nodup : (nodes.map Prod.fst).Nodup
  count : s.list.elementCount = UInt32.ofNat nodes.length
  bound : nodes.length < 2 ^ 32

theorem Represents.refines {s : ListState} {nodes : List (Ptr × Data)} (h : Represents s nodes) :
    RefinesSequence s (nodes.map Prod.snd) := by
  obtain ⟨last, hseg, hlast⟩ := h.linked
  refine ⟨nodes, rfl, hseg.forward, ?_, ?_, fun hne => ?_⟩
  · rw [h.count, List.length_map, UInt32.toNat_ofNat_of_lt' h.bound]
  · cases nodes with
    | nil => simp [hseg.1]
    | cons node nodes => simp [hseg.1]
  · have hne' : nodes ≠ [] := fun hnil => hne (by rw [hnil]; rfl)
    rw [hlast hne']
    exact ⟨hseg.last_eq hne', hseg.backward⟩

/-! ## The loops -/

theorem ofNat_succ_sub_one (n : Nat) : UInt32.ofNat (n + 1) - 1 = UInt32.ofNat n := by
  rw [UInt32.ofNat_add]
  exact UInt32.add_sub_cancel _ _

theorem toNat_ofNat_of_small {n : Nat} (h : n < 2 ^ 32) : (UInt32.ofNat n).toNat = n :=
  UInt32.toNat_ofNat_of_lt' h

theorem freeAll_spec {nodes : List (Ptr × Data)} {prev last : Option Ptr} {a : Ptr} {x : Data}
    (fuel : Nat) (s : ListState) (hseg : Segment s.heap prev (some a) ((a, x) :: nodes) none last)
    (hnodup : (((a, x) :: nodes).map Prod.fst).Nodup)
    (hcount : s.list.elementCount = UInt32.ofNat (nodes.length + 1)) (hfuel : nodes.length < fuel) :
    ∃ heap, freeAll fuel a s = some (⟨heap, { s.list with elementCount := 0, first := none }⟩,
      ((a, x) :: nodes).map Prod.snd) := by
  induction nodes generalizing fuel s prev a x with
  | nil =>
      obtain ⟨fuel, rfl⟩ : ∃ k, fuel = k + 1 := ⟨fuel - 1, by simp at hfuel; omega⟩
      obtain ⟨-, n, hnode, hn, -⟩ := hseg
      have hzero : s.list.elementCount - 1 = 0 := hcount ▸ ofNat_succ_sub_one 0
      exact ⟨s.heap.free a, by simp [freeAll, hnode, hn, hzero]⟩
  | cons node nodes ih =>
      obtain ⟨b, y⟩ := node
      obtain ⟨fuel, rfl⟩ : ∃ k, fuel = k + 1 := ⟨fuel - 1, by omega⟩
      obtain ⟨-, n, hnode, hrest⟩ := hseg
      obtain rfl : n = some b := hrest.head
      rw [List.map_cons, List.nodup_cons] at hnodup
      have hrest' := hrest.update hnodup.1 none
      obtain ⟨heap, heq⟩ := ih fuel
        { s with
          heap := s.heap.free a
          list.elementCount := s.list.elementCount - 1 } hrest' hnodup.2
        (hcount ▸ ofNat_succ_sub_one _) (by simpa using hfuel)
      exact ⟨heap, by simp [freeAll, hnode, heq]⟩

theorem findEntry_spec {nodes : List (Ptr × Data)} {heap : ListHeap} {prev last : Option Ptr}
    {a : Ptr} {x : Data} (fuel : Nat) (data : Data)
    (hseg : Segment heap prev (some a) ((a, x) :: nodes) none last) (hfuel : nodes.length < fuel) :
    findEntry fuel heap a data =
      some ((((a, x) :: nodes).find? fun node => node.2 = data).map Prod.fst) := by
  induction nodes generalizing fuel prev a x with
  | nil =>
      obtain ⟨fuel, rfl⟩ : ∃ k, fuel = k + 1 := ⟨fuel - 1, by simp at hfuel; omega⟩
      obtain ⟨-, n, hnode, hn, -⟩ := hseg
      by_cases hx : x = data
      · simp [findEntry, hnode, hx]
      · simp [findEntry, hnode, hx, hn]
  | cons node nodes ih =>
      obtain ⟨b, y⟩ := node
      obtain ⟨fuel, rfl⟩ : ∃ k, fuel = k + 1 := ⟨fuel - 1, by omega⟩
      obtain ⟨-, n, hnode, hrest⟩ := hseg
      obtain rfl : n = some b := hrest.head
      by_cases hx : x = data
      · simp [findEntry, hnode, hx]
      · rw [List.find?_cons_of_neg (by simpa using hx)]
        simp only [findEntry, hnode, if_neg hx]
        exact ih fuel hrest (by simpa using hfuel)

theorem ofNat_eq_iff {i : Nat} {pos : UInt32} (hpos : i ≤ pos.toNat) (hi : i < 2 ^ 32) :
    UInt32.ofNat i = pos ↔ pos.toNat - i = 0 := by
  rw [← UInt32.toNat_inj, toNat_ofNat_of_small hi]
  omega

/-- The entry that is found at a position, when the search has come to position `i`. -/
theorem entryAtLoop_spec {nodes : List (Ptr × Data)} {heap : ListHeap} {prev last : Option Ptr}
    {a : Ptr} {x : Data} (fuel i : Nat) (pos : UInt32)
    (hseg : Segment heap prev (some a) ((a, x) :: nodes) none last) (hfuel : nodes.length < fuel)
    (hpos : i ≤ pos.toNat) (hbound : i + nodes.length < 2 ^ 32) :
    entryAtLoop fuel heap a (UInt32.ofNat i) pos =
      some ((((a, x) :: nodes)[pos.toNat - i]?).map Prod.fst) := by
  induction nodes generalizing fuel prev a x i with
  | nil =>
      obtain ⟨fuel, rfl⟩ : ∃ k, fuel = k + 1 := ⟨fuel - 1, by simp at hfuel; omega⟩
      obtain ⟨-, n, hnode, hn, -⟩ := hseg
      have heq := ofNat_eq_iff hpos (Nat.lt_of_le_of_lt (Nat.le_add_right _ _) hbound)
      by_cases h : pos.toNat - i = 0
      · simp [entryAtLoop, hnode, heq.mpr h, h]
      · have hnone : [(a, x)][pos.toNat - i]? = none := by
          rw [List.getElem?_eq_none_iff, List.length_singleton]
          omega
        simp [entryAtLoop, hnode, mt heq.mp h, hn, hnone]
  | cons node nodes ih =>
      obtain ⟨b, y⟩ := node
      obtain ⟨fuel, rfl⟩ : ∃ k, fuel = k + 1 := ⟨fuel - 1, by omega⟩
      obtain ⟨-, n, hnode, hrest⟩ := hseg
      obtain rfl : n = some b := hrest.head
      have heq := ofNat_eq_iff hpos (Nat.lt_of_le_of_lt (Nat.le_add_right _ _) hbound)
      by_cases h : pos.toNat - i = 0
      · simp [entryAtLoop, hnode, heq.mpr h, h]
      · simp only [entryAtLoop, hnode, if_neg (mt heq.mp h)]
        have hnext : UInt32.ofNat i + 1 = UInt32.ofNat (i + 1) := (UInt32.ofNat_add i 1).symm
        have hlen : i + 1 + nodes.length < 2 ^ 32 := by
          rw [List.length_cons] at hbound
          omega
        rw [hnext, ih fuel (i + 1) hrest (by simpa using hfuel) (by omega) hlen]
        obtain ⟨k, hk⟩ : ∃ k, pos.toNat - i = k + 1 := ⟨pos.toNat - i - 1, by omega⟩
        rw [hk, show pos.toNat - (i + 1) = k from by omega, List.getElem?_cons_succ]

/-! ## Taking an entry out -/

/-- The neighbours of an entry are linked to each other, and its memory is freed. -/
theorem unlinkEntry_spec {heap : ListHeap} {first last : Option Ptr} {pre post : List (Ptr × Data)}
    {a : Ptr} {x : Data} (hseg : Segment heap none first (pre ++ (a, x) :: post) none last)
    (hnodup : ((pre ++ (a, x) :: post).map Prod.fst).Nodup) :
    ∃ e heap', heap a = some e ∧ e.data = x ∧ unlinkEntry heap e = some heap' ∧
      (e.prev = none ↔ pre = []) ∧ (first = some a ↔ pre = []) ∧ (last = some a ↔ post = []) ∧
      Segment (heap'.free a) none (if pre = [] then e.next else first) (pre ++ post) none
        (if post = [] then e.prev else last) := by
  obtain ⟨node, hnode, hdata, hprev, -, hfirst, hlast, hrest⟩ := hseg.takeOut hnodup
  refine ⟨node, bypass heap node, hnode, hdata, ?_, hprev, hfirst, hlast, hrest none⟩
  obtain ⟨mid, link, hpre, hmid, n, hnode', hpost⟩ := segment_append.mp hseg
  obtain rfl : node = ⟨n, link, x⟩ := Option.some.inj (hnode.symm.trans hnode')
  rw [List.map_append, List.map_cons, List.nodup_append, List.nodup_cons] at hnodup
  -- both neighbours are in memory, so the assignments have a result
  have hset₁ : heap.linkNext link n = some (relinkNext heap link n) := by
    cases link with
    | none => rfl
    | some b =>
        have hne : pre ≠ [] := fun hempty => absurd (hprev.mpr hempty) (by simp)
        obtain ⟨e, he, -⟩ := hpre.setNext hne hnodup.1 n
        simp only [ListHeap.linkNext, ListHeap.setNext, relinkNext, he, Option.map_some]
  have hset₂ : ListHeap.linkPrev (relinkNext heap link n) n link =
      some (bypass heap ⟨n, link, x⟩) := by
    cases n with
    | none => rfl
    | some b =>
        have hmem : b ∈ post.map Prod.fst := by
          cases post with
          | nil => exact absurd hpost.1 (by simp)
          | cons entry post => simp [Option.some.inj hpost.1]
        have halloc : relinkNext heap link (some b) b ≠ none := by
          cases link with
          | none => exact hpost.allocated hmem
          | some c =>
              simp only [relinkNext]
              by_cases hbc : b = c
              · subst hbc
                rw [Function.update_self]
                simpa using hpost.allocated hmem
              · rw [Function.update_of_ne hbc]
                exact hpost.allocated hmem
        obtain ⟨e, he⟩ := Option.ne_none_iff_exists'.mp halloc
        simp only [ListHeap.linkPrev, ListHeap.setPrev, he, bypass, relinkPrev, Option.map_some]
  rw [unlinkEntry, hset₁]
  exact hset₂

/-! ## The calls -/

variable {s : ListState} {nodes : List (Ptr × Data)}

/-- What is known of a call: it has a result, the one of the reference, and the list
represents the reference again. -/
def Performs (fuel : Nat) (s : ListState) (xs : List Data) (op : ListOp) : Prop :=
  ∃ s' nodes, op.exec fuel s = some (s', (op.spec s.list.freer xs).2) ∧ Represents s' nodes ∧
    nodes.map Prod.snd = (op.spec s.list.freer xs).1 ∧ s'.list.freer = s.list.freer

/-- The list is linked through the nodes, whatever it counts. -/
def Linked (s : ListState) (nodes : List (Ptr × Data)) : Prop :=
  (∃ last, Segment s.heap none s.list.first nodes none last ∧ (nodes ≠ [] → s.list.last = last)) ∧
    (nodes.map Prod.fst).Nodup

/-- A new entry is linked in at one of the ends. -/
theorem wsListAppend_linked (h : Linked s nodes) (data : Data) (first : Bool) {new : Ptr}
    (hnew : s.heap new = none) :
    ∃ s', wsListAppend data first new s = some s' ∧
      Linked s' (if first then (new, data) :: nodes else nodes ++ [(new, data)]) ∧
      s'.list.elementCount = s.list.elementCount + 1 ∧ s'.list.freer = s.list.freer := by
  obtain ⟨⟨last, hseg, hlast⟩, hnodup⟩ := h
  have hfresh : new ∉ nodes.map Prod.fst := fun hm => hseg.allocated hm hnew
  cases nodes with
  | nil =>
      obtain ⟨hfirst, -⟩ := hseg
      refine ⟨{ s with
          heap := Function.update s.heap new (some ⟨none, none, data⟩)
          list.elementCount := s.list.elementCount + 1
          list.first := some new
          list.last := some new }, by simp [wsListAppend, hfirst], ?_, rfl, rfl⟩
      have hnodes : (if first then (new, data) :: [] else [] ++ [(new, data)]) = [(new, data)] := by
        cases first <;> rfl
      rw [hnodes]
      exact ⟨⟨some new, ⟨rfl, none, Function.update_self _ _ _, rfl, rfl⟩, fun _ => rfl⟩, by simp⟩
  | cons node nodes =>
      obtain ⟨a, x⟩ := node
      have hfirst : s.list.first = some a := hseg.head
      have hne : a ≠ new := fun ha => hfresh (by simp [ha])
      cases first with
      | true =>
          have hseg₁ := hseg.update hfresh (some ⟨some a, none, data⟩)
          rw [hfirst] at hseg₁
          obtain ⟨e, hnode, -, hseg₂⟩ := hseg₁.setPrev (by simp) hnodup (some new)
          refine ⟨⟨Function.update (Function.update s.heap new (some ⟨some a, none, data⟩)) a
              (some { e with prev := some new }), { s.list with
                elementCount := s.list.elementCount + 1
                first := some new }⟩, ?_, ⟨⟨last, ⟨rfl, some a, ?_, hseg₂⟩, fun _ =>
            hlast (by simp)⟩, ?_⟩, rfl, rfl⟩
          · simp only [wsListAppend, hfirst, ListHeap.setPrev, hnode]
            rfl
          · simp only
            rw [Function.update_of_ne hne.symm, Function.update_self]
          · rw [if_pos rfl, List.map_cons, List.nodup_cons]
            exact ⟨hfresh, hnodup⟩
      | false =>
          obtain ⟨b, hb, rfl⟩ := hseg.exists_last (by simp)
          have hlast' : s.list.last = some b := hlast (by simp)
          have hseg₁ := hseg.update hfresh (some ⟨none, some b, data⟩)
          obtain ⟨e, hnode, hmem, hseg₂⟩ := hseg₁.setNext (by simp) hnodup (some new)
          have hneb : b ≠ new := fun hbn => hfresh (hbn ▸ hmem)
          refine ⟨⟨Function.update (Function.update s.heap new (some ⟨none, some b, data⟩)) b
              (some { e with next := some new }), { s.list with
                elementCount := s.list.elementCount + 1
                last := some new }⟩, ?_, ⟨⟨some new, segment_append.mpr ⟨some new,
            some b, hseg₂, rfl, none, ?_, rfl, rfl⟩, fun _ => rfl⟩, ?_⟩, rfl, rfl⟩
          · simp only [wsListAppend, hfirst, hlast', ListHeap.setNext, hnode]
            rfl
          · simp only
            rw [Function.update_of_ne hneb.symm, Function.update_self]
          · rw [if_neg Bool.false_ne_true, List.map_append, List.nodup_append]
            refine ⟨hnodup, by simp, fun c hc d hd => ?_⟩
            have hd' : d = new := by simpa using hd
            exact fun hcd => hfresh (by rw [← hd', ← hcd]; exact hc)

theorem append_performs {fuel : Nat} (h : Represents s nodes) (data : Data) (first : Bool)
    {new : Ptr} (hnew : s.heap new = none) (hsafe : nodes.length + 1 < 2 ^ 32) :
    Performs fuel s (nodes.map Prod.snd) (.append data first new) := by
  obtain ⟨s', hexec, hlinked, hcount, hfreer⟩ :=
    wsListAppend_linked ⟨h.linked, h.nodup⟩ data first hnew
  have hlen : (if first then (new, data) :: nodes else nodes ++ [(new, data)]).length =
      nodes.length + 1 := by
    cases first <;> simp
  refine ⟨s', _, ?_, ⟨hlinked.1, hlinked.2, ?_, ?_⟩, ?_, hfreer⟩
  · simp [ListOp.exec, hexec, ListOp.spec]
  · rw [hcount, h.count, hlen]
    exact (UInt32.ofNat_add _ 1).symm
  · rw [hlen]
    exact hsafe
  · cases first <;> simp [ListOp.spec]

/-- **Taking an entry out.** The rest is represented by every list record that points at its
ends. -/
theorem Represents.unlink {pre post : List (Ptr × Data)} {a : Ptr} {x : Data}
    (h : Represents s (pre ++ (a, x) :: post)) :
    ∃ e heap, s.heap a = some e ∧ e.data = x ∧ unlinkEntry s.heap e = some heap ∧
      (e.prev = none ↔ pre = []) ∧ (s.list.first = some a ↔ pre = []) ∧
      (s.list.last = some a ↔ post = []) ∧
      ∀ list : ListT, list.elementCount = s.list.elementCount - 1 →
        list.first = (if pre = [] then e.next else s.list.first) →
        (pre ++ post ≠ [] → list.last = if post = [] then e.prev else s.list.last) →
        Represents ⟨heap.free a, list⟩ (pre ++ post) := by
  obtain ⟨last, hseg, hlast⟩ := h.linked
  obtain rfl : s.list.last = last := hlast (by simp)
  obtain ⟨e, heap, hnode, hdata, hunlink, hprev, hfirst, hend, hrest⟩ := unlinkEntry_spec hseg h.nodup
  refine ⟨e, heap, hnode, hdata, hunlink, hprev, hfirst, hend, fun list hcount hf hl => ?_⟩
  have hlen : (pre ++ (a, x) :: post).length = (pre ++ post).length + 1 := by
    simp only [List.length_append, List.length_cons]
    omega
  refine ⟨⟨_, ?_, hl⟩, ?_, ?_, ?_⟩
  · simp only [hf]
    exact hrest
  · have hsub : List.Sublist ((pre ++ post).map Prod.fst) ((pre ++ (a, x) :: post).map Prod.fst) :=
      ((List.sublist_cons_self _ _).append_left pre).map _
    exact h.nodup.sublist hsub
  · rw [hcount, h.count, hlen]
    exact ofNat_succ_sub_one _
  · have hbound := h.bound
    omega

/-- The data that a search is for, as a search among the nodes. -/
theorem find_split {nodes : List (Ptr × Data)} {a : Ptr} {x data : Data}
    (h : nodes.find? (fun node => node.2 = data) = some (a, x)) :
    ∃ pre post, nodes = pre ++ (a, x) :: post ∧
      (nodes.map Prod.snd).erase data = (pre ++ post).map Prod.snd := by
  obtain ⟨hx, pre, post, rfl, hpre⟩ := List.find?_eq_some_iff_append.mp h
  have hx' : x = data := by simpa using hx
  refine ⟨pre, post, rfl, ?_⟩
  have hnot : data ∉ pre.map Prod.snd := by
    intro hm
    obtain ⟨node, hnode, heq⟩ := List.mem_map.mp hm
    exact absurd heq (by simpa using hpre node hnode)
  rw [List.map_append, List.erase_append_right _ hnot, List.map_cons, hx', List.erase_cons_head,
    List.map_append]

theorem delete_performs {fuel : Nat} (h : Represents s nodes) (data : Data)
    (hfuel : nodes.length < fuel) : Performs fuel s (nodes.map Prod.snd) (.delete data) := by
  obtain ⟨last, hseg, hlast⟩ := h.linked
  cases hnodes : nodes with
  | nil =>
      subst hnodes
      refine ⟨s, [], ?_, h, rfl, rfl⟩
      simp [ListOp.exec, wsListDelete, hseg.1, ListOp.spec]
  | cons node rest =>
      obtain ⟨b, y⟩ := node
      rw [hnodes] at hseg
      have hfirst : s.list.first = some b := hseg.head
      rw [hfirst] at hseg
      have hfind := findEntry_spec fuel data hseg (by rw [hnodes] at hfuel; simp at hfuel; omega)
      rw [← hnodes] at hfind
      cases hf : nodes.find? (fun node => node.2 = data) with
      | none =>
          have hnot : data ∉ nodes.map Prod.snd := by
            intro hm
            obtain ⟨node, hnode, heq⟩ := List.mem_map.mp hm
            exact absurd heq (by simpa using List.find?_eq_none.mp hf node hnode)
          rw [hf] at hfind
          rw [← hnodes]
          refine ⟨s, nodes, ?_, h, ?_, rfl⟩
          · simp [ListOp.exec, wsListDelete, hfirst, hfind, ListOp.spec, hnot]
          · exact (List.erase_of_not_mem hnot).symm
      | some node =>
          obtain ⟨a, x⟩ := node
          obtain ⟨pre, post, hsplit, herase⟩ := find_split hf
          rw [hf] at hfind
          rw [← hnodes]
          have hmem : data ∈ nodes.map Prod.snd := by
            have hx : x = data := by simpa using List.find?_some hf
            exact List.mem_map.mpr ⟨(a, x), List.mem_of_find?_eq_some hf, hx⟩
          rw [hsplit] at h
          obtain ⟨e, heap, hnode, -, hunlink, -, hfirst', hend, hrest⟩ := h.unlink
          refine ⟨_, pre ++ post, ?_, hrest { s.list with
            elementCount := s.list.elementCount - 1
            first := if s.list.first = some a then e.next else s.list.first
            last := if s.list.last = some a then e.prev else s.list.last } rfl ?_ (fun _ => ?_),
            herase.symm, rfl⟩
          · simp [ListOp.exec, wsListDelete, hfirst, hfind, hnode, hunlink, ListOp.spec, hmem]
          · simp only [hfirst']
          · simp only [hend]

theorem freeAll_performs {fuel : Nat} (h : Represents s nodes) (hfuel : nodes.length < fuel)
    {first : Ptr} (hfirst : s.list.first = some first) :
    ∃ heap, freeAll fuel first s = some (⟨heap, { s.list with elementCount := 0, first := none }⟩,
      nodes.map Prod.snd) := by
  obtain ⟨last, hseg, -⟩ := h.linked
  cases nodes with
  | nil => exact absurd (hfirst.symm.trans hseg.1) (by simp)
  | cons node rest =>
      obtain ⟨a, x⟩ := node
      obtain rfl : first = a := Option.some.inj (hfirst.symm.trans hseg.head)
      rw [hfirst] at hseg
      exact freeAll_spec fuel s hseg h.nodup h.count (by simp at hfuel; omega)

/-- An empty list. -/
theorem represents_nil (heap : ListHeap) (list : ListT) (hcount : list.elementCount = 0)
    (hfirst : list.first = none) : Represents ⟨heap, list⟩ [] :=
  ⟨⟨none, ⟨hfirst, rfl⟩, fun hne => absurd rfl hne⟩, by simp, hcount, by simp⟩

theorem clear_performs {fuel : Nat} (h : Represents s nodes) (hfuel : nodes.length < fuel) :
    Performs fuel s (nodes.map Prod.snd) .clear ∧ Performs fuel s (nodes.map Prod.snd) .destroy := by
  cases hfirst : s.list.first with
  | none =>
      obtain ⟨last, hseg, -⟩ := h.linked
      cases nodes with
      | nil =>
          constructor
          · exact ⟨s, [], by simp [ListOp.exec, wsListClear, hfirst, ListOp.spec], h, rfl, rfl⟩
          · exact ⟨s, [], by simp [ListOp.exec, wsListDestroy, hfirst, ListOp.spec], h, rfl, rfl⟩
      | cons node rest => exact absurd (hfirst.symm.trans hseg.1) (by simp)
  | some first =>
      obtain ⟨heap, hfree⟩ := freeAll_performs h hfuel hfirst
      have hne : nodes.map Prod.snd ≠ [] := by
        obtain ⟨last, hseg, -⟩ := h.linked
        rintro hnil
        rw [List.map_eq_nil_iff.mp hnil] at hseg
        exact absurd (hfirst.symm.trans hseg.1) (by simp)
      have hnil := represents_nil heap { s.list with elementCount := 0, first := none } rfl rfl
      constructor
      · refine ⟨_, [], ?_, hnil, rfl, rfl⟩
        simp only [ListOp.exec, wsListClear, hfirst, hfree, ListOp.spec, Option.map_some]
        simp [hne]
      · refine ⟨_, [], ?_, hnil, rfl, rfl⟩
        simp only [ListOp.exec, wsListDestroy, hfirst, hfree, ListOp.spec, Option.map_some]

/-- The entry at a position. -/
theorem wsListGetEntryAt_spec {fuel : Nat} (h : Represents s nodes) (hfuel : nodes.length < fuel)
    (pos : UInt32) : wsListGetEntryAt fuel pos s = some ((nodes[pos.toNat]?).map Prod.fst) := by
  obtain ⟨last, hseg, -⟩ := h.linked
  cases nodes with
  | nil => simp [wsListGetEntryAt, hseg.1]
  | cons node rest =>
      obtain ⟨a, x⟩ := node
      have hfirst : s.list.first = some a := hseg.head
      rw [hfirst] at hseg
      have hbound := h.bound
      rw [List.length_cons] at hbound hfuel
      simp only [wsListGetEntryAt, hfirst]
      exact entryAtLoop_spec fuel 0 pos hseg (by omega) (Nat.zero_le _) (by omega)

/-- The node at a position, with what stands around it. -/
theorem getElem_split {nodes : List (Ptr × Data)} {i : Nat} {a : Ptr} {x : Data}
    (h : nodes[i]? = some (a, x)) : ∃ pre post, nodes = pre ++ (a, x) :: post ∧ pre.length = i ∧
      (nodes.map Prod.snd).eraseIdx i = (pre ++ post).map Prod.snd := by
  obtain ⟨hi, hget⟩ := List.getElem?_eq_some_iff.mp h
  refine ⟨nodes.take i, nodes.drop (i + 1), ?_, ?_, ?_⟩
  · rw [← hget, ← List.drop_eq_getElem_cons hi, List.take_append_drop]
  · exact List.length_take_of_le (Nat.le_of_lt hi)
  · rw [List.eraseIdx_eq_take_drop_succ, List.map_append, List.map_take, List.map_drop]

theorem elementAt_map (nodes : List (Ptr × Data)) (i : Nat) :
    elementAt (nodes.map Prod.snd) i = ((nodes[i]?).map Prod.snd).getD none := by
  rw [elementAt, List.getElem?_map]

theorem extractAt_performs {fuel : Nat} (h : Represents s nodes) (pos : UInt32)
    (hsafe : ¬ (2 ≤ nodes.length ∧ pos.toNat + 1 = nodes.length)) (hfuel : nodes.length < fuel) :
    Performs fuel s (nodes.map Prod.snd) (.extractAt pos) := by
  have hentry := wsListGetEntryAt_spec h hfuel pos
  cases hget : nodes[pos.toNat]? with
  | none =>
      rw [hget] at hentry
      refine ⟨s, nodes, ?_, h, ?_, rfl⟩
      · simp [ListOp.exec, wsListExtractAt, hentry, ListOp.spec, elementAt_map, hget]
      · have hle : nodes.length ≤ pos.toNat := List.getElem?_eq_none_iff.mp hget
        exact (List.eraseIdx_of_length_le (by rw [List.length_map]; exact hle)).symm
  | some node =>
      obtain ⟨a, x⟩ := node
      rw [hget] at hentry
      obtain ⟨pre, post, hsplit, hlen, herase⟩ := getElem_split hget
      rw [hsplit] at h
      obtain ⟨e, heap, hnode, hdata, hunlink, hprev, hfirst, -, hrest⟩ := h.unlink
      refine ⟨_, pre ++ post, ?_, hrest { s.list with
        elementCount := s.list.elementCount - 1
        first := if e.prev = none ∧ s.list.first = some a then e.next else s.list.first } rfl ?_
        (fun hne => ?_), herase.symm, rfl⟩
      · simp [ListOp.exec, wsListExtractAt, hentry, hnode, hunlink, ListOp.spec, elementAt_map, hget, hdata]
      · simp only [hprev, hfirst, and_self]
      · -- the last entry goes only if it is the only one
        have hpost : post ≠ [] := by
          rintro rfl
          have htotal : nodes.length = pos.toNat + 1 := by
            rw [hsplit, List.length_append, hlen]
            rfl
          have hpos : pos.toNat ≠ 0 := fun hz => by
            rw [hz] at hlen
            exact hne (by rw [List.length_eq_zero_iff.mp hlen]; rfl)
          omega
        rw [if_neg hpost]

theorem getAt_performs {fuel : Nat} (h : Represents s nodes) (pos : UInt32)
    (hfuel : nodes.length < fuel) : Performs fuel s (nodes.map Prod.snd) (.getAt pos) := by
  have hentry := wsListGetEntryAt_spec h hfuel pos
  refine ⟨s, nodes, ?_, h, rfl, rfl⟩
  cases hget : nodes[pos.toNat]? with
  | none =>
      rw [hget] at hentry
      simp [ListOp.exec, wsListGetAt, hentry, ListOp.spec, elementAt_map, hget]
  | some node =>
      obtain ⟨a, x⟩ := node
      rw [hget] at hentry
      obtain ⟨pre, post, hsplit, -, -⟩ := getElem_split hget
      rw [hsplit] at h
      obtain ⟨e, heap, hnode, hdata, -⟩ := h.unlink
      simp [ListOp.exec, wsListGetAt, hentry, hnode, ListOp.spec, elementAt_map, hget, hdata]

/-- What an iterator returns that stands at the first of the nodes. -/
theorem iteratorNexts_spec {prev last : Option Ptr} (n : Nat) (s : ListState)
    (hseg : Segment s.heap prev s.list.curIter nodes none last) :
    ∃ curIter, iteratorNexts n s = some ({ s with list.curIter := curIter },
      (List.range n).map (elementAt (nodes.map Prod.snd))) := by
  induction n generalizing s prev nodes with
  | zero => exact ⟨s.list.curIter, rfl⟩
  | succ n ih =>
      rw [List.range_succ_eq_map, List.map_cons, List.map_map]
      cases nodes with
      | nil =>
          have hcur : s.list.curIter = none := hseg.1
          obtain ⟨curIter, heq⟩ := ih s hseg
          refine ⟨curIter, ?_⟩
          simp only [iteratorNexts, wsListIteratorNext, hcur, heq, Option.map_some]
          rfl
      | cons node rest =>
          obtain ⟨a, x⟩ := node
          have hcur : s.list.curIter = some a := hseg.head
          obtain ⟨-, next, hnode, hrest⟩ := hseg
          obtain ⟨curIter, heq⟩ := ih { s with list.curIter := next } hrest
          refine ⟨curIter, ?_⟩
          simp only [iteratorNexts, wsListIteratorNext, hcur, hnode, heq, Option.map_some]
          rfl

theorem iterate_performs {fuel : Nat} (h : Represents s nodes) (n : Nat) :
    Performs fuel s (nodes.map Prod.snd) (.iterate n) := by
  obtain ⟨last, hseg, hlast⟩ := h.linked
  obtain ⟨curIter, heq⟩ := iteratorNexts_spec n (wsListIteratorStart s) hseg
  refine ⟨wsListIteratorStop { wsListIteratorStart s with list.curIter := curIter }, nodes, ?_,
    ⟨⟨last, hseg, hlast⟩, h.nodup, h.count, h.bound⟩, rfl, rfl⟩
  simp only [ListOp.exec, heq, ListOp.spec, Option.map_some]

/-- **Every safe call does what the reference does.** -/
theorem exec_performs {fuel : Nat} {op : ListOp} (h : Represents s nodes) (hfresh : op.Fresh s.heap)
    (hsafe : op.Safe (nodes.map Prod.snd)) (hfuel : nodes.length < fuel) :
    Performs fuel s (nodes.map Prod.snd) op := by
  cases op with
  | append data first new =>
      refine append_performs h data first hfresh ?_
      simpa [ListOp.Safe] using hsafe
  | delete data => exact delete_performs h data hfuel
  | extractAt pos =>
      refine extractAt_performs h pos ?_ hfuel
      simpa [ListOp.Safe] using hsafe
  | getAt pos => exact getAt_performs h pos hfuel
  | clear => exact (clear_performs h hfuel).1
  | destroy => exact (clear_performs h hfuel).2
  | iterate n => exact iterate_performs h n

/-! ## Runs -/

/-- A call makes the reference longer by at most one. -/
theorem spec_length_le (freer : Bool) (xs : List Data) (op : ListOp) :
    (op.spec freer xs).1.length ≤ xs.length + 1 := by
  cases op with
  | append data first new => cases first <;> simp [ListOp.spec]
  | delete data => exact Nat.le_succ_of_le List.length_erase_le
  | extractAt pos => exact Nat.le_succ_of_le (List.length_eraseIdx_le _ _)
  | getAt pos => exact Nat.le_succ _
  | clear => exact Nat.zero_le _
  | destroy => exact Nat.zero_le _
  | iterate n => exact Nat.le_succ _

/-- A safe run from any list that represents a sequence. -/
theorem runList_performs {fuel : Nat} (ops : List ListOp) (h : Represents s nodes)
    (hfuel : nodes.length + ops.length < fuel)
    (hrun : SafeRun fuel ops s (nodes.map Prod.snd)) :
    ∃ s' nodes', runList fuel ops s =
        some (s', (specList s.list.freer ops (nodes.map Prod.snd)).2) ∧ Represents s' nodes' ∧
      nodes'.map Prod.snd = (specList s.list.freer ops (nodes.map Prod.snd)).1 := by
  induction ops generalizing s nodes with
  | nil => exact ⟨s, nodes, rfl, h, rfl⟩
  | cons op ops ih =>
      obtain ⟨hfresh, hsafe, hrest⟩ := hrun
      rw [List.length_cons] at hfuel
      obtain ⟨s₁, nodes₁, hexec, h₁, hnodes₁, hfreer⟩ := exec_performs h hfresh hsafe
        (Nat.lt_of_le_of_lt (Nat.le_add_right _ _) hfuel)
      have hlen : nodes₁.length ≤ nodes.length + 1 := by
        have hle := spec_length_le s.list.freer (nodes.map Prod.snd) op
        rw [← hnodes₁, List.length_map, List.length_map] at hle
        exact hle
      have hrun₁ : SafeRun fuel ops s₁ (nodes₁.map Prod.snd) := by
        rw [hnodes₁]
        exact hrest _ _ hexec
      obtain ⟨s', nodes', hops, h', hnodes'⟩ := ih h₁ (by omega) hrun₁
      rw [hfreer, hnodes₁] at hops hnodes'
      refine ⟨s', nodes', ?_, h', ?_⟩
      · simp only [runList, hexec, hops, specList, Option.map_some]
      · rw [hnodes']
        rfl

/-- **The linked list is a sequence.** Every run of calls on a new list, in which no call
extracts the last of several entries and the entries can be counted, comes to its end; it
returns what the reference returns, and the list in memory represents the reference. -/
theorem linked_list_refines_sequence (heap : ListHeap) (freer : Bool) (ops : List ListOp)
    (fuel : Nat) (hfuel : ops.length < fuel) (hrun : SafeRun fuel ops (wsListInit heap freer) []) :
    ∃ s, runList fuel ops (wsListInit heap freer) = some (s, (specList freer ops []).2) ∧
      RefinesSequence s (specList freer ops []).1 := by
  have hinit : Represents (wsListInit heap freer) [] := represents_nil heap _ rfl rfl
  obtain ⟨s, nodes, hops, h, hnodes⟩ := runList_performs ops hinit (by simpa using hfuel) hrun
  refine ⟨s, hops, ?_⟩
  have hrefines := h.refines
  rw [hnodes] at hrefines
  exact hrefines

/-- Two entries, of which the first is taken out again. -/
def queueOps : List ListOp := [.append (some 7) false 1, .append (some 8) false 2, .extractAt 0]

theorem linked_list_refines_sequence_queue : SafeRun 4 queueOps (wsListInit (fun _ => none) false) [] ∧
    ∃ s, runList 4 queueOps (wsListInit (fun _ => none) false) =
        some (s, [.status true, .status true, .element (some 7)]) ∧ RefinesSequence s [some 8] := by
  have hrun : SafeRun 4 queueOps (wsListInit (fun _ => none) false) [] := by
    refine ⟨rfl, by decide, fun s₁ r₁ h₁ => ?_⟩
    obtain ⟨rfl, -⟩ := Prod.mk.inj (Option.some.inj h₁)
    refine ⟨by decide, by decide, fun s₂ r₂ h₂ => ?_⟩
    obtain ⟨rfl, -⟩ := Prod.mk.inj (Option.some.inj h₂)
    exact ⟨trivial, by decide, fun _ _ _ => trivial⟩
  exact ⟨hrun, linked_list_refines_sequence _ _ queueOps 4 (by decide) hrun⟩

/-- Two entries, of which the last is taken out. -/
def staleOps : List ListOp := [.append (some 7) false 1, .append (some 8) false 2, .extractAt 1]

/-- `ws_list_extract_at` leaves `last` at the entry that it has freed. -/
theorem extract_leaves_stale_last : ∃ s, runList 4 staleOps (wsListInit (fun _ => none) false) =
    some (s, (specList false staleOps []).2) ∧ ¬ RefinesSequence s (specList false staleOps []).1 := by
  refine ⟨_, rfl, ?_⟩
  rintro ⟨nodes, -, -, -, -, hlast⟩
  obtain ⟨-, hback⟩ := hlast (by decide)
  generalize nodes.reverse = back at hback
  cases hback with
  | cons h _ => exact absurd (show (none : Option ListEntry) = some _ from h) (by simp)

end CWebUI.Containers
