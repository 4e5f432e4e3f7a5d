import Mathlib.Data.List.Perm.Basic

set_option autoImplicit false

/-! # Lists of buckets

A table with chaining is a list of buckets and a function that says where an element belongs.
All elements together are the flattened list, and up to its order every change of one bucket is
a change at the front of that list.
-/

namespace Buckets

variable {A : Type} {bs : List (List A)} {i : Nat}

/-- The bucket at an index, empty if there is none. -/
def bucket (bs : List (List A)) (i : Nat) : List A := (bs[i]?).getD []

/-- Every element is in the bucket where it belongs. -/
def InPlace (index : A → Nat) (bs : List (List A)) : Prop :=
  ∀ i, ∀ a ∈ bucket bs i, index a = i

/-- Put an element in front of its bucket. -/
def place (index : A → Nat) (bs : List (List A)) (a : A) : List (List A) :=
  bs.set (index a) (a :: bucket bs (index a))

theorem bucket_set (b : List A) (hi : i < bs.length) (j : Nat) :
    bucket (bs.set i b) j = if i = j then b else bucket bs j := by
  unfold bucket
  rw [List.getElem?_set]
  split_ifs with h
  · simp
  · rfl

theorem mem_flatten_iff (a : A) : a ∈ bs.flatten ↔ ∃ i, a ∈ bucket bs i := by
  rw [List.mem_flatten]
  constructor
  · rintro ⟨b, hb, ha⟩
    obtain ⟨i, hi, rfl⟩ := List.getElem_of_mem hb
    exact ⟨i, by simpa [bucket, List.getElem?_eq_getElem hi] using ha⟩
  · rintro ⟨i, ha⟩
    unfold bucket at ha
    cases hb : bs[i]? with
    | none => simp [hb] at ha
    | some b =>
        rw [hb] at ha
        exact ⟨b, List.mem_of_getElem? hb, ha⟩

/-- An element is looked for in the bucket where it belongs. -/
theorem InPlace.mem_iff {index : A → Nat} (h : InPlace index bs) (a : A) :
    a ∈ bs.flatten ↔ a ∈ bucket bs (index a) := by
  rw [mem_flatten_iff]
  constructor
  · rintro ⟨i, ha⟩
    rw [h i a ha]
    exact ha
  · intro ha
    exact ⟨_, ha⟩

/-- A bucket and the others. -/
theorem flatten_perm (hi : i < bs.length) :
    bs.flatten.Perm (bucket bs i ++ (bs.eraseIdx i).flatten) := by
  have hget : bucket bs i = bs[i] := by simp [bucket, List.getElem?_eq_getElem hi]
  rw [hget, ← List.flatten_cons]
  exact (List.getElem_cons_eraseIdx_perm hi).symm.flatten

theorem flatten_set_perm (b : List A) (hi : i < bs.length) :
    (bs.set i b).flatten.Perm (b ++ (bs.eraseIdx i).flatten) := by
  rw [← List.flatten_cons]
  exact (List.set_perm_cons_eraseIdx hi b).flatten

/-- A change of one bucket is a change of all elements. -/
theorem flatten_set_perm_of_perm {b c : List A} (hi : i < bs.length)
    (h : b.Perm (c ++ bucket bs i)) : (bs.set i b).flatten.Perm (c ++ bs.flatten) := by
  have hset := flatten_set_perm b hi
  have hold := (flatten_perm hi).append_left c
  refine hset.trans ((h.append_right _).trans ?_)
  rw [List.append_assoc]
  exact hold.symm

theorem place_perm {index : A → Nat} {a : A} (hi : index a < bs.length) :
    (place index bs a).flatten.Perm (a :: bs.flatten) := by
  have hperm : (a :: bucket bs (index a)).Perm ([a] ++ bucket bs (index a)) := List.Perm.refl _
  exact flatten_set_perm_of_perm hi hperm

@[simp] theorem length_place (index : A → Nat) (a : A) : (place index bs a).length = bs.length := by
  simp [place]

theorem InPlace.set {index : A → Nat} {b : List A} (h : InPlace index bs) (hi : i < bs.length)
    (hb : ∀ a ∈ b, index a = i) : InPlace index (bs.set i b) := by
  intro j a ha
  rw [bucket_set b hi] at ha
  split_ifs at ha with hij
  · rw [← hij]
    exact hb a ha
  · exact h j a ha

theorem InPlace.place {index : A → Nat} {a : A} (h : InPlace index bs)
    (hi : index a < bs.length) : InPlace index (place index bs a) := by
  refine h.set hi fun x hx => ?_
  rcases List.mem_cons.mp hx with rfl | hx
  · rfl
  · exact h _ x hx

/-- **Filling a table.** -/
theorem foldl_place {index : A → Nat} (as : List A) (h : InPlace index bs)
    (hall : ∀ a ∈ as, index a < bs.length) :
    InPlace index (as.foldl (Buckets.place index) bs) ∧
      (as.foldl (Buckets.place index) bs).length = bs.length ∧
      (as.foldl (Buckets.place index) bs).flatten.Perm (as ++ bs.flatten) := by
  induction as generalizing bs with
  | nil => exact ⟨h, rfl, List.Perm.refl _⟩
  | cons a as ih =>
      have hi := hall a List.mem_cons_self
      obtain ⟨h1, h2, h3⟩ := ih (h.place hi) fun x hx => by
        rw [length_place]
        exact hall x (List.mem_cons_of_mem _ hx)
      refine ⟨h1, h2.trans (length_place index a), h3.trans ?_⟩
      exact ((place_perm hi).append_left as).trans List.perm_middle

theorem inPlace_replicate (index : A → Nat) (n : Nat) :
    InPlace index (List.replicate n ([] : List A)) := by
  intro i a ha
  unfold bucket at ha
  rw [List.getElem?_replicate] at ha
  split_ifs at ha <;> simp at ha

end Buckets
