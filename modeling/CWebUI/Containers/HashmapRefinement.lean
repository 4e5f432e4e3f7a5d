import CWebUI.Containers.Hashmap
import Mathlib.Data.List.Nodup
import Mathlib.Data.Set.Card
import Mathlib.Order.Defs.LinearOrder

set_option autoImplicit false

/-! # The hash map is a finite map

The finite map that a table stands for is a function on the texts of the keys. The table has
two parts that the operations keep: its *layout* (a power of two of buckets, every entry in its
bucket) and its *content* (one entry for each key of the finite map). The content does not
depend on the order of the entries, so that every operation is one change at the front of the
list of all entries, and a resize is none.
-/

namespace CWebUI.Containers

open ByteString Buckets

/-- The finite map that a table stands for. -/
abbrev FiniteMap : Type := List UInt8 → Option HashValue

/-- The number of keys of a finite map. -/
noncomputable def FiniteMap.size (m : FiniteMap) : Nat := {key | (m key).isSome}.ncard

/-- All entries of a table. -/
def Hashmap.entries (map : Hashmap) : List HashmapEntry := map.buckets.flatten

/-! ## Texts of keys -/

theorem zero_notMem_keyText (key : List UInt8) : (0 : UInt8) ∉ keyText key := by
  intro h
  exact not_mem_cString key (List.mem_of_mem_take h)

@[simp] theorem keyText_keyText (key : List UInt8) : keyText (keyText key) = keyText key := by
  have hc := cString_of_not_mem (zero_notMem_keyText key)
  conv_lhs => rw [keyText, hc]
  unfold keyText
  rw [List.take_take, Nat.min_self]

theorem hashString_keyText (hashType : HashmapHashType) (key : List UInt8) :
    hashString hashType (keyText key) = hashString hashType key := by
  cases hashType with
  | fnv1a => simp [hashString, hashFnv1a]
  | jenkins => simp [hashString, hashJenkins]

theorem sameKey_iff {a b : List UInt8} (ha : keyText a = a) : sameKey a b = true ↔ a = keyText b := by
  unfold sameKey
  rw [ha]
  exact beq_iff_eq

/-! ## Layout -/

/-- A power of two of buckets, and every entry in its bucket. -/
structure Layout (map : Hashmap) : Prop where
  capacity : ∃ k, 4 ≤ k ∧ k ≤ 30 ∧ map.capacity.toNat = 2 ^ k
  length : map.buckets.length = map.capacity.toNat
  inPlace : InPlace (entryIndex map.hashType map.capacity) map.buckets

theorem bucketIndex_lt {capacity : UInt32} (h : 0 < capacity.toNat) (hash : UInt32) :
    bucketIndex capacity hash < capacity.toNat := by
  unfold bucketIndex
  have hone : (1 : UInt32) ≤ capacity := UInt32.le_iff_toNat_le.mpr h
  rw [UInt32.toNat_and, UInt32.toNat_sub_of_le capacity 1 hone]
  have hle := @Nat.and_le_right hash.toNat (capacity.toNat - 1)
  have h1 : (1 : UInt32).toNat = 1 := rfl
  rw [h1]
  omega

theorem Layout.pos {map : Hashmap} (h : Layout map) : 0 < map.capacity.toNat := by
  obtain ⟨k, -, -, hk⟩ := h.capacity
  rw [hk]
  exact Nat.two_pow_pos k

theorem Layout.index_lt {map : Hashmap} (h : Layout map) (hash : UInt32) :
    bucketIndex map.capacity hash < map.buckets.length := by
  rw [h.length]
  exact bucketIndex_lt h.pos hash

/-- An entry with the text of a key is in the chain where the key is looked for. -/
theorem Layout.mem_chain {map : Hashmap} (h : Layout map) {e : HashmapEntry} {key : List UInt8}
    (he : e.key = keyText key) : e ∈ map.chain key ↔ e ∈ map.entries := by
  have hindex : entryIndex map.hashType map.capacity e =
      bucketIndex map.capacity (hashString map.hashType key) := by
    unfold entryIndex
    rw [he, hashString_keyText]
  unfold Hashmap.entries Hashmap.chain
  rw [h.inPlace.mem_iff e, hindex]

/-- A chain may be replaced by entries of the same bucket, whatever the count becomes. -/
theorem Layout.set {map : Hashmap} (h : Layout map) {key : List UInt8}
    {chain : List HashmapEntry} (count : UInt32)
    (hchain : ∀ e ∈ chain, e ∈ map.chain key ∨ e.key = keyText key) :
    Layout { map with
      buckets :=
        map.buckets.set (bucketIndex map.capacity (hashString map.hashType key)) chain
      count := count } := by
  refine ⟨h.capacity, (List.length_set).trans h.length, h.inPlace.set (h.index_lt _) ?_⟩
  intro e he
  rcases hchain e he with hold | hnew
  · exact h.inPlace _ e hold
  · unfold entryIndex
    rw [hnew, hashString_keyText]

/-! ## Content -/

/-- One entry for each key of a finite map. -/
structure Content (entries : List HashmapEntry) (m : FiniteMap) : Prop where
  distinct : (entries.map HashmapEntry.key).Nodup
  canonical : ∀ e ∈ entries, keyText e.key = e.key
  agrees : ∀ key value, m key = some value ↔ ⟨key, value⟩ ∈ entries

variable {entries rest : List HashmapEntry} {m : FiniteMap} {e : HashmapEntry}

theorem Content.perm {entries' : List HashmapEntry} (h : Content entries m)
    (hperm : entries'.Perm entries) : Content entries' m := by
  refine ⟨?_, ?_, ?_⟩
  · exact ((hperm.map HashmapEntry.key).nodup_iff).mpr h.distinct
  · intro e he
    exact h.canonical e (hperm.mem_iff.mp he)
  · intro key value
    rw [h.agrees, hperm.mem_iff]

theorem content_nil : Content [] (fun _ => none) :=
  ⟨List.nodup_nil, fun _ he => absurd he List.not_mem_nil, fun _ _ => by simp⟩

/-- A new key. -/
theorem Content.insert (h : Content entries m) {key : List UInt8} (hkey : keyText key = key)
    (hnew : m key = none) (value : HashValue) :
    Content (⟨key, value⟩ :: entries) (Function.update m key (some value)) := by
  have hnot : ∀ v, (⟨key, v⟩ : HashmapEntry) ∉ entries := by
    intro v hv
    have hsome := (h.agrees key v).mpr hv
    rw [hnew] at hsome
    cases hsome
  refine ⟨?_, ?_, ?_⟩
  · rw [List.map_cons, List.nodup_cons]
    refine ⟨?_, h.distinct⟩
    intro hmem
    obtain ⟨e, he, heq⟩ := List.mem_map.mp hmem
    have hentry : e = ⟨key, e.value⟩ := by
      cases e
      rw [HashmapEntry.mk.injEq]
      exact ⟨heq, rfl⟩
    apply hnot e.value
    rw [← hentry]
    exact he
  · intro e he
    rcases List.mem_cons.mp he with rfl | he
    · exact hkey
    · exact h.canonical e he
  · intro key' value'
    by_cases hk : key' = key
    · subst hk
      rw [Function.update_self, List.mem_cons]
      constructor
      · intro hv
        left
        rw [Option.some.inj hv]
      · rintro (hv | hv)
        · rw [HashmapEntry.mk.injEq] at hv
          rw [hv.2]
        · exact absurd hv (hnot value')
    · rw [Function.update_of_ne hk, List.mem_cons, HashmapEntry.mk.injEq, h.agrees]
      constructor
      · exact Or.inr
      · rintro (⟨hk', -⟩ | hv)
        · exact absurd hk' hk
        · exact hv

/-- A key is taken out. -/
theorem Content.remove (h : Content (e :: rest) m) :
    Content rest (Function.update m e.key none) := by
  have hdistinct := h.distinct
  rw [List.map_cons, List.nodup_cons] at hdistinct
  refine ⟨hdistinct.2, fun x hx => h.canonical x (List.mem_cons_of_mem _ hx), ?_⟩
  intro key value
  by_cases hk : key = e.key
  · subst hk
    rw [Function.update_self]
    constructor
    · intro hv
      cases hv
    · intro hv
      exact absurd (List.mem_map_of_mem hv) hdistinct.1
  · rw [Function.update_of_ne hk, h.agrees, List.mem_cons]
    constructor
    · rintro (hv | hv)
      · rw [← hv] at hk
        exact absurd rfl hk
      · exact hv
    · exact Or.inr

/-- A key that is there gets a new value. -/
theorem Content.update (h : Content (e :: rest) m) (value : HashValue) :
    Content ({ e with value := value } :: rest) (Function.update m e.key (some value)) := by
  have hkey := h.canonical e List.mem_cons_self
  have hput := h.remove.insert hkey (Function.update_self _ _ _) value
  rwa [Function.update_idem] at hput

theorem Content.value (h : Content entries m) (he : e ∈ entries) : m e.key = some e.value :=
  (h.agrees e.key e.value).mpr he

/-- The size of the finite map is the number of entries. -/
theorem Content.size_eq (h : Content entries m) : m.size = entries.length := by
  have hset : {key | (m key).isSome} = ((entries.map HashmapEntry.key).toFinset : Set _) := by
    ext key
    simp only [Set.mem_ofPred_eq, List.coe_toFinset, List.mem_map]
    constructor
    · intro hsome
      obtain ⟨value, hv⟩ := Option.isSome_iff_exists.mp hsome
      exact ⟨_, (h.agrees key value).mp hv, rfl⟩
    · rintro ⟨e, he, rfl⟩
      rw [h.value he]
      rfl
  unfold FiniteMap.size
  rw [hset, Set.ncard_coe_finset, List.toFinset_card_of_nodup h.distinct, List.length_map]

/-! ## The tables -/

/-- A table stands for a finite map. -/
structure Valid (map : Hashmap) (m : FiniteMap) : Prop where
  layout : Layout map
  content : Content map.entries m
  count : map.count.toNat = map.entries.length
  bound : map.entries.length < 2 ^ 29

variable {map : Hashmap} {key : List UInt8}

/-- What is found in a chain is the entry of the key. -/
theorem Valid.found (h : Valid map m) (he : e ∈ map.chain key) (hsame : sameKey e.key key = true) :
    e ∈ map.entries ∧ e.key = keyText key ∧ m (keyText key) = some e.value := by
  have hmem : e ∈ map.entries := (mem_flatten_iff e).mpr ⟨_, he⟩
  have hkey := (sameKey_iff (h.content.canonical e hmem)).mp hsame
  refine ⟨hmem, hkey, ?_⟩
  rw [← hkey]
  exact h.content.value hmem

/-- What is not found in its chain is not in the finite map. -/
theorem Valid.missing (h : Valid map m) (hnone : ∀ e ∈ map.chain key, sameKey e.key key = false) :
    m (keyText key) = none := by
  cases hv : m (keyText key) with
  | none => rfl
  | some value =>
      have hmem := (h.content.agrees _ _).mp hv
      have hchain := (h.layout.mem_chain (e := ⟨keyText key, value⟩) rfl).mpr hmem
      have hfalse := hnone _ hchain
      have htrue : sameKey (keyText key) key = true :=
        (sameKey_iff (keyText_keyText key)).mpr rfl
      rw [htrue] at hfalse
      cases hfalse

theorem valid_hashmapCreateEx (hashType : HashmapHashType) :
    Valid (hashmapCreateEx hashType) (fun _ => none) := by
  have hempty : (hashmapCreateEx hashType).entries = [] := by
    simp [Hashmap.entries, hashmapCreateEx]
  refine ⟨⟨⟨4, by omega, by omega, rfl⟩, ?_, inPlace_replicate _ _⟩, ?_, ?_, ?_⟩
  · simp [hashmapCreateEx]
  · rw [hempty]
    exact content_nil
  · rw [hempty]
    rfl
  · rw [hempty]
    simp

/-- **Lookup.** -/
theorem Valid.get (h : Valid map m) (key : List UInt8) :
    hashmapGet map key = (m (keyText key)).getD none := by
  unfold hashmapGet
  cases hfind : (map.chain key).find? (fun e => sameKey e.key key) with
  | none =>
      have hnone : ∀ e ∈ map.chain key, sameKey e.key key = false := by
        intro e he
        simpa using List.find?_eq_none.mp hfind e he
      rw [h.missing hnone]
      rfl
  | some e =>
      have hsame : sameKey e.key key = true :=
        @List.find?_some _ (fun e : HashmapEntry => sameKey e.key key) _ _ hfind
      have hfound := h.found (List.mem_of_find?_eq_some hfind) hsame
      rw [hfound.2.2]
      rfl

/-! ## Chains -/

theorem updateChain_none {value : HashValue} {chain : List HashmapEntry}
    (h : updateChain key value chain = none) : ∀ e ∈ chain, sameKey e.key key = false := by
  induction chain with
  | nil => intro e he; cases he
  | cons x chain ih =>
      unfold updateChain at h
      by_cases hx : sameKey x.key key = true
      · rw [if_pos hx] at h
        cases h
      · rw [if_neg hx, Option.map_eq_none_iff] at h
        intro e he
        rcases List.mem_cons.mp he with rfl | he
        · simpa using hx
        · exact ih h e he

theorem updateChain_some {value : HashValue} {chain chain' : List HashmapEntry}
    (h : updateChain key value chain = some chain') :
    ∃ front x behind, chain = front ++ x :: behind ∧ sameKey x.key key = true ∧
      chain' = front ++ { x with value := value } :: behind := by
  induction chain generalizing chain' with
  | nil => cases h
  | cons x chain ih =>
      unfold updateChain at h
      by_cases hx : sameKey x.key key = true
      · rw [if_pos hx, Option.some.injEq] at h
        exact ⟨[], x, chain, rfl, hx, h.symm⟩
      · rw [if_neg hx, Option.map_eq_some_iff] at h
        obtain ⟨tail, htail, rfl⟩ := h
        obtain ⟨front, y, behind, rfl, hy, rfl⟩ := ih htail
        exact ⟨x :: front, y, behind, rfl, hy, rfl⟩

theorem removeChain_none {chain : List HashmapEntry} (h : removeChain key chain = none) :
    ∀ e ∈ chain, sameKey e.key key = false := by
  induction chain with
  | nil => intro e he; cases he
  | cons x chain ih =>
      unfold removeChain at h
      by_cases hx : sameKey x.key key = true
      · rw [if_pos hx] at h
        cases h
      · rw [if_neg hx, Option.map_eq_none_iff] at h
        intro e he
        rcases List.mem_cons.mp he with rfl | he
        · simpa using hx
        · exact ih h e he

theorem removeChain_some {value : HashValue} {chain chain' : List HashmapEntry}
    (h : removeChain key chain = some (chain', value)) :
    ∃ front x behind, chain = front ++ x :: behind ∧ sameKey x.key key = true ∧
      chain' = front ++ behind ∧ value = x.value := by
  induction chain generalizing chain' with
  | nil => cases h
  | cons x chain ih =>
      unfold removeChain at h
      by_cases hx : sameKey x.key key = true
      · rw [if_pos hx, Option.some.injEq, Prod.mk.injEq] at h
        exact ⟨[], x, chain, rfl, hx, h.1.symm, h.2.symm⟩
      · rw [if_neg hx, Option.map_eq_some_iff] at h
        obtain ⟨⟨tail, v⟩, htail, heq⟩ := h
        rw [Prod.mk.injEq] at heq
        obtain ⟨rfl, rfl⟩ := heq
        obtain ⟨front, y, behind, rfl, hy, htl, hv⟩ := ih htail
        simp only at htl hv
        subst htl hv
        exact ⟨x :: front, y, behind, rfl, hy, rfl, rfl⟩

/-- The entries around one of them, and what a change of it makes of them. -/
theorem Layout.split (h : Layout map) {front behind : List HashmapEntry}
    (hchain : map.chain key = front ++ e :: behind) :
    ∃ others, map.entries.Perm (e :: others) ∧
      ∀ new, (map.buckets.set (bucketIndex map.capacity (hashString map.hashType key))
        (front ++ new ++ behind)).flatten.Perm (new ++ others) := by
  unfold Hashmap.chain at hchain
  have hi := h.index_lt (hashString map.hashType key)
  generalize bucketIndex map.capacity (hashString map.hashType key) = i at hi hchain ⊢
  refine ⟨front ++ behind ++ (map.buckets.eraseIdx i).flatten, ?_, ?_⟩
  · have hperm := flatten_perm hi
    rw [hchain] at hperm
    refine hperm.trans ?_
    rw [← List.cons_append]
    exact (List.perm_middle).append_right _
  · intro new
    refine (flatten_set_perm _ hi).trans ?_
    rw [← List.append_assoc new, ← List.append_assoc new]
    refine List.Perm.append_right _ (List.Perm.append_right _ ?_)
    exact List.perm_append_comm

/-! ## Resize -/

theorem rehash_spec (hashType : HashmapHashType) {capacity : UInt32} (hpos : 0 < capacity.toNat)
    (buckets : List (List HashmapEntry)) :
    InPlace (entryIndex hashType capacity) (rehash hashType capacity buckets) ∧
      (rehash hashType capacity buckets).length = capacity.toNat ∧
      (rehash hashType capacity buckets).flatten.Perm buckets.flatten := by
  have hfill := foldl_place buckets.flatten
    (inPlace_replicate (entryIndex hashType capacity) capacity.toNat) (fun e _ => by
      rw [List.length_replicate]
      exact bucketIndex_lt hpos _)
  rw [List.foldl_flatten] at hfill
  obtain ⟨hplace, hlength, hperm⟩ := hfill
  refine ⟨hplace, hlength.trans List.length_replicate, ?_⟩
  simpa [rehash] using hperm

/-- With fewer than `2 ^ 29` entries, neither the load test nor the doubling overflows. -/
theorem doubled {capacity count : UInt32} {k : Nat} (hk : k ≤ 30)
    (hcap : capacity.toNat = 2 ^ k) (hcount : count.toNat < 2 ^ 29)
    (hload : ¬ count * 4 ≤ capacity * 3) :
    k ≤ 29 ∧ (capacity * 2).toNat = 2 ^ (k + 1) ∧ ¬ capacity * 2 < capacity := by
  have hle : 2 ^ k ≤ 2 ^ 30 := Nat.pow_le_pow_right (by omega) hk
  rw [UInt32.le_iff_toNat_le, UInt32.toNat_mul, UInt32.toNat_mul, hcap] at hload
  have h4 : (4 : UInt32).toNat = 4 := rfl
  have h3 : (3 : UInt32).toNat = 3 := rfl
  have h2 : (2 : UInt32).toNat = 2 := rfl
  rw [h4, h3] at hload
  rw [Nat.mod_eq_of_lt (by omega), Nat.mod_eq_of_lt (by omega)] at hload
  have hne : k ≠ 30 := by
    rintro rfl
    omega
  have hk29 : k ≤ 29 := by omega
  have hle29 : 2 ^ k ≤ 2 ^ 29 := Nat.pow_le_pow_right (by omega) hk29
  have hdouble : (capacity * 2).toNat = 2 ^ (k + 1) := by
    rw [UInt32.toNat_mul, hcap, h2, Nat.mod_eq_of_lt (by omega), Nat.pow_succ]
  refine ⟨hk29, hdouble, ?_⟩
  rw [UInt32.lt_iff_toNat_lt, hdouble, hcap, Nat.pow_succ]
  omega

/-- **A resize** changes the table, and nothing of what it stands for. -/
theorem Valid.resize (h : Valid map m) (alloc : Bool) :
    Valid (hashmapResizeIfNeeded alloc map) m := by
  unfold hashmapResizeIfNeeded
  by_cases hload : map.count * 4 ≤ map.capacity * 3
  · rw [if_pos hload]
    exact h
  · obtain ⟨k, hk4, hk30, hcap⟩ := h.layout.capacity
    have hcount : map.count.toNat < 2 ^ 29 := by
      rw [h.count]
      exact h.bound
    obtain ⟨hk29, hdouble, hover⟩ := doubled hk30 hcap hcount hload
    rw [if_neg hload, if_neg hover]
    cases alloc with
    | false => exact h
    | true =>
        have hpos : 0 < (map.capacity * 2).toNat := by
          rw [hdouble]
          exact Nat.two_pow_pos _
        obtain ⟨hplace, hlength, hperm⟩ := rehash_spec map.hashType hpos map.buckets
        have hentries := hperm.length_eq
        refine ⟨⟨⟨k + 1, by omega, by omega, hdouble⟩, hlength, hplace⟩, h.content.perm hperm, ?_, ?_⟩
        · exact h.count.trans hentries.symm
        · exact hentries.trans_lt h.bound

/-! ## Put and remove -/

/-- **Put**: of a key that is there, of a new one, and of a new one without memory for it. -/
theorem Valid.put (h : Valid map m) (alloc : PutAlloc) (key : List UInt8) (value : HashValue)
    (hsize : FiniteMap.size (Function.update m (keyText key) (some value)) < 2 ^ 29)
    (hstored : ¬ (m (keyText key) = none ∧ ¬ (alloc.key ∧ alloc.entry))) :
    Valid (hashmapPut alloc map key value).1 (Function.update m (keyText key) (some value)) ∧
      (hashmapPut alloc map key value).2 = true := by
  unfold hashmapPut
  cases hchain : updateChain key value (map.chain key) with
  | some chain' =>
      obtain ⟨front, x, behind, hfront, hsame, rfl⟩ := updateChain_some hchain
      have hx : x ∈ map.chain key := by
        rw [hfront]
        simp
      obtain ⟨hmem, hxkey, hxvalue⟩ := h.found hx hsame
      refine ⟨?_, rfl⟩
      obtain ⟨others, hold, hnew⟩ := h.layout.split hfront
      have hperm := hnew [{ x with value := value }]
      rw [List.append_assoc, List.singleton_append, List.singleton_append] at hperm
      have hlength := hperm.length_eq.trans hold.length_eq.symm
      refine ⟨h.layout.set map.count ?_, ?_, h.count.trans hlength.symm,
        hlength.trans_lt h.bound⟩
      · intro e he
        rcases List.mem_append.mp he with he | he
        · left
          rw [hfront]
          exact List.mem_append_left _ he
        · rcases List.mem_cons.mp he with rfl | he
          · exact Or.inr hxkey
          · left
            rw [hfront]
            exact List.mem_append_right _ (List.mem_cons_of_mem _ he)
      · rw [← hxkey]
        exact ((h.content.perm hold.symm).update value).perm hperm
  | none =>
      have hmissing := h.missing (updateChain_none hchain)
      have halloc : alloc.key = true ∧ alloc.entry = true := by
        by_contra hno
        exact hstored ⟨hmissing, hno⟩
      have hcontent := h.content.insert (keyText_keyText key) hmissing value
      dsimp only
      rw [if_pos halloc]
      refine ⟨Valid.resize ?_ alloc.table, rfl⟩
      have hperm : (map.buckets.set (bucketIndex map.capacity (hashString map.hashType key))
          (⟨keyText key, value⟩ :: map.chain key)).flatten.Perm
            (⟨keyText key, value⟩ :: map.entries) :=
        flatten_set_perm_of_perm (c := [⟨keyText key, value⟩]) (h.layout.index_lt _)
          (List.Perm.refl _)
      have hlength := hperm.length_eq
      refine ⟨h.layout.set (map.count + 1) ?_, hcontent.perm hperm, ?_, ?_⟩
      · intro e he
        rcases List.mem_cons.mp he with rfl | he
        · exact Or.inr rfl
        · exact Or.inl he
      · have hcount := h.count
        have hbound := h.bound
        have h1 : (1 : UInt32).toNat = 1 := rfl
        refine Eq.trans ?_ hlength.symm
        show (map.count + 1).toNat = map.entries.length + 1
        rw [UInt32.toNat_add, h1, hcount]
        omega
      · rw [hcontent.size_eq] at hsize
        exact hlength.trans_lt hsize

/-- A put without memory for a new key. -/
theorem Valid.put_failed (h : Valid map m) {alloc : PutAlloc} {key : List UInt8}
    (value : HashValue) (hno : m (keyText key) = none ∧ ¬ (alloc.key ∧ alloc.entry)) :
    hashmapPut alloc map key value = (map, false) := by
  unfold hashmapPut
  cases hchain : updateChain key value (map.chain key) with
  | some chain' =>
      obtain ⟨front, x, behind, hfront, hsame, -⟩ := updateChain_some hchain
      have hx : x ∈ map.chain key := by
        rw [hfront]
        simp
      have hxvalue := (h.found hx hsame).2.2
      rw [hno.1] at hxvalue
      cases hxvalue
  | none => exact if_neg hno.2

/-- **Remove.** -/
theorem Valid.remove (h : Valid map m) (key : List UInt8) :
    Valid (hashmapRemove map key).1 (Function.update m (keyText key) none) ∧
      (hashmapRemove map key).2 = (m (keyText key)).getD none := by
  unfold hashmapRemove
  cases hchain : removeChain key (map.chain key) with
  | none =>
      have hmissing := h.missing (removeChain_none hchain)
      rw [hmissing, Function.update_eq_self_iff.mpr hmissing.symm]
      exact ⟨h, rfl⟩
  | some r =>
      obtain ⟨chain', value⟩ := r
      obtain ⟨front, x, behind, hfront, hsame, rfl, rfl⟩ := removeChain_some hchain
      have hx : x ∈ map.chain key := by
        rw [hfront]
        simp
      obtain ⟨hmem, hxkey, hxvalue⟩ := h.found hx hsame
      refine ⟨?_, by rw [hxvalue]; rfl⟩
      obtain ⟨others, hold, hnew⟩ := h.layout.split hfront
      have hperm := hnew []
      rw [List.append_nil, List.nil_append] at hperm
      have hlength := hold.length_eq
      rw [List.length_cons] at hlength
      have hbound := h.bound
      refine ⟨h.layout.set (map.count - 1) ?_, ?_, ?_, ?_⟩
      · intro e he
        left
        rw [hfront]
        rcases List.mem_append.mp he with he | he
        · exact List.mem_append_left _ he
        · exact List.mem_append_right _ (List.mem_cons_of_mem _ he)
      · rw [← hxkey]
        exact (h.content.perm hold.symm).remove.perm hperm
      · have hcount := h.count
        have hone : (1 : UInt32) ≤ map.count := by
          rw [UInt32.le_iff_toNat_le, hcount, hlength]
          exact Nat.le_add_left 1 _
        have h1 : (1 : UInt32).toNat = 1 := rfl
        refine Eq.trans ?_ hperm.length_eq.symm
        show (map.count - 1).toNat = others.length
        rw [UInt32.toNat_sub_of_le _ _ hone, hcount, hlength, h1]
        omega
      · refine hperm.length_eq.trans_lt ?_
        omega

/-! ## Visits -/

theorem hashmapForeach_eq (map : Hashmap) :
    hashmapForeach map = map.entries.map fun e => (e.key, e.value) := by
  unfold hashmapForeach Hashmap.entries
  rw [List.map_flatten, List.flatMap_def]

theorem keys_hashmapForeach (map : Hashmap) :
    (hashmapForeach map).map Prod.fst = map.entries.map HashmapEntry.key := by
  rw [hashmapForeach_eq, List.map_map]
  rfl

theorem Content.mem_visits (h : Content map.entries m) (key : List UInt8) (value : HashValue) :
    (key, value) ∈ hashmapForeach map ↔ m key = some value := by
  rw [hashmapForeach_eq, h.agrees, List.mem_map]
  constructor
  · rintro ⟨e, he, heq⟩
    rw [Prod.mk.injEq] at heq
    rw [← heq.1, ← heq.2]
    exact he
  · intro he
    exact ⟨_, he, rfl⟩

theorem strcmpLe_trans (a b c : List UInt8) (hab : strcmpLe a b = true)
    (hbc : strcmpLe b c = true) : strcmpLe a c = true := by
  unfold strcmpLe at *
  rw [decide_eq_true_eq] at *
  exact List.le_trans hab hbc

theorem strcmpLe_total (a b : List UInt8) : (strcmpLe a b || strcmpLe b a) = true := by
  unfold strcmpLe
  rw [Bool.or_eq_true, decide_eq_true_eq, decide_eq_true_eq]
  exact List.le_total _ _

theorem Valid.entries_nil (h : Valid map m) (hzero : map.count = 0) : map.entries = [] := by
  apply List.length_eq_zero_iff.mp
  rw [← h.count, hzero]
  rfl

theorem Valid.sorted_eq (h : Valid map m) :
    hashmapForeachSorted true map =
      ((map.entries.map HashmapEntry.key).mergeSort strcmpLe).map
        fun key => (key, hashmapGet map key) := by
  have hkeys : (map.buckets.flatMap fun chain => chain.map HashmapEntry.key) =
      map.entries.map HashmapEntry.key := by
    unfold Hashmap.entries
    rw [List.map_flatten, List.flatMap_def]
  unfold hashmapForeachSorted
  by_cases hzero : map.count = 0
  · -- the early return for an empty map
    rw [if_pos hzero, h.entries_nil hzero]
    simp
  · rw [if_neg hzero]
    simp only [Bool.not_true, Bool.false_eq_true, if_false]
    rw [hkeys]

/-- The sorted visits are the visits in another order. -/
theorem Valid.sorted_perm (h : Valid map m) (alloc : Bool) :
    (hashmapForeachSorted alloc map).Perm (hashmapForeach map) := by
  cases alloc with
  | false =>
      unfold hashmapForeachSorted
      by_cases hzero : map.count = 0
      · rw [if_pos hzero, hashmapForeach_eq, h.entries_nil hzero]
        exact List.Perm.nil
      · rw [if_neg hzero]
        exact List.Perm.refl _
  | true =>
      rw [h.sorted_eq, hashmapForeach_eq]
      refine ((List.mergeSort_perm _ _).map _).trans ?_
      rw [List.map_map]
      refine List.Perm.of_eq (List.map_congr_left ?_)
      intro e he
      rw [Function.comp_apply, h.get, h.content.canonical e he, h.content.value he]
      rfl

/-- The keys of the sorted visits ascend. -/
theorem Valid.sorted_ascending (h : Valid map m) :
    (hashmapForeachSorted true map).Pairwise fun a b => a.1 < b.1 := by
  rw [h.sorted_eq, List.pairwise_map]
  have hperm := List.mergeSort_perm (map.entries.map HashmapEntry.key) strcmpLe
  have hsorted := List.pairwise_mergeSort strcmpLe_trans strcmpLe_total
    (map.entries.map HashmapEntry.key)
  have hdistinct := hperm.nodup_iff.mpr h.content.distinct
  have hboth := hsorted.and hdistinct
  refine hboth.imp_of_mem ?_
  intro a b ha hb hab
  -- the keys are texts without NUL, so that `strcmp` compares the whole of them
  have hwhole : ∀ key ∈ (map.entries.map HashmapEntry.key).mergeSort strcmpLe,
      cString key = key := by
    intro key hkey
    obtain ⟨e, he, rfl⟩ := List.mem_map.mp (hperm.mem_iff.mp hkey)
    apply cString_of_not_mem
    rw [← h.content.canonical e he]
    exact zero_notMem_keyText e.key
  have hle := hab.1
  unfold strcmpLe at hle
  rw [decide_eq_true_eq, hwhole a ha, hwhole b hb] at hle
  by_contra hlt
  exact hab.2 (List.le_antisymm hle (List.not_lt.mp hlt))

/-! ## Runs -/

/-- A call of the map. -/
inductive MapCall where
  | put (alloc : PutAlloc) (key : List UInt8) (value : HashValue)
  | get (key : List UInt8)
  | remove (key : List UInt8)
  deriving DecidableEq, Repr

/-- What a call returns. -/
inductive MapAnswer where
  | stored (done : Bool)
  | value (value : HashValue)
  deriving DecidableEq, Repr

def MapCall.apply (map : Hashmap) : MapCall → Hashmap × MapAnswer
  | .put alloc key value =>
      ((hashmapPut alloc map key value).1, .stored (hashmapPut alloc map key value).2)
  | .get key => (map, .value (hashmapGet map key))
  | .remove key => ((hashmapRemove map key).1, .value (hashmapRemove map key).2)

/-- What a call means for a finite map. A new key without memory for it is not stored. -/
def MapCall.reference (m : FiniteMap) : MapCall → FiniteMap × MapAnswer
  | .put alloc key value =>
      if m (keyText key) = none ∧ ¬ (alloc.key ∧ alloc.entry) then (m, .stored false)
      else (Function.update m (keyText key) (some value), .stored true)
  | .get key => (m, .value ((m (keyText key)).getD none))
  | .remove key => (Function.update m (keyText key) none, .value ((m (keyText key)).getD none))

/-- The calls in order, with what they return. -/
def runCalls {S A : Type} (step : S → MapCall → S × A) (s : S) : List MapCall → S × List A
  | [] => (s, [])
  | call :: calls =>
      let rest := runCalls step (step s call).1 calls
      (rest.1, (step s call).2 :: rest.2)

/-- **One call.** -/
theorem Valid.apply (h : Valid map m) (call : MapCall)
    (hsize : FiniteMap.size (call.reference m).1 < 2 ^ 29) :
    Valid (call.apply map).1 (call.reference m).1 ∧
      (call.apply map).2 = (call.reference m).2 := by
  cases call with
  | get key =>
      refine ⟨h, ?_⟩
      simp only [MapCall.apply, MapCall.reference, h.get]
  | remove key =>
      obtain ⟨hvalid, hvalue⟩ := h.remove key
      refine ⟨hvalid, ?_⟩
      simp only [MapCall.apply, MapCall.reference, hvalue]
  | put alloc key value =>
      simp only [MapCall.apply, MapCall.reference] at hsize ⊢
      by_cases hno : m (keyText key) = none ∧ ¬ (alloc.key ∧ alloc.entry)
      · rw [if_pos hno, h.put_failed value hno]
        exact ⟨h, rfl⟩
      · simp only [if_neg hno] at hsize ⊢
        obtain ⟨hvalid, hdone⟩ := h.put alloc key value hsize hno
        exact ⟨hvalid, by rw [hdone]⟩

theorem MapCall.reference_size (m : FiniteMap) (call : MapCall)
    (hfinite : {key | (m key).isSome}.Finite) :
    {key | ((call.reference m).1 key).isSome}.Finite ∧
      FiniteMap.size (call.reference m).1 ≤ m.size + 1 := by
  -- at most one key is new
  have hgrow : ∃ new, {key | ((call.reference m).1 key).isSome} ⊆
      insert new {key | (m key).isSome} := by
    have hupdate : ∀ k v, {key | (Function.update m k v key).isSome} ⊆
        insert k {key | (m key).isSome} := by
      intro k v key hkey
      by_cases hk : key = k
      · exact Or.inl hk
      · right
        have hkey' : (Function.update m k v key).isSome := hkey
        rwa [Function.update_of_ne hk] at hkey'
    cases call with
    | get key => exact ⟨key, Set.subset_insert _ _⟩
    | remove key => exact ⟨keyText key, hupdate _ _⟩
    | put alloc key value =>
        refine ⟨keyText key, ?_⟩
        simp only [MapCall.reference]
        split_ifs
        · exact Set.subset_insert _ _
        · exact hupdate _ _
  obtain ⟨new, hsub⟩ := hgrow
  refine ⟨(hfinite.insert new).subset hsub, ?_⟩
  exact (Set.ncard_le_ncard hsub (hfinite.insert new)).trans (Set.ncard_insert_le _ _)

/-- A run of `n` calls leaves at most `n` keys. -/
theorem runCalls_size_le (calls : List MapCall) (hfinite : {key | (m key).isSome}.Finite) :
    FiniteMap.size (runCalls MapCall.reference m calls).1 ≤ m.size + calls.length := by
  induction calls generalizing m with
  | nil => exact Nat.le_refl _
  | cons call calls ih =>
      obtain ⟨hnext, hone⟩ := call.reference_size m hfinite
      have hrest := ih hnext
      simp only [runCalls, List.length_cons]
      omega

/-- **A run of calls.** The invariant is carried from call to call. -/
theorem Valid.run (h : Valid map m) (calls : List MapCall)
    (hsize : ∀ n, FiniteMap.size (runCalls MapCall.reference m (calls.take n)).1 < 2 ^ 29) :
    Valid (runCalls MapCall.apply map calls).1 (runCalls MapCall.reference m calls).1 ∧
      (runCalls MapCall.apply map calls).2 = (runCalls MapCall.reference m calls).2 := by
  induction calls generalizing map m with
  | nil => exact ⟨h, rfl⟩
  | cons call calls ih =>
      have hfirst : FiniteMap.size (call.reference m).1 < 2 ^ 29 := by
        have hone := hsize 1
        rwa [List.take_succ_cons, List.take_zero] at hone
      obtain ⟨hvalid, hanswer⟩ := h.apply call hfirst
      have hrest := ih hvalid fun n => by
        have hnext := hsize (n + 1)
        rwa [List.take_succ_cons] at hnext
      refine ⟨hrest.1, ?_⟩
      simp only [runCalls]
      rw [hrest.2, hanswer]

/-- **The hash map refines a finite map.** A run of puts, lookups and removals from the empty
map, with either hash function and whichever allocations fail, answers as the finite map does.
At its end the count is the number of keys, the capacity is a power of two, every entry is in
the bucket of its hash, the keys are distinct, and both walks visit every entry once, the
sorted one in strictly ascending order if the array of keys can be had. -/
theorem hashmap_refines_finite_map (hashType : HashmapHashType) (calls : List MapCall)
    (hsize : ∀ n, FiniteMap.size
      (runCalls MapCall.reference (fun _ => none) (calls.take n)).1 < 2 ^ 29) :
    ∃ map m, runCalls MapCall.apply (hashmapCreateEx hashType) calls =
        (map, (runCalls MapCall.reference (fun _ => none) calls).2) ∧
      m = (runCalls MapCall.reference (fun _ => none) calls).1 ∧
      (∀ key, hashmapGet map key = (m (keyText key)).getD none) ∧
      (∀ key, (hashmapRemove map key).2 = (m (keyText key)).getD none) ∧
      hashmapCount map = FiniteMap.size m ∧
      (∃ k, map.capacity.toNat = 2 ^ k) ∧ map.buckets.length = map.capacity.toNat ∧
      (∀ i, ∀ e ∈ bucket map.buckets i,
        (hashString map.hashType e.key &&& (map.capacity - 1)).toNat = i) ∧
      (map.buckets.flatten.map HashmapEntry.key).Nodup ∧
      ((hashmapForeach map).map Prod.fst).Nodup ∧
      (∀ key value, (key, value) ∈ hashmapForeach map ↔ m key = some value) ∧
      (∀ alloc, (hashmapForeachSorted alloc map).Perm (hashmapForeach map)) ∧
      (hashmapForeachSorted true map).Pairwise (fun a b => a.1 < b.1) := by
  obtain ⟨hvalid, hanswers⟩ := (valid_hashmapCreateEx hashType).run calls hsize
  refine ⟨(runCalls MapCall.apply (hashmapCreateEx hashType) calls).1,
    (runCalls MapCall.reference (fun _ => none) calls).1, ?_, rfl, hvalid.get,
    fun key => (hvalid.remove key).2, ?_, ?_, hvalid.layout.length, hvalid.layout.inPlace,
    hvalid.content.distinct, ?_, hvalid.content.mem_visits, hvalid.sorted_perm,
    hvalid.sorted_ascending⟩
  · rw [← hanswers]
  · rw [hvalid.content.size_eq]
    exact hvalid.count
  · obtain ⟨k, -, -, hk⟩ := hvalid.layout.capacity
    exact ⟨k, hk⟩
  · rw [keys_hashmapForeach]
    exact hvalid.content.distinct

theorem hashmap_refines_finite_map_sample :
    ∃ map m, runCalls MapCall.apply (hashmapCreateEx .jenkins)
        [.put {} (ascii "a") (some 1), .put {} (ascii "b") none, .put {} (ascii "a") (some 3),
          .put { entry := false } (ascii "c") (some 4), .remove (ascii "b"), .get (ascii "a")] =
        (map, [.stored true, .stored true, .stored true, .stored false, .value none,
          .value (some 3)]) ∧
      hashmapCount map = FiniteMap.size m ∧
      (hashmapForeachSorted true map).Pairwise (fun a b => a.1 < b.1) := by
  obtain ⟨map, m, hrun, -, -, -, hcount, -, -, -, -, -, -, -, hsorted⟩ :=
    hashmap_refines_finite_map .jenkins
      [.put {} (ascii "a") (some 1), .put {} (ascii "b") none, .put {} (ascii "a") (some 3),
        .put { entry := false } (ascii "c") (some 4), .remove (ascii "b"), .get (ascii "a")]
      (fun n => by
        have hempty : {key | ((fun _ => none : FiniteMap) key).isSome} = ∅ := by simp
        have hle := runCalls_size_le (m := fun _ => none) (List.take n
          [.put {} (ascii "a") (some 1), .put {} (ascii "b") none, .put {} (ascii "a") (some 3),
            .put { entry := false } (ascii "c") (some 4), .remove (ascii "b"),
            .get (ascii "a")]) (by rw [hempty]; exact Set.finite_empty)
        have hzero : FiniteMap.size (fun _ => none) = 0 := by
          unfold FiniteMap.size
          rw [hempty, Set.ncard_empty]
        rw [hzero, List.length_take] at hle
        simp only [List.length_cons, List.length_nil] at hle
        omega)
  refine ⟨map, m, hrun.trans (Prod.ext rfl ?_), hcount, hsorted⟩
  dsimp only
  decide +kernel

end CWebUI.Containers
