import CWebUI.Basic.Buckets
import CWebUI.Basic.CString

set_option autoImplicit false

/-! # The hash map

`hashmap.c`. A key is a C string; the map reads at most `HASHMAP_MAX_KEY_LEN` bytes of it. The
chain of a bucket is the list of its entries. Whether the allocations of a call succeed is an
argument of it. The functions are called with a map and a key that are not null.
-/

namespace CWebUI.Containers

open ByteString Buckets

/-- A value pointer; `none` is the null pointer, which also stands for "not found". -/
abbrev HashValue : Type := Option Nat

/-- `hashmap_hash_type` -/
inductive HashmapHashType where
  | fnv1a
  | jenkins
  deriving DecidableEq, Repr

/-- `HASHMAP_INITIAL_CAPACITY` -/
def hashmapInitialCapacity : UInt32 := 16

/-- `HASHMAP_MAX_KEY_LEN` -/
def hashmapMaxKeyLen : Nat := 4096

/-- `hashmap_entry_t` -/
structure HashmapEntry where
  key : List UInt8
  value : HashValue
  deriving DecidableEq, Repr

/-- `struct hashmap` -/
structure Hashmap where
  buckets : List (List HashmapEntry)
  capacity : UInt32
  count : UInt32
  hashType : HashmapHashType
  deriving DecidableEq, Repr

/-- What of a key is read, and kept by `Webserver_strndup`. -/
def keyText (key : List UInt8) : List UInt8 := (cString key).take hashmapMaxKeyLen

/-- One round of `hash_fnv1a`. -/
def fnv1aRound (hash : UInt32) (c : UInt8) : UInt32 := (hash ^^^ c.toUInt32) * 16777619

/-- `hash_fnv1a` -/
def hashFnv1a (str : List UInt8) : UInt32 := (keyText str).foldl fnv1aRound 2166136261

/-- One round of `hash_jenkins`. -/
def jenkinsRound (hash : UInt32) (c : UInt8) : UInt32 :=
  let hash := hash + c.toUInt32
  let hash := hash + hash <<< 10
  hash ^^^ hash >>> 6

/-- `hash_jenkins` -/
def hashJenkins (str : List UInt8) : UInt32 :=
  let hash := (keyText str).foldl jenkinsRound 0
  let hash := hash + hash <<< 3
  let hash := hash ^^^ hash >>> 11
  hash + hash <<< 15

/-- `hash_string` -/
def hashString (hashType : HashmapHashType) (str : List UInt8) : UInt32 :=
  match hashType with
  | .jenkins => hashJenkins str
  | .fnv1a => hashFnv1a str

/-- `bucket_index`, for a capacity. -/
def bucketIndex (capacity hash : UInt32) : Nat := (hash &&& (capacity - 1)).toNat

/-- Where an entry belongs in a table of the given capacity. -/
def entryIndex (hashType : HashmapHashType) (capacity : UInt32) (e : HashmapEntry) : Nat :=
  bucketIndex capacity (hashString hashType e.key)

/-- `strncmp(a, b, HASHMAP_MAX_KEY_LEN) == 0` -/
def sameKey (a b : List UInt8) : Bool := keyText a == keyText b

/-- The two loops of `hashmap_resize_if_needed` over the old table. -/
def rehash (hashType : HashmapHashType) (capacity : UInt32) (buckets : List (List HashmapEntry)) :
    List (List HashmapEntry) :=
  buckets.foldl (fun table chain => chain.foldl (place (entryIndex hashType capacity)) table)
    (List.replicate capacity.toNat [])

/-- `hashmap_resize_if_needed`. `alloc` says whether the new table can be had. -/
def hashmapResizeIfNeeded (alloc : Bool) (map : Hashmap) : Hashmap :=
  if map.count * 4 ≤ map.capacity * 3 then map
  else
    let newCapacity := map.capacity * 2
    if newCapacity < map.capacity then map
    else if !alloc then map
    else { map with
      buckets := rehash map.hashType newCapacity map.buckets
      capacity := newCapacity }

/-- `hashmap_create_ex` -/
def hashmapCreateEx (hashType : HashmapHashType) : Hashmap :=
  { buckets := List.replicate hashmapInitialCapacity.toNat []
    capacity := hashmapInitialCapacity
    count := 0
    hashType := hashType }

/-- The bucket that a key is looked for in. -/
def Hashmap.chain (map : Hashmap) (key : List UInt8) : List HashmapEntry :=
  bucket map.buckets (bucketIndex map.capacity (hashString map.hashType key))

/-- `hashmap_get` -/
def hashmapGet (map : Hashmap) (key : List UInt8) : HashValue :=
  match (map.chain key).find? (fun e => sameKey e.key key) with
  | none => none
  | some e => e.value

/-- The first loop of `hashmap_put`: a key that is there gets the new value. -/
def updateChain (key : List UInt8) (value : HashValue) :
    List HashmapEntry → Option (List HashmapEntry)
  | [] => none
  | e :: chain =>
      if sameKey e.key key then some ({ e with value := value } :: chain)
      else (updateChain key value chain).map (e :: ·)

/-- Which allocations of a `hashmap_put` succeed. -/
structure PutAlloc where
  key : Bool := true
  entry : Bool := true
  table : Bool := true
  deriving DecidableEq, Repr

/-- `hashmap_put`. The second component is false for the result `-1`. -/
def hashmapPut (alloc : PutAlloc) (map : Hashmap) (key : List UInt8) (value : HashValue) :
    Hashmap × Bool :=
  let idx := bucketIndex map.capacity (hashString map.hashType key)
  match updateChain key value (map.chain key) with
  | some chain => ({ map with buckets := map.buckets.set idx chain }, true)
  | none =>
      if alloc.key ∧ alloc.entry then
        let map := { map with
          buckets := map.buckets.set idx (⟨keyText key, value⟩ :: map.chain key)
          count := map.count + 1 }
        (hashmapResizeIfNeeded alloc.table map, true)
      else (map, false)

/-- The loop of `hashmap_remove`: the chain without the entry, and its value. -/
def removeChain (key : List UInt8) :
    List HashmapEntry → Option (List HashmapEntry × HashValue)
  | [] => none
  | e :: chain =>
      if sameKey e.key key then some (chain, e.value)
      else (removeChain key chain).map fun r => (e :: r.1, r.2)

/-- `hashmap_remove` -/
def hashmapRemove (map : Hashmap) (key : List UInt8) : Hashmap × HashValue :=
  let idx := bucketIndex map.capacity (hashString map.hashType key)
  match removeChain key (map.chain key) with
  | none => (map, none)
  | some (chain, value) =>
      ({ map with buckets := map.buckets.set idx chain, count := map.count - 1 }, value)

/-- `hashmap_count` -/
def hashmapCount (map : Hashmap) : Nat := map.count.toNat

/-- The calls of the callback of `hashmap_foreach`, in order. -/
def hashmapForeach (map : Hashmap) : List (List UInt8 × HashValue) :=
  map.buckets.flatMap fun chain => chain.map fun e => (e.key, e.value)

/-- `strcmp(a, b) <= 0` -/
def strcmpLe (a b : List UInt8) : Bool := decide (cString a ≤ cString b)

/-- The calls of the callback of `hashmap_foreach_sorted`, in order. Without memory for the
keys they are not sorted. -/
def hashmapForeachSorted (alloc : Bool) (map : Hashmap) : List (List UInt8 × HashValue) :=
  if map.count = 0 then []
  else if !alloc then hashmapForeach map
  else
    let keys := map.buckets.flatMap fun chain => chain.map HashmapEntry.key
    (keys.mergeSort strcmpLe).map fun key => (key, hashmapGet map key)

end CWebUI.Containers
