import CWebUI.Basic.DoublyLinked

set_option autoImplicit false

/-! # The linked list

`linked_list.c`, over an explicit heap. A null pointer is `none`. A function that follows a
pointer to memory that is not allocated has no result; so has a loop that does not end within
the given number of rounds. What `malloc` returns is an argument of `ws_list_append`.
-/

namespace CWebUI.Containers

open DoublyLinked

/-- The address of a list entry. -/
abbrev Ptr : Type := Nat

/-- A data pointer, which the list does not follow. -/
abbrev Data : Type := Option Nat

/-- `struct list_entry` -/
abbrev ListEntry : Type := Node Ptr Data

/-- The memory of the list entries. -/
abbrev ListHeap : Type := Ptr → Option ListEntry

/-- `list_t`. Of the two callbacks, `freer` is kept as whether it is set; `seeker` is not used
by the functions here. -/
structure ListT where
  elementCount : UInt32 := 0
  first : Option Ptr := none
  last : Option Ptr := none
  curIter : Option Ptr := none
  freer : Bool := false
  deriving DecidableEq, Repr

/-- A list and the memory it is in. -/
structure ListState where
  heap : ListHeap
  list : ListT

/-- `free` -/
def ListHeap.free (heap : ListHeap) (a : Ptr) : ListHeap := Function.update heap a none

/-- The assignment `a->next = next`. -/
def ListHeap.setNext (heap : ListHeap) (a : Ptr) (next : Option Ptr) : Option ListHeap :=
  match heap a with
  | none => none
  | some e => some (Function.update heap a (some { e with next := next }))

/-- The assignment `a->prev = prev`. -/
def ListHeap.setPrev (heap : ListHeap) (a : Ptr) (prev : Option Ptr) : Option ListHeap :=
  match heap a with
  | none => none
  | some e => some (Function.update heap a (some { e with prev := prev }))

/-- `ws_list_init` -/
def wsListInit (heap : ListHeap) (freer : Bool) : ListState := ⟨heap, { freer := freer }⟩

/-- The loop of `ws_list_destroy` and of `ws_list_clear`: every entry is freed. The second
result is the data of the entries, in order. -/
def freeAll : Nat → Ptr → ListState → Option (ListState × List Data)
  | 0, _, _ => none
  | fuel + 1, cur, s =>
      match s.heap cur with
      | none => none
      | some e =>
          let s := { s with
            heap := s.heap.free cur
            list.elementCount := s.list.elementCount - 1 }
          match e.next with
          | none => some ({ s with list.first := none }, [e.data])
          | some next => (freeAll fuel next s).map fun r => (r.1, e.data :: r.2)

/-- `ws_list_destroy`. The result is what `freer` was called with. -/
def wsListDestroy (fuel : Nat) (s : ListState) : Option (ListState × List Data) :=
  match s.list.first with
  | none => some (s, [])
  | some first => (freeAll fuel first s).map fun r => (r.1, if s.list.freer then r.2 else [])

/-- `ws_list_clear` -/
def wsListClear (fuel : Nat) (s : ListState) : Option (ListState × Bool) :=
  match s.list.first with
  | none => some (s, false)
  | some first => (freeAll fuel first s).map fun r => (r.1, true)

/-- The search of `ws_list_delete`, from an entry on. -/
def findEntry : Nat → ListHeap → Ptr → Data → Option (Option Ptr)
  | 0, _, _, _ => none
  | fuel + 1, heap, cur, data =>
      match heap cur with
      | none => none
      | some e =>
          if e.data = data then some (some cur)
          else
            match e.next with
            | none => some none
            | some next => findEntry fuel heap next data

/-- `if( prev ){ prev->next = next; }` -/
def ListHeap.linkNext (heap : ListHeap) (prev next : Option Ptr) : Option ListHeap :=
  match prev with
  | none => some heap
  | some a => heap.setNext a next

/-- `if( next ){ next->prev = prev; }` -/
def ListHeap.linkPrev (heap : ListHeap) (next prev : Option Ptr) : Option ListHeap :=
  match next with
  | none => some heap
  | some a => heap.setPrev a prev

/-- What `ws_list_delete` and `ws_list_extract_at` do with the neighbours of an entry. -/
def unlinkEntry (heap : ListHeap) (e : ListEntry) : Option ListHeap :=
  (heap.linkNext e.prev e.next).bind fun heap => heap.linkPrev e.next e.prev

/-- `ws_list_delete`. The freer is not called. -/
def wsListDelete (fuel : Nat) (data : Data) (s : ListState) : Option (ListState × Bool) :=
  match s.list.first with
  | none => some (s, false)
  | some first => do
      match ← findEntry fuel s.heap first data with
      | none => some (s, false)
      | some del =>
          let e ← s.heap del
          let heap ← unlinkEntry s.heap e
          some ({ s with
            heap := heap.free del
            list.elementCount := s.list.elementCount - 1
            list.first := if s.list.first = some del then e.next else s.list.first
            list.last := if s.list.last = some del then e.prev else s.list.last }, true)

/-- `ws_list_append`, where `malloc` returns `new`. `first` is the flag
`WS_LIST_APPEND_FIRST`. -/
def wsListAppend (data : Data) (first : Bool) (new : Ptr) (s : ListState) : Option ListState :=
  let count := s.list.elementCount + 1
  match s.list.first with
  | none =>
      some { s with
        heap := Function.update s.heap new (some ⟨none, none, data⟩)
        list.elementCount := count
        list.first := some new
        list.last := some new }
  | some cur =>
      if first then do
        let heap ← ListHeap.setPrev (Function.update s.heap new (some ⟨some cur, none, data⟩)) cur (some new)
        some { s with heap := heap, list.elementCount := count, list.first := some new }
      else
        match s.list.last with
        | none => none
        | some cur => do
            let heap ← ListHeap.setNext (Function.update s.heap new (some ⟨none, some cur, data⟩)) cur (some new)
            some { s with heap := heap, list.elementCount := count, list.last := some new }

/-- `ws_list_iterator_start` -/
def wsListIteratorStart (s : ListState) : ListState :=
  { s with list.curIter := s.list.first }

/-- `ws_list_iterator_next` -/
def wsListIteratorNext (s : ListState) : Option (ListState × Data) :=
  match s.list.curIter with
  | none => some (s, none)
  | some cur =>
      match s.heap cur with
      | none => none
      | some e => some ({ s with list.curIter := e.next }, e.data)

/-- `ws_list_iterator_stop` -/
def wsListIteratorStop (s : ListState) : ListState := { s with list.curIter := none }

/-- The loop of `ws_list_get_entry_at`. -/
def entryAtLoop : Nat → ListHeap → Ptr → UInt32 → UInt32 → Option (Option Ptr)
  | 0, _, _, _, _ => none
  | fuel + 1, heap, cur, curPos, pos =>
      match heap cur with
      | none => none
      | some e =>
          if curPos = pos then some (some cur)
          else
            match e.next with
            | none => some none
            | some next => entryAtLoop fuel heap next (curPos + 1) pos

/-- `ws_list_get_entry_at` -/
def wsListGetEntryAt (fuel : Nat) (pos : UInt32) (s : ListState) : Option (Option Ptr) :=
  match s.list.first with
  | none => some none
  | some first => entryAtLoop fuel s.heap first 0 pos

/-- `ws_list_extract_at`. Unlike in `ws_list_delete`, `last` stays as it is. -/
def wsListExtractAt (fuel : Nat) (pos : UInt32) (s : ListState) : Option (ListState × Data) := do
  match ← wsListGetEntryAt fuel pos s with
  | none => some (s, none)
  | some cur =>
      let e ← s.heap cur
      let heap ← unlinkEntry s.heap e
      some ({ s with
        heap := heap.free cur
        list.elementCount := s.list.elementCount - 1
        list.first := if e.prev = none ∧ s.list.first = some cur then e.next else s.list.first }, e.data)

/-- `ws_list_get_at` -/
def wsListGetAt (fuel : Nat) (pos : UInt32) (s : ListState) : Option Data := do
  match ← wsListGetEntryAt fuel pos s with
  | none => some none
  | some cur => do
      let e ← s.heap cur
      some e.data

/-- Calls of `ws_list_iterator_next`, one after the other. -/
def iteratorNexts : Nat → ListState → Option (ListState × List Data)
  | 0, s => some (s, [])
  | n + 1, s =>
      match wsListIteratorNext s with
      | none => none
      | some (s, data) => (iteratorNexts n s).map fun r => (r.1, data :: r.2)

/-! ## Sequences of calls -/

/-- A call, or an iteration with a number of elements asked for. -/
inductive ListOp where
  | append (data : Data) (first : Bool) (new : Ptr)
  | delete (data : Data)
  | extractAt (pos : UInt32)
  | getAt (pos : UInt32)
  | clear
  | destroy
  | iterate (n : Nat)
  deriving DecidableEq, Repr

/-- What a call returns. -/
inductive ListResult where
  | status (ok : Bool)
  | element (data : Data)
  | elements (data : List Data)
  deriving DecidableEq, Repr

/-- Perform a call. -/
def ListOp.exec (fuel : Nat) (s : ListState) : ListOp → Option (ListState × ListResult)
  | .append data first new => (wsListAppend data first new s).map fun s => (s, .status true)
  | .delete data => (wsListDelete fuel data s).map fun r => (r.1, .status r.2)
  | .extractAt pos => (wsListExtractAt fuel pos s).map fun r => (r.1, .element r.2)
  | .getAt pos => (wsListGetAt fuel pos s).map fun data => (s, .element data)
  | .clear => (wsListClear fuel s).map fun r => (r.1, .status r.2)
  | .destroy => (wsListDestroy fuel s).map fun r => (r.1, .elements r.2)
  | .iterate n => (iteratorNexts n (wsListIteratorStart s)).map fun r =>
      (wsListIteratorStop r.1, .elements r.2)

/-- Perform calls one after the other. -/
def runList (fuel : Nat) : List ListOp → ListState → Option (ListState × List ListResult)
  | [], s => some (s, [])
  | op :: ops, s =>
      match op.exec fuel s with
      | none => none
      | some (s, r) => (runList fuel ops s).map fun t => (t.1, r :: t.2)

end CWebUI.Containers
