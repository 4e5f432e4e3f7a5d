import CWebUI.Basic.Threads
import CWebUI.Containers.ListRefinement

set_option autoImplicit false

/-! # The message queue

`message_queue.c`: a linked list behind a mutex, and a semaphore that counts its entries. The
threads that call `ws_pushQueue` and `ws_popQueue` are interleaved in any order. A step of a
thread is a list operation, which the mutex makes atomic, or a semaphore operation.
-/

namespace CWebUI.Containers

open DoublyLinked Threads

/-- `ws_MessageQueue`, without the mutex. -/
structure MessageQueue where
  entryList : ListState
  semid : Nat

/-- `ws_createMessageQueue`, in memory that is in use elsewhere. -/
def wsCreateMessageQueue (heap : ListHeap) : MessageQueue := ⟨wsListInit heap false, 0⟩

/-- `PlatformPostSem`: `sem_post` fails at the largest value, and nobody looks at that. -/
def platformPostSem (semValueMax : Nat) (mq : MessageQueue) : MessageQueue :=
  { mq with semid := if mq.semid < semValueMax then mq.semid + 1 else mq.semid }

/-- `PlatformWaitSem`: no result while the thread has to wait. An interrupted wait is
started again. -/
def platformWaitSem (mq : MessageQueue) : Option MessageQueue :=
  if mq.semid = 0 then none else some { mq with semid := mq.semid - 1 }

/-- The list operation of `ws_pushQueue`. -/
def MessageQueue.append (element : Data) (new : Ptr) (mq : MessageQueue) : Option MessageQueue :=
  (wsListAppend element false new mq.entryList).map fun list => { mq with entryList := list }

/-- The list operation of `ws_popQueue`. The search for position 0 ends at the first entry. -/
def MessageQueue.extract (mq : MessageQueue) : Option (MessageQueue × Data) :=
  (wsListExtractAt 1 0 mq.entryList).map fun r => ({ mq with entryList := r.1 }, r.2)

/-! ## The interleaving -/

/-- Where a thread is. -/
inductive QueuePc where
  /-- In neither function. -/
  | idle
  /-- In `ws_pushQueue`, before the list operation. -/
  | append (element : Data)
  /-- In `ws_pushQueue`, before `PlatformPostSem`. -/
  | post
  /-- In `ws_popQueue`, before `PlatformWaitSem`. -/
  | wait
  /-- In `ws_popQueue`, behind the semaphore and before the list operation. -/
  | extract
  deriving DecidableEq, Repr

/-- A queue and the threads that use it, with the elements that were appended and the results
of the pops so far. -/
structure QueueState (T : Type) where
  mq : MessageQueue
  pc : T → QueuePc
  pushed : List Data := []
  popped : List Data := []

variable {T : Type} [DecidableEq T]

/-- A new queue, which no thread is using. -/
def QueueState.init (T : Type) (heap : ListHeap) : QueueState T :=
  { mq := wsCreateMessageQueue heap, pc := fun _ => .idle }

/-- A thread goes on. -/
def QueueState.goto (s : QueueState T) (t : T) (pc : QueuePc) : QueueState T :=
  { s with pc := Function.update s.pc t pc }

/-- A step of a thread. -/
inductive QueueStep (semValueMax : Nat) (s : QueueState T) : QueueState T → Prop where
  | callPush (t : T) (element : Data) (h : s.pc t = .idle) :
      QueueStep semValueMax s (s.goto t (.append element))
  | append (t : T) (element : Data) (new : Ptr) (mq : MessageQueue)
      (h : s.pc t = .append element) (hnew : s.mq.entryList.heap new = none)
      (hmq : s.mq.append element new = some mq) :
      QueueStep semValueMax s
        { s.goto t .post with mq := mq, pushed := s.pushed ++ [element] }
  | post (t : T) (h : s.pc t = .post) :
      QueueStep semValueMax s { s.goto t .idle with mq := platformPostSem semValueMax s.mq }
  | callPop (t : T) (h : s.pc t = .idle) : QueueStep semValueMax s (s.goto t .wait)
  | wait (t : T) (mq : MessageQueue) (h : s.pc t = .wait) (hmq : platformWaitSem s.mq = some mq) :
      QueueStep semValueMax s { s.goto t .extract with mq := mq }
  | extract (t : T) (mq : MessageQueue) (ret : Data) (h : s.pc t = .extract)
      (hmq : s.mq.extract = some (mq, ret)) :
      QueueStep semValueMax s { s.goto t .idle with mq := mq, popped := s.popped ++ [ret] }

/-- The states that the threads can bring a new queue to. -/
inductive QueueReachable (semValueMax : Nat) (heap : ListHeap) : QueueState T → Prop where
  | init : QueueReachable semValueMax heap (.init T heap)
  | step {s s' : QueueState T} (h : QueueReachable semValueMax heap s)
      (hstep : QueueStep semValueMax s s') : QueueReachable semValueMax heap s'

/-! ## The list operations -/

theorem append_linked {mq : MessageQueue} {nodes : List (Ptr × Data)}
    (h : Linked mq.entryList nodes) (element : Data) {new : Ptr}
    (hnew : mq.entryList.heap new = none) :
    ∃ mq', mq.append element new = some mq' ∧ mq'.semid = mq.semid ∧
      Linked mq'.entryList (nodes ++ [(new, element)]) := by
  obtain ⟨list, hlist, hlinked, -⟩ := wsListAppend_linked h element false hnew
  refine ⟨{ mq with entryList := list }, ?_, rfl, hlinked⟩
  rw [MessageQueue.append, hlist]
  rfl

theorem extract_linked {mq : MessageQueue} {nodes : List (Ptr × Data)} {a : Ptr} {x : Data}
    (h : Linked mq.entryList ((a, x) :: nodes)) :
    ∃ mq', mq.extract = some (mq', x) ∧ mq'.semid = mq.semid ∧ Linked mq'.entryList nodes := by
  obtain ⟨⟨last, hseg, hlast⟩, hnodup⟩ := h
  obtain rfl : mq.entryList.list.last = last := hlast (by simp)
  obtain ⟨e, heap, hnode, hdata, hunlink, hprev, hfirst, hend, hrest⟩ :=
    @unlinkEntry_spec _ _ _ [] nodes a x hseg hnodup
  have hat : mq.entryList.list.first = some a := hfirst.mpr rfl
  have hentry : wsListGetEntryAt 1 0 mq.entryList = some (some a) := by
    simp [wsListGetEntryAt, hat, entryAtLoop, hnode]
  let rest : ListState := { mq.entryList with
      heap := heap.free a
      list.elementCount := mq.entryList.list.elementCount - 1
      list.first := e.next }
  have hextract : wsListExtractAt 1 0 mq.entryList = some (rest, x) := by
    simp [wsListExtractAt, hentry, hnode, hunlink, hprev, hat, hdata, rest]
  refine ⟨{ mq with entryList := rest }, ?_, rfl, ⟨_, hrest, fun hne => ?_⟩, ?_⟩
  · rw [MessageQueue.extract, hextract]
    rfl
  · -- `last` stays as it is, and is right as long as an entry is left
    rw [if_neg hne]
  · rw [List.map_cons, List.nodup_cons] at hnodup
    exact hnodup.2

/-! ## The invariant -/

/-- The entries that belong to a thread: one that it has not posted yet, or one that it has
passed the semaphore for. -/
def QueuePc.owed : QueuePc → Nat
  | .post | .extract => 1
  | .idle | .append _ | .wait => 0

/-- The list holds what was pushed and not popped yet. Every permit of the semaphore, every
consumer that has taken one, and every producer that has not posted yet has an entry of its
own. -/
def QueueInv (s : QueueState T) : Prop :=
  ∃ nodes owed, Linked s.mq.entryList nodes ∧ s.pushed = s.popped ++ nodes.map Prod.snd ∧
    Total s.pc QueuePc.owed owed ∧ s.mq.semid + owed ≤ nodes.length

omit [DecidableEq T] in
theorem queueInv_init (heap : ListHeap) : QueueInv (.init T heap) :=
  ⟨[], 0, ⟨⟨none, ⟨rfl, rfl⟩, fun h => absurd rfl h⟩, List.nodup_nil⟩, rfl,
    total_zero fun _ => rfl, Nat.le_refl 0⟩

/-- A thread behind the semaphore has an entry. -/
theorem QueueInv.nonempty {s : QueueState T} {nodes : List (Ptr × Data)} {owed : Nat} {t : T}
    (htotal : Total s.pc QueuePc.owed owed) (hle : s.mq.semid + owed ≤ nodes.length)
    (h : s.pc t = .extract) : nodes ≠ [] := by
  rintro rfl
  obtain ⟨rest, hrest⟩ := htotal.part t
  rw [h] at hrest
  simp only [QueuePc.owed, List.length_nil] at hrest hle
  omega

theorem QueueStep.inv {semValueMax : Nat} {s s' : QueueState T}
    (hstep : QueueStep semValueMax s s') (hinv : QueueInv s) : QueueInv s' := by
  obtain ⟨nodes, owed, hlinked, hall, htotal, hle⟩ := hinv
  cases hstep with
  | callPush t element h =>
      exact ⟨nodes, owed, hlinked, hall, htotal.pass (by rw [h]; rfl), hle⟩
  | append t element new mq h hnew hmq =>
      obtain ⟨mq', hmq', hsem, hlinked'⟩ := append_linked hlinked element hnew
      obtain rfl : mq' = mq := Option.some.inj (hmq'.symm.trans hmq)
      obtain ⟨rest, howed, htotal'⟩ := htotal.update t .post
      rw [h] at howed
      refine ⟨_, rest + 1, hlinked', by simp [QueueState.goto, hall], htotal', ?_⟩
      simp only [hsem, List.length_append, List.length_singleton, QueuePc.owed] at howed ⊢
      omega
  | post t h =>
      obtain ⟨rest, howed, htotal'⟩ := htotal.update t .idle
      rw [h] at howed
      refine ⟨nodes, rest + 0, hlinked, hall, htotal', ?_⟩
      simp only [platformPostSem, QueuePc.owed] at howed ⊢
      split <;> omega
  | callPop t h =>
      exact ⟨nodes, owed, hlinked, hall, htotal.pass (by rw [h]; rfl), hle⟩
  | wait t mq h hmq =>
      unfold platformWaitSem at hmq
      split at hmq
      · exact absurd hmq (by simp)
      · obtain rfl := Option.some.inj hmq
        obtain ⟨rest, howed, htotal'⟩ := htotal.update t .extract
        rw [h] at howed
        refine ⟨nodes, rest + 1, hlinked, hall, htotal', ?_⟩
        simp only [QueuePc.owed] at howed ⊢
        omega
  | extract t mq ret h hmq =>
      obtain ⟨⟨a, x⟩, nodes, rfl⟩ := List.exists_cons_of_ne_nil (QueueInv.nonempty htotal hle h)
      obtain ⟨mq', hmq', hsem, hlinked'⟩ := extract_linked hlinked
      obtain ⟨rfl, rfl⟩ : mq' = mq ∧ x = ret := by
        rw [hmq'] at hmq
        exact Prod.mk.inj (Option.some.inj hmq)
      obtain ⟨rest, howed, htotal'⟩ := htotal.update t .idle
      rw [h] at howed
      refine ⟨nodes, rest + 0, hlinked', by simp [QueueState.goto, hall], htotal', ?_⟩
      simp only [hsem, List.length_cons, QueuePc.owed] at howed hle ⊢
      omega

theorem QueueReachable.inv {semValueMax : Nat} {heap : ListHeap} {s : QueueState T}
    (h : QueueReachable semValueMax heap s) : QueueInv s := by
  induction h with
  | init => exact queueInv_init heap
  | step _ hstep ih => exact hstep.inv ih

/-- **The queue.** In every state that any threads can bring a new queue to, what was pushed
is what was popped followed by the entries of the list, in this order, no element was popped
more often than it was pushed, and a thread behind the semaphore finds an entry: the one that
was pushed next after those popped already. -/
theorem message_queue_fifo (semValueMax : Nat) (heap : ListHeap) (s : QueueState T)
    (h : QueueReachable semValueMax heap s) :
    (∃ nodes, Forward s.mq.entryList.heap s.mq.entryList.list.first nodes ∧
      s.pushed = s.popped ++ nodes.map Prod.snd) ∧
    (∀ element, s.popped.count element ≤ s.pushed.count element) ∧
    (∀ t, s.pc t = .extract → s.mq.entryList.list.first ≠ none ∧
      ∃ mq ret, s.mq.extract = some (mq, ret) ∧ s.pushed[s.popped.length]? = some ret) := by
  obtain ⟨nodes, owed, hlinked, hall, htotal, hle⟩ := h.inv
  obtain ⟨last, hseg, -⟩ := hlinked.1
  refine ⟨⟨nodes, hseg.forward, hall⟩, fun element => ?_, fun t ht => ?_⟩
  · rw [hall, List.count_append]
    exact Nat.le_add_right _ _
  · obtain ⟨⟨a, x⟩, nodes, rfl⟩ := List.exists_cons_of_ne_nil (QueueInv.nonempty htotal hle ht)
    obtain ⟨mq, hmq, -⟩ := extract_linked hlinked
    refine ⟨?_, mq, x, hmq, ?_⟩
    · rw [hseg.head]
      simp
    · rw [hall, List.getElem?_append_right (Nat.le_refl _), Nat.sub_self]
      rfl

/-- A producer has pushed an element, and a consumer is behind the semaphore. -/
def handedOver : QueueState Bool :=
  { mq := ⟨⟨Function.update (fun _ => none) 1 (some ⟨none, none, some 7⟩),
      { elementCount := 1, first := some 1, last := some 1 }⟩, 0⟩
    pc := Function.update (Function.update (Function.update (Function.update (Function.update
      (fun _ => .idle) true (.append (some 7))) true .post) true .idle) false .wait) false .extract
    pushed := [some 7] }

theorem handedOver_reachable : QueueReachable 2 (fun _ => none) handedOver := by
  have h₁ := @QueueReachable.init Bool _ 2 (fun _ => none)
  have h₂ := h₁.step (.callPush true (some 7) rfl)
  have h₃ := h₂.step (.append true (some 7) 1 _ rfl rfl rfl)
  have h₄ := h₃.step (.post true rfl)
  have h₅ := h₄.step (.callPop false rfl)
  exact h₅.step (.wait false _ rfl rfl)

theorem message_queue_fifo_handedOver :
    QueueReachable 2 (fun _ => none) handedOver ∧ handedOver.pc false = .extract ∧
      handedOver.mq.entryList.list.first ≠ none :=
  ⟨handedOver_reachable, rfl,
    ((message_queue_fifo 2 (fun _ => none) handedOver handedOver_reachable).2.2 false rfl).1⟩

end CWebUI.Containers
