import CWebUI.Containers.MessageQueue
import Mathlib.Algebra.Order.Group.Multiset
import Mathlib.Data.Multiset.Filter
import Mathlib.Tactic.Abel

set_option autoImplicit false

/-! # The two queues of the websocket API

`websockets.c`: threads insert messages for the handlers (input) and frames to be sent
(output), one worker thread for each of the two queues takes them out, and `stopWebsocketApi`
ends the workers. The steps of all these threads are interleaved in any order. A step is a test
or an assignment of `websocket_threads_running`, a list or semaphore operation of a queue, or a
call or return of a handler. A handler may insert messages itself.
-/

namespace CWebUI.Websocket

open Containers Threads

/-- The two queues. -/
inductive Side where
  | input
  | output
  deriving DecidableEq, Repr

/-- The address of `websocket_stop_msg`. -/
def websocketStopMsg : Data := some 0

/-- The threads: those of the application, the two workers, and the one that stops the API. -/
inductive ApiThread (T : Type) where
  | app (t : T)
  | worker (q : Side)
  | main
  deriving DecidableEq, Repr

/-- Where a thread is. -/
inductive ApiPc where
  /-- Outside of this file; for a worker, in the handler. -/
  | app
  /-- In `insert_websocket_input_queue` or `insert_websocket_output_queue`, before the test. -/
  | test (q : Side) (msg : Data)
  /-- In `ws_pushQueue`, before the list operation. -/
  | append (q : Side) (msg : Data)
  /-- In `ws_pushQueue`, before the semaphore operation. -/
  | post (q : Side)
  /-- In `ws_popQueue`, before the semaphore operation. -/
  | wait (q : Side)
  /-- In `ws_popQueue`, before the list operation. -/
  | extract (q : Side)
  /-- The thread has ended. -/
  | ended
  /-- In `stopWebsocketApi`, before the test. -/
  | stopTest
  /-- In the `ws_pushQueue` of the stop marker, before the list operation. -/
  | stopAppend (q : Side)
  /-- In the `ws_pushQueue` of the stop marker, before the semaphore operation. -/
  | stopPost (q : Side)
  /-- In `PlatformJoinThread`. -/
  | stopJoin (q : Side)
  /-- Before the assignment at the end of `stopWebsocketApi`. -/
  | stopClear
  /-- Behind it. -/
  | stopped
  /-- `stopWebsocketApi` returned at once. -/
  | stopReturned
  deriving DecidableEq, Repr

/-- A queue, what its worker is handling, and what happened to the messages so far: those that
an insert was called with, those appended to the queue (with the stop marker), those a handler
was called with, those that an insert freed, and all that were freed. -/
structure ApiSide where
  mq : MessageQueue
  current : Option Data := none
  inserted : List Data := []
  queued : List Data := []
  handled : List Data := []
  dropped : List Data := []
  freed : List Data := []

/-- The state. `running` is `websocket_threads_running`; each queue has memory of its own. -/
structure ApiState (T : Type) where
  running : Bool
  pc : ApiThread T → ApiPc
  sides : Side → ApiSide

/-- `initWebsocketApi` -/
def initWebsocketApi (T : Type) (heap : Side → ListHeap) : ApiState T where
  running := true
  pc
    | .worker q => .wait q
    | .app _ | .main => .app
  sides q := { mq := wsCreateMessageQueue (heap q) }

variable {T : Type} [DecidableEq T]

/-- A thread goes on. -/
def ApiState.goto (s : ApiState T) (t : ApiThread T) (pc : ApiPc) : ApiState T :=
  { s with pc := Function.update s.pc t pc }

/-- A thread goes on, and changes something of a queue. -/
def ApiState.move (s : ApiState T) (t : ApiThread T) (pc : ApiPc) (q : Side) (side : ApiSide) :
    ApiState T :=
  { s.goto t pc with sides := Function.update s.sides q side }

/-- What a thread does next. -/
inductive ApiAct (T : Type) where
  | callInsert (t : ApiThread T)
  | test (t : ApiThread T)
  | append (t : ApiThread T) (q : Side)
  | post (t : ApiThread T)
  | wait (q : Side)
  | extract (q : Side)
  | handlerReturns (q : Side)
  | callStop
  | stop

/-- A step. -/
inductive ApiStep (semValueMax : Nat) (s : ApiState T) : ApiAct T → ApiState T → Prop where
  | callInsert (t : ApiThread T) (q : Side) (msg : Data) (h : s.pc t = .app)
      (hmsg : msg ≠ websocketStopMsg) :
      ApiStep semValueMax s (.callInsert t) (s.move t (.test q msg) q
        { s.sides q with inserted := (s.sides q).inserted ++ [msg] })
  | drop (t : ApiThread T) (q : Side) (msg : Data) (h : s.pc t = .test q msg)
      (hrunning : s.running = false) :
      ApiStep semValueMax s (.test t) (s.move t .app q { s.sides q with
        dropped := (s.sides q).dropped ++ [msg]
        freed := (s.sides q).freed ++ [msg] })
  | accept (t : ApiThread T) (q : Side) (msg : Data) (h : s.pc t = .test q msg)
      (hrunning : s.running = true) :
      ApiStep semValueMax s (.test t) (s.goto t (.append q msg))
  | append (t : ApiThread T) (q : Side) (msg : Data) (new : Ptr) (mq : MessageQueue)
      (h : s.pc t = .append q msg) (hnew : (s.sides q).mq.entryList.heap new = none)
      (hmq : (s.sides q).mq.append msg new = some mq) :
      ApiStep semValueMax s (.append t q) (s.move t (.post q) q
        { s.sides q with mq := mq, queued := (s.sides q).queued ++ [msg] })
  | post (t : ApiThread T) (q : Side) (h : s.pc t = .post q) :
      ApiStep semValueMax s (.post t) (s.move t .app q
        { s.sides q with mq := platformPostSem semValueMax (s.sides q).mq })
  | wait (q : Side) (mq : MessageQueue) (h : s.pc (.worker q) = .wait q)
      (hmq : platformWaitSem (s.sides q).mq = some mq) :
      ApiStep semValueMax s (.wait q)
        (s.move (.worker q) (.extract q) q { s.sides q with mq := mq })
  | handle (q : Side) (mq : MessageQueue) (msg : Data) (h : s.pc (.worker q) = .extract q)
      (hmq : (s.sides q).mq.extract = some (mq, msg)) (hmsg : msg ≠ websocketStopMsg) :
      ApiStep semValueMax s (.extract q) (s.move (.worker q) .app q { s.sides q with
        mq := mq
        current := some msg
        handled := (s.sides q).handled ++ [msg] })
  | leave (q : Side) (mq : MessageQueue) (h : s.pc (.worker q) = .extract q)
      (hmq : (s.sides q).mq.extract = some (mq, websocketStopMsg)) :
      ApiStep semValueMax s (.extract q)
        (s.move (.worker q) .ended q { s.sides q with mq := mq })
  | handlerReturns (q : Side) (msg : Data) (h : s.pc (.worker q) = .app)
      (hcurrent : (s.sides q).current = some msg) :
      ApiStep semValueMax s (.handlerReturns q) (s.move (.worker q) (.wait q) q
        { s.sides q with current := none, freed := (s.sides q).freed ++ [msg] })
  | callStop (h : s.pc .main = .app) : ApiStep semValueMax s .callStop (s.goto .main .stopTest)
  | stopReturn (h : s.pc .main = .stopTest) (hrunning : s.running = false) :
      ApiStep semValueMax s .stop (s.goto .main .stopReturned)
  | stopBegin (h : s.pc .main = .stopTest) (hrunning : s.running = true) :
      ApiStep semValueMax s .stop (s.goto .main (.stopAppend .input))
  | stopAppend (q : Side) (new : Ptr) (mq : MessageQueue) (h : s.pc .main = .stopAppend q)
      (hnew : (s.sides q).mq.entryList.heap new = none)
      (hmq : (s.sides q).mq.append websocketStopMsg new = some mq) :
      ApiStep semValueMax s .stop (s.move .main (.stopPost q) q
        { s.sides q with mq := mq, queued := (s.sides q).queued ++ [websocketStopMsg] })
  | stopPost (q : Side) (h : s.pc .main = .stopPost q) :
      ApiStep semValueMax s .stop (s.move .main (.stopJoin q) q
        { s.sides q with mq := platformPostSem semValueMax (s.sides q).mq })
  | joinInput (h : s.pc .main = .stopJoin .input) (hended : s.pc (.worker .input) = .ended) :
      ApiStep semValueMax s .stop (s.goto .main (.stopAppend .output))
  | joinOutput (h : s.pc .main = .stopJoin .output) (hended : s.pc (.worker .output) = .ended) :
      ApiStep semValueMax s .stop (s.goto .main .stopClear)
  | stopClear (h : s.pc .main = .stopClear) :
      ApiStep semValueMax s .stop { s.goto .main .stopped with running := false }

/-- The states that steps lead to which all meet a condition. -/
inductive ApiReachable (semValueMax : Nat) (heap : Side → ListHeap)
    (ok : ApiState T → ApiAct T → Prop) : ApiState T → Prop where
  | init : ApiReachable semValueMax heap ok (initWebsocketApi T heap)
  | step {s s' : ApiState T} {act : ApiAct T} (h : ApiReachable semValueMax heap ok s)
      (hstep : ApiStep semValueMax s act s') (hok : ok s act) :
      ApiReachable semValueMax heap ok s'

/-! ## What stopping has to do -/

/-- The stop marker has been appended to a queue. -/
def ApiPc.marked : ApiPc → Side → Bool
  | .stopPost .input, .input | .stopJoin .input, .input => true
  | .stopAppend .output, .input | .stopPost .output, _ | .stopJoin .output, _ => true
  | .stopClear, _ | .stopped, _ => true
  | _, _ => false

/-- A thread is inserting a message, which is not in the queue yet. -/
def ApiPc.inserting : ApiPc → Side → Multiset Data
  | .test q' msg, q | .append q' msg, q => if q' = q then {msg} else 0
  | _, _ => 0

/-- **Stopping.** No message is handled or freed more than once; a worker that has ended has
handled all messages ahead of the stop marker, in their order; and once the stop is complete
the queues are empty, and every message of an insert that is not under way was either handled
or dropped, and freed. -/
structure StopContract (s : ApiState T) : Prop where
  once : ∀ q, ((s.sides q).handled + (s.sides q).dropped : Multiset Data) ≤ (s.sides q).inserted ∧
    ((s.sides q).freed : Multiset Data) ≤ (s.sides q).inserted
  ahead : ∀ q, s.pc (.worker q) = .ended →
    (s.sides q).handled = (s.sides q).queued.takeWhile (· ≠ websocketStopMsg)
  empty : s.pc .main = .stopped → ∀ q, (s.sides q).mq.entryList.list.first = none
  all : s.pc .main = .stopped → ∀ q, (∀ t, (s.pc t).inserting q = 0) →
    ((s.sides q).inserted : Multiset Data) = (s.sides q).handled + (s.sides q).dropped ∧
      ((s.sides q).inserted : Multiset Data) = (s.sides q).freed

/-- An insert does not append its message behind the stop marker of the queue. -/
def Timely (s : ApiState T) : ApiAct T → Prop
  | .append _ q => (s.pc .main).marked q = false
  | _ => True

/-! ## The invariant -/

/-- The worker of a queue has been waited for. -/
def ApiPc.joined : ApiPc → Side → Bool
  | .stopAppend .output, .input | .stopPost .output, .input | .stopJoin .output, .input => true
  | .stopClear, _ | .stopped, _ => true
  | _, _ => false

/-- A worker that is not in a handler. -/
def ApiPc.resting : ApiPc → Bool
  | .wait _ | .extract _ | .ended => true
  | _ => false

/-- The entries of a queue that belong to a thread: one that it has not posted yet, or one that
it has passed the semaphore for. -/
def ApiPc.owed : ApiPc → Side → Nat
  | .post q', q | .stopPost q', q | .extract q', q => if q' = q then 1 else 0
  | _, _ => 0

/-- What holds of a queue and the threads between the steps. -/
structure SideInv (pc : ApiThread T → ApiPc) (q : Side) (side : ApiSide) : Prop where
  entries : ∃ nodes owed, Linked side.mq.entryList nodes ∧
    side.queued = side.handled ++
      ((if pc (.worker q) = .ended then [websocketStopMsg] else []) ++ nodes.map Prod.snd) ∧
    Total pc (·.owed q) owed ∧ side.mq.semid + owed ≤ nodes.length
  inserted : ∃ flight, Total pc (·.inserting q) flight ∧
    (side.inserted : Multiset Data) =
      side.dropped + side.queued.filter (· ≠ websocketStopMsg) + flight
  freed : (side.freed + side.current.toList : Multiset Data) = side.handled + side.dropped
  resting : (pc (.worker q)).resting → side.current = none
  marker : ∃ msgs, websocketStopMsg ∉ msgs ∧
    side.queued = msgs ++ if (pc .main).marked q then [websocketStopMsg] else []
  joined : (pc .main).joined q → pc (.worker q) = .ended
  handled : websocketStopMsg ∉ side.handled

/-- That a thread goes to `p` is not seen by the worker of the queue and by the stop. -/
structure Quiet (pc : ApiThread T → ApiPc) (q : Side) (t : ApiThread T) (p : ApiPc) : Prop where
  resting : t = .worker q → p.resting = (pc t).resting
  ended : t = .worker q → (p = .ended ↔ pc t = .ended)
  marked : t = .main → p.marked q = (pc t).marked q
  joined : t = .main → p.joined q = (pc t).joined q

variable {pc : ApiThread T → ApiPc} {q : Side} {t : ApiThread T} {p : ApiPc} {side : ApiSide}

/-- What a quiet step leaves as it was. -/
theorem Quiet.same (h : Quiet pc q t p) :
    (Function.update pc t p (.worker q)).resting = (pc (.worker q)).resting ∧
      (Function.update pc t p (.worker q) = .ended ↔ pc (.worker q) = .ended) ∧
      (Function.update pc t p .main).marked q = (pc .main).marked q ∧
      (Function.update pc t p .main).joined q = (pc .main).joined q := by
  by_cases hw : t = .worker q
  · subst hw
    rw [Function.update_self, Function.update_of_ne (by simp)]
    exact ⟨h.resting rfl, h.ended rfl, rfl, rfl⟩
  · rw [Function.update_of_ne (Ne.symm hw)]
    by_cases hm : t = .main
    · subst hm
      rw [Function.update_self]
      exact ⟨rfl, Iff.rfl, h.marked rfl, h.joined rfl⟩
    · rw [Function.update_of_ne (Ne.symm hm)]
      exact ⟨rfl, Iff.rfl, rfl, rfl⟩

/-- A step that concerns neither the queue nor its worker nor the stop. -/
theorem SideInv.pass (h : SideInv pc q side) (hquiet : Quiet pc q t p)
    (howed : p.owed q = (pc t).owed q) (hinserting : p.inserting q = (pc t).inserting q) :
    SideInv (Function.update pc t p) q side := by
  obtain ⟨hresting, hended, hmarked, hjoined⟩ := hquiet.same
  obtain ⟨nodes, owed, hlinked, hqueued, htotal, hle⟩ := h.entries
  obtain ⟨flight, hflight, hinserted⟩ := h.inserted
  refine ⟨⟨nodes, owed, hlinked, ?_, htotal.pass howed, hle⟩,
    ⟨flight, hflight.pass hinserting, hinserted⟩, h.freed, ?_, ?_, ?_, h.handled⟩
  · simp only [hended]
    exact hqueued
  · rw [hresting]
    exact h.resting
  · rw [hmarked]
    exact h.marker
  · rw [hjoined, hended]
    exact h.joined

/-! ## The steps on a queue -/

/-- Places that are the same to the workers and to the stop: those of a thread that inserts. -/
def ApiPc.plain : ApiPc → Bool
  | .app | .test _ _ | .append _ _ | .post _ => true
  | _ => false

omit [DecidableEq T] in
theorem quiet_of_plain (hp : p.plain) (ht : (pc t).plain) : Quiet pc q t p := by
  constructor
  all_goals
    intro _
    generalize pc t = p' at ht
    cases p <;> cases p' <;> simp_all [ApiPc.plain, ApiPc.resting, ApiPc.marked, ApiPc.joined]

omit [DecidableEq T] in
theorem quiet_of_other_worker {q' : Side} (h : q' ≠ q) : Quiet pc q' (.worker q) p := by
  constructor <;> intro heq
  · exact absurd (ApiThread.worker.inj heq) (Ne.symm h)
  · exact absurd (ApiThread.worker.inj heq) (Ne.symm h)
  · exact absurd heq (by simp)
  · exact absurd heq (by simp)

omit [DecidableEq T] in
theorem quiet_of_main (hmarked : p.marked q = (pc .main).marked q)
    (hjoined : p.joined q = (pc .main).joined q) : Quiet pc q .main p :=
  ⟨nofun, nofun, fun _ => hmarked, fun _ => hjoined⟩

/-- An entry is appended, and is to be posted. -/
theorem SideInv.entries_append (h : SideInv pc q side) {msg : Data} {new : Ptr}
    {mq : MessageQueue} (hended : Function.update pc t p (.worker q) = .ended ↔ pc (.worker q) = .ended)
    (hp : p.owed q = 1) (ht : (pc t).owed q = 0) (hnew : side.mq.entryList.heap new = none)
    (hmq : side.mq.append msg new = some mq) :
    ∃ nodes owed, Linked mq.entryList nodes ∧
      side.queued ++ [msg] = side.handled ++ ((if Function.update pc t p (.worker q) = .ended then
        [websocketStopMsg] else []) ++ nodes.map Prod.snd) ∧
      Total (Function.update pc t p) (·.owed q) owed ∧ mq.semid + owed ≤ nodes.length := by
  obtain ⟨nodes, owed, hlinked, hqueued, htotal, hle⟩ := h.entries
  obtain ⟨mq', hmq', hsem, hlinked'⟩ := append_linked hlinked msg hnew
  obtain rfl : mq' = mq := Option.some.inj (hmq'.symm.trans hmq)
  obtain ⟨rest, howed, htotal'⟩ := htotal.update t p
  refine ⟨_, _, hlinked', ?_, htotal', ?_⟩
  · simp only [hended, hqueued, List.map_append, List.append_assoc]
    rfl
  · rw [hsem, List.length_append, hp]
    rw [ht] at howed
    simp only [List.length_singleton]
    omega

/-- An entry is posted. -/
theorem SideInv.entries_post (h : SideInv pc q side) (semValueMax : Nat)
    (hended : Function.update pc t p (.worker q) = .ended ↔ pc (.worker q) = .ended)
    (hp : p.owed q = 0) (ht : (pc t).owed q = 1) :
    ∃ nodes owed, Linked (platformPostSem semValueMax side.mq).entryList nodes ∧
      side.queued = side.handled ++ ((if Function.update pc t p (.worker q) = .ended then
        [websocketStopMsg] else []) ++ nodes.map Prod.snd) ∧
      Total (Function.update pc t p) (·.owed q) owed ∧
      (platformPostSem semValueMax side.mq).semid + owed ≤ nodes.length := by
  obtain ⟨nodes, owed, hlinked, hqueued, htotal, hle⟩ := h.entries
  obtain ⟨rest, howed, htotal'⟩ := htotal.update t p
  refine ⟨nodes, _, hlinked, ?_, htotal', ?_⟩
  · simp only [hended]
    exact hqueued
  · rw [hp]
    rw [ht] at howed
    simp only [platformPostSem]
    split <;> omega

/-- A worker behind the semaphore finds an entry, the next one that was queued. -/
theorem SideInv.extract (h : SideInv pc q side) (ht : pc (.worker q) = .extract q)
    {mq : MessageQueue} {msg : Data} (hmq : side.mq.extract = some (mq, msg)) (hp : p.owed q = 0) :
    ∃ nodes owed, Linked mq.entryList nodes ∧
      side.queued = side.handled ++ msg :: nodes.map Prod.snd ∧
      Total (Function.update pc (.worker q) p) (·.owed q) owed ∧
      mq.semid + owed ≤ nodes.length := by
  obtain ⟨nodes, owed, hlinked, hqueued, htotal, hle⟩ := h.entries
  obtain ⟨rest, howed, htotal'⟩ := htotal.update (.worker q) p
  rw [ht] at howed
  simp only [ApiPc.owed, if_true] at howed
  cases nodes with
  | nil =>
      simp only [List.length_nil] at hle
      omega
  | cons node nodes =>
      obtain ⟨a, x⟩ := node
      obtain ⟨mq', hmq', hsem, hlinked'⟩ := extract_linked hlinked
      obtain ⟨rfl, rfl⟩ : mq' = mq ∧ x = msg := by
        rw [hmq'] at hmq
        exact Prod.mk.inj (Option.some.inj hmq)
      refine ⟨nodes, _, hlinked', ?_, htotal', ?_⟩
      · rw [hqueued, if_neg (by simp [ht])]
        rfl
      · rw [hsem, hp]
        simp only [List.length_cons] at hle
        omega

theorem SideInv.callInsert (h : SideInv pc q side) (ht : pc t = .app) (msg : Data) :
    SideInv (Function.update pc t (.test q msg)) q
      { side with inserted := side.inserted ++ [msg] } := by
  have hquiet : Quiet pc q t (.test q msg) := quiet_of_plain rfl (by rw [ht]; rfl)
  obtain ⟨hresting, hended, hmarked, hjoined⟩ := hquiet.same
  obtain ⟨nodes, owed, hlinked, hqueued, htotal, hle⟩ := h.entries
  obtain ⟨flight, hflight, hinserted⟩ := h.inserted
  obtain ⟨rest, hrest, hflight'⟩ := hflight.update t (.test q msg)
  refine ⟨⟨nodes, owed, hlinked, ?_, htotal.pass (by rw [ht]; rfl), hle⟩,
    ⟨_, hflight', ?_⟩, h.freed, ?_, ?_, ?_, h.handled⟩
  · simp only [hended]
    exact hqueued
  · rw [ht] at hrest
    simp only [ApiPc.inserting, if_true, add_zero] at hrest ⊢
    rw [← Multiset.coe_add, Multiset.coe_singleton, hinserted, hrest]
    abel
  · rw [hresting]
    exact h.resting
  · rw [hmarked]
    exact h.marker
  · rw [hjoined, hended]
    exact h.joined

theorem SideInv.drop {msg : Data} (h : SideInv pc q side) (ht : pc t = .test q msg) :
    SideInv (Function.update pc t .app) q
      { side with dropped := side.dropped ++ [msg], freed := side.freed ++ [msg] } := by
  have hquiet : Quiet pc q t .app := quiet_of_plain rfl (by rw [ht]; rfl)
  obtain ⟨hresting, hended, hmarked, hjoined⟩ := hquiet.same
  obtain ⟨nodes, owed, hlinked, hqueued, htotal, hle⟩ := h.entries
  obtain ⟨flight, hflight, hinserted⟩ := h.inserted
  obtain ⟨rest, hrest, hflight'⟩ := hflight.update t .app
  refine ⟨⟨nodes, owed, hlinked, ?_, htotal.pass (by rw [ht]; rfl), hle⟩,
    ⟨_, hflight', ?_⟩, ?_, ?_, ?_, ?_, h.handled⟩
  · simp only [hended]
    exact hqueued
  · rw [ht] at hrest
    simp only [ApiPc.inserting, if_true, add_zero] at hrest ⊢
    rw [← Multiset.coe_add, Multiset.coe_singleton, hinserted, hrest]
    abel
  · simp only [← Multiset.coe_add, ← add_assoc]
    rw [← h.freed]
    abel
  · rw [hresting]
    exact h.resting
  · rw [hmarked]
    exact h.marker
  · rw [hjoined, hended]
    exact h.joined

theorem SideInv.append {msg : Data} {new : Ptr} {mq : MessageQueue} (h : SideInv pc q side)
    (ht : pc t = .append q msg) (hmsg : msg ≠ websocketStopMsg)
    (htimely : (pc .main).marked q = false) (hnew : side.mq.entryList.heap new = none)
    (hmq : side.mq.append msg new = some mq) :
    SideInv (Function.update pc t (.post q)) q
      { side with mq := mq, queued := side.queued ++ [msg] } := by
  have hquiet : Quiet pc q t (.post q) := quiet_of_plain rfl (by rw [ht]; rfl)
  obtain ⟨hresting, hended, hmarked, hjoined⟩ := hquiet.same
  obtain ⟨flight, hflight, hinserted⟩ := h.inserted
  obtain ⟨rest, hrest, hflight'⟩ := hflight.update t (.post q)
  obtain ⟨msgs, hmsgs, hmarker⟩ := h.marker
  refine ⟨h.entries_append hended (if_pos rfl) (by rw [ht]; rfl) hnew hmq, ⟨_, hflight', ?_⟩,
    h.freed, ?_, ⟨msgs ++ [msg], ?_, ?_⟩, ?_, h.handled⟩
  · rw [ht] at hrest
    simp only [ApiPc.inserting, if_true, add_zero] at hrest ⊢
    rw [List.filter_append, List.filter_singleton, decide_eq_true hmsg, cond_true,
      ← Multiset.coe_add, Multiset.coe_singleton, hinserted, hrest]
    abel
  · rw [hresting]
    exact h.resting
  · rw [List.mem_append, List.mem_singleton, not_or]
    exact ⟨hmsgs, Ne.symm hmsg⟩
  · -- the marker is not there yet
    rw [htimely] at hmarker hmarked
    rw [hmarked, hmarker]
    simp
  · rw [hjoined, hended]
    exact h.joined

theorem SideInv.post (h : SideInv pc q side) (semValueMax : Nat) (hquiet : Quiet pc q t p)
    (hp : p.owed q = 0) (ht : (pc t).owed q = 1)
    (hinserting : p.inserting q = (pc t).inserting q) :
    SideInv (Function.update pc t p) q
      { side with mq := platformPostSem semValueMax side.mq } := by
  obtain ⟨hresting, hended, hmarked, hjoined⟩ := hquiet.same
  obtain ⟨flight, hflight, hinserted⟩ := h.inserted
  refine ⟨h.entries_post semValueMax hended hp ht, ⟨flight, hflight.pass hinserting, hinserted⟩,
    h.freed, ?_, ?_, ?_, h.handled⟩
  · rw [hresting]
    exact h.resting
  · rw [hmarked]
    exact h.marker
  · rw [hjoined, hended]
    exact h.joined

theorem SideInv.wait {mq : MessageQueue} (h : SideInv pc q side) (ht : pc (.worker q) = .wait q)
    (hmq : platformWaitSem side.mq = some mq) :
    SideInv (Function.update pc (.worker q) (.extract q)) q { side with mq := mq } := by
  have hquiet : Quiet pc q (.worker q) (.extract q) :=
    ⟨fun _ => by rw [ht]; rfl, fun _ => by simp [ht], nofun, nofun⟩
  obtain ⟨hresting, hended, hmarked, hjoined⟩ := hquiet.same
  obtain ⟨nodes, owed, hlinked, hqueued, htotal, hle⟩ := h.entries
  obtain ⟨flight, hflight, hinserted⟩ := h.inserted
  obtain ⟨rest, howed, htotal'⟩ := htotal.update (.worker q) (.extract q)
  unfold platformWaitSem at hmq
  split at hmq
  · exact absurd hmq (by simp)
  · obtain rfl := Option.some.inj hmq
    refine ⟨⟨nodes, _, hlinked, ?_, htotal', ?_⟩,
      ⟨flight, hflight.pass (by rw [ht]; rfl), hinserted⟩, h.freed, ?_, ?_, ?_, h.handled⟩
    · simp only [hended]
      exact hqueued
    · rw [ht] at howed
      simp only [ApiPc.owed, if_true] at howed ⊢
      omega
    · rw [hresting]
      exact h.resting
    · rw [hmarked]
      exact h.marker
    · rw [hjoined, hended]
      exact h.joined

theorem SideInv.handle {mq : MessageQueue} {msg : Data} (h : SideInv pc q side)
    (ht : pc (.worker q) = .extract q) (hmq : side.mq.extract = some (mq, msg))
    (hmsg : msg ≠ websocketStopMsg) :
    SideInv (Function.update pc (.worker q) .app) q { side with
      mq := mq
      current := some msg
      handled := side.handled ++ [msg] } := by
  obtain ⟨nodes, owed, hlinked, hqueued, htotal, hle⟩ := h.extract ht hmq (p := .app) rfl
  obtain ⟨flight, hflight, hinserted⟩ := h.inserted
  have hcurrent : side.current = none := h.resting (by rw [ht]; rfl)
  refine ⟨⟨nodes, owed, hlinked, ?_, htotal, hle⟩,
    ⟨flight, hflight.pass (by rw [ht]; rfl), hinserted⟩, ?_, ?_, ?_, ?_, ?_⟩
  · rw [Function.update_self, if_neg (by simp)]
    simp [hqueued]
  · have hfreed := h.freed
    rw [hcurrent] at hfreed
    simp only [Option.toList_none, Multiset.coe_nil, add_zero] at hfreed
    simp only [← Multiset.coe_add, Option.toList_some, hfreed]
    abel
  · rw [Function.update_self]
    simp [ApiPc.resting]
  · rw [Function.update_of_ne (by simp)]
    exact h.marker
  · -- the worker has not been waited for
    rw [Function.update_of_ne (by simp)]
    intro hjoined
    have hended := h.joined hjoined
    rw [ht] at hended
    exact absurd hended (by simp)
  · rw [List.mem_append, List.mem_singleton, not_or]
    exact ⟨h.handled, Ne.symm hmsg⟩

theorem SideInv.leave {mq : MessageQueue} (h : SideInv pc q side)
    (ht : pc (.worker q) = .extract q) (hmq : side.mq.extract = some (mq, websocketStopMsg)) :
    SideInv (Function.update pc (.worker q) .ended) q { side with mq := mq } := by
  obtain ⟨nodes, owed, hlinked, hqueued, htotal, hle⟩ := h.extract ht hmq (p := .ended) rfl
  obtain ⟨flight, hflight, hinserted⟩ := h.inserted
  refine ⟨⟨nodes, owed, hlinked, ?_, htotal, hle⟩,
    ⟨flight, hflight.pass (by rw [ht]; rfl), hinserted⟩, h.freed, ?_, ?_, ?_, h.handled⟩
  · rw [Function.update_self, if_pos rfl]
    exact hqueued
  · intro _
    exact h.resting (by rw [ht]; rfl)
  · rw [Function.update_of_ne (by simp)]
    exact h.marker
  · intro _
    exact Function.update_self _ _ _

theorem SideInv.handlerReturns {msg : Data} (h : SideInv pc q side)
    (ht : pc (.worker q) = .app) (hcurrent : side.current = some msg) :
    SideInv (Function.update pc (.worker q) (.wait q)) q
      { side with current := none, freed := side.freed ++ [msg] } := by
  obtain ⟨nodes, owed, hlinked, hqueued, htotal, hle⟩ := h.entries
  obtain ⟨flight, hflight, hinserted⟩ := h.inserted
  refine ⟨⟨nodes, owed, hlinked, ?_, htotal.pass (by rw [ht]; rfl), hle⟩,
    ⟨flight, hflight.pass (by rw [ht]; rfl), hinserted⟩, ?_, fun _ => rfl, ?_, ?_, h.handled⟩
  · rw [Function.update_self, if_neg (by simp), hqueued, if_neg (by simp [ht])]
  · have hfreed := h.freed
    rw [hcurrent] at hfreed
    simp only [← Multiset.coe_add, Option.toList_some, Option.toList_none] at hfreed ⊢
    rw [hfreed]
    exact add_zero _
  · rw [Function.update_of_ne (by simp)]
    exact h.marker
  · rw [Function.update_of_ne (by simp)]
    intro hjoined
    have hended := h.joined hjoined
    rw [ht] at hended
    exact absurd hended (by simp)

theorem SideInv.stopAppend {new : Ptr} {mq : MessageQueue} (h : SideInv pc q side)
    (ht : pc .main = .stopAppend q) (hnew : side.mq.entryList.heap new = none)
    (hmq : side.mq.append websocketStopMsg new = some mq) :
    SideInv (Function.update pc .main (.stopPost q)) q
      { side with mq := mq, queued := side.queued ++ [websocketStopMsg] } := by
  have hworker : Function.update pc .main (.stopPost q) (.worker q) = pc (.worker q) :=
    Function.update_of_ne (by simp) _ _
  obtain ⟨flight, hflight, hinserted⟩ := h.inserted
  obtain ⟨msgs, hmsgs, hmarker⟩ := h.marker
  refine ⟨h.entries_append (by rw [hworker]) (if_pos rfl) (by rw [ht]; rfl) hnew hmq,
    ⟨flight, hflight.pass (by rw [ht]; rfl), ?_⟩, h.freed, ?_, ⟨msgs, hmsgs, ?_⟩, ?_, h.handled⟩
  · rw [List.filter_append]
    simpa using hinserted
  · rw [hworker]
    exact h.resting
  · have hbefore : (ApiPc.stopAppend q).marked q = false := by cases q <;> rfl
    have hafter : (ApiPc.stopPost q).marked q = true := by cases q <;> rfl
    rw [Function.update_self, hafter, if_pos rfl, hmarker, ht, hbefore]
    simp
  · have hjoined : (ApiPc.stopPost q).joined q = false := by cases q <;> rfl
    rw [Function.update_self, hjoined]
    exact fun hf => absurd hf Bool.false_ne_true

/-- The stop has waited for the worker, which has ended. -/
theorem SideInv.join {p' : ApiPc} (h : SideInv pc q side) (ht : pc .main = p')
    (howed : p'.owed q = p.owed q) (hinserting : p'.inserting q = p.inserting q)
    (hended : pc (.worker q) = .ended) (hbefore : p'.marked q = true) (hafter : p.marked q = true) :
    SideInv (Function.update pc .main p) q side := by
  have hworker : Function.update pc .main p (.worker q) = pc (.worker q) :=
    Function.update_of_ne (by simp) _ _
  obtain ⟨nodes, owed, hlinked, hqueued, htotal, hle⟩ := h.entries
  obtain ⟨flight, hflight, hinserted⟩ := h.inserted
  obtain ⟨msgs, hmsgs, hmarker⟩ := h.marker
  refine ⟨⟨nodes, owed, hlinked, ?_, htotal.pass (by rw [ht, howed]), hle⟩,
    ⟨flight, hflight.pass (by rw [ht, hinserting]), hinserted⟩, h.freed, ?_, ⟨msgs, hmsgs, ?_⟩, ?_,
    h.handled⟩
  · rw [hworker]
    exact hqueued
  · rw [hworker]
    exact h.resting
  · rw [Function.update_self, hafter, hmarker, ht, hbefore]
  · rw [hworker]
    exact fun _ => hended

/-! ## Whole runs -/

variable {s s' : ApiState T}

/-- What holds between the steps. -/
structure ApiInv (s : ApiState T) : Prop where
  sides : ∀ q, SideInv s.pc q (s.sides q)
  messages : ∀ t q msg, s.pc t = .test q msg ∨ s.pc t = .append q msg → msg ≠ websocketStopMsg

/-- A thread goes on, and changes something of one queue. -/
theorem sideInv_move (hself : SideInv (Function.update s.pc t p) q side)
    (hother : ∀ q', q' ≠ q → SideInv (Function.update s.pc t p) q' (s.sides q')) (q' : Side) :
    SideInv (s.move t p q side).pc q' ((s.move t p q side).sides q') := by
  by_cases hq : q' = q
  · subst hq
    simp only [ApiState.move, ApiState.goto, Function.update_self]
    exact hself
  · simp only [ApiState.move, ApiState.goto, Function.update_of_ne hq]
    exact hother q' hq

/-- A thread does not come to hold the stop marker. -/
theorem messages_update
    (h : ∀ t q msg, pc t = .test q msg ∨ pc t = .append q msg → msg ≠ websocketStopMsg)
    (hp : ∀ q msg, p = .test q msg ∨ p = .append q msg → msg ≠ websocketStopMsg)
    (t' : ApiThread T) (q : Side) (msg : Data)
    (ht' : Function.update pc t p t' = .test q msg ∨ Function.update pc t p t' = .append q msg) :
    msg ≠ websocketStopMsg := by
  by_cases heq : t' = t
  · subst heq
    rw [Function.update_self] at ht'
    exact hp q msg ht'
  · rw [Function.update_of_ne heq] at ht'
    exact h t' q msg ht'

/-- The places of one queue mean nothing to the other. -/
theorem SideInv.other (h : SideInv s.pc q (s.sides q)) (hquiet : Quiet s.pc q t p)
    (howed : p.owed q = 0 ∧ (s.pc t).owed q = 0)
    (hinserting : p.inserting q = 0 ∧ (s.pc t).inserting q = 0) :
    SideInv (Function.update s.pc t p) q (s.sides q) :=
  h.pass hquiet (howed.1.trans howed.2.symm) (hinserting.1.trans hinserting.2.symm)

theorem ApiStep.inv {semValueMax : Nat} {act : ApiAct T} (hstep : ApiStep semValueMax s act s')
    (htimely : Timely s act) (hinv : ApiInv s) : ApiInv s' := by
  obtain ⟨hsides, hmessages⟩ := hinv
  cases hstep with
  | callInsert t q msg h hmsg =>
      refine ⟨sideInv_move ((hsides q).callInsert h msg) fun q' hq => ?_,
        messages_update hmessages fun _ _ hp => ?_⟩
      · exact (hsides q').other (quiet_of_plain rfl (by rw [h]; rfl)) ⟨rfl, by rw [h]; rfl⟩
          ⟨if_neg (Ne.symm hq), by rw [h]; rfl⟩
      · rcases hp with hp | hp
        · rw [← (ApiPc.test.inj hp).2]
          exact hmsg
        · exact absurd hp (by simp)
  | drop t q msg h hrunning =>
      refine ⟨sideInv_move ((hsides q).drop h) fun q' hq => ?_,
        messages_update hmessages (by simp)⟩
      exact (hsides q').other (quiet_of_plain rfl (by rw [h]; rfl)) ⟨rfl, by rw [h]; rfl⟩
        ⟨rfl, by rw [h]; exact if_neg (Ne.symm hq)⟩
  | accept t q msg h hrunning =>
      refine ⟨fun q' => (hsides q').pass (quiet_of_plain rfl (by rw [h]; rfl)) (by rw [h]; rfl)
        (by rw [h]; rfl), messages_update hmessages fun _ _ hp => ?_⟩
      rcases hp with hp | hp
      · exact absurd hp (by simp)
      · rw [← (ApiPc.append.inj hp).2]
        exact hmessages t q msg (Or.inl h)
  | append t q msg new mq h hnew hmq =>
      refine ⟨sideInv_move ((hsides q).append h (hmessages t q msg (Or.inr h)) htimely hnew hmq)
        fun q' hq => ?_, messages_update hmessages (by simp)⟩
      exact (hsides q').other (quiet_of_plain rfl (by rw [h]; rfl))
        ⟨if_neg (Ne.symm hq), by rw [h]; rfl⟩ ⟨rfl, by rw [h]; exact if_neg (Ne.symm hq)⟩
  | post t q h =>
      refine ⟨sideInv_move ((hsides q).post semValueMax (quiet_of_plain rfl (by rw [h]; rfl)) rfl
        (by rw [h]; exact if_pos rfl) (by rw [h]; rfl)) fun q' hq => ?_,
        messages_update hmessages (by simp)⟩
      exact (hsides q').other (quiet_of_plain rfl (by rw [h]; rfl))
        ⟨rfl, by rw [h]; exact if_neg (Ne.symm hq)⟩ ⟨rfl, by rw [h]; rfl⟩
  | wait q mq h hmq =>
      refine ⟨sideInv_move ((hsides q).wait h hmq) fun q' hq => ?_,
        messages_update hmessages (by simp)⟩
      exact (hsides q').other (quiet_of_other_worker hq)
        ⟨if_neg (Ne.symm hq), by rw [h]; rfl⟩ ⟨rfl, by rw [h]; rfl⟩
  | handle q mq msg h hmq hmsg =>
      refine ⟨sideInv_move ((hsides q).handle h hmq hmsg) fun q' hq => ?_,
        messages_update hmessages (by simp)⟩
      exact (hsides q').other (quiet_of_other_worker hq)
        ⟨rfl, by rw [h]; exact if_neg (Ne.symm hq)⟩ ⟨rfl, by rw [h]; rfl⟩
  | leave q mq h hmq =>
      refine ⟨sideInv_move ((hsides q).leave h hmq) fun q' hq => ?_,
        messages_update hmessages (by simp)⟩
      exact (hsides q').other (quiet_of_other_worker hq)
        ⟨rfl, by rw [h]; exact if_neg (Ne.symm hq)⟩ ⟨rfl, by rw [h]; rfl⟩
  | handlerReturns q msg h hcurrent =>
      refine ⟨sideInv_move ((hsides q).handlerReturns h hcurrent) fun q' hq => ?_,
        messages_update hmessages (by simp)⟩
      exact (hsides q').other (quiet_of_other_worker hq)
        ⟨rfl, by rw [h]; rfl⟩ ⟨rfl, by rw [h]; rfl⟩
  | callStop h =>
      exact ⟨fun q => (hsides q).other (quiet_of_main (by rw [h]; rfl) (by rw [h]; rfl))
        ⟨rfl, by rw [h]; rfl⟩ ⟨rfl, by rw [h]; rfl⟩, messages_update hmessages (by simp)⟩
  | stopReturn h hrunning =>
      exact ⟨fun q => (hsides q).other (quiet_of_main (by rw [h]; rfl) (by rw [h]; rfl))
        ⟨rfl, by rw [h]; rfl⟩ ⟨rfl, by rw [h]; rfl⟩, messages_update hmessages (by simp)⟩
  | stopBegin h hrunning =>
      exact ⟨fun q => (hsides q).other (quiet_of_main (by rw [h]; cases q <;> rfl)
        (by rw [h]; cases q <;> rfl)) ⟨rfl, by rw [h]; rfl⟩ ⟨rfl, by rw [h]; rfl⟩,
        messages_update hmessages (by simp)⟩
  | stopAppend q new mq h hnew hmq =>
      refine ⟨sideInv_move ((hsides q).stopAppend h hnew hmq) fun q' hq => ?_,
        messages_update hmessages (by simp)⟩
      exact (hsides q').other (quiet_of_main (by rw [h]; cases q <;> cases q' <;> trivial)
        (by rw [h]; cases q <;> cases q' <;> trivial)) ⟨if_neg (Ne.symm hq), by rw [h]; rfl⟩
        ⟨rfl, by rw [h]; rfl⟩
  | stopPost q h =>
      have hquiet : ∀ q', Quiet s.pc q' .main (.stopJoin q) := fun q' =>
        quiet_of_main (by rw [h]; cases q <;> cases q' <;> rfl) (by rw [h]; cases q <;> cases q' <;> rfl)
      refine ⟨sideInv_move ((hsides q).post semValueMax (hquiet q) rfl (by rw [h]; exact if_pos rfl)
        (by rw [h]; rfl)) fun q' hq => ?_, messages_update hmessages (by simp)⟩
      exact (hsides q').other (hquiet q') ⟨rfl, by rw [h]; exact if_neg (Ne.symm hq)⟩
        ⟨rfl, by rw [h]; rfl⟩
  | joinInput h hended =>
      refine ⟨fun q => ?_, messages_update hmessages (by simp)⟩
      cases q with
      | input => exact (hsides .input).join h rfl rfl hended rfl rfl
      | output =>
          exact (hsides .output).other (quiet_of_main (by rw [h]; rfl) (by rw [h]; rfl))
            ⟨rfl, by rw [h]; rfl⟩ ⟨rfl, by rw [h]; rfl⟩
  | joinOutput h hended =>
      refine ⟨fun q => ?_, messages_update hmessages (by simp)⟩
      cases q with
      | input =>
          exact (hsides .input).other (quiet_of_main (by rw [h]; rfl) (by rw [h]; rfl))
            ⟨rfl, by rw [h]; rfl⟩ ⟨rfl, by rw [h]; rfl⟩
      | output => exact (hsides .output).join h rfl rfl hended rfl rfl
  | stopClear h =>
      exact ⟨fun q => (hsides q).other (quiet_of_main (by rw [h]; rfl) (by rw [h]; rfl))
        ⟨rfl, by rw [h]; rfl⟩ ⟨rfl, by rw [h]; rfl⟩, messages_update hmessages (by simp)⟩

omit [DecidableEq T] in
theorem apiInv_init (heap : Side → ListHeap) : ApiInv (initWebsocketApi T heap) := by
  refine ⟨fun q => ⟨⟨[], 0, ⟨⟨none, ⟨rfl, rfl⟩, fun h => absurd rfl h⟩, List.nodup_nil⟩, ?_, ?_,
    Nat.le_refl 0⟩, ⟨0, ?_, rfl⟩, rfl, fun _ => rfl, ⟨[], by simp, rfl⟩, nofun, by simp [initWebsocketApi]⟩, ?_⟩
  · simp [initWebsocketApi]
  · exact total_zero fun t => by cases t <;> rfl
  · exact total_zero fun t => by cases t <;> rfl
  · intro t q msg h
    cases t <;> simp [initWebsocketApi] at h

theorem ApiReachable.inv {semValueMax : Nat} {heap : Side → ListHeap}
    (h : ApiReachable semValueMax heap Timely s) : ApiInv s := by
  induction h with
  | init => exact apiInv_init heap
  | step _ hstep hok ih => exact hstep.inv hok ih

/-! ## The contract -/

theorem filter_stop {msgs : List Data} (h : websocketStopMsg ∉ msgs) :
    msgs.filter (· ≠ websocketStopMsg) = msgs := by
  rw [List.filter_eq_self]
  intro msg hmsg
  exact decide_eq_true fun heq => h (heq ▸ hmsg)

omit [DecidableEq T] in
/-- No more was handled than queued. -/
theorem SideInv.handled_le (h : SideInv pc q side) :
    (side.handled : Multiset Data) ≤ side.queued.filter (· ≠ websocketStopMsg) := by
  obtain ⟨nodes, owed, -, hqueued, -⟩ := h.entries
  rw [hqueued, List.filter_append, filter_stop h.handled, ← Multiset.coe_add]
  exact Multiset.le_add_right _ _

omit [DecidableEq T] in
theorem SideInv.once (h : SideInv pc q side) :
    (side.handled + side.dropped : Multiset Data) ≤ side.inserted ∧
      (side.freed : Multiset Data) ≤ side.inserted := by
  obtain ⟨flight, -, hinserted⟩ := h.inserted
  have hle : (side.handled + side.dropped : Multiset Data) ≤ side.inserted := by
    rw [hinserted, add_comm (side.handled : Multiset Data)]
    exact (add_le_add_right h.handled_le _).trans (Multiset.le_add_right _ _)
  have hfreed := h.freed
  exact ⟨hle, (hfreed ▸ Multiset.le_add_right _ _).trans hle⟩

omit [DecidableEq T] in
/-- The worker has ended at the marker. -/
theorem SideInv.at_marker (h : SideInv pc q side) (hended : pc (.worker q) = .ended) :
    ∃ nodes, Linked side.mq.entryList nodes ∧
      side.queued = side.handled ++ websocketStopMsg :: nodes.map Prod.snd := by
  obtain ⟨nodes, owed, hlinked, hqueued, -⟩ := h.entries
  rw [if_pos hended] at hqueued
  exact ⟨nodes, hlinked, hqueued⟩

omit [DecidableEq T] in
theorem SideInv.ahead (h : SideInv pc q side) (hended : pc (.worker q) = .ended) :
    side.handled = side.queued.takeWhile (· ≠ websocketStopMsg) := by
  obtain ⟨nodes, -, hqueued⟩ := h.at_marker hended
  rw [hqueued, List.takeWhile_append_of_pos, List.takeWhile_cons_of_neg (by simp), List.append_nil]
  intro msg hmsg
  exact decide_eq_true fun heq => h.handled (heq ▸ hmsg)

omit [DecidableEq T] in
/-- Nothing is behind the marker. -/
theorem SideInv.rest_nil (h : SideInv pc q side) (hended : pc (.worker q) = .ended)
    (hmarked : (pc .main).marked q = true) :
    Linked side.mq.entryList [] ∧ side.queued = side.handled ++ [websocketStopMsg] := by
  obtain ⟨nodes, hlinked, hqueued⟩ := h.at_marker hended
  obtain ⟨msgs, hmsgs, hmarker⟩ := h.marker
  rw [if_pos hmarked, hqueued] at hmarker
  rcases List.eq_nil_or_concat nodes with rfl | ⟨front, node, rfl⟩
  · exact ⟨hlinked, hqueued⟩
  · -- otherwise the marker would be one of the messages before the end
    have hsplit : (side.handled ++ websocketStopMsg :: front.map Prod.snd) ++ [node.2] =
        msgs ++ [websocketStopMsg] := by
      rw [← hmarker]
      simp
    have hmem := (List.append_inj' hsplit rfl).1
    exact absurd (hmem ▸ by simp) hmsgs

/-- **Stopping the API.** As long as no insert appends its message behind the stop marker,
stopping does what it has to in every state, for any interleaving of any threads. -/
theorem stop_contract_of_timely (semValueMax : Nat) (heap : Side → ListHeap) (s : ApiState T)
    (h : ApiReachable semValueMax heap Timely s) : StopContract s := by
  have hsides := h.inv.sides
  have hstopped : s.pc .main = .stopped → ∀ q, s.pc (.worker q) = .ended ∧
      (s.pc .main).marked q = true := fun hmain q =>
    ⟨(hsides q).joined (by rw [hmain]; cases q <;> rfl), by rw [hmain]; cases q <;> rfl⟩
  refine ⟨fun q => (hsides q).once, fun q => (hsides q).ahead, fun hmain q => ?_,
    fun hmain q hidle => ?_⟩
  · obtain ⟨hended, hmarked⟩ := hstopped hmain q
    obtain ⟨⟨last, hseg, -⟩, -⟩ := ((hsides q).rest_nil hended hmarked).1
    exact hseg.1
  · obtain ⟨hended, hmarked⟩ := hstopped hmain q
    have hqueued := ((hsides q).rest_nil hended hmarked).2
    obtain ⟨flight, hflight, hinserted⟩ := (hsides q).inserted
    have hall : ((s.sides q).inserted : Multiset Data) =
        (s.sides q).handled + (s.sides q).dropped := by
      rw [hinserted, hflight.eq_zero hidle, hqueued, List.filter_append,
        filter_stop (hsides q).handled, add_zero, add_comm]
      simp
    refine ⟨hall, ?_⟩
    have hfreed := (hsides q).freed
    rw [(hsides q).resting (by rw [hended]; rfl)] at hfreed
    rw [hall, ← hfreed]
    exact add_zero _

/-- The memory of the queues at the start. -/
def noHeap : Side → ListHeap := fun _ _ => none

/-- A thread has inserted a frame, the API is stopped, and a second frame is dropped. -/
theorem insert_then_stop : ∃ s : ApiState Unit, ApiReachable 2 noHeap Timely s ∧
    s.pc .main = .stopped ∧ (s.sides .output).handled = [some 7] ∧
    (s.sides .output).dropped = [some 8] ∧ ∀ t, (s.pc t).inserting .output = 0 := by
  have h₀ := @ApiReachable.init Unit _ 2 noHeap Timely
  have h₁ := h₀.step (.callInsert (.app ()) .output (some 7) rfl (by decide)) trivial
  have h₂ := h₁.step (.accept (.app ()) .output (some 7) rfl rfl) trivial
  have h₃ := h₂.step (.append (.app ()) .output (some 7) 1 _ rfl rfl rfl) rfl
  have h₄ := h₃.step (.post (.app ()) .output rfl) trivial
  have h₅ := h₄.step (.callStop rfl) trivial
  have h₆ := h₅.step (.stopBegin rfl rfl) trivial
  have h₇ := h₆.step (.stopAppend .input 1 _ rfl rfl rfl) trivial
  have h₈ := h₇.step (.stopPost .input rfl) trivial
  have h₉ := h₈.step (.wait .input _ rfl rfl) trivial
  have h₁₀ := h₉.step (.leave .input _ rfl rfl) trivial
  have h₁₁ := h₁₀.step (.joinInput rfl rfl) trivial
  have h₁₂ := h₁₁.step (.stopAppend .output 2 _ rfl rfl rfl) trivial
  have h₁₃ := h₁₂.step (.stopPost .output rfl) trivial
  have h₁₄ := h₁₃.step (.wait .output _ rfl rfl) trivial
  have h₁₅ := h₁₄.step (.handle .output _ (some 7) rfl rfl (by decide)) trivial
  have h₁₆ := h₁₅.step (.handlerReturns .output (some 7) rfl rfl) trivial
  have h₁₇ := h₁₆.step (.wait .output _ rfl rfl) trivial
  have h₁₈ := h₁₇.step (.leave .output _ rfl rfl) trivial
  have h₁₉ := h₁₈.step (.joinOutput rfl rfl) trivial
  have h₂₀ := h₁₉.step (.stopClear rfl) trivial
  have h₂₁ := h₂₀.step (.callInsert (.app ()) .output (some 8) rfl (by decide)) trivial
  have h₂₂ := h₂₁.step (.drop (.app ()) .output (some 8) rfl rfl) trivial
  refine ⟨_, h₂₂, rfl, rfl, rfl, fun t => ?_⟩
  rcases t with t | q | -
  · rfl
  · cases q <;> rfl
  · rfl

theorem stop_contract_of_timely_run : ∃ s : ApiState Unit, ApiReachable 2 noHeap Timely s ∧
    s.pc .main = .stopped ∧ (s.sides .output).handled = [some 7] ∧ StopContract s := by
  obtain ⟨s, h, hmain, hhandled, -⟩ := insert_then_stop
  exact ⟨s, h, hmain, hhandled, stop_contract_of_timely 2 noHeap s h⟩

/-- **The window.** A thread has passed the test when the API is stopped. Its message goes
into the queue behind the stop marker, and stays there. -/
theorem late_insert_stays : ∃ s : ApiState Unit,
    ApiReachable 2 noHeap (fun _ _ => True) s ∧ ¬ StopContract s := by
  have h₀ := @ApiReachable.init Unit _ 2 noHeap (fun _ _ => True)
  have h₁ := h₀.step (.callInsert (.app ()) .output (some 7) rfl (by decide)) trivial
  have h₂ := h₁.step (.accept (.app ()) .output (some 7) rfl rfl) trivial
  have h₃ := h₂.step (.callStop rfl) trivial
  have h₄ := h₃.step (.stopBegin rfl rfl) trivial
  have h₅ := h₄.step (.stopAppend .input 1 _ rfl rfl rfl) trivial
  have h₆ := h₅.step (.stopPost .input rfl) trivial
  have h₇ := h₆.step (.wait .input _ rfl rfl) trivial
  have h₈ := h₇.step (.leave .input _ rfl rfl) trivial
  have h₉ := h₈.step (.joinInput rfl rfl) trivial
  have h₁₀ := h₉.step (.stopAppend .output 1 _ rfl rfl rfl) trivial
  have h₁₁ := h₁₀.step (.stopPost .output rfl) trivial
  have h₁₂ := h₁₁.step (.wait .output _ rfl rfl) trivial
  have h₁₃ := h₁₂.step (.leave .output _ rfl rfl) trivial
  have h₁₄ := h₁₃.step (.joinOutput rfl rfl) trivial
  have h₁₅ := h₁₄.step (.stopClear rfl) trivial
  have h₁₆ := h₁₅.step (.append (.app ()) .output (some 7) 2 _ rfl rfl rfl) trivial
  refine ⟨_, h₁₆, fun hcontract => ?_⟩
  have hempty : some (2 : Ptr) = none := hcontract.empty rfl .output
  exact absurd hempty (Option.some_ne_none 2)

end CWebUI.Websocket
