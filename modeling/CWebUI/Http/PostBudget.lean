import CWebUI.Basic.Threads
import CWebUI.Http.KeepAlive
import CWebUI.Http.PostBody

set_option autoImplicit false

/-! # The memory budget of buffered POST bodies

`postBufferReserve` and `postBufferRelease` (`system_memory.c`) keep one number for all
connections: how much of `max_post_memory_total` is in use. What a request has taken from it is
noted in its header record and is given back when the body has been parsed, when the record is
reset for the next request, or when the connection is closed. All of this runs in the thread
that serves the connections; the limit may be changed at any time.
-/

namespace CWebUI.Http

open Threads

/-! ## The budget -/

/-- The budget: `post_buffer_allocated`, and the limit as it is configured. -/
structure PostBudget where
  postBufferAllocated : UInt64 := 0
  maxPostMemoryTotal : Int32
  deriving DecidableEq, Repr

/-- The limit as an unsigned number. -/
def PostBudget.limit (b : PostBudget) : UInt64 := b.maxPostMemoryTotal.toInt64.toUInt64

/-- `postBufferReserve`. Without a limit nothing is counted. -/
def postBufferReserve (b : PostBudget) (size : UInt64) : PostBudget × Bool :=
  if b.limit = 0 then (b, true)
  else if b.postBufferAllocated + size ≤ b.limit then
    ({ b with postBufferAllocated := b.postBufferAllocated + size }, true)
  else (b, false)

/-- `postBufferRelease` -/
def postBufferRelease (b : PostBudget) (size : UInt64) : PostBudget :=
  if size = 0 then b
  else if size ≤ b.postBufferAllocated then
    { b with postBufferAllocated := b.postBufferAllocated - size }
  else { b with postBufferAllocated := 0 }

/-! ## The connections -/

/-- The budget and the header records of the connections. `made` and `released` are the sizes
that each connection has reserved and given back so far. -/
structure BudgetState (C : Type) where
  budget : PostBudget
  header : C → Option HttpRequestHeader
  made : C → List UInt64
  released : C → List UInt64

/-- The server at its start. -/
def BudgetState.init (C : Type) (maxPostMemoryTotal : Int32) : BudgetState C where
  budget := { maxPostMemoryTotal }
  header _ := none
  made _ := []
  released _ := []

/-- What the record of a connection holds of the budget. -/
def reservedBy : Option HttpRequestHeader → Nat
  | some header => header.postBufferReserved.toNat
  | none => 0

/-- The memory of the post buffer of a connection. -/
def bufferSize : Option HttpRequestHeader → Nat
  | some header => (header.postBuffer.map List.length).getD 0
  | none => 0

/-- A size in a list of reservations. Nothing is reserved for a size of 0. -/
def entry (size : UInt64) : List UInt64 := if size = 0 then [] else [size]

/-- The end of `parsePostData`: the record without the body, its boundary and what it had
reserved. -/
def releasePostData (header : HttpRequestHeader) : HttpRequestHeader :=
  { header with
    postBuffer := none
    postBufferReserved := 0
    contentlenght := 0
    postBufferPos := 0
    boundary := none }

/-- What happens next. -/
inductive BudgetAct (C : Type) where
  | connect (c : C)
  | receive (c : C)
  | payload (c : C)
  | parsePostData (c : C)
  | reset (c : C)
  | close (c : C)
  | setConfig
  deriving DecidableEq, Repr

variable {C : Type} [DecidableEq C]

/-- The state after a connection has given back what its record holds. -/
def BudgetState.release (s : BudgetState C) (c : C) (header : HttpRequestHeader)
    (record : Option HttpRequestHeader) : BudgetState C where
  budget := postBufferRelease s.budget header.postBufferReserved
  header := Function.update s.header c record
  made := s.made
  released := Function.update s.released c (s.released c ++ entry header.postBufferReserved)

/-- A step. -/
inductive BudgetStep (srv : PostServer) (s : BudgetState C) :
    BudgetAct C → BudgetState C → Prop where
  | connect (c : C) (h : s.header c = none) :
      BudgetStep srv s (.connect c)
        { s with header := Function.update s.header c (some webserverMallocHttpRequestHeader) }
  /-- A header line is parsed, or a piece of the body is copied into the buffer. -/
  | receive (c : C) (header header' : HttpRequestHeader) (h : s.header c = some header)
      (hbuffer : header'.postBuffer.map List.length = header.postBuffer.map List.length)
      (hreserved : header'.postBufferReserved = header.postBufferReserved) :
      BudgetStep srv s (.receive c)
        { s with header := Function.update s.header c (some header') }
  /-- The first piece of a body: `WebserverMalloc` ends the process if there is no memory. -/
  | payload (c : C) (header header' : HttpRequestHeader) (used : Nat)
      (h : s.header c = some header) (hnone : header.postBuffer = none)
      (halloc : allocPostBuffer { srv with
        postBufferReserve := fun size => (postBufferReserve s.budget size).2 } header = some header')
      (hused : Total s.header bufferSize used)
      (hmalloc : used + (header.contentlenght + 1).toNat < 2 ^ 64) :
      BudgetStep srv s (.payload c)
        { s with
          budget := (postBufferReserve s.budget (header.contentlenght + 1)).1
          header := Function.update s.header c (some header')
          made := Function.update s.made c (s.made c ++ entry (header.contentlenght + 1)) }
  /-- The budget is exhausted, and the request is answered with 503. -/
  | refuse (c : C) (header : HttpRequestHeader) (h : s.header c = some header)
      (hnone : header.postBuffer = none)
      (halloc : allocPostBuffer { srv with
        postBufferReserve := fun size => (postBufferReserve s.budget size).2 } header = none) :
      BudgetStep srv s (.payload c)
        { s with budget := (postBufferReserve s.budget (header.contentlenght + 1)).1 }
  | parsePostData (c : C) (header : HttpRequestHeader) (h : s.header c = some header)
      (hbuffer : header.postBuffer ≠ none) (hboundary : header.boundary ≠ none) :
      BudgetStep srv s (.parsePostData c) (s.release c header (some (releasePostData header)))
  | reset (c : C) (header : HttpRequestHeader) (h : s.header c = some header) :
      BudgetStep srv s (.reset c)
        (s.release c header (some (webserverResetHttpRequestHeader header)))
  | close (c : C) (header : HttpRequestHeader) (h : s.header c = some header) :
      BudgetStep srv s (.close c) (s.release c header none)
  | setConfig (value : Int32) :
      BudgetStep srv s .setConfig { s with budget.maxPostMemoryTotal := value }

/-- The states that steps lead to which all meet a condition. -/
inductive BudgetReachable (srv : PostServer) (maxPostMemoryTotal : Int32)
    (ok : BudgetState C → BudgetAct C → Prop) : BudgetState C → Prop where
  | init : BudgetReachable srv maxPostMemoryTotal ok (.init C maxPostMemoryTotal)
  | step {s s' : BudgetState C} {act : BudgetAct C}
      (h : BudgetReachable srv maxPostMemoryTotal ok s) (hstep : BudgetStep srv s act s')
      (hok : ok s act) : BudgetReachable srv maxPostMemoryTotal ok s'

/-! ## The accounts -/

/-- **The accounts are right**: what is counted is what the header records hold together, every
reservation of a connection was given back once or is what its record still holds, and a
reservation that is made next under a limit stays within it. -/
structure BudgetExact (srv : PostServer) (s : BudgetState C) : Prop where
  allocated : Total s.header reservedBy s.budget.postBufferAllocated.toNat
  once : ∀ c, s.made c = s.released c ++
    (s.header c).elim [] fun header => entry header.postBufferReserved
  limited : ∀ c s', BudgetStep srv s (.payload c) s' → s'.made ≠ s.made → s.budget.limit ≠ 0 →
    s'.budget.postBufferAllocated ≤ s'.budget.limit

/-- No body is buffered while the budget is switched off. -/
def Counted (s : BudgetState C) : BudgetAct C → Prop
  | .payload _ => s.budget.limit ≠ 0
  | _ => True

/-! ## One step -/

/-- What holds between the steps. -/
structure BudgetInv (s : BudgetState C) : Prop where
  allocated : Total s.header reservedBy s.budget.postBufferAllocated.toNat
  buffers : ∀ c, bufferSize (s.header c) = reservedBy (s.header c)
  once : ∀ c, s.made c = s.released c ++
    (s.header c).elim [] fun header => entry header.postBufferReserved

/-- A successful reservation is counted, and is within the limit. -/
theorem postBufferReserve_counted {b : PostBudget} {size : UInt64} (hlimit : b.limit ≠ 0)
    (hok : (postBufferReserve b size).2 = true) :
    postBufferReserve b size =
        ({ b with postBufferAllocated := b.postBufferAllocated + size }, true) ∧
      b.postBufferAllocated + size ≤ b.limit := by
  unfold postBufferReserve at hok ⊢
  rw [if_neg hlimit] at hok ⊢
  by_cases hfits : b.postBufferAllocated + size ≤ b.limit
  · rw [if_pos hfits]
    exact ⟨rfl, hfits⟩
  · rw [if_neg hfits] at hok
    exact absurd hok (by simp)

/-- What the budget contains can be given back. -/
theorem postBufferRelease_toNat {b : PostBudget} {size : UInt64} {rest : Nat}
    (h : b.postBufferAllocated.toNat = rest + size.toNat) :
    (postBufferRelease b size).postBufferAllocated.toNat = rest := by
  unfold postBufferRelease
  by_cases hzero : size = 0
  · rw [if_pos hzero, h, hzero]
    exact Nat.add_zero rest
  · have hle : size ≤ b.postBufferAllocated := by
      rw [UInt64.le_iff_toNat_le]
      omega
    rw [if_neg hzero, if_pos hle]
    simp only [UInt64.toNat_sub_of_le _ _ hle]
    omega

/-- What a new post buffer looks like. -/
theorem allocPostBuffer_new {srv : PostServer} {header header' : HttpRequestHeader}
    (hnone : header.postBuffer = none) (h : allocPostBuffer srv header = some header') :
    srv.postBufferReserve (header.contentlenght + 1) = true ∧
      header'.postBufferReserved = header.contentlenght + 1 ∧
      bufferSize (some header') = (header.contentlenght + 1).toNat := by
  unfold allocPostBuffer at h
  rw [hnone] at h
  simp only at h
  split at h
  · next hok =>
      obtain rfl := Option.some.inj h
      refine ⟨hok, rfl, ?_⟩
      simp [bufferSize]
  · exact absurd h (by simp)

omit [DecidableEq C] in
/-- Nothing is recorded in a record that has no buffer. -/
theorem BudgetInv.reserved_zero {s : BudgetState C} (hinv : BudgetInv s) {c : C}
    {header : HttpRequestHeader} (h : s.header c = some header) (hnone : header.postBuffer = none) :
    header.postBufferReserved = 0 := by
  have hsize := hinv.buffers c
  rw [h] at hsize
  simp only [bufferSize, hnone, reservedBy] at hsize
  exact UInt64.toNat_inj.mp hsize.symm

/-- The record of a connection is replaced by one that holds as much. -/
theorem BudgetInv.replace {s : BudgetState C} (hinv : BudgetInv s) {c : C}
    {record : Option HttpRequestHeader} {b : PostBudget}
    (hb : b.postBufferAllocated = s.budget.postBufferAllocated)
    (hreserved : reservedBy record = reservedBy (s.header c))
    (hbuffer : bufferSize record = bufferSize (s.header c))
    (honce : (record.elim [] fun header => entry header.postBufferReserved) =
      (s.header c).elim [] fun header => entry header.postBufferReserved) :
    BudgetInv { s with budget := b, header := Function.update s.header c record } := by
  refine ⟨?_, fun c' => ?_, fun c' => ?_⟩
  · rw [hb]
    exact hinv.allocated.pass hreserved
  · by_cases hc : c' = c
    · subst hc
      simp only [Function.update_self]
      rw [hreserved, hbuffer]
      exact hinv.buffers c'
    · simp only [Function.update_of_ne hc]
      exact hinv.buffers c'
  · by_cases hc : c' = c
    · subst hc
      simp only [Function.update_self]
      rw [honce]
      exact hinv.once c'
    · simp only [Function.update_of_ne hc]
      exact hinv.once c'

/-- A connection gives back what its record holds; the new record holds nothing. -/
theorem BudgetInv.release {s : BudgetState C} (hinv : BudgetInv s) {c : C}
    {header : HttpRequestHeader} {record : Option HttpRequestHeader}
    (h : s.header c = some header) (hreserved : reservedBy record = 0)
    (hbuffer : bufferSize record = 0) : BudgetInv (s.release c header record) := by
  obtain ⟨rest, hrest, htotal⟩ := hinv.allocated.update c record
  rw [h] at hrest
  have hentry : (record.elim [] fun header => entry header.postBufferReserved) = [] := by
    cases record with
    | none => rfl
    | some new =>
        have hzero : new.postBufferReserved.toNat = (0 : UInt64).toNat := hreserved
        exact if_pos (UInt64.toNat_inj.mp hzero)
  refine ⟨?_, fun c' => ?_, fun c' => ?_⟩
  · simp only [BudgetState.release]
    rw [postBufferRelease_toNat hrest]
    rw [hreserved] at htotal
    exact htotal
  · by_cases hc : c' = c
    · subst hc
      simp only [BudgetState.release, Function.update_self]
      rw [hreserved, hbuffer]
    · simp only [BudgetState.release, Function.update_of_ne hc]
      exact hinv.buffers c'
  · by_cases hc : c' = c
    · subst hc
      have honce := hinv.once c'
      rw [h] at honce
      simp only [BudgetState.release, Function.update_self]
      rw [honce, hentry, List.append_nil]
      rfl
    · simp only [BudgetState.release, Function.update_of_ne hc]
      exact hinv.once c'

/-- A reservation is made under a limit, for memory that is there. -/
theorem BudgetInv.payload {srv : PostServer} {s : BudgetState C} (hinv : BudgetInv s) {c : C}
    {header header' : HttpRequestHeader} {used : Nat} (h : s.header c = some header)
    (hnone : header.postBuffer = none) (hlimit : s.budget.limit ≠ 0)
    (halloc : allocPostBuffer { srv with
      postBufferReserve := fun size => (postBufferReserve s.budget size).2 } header = some header')
    (hused : Total s.header bufferSize used)
    (hmalloc : used + (header.contentlenght + 1).toNat < 2 ^ 64) :
    BudgetInv { s with
      budget := (postBufferReserve s.budget (header.contentlenght + 1)).1
      header := Function.update s.header c (some header')
      made := Function.update s.made c (s.made c ++ entry (header.contentlenght + 1)) } := by
  obtain ⟨hok, hreserved, hsize⟩ := allocPostBuffer_new hnone halloc
  have hbefore : header.postBufferReserved = 0 := hinv.reserved_zero h hnone
  obtain ⟨rest, hrest, htotal⟩ := hinv.allocated.update c (some header')
  rw [h] at hrest
  simp only [reservedBy, hbefore, hreserved, UInt64.toNat_zero, Nat.add_zero] at hrest htotal
  -- what is counted is what the buffers take, so the sum does not wrap around
  have hsame : Total s.header bufferSize s.budget.postBufferAllocated.toNat := by
    obtain ⟨S, hout, hsum⟩ := hinv.allocated
    refine ⟨S, fun c' hc => ?_, ?_⟩
    · rw [hinv.buffers c']
      exact hout c' hc
    · rw [← hsum]
      exact Finset.sum_congr rfl fun c' _ => hinv.buffers c'
  have hsum : s.budget.postBufferAllocated.toNat + (header.contentlenght + 1).toNat < 2 ^ 64 := by
    rw [hsame.unique hused]
    exact hmalloc
  rw [(postBufferReserve_counted hlimit hok).1]
  refine ⟨?_, fun c' => ?_, fun c' => ?_⟩
  · have hadd : (s.budget.postBufferAllocated + (header.contentlenght + 1)).toNat =
        s.budget.postBufferAllocated.toNat + (header.contentlenght + 1).toNat := by
      rw [UInt64.toNat_add, Nat.mod_eq_of_lt hsum]
    simp only [hadd, hrest]
    exact htotal
  · by_cases hc : c' = c
    · subst hc
      simp only [Function.update_self]
      rw [hsize, reservedBy, hreserved]
    · simp only [Function.update_of_ne hc]
      exact hinv.buffers c'
  · by_cases hc : c' = c
    · subst hc
      have honce := hinv.once c'
      rw [h] at honce
      simp only [Option.elim_some, hbefore, entry, if_true, List.append_nil] at honce
      simp only [Function.update_self, Option.elim_some]
      rw [honce, hreserved]
    · simp only [Function.update_of_ne hc]
      exact hinv.once c'

theorem BudgetStep.inv {srv : PostServer} {s s' : BudgetState C} {act : BudgetAct C}
    (hstep : BudgetStep srv s act s') (hcounted : Counted s act) (hinv : BudgetInv s) :
    BudgetInv s' := by
  cases hstep with
  | connect c h =>
      refine hinv.replace rfl ?_ ?_ ?_
      all_goals rw [h]; rfl
  | receive c header header' h hbuffer hreserved =>
      refine hinv.replace rfl ?_ ?_ ?_
      · rw [h, reservedBy, reservedBy, hreserved]
      · rw [h, bufferSize, bufferSize, hbuffer]
      · rw [h, Option.elim_some, Option.elim_some, hreserved]
  | payload c header header' used h hnone halloc hused hmalloc =>
      exact hinv.payload h hnone hcounted halloc hused hmalloc
  | refuse c header h hnone halloc =>
      -- a refused reservation changes nothing
      have hsame : (postBufferReserve s.budget (header.contentlenght + 1)).1 = s.budget := by
        have hfull : ¬ (postBufferReserve s.budget (header.contentlenght + 1)).2 = true := by
          intro hok
          simp [allocPostBuffer, hnone, hok] at halloc
        unfold postBufferReserve at hfull ⊢
        split_ifs at hfull ⊢ with hzero hfits
        · rfl
        · exact absurd rfl hfull
        · rfl
      rw [hsame]
      exact hinv
  | parsePostData c header h hbuffer hboundary => exact hinv.release h rfl rfl
  | reset c header h => exact hinv.release h rfl rfl
  | close c header h => exact hinv.release h rfl rfl
  | setConfig value => exact ⟨hinv.allocated, hinv.buffers, hinv.once⟩

/-! ## Whole runs -/

theorem BudgetReachable.inv {srv : PostServer} {maxPostMemoryTotal : Int32} {s : BudgetState C}
    (h : BudgetReachable srv maxPostMemoryTotal Counted s) : BudgetInv s := by
  induction h with
  | init => exact ⟨total_zero fun _ => rfl, fun _ => rfl, fun _ => rfl⟩
  | step _ hstep hok ih => exact hstep.inv hok ih

/-- A reservation that succeeds under a limit stays within it. -/
theorem BudgetStep.limited {srv : PostServer} {s s' : BudgetState C} {c : C}
    (hstep : BudgetStep srv s (.payload c) s') (hmade : s'.made ≠ s.made)
    (hlimit : s.budget.limit ≠ 0) : s'.budget.postBufferAllocated ≤ s'.budget.limit := by
  cases hstep with
  | payload c header header' used h hnone halloc hused hmalloc =>
      obtain ⟨hok, -, -⟩ := allocPostBuffer_new hnone halloc
      obtain ⟨hreserve, hfits⟩ := postBufferReserve_counted hlimit hok
      simp only [hreserve]
      exact hfits
  | refuse c header h hnone halloc => exact absurd rfl hmade

/-- **The budget.** As long as no body is buffered while the budget is switched off, the
accounts are right in every state, for any interleaving of any number of connections and any
changes of the limit. -/
theorem budget_exact_of_counted (srv : PostServer) (maxPostMemoryTotal : Int32)
    (s : BudgetState C) (h : BudgetReachable srv maxPostMemoryTotal Counted s) :
    BudgetExact srv s :=
  ⟨h.inv.allocated, h.inv.once, fun _ _ hstep hmade hlimit => hstep.limited hmade hlimit⟩

/-- A record of a request with a body of some bytes, before and after the first of them. -/
def announced (n : UInt64) : HttpRequestHeader := { contentlenght := n }

def buffered (n : UInt64) : HttpRequestHeader :=
  { contentlenght := n
    postBufferReserved := n + 1
    postBuffer := some (List.replicate (n + 1).toNat 0) }

/-- A server without registrations, whose fresh memory is zeroed. -/
def plainServer : PostServer := ⟨[], 100, [], fun _ => true, fun _ => 0⟩

theorem total_bufferSize {f : Bool → Option HttpRequestHeader} :
    Total f bufferSize (bufferSize (f true) + bufferSize (f false)) :=
  ⟨Finset.univ, fun c hc => absurd (Finset.mem_univ c) hc, rfl⟩

theorem budget_exact_of_counted_run : ∃ s : BudgetState Bool,
    BudgetReachable plainServer 6 Counted s ∧ s.budget.postBufferAllocated = 4 ∧
      BudgetExact plainServer s := by
  have h₀ := @BudgetReachable.init Bool _ plainServer 6 Counted
  have h₁ := h₀.step (.connect true rfl) trivial
  have h₂ := h₁.step (.receive true _ (announced 3) rfl rfl rfl) trivial
  have h₃ := h₂.step (.payload true (announced 3) (buffered 3) _ rfl rfl rfl total_bufferSize
    (by decide)) (show PostBudget.limit { maxPostMemoryTotal := 6 } ≠ 0 by decide)
  exact ⟨_, h₃, rfl, budget_exact_of_counted plainServer 6 _ h₃⟩

/-- **The drift.** A body is buffered while the budget is switched off, the budget is switched
on, another body is counted, and the end of the first request takes its size off the count. -/
theorem budget_drifts : ∃ s : BudgetState Bool,
    BudgetReachable plainServer 0 (fun _ _ => True) s ∧ s.budget.limit = 6 ∧
      ¬ BudgetExact plainServer s := by
  have h₀ := @BudgetReachable.init Bool _ plainServer 0 (fun _ _ => True)
  have h₁ := h₀.step (.connect true rfl) trivial
  have h₂ := h₁.step (.receive true _ (announced 3) rfl rfl rfl) trivial
  have h₃ := h₂.step (.payload true (announced 3) (buffered 3) _ rfl rfl rfl total_bufferSize
    (by decide)) trivial
  have h₄ := h₃.step (.setConfig 6) trivial
  have h₅ := h₄.step (.connect false rfl) trivial
  have h₆ := h₅.step (.receive false _ (announced 4) rfl rfl rfl) trivial
  have h₇ := h₆.step (.payload false (announced 4) (buffered 4) _ rfl rfl rfl total_bufferSize
    (by decide)) trivial
  have h₈ := h₇.step (.close true (buffered 3) rfl) trivial
  refine ⟨_, h₈, rfl, fun hexact => ?_⟩
  obtain ⟨rest, hrest⟩ := hexact.allocated.part false
  have hcounted : 1 = rest + 5 := hrest
  omega

end CWebUI.Http
