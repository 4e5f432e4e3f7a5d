import CWebUI.Proxy.Connection

set_option autoImplicit false

/-! # What a connection does on the wire

The bytes of the four directions, read off the recorded events, and what the parts of the
state machine that send can add to the record. Everything else the proxy does leaves the
record alone, so these lemmas are all that the invariants need to know about the loops.
-/

namespace CWebUI.Proxy

open ByteString

/-! ## The four directions -/

/-- The bytes read from the client. -/
def readFromClient : List WireEvent → List UInt8
  | [] => []
  | .fromClient data :: w => readFromClient w ++ data
  | _ :: w => readFromClient w

/-- The bytes sent to the backend. -/
def sentToBackend : List WireEvent → List UInt8
  | [] => []
  | .toBackend data :: w => sentToBackend w ++ data
  | _ :: w => sentToBackend w

/-- The bytes read from the backend. -/
def readFromBackend : List WireEvent → List UInt8
  | [] => []
  | .fromBackend data :: w => readFromBackend w ++ data
  | _ :: w => readFromBackend w

/-- The bytes sent to the client. -/
def sentToClient : List WireEvent → List UInt8
  | [] => []
  | .toClient data :: w => sentToClient w ++ data
  | _ :: w => sentToClient w

@[simp] theorem readFromClient_nil : readFromClient [] = [] := rfl
@[simp] theorem sentToBackend_nil : sentToBackend [] = [] := rfl
@[simp] theorem readFromBackend_nil : readFromBackend [] = [] := rfl
@[simp] theorem sentToClient_nil : sentToClient [] = [] := rfl

theorem readFromClient_append (v w : List WireEvent) :
    readFromClient (v ++ w) = readFromClient w ++ readFromClient v := by
  induction v with
  | nil => simp
  | cons e v ih => cases e <;> simp [readFromClient, ih]

theorem sentToBackend_append (v w : List WireEvent) :
    sentToBackend (v ++ w) = sentToBackend w ++ sentToBackend v := by
  induction v with
  | nil => simp
  | cons e v ih => cases e <;> simp [sentToBackend, ih]

theorem readFromBackend_append (v w : List WireEvent) :
    readFromBackend (v ++ w) = readFromBackend w ++ readFromBackend v := by
  induction v with
  | nil => simp
  | cons e v ih => cases e <;> simp [readFromBackend, ih]

theorem sentToClient_append (v w : List WireEvent) :
    sentToClient (v ++ w) = sentToClient w ++ sentToClient v := by
  induction v with
  | nil => simp
  | cons e v ih => cases e <;> simp [sentToClient, ih]

/-! ## Events towards the client -/

/-- Only the client sees these events. -/
def OnlyClient (w : List WireEvent) : Prop :=
  ∀ e ∈ w, (∃ data, e = .toClient data) ∨ e = .clientLost

theorem OnlyClient.nil : OnlyClient [] := fun e he => absurd he (by simp)

theorem OnlyClient.cons_data {w : List WireEvent} (h : OnlyClient w) (data : List UInt8) :
    OnlyClient (.toClient data :: w) := by
  intro e he
  rcases List.mem_cons.mp he with rfl | he
  · exact .inl ⟨data, rfl⟩
  · exact h e he

theorem OnlyClient.cons_lost {w : List WireEvent} (h : OnlyClient w) :
    OnlyClient (.clientLost :: w) := by
  intro e he
  rcases List.mem_cons.mp he with rfl | he
  · exact .inr rfl
  · exact h e he

theorem OnlyClient.append {v w : List WireEvent} (hv : OnlyClient v) (hw : OnlyClient w) :
    OnlyClient (v ++ w) := by
  intro e he
  rcases List.mem_append.mp he with he | he
  · exact hv e he
  · exact hw e he

/-- The other directions are not touched. -/
theorem OnlyClient.others {w : List WireEvent} (h : OnlyClient w) :
    readFromClient w = [] ∧ sentToBackend w = [] ∧ readFromBackend w = [] := by
  induction w with
  | nil => exact ⟨rfl, rfl, rfl⟩
  | cons e w ih =>
      obtain ⟨h1, h2, h3⟩ := ih (fun x hx => h x (List.mem_cons_of_mem _ hx))
      rcases h e List.mem_cons_self with ⟨data, rfl⟩ | rfl
      · exact ⟨h1, h2, h3⟩
      · exact ⟨h1, h2, h3⟩

theorem OnlyClient.not_tunnel {w : List WireEvent} (h : OnlyClient w) : WireEvent.tunnel ∉ w := by
  intro hm
  rcases h _ hm with ⟨data, hd⟩ | hd
  · exact absurd hd (by simp)
  · exact absurd hd (by simp)

/-! ## What the ends of a connection do -/

/-- A page is sent as far as the client takes it. -/
theorem sendPage_spec (answers : List ClientSend) (page : List UInt8)
    (c : ReverseProxyConnection) :
    ∃ w rest, sendPage answers page c =
        { c with answers.clientSend := rest, wire := w ++ c.wire } ∧
      OnlyClient w ∧ sentToClient w <+: page := by
  induction answers generalizing page c with
  | nil => exact ⟨[], [], rfl, OnlyClient.nil, List.nil_prefix⟩
  | cons a answers ih =>
      rw [sendPage]
      by_cases hpage : page = []
      · rw [if_pos hpage]
        exact ⟨[], a :: answers, rfl, OnlyClient.nil, List.nil_prefix⟩
      · rw [if_neg hpage]
        simp only
        have htake : page.take (min a.taken page.length) <+: page := List.take_prefix _ _
        cases a.status with
        | failed =>
            exact ⟨[.clientLost, .toClient (page.take (min a.taken page.length))], answers, rfl,
              (OnlyClient.nil.cons_data _).cons_lost, htake⟩
        | sendBufferFull =>
            exact ⟨[.toClient (page.take (min a.taken page.length))], answers, rfl,
              OnlyClient.nil.cons_data _, htake⟩
        | noMoreData =>
            simp only
            split_ifs with hn
            · exact ⟨[.toClient (page.take (min a.taken page.length))], answers, rfl,
                OnlyClient.nil.cons_data _, htake⟩
            · obtain ⟨w, rest, heq, hw, hsent⟩ := ih (page.drop (min a.taken page.length))
                { c with
                  answers.clientSend := answers
                  wire := .toClient (page.take (min a.taken page.length)) :: c.wire }
              refine ⟨w ++ [.toClient (page.take (min a.taken page.length))], rest, ?_,
                hw.append (OnlyClient.nil.cons_data _), ?_⟩
              · rw [heq]
                simp only [List.append_assoc, List.singleton_append]
              · obtain ⟨t, ht⟩ := hsent
                refine ⟨t, ?_⟩
                rw [sentToClient_append, List.append_assoc, ht]
                simp [sentToClient]

/-- The connection `c` when it has been closed down, with `w` added to its record. -/
def shutDown (state : ProxyState) (headerSent : Bool) (w : List WireEvent)
    (rest : List ClientSend) (c : ReverseProxyConnection) : ReverseProxyConnection :=
  closeDown { c with
    state := state
    response.headerSent := headerSent
    answers.clientSend := rest
    wire := w ++ c.wire }

/-- `c'` is the connection `c` when it has been closed down; the client has got `w`, which is a
part of `page`. -/
def Shut (page : List UInt8) (w : List WireEvent) (state : ProxyState)
    (c c' : ReverseProxyConnection) : Prop :=
  ∃ headerSent rest, c' = shutDown state headerSent w rest c ∧ OnlyClient w ∧
    sentToClient w <+: page

/-- A connection that has not sent a response header tells the client. -/
theorem enterError_shut_page (setup : ProxySetup) {c : ReverseProxyConnection}
    (h : c.response.headerSent = false) :
    ∃ w, Shut (errorPage 502 "Bad Gateway" setup.backendPath) w .error c (enterError setup c) := by
  obtain ⟨w, rest, heq, hw, hsent⟩ := sendPage_spec c.answers.clientSend
    (errorPage 502 "Bad Gateway" setup.backendPath) { c with state := .error }
  refine ⟨w, c.response.headerSent, rest, ?_, hw, hsent⟩
  simp only [enterError, proxySendErrorResponse, h, Bool.false_eq_true, if_false, heq]
  rw [shutDown, ← h]

/-- A connection that has sent a response header just ends. -/
theorem enterError_shut_sent (setup : ProxySetup) {c : ReverseProxyConnection}
    (h : c.response.headerSent = true) : Shut [] [] .error c (enterError setup c) := by
  refine ⟨c.response.headerSent, c.answers.clientSend, ?_, OnlyClient.nil, List.prefix_rfl⟩
  unfold enterError
  simp only [if_pos h]
  rfl

/-- A request that is refused gets a page. -/
theorem refuse_shut (setup : ProxySetup) (code : Nat) (reason : String)
    (c : ReverseProxyConnection) :
    ∃ w, Shut (errorPage code reason []) w .error c (refuse setup code reason c) := by
  obtain ⟨w, rest, heq, hw, hsent⟩ := sendPage_spec c.answers.clientSend
    (errorPage code reason []) c
  refine ⟨w, true, rest, ?_, hw, hsent⟩
  simp only [refuse, enterError, proxySendErrorResponse, heq, if_true]
  rfl

/-! ## What the loops do -/

theorem countSent_zero (body : Bool) (c : ReverseProxyConnection) : countSent body 0 c = c := by
  cases body with
  | true => rfl
  | false => rfl

/-- What the send loops of a response leave behind: `k` more bytes of the buffer are counted
as sent. Unless the client is lost, they are what has been sent. -/
theorem sendResponse_spec (stop : Nat) (body : Bool) (answers : List ClientSend)
    (c : ReverseProxyConnection) (hpos : c.sendPos ≤ stop) :
    ∃ k w rest, OnlyClient w ∧ c.sendPos + k ≤ stop ∧
      (sendResponse stop body answers c).1 =
        { countSent body k c with answers.clientSend := rest, wire := w ++ c.wire } ∧
      ((WireEvent.clientLost ∉ w ∧ sentToClient w = (c.response.buffer.drop c.sendPos).take k ∧
          ((sendResponse stop body answers c).2 = .wait ∨
            (sendResponse stop body answers c).2 = .sent ∧ c.sendPos + k = stop)) ∨
        (WireEvent.clientLost ∈ w ∧ (sendResponse stop body answers c).2 = .failed)) := by
  induction answers generalizing c with
  | nil =>
      rw [sendResponse]
      by_cases hlt : c.sendPos < stop
      · rw [if_pos hlt]
        exact ⟨0, [], [], OnlyClient.nil, hpos, by rw [countSent_zero]; rfl,
          .inl ⟨by simp, by simp, .inl rfl⟩⟩
      · rw [if_neg hlt]
        exact ⟨0, [], [], OnlyClient.nil, hpos, by rw [countSent_zero]; rfl,
          .inl ⟨by simp, by simp, .inr ⟨rfl, by omega⟩⟩⟩
  | cons a answers ih =>
      rw [sendResponse]
      by_cases hlt : c.sendPos < stop
      · rw [if_pos hlt]
        simp only
        set n := min a.taken (stop - c.sendPos) with hn
        set data := (c.response.buffer.drop c.sendPos).take n with hdata
        have hle : c.sendPos + n ≤ stop := by omega
        have hdataSent : sentToClient [.toClient data] = data := by simp [sentToClient]
        cases a.status with
        | failed =>
            exact ⟨0, [.clientLost, .toClient data], answers, (OnlyClient.nil.cons_data _).cons_lost,
              hpos, by rw [countSent_zero]; rfl, .inr ⟨by simp, rfl⟩⟩
        | sendBufferFull =>
            exact ⟨n, [.toClient data], answers, OnlyClient.nil.cons_data _, hle, rfl,
              .inl ⟨by simp, hdataSent, .inl rfl⟩⟩
        | noMoreData =>
            by_cases hzero : n = 0
            · simp only [if_pos hzero]
              exact ⟨n, [.toClient data], answers, OnlyClient.nil.cons_data _, hle, rfl,
                .inl ⟨by simp, hdataSent, by simp⟩⟩
            · simp only [if_neg hzero]
              -- the rest of the loop starts `n` bytes further on
              obtain ⟨k, w, rest, hw, hk, heq, hend⟩ := ih
                (countSent body n { c with wire := .toClient data :: c.wire }) hle
              refine ⟨n + k, w ++ [.toClient data], rest, hw.append (OnlyClient.nil.cons_data _),
                ?_, ?_, ?_⟩
              · rw [← Nat.add_assoc]
                exact hk
              · rw [heq]
                cases body with
                | true => simp [countSent, Nat.add_assoc]
                | false => simp [countSent, Nat.add_assoc]
              · rcases hend with ⟨hlost, hsent, hres⟩ | ⟨hlost, hres⟩
                · refine .inl ⟨by simp [hlost], ?_, ?_⟩
                  · have hsent' : sentToClient w = (c.response.buffer.drop (c.sendPos + n)).take k :=
                      hsent
                    rw [sentToClient_append, hsent', hdataSent, ← List.drop_drop, List.take_add]
                  · rcases hres with hres | ⟨hres, hstop⟩
                    · exact .inl hres
                    · exact .inr ⟨hres, (Nat.add_assoc _ _ _).symm.trans hstop⟩
                · exact .inr ⟨by simp [hlost], hres⟩
      · rw [if_neg hlt]
        exact ⟨0, [], a :: answers, OnlyClient.nil, hpos, by rw [countSent_zero]; rfl,
          .inl ⟨by simp, by simp, .inr ⟨rfl, by omega⟩⟩⟩

/-- What the read loop of the client handler leaves behind. -/
theorem readClient_spec (answers : List ClientRecv) (c : ReverseProxyConnection) :
    ∃ w data, (readClient answers c).1 =
        { c with
          request.buffer := c.request.buffer ++ data
          sockets.bytesReceived := c.sockets.bytesReceived + data.length
          wire := w ++ c.wire } ∧
      (∀ e ∈ w, ∃ d, e = .fromClient d) ∧ readFromClient w = data := by
  induction answers generalizing c with
  | nil => exact ⟨[], [], by simp [readClient], by simp, rfl⟩
  | cons a answers ih =>
      unfold readClient
      by_cases hfull : c.request.bufferSize ≤ c.request.buffer.length
      · rw [if_pos hfull]
        exact ⟨[], [], by simp, by simp, rfl⟩
      · rw [if_neg hfull]
        cases a with
        | noMoreData => exact ⟨[], [], by simp, by simp, rfl⟩
        | broken => exact ⟨[], [], by simp, by simp, rfl⟩
        | data first more pending =>
            simp only
            set data := (first :: more).take (c.request.bufferSize - c.request.buffer.length)
            cases pending with
            | false =>
                exact ⟨[.fromClient data], data, by simp, by simp, by simp [readFromClient]⟩
            | true =>
                obtain ⟨w, data', heq, hw, hread⟩ := ih
                  { c with
                    request.buffer := c.request.buffer ++ data
                    sockets.bytesReceived := c.sockets.bytesReceived + data.length
                    wire := .fromClient data :: c.wire }
                refine ⟨w ++ [.fromClient data], data ++ data', ?_, ?_, ?_⟩
                · rw [if_pos rfl, heq]
                  simp [Nat.add_assoc]
                · intro e he
                  rcases List.mem_append.mp he with he | he
                  · exact hw e he
                  · exact ⟨data, by simpa using he⟩
                · rw [readFromClient_append, hread]
                  simp [readFromClient]

end CWebUI.Proxy
