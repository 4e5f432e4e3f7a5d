import CWebUI.Basic.Snprintf
import CWebUI.Http.HeaderLine

set_option autoImplicit false

/-! # The security policy of a page

`addCSPHeaderLines` (`header_send.c`) prints the policy of a page into a buffer of 1000 bytes on the
stack. The `Host` of the request stands in it several times, up to 255 bytes of it, without line
breaks (`sanitize_header_value`). A byte outside the buffer ends the run.

Without TLS the host stands in the first three of the four texts once, with TLS twice; there the
fourth one can start behind the buffer (`addCSPHeaderLines_inside_iff`).
-/

namespace CWebUI.Http

open ByteString StringBuffer

/-! ## The code -/

/-- The loop of a sanitizer: it copies the bytes that it keeps, as long as there is room before the
terminator. -/
def copyKept (keep : UInt8 → Bool) : List UInt8 → Nat → List UInt8
  | [], _ => []
  | _ :: _, 0 => []
  | c :: src, room + 1 =>
      if keep c then c :: copyKept keep src room else copyKept keep src (room + 1)

/-- `sanitize_header_value` -/
def sanitizeHeaderValue (src : List UInt8) (destSize : Nat) : List UInt8 :=
  copyKept (fun c => c != cr && c != lf) src (destSize - 1)

/-- The texts of the policy; `ssl` is `WEBSERVER_USE_SSL`. -/
def policyTexts (ssl : Bool) (host : List UInt8) : List (List UInt8) :=
  if ssl then
    [ascii "default-src http://" ++ host ++ ascii " https://" ++ host ++ ascii "; ",
      ascii "script-src 'self' 'unsafe-eval' 'unsafe-inline' http://" ++ host ++
        ascii " https://" ++ host ++ ascii "; ",
      ascii "style-src 'unsafe-inline' http://" ++ host ++ ascii " https://" ++ host ++ ascii "; ",
      ascii "connect-src ws://" ++ host ++ ascii " http://" ++ host ++ ascii " wss://" ++ host ++
        ascii " https://" ++ host ++ ascii " ; "]
  else
    [ascii "default-src http://" ++ host ++ ascii "; ",
      ascii "script-src 'self' 'unsafe-eval' 'unsafe-inline' http://" ++ host ++ ascii "; ",
      ascii "style-src 'unsafe-inline' http://" ++ host ++ ascii "; ",
      ascii "connect-src ws://" ++ host ++ ascii " http://" ++ host ++ ascii "; "]

/-- The host of the policy. -/
def policyHost (header : HttpRequestHeader) : List UInt8 :=
  match header.host with
  | some host => sanitizeHeaderValue host 256
  | none => []

/-- `addCSPHeaderLines`: what it prints, or the byte outside its buffer. The buffer holds `stack`
before. -/
def addCSPHeaderLines (ssl : Bool) (useCsp : Int) (stack : List UInt8)
    (header : HttpRequestHeader) : Except Nat (List (List UInt8)) :=
  if useCsp = 0 then .ok []
  else do
    let buff ← printFrom id 1000 (policyTexts ssl (policyHost header)) stack 0
    return [ascii "Content-Security-Policy: " ++ ascii " " ++ cString buff ++ crlf]

/-! ## The host -/

variable {src : List UInt8}

theorem copyKept_eq (keep : UInt8 → Bool) (src : List UInt8) (room : Nat) :
    copyKept keep src room = (src.filter keep).take room := by
  induction src generalizing room with
  | nil => simp [copyKept]
  | cons c src ih =>
      cases room with
      | zero => simp [copyKept]
      | succ room =>
          rw [copyKept, ih, ih]
          by_cases hc : keep c = true
          · rw [if_pos hc, List.filter_cons_of_pos hc, List.take_succ_cons]
          · rw [if_neg hc, List.filter_cons_of_neg hc]

theorem length_copyKept (keep : UInt8 → Bool) (src : List UInt8) (room : Nat) :
    (copyKept keep src room).length ≤ room := by
  rw [copyKept_eq, List.length_take]
  exact Nat.min_le_left _ _

theorem mem_of_mem_copyKept {keep : UInt8 → Bool} {room : Nat} {c : UInt8}
    (h : c ∈ copyKept keep src room) : c ∈ src ∧ keep c = true := by
  rw [copyKept_eq] at h
  exact List.mem_filter.mp (List.mem_of_mem_take h)

/-- **A sanitized value has no line break**, and no byte that the value has not. -/
theorem mem_of_mem_sanitize {destSize : Nat} {c : UInt8}
    (h : c ∈ sanitizeHeaderValue src destSize) : c ∈ src ∧ c ≠ cr ∧ c ≠ lf := by
  obtain ⟨hsrc, hkeep⟩ := mem_of_mem_copyKept h
  rw [Bool.and_eq_true, bne_iff_ne, bne_iff_ne] at hkeep
  exact ⟨hsrc, hkeep⟩

variable {host : List UInt8}

theorem not_mem_policyHost {header : HttpRequestHeader}
    (hclean : ∀ host, header.host = some host → (0 : UInt8) ∉ host) :
    (0 : UInt8) ∉ policyHost header := by
  unfold policyHost
  cases h : header.host with
  | none => exact List.not_mem_nil
  | some host => exact fun h0 => hclean host h (mem_of_mem_sanitize h0).1

theorem length_policyHost (header : HttpRequestHeader) : (policyHost header).length ≤ 255 := by
  unfold policyHost
  cases header.host with
  | none => exact Nat.zero_le _
  | some host => exact length_copyKept _ host 255

/-- A byte of the policy stands in one of its literals, or in the host. -/
theorem policyTexts_clean (ssl : Bool) {c : UInt8} (hhost : c ∉ host)
    (hc : ∀ s ∈ ["default-src http://", "script-src 'self' 'unsafe-eval' 'unsafe-inline' http://",
      "style-src 'unsafe-inline' http://", "connect-src ws://", " http://", " https://", " wss://",
      "; ", " ; "], c ∉ ascii s) : ∀ t ∈ policyTexts ssl host, c ∉ t := by
  simp only [List.forall_mem_cons] at hc
  obtain ⟨h1, h2, h3, h4, h5, h6, h7, h8, h9, -⟩ := hc
  cases ssl <;>
    simp [policyTexts, h1, h2, h3, h4, h5, h6, h7, h8, h9, hhost]

/-- The lengths of the literals. -/
theorem length_policyLiterals :
    (ascii "default-src http://").length = 19 ∧
      (ascii "script-src 'self' 'unsafe-eval' 'unsafe-inline' http://").length = 55 ∧
      (ascii "style-src 'unsafe-inline' http://").length = 33 ∧
      (ascii "connect-src ws://").length = 17 ∧ (ascii " http://").length = 8 ∧
      (ascii " https://").length = 9 ∧ (ascii " wss://").length = 7 ∧
      (ascii "; ").length = 2 ∧ (ascii " ; ").length = 3 := by
  decide +kernel

/-- Where the last text starts. -/
theorem length_policyTexts (ssl : Bool) (host : List UInt8) :
    (policyTexts ssl host).dropLast.flatten.length =
      if ssl then 140 + 6 * host.length else 113 + 3 * host.length := by
  obtain ⟨h1, h2, h3, h4, h5, h6, h7, h8, h9⟩ := length_policyLiterals
  cases ssl
  · simp only [policyTexts, Bool.false_eq_true, if_false, List.dropLast, List.flatten_cons,
      List.flatten_nil, List.length_append, List.length_nil, h1, h2, h3, h8]
    omega
  · simp only [policyTexts, if_true, List.dropLast, List.flatten_cons, List.flatten_nil,
      List.length_append, List.length_nil, h1, h2, h3, h6, h8]
    omega

/-- The length of a policy. -/
theorem length_flatten_policyTexts (ssl : Bool) (host : List UInt8) :
    (policyTexts ssl host).flatten.length =
      if ssl then 184 + 10 * host.length else 140 + 5 * host.length := by
  obtain ⟨h1, h2, h3, h4, h5, h6, h7, h8, h9⟩ := length_policyLiterals
  cases ssl
  · simp only [policyTexts, Bool.false_eq_true, if_false, List.flatten_cons, List.flatten_nil,
      List.length_append, List.length_nil, h1, h2, h3, h4, h5, h8]
    omega
  · simp only [policyTexts, if_true, List.flatten_cons, List.flatten_nil, List.length_append,
      List.length_nil, h1, h2, h3, h4, h5, h6, h7, h8, h9]
    omega

/-- What a page gets for its policy, where that fits. -/
def policyLine (ssl : Bool) (host : List UInt8) : List UInt8 :=
  ascii "Content-Security-Policy:  " ++ (policyTexts ssl host).flatten.take 999

/-- The texts and the buffer are those of the library's printing. -/
theorem printPolicy {ssl : Bool} {host stack : List UInt8} (hstack : stack.length = 1000)
    (hhost : (0 : UInt8) ∉ host) (hlen : host.length ≤ 255) :
    (ssl = false ∨ host.length < 144 →
      ∃ buff, printFrom id 1000 (policyTexts ssl host) stack 0 = .ok buff ∧
        cString buff = (policyTexts ssl host).flatten.take 999) ∧
    (¬ (ssl = false ∨ host.length < 144) →
      ∃ p, 1000 < p ∧ printFrom id 1000 (policyTexts ssl host) stack 0 = .error p) := by
  have htexts := policyTexts_clean ssl hhost (by decide +kernel)
  have hstart : Printed 1000 stack [] := hstack ▸ Printed.start (by omega)
  have hlast := length_policyTexts ssl host
  have hall := length_flatten_policyTexts ssl host
  have hne : policyTexts ssl host ≠ [] := by
    cases ssl <;> exact List.cons_ne_nil _ _
  constructor
  · intro hfit
    obtain ⟨buff, hrun, hholds⟩ := @Printed.printFrom _ id _ _ _ _ hstart (by decide) (by decide)
      htexts hne (by
        rw [List.length_nil, Nat.zero_add, hlast]
        cases ssl <;> simp at hfit ⊢ <;> omega)
    exact ⟨buff, hrun, hholds.cString⟩
  · intro hlong
    obtain ⟨p, hp, herror⟩ := @Printed.printFrom_outside _ id _ _ _ _ hstart (by decide)
      (by decide) htexts (by
        rw [List.length_nil, Nat.zero_add, hall]
        cases ssl <;> simp <;> omega) (by
        rw [List.length_nil, Nat.zero_add, hlast]
        cases ssl <;> simp at hlong ⊢; omega)
    exact ⟨p, hp, herror⟩

/-- What is printed, for a policy that stays in its buffer. -/
theorem addCSPHeaderLines_eq {ssl : Bool} {useCsp : Int} {stack : List UInt8}
    (hstack : stack.length = 1000) {header : HttpRequestHeader}
    (hclean : ∀ host, header.host = some host → (0 : UInt8) ∉ host)
    (h : ssl = false ∨ (policyHost header).length < 144) :
    addCSPHeaderLines ssl useCsp stack header =
      .ok (if useCsp = 0 then [] else [policyLine ssl (policyHost header) ++ crlf]) := by
  obtain ⟨buff, hrun, hbuff⟩ :=
    (printPolicy hstack (not_mem_policyHost hclean) (length_policyHost header)).1 h
  unfold addCSPHeaderLines
  by_cases hoff : useCsp = 0
  · rw [if_pos hoff, if_pos hoff]
  · rw [if_neg hoff, if_neg hoff, Checked.bind_ok hrun, hbuff]
    rfl

/-- **The policy is printed inside its buffer if and only if** there is none, or the library is built
without TLS, or the host has less than 144 bytes. -/
theorem addCSPHeaderLines_inside_iff (ssl : Bool) (useCsp : Int) {stack : List UInt8}
    (hstack : stack.length = 1000) {header : HttpRequestHeader}
    (hclean : ∀ host, header.host = some host → (0 : UInt8) ∉ host) :
    (∃ texts, addCSPHeaderLines ssl useCsp stack header = .ok texts) ↔
      useCsp = 0 ∨ ssl = false ∨ (policyHost header).length < 144 := by
  by_cases hfit : ssl = false ∨ (policyHost header).length < 144
  · exact ⟨fun _ => .inr hfit, fun _ => ⟨_, addCSPHeaderLines_eq hstack hclean hfit⟩⟩
  · obtain ⟨p, -, herror⟩ :=
      (printPolicy hstack (not_mem_policyHost hclean) (length_policyHost header)).2 hfit
    unfold addCSPHeaderLines
    by_cases hoff : useCsp = 0
    · rw [if_pos hoff]
      exact ⟨fun _ => .inl hoff, fun _ => ⟨_, rfl⟩⟩
    · rw [if_neg hoff, Checked.bind_error herror]
      constructor
      · rintro ⟨texts, hrun⟩
        cases hrun
      · exact fun h => absurd h fun h' => h'.elim hoff hfit

/-- The library with TLS, and a request with a host of 144 bytes. -/
theorem addCSPHeaderLines_long_host :
    ¬ ∃ texts, addCSPHeaderLines true 1 (List.replicate 1000 0)
      (matchHeaderFields (ascii "Host: " ++ List.replicate 144 97) {}) = .ok texts := by
  have hhost : (matchHeaderFields (ascii "Host: " ++ List.replicate 144 97) {}).host =
      some (List.replicate 144 97) := by decide +kernel
  have hclean : ∀ host, (matchHeaderFields (ascii "Host: " ++ List.replicate 144 97) {}).host =
      some host → (0 : UInt8) ∉ host := by
    intro host heq h0
    rw [hhost, Option.some.injEq] at heq
    rw [← heq] at h0
    exact absurd (List.eq_of_mem_replicate h0) (by decide)
  rw [addCSPHeaderLines_inside_iff true 1 List.length_replicate hclean, policyHost, hhost]
  decide +kernel

end CWebUI.Http
