import CWebUI.Template.Steering

set_option autoImplicit false

/-! # Slices of a page

When the slices that are rendered, searched and sent lie in their page. A part of a page goes wrong
in four ways: it consists of little more than the template header; the block of one of its tags ends
behind it; it has a loop tag and reaches to the end of the page, since the search for the end of the
loop goes one byte further; or the end of a loop is missing. A part is the page itself, or what is
rendered within a part.
-/

namespace CWebUI.Template

open ByteString Traced Program

/-- The slice of an event lies in its page. -/
def Event.InPage {σ : Type} : Event σ → Prop
  | .start _ X | .search X | .chunk X => X.InPage
  | _ => True

instance {σ : Type} : (e : Event σ) → Decidable e.InPage
  | .start _ X | .search X | .chunk X => inferInstanceAs (Decidable X.InPage)
  | .stop _ | .sent _ | .traverse _ | .visit _ _ _ _ _ => inferInstanceAs (Decidable True)

/-- The text of a part is well formed. -/
structure PartOk (site : Site) (S : Slice) : Prop where
  /-- A header is a whole header, with the byte behind it. -/
  header : 0 ≤ (skipHeader S).length
  /-- The blocks of its tags end in it. -/
  inside : ∀ p func e, TagAt site (skipHeader S) p func e →
    (nextPosition (skipHeader S) func e p.last).last ≤ (skipHeader S).length
  /-- A loop tag stands only before the last byte of the page has been reached, and a loop that can
  run has an end. -/
  loop : ∀ p func e, TagAt site (skipHeader S) p func e → func.function = .loopArray →
    (skipHeader S).start + (skipHeader S).length < S.page.size ∧
      (2 ≤ func.parameter.length → loopEnd (skipHeader S) e ≠ -1)
  /-- The search for the tags of an if block does not go on behind the part. -/
  search : ∀ p func e, TagAt site (skipHeader S) p func e → func.function = .ifFunction →
    ∀ X ∈ ifTagSearches (ifSlice (skipHeader S) e) ((ifSlice (skipHeader S) e).length.toNat + 1) 0 0,
      0 ≤ X.length

section

variable {site : Site}

@[simp] theorem skipHeader_page (S : Slice) : (skipHeader S).page = S.page := by
  unfold skipHeader
  split <;> rfl

theorem InPage.skipHeader {S : Slice} (h : S.InPage) (hheader : 0 ≤ (skipHeader S).length) :
    (skipHeader S).InPage := by
  obtain ⟨h1, h2, h3⟩ := h
  unfold Template.skipHeader at hheader ⊢
  split
  · next hreads =>
    rw [if_pos hreads] at hheader
    simp only [Slice.sub_length] at hheader
    simp only [Slice.InPage, Slice.sub_start, Slice.sub_length, Slice.sub_page]
    omega
  · exact ⟨h1, h2, h3⟩

/-- A slice of a slice. -/
theorem InPage.sub {T : Slice} (h : T.InPage) {i length : Int} (hi : 0 ≤ i) (hlength : 0 ≤ length)
    (hend : T.start + i + length ≤ T.page.size) : (T.sub i length).InPage :=
  ⟨by simp only [Slice.sub_start]; have := h.1; omega, hlength, hend⟩

/-- The positions of a well-formed part. -/
theorem PartOk.last_le {S : Slice} (h : PartOk site S) {p : Position}
    (hp : Reached site (skipHeader S) p) : p.last ≤ (skipHeader S).length := by
  induction hp with
  | start => exact h.header
  | plain _ _ _ ih => exact ih
  | unknown _ _ _ ih => exact ih
  | function hp hi hfound _ => exact h.inside _ _ _ ⟨hp, hi, hfound⟩

/-- A well-formed part uses slices of the page only. -/
theorem PartOk.used_inPage {S X : Slice} (h : PartOk site S) (hS : S.InPage)
    (hX : Used site (skipHeader S) X) : X.InPage := by
  have hT := InPage.skipHeader hS h.header
  have h1 := hT.1
  have h2 := hT.2.1
  have h3 := hT.2.2
  cases hX with
  | @text p func e htag hlt =>
      have hi := htag.inside
      have hord := htag.reached.ordered
      exact InPage.sub hT (by omega) (by omega) (by omega)
  | @tag p func e htag =>
      obtain ⟨hlt, hle, -⟩ := functionAt_spec htag.found
      have hord := htag.reached.ordered
      exact InPage.sub hT (by omega) (by omega) (by omega)
  | @rest p hp _ =>
      have hord := hp.ordered
      have hle := h.last_le hp
      exact InPage.sub hT (by omega) (by omega) (by omega)
  | returned => exact InPage.sub hT h2 (le_refl _) (by omega)
  | @loop p func e _ htag hfunc hX =>
      obtain ⟨hlt, hle, -⟩ := functionAt_spec htag.found
      have hord := htag.reached.ordered
      have hend := (h.loop p func e htag hfunc).1
      rw [← skipHeader_page] at hend
      have hsearch : (loopSlice (skipHeader S) e).InPage :=
        InPage.sub hT (by omega) (by omega) (by omega)
      rcases List.mem_cons.mp hX with rfl | hX
      · exact hsearch
      · obtain ⟨a, b, rfl, ha, hb, hab⟩ := tagEndSearches_spec (by decide) _ 0 1 (le_refl _)
          hsearch.2.1 X hX
        have hpage := hsearch.2.2
        exact InPage.sub hsearch ha hb (by omega)
  | @«if» p func e _ htag hfunc hX =>
      obtain ⟨hlt, hle, -⟩ := functionAt_spec htag.found
      have hord := htag.reached.ordered
      have hsearch : (ifSlice (skipHeader S) e).InPage :=
        InPage.sub hT (by omega) (by omega) (by omega)
      rcases List.mem_cons.mp hX with rfl | hX
      · exact hsearch
      · have hlen := h.search p func e htag hfunc X hX
        obtain ⟨a, ha, rfl⟩ := ifTagSearches_spec _ 0 0 (le_refl _) X hX
        have hpage := hsearch.2.2
        exact InPage.sub hsearch ha hlen (by omega)

/-- What is rendered within a well-formed part lies in its page. -/
theorem PartOk.child_inPage {S U : Slice} (h : PartOk site S) (hS : S.InPage)
    (hU : Child site S U) : U.InPage := by
  have hT := InPage.skipHeader hS h.header
  have h1 := hT.1
  have h3 := hT.2.2
  cases hU with
  | @branch p func e tags _ condition htag hfunc htags hU =>
      obtain ⟨hlt, hle, -⟩ := functionAt_spec htag.found
      have hord := htag.reached.ordered
      have hinside := h.inside p func e htag
      have htagsOrd := findIfTagsPos_ordered htags
      have hendif := htagsOrd.endif_le
      have helse := htagsOrd.else_cases
      simp only [nextPosition, hfunc, ifEnd, htags] at hinside
      have hsearch : (ifSlice (Template.skipHeader S) e).InPage :=
        InPage.sub hT (by omega) (by omega) (by omega)
      have hpage := hsearch.2.2
      have hend : (ifSlice (Template.skipHeader S) e).start + tags.endifPos ≤
          (ifSlice (Template.skipHeader S) e).page.size := by
        simp only [ifSlice, Slice.sub_length] at hpage ⊢
        omega
      unfold selectBranch at hU
      split at hU
      · cases hU
      · cases hU
        refine InPage.sub hsearch (le_refl _) ?_ ?_ <;> split <;> omega
      · split at hU
        · cases hU
          exact InPage.sub hsearch (by omega) (by omega) (by omega)
        · cases hU
  | @body p func e htag hfunc hlen =>
      obtain ⟨hlt, hle, -⟩ := functionAt_spec htag.found
      have hord := htag.reached.ordered
      obtain ⟨hend, hfound⟩ := h.loop p func e htag hfunc
      rw [← skipHeader_page] at hend
      have hsearch : (loopSlice (Template.skipHeader S) e).InPage :=
        InPage.sub hT (by omega) (by omega) (by omega)
      have hpage := hsearch.2.2
      rcases loopEnd_spec (T := Template.skipHeader S) (e := e) (by omega) with hnot | ⟨h9, hle9⟩
      · exact absurd hnot (hfound hlen)
      · simp only [loopSlice, Slice.sub_length] at hpage
        refine InPage.sub hsearch (le_refl _) (by omega) ?_
        simp only [loopSlice]
        omega
  | @file p func e name rest q htag hfunc hparam hfile =>
      exact ⟨le_refl _, Int.natCast_nonneg _, by simp [Page.whole]⟩

/-- Every part of a page whose parts are well formed lies in its page. -/
theorem chain_inPage {n : Nat} {S U : Slice} (h : Chain site n S U) (hS : S.InPage)
    (hok : ∀ n X, Chain site n S X → PartOk site X) : U.InPage := by
  induction h with
  | refl S => exact hS
  | @step n S T U hchild _ ih =>
      refine ih ((hok 0 S (.refl S)).child_inPage hS hchild) fun m X hX => ?_
      exact hok (m + 1) X (.step hchild hX)

/-- Whatever the host answers, the slices lie in the page. -/
theorem slices_inPage {p : Page} (hok : ∀ n X, Chain site n p.whole X → PartOk site X)
    {σ : Type} {host : TemplateHost σ} (hhost : host.Serves site) (fuel : Nat) (s : Engine σ) :
    ∀ e ∈ ((processHTML host fuel p.whole).run s).events, e.InPage := by
  intro e he
  have hp : p.whole.InPage := ⟨le_refl _, Int.natCast_nonneg _, by simp [Page.whole]⟩
  have hallowed := (processHTML_allowed hhost fuel p.whole s).events e he
  cases e with
  | start k X =>
      obtain ⟨n, -, hn⟩ := hallowed
      exact chain_inPage hn hp hok
  | search X | chunk X =>
      obtain ⟨n, Y, hn, hX⟩ := hallowed
      exact (hok n Y hn).used_inPage (chain_inPage hn hp hok) hX
  | stop _ | sent _ | traverse _ | visit _ _ _ _ _ => trivial

/-! ## Parts that are not well formed -/

/-- A script and a run whose events leave the page. -/
def Leaves (site : Site) (S : Slice) : Prop :=
  ∃ (w : List Reply) (fuel : Nat), ∀ s : Engine (List Reply), s.host = w →
    ∃ e ∈ ((processHTML (scriptHost site) fuel S).run s).events, ¬ e.InPage

theorem Leaves.of_chain {n : Nat} {S U : Slice} (h : Chain site n S U) (hU : Leaves site U) :
    Leaves site S := by
  obtain ⟨w, hw⟩ := steer_chain h
  obtain ⟨w', fuel, hrun⟩ := hU
  refine ⟨w ++ w', fuel + n, fun s hs => ?_⟩
  obtain ⟨s', hs', -, hev⟩ := hw fuel w' s hs
  obtain ⟨e, he, hout⟩ := hrun s' hs'
  exact ⟨e, hev e he, hout⟩

/-- A slice outside the page is handed to `processHTML`. -/
theorem Leaves.of_outside {S : Slice} (h : ¬ S.InPage) : Leaves site S := by
  refine ⟨[], 1, fun s _ => ⟨.start s.engineIndex S, ?_, h⟩⟩
  rw [processHTML_succ]
  exact mem_bind_left (List.mem_singleton.mpr rfl)

/-- The page consists of little more than the header: a negative length is sent. -/
theorem Leaves.of_header {S : Slice} (h : (skipHeader S).length < 0) : Leaves site S := by
  refine ⟨[], 1, fun s _ => ⟨.chunk ((skipHeader S).sub 0 ((skipHeader S).length - 0)), ?_, ?_⟩⟩
  · rw [processHTML_succ]
    refine Returns.mem_bind ⟨_, rfl⟩ ?_
    have hloop : (mainLoop (scriptHost site) (processHTML (scriptHost site) 0) 1 (skipHeader S)
        ((skipHeader S).length.toNat + 1) ⟨0, 0, false⟩) = pure ⟨0, 0, false⟩ := by
      unfold mainLoop
      exact if_neg (by dsimp only; omega)
    rw [hloop]
    exact (Returns.pure _ _).mem_bind (mem_bind_left (List.mem_cons_self ..))
  · rintro ⟨-, hneg, -⟩
    simp only [Slice.sub_length] at hneg
    omega

/-- The block of a tag ends behind the part: a negative length is sent. -/
theorem Leaves.of_behind {S : Slice} {p : Position} {func : FunctionParas} {e : Int}
    (htag : TagAt site (skipHeader S) p func e)
    (h : (skipHeader S).length < (nextPosition (skipHeader S) func e p.last).last) :
    Leaves site S := by
  obtain ⟨w, rounds, hw⟩ := steer_tag htag
  obtain ⟨w', hskip⟩ := @skip_function site (skipHeader S) func e p.last
  generalize hq : nextPosition (skipHeader S) func e p.last = q at h hskip
  refine ⟨w ++ w', 1, fun s hs => ⟨.chunk ((skipHeader S).sub q.last
    ((skipHeader S).length - q.last)), ?_, ?_⟩⟩
  · obtain ⟨s', hs', -, hev⟩ := hw 0 w' s hs
    obtain ⟨s'', hrun, -⟩ := hskip (processHTML (scriptHost site) 0) 1 [] s' (by simpa using hs')
    refine hev _ (hrun.mem_bind ?_)
    have hle : (skipHeader S).length ≤ q.next.i := by
      have hord := htag.next.ordered.2
      rw [hq] at hord
      exact le_trans (le_of_lt h) hord
    have hloop : mainLoop (scriptHost site) (processHTML (scriptHost site) 0) 1 (skipHeader S)
        (rounds + 1) q.next = pure q.next := by
      unfold mainLoop
      exact if_neg (by omega)
    rw [hloop]
    exact (Returns.pure _ _).mem_bind (mem_bind_left (List.mem_cons_self ..))
  · rintro ⟨-, hneg, -⟩
    simp only [Slice.sub_length] at hneg
    omega

/-- A search leaves the page. -/
theorem Leaves.of_loop {S : Slice} {p : Position} {func : FunctionParas} {e : Int}
    (htag : TagAt site (skipHeader S) p func e) (hfunc : func.function = .loopArray)
    (h : ¬ (loopSlice (skipHeader S) e).InPage) : Leaves site S := by
  obtain ⟨w, rounds, hw⟩ := steer_tag htag
  refine ⟨w, 1, fun s hs => ⟨.search (loopSlice (skipHeader S) e), ?_, h⟩⟩
  obtain ⟨s', -, -, hev⟩ := hw 0 [] s (by simpa using hs)
  refine hev _ (mem_bind_left ?_)
  unfold runFunction engineLoopArray
  rw [hfunc]
  exact mem_bind_left (mem_bind_left (List.mem_cons_self ..))

/-- A search gets a negative length. -/
theorem Leaves.of_search {S X : Slice} {p : Position} {func : FunctionParas} {e : Int}
    (htag : TagAt site (skipHeader S) p func e) (hfunc : func.function = .ifFunction)
    (hX : X ∈ ifTagSearches (ifSlice (skipHeader S) e)
      ((ifSlice (skipHeader S) e).length.toNat + 1) 0 0) (h : X.length < 0) : Leaves site S := by
  obtain ⟨w, rounds, hw⟩ := steer_tag htag
  refine ⟨w, 1, fun s hs => ⟨.search X, ?_, fun hin => ?_⟩⟩
  · obtain ⟨s', -, -, hev⟩ := hw 0 [] s (by simpa using hs)
    refine hev _ (mem_bind_left ?_)
    unfold runFunction engineTemplateIf
    rw [hfunc]
    refine mem_bind_left (mem_bind_left (List.mem_cons_of_mem _ ?_))
    exact List.mem_map_of_mem hX
  · have := hin.2.1
    omega

/-- A part that is not well formed makes a run leave the page. -/
theorem leaves_of_not_ok {S : Slice} (h : ¬ PartOk site S) : Leaves site S := by
  by_contra hstay
  refine h ⟨?_, fun p func e htag => ?_, fun p func e htag hfunc => ⟨?_, fun hlen hmissing => ?_⟩,
    fun p func e htag hfunc X hX => ?_⟩
  · exact Int.not_lt.mp fun hneg => hstay (.of_header hneg)
  · exact Int.not_lt.mp fun hlt => hstay (.of_behind htag hlt)
  · refine Int.not_le.mp fun hle => hstay (.of_loop htag hfunc fun hin => ?_)
    have hpage := hin.2.2
    simp only [loopSlice, Slice.sub_start, Slice.sub_length, Slice.sub_page, skipHeader_page] at hpage
    omega
  · refine hstay (.of_chain (.step (.body htag hfunc hlen) (.refl _)) (.of_outside fun hin => ?_))
    have hneg := hin.2.1
    simp only [loopBody, Slice.sub_length, hmissing] at hneg
    omega
  · exact Int.not_lt.mp fun hneg => hstay (.of_search htag hfunc hX hneg)

/-- **The slices of a page.** Whatever the variables, the conditions and the functions that are
registered answer, every slice that is rendered, searched or sent lies in its page, if and only if
every part of the page, and of the files that it includes, is well formed. -/
theorem slices_inPage_iff (site : Site) (p : Page) :
    (∀ (σ : Type) (host : TemplateHost σ), host.Serves site → ∀ (fuel : Nat) (s : Engine σ),
      ∀ e ∈ ((processHTML host fuel p.whole).run s).events, e.InPage) ↔
    ∀ n S, Chain site n p.whole S → PartOk site S := by
  constructor
  · intro h n S hS
    by_contra hbad
    obtain ⟨w, fuel, hrun⟩ := Leaves.of_chain hS (leaves_of_not_ok hbad)
    obtain ⟨e, he, hout⟩ := hrun { host := w } rfl
    exact hout (h (List Reply) (scriptHost site) (scriptHost_serves site) fuel _ e he)
  · exact fun hok σ host hhost fuel s => slices_inPage hok hhost fuel s

end

/-! ## Pages that are left -/

/-- A page that consists of the header. -/
def headerPage : Page := .ofBytes (ascii "TEMPLATE_V1")

/-- A page with a loop that is in no other block. -/
def loopPage : Page := .ofBytes (ascii "\x7bloop:global;\"a\":\"e\"\x7dx\x7bendloop\x7d")

theorem pages_left :
    (∃ e ∈ ((processHTML emptyHost 1 headerPage.whole).run { host := () }).events, ¬ e.InPage) ∧
    ∃ e ∈ ((processHTML emptyHost 1 loopPage.whole).run { host := () }).events, ¬ e.InPage := by
  constructor <;> decide +kernel

end CWebUI.Template
