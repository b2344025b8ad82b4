import MotiAI.Application.Moves
import MotiAI.Application.Quotes

/-!
# The quotes the screen holds

A quote that is picked is held by a request until it is displayed, then by the screen, by the run for
its background image and by the affirmations asked for it. Meanwhile other moves write the box.

`stocked_run`: every quote that is displayed is genuine and stored, and no request that reads the box
fails.
-/

namespace MotiAI

open Dart Hive HiveQuoteService

/-- `r` hands the quote `q` to a request. -/
inductive Brings [CaseMap] : Resume → Quote → Prop
  | answered (q : Quote) : Brings (.answer (some q)) q
  | read {stored useAI shuffle avoid q} (hl : localPick none none avoid stored useAI shuffle = .ok q) :
      Brings (.read stored useAI shuffle) q

namespace MotiAIApp

/-- All the quotes that the screen and its requests hold have a property. -/
structure Held (P : Quote → Prop) (s : MotiAIApp) : Prop where
  picked : ∀ request ∈ s.world.requests, ∀ quote, request.stage = .picked quote → P quote
  displayed : ∀ quote ∈ s.world.session.displayed, P quote
  current : ∀ quote, s.screen.currentQuote = some quote → P quote
  runs : ∀ run ∈ s.runs, P run.quote
  sent : ∀ a ∈ s.desk, P a.sent
  saving : ∀ a ∈ s.desk, ∀ affirmation quote, a.stage = .saving affirmation quote → P quote

/-! ## What is held after a move -/

section

variable {P P' : Quote → Prop} {s s' : MotiAIApp}

theorem Held.mono (h : Held P s) (hP : ∀ q, P q → P' q) : Held P' s where
  picked := fun request hrequest quote hstage => hP _ (h.picked request hrequest quote hstage)
  displayed := fun quote hquote => hP _ (h.displayed quote hquote)
  current := fun quote hquote => hP _ (h.current quote hquote)
  runs := fun run hrun => hP _ (h.runs run hrun)
  sent := fun a ha => hP _ (h.sent a ha)
  saving := fun a ha affirmation quote hstage => hP _ (h.saving a ha affirmation quote hstage)

theorem Held.backstage (h : Held P s) (hb : Backstage s s') : Held P s' where
  picked := by
    rw [hb.requests]
    exact h.picked
  displayed := by
    rw [hb.displayed]
    exact h.displayed
  current := by
    rw [hb.currentQuote]
    exact h.current
  runs := by
    intro run' hrun'
    obtain ⟨run, hrun, heq⟩ := hb.runs run' hrun'
    rw [← heq]
    exact h.runs run hrun
  sent := by
    rw [hb.desk]
    exact h.sent
  saving := by
    rw [hb.desk]
    exact h.saving

/-- Other boxes than those the screen looks into. -/
theorem Held.withBoxes (h : Held P s) (quotes favorites : Box Val) (affirmations : Box StoredMap)
    (fetches : ℕ) :
    Held P { s with
      quotes := quotes, favorites := favorites, affirmations := affirmations
      fetches := fetches } :=
  ⟨h.picked, h.displayed, h.current, h.runs, h.sent, h.saving⟩

theorem Held.newQuote (h : Held P s) :
    Held P { s with world := { s.world with requests := s.world.requests ++ [⟨.press, .starting⟩] } }
    where
  picked := by
    intro request hrequest quote hstage
    rcases List.mem_append.mp hrequest with hrequest | hrequest
    · exact h.picked request hrequest quote hstage
    · obtain rfl := List.mem_singleton.mp hrequest
      cases hstage
  displayed := h.displayed
  current := h.current
  runs := h.runs
  sent := h.sent
  saving := h.saving

/-- An affirmation that goes on holds the quote it was asked for, and a saved one the current. -/
theorem Held.setStage (h : Held P s) {i : ℕ} {sent : Quote} {stage stage' : AffirmationStage}
    (hi : s.desk[i]? = some ⟨sent, stage⟩)
    (hsaving : ∀ affirmation quote, stage' = .saving affirmation quote → P quote) :
    Held P { s with desk := s.desk.set i ⟨sent, stage'⟩ } where
  picked := h.picked
  displayed := h.displayed
  current := h.current
  runs := h.runs
  sent := by
    intro a ha
    rcases List.mem_or_eq_of_mem_set ha with ha | rfl
    · exact h.sent a ha
    · have hsent := h.sent _ (List.mem_of_getElem? hi)
      exact hsent
  saving := by
    intro a ha affirmation quote hstage
    rcases List.mem_or_eq_of_mem_set ha with ha | rfl
    · exact h.saving a ha affirmation quote hstage
    · exact hsaving affirmation quote hstage

theorem Held.desk (h : Held P s) {m : DeskMove} (he : DeskEffect s m s') : Held P s' := by
  cases he with
  | nothing => exact h
  | @asked quote hcurrent =>
    refine ⟨h.picked, h.displayed, h.current, h.runs, fun a ha => ?_, fun a ha => ?_⟩
    · rcases List.mem_append.mp ha with ha | ha
      · exact h.sent a ha
      · obtain rfl := List.mem_singleton.mp ha
        exact h.current quote hcurrent
    · rcases List.mem_append.mp ha with ha | ha
      · exact h.saving a ha
      · obtain rfl := List.mem_singleton.mp ha
        rintro affirmation quote' ⟨⟩
  | shown hi => exact h.setStage hi (by simp)
  | failed hi => exact h.setStage hi (by simp)
  | @save i timestamp createdAt sent affirmation quote hi hcurrent =>
    refine (h.setStage hi ?_).withBoxes s.quotes s.favorites _ s.fetches
    rintro affirmation' quote' ⟨⟩
    exact h.current quote hcurrent
  | saved hi =>
    exact (h.setStage hi (by simp)).withBoxes _ s.favorites s.affirmations s.fetches
  | close hi => exact h.setStage hi (by simp)

variable [CaseMap]

/-- A request that goes on holds the quote it is brought, and displays the one it held. -/
theorem Held.resume (h : Held P s) {i : ℕ} {r : Resume} (hs : s.resume i r = some s')
    (hr : ∀ q, Brings r q → P q) : Held P s' := by
  obtain ⟨world, hw, rfl⟩ := Option.map_eq_some_iff.mp hs
  obtain ⟨kind, stage, stage', session, hi, hresume, rfl⟩ := World.step_resume hw
  have hset : ∀ {stage' : Stage}, (∀ quote, stage' = .picked quote → P quote) →
      ∀ request ∈ s.world.requests.set i ⟨kind, stage'⟩,
        ∀ quote, request.stage = .picked quote → P quote := by
    intro stage' hstage' request hrequest quote hstage
    rcases List.mem_or_eq_of_mem_set hrequest with hrequest | rfl
    · exact h.picked request hrequest quote hstage
    · exact hstage' quote hstage
  cases World.resumes_of_resume hresume with
  | start useAI =>
    refine ⟨hset ?_, h.displayed, h.current, h.runs, h.sent, h.saving⟩
    cases useAI <;> simp
  | @accepted aiQuote quote hai =>
    refine ⟨hset ?_, h.displayed, h.current, h.runs, h.sent, h.saving⟩
    obtain rfl := aiQuote_of_aiPick hai
    rintro quote' ⟨⟩
    exact hr quote (.answered quote)
  | rejected hai => exact ⟨hset (by simp), h.displayed, h.current, h.runs, h.sent, h.saving⟩
  | found hl =>
    refine ⟨hset ?_, h.displayed, h.current, h.runs, h.sent, h.saving⟩
    rintro quote ⟨⟩
    exact hr _ (.read hl)
  | failed hl => exact ⟨hset (by simp), h.displayed, h.current, h.runs, h.sent, h.saving⟩
  | display quote =>
    have hquote := h.picked _ (List.mem_of_getElem? hi) quote rfl
    refine ⟨hset (by simp), fun quote' hquote' => ?_, fun quote' hquote' => ?_, h.runs, h.sent,
      h.saving⟩
    · have hmem : quote' ∈ s.world.session.displayed ++ [quote] := by
        cases kind with
        | load => exact hquote'
        | press => exact hquote'
      rcases List.mem_append.mp hmem with hmem | hmem
      · exact h.displayed quote' hmem
      · obtain rfl := List.mem_singleton.mp hmem
        exact hquote
    · have heq : some quote = some quote' := by
        cases kind with
        | load => exact hquote'
        | press => exact hquote'
      obtain rfl := Option.some.inj heq
      exact hquote

theorem Held.displayQuote (h : Held P s) {i : ℕ} {shuffle : Shuffle String} {millis : ℕ}
    (hs : s.displayQuote i shuffle millis = some s') : Held P s' := by
  obtain ⟨kind, quote, s₁, s₂, hi, h₁, h₂, rfl⟩ := displayQuote_cases hs
  have hquote := h.picked _ (List.mem_of_getElem? hi) quote rfl
  have hheld₁ : Held P s₁ := h.resume h₁ fun q hq => by cases hq
  obtain ⟨s₃, stage, hb, rfl⟩ := generateBackgroundImage_spec h₂
  have hheld₃ := hheld₁.backstage hb
  have hheld₂ : Held P { s₃ with runs := s₁.runs ++ [⟨quote, stage⟩] } := by
    refine ⟨hheld₃.picked, hheld₃.displayed, hheld₃.current, fun run hrun => ?_, hheld₃.sent,
      hheld₃.saving⟩
    rcases List.mem_append.mp hrun with hrun | hrun
    · exact hheld₁.runs run hrun
    · obtain rfl := List.mem_singleton.mp hrun
      exact hquote
  unfold fetchNextAIQuote
  split
  · exact hheld₂.withBoxes s₃.quotes s₃.favorites s₃.affirmations _
  · exact hheld₂

end

/-! ## Whole runs -/

/-- The box is stocked, and every quote that is held comes from it. -/
structure Stocked [CaseMap] (s : MotiAIApp) : Prop where
  stock : Stock s.quotes
  held : Held (Drawn s.quotes) s

section

variable [CaseMap] {P : Quote → Prop} {s s' : MotiAIApp}

theorem stocked_installed (key stabilityKey : EnvEntry) : Stocked (installed key stabilityKey) where
  stock := by
    show Stock (initializeBoxes ∅)
    rw [initializeBoxes_empty]
    exact stock_loadInitialQuotes
  held := by
    refine ⟨fun request hrequest quote hstage => ?_, by simp [installed], by rintro quote ⟨⟩,
      by simp [installed], by simp [installed], by simp [installed]⟩
    obtain rfl := List.mem_singleton.mp hrequest
    cases hstage

theorem quotes_resume {i : ℕ} {r : Resume} (hs : s.resume i r = some s') :
    s'.quotes = s.quotes := by
  obtain ⟨world, -, rfl⟩ := Option.map_eq_some_iff.mp hs
  rfl

omit [CaseMap] in
theorem quotes_fetchNextAIQuote (s : MotiAIApp) : s.fetchNextAIQuote.quotes = s.quotes := by
  unfold fetchNextAIQuote
  split <;> rfl

theorem quotes_displayQuote {i : ℕ} {shuffle : Shuffle String} {millis : ℕ}
    (hs : s.displayQuote i shuffle millis = some s') : s'.quotes = s.quotes := by
  obtain ⟨kind, quote, s₁, s₂, -, h₁, h₂, rfl⟩ := displayQuote_cases hs
  obtain ⟨s₃, stage, hb, rfl⟩ := generateBackgroundImage_spec h₂
  rw [quotes_fetchNextAIQuote]
  exact hb.quotes.trans (quotes_resume h₁)

/-- **The quotes box** changes in these ways only. -/
theorem quotesEffect_of_onstage {m : AppMove} (h : Onstage s m s') :
    QuotesEffect s.quotes s'.quotes := by
  cases h with
  | resumed hm hr =>
    rw [quotes_resume hr]
    exact .kept
  | answered hq hr =>
    rw [quotes_resume hr]
    exact .fetched hq.1
  | displayed hs =>
    rw [quotes_displayQuote hs]
    exact .kept
  | fetched hq => exact .fetched hq.1
  | desk he =>
    cases he with
    | saved hi => exact .affirmed _ _
    | _ => exact .kept
  | restarted hs => exact .initialized
  | _ => exact .kept

/-- A move on the screen keeps what is held, if the quotes that requests are brought may be. -/
theorem Held.onstage (h : Held P s) {m : AppMove} (ho : Onstage s m s')
    (hP : ∀ q, Vetted q → s'.quotes = addQuote q s.quotes → P q)
    (hlocal : ∀ avoid useAI shuffle q, localPick none none avoid s.quotes useAI shuffle = .ok q →
      P q) : Held P s' := by
  cases ho with
  | newQuote => exact h.newQuote
  | resumed hm hr hdisplay hanswer hread =>
    refine h.resume hr fun q hq => ?_
    cases hq with
    | answered => exact absurd rfl (hanswer q)
    | read hl =>
      obtain rfl := hread _ _ _ rfl
      exact hlocal _ _ _ q hl
  | @answered i turn q _ hq hr =>
    refine Held.resume (h.withBoxes (addQuote q s.quotes) s.favorites s.affirmations s.fetches) hr
      fun q' hq' => ?_
    cases hq'
    exact hP q hq.1 (quotes_resume hr)
  | displayed hs => exact h.displayQuote hs
  | fetched hq => exact h.withBoxes _ _ _ _
  | refused => exact h.withBoxes _ _ _ _
  | favorite hcurrent hs => exact h.withBoxes _ _ _ _
  | desk he => exact h.desk he
  | forgotten hsub => exact h.withBoxes _ _ _ _
  | restarted hs =>
    refine ⟨fun request hrequest quote hstage => ?_, by simp, by rintro quote ⟨⟩, by simp, by simp,
      by simp⟩
    obtain rfl := List.mem_singleton.mp hrequest
    cases hstage

/-- Reading the box, a request finds a quote. -/
theorem Stocked.read (h : Stocked s) {i : ℕ} {shuffle : Shuffle Quote}
    (hs : s.resume i (.read s.quotes s.useAIQuotes shuffle) = some s') :
    ∃ kind quote, s'.world.requests[i]? = some ⟨kind, .picked quote⟩ := by
  obtain ⟨world, hw, rfl⟩ := Option.map_eq_some_iff.mp hs
  obtain ⟨kind, stage, stage', session, hi, hresume, rfl⟩ := World.step_resume hw
  have hlt : i < s.world.requests.length := (List.getElem?_eq_some_iff.mp hi).1
  cases World.resumes_of_resume hresume with
  | @found stored useAI shuffle quote hl => exact ⟨kind, quote, List.getElem?_set_self hlt⟩
  | failed hl =>
    obtain ⟨q, hq, -⟩ := h.stock.localPick none none (kind.avoidTraditions s.world.session)
      s.useAIQuotes shuffle
    rw [hq] at hl
    cases hl

variable [NumText]

theorem quotesEffect_step {m : AppMove} (hs : s.step m = some s') :
    QuotesEffect s.quotes s'.quotes := by
  cases hm : m.isBackstage with
  | true =>
    rw [(backstage_step hm hs).quotes]
    exact .kept
  | false => exact quotesEffect_of_onstage (onstage_of_step hm hs)

theorem Stocked.step (h : Stocked s) {m : AppMove} (hs : s.step m = some s') : Stocked s' := by
  have he := quotesEffect_step hs
  refine ⟨h.stock.effect he, ?_⟩
  have hdrawn := h.held.mono (h.stock.drawn_of_effect he)
  cases hm : m.isBackstage with
  | true => exact hdrawn.backstage (backstage_step hm hs)
  | false =>
    refine hdrawn.onstage (onstage_of_step hm hs) (fun q hq heq => ?_)
      fun avoid useAI shuffle q hq => ?_
    · rw [heq]
      exact ⟨Or.inr hq, Box.mem_put.mpr (Or.inl rfl)⟩
    · obtain ⟨q', hq', hdrawn'⟩ := h.stock.localPick none none avoid useAI shuffle
      rw [hq'] at hq
      obtain rfl := Except.ok.inj hq
      exact h.stock.drawn_of_effect he q' hdrawn'

end

end MotiAIApp

end MotiAI
