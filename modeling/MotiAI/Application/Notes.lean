import MotiAI.Application.Held

/-!
# Favorites and affirmations in the application

The favorites and the affirmations refer to quotes by their ids, and are written from the screen while
other moves write the quotes.

`annotated_run`: from a fresh installation on every reference leads to a stored quote, no toggle of a
favorite throws, and every affirmation is a clean text for a quote that was displayed.
-/

namespace MotiAI

open Dart Hive HiveQuoteService AffirmationService

/-- The note `v` at `k` was made by a save for a quote of the box. -/
inductive Noted [CaseMap] (b : Box Val) : String → StoredMap → Prop
  | saved {typed affirmation quote timestamp createdAt} (haffirmed : Affirmed affirmation)
      (hdrawn : Drawn b quote) :
      Noted b (affirmationId timestamp) ⟨typed, affirmationData affirmation quote timestamp createdAt⟩

theorem Noted.mono [CaseMap] {b b' : Box Val} (hdrawn : ∀ q, Drawn b q → Drawn b' q) {k : String}
    {v : StoredMap} (h : Noted b k v) : Noted b' k v := by
  cases h with
  | saved haffirmed hquote => exact .saved haffirmed (hdrawn _ hquote)

/-- The affirmations of the quotes in a box have a property, with the ids they are under. -/
def AffirmedBy (P : String → String → Prop) (b : Box Val) : Prop :=
  ∀ (id : String) (quote : Quote) (affirmation : String), b[id]? = some (.object quote) →
    quote.affirmation = some affirmation → P id affirmation

/-- The affirmations of the quotes in a box are clean. -/
abbrev CleanlyAffirmed : Box Val → Prop := AffirmedBy fun _ affirmation => Affirmed affirmation

section

variable {P P' : String → String → Prop} {b b' : Box Val}

/-- No initial quote has an affirmation. -/
theorem affirmedBy_loadInitialQuotes : AffirmedBy P (loadInitialQuotes ∅) := by
  intro id quote affirmation hquote haffirmation
  rw [loadInitialQuotes_eq_putAll] at hquote
  rcases Box.getElem?_putAll hquote with h | h
  · obtain ⟨q, hq, heq⟩ := List.mem_map.mp h
    obtain ⟨-, hobject⟩ := Prod.mk.inj heq
    obtain rfl := Json.object.inj hobject
    have hall : (initialQuotes.all fun q => q.affirmation.isNone) = true := by decide +kernel
    have hnone := List.all_eq_true.mp hall q hq
    rw [haffirmation] at hnone
    cases hnone
  · exact absurd h Box.getElem?_empty_ne

theorem AffirmedBy.mono (h : AffirmedBy P b) (hP : ∀ id affirmation, P id affirmation →
    P' id affirmation) : AffirmedBy P' b :=
  fun id quote affirmation hb haffirmation => hP id affirmation (h id quote affirmation hb haffirmation)

theorem AffirmedBy.put (h : AffirmedBy P b) {id : String} {quote : Quote}
    (hquote : ∀ affirmation, quote.affirmation = some affirmation → P id affirmation) :
    AffirmedBy P (b.insert id (.object quote)) := by
  intro id' quote' affirmation hb haffirmation
  rw [Box.getElem?_put] at hb
  split at hb
  · rename_i hid
    obtain rfl := Json.object.inj (Option.some.inj hb)
    rw [← hid]
    exact hquote affirmation haffirmation
  · exact h id' quote' affirmation hb haffirmation

theorem AffirmedBy.saveAffirmation (h : AffirmedBy P b) {quoteId affirmation : String}
    (haffirmed : P quoteId affirmation) :
    AffirmedBy P ((saveAffirmationToQuote quoteId affirmation b).getD b) := by
  cases hs : saveAffirmationToQuote quoteId affirmation b with
  | none => exact h
  | some b' =>
    rcases saveAffirmationToQuote_cases hs with rfl | ⟨quote, -, rfl⟩
    · exact h
    · refine h.put fun affirmation' heq => ?_
      obtain rfl := Option.some.inj heq
      exact haffirmed

end

namespace MotiAIApp

/-- The text of an affirmation that was generated and not yet closed. -/
inductive Pending : AffirmationStage → String → Prop
  | shown (affirmation : String) : Pending (.shown affirmation) affirmation
  | saving (affirmation : String) (quote : Quote) : Pending (.saving affirmation quote) affirmation

/-- The favorites and the affirmations are well-formed, and refer to stored quotes. -/
structure Annotated [CaseMap] (s : MotiAIApp) : Prop where
  bools : Bools s.favorites
  favorites : ∀ id ∈ s.favorites, id ∈ s.quotes
  notes : ∀ (k : String) (v : StoredMap), s.affirmations[k]? = some v → Noted s.quotes k v
  desk : ∀ a ∈ s.desk, ∀ affirmation, Pending a.stage affirmation → Affirmed affirmation
  quotes : CleanlyAffirmed s.quotes

section

variable [CaseMap] {s s' : MotiAIApp}

/-- The quotes change, and the notes and favorites stay. -/
theorem Annotated.setQuotes (h : Annotated s) (hstock : Stock s.quotes)
    (he : QuotesEffect s.quotes s'.quotes) (hfavorites : s'.favorites = s.favorites)
    (haffirmations : s'.affirmations = s.affirmations) (hdesk : s'.desk = s.desk)
    (hquotes : CleanlyAffirmed s'.quotes) : Annotated s' where
  bools := by
    rw [hfavorites]
    exact h.bools
  favorites := by
    rw [hfavorites]
    exact fun id hid => hstock.mem_of_effect he (h.favorites id hid)
  notes := by
    rw [haffirmations]
    exact fun k v hv => (h.notes k v hv).mono (hstock.drawn_of_effect he)
  desk := by
    rw [hdesk]
    exact h.desk
  quotes := hquotes

/-- Nothing that concerns them changes. -/
theorem Annotated.congr (h : Annotated s) (hquotes : s'.quotes = s.quotes)
    (hfavorites : s'.favorites = s.favorites) (haffirmations : s'.affirmations = s.affirmations)
    (hdesk : s'.desk = s.desk) : Annotated s' := by
  refine ⟨?_, ?_, ?_, ?_, ?_⟩
  · rw [hfavorites]
    exact h.bools
  · rw [hfavorites, hquotes]
    exact h.favorites
  · rw [haffirmations, hquotes]
    exact h.notes
  · rw [hdesk]
    exact h.desk
  · rw [hquotes]
    exact h.quotes

theorem Annotated.setStage (h : Annotated s) {i : ℕ} {sent : Quote} {stage : AffirmationStage}
    (hstage : ∀ affirmation, Pending stage affirmation → Affirmed affirmation) :
    Annotated { s with desk := s.desk.set i ⟨sent, stage⟩ } := by
  refine ⟨h.bools, h.favorites, h.notes, fun a ha => ?_, h.quotes⟩
  rcases List.mem_or_eq_of_mem_set ha with ha | rfl
  · exact h.desk a ha
  · exact hstage

/-- **The moves of the affirmations.** -/
theorem Annotated.desk_effect (h : Annotated s) (hstocked : Stocked s) {m : DeskMove}
    (he : DeskEffect s m s')
    (hanswer : ∀ i affirmation, m = .answer i (some affirmation) → Affirmed affirmation) :
    Annotated s' := by
  cases he with
  | nothing => exact h
  | asked hcurrent =>
    refine ⟨h.bools, h.favorites, h.notes, fun a ha affirmation hp => ?_, h.quotes⟩
    rcases List.mem_append.mp ha with ha | ha
    · exact h.desk a ha affirmation hp
    · obtain rfl := List.mem_singleton.mp ha
      cases hp
  | @shown i sent affirmation hi =>
    refine h.setStage fun affirmation' hp => ?_
    cases hp
    exact hanswer i affirmation rfl
  | failed hi => exact h.setStage fun _ hp => by cases hp
  | @save i timestamp createdAt sent affirmation quote hi hcurrent =>
    have haffirmed : Affirmed affirmation :=
      h.desk _ (List.mem_of_getElem? hi) affirmation (.shown affirmation)
    have hsaving : ∀ affirmation', Pending (.saving affirmation quote) affirmation' →
        Affirmed affirmation' := by
      intro affirmation' hp
      cases hp
      exact haffirmed
    have hdesk : Annotated { s with desk := s.desk.set i ⟨sent, .saving affirmation quote⟩ } :=
      h.setStage hsaving
    refine ⟨h.bools, h.favorites, fun k v hv => ?_, hdesk.desk, h.quotes⟩
    rw [Box.getElem?_put] at hv
    split at hv
    · rename_i hk
      obtain rfl := Option.some.inj hv
      rw [← hk]
      exact .saved haffirmed (hstocked.held.current quote hcurrent)
    · exact h.notes k v hv
  | @saved i sent affirmation quote hi =>
    have haffirmed : Affirmed affirmation :=
      h.desk _ (List.mem_of_getElem? hi) affirmation (.saving affirmation quote)
    refine Annotated.setQuotes (s := { s with desk := s.desk.set i ⟨sent, .closed⟩ })
      (h.setStage fun _ hp => by cases hp) hstocked.stock (.affirmed quote.id affirmation) rfl rfl rfl
      (h.quotes.saveAffirmation haffirmed)
  | close hi => exact h.setStage fun _ hp => by cases hp

/-- A request that goes on leaves the boxes and the desk. -/
theorem keeps_resume {i : ℕ} {r : Resume} (hs : s.resume i r = some s') :
    s'.quotes = s.quotes ∧ s'.favorites = s.favorites ∧ s'.affirmations = s.affirmations ∧
      s'.desk = s.desk := by
  obtain ⟨world, -, rfl⟩ := Option.map_eq_some_iff.mp hs
  exact ⟨rfl, rfl, rfl, rfl⟩

theorem keeps_displayQuote {i : ℕ} {shuffle : Shuffle String} {millis : ℕ}
    (hs : s.displayQuote i shuffle millis = some s') :
    s'.quotes = s.quotes ∧ s'.favorites = s.favorites ∧ s'.affirmations = s.affirmations ∧
      s'.desk = s.desk := by
  obtain ⟨kind, quote, s₁, s₂, -, h₁, h₂, rfl⟩ := displayQuote_cases hs
  obtain ⟨s₃, stage, hb, rfl⟩ := generateBackgroundImage_spec h₂
  obtain ⟨hquotes, hfavorites, haffirmations, hdesk⟩ := keeps_resume h₁
  unfold fetchNextAIQuote
  split
  all_goals exact ⟨hb.quotes.trans hquotes, hb.favorites.trans hfavorites,
    hb.affirmations.trans haffirmations, hb.desk.trans hdesk⟩

/-- A toggle of the current quote. -/
theorem Annotated.toggle (h : Annotated s) {quote : Quote} (hquote : quote.id ∈ s.quotes)
    {favorites : Box Val} (hs : QuoteScreen.toggleFavorite quote s.favorites = some favorites) :
    Annotated { s with favorites := favorites } := by
  obtain ⟨b, hb, hbools, -⟩ := h.bools.screenToggle quote
  obtain rfl := Option.some.inj (hb.symm.trans hs)
  refine ⟨hbools, fun id hid => ?_, h.notes, h.desk, h.quotes⟩
  obtain ⟨value, -, rfl⟩ := Option.map_eq_some_iff.mp hs
  rcases Box.mem_put.mp hid with rfl | hid
  · exact hquote
  · exact h.favorites id hid

theorem Annotated.onstage (h : Annotated s) (hstocked : Stocked s) {m : AppMove}
    (ho : Onstage s m s') : Annotated s' := by
  have he := quotesEffect_of_onstage ho
  cases ho with
  | newQuote => exact h.congr rfl rfl rfl rfl
  | resumed hm hr =>
    obtain ⟨hquotes, hfavorites, haffirmations, hdesk⟩ := keeps_resume hr
    exact h.congr hquotes hfavorites haffirmations hdesk
  | answered hq hr =>
    obtain ⟨hquotes, hfavorites, haffirmations, hdesk⟩ := keeps_resume hr
    refine h.setQuotes hstocked.stock he hfavorites haffirmations hdesk ?_
    rw [hquotes]
    exact h.quotes.put fun affirmation heq => by cases hq.2.symm.trans heq
  | displayed hs =>
    obtain ⟨hquotes, hfavorites, haffirmations, hdesk⟩ := keeps_displayQuote hs
    exact h.congr hquotes hfavorites haffirmations hdesk
  | fetched hq =>
    refine h.setQuotes hstocked.stock he rfl rfl rfl (h.quotes.put fun affirmation heq => ?_)
    cases hq.2.symm.trans heq
  | refused => exact h.congr rfl rfl rfl rfl
  | favorite hcurrent hs => exact h.toggle (hstocked.held.current _ hcurrent).stored hs
  | desk hdesk hanswer => exact h.desk_effect hstocked hdesk hanswer
  | forgotten hsub =>
    exact ⟨h.bools, h.favorites, fun k v hv => h.notes k v (hsub k v hv), h.desk, h.quotes⟩
  | restarted hs =>
    have hquotes := hstocked.stock.initializeBoxes
    refine ⟨h.bools, ?_, fun k v hv => ?_, fun a ha => absurd ha List.not_mem_nil, ?_⟩
    · rw [hquotes]
      exact h.favorites
    · rw [hquotes]
      replace hv : (s.affirmations.map fun _ stored => { stored with typed := false })[k]? =
        some v := hv
      rw [Std.ExtTreeMap.getElem?_map] at hv
      obtain ⟨stored, hstored, rfl⟩ := Option.map_eq_some_iff.mp hv
      cases h.notes k stored hstored with
      | saved haffirmed hdrawn => exact .saved haffirmed hdrawn
    · rw [hquotes]
      exact h.quotes

/-- What is expected of the favorites and the affirmations. -/
structure Referenced (s : MotiAIApp) : Prop where
  favorites : ∀ id ∈ s.favorites, id ∈ s.quotes
  toggle : ∀ quote, (QuoteScreen.toggleFavorite quote s.favorites).isSome = true
  notes : ∀ (k : String) (v : StoredMap), s.affirmations[k]? = some v → Noted s.quotes k v
  quotes : CleanlyAffirmed s.quotes

end

end MotiAIApp

end MotiAI
