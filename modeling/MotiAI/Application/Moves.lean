import MotiAI.Application.Frame

/-!
# What a move on the screen does

`onstage_of_step`: a move that is not behind the screen asks for a quote or goes on with it, changes
one of the boxes, or restarts the application.
-/

namespace MotiAI

open Dart Hive HiveQuoteService

/-- The request for a quote that the move goes on with. -/
def AppMove.owner : AppMove → Option ℕ
  | .start i | .answer i _ | .read i _ | .display i _ _ => some i
  | _ => none

namespace MotiAIApp

/-- What a move of the affirmations does. -/
inductive DeskEffect (s : MotiAIApp) : DeskMove → MotiAIApp → Prop
  | nothing : DeskEffect s .generateAffirmation s
  | asked {quote} (hcurrent : s.screen.currentQuote = some quote) :
      DeskEffect s .generateAffirmation { s with desk := s.desk ++ [⟨quote, .generating⟩] }
  | shown {i sent affirmation} (hi : s.desk[i]? = some ⟨sent, .generating⟩) :
      DeskEffect s (.answer i (some affirmation))
        { s with desk := s.desk.set i ⟨sent, .shown affirmation⟩ }
  | failed {i sent} (hi : s.desk[i]? = some ⟨sent, .generating⟩) :
      DeskEffect s (.answer i none) { s with desk := s.desk.set i ⟨sent, .closed⟩ }
  | save {i timestamp createdAt sent affirmation quote}
      (hi : s.desk[i]? = some ⟨sent, .shown affirmation⟩)
      (hcurrent : s.screen.currentQuote = some quote) :
      DeskEffect s (.save i timestamp createdAt) { s with
        desk := s.desk.set i ⟨sent, .saving affirmation quote⟩
        affirmations := s.affirmations.insert (AffirmationService.affirmationId timestamp)
          ⟨true, AffirmationService.affirmationData affirmation quote timestamp createdAt⟩ }
  | saved {i sent affirmation quote} (hi : s.desk[i]? = some ⟨sent, .saving affirmation quote⟩) :
      DeskEffect s (.saved i) { s with
        desk := s.desk.set i ⟨sent, .closed⟩
        quotes := (saveAffirmationToQuote quote.id affirmation s.quotes).getD s.quotes }
  | close {i sent affirmation} (hi : s.desk[i]? = some ⟨sent, .shown affirmation⟩) :
      DeskEffect s (.close i) { s with desk := s.desk.set i ⟨sent, .closed⟩ }

/-- A new quote has no affirmation. -/
theorem affirmation_of_buildQuote {cleanText : String} {turn : FetchTurn} {q : Quote}
    (h : buildQuote cleanText turn = some q) : q.affirmation = none := by
  unfold buildQuote at h
  obtain ⟨tradition, -, h⟩ := Option.bind_eq_some_iff.mp h
  obtain ⟨author, -, h⟩ := Option.bind_eq_some_iff.mp h
  obtain rfl := Option.some.inj h
  rfl

section

variable [CaseMap] {s s' : MotiAIApp}

theorem deskEffect_of_step {m : DeskMove} (hm : ∀ move, m ≠ .screen move)
    (hs : s.deskStep m = some s') : DeskEffect s m s' := by
  obtain ⟨d, hd, rfl⟩ := Option.map_eq_some_iff.mp hs
  cases m with
  | screen move => exact absurd rfl (hm move)
  | generateAffirmation =>
    simp only [Desk.step] at hd
    split at hd
    · obtain rfl := Option.some.inj hd
      exact .nothing
    · rename_i quote hcurrent
      obtain rfl := Option.some.inj hd
      exact .asked hcurrent
  | answer i affirmation =>
    simp only [Desk.step] at hd
    split at hd
    · rename_i sent hi
      split at hd
      · obtain rfl := Option.some.inj hd
        exact .shown hi
      · obtain rfl := Option.some.inj hd
        exact .failed hi
    · cases hd
  | save i timestamp createdAt =>
    obtain ⟨sent, affirmation, quote, hi, hcurrent, rfl⟩ := Desk.step_save hd
    exact .save hi hcurrent
  | saved i =>
    obtain ⟨sent, affirmation, quote, hi, rfl⟩ := Desk.step_saved hd
    exact .saved hi
  | close i =>
    simp only [Desk.step] at hd
    split at hd
    · rename_i sent affirmation hi
      obtain rfl := Option.some.inj hd
      exact .close hi
    · cases hd

/-- A fetch leaves the box as it is, or adds the vetted quote that it returns. -/
theorem fetch_cases [NumText] {turn : FetchTurn} {result : Option Quote}
    (h : s.fetch turn = some (result, s')) :
    result = none ∧ s' = s ∨
      ∃ q, result = some q ∧ (Vetted q ∧ q.affirmation = none) ∧
        s' = { s with quotes := addQuote q s.quotes } := by
  unfold fetch at h
  rcases fetchQuoteFromAnthropic_cases { turn with key := s.key } s.quotes with
    hnone | ⟨body, q, -, hq, hsome⟩
  · rw [hnone] at h
    obtain ⟨rfl, rfl⟩ := Prod.mk.inj (Option.some.inj h)
    exact Or.inl ⟨rfl, rfl⟩
  · rw [hsome] at h
    obtain ⟨rfl, rfl⟩ := Prod.mk.inj (Option.some.inj h)
    obtain ⟨text, -, -, hbuild⟩ := exists_text_of_accept hq
    exact Or.inr ⟨q, rfl, ⟨(acceptAnswer_eq_some hq).1, affirmation_of_buildQuote hbuild⟩, rfl⟩

theorem displayQuote_cases {i : ℕ} {shuffle : Shuffle String} {millis : ℕ}
    (h : s.displayQuote i shuffle millis = some s') :
    ∃ kind quote s₁ s₂, s.world.requests[i]? = some ⟨kind, .picked quote⟩ ∧
      s.resume i .display = some s₁ ∧ s₁.generateBackgroundImage quote shuffle millis = some s₂ ∧
      s' = s₂.fetchNextAIQuote := by
  unfold displayQuote at h
  split at h
  · rename_i kind quote hi
    obtain ⟨s₂, h₂, rfl⟩ := Option.map_eq_some_iff.mp h
    obtain ⟨s₁, h₁, h₂⟩ := Option.bind_eq_some_iff.mp h₂
    exact ⟨kind, quote, s₁, s₂, hi, h₁, h₂, rfl⟩
  · cases h

/-- A move on the screen. Before its display a request is only brought quotes of the box, or the AI
quote that was put there. -/
inductive Onstage (s : MotiAIApp) : AppMove → MotiAIApp → Prop
  | newQuote :
      Onstage s .newQuote
        { s with world := { s.world with requests := s.world.requests ++ [⟨.press, .starting⟩] } }
  | resumed {m i r s'} (hm : m.owner = some i) (hr : s.resume i r = some s') (hdisplay : r ≠ .display)
      (hanswer : ∀ q, r ≠ .answer (some q))
      (hread : ∀ stored useAI shuffle, r = .read stored useAI shuffle → stored = s.quotes) :
      Onstage s m s'
  | answered {i turn q s'} (hq : Vetted q ∧ q.affirmation = none)
      (hr : resume i (.answer (some q)) { s with quotes := addQuote q s.quotes } = some s') :
      Onstage s (.answer i turn) s'
  | displayed {i shuffle millis s'} (hs : s.displayQuote i shuffle millis = some s') :
      Onstage s (.display i shuffle millis) s'
  | fetched {turn fetches q} (hq : Vetted q ∧ q.affirmation = none) :
      Onstage s (.fetched turn) { s with quotes := addQuote q s.quotes, fetches := fetches }
  | refused {turn fetches} : Onstage s (.fetched turn) { s with fetches := fetches }
  | favorite {quote favorites} (hcurrent : s.screen.currentQuote = some quote)
      (hs : QuoteScreen.toggleFavorite quote s.favorites = some favorites) :
      Onstage s .toggleFavorite { s with favorites := favorites }
  | desk {m dm s'} (he : DeskEffect s dm s')
      (hanswer : ∀ i affirmation, dm = .answer i (some affirmation) →
        AffirmationService.Affirmed affirmation) :
      Onstage s m s'
  | forgotten {m affirmations}
      (hsub : ∀ (id : String) (v : StoredMap), affirmations[id]? = some v →
        s.affirmations[id]? = some v) :
      Onstage s m { s with affirmations := affirmations }
  | restarted {key stabilityKey service} (hs : s.service.step (.restart stabilityKey) = some service) :
      Onstage s (.restart key stabilityKey)
        { key := key
          quotes := initializeBoxes s.quotes
          favorites := s.favorites
          affirmations := (AffirmationService.reopen ⟨s.affirmations, s.quotes⟩).affirmations
          cachedAudio := s.cachedAudio
          service := service }

theorem onstage_of_step [NumText] {m : AppMove} (hm : m.isBackstage = false)
    (hs : s.step m = some s') : Onstage s m s' := by
  cases m with
  | newQuote =>
    obtain rfl := Option.some.inj hs
    exact .newQuote
  | start i => exact .resumed rfl hs (by simp) (by simp) (by simp)
  | answer i turn =>
    obtain ⟨⟨result, s₁⟩, hfetch, hresume⟩ := Option.bind_eq_some_iff.mp hs
    rcases fetch_cases hfetch with ⟨rfl, rfl⟩ | ⟨q, rfl, hq, rfl⟩
    · exact .resumed rfl hresume (by simp) (by simp) (by simp)
    · exact .answered hq hresume
  | read i shuffle =>
    refine .resumed rfl hs (by simp) (by simp) fun stored useAI shuffle' hr => ?_
    exact (Resume.read.inj hr).1.symm
  | display i shuffle millis => exact .displayed hs
  | fetched turn =>
    simp only [step] at hs
    split at hs
    · cases hs
    · obtain ⟨⟨result, s₁⟩, hfetch, rfl⟩ := Option.map_eq_some_iff.mp hs
      rcases fetch_cases hfetch with ⟨-, rfl⟩ | ⟨q, -, hq, rfl⟩
      · exact .refused
      · exact .fetched hq
  | toggleFavorite =>
    obtain ⟨quote, hcurrent, htoggle⟩ := Option.bind_eq_some_iff.mp hs
    obtain ⟨favorites, hfavorites, rfl⟩ := Option.map_eq_some_iff.mp htoggle
    exact .favorite hcurrent hfavorites
  | generateAffirmation => exact .desk (deskEffect_of_step (by simp) hs) (by simp)
  | affirmationAnswer i reply =>
    refine .desk (deskEffect_of_step (by simp) hs) fun j affirmation hm => ?_
    exact AffirmationService.affirmed_generateAffirmation (DeskMove.answer.inj hm).2
  | saveAffirmation i timestamp createdAt => exact .desk (deskEffect_of_step (by simp) hs) (by simp)
  | savedAffirmation i => exact .desk (deskEffect_of_step (by simp) hs) (by simp)
  | closeAffirmation i => exact .desk (deskEffect_of_step (by simp) hs) (by simp)
  | deleteAffirmation id =>
    obtain rfl := Option.some.inj hs
    refine .forgotten fun id' v hv => ?_
    rw [Box.getElem?_delete] at hv
    split at hv
    · cases hv
    · exact hv
  | clearAllAffirmations =>
    obtain rfl := Option.some.inj hs
    exact .forgotten fun id v hv => absurd hv Box.getElem?_empty_ne
  | restart key stabilityKey =>
    simp only [step] at hs
    obtain ⟨service, hservice, rfl⟩ := Option.map_eq_some_iff.mp hs
    exact .restarted hservice
  | _ => cases hm

/-- The audio and the background images are as they were. -/
structure Front (s s' : MotiAIApp) : Prop where
  service : s'.service = s.service
  sounds : s'.sounds = s.sounds
  cachedAudio : s'.cachedAudio = s.cachedAudio
  runs : s'.runs = s.runs
  screen : s'.screen = s.screen

omit [CaseMap] in
theorem Front.refl (s : MotiAIApp) : Front s s := ⟨rfl, rfl, rfl, rfl, rfl⟩

theorem front_of_resume {i : ℕ} {r : Resume} (hr : s.resume i r = some s') (hne : r ≠ .display) :
    Front s s' := by
  obtain ⟨world, hw, rfl⟩ := Option.map_eq_some_iff.mp hr
  obtain ⟨kind, stage, stage', session, -, hresume, rfl⟩ := World.step_resume hw
  rcases World.resume_cases hresume with ⟨rfl, -⟩ | ⟨quote, rfl, -⟩
  · exact ⟨rfl, rfl, rfl, rfl, rfl⟩
  · exact absurd rfl hne

/-- On the screen only a display and a restart touch the audio and the background images. -/
theorem front_of_onstage {m : AppMove} (h : Onstage s m s') :
    Front s s' ∨ (∃ i shuffle millis, m = .display i shuffle millis ∧
      s.displayQuote i shuffle millis = some s') ∨
    ∃ key stabilityKey service, m = .restart key stabilityKey ∧
      s.service.step (.restart stabilityKey) = some service ∧
      s'.service = service ∧ s'.sounds = {} ∧ s'.cachedAudio = s.cachedAudio ∧ s'.runs = [] ∧
      s'.screen = {} := by
  cases h with
  | resumed hm hr hdisplay => exact Or.inl (front_of_resume hr hdisplay)
  | answered hq hr =>
    have hfront := front_of_resume hr (by simp)
    exact Or.inl ⟨hfront.service, hfront.sounds, hfront.cachedAudio, hfront.runs, hfront.screen⟩
  | displayed hs => exact Or.inr (Or.inl ⟨_, _, _, rfl, hs⟩)
  | desk he =>
    refine Or.inl ?_
    cases he <;> exact ⟨rfl, rfl, rfl, rfl, rfl⟩
  | restarted hs => exact Or.inr (Or.inr ⟨_, _, _, rfl, hs, rfl, rfl, rfl, rfl, rfl⟩)
  | _ => exact Or.inl ⟨rfl, rfl, rfl, rfl, rfl⟩

end

end MotiAIApp

end MotiAI
