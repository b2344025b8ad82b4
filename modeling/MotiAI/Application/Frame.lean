import MotiAI.Application.Step

/-!
# What a move leaves alone

The audio, the background images and the prefetches go on behind the screen: they change neither the
quotes, the favorites and the affirmations nor the requests and what was displayed.

`backstage_step`: so do all the moves that only concern them.
-/

namespace MotiAI

open Dart Hive HiveQuoteService

/-! ## The two ends of a run for a background image -/

namespace Background

/-- A run shows the image stored under a key of its tradition, or asks for a new one. -/
inductive LookedUp [CaseMap] (quote : Quote) (millis : ℕ) (d : Background) :
    Option String → Background → Prop
  | stored {key image : String} {shown : Finset String} (hkey : key ∈ allImageKeys quote.tradition)
      (himage : getStoredImage key d.cachedImages = some (some image)) :
      LookedUp quote millis d none
        (showStored quote key image
          { d with screen := { d.screen with shownImageKeys := shown } })
  | missing {shown : Finset String} :
      LookedUp quote millis d (some (imagePrompt quote millis))
        { d with screen := { d.screen with shownImageKeys := shown } }

theorem lookedUp_of_lookUp [CaseMap] {quote : Quote} {shuffle : Shuffle String} {millis : ℕ}
    {d d' : Background} {prompt : Option String}
    (h : lookUp quote shuffle millis d = some (prompt, d')) :
    LookedUp quote millis d prompt d' := by
  unfold lookUp at h
  dsimp only at h
  split at h
  · cases h
  · rename_i key hkey
    split at h
    · cases h
    · rename_i image himage
      obtain ⟨rfl, rfl⟩ := Prod.mk.inj (Option.some.inj h)
      exact .stored (mem_allImageKeys_of_select hkey) himage
    · obtain ⟨rfl, rfl⟩ := Prod.mk.inj (Option.some.inj h)
      exact .missing

/-- A run with its image has it stored and shown, unless it is the fallback photo. -/
theorem receive_image_cases {quote : Quote} {url : String} {d d' : Background}
    (h : receive quote (.image url) d = some d') :
    (contains url "unsplash.com" = true ∧
      d' = { d with screen := { d.screen with backgroundImageUrl := none } }) ∨
    (contains url "unsplash.com" = false ∧
      d' = { d with
        screen := { d.screen with backgroundImageUrl := some url }
        cachedImages := storeGeneratedImage quote.id url d.cachedImages }) := by
  simp only [receive] at h
  split at h
  · rename_i hfallback
    exact Or.inl ⟨hfallback, (Option.some.inj h).symm⟩
  · rename_i hfallback
    exact Or.inr ⟨Bool.eq_false_iff.mpr hfallback, (Option.some.inj h).symm⟩

end Background

open Background

namespace MotiAIApp

/-- Nothing has changed but the audio, the background images and how far their runs are. -/
structure Backstage (s s' : MotiAIApp) : Prop where
  quotes : s'.quotes = s.quotes
  favorites : s'.favorites = s.favorites
  affirmations : s'.affirmations = s.affirmations
  desk : s'.desk = s.desk
  fetches : s'.fetches = s.fetches
  requests : s'.world.requests = s.world.requests
  displayed : s'.world.session.displayed = s.world.session.displayed
  currentQuote : s'.screen.currentQuote = s.screen.currentQuote
  recentTraditions : s'.screen.recentTraditions = s.screen.recentTraditions
  runs : ∀ run' ∈ s'.runs, ∃ run ∈ s.runs, run.quote = run'.quote

variable {s s' s'' : MotiAIApp}

theorem Backstage.refl (s : MotiAIApp) : Backstage s s :=
  ⟨rfl, rfl, rfl, rfl, rfl, rfl, rfl, rfl, rfl, fun run h => ⟨run, h, rfl⟩⟩

theorem Backstage.trans (h : Backstage s s') (h' : Backstage s' s'') : Backstage s s'' where
  quotes := h'.quotes.trans h.quotes
  favorites := h'.favorites.trans h.favorites
  affirmations := h'.affirmations.trans h.affirmations
  desk := h'.desk.trans h.desk
  fetches := h'.fetches.trans h.fetches
  requests := h'.requests.trans h.requests
  displayed := h'.displayed.trans h.displayed
  currentQuote := h'.currentQuote.trans h.currentQuote
  recentTraditions := h'.recentTraditions.trans h.recentTraditions
  runs := by
    intro run'' hrun''
    obtain ⟨run', hrun', heq'⟩ := h'.runs run'' hrun''
    obtain ⟨run, hrun, heq⟩ := h.runs run' hrun'
    exact ⟨run, hrun, heq.trans heq'⟩

/-- A run goes on. -/
theorem Backstage.set (h : Backstage s s') {i : ℕ} {quote : Quote} {stage stage' : ScreenStage}
    (hi : s.runs[i]? = some ⟨quote, stage⟩) :
    Backstage s { s' with runs := s.runs.set i ⟨quote, stage'⟩ } where
  quotes := h.quotes
  favorites := h.favorites
  affirmations := h.affirmations
  desk := h.desk
  fetches := h.fetches
  requests := h.requests
  displayed := h.displayed
  currentQuote := h.currentQuote
  recentTraditions := h.recentTraditions
  runs := by
    intro run hrun
    rcases List.mem_or_eq_of_mem_set hrun with hrun | rfl
    · exact ⟨run, hrun, rfl⟩
    · exact ⟨_, List.mem_of_getElem? hi, rfl⟩

theorem backstage_setScreen {screen : QuoteScreen}
    (h : screen.currentQuote = s.screen.currentQuote)
    (h' : screen.recentTraditions = s.screen.recentTraditions) :
    Backstage s (s.setScreen screen) :=
  ⟨rfl, rfl, rfl, rfl, rfl, rfl, rfl, h, h', fun run hrun => ⟨run, hrun, rfl⟩⟩

theorem backstage_setBackground {d : Background}
    (h : d.screen.currentQuote = s.screen.currentQuote)
    (h' : d.screen.recentTraditions = s.screen.recentTraditions) :
    Backstage s (s.setBackground d) :=
  ⟨rfl, rfl, rfl, rfl, rfl, rfl, rfl, h, h', fun run hrun => ⟨run, hrun, rfl⟩⟩

theorem quote_settle (j : ℕ) (returned : Option (String × String)) (run : ScreenRun) :
    (run.settle j returned).quote = run.quote := by
  unfold ScreenRun.settle
  split
  · split <;> rfl
  · rfl

section

variable [CaseMap]

theorem backstage_issue {call : Calls.Call} (h : s.issue call = some s') : Backstage s s' := by
  obtain ⟨sounds, -, rfl⟩ := Option.map_eq_some_iff.mp h
  exact ⟨rfl, rfl, rfl, rfl, rfl, rfl, rfl, rfl, rfl, fun run hrun => ⟨run, hrun, rfl⟩⟩

theorem backstage_lookUp {quote : Quote} {shuffle : Shuffle String} {millis : ℕ}
    {stage : ScreenStage} (h : s.lookUp quote shuffle millis = some (stage, s')) :
    Backstage s s' := by
  have hset : ∀ {prompt : Option String} {d : Background},
      Background.lookUp quote shuffle millis s.background = some (prompt, d) →
        Backstage s (s.setBackground d) := by
    intro prompt d hd
    cases lookedUp_of_lookUp hd with
    | stored _ _ => exact backstage_setBackground rfl rfl
    | missing => exact backstage_setBackground rfl rfl
  unfold lookUp at h
  split at h
  · cases h
  · rename_i d hd
    obtain ⟨-, rfl⟩ := Prod.mk.inj (Option.some.inj h)
    exact hset hd
  · rename_i prompt d hd
    obtain ⟨service, -, heq⟩ := Option.map_eq_some_iff.mp h
    obtain ⟨-, rfl⟩ := Prod.mk.inj heq
    exact (hset hd).trans
      ⟨rfl, rfl, rfl, rfl, rfl, rfl, rfl, rfl, rfl, fun run hrun => ⟨run, hrun, rfl⟩⟩

/-- A run for a quote begins. -/
theorem generateBackgroundImage_spec {quote : Quote} {shuffle : Shuffle String} {millis : ℕ}
    (h : s.generateBackgroundImage quote shuffle millis = some s') :
    ∃ s₁ stage, Backstage s s₁ ∧ s' = { s₁ with runs := s.runs ++ [⟨quote, stage⟩] } := by
  unfold generateBackgroundImage at h
  dsimp only at h
  have hreset : Backstage s (s.setScreen { s.screen with backgroundImageUrl := none }) :=
    backstage_setScreen rfl rfl
  split at h
  · obtain ⟨s₁, hs₁, rfl⟩ := Option.map_eq_some_iff.mp h
    exact ⟨s₁, _, hreset.trans (backstage_issue hs₁), rfl⟩
  · obtain ⟨⟨stage, s₁⟩, hs₁, rfl⟩ := Option.map_eq_some_iff.mp h
    exact ⟨s₁, stage, hreset.trans (backstage_lookUp hs₁), rfl⟩

theorem backstage_serve {j : ℕ} {m : ImageMove} (h : s.serve j m = some s') : Backstage s s' := by
  obtain ⟨service, -, rfl⟩ := Option.map_eq_some_iff.mp h
  refine ⟨rfl, rfl, rfl, rfl, rfl, rfl, rfl, rfl, rfl, fun run' hrun' => ?_⟩
  obtain ⟨run, hrun, rfl⟩ := List.mem_map.mp hrun'
  exact ⟨run, hrun, (quote_settle j _ run).symm⟩

theorem backstage_toggleAudio (h : s.toggleAudio = some s') : Backstage s s' := by
  unfold toggleAudio at h
  dsimp only at h
  have hswitch : Backstage s
      (s.setScreen { s.screen with isAudioEnabled := !s.screen.isAudioEnabled }) :=
    backstage_setScreen rfl rfl
  split at h
  · split at h
    · exact hswitch.trans (backstage_issue h)
    · obtain rfl := Option.some.inj h
      exact hswitch
  · exact hswitch.trans (backstage_issue h)

end

/-! ## The moves behind the screen -/

end MotiAIApp

/-- The move concerns the audio, a background image or a prefetch. -/
def AppMove.isBackstage : AppMove → Bool
  | .toggleAIQuotes | .toggleAudio | .sound _ _ _ | .timerTick _ | .ambiencePlayed _ _ _ => true
  | .imageRead _ _ | .imageAnswer _ _ _ _ | .tick _ | .generated _ => true
  | .prefetchImage _ _ | .preGenerated _ _ => true
  | _ => false

namespace MotiAIApp

variable {s s' : MotiAIApp}

/-- **Behind the screen** nothing changes what the user keeps. -/
theorem backstage_step [CaseMap] [NumText] {m : AppMove} (hm : m.isBackstage = true)
    (hs : s.step m = some s') : Backstage s s' := by
  have hkeep : ∀ {s₁ : MotiAIApp}, s₁.quotes = s.quotes → s₁.favorites = s.favorites →
      s₁.affirmations = s.affirmations → s₁.desk = s.desk → s₁.fetches = s.fetches →
      s₁.world = s.world → s₁.runs = s.runs → Backstage s s₁ := by
    intro s₁ hquotes hfavorites haffirmations hdesk hfetches hworld hruns
    refine ⟨hquotes, hfavorites, haffirmations, hdesk, hfetches, ?_, ?_, ?_, ?_, ?_⟩
    · rw [hworld]
    · rw [hworld]
    · unfold screen
      rw [hworld]
    · unfold screen
      rw [hworld]
    · rw [hruns]
      exact (Backstage.refl s).runs
  cases m with
  | toggleAIQuotes =>
    obtain rfl := Option.some.inj hs
    exact hkeep rfl rfl rfl rfl rfl rfl rfl
  | toggleAudio => exact backstage_toggleAudio hs
  | sound i picks decodeFails =>
    obtain ⟨sounds, -, rfl⟩ := Option.map_eq_some_iff.mp hs
    exact hkeep rfl rfl rfl rfl rfl rfl rfl
  | timerTick f =>
    simp only [step] at hs
    split at hs
    · obtain rfl := Option.some.inj hs
      exact hkeep rfl rfl rfl rfl rfl rfl rfl
    · cases hs
  | ambiencePlayed i shuffle millis =>
    simp only [step] at hs
    split at hs
    · rename_i quote k hi
      split at hs
      · obtain ⟨⟨stage, s₁⟩, hs₁, rfl⟩ := Option.map_eq_some_iff.mp hs
        exact (backstage_lookUp hs₁).set hi
      · cases hs
    · cases hs
  | imageRead j readable => exact backstage_serve hs
  | imageAnswer j reply millis writable => exact backstage_serve hs
  | tick duration =>
    obtain rfl := Option.some.inj hs
    exact hkeep rfl rfl rfl rfl rfl rfl rfl
  | generated i =>
    simp only [step] at hs
    split at hs
    · rename_i quote url hi
      obtain ⟨d, hd, rfl⟩ := Option.map_eq_some_iff.mp hs
      have hb : Backstage s (s.setBackground d) := by
        rcases receive_image_cases hd with ⟨-, rfl⟩ | ⟨-, rfl⟩
        · exact backstage_setBackground rfl rfl
        · exact backstage_setBackground rfl rfl
      exact hb.set hi
    · cases hs
  | prefetchImage tradition i =>
    simp only [step] at hs
    split at hs
    · obtain ⟨service, -, rfl⟩ := Option.map_eq_some_iff.mp hs
      exact hkeep rfl rfl rfl rfl rfl rfl rfl
    · cases hs
  | preGenerated audioId audioData =>
    simp only [step] at hs
    split at hs
    · obtain rfl := Option.some.inj hs
      exact hkeep rfl rfl rfl rfl rfl rfl rfl
    · cases hs
  | _ => cases hm

end MotiAIApp

end MotiAI
