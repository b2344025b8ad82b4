import MotiAI.Application.Held

/-!
# The background images of the application

The screen looks for a stored image under the keys of a tradition, and stores its images under the
ids of quotes. Only a stored image that is found starts the background prefetch.

`illustrated_run`: from a fresh installation on no lookup ever finds an image, so the prefetch never
starts; and the images that are stored and shown are AI images.
-/

namespace MotiAI

open Dart Hive HiveQuoteService StabilityAI Background

/-- An AI image, or a photo of the fallback. -/
def Sourced (url : String) : Prop := isAIImage url = true ∨ contains url "unsplash.com" = true

theorem Sourced.isAIImage {url : String} (h : Sourced url)
    (hphoto : contains url "unsplash.com" = false) : isAIImage url = true := by
  rcases h with h | h
  · exact h
  · rw [hphoto] at h
    cases h

/-! ## The image service -/

namespace ImageCalls

/-- The service remembers images and photos only, and no prefetch goes on. -/
structure Drawing (s : ImageCalls) : Prop where
  memory : ∀ (cacheKey image : String), s.images.imageCache[cacheKey]? = some image → Sourced image
  calls : ∀ call ∈ s.calls, ∀ quoteId, call.stage ≠ .prefetching quoteId

variable [CaseMap] {s s' : ImageCalls} {m : ImageMove}

theorem sourced_generateNewImage (key : EnvEntry) (prompt : String) (reply : Reply (Option Plain))
    (millis : ℕ) : Sourced (generateNewImage key prompt reply millis) := by
  by_cases h : Succeeds key reply
  · exact Or.inl (isAIImage_generateNewImage.mpr h)
  · obtain ⟨id, hid⟩ := exists_photo_of_not_succeeds h prompt millis
    rw [hid]
    exact Or.inr (contains_photo id)

theorem Written.sourced {cacheKey image : String} (h : Written s m cacheKey image) :
    Sourced image := by
  cases h with
  | @file j readable prompt _ hj hfile =>
    unfold Images.getCachedImageFromStorage at hfile
    split at hfile
    · obtain ⟨bytes, -, rfl⟩ := Option.map_eq_some_iff.mp hfile
      exact Or.inl (isAIImage_data _)
    · cases hfile
  | new hj => exact sourced_generateNewImage _ _ _ _
  | prefetched hj hphoto => exact sourced_generateNewImage _ _ _ _

/-- Without a new prefetch, no prefetch goes on and none writes the box of images. -/
theorem Drawing.calls_step (h : Drawing s) (hs : s.step m = some s')
    (hm : ∀ tradition i, m ≠ .prefetch tradition i) :
    (∀ call ∈ s'.calls, ∀ quoteId, call.stage ≠ .prefetching quoteId) ∧
      s'.cachedImages = s.cachedImages := by
  have hset : ∀ {j : ℕ} {call' : ImageCall}, (∀ quoteId, call'.stage ≠ .prefetching quoteId) →
      ∀ call ∈ s.calls.set j call', ∀ quoteId, call.stage ≠ .prefetching quoteId := by
    intro j call' hcall' call hcall
    rcases List.mem_or_eq_of_mem_set hcall with hcall | rfl
    · exact h.calls call hcall
    · exact hcall'
  have hconcat : ∀ {prompt : String}, ∀ call ∈ s.calls ++ [⟨prompt, .reading⟩],
      ∀ quoteId, call.stage ≠ .prefetching quoteId := by
    intro prompt call hcall
    rcases List.mem_append.mp hcall with hcall | hcall
    · exact h.calls call hcall
    · obtain rfl := List.mem_singleton.mp hcall
      rintro quoteId ⟨⟩
  cases m with
  | tick duration =>
    obtain rfl := Option.some.inj hs
    exact ⟨h.calls, rfl⟩
  | ask prompt =>
    simp only [step] at hs
    split at hs
    · split at hs
      · obtain rfl := Option.some.inj hs
        exact ⟨h.calls, rfl⟩
      · obtain rfl := Option.some.inj hs
        exact ⟨hconcat, rfl⟩
    · obtain rfl := Option.some.inj hs
      exact ⟨hconcat, rfl⟩
  | read j readable =>
    simp only [step] at hs
    split at hs
    · split at hs
      · obtain rfl := Option.some.inj hs
        exact ⟨hset (by simp), rfl⟩
      · obtain rfl := Option.some.inj hs
        exact ⟨hset (by simp), rfl⟩
    · cases hs
  | prefetch tradition i => exact absurd rfl (hm tradition i)
  | answer j reply millis writable =>
    simp only [step] at hs
    split at hs
    · obtain rfl := Option.some.inj hs
      exact ⟨hset (by simp), rfl⟩
    · rename_i prompt quoteId hj
      exact absurd rfl (h.calls _ (List.mem_of_getElem? hj) quoteId)
    · cases hs
  | restart key =>
    obtain rfl := Option.some.inj hs
    exact ⟨fun call hcall => absurd hcall List.not_mem_nil, rfl⟩

theorem Drawing.step (h : Drawing s) (hs : s.step m = some s')
    (hm : ∀ tradition i, m ≠ .prefetch tradition i) : Drawing s' := by
  refine ⟨fun cacheKey image himage => ?_, (h.calls_step hs hm).1⟩
  rcases entry_step hs himage with ⟨hold, -⟩ | ⟨hw, -⟩
  · exact h.memory cacheKey image hold
  · exact hw.sourced

theorem Drawing.returned (h : Drawing s) (hs : s.step m = some s') {cacheKey image : String}
    (hreturned : s'.returned = some (cacheKey, image)) : Sourced image := by
  rcases (returned_step hs hreturned).2 with ⟨hmem, -⟩ | hw
  · exact h.memory cacheKey image hmem
  · exact hw.sourced

end ImageCalls

/-! ## The keys -/

/-- The keys that are looked up begin with a backslash, and no id of a quote does. -/
theorem Stock.imageKey_notMem [CaseMap] {b : Box Val} (h : Stock b) {tradition key : String}
    (hkey : key ∈ allImageKeys tradition) : key ∉ b := by
  obtain ⟨i, -, rfl⟩ := List.mem_map.mp hkey
  have hhead : (imageKey tradition i).toList.head? = some '\\' := by
    unfold imageKey
    rw [String.append_assoc, String.append_assoc, String.toList_append]
    rfl
  intro hmem
  obtain ⟨v, hv⟩ := Option.isSome_iff_exists.mp (Std.ExtTreeMap.mem_iff_isSome_getElem?.mp hmem)
  obtain ⟨q, rfl, hid⟩ := h.wellTyped _ v hv
  rcases h.genuine _ q hv with ⟨q₀, hq₀, affirmation, rfl⟩ | hq
  · have hall : ((initialQuotes.map Quote.id).all fun id => id.toList.head? != some '\\') = true := by
      decide +kernel
    have hinitial := List.all_eq_true.mp hall _ (List.mem_map_of_mem hq₀)
    rw [show q₀.id = imageKey tradition i from hid, hhead] at hinitial
    cases hinitial
  · have hai := hq.ai
    rw [hid, startsWith_iff] at hai
    obtain ⟨rest, hrest⟩ := hai
    rw [← hrest] at hhead
    exact absurd hhead (by simp)

/-! ## The application -/

namespace MotiAIApp

/-- The prefetch has not been started, and all images are where they should be. -/
structure Illustrated (s : MotiAIApp) : Prop where
  notStarted : s.screen.backgroundPrefetchStarted = false
  cached : ∀ (id : String) (v : Val), s.service.cachedImages[id]? = some v →
    id ∈ s.quotes ∧ ∃ url, v = .str url ∧ isAIImage url = true
  drawing : s.service.Drawing
  answered : ∀ run ∈ s.runs, ∀ url, run.stage = .answered url → Sourced url
  background : ∀ url, s.screen.backgroundImageUrl = some url → isAIImage url = true

theorem illustrated_installed (key stabilityKey : EnvEntry) :
    Illustrated (installed key stabilityKey) where
  notStarted := rfl
  cached := fun id v h => absurd h Box.getElem?_empty_ne
  drawing :=
    ⟨fun cacheKey image h => absurd h Box.getElem?_empty_ne, fun call h => absurd h List.not_mem_nil⟩
  answered := fun run h => absurd h List.not_mem_nil
  background := fun url h => by cases h

section

variable {s s' : MotiAIApp}

/-- What concerns neither the images nor the screen. -/
theorem Illustrated.congr (h : Illustrated s) (hquotes : ∀ id ∈ s.quotes, id ∈ s'.quotes)
    (hservice : s'.service = s.service) (hruns : s'.runs = s.runs)
    (hstarted : s'.screen.backgroundPrefetchStarted = s.screen.backgroundPrefetchStarted)
    (himage : s'.screen.backgroundImageUrl = s.screen.backgroundImageUrl) : Illustrated s' where
  notStarted := hstarted.trans h.notStarted
  cached := by
    rw [hservice]
    exact fun id v hv => ⟨hquotes id (h.cached id v hv).1, (h.cached id v hv).2⟩
  drawing := by
    rw [hservice]
    exact h.drawing
  answered := by
    rw [hruns]
    exact h.answered
  background := by
    rw [himage]
    exact h.background

theorem Illustrated.setRuns (h : Illustrated s) {runs : List ScreenRun}
    (hruns : ∀ run ∈ runs, ∀ url, run.stage = .answered url → Sourced url) :
    Illustrated { s with runs := runs } :=
  ⟨h.notStarted, h.cached, h.drawing, hruns, h.background⟩

variable [CaseMap]

/-- **No stored image is found.** -/
theorem Illustrated.getStoredImage (h : Illustrated s) (hstock : Stock s.quotes)
    {tradition key : String} (hkey : key ∈ allImageKeys tradition) :
    getStoredImage key s.service.cachedImages = some none := by
  have hnone : s.service.cachedImages[key]? = none := by
    by_contra hsome
    obtain ⟨v, hv⟩ := Option.ne_none_iff_exists'.mp hsome
    exact hstock.imageKey_notMem hkey (h.cached key v hv).1
  unfold HiveQuoteService.getStoredImage
  rw [hnone]

theorem Illustrated.issue (h : Illustrated s) {call : Calls.Call} (hs : s.issue call = some s') :
    Illustrated s' := by
  obtain ⟨sounds, -, rfl⟩ := Option.map_eq_some_iff.mp hs
  exact h.congr (fun _ hid => hid) rfl rfl rfl rfl

theorem Illustrated.lookUp (h : Illustrated s) (hstock : Stock s.quotes) {quote : Quote}
    {shuffle : Shuffle String} {millis : ℕ} {stage : ScreenStage}
    (hs : s.lookUp quote shuffle millis = some (stage, s')) :
    Illustrated s' ∧ s'.runs = s.runs ∧ ∀ url, stage = .answered url → Sourced url := by
  unfold MotiAIApp.lookUp at hs
  split at hs
  · cases hs
  · rename_i d hd
    generalize hprompt : (none : Option String) = prompt at hd
    cases lookedUp_of_lookUp hd with
    | stored hkey himage =>
      rw [show s.background.cachedImages = s.service.cachedImages from rfl,
        h.getStoredImage hstock hkey] at himage
      cases himage
    | missing => cases hprompt
  · rename_i prompt d hd
    generalize hprompt : some prompt = prompt' at hd
    cases lookedUp_of_lookUp hd with
    | stored hkey himage => cases hprompt
    | @missing shown =>
      obtain ⟨service, hservice, heq⟩ := Option.map_eq_some_iff.mp hs
      obtain ⟨rfl, rfl⟩ := Prod.mk.inj heq
      replace hservice : s.service.step (.ask prompt) = some service := hservice
      have hdrawing := h.drawing.step hservice (by simp)
      have hcached := (h.drawing.calls_step hservice (by simp)).2
      refine ⟨⟨h.notStarted, ?_, hdrawing, h.answered, h.background⟩, rfl, fun url hurl => ?_⟩
      · show ∀ (id : String) (v : Val), service.cachedImages[id]? = some v → _
        rw [hcached]
        exact h.cached
      · split at hurl
        · rename_i cacheKey image hreturned
          obtain rfl := ScreenStage.answered.inj hurl
          exact h.drawing.returned hservice hreturned
        · cases hurl

theorem Illustrated.generateBackgroundImage (h : Illustrated s) (hstock : Stock s.quotes)
    {quote : Quote} {shuffle : Shuffle String} {millis : ℕ}
    (hs : s.generateBackgroundImage quote shuffle millis = some s') : Illustrated s' := by
  unfold MotiAIApp.generateBackgroundImage at hs
  dsimp only at hs
  have hreset : Illustrated (s.setScreen { s.screen with backgroundImageUrl := none }) :=
    ⟨h.notStarted, h.cached, h.drawing, h.answered, fun url hurl => by cases hurl⟩
  split at hs
  · obtain ⟨s₁, hs₁, rfl⟩ := Option.map_eq_some_iff.mp hs
    refine (hreset.issue hs₁).setRuns fun run hrun url hstage => ?_
    rcases List.mem_append.mp hrun with hrun | hrun
    · exact h.answered run hrun url hstage
    · obtain rfl := List.mem_singleton.mp hrun
      cases hstage
  · obtain ⟨⟨stage, s₁⟩, hs₁, rfl⟩ := Option.map_eq_some_iff.mp hs
    obtain ⟨h₁, -, hstage₁⟩ := hreset.lookUp hstock hs₁
    refine h₁.setRuns fun run hrun url hstage => ?_
    rcases List.mem_append.mp hrun with hrun | hrun
    · exact h.answered run hrun url hstage
    · obtain rfl := List.mem_singleton.mp hrun
      exact hstage₁ url hstage

/-- A display leaves the quotes and the images to the run that it begins. -/
theorem Illustrated.display (h : Illustrated s) {i : ℕ} (hs : s.resume i .display = some s') :
    Illustrated s' := by
  obtain ⟨world, hw, rfl⟩ := Option.map_eq_some_iff.mp hs
  obtain ⟨kind, stage, stage', session, -, hresume, rfl⟩ := World.step_resume hw
  have hscreen : session.screen.backgroundPrefetchStarted = s.screen.backgroundPrefetchStarted ∧
      session.screen.backgroundImageUrl = s.screen.backgroundImageUrl := by
    cases World.resumes_of_resume hresume with
    | display quote => cases kind <;> exact ⟨rfl, rfl⟩
  exact h.congr (fun _ hid => hid) rfl rfl hscreen.1 hscreen.2

theorem Illustrated.displayQuote (h : Illustrated s) (hstock : Stock s.quotes) {i : ℕ}
    {shuffle : Shuffle String} {millis : ℕ} (hs : s.displayQuote i shuffle millis = some s') :
    Illustrated s' := by
  obtain ⟨kind, quote, s₁, s₂, -, h₁, h₂, rfl⟩ := displayQuote_cases hs
  have hquotes := quotes_resume h₁
  have hill₁ := h.display h₁
  have hill₂ := hill₁.generateBackgroundImage (by rwa [hquotes]) h₂
  unfold fetchNextAIQuote
  split
  · exact hill₂.congr (fun _ hid => hid) rfl rfl rfl rfl
  · exact hill₂

theorem Illustrated.serve (h : Illustrated s) {j : ℕ} {m : ImageMove}
    (hm : ∀ tradition i, m ≠ .prefetch tradition i) (hs : s.serve j m = some s') :
    Illustrated s' := by
  obtain ⟨service, hservice, rfl⟩ := Option.map_eq_some_iff.mp hs
  refine ⟨h.notStarted, ?_, h.drawing.step hservice hm, fun run' hrun' url hstage => ?_,
    h.background⟩
  · show ∀ (id : String) (v : Val), service.cachedImages[id]? = some v → _
    rw [(h.drawing.calls_step hservice hm).2]
    exact h.cached
  · obtain ⟨run, hrun, rfl⟩ := List.mem_map.mp hrun'
    unfold ScreenRun.settle at hstage
    split at hstage
    · rename_i k cacheKey image hgenerating hreturned
      split at hstage
      · obtain rfl := ScreenStage.answered.inj hstage
        exact h.drawing.returned hservice hreturned
      · exact h.answered run hrun url hstage
    · exact h.answered run hrun url hstage

omit [CaseMap] in
/-- A run that has its image stores it under the id of its quote. -/
theorem Illustrated.generated (h : Illustrated s) {i : ℕ} {quote : Quote} {url : String}
    (hi : s.runs[i]? = some ⟨quote, .answered url⟩) (hquote : quote.id ∈ s.quotes)
    {d : Background} (hd : receive quote (.image url) s.background = some d) :
    Illustrated { s.setBackground d with runs := s.runs.set i ⟨quote, .done⟩ } := by
  have hruns : ∀ run ∈ s.runs.set i ⟨quote, .done⟩, ∀ url, run.stage = .answered url →
      Sourced url := by
    intro run hrun url' hstage
    rcases List.mem_or_eq_of_mem_set hrun with hrun | rfl
    · exact h.answered run hrun url' hstage
    · cases hstage
  have hsourced : Sourced url := h.answered _ (List.mem_of_getElem? hi) url rfl
  rcases receive_image_cases hd with ⟨-, rfl⟩ | ⟨hphoto, rfl⟩
  · refine ⟨h.notStarted, h.cached, ⟨h.drawing.memory, h.drawing.calls⟩, hruns, fun url' hurl => ?_⟩
    cases hurl
  · refine ⟨h.notStarted, fun id v hv => ?_, ⟨h.drawing.memory, h.drawing.calls⟩, hruns,
      fun url' hurl => ?_⟩
    · replace hv : (s.service.cachedImages.insert quote.id (.str url))[id]? = some v := hv
      rw [Box.getElem?_put] at hv
      split at hv
      · rename_i hid
        obtain rfl := Option.some.inj hv
        rw [← hid]
        exact ⟨hquote, url, rfl, hsourced.isAIImage hphoto⟩
      · exact h.cached id v hv
    · obtain rfl := Option.some.inj hurl
      exact hsourced.isAIImage hphoto

/-- Behind the screen. -/
theorem Illustrated.backstage [NumText] (h : Illustrated s) (hstocked : Stocked s) {m : AppMove}
    (hm : m.isBackstage = true) (hs : s.step m = some s') : Illustrated s' := by
  cases m with
  | toggleAIQuotes =>
    obtain rfl := Option.some.inj hs
    exact h.congr (fun _ hid => hid) rfl rfl rfl rfl
  | toggleAudio =>
    have hswitch : Illustrated
        (s.setScreen { s.screen with isAudioEnabled := !s.screen.isAudioEnabled }) :=
      ⟨h.notStarted, h.cached, h.drawing, h.answered, h.background⟩
    simp only [MotiAIApp.step, MotiAIApp.toggleAudio] at hs
    split at hs
    · split at hs
      · exact hswitch.issue hs
      · obtain rfl := Option.some.inj hs
        exact hswitch
    · exact hswitch.issue hs
  | sound i picks decodeFails =>
    simp only [MotiAIApp.step] at hs
    obtain ⟨sounds, -, rfl⟩ := Option.map_eq_some_iff.mp hs
    exact h.congr (fun _ hid => hid) rfl rfl rfl rfl
  | timerTick f =>
    simp only [MotiAIApp.step] at hs
    split at hs
    · obtain rfl := Option.some.inj hs
      exact h.congr (fun _ hid => hid) rfl rfl rfl rfl
    · cases hs
  | ambiencePlayed i shuffle millis =>
    simp only [MotiAIApp.step] at hs
    split at hs
    · split at hs
      · obtain ⟨⟨stage, s₁⟩, hs₁, rfl⟩ := Option.map_eq_some_iff.mp hs
        obtain ⟨h₁, -, hstage₁⟩ := h.lookUp hstocked.stock hs₁
        refine h₁.setRuns fun run hrun url hstage => ?_
        rcases List.mem_or_eq_of_mem_set hrun with hrun | rfl
        · exact h.answered run hrun url hstage
        · exact hstage₁ url hstage
      · cases hs
    · cases hs
  | imageRead j readable => exact h.serve (by simp) hs
  | imageAnswer j reply millis writable => exact h.serve (by simp) hs
  | tick duration =>
    obtain rfl := Option.some.inj hs
    exact ⟨h.notStarted, h.cached, ⟨h.drawing.memory, h.drawing.calls⟩, h.answered, h.background⟩
  | generated i =>
    simp only [MotiAIApp.step] at hs
    split at hs
    · rename_i quote url hi
      obtain ⟨d, hd, rfl⟩ := Option.map_eq_some_iff.mp hs
      exact h.generated hi (hstocked.held.runs _ (List.mem_of_getElem? hi)).stored hd
    · cases hs
  | prefetchImage tradition i =>
    simp only [MotiAIApp.step, h.notStarted, Bool.false_eq_true, if_false] at hs
    cases hs
  | preGenerated audioId audioData =>
    simp only [MotiAIApp.step, h.notStarted, Bool.false_eq_true, if_false] at hs
    cases hs
  | _ => cases hm

theorem Illustrated.step [NumText] (h : Illustrated s) (hstocked : Stocked s) {m : AppMove}
    (hs : s.step m = some s') : Illustrated s' := by
  cases hm : m.isBackstage with
  | true => exact h.backstage hstocked hm hs
  | false =>
    have hquotes : ∀ id ∈ s.quotes, id ∈ s'.quotes := fun _ hid =>
      hstocked.stock.mem_of_effect (quotesEffect_step hs) hid
    rcases front_of_onstage (onstage_of_step hm hs) with hfront |
      ⟨i, shuffle, millis, -, hdisplay⟩ |
      ⟨key, stabilityKey, service, -, hservice, rfl, -, -, hruns, hscreen⟩
    · exact h.congr hquotes hfront.service hfront.runs
        (by rw [hfront.screen]) (by rw [hfront.screen])
    · exact h.displayQuote hstocked.stock hdisplay
    · refine ⟨by rw [hscreen], ?_, h.drawing.step hservice (by simp), ?_, ?_⟩
      · rw [(h.drawing.calls_step hservice (by simp)).2]
        exact fun id v hv => ⟨hquotes id (h.cached id v hv).1, (h.cached id v hv).2⟩
      · rw [hruns]
        exact fun run hrun => absurd hrun List.not_mem_nil
      · rw [hscreen]
        rintro url ⟨⟩

/-- What is expected of the images after a move. -/
structure Pictured (m : AppMove) (s : MotiAIApp) : Prop where
  notStarted : s.screen.backgroundPrefetchStarted = false
  notFound : ∀ tradition, ∀ key ∈ allImageKeys tradition,
    HiveQuoteService.getStoredImage key s.service.cachedImages = some none
  notPrefetched : (∀ tradition i, m ≠ .prefetchImage tradition i) ∧
    ∀ audioId audioData, m ≠ .preGenerated audioId audioData
  stored : ∀ (id : String) (v : Val), s.service.cachedImages[id]? = some v →
    id ∈ s.quotes ∧ ∃ url, v = .str url ∧ isAIImage url = true
  shown : ∀ url, s.screen.backgroundImageUrl = some url → isAIImage url = true

/-- **The background images of the application.** From a fresh installation on, whatever goes on
together, no lookup of a stored image throws or finds one, the background prefetch never starts,
images are stored under the ids of stored quotes, and AI images alone are stored and shown. -/
theorem illustrated_run [NumText] (key stabilityKey : EnvEntry) (moves : List AppMove) :
    Run.Each step (fun _ m s' => Pictured m s') (installed key stabilityKey) moves := by
  refine Run.each_of_invariant (I := fun s => Stocked s ∧ Illustrated s) (P := fun _ _ _ => True)
    (fun s m s' ⟨hstocked, h⟩ hs _ => ?_) moves _
    ⟨stocked_installed key stabilityKey, illustrated_installed key stabilityKey⟩
    (Run.each_of_forall_mem fun _ _ _ _ => trivial)
  have hstocked' := hstocked.step hs
  have h' := h.step hstocked hs
  refine ⟨⟨hstocked', h'⟩, h'.notStarted, fun tradition key hkey => ?_, ?_, h'.cached, h'.background⟩
  · exact h'.getStoredImage hstocked'.stock hkey
  · constructor
    · rintro tradition i rfl
      simp only [MotiAIApp.step, h.notStarted, Bool.false_eq_true, if_false] at hs
      cases hs
    · rintro audioId audioData rfl
      simp only [MotiAIApp.step, h.notStarted, Bool.false_eq_true, if_false] at hs
      cases hs

end

end MotiAIApp

end MotiAI
