import MotiAI.Application.Work
import MotiAI.Image.Delivered

/-!
# Whose pictures the application shows

A run for a background image asks for an image to a prompt made from its quote. By the time the image
comes another quote may be displayed, the image may be one that was made for another quote with the
same prompt, and it may have been through a file and a restart.

`pictured_run`: yet every picture that is shown or stored is one that the API delivered for the prompt
of a displayed quote.
-/

namespace MotiAI

open Dart Hive HiveQuoteService StabilityAI Background ImageCalls
open Images (generateCacheKey)

namespace MotiAIApp

section

variable [CaseMap] {A A' : String → String → Prop} {s s' : MotiAIApp}

/-- `url` is in `A` for the prompt of the quote. -/
def Made (A : String → String → Prop) (quote : Quote) (url : String) : Prop :=
  ∃ millis, A (generateCacheKey (imagePrompt quote millis)) url

/-- The quote of the run was displayed, and the run waits for its image, or has an image of `A`. -/
structure Framed (A : String → String → Prop) (s : MotiAIApp) (run : ScreenRun) : Prop where
  began : run.quote ∈ s.world.session.displayed
  asked : ∀ j, run.stage = .generating j →
    ∃ millis stage, s.service.calls[j]? = some ⟨imagePrompt run.quote millis, stage⟩
  answered : ∀ url, run.stage = .answered url → Made A run.quote url

/-- What the service keeps is in `A`, and so is every image that is on its way, stored or shown, for
the prompt of its quote. -/
structure Gallery (A : String → String → Prop) (s : MotiAIApp) : Prop where
  filed : s.service.Filed A
  runs : ∀ run ∈ s.runs, Framed A s run
  stored : ∀ (id : String) (v : Val), s.service.cachedImages[id]? = some v →
    ∃ quote url, quote.id = id ∧ v = .str url ∧ contains url "unsplash.com" = false ∧
      Made A quote url
  shown : ∀ url, s.screen.backgroundImageUrl = some url →
    ∃ quote ∈ s.world.session.displayed, contains url "unsplash.com" = false ∧ Made A quote url

theorem Made.mono (hA : ∀ cacheKey url, A cacheKey url → A' cacheKey url) {quote : Quote}
    {url : String} (h : Made A quote url) : Made A' quote url := by
  obtain ⟨millis, hurl⟩ := h
  exact ⟨millis, hA _ _ hurl⟩

theorem Gallery.mono (h : Gallery A s) (hA : ∀ cacheKey url, A cacheKey url → A' cacheKey url) :
    Gallery A' s where
  filed := h.filed.mono hA
  runs := fun run hrun =>
    ⟨(h.runs run hrun).began, (h.runs run hrun).asked,
      fun url hstage => ((h.runs run hrun).answered url hstage).mono hA⟩
  stored := by
    intro id v hv
    obtain ⟨quote, url, hid, hval, hphoto, hmade⟩ := h.stored id v hv
    exact ⟨quote, url, hid, hval, hphoto, hmade.mono hA⟩
  shown := by
    intro url hurl
    obtain ⟨quote, hquote, hphoto, hmade⟩ := h.shown url hurl
    exact ⟨quote, hquote, hphoto, hmade.mono hA⟩

/-- What concerns neither the images nor the screen, but for quotes displayed. -/
theorem Gallery.congr (h : Gallery A s) (hservice : s'.service = s.service)
    (hruns : s'.runs = s.runs)
    (hdisplayed : ∀ quote ∈ s.world.session.displayed, quote ∈ s'.world.session.displayed)
    (himage : s'.screen.backgroundImageUrl = s.screen.backgroundImageUrl) : Gallery A s' where
  filed := by
    rw [hservice]
    exact h.filed
  runs := by
    rw [hruns]
    intro run hrun
    refine ⟨hdisplayed _ (h.runs run hrun).began, ?_, (h.runs run hrun).answered⟩
    rw [hservice]
    exact (h.runs run hrun).asked
  stored := by
    rw [hservice]
    exact h.stored
  shown := by
    rw [himage]
    intro url hurl
    obtain ⟨quote, hquote, hrest⟩ := h.shown url hurl
    exact ⟨quote, hdisplayed quote hquote, hrest⟩

theorem Gallery.setRuns (h : Gallery A s) {runs : List ScreenRun}
    (hruns : ∀ run ∈ runs, Framed A s run) : Gallery A { s with runs := runs } :=
  ⟨h.filed, fun run hrun => ⟨(hruns run hrun).began, (hruns run hrun).asked,
    (hruns run hrun).answered⟩, h.stored, h.shown⟩

/-! ## The image service -/

/-- The service takes a move other than a prefetch or a restart. -/
theorem Gallery.setService (h : Gallery A s) (hill : Illustrated s) {m : ImageMove}
    {service : ImageCalls} (hcopied : Copied A) (hservice : s.service.step m = some service)
    (hA : ∀ cacheKey image, Brought s.service m cacheKey image → A cacheKey image)
    (hprefetch : ∀ tradition i, m ≠ .prefetch tradition i) (hrestart : ∀ key, m ≠ .restart key) :
    Gallery A { s with service := service } where
  filed := h.filed.step hcopied hservice hA
  runs := by
    intro run hrun
    refine ⟨(h.runs run hrun).began, fun j hstage => ?_, (h.runs run hrun).answered⟩
    obtain ⟨millis, stage, hj⟩ := (h.runs run hrun).asked j hstage
    obtain ⟨stage', hj'⟩ := prompt_step hservice hrestart hj
    exact ⟨millis, stage', hj'⟩
  stored := by
    show ∀ (id : String) (v : Val), service.cachedImages[id]? = some v → _
    rw [(hill.drawing.calls_step hservice hprefetch).2]
    exact h.stored
  shown := h.shown

/-- A call of the service goes on, and the run that waits for it has its image. -/
theorem Gallery.serve (h : Gallery A s) (hill : Illustrated s) {j : ℕ} {m : ImageMove}
    (hcopied : Copied A) (hs : s.serve j m = some s')
    (hA : ∀ cacheKey image, Brought s.service m cacheKey image → A cacheKey image)
    (hm : (∃ readable, m = .read j readable) ∨
      ∃ reply millis writable, m = .answer j reply millis writable) : Gallery A s' := by
  obtain ⟨service, hservice, rfl⟩ := Option.map_eq_some_iff.mp hs
  have hset := h.setService hill hcopied hservice hA
    (by rcases hm with ⟨_, rfl⟩ | ⟨_, _, _, rfl⟩ <;> simp)
    (by rcases hm with ⟨_, rfl⟩ | ⟨_, _, _, rfl⟩ <;> simp)
  refine hset.setRuns fun run' hrun' => ?_
  obtain ⟨run, hrun, rfl⟩ := List.mem_map.mp hrun'
  have hframed := hset.runs run hrun
  unfold ScreenRun.settle
  split
  · rename_i k cacheKey url hgenerating hreturned
    split
    · rename_i hkj
      subst hkj
      refine ⟨hframed.began, fun j hj => (by cases hj), fun url' hurl => ?_⟩
      obtain rfl := ScreenStage.answered.inj hurl
      -- the run waits for the call that has returned, whose prompt is that of its quote
      obtain ⟨millis, stage, hk⟩ := (h.runs run hrun).asked k hgenerating
      refine ⟨millis, ?_⟩
      have hurl := h.filed.returned hservice hA hreturned
      rcases key_of_returned hservice hreturned with ⟨prompt, rfl, -⟩ |
        ⟨j, prompt, stage', hj, rfl, hmove⟩
      · rcases hm with ⟨_, heq⟩ | ⟨_, _, _, heq⟩ <;> cases heq
      · have hjk : j = k := by
          rcases hm with ⟨_, rfl⟩ | ⟨_, _, _, rfl⟩ <;>
            rcases hmove with ⟨_, heq⟩ | ⟨_, _, _, heq⟩ <;> cases heq <;> rfl
        subst hjk
        have hprompt := (ImageCall.mk.inj (Option.some.inj (hj.symm.trans hk))).1
        rw [← hprompt]
        exact hurl
    · exact hframed
  · exact hframed

/-! ## A run -/

/-- A run that has no stored image asks the service. -/
theorem Gallery.lookUp (h : Gallery A s) (hill : Illustrated s) (hstock : Stock s.quotes)
    (hcopied : Copied A) {quote : Quote} (hquote : quote ∈ s.world.session.displayed)
    {shuffle : Shuffle String} {millis : ℕ} {stage : ScreenStage}
    (hs : s.lookUp quote shuffle millis = some (stage, s')) :
    Gallery A s' ∧ s'.runs = s.runs ∧ Framed A s' ⟨quote, stage⟩ := by
  unfold MotiAIApp.lookUp at hs
  split at hs
  · cases hs
  · rename_i d hd
    generalize hprompt : (none : Option String) = prompt at hd
    cases lookedUp_of_lookUp hd with
    | stored hkey himage =>
      rw [show s.background.cachedImages = s.service.cachedImages from rfl,
        hill.getStoredImage hstock hkey] at himage
      cases himage
    | missing => cases hprompt
  · rename_i prompt d hd
    generalize hprompt' : some prompt = prompt' at hd
    cases lookedUp_of_lookUp hd with
    | stored hkey himage => cases hprompt'
    | @missing shown =>
      have hprompt : prompt = imagePrompt quote millis := Option.some.inj hprompt'
      obtain ⟨service, hservice, heq⟩ := Option.map_eq_some_iff.mp hs
      obtain ⟨rfl, rfl⟩ := Prod.mk.inj heq
      replace hservice : s.service.step (.ask prompt) = some service := hservice
      have hbrought : ∀ cacheKey image, Brought s.service (.ask prompt) cacheKey image →
          A cacheKey image := by
        rintro cacheKey image ⟨⟩
      have hset := h.setService hill hcopied hservice hbrought (by simp) (by simp)
      refine ⟨⟨hset.filed, fun run hrun => ⟨(hset.runs run hrun).began, (hset.runs run hrun).asked,
        (hset.runs run hrun).answered⟩, hset.stored, hset.shown⟩, rfl, hquote, fun j hj => ?_,
        fun url hurl => ?_⟩
      · dsimp only at hj
        split at hj
        · cases hj
        · rename_i hreturned
          obtain rfl := ScreenStage.generating.inj hj
          refine ⟨millis, .reading, ?_⟩
          rw [← hprompt]
          rcases ask_cases hservice with ⟨-, _, _, hsome⟩ | ⟨hcalls, -⟩
          · cases hreturned.symm.trans hsome
          · rw [hcalls]
            exact List.getElem?_concat_length
      · dsimp only at hurl
        split at hurl
        · rename_i cacheKey image hreturned
          obtain rfl := ScreenStage.answered.inj hurl
          have hurl := h.filed.returned hservice hbrought hreturned
          rcases key_of_returned hservice hreturned with ⟨prompt, heq, rfl⟩ |
            ⟨j, prompt, stage, -, -, ⟨_, heq⟩ | ⟨_, _, _, heq⟩⟩
          · refine ⟨millis, ?_⟩
            rw [← hprompt, ImageMove.ask.inj heq]
            exact hurl
          · cases heq
          · cases heq
        · cases hurl

theorem Gallery.issue (h : Gallery A s) {call : Calls.Call} (hs : s.issue call = some s') :
    Gallery A s' := by
  obtain ⟨sounds, -, rfl⟩ := Option.map_eq_some_iff.mp hs
  exact h.congr rfl rfl (fun _ hquote => hquote) rfl

theorem Gallery.append (h : Gallery A s) {run : ScreenRun} (hrun : Framed A s run) :
    ∀ run' ∈ s.runs ++ [run], Framed A s run' := by
  intro run' hrun'
  rcases List.mem_append.mp hrun' with hrun' | hrun'
  · exact h.runs run' hrun'
  · obtain rfl := List.mem_singleton.mp hrun'
    exact hrun

theorem Gallery.set (h : Gallery A s) {i : ℕ} {run : ScreenRun} (hrun : Framed A s run) :
    ∀ run' ∈ s.runs.set i run, Framed A s run' := by
  intro run' hrun'
  rcases List.mem_or_eq_of_mem_set hrun' with hrun' | rfl
  · exact h.runs run' hrun'
  · exact hrun

theorem Gallery.generateBackgroundImage (h : Gallery A s) (hill : Illustrated s)
    (hstock : Stock s.quotes) (hcopied : Copied A) {quote : Quote}
    (hquote : quote ∈ s.world.session.displayed) {shuffle : Shuffle String} {millis : ℕ}
    (hs : s.generateBackgroundImage quote shuffle millis = some s') : Gallery A s' := by
  unfold MotiAIApp.generateBackgroundImage at hs
  dsimp only at hs
  have hreset : Gallery A (s.setScreen { s.screen with backgroundImageUrl := none }) :=
    ⟨h.filed, fun run hrun => ⟨(h.runs run hrun).began, (h.runs run hrun).asked,
      (h.runs run hrun).answered⟩, h.stored, fun url hurl => (by cases hurl)⟩
  have hillReset : Illustrated (s.setScreen { s.screen with backgroundImageUrl := none }) :=
    ⟨hill.notStarted, hill.cached, hill.drawing, hill.answered, fun url hurl => (by cases hurl)⟩
  split at hs
  · obtain ⟨s₁, hs₁, rfl⟩ := Option.map_eq_some_iff.mp hs
    have h₁ := hreset.issue hs₁
    obtain ⟨sounds, -, rfl⟩ := Option.map_eq_some_iff.mp hs₁
    exact h₁.setRuns (h₁.append ⟨hquote, fun j hj => (by cases hj), fun url hurl => (by cases hurl)⟩)
  · obtain ⟨⟨stage, s₁⟩, hs₁, rfl⟩ := Option.map_eq_some_iff.mp hs
    obtain ⟨h₁, hruns, hframed⟩ := hreset.lookUp hillReset hstock hcopied hquote hs₁
    have hall := h₁.append hframed
    rw [hruns] at hall
    exact h₁.setRuns hall

/-- A display of the quote leaves the images as they are. -/
theorem Gallery.resume (h : Gallery A s) {i : ℕ} {r : Resume} (hs : s.resume i r = some s') :
    Gallery A s' ∧ ∀ kind quote, r = .display → s.world.requests[i]? = some ⟨kind, .picked quote⟩ →
      quote ∈ s'.world.session.displayed := by
  obtain ⟨world, hw, rfl⟩ := Option.map_eq_some_iff.mp hs
  obtain ⟨kind, stage, stage', session, hi, hresume, rfl⟩ := World.step_resume hw
  have hcases : r ≠ .display ∧ session = s.world.session ∨
      ∃ quote, stage = .picked quote ∧ session = kind.display quote s.world.session := by
    cases World.resumes_of_resume hresume with
    | display quote => exact Or.inr ⟨quote, rfl, rfl⟩
    | _ => exact Or.inl ⟨by simp, rfl⟩
  rcases hcases with ⟨hr, rfl⟩ | ⟨quote, rfl, rfl⟩
  · exact ⟨h.congr rfl rfl (fun _ hquote => hquote) rfl, fun _ _ hdisplay => absurd hdisplay hr⟩
  · have hdisplayed : (kind.display quote s.world.session).displayed =
        s.world.session.displayed ++ [quote] := by cases kind <;> rfl
    have himage : (kind.display quote s.world.session).screen.backgroundImageUrl =
        s.screen.backgroundImageUrl := by cases kind <;> rfl
    refine ⟨h.congr rfl rfl (fun quote' hquote' => ?_) himage, fun kind' quote' _ hi' => ?_⟩
    · show quote' ∈ (kind.display quote s.world.session).displayed
      rw [hdisplayed]
      exact List.mem_append_left _ hquote'
    · obtain ⟨rfl, hstage⟩ := Request.mk.inj (Option.some.inj (hi.symm.trans hi'))
      obtain rfl := Stage.picked.inj hstage
      show quote ∈ (kind.display quote s.world.session).displayed
      rw [hdisplayed]
      exact List.mem_append_right _ List.mem_cons_self

theorem Gallery.displayQuote (h : Gallery A s) (hill : Illustrated s) (hstock : Stock s.quotes)
    (hcopied : Copied A) {i : ℕ} {shuffle : Shuffle String} {millis : ℕ}
    (hs : s.displayQuote i shuffle millis = some s') : Gallery A s' := by
  obtain ⟨kind, quote, s₁, s₂, hi, h₁, h₂, rfl⟩ := displayQuote_cases hs
  obtain ⟨hgallery₁, hquote⟩ := h.resume h₁
  have hstock₁ : Stock s₁.quotes := by
    rw [quotes_resume h₁]
    exact hstock
  have hgallery₂ := hgallery₁.generateBackgroundImage (hill.display h₁) hstock₁ hcopied
    (hquote kind quote rfl hi) h₂
  unfold fetchNextAIQuote
  split
  · exact hgallery₂.congr rfl rfl (fun _ hquote => hquote) rfl
  · exact hgallery₂

/-- A run that has its image stores it under the id of its quote. -/
theorem Gallery.generated (h : Gallery A s) {i : ℕ} {quote : Quote} {url : String}
    (hi : s.runs[i]? = some ⟨quote, .answered url⟩) {d : Background}
    (hd : receive quote (.image url) s.background = some d) :
    Gallery A { s.setBackground d with runs := s.runs.set i ⟨quote, .done⟩ } := by
  have hframed := h.runs _ (List.mem_of_getElem? hi)
  have hmade := hframed.answered url rfl
  have hruns : ∀ run ∈ s.runs.set i ⟨quote, .done⟩, Framed A s run :=
    h.set ⟨hframed.began, fun j hj => (by cases hj), fun url hurl => (by cases hurl)⟩
  rcases receive_image_cases hd with ⟨-, rfl⟩ | ⟨hphoto, rfl⟩
  · exact ⟨⟨h.filed.memory, h.filed.files⟩, fun run hrun => ⟨(hruns run hrun).began,
      (hruns run hrun).asked, (hruns run hrun).answered⟩, h.stored, fun url' hurl => (by cases hurl)⟩
  · refine ⟨⟨h.filed.memory, h.filed.files⟩, fun run hrun => ⟨(hruns run hrun).began,
      (hruns run hrun).asked, (hruns run hrun).answered⟩, fun id v hv => ?_, fun url' hurl => ?_⟩
    · replace hv : (s.service.cachedImages.insert quote.id (.str url))[id]? = some v := hv
      rw [Box.getElem?_put] at hv
      split at hv
      · rename_i hid
        obtain rfl := Option.some.inj hv
        exact ⟨quote, url, hid, rfl, hphoto, hmade⟩
      · exact h.stored id v hv
    · obtain rfl := Option.some.inj hurl
      exact ⟨quote, hframed.began, hphoto, hmade⟩

/-- What the move brings to the service. -/
def imageMove : AppMove → Option ImageMove
  | .imageAnswer j reply millis writable => some (.answer j reply millis writable)
  | _ => none

/-- Behind the screen. -/
theorem Gallery.backstage [NumText] (h : Gallery A s) (hill : Illustrated s)
    (hstock : Stock s.quotes) (hcopied : Copied A) {m : AppMove} (hm : m.isBackstage = true)
    (hs : s.step m = some s') (hA : ∀ move ∈ imageMove m, ∀ cacheKey image,
      Brought s.service move cacheKey image → A cacheKey image) : Gallery A s' := by
  cases m with
  | toggleAIQuotes =>
    obtain rfl := Option.some.inj hs
    exact h.congr rfl rfl (fun _ hquote => hquote) rfl
  | toggleAudio =>
    have hswitch : Gallery A
        (s.setScreen { s.screen with isAudioEnabled := !s.screen.isAudioEnabled }) :=
      h.congr rfl rfl (fun _ hquote => hquote) rfl
    simp only [MotiAIApp.step, MotiAIApp.toggleAudio] at hs
    split at hs
    · split at hs
      · exact hswitch.issue hs
      · obtain rfl := Option.some.inj hs
        exact hswitch
    · exact hswitch.issue hs
  | sound i picks decodeFails =>
    simp only [MotiAIApp.step] at hs
    obtain ⟨sounds, -, rfl⟩ := Option.map_eq_some_iff.mp hs
    exact h.congr rfl rfl (fun _ hquote => hquote) rfl
  | timerTick f =>
    simp only [MotiAIApp.step] at hs
    split at hs
    · obtain rfl := Option.some.inj hs
      exact h.congr rfl rfl (fun _ hquote => hquote) rfl
    · cases hs
  | ambiencePlayed i shuffle millis =>
    simp only [MotiAIApp.step] at hs
    split at hs
    · rename_i quote k hi
      split at hs
      · obtain ⟨⟨stage, s₁⟩, hs₁, rfl⟩ := Option.map_eq_some_iff.mp hs
        obtain ⟨h₁, hruns, hframed⟩ := h.lookUp hill hstock hcopied
          (h.runs _ (List.mem_of_getElem? hi)).began hs₁
        have hall := h₁.set (i := i) hframed
        rw [hruns] at hall
        exact h₁.setRuns hall
      · cases hs
    · cases hs
  | imageRead j readable =>
    refine h.serve hill hcopied hs ?_ (Or.inl ⟨readable, rfl⟩)
    rintro cacheKey image ⟨⟩
  | imageAnswer j reply millis writable =>
    exact h.serve hill hcopied hs (hA _ rfl) (Or.inr ⟨reply, millis, writable, rfl⟩)
  | tick duration =>
    simp only [MotiAIApp.step] at hs
    obtain ⟨service, hservice, rfl⟩ := Option.map_eq_some_iff.mp hs
    refine h.setService hill hcopied hservice ?_ (by simp) (by simp)
    rintro cacheKey image ⟨⟩
  | generated i =>
    simp only [MotiAIApp.step] at hs
    split at hs
    · rename_i quote url hi
      obtain ⟨d, hd, rfl⟩ := Option.map_eq_some_iff.mp hs
      exact h.generated hi hd
    · cases hs
  | prefetchImage tradition i =>
    simp only [MotiAIApp.step, hill.notStarted, Bool.false_eq_true, if_false] at hs
    cases hs
  | preGenerated audioId audioData =>
    simp only [MotiAIApp.step, hill.notStarted, Bool.false_eq_true, if_false] at hs
    cases hs
  | _ => cases hm

/-- After a restart only the files and the stored images are left. -/
theorem Gallery.restart (h : Gallery A s) (hill : Illustrated s) (hcopied : Copied A)
    {key : EnvEntry} (hservice : s.service.step (.restart key) = some s'.service)
    (hruns : s'.runs = []) (hscreen : s'.screen = {}) : Gallery A s' := by
  refine ⟨h.filed.step hcopied hservice ?_, ?_, ?_, ?_⟩
  · rintro cacheKey image ⟨⟩
  · rw [hruns]
    exact fun run hrun => absurd hrun List.not_mem_nil
  · rw [(hill.drawing.calls_step hservice (by simp)).2]
    exact h.stored
  · rw [hscreen]
    rintro url ⟨⟩

/-- **A move keeps the gallery**, when what the service is brought belongs there. -/
theorem Gallery.step [NumText] (h : Gallery A s) (hill : Illustrated s) (hstocked : Stocked s)
    (hcopied : Copied A) {m : AppMove} (hs : s.step m = some s')
    (hA : ∀ move ∈ imageMove m, ∀ cacheKey image,
      Brought s.service move cacheKey image → A cacheKey image) : Gallery A s' := by
  cases hm : m.isBackstage with
  | true => exact h.backstage hill hstocked.stock hcopied hm hs hA
  | false =>
    cases honstage : onstage_of_step hm hs with
    | newQuote => exact h.congr rfl rfl (fun _ hquote => hquote) rfl
    | resumed hm hr hdisplay => exact (h.resume hr).1
    | @answered i turn q _ hq hr =>
      have hadded : Gallery A { s with quotes := addQuote q s.quotes } :=
        h.congr rfl rfl (fun _ hquote => hquote) rfl
      exact (hadded.resume hr).1
    | displayed hs => exact h.displayQuote hill hstocked.stock hcopied hs
    | desk he => cases he <;> exact h.congr rfl rfl (fun _ hquote => hquote) rfl
    | restarted hservice => exact h.restart hill hcopied hservice rfl rfl
    | _ => exact h.congr rfl rfl (fun _ hquote => hquote) rfl

/-! ## What the service has delivered -/

/-- The application has its key, and its service has taken one move at most, but for the images in
its box. -/
structure ServiceStep (s s' : MotiAIApp) : Prop where
  key : s'.key = s.key
  service : ∃ service, (service = s.service ∨
      ∃ m, (∀ key, m ≠ .restart key) ∧ s.service.step m = some service) ∧
    s'.service = { service with cachedImages := s'.service.cachedImages }

theorem serviceStep_of_eq (hkey : s'.key = s.key) (h : s'.service = s.service) : ServiceStep s s' :=
  ⟨hkey, s'.service, Or.inl h, rfl⟩

theorem serviceStep_of_step {m : ImageMove} {service : ImageCalls}
    (h : s.service.step m = some service) (hm : ∀ key, m ≠ .restart key) (hkey : s'.key = s.key)
    (hservice : s'.service = service) : ServiceStep s s' := by
  subst hservice
  exact ⟨hkey, s'.service, Or.inr ⟨m, hm, h⟩, rfl⟩

theorem serviceStep_of_background {d : Background} (hkey : s'.key = s.key)
    (h : s'.service = (s.setBackground d).service) : ServiceStep s s' := by
  refine ⟨hkey, s.service, Or.inl rfl, ?_⟩
  rw [h]
  rfl

theorem serviceStep_of_lookUp {quote : Quote} {shuffle : Shuffle String} {millis : ℕ}
    {stage : ScreenStage} (hs : s.lookUp quote shuffle millis = some (stage, s')) :
    ServiceStep s s' := by
  unfold MotiAIApp.lookUp at hs
  split at hs
  · cases hs
  · obtain ⟨-, rfl⟩ := Prod.mk.inj (Option.some.inj hs)
    exact serviceStep_of_background rfl rfl
  · rename_i prompt d hd
    obtain ⟨service, hservice, heq⟩ := Option.map_eq_some_iff.mp hs
    obtain ⟨-, rfl⟩ := Prod.mk.inj heq
    have hcached : (s.setBackground d).service = s.service := by
      generalize hprompt : some prompt = prompt' at hd
      cases lookedUp_of_lookUp hd with
      | stored hkey himage => cases hprompt
      | missing => rfl
    rw [hcached] at hservice
    exact serviceStep_of_step hservice (by simp) rfl rfl

theorem serviceStep_of_generateBackgroundImage {quote : Quote} {shuffle : Shuffle String}
    {millis : ℕ} (hs : s.generateBackgroundImage quote shuffle millis = some s') :
    ServiceStep s s' := by
  unfold MotiAIApp.generateBackgroundImage at hs
  dsimp only at hs
  split at hs
  · obtain ⟨s₁, hs₁, rfl⟩ := Option.map_eq_some_iff.mp hs
    obtain ⟨sounds, -, rfl⟩ := Option.map_eq_some_iff.mp hs₁
    exact serviceStep_of_eq rfl rfl
  · obtain ⟨⟨stage, s₁⟩, hs₁, rfl⟩ := Option.map_eq_some_iff.mp hs
    have hlooked := serviceStep_of_lookUp hs₁
    exact ⟨hlooked.key, hlooked.service⟩

theorem serviceStep_of_issue {call : Calls.Call} (hs : s.issue call = some s') :
    ServiceStep s s' := by
  obtain ⟨sounds, -, rfl⟩ := Option.map_eq_some_iff.mp hs
  exact serviceStep_of_eq rfl rfl

/-- Behind the screen. -/
theorem serviceStep_backstage [NumText] {m : AppMove} (hm : m.isBackstage = true)
    (hs : s.step m = some s') : ServiceStep s s' := by
  cases m with
  | toggleAIQuotes =>
    obtain rfl := Option.some.inj hs
    exact serviceStep_of_eq rfl rfl
  | toggleAudio =>
    simp only [MotiAIApp.step, MotiAIApp.toggleAudio] at hs
    split at hs
    · split at hs
      · have hissued := serviceStep_of_issue hs
        exact ⟨hissued.key, hissued.service⟩
      · obtain rfl := Option.some.inj hs
        exact serviceStep_of_eq rfl rfl
    · have hissued := serviceStep_of_issue hs
      exact ⟨hissued.key, hissued.service⟩
  | sound i picks decodeFails =>
    obtain ⟨sounds, -, rfl⟩ := Option.map_eq_some_iff.mp hs
    exact serviceStep_of_eq rfl rfl
  | timerTick f =>
    simp only [MotiAIApp.step] at hs
    split at hs
    · obtain rfl := Option.some.inj hs
      exact serviceStep_of_eq rfl rfl
    · cases hs
  | ambiencePlayed i shuffle millis =>
    simp only [MotiAIApp.step] at hs
    split at hs
    · split at hs
      · obtain ⟨⟨stage, s₁⟩, hs₁, rfl⟩ := Option.map_eq_some_iff.mp hs
        have hlooked := serviceStep_of_lookUp hs₁
        exact ⟨hlooked.key, hlooked.service⟩
      · cases hs
    · cases hs
  | imageRead j readable =>
    obtain ⟨service, hservice, rfl⟩ := Option.map_eq_some_iff.mp hs
    exact serviceStep_of_step hservice (by simp) rfl rfl
  | imageAnswer j reply millis writable =>
    obtain ⟨service, hservice, rfl⟩ := Option.map_eq_some_iff.mp hs
    exact serviceStep_of_step hservice (by simp) rfl rfl
  | tick duration =>
    simp only [MotiAIApp.step] at hs
    obtain ⟨service, hservice, rfl⟩ := Option.map_eq_some_iff.mp hs
    exact serviceStep_of_step hservice (by simp) rfl rfl
  | generated i =>
    simp only [MotiAIApp.step] at hs
    split at hs
    · obtain ⟨d, -, rfl⟩ := Option.map_eq_some_iff.mp hs
      exact serviceStep_of_background rfl rfl
    · cases hs
  | prefetchImage tradition i =>
    simp only [MotiAIApp.step] at hs
    split at hs
    · obtain ⟨service, hservice, rfl⟩ := Option.map_eq_some_iff.mp hs
      exact serviceStep_of_step hservice (by simp) rfl rfl
    · cases hs
  | preGenerated audioId audioData =>
    simp only [MotiAIApp.step] at hs
    split at hs
    · obtain rfl := Option.some.inj hs
      exact serviceStep_of_eq rfl rfl
    · cases hs
  | _ => cases hm

theorem serviceStep_displayQuote {i : ℕ} {shuffle : Shuffle String} {millis : ℕ}
    (hs : s.displayQuote i shuffle millis = some s') : ServiceStep s s' := by
  obtain ⟨kind, quote, s₁, s₂, -, h₁, h₂, rfl⟩ := displayQuote_cases hs
  obtain ⟨world, -, rfl⟩ := Option.map_eq_some_iff.mp h₁
  have hbegun := serviceStep_of_generateBackgroundImage h₂
  unfold MotiAIApp.fetchNextAIQuote
  split <;> exact ⟨hbegun.key, hbegun.service⟩

theorem serviceStep_resume {i : ℕ} {r : Resume} (hs : s.resume i r = some s') :
    ServiceStep s s' := by
  obtain ⟨world, -, rfl⟩ := Option.map_eq_some_iff.mp hs
  exact serviceStep_of_eq rfl rfl

theorem serviceStep_step [NumText] {m : AppMove} (hs : s.step m = some s')
    (hm : ∀ key stabilityKey, m ≠ .restart key stabilityKey) : ServiceStep s s' := by
  cases hback : m.isBackstage with
  | true => exact serviceStep_backstage hback hs
  | false =>
    cases honstage : onstage_of_step hback hs with
    | resumed hm' hr => exact serviceStep_resume hr
    | @answered i turn q _ hq hr =>
      have hresumed := serviceStep_resume hr
      exact ⟨hresumed.key, hresumed.service⟩
    | displayed hs => exact serviceStep_displayQuote hs
    | desk he => cases he <;> exact serviceStep_of_eq rfl rfl
    | restarted hservice => exact absurd rfl (hm _ _)
    | _ => exact serviceStep_of_eq rfl rfl

theorem ServiceStep.deliveries_subset (h : ServiceStep s s') :
    s.service.deliveries ⊆ s'.service.deliveries := by
  obtain ⟨-, service, hservice, heq⟩ := h
  rw [heq]
  show s.service.deliveries ⊆ service.deliveries
  rcases hservice with rfl | ⟨m, -, hservice⟩
  · exact List.Subset.refl _
  · exact ImageCalls.deliveries_subset hservice

end

end MotiAIApp

end MotiAI
