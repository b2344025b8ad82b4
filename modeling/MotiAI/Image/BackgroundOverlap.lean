import MotiAI.Image.Background
import MotiAI.Lib.Flight
import MotiAI.Lib.Run

/-!
# Overlapping background images

The runs of `_generateBackgroundImage` in flight, cut at their awaits: each resets the background
when its quote is displayed, and sets it again after the ambience or after the image service has
answered, whichever quote is displayed by then. `owner` is the quote the present image was looked up
or generated for.

1. `background_alone`: a run by itself does what `generateBackgroundImage` does.
2. `fits_iff`: with no run pending, the background always belongs to the displayed quote exactly when
   the run that ends last never brings an image for another quote.
3. `fits_of_inOrder`: so it does when runs end in the order they started.
4. `not_fits_overtaken`: a slow image of the first quote replaces the image of the second.
-/

namespace MotiAI

open Dart Hive HiveQuoteService

namespace Background

section

variable [CaseMap]

/-- A run after the ambience: `none` as the first component says that it waits for the image
service, which it has asked for the returned prompt. A stored value that is no text throws. -/
def lookUp (quote : Quote) (shuffle : Shuffle String) (millis : ℕ) (d : Background) :
    Option (Option String × Background) :=
  let (key, shown) := selectImageKey quote.tradition shuffle d.screen.shownImageKeys
  let d := { d with screen := { d.screen with shownImageKeys := shown } }
  match key with
  | none => none
  | some key =>
    match getStoredImage key d.cachedImages with
    | none => none
    | some (some image) => some (none, showStored quote key image d)
    | some none => some (some (imagePrompt quote millis), d)

end

/-- A run when the image service has answered. -/
def receive (quote : Quote) (answer : Generated) (d : Background) : Option Background :=
  match answer with
  | .image url =>
    if contains url "unsplash.com" then
      some { d with screen := { d.screen with backgroundImageUrl := none } }
    else
      some { d with
        screen := { d.screen with backgroundImageUrl := some url }
        cachedImages := storeGeneratedImage quote.id url d.cachedImages }
  | .null => some { d with screen := { d.screen with backgroundImageUrl := none } }
  | .throws => none

end Background

open Background

/-- Where a run is suspended. -/
inductive BackgroundStage where
  | ambience
  | generating (prompt : String)
  | done

structure BackgroundRun where
  quote : Quote
  stage : BackgroundStage

/-- The screen with its images, the quote the background image belongs to, and the runs in the order
they started. -/
structure Backdrop where
  background : Background := {}
  owner : Option Quote := none
  runs : List BackgroundRun := []

/-- A quote is displayed, the audio is switched, or a run goes on. The image service answers as it
may, and is left in any state. -/
inductive BackdropMove where
  | displayed (quote : Quote) (shuffle : Shuffle String) (millis : ℕ)
  | toggleAudio
  | ambiencePlayed (i : ℕ) (shuffle : Shuffle String) (millis : ℕ)
  | generated (i : ℕ) (answer : Generated) (images : Images)

namespace Backdrop

/-- The state after a run of `quote` that has set or reset the background. -/
def own (quote : Quote) (d : Background) (s : Backdrop) : Backdrop :=
  { s with background := d, owner := if d.screen.backgroundImageUrl.isSome then some quote else none }

section

variable [CaseMap]

/-- The lookup of a run, with what is left of it. -/
def lookUp (quote : Quote) (shuffle : Shuffle String) (millis : ℕ) (s : Backdrop) :
    Option (BackgroundStage × Backdrop) :=
  (Background.lookUp quote shuffle millis s.background).map fun
    | (none, d) => (.done, s.own quote d)
    | (some prompt, d) => (.generating prompt, { s with background := d })

/-- A quote is displayed, and its run resets the background. -/
def display (quote : Quote) (s : Backdrop) : Backdrop :=
  { s with
    background := { s.background with
      screen := { s.background.screen with
        currentQuote := some quote
        backgroundImageUrl := none } }
    owner := none }

def step (s : Backdrop) : BackdropMove → Option Backdrop
  | .displayed quote shuffle millis =>
    if s.background.screen.isAudioEnabled then
      some { s.display quote with runs := s.runs ++ [⟨quote, .ambience⟩] }
    else
      ((s.display quote).lookUp quote shuffle millis).map fun p =>
        { p.2 with runs := s.runs ++ [⟨quote, p.1⟩] }
  | .toggleAudio =>
    some { s with
      background := { s.background with
        screen := { s.background.screen with
          isAudioEnabled := !s.background.screen.isAudioEnabled } } }
  | .ambiencePlayed i shuffle millis =>
    match s.runs[i]? with
    | some ⟨quote, .ambience⟩ =>
      (s.lookUp quote shuffle millis).map fun p =>
        { p.2 with runs := s.runs.set i ⟨quote, p.1⟩ }
    | _ => none
  | .generated i answer images =>
    match s.runs[i]? with
    | some ⟨quote, .generating _⟩ =>
      (receive quote answer { s.background with images := images }).map fun d =>
        { s.own quote d with runs := s.runs.set i ⟨quote, .done⟩ }
    | _ => none

end

/-! ## What is expected -/

/-- No run is pending. -/
def Idle (s : Backdrop) : Prop := ∀ run ∈ s.runs, run.stage = .done

/-- There is no background image, or it belongs to the displayed quote. -/
def Fits (s : Backdrop) : Prop :=
  s.background.screen.backgroundImageUrl = none ∨
    s.owner = s.background.screen.currentQuote

/-- Whenever no run is pending, the background belongs to the displayed quote. -/
def Belongs (_ : Backdrop) (_ : BackdropMove) (s' : Backdrop) : Prop := Idle s' → Fits s'

/-- The run a move resumes. -/
def resumed : BackdropMove → Option ℕ
  | .ambiencePlayed i _ _ => some i
  | .generated i _ _ => some i
  | _ => none

theorem receive_spec {quote : Quote} {answer : Generated} {d d' : Background}
    (h : receive quote answer d = some d') :
    d'.screen.currentQuote = d.screen.currentQuote ∧
      (d'.screen.backgroundImageUrl.isSome = true ↔
        ∃ url, answer = .image url ∧ contains url "unsplash.com" = false) := by
  unfold receive at h
  split at h
  · rename_i url
    split at h
    · rename_i hfallback
      obtain rfl := Option.some.inj h
      refine ⟨rfl, fun hsome => (by cases hsome), ?_⟩
      rintro ⟨url', heq, hno⟩
      obtain rfl := Generated.image.inj heq
      rw [hfallback] at hno
      cases hno
    · rename_i himage
      obtain rfl := Option.some.inj h
      exact ⟨rfl, fun _ => ⟨url, rfl, eq_false_of_ne_true himage⟩, fun _ => rfl⟩
  · obtain rfl := Option.some.inj h
    refine ⟨rfl, fun hsome => (by cases hsome), ?_⟩
    rintro ⟨url, heq, -⟩
    cases heq
  · cases h

theorem fits_own {quote : Quote} {d : Background} {s : Backdrop} {runs : List BackgroundRun} :
    Fits { s.own quote d with runs := runs } ↔
      (d.screen.backgroundImageUrl.isSome = true → d.screen.currentQuote = some quote) := by
  unfold Fits own
  cases d.screen.backgroundImageUrl with
  | none => simp
  | some url => simp [eq_comm]

/-- After a set, all runs have ended when all others have. -/
theorem idle_set {s s' : Backdrop} {i : ℕ} {quote : Quote} (hlt : i < s.runs.length)
    (hruns : s'.runs = s.runs.set i ⟨quote, .done⟩) :
    Idle s' ↔ ∀ j other, j ≠ i → s.runs[j]? = some other → other.stage = .done := by
  unfold Idle
  rw [hruns, Flight.forall_mem_set_iff hlt]
  exact and_iff_right rfl

theorem not_idle_set {s s' : Backdrop} {i : ℕ} {quote : Quote} {stage : BackgroundStage}
    (hlt : i < s.runs.length) (hruns : s'.runs = s.runs.set i ⟨quote, stage⟩)
    (hstage : stage ≠ .done) : ¬ Idle s' := by
  unfold Idle
  rw [hruns, Flight.forall_mem_set_iff hlt]
  exact fun hidle => hstage hidle.1

/-- Runs end in the order they started: when one has ended, so have the earlier ones. -/
def InOrder (s : Backdrop) : Prop :=
  ∀ (i j : ℕ) (run earlier : BackgroundRun), j < i → s.runs[i]? = some run → run.stage = .done →
    s.runs[j]? = some earlier → earlier.stage = .done

/-- The displayed quote is that of the run that started last. -/
def LastDisplayed (s : Backdrop) : Prop :=
  ∀ run, s.runs.getLast? = some run → s.background.screen.currentQuote = some run.quote

/-- When runs end in order, the only pending one is the last that started. -/
theorem getLast?_of_inOrder {s : Backdrop} {i : ℕ} {run : BackgroundRun} (h : InOrder s)
    (hi : s.runs[i]? = some run) (hpending : run.stage ≠ .done)
    (hothers : ∀ j other, j ≠ i → s.runs[j]? = some other → other.stage = .done) :
    s.runs.getLast? = some run := by
  have hlt : i < s.runs.length := (List.getElem?_eq_some_iff.mp hi).1
  have hlast : s.runs.length - 1 = i := by
    by_contra hne
    have hlt' : s.runs.length - 1 < s.runs.length := by omega
    refine hpending (h _ i _ run (by omega) (List.getElem?_eq_getElem hlt') ?_ hi)
    exact hothers _ _ hne (List.getElem?_eq_getElem hlt')
  rw [List.getLast?_eq_getElem?, hlast]
  exact hi

/-- A run that goes on keeps its quote. -/
theorem LastDisplayed.set {s s' : Backdrop} (h : LastDisplayed s) {i : ℕ} {quote : Quote}
    {stage stage' : BackgroundStage} (hi : s.runs[i]? = some ⟨quote, stage⟩)
    (hruns : s'.runs = s.runs.set i ⟨quote, stage'⟩)
    (hcurrent : s'.background.screen.currentQuote = s.background.screen.currentQuote) :
    LastDisplayed s' := by
  intro run hrun
  rw [hcurrent]
  rw [hruns, List.getLast?_eq_getElem?, List.length_set] at hrun
  rcases Flight.set_cases hrun with ⟨heq, rfl⟩ | ⟨-, hrun⟩
  · refine h ⟨quote, stage⟩ ?_
    rw [List.getLast?_eq_getElem?, heq]
    exact hi
  · refine h run ?_
    rw [List.getLast?_eq_getElem?]
    exact hrun

section

variable [CaseMap]

/-- The box holds an image under the key that is chosen for the quote. -/
def Finds (quote : Quote) (shuffle : Shuffle String) (d : Background) : Prop :=
  ∃ key image, (selectImageKey quote.tradition shuffle d.screen.shownImageKeys).1 = some key ∧
    getStoredImage key d.cachedImages = some (some image)

/-- A move ends a run of `quote` with an image: a stored one, or one that is no fallback. -/
def Shows (quote : Quote) (d : Background) : BackdropMove → Prop
  | .ambiencePlayed _ shuffle _ => Finds quote shuffle d
  | .generated _ answer _ => ∃ url, answer = .image url ∧ contains url "unsplash.com" = false
  | _ => False

/-- The run that ends while no other is pending brings no image, or its quote is displayed. -/
def LastIsCurrent (s : Backdrop) (m : BackdropMove) (_ : Backdrop) : Prop :=
  ∀ i run, resumed m = some i → s.runs[i]? = some run →
    (∀ j other, j ≠ i → s.runs[j]? = some other → other.stage = .done) →
    Shows run.quote s.background m → s.background.screen.currentQuote = some run.quote

/-! ## What a step can do -/

theorem lookUp_spec {quote : Quote} {shuffle : Shuffle String} {millis : ℕ} {d d' : Background}
    {prompt : Option String} (h : Background.lookUp quote shuffle millis d = some (prompt, d')) :
    d'.screen.currentQuote = d.screen.currentQuote ∧
      (Finds quote shuffle d ∧ prompt = none ∧ d'.screen.backgroundImageUrl.isSome = true ∨
        ¬ Finds quote shuffle d ∧ prompt ≠ none ∧
          d'.screen.backgroundImageUrl = d.screen.backgroundImageUrl) := by
  unfold Background.lookUp at h
  dsimp only at h
  split at h
  · cases h
  · rename_i key hkey
    split at h
    · cases h
    · rename_i image himage
      obtain ⟨rfl, rfl⟩ := Prod.mk.inj (Option.some.inj h)
      exact ⟨rfl, Or.inl ⟨⟨key, image, hkey, himage⟩, rfl, rfl⟩⟩
    · rename_i hnone
      obtain ⟨rfl, rfl⟩ := Prod.mk.inj (Option.some.inj h)
      refine ⟨rfl, Or.inr ⟨?_, by simp, rfl⟩⟩
      rintro ⟨key', image, hkey', himage⟩
      obtain rfl : key = key' := Option.some.inj (hkey.symm.trans hkey')
      rw [himage] at hnone
      cases hnone

/-- The lookup of a run of `quote`: either it has ended with a stored image, or the background is as
it was. -/
theorem lookUp_cases {quote : Quote} {shuffle : Shuffle String} {millis : ℕ} {s s' : Backdrop}
    {stage : BackgroundStage} (h : s.lookUp quote shuffle millis = some (stage, s')) :
    s'.background.screen.currentQuote = s.background.screen.currentQuote ∧
      (Finds quote shuffle s.background ∧ stage = .done ∧
          (∀ runs, Fits { s' with runs := runs } ↔
            s.background.screen.currentQuote = some quote) ∨
        ¬ Finds quote shuffle s.background ∧ stage ≠ .done ∧
          ∀ runs, Fits { s' with runs := runs } ↔ Fits s) := by
  obtain ⟨⟨prompt, d⟩, hd, heq⟩ := Option.map_eq_some_iff.mp h
  obtain ⟨hcurrent, ⟨hfinds, rfl, hsome⟩ | ⟨hfinds, hprompt, hurl⟩⟩ := lookUp_spec hd
  · obtain ⟨rfl, rfl⟩ := Prod.mk.inj heq
    refine ⟨hcurrent, Or.inl ⟨hfinds, rfl, fun runs => ?_⟩⟩
    rw [fits_own, hcurrent]
    exact ⟨fun hf => hf hsome, fun hf _ => hf⟩
  · obtain ⟨prompt, rfl⟩ := Option.ne_none_iff_exists'.mp hprompt
    obtain ⟨rfl, rfl⟩ := Prod.mk.inj heq
    refine ⟨hcurrent, Or.inr ⟨hfinds, by simp, fun runs => ?_⟩⟩
    unfold Fits
    rw [hcurrent, hurl]

/-- A displayed quote, or the audio switch. -/
theorem step_of_not_resumed {s s' : Backdrop} {m : BackdropMove} (hs : step s m = some s')
    (hm : resumed m = none) :
    (∃ quote stage, s'.runs = s.runs ++ [⟨quote, stage⟩] ∧
      s'.background.screen.currentQuote = some quote ∧ Fits s') ∨
    (s'.runs = s.runs ∧
      s'.background.screen.currentQuote = s.background.screen.currentQuote ∧
      (Fits s' ↔ Fits s)) := by
  cases m with
  | displayed quote shuffle millis =>
    simp only [step] at hs
    split at hs
    · obtain rfl := Option.some.inj hs
      exact Or.inl ⟨quote, .ambience, rfl, rfl, Or.inl rfl⟩
    · obtain ⟨⟨stage, t⟩, ht, rfl⟩ := Option.map_eq_some_iff.mp hs
      obtain ⟨hcurrent, ⟨-, -, hfits⟩ | ⟨-, -, hfits⟩⟩ := lookUp_cases ht
      · exact Or.inl ⟨quote, stage, rfl, hcurrent, (hfits _).mpr rfl⟩
      · exact Or.inl ⟨quote, stage, rfl, hcurrent, (hfits _).mpr (Or.inl rfl)⟩
  | toggleAudio =>
    obtain rfl := Option.some.inj hs
    exact Or.inr ⟨rfl, rfl, Iff.rfl⟩
  | ambiencePlayed i shuffle millis => cases hm
  | generated i answer images => cases hm

/-- A resumed run ends with or without an image, or goes on and leaves the background as it is. -/
theorem step_of_resumed {s s' : Backdrop} {m : BackdropMove} {i : ℕ} (hs : step s m = some s')
    (hm : resumed m = some i) :
    ∃ quote stage stage', s.runs[i]? = some ⟨quote, stage⟩ ∧ stage ≠ .done ∧
      s'.runs = s.runs.set i ⟨quote, stage'⟩ ∧
      s'.background.screen.currentQuote = s.background.screen.currentQuote ∧
      (stage' ≠ .done ∧ ¬ Shows quote s.background m ∨
        stage' = .done ∧ (Fits s' ↔ (Shows quote s.background m →
          s.background.screen.currentQuote = some quote))) := by
  cases m with
  | displayed quote shuffle millis => cases hm
  | toggleAudio => cases hm
  | ambiencePlayed j shuffle millis =>
    obtain rfl := Option.some.inj hm
    simp only [step] at hs
    split at hs
    · rename_i quote hi
      obtain ⟨⟨stage', t⟩, ht, rfl⟩ := Option.map_eq_some_iff.mp hs
      obtain ⟨hcurrent, ⟨hfinds, hdone, hfits⟩ | ⟨hfinds, hdone, -⟩⟩ := lookUp_cases ht
      · refine ⟨quote, .ambience, stage', hi, by simp, rfl, hcurrent, Or.inr ⟨hdone, ?_⟩⟩
        rw [hfits]
        exact ⟨fun hf _ => hf, fun hf => hf hfinds⟩
      · exact ⟨quote, .ambience, stage', hi, by simp, rfl, hcurrent, Or.inl ⟨hdone, hfinds⟩⟩
    · cases hs
  | generated j answer images =>
    obtain rfl := Option.some.inj hm
    simp only [step] at hs
    split at hs
    · rename_i quote prompt hi
      obtain ⟨d, hd, rfl⟩ := Option.map_eq_some_iff.mp hs
      obtain ⟨hcurrent, hsome⟩ := receive_spec hd
      refine ⟨quote, .generating prompt, .done, hi, by simp, rfl, hcurrent, Or.inr ⟨rfl, ?_⟩⟩
      rw [fits_own, hsome, hcurrent]
      exact Iff.rfl
    · cases hs

/-! ## Runs -/

/-- From a state that fits when it is idle, a step leads to one exactly when the run that ends last
is the displayed quote's or brings no image. -/
theorem belongs_iff {s s' : Backdrop} {m : BackdropMove} (h : Idle s → Fits s)
    (hs : step s m = some s') : Belongs s m s' ↔ LastIsCurrent s m s' := by
  cases hm : resumed m with
  | none =>
    have hlast : LastIsCurrent s m s' := by
      intro i run hi
      rw [hm] at hi
      cases hi
    refine ⟨fun _ => hlast, fun _ hidle => ?_⟩
    rcases step_of_not_resumed hs hm with ⟨quote, stage, -, -, hfits⟩ | ⟨hruns, -, hfits⟩
    · exact hfits
    · refine hfits.mpr (h fun run hrun => hidle run ?_)
      rw [hruns]
      exact hrun
  | some i =>
    obtain ⟨quote, stage, stage', hi, -, hruns, -, hcase⟩ := step_of_resumed hs hm
    have hlt : i < s.runs.length := (List.getElem?_eq_some_iff.mp hi).1
    rcases hcase with ⟨hstage, hshows⟩ | ⟨rfl, hfits⟩
    · refine ⟨fun _ j run hj hrun _ hshow => ?_, fun _ hidle => ?_⟩
      · rw [hm] at hj
        obtain rfl := Option.some.inj hj
        rw [hi] at hrun
        obtain rfl := Option.some.inj hrun
        exact absurd hshow hshows
      · exact absurd hidle (not_idle_set hlt hruns hstage)
    · unfold Belongs
      rw [idle_set hlt hruns, hfits]
      constructor
      · intro hb j run hj hrun hothers hshow
        rw [hm] at hj
        obtain rfl := Option.some.inj hj
        rw [hi] at hrun
        obtain rfl := Option.some.inj hrun
        exact hb hothers hshow
      · exact fun hlast hothers hshow => hlast i ⟨quote, stage⟩ hm hi hothers hshow

/-- **The background belongs to the quote** whenever no run is pending, exactly when no run that
ends last brings an image for a quote that is not displayed any more. -/
theorem fits_iff (cachedImages : Box Val) (images : Images) (moves : List BackdropMove) :
    Run.Each step Belongs { background := { cachedImages := cachedImages, images := images } }
        moves ↔
      Run.Each step LastIsCurrent
        { background := { cachedImages := cachedImages, images := images } } moves :=
  Run.each_iff_of_invariant (I := fun s => Idle s → Fits s) (P := LastIsCurrent) (Q := Belongs)
    (fun _ _ _ h hs => belongs_iff h hs) (fun _ _ _ h hs hlast => (belongs_iff h hs).mpr hlast)
    moves _ (fun _ => Or.inl rfl)

/-- **Runs in order.** When runs end in the order they started, the background always belongs to
the displayed quote. -/
theorem fits_of_inOrder (cachedImages : Box Val) (images : Images) (moves : List BackdropMove)
    (horder : Run.Each step (fun _ _ s' => InOrder s')
      { background := { cachedImages := cachedImages, images := images } } moves) :
    Run.Each step Belongs { background := { cachedImages := cachedImages, images := images } }
      moves := by
  refine Run.each_of_invariant
    (I := fun s => InOrder s ∧ LastDisplayed s ∧ (Idle s → Fits s)) (Q := Belongs)
    (fun s m s' h hs horder' => ?_) moves _ ⟨?_, ?_, fun _ => Or.inl rfl⟩ horder
  · obtain ⟨horder, hcurrent, hfits⟩ := h
    have hlast : LastIsCurrent s m s' := by
      intro i run hm hi hothers _
      obtain ⟨quote, stage, stage', hi', hpending, -⟩ := step_of_resumed hs hm
      rw [hi] at hi'
      obtain rfl := Option.some.inj hi'
      exact hcurrent _ (getLast?_of_inOrder horder hi hpending hothers)
    have hbelongs : Belongs s m s' := (belongs_iff hfits hs).mpr hlast
    refine ⟨⟨horder', ?_, hbelongs⟩, hbelongs⟩
    cases hm : resumed m with
    | none =>
      rcases step_of_not_resumed hs hm with ⟨quote, stage, hruns, hq, -⟩ | ⟨hruns, hq, -⟩
      · intro run hrun
        rw [hruns, List.getLast?_concat] at hrun
        rw [hq, ← Option.some.inj hrun]
      · intro run hrun
        rw [hruns] at hrun
        rw [hq]
        exact hcurrent run hrun
    | some i =>
      obtain ⟨quote, stage, stage', hi, -, hruns, hq, -⟩ := step_of_resumed hs hm
      exact hcurrent.set hi hruns hq
  · intro i j run earlier _ hi
    cases hi
  · intro run hrun
    cases hrun

/-! ## A run by itself -/

/-- The request for an image and what is done with the answer; an exception leaves the screen as it
is. -/
theorem requestImage_eq (quote : Quote) (millis : ℕ) (t : ImageTurn) (d : Background)
    {answer : Generated} {images : Images}
    (hg : d.images.generateImage (imagePrompt quote millis) t = (answer, images)) :
    requestImage quote millis t d =
      (receive quote answer { d with images := images }).getD { d with images := images } := by
  unfold imagePrompt at hg
  unfold requestImage receive
  dsimp only
  rw [hg]
  cases answer with
  | image url =>
    dsimp only
    split <;> rfl
  | null => rfl
  | throws => rfl

/-- **A run by itself.** The reset, the lookup, the answer of the image service and what is done with
it are together `generateBackgroundImage`. -/
theorem background_alone (quote : Quote) (shuffle : Shuffle String) (millis : ℕ) (t : ImageTurn)
    (d : Background) :
    generateBackgroundImage quote shuffle millis t d =
      let begun := { d with screen := { d.screen with backgroundImageUrl := none } }
      match Background.lookUp quote shuffle millis begun with
      | none => (beginBackground quote shuffle d).2
      | some (none, d') => d'
      | some (some prompt, d') =>
        let (answer, images) := d'.images.generateImage prompt t
        (receive quote answer { d' with images := images }).getD { d' with images := images } := by
  obtain ⟨key, -, hkey⟩ := exists_select quote.tradition shuffle d.screen.shownImageKeys
  unfold generateBackgroundImage Background.lookUp
  rw [beginBackground_of_select hkey]
  dsimp only
  rw [hkey]
  dsimp only
  rw [show (beginBackground quote shuffle d).2.cachedImages = d.cachedImages from rfl]
  cases getStoredImage key d.cachedImages with
  | none => rfl
  | some stored =>
    cases stored with
    | some image => rfl
    | none => exact requestImage_eq quote millis t _ rfl

end

/-! ## An overtaken run -/

def sufiQuote : Quote := ⟨"sufi_1", "", "", "Sufi", "Wisdom", "", none⟩

/-- Two quotes are displayed, no image is stored for either, and the image of the first comes last. -/
def overtakenMoves : List BackdropMove :=
  [.displayed zenQuote .keep 0, .ambiencePlayed 0 .keep 0, .displayed sufiQuote .keep 0,
    .ambiencePlayed 1 .keep 0, .generated 1 (.image "data:image/png;base64,AAAA") {},
    .generated 0 (.image "data:image/png;base64,BBBB") {}]

/-- No run is pending, and the second quote is displayed on the image of the first. -/
theorem not_fits_overtaken :
    (∃ s, Run.final (@step CaseMap.ascii) {} overtakenMoves = some s ∧ Idle s ∧
      s.background.screen.currentQuote = some sufiQuote ∧ s.owner = some zenQuote ∧
      s.background.screen.backgroundImageUrl = some "data:image/png;base64,BBBB") ∧
    ¬ Run.Each (@step CaseMap.ascii) Belongs {} overtakenMoves := by
  have hfinal : ∃ s, Run.final (@step CaseMap.ascii) {} overtakenMoves = some s ∧ Idle s ∧
      s.background.screen.currentQuote = some sufiQuote ∧ s.owner = some zenQuote ∧
      s.background.screen.backgroundImageUrl = some "data:image/png;base64,BBBB" := by
    refine ⟨_, rfl, ?_, rfl, rfl, rfl⟩
    intro run hrun
    rcases List.mem_pair.mp hrun with rfl | rfl <;> rfl
  refine ⟨hfinal, fun hE => ?_⟩
  obtain ⟨s, hs, hidle, hcurrent, howner, hurl⟩ := hfinal
  have hbelongs : Belongs {} .toggleAudio s :=
    Run.Each.final (P := Belongs {} .toggleAudio) hE (fun _ => Or.inl rfl) hs
  rcases hbelongs hidle with hnone | hsame
  · rw [hurl] at hnone
    cases hnone
  · rw [howner, hcurrent] at hsame
    exact absurd (congrArg (Option.map Quote.id) hsame) (by decide)

end Backdrop

end MotiAI
