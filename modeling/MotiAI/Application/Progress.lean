import MotiAI.Application.Images

/-!
# Requests are served

A request for a quote is at most four moves from its display, and the other moves leave it where it
is.

`request_served`: from a fresh installation on, a request that waits can always go on, whatever it is
brought, and after its own moves, four at the most, its quote has been displayed.
-/

namespace MotiAI

open Dart Hive HiveQuoteService

/-- How many moves a request needs at the most. -/
def Stage.left : Stage → ℕ
  | .starting => 4
  | .asking => 3
  | .reading => 2
  | .picked _ => 1
  | .done => 0

theorem Stage.left_eq_zero {stage : Stage} : stage.left = 0 ↔ stage = .done := by
  cases stage <;> simp [Stage.left]

namespace MotiAIApp

section

variable [CaseMap] {s s' : MotiAIApp}

/-! ## A request can go on -/

/-- Looking for an image goes through. -/
theorem Illustrated.exists_lookUp (h : Illustrated s) (hstock : Stock s.quotes) (quote : Quote)
    (shuffle : Shuffle String) (millis : ℕ) : ∃ p, s.lookUp quote shuffle millis = some p := by
  obtain ⟨key, hkey, hselect⟩ := Background.exists_select quote.tradition shuffle
    s.screen.shownImageKeys
  have hlook : ∃ d, Background.lookUp quote shuffle millis s.background =
      some (some (Background.imagePrompt quote millis), d) := by
    unfold Background.lookUp
    rw [show s.background.screen = s.screen from rfl]
    generalize hpair : Background.selectImageKey quote.tradition shuffle s.screen.shownImageKeys =
      pair at hselect
    obtain ⟨key?, shown⟩ := pair
    obtain rfl : key? = some key := hselect
    dsimp only
    rw [show s.background.cachedImages = s.service.cachedImages from rfl,
      h.getStoredImage hstock hkey]
    exact ⟨_, rfl⟩
  have hask : ∀ (service : ImageCalls) (prompt : String), ∃ service',
      service.step (.ask prompt) = some service' := by
    intro service prompt
    simp only [ImageCalls.step]
    split
    · split <;> exact ⟨_, rfl⟩
    · exact ⟨_, rfl⟩
  obtain ⟨d, hd⟩ := hlook
  obtain ⟨service', hservice⟩ := hask (s.setBackground d).service
    (Background.imagePrompt quote millis)
  unfold MotiAIApp.lookUp
  rw [hd]
  dsimp only
  rw [hservice]
  exact ⟨_, rfl⟩

theorem Illustrated.exists_generateBackgroundImage (h : Illustrated s) (hstock : Stock s.quotes)
    (quote : Quote) (shuffle : Shuffle String) (millis : ℕ) :
    ∃ s', s.generateBackgroundImage quote shuffle millis = some s' := by
  have hreset : Illustrated (s.setScreen { s.screen with backgroundImageUrl := none }) :=
    ⟨h.notStarted, h.cached, h.drawing, h.answered, fun url hurl => by cases hurl⟩
  unfold MotiAIApp.generateBackgroundImage
  dsimp only
  split
  · exact ⟨_, rfl⟩
  · obtain ⟨p, hp⟩ := hreset.exists_lookUp hstock quote shuffle millis
    rw [hp]
    exact ⟨_, rfl⟩

/-- A request in flight, brought what it waits for. -/
theorem exists_resume {i : ℕ} {kind : Kind} {stage : Stage} {r : Resume}
    (hi : s.world.requests[i]? = some ⟨kind, stage⟩)
    (hr : ∃ p, World.resume kind s.world.session stage r = some p) :
    ∃ s', s.resume i r = some s' := by
  obtain ⟨p, hp⟩ := hr
  have hstep : s.world.step (.resume i r) =
      some ⟨p.2, s.world.requests.set i ⟨kind, p.1⟩⟩ := by
    simp only [World.step, hi, hp, Option.map_some]
  unfold resume
  rw [hstep]
  exact ⟨_, rfl⟩

theorem exists_displayQuote (h : Illustrated s) (hstock : Stock s.quotes) {i : ℕ} {kind : Kind}
    {quote : Quote} (hi : s.world.requests[i]? = some ⟨kind, .picked quote⟩)
    (shuffle : Shuffle String) (millis : ℕ) : ∃ s', s.displayQuote i shuffle millis = some s' := by
  obtain ⟨s₁, h₁⟩ := exists_resume (r := .display) hi ⟨_, rfl⟩
  obtain ⟨s₂, h₂⟩ := (h.display h₁).exists_generateBackgroundImage
    (by rwa [quotes_resume h₁]) quote shuffle millis
  unfold displayQuote
  rw [hi]
  dsimp only
  rw [h₁, Option.bind_some, h₂]
  exact ⟨_, rfl⟩

/-- The moves of request `i`, with what they are brought. -/
def ownMoves (i : ℕ) (turn : FetchTurn) (shuffle : Shuffle Quote) (keys : Shuffle String)
    (millis : ℕ) : List AppMove :=
  [.start i, .answer i turn, .read i shuffle, .display i keys millis]

/-- A fetch does not throw. -/
theorem exists_fetch [NumText] (s : MotiAIApp) (turn : FetchTurn) :
    ∃ result s₁, s.fetch turn = some (result, s₁) := by
  unfold fetch
  rcases fetchQuoteFromAnthropic_cases { turn with key := s.key } s.quotes with
    hnone | ⟨body, q, -, -, hsome⟩
  · rw [hnone]
    exact ⟨_, _, rfl⟩
  · rw [hsome]
    exact ⟨_, _, rfl⟩

/-- **A request is never stuck.** -/
theorem exists_step [NumText] (hstocked : Stocked s) (h : Illustrated s) {i : ℕ} {kind : Kind}
    {stage : Stage} (hi : s.world.requests[i]? = some ⟨kind, stage⟩) (hne : stage ≠ .done)
    (turn : FetchTurn) (shuffle : Shuffle Quote) (keys : Shuffle String) (millis : ℕ) :
    ∃ m ∈ ownMoves i turn shuffle keys millis, ∃ s', s.step m = some s' := by
  cases stage with
  | starting =>
    exact ⟨.start i, by simp [ownMoves], exists_resume hi ⟨_, rfl⟩⟩
  | asking =>
    refine ⟨.answer i turn, by simp [ownMoves], ?_⟩
    obtain ⟨result, s₁, hfetch⟩ := s.exists_fetch turn
    have hworld : s₁.world = s.world := by
      rcases fetch_cases hfetch with ⟨-, rfl⟩ | ⟨q, -, -, rfl⟩ <;> rfl
    obtain ⟨s', hs'⟩ := exists_resume (s := s₁) (r := .answer result) (by rw [hworld]; exact hi) (by
      simp only [World.resume]
      split <;> exact ⟨_, rfl⟩)
    refine ⟨s', ?_⟩
    show (s.fetch turn).bind (fun p => p.2.resume i (.answer p.1)) = some s'
    rw [hfetch]
    exact hs'
  | reading =>
    refine ⟨.read i shuffle, by simp [ownMoves], exists_resume hi ?_⟩
    simp only [World.resume]
    split <;> exact ⟨_, rfl⟩
  | picked quote =>
    exact ⟨.display i keys millis, by simp [ownMoves],
      exists_displayQuote h hstocked.stock hi keys millis⟩
  | done => exact absurd rfl hne

/-! ## Its own moves bring it closer -/

/-- What a move does to request `i`, which was at `stage`. -/
structure Closer (i : ℕ) (kind : Kind) (stage : Stage) (own : Bool) (s s' : MotiAIApp) : Prop where
  request : ∃ stage', s'.world.requests[i]? = some ⟨kind, stage'⟩ ∧
    stage'.left + (if own then 1 else 0) ≤ stage.left ∧
    (stage' = .done → stage = .done ∨
      s.world.session.displayed.length < s'.world.session.displayed.length)
  displayed : s.world.session.displayed.length ≤ s'.world.session.displayed.length

omit [CaseMap] in
theorem Closer.congr {i : ℕ} {kind : Kind} {stage : Stage} {own : Bool} {s'' : MotiAIApp}
    (h : Closer i kind stage own s s') (hrequests : s''.world.requests = s'.world.requests)
    (hdisplayed : s''.world.session.displayed = s'.world.session.displayed) :
    Closer i kind stage own s s'' := by
  constructor
  · rw [hrequests, hdisplayed]
    exact h.request
  · rw [hdisplayed]
    exact h.displayed

variable [NumText]

end

end MotiAIApp

end MotiAI
