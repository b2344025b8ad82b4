import MotiAI.Application.Work
import MotiAI.Lib.Settling

/-!
# The application settles

What the user presses starts something; from then on the application goes on by itself, with what the
API, the files, the shuffles and the clock bring. Each of its own moves lowers the work that is left.

`settling_run`: in every state that is reached from a fresh installation, the application can go on
until nothing is left to do, whatever it is brought, and cannot go on for longer than the work that
is left.
-/

namespace MotiAI

open Dart Hive HiveQuoteService

/-- The application's own moves; the others are the user's, the clock's and the prefetch's. -/
def AppMove.isInner : AppMove → Bool
  | .start _ | .answer _ _ | .read _ _ | .display _ _ _ | .fetched _ => true
  | .sound _ _ _ | .ambiencePlayed _ _ _ | .imageRead _ _ | .imageAnswer _ _ _ _ => true
  | .generated _ | .affirmationAnswer _ _ | .savedAffirmation _ => true
  | _ => false

/-- What the application is brought: by the APIs, by the files, and by `shuffle()` and the clock. -/
structure Brought where
  turn : FetchTurn
  reply : Reply String
  imageReply : Reply (Option Plain)
  readable : Bool
  writable : Bool
  decodeFails : Bool
  picks : Picks
  shuffle : Shuffle Quote
  keys : Shuffle String
  millis : ℕ

/-- The moves of the application for the request, call, run or affirmation `i`. -/
def Brought.moves (b : Brought) (i : ℕ) : List AppMove :=
  MotiAIApp.ownMoves i b.turn b.shuffle b.keys b.millis ++
    [.fetched b.turn, .sound i b.picks b.decodeFails, .ambiencePlayed i b.keys b.millis,
      .imageRead i b.readable, .imageAnswer i b.imageReply b.millis b.writable, .generated i,
      .affirmationAnswer i b.reply, .savedAffirmation i]

theorem Brought.isInner {b : Brought} {i : ℕ} {m : AppMove} (hm : m ∈ b.moves i) :
    m.isInner = true := by
  simp only [moves, MotiAIApp.ownMoves, List.cons_append, List.nil_append, List.mem_cons,
    List.not_mem_nil, or_false] at hm
  rcases hm with rfl | rfl | rfl | rfl | rfl | rfl | rfl | rfl | rfl | rfl | rfl | rfl <;> rfl

namespace MotiAIApp

/-- Nothing goes on; an affirmation may be shown. -/
structure Idle (s : MotiAIApp) : Prop where
  requests : ∀ request ∈ s.world.requests, request.stage = .done
  fetches : s.fetches = 0
  sounds : Calls.Quiet s.sounds
  runs : ∀ run ∈ s.runs, run.stage = .done
  images : ∀ call ∈ s.service.calls, call.stage = .done
  affirmations : ∀ a ∈ s.desk, a.stage = .closed ∨ ∃ affirmation, a.stage = .shown affirmation

theorem idle_iff {s : MotiAIApp} : Idle s ↔ s.work = 0 := by
  have hsum : s.work = 0 ↔
      ((((((s.world.requests.map fun request => request.stage.work).sum = 0 ∧ s.fetches = 0) ∧
        (s.sounds.calls.map fun c => c.stage.left).sum = 0) ∧
        (s.runs.map fun run => run.stage.left).sum = 0) ∧
        (s.service.calls.map fun call => call.stage.left).sum = 0) ∧
        (s.desk.map fun a => a.stage.left).sum = 0) := by
    simp only [work, Nat.add_eq_zero_iff]
  simp only [hsum, Flight.sum_map_eq_zero_iff, Stage.work_eq_zero, Calls.Stage.left_eq_zero,
    ScreenStage.left_eq_zero, ImageStage.left_eq_zero, AffirmationStage.left_eq_zero]
  constructor
  · intro h
    exact ⟨⟨⟨⟨⟨h.requests, h.fetches⟩, h.sounds⟩, h.runs⟩, h.images⟩, h.affirmations⟩
  · rintro ⟨⟨⟨⟨⟨hrequests, hfetches⟩, hsounds⟩, hruns⟩, himages⟩, haffirmations⟩
    exact ⟨hrequests, hfetches, hsounds, hruns, himages, haffirmations⟩

section

variable [CaseMap] {s s' : MotiAIApp}

/-! ## Each move lowers the work -/

theorem work_resume {i : ℕ} {r : Resume} (hs : s.resume i r = some s') :
    ∃ kind stage stage' session, s.world.requests[i]? = some ⟨kind, stage⟩ ∧
      World.Resumes kind s.world.session stage r stage' session ∧
      s'.work + stage.work = s.work + stage'.work := by
  obtain ⟨world, hw, rfl⟩ := Option.map_eq_some_iff.mp hs
  obtain ⟨kind, stage, stage', session, hi, hresume, rfl⟩ := World.step_resume hw
  refine ⟨kind, stage, stage', session, hi, World.resumes_of_resume hresume, ?_⟩
  have hsum := Flight.sum_map_set_add hi ⟨kind, stage'⟩ fun request : Request => request.stage.work
  simp only [work]
  dsimp only at hsum
  omega

/-- A request that does not display its quote yet. -/
theorem lower_resume {i : ℕ} {r : Resume} (hs : s.resume i r = some s') (hr : r ≠ .display) :
    s'.work < s.work := by
  obtain ⟨kind, stage, stage', session, -, hresumes, hwork⟩ := work_resume hs
  have hlower : stage'.work < stage.work := by
    cases hresumes with
    | start useAI => cases useAI <;> decide
    | accepted => exact (by decide : 12 < 14)
    | rejected => decide
    | found => exact (by decide : 12 < 13)
    | failed => decide
    | display => exact absurd rfl hr
  omega

omit [CaseMap] in
theorem Searched.work_le {stage : ScreenStage} (h : Searched s stage s') :
    s'.work + stage.left ≤ s.work + 3 := by
  have hcalls : (s'.service.calls.map fun call => call.stage.left).sum + stage.left ≤
      (s.service.calls.map fun call => call.stage.left).sum + 3 := by
    rcases h.calls with ⟨hcalls, hstage⟩ | ⟨prompt, hcalls, rfl⟩
    · rw [hcalls]
      rcases hstage with rfl | ⟨url, rfl⟩
      · exact Nat.add_le_add_left (by decide : 0 ≤ 3) _
      · exact Nat.add_le_add_left (by decide : 1 ≤ 3) _
    · rw [hcalls, List.map_append, List.sum_append]
      simp [ScreenStage.left, ImageStage.left]
  simp only [work, h.requests, h.fetches, h.sounds, h.runs, h.desk]
  omega

omit [CaseMap] in
/-- A run for a background image takes at most ten moves, with the calls that it makes. -/
theorem Began.work_le {quote : Quote} (h : Began s quote s') : s'.work ≤ s.work + 10 := by
  cases h with
  | ambience hsounds hstaged hleft hrequests hfetches hservice hdesk hruns =>
    simp only [work, hsounds, hrequests, hfetches, hservice, hdesk, hruns, List.map_append,
      List.sum_append, List.map_cons, List.map_nil, List.sum_cons, List.sum_nil]
    have hambience : (ScreenStage.ambience s.sounds.calls.length).left = 4 := rfl
    omega
  | @search s₁ stage hsearched =>
    have hle := hsearched.work_le
    simp only [work, hsearched.runs, List.map_append, List.sum_append, List.map_cons, List.map_nil,
      List.sum_cons, List.sum_nil] at hle ⊢
    omega

omit [CaseMap] in
theorem work_fetchNextAIQuote_le (s : MotiAIApp) : s.fetchNextAIQuote.work ≤ s.work + 1 := by
  unfold fetchNextAIQuote
  split
  · simp only [work]
    omega
  · exact Nat.le_succ _

theorem lower_displayQuote {i : ℕ} {shuffle : Shuffle String} {millis : ℕ}
    (hs : s.displayQuote i shuffle millis = some s') : s'.work < s.work := by
  obtain ⟨kind, quote, s₁, s₂, hi, h₁, h₂, rfl⟩ := displayQuote_cases hs
  obtain ⟨kind', stage, stage', session, hi', hresumes, hwork⟩ := work_resume h₁
  obtain ⟨rfl, rfl⟩ := Request.mk.inj (Option.some.inj (hi.symm.trans hi'))
  have hdone : stage' = .done := by
    cases hresumes
    rfl
  subst hdone
  have hpicked : (Stage.picked quote).work = 12 := rfl
  have hzero : Stage.done.work = 0 := rfl
  have hrun := (began_of_generateBackgroundImage h₂).work_le
  have hfetch := work_fetchNextAIQuote_le s₂
  omega

omit [CaseMap] in
theorem left_settle_le (j : ℕ) (returned : Option (String × String)) (run : ScreenRun) :
    (run.settle j returned).stage.left ≤ run.stage.left := by
  unfold ScreenRun.settle
  split
  · rename_i hstage
    split
    · rw [hstage]
      exact le_refl 1
    · exact le_refl _
  · exact le_refl _

theorem lower_serve {j : ℕ} {m : ImageMove} (hs : s.serve j m = some s')
    (hgo : ∀ service, s.service.step m = some service → ImageCalls.GoesOn j s.service service) :
    s'.work < s.work := by
  obtain ⟨service, hservice, rfl⟩ := Option.map_eq_some_iff.mp hs
  obtain ⟨prompt, stage, stage', hj, hcalls, hlower, -⟩ := (hgo service hservice).call
  have hsum := Flight.sum_map_set_add hj ⟨prompt, stage'⟩ fun call : ImageCall => call.stage.left
  rw [← hcalls] at hsum
  have hruns : ((s.runs.map (ScreenRun.settle j service.returned)).map
      fun run => run.stage.left).sum ≤ (s.runs.map fun run => run.stage.left).sum := by
    rw [List.map_map]
    exact List.sum_le_sum fun run _ => left_settle_le j service.returned run
  simp only [work]
  dsimp only at hsum
  omega

omit [CaseMap] in
/-- A run goes on, in a state with as much other work as before. -/
theorem lower_setRun (s₁ : MotiAIApp) {i : ℕ} {quote : Quote} {stage stage' : ScreenStage}
    (hi : s.runs[i]? = some ⟨quote, stage⟩) (hruns : s₁.runs = s.runs)
    (hwork : s₁.work + stage'.left < s.work + stage.left) :
    work { s₁ with runs := s.runs.set i ⟨quote, stage'⟩ } < s.work := by
  have hsum := Flight.sum_map_set_add hi ⟨quote, stage'⟩ fun run : ScreenRun => run.stage.left
  simp only [work, hruns] at hwork ⊢
  dsimp only at hsum
  omega

theorem lower_fetched [NumText] {turn : FetchTurn} (hs : s.step (.fetched turn) = some s') :
    s'.work < s.work := by
  simp only [step] at hs
  split at hs
  · cases hs
  · rename_i hfetches
    obtain ⟨⟨result, s₁⟩, hfetch, rfl⟩ := Option.map_eq_some_iff.mp hs
    rcases fetch_cases hfetch with ⟨-, rfl⟩ | ⟨q, -, -, rfl⟩ <;>
      simp only [work] <;> omega

theorem lower_sound {i : ℕ} {input : AudioInput} {sounds : Calls.World}
    (hs : Calls.step s.sounds (.resume i input) = some sounds) :
    work { s with sounds := sounds } < s.work := by
  obtain ⟨call, stage, stage', a, hi, hadvance, rfl⟩ := Calls.step_resume hs
  have hlower := Calls.left_advance hadvance
  have hsum := Flight.sum_map_set_add hi ⟨call, stage'⟩ fun c : Calls.InFlight => c.stage.left
  simp only [work]
  dsimp only at hsum
  omega

omit [CaseMap] in
/-- An affirmation that was waited for. -/
theorem lower_setDesk (s₁ : MotiAIApp) {i : ℕ} {sent : Quote} {stage stage' : AffirmationStage}
    (hi : s.desk[i]? = some ⟨sent, stage⟩) (hlower : stage'.left < stage.left)
    (hwork : s₁.work = s.work) (hdesk : s₁.desk = s.desk) :
    work { s₁ with desk := s.desk.set i ⟨sent, stage'⟩ } < s.work := by
  have hsum := Flight.sum_map_set_add hi ⟨sent, stage'⟩
    fun a : AffirmationRequest => a.stage.left
  simp only [work, hdesk] at hwork ⊢
  dsimp only at hsum
  omega

/-- **Every move of its own** lowers the work. -/
theorem lower_step [NumText] {m : AppMove} (hm : m.isInner = true) (hs : s.step m = some s') :
    s'.work < s.work := by
  have hdesk : ∀ {dm : DeskMove}, (∀ move, dm ≠ .screen move) → s.deskStep dm = some s' →
      (∀ i affirmation, dm = .answer i affirmation ∨ dm = .saved i → s'.work < s.work) := by
    intro dm hscreen hdm i affirmation hinner
    cases deskEffect_of_step hscreen hdm with
    | shown hi => exact lower_setDesk s hi (by decide : 0 < 1) rfl rfl
    | failed hi => exact lower_setDesk s hi (by decide : 0 < 1) rfl rfl
    | @saved _ _ affirmation quote hi =>
      exact lower_setDesk { s with
        quotes := (saveAffirmationToQuote quote.id affirmation s.quotes).getD s.quotes } hi
        (by decide : 0 < 1) rfl rfl
    | nothing => rcases hinner with h | h <;> cases h
    | asked => rcases hinner with h | h <;> cases h
    | save => rcases hinner with h | h <;> cases h
    | close => rcases hinner with h | h <;> cases h
  cases m with
  | start i => exact lower_resume hs (by simp)
  | answer i turn =>
    obtain ⟨⟨result, s₁⟩, hfetch, hr⟩ := Option.bind_eq_some_iff.mp hs
    have hlower : s'.work < s₁.work := lower_resume hr (by simp)
    rcases fetch_cases hfetch with ⟨-, rfl⟩ | ⟨q, -, -, rfl⟩
    · exact hlower
    · exact hlower
  | read i shuffle => exact lower_resume hs (by simp)
  | display i shuffle millis => exact lower_displayQuote hs
  | fetched turn => exact lower_fetched hs
  | sound i picks decodeFails =>
    simp only [step] at hs
    obtain ⟨sounds, hsounds, rfl⟩ := Option.map_eq_some_iff.mp hs
    exact lower_sound hsounds
  | ambiencePlayed i shuffle millis =>
    simp only [step] at hs
    split at hs
    · rename_i quote k hi
      split at hs
      · obtain ⟨⟨stage, s₁⟩, hs₁, rfl⟩ := Option.map_eq_some_iff.mp hs
        have hsearched := searched_of_lookUp hs₁
        have hambience : (ScreenStage.ambience k).left = 4 := rfl
        have hle := hsearched.work_le
        refine lower_setRun s₁ hi hsearched.runs ?_
        show s₁.work + stage.left < _
        omega
      · cases hs
    · cases hs
  | imageRead j readable => exact lower_serve hs fun _ h => ImageCalls.goesOn_read h
  | imageAnswer j reply millis writable => exact lower_serve hs fun _ h => ImageCalls.goesOn_answer h
  | generated i =>
    simp only [step] at hs
    split at hs
    · rename_i quote url hi
      obtain ⟨d, -, rfl⟩ := Option.map_eq_some_iff.mp hs
      exact lower_setRun (s.setBackground d) hi rfl (Nat.lt_succ_self _)
    · cases hs
  | affirmationAnswer i reply =>
    exact hdesk (by simp) hs i (AffirmationService.generateAffirmation s.key reply) (Or.inl rfl)
  | savedAffirmation i => exact hdesk (by simp) hs i none (Or.inr rfl)
  | _ => cases hm

/-! ## While there is work, a move is possible -/

variable [NumText]

theorem exists_request (hstocked : Stocked s) (hill : Illustrated s) (b : Brought)
    {request : Request} (hrequest : request ∈ s.world.requests) (hne : request.stage ≠ .done) :
    ∃ m, (∃ i, m ∈ b.moves i) ∧ ∃ s', s.step m = some s' := by
  obtain ⟨i, hi⟩ := List.mem_iff_getElem?.mp hrequest
  obtain ⟨m, hm, hs⟩ := exists_step hstocked hill hi hne b.turn b.shuffle b.keys b.millis
  exact ⟨m, ⟨i, List.mem_append_left _ hm⟩, hs⟩

theorem exists_fetched (b : Brought) (hfetches : s.fetches ≠ 0) :
    ∃ s', s.step (.fetched b.turn) = some s' := by
  obtain ⟨result, s₁, hfetch⟩ := s.exists_fetch b.turn
  simp only [step, hfetches, if_false, hfetch]
  exact ⟨_, rfl⟩

theorem exists_sound (h : Waits s) (b : Brought) {c : Calls.InFlight} (hc : c ∈ s.sounds.calls)
    (hne : c.stage ≠ .done) : ∃ i s', s.step (.sound i b.picks b.decodeFails) = some s' := by
  obtain ⟨i, hi⟩ := List.mem_iff_getElem?.mp hc
  obtain ⟨r, hr⟩ := Calls.exists_advance ⟨b.picks, s.cachedAudio, b.decodeFails⟩ s.sounds.audio
    (h.staged c hc) hne
  refine ⟨i, ?_⟩
  simp only [step, Calls.step, hi, hr]
  exact ⟨_, rfl⟩

theorem exists_image (b : Brought) {call : ImageCall} {j : ℕ} (hj : s.service.calls[j]? = some call)
    (hne : call.stage ≠ .done) : (∃ s', s.step (.imageRead j b.readable) = some s') ∨
      ∃ s', s.step (.imageAnswer j b.imageReply b.millis b.writable) = some s' := by
  rcases ImageCalls.exists_goesOn hj hne b.readable b.imageReply b.millis b.writable with
    ⟨service, hservice⟩ | ⟨service, hservice⟩
  · refine Or.inl ?_
    simp only [step, serve, hservice]
    exact ⟨_, rfl⟩
  · refine Or.inr ?_
    simp only [step, serve, hservice]
    exact ⟨_, rfl⟩

/-- A run can go on when no audio call and no image call can. -/
theorem exists_run (hstocked : Stocked s) (hill : Illustrated s) (h : Waits s) (b : Brought)
    (hsounds : Calls.Quiet s.sounds) (himages : ∀ call ∈ s.service.calls, call.stage = .done)
    {run : ScreenRun} (hrun : run ∈ s.runs) (hne : run.stage ≠ .done) :
    ∃ i s', s.step (.ambiencePlayed i b.keys b.millis) = some s' ∨
      s.step (.generated i) = some s' := by
  obtain ⟨i, hi⟩ := List.mem_iff_getElem?.mp hrun
  obtain ⟨quote, stage⟩ := run
  cases stage with
  | ambience k =>
    have hlt := h.ambience _ hrun k rfl
    have hk : s.sounds.calls[k]? = some s.sounds.calls[k] := List.getElem?_eq_getElem hlt
    have hdone := hsounds _ (List.getElem_mem hlt)
    generalize s.sounds.calls[k] = c at hk hdone
    obtain ⟨call, stage⟩ := c
    obtain rfl : stage = .done := hdone
    obtain ⟨p, hp⟩ := hill.exists_lookUp hstocked.stock quote b.keys b.millis
    refine ⟨i, { p.2 with runs := s.runs.set i ⟨quote, p.1⟩ }, Or.inl ?_⟩
    simp only [step, hi, hk, hp, Option.map_some]
  | generating j =>
    -- its image call has not ended
    obtain ⟨prompt, hj⟩ := h.generating _ hrun j rfl
    rcases hj with hj | hj
    · cases himages _ (List.mem_of_getElem? hj)
    · cases himages _ (List.mem_of_getElem? hj)
  | answered url =>
    have hreceive : ∃ d, Background.receive quote (.image url) s.background = some d := by
      simp only [Background.receive]
      split <;> exact ⟨_, rfl⟩
    obtain ⟨d, hd⟩ := hreceive
    refine ⟨i, { s.setBackground d with runs := s.runs.set i ⟨quote, .done⟩ }, Or.inr ?_⟩
    simp only [step, hi, hd, Option.map_some]
  | done => exact absurd rfl hne

theorem exists_desk (b : Brought) {a : AffirmationRequest} (ha : a ∈ s.desk)
    (hne : a.stage.left ≠ 0) : ∃ i s', s.step (.affirmationAnswer i b.reply) = some s' ∨
      s.step (.savedAffirmation i) = some s' := by
  obtain ⟨i, hi⟩ := List.mem_iff_getElem?.mp ha
  obtain ⟨sent, stage⟩ := a
  have hdesk : s.toDesk.affirmations[i]? = some ⟨sent, stage⟩ := hi
  cases stage with
  | generating =>
    have hanswer : ∃ s', s.step (.affirmationAnswer i b.reply) = some s' := by
      simp only [step, deskStep, Desk.step, hdesk]
      split <;> exact ⟨_, rfl⟩
    obtain ⟨s', hs'⟩ := hanswer
    exact ⟨i, s', Or.inl hs'⟩
  | saving affirmation quote =>
    have hsaved : ∃ s', s.step (.savedAffirmation i) = some s' := by
      simp only [step, deskStep, Desk.step, hdesk]
      exact ⟨_, rfl⟩
    obtain ⟨s', hs'⟩ := hsaved
    exact ⟨i, s', Or.inr hs'⟩
  | shown affirmation => exact absurd rfl hne
  | closed => exact absurd rfl hne

/-- **The application is never stuck**: while something goes on, it can go on. -/
theorem exists_move (hstocked : Stocked s) (hill : Illustrated s) (h : Waits s) (b : Brought)
    (hne : s.work ≠ 0) : ∃ m, (∃ i, m ∈ b.moves i) ∧ ∃ s', s.step m = some s' := by
  by_contra hstuck
  have hstuck' : ∀ m i s', m ∈ b.moves i → s.step m ≠ some s' := by
    intro m i s' hm hs
    exact hstuck ⟨m, ⟨i, hm⟩, s', hs⟩
  refine hne (idle_iff.mp ?_)
  have hsounds : Calls.Quiet s.sounds := by
    intro c hc
    by_contra hdone
    obtain ⟨i, s', hs⟩ := exists_sound h b hc hdone
    exact hstuck' _ i s' (by simp [Brought.moves]) hs
  have himages : ∀ call ∈ s.service.calls, call.stage = .done := by
    intro call hcall
    by_contra hdone
    obtain ⟨j, hj⟩ := List.mem_iff_getElem?.mp hcall
    rcases exists_image b hj hdone with ⟨s', hs⟩ | ⟨s', hs⟩
    · exact hstuck' _ j s' (by simp [Brought.moves]) hs
    · exact hstuck' _ j s' (by simp [Brought.moves]) hs
  refine ⟨fun request hrequest => ?_, ?_, hsounds, fun run hrun => ?_, himages, fun a ha => ?_⟩
  · by_contra hdone
    exact hstuck (exists_request hstocked hill b hrequest hdone)
  · by_contra hfetches
    obtain ⟨s', hs⟩ := exists_fetched b hfetches
    exact hstuck' _ 0 s' (by simp [Brought.moves]) hs
  · by_contra hdone
    obtain ⟨i, s', hs | hs⟩ := exists_run hstocked hill h b hsounds himages hrun hdone
    · exact hstuck' _ i s' (by simp [Brought.moves]) hs
    · exact hstuck' _ i s' (by simp [Brought.moves]) hs
  · rw [← AffirmationStage.left_eq_zero]
    by_contra hleft
    obtain ⟨i, s', hs | hs⟩ := exists_desk b ha hleft
    · exact hstuck' _ i s' (by simp [Brought.moves]) hs
    · exact hstuck' _ i s' (by simp [Brought.moves]) hs

/-- What holds of every state, and lets the application go on. -/
structure Running (s : MotiAIApp) : Prop where
  stocked : Stocked s
  illustrated : Illustrated s
  waits : Waits s

theorem Running.step (h : Running s) {m : AppMove} (hs : s.step m = some s') : Running s' :=
  ⟨h.stocked.step hs, h.illustrated.step h.stocked hs, h.waits.step h.illustrated hs⟩

theorem settles : Settling.Settles MotiAIApp.step Running (fun m => m.isInner = true) work where
  keep := fun _ _ _ h _ hs => h.step hs
  lower := fun _ _ _ _ hm hs => lower_step hm hs

/-- What is expected of a state. -/
structure Settling (s : MotiAIApp) : Prop where
  bounded : ∀ moves s', (∀ m ∈ moves, m.isInner = true) → Run.final step s moves = some s' →
    moves.length + s'.work ≤ s.work
  stuck : ∀ b : Brought, (∀ i, ∀ m ∈ b.moves i, s.step m = none) → Idle s
  settles : ∀ b : Brought, ∃ moves s', (∀ m ∈ moves, ∃ i, m ∈ b.moves i) ∧
    Run.final step s moves = some s' ∧ Idle s'

/-- **The application settles.** In every state that is reached from a fresh installation, whatever
is brought, the application's own moves come to an end: there are no more of them than work is left,
while something goes on one of them is possible, and they can be made until nothing goes on. -/
theorem settling_run (key stabilityKey : EnvEntry) (moves : List AppMove) :
    Run.Each step (fun _ _ s' => Settling s') (installed key stabilityKey) moves := by
  refine Run.each_of_invariant (I := Running) (P := fun _ _ _ => True)
    (fun s m s' h hs _ => ?_) moves _ ⟨stocked_installed key stabilityKey,
      illustrated_installed key stabilityKey, waits_installed key stabilityKey⟩
    (Run.each_of_forall_mem fun _ _ _ _ => trivial)
  have h' := h.step hs
  refine ⟨h', fun moves' t hinner ht => (settles.length_add_le h' hinner ht).2, fun b hnone => ?_,
    fun b => ?_⟩
  · by_contra hidle
    obtain ⟨m, ⟨i, hm⟩, t, ht⟩ := exists_move h'.stocked h'.illustrated h'.waits b
      fun hwork => hidle (idle_iff.mpr hwork)
    rw [hnone i m hm] at ht
    cases ht
  · obtain ⟨moves', t, hmoves, ht, -, hwork⟩ := settles.exists_idle
      (A := fun m => ∃ i, m ∈ b.moves i) (fun m ⟨_, hm⟩ => Brought.isInner hm)
      (fun s h hne => exists_move h.stocked h.illustrated h.waits b hne) h'
    exact ⟨moves', t, hmoves, ht, idle_iff.mpr hwork⟩

end

end MotiAIApp

end MotiAI
