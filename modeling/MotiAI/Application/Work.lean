import MotiAI.Application.Progress
import MotiAI.Application.Audio

/-!
# The work that is left

Requests for a quote, background fetches, audio calls, runs for a background image, image calls and
affirmations go on until they have ended. Each has a number of moves that it needs at the most, with
the moves of what it starts on its way: a display starts a run, the run an audio call and an image
call. A run waits for calls that exist and have not ended.

1. `Waits`: no run waits for a call that will not end, and no stop for anything but its player.
2. `Waits.step`: every move keeps this.
-/

namespace MotiAI

open Dart Hive HiveQuoteService

/-! ## Audio calls -/

namespace Calls

open Audio

def Stage.left : Stage → ℕ
  | .stopping => 6
  | .disposing => 5
  | .stopped => 4
  | .releasing (.ai _ _) => 3
  | .releasing (.file _) => 2
  | .starting => 1
  | .done => 0

theorem Stage.left_eq_zero {stage : Stage} : stage.left = 0 ↔ stage = .done := by
  cases stage with
  | releasing source => cases source <;> simp [left]
  | _ => simp [left]

/-- A stop only waits for the player it stops. -/
def InFlight.Staged (c : InFlight) : Prop :=
  c.call = .stop → c.stage = .stopping ∨ c.stage = .disposing ∨ c.stage = .done

theorem left_afterStop (call : Call) : call.afterStop.left ≤ 4 := by
  cases call with
  | play tradition => exact le_refl 4
  | stop => exact Nat.zero_le 4

theorem left_beginStop (call : Call) (a : Audio) : (beginStop call a).1.left ≤ 6 := by
  unfold beginStop
  split
  · exact le_refl 6
  · cases call with
    | play tradition => exact (by decide : 4 ≤ 6)
    | stop => exact Nat.zero_le 6

theorem left_begin (call : Call) (a : Audio) : (begin call a).1.left ≤ 6 := by
  cases call with
  | stop => exact left_beginStop .stop a
  | play tradition =>
    unfold begin
    dsimp only
    split
    · exact Nat.zero_le 6
    · exact left_beginStop _ _

theorem staged_begin (call : Call) (a : Audio) : InFlight.Staged ⟨call, (begin call a).1⟩ := by
  rintro rfl
  have hstage : (begin .stop a).1 = .stopping ∨ (begin .stop a).1 = .done := by
    simp only [begin, beginStop]
    split
    · exact Or.inl rfl
    · exact Or.inr rfl
  exact hstage.imp_right Or.inr

section

variable [CaseMap] {call : Call} {input : AudioInput} {a a' : Audio} {stage stage' : Stage}

/-- A call that has selected its source has not more than that source to play. -/
theorem left_beginSource (tradition : String) : (beginSource input tradition a).1.left ≤ 3 := by
  unfold beginSource
  dsimp only
  split
  · exact le_refl 3
  · exact (by decide : 2 ≤ 3)

theorem left_fallBack (audioId : String) : (fallBack input audioId a).1.left ≤ 2 := by
  unfold fallBack
  split
  · exact Nat.zero_le 2
  · exact le_refl 2

/-- **A call that goes on** needs fewer moves. -/
theorem left_advance (h : advance call input a stage = some (stage', a')) :
    stage'.left < stage.left := by
  cases stage with
  | stopping =>
    simp only [advance] at h
    split at h
    · obtain ⟨rfl, -⟩ := Prod.mk.inj (Option.some.inj h)
      exact (by decide : 5 < 6)
    · obtain ⟨rfl, -⟩ := Prod.mk.inj (Option.some.inj h)
      exact (left_afterStop call).trans_lt (by decide : 4 < 6)
  | disposing =>
    obtain ⟨rfl, -⟩ := Prod.mk.inj (Option.some.inj h)
    exact (left_afterStop call).trans_lt (by decide : 4 < 5)
  | stopped =>
    cases call with
    | play tradition =>
      obtain ⟨hstage, -⟩ := Prod.mk.inj (Option.some.inj (h : some (_, _) = _))
      rw [← hstage]
      exact (left_beginSource tradition).trans_lt (by decide : 3 < 4)
    | stop => cases h
  | releasing source =>
    cases call with
    | stop => cases h
    | play tradition =>
      cases source with
      | ai audioId audioData =>
        simp only [advance] at h
        split at h
        · obtain ⟨rfl, -⟩ := Prod.mk.inj (Option.some.inj h)
          exact (by decide : 1 < 3)
        · obtain ⟨hstage, -⟩ := Prod.mk.inj (Option.some.inj (h : some (_, _) = _))
          rw [← hstage]
          exact (left_fallBack audioId).trans_lt (by decide : 2 < 3)
      | file audioFile =>
        simp only [advance] at h
        split at h
        · obtain ⟨rfl, -⟩ := Prod.mk.inj (Option.some.inj h)
          exact (by decide : 1 < 2)
        · obtain ⟨rfl, -⟩ := Prod.mk.inj (Option.some.inj h)
          exact (by decide : 0 < 2)
  | starting =>
    obtain ⟨rfl, -⟩ := Prod.mk.inj (Option.some.inj h)
    exact (by decide : 0 < 1)
  | done => cases h

/-- **A call that has not ended can go on.** -/
theorem exists_advance (input : AudioInput) (a : Audio) {c : InFlight} (hc : c.Staged)
    (hne : c.stage ≠ .done) : ∃ r, advance c.call input a c.stage = some r := by
  obtain ⟨call, stage⟩ := c
  have hstop : call = .stop → stage = .stopping ∨ stage = .disposing := by
    intro hcall
    rcases hc hcall with h | h | h
    · exact Or.inl h
    · exact Or.inr h
    · exact absurd h hne
  cases stage with
  | stopping =>
    simp only [advance]
    split <;> exact ⟨_, rfl⟩
  | disposing => exact ⟨_, rfl⟩
  | stopped =>
    cases call with
    | play tradition => exact ⟨_, rfl⟩
    | stop => rcases hstop rfl with h | h <;> cases h
  | releasing source =>
    cases call with
    | stop => rcases hstop rfl with h | h <;> cases h
    | play tradition =>
      cases source with
      | ai audioId audioData =>
        simp only [advance]
        split <;> exact ⟨_, rfl⟩
      | file audioFile =>
        simp only [advance]
        split <;> exact ⟨_, rfl⟩
  | starting => exact ⟨_, rfl⟩
  | done => exact absurd rfl hne

/-- A stop goes on to the end of its player. -/
theorem staged_advance (h : advance call input a stage = some (stage', a'))
    (hc : InFlight.Staged ⟨call, stage⟩) : InFlight.Staged ⟨call, stage'⟩ := by
  rintro rfl
  rcases hc rfl with rfl | rfl | rfl
  · simp only [advance] at h
    split at h
    · obtain ⟨rfl, -⟩ := Prod.mk.inj (Option.some.inj h)
      exact Or.inr (Or.inl rfl)
    · obtain ⟨rfl, -⟩ := Prod.mk.inj (Option.some.inj h)
      exact Or.inr (Or.inr rfl)
  · obtain ⟨rfl, -⟩ := Prod.mk.inj (Option.some.inj h)
    exact Or.inr (Or.inr rfl)
  · cases h

theorem staged_step {w w' : World} {m : Move} (h : step w m = some w')
    (hw : ∀ c ∈ w.calls, c.Staged) :
    (∀ c ∈ w'.calls, c.Staged) ∧ w.calls.length ≤ w'.calls.length := by
  cases m with
  | issue call =>
    obtain rfl := Option.some.inj h
    refine ⟨fun c hc => ?_, ?_⟩
    · rcases List.mem_append.mp hc with hc | hc
      · exact hw c hc
      · obtain rfl := List.mem_singleton.mp hc
        exact staged_begin call w.audio
    · rw [List.length_append]
      omega
  | resume i input =>
    obtain ⟨call, stage, stage', a, hi, hadvance, rfl⟩ := step_resume h
    refine ⟨fun c hc => ?_, ?_⟩
    · rcases List.mem_or_eq_of_mem_set hc with hc | rfl
      · exact hw c hc
      · exact staged_advance hadvance (hw _ (List.mem_of_getElem? hi))
    · rw [List.length_set]

end

end Calls

/-! ## Image calls -/

def ImageStage.left : ImageStage → ℕ
  | .reading => 2
  | .generating => 1
  | .prefetching _ => 1
  | .done => 0

theorem ImageStage.left_eq_zero {stage : ImageStage} : stage.left = 0 ↔ stage = .done := by
  cases stage <;> simp [left]

namespace ImageCalls

/-- The call `j` of `generateImage` has not ended. -/
def Awaited (s : ImageCalls) (j : ℕ) : Prop :=
  ∃ prompt, s.calls[j]? = some ⟨prompt, .reading⟩ ∨ s.calls[j]? = some ⟨prompt, .generating⟩

/-- The call `j` goes on; when it is one of `generateImage`, it returns or asks the API. -/
structure GoesOn (j : ℕ) (s s' : ImageCalls) : Prop where
  call : ∃ prompt stage stage', s.calls[j]? = some ⟨prompt, stage⟩ ∧
    s'.calls = s.calls.set j ⟨prompt, stage'⟩ ∧ stage'.left < stage.left ∧
    (s'.returned = none → stage' = .generating ∨ ∃ quoteId, stage = .prefetching quoteId)

variable {s s' : ImageCalls} {j : ℕ}

theorem Awaited.set (h : s.Awaited j) {i : ℕ} (hij : j ≠ i) {call : ImageCall}
    (hcalls : s'.calls = s.calls.set i call) : s'.Awaited j := by
  unfold Awaited
  rw [hcalls, List.getElem?_set_ne (Ne.symm hij)]
  exact h

section

variable [CaseMap]

theorem goesOn_read {readable : Bool} (hs : s.step (.read j readable) = some s') :
    GoesOn j s s' := by
  simp only [step] at hs
  split at hs
  · rename_i prompt hj
    split at hs
    · obtain rfl := Option.some.inj hs
      exact ⟨prompt, .reading, .done, hj, rfl, by decide, fun h => by cases h⟩
    · obtain rfl := Option.some.inj hs
      exact ⟨prompt, .reading, .generating, hj, rfl, by decide, fun _ => Or.inl rfl⟩
  · cases hs

theorem goesOn_answer {reply : Reply (Option Plain)} {millis : ℕ} {writable : Bool}
    (hs : s.step (.answer j reply millis writable) = some s') : GoesOn j s s' := by
  simp only [step] at hs
  split at hs
  · rename_i prompt hj
    obtain rfl := Option.some.inj hs
    exact ⟨prompt, .generating, .done, hj, rfl, by decide, fun h => by cases h⟩
  · rename_i prompt quoteId hj
    have hprefetching : ∃ id, ImageStage.prefetching quoteId = .prefetching id := ⟨quoteId, rfl⟩
    split at hs
    · obtain rfl := Option.some.inj hs
      exact ⟨prompt, .prefetching quoteId, .done, hj, rfl, Nat.zero_lt_one,
        fun _ => Or.inr hprefetching⟩
    · obtain rfl := Option.some.inj hs
      exact ⟨prompt, .prefetching quoteId, .done, hj, rfl, Nat.zero_lt_one,
        fun _ => Or.inr hprefetching⟩
  · cases hs

/-- **A call that has not ended can go on.** -/
theorem exists_goesOn {call : ImageCall} (hj : s.calls[j]? = some call) (hne : call.stage ≠ .done)
    (readable : Bool) (reply : Reply (Option Plain)) (millis : ℕ) (writable : Bool) :
    (∃ s', s.step (.read j readable) = some s') ∨
      ∃ s', s.step (.answer j reply millis writable) = some s' := by
  obtain ⟨prompt, stage⟩ := call
  cases stage with
  | reading =>
    refine Or.inl ?_
    simp only [step, hj]
    split <;> exact ⟨_, rfl⟩
  | generating =>
    refine Or.inr ?_
    simp only [step, hj]
    exact ⟨_, rfl⟩
  | prefetching quoteId =>
    refine Or.inr ?_
    simp only [step, hj]
    split <;> exact ⟨_, rfl⟩
  | done => exact absurd rfl hne

/-- An image is asked for: the memory cache has it, or a call waits for its file. -/
theorem ask_cases {prompt : String} (hs : s.step (.ask prompt) = some s') :
    (s'.calls = s.calls ∧ ∃ cacheKey image, s'.returned = some (cacheKey, image)) ∨
      s'.calls = s.calls ++ [⟨prompt, .reading⟩] ∧ s'.returned = none := by
  simp only [step] at hs
  split at hs
  · split at hs
    · obtain rfl := Option.some.inj hs
      exact Or.inl ⟨rfl, _, _, rfl⟩
    · obtain rfl := Option.some.inj hs
      exact Or.inr ⟨rfl, rfl⟩
  · obtain rfl := Option.some.inj hs
    exact Or.inr ⟨rfl, rfl⟩

end

end ImageCalls

/-! ## The application -/

def ScreenStage.left : ScreenStage → ℕ
  | .ambience _ => 4
  | .generating _ => 1
  | .answered _ => 1
  | .done => 0

theorem ScreenStage.left_eq_zero {stage : ScreenStage} : stage.left = 0 ↔ stage = .done := by
  cases stage <;> simp [left]

def AffirmationStage.left : AffirmationStage → ℕ
  | .generating => 1
  | .saving _ _ => 1
  | .shown _ => 0
  | .closed => 0

theorem AffirmationStage.left_eq_zero {stage : AffirmationStage} :
    stage.left = 0 ↔ stage = .closed ∨ ∃ affirmation, stage = .shown affirmation := by
  cases stage <;> simp [left]

/-- A display starts a background fetch and a run, the run an audio call of at most six moves and
what follows it. -/
def Stage.work : Stage → ℕ
  | .done => 0
  | stage => stage.left + 11

theorem Stage.work_eq_zero {stage : Stage} : stage.work = 0 ↔ stage = .done := by
  cases stage <;> simp [work]

namespace MotiAIApp

/-- How many moves what goes on needs at the most. -/
def work (s : MotiAIApp) : ℕ :=
  (s.world.requests.map fun request => request.stage.work).sum + s.fetches +
    (s.sounds.calls.map fun c => c.stage.left).sum + (s.runs.map fun run => run.stage.left).sum +
    (s.service.calls.map fun call => call.stage.left).sum + (s.desk.map fun a => a.stage.left).sum

/-- What the runs and the stops wait for will come. -/
structure Waits (s : MotiAIApp) : Prop where
  staged : ∀ c ∈ s.sounds.calls, c.Staged
  ambience : ∀ run ∈ s.runs, ∀ k, run.stage = .ambience k → k < s.sounds.calls.length
  generating : ∀ run ∈ s.runs, ∀ j, run.stage = .generating j → s.service.Awaited j

theorem waits_installed (key stabilityKey : EnvEntry) : Waits (installed key stabilityKey) where
  staged := fun _ h => absurd h List.not_mem_nil
  ambience := fun _ h => absurd h List.not_mem_nil
  generating := fun _ h => absurd h List.not_mem_nil

/-- A run looks for an image; when it asks for a new one, a call waits for its file. -/
structure Searched (s : MotiAIApp) (stage : ScreenStage) (s' : MotiAIApp) : Prop where
  requests : s'.world.requests = s.world.requests
  fetches : s'.fetches = s.fetches
  sounds : s'.sounds = s.sounds
  runs : s'.runs = s.runs
  desk : s'.desk = s.desk
  calls : s'.service.calls = s.service.calls ∧ (stage = .done ∨ ∃ url, stage = .answered url) ∨
    ∃ prompt, s'.service.calls = s.service.calls ++ [⟨prompt, .reading⟩] ∧
      stage = .generating s.service.calls.length

variable {s s' : MotiAIApp} {stage : ScreenStage}

theorem Searched.awaited (h : Searched s stage s') {j : ℕ} (hj : s.service.Awaited j) :
    s'.service.Awaited j := by
  obtain ⟨prompt, hcall⟩ := hj
  rcases h.calls with ⟨hcalls, -⟩ | ⟨prompt', hcalls, -⟩
  · unfold ImageCalls.Awaited
    rw [hcalls]
    exact ⟨prompt, hcall⟩
  · refine ⟨prompt, hcall.imp (fun hcall => ?_) fun hcall => ?_⟩
    · rw [hcalls, List.getElem?_append_left (List.getElem?_eq_some_iff.mp hcall).1]
      exact hcall
    · rw [hcalls, List.getElem?_append_left (List.getElem?_eq_some_iff.mp hcall).1]
      exact hcall

/-- A run that has searched waits for the call that it has made. -/
theorem Searched.waits (h : Searched s stage s') {k : ℕ} :
    stage ≠ .ambience k ∧ ∀ j, stage = .generating j → s'.service.Awaited j := by
  rcases h.calls with ⟨-, hstage⟩ | ⟨prompt, hcalls, rfl⟩
  · rcases hstage with rfl | ⟨url, rfl⟩
    · exact ⟨by simp, by simp⟩
    · exact ⟨by simp, by simp⟩
  · refine ⟨by simp, fun j hj => ⟨prompt, Or.inl ?_⟩⟩
    obtain rfl := ScreenStage.generating.inj hj
    rw [hcalls]
    exact List.getElem?_concat_length

/-- A run begins: it has made an audio call, or has searched. -/
inductive Began (s : MotiAIApp) (quote : Quote) : MotiAIApp → Prop
  | ambience {s' c} (hsounds : s'.sounds.calls = s.sounds.calls ++ [c]) (hstaged : c.Staged)
      (hleft : c.stage.left ≤ 6) (hrequests : s'.world.requests = s.world.requests)
      (hfetches : s'.fetches = s.fetches) (hservice : s'.service = s.service)
      (hdesk : s'.desk = s.desk)
      (hruns : s'.runs = s.runs ++ [⟨quote, .ambience s.sounds.calls.length⟩]) : Began s quote s'
  | search {s₁ stage} (hsearched : Searched s stage s₁) :
      Began s quote { s₁ with runs := s.runs ++ [⟨quote, stage⟩] }

section

variable [CaseMap]

theorem searched_of_lookUp {quote : Quote} {shuffle : Shuffle String} {millis : ℕ}
    (h : s.lookUp quote shuffle millis = some (stage, s')) : Searched s stage s' := by
  unfold lookUp at h
  split at h
  · cases h
  · obtain ⟨rfl, rfl⟩ := Prod.mk.inj (Option.some.inj h)
    exact ⟨rfl, rfl, rfl, rfl, rfl, Or.inl ⟨rfl, Or.inl rfl⟩⟩
  · rename_i prompt d hd
    obtain ⟨service, hservice, heq⟩ := Option.map_eq_some_iff.mp h
    obtain ⟨rfl, rfl⟩ := Prod.mk.inj heq
    refine ⟨rfl, rfl, rfl, rfl, rfl, ?_⟩
    rcases ImageCalls.ask_cases hservice with ⟨hcalls, cacheKey, image, hreturned⟩ |
      ⟨hcalls, hreturned⟩
    · rw [hreturned]
      exact Or.inl ⟨hcalls, Or.inr ⟨image, rfl⟩⟩
    · rw [hreturned]
      exact Or.inr ⟨prompt, hcalls, rfl⟩

theorem began_of_generateBackgroundImage {quote : Quote} {shuffle : Shuffle String} {millis : ℕ}
    (h : s.generateBackgroundImage quote shuffle millis = some s') : Began s quote s' := by
  unfold generateBackgroundImage at h
  dsimp only at h
  split at h
  · obtain ⟨s₁, hs₁, rfl⟩ := Option.map_eq_some_iff.mp h
    obtain ⟨sounds, hsounds, rfl⟩ := Option.map_eq_some_iff.mp hs₁
    obtain rfl := Option.some.inj hsounds
    exact .ambience rfl (Calls.staged_begin _ _) (Calls.left_begin _ _) rfl rfl rfl rfl rfl
  · obtain ⟨⟨stage, s₁⟩, hs₁, rfl⟩ := Option.map_eq_some_iff.mp h
    have hsearched := searched_of_lookUp hs₁
    exact .search ⟨hsearched.requests, hsearched.fetches, hsearched.sounds, hsearched.runs,
      hsearched.desk, hsearched.calls⟩

/-! ## What is waited for will come -/

omit [CaseMap] in
/-- What leaves the runs, and lets the calls go on. -/
theorem Waits.congr (h : Waits s) (hstaged : ∀ c ∈ s'.sounds.calls, c.Staged)
    (hlength : s.sounds.calls.length ≤ s'.sounds.calls.length) (hruns : s'.runs = s.runs)
    (hawaited : ∀ j, s.service.Awaited j → s'.service.Awaited j) : Waits s' := by
  refine ⟨hstaged, ?_, ?_⟩
  · rw [hruns]
    exact fun run hrun k hk => (h.ambience run hrun k hk).trans_le hlength
  · rw [hruns]
    exact fun run hrun j hj => hawaited j (h.generating run hrun j hj)

omit [CaseMap] in
/-- A run has searched. -/
theorem Waits.searched (h : Waits s) {s₁ : MotiAIApp} (hsearched : Searched s stage s₁)
    {runs : List ScreenRun}
    (hruns : ∀ run ∈ runs, run ∈ s.runs ∨ run.stage = stage) : Waits { s₁ with runs := runs } := by
  refine ⟨?_, fun run hrun k hk => ?_, fun run hrun j hj => ?_⟩
  · show ∀ c ∈ s₁.sounds.calls, _
    rw [hsearched.sounds]
    exact h.staged
  · show k < s₁.sounds.calls.length
    rw [hsearched.sounds]
    rcases hruns run hrun with hold | hnew
    · exact h.ambience run hold k hk
    · exact absurd (hnew.symm.trans hk) hsearched.waits.1
  · show s₁.service.Awaited j
    rcases hruns run hrun with hold | hnew
    · exact hsearched.awaited (h.generating run hold j hj)
    · exact (hsearched.waits (k := 0)).2 j (hnew.symm.trans hj)

omit [CaseMap] in
theorem Waits.began (h : Waits s) {quote : Quote} (hbegan : Began s quote s') : Waits s' := by
  cases hbegan with
  | @ambience _ c hsounds hstaged hleft hrequests hfetches hservice hdesk hruns =>
    refine ⟨fun c' hc' => ?_, fun run hrun k hk => ?_, fun run hrun j hj => ?_⟩
    · rw [hsounds] at hc'
      rcases List.mem_append.mp hc' with hc' | hc'
      · exact h.staged c' hc'
      · obtain rfl := List.mem_singleton.mp hc'
        exact hstaged
    · rw [hsounds, List.length_append, List.length_singleton]
      rw [hruns] at hrun
      rcases List.mem_append.mp hrun with hrun | hrun
      · exact (h.ambience run hrun k hk).trans (Nat.lt_succ_self _)
      · obtain rfl := List.mem_singleton.mp hrun
        obtain rfl := ScreenStage.ambience.inj hk
        exact Nat.lt_succ_self _
    · rw [hservice]
      rw [hruns] at hrun
      rcases List.mem_append.mp hrun with hrun | hrun
      · exact h.generating run hrun j hj
      · obtain rfl := List.mem_singleton.mp hrun
        cases hj
  | search hsearched =>
    refine h.searched hsearched fun run hrun => ?_
    rcases List.mem_append.mp hrun with hrun | hrun
    · exact Or.inl hrun
    · obtain rfl := List.mem_singleton.mp hrun
      exact Or.inr rfl

/-- An image call goes on, and the runs that wait for it receive what it returns. -/
theorem Waits.serve (h : Waits s) {j : ℕ} {m : ImageMove} (hs : s.serve j m = some s')
    (hgo : ∀ service, s.service.step m = some service → ImageCalls.GoesOn j s.service service) :
    Waits s' := by
  obtain ⟨service, hservice, rfl⟩ := Option.map_eq_some_iff.mp hs
  obtain ⟨prompt, stage, stage', hj, hcalls, -, hnone⟩ := (hgo service hservice).call
  refine ⟨h.staged, fun run' hrun' k hk => ?_, fun run' hrun' k hk => ?_⟩
  · obtain ⟨run, hrun, rfl⟩ := List.mem_map.mp hrun'
    refine h.ambience run hrun k ?_
    unfold ScreenRun.settle at hk
    split at hk
    · split at hk
      · cases hk
      · exact hk
    · exact hk
  · show service.Awaited k
    obtain ⟨run, hrun, rfl⟩ := List.mem_map.mp hrun'
    unfold ScreenRun.settle at hk
    split at hk
    · rename_i k' cacheKey url hstage _
      split at hk
      · cases hk
      · rename_i hne
        obtain rfl := ScreenStage.generating.inj (hstage.symm.trans hk)
        exact (h.generating run hrun k' hk).set hne hcalls
    · rename_i hother
      have hawaited := h.generating run hrun k hk
      by_cases hkj : k = j
      · -- nothing was returned, so the call asks the API
        subst hkj
        have hreturned : service.returned = none := by
          cases hreturned : service.returned with
          | none => rfl
          | some p => exact absurd hreturned (hother k p.1 p.2 hk)
        obtain ⟨prompt', hawaited⟩ := hawaited
        rcases hnone hreturned with rfl | ⟨quoteId, rfl⟩
        · refine ⟨prompt, Or.inr ?_⟩
          rw [hcalls, List.getElem?_set_self (List.getElem?_eq_some_iff.mp hj).1]
        · rw [hj] at hawaited
          rcases hawaited with hcall | hcall <;> cases hcall
      · exact hawaited.set hkj hcalls

theorem staged_of_effect {m : AppMove} (he : SoundEffect s m s')
    (h : ∀ c ∈ s.sounds.calls, c.Staged) :
    (∀ c ∈ s'.sounds.calls, c.Staged) ∧ ((∀ key stabilityKey, m ≠ .restart key stabilityKey) →
      s.sounds.calls.length ≤ s'.sounds.calls.length) := by
  have hstep : ∀ {move : Calls.Move}, Calls.step s.sounds move = some s'.sounds →
      (∀ c ∈ s'.sounds.calls, c.Staged) ∧ ((∀ key stabilityKey, m ≠ .restart key stabilityKey) →
        s.sounds.calls.length ≤ s'.sounds.calls.length) := by
    intro move hmove
    obtain ⟨hstaged, hlength⟩ := Calls.staged_step hmove h
    exact ⟨hstaged, fun _ => hlength⟩
  have hkeep : s'.sounds.calls = s.sounds.calls →
      (∀ c ∈ s'.sounds.calls, c.Staged) ∧ ((∀ key stabilityKey, m ≠ .restart key stabilityKey) →
        s.sounds.calls.length ≤ s'.sounds.calls.length) := by
    intro hcalls
    rw [hcalls]
    exact ⟨h, fun _ => le_refl _⟩
  cases he with
  | kept hsounds => exact hkeep (congrArg Calls.World.calls hsounds)
  | displayed _ _ hs => exact hstep hs
  | silent hsounds => exact hkeep (congrArg Calls.World.calls hsounds)
  | switchedOn _ _ hs => exact hstep hs
  | failed hsounds => exact hkeep (congrArg Calls.World.calls hsounds)
  | switchedOff _ hs => exact hstep hs
  | resumed hs => exact hstep hs
  | ticked _ hsounds =>
    refine hkeep ?_
    rw [hsounds]
  | restarted hsounds =>
    rw [hsounds]
    exact ⟨fun _ hc => absurd hc List.not_mem_nil, fun hm => absurd rfl (hm _ _)⟩

theorem runs_toggleAudio (h : s.toggleAudio = some s') :
    s'.runs = s.runs ∧ s'.service = s.service := by
  unfold toggleAudio at h
  dsimp only at h
  split at h
  · split at h
    · obtain ⟨sounds, -, rfl⟩ := Option.map_eq_some_iff.mp h
      exact ⟨rfl, rfl⟩
    · obtain rfl := Option.some.inj h
      exact ⟨rfl, rfl⟩
  · obtain ⟨sounds, -, rfl⟩ := Option.map_eq_some_iff.mp h
    exact ⟨rfl, rfl⟩

omit [CaseMap] in
theorem Waits.fetchNextAIQuote (h : Waits s) : Waits s.fetchNextAIQuote := by
  unfold MotiAIApp.fetchNextAIQuote
  split
  · exact ⟨h.staged, h.ambience, h.generating⟩
  · exact h

theorem Waits.displayQuote (h : Waits s) {i : ℕ} {shuffle : Shuffle String} {millis : ℕ}
    (hs : s.displayQuote i shuffle millis = some s') : Waits s' := by
  obtain ⟨kind, quote, s₁, s₂, -, h₁, h₂, rfl⟩ := displayQuote_cases hs
  obtain ⟨world, -, rfl⟩ := Option.map_eq_some_iff.mp h₁
  have hworld : Waits { s with world := world } := ⟨h.staged, h.ambience, h.generating⟩
  exact (hworld.began (began_of_generateBackgroundImage h₂)).fetchNextAIQuote

/-- **Every move** leaves what is waited for on its way. -/
theorem Waits.step [NumText] (h : Waits s) (hill : Illustrated s) {m : AppMove}
    (hs : s.step m = some s') : Waits s' := by
  have hne : ∀ audioId audioData, m ≠ .preGenerated audioId audioData := by
    rintro audioId audioData rfl
    simp only [MotiAIApp.step, hill.notStarted, Bool.false_eq_true, if_false] at hs
    cases hs
  obtain ⟨hstaged, hlength⟩ := staged_of_effect (soundEffect_step hne hs).1 h.staged
  have hkeep : (∀ key stabilityKey, m ≠ .restart key stabilityKey) → s'.runs = s.runs →
      s'.service.calls = s.service.calls → Waits s' := by
    intro hm hruns hcalls
    refine h.congr hstaged (hlength hm) hruns fun j hj => ?_
    unfold ImageCalls.Awaited
    rw [hcalls]
    exact hj
  cases hback : m.isBackstage with
  | true =>
    cases m with
    | toggleAIQuotes =>
      obtain rfl := Option.some.inj hs
      exact hkeep (by simp) rfl rfl
    | toggleAudio =>
      obtain ⟨hruns, hservice⟩ := runs_toggleAudio hs
      exact hkeep (by simp) hruns (congrArg ImageCalls.calls hservice)
    | sound i picks decodeFails =>
      simp only [MotiAIApp.step] at hs
      obtain ⟨sounds, -, rfl⟩ := Option.map_eq_some_iff.mp hs
      exact hkeep (by simp) rfl rfl
    | timerTick f =>
      simp only [MotiAIApp.step] at hs
      split at hs
      · obtain rfl := Option.some.inj hs
        exact hkeep (by simp) rfl rfl
      · cases hs
    | ambiencePlayed i shuffle millis =>
      simp only [MotiAIApp.step] at hs
      split at hs
      · split at hs
        · obtain ⟨⟨stage, s₁⟩, hs₁, rfl⟩ := Option.map_eq_some_iff.mp hs
          refine h.searched (searched_of_lookUp hs₁) fun run hrun => ?_
          rcases List.mem_or_eq_of_mem_set hrun with hrun | rfl
          · exact Or.inl hrun
          · exact Or.inr rfl
        · cases hs
      · cases hs
    | imageRead j readable => exact h.serve hs fun _ hservice => ImageCalls.goesOn_read hservice
    | imageAnswer j reply millis writable =>
      exact h.serve hs fun _ hservice => ImageCalls.goesOn_answer hservice
    | tick duration =>
      obtain rfl := Option.some.inj hs
      exact hkeep (by simp) rfl rfl
    | generated i =>
      simp only [MotiAIApp.step] at hs
      split at hs
      · obtain ⟨d, -, rfl⟩ := Option.map_eq_some_iff.mp hs
        refine ⟨h.staged, fun run hrun k hk => ?_, fun run hrun j hj => ?_⟩
        · rcases List.mem_or_eq_of_mem_set hrun with hrun | rfl
          · exact h.ambience run hrun k hk
          · cases hk
        · rcases List.mem_or_eq_of_mem_set hrun with hrun | rfl
          · exact h.generating run hrun j hj
          · cases hj
      · cases hs
    | prefetchImage tradition i =>
      simp only [MotiAIApp.step, hill.notStarted, Bool.false_eq_true, if_false] at hs
      cases hs
    | preGenerated audioId audioData => exact absurd rfl (hne audioId audioData)
    | _ => cases hback
  | false =>
    rcases front_of_onstage (onstage_of_step hback hs) with hfront |
      ⟨i, shuffle, millis, rfl, hdisplay⟩ |
      ⟨key, stabilityKey, service, rfl, -, -, -, -, hruns, -⟩
    · refine ⟨hstaged, ?_, ?_⟩
      · rw [hfront.runs, hfront.sounds]
        exact h.ambience
      · rw [hfront.runs, hfront.service]
        exact h.generating
    · exact h.displayQuote hdisplay
    · refine ⟨hstaged, ?_, ?_⟩
      · rw [hruns]
        exact fun run hrun => absurd hrun List.not_mem_nil
      · rw [hruns]
        exact fun run hrun => absurd hrun List.not_mem_nil

end

end MotiAIApp

end MotiAI
