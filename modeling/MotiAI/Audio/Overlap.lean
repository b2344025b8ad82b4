import MotiAI.Audio.Switch
import MotiAI.Lib.Flight

/-!
# Overlapping audio requests

The calls of `playAmbience` and `stopAmbience` in flight at the same time, cut at their awaits. A
call reads `_currentPlayer` and `_isPlaying` again each time it goes on; all player calls succeed,
a decoding may fail.

1. `stop_alone`, `play_alone`: a call that runs by itself does what the sequential service does.
2. `settled_of_orderly`: once every call has completed, what sounds is what was asked for last, in
   every run in which calls overlap only with stops, and these have completed when a new player is
   created; in which a tradition repeats only while its audio plays or is about to; and in which no
   selected AI audio fails for good.
3. `not_settled_overlap`: a stop issued while a `playAmbience` waits for its player is lost.
-/

namespace MotiAI

open Dart Hive

namespace Calls

open Audio

inductive Call where
  | play (tradition : String)
  | stop

/-- The await a call is suspended at: `stop()` and `dispose()` of the player being stopped, the
return of `stopAmbience` to `playAmbience`, `setReleaseMode()` and `play()` of the new player. -/
inductive Stage where
  | stopping
  | disposing
  | stopped
  | releasing (source : Source)
  | starting
  | done

structure InFlight where
  call : Call
  stage : Stage

/-- The service, the calls in the order they were issued, and the last of them. -/
structure World where
  audio : Audio := {}
  calls : List InFlight := []
  lastCall : Option Call := none

inductive Move where
  | issue (call : Call)
  | resume (i : ℕ) (input : AudioInput)

/-- Where a call goes on when its stop is over. -/
def Call.afterStop : Call → Stage
  | .play _ => .stopped
  | .stop => .done

/-- `stopAmbience` up to its first await. -/
def beginStop (call : Call) (a : Audio) : Stage × Audio :=
  match a.currentPlayer, a.isPlaying with
  | some p, true => (.stopping, { a.clearSource with players := a.players.silence p })
  | _, _ => (call.afterStop, a.clearSource)

/-- A call up to its first await. -/
def begin (call : Call) (a : Audio) : Stage × Audio :=
  match call with
  | .stop => beginStop .stop a
  | .play tradition =>
    if a.lastAudioTradition = some tradition then (.done, a)
    else beginStop (.play tradition) { a with lastAudioTradition := some tradition }

/-- `_playLocalAudio` up to its first await. -/
def beginLocal (audioFile : String) (a : Audio) : Stage × Audio :=
  (.releasing (.file audioFile), { a with currentAudioFilePath := some audioFile }.createPlayer)

section

variable [CaseMap]

/-- The selection of `playAmbience`, and its player up to the first await. -/
def beginSource (input : AudioInput) (tradition : String) (a : Audio) : Stage × Audio :=
  let marked := markPlayed tradition input.cachedAudio input.picks.key a
  match selectAudio tradition input.cachedAudio input.picks.key (a.playedAudioKeys tradition) with
  | some (audioId, audioData) =>
    (.releasing (.ai audioId audioData),
      { marked with currentAudioId := some audioId }.createPlayer)
  | none =>
    let (audioFile, a) := getAudioFileWithFallbacks tradition input.picks.file marked
    beginLocal audioFile a

/-- The fallback of `_playAIAudio` when something threw. -/
def fallBack (input : AudioInput) (audioId : String) (a : Audio) : Stage × Audio :=
  match extractTraditionFromAudioId audioId with
  | none => (.done, a)
  | some extracted =>
    let (audioFile, a) := getAudioFileWithFallbacks extracted input.picks.file a
    beginLocal audioFile a

/-- A suspended call up to its next await. `_currentPlayer!` throws on null. -/
def advance (call : Call) (input : AudioInput) (a : Audio) : Stage → Option (Stage × Audio)
  | .stopping =>
    match a.currentPlayer with
    | some p => some (.disposing, { a with players := a.players.dispose p })
    | none => some (call.afterStop, a)
  | .disposing => some (call.afterStop, a.release)
  | .stopped =>
    match call with
    | .play tradition => some (beginSource input tradition a)
    | .stop => none
  | .releasing source =>
    match call, source with
    | .play tradition, .ai audioId audioData =>
      if decodes { decode := input.decodeFails } audioData && a.currentPlayer.isSome then
        some (.starting, a.playCurrent tradition source)
      else some (fallBack input audioId a)
    | .play tradition, .file _ =>
      if a.currentPlayer.isSome then some (.starting, a.playCurrent tradition source)
      else some (.done, a)
    | .stop, _ => none
  | .starting => some (.done, a.started)
  | .done => none

def step (w : World) : Move → Option World
  | .issue call =>
    some ⟨(begin call w.audio).2, w.calls ++ [⟨call, (begin call w.audio).1⟩], some call⟩
  | .resume i input =>
    match w.calls[i]? with
    | none => none
    | some c => (advance c.call input w.audio c.stage).map fun r =>
        ⟨r.2, w.calls.set i ⟨c.call, r.1⟩, w.lastCall⟩

end

/-! ## The property and the condition -/

/-- Player `p` sounds for `tradition`. -/
abbrev Sounding (a : Audio) (p : ℕ) (tradition : String) : Prop :=
  Players.Sounding a.players p tradition

/-- Every call has completed. -/
def Quiet (w : World) : Prop := ∀ c ∈ w.calls, c.stage = .done

/-- At most one player sounds; none when the last call was a stop, one for `tradition` when it was
`playAmbience(tradition)`. -/
structure AsAsked (w : World) : Prop where
  unique : ∀ p q t t', Sounding w.audio p t → Sounding w.audio q t' → p = q
  stop : w.lastCall = some .stop → ∀ p t, ¬ Sounding w.audio p t
  play : ∀ tradition, w.lastCall = some (.play tradition) →
    ∃ p, Sounding w.audio p tradition ∧ ∀ q t, Sounding w.audio q t → t = tradition

def SettledAfter (_ : World) (_ : Move) (w : World) : Prop := Quiet w → AsAsked w

/-- Only stops are in flight. -/
def OnlyStops (w : World) : Prop := ∀ c ∈ w.calls, c.stage = .done ∨ c.call = .stop

/-- Every stop has completed. -/
def StopsDone (w : World) : Prop := ∀ c ∈ w.calls, c.stage = .done ∨ c.call ≠ .stop

/-- A call is issued while only stops are in flight, and a `playAmbience` creates its player when
they have completed; one for the tradition remembered from before is issued while its audio plays or
is about to. An AI audio that is started decodes or can be replaced. -/
def Orderly [CaseMap] (w : World) (m : Move) (_ : World) : Prop :=
  match m with
  | .issue .stop => OnlyStops w
  | .issue (.play tradition) =>
    if w.audio.lastAudioTradition = some tradition then
      (Quiet w → w.audio.isPlaying = true) ∧ StopsDone w
    else OnlyStops w
  | .resume i input => ∀ call stage, w.calls[i]? = some ⟨call, stage⟩ →
    (stage = .stopped → StopsDone w) ∧
      ∀ audioId audioData, stage = .releasing (.ai audioId audioData) →
        Sounds input.decodeFails audioId audioData

/-! ## The invariant -/

/-- No player sounds. -/
def Mute (a : Audio) : Prop := ∀ p t, ¬ Sounding a p t

/-- Only player `p` sounds, for `tradition`. -/
def Only (a : Audio) (p : ℕ) (tradition : String) : Prop :=
  ∀ q t, Sounding a q t ↔ q = p ∧ t = tradition

/-- A stop on its way. -/
def InFlight.Stopping (c : InFlight) : Prop :=
  c.call = .stop ∧ (c.stage = .stopping ∨ c.stage = .disposing)

/-- Nothing sounds, and at most stops are in flight; if a player is still held, one of them is going
to release it. -/
structure Muted (w : World) : Prop where
  mute : Mute w.audio
  lastCall : ∀ tradition, w.lastCall ≠ some (.play tradition)
  stops : ∀ c ∈ w.calls, c.stage = .done ∨ c.Stopping
  player : (w.audio.currentPlayer = none ∧ w.audio.isPlaying = false) ∨
    (w.audio.currentPlayer ≠ none ∧ w.audio.isPlaying = true ∧ ∃ c ∈ w.calls, c.stage ≠ .done)

/-- Nothing is in flight, and the current player sounds for the last call. -/
structure Playing (w : World) (tradition : String) : Prop where
  quiet : Quiet w
  player : ∃ p, w.audio.currentPlayer = some p ∧ Only w.audio p tradition
  isPlaying : w.audio.isPlaying = true
  last : w.audio.lastAudioTradition = some tradition
  lastCall : w.lastCall = some (.play tradition)

/-- A player is held just when audio plays. -/
def Coupled (a : Audio) : Prop :=
  (a.currentPlayer = none ∧ a.isPlaying = false) ∨ (a.currentPlayer ≠ none ∧ a.isPlaying = true)

/-- The stages of a `playAmbience` before it creates a player. -/
def Stage.BeforePlayer : Stage → Prop
  | .stopping | .disposing | .stopped => True
  | _ => False

/-- What a `playAmbience` finds at its awaits when only stops are in flight beside it, and none once
it has created a player. -/
def Phase (tradition : String) (a : Audio) : Stage → Prop
  | .stopping | .disposing => Coupled a ∧ Mute a
  | .stopped => a.currentPlayer = none ∧ a.isPlaying = false ∧ Mute a
  | .releasing _ => (∃ p, a.currentPlayer = some p ∧ a.Alive p) ∧ a.isPlaying = false ∧ Mute a
  | .starting => ∃ p, a.currentPlayer = some p ∧ Only a p tradition
  | .done => False

/-- One `playAmbience` is in flight, and beside it at most stops, while it has no player. -/
structure Pending (w : World) (tradition : String) (i : ℕ) (stage : Stage) : Prop where
  call : w.calls[i]? = some ⟨.play tradition, stage⟩
  others : ∀ j c, j ≠ i → w.calls[j]? = some c →
    c.stage = .done ∨ (stage.BeforePlayer ∧ c.Stopping)
  phase : Phase tradition w.audio stage
  last : w.audio.lastAudioTradition = some tradition
  lastCall : w.lastCall = some (.play tradition)

inductive Inv (w : World) : Prop
  | muted (h : Muted w)
  | playing (tradition : String) (h : Playing w tradition)
  | pending (tradition : String) (i : ℕ) (stage : Stage) (h : Pending w tradition i stage)

theorem Phase.ne_done {tradition : String} {a : Audio} {stage : Stage}
    (h : Phase tradition a stage) : stage ≠ .done := by
  rintro rfl
  exact h

theorem Pending.not_onlyStops {w : World} {tradition : String} {i : ℕ} {stage : Stage}
    (h : Pending w tradition i stage) : ¬ OnlyStops w := by
  intro hstops
  rcases hstops _ (List.mem_of_getElem? h.call) with hdone | hstop
  · exact h.phase.ne_done hdone
  · cases hstop

theorem Pending.not_quiet {w : World} {tradition : String} {i : ℕ} {stage : Stage}
    (h : Pending w tradition i stage) : ¬ Quiet w :=
  fun hq => h.phase.ne_done (hq _ (List.mem_of_getElem? h.call))

/-- When every call has completed, the invariant says what was asked for. -/
theorem Inv.settledAfter {w : World} (h : Inv w) (v : World) (m : Move) : SettledAfter v m w := by
  intro hq
  cases h with
  | muted h =>
    exact ⟨fun p q t t' hp => absurd hp (h.mute p t), fun _ => h.mute,
      fun tradition heq => absurd heq (h.lastCall tradition)⟩
  | playing tradition h =>
    obtain ⟨p, -, honly⟩ := h.player
    refine ⟨fun q q' t t' hq hq' => ?_, fun heq => ?_, fun tradition' heq => ?_⟩
    · rw [((honly q t).mp hq).1, ((honly q' t').mp hq').1]
    · rw [h.lastCall] at heq
      cases heq
    · rw [h.lastCall] at heq
      cases heq
      exact ⟨p, (honly p tradition).mpr ⟨rfl, rfl⟩, fun q t hq => ((honly q t).mp hq).2⟩
  | pending tradition i stage h => exact absurd hq h.not_quiet

theorem Stage.BeforePlayer.eq_or {stage : Stage} (h : stage.BeforePlayer) :
    stage = .stopping ∨ stage = .disposing ∨ stage = .stopped := by
  cases stage with
  | stopping => exact Or.inl rfl
  | disposing => exact Or.inr (Or.inl rfl)
  | stopped => exact Or.inr (Or.inr rfl)
  | releasing source => exact h.elim
  | starting => exact h.elim
  | done => exact h.elim

theorem Coupled.isPlaying {a : Audio} (h : Coupled a) {p : ℕ} (hp : a.currentPlayer = some p) :
    a.isPlaying = true := by
  rcases h with ⟨hn, -⟩ | ⟨-, hplaying⟩
  · rw [hp] at hn
    cases hn
  · exact hplaying

theorem inv_start : Inv {} := by
  refine .muted ⟨?_, ?_, fun c hc => absurd hc List.not_mem_nil, Or.inl ⟨rfl, rfl⟩⟩
  · rintro p t ⟨player, hp, -⟩
    cases hp
  · intro tradition h
    cases h

/-! ## What the pieces do to the players -/

section

variable {a : Audio} {t : String}

theorem Mute.silence (h : Mute a) (p : ℕ) : Mute { a with players := a.players.silence p } :=
  fun q t hq => h q t (Players.sounding_silence.mp hq).1

theorem Mute.dispose (h : Mute a) (p : ℕ) : Mute { a with players := a.players.dispose p } :=
  fun q t hq => h q t (Players.sounding_dispose.mp hq).1

theorem Mute.createPlayer (h : Mute a) : Mute a.createPlayer :=
  fun q t hq => h q t (Players.sounding_create.mp hq)

theorem Only.silence {p : ℕ} (h : Only a p t) : Mute { a with players := a.players.silence p } := by
  intro q t' hq
  obtain ⟨hq, hne⟩ := Players.sounding_silence.mp hq
  exact hne ((h q t').mp hq).1

theorem Mute.playCurrent (h : Mute a) {source : Source} {p : ℕ} (hp : a.currentPlayer = some p) (halive : a.Alive p) :
    Only (a.playCurrent t source) p t := by
  intro q t'
  unfold Audio.playCurrent Sounding
  rw [hp]
  show Players.Sounding (a.players.play p t source) q t' ↔ _
  rw [Players.sounding_play]
  constructor
  · rintro (⟨rfl, -, rfl⟩ | ⟨-, hq⟩)
    · exact ⟨rfl, rfl⟩
    · exact absurd hq (h q t')
  · rintro ⟨rfl, rfl⟩
    exact Or.inl ⟨rfl, halive, rfl⟩

/-- A call that finds nothing to stop goes on at once. -/
theorem beginStop_of_idle (call : Call) (h : a.isPlaying = false) :
    beginStop call a = (call.afterStop, a.clearSource) := by
  unfold beginStop
  rw [h]
  cases a.currentPlayer <;> rfl

theorem beginStop_of_playing (call : Call) {p : ℕ} (hp : a.currentPlayer = some p)
    (h : a.isPlaying = true) :
    beginStop call a = (.stopping, { a.clearSource with players := a.players.silence p }) := by
  unfold beginStop
  rw [hp, h]

@[simp] theorem lastAudioTradition_playCurrent {source : Source} :
    (a.playCurrent t source).lastAudioTradition = a.lastAudioTradition := by
  unfold Audio.playCurrent
  split <;> rfl

@[simp] theorem lastAudioTradition_beginSource [CaseMap] (input : AudioInput) (tradition : String) :
    (beginSource input tradition a).2.lastAudioTradition = a.lastAudioTradition := by
  unfold beginSource
  dsimp only
  split <;> rfl

/-- A new player for `tradition`, from a state in which nothing sounds. -/
theorem phase_beginLocal (tradition audioFile : String) (hplaying : a.isPlaying = false)
    (hmute : Mute a) :
    Phase tradition (beginLocal audioFile a).2 (beginLocal audioFile a).1 :=
  ⟨⟨_, rfl, Players.alive_create.mpr (Or.inr rfl)⟩, hplaying, hmute.createPlayer⟩

theorem phase_beginSource [CaseMap] (input : AudioInput) (tradition : String)
    (hplaying : a.isPlaying = false) (hmute : Mute a) :
    Phase tradition (beginSource input tradition a).2 (beginSource input tradition a).1 := by
  unfold beginSource
  dsimp only
  split
  · exact ⟨⟨_, rfl, Players.alive_create.mpr (Or.inr rfl)⟩, hplaying, hmute.createPlayer⟩
  · exact phase_beginLocal tradition _ hplaying hmute

end

/-! ## Issuing a call -/

section

variable {w : World}

/-- A new `playAmbience` beside stops. -/
theorem Pending.of_issue {tradition : String} {a : Audio} {stage : Stage}
    (hothers : ∀ c ∈ w.calls, c.stage = .done ∨ c.Stopping) (hbefore : stage.BeforePlayer)
    (hphase : Phase tradition a stage) (hlast : a.lastAudioTradition = some tradition) :
    Inv ⟨a, w.calls ++ [⟨.play tradition, stage⟩], some (.play tradition)⟩ := by
  refine .pending tradition w.calls.length stage
    ⟨List.getElem?_concat_length, ?_, hphase, hlast, rfl⟩
  intro j c hj hc
  rcases Flight.concat_cases hc with hc | ⟨hlen, -⟩
  · exact (hothers c (List.mem_of_getElem? hc)).imp_right fun hstop => ⟨hbefore, hstop⟩
  · exact absurd hlen hj

theorem Muted.issue_stop (h : Muted w) :
    Muted ⟨(beginStop .stop w.audio).2, w.calls ++ [⟨.stop, (beginStop .stop w.audio).1⟩],
      some .stop⟩ := by
  rcases h.player with ⟨hp, hplaying⟩ | ⟨hp, hplaying, c, hc, hstage⟩
  · rw [beginStop_of_idle _ hplaying]
    refine ⟨h.mute, fun _ heq => (by cases heq), fun c hc => ?_, Or.inl ⟨hp, hplaying⟩⟩
    rcases List.mem_append.mp hc with hc | hc
    · exact h.stops c hc
    · exact Or.inl (by rw [List.mem_singleton.mp hc]; rfl)
  · obtain ⟨p, hcur⟩ := Option.ne_none_iff_exists'.mp hp
    rw [beginStop_of_playing _ hcur hplaying]
    refine ⟨h.mute.silence p, fun _ heq => (by cases heq), fun c hc => ?_,
      Or.inr ⟨hp, hplaying, c, List.mem_append_left _ hc, hstage⟩⟩
    rcases List.mem_append.mp hc with hc | hc
    · exact h.stops c hc
    · exact Or.inr (by rw [List.mem_singleton.mp hc]; exact ⟨rfl, Or.inl rfl⟩)

theorem Playing.issue_stop {tradition : String} (h : Playing w tradition) :
    Muted ⟨(beginStop .stop w.audio).2, w.calls ++ [⟨.stop, (beginStop .stop w.audio).1⟩],
      some .stop⟩ := by
  obtain ⟨p, hp, honly⟩ := h.player
  have hne : w.audio.currentPlayer ≠ none := by
    rw [hp]
    exact Option.some_ne_none p
  rw [beginStop_of_playing _ hp h.isPlaying]
  refine ⟨honly.silence, fun _ heq => (by cases heq), fun c hc => ?_,
    Or.inr ⟨hne, h.isPlaying, ⟨.stop, .stopping⟩, List.mem_append_right _ List.mem_cons_self,
      fun heq => (by cases heq)⟩⟩
  rcases List.mem_append.mp hc with hc | hc
  · exact Or.inl (h.quiet c hc)
  · exact Or.inr (by rw [List.mem_singleton.mp hc]; exact ⟨rfl, Or.inl rfl⟩)

/-- A repeated tradition changes nothing but the record of the last call. -/
theorem Inv.issue_repeated (h : Inv w) {tradition : String}
    (hlast : w.audio.lastAudioTradition = some tradition)
    (hplaying : Quiet w → w.audio.isPlaying = true) (hstops : StopsDone w) :
    Inv ⟨w.audio, w.calls ++ [⟨.play tradition, .done⟩], some (.play tradition)⟩ := by
  cases h with
  | muted h =>
    -- no stop is in flight, so nothing is, and then nothing plays
    have hq : Quiet w := by
      intro c hc
      rcases h.stops c hc with hdone | ⟨hstop, -⟩
      · exact hdone
      · exact (hstops c hc).resolve_right fun hne => hne hstop
    rcases h.player with ⟨-, hp⟩ | ⟨-, -, c, hc, hstage⟩
    · rw [hplaying hq] at hp
      cases hp
    · exact absurd (hq c hc) hstage
  | playing t h =>
    have ht : t = tradition := Option.some.inj (h.last.symm.trans hlast)
    subst ht
    refine .playing t ⟨fun c hc => ?_, h.player, h.isPlaying, h.last, rfl⟩
    rcases List.mem_append.mp hc with hc | hc
    · exact h.quiet c hc
    · rw [List.mem_singleton.mp hc]
  | pending t i stage h =>
    have ht : t = tradition := Option.some.inj (h.last.symm.trans hlast)
    subst ht
    have hlt := (List.getElem?_eq_some_iff.mp h.call).1
    refine .pending t i stage ⟨?_, fun j c hj hc => ?_, h.phase, h.last, rfl⟩
    · rw [List.getElem?_append_left hlt]
      exact h.call
    · rcases Flight.concat_cases hc with hc | ⟨-, rfl⟩
      · exact h.others j c hj hc
      · exact Or.inl rfl

/-- A new tradition, while only stops are in flight. -/
theorem Inv.issue_new (h : Inv w) (hstops : OnlyStops w) (tradition : String) :
    Inv ⟨(beginStop (.play tradition) { w.audio with lastAudioTradition := some tradition }).2,
      w.calls ++ [⟨.play tradition,
        (beginStop (.play tradition) { w.audio with lastAudioTradition := some tradition }).1⟩],
      some (.play tradition)⟩ := by
  cases h with
  | muted h =>
    rcases h.player with ⟨hp, hplaying⟩ | ⟨hne, hplaying, -⟩
    · have hidle : ({ w.audio with lastAudioTradition := some tradition } : Audio).isPlaying =
          false := hplaying
      rw [beginStop_of_idle _ hidle]
      exact Pending.of_issue h.stops trivial ⟨hp, hplaying, h.mute⟩ rfl
    · obtain ⟨p, hp⟩ := Option.ne_none_iff_exists'.mp hne
      have hcur : ({ w.audio with lastAudioTradition := some tradition } : Audio).currentPlayer =
          some p := hp
      rw [beginStop_of_playing _ hcur hplaying]
      exact Pending.of_issue h.stops trivial ⟨Or.inr ⟨hne, hplaying⟩, h.mute.silence p⟩ rfl
  | playing t h =>
    obtain ⟨p, hp, honly⟩ := h.player
    have hcur : ({ w.audio with lastAudioTradition := some tradition } : Audio).currentPlayer =
        some p := hp
    have hne : w.audio.currentPlayer ≠ none := by
      rw [hp]
      exact Option.some_ne_none p
    rw [beginStop_of_playing _ hcur h.isPlaying]
    exact Pending.of_issue (fun c hc => Or.inl (h.quiet c hc)) trivial
      ⟨Or.inr ⟨hne, h.isPlaying⟩, honly.silence⟩ rfl
  | pending t i stage h => exact absurd hstops h.not_onlyStops

/-! ## Going on -/

section

variable [CaseMap]

theorem step_resume {w' : World} {i : ℕ} {input : AudioInput}
    (h : step w (.resume i input) = some w') :
    ∃ call stage stage' a, w.calls[i]? = some ⟨call, stage⟩ ∧
      advance call input w.audio stage = some (stage', a) ∧
      w' = ⟨a, w.calls.set i ⟨call, stage'⟩, w.lastCall⟩ := by
  simp only [step] at h
  cases hi : w.calls[i]? with
  | none =>
    simp only [hi] at h
    cases h
  | some c =>
    simp only [hi] at h
    obtain ⟨⟨stage', a⟩, ha, rfl⟩ := Option.map_eq_some_iff.mp h
    exact ⟨c.call, c.stage, stage', a, rfl, ha, rfl⟩

/-- A stop goes on while at most stops are in flight. -/
theorem Muted.resume (h : Muted w) {i : ℕ} {input : AudioInput} {call : Call}
    {stage stage' : Stage} {a : Audio} (hi : w.calls[i]? = some ⟨call, stage⟩)
    (ha : advance call input w.audio stage = some (stage', a)) :
    Muted ⟨a, w.calls.set i ⟨call, stage'⟩, w.lastCall⟩ := by
  have hlt := (List.getElem?_eq_some_iff.mp hi).1
  have hset : ∀ {c : InFlight}, c ∈ w.calls.set i ⟨call, stage'⟩ →
      (stage' = .done ∨ (call = .stop ∧ (stage' = .stopping ∨ stage' = .disposing))) →
      (c.stage = .done ∨ (c.call = .stop ∧ (c.stage = .stopping ∨ c.stage = .disposing))) := by
    intro c hc hstage
    rcases List.mem_or_eq_of_mem_set hc with hc | rfl
    · exact h.stops c hc
    · exact hstage
  rcases h.stops _ (List.mem_of_getElem? hi) with hdone | ⟨hcall, hstage⟩
  · dsimp only at hdone
    subst hdone
    cases ha
  · dsimp only at hcall hstage
    subst hcall
    rcases hstage with rfl | rfl
    · simp only [advance] at ha
      cases hp : w.audio.currentPlayer with
      | none =>
        -- another stop has released the player
        rw [hp] at ha
        obtain ⟨rfl, rfl⟩ := Prod.mk.inj (Option.some.inj ha)
        refine ⟨h.mute, h.lastCall, fun c hc => hset hc (Or.inl rfl), ?_⟩
        rcases h.player with hidle | ⟨hne, -⟩
        · exact Or.inl hidle
        · exact absurd hp hne
      | some p =>
        rw [hp] at ha
        obtain ⟨rfl, rfl⟩ := Prod.mk.inj (Option.some.inj ha)
        refine ⟨h.mute.dispose p, h.lastCall,
          fun c hc => hset hc (Or.inr ⟨rfl, Or.inr rfl⟩), Or.inr ?_⟩
        rcases h.player with ⟨hn, -⟩ | ⟨hne, hplaying, -⟩
        · rw [hp] at hn
          cases hn
        · exact ⟨Option.some_ne_none p, hplaying, _, List.mem_set hlt _,
            fun heq => (by cases heq)⟩
    · obtain ⟨rfl, rfl⟩ := Prod.mk.inj (Option.some.inj ha)
      exact ⟨h.mute, h.lastCall, fun c hc => hset hc (Or.inl rfl), Or.inl ⟨rfl, rfl⟩⟩

/-- A `playAmbience` goes through its phases, and ends with its player sounding. -/
theorem Phase.advance {tradition : String} {input : AudioInput} {a a' : Audio}
    {stage stage' : Stage} (h : Phase tradition a stage)
    (hlast : a.lastAudioTradition = some tradition)
    (hsounds : ∀ audioId audioData, stage = .releasing (.ai audioId audioData) →
      Sounds input.decodeFails audioId audioData)
    (ha : Calls.advance (.play tradition) input a stage = some (stage', a')) :
    a'.lastAudioTradition = some tradition ∧
      (Phase tradition a' stage' ∨ (stage' = .done ∧ a'.isPlaying = true ∧
        ∃ p, a'.currentPlayer = some p ∧ Only a' p tradition)) := by
  cases stage with
  | stopping =>
    obtain ⟨hplayer, hmute⟩ := h
    cases hp : a.currentPlayer with
    | none =>
      -- a stop has released the player
      simp only [Calls.advance, hp] at ha
      obtain ⟨rfl, rfl⟩ := Prod.mk.inj (Option.some.inj ha)
      rcases hplayer with ⟨-, hplaying⟩ | ⟨hne, -⟩
      · exact ⟨hlast, Or.inl ⟨hp, hplaying, hmute⟩⟩
      · exact absurd hp hne
    | some p =>
      simp only [Calls.advance, hp] at ha
      obtain ⟨rfl, rfl⟩ := Prod.mk.inj (Option.some.inj ha)
      exact ⟨hlast, Or.inl ⟨Or.inr ⟨Option.some_ne_none p, hplayer.isPlaying hp⟩,
        hmute.dispose p⟩⟩
  | disposing =>
    obtain ⟨rfl, rfl⟩ := Prod.mk.inj (Option.some.inj ha)
    exact ⟨hlast, Or.inl ⟨rfl, rfl, h.2⟩⟩
  | stopped =>
    obtain ⟨-, hplaying, hmute⟩ := h
    obtain ⟨rfl, rfl⟩ := Prod.mk.inj (Option.some.inj ha)
    exact ⟨(lastAudioTradition_beginSource input tradition).trans hlast,
      Or.inl (phase_beginSource input tradition hplaying hmute)⟩
  | releasing source =>
    obtain ⟨⟨p, hp, halive⟩, hplaying, hmute⟩ := h
    have hstart : (a.playCurrent tradition source).lastAudioTradition = some tradition ∧
        Phase tradition (a.playCurrent tradition source) .starting :=
      ⟨by rw [lastAudioTradition_playCurrent, hlast],
        p, by rw [currentPlayer_playCurrent, hp], hmute.playCurrent hp halive⟩
    cases source with
    | file audioFile =>
      simp only [Calls.advance, hp, Option.isSome_some, if_true] at ha
      obtain ⟨rfl, rfl⟩ := Prod.mk.inj (Option.some.inj ha)
      exact ⟨hstart.1, Or.inl hstart.2⟩
    | ai audioId audioData =>
      simp only [Calls.advance, hp, Option.isSome_some, Bool.and_true] at ha
      by_cases hdec : decodes { decode := input.decodeFails } audioData = true
      · rw [if_pos hdec] at ha
        obtain ⟨rfl, rfl⟩ := Prod.mk.inj (Option.some.inj ha)
        exact ⟨hstart.1, Or.inl hstart.2⟩
      · -- the data do not decode: a local file for the extracted tradition
        rw [if_neg hdec] at ha
        obtain ⟨extracted, hx⟩ := Option.isSome_iff_exists.mp
          ((hsounds audioId audioData rfl).resolve_left hdec)
        unfold fallBack at ha
        rw [hx] at ha
        obtain ⟨rfl, rfl⟩ := Prod.mk.inj (Option.some.inj ha)
        exact ⟨hlast, Or.inl (phase_beginLocal tradition _ hplaying hmute)⟩
  | starting =>
    obtain ⟨p, hp, honly⟩ := h
    obtain ⟨rfl, rfl⟩ := Prod.mk.inj (Option.some.inj ha)
    exact ⟨hlast, Or.inr ⟨rfl, rfl, p, hp, honly⟩⟩
  | done => exact h.elim

/-- Up to its release, a `playAmbience` has no player. -/
theorem beforePlayer_advance {tradition : String} {input : AudioInput} {a a' : Audio}
    {stage stage' : Stage} (hbefore : stage.BeforePlayer) (hne : stage ≠ .stopped)
    (ha : advance (.play tradition) input a stage = some (stage', a')) : stage'.BeforePlayer := by
  rcases hbefore.eq_or with rfl | rfl | rfl
  · simp only [advance] at ha
    split at ha
    all_goals
      obtain ⟨rfl, -⟩ := Prod.mk.inj (Option.some.inj ha)
      trivial
  · obtain ⟨rfl, -⟩ := Prod.mk.inj (Option.some.inj ha)
    trivial
  · exact absurd rfl hne

/-- A stop that goes on leaves a `playAmbience` without a player in its phase. -/
theorem Phase.advance_stop {tradition : String} {input : AudioInput} {a a' : Audio}
    {stage stage₁ stage' : Stage} (h : Phase tradition a stage) (hbefore : stage.BeforePlayer)
    (hstage : stage₁ = .stopping ∨ stage₁ = .disposing)
    (ha : Calls.advance .stop input a stage₁ = some (stage', a')) :
    Phase tradition a' stage ∧ a'.lastAudioTradition = a.lastAudioTradition ∧
      (stage' = .done ∨ stage' = .disposing) := by
  rcases hstage with rfl | rfl
  · cases hp : a.currentPlayer with
    | none =>
      simp only [Calls.advance, hp] at ha
      obtain ⟨rfl, rfl⟩ := Prod.mk.inj (Option.some.inj ha)
      exact ⟨h, rfl, Or.inl rfl⟩
    | some p =>
      simp only [Calls.advance, hp] at ha
      obtain ⟨rfl, rfl⟩ := Prod.mk.inj (Option.some.inj ha)
      refine ⟨?_, rfl, Or.inr rfl⟩
      rcases hbefore.eq_or with rfl | rfl | rfl
      · exact ⟨Or.inr ⟨Option.some_ne_none p, h.1.isPlaying hp⟩, h.2.dispose p⟩
      · exact ⟨Or.inr ⟨Option.some_ne_none p, h.1.isPlaying hp⟩, h.2.dispose p⟩
      · -- a `playAmbience` whose stop is over holds no player
        have hn := h.1
        rw [hp] at hn
        cases hn
  · obtain ⟨rfl, rfl⟩ := Prod.mk.inj (Option.some.inj ha)
    refine ⟨?_, rfl, Or.inl rfl⟩
    rcases hbefore.eq_or with rfl | rfl | rfl
    · exact ⟨Or.inl ⟨rfl, rfl⟩, h.2⟩
    · exact ⟨Or.inl ⟨rfl, rfl⟩, h.2⟩
    · exact ⟨rfl, rfl, h.2.2⟩

/-- The pending `playAmbience` goes on. -/
theorem Pending.resume_self {tradition : String} {i : ℕ} {stage stage' : Stage} {input : AudioInput}
    {a : Audio} (h : Pending w tradition i stage)
    (ha : advance (.play tradition) input w.audio stage = some (stage', a))
    (hstops : stage = .stopped → StopsDone w)
    (hsounds : ∀ audioId audioData, stage = .releasing (.ai audioId audioData) →
      Sounds input.decodeFails audioId audioData) :
    Inv ⟨a, w.calls.set i ⟨.play tradition, stage'⟩, w.lastCall⟩ := by
  have hlt := (List.getElem?_eq_some_iff.mp h.call).1
  have hothers : ∀ k c, k ≠ i → w.calls[k]? = some c →
      c.stage = .done ∨ (stage'.BeforePlayer ∧ c.Stopping) := by
    intro k c hk hc
    rcases h.others k c hk hc with hdone | ⟨hbefore, hstop⟩
    · exact Or.inl hdone
    · by_cases hstopped : stage = .stopped
      · exact Or.inl ((hstops hstopped c (List.mem_of_getElem? hc)).resolve_right
          fun hne => hne hstop.1)
      · exact Or.inr ⟨beforePlayer_advance hbefore hstopped ha, hstop⟩
  obtain ⟨hlast, hphase | ⟨rfl, hplaying, hplayer⟩⟩ := h.phase.advance h.last hsounds ha
  · refine .pending tradition i stage' ⟨List.getElem?_set_self hlt, fun k c hk hc => ?_, hphase,
      hlast, h.lastCall⟩
    rw [List.getElem?_set_ne (Ne.symm hk)] at hc
    exact hothers k c hk hc
  · refine .playing tradition ⟨?_, hplayer, hplaying, hlast, h.lastCall⟩
    refine (Flight.forall_mem_set_iff hlt).mpr ⟨rfl, fun k c hk hc => ?_⟩
    exact (hothers k c hk hc).resolve_right fun hb => hb.1

/-- A stop beside the pending `playAmbience` goes on. -/
theorem Pending.resume_other {tradition : String} {i j : ℕ} {stage stage₁ stage' : Stage}
    {input : AudioInput} {call : Call} {a : Audio} (h : Pending w tradition i stage) (hji : j ≠ i)
    (hj : w.calls[j]? = some ⟨call, stage₁⟩)
    (ha : advance call input w.audio stage₁ = some (stage', a)) :
    Inv ⟨a, w.calls.set j ⟨call, stage'⟩, w.lastCall⟩ := by
  rcases h.others j _ hji hj with hdone | ⟨hbefore, hcall, hstage⟩
  · dsimp only at hdone
    subst hdone
    cases ha
  · dsimp only at hcall hstage
    subst hcall
    obtain ⟨hphase, hlast, hstage'⟩ := h.phase.advance_stop hbefore hstage ha
    refine .pending tradition i stage ⟨?_, fun k c hk hc => ?_, hphase, hlast.trans h.last,
      h.lastCall⟩
    · rw [List.getElem?_set_ne hji]
      exact h.call
    · rcases Flight.set_cases hc with ⟨-, rfl⟩ | ⟨-, hc⟩
      · rcases hstage' with rfl | rfl
        · exact Or.inl rfl
        · exact Or.inr ⟨hbefore, rfl, Or.inr rfl⟩
      · exact h.others k c hk hc

theorem Inv.step {w' : World} {m : Move} (h : Inv w) (hs : step w m = some w')
    (ho : Orderly w m w') : Inv w' := by
  cases m with
  | issue call =>
    obtain rfl := Option.some.inj hs
    cases call with
    | stop =>
      cases h with
      | muted h => exact .muted h.issue_stop
      | playing tradition h => exact .muted h.issue_stop
      | pending tradition i stage h => exact absurd ho h.not_onlyStops
    | play tradition =>
      unfold Orderly at ho
      unfold begin
      by_cases hlast : w.audio.lastAudioTradition = some tradition
      · simp only [hlast, if_true] at ho ⊢
        exact h.issue_repeated hlast ho.1 ho.2
      · simp only [hlast, if_false] at ho ⊢
        exact h.issue_new ho tradition
  | resume i input =>
    obtain ⟨call, stage, stage', a, hi, ha, rfl⟩ := step_resume hs
    cases h with
    | muted h => exact .muted (h.resume hi ha)
    | playing tradition h =>
      have hdone : stage = .done := h.quiet _ (List.mem_of_getElem? hi)
      subst hdone
      cases ha
    | pending tradition j stage₀ h =>
      by_cases hij : i = j
      · subst hij
        obtain ⟨rfl, rfl⟩ := InFlight.mk.inj (Option.some.inj (hi.symm.trans h.call))
        exact h.resume_self ha (ho _ _ hi).1 (ho _ _ hi).2
      · exact h.resume_other hij hi ha

/-- **Overlapping audio requests.** In an orderly run, once every call has completed, what sounds is
what the last call asked for. -/
theorem settled_of_orderly (moves : List Move) (h : Run.Each step Orderly {} moves) :
    Run.Each step SettledAfter {} moves :=
  Run.each_of_invariant (I := Inv) (P := Orderly)
    (fun w m _ hI hs ho => ⟨hI.step hs ho, (hI.step hs ho).settledAfter w m⟩) moves {} inv_start h

/-! ## A call by itself -/

/-- Resuming call `i` again and again completes it with the service in state `a`. -/
def Completes (i : ℕ) (input : AudioInput) (w : World) (a : Audio) : Prop :=
  ∃ n w', Run.final step w (List.replicate n (.resume i input)) = some w' ∧ w'.audio = a ∧
    ∃ call, w'.calls[i]? = some ⟨call, .done⟩

theorem Completes.of_done {i : ℕ} {input : AudioInput} {call : Call}
    (hi : w.calls[i]? = some ⟨call, .done⟩) : Completes i input w w.audio :=
  ⟨0, w, rfl, rfl, call, hi⟩

theorem Completes.of_advance {i : ℕ} {call : Call} {stage stage' : Stage} {input : AudioInput}
    {a b : Audio} (hi : w.calls[i]? = some ⟨call, stage⟩)
    (ha : advance call input w.audio stage = some (stage', a))
    (h : ∀ calls : List InFlight, calls[i]? = some ⟨call, stage'⟩ →
      Completes i input ⟨a, calls, w.lastCall⟩ b) : Completes i input w b := by
  obtain ⟨n, w', hw', hb, hdone⟩ := h (w.calls.set i ⟨call, stage'⟩)
    (List.getElem?_set_self (List.getElem?_eq_some_iff.mp hi).1)
  refine ⟨n + 1, w', ?_, hb, hdone⟩
  rw [List.replicate_succ, Run.final_cons]
  · exact hw'
  · simp only [step, hi, ha, Option.map_some]

/-- The stop at the start of a call, up to where the call goes on. -/
theorem completes_beginStop {i : ℕ} {call : Call} {input : AudioInput} {a b : Audio}
    {calls : List InFlight} {last : Option Call}
    (hi : calls[i]? = some ⟨call, (beginStop call a).1⟩)
    (h : ∀ calls : List InFlight, calls[i]? = some ⟨call, call.afterStop⟩ →
      Completes i input ⟨stopAmbience { decode := input.decodeFails } a, calls, last⟩ b) :
    Completes i input ⟨(beginStop call a).2, calls, last⟩ b := by
  rcases stop_cases { decode := input.decodeFails } a with hidle | ⟨-, -, hthrow⟩ |
    ⟨p, hp, hplaying, hs, hd⟩
  · rw [stopAmbience_of_idle hidle] at h
    have hbegin : beginStop call a = (call.afterStop, a.clearSource) := by
      unfold beginStop
      rcases hidle with hn | hf
      · rw [hn]
      · rw [hf]
        cases a.currentPlayer <;> rfl
    rw [hbegin] at hi ⊢
    exact h calls hi
  · rcases hthrow with hthrow | hthrow <;> cases hthrow
  · rw [stopAmbience_of_playing hp hplaying hs hd] at h
    rw [beginStop_of_playing call hp hplaying] at hi ⊢
    have ha : advance call input { a.clearSource with players := a.players.silence p } .stopping =
        some (.disposing,
          { a.clearSource with players := (a.players.silence p).dispose p }) := by
      simp only [advance, clearSource, hp]
    exact Completes.of_advance hi ha fun calls hi =>
      Completes.of_advance hi rfl fun calls hi => h calls hi

/-- **A stop by itself.** -/
theorem stop_alone (input : AudioInput) (w : World) :
    ∃ w', step w (.issue .stop) = some w' ∧
      Completes w.calls.length input w' (stopAmbience { decode := input.decodeFails } w.audio) := by
  have hi : (w.calls ++ [⟨.stop, (beginStop .stop w.audio).1⟩])[w.calls.length]? =
      some ⟨.stop, (beginStop .stop w.audio).1⟩ := List.getElem?_concat_length
  refine ⟨_, rfl, completes_beginStop hi fun calls hi => ?_⟩
  exact Completes.of_done (w := ⟨_, calls, _⟩) hi

/-- From the first await of `_playLocalAudio` on. -/
theorem completes_beginLocal {i : ℕ} {tradition audioFile : String} {input : AudioInput} {a : Audio}
    {calls : List InFlight} {last : Option Call}
    (hi : calls[i]? = some ⟨.play tradition, (beginLocal audioFile a).1⟩) :
    Completes i input ⟨(beginLocal audioFile a).2, calls, last⟩
      (playLocalAudio { decode := input.decodeFails } tradition audioFile a) := by
  refine Completes.of_advance hi rfl fun calls hi => ?_
  refine Completes.of_advance hi rfl fun calls hi => ?_
  exact Completes.of_done (w := ⟨_, calls, _⟩) hi

/-- From the first await of `_playAIAudio` on. -/
theorem completes_ai {i : ℕ} {tradition audioId audioData : String} {input : AudioInput} {a : Audio}
    {calls : List InFlight} {last : Option Call}
    (hi : calls[i]? = some ⟨.play tradition, .releasing (.ai audioId audioData)⟩) :
    Completes i input ⟨{ a with currentAudioId := some audioId }.createPlayer, calls, last⟩
      (playAIAudio { decode := input.decodeFails } input.picks.file tradition audioData audioId
        a) := by
  cases hdec : decodes { decode := input.decodeFails } audioData with
  | true =>
    have ha : advance (.play tradition) input { a with currentAudioId := some audioId }.createPlayer
        (.releasing (.ai audioId audioData)) = some (.starting,
          { a with currentAudioId := some audioId }.createPlayer.playCurrent tradition
            (.ai audioId audioData)) := by
      simp only [advance, hdec, createPlayer, Option.isSome_some, Bool.and_self, if_true]
    have hplay : playAIAudio { decode := input.decodeFails } input.picks.file tradition audioData
        audioId a =
        ({ a with currentAudioId := some audioId }.createPlayer.playCurrent tradition
          (.ai audioId audioData)).started := by
      simp [playAIAudio, hdec]
    rw [hplay]
    refine Completes.of_advance hi ha fun calls hi => Completes.of_advance hi rfl fun calls hi => ?_
    exact Completes.of_done (w := ⟨_, calls, _⟩) hi
  | false =>
    have ha : advance (.play tradition) input { a with currentAudioId := some audioId }.createPlayer
        (.releasing (.ai audioId audioData)) = some (fallBack input audioId
          { a with currentAudioId := some audioId }.createPlayer) := by
      simp [advance, hdec]
    refine Completes.of_advance hi ha fun calls hi => ?_
    unfold fallBack playAIAudio at *
    cases hx : extractTraditionFromAudioId audioId with
    | none =>
      simp only [hx, hdec, Bool.not_false, Bool.or_true, Bool.true_or, if_true] at hi ⊢
      exact Completes.of_done (w := ⟨_, calls, _⟩) hi
    | some extracted =>
      simp only [hx, hdec, Bool.not_false, Bool.or_true, Bool.true_or, if_true] at hi ⊢
      exact completes_beginLocal hi

/-- From the return of the stop on. -/
theorem completes_stopped {i : ℕ} {tradition : String} {input : AudioInput} {a : Audio}
    {calls : List InFlight} {last : Option Call}
    (hi : calls[i]? = some ⟨.play tradition, .stopped⟩) :
    Completes i input ⟨a, calls, last⟩
      (playSelected { decode := input.decodeFails } input.picks input.cachedAudio tradition a) := by
  refine Completes.of_advance hi rfl fun calls hi => ?_
  unfold beginSource playSelected at *
  dsimp only at hi ⊢
  cases hsel : selectAudio tradition input.cachedAudio input.picks.key
      (a.playedAudioKeys tradition) with
  | none =>
    rw [hsel] at hi
    exact completes_beginLocal hi
  | some sel =>
    obtain ⟨audioId, audioData⟩ := sel
    rw [hsel] at hi
    exact completes_ai hi

/-- **A `playAmbience` by itself.** -/
theorem play_alone (input : AudioInput) (w : World) (tradition : String) :
    ∃ w', step w (.issue (.play tradition)) = some w' ∧
      Completes w.calls.length input w'
        (App.playAmbience input tradition w.audio) := by
  refine ⟨_, rfl, ?_⟩
  unfold App.playAmbience
  by_cases hlast : w.audio.lastAudioTradition = some tradition
  · rw [playAmbience_of_eq _ _ _ hlast]
    have hbegin : begin (.play tradition) w.audio = (.done, w.audio) := if_pos hlast
    rw [hbegin]
    exact Completes.of_done (w := ⟨_, _, _⟩) List.getElem?_concat_length
  · rw [playAmbience_of_ne _ _ _ hlast]
    have hbegin : begin (.play tradition) w.audio =
        beginStop (.play tradition) { w.audio with lastAudioTradition := some tradition } :=
      if_neg hlast
    rw [hbegin]
    refine completes_beginStop List.getElem?_concat_length fun calls hi => ?_
    exact completes_stopped hi

end

end

/-! ## Calls one after the other, and overlapping -/

/-- Inputs without stored AI audio. -/
def noAudio : AudioInput := ⟨⟨.keep, .keep⟩, ∅, false⟩

/-- A stop with nothing to stop, then a tradition. -/
theorem settled_stop_play :
    Run.Each (@step CaseMap.ascii) SettledAfter {} [.issue .stop, .issue (.play "Zen"),
      .resume 1 noAudio, .resume 1 noAudio, .resume 1 noAudio] := by
  refine @settled_of_orderly CaseMap.ascii _ ?_
  rw [Run.each_cons_of_step rfl, Run.each_cons_of_step rfl, Run.each_cons_of_step rfl,
    Run.each_cons_of_step rfl, Run.each_cons_of_step rfl]
  refine ⟨fun c hc => absurd hc List.not_mem_nil, fun c hc => ?_, ?_, ?_, ?_, trivial⟩
  · obtain rfl := List.mem_singleton.mp hc
    exact Or.inl rfl
  · intro call stage hi
    cases hi
    refine ⟨fun _ c hc => ?_, fun _ _ hstage => (by cases hstage)⟩
    fin_cases hc
    · exact Or.inl rfl
    · exact Or.inr fun hcall => (by cases hcall)
  all_goals
    intro call stage hi
    cases hi
    exact ⟨fun hstage => (by cases hstage), fun _ _ hstage => (by cases hstage)⟩

/-- Audio is switched off before the player of the first quote has started: it starts all the
same. -/
theorem not_settled_overlap :
    ¬ Run.Each (@step CaseMap.ascii) SettledAfter {} [.issue (.play "Zen"), .issue .stop,
      .resume 0 noAudio, .resume 0 noAudio, .resume 0 noAudio] := by
  intro hE
  rw [Run.each_cons_of_step rfl, Run.each_cons_of_step rfl, Run.each_cons_of_step rfl,
    Run.each_cons_of_step rfl, Run.each_cons_of_step rfl] at hE
  obtain ⟨-, -, -, -, hsettled, -⟩ := hE
  have hq : ∀ c ∈ [(⟨.play "Zen", .done⟩ : InFlight), ⟨.stop, .done⟩], c.stage = .done := by simp
  exact (hsettled hq).stop rfl 0 "Zen" ⟨_, rfl, rfl, rfl⟩

end Calls

end MotiAI
