import MotiAI.Application.Images
import MotiAI.Audio.LocalFiles

/-!
# The audio of the application

AI audio comes from the prefetch, which never starts: the screen plays local files.

`locally_run`: from a fresh installation on no audio is ever cached, and every player plays, replays
or waits to play one of the four local files.
-/

namespace MotiAI

open Dart Hive HiveQuoteService

/-- One of the four local files. -/
def Source.IsLocal (source : Source) : Prop :=
  ∃ audioFile ∈ Audio.availableAudioFiles, source = .file audioFile

/-! ## The players -/

namespace Players

/-- A player that plays is not disposed, and it was given a local file. -/
structure Local (player : Player) : Prop where
  alive : player.playing = true → player.disposed = false
  source : ∀ source, player.source = some source → source.IsLocal

/-- All players are given local files. -/
def AllLocal (ps : Players) : Prop := ∀ player ∈ ps, Local player

variable {ps : Players}

theorem AllLocal.modify (h : AllLocal ps) {f : Player → Player}
    (hf : ∀ player, Local player → Local (f player)) (p : ℕ) : AllLocal (ps.modify p f) := by
  intro player hplayer
  obtain ⟨q, hq⟩ := List.mem_iff_getElem?.mp hplayer
  rw [List.getElem?_modify] at hq
  obtain ⟨old, hold, rfl⟩ := Option.map_eq_some_iff.mp hq
  have hlocal := h old (List.mem_of_getElem? hold)
  split
  · exact hf old hlocal
  · exact hlocal

theorem AllLocal.create (h : AllLocal ps) : AllLocal ps.create := by
  intro player hplayer
  rcases List.mem_append.mp hplayer with hplayer | hplayer
  · exact h player hplayer
  · obtain rfl := List.mem_singleton.mp hplayer
    exact ⟨fun hplaying => (by cases hplaying), fun source hsource => (by cases hsource)⟩

theorem AllLocal.silence (h : AllLocal ps) (p : ℕ) : AllLocal (ps.silence p) := by
  unfold Players.silence
  refine h.modify (fun player hlocal => ?_) p
  exact ⟨fun hplaying => (by cases hplaying), hlocal.source⟩

theorem AllLocal.dispose (h : AllLocal ps) (p : ℕ) : AllLocal (ps.dispose p) := by
  unfold Players.dispose
  refine h.modify (fun player hlocal => ?_) p
  exact ⟨fun hplaying => (by cases hplaying), hlocal.source⟩

theorem AllLocal.play (h : AllLocal ps) {source : Source} (hsource : source.IsLocal) (p : ℕ)
    (tradition : String) : AllLocal (ps.play p tradition source) := by
  refine h.modify (fun player hlocal => ⟨fun hplaying => ?_, fun source' heq => ?_⟩) p
  · simpa using hplaying
  · obtain rfl := Option.some.inj heq
    exact hsource

theorem AllLocal.replay (h : AllLocal ps) {source : Source} (hsource : source.IsLocal) (p : ℕ) :
    AllLocal (ps.replay p source) := by
  refine h.modify (fun player hlocal => ⟨fun hplaying => ?_, fun source' heq => ?_⟩) p
  · simpa using hplaying
  · obtain rfl := Option.some.inj heq
    exact hsource

end Players

/-! ## The service -/

namespace Audio

/-- The service without AI audio. -/
structure LocalAudio (a : Audio) : Prop where
  audioId : a.currentAudioId = none
  path : ∀ audioFile, a.currentAudioFilePath = some audioFile → audioFile ∈ availableAudioFiles
  recent : a.recentAudioFiles.length ≤ 3
  players : Players.AllLocal a.players

variable {a : Audio}

theorem LocalAudio.setPlayers (h : LocalAudio a) {players : Players} {currentPlayer : Option ℕ}
    {isPlaying audioTimer : Bool} (hplayers : Players.AllLocal players) :
    LocalAudio { a with
      players := players, currentPlayer := currentPlayer, isPlaying := isPlaying
      audioTimer := audioTimer } :=
  ⟨h.audioId, h.path, h.recent, hplayers⟩

theorem LocalAudio.clearSource (h : LocalAudio a) : LocalAudio a.clearSource :=
  ⟨rfl, fun audioFile hpath => (by cases hpath), h.recent, h.players⟩

theorem LocalAudio.playCurrent (h : LocalAudio a) {source : Source} (hsource : source.IsLocal)
    (tradition : String) : LocalAudio (a.playCurrent tradition source) := by
  unfold Audio.playCurrent
  split
  · exact h.setPlayers (h.players.play hsource _ tradition)
  · exact h

/-- The file that is chosen is one of the four. -/
theorem LocalAudio.getAudioFileWithFallbacks (h : LocalAudio a) (tradition : String)
    (shuffle : Shuffle String) :
    (getAudioFileWithFallbacks tradition shuffle a).1 ∈ availableAudioFiles ∧
      LocalAudio (getAudioFileWithFallbacks tradition shuffle a).2 := by
  obtain ⟨file, hfile, havailable, -⟩ := chooseFile_spec h.recent tradition shuffle
  unfold Audio.getAudioFileWithFallbacks
  rw [hfile]
  refine ⟨havailable, h.audioId, h.path, ?_, h.players⟩
  have hrecent := h.recent
  dsimp only
  split
  · rw [List.length_tail, List.length_append, List.length_singleton]
    omega
  · rename_i hshort
    exact not_lt.mp hshort

/-- Without cached audio none is selected. -/
theorem selectAudio_empty [CaseMap] (tradition : String) (shuffle : Shuffle String)
    (played : Finset String) : selectAudio tradition ∅ shuffle played = none := by
  have hkeys : getAIAudioKeysForTradition tradition ∅ = [] := rfl
  unfold selectAudio selectAudioId
  simp [hkeys]

/-- A tick starts the current player again with its file. -/
theorem LocalAudio.timerTick (h : LocalAudio a) (f : Faults) : LocalAudio (a.timerTick f ∅) := by
  unfold Audio.timerTick
  split
  · unfold restartAudio
    split
    · split
      · exact h
      · have hsilent := h.players.silence
        dsimp only
        split
        · rename_i hid
          rw [h.audioId] at hid
          cases hid
        · rename_i audioFile hid hpath
          split
          · exact h.setPlayers (hsilent _)
          · exact h.setPlayers (h.players.replay ⟨audioFile, h.path audioFile hpath, rfl⟩ _)
        · exact h.setPlayers (hsilent _)
    · exact h
  · exact h.setPlayers h.players

end Audio

/-! ## The calls in flight -/

namespace Calls

open Audio

/-- The service has local files only, and so have the players that are about to start. -/
structure LocalOnly (w : World) : Prop where
  audio : LocalAudio w.audio
  calls : ∀ c ∈ w.calls, ∀ source, c.stage = .releasing source → source.IsLocal

variable {a : Audio}

theorem localAudio_beginStop (h : LocalAudio a) (call : Call) :
    LocalAudio (beginStop call a).2 ∧ ∀ source, (beginStop call a).1 ≠ .releasing source := by
  unfold beginStop
  split
  · refine ⟨h.clearSource.setPlayers (h.players.silence _), fun source hsource => ?_⟩
    cases hsource
  · refine ⟨h.clearSource, fun source hsource => ?_⟩
    cases call <;> cases hsource

theorem localAudio_begin (h : LocalAudio a) (call : Call) :
    LocalAudio (begin call a).2 ∧ ∀ source, (begin call a).1 ≠ .releasing source := by
  unfold begin
  cases call with
  | stop => exact localAudio_beginStop h .stop
  | play tradition =>
    dsimp only
    split
    · exact ⟨h, fun source hsource => by cases hsource⟩
    · have hlast : LocalAudio { a with lastAudioTradition := some tradition } :=
        ⟨h.audioId, h.path, h.recent, h.players⟩
      exact localAudio_beginStop hlast (.play tradition)

theorem localAudio_beginLocal (h : LocalAudio a) {audioFile : String}
    (hfile : audioFile ∈ availableAudioFiles) : LocalAudio (beginLocal audioFile a).2 := by
  refine ⟨h.audioId, fun file hpath => ?_, h.recent, h.players.create⟩
  obtain rfl := Option.some.inj hpath
  exact hfile

variable [CaseMap]

/-- The source of a `playAmbience` without cached audio. -/
theorem beginSource_empty (input : AudioInput) (hcached : input.cachedAudio = ∅) (tradition : String)
    (a : Audio) :
    beginSource input tradition a =
      beginLocal
        (getAudioFileWithFallbacks tradition input.picks.file (markPlayed tradition ∅ input.picks.key a)).1
        (getAudioFileWithFallbacks tradition input.picks.file
          (markPlayed tradition ∅ input.picks.key a)).2 := by
  unfold beginSource
  rw [hcached, selectAudio_empty]

theorem localAudio_markPlayed (h : LocalAudio a) (tradition : String) (b : Box String)
    (shuffle : Shuffle String) : LocalAudio (markPlayed tradition b shuffle a) :=
  ⟨h.audioId, h.path, h.recent, h.players⟩

/-- A call goes on with local files. -/
theorem localAudio_advance (h : LocalAudio a) {call : Call} {input : AudioInput}
    (hcached : input.cachedAudio = ∅) {stage stage' : Stage} {a' : Audio}
    (hstage : ∀ source, stage = .releasing source → source.IsLocal)
    (ha : advance call input a stage = some (stage', a')) :
    LocalAudio a' ∧ ∀ source, stage' = .releasing source → source.IsLocal := by
  cases stage with
  | stopping =>
    simp only [advance] at ha
    split at ha
    · obtain ⟨rfl, rfl⟩ := Prod.mk.inj (Option.some.inj ha)
      exact ⟨h.setPlayers (h.players.dispose _), fun source hsource => by cases hsource⟩
    · obtain ⟨rfl, rfl⟩ := Prod.mk.inj (Option.some.inj ha)
      exact ⟨h, fun source hsource => by cases call <;> cases hsource⟩
  | disposing =>
    obtain ⟨rfl, rfl⟩ := Prod.mk.inj (Option.some.inj ha)
    exact ⟨h.setPlayers h.players, fun source hsource => by cases call <;> cases hsource⟩
  | stopped =>
    cases call with
    | stop => cases ha
    | play tradition =>
      simp only [advance, beginSource_empty input hcached] at ha
      obtain ⟨rfl, rfl⟩ := Prod.mk.inj (Option.some.inj ha)
      obtain ⟨hfile, hlocal⟩ :=
        (localAudio_markPlayed h tradition ∅ input.picks.key).getAudioFileWithFallbacks tradition
          input.picks.file
      refine ⟨localAudio_beginLocal hlocal hfile, fun source hsource => ?_⟩
      obtain rfl := Stage.releasing.inj hsource
      exact ⟨_, hfile, rfl⟩
  | releasing source =>
    have hsource := hstage source rfl
    obtain ⟨audioFile, hfile, rfl⟩ := hsource
    cases call with
    | stop => cases ha
    | play tradition =>
      simp only [advance] at ha
      split at ha
      · obtain ⟨rfl, rfl⟩ := Prod.mk.inj (Option.some.inj ha)
        exact ⟨h.playCurrent ⟨audioFile, hfile, rfl⟩ tradition, fun source hsource => by
          cases hsource⟩
      · obtain ⟨rfl, rfl⟩ := Prod.mk.inj (Option.some.inj ha)
        exact ⟨h, fun source hsource => by cases hsource⟩
  | starting =>
    obtain ⟨rfl, rfl⟩ := Prod.mk.inj (Option.some.inj ha)
    exact ⟨h.setPlayers h.players, fun source hsource => by cases hsource⟩
  | done => cases ha

theorem LocalOnly.step {w w' : World} {m : Move} (h : LocalOnly w) (hs : step w m = some w')
    (hcached : ∀ i input, m = .resume i input → input.cachedAudio = ∅) : LocalOnly w' := by
  cases m with
  | issue call =>
    obtain rfl := Option.some.inj hs
    obtain ⟨haudio, hstage⟩ := localAudio_begin h.audio call
    refine ⟨haudio, fun c hc source hsource => ?_⟩
    rcases List.mem_append.mp hc with hc | hc
    · exact h.calls c hc source hsource
    · obtain rfl := List.mem_singleton.mp hc
      exact absurd hsource (hstage source)
  | resume i input =>
    obtain ⟨call, stage, stage', a, hi, ha, rfl⟩ := step_resume hs
    obtain ⟨haudio, hstage⟩ := localAudio_advance h.audio (hcached i input rfl)
      (h.calls _ (List.mem_of_getElem? hi)) ha
    refine ⟨haudio, fun c hc source hsource => ?_⟩
    rcases List.mem_or_eq_of_mem_set hc with hc | rfl
    · exact h.calls c hc source hsource
    · exact hstage source hsource

omit [CaseMap] in
theorem localOnly_start : LocalOnly {} where
  audio := ⟨rfl, fun audioFile hpath => (by cases hpath), Nat.zero_le 3,
    fun player hplayer => absurd hplayer List.not_mem_nil⟩
  calls := fun c hc => absurd hc List.not_mem_nil

end Calls

/-! ## The application -/

namespace MotiAIApp

/-- What a move does to the calls of the audio service, with the switch and the current quote after
it. -/
inductive SoundEffect [CaseMap] (s : MotiAIApp) : AppMove → MotiAIApp → Prop
  | kept {m s'} (hsounds : s'.sounds = s.sounds)
      (henabled : s'.screen.isAudioEnabled = s.screen.isAudioEnabled)
      (hcurrent : s'.screen.currentQuote = s.screen.currentQuote) : SoundEffect s m s'
  | displayed {i shuffle millis kind quote s'} (henabled : s.screen.isAudioEnabled = true)
      (hi : s.world.requests[i]? = some ⟨kind, .picked quote⟩)
      (hs : Calls.step s.sounds (.issue (.play quote.tradition)) = some s'.sounds)
      (henabled' : s'.screen.isAudioEnabled = true)
      (hcurrent : s'.screen.currentQuote = some quote) :
      SoundEffect s (.display i shuffle millis) s'
  | silent {m s'} (hsounds : s'.sounds = s.sounds) (henabled : s.screen.isAudioEnabled = false)
      (henabled' : s'.screen.isAudioEnabled = false) : SoundEffect s m s'
  | switchedOn {quote s'} (henabled : s.screen.isAudioEnabled = false)
      (hcurrent : s.screen.currentQuote = some quote)
      (hs : Calls.step s.sounds (.issue (.play quote.tradition)) = some s'.sounds)
      (henabled' : s'.screen.isAudioEnabled = true)
      (hcurrent' : s'.screen.currentQuote = some quote) : SoundEffect s .toggleAudio s'
  | failed {m s'} (hsounds : s'.sounds = s.sounds) (hcurrent : s'.screen.currentQuote = none)
      (henabled' : s'.screen.isAudioEnabled = true) : SoundEffect s m s'
  | switchedOff {s'} (henabled : s.screen.isAudioEnabled = true)
      (hs : Calls.step s.sounds (.issue .stop) = some s'.sounds)
      (henabled' : s'.screen.isAudioEnabled = false) : SoundEffect s .toggleAudio s'
  | resumed {i picks decodeFails s'}
      (hs : Calls.step s.sounds (.resume i ⟨picks, s.cachedAudio, decodeFails⟩) = some s'.sounds)
      (hscreen : s'.screen = s.screen) : SoundEffect s (.sound i picks decodeFails) s'
  | ticked {f s'} (htimer : s.sounds.audio.audioTimer = true)
      (hsounds : s'.sounds =
        { s.sounds with audio := s.sounds.audio.timerTick f s.cachedAudio })
      (hscreen : s'.screen = s.screen) : SoundEffect s (.timerTick f) s'
  | restarted {key stabilityKey s'} (hsounds : s'.sounds = {}) (hscreen : s'.screen = {}) :
      SoundEffect s (.restart key stabilityKey) s'

section

variable [CaseMap] {s s' : MotiAIApp}

theorem sounds_of_issue {call : Calls.Call} (h : s.issue call = some s') :
    Calls.step s.sounds (.issue call) = some s'.sounds ∧ s'.screen = s.screen ∧
      s'.cachedAudio = s.cachedAudio := by
  obtain ⟨sounds, hsounds, rfl⟩ := Option.map_eq_some_iff.mp h
  exact ⟨hsounds, rfl, rfl⟩

/-- Looking for an image makes no sound. -/
theorem sounds_of_lookUp {quote : Quote} {shuffle : Shuffle String} {millis : ℕ}
    {stage : ScreenStage} (h : s.lookUp quote shuffle millis = some (stage, s')) :
    s'.sounds = s.sounds ∧ s'.screen.isAudioEnabled = s.screen.isAudioEnabled ∧
      s'.cachedAudio = s.cachedAudio := by
  have hset : ∀ {prompt : Option String} {d : Background},
      Background.lookUp quote shuffle millis s.background = some (prompt, d) →
        d.screen.isAudioEnabled = s.screen.isAudioEnabled := by
    intro prompt d hd
    cases Background.lookedUp_of_lookUp hd <;> rfl
  unfold lookUp at h
  split at h
  · cases h
  · rename_i d hd
    obtain ⟨-, rfl⟩ := Prod.mk.inj (Option.some.inj h)
    exact ⟨rfl, hset hd, rfl⟩
  · rename_i prompt d hd
    obtain ⟨service, -, heq⟩ := Option.map_eq_some_iff.mp h
    obtain ⟨-, rfl⟩ := Prod.mk.inj heq
    exact ⟨rfl, hset hd, rfl⟩

theorem soundEffect_displayQuote {i : ℕ} {shuffle : Shuffle String} {millis : ℕ}
    (h : s.displayQuote i shuffle millis = some s') :
    SoundEffect s (.display i shuffle millis) s' ∧ s'.cachedAudio = s.cachedAudio := by
  obtain ⟨kind, quote, s₁, s₂, hi, h₁, h₂, rfl⟩ := displayQuote_cases h
  obtain ⟨world, hw, rfl⟩ := Option.map_eq_some_iff.mp h₁
  obtain ⟨kind', stage, stage', session, hi', hresume, rfl⟩ := World.step_resume hw
  obtain ⟨rfl, rfl⟩ := Request.mk.inj (Option.some.inj (hi.symm.trans hi'))
  have hshown : session.screen.isAudioEnabled = s.screen.isAudioEnabled ∧
      session.screen.currentQuote = some quote := by
    cases World.resumes_of_resume hresume with
    | display quote => cases kind <;> exact ⟨rfl, rfl⟩
  have hfetch : ∀ t : MotiAIApp, t.fetchNextAIQuote.sounds = t.sounds ∧
      t.fetchNextAIQuote.screen = t.screen ∧ t.fetchNextAIQuote.cachedAudio = t.cachedAudio := by
    intro t
    unfold fetchNextAIQuote
    split <;> exact ⟨rfl, rfl, rfl⟩
  obtain ⟨hsounds₂, hscreen₂, hcached₂⟩ := hfetch s₂
  unfold generateBackgroundImage at h₂
  dsimp only at h₂
  split at h₂
  · rename_i henabled
    obtain ⟨s₃, hs₃, rfl⟩ := Option.map_eq_some_iff.mp h₂
    obtain ⟨hsounds, hscreen, hcached⟩ := sounds_of_issue hs₃
    have henabled' : session.screen.isAudioEnabled = true := henabled
    refine ⟨.displayed (hshown.1.symm.trans henabled') hi ?_ ?_ ?_, ?_⟩
    · rw [hsounds₂]
      exact hsounds
    · rw [hscreen₂]
      exact (congrArg QuoteScreen.isAudioEnabled hscreen).trans henabled'
    · rw [hscreen₂]
      exact (congrArg QuoteScreen.currentQuote hscreen).trans hshown.2
    · rw [hcached₂]
      exact hcached
  · rename_i henabled
    obtain ⟨⟨stage, s₃⟩, hs₃, rfl⟩ := Option.map_eq_some_iff.mp h₂
    obtain ⟨hsounds, hscreen, hcached⟩ := sounds_of_lookUp hs₃
    have henabled' : session.screen.isAudioEnabled = false := Bool.eq_false_iff.mpr henabled
    refine ⟨.silent ?_ (hshown.1.symm.trans henabled') ?_, ?_⟩
    · rw [hsounds₂]
      exact hsounds
    · rw [hscreen₂]
      exact hscreen.trans henabled'
    · rw [hcached₂]
      exact hcached

theorem soundEffect_toggleAudio (h : s.toggleAudio = some s') :
    SoundEffect s .toggleAudio s' ∧ s'.cachedAudio = s.cachedAudio := by
  unfold toggleAudio at h
  dsimp only at h
  split at h
  · rename_i hon
    have henabled : s.screen.isAudioEnabled = false := by
      have hon' : (!s.screen.isAudioEnabled) = true := hon
      simpa using hon'
    split at h
    · rename_i quote hcurrent
      obtain ⟨hsounds, hscreen, hcached⟩ := sounds_of_issue h
      refine ⟨.switchedOn henabled hcurrent hsounds ?_ ?_, hcached⟩
      · rw [hscreen]
        exact hon
      · rw [hscreen]
        exact hcurrent
    · rename_i hcurrent
      obtain rfl := Option.some.inj h
      exact ⟨.failed rfl hcurrent hon, rfl⟩
  · rename_i hoff
    have henabled : s.screen.isAudioEnabled = true := by
      have hoff' : ¬ (!s.screen.isAudioEnabled) = true := hoff
      simpa using hoff'
    obtain ⟨hsounds, hscreen, hcached⟩ := sounds_of_issue h
    refine ⟨.switchedOff henabled hsounds ?_, hcached⟩
    rw [hscreen]
    exact Bool.eq_false_iff.mpr hoff

theorem soundEffect_backstage [NumText] {m : AppMove} (hm : m.isBackstage = true)
    (hne : ∀ audioId audioData, m ≠ .preGenerated audioId audioData) (hs : s.step m = some s') :
    SoundEffect s m s' ∧ s'.cachedAudio = s.cachedAudio := by
  have hb := backstage_step hm hs
  cases m with
  | toggleAIQuotes =>
    obtain rfl := Option.some.inj hs
    exact ⟨.kept rfl rfl rfl, rfl⟩
  | toggleAudio => exact soundEffect_toggleAudio hs
  | sound i picks decodeFails =>
    simp only [step] at hs
    obtain ⟨sounds, hsounds, rfl⟩ := Option.map_eq_some_iff.mp hs
    exact ⟨.resumed hsounds rfl, rfl⟩
  | timerTick f =>
    simp only [step] at hs
    split at hs
    · rename_i htimer
      obtain rfl := Option.some.inj hs
      exact ⟨.ticked htimer rfl rfl, rfl⟩
    · cases hs
  | ambiencePlayed i shuffle millis =>
    simp only [step] at hs
    split at hs
    · split at hs
      · obtain ⟨⟨stage, s₁⟩, hs₁, rfl⟩ := Option.map_eq_some_iff.mp hs
        obtain ⟨hsounds, henabled, hcached⟩ := sounds_of_lookUp hs₁
        exact ⟨.kept hsounds henabled hb.currentQuote, hcached⟩
      · cases hs
    · cases hs
  | imageRead j readable =>
    obtain ⟨service, -, rfl⟩ := Option.map_eq_some_iff.mp hs
    exact ⟨.kept rfl rfl rfl, rfl⟩
  | imageAnswer j reply millis writable =>
    obtain ⟨service, -, rfl⟩ := Option.map_eq_some_iff.mp hs
    exact ⟨.kept rfl rfl rfl, rfl⟩
  | tick duration =>
    obtain rfl := Option.some.inj hs
    exact ⟨.kept rfl rfl rfl, rfl⟩
  | generated i =>
    simp only [step] at hs
    split at hs
    · obtain ⟨d, hd, rfl⟩ := Option.map_eq_some_iff.mp hs
      refine ⟨.kept rfl ?_ hb.currentQuote, rfl⟩
      rcases Background.receive_image_cases hd with ⟨-, rfl⟩ | ⟨-, rfl⟩ <;> rfl
    · cases hs
  | prefetchImage tradition i =>
    simp only [step] at hs
    split at hs
    · obtain ⟨service, -, rfl⟩ := Option.map_eq_some_iff.mp hs
      exact ⟨.kept rfl rfl rfl, rfl⟩
    · cases hs
  | preGenerated audioId audioData => exact absurd rfl (hne audioId audioData)
  | _ => cases hm

theorem soundEffect_step [NumText] {m : AppMove}
    (hne : ∀ audioId audioData, m ≠ .preGenerated audioId audioData) (hs : s.step m = some s') :
    SoundEffect s m s' ∧ s'.cachedAudio = s.cachedAudio := by
  cases hm : m.isBackstage with
  | true => exact soundEffect_backstage hm hne hs
  | false =>
    rcases front_of_onstage (onstage_of_step hm hs) with hfront |
      ⟨i, shuffle, millis, rfl, hdisplay⟩ |
      ⟨key, stabilityKey, service, rfl, -, -, hsounds, hcached, -, hscreen⟩
    · exact ⟨.kept hfront.sounds (by rw [hfront.screen]) (by rw [hfront.screen]),
        hfront.cachedAudio⟩
    · exact soundEffect_displayQuote hdisplay
    · exact ⟨.restarted hsounds hscreen, hcached⟩

/-- Nothing is cached, and the audio service has local files only. -/
structure LocalSounds (s : MotiAIApp) : Prop where
  cached : s.cachedAudio = ∅
  localOnly : Calls.LocalOnly s.sounds

theorem LocalSounds.effect (h : LocalSounds s) {m : AppMove} (he : SoundEffect s m s')
    (hcached : s'.cachedAudio = s.cachedAudio) : LocalSounds s' := by
  refine ⟨hcached.trans h.cached, ?_⟩
  have hissue : ∀ {call : Calls.Call} {sounds : Calls.World},
      Calls.step s.sounds (.issue call) = some sounds → Calls.LocalOnly sounds :=
    fun hs => h.localOnly.step hs (by simp)
  cases he with
  | kept hsounds => exact hsounds ▸ h.localOnly
  | displayed henabled hi hs => exact hissue hs
  | silent hsounds => exact hsounds ▸ h.localOnly
  | switchedOn henabled hcurrent hs => exact hissue hs
  | failed hsounds => exact hsounds ▸ h.localOnly
  | switchedOff henabled hs => exact hissue hs
  | resumed hs =>
    refine h.localOnly.step hs fun i input hm => ?_
    obtain ⟨rfl, rfl⟩ := Calls.Move.resume.inj hm
    exact h.cached
  | @ticked f _ htimer hsounds =>
    rw [hsounds, h.cached]
    exact ⟨h.localOnly.audio.timerTick f, h.localOnly.calls⟩
  | restarted hsounds =>
    rw [hsounds]
    exact Calls.localOnly_start

/-- What is expected of the audio. -/
structure LocallyPlayed (s : MotiAIApp) : Prop where
  cached : s.cachedAudio = ∅
  currentAudioId : s.sounds.audio.currentAudioId = none
  currentAudioFile : ∀ audioFile, s.sounds.audio.currentAudioFilePath = some audioFile →
    audioFile ∈ Audio.availableAudioFiles
  played : ∀ player ∈ s.sounds.audio.players, ∀ source, player.source = some source →
    source.IsLocal
  starting : ∀ c ∈ s.sounds.calls, ∀ source, c.stage = .releasing source → source.IsLocal

/-- The images keep the prefetch from starting, so the audio stays local. -/
theorem locallyPlayed_step [NumText] {m : AppMove} (hstocked : Stocked s) (hill : Illustrated s)
    (h : LocalSounds s) (hs : s.step m = some s') :
    (Stocked s' ∧ Illustrated s' ∧ LocalSounds s') ∧ SoundEffect s m s' := by
  have hne : ∀ audioId audioData, m ≠ .preGenerated audioId audioData := by
    rintro audioId audioData rfl
    simp only [step, hill.notStarted, Bool.false_eq_true, if_false] at hs
    cases hs
  obtain ⟨heffect, hcached⟩ := soundEffect_step hne hs
  exact ⟨⟨hstocked.step hs, hill.step hstocked hs, h.effect heffect hcached⟩, heffect⟩

/-- **The audio of the application.** From a fresh installation on, whatever goes on together, no
audio is cached or played but the four local files. -/
theorem locally_run [NumText] (key stabilityKey : EnvEntry) (moves : List AppMove) :
    Run.Each step (fun _ _ s' => LocallyPlayed s') (installed key stabilityKey) moves := by
  refine Run.each_of_invariant (I := fun s => Stocked s ∧ Illustrated s ∧ LocalSounds s)
    (P := fun _ _ _ => True) (fun s m s' ⟨hstocked, hill, h⟩ hs _ => ?_) moves _
    ⟨stocked_installed key stabilityKey, illustrated_installed key stabilityKey,
      ⟨rfl, Calls.localOnly_start⟩⟩ (Run.each_of_forall_mem fun _ _ _ _ => trivial)
  obtain ⟨h', -⟩ := locallyPlayed_step hstocked hill h hs
  have haudio := h'.2.2.localOnly.audio
  exact ⟨h', h'.2.2.cached, haudio.audioId, haudio.path,
    fun player hplayer => (haudio.players player hplayer).source, h'.2.2.localOnly.calls⟩

end

end MotiAIApp

end MotiAI
