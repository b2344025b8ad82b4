import MotiAI.Audio.Service
import MotiAI.Lib.Run

/-!
# Ownership of audio players

Sequences of completed audio operations in which any player call and any decoding may throw.

`owned_iff`: throughout a run the only player alive is the current one, and a stop without exception
leaves none, exactly when (a) no stop, explicit or at the start of a `playAmbience`, meets a player
that is held but not playing, (b) no call throws in the stop at the start of a `playAmbience`, and
(c) no selected AI audio fails and falls back to a local file.
-/

namespace MotiAI

open Dart Hive

inductive AudioOp where
  | playAmbience (f : Faults) (picks : Picks) (cachedAudio : Box String) (tradition : String)
  | stopAmbience (f : Faults)
  | pauseAmbience (f : Faults)
  | resumeAmbience (f : Faults)
  | dispose (f : Faults)
  | timerTick (f : Faults) (cachedAudio : Box String)

namespace Audio

/-- Player `p` is alive. -/
abbrev Alive (a : Audio) (p : ℕ) : Prop := Players.Alive a.players p

/-- The only player alive is the current one. -/
def Owned (a : Audio) : Prop := ∀ p, a.Alive p → a.currentPlayer = some p

/-- The current player is alive, and it is the only one. -/
def Held (a : Audio) : Prop := ∀ p, a.Alive p ↔ a.currentPlayer = some p

theorem Held.owned {a : Audio} (h : Held a) : Owned a := fun p => (h p).mp

/-- The stop of `stopAmbience` or `dispose` makes a call that throws. -/
def StopThrows (f : Faults) (a : Audio) : Prop :=
  a.currentPlayer ≠ none ∧ a.isPlaying = true ∧ (f.stop = true ∨ f.dispose = true)

/-- No player is alive, and `resumeAmbience` starts nothing. -/
def Silent (a : Audio) : Prop := (∀ p, ¬ a.Alive p) ∧ ∀ f, resumeAmbience f a = a

/-! ## What the operations do to the players -/

section

variable {a : Audio} {f : Faults}

/-- There is nothing to stop. -/
theorem stopAmbience_of_idle (h : a.currentPlayer = none ∨ a.isPlaying = false) :
    stopAmbience f a = a.clearSource := by
  unfold stopAmbience
  rcases h with h | h
  · rw [h]
  · rw [h]
    cases a.currentPlayer <;> rfl

/-- A stop that throws keeps its player. -/
theorem stopAmbience_of_throws (h : StopThrows f a) :
    (stopAmbience f a).currentPlayer = a.currentPlayer ∧
      (stopAmbience f a).isPlaying = a.isPlaying ∧
      ∀ p, (stopAmbience f a).Alive p ↔ a.Alive p := by
  obtain ⟨hne, hplaying, hthrow⟩ := h
  obtain ⟨p, hp⟩ := Option.ne_none_iff_exists'.mp hne
  unfold stopAmbience
  rw [hp, hplaying]
  by_cases hs : f.stop = true
  · simp only [hs, if_true]
    exact ⟨hp, hplaying, fun q => Iff.rfl⟩
  · simp only [hs, Bool.false_eq_true, if_false, hthrow.resolve_left hs, if_true]
    exact ⟨hp, hplaying, fun q => Players.alive_silence⟩

/-- A stop that goes through disposes its player. -/
theorem stopAmbience_of_playing {p : ℕ} (hp : a.currentPlayer = some p)
    (hplaying : a.isPlaying = true) (hs : f.stop = false) (hd : f.dispose = false) :
    stopAmbience f a =
      { a.clearSource with players := (a.players.silence p).dispose p }.release := by
  unfold stopAmbience
  rw [hp, hplaying]
  simp only [hs, hd, Bool.false_eq_true, if_false]

theorem alive_createPlayer {p : ℕ} :
    a.createPlayer.Alive p ↔ a.Alive p ∨ p = a.players.length := Players.alive_create

@[simp] theorem alive_started {p : ℕ} : a.started.Alive p ↔ a.Alive p := Iff.rfl

@[simp] theorem currentPlayer_started : a.started.currentPlayer = a.currentPlayer := rfl

@[simp] theorem alive_playCurrent {tradition : String} {source : Source} {p : ℕ} :
    (a.playCurrent tradition source).Alive p ↔ a.Alive p := by
  unfold playCurrent
  cases a.currentPlayer with
  | none => rfl
  | some q => exact Players.alive_play

@[simp] theorem currentPlayer_playCurrent {tradition : String} {source : Source} :
    (a.playCurrent tradition source).currentPlayer = a.currentPlayer := by
  unfold playCurrent
  cases h : a.currentPlayer with
  | none => exact h
  | some q => rfl

/-- `b` holds a new player, besides the ones alive in `a`. -/
structure Adds (a b : Audio) : Prop where
  current : b.currentPlayer = some a.players.length
  alive : ∀ p, b.Alive p ↔ a.Alive p ∨ p = a.players.length

theorem Adds.started {b : Audio} (h : Adds a b) (tradition : String) (source : Source) :
    Adds a (b.playCurrent tradition source).started :=
  ⟨by rw [currentPlayer_started, currentPlayer_playCurrent, h.current],
    fun p => by rw [alive_started, alive_playCurrent, h.alive]⟩

theorem playLocalAudio_adds (tradition audioFile : String) :
    Adds a (playLocalAudio f tradition audioFile a) := by
  have hnew : Adds a { a with currentAudioFilePath := some audioFile }.createPlayer :=
    ⟨rfl, fun _ => alive_createPlayer⟩
  unfold playLocalAudio
  split
  · exact hnew
  · split
    · exact hnew
    · exact hnew.started tradition _

/-- A player that is alive besides the current one is not owned. -/
theorem Adds.owned_iff_dead {b : Audio} (h : Adds a b) : Owned b ↔ ∀ p, ¬ a.Alive p := by
  constructor
  · intro hb p hp
    have hcur := hb p ((h.alive p).mpr (Or.inl hp))
    rw [h.current] at hcur
    have hlt := Players.Alive.lt hp
    have : a.players.length = p := Option.some.inj hcur
    omega
  · intro ha p hp
    rcases (h.alive p).mp hp with hp | rfl
    · exact absurd hp (ha p)
    · exact h.current

theorem Adds.held {b : Audio} (h : Adds a b) (ha : ∀ p, ¬ a.Alive p) : Held b := by
  intro p
  rw [h.alive, h.current, Option.some.injEq]
  exact ⟨fun hp => (hp.resolve_left (ha p)).symm, fun hp => Or.inr hp.symm⟩

@[simp] theorem playedAudioKeys_stopAmbience :
    (stopAmbience f a).playedAudioKeys = a.playedAudioKeys := by
  unfold stopAmbience
  split
  · split_ifs <;> rfl
  · rfl

section

variable [CaseMap]

/-- A selected AI audio plays, or the exception of its fallback ends the operation. -/
def AIGoesThrough (f : Faults) (audioId audioData : String) : Prop :=
  (f.aiRelease = false ∧ decodes f audioData = true ∧ f.aiPlay = false) ∨
    extractTraditionFromAudioId audioId = none

/-- The AI audio path adds one player, or two when it falls back. -/
theorem playAIAudio_adds (shuffle : Shuffle String) (tradition audioData audioId : String) :
    (AIGoesThrough f audioId audioData →
      Adds a (playAIAudio f shuffle tradition audioData audioId a)) ∧
    (¬ AIGoesThrough f audioId audioData → ∃ b, Adds a b ∧
      Adds b (playAIAudio f shuffle tradition audioData audioId a)) := by
  have hnew : Adds a { a with currentAudioId := some audioId }.createPlayer :=
    ⟨rfl, fun _ => alive_createPlayer⟩
  unfold playAIAudio AIGoesThrough
  by_cases hfail : (f.aiRelease || !decodes f audioData || f.aiPlay) = true
  · simp only [hfail, if_true]
    cases hx : extractTraditionFromAudioId audioId with
    | none => exact ⟨fun _ => hnew, fun hn => absurd (Or.inr rfl) hn⟩
    | some extracted =>
      refine ⟨fun hok => ?_, fun _ => ⟨_, hnew, ?_⟩⟩
      · simp_all
      · have hlocal := playLocalAudio_adds (f := f) tradition
          (getAudioFileWithFallbacks extracted shuffle
            { a with currentAudioId := some audioId }.createPlayer).1
          (a := (getAudioFileWithFallbacks extracted shuffle
            { a with currentAudioId := some audioId }.createPlayer).2)
        exact ⟨hlocal.current, hlocal.alive⟩
  · simp only [hfail]
    refine ⟨fun _ => hnew.started tradition _, fun hn => absurd (Or.inl ?_) hn⟩
    simpa [and_assoc] using hfail

/-- The AI audio `playAmbience` selects, if any, goes through. -/
def SelectionGoesThrough (f : Faults) (picks : Picks) (cachedAudio : Box String)
    (tradition : String) (a : Audio) : Prop :=
  ∀ audioId audioData, selectAudio tradition cachedAudio picks.key (a.playedAudioKeys tradition) =
    some (audioId, audioData) → AIGoesThrough f audioId audioData

/-- The players added for a tradition: one, or two when its AI audio falls back. -/
theorem playSelected_adds (f : Faults) (picks : Picks) (cachedAudio : Box String)
    (tradition : String) (a : Audio) :
    (SelectionGoesThrough f picks cachedAudio tradition a →
      Adds a (playSelected f picks cachedAudio tradition a)) ∧
    (¬ SelectionGoesThrough f picks cachedAudio tradition a → ∃ b,
      Adds a b ∧ Adds b (playSelected f picks cachedAudio tradition a)) := by
  unfold playSelected SelectionGoesThrough
  cases hsel : selectAudio tradition cachedAudio picks.key (a.playedAudioKeys tradition) with
  | none =>
    refine ⟨fun _ => ?_, fun hn => absurd (fun _ _ heq => by cases heq) hn⟩
    obtain ⟨hcur, halive⟩ := playLocalAudio_adds (f := f) tradition
      (getAudioFileWithFallbacks tradition picks.file
        (markPlayed tradition cachedAudio picks.key a)).1
      (a := (getAudioFileWithFallbacks tradition picks.file
        (markPlayed tradition cachedAudio picks.key a)).2)
    exact ⟨hcur, halive⟩
  | some sel =>
    obtain ⟨audioId, audioData⟩ := sel
    obtain ⟨hok, hfail⟩ := playAIAudio_adds (f := f) picks.file tradition audioData audioId
      (a := markPlayed tradition cachedAudio picks.key a)
    constructor
    · intro hsome
      have hadds := hok (hsome audioId audioData rfl)
      exact ⟨hadds.current, hadds.alive⟩
    · intro hnot
      obtain ⟨b, hb, hb'⟩ := hfail fun hgo => hnot fun i d heq => by cases heq; exact hgo
      exact ⟨b, ⟨hb.current, hb.alive⟩, hb'⟩

theorem playAmbience_of_ne (f : Faults) (picks : Picks) (cachedAudio : Box String)
    {tradition : String} (h : a.lastAudioTradition ≠ some tradition) :
    playAmbience f picks cachedAudio tradition a =
      playSelected f picks cachedAudio tradition
        (stopAmbience f { a with lastAudioTradition := some tradition }) := by
  unfold playAmbience
  rw [if_neg h]

theorem playAmbience_of_eq (f : Faults) (picks : Picks) (cachedAudio : Box String)
    {tradition : String} (h : a.lastAudioTradition = some tradition) :
    playAmbience f picks cachedAudio tradition a = a := by
  unfold playAmbience
  rw [if_pos h]

theorem selectionGoesThrough_stop_iff {picks : Picks} {cachedAudio : Box String}
    {tradition : String} :
    SelectionGoesThrough f picks cachedAudio tradition
        (stopAmbience f { a with lastAudioTradition := some tradition }) ↔
      SelectionGoesThrough f picks cachedAudio tradition a := by
  unfold SelectionGoesThrough
  rw [playedAudioKeys_stopAmbience]

end

end

/-! ## One operation -/

/-- Nothing is held, or what is held plays and its stop does not throw. -/
def StopClean (f : Faults) (a : Audio) : Prop :=
  a.currentPlayer = none ∨ (a.isPlaying = true ∧ f.stop = false ∧ f.dispose = false)

section

variable {a b : Audio} {f : Faults}

theorem Held.of_same (h : Held a) (hc : b.currentPlayer = a.currentPlayer)
    (ha : ∀ p, b.Alive p ↔ a.Alive p) : Held b := fun p => by rw [ha, h, hc]

theorem Held.not_alive_iff (h : Held a) : (∀ p, ¬ a.Alive p) ↔ a.currentPlayer = none := by
  simp only [h _]
  exact (Option.eq_none_iff_forall_ne_some).symm

theorem Held.silent (h : Held a) (hc : a.currentPlayer = none) : Silent a := by
  refine ⟨h.not_alive_iff.mpr hc, fun f => ?_⟩
  unfold resumeAmbience
  rw [hc]

/-- The three ways of a stop. -/
theorem stop_cases (f : Faults) (a : Audio) :
    (a.currentPlayer = none ∨ a.isPlaying = false) ∨ StopThrows f a ∨
      (∃ p, a.currentPlayer = some p ∧ a.isPlaying = true ∧ f.stop = false ∧
        f.dispose = false) := by
  unfold StopThrows
  cases hc : a.currentPlayer with
  | none => exact Or.inl (Or.inl rfl)
  | some p =>
    cases a.isPlaying <;> cases f.stop <;> cases f.dispose <;> simp

theorem Held.stopAmbience (h : Held a) (f : Faults) : Held (stopAmbience f a) := by
  rcases stop_cases f a with hidle | hthrow | ⟨p, hp, hplaying, hs, hd⟩
  · rw [stopAmbience_of_idle hidle]
    exact h
  · obtain ⟨hc, -, ha⟩ := stopAmbience_of_throws hthrow
    exact h.of_same hc ha
  · rw [stopAmbience_of_playing hp hplaying hs hd]
    intro q
    show Players.Alive ((a.players.silence p).dispose p) q ↔ none = some q
    rw [Players.alive_dispose, Players.alive_silence, show a.players.Alive q ↔ _ from h q, hp]
    simp [eq_comm]

theorem currentPlayer_stopAmbience_eq_none_iff :
    (Audio.stopAmbience f a).currentPlayer = none ↔ StopClean f a := by
  unfold StopClean
  rcases stop_cases f a with hidle | hthrow | ⟨p, hp, hplaying, hs, hd⟩
  · rw [stopAmbience_of_idle hidle]
    show a.currentPlayer = none ↔ _
    rcases hidle with hn | hf
    · simp [hn]
    · simp [hf]
  · obtain ⟨hc, -, -⟩ := stopAmbience_of_throws hthrow
    obtain ⟨hne, hplaying, hthrows⟩ := hthrow
    rw [hc]
    rcases hthrows with hs | hd
    · simp [hs]
    · simp [hd]
  · rw [stopAmbience_of_playing hp hplaying hs hd]
    exact ⟨fun _ => Or.inr ⟨hplaying, hs, hd⟩, fun _ => rfl⟩

/-- A stop without exception leaves no player unless it meets one that does not play. -/
theorem Held.stop_iff (h : Held a) :
    (Owned (Audio.stopAmbience f a) ∧ (¬ StopThrows f a → Silent (Audio.stopAmbience f a))) ↔
      (a.currentPlayer = none ∨ a.isPlaying = true) := by
  have h' := h.stopAmbience f
  constructor
  · rintro ⟨-, hsilent⟩
    by_contra hn
    push Not at hn
    have hthrow : ¬ StopThrows f a := fun ht => hn.2 ht.2.1
    have hnone := h'.not_alive_iff.mp (hsilent hthrow).1
    rcases currentPlayer_stopAmbience_eq_none_iff.mp hnone with hc | hc
    · exact hn.1 hc
    · exact hn.2 hc.1
  · intro hok
    refine ⟨h'.owned, fun hthrow => h'.silent (currentPlayer_stopAmbience_eq_none_iff.mpr ?_)⟩
    rcases hok with hc | hplaying
    · exact Or.inl hc
    · by_cases hc : a.currentPlayer = none
      · exact Or.inl hc
      · refine Or.inr ⟨hplaying, ?_, ?_⟩
        · exact Bool.eq_false_iff.mpr fun hs => hthrow ⟨hc, hplaying, Or.inl hs⟩
        · exact Bool.eq_false_iff.mpr fun hd => hthrow ⟨hc, hplaying, Or.inr hd⟩

theorem Held.pauseAmbience (h : Held a) : Held (pauseAmbience f a) := by
  unfold Audio.pauseAmbience
  split
  · split
    · exact h
    · exact h.of_same rfl fun _ => Players.alive_silence
  · exact h

theorem Held.resumeAmbience (h : Held a) : Held (resumeAmbience f a) := by
  unfold Audio.resumeAmbience
  split
  · split
    · exact h
    · exact h.of_same rfl fun _ => Players.alive_resume
  · exact h

/-- A restart leaves the player silent or playing, or is not begun. -/
theorem restartAudio_cases (f : Faults) (cachedAudio : Box String) (a : Audio) :
    restartAudio f cachedAudio a = a ∨
      (∃ p, restartAudio f cachedAudio a = { a with players := a.players.silence p }) ∨
      ∃ p source, restartAudio f cachedAudio a =
        { a with players := a.players.replay p source } := by
  unfold restartAudio
  split
  · rename_i p _ _
    split
    · exact Or.inl rfl
    · split
      · split
        · split
          · exact Or.inr (Or.inr ⟨p, _, rfl⟩)
          · exact Or.inr (Or.inl ⟨p, rfl⟩)
        · exact Or.inr (Or.inl ⟨p, rfl⟩)
      · split
        · exact Or.inr (Or.inl ⟨p, rfl⟩)
        · exact Or.inr (Or.inr ⟨p, _, rfl⟩)
      · exact Or.inr (Or.inl ⟨p, rfl⟩)
  · exact Or.inl rfl

theorem Held.timerTick (h : Held a) (cachedAudio : Box String) :
    Held (timerTick f cachedAudio a) := by
  unfold Audio.timerTick
  split
  · rcases restartAudio_cases f cachedAudio a with heq | ⟨p, heq⟩ | ⟨p, source, heq⟩
    · rw [heq]
      exact h
    · rw [heq]
      exact h.of_same rfl fun _ => Players.alive_silence
    · rw [heq]
      exact h.of_same rfl fun _ => Players.alive_replay
  · exact h

/-- A `playAmbience` that is not skipped keeps the ownership exactly when its stop is clean and its
selection goes through. -/
theorem Held.play_iff [CaseMap] (h : Held a) {picks : Picks} {cachedAudio : Box String}
    {tradition : String} (hlast : a.lastAudioTradition ≠ some tradition) :
    (Owned (playAmbience f picks cachedAudio tradition a) ↔
      StopClean f a ∧ SelectionGoesThrough f picks cachedAudio tradition a) ∧
    (StopClean f a ∧ SelectionGoesThrough f picks cachedAudio tradition a →
      Held (playAmbience f picks cachedAudio tradition a)) := by
  have hlast' : Held { a with lastAudioTradition := some tradition } := h
  have hstop := hlast'.stopAmbience f
  have hclean : (∀ p, ¬ (Audio.stopAmbience f
      { a with lastAudioTradition := some tradition }).Alive p) ↔ StopClean f a := by
    rw [hstop.not_alive_iff]
    exact currentPlayer_stopAmbience_eq_none_iff
  obtain ⟨hone, htwo⟩ := playSelected_adds f picks cachedAudio tradition
    (Audio.stopAmbience f { a with lastAudioTradition := some tradition })
  rw [selectionGoesThrough_stop_iff] at hone htwo
  rw [playAmbience_of_ne f picks cachedAudio hlast]
  refine ⟨?_, fun hok => (hone hok.2).held (hclean.mpr hok.1)⟩
  by_cases hsel : SelectionGoesThrough f picks cachedAudio tradition a
  · rw [(hone hsel).owned_iff_dead, hclean]
    exact ⟨fun hc => ⟨hc, hsel⟩, fun hc => hc.1⟩
  · -- the player of the failed AI audio is alive and not current
    obtain ⟨b, hb, hb'⟩ := htwo hsel
    refine ⟨fun howned => ?_, fun hok => absurd hok.2 hsel⟩
    exact absurd ((hb.alive _).mpr (Or.inr rfl)) (hb'.owned_iff_dead.mp howned _)

end

theorem held_start : Held {} := by
  intro p
  constructor
  · rintro ⟨player, hp, -⟩
    cases hp
  · intro hp
    cases hp

/-! ## Runs -/

/-- What is expected after each operation. -/
def Sound (a : Audio) (op : AudioOp) (a' : Audio) : Prop :=
  Owned a' ∧ ∀ f, op = .stopAmbience f ∨ op = .dispose f → ¬ StopThrows f a → Silent a'

theorem sound_iff_owned {a a' : Audio} {op : AudioOp} (hstop : ∀ f, op ≠ .stopAmbience f)
    (hdispose : ∀ f, op ≠ .dispose f) : Sound a op a' ↔ Owned a' := by
  refine ⟨fun hS => hS.1, fun hO => ⟨hO, fun f hop => ?_⟩⟩
  rcases hop with hop | hop
  · exact absurd hop (hstop f)
  · exact absurd hop (hdispose f)

theorem sound_stopAmbience_iff {a a' : Audio} {f : Faults} :
    Sound a (.stopAmbience f) a' ↔ Owned a' ∧ (¬ StopThrows f a → Silent a') := by
  refine ⟨fun hS => ⟨hS.1, hS.2 f (Or.inl rfl)⟩, fun hS => ⟨hS.1, fun f' hop => ?_⟩⟩
  rcases hop with hop | hop
  · cases hop
    exact hS.2
  · cases hop

theorem sound_dispose_iff {a a' : Audio} {f : Faults} :
    Sound a (.dispose f) a' ↔ Owned a' ∧ (¬ StopThrows f a → Silent a') := by
  refine ⟨fun hS => ⟨hS.1, hS.2 f (Or.inr rfl)⟩, fun hS => ⟨hS.1, fun f' hop => ?_⟩⟩
  rcases hop with hop | hop
  · cases hop
  · cases hop
    exact hS.2

section

variable [CaseMap]

/-- A completed operation; the timer ticks only while it is armed. -/
def step (a : Audio) : AudioOp → Option Audio
  | .playAmbience f picks cachedAudio tradition =>
    some (playAmbience f picks cachedAudio tradition a)
  | .stopAmbience f => some (stopAmbience f a)
  | .pauseAmbience f => some (pauseAmbience f a)
  | .resumeAmbience f => some (resumeAmbience f a)
  | .dispose f => some (dispose f a)
  | .timerTick f cachedAudio => if a.audioTimer then some (timerTick f cachedAudio a) else none

/-- The operation does not run into a held player that does not play, a failing stop before a new
player, or a failing AI audio. -/
def Manageable (a : Audio) (op : AudioOp) (_ : Audio) : Prop :=
  match op with
  | .playAmbience f picks cachedAudio tradition => a.lastAudioTradition ≠ some tradition →
    StopClean f a ∧ SelectionGoesThrough f picks cachedAudio tradition a
  | .stopAmbience _ | .dispose _ => a.currentPlayer = none ∨ a.isPlaying = true
  | _ => True

theorem sound_iff_manageable {a a' : Audio} {op : AudioOp} (h : Held a)
    (hs : step a op = some a') : Sound a op a' ↔ Manageable a op a' := by
  cases op with
  | playAmbience f picks cachedAudio tradition =>
    obtain rfl := Option.some.inj hs
    rw [sound_iff_owned (fun _ hop => by cases hop) fun _ hop => by cases hop]
    unfold Manageable
    by_cases hlast : a.lastAudioTradition = some tradition
    · rw [playAmbience_of_eq f picks cachedAudio hlast]
      exact ⟨fun _ hne => absurd hlast hne, fun _ => h.owned⟩
    · rw [(h.play_iff hlast).1]
      exact ⟨fun hok _ => hok, fun hok => hok hlast⟩
  | stopAmbience f =>
    obtain rfl := Option.some.inj hs
    exact sound_stopAmbience_iff.trans h.stop_iff
  | dispose f =>
    obtain rfl := Option.some.inj hs
    have hclear : Held a.clearSource := h
    exact sound_dispose_iff.trans hclear.stop_iff
  | pauseAmbience f =>
    obtain rfl := Option.some.inj hs
    rw [sound_iff_owned (fun _ hop => by cases hop) fun _ hop => by cases hop]
    exact ⟨fun _ => trivial, fun _ => h.pauseAmbience.owned⟩
  | resumeAmbience f =>
    obtain rfl := Option.some.inj hs
    rw [sound_iff_owned (fun _ hop => by cases hop) fun _ hop => by cases hop]
    exact ⟨fun _ => trivial, fun _ => h.resumeAmbience.owned⟩
  | timerTick f cachedAudio =>
    rw [sound_iff_owned (fun _ hop => by cases hop) fun _ hop => by cases hop]
    simp only [step] at hs
    split at hs
    · obtain rfl := Option.some.inj hs
      exact ⟨fun _ => trivial, fun _ => (h.timerTick cachedAudio).owned⟩
    · cases hs

theorem held_step {a a' : Audio} {op : AudioOp} (h : Held a) (hs : step a op = some a')
    (hok : Manageable a op a') : Held a' := by
  cases op with
  | playAmbience f picks cachedAudio tradition =>
    obtain rfl := Option.some.inj hs
    by_cases hlast : a.lastAudioTradition = some tradition
    · rw [playAmbience_of_eq f picks cachedAudio hlast]
      exact h
    · exact (h.play_iff hlast).2 (hok hlast)
  | stopAmbience f =>
    obtain rfl := Option.some.inj hs
    exact h.stopAmbience f
  | dispose f =>
    obtain rfl := Option.some.inj hs
    exact Held.stopAmbience (a := a.clearSource) h f
  | pauseAmbience f =>
    obtain rfl := Option.some.inj hs
    exact h.pauseAmbience
  | resumeAmbience f =>
    obtain rfl := Option.some.inj hs
    exact h.resumeAmbience
  | timerTick f cachedAudio =>
    simp only [step] at hs
    split at hs
    · obtain rfl := Option.some.inj hs
      exact h.timerTick cachedAudio
    · cases hs

/-- **Ownership of players.** A run meets its expectation exactly when all its operations are
manageable. -/
theorem owned_iff (ops : List AudioOp) :
    Run.Each step Sound {} ops ↔ Run.Each step Manageable {} ops :=
  Run.each_iff_of_invariant (I := Held) (P := Manageable) (Q := Sound)
    (fun _ _ _ h hs => sound_iff_manageable h hs)
    (fun _ _ _ h hs hok => held_step h hs hok) ops {} held_start

end

/-- Stopping what was paused: nothing throws, and the player stays alive. -/
theorem not_owned_pause_stop : ¬ Run.Each (@step CaseMap.ascii) Sound {}
    [.playAmbience {} ⟨.keep, .keep⟩ ∅ "Zen", .pauseAmbience {}, .stopAmbience {}] := by
  intro hE
  rw [Run.each_cons_of_step rfl, Run.each_cons_of_step rfl, Run.each_cons_of_step rfl] at hE
  obtain ⟨-, -, ⟨-, hsilent⟩, -⟩ := hE
  have halive := (hsilent {} (Or.inl rfl) fun hthrow => by cases hthrow.2.1).1 0
  exact halive ⟨_, rfl, rfl⟩

end Audio

end MotiAI
