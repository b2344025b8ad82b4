import MotiAI.Audio.Ownership

/-!
# The periodic restart

Requests one after the other, and ticks of the timer, where only the decoding of an AI audio and
`play` of its bytes may throw. A tick plays again what the two fields `_currentAudioId` and
`_currentAudioFilePath` name, with the first before the second.

1. `Accounted.step`: the fields name what the current player was told to play, or another AI audio before
   it, or nothing.
2. `keepsSource_iff`: a tick keeps what plays exactly when an AI audio is named and neither its decoding nor
   its `play` throws, or a file is named and no AI audio.
3. `not_keepsSource_fallback`: a file that plays in place of a failed AI audio is lost at the next tick.
-/

namespace MotiAI

open Dart Hive HiveQuoteService

namespace Audio

/-- What throws: the decoding of an AI audio, or `play` of its bytes. -/
structure Rejects where
  decode : Bool := false
  aiPlay : Bool := false

def Rejects.faults (r : Rejects) : Faults := { decode := r.decode, aiPlay := r.aiPlay }

inductive Request where
  | play (r : Rejects) (picks : Picks) (tradition : String)
  | stop
  | pause
  | resume
  | tick (r : Rejects)

def Request.op (cachedAudio : Box String) : Request → AudioOp
  | .play r picks tradition => .playAmbience r.faults picks cachedAudio tradition
  | .stop => .stopAmbience {}
  | .pause => .pauseAmbience {}
  | .resume => .resumeAmbience {}
  | .tick r => .timerTick r.faults cachedAudio

/-- The current player plays the source. -/
def Playing (a : Audio) (source : Source) : Prop :=
  ∃ p, a.currentPlayer = some p ∧ Players.Plays a.players p source

/-- After a tick the current player plays what it played. -/
def KeepsSource (a : Audio) (q : Request) (a' : Audio) : Prop :=
  ∀ r, q = .tick r → ∀ source, Playing a source → Playing a' source

/-- An AI audio is named and not rejected, or a file is named with no AI audio beside it. -/
def Replayable (r : Rejects) (a : Audio) : Source → Prop
  | .ai _ audioData =>
    a.currentAudioId ≠ none ∧ decodes r.faults audioData = true ∧ r.aiPlay = false
  | .file _ => a.currentAudioId = none ∧ a.currentAudioFilePath ≠ none

/-- What a tick finds playing is replayable. -/
def Restartable (a : Audio) (q : Request) (_ : Audio) : Prop :=
  ∀ r, q = .tick r → ∀ source, Playing a source → Replayable r a source

/-! ## The current player -/

def current (a : Audio) : Option Player := a.currentPlayer.bind fun p => a.players[p]?

theorem playing_iff {a : Audio} {source : Source} :
    Playing a source ↔ ∃ player, a.current = some player ∧ player.playing = true ∧
      player.source = some source := by
  unfold Playing Players.Plays current
  constructor
  · rintro ⟨p, hp, player, hplayer, hrest⟩
    exact ⟨player, by rw [hp]; exact hplayer, hrest⟩
  · rintro ⟨player, hplayer, hrest⟩
    obtain ⟨p, hp, hplayer⟩ := Option.bind_eq_some_iff.mp hplayer
    exact ⟨p, hp, player, hplayer, hrest⟩

/-- A call on the current player. -/
theorem current_modify {a : Audio} {p : ℕ} (hp : a.currentPlayer = some p) (f : Player → Player) :
    current { a with players := a.players.modify p f } = a.current.map f := by
  unfold current
  dsimp only
  rw [hp, Option.bind_some, Option.bind_some, List.getElem?_modify_eq]
  rfl

theorem current_createPlayer (a : Audio) : a.createPlayer.current = some {} := by
  unfold createPlayer current Players.create
  rw [Option.bind_some, List.getElem?_concat_length]

/-- A new player is told to play. -/
theorem current_started (a : Audio) (tradition : String) (source : Source) :
    (a.createPlayer.playCurrent tradition source).started.current =
      some { loaded := some tradition, source := some source, playing := true } := by
  show current { a.createPlayer with
    players := a.createPlayer.players.play a.players.length tradition source } = _
  unfold Players.play
  rw [current_modify (a := a.createPlayer) rfl, current_createPlayer]
  rfl

/-! ## The fields and the source -/

/-- No source is named. -/
def Cleared (a : Audio) : Prop := a.currentAudioId = none ∧ a.currentAudioFilePath = none

/-- The source is named, if any is. -/
def Names (cachedAudio : Box String) (a : Audio) : Source → Prop
  | .ai audioId audioData => getStoredAudio audioId cachedAudio = some audioData ∧
    (a.currentAudioId = some audioId ∨ a.Cleared)
  | .file audioFile => a.currentAudioFilePath = some audioFile ∨ a.Cleared

/-- The current player is alive, is counted as playing when it plays, and plays what is named. -/
structure Accounted (cachedAudio : Box String) (a : Audio) : Prop where
  alive : ∀ player, a.current = some player → player.disposed = false
  isPlaying : ∀ player, a.current = some player → player.playing = true → a.isPlaying = true
  names : ∀ player source, a.current = some player → player.source = some source →
    a.Names cachedAudio source

section

variable {b : Box String} {a a' : Audio}

theorem accounted_of_none (h : a.current = none) : Accounted b a where
  alive player hp := by cases h.symm.trans hp
  isPlaying player hp := by cases h.symm.trans hp
  names player source hp := by cases h.symm.trans hp

/-- A new player that was told to play. -/
theorem accounted_started (tradition : String) {source : Source}
    (h : (a.createPlayer.playCurrent tradition source).started.Names b source) :
    Accounted b (a.createPlayer.playCurrent tradition source).started := by
  have hcurrent := current_started a tradition source
  constructor
  · intro player hp
    cases hcurrent.symm.trans hp
    rfl
  · intro player hp _
    rfl
  · intro player source' hp hs
    cases hcurrent.symm.trans hp
    cases hs
    exact h

/-- A new player that was told nothing. -/
theorem accounted_createPlayer : Accounted b a.createPlayer := by
  have hcurrent := current_createPlayer a
  constructor
  · intro player hp
    cases hcurrent.symm.trans hp
    rfl
  · intro player hp hplaying
    cases hcurrent.symm.trans hp
    cases hplaying
  · intro player source hp hs
    cases hcurrent.symm.trans hp
    cases hs

/-- A call that keeps the source of the current player. -/
theorem Accounted.of_map (h : Accounted b a) {f : Player → Player} (hcurrent : a'.current = a.current.map f)
    (hid : a'.currentAudioId = a.currentAudioId)
    (hpath : a'.currentAudioFilePath = a.currentAudioFilePath)
    (hdisposed : ∀ player, (f player).disposed = player.disposed)
    (hsource : ∀ player, (f player).source = player.source)
    (hplaying : ∀ player, (f player).playing = true → a'.isPlaying = true) : Accounted b a' := by
  constructor
  · intro player hp
    obtain ⟨old, hold, rfl⟩ := Option.map_eq_some_iff.mp (hcurrent.symm.trans hp)
    rw [hdisposed]
    exact h.alive old hold
  · intro player hp hplay
    obtain ⟨old, hold, rfl⟩ := Option.map_eq_some_iff.mp (hcurrent.symm.trans hp)
    exact hplaying old hplay
  · intro player source hp hs
    obtain ⟨old, hold, rfl⟩ := Option.map_eq_some_iff.mp (hcurrent.symm.trans hp)
    rw [hsource] at hs
    have hnames := h.names old source hold hs
    unfold Names Cleared at *
    rw [hid, hpath]
    exact hnames

theorem Accounted.clearSource (h : Accounted b a) : Accounted b a.clearSource := by
  refine ⟨h.alive, h.isPlaying, fun player source hp hs => ?_⟩
  have hnames := h.names player source hp hs
  cases source with
  | ai audioId audioData => exact ⟨hnames.1, Or.inr ⟨rfl, rfl⟩⟩
  | file audioFile => exact Or.inr ⟨rfl, rfl⟩

theorem Accounted.stopAmbience (h : Accounted b a) : Accounted b (stopAmbience {} a) := by
  unfold Audio.stopAmbience
  split
  · exact accounted_of_none rfl
  · exact h.clearSource

theorem Accounted.pauseAmbience (h : Accounted b a) : Accounted b (pauseAmbience {} a) := by
  unfold Audio.pauseAmbience
  split
  · rename_i p hp _
    exact h.of_map (current_modify hp _) rfl rfl (fun _ => rfl) (fun _ => rfl) fun _ hplay => by
      cases hplay
  · exact ⟨h.alive, h.isPlaying, h.names⟩

theorem Accounted.resumeAmbience (h : Accounted b a) : Accounted b (resumeAmbience {} a) := by
  unfold Audio.resumeAmbience
  split
  · rename_i p hp _
    exact h.of_map (current_modify hp _) rfl rfl (fun _ => rfl) (fun _ => rfl) fun _ _ => rfl
  · exact h

theorem accounted_playLocalAudio (r : Rejects) (tradition audioFile : String) (a : Audio) :
    Accounted b (playLocalAudio r.faults tradition audioFile a) :=
  @accounted_started b { a with currentAudioFilePath := some audioFile } tradition
    (.file audioFile) (Or.inl rfl)

/-! ## The restart -/

/-- What a restart plays. -/
def restartSource (r : Rejects) (b : Box String) (a : Audio) : Option Source :=
  match a.currentAudioId, a.currentAudioFilePath with
  | some audioId, _ =>
    ((getStoredAudio audioId b).filter fun data => decodes r.faults data && !r.aiPlay).map
      fun data => .ai audioId data
  | none, some audioFile => some (.file audioFile)
  | none, none => none

theorem restartAudio_eq (r : Rejects) {p : ℕ} (hp : a.currentPlayer = some p)
    (hplaying : a.isPlaying = true) : restartAudio r.faults b a =
      match restartSource r b a with
      | some source => { a with players := a.players.replay p source }
      | none => { a with players := a.players.silence p } := by
  unfold restartAudio restartSource
  rw [hp, hplaying]
  dsimp only
  rw [if_neg (show ¬ r.faults.stop = true from Bool.false_ne_true)]
  cases a.currentAudioId with
  | some audioId =>
    dsimp only
    cases getStoredAudio audioId b with
    | some data =>
      dsimp only
      rw [Option.filter_some, show r.faults.aiPlay = r.aiPlay from rfl]
      by_cases hok : (decodes r.faults data && !r.aiPlay) = true
      · rw [if_pos hok, if_pos hok]
        rfl
      · rw [if_neg hok, if_neg hok]
        rfl
    | none => rfl
  | none =>
    cases a.currentAudioFilePath with
    | some audioFile => rfl
    | none => rfl

/-- What a restart plays is named. -/
theorem names_restartSource {r : Rejects} {source : Source}
    (h : restartSource r b a = some source) : a.Names b source := by
  unfold restartSource at h
  split at h
  · rename_i audioId _ hid
    obtain ⟨data, hdata, rfl⟩ := Option.map_eq_some_iff.mp h
    exact ⟨(Option.filter_eq_some_iff.mp hdata).1, Or.inl hid⟩
  · rename_i audioFile hpath
    cases h
    exact Or.inl hpath
  · cases h

theorem Accounted.timerTick (h : Accounted b a) (r : Rejects) :
    Accounted b (timerTick r.faults b a) := by
  unfold Audio.timerTick
  split
  · rename_i hrun
    rw [Bool.and_eq_true, Option.isSome_iff_exists] at hrun
    obtain ⟨⟨p, hp⟩, hplaying⟩ := hrun
    rw [restartAudio_eq r hp hplaying]
    split
    · rename_i source hsource
      have hcurrent := current_modify hp fun player =>
        { player with source := some source, playing := !player.disposed }
      refine ⟨fun player hplayer => ?_, fun _ _ _ => hplaying, fun player source' hplayer hs => ?_⟩
      · obtain ⟨old, hold, rfl⟩ := Option.map_eq_some_iff.mp (hcurrent.symm.trans hplayer)
        exact h.alive old hold
      · obtain ⟨old, hold, rfl⟩ := Option.map_eq_some_iff.mp (hcurrent.symm.trans hplayer)
        cases hs
        exact names_restartSource hsource
    · exact h.of_map (current_modify hp _) rfl rfl (fun _ => rfl) (fun _ => rfl) fun _ hplay => by
        cases hplay
  · exact ⟨h.alive, h.isPlaying, h.names⟩

/-- **A tick** leaves playing what its restart plays. -/
theorem playing_timerTick_iff (h : Accounted b a) {source : Source} (hs : Playing a source)
    (r : Rejects) :
    Playing (timerTick r.faults b a) source ↔ restartSource r b a = some source := by
  obtain ⟨player, hcurrent, hplay, -⟩ := playing_iff.mp hs
  obtain ⟨p, hp, -⟩ := hs
  have hplaying := h.isPlaying player hcurrent hplay
  unfold Audio.timerTick
  rw [if_pos (by rw [hp, hplaying]; rfl), restartAudio_eq r hp hplaying, playing_iff]
  cases restartSource r b a with
  | some source' =>
    have hnew := current_modify hp fun player =>
      { player with source := some source', playing := !player.disposed }
    constructor
    · rintro ⟨new, hnew', -, hsource⟩
      obtain ⟨old, -, rfl⟩ := Option.map_eq_some_iff.mp (hnew.symm.trans hnew')
      exact hsource
    · intro hsource
      refine ⟨_, hnew.trans (congrArg (Option.map _) hcurrent), ?_, hsource⟩
      show (!player.disposed) = true
      rw [h.alive player hcurrent]
      rfl
  | none =>
    have hnew := current_modify hp fun player => { player with playing := false }
    refine iff_of_false ?_ fun hsource => by cases hsource
    rintro ⟨new, hnew', hplay', -⟩
    obtain ⟨old, -, rfl⟩ := Option.map_eq_some_iff.mp (hnew.symm.trans hnew')
    cases hplay'

/-- When the source that plays is played again. -/
theorem restartSource_iff {r : Rejects} {source : Source} (h : a.Names b source) :
    restartSource r b a = some source ↔ Replayable r a source := by
  unfold restartSource Replayable
  cases source with
  | ai audioId audioData =>
    obtain ⟨hdata, hid | ⟨hid, hpath⟩⟩ := h
    · simp [hid, hdata]
    · simp [hid, hpath]
  | file audioFile =>
    rcases h with hpath | ⟨hid, hpath⟩
    · cases hid : a.currentAudioId <;> simp [hpath]
    · simp [hid, hpath]

end

section

variable [CaseMap] {b : Box String} {a a' : Audio}

/-! ## A call -/

/-- **An AI audio or the file in its place.** -/
theorem accounted_playAIAudio (r : Rejects) (shuffle : Shuffle String)
    {tradition audioData audioId : String} (hdata : getStoredAudio audioId b = some audioData)
    (a : Audio) : Accounted b (playAIAudio r.faults shuffle tradition audioData audioId a) := by
  unfold playAIAudio
  dsimp only
  split
  · split
    · exact accounted_createPlayer
    · exact accounted_playLocalAudio r tradition _ _
  · exact accounted_started tradition ⟨hdata, Or.inl rfl⟩

theorem Accounted.playAmbience (h : Accounted b a) (r : Rejects) (picks : Picks)
    (tradition : String) : Accounted b (playAmbience r.faults picks b tradition a) := by
  unfold Audio.playAmbience
  split
  · exact h
  · unfold playSelected
    dsimp only
    split
    · rename_i audioId audioData hselect
      refine accounted_playAIAudio r picks.file ?_ _
      obtain ⟨id, -, hid⟩ := Option.bind_eq_some_iff.mp hselect
      obtain ⟨data, hdata, heq⟩ := Option.map_eq_some_iff.mp hid
      cases heq
      exact (Option.filter_eq_some_iff.mp hdata).1
    · exact accounted_playLocalAudio r tradition _ _

/-! ## Runs -/

/-- A request, or a tick of the running timer, with this box of cached audio. -/
def request (b : Box String) (a : Audio) (q : Request) : Option Audio := a.step (q.op b)

theorem Accounted.request {q : Request} (h : Accounted b a) (hs : a.request b q = some a') :
    Accounted b a' := by
  cases q with
  | play r picks tradition =>
    obtain rfl := Option.some.inj hs
    exact h.playAmbience r picks tradition
  | stop =>
    obtain rfl := Option.some.inj hs
    exact h.stopAmbience
  | pause =>
    obtain rfl := Option.some.inj hs
    exact h.pauseAmbience
  | resume =>
    obtain rfl := Option.some.inj hs
    exact h.resumeAmbience
  | tick r =>
    simp only [Audio.request, Request.op, step] at hs
    split at hs
    · obtain rfl := Option.some.inj hs
      exact h.timerTick r
    · cases hs

theorem keepsSource_request_iff {q : Request} (h : Accounted b a)
    (hs : a.request b q = some a') : KeepsSource a q a' ↔ Restartable a q a' := by
  unfold KeepsSource Restartable
  refine forall_congr' fun r => forall_congr' fun hq => forall_congr' fun source =>
    forall_congr' fun hplay => ?_
  subst hq
  simp only [Audio.request, Request.op, step] at hs
  split at hs
  · obtain rfl := Option.some.inj hs
    obtain ⟨player, hcurrent, -, hsource⟩ := playing_iff.mp hplay
    rw [playing_timerTick_iff h hplay, restartSource_iff (h.names player source hcurrent hsource)]
  · cases hs

/-- **The periodic restart.** Ticks keep what plays throughout a run exactly when each finds an AI
audio playing that is named and not rejected, or a file that is named with no AI audio beside it. -/
theorem keepsSource_iff (b : Box String) (requests : List Request) :
    Run.Each (request b) KeepsSource {} requests ↔ Run.Each (request b) Restartable {} requests :=
  Run.each_iff_of_invariant (I := Accounted b) (P := Restartable) (Q := KeepsSource)
    (fun _ _ _ h hs => keepsSource_request_iff h hs) (fun _ _ _ h hs _ => h.request hs) requests {}
    (accounted_of_none rfl)

end

/-! ## A file in place of an AI audio -/

/-- `play` of the AI audio throws once; the next tick starts it, and the file is silent. -/
theorem not_keepsSource_fallback :
    ¬ Run.Each (@request CaseMap.ascii
        (Box.putAll [("ai_audio_zen_inspiration_1", "data:audio/mp3;base64,AAAA")] ∅)) KeepsSource {}
      [.play { aiPlay := true } ⟨.keep, .keep⟩ "Zen", .tick {}] := by
  intro hE
  rw [Run.each_cons_of_step rfl, Run.each_cons_of_step rfl] at hE
  obtain ⟨-, hkeeps, -⟩ := hE
  obtain ⟨p, hp, player, hplayer, -, hsource⟩ :=
    hkeeps {} rfl (.file "audio/meditation_bells.mp3") ⟨1, rfl, _, rfl, rfl, rfl⟩
  cases hp
  cases hplayer
  cases hsource

end Audio

end MotiAI
