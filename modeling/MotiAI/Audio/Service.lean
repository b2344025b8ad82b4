import MotiAI.Audio.Player
import MotiAI.Dart.Shuffle
import MotiAI.Dart.Text
import MotiAI.Hive.Box

/-!
# The audio service

The static state of `AudioService` and its operations, each run to its end. Any call on a player and
any decoding may throw (`Faults`); every operation catches what it throws, so that it ends in some
state.

`playAmbience` stops what plays, chooses a stored AI audio that was not played yet or else a local
file, creates a player and starts it. A failing AI audio falls back to a local file with a second
player.
-/

namespace MotiAI

open Dart Hive

/-- `getAIAudioKeysForTradition`, on the box of cached audio. -/
def HiveQuoteService.getAIAudioKeysForTradition [CaseMap] (tradition : String) (b : Box String) :
    List String :=
  b.keys.filter fun k => startsWith k ("ai_audio_" ++ replaceNonAlnum (toLowerCase tradition))

def HiveQuoteService.getStoredAudio (audioId : String) (b : Box String) : Option String :=
  b[audioId]?

open HiveQuoteService

/-- Which calls of an operation throw. -/
structure Faults where
  stop : Bool := false
  dispose : Bool := false
  aiRelease : Bool := false
  decode : Bool := false
  aiPlay : Bool := false
  localRelease : Bool := false
  localPlay : Bool := false
  pause : Bool := false
  resume : Bool := false

/-- The outcomes of the shuffles of a `playAmbience`: of the AI audio keys and the local files. -/
structure Picks where
  key : Shuffle String
  file : Shuffle String

/-- The state of the service, and the players it has created. -/
structure Audio where
  currentPlayer : Option ℕ := none
  isPlaying : Bool := false
  audioTimer : Bool := false
  currentAudioFilePath : Option String := none
  currentAudioId : Option String := none
  lastAudioTradition : Option String := none
  playedAudioKeys : String → Finset String := fun _ => ∅
  recentAudioFiles : List String := []
  players : Players := []

namespace Audio

/-! ## Local files -/

/-- `_smartFallbacks`. -/
def smartFallbacks : List (String × String) :=
  [("Buddhist", "audio/meditation_bells.mp3"),
    ("Sufi", "audio/ney-flute.mp3"),
    ("Poetic Sufism", "audio/ney-flute.mp3"),
    ("Zen", "audio/calm-zen-river-flowing.mp3"),
    ("Taoism", "audio/om_tone.mp3"),
    ("Confucianism", "audio/calm-zen-river-flowing.mp3"),
    ("Stoicism", "audio/meditation_bells.mp3"),
    ("Hinduism", "audio/om_tone.mp3"),
    ("Indigenous Wisdom", "audio/ney-flute.mp3"),
    ("Mindful Tech", "audio/meditation_bells.mp3"),
    ("Social Justice", "audio/om_tone.mp3"),
    ("Eco-Spirituality", "audio/calm-zen-river-flowing.mp3")]

/-- `_smartFallbacks[tradition] ?? _smartFallbacks['Buddhist']!`. -/
def primaryAudioFile (tradition : String) : String :=
  ((smartFallbacks.find? fun e => e.1 = tradition).map Prod.snd).getD "audio/meditation_bells.mp3"

/-- `_maxRecentAudioFiles`. -/
def maxRecentAudioFiles : ℕ := 3

/-- The file of `_getAudioFileWithFallbacks`, and whether the list of recent files is reset. -/
def chooseFile (tradition : String) (shuffle : Shuffle String) (recent : List String) :
    String × List String :=
  if recent.contains (primaryAudioFile tradition) then
    match shuffle.first
        ((smartFallbacks.map Prod.snd).eraseDups.filter fun file => !recent.contains file) with
    | some file => (file, recent)
    | none => (primaryAudioFile tradition, [])
  else (primaryAudioFile tradition, recent)

/-- `_getAudioFileWithFallbacks`: the file, and the recent files with it. -/
def getAudioFileWithFallbacks (tradition : String) (shuffle : Shuffle String) (a : Audio) :
    String × Audio :=
  let (file, recent) := chooseFile tradition shuffle a.recentAudioFiles
  let recent := recent ++ [file]
  (file, { a with
    recentAudioFiles := if maxRecentAudioFiles < recent.length then recent.tail else recent })

/-! ## AI audio -/

section

variable [CaseMap]

/-- `_extractTraditionFromAudioId`; `none` when a `substring` throws. -/
def extractTraditionFromAudioId (audioId : String) : Option String :=
  match split '_' (replaceFirst "ai_audio_" "" audioId) with
  | tradition :: category :: _ => do
    let tradition ← capitalize tradition
    let category ← capitalize category
    return tradition ++ " " ++ category
  | _ => some "Zen"

/-- The AI audio key `playAmbience` selects, and the keys then counted as played. -/
def selectAudioId (tradition : String) (cachedAudio : Box String) (shuffle : Shuffle String)
    (played : Finset String) : Option String × Finset String :=
  let allAudioKeys := getAIAudioKeysForTradition tradition cachedAudio
  let unplayed := allAudioKeys.filter fun k => k ∉ played
  if unplayed ≠ [] then (shuffle.first unplayed, played)
  else if allAudioKeys ≠ [] then (shuffle.first allAudioKeys, ∅)
  else (none, played)

/-- The selected key with its data, if there are any and they are audio. -/
def selectAudio (tradition : String) (cachedAudio : Box String) (shuffle : Shuffle String)
    (played : Finset String) : Option (String × String) :=
  (selectAudioId tradition cachedAudio shuffle played).1.bind fun audioId =>
    ((getStoredAudio audioId cachedAudio).filter fun data => startsWith data "data:audio/").map
      fun data => (audioId, data)

/-- The played keys of `tradition` after a selection. -/
def markPlayed (tradition : String) (cachedAudio : Box String) (shuffle : Shuffle String)
    (a : Audio) : Audio :=
  let (_, played) := selectAudioId tradition cachedAudio shuffle (a.playedAudioKeys tradition)
  let played := match selectAudio tradition cachedAudio shuffle (a.playedAudioKeys tradition) with
    | some (audioId, _) => insert audioId played
    | none => played
  { a with playedAudioKeys := Function.update a.playedAudioKeys tradition played }

end

/-- `base64Decode(audioData.split(',')[1])` goes through. -/
def decodes (f : Faults) (audioData : String) : Bool :=
  ((split ',' audioData)[1]?).isSome && !f.decode

/-! ## Players -/

/-- `_currentPlayer = AudioPlayer()`. -/
def createPlayer (a : Audio) : Audio :=
  { a with currentPlayer := some a.players.length, players := a.players.create }

/-- `_currentPlayer!.play(source)`, for a source chosen for `tradition`. -/
def playCurrent (tradition : String) (source : Source) (a : Audio) : Audio :=
  match a.currentPlayer with
  | some p => { a with players := a.players.play p tradition source }
  | none => a

/-- `_isPlaying = true; _startAudioTimer()`. -/
def started (a : Audio) : Audio := { a with isPlaying := true, audioTimer := true }

/-- The assignments `stopAmbience` begins with. -/
def clearSource (a : Audio) : Audio :=
  { a with audioTimer := false, currentAudioFilePath := none, currentAudioId := none }

/-- `_currentPlayer = null; _isPlaying = false`. -/
def release (a : Audio) : Audio := { a with currentPlayer := none, isPlaying := false }

/-! ## Operations -/

def stopAmbience (f : Faults) (a : Audio) : Audio :=
  match a.currentPlayer, a.isPlaying with
  | some p, true =>
    if f.stop then a.clearSource
    else if f.dispose then { a.clearSource with players := a.players.silence p }
    else { a.clearSource with players := (a.players.silence p).dispose p }.release
  | _, _ => a.clearSource

def playLocalAudio (f : Faults) (tradition audioFile : String) (a : Audio) : Audio :=
  let a := { a with currentAudioFilePath := some audioFile }.createPlayer
  if f.localRelease then a
  else if f.localPlay then a
  else (a.playCurrent tradition (.file audioFile)).started

section

variable [CaseMap]

/-- `_playAIAudio`; `tradition` is the one `playAmbience` was called with. -/
def playAIAudio (f : Faults) (shuffle : Shuffle String) (tradition audioData audioId : String)
    (a : Audio) : Audio :=
  let a := { a with currentAudioId := some audioId }.createPlayer
  if f.aiRelease || !decodes f audioData || f.aiPlay then
    match extractTraditionFromAudioId audioId with
    | none => a
    | some extracted =>
      let (audioFile, a) := getAudioFileWithFallbacks extracted shuffle a
      playLocalAudio f tradition audioFile a
  else (a.playCurrent tradition (.ai audioId audioData)).started

/-- `playAmbience` after its stop: an AI audio for the tradition or else a local file. -/
def playSelected (f : Faults) (picks : Picks) (cachedAudio : Box String) (tradition : String)
    (a : Audio) : Audio :=
  let marked := markPlayed tradition cachedAudio picks.key a
  match selectAudio tradition cachedAudio picks.key (a.playedAudioKeys tradition) with
  | some (audioId, audioData) => playAIAudio f picks.file tradition audioData audioId marked
  | none =>
    let (audioFile, a) := getAudioFileWithFallbacks tradition picks.file marked
    playLocalAudio f tradition audioFile a

def playAmbience (f : Faults) (picks : Picks) (cachedAudio : Box String) (tradition : String)
    (a : Audio) : Audio :=
  if a.lastAudioTradition = some tradition then a
  else playSelected f picks cachedAudio tradition
    (stopAmbience f { a with lastAudioTradition := some tradition })

end

def pauseAmbience (f : Faults) (a : Audio) : Audio :=
  match a.currentPlayer, a.isPlaying with
  | some p, true =>
    if f.pause then { a with audioTimer := false }
    else { a with audioTimer := false, isPlaying := false, players := a.players.silence p }
  | _, _ => { a with audioTimer := false }

def resumeAmbience (f : Faults) (a : Audio) : Audio :=
  match a.currentPlayer, a.isPlaying with
  | some p, false =>
    if f.resume then a else { a with players := a.players.resume p }.started
  | _, _ => a

/-- `_restartAudio`: stop the player, and play what the two fields say. -/
def restartAudio (f : Faults) (cachedAudio : Box String) (a : Audio) : Audio :=
  match a.currentPlayer, a.isPlaying with
  | some p, true =>
    if f.stop then a
    else
      let stopped := { a with players := a.players.silence p }
      match a.currentAudioId, a.currentAudioFilePath with
      | some audioId, _ =>
        match getStoredAudio audioId cachedAudio with
        | some data =>
          if decodes f data && !f.aiPlay then
            { a with players := a.players.replay p (.ai audioId data) }
          else stopped
        | none => stopped
      | none, some audioFile =>
        if f.localPlay then stopped else { a with players := a.players.replay p (.file audioFile) }
      | none, none => stopped
  | _, _ => a

/-- A tick of the running timer. -/
def timerTick (f : Faults) (cachedAudio : Box String) (a : Audio) : Audio :=
  if a.currentPlayer.isSome && a.isPlaying then restartAudio f cachedAudio a
  else { a with audioTimer := false }

def dispose (f : Faults) (a : Audio) : Audio := stopAmbience f a.clearSource

end Audio

end MotiAI
