import MotiAI.AffirmationOverlap
import MotiAI.Audio.Generator
import MotiAI.Audio.Overlap
import MotiAI.Favorites
import MotiAI.GenerateAffirmation
import MotiAI.Image.BackgroundOverlap
import MotiAI.Image.Overlap

/-!
# The application

The quote screen with all the services and boxes behind it. The parts are those of the other modules:
the requests for a quote, the fetches of AI quotes, the runs of `_generateBackgroundImage`, the calls
of the image service and of the audio service, the favorites, the affirmations and the notepad. Here
they share one state, and any of them may go on next.

What a move cannot do is `none`. The moves of the two prefetches are possible once the background
prefetch has been started, in any order.
-/

namespace MotiAI

open Dart Hive HiveQuoteService

/-- Where a run of `_generateBackgroundImage` is suspended: at the audio call `k`, at the image call
`j`, or with the image it has received. -/
inductive ScreenStage where
  | ambience (k : ℕ)
  | generating (j : ℕ)
  | answered (url : String)
  | done

structure ScreenRun where
  quote : Quote
  stage : ScreenStage

/-- The image call `j` has returned an image. -/
def ScreenRun.settle (j : ℕ) (returned : Option (String × String)) (run : ScreenRun) : ScreenRun :=
  match run.stage, returned with
  | .generating k, some (_, url) => if k = j then { run with stage := .answered url } else run
  | _, _ => run

/-- The key of Anthropic, the switch of AI quotes, the boxes, and what is in memory: the image service
with the box of images, the screen with its requests for a quote, the number of background fetches
that wait for their answer, the audio service, the runs for a background image and the affirmations
asked for. -/
structure MotiAIApp where
  key : EnvEntry
  useAIQuotes : Bool := true
  quotes : Box Val
  favorites : Box Val := ∅
  affirmations : Box StoredMap := ∅
  cachedAudio : Box String := ∅
  service : ImageCalls
  world : World := {}
  fetches : ℕ := 0
  sounds : Calls.World := {}
  runs : List ScreenRun := []
  desk : List AffirmationRequest := []

/-- `newQuote` to `display` are the requests for a quote, `fetched` answers a background fetch,
`sound` to `timerTick` are the audio service, `ambiencePlayed` to `generated` a background image,
`prefetchImage` and `preGenerated` the two prefetches. -/
inductive AppMove where
  | newQuote
  | start (i : ℕ)
  | answer (i : ℕ) (turn : FetchTurn)
  | read (i : ℕ) (shuffle : Shuffle Quote)
  | display (i : ℕ) (shuffle : Shuffle String) (millis : ℕ)
  | fetched (turn : FetchTurn)
  | toggleAIQuotes
  | toggleAudio
  | sound (i : ℕ) (picks : Picks) (decodeFails : Bool)
  | timerTick (f : Faults)
  | ambiencePlayed (i : ℕ) (shuffle : Shuffle String) (millis : ℕ)
  | imageRead (j : ℕ) (readable : Bool)
  | imageAnswer (j : ℕ) (reply : Reply (Option Plain)) (millis : ℕ) (writable : Bool)
  | tick (duration : ℕ)
  | generated (i : ℕ)
  | prefetchImage (tradition : String) (i : Fin 8)
  | preGenerated (audioId audioData : String)
  | toggleFavorite
  | generateAffirmation
  | affirmationAnswer (i : ℕ) (reply : Reply String)
  | saveAffirmation (i : ℕ) (timestamp : ℤ) (createdAt : String)
  | savedAffirmation (i : ℕ)
  | closeAffirmation (i : ℕ)
  | deleteAffirmation (id : String)
  | clearAllAffirmations
  | restart (key stabilityKey : EnvEntry)

namespace MotiAIApp

/-- The first start of a fresh installation. -/
def installed (key stabilityKey : EnvEntry) : MotiAIApp where
  key := key
  quotes := initializeBoxes ∅
  service := ImageCalls.launched stabilityKey ∅ ∅

def screen (s : MotiAIApp) : QuoteScreen := s.world.session.screen

def setScreen (screen : QuoteScreen) (s : MotiAIApp) : MotiAIApp :=
  { s with world := { s.world with session := { s.world.session with screen := screen } } }

/-- What a run for a background image reads and writes. -/
def background (s : MotiAIApp) : Background where
  screen := s.screen
  cachedImages := s.service.cachedImages
  images := s.service.images

def setBackground (d : Background) (s : MotiAIApp) : MotiAIApp :=
  { s.setScreen d.screen with service := { s.service with cachedImages := d.cachedImages } }

/-- What the affirmations read and write. -/
def toDesk (s : MotiAIApp) : Desk where
  world := s.world
  notepad := ⟨s.affirmations, s.quotes⟩
  affirmations := s.desk

def setDesk (d : Desk) (s : MotiAIApp) : MotiAIApp :=
  { s with
    world := d.world
    affirmations := d.notepad.affirmations
    quotes := d.notepad.quotes
    desk := d.affirmations }

/-- The part of `_fetchNextAIQuote` up to its await. -/
def fetchNextAIQuote (s : MotiAIApp) : MotiAIApp :=
  if hasKey s.key then { s with fetches := s.fetches + 1 } else s

section

variable [CaseMap]

def resume (i : ℕ) (r : Resume) (s : MotiAIApp) : Option MotiAIApp :=
  (s.world.step (.resume i r)).map fun world => { s with world := world }

/-- A call of the audio service up to its first await. -/
def issue (call : Calls.Call) (s : MotiAIApp) : Option MotiAIApp :=
  (Calls.step s.sounds (.issue call)).map fun sounds => { s with sounds := sounds }

/-- A run after the ambience: with a stored image it has ended, else it asks the image service. -/
def lookUp (quote : Quote) (shuffle : Shuffle String) (millis : ℕ) (s : MotiAIApp) :
    Option (ScreenStage × MotiAIApp) :=
  match Background.lookUp quote shuffle millis s.background with
  | none => none
  | some (none, d) => some (.done, s.setBackground d)
  | some (some prompt, d) =>
    ((s.setBackground d).service.step (.ask prompt)).map fun service =>
      (match service.returned with
        | some (_, url) => .answered url
        | none => .generating s.service.calls.length,
        { s.setBackground d with service := service })

/-- `_generateBackgroundImage` up to its first await. -/
def generateBackgroundImage (quote : Quote) (shuffle : Shuffle String) (millis : ℕ)
    (s : MotiAIApp) : Option MotiAIApp :=
  let s := s.setScreen { s.screen with backgroundImageUrl := none }
  if s.screen.isAudioEnabled then
    (s.issue (.play quote.tradition)).map fun s' =>
      { s' with runs := s.runs ++ [⟨quote, .ambience s.sounds.calls.length⟩] }
  else
    (s.lookUp quote shuffle millis).map fun p => { p.2 with runs := s.runs ++ [⟨quote, p.1⟩] }

/-- A move of the image service, with what its call `j` returns. -/
def serve (j : ℕ) (m : ImageMove) (s : MotiAIApp) : Option MotiAIApp :=
  (s.service.step m).map fun service =>
    { s with service := service, runs := s.runs.map (ScreenRun.settle j service.returned) }

def deskStep (m : DeskMove) (s : MotiAIApp) : Option MotiAIApp :=
  (s.toDesk.step m).map fun d => s.setDesk d

/-- A quote is displayed: its background image and the next AI quote are asked for. -/
def displayQuote (i : ℕ) (shuffle : Shuffle String) (millis : ℕ) (s : MotiAIApp) :
    Option MotiAIApp :=
  match s.world.requests[i]? with
  | some ⟨_, .picked quote⟩ =>
    ((s.resume i .display).bind (generateBackgroundImage quote shuffle millis)).map fetchNextAIQuote
  | _ => none

/-- `_toggleAudio`. Before the first quote `_currentQuote!` throws when the audio is switched on. -/
def toggleAudio (s : MotiAIApp) : Option MotiAIApp :=
  let s := s.setScreen { s.screen with isAudioEnabled := !s.screen.isAudioEnabled }
  if s.screen.isAudioEnabled then
    match s.screen.currentQuote with
    | some quote => s.issue (.play quote.tradition)
    | none => some s
  else s.issue .stop

end

section

variable [CaseMap] [NumText]

/-- `fetchQuoteFromAnthropic`, from its answer to its return. -/
def fetch (turn : FetchTurn) (s : MotiAIApp) : Option (Option Quote × MotiAIApp) :=
  match (fetchQuoteFromAnthropic { turn with key := s.key }).run s.quotes with
  | .ok result quotes => some (result, { s with quotes := quotes })
  | .error _ _ => none

def step (s : MotiAIApp) : AppMove → Option MotiAIApp
  | .newQuote => (s.world.step .newQuote).map fun world => { s with world := world }
  | .start i => s.resume i (.start s.useAIQuotes)
  | .answer i turn => (s.fetch turn).bind fun p => p.2.resume i (.answer p.1)
  | .read i shuffle => s.resume i (.read s.quotes s.useAIQuotes shuffle)
  | .display i shuffle millis => s.displayQuote i shuffle millis
  | .fetched turn =>
    if s.fetches = 0 then none
    else (s.fetch turn).map fun p => { p.2 with fetches := s.fetches - 1 }
  | .toggleAIQuotes => some { s with useAIQuotes := !s.useAIQuotes }
  | .toggleAudio => s.toggleAudio
  | .sound i picks decodeFails =>
    (Calls.step s.sounds (.resume i ⟨picks, s.cachedAudio, decodeFails⟩)).map fun sounds =>
      { s with sounds := sounds }
  | .timerTick f =>
    if s.sounds.audio.audioTimer then
      some { s with sounds := { s.sounds with audio := s.sounds.audio.timerTick f s.cachedAudio } }
    else none
  | .ambiencePlayed i shuffle millis =>
    match s.runs[i]? with
    | some ⟨quote, .ambience k⟩ =>
      match s.sounds.calls[k]? with
      | some ⟨_, .done⟩ =>
        (s.lookUp quote shuffle millis).map fun p => { p.2 with runs := s.runs.set i ⟨quote, p.1⟩ }
      | _ => none
    | _ => none
  | .imageRead j readable => s.serve j (.read j readable)
  | .imageAnswer j reply millis writable => s.serve j (.answer j reply millis writable)
  | .tick duration =>
    (s.service.step (.tick duration)).map fun service => { s with service := service }
  | .generated i =>
    match s.runs[i]? with
    | some ⟨quote, .answered url⟩ =>
      (Background.receive quote (.image url) s.background).map fun d =>
        { s.setBackground d with runs := s.runs.set i ⟨quote, .done⟩ }
    | _ => none
  | .prefetchImage tradition i =>
    if s.screen.backgroundPrefetchStarted then
      (s.service.step (.prefetch tradition i)).map fun service => { s with service := service }
    else none
  | .preGenerated audioId audioData =>
    if s.screen.backgroundPrefetchStarted then
      some { s with
        cachedAudio := BackgroundPrefetchService.onAudioGenerated audioId audioData s.cachedAudio }
    else none
  | .toggleFavorite =>
    s.screen.currentQuote.bind fun quote =>
      (QuoteScreen.toggleFavorite quote s.favorites).map fun favorites =>
        { s with favorites := favorites }
  | .generateAffirmation => s.deskStep .generateAffirmation
  | .affirmationAnswer i reply =>
    s.deskStep (.answer i (AffirmationService.generateAffirmation s.key reply))
  | .saveAffirmation i timestamp createdAt => s.deskStep (.save i timestamp createdAt)
  | .savedAffirmation i => s.deskStep (.saved i)
  | .closeAffirmation i => s.deskStep (.close i)
  | .deleteAffirmation id => some { s with affirmations := s.affirmations.erase id }
  | .clearAllAffirmations => some { s with affirmations := ∅ }
  | .restart key stabilityKey =>
    (s.service.step (.restart stabilityKey)).map fun service =>
      { key := key
        quotes := initializeBoxes s.quotes
        favorites := s.favorites
        affirmations := (AffirmationService.reopen ⟨s.affirmations, s.quotes⟩).affirmations
        cachedAudio := s.cachedAudio
        service := service }

end

end MotiAIApp

end MotiAI
