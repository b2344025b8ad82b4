import MotiAI.ApiKey
import MotiAI.Dart.Base64
import MotiAI.Dart.Json
import MotiAI.Hive.Box

/-!
# The sound generator

The static state of `AIAudioGenerator` with the files of its `audio_cache` directory and the box of
cached audio, and the generation of one variation: a request for speech, when that fails a request
for a description and one for its speech, and when nothing comes a local file. Texts and voices of
the requests are determined by the tradition and the variation.

`noKey_preGenerate`: without a key, `preGenerateAmbientSounds` only stores the local files.
-/

namespace MotiAI

open Dart Hive

def HiveQuoteService.storeGeneratedAudio (audioId audioData : String) (b : Box String) :
    Box String :=
  b.insert audioId audioData

/-- The callback `startBackgroundPrefetch` hands to `preGenerateAmbientSounds`. -/
def BackgroundPrefetchService.onAudioGenerated (audioId audioData : String) (b : Box String) :
    Box String :=
  HiveQuoteService.storeGeneratedAudio audioId audioData b

open HiveQuoteService

/-- A request to Anthropic: speech of the prompt for a variation, a description of it, or speech of a
description. -/
inductive SoundRequest where
  | speech (tradition : String) (variation : Fin 11)
  | description (tradition : String) (variation : Fin 11)
  | descriptionSpeech (tradition : String) (text : Plain)

/-- The replies to the three requests a generation may send. The body of a description is the decoded
one, or `none` when it does not decode. -/
structure SoundTurn where
  speech : Reply (List UInt8)
  description : Reply (Option Plain)
  descriptionSpeech : Reply (List UInt8)

/-- The caches in memory, the files by cache key, the box, and the requests sent. -/
structure SoundCaches where
  audioCache : Box String := ∅
  cacheTimestamps : Box ℤ := ∅
  audioFiles : Box (List UInt8) := ∅
  cachedAudio : Box String := ∅
  requests : List SoundRequest := []

namespace SoundCaches

/-- The application is started again: the files and the box are kept. -/
def restart (s : SoundCaches) : SoundCaches :=
  { audioFiles := s.audioFiles, cachedAudio := s.cachedAudio, requests := s.requests }

/-- A request is sent. -/
def send (r : SoundRequest) (s : SoundCaches) : SoundCaches := { s with requests := s.requests ++ [r] }

def store (audioId audioData : String) (s : SoundCaches) : SoundCaches :=
  { s with cachedAudio := storeGeneratedAudio audioId audioData s.cachedAudio }

end SoundCaches

namespace AIAudio

/-- The URL of a sound. -/
def audioUrl (bytes : List UInt8) : String := "data:audio/mp3;base64," ++ base64Encode bytes

/-- The branches of `_getFallbackAudioForTradition`, in the order they are tried. -/
def fallbackAudios : List (String × String) :=
  [("buddhist", "assets/audio/meditation_bells.mp3"), ("zen", "assets/audio/meditation_bells.mp3"),
    ("sufi", "assets/audio/ney-flute.mp3"), ("taoism", "assets/audio/calm-zen-river-flowing.mp3"),
    ("stoicism", "assets/audio/meditation_bells.mp3"),
    ("hinduism", "assets/audio/meditation_bells.mp3"),
    ("indigenous", "assets/audio/meditation_bells.mp3"),
    ("mindful", "assets/audio/calm-zen-river-flowing.mp3"),
    ("social", "assets/audio/calm-zen-river-flowing.mp3")]

/-- `responseData['content'][0]['text']`; `none` is an exception. -/
def contentText : Plain → Option Plain
  | .map responseData =>
    match Json.lookup "content" responseData with
    | some (.list (.map first :: _)) => some ((Json.lookup "text" first).getD .null)
    | _ => none
  | _ => none

/-- The themes of `preGenerateAmbientSounds`. -/
def traditions : List String :=
  ["Buddhist Inspiration", "Sufi Inspiration", "Zen Inspiration", "Taoism Inspiration",
    "Stoicism Inspiration", "Hinduism Inspiration", "Indigenous Wisdom Inspiration",
    "Mindful Tech Inspiration", "Social Justice Inspiration"]

/-- The items of a pre-generation: a theme and a variation. -/
def items : List (String × Fin 11) :=
  traditions.flatMap fun tradition => (List.finRange 11).map fun variation => (tradition, variation)

theorem items_ne_nil : items ≠ [] := by
  simp [items, traditions]

section

variable [CaseMap]

/-- `_generateCacheKey`, for the variation `variation + 1`. -/
def generateCacheKey (tradition : String) (variation : Fin 11) : String :=
  "ai_audio_" ++ replaceNonAlnum (toLowerCase tradition) ++ "_" ++ toString (variation.val + 1)

/-- `_getFallbackAudioForTradition`. -/
def getFallbackAudioForTradition (tradition : String) : String :=
  ((fallbackAudios.find? fun e => contains (toLowerCase tradition) e.1).map Prod.snd).getD
    "assets/audio/meditation_bells.mp3"

variable (assets : String → Option (List UInt8))

/-- `_convertFallbackToBase64`, which catches what it throws; it stores under the first variation.
Loading an asset that the bundle does not have throws. -/
def convertFallbackToBase64 (tradition : String) (s : SoundCaches) : Option String × SoundCaches :=
  match assets (getFallbackAudioForTradition tradition) with
  | some bytes => (some (audioUrl bytes), s.store (generateCacheKey tradition 0) (audioUrl bytes))
  | none => (none, s)

/-- `_generateAudioViaClaudeText`, which catches what it throws. -/
def generateAudioViaClaudeText (tradition : String) (variation : Fin 11) (t : SoundTurn)
    (s : SoundCaches) : Option String × SoundCaches :=
  let s := s.send (.description tradition variation)
  match t.description with
  | .response 200 (some responseData) =>
    match contentText responseData with
    | some generatedText =>
      let s := s.send (.descriptionSpeech tradition generatedText)
      match t.descriptionSpeech with
      | .response 200 bytes => (some (audioUrl bytes), s)
      | _ => convertFallbackToBase64 assets tradition s
    | none => convertFallbackToBase64 assets tradition s
  | _ => convertFallbackToBase64 assets tradition s

/-- `_generateAmbientSoundForTradition`. -/
def generateAmbientSoundForTradition (key : EnvEntry) (tradition : String) (variation : Fin 11)
    (t : SoundTurn) (s : SoundCaches) : Option String × SoundCaches :=
  if hasKey key then
    let s := s.send (.speech tradition variation)
    match t.speech with
    | .throws => convertFallbackToBase64 assets tradition s
    | .response 200 bytes => (some (audioUrl bytes), s)
    | .response _ _ =>
      match generateAudioViaClaudeText assets tradition variation t s with
      | (some ttsAudio, s) =>
        if contains ttsAudio ".mp3" then convertFallbackToBase64 assets tradition s
        else (some ttsAudio, s)
      | (none, s) => convertFallbackToBase64 assets tradition s
  else convertFallbackToBase64 assets tradition s

variable (onAudioGenerated : String → String → Box String → Box String)

/-- One turn of the inner loop; the callback writes to the box of cached audio. -/
def preGenerateAmbientSound (key : EnvEntry) (tradition : String) (variation : Fin 11)
    (t : SoundTurn) (s : SoundCaches) : SoundCaches :=
  match generateAmbientSoundForTradition assets key tradition variation t s with
  | (some audioData, s) =>
    let audioId := generateCacheKey tradition variation
    let s := s.store audioId audioData
    { s with cachedAudio := onAudioGenerated audioId audioData s.cachedAudio }
  | (none, s) => s

def preGenerateAmbientSounds (key : EnvEntry) (turns : String → Fin 11 → SoundTurn) (s : SoundCaches) :
    SoundCaches :=
  traditions.foldl (fun s tradition =>
    (List.finRange 11).foldl (fun s variation =>
      preGenerateAmbientSound assets onAudioGenerated key tradition variation
        (turns tradition variation) s) s) s

/-- The two loops of a pre-generation go through its items. -/
theorem preGenerateAmbientSounds_eq (key : EnvEntry) (turns : String → Fin 11 → SoundTurn)
    (s : SoundCaches) :
    preGenerateAmbientSounds assets onAudioGenerated key turns s =
      items.foldl (fun s e => preGenerateAmbientSound assets onAudioGenerated key e.1 e.2
        (turns e.1 e.2) s) s := by
  unfold preGenerateAmbientSounds items
  rw [List.foldl_flatMap]
  simp only [List.foldl_map]

/-! ## Without a key -/

/-- What is stored for an item without a key. -/
def fallbackEntries (e : String × Fin 11) : List (String × String) :=
  match assets (getFallbackAudioForTradition e.1) with
  | some bytes =>
    [(generateCacheKey e.1 0, audioUrl bytes), (generateCacheKey e.1 e.2, audioUrl bytes),
      (generateCacheKey e.1 e.2, audioUrl bytes)]
  | none => []

/-- Entries are put into the box of cached audio. -/
def putAudio (es : List (String × String)) (s : SoundCaches) : SoundCaches :=
  { s with cachedAudio := Box.putAll es s.cachedAudio }

theorem noKey_preGenerateAmbientSound {key : EnvEntry} (hkey : hasKey key = false)
    (e : String × Fin 11) (t : SoundTurn) (s : SoundCaches) :
    preGenerateAmbientSound assets BackgroundPrefetchService.onAudioGenerated key e.1 e.2 t s =
      putAudio (fallbackEntries assets e) s := by
  unfold preGenerateAmbientSound generateAmbientSoundForTradition convertFallbackToBase64
    fallbackEntries
  simp only [hkey]
  cases assets (getFallbackAudioForTradition e.1) with
  | some bytes => rfl
  | none => rfl

/-- **Without a key** a pre-generation only stores the local files. -/
theorem noKey_preGenerate {key : EnvEntry} (hkey : hasKey key = false)
    (turns : String → Fin 11 → SoundTurn) (s : SoundCaches) :
    preGenerateAmbientSounds assets BackgroundPrefetchService.onAudioGenerated key turns s =
      putAudio (items.flatMap (fallbackEntries assets)) s := by
  rw [preGenerateAmbientSounds_eq]
  induction items generalizing s with
  | nil => rfl
  | cons e l ih =>
    rw [List.foldl_cons, noKey_preGenerateAmbientSound assets hkey, ih, List.flatMap_cons]
    unfold putAudio
    rw [Box.putAll_append]

/-! ## The requests -/

theorem requests_convertFallbackToBase64 (tradition : String) (s : SoundCaches) :
    (convertFallbackToBase64 assets tradition s).2.requests = s.requests := by
  unfold convertFallbackToBase64
  split <;> rfl

theorem requests_generateAudioViaClaudeText (tradition : String) (variation : Fin 11)
    (t : SoundTurn) (s : SoundCaches) :
    s.requests <+: (generateAudioViaClaudeText assets tradition variation t s).2.requests := by
  unfold generateAudioViaClaudeText
  dsimp only
  split
  · split
    · split
      · exact (List.prefix_append _ _).trans (List.prefix_append _ _)
      · rw [requests_convertFallbackToBase64]
        exact (List.prefix_append _ _).trans (List.prefix_append _ _)
    · rw [requests_convertFallbackToBase64]
      exact List.prefix_append _ _
  · rw [requests_convertFallbackToBase64]
    exact List.prefix_append _ _

/-- With a key, the first thing sent is the request for speech. -/
theorem requests_generateAmbientSoundForTradition {key : EnvEntry} (hkey : hasKey key = true)
    (tradition : String) (variation : Fin 11) (t : SoundTurn) (s : SoundCaches) :
    s.requests ++ [.speech tradition variation] <+:
      (generateAmbientSoundForTradition assets key tradition variation t s).2.requests := by
  unfold generateAmbientSoundForTradition
  rw [if_pos hkey]
  dsimp only
  split
  · rw [requests_convertFallbackToBase64]
    exact List.prefix_rfl
  · exact List.prefix_rfl
  · have hvia := requests_generateAudioViaClaudeText assets tradition variation t
      (s.send (.speech tradition variation))
    split
    · rename_i ttsAudio s' hs'
      rw [hs'] at hvia
      split
      · rw [requests_convertFallbackToBase64]
        exact hvia
      · exact hvia
    · rename_i s' hs'
      rw [hs'] at hvia
      rw [requests_convertFallbackToBase64]
      exact hvia

theorem requests_preGenerateAmbientSound {key : EnvEntry} (hkey : hasKey key = true)
    (tradition : String) (variation : Fin 11) (t : SoundTurn) (s : SoundCaches) :
    s.requests.length <
      (preGenerateAmbientSound assets onAudioGenerated key tradition variation t s).requests.length := by
  have hlen := (requests_generateAmbientSoundForTradition assets hkey tradition variation t s).length_le
  rw [List.length_append, List.length_singleton] at hlen
  unfold preGenerateAmbientSound
  split
  · rename_i audioData s' hs'
    rw [hs'] at hlen
    exact hlen
  · rename_i s' hs'
    rw [hs'] at hlen
    exact hlen

/-- With a key, a pre-generation sends requests. -/
theorem requests_preGenerate {key : EnvEntry} (hkey : hasKey key = true)
    (turns : String → Fin 11 → SoundTurn) (s : SoundCaches) :
    s.requests.length <
      (preGenerateAmbientSounds assets onAudioGenerated key turns s).requests.length := by
  rw [preGenerateAmbientSounds_eq]
  have hall : ∀ (l : List (String × Fin 11)) (s : SoundCaches), s.requests.length ≤
      (l.foldl (fun s e => preGenerateAmbientSound assets onAudioGenerated key e.1 e.2
        (turns e.1 e.2) s) s).requests.length := by
    intro l
    induction l with
    | nil => exact fun s => le_refl _
    | cons e l ih =>
      intro s
      rw [List.foldl_cons]
      exact (requests_preGenerateAmbientSound assets onAudioGenerated hkey _ _ _ s).le.trans (ih _)
  obtain ⟨e, l, hitems⟩ := List.exists_cons_of_ne_nil items_ne_nil
  rw [hitems, List.foldl_cons]
  exact (requests_preGenerateAmbientSound assets onAudioGenerated hkey e.1 e.2 _ s).trans_le
    (hall l _)

end

end AIAudio

end MotiAI
