import MotiAI.Audio.Generator

/-!
# A sound from memory, from a file or generated

`generateAmbientSound` with its two caches: the memory, whose entries expire, and the files of the
`audio_cache` directory. A generated sound is saved under its cache key in a file and in the box.

`generateAmbientSoundForTradition_eq`: whichever way a generation goes, it ends with the sound the
API brings or with the local file.
-/

namespace MotiAI

open Dart Hive

/-- What a call of `generateAmbientSound` meets: the clock that chooses the variation, the clock when
it looks at the memory cache and when it has a sound, whether the cached file can be read and
written, and the replies to its requests. -/
structure SoundCall where
  millis : ℤ
  asked : ℤ
  received : ℤ
  readable : Bool
  writable : Bool
  turn : SoundTurn

/-- `millisecondsSinceEpoch % 11`. -/
def SoundCall.variation (c : SoundCall) : Fin 11 := ⟨(c.millis % 11).toNat, by omega⟩

namespace SoundCaches

/-- `_cacheExpiry`, in microseconds. -/
def cacheExpiry : ℤ := 24 * 60 * 60 * 1000000

/-- The memory cache has an unexpired entry at `cacheKey`. -/
def isFresh (cacheKey : String) (now : ℤ) (s : SoundCaches) : Bool :=
  s.cacheTimestamps[cacheKey]?.any fun timestamp => now - timestamp < cacheExpiry

def forget (cacheKey : String) (s : SoundCaches) : SoundCaches :=
  { s with
    audioCache := s.audioCache.erase cacheKey
    cacheTimestamps := s.cacheTimestamps.erase cacheKey }

def remember (cacheKey audio : String) (now : ℤ) (s : SoundCaches) : SoundCaches :=
  { s with
    audioCache := s.audioCache.insert cacheKey audio
    cacheTimestamps := s.cacheTimestamps.insert cacheKey now }

/-- `_saveAudioToStorage`, which catches what it throws; the box comes after the file. -/
def saveAudioToStorage (cacheKey audioData : String) (writable : Bool) (s : SoundCaches) :
    SoundCaches :=
  if writable then
    if startsWith audioData "data:audio/" then
      match (split ',' audioData)[1]?.bind base64Decode with
      | some bytes =>
        { s with audioFiles := s.audioFiles.insert cacheKey bytes }.store cacheKey audioData
      | none => s
    else s.store cacheKey audioData
  else s

/-- `_getCachedAudioFromStorage`, which catches what it throws. -/
def getCachedAudioFromStorage (cacheKey : String) (readable : Bool) (s : SoundCaches) :
    Option String :=
  if readable then s.audioFiles[cacheKey]?.map AIAudio.audioUrl else none

end SoundCaches

namespace AIAudio

/-- The sound of `_generateAudioViaClaudeText` when nothing fails: speech of a description. -/
def descriptionAudio (t : SoundTurn) : Option String :=
  match t.description with
  | .response 200 (some responseData) =>
    match contentText responseData with
    | some _ =>
      match t.descriptionSpeech with
      | .response 200 bytes => some (audioUrl bytes)
      | _ => none
    | none => none
  | _ => none

/-- The sound the API brings: speech of the prompt, or else speech of a description. -/
def apiAudio (key : EnvEntry) (t : SoundTurn) : Option String :=
  if hasKey key then
    match t.speech with
    | .throws => none
    | .response 200 bytes => some (audioUrl bytes)
    | .response _ _ => descriptionAudio t
  else none

theorem descriptionAudio_eq_some {t : SoundTurn} {audio : String}
    (h : descriptionAudio t = some audio) : ∃ bytes, audio = audioUrl bytes := by
  unfold descriptionAudio at h
  split at h
  · split at h
    · split at h
      · exact ⟨_, (Option.some.inj h).symm⟩
      · cases h
    · cases h
  · cases h

/-- A data URL is no `.mp3` file. -/
theorem contains_audioUrl (bytes : List UInt8) : contains (audioUrl bytes) ".mp3" = false := by
  apply contains_eq_false (c := '.') (by decide)
  unfold audioUrl
  rw [String.toList_append, List.mem_append, not_or]
  exact ⟨by decide, notMem_base64Encode (by decide) bytes⟩

section

variable [CaseMap] (assets : String → Option (List UInt8)) (key : EnvEntry) (tradition : String)

/-- `generateAmbientSound` from the place where the memory cache has no unexpired sound. -/
def generateUncached (c : SoundCall) (s : SoundCaches) : Option String × SoundCaches :=
  let cacheKey := generateCacheKey tradition c.variation
  match s.getCachedAudioFromStorage cacheKey c.readable with
  | some cachedAudio => (some cachedAudio, s.remember cacheKey cachedAudio c.received)
  | none =>
    match generateAmbientSoundForTradition assets key tradition c.variation c.turn s with
    | (some audioData, s) =>
      (some audioData,
        (s.remember cacheKey audioData c.received).saveAudioToStorage cacheKey audioData c.writable)
    | (none, s) => (none, s)

def generateAmbientSound (c : SoundCall) (s : SoundCaches) : Option String × SoundCaches :=
  let cacheKey := generateCacheKey tradition c.variation
  match s.audioCache[cacheKey]? with
  | some cached =>
    if s.isFresh cacheKey c.asked then (some cached, s)
    else generateUncached assets key tradition c (s.forget cacheKey)
  | none => generateUncached assets key tradition c s

theorem generateAudioViaClaudeText_eq (variation : Fin 11) (t : SoundTurn) (s : SoundCaches) :
    ∃ requests, generateAudioViaClaudeText assets tradition variation t s =
      match descriptionAudio t with
      | some audio => (some audio, { s with requests := requests })
      | none => convertFallbackToBase64 assets tradition { s with requests := requests } := by
  unfold generateAudioViaClaudeText
  dsimp only
  split
  · rename_i hdescription
    split
    · rename_i htext
      split
      · rename_i hspeech
        simp only [descriptionAudio, hdescription, htext, hspeech]
        exact ⟨_, rfl⟩
      · simp only [descriptionAudio, hdescription, htext]
        exact ⟨_, rfl⟩
    · rename_i htext
      simp only [descriptionAudio, hdescription, htext]
      exact ⟨_, rfl⟩
  · simp only [descriptionAudio]
    exact ⟨_, rfl⟩

/-- The fallback ends like one that is made again because it has ended without a sound. -/
theorem convertFallbackToBase64_again (s : SoundCaches) :
    (match convertFallbackToBase64 assets tradition s with
      | (some ttsAudio, s) =>
        if contains ttsAudio ".mp3" then convertFallbackToBase64 assets tradition s
        else (some ttsAudio, s)
      | (none, s) => convertFallbackToBase64 assets tradition s) =
      convertFallbackToBase64 assets tradition s := by
  cases h : assets (getFallbackAudioForTradition tradition) with
  | none => simp only [convertFallbackToBase64, h]
  | some bytes => simp [convertFallbackToBase64, h, contains_audioUrl]

/-- **A generation** sends requests, and ends with the sound of the API or the local file. -/
theorem generateAmbientSoundForTradition_eq (variation : Fin 11) (t : SoundTurn)
    (s : SoundCaches) : ∃ requests,
    generateAmbientSoundForTradition assets key tradition variation t s =
      match apiAudio key t with
      | some audio => (some audio, { s with requests := requests })
      | none => convertFallbackToBase64 assets tradition { s with requests := requests } := by
  unfold generateAmbientSoundForTradition
  split
  · rename_i hkey
    dsimp only
    split
    · rename_i hspeech
      simp only [apiAudio, hkey, hspeech, if_true]
      exact ⟨_, rfl⟩
    · rename_i hspeech
      simp only [apiAudio, hkey, hspeech, if_true]
      exact ⟨_, rfl⟩
    · rename_i statusCode body hne hspeech
      simp only [apiAudio, hkey, hspeech, if_true]
      obtain ⟨requests, h⟩ := generateAudioViaClaudeText_eq assets tradition variation t
        (s.send (.speech tradition variation))
      rw [h]
      refine ⟨requests, ?_⟩
      cases haudio : descriptionAudio t with
      | some audio =>
        obtain ⟨bytes, rfl⟩ := descriptionAudio_eq_some haudio
        simp only [contains_audioUrl, Bool.false_eq_true, if_false]
        rfl
      | none => exact convertFallbackToBase64_again assets tradition _
  · rename_i hkey
    simp only [apiAudio, hkey]
    exact ⟨s.requests, rfl⟩

end

end AIAudio

end MotiAI
