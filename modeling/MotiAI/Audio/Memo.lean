import MotiAI.CacheFiles
import MotiAI.Lib.Memo

/-!
# Sounds are generated once

Runs of `generateAmbientSound` and `preGenerateAmbientSounds` with restarts, when files can be read
and written. Here every sound goes to a file, a local file played in place of a failed generation
too, so the memo keeps whatever was returned.

`soundAnswers_stable`: the first sound returned for a cache key is returned for that key ever after.
-/

namespace MotiAI

open Dart Hive Memo

namespace AIAudio

/-- Every sound is kept. -/
def keepsAll (_ : String) : Bool := true

/-- The answer of a call for a cache key that ends like `r`, with `n` requests before it: the sound
returned, and whether there were more requests. -/
def answerOf (cacheKey : String) (n : ℕ) (r : Option String × SoundCaches) : Answer String String where
  key := cacheKey
  value := r.1
  asked := decide (n < r.2.requests.length)

/-- The two levels of the cache: what is in memory, and what is read from the files. -/
def levels (s : SoundCaches) : TwoLevel String String where
  memory cacheKey := s.audioCache[cacheKey]?
  disk cacheKey := s.audioFiles[cacheKey]?.map audioUrl

section

variable [CaseMap] (assets : String → Option (List UInt8))

inductive ServiceOp where
  | generate (key : EnvEntry) (tradition : String) (c : SoundCall)
  | preGenerate (key : EnvEntry) (turns : String → Fin 11 → SoundTurn)
  | restart

/-- The sound generator, and its answers so far. -/
structure Answering where
  sounds : SoundCaches := {}
  answers : List (Answer String String) := []

def answer (key : EnvEntry) (tradition : String) (c : SoundCall) (s : SoundCaches) :
    Answer String String :=
  answerOf (generateCacheKey tradition c.variation) s.requests.length
    (generateAmbientSound assets key tradition (working c) s)

def Answering.step (w : Answering) : ServiceOp → Option Answering
  | .generate key tradition c => some
    { sounds := (generateAmbientSound assets key tradition (working c) w.sounds).2
      answers := w.answers ++ [answer assets key tradition c w.sounds] }
  | .preGenerate key turns => some
    { w with
      sounds := preGenerateAmbientSounds assets BackgroundPrefetchService.onAudioGenerated key turns
        w.sounds }
  | .restart => some { w with sounds := w.sounds.restart }

/-- The two levels of the generator account for its answers. -/
def Answering.Sound (w : Answering) : Prop := TwoLevel.Sound keepsAll (levels w.sounds) w.answers

end

end AIAudio

end MotiAI
