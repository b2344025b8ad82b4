import MotiAI.Dart.Base64
import MotiAI.Hive.Box
import MotiAI.Image.Prompt

/-!
# The image service

The static state of `StabilityAIGenerator`, with the files of its `image_cache` directory, and its
operations `generateImage` and `preFetchImages`. What a call meets on its way is an `ImageTurn`: the
clock, whether the file system works, and how `_generateNewImage` ends.

`preFetchImages_callback`: what every call of the callback keeps is kept by a whole prefetch.
-/

namespace MotiAI

open Dart Hive

/-- How a call of `_generateNewImage` ends. -/
inductive Generated where
  | image (data : String)
  | null
  | throws

/-- What a call meets: the clock when it looks at the memory cache and when it has an image, whether
the cached file can be read and written, and the outcome of `_generateNewImage`. -/
structure ImageTurn where
  asked : ℤ
  received : ℤ
  readable : Bool
  writable : Bool
  generated : Generated

/-- The caches in memory, the files by cache key, and the prompts `_generateNewImage` was called
with. -/
structure Images where
  imageCache : Box String := ∅
  cacheTimestamps : Box ℤ := ∅
  imageFiles : Box (List UInt8) := ∅
  requests : List String := []

namespace Images

/-- `_cacheExpiry`, in microseconds. -/
def cacheExpiry : ℤ := 24 * 60 * 60 * 1000000

/-- The memory cache has an unexpired entry at `cacheKey`. -/
def isFresh (cacheKey : String) (now : ℤ) (s : Images) : Bool :=
  s.cacheTimestamps[cacheKey]?.any fun timestamp => now - timestamp < cacheExpiry

/-- The application is started again: the files are kept. -/
def restart (s : Images) : Images := { imageFiles := s.imageFiles, requests := s.requests }

def forget (cacheKey : String) (s : Images) : Images :=
  { s with
    imageCache := s.imageCache.erase cacheKey
    cacheTimestamps := s.cacheTimestamps.erase cacheKey }

def remember (cacheKey image : String) (now : ℤ) (s : Images) : Images :=
  { s with
    imageCache := s.imageCache.insert cacheKey image
    cacheTimestamps := s.cacheTimestamps.insert cacheKey now }

/-- `_saveImageToStorage`, which catches what it throws. -/
def saveImageToStorage (cacheKey imageData : String) (writable : Bool) (s : Images) : Images :=
  if writable && startsWith imageData "data:image/" then
    match (split ',' imageData)[1]?.bind base64Decode with
    | some bytes => { s with imageFiles := s.imageFiles.insert cacheKey bytes }
    | none => s
  else s

@[simp] theorem requests_saveImageToStorage (cacheKey imageData : String) (writable : Bool)
    (s : Images) : (s.saveImageToStorage cacheKey imageData writable).requests = s.requests := by
  unfold saveImageToStorage
  split
  · split <;> rfl
  · rfl

@[simp] theorem imageCache_saveImageToStorage (cacheKey imageData : String) (writable : Bool)
    (s : Images) : (s.saveImageToStorage cacheKey imageData writable).imageCache = s.imageCache := by
  unfold saveImageToStorage
  split
  · split <;> rfl
  · rfl

@[simp] theorem cacheTimestamps_saveImageToStorage (cacheKey imageData : String) (writable : Bool)
    (s : Images) :
    (s.saveImageToStorage cacheKey imageData writable).cacheTimestamps = s.cacheTimestamps := by
  unfold saveImageToStorage
  split
  · split <;> rfl
  · rfl

theorem getElem?_forget {cacheKey key image : String} {s : Images}
    (h : (s.forget cacheKey).imageCache[key]? = some image) :
    s.imageCache[key]? = some image ∧
      (s.forget cacheKey).cacheTimestamps[key]? = s.cacheTimestamps[key]? := by
  unfold forget at h ⊢
  rw [Box.getElem?_delete] at h ⊢
  split at h
  · cases h
  · rename_i hne
    exact ⟨h, if_neg hne⟩

theorem getElem?_remember {cacheKey key data image : String} {now : ℤ} {s : Images}
    (h : (s.remember cacheKey data now).imageCache[key]? = some image) :
    (cacheKey = key ∧ data = image ∧ (s.remember cacheKey data now).cacheTimestamps[key]? = some now) ∨
      s.imageCache[key]? = some image ∧
        (s.remember cacheKey data now).cacheTimestamps[key]? = s.cacheTimestamps[key]? := by
  unfold remember at h ⊢
  rw [Box.getElem?_put] at h ⊢
  split at h
  · rename_i heq
    exact Or.inl ⟨heq, Option.some.inj h, if_pos heq⟩
  · rename_i hne
    exact Or.inr ⟨h, if_neg hne⟩

/-- `_getCachedImageFromStorage`, which catches what it throws. -/
def getCachedImageFromStorage (cacheKey : String) (readable : Bool) (s : Images) : Option String :=
  if readable then
    s.imageFiles[cacheKey]?.map fun bytes => "data:image/png;base64," ++ base64Encode bytes
  else none

/-- `_generateNewImage`. -/
def generateNewImage (prompt : String) (t : ImageTurn) (s : Images) : Generated × Images :=
  (t.generated, { s with requests := s.requests ++ [prompt] })

section

variable [CaseMap]

/-- `_generateCacheKey`. -/
def generateCacheKey (prompt : String) : String := replaceNonAlnum (toLowerCase prompt)

/-- `generateImage` from the place where the memory cache has no unexpired image. -/
def generateUncached (prompt : String) (t : ImageTurn) (s : Images) : Generated × Images :=
  let cacheKey := generateCacheKey prompt
  match s.getCachedImageFromStorage cacheKey t.readable with
  | some cachedImage => (.image cachedImage, s.remember cacheKey cachedImage t.received)
  | none =>
    match s.generateNewImage prompt t with
    | (.image newImage, s) =>
      (.image newImage,
        (s.remember cacheKey newImage t.received).saveImageToStorage cacheKey newImage t.writable)
    | (other, s) => (other, s)

def generateImage (prompt : String) (t : ImageTurn) (s : Images) : Generated × Images :=
  let cacheKey := generateCacheKey prompt
  match s.imageCache[cacheKey]? with
  | some cached =>
    if s.isFresh cacheKey t.asked then (.image cached, s)
    else (s.forget cacheKey).generateUncached prompt t
  | none => s.generateUncached prompt t

/-! ## Prefetching -/

/-- The themes of `preFetchImages`. -/
def traditions : List String :=
  ["Buddhist Inspiration", "Sufi Inspiration", "Zen Inspiration", "Taoism Inspiration",
    "Stoicism Inspiration", "Hinduism Inspiration", "Indigenous Wisdom Inspiration",
    "Mindful Tech Inspiration", "Social Justice Inspiration"]

/-- The id an image is handed to the callback with, for the variation `i + 1`. -/
def prefetchId (tradition : String) (i : Fin 8) : String :=
  replaceChar ' ' '_' (toLowerCase tradition) ++ "_image_" ++ toString (i.val + 1)

section

variable {σ : Type} (onImageGenerated : String → String → σ → σ)

/-- One turn of the inner loop, on the service and what the callback writes to. After the callback
comes only a pause, so one that throws is one that stops earlier. -/
def preFetchImage (tradition : String) (i : Fin 8) (t : ImageTurn) (s : Images × σ) : Images × σ :=
  let prompt := buildPrompt tradition i
  let cacheKey := generateCacheKey prompt
  if s.1.imageCache.contains cacheKey then s
  else
    match s.1.generateNewImage prompt t with
    | (.image image, images) =>
      if contains image "unsplash.com" then (images, s.2)
      else
        ((images.remember cacheKey image t.received).saveImageToStorage cacheKey image t.writable,
          onImageGenerated (prefetchId tradition i) image s.2)
    | (_, images) => (images, s.2)

def preFetchImages (turns : String → Fin 8 → ImageTurn) (s : Images × σ) : Images × σ :=
  traditions.foldl (fun s tradition =>
    (List.finRange 8).foldl (fun s i =>
      preFetchImage onImageGenerated tradition i (turns tradition i) s) s) s

variable {onImageGenerated} {P : σ → Prop}

theorem preFetchImage_callback
    (hcall : ∀ tradition i image x, P x → P (onImageGenerated (prefetchId tradition i) image x))
    (tradition : String) (i : Fin 8) (t : ImageTurn) {s : Images × σ} (h : P s.2) :
    P (preFetchImage onImageGenerated tradition i t s).2 := by
  unfold preFetchImage
  dsimp only
  split
  · exact h
  · split
    · split
      · exact h
      · exact hcall tradition i _ s.2 h
    · exact h

/-- What every call of the callback keeps is kept by a whole prefetch. -/
theorem preFetchImages_callback
    (hcall : ∀ tradition i image x, P x → P (onImageGenerated (prefetchId tradition i) image x))
    (turns : String → Fin 8 → ImageTurn) {s : Images × σ} (h : P s.2) :
    P (preFetchImages onImageGenerated turns s).2 := by
  unfold preFetchImages
  refine List.foldlRecOn (motive := fun s : Images × σ => P s.2) _ _ h fun s hs tradition _ => ?_
  exact List.foldlRecOn (motive := fun s : Images × σ => P s.2) _ _ hs fun s hs i _ =>
    preFetchImage_callback hcall tradition i _ hs

end

end

end Images

end MotiAI
