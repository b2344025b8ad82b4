import MotiAI.Image.Api
import MotiAI.Image.Background
import MotiAI.Lib.Run

/-!
# Overlapping image calls

The image service with its calls in flight, cut at their awaits: `generateImage` waits for the file
and for the API, a turn of `preFetchImages` for the API. Time passes between the moves, and a restart
keeps the files and the box of images. `deliveries` are the images the API has delivered, with the
clock.

1. `generate_alone`: a call by itself does what `generateImage` does.
2. `prefetch_alone`: a turn by itself does what `preFetchImage` does.
-/

namespace MotiAI

open Dart Hive

/-- Where a call is suspended: `reading` and `generating` are `generateImage`, `prefetching` is a
turn of `preFetchImages` with the id for the callback. -/
inductive ImageStage where
  | reading
  | generating
  | prefetching (quoteId : String)
  | done

structure ImageCall where
  prompt : String
  stage : ImageStage

/-- The environment, the caches, the clock in microseconds, the calls in the order they started, the
images delivered by the API, and what the last move returned from `generateImage`; both with their
cache key. -/
structure ImageCalls where
  key : EnvEntry
  images : Images := {}
  cachedImages : Box Val := ∅
  clock : ℤ := 0
  calls : List ImageCall := []
  deliveries : List (String × String × ℤ) := []
  returned : Option (String × String) := none

/-- Time passes; `generateImage` is called, and its call `j` goes on when the file has been read;
`preFetchImages` takes a turn; the API answers the call `j`; the application is restarted. -/
inductive ImageMove where
  | tick (duration : ℕ)
  | ask (prompt : String)
  | read (j : ℕ) (readable : Bool)
  | prefetch (tradition : String) (i : Fin 8)
  | answer (j : ℕ) (reply : Reply (Option Plain)) (millis : ℕ) (writable : Bool)
  | restart (key : EnvEntry)

namespace ImageCalls

open Images StabilityAI BackgroundPrefetchService

/-- The application has just been started, with any files and any stored images. -/
def launched (key : EnvEntry) (files : Box (List UInt8)) (cachedImages : Box Val) : ImageCalls where
  key := key
  images := { imageFiles := files }
  cachedImages := cachedImages

section

variable [CaseMap]

/-- The memory cache has no unexpired image, and the file is read. -/
def awaitFile (prompt : String) (images : Images) (s : ImageCalls) : ImageCalls :=
  { s with images := images, calls := s.calls ++ [⟨prompt, .reading⟩], returned := none }

/-- The call `j` returns the image of the file. -/
def returnFile (j : ℕ) (prompt cachedImage : String) (s : ImageCalls) : ImageCalls :=
  { s with
    images := s.images.remember (generateCacheKey prompt) cachedImage s.clock
    calls := s.calls.set j ⟨prompt, .done⟩
    returned := some (generateCacheKey prompt, cachedImage) }

/-- There is no file, and the call `j` calls `_generateNewImage`. -/
def awaitApi (j : ℕ) (prompt : String) (s : ImageCalls) : ImageCalls :=
  { s with
    images := { s.images with requests := s.images.requests ++ [prompt] }
    calls := s.calls.set j ⟨prompt, .generating⟩
    returned := none }

/-- The prefetch calls `_generateNewImage`. -/
def beginPrefetch (prompt quoteId : String) (s : ImageCalls) : ImageCalls :=
  { s with
    images := { s.images with requests := s.images.requests ++ [prompt] }
    calls := s.calls ++ [⟨prompt, .prefetching quoteId⟩]
    returned := none }

/-- The call `j` has its reply. -/
def receive (j : ℕ) (prompt image : String) (reply : Reply (Option Plain)) (s : ImageCalls) :
    ImageCalls :=
  { s with
    calls := s.calls.set j ⟨prompt, .done⟩
    deliveries :=
      if Succeeds s.key reply then s.deliveries ++ [(generateCacheKey prompt, image, s.clock)]
      else s.deliveries
    returned := none }

/-- A new image is remembered and saved. -/
def store (prompt image : String) (writable : Bool) (s : ImageCalls) : ImageCalls :=
  { s with
    images := (s.images.remember (generateCacheKey prompt) image s.clock).saveImageToStorage
      (generateCacheKey prompt) image writable }

def step (s : ImageCalls) : ImageMove → Option ImageCalls
  | .tick duration => some { s with clock := s.clock + duration, returned := none }
  | .ask prompt =>
    let cacheKey := generateCacheKey prompt
    match s.images.imageCache[cacheKey]? with
    | some cached =>
      if s.images.isFresh cacheKey s.clock then some { s with returned := some (cacheKey, cached) }
      else some (s.awaitFile prompt (s.images.forget cacheKey))
    | none => some (s.awaitFile prompt s.images)
  | .read j readable =>
    match s.calls[j]? with
    | some ⟨prompt, .reading⟩ =>
      match s.images.getCachedImageFromStorage (generateCacheKey prompt) readable with
      | some cachedImage => some (s.returnFile j prompt cachedImage)
      | none => some (s.awaitApi j prompt)
    | _ => none
  | .prefetch tradition i =>
    let prompt := buildPrompt tradition i
    if s.images.imageCache.contains (generateCacheKey prompt) then some { s with returned := none }
    else some (s.beginPrefetch prompt (prefetchId tradition i))
  | .answer j reply millis writable =>
    match s.calls[j]? with
    | some ⟨prompt, .generating⟩ =>
      let image := generateNewImage s.key prompt reply millis
      some { (s.receive j prompt image reply).store prompt image writable with
        returned := some (generateCacheKey prompt, image) }
    | some ⟨prompt, .prefetching quoteId⟩ =>
      let image := generateNewImage s.key prompt reply millis
      if contains image "unsplash.com" then some (s.receive j prompt image reply)
      else
        some { (s.receive j prompt image reply).store prompt image writable with
          cachedImages := onImageGenerated quoteId image s.cachedImages }
    | _ => none
  | .restart key =>
    some { s with
      key := key
      images := s.images.restart
      calls := []
      returned := none }

/-! ## A call by itself -/

/-- The moves of a call of `generateImage`; it may end before the last. -/
def callMoves (prompt : String) (t : ApiTurn) (s : ImageCalls) : List ImageMove :=
  [.ask prompt, .tick (t.received - t.asked).toNat, .read s.calls.length t.readable,
    .answer s.calls.length t.reply t.millis t.writable]

/-- From the place where it waits for the file, a call goes on as `generateUncached`. -/
theorem generateUncached_alone (prompt : String) (t : ApiTurn) (images : Images) (s : ImageCalls)
    (hclock : s.clock = t.asked) (hlater : t.asked ≤ t.received) :
    ∃ k s' image, Run.final step (s.awaitFile prompt images) ((callMoves prompt t s).tail.take k) =
        some s' ∧
      images.generateUncached prompt (t.turn s.key prompt) = (.image image, s'.images) ∧
      s'.returned = some (generateCacheKey prompt, image) := by
  let w : ImageCalls := { s.awaitFile prompt images with clock := t.received }
  have htick : (s.awaitFile prompt images).step (.tick (t.received - t.asked).toNat) = some w := by
    have hreceived : s.clock + ((t.received - t.asked).toNat : ℤ) = t.received := by omega
    show some { s.awaitFile prompt images with
      clock := s.clock + ((t.received - t.asked).toNat : ℤ) } = _
    rw [hreceived]
  have hwaits : w.calls[s.calls.length]? = some ⟨prompt, .reading⟩ :=
    List.getElem?_concat_length
  unfold Images.generateUncached
  cases hfile : images.getCachedImageFromStorage (generateCacheKey prompt) t.readable with
  | some cachedImage =>
    have hread : w.step (.read s.calls.length t.readable) =
        some (w.returnFile s.calls.length prompt cachedImage) := by
      simp only [step]
      rw [hwaits]
      simp only [w, awaitFile, hfile]
    refine ⟨2, w.returnFile s.calls.length prompt cachedImage, cachedImage, ?_, ?_, rfl⟩
    · show Run.final step _ [.tick _, .read _ _] = _
      rw [Run.final_cons htick, Run.final_cons hread]
      rfl
    · simp only [ApiTurn.turn, hfile]
      rfl
  | none =>
    have hread : w.step (.read s.calls.length t.readable) =
        some (w.awaitApi s.calls.length prompt) := by
      simp only [step]
      rw [hwaits]
      simp only [w, awaitFile, hfile]
    have hlt : s.calls.length < w.calls.length := by
      simp [w, awaitFile]
    have hsent : (w.awaitApi s.calls.length prompt).calls[s.calls.length]? =
        some ⟨prompt, .generating⟩ := List.getElem?_set_self hlt
    let image := generateNewImage s.key prompt t.reply t.millis
    refine ⟨3, { ((w.awaitApi s.calls.length prompt).receive s.calls.length prompt image t.reply).store
      prompt image t.writable with returned := some (generateCacheKey prompt, image) }, image,
      ?_, ?_, rfl⟩
    · show Run.final step _ [.tick _, .read _ _, .answer _ _ _ _] = _
      rw [Run.final_cons htick, Run.final_cons hread]
      simp only [Run.final, step]
      rw [hsent]
      rfl
    · simp only [ApiTurn.turn, hfile]
      rfl

/-- **A call by itself.** Asking, reading the file and receiving the answer are together
`generateImage`. -/
theorem generate_alone (prompt : String) (t : ApiTurn) (s : ImageCalls)
    (hclock : s.clock = t.asked) (hlater : t.asked ≤ t.received) :
    ∃ k s' image, Run.final step s ((callMoves prompt t s).take k) = some s' ∧
      s.images.generateImage prompt (t.turn s.key prompt) = (.image image, s'.images) ∧
      s'.returned = some (generateCacheKey prompt, image) := by
  have hwait : ∀ images, step s (.ask prompt) = some (s.awaitFile prompt images) →
      s.images.generateImage prompt (t.turn s.key prompt) =
        images.generateUncached prompt (t.turn s.key prompt) →
      ∃ k s' image, Run.final step s ((callMoves prompt t s).take k) = some s' ∧
        s.images.generateImage prompt (t.turn s.key prompt) = (.image image, s'.images) ∧
        s'.returned = some (generateCacheKey prompt, image) := by
    intro images hask hsame
    obtain ⟨k, s', image, hfinal, hgen, hret⟩ :=
      generateUncached_alone prompt t images s hclock hlater
    refine ⟨k + 1, s', image, ?_, hsame.trans hgen, hret⟩
    show Run.final step s (.ask prompt :: (callMoves prompt t s).tail.take k) = some s'
    rw [Run.final_cons hask]
    exact hfinal
  cases hmem : s.images.imageCache[generateCacheKey prompt]? with
  | none => exact hwait s.images (by simp only [step, hmem]) (by simp only [generateImage, hmem])
  | some cached =>
    cases hfresh : s.images.isFresh (generateCacheKey prompt) t.asked with
    | true =>
      refine ⟨1, { s with returned := some (generateCacheKey prompt, cached) }, cached, ?_, ?_, rfl⟩
      · show Run.final step s [.ask prompt] = _
        simp only [Run.final, step, hmem, hclock, hfresh]
        rfl
      · simp only [generateImage, ApiTurn.turn, hmem, hfresh]
        rfl
    | false =>
      refine hwait (s.images.forget (generateCacheKey prompt)) ?_ ?_
      · simp only [step, hmem, hclock, hfresh]
        rfl
      · simp only [generateImage, ApiTurn.turn, hmem, hfresh]
        rfl

/-- **A turn by itself.** Its request and the answer are together `preFetchImage`. -/
theorem prefetch_alone (tradition : String) (i : Fin 8) (t : ApiTurn) (s : ImageCalls)
    (hclock : s.clock = t.received) :
    ∃ k s', Run.final step s
        ([.prefetch tradition i, .answer s.calls.length t.reply t.millis t.writable].take k) =
        some s' ∧
      preFetchImage onImageGenerated tradition i (t.turn s.key (buildPrompt tradition i))
        (s.images, s.cachedImages) = (s'.images, s'.cachedImages) := by
  let prompt := buildPrompt tradition i
  let w := s.beginPrefetch prompt (prefetchId tradition i)
  let image := generateNewImage s.key prompt t.reply t.millis
  have hwaits : w.calls[s.calls.length]? = some ⟨prompt, .prefetching (prefetchId tradition i)⟩ :=
    List.getElem?_concat_length
  cases hmem : s.images.imageCache.contains (generateCacheKey prompt) with
  | true =>
    refine ⟨1, { s with returned := none }, ?_, ?_⟩
    · show Run.final step s [.prefetch tradition i] = _
      simp only [Run.final, step]
      rw [if_pos hmem]
      rfl
    · unfold preFetchImage
      dsimp only
      rw [if_pos hmem]
  | false =>
    have hsend : step s (.prefetch tradition i) = some w := by
      simp only [step]
      rw [if_neg (ne_true_of_eq_false hmem)]
    have hturn : ∀ s', w.step (.answer s.calls.length t.reply t.millis t.writable) = some s' →
        Run.final step s [.prefetch tradition i,
          .answer s.calls.length t.reply t.millis t.writable] = some s' := by
      intro s' hs'
      rw [Run.final_cons hsend, Run.final_cons hs']
      rfl
    unfold preFetchImage
    dsimp only
    rw [if_neg (ne_true_of_eq_false hmem)]
    simp only [Images.generateNewImage, ApiTurn.turn]
    cases hphoto : contains image "unsplash.com" with
    | true =>
      refine ⟨2, w.receive s.calls.length prompt image t.reply, hturn _ ?_, ?_⟩
      · simp only [step]
        rw [hwaits]
        exact if_pos hphoto
      · rfl
    | false =>
      refine ⟨2, { (w.receive s.calls.length prompt image t.reply).store prompt image t.writable with
        cachedImages := onImageGenerated (prefetchId tradition i) image s.cachedImages },
        hturn _ ?_, ?_⟩
      · simp only [step]
        rw [hwaits]
        exact if_neg (ne_true_of_eq_false hphoto)
      · rw [← hclock]
        rfl

/-! ## What a move can do -/

/-- The memory cache may lose entries, and nothing is delivered or returned. -/
structure Quiet (s s' : ImageCalls) : Prop where
  kept : ∀ {cacheKey image : String}, s'.images.imageCache[cacheKey]? = some image →
    s.images.imageCache[cacheKey]? = some image ∧
      s'.images.cacheTimestamps[cacheKey]? = s.images.cacheTimestamps[cacheKey]?
  deliveries : s'.deliveries = s.deliveries
  returned : s'.returned = none

/-- The moves that are not quiet: a call returns an unexpired image or the image of a file, and an
answer is returned by a call, refused by a prefetch or stored by it. -/
inductive Effect (s : ImageCalls) : ImageMove → ImageCalls → Prop
  | quiet {m s'} (h : Quiet s s') : Effect s m s'
  | cached {prompt image} (hmem : s.images.imageCache[generateCacheKey prompt]? = some image)
      (hfresh : s.images.isFresh (generateCacheKey prompt) s.clock = true) :
      Effect s (.ask prompt) { s with returned := some (generateCacheKey prompt, image) }
  | file {j readable prompt image} (hj : s.calls[j]? = some ⟨prompt, .reading⟩)
      (hfile : s.images.getCachedImageFromStorage (generateCacheKey prompt) readable = some image) :
      Effect s (.read j readable) (s.returnFile j prompt image)
  | new {j reply millis writable prompt image} (hj : s.calls[j]? = some ⟨prompt, .generating⟩)
      (himage : image = generateNewImage s.key prompt reply millis) :
      Effect s (.answer j reply millis writable)
        { (s.receive j prompt image reply).store prompt image writable with
          returned := some (generateCacheKey prompt, image) }
  | refused {j reply millis writable prompt quoteId image}
      (hj : s.calls[j]? = some ⟨prompt, .prefetching quoteId⟩)
      (himage : image = generateNewImage s.key prompt reply millis)
      (hphoto : contains image "unsplash.com" = true) :
      Effect s (.answer j reply millis writable) (s.receive j prompt image reply)
  | prefetched {j reply millis writable prompt quoteId image}
      (hj : s.calls[j]? = some ⟨prompt, .prefetching quoteId⟩)
      (himage : image = generateNewImage s.key prompt reply millis)
      (hphoto : contains image "unsplash.com" = false) :
      Effect s (.answer j reply millis writable)
        { (s.receive j prompt image reply).store prompt image writable with
          cachedImages := onImageGenerated quoteId image s.cachedImages }

theorem effect_of_step {s s' : ImageCalls} {m : ImageMove} (hs : s.step m = some s') :
    Effect s m s' := by
  cases m with
  | tick duration =>
    obtain rfl := Option.some.inj hs
    exact .quiet ⟨fun h => ⟨h, rfl⟩, rfl, rfl⟩
  | ask prompt =>
    simp only [step] at hs
    split at hs
    · rename_i cached hmem
      split at hs
      · rename_i hfresh
        obtain rfl := Option.some.inj hs
        exact .cached hmem hfresh
      · obtain rfl := Option.some.inj hs
        exact .quiet ⟨getElem?_forget, rfl, rfl⟩
    · obtain rfl := Option.some.inj hs
      exact .quiet ⟨fun h => ⟨h, rfl⟩, rfl, rfl⟩
  | read j readable =>
    simp only [step] at hs
    split at hs
    · rename_i prompt hj
      split at hs
      · rename_i cachedImage hfile
        obtain rfl := Option.some.inj hs
        exact .file hj hfile
      · obtain rfl := Option.some.inj hs
        exact .quiet ⟨fun h => ⟨h, rfl⟩, rfl, rfl⟩
    · cases hs
  | prefetch tradition i =>
    simp only [step] at hs
    split at hs
    · obtain rfl := Option.some.inj hs
      exact .quiet ⟨fun h => ⟨h, rfl⟩, rfl, rfl⟩
    · obtain rfl := Option.some.inj hs
      exact .quiet ⟨fun h => ⟨h, rfl⟩, rfl, rfl⟩
  | answer j reply millis writable =>
    simp only [step] at hs
    split at hs
    · rename_i prompt hj
      obtain rfl := Option.some.inj hs
      exact .new hj rfl
    · rename_i prompt quoteId hj
      split at hs
      · rename_i hphoto
        obtain rfl := Option.some.inj hs
        exact .refused hj rfl hphoto
      · rename_i hphoto
        obtain rfl := Option.some.inj hs
        exact .prefetched hj rfl (eq_false_of_ne_true hphoto)
    · cases hs
  | restart key =>
    obtain rfl := Option.some.inj hs
    refine .quiet ⟨fun h => ?_, rfl, rfl⟩
    exact absurd h Box.getElem?_empty_ne

/-! ## What is written -/

/-- The images a move writes into the memory cache: that of a file, whatever a call of
`generateImage` receives, and what a prefetch accepts. -/
inductive Written (s : ImageCalls) : ImageMove → String → String → Prop
  | file {j readable prompt image} (hj : s.calls[j]? = some ⟨prompt, .reading⟩)
      (hfile : s.images.getCachedImageFromStorage (generateCacheKey prompt) readable = some image) :
      Written s (.read j readable) (generateCacheKey prompt) image
  | new {j reply millis writable prompt} (hj : s.calls[j]? = some ⟨prompt, .generating⟩) :
      Written s (.answer j reply millis writable) (generateCacheKey prompt)
        (generateNewImage s.key prompt reply millis)
  | prefetched {j reply millis writable prompt quoteId}
      (hj : s.calls[j]? = some ⟨prompt, .prefetching quoteId⟩)
      (hphoto : contains (generateNewImage s.key prompt reply millis) "unsplash.com" = false) :
      Written s (.answer j reply millis writable) (generateCacheKey prompt)
        (generateNewImage s.key prompt reply millis)

/-- An entry of the memory cache after a move was there before with the same timestamp, or the move
has written it and its timestamp is the clock. -/
theorem entry_step {s s' : ImageCalls} {m : ImageMove} (hs : s.step m = some s')
    {cacheKey image : String} (h : s'.images.imageCache[cacheKey]? = some image) :
    (s.images.imageCache[cacheKey]? = some image ∧
      s'.images.cacheTimestamps[cacheKey]? = s.images.cacheTimestamps[cacheKey]?) ∨
    (Written s m cacheKey image ∧ s'.images.cacheTimestamps[cacheKey]? = some s.clock) := by
  have hremember : ∀ {prompt data} {s'' : Images},
      s''.imageCache = (s.images.remember (generateCacheKey prompt) data s.clock).imageCache →
      s''.cacheTimestamps = (s.images.remember (generateCacheKey prompt) data s.clock).cacheTimestamps →
      Written s m (generateCacheKey prompt) data → s''.imageCache[cacheKey]? = some image →
      (s.images.imageCache[cacheKey]? = some image ∧
        s''.cacheTimestamps[cacheKey]? = s.images.cacheTimestamps[cacheKey]?) ∨
      (Written s m cacheKey image ∧ s''.cacheTimestamps[cacheKey]? = some s.clock) := by
    intro prompt data s'' hcache htimes hw h
    rw [hcache] at h
    rw [htimes]
    rcases getElem?_remember h with ⟨rfl, rfl, htime⟩ | hold
    · exact Or.inr ⟨hw, htime⟩
    · exact Or.inl hold
  cases effect_of_step hs with
  | quiet hquiet => exact Or.inl (hquiet.kept h)
  | cached hmem hfresh => exact Or.inl ⟨h, rfl⟩
  | file hj hfile => exact hremember rfl rfl (.file hj hfile) h
  | new hj himage =>
    subst himage
    exact hremember (imageCache_saveImageToStorage _ _ _ _)
      (cacheTimestamps_saveImageToStorage _ _ _ _) (.new hj) h
  | refused hj himage hphoto => exact Or.inl ⟨h, rfl⟩
  | prefetched hj himage hphoto =>
    subst himage
    exact hremember (imageCache_saveImageToStorage _ _ _ _)
      (cacheTimestamps_saveImageToStorage _ _ _ _) (.prefetched hj hphoto) h

/-- What a move returns is an unexpired entry of the memory cache, or the move has written it. -/
theorem returned_step {s s' : ImageCalls} {m : ImageMove} (hs : s.step m = some s')
    {cacheKey image : String} (h : s'.returned = some (cacheKey, image)) :
    s'.clock = s.clock ∧
      (s.images.imageCache[cacheKey]? = some image ∧ s.images.isFresh cacheKey s.clock = true ∨
        Written s m cacheKey image) := by
  cases effect_of_step hs with
  | quiet hquiet => cases hquiet.returned.symm.trans h
  | cached hmem hfresh =>
    obtain ⟨rfl, rfl⟩ := Prod.mk.inj (Option.some.inj h)
    exact ⟨rfl, Or.inl ⟨hmem, hfresh⟩⟩
  | file hj hfile =>
    obtain ⟨rfl, rfl⟩ := Prod.mk.inj (Option.some.inj h)
    exact ⟨rfl, Or.inr (.file hj hfile)⟩
  | new hj himage =>
    obtain ⟨rfl, rfl⟩ := Prod.mk.inj (Option.some.inj h)
    subst himage
    exact ⟨rfl, Or.inr (.new hj)⟩
  | refused hj himage hphoto => cases h
  | prefetched hj himage hphoto => cases h

end

end ImageCalls

end MotiAI
