import MotiAI.Image.Overlap

/-!
# Failures in the memory cache

`generateImage` remembers whatever `_generateNewImage` returns, `preFetchImages` only what is no
photo of unsplash.com.

1. `uncached_iff`: the memory cache holds only AI images, and a prompt whose request failed stays
   missing, exactly when every request of a call of `generateImage` succeeds.
2. `not_uncached_zen`: after a failure, the photo is returned without a request.
-/

namespace MotiAI

open Dart Hive

namespace ImageCalls

open Images StabilityAI

/-! ## What is expected -/

def OnlyAI (s : ImageCalls) : Prop :=
  ∀ cacheKey image : String, s.images.imageCache[cacheKey]? = some image →
    isAIImage image = true

theorem onlyAI_launched (key : EnvEntry) (files : Box (List UInt8)) (cachedImages : Box Val) :
    OnlyAI (launched key files cachedImages) := by
  intro cacheKey image h
  exact absurd h Box.getElem?_empty_ne

section

variable [CaseMap]

/-- The move ends a request for `prompt` without an image. -/
def Fails (s : ImageCalls) (m : ImageMove) (prompt : String) : Prop :=
  ∃ j reply millis writable stage, m = .answer j reply millis writable ∧
    s.calls[j]? = some ⟨prompt, stage⟩ ∧ ¬ Succeeds s.key reply

/-- The next call of `generateImage`, unless it finds a file, and the next prefetch of the prompt
call `_generateNewImage`. -/
structure Again (prompt : String) (s : ImageCalls) : Prop where
  generate : s.images.imageFiles[generateCacheKey prompt]? = none → ∀ readable, ∃ s',
    Run.final step s [.ask prompt, .read s.calls.length readable] = some s' ∧
      s'.images.requests = s.images.requests ++ [prompt]
  prefetch : ∀ tradition i, buildPrompt tradition i = prompt → ∃ s',
    s.step (.prefetch tradition i) = some s' ∧ s'.images.requests = s.images.requests ++ [prompt]

/-- After the move the memory cache holds only AI images, and if a request has failed for which no
other had brought an image, its prompt is asked for again. -/
structure Uncached (s : ImageCalls) (m : ImageMove) (s' : ImageCalls) : Prop where
  cached : OnlyAI s'
  again : ∀ prompt, Fails s m prompt → s.images.imageCache[generateCacheKey prompt]? = none →
    Again prompt s'

/-- The reply to a call of `generateImage` brings an image. -/
def Delivers (s : ImageCalls) (m : ImageMove) (_ : ImageCalls) : Prop :=
  ∀ j reply millis writable prompt, m = .answer j reply millis writable →
    s.calls[j]? = some ⟨prompt, .generating⟩ → Succeeds s.key reply

/-! ## One move -/

theorem again_of_missing {prompt : String} {s : ImageCalls}
    (h : s.images.imageCache[generateCacheKey prompt]? = none) : Again prompt s where
  generate := by
    intro hfile readable
    have hask : s.step (.ask prompt) = some (s.awaitFile prompt s.images) := by
      simp only [step, h]
    have hwaits : (s.awaitFile prompt s.images).calls[s.calls.length]? = some ⟨prompt, .reading⟩ :=
      List.getElem?_concat_length
    have hnone : s.images.getCachedImageFromStorage (generateCacheKey prompt) readable = none := by
      unfold getCachedImageFromStorage
      rw [hfile, Option.map_none, ite_self]
    have hread : (s.awaitFile prompt s.images).step (.read s.calls.length readable) =
        some ((s.awaitFile prompt s.images).awaitApi s.calls.length prompt) := by
      simp only [step]
      rw [hwaits]
      simp only [awaitFile, hnone]
    refine ⟨(s.awaitFile prompt s.images).awaitApi s.calls.length prompt, ?_, rfl⟩
    rw [Run.final_cons hask, Run.final_cons hread]
    rfl
  prefetch := by
    rintro tradition i rfl
    refine ⟨s.beginPrefetch (buildPrompt tradition i) (prefetchId tradition i), ?_, rfl⟩
    simp only [step]
    rw [if_neg]
    rw [Std.ExtTreeMap.contains_eq_isSome_getElem?, h]
    decide

/-- A step that writes only AI images keeps the memory cache free of others. -/
theorem onlyAI_step {s s' : ImageCalls} {m : ImageMove} (hs : s.step m = some s') (hAI : OnlyAI s)
    (hm : Delivers s m s') : OnlyAI s' := by
  intro cacheKey image h
  rcases entry_step hs h with ⟨hold, -⟩ | ⟨hw, -⟩
  · exact hAI cacheKey image hold
  · cases hw with
    | file hj hfile =>
      unfold getCachedImageFromStorage at hfile
      split at hfile
      · obtain ⟨bytes, -, rfl⟩ := Option.map_eq_some_iff.mp hfile
        exact isAIImage_data _
      · cases hfile
    | new hj => exact isAIImage_generateNewImage.mpr (hm _ _ _ _ _ rfl hj)
    | prefetched hj hphoto =>
      rw [isAIImage_generateNewImage]
      by_contra hfail
      obtain ⟨id, hid⟩ := exists_photo_of_not_succeeds hfail _ _
      rw [hid, contains_photo] at hphoto
      cases hphoto

/-- A failed request of a prefetch leaves the memory cache as it was. -/
theorem images_of_fails {s s' : ImageCalls} {m : ImageMove} {prompt : String}
    (hs : s.step m = some s') (hm : Delivers s m s') (hf : Fails s m prompt) :
    s'.images = s.images := by
  obtain ⟨j, reply, millis, writable, stage, rfl, hj, hfail⟩ := hf
  simp only [step] at hs
  split at hs
  · rename_i prompt' hj'
    exact absurd (hm j reply millis writable prompt' rfl hj') hfail
  · rename_i prompt' quoteId hj'
    split at hs
    · obtain rfl := Option.some.inj hs
      rfl
    · rename_i hphoto
      obtain ⟨id, hid⟩ := exists_photo_of_not_succeeds hfail prompt' millis
      rw [hid, contains_photo] at hphoto
      exact absurd rfl hphoto
  · cases hs

/-- What a call of `generateImage` receives is in the memory cache. -/
theorem getElem?_of_answer {s s' : ImageCalls} {j : ℕ} {reply : Reply (Option Plain)} {millis : ℕ}
    {writable : Bool} {prompt : String} (hj : s.calls[j]? = some ⟨prompt, .generating⟩)
    (hs : s.step (.answer j reply millis writable) = some s') :
    s'.images.imageCache[generateCacheKey prompt]? =
      some (generateNewImage s.key prompt reply millis) := by
  simp only [step] at hs
  rw [hj] at hs
  obtain rfl := Option.some.inj hs
  show (Images.saveImageToStorage _ _ _ _).imageCache[_]? = _
  rw [imageCache_saveImageToStorage]
  exact Box.getElem?_put_self _ _ _

theorem uncached_step_iff {s s' : ImageCalls} {m : ImageMove} (hAI : OnlyAI s)
    (hs : s.step m = some s') : Uncached s m s' ↔ Delivers s m s' := by
  constructor
  · intro h j reply millis writable prompt hm hj
    subst hm
    exact isAIImage_generateNewImage.mp (h.cached _ _ (getElem?_of_answer hj hs))
  · intro hm
    refine ⟨onlyAI_step hs hAI hm, fun prompt hf hmissing => again_of_missing ?_⟩
    rw [images_of_fails hs hm hf]
    exact hmissing

/-- **A failure is not cached** in a run exactly when every call of `generateImage` that gets to the
API is answered with an image. -/
theorem uncached_iff (key : EnvEntry) (files : Box (List UInt8)) (cachedImages : Box Val)
    (moves : List ImageMove) :
    Run.Each step Uncached (launched key files cachedImages) moves ↔
      Run.Each step Delivers (launched key files cachedImages) moves := by
  exact Run.each_iff_of_invariant (I := OnlyAI) (Q := Uncached) (P := Delivers)
    (fun s m s' hAI hs => uncached_step_iff hAI hs)
    (fun s m s' hAI hs hm => onlyAI_step hs hAI hm) moves _
    (onlyAI_launched key files cachedImages)

end

/-! ## A cached failure -/

/-- A call fails, and the next one is for the same prompt. -/
def failedMoves : List ImageMove :=
  [.ask "zen", .read 0 true, .answer 0 .throws 0 true, .ask "zen"]

/-- The second call returns the photo, with one request so far. -/
theorem not_uncached_zen :
    (∃ s, Run.final (@step CaseMap.ascii) (launched fullKey ∅ ∅) failedMoves = some s ∧
      s.images.requests = ["zen"] ∧
      s.returned = some ("zen", photo "1506744038136-46273834b3fb")) ∧
    ¬ Run.Each (@step CaseMap.ascii) (@Uncached CaseMap.ascii) (launched fullKey ∅ ∅)
      failedMoves := by
  refine ⟨⟨_, rfl, rfl, rfl⟩, fun hE => ?_⟩
  have hcached : ∃ s, Run.final (@step CaseMap.ascii) (launched fullKey ∅ ∅) failedMoves = some s ∧
      s.images.imageCache["zen"]? = some (photo "1506744038136-46273834b3fb") := ⟨_, rfl, rfl⟩
  obtain ⟨s, hs, hzen⟩ := hcached
  have hAI : OnlyAI s := by
    have hstep : Run.Each (@step CaseMap.ascii) (fun _ _ s' => OnlyAI s') _ failedMoves :=
      hE.imp fun _ _ _ h => @Uncached.cached CaseMap.ascii _ _ _ h
    exact Run.Each.final hstep (onlyAI_launched _ _ _) hs
  have h := hAI "zen" _ hzen
  rw [isAIImage_photo] at h
  cases h

end ImageCalls

end MotiAI
