import MotiAI.Image.Failures
import MotiAI.Image.Prefetch
import MotiAI.Image.PromptChoice

/-!
# Clearing a theme

`clearCachedImagesForTheme` takes the image of one variation of a theme out of the memory cache and
deletes its file. The timestamps stay, and so do the images of the other variations.

1. `sameKeys_run`: whatever the calls do, the memory cache and its timestamps have the same keys.
2. `cleared_iff`: when nothing of a theme is left.
-/

namespace MotiAI

open Dart Hive

/-- `clearCachedImagesForTheme`, which catches what the file operations throw. It builds the prompt
without a variation, which is the first. -/
def Images.clearCachedImagesForTheme [CaseMap] (theme : String) (deletable : Bool) (s : Images) :
    Images :=
  let cacheKey := Images.generateCacheKey (buildPrompt theme ⟨0, by decide⟩)
  { s with
    imageCache := s.imageCache.erase cacheKey
    imageFiles := if deletable then s.imageFiles.erase cacheKey else s.imageFiles }

namespace ImageCalls

open Images StabilityAI

/-- The memory cache and its timestamps have the same keys. -/
def SameKeys (s : Images) : Prop := ∀ cacheKey : String,
  cacheKey ∈ s.imageCache ↔ cacheKey ∈ s.cacheTimestamps

section

variable [CaseMap]

/-- A theme is cleared, and the file operations succeed. -/
def clear (theme : String) (s : ImageCalls) : ImageCalls :=
  { s with images := s.images.clearCachedImagesForTheme theme true, returned := none }

/-- Nothing of the theme is left, its prompts are asked for again, and the keys still agree. -/
structure Cleared (theme : String) (s : ImageCalls) : Prop where
  memory : ∀ v, itemKey (theme, v) ∉ s.images.imageCache
  timestamps : ∀ v, itemKey (theme, v) ∉ s.images.cacheTimestamps
  files : ∀ v, itemKey (theme, v) ∉ s.images.imageFiles
  again : ∀ v, Again (buildPrompt theme v) s
  sameKeys : SameKeys s.images

/-! ## The keys of the two maps -/

omit [CaseMap] in
theorem SameKeys.forget {s : Images} (h : SameKeys s) (cacheKey : String) :
    SameKeys (s.forget cacheKey) := by
  intro k
  unfold Images.forget
  rw [Box.mem_delete, Box.mem_delete, h k]

omit [CaseMap] in
theorem SameKeys.remember {s : Images} (h : SameKeys s) (cacheKey image : String) (now : ℤ) :
    SameKeys (s.remember cacheKey image now) := by
  intro k
  unfold Images.remember
  rw [Box.mem_put, Box.mem_put, h k]

omit [CaseMap] in
theorem SameKeys.saveImageToStorage {s : Images} (h : SameKeys s) (cacheKey imageData : String)
    (writable : Bool) : SameKeys (s.saveImageToStorage cacheKey imageData writable) := by
  intro k
  rw [imageCache_saveImageToStorage, cacheTimestamps_saveImageToStorage]
  exact h k

theorem SameKeys.store {s : ImageCalls} (h : SameKeys s.images) (prompt image : String)
    (writable : Bool) : SameKeys (s.store prompt image writable).images :=
  (h.remember _ _ _).saveImageToStorage _ _ _

/-- Whatever a move does, it does to the memory cache and its timestamps. -/
theorem sameKeys_step {s s' : ImageCalls} {m : ImageMove} (hs : s.step m = some s')
    (h : SameKeys s.images) : SameKeys s'.images := by
  cases m with
  | tick duration =>
    obtain rfl := Option.some.inj hs
    exact h
  | ask prompt =>
    simp only [step] at hs
    split at hs
    · split at hs
      · obtain rfl := Option.some.inj hs
        exact h
      · obtain rfl := Option.some.inj hs
        exact h.forget _
    · obtain rfl := Option.some.inj hs
      exact h
  | read j readable =>
    simp only [step] at hs
    split at hs
    · split at hs
      · obtain rfl := Option.some.inj hs
        exact h.remember _ _ _
      · obtain rfl := Option.some.inj hs
        exact h
    · cases hs
  | prefetch tradition i =>
    simp only [step] at hs
    split at hs
    · obtain rfl := Option.some.inj hs
      exact h
    · obtain rfl := Option.some.inj hs
      exact h
  | answer j reply millis writable =>
    simp only [step] at hs
    split at hs
    · obtain rfl := Option.some.inj hs
      exact SameKeys.store (s := s.receive _ _ _ _) h _ _ _
    · split at hs
      · obtain rfl := Option.some.inj hs
        exact h
      · obtain rfl := Option.some.inj hs
        exact SameKeys.store (s := s.receive _ _ _ _) h _ _ _
    · cases hs
  | restart key =>
    obtain rfl := Option.some.inj hs
    exact fun k => iff_of_false Std.ExtTreeMap.not_mem_empty Std.ExtTreeMap.not_mem_empty

theorem sameKeys_run (key : EnvEntry) (files : Box (List UInt8)) (cachedImages : Box Val)
    {moves : List ImageMove} {s : ImageCalls}
    (hs : Run.final step (launched key files cachedImages) moves = some s) : SameKeys s.images := by
  have hlaunched : SameKeys (launched key files cachedImages).images :=
    fun k => iff_of_false Std.ExtTreeMap.not_mem_empty Std.ExtTreeMap.not_mem_empty
  have hsteps : Run.Each step (fun _ _ s' => SameKeys s'.images) (launched key files cachedImages)
      moves := by
    refine Run.each_of_invariant (I := fun s => SameKeys s.images) (P := fun _ _ _ => True)
      (fun s m s' h hstep _ => ?_) moves _ hlaunched ?_
    · exact ⟨sameKeys_step hstep h, sameKeys_step hstep h⟩
    · exact Run.each_of_forall_mem fun _ _ _ _ => trivial
  exact Run.Each.final (P := fun s => SameKeys s.images) hsteps hlaunched hs

/-! ## What is left -/

theorem mem_imageCache_clear {theme : String} {s : ImageCalls} {k : String} :
    k ∈ (s.clear theme).images.imageCache ↔
      itemKey (theme, ⟨0, by decide⟩) ≠ k ∧ k ∈ s.images.imageCache :=
  Box.mem_delete

theorem mem_imageFiles_clear {theme : String} {s : ImageCalls} {k : String} :
    k ∈ (s.clear theme).images.imageFiles ↔
      itemKey (theme, ⟨0, by decide⟩) ≠ k ∧ k ∈ s.images.imageFiles :=
  Box.mem_delete

/-- Without an image of the theme in memory, and with at most the file of its first variation, nothing
is left. -/
theorem cleared_of_notMem {theme : String} {s : ImageCalls} (hkeys : SameKeys s.images)
    (hmemory : ∀ v, itemKey (theme, v) ∉ s.images.imageCache)
    (hfiles : ∀ v, v ≠ ⟨0, by decide⟩ → itemKey (theme, v) ∉ s.images.imageFiles) :
    Cleared theme (s.clear theme) := by
  have hcleared : ∀ v, itemKey (theme, v) ∉ (s.clear theme).images.imageCache :=
    fun v hmem => hmemory v (mem_imageCache_clear.mp hmem).2
  refine ⟨hcleared, fun v hmem => hmemory v ((hkeys _).mpr hmem), fun v hmem => ?_,
    fun v => again_of_missing (Std.ExtTreeMap.getElem?_eq_none (hcleared v)), fun k => ?_⟩
  · obtain ⟨hne, hfile⟩ := mem_imageFiles_clear.mp hmem
    exact hfiles v (fun hv => hne (by rw [hv])) hfile
  · rw [mem_imageCache_clear]
    constructor
    · exact fun h => (hkeys k).mp h.2
    · intro h
      refine ⟨?_, (hkeys k).mpr h⟩
      rintro rfl
      exact hmemory _ ((hkeys _).mpr h)

/-- **When a theme is cleared.** After any calls, nothing of a theme is left exactly when none of its
images was in memory, and none but the first variation had a file. -/
theorem cleared_iff (key : EnvEntry) (files : Box (List UInt8)) (cachedImages : Box Val)
    {moves : List ImageMove} {s : ImageCalls}
    (hs : Run.final step (launched key files cachedImages) moves = some s) (theme : String) :
    Cleared theme (s.clear theme) ↔
      (∀ v, itemKey (theme, v) ∉ s.images.imageCache) ∧
        ∀ v, v ≠ ⟨0, by decide⟩ → itemKey (theme, v) ∉ s.images.imageFiles := by
  have hkeys := sameKeys_run key files cachedImages hs
  constructor
  · intro h
    refine ⟨fun v hmem => h.timestamps v ((hkeys _).mp hmem), fun v hv hmem => h.files v ?_⟩
    exact mem_imageFiles_clear.mpr ⟨fun hkey => hv (cacheKey_inj theme hkey).symm, hmem⟩
  · rintro ⟨hmemory, hfiles⟩
    exact cleared_of_notMem hkeys hmemory hfiles

end

/-! ## One image -/

/-- A first call, which receives an image but cannot write its file. -/
def firstMoves (prompt : String) : List ImageMove :=
  [.ask prompt, .read 0 true, .answer 0 (imageReply "QUJD") 0 false]

theorem final_firstMoves [CaseMap] (prompt : String) : ∃ s,
    Run.final step (launched fullKey ∅ ∅) (firstMoves prompt) = some s ∧
      (∀ k, k ∈ s.images.imageCache ↔ generateCacheKey prompt = k) ∧ s.images.imageFiles = ∅ := by
  have hput {k image : String} :
      k ∈ (∅ : Box String).insert (generateCacheKey prompt) image ↔ generateCacheKey prompt = k :=
    Box.mem_put.trans (or_iff_left Std.ExtTreeMap.not_mem_empty)
  exact ⟨_, rfl, fun k => hput, rfl⟩

/-- After an image for Zen, the theme of Sufi is cleared. -/
theorem cleared_sufi : ∃ s,
    Run.final (@step CaseMap.ascii) (launched fullKey ∅ ∅)
      (firstMoves (@buildPrompt CaseMap.ascii "Zen Inspiration" ⟨1, by decide⟩)) = some s ∧
      @Cleared CaseMap.ascii "Sufi Inspiration" (@clear CaseMap.ascii "Sufi Inspiration" s) := by
  obtain ⟨s, hs, hcache, hfiles⟩ := @final_firstMoves CaseMap.ascii
    (@buildPrompt CaseMap.ascii "Zen Inspiration" ⟨1, by decide⟩)
  refine ⟨s, hs, (@cleared_iff CaseMap.ascii fullKey ∅ ∅ _ s hs "Sufi Inspiration").mpr ⟨?_, ?_⟩⟩
  · intro v hmem
    have hitem : (("Zen Inspiration", ⟨1, by decide⟩) : String × Fin 8) = ("Sufi Inspiration", v) :=
      List.inj_on_of_nodup_map (@nodup_items_cacheKey CaseMap.ascii)
        (mem_items.mpr (by simp [traditions])) (mem_items.mpr (by simp [traditions]))
        ((hcache _).mp hmem)
    have hname : "Zen Inspiration" = "Sufi Inspiration" := congrArg Prod.fst hitem
    exact absurd hname (by decide)
  · intro v _
    rw [hfiles]
    exact Std.ExtTreeMap.not_mem_empty

/-- After an image for a theme, the theme is not cleared: of the first variation the timestamp stays, of
another one everything. -/
theorem not_cleared_own [CaseMap] (theme : String) (v : Fin 8) : ∃ s,
    Run.final step (launched fullKey ∅ ∅) (firstMoves (buildPrompt theme v)) = some s ∧
      ¬ Cleared theme (s.clear theme) := by
  obtain ⟨s, hs, hcache, -⟩ := final_firstMoves (buildPrompt theme v)
  refine ⟨s, hs, fun h => ?_⟩
  exact h.timestamps v ((sameKeys_run fullKey ∅ ∅ hs _).mp ((hcache _).mpr rfl))

/-- The second variation of Zen stays. -/
theorem not_cleared_zen : ∃ s,
    Run.final (@step CaseMap.ascii) (launched fullKey ∅ ∅)
      (firstMoves (@buildPrompt CaseMap.ascii "Zen Inspiration" ⟨1, by decide⟩)) = some s ∧
      ¬ @Cleared CaseMap.ascii "Zen Inspiration" (@clear CaseMap.ascii "Zen Inspiration" s) :=
  @not_cleared_own CaseMap.ascii "Zen Inspiration" ⟨1, by decide⟩

end ImageCalls

end MotiAI
