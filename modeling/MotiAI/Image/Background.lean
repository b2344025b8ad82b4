import MotiAI.Image.Service
import MotiAI.QuoteScreen

/-!
# Background images

`_generateBackgroundImage`: the screen picks one of eight keys of the quote's tradition, shows the
image stored under it, and without one asks the image service for a new image. The prefetch stores
its images in the same box.

`prefetch_unseen`: the prefetch and the screen never agree on a key, so a prefetch changes nothing
of what the screen finds, and a screen that found no image before it still requests one.
-/

namespace MotiAI

open Dart Hive HiveQuoteService

namespace BackgroundPrefetchService

/-- The callback `startBackgroundPrefetch` hands to `preFetchImages`. -/
def onImageGenerated (quoteId imageData : String) (b : Box Val) : Box Val :=
  storeGeneratedImage quoteId imageData b

/-- The image half of `startBackgroundPrefetch`, which needs `STABILITY_API_KEY`. -/
def prefetchImages [CaseMap] (hasKey : Bool) (turns : String → Fin 8 → ImageTurn)
    (s : Images × Box Val) : Images × Box Val :=
  if hasKey then Images.preFetchImages onImageGenerated turns s else s

end BackgroundPrefetchService

/-- The screen, the box of images and the image service. -/
structure Background where
  screen : QuoteScreen := {}
  cachedImages : Box Val := ∅
  images : Images := {}

namespace Background

/-- The image half of `startBackgroundPrefetch`, run to its end. -/
def prefetch [CaseMap] (hasKey : Bool) (turns : String → Fin 8 → ImageTurn) (d : Background) :
    Background :=
  let s := BackgroundPrefetchService.prefetchImages hasKey turns (d.images, d.cachedImages)
  { d with images := s.1, cachedImages := s.2 }

theorem toList_toString_index (i : Fin 8) : ∃ c, (toString (i.val + 1)).toList = [c] := by
  have h : ∀ i : Fin 8, (toString (i.val + 1)).toList.length = 1 := by decide
  exact List.length_eq_one_iff.mp (h i)

section

variable [CaseMap]

/-- `'\\${traditionKey}_image_\\${i+1}'`, where `\\` is one backslash. -/
def imageKey (tradition : String) (i : Fin 8) : String :=
  "\\" ++ replaceChar ' ' '_' (toLowerCase tradition) ++ "_image_\\" ++ toString (i.val + 1)

def allImageKeys (tradition : String) : List String := (List.finRange 8).map (imageKey tradition)

/-- The key to look up, and the shown keys, which are cleared when all eight are among them. -/
def selectImageKey (tradition : String) (shuffle : Shuffle String) (shown : Finset String) :
    Option String × Finset String :=
  let unused := (allImageKeys tradition).filter fun k => k ∉ shown
  if unused ≠ [] then (shuffle.first unused, shown)
  else (shuffle.first (allImageKeys tradition), ∅)

/-- The branch for a stored image. The background prefetch it starts once is `prefetch`. -/
def showStored (quote : Quote) (key image : String) (d : Background) : Background :=
  { d with
    screen := { d.screen with
      backgroundImageUrl := some image
      shownImageKeys := insert key d.screen.shownImageKeys
      backgroundPrefetchStarted := true }
    cachedImages := storeGeneratedImage quote.id image d.cachedImages }

/-- The branch for no stored image; `millis` is the clock that chooses the variation. -/
def requestImage (quote : Quote) (millis : ℕ) (t : ImageTurn) (d : Background) : Background :=
  let prompt := buildPrompt (quote.tradition ++ " " ++ quote.category) (Fin.ofNat 8 millis)
  match d.images.generateImage prompt t with
  | (.image url, images) =>
    if contains url "unsplash.com" then
      { d with images := images, screen := { d.screen with backgroundImageUrl := none } }
    else
      { d with
        images := images
        screen := { d.screen with backgroundImageUrl := some url }
        cachedImages := storeGeneratedImage quote.id url d.cachedImages }
  | (.null, images) =>
    { d with images := images, screen := { d.screen with backgroundImageUrl := none } }
  | (.throws, images) => { d with images := images }

/-- The prompt of `requestImage`. -/
def imagePrompt (quote : Quote) (millis : ℕ) : String :=
  buildPrompt (quote.tradition ++ " " ++ quote.category) (Fin.ofNat 8 millis)

/-- The state in which the stored image is looked up, and the key. -/
def beginBackground (quote : Quote) (shuffle : Shuffle String) (d : Background) :
    Option String × Background :=
  let (key, shown) := selectImageKey quote.tradition shuffle d.screen.shownImageKeys
  (key, { d with
    screen := { d.screen with backgroundImageUrl := none, shownImageKeys := shown } })

/-- `_generateBackgroundImage` after the ambience. A stored value that is no text throws. -/
def generateBackgroundImage (quote : Quote) (shuffle : Shuffle String) (millis : ℕ) (t : ImageTurn)
    (d : Background) : Background :=
  match beginBackground quote shuffle d with
  | (none, d) => d
  | (some key, d) =>
    match getStoredImage key d.cachedImages with
    | none => d
    | some (some image) => showStored quote key image d
    | some none => requestImage quote millis t d

/-! ## The two key formats -/

/-- Before the last character of a looked-up key stands a backslash, before that of a prefetched id
an underscore. -/
theorem prefetchId_ne_imageKey (theme tradition : String) (i j : Fin 8) :
    Images.prefetchId theme i ≠ imageKey tradition j := by
  intro h
  obtain ⟨c, hc⟩ := toList_toString_index i
  obtain ⟨d, hd⟩ := toList_toString_index j
  have hl := congrArg String.toList h
  unfold Images.prefetchId imageKey at hl
  rw [String.toList_append, String.toList_append (t := toString (j.val + 1)), hc, hd] at hl
  have hinit := List.append_inj_left' hl rfl
  have hlast := congrArg List.getLast? hinit
  rw [String.toList_append, String.toList_append] at hlast
  rw [show "_image_".toList = "_image".toList ++ ['_'] from rfl,
    show "_image_\\".toList = "_image_".toList ++ ['\\'] from rfl, ← List.append_assoc,
    ← List.append_assoc, List.getLast?_concat, List.getLast?_concat] at hlast
  exact absurd (Option.some.inj hlast) (by decide)

theorem prefetchId_notMem_allImageKeys (theme tradition : String) (i : Fin 8) :
    Images.prefetchId theme i ∉ allImageKeys tradition := by
  intro h
  obtain ⟨j, -, hj⟩ := List.mem_map.mp h
  exact prefetchId_ne_imageKey theme tradition i j hj.symm

theorem mem_allImageKeys_of_select {tradition : String} {shuffle : Shuffle String}
    {shown : Finset String} {key : String}
    (h : (selectImageKey tradition shuffle shown).1 = some key) : key ∈ allImageKeys tradition := by
  unfold selectImageKey at h
  dsimp only at h
  split at h
  · exact List.mem_of_mem_filter (Shuffle.first_mem h)
  · exact Shuffle.first_mem h

/-- Some key is always selected. -/
theorem exists_select (tradition : String) (shuffle : Shuffle String) (shown : Finset String) :
    ∃ key ∈ allImageKeys tradition, (selectImageKey tradition shuffle shown).1 = some key := by
  have hall : allImageKeys tradition ≠ [] := List.cons_ne_nil _ _
  have hsome : ∃ key, (selectImageKey tradition shuffle shown).1 = some key := by
    unfold selectImageKey
    dsimp only
    split
    · rename_i hne
      obtain ⟨key, -, hk⟩ := Shuffle.exists_first shuffle hne
      exact ⟨key, hk⟩
    · obtain ⟨key, -, hk⟩ := Shuffle.exists_first shuffle hall
      exact ⟨key, hk⟩
  obtain ⟨key, hk⟩ := hsome
  exact ⟨key, mem_allImageKeys_of_select hk, hk⟩

/-! ## What a prefetch changes -/

/-- A prefetch leaves the entries under the looked-up keys of every tradition as they were. -/
theorem getElem?_prefetch {tradition key : String} (hk : key ∈ allImageKeys tradition)
    (hasKey : Bool) (turns : String → Fin 8 → ImageTurn) (d : Background) :
    (d.prefetch hasKey turns).cachedImages[key]? = d.cachedImages[key]? := by
  have hcall : ∀ (theme : String) (i : Fin 8) (image : String) (b : Box Val),
      b[key]? = d.cachedImages[key]? →
        (BackgroundPrefetchService.onImageGenerated (Images.prefetchId theme i) image b)[key]? =
          d.cachedImages[key]? := by
    intro theme i image b hb
    have hne : Images.prefetchId theme i ≠ key := by
      rintro rfl
      exact prefetchId_notMem_allImageKeys theme tradition i hk
    exact (Box.getElem?_put_of_ne b hne _).trans hb
  unfold prefetch BackgroundPrefetchService.prefetchImages
  cases hasKey with
  | false => rfl
  | true =>
    simp only [↓reduceIte]
    exact Images.preFetchImages_callback (P := fun b : Box Val => b[key]? = d.cachedImages[key]?)
      hcall turns rfl

theorem beginBackground_of_select {quote : Quote} {shuffle : Shuffle String} {d : Background}
    {key : String}
    (h : (selectImageKey quote.tradition shuffle d.screen.shownImageKeys).1 = some key) :
    beginBackground quote shuffle d = (some key, (beginBackground quote shuffle d).2) := by
  rw [← h]
  rfl

/-- With no image under the looked-up keys the screen requests one. -/
theorem generateBackgroundImage_eq_request {quote : Quote} {shuffle : Shuffle String} {millis : ℕ}
    {t : ImageTurn} {d : Background}
    (h : ∀ key ∈ allImageKeys quote.tradition, d.cachedImages[key]? = none) :
    generateBackgroundImage quote shuffle millis t d =
      requestImage quote millis t (beginBackground quote shuffle d).2 := by
  obtain ⟨key, hkey, hsel⟩ := exists_select quote.tradition shuffle d.screen.shownImageKeys
  have hstored : getStoredImage key (beginBackground quote shuffle d).2.cachedImages =
      some none := by
    unfold getStoredImage
    rw [show (beginBackground quote shuffle d).2.cachedImages = d.cachedImages from rfl, h key hkey]
  unfold generateBackgroundImage
  rw [beginBackground_of_select hsel]
  dsimp only
  rw [hstored]

/-- A service that holds nothing in memory and can read no file contacts the API. -/
theorem requests_generateImage {prompt : String} {t : ImageTurn} {images : Images}
    (hmem : images.imageCache = ∅) (hread : t.readable = false) :
    (images.generateImage prompt t).2.requests = images.requests ++ [prompt] := by
  unfold Images.generateImage
  dsimp only
  rw [Box.eq_empty_iff.mp hmem (Images.generateCacheKey prompt)]
  unfold Images.generateUncached Images.getCachedImageFromStorage Images.generateNewImage
  rw [hread]
  cases t.generated with
  | image newImage => exact Images.requests_saveImageToStorage _ _ _ _
  | null => rfl
  | throws => rfl

theorem requests_requestImage {quote : Quote} {millis : ℕ} {t : ImageTurn} {d : Background}
    (hmem : d.images.imageCache = ∅) (hread : t.readable = false) :
    (requestImage quote millis t d).images.requests = d.images.requests ++
      [buildPrompt (quote.tradition ++ " " ++ quote.category) (Fin.ofNat 8 millis)] := by
  rw [← requests_generateImage hmem hread]
  unfold requestImage
  dsimp only
  -- however the call ends, the screen keeps the service it leaves
  cases d.images.generateImage
      (buildPrompt (quote.tradition ++ " " ++ quote.category) (Fin.ofNat 8 millis)) t with
  | mk answer images =>
    cases answer with
    | image url =>
      dsimp only
      split
      · rfl
      · rfl
    | null => rfl
    | throws => rfl

/-- **Prefetched images are never found.** No prefetched id is a key the screen looks up; after a
prefetch the box holds under these keys what it held before; and where it held nothing, the screen
requests a new image, for every quote, every set of shown keys and every shuffle. -/
theorem prefetch_unseen (tradition : String) :
    (∀ i, Images.prefetchId (tradition ++ " Inspiration") i ∉ allImageKeys tradition) ∧
    ∀ (hasKey : Bool) (turns : String → Fin 8 → ImageTurn) (d : Background),
      (∀ key ∈ allImageKeys tradition,
        (d.prefetch hasKey turns).cachedImages[key]? = d.cachedImages[key]?) ∧
      ∀ (quote : Quote) (shuffle : Shuffle String) (millis : ℕ) (t : ImageTurn),
        quote.tradition = tradition →
        (∀ key ∈ allImageKeys tradition, d.cachedImages[key]? = none) →
        generateBackgroundImage quote shuffle millis t (d.prefetch hasKey turns) =
          requestImage quote millis t
            (beginBackground quote shuffle (d.prefetch hasKey turns)).2 := by
  refine ⟨prefetchId_notMem_allImageKeys _ tradition, fun hasKey turns d => ⟨fun key hk => ?_, ?_⟩⟩
  · exact getElem?_prefetch hk hasKey turns d
  · rintro quote shuffle millis t rfl hnone
    refine generateBackgroundImage_eq_request fun key hk => ?_
    rw [getElem?_prefetch hk]
    exact hnone key hk

end

/-! ## Zen -/

def zenQuote : Quote := ⟨"zen_1", "", "", "Zen", "Wisdom", "", none⟩

/-- A request that succeeds, where the file system works or not. -/
def generated (files : Bool) : ImageTurn :=
  ⟨0, 0, files, files, .image "data:image/png;base64,AAAA"⟩

/-- A prefetch from an empty box in which every request succeeds, and then a quote of Zen. -/
theorem prefetch_unseen_zen :
    @generateBackgroundImage CaseMap.ascii zenQuote .keep 0 (generated true)
        (@prefetch CaseMap.ascii true (fun _ _ => generated true) {}) =
      @requestImage CaseMap.ascii zenQuote 0 (generated true) (@beginBackground CaseMap.ascii
        zenQuote .keep (@prefetch CaseMap.ascii true (fun _ _ => generated true) {})).2 :=
  ((@prefetch_unseen CaseMap.ascii "Zen").2 true _ {}).2 _ _ _ _ rfl
    fun key _ => Box.eq_empty_iff.mp rfl key

/-- The box when a prefetch has stored the eight images of Zen. -/
def zenImages [CaseMap] : Box Val :=
  Box.putAll ((List.finRange 8).map fun i =>
    (Images.prefetchId "Zen Inspiration" i, .str "data:image/png;base64,AAAA")) ∅

theorem getElem?_zenImages [CaseMap] (i : Fin 8) :
    zenImages[Images.prefetchId "Zen Inspiration" i]? =
      some (.str "data:image/png;base64,AAAA") := by
  unfold zenImages
  have hkey := List.mem_map_of_mem (f := fun i : Fin 8 =>
    ((Images.prefetchId "Zen Inspiration" i, .str "data:image/png;base64,AAAA") : String × Val))
    (List.mem_finRange i)
  obtain ⟨v, hv⟩ := Box.exists_getElem?_putAll hkey ∅
  rcases Box.getElem?_putAll hv with hmem | hempty
  · obtain ⟨j, -, hj⟩ := List.mem_map.mp hmem
    obtain ⟨-, rfl⟩ := Prod.mk.inj hj
    exact hv
  · exact absurd hempty (by simp)

/-- The images of Zen are in the box under the ids of a prefetch, and the service has been restarted
without its files: a quote of Zen looks up other keys, and the API is contacted. -/
theorem not_found_zen :
    @Images.prefetchId CaseMap.ascii "Zen Inspiration" 0 ∉ @allImageKeys CaseMap.ascii "Zen" ∧
    (∀ i, (@zenImages CaseMap.ascii)[@Images.prefetchId CaseMap.ascii "Zen Inspiration" i]? =
      some (.str "data:image/png;base64,AAAA")) ∧
    (@generateBackgroundImage CaseMap.ascii zenQuote .keep 0 (generated false)
        { cachedImages := @zenImages CaseMap.ascii }).images.requests =
      [@buildPrompt CaseMap.ascii ("Zen" ++ " " ++ "Wisdom") 0] := by
  refine ⟨@prefetchId_notMem_allImageKeys CaseMap.ascii _ "Zen" 0,
    @getElem?_zenImages CaseMap.ascii, ?_⟩
  rw [@generateBackgroundImage_eq_request CaseMap.ascii]
  · exact @requests_requestImage CaseMap.ascii _ 0 _ _ rfl rfl
  · decide +kernel

end Background

end MotiAI
