import MotiAI.Image.Api
import MotiAI.Image.PrefetchKeys

/-!
# A whole prefetch

A prefetch takes the items one by one; an item whose cache key is in memory is skipped, together with
its callback, whichever call has put it there.

1. `mem_preFetchItems`: the cache keys in memory after a prefetch.
2. `holds_preFetchItems`: the ids under which the callback has stored an image.
3. `complete_iff`: when all requests succeed, the box of images is complete exactly when every item
   that was not in the box was not in memory either.
4. `not_complete_zenWisdom`: an image shown for a Zen quote is missing in the box.
-/

namespace MotiAI

open Dart Hive

namespace Images

open StabilityAI BackgroundPrefetchService

/-- The box holds an image under the id. -/
def Holds (b : Box Val) (quoteId : String) : Prop := ∃ image, b[quoteId]? = some (.str image)

theorem holds_onImageGenerated {quoteId id image : String} {b : Box Val} :
    Holds (onImageGenerated quoteId image b) id ↔ Holds b id ∨ quoteId = id := by
  unfold Holds onImageGenerated HiveQuoteService.storeGeneratedImage
  rw [Box.getElem?_put]
  by_cases h : quoteId = id
  · simp [h]
  · simp [h]

section

variable [CaseMap]

/-- The cache key of an item. -/
def itemKey (e : String × Fin 8) : String := generateCacheKey (buildPrompt e.1 e.2)

/-- The generator brings an image that is no photo of unsplash.com. -/
def Accepts (t : ImageTurn) : Prop :=
  ∃ image, t.generated = .image image ∧ contains image "unsplash.com" = false

/-- The call of the generator for an item. -/
def request (e : String × Fin 8) (s : Images) : Images :=
  { s with requests := s.requests ++ [buildPrompt e.1 e.2] }

section

variable {σ : Type} (onImageGenerated : String → String → σ → σ)

/-- Some of the items, in their order. -/
def preFetchItems (turns : String → Fin 8 → ImageTurn) (l : List (String × Fin 8))
    (s : Images × σ) : Images × σ :=
  l.foldl (fun s e => preFetchImage onImageGenerated e.1 e.2 (turns e.1 e.2) s) s

/-- The two loops of a prefetch go through its items. -/
theorem preFetchImages_eq (turns : String → Fin 8 → ImageTurn) (s : Images × σ) :
    preFetchImages onImageGenerated turns s = preFetchItems onImageGenerated turns items s := by
  unfold preFetchImages preFetchItems items
  rw [List.foldl_flatMap]
  simp only [List.foldl_map]

/-- The three things a turn can do: nothing, a request without an image, or a request whose image is
remembered, saved and handed to the callback. -/
theorem preFetchImage_cases (e : String × Fin 8) (t : ImageTurn) (s : Images × σ) :
    (itemKey e ∈ s.1.imageCache ∧ preFetchImage onImageGenerated e.1 e.2 t s = s) ∨
    (itemKey e ∉ s.1.imageCache ∧ ¬ Accepts t ∧
      preFetchImage onImageGenerated e.1 e.2 t s = (request e s.1, s.2)) ∨
    (itemKey e ∉ s.1.imageCache ∧ Accepts t ∧ ∃ image,
      preFetchImage onImageGenerated e.1 e.2 t s =
        (((request e s.1).remember (itemKey e) image t.received).saveImageToStorage (itemKey e)
          image t.writable, onImageGenerated (prefetchId e.1 e.2) image s.2)) := by
  unfold preFetchImage
  dsimp only
  split
  · rename_i hmem
    exact Or.inl ⟨Std.ExtTreeMap.contains_iff_mem.mp hmem, rfl⟩
  · rename_i hmem
    have hmissing : itemKey e ∉ s.1.imageCache :=
      fun h => hmem (Std.ExtTreeMap.contains_iff_mem.mpr h)
    cases hgen : t.generated with
    | image image =>
      cases hphoto : contains image "unsplash.com" with
      | true =>
        refine Or.inr (Or.inl ⟨hmissing, ?_, ?_⟩)
        · rintro ⟨image', heq, hno⟩
          obtain rfl := Generated.image.inj (hgen.symm.trans heq)
          rw [hphoto] at hno
          cases hno
        · simp only [Images.generateNewImage, hgen, hphoto]
          rfl
      | false =>
        refine Or.inr (Or.inr ⟨hmissing, ⟨image, hgen, hphoto⟩, image, ?_⟩)
        simp only [Images.generateNewImage, hgen, hphoto]
        rfl
    | null =>
      refine Or.inr (Or.inl ⟨hmissing, ?_, ?_⟩)
      · rintro ⟨image, heq, -⟩
        cases hgen.symm.trans heq
      · simp only [Images.generateNewImage, hgen]
        rfl
    | throws =>
      refine Or.inr (Or.inl ⟨hmissing, ?_, ?_⟩)
      · rintro ⟨image, heq, -⟩
        cases hgen.symm.trans heq
      · simp only [Images.generateNewImage, hgen]
        rfl

theorem mem_preFetchImage (e : String × Fin 8) (t : ImageTurn) (s : Images × σ) (cacheKey : String) :
    cacheKey ∈ (preFetchImage onImageGenerated e.1 e.2 t s).1.imageCache ↔
      cacheKey ∈ s.1.imageCache ∨ itemKey e = cacheKey ∧ Accepts t := by
  rcases preFetchImage_cases onImageGenerated e t s with ⟨hmem, h⟩ | ⟨hmissing, hno, h⟩ |
    ⟨hmissing, hyes, image, h⟩
  · rw [h]
    constructor
    · exact Or.inl
    · rintro (hold | ⟨rfl, -⟩)
      · exact hold
      · exact hmem
  · rw [h]
    exact ⟨Or.inl, fun hor => hor.resolve_right fun hand => hno hand.2⟩
  · rw [h, imageCache_saveImageToStorage]
    unfold remember request
    rw [Box.mem_put]
    exact ⟨fun hor => hor.symm.imp id fun heq => ⟨heq, hyes⟩,
      fun hor => hor.symm.imp And.left id⟩

/-- After a prefetch a cache key is in memory if it was before or an image was accepted for it. -/
theorem mem_preFetchItems (turns : String → Fin 8 → ImageTurn) (l : List (String × Fin 8))
    (s : Images × σ) (cacheKey : String) :
    cacheKey ∈ (preFetchItems onImageGenerated turns l s).1.imageCache ↔
      cacheKey ∈ s.1.imageCache ∨ ∃ e ∈ l, itemKey e = cacheKey ∧ Accepts (turns e.1 e.2) := by
  induction l generalizing s with
  | nil => simp [preFetchItems]
  | cons e l ih =>
    show cacheKey ∈ (preFetchItems onImageGenerated turns l
      (preFetchImage onImageGenerated e.1 e.2 (turns e.1 e.2) s)).1.imageCache ↔ _
    rw [ih, mem_preFetchImage, or_assoc]
    simp only [List.exists_mem_cons_iff]

/-- A prefetch whose items are all in memory does nothing. -/
theorem preFetchItems_of_mem (turns : String → Fin 8 → ImageTurn) {l : List (String × Fin 8)}
    {s : Images × σ} (h : ∀ e ∈ l, itemKey e ∈ s.1.imageCache) :
    preFetchItems onImageGenerated turns l s = s := by
  induction l with
  | nil => rfl
  | cons e l ih =>
    obtain ⟨he, hl⟩ := List.forall_mem_cons.mp h
    have hturn : preFetchImage onImageGenerated e.1 e.2 (turns e.1 e.2) s = s := by
      rcases preFetchImage_cases onImageGenerated e (turns e.1 e.2) s with ⟨-, h⟩ | ⟨hno, -⟩ |
        ⟨hno, -⟩
      · exact h
      · exact absurd he hno
      · exact absurd he hno
    show preFetchItems onImageGenerated turns l
      (preFetchImage onImageGenerated e.1 e.2 (turns e.1 e.2) s) = s
    rw [hturn]
    exact ih hl

/-- A prefetch that accepts nothing only calls the generator. -/
theorem preFetchItems_of_not_accepts {turns : String → Fin 8 → ImageTurn}
    {l : List (String × Fin 8)} (h : ∀ e ∈ l, ¬ Accepts (turns e.1 e.2)) (s : Images × σ) :
    ∃ requests, preFetchItems onImageGenerated turns l s =
      ({ s.1 with requests := requests }, s.2) := by
  induction l generalizing s with
  | nil => exact ⟨s.1.requests, rfl⟩
  | cons e l ih =>
    obtain ⟨he, hl⟩ := List.forall_mem_cons.mp h
    show ∃ requests, preFetchItems onImageGenerated turns l
      (preFetchImage onImageGenerated e.1 e.2 (turns e.1 e.2) s) = _
    rcases preFetchImage_cases onImageGenerated e (turns e.1 e.2) s with ⟨-, h⟩ | ⟨-, -, h⟩ |
      ⟨-, hyes, -⟩
    · rw [h]
      exact ih hl s
    · rw [h]
      exact ih hl _
    · exact absurd hyes he

theorem requests_preFetchImage (e : String × Fin 8) (t : ImageTurn) (s : Images × σ) :
    (preFetchImage onImageGenerated e.1 e.2 t s).1.requests =
      if itemKey e ∈ s.1.imageCache then s.1.requests
      else s.1.requests ++ [buildPrompt e.1 e.2] := by
  rcases preFetchImage_cases onImageGenerated e t s with ⟨hmem, h⟩ | ⟨hmissing, -, h⟩ |
    ⟨hmissing, -, image, h⟩
  · rw [h, if_pos hmem]
  · rw [h, if_neg hmissing]
    rfl
  · rw [h, if_neg hmissing, requests_saveImageToStorage]
    rfl

/-- The calls of the generator are only added to. -/
theorem requests_preFetchItems (turns : String → Fin 8 → ImageTurn) (l : List (String × Fin 8))
    (s : Images × σ) :
    s.1.requests.length ≤ (preFetchItems onImageGenerated turns l s).1.requests.length := by
  induction l generalizing s with
  | nil => exact le_refl _
  | cons e l ih =>
    refine le_trans ?_ (ih (preFetchImage onImageGenerated e.1 e.2 (turns e.1 e.2) s))
    rw [requests_preFetchImage]
    split
    · exact le_refl _
    · rw [List.length_append]
      omega

/-- A prefetch with an empty memory calls the generator. -/
theorem requests_preFetchImages (turns : String → Fin 8 → ImageTurn) {s : Images × σ}
    (h : s.1.imageCache = ∅) :
    s.1.requests.length < (preFetchImages onImageGenerated turns s).1.requests.length := by
  obtain ⟨e, l, hitems⟩ := List.exists_cons_of_ne_nil items_ne_nil
  have hmissing : itemKey e ∉ s.1.imageCache := h ▸ Std.ExtTreeMap.not_mem_empty
  rw [preFetchImages_eq, hitems]
  refine lt_of_lt_of_le ?_ (requests_preFetchItems onImageGenerated turns l
    (preFetchImage onImageGenerated e.1 e.2 (turns e.1 e.2) s))
  rw [requests_preFetchImage, if_neg hmissing, List.length_append, List.length_singleton]
  omega

end

/-! ## The box of images -/

theorem holds_preFetchImage (e : String × Fin 8) (t : ImageTurn) (s : Images × Box Val)
    (quoteId : String) :
    Holds (preFetchImage onImageGenerated e.1 e.2 t s).2 quoteId ↔
      Holds s.2 quoteId ∨
        prefetchId e.1 e.2 = quoteId ∧ Accepts t ∧ itemKey e ∉ s.1.imageCache := by
  rcases preFetchImage_cases onImageGenerated e t s with ⟨hmem, h⟩ | ⟨hmissing, hno, h⟩ |
    ⟨hmissing, hyes, image, h⟩
  · rw [h]
    exact ⟨Or.inl, fun hor => hor.resolve_right fun hand => hand.2.2 hmem⟩
  · rw [h]
    exact ⟨Or.inl, fun hor => hor.resolve_right fun hand => hno hand.2.1⟩
  · rw [h, holds_onImageGenerated]
    exact ⟨fun hor => hor.imp id fun heq => ⟨heq, hyes, hmissing⟩,
      fun hor => hor.imp id And.left⟩

/-- After a prefetch of items with different cache keys the box holds an image under the ids it did
before, and under those of the items accepted that were not in memory. -/
theorem holds_preFetchItems (turns : String → Fin 8 → ImageTurn) {l : List (String × Fin 8)}
    (hn : (l.map itemKey).Nodup) (s : Images × Box Val) (quoteId : String) :
    Holds (preFetchItems onImageGenerated turns l s).2 quoteId ↔
      Holds s.2 quoteId ∨ ∃ e ∈ l, prefetchId e.1 e.2 = quoteId ∧ Accepts (turns e.1 e.2) ∧
        itemKey e ∉ s.1.imageCache := by
  induction l generalizing s with
  | nil => simp [preFetchItems]
  | cons e l ih =>
    rw [List.map_cons, List.nodup_cons] at hn
    show Holds (preFetchItems onImageGenerated turns l
      (preFetchImage onImageGenerated e.1 e.2 (turns e.1 e.2) s)).2 quoteId ↔ _
    rw [ih hn.2, holds_preFetchImage, or_assoc, List.exists_mem_cons_iff]
    -- the turn of `e` leaves the other keys of memory as they were
    have hother : ∀ f ∈ l, (itemKey f ∉ (preFetchImage onImageGenerated e.1 e.2 (turns e.1 e.2)
        s).1.imageCache ↔ itemKey f ∉ s.1.imageCache) := by
      intro f hf
      have hne : itemKey e ≠ itemKey f := by
        intro heq
        apply hn.1
        rw [heq]
        exact List.mem_map_of_mem hf
      rw [mem_preFetchImage, not_or]
      exact ⟨And.left, fun h => ⟨h, fun hand => hne hand.1⟩⟩
    refine or_congr_right (or_congr_right ?_)
    refine exists_congr fun f => and_congr_right fun hf => ?_
    rw [hother f hf]

/-! ## When all requests succeed -/

/-- The turns of a prefetch whose requests get these replies. -/
def apiTurns (key : EnvEntry) (turns : String → Fin 8 → ApiTurn) : String → Fin 8 → ImageTurn :=
  fun tradition i => (turns tradition i).turn key (buildPrompt tradition i)

/-- Every request made is answered with an encoded image. -/
def AllSucceed (key : EnvEntry) (turns : String → Fin 8 → ApiTurn) (s : Images) : Prop :=
  ∀ e ∈ items, hasKey key = true → itemKey e ∉ s.imageCache →
    ∃ bytes, replyImage (turns e.1 e.2).reply = some (base64Encode bytes)

theorem accepts_of_reply {key : EnvEntry} {prompt : String} {t : ApiTurn} {bytes : List UInt8}
    (hkey : hasKey key = true) (h : replyImage t.reply = some (base64Encode bytes)) :
    Accepts (t.turn key prompt) :=
  ⟨_, congrArg Generated.image (generateNewImage_of_image hkey h), contains_data bytes⟩

theorem not_accepts_of_no_key {key : EnvEntry} (hkey : hasKey key = false) (prompt : String)
    (t : ApiTurn) : ¬ Accepts (t.turn key prompt) := by
  rintro ⟨image, heq, hno⟩
  have hfail : ¬ Succeeds key t.reply := fun h => Bool.false_ne_true (hkey.symm.trans h.1)
  obtain ⟨id, hid⟩ := exists_photo_of_not_succeeds hfail prompt t.millis
  obtain rfl := Generated.image.inj heq
  rw [hid, contains_photo] at hno
  cases hno

/-- Of the items that are not in memory, all are accepted with a key, and none without. -/
theorem accepts_iff_hasKey {key : EnvEntry} {turns : String → Fin 8 → ApiTurn} {s : Images}
    (h : AllSucceed key turns s) {e : String × Fin 8} (he : e ∈ items)
    (hmissing : itemKey e ∉ s.imageCache) :
    Accepts (apiTurns key turns e.1 e.2) ↔ hasKey key = true := by
  constructor
  · intro hyes
    by_contra hno
    exact not_accepts_of_no_key (eq_false_of_ne_true hno) _ _ hyes
  · intro hkey
    obtain ⟨bytes, hreply⟩ := h e he hkey hmissing
    exact accepts_of_reply hkey hreply

/-- The box holds an image for every theme and every variation. -/
def Complete (b : Box Val) : Prop :=
  ∀ tradition ∈ traditions, ∀ i : Fin 8, Holds b (prefetchId tradition i)

/-- The ids of the items in the box after a prefetch. -/
theorem holds_preFetchImages {key : EnvEntry} {turns : String → Fin 8 → ApiTurn}
    {s : Images × Box Val} (h : AllSucceed key turns s.1) {e : String × Fin 8} (he : e ∈ items) :
    Holds (preFetchImages onImageGenerated (apiTurns key turns) s).2 (prefetchId e.1 e.2) ↔
      Holds s.2 (prefetchId e.1 e.2) ∨ hasKey key = true ∧ itemKey e ∉ s.1.imageCache := by
  rw [preFetchImages_eq, holds_preFetchItems _ nodup_items_cacheKey]
  refine or_congr_right ⟨?_, ?_⟩
  · rintro ⟨f, hf, hid, hyes, hmissing⟩
    obtain rfl := prefetchId_inj hf he hid
    exact ⟨(accepts_iff_hasKey h hf hmissing).mp hyes, hmissing⟩
  · rintro ⟨hkey, hmissing⟩
    exact ⟨e, he, rfl, (accepts_iff_hasKey h he hmissing).mpr hkey, hmissing⟩

/-- **The box is complete after a prefetch** whose requests all succeed exactly when every item is in
the box before, or is requested: the key is usable and its cache key is not in memory. -/
theorem complete_iff (key : EnvEntry) (turns : String → Fin 8 → ApiTurn) (s : Images × Box Val)
    (h : AllSucceed key turns s.1) :
    Complete (preFetchImages onImageGenerated (apiTurns key turns) s).2 ↔
      ∀ e ∈ items, Holds s.2 (prefetchId e.1 e.2) ∨
        hasKey key = true ∧ itemKey e ∉ s.1.imageCache := by
  constructor
  · intro hcomplete e he
    exact (holds_preFetchImages h he).mp (hcomplete e.1 (mem_items.mp he) e.2)
  · intro hall tradition ht i
    have he : (tradition, i) ∈ items := mem_items.mpr ht
    exact (holds_preFetchImages h he).mpr (hall _ he)

end

/-! ## An image in memory -/

/-- Every request is answered with the bytes `ABC`. -/
def abcTurn : ApiTurn where
  asked := 0
  received := 0
  readable := true
  writable := true
  reply := imageReply "QUJD"
  millis := 0

theorem allSucceed_abcTurn [CaseMap] (key : EnvEntry) (s : Images) :
    AllSucceed key (fun _ _ => abcTurn) s :=
  fun _ _ _ _ => ⟨[65, 66, 67], rfl⟩

/-- The first prefetch of an installation fills the box. -/
theorem complete_first :
    @Complete CaseMap.ascii (@preFetchImages CaseMap.ascii _ onImageGenerated
      (@apiTurns CaseMap.ascii fullKey fun _ _ => abcTurn) ({}, ∅)).2 := by
  refine (@complete_iff CaseMap.ascii fullKey _ ({}, ∅) (@allSucceed_abcTurn CaseMap.ascii _ _)).mpr
    fun e _ => Or.inr ⟨hasKey_fullKey, ?_⟩
  exact Std.ExtTreeMap.not_mem_empty

/-- What is received by a first call stays in memory. -/
theorem mem_generateImage [CaseMap] {prompt image : String} {t : ImageTurn}
    (hgen : t.generated = .image image) :
    generateCacheKey prompt ∈ (generateImage prompt t {}).2.imageCache := by
  have hmem : ({} : Images).imageCache[generateCacheKey prompt]? = none :=
    Std.ExtTreeMap.getElem?_empty
  have hfile : getCachedImageFromStorage (generateCacheKey prompt) t.readable {} = none := by
    unfold getCachedImageFromStorage
    rw [Std.ExtTreeMap.getElem?_empty, Option.map_none, ite_self]
  unfold generateImage generateUncached
  simp only [hmem, hfile, Images.generateNewImage, hgen]
  rw [imageCache_saveImageToStorage]
  exact Std.ExtTreeMap.mem_insert_self

/-- The prompts of a Zen quote are those of the Zen theme. -/
theorem buildPrompt_zen [CaseMap] (i : Fin 8) :
    buildPrompt "Zen Wisdom" i = buildPrompt "Zen Inspiration" i := by
  have hrow : ∀ t l, t = String.ofList l → isAscii l = true →
      (l.map Char.toLower).tails.any "buddhist".toList.isPrefixOf = false →
      (l.map Char.toLower).tails.any "sufi".toList.isPrefixOf = false →
      (l.map Char.toLower).tails.any "zen".toList.isPrefixOf = true →
      promptVariations.find? (fun e => contains (toLowerCase t) e.1) = promptVariations[2]? := by
    intro t l hl hascii hb hs hz
    unfold promptVariations
    exact find_of_not_contains hl rfl hascii hb
      (find_of_not_contains hl rfl hascii hs (find_of_contains hl rfl hascii hz))
  unfold buildPrompt
  rw [hrow "Zen Wisdom" _ rfl rfl rfl rfl rfl, hrow "Zen Inspiration" _ rfl rfl rfl rfl rfl]

/-- After the first call for a Zen quote, the prefetch skips its prompt, and the box stays without
an image for it. -/
theorem not_complete_zenWisdom :
    let prompt := @buildPrompt CaseMap.ascii "Zen Wisdom" 0
    let images := (@generateImage CaseMap.ascii prompt
      (@ApiTurn.turn CaseMap.ascii fullKey prompt abcTurn) {}).2
    @AllSucceed CaseMap.ascii fullKey (fun _ _ => abcTurn) images ∧
      ¬ @Complete CaseMap.ascii (@preFetchImages CaseMap.ascii _ onImageGenerated
        (@apiTurns CaseMap.ascii fullKey fun _ _ => abcTurn) (images, ∅)).2 := by
  intro prompt images
  have hsucceed : @AllSucceed CaseMap.ascii fullKey (fun _ _ => abcTurn) images :=
    @allSucceed_abcTurn CaseMap.ascii _ _
  refine ⟨hsucceed, fun hcomplete => ?_⟩
  have hzen : ("Zen Inspiration", (0 : Fin 8)) ∈ items := mem_items.mpr (by simp [traditions])
  have hmem : @itemKey CaseMap.ascii ("Zen Inspiration", 0) ∈ images.imageCache := by
    have h := @mem_generateImage CaseMap.ascii prompt _
      (@ApiTurn.turn CaseMap.ascii fullKey prompt abcTurn) rfl
    unfold itemKey
    rw [← @buildPrompt_zen CaseMap.ascii 0]
    exact h
  have hholds := hcomplete "Zen Inspiration" (mem_items.mp hzen) 0
  rcases (@holds_preFetchImages CaseMap.ascii fullKey _ (images, ∅) hsucceed _ hzen).mp hholds with
    ⟨image, hbox⟩ | ⟨-, hmissing⟩
  · exact absurd hbox Box.getElem?_empty_ne
  · exact hmissing hmem

end Images

end MotiAI
