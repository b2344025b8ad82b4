import MotiAI.Image.Prefetch
import MotiAI.Lib.Throwing

/-!
# A prefetch with what its turns throw

The loops of `preFetchImages` with the exceptions of the request, of the file system and of the
callback, and the two places where they are swallowed.

1. `run_preFetchImage`: a turn never throws, and does what `Images.preFetchImage` says.
2. `not_isFallback_dataUrl`: the test that tells default images from AI images is exact.
3. `preFetchImages_isolates`: whatever the turns meet, the prefetch ends normally; the callback is
   called once for each AI image of an item not in memory, and nothing else is added anywhere.
-/

namespace MotiAI

open Dart Hive Throwing

namespace PrefetchErrors

open Images StabilityAI

/-- A text of the Base64 alphabet. -/
structure Payload where
  text : String
  base64 : ∀ c ∈ text.toList, Base64.isBase64 c = true

/-- The data URL of an image. -/
def Payload.dataUrl (payload : Payload) : String := "data:image/png;base64," ++ payload.text

/-- How the request of an item ends: an image of the API, a default image, null or an exception. -/
inductive Outcome where
  | ai (payload : Payload)
  | fallback (millis : ℕ)
  | null
  | throws

/-- What a turn meets: the end of the request, the clock when the image is there, whether the file
can be written, and whether the callback throws. -/
structure PrefetchTurn where
  outcome : Outcome
  received : ℤ
  writable : Bool
  callbackThrows : Bool

/-- The image service and the calls of the callback, with their arguments. -/
abbrev State := Images × List (String × String)

section

variable [CaseMap]

def Outcome.generated (prompt : String) : Outcome → Generated
  | .ai payload => .image payload.dataUrl
  | .fallback millis => .image (getDefaultImageForPrompt prompt millis)
  | .null => .null
  | .throws => .throws

/-- The ends of a request to the API are among them. -/
theorem exists_outcome {key : EnvEntry} {reply : Reply (Option Plain)}
    (h : ∀ base64Image, replyImage reply = some base64Image →
      ∀ c ∈ base64Image.toList, Base64.isBase64 c = true) (prompt : String) (millis : ℕ) :
    ∃ outcome : Outcome, outcome.generated prompt =
      .image (StabilityAI.generateNewImage key prompt reply millis) := by
  unfold StabilityAI.generateNewImage
  split
  · split
    · rename_i base64Image himage
      exact ⟨.ai ⟨base64Image, h base64Image himage⟩, rfl⟩
    · exact ⟨.fallback millis, rfl⟩
  · exact ⟨.fallback millis, rfl⟩

/-- `_generateNewImage`, with what it throws. -/
def generateNewImage (prompt : String) (t : PrefetchTurn) : EStateM Unit State (Option String) := do
  modify fun s => ({ s.1 with requests := s.1.requests ++ [prompt] }, s.2)
  match t.outcome.generated prompt with
  | .image image => return some image
  | .null => return none
  | .throws => throw ()

/-- `_saveImageToStorage`. -/
def saveImageToStorage (cacheKey imageData : String) (writable : Bool) : EStateM Unit State Unit :=
  catching do
    if startsWith imageData "data:image/" then
      let data ← orThrow (split ',' imageData)[1]?
      let bytes ← orThrow (base64Decode data)
      if writable then
        modify fun s => ({ s.1 with imageFiles := s.1.imageFiles.insert cacheKey bytes }, s.2)
      else throw ()

/-- A callback that may throw. -/
def onImageGenerated (quoteId imageData : String) (throws : Bool) : EStateM Unit State Unit := do
  modify fun s => (s.1, s.2 ++ [(quoteId, imageData)])
  if throws then throw ()

/-- One turn of the inner loop; the pause after the callback is left out. -/
def preFetchImage (tradition : String) (i : Fin 8) (t : PrefetchTurn) :
    EStateM Unit State PUnit := do
  let prompt := buildPrompt tradition i
  let cacheKey := generateCacheKey prompt
  let s ← get
  unless s.1.imageCache.contains cacheKey do
    catching do
      match ← generateNewImage prompt t with
      | some image =>
        unless contains image "unsplash.com" do
          modify fun s => (s.1.remember cacheKey image t.received, s.2)
          saveImageToStorage cacheKey image t.writable
          onImageGenerated (prefetchId tradition i) image t.callbackThrows
      | none => return ()

/-- `preFetchImages`. -/
def preFetchImages (turns : String → Fin 8 → PrefetchTurn) : EStateM Unit State PUnit :=
  traditions.forM fun tradition =>
    (List.finRange 8).forM fun i => preFetchImage tradition i (turns tradition i)

/-! ## What a turn does -/

/-- The turn without what it throws. -/
def PrefetchTurn.turn (prompt : String) (t : PrefetchTurn) : ImageTurn where
  asked := t.received
  received := t.received
  readable := true
  writable := t.writable
  generated := t.outcome.generated prompt

/-- A callback that only records its calls. -/
def record (quoteId imageData : String) (calls : List (String × String)) :
    List (String × String) :=
  calls ++ [(quoteId, imageData)]

omit [CaseMap] in
theorem run_saveImageToStorage (cacheKey imageData : String) (writable : Bool) (s : State) :
    (saveImageToStorage cacheKey imageData writable).run s =
      .ok () (s.1.saveImageToStorage cacheKey imageData writable, s.2) := by
  apply run_catching
  unfold Images.saveImageToStorage
  cases startsWith imageData "data:image/" with
  | false =>
    rw [Bool.and_false]
    exact Or.inl rfl
  | true =>
    rw [Bool.and_true]
    simp only [if_true]
    rw [run_orThrow_bind]
    cases (split ',' imageData)[1]? with
    | none =>
      right
      cases writable <;> rfl
    | some data =>
      dsimp only
      rw [run_orThrow_bind, Option.bind_some]
      cases base64Decode data with
      | none =>
        right
        cases writable <;> rfl
      | some bytes =>
        cases writable with
        | false => exact Or.inr rfl
        | true => exact Or.inl rfl

theorem run_generateNewImage (prompt : String) (t : PrefetchTurn) (s : State) :
    (generateNewImage prompt t).run s = match t.outcome.generated prompt with
      | .image image => .ok (some image) ((s.1.generateNewImage prompt (t.turn prompt)).2, s.2)
      | .null => .ok none ((s.1.generateNewImage prompt (t.turn prompt)).2, s.2)
      | .throws => .error () ((s.1.generateNewImage prompt (t.turn prompt)).2, s.2) := by
  unfold generateNewImage
  cases t.outcome.generated prompt <;> rfl

omit [CaseMap] in
theorem run_onImageGenerated (quoteId imageData : String) (throws : Bool) (s : State) :
    (onImageGenerated quoteId imageData throws).run s =
        .ok () (s.1, record quoteId imageData s.2) ∨
      (onImageGenerated quoteId imageData throws).run s =
        .error () (s.1, record quoteId imageData s.2) := by
  cases throws with
  | false => exact Or.inl rfl
  | true => exact Or.inr rfl

/-- A turn ends normally, like one in which nothing is thrown. -/
theorem run_preFetchImage (e : String × Fin 8) (t : PrefetchTurn) (s : State) :
    (preFetchImage e.1 e.2 t).run s =
      .ok () (Images.preFetchImage record e.1 e.2 (t.turn (buildPrompt e.1 e.2)) s) := by
  unfold preFetchImage Images.preFetchImage
  dsimp only
  refine (run_bind_of_ok (show EStateM.run get s = .ok s s from rfl)).trans ?_
  cases s.1.imageCache.contains (generateCacheKey (buildPrompt e.1 e.2)) with
  | true => rfl
  | false =>
    apply run_catching
    have hrun := run_generateNewImage (buildPrompt e.1 e.2) t s
    simp only [Bool.false_eq_true, if_false]
    unfold Images.generateNewImage PrefetchTurn.turn at hrun ⊢
    cases hgen : t.outcome.generated (buildPrompt e.1 e.2) with
    | image image =>
      rw [hgen] at hrun
      rw [run_bind_of_ok hrun]
      dsimp only
      cases contains image "unsplash.com" with
      | true => exact Or.inl rfl
      | false =>
        simp only [Bool.false_eq_true, if_false]
        rw [run_bind_of_ok (show EStateM.run (modify _) _ = .ok () _ from rfl),
          run_bind_of_ok (run_saveImageToStorage _ _ _ _)]
        exact run_onImageGenerated _ _ _ _
    | null =>
      rw [hgen] at hrun
      rw [run_bind_of_ok hrun]
      exact Or.inl rfl
    | throws =>
      rw [hgen] at hrun
      rw [run_bind_of_throws hrun]
      exact Or.inr rfl

/-- The turns of a prefetch without what they throw. -/
def pureTurns (turns : String → Fin 8 → PrefetchTurn) : String → Fin 8 → ImageTurn :=
  fun tradition i => (turns tradition i).turn (buildPrompt tradition i)

/-- The turns of some of the items, in their order. -/
def preFetchItems (turns : String → Fin 8 → PrefetchTurn) (l : List (String × Fin 8)) :
    EStateM Unit State PUnit :=
  l.forM fun e => preFetchImage e.1 e.2 (turns e.1 e.2)

theorem run_preFetchItems (turns : String → Fin 8 → PrefetchTurn) (l : List (String × Fin 8))
    (s : State) : (preFetchItems turns l).run s =
      .ok () (Images.preFetchItems record (pureTurns turns) l s) :=
  run_forM (fun e s => run_preFetchImage e (turns e.1 e.2) s) l s

theorem run_preFetchImages (turns : String → Fin 8 → PrefetchTurn) (s : State) :
    (preFetchImages turns).run s =
      .ok () (Images.preFetchItems record (pureTurns turns) items s) := by
  rw [← Images.preFetchImages_eq]
  refine run_forM (fun tradition s => ?_) traditions s
  exact run_forM (fun i s => run_preFetchImage (tradition, i) (turns tradition i) s) _ s

/-! ## AI images and default images -/

/-- The URL of a default image. -/
def IsFallback (url : String) : Prop :=
  ∃ prompt millis, url = getDefaultImageForPrompt prompt millis

theorem contains_of_isFallback {url : String} (h : IsFallback url) :
    contains url "unsplash.com" = true := by
  obtain ⟨prompt, millis, rfl⟩ := h
  obtain ⟨id, hid⟩ := exists_photo prompt millis
  rw [hid, contains_photo]

omit [CaseMap] in
theorem contains_dataUrl (payload : Payload) :
    contains payload.dataUrl "unsplash.com" = false := by
  apply contains_of_dot_notMem
  intro h
  exact absurd (payload.base64 _ h) (by decide)

/-- The test for a default image is exact. -/
theorem not_isFallback_dataUrl (payload : Payload) : ¬ IsFallback payload.dataUrl := by
  intro h
  have hphoto := contains_of_isFallback h
  rw [contains_dataUrl] at hphoto
  cases hphoto

omit [CaseMap] in
/-- The file of an AI image holds its decoded payload. -/
theorem bytes_dataUrl (payload : Payload) :
    (split ',' payload.dataUrl)[1]?.bind base64Decode = base64Decode payload.text := by
  have hcomma : ',' ∉ payload.text.toList := fun h => absurd (payload.base64 _ h) (by decide)
  unfold Payload.dataUrl
  rw [getElem?_split_append (l := "data:image/png;base64".toList) rfl (by decide) hcomma]
  rfl

/-- **A turn** whose item is not in memory calls the API, and remembers, saves and hands over what is
an AI image. -/
theorem preFetchImage_eq (e : String × Fin 8) (t : PrefetchTurn) (s : State) :
    Images.preFetchImage record e.1 e.2 (t.turn (buildPrompt e.1 e.2)) s =
      if itemKey e ∈ s.1.imageCache then s
      else match t.outcome with
        | .ai payload =>
          (((request e s.1).remember (itemKey e) payload.dataUrl t.received).saveImageToStorage
            (itemKey e) payload.dataUrl t.writable,
            s.2 ++ [(prefetchId e.1 e.2, payload.dataUrl)])
        | _ => (request e s.1, s.2) := by
  unfold Images.preFetchImage Images.generateNewImage PrefetchTurn.turn
  by_cases hmem : itemKey e ∈ s.1.imageCache
  · rw [if_pos hmem]
    exact if_pos (Std.ExtTreeMap.contains_iff_mem.mpr hmem)
  · rw [if_neg hmem]
    refine (if_neg fun h => hmem (Std.ExtTreeMap.contains_iff_mem.mp h)).trans ?_
    cases t.outcome with
    | ai payload =>
      simp only [Outcome.generated, contains_dataUrl, Bool.false_eq_true, if_false]
      rfl
    | fallback millis =>
      have hphoto := contains_of_isFallback ⟨buildPrompt e.1 e.2, millis, rfl⟩
      simp only [Outcome.generated, hphoto, if_true]
      rfl
    | null => rfl
    | throws => rfl

/-! ## What a prefetch adds -/

/-- The state the turns of some items lead to, however they end. -/
def after (turns : String → Fin 8 → PrefetchTurn) (l : List (String × Fin 8)) (s : State) :
    State :=
  match (preFetchItems turns l).run s with
  | .ok _ s => s
  | .error _ s => s

/-- The call of the callback for an item: one with the image of the API, if the memory has none when
its turn comes. -/
def call (turns : String → Fin 8 → PrefetchTurn) (s : State) (e : String × Fin 8) :
    Option (String × String) :=
  if itemKey e ∈ (after turns (items.takeWhile fun f => f ≠ e) s).1.imageCache then none
  else match (turns e.1 e.2).outcome with
    | .ai payload => some (prefetchId e.1 e.2, payload.dataUrl)
    | _ => none

/-- The calls of a prefetch, with different ids, and what it adds to the memory and to the files:
AI images only. -/
structure Isolated (turns : String → Fin 8 → PrefetchTurn) (s s' : State) : Prop where
  calls : s'.2 = s.2 ++ items.filterMap (call turns s)
  distinct : ((items.filterMap (call turns s)).map Prod.fst).Nodup
  images : ∀ c ∈ items.filterMap (call turns s), ¬ IsFallback c.2
  memory : ∀ (k x : String), s'.1.imageCache[k]? = some x → s.1.imageCache[k]? = some x ∨
    ∃ e ∈ items, itemKey e = k ∧ ∃ payload, (turns e.1 e.2).outcome = .ai payload ∧
      x = payload.dataUrl ∧ ¬ IsFallback x
  files : ∀ (k : String) (bytes : List UInt8), s'.1.imageFiles[k]? = some bytes →
    s.1.imageFiles[k]? = some bytes ∨
      ∃ e ∈ items, itemKey e = k ∧ ∃ payload, (turns e.1 e.2).outcome = .ai payload ∧
        base64Decode payload.text = some bytes

theorem after_eq (turns : String → Fin 8 → PrefetchTurn) (l : List (String × Fin 8)) (s : State) :
    after turns l s = Images.preFetchItems record (pureTurns turns) l s := by
  unfold after
  rw [run_preFetchItems]

theorem nodup_items : items.Nodup := List.Nodup.of_map _ nodup_items_cacheKey

theorem takeWhile_items {e : String × Fin 8} {l l' : List (String × Fin 8)}
    (h : items = l ++ e :: l') : items.takeWhile (fun f => f ≠ e) = l := by
  have hnodup := nodup_items
  rw [h] at hnodup ⊢
  rw [List.takeWhile_append_of_pos, List.takeWhile_cons_of_neg, List.append_nil]
  · simp
  · intro f hf
    rw [decide_eq_true_eq]
    rintro rfl
    exact (List.nodup_append.mp hnodup).2.2 f hf f List.mem_cons_self rfl

/-- Item by item, the callback is called as `call` says. -/
theorem calls_of_prefix (turns : String → Fin 8 → PrefetchTurn) (s : State)
    (l : List (String × Fin 8)) (hl : l <+: items) :
    (Images.preFetchItems record (pureTurns turns) l s).2 = s.2 ++ l.filterMap (call turns s) := by
  induction l using List.reverseRecOn with
  | nil => exact (List.append_nil _).symm
  | append_singleton l e ih =>
    obtain ⟨l', hitems⟩ := hl
    rw [List.append_assoc, List.singleton_append] at hitems
    have hturn : Images.preFetchItems record (pureTurns turns) (l ++ [e]) s =
        Images.preFetchImage record e.1 e.2 ((turns e.1 e.2).turn (buildPrompt e.1 e.2))
          (Images.preFetchItems record (pureTurns turns) l s) := by
      unfold Images.preFetchItems
      rw [List.foldl_append]
      rfl
    have ih := ih ⟨e :: l', hitems⟩
    rw [hturn, preFetchImage_eq, List.filterMap_append, ← List.append_assoc, ← ih]
    unfold call
    rw [List.filterMap_cons, List.filterMap_nil, takeWhile_items hitems.symm, after_eq]
    split
    · simp
    · cases (turns e.1 e.2).outcome with
      | ai payload => rfl
      | fallback millis => exact (List.append_nil _).symm
      | null => exact (List.append_nil _).symm
      | throws => exact (List.append_nil _).symm

theorem call_eq_some {turns : String → Fin 8 → PrefetchTurn} {s : State} {e : String × Fin 8}
    {c : String × String} (h : call turns s e = some c) :
    c.1 = prefetchId e.1 e.2 ∧ ¬ IsFallback c.2 := by
  unfold call at h
  split at h
  · cases h
  · split at h
    · rename_i payload _
      obtain rfl := Option.some.inj h
      exact ⟨rfl, not_isFallback_dataUrl payload⟩
    · cases h

theorem distinct_calls (turns : String → Fin 8 → PrefetchTurn) (s : State) :
    ((items.filterMap (call turns s)).map Prod.fst).Nodup := by
  unfold List.Nodup
  rw [List.pairwise_map, List.pairwise_filterMap]
  refine nodup_items.imp_of_mem fun {e e'} he he' hne c hc c' hc' heq => hne ?_
  rw [(call_eq_some hc).1, (call_eq_some hc').1] at heq
  exact prefetchId_inj he he' heq

theorem imageCache_turn {e : String × Fin 8} {t : PrefetchTurn} {s : State} {k x : String}
    (h : (Images.preFetchImage record e.1 e.2 (t.turn (buildPrompt e.1 e.2)) s).1.imageCache[k]? =
      some x) : s.1.imageCache[k]? = some x ∨
        itemKey e = k ∧ ∃ payload, t.outcome = .ai payload ∧ x = payload.dataUrl := by
  rw [preFetchImage_eq] at h
  split at h
  · exact Or.inl h
  · split at h
    · rename_i payload hai
      rw [imageCache_saveImageToStorage] at h
      rcases getElem?_remember h with ⟨hkey, hx, -⟩ | ⟨hold, -⟩
      · exact Or.inr ⟨hkey, payload, hai, hx.symm⟩
      · exact Or.inl hold
    · exact Or.inl h

theorem imageFiles_turn {e : String × Fin 8} {t : PrefetchTurn} {s : State} {k : String}
    {bytes : List UInt8}
    (h : (Images.preFetchImage record e.1 e.2 (t.turn (buildPrompt e.1 e.2)) s).1.imageFiles[k]? =
      some bytes) : s.1.imageFiles[k]? = some bytes ∨
        itemKey e = k ∧ ∃ payload, t.outcome = .ai payload ∧
          base64Decode payload.text = some bytes := by
  rw [preFetchImage_eq] at h
  split at h
  · exact Or.inl h
  · split at h
    · rename_i payload hai
      unfold Images.saveImageToStorage at h
      rw [bytes_dataUrl] at h
      split at h
      · split at h
        · rename_i decoded hdecoded
          rw [Box.getElem?_put] at h
          split at h
          · rename_i hkey
            exact Or.inr ⟨hkey, payload, hai, hdecoded.trans h⟩
          · exact Or.inl h
        · exact Or.inl h
      · exact Or.inl h
    · exact Or.inl h

/-- What a property of the turns says of a whole prefetch: an entry was there before, or an item has
added it. -/
theorem added_by_item {P : State → Prop} {Q : String × Fin 8 → Prop}
    {turns : String → Fin 8 → PrefetchTurn} {s : State}
    (hturn : ∀ e s, P (Images.preFetchImage record e.1 e.2
      ((turns e.1 e.2).turn (buildPrompt e.1 e.2)) s) → P s ∨ Q e)
    (h : P (Images.preFetchItems record (pureTurns turns) items s)) : P s ∨ ∃ e ∈ items, Q e := by
  revert h
  refine List.foldlRecOn (motive := fun s' => P s' → P s ∨ ∃ e ∈ items, Q e) items _ Or.inl
    fun s' ih e he h => ?_
  rcases hturn e s' h with hold | hnew
  · exact ih hold
  · exact Or.inr ⟨e, he, hnew⟩

/-- **A prefetch isolates failures** and hands over, remembers and saves AI images only. -/
theorem preFetchImages_isolates (turns : String → Fin 8 → PrefetchTurn) (s : State) :
    ∃ s', (preFetchImages turns).run s = .ok () s' ∧ Isolated turns s s' := by
  refine ⟨_, run_preFetchImages turns s, ?_, distinct_calls turns s, ?_, ?_, ?_⟩
  · exact calls_of_prefix turns s items (List.prefix_refl _)
  · intro c hc
    obtain ⟨e, -, he⟩ := List.mem_filterMap.mp hc
    exact (call_eq_some he).2
  · intro k x h
    refine (@added_by_item _ (fun s => s.1.imageCache[k]? = some x) _ turns s
      (fun e s => imageCache_turn) h).imp id ?_
    rintro ⟨e, he, hkey, payload, hai, rfl⟩
    exact ⟨e, he, hkey, payload, hai, rfl, not_isFallback_dataUrl payload⟩
  · intro k bytes h
    exact @added_by_item _ (fun s => s.1.imageFiles[k]? = some bytes) _ turns s
      (fun e s => imageFiles_turn) h

end

end PrefetchErrors

end MotiAI
