import MotiAI.Application.Pictures
import MotiAI.Application.Variety

/-!
# The application without keys

Without a key for Anthropic no quote is fetched and no affirmation generated; without one for
Stability AI every image is a photo of the fallback, which is neither stored nor shown. What is left
are the quotes that the application brings along.

`offline_run`: as long as no start finds a key, the boxes hold the initial quotes and nothing else,
and only initial quotes are displayed, with no background image and no affirmation.
-/

namespace MotiAI

open Dart Hive HiveQuoteService Background ImageCalls

/-- The image is a photo of the fallback. -/
def Photo (_ url : String) : Prop := ∃ id, url = StabilityAI.photo id

theorem copied_photo : Copied Photo := by
  rintro cacheKey image bytes ⟨id, rfl⟩ hdata
  exact absurd (Images.isDataUrl_photo id) (ne_false_of_eq_true hdata)

/-- Without a key every call is brought a photo. -/
theorem photo_of_brought [CaseMap] {s : ImageCalls} (hkey : StabilityAI.hasKey s.key = false)
    {m : ImageMove} {cacheKey image : String} (h : Brought s m cacheKey image) :
    Photo cacheKey image := by
  cases h with
  | @answer j reply millis writable prompt stage hj =>
    refine StabilityAI.exists_photo_of_not_succeeds (fun hsucceeds => ?_) prompt millis
    exact absurd hsucceeds.1 (ne_true_of_eq_false hkey)

theorem key_step [CaseMap] {s s' : ImageCalls} {m : ImageMove} (hs : s.step m = some s')
    (hm : ∀ key, m ≠ .restart key) : s'.key = s.key := by
  cases m with
  | restart key => exact absurd rfl (hm key)
  | tick duration =>
    obtain rfl := Option.some.inj hs
    rfl
  | _ =>
    simp only [ImageCalls.step] at hs
    split at hs <;> (try split at hs) <;> cases hs <;> rfl

theorem mem_initialQuotes {q : Quote} (h : q ∈ storedQuotes (loadInitialQuotes ∅)) :
    q ∈ initialQuotes := by
  obtain ⟨v, hv, hquote⟩ := List.mem_filterMap.mp h
  obtain rfl := asQuote_eq_some hquote
  obtain ⟨id, hid⟩ := Box.mem_values.mp hv
  rw [loadInitialQuotes_eq_putAll] at hid
  rcases Box.getElem?_putAll hid with hmem | hmem
  · obtain ⟨q₀, hq₀, heq⟩ := List.mem_map.mp hmem
    obtain rfl := Json.object.inj (Prod.mk.inj heq).2
    exact hq₀
  · exact absurd hmem Box.getElem?_empty_ne

namespace MotiAIApp

/-- There are only the quotes that the application brings along, and no affirmation of them. -/
structure BuiltIn (s : MotiAIApp) : Prop where
  quotes : s.quotes = loadInitialQuotes ∅
  held : Held (· ∈ initialQuotes) s
  affirmations : s.affirmations = ∅
  fetches : s.fetches = 0
  desk : ∀ a ∈ s.desk, a.stage = .generating ∨ a.stage = .closed

/-- Neither key was found, and nothing has come from an API. -/
structure Offline [CaseMap] (s : MotiAIApp) : Prop where
  key : hasKey s.key = false
  stabilityKey : StabilityAI.hasKey s.service.key = false
  builtIn : BuiltIn s
  gallery : Gallery Photo s

/-! ## The quotes -/

section

variable {s s' : MotiAIApp}

/-- A start holds no quote. -/
theorem held_of_started {P : Quote → Prop} (hworld : s.world = {}) (hruns : s.runs = [])
    (hdesk : s.desk = []) : Held P s := by
  refine ⟨?_, ?_, ?_, ?_, ?_, ?_⟩
  · rw [hworld]
    intro request hrequest quote hstage
    obtain rfl := List.mem_singleton.mp hrequest
    cases hstage
  · simp [hworld]
  · simp [screen, hworld]
  · simp [hruns]
  · simp [hdesk]
  · simp [hdesk]

theorem BuiltIn.backstage (h : BuiltIn s) (hb : Backstage s s') : BuiltIn s' where
  quotes := hb.quotes.trans h.quotes
  held := h.held.backstage hb
  affirmations := hb.affirmations.trans h.affirmations
  fetches := hb.fetches.trans h.fetches
  desk := by
    rw [hb.desk]
    exact h.desk

theorem BuiltIn.setStage (h : BuiltIn s) {i : ℕ} {sent : Quote} {stage : AffirmationStage}
    (hi : s.desk[i]? = some ⟨sent, stage⟩) :
    BuiltIn { s with desk := s.desk.set i ⟨sent, .closed⟩ } where
  quotes := h.quotes
  held := h.held.setStage hi (by simp)
  affirmations := h.affirmations
  fetches := h.fetches
  desk := by
    intro a ha
    rcases List.mem_or_eq_of_mem_set ha with ha | rfl
    · exact h.desk a ha
    · exact Or.inr rfl

/-- No affirmation is shown, and so none is saved. -/
theorem BuiltIn.deskEffect (h : BuiltIn s) {m : DeskMove} (he : DeskEffect s m s')
    (hm : ∀ i affirmation, m ≠ .answer i (some affirmation)) : BuiltIn s' := by
  cases he with
  | nothing => exact h
  | @asked quote hcurrent =>
    refine ⟨h.quotes, h.held.desk (.asked hcurrent), h.affirmations, h.fetches, fun a ha => ?_⟩
    rcases List.mem_append.mp ha with ha | ha
    · exact h.desk a ha
    · obtain rfl := List.mem_singleton.mp ha
      exact Or.inl rfl
  | shown hi => exact absurd rfl (hm _ _)
  | failed hi => exact h.setStage hi
  | save hi hcurrent => rcases h.desk _ (List.mem_of_getElem? hi) with hstage | hstage <;> cases hstage
  | saved hi => rcases h.desk _ (List.mem_of_getElem? hi) with hstage | hstage <;> cases hstage
  | close hi => exact h.setStage hi

variable [CaseMap]

/-- A request reads an initial quote. -/
theorem BuiltIn.read (h : BuiltIn s) {avoid : Option (List String)} {useAI : Bool}
    {shuffle : Shuffle Quote} {q : Quote}
    (hq : localPick none none avoid s.quotes useAI shuffle = .ok q) : q ∈ initialQuotes := by
  have hstock : Stock s.quotes := by
    rw [h.quotes]
    exact stock_loadInitialQuotes
  obtain ⟨q₀, hq₀⟩ := List.exists_mem_of_ne_nil _ initialQuotes_ne_nil
  obtain ⟨q₁, hq₁, -⟩ := hstock.eligible_of_initial hq₀ useAI
  have hinitial : ∀ q ∈ eligible useAI (storedQuotes s.quotes), q ∈ initialQuotes := by
    intro q hq
    rw [h.quotes] at hq
    exact mem_initialQuotes (mem_of_mem_eligible hq).1
  have hends : Ends (· ∈ initialQuotes) (localPick none none avoid s.quotes useAI shuffle) :=
    (localPick_ends_iff hinitial).mpr
      ⟨Option.isSome_iff_ne_none.mp hstock.wellTyped.getAllQuotes_isSome,
        Or.inr (List.ne_nil_of_mem hq₁)⟩ shuffle
  rw [hq] at hends
  exact hends

theorem BuiltIn.resume (h : BuiltIn s) {i : ℕ} {r : Resume} (hs : s.resume i r = some s')
    (hr : ∀ q, Brings r q → q ∈ initialQuotes) : BuiltIn s' := by
  have hheld := h.held.resume hs hr
  obtain ⟨world, -, rfl⟩ := Option.map_eq_some_iff.mp hs
  exact ⟨h.quotes, hheld, h.affirmations, h.fetches, h.desk⟩

/-- A display asks for no AI quote. -/
theorem BuiltIn.displayQuote (h : BuiltIn s) (hkey : hasKey s.key = false) {i : ℕ}
    {shuffle : Shuffle String} {millis : ℕ} (hs : s.displayQuote i shuffle millis = some s') :
    BuiltIn s' := by
  have hheld := h.held.displayQuote hs
  obtain ⟨kind, quote, s₁, s₂, -, h₁, h₂, rfl⟩ := displayQuote_cases hs
  have hkey₂ : hasKey s₂.key = false := by
    rw [(serviceStep_of_generateBackgroundImage h₂).key, (serviceStep_resume h₁).key]
    exact hkey
  have hbuilt := h.resume h₁ fun q hq => by cases hq
  obtain ⟨s₃, stage, hb, rfl⟩ := generateBackgroundImage_spec h₂
  have hbuilt₃ := hbuilt.backstage hb
  unfold fetchNextAIQuote at hheld ⊢
  rw [if_neg (ne_true_of_eq_false hkey₂)] at hheld ⊢
  exact ⟨hbuilt₃.quotes, hheld, hbuilt₃.affirmations, hbuilt₃.fetches, hbuilt₃.desk⟩

variable [NumText]

theorem fetch_keyless (hkey : hasKey s.key = false) (turn : FetchTurn) :
    s.fetch turn = some (none, s) := by
  unfold fetch fetchQuoteFromAnthropic
  rw [if_neg (ne_true_of_eq_false hkey)]
  rfl

/-- On the screen. -/
theorem BuiltIn.onstage (h : BuiltIn s) (hkey : hasKey s.key = false) {m : AppMove}
    (hm : m.isBackstage = false) (hs : s.step m = some s') : BuiltIn s' := by
  cases m with
  | newQuote =>
    obtain rfl := Option.some.inj hs
    exact ⟨h.quotes, h.held.newQuote, h.affirmations, h.fetches, h.desk⟩
  | start i => exact h.resume hs fun q hq => by cases hq
  | answer i turn =>
    simp only [MotiAIApp.step, fetch_keyless hkey, Option.bind_some] at hs
    exact h.resume hs fun q hq => by cases hq
  | read i shuffle =>
    refine h.resume hs fun q hq => ?_
    cases hq with
    | read hl => exact h.read hl
  | display i shuffle millis => exact h.displayQuote hkey hs
  | fetched turn =>
    simp only [MotiAIApp.step, h.fetches, if_true] at hs
    cases hs
  | toggleFavorite =>
    obtain ⟨quote, -, htoggle⟩ := Option.bind_eq_some_iff.mp hs
    obtain ⟨favorites, -, rfl⟩ := Option.map_eq_some_iff.mp htoggle
    exact ⟨h.quotes, h.held.withBoxes _ _ _ _, h.affirmations, h.fetches, h.desk⟩
  | generateAffirmation => exact h.deskEffect (deskEffect_of_step (by simp) hs) (by simp)
  | affirmationAnswer i reply =>
    have hnone : AffirmationService.generateAffirmation s.key reply = none := by
      unfold AffirmationService.generateAffirmation
      rw [if_neg (ne_true_of_eq_false hkey)]
    simp only [MotiAIApp.step, hnone] at hs
    exact h.deskEffect (deskEffect_of_step (by simp) hs) (by simp)
  | saveAffirmation i timestamp createdAt =>
    exact h.deskEffect (deskEffect_of_step (by simp) hs) (by simp)
  | savedAffirmation i => exact h.deskEffect (deskEffect_of_step (by simp) hs) (by simp)
  | closeAffirmation i => exact h.deskEffect (deskEffect_of_step (by simp) hs) (by simp)
  | deleteAffirmation id =>
    obtain rfl := Option.some.inj hs
    refine ⟨h.quotes, h.held.withBoxes _ _ _ _, ?_, h.fetches, h.desk⟩
    show s.affirmations.erase id = ∅
    rw [h.affirmations]
    exact Std.ExtTreeMap.erase_empty
  | clearAllAffirmations =>
    obtain rfl := Option.some.inj hs
    exact ⟨h.quotes, h.held.withBoxes _ _ _ _, rfl, h.fetches, h.desk⟩
  | restart key stabilityKey =>
    simp only [MotiAIApp.step] at hs
    obtain ⟨service, -, rfl⟩ := Option.map_eq_some_iff.mp hs
    refine ⟨?_, held_of_started rfl rfl rfl, ?_, rfl, fun _ ha => absurd ha List.not_mem_nil⟩
    · show initializeBoxes s.quotes = loadInitialQuotes ∅
      rw [h.quotes]
      exact stock_loadInitialQuotes.initializeBoxes
    · show s.affirmations.map _ = ∅
      rw [h.affirmations]
      rfl
  | _ => cases hm

/-! ## Runs -/

theorem Offline.step (h : Offline s) (hill : Illustrated s) (hstocked : Stocked s) {m : AppMove}
    (hm : ∀ key stabilityKey, m = .restart key stabilityKey →
      hasKey key = false ∧ StabilityAI.hasKey stabilityKey = false)
    (hs : s.step m = some s') : Offline s' := by
  have hgallery := h.gallery.step hill hstocked copied_photo hs
    fun move _ cacheKey image hb => photo_of_brought h.stabilityKey hb
  have hbuilt : BuiltIn s' := by
    cases hback : m.isBackstage with
    | true => exact h.builtIn.backstage (backstage_step hback hs)
    | false => exact h.builtIn.onstage h.key hback hs
  by_cases hrestart : ∃ key stabilityKey, m = .restart key stabilityKey
  · obtain ⟨key, stabilityKey, rfl⟩ := hrestart
    obtain ⟨hkey, hstability⟩ := hm key stabilityKey rfl
    simp only [MotiAIApp.step] at hs
    obtain ⟨service, hservice, rfl⟩ := Option.map_eq_some_iff.mp hs
    obtain rfl := Option.some.inj hservice
    exact ⟨hkey, hstability, hbuilt, hgallery⟩
  · have hstep := serviceStep_step hs fun key stabilityKey heq => hrestart ⟨key, stabilityKey, heq⟩
    refine ⟨?_, ?_, hbuilt, hgallery⟩
    · rw [hstep.key]
      exact h.key
    · obtain ⟨service, hservice, heq⟩ := hstep.service
      rw [heq]
      show StabilityAI.hasKey service.key = false
      rcases hservice with rfl | ⟨im, hne, hservice⟩
      · exact h.stabilityKey
      · rw [key_step hservice hne]
        exact h.stabilityKey

end

end MotiAIApp

end MotiAI
