import MotiAI.Audio.Keys
import MotiAI.Audio.Storage

/-!
# Where a local file is stored

A generation that fails falls back on the local file of the tradition, and
`_convertFallbackToBase64` stores that file under the first variation, whichever variation failed.

1. `preGenerateAmbientSound_eq`: the entries a pre-generation writes for an item.
2. `failuresContained_iff`: when a generation touches no other variation, and when a whole
   pre-generation leaves every generated sound in the box.
3. `not_contained_second`: the second variation fails, and the sound of the first is lost.
-/

namespace MotiAI

open Dart Hive

namespace AIAudio

/-- The variation whose key `_convertFallbackToBase64` writes. -/
def firstVariation : Fin 11 := ⟨0, by decide⟩

theorem firstVariation_eq : firstVariation = 0 := rfl

/-- The two boxes differ at `cacheKey` at most. -/
def OnlyAt (cacheKey : String) (b b' : Box String) : Prop := ∀ k, k ≠ cacheKey → b'[k]? = b[k]?

section

variable [CaseMap] (assets : String → Option (List UInt8)) (key : EnvEntry)

/-- No local file is stored under another variation, or one that is there already. -/
def Spares (tradition : String) (variation : Fin 11) (t : SoundTurn) (b : Box String) : Prop :=
  variation = firstVariation ∨ (apiAudio key t).isSome = true ∨
    ∀ bytes, assets (getFallbackAudioForTradition tradition) = some bytes →
      b[generateCacheKey tradition firstVariation]? = some (audioUrl bytes)

/-- The call is answered from the memory cache or from a file. -/
def InCache (tradition : String) (c : SoundCall) (s : SoundCaches) : Prop :=
  let cacheKey := generateCacheKey tradition c.variation
  (s.audioCache[cacheKey]?.isSome = true ∧ s.isFresh cacheKey c.asked = true) ∨
    (s.getCachedAudioFromStorage cacheKey c.readable).isSome = true

/-- When the first variation of a tradition is generated, no other one of it falls back on a local
file, or on one that is the same sound. -/
def FirstsKept (turns : String → Fin 11 → SoundTurn) : Prop :=
  ∀ tradition ∈ traditions, ∀ audio, apiAudio key (turns tradition firstVariation) = some audio →
    ∀ variation, variation ≠ firstVariation → apiAudio key (turns tradition variation) = none →
      ∀ bytes, assets (getFallbackAudioForTradition tradition) = some bytes → audioUrl bytes = audio

/-! ## What is written for an item -/

/-- The entries written for an item; the callback writes the last one. -/
def entries (e : String × Fin 11) (t : SoundTurn) : List (String × String) :=
  match apiAudio key t with
  | some audio => [(generateCacheKey e.1 e.2, audio), (generateCacheKey e.1 e.2, audio)]
  | none => fallbackEntries assets e

theorem mem_entries {e : String × Fin 11} {t : SoundTurn} {k x : String}
    (h : (k, x) ∈ entries assets key e t) :
    (k = generateCacheKey e.1 e.2 ∧ apiAudio key t = some x) ∨
      (apiAudio key t = none ∧ (k = generateCacheKey e.1 0 ∨ k = generateCacheKey e.1 e.2) ∧
        ∃ bytes, assets (getFallbackAudioForTradition e.1) = some bytes ∧ x = audioUrl bytes) := by
  unfold entries at h
  cases haudio : apiAudio key t with
  | some audio =>
    rw [haudio] at h
    simp only [List.mem_cons, Prod.mk.injEq, List.not_mem_nil, or_false, or_self] at h
    exact Or.inl ⟨h.1, congrArg some h.2.symm⟩
  | none =>
    rw [haudio] at h
    unfold fallbackEntries at h
    cases hbytes : assets (getFallbackAudioForTradition e.1) with
    | none =>
      rw [hbytes] at h
      exact absurd h List.not_mem_nil
    | some bytes =>
      rw [hbytes] at h
      simp only [List.mem_cons, Prod.mk.injEq, List.not_mem_nil, or_false, or_self] at h
      refine Or.inr ⟨rfl, ?_, bytes, rfl, ?_⟩
      · rcases h with h | h
        · exact Or.inl h.1
        · exact Or.inr h.1
      · rcases h with h | h
        · exact h.2
        · exact h.2

theorem preGenerateAmbientSound_eq (e : String × Fin 11) (t : SoundTurn) (s : SoundCaches) :
    ∃ requests, preGenerateAmbientSound assets BackgroundPrefetchService.onAudioGenerated key
      e.1 e.2 t s = putAudio (entries assets key e t) { s with requests := requests } := by
  obtain ⟨requests, h⟩ := generateAmbientSoundForTradition_eq assets key e.1 e.2 t s
  refine ⟨requests, ?_⟩
  unfold preGenerateAmbientSound entries
  rw [h]
  cases apiAudio key t with
  | some audio => rfl
  | none =>
    unfold convertFallbackToBase64 fallbackEntries
    cases assets (getFallbackAudioForTradition e.1) with
    | some bytes => rfl
    | none => rfl

/-! ## What one generation touches -/

omit [CaseMap] in
theorem onlyAt_put {cacheKey audio : String} {b b' : Box String} :
    OnlyAt cacheKey b (b'.insert cacheKey audio) ↔ OnlyAt cacheKey b b' := by
  refine forall_congr' fun k => imp_congr_right fun hk => ?_
  rw [Box.getElem?_put_of_ne _ (Ne.symm hk)]

/-- The entry of the first variation is another one, unless this is the first. -/
theorem onlyAt_put_first {tradition audio : String} {variation : Fin 11} {b : Box String} :
    OnlyAt (generateCacheKey tradition variation) b
        (b.insert (generateCacheKey tradition 0) audio) ↔
      variation = 0 ∨ b[generateCacheKey tradition 0]? = some audio := by
  constructor
  · intro h
    by_cases hv : variation = 0
    · exact Or.inl hv
    · have hfirst := h (generateCacheKey tradition 0)
        fun heq => hv (generateCacheKey_inj heq).2.symm
      rw [Box.getElem?_put_self] at hfirst
      exact Or.inr hfirst.symm
  · rintro (rfl | hsame) k hk
    · exact Box.getElem?_put_of_ne b (Ne.symm hk) audio
    · rw [Box.getElem?_put]
      split
      · rename_i heq
        rw [← heq, hsame]
      · rfl

theorem onlyAt_preGenerate (tradition : String) (variation : Fin 11) (t : SoundTurn)
    (s : SoundCaches) :
    OnlyAt (generateCacheKey tradition variation) s.cachedAudio
        (preGenerateAmbientSound assets BackgroundPrefetchService.onAudioGenerated key tradition
          variation t s).cachedAudio ↔
      Spares assets key tradition variation t s.cachedAudio := by
  obtain ⟨requests, h⟩ := preGenerateAmbientSound_eq assets key (tradition, variation) t s
  rw [h]
  show OnlyAt _ s.cachedAudio (Box.putAll _ s.cachedAudio) ↔ _
  unfold Spares entries
  rw [firstVariation_eq]
  cases apiAudio key t with
  | some audio =>
    refine iff_of_true ?_ (Or.inr (Or.inl rfl))
    exact onlyAt_put.mpr (onlyAt_put.mpr fun k _ => rfl)
  | none =>
    unfold fallbackEntries
    cases assets (getFallbackAudioForTradition tradition) with
    | none => exact iff_of_true (fun k _ => rfl) (Or.inr (Or.inr nofun))
    | some bytes =>
      simp only [Option.isSome_none, Bool.false_eq_true, false_or, Option.some.injEq,
        forall_eq']
      rw [← onlyAt_put_first]
      exact onlyAt_put.trans onlyAt_put

omit [CaseMap] in
theorem onlyAt_save {cacheKey audio : String} {writable : Bool} {b : Box String}
    {s : SoundCaches} : OnlyAt cacheKey b (s.saveAudioToStorage cacheKey audio writable).cachedAudio ↔
      OnlyAt cacheKey b s.cachedAudio := by
  unfold SoundCaches.saveAudioToStorage
  split
  · split
    · split
      · exact onlyAt_put
      · exact Iff.rfl
    · exact onlyAt_put
  · exact Iff.rfl

theorem onlyAt_generateUncached {tradition : String} {c : SoundCall} {s : SoundCaches}
    (hfile : s.getCachedAudioFromStorage (generateCacheKey tradition c.variation) c.readable =
      none) :
    OnlyAt (generateCacheKey tradition c.variation) s.cachedAudio
        (generateUncached assets key tradition c s).2.cachedAudio ↔
      Spares assets key tradition c.variation c.turn s.cachedAudio := by
  obtain ⟨requests, h⟩ := generateAmbientSoundForTradition_eq assets key tradition c.variation
    c.turn s
  unfold generateUncached Spares
  rw [firstVariation_eq]
  simp only [hfile, h]
  cases apiAudio key c.turn with
  | some audio => exact iff_of_true (onlyAt_save.mpr fun k _ => rfl) (Or.inr (Or.inl rfl))
  | none =>
    unfold convertFallbackToBase64
    cases assets (getFallbackAudioForTradition tradition) with
    | none => exact iff_of_true (fun k _ => rfl) (Or.inr (Or.inr nofun))
    | some bytes =>
      simp only [Option.isSome_none, Bool.false_eq_true, false_or, Option.some.injEq,
        forall_eq']
      rw [← onlyAt_put_first]
      exact onlyAt_save

theorem onlyAt_generateAmbientSound (tradition : String) (c : SoundCall) (s : SoundCaches) :
    OnlyAt (generateCacheKey tradition c.variation) s.cachedAudio
        (generateAmbientSound assets key tradition c s).2.cachedAudio ↔
      InCache tradition c s ∨ Spares assets key tradition c.variation c.turn s.cachedAudio := by
  -- without a sound in memory
  have huncached : ∀ s' : SoundCaches, s'.cachedAudio = s.cachedAudio →
      s'.audioFiles = s.audioFiles →
      (OnlyAt (generateCacheKey tradition c.variation) s.cachedAudio
          (generateUncached assets key tradition c s').2.cachedAudio ↔
        (s.getCachedAudioFromStorage (generateCacheKey tradition c.variation)
          c.readable).isSome = true ∨
          Spares assets key tradition c.variation c.turn s.cachedAudio) := by
    intro s' hbox hfiles
    have hsame : s.getCachedAudioFromStorage (generateCacheKey tradition c.variation) c.readable =
        s'.getCachedAudioFromStorage (generateCacheKey tradition c.variation) c.readable := by
      unfold SoundCaches.getCachedAudioFromStorage
      rw [hfiles]
    rw [hsame, ← hbox]
    cases hfile : s'.getCachedAudioFromStorage (generateCacheKey tradition c.variation)
        c.readable with
    | none =>
      rw [onlyAt_generateUncached assets key hfile]
      simp
    | some cachedAudio =>
      refine iff_of_true ?_ (Or.inl rfl)
      unfold generateUncached
      simp only [hfile]
      exact fun k _ => rfl
  unfold generateAmbientSound InCache
  dsimp only
  cases hmem : s.audioCache[generateCacheKey tradition c.variation]? with
  | none =>
    simp only [Option.isSome_none, Bool.false_eq_true, false_and, false_or]
    exact huncached s rfl rfl
  | some cached =>
    simp only [Option.isSome_some, true_and]
    split
    · rename_i hfresh
      exact iff_of_true (fun k _ => rfl) (Or.inl (Or.inl hfresh))
    · rename_i hstale
      rw [or_assoc, or_iff_right hstale]
      exact huncached _ rfl rfl

/-! ## A whole pre-generation -/

/-- What the items write, one after the other. -/
theorem cachedAudio_foldl (turns : String → Fin 11 → SoundTurn) (l : List (String × Fin 11))
    (s : SoundCaches) :
    (l.foldl (fun s e => preGenerateAmbientSound assets
      BackgroundPrefetchService.onAudioGenerated key e.1 e.2 (turns e.1 e.2) s) s).cachedAudio =
      Box.putAll (l.flatMap fun e => entries assets key e (turns e.1 e.2)) s.cachedAudio := by
  induction l generalizing s with
  | nil => rfl
  | cons e l ih =>
    obtain ⟨requests, h⟩ := preGenerateAmbientSound_eq assets key e (turns e.1 e.2) s
    rw [List.foldl_cons, ih, List.flatMap_cons, Box.putAll_append, h]
    rfl

/-- What an item writes stays, unless a later item writes something else. -/
theorem getElem?_preGenerate (turns : String → Fin 11 → SoundTurn) {e : String × Fin 11}
    {l₁ l₂ : List (String × Fin 11)} (hitems : items = l₁ ++ e :: l₂) {k x : String}
    (hwritten : ∀ b : Box String,
      (Box.putAll (entries assets key e (turns e.1 e.2)) b)[k]? = some x)
    (hlater : ∀ e' ∈ l₂, ∀ x', (k, x') ∈ entries assets key e' (turns e'.1 e'.2) → x' = x)
    (s : SoundCaches) :
    (preGenerateAmbientSounds assets BackgroundPrefetchService.onAudioGenerated key turns
      s).cachedAudio[k]? = some x := by
  rw [preGenerateAmbientSounds_eq, cachedAudio_foldl, hitems, List.flatMap_append,
    List.flatMap_cons, Box.putAll_append, Box.putAll_append]
  refine Box.getElem?_putAll_of_forall (fun p hp hk => ?_) (hwritten _)
  obtain ⟨e', he', hp⟩ := List.mem_flatMap.mp hp
  obtain ⟨k', x'⟩ := p
  obtain rfl : k' = k := hk
  exact hlater e' he' x' hp

omit [CaseMap] in
theorem later_items {e e' : String × Fin 11} {l₁ l₂ : List (String × Fin 11)}
    (hitems : items = l₁ ++ e :: l₂) (he' : e' ∈ l₂) :
    e'.1 ∈ traditions ∧ (e.1 = e'.1 → e.2 < e'.2) := by
  have hpair := pairwise_items
  rw [hitems, List.pairwise_append, List.pairwise_cons] at hpair
  refine ⟨mem_items.mp ?_, hpair.2.1.1 e' he'⟩
  rw [hitems]
  exact List.mem_append_right l₁ (List.mem_cons_of_mem _ he')

/-- What an item writes under the key of another is a local file, under the first variation. -/
theorem entry_of_other {e e' : String × Fin 11} {t : SoundTurn} {x : String}
    (he : e.1 ∈ traditions) (he' : e'.1 ∈ traditions) (hne : e ≠ e')
    (h : (generateCacheKey e.1 e.2, x) ∈ entries assets key e' t) :
    e = (e'.1, 0) ∧ apiAudio key t = none ∧
      ∃ bytes, assets (getFallbackAudioForTradition e'.1) = some bytes ∧ x = audioUrl bytes := by
  rcases mem_entries assets key h with ⟨heq, -⟩ | ⟨hfails, heq | heq, hfile⟩
  · exact absurd (itemKey_inj he he' heq) hne
  · exact ⟨@itemKey_inj _ e (e'.1, 0) he he' heq, hfails, hfile⟩
  · exact absurd (itemKey_inj he he' heq) hne

/-- A failing variation stores the local file when the first one is past. -/
theorem getElem?_first (turns : String → Fin 11 → SoundTurn) {tradition : String}
    (ht : tradition ∈ traditions) {variation : Fin 11} (hv : variation ≠ 0)
    (hfails : apiAudio key (turns tradition variation) = none) {bytes : List UInt8}
    (hbytes : assets (getFallbackAudioForTradition tradition) = some bytes) (s : SoundCaches) :
    (preGenerateAmbientSounds assets BackgroundPrefetchService.onAudioGenerated key turns
      s).cachedAudio[generateCacheKey tradition 0]? = some (audioUrl bytes) := by
  have hmem : (tradition, variation) ∈ items := mem_items.mpr ht
  obtain ⟨l₁, l₂, hitems⟩ := List.append_of_mem hmem
  refine getElem?_preGenerate assets key turns hitems (fun b => ?_) (fun e' he' x' hx' => ?_) s
  · have hne : generateCacheKey tradition variation ≠ generateCacheKey tradition 0 :=
      fun heq => hv (generateCacheKey_inj heq).2
    unfold entries fallbackEntries
    simp only [hfails, hbytes, Box.putAll_cons, Box.putAll_nil]
    rw [Box.getElem?_put_of_ne _ hne, Box.getElem?_put_of_ne _ hne, Box.getElem?_put_self]
  · obtain ⟨hmem', hlater⟩ := later_items hitems he'
    have hpast : (tradition, (0 : Fin 11)) ≠ e' := by
      rintro rfl
      exact absurd (hlater rfl) (Fin.not_lt_zero variation)
    obtain ⟨heq, -, bytes', hbytes', rfl⟩ :=
      @entry_of_other _ assets key (tradition, 0) e' _ x' ht hmem' hpast hx'
    rw [← congrArg Prod.fst heq, hbytes] at hbytes'
    rw [Option.some.inj hbytes']

theorem kept_iff (turns : String → Fin 11 → SoundTurn) (s : SoundCaches) :
    (∀ e ∈ items, ∀ audio, apiAudio key (turns e.1 e.2) = some audio →
      (preGenerateAmbientSounds assets BackgroundPrefetchService.onAudioGenerated key turns
        s).cachedAudio[generateCacheKey e.1 e.2]? = some audio) ↔
      FirstsKept assets key turns := by
  constructor
  · intro h tradition ht audio haudio variation hv hfails bytes hbytes
    have hfirst := h (tradition, 0) (mem_items.mpr ht) audio haudio
    exact Option.some.inj
      ((getElem?_first assets key turns ht hv hfails hbytes s).symm.trans hfirst)
  · intro h e he audio haudio
    obtain ⟨l₁, l₂, hitems⟩ := List.append_of_mem he
    refine getElem?_preGenerate assets key turns hitems (fun b => ?_) (fun e' he' x' hx' => ?_) s
    · unfold entries
      simp only [haudio, Box.putAll_cons, Box.putAll_nil]
      exact Box.getElem?_put_self _ _ _
    · obtain ⟨hmem', hlater⟩ := later_items hitems he'
      have hother : e ≠ e' := by
        rintro rfl
        exact absurd (hlater rfl) (lt_irrefl _)
      -- a later variation of the same tradition has failed
      obtain ⟨rfl, hfails, bytes, hbytes, rfl⟩ :=
        entry_of_other assets key (mem_items.mp he) hmem' hother hx'
      refine h e'.1 hmem' audio haudio e'.2 (fun hzero => hother ?_) hfails bytes hbytes
      exact Prod.ext rfl hzero.symm

/-- **A generation touches no other variation** exactly when it stores no local file under another
one; a call of `generateAmbientSound` may also be answered from its caches. A whole pre-generation
leaves every generated sound in the box exactly when no local file replaces that of a first
variation. -/
theorem failuresContained_iff :
    (∀ tradition variation t s,
      OnlyAt (generateCacheKey tradition variation) s.cachedAudio
          (preGenerateAmbientSound assets BackgroundPrefetchService.onAudioGenerated key tradition
            variation t s).cachedAudio ↔
        Spares assets key tradition variation t s.cachedAudio) ∧
    (∀ tradition c s,
      OnlyAt (generateCacheKey tradition c.variation) s.cachedAudio
          (generateAmbientSound assets key tradition c s).2.cachedAudio ↔
        InCache tradition c s ∨ Spares assets key tradition c.variation c.turn s.cachedAudio) ∧
    ∀ turns s,
      (∀ e ∈ items, ∀ audio, apiAudio key (turns e.1 e.2) = some audio →
        (preGenerateAmbientSounds assets BackgroundPrefetchService.onAudioGenerated key turns
          s).cachedAudio[generateCacheKey e.1 e.2]? = some audio) ↔
        FirstsKept assets key turns :=
  ⟨onlyAt_preGenerate assets key, onlyAt_generateAmbientSound assets key, kept_iff assets key⟩

end

/-! ## The second variation fails -/

/-- The request for the second variation throws, all others bring the same sound. -/
def secondFails (_ : String) (variation : Fin 11) : SoundTurn where
  speech := if variation.val = 1 then .throws else .response 200 [1]
  description := .throws
  descriptionSpeech := .throws

/-- Every local file is there. -/
def oneByteAssets (_ : String) : Option (List UInt8) := some [0]

/-- Generating the second variation writes the entry of the first, and after a whole pre-generation
the sound of the first is gone. -/
theorem not_contained_second :
    ¬ OnlyAt (@generateCacheKey CaseMap.ascii "Sufi Inspiration" 1) ∅
      (@preGenerateAmbientSound CaseMap.ascii oneByteAssets
        BackgroundPrefetchService.onAudioGenerated (.value "sk-1") "Sufi Inspiration" 1
        (secondFails "Sufi Inspiration" 1) {}).cachedAudio ∧
    ¬ ∀ e ∈ items, ∀ audio, apiAudio (.value "sk-1") (secondFails e.1 e.2) = some audio →
      (@preGenerateAmbientSounds CaseMap.ascii oneByteAssets
        BackgroundPrefetchService.onAudioGenerated (.value "sk-1") secondFails
        {}).cachedAudio[@generateCacheKey CaseMap.ascii e.1 e.2]? = some audio := by
  constructor
  · rw [show (∅ : Box String) = ({} : SoundCaches).cachedAudio from rfl,
      @onlyAt_preGenerate CaseMap.ascii]
    rintro (h | h | h)
    · exact absurd h (by decide)
    · exact absurd h (by decide)
    · exact Box.getElem?_empty_ne (h [0] rfl)
  · rw [@kept_iff CaseMap.ascii]
    intro h
    have hsame := h "Sufi Inspiration" (by simp [traditions]) (audioUrl [1]) rfl 1 (by decide) rfl
      [0] rfl
    exact absurd hsame (by decide)

end AIAudio

end MotiAI
