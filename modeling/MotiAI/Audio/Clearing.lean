import MotiAI.Audio.Fallback
import MotiAI.Audio.Ids
import MotiAI.Lib.Run

/-!
# Clearing a tradition

`clearCachedAudioForTradition` goes through the eleven variations of a tradition and takes each out of
the memory cache and out of the files. The box of cached audio, from which the player selects, is not
touched.

1. `sameAt_clear`, `notMem_clear`: what a clearing does to the memory cache and the files.
2. `mem_step`: the keys that a call adds to the box.
3. `soundsCleared_iff`: when nothing of a tradition is left.
-/

namespace MotiAI

open Dart Hive HiveQuoteService

namespace AIAudio

section

variable [CaseMap]

/-- The loop of `clearCachedAudioForTradition`, which ends with the first file that cannot be
deleted. -/
def clearVariations (tradition : String) (deletable : Fin 11 → Bool) :
    List (Fin 11) → SoundCaches → SoundCaches
  | [], s => s
  | variation :: rest, s =>
    let cacheKey := generateCacheKey tradition variation
    let s := { s with audioCache := s.audioCache.erase cacheKey }
    if deletable variation then
      clearVariations tradition deletable rest
        { s with audioFiles := s.audioFiles.erase cacheKey }
    else s

/-- `clearCachedAudioForTradition`, which catches what the file operations throw. -/
def clearCachedAudioForTradition (tradition : String) (deletable : Fin 11 → Bool) (s : SoundCaches) :
    SoundCaches :=
  clearVariations tradition deletable (List.finRange 11) s

/-- The two states have the same sound under a key, in memory, in a file and in the box. -/
structure SameAt (cacheKey : String) (s s' : SoundCaches) : Prop where
  memory : s'.audioCache[cacheKey]? = s.audioCache[cacheKey]?
  files : s'.audioFiles[cacheKey]? = s.audioFiles[cacheKey]?
  box : s'.cachedAudio[cacheKey]? = s.cachedAudio[cacheKey]?

/-- From `s` to `s'` the tradition was cleared: none of its sounds is left or found, and those of the
names with another sanitised form are as they were. -/
structure Cleared (tradition : String) (s s' : SoundCaches) : Prop where
  memory : ∀ v, generateCacheKey tradition v ∉ s'.audioCache
  files : ∀ v, generateCacheKey tradition v ∉ s'.audioFiles
  box : ∀ v, generateCacheKey tradition v ∉ s'.cachedAudio
  found : ∀ v, generateCacheKey tradition v ∉ getAIAudioKeysForTradition tradition s'.cachedAudio
  others : ∀ t v, sanitized t ≠ sanitized tradition → SameAt (generateCacheKey t v) s s'

/-! ## What a clearing does -/

/-- Every file can be deleted. -/
def clear (tradition : String) (s : SoundCaches) : SoundCaches :=
  clearCachedAudioForTradition tradition (fun _ => true) s

@[simp] theorem cachedAudio_clearVariations (tradition : String) (deletable : Fin 11 → Bool)
    (l : List (Fin 11)) (s : SoundCaches) :
    (clearVariations tradition deletable l s).cachedAudio = s.cachedAudio := by
  induction l generalizing s with
  | nil => rfl
  | cons variation rest ih =>
    unfold clearVariations
    dsimp only
    split
    · rw [ih]
    · rfl

/-- Other entries stay. -/
theorem getElem?_clearVariations {tradition cacheKey : String} {l : List (Fin 11)} (s : SoundCaches)
    (h : ∀ v ∈ l, generateCacheKey tradition v ≠ cacheKey) :
    (clearVariations tradition (fun _ => true) l s).audioCache[cacheKey]? =
        s.audioCache[cacheKey]? ∧
      (clearVariations tradition (fun _ => true) l s).audioFiles[cacheKey]? =
        s.audioFiles[cacheKey]? := by
  induction l generalizing s with
  | nil => exact ⟨rfl, rfl⟩
  | cons variation rest ih =>
    obtain ⟨hne, hrest⟩ := List.forall_mem_cons.mp h
    unfold clearVariations
    dsimp only
    rw [if_pos rfl, (ih _ hrest).1, (ih _ hrest).2]
    dsimp only
    rw [Box.getElem?_delete, if_neg hne, Box.getElem?_delete, if_neg hne]
    exact ⟨rfl, rfl⟩

/-- Nothing comes back. -/
theorem notMem_of_clearVariations {tradition cacheKey : String} {l : List (Fin 11)}
    {s : SoundCaches} (hcache : cacheKey ∉ s.audioCache) (hfiles : cacheKey ∉ s.audioFiles) :
    cacheKey ∉ (clearVariations tradition (fun _ => true) l s).audioCache ∧
      cacheKey ∉ (clearVariations tradition (fun _ => true) l s).audioFiles := by
  induction l generalizing s with
  | nil => exact ⟨hcache, hfiles⟩
  | cons variation rest ih =>
    unfold clearVariations
    dsimp only
    rw [if_pos rfl]
    exact ih (fun hmem => hcache (Box.mem_delete.mp hmem).2)
      (fun hmem => hfiles (Box.mem_delete.mp hmem).2)

/-- The variations gone through are taken out. -/
theorem notMem_clearVariations {tradition : String} {l : List (Fin 11)} {v : Fin 11} (hv : v ∈ l)
    (s : SoundCaches) :
    generateCacheKey tradition v ∉ (clearVariations tradition (fun _ => true) l s).audioCache ∧
      generateCacheKey tradition v ∉ (clearVariations tradition (fun _ => true) l s).audioFiles := by
  induction l generalizing s with
  | nil => exact absurd hv List.not_mem_nil
  | cons variation rest ih =>
    unfold clearVariations
    dsimp only
    rw [if_pos rfl]
    rcases List.mem_cons.mp hv with rfl | hrest
    · exact notMem_of_clearVariations (fun hmem => (Box.mem_delete.mp hmem).1 rfl)
        (fun hmem => (Box.mem_delete.mp hmem).1 rfl)
    · exact ih hrest _

/-- No variation is left in memory or in a file. -/
theorem notMem_clear (tradition : String) (v : Fin 11) (s : SoundCaches) :
    generateCacheKey tradition v ∉ (clear tradition s).audioCache ∧
      generateCacheKey tradition v ∉ (clear tradition s).audioFiles := by
  unfold clear clearCachedAudioForTradition
  exact notMem_clearVariations (List.mem_finRange v) s

theorem cachedAudio_clear (tradition : String) (s : SoundCaches) :
    (clear tradition s).cachedAudio = s.cachedAudio :=
  cachedAudio_clearVariations _ _ _ _

/-- The sounds of other names are as they were. -/
theorem sameAt_clear {t tradition : String} (h : sanitized t ≠ sanitized tradition) (v : Fin 11)
    (s : SoundCaches) : SameAt (generateCacheKey t v) s (clear tradition s) := by
  have hkeys : ∀ v' ∈ List.finRange 11, generateCacheKey tradition v' ≠ generateCacheKey t v :=
    fun v' _ heq => h (generateCacheKey_inj heq).1.symm
  obtain ⟨hmemory, hfiles⟩ := getElem?_clearVariations s hkeys
  refine ⟨hmemory, hfiles, ?_⟩
  rw [cachedAudio_clear]

/-- A clearing leaves nothing exactly when the box held nothing. -/
theorem cleared_clear_iff (tradition : String) (s : SoundCaches) :
    Cleared tradition s (clear tradition s) ↔
      ∀ v, generateCacheKey tradition v ∉ s.cachedAudio := by
  constructor
  · intro h v
    have hbox := h.box v
    rwa [cachedAudio_clear] at hbox
  · intro h
    refine ⟨fun v => (notMem_clear tradition v s).1, fun v => (notMem_clear tradition v s).2,
      fun v => ?_, fun v hmem => ?_, fun t v hne => sameAt_clear hne v s⟩
    · rw [cachedAudio_clear]
      exact h v
    · rw [cachedAudio_clear] at hmem
      exact h v (Std.ExtTreeMap.mem_keys.mp (List.mem_of_mem_filter hmem))

/-! ## The keys in the box -/

/-- `generateAmbientSound` or `preGenerateAmbientSounds` is called and goes through, or the
application is restarted. -/
inductive SoundMove where
  | generate (key : EnvEntry) (tradition : String) (c : SoundCall)
  | preGenerate (key : EnvEntry) (turns : String → Fin 11 → SoundTurn)
  | restart

/-- The names a move generates sounds for. -/
def SoundMove.names : SoundMove → List String
  | .generate _ tradition _ => [tradition]
  | .preGenerate _ _ => traditions
  | .restart => []

variable (assets : String → Option (List UInt8))

def step (s : SoundCaches) : SoundMove → Option SoundCaches
  | .generate key tradition c => some (generateAmbientSound assets key tradition c s).2
  | .preGenerate key turns => some
    (preGenerateAmbientSounds assets BackgroundPrefetchService.onAudioGenerated key turns s)
  | .restart => some s.restart

/-- The keys in the box were there before, or are those of this name. -/
def Adds (tradition : String) (b b' : Box String) : Prop :=
  ∀ k ∈ b', k ∈ b ∨ ∃ v, k = generateCacheKey tradition v

theorem adds_refl (tradition : String) (b : Box String) : Adds tradition b b := fun _ hk => Or.inl hk

theorem Adds.trans {tradition : String} {b b' b'' : Box String} (h : Adds tradition b b')
    (h' : Adds tradition b' b'') : Adds tradition b b'' := by
  intro k hk
  rcases h' k hk with hk | hk
  · exact h k hk
  · exact Or.inr hk

theorem adds_put (tradition audio : String) (v : Fin 11) (b : Box String) :
    Adds tradition b (b.insert (generateCacheKey tradition v) audio) := by
  intro k hk
  rcases Box.mem_put.mp hk with rfl | hk
  · exact Or.inr ⟨v, rfl⟩
  · exact Or.inl hk

theorem adds_saveAudioToStorage (tradition audio : String) (v : Fin 11) (writable : Bool)
    (s : SoundCaches) : Adds tradition s.cachedAudio
      (s.saveAudioToStorage (generateCacheKey tradition v) audio writable).cachedAudio := by
  unfold SoundCaches.saveAudioToStorage
  split
  · split
    · split
      · exact adds_put tradition audio v s.cachedAudio
      · exact adds_refl _ _
    · exact adds_put tradition audio v s.cachedAudio
  · exact adds_refl _ _

variable {assets}

theorem adds_generateAmbientSoundForTradition (key : EnvEntry) (tradition : String)
    (variation : Fin 11) (t : SoundTurn) (s : SoundCaches) : Adds tradition s.cachedAudio
      (generateAmbientSoundForTradition assets key tradition variation t s).2.cachedAudio := by
  obtain ⟨requests, h⟩ := generateAmbientSoundForTradition_eq assets key tradition variation t s
  rw [h]
  cases apiAudio key t with
  | some audio => exact adds_refl _ _
  | none =>
    unfold convertFallbackToBase64
    dsimp only
    split
    · exact adds_put tradition _ 0 s.cachedAudio
    · exact adds_refl _ _

theorem adds_generateUncached (key : EnvEntry) (tradition : String) (c : SoundCall)
    (s : SoundCaches) : Adds tradition s.cachedAudio
      (generateUncached assets key tradition c s).2.cachedAudio := by
  have hgen := @adds_generateAmbientSoundForTradition _ assets key tradition c.variation c.turn s
  unfold generateUncached
  dsimp only
  split
  · exact adds_refl _ _
  · split
    · rename_i audioData s' hs'
      rw [hs'] at hgen
      exact hgen.trans (adds_saveAudioToStorage tradition audioData c.variation c.writable _)
    · rename_i s' hs'
      rw [hs'] at hgen
      exact hgen

theorem adds_generateAmbientSound (key : EnvEntry) (tradition : String) (c : SoundCall)
    (s : SoundCaches) : Adds tradition s.cachedAudio
      (generateAmbientSound assets key tradition c s).2.cachedAudio := by
  unfold generateAmbientSound
  dsimp only
  split
  · split
    · exact adds_refl _ _
    · exact adds_generateUncached key tradition c
        (s.forget (generateCacheKey tradition c.variation))
  · exact adds_generateUncached key tradition c s

theorem adds_preGenerateAmbientSound (key : EnvEntry) (e : String × Fin 11) (t : SoundTurn)
    (s : SoundCaches) : Adds e.1 s.cachedAudio
      (preGenerateAmbientSound assets BackgroundPrefetchService.onAudioGenerated key e.1 e.2 t
        s).cachedAudio := by
  have hgen := @adds_generateAmbientSoundForTradition _ assets key e.1 e.2 t s
  unfold preGenerateAmbientSound
  split
  · rename_i audioData s' hs'
    rw [hs'] at hgen
    exact hgen.trans ((adds_put e.1 audioData e.2 _).trans (adds_put e.1 audioData e.2 _))
  · rename_i s' hs'
    rw [hs'] at hgen
    exact hgen

/-- **What a move adds** to the box has a key of one of its names. -/
theorem mem_step {s s' : SoundCaches} {m : SoundMove} (hs : step assets s m = some s') {k : String}
    (hk : k ∈ s'.cachedAudio) :
    k ∈ s.cachedAudio ∨ ∃ t ∈ m.names, ∃ v, k = generateCacheKey t v := by
  cases m with
  | generate key tradition c =>
    obtain rfl := Option.some.inj hs
    rcases adds_generateAmbientSound key tradition c s k hk with hk | hk
    · exact Or.inl hk
    · exact Or.inr ⟨tradition, List.mem_singleton.mpr rfl, hk⟩
  | preGenerate key turns =>
    obtain rfl := Option.some.inj hs
    rw [preGenerateAmbientSounds_eq] at hk
    -- the items one after the other
    refine List.foldlRecOn (motive := fun s' : SoundCaches => k ∈ s'.cachedAudio →
      k ∈ s.cachedAudio ∨ ∃ t ∈ traditions, ∃ v, k = generateCacheKey t v) items _
      (fun hk => Or.inl hk) (fun s' ih e he hk => ?_) hk
    rcases adds_preGenerateAmbientSound key e _ s' k hk with hk | hk
    · exact ih hk
    · exact Or.inr ⟨e.1, mem_items.mp he, hk⟩
  | restart =>
    obtain rfl := Option.some.inj hs
    exact Or.inl hk

/-! ## Nothing left -/

/-- The move generates no sound for the tradition or a name with its sanitised form. -/
def Elsewhere (tradition : String) (_ : SoundCaches) (m : SoundMove) (_ : SoundCaches) : Prop :=
  ∀ t ∈ m.names, sanitized t ≠ sanitized tradition

/-- The box holds no sound of the tradition. -/
def Without (tradition : String) (s : SoundCaches) : Prop :=
  ∀ v, generateCacheKey tradition v ∉ s.cachedAudio

theorem Without.step {tradition : String} {s s' : SoundCaches} {m : SoundMove}
    (h : Without tradition s) (hs : step assets s m = some s') (hm : Elsewhere tradition s m s') :
    Without tradition s' := by
  intro v hmem
  rcases mem_step hs hmem with hold | ⟨t, ht, v', heq⟩
  · exact h v hold
  · exact hm t ht (generateCacheKey_inj heq).1.symm

/-- **When a tradition is cleared.** A clearing leaves nothing of it exactly when the box held none of
its sounds; so it does after any calls for other names, from an installation on. -/
theorem soundsCleared_iff (assets : String → Option (List UInt8)) (tradition : String) :
    (∀ s, Cleared tradition s (clear tradition s) ↔
      ∀ v, generateCacheKey tradition v ∉ s.cachedAudio) ∧
    ∀ moves, Run.Each (step assets) (Elsewhere tradition) {} moves →
      Run.Each (step assets) (fun _ _ s' => Cleared tradition s' (clear tradition s')) {} moves := by
  refine ⟨cleared_clear_iff tradition, fun moves hmoves => ?_⟩
  refine Run.each_of_invariant (I := Without tradition) (fun s m s' h hs hm => ?_) moves {} ?_ hmoves
  · have hs' := h.step hs hm
    exact ⟨hs', (cleared_clear_iff tradition s').mpr hs'⟩
  · exact fun v => Std.ExtTreeMap.not_mem_empty

end

/-! ## One sound -/

/-- The first variation, answered with no bytes. -/
def firstCall : SoundCall where
  millis := 0
  asked := 0
  received := 0
  readable := true
  writable := true
  turn := { speech := .response 200 [], description := .throws, descriptionSpeech := .throws }

/-- After a sound for Zen, Sufi is cleared. -/
theorem soundsCleared_sufi : ∃ s,
    @step CaseMap.ascii (fun _ => none) {} (.generate (.value "key") "Zen" firstCall) = some s ∧
      @Cleared CaseMap.ascii "Sufi" s (@clear CaseMap.ascii "Sufi" s) := by
  have hnames : @sanitized CaseMap.ascii "Zen" ≠ @sanitized CaseMap.ascii "Sufi" := by
    decide +kernel
  have hrun := (@soundsCleared_iff CaseMap.ascii (fun _ => none) "Sufi").2
    [.generate (.value "key") "Zen" firstCall]
    (Run.each_of_forall_mem fun m hm _ _ t ht => by
      obtain rfl := List.mem_singleton.mp hm
      obtain rfl := List.mem_singleton.mp ht
      exact hnames)
  exact ⟨_, rfl, (hrun _ rfl).1⟩

/-- After a sound for Zen, Zen is cleared, and the sound is still found. -/
theorem not_soundsCleared_zen : ∃ s,
    @step CaseMap.ascii (fun _ => none) {} (.generate (.value "key") "Zen" firstCall) = some s ∧
      "ai_audio_zen_1" ∈ @getAIAudioKeysForTradition CaseMap.ascii "Zen"
        (@clear CaseMap.ascii "Zen" s).cachedAudio ∧
      ¬ @Cleared CaseMap.ascii "Zen" s (@clear CaseMap.ascii "Zen" s) := by
  have hkey : @generateCacheKey CaseMap.ascii "Zen" ⟨0, by decide⟩ = "ai_audio_zen_1" := by
    decide +kernel
  have hfound : "ai_audio_zen_1" ∈ @getAIAudioKeysForTradition CaseMap.ascii "Zen"
      (@clear CaseMap.ascii "Zen" (@generateAmbientSound CaseMap.ascii (fun _ => none)
        (.value "key") "Zen" firstCall {}).2).cachedAudio := by
    rw [@cachedAudio_clear CaseMap.ascii]
    decide +kernel
  refine ⟨_, rfl, hfound, fun h => ?_⟩
  refine @Cleared.found CaseMap.ascii _ _ _ h ⟨0, by decide⟩ ?_
  rw [hkey]
  exact hfound

end AIAudio

end MotiAI
