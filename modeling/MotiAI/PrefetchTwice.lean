import MotiAI.Audio.Generator
import MotiAI.Image.Prefetch

/-!
# Prefetching twice

The two prefetches of `BackgroundPrefetchService`, and a second one in the same process or after a
restart, which keeps the files and the boxes. Only the memory of the images is consulted, and nothing
of the sounds.

1. `settled_iff`: when the requests of the first run succeed, the second run sends nothing and leaves
   everything as it was exactly when it fetches images in the same process, or has no usable key.
2. `not_settled_restarted`: after a restart all images are requested again.
-/

namespace MotiAI

open Dart Hive BackgroundPrefetchService

/-- The state of both generators with the two boxes. -/
structure Caches where
  images : Images := {}
  cachedImages : Box Val := ∅
  sounds : SoundCaches := {}

/-- `STABILITY_API_KEY` and `ANTHROPIC_API_KEY`. -/
structure Keys where
  stability : EnvEntry
  anthropic : EnvEntry

/-- What the items of a run meet. -/
structure Outcomes where
  images : String → Fin 8 → StabilityAI.ApiTurn
  sounds : String → Fin 11 → SoundTurn

inductive PrefetchKind where
  | images
  | sounds

/-- How the second run is reached. -/
inductive Second where
  | sameProcess
  | restarted

def Second.reach : Second → Caches → Caches
  | .sameProcess, c => c
  | .restarted, c => { c with images := c.images.restart, sounds := c.sounds.restart }

namespace Caches

/-- The key of a prefetch is usable. -/
def usable (keys : Keys) : PrefetchKind → Bool
  | .images => StabilityAI.hasKey keys.stability
  | .sounds => AIAudio.hasKey keys.anthropic

/-- No request is sent, and the images and sounds in memory, in files and in the boxes are as they
were. Without a key, the calls of the image generator send nothing. -/
structure Settled (keys : Keys) (c c' : Caches) : Prop where
  imageRequests : StabilityAI.hasKey keys.stability = true →
    c'.images.requests = c.images.requests
  soundRequests : c'.sounds.requests = c.sounds.requests
  imageCache : c'.images.imageCache = c.images.imageCache
  imageFiles : c'.images.imageFiles = c.images.imageFiles
  cachedImages : c'.cachedImages = c.cachedImages
  audioCache : c'.sounds.audioCache = c.sounds.audioCache
  audioFiles : c'.sounds.audioFiles = c.sounds.audioFiles
  cachedAudio : c'.sounds.cachedAudio = c.sounds.cachedAudio

theorem Settled.refl (keys : Keys) (c : Caches) : Settled keys c c :=
  ⟨fun _ => rfl, rfl, rfl, rfl, rfl, rfl, rfl, rfl⟩

section

variable [CaseMap] (assets : String → Option (List UInt8))

/-- `preFetchImages` or `preGenerateAmbientSounds` with the callback that stores in the box. -/
def prefetch (keys : Keys) (o : Outcomes) : PrefetchKind → Caches → Caches
  | .images, c =>
    let s := Images.preFetchImages onImageGenerated (Images.apiTurns keys.stability o.images)
      (c.images, c.cachedImages)
    { c with images := s.1, cachedImages := s.2 }
  | .sounds, c =>
    { c with
      sounds := AIAudio.preGenerateAmbientSounds assets onAudioGenerated keys.anthropic o.sounds
        c.sounds }

/-- Every request of the run brings an image, or speech. -/
def Succeeded (keys : Keys) (o : Outcomes) (c : Caches) : PrefetchKind → Prop
  | .images => Images.AllSucceed keys.stability o.images c.images
  | .sounds => ∀ e ∈ AIAudio.items, AIAudio.hasKey keys.anthropic = true →
    ∃ bytes, (o.sounds e.1 e.2).speech = .response 200 bytes

/-! ## Images -/

/-- After a first run with a usable key all items are in memory. -/
theorem mem_prefetch {keys : Keys} {o : Outcomes} {c : Caches}
    (hkey : StabilityAI.hasKey keys.stability = true)
    (h : Images.AllSucceed keys.stability o.images c.images) :
    ∀ e ∈ Images.items, Images.itemKey e ∈ (prefetch assets keys o .images c).images.imageCache := by
  intro e he
  unfold prefetch
  dsimp only
  rw [Images.preFetchImages_eq, Images.mem_preFetchItems]
  by_cases hmem : Images.itemKey e ∈ c.images.imageCache
  · exact Or.inl hmem
  · exact Or.inr ⟨e, he, rfl, (Images.accepts_iff_hasKey h he hmem).mpr hkey⟩

/-- With all items in memory a run does nothing. -/
theorem prefetch_of_mem {keys : Keys} {o : Outcomes} {c : Caches}
    (h : ∀ e ∈ Images.items, Images.itemKey e ∈ c.images.imageCache) :
    prefetch assets keys o .images c = c := by
  unfold prefetch
  dsimp only
  rw [Images.preFetchImages_eq, Images.preFetchItems_of_mem _ _ h]

/-- Without a key a run only calls the generator. -/
theorem settled_of_no_key {keys : Keys} {o : Outcomes} {c : Caches}
    (hkey : StabilityAI.hasKey keys.stability = false) :
    Settled keys c (prefetch assets keys o .images c) := by
  have hno : ∀ e ∈ Images.items,
      ¬ Images.Accepts (Images.apiTurns keys.stability o.images e.1 e.2) :=
    fun e _ => Images.not_accepts_of_no_key hkey _ _
  obtain ⟨requests, h⟩ :=
    Images.preFetchItems_of_not_accepts onImageGenerated hno (c.images, c.cachedImages)
  unfold prefetch
  dsimp only
  rw [Images.preFetchImages_eq, h]
  refine ⟨fun hyes => ?_, rfl, rfl, rfl, rfl, rfl, rfl, rfl⟩
  rw [hkey] at hyes
  cases hyes

/-- With a key and an empty memory a run sends requests. -/
theorem not_settled_of_empty {keys : Keys} {o : Outcomes} {c : Caches}
    (hkey : StabilityAI.hasKey keys.stability = true) (hempty : c.images.imageCache = ∅) :
    ¬ Settled keys c (prefetch assets keys o .images c) := by
  intro h
  have hlt := Images.requests_preFetchImages onImageGenerated
    (Images.apiTurns keys.stability o.images) (s := (c.images, c.cachedImages)) hempty
  have hsame := h.imageRequests hkey
  unfold prefetch at hsame
  dsimp only at hsame
  rw [hsame] at hlt
  exact lt_irrefl _ hlt

/-! ## Sounds -/

/-- Without a key a second run stores what the first has stored. -/
theorem settled_sounds {keys : Keys} {o o' : Outcomes} {c : Caches} {second : Second}
    (hkey : AIAudio.hasKey keys.anthropic = false) :
    Settled keys (second.reach (prefetch assets keys o .sounds c))
      (prefetch assets keys o' .sounds (second.reach (prefetch assets keys o .sounds c))) := by
  have hrun : ∀ o c, prefetch assets keys o .sounds c = { c with
      sounds := AIAudio.putAudio (AIAudio.items.flatMap (AIAudio.fallbackEntries assets))
        c.sounds } := by
    intro o c
    unfold prefetch
    dsimp only
    rw [AIAudio.noKey_preGenerate assets hkey]
  rw [hrun, hrun]
  cases second with
  | sameProcess => exact ⟨fun _ => rfl, rfl, rfl, rfl, rfl, rfl, rfl, Box.putAll_putAll _ _⟩
  | restarted => exact ⟨fun _ => rfl, rfl, rfl, rfl, rfl, rfl, rfl, Box.putAll_putAll _ _⟩

/-- With a key every run sends requests. -/
theorem not_settled_sounds {keys : Keys} {o : Outcomes} {c : Caches}
    (hkey : AIAudio.hasKey keys.anthropic = true) :
    ¬ Settled keys c (prefetch assets keys o .sounds c) := by
  intro h
  have hlt := AIAudio.requests_preGenerate assets onAudioGenerated hkey o.sounds c.sounds
  have hsame := h.soundRequests
  unfold prefetch at hsame
  dsimp only at hsame
  rw [hsame] at hlt
  exact lt_irrefl _ hlt

/-- **A second run is idle** after a first one whose requests succeeded exactly when it fetches images
in the same process, or its key is not usable. -/
theorem settled_iff (keys : Keys) (kind : PrefetchKind) (second : Second) (o o' : Outcomes) (c : Caches)
    (h : Succeeded keys o c kind) :
    Settled keys (second.reach (prefetch assets keys o kind c))
        (prefetch assets keys o' kind (second.reach (prefetch assets keys o kind c))) ↔
      kind = .images ∧ second = .sameProcess ∨ usable keys kind = false := by
  cases kind with
  | sounds =>
    cases hkey : AIAudio.hasKey keys.anthropic with
    | true => simp [usable, hkey, not_settled_sounds assets hkey]
    | false => simp [usable, hkey, settled_sounds assets hkey]
  | images =>
    cases hkey : StabilityAI.hasKey keys.stability with
    | false => simp [usable, hkey, settled_of_no_key assets hkey]
    | true =>
      cases second with
      | sameProcess =>
        have hsame : prefetch assets keys o' .images (prefetch assets keys o .images c) =
            prefetch assets keys o .images c :=
          prefetch_of_mem assets (mem_prefetch assets hkey h)
        simp [Second.reach, hsame, Settled.refl]
      | restarted =>
        have hno : ¬ Settled keys (Second.restarted.reach (prefetch assets keys o .images c))
            (prefetch assets keys o' .images
              (Second.restarted.reach (prefetch assets keys o .images c))) :=
          not_settled_of_empty assets hkey rfl
        simp [usable, hkey, hno]

end

/-! ## Second runs -/

/-- Both keys are usable. -/
def fullKeys : Keys := ⟨StabilityAI.fullKey, .value "k"⟩

/-- All requests are answered with the bytes `ABC`. -/
def abcOutcomes : Outcomes where
  images _ _ := Images.abcTurn
  sounds _ _ := ⟨.response 200 [65, 66, 67], .throws, .throws⟩

theorem succeeded_abcOutcomes [CaseMap] (c : Caches) (kind : PrefetchKind) :
    Succeeded fullKeys abcOutcomes c kind := by
  cases kind with
  | images => exact Images.allSucceed_abcTurn _ _
  | sounds => exact fun _ _ _ => ⟨_, rfl⟩

/-- Fetching the images of an installation twice in one process. -/
theorem settled_sameProcess :
    Settled fullKeys (@prefetch CaseMap.ascii (fun _ => none) fullKeys abcOutcomes .images {})
      (@prefetch CaseMap.ascii (fun _ => none) fullKeys abcOutcomes .images
        (@prefetch CaseMap.ascii (fun _ => none) fullKeys abcOutcomes .images {})) :=
  (@settled_iff CaseMap.ascii (fun _ => none) fullKeys .images .sameProcess abcOutcomes abcOutcomes
    {} (@succeeded_abcOutcomes CaseMap.ascii _ _)).mpr (Or.inl ⟨rfl, rfl⟩)

/-- After a restart the images are requested again, and the sounds without one too. -/
theorem not_settled_restarted :
    (@Succeeded CaseMap.ascii fullKeys abcOutcomes {} .images ∧
      ¬ Settled fullKeys
        (Second.restarted.reach
          (@prefetch CaseMap.ascii (fun _ => none) fullKeys abcOutcomes .images {}))
        (@prefetch CaseMap.ascii (fun _ => none) fullKeys abcOutcomes .images
          (Second.restarted.reach
            (@prefetch CaseMap.ascii (fun _ => none) fullKeys abcOutcomes .images {})))) ∧
    (@Succeeded CaseMap.ascii fullKeys abcOutcomes {} .sounds ∧
      ¬ Settled fullKeys (@prefetch CaseMap.ascii (fun _ => none) fullKeys abcOutcomes .sounds {})
        (@prefetch CaseMap.ascii (fun _ => none) fullKeys abcOutcomes .sounds
          (@prefetch CaseMap.ascii (fun _ => none) fullKeys abcOutcomes .sounds {}))) := by
  refine ⟨⟨@succeeded_abcOutcomes CaseMap.ascii _ _, ?_⟩,
    ⟨@succeeded_abcOutcomes CaseMap.ascii _ _, ?_⟩⟩
  · exact @not_settled_of_empty CaseMap.ascii _ _ _ _ StabilityAI.hasKey_fullKey rfl
  · exact @not_settled_sounds CaseMap.ascii _ _ _ _ (by decide)

end Caches

end MotiAI
