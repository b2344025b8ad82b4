import MotiAI.Audio.Storage
import MotiAI.Image.Api
import MotiAI.Lib.Mirror
import MotiAI.Lib.Run

/-!
# Files and the values saved in them

Runs of `generateImage`, and runs of `generateAmbientSound`, with the clock, restarts and the replies
of the API, when files can be read and written. A file holds decoded bytes, and an answer from a file
is put together again.

1. `generateImage_cases`, `generateAmbientSound_cases`: from where a call is answered.
2. `filesAgree`: an answer from a file is the value last saved under its cache key, and only data
   URLs are written to files.
-/

namespace MotiAI

open Dart Hive Mirror

/-! ## Images -/

namespace Images

open StabilityAI

/-- A call of `generateImage` when files can be read and written. The image in a reply is canonical
Base64. -/
structure Call where
  prompt : String
  key : EnvEntry
  asked : ℤ
  received : ℤ
  reply : Reply (Option Plain)
  millis : ℕ
  canonical : ∀ base64Image, replyImage reply = some base64Image →
    ∃ bytes, base64Image = base64Encode bytes

inductive Op where
  | generate (c : Call)
  | restart

/-- The image service, and all that was handed to `_saveImageToStorage`, with its cache key. -/
structure Saving where
  images : Images := {}
  saves : List (String × String) := []

/-- The answer of a file. -/
def readFile (bytes : List UInt8) : String := "data:image/png;base64," ++ base64Encode bytes

def isDataUrl (imageData : String) : Bool := startsWith imageData "data:image/"

section

variable [CaseMap]

def Call.turn (c : Call) : ImageTurn :=
  ApiTurn.turn c.key c.prompt
    { asked := c.asked, received := c.received, readable := true, writable := true,
      reply := c.reply, millis := c.millis }

/-- The call is answered from the memory cache. -/
def fromMemory (prompt : String) (t : ImageTurn) (s : Images) : Bool :=
  s.imageCache[generateCacheKey prompt]?.isSome && s.isFresh (generateCacheKey prompt) t.asked

/-- The call is answered from a file. -/
def fromFile (prompt : String) (t : ImageTurn) (s : Images) : Bool :=
  !fromMemory prompt t s &&
    (s.getCachedImageFromStorage (generateCacheKey prompt) t.readable).isSome

/-- What the call hands to `_saveImageToStorage`: an image that comes from none of the caches. -/
def saved (prompt : String) (t : ImageTurn) (s : Images) : List (String × String) :=
  if fromMemory prompt t s || fromFile prompt t s then []
  else match (generateImage prompt t s).1 with
    | .image image => [(generateCacheKey prompt, image)]
    | _ => []

def Saving.step (w : Saving) : Op → Option Saving
  | .generate c => some
    { images := (generateImage c.prompt c.turn w.images).2
      saves := w.saves ++ saved c.prompt c.turn w.images }
  | .restart => some { w with images := w.images.restart }

/-- The operation answers from a file what was saved last, and writes only a data URL to a file. -/
structure Agree (w : Saving) (op : Op) (w' : Saving) : Prop where
  answer : ∀ c, op = .generate c → fromFile c.prompt c.turn w.images = true → ∃ image,
    (generateImage c.prompt c.turn w.images).1 = .image image ∧
      lastKept isDataUrl w.saves (generateCacheKey c.prompt) = some image
  files : ∀ cacheKey : String,
    w'.images.imageFiles[cacheKey]? ≠ w.images.imageFiles[cacheKey]? → ∃ imageData,
      w'.saves = w.saves ++ [(cacheKey, imageData)] ∧ isDataUrl imageData = true

omit [CaseMap] in
theorem imageFiles_saveImageToStorage {s s' : Images} (h : s'.imageFiles = s.imageFiles)
    (cacheKey imageData : String) (writable : Bool) :
    (s'.saveImageToStorage cacheKey imageData writable).imageFiles =
      (s.saveImageToStorage cacheKey imageData writable).imageFiles := by
  unfold saveImageToStorage
  split
  · split
    · show s'.imageFiles.insert cacheKey _ = s.imageFiles.insert cacheKey _
      rw [h]
    · exact h
  · exact h

/-- Without a sound in memory, a call is answered from the file or ends like the request. -/
theorem generateUncached_cases {s s' : Images} (h : s'.imageFiles = s.imageFiles) (prompt : String)
    (t : ImageTurn) :
    (∃ image, s.getCachedImageFromStorage (generateCacheKey prompt) t.readable = some image ∧
      (s'.generateUncached prompt t).1 = .image image ∧
      (s'.generateUncached prompt t).2.imageFiles = s.imageFiles) ∨
    (s.getCachedImageFromStorage (generateCacheKey prompt) t.readable = none ∧
      (s'.generateUncached prompt t).1 = t.generated ∧
      (s'.generateUncached prompt t).2.imageFiles = match t.generated with
        | .image image =>
          (s.saveImageToStorage (generateCacheKey prompt) image t.writable).imageFiles
        | _ => s.imageFiles) := by
  have hread : s'.getCachedImageFromStorage (generateCacheKey prompt) t.readable =
      s.getCachedImageFromStorage (generateCacheKey prompt) t.readable := by
    unfold getCachedImageFromStorage
    rw [h]
  unfold generateUncached Images.generateNewImage
  dsimp only
  rw [hread]
  cases hfile : s.getCachedImageFromStorage (generateCacheKey prompt) t.readable with
  | some image => exact Or.inl ⟨image, rfl, rfl, h⟩
  | none =>
    refine Or.inr ⟨rfl, ?_⟩
    cases t.generated with
    | image image =>
      refine ⟨rfl, @imageFiles_saveImageToStorage s _ ?_ _ _ _⟩
      exact h
    | null => exact ⟨rfl, h⟩
    | throws => exact ⟨rfl, h⟩

/-- **The three ways of an answer**: from memory, from a file, or by a request. -/
theorem generateImage_cases (prompt : String) (t : ImageTurn) (s : Images) :
    (fromMemory prompt t s = true ∧ (generateImage prompt t s).2 = s) ∨
    (fromMemory prompt t s = false ∧ ∃ image,
      s.getCachedImageFromStorage (generateCacheKey prompt) t.readable = some image ∧
        (generateImage prompt t s).1 = .image image ∧
        (generateImage prompt t s).2.imageFiles = s.imageFiles) ∨
    (fromMemory prompt t s = false ∧
      s.getCachedImageFromStorage (generateCacheKey prompt) t.readable = none ∧
      (generateImage prompt t s).1 = t.generated ∧
      (generateImage prompt t s).2.imageFiles = match t.generated with
        | .image image =>
          (s.saveImageToStorage (generateCacheKey prompt) image t.writable).imageFiles
        | _ => s.imageFiles) := by
  unfold generateImage fromMemory
  dsimp only
  cases s.imageCache[generateCacheKey prompt]? with
  | none =>
    right
    exact (generateUncached_cases rfl prompt t).imp (fun h => ⟨rfl, h⟩) fun h => ⟨rfl, h⟩
  | some cached =>
    cases s.isFresh (generateCacheKey prompt) t.asked with
    | true => exact Or.inl ⟨rfl, rfl⟩
    | false =>
      right
      have h := @generateUncached_cases _ s (s.forget (generateCacheKey prompt)) rfl prompt t
      exact h.imp (fun h => ⟨rfl, h⟩) fun h => ⟨rfl, h⟩

/-! ## What is saved -/

/-- A request ends with an image of canonical Base64 or with a photo. -/
theorem generated_cases (c : Call) :
    (∃ bytes, c.turn.generated = .image (readFile bytes)) ∨
      ∃ id, c.turn.generated = .image (photo id) := by
  by_cases h : Succeeds c.key c.reply
  · left
    obtain ⟨base64Image, himage⟩ := Option.isSome_iff_exists.mp h.2
    obtain ⟨bytes, rfl⟩ := c.canonical base64Image himage
    exact ⟨bytes, congrArg Generated.image (generateNewImage_of_image h.1 himage)⟩
  · right
    obtain ⟨id, hid⟩ := exists_photo_of_not_succeeds h c.prompt c.millis
    exact ⟨id, congrArg Generated.image hid⟩

omit [CaseMap] in
theorem isDataUrl_readFile (bytes : List UInt8) : isDataUrl (readFile bytes) = true := by
  have hmime : "data:image/".toList <+: "data:image/png;base64,".toList := by decide
  unfold isDataUrl readFile
  rw [startsWith_iff, String.toList_append]
  exact hmime.trans (List.prefix_append _ _)

omit [CaseMap] in
theorem isDataUrl_photo (id : String) : isDataUrl (photo id) = false := by
  apply eq_false_of_ne_true
  unfold isDataUrl photo
  rw [startsWith_iff, String.toList_append, String.toList_append, List.append_assoc]
  exact fun h => absurd (List.cons_prefix_cons.mp h).1 (by decide)

omit [CaseMap] in
theorem saveImageToStorage_readFile (cacheKey : String) (bytes : List UInt8) (s : Images) :
    (s.saveImageToStorage cacheKey (readFile bytes) true).imageFiles =
      s.imageFiles.insert cacheKey bytes := by
  have hbytes : (split ',' (readFile bytes))[1]?.bind base64Decode = some bytes := by
    unfold readFile
    rw [getElem?_split_append (l := "data:image/png;base64".toList) rfl (by decide)
      (notMem_base64Encode (by decide) bytes)]
    exact base64Decode_base64Encode bytes
  unfold saveImageToStorage
  rw [hbytes, Bool.true_and]
  exact congrArg imageFiles (if_pos (isDataUrl_readFile bytes))

omit [CaseMap] in
theorem saveImageToStorage_photo (cacheKey id : String) (writable : Bool) (s : Images) :
    s.saveImageToStorage cacheKey (photo id) writable = s := by
  unfold saveImageToStorage
  rw [show startsWith (photo id) "data:image/" = false from isDataUrl_photo id, Bool.and_false]
  rfl

/-- The files by cache key. -/
def Saving.files (w : Saving) (cacheKey : String) : Option (List UInt8) :=
  w.images.imageFiles[cacheKey]?

/-- A call saves an image of the API, which is kept, or a photo, which is not, or nothing. -/
theorem Saving.effect_generate {w w' : Saving} {c : Call} (h : w.step (.generate c) = some w') :
    Effect isDataUrl readFile w.files w'.files w.saves w'.saves := by
  obtain rfl := Option.some.inj h
  rcases generateImage_cases c.prompt c.turn w.images with ⟨hmem, hsame⟩ |
    ⟨hmem, image, hfile, hanswer, hfiles⟩ | ⟨hmem, hfile, hanswer, hfiles⟩
  · refine .none (funext fun cacheKey => ?_) ?_
    · exact congrArg (fun s : Images => s.imageFiles[cacheKey]?) hsame
    · show w.saves ++ saved c.prompt c.turn w.images = _
      unfold saved
      rw [hmem]
      exact List.append_nil _
  · refine .none (funext fun cacheKey => ?_) ?_
    · exact congrArg (fun b : Box (List UInt8) => b[cacheKey]?) hfiles
    · show w.saves ++ saved c.prompt c.turn w.images = _
      unfold saved fromFile
      rw [hmem, hfile]
      exact List.append_nil _
  · have hsaved : saved c.prompt c.turn w.images = match c.turn.generated with
        | .image image => [(generateCacheKey c.prompt, image)]
        | _ => [] := by
      unfold saved fromFile
      rw [hmem, hfile, hanswer]
      rfl
    rcases generated_cases c with ⟨bytes, hgen⟩ | ⟨id, hgen⟩
    · rw [hgen] at hfiles hsaved
      refine .keep (isDataUrl_readFile bytes) rfl (fun cacheKey => ?_)
        (congrArg (w.saves ++ ·) hsaved)
      have hwrite := hfiles.trans (saveImageToStorage_readFile _ bytes _)
      exact (congrArg (fun b : Box (List UInt8) => b[cacheKey]?) hwrite).trans
        (Box.getElem?_put _ _ _ _)
    · rw [hgen] at hfiles hsaved
      refine .drop (isDataUrl_photo id) ?_ (congrArg (w.saves ++ ·) hsaved)
      have hsame := hfiles.trans (congrArg imageFiles (saveImageToStorage_photo _ id _ _))
      funext cacheKey
      exact congrArg (fun b : Box (List UInt8) => b[cacheKey]?) hsame

theorem Saving.effect_step {w w' : Saving} {op : Op} (h : w.step op = some w') :
    Effect isDataUrl readFile w.files w'.files w.saves w'.saves := by
  cases op with
  | generate c => exact Saving.effect_generate h
  | restart =>
    obtain rfl := Option.some.inj h
    exact .none rfl rfl

/-- When the files mirror what was saved, so does an answer from a file. -/
theorem Saving.agree_step {w w' : Saving} {op : Op}
    (hw : Mirrors isDataUrl readFile w.files w.saves) (h : w.step op = some w') :
    Agree w op w' := by
  refine ⟨?_, fun cacheKey hne => (Saving.effect_step h).saved hne⟩
  rintro c rfl hfrom
  unfold fromFile at hfrom
  rw [Bool.and_eq_true, Bool.not_eq_true'] at hfrom
  rcases generateImage_cases c.prompt c.turn w.images with ⟨hmem, -⟩ |
    ⟨-, image, hfile, hanswer, -⟩ | ⟨-, hfile, -⟩
  · exact absurd (hfrom.1.symm.trans hmem) Bool.false_ne_true
  · exact ⟨image, hanswer, (hw (generateCacheKey c.prompt)).symm.trans hfile⟩
  · rw [hfile] at hfrom
    cases hfrom.2

/-- Every run of calls and restarts from the first start. -/
theorem Saving.agree (ops : List Op) : Run.Each Saving.step Agree {} ops := by
  refine Run.each_of_invariant (P := fun _ _ _ => True)
    (I := fun w : Saving => Mirrors isDataUrl readFile w.files w.saves)
    (fun w op w' hw h _ => ⟨hw.effect (Saving.effect_step h), Saving.agree_step hw h⟩) ops {} ?_
    (Run.each_of_forall_mem fun _ _ _ _ => trivial)
  exact mirrors_empty fun _ => Std.ExtTreeMap.getElem?_empty

end

end Images

/-! ## Sounds -/

namespace AIAudio

/-- The call meets files that can be read and written. -/
def working (c : SoundCall) : SoundCall := { c with readable := true, writable := true }

inductive Op where
  | generate (key : EnvEntry) (tradition : String) (c : SoundCall)
  | restart

/-- The sound generator, and all that was handed to `_saveAudioToStorage`, with its cache key. -/
structure Saving where
  sounds : SoundCaches := {}
  saves : List (String × String) := []

def isDataUrl (audioData : String) : Bool := startsWith audioData "data:audio/"

section

variable [CaseMap]

/-- The call is answered from the memory cache. -/
def fromMemory (tradition : String) (c : SoundCall) (s : SoundCaches) : Bool :=
  let cacheKey := generateCacheKey tradition c.variation
  s.audioCache[cacheKey]?.isSome && s.isFresh cacheKey c.asked

/-- The call is answered from a file. -/
def fromFile (tradition : String) (c : SoundCall) (s : SoundCaches) : Bool :=
  !fromMemory tradition c s &&
    (s.getCachedAudioFromStorage (generateCacheKey tradition c.variation) c.readable).isSome

variable (assets : String → Option (List UInt8))

/-- What the call hands to `_saveAudioToStorage`: a sound that comes from none of the caches. -/
def saved (key : EnvEntry) (tradition : String) (c : SoundCall) (s : SoundCaches) :
    List (String × String) :=
  if fromMemory tradition c s || fromFile tradition c s then []
  else match (generateAmbientSound assets key tradition c s).1 with
    | some audioData => [(generateCacheKey tradition c.variation, audioData)]
    | none => []

def Saving.step (w : Saving) : Op → Option Saving
  | .generate key tradition c => some
    { sounds := (generateAmbientSound assets key tradition (working c) w.sounds).2
      saves := w.saves ++ saved assets key tradition (working c) w.sounds }
  | .restart => some { w with sounds := w.sounds.restart }

/-- The operation answers from a file what was saved last, and writes only a data URL to a file. -/
structure Agree (w : Saving) (op : Op) (w' : Saving) : Prop where
  answer : ∀ key tradition c, op = .generate key tradition c →
    fromFile tradition (working c) w.sounds = true → ∃ audioData,
      (generateAmbientSound assets key tradition (working c) w.sounds).1 = some audioData ∧
        lastKept isDataUrl w.saves (generateCacheKey tradition c.variation) = some audioData
  files : ∀ cacheKey : String,
    w'.sounds.audioFiles[cacheKey]? ≠ w.sounds.audioFiles[cacheKey]? → ∃ audioData,
      w'.saves = w.saves ++ [(cacheKey, audioData)] ∧ isDataUrl audioData = true

omit [CaseMap] in
theorem apiAudio_eq_some {key : EnvEntry} {t : SoundTurn} {audio : String}
    (h : apiAudio key t = some audio) : ∃ bytes, audio = audioUrl bytes := by
  unfold apiAudio at h
  split at h
  · split at h
    · cases h
    · exact ⟨_, (Option.some.inj h).symm⟩
    · exact descriptionAudio_eq_some h
  · cases h

omit [CaseMap] in
theorem isDataUrl_audioUrl (bytes : List UInt8) : isDataUrl (audioUrl bytes) = true := by
  have hmime : "data:audio/".toList <+: "data:audio/mp3;base64,".toList := by decide
  unfold isDataUrl audioUrl
  rw [startsWith_iff, String.toList_append]
  exact hmime.trans (List.prefix_append _ _)

omit [CaseMap] in
theorem saveAudioToStorage_audioUrl (cacheKey : String) (bytes : List UInt8) (s : SoundCaches) :
    (s.saveAudioToStorage cacheKey (audioUrl bytes) true).audioFiles =
      s.audioFiles.insert cacheKey bytes := by
  have hbytes : (split ',' (audioUrl bytes))[1]?.bind base64Decode = some bytes := by
    unfold audioUrl
    rw [getElem?_split_append (l := "data:audio/mp3;base64".toList) rfl (by decide)
      (notMem_base64Encode (by decide) bytes)]
    exact base64Decode_base64Encode bytes
  unfold SoundCaches.saveAudioToStorage
  rw [hbytes]
  exact congrArg SoundCaches.audioFiles (if_pos (isDataUrl_audioUrl bytes))

/-- A generation brings a sound with a data URL or nothing, and writes no file. -/
theorem generated_cases (key : EnvEntry) (tradition : String) (variation : Fin 11) (t : SoundTurn)
    (s : SoundCaches) :
    (generateAmbientSoundForTradition assets key tradition variation t s).2.audioFiles =
        s.audioFiles ∧
      ((∃ bytes, (generateAmbientSoundForTradition assets key tradition variation t s).1 =
        some (audioUrl bytes)) ∨
        (generateAmbientSoundForTradition assets key tradition variation t s).1 = none) := by
  obtain ⟨requests, h⟩ := generateAmbientSoundForTradition_eq assets key tradition variation t s
  rw [h]
  cases haudio : apiAudio key t with
  | some audio =>
    obtain ⟨bytes, rfl⟩ := apiAudio_eq_some haudio
    exact ⟨rfl, Or.inl ⟨bytes, rfl⟩⟩
  | none =>
    unfold convertFallbackToBase64
    cases assets (getFallbackAudioForTradition tradition) with
    | some bytes => exact ⟨rfl, Or.inl ⟨bytes, rfl⟩⟩
    | none => exact ⟨rfl, Or.inr rfl⟩

/-- Without a sound in memory, a call is answered from the file, or a sound is generated and written,
or there is none. -/
theorem generateUncached_cases {s s' : SoundCaches} (h : s'.audioFiles = s.audioFiles)
    (key : EnvEntry) (tradition : String) {c : SoundCall} (hc : c.writable = true) :
    (∃ audio,
      s.getCachedAudioFromStorage (generateCacheKey tradition c.variation) c.readable = some audio ∧
        (generateUncached assets key tradition c s').1 = some audio ∧
        (generateUncached assets key tradition c s').2.audioFiles = s.audioFiles) ∨
    (s.getCachedAudioFromStorage (generateCacheKey tradition c.variation) c.readable = none ∧
      ((∃ bytes, (generateUncached assets key tradition c s').1 = some (audioUrl bytes) ∧
        (generateUncached assets key tradition c s').2.audioFiles =
          s.audioFiles.insert (generateCacheKey tradition c.variation) bytes) ∨
        (generateUncached assets key tradition c s').1 = none ∧
          (generateUncached assets key tradition c s').2.audioFiles = s.audioFiles)) := by
  have hread : s'.getCachedAudioFromStorage (generateCacheKey tradition c.variation) c.readable =
      s.getCachedAudioFromStorage (generateCacheKey tradition c.variation) c.readable := by
    unfold SoundCaches.getCachedAudioFromStorage
    rw [h]
  unfold generateUncached
  dsimp only
  rw [hread]
  cases s.getCachedAudioFromStorage (generateCacheKey tradition c.variation) c.readable with
  | some audio => exact Or.inl ⟨audio, rfl, rfl, h⟩
  | none =>
    refine Or.inr ⟨rfl, ?_⟩
    obtain ⟨hfiles, hends⟩ := generated_cases assets key tradition c.variation c.turn s'
    cases hgen : generateAmbientSoundForTradition assets key tradition c.variation c.turn s' with
    | mk audio? s₁ =>
    rw [hgen] at hfiles hends
    rcases hends with ⟨bytes, rfl⟩ | rfl
    · refine Or.inl ⟨bytes, rfl, ?_⟩
      dsimp only
      rw [hc, saveAudioToStorage_audioUrl]
      exact congrArg (fun b : Box (List UInt8) => b.insert _ bytes) (hfiles.trans h)
    · exact Or.inr ⟨rfl, hfiles.trans h⟩

/-- **The three ways of an answer**: from memory, from a file, or by a generation. -/
theorem generateAmbientSound_cases (key : EnvEntry) (tradition : String) {c : SoundCall}
    (hc : c.writable = true) (s : SoundCaches) :
    (fromMemory tradition c s = true ∧ (generateAmbientSound assets key tradition c s).2 = s) ∨
    (fromMemory tradition c s = false ∧ ((∃ audio,
      s.getCachedAudioFromStorage (generateCacheKey tradition c.variation) c.readable = some audio ∧
        (generateAmbientSound assets key tradition c s).1 = some audio ∧
        (generateAmbientSound assets key tradition c s).2.audioFiles = s.audioFiles) ∨
    (s.getCachedAudioFromStorage (generateCacheKey tradition c.variation) c.readable = none ∧
      ((∃ bytes, (generateAmbientSound assets key tradition c s).1 = some (audioUrl bytes) ∧
        (generateAmbientSound assets key tradition c s).2.audioFiles =
          s.audioFiles.insert (generateCacheKey tradition c.variation) bytes) ∨
        (generateAmbientSound assets key tradition c s).1 = none ∧
          (generateAmbientSound assets key tradition c s).2.audioFiles = s.audioFiles)))) := by
  unfold generateAmbientSound fromMemory
  dsimp only
  cases s.audioCache[generateCacheKey tradition c.variation]? with
  | none => exact Or.inr ⟨rfl, generateUncached_cases assets rfl key tradition hc⟩
  | some cached =>
    cases s.isFresh (generateCacheKey tradition c.variation) c.asked with
    | true => exact Or.inl ⟨rfl, rfl⟩
    | false =>
      exact Or.inr ⟨rfl, @generateUncached_cases _ assets s
        (s.forget (generateCacheKey tradition c.variation)) rfl key tradition c hc⟩

/-- The files by cache key. -/
def Saving.files (w : Saving) (cacheKey : String) : Option (List UInt8) :=
  w.sounds.audioFiles[cacheKey]?

theorem Saving.effect_generate {w w' : Saving} {key : EnvEntry} {tradition : String} {c : SoundCall}
    (h : w.step assets (.generate key tradition c) = some w') :
    Effect isDataUrl audioUrl w.files w'.files w.saves w'.saves := by
  obtain rfl := Option.some.inj h
  -- a call that changes no file and saves nothing
  have hquiet : saved assets key tradition (working c) w.sounds = [] →
      (generateAmbientSound assets key tradition (working c) w.sounds).2.audioFiles =
        w.sounds.audioFiles →
      Effect isDataUrl audioUrl w.files (Saving.files
        { sounds := (generateAmbientSound assets key tradition (working c) w.sounds).2
          saves := w.saves ++ saved assets key tradition (working c) w.sounds }) w.saves
        (w.saves ++ saved assets key tradition (working c) w.sounds) := by
    intro hsaved hfiles
    refine .none (funext fun cacheKey => ?_) ?_
    · exact congrArg (fun b : Box (List UInt8) => b[cacheKey]?) hfiles
    · rw [hsaved, List.append_nil]
  rcases generateAmbientSound_cases assets key tradition (c := working c) rfl w.sounds with
    ⟨hmem, hsame⟩ | ⟨hmem, ⟨audio, hfile, -, hfiles⟩ | ⟨hfile, ⟨bytes, hanswer, hfiles⟩ |
      ⟨hanswer, hfiles⟩⟩⟩
  · refine hquiet ?_ (congrArg SoundCaches.audioFiles hsame)
    unfold saved
    rw [hmem]
    rfl
  · refine hquiet ?_ hfiles
    unfold saved fromFile
    rw [hmem, hfile]
    rfl
  · have hsaved : saved assets key tradition (working c) w.sounds =
        [(generateCacheKey tradition (working c).variation, audioUrl bytes)] := by
      unfold saved fromFile
      rw [hmem, hfile, hanswer]
      rfl
    refine .keep (isDataUrl_audioUrl bytes) rfl (fun cacheKey => ?_)
      (congrArg (w.saves ++ ·) hsaved)
    exact (congrArg (fun b : Box (List UInt8) => b[cacheKey]?) hfiles).trans
      (Box.getElem?_put _ _ _ _)
  · refine hquiet ?_ hfiles
    unfold saved fromFile
    rw [hmem, hfile, hanswer]
    rfl

theorem Saving.effect_step {w w' : Saving} {op : Op} (h : w.step assets op = some w') :
    Effect isDataUrl audioUrl w.files w'.files w.saves w'.saves := by
  cases op with
  | generate key tradition c => exact Saving.effect_generate assets h
  | restart =>
    obtain rfl := Option.some.inj h
    exact .none rfl rfl

theorem Saving.agree_step {w w' : Saving} {op : Op}
    (hw : Mirrors isDataUrl audioUrl w.files w.saves) (h : w.step assets op = some w') :
    Agree assets w op w' := by
  refine ⟨?_, fun cacheKey hne => (Saving.effect_step assets h).saved hne⟩
  rintro key tradition c rfl hfrom
  unfold fromFile at hfrom
  rw [Bool.and_eq_true, Bool.not_eq_true'] at hfrom
  rcases generateAmbientSound_cases assets key tradition (c := working c) rfl w.sounds with
    ⟨hmem, -⟩ | ⟨-, ⟨audio, hfile, hanswer, -⟩ | ⟨hfile, -⟩⟩
  · exact absurd (hfrom.1.symm.trans hmem) Bool.false_ne_true
  · exact ⟨audio, hanswer, (hw (generateCacheKey tradition c.variation)).symm.trans hfile⟩
  · rw [hfile] at hfrom
    cases hfrom.2

/-- Every run of calls and restarts from the first start. -/
theorem Saving.agree (ops : List Op) : Run.Each (Saving.step assets) (Agree assets) {} ops := by
  refine Run.each_of_invariant (P := fun _ _ _ => True)
    (I := fun w : Saving => Mirrors isDataUrl audioUrl w.files w.saves)
    (fun w op w' hw h _ => ⟨hw.effect (Saving.effect_step assets h), Saving.agree_step assets hw h⟩)
    ops {} ?_ (Run.each_of_forall_mem fun _ _ _ _ => trivial)
  exact mirrors_empty fun _ => Std.ExtTreeMap.getElem?_empty

end

end AIAudio

/-- **Memory and files agree**: in every run of `generateImage`, and in every run of
`generateAmbientSound`, an answer from a file is what was last saved under its cache key, and a file
is written only for a data URL. -/
theorem filesAgree [CaseMap] (assets : String → Option (List UInt8)) :
    (∀ ops, Run.Each Images.Saving.step Images.Agree {} ops) ∧
      ∀ ops, Run.Each (AIAudio.Saving.step assets) (AIAudio.Agree assets) {} ops :=
  ⟨Images.Saving.agree, AIAudio.Saving.agree assets⟩

end MotiAI
