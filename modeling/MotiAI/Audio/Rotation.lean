import MotiAI.Audio.Generator
import MotiAI.Audio.Ownership
import MotiAI.Lib.Rotation

/-!
# The rotation of AI audio

Calls of `playAmbience` one after the other, for any traditions, while generated audio is added to the
box between them. `rounds` lists the keys selected for each tradition since its played keys were last
cleared.

1. `shows_select`: a selection is a step of a rotation in the sense of `Rotation`.
2. `rotates`: a key comes again only when all keys of its tradition have come, and a complete round is
   a permutation of them.
-/

namespace MotiAI

open Dart Hive HiveQuoteService Rotation

namespace Audio

/-- The service, the box of cached audio, and the keys selected for each tradition since its played
keys were last cleared. -/
structure Listening where
  audio : Audio := {}
  cachedAudio : Box String
  rounds : String → List String := fun _ => []

/-- A call of `playAmbience`, or a generated audio that is stored. -/
inductive Listening.Move where
  | play (f : Faults) (picks : Picks) (tradition : String)
  | store (audioId audioData : String)

/-- Every entry of the box is audio. -/
def AllAudio (b : Box String) : Prop :=
  ∀ audioId audioData : String, b[audioId]? = some audioData →
    startsWith audioData "data:audio/" = true

/-- What is stored is audio. -/
def Listening.Move.StoresAudio (m : Listening.Move) : Prop :=
  ∀ audioId audioData, m = .store audioId audioData → startsWith audioData "data:audio/" = true

section

variable [CaseMap]

/-- The AI audio keys of every tradition. -/
def audioKeys (b : Box String) (tradition : String) : Finset String :=
  (getAIAudioKeysForTradition tradition b).toFinset

namespace Listening

/-- The key that a call of `playAmbience` selects. -/
def selectedKey (picks : Picks) (tradition : String) (w : Listening) : Option String :=
  if w.audio.lastAudioTradition = some tradition then none
  else (selectAudioId tradition w.cachedAudio picks.key (w.audio.playedAudioKeys tradition)).1

def step (w : Listening) : Move → Option Listening
  | .play f picks tradition => some
    { w with
      audio := playAmbience f picks w.cachedAudio tradition w.audio
      rounds := match w.selectedKey picks tradition with
        | some key => Function.update w.rounds tradition
          (nextRound (audioKeys w.cachedAudio tradition) (w.audio.playedAudioKeys tradition)
            (w.rounds tradition) key)
        | none => w.rounds }
  | .store audioId audioData => some
    { w with cachedAudio := storeGeneratedAudio audioId audioData w.cachedAudio }

/-- The call finds no unplayed key, so that it clears the played keys of the tradition. -/
def Clears (w : Listening) (tradition : String) : Prop :=
  audioKeys w.cachedAudio tradition ⊆ w.audio.playedAudioKeys tradition

/-- A key that has come in the present round is selected only when all keys have; a round that ends
is a permutation of the keys; other traditions keep their played keys. -/
structure Rotates (w : Listening) (m : Move) (w' : Listening) : Prop where
  fresh : ∀ f picks tradition key, m = .play f picks tradition →
    w.selectedKey picks tradition = some key →
    (∃ k ∈ getAIAudioKeysForTradition tradition w.cachedAudio, k ∉ w.rounds tradition) →
    key ∉ w.rounds tradition
  round : ∀ f picks tradition key, m = .play f picks tradition →
    w.selectedKey picks tradition = some key → w.Clears tradition →
    (w.rounds tradition).Perm (getAIAudioKeysForTradition tradition w.cachedAudio)
  others : ∀ f picks tradition, m = .play f picks tradition → ∀ t, t ≠ tradition →
    w'.audio.playedAudioKeys t = w.audio.playedAudioKeys t

/-- The played keys are those of the present rounds, and all of them are in the box. -/
structure Turning (w : Listening) : Prop where
  allAudio : AllAudio w.cachedAudio
  records : ∀ tradition, Records (w.audio.playedAudioKeys tradition) (w.rounds tradition)
  stored : ∀ tradition, ∀ k ∈ w.rounds tradition,
    k ∈ getAIAudioKeysForTradition tradition w.cachedAudio

end Listening

/-! ## A selection -/

theorem mem_getAIAudioKeysForTradition {tradition k : String} {b : Box String} :
    k ∈ getAIAudioKeysForTradition tradition b ↔ (∃ data, b[k]? = some data) ∧
      startsWith k ("ai_audio_" ++ replaceNonAlnum (toLowerCase tradition)) = true := by
  unfold getAIAudioKeysForTradition
  rw [List.mem_filter, Box.mem_keys]

theorem nodup_getAIAudioKeysForTradition (tradition : String) (b : Box String) :
    (getAIAudioKeysForTradition tradition b).Nodup :=
  Std.ExtTreeMap.nodup_keys.filter _

/-- **A selection is a step of a rotation**: an unplayed key, or any key after all were played. -/
theorem shows_select {tradition key : String} {b : Box String} {shuffle : Shuffle String}
    {played : Finset String} (h : (selectAudioId tradition b shuffle played).1 = some key) :
    Shows (audioKeys b) played tradition key
      (insert key (selectAudioId tradition b shuffle played).2) := by
  unfold selectAudioId at h ⊢
  dsimp only at h ⊢
  split at h
  · rename_i hunplayed
    rw [if_pos hunplayed]
    obtain ⟨hall, hnew⟩ := List.mem_filter.mp (Shuffle.first_mem h)
    exact ⟨List.mem_toFinset.mpr hall, Or.inl ⟨of_decide_eq_true hnew, rfl⟩⟩
  · rename_i hplayed
    rw [if_neg hplayed]
    split at h
    · rename_i hne
      rw [if_pos hne]
      refine ⟨List.mem_toFinset.mpr (Shuffle.first_mem h), Or.inr ⟨fun k hk => ?_, rfl⟩⟩
      by_contra hnew
      have hmem : k ∈ (getAIAudioKeysForTradition tradition b).filter fun k => k ∉ played :=
        List.mem_filter.mpr ⟨List.mem_toFinset.mp hk, decide_eq_true hnew⟩
      rw [not_not.mp hplayed] at hmem
      exact absurd hmem List.not_mem_nil
    · cases h

/-- Nothing is selected only from an empty box, which clears nothing. -/
theorem played_of_select_none {tradition : String} {b : Box String} {shuffle : Shuffle String}
    {played : Finset String} (h : (selectAudioId tradition b shuffle played).1 = none) :
    (selectAudioId tradition b shuffle played).2 = played := by
  unfold selectAudioId at h ⊢
  dsimp only at h ⊢
  split at h
  · rename_i hunplayed
    rw [if_pos hunplayed]
  · rename_i hplayed
    rw [if_neg hplayed]
    split at h
    · rename_i hne
      exact absurd (Shuffle.first_eq_none_iff.mp h) hne
    · rename_i hempty
      rw [if_neg hempty]

/-- When every entry is audio, what is selected is played. -/
theorem selectAudio_of_allAudio {tradition key : String} {b : Box String}
    {shuffle : Shuffle String} {played : Finset String} (hb : AllAudio b)
    (h : (selectAudioId tradition b shuffle played).1 = some key) :
    ∃ data, selectAudio tradition b shuffle played = some (key, data) := by
  have hmem := List.mem_toFinset.mp (shows_select h).mem
  obtain ⟨⟨data, hdata⟩, -⟩ := mem_getAIAudioKeysForTradition.mp hmem
  refine ⟨data, ?_⟩
  unfold selectAudio getStoredAudio
  rw [h, Option.bind_some, hdata, Option.filter_some, hb key data hdata]
  rfl

/-- The played keys of the tradition after a selection; the others stay. -/
theorem playedAudioKeys_markPlayed {tradition : String} {b : Box String} {shuffle : Shuffle String}
    {a : Audio} (hb : AllAudio b) :
    (markPlayed tradition b shuffle a).playedAudioKeys =
      Function.update a.playedAudioKeys tradition
        (match (selectAudioId tradition b shuffle (a.playedAudioKeys tradition)).1 with
        | some key => insert key
          (selectAudioId tradition b shuffle (a.playedAudioKeys tradition)).2
        | none => a.playedAudioKeys tradition) := by
  unfold markPlayed
  dsimp only
  congr 1
  cases hkey : (selectAudioId tradition b shuffle (a.playedAudioKeys tradition)).1 with
  | some key =>
    obtain ⟨data, hdata⟩ := selectAudio_of_allAudio hb hkey
    rw [hdata]
  | none =>
    have hnone : selectAudio tradition b shuffle (a.playedAudioKeys tradition) = none := by
      unfold selectAudio
      rw [hkey]
      rfl
    rw [hnone]
    exact played_of_select_none hkey

/-! ## A call -/

omit [CaseMap] in
@[simp] theorem playedAudioKeys_playCurrent (tradition : String) (source : Source) (a : Audio) :
    (a.playCurrent tradition source).playedAudioKeys = a.playedAudioKeys := by
  unfold playCurrent
  split <;> rfl

omit [CaseMap] in
@[simp] theorem playedAudioKeys_playLocalAudio (f : Faults) (tradition audioFile : String)
    (a : Audio) : (playLocalAudio f tradition audioFile a).playedAudioKeys = a.playedAudioKeys := by
  unfold playLocalAudio
  split
  · rfl
  · split
    · rfl
    · exact playedAudioKeys_playCurrent tradition _ _

@[simp] theorem playedAudioKeys_playAIAudio (f : Faults) (shuffle : Shuffle String)
    (tradition audioData audioId : String) (a : Audio) :
    (playAIAudio f shuffle tradition audioData audioId a).playedAudioKeys = a.playedAudioKeys := by
  unfold playAIAudio
  dsimp only
  split
  · split
    · rfl
    · rw [playedAudioKeys_playLocalAudio]
      rfl
  · exact playedAudioKeys_playCurrent tradition _ _

theorem playedAudioKeys_playAmbience {f : Faults} {picks : Picks} {b : Box String}
    {tradition : String} {a : Audio} (hlast : a.lastAudioTradition ≠ some tradition) :
    (playAmbience f picks b tradition a).playedAudioKeys =
      (markPlayed tradition b picks.key a).playedAudioKeys := by
  have hmark : ∀ s : Audio, s.playedAudioKeys = a.playedAudioKeys →
      (markPlayed tradition b picks.key s).playedAudioKeys =
        (markPlayed tradition b picks.key a).playedAudioKeys := by
    intro s hs
    unfold markPlayed
    rw [hs]
  rw [playAmbience_of_ne f picks b hlast]
  refine Eq.trans ?_ (hmark (stopAmbience f { a with lastAudioTradition := some tradition })
    playedAudioKeys_stopAmbience)
  unfold playSelected
  split
  · rw [playedAudioKeys_playAIAudio]
  · rw [playedAudioKeys_playLocalAudio]
    rfl

/-! ## Runs -/

namespace Listening

/-- A call that selects nothing changes no played keys. -/
theorem played_of_none {w : Listening} (hb : AllAudio w.cachedAudio) {f : Faults} {picks : Picks}
    {tradition : String} (hkey : w.selectedKey picks tradition = none) :
    (playAmbience f picks w.cachedAudio tradition w.audio).playedAudioKeys =
      w.audio.playedAudioKeys := by
  unfold selectedKey at hkey
  split at hkey
  · rename_i hlast
    rw [playAmbience_of_eq f picks w.cachedAudio hlast]
  · rename_i hlast
    rw [playedAudioKeys_playAmbience hlast, playedAudioKeys_markPlayed hb, hkey]
    exact Function.update_eq_self tradition _

/-- A call that selects a key takes it in the rotation of its tradition. -/
theorem played_of_some {w : Listening} (hb : AllAudio w.cachedAudio) {f : Faults} {picks : Picks}
    {tradition key : String} (hkey : w.selectedKey picks tradition = some key) :
    ∃ played, (playAmbience f picks w.cachedAudio tradition w.audio).playedAudioKeys =
        Function.update w.audio.playedAudioKeys tradition played ∧
      Shows (audioKeys w.cachedAudio) (w.audio.playedAudioKeys tradition) tradition key played := by
  unfold selectedKey at hkey
  split at hkey
  · cases hkey
  · rename_i hlast
    rw [playedAudioKeys_playAmbience hlast, playedAudioKeys_markPlayed hb, hkey]
    exact ⟨_, rfl, shows_select hkey⟩

/-- A call that selects nothing. -/
theorem Turning.play_none {w w' : Listening} (hw : w.Turning) {f : Faults} {picks : Picks}
    {tradition : String} (hkey : w.selectedKey picks tradition = none)
    (hround : w'.rounds = w.rounds) (hbox : w'.cachedAudio = w.cachedAudio)
    (haudio : w'.audio = playAmbience f picks w.cachedAudio tradition w.audio) :
    w'.Turning ∧ w.Rotates (.play f picks tradition) w' := by
  have hplayed : w'.audio.playedAudioKeys = w.audio.playedAudioKeys := by
    rw [haudio, played_of_none hw.allAudio hkey]
  refine ⟨⟨hbox ▸ hw.allAudio, fun t => ?_, fun t => ?_⟩, ⟨?_, ?_, ?_⟩⟩
  · rw [hplayed, hround]
    exact hw.records t
  · rw [hround, hbox]
    exact hw.stored t
  · intro f' picks' t k hm hk
    cases hm
    cases hkey.symm.trans hk
  · intro f' picks' t k hm hk
    cases hm
    cases hkey.symm.trans hk
  · intro f' picks' t hm u _
    rw [hplayed]

/-- A call that selects a key. -/
theorem Turning.play_some {w w' : Listening} (hw : w.Turning) {f : Faults} {picks : Picks}
    {tradition key : String} (hkey : w.selectedKey picks tradition = some key)
    (hround : w'.rounds = Function.update w.rounds tradition
      (nextRound (audioKeys w.cachedAudio tradition) (w.audio.playedAudioKeys tradition)
        (w.rounds tradition) key))
    (hbox : w'.cachedAudio = w.cachedAudio)
    (haudio : w'.audio = playAmbience f picks w.cachedAudio tradition w.audio) :
    w'.Turning ∧ w.Rotates (.play f picks tradition) w' := by
  obtain ⟨played, hplayed, hshows⟩ := played_of_some (f := f) hw.allAudio hkey
  rw [← haudio] at hplayed
  refine ⟨⟨hbox ▸ hw.allAudio, fun t => ?_, fun t k hk => ?_⟩, ⟨?_, ?_, ?_⟩⟩
  · rw [hplayed, hround]
    by_cases ht : t = tradition
    · subst ht
      rw [Function.update_self, Function.update_self]
      exact hshows.records (hw.records t)
    · rw [Function.update_of_ne ht, Function.update_of_ne ht]
      exact hw.records t
  · rw [hround] at hk
    rw [hbox]
    by_cases ht : t = tradition
    · subst ht
      rw [Function.update_self] at hk
      rcases mem_of_mem_nextRound hk with rfl | hold
      · exact List.mem_toFinset.mp hshows.mem
      · exact hw.stored t k hold
    · rw [Function.update_of_ne ht] at hk
      exact hw.stored t k hk
  · rintro f' picks' t k hm hk ⟨k', hk', hnew⟩
    cases hm
    cases hkey.symm.trans hk
    exact hshows.notMem_of_exists (hw.records tradition) ⟨k', List.mem_toFinset.mpr hk', hnew⟩
  · intro f' picks' t k hm hk hclears
    cases hm
    exact (hw.records tradition).perm (nodup_getAIAudioKeysForTradition tradition _)
      (hw.stored tradition) fun k hk => hclears (List.mem_toFinset.mpr hk)
  · intro f' picks' t hm u hu
    cases hm
    rw [hplayed, Function.update_of_ne hu]

theorem Turning.play {w w' : Listening} (hw : w.Turning) {f : Faults} {picks : Picks}
    {tradition : String} (h : w.step (.play f picks tradition) = some w') :
    w'.Turning ∧ w.Rotates (.play f picks tradition) w' := by
  obtain rfl := Option.some.inj h
  cases hkey : w.selectedKey picks tradition with
  | none => exact hw.play_none hkey rfl rfl rfl
  | some key => exact hw.play_some hkey rfl rfl rfl

theorem Turning.store {w w' : Listening} (hw : w.Turning) {audioId audioData : String}
    (haudio : startsWith audioData "data:audio/" = true)
    (h : w.step (.store audioId audioData) = some w') :
    w'.Turning ∧ w.Rotates (.store audioId audioData) w' := by
  obtain rfl := Option.some.inj h
  refine ⟨⟨fun id data hdata => ?_, hw.records, fun t k hk => ?_⟩, ⟨?_, ?_, ?_⟩⟩
  · change (w.cachedAudio.insert audioId audioData)[id]? = some data at hdata
    rw [Box.getElem?_put] at hdata
    split at hdata
    · cases hdata
      exact haudio
    · exact hw.allAudio id data hdata
  · obtain ⟨⟨data, hdata⟩, hpattern⟩ := mem_getAIAudioKeysForTradition.mp (hw.stored t k hk)
    refine mem_getAIAudioKeysForTradition.mpr ⟨?_, hpattern⟩
    show ∃ data, (w.cachedAudio.insert audioId audioData)[k]? = some data
    rw [Box.getElem?_put]
    split
    · exact ⟨audioData, rfl⟩
    · exact ⟨data, hdata⟩
  all_goals
    intro f picks t
    intros
    contradiction

theorem Turning.step {w w' : Listening} {m : Move} (hw : w.Turning) (h : w.step m = some w')
    (hm : m.StoresAudio) : w'.Turning ∧ w.Rotates m w' := by
  cases m with
  | play f picks tradition => exact hw.play h
  | store audioId audioData => exact hw.store (hm audioId audioData rfl) h

theorem turning_start {b : Box String} (hb : AllAudio b) :
    Turning { cachedAudio := b } where
  allAudio := hb
  records _ := records_empty
  stored _ _ hk := absurd hk List.not_mem_nil

/-- **AI audio rotates** for every tradition, while its keys become more. -/
theorem rotates (b : Box String) (hb : AllAudio b) (moves : List Move)
    (hm : ∀ m ∈ moves, m.StoresAudio) : Run.Each step Rotates { cachedAudio := b } moves :=
  Run.each_of_invariant (I := Turning) (P := fun _ m _ => m.StoresAudio) (Q := Rotates)
    (fun _ _ _ hw h hm => hw.step h hm) moves _ (turning_start hb)
    (Run.each_of_forall_mem fun m hmem _ _ => hm m hmem)

end Listening

end

/-! ## Two sounds of one tradition -/

def zenAudio : Box String :=
  Box.putAll [("ai_audio_zen_inspiration_1", "data:audio/mp3;base64,AAAA")] ∅

theorem allAudio_zenAudio : AllAudio zenAudio := by
  intro audioId audioData h
  unfold zenAudio at h
  rw [Box.putAll_cons, Box.putAll_nil, Box.getElem?_put] at h
  split at h
  · cases h
    decide +kernel
  · exact absurd h Box.getElem?_empty_ne

/-- A sound is stored between two calls for one tradition. -/
def zenMoves : List Listening.Move :=
  [.play {} ⟨.keep, .keep⟩ "Zen",
    .store "ai_audio_zen_inspiration_2" "data:audio/mp3;base64,BBBB",
    .play {} ⟨.keep, .keep⟩ "Sufi", .play {} ⟨.keep, .keep⟩ "Zen"]

theorem listening_zen :
    Run.Each (@Listening.step CaseMap.ascii) (@Listening.Rotates CaseMap.ascii)
      { cachedAudio := zenAudio } zenMoves := by
  refine @Listening.rotates CaseMap.ascii zenAudio allAudio_zenAudio zenMoves fun m hm => ?_
  intro audioId audioData h
  subst h
  unfold zenMoves at hm
  simp only [List.mem_cons, List.not_mem_nil, or_false, reduceCtorEq, false_or,
    Listening.Move.store.injEq] at hm
  obtain ⟨-, rfl⟩ := hm
  decide +kernel

end Audio

end MotiAI
