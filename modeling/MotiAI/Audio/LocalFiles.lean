import MotiAI.Audio.Service
import MotiAI.Lib.Run
import MotiAI.Lib.Window

/-!
# The rotation of local files

Calls of `_getAudioFileWithFallbacks` one after the other, for any traditions, starting without recent
files. There are four files, and the last three returned are avoided.

`rotating_run`: the recent files are the last three returned, an unused file is always found, and from
the fifth call on every file is the one returned four calls earlier, whatever the traditions are.
-/

namespace MotiAI

open Dart Window

namespace Audio

/-- `_smartFallbacks.values.toSet().toList()`. -/
def availableAudioFiles : List String := (smartFallbacks.map Prod.snd).eraseDups

/-- The branch that clears the recent files: the file of the tradition and every other one are among
them. -/
def AllUsedRecently (tradition : String) (recent : List String) : Prop :=
  primaryAudioFile tradition ∈ recent ∧ ∀ file ∈ availableAudioFiles, file ∈ recent

/-- The service, and the files returned so far. -/
structure LocalFiles where
  audio : Audio
  returned : List String := []

structure LocalFiles.Call where
  tradition : String
  shuffle : Shuffle String

namespace LocalFiles

def step (w : LocalFiles) (c : Call) : Option LocalFiles :=
  let (file, audio) := getAudioFileWithFallbacks c.tradition c.shuffle w.audio
  some { audio := audio, returned := w.returned ++ [file] }

/-- Any four consecutive files differ, the last three are the recent ones, and four calls later the
file is the same. -/
structure Rotating (w : LocalFiles) : Prop where
  spaced : Spaced 4 w.returned
  recent : w.audio.recentAudioFiles = w.returned.rtake 3
  period : ∀ (n : ℕ) (hn : n + 4 < w.returned.length), w.returned[n + 4] = w.returned[n]

end LocalFiles

/-! ## The choice of a file -/

theorem length_availableAudioFiles : availableAudioFiles.length = 4 := by decide +kernel

theorem nodup_availableAudioFiles : availableAudioFiles.Nodup := by decide +kernel

theorem primaryAudioFile_mem (tradition : String) :
    primaryAudioFile tradition ∈ availableAudioFiles := by
  unfold primaryAudioFile
  cases h : smartFallbacks.find? fun e => e.1 = tradition with
  | none => decide +kernel
  | some e =>
    unfold availableAudioFiles
    rw [Option.map_some, Option.getD_some, List.mem_eraseDups]
    exact List.mem_map_of_mem (List.mem_of_find?_eq_some h)

/-- Three recent files leave one of the four. -/
theorem exists_unused {recent : List String} (h : recent.length ≤ 3) :
    ∃ file ∈ availableAudioFiles, file ∉ recent := by
  have hcard : recent.toFinset.card < availableAudioFiles.toFinset.card := by
    rw [List.toFinset_card_of_nodup nodup_availableAudioFiles, length_availableAudioFiles]
    exact (List.toFinset_card_le recent).trans_lt (by omega)
  obtain ⟨file, hmem, hnew⟩ := Finset.exists_mem_notMem_of_card_lt_card hcard
  exact ⟨file, List.mem_toFinset.mp hmem, fun hold => hnew (List.mem_toFinset.mpr hold)⟩

theorem not_allUsedRecently {recent : List String} (h : recent.length ≤ 3) (tradition : String) :
    ¬ AllUsedRecently tradition recent := by
  rintro ⟨-, hall⟩
  obtain ⟨file, hmem, hnew⟩ := exists_unused h
  exact hnew (hall file hmem)

/-- **The choice**: with at most three recent files, one of the four that is not among them. -/
theorem chooseFile_spec {recent : List String} (h : recent.length ≤ 3) (tradition : String)
    (shuffle : Shuffle String) : ∃ file, chooseFile tradition shuffle recent = (file, recent) ∧
      file ∈ availableAudioFiles ∧ file ∉ recent := by
  unfold chooseFile
  split
  · have hunused : availableAudioFiles.filter (fun file => !recent.contains file) ≠ [] := by
      obtain ⟨file, hmem, hnew⟩ := exists_unused h
      exact List.ne_nil_of_mem (List.mem_filter.mpr ⟨hmem, by simpa using hnew⟩)
    obtain ⟨file, hmem, hfile⟩ := Shuffle.exists_first shuffle hunused
    obtain ⟨havailable, hnew⟩ := List.mem_filter.mp hmem
    unfold availableAudioFiles at hfile
    rw [hfile]
    exact ⟨file, rfl, havailable, by simpa using hnew⟩
  · rename_i hprimary
    exact ⟨_, rfl, primaryAudioFile_mem tradition, by simpa using hprimary⟩

/-! ## Runs -/

namespace LocalFiles

/-- The rotation, and that only the four files are returned. -/
structure Inv (w : LocalFiles) : Prop where
  rotating : w.Rotating
  available : ∀ file ∈ w.returned, file ∈ availableAudioFiles

theorem Inv.length_recent {w : LocalFiles} (hw : w.Inv) :
    w.audio.recentAudioFiles.length ≤ 3 := by
  rw [hw.rotating.recent, length_rtake]
  omega

theorem Inv.step {w w' : LocalFiles} {c : Call} (hw : w.Inv) (h : w.step c = some w') :
    w'.Inv := by
  obtain ⟨file, hfile, havailable, hnew⟩ := chooseFile_spec hw.length_recent c.tradition c.shuffle
  unfold LocalFiles.step getAudioFileWithFallbacks at h
  rw [hfile] at h
  obtain rfl := Option.some.inj h
  have hspaced : Spaced 4 (w.returned ++ [file]) := by
    rw [hw.rotating.recent] at hnew
    exact spaced_concat.mpr ⟨hw.rotating.spaced, hnew⟩
  have hall : ∀ f ∈ w.returned ++ [file], f ∈ availableAudioFiles := by
    intro f hf
    rcases List.mem_append.mp hf with hf | hf
    · exact hw.available f hf
    · exact List.mem_singleton.mp hf ▸ havailable
  refine ⟨⟨hspaced, ?_, fun n hn => ?_⟩, hall⟩
  · have hslide := slide_rtake 3 w.returned file
    rw [← hw.rotating.recent] at hslide
    exact hslide
  · exact hspaced.getElem_add hall length_availableAudioFiles.le hn

/-- **Local files rotate.** -/
theorem rotating_run (a : Audio) (calls : List Call) :
    Run.Each step (fun w c w' => ¬ AllUsedRecently c.tradition w.audio.recentAudioFiles ∧ w'.Rotating)
      { audio := { a with recentAudioFiles := [] } } calls := by
  have hstart : Inv { audio := { a with recentAudioFiles := [] } } :=
    ⟨⟨spaced_nil 4, rfl, fun n hn => absurd hn (Nat.not_lt_zero _)⟩,
      fun file hf => absurd hf List.not_mem_nil⟩
  refine Run.each_of_invariant (I := Inv) (P := fun _ _ _ => True) (fun w c w' hw h _ => ?_) calls _
    hstart (Run.each_of_forall_mem fun _ _ _ _ => trivial)
  exact ⟨hw.step h, not_allUsedRecently hw.length_recent c.tradition, (hw.step h).rotating⟩

end LocalFiles

end Audio

end MotiAI
