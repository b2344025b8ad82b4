import MotiAI.Audio.Generator

/-!
# The keys of the sounds

The 99 items of a pre-generation, tradition by tradition, and what their cache keys tell apart.

1. `generateCacheKey_inj`: a key determines the sanitised name and the variation.
2. `itemKey_inj`: the keys of two items differ.
3. `pairwise_items`: the variations of a tradition come in order.
-/

namespace MotiAI

open Dart

namespace AIAudio

theorem mem_items {e : String × Fin 11} : e ∈ items ↔ e.1 ∈ traditions := by
  unfold items
  rw [List.mem_flatMap]
  constructor
  · rintro ⟨tradition, ht, he⟩
    obtain ⟨variation, -, rfl⟩ := List.mem_map.mp he
    exact ht
  · intro ht
    exact ⟨e.1, ht, List.mem_map.mpr ⟨e.2, List.mem_finRange e.2, rfl⟩⟩

/-- The names start with ASCII, and three characters tell their sanitised forms apart. -/
theorem exists_traditions : ∃ ls : List (List Char), traditions.map String.toList = ls ∧
    (ls.all fun l => isAscii (l.take 3) && 3 ≤ l.length) = true ∧
    (ls.map fun l => digest ((l.take 3).map keyChar)).Nodup := by
  unfold traditions
  repeat refine toLists_cons rfl ?_
  refine ⟨[], rfl, rfl, ?_⟩
  decide +kernel

theorem nodup_traditions : traditions.Nodup := by
  obtain ⟨ls, hls, -, hnodup⟩ := exists_traditions
  rw [← hls, List.map_map] at hnodup
  exact List.Nodup.of_map _ hnodup

/-- The variations of a tradition come in order. -/
theorem pairwise_items : items.Pairwise fun e e' => e.1 = e'.1 → e.2 < e'.2 := by
  unfold items
  rw [List.pairwise_flatMap]
  constructor
  · intro tradition _
    rw [List.pairwise_map]
    refine (List.pairwise_lt_finRange 11).imp ?_
    exact fun hlt _ => hlt
  · refine nodup_traditions.imp fun hne x hx y hy heq => ?_
    obtain ⟨variation, -, rfl⟩ := List.mem_map.mp hx
    obtain ⟨variation', -, rfl⟩ := List.mem_map.mp hy
    exact absurd heq hne

section

variable [CaseMap]

theorem generateCacheKey_inj {t t' : String} {v v' : Fin 11}
    (h : generateCacheKey t v = generateCacheKey t' v') :
    replaceNonAlnum (toLowerCase t) = replaceNonAlnum (toLowerCase t') ∧ v = v' := by
  have hdigits : ∀ v : Fin 11, '_' ∉ (toString (v.val + 1)).toList := by decide
  have hvariation : ∀ v v' : Fin 11,
      (toString (v.val + 1)).toList = (toString (v'.val + 1)).toList → v = v' := by decide
  have hparts : ∀ (t : String) (v : Fin 11), (generateCacheKey t v).toList =
      ("ai_audio_".toList ++ (replaceNonAlnum (toLowerCase t)).toList) ++
        '_' :: (toString (v.val + 1)).toList := by
    intro t v
    unfold generateCacheKey
    rw [String.toList_append, String.toList_append, String.toList_append, List.append_assoc]
    rfl
  have hl := congrArg String.toList h
  rw [hparts, hparts] at hl
  obtain ⟨hname, hv⟩ := separator_inj (hdigits v) (hdigits v') hl
  exact ⟨String.toList_inj.mp (List.append_cancel_left hname), hvariation v v' hv⟩

theorem sanitized_inj {t t' : String} (ht : t ∈ traditions) (ht' : t' ∈ traditions)
    (h : replaceNonAlnum (toLowerCase t) = replaceNonAlnum (toLowerCase t')) : t = t' := by
  obtain ⟨ls, hls, hall, hnodup⟩ := exists_traditions
  rw [← hls, List.map_map] at hnodup
  -- the first three characters of a sanitised name
  have hstart : ∀ t ∈ traditions, (t.toList.take 3).map keyChar =
      (replaceNonAlnum (toLowerCase t)).toList.take 3 := by
    intro t ht
    have hascii := List.all_eq_true.mp hall t.toList (hls ▸ List.mem_map_of_mem ht)
    rw [Bool.and_eq_true, decide_eq_true_eq] at hascii
    have hpre := prefix_replaceNonAlnum (List.take_prefix 3 t.toList) (lt_of_isAscii hascii.1)
    rw [List.prefix_iff_eq_take, List.length_map, List.length_take_of_le hascii.2] at hpre
    exact hpre
  refine List.inj_on_of_nodup_map hnodup ht ht' ?_
  show digest _ = digest _
  rw [hstart t ht, hstart t' ht', h]

/-- The keys of two items differ. -/
theorem itemKey_inj {e e' : String × Fin 11} (he : e.1 ∈ traditions) (he' : e'.1 ∈ traditions)
    (h : generateCacheKey e.1 e.2 = generateCacheKey e'.1 e'.2) : e = e' := by
  obtain ⟨hname, hv⟩ := generateCacheKey_inj h
  exact Prod.ext (sanitized_inj he he' hname) hv

end

end AIAudio

end MotiAI
