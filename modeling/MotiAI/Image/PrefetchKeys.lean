import MotiAI.Image.Background

/-!
# The keys of the prefetch

The 72 items of a prefetch, theme by theme.

1. `nodup_items_cacheKey`: their prompts have different cache keys, as 19 characters show.
2. `prefetchId_inj`: their ids for the callback differ.
-/

namespace MotiAI

open Dart

namespace Images

/-- The items of a prefetch: a theme and a variation. -/
def items : List (String × Fin 8) :=
  traditions.flatMap fun tradition => (List.finRange 8).map fun i => (tradition, i)

theorem mem_items {e : String × Fin 8} : e ∈ items ↔ e.1 ∈ traditions := by
  unfold items
  rw [List.mem_flatMap]
  constructor
  · rintro ⟨tradition, ht, he⟩
    obtain ⟨i, -, rfl⟩ := List.mem_map.mp he
    exact ht
  · intro ht
    exact ⟨e.1, ht, List.mem_map.mpr ⟨e.2, List.mem_finRange e.2, rfl⟩⟩

theorem items_ne_nil : items ≠ [] := by
  simp [items, traditions]

/-! ## Lists -/

/-- Entries whose digests differ are told apart by every function that determines the digest. -/
theorem nodup_map_of_digest {α β : Type} {f : α → β} {g : α → ℕ} {l : List α}
    (hn : (l.map g).Nodup) (h : ∀ a ∈ l, ∀ b ∈ l, f a = f b → g a = g b) : (l.map f).Nodup := by
  rw [List.Nodup, List.pairwise_map] at hn ⊢
  exact hn.imp_of_mem fun ha hb hne hf => hne (h _ ha _ hb hf)

theorem flatMap_eq_of_forall₂ {α β γ : Type} {R : α → β → Prop} {f : α → List γ} {g : β → List γ}
    {as : List α} {bs : List β} (h : List.Forall₂ R as bs) (hfg : ∀ a b, R a b → f a = g b) :
    as.flatMap f = bs.flatMap g := by
  induction h with
  | nil => rfl
  | cons hab _ ih => rw [List.flatMap_cons, List.flatMap_cons, hfg _ _ hab, ih]

/-! ## The two tables -/

/-- All prompts in the table. -/
def prompts : List String := promptVariations.flatMap fun e => e.2.toList

/-- The digest of the first characters of a cache key. -/
def keyDigest (l : List Char) : ℕ := digest ((l.take 19).map keyChar)

set_option maxRecDepth 20000 in
/-- The prompts are long enough, start with ASCII, and differ early. -/
theorem exists_prompts : ∃ ls : List (List Char), prompts.map String.toList = ls ∧
    (ls.all fun l => isAscii (l.take 19) && 19 ≤ l.length) = true ∧ (ls.map keyDigest).Nodup := by
  unfold prompts promptVariations
  repeat refine toLists_cons rfl ?_
  refine ⟨[], rfl, ?_, ?_⟩
  · rfl
  · decide +kernel

set_option maxRecDepth 20000 in
theorem exists_otherPrompts : ∃ ls : List (List Char),
    otherVariations.toList.map String.toList = ls ∧
      (ls.all fun l => isAscii (l.take 19) && 19 ≤ l.length) = true ∧ (ls.map keyDigest).Nodup := by
  unfold otherVariations
  repeat refine toLists_cons rfl ?_
  refine ⟨[], rfl, ?_, ?_⟩
  · rfl
  · decide +kernel

/-- The themes are ASCII, and differ in lower case with underscores. -/
theorem exists_traditions : ∃ ls : List (List Char), traditions.map String.toList = ls ∧
    (ls.all isAscii) = true ∧
    (ls.map fun l => digest ((l.map Char.toLower).map fun c => if c = ' ' then '_' else c)).Nodup := by
  unfold traditions
  repeat refine toLists_cons rfl ?_
  refine ⟨[], rfl, ?_, ?_⟩
  · rfl
  · decide +kernel

/-! ## The prompts of the themes -/

section

variable [CaseMap]

theorem contains_lower {t w : String} {l m : List Char} (hl : t = String.ofList l)
    (hm : w = String.ofList m) (hascii : isAscii l = true) :
    contains (toLowerCase t) w = (l.map Char.toLower).tails.any m.isPrefixOf := by
  rw [toLowerCase_of_ascii]
  · unfold contains
    rw [String.toList_ofList, toList_of_eq hl, toList_of_eq hm]
  · rw [toList_of_eq hl]
    exact lt_of_isAscii hascii

/-- A row whose word does not occur in the theme is passed over. -/
theorem find_of_not_contains {t w : String} {row : Vector String 8}
    {e : String × Vector String 8} {es : List (String × Vector String 8)} {l m : List Char}
    (hl : t = String.ofList l) (hm : w = String.ofList m) (hascii : isAscii l = true)
    (hno : (l.map Char.toLower).tails.any m.isPrefixOf = false)
    (hes : es.find? (fun e => contains (toLowerCase t) e.1) = some e) :
    ((w, row) :: es).find? (fun e => contains (toLowerCase t) e.1) = some e := by
  rw [List.find?_cons_of_neg, hes]
  rw [contains_lower hl hm hascii, hno]
  decide

theorem find_of_contains {t w : String} {row : Vector String 8}
    {es : List (String × Vector String 8)} {l m : List Char}
    (hl : t = String.ofList l) (hm : w = String.ofList m) (hascii : isAscii l = true)
    (hyes : (l.map Char.toLower).tails.any m.isPrefixOf = true) :
    ((w, row) :: es).find? (fun e => contains (toLowerCase t) e.1) = some (w, row) := by
  rw [List.find?_cons_of_pos]
  rw [contains_lower hl hm hascii, hyes]

/-- The themes choose the rows of the table in their order. -/
theorem find_traditions :
    List.Forall₂ (fun t e => promptVariations.find? (fun e => contains (toLowerCase t) e.1) = some e)
      traditions promptVariations := by
  unfold traditions promptVariations
  repeat' apply List.Forall₂.cons
  on_goal 10 => exact .nil
  all_goals
    repeat refine find_of_not_contains rfl rfl rfl rfl ?_
    exact find_of_contains rfl rfl rfl rfl

omit [CaseMap] in
theorem map_get (row : Vector String 8) : (List.finRange 8).map row.get = row.toList := by
  apply List.ext_getElem
  · simp
  · intro n h₁ h₂
    rw [List.getElem_map, List.getElem_finRange, Vector.getElem_toList]
    rfl

theorem map_buildPrompt {t : String} {e : String × Vector String 8}
    (h : promptVariations.find? (fun e => contains (toLowerCase t) e.1) = some e) :
    (List.finRange 8).map (buildPrompt t) = e.2.toList := by
  unfold buildPrompt
  rw [h]
  exact map_get e.2

/-- The items of a prefetch go through the table row by row. -/
theorem map_items : items.map (fun e => buildPrompt e.1 e.2) = prompts := by
  unfold items prompts
  rw [List.map_flatMap]
  refine flatMap_eq_of_forall₂ find_traditions fun t e h => ?_
  rw [List.map_map]
  exact map_buildPrompt h

/-! ## Distinct cache keys -/

/-- A cache key starts with what the first characters of the prompt become. -/
theorem prefix_cacheKey {prompt : String} (hascii : isAscii (prompt.toList.take 19) = true) :
    (prompt.toList.take 19).map keyChar <+: (generateCacheKey prompt).toList :=
  prefix_replaceNonAlnum (List.take_prefix 19 _) (lt_of_isAscii hascii)

/-- Prompts that are long enough, start with ASCII and differ early have different cache keys. -/
theorem nodup_cacheKeys_of_digests {ps : List String} {ls : List (List Char)}
    (hls : ps.map String.toList = ls)
    (hall : (ls.all fun l => isAscii (l.take 19) && 19 ≤ l.length) = true)
    (hnodup : (ls.map keyDigest).Nodup) : (ps.map generateCacheKey).Nodup := by
  have hprompt : ∀ p ∈ ps, isAscii (p.toList.take 19) = true ∧ 19 ≤ p.toList.length := by
    intro p hp
    have h := List.all_eq_true.mp hall p.toList (hls ▸ List.mem_map_of_mem hp)
    rw [Bool.and_eq_true, decide_eq_true_eq] at h
    exact h
  have hdigests : (ps.map fun p => keyDigest p.toList).Nodup := by
    rw [← hls, List.map_map] at hnodup
    exact hnodup
  refine nodup_map_of_digest hdigests fun p hp q hq hkey => ?_
  obtain ⟨hpascii, hplen⟩ := hprompt p hp
  obtain ⟨hqascii, hqlen⟩ := hprompt q hq
  have hpre := prefix_cacheKey hpascii
  rw [hkey] at hpre
  have hlen : ((p.toList.take 19).map keyChar).length = ((q.toList.take 19).map keyChar).length := by
    rw [List.length_map, List.length_map, List.length_take, List.length_take]
    omega
  exact congrArg digest ((List.prefix_of_prefix_length_le hpre (prefix_cacheKey hqascii)
    (le_of_eq hlen)).eq_of_length hlen)

theorem nodup_cacheKeys : (prompts.map generateCacheKey).Nodup := by
  obtain ⟨ls, hls, hall, hnodup⟩ := exists_prompts
  exact nodup_cacheKeys_of_digests hls hall hnodup

theorem nodup_otherKeys : (otherVariations.toList.map generateCacheKey).Nodup := by
  obtain ⟨ls, hls, hall, hnodup⟩ := exists_otherPrompts
  exact nodup_cacheKeys_of_digests hls hall hnodup

theorem nodup_items_cacheKey :
    (items.map fun e => generateCacheKey (buildPrompt e.1 e.2)).Nodup := by
  have h := nodup_cacheKeys
  rw [← map_items, List.map_map] at h
  exact h

/-! ## Distinct ids -/

theorem nodup_themeKeys :
    (traditions.map fun t => replaceChar ' ' '_' (toLowerCase t)).Nodup := by
  obtain ⟨ls, hls, hall, hnodup⟩ := exists_traditions
  rw [← hls, List.map_map] at hnodup
  refine nodup_map_of_digest hnodup fun t ht u hu h => ?_
  have htheme : ∀ t ∈ traditions, (replaceChar ' ' '_' (toLowerCase t)).toList =
      (t.toList.map Char.toLower).map fun c => if c = ' ' then '_' else c := by
    intro t ht
    have hascii := List.all_eq_true.mp hall t.toList (hls ▸ List.mem_map_of_mem ht)
    unfold replaceChar
    rw [toLowerCase_of_ascii (lt_of_isAscii hascii), String.toList_ofList, String.toList_ofList]
  show digest _ = digest _
  rw [← htheme t ht, ← htheme u hu, h]

/-- The ids of two items differ. -/
theorem prefetchId_inj {e e' : String × Fin 8} (he : e ∈ items) (he' : e' ∈ items)
    (h : prefetchId e.1 e.2 = prefetchId e'.1 e'.2) : e = e' := by
  have hl := congrArg String.toList h
  unfold prefetchId at hl
  rw [String.toList_append, String.toList_append (t := toString (e'.2.val + 1))] at hl
  obtain ⟨c, hc⟩ := Background.toList_toString_index e.2
  obtain ⟨d, hd⟩ := Background.toList_toString_index e'.2
  have hlen : (toString (e.2.val + 1)).toList.length = (toString (e'.2.val + 1)).toList.length := by
    rw [hc, hd]
    rfl
  obtain ⟨htheme, hdigit⟩ := List.append_inj' hl hlen
  have hvariation : ∀ i j : Fin 8,
      (toString (i.val + 1)).toList = (toString (j.val + 1)).toList → i = j := by decide
  rw [String.toList_append, String.toList_append] at htheme
  have ht : e.1 = e'.1 := List.inj_on_of_nodup_map nodup_themeKeys (mem_items.mp he)
    (mem_items.mp he') (String.toList_inj.mp (List.append_cancel_right htheme))
  exact Prod.ext ht (hvariation e.2 e'.2 hdigit)

end

end Images

end MotiAI
