import MotiAI.Image.PrefetchKeys
import MotiAI.Lib.FirstMatch

/-!
# The prompt of a tradition with a category

The screen builds its prompt for the theme made of the tradition, a space and the category of a quote,
and `buildPrompt` looks for its words in all of that.

1. `contains_theme`: none of the nine words lies across the space.
2. `findRow_theme`: a theme is tested for the tradition and for the category at once.
3. `prompts_iff`: when two categories give one prompt, and when it is the tradition's own.
-/

namespace MotiAI

open Dart

namespace Images

section

variable [CaseMap]

/-- The theme contains the word of this row. -/
def matchesRow (theme : String) (e : String × Vector String 8) : Bool :=
  contains (toLowerCase theme) e.1

/-- The row of a theme. -/
def findRow (theme : String) : Option (String × Vector String 8) :=
  promptVariations.find? (matchesRow theme)

/-- The words tested before the first one that the tradition contains. -/
def earlierWords (tradition : String) : List String :=
  (promptVariations.map Prod.fst).takeWhile fun w => !contains (toLowerCase tradition) w

/-- The first of these words that the category contains. -/
def firstWord (category : String) (ws : List String) : Option String :=
  ws.find? fun w => contains (toLowerCase category) w

/-- The prompts for two categories of a tradition are one, from the list of the tradition. -/
structure FollowsTradition (tradition category₁ category₂ : String) (variation : Fin 8) : Prop where
  same : buildPrompt (tradition ++ " " ++ category₁) variation =
    buildPrompt (tradition ++ " " ++ category₂) variation
  own : buildPrompt (tradition ++ " " ++ category₁) variation = buildPrompt tradition variation

/-! ## Two parts of a theme -/

omit [CaseMap] in
/-- The nine words differ, and are without spaces. -/
theorem exists_words : ∃ ls : List (List Char),
    (promptVariations.map Prod.fst).map String.toList = ls ∧
      (ls.all fun l => ' ' ∉ l) = true ∧ (ls.map digest).Nodup := by
  unfold promptVariations
  repeat refine toLists_cons rfl ?_
  exact ⟨[], rfl, rfl, by decide +kernel⟩

omit [CaseMap] in
theorem space_notMem_words : ∀ e ∈ promptVariations, ' ' ∉ e.1.toList := by
  obtain ⟨ls, hls, hall, -⟩ := exists_words
  intro e he
  have hmem : e.1.toList ∈ ls := hls ▸ List.mem_map_of_mem (List.mem_map_of_mem he)
  exact of_decide_eq_true (List.all_eq_true.mp hall e.1.toList hmem)

omit [CaseMap] in
theorem nodup_words : (promptVariations.map Prod.fst).Nodup := by
  obtain ⟨ls, hls, -, hnodup⟩ := exists_words
  rw [← hls] at hnodup
  exact (hnodup.of_map digest).of_map String.toList

/-- No word without a space lies across the one between tradition and category. -/
theorem contains_theme (tradition category : String) {w : String} (hw : ' ' ∉ w.toList) :
    contains (toLowerCase (tradition ++ " " ++ category)) w =
      (contains (toLowerCase tradition) w || contains (toLowerCase category) w) := by
  have hspace : toLowerCase " " = " " := by
    rw [toLowerCase_of_ascii (lt_of_isAscii (by decide +kernel))]
    rfl
  rw [Bool.eq_iff_iff, Bool.or_eq_true, contains_iff, contains_iff, contains_iff,
    toLowerCase_append, toLowerCase_append, hspace, String.toList_append, String.toList_append,
    List.append_assoc]
  exact infix_append_cons_iff hw

/-- The rows before the tradition's. -/
def earlierRows (tradition : String) : List (String × Vector String 8) :=
  promptVariations.takeWhile fun e => !matchesRow tradition e

theorem map_earlierRows (tradition : String) :
    (earlierRows tradition).map Prod.fst = earlierWords tradition := by
  unfold earlierRows earlierWords matchesRow
  rw [List.takeWhile_map, Function.comp_def]

/-- **The choice of a row.** A theme matches where its tradition or its category does. -/
theorem findRow_theme (tradition category : String) : findRow (tradition ++ " " ++ category) =
    promptVariations.find? (fun e => matchesRow tradition e || matchesRow category e) :=
  List.find?_congr fun e he => contains_theme tradition category (space_notMem_words e he)

theorem exists_findRow_theme {tradition : String} {e : String × Vector String 8}
    (h : findRow tradition = some e) (category : String) :
    ∃ e', findRow (tradition ++ " " ++ category) = some e' := by
  rw [findRow_theme]
  exact ⟨_, FirstMatch.find?_or_eq h⟩

/-! ## Rows and prompts -/

/-- Different rows have different prompts. -/
theorem row_inj {e e' : String × Vector String 8} (he : e ∈ promptVariations)
    (he' : e' ∈ promptVariations) {variation : Fin 8} (h : e.2.get variation = e'.2.get variation) :
    e = e' := by
  by_contra hne
  have hnodup : prompts.Nodup := nodup_cacheKeys.of_map
  have hsymm : Std.Symm (Function.onFun List.Disjoint
      fun e : String × Vector String 8 => e.2.toList) := ⟨fun _ _ h => h.symm⟩
  have hdisjoint := (List.nodup_flatMap.mp hnodup).2.forall he he' hne
  have hmem (e : String × Vector String 8) : e.2.get variation ∈ e.2.toList :=
    Vector.mem_toList_iff.mpr (Vector.getElem_mem variation.isLt)
  exact hdisjoint (hmem e) (h ▸ hmem e')

theorem buildPrompt_eq_of_findRow {theme : String} {e : String × Vector String 8}
    (h : findRow theme = some e) (variation : Fin 8) :
    buildPrompt theme variation = e.2.get variation := by
  unfold buildPrompt
  rw [show promptVariations.find? (fun e => contains (toLowerCase theme) e.1) = some e from h]
  rfl

/-- Themes with words have the same prompt exactly when they choose the same row. -/
theorem buildPrompt_eq_iff {s t : String} (hs : ∃ e, findRow s = some e)
    (ht : ∃ e, findRow t = some e) (variation : Fin 8) :
    buildPrompt s variation = buildPrompt t variation ↔ findRow s = findRow t := by
  obtain ⟨e, hs⟩ := hs
  obtain ⟨e', ht⟩ := ht
  rw [buildPrompt_eq_of_findRow hs, buildPrompt_eq_of_findRow ht, hs, ht, Option.some_inj]
  refine ⟨row_inj (List.mem_of_find?_eq_some hs) (List.mem_of_find?_eq_some ht), ?_⟩
  rintro rfl
  rfl

theorem map_row {theme : String} {e : String × Vector String 8} (h : findRow theme = some e) :
    (List.finRange 8).map (fun v => generateCacheKey (buildPrompt theme v)) =
      e.2.toList.map generateCacheKey := by
  rw [← map_buildPrompt h, List.map_map]
  rfl

/-- The variations of a theme have different cache keys. -/
theorem cacheKey_inj (theme : String) {v v' : Fin 8}
    (h : generateCacheKey (buildPrompt theme v) = generateCacheKey (buildPrompt theme v')) :
    v = v' := by
  have hnodup : ((List.finRange 8).map fun v => generateCacheKey (buildPrompt theme v)).Nodup := by
    cases hrow : findRow theme with
    | some e =>
      have hall := nodup_cacheKeys
      unfold prompts at hall
      rw [List.map_flatMap] at hall
      rw [map_row hrow]
      exact (List.nodup_flatMap.mp hall).1 e (List.mem_of_find?_eq_some hrow)
    | none =>
      have hother : (List.finRange 8).map (buildPrompt theme) = otherVariations.toList := by
        unfold buildPrompt
        rw [show promptVariations.find? (fun e => contains (toLowerCase theme) e.1) = none from hrow]
        exact map_get otherVariations
      have hkeys := nodup_otherKeys
      rw [← hother, List.map_map] at hkeys
      exact hkeys
  exact List.inj_on_of_nodup_map hnodup (List.mem_finRange v) (List.mem_finRange v') h

/-! ## Categories -/

theorem firstWord_earlierWords (tradition category : String) :
    firstWord category (earlierWords tradition) =
      ((earlierRows tradition).find? (matchesRow category)).map Prod.fst := by
  unfold firstWord matchesRow
  rw [← map_earlierRows, List.find?_map, Function.comp_def]

/-- Rows are told apart by their words. -/
theorem firstWord_eq_iff (tradition category₁ category₂ : String) :
    firstWord category₁ (earlierWords tradition) = firstWord category₂ (earlierWords tradition) ↔
      (earlierRows tradition).find? (matchesRow category₁) =
        (earlierRows tradition).find? (matchesRow category₂) := by
  have hrow {category : String} {e : String × Vector String 8}
      (h : (earlierRows tradition).find? (matchesRow category) = some e) : e ∈ promptVariations :=
    (List.takeWhile_sublist _).subset (List.mem_of_find?_eq_some h)
  rw [firstWord_earlierWords, firstWord_earlierWords]
  refine ⟨fun h => ?_, fun h => by rw [h]⟩
  cases h₁ : (earlierRows tradition).find? (matchesRow category₁) with
  | none =>
    rw [h₁] at h
    exact (Option.map_eq_none_iff.mp h.symm).symm
  | some e =>
    rw [h₁] at h
    obtain ⟨e', h₂, heq⟩ := Option.map_eq_some_iff.mp h.symm
    rw [h₂, List.inj_on_of_nodup_map nodup_words (hrow h₂) (hrow h₁) heq]

/-- Two categories of a tradition have one prompt exactly when the same earlier word, if any, is the
first in both. -/
theorem same_iff {tradition : String} {e : String × Vector String 8}
    (h : findRow tradition = some e) (category₁ category₂ : String) (variation : Fin 8) :
    buildPrompt (tradition ++ " " ++ category₁) variation =
        buildPrompt (tradition ++ " " ++ category₂) variation ↔
      firstWord category₁ (earlierWords tradition) =
        firstWord category₂ (earlierWords tradition) := by
  rw [buildPrompt_eq_iff (exists_findRow_theme h category₁) (exists_findRow_theme h category₂),
    findRow_theme, findRow_theme, FirstMatch.find?_or_inj h, firstWord_eq_iff]
  rfl

/-- The prompt is from the list of the tradition exactly when no earlier word is in the category. -/
theorem own_iff {tradition : String} {e : String × Vector String 8}
    (h : findRow tradition = some e) (category : String) (variation : Fin 8) :
    buildPrompt (tradition ++ " " ++ category) variation = buildPrompt tradition variation ↔
      ∀ w ∈ earlierWords tradition, ¬ contains (toLowerCase category) w := by
  rw [buildPrompt_eq_iff (exists_findRow_theme h category) ⟨e, h⟩, findRow_theme, ← map_earlierRows,
    List.forall_mem_map]
  exact FirstMatch.find?_or_eq_iff h

theorem exists_findRow {tradition : String}
    (h : ∃ e ∈ promptVariations, contains (toLowerCase tradition) e.1) :
    ∃ e, findRow tradition = some e :=
  Option.isSome_iff_exists.mp (List.find?_isSome.mpr h)

/-- **When the category has no say.** For a tradition with one of the nine words, two categories have
one prompt exactly when their first earlier words agree, and it is from the tradition's list exactly
when they have none. -/
theorem prompts_iff {tradition : String}
    (h : ∃ e ∈ promptVariations, contains (toLowerCase tradition) e.1)
    (category₁ category₂ : String) (variation : Fin 8) :
    (buildPrompt (tradition ++ " " ++ category₁) variation =
        buildPrompt (tradition ++ " " ++ category₂) variation ↔
      firstWord category₁ (earlierWords tradition) =
        firstWord category₂ (earlierWords tradition)) ∧
    (FollowsTradition tradition category₁ category₂ variation ↔
      ∀ w ∈ earlierWords tradition,
        ¬ contains (toLowerCase category₁) w ∧ ¬ contains (toLowerCase category₂) w) := by
  obtain ⟨e, he⟩ := exists_findRow h
  refine ⟨same_iff he category₁ category₂ variation, ?_⟩
  constructor
  · rintro ⟨hsame, hown⟩ w hw
    exact ⟨(own_iff he category₁ variation).mp hown w hw,
      (own_iff he category₂ variation).mp (hsame.symm.trans hown) w hw⟩
  · intro hno
    have h₁ := (own_iff he category₁ variation).mpr fun w hw => (hno w hw).1
    have h₂ := (own_iff he category₂ variation).mpr fun w hw => (hno w hw).2
    exact ⟨h₁.trans h₂.symm, h₁⟩

end

/-- Two categories of 'Social Justice'. -/
theorem prompts_iff_equality :
    let tradition := "Social Justice"
    @FollowsTradition CaseMap.ascii tradition "Equality" "Solidarity" ⟨0, by decide⟩ := by
  intro tradition
  have hword : ∃ e ∈ promptVariations, contains (@toLowerCase CaseMap.ascii tradition) e.1 := by
    decide +kernel
  refine (@prompts_iff CaseMap.ascii tradition hword "Equality" "Solidarity" ⟨0, by decide⟩).2.mpr ?_
  decide +kernel

/-- A citizen's zen: 'Citizenship' turns the prompts of 'Social Justice' into those of zen gardens. -/
theorem not_followsTradition_citizenship :
    let tradition := "Social Justice"
    (∃ e ∈ promptVariations, contains (@toLowerCase CaseMap.ascii tradition) e.1) ∧
      @buildPrompt CaseMap.ascii (tradition ++ " " ++ "Equality") ⟨0, by decide⟩ ≠
        @buildPrompt CaseMap.ascii (tradition ++ " " ++ "Citizenship") ⟨0, by decide⟩ := by
  intro tradition
  constructor
  · decide +kernel
  · decide +kernel

end Images

end MotiAI
