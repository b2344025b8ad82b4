import MotiAI.Selection

/-!
# How a selection ends

The three functions that choose a random quote, over all their inputs and shuffles.

1. `variety_outcomes`: with no tradition to avoid that any quote has, `getRandomQuote` and
   `getRandomQuoteWithTraditionVariety` have the same outcomes.
2. `localPick_ends_iff`: when a pick from the box ends with an eligible quote or with the exception of
   its function.
3. `selectsSafely_iff`: `first` of an empty list is reached when all stored quotes are AI quotes, AI
   quotes are off and no quote is taken from the AI.
-/

namespace MotiAI

open Dart Hive

namespace HiveQuoteService

section

variable [CaseMap]

def getRandomQuoteFromLocalOnly (category tradition : Option String) (stored : Box Val)
    (shuffle : Shuffle Quote) : Except SelectError Quote :=
  match getAllQuotes stored with
  | none => .error .cast
  | some allQuotes =>
    if allQuotes.isEmpty then .error .noQuotes
    else pickOne (ofCategory category (ofTradition tradition allQuotes)) allQuotes shuffle

theorem getRandomQuoteFromLocalOnly_eq (category tradition : Option String) (stored : Box Val)
    (shuffle : Shuffle Quote) : getRandomQuoteFromLocalOnly category tradition stored shuffle =
      localPick category tradition none stored true shuffle := rfl

end

end HiveQuoteService

open HiveQuoteService

/-! ## Nothing to avoid -/

/-- No stored quote and no AI quote has a tradition to avoid. So it is when there is no list of
traditions to avoid, or an empty one. -/
def NoneAvoided (avoidTraditions : Option (List String)) (r : Readings) : Prop :=
  ∀ q, q ∈ storedQuotes r.stored ∨ r.aiQuote = some q → ¬ Avoided avoidTraditions q

theorem noneAvoided_none (r : Readings) : NoneAvoided none r := by
  rintro q - ⟨avoid, h, -⟩
  cases h

theorem noneAvoided_nil (r : Readings) : NoneAvoided (some []) r := by
  rintro q - ⟨avoid, h, hmem⟩
  cases h
  exact List.not_mem_nil hmem

theorem aiPick_of_not_avoided {avoid : Option (List String)} {useAI : Bool} {ai : Option Quote}
    (h : ∀ q, ai = some q → ¬ Avoided avoid q) : aiPick avoid useAI ai = aiPick none useAI ai := by
  unfold aiPick
  cases useAI with
  | false => rfl
  | true =>
    cases ai with
    | none => rfl
    | some q =>
      have hq := h q rfl
      cases avoid with
      | none => rfl
      | some avoid =>
        have hnot : (!avoid.contains q.trimmedTradition) = true := by
          simpa using fun hmem => hq ⟨avoid, rfl, hmem⟩
        rw [if_pos rfl, if_pos rfl, Option.filter_some, Option.filter_some]
        exact (if_pos hnot).trans (if_pos rfl).symm

theorem avoiding_of_not_avoided {avoid : Option (List String)} {quotes : List Quote}
    (h : ∀ q ∈ quotes, ¬ Avoided avoid q) : avoiding avoid quotes = quotes := by
  unfold avoiding
  cases avoid with
  | none => rfl
  | some avoid =>
    dsimp only
    split
    · rfl
    · refine List.filter_eq_self.mpr fun q hq => ?_
      simpa using fun hmem => h q hq ⟨avoid, rfl, hmem⟩

theorem mem_of_mem_eligible {useAI : Bool} {quotes : List Quote} {q : Quote}
    (h : q ∈ eligible useAI quotes) : q ∈ quotes ∧ (useAI = false → startsWith q.id "ai_" = false) := by
  unfold eligible at h
  cases useAI with
  | true => exact ⟨h, fun hf => by cases hf⟩
  | false => simpa using h

section

variable [CaseMap] {category tradition : Option String} {avoid : Option (List String)} {r : Readings}

/-- Shuffle for shuffle the two functions do the same. -/
theorem variety_eq_getRandomQuote (h : NoneAvoided avoid r) (shuffle : Shuffle Quote) :
    getRandomQuoteWithTraditionVariety category tradition avoid r shuffle =
      getRandomQuote category tradition r shuffle := by
  unfold getRandomQuoteWithTraditionVariety getRandomQuote
  rw [aiPick_of_not_avoided fun q hq => h q (Or.inr hq)]
  cases aiPick none r.askAI r.aiQuote with
  | some quote => rfl
  | none =>
    unfold localPick
    dsimp only
    cases hall : getAllQuotes r.stored with
    | none => rfl
    | some allQuotes =>
      obtain rfl := getAllQuotes_eq_some hall
      dsimp only
      rw [avoiding_of_not_avoided fun q hq => h q (Or.inl (mem_of_mem_eligible hq).1)]
      rfl

/-- **The selector with tradition variety extends the plain one**: with nothing to avoid it returns
the same quotes and throws in the same cases. -/
theorem variety_outcomes (h : NoneAvoided avoid r) (outcome : Except SelectError Quote) :
    (∃ shuffle, getRandomQuoteWithTraditionVariety category tradition avoid r shuffle = outcome) ↔
      ∃ shuffle, getRandomQuote category tradition r shuffle = outcome := by
  simp only [variety_eq_getRandomQuote h]

end

theorem noneAvoided_zenAndSufi : NoneAvoided (some ["Stoicism"]) zenAndSufi := by
  rintro q (hq | hq) ⟨avoid, havoid, hmem⟩
  · cases havoid
    rw [storedQuotes_zenAndSufi] at hq
    have htradition := List.mem_singleton.mp hmem
    rcases List.mem_pair.mp hq with rfl | rfl
    · exact absurd htradition (by decide +kernel)
    · exact absurd htradition (by decide +kernel)
  · cases hq

theorem variety_outcomes_zenAndSufi :
    (∃ shuffle, @getRandomQuoteWithTraditionVariety CaseMap.ascii none (some "Sufi")
        (some ["Stoicism"]) zenAndSufi shuffle = .ok sufiQuote) ↔
      ∃ shuffle, @getRandomQuote CaseMap.ascii none (some "Sufi") zenAndSufi shuffle =
        .ok sufiQuote :=
  @variety_outcomes CaseMap.ascii none (some "Sufi") (some ["Stoicism"]) zenAndSufi
    noneAvoided_zenAndSufi (.ok sufiQuote)

/-! ## The end of a selection -/

/-- A quote that may be returned, or the exception the function throws itself. -/
def Ends (P : Quote → Prop) : Except SelectError Quote → Prop
  | .ok quote => P quote
  | .error .noQuotes => True
  | .error _ => False

/-- The AI quote, or a stored one, which is no AI quote when these are off. -/
def Choosable (r : Readings) (q : Quote) : Prop :=
  r.aiQuote = some q ∨
    (q ∈ storedQuotes r.stored ∧ (r.useAIQuotes = false → startsWith q.id "ai_" = false))

theorem aiQuote_of_aiPick {avoid : Option (List String)} {useAI : Bool} {ai : Option Quote} {q : Quote}
    (h : aiPick avoid useAI ai = some q) : ai = some q := by
  unfold aiPick at h
  split at h
  · exact (Option.filter_eq_some_iff.mp h).1
  · cases h

/-- An AI quote that is taken is also taken when nothing is to be avoided. -/
theorem aiPick_none_of_aiPick {avoid : Option (List String)} {useAI : Bool} {ai : Option Quote}
    (h : aiPick avoid useAI ai ≠ none) : aiPick none useAI ai ≠ none := by
  cases useAI with
  | false => exact absurd rfl h
  | true =>
    cases ai with
    | none => exact absurd rfl h
    | some q => exact Option.some_ne_none q

/-- From quotes to fall back on, some quote is picked. -/
theorem pickOne_ok {filtered fallback : List Quote} (hsub : ∀ q ∈ filtered, q ∈ fallback)
    (hne : fallback ≠ []) (shuffle : Shuffle Quote) :
    ∃ q ∈ fallback, pickOne filtered fallback shuffle = .ok q := by
  have hpool : (if filtered.isEmpty then fallback else filtered) ≠ [] := by
    split
    · exact hne
    · rename_i h
      simpa using h
  obtain ⟨q, -, hq⟩ := Shuffle.exists_first shuffle hpool
  have hpick : pickOne filtered fallback shuffle = .ok q := by
    unfold pickOne
    rw [hq]
  exact ⟨q, mem_fallback_of_pickOne hsub hpick, hpick⟩

section

variable [CaseMap]

/-- However the lists are shuffled, the three functions return a quote that may be chosen or throw
their own exception. -/
structure SelectsSafely (category tradition : Option String) (avoid : Option (List String))
    (r : Readings) : Prop where
  plain : ∀ shuffle, Ends (Choosable r) (getRandomQuote category tradition r shuffle)
  variety : ∀ shuffle,
    Ends (Choosable r) (getRandomQuoteWithTraditionVariety category tradition avoid r shuffle)
  localOnly : ∀ shuffle, Ends (fun q => q ∈ storedQuotes r.stored)
    (getRandomQuoteFromLocalOnly category tradition r.stored shuffle)

variable {category tradition : Option String} {avoid : Option (List String)} {r : Readings}

/-- **A pick from the box** ends well exactly when the box holds quotes only, and none at all or some
eligible one. -/
theorem localPick_ends_iff {P : Quote → Prop} {stored : Box Val} {useAI : Bool}
    (hP : ∀ q ∈ eligible useAI (storedQuotes stored), P q) :
    (∀ shuffle, Ends P (localPick category tradition avoid stored useAI shuffle)) ↔
      getAllQuotes stored ≠ none ∧
        (storedQuotes stored = [] ∨ eligible useAI (storedQuotes stored) ≠ []) := by
  unfold localPick
  cases hall : getAllQuotes stored with
  | none => exact iff_of_false (fun h => h .keep) fun h => h.1 rfl
  | some allQuotes =>
    obtain rfl := getAllQuotes_eq_some hall
    dsimp only
    by_cases hnil : storedQuotes stored = []
    · rw [hnil]
      exact iff_of_true (fun _ => trivial) ⟨Option.some_ne_none _, Or.inl rfl⟩
    · simp only [List.isEmpty_iff, hnil, if_false]
      generalize hquotes : eligible useAI (storedQuotes stored) = quotes at hP
      have hsub : ∀ q ∈ ofCategory category (ofTradition tradition (avoiding avoid quotes)),
          q ∈ quotes := fun q hq => (mem_avoiding_iff.mp (mem_filters.mp hq).1).1
      by_cases hne : quotes = []
      · subst hne
        rw [List.eq_nil_iff_forall_not_mem.mpr fun q hq => List.not_mem_nil (hsub q hq)]
        refine iff_of_false (fun h => ?_) fun h => ?_
        · exact h .keep
        · exact h.2.elim id fun h => h rfl
      · refine iff_of_true (fun shuffle => ?_) ⟨Option.some_ne_none _, Or.inr hne⟩
        obtain ⟨q, hq, hpick⟩ := pickOne_ok hsub hne shuffle
        rw [hpick]
        exact hP q hq

theorem variety_ends_iff :
    (∀ shuffle, Ends (Choosable r)
        (getRandomQuoteWithTraditionVariety category tradition avoid r shuffle)) ↔
      aiPick avoid r.askAI r.aiQuote ≠ none ∨ getAllQuotes r.stored ≠ none ∧
        (storedQuotes r.stored = [] ∨ eligible r.useAIQuotes (storedQuotes r.stored) ≠ []) := by
  unfold getRandomQuoteWithTraditionVariety
  cases hai : aiPick avoid r.askAI r.aiQuote with
  | some q =>
    exact iff_of_true (fun _ => Or.inl (aiQuote_of_aiPick hai)) (Or.inl (Option.some_ne_none q))
  | none =>
    dsimp only
    rw [localPick_ends_iff (P := Choosable r) fun q hq => Or.inr (mem_of_mem_eligible hq)]
    exact (or_iff_right (not_not.mpr rfl)).symm

theorem getRandomQuote_ends_iff :
    (∀ shuffle, Ends (Choosable r) (getRandomQuote category tradition r shuffle)) ↔
      aiPick none r.askAI r.aiQuote ≠ none ∨ getAllQuotes r.stored ≠ none ∧
        (storedQuotes r.stored = [] ∨ eligible r.useAIQuotes (storedQuotes r.stored) ≠ []) :=
  @variety_ends_iff _ category tradition none r

theorem localOnly_ends_iff :
    (∀ shuffle, Ends (fun q => q ∈ storedQuotes r.stored)
        (getRandomQuoteFromLocalOnly category tradition r.stored shuffle)) ↔
      getAllQuotes r.stored ≠ none := by
  have hlocal := @localPick_ends_iff _ category tradition none (fun q => q ∈ storedQuotes r.stored)
    r.stored true fun q hq => (mem_of_mem_eligible hq).1
  refine hlocal.trans (and_iff_left ?_)
  exact Classical.em _

/-- **The end of a selection.** The three functions return a quote that may be chosen or throw their
own exception exactly when the box holds quotes only and is empty, or an eligible quote is stored, or
an AI quote is taken whatever is to be avoided. -/
theorem selectsSafely_iff : SelectsSafely category tradition avoid r ↔
    getAllQuotes r.stored ≠ none ∧
      (storedQuotes r.stored = [] ∨ eligible r.useAIQuotes (storedQuotes r.stored) ≠ [] ∨
        aiPick avoid r.askAI r.aiQuote ≠ none) := by
  constructor
  · rintro ⟨-, hvariety, hlocal⟩
    have hbox := localOnly_ends_iff.mp hlocal
    rcases variety_ends_iff.mp hvariety with h | ⟨-, h | h⟩
    · exact ⟨hbox, Or.inr (Or.inr h)⟩
    · exact ⟨hbox, Or.inl h⟩
    · exact ⟨hbox, Or.inr (Or.inl h)⟩
  · rintro ⟨hbox, h⟩
    refine ⟨getRandomQuote_ends_iff.mpr ?_, variety_ends_iff.mpr ?_, localOnly_ends_iff.mpr hbox⟩
    · rcases h with h | h | h
      · exact Or.inr ⟨hbox, Or.inl h⟩
      · exact Or.inr ⟨hbox, Or.inr h⟩
      · exact Or.inl (aiPick_none_of_aiPick h)
    · rcases h with h | h | h
      · exact Or.inr ⟨hbox, Or.inl h⟩
      · exact Or.inr ⟨hbox, Or.inr h⟩
      · exact Or.inl h

end

/-! ## Only AI quotes in the box -/

/-- AI quotes are off, and the only stored quote is one. -/
def onlyAI : Readings where
  askAI := false
  aiQuote := none
  stored := addQuote ⟨"ai_1", "Just sit.", "", "Zen", "Peace", "", none⟩ ∅
  useAIQuotes := false

/-- `first` of an empty list is taken. -/
theorem not_selectsSafely_onlyAI :
    ¬ @SelectsSafely CaseMap.ascii none none none onlyAI := by
  intro h
  exact @SelectsSafely.plain CaseMap.ascii none none none onlyAI h .keep

end MotiAI
