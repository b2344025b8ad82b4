import MotiAI.Dart.Shuffle
import MotiAI.Dart.Text
import MotiAI.Store

/-!
# Choosing a quote

`getRandomQuote` and `getRandomQuoteWithTraditionVariety`: an AI quote when one is offered, else a
random stored quote that passes the filters, with a fallback to all eligible quotes. Both are cut
where the code awaits: first the request to Anthropic (`aiPick`), then the reading of the quotes box
(`localPick`).

`localPick_avoids`: without category and tradition filters, a local pick has none of the traditions
to avoid as long as the eligible stored quotes span more traditions than that; the fallback is then
out of reach.

`matches_iff`: with filters that some eligible stored quote passes, every pick passes them exactly
when one that passes has no tradition to avoid, or all eligible quotes pass.
-/

namespace MotiAI

open Dart Hive

/-- `quote.tradition.trim()`. -/
def Quote.trimmedTradition (q : Quote) : String := trim q.tradition

namespace HiveQuoteService

/-- The cast of a stored value, `Exception('No quotes found')`, and `first` of an empty list. -/
inductive SelectError where
  | cast
  | noQuotes
  | noElement

/-- The quotes a setting of `useAIQuotes` allows: without it, those with an AI id are left out. -/
def eligible (useAIQuotes : Bool) (quotes : List Quote) : List Quote :=
  if useAIQuotes then quotes else quotes.filter fun q => !startsWith q.id "ai_"

def avoiding (avoidTraditions : Option (List String)) (quotes : List Quote) : List Quote :=
  match avoidTraditions with
  | none => quotes
  | some avoid =>
    if avoid.isEmpty then quotes else quotes.filter fun q => !avoid.contains q.trimmedTradition

section Filters

variable [CaseMap]

def ofTradition (tradition : Option String) (quotes : List Quote) : List Quote :=
  match tradition with
  | none => quotes
  | some tradition =>
    quotes.filter fun q => toLowerCase (trim q.tradition) == toLowerCase (trim tradition)

def ofCategory (category : Option String) (quotes : List Quote) : List Quote :=
  match category with
  | none => quotes
  | some category => quotes.filter fun q => toLowerCase q.category == toLowerCase category

end Filters

/-- `if (filteredQuotes.isEmpty) filteredQuotes = …; filteredQuotes.shuffle(); return first`. -/
def pickOne (filteredQuotes fallback : List Quote) (shuffle : Shuffle Quote) :
    Except SelectError Quote :=
  match shuffle.first (if filteredQuotes.isEmpty then fallback else filteredQuotes) with
  | none => .error .noElement
  | some quote => .ok quote

/-- The AI quote, when AI quotes are on, one was fetched and its tradition is not to be avoided. -/
def aiPick (avoidTraditions : Option (List String)) (useAIQuotes : Bool) (aiQuote : Option Quote) :
    Option Quote :=
  if useAIQuotes then
    aiQuote.filter fun q =>
      match avoidTraditions with
      | none => true
      | some avoid => !avoid.contains q.trimmedTradition
  else none

/-- What a selection finds on its way: `useAIQuotes` at its start and the answer of
`fetchQuoteFromAnthropic`, then the quotes box and `useAIQuotes` when the box is read. -/
structure Readings where
  askAI : Bool
  aiQuote : Option Quote
  stored : Box Val
  useAIQuotes : Bool

section Select

variable [CaseMap]

def localPick (category tradition : Option String) (avoidTraditions : Option (List String))
    (stored : Box Val) (useAIQuotes : Bool) (shuffle : Shuffle Quote) : Except SelectError Quote :=
  match getAllQuotes stored with
  | none => .error .cast
  | some allQuotes =>
    if allQuotes.isEmpty then .error .noQuotes
    else pickOne
      (ofCategory category (ofTradition tradition
        (avoiding avoidTraditions (eligible useAIQuotes allQuotes))))
      (eligible useAIQuotes allQuotes) shuffle

def getRandomQuote (category tradition : Option String) (r : Readings) (shuffle : Shuffle Quote) :
    Except SelectError Quote :=
  match aiPick none r.askAI r.aiQuote with
  | some aiQuote => .ok aiQuote
  | none => localPick category tradition none r.stored r.useAIQuotes shuffle

def getRandomQuoteWithTraditionVariety (category tradition : Option String)
    (avoidTraditions : Option (List String)) (r : Readings) (shuffle : Shuffle Quote) :
    Except SelectError Quote :=
  match aiPick avoidTraditions r.askAI r.aiQuote with
  | some aiQuote => .ok aiQuote
  | none => localPick category tradition avoidTraditions r.stored r.useAIQuotes shuffle

end Select

end HiveQuoteService

open HiveQuoteService

/-! ## What a pick avoids -/

/-- The quotes among the values of a box. -/
def storedQuotes (b : Box Val) : List Quote := b.values.filterMap asQuote

/-- How many trimmed traditions the eligible quotes of a box span. -/
def spread (stored : Box Val) (useAIQuotes : Bool) : ℕ :=
  ((eligible useAIQuotes (storedQuotes stored)).map Quote.trimmedTradition).toFinset.card

theorem getAllQuotes_eq_some {b : Box Val} {qs : List Quote} (h : getAllQuotes b = some qs) :
    qs = storedQuotes b := by
  have key : ∀ (vs : List Val) (qs : List Quote), vs.mapM asQuote = some qs →
      qs = vs.filterMap asQuote := by
    intro vs
    induction vs with
    | nil => intro qs h; exact (Option.some.inj h).symm
    | cons v vs ih =>
      intro qs h
      rw [List.mapM_cons] at h
      obtain ⟨q, hq, h⟩ := Option.bind_eq_some_iff.mp h
      obtain ⟨qs', hqs, h⟩ := Option.bind_eq_some_iff.mp h
      obtain rfl := Option.some.inj h
      rw [List.filterMap_cons, hq, ih qs' hqs]
  exact key _ _ h

theorem not_mem_of_aiPick {avoid : List String} {useAI : Bool} {ai : Option Quote} {q : Quote}
    (h : aiPick (some avoid) useAI ai = some q) : q.trimmedTradition ∉ avoid := by
  unfold aiPick at h
  split at h
  · have := (Option.filter_eq_some_iff.mp h).2
    simpa using this
  · cases h

/-- A pick comes from the filtered quotes unless there are none. -/
theorem mem_of_pickOne {filtered fallback : List Quote} {shuffle : Shuffle Quote} {q : Quote}
    (h : pickOne filtered fallback shuffle = .ok q) (hne : filtered ≠ []) : q ∈ filtered := by
  unfold pickOne at h
  rw [if_neg (by simpa using hne)] at h
  cases hl : shuffle.first filtered with
  | none => rw [hl] at h; cases h
  | some q' =>
    rw [hl] at h
    cases h
    exact Shuffle.first_mem hl

/-- When the filtered quotes are among those of the fallback, so is every pick. -/
theorem mem_fallback_of_pickOne {filtered fallback : List Quote} {shuffle : Shuffle Quote}
    {q : Quote} (hsub : ∀ q ∈ filtered, q ∈ fallback)
    (h : pickOne filtered fallback shuffle = .ok q) : q ∈ fallback := by
  by_cases hne : filtered = []
  · subst hne
    unfold pickOne at h
    rw [if_pos List.isEmpty_nil] at h
    cases hl : shuffle.first fallback with
    | none =>
      rw [hl] at h
      cases h
    | some q' =>
      rw [hl] at h
      cases h
      exact Shuffle.first_mem hl
  · exact hsub q (mem_of_pickOne h hne)

theorem mem_avoiding {avoid : List String} {qs : List Quote} {q : Quote} :
    q ∈ avoiding (some avoid) qs ↔ q ∈ qs ∧ q.trimmedTradition ∉ avoid := by
  unfold avoiding
  cases avoid with
  | nil => simp
  | cons t ts => simp

/-- The quote has a tradition that is to be avoided. -/
def Avoided (avoidTraditions : Option (List String)) (q : Quote) : Prop :=
  ∃ avoid, avoidTraditions = some avoid ∧ q.trimmedTradition ∈ avoid

theorem mem_avoiding_iff {avoid : Option (List String)} {qs : List Quote} {q : Quote} :
    q ∈ avoiding avoid qs ↔ q ∈ qs ∧ ¬Avoided avoid q := by
  unfold Avoided
  cases avoid with
  | none => simp [avoiding]
  | some avoid => simp [mem_avoiding]

/-- Fewer traditions to avoid than the quotes span leave some quote. -/
theorem avoiding_ne_nil {avoid : List String} {qs : List Quote}
    (h : avoid.length < (qs.map Quote.trimmedTradition).toFinset.card) :
    avoiding (some avoid) qs ≠ [] := by
  have hcard : avoid.toFinset.card < (qs.map Quote.trimmedTradition).toFinset.card :=
    lt_of_le_of_lt (List.toFinset_card_le avoid) h
  obtain ⟨t, ht, hn⟩ := Finset.exists_mem_notMem_of_card_lt_card hcard
  obtain ⟨q, hq, rfl⟩ := List.mem_map.mp (List.mem_toFinset.mp ht)
  exact List.ne_nil_of_mem (mem_avoiding.mpr ⟨hq, fun hm => hn (List.mem_toFinset.mpr hm)⟩)

section Select

variable [CaseMap]

/-- **A local pick avoids.** The stored quotes span more traditions than are to be avoided, so the
pick has none of these. -/
theorem localPick_avoids {avoid : List String} {stored : Box Val} {useAI : Bool}
    {shuffle : Shuffle Quote} {q : Quote} (hspread : avoid.length < spread stored useAI)
    (h : localPick none none (some avoid) stored useAI shuffle = .ok q) :
    q.trimmedTradition ∉ avoid := by
  unfold localPick at h
  cases hall : getAllQuotes stored with
  | none => rw [hall] at h; cases h
  | some allQuotes =>
    rw [hall] at h
    obtain rfl := getAllQuotes_eq_some hall
    dsimp only at h
    split at h
    · cases h
    · exact (mem_avoiding.mp (mem_of_pickOne h (avoiding_ne_nil hspread))).2

/-- A pick with tradition variety avoids, whichever source it comes from. -/
theorem variety_avoids {avoid : List String} {r : Readings} {shuffle : Shuffle Quote} {q : Quote}
    (hspread : avoid.length < spread r.stored r.useAIQuotes)
    (h : getRandomQuoteWithTraditionVariety none none (some avoid) r shuffle = .ok q) :
    q.trimmedTradition ∉ avoid := by
  unfold getRandomQuoteWithTraditionVariety at h
  cases hai : aiPick (some avoid) r.askAI r.aiQuote with
  | some aiQuote =>
    rw [hai] at h
    cases h
    exact not_mem_of_aiPick hai
  | none =>
    rw [hai] at h
    exact localPick_avoids hspread h

/-! ## What a pick matches -/

/-- The quote passes the filters of a request. -/
def Matches (category tradition : Option String) (q : Quote) : Prop :=
  (∀ c, category = some c → toLowerCase q.category = toLowerCase c) ∧
    ∀ t, tradition = some t → toLowerCase (trim q.tradition) = toLowerCase (trim t)

theorem mem_filters {category tradition : Option String} {qs : List Quote} {q : Quote} :
    q ∈ ofCategory category (ofTradition tradition qs) ↔ q ∈ qs ∧ Matches category tradition q := by
  have htradition : q ∈ ofTradition tradition qs ↔
      q ∈ qs ∧ ∀ t, tradition = some t → toLowerCase (trim q.tradition) = toLowerCase (trim t) := by
    cases tradition <;> simp [ofTradition]
  unfold Matches
  rw [and_comm (a := ∀ c, category = some c → _), ← and_assoc, ← htradition]
  cases category <;> simp [ofCategory]

variable {category tradition : Option String} {avoid : Option (List String)} {r : Readings}

/-- The quotes a pick starts from: what passes all filters, or else every eligible quote. -/
theorem variety_eq_pickOne (hai : aiPick avoid r.askAI r.aiQuote = none)
    (hstored : (getAllQuotes r.stored).isSome = true)
    (hne : eligible r.useAIQuotes (storedQuotes r.stored) ≠ []) (shuffle : Shuffle Quote) :
    getRandomQuoteWithTraditionVariety category tradition avoid r shuffle =
      pickOne (ofCategory category (ofTradition tradition
        (avoiding avoid (eligible r.useAIQuotes (storedQuotes r.stored)))))
        (eligible r.useAIQuotes (storedQuotes r.stored)) shuffle := by
  obtain ⟨allQuotes, hall⟩ := Option.isSome_iff_exists.mp hstored
  unfold getRandomQuoteWithTraditionVariety
  rw [hai]
  dsimp only
  unfold localPick
  rw [hall]
  obtain rfl := getAllQuotes_eq_some hall
  dsimp only
  rw [if_neg]
  intro hnil
  rw [List.isEmpty_iff.mp hnil] at hne
  exact hne (by cases r.useAIQuotes <;> rfl)

/-- **The filters of a request.** Without an AI quote, and with an eligible stored quote that passes
the filters, every outcome passes them exactly when one that passes has no tradition to avoid, or
all eligible quotes pass, or the box holds something else than quotes. -/
theorem matches_iff (hai : aiPick avoid r.askAI r.aiQuote = none)
    (hmatch : ∃ q ∈ eligible r.useAIQuotes (storedQuotes r.stored), Matches category tradition q) :
    (∀ shuffle q, getRandomQuoteWithTraditionVariety category tradition avoid r shuffle = .ok q →
      Matches category tradition q) ↔
    (getAllQuotes r.stored = none ∨
      (∃ q ∈ eligible r.useAIQuotes (storedQuotes r.stored),
        Matches category tradition q ∧ ¬Avoided avoid q) ∨
      ∀ q ∈ eligible r.useAIQuotes (storedQuotes r.stored), Matches category tradition q) := by
  by_cases hstored : getAllQuotes r.stored = none
  · refine iff_of_true (fun shuffle q h => ?_) (Or.inl hstored)
    unfold getRandomQuoteWithTraditionVariety at h
    rw [hai] at h
    dsimp only at h
    unfold localPick at h
    rw [hstored] at h
    cases h
  · obtain ⟨q₀, hq₀, hm₀⟩ := hmatch
    have hpick := @variety_eq_pickOne _ category tradition avoid r hai
      (Option.isSome_iff_ne_none.mpr hstored) (List.ne_nil_of_mem hq₀)
    simp only [hpick, hstored, false_or]
    generalize eligible r.useAIQuotes (storedQuotes r.stored) = quotes at hq₀
    have hmem : ∀ q, q ∈ ofCategory category (ofTradition tradition (avoiding avoid quotes)) ↔
        (q ∈ quotes ∧ ¬Avoided avoid q) ∧ Matches category tradition q := by
      intro q
      rw [mem_filters, mem_avoiding_iff]
    generalize ofCategory category (ofTradition tradition (avoiding avoid quotes)) = filtered at hmem
    constructor
    · intro h
      by_cases hnil : filtered = []
      · -- any eligible quote can come first
        refine Or.inr fun q hq => h (Shuffle.toFront q) q ?_
        unfold pickOne
        rw [hnil, if_pos List.isEmpty_nil, Shuffle.toFront_first hq]
      · obtain ⟨q, hq⟩ := List.exists_mem_of_ne_nil filtered hnil
        obtain ⟨⟨hq, hav⟩, hm⟩ := (hmem q).mp hq
        exact Or.inl ⟨q, hq, hm, hav⟩
    · rintro (⟨q, hq, hm, hav⟩ | hall) shuffle q' h
      · exact ((hmem q').mp (mem_of_pickOne h (List.ne_nil_of_mem ((hmem q).mpr ⟨⟨hq, hav⟩, hm⟩)))).2
      · exact hall q' (mem_fallback_of_pickOne (fun q hq => ((hmem q).mp hq).1.1) h)

end Select

/-! ## A tradition that is asked for and avoided -/

def zenQuote : Quote := ⟨"a", "Just sit.", "", "Zen", "Peace", "", none⟩

def sufiQuote : Quote := ⟨"b", "Dance.", "", "Sufi", "Love", "", none⟩

def zenAndSufi : Readings where
  askAI := false
  aiQuote := none
  stored := addQuote sufiQuote (addQuote zenQuote ∅)
  useAIQuotes := false

theorem storedQuotes_zenAndSufi : storedQuotes zenAndSufi.stored = [zenQuote, sufiQuote] := by
  decide +kernel

theorem exists_match_zenAndSufi : ∃ q ∈ eligible false (storedQuotes zenAndSufi.stored),
    @Matches CaseMap.ascii none (some "Sufi") q := by
  rw [storedQuotes_zenAndSufi]
  exact ⟨sufiQuote, by decide, by simp, by rintro t ⟨⟩; rfl⟩

/-- The Sufi quote is avoided, and the fallback offers the Zen quote. -/
theorem not_matches_avoided :
    (∃ q ∈ eligible false (storedQuotes zenAndSufi.stored),
      @Matches CaseMap.ascii none (some "Sufi") q) ∧
    ∃ q, @getRandomQuoteWithTraditionVariety CaseMap.ascii none (some "Sufi") (some ["Sufi"])
      zenAndSufi .keep = .ok q ∧ ¬@Matches CaseMap.ascii none (some "Sufi") q := by
  refine ⟨exists_match_zenAndSufi, zenQuote, rfl, fun h => ?_⟩
  have htradition := h.2 "Sufi" rfl
  exact absurd htradition (by decide +kernel)

theorem matches_iff_zenAndSufi :
    (∀ shuffle q, @getRandomQuoteWithTraditionVariety CaseMap.ascii none (some "Sufi")
      (some ["Zen"]) zenAndSufi shuffle = .ok q → @Matches CaseMap.ascii none (some "Sufi") q) ↔
    (getAllQuotes zenAndSufi.stored = none ∨
      (∃ q ∈ eligible false (storedQuotes zenAndSufi.stored),
        @Matches CaseMap.ascii none (some "Sufi") q ∧ ¬Avoided (some ["Zen"]) q) ∨
      ∀ q ∈ eligible false (storedQuotes zenAndSufi.stored),
        @Matches CaseMap.ascii none (some "Sufi") q) :=
  @matches_iff CaseMap.ascii none (some "Sufi") (some ["Zen"]) zenAndSufi rfl
    exists_match_zenAndSufi

end MotiAI
