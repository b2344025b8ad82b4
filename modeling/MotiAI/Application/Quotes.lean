import MotiAI.Application.Frame
import MotiAI.SelectionEnds

/-!
# The quotes of the application

The quotes box over whole runs of the application, from a fresh installation: fetches in flight, saved
affirmations and restarts write it, requests for a quote read it.

1. `Stock.effect`: the initial quotes stay, but for the affirmations saved to them, and what is added
   is an AI quote.
2. `stocked_run`: every displayed quote is stored, and no request that reads the box fails.
-/

namespace MotiAI

open Dart Hive HiveQuoteService

/-! ## The box -/

/-- What a move does to the quotes box. -/
inductive QuotesEffect [CaseMap] (b : Box Val) : Box Val → Prop
  | kept : QuotesEffect b b
  | fetched {q : Quote} (hq : Vetted q) : QuotesEffect b (addQuote q b)
  | affirmed (quoteId affirmation : String) :
      QuotesEffect b ((saveAffirmationToQuote quoteId affirmation b).getD b)
  | initialized : QuotesEffect b (initializeBoxes b)

/-- An initial quote, perhaps with an affirmation, or a vetted AI quote. -/
def Genuine [CaseMap] (q : Quote) : Prop :=
  (∃ q₀ ∈ initialQuotes, ∃ affirmation, q = { q₀ with affirmation := affirmation }) ∨ Vetted q

/-- A quotes box with the initial quotes, up to their affirmations, and AI quotes. -/
structure Stock [CaseMap] (b : Box Val) : Prop where
  wellTyped : WellTyped b
  genuine : ∀ (id : String) (q : Quote), b[id]? = some (.object q) → Genuine q
  initial : ∀ q₀ ∈ initialQuotes,
    ∃ affirmation, b[q₀.id]? = some (.object { q₀ with affirmation := affirmation })

/-- The initial ids are no AI ids. -/
theorem startsWith_of_initial {id : String} (h : id ∈ initialQuotes.map Quote.id) :
    startsWith id "ai_" = false := by
  have hall : ((initialQuotes.map Quote.id).all fun id => !startsWith id "ai_") = true := by
    decide +kernel
  simpa using List.all_eq_true.mp hall id h

theorem nodup_initialQuotes : (initialQuotes.map Quote.id).Nodup := by decide +kernel

theorem loadInitialQuotes_eq_putAll (b : Box Val) :
    loadInitialQuotes b = b.putAll (initialQuotes.map fun q => (q.id, .object q)) := by
  unfold loadInitialQuotes Box.putAll
  rw [List.foldl_map]
  rfl

section

variable [CaseMap]

theorem Genuine.affirmed {q : Quote} (h : Genuine q) (affirmation : Option String) :
    Genuine { q with affirmation := affirmation } := by
  rcases h with ⟨q₀, hq₀, old, rfl⟩ | h
  · exact Or.inl ⟨q₀, hq₀, affirmation, rfl⟩
  · exact Or.inr ⟨h.ai, h.nonempty, h.trimmed, h.unquoted, h.original⟩

theorem stock_loadInitialQuotes : Stock (loadInitialQuotes ∅) where
  wellTyped := wellTyped_empty.loadInitialQuotes
  genuine := by
    intro id q h
    rw [loadInitialQuotes_eq_putAll] at h
    rcases Box.getElem?_putAll h with h | h
    · obtain ⟨q₀, hq₀, heq⟩ := List.mem_map.mp h
      obtain ⟨-, hobject⟩ := Prod.mk.inj heq
      obtain rfl := Json.object.inj hobject
      exact Or.inl ⟨q₀, hq₀, q₀.affirmation, rfl⟩
    · exact absurd h Box.getElem?_empty_ne
  initial := by
    intro q₀ hq₀
    rw [loadInitialQuotes_eq_putAll]
    obtain ⟨v, hv⟩ := Box.exists_getElem?_putAll
      (List.mem_map_of_mem (f := fun q : Quote => (q.id, (.object q : Val))) hq₀) ∅
    rcases Box.getElem?_putAll hv with h | h
    · obtain ⟨q, hq, heq⟩ := List.mem_map.mp h
      obtain ⟨hid, rfl⟩ := Prod.mk.inj heq
      obtain rfl := List.inj_on_of_nodup_map nodup_initialQuotes hq hq₀ hid
      exact ⟨q.affirmation, hv⟩
    · exact absurd h Box.getElem?_empty_ne

variable {b b' : Box Val}

theorem Stock.addQuote (h : Stock b) {q : Quote} (hq : Vetted q) : Stock (addQuote q b) where
  wellTyped := h.wellTyped.addQuote q
  genuine := by
    intro id q' hq'
    rw [show (HiveQuoteService.addQuote q b)[id]? = _ from Box.getElem?_put b q.id id _] at hq'
    split at hq'
    · obtain rfl := Json.object.inj (Option.some.inj hq')
      exact Or.inr hq
    · exact h.genuine id q' hq'
  initial := by
    intro q₀ hq₀
    have hne : q.id ≠ q₀.id := by
      intro heq
      have hai := hq.ai
      rw [heq, startsWith_of_initial (List.mem_map_of_mem hq₀)] at hai
      cases hai
    show ∃ affirmation, (b.insert q.id (.object q))[q₀.id]? = _
    rw [Box.getElem?_put_of_ne b hne]
    exact h.initial q₀ hq₀

omit [CaseMap] in
theorem saveAffirmationToQuote_cases {quoteId affirmation : String}
    (hs : saveAffirmationToQuote quoteId affirmation b = some b') :
    b' = b ∨ ∃ quote, b[quoteId]? = some (.object quote) ∧
      b' = b.insert quoteId (.object { quote with affirmation := some affirmation }) := by
  unfold saveAffirmationToQuote at hs
  split at hs
  · exact Or.inl (Option.some.inj hs).symm
  · exact Or.inl (Option.some.inj hs).symm
  · rename_i quote hquote
    exact Or.inr ⟨quote, hquote, (Option.some.inj hs).symm⟩
  · cases hs

theorem Stock.saveAffirmation (h : Stock b) {quoteId affirmation : String}
    (hs : saveAffirmationToQuote quoteId affirmation b = some b') : Stock b' := by
  rcases saveAffirmationToQuote_cases hs with rfl | ⟨quote, hquote, rfl⟩
  · exact h
  refine ⟨h.wellTyped.saveAffirmationToQuote hs, fun id q hq => ?_, fun q₀ hq₀ => ?_⟩
  · rw [Box.getElem?_put] at hq
    split at hq
    · obtain rfl := Json.object.inj (Option.some.inj hq)
      exact (h.genuine quoteId quote hquote).affirmed (some affirmation)
    · exact h.genuine id q hq
  · obtain ⟨old, hold⟩ := h.initial q₀ hq₀
    by_cases hid : quoteId = q₀.id
    · subst hid
      obtain rfl := Json.object.inj (Option.some.inj (hquote.symm.trans hold))
      exact ⟨some affirmation, Box.getElem?_put_self _ _ _⟩
    · exact ⟨old, (Box.getElem?_put_of_ne b hid _).trans hold⟩

theorem Stock.ne_empty (h : Stock b) : b ≠ ∅ := by
  rintro rfl
  obtain ⟨q₀, hq₀⟩ := List.exists_mem_of_ne_nil _ initialQuotes_ne_nil
  obtain ⟨affirmation, hempty⟩ := h.initial q₀ hq₀
  exact Box.getElem?_empty_ne hempty

/-- A restart finds the quotes, and leaves them as they are. -/
theorem Stock.initializeBoxes (h : Stock b) : initializeBoxes b = b :=
  initializeBoxes_of_quotes h.wellTyped.quotes h.ne_empty

/-- **The stock lasts.** -/
theorem Stock.effect (h : Stock b) (he : QuotesEffect b b') : Stock b' := by
  cases he with
  | kept => exact h
  | fetched hq => exact h.addQuote hq
  | affirmed quoteId affirmation =>
    cases hs : saveAffirmationToQuote quoteId affirmation b with
    | none => exact h
    | some b'' => exact h.saveAffirmation hs
  | initialized =>
    rw [h.initializeBoxes]
    exact h

/-- No id is lost. -/
theorem Stock.mem_of_effect (h : Stock b) (he : QuotesEffect b b') {id : String} (hid : id ∈ b) :
    id ∈ b' := by
  cases he with
  | kept => exact hid
  | fetched hq => exact Box.mem_put.mpr (Or.inr hid)
  | affirmed quoteId affirmation =>
    cases hs : saveAffirmationToQuote quoteId affirmation b with
    | none => exact hid
    | some b'' =>
      rcases saveAffirmationToQuote_cases hs with rfl | ⟨quote, -, rfl⟩
      · exact hid
      · exact Box.mem_put.mpr (Or.inr hid)
  | initialized =>
    rw [h.initializeBoxes]
    exact hid

/-! ## Reading the box -/

/-- A quote that is read from the stock. -/
structure Drawn (b : Box Val) (q : Quote) : Prop where
  genuine : Genuine q
  stored : q.id ∈ b

theorem Stock.drawn_of_effect (h : Stock b) (he : QuotesEffect b b') (q : Quote)
    (hq : Drawn b q) : Drawn b' q :=
  ⟨hq.genuine, h.mem_of_effect he hq.stored⟩

theorem Stock.drawn (h : Stock b) {q : Quote} (hq : q ∈ storedQuotes b) : Drawn b q := by
  obtain ⟨v, hv, hquote⟩ := List.mem_filterMap.mp hq
  obtain rfl := asQuote_eq_some hquote
  obtain ⟨id, hid⟩ := Box.mem_values.mp hv
  obtain ⟨q', heq, rfl⟩ := h.wellTyped id _ hid
  obtain rfl := Json.object.inj heq
  exact ⟨h.genuine q.id q hid,
    Std.ExtTreeMap.mem_iff_isSome_getElem?.mpr (Option.isSome_of_eq_some hid)⟩

/-- The initial quotes are eligible, whether AI quotes are on or not. -/
theorem Stock.eligible_of_initial (h : Stock b) {q₀ : Quote} (hq₀ : q₀ ∈ initialQuotes)
    (useAI : Bool) : ∃ q ∈ eligible useAI (storedQuotes b), q.tradition = q₀.tradition := by
  obtain ⟨affirmation, hb⟩ := h.initial q₀ hq₀
  refine ⟨{ q₀ with affirmation := affirmation }, ?_, rfl⟩
  have hstored : { q₀ with affirmation := affirmation } ∈ storedQuotes b :=
    List.mem_filterMap.mpr ⟨_, Box.mem_values.mpr ⟨q₀.id, hb⟩, rfl⟩
  cases useAI with
  | true => exact hstored
  | false =>
    refine List.mem_filter.mpr ⟨hstored, ?_⟩
    simpa using startsWith_of_initial (List.mem_map_of_mem hq₀)

/-- Every reading of the stock finds quotes of four traditions. -/
theorem Stock.four_le_spread (h : Stock b) (useAI : Bool) : 4 ≤ spread b useAI := by
  have hinitial : 4 ≤ (initialQuotes.map Quote.trimmedTradition).toFinset.card := by
    decide +kernel
  refine hinitial.trans (Finset.card_le_card fun tradition ht => ?_)
  obtain ⟨q₀, hq₀, rfl⟩ := List.mem_map.mp (List.mem_toFinset.mp ht)
  obtain ⟨q, hq, htradition⟩ := h.eligible_of_initial hq₀ useAI
  refine List.mem_toFinset.mpr (List.mem_map.mpr ⟨q, hq, ?_⟩)
  unfold Quote.trimmedTradition
  rw [htradition]

/-- **A pick from the stock** never fails. -/
theorem Stock.localPick (h : Stock b) (category tradition : Option String)
    (avoid : Option (List String)) (useAI : Bool) (shuffle : Shuffle Quote) :
    ∃ q, localPick category tradition avoid b useAI shuffle = .ok q ∧ Drawn b q := by
  obtain ⟨q₀, hq₀⟩ := List.exists_mem_of_ne_nil _ initialQuotes_ne_nil
  obtain ⟨q₁, hq₁, -⟩ := h.eligible_of_initial hq₀ useAI
  obtain ⟨allQuotes, hall⟩ := Option.isSome_iff_exists.mp h.wellTyped.getAllQuotes_isSome
  obtain rfl := getAllQuotes_eq_some hall
  have hstored : storedQuotes b ≠ [] := List.ne_nil_of_mem (mem_of_mem_eligible hq₁).1
  have hsub : ∀ q ∈ ofCategory category (ofTradition tradition
      (avoiding avoid (eligible useAI (storedQuotes b)))), q ∈ eligible useAI (storedQuotes b) :=
    fun q hq => (mem_avoiding_iff.mp (mem_filters.mp hq).1).1
  obtain ⟨q, hq, hpick⟩ := pickOne_ok hsub (List.ne_nil_of_mem hq₁) shuffle
  refine ⟨q, ?_, h.drawn (mem_of_mem_eligible hq).1⟩
  unfold HiveQuoteService.localPick
  rw [hall]
  dsimp only
  rw [if_neg (by simpa using hstored)]
  exact hpick

end

end MotiAI
