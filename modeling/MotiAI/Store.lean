import MotiAI.Hive.Box
import MotiAI.InitialQuotes

/-!
# The Hive quote service

The boxes of `HiveQuoteService` and its operations on them. The four boxes of dynamic values hold
what was put there: `Quote` objects in the quotes box as long as the service itself writes, any
decoded JSON after an import. `none` as the result of an operation says that it throws.
-/

namespace MotiAI

open Dart Hive

/-- A value of a box of dynamic type. -/
abbrev Val := Json Quote

/-- The boxes of the service. -/
structure Store where
  quotes : Box Val
  favorites : Box Val
  settings : Box Val
  cachedImages : Box Val
  cachedAudio : Box String

/-- The cast `v as Quote`. -/
def asQuote : Val → Option Quote
  | .object q => some q
  | _ => none

/-- Every value of the quotes box is a quote stored under its own id. -/
def WellTyped (b : Box Val) : Prop :=
  ∀ (k : String) (v : Val), b[k]? = some v → ∃ q : Quote, v = .object q ∧ q.id = k

namespace HiveQuoteService

/-- `_quotesBox.values.cast<Quote>().toList()`; the cast throws at a value of another type. -/
def getAllQuotes (b : Box Val) : Option (List Quote) := b.values.mapM asQuote

def addQuote (q : Quote) (b : Box Val) : Box Val := b.insert q.id (.object q)

def updateQuote (q : Quote) (b : Box Val) : Box Val := b.insert q.id (.object q)

def removeQuote (id : String) (s : Store) : Store :=
  { s with quotes := s.quotes.erase id, favorites := s.favorites.erase id }

/-- `_quotesBox.get(quoteId) as Quote?` is null for a stored null too, and throws at a value of
another type. -/
def saveAffirmationToQuote (quoteId affirmation : String) (b : Box Val) : Option (Box Val) :=
  match b[quoteId]? with
  | none => some b
  | some .null => some b
  | some (.object quote) =>
    some (b.insert quoteId (.object { quote with affirmation := some affirmation }))
  | some _ => none

/-- What `fetchQuoteFromAnthropic` does to the quotes box when it returns `result`: the returned
quote has been added, and without one nothing was written. -/
def storeFetched (result : Option Quote) (b : Box Val) : Box Val :=
  match result with
  | none => b
  | some aiQuote => addQuote aiQuote b

def loadInitialQuotes (b : Box Val) : Box Val :=
  initialQuotes.foldl (fun b quote => addQuote quote b) b

/-- `initialize`, on the quotes box as it was opened: the one-time migration looks at the first
entry, then an empty box is filled. -/
def initializeBoxes (b : Box Val) : Box Val :=
  let b := if (b.getAt 0).any Json.isMap then ∅ else b
  if b.isEmpty then loadInitialQuotes b else b

def storeGeneratedImage (quoteId imageData : String) (b : Box Val) : Box Val :=
  b.insert quoteId (.str imageData)

/-- `getStoredImage` returns `_cachedImagesBox.get(quoteId)` as a `String?`; the outer `none` is
the failing conversion. -/
def getStoredImage (quoteId : String) (b : Box Val) : Option (Option String) :=
  match b[quoteId]? with
  | none => some none
  | some .null => some none
  | some (.str image) => some (some image)
  | some _ => none

end HiveQuoteService

/-! ## Well-typed quotes boxes -/

section WellTyped

open HiveQuoteService

variable {b : Box Val}

@[simp] theorem asQuote_object (q : Quote) : asQuote (.object q) = some q := rfl

theorem asQuote_eq_some {v : Val} {q : Quote} (h : asQuote v = some q) : v = .object q := by
  cases v <;> simp_all [asQuote]

theorem wellTyped_empty : WellTyped ∅ := by
  intro k v h
  exact absurd h Box.getElem?_empty_ne

theorem WellTyped.put_self (h : WellTyped b) (q : Quote) :
    WellTyped (b.insert q.id (.object q)) := by
  intro k v hk
  rw [Box.getElem?_put] at hk
  split at hk
  · rename_i hid
    exact ⟨q, (Option.some.inj hk).symm, hid⟩
  · exact h k v hk

theorem WellTyped.addQuote (h : WellTyped b) (q : Quote) : WellTyped (addQuote q b) := h.put_self q

theorem WellTyped.delete (h : WellTyped b) (id : String) : WellTyped (b.erase id) := by
  intro k v hk
  rw [Box.getElem?_delete] at hk
  split at hk
  · cases hk
  · exact h k v hk

theorem WellTyped.storeFetched (h : WellTyped b) (result : Option Quote) :
    WellTyped (storeFetched result b) := by
  cases result with
  | none => exact h
  | some q => exact h.addQuote q

theorem WellTyped.saveAffirmationToQuote (h : WellTyped b) {quoteId affirmation : String}
    {b' : Box Val} (hs : saveAffirmationToQuote quoteId affirmation b = some b') :
    WellTyped b' := by
  unfold HiveQuoteService.saveAffirmationToQuote at hs
  cases hk : b[quoteId]? with
  | none =>
    rw [hk] at hs
    obtain rfl := Option.some.inj hs
    exact h
  | some v =>
    obtain ⟨q, rfl, rfl⟩ := h quoteId v hk
    rw [hk] at hs
    obtain rfl := Option.some.inj hs
    exact h.put_self { q with affirmation := some affirmation }

theorem WellTyped.exists_saveAffirmationToQuote (h : WellTyped b) (quoteId affirmation : String) :
    ∃ b', HiveQuoteService.saveAffirmationToQuote quoteId affirmation b = some b' := by
  unfold HiveQuoteService.saveAffirmationToQuote
  cases hk : b[quoteId]? with
  | none => exact ⟨b, rfl⟩
  | some v =>
    obtain ⟨q, rfl, -⟩ := h quoteId v hk
    exact ⟨_, rfl⟩

theorem WellTyped.loadInitialQuotes (h : WellTyped b) : WellTyped (loadInitialQuotes b) := by
  unfold HiveQuoteService.loadInitialQuotes
  exact List.foldlRecOn _ _ h fun _ hb quote _ => WellTyped.addQuote hb quote

theorem foldl_addQuote_ne_empty {qs : List Quote} (hq : qs ≠ []) (b : Box Val) :
    qs.foldl (fun b q => addQuote q b) b ≠ ∅ := by
  obtain ⟨qs, q, rfl⟩ := (List.eq_nil_or_concat qs).resolve_left hq
  rw [List.concat_eq_append, List.foldl_append]
  exact Box.put_ne_empty _ _ _

theorem mem_foldl_addQuote {quotes : List Quote} {b : Box Val} {id : String} :
    id ∈ quotes.foldl (fun b quote => addQuote quote b) b ↔ id ∈ quotes.map Quote.id ∨ id ∈ b := by
  induction quotes generalizing b with
  | nil => simp
  | cons quote quotes ih =>
    rw [List.foldl_cons, ih, List.map_cons, List.mem_cons]
    show _ ∨ id ∈ b.insert quote.id (.object quote) ↔ _
    rw [Box.mem_put]
    tauto

theorem loadInitialQuotes_ne_empty (b : Box Val) : loadInitialQuotes b ≠ ∅ :=
  foldl_addQuote_ne_empty initialQuotes_ne_nil b

/-- `getAllQuotes` succeeds exactly when every value is a quote. -/
theorem getAllQuotes_isSome_iff :
    (getAllQuotes b).isSome = true ↔
      ∀ (k : String) (v : Val), b[k]? = some v → ∃ q : Quote, v = .object q := by
  have key : ∀ vs : List Val, (vs.mapM asQuote).isSome = true ↔ ∀ v ∈ vs, ∃ q, v = .object q := by
    intro vs
    induction vs with
    | nil => simp
    | cons v vs ih =>
      rw [List.forall_mem_cons, ← ih, List.mapM_cons]
      cases hv : asQuote v with
      | none =>
        refine ⟨fun h => by simp at h, fun h => ?_⟩
        obtain ⟨q, rfl⟩ := h.1
        cases hv
      | some q =>
        have := asQuote_eq_some hv
        cases hm : vs.mapM asQuote <;> simp [this]
  unfold getAllQuotes
  rw [key]
  constructor
  · intro h k v hk
    exact h v (Box.mem_values.mpr ⟨k, hk⟩)
  · intro h v hv
    obtain ⟨k, hk⟩ := Box.mem_values.mp hv
    exact h k v hk

theorem WellTyped.getAllQuotes_isSome (h : WellTyped b) : (getAllQuotes b).isSome = true := by
  rw [getAllQuotes_isSome_iff]
  intro k v hk
  obtain ⟨q, hq, -⟩ := h k v hk
  exact ⟨q, hq⟩

/-- `getAllQuotes` lists the quotes of a well-typed box in the order of their ids, each once. -/
theorem WellTyped.getAllQuotes (h : WellTyped b) :
    ∃ quotes, getAllQuotes b = some quotes ∧ quotes.map Quote.id = b.keys ∧
      ∀ quote, quote ∈ quotes ↔ b[quote.id]? = some (.object quote) := by
  have key : ∀ es : List (String × Val), (∀ e ∈ es, ∃ q : Quote, e.2 = .object q ∧ q.id = e.1) →
      ∃ quotes, (es.map Prod.snd).mapM asQuote = some quotes ∧
        quotes.map Quote.id = es.map Prod.fst ∧
        ∀ quote, quote ∈ quotes ↔ (quote.id, Json.object quote) ∈ es := by
    intro es
    induction es with
    | nil => intro _; exact ⟨[], rfl, rfl, fun quote => by simp⟩
    | cons e es ih =>
      intro hes
      obtain ⟨quotes, hm, hid, hmem⟩ := ih fun e' he' => hes e' (List.mem_cons_of_mem e he')
      obtain ⟨q, hq, hk⟩ := hes e List.mem_cons_self
      obtain ⟨k, v⟩ := e
      obtain rfl : v = .object q := hq
      obtain rfl : q.id = k := hk
      refine ⟨q :: quotes, ?_, ?_, fun quote => ?_⟩
      · rw [List.map_cons, List.mapM_cons, asQuote_object, hm]
        rfl
      · rw [List.map_cons, List.map_cons, hid]
      · rw [List.mem_cons, List.mem_cons, hmem]
        simp only [Prod.mk.injEq, Json.object.injEq]
        constructor
        · rintro (rfl | h)
          · exact Or.inl ⟨rfl, rfl⟩
          · exact Or.inr h
        · rintro (⟨-, rfl⟩ | h)
          · exact Or.inl rfl
          · exact Or.inr h
  obtain ⟨quotes, hm, hid, hmem⟩ := key b.toList fun e he =>
    h e.1 e.2 (Std.ExtTreeMap.mem_toList_iff_getElem?_eq_some.mp he)
  refine ⟨quotes, hm, ?_, fun quote => ?_⟩
  · rw [hid, Std.ExtTreeMap.map_fst_toList_eq_keys]
  · rw [hmem, Std.ExtTreeMap.mem_toList_iff_getElem?_eq_some]

/-! ## `initialize` -/

/-- A box whose first entry is a map, and an empty box, are filled with the initial quotes. -/
theorem initializeBoxes_of_isMap (h : (b.getAt 0).any Json.isMap = true) :
    initializeBoxes b = loadInitialQuotes ∅ := by
  unfold initializeBoxes
  rw [if_pos h]
  rfl

theorem initializeBoxes_empty : initializeBoxes ∅ = loadInitialQuotes ∅ := by
  unfold initializeBoxes
  split <;> rfl

/-- A box whose first entry is no map stays as it is. -/
theorem initializeBoxes_of_not_isMap (h : (b.getAt 0).any Json.isMap = false) (hne : b ≠ ∅) :
    initializeBoxes b = b := by
  unfold initializeBoxes
  rw [h]
  have : b.isEmpty = false := Std.ExtTreeMap.isEmpty_eq_false_iff.mpr hne
  simp [this]

theorem initializeBoxes_ne_empty (b : Box Val) : initializeBoxes b ≠ ∅ := by
  by_cases h : (b.getAt 0).any Json.isMap = true
  · rw [initializeBoxes_of_isMap h]
    exact loadInitialQuotes_ne_empty ∅
  · by_cases hne : b = ∅
    · rw [hne, initializeBoxes_empty]
      exact loadInitialQuotes_ne_empty ∅
    · rw [initializeBoxes_of_not_isMap (by simpa using h) hne]
      exact hne

/-- No first entry of a box of quotes is a map. -/
theorem any_isMap_of_quotes
    (h : ∀ (k : String) (v : Val), b[k]? = some v → ∃ q : Quote, v = .object q) :
    (b.getAt 0).any Json.isMap = false := by
  cases hv : b.getAt 0 with
  | none => rfl
  | some v =>
    obtain ⟨k, hk⟩ := Box.mem_values.mp (Box.getAt_zero_mem hv)
    obtain ⟨q, rfl⟩ := h k v hk
    rfl

/-- `initialize` leaves a box of quotes that is not empty unchanged. -/
theorem initializeBoxes_of_quotes
    (h : ∀ (k : String) (v : Val), b[k]? = some v → ∃ q : Quote, v = .object q) (hne : b ≠ ∅) :
    initializeBoxes b = b :=
  initializeBoxes_of_not_isMap (any_isMap_of_quotes h) hne

theorem WellTyped.quotes (h : WellTyped b) (k : String) (v : Val) (hk : b[k]? = some v) :
    ∃ q : Quote, v = .object q := by
  obtain ⟨q, hq, -⟩ := h k v hk
  exact ⟨q, hq⟩

theorem WellTyped.initializeBoxes (h : WellTyped b) : WellTyped (initializeBoxes b) := by
  by_cases hne : b = ∅
  · rw [hne, initializeBoxes_empty]
    exact wellTyped_empty.loadInitialQuotes
  · rw [initializeBoxes_of_quotes h.quotes hne]
    exact h

end WellTyped

end MotiAI
