import MotiAI.Lib.Run
import MotiAI.QuoteScreen

/-!
# Favorites

The favorites box and everything that reads or writes it. The box has two ways to say that a quote
is no favorite: the service deletes its entry, the screen stores `false` under its id. Abstractly
the box is a set of ids (`favoriteSet`), a toggle of either kind is the symmetric difference with one
id, and the readers report nothing but that set.

`agree_run`: from a box of bools and a well-typed quotes box, every run of the operations ends in a
state in which all readers agree.
-/

namespace MotiAI

open Dart Hive

namespace HiveQuoteService

def addFavorite (id : String) (b : Box Val) : Box Val := b.insert id (.bool true)

def removeFavorite (id : String) (b : Box Val) : Box Val := b.erase id

/-- `_favoritesBox.get(quoteId) == true`. -/
def isFavorite (quoteId : String) (b : Box Val) : Bool :=
  match b[quoteId]? with
  | some (.bool true) => true
  | _ => false

def getFavorites (b : Box Val) : List String := b.keys.filter fun key => isFavorite key b

def toggleFavorite (quoteId : String) (b : Box Val) : Box Val :=
  if isFavorite quoteId b then removeFavorite quoteId b else addFavorite quoteId b

def getFavoriteQuotes (s : Store) : Option (List Quote) :=
  (getAllQuotes s.quotes).map fun allQuotes =>
    allQuotes.filter fun quote => (getFavorites s.favorites).contains quote.id

end HiveQuoteService

namespace QuoteScreen

/-- `box.get(id) ?? false` as the heart button reads it: a value that is no `bool` throws. -/
def isFavorited (id : String) (b : Box Val) : Option Bool :=
  match b[id]? with
  | none => some false
  | some .null => some false
  | some (.bool value) => some value
  | some _ => none

/-- `_toggleFavorite`. -/
def toggleFavorite (quote : Quote) (b : Box Val) : Option (Box Val) :=
  (isFavorited quote.id b).map fun value => b.insert quote.id (.bool !value)

end QuoteScreen

open HiveQuoteService

/-- Every value of the favorites box is a `bool`. -/
def Bools (b : Box Val) : Prop :=
  ∀ (k : String) (v : Val), b[k]? = some v → ∃ value : Bool, v = .bool value

/-- The ids a favorites box stands for. -/
def favoriteSet (b : Box Val) : Set String := {id | isFavorite id b = true}

/-! ## The set of favorites -/

section

variable {b : Box Val} {id : String}

theorem mem_favoriteSet : id ∈ favoriteSet b ↔ b[id]? = some (.bool true) := by
  show isFavorite id b = true ↔ _
  unfold isFavorite
  split
  · rename_i h
    simp [h]
  · rename_i h
    simp only [Bool.false_eq_true, false_iff]
    exact h

theorem mem_getFavorites : id ∈ getFavorites b ↔ id ∈ favoriteSet b := by
  unfold getFavorites
  rw [List.mem_filter, Box.mem_keys]
  constructor
  · rintro ⟨-, h⟩
    exact h
  · intro h
    exact ⟨⟨_, mem_favoriteSet.mp h⟩, h⟩

theorem favoriteSet_addFavorite : favoriteSet (addFavorite id b) = insert id (favoriteSet b) := by
  ext id'
  rw [Set.mem_insert_iff, mem_favoriteSet, mem_favoriteSet]
  unfold addFavorite
  rw [Box.getElem?_put]
  by_cases h : id = id'
  · simp [h]
  · simp [h, Ne.symm h]

theorem favoriteSet_removeFavorite : favoriteSet (removeFavorite id b) = favoriteSet b \ {id} := by
  ext id'
  rw [Set.mem_sdiff, Set.mem_singleton_iff, mem_favoriteSet, mem_favoriteSet]
  unfold removeFavorite
  rw [Box.getElem?_delete]
  by_cases h : id = id'
  · simp [h]
  · simp [h, Ne.symm h]

/-- The toggle of the service. -/
theorem favoriteSet_toggleFavorite :
    favoriteSet (toggleFavorite id b) = symmDiff (favoriteSet b) {id} := by
  unfold toggleFavorite
  by_cases h : isFavorite id b = true
  · have hsub : {id} ⊆ favoriteSet b := Set.singleton_subset_iff.mpr h
    rw [if_pos h, favoriteSet_removeFavorite, symmDiff_of_ge hsub]
  · rw [if_neg h, favoriteSet_addFavorite, Set.insert_eq, Set.union_comm]
    have hdisj : Disjoint (favoriteSet b) {id} := Set.disjoint_singleton_right.mpr h
    exact hdisj.symmDiff_eq_sup.symm

theorem Bools.addFavorite (h : Bools b) (id : String) : Bools (addFavorite id b) := by
  intro k v hk
  unfold HiveQuoteService.addFavorite at hk
  rw [Box.getElem?_put] at hk
  split at hk
  · exact ⟨true, (Option.some.inj hk).symm⟩
  · exact h k v hk

theorem Bools.removeFavorite (h : Bools b) (id : String) : Bools (removeFavorite id b) := by
  intro k v hk
  unfold HiveQuoteService.removeFavorite at hk
  rw [Box.getElem?_delete] at hk
  split at hk
  · cases hk
  · exact h k v hk

theorem Bools.toggleFavorite (h : Bools b) (id : String) : Bools (toggleFavorite id b) := by
  unfold HiveQuoteService.toggleFavorite
  split
  · exact h.removeFavorite id
  · exact h.addFavorite id

/-- In a box of bools the heart shows what `isFavorite` returns. -/
theorem Bools.isFavorited (h : Bools b) (id : String) :
    QuoteScreen.isFavorited id b = some (isFavorite id b) := by
  unfold QuoteScreen.isFavorited isFavorite
  cases hk : b[id]? with
  | none => rfl
  | some v =>
    obtain ⟨value, rfl⟩ := h id v hk
    cases value <;> rfl

/-- The toggle of the screen, where it does not throw. -/
theorem favoriteSet_screenToggle {quote : Quote} {b b' : Box Val}
    (h : QuoteScreen.toggleFavorite quote b = some b') :
    favoriteSet b' = symmDiff (favoriteSet b) {quote.id} := by
  obtain ⟨value, hvalue, rfl⟩ := Option.map_eq_some_iff.mp h
  have hfav : isFavorite quote.id b = value := by
    unfold QuoteScreen.isFavorited at hvalue
    unfold isFavorite
    split at hvalue <;> simp_all
    cases value <;> rfl
  ext id
  rw [Set.mem_symmDiff, Set.mem_singleton_iff, mem_favoriteSet, Box.getElem?_put]
  by_cases hid : quote.id = id
  · have hmem : id ∈ favoriteSet b ↔ value = true := by
      rw [← hfav, hid]
      exact Iff.rfl
    rw [if_pos hid, hmem]
    cases value <;> simp [hid]
  · rw [if_neg hid, mem_favoriteSet]
    simp [Ne.symm hid]

/-- The toggle of the screen stores the negated value. -/
theorem Bools.screenToggle (h : Bools b) (quote : Quote) :
    ∃ b', QuoteScreen.toggleFavorite quote b = some b' ∧ Bools b' ∧
      favoriteSet b' = symmDiff (favoriteSet b) {quote.id} := by
  have hb : QuoteScreen.toggleFavorite quote b =
      some (b.insert quote.id (.bool !isFavorite quote.id b)) := by
    unfold QuoteScreen.toggleFavorite
    rw [h.isFavorited]
    rfl
  refine ⟨_, hb, fun k v hk => ?_, favoriteSet_screenToggle hb⟩
  rw [Box.getElem?_put] at hk
  split at hk
  · exact ⟨_, (Option.some.inj hk).symm⟩
  · exact h k v hk

end

/-! ## Operations -/

/-- A completed operation on quotes or favorites, or a restart of the application. -/
inductive FavoriteOp where
  | addFavorite (id : String)
  | removeFavorite (id : String)
  | toggleFavorite (quoteId : String)
  | screenToggle (quote : Quote)
  | addQuote (quote : Quote)
  | updateQuote (quote : Quote)
  | saveAffirmationToQuote (quoteId affirmation : String)
  | removeQuote (id : String)
  | fetchQuoteFromAnthropic (result : Option Quote)
  | restart

namespace FavoriteOp

def step (s : Store) : FavoriteOp → Option Store
  | .addFavorite id => some { s with favorites := HiveQuoteService.addFavorite id s.favorites }
  | .removeFavorite id => some { s with favorites := HiveQuoteService.removeFavorite id s.favorites }
  | .toggleFavorite quoteId =>
    some { s with favorites := HiveQuoteService.toggleFavorite quoteId s.favorites }
  | .screenToggle quote =>
    (QuoteScreen.toggleFavorite quote s.favorites).map fun b => { s with favorites := b }
  | .addQuote quote => some { s with quotes := HiveQuoteService.addQuote quote s.quotes }
  | .updateQuote quote => some { s with quotes := HiveQuoteService.updateQuote quote s.quotes }
  | .saveAffirmationToQuote quoteId affirmation =>
    (HiveQuoteService.saveAffirmationToQuote quoteId affirmation s.quotes).map
      fun b => { s with quotes := b }
  | .removeQuote id => some (HiveQuoteService.removeQuote id s)
  | .fetchQuoteFromAnthropic result => some { s with quotes := storeFetched result s.quotes }
  | .restart => some { s with quotes := initializeBoxes s.quotes }

/-- The id a favorite operation is about. -/
def favoriteId : FavoriteOp → Option String
  | .addFavorite id => some id
  | .removeFavorite id => some id
  | .toggleFavorite quoteId => some quoteId
  | .screenToggle quote => some quote.id
  | _ => none

/-- What an operation does to the set of favorites. -/
def effect : FavoriteOp → Set String → Set String
  | .addFavorite id, ids => insert id ids
  | .removeFavorite id, ids => ids \ {id}
  | .toggleFavorite quoteId, ids => symmDiff ids {quoteId}
  | .screenToggle quote, ids => symmDiff ids {quote.id}
  | .removeQuote id, ids => ids \ {id}
  | _, ids => ids

/-- The two toggles on the id of a quote. -/
def toggles (quote : Quote) : List FavoriteOp := [.toggleFavorite quote.id, .screenToggle quote]

/-- A store of quotes under their ids and of bools. -/
structure Typed (s : Store) : Prop where
  quotes : WellTyped s.quotes
  favorites : Bools s.favorites

/-- **The boxes refine the set of favorites.** No operation throws, and each changes the set as its
effect says. -/
theorem step_effect {s : Store} (h : Typed s) (op : FavoriteOp) :
    ∃ t, step s op = some t ∧ Typed t ∧
      favoriteSet t.favorites = op.effect (favoriteSet s.favorites) := by
  cases op with
  | addFavorite id =>
    exact ⟨_, rfl, ⟨h.quotes, h.favorites.addFavorite id⟩, favoriteSet_addFavorite⟩
  | removeFavorite id =>
    exact ⟨_, rfl, ⟨h.quotes, h.favorites.removeFavorite id⟩, favoriteSet_removeFavorite⟩
  | toggleFavorite quoteId =>
    exact ⟨_, rfl, ⟨h.quotes, h.favorites.toggleFavorite quoteId⟩, favoriteSet_toggleFavorite⟩
  | screenToggle quote =>
    obtain ⟨b, hb, hbools, hset⟩ := h.favorites.screenToggle quote
    refine ⟨{ s with favorites := b }, ?_, ⟨h.quotes, hbools⟩, hset⟩
    show (QuoteScreen.toggleFavorite quote s.favorites).map _ = _
    rw [hb]
    rfl
  | addQuote quote => exact ⟨_, rfl, ⟨h.quotes.addQuote quote, h.favorites⟩, rfl⟩
  | updateQuote quote => exact ⟨_, rfl, ⟨h.quotes.put_self quote, h.favorites⟩, rfl⟩
  | saveAffirmationToQuote quoteId affirmation =>
    obtain ⟨b, hb⟩ := h.quotes.exists_saveAffirmationToQuote quoteId affirmation
    refine ⟨{ s with quotes := b }, ?_, ⟨h.quotes.saveAffirmationToQuote hb, h.favorites⟩, rfl⟩
    show (HiveQuoteService.saveAffirmationToQuote quoteId affirmation s.quotes).map _ = _
    rw [hb]
    rfl
  | removeQuote id =>
    exact ⟨_, rfl, ⟨h.quotes.delete id, h.favorites.removeFavorite id⟩,
      favoriteSet_removeFavorite⟩
  | fetchQuoteFromAnthropic result =>
    exact ⟨_, rfl, ⟨h.quotes.storeFetched result, h.favorites⟩, rfl⟩
  | restart => exact ⟨_, rfl, ⟨h.quotes.initializeBoxes, h.favorites⟩, rfl⟩

theorem final_effect (ops : List FavoriteOp) :
    ∀ {s : Store}, Typed s → ∃ t, Run.final step s ops = some t ∧ Typed t ∧
      favoriteSet t.favorites = ops.foldl (fun ids op => op.effect ids) (favoriteSet s.favorites) := by
  induction ops with
  | nil => intro s h; exact ⟨s, rfl, h, rfl⟩
  | cons op ops ih =>
    intro s h
    obtain ⟨s', hs, h', hset⟩ := step_effect h op
    obtain ⟨t, ht, htyped, hfinal⟩ := ih h'
    refine ⟨t, (Run.final_cons hs ops).trans ht, htyped, ?_⟩
    rw [hfinal, hset, List.foldl_cons]

/-- An id that is no favorite becomes one only through a favorite operation on it. -/
theorem notMem_effect {op : FavoriteOp} {id : String} {ids : Set String} (hid : id ∉ ids)
    (hop : op.favoriteId ≠ some id) : id ∉ op.effect ids := by
  cases op with
  | addFavorite id' =>
    rintro (rfl | h)
    · exact hop rfl
    · exact hid h
  | removeFavorite id' => exact fun h => hid h.1
  | toggleFavorite id' =>
    rintro (h | h)
    · exact hid h.1
    · exact hop (congrArg some (Set.mem_singleton_iff.mp h.1).symm)
  | screenToggle quote =>
    rintro (h | h)
    · exact hid h.1
    · exact hop (congrArg some (Set.mem_singleton_iff.mp h.1).symm)
  | removeQuote id' => exact fun h => hid h.1
  | _ => exact hid

theorem notMem_foldl_effect {id : String} {ops : List FavoriteOp} {ids : Set String}
    (hid : id ∉ ids) (hops : ∀ op ∈ ops, op.favoriteId ≠ some id) :
    id ∉ ops.foldl (fun ids op => op.effect ids) ids :=
  List.foldlRecOn (motive := fun ids => id ∉ ids) ops _ hid fun _ h op hop =>
    notMem_effect h (hops op hop)

/-! ## The readers -/

/-- What the four readers report. -/
structure Reports where
  isFavorite : String → Bool
  getFavorites : List String
  isFavorited : String → Option Bool
  getFavoriteQuotes : Option (List Quote)

def reports (s : Store) : Reports where
  isFavorite id := HiveQuoteService.isFavorite id s.favorites
  getFavorites := HiveQuoteService.getFavorites s.favorites
  isFavorited id := QuoteScreen.isFavorited id s.favorites
  getFavoriteQuotes := HiveQuoteService.getFavoriteQuotes s

/-- The readers agree, the two toggles are one operation to them and undo each other, and a quote
that is removed and added again is no favorite. -/
structure Agree (s : Store) : Prop where
  isFavorited : ∀ id, QuoteScreen.isFavorited id s.favorites = some (isFavorite id s.favorites)
  getFavorites : ∀ id, id ∈ getFavorites s.favorites ↔ isFavorite id s.favorites = true
  getFavoriteQuotes : ∃ quotes, getFavoriteQuotes s = some quotes ∧ quotes.Nodup ∧
    ∀ quote, quote ∈ quotes ↔
      s.quotes[quote.id]? = some (.object quote) ∧ isFavorite quote.id s.favorites = true
  sameEffect : ∀ quote, ∀ a ∈ toggles quote, ∀ a' ∈ toggles quote,
    ∃ t t', step s a = some t ∧ step s a' = some t' ∧ reports t = reports t'
  restored : ∀ quote, ∀ a ∈ toggles quote, ∀ a' ∈ toggles quote,
    ∃ t t', step s a = some t ∧ step t a' = some t' ∧ reports t' = reports s
  dropped : ∀ (quote : Quote) (ops : List FavoriteOp),
    (∀ a ∈ ops, a.favoriteId ≠ some quote.id) →
    ∃ t, Run.final step s (.removeQuote quote.id :: ops ++ [.addQuote quote]) = some t ∧
      isFavorite quote.id t.favorites = false

/-- The reports depend on the quotes box and the set of favorites alone. -/
theorem reports_congr {s t : Store} (hs : Bools s.favorites) (ht : Bools t.favorites)
    (hq : s.quotes = t.quotes) (hset : favoriteSet s.favorites = favoriteSet t.favorites) :
    reports s = reports t := by
  have hfav : ∀ id, isFavorite id s.favorites = isFavorite id t.favorites := by
    intro id
    rw [Bool.eq_iff_iff]
    exact iff_of_eq (congrArg (fun ids => id ∈ ids) hset)
  have hlist : getFavorites s.favorites = getFavorites t.favorites := by
    apply Box.filter_keys_congr
    intro id
    have hs' : id ∈ getFavorites s.favorites ↔ id ∈ favoriteSet s.favorites := mem_getFavorites
    have ht' : id ∈ getFavorites t.favorites ↔ id ∈ favoriteSet t.favorites := mem_getFavorites
    exact List.mem_filter.symm.trans ((hs'.trans (hset ▸ ht'.symm)).trans List.mem_filter)
  unfold reports HiveQuoteService.getFavoriteQuotes
  rw [hlist, hq]
  congr 1
  · funext id
    exact hfav id
  · funext id
    rw [hs.isFavorited, ht.isFavorited, hfav]

/-- Both toggles complete, with the same set of favorites and untouched quotes. -/
theorem step_toggle {s : Store} (h : Typed s) {quote : Quote} {a : FavoriteOp}
    (ha : a ∈ toggles quote) : ∃ t, step s a = some t ∧ Typed t ∧ t.quotes = s.quotes ∧
      favoriteSet t.favorites = symmDiff (favoriteSet s.favorites) {quote.id} := by
  obtain ⟨t, ht, htyped, hset⟩ := step_effect h a
  rcases List.mem_pair.mp ha with rfl | rfl
  · obtain rfl := Option.some.inj ht
    exact ⟨_, rfl, htyped, rfl, hset⟩
  · obtain ⟨b, -, rfl⟩ := Option.map_eq_some_iff.mp ht
    exact ⟨_, ht, htyped, rfl, hset⟩

theorem Typed.agree {s : Store} (h : Typed s) : Agree s where
  isFavorited := h.favorites.isFavorited
  getFavorites id := mem_getFavorites
  getFavoriteQuotes := by
    obtain ⟨quotes, hq, hid, hmem⟩ := h.quotes.getAllQuotes
    refine ⟨_, congrArg (Option.map _) hq, ?_, fun quote => ?_⟩
    · have hnodup : (quotes.map Quote.id).Nodup := by
        rw [hid]
        exact Std.ExtTreeMap.nodup_keys
      exact hnodup.of_map.filter _
    · rw [List.mem_filter, hmem, List.contains_iff_mem, mem_getFavorites]
      exact Iff.rfl
  sameEffect := by
    intro quote a ha a' ha'
    obtain ⟨t, ht, htyped, hquotes, hset⟩ := step_toggle h ha
    obtain ⟨t', ht', htyped', hquotes', hset'⟩ := step_toggle h ha'
    exact ⟨t, t', ht, ht', reports_congr htyped.favorites htyped'.favorites
      (hquotes.trans hquotes'.symm) (hset.trans hset'.symm)⟩
  restored := by
    intro quote a ha a' ha'
    obtain ⟨t, ht, htyped, hquotes, hset⟩ := step_toggle h ha
    obtain ⟨t', ht', htyped', hquotes', hset'⟩ := step_toggle htyped ha'
    refine ⟨t, t', ht, ht', reports_congr htyped'.favorites h.favorites (hquotes'.trans hquotes) ?_⟩
    rw [hset', hset, symmDiff_symmDiff_cancel_right]
  dropped := by
    intro quote ops hops
    obtain ⟨t, ht, -, hset⟩ := final_effect (.removeQuote quote.id :: ops ++ [.addQuote quote]) h
    refine ⟨t, ht, ?_⟩
    have hremoved : quote.id ∉ (removeQuote quote.id).effect (favoriteSet s.favorites) :=
      fun hmem => hmem.2 rfl
    have hnot : quote.id ∉ favoriteSet t.favorites := by
      rw [hset, List.cons_append, List.foldl_cons, List.foldl_append]
      show quote.id ∉ ops.foldl (fun ids op => op.effect ids) _
      exact notMem_foldl_effect hremoved hops
    exact eq_false_of_ne_true hnot

/-- **Favorite readers agree.** -/
theorem agree_run {s : Store} (hquotes : WellTyped s.quotes) (hfavorites : Bools s.favorites)
    (ops : List FavoriteOp) : ∃ t, Run.final step s ops = some t ∧ Agree t := by
  obtain ⟨t, ht, htyped, -⟩ := final_effect ops ⟨hquotes, hfavorites⟩
  exact ⟨t, ht, htyped.agree⟩

/-- Two quotes, one of them a favorite by the screen and one no longer. -/
def twoQuotes : Store where
  quotes := HiveQuoteService.addQuote ⟨"1", "", "", "Zen", "", "", none⟩
    (HiveQuoteService.addQuote ⟨"2", "", "", "Sufi", "", "", none⟩ ∅)
  favorites := Box.putAll [("1", .bool true), ("2", .bool false)] ∅
  settings := ∅
  cachedImages := ∅
  cachedAudio := ∅

theorem agree_run_twoQuotes : ∃ t, Run.final step twoQuotes
    [.toggleFavorite "2", .screenToggle ⟨"1", "", "", "Zen", "", "", none⟩, .removeQuote "2"] =
      some t ∧ Agree t := by
  refine agree_run ((wellTyped_empty.addQuote _).addQuote _) (fun k v hk => ?_) _
  rcases Box.getElem?_putAll hk with h | h
  · fin_cases h
    · exact ⟨true, rfl⟩
    · exact ⟨false, rfl⟩
  · exact absurd h Box.getElem?_empty_ne

end FavoriteOp

end MotiAI
