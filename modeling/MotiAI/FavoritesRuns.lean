import MotiAI.Favorites

/-!
# Favorites refer to stored quotes

Every id that `getFavorites` reports has an entry in the quotes box. `removeQuote` keeps this by
hand; the migration of `initialize` clears the quotes box and leaves the favorites as they are.

`referenced_iff`: along a run whose favorite operations are on stored ids, the favorites stay
referenced exactly when each restart that migrates finds no favorite beyond the initial quotes.
-/

namespace MotiAI

open Dart Hive HiveQuoteService

namespace FavoriteOp

/-- Every id reported by `getFavorites` has an entry in the quotes box. -/
def Referenced (s : Store) : Prop := ∀ id ∈ HiveQuoteService.getFavorites s.favorites, id ∈ s.quotes

/-- A favorite is added or toggled under an id of the quotes box. -/
def OnStored (s : Store) (op : FavoriteOp) (_ : Store) : Prop :=
  ∀ id, op.favoriteId = some id → op = .removeFavorite id ∨ id ∈ s.quotes

/-- `initialize` will clear the quotes box. -/
def Migrates (s : Store) : Prop := (s.quotes.getAt 0).any Json.isMap = true

instance (s : Store) : Decidable (Migrates s) :=
  inferInstanceAs (Decidable ((s.quotes.getAt 0).any Json.isMap = true))

/-- A restart that clears the quotes box finds only ids of initial quotes among the favorites. -/
def Kept (s : Store) (op : FavoriteOp) (_ : Store) : Prop :=
  op = .restart → Migrates s →
    ∀ id ∈ HiveQuoteService.getFavorites s.favorites, id ∈ initialQuotes.map Quote.id

/-! ## The entries of the quotes box -/

theorem mem_saveAffirmationToQuote {b b' : Box Val} {quoteId affirmation id : String}
    (h : HiveQuoteService.saveAffirmationToQuote quoteId affirmation b = some b') (hid : id ∈ b) :
    id ∈ b' := by
  unfold HiveQuoteService.saveAffirmationToQuote at h
  split at h
  · obtain rfl := Option.some.inj h
    exact hid
  · obtain rfl := Option.some.inj h
    exact hid
  · obtain rfl := Option.some.inj h
    exact Box.mem_put.mpr (Or.inr hid)
  · cases h

/-- After a migration the box has the ids of the initial quotes. -/
theorem mem_initializeBoxes_of_migrates {s : Store} (h : Migrates s) {id : String} :
    id ∈ initializeBoxes s.quotes ↔ id ∈ initialQuotes.map Quote.id := by
  rw [initializeBoxes_of_isMap h]
  unfold loadInitialQuotes
  rw [mem_foldl_addQuote]
  simp

theorem mem_initializeBoxes {s : Store} (h : ¬ Migrates s) {id : String} (hid : id ∈ s.quotes) :
    id ∈ initializeBoxes s.quotes := by
  have hne : s.quotes ≠ ∅ := by
    intro he
    rw [he] at hid
    exact Std.ExtTreeMap.not_mem_empty hid
  rw [initializeBoxes_of_not_isMap (eq_false_of_ne_true h) hne]
  exact hid

/-! ## Steps -/

/-- Writing one value makes at most its id a favorite. -/
theorem favoriteSet_put_subset {b : Box Val} {k : String} {v : Val} :
    favoriteSet (b.insert k v) ⊆ insert k (favoriteSet b) := by
  intro id hid
  rw [mem_favoriteSet, Box.getElem?_put] at hid
  split at hid
  · rename_i h
    exact Or.inl h.symm
  · exact Or.inr (mem_favoriteSet.mpr hid)

theorem referenced_iff_favoriteSet {s : Store} :
    Referenced s ↔ ∀ id ∈ favoriteSet s.favorites, id ∈ s.quotes :=
  forall_congr' fun _ => imp_congr_left mem_getFavorites

theorem Referenced.put_favorite {s : Store} (h : Referenced s) {k : String} {v : Val}
    (hk : k ∈ s.quotes) : Referenced { s with favorites := s.favorites.insert k v } := by
  rw [referenced_iff_favoriteSet] at h ⊢
  intro id hid
  rcases favoriteSet_put_subset hid with rfl | hid
  · exact hk
  · exact h id hid

theorem Referenced.mono {s : Store} (h : Referenced s) {b : Box Val}
    (hb : ∀ id ∈ s.quotes, id ∈ b) : Referenced { s with quotes := b } :=
  fun id hid => hb id (h id hid)

theorem Referenced.removeFavorite {s : Store} (h : Referenced s) (id : String) :
    Referenced { s with favorites := HiveQuoteService.removeFavorite id s.favorites } := by
  rw [referenced_iff_favoriteSet] at h ⊢
  intro id' hid
  rw [favoriteSet_removeFavorite] at hid
  exact h id' hid.1

theorem Referenced.removeQuote {s : Store} (h : Referenced s) (id : String) :
    Referenced (HiveQuoteService.removeQuote id s) := by
  rw [referenced_iff_favoriteSet] at h ⊢
  intro id' hid
  replace hid : id' ∈ favoriteSet (HiveQuoteService.removeFavorite id s.favorites) := hid
  rw [favoriteSet_removeFavorite] at hid
  show id' ∈ s.quotes.erase id
  rw [Box.mem_delete]
  exact ⟨Ne.symm hid.2, h id' hid.1⟩

theorem Referenced.restart_iff {s : Store} (h : Referenced s) :
    Referenced { s with quotes := initializeBoxes s.quotes } ↔
      (Migrates s → ∀ id ∈ HiveQuoteService.getFavorites s.favorites,
        id ∈ initialQuotes.map Quote.id) := by
  by_cases hm : Migrates s
  · constructor
    · intro href _ id hid
      exact (mem_initializeBoxes_of_migrates hm).mp (href id hid)
    · intro hkept id hid
      exact (mem_initializeBoxes_of_migrates hm).mpr (hkept hm id hid)
  · exact ⟨fun _ hm' => absurd hm' hm, fun _ => h.mono fun id hid => mem_initializeBoxes hm hid⟩

/-- Only a restart can break the references. -/
theorem Referenced.step_iff {s s' : Store} {op : FavoriteOp} (h : Referenced s)
    (hids : OnStored s op s') (hs : step s op = some s') : Referenced s' ↔ Kept s op s' := by
  have hkept : op ≠ .restart → Referenced s' → (Referenced s' ↔ Kept s op s') := by
    intro hne href
    exact ⟨fun _ heq => absurd heq hne, fun _ => href⟩
  cases op with
  | addFavorite id =>
    obtain rfl := Option.some.inj hs
    refine hkept (by simp) (h.put_favorite ?_)
    exact (hids id rfl).resolve_left (by simp)
  | removeFavorite id =>
    obtain rfl := Option.some.inj hs
    exact hkept (by simp) (h.removeFavorite id)
  | toggleFavorite quoteId =>
    obtain rfl := Option.some.inj hs
    refine hkept (by simp) ?_
    unfold HiveQuoteService.toggleFavorite
    split
    · exact h.removeFavorite quoteId
    · exact h.put_favorite ((hids quoteId rfl).resolve_left (by simp))
  | screenToggle quote =>
    obtain ⟨b, hb, rfl⟩ := Option.map_eq_some_iff.mp hs
    obtain ⟨value, -, rfl⟩ := Option.map_eq_some_iff.mp hb
    exact hkept (by simp) (h.put_favorite ((hids quote.id rfl).resolve_left (by simp)))
  | addQuote quote =>
    obtain rfl := Option.some.inj hs
    exact hkept (by simp) (h.mono fun id hid => Box.mem_put.mpr (Or.inr hid))
  | updateQuote quote =>
    obtain rfl := Option.some.inj hs
    exact hkept (by simp) (h.mono fun id hid => Box.mem_put.mpr (Or.inr hid))
  | saveAffirmationToQuote quoteId affirmation =>
    obtain ⟨b, hb, rfl⟩ := Option.map_eq_some_iff.mp hs
    exact hkept (by simp) (h.mono fun id hid => mem_saveAffirmationToQuote hb hid)
  | removeQuote id =>
    obtain rfl := Option.some.inj hs
    exact hkept (by simp) (h.removeQuote id)
  | fetchQuoteFromAnthropic result =>
    obtain rfl := Option.some.inj hs
    refine hkept (by simp) (h.mono fun id hid => ?_)
    cases result with
    | none => exact hid
    | some quote => exact Box.mem_put.mpr (Or.inr hid)
  | restart =>
    obtain rfl := Option.some.inj hs
    rw [h.restart_iff]
    exact ⟨fun hk _ => hk, fun hk => hk rfl⟩

/-- **Favorites refer to stored quotes.** The favorites stay referenced along a run exactly when
each restart that clears a quotes box of the old format finds only initial quotes among them. -/
theorem referenced_iff {s : Store} (h : Referenced s) (ops : List FavoriteOp)
    (hids : Run.Each step OnStored s ops) :
    Run.Each step (fun _ _ s' => Referenced s') s ops ↔ Run.Each step Kept s ops :=
  Run.each_iff_of_invariant_of (I := Referenced) (H := OnStored) (P := Kept)
    (fun _ _ _ href hon hs => href.step_iff hon hs)
    (fun _ _ _ href hon hs hk => (href.step_iff hon hs).mpr hk) ops s h hids

theorem referenced_twoQuotes : Referenced twoQuotes := by
  intro id hid
  have hlist : HiveQuoteService.getFavorites twoQuotes.favorites = ["1"] := by decide
  rw [hlist] at hid
  obtain rfl := List.mem_singleton.mp hid
  decide

/-- A toggle, a removal and a restart. -/
theorem referenced_run_twoQuotes :
    Run.Each step (fun _ _ s' => Referenced s') twoQuotes
      [.toggleFavorite "2", .removeQuote "1", .restart] := by
  refine (referenced_iff referenced_twoQuotes _ ?_).mpr ?_
  · rw [Run.each_cons_of_step rfl, Run.each_cons_of_step rfl, Run.each_cons_of_step rfl]
    refine ⟨fun id hid => Or.inr ?_, fun id hid => ?_, fun id hid => ?_, trivial⟩
    · obtain rfl := Option.some.inj hid
      decide
    · cases hid
    · cases hid
  · rw [Run.each_cons_of_step rfl, Run.each_cons_of_step rfl, Run.each_cons_of_step rfl]
    refine ⟨fun heq => ?_, fun heq => ?_, fun _ hm => ?_, trivial⟩
    · cases heq
    · cases heq
    · exact absurd hm (by decide)

/-- A box of the old format, with a favorite in it. -/
def legacy : Store where
  quotes := Box.putAll [("old", .map [("text", .str "Be here now.")])] ∅
  favorites := Box.putAll [("old", .bool true)] ∅
  settings := ∅
  cachedImages := ∅
  cachedAudio := ∅

/-- The restart leaves the favorite without its quote. -/
theorem not_referenced_legacy :
    Referenced legacy ∧ Run.Each step OnStored legacy [.restart] ∧
      ¬ Run.Each step (fun _ _ s' => Referenced s') legacy [.restart] := by
  have hlist : HiveQuoteService.getFavorites legacy.favorites = ["old"] := by decide
  refine ⟨fun id hid => ?_, ?_, fun hE => ?_⟩
  · rw [hlist] at hid
    obtain rfl := List.mem_singleton.mp hid
    decide
  · rw [Run.each_cons_of_step rfl]
    refine ⟨fun id hid => ?_, trivial⟩
    cases hid
  · rw [Run.each_cons_of_step rfl] at hE
    have hold : "old" ∈ initializeBoxes legacy.quotes := by
      refine hE.1 "old" ?_
      show "old" ∈ HiveQuoteService.getFavorites legacy.favorites
      rw [hlist]
      exact List.mem_singleton_self "old"
    have hm : Migrates legacy := by decide
    rw [mem_initializeBoxes_of_migrates hm] at hold
    exact absurd hold (by decide +kernel)

end FavoriteOp

end MotiAI
