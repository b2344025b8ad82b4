import MotiAI.Favorites
import MotiAI.Lib.Flight

/-!
# Overlapping favorite toggles

Toggles in flight, cut at their awaits. The toggle of the service awaits `isFavorite` between its
read and its write; the toggle of the screen reads and writes before its first await.

1. `final_serviceToggle`: a toggle of the service that runs by itself does what `toggleFavorite`
   does.
2. `noneLost_of_timely`: no toggle is lost in a run in which every toggle of the service writes while
   the favorite still is what it read.
3. `not_noneLost_double`: two overlapping toggles of the service count as one.
-/

namespace MotiAI

open Dart Hive HiveQuoteService

/-- Where a toggle is suspended. -/
inductive ToggleStage where
  /-- The service has read the favorite and not written it. -/
  | read (isFav : Bool)
  /-- The box has changed in memory and is being written to the disk. -/
  | writing
  | done
  deriving DecidableEq

structure Toggle where
  id : String
  stage : ToggleStage
  deriving DecidableEq

/-- The favorites box, and the toggles in the order they were called. -/
structure Toggles where
  favorites : Box Val
  inFlight : List Toggle := []

inductive ToggleMove where
  | serviceToggle (quoteId : String)
  | screenToggle (quote : Quote)
  | resume (i : ℕ)

namespace Toggles

/-- The part of a toggle up to its next await. -/
def resume (t : Toggle) (b : Box Val) : Option (Toggle × Box Val) :=
  match t.stage with
  | .read isFav =>
    some (⟨t.id, .writing⟩, if isFav then removeFavorite t.id b else addFavorite t.id b)
  | .writing => some (⟨t.id, .done⟩, b)
  | .done => none

def step (s : Toggles) : ToggleMove → Option Toggles
  | .serviceToggle quoteId =>
    some { s with inFlight := s.inFlight ++ [⟨quoteId, .read (isFavorite quoteId s.favorites)⟩] }
  | .screenToggle quote =>
    (QuoteScreen.toggleFavorite quote s.favorites).map fun b =>
      ⟨b, s.inFlight ++ [⟨quote.id, .writing⟩]⟩
  | .resume i =>
    match s.inFlight[i]? with
    | none => none
    | some t => (resume t s.favorites).map fun p => ⟨p.2, s.inFlight.set i p.1⟩

/-! ## What is counted -/

/-- Whether a toggle on `id` has changed the box. -/
def hasWritten (id : String) (t : Toggle) : Bool :=
  t.id == id && (t.stage == .writing || t.stage == .done)

/-- The initial value after `n` toggles. -/
def flipped (n : ℕ) (initial : Bool) : Bool := if Even n then initial else !initial

/-- The favorites are the initial ones, toggled by every write so far. -/
def Counted (initial : Box Val) (s : Toggles) : Prop :=
  ∀ id, isFavorite id s.favorites =
    flipped (s.inFlight.countP (hasWritten id)) (isFavorite id initial)

/-- When all toggles on an id have completed, their number decides its favorite. -/
def NoneLost (initial : Box Val) (s : Toggles) : Prop :=
  ∀ id, (∀ t ∈ s.inFlight, t.id = id → t.stage = .done) →
    isFavorite id s.favorites =
      flipped (s.inFlight.countP fun t => t.id = id) (isFavorite id initial)

/-- A toggle of the service writes while the favorite is what it read. -/
def Timely (s : Toggles) (m : ToggleMove) (_ : Toggles) : Prop :=
  ∀ i id isFav, m = .resume i → s.inFlight[i]? = some ⟨id, .read isFav⟩ →
    isFavorite id s.favorites = isFav

theorem flipped_succ (n : ℕ) (initial : Bool) : flipped (n + 1) initial = !flipped n initial := by
  unfold flipped
  by_cases h : Even n <;> simp [h, Nat.even_add_one]

theorem Counted.noneLost {initial : Box Val} {s : Toggles} (h : Counted initial s) :
    NoneLost initial s := by
  intro id hdone
  rw [h id]
  congr 1
  apply List.countP_congr
  intro t ht
  unfold hasWritten
  by_cases hid : t.id = id
  · simp [hid, hdone t ht hid]
  · simp [hid]

/-! ## Writes -/

/-- A toggle of `k` changes the favorite of `k` and of no other id. -/
theorem isFavorite_of_symmDiff {b b' : Box Val} {k : String}
    (h : favoriteSet b' = symmDiff (favoriteSet b) {k}) (id : String) :
    isFavorite id b' = if k = id then !isFavorite id b else isFavorite id b := by
  have hmem : isFavorite id b' = true ↔ id ∈ symmDiff (favoriteSet b) {k} := by
    rw [← h]
    exact Iff.rfl
  rw [Set.mem_symmDiff, Set.mem_singleton_iff] at hmem
  have hb : id ∈ favoriteSet b ↔ isFavorite id b = true := Iff.rfl
  rw [hb] at hmem
  rw [Bool.eq_iff_iff, hmem]
  by_cases hk : k = id
  · simp [hk]
  · simp [hk, Ne.symm hk]

/-- A call of the service has not written yet. -/
theorem Counted.serviceToggle {initial : Box Val} {s s' : Toggles} (h : Counted initial s)
    {quoteId : String} (hs : step s (.serviceToggle quoteId) = some s') : Counted initial s' := by
  obtain rfl := Option.some.inj hs
  intro id
  rw [h id, List.countP_append]
  simp [hasWritten]

/-- A call of the screen counts at once. -/
theorem Counted.screenToggle {initial : Box Val} {s s' : Toggles} (h : Counted initial s)
    {quote : Quote} (hs : step s (.screenToggle quote) = some s') : Counted initial s' := by
  obtain ⟨b, hb, rfl⟩ := Option.map_eq_some_iff.mp hs
  intro id
  show isFavorite id b = _
  rw [isFavorite_of_symmDiff (favoriteSet_screenToggle hb), List.countP_append]
  by_cases hid : quote.id = id
  · have hone : [(⟨quote.id, .writing⟩ : Toggle)].countP (hasWritten id) = 1 := by
      simp [hasWritten, hid]
    rw [if_pos hid, hone, flipped_succ, h id]
  · have hzero : [(⟨quote.id, .writing⟩ : Toggle)].countP (hasWritten id) = 0 := by
      simp [hasWritten, hid]
    rw [if_neg hid, hzero, Nat.add_zero, h id]

theorem Counted.resume {initial : Box Val} {s s' : Toggles} (h : Counted initial s) {i : ℕ}
    (hs : step s (.resume i) = some s') (ht : Timely s (.resume i) s') : Counted initial s' := by
  unfold step at hs
  cases hi : s.inFlight[i]? with
  | none =>
    simp only [hi] at hs
    cases hs
  | some t =>
    simp only [hi] at hs
    obtain ⟨⟨t', b⟩, hr, rfl⟩ := Option.map_eq_some_iff.mp hs
    obtain ⟨k, stage⟩ := t
    cases stage with
    | read isFav =>
      obtain ⟨rfl, rfl⟩ := Prod.mk.inj (Option.some.inj hr)
      have hread : isFavorite k s.favorites = isFav := ht i k isFav rfl hi
      -- the write is a toggle of the box as it is now
      have htoggle : (if isFav then removeFavorite k s.favorites else addFavorite k s.favorites) =
          toggleFavorite k s.favorites := by
        unfold toggleFavorite
        rw [hread]
      intro id
      have hcount := Flight.countP_set_add hi ⟨k, .writing⟩ (hasWritten id)
      show isFavorite id (if isFav then _ else _) = _
      rw [htoggle, isFavorite_of_symmDiff favoriteSet_toggleFavorite, h id]
      by_cases hk : k = id
      · have hsucc : (s.inFlight.set i ⟨k, .writing⟩).countP (hasWritten id) =
            s.inFlight.countP (hasWritten id) + 1 := by
          simpa [hasWritten, hk] using hcount
        rw [if_pos hk, hsucc, flipped_succ]
      · have hsame : (s.inFlight.set i ⟨k, .writing⟩).countP (hasWritten id) =
            s.inFlight.countP (hasWritten id) := by
          simpa [hasWritten, hk] using hcount
        rw [if_neg hk, hsame]
    | writing =>
      obtain ⟨rfl, rfl⟩ := Prod.mk.inj (Option.some.inj hr)
      intro id
      have hcount := Flight.countP_set_add hi ⟨k, .done⟩ (hasWritten id)
      have hsame : (s.inFlight.set i ⟨k, .done⟩).countP (hasWritten id) =
          s.inFlight.countP (hasWritten id) := by
        simpa [hasWritten] using hcount
      show isFavorite id s.favorites = _
      rw [hsame, h id]
    | done => cases hr

theorem Counted.step {initial : Box Val} {s s' : Toggles} (h : Counted initial s) {m : ToggleMove}
    (hs : step s m = some s') (ht : Timely s m s') : Counted initial s' := by
  cases m with
  | serviceToggle quoteId => exact h.serviceToggle hs
  | screenToggle quote => exact h.screenToggle hs
  | resume i => exact h.resume hs ht

/-- **No toggle is lost.** -/
theorem noneLost_of_timely (initial : Box Val) (moves : List ToggleMove)
    (ht : Run.Each step Timely ⟨initial, []⟩ moves) :
    Run.Each step (fun _ _ s => NoneLost initial s) ⟨initial, []⟩ moves :=
  Run.each_of_invariant (I := Counted initial) (P := Timely)
    (fun _ _ _ h hs ht => ⟨h.step hs ht, (h.step hs ht).noneLost⟩) moves _ (fun _ => rfl) ht

/-! ## A toggle by itself -/

/-- The call of the service, its write, and its end. -/
theorem final_serviceToggle (s : Toggles) (quoteId : String) :
    ∃ s', Run.final step s [.serviceToggle quoteId, .resume s.inFlight.length,
        .resume s.inFlight.length] = some s' ∧
      s'.favorites = toggleFavorite quoteId s.favorites := by
  have hget : ∀ t : Toggle, (s.inFlight ++ [t])[s.inFlight.length]? = some t := fun t => by simp
  have hset : ∀ t t' : Toggle, (s.inFlight ++ [t]).set s.inFlight.length t' =
      s.inFlight ++ [t'] := fun t t' => by simp
  rw [Run.final_cons rfl]
  have h₁ : step ⟨s.favorites, s.inFlight ++ [⟨quoteId, .read (isFavorite quoteId s.favorites)⟩]⟩
      (.resume s.inFlight.length) =
        some ⟨toggleFavorite quoteId s.favorites, s.inFlight ++ [⟨quoteId, .writing⟩]⟩ := by
    unfold step
    simp only [hget, resume, Option.map_some, hset]
    rfl
  have h₂ : step ⟨toggleFavorite quoteId s.favorites, s.inFlight ++ [⟨quoteId, .writing⟩]⟩
      (.resume s.inFlight.length) =
        some ⟨toggleFavorite quoteId s.favorites, s.inFlight ++ [⟨quoteId, .done⟩]⟩ := by
    unfold step
    simp only [hget, resume, Option.map_some, hset]
  rw [Run.final_cons h₁, Run.final_cons h₂]
  exact ⟨_, rfl, rfl⟩

/-! ## Overlapping toggles -/

/-- The screen toggles while one toggle of the service writes to the disk and before another one
reads. -/
theorem noneLost_ordered : Run.Each step (fun _ _ s => NoneLost ∅ s) ⟨∅, []⟩
    [.serviceToggle "1", .resume 0, .screenToggle ⟨"1", "", "", "", "", "", none⟩,
      .serviceToggle "1", .resume 2, .resume 0, .resume 1, .resume 2] := by
  refine noneLost_of_timely ∅ _ ?_
  iterate 8 rw [Run.each_cons_of_step rfl]
  refine ⟨?_, ?_, ?_, ?_, ?_, ?_, ?_, ?_, trivial⟩
  all_goals
    intro i id isFav hm hi
    cases hm
    try cases hi
  · decide
  · decide

/-- Two toggles of the service both read that the quote is no favorite. -/
def doubleMoves : List ToggleMove :=
  [.serviceToggle "1", .serviceToggle "1", .resume 0, .resume 1, .resume 0, .resume 1]

/-- Two toggles have completed, and the quote is a favorite. -/
theorem not_noneLost_double :
    (∃ s, Run.final step ⟨∅, []⟩ doubleMoves = some s ∧
      s.inFlight = [⟨"1", .done⟩, ⟨"1", .done⟩] ∧ isFavorite "1" s.favorites = true) ∧
    ¬ Run.Each step (fun _ _ s => NoneLost ∅ s) ⟨∅, []⟩ doubleMoves := by
  have hfinal : ∃ s, Run.final step ⟨∅, []⟩ doubleMoves = some s ∧
      s.inFlight = [⟨"1", .done⟩, ⟨"1", .done⟩] ∧ isFavorite "1" s.favorites = true :=
    ⟨_, rfl, rfl, by decide⟩
  refine ⟨hfinal, fun hE => ?_⟩
  obtain ⟨s, hs, hdone, hfav⟩ := hfinal
  have hnone : NoneLost ∅ s := by
    refine Run.Each.final (P := NoneLost ∅) hE ?_ hs
    intro id _
    rfl
  have hfalse := hnone "1" (by rw [hdone]; decide)
  rw [hfav, hdone] at hfalse
  exact absurd hfalse (by decide)

end Toggles

end MotiAI
