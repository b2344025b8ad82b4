import MotiAI.Lib.Run
import MotiAI.QuoteScreen

/-!
# Tradition variety, one request at a time

Runs of the quote screen without category and tradition filters: the initial load, then presses of
New Quote that each complete before the next. The AI outcomes, the shuffles, the setting of
`useAIQuotes` and the quotes box are arbitrary at every event.

`varied_run`: when the eligible stored quotes span four traditions at every press, the recent
traditions are those of the last three displayed quotes, the selection avoids them, and any four
consecutive quotes differ.
-/

namespace MotiAI

open Dart Hive HiveQuoteService

/-- What completes: the initial load, or a press of New Quote. -/
inductive ScreenEvent where
  | initializeQuote (r : Readings) (shuffle : Shuffle Quote)
  | generateNewQuote (r : Readings) (shuffle : Shuffle Quote)

namespace Session

section

variable [CaseMap]

/-- An exception ends the initial load before anything is shown. -/
def initializeQuote (category tradition : Option String) (r : Readings) (shuffle : Shuffle Quote)
    (s : Session) : Session :=
  match getRandomQuote category tradition r shuffle with
  | .ok quote => s.displayInitial quote
  | .error _ => s

/-- An exception is caught: the old quote stays. -/
def generateNewQuote (category tradition : Option String) (r : Readings) (shuffle : Shuffle Quote)
    (s : Session) : Session :=
  match getRandomQuoteWithTraditionVariety category tradition (some s.screen.recentTraditions) r
      shuffle with
  | .ok quote => s.displayNew quote
  | .error _ => s

def step (s : Session) : ScreenEvent → Option Session
  | .initializeQuote r shuffle => some (initializeQuote none none r shuffle s)
  | .generateNewQuote r shuffle => some (generateNewQuote none none r shuffle s)

/-- The initial load comes first; a press finds eligible quotes of four traditions. -/
def Expected (s : Session) (e : ScreenEvent) (_ : Session) : Prop :=
  match e with
  | .initializeQuote _ _ => s.displayed = []
  | .generateNewQuote r _ => 4 ≤ spread r.stored r.useAIQuotes

theorem Varied.initializeQuote {s : Session} (h : Varied s) (hempty : s.displayed = [])
    (category tradition : Option String) (r : Readings) (shuffle : Shuffle Quote) :
    Varied (s.initializeQuote category tradition r shuffle) := by
  unfold Session.initializeQuote
  cases getRandomQuote category tradition r shuffle with
  | error _ => exact h
  | ok quote =>
    have hrec : s.screen.recentTraditions = [] := by
      rw [h.recent, traditions, hempty]
      rfl
    refine h.displayInitial ?_ (by rw [hempty]; decide)
    rw [hrec]
    exact List.not_mem_nil

theorem Varied.generateNewQuote {s : Session} (h : Varied s) {r : Readings}
    (hspread : 4 ≤ spread r.stored r.useAIQuotes) (shuffle : Shuffle Quote) :
    Varied (s.generateNewQuote none none r shuffle) := by
  unfold Session.generateNewQuote
  cases hq : getRandomQuoteWithTraditionVariety none none (some s.screen.recentTraditions) r
      shuffle with
  | error _ => exact h
  | ok quote =>
    have hlen := h.length_recent_le
    exact h.displayNew (variety_avoids (by omega) hq)

theorem varied_step {s s' : Session} {e : ScreenEvent} (h : Varied s) (hs : step s e = some s')
    (he : Expected s e s') : Varied s' := by
  cases e with
  | initializeQuote r shuffle =>
    obtain rfl := Option.some.inj hs
    exact h.initializeQuote he none none r shuffle
  | generateNewQuote r shuffle =>
    obtain rfl := Option.some.inj hs
    exact h.generateNewQuote he shuffle

/-- A run of the screen: the initial load, then presses. -/
def screenRun (load : Readings × Shuffle Quote) (presses : List (Readings × Shuffle Quote)) :
    List ScreenEvent :=
  .initializeQuote load.1 load.2 :: presses.map fun p => .generateNewQuote p.1 p.2

/-- **Tradition variety.** Every state of a run is varied. -/
theorem varied_run (load : Readings × Shuffle Quote) (presses : List (Readings × Shuffle Quote))
    (h : ∀ p ∈ presses, 4 ≤ spread p.1.stored p.1.useAIQuotes) :
    Run.Each step (fun _ _ s => Varied s) {} (screenRun load presses) := by
  refine Run.each_of_invariant (I := Varied) (P := Expected)
    (fun s e s' hv hs he => ⟨varied_step hv hs he, varied_step hv hs he⟩) _ _ varied_start ?_
  refine fun s' _ => ⟨rfl, Run.each_of_forall_mem fun e he s s' => ?_⟩
  obtain ⟨p, hp, rfl⟩ := List.mem_map.mp he
  exact h p hp

end

/-- A box with one quote of each of four traditions. -/
def fourTraditions : Box Val :=
  Box.putAll (["Buddhist", "Sufi ", "Taoism", "Stoicism"].map fun t =>
    (t, .object ⟨t, "", "", t, "", "", none⟩)) ∅

/-- Two presses on that box, the second with an AI quote. -/
theorem varied_run_fourTraditions :
    Run.Each (@step CaseMap.ascii) (fun _ _ s => Varied s) {}
      (screenRun (⟨false, none, fourTraditions, false⟩, .keep)
        [(⟨false, none, fourTraditions, true⟩, ⟨List.reverse, List.reverse_perm⟩),
          (⟨true, some ⟨"ai_1", "", "", " Sufi", "", "", none⟩, fourTraditions, true⟩,
            .keep)]) := by
  refine @varied_run CaseMap.ascii _ _ ?_
  have hspread : ∀ useAI, 4 ≤ spread fourTraditions useAI := by decide +kernel
  intro p hp
  rcases List.mem_cons.mp hp with rfl | hp
  · exact hspread true
  · obtain rfl := List.mem_singleton.mp hp
    exact hspread true

end Session

end MotiAI
