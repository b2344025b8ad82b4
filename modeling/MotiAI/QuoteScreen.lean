import MotiAI.Lib.Window
import MotiAI.Selection

/-!
# The quote screen

The state of the screen and the part of its handlers that shows a quote: the initial load appends
the tradition of its quote to the recent ones, a press of New Quote also drops the oldest when more
than three are held. A selection that throws shows nothing.
-/

namespace MotiAI

open Dart HiveQuoteService

structure QuoteScreen where
  currentQuote : Option Quote := none
  recentTraditions : List String := []
  lastTradition : Option String := none
  isAudioEnabled : Bool := true
  backgroundImageUrl : Option String := none
  shownImageKeys : Finset String := ∅
  backgroundPrefetchStarted : Bool := false

namespace QuoteScreen

/-- `_maxRecentTraditions`. -/
def maxRecentTraditions : ℕ := 3

/-- What `_initializeQuote` does with its quote. -/
def showInitial (quote : Quote) (s : QuoteScreen) : QuoteScreen :=
  { s with
    currentQuote := some quote
    recentTraditions := s.recentTraditions ++ [quote.trimmedTradition]
    lastTradition := some quote.trimmedTradition }

/-- What `_generateNewQuote` does with its quote. -/
def showNew (quote : Quote) (s : QuoteScreen) : QuoteScreen :=
  { s with
    currentQuote := some quote
    recentTraditions :=
      if maxRecentTraditions < (s.recentTraditions ++ [quote.trimmedTradition]).length then
        (s.recentTraditions ++ [quote.trimmedTradition]).tail
      else s.recentTraditions ++ [quote.trimmedTradition]
    lastTradition := some quote.trimmedTradition }

@[simp] theorem recentTraditions_showInitial (q : Quote) (s : QuoteScreen) :
    (showInitial q s).recentTraditions = s.recentTraditions ++ [q.trimmedTradition] := rfl

@[simp] theorem recentTraditions_showNew (q : Quote) (s : QuoteScreen) :
    (showNew q s).recentTraditions = Window.slide 3 s.recentTraditions q.trimmedTradition := rfl

end QuoteScreen

/-! ## What was shown so far -/

/-- A screen with the quotes it has displayed, oldest first. -/
structure Session where
  screen : QuoteScreen := {}
  displayed : List Quote := []

namespace Session

/-- The trimmed traditions of the displayed quotes. -/
def traditions (s : Session) : List String := s.displayed.map Quote.trimmedTradition

def displayInitial (quote : Quote) (s : Session) : Session :=
  ⟨s.screen.showInitial quote, s.displayed ++ [quote]⟩

def displayNew (quote : Quote) (s : Session) : Session :=
  ⟨s.screen.showNew quote, s.displayed ++ [quote]⟩

@[simp] theorem traditions_displayInitial (q : Quote) (s : Session) :
    (s.displayInitial q).traditions = s.traditions ++ [q.trimmedTradition] := List.map_append

@[simp] theorem traditions_displayNew (q : Quote) (s : Session) :
    (s.displayNew q).traditions = s.traditions ++ [q.trimmedTradition] := List.map_append

/-- Any four consecutively displayed quotes have distinct trimmed traditions, and the recent
traditions are those of the last three displayed quotes. -/
structure Varied (s : Session) : Prop where
  spaced : Window.Spaced 4 s.traditions
  recent : s.screen.recentTraditions = s.traditions.rtake 3

theorem varied_start : Varied {} := ⟨Window.spaced_nil 4, rfl⟩

namespace Varied

variable {s : Session} {q : Quote}

theorem length_recent_le (h : Varied s) : s.screen.recentTraditions.length ≤ 3 := by
  rw [h.recent, Window.length_rtake]
  exact Nat.min_le_left 3 _

/-- Displaying a quote of none of the recent traditions keeps the screen varied. -/
theorem displayNew (h : Varied s) (hq : q.trimmedTradition ∉ s.screen.recentTraditions) :
    Varied (s.displayNew q) where
  spaced := by
    rw [traditions_displayNew]
    rw [h.recent] at hq
    exact Window.spaced_concat.mpr ⟨h.spaced, hq⟩
  recent := by
    rw [traditions_displayNew, ← Window.slide_rtake, ← h.recent]
    exact QuoteScreen.recentTraditions_showNew q s.screen

/-- The initial load does not drop a tradition, so it keeps the screen varied only while fewer than
three are held. -/
theorem displayInitial (h : Varied s) (hq : q.trimmedTradition ∉ s.screen.recentTraditions)
    (hlen : s.displayed.length < 3) : Varied (s.displayInitial q) where
  spaced := by
    rw [traditions_displayInitial]
    rw [h.recent] at hq
    exact Window.spaced_concat.mpr ⟨h.spaced, hq⟩
  recent := by
    have hl : s.traditions.length < 3 := by
      unfold traditions
      rwa [List.length_map]
    rw [traditions_displayInitial, Window.rtake_of_length_le (by simp; omega),
      ← Window.rtake_of_length_le hl.le, ← h.recent]
    exact QuoteScreen.recentTraditions_showInitial q s.screen

end Varied

end Session

end MotiAI
