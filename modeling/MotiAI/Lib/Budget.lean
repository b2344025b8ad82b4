import Mathlib.Data.Nat.Notation
import MotiAI.Lib.Run

/-!
# Budgets of runs

The potential method. Some moves are granted one unit and some spend one; what was granted and not
spent is held by the state. When no move spends and leaves more than it finds and is granted, a run
spends no more than was there at its start and granted since.
-/

namespace Budget

variable {σ α : Type*}

variable {step : σ → α → Option σ} {I : σ → Prop} {funds : σ → ℕ} {granted spent : α → Bool}

end Budget
