import Mathlib
import MotiAI.Dart.Text

/-!
# API keys and replies

What `dotenv.env[name]` yields, and what each of the three callers takes for a key. Without one
nothing is sent: the quote request returns null, the image and the sound fall back to a default.
-/

namespace Dart

/-- The length in UTF-16 code units. -/
def length (s : String) : ℕ := (s.toList.map utf16Length).sum

/-- An entry of `dotenv.env`; reading it throws when no file was loaded. -/
inductive EnvEntry where
  | notLoaded
  | missing
  | value (s : String)

/-- How an HTTP request ends: with an exception, or with a response. -/
inductive Reply (B : Type) where
  | throws
  | response (statusCode : ℕ) (body : B)

end Dart

namespace MotiAI

open Dart

namespace HiveQuoteService

/-- `fetchQuoteFromAnthropic` finds a key that is not the placeholder. -/
def hasKey : EnvEntry → Bool
  | .value apiKey => apiKey != "" && apiKey != "your_anthropic_api_key_here"
  | _ => false

end HiveQuoteService

namespace StabilityAI

/-- `_generateNewImage` finds a key that does not look incomplete. -/
def hasKey : EnvEntry → Bool
  | .value apiKey => apiKey != "" && 50 ≤ length apiKey && apiKey.toList.getLast? != some '%'
  | _ => false

end StabilityAI

namespace AIAudio

/-- `_generateAmbientSoundForTradition` finds a key. -/
def hasKey : EnvEntry → Bool
  | .value apiKey => apiKey != ""
  | _ => false

end AIAudio

end MotiAI
