import MotiAI.Lib.Run
import MotiAI.Lib.Settling
import MotiAI.Lib.Simulation
import MotiAI.Lib.Budget
import MotiAI.Lib.Flight
import MotiAI.Lib.Window
import MotiAI.Lib.Throwing
import MotiAI.Lib.Memo
import MotiAI.Lib.Mirror
import MotiAI.Lib.Rotation
import MotiAI.Lib.FirstMatch
import MotiAI.Lib.Residue
import MotiAI.Dart.Shuffle
import MotiAI.Dart.Text
import MotiAI.Dart.RegExp
import MotiAI.Dart.JsonRoundTrip
import MotiAI.Dart.Dynamic
import MotiAI.Hive.Box
import MotiAI.ApiKey
import MotiAI.Quote
import MotiAI.InitialQuotes
import MotiAI.Store
import MotiAI.Backup
import MotiAI.StoreRuns
import MotiAI.Startup
import MotiAI.Favorites
import MotiAI.FavoritesOverlap
import MotiAI.FavoritesRuns
import MotiAI.Cleaning
import MotiAI.FetchQuote
import MotiAI.FetchOverlap
import MotiAI.AuthorChoice
import MotiAI.Selection
import MotiAI.SelectionEnds
import MotiAI.QuoteScreen
import MotiAI.Variety
import MotiAI.VarietyOverlap
import MotiAI.AISwitch
import MotiAI.AffirmationOverlap
import MotiAI.Audio.Player
import MotiAI.Audio.Service
import MotiAI.Audio.Ownership
import MotiAI.Audio.Switch
import MotiAI.Audio.Overlap
import MotiAI.Audio.Generator
import MotiAI.Audio.Storage
import MotiAI.Audio.Keys
import MotiAI.Audio.Fallback
import MotiAI.Audio.Rotation
import MotiAI.Audio.LocalFiles
import MotiAI.Audio.Memo
import MotiAI.Audio.Restart
import MotiAI.Audio.Ids
import MotiAI.Audio.Clearing
import MotiAI.Notepad
import MotiAI.Image.Background
import MotiAI.Image.BackgroundOverlap
import MotiAI.Image.Rotation
import MotiAI.Image.Memo
import MotiAI.Image.Overlap
import MotiAI.Image.Expiry
import MotiAI.Image.Failures
import MotiAI.Image.Prefetch
import MotiAI.Image.PrefetchErrors
import MotiAI.Image.PromptChoice
import MotiAI.Image.Clearing
import MotiAI.PrefetchTwice
import MotiAI.CacheFiles
import MotiAI.GenerateAffirmation
import MotiAI.Application.Step
import MotiAI.Application.Frame
import MotiAI.Application.Moves
import MotiAI.Application.Quotes
import MotiAI.Application.Held
import MotiAI.Application.Variety
import MotiAI.Application.Images
import MotiAI.Application.Audio
import MotiAI.Application.Audible
import MotiAI.Application.Notes
import MotiAI.Application.Progress
import MotiAI.Application.Work
import MotiAI.Application.Settling
import MotiAI.Application.Reader
import MotiAI.Application.Budget
import MotiAI.Image.Delivered
import MotiAI.Application.Pictures
import MotiAI.Hive.QuoteAdapter
import MotiAI.NotepadScreen
import MotiAI.Application.Offline
