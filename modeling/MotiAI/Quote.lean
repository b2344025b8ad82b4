import MotiAI.Dart.JsonRoundTrip

/-!
# Quotes

The model class of the store, with its conversions to and from maps. `toMap` and `fromMap` are
inverse on quotes (`fromMap_toMap`), but `Quote` has no `toJson`, so `jsonEncode` does not use them.
-/

namespace MotiAI

open Dart

structure Quote where
  id : String
  text : String
  author : String
  tradition : String
  category : String
  imageUrl : String := ""
  affirmation : Option String := none
  deriving DecidableEq

namespace Quote

def toMap (q : Quote) : List (String × Plain) :=
  [("id", .str q.id), ("text", .str q.text), ("author", .str q.author),
    ("tradition", .str q.tradition), ("category", .str q.category), ("imageUrl", .str q.imageUrl),
    ("affirmation", q.affirmation.elim .null .str)]

/-- `map[key] ?? ''` as a `String`; `none` when the value has another type. -/
def stringField (map : List (String × Plain)) (key : String) : Option String :=
  match Json.lookup key map with
  | none => some ""
  | some .null => some ""
  | some (.str s) => some s
  | some _ => none

/-- `map[key]` as a `String?`. -/
def stringField? (map : List (String × Plain)) (key : String) : Option (Option String) :=
  match Json.lookup key map with
  | none => some none
  | some .null => some none
  | some (.str s) => some (some s)
  | some _ => none

def fromMap (map : List (String × Plain)) : Option Quote := do
  let id ← stringField map "id"
  let text ← stringField map "text"
  let author ← stringField map "author"
  let tradition ← stringField map "tradition"
  let category ← stringField map "category"
  let imageUrl ← stringField map "imageUrl"
  let affirmation ← stringField? map "affirmation"
  return { id, text, author, tradition, category, imageUrl, affirmation }

theorem fromMap_toMap (q : Quote) : fromMap q.toMap = some q := by
  cases q with
  | mk id text author tradition category imageUrl affirmation =>
    cases affirmation <;> rfl

theorem wf_toMap (q : Quote) : Plain.Wf (.map q.toMap) := by
  refine ⟨by simp [toMap], trivial, trivial, trivial, trivial, trivial, trivial, ?_, trivial⟩
  cases q.affirmation <;> trivial

end Quote

end MotiAI
