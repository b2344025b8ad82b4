import MotiAI.ApiKey
import MotiAI.Dart.Json
import MotiAI.Image.Service

/-!
# The image API

`_generateNewImage`: one request to Stability AI for a usable key, and a photo of unsplash.com for
every other end. It never returns null and never throws, so what a call of the image service meets
is an `ApiTurn`.
-/

namespace MotiAI

open Dart Hive

namespace StabilityAI

/-- The address of a photo in the tables. -/
def photo (id : String) : String :=
  "https://images.unsplash.com/photo-" ++ id ++ "?auto=format&fit=crop&w=1200&q=90"

/-- `_defaultImages`, each under the word that `_getDefaultImageForPrompt` looks for. -/
def defaultImages : List (String × String) :=
  [("buddhist", photo "1506905925346-21bda4d32df4"), ("sufi", photo "1518709268805-4e9042af2176"),
    ("zen", photo "1506744038136-46273834b3fb"), ("taoism", photo "1441974231531-c6227db76b6e"),
    ("stoicism", photo "1541961017774-22349e4a1262"),
    ("hinduism", photo "1578662996442-48f60103fc96"),
    ("indigenous", photo "1506905925346-21bda4d32df4"),
    ("mindful", photo "1518709268805-4e9042af2176"), ("social", photo "1506744038136-46273834b3fb")]

/-- `_vibrantFallbacks`. -/
def vibrantFallbacks : Vector String 6 :=
  #v[photo "1506905925346-21bda4d32df4", photo "1518709268805-4e9042af2176",
    photo "1506744038136-46273834b3fb", photo "1441974231531-c6227db76b6e",
    photo "1541961017774-22349e4a1262", photo "1578662996442-48f60103fc96"]

/-- `artifacts[0]['base64']` of a decoded body; `none` is every end without a text there. -/
def artifact : Plain → Option String
  | .map data =>
    match Json.lookup "artifacts" data with
    | some (.list (.map first :: _)) =>
      match Json.lookup "base64" first with
      | some (.str base64Image) => some base64Image
      | _ => none
    | _ => none
  | _ => none

/-- The image in a reply. The body is the decoded one, or `none` when it does not decode. -/
def replyImage : Reply (Option Plain) → Option String
  | .response 200 (some data) => artifact data
  | _ => none

section

variable [CaseMap]

/-- `_getDefaultImageForPrompt`; `millis` is the clock that chooses without a word. -/
def getDefaultImageForPrompt (prompt : String) (millis : ℕ) : String :=
  match defaultImages.find? fun e => contains (toLowerCase prompt) e.1 with
  | some e => e.2
  | none => vibrantFallbacks[Fin.ofNat 6 millis]

/-- `_generateNewImage`. -/
def generateNewImage (key : EnvEntry) (prompt : String) (reply : Reply (Option Plain))
    (millis : ℕ) : String :=
  if hasKey key then
    match replyImage reply with
    | some base64Image => "data:image/png;base64," ++ base64Image
    | none => getDefaultImageForPrompt prompt millis
  else getDefaultImageForPrompt prompt millis

end

/-- What a call of the image service meets: the clock when it looks at the memory cache and when it
has an image, whether the cached file can be read and written, and the reply of the API. -/
structure ApiTurn where
  asked : ℤ
  received : ℤ
  readable : Bool
  writable : Bool
  reply : Reply (Option Plain)
  millis : ℕ

/-- The turn a call for `prompt` takes. -/
def ApiTurn.turn [CaseMap] (key : EnvEntry) (prompt : String) (t : ApiTurn) : ImageTurn where
  asked := t.asked
  received := t.received
  readable := t.readable
  writable := t.writable
  generated := .image (generateNewImage key prompt t.reply t.millis)

/-! ## AI images and photos -/

/-- The image came from the API, or from a file. -/
def isAIImage (url : String) : Bool := startsWith url "data:image/png;base64,"

theorem isAIImage_data (base64Image : String) :
    isAIImage ("data:image/png;base64," ++ base64Image) = true := by
  unfold isAIImage
  rw [startsWith_iff, String.toList_append]
  exact List.prefix_append _ _

theorem isAIImage_photo (id : String) : isAIImage (photo id) = false := by
  apply eq_false_of_ne_true
  unfold isAIImage photo
  rw [startsWith_iff, String.toList_append, String.toList_append, List.append_assoc]
  exact fun h => absurd (List.cons_prefix_cons.mp h).1 (by decide)

theorem contains_photo (id : String) : contains (photo id) "unsplash.com" = true := by
  unfold photo
  rw [String.append_assoc]
  exact contains_append_left (by decide)

/-- The default image is one of the photos. -/
theorem exists_photo [CaseMap] (prompt : String) (millis : ℕ) :
    ∃ id, getDefaultImageForPrompt prompt millis = photo id := by
  have hdefault : ∀ e ∈ defaultImages, ∃ id, e.2 = photo id := by
    unfold defaultImages
    simp
  have hvibrant : ∀ i : Fin 6, ∃ id, vibrantFallbacks[i] = photo id := by
    intro i
    fin_cases i <;> exact ⟨_, rfl⟩
  unfold getDefaultImageForPrompt
  split
  · rename_i e he
    exact hdefault e (List.mem_of_find?_eq_some he)
  · exact hvibrant _

theorem generateNewImage_of_image [CaseMap] {key : EnvEntry} {prompt base64Image : String}
    {reply : Reply (Option Plain)} {millis : ℕ} (hkey : hasKey key = true)
    (hreply : replyImage reply = some base64Image) :
    generateNewImage key prompt reply millis = "data:image/png;base64," ++ base64Image := by
  unfold generateNewImage
  rw [if_pos hkey, hreply]

/-- The API is asked, and its reply holds an image. -/
def Succeeds (key : EnvEntry) (reply : Reply (Option Plain)) : Prop :=
  hasKey key = true ∧ (replyImage reply).isSome = true

instance (key : EnvEntry) (reply : Reply (Option Plain)) : Decidable (Succeeds key reply) :=
  inferInstanceAs (Decidable (_ ∧ _))

/-- A key of fifty letters. -/
def fullKey : EnvEntry := .value (String.ofList (List.replicate 50 'k'))

theorem hasKey_fullKey : hasKey fullKey = true := by decide

/-- A reply with one image. -/
def imageReply (base64Image : String) : Reply (Option Plain) :=
  .response 200 (some (.map [("artifacts", .list [.map [("base64", .str base64Image)]])]))

theorem exists_photo_of_not_succeeds [CaseMap] {key : EnvEntry} {reply : Reply (Option Plain)}
    (h : ¬ Succeeds key reply) (prompt : String) (millis : ℕ) :
    ∃ id, generateNewImage key prompt reply millis = photo id := by
  unfold generateNewImage
  split
  · rename_i hkey
    split
    · rename_i base64Image himage
      exact absurd ⟨hkey, Option.isSome_of_eq_some himage⟩ h
    · exact exists_photo prompt millis
  · exact exists_photo prompt millis

/-- An AI image is returned exactly when the request succeeds. -/
theorem isAIImage_generateNewImage [CaseMap] {key : EnvEntry} {prompt : String}
    {reply : Reply (Option Plain)} {millis : ℕ} :
    isAIImage (generateNewImage key prompt reply millis) = true ↔ Succeeds key reply := by
  constructor
  · intro hAI
    by_contra h
    obtain ⟨id, hid⟩ := exists_photo_of_not_succeeds h prompt millis
    rw [hid, isAIImage_photo] at hAI
    cases hAI
  · rintro ⟨hkey, himage⟩
    obtain ⟨base64Image, himage⟩ := Option.isSome_iff_exists.mp himage
    rw [generateNewImage_of_image hkey himage]
    exact isAIImage_data base64Image

/-- A photo is the mark of a failed request, and an encoded image is none. -/
theorem contains_of_dot_notMem {base64Image : String} (h : '.' ∉ base64Image.toList) :
    contains ("data:image/png;base64," ++ base64Image) "unsplash.com" = false := by
  apply contains_eq_false (c := '.') (by decide)
  rw [String.toList_append, List.mem_append, not_or]
  exact ⟨by decide, h⟩

theorem contains_data (bytes : List UInt8) :
    contains ("data:image/png;base64," ++ base64Encode bytes) "unsplash.com" = false :=
  contains_of_dot_notMem (notMem_base64Encode (by decide) bytes)

end StabilityAI

end MotiAI
