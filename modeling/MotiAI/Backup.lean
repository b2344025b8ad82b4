import MotiAI.Store

/-!
# Export and import

`exportData` encodes the four boxes as one JSON object. `importData` decodes a text, clears the
four boxes and puts the entries of the four sections one after the other; a put may throw, which
ends the import where it is.

1. The import is its list of puts, cut at the first failure (`putSections_eq`).
2. `roundTrips_iff`: what was exported is restored exactly when the quotes box is empty, because
   `Quote` has no `toJson`.
3. `atomic_iff`: the exact condition under which a failing import leaves the boxes as they were.
-/

namespace MotiAI

open Dart Hive

/-! ## The boxes of an export -/

/-- The boxes an export consists of, in the order they are written. -/
inductive BoxName where
  | quotes
  | favorites
  | settings
  | cachedImages
  deriving DecidableEq

namespace BoxName

/-- The key of the section in the exported object. -/
def key : BoxName → String
  | quotes => "quotes"
  | favorites => "favorites"
  | settings => "settings"
  | cachedImages => "cached_images"

def all : List BoxName := [quotes, favorites, settings, cachedImages]

end BoxName

namespace Store

def box (s : Store) : BoxName → Box Val
  | .quotes => s.quotes
  | .favorites => s.favorites
  | .settings => s.settings
  | .cachedImages => s.cachedImages

def setBox (s : Store) (n : BoxName) (b : Box Val) : Store :=
  match n with
  | .quotes => { s with quotes := b }
  | .favorites => { s with favorites := b }
  | .settings => { s with settings := b }
  | .cachedImages => { s with cachedImages := b }

/-- The four `clear()` calls of an import. -/
def cleared (s : Store) : Store :=
  { s with quotes := ∅, favorites := ∅, settings := ∅, cachedImages := ∅ }

@[simp] theorem box_setBox (s : Store) (n m : BoxName) (b : Box Val) :
    (s.setBox n b).box m = if n = m then b else s.box m := by
  cases n <;> cases m <;> rfl

@[simp] theorem cachedAudio_setBox (s : Store) (n : BoxName) (b : Box Val) :
    (s.setBox n b).cachedAudio = s.cachedAudio := by
  cases n <;> rfl

@[simp] theorem box_cleared (s : Store) (n : BoxName) : s.cleared.box n = ∅ := by
  cases n <;> rfl

end Store

/-! ## The code -/

/-- `Quote` declares no `toJson()`. -/
def Quote.toJson (_ : Quote) : Option Plain := none

namespace HiveQuoteService

/-- `exportData`; `none` when `jsonEncode` throws. -/
def exportData (s : Store) : Option String :=
  jsonEncode Quote.toJson (.map (BoxName.all.map fun n => (n.key, .map (s.box n).toList)))

/-- Where an import stops. -/
inductive ImportError where
  | format
  | notObject
  | noSection (n : BoxName)
  | put (n : BoxName) (key : String)

/-- The state after the puts made so far, and the exception that ended the import, if any. -/
structure Import where
  store : Store
  puts : ℕ
  error : Option ImportError

/-- Go on after a part that did not throw. -/
def Import.andThen (r : Import) (f : Store → ℕ → Import) : Import :=
  match r.error with
  | none => f r.store r.puts
  | some _ => r

/-! The `i`-th put of an import throws when `fails i`. -/

section

variable (fails : ℕ → Bool)

/-- `for (var entry in entries) { await box.put(entry.key, entry.value); }` -/
def putEntries (n : BoxName) : List (String × Val) → Store → ℕ → Import
  | [], s, i => ⟨s, i, none⟩
  | (k, v) :: es, s, i =>
    if fails i then ⟨s, i, some (.put n k)⟩
    else putEntries n es (s.setBox n ((s.box n).insert k v)) (i + 1)

/-- The entries of `importData[key]`; a missing section and one that is no map have none. -/
def sectionEntries (data : List (String × Val)) (n : BoxName) : Option (List (String × Val)) :=
  (Json.lookup n.key data).bind Json.entries?

/-- The loops over the sections `ns`. -/
def putSections (data : List (String × Val)) : List BoxName → Store → ℕ → Import
  | [], s, i => ⟨s, i, none⟩
  | n :: ns, s, i =>
    match sectionEntries data n with
    | none => ⟨s, i, some (.noSection n)⟩
    | some es => (putEntries fails n es s i).andThen (putSections data ns)

def importData (jsonData : String) (s : Store) : Import :=
  match jsonDecode jsonData with
  | none => ⟨s, 0, some .format⟩
  | some v =>
    match (Json.ofPlain v : Val).entries? with
    | none => ⟨s, 0, some .notObject⟩
    | some data => putSections fails data BoxName.all s.cleared 0

end

end HiveQuoteService

open HiveQuoteService

/-! ## An import is a list of puts -/

/-- A put into one of the four boxes. -/
abbrev Write := BoxName × String × Val

/-- Make the puts one after the other. -/
def applyWrites (ws : List Write) (s : Store) : Store :=
  ws.foldl (fun s w => s.setBox w.1 ((s.box w.1).insert w.2.1 w.2.2)) s

/-- The entries that `ws` puts into box `n`. -/
def entriesOf (n : BoxName) (ws : List Write) : List (String × Val) :=
  (ws.filter fun w => w.1 = n).map Prod.snd

/-- The puts an import goes through when none throws, up to the first section that is no map, and
whether there is no such section. -/
def planned (data : List (String × Val)) : List BoxName → List Write × Bool
  | [] => ([], true)
  | n :: ns =>
    match sectionEntries data n with
    | none => ([], false)
    | some es => (es.map (fun e => (n, e)) ++ (planned data ns).1, (planned data ns).2)

/-- How many of the `n` puts from position `i` on come before the first one that throws. -/
def okPuts (fails : ℕ → Bool) : ℕ → ℕ → ℕ
  | _, 0 => 0
  | i, n + 1 => if fails i then 0 else okPuts fails (i + 1) n + 1

theorem okPuts_le (fails : ℕ → Bool) : ∀ (n i : ℕ), okPuts fails i n ≤ n
  | 0, _ => Nat.le_refl 0
  | n + 1, i => by
    have := okPuts_le fails n (i + 1)
    unfold okPuts
    split_ifs <;> omega

theorem okPuts_of_never : ∀ (n i : ℕ), okPuts (fun _ => false) i n = n
  | 0, _ => rfl
  | n + 1, i => by simp [okPuts, okPuts_of_never n (i + 1)]

/-- The puts of two parts: the second part is reached when the first goes through. -/
theorem okPuts_add (fails : ℕ → Bool) : ∀ (m i n : ℕ), okPuts fails i (m + n) =
    if okPuts fails i m = m then m + okPuts fails (i + m) n else okPuts fails i m
  | 0, i, n => by simp [okPuts]
  | m + 1, i, n => by
    have ih := okPuts_add fails m (i + 1) n
    rw [show m + 1 + n = (m + n) + 1 by omega, okPuts, okPuts]
    by_cases hf : fails i = true
    · simp [hf]
    · simp only [hf, Bool.false_eq_true, if_false, ih, Nat.add_right_cancel_iff]
      by_cases h : okPuts fails (i + 1) m = m
      · rw [if_pos h, if_pos h, show i + (m + 1) = i + 1 + m by omega]
        omega
      · rw [if_neg h, if_neg h]

@[simp] theorem applyWrites_nil (s : Store) : applyWrites [] s = s := rfl

theorem applyWrites_append (ws ws' : List Write) (s : Store) :
    applyWrites (ws ++ ws') s = applyWrites ws' (applyWrites ws s) := by
  unfold applyWrites
  rw [List.foldl_append]

@[simp] theorem cachedAudio_applyWrites (ws : List Write) (s : Store) :
    (applyWrites ws s).cachedAudio = s.cachedAudio := by
  unfold applyWrites
  induction ws generalizing s with
  | nil => rfl
  | cons w ws ih => rw [List.foldl_cons, ih, Store.cachedAudio_setBox]

/-- A box holds the entries put into it. -/
theorem box_applyWrites (ws : List Write) (s : Store) (n : BoxName) :
    (applyWrites ws s).box n = Box.putAll (entriesOf n ws) (s.box n) := by
  unfold applyWrites entriesOf
  induction ws generalizing s with
  | nil => rfl
  | cons w ws ih =>
    rw [List.foldl_cons, ih, Store.box_setBox, List.filter_cons]
    by_cases h : w.1 = n
    · subst h
      simp
    · simp [h]

theorem putEntries_eq (fails : ℕ → Bool) (n : BoxName) (es : List (String × Val)) :
    ∀ (s : Store) (i : ℕ),
      (putEntries fails n es s i).store =
        applyWrites ((es.take (okPuts fails i es.length)).map fun e => (n, e)) s ∧
      (putEntries fails n es s i).puts = i + okPuts fails i es.length ∧
      ((putEntries fails n es s i).error = none ↔ okPuts fails i es.length = es.length) := by
  induction es with
  | nil => intro s i; simp [putEntries, okPuts]
  | cons e es ih =>
    intro s i
    obtain ⟨k, v⟩ := e
    unfold putEntries
    simp only [List.length_cons, okPuts]
    by_cases hf : fails i = true
    · simp [hf]
    · obtain ⟨h1, h2, h3⟩ := ih (s.setBox n ((s.box n).insert k v)) (i + 1)
      simp only [hf, Bool.false_eq_true, if_false, List.take_succ_cons, List.map_cons]
      refine ⟨h1, ?_, ?_⟩
      · rw [h2]
        omega
      · rw [h3]
        omega

/-- **An import is its puts, cut at the first failure.** -/
theorem putSections_eq (fails : ℕ → Bool) (data : List (String × Val)) (ns : List BoxName) :
    ∀ (s : Store) (i : ℕ),
      (putSections fails data ns s i).store =
        applyWrites ((planned data ns).1.take (okPuts fails i (planned data ns).1.length)) s ∧
      ((putSections fails data ns s i).error = none ↔ (planned data ns).2 = true ∧
        okPuts fails i (planned data ns).1.length = (planned data ns).1.length) := by
  induction ns with
  | nil => intro s i; simp [putSections, planned, okPuts]
  | cons n ns ih =>
    intro s i
    unfold putSections planned
    cases hsec : sectionEntries data n with
    | none => simp [okPuts]
    | some es =>
      obtain ⟨h1, h2, h3⟩ := putEntries_eq fails n es s i
      simp only [List.length_append, List.length_map, okPuts_add]
      unfold Import.andThen
      by_cases hall : okPuts fails i es.length = es.length
      · -- the section goes through: the rest of the import starts after it
        obtain ⟨r1, r2⟩ := ih (putEntries fails n es s i).store (i + es.length)
        rw [hall] at h1 h2
        rw [h3.mpr hall, h2, if_pos hall]
        have htake : ∀ (m : ℕ) (ws : List Write), (es.map (fun e => (n, e)) ++ ws).take
            (es.length + m) = es.map (fun e => (n, e)) ++ ws.take m := by
          intro m ws
          rw [List.take_append, List.length_map, Nat.add_sub_cancel_left,
            List.take_of_length_le (by rw [List.length_map]; omega)]
        refine ⟨?_, ?_⟩
        · rw [htake, applyWrites_append]
          show (putSections fails data ns (putEntries fails n es s i).store
            (i + es.length)).store = _
          rw [r1, h1, List.take_length]
        · show (putSections fails data ns (putEntries fails n es s i).store
            (i + es.length)).error = none ↔ _
          rw [r2, Nat.add_left_cancel_iff]
      · -- the section stops: nothing of the rest is reached
        have hle := okPuts_le fails es.length i
        obtain ⟨err, herr⟩ := Option.ne_none_iff_exists'.mp (fun h => hall (h3.mp h))
        simp only [herr, if_neg hall]
        refine ⟨?_, ?_⟩
        · rw [h1, List.take_append_of_le_length (by simpa using hle), List.map_take]
        · have hlt : okPuts fails i es.length < es.length := by omega
          refine ⟨fun h => absurd h (by simp), fun h => ?_⟩
          omega

/-- An import none of whose puts throws, of an object with the four sections. -/
theorem importData_of_sections {text : String} {v : Plain} {data : List (String × Val)}
    (hv : jsonDecode text = some v) (hd : (Json.ofPlain v : Val).entries? = some data)
    {es : BoxName → List (String × Val)} (hes : ∀ n, sectionEntries data n = some (es n))
    (s : Store) :
    (importData (fun _ => false) text s).error = none ∧
      (importData (fun _ => false) text s).store.cachedAudio = s.cachedAudio ∧
      ∀ n, (importData (fun _ => false) text s).store.box n = Box.putAll (es n) ∅ := by
  obtain ⟨h1, h2⟩ := putSections_eq (fun _ => false) data BoxName.all s.cleared 0
  have himp : importData (fun _ => false) text s =
      putSections (fun _ => false) data BoxName.all s.cleared 0 := by
    unfold importData
    simp only [hv, hd]
  rw [okPuts_of_never, List.take_length] at h1
  rw [okPuts_of_never] at h2
  rw [himp]
  refine ⟨h2.mpr ⟨?_, rfl⟩, ?_, ?_⟩
  · simp [planned, BoxName.all, hes]
  · rw [h1, cachedAudio_applyWrites]
    rfl
  · intro n
    rw [h1, box_applyWrites, Store.box_cleared]
    congr 1
    cases n <;> simp [planned, BoxName.all, hes, entriesOf, List.filter_map, Function.comp_def]

/-! ## The round trip -/

/-- What the app keeps in the four boxes: quotes under their ids, flags, JSON values, images. -/
structure Contents where
  quotes : Box Quote
  ids : ∀ (k : String) (q : Quote), quotes[k]? = some q → q.id = k
  favorites : Box Bool
  settings : Box {v : Plain // v.Wf}
  cachedImages : Box String

namespace Contents

def toStore (c : Contents) (cachedAudio : Box String) : Store where
  quotes := c.quotes.map fun _ q => .object q
  favorites := c.favorites.map fun _ b => .bool b
  settings := c.settings.map fun _ v => .ofPlain v.val
  cachedImages := c.cachedImages.map fun _ image => .str image
  cachedAudio := cachedAudio

/-- The sections of the exported object, when there are no quotes. -/
def sections (c : Contents) : BoxName → List (String × Plain)
  | .quotes => []
  | .favorites => c.favorites.toList.map fun e => (e.1, .bool e.2)
  | .settings => c.settings.toList.map fun e => (e.1, e.2.val)
  | .cachedImages => c.cachedImages.toList.map fun e => (e.1, .str e.2)

end Contents

/-- The export of `s` succeeds, and its import, into any boxes, restores the four boxes of `s`. -/
def RoundTrips (s : Store) : Prop :=
  ∃ text, exportData s = some text ∧ ∀ t : Store,
    (importData (fun _ => false) text t).error = none ∧
      ∀ n, (importData (fun _ => false) text t).store.box n = s.box n

/-- The object an export encodes when box `n` holds the plain entries `es n`. -/
def exported (es : BoxName → List (String × Plain)) : Plain :=
  .map (BoxName.all.map fun n => (n.key, .map (es n)))

theorem exportData_of_plain {s : Store} {es : BoxName → List (String × Plain)}
    (h : ∀ n, (s.box n).toList = Json.ofPlainEntries (es n)) :
    exportData s = some (String.ofList (print (exported es))) := by
  have hobj : (Json.map (BoxName.all.map fun n => (n.key, Json.map (s.box n).toList)) : Val) =
      Json.ofPlain (exported es) := by
    simp [BoxName.all, exported, Json.ofPlain, Json.ofPlainEntries, h]
  unfold exportData jsonEncode
  rw [hobj, Json.toPlain_ofPlain]
  rfl

theorem wf_exported {s : Store} {es : BoxName → List (String × Plain)}
    (h : ∀ n, (s.box n).toList = Json.ofPlainEntries (es n))
    (hwf : ∀ n, Plain.WfEntries (es n)) : (exported es).Wf := by
  have hkeys : ∀ n, ((es n).map Prod.fst).Nodup := by
    intro n
    have := (s.box n).nodup_keys
    rwa [h n, Json.keys_ofPlainEntries] at this
  refine ⟨show (BoxName.all.map BoxName.key).Nodup by decide, ?_⟩
  exact ⟨⟨hkeys _, hwf _⟩, ⟨hkeys _, hwf _⟩, ⟨hkeys _, hwf _⟩, ⟨hkeys _, hwf _⟩, trivial⟩

/-- Boxes of plain values survive the round trip. -/
theorem roundTrips_of_plain {s : Store} {e : BoxName → List (String × Plain)}
    (h : ∀ n, (s.box n).toList = Json.ofPlainEntries (e n))
    (hwf : ∀ n, Plain.WfEntries (e n)) : RoundTrips s := by
  refine ⟨_, exportData_of_plain h, fun t => ?_⟩
  have hsec : ∀ n, sectionEntries (Json.ofPlainEntries (BoxName.all.map fun n =>
      (n.key, Json.map (e n)))) n = some (s.box n).toList := by
    intro n
    rw [h n]
    cases n <;> rfl
  obtain ⟨herr, -, hbox⟩ :=
    importData_of_sections (jsonDecode_print (wf_exported h hwf)) rfl hsec t
  refine ⟨herr, fun n => ?_⟩
  rw [hbox, Box.putAll_toList]

/-- One object without `toJson()` makes the encoding of a map fail. -/
theorem toPlainEntries_eq_none {k : String} {q : Quote} :
    ∀ {es : List (String × Val)}, (k, Json.object q) ∈ es →
      Json.toPlainEntries Quote.toJson es = none
  | (k', v) :: es, h => by
    rw [Json.toPlainEntries]
    rcases List.mem_cons.mp h with heq | hmem
    · obtain ⟨rfl, rfl⟩ := Prod.mk.inj heq
      rfl
    · rw [toPlainEntries_eq_none hmem]
      cases Json.toPlain Quote.toJson v <;> rfl

theorem exportData_of_quote {s : Store} {k : String} {q : Quote}
    (h : s.quotes[k]? = some (.object q)) : exportData s = none := by
  have hmem : (k, Json.object q) ∈ (s.box .quotes).toList :=
    Std.ExtTreeMap.mem_toList_iff_getElem?_eq_some.mpr h
  unfold exportData jsonEncode
  simp [BoxName.all, Json.toPlain, Json.toPlainEntries, toPlainEntries_eq_none hmem]

theorem Contents.quotes_toStore {c : Contents} {k : String} {q : Quote}
    (h : c.quotes[k]? = some q) (cachedAudio : Box String) :
    (c.toStore cachedAudio).quotes[k]? = some (.object q) := by
  show (c.quotes.map fun _ q => Json.object q)[k]? = _
  rw [Std.ExtTreeMap.getElem?_map, h]
  rfl

/-- **Export and import.** What was exported is restored exactly when the quotes box is empty: an
object of class `Quote` cannot be encoded. -/
theorem roundTrips_iff (c : Contents) (cachedAudio : Box String) :
    RoundTrips (c.toStore cachedAudio) ↔ c.quotes = ∅ := by
  constructor
  · rintro ⟨text, htext, -⟩
    by_contra hne
    obtain ⟨k, q, hk⟩ := Box.exists_getElem?_of_ne_empty hne
    rw [exportData_of_quote (Contents.quotes_toStore hk cachedAudio)] at htext
    cases htext
  · intro hq
    refine roundTrips_of_plain (e := c.sections) (fun n => ?_) (fun n => ?_)
    · cases n <;> simp [Store.box, Contents.toStore, Contents.sections, hq,
        Std.ExtTreeMap.toList_map, Json.ofPlainEntries_eq_map, Json.ofPlain, Function.comp_def]
    · cases n with
      | quotes => trivial
      | favorites => exact Plain.wfEntries_map (f := Json.bool) fun _ => trivial
      | settings => exact Plain.wfEntries_map fun v => v.property
      | cachedImages => exact Plain.wfEntries_map (f := Json.str) fun _ => trivial

/-- The contents with one quote and nothing else. -/
def Contents.single (q : Quote) : Contents where
  quotes := (∅ : Box Quote).insert q.id q
  ids := by
    intro k q' h
    rw [Box.getElem?_put, Std.ExtTreeMap.getElem?_empty] at h
    split at h
    · rename_i hk
      rw [← Option.some.inj h, hk]
    · cases h
  favorites := ∅
  settings := ∅
  cachedImages := ∅

def beStill : Quote := ⟨"ai_1", "Be still.", "Psalms", "Christian", "Faith", "", some "I am calm."⟩

/-- A store with one quote does not survive the round trip. -/
theorem not_roundTrips_single : ¬ RoundTrips ((Contents.single beStill).toStore ∅) := by
  rintro ⟨text, htext, -⟩
  rw [exportData_of_quote (Contents.quotes_toStore (Box.getElem?_put_self _ _ _) ∅)] at htext
  cases htext

/-! ## Failing imports -/

/-- An import that throws leaves the four boxes as they were. -/
def Atomic (fails : ℕ → Bool) (jsonData : String) (s : Store) : Prop :=
  (importData fails jsonData s).error ≠ none →
    ∀ n, (importData fails jsonData s).store.box n = s.box n

/-- The entries of the object that `jsonData` encodes. -/
def jsonObject (jsonData : String) : Option (List (String × Val)) :=
  (jsonDecode jsonData).bind fun v => (Json.ofPlain v : Val).entries?

/-- Every section is a map, and none of the puts throws. -/
def GoesThrough (fails : ℕ → Bool) (data : List (String × Val)) : Prop :=
  (∀ n, (sectionEntries data n).isSome = true) ∧
    ∀ i < (planned data BoxName.all).1.length, fails i = false

/-- The puts before the first one that throws. -/
def reached (fails : ℕ → Bool) (data : List (String × Val)) : List Write :=
  (planned data BoxName.all).1.take (okPuts fails 0 (planned data BoxName.all).1.length)

/-- The boxes already hold, under every key, the last value put there before the import stops. -/
def AlreadyHolds (fails : ℕ → Bool) (data : List (String × Val)) (s : Store) : Prop :=
  ∀ (n : BoxName) (k : String),
    (s.box n)[k]? = Json.lookup k (entriesOf n (reached fails data)).reverse

theorem okPuts_eq_iff (fails : ℕ → Bool) :
    ∀ (n i : ℕ), okPuts fails i n = n ↔ ∀ j < n, fails (i + j) = false
  | 0, i => by simp [okPuts]
  | n + 1, i => by
    have ih := okPuts_eq_iff fails n (i + 1)
    rw [okPuts, Nat.forall_lt_succ_left]
    by_cases hf : fails i = true
    · simp [hf]
    · simp only [hf, Bool.false_eq_true, if_false, Nat.add_right_cancel_iff, ih, Nat.add_zero,
        true_and]
      simp only [Nat.add_assoc, Nat.add_comm 1]

theorem planned_complete_iff (data : List (String × Val)) :
    ∀ ns : List BoxName,
      (planned data ns).2 = true ↔ ∀ n ∈ ns, (sectionEntries data n).isSome = true
  | [] => by simp [planned]
  | n :: ns => by
    have ih := planned_complete_iff data ns
    rw [planned, List.forall_mem_cons, ← ih]
    cases sectionEntries data n <;> simp

/-- What an import of an object does. -/
theorem importData_of_object {text : String} {data : List (String × Val)}
    (h : jsonObject text = some data) (fails : ℕ → Bool) (s : Store) :
    importData fails text s = putSections fails data BoxName.all s.cleared 0 := by
  obtain ⟨v, hv, hd⟩ := Option.bind_eq_some_iff.mp h
  unfold importData
  simp only [hv, hd]

/-- A text that is no JSON object is rejected before the boxes are cleared. -/
theorem importData_of_not_object {text : String} (h : jsonObject text = none) (fails : ℕ → Bool)
    (s : Store) : (importData fails text s).store = s := by
  unfold jsonObject at h
  unfold importData
  cases hv : jsonDecode text with
  | none => rfl
  | some v =>
    rw [hv, Option.bind_some] at h
    simp only [h]

theorem error_ne_none_of_not_object {text : String} (h : jsonObject text = none)
    (fails : ℕ → Bool) (s : Store) : (importData fails text s).error ≠ none := by
  unfold jsonObject at h
  unfold importData
  cases hv : jsonDecode text with
  | none => simp
  | some v =>
    rw [hv, Option.bind_some] at h
    simp [h]

theorem error_eq_none_iff {text : String} {data : List (String × Val)}
    (h : jsonObject text = some data) (fails : ℕ → Bool) (s : Store) :
    (importData fails text s).error = none ↔ GoesThrough fails data := by
  rw [importData_of_object h, (putSections_eq fails data BoxName.all s.cleared 0).2,
    planned_complete_iff, okPuts_eq_iff]
  unfold GoesThrough
  simp only [Nat.zero_add]
  refine and_congr_left fun _ => ⟨fun hn n => hn n (by cases n <;> decide), fun hn n _ => hn n⟩

/-- After a failing import a box holds the last values put into it. -/
theorem box_importData {text : String} {data : List (String × Val)}
    (h : jsonObject text = some data) (fails : ℕ → Bool) (s : Store) (n : BoxName) (k : String) :
    ((importData fails text s).store.box n)[k]? =
      Json.lookup k (entriesOf n (reached fails data)).reverse := by
  rw [importData_of_object h, (putSections_eq fails data BoxName.all s.cleared 0).1,
    box_applyWrites, Store.box_cleared, Box.getElem?_putAll_eq, Std.ExtTreeMap.getElem?_empty,
    Option.or_none]
  rfl

/-- **A failing import.** It leaves the boxes as they were exactly when it is rejected as no
object, when it does not fail at all, or when the boxes happen to hold what it has put. -/
theorem atomic_iff (fails : ℕ → Bool) (jsonData : String) (s : Store) :
    Atomic fails jsonData s ↔
      ∀ data, jsonObject jsonData = some data →
        GoesThrough fails data ∨ AlreadyHolds fails data s := by
  cases h : jsonObject jsonData with
  | none =>
    refine ⟨fun _ data hd => (Option.some_ne_none data hd.symm).elim, fun _ _ n => ?_⟩
    rw [importData_of_not_object h]
  | some data =>
    have hbox : (∀ n, (importData fails jsonData s).store.box n = s.box n) ↔
        AlreadyHolds fails data s := by
      refine forall_congr' fun n => ?_
      rw [eq_comm, Std.ExtTreeMap.ext_getElem?_iff]
      simp only [box_importData h]
    unfold Atomic
    rw [ne_eq, error_eq_none_iff h, hbox]
    constructor
    · rintro hA data' hd
      obtain rfl : data = data' := Option.some.inj hd
      by_cases hg : GoesThrough fails data
      · exact Or.inl hg
      · exact Or.inr (hA hg)
    · intro hA hg
      exact (hA data rfl).resolve_left hg

/-- The empty object is accepted as a map, and the boxes are cleared before its sections are
looked up. -/
theorem not_atomic_empty_object :
    ¬ Atomic (fun _ => false) "\x7b\x7d"
      ((Contents.single beStill).toStore ∅) := by
  have hobj : jsonObject "\x7b\x7d" = some [] := by
    unfold jsonObject
    rw [show jsonDecode "\x7b\x7d" = some (.map []) from
      jsonDecode_print (v := .map []) ⟨by decide, trivial⟩]
    rfl
  intro h
  have herr : (importData (fun _ => false) "\x7b\x7d"
      ((Contents.single beStill).toStore ∅)).error ≠ none := by
    rw [ne_eq, error_eq_none_iff hobj]
    rintro ⟨hsec, -⟩
    exact absurd (hsec .quotes) (by decide)
  have hquote := box_importData hobj (fun _ => false) ((Contents.single beStill).toStore ∅)
    .quotes "ai_1"
  rw [h herr] at hquote
  have hk := Contents.quotes_toStore (c := Contents.single beStill) (Box.getElem?_put_self _ _ _) ∅
  cases hk.symm.trans hquote

end MotiAI
