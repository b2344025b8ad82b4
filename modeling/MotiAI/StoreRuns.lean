import MotiAI.Backup
import MotiAI.Lib.Run

/-!
# Runs of the quote store

The operations that write the quotes box, and restarts of the application. A step that throws does
not complete (`none`); the boxes keep their values across a restart.

`sound_iff`: every state of a run that starts with `initialize` is well typed, and not empty right
after `initialize`, exactly when no import brings entries into the quotes box. Imported entries are
never `Quote` objects, and the migration of `initialize` looks at the first entry only.
-/

namespace MotiAI

open Dart Hive HiveQuoteService

/-- A completed operation on the store. -/
inductive StoreOp where
  | addQuote (quote : Quote)
  | updateQuote (quote : Quote)
  | removeQuote (id : String)
  | saveAffirmationToQuote (quoteId affirmation : String)
  | fetchQuoteFromAnthropic (result : Option Quote)
  | importData (jsonData : String)
  | restart

namespace StoreOp

def step (s : Store) : StoreOp → Option Store
  | .addQuote quote => some { s with quotes := HiveQuoteService.addQuote quote s.quotes }
  | .updateQuote quote => some { s with quotes := HiveQuoteService.updateQuote quote s.quotes }
  | .removeQuote id => some (HiveQuoteService.removeQuote id s)
  | .saveAffirmationToQuote quoteId affirmation =>
    (HiveQuoteService.saveAffirmationToQuote quoteId affirmation s.quotes).map
      fun b => { s with quotes := b }
  | .fetchQuoteFromAnthropic result => some { s with quotes := storeFetched result s.quotes }
  | .importData jsonData =>
    let r := HiveQuoteService.importData (fun _ => false) jsonData s
    match r.error with
    | none => some r.store
    | some _ => none
  | .restart => some { s with quotes := initializeBoxes s.quotes }

/-- A quotes box the application may find at its first start: an empty one, one of the old format,
or one it wrote itself. -/
def Start (b : Box Val) : Prop :=
  b = ∅ ∨ (∀ (k : String) (v : Val), b[k]? = some v → v.isMap = true) ∨ WellTyped b

/-- What is expected of the state after a step. -/
def Sound (_ : Store) (a : StoreOp) (s' : Store) : Prop :=
  (a = .restart → s'.quotes ≠ ∅) ∧ WellTyped s'.quotes ∧ (getAllQuotes s'.quotes).isSome = true

/-- The step is not an import of an object whose quotes section has entries. -/
def ImportsNoQuotes (a : StoreOp) : Prop :=
  ∀ jsonData data, a = .importData jsonData → jsonObject jsonData = some data →
    sectionEntries data .quotes = some []

/-! ## Imports -/

/-- Decoded JSON holds no object. -/
theorem isObject_of_section {text : String} {data es : List (String × Val)} {n : BoxName}
    (h : jsonObject text = some data) (hs : sectionEntries data n = some es) (k : String)
    (q : Quote) : (k, Json.object q) ∉ es := by
  obtain ⟨v, -, hd⟩ := Option.bind_eq_some_iff.mp h
  obtain ⟨v', hlook, hes⟩ := Option.bind_eq_some_iff.mp hs
  obtain ⟨m, rfl⟩ := Json.entries?_ofPlain hd
  obtain ⟨p, rfl⟩ := Json.lookup_ofPlainEntries hlook
  obtain ⟨m', rfl⟩ := Json.entries?_ofPlain hes
  exact Json.object_notMem_ofPlainEntries k q m'

/-- The quotes box after a completed import holds the entries of the section. -/
theorem quotes_importData {text : String} {s s' : Store}
    (h : step s (.importData text) = some s') :
    ∃ data es, jsonObject text = some data ∧ sectionEntries data .quotes = some es ∧
      s'.quotes = Box.putAll es ∅ := by
  unfold step at h
  cases hobj : jsonObject text with
  | none =>
    have herr := error_ne_none_of_not_object hobj (fun _ => false) s
    cases he : (HiveQuoteService.importData (fun _ => false) text s).error with
    | none => exact absurd he herr
    | some err =>
      simp only [he] at h
      cases h
  | some data =>
    cases he : (HiveQuoteService.importData (fun _ => false) text s).error with
    | some err =>
      simp only [he] at h
      cases h
    | none =>
      simp only [he] at h
      obtain rfl := Option.some.inj h
      obtain ⟨hsec, -⟩ := (error_eq_none_iff hobj (fun _ => false) s).mp he
      choose es hes using fun n => Option.isSome_iff_exists.mp (hsec n)
      obtain ⟨v, hv, hd⟩ := Option.bind_eq_some_iff.mp hobj
      exact ⟨data, es .quotes, rfl, hes .quotes, (importData_of_sections hv hd hes s).2.2 .quotes⟩

/-- An imported quotes box is well typed only when it is empty. -/
theorem wellTyped_importData_iff {text : String} {s s' : Store}
    (h : step s (.importData text) = some s') :
    WellTyped s'.quotes ↔ ImportsNoQuotes (.importData text) := by
  obtain ⟨data, es, hobj, hes, hbox⟩ := quotes_importData h
  have hnone : ImportsNoQuotes (.importData text) ↔ es = [] := by
    constructor
    · intro hno
      have := hno text data rfl hobj
      rw [hes] at this
      exact Option.some.inj this
    · rintro rfl text' data' heq hobj'
      cases heq
      obtain rfl : data = data' := Option.some.inj (hobj.symm.trans hobj')
      exact hes
  rw [hnone, hbox]
  constructor
  · intro hw
    by_contra hne
    obtain ⟨k, v, hk⟩ := Box.exists_getElem?_of_ne_empty (Box.putAll_ne_empty hne ∅)
    obtain ⟨q, rfl, -⟩ := hw k v hk
    rcases Box.getElem?_putAll hk with hmem | hmem
    · exact isObject_of_section hobj hes k q hmem
    · exact absurd hmem Box.getElem?_empty_ne
  · rintro rfl
    exact wellTyped_empty

/-! ## Steps -/

/-- Every operation but an import keeps the box well typed. -/
theorem wellTyped_step {s s' : Store} {a : StoreOp} (hw : WellTyped s.quotes)
    (h : step s a = some s') (ha : ImportsNoQuotes a) : WellTyped s'.quotes := by
  cases a with
  | addQuote quote =>
    obtain rfl := Option.some.inj h
    exact hw.addQuote quote
  | updateQuote quote =>
    obtain rfl := Option.some.inj h
    exact hw.put_self quote
  | removeQuote id =>
    obtain rfl := Option.some.inj h
    exact hw.delete id
  | saveAffirmationToQuote quoteId affirmation =>
    obtain ⟨b, hb, rfl⟩ := Option.map_eq_some_iff.mp h
    exact hw.saveAffirmationToQuote hb
  | fetchQuoteFromAnthropic result =>
    obtain rfl := Option.some.inj h
    exact hw.storeFetched result
  | importData text => exact (wellTyped_importData_iff h).mpr ha
  | restart =>
    obtain rfl := Option.some.inj h
    exact hw.initializeBoxes

/-- A state of the run is sound when its quotes box is well typed. -/
theorem sound_iff_wellTyped {s s' : Store} {a : StoreOp} (h : step s a = some s') :
    Sound s a s' ↔ WellTyped s'.quotes := by
  refine ⟨fun hs => hs.2.1, fun hw => ⟨?_, hw, hw.getAllQuotes_isSome⟩⟩
  rintro rfl
  obtain rfl := Option.some.inj h
  exact initializeBoxes_ne_empty s.quotes

/-- The first `initialize` yields a well-typed box. -/
theorem wellTyped_initializeBoxes_of_start {b : Box Val} (h : Start b) :
    WellTyped (initializeBoxes b) := by
  rcases h with rfl | hmaps | hw
  · exact wellTyped_empty.initializeBoxes
  · by_cases hne : b = ∅
    · rw [hne]
      exact wellTyped_empty.initializeBoxes
    · -- the first entry is a map, so the box is cleared
      cases hv : b.getAt 0 with
      | none => exact absurd (Box.getAt_zero_eq_none_iff.mp hv) hne
      | some v =>
        obtain ⟨k, hk⟩ := Box.mem_values.mp (Box.getAt_zero_mem hv)
        rw [initializeBoxes_of_isMap (by rw [hv]; exact hmaps k v hk)]
        exact wellTyped_empty.loadInitialQuotes
  · exact hw.initializeBoxes

/-! ## Runs -/

/-- **The store over whole runs.** From the first `initialize` on, all states of a run are sound
exactly when no import brings entries into the quotes box; and `initialize` leaves every box of
quotes that is not empty as it is. -/
theorem sound_iff (s : Store) (hs : Start s.quotes) (ops : List StoreOp) :
    (Run.Each step Sound s (.restart :: ops) ↔
      Run.Each step (fun _ a _ => ImportsNoQuotes a) s (.restart :: ops)) ∧
    ∀ b : Box Val, (∀ (k : String) (v : Val), b[k]? = some v → ∃ q : Quote, v = .object q) →
      b ≠ ∅ → initializeBoxes b = b := by
  refine ⟨?_, fun b hq hne => initializeBoxes_of_quotes hq hne⟩
  have hw := wellTyped_initializeBoxes_of_start hs
  have hstep : step s .restart = some { s with quotes := initializeBoxes s.quotes } := rfl
  have hrun : ∀ s₁ : Store, WellTyped s₁.quotes → (Run.Each step Sound s₁ ops ↔
      Run.Each step (fun _ a _ => ImportsNoQuotes a) s₁ ops) :=
    Run.each_iff_of_invariant (I := fun s => WellTyped s.quotes)
      (fun s₁ a s₂ h₁ h₂ => by
        rw [sound_iff_wellTyped h₂]
        refine ⟨fun hw₂ => ?_, wellTyped_step h₁ h₂⟩
        cases a with
        | importData text => exact (wellTyped_importData_iff h₂).mp hw₂
        | _ => intro jsonData data heq; cases heq)
      (fun s₁ a s₂ h₁ h₂ => wellTyped_step h₁ h₂) ops
  rw [Run.each_cons_of_step hstep, Run.each_cons_of_step hstep, hrun _ hw,
    sound_iff_wellTyped hstep]
  refine and_congr_left fun _ => ⟨fun _ jsonData data heq => ?_, fun _ => hw⟩
  cases heq

/-- A fresh installation. -/
def fresh : Store := ⟨∅, ∅, ∅, ∅, ∅⟩

/-- A run without imports, from a fresh installation. -/
theorem sound_of_fetch :
    Run.Each step Sound fresh
      [.restart, .fetchQuoteFromAnthropic (some beStill), .removeQuote "ai_1", .restart] := by
  refine (sound_iff _ (Or.inl rfl) _).1.mpr ?_
  have hno : ∀ a : StoreOp, (∀ text, a ≠ .importData text) → ImportsNoQuotes a :=
    fun a ha jsonData data heq => (ha jsonData heq).elim
  exact fun _ _ => ⟨hno _ (by simp), fun _ _ => ⟨hno _ (by simp), fun _ _ => ⟨hno _ (by simp),
    fun _ _ => ⟨hno _ (by simp), trivial⟩⟩⟩⟩

/-- A backup whose one quote is written as a map. -/
def backupOfMap : BoxName → List (String × Plain)
  | .quotes => [("bible_1", .map beStill.toMap)]
  | _ => []

/-- Import the backup, fetch a quote whose id comes first, restart. -/
def importRun : List StoreOp :=
  [.restart, .importData (String.ofList (print (exported backupOfMap))),
    .fetchQuoteFromAnthropic (some beStill), .restart]

theorem wf_backupOfMap : (exported backupOfMap).Wf := by
  refine ⟨by decide, ⟨by decide, beStill.wf_toMap, trivial⟩, ?_⟩
  exact ⟨⟨by decide, trivial⟩, ⟨by decide, trivial⟩, ⟨by decide, trivial⟩, trivial⟩

theorem step_importData_of_sections {text : String} {v : Plain} {data : List (String × Val)}
    (hv : jsonDecode text = some v) (hd : (Json.ofPlain v : Val).entries? = some data)
    {es : BoxName → List (String × Val)} (hes : ∀ n, sectionEntries data n = some (es n))
    (s : Store) : ∃ s', step s (.importData text) = some s' ∧
      s'.quotes = Box.putAll (es .quotes) ∅ := by
  obtain ⟨herr, -, hbox⟩ := importData_of_sections hv hd hes s
  exact ⟨_, by simp only [step, herr], hbox .quotes⟩

/-- The last `initialize` of the run sees the quote, keeps the map behind it, and `getAllQuotes`
throws. -/
theorem not_sound_importRun :
    (∃ s, Run.final step fresh importRun = some s ∧ getAllQuotes s.quotes = none) ∧
      ¬ Run.Each step Sound fresh importRun := by
  have hsec : ∀ n, sectionEntries (Json.ofPlainEntries (BoxName.all.map fun n =>
      (n.key, Json.map (backupOfMap n)))) n = some (Json.ofPlainEntries (backupOfMap n)) := by
    intro n
    cases n <;> rfl
  have h₁ : step fresh .restart = some { fresh with quotes := initializeBoxes ∅ } := rfl
  obtain ⟨s₂, h₂, hbox⟩ := step_importData_of_sections (jsonDecode_print wf_backupOfMap) rfl hsec
    { fresh with quotes := initializeBoxes ∅ }
  have hcast : getAllQuotes s₂.quotes = none := by
    rw [hbox]
    rfl
  constructor
  · refine ⟨{ s₂ with
      quotes := initializeBoxes (HiveQuoteService.addQuote beStill s₂.quotes) }, ?_, ?_⟩
    · unfold importRun
      rw [Run.final_cons h₁, Run.final_cons h₂]
      rfl
    · show getAllQuotes (initializeBoxes (HiveQuoteService.addQuote beStill s₂.quotes)) = none
      rw [hbox]
      rfl
  · intro hE
    obtain ⟨⟨-, -, hsome⟩, -⟩ := (Run.each_cons_of_step h₂).mp ((Run.each_cons_of_step h₁).mp hE).2
    rw [hcast] at hsome
    cases hsome

end StoreOp

end MotiAI
