import MotiAI.Lib.Flight
import MotiAI.Notepad
import MotiAI.VarietyOverlap

/-!
# Affirmations under pending requests for a quote

The affirmations a user asks for on the quote screen, from the request over the dialog to the two
writes of Save, between them the moves of the requests for a new quote. The screen reads its current
quote when it asks for the affirmation and once more when Save is pressed.

`attributed_iff`: every save is attributed to the quote the affirmation was generated from exactly
when Save is always pressed while that quote is displayed.
-/

namespace MotiAI

open Dart Hive

namespace AffirmationService

/-- `saveAffirmation` up to its first await. -/
def putAffirmation (affirmation : String) (originalQuote : Quote) (timestamp : ℤ)
    (createdAt : String) (n : Notepad) : Notepad :=
  { n with
    affirmations := n.affirmations.insert (affirmationId timestamp)
      ⟨true, affirmationData affirmation originalQuote timestamp createdAt⟩ }

/-- `saveAffirmation` after its first await. -/
def putOnQuote (affirmation : String) (quoteId : String) (n : Notepad) : Notepad :=
  { n with
    quotes := (HiveQuoteService.saveAffirmationToQuote quoteId affirmation n.quotes).getD n.quotes }

theorem saveAffirmation_eq (affirmation : String) (originalQuote : Quote) (timestamp : ℤ)
    (createdAt : String) (n : Notepad) :
    saveAffirmation affirmation originalQuote timestamp createdAt n =
      putOnQuote affirmation originalQuote.id
        (putAffirmation affirmation originalQuote timestamp createdAt n) := rfl

theorem getElem?_putAffirmation (affirmation : String) (originalQuote : Quote) (timestamp : ℤ)
    (createdAt : String) (n : Notepad) :
    (putAffirmation affirmation originalQuote timestamp createdAt n).affirmations[
        affirmationId timestamp]? =
      some ⟨true, affirmationData affirmation originalQuote timestamp createdAt⟩ :=
  Box.getElem?_put_self _ _ _

end AffirmationService

open AffirmationService

/-- Where an affirmation stands: asked for, shown in the dialog, or with its map put and the quote
still to be written. -/
inductive AffirmationStage where
  | generating
  | shown (affirmation : String)
  | saving (affirmation : String) (originalQuote : Quote)
  | closed

/-- An affirmation, with the quote that was sent to `generateAffirmation`. -/
structure AffirmationRequest where
  sent : Quote
  stage : AffirmationStage

structure Desk where
  world : World := {}
  notepad : Notepad := {}
  affirmations : List AffirmationRequest := []

inductive DeskMove where
  | screen (m : Move)
  | generateAffirmation
  | answer (i : ℕ) (affirmation : Option String)
  | save (i : ℕ) (timestamp : ℤ) (createdAt : String)
  | saved (i : ℕ)
  | close (i : ℕ)

namespace Desk

/-- `_currentQuote`. -/
def currentQuote (d : Desk) : Option Quote := d.world.session.screen.currentQuote

def setStage (i : ℕ) (sent : Quote) (stage : AffirmationStage) (d : Desk) : Desk :=
  { d with affirmations := d.affirmations.set i ⟨sent, stage⟩ }

def step [CaseMap] (d : Desk) : DeskMove → Option Desk
  | .screen m => (d.world.step m).map fun w => { d with world := w }
  | .generateAffirmation =>
    match d.currentQuote with
    | none => some d
    | some quote => some { d with affirmations := d.affirmations ++ [⟨quote, .generating⟩] }
  | .answer i affirmation =>
    match d.affirmations[i]? with
    | some ⟨sent, .generating⟩ =>
      match affirmation with
      | some affirmation => some (d.setStage i sent (.shown affirmation))
      | none => some (d.setStage i sent .closed)
    | _ => none
  | .save i timestamp createdAt =>
    match d.affirmations[i]?, d.currentQuote with
    | some ⟨sent, .shown affirmation⟩, some quote =>
      some { d.setStage i sent (.saving affirmation quote) with
        notepad := putAffirmation affirmation quote timestamp createdAt d.notepad }
    | _, _ => none
  | .saved i =>
    match d.affirmations[i]? with
    | some ⟨sent, .saving affirmation quote⟩ =>
      some { d.setStage i sent .closed with notepad := putOnQuote affirmation quote.id d.notepad }
    | _ => none
  | .close i =>
    match d.affirmations[i]? with
    | some ⟨sent, .shown _⟩ => some (d.setStage i sent .closed)
    | _ => none

/-! ## What is expected -/

/-- The data of a quote that an entry of the notepad holds. -/
def SameSource (quote sent : Quote) : Prop :=
  quote.id = sent.id ∧ quote.text = sent.text ∧ quote.author = sent.author ∧
    quote.tradition = sent.tradition

/-- A save puts the entry of the quote that was sent, and writes the affirmation to that quote. -/
structure Attributed (d : Desk) (m : DeskMove) (d' : Desk) : Prop where
  entry : ∀ (i : ℕ) (timestamp : ℤ) (createdAt : String) (sent : Quote) (affirmation : String),
    m = .save i timestamp createdAt → d.affirmations[i]? = some ⟨sent, .shown affirmation⟩ →
    d'.notepad.affirmations[affirmationId timestamp]? =
      some ⟨true, affirmationData affirmation sent timestamp createdAt⟩
  quote : ∀ (i : ℕ) (sent : Quote) (affirmation : String) (originalQuote : Quote), m = .saved i →
    d.affirmations[i]? = some ⟨sent, .saving affirmation originalQuote⟩ →
    d'.notepad = putOnQuote affirmation sent.id d.notepad

/-- Save is pressed while the quote that was sent is displayed. -/
def StillDisplayed (d : Desk) (m : DeskMove) (_ : Desk) : Prop :=
  ∀ (i : ℕ) (timestamp : ℤ) (createdAt : String) (sent : Quote) (affirmation : String)
    (quote : Quote), m = .save i timestamp createdAt →
    d.affirmations[i]? = some ⟨sent, .shown affirmation⟩ → d.currentQuote = some quote →
    SameSource quote sent

/-- A save that has not written its quote yet was made for the quote that was sent. -/
def SavesSent (d : Desk) : Prop :=
  ∀ (i : ℕ) (sent : Quote) (affirmation : String) (originalQuote : Quote),
    d.affirmations[i]? = some ⟨sent, .saving affirmation originalQuote⟩ →
    originalQuote.id = sent.id

theorem affirmationData_inj {affirmation : String} {quote sent : Quote} {timestamp : ℤ}
    {createdAt : String} :
    affirmationData affirmation quote timestamp createdAt =
      affirmationData affirmation sent timestamp createdAt ↔ SameSource quote sent := by
  unfold affirmationData SameSource
  simp

/-! ## What a step can do -/

/-- A stage that is set is the new one; the others are as they were. -/
theorem getElem?_setStage {d : Desk} {i j : ℕ} {sent sent' : Quote}
    {stage stage' : AffirmationStage}
    (h : (d.setStage i sent stage).affirmations[j]? = some ⟨sent', stage'⟩) :
    sent' = sent ∧ stage' = stage ∨ d.affirmations[j]? = some ⟨sent', stage'⟩ := by
  rcases Flight.set_cases h with ⟨-, heq⟩ | ⟨-, hj⟩
  · exact Or.inl (AffirmationRequest.mk.inj heq)
  · exact Or.inr hj

/-- A stage without a pending write keeps the pending ones. -/
theorem SavesSent.setStage {d : Desk} (h : SavesSent d) {i : ℕ} {sent : Quote}
    {stage : AffirmationStage}
    (hstage : ∀ affirmation originalQuote, stage = .saving affirmation originalQuote →
      originalQuote.id = sent.id) : SavesSent (d.setStage i sent stage) := by
  intro j sent' affirmation originalQuote hj
  rcases getElem?_setStage hj with ⟨rfl, heq⟩ | hj
  · exact hstage affirmation originalQuote heq.symm
  · exact h j sent' affirmation originalQuote hj

section

variable [CaseMap]

/-- A save that goes through. -/
theorem step_save {d d' : Desk} {i : ℕ} {timestamp : ℤ} {createdAt : String}
    (hs : step d (.save i timestamp createdAt) = some d') :
    ∃ sent affirmation quote, d.affirmations[i]? = some ⟨sent, .shown affirmation⟩ ∧
      d.currentQuote = some quote ∧
      d' = { d.setStage i sent (.saving affirmation quote) with
        notepad := putAffirmation affirmation quote timestamp createdAt d.notepad } := by
  simp only [step] at hs
  split at hs
  · rename_i sent affirmation quote hi hcurrent
    exact ⟨sent, affirmation, quote, hi, hcurrent, (Option.some.inj hs).symm⟩
  · cases hs

/-- What a save of the dialog `i` writes. -/
theorem step_save_of_shown {d d' : Desk} {i : ℕ} {timestamp : ℤ} {createdAt : String} {sent : Quote}
    {affirmation : String} (hi : d.affirmations[i]? = some ⟨sent, .shown affirmation⟩)
    (hs : step d (.save i timestamp createdAt) = some d') :
    ∃ quote, d.currentQuote = some quote ∧
      d'.notepad = putAffirmation affirmation quote timestamp createdAt d.notepad := by
  obtain ⟨sent', affirmation', quote, hi', hcurrent, rfl⟩ := step_save hs
  rw [hi] at hi'
  obtain ⟨-, hstage⟩ := AffirmationRequest.mk.inj (Option.some.inj hi')
  obtain rfl := AffirmationStage.shown.inj hstage
  exact ⟨quote, hcurrent, rfl⟩

theorem step_saved {d d' : Desk} {i : ℕ} (hs : step d (.saved i) = some d') :
    ∃ sent affirmation quote, d.affirmations[i]? = some ⟨sent, .saving affirmation quote⟩ ∧
      d' = { d.setStage i sent .closed with
        notepad := putOnQuote affirmation quote.id d.notepad } := by
  simp only [step] at hs
  split at hs
  · rename_i sent affirmation quote hi
    exact ⟨sent, affirmation, quote, hi, (Option.some.inj hs).symm⟩
  · cases hs

/-- A save is attributed exactly when the quote that was sent is displayed. -/
theorem SavesSent.attributed_iff_displayed {d d' : Desk} {m : DeskMove} (h : SavesSent d)
    (hs : step d m = some d') : Attributed d m d' ↔ StillDisplayed d m d' := by
  constructor
  · intro hA i timestamp createdAt sent affirmation quote hm hi hcurrent
    subst hm
    obtain ⟨quote', hcurrent', hnotepad⟩ := step_save_of_shown hi hs
    obtain rfl := Option.some.inj (hcurrent.symm.trans hcurrent')
    have hentry := hA.entry i timestamp createdAt sent affirmation rfl hi
    rw [hnotepad, getElem?_putAffirmation] at hentry
    exact affirmationData_inj.mp (StoredMap.mk.inj (Option.some.inj hentry)).2
  · intro hP
    constructor
    · intro i timestamp createdAt sent affirmation hm hi
      subst hm
      obtain ⟨quote, hcurrent, hnotepad⟩ := step_save_of_shown hi hs
      have hsame := hP i timestamp createdAt sent affirmation quote rfl hi hcurrent
      rw [hnotepad, getElem?_putAffirmation, affirmationData_inj.mpr hsame]
    · intro i sent affirmation originalQuote hm hi
      subst hm
      obtain ⟨sent', affirmation', quote, hi', rfl⟩ := step_saved hs
      rw [hi] at hi'
      obtain ⟨rfl, hstage⟩ := AffirmationRequest.mk.inj (Option.some.inj hi')
      obtain ⟨rfl, rfl⟩ := AffirmationStage.saving.inj hstage
      show putOnQuote affirmation originalQuote.id d.notepad = _
      rw [h i sent affirmation originalQuote hi]

theorem SavesSent.step {d d' : Desk} {m : DeskMove} (h : SavesSent d) (hs : step d m = some d')
    (hP : StillDisplayed d m d') : SavesSent d' := by
  cases m with
  | screen m =>
    simp only [Desk.step] at hs
    obtain ⟨w, -, rfl⟩ := Option.map_eq_some_iff.mp hs
    exact h
  | generateAffirmation =>
    simp only [Desk.step] at hs
    split at hs
    · obtain rfl := Option.some.inj hs
      exact h
    · obtain rfl := Option.some.inj hs
      intro j sent affirmation originalQuote hj
      rcases Flight.concat_cases hj with hj | ⟨-, heq⟩
      · exact h j sent affirmation originalQuote hj
      · cases heq
  | answer i affirmation =>
    simp only [Desk.step] at hs
    split at hs
    · split at hs
      · obtain rfl := Option.some.inj hs
        exact h.setStage (by simp)
      · obtain rfl := Option.some.inj hs
        exact h.setStage (by simp)
    · cases hs
  | save i timestamp createdAt =>
    obtain ⟨sent, affirmation, quote, hi, hcurrent, rfl⟩ := step_save hs
    have hsame := hP i timestamp createdAt sent affirmation quote rfl hi hcurrent
    refine SavesSent.setStage (d := d) h fun affirmation' originalQuote heq => ?_
    obtain ⟨rfl, rfl⟩ := AffirmationStage.saving.inj heq
    exact hsame.1
  | saved i =>
    obtain ⟨sent, affirmation, quote, -, rfl⟩ := step_saved hs
    exact SavesSent.setStage (d := d) h (by simp)
  | close i =>
    simp only [Desk.step] at hs
    split at hs
    · obtain rfl := Option.some.inj hs
      exact h.setStage (by simp)
    · cases hs

/-- **An affirmation stays with its quote** along a run exactly when every Save is pressed while the
quote that was sent is displayed. -/
theorem attributed_iff (n : Notepad) (moves : List DeskMove) :
    Run.Each Desk.step Attributed { notepad := n } moves ↔
      Run.Each Desk.step StillDisplayed { notepad := n } moves :=
  Run.each_iff_of_invariant (I := SavesSent) (P := StillDisplayed) (Q := Attributed)
    (fun _ _ _ h hs => h.attributed_iff_displayed hs) (fun _ _ _ h hs hP => h.step hs hP) moves _
    (fun _ _ _ _ hi => by cases hi)

end

/-! ## A new quote before Save -/

def calmQuote : Quote := ⟨"ai_1", "Be calm.", "Rumi", "Sufi", "Inspiration", "", none⟩

def boldQuote : Quote := ⟨"ai_2", "Be bold.", "Lao Tzu", "Taoism", "Inspiration", "", none⟩

/-- The affirmation is asked for while a press of New Quote is pending, and shown after the press has
displayed its quote. -/
def beforeSave : List DeskMove :=
  [.screen (.resume 0 (.start true)), .screen (.resume 0 (.answer (some calmQuote))),
    .screen (.resume 0 .display), .screen .newQuote, .screen (.resume 1 (.start true)),
    .generateAffirmation, .screen (.resume 1 (.answer (some boldQuote))),
    .screen (.resume 1 .display), .answer 0 (some "I am calm.")]

/-- The affirmation of the first quote is saved as one of the second. -/
theorem not_attributed_newQuote :
    ¬ Run.Each (@step CaseMap.ascii) Attributed {} (beforeSave ++ [.save 0 5 ""]) := by
  intro hE
  obtain ⟨d, hd, hi, hcurrent⟩ : ∃ d, Run.final (@step CaseMap.ascii) {} beforeSave = some d ∧
      d.affirmations[0]? = some ⟨calmQuote, .shown "I am calm."⟩ ∧
      d.currentQuote = some boldQuote := ⟨_, rfl, rfl, rfl⟩
  obtain ⟨d', hs⟩ : ∃ d', @step CaseMap.ascii d (.save 0 5 "") = some d' := by
    simp only [step, hi, hcurrent]
    exact ⟨_, rfl⟩
  have hlast := (((Run.each_append hd).mp hE).2 d' hs).1
  have hentry := hlast.entry 0 5 "" calmQuote "I am calm." rfl hi
  obtain ⟨quote, hquote, hnotepad⟩ := @step_save_of_shown CaseMap.ascii _ _ _ _ _ _ _ hi hs
  obtain rfl : boldQuote = quote := Option.some.inj (hcurrent.symm.trans hquote)
  rw [hnotepad, getElem?_putAffirmation] at hentry
  have hdata := (StoredMap.mk.inj (Option.some.inj hentry)).2
  have hid : boldQuote.id = calmQuote.id := congrArg Affirmation.originalQuoteId hdata
  exact absurd hid (by decide)

end Desk

end MotiAI
