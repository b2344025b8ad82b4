import MotiAI.Audio.Ownership
import MotiAI.QuoteScreen

/-!
# The audio switch

The screen's switch and the service's flag, over sequences of quote displays and toggles that each
complete before the next; the player calls succeed, a decoding may fail.

`faithful_iff`: after the first display the flag equals the switch throughout a run exactly when
audio is never switched on with the tradition remembered from before, no tradition repeats while its
audio did not start, and no selected AI audio fails for good. The suppression of repeats does not
know of the stop in between.
-/

namespace MotiAI

open Dart Hive

namespace Audio

/-- A stop that goes through has something to stop whenever audio plays. -/
def Stoppable (a : Audio) : Prop := a.isPlaying = true → a.currentPlayer ≠ none

section

variable {a : Audio} {d : Bool}

theorem isPlaying_stopAmbience (h : Stoppable a) :
    (stopAmbience { decode := d } a).isPlaying = false := by
  rcases stop_cases { decode := d } a with hidle | ⟨-, -, hthrow⟩ | ⟨p, hp, hplaying, hs, hd⟩
  · rw [stopAmbience_of_idle hidle]
    rcases hidle with hn | hf
    · exact Bool.eq_false_iff.mpr fun hp => h hp hn
    · exact hf
  · rcases hthrow with hthrow | hthrow <;> cases hthrow
  · rw [stopAmbience_of_playing hp hplaying hs hd]
    rfl

theorem isPlaying_playLocalAudio (tradition audioFile : String) :
    (playLocalAudio { decode := d } tradition audioFile a).isPlaying = true := rfl

section

variable [CaseMap]

/-- The audio decodes, or else its id yields a tradition for a local file. -/
def Sounds (decodeFails : Bool) (audioId audioData : String) : Prop :=
  decodes { decode := decodeFails } audioData = true ∨
    (extractTraditionFromAudioId audioId).isSome = true

/-- The AI audio `playAmbience` selects, if any, can be played or replaced. -/
def SelectionSounds (decodeFails : Bool) (picks : Picks) (cachedAudio : Box String)
    (tradition : String) (a : Audio) : Prop :=
  ∀ audioId audioData, selectAudio tradition cachedAudio picks.key (a.playedAudioKeys tradition) =
    some (audioId, audioData) → Sounds decodeFails audioId audioData

theorem isPlaying_playAIAudio (shuffle : Shuffle String) (tradition audioData audioId : String)
    (h : a.isPlaying = false) :
    (playAIAudio { decode := d } shuffle tradition audioData audioId a).isPlaying = true ↔
      Sounds d audioId audioData := by
  unfold playAIAudio Sounds
  cases hdec : decodes { decode := d } audioData with
  | true =>
    refine ⟨fun _ => Or.inl rfl, fun _ => ?_⟩
    rfl
  | false =>
    cases hx : extractTraditionFromAudioId audioId with
    | none =>
      show a.isPlaying = true ↔ _
      simp [h]
    | some extracted => exact ⟨fun _ => Or.inr rfl, fun _ => rfl⟩

theorem isPlaying_playSelected (h : a.isPlaying = false) (picks : Picks)
    (cachedAudio : Box String) (tradition : String) :
    (playSelected { decode := d } picks cachedAudio tradition a).isPlaying = true ↔
      SelectionSounds d picks cachedAudio tradition a := by
  unfold playSelected SelectionSounds
  cases hsel : selectAudio tradition cachedAudio picks.key (a.playedAudioKeys tradition) with
  | none =>
    refine ⟨fun _ _ _ heq => ?_, fun _ => isPlaying_playLocalAudio _ _⟩
    cases heq
  | some sel =>
    obtain ⟨audioId, audioData⟩ := sel
    refine Iff.trans (isPlaying_playAIAudio picks.file tradition audioData audioId h) ?_
    refine ⟨fun hs i d heq => ?_, fun hs => hs audioId audioData rfl⟩
    cases heq
    exact hs

theorem isPlaying_playAmbience (h : Stoppable a) {picks : Picks} {cachedAudio : Box String}
    {tradition : String} (hlast : a.lastAudioTradition ≠ some tradition) :
    (playAmbience { decode := d } picks cachedAudio tradition a).isPlaying = true ↔
      SelectionSounds d picks cachedAudio tradition a := by
  have hstop : Stoppable { a with lastAudioTradition := some tradition } := h
  rw [playAmbience_of_ne _ picks cachedAudio hlast,
    isPlaying_playSelected (isPlaying_stopAmbience hstop)]
  unfold SelectionSounds
  rw [playedAudioKeys_stopAmbience]

theorem Stoppable.playAmbience (h : Stoppable a) (f : Faults) (picks : Picks)
    (cachedAudio : Box String) (tradition : String) :
    Stoppable (playAmbience f picks cachedAudio tradition a) := by
  by_cases hlast : a.lastAudioTradition = some tradition
  · rw [playAmbience_of_eq f picks cachedAudio hlast]
    exact h
  · -- a new player is held
    intro _ hnone
    rw [playAmbience_of_ne f picks cachedAudio hlast] at hnone
    obtain ⟨hone, htwo⟩ := playSelected_adds f picks cachedAudio tradition
      (stopAmbience f { a with lastAudioTradition := some tradition })
    by_cases hsel : SelectionGoesThrough f picks cachedAudio tradition
        (stopAmbience f { a with lastAudioTradition := some tradition })
    · rw [(hone hsel).current] at hnone
      cases hnone
    · obtain ⟨b, -, hb⟩ := htwo hsel
      rw [hb.current] at hnone
      cases hnone

end

end

end Audio

/-! ## The screen with its audio -/

/-- What a `playAmbience` finds: the shuffles, the box of cached audio, and whether a decoding
fails. -/
structure AudioInput where
  picks : Picks
  cachedAudio : Box String
  decodeFails : Bool

/-- A quote is displayed, by the initial load or a press of New Quote, or the switch is toggled. -/
inductive SwitchEvent where
  | display (isNew : Bool) (quote : Quote) (input : AudioInput)
  | toggleAudio (input : AudioInput)

structure App where
  screen : QuoteScreen := {}
  audio : Audio := {}

namespace App

open Audio

/-- While the switch is off nothing plays, and what plays can be stopped. -/
structure Settled (s : App) : Prop where
  off : s.screen.isAudioEnabled = false → s.audio.isPlaying = false
  stoppable : Stoppable s.audio

theorem settled_start : Settled {} := ⟨fun _ => rfl, fun h => by cases h⟩

section

variable [CaseMap]

def playAmbience (input : AudioInput) (tradition : String) (a : Audio) : Audio :=
  Audio.playAmbience { decode := input.decodeFails } input.picks input.cachedAudio tradition a

/-- The display of a quote, with the audio part of `_generateBackgroundImage`. -/
def display (isNew : Bool) (quote : Quote) (input : AudioInput) (s : App) : App where
  screen := if isNew then s.screen.showNew quote else s.screen.showInitial quote
  audio := if s.screen.isAudioEnabled then playAmbience input quote.tradition s.audio else s.audio

/-- `_toggleAudio`, once a quote is displayed. -/
def toggleAudio (input : AudioInput) (quote : Quote) (s : App) : App where
  screen := { s.screen with isAudioEnabled := !s.screen.isAudioEnabled }
  audio :=
    if !s.screen.isAudioEnabled then playAmbience input quote.tradition s.audio
    else stopAmbience { decode := input.decodeFails } s.audio

def step (s : App) : SwitchEvent → Option App
  | .display isNew quote input => some (display isNew quote input s)
  | .toggleAudio input => s.screen.currentQuote.map fun quote => toggleAudio input quote s

/-- The flag of the service equals the switch. -/
def Faithful (_ : App) (_ : SwitchEvent) (s : App) : Prop :=
  s.audio.isPlaying = s.screen.isAudioEnabled

/-- A tradition does not repeat the remembered one, unless its audio plays, and what is selected for
it sounds; switching on never repeats it. -/
def Audible (s : App) (e : SwitchEvent) (_ : App) : Prop :=
  match e with
  | .display _ quote input => s.screen.isAudioEnabled = true →
    if s.audio.lastAudioTradition = some quote.tradition then s.audio.isPlaying = true
    else SelectionSounds input.decodeFails input.picks input.cachedAudio quote.tradition s.audio
  | .toggleAudio input => s.screen.isAudioEnabled = false →
    ∀ quote, s.screen.currentQuote = some quote →
      s.audio.lastAudioTradition ≠ some quote.tradition ∧
        SelectionSounds input.decodeFails input.picks input.cachedAudio quote.tradition s.audio

theorem isAudioEnabled_display (isNew : Bool) (quote : Quote) (input : AudioInput) (s : App) :
    (display isNew quote input s).screen.isAudioEnabled = s.screen.isAudioEnabled := by
  cases isNew <;> rfl

theorem Settled.display {s : App} (h : Settled s) (isNew : Bool) (quote : Quote)
    (input : AudioInput) : Settled (s.display isNew quote input) := by
  cases hon : s.screen.isAudioEnabled with
  | true =>
    refine ⟨fun hoff => ?_, ?_⟩
    · rw [isAudioEnabled_display, hon] at hoff
      cases hoff
    · unfold App.display
      rw [hon]
      exact h.stoppable.playAmbience _ _ _ _
  | false =>
    unfold App.display
    rw [hon]
    exact ⟨fun _ => h.off hon, h.stoppable⟩

theorem Settled.toggleAudio {s : App} (h : Settled s) (input : AudioInput) (quote : Quote) :
    Settled (s.toggleAudio input quote) := by
  have hstop := isPlaying_stopAmbience (d := input.decodeFails) h.stoppable
  unfold App.toggleAudio
  cases s.screen.isAudioEnabled with
  | true => exact ⟨fun _ => hstop, fun hp => absurd (hp.symm.trans hstop) (by decide)⟩
  | false => exact ⟨fun hoff => (by cases hoff), h.stoppable.playAmbience _ _ _ _⟩

theorem settled_step {s s' : App} {e : SwitchEvent} (h : Settled s) (hs : step s e = some s') :
    Settled s' := by
  cases e with
  | display isNew quote input =>
    obtain rfl := Option.some.inj hs
    exact h.display isNew quote input
  | toggleAudio input =>
    obtain ⟨quote, -, rfl⟩ := Option.map_eq_some_iff.mp hs
    exact h.toggleAudio input quote

/-- A `playAmbience` with the switch on. -/
theorem isPlaying_iff {s : App} (h : Settled s) (input : AudioInput) (tradition : String) :
    (playAmbience input tradition s.audio).isPlaying = true ↔
      if s.audio.lastAudioTradition = some tradition then s.audio.isPlaying = true
      else SelectionSounds input.decodeFails input.picks input.cachedAudio tradition s.audio := by
  unfold playAmbience
  split
  · rename_i hlast
    unfold Audio.playAmbience
    rw [if_pos hlast]
  · rename_i hlast
    exact isPlaying_playAmbience h.stoppable hlast

theorem faithful_iff_audible {s s' : App} {e : SwitchEvent} (h : Settled s)
    (hs : step s e = some s') : Faithful s e s' ↔ Audible s e s' := by
  cases e with
  | display isNew quote input =>
    obtain rfl := Option.some.inj hs
    unfold Faithful Audible
    rw [isAudioEnabled_display]
    unfold display
    cases hon : s.screen.isAudioEnabled with
    | true =>
      simp only [if_true, forall_const]
      exact isPlaying_iff h input quote.tradition
    | false => exact ⟨fun _ hf => (by cases hf), fun _ => h.off hon⟩
  | toggleAudio input =>
    obtain ⟨quote, hquote, rfl⟩ := Option.map_eq_some_iff.mp hs
    unfold Faithful Audible toggleAudio
    cases hon : s.screen.isAudioEnabled with
    | true =>
      exact ⟨fun _ hf => (by cases hf), fun _ => isPlaying_stopAmbience h.stoppable⟩
    | false =>
      simp only [hquote, Bool.not_false, if_true, forall_const, Option.some.injEq, forall_eq']
      rw [isPlaying_iff h input quote.tradition, h.off hon]
      by_cases hlast : s.audio.lastAudioTradition = some quote.tradition
      · simp [hlast]
      · simp [hlast]

/-- **The audio switch.** After the first display, the flag equals the switch throughout a run
exactly when all its events are audible. -/
theorem faithful_iff (isNew : Bool) (quote : Quote) (input : AudioInput)
    (events : List SwitchEvent) :
    Run.Each step Faithful (display isNew quote input {}) events ↔
      Run.Each step Audible (display isNew quote input {}) events :=
  Run.each_iff_of_invariant (I := Settled) (P := Audible) (Q := Faithful)
    (fun _ _ _ h hs => faithful_iff_audible h hs) (fun _ _ _ h hs _ => settled_step h hs)
    events _ (settled_start.display isNew quote input)

end

/-- The first quote is displayed and sounds; off and on again, and nothing plays. -/
theorem not_faithful_off_on :
    (@display CaseMap.ascii false ⟨"zen_1", "", "", "Zen", "", "", none⟩
        ⟨⟨.keep, .keep⟩, ∅, false⟩ {}).audio.isPlaying = true ∧
      ¬ Run.Each (@step CaseMap.ascii) Faithful
        (@display CaseMap.ascii false ⟨"zen_1", "", "", "Zen", "", "", none⟩
          ⟨⟨.keep, .keep⟩, ∅, false⟩ {})
        [.toggleAudio ⟨⟨.keep, .keep⟩, ∅, false⟩, .toggleAudio ⟨⟨.keep, .keep⟩, ∅, false⟩] := by
  refine ⟨rfl, fun hE => ?_⟩
  rw [Run.each_cons_of_step rfl, Run.each_cons_of_step rfl] at hE
  obtain ⟨-, hon, -⟩ := hE
  cases hon

end App

end MotiAI
