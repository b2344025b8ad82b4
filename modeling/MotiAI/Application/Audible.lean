import MotiAI.Application.Audio
import MotiAI.Application.Variety

/-!
# What sounds

The calls of the audio service come from the quotes that are displayed and from the switch, and a
timer starts the audio again while it plays.

`audible_run`: from a fresh installation on, if the calls are made in order, then once all of them
have completed the tradition of the displayed quote sounds, or nothing when audio is off.
-/

namespace MotiAI

open Dart Hive HiveQuoteService

/-- Playing the source again changes nothing of what sounds. -/
theorem Players.sounding_replay {ps : Players} (hlocal : Players.AllLocal ps) {p q : ℕ}
    {t t' : String} (hp : Players.Sounding ps p t) (source : Source) :
    Players.Sounding (ps.replay p source) q t' ↔ Players.Sounding ps q t' := by
  obtain ⟨player, hplayer, hplaying, hloaded⟩ := hp
  have halive := (hlocal player (List.mem_of_getElem? hplayer)).alive hplaying
  unfold Players.Sounding Players.replay
  rw [List.getElem?_modify]
  by_cases hpq : p = q
  · subst hpq
    simp [hplayer, halive, hplaying]
  · simp [hpq]

namespace Calls

open Audio

/-- The stages with a new player. -/
def Stage.HasPlayer : Stage → Prop
  | .releasing _ | .starting => True
  | _ => False

/-- A new player has its file, and the timer runs only while an audio plays. -/
structure Timed (w : World) : Prop where
  path : ∀ c ∈ w.calls, c.stage.HasPlayer → w.audio.currentAudioFilePath.isSome = true
  timer : w.audio.audioTimer = true → w.audio.currentAudioFilePath.isSome = true ∧
    ∃ tradition, Playing w tradition

theorem timed_start : Timed {} where
  path := fun c hc => absurd hc List.not_mem_nil
  timer := fun htimer => by cases htimer

section

variable {w w' : World}

/-- Beside stops no player is new. -/
theorem Inv.not_hasPlayer (h : Inv w) (hstops : OnlyStops w) :
    ∀ c ∈ w.calls, ¬ c.stage.HasPlayer := by
  intro c hc
  have hstage : c.stage = .done ∨ c.stage = .stopping ∨ c.stage = .disposing := by
    cases h with
    | muted h => exact (h.stops c hc).imp_right And.right
    | playing tradition h => exact Or.inl (h.quiet c hc)
    | pending tradition i stage h => exact absurd hstops h.not_onlyStops
  rcases hstage with hstage | hstage | hstage <;> rw [hstage] <;> exact id

/-- A stop puts the timer off. -/
theorem beginStop_spec (call : Call) (a : Audio) :
    (beginStop call a).2.audioTimer = false ∧ ¬ (beginStop call a).1.HasPlayer := by
  unfold beginStop
  split
  · exact ⟨rfl, id⟩
  · refine ⟨rfl, ?_⟩
    cases call <;> exact id

/-- A call that begins with a stop, beside stops. -/
theorem Timed.beginStop (hI : Inv w) (hstops : OnlyStops w) (call : Call) (a : Audio)
    (lastCall : Option Call) :
    Timed ⟨(beginStop call a).2, w.calls ++ [⟨call, (beginStop call a).1⟩], lastCall⟩ := by
  obtain ⟨htimer, hstage⟩ := beginStop_spec call a
  refine ⟨fun c hc hplayer => ?_, fun htrue => ?_⟩
  · rcases List.mem_append.mp hc with hc | hc
    · exact absurd hplayer (hI.not_hasPlayer hstops c hc)
    · obtain rfl := List.mem_singleton.mp hc
      exact absurd hplayer hstage
  · rw [show (Calls.beginStop call a).2.audioTimer = true from htrue] at htimer
    cases htimer

/-- A repeated tradition. -/
theorem Timed.issue_repeated (h : Timed w) {tradition : String}
    (hlast : w.audio.lastAudioTradition = some tradition) :
    Timed ⟨w.audio, w.calls ++ [⟨.play tradition, .done⟩], some (.play tradition)⟩ := by
  refine ⟨fun c hc hplayer => ?_, fun htimer => ?_⟩
  · rcases List.mem_append.mp hc with hc | hc
    · exact h.path c hc hplayer
    · obtain rfl := List.mem_singleton.mp hc
      exact hplayer.elim
  · obtain ⟨hpath, t, hplaying⟩ := h.timer htimer
    obtain rfl : t = tradition := Option.some.inj (hplaying.last.symm.trans hlast)
    refine ⟨hpath, t, fun c hc => ?_, hplaying.player, hplaying.isPlaying, hlast, rfl⟩
    rcases List.mem_append.mp hc with hc | hc
    · exact hplaying.quiet c hc
    · rw [List.mem_singleton.mp hc]

variable [CaseMap]

/-- A call that goes on never loses the file, and sets the timer only at its end. -/
theorem advance_spec {call : Call} {input : AudioInput} (hcached : input.cachedAudio = ∅)
    {stage stage' : Stage} {a a' : Audio}
    (hlocal : ∀ source, stage = .releasing source → source.IsLocal)
    (ha : advance call input a stage = some (stage', a')) :
    (a.currentAudioFilePath.isSome = true → a'.currentAudioFilePath.isSome = true) ∧
      (stage'.HasPlayer → stage.HasPlayer ∨ a'.currentAudioFilePath.isSome = true) ∧
      (a'.audioTimer = a.audioTimer ∨ stage = .starting) := by
  cases stage with
  | stopping =>
    simp only [advance] at ha
    split at ha
    · obtain ⟨rfl, rfl⟩ := Prod.mk.inj (Option.some.inj ha)
      exact ⟨id, fun hplayer => hplayer.elim, Or.inl rfl⟩
    · obtain ⟨rfl, rfl⟩ := Prod.mk.inj (Option.some.inj ha)
      exact ⟨id, fun hplayer => by cases call <;> exact hplayer.elim, Or.inl rfl⟩
  | disposing =>
    obtain ⟨rfl, rfl⟩ := Prod.mk.inj (Option.some.inj ha)
    exact ⟨id, fun hplayer => by cases call <;> exact hplayer.elim, Or.inl rfl⟩
  | stopped =>
    cases call with
    | stop => cases ha
    | play tradition =>
      simp only [advance, beginSource_empty input hcached] at ha
      obtain ⟨rfl, rfl⟩ := Prod.mk.inj (Option.some.inj ha)
      exact ⟨fun _ => rfl, fun _ => Or.inr rfl, Or.inl rfl⟩
  | releasing source =>
    obtain ⟨audioFile, -, rfl⟩ := hlocal source rfl
    cases call with
    | stop => cases ha
    | play tradition =>
      have hplay : (a.playCurrent tradition (.file audioFile)).currentAudioFilePath =
          a.currentAudioFilePath ∧
          (a.playCurrent tradition (.file audioFile)).audioTimer = a.audioTimer := by
        unfold Audio.playCurrent
        split <;> exact ⟨rfl, rfl⟩
      simp only [advance] at ha
      split at ha
      · obtain ⟨rfl, rfl⟩ := Prod.mk.inj (Option.some.inj ha)
        rw [hplay.1]
        exact ⟨id, fun _ => Or.inl trivial, Or.inl hplay.2⟩
      · obtain ⟨rfl, rfl⟩ := Prod.mk.inj (Option.some.inj ha)
        exact ⟨id, fun _ => Or.inl trivial, Or.inl rfl⟩
  | starting =>
    obtain ⟨rfl, rfl⟩ := Prod.mk.inj (Option.some.inj ha)
    exact ⟨id, fun _ => Or.inl trivial, Or.inr rfl⟩
  | done => cases ha

theorem Timed.resume (h : Timed w) (hI : Inv w) (hlocal : LocalOnly w) {i : ℕ} {input : AudioInput}
    (hcached : input.cachedAudio = ∅) (hs : step w (.resume i input) = some w') : Timed w' := by
  obtain ⟨call, stage, stage', a, hi, ha, rfl⟩ := step_resume hs
  have hmem := List.mem_of_getElem? hi
  obtain ⟨hpath, hplayer, htimer⟩ := advance_spec hcached (hlocal.calls _ hmem) ha
  have hoff : w.audio.audioTimer = false := by
    by_contra hon
    obtain ⟨-, t, hplaying⟩ := h.timer (Bool.eq_true_of_not_eq_false hon)
    have hdone : stage = .done := hplaying.quiet _ hmem
    subst hdone
    cases ha
  refine ⟨fun c hc hc' => ?_, fun hon => ?_⟩
  · rcases List.mem_or_eq_of_mem_set hc with hc | rfl
    · exact hpath (h.path c hc hc')
    · rcases hplayer hc' with hold | hnew
      · exact hpath (h.path _ hmem hold)
      · exact hnew
  · rcases htimer with hsame | rfl
    · rw [show a.audioTimer = true from hon, hoff] at hsame
      cases hsame
    · -- the call that starts its player is the pending one, and nothing else goes on
      obtain ⟨rfl, rfl⟩ := Prod.mk.inj (Option.some.inj ha)
      refine ⟨h.path _ hmem trivial, ?_⟩
      cases hI with
      | muted hI =>
        rcases hI.stops _ hmem with hdone | ⟨-, hstage | hstage⟩
        · cases hdone
        · cases hstage
        · cases hstage
      | playing tradition hI => cases hI.quiet _ hmem
      | pending tradition j stage₀ hI =>
        by_cases hij : i = j
        · subst hij
          obtain ⟨rfl, rfl⟩ := InFlight.mk.inj (Option.some.inj (hi.symm.trans hI.call))
          have hlt := (List.getElem?_eq_some_iff.mp hi).1
          refine ⟨tradition, ?_, hI.phase, rfl, hI.last, hI.lastCall⟩
          refine (Flight.forall_mem_set_iff hlt).mpr ⟨rfl, fun k c hk hc => ?_⟩
          exact (hI.others k c hk hc).resolve_right fun hb => hb.1
        · rcases hI.others i _ hij hi with hdone | ⟨-, -, hstage | hstage⟩
          · cases hdone
          · cases hstage
          · cases hstage

/-- A timed service stays so when its calls are in order. -/
theorem Timed.step (h : Timed w) (hI : Inv w) (hlocal : LocalOnly w) {m : Move}
    (hs : step w m = some w') (hcached : ∀ i input, m = .resume i input → input.cachedAudio = ∅)
    (ho : Orderly w m w') : Timed w' := by
  cases m with
  | issue call =>
    obtain rfl := Option.some.inj hs
    cases call with
    | stop => exact Timed.beginStop hI ho .stop w.audio (some .stop)
    | play tradition =>
      unfold Orderly at ho
      unfold begin
      by_cases hlast : w.audio.lastAudioTradition = some tradition
      · simp only [hlast, if_true]
        exact h.issue_repeated hlast
      · simp only [hlast, if_false] at ho ⊢
        exact Timed.beginStop hI ho (.play tradition) _ _
  | resume i input => exact h.resume hI hlocal (hcached i input rfl) hs

omit [CaseMap] in
/-- **A tick of the timer** is not heard: what sounds is started again. -/
theorem Timed.tick (h : Timed w) (hlocal : LocalOnly w) (htimer : w.audio.audioTimer = true)
    {f : Faults} (hplay : f.localPlay = false) :
    Inv { w with audio := w.audio.timerTick f ∅ } ∧
      Timed { w with audio := w.audio.timerTick f ∅ } := by
  obtain ⟨hpath, t, hplaying⟩ := h.timer htimer
  obtain ⟨audioFile, hfile⟩ := Option.isSome_iff_exists.mp hpath
  obtain ⟨p, hp, honly⟩ := hplaying.player
  have hsounding : Sounding w.audio p t := (honly p t).mpr ⟨rfl, rfl⟩
  have htick : w.audio.timerTick f ∅ = w.audio ∨ w.audio.timerTick f ∅ =
      { w.audio with players := w.audio.players.replay p (.file audioFile) } := by
    unfold timerTick restartAudio
    simp only [hp, hplaying.isPlaying, Option.isSome_some, Bool.and_self, if_true,
      hlocal.audio.audioId, hfile, hplay, Bool.false_eq_true, if_false]
    cases f.stop with
    | true => exact Or.inl rfl
    | false => exact Or.inr rfl
  rcases htick with htick | htick
  · rw [htick]
    exact ⟨.playing t hplaying, h⟩
  · rw [htick]
    have hplaying' : Playing
        { w with audio :=
          { w.audio with players := w.audio.players.replay p (.file audioFile) } } t := by
      refine ⟨hplaying.quiet, ⟨p, hp, fun q t' => ?_⟩, hplaying.isPlaying, hplaying.last,
        hplaying.lastCall⟩
      exact (Players.sounding_replay hlocal.audio.players hsounding _).trans (honly q t')
    exact ⟨.playing t hplaying', h.path, fun _ => ⟨hpath, t, hplaying'⟩⟩

end

end Calls

/-! ## The application -/

namespace MotiAIApp

open Calls

/-- The calls are made in order: the screen asks for a tradition while only stops are in flight, or
for the one it asked for before while that plays; it switches audio off while no `playAmbience` is in
flight; a new player is created when the stops have completed. The timer can play. -/
def InOrder [CaseMap] (s : MotiAIApp) (m : AppMove) (_ : MotiAIApp) : Prop :=
  match m with
  | .display i _ _ => s.screen.isAudioEnabled = true → ∀ kind quote,
    s.world.requests[i]? = some ⟨kind, .picked quote⟩ →
      Orderly s.sounds (.issue (.play quote.tradition)) s.sounds
  | .toggleAudio =>
    if s.screen.isAudioEnabled then OnlyStops s.sounds
    else ∀ quote, s.screen.currentQuote = some quote →
      Orderly s.sounds (.issue (.play quote.tradition)) s.sounds
  | .sound i _ _ => ∀ call, s.sounds.calls[i]? = some ⟨call, .stopped⟩ → StopsDone s.sounds
  | .timerTick f => f.localPlay = false
  | _ => True

/-- The last call of the audio service is what the screen wants. -/
structure Tuned (s : MotiAIApp) : Prop where
  play : s.screen.isAudioEnabled = true → ∀ quote, s.screen.currentQuote = some quote →
    s.sounds.lastCall = some (.play quote.tradition)
  stop : s.screen.isAudioEnabled = false → s.sounds.lastCall = some .stop

/-- The audio service keeps its invariants, and was last asked for what the screen wants. -/
structure InTune (s : MotiAIApp) : Prop where
  inv : Calls.Inv s.sounds
  timed : Timed s.sounds
  tuned : Tuned s

variable {s s' : MotiAIApp}

section

variable [CaseMap]

theorem lastCall_of_issue {w w' : Calls.World} {call : Call}
    (hs : Calls.step w (.issue call) = some w') : w'.lastCall = some call := by
  obtain rfl := Option.some.inj hs
  rfl

theorem lastCall_of_resume {w w' : Calls.World} {i : ℕ} {input : AudioInput}
    (hs : Calls.step w (.resume i input) = some w') : w'.lastCall = w.lastCall := by
  obtain ⟨call, stage, stage', a, -, -, rfl⟩ := Calls.step_resume hs
  rfl

omit [CaseMap] in
theorem Tuned.congr (h : Tuned s) (hlast : s'.sounds.lastCall = s.sounds.lastCall)
    (henabled : s'.screen.isAudioEnabled = s.screen.isAudioEnabled)
    (hcurrent : s'.screen.currentQuote = s.screen.currentQuote) : Tuned s' := by
  constructor
  · rw [hlast, henabled, hcurrent]
    exact h.play
  · rw [hlast, henabled]
    exact h.stop

omit [CaseMap] in
/-- With audio on, the last call is for the current quote. -/
theorem tuned_of_enabled (henabled : s.screen.isAudioEnabled = true)
    (hlast : ∀ quote, s.screen.currentQuote = some quote →
      s.sounds.lastCall = some (.play quote.tradition)) : Tuned s := by
  refine ⟨fun _ => hlast, fun hoff => ?_⟩
  rw [henabled] at hoff
  cases hoff

omit [CaseMap] in
theorem tuned_of_disabled (henabled : s.screen.isAudioEnabled = false)
    (hlast : s.sounds.lastCall = some .stop) : Tuned s := by
  refine ⟨fun hon => ?_, fun _ => hlast⟩
  rw [henabled] at hon
  cases hon

theorem Tuned.effect (h : Tuned s) {m : AppMove} (he : SoundEffect s m s') : Tuned s' := by
  cases he with
  | kept hsounds henabled hcurrent => exact h.congr (by rw [hsounds]) henabled hcurrent
  | displayed henabled hi hs henabled' hcurrent =>
    refine tuned_of_enabled henabled' fun quote' hquote' => ?_
    obtain rfl := Option.some.inj (hcurrent.symm.trans hquote')
    exact lastCall_of_issue hs
  | silent hsounds henabled henabled' =>
    refine tuned_of_disabled henabled' ?_
    rw [hsounds]
    exact h.stop henabled
  | switchedOn henabled hcurrent hs henabled' hcurrent' =>
    refine tuned_of_enabled henabled' fun quote' hquote' => ?_
    obtain rfl := Option.some.inj (hcurrent'.symm.trans hquote')
    exact lastCall_of_issue hs
  | failed hsounds hcurrent henabled' =>
    refine tuned_of_enabled henabled' fun quote hquote => ?_
    rw [hcurrent] at hquote
    cases hquote
  | switchedOff henabled hs henabled' => exact tuned_of_disabled henabled' (lastCall_of_issue hs)
  | resumed hs hscreen =>
    exact h.congr (lastCall_of_resume hs) (by rw [hscreen]) (by rw [hscreen])
  | ticked htimer hsounds hscreen =>
    exact h.congr (by rw [hsounds]) (by rw [hscreen]) (by rw [hscreen])
  | restarted hsounds hscreen =>
    refine tuned_of_enabled (by rw [hscreen]) fun quote hquote => ?_
    rw [hscreen] at hquote
    cases hquote

/-- The audio service keeps its invariants when the calls are made in order. -/
theorem InTune.effect (h : InTune s) (hlocal : LocalSounds s) {m : AppMove}
    (he : SoundEffect s m s') (ho : InOrder s m s') : InTune s' := by
  have htuned := h.tuned.effect he
  have hkeep : s'.sounds = s.sounds → InTune s' := by
    intro hsounds
    refine ⟨?_, ?_, htuned⟩
    · rw [hsounds]
      exact h.inv
    · rw [hsounds]
      exact h.timed
  have hissue : ∀ {call : Calls.Call}, Calls.step s.sounds (.issue call) = some s'.sounds →
      Orderly s.sounds (.issue call) s.sounds → InTune s' :=
    fun hs ho => ⟨h.inv.step hs ho,
      h.timed.step h.inv hlocal.localOnly hs (by simp) ho, htuned⟩
  cases he with
  | kept hsounds => exact hkeep hsounds
  | displayed henabled hi hs => exact hissue hs (ho henabled _ _ hi)
  | silent hsounds => exact hkeep hsounds
  | switchedOn henabled hcurrent hs =>
    have ho' : if s.screen.isAudioEnabled = true then OnlyStops s.sounds
      else ∀ quote, s.screen.currentQuote = some quote →
        Orderly s.sounds (.issue (.play quote.tradition)) s.sounds := ho
    rw [if_neg (by rw [henabled]; exact Bool.false_ne_true)] at ho'
    exact hissue hs (ho' _ hcurrent)
  | failed hsounds => exact hkeep hsounds
  | switchedOff henabled hs =>
    have ho' : if s.screen.isAudioEnabled = true then OnlyStops s.sounds
      else ∀ quote, s.screen.currentQuote = some quote →
        Orderly s.sounds (.issue (.play quote.tradition)) s.sounds := ho
    rw [if_pos henabled] at ho'
    exact hissue hs ho'
  | @resumed i picks decodeFails _ hs hscreen =>
    have horderly : Orderly s.sounds (.resume i ⟨picks, s.cachedAudio, decodeFails⟩) s.sounds := by
      refine fun call stage hi => ⟨?_, fun audioId audioData hstage => ?_⟩
      · rintro rfl
        exact ho call hi
      · -- a player is never given AI audio
        obtain ⟨audioFile, -, hfile⟩ :=
          hlocal.localOnly.calls _ (List.mem_of_getElem? hi) _ hstage
        cases hfile
    refine ⟨h.inv.step hs horderly, h.timed.step h.inv hlocal.localOnly hs ?_ horderly, htuned⟩
    intro j input hm
    obtain ⟨rfl, rfl⟩ := Calls.Move.resume.inj hm
    exact hlocal.cached
  | @ticked f _ htimer hsounds hscreen =>
    obtain ⟨hinv, htimed⟩ := h.timed.tick hlocal.localOnly htimer ho
    rw [hlocal.cached] at hsounds
    refine ⟨?_, ?_, htuned⟩
    · rw [hsounds]
      exact hinv
    · rw [hsounds]
      exact htimed
  | restarted hsounds hscreen =>
    refine ⟨?_, ?_, htuned⟩
    · rw [hsounds]
      exact Calls.inv_start
    · rw [hsounds]
      exact timed_start

end

/-! ## The ambience of the first quote -/

end MotiAIApp

end MotiAI
