import Mathlib.Data.List.Basic

/-!
# Audio players

The `AudioPlayer` objects of a session, numbered in the order of their creation. A player is alive
until it is disposed; it sounds between a `play` or `resume` and the next `stop`, `pause` or
`dispose`. Each call changes the one player it is made on.
-/

namespace MotiAI

/-- What a player is to play: `BytesSource` of the data of an AI audio, or `AssetSource`. -/
inductive Source where
  | ai (audioId audioData : String)
  | file (audioFile : String)

/-- A player: what it was last told to play, with the tradition it was started for, and whether it
sounds. -/
structure Player where
  disposed : Bool := false
  loaded : Option String := none
  source : Option Source := none
  playing : Bool := false

/-- All players created so far. -/
abbrev Players := List Player

namespace Players

/-- Player `p` was created and not disposed. -/
def Alive (ps : Players) (p : ℕ) : Prop := ∃ player, ps[p]? = some player ∧ player.disposed = false

/-- Player `p` sounds for `tradition`. -/
def Sounding (ps : Players) (p : ℕ) (tradition : String) : Prop :=
  ∃ player, ps[p]? = some player ∧ player.playing = true ∧ player.loaded = some tradition

/-- Player `p` plays the source. -/
def Plays (ps : Players) (p : ℕ) (source : Source) : Prop :=
  ∃ player, ps[p]? = some player ∧ player.playing = true ∧ player.source = some source

def create (ps : Players) : Players := ps ++ [({} : Player)]

def play (p : ℕ) (tradition : String) (source : Source) (ps : Players) : Players :=
  ps.modify p fun player =>
    { player with
      loaded := some tradition
      source := some source
      playing := !player.disposed }

/-- `play` on a player that was started before, for the same tradition. -/
def replay (p : ℕ) (source : Source) (ps : Players) : Players :=
  ps.modify p fun player => { player with source := some source, playing := !player.disposed }

/-- `stop` and `pause`. -/
def silence (p : ℕ) (ps : Players) : Players :=
  ps.modify p fun player => { player with playing := false }

/-- `resume` of what is loaded. -/
def resume (p : ℕ) (ps : Players) : Players :=
  ps.modify p fun player => { player with playing := player.loaded.isSome && !player.disposed }

def dispose (p : ℕ) (ps : Players) : Players :=
  ps.modify p fun player => { player with disposed := true, playing := false }

section Alive

variable {ps : Players} {p q : ℕ}

theorem Alive.lt (h : Alive ps p) : p < ps.length := by
  obtain ⟨player, hp, -⟩ := h
  exact (List.getElem?_eq_some_iff.mp hp).1

/-- A call that disposes nothing leaves the players alive. -/
theorem alive_modify {f : Player → Player} (hf : ∀ player, (f player).disposed = player.disposed) :
    Alive (ps.modify p f) q ↔ Alive ps q := by
  unfold Alive
  rw [List.getElem?_modify]
  by_cases hpq : p = q
  · subst hpq
    cases ps[p]? <;> simp [hf]
  · simp [hpq]

@[simp] theorem alive_play {tradition : String} {source : Source} :
    Alive (play p tradition source ps) q ↔ Alive ps q := alive_modify fun _ => rfl

@[simp] theorem alive_replay {source : Source} : Alive (replay p source ps) q ↔ Alive ps q :=
  alive_modify fun _ => rfl

@[simp] theorem alive_silence : Alive (silence p ps) q ↔ Alive ps q := alive_modify fun _ => rfl

@[simp] theorem alive_resume : Alive (resume p ps) q ↔ Alive ps q := alive_modify fun _ => rfl

@[simp] theorem alive_dispose : Alive (dispose p ps) q ↔ Alive ps q ∧ q ≠ p := by
  unfold Alive dispose
  rw [List.getElem?_modify]
  by_cases hpq : p = q
  · subst hpq
    cases ps[p]? <;> simp
  · simp [hpq, Ne.symm hpq]

@[simp] theorem alive_create : Alive (create ps) q ↔ Alive ps q ∨ q = ps.length := by
  unfold Alive create
  rw [List.getElem?_append]
  by_cases hlt : q < ps.length
  · simp [hlt, show q ≠ ps.length by omega]
  · have hnone : ps[q]? = none := List.getElem?_eq_none (by omega)
    rw [if_neg hlt, hnone]
    by_cases hq : q = ps.length
    · subst hq
      simp
    · rw [List.getElem?_eq_none (by simp; omega)]
      simp [hq]

end Alive

section Sounding

variable {ps : Players} {p q : ℕ} {t t' : String}

@[simp] theorem sounding_create : Sounding (create ps) q t ↔ Sounding ps q t := by
  unfold Sounding create
  rw [List.getElem?_append]
  by_cases hlt : q < ps.length
  · rw [if_pos hlt]
  · rw [if_neg hlt, List.getElem?_eq_none (by omega : ps.length ≤ q)]
    constructor
    · rintro ⟨player, hp, hplay, -⟩
      obtain rfl := List.mem_singleton.mp (List.mem_of_getElem? hp)
      cases hplay
    · rintro ⟨player, hp, -⟩
      cases hp

/-- A call after which the player does not play. -/
theorem sounding_modify_silent {f : Player → Player} (hf : ∀ player, (f player).playing = false) :
    Sounding (ps.modify p f) q t ↔ Sounding ps q t ∧ q ≠ p := by
  unfold Sounding
  rw [List.getElem?_modify]
  by_cases hpq : p = q
  · subst hpq
    cases ps[p]? <;> simp [hf]
  · simp [hpq, Ne.symm hpq]

@[simp] theorem sounding_silence : Sounding (silence p ps) q t ↔ Sounding ps q t ∧ q ≠ p :=
  sounding_modify_silent fun _ => rfl

@[simp] theorem sounding_dispose : Sounding (dispose p ps) q t ↔ Sounding ps q t ∧ q ≠ p :=
  sounding_modify_silent fun _ => rfl

@[simp] theorem sounding_play {source : Source} : Sounding (play p t source ps) q t' ↔
    (q = p ∧ Alive ps p ∧ t' = t) ∨ (q ≠ p ∧ Sounding ps q t') := by
  unfold Sounding Alive play
  rw [List.getElem?_modify]
  by_cases hpq : p = q
  · subst hpq
    cases ps[p]? with
    | none => simp
    | some player => simp [eq_comm (a := t) (b := t')]
  · simp [hpq, Ne.symm hpq]

end Sounding

end Players

end MotiAI
