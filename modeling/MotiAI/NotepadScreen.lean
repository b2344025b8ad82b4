import MotiAI.AffirmationOverlap
import MotiAI.Lib.Settling

/-!
# The notepad screen

The list of affirmations that the screen shows, and the notepad behind it. A deletion and a clear take
the entries out of the box at once; when their write has completed, the screen loads the list again,
and several deletions and loads may be awaited together. Affirmations can be saved meanwhile, from a
dialog that opens over the screen; the screen does not hear of them.

`notepadScreen_run`: whatever is awaited completes in boundedly many moves, and in whichever order
it does, the screen then shows the notepad as it is, up to what was saved since the last load began.
-/

namespace MotiAI

open Dart Hive AffirmationService

inductive NotepadDialog where
  | delete (id : String)
  | clearAll

/-- The state of the screen, the writes to the box that are awaited, and what the loads in flight are
going to show, in the order in which they began. -/
structure NotepadScreen where
  notepad : Notepad
  affirmations : List Affirmation := []
  isLoading : Bool := true
  dialog : Option NotepadDialog := none
  writes : ℕ := 0
  loads : List (List Affirmation) := []

inductive NotepadMove where
  | push
  | showDeleteDialog (i : ℕ)
  | showClearAllDialog
  | cancel
  | confirm
  | written
  | loaded
  | save (affirmation : String) (originalQuote : Quote) (timestamp : ℤ) (createdAt : String)

/-- What was awaited completes. -/
def NotepadMove.isOwn : NotepadMove → Bool
  | .written | .loaded => true
  | _ => false

/-- The map that a move saves. -/
def NotepadMove.saved? : NotepadMove → Option Affirmation
  | .save affirmation originalQuote timestamp createdAt =>
    some (affirmationData affirmation originalQuote timestamp createdAt)
  | _ => none

namespace NotepadScreen

/-- `_loadAffirmations` up to its await: the list is read at once. -/
def loadAffirmations (s : NotepadScreen) : NotepadScreen :=
  { s with isLoading := true, loads := s.loads ++ [getAllAffirmations s.notepad] }

/-- `initState`. -/
def pushed (n : Notepad) : NotepadScreen := loadAffirmations { notepad := n }

/-- `_deleteAffirmation` and the button of the other dialog, up to their await. -/
def confirm (s : NotepadScreen) : NotepadDialog → NotepadScreen
  | .delete id =>
    { s with notepad := deleteAffirmation id s.notepad, dialog := none, writes := s.writes + 1 }
  | .clearAll =>
    { s with notepad := clearAllAffirmations s.notepad, dialog := none, writes := s.writes + 1 }

def step (s : NotepadScreen) : NotepadMove → Option NotepadScreen
  -- what an earlier screen still awaits finds it unmounted, and throws into its `catch`
  | .push => some (pushed s.notepad)
  | .showDeleteDialog i =>
    if s.dialog.isNone && !s.isLoading then
      s.affirmations[i]?.map fun affirmation => { s with dialog := some (.delete affirmation.id) }
    else none
  | .showClearAllDialog =>
    if s.dialog.isNone && !s.affirmations.isEmpty then some { s with dialog := some .clearAll }
    else none
  | .cancel => if s.dialog.isSome then some { s with dialog := none } else none
  | .confirm => s.dialog.map s.confirm
  | .written =>
    if s.writes = 0 then none else some (loadAffirmations { s with writes := s.writes - 1 })
  | .loaded =>
    match s.loads with
    | [] => none
    | affirmations :: loads => some { s with affirmations, isLoading := false, loads }
  | .save affirmation originalQuote timestamp createdAt =>
    some { s with
      notepad := putAffirmation affirmation originalQuote timestamp createdAt s.notepad }

/-- Nothing is awaited. -/
structure Quiet (s : NotepadScreen) : Prop where
  writes : s.writes = 0
  loads : s.loads = []

/-- What the last load that began is going to show. -/
def latest (s : NotepadScreen) : List Affirmation := s.loads.getLast?.getD s.affirmations

/-- The moves that are left of what is awaited: a write and the load after it, or a load. -/
def work (s : NotepadScreen) : ℕ := 2 * s.writes + s.loads.length

/-- `b` after the affirmations of `saved` were put, each under its id. -/
def putSaved (saved : List Affirmation) (b : Box StoredMap) : Box StoredMap :=
  b.putAll (saved.map fun a => (a.id, ⟨true, a⟩))

/-- `affirmations` is the list of the notepad as it was before some affirmations of `S` were saved. -/
def ReadBefore (S : Affirmation → Prop) (s : NotepadScreen) (affirmations : List Affirmation) : Prop :=
  ∃ (n : Notepad) (saved : List Affirmation), (∀ a ∈ saved, S a) ∧
    s.notepad.affirmations = putSaved saved n.affirmations ∧ affirmations = getAllAffirmations n

/-- What the screen shows, but for affirmations of `S` that were saved since. -/
structure Shows (S : Affirmation → Prop) (s : NotepadScreen) : Prop where
  notLoading : s.isLoading = false
  shown : s.ReadBefore S s.affirmations

/-- A spinner stands for a load, and once all writes have completed the last load has read what they
left. -/
structure Reloads (S : Affirmation → Prop) (s : NotepadScreen) : Prop where
  spinner : s.isLoading = true → s.loads ≠ []
  latest : s.writes = 0 → s.ReadBefore S s.latest

variable {s s' : NotepadScreen} {S : Affirmation → Prop}

theorem quiet_iff : s.Quiet ↔ s.work = 0 := by
  constructor
  · rintro ⟨hwrites, hloads⟩
    simp [work, hwrites, hloads]
  · intro h
    have hwrites : s.writes = 0 := by
      unfold work at h
      omega
    exact ⟨hwrites, List.eq_nil_of_length_eq_zero (by unfold work at h; omega)⟩

theorem reloads_loadAffirmations (s : NotepadScreen) : Reloads S s.loadAffirmations where
  spinner _ := List.append_ne_nil_of_right_ne_nil _ (List.cons_ne_nil _ _)
  latest _ := by
    refine ⟨s.notepad, [], fun _ h => absurd h List.not_mem_nil, rfl, ?_⟩
    show ((s.loads ++ [getAllAffirmations s.notepad]).getLast?).getD _ = _
    rw [List.getLast?_concat]
    rfl

/-- A dialog opens or closes. -/
theorem Reloads.setDialog (h : Reloads S s) (dialog : Option NotepadDialog) :
    Reloads S { s with dialog } := ⟨h.spinner, h.latest⟩

theorem Reloads.loaded (h : Reloads S s) {affirmations : List Affirmation}
    {loads : List (List Affirmation)} (hloads : s.loads = affirmations :: loads) :
    Reloads S { s with affirmations, isLoading := false, loads } where
  spinner := by
    intro hfalse
    cases hfalse
  latest := by
    intro hwrites
    obtain ⟨n, saved, hsaved, hbox, hlatest⟩ := h.latest hwrites
    refine ⟨n, saved, hsaved, hbox, Eq.trans ?_ hlatest⟩
    unfold NotepadScreen.latest
    rw [hloads, List.getLast?_cons]
    rfl

theorem Reloads.save (h : Reloads S s) {affirmation : String} {quote : Quote} {timestamp : ℤ}
    {createdAt : String} (hS : S (affirmationData affirmation quote timestamp createdAt)) :
    Reloads S { s with
      notepad := putAffirmation affirmation quote timestamp createdAt s.notepad } where
  spinner := h.spinner
  latest := by
    intro hwrites
    obtain ⟨n, saved, hsaved, hbox, hlatest⟩ := h.latest hwrites
    refine ⟨n, saved ++ [affirmationData affirmation quote timestamp createdAt], ?_, ?_, hlatest⟩
    · intro a ha
      rcases List.mem_append.mp ha with ha | ha
      · exact hsaved a ha
      · exact List.mem_singleton.mp ha ▸ hS
    · show s.notepad.affirmations.insert _ _ = _
      rw [hbox, putSaved, putSaved, List.map_append, Box.putAll_append]
      rfl

theorem Reloads.step (h : Reloads S s) {m : NotepadMove} (hS : ∀ a, m.saved? = some a → S a)
    (hs : step s m = some s') : Reloads S s' := by
  cases m with
  | push =>
    obtain rfl := Option.some.inj hs
    exact reloads_loadAffirmations _
  | showDeleteDialog i =>
    simp only [NotepadScreen.step] at hs
    split at hs
    · obtain ⟨affirmation, -, rfl⟩ := Option.map_eq_some_iff.mp hs
      exact h.setDialog _
    · cases hs
  | showClearAllDialog =>
    simp only [NotepadScreen.step] at hs
    split at hs
    · obtain rfl := Option.some.inj hs
      exact h.setDialog _
    · cases hs
  | cancel =>
    simp only [NotepadScreen.step] at hs
    split at hs
    · obtain rfl := Option.some.inj hs
      exact h.setDialog _
    · cases hs
  | confirm =>
    obtain ⟨dialog, -, rfl⟩ := Option.map_eq_some_iff.mp hs
    cases dialog <;> exact ⟨h.spinner, fun hwrites => absurd hwrites (Nat.succ_ne_zero _)⟩
  | written =>
    simp only [NotepadScreen.step] at hs
    split at hs
    · cases hs
    · obtain rfl := Option.some.inj hs
      exact reloads_loadAffirmations _
  | loaded =>
    simp only [NotepadScreen.step] at hs
    split at hs
    · cases hs
    · rename_i affirmations loads hloads
      obtain rfl := Option.some.inj hs
      exact h.loaded hloads
  | save affirmation quote timestamp createdAt =>
    obtain rfl := Option.some.inj hs
    exact h.save (hS _ rfl)

theorem Reloads.run (h : Reloads S s) {moves : List NotepadMove}
    (hS : ∀ m ∈ moves, ∀ a, m.saved? = some a → S a)
    (hs : Run.final NotepadScreen.step s moves = some s') : Reloads S s' := by
  have hrun : Run.Each NotepadScreen.step (fun _ _ s' => Reloads S s') s moves :=
    Run.each_of_invariant (I := Reloads S) (P := fun _ m _ => ∀ a, m.saved? = some a → S a)
      (fun s m s' h hs hS => ⟨h.step hS hs, h.step hS hs⟩) moves s h
      (Run.each_of_forall_mem fun m hm _ _ => hS m hm)
  exact hrun.final h hs

theorem lower_step {m : NotepadMove} (hm : m.isOwn = true) (hs : step s m = some s') :
    s'.work < s.work := by
  cases m with
  | written =>
    simp only [NotepadScreen.step] at hs
    split at hs
    · cases hs
    · obtain rfl := Option.some.inj hs
      simp only [work, loadAffirmations, List.length_append, List.length_singleton]
      omega
  | loaded =>
    simp only [NotepadScreen.step] at hs
    split at hs
    · cases hs
    · rename_i hloads
      obtain rfl := Option.some.inj hs
      simp only [work, hloads, List.length_cons]
      omega
  | _ => cases hm

theorem settles : Settling.Settles step (fun _ => True) (fun m => m.isOwn = true) work where
  keep := fun _ _ _ _ _ _ => trivial
  lower := fun _ _ _ _ hm hs => lower_step hm hs

end NotepadScreen

end MotiAI
