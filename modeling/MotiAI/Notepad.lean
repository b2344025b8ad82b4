import MotiAI.Lib.Run
import MotiAI.Store

/-!
# The affirmation notepad

Runs of saves, deletions, clears and restarts on the affirmations box, against the plain list of
affirmations that were saved and not deleted since. A map is stored under its id, which is made
from the clock; after a restart a stored map comes back without its type arguments, and the reader
skips it.

`lossless_iff`: the notepad shows exactly that list after every step of a run exactly when no save
meets an entry with its id and no restart meets an entry at all.
-/

namespace MotiAI

open Dart Hive

/-- The map `saveAffirmation` stores. -/
structure Affirmation where
  id : String
  text : String
  originalQuoteId : String
  originalQuoteText : String
  originalAuthor : String
  tradition : String
  timestamp : ℤ
  createdAt : String
  deriving DecidableEq

/-- A stored map; `typed` says that it is a `Map<String, dynamic>`. -/
structure StoredMap where
  typed : Bool
  data : Affirmation

/-- The boxes `AffirmationService` writes. -/
structure Notepad where
  affirmations : Box StoredMap := ∅
  quotes : Box Val := ∅

namespace AffirmationService

/-- `'affirmation_$timestamp'`. -/
def affirmationId (timestamp : ℤ) : String := "affirmation_" ++ toString timestamp

/-- The map of a save, from its two readings of the clock. -/
def affirmationData (affirmation : String) (originalQuote : Quote) (timestamp : ℤ)
    (createdAt : String) : Affirmation where
  id := affirmationId timestamp
  text := affirmation
  originalQuoteId := originalQuote.id
  originalQuoteText := originalQuote.text
  originalAuthor := originalQuote.author
  tradition := originalQuote.tradition
  timestamp := timestamp
  createdAt := createdAt

/-- An exception of `saveAffirmationToQuote` is caught. -/
def saveAffirmation (affirmation : String) (originalQuote : Quote) (timestamp : ℤ)
    (createdAt : String) (n : Notepad) : Notepad where
  affirmations := n.affirmations.insert (affirmationId timestamp)
    ⟨true, affirmationData affirmation originalQuote timestamp createdAt⟩
  quotes := (HiveQuoteService.saveAffirmationToQuote originalQuote.id affirmation n.quotes).getD
    n.quotes

/-- The typed maps of the box, newest first. -/
def getAllAffirmations (n : Notepad) : List Affirmation :=
  ((n.affirmations.values.filter StoredMap.typed).map StoredMap.data).mergeSort
    fun a b => b.timestamp ≤ a.timestamp

def getAffirmationsCount (n : Notepad) : ℕ := n.affirmations.size

def deleteAffirmation (id : String) (n : Notepad) : Notepad :=
  { n with affirmations := n.affirmations.erase id }

def clearAllAffirmations (n : Notepad) : Notepad := { n with affirmations := ∅ }

/-- Closing and opening the box: maps are read back as `Map<dynamic, dynamic>`. -/
def reopen (n : Notepad) : Notepad :=
  { n with affirmations := n.affirmations.map fun _ stored => { stored with typed := false } }

end AffirmationService

open AffirmationService

inductive NotepadOp where
  | save (affirmation : String) (originalQuote : Quote) (timestamp : ℤ) (createdAt : String)
  | delete (id : String)
  | clear
  | reopen

/-- The notepad, and the affirmations saved and not since deleted or cleared. -/
structure Diary where
  notepad : Notepad := {}
  live : List Affirmation := []

namespace Diary

def step (s : Diary) : NotepadOp → Option Diary
  | .save affirmation quote timestamp createdAt =>
    some ⟨saveAffirmation affirmation quote timestamp createdAt s.notepad,
      affirmationData affirmation quote timestamp createdAt :: s.live⟩
  | .delete id => some ⟨deleteAffirmation id s.notepad, s.live.filter fun a => a.id ≠ id⟩
  | .clear => some ⟨clearAllAffirmations s.notepad, []⟩
  | .reopen => some ⟨AffirmationService.reopen s.notepad, s.live⟩

/-- `getAllAffirmations` returns the live affirmations, each once and newest first, and the count is
their number. -/
structure Lossless (s : Diary) : Prop where
  all : (getAllAffirmations s.notepad).Perm s.live
  newest : (getAllAffirmations s.notepad).Pairwise fun a b => b.timestamp ≤ a.timestamp
  count : (getAllAffirmations s.notepad).length = getAffirmationsCount s.notepad

/-- A save finds its id free, and a restart finds the box empty. -/
def Careful (s : Diary) (op : NotepadOp) (_ : Diary) : Prop :=
  match op with
  | .save _ _ timestamp _ => s.notepad.affirmations[affirmationId timestamp]? = none
  | .reopen => s.notepad.affirmations = ∅
  | _ => True

/-- The box holds the live affirmations, typed and under their ids. -/
structure Stored (s : Diary) : Prop where
  sound : ∀ (k : String) (v : StoredMap), s.notepad.affirmations[k]? = some v →
    v.typed = true ∧ v.data.id = k ∧ v.data ∈ s.live
  complete : ∀ a ∈ s.live, s.notepad.affirmations[a.id]? = some ⟨true, a⟩
  nodup : s.live.Nodup

/-! ## What the box lists -/

theorem newest_getAllAffirmations (n : Notepad) :
    (getAllAffirmations n).Pairwise fun a b => b.timestamp ≤ a.timestamp := by
  have htrans : ∀ a b c : Affirmation, decide (b.timestamp ≤ a.timestamp) = true →
      decide (c.timestamp ≤ b.timestamp) = true → decide (c.timestamp ≤ a.timestamp) = true := by
    intro a b c hab hbc
    simp only [decide_eq_true_eq] at *
    omega
  have htotal : ∀ a b : Affirmation,
      (decide (b.timestamp ≤ a.timestamp) || decide (a.timestamp ≤ b.timestamp)) = true := by
    intro a b
    simp only [Bool.or_eq_true, decide_eq_true_eq]
    omega
  exact (List.pairwise_mergeSort htrans htotal _).imp of_decide_eq_true

theorem length_getAllAffirmations_le (n : Notepad) :
    (getAllAffirmations n).length ≤ getAffirmationsCount n := by
  unfold getAllAffirmations getAffirmationsCount
  rw [List.length_mergeSort, List.length_map, ← Box.length_values]
  exact List.length_filter_le _ _

variable {s : Diary}

theorem Stored.filter_typed (h : Stored s) :
    s.notepad.affirmations.values.filter StoredMap.typed = s.notepad.affirmations.values := by
  rw [List.filter_eq_self]
  intro v hv
  obtain ⟨k, hk⟩ := Box.mem_values.mp hv
  exact (h.sound k v hk).1

theorem Stored.nodup_values (h : Stored s) :
    (s.notepad.affirmations.values.map StoredMap.data).Nodup := by
  have hkeys : (s.notepad.affirmations.values.map StoredMap.data).map Affirmation.id =
      s.notepad.affirmations.toList.map Prod.fst := by
    unfold Box.values
    rw [List.map_map, List.map_map]
    refine List.map_congr_left fun e he => ?_
    exact (h.sound e.1 e.2 (Std.ExtTreeMap.mem_toList_iff_getElem?_eq_some.mp he)).2.1
  refine List.Nodup.of_map Affirmation.id ?_
  rw [hkeys]
  exact s.notepad.affirmations.nodup_keys

/-- In a sound box the listing is the live affirmations. -/
theorem Stored.lossless (h : Stored s) : Lossless s where
  all := by
    unfold getAllAffirmations
    refine (List.mergeSort_perm _ _).trans ?_
    rw [h.filter_typed, List.perm_ext_iff_of_nodup h.nodup_values h.nodup]
    intro a
    rw [List.mem_map]
    constructor
    · rintro ⟨v, hv, rfl⟩
      obtain ⟨k, hk⟩ := Box.mem_values.mp hv
      exact (h.sound k v hk).2.2
    · intro ha
      exact ⟨⟨true, a⟩, Box.mem_values.mpr ⟨a.id, h.complete a ha⟩, rfl⟩
  newest := newest_getAllAffirmations s.notepad
  count := by
    unfold getAllAffirmations getAffirmationsCount
    rw [List.length_mergeSort, h.filter_typed, List.length_map, Box.length_values]

/-! ## Steps -/

theorem stored_start : Stored {} where
  sound := by
    intro k v h
    exact absurd h Box.getElem?_empty_ne
  complete := fun a ha => absurd ha List.not_mem_nil
  nodup := List.nodup_nil

theorem Stored.save (h : Stored s) {affirmation : String} {quote : Quote} {timestamp : ℤ}
    {createdAt : String} (hfresh : s.notepad.affirmations[affirmationId timestamp]? = none) :
    Stored ⟨saveAffirmation affirmation quote timestamp createdAt s.notepad,
      affirmationData affirmation quote timestamp createdAt :: s.live⟩ where
  sound := by
    intro k v hk
    replace hk : (s.notepad.affirmations.insert (affirmationId timestamp) _)[k]? = some v := hk
    rw [Box.getElem?_put] at hk
    split at hk
    · rename_i hid
      obtain rfl := Option.some.inj hk
      exact ⟨rfl, hid, List.mem_cons_self⟩
    · obtain ⟨htyped, hid, hmem⟩ := h.sound k v hk
      exact ⟨htyped, hid, List.mem_cons_of_mem _ hmem⟩
  complete := by
    intro a ha
    show (s.notepad.affirmations.insert (affirmationId timestamp) _)[a.id]? = _
    rw [Box.getElem?_put]
    rcases List.mem_cons.mp ha with rfl | ha
    · exact if_pos rfl
    · have hne : affirmationId timestamp ≠ a.id := by
        intro heq
        rw [heq, h.complete a ha] at hfresh
        cases hfresh
      rw [if_neg hne]
      exact h.complete a ha
  nodup := by
    refine List.nodup_cons.mpr ⟨fun hmem => ?_, h.nodup⟩
    have hk := h.complete _ hmem
    rw [show Affirmation.id _ = affirmationId timestamp from rfl, hfresh] at hk
    cases hk

theorem Stored.delete (h : Stored s) (id : String) :
    Stored ⟨deleteAffirmation id s.notepad, s.live.filter fun a => a.id ≠ id⟩ where
  sound := by
    intro k v hk
    replace hk : (s.notepad.affirmations.erase id)[k]? = some v := hk
    rw [Box.getElem?_delete] at hk
    split at hk
    · cases hk
    · rename_i hne
      obtain ⟨htyped, hid, hmem⟩ := h.sound k v hk
      refine ⟨htyped, hid, List.mem_filter.mpr ⟨hmem, ?_⟩⟩
      rw [hid]
      simpa using Ne.symm hne
  complete := by
    intro a ha
    obtain ⟨ha, hne⟩ := List.mem_filter.mp ha
    show (s.notepad.affirmations.erase id)[a.id]? = _
    rw [Box.getElem?_delete, if_neg (by simpa using Ne.symm (of_decide_eq_true hne))]
    exact h.complete a ha
  nodup := h.nodup.filter _

theorem stored_empty (n : Notepad) (hn : n.affirmations = ∅) : Stored ⟨n, []⟩ where
  sound := by
    intro k v h
    rw [Box.eq_empty_iff.mp hn k] at h
    cases h
  complete := fun a ha => absurd ha List.not_mem_nil
  nodup := List.nodup_nil

/-- A box that is empty holds no live affirmation. -/
theorem Stored.live_eq_nil (h : Stored s) (hn : s.notepad.affirmations = ∅) : s.live = [] := by
  refine List.eq_nil_iff_forall_not_mem.mpr fun a ha => ?_
  have hk := h.complete a ha
  rw [Box.eq_empty_iff.mp hn a.id] at hk
  cases hk

theorem stored_step {s' : Diary} {op : NotepadOp} (h : Stored s) (hs : step s op = some s')
    (hc : Careful s op s') : Stored s' := by
  cases op with
  | save affirmation quote timestamp createdAt =>
    obtain rfl := Option.some.inj hs
    exact h.save hc
  | delete id =>
    obtain rfl := Option.some.inj hs
    exact h.delete id
  | clear =>
    obtain rfl := Option.some.inj hs
    exact stored_empty _ rfl
  | reopen =>
    obtain rfl := Option.some.inj hs
    have hempty : s.notepad.affirmations = ∅ := hc
    rw [h.live_eq_nil hempty]
    refine stored_empty _ ?_
    unfold AffirmationService.reopen
    rw [hempty]
    rfl

/-- A save over an entry loses one of the two. -/
theorem Stored.not_lossless_save (h : Stored s) {affirmation : String} {quote : Quote}
    {timestamp : ℤ} {createdAt : String}
    (hused : s.notepad.affirmations[affirmationId timestamp]? ≠ none) :
    ¬ Lossless ⟨saveAffirmation affirmation quote timestamp createdAt s.notepad,
      affirmationData affirmation quote timestamp createdAt :: s.live⟩ := by
  intro hl
  have hlen := hl.all.length_eq
  have hle := length_getAllAffirmations_le
    (saveAffirmation affirmation quote timestamp createdAt s.notepad)
  have hlive : s.live.length = s.notepad.affirmations.size := by
    rw [← h.lossless.all.length_eq, h.lossless.count]
    rfl
  have hsize : (s.notepad.affirmations.insert (affirmationId timestamp)
      ⟨true, affirmationData affirmation quote timestamp createdAt⟩).size =
        s.notepad.affirmations.size := by
    rw [Std.ExtTreeMap.size_insert, if_pos]
    rw [Std.ExtTreeMap.contains_eq_isSome_getElem?]
    exact Option.isSome_iff_ne_none.mpr hused
  have hcount : getAffirmationsCount
      (saveAffirmation affirmation quote timestamp createdAt s.notepad) =
        s.notepad.affirmations.size := hsize
  rw [hcount, hlen, List.length_cons, hlive] at hle
  omega

/-- After a restart nothing is listed. -/
theorem getAllAffirmations_reopen (n : Notepad) :
    getAllAffirmations (AffirmationService.reopen n) = [] := by
  have hfilter : (AffirmationService.reopen n).affirmations.values.filter StoredMap.typed = [] := by
    rw [List.filter_eq_nil_iff]
    intro v hv
    obtain ⟨k, hk⟩ := Box.mem_values.mp hv
    replace hk : (n.affirmations.map fun _ stored =>
      ({ stored with typed := false } : StoredMap))[k]? = some v := hk
    rw [Std.ExtTreeMap.getElem?_map] at hk
    obtain ⟨w, -, rfl⟩ := Option.map_eq_some_iff.mp hk
    simp
  unfold getAllAffirmations
  rw [hfilter, List.map_nil, List.mergeSort_nil]

theorem lossless_iff_careful {s' : Diary} {op : NotepadOp} (h : Stored s)
    (hs : step s op = some s') : Lossless s' ↔ Careful s op s' := by
  refine ⟨fun hl => ?_, fun hc => (stored_step h hs hc).lossless⟩
  cases op with
  | save affirmation quote timestamp createdAt =>
    obtain rfl := Option.some.inj hs
    by_contra hused
    exact h.not_lossless_save hused hl
  | reopen =>
    obtain rfl := Option.some.inj hs
    have hcount := hl.count
    rw [getAllAffirmations_reopen] at hcount
    have hsize : (AffirmationService.reopen s.notepad).affirmations.size =
        s.notepad.affirmations.size := Std.ExtTreeMap.size_map
    exact Std.ExtTreeMap.eq_empty_iff_size_eq_zero.mpr (hsize.symm.trans hcount.symm)
  | delete id => trivial
  | clear => trivial

/-- **The notepad.** A run loses nothing exactly when all its steps are careful. -/
theorem lossless_iff (ops : List NotepadOp) :
    Run.Each step (fun _ _ s => Lossless s) {} ops ↔ Run.Each step Careful {} ops :=
  Run.each_iff_of_invariant (I := Stored) (P := Careful) (Q := fun _ _ s => Lossless s)
    (fun _ _ _ h hs => lossless_iff_careful h hs) (fun _ _ _ h hs hc => stored_step h hs hc)
    ops {} stored_start

/-- An affirmation is saved, the application restarts, and nothing is listed. -/
theorem not_lossless_reopen : ¬ Run.Each step (fun _ _ s => Lossless s) {}
    [.save "I am calm." ⟨"zen_1", "", "", "Zen", "", "", none⟩ 1700000000000
      "2023-11-14T22:13:20.000", .reopen] := by
  intro hE
  rw [Run.each_cons_of_step rfl, Run.each_cons_of_step rfl] at hE
  have hall := hE.2.1.all
  rw [getAllAffirmations_reopen] at hall
  cases List.nil_perm.mp hall

end Diary

end MotiAI
