import MotiAI.Lib.Run
import MotiAI.Store

/-!
# Interrupted starts

`initialize` cut at the box operations it awaits: the clear of a migration and one put for each
initial quote. The process may stop after any of them, and the next start finds the box as it was
left.

`recovered_iff`: a completed start repairs the interrupted ones before it exactly when none of them
stopped with some of the initial quotes put, but not all.
-/

namespace MotiAI

open Dart Hive HiveQuoteService

namespace Startup

/-- A box operation that `initialize` awaits. -/
inductive BoxOp where
  | clear
  | put (quote : Quote)

def BoxOp.run : BoxOp → Box Val → Box Val
  | .clear, _ => ∅
  | .put quote, b => addQuote quote b

def runAll (ops : List BoxOp) (b : Box Val) : Box Val := ops.foldl (fun b op => op.run b) b

/-- The one-time migration. -/
def migration (b : Box Val) : List BoxOp := if (b.getAt 0).any Json.isMap then [.clear] else []

/-- The operations of an `initialize`. -/
def operations (b : Box Val) : List BoxOp :=
  migration b ++ if (runAll (migration b) b).isEmpty then initialQuotes.map .put else []

/-- The box after an `initialize` that stops behind its first `k` operations. -/
def interrupted (k : ℕ) (b : Box Val) : Box Val := runAll ((operations b).take k) b

/-- A start that stops. -/
def step (b : Box Val) (k : ℕ) : Option (Box Val) := some (interrupted k b)

/-- No initial quote has been put, or all operations are done. -/
def Whole (b : Box Val) (k : ℕ) (_ : Box Val) : Prop :=
  (∀ quote, .put quote ∉ (operations b).take k) ∨ (operations b).length ≤ k

/-- The first `j` initial quotes. -/
def partialLoad (j : ℕ) : Box Val := runAll ((initialQuotes.map .put).take j) ∅

/-! ## What is left behind -/

theorem runAll_append (ops ops' : List BoxOp) (b : Box Val) :
    runAll (ops ++ ops') b = runAll ops' (runAll ops b) := List.foldl_append

theorem runAll_put (quotes : List Quote) (b : Box Val) :
    runAll (quotes.map .put) b = quotes.foldl (fun b quote => addQuote quote b) b := List.foldl_map

theorem partialLoad_eq (j : ℕ) :
    partialLoad j = (initialQuotes.take j).foldl (fun b quote => addQuote quote b) ∅ := by
  unfold partialLoad
  rw [← List.map_take, runAll_put]

/-- An uninterrupted `initialize` runs all its operations. -/
theorem initializeBoxes_eq (b : Box Val) : initializeBoxes b = runAll (operations b) b := by
  have hmigrated : runAll (migration b) b = if (b.getAt 0).any Json.isMap then ∅ else b := by
    unfold migration
    split <;> rfl
  unfold initializeBoxes operations
  rw [runAll_append, hmigrated]
  generalize (if (b.getAt 0).any Json.isMap then ∅ else b) = opened
  dsimp only
  cases opened.isEmpty with
  | true =>
    rw [if_pos rfl, if_pos rfl, runAll_put]
    unfold loadInitialQuotes
    rfl
  | false => rfl

theorem partialLoad_of_le {j : ℕ} (h : initialQuotes.length ≤ j) :
    partialLoad j = loadInitialQuotes ∅ := by
  rw [partialLoad_eq, List.take_of_length_le h]
  rfl

/-- Some initial quotes are in the box, and no map. -/
theorem wellTyped_partialLoad (j : ℕ) : WellTyped (partialLoad j) := by
  rw [partialLoad_eq]
  exact List.foldlRecOn _ _ wellTyped_empty fun _ hb quote _ => WellTyped.addQuote hb quote

theorem partialLoad_ne_empty {j : ℕ} (h : 0 < j) : partialLoad j ≠ ∅ := by
  rw [partialLoad_eq]
  refine foldl_addQuote_ne_empty ?_ ∅
  intro hnil
  rcases List.take_eq_nil_iff.mp hnil with hj | hq
  · omega
  · exact initialQuotes_ne_nil hq

/-- The next start takes a part of the initial quotes for all of them. -/
theorem initializeBoxes_partialLoad {j : ℕ} (h : 0 < j) :
    initializeBoxes (partialLoad j) = partialLoad j :=
  initializeBoxes_of_quotes (wellTyped_partialLoad j).quotes (partialLoad_ne_empty h)

/-- The last initial quote is only put at the end. -/
theorem partialLoad_ne_full {j : ℕ} (h : j < initialQuotes.length) :
    partialLoad j ≠ loadInitialQuotes ∅ := by
  have hlast : "social_justice_writing" ∉ initialQuotes.dropLast.map Quote.id := by decide +kernel
  have hfull : "social_justice_writing" ∈ initialQuotes.map Quote.id := by decide +kernel
  have hsub : initialQuotes.take j ⊆ initialQuotes.dropLast := by
    rw [List.dropLast_eq_take]
    exact (List.take_prefix_take_left (by omega)).subset
  intro heq
  have hmem : "social_justice_writing" ∈ partialLoad j := by
    rw [heq]
    exact mem_foldl_addQuote.mpr (Or.inl hfull)
  rw [partialLoad_eq] at hmem
  rcases mem_foldl_addQuote.mp hmem with hid | hempty
  · exact hlast (List.map_subset Quote.id hsub hid)
  · exact Std.ExtTreeMap.not_mem_empty hempty

/-- A start does nothing, or it puts the initial quotes into a box that it finds or makes empty. -/
theorem operations_cases (b : Box Val) :
    operations b = [] ∨
    (initializeBoxes b = loadInitialQuotes ∅ ∧ runAll (migration b) b = ∅ ∧
      operations b = migration b ++ initialQuotes.map .put) := by
  have hops : (runAll (migration b) b).isEmpty = true →
      operations b = migration b ++ initialQuotes.map .put := by
    intro he
    unfold operations
    rw [if_pos he]
  cases hmap : (b.getAt 0).any Json.isMap with
  | true =>
    have hcleared : runAll (migration b) b = ∅ := by
      unfold migration
      rw [if_pos hmap]
      rfl
    refine Or.inr ⟨initializeBoxes_of_isMap hmap, hcleared, hops ?_⟩
    rw [hcleared]
    exact Std.ExtTreeMap.isEmpty_empty
  | false =>
    have hnone : migration b = [] := by
      unfold migration
      rw [hmap]
      rfl
    have hsame : runAll (migration b) b = b := by
      rw [hnone]
      rfl
    by_cases hb : b = ∅
    · refine Or.inr ⟨?_, hsame.trans hb, hops ?_⟩
      · rw [hb]
        exact initializeBoxes_empty
      · rw [hsame, hb]
        exact Std.ExtTreeMap.isEmpty_empty
    · refine Or.inl ?_
      unfold operations
      rw [hsame, hnone, Std.ExtTreeMap.isEmpty_eq_false_iff.mpr hb]
      rfl

theorem put_notMem_take_migration (b : Box Val) (k : ℕ) (quote : Quote) :
    .put quote ∉ (migration b).take k := by
  intro h
  have hput := List.mem_of_mem_take h
  unfold migration at hput
  split at hput
  · cases List.mem_singleton.mp hput
  · cases hput

/-- An interrupted start leaves a box that the next one completes, or a part of the initial quotes
that the next one takes for all of them. -/
theorem interrupted_cases (b : Box Val) (k : ℕ) :
    (Whole b k (interrupted k b) ∧ initializeBoxes (interrupted k b) = initializeBoxes b) ∨
    (¬ Whole b k (interrupted k b) ∧ initializeBoxes b = loadInitialQuotes ∅ ∧
      ∃ j, 0 < j ∧ j < initialQuotes.length ∧ interrupted k b = partialLoad j) := by
  unfold Whole interrupted
  rcases operations_cases b with hnil | ⟨hfull, hcleared, hops⟩
  · rw [hnil]
    exact Or.inl ⟨Or.inr (Nat.zero_le k), by rw [List.take_nil]; rfl⟩
  · rw [hops]
    rcases Nat.lt_or_ge (migration b).length k with hlt | hle
    · -- the migration is over, and `j` quotes have been put
      obtain ⟨j, rfl⟩ := Nat.exists_eq_add_of_lt hlt
      have htake : (migration b ++ initialQuotes.map BoxOp.put).take ((migration b).length + j + 1) =
          migration b ++ (initialQuotes.map .put).take (j + 1) := by
        rw [Nat.add_assoc, List.take_length_add_append]
      have hleft : runAll ((initialQuotes.map .put).take (j + 1)) ∅ = partialLoad (j + 1) := rfl
      rw [htake, runAll_append, hcleared, hleft, List.length_append, List.length_map]
      rcases Nat.lt_or_ge (j + 1) initialQuotes.length with hj | hj
      · refine Or.inr ⟨?_, hfull, j + 1, Nat.succ_pos j, hj, rfl⟩
        rintro (hno | hlen)
        · obtain ⟨quote, quotes, hq⟩ := List.exists_cons_of_ne_nil initialQuotes_ne_nil
          apply hno quote
          rw [hq, List.map_cons, List.take_succ_cons]
          exact List.mem_append_right _ List.mem_cons_self
        · omega
      · refine Or.inl ⟨Or.inr (by omega), ?_⟩
        rw [hfull, initializeBoxes_partialLoad (Nat.succ_pos j), partialLoad_of_le hj]
    · rw [List.take_append_of_le_length hle]
      refine Or.inl ⟨Or.inl (put_notMem_take_migration b k), ?_⟩
      rcases Nat.lt_or_ge k (migration b).length with hk | hk
      · have hzero : k = 0 := by
          have hlen : (migration b).length ≤ 1 := by
            unfold migration
            split <;> simp
          omega
        rw [hzero]
        rfl
      · rw [List.take_of_length_le hk, hcleared, initializeBoxes_empty, hfull]

/-- A part of the initial quotes stays as it is. -/
theorem interrupted_partialLoad {j : ℕ} (h : 0 < j) (k : ℕ) :
    interrupted k (partialLoad j) = partialLoad j := by
  have hops : operations (partialLoad j) = [] := by
    have hmap := any_isMap_of_quotes (wellTyped_partialLoad j).quotes
    have hne := Std.ExtTreeMap.isEmpty_eq_false_iff.mpr (partialLoad_ne_empty h)
    have hnone : migration (partialLoad j) = [] := by
      unfold migration
      rw [hmap]
      rfl
    unfold operations
    rw [hnone]
    show (if (partialLoad j).isEmpty then _ else _) = _
    rw [hne]
    rfl
  unfold interrupted
  rw [hops, List.take_nil]
  rfl

/-! ## Starts in a row -/

/-- **Startup survives interruption** exactly when no start stops with some of the initial quotes
put, but not all: then a completed start after any number of interrupted ones leaves the box as if
none of these had been. -/
theorem recovered_iff (b : Box Val) (stops : List ℕ) :
    initializeBoxes (stops.foldl (fun b k => interrupted k b) b) = initializeBoxes b ↔
      Run.Each step Whole b stops := by
  induction stops generalizing b with
  | nil => exact iff_of_true rfl trivial
  | cons k stops ih =>
    have hstep : step b k = some (interrupted k b) := rfl
    rw [List.foldl_cons, Run.each_cons_of_step hstep]
    rcases interrupted_cases b k with ⟨hwhole, hsame⟩ | ⟨hpart, hfull, j, hpos, hlt, hj⟩
    · rw [← hsame, ih]
      exact (and_iff_right hwhole).symm
    · refine iff_of_false ?_ fun h => hpart h.1
      have hstays : stops.foldl (fun b k => interrupted k b) (partialLoad j) = partialLoad j := by
        clear ih
        induction stops with
        | nil => rfl
        | cons k stops ih =>
          rw [List.foldl_cons, interrupted_partialLoad hpos]
          exact ih
      rw [hj, hstays, initializeBoxes_partialLoad hpos, hfull]
      exact partialLoad_ne_full hlt

/-- The first start stops after one quote, and that quote is all there ever is. -/
theorem not_recovered_firstQuote :
    initializeBoxes ([1].foldl (fun b k => interrupted k b) ∅) ≠ initializeBoxes ∅ := by
  have hone : interrupted 1 ∅ = partialLoad 1 := rfl
  show initializeBoxes (interrupted 1 ∅) ≠ _
  rw [hone, initializeBoxes_partialLoad Nat.one_pos, initializeBoxes_empty]
  exact partialLoad_ne_full (by decide)

end Startup

end MotiAI
