import Mathlib.Data.Finset.Image
import Mathlib.Logic.Function.Basic

/-!
# Rotations with one set of used keys

Groups have disjoint finite sets of keys. A key of a group is taken while it is not among the used
keys; when all keys of the group are used, the used keys of all groups are forgotten and any key of
the group is taken. `since` says which keys of a group have been taken since its last complete round.

1. `Shows.fresh`: while the used keys are forgotten only when no other group is within a round, a key
   is taken at most once a round.
2. `Shows.records`, `Records.perm`: a group that has its used keys for itself takes every key once
   between two resets, also while its keys become more.
-/

namespace Rotation

section

variable {G K : Type*} [DecidableEq G] [DecidableEq K] (keys : G → Finset K)

/-- The round of `g` after `k` was taken; a complete round is the start of the next. -/
def nextSince (since : G → Finset K) (g : G) (k : K) : G → Finset K :=
  Function.update since g (if keys g ⊆ insert k (since g) then ∅ else insert k (since g))

/-- Of group `g` the key `k` is taken, which changes the used keys. -/
structure Shows (used : Finset K) (g : G) (k : K) (used' : Finset K) : Prop where
  mem : k ∈ keys g
  next : (k ∉ used ∧ used' = insert k used) ∨ (keys g ⊆ used ∧ used' = {k})

/-- The used keys are forgotten only when no other group is within a round. -/
def Undisturbed (used : Finset K) (since : G → Finset K) (g : G) : Prop :=
  keys g ⊆ used → ∀ g', g' ≠ g → since g' = ∅

/-- The used keys of a group are those of its round, or all when no round has begun. -/
structure Inv (used : Finset K) (since : G → Finset K) : Prop where
  incomplete : ∀ g, ¬ keys g ⊆ since g
  round : ∀ g, (∀ k ∈ keys g, k ∈ used ↔ k ∈ since g) ∨ (since g = ∅ ∧ keys g ⊆ used)

variable {keys}

omit [DecidableEq G] [DecidableEq K] in
theorem inv_empty (hne : ∀ g, (keys g).Nonempty) : Inv keys ∅ fun _ => ∅ where
  incomplete g h := (hne g).ne_empty (Finset.subset_empty.mp h)
  round _ := Or.inl fun _ _ => Iff.rfl

theorem nextSince_of_ne {since : G → Finset K} {g g' : G} (h : g' ≠ g) (k : K) :
    nextSince keys since g k g' = since g' :=
  Function.update_of_ne h _ _

/-- The invariant is about each group on its own. -/
theorem Inv.next {used used' : Finset K} {since : G → Finset K} {g : G} {k : K}
    (hne : (keys g).Nonempty) (hinv : Inv keys used since)
    (hg : ∀ k' ∈ keys g, k' ∈ used' ↔ k' ∈ insert k (since g))
    (hother : ∀ g', g' ≠ g →
      (∀ k' ∈ keys g', k' ∈ used' ↔ k' ∈ since g') ∨ (since g' = ∅ ∧ keys g' ⊆ used')) :
    Inv keys used' (nextSince keys since g k) := by
  constructor
  · intro g'
    by_cases h : g' = g
    · subst h
      unfold nextSince
      rw [Function.update_self]
      split
      · exact fun hsub => hne.ne_empty (Finset.subset_empty.mp hsub)
      · rename_i hnot
        exact hnot
    · rw [nextSince_of_ne h]
      exact hinv.incomplete g'
  · intro g'
    by_cases h : g' = g
    · subst h
      unfold nextSince
      rw [Function.update_self]
      split
      · rename_i hfull
        exact Or.inr ⟨rfl, fun k' hk' => (hg k' hk').mpr (hfull hk')⟩
      · exact Or.inl hg
    · rw [nextSince_of_ne h]
      exact hother g' h

/-- **A key is taken once a round**, and the next step is as good as this one. -/
theorem Shows.fresh {used used' : Finset K} {since : G → Finset K} {g : G} {k : K}
    (hdisjoint : ∀ g g' k, k ∈ keys g → k ∈ keys g' → g = g')
    (hinv : Inv keys used since) (hundisturbed : Undisturbed keys used since g)
    (h : Shows keys used g k used') :
    k ∉ since g ∧ Inv keys used' (nextSince keys since g k) := by
  have hne : (keys g).Nonempty := ⟨k, h.mem⟩
  have hnot : ∀ g', g' ≠ g → k ∉ keys g' := fun g' hg' hk => hg' (hdisjoint g' g k hk h.mem)
  rcases h.next with ⟨hk, rfl⟩ | ⟨hall, rfl⟩
  · -- an unused key: the used keys of `g` are those of its round
    have hround : ∀ k ∈ keys g, k ∈ used ↔ k ∈ since g :=
      (hinv.round g).resolve_right fun hfull => hk (hfull.2 h.mem)
    refine ⟨fun hmem => hk ((hround k h.mem).mpr hmem), hinv.next hne ?_ ?_⟩
    · intro k' hk'
      rw [Finset.mem_insert, Finset.mem_insert, hround k' hk']
    · intro g' hg'
      refine (hinv.round g').imp (fun hiff k' hk' => ?_) fun hfull => ?_
      · rw [Finset.mem_insert, hiff k' hk']
        exact or_iff_right fun heq => hnot g' hg' (heq ▸ hk')
      · exact ⟨hfull.1, hfull.2.trans (Finset.subset_insert k used)⟩
  · -- all keys of `g` are used: its round is complete, and no other group is within one
    have hempty : since g = ∅ := by
      rcases hinv.round g with hround | hfull
      · exact absurd (fun k' hk' => (hround k' hk').mp (hall hk')) (hinv.incomplete g)
      · exact hfull.1
    refine ⟨?_, hinv.next hne ?_ ?_⟩
    · rw [hempty]
      exact Finset.notMem_empty k
    · intro k' _
      rw [hempty, Finset.mem_insert, Finset.mem_singleton]
      simp
    · intro g' hg'
      rw [hundisturbed hall g' hg']
      refine Or.inl fun k' hk' => iff_of_false (fun heq => ?_) (Finset.notMem_empty k')
      exact hnot g' hg' (Finset.mem_singleton.mp heq ▸ hk')

end

/-! ## A group with its own used keys -/

section Records

variable {G K : Type*} [DecidableEq K] {keys : G → Finset K} {used used' : Finset K} {g : G} {k : K}
  {round : List K}

/-- The keys taken since the used keys were last forgotten, in their order. -/
def nextRound (keys used : Finset K) (round : List K) (k : K) : List K :=
  if keys ⊆ used then [k] else round ++ [k]

/-- The used keys are those taken since they were last forgotten, each taken once. -/
structure Records (used : Finset K) (round : List K) : Prop where
  nodup : round.Nodup
  mem : ∀ k, k ∈ used ↔ k ∈ round

omit [DecidableEq K] in
theorem records_empty : Records (∅ : Finset K) [] where
  nodup := List.nodup_nil
  mem k := by simp

theorem mem_of_mem_nextRound {keys : Finset K} {k' : K} (h : k' ∈ nextRound keys used round k) :
    k' = k ∨ k' ∈ round := by
  unfold nextRound at h
  split at h
  · exact Or.inl (List.mem_singleton.mp h)
  · exact (List.mem_append.mp h).symm.imp_left List.mem_singleton.mp

/-- A key that is taken while another one is unused is itself unused. -/
theorem Shows.notMem_of_exists (h : Shows keys used g k used') (hr : Records used round)
    (hex : ∃ k' ∈ keys g, k' ∉ round) : k ∉ round := by
  obtain ⟨k', hk', hnew⟩ := hex
  rcases h.next with ⟨hk, -⟩ | ⟨hall, -⟩
  · exact fun hmem => hk ((hr.mem k).mpr hmem)
  · exact absurd ((hr.mem k').mp (hall hk')) hnew

theorem Shows.records (h : Shows keys used g k used') (hr : Records used round) :
    Records used' (nextRound (keys g) used round k) := by
  unfold nextRound
  rcases h.next with ⟨hk, rfl⟩ | ⟨hall, rfl⟩
  · rw [if_neg fun hall => hk (hall h.mem)]
    have hnew : k ∉ round := fun hmem => hk ((hr.mem k).mpr hmem)
    refine ⟨List.nodup_append.mpr ⟨hr.nodup, List.nodup_singleton k, ?_⟩, fun k' => ?_⟩
    · rintro a ha b hb rfl
      exact hnew (List.mem_singleton.mp hb ▸ ha)
    · rw [Finset.mem_insert, List.mem_append, List.mem_singleton, hr.mem k', or_comm]
  · rw [if_pos hall]
    exact ⟨List.nodup_singleton k, fun k' => by simp⟩

omit [DecidableEq K] in
/-- **A complete round** takes every key once. -/
theorem Records.perm {ks : List K} (hr : Records used round) (hnodup : ks.Nodup)
    (hsub : ∀ k ∈ round, k ∈ ks) (hall : ∀ k ∈ ks, k ∈ used) : round.Perm ks :=
  (List.perm_ext_iff_of_nodup hr.nodup hnodup).mpr fun k =>
    ⟨hsub k, fun hk => (hr.mem k).mp (hall k hk)⟩

end Records

end Rotation
