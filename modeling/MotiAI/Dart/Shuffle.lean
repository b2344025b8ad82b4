import Mathlib.Data.List.Perm.Basic

/-!
# Shuffles

`list.shuffle()` permutes a list at random. A `Shuffle` is one outcome of it; what the code takes
afterwards is the first element.
-/

namespace Dart

/-- An outcome of `List.shuffle`. -/
structure Shuffle (α : Type) where
  run : List α → List α
  perm : ∀ l, (run l).Perm l

namespace Shuffle

variable {α : Type}

/-- `(l..shuffle()).first`; an empty list has no first element. -/
def first (shuffle : Shuffle α) (l : List α) : Option α := (shuffle.run l).head?

theorem first_mem {shuffle : Shuffle α} {l : List α} {a : α} (h : shuffle.first l = some a) :
    a ∈ l :=
  (shuffle.perm l).subset (List.mem_of_head? h)

theorem first_eq_none_iff {shuffle : Shuffle α} {l : List α} : shuffle.first l = none ↔ l = [] := by
  unfold first
  rw [List.head?_eq_none_iff]
  constructor
  · intro h
    exact List.nil_perm.mp (h ▸ shuffle.perm l)
  · rintro rfl
    exact List.perm_nil.mp (shuffle.perm [])

theorem exists_first (shuffle : Shuffle α) {l : List α} (h : l ≠ []) :
    ∃ a ∈ l, shuffle.first l = some a := by
  obtain ⟨a, ha⟩ := Option.ne_none_iff_exists'.mp fun hn => h (first_eq_none_iff.mp hn)
  exact ⟨a, first_mem ha, ha⟩

/-- The outcome that leaves the order as it is. -/
def keep : Shuffle α := ⟨fun l => l, List.Perm.refl⟩

/-- The outcome that brings one element to the front. -/
def toFront [DecidableEq α] (a : α) : Shuffle α where
  run l := if a ∈ l then a :: l.erase a else l
  perm l := by
    split
    · rename_i h
      exact (List.perm_cons_erase h).symm
    · exact List.Perm.refl l

theorem toFront_first [DecidableEq α] {a : α} {l : List α} (h : a ∈ l) :
    (toFront a).first l = some a := by
  unfold first toFront
  dsimp only
  rw [if_pos h]
  rfl

end Shuffle

end Dart
