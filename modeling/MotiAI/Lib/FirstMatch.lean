import Mathlib.Data.List.Basic
import Mathlib.Data.List.TakeWhile

/-!
# The first match

A choice among the rows of a list is the first one that passes a test. When a second test is added by
`or`, the rows before the first match of the old test (`takeWhile` of its negation) are the only ones
that can change the choice.

1. `find?_or_eq`: the choice with two tests.
2. `find?_or_inj`: two second tests that choose the same.
3. `find?_or_eq_iff`: a second test that changes nothing.
-/

namespace FirstMatch

variable {α : Type*} {p q q' : α → Bool} {l : List α} {a : α}

/-- What is found with two tests: what the second finds before the first does, or else that. -/
theorem find?_or_eq (h : l.find? p = some a) :
    l.find? (fun x => p x || q x) = some (((l.takeWhile fun x => !p x).find? q).getD a) := by
  induction l with
  | nil => exact absurd h (by simp)
  | cons x l ih =>
    cases hp : p x with
    | true =>
      rw [List.find?_cons_of_pos hp] at h
      rw [List.find?_cons_of_pos (by simp [hp]), List.takeWhile_cons_of_neg (by simp [hp])]
      exact h
    | false =>
      rw [List.find?_cons_of_neg (by simp [hp])] at h
      rw [List.takeWhile_cons_of_pos (by simp [hp])]
      cases hq : q x with
      | true =>
        rw [List.find?_cons_of_pos (by simp [hq]), List.find?_cons_of_pos hq]
        rfl
      | false =>
        rw [List.find?_cons_of_neg (by simp [hp, hq]), List.find?_cons_of_neg (by simp [hq]), ih h]

/-- The match is not among the rows before it. -/
theorem notMem_takeWhile (h : l.find? p = some a) : a ∉ l.takeWhile fun x => !p x := by
  intro hmem
  have hno := List.mem_takeWhile_imp hmem
  rw [List.find?_some h] at hno
  exact absurd hno (by decide)

theorem getD_eq_iff (ha : a ∉ l) : (l.find? q).getD a = a ↔ ∀ x ∈ l, ¬ q x = true := by
  rw [← List.find?_eq_none]
  cases hq : l.find? q with
  | none => exact iff_of_true rfl rfl
  | some x =>
    refine iff_of_false (fun hx => ha ?_) (Option.some_ne_none x)
    rw [← show x = a from hx]
    exact List.mem_of_find?_eq_some hq

theorem getD_inj (ha : a ∉ l) :
    (l.find? q).getD a = (l.find? q').getD a ↔ l.find? q = l.find? q' := by
  refine ⟨fun h => ?_, fun h => by rw [h]⟩
  cases hq : l.find? q with
  | none =>
    rw [hq] at h
    exact (List.find?_eq_none.mpr ((getD_eq_iff ha).mp h.symm)).symm
  | some x =>
    cases hq' : l.find? q' with
    | none =>
      rw [hq'] at h
      exact hq.symm.trans (List.find?_eq_none.mpr ((getD_eq_iff ha).mp h))
    | some y =>
      rw [hq, hq'] at h
      exact congrArg some h

/-- Two second tests choose the same exactly when they find the same before the match. -/
theorem find?_or_inj (h : l.find? p = some a) :
    l.find? (fun x => p x || q x) = l.find? (fun x => p x || q' x) ↔
      (l.takeWhile fun x => !p x).find? q = (l.takeWhile fun x => !p x).find? q' := by
  rw [find?_or_eq h, find?_or_eq h, Option.some_inj, getD_inj (notMem_takeWhile h)]

/-- A second test changes nothing exactly when it finds nothing before the match. -/
theorem find?_or_eq_iff (h : l.find? p = some a) :
    l.find? (fun x => p x || q x) = l.find? p ↔
      ∀ x ∈ l.takeWhile fun x => !p x, ¬ q x = true := by
  rw [find?_or_eq h, h, Option.some_inj, getD_eq_iff (notMem_takeWhile h)]

end FirstMatch
