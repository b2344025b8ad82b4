import Mathlib

/-!
# Calls in flight

Calls that are pending together are a list, in the order in which they started. A new call is
appended; a call that goes on is set at its place, and the others are as they were.
-/

namespace Flight

variable {κ : Type*} {calls : List κ} {i j : ℕ} {c c' : κ}

/-- After a call has started, a call is that one, or an earlier one. -/
theorem concat_cases (h : (calls ++ [c])[j]? = some c') :
    calls[j]? = some c' ∨ j = calls.length ∧ c' = c := by
  rw [List.getElem?_append] at h
  split at h
  · exact Or.inl h
  · rename_i hle
    rw [List.getElem?_singleton] at h
    split at h
    · rename_i hzero
      exact Or.inr ⟨by omega, (Option.some.inj h).symm⟩
    · cases h

/-- After call `i` has gone on, a call is that one, or another one as it was. -/
theorem set_cases (h : (calls.set i c)[j]? = some c') :
    j = i ∧ c' = c ∨ j ≠ i ∧ calls[j]? = some c' := by
  rw [List.getElem?_set] at h
  split at h
  · rename_i hij
    split at h
    · exact Or.inl ⟨hij.symm, (Option.some.inj h).symm⟩
    · cases h
  · rename_i hij
    exact Or.inr ⟨Ne.symm hij, h⟩

/-- All calls have a property when the one that has gone on has it, and the others have. -/
theorem forall_mem_set_iff {P : κ → Prop} (hi : i < calls.length) :
    (∀ c' ∈ calls.set i c, P c') ↔ P c ∧ ∀ j c', j ≠ i → calls[j]? = some c' → P c' := by
  constructor
  · intro h
    refine ⟨h c (List.mem_set hi c), fun j c' hj hc => ?_⟩
    refine h c' (List.mem_of_getElem? (i := j) ?_)
    rw [List.getElem?_set_ne (Ne.symm hj)]
    exact hc
  · rintro ⟨hself, hothers⟩ c' hc
    obtain ⟨j, hj⟩ := List.mem_iff_getElem?.mp hc
    rcases set_cases hj with ⟨-, rfl⟩ | ⟨hji, hj⟩
    · exact hself
    · exact hothers j c' hji hj

/-- How many calls satisfy `p`, after one of them has gone on. -/
theorem countP_set_add (hi : calls[i]? = some c) (c' : κ) (p : κ → Bool) :
    (calls.set i c').countP p + (if p c then 1 else 0) =
      calls.countP p + if p c' then 1 else 0 := by
  obtain ⟨hlt, hget⟩ := List.getElem?_eq_some_iff.mp hi
  rw [List.countP_set hlt, hget]
  have hpos : p c = true → 0 < calls.countP p := by
    intro hp
    exact List.countP_pos_iff.mpr ⟨c, List.mem_of_getElem? hi, hp⟩
  by_cases hp : p c = true
  · have := hpos hp
    simp only [hp, if_true]
    omega
  · simp only [hp, if_false, Bool.false_eq_true]
    omega

/-- What is left of all calls, after one of them has gone on. -/
theorem sum_map_set_add (hi : calls[i]? = some c) (c' : κ) (left : κ → ℕ) :
    ((calls.set i c').map left).sum + left c = (calls.map left).sum + left c' := by
  induction calls generalizing i with
  | nil => cases hi
  | cons head tail ih =>
    cases i with
    | zero =>
      obtain rfl := Option.some.inj hi
      simp only [List.set_cons_zero, List.map_cons, List.sum_cons]
      omega
    | succ i =>
      have hrest := ih hi
      simp only [List.set_cons_succ, List.map_cons, List.sum_cons]
      omega

theorem sum_map_eq_zero_iff (left : κ → ℕ) :
    (calls.map left).sum = 0 ↔ ∀ c ∈ calls, left c = 0 := by
  rw [List.sum_eq_zero_iff_forall_eq_nat]
  exact List.forall_mem_map

end Flight
