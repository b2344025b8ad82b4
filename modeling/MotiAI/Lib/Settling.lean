import Mathlib.Data.Nat.Notation
import MotiAI.Lib.Run

/-!
# Systems that settle

Some of the moves of a system are its own; the others come from outside. When every move of its own
lowers the work that is left, it cannot go on by itself for ever; and when it can make such a move
while any work is left, it goes on until none is.

1. `Settles.length_add_le`: a run of inner moves is no longer than the work there was.
2. `Settles.exists_idle`: such a run can always be continued until no work is left.
-/

namespace Settling

variable {σ α : Type*} {step : σ → α → Option σ} {I : σ → Prop} {inner : α → Prop} {work : σ → ℕ}

/-- In the states of the invariant `I`, the moves of `inner` keep it and lower `work`. -/
structure Settles (step : σ → α → Option σ) (I : σ → Prop) (inner : α → Prop) (work : σ → ℕ) :
    Prop where
  keep : ∀ s a s', I s → inner a → step s a = some s' → I s'
  lower : ∀ s a s', I s → inner a → step s a = some s' → work s' < work s

theorem Settles.length_add_le (h : Settles step I inner work) :
    ∀ {as : List α} {s t : σ}, I s → (∀ a ∈ as, inner a) → Run.final step s as = some t →
      I t ∧ as.length + work t ≤ work s
  | [], s, t, hs, _, ht => by
    obtain rfl := Option.some.inj ht
    exact ⟨hs, by simp⟩
  | a :: as, s, t, hs, has, ht => by
    obtain ⟨s', hstep, ht⟩ := Option.bind_eq_some_iff.mp ht
    have hinner := has a List.mem_cons_self
    have hlower := h.lower s a s' hs hinner hstep
    obtain ⟨hI, hle⟩ := h.length_add_le (h.keep s a s' hs hinner hstep)
      (fun b hb => has b (List.mem_cons_of_mem a hb)) ht
    refine ⟨hI, ?_⟩
    rw [List.length_cons]
    omega

/-- The moves of `A` are inner moves, one of which is possible while there is work. -/
theorem Settles.exists_idle (h : Settles step I inner work) {A : α → Prop}
    (hA : ∀ a, A a → inner a)
    (henabled : ∀ s, I s → work s ≠ 0 → ∃ a, A a ∧ ∃ s', step s a = some s') {s : σ} (hs : I s) :
    ∃ as t, (∀ a ∈ as, A a) ∧ Run.final step s as = some t ∧ I t ∧ work t = 0 := by
  -- by induction on the work that is left
  induction hwork : work s using Nat.strongRecOn generalizing s with
  | ind n ih =>
    by_cases hzero : work s = 0
    · exact ⟨[], s, fun _ h => absurd h List.not_mem_nil, rfl, hs, hzero⟩
    · obtain ⟨a, ha, s', hstep⟩ := henabled s hs hzero
      have hlower := h.lower s a s' hs (hA a ha) hstep
      rw [hwork] at hlower
      obtain ⟨as, t, has, ht, hI, hidle⟩ := ih (work s') hlower
        (h.keep s a s' hs (hA a ha) hstep) rfl
      refine ⟨a :: as, t, fun b hb => ?_, ?_, hI, hidle⟩
      · rcases List.mem_cons.mp hb with rfl | hb
        · exact ha
        · exact has b hb
      · rw [Run.final_cons hstep]
        exact ht

end Settling
