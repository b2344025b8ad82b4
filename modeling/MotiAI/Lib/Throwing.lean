import Mathlib.Logic.Basic

/-!
# Programs that throw

A program `EStateM Unit σ α` changes a state and may throw. What is thrown carries nothing, and the
changes made before it stay, also where it is caught. The rules compute runs: of a sequence, of a
`try` that swallows what is thrown, and of a loop whose turns never throw, which is a fold.
-/

namespace Throwing

variable {σ α β : Type}

/-- Goes on with a value, or throws. -/
def orThrow : Option α → EStateM Unit σ α
  | none => throw ()
  | some a => pure a

/-- `try … catch`, where the handler does nothing. -/
def catching (p : EStateM Unit σ Unit) : EStateM Unit σ Unit := tryCatch p fun _ => pure ()

theorem run_bind_of_ok {p : EStateM Unit σ α} {q : α → EStateM Unit σ β} {s s' : σ} {a : α}
    (h : p.run s = .ok a s') : (p >>= q).run s = (q a).run s' := by
  show EStateM.bind p q s = q a s'
  unfold EStateM.bind
  rw [show p s = .ok a s' from h]

theorem run_bind_of_throws {p : EStateM Unit σ α} {q : α → EStateM Unit σ β} {s s' : σ}
    (h : p.run s = .error () s') : (p >>= q).run s = .error () s' := by
  show EStateM.bind p q s = _
  unfold EStateM.bind
  rw [show p s = .error () s' from h]

theorem run_orThrow_bind (a? : Option α) (q : α → EStateM Unit σ β) (s : σ) :
    (orThrow a? >>= q).run s = match a? with
      | some a => (q a).run s
      | none => .error () s := by
  cases a? with
  | some a => rfl
  | none => rfl

/-- However a program ends, it ends normally when what it throws is caught. -/
theorem run_catching {p : EStateM Unit σ Unit} {s s' : σ}
    (h : p.run s = .ok () s' ∨ p.run s = .error () s') : (catching p).run s = .ok () s' := by
  show EStateM.tryCatch p (fun _ => pure ()) s = _
  unfold EStateM.tryCatch
  rcases h with h | h
  · rw [show p s = .ok () s' from h]
  · rw [show p s = .error () s' from h]
    rfl

/-- **A loop whose turns never throw** goes through all of them. -/
theorem run_forM {p : α → EStateM Unit σ PUnit} {f : σ → α → σ}
    (h : ∀ a s, (p a).run s = .ok () (f s a)) (l : List α) (s : σ) :
    (l.forM p).run s = .ok () (l.foldl f s) := by
  induction l generalizing s with
  | nil => rfl
  | cons a l ih =>
    show (p a >>= fun _ => l.forM p).run s = .ok () (l.foldl f (f s a))
    rw [run_bind_of_ok (h a s)]
    exact ih (f s a)

end Throwing
