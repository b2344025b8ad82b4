import Mathlib.Logic.Basic

/-!
# Runs of a partial step function

A system is a step function `step : σ → α → Option σ` on states `σ` and labelled operations `α`;
`none` says that the operation does not complete. `final` is the state a run ends in, and `Each`
says that every step of a run has a property of its state before, its label and its state after.

Two rules turn one-step facts into facts about whole runs: `each_of_invariant`, and
`each_iff_of_invariant_of` for a property that holds of a run exactly when a condition on the state
before each step does.
-/

namespace Run

variable {σ α : Type*} (step : σ → α → Option σ)

/-- The state a run ends in, when all its operations complete. -/
def final : σ → List α → Option σ
  | s, [] => some s
  | s, a :: as => (step s a).bind fun s' => final s' as

/-- Every step of the run satisfies `Q` of the state before, the operation and the state after. -/
def Each (Q : σ → α → σ → Prop) : σ → List α → Prop
  | _, [] => True
  | s, a :: as => ∀ s', step s a = some s' → Q s a s' ∧ Each Q s' as

variable {step}

theorem final_cons {s s' : σ} {a : α} (h : step s a = some s') (as : List α) :
    final step s (a :: as) = final step s' as := by
  simp [final, h]

theorem each_cons_of_step {Q : σ → α → σ → Prop} {s s' : σ} {a : α} {as : List α}
    (h : step s a = some s') : Each step Q s (a :: as) ↔ Q s a s' ∧ Each step Q s' as := by
  constructor
  · intro hE
    exact hE s' h
  · rintro hE s'' h'
    obtain rfl : s' = s'' := Option.some.inj (h.symm.trans h')
    exact hE

theorem Each.and {P Q : σ → α → σ → Prop} :
    ∀ {as : List α} {s : σ}, Each step P s as → Each step Q s as →
      Each step (fun s a s' => P s a s' ∧ Q s a s') s as
  | [], _, _, _ => trivial
  | _ :: _, _, hP, hQ => fun s' h =>
    ⟨⟨(hP s' h).1, (hQ s' h).1⟩, Each.and (hP s' h).2 (hQ s' h).2⟩

/-- A property of the labels alone. -/
theorem each_of_forall_mem {Q : σ → α → σ → Prop} :
    ∀ {as : List α} {s : σ}, (∀ a ∈ as, ∀ s s', Q s a s') → Each step Q s as
  | [], _, _ => trivial
  | a :: _, s, h => fun s' _ =>
    ⟨h a List.mem_cons_self s s', each_of_forall_mem fun b hb => h b (List.mem_cons_of_mem a hb)⟩

/-- What holds after every step holds at the end. -/
theorem Each.final {P : σ → Prop} :
    ∀ {as : List α} {s t : σ}, Each step (fun _ _ s' => P s') s as → P s →
      final step s as = some t → P t
  | [], _, _, _, hs, ht => Option.some.inj ht ▸ hs
  | _ :: _, _, _, hE, _, ht => by
    obtain ⟨s', h, ht⟩ := Option.bind_eq_some_iff.mp ht
    exact Each.final (hE s' h).2 (hE s' h).1 ht

/-- What no step changes is the same at the end. -/
theorem Each.final_eq {β : Type*} {f : σ → β} :
    ∀ {as : List α} {s t : σ}, Each step (fun s _ s' => f s' = f s) s as →
      Run.final step s as = some t → f t = f s
  | [], _, _, _, ht => congrArg f (Option.some.inj ht).symm
  | _ :: _, _, _, hE, ht => by
    obtain ⟨s', h, ht⟩ := Option.bind_eq_some_iff.mp ht
    exact (Each.final_eq (hE s' h).2 ht).trans (hE s' h).1

theorem Each.imp {P Q : σ → α → σ → Prop} (hPQ : ∀ s a s', P s a s' → Q s a s') :
    ∀ {as : List α} {s : σ}, Each step P s as → Each step Q s as
  | [], _, _ => trivial
  | _ :: _, _, hE => fun s' h => ⟨hPQ _ _ _ (hE s' h).1, Each.imp hPQ (hE s' h).2⟩

/-- A run in two parts. -/
theorem each_append {Q : σ → α → σ → Prop} :
    ∀ {as bs : List α} {s t : σ}, Run.final step s as = some t →
      (Each step Q s (as ++ bs) ↔ Each step Q s as ∧ Each step Q t bs)
  | [], _, _, _, ht => by
    obtain rfl := Option.some.inj ht
    exact ⟨fun h => ⟨trivial, h⟩, And.right⟩
  | _ :: _, _, _, _, ht => by
    obtain ⟨s', h, ht⟩ := Option.bind_eq_some_iff.mp ht
    rw [List.cons_append, each_cons_of_step h, each_cons_of_step h, each_append ht, and_assoc]

/-- An inductive invariant gives its consequences at every step of a run. -/
theorem each_of_invariant {I : σ → Prop} {P Q : σ → α → σ → Prop}
    (hstep : ∀ s a s', I s → step s a = some s' → P s a s' → I s' ∧ Q s a s') :
    ∀ (as : List α) (s : σ), I s → Each step P s as → Each step Q s as := by
  intro as
  induction as with
  | nil => intro s _ _; trivial
  | cons a as ih =>
    intro s hs hok s' h
    obtain ⟨hoka, hoks⟩ := hok s' h
    obtain ⟨hs', hQ⟩ := hstep s a s' hs h hoka
    exact ⟨hQ, ih s' hs' hoks⟩

/-- If, from the states of an invariant and under an assumption `H` on the steps, a step has the
property `Q` exactly when it meets `P`, and steps that meet `P` keep the invariant, then a run has
`Q` throughout exactly when all its steps meet `P`. -/
theorem each_iff_of_invariant_of {I : σ → Prop} {H P Q : σ → α → σ → Prop}
    (hQ : ∀ s a s', I s → H s a s' → step s a = some s' → (Q s a s' ↔ P s a s'))
    (hInv : ∀ s a s', I s → H s a s' → step s a = some s' → P s a s' → I s') :
    ∀ (as : List α) (s : σ), I s → Each step H s as → (Each step Q s as ↔ Each step P s as) := by
  intro as
  induction as with
  | nil => intro s _ _; exact Iff.rfl
  | cons a as ih =>
    intro s hs hH
    constructor
    · intro hE s' h
      obtain ⟨hq, hE'⟩ := hE s' h
      obtain ⟨hh, hH'⟩ := hH s' h
      have hok := (hQ s a s' hs hh h).mp hq
      exact ⟨hok, (ih s' (hInv s a s' hs hh h hok) hH').mp hE'⟩
    · intro hE s' h
      obtain ⟨hok, hE'⟩ := hE s' h
      obtain ⟨hh, hH'⟩ := hH s' h
      exact ⟨(hQ s a s' hs hh h).mpr hok, (ih s' (hInv s a s' hs hh h hok) hH').mpr hE'⟩

theorem each_iff_of_invariant {I : σ → Prop} {P Q : σ → α → σ → Prop}
    (hQ : ∀ s a s', I s → step s a = some s' → (Q s a s' ↔ P s a s'))
    (hInv : ∀ s a s', I s → step s a = some s' → P s a s' → I s') (as : List α) (s : σ)
    (hs : I s) : Each step Q s as ↔ Each step P s as :=
  each_iff_of_invariant_of (H := fun _ _ _ => True) (fun s a s' h _ => hQ s a s' h)
    (fun s a s' h _ => hInv s a s' h) as s hs (each_of_forall_mem fun _ _ _ _ => trivial)

end Run
