import MotiAI.Lib.Run

/-!
# Forward simulation

A system `step : σ → α → Option σ` against an abstract one that only knows events: `event` says which
event a step is, if it is any, `permitted` when an event may happen there, and `replay` what it does.

1. `Forward.final`: a run ends in a state that is related to the replay of its events, and each of
   these was permitted.
2. `invariant_foldl`: what permitted events keep holds after the replay.
-/

namespace Simulation

variable {σ α τ ε : Type*}

/-- The events of a run. -/
def trace (step : σ → α → Option σ) (event : σ → α → Option ε) : σ → List α → List ε
  | _, [] => []
  | s, a :: as =>
    match step s a with
    | none => []
    | some s' => (event s a).toList ++ trace step event s' as

/-- Each of the events is permitted when its turn comes. -/
def Permitted (permitted : τ → ε → Prop) (replay : τ → ε → τ) : τ → List ε → Prop
  | _, [] => True
  | t, e :: es => permitted t e ∧ Permitted permitted replay (replay t e) es

/-- A step keeps `R`, with its event replayed if it has one. -/
structure Forward (step : σ → α → Option σ) (event : σ → α → Option ε) (permitted : τ → ε → Prop)
    (replay : τ → ε → τ) (R : σ → τ → Prop) : Prop where
  silent : ∀ s a s' t, R s t → step s a = some s' → event s a = none → R s' t
  visible : ∀ s a s' t e, R s t → step s a = some s' → event s a = some e →
    permitted t e ∧ R s' (replay t e)

variable {step : σ → α → Option σ} {event : σ → α → Option ε} {permitted : τ → ε → Prop}
  {replay : τ → ε → τ} {R : σ → τ → Prop}

theorem trace_cons {s s' : σ} {a : α} (h : step s a = some s') (as : List α) :
    trace step event s (a :: as) = (event s a).toList ++ trace step event s' as := by
  simp only [trace, h]

theorem Forward.final (h : Forward step event permitted replay R) :
    ∀ {as : List α} {s s' : σ} {t : τ}, R s t → Run.final step s as = some s' →
      Permitted permitted replay t (trace step event s as) ∧
        R s' ((trace step event s as).foldl replay t)
  | [], s, s', t, hR, hs => by
    obtain rfl := Option.some.inj hs
    exact ⟨trivial, hR⟩
  | a :: as, s, s', t, hR, hs => by
    obtain ⟨s₁, hstep, hs⟩ := Option.bind_eq_some_iff.mp hs
    rw [trace_cons hstep]
    cases he : event s a with
    | none => exact h.final (h.silent s a s₁ t hR hstep he) hs
    | some e =>
      obtain ⟨hpermitted, hR'⟩ := h.visible s a s₁ t e hR hstep he
      obtain ⟨hrest, hfinal⟩ := h.final hR' hs
      exact ⟨⟨hpermitted, hrest⟩, hfinal⟩

theorem invariant_foldl {I : τ → Prop} (hI : ∀ t e, I t → permitted t e → I (replay t e)) :
    ∀ {es : List ε} {t : τ}, I t → Permitted permitted replay t es → I (es.foldl replay t)
  | [], _, ht, _ => ht
  | e :: _, t, ht, ⟨he, hes⟩ => by
    rw [List.foldl_cons]
    exact invariant_foldl hI (hI t e ht he) hes

end Simulation
