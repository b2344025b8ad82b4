import Mathlib.Data.List.Basic

/-!
# A store that mirrors what was saved

Values are saved under keys, and a store keeps some of them, encoded. `lastKept` is what was saved
last under a key among the values the store keeps, and `Mirrors` says that reading the store gives
exactly that. The rules say what saving a value has to do to the store.
-/

namespace Mirror

variable {κ ν β : Type*} [DecidableEq κ] {keeps : ν → Bool} {read : β → ν}

/-- The value the store keeps that was saved last under the key. -/
def lastKept (keeps : ν → Bool) (saves : List (κ × ν)) (k : κ) : Option ν :=
  (saves.filter fun p => p.1 = k && keeps p.2).getLast?.map Prod.snd

def Mirrors (keeps : ν → Bool) (read : β → ν) (store : κ → Option β) (saves : List (κ × ν)) :
    Prop :=
  ∀ k, (store k).map read = lastKept keeps saves k

theorem lastKept_of_keeps {v : ν} (h : keeps v = true) (saves : List (κ × ν)) (k k' : κ) :
    lastKept keeps (saves ++ [(k, v)]) k' = if k = k' then some v else lastKept keeps saves k' := by
  unfold lastKept
  rw [List.filter_append]
  by_cases hk : k = k'
  · simp [hk, h]
  · simp [hk]

theorem lastKept_of_not_keeps {v : ν} (h : keeps v = false) (saves : List (κ × ν)) (k k' : κ) :
    lastKept keeps (saves ++ [(k, v)]) k' = lastKept keeps saves k' := by
  unfold lastKept
  rw [List.filter_append]
  simp [h]

theorem mirrors_empty {store : κ → Option β} (h : ∀ k, store k = none) :
    Mirrors keeps read store [] := by
  intro k
  rw [h k]
  rfl

/-- What one operation does: it saves nothing, or a value that is kept, which is stored in an encoding
that reads back as the value, or a value that is not kept. -/
inductive Effect (keeps : ν → Bool) (read : β → ν) (store store' : κ → Option β)
    (saves saves' : List (κ × ν)) : Prop
  | none (hstore : store' = store) (hsaves : saves' = saves)
  | keep {k : κ} {v : ν} {b : β} (hv : keeps v = true) (hread : read b = v)
      (hstore : ∀ k', store' k' = if k = k' then some b else store k')
      (hsaves : saves' = saves ++ [(k, v)])
  | drop {k : κ} {v : ν} (hv : keeps v = false) (hstore : store' = store)
      (hsaves : saves' = saves ++ [(k, v)])

variable {store store' : κ → Option β} {saves saves' : List (κ × ν)}

/-- **Every effect keeps the mirror.** -/
theorem Mirrors.effect (h : Mirrors keeps read store saves)
    (he : Effect keeps read store store' saves saves') : Mirrors keeps read store' saves' := by
  intro k'
  cases he with
  | none hstore hsaves =>
    rw [hstore, hsaves]
    exact h k'
  | keep hv hread hstore hsaves =>
    rw [hsaves, lastKept_of_keeps hv, hstore k']
    split
    · rw [Option.map_some, hread]
    · exact h k'
  | drop hv hstore hsaves =>
    rw [hsaves, lastKept_of_not_keeps hv, hstore]
    exact h k'

/-- Where the store changes, a value that is kept has been saved. -/
theorem Effect.saved (he : Effect keeps read store store' saves saves') {k : κ}
    (hne : store' k ≠ store k) : ∃ v, saves' = saves ++ [(k, v)] ∧ keeps v = true := by
  cases he with
  | none hstore _ => exact absurd (congrFun hstore k) hne
  | @keep k' v b hv _ hstore hsaves =>
    rw [hstore k] at hne
    split at hne
    · rename_i hk
      exact ⟨v, hk ▸ hsaves, hv⟩
    · exact absurd rfl hne
  | drop _ hstore _ => exact absurd (congrFun hstore k) hne

end Mirror
