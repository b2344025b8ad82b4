import Mathlib.Data.List.Basic
import Mathlib.Logic.Function.Basic

/-!
# A memo behind two levels of caching

A memo keeps, for each key, the first value worth keeping that its source gave. Its implementation
has a memory, which may lose entries at any time, and a disk, which keeps them; a value that is not
worth keeping stays in the memory only.

1. `TwoLevel.get_gives`: a lookup through both levels is an answer of the memo that the disk holds.
2. `Gives.stable`: once a kept value has been answered for a key, every later answer for the key is
   that value, and the source is not asked again.
3. `TwoLevel.Sound`: the invariant of the two levels and the answers they gave.
-/

namespace Memo

variable {κ ν : Type*} [DecidableEq κ]

/-- An answer for a key, and whether the source was asked for it. -/
structure Answer (κ ν : Type*) where
  key : κ
  value : Option ν
  asked : Bool

section

variable (keeps : ν → Bool)

/-- What a memo answers, and the memo afterwards. -/
inductive Gives (memo : κ → Option ν) : Answer κ ν → (κ → Option ν) → Prop
  | held {k : κ} {v : ν} (h : memo k = some v) : Gives memo ⟨k, some v, false⟩ memo
  | passing {k : κ} {v : ν} (h : memo k = none) (hv : keeps v = false) (asked : Bool) :
      Gives memo ⟨k, some v, asked⟩ memo
  | found {k : κ} {v : ν} (h : memo k = none) (hv : keeps v = true) (asked : Bool) :
      Gives memo ⟨k, some v, asked⟩ (Function.update memo k (some v))
  | nothing {k : κ} (h : memo k = none) (asked : Bool) : Gives memo ⟨k, none, asked⟩ memo

/-- The answer has a value that is kept. -/
def Answer.Keeps (a : Answer κ ν) (v : ν) : Prop := a.value = some v ∧ keeps v = true

/-- An answer with a kept value is the answer for its key from then on, without asking. -/
def Stable (answers : List (Answer κ ν)) : Prop :=
  answers.Pairwise fun a b => a.key = b.key → ∀ v, a.Keeps keeps v →
    b.value = some v ∧ b.asked = false

/-- The memo holds the kept values that were answered. -/
def Recorded (memo : κ → Option ν) (answers : List (Answer κ ν)) : Prop :=
  ∀ a ∈ answers, ∀ v, a.Keeps keeps v → memo a.key = some v

end

variable {keeps : ν → Bool} {memo memo' : κ → Option ν} {a : Answer κ ν}
  {answers : List (Answer κ ν)}

/-- A memo forgets nothing. -/
theorem Gives.memo_le (h : Gives keeps memo a memo') {k : κ} {v : ν} (hv : memo k = some v) :
    memo' k = some v := by
  cases h with
  | @found k' v' hnone =>
    have hne : k ≠ k' := by
      rintro rfl
      exact absurd (hv.symm.trans hnone) (Option.some_ne_none v)
    rw [Function.update_of_ne hne]
    exact hv
  | _ => exact hv

theorem Gives.memo_of_keeps (h : Gives keeps memo a memo') {v : ν} (hv : a.Keeps keeps v) :
    memo' a.key = some v := by
  obtain ⟨hvalue, hkeeps⟩ := hv
  cases h with
  | held hmemo =>
    obtain rfl := Option.some.inj hvalue
    exact hmemo
  | passing _ hno _ =>
    obtain rfl := Option.some.inj hvalue
    exact absurd (hno.symm.trans hkeeps) Bool.false_ne_true
  | found =>
    obtain rfl := Option.some.inj hvalue
    exact Function.update_self _ _ _
  | nothing => cases hvalue

/-- What the memo holds is answered without asking. -/
theorem Gives.of_held (h : Gives keeps memo a memo') {v : ν} (hv : memo a.key = some v) :
    a.value = some v ∧ a.asked = false := by
  cases h with
  | held hmemo => exact ⟨hmemo.symm.trans hv, rfl⟩
  | passing hnone _ _ => exact absurd (hv.symm.trans hnone) (Option.some_ne_none v)
  | found hnone => exact absurd (hv.symm.trans hnone) (Option.some_ne_none v)
  | nothing hnone => exact absurd (hv.symm.trans hnone) (Option.some_ne_none v)

theorem Recorded.gives (hr : Recorded keeps memo answers) (h : Gives keeps memo a memo') :
    Recorded keeps memo' (answers ++ [a]) := by
  intro b hb v hv
  rcases List.mem_append.mp hb with hb | hb
  · exact h.memo_le (hr b hb v hv)
  · obtain rfl := List.mem_singleton.mp hb
    exact h.memo_of_keeps hv

/-- **A memo is stable**: one more answer keeps the answers stable. -/
theorem Gives.stable (hs : Stable keeps answers) (hr : Recorded keeps memo answers)
    (h : Gives keeps memo a memo') : Stable keeps (answers ++ [a]) := by
  refine List.pairwise_append.mpr ⟨hs, List.pairwise_singleton _ _, ?_⟩
  intro b hb a' ha' hkey v hv
  obtain rfl := List.mem_singleton.mp ha'
  exact h.of_held (hkey ▸ hr b hb v hv)

/-! ## Two levels -/

/-- A memory that may lose entries, over a disk. -/
structure TwoLevel (κ ν : Type*) where
  memory : κ → Option ν
  disk : κ → Option ν

namespace TwoLevel

/-- The answer for a key: from the memory, from the disk, or from the source, which may have to be
asked. -/
def get (keeps : ν → Bool) (k : κ) (source : Option ν) (asks : Bool) (c : TwoLevel κ ν) :
    Answer κ ν × TwoLevel κ ν :=
  match c.memory k with
  | some v => (⟨k, some v, false⟩, c)
  | none =>
    match c.disk k with
    | some v => (⟨k, some v, false⟩, { c with memory := Function.update c.memory k (some v) })
    | none =>
      match source with
      | none => (⟨k, none, asks⟩, c)
      | some v =>
        (⟨k, some v, asks⟩,
          { memory := Function.update c.memory k (some v)
            disk := if keeps v then Function.update c.disk k (some v) else c.disk })

/-- The memory has lost some of its entries. -/
structure Loses (c c' : TwoLevel κ ν) : Prop where
  memory : ∀ k, c'.memory k = c.memory k ∨ c'.memory k = none
  disk : c'.disk = c.disk

omit [DecidableEq κ] in
theorem Loses.refl (c : TwoLevel κ ν) : Loses c c := ⟨fun _ => Or.inl rfl, rfl⟩

omit [DecidableEq κ] in
theorem Loses.trans {c c' c'' : TwoLevel κ ν} (h : Loses c c') (h' : Loses c' c'') :
    Loses c c'' where
  memory k := by
    rcases h'.memory k with heq | hnone
    · rw [heq]
      exact h.memory k
    · exact Or.inr hnone
  disk := h'.disk.trans h.disk

/-- The disk holds the kept values, and of those the memory holds no others. -/
structure Coherent (keeps : ν → Bool) (c : TwoLevel κ ν) : Prop where
  kept : ∀ k v, c.disk k = some v → keeps v = true
  agree : ∀ k v, c.memory k = some v → keeps v = true → c.disk k = some v
  passing : ∀ k v, c.memory k = some v → keeps v = false → c.disk k = none

variable {c c' : TwoLevel κ ν}

omit [DecidableEq κ] in
theorem Coherent.loses (hc : Coherent keeps c) (h : Loses c c') : Coherent keeps c' := by
  have hmemory : ∀ k v, c'.memory k = some v → c.memory k = some v := by
    intro k v hv
    rcases h.memory k with heq | hnone
    · exact heq.symm.trans hv
    · exact absurd (hv.symm.trans hnone) (Option.some_ne_none v)
  constructor
  · rw [h.disk]
    exact hc.kept
  · intro k v hv hkeeps
    rw [h.disk]
    exact hc.agree k v (hmemory k v hv) hkeeps
  · intro k v hv hkeeps
    rw [h.disk]
    exact hc.passing k v (hmemory k v hv) hkeeps

/-- The memory may take over what the disk has. -/
theorem Coherent.promote (hc : Coherent keeps c) {k : κ} {v : ν} (h : c.disk k = some v) :
    Coherent keeps { c with memory := Function.update c.memory k (some v) } where
  kept := hc.kept
  agree k' v' hv hkeeps := by
    by_cases hk : k' = k
    · subst hk
      dsimp only at hv
      rw [Function.update_self] at hv
      exact hv ▸ h
    · dsimp only at hv
      rw [Function.update_of_ne hk] at hv
      exact hc.agree k' v' hv hkeeps
  passing k' v' hv hkeeps := by
    by_cases hk : k' = k
    · subst hk
      dsimp only at hv
      rw [Function.update_self] at hv
      obtain rfl := Option.some.inj hv
      exact absurd (hkeeps.symm.trans (hc.kept k' v h)) Bool.false_ne_true
    · dsimp only at hv
      rw [Function.update_of_ne hk] at hv
      exact hc.passing k' v' hv hkeeps

/-- A value that is not kept goes to the memory. -/
theorem Coherent.pass (hc : Coherent keeps c) {k : κ} {v : ν} (h : c.disk k = none)
    (hv : keeps v = false) :
    Coherent keeps { c with memory := Function.update c.memory k (some v) } where
  kept := hc.kept
  agree k' v' hv' hkeeps := by
    by_cases hk : k' = k
    · subst hk
      dsimp only at hv'
      rw [Function.update_self] at hv'
      obtain rfl := Option.some.inj hv'
      exact absurd (hv.symm.trans hkeeps) Bool.false_ne_true
    · dsimp only at hv'
      rw [Function.update_of_ne hk] at hv'
      exact hc.agree k' v' hv' hkeeps
  passing k' v' hv' hkeeps := by
    by_cases hk : k' = k
    · subst hk
      exact h
    · dsimp only at hv'
      rw [Function.update_of_ne hk] at hv'
      exact hc.passing k' v' hv' hkeeps

/-- A kept value goes to both levels. -/
theorem Coherent.store (hc : Coherent keeps c) {k : κ} {v : ν} (hv : keeps v = true) :
    Coherent keeps
      { memory := Function.update c.memory k (some v)
        disk := Function.update c.disk k (some v) } where
  kept k' v' h := by
    by_cases hk : k' = k
    · subst hk
      dsimp only at h
      rw [Function.update_self] at h
      exact Option.some.inj h ▸ hv
    · dsimp only at h
      rw [Function.update_of_ne hk] at h
      exact hc.kept k' v' h
  agree k' v' h hkeeps := by
    by_cases hk : k' = k
    · subst hk
      dsimp only at h ⊢
      rw [Function.update_self] at h ⊢
      exact h
    · dsimp only at h ⊢
      rw [Function.update_of_ne hk] at h ⊢
      exact hc.agree k' v' h hkeeps
  passing k' v' h hkeeps := by
    by_cases hk : k' = k
    · subst hk
      dsimp only at h
      rw [Function.update_self] at h
      obtain rfl := Option.some.inj h
      exact absurd (hkeeps.symm.trans hv) Bool.false_ne_true
    · dsimp only at h ⊢
      rw [Function.update_of_ne hk] at h ⊢
      exact hc.passing k' v' h hkeeps

/-- **A lookup through both levels** is an answer of the memo on the disk, and leaves the levels
coherent. -/
theorem get_gives (hc : Coherent keeps c) (k : κ) (source : Option ν) (asks : Bool) :
    Gives keeps c.disk (c.get keeps k source asks).1 (c.get keeps k source asks).2.disk ∧
      Coherent keeps (c.get keeps k source asks).2 := by
  unfold get
  cases hmemory : c.memory k with
  | some v =>
    dsimp only
    refine ⟨?_, hc⟩
    cases hv : keeps v with
    | true => exact .held (hc.agree k v hmemory hv)
    | false => exact .passing (hc.passing k v hmemory hv) hv false
  | none =>
    dsimp only
    cases hdisk : c.disk k with
    | some v => exact ⟨.held hdisk, hc.promote hdisk⟩
    | none =>
      dsimp only
      cases source with
      | none => exact ⟨.nothing hdisk asks, hc⟩
      | some v =>
        dsimp only
        cases hv : keeps v with
        | true =>
          rw [if_pos rfl]
          exact ⟨.found hdisk hv asks, hc.store hv⟩
        | false =>
          rw [if_neg Bool.false_ne_true]
          exact ⟨.passing hdisk hv asks, hc.pass hdisk hv⟩

/-! ## Runs of lookups -/

/-- What holds between the two levels and the answers they gave. -/
structure Sound (keeps : ν → Bool) (c : TwoLevel κ ν) (answers : List (Answer κ ν)) : Prop where
  coherent : Coherent keeps c
  recorded : Recorded keeps c.disk answers
  stable : Stable keeps answers

omit [DecidableEq κ] in
theorem Sound.loses (h : Sound keeps c answers) (hl : Loses c c') : Sound keeps c' answers where
  coherent := h.coherent.loses hl
  recorded := hl.disk ▸ h.recorded
  stable := h.stable

/-- One more lookup, after the memory has lost entries. -/
theorem Sound.get (h : Sound keeps c answers) (hl : Loses c c') (k : κ) (source : Option ν)
    (asks : Bool) :
    Sound keeps (c'.get keeps k source asks).2
      (answers ++ [(c'.get keeps k source asks).1]) := by
  obtain ⟨hgives, hcoherent⟩ := get_gives (h.coherent.loses hl) k source asks
  have hrecorded : Recorded keeps c'.disk answers := (h.loses hl).recorded
  exact ⟨hcoherent, hrecorded.gives hgives, hgives.stable h.stable hrecorded⟩

end TwoLevel

end Memo
