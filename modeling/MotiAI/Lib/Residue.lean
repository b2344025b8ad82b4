import Mathlib.Data.List.Basic
import Mathlib.Data.List.Nodup
import Mathlib.Data.Nat.ModEq

/-!
# Picks by a residue

A number picks the entry of a list at its residue modulo the length. Where one number picks from two
lists, or two numbers a fixed delay apart do, the positions of the entries agree, up to the delay,
modulo the greatest common divisor of the lengths, and every pair for which they do is picked.

1. `exists_pick_iff`: the pairs that are picked.
2. `exists_delay`: a delay below the greatest common divisor that picks a given pair.
3. `forall_exists_pick_iff`: when an entry of the one list is picked beside each of the other.
-/

namespace Residue

/-! ## Two congruences -/

/-- `j + (k - 1) * d` is a `j - d` modulo `k`. -/
theorem add_pred_mul_modEq {k : ℕ} (hk : 0 < k) (j d : ℕ) :
    j + (k - 1) * d + d ≡ j [MOD k] := by
  have hshift : j + (k - 1) * d + d = j + d * k := by
    rw [Nat.add_assoc, ← Nat.succ_mul, Nat.succ_eq_add_one, Nat.sub_add_cancel hk, Nat.mul_comm]
  rw [hshift]
  exact Nat.add_mul_modulus_modEq_iff.mpr rfl

/-- Two congruences for numbers at a delay `d`. -/
theorem exists_modEq_iff {n k : ℕ} (hk : 0 < k) (i j d : ℕ) :
    (∃ m, m ≡ i [MOD n] ∧ m + d ≡ j [MOD k]) ↔ i + d ≡ j [MOD Nat.gcd n k] := by
  constructor
  · rintro ⟨m, hi, hj⟩
    have hi' : m + d ≡ i + d [MOD Nat.gcd n k] := (hi.add_right d).of_dvd (Nat.gcd_dvd_left n k)
    have hj' : m + d ≡ j [MOD Nat.gcd n k] := hj.of_dvd (Nat.gcd_dvd_right n k)
    exact hi'.symm.trans hj'
  · intro h
    have hshift : j + (k - 1) * d + d ≡ j [MOD k] := add_pred_mul_modEq hk j d
    have hcompatible : i ≡ j + (k - 1) * d [MOD Nat.gcd n k] :=
      Nat.ModEq.add_right_cancel' d (h.trans (hshift.of_dvd (Nat.gcd_dvd_right n k)).symm)
    obtain ⟨m, hi, hj⟩ := Nat.chineseRemainder' hcompatible
    exact ⟨m, hi, (hj.add_right d).trans hshift⟩

/-- A delay below `g` leads from any residue to any other. -/
theorem exists_add_modEq {g : ℕ} (hg : 0 < g) (i j : ℕ) : ∃ d < g, i + d ≡ j [MOD g] := by
  refine ⟨(j + (g - 1) * i) % g, Nat.mod_lt _ hg, ?_⟩
  calc i + (j + (g - 1) * i) % g ≡ i + (j + (g - 1) * i) [MOD g] :=
        (Nat.mod_modEq _ g).add_left i
    _ = j + (g - 1) * i + i := Nat.add_comm _ _
    _ ≡ j [MOD g] := add_pred_mul_modEq hg j i

/-- A number is congruent to all positions of a list only when the modulus is one. -/
theorem forall_lt_modEq_iff {n k : ℕ} (hk : 0 < k) (i : ℕ) :
    (∀ j < k, i ≡ j [MOD Nat.gcd n k]) ↔ n.Coprime k := by
  constructor
  · intro h
    by_contra hne
    have hpos : 0 < Nat.gcd n k := Nat.gcd_pos_of_pos_right n hk
    have hle : Nat.gcd n k ≤ k := Nat.gcd_le_right n hk
    have hone : 1 < k := by
      unfold Nat.Coprime at hne
      omega
    have hmodEq : 0 ≡ 1 [MOD Nat.gcd n k] := (h 0 hk).symm.trans (h 1 hone)
    exact hne (Nat.dvd_one.mp (Nat.modEq_zero_iff_dvd.mp hmodEq.symm))
  · intro h j _
    rw [h]
    exact Nat.modEq_one

/-! ## Lists -/

section Pick

variable {α β : Type*} {l : List α} {l' : List β} {a : α} {b : β} {m : ℕ}

/-- The entry that a number picks. -/
def pick (l : List α) (m : ℕ) : Option α := l[m % l.length]?

theorem mem_of_pick (h : pick l m = some a) : a ∈ l := List.mem_of_getElem? h

theorem exists_pick (hne : l ≠ []) (m : ℕ) : ∃ a, pick l m = some a :=
  ⟨_, List.getElem?_eq_getElem (Nat.mod_lt m (List.length_pos_of_ne_nil hne))⟩

variable [DecidableEq α] [DecidableEq β]

/-- An entry is picked by the numbers that are congruent to its position. -/
theorem pick_eq_some_iff (hl : l.Nodup) (ha : a ∈ l) :
    pick l m = some a ↔ m ≡ l.idxOf a [MOD l.length] := by
  have hpos : 0 < l.length := List.length_pos_of_mem ha
  unfold pick
  rw [← List.getElem?_idxOf ha, List.getElem?_inj (Nat.mod_lt m hpos) hl, Nat.ModEq,
    Nat.mod_eq_of_lt (List.idxOf_lt_length_of_mem ha)]

/-- **The pairs that are picked** at a delay. -/
theorem exists_pick_iff (hl : l.Nodup) (hl' : l'.Nodup) (ha : a ∈ l) (hb : b ∈ l') (d : ℕ) :
    (∃ m, pick l m = some a ∧ pick l' (m + d) = some b) ↔
      l.idxOf a + d ≡ l'.idxOf b [MOD Nat.gcd l.length l'.length] := by
  simp only [pick_eq_some_iff hl ha, pick_eq_some_iff hl' hb]
  exact exists_modEq_iff (List.length_pos_of_mem hb) _ _ d

/-- A short delay picks any pair. -/
theorem exists_delay (hl : l.Nodup) (hl' : l'.Nodup) (ha : a ∈ l) (hb : b ∈ l') :
    ∃ d < Nat.gcd l.length l'.length, ∃ m, pick l m = some a ∧ pick l' (m + d) = some b := by
  obtain ⟨d, hlt, hd⟩ := exists_add_modEq
    (Nat.gcd_pos_of_pos_right l.length (List.length_pos_of_mem hb)) (l.idxOf a) (l'.idxOf b)
  exact ⟨d, hlt, (exists_pick_iff hl hl' ha hb d).mpr hd⟩

/-- An entry is picked beside every entry of the other list just when the lengths are coprime. -/
theorem forall_exists_pick_iff (hl : l.Nodup) (hl' : l'.Nodup) (ha : a ∈ l) (hne : l' ≠ []) :
    (∀ b ∈ l', ∃ m, pick l m = some a ∧ pick l' m = some b) ↔
      Nat.Coprime l.length l'.length := by
  rw [← forall_lt_modEq_iff (List.length_pos_of_ne_nil hne) (l.idxOf a)]
  constructor
  · intro h j hj
    have hb : l'.get ⟨j, hj⟩ ∈ l' := List.get_mem l' ⟨j, hj⟩
    have hpair := (exists_pick_iff hl hl' ha hb 0).mp (h _ hb)
    rwa [List.get_eq_getElem, hl'.idxOf_getElem] at hpair
  · intro h b hb
    exact (exists_pick_iff hl hl' ha hb 0).mpr (h _ (List.idxOf_lt_length_of_mem hb))

end Pick

end Residue
