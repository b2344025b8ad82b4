import Mathlib.Data.List.DropRight
import Mathlib.Data.List.Infix
import Mathlib.Data.List.Nodup
import Mathlib.Data.List.Perm.Subperm

/-!
# Sliding windows

A list in which any `k` consecutive entries are pairwise distinct (`Spaced k`), and the bookkeeping
that keeps the last `k` entries of a growing list: append, then drop the oldest when there are more
than `k` (`slide`). Appending keeps the list `Spaced (k + 1)` exactly when the new entry is not
among the last `k` (`spaced_concat`). When there are only `k` different entries, a spaced list repeats
them in one order (`Spaced.getElem_add`).
-/

namespace Window

variable {α : Type*}

/-- At most `k` consecutive entries of `l` are pairwise distinct. -/
def Spaced (k : ℕ) (l : List α) : Prop := ∀ w, w <:+: l → w.length ≤ k → w.Nodup

/-- Append `a`; when more than `k` entries are held, remove the oldest. -/
def slide (k : ℕ) (r : List α) (a : α) : List α :=
  if k < (r ++ [a]).length then (r ++ [a]).tail else r ++ [a]

@[simp] theorem spaced_nil (k : ℕ) : Spaced k ([] : List α) := by
  intro w hw _
  rw [List.infix_nil.mp hw]
  exact List.nodup_nil

theorem Spaced.of_infix {k : ℕ} {l m : List α} (h : Spaced k m) (hl : l <:+: m) : Spaced k l :=
  fun w hw hk => h w (hw.trans hl) hk

theorem suffix_rtake (k : ℕ) (l : List α) : l.rtake k <:+ l := by
  unfold List.rtake
  exact List.drop_suffix _ _

theorem length_rtake (k : ℕ) (l : List α) : (l.rtake k).length = min k l.length := by
  unfold List.rtake
  rw [List.length_drop]
  omega

theorem rtake_of_length_le {k : ℕ} {l : List α} (h : l.length ≤ k) : l.rtake k = l := by
  unfold List.rtake
  rw [Nat.sub_eq_zero_of_le h, List.drop_zero]

/-- A suffix of length at most `k` is a suffix of the last `k` entries. -/
theorem suffix_rtake_of_length_le {k : ℕ} {w l : List α} (hw : w <:+ l) (hk : w.length ≤ k) :
    w <:+ l.rtake k := by
  refine List.suffix_of_suffix_length_le hw (suffix_rtake k l) ?_
  rw [length_rtake]
  exact Nat.le_min.mpr ⟨hk, hw.length_le⟩

/-- **Appending to a spaced list.** The new entry must differ from the last `k`. -/
theorem spaced_concat {k : ℕ} {l : List α} {a : α} :
    Spaced (k + 1) (l ++ [a]) ↔ Spaced (k + 1) l ∧ a ∉ l.rtake k := by
  constructor
  · intro h
    refine ⟨h.of_infix (List.prefix_append l [a]).isInfix, fun ha => ?_⟩
    have hw : l.rtake k ++ [a] <:+: l ++ [a] := by
      obtain ⟨t, ht⟩ := suffix_rtake k l
      exact ⟨t, [], by rw [List.append_nil, ← List.append_assoc, ht]⟩
    have hlen : (l.rtake k ++ [a]).length ≤ k + 1 := by
      rw [List.length_append, length_rtake, List.length_singleton]
      omega
    have hnd := h _ hw hlen
    rw [List.nodup_append] at hnd
    exact hnd.2.2 a ha a List.mem_cons_self rfl
  · rintro ⟨h, ha⟩ w hw hk
    rcases List.infix_concat_iff.mp hw with hs | hi
    · rcases List.suffix_concat_iff.mp hs with rfl | ⟨t, rfl, ht⟩
      · exact List.nodup_nil
      · have hlen : t.length ≤ k := by
          rw [List.length_append, List.length_singleton] at hk
          omega
        have htr := suffix_rtake_of_length_le ht hlen
        have htn : t.Nodup := h t ht.isInfix (by omega)
        rw [List.nodup_append]
        refine ⟨htn, List.nodup_singleton a, fun x hx y hy hxy => ?_⟩
        obtain rfl := List.mem_singleton.mp hy
        subst hxy
        exact ha (htr.subset hx)
    · exact h w hi hk

/-- **The bookkeeping is exact.** Sliding the last `k` entries gives the last `k` entries. -/
theorem slide_rtake (k : ℕ) (l : List α) (a : α) : slide k (l.rtake k) a = (l ++ [a]).rtake k := by
  unfold slide
  by_cases h : l.length < k
  · rw [rtake_of_length_le h.le, if_neg (by simp; omega),
      rtake_of_length_le (by simp; omega)]
  · have hlen : (l.rtake k).length = k := by rw [length_rtake]; omega
    rw [if_pos (by simp [hlen])]
    unfold List.rtake
    rw [List.length_append, List.length_singleton]
    by_cases hk : k = 0
    · subst hk
      simp
    · rw [show l.length + 1 - k = (l.length - k) + 1 by omega, ← List.drop_drop, List.drop_one,
        List.drop_append_of_le_length (by omega)]

/-- **Spaced entries from `k` repeat with period `k`.** Any `k` consecutive entries are all there are,
and the next one is none of the last `k - 1`. -/
theorem Spaced.getElem_add {k : ℕ} {l s : List α} (h : Spaced k l) (hs : ∀ a ∈ l, a ∈ s)
    (hlen : s.length ≤ k) {n : ℕ} (hn : n + k < l.length) : l[n + k] = l[n] := by
  cases k with
  | zero => rfl
  | succ m =>
    have hmid : ((l.drop (n + 1)).take m).length = m := by
      rw [List.length_take, List.length_drop]
      omega
    have hfirst : l.drop n = l[n] :: l.drop (n + 1) := List.drop_eq_getElem_cons (by omega)
    have hlast : (l.drop (n + 1)).take (m + 1) = (l.drop (n + 1)).take m ++ [l[n + (m + 1)]] := by
      rw [List.take_add_one, List.getElem?_drop,
        show n + 1 + m = n + (m + 1) by omega, List.getElem?_eq_getElem hn]
      rfl
    have hwindow : l[n] :: (l.drop (n + 1)).take m <:+: l := by
      have hpre : l[n] :: (l.drop (n + 1)).take m <+: l.drop n := by
        rw [hfirst]
        exact (List.prefix_cons_inj _).mpr (List.take_prefix m _)
      exact hpre.isInfix.trans (List.drop_suffix n l).isInfix
    have hnodup : (l[n] :: (l.drop (n + 1)).take m).Nodup :=
      h _ hwindow (by rw [List.length_cons, hmid])
    have hnext : ((l.drop (n + 1)).take m ++ [l[n + (m + 1)]]).Nodup := by
      rw [← hlast]
      refine h _ ((List.take_prefix _ _).isInfix.trans (List.drop_suffix _ l).isInfix) ?_
      exact List.length_take_le _ _
    have hall : (l[n] :: (l.drop (n + 1)).take m).Perm s :=
      (hnodup.subperm fun a ha => hs a (hwindow.subset ha)).perm_of_length_le
        (by rw [List.length_cons, hmid]; exact hlen)
    have hmem := hall.mem_iff.mpr (hs _ (List.getElem_mem hn))
    refine (List.mem_cons.mp hmem).resolve_right fun hold => ?_
    exact (List.nodup_append.mp hnext).2.2 _ hold _ List.mem_cons_self rfl

end Window
