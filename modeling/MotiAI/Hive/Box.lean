import Mathlib

/-!
# Hive boxes

A box is a finite map from string keys, listed in ascending key order: `Std.ExtTreeMap`, whose
`insert`, `erase` and `∅` are `put`, `delete` and `clear`. Added here are the readers of Hive that
the map library has under no name (`values`, `getAt`) and writing a list of entries one after the
other (`putAll`).
-/

namespace Hive

open Std (ExtTreeMap)

/-- A box with values in `V`. -/
abbrev Box (V : Type) := ExtTreeMap String V

namespace Box

variable {V W : Type}

/-- The values in ascending key order. -/
def values (b : Box V) : List V := b.toList.map Prod.snd

/-- The value at position `i` of the ascending key order. -/
def getAt (b : Box V) (i : ℕ) : Option V := b.values[i]?

/-- Put the entries one after the other. -/
def putAll (es : List (String × V)) (b : Box V) : Box V :=
  es.foldl (fun b e => b.insert e.1 e.2) b

@[simp] theorem getElem?_put (b : Box V) (k k' : String) (v : V) :
    (b.insert k v)[k']? = if k = k' then some v else b[k']? := by
  rw [ExtTreeMap.getElem?_insert]
  simp only [Std.compare_eq_iff_eq]

@[simp] theorem getElem?_delete (b : Box V) (k k' : String) :
    (b.erase k)[k']? = if k = k' then none else b[k']? := by
  rw [ExtTreeMap.getElem?_erase]
  simp only [Std.compare_eq_iff_eq]

theorem getElem?_put_self (b : Box V) (k : String) (v : V) : (b.insert k v)[k]? = some v := by
  rw [getElem?_put, if_pos rfl]

theorem getElem?_put_of_ne (b : Box V) {k k' : String} (h : k ≠ k') (v : V) :
    (b.insert k v)[k']? = b[k']? := by
  rw [getElem?_put, if_neg h]

theorem mem_put {b : Box V} {k k' : String} {v : V} : k' ∈ b.insert k v ↔ k = k' ∨ k' ∈ b := by
  rw [ExtTreeMap.mem_insert, Std.compare_eq_iff_eq]

theorem mem_delete {b : Box V} {k k' : String} : k' ∈ b.erase k ↔ k ≠ k' ∧ k' ∈ b := by
  rw [ExtTreeMap.mem_erase, Ne, Std.compare_eq_iff_eq]

theorem getElem?_empty_ne {k : String} {v : V} : (∅ : Box V)[k]? ≠ some v := by
  intro h
  cases ExtTreeMap.getElem?_empty.symm.trans h

theorem mem_values {b : Box V} {v : V} : v ∈ b.values ↔ ∃ k : String, b[k]? = some v := by
  unfold values
  rw [List.mem_map]
  constructor
  · rintro ⟨⟨k, v⟩, h, rfl⟩
    exact ⟨k, ExtTreeMap.mem_toList_iff_getElem?_eq_some.mp h⟩
  · rintro ⟨k, h⟩
    exact ⟨(k, v), ExtTreeMap.mem_toList_iff_getElem?_eq_some.mpr h, rfl⟩

theorem length_values (b : Box V) : b.values.length = b.size := by
  unfold values
  rw [List.length_map, ExtTreeMap.length_toList]

/-- The keys of a box are distinct. -/
theorem nodup_keys (b : Box V) : (b.toList.map Prod.fst).Nodup := by
  rw [List.Nodup, List.pairwise_map]
  refine (ExtTreeMap.distinct_keys_toList (t := b)).imp ?_
  intro e e' h heq
  exact h (Std.compare_eq_iff_eq.mpr heq)

theorem mem_keys {b : Box V} {k : String} : k ∈ b.keys ↔ ∃ v, b[k]? = some v := by
  rw [ExtTreeMap.mem_keys, ExtTreeMap.mem_iff_isSome_getElem?, Option.isSome_iff_exists]

/-- The keys are listed in ascending order, so a selection of them is determined by its members. -/
theorem filter_keys_congr {b : Box V} {b' : Box W} {p p' : String → Bool}
    (h : ∀ k, k ∈ b.keys ∧ p k = true ↔ k ∈ b'.keys ∧ p' k = true) :
    b.keys.filter p = b'.keys.filter p' := by
  have hperm : (b.keys.filter p).Perm (b'.keys.filter p') := by
    rw [List.perm_ext_iff_of_nodup (ExtTreeMap.nodup_keys.filter p)
      (ExtTreeMap.nodup_keys.filter p')]
    intro k
    rw [List.mem_filter, List.mem_filter]
    exact h k
  have hlt : ∀ k k' : String, compare k k' = .lt → compare k' k = .lt → k = k' := by
    intro k k' hk hk'
    have hswap : compare k k' = (compare k' k).swap := Std.OrientedCmp.eq_swap
    rw [hswap, hk'] at hk
    cases hk
  exact hperm.eq_of_pairwise (fun k k' _ _ => hlt k k') (ExtTreeMap.ordered_keys.filter p)
    (ExtTreeMap.ordered_keys.filter p')

/-- A box is empty when no key is present. -/
theorem eq_empty_iff {b : Box V} : b = ∅ ↔ ∀ k : String, b[k]? = none := by
  constructor
  · rintro rfl k
    exact ExtTreeMap.getElem?_empty
  · intro h
    apply ExtTreeMap.ext_getElem?
    intro k
    rw [h k]
    exact ExtTreeMap.getElem?_empty.symm

theorem exists_getElem?_of_ne_empty {b : Box V} (h : b ≠ ∅) :
    ∃ (k : String) (v : V), b[k]? = some v := by
  by_contra hc
  push Not at hc
  refine h (eq_empty_iff.mpr fun k => ?_)
  cases hk : b[k]? with
  | none => rfl
  | some v => exact absurd hk (hc k v)

theorem put_ne_empty (b : Box V) (k : String) (v : V) : b.insert k v ≠ ∅ := by
  intro h
  have := eq_empty_iff.mp h k
  rw [getElem?_put_self] at this
  cases this

/-- The first value of a box that is not empty. -/
theorem getAt_zero_eq_none_iff {b : Box V} : b.getAt 0 = none ↔ b = ∅ := by
  unfold getAt values
  rw [List.getElem?_eq_none_iff, List.length_map, ExtTreeMap.length_toList,
    ExtTreeMap.eq_empty_iff_size_eq_zero]
  omega

theorem getAt_zero_mem {b : Box V} {v : V} (h : b.getAt 0 = some v) : v ∈ b.values :=
  List.mem_of_getElem? h

@[simp] theorem putAll_nil (b : Box V) : putAll [] b = b := rfl

@[simp] theorem putAll_cons (e : String × V) (es : List (String × V)) (b : Box V) :
    putAll (e :: es) b = putAll es (b.insert e.1 e.2) := rfl

theorem putAll_append (es es' : List (String × V)) (b : Box V) :
    putAll (es ++ es') b = putAll es' (putAll es b) := by
  unfold putAll
  rw [List.foldl_append]

theorem putAll_ne_empty {es : List (String × V)} (h : es ≠ []) (b : Box V) : putAll es b ≠ ∅ := by
  obtain ⟨es', e, rfl⟩ := (List.eq_nil_or_concat es).resolve_left h
  rw [List.concat_eq_append, putAll_append]
  exact put_ne_empty _ _ _

/-- What `putAll` stores comes from the entries or was there before. -/
theorem getElem?_putAll {es : List (String × V)} {b : Box V} {k : String} {v : V}
    (h : (putAll es b)[k]? = some v) : (k, v) ∈ es ∨ b[k]? = some v := by
  induction es generalizing b with
  | nil => exact Or.inr h
  | cons e es ih =>
    rcases ih h with h | h
    · exact Or.inl (List.mem_cons_of_mem _ h)
    · by_cases hk : e.1 = k
      · rw [getElem?_put, if_pos hk] at h
        obtain ⟨rfl, rfl⟩ : e.1 = k ∧ e.2 = v := ⟨hk, Option.some.inj h⟩
        exact Or.inl List.mem_cons_self
      · rw [getElem?_put_of_ne _ hk] at h
        exact Or.inr h

/-- After `putAll` a key has the last value put there, or else the one it had. -/
theorem getElem?_putAll_eq (es : List (String × V)) (b : Box V) (k : String) :
    (putAll es b)[k]? = ((es.reverse.find? fun e => e.1 = k).map Prod.snd).or b[k]? := by
  induction es generalizing b with
  | nil => rfl
  | cons e es ih =>
    rw [putAll_cons, ih, getElem?_put, List.reverse_cons, List.find?_append]
    cases es.reverse.find? (fun e => decide (e.1 = k)) with
    | some e' => simp
    | none => by_cases h : e.1 = k <;> simp [h]

theorem exists_getElem?_putAll {es : List (String × V)} {e : String × V} (he : e ∈ es)
    (b : Box V) : ∃ v, (putAll es b)[e.1]? = some v := by
  rw [getElem?_putAll_eq]
  cases hf : es.reverse.find? (fun e' => decide (e'.1 = e.1)) with
  | some e' => exact ⟨e'.2, rfl⟩
  | none => exact absurd (decide_eq_true rfl) (List.find?_eq_none.mp hf e (List.mem_reverse.mpr he))

/-- Entries that bring no other value to a key leave the one it has. -/
theorem getElem?_putAll_of_forall {es : List (String × V)} {b : Box V} {k : String} {v : V}
    (hes : ∀ e ∈ es, e.1 = k → e.2 = v) (hb : b[k]? = some v) : (putAll es b)[k]? = some v := by
  rw [getElem?_putAll_eq]
  cases hf : es.reverse.find? (fun e => decide (e.1 = k)) with
  | none => exact hb
  | some e =>
    have he := List.mem_reverse.mp (List.mem_of_find?_eq_some hf)
    exact congrArg some (hes e he (by simpa using List.find?_some hf))

theorem getElem?_putAll_of_nodup {es : List (String × V)} (hn : (es.map Prod.fst).Nodup)
    (b : Box V) (k : String) :
    (putAll es b)[k]? = ((es.find? fun e => e.1 = k).map Prod.snd).or b[k]? := by
  induction es generalizing b with
  | nil => rfl
  | cons e es ih =>
    rw [List.map_cons, List.nodup_cons] at hn
    rw [putAll_cons, ih hn.2, getElem?_put, List.find?_cons]
    by_cases h : e.1 = k
    · have hnone : es.find? (fun e => decide (e.1 = k)) = none := by
        rw [List.find?_eq_none]
        intro e' he' hk
        rw [decide_eq_true_eq] at hk
        exact hn.1 (List.mem_map.mpr ⟨e', he', by rw [hk, h]⟩)
      simp [h, hnone]
    · simp [h]

/-- Putting the same entries again changes nothing. -/
theorem putAll_putAll (es : List (String × V)) (b : Box V) : putAll es (putAll es b) = putAll es b := by
  apply ExtTreeMap.ext_getElem?
  intro k
  rw [getElem?_putAll_eq, getElem?_putAll_eq, ← Option.or_assoc, Option.or_self]

/-- Writing all entries of a box into an empty one restores it. -/
theorem putAll_toList (b : Box V) : putAll b.toList ∅ = b := by
  apply ExtTreeMap.ext_getElem?
  intro k
  rw [getElem?_putAll_of_nodup b.nodup_keys, ExtTreeMap.getElem?_empty, Option.or_none]
  cases hf : b.toList.find? (fun e => decide (e.1 = k)) with
  | none =>
    rw [List.find?_eq_none] at hf
    cases hk : b[k]? with
    | none => rfl
    | some v =>
      have := hf (k, v) (ExtTreeMap.mem_toList_iff_getElem?_eq_some.mpr hk)
      simp at this
  | some e =>
    have hk : e.1 = k := by simpa using List.find?_some hf
    have he := List.mem_of_find?_eq_some hf
    obtain ⟨k', v⟩ := e
    subst hk
    exact (ExtTreeMap.mem_toList_iff_getElem?_eq_some.mp he).symm

end Box

end Hive
