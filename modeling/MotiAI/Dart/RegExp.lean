import Mathlib.Computability.RegularExpressions
import MotiAI.Dart.Text

/-!
# Regular expressions at the end of a text

`replaceAll(RegExp(r'…$'), '')` for expressions of Mathlib. A match of such an expression ends with
the text, so there is at most one, the one that starts first.

`removeAtEnd_separator`: an expression of white space, a separator and a rest without separators is
looked for at the last separator only.
-/

namespace Dart

namespace RegExp

open RegularExpression

variable {α : Type}

/-- `[…]`, one of the given characters. -/
def oneOf (cs : List α) : RegularExpression α := cs.foldr (fun c p => char c + p) 0

/-- `[…]*`. -/
def many (cs : List α) : RegularExpression α := star (oneOf cs)

/-- `[…]+`. -/
def many1 (cs : List α) : RegularExpression α := oneOf cs * many cs

variable [DecidableEq α]

/-- `replaceAll(RegExp(r'p$'), '')`. An empty match changes nothing. -/
def removeAtEnd (p : RegularExpression α) : List α → List α
  | [] => []
  | c :: cs => if p.rmatch (c :: cs) then [] else c :: removeAtEnd p cs

/-! ## Languages -/

omit [DecidableEq α] in
theorem mem_oneOf {cs x : List α} : x ∈ (oneOf cs).matches' ↔ ∃ c ∈ cs, x = [c] := by
  unfold oneOf
  induction cs with
  | nil => simp
  | cons c cs ih =>
    rw [List.foldr_cons, matches'_add, Language.mem_add, ih, matches'_char]
    simp only [List.mem_cons, exists_eq_or_imp]
    exact Iff.rfl

theorem rmatch_many {cs x : List α} : (many cs).rmatch x = true ↔ ∀ c ∈ x, c ∈ cs := by
  unfold many
  rw [rmatch_iff_matches', matches'_star, Language.mem_kstar]
  constructor
  · rintro ⟨L, rfl, hL⟩ c hc
    obtain ⟨y, hy, hcy⟩ := List.mem_flatten.mp hc
    obtain ⟨d, hd, rfl⟩ := mem_oneOf.mp (hL y hy)
    rwa [List.mem_singleton.mp hcy]
  · intro h
    refine ⟨x.map fun c => [c], ?_, fun y hy => ?_⟩
    · rw [← List.flatMap_def, List.flatMap_singleton']
    · obtain ⟨c, hc, rfl⟩ := List.mem_map.mp hy
      exact mem_oneOf.mpr ⟨c, h c hc, rfl⟩

theorem rmatch_mul {p q : RegularExpression α} {x : List α} :
    (p * q).rmatch x = true ↔ ∃ a b, x = a ++ b ∧ p.rmatch a = true ∧ q.rmatch b = true := by
  rw [rmatch_iff_matches', matches'_mul, Language.mem_mul]
  simp only [← rmatch_iff_matches']
  constructor
  · rintro ⟨a, ha, b, hb, rfl⟩
    exact ⟨a, b, rfl, ha, hb⟩
  · rintro ⟨a, b, rfl, ha, hb⟩
    exact ⟨a, ha, b, hb, rfl⟩

theorem rmatch_char {c : α} {x : List α} : (char c).rmatch x = true ↔ x = [c] := by
  rw [rmatch_iff_matches', matches'_char]
  exact Iff.rfl

theorem rmatch_oneOf {cs x : List α} : (oneOf cs).rmatch x = true ↔ ∃ c ∈ cs, x = [c] := by
  rw [rmatch_iff_matches']
  exact mem_oneOf

theorem rmatch_many1 {cs x : List α} :
    (many1 cs).rmatch x = true ↔ x ≠ [] ∧ ∀ c ∈ x, c ∈ cs := by
  unfold many1
  simp only [rmatch_mul, rmatch_oneOf, rmatch_many]
  constructor
  · rintro ⟨_, b, rfl, ⟨c, hc, rfl⟩, hb⟩
    refine ⟨List.cons_ne_nil c b, fun d hd => ?_⟩
    rcases List.mem_cons.mp hd with rfl | hd
    · exact hc
    · exact hb d hd
  · rintro ⟨hne, hall⟩
    obtain ⟨c, b, rfl⟩ := List.exists_cons_of_ne_nil hne
    exact ⟨[c], b, rfl, ⟨c, hall c List.mem_cons_self, rfl⟩,
      fun d hd => hall d (List.mem_cons_of_mem c hd)⟩

/-! ## What is removed -/

theorem removeAtEnd_isPrefix (p : RegularExpression α) (l : List α) : removeAtEnd p l <+: l := by
  induction l with
  | nil => exact List.prefix_rfl
  | cons c cs ih =>
    unfold removeAtEnd
    split
    · exact List.nil_prefix
    · exact List.cons_prefix_cons.mpr ⟨rfl, ih⟩

/-- Without a match nothing is removed. -/
theorem removeAtEnd_of_not {p : RegularExpression α} {l : List α}
    (h : ∀ m, m <:+ l → p.rmatch m = false) : removeAtEnd p l = l := by
  induction l with
  | nil => rfl
  | cons c cs ih =>
    unfold removeAtEnd
    rw [if_neg (by rw [h _ List.suffix_rfl]; decide)]
    exact congrArg (c :: ·) (ih fun m hm => h m (hm.trans (List.suffix_cons c cs)))

/-- A match that starts nowhere earlier is removed. -/
theorem removeAtEnd_of_first {p : RegularExpression α} {a m : List α} (hne : m ≠ [])
    (hm : p.rmatch m = true) (h : ∀ b, b <:+ a → b ≠ [] → p.rmatch (b ++ m) = false) :
    removeAtEnd p (a ++ m) = a := by
  induction a with
  | nil =>
    obtain ⟨c, cs, rfl⟩ := List.exists_cons_of_ne_nil hne
    show removeAtEnd p (c :: cs) = []
    unfold removeAtEnd
    rw [if_pos hm]
  | cons c a ih =>
    show removeAtEnd p (c :: (a ++ m)) = c :: a
    unfold removeAtEnd
    have hno : p.rmatch (c :: (a ++ m)) = false := h _ List.suffix_rfl (List.cons_ne_nil c a)
    rw [if_neg (by rw [hno]; decide)]
    exact congrArg (c :: ·) (ih fun b hb => h b (hb.trans (List.suffix_cons c a)))

section

variable {skip : List α} {sep : α} {q : RegularExpression α}

/-- `skip* sep q`. -/
theorem rmatch_separator {x : List α} : (many skip * (char sep * q)).rmatch x = true ↔
    ∃ a b, x = a ++ sep :: b ∧ (∀ c ∈ a, c ∈ skip) ∧ q.rmatch b = true := by
  simp only [rmatch_mul, rmatch_many, rmatch_char]
  constructor
  · rintro ⟨a, _, rfl, ha, _, b, rfl, rfl, hb⟩
    exact ⟨a, b, rfl, ha, hb⟩
  · rintro ⟨a, b, rfl, ha, hb⟩
    exact ⟨a, sep :: b, rfl, ha, [sep], b, rfl, rfl, hb⟩

/-- A text without separators has no match. -/
theorem removeAtEnd_of_notMem {l : List α} (h : sep ∉ l) :
    removeAtEnd (many skip * (char sep * q)) l = l := by
  refine removeAtEnd_of_not fun m hm => Bool.eq_false_iff.mpr fun hmatch => ?_
  obtain ⟨a, b, rfl, -, -⟩ := rmatch_separator.mp hmatch
  exact h (hm.subset (List.mem_append_right a List.mem_cons_self))

/-- **A match starts behind what is not skipped before the last separator.** -/
theorem removeAtEnd_separator {pre post : List α} (hq : ∀ b, q.rmatch b = true → sep ∉ b)
    (hpost : sep ∉ post) :
    removeAtEnd (many skip * (char sep * q)) (pre ++ sep :: post) =
      if q.rmatch post = true then pre.rdropWhile (· ∈ skip) else pre ++ sep :: post := by
  split
  · rename_i hmatch
    have hl : pre ++ sep :: post =
        pre.rdropWhile (· ∈ skip) ++ (pre.rtakeWhile (· ∈ skip) ++ sep :: post) := by
      rw [← List.append_assoc, List.rdropWhile_append_rtakeWhile]
    rw [hl]
    refine removeAtEnd_of_first (by simp)
      (rmatch_separator.mpr ⟨_, post, rfl, fun c hc => ?_, hmatch⟩)
      fun b hb hne => Bool.eq_false_iff.mpr fun hm => ?_
    · have hc' := List.mem_rtakeWhile_imp hc
      exact of_decide_eq_true hc'
    -- an earlier start would skip the last character that is kept
    · obtain ⟨a, b', h, ha, hb'⟩ := rmatch_separator.mp hm
      rw [← List.append_assoc] at h
      obtain ⟨rfl, -⟩ := separator_inj hpost (hq b' hb') h
      have hlast := List.rdropWhile_last_not (· ∈ skip) pre (hb.ne_nil hne)
      rw [← hb.getLast hne] at hlast
      exact hlast (decide_eq_true (ha _ (List.mem_append_left _ (List.getLast_mem hne))))
  · rename_i hno
    refine removeAtEnd_of_not fun m hm => Bool.eq_false_iff.mpr fun hmatch => hno ?_
    obtain ⟨a, b, rfl, -, hb⟩ := rmatch_separator.mp hmatch
    obtain ⟨t, ht⟩ := hm
    rw [← List.append_assoc] at ht
    obtain ⟨-, rfl⟩ := separator_inj (hq b hb) hpost ht
    exact hb

end

end RegExp

end Dart
