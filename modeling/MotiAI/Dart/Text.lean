import Mathlib.Data.List.DropRight
import Mathlib.Data.List.Infix

/-!
# Dart strings

The operations of `dart:core`'s `String` that the code uses, on Lean strings. Case conversion is
language independent and Unicode aware in Dart; it enters as a `CaseMap`, a mapping of single
characters whose values on ASCII are the usual ones.
-/

namespace Dart

/-- The character mappings behind `toLowerCase` and `toUpperCase`. -/
class CaseMap where
  lower : Char → List Char
  upper : Char → List Char
  lower_ascii : ∀ c : Char, c.toNat < 128 → lower c = [c.toLower]
  upper_ascii : ∀ c : Char, c.toNat < 128 → upper c = [c.toUpper]

/-- The mapping that leaves characters outside ASCII as they are. -/
@[reducible] def CaseMap.ascii : CaseMap where
  lower c := [c.toLower]
  upper c := [c.toUpper]
  lower_ascii _ _ := rfl
  upper_ascii _ _ := rfl

def toLowerCase [CaseMap] (s : String) : String :=
  String.ofList (s.toList.flatMap CaseMap.lower)

/-- The characters `trim` removes: Unicode white space and the byte order mark. -/
def isTrimmed (c : Char) : Bool :=
  (9 ≤ c.toNat && c.toNat ≤ 13) || c.toNat == 0x20 || c.toNat == 0x85 || c.toNat == 0xA0 ||
    c.toNat == 0x1680 || (0x2000 ≤ c.toNat && c.toNat ≤ 0x200A) || c.toNat == 0x2028 ||
    c.toNat == 0x2029 || c.toNat == 0x202F || c.toNat == 0x205F || c.toNat == 0x3000 ||
    c.toNat == 0xFEFF

def trim (s : String) : String :=
  String.ofList ((s.toList.dropWhile isTrimmed).rdropWhile isTrimmed)

/-- `replaceAll` of one character by another. -/
def replaceChar (a b : Char) (s : String) : String :=
  String.ofList (s.toList.map fun c => if c = a then b else c)

/-- `replaceAll` of one character by nothing. -/
def removeChar (a : Char) (s : String) : String := String.ofList (s.toList.filter (· ≠ a))

def startsWith (s p : String) : Bool := p.toList.isPrefixOf s.toList

def contains (s p : String) : Bool := s.toList.tails.any p.toList.isPrefixOf

/-- The first place where `p` occurs is replaced by `r`. -/
def replaceFirstChars (p r : List Char) : List Char → List Char
  | [] => if p = [] then r else []
  | c :: cs =>
    if p.isPrefixOf (c :: cs) then r ++ (c :: cs).drop p.length
    else c :: replaceFirstChars p r cs

def replaceFirst (p r s : String) : String :=
  String.ofList (replaceFirstChars p.toList r.toList s.toList)

/-- The number of UTF-16 code units of a character. -/
def utf16Length (c : Char) : ℕ := if c.toNat < 0x10000 then 1 else 2

/-- `replaceAll(RegExp(r'[^a-z0-9]'), '_')`; the expression matches single code units. -/
def replaceNonAlnum (s : String) : String :=
  String.ofList (s.toList.flatMap fun c =>
    if ('a' ≤ c ∧ c ≤ 'z') ∨ ('0' ≤ c ∧ c ≤ '9') then [c] else List.replicate (utf16Length c) '_')

/-- `s.substring(0, 1).toUpperCase() + s.substring(1)`; the substring of an empty string throws.
Half of a surrogate pair has no upper case. -/
def capitalize [CaseMap] (s : String) : Option String :=
  match s.toList with
  | [] => none
  | c :: cs =>
    some (String.ofList ((if utf16Length c = 1 then CaseMap.upper c else [c]) ++ cs))

/-- `split` at a one-character separator. -/
def split (sep : Char) (s : String) : List String :=
  (s.toList.splitOn sep).map String.ofList

/-! ## Literals -/

/-- A literal is `String.ofList` of its characters by definition, so its characters need not be
decoded. -/
theorem toList_of_eq {s : String} {l : List Char} (h : s = String.ofList l) : s.toList = l := by
  rw [h, String.toList_ofList]

/-- The characters of a list of literals, one literal at a time. -/
theorem toLists_cons {Q : List (List Char) → Prop} {s : String} {ss : List String} {l : List Char}
    (h : s = String.ofList l) (hs : ∃ ls, ss.map String.toList = ls ∧ Q (l :: ls)) :
    ∃ ls, (s :: ss).map String.toList = ls ∧ Q ls := by
  obtain ⟨ls, hls, hq⟩ := hs
  refine ⟨l :: ls, ?_, hq⟩
  rw [List.map_cons, toList_of_eq h, hls]

/-- Characters as one number, which is quick to compare. -/
def digest (l : List Char) : ℕ := l.foldl (fun n c => 128 * n + c.toNat) 0

def isAscii (l : List Char) : Bool := l.all fun c => c.toNat < 128

theorem lt_of_isAscii {l : List Char} (h : isAscii l = true) : ∀ c ∈ l, c.toNat < 128 :=
  fun c hc => of_decide_eq_true (List.all_eq_true.mp h c hc)

/-! ## Parts of a text -/

theorem startsWith_iff {s p : String} : startsWith s p = true ↔ p.toList <+: s.toList :=
  List.isPrefixOf_iff_prefix

theorem contains_iff {s p : String} : contains s p = true ↔ p.toList <:+: s.toList := by
  unfold contains
  rw [List.any_eq_true, List.infix_iff_prefix_suffix]
  constructor
  · rintro ⟨t, ht, hp⟩
    exact ⟨t, List.isPrefixOf_iff_prefix.mp hp, (List.mem_tails _ _).mp ht⟩
  · rintro ⟨t, hp, ht⟩
    exact ⟨t, (List.mem_tails _ _).mpr ht, List.isPrefixOf_iff_prefix.mpr hp⟩

theorem contains_append_left {a b p : String} (h : contains a p = true) :
    contains (a ++ b) p = true := by
  rw [contains_iff, String.toList_append]
  exact (contains_iff.mp h).trans (List.infix_append' [] a.toList b.toList)

/-- A text without some character of `p` does not contain `p`. -/
theorem contains_eq_false {s p : String} {c : Char} (hp : c ∈ p.toList) (hs : c ∉ s.toList) :
    contains s p = false := by
  apply eq_false_of_ne_true
  intro h
  exact hs ((contains_iff.mp h).subset hp)

/-- The parts of a text before and behind its last separator are determined. -/
theorem separator_inj {α : Type} {sep : α} {a a' b b' : List α} (hb : sep ∉ b) (hb' : sep ∉ b')
    (h : a ++ sep :: b = a' ++ sep :: b') : a = a' ∧ b = b' := by
  rcases List.append_eq_append_iff.mp h with ⟨t, ha, ht⟩ | ⟨t, ha, ht⟩
  · rcases List.cons_eq_append_iff.mp ht with ⟨rfl, h'⟩ | ⟨t', rfl, rfl⟩
    · exact ⟨by rw [ha, List.append_nil], (List.cons.inj h').2.symm⟩
    · exact absurd (List.mem_append_right t' List.mem_cons_self) hb
  · rcases List.cons_eq_append_iff.mp ht with ⟨rfl, h'⟩ | ⟨t', rfl, rfl⟩
    · exact ⟨by rw [ha, List.append_nil], (List.cons.inj h').2⟩
    · exact absurd (List.mem_append_right t' List.mem_cons_self) hb'

theorem prefix_append_iff {α : Type} {p a b : List α} :
    p <+: a ++ b ↔ p <+: a ∨ ∃ q, p = a ++ q ∧ q <+: b := by
  constructor
  · rintro ⟨t, ht⟩
    rcases List.append_eq_append_iff.mp ht with ⟨r, ha, -⟩ | ⟨q, hp, hb⟩
    · exact Or.inl ⟨r, ha.symm⟩
    · exact Or.inr ⟨q, hp, t, hb.symm⟩
  · rintro (h | ⟨q, rfl, h⟩)
    · exact h.trans (List.prefix_append a b)
    · exact (List.prefix_append_right_inj a).mpr h

/-- A text without the separator that starts before it ends before it. -/
theorem prefix_of_prefix_append_cons {α : Type} {sep : α} {w a b : List α} (hw : sep ∉ w)
    (h : w <+: a ++ sep :: b) : w <+: a := by
  rcases prefix_append_iff.mp h with h | ⟨q, rfl, hq⟩
  · exact h
  · cases q with
    | nil =>
      rw [List.append_nil]
    | cons c q =>
      obtain rfl := (List.cons_prefix_cons.mp hq).1
      exact absurd (List.mem_append_right a List.mem_cons_self) hw

/-- A text without the separator lies before or behind it. -/
theorem infix_append_cons_iff {α : Type} {sep : α} {w a b : List α} (hw : sep ∉ w) :
    w <:+: a ++ sep :: b ↔ w <:+: a ∨ w <:+: b := by
  constructor
  · intro h
    induction a with
    | nil =>
      rcases List.infix_cons_iff.mp h with h | h
      · exact Or.inl (prefix_of_prefix_append_cons (a := []) hw h).isInfix
      · exact Or.inr h
    | cons c a ih =>
      rcases List.infix_cons_iff.mp h with h | h
      · exact Or.inl (prefix_of_prefix_append_cons (a := c :: a) hw h).isInfix
      · exact (ih h).imp_left fun h => List.infix_cons_iff.mpr (Or.inr h)
  · rintro (h | h)
    · exact h.trans (List.prefix_append a _).isInfix
    · exact h.trans ((List.suffix_cons sep b).trans (List.suffix_append a _)).isInfix

/-- What comes after the one separator of a text. -/
theorem getElem?_split_append {sep : Char} {p t : String} {l : List Char}
    (hp : p.toList = l ++ [sep]) (hl : sep ∉ l) (ht : sep ∉ t.toList) :
    (split sep (p ++ t))[1]? = some t := by
  have hno : ∀ {k : List Char}, sep ∉ k → ∀ c ∈ k, (c == sep) = false := by
    intro k hk c hc
    rw [beq_eq_false_iff_ne]
    rintro rfl
    exact hk hc
  unfold split List.splitOn
  rw [String.toList_append, hp, List.append_assoc, List.singleton_append,
    List.splitOnP_append_cons_of_forall_mem (hno hl) sep (beq_self_eq_true sep),
    List.splitOnP_eq_singleton (hno ht)]
  exact congrArg some String.ofList_toList

theorem removeChar_of_notMem {c : Char} {s : String} (h : c ∉ s.toList) : removeChar c s = s := by
  unfold removeChar
  have hall : s.toList.filter (· ≠ c) = s.toList := by
    refine List.filter_eq_self.mpr fun d hd => decide_eq_true ?_
    rintro rfl
    exact h hd
  rw [hall, String.ofList_toList]

/-- `p` at the beginning is what `replaceFirst` replaces. -/
theorem replaceFirst_append {p : String} (hp : p.toList ≠ []) (r s : String) :
    replaceFirst p r (p ++ s) = r ++ s := by
  obtain ⟨c, cs, hcs⟩ := List.exists_cons_of_ne_nil hp
  apply String.toList_inj.mp
  unfold replaceFirst
  rw [String.toList_ofList, String.toList_append, String.toList_append, hcs, List.cons_append]
  unfold replaceFirstChars
  rw [← List.cons_append, List.drop_left,
    if_pos (List.isPrefixOf_iff_prefix.mpr (List.prefix_append (c :: cs) s.toList))]

/-- `split` goes through a text part by part. -/
theorem split_append_cons (sep : Char) (s t : String) :
    split sep (s ++ String.singleton sep ++ t) = split sep s ++ split sep t := by
  unfold split
  rw [String.toList_append, String.toList_append, String.toList_singleton, List.append_assoc,
    List.singleton_append, List.splitOn_append_cons_self, List.map_append]

theorem split_of_notMem {sep : Char} {s : String} (h : sep ∉ s.toList) : split sep s = [s] := by
  unfold split
  rw [List.splitOn_eq_singleton h, List.map_singleton, String.ofList_toList]

theorem split_ne_nil (sep : Char) (s : String) : split sep s ≠ [] := by
  unfold split
  simp

/-! ## Trimming -/

section

variable {α : Type} {p q : α → Bool} {a b : List α} {c : α}

theorem dropWhile_append_cons (h : ¬p c) :
    (a ++ c :: b).dropWhile p = a.dropWhile p ++ c :: b := by
  rw [List.dropWhile_append, List.dropWhile_cons_of_neg h]
  split
  · rename_i hnil
    rw [List.isEmpty_iff.mp hnil, List.nil_append]
  · rfl

theorem rdropWhile_append_cons (h : ¬p c) :
    (a ++ c :: b).rdropWhile p = a ++ c :: b.rdropWhile p := by
  unfold List.rdropWhile
  rw [List.reverse_append, List.reverse_cons, List.append_assoc, List.singleton_append,
    dropWhile_append_cons h]
  simp

theorem rdropWhile_rdropWhile (h : ∀ c, p c → q c) :
    (a.rdropWhile p).rdropWhile q = a.rdropWhile q := by
  induction a using List.reverseRecOn with
  | nil => rfl
  | append_singleton a c ih =>
    by_cases hp : p c
    · rw [List.rdropWhile_concat_pos p a c hp, List.rdropWhile_concat_pos q a c (h c hp), ih]
    · rw [List.rdropWhile_concat_neg p a c hp]

variable [BEq α] [LawfulBEq α]

theorem count_dropWhile (h : ¬p c) (l : List α) : (l.dropWhile p).count c = l.count c := by
  induction l with
  | nil => rfl
  | cons d l ih =>
    rw [List.dropWhile_cons]
    split
    · rename_i hd
      rw [ih, List.count_cons_of_ne]
      rintro rfl
      exact h hd
    · rfl

theorem count_rdropWhile (h : ¬p c) (l : List α) : (l.rdropWhile p).count c = l.count c := by
  unfold List.rdropWhile
  rw [List.count_reverse, count_dropWhile h, List.count_reverse]

end

theorem toList_trim (s : String) :
    (trim s).toList = (s.toList.dropWhile isTrimmed).rdropWhile isTrimmed := String.toList_ofList

theorem mem_of_mem_trim {s : String} {c : Char} (h : c ∈ (trim s).toList) : c ∈ s.toList := by
  rw [toList_trim] at h
  exact (List.dropWhile_suffix isTrimmed).subset ((List.rdropWhile_prefix isTrimmed _).subset h)

theorem trim_trim (s : String) : trim (trim s) = trim s := by
  apply String.toList_inj.mp
  rw [toList_trim (trim s), toList_trim s]
  have hhead := List.dropWhile_get_zero_not isTrimmed s.toList
  generalize s.toList.dropWhile isTrimmed = l at hhead
  have hdrop : (l.rdropWhile isTrimmed).dropWhile isTrimmed = l.rdropWhile isTrimmed := by
    refine List.dropWhile_eq_self_iff.mpr fun hpos => ?_
    have hpre := List.rdropWhile_prefix isTrimmed l
    have hl : 0 < l.length := hpos.trans_le hpre.length_le
    show ¬isTrimmed ((l.rdropWhile isTrimmed)[0]) = true
    rw [hpre.getElem hpos]
    exact hhead hl
  rw [hdrop]
  exact List.rdropWhile_idempotent isTrimmed l

/-! ## Character by character -/

theorem toLowerCase_append [CaseMap] (s t : String) :
    toLowerCase (s ++ t) = toLowerCase s ++ toLowerCase t := by
  unfold toLowerCase
  rw [String.toList_append, List.flatMap_append, String.ofList_append]

theorem replaceNonAlnum_append (s t : String) :
    replaceNonAlnum (s ++ t) = replaceNonAlnum s ++ replaceNonAlnum t := by
  unfold replaceNonAlnum
  rw [String.toList_append, List.flatMap_append, String.ofList_append]

/-! ## ASCII -/

theorem toLowerCase_of_ascii [CaseMap] {s : String} (h : ∀ c ∈ s.toList, c.toNat < 128) :
    toLowerCase s = String.ofList (s.toList.map Char.toLower) := by
  unfold toLowerCase
  rw [List.map_eq_flatMap]
  congr 1
  apply List.flatMap_congr
  intro c hc
  exact CaseMap.lower_ascii c (h c hc)

/-- What `replaceNonAlnum` makes of a character in lower case. -/
def keyChar (c : Char) : Char :=
  if ('a' ≤ c.toLower ∧ c.toLower ≤ 'z') ∨ ('0' ≤ c.toLower ∧ c.toLower ≤ '9') then c.toLower
  else '_'

theorem utf16Length_toLower {c : Char} (h : c.toNat < 128) : utf16Length c.toLower = 1 := by
  have hall : ∀ n : Fin 128, utf16Length (Char.ofNat n).toLower = 1 := by decide
  have hc := hall ⟨c.toNat, h⟩
  rwa [Char.ofNat_toNat] at hc

/-- In lower case and with underscores, ASCII characters become one character each. -/
theorem flatMap_replaceNonAlnum [CaseMap] {l : List Char} (h : ∀ c ∈ l, c.toNat < 128) :
    (l.flatMap CaseMap.lower).flatMap (fun c =>
      if ('a' ≤ c ∧ c ≤ 'z') ∨ ('0' ≤ c ∧ c ≤ '9') then [c]
      else List.replicate (utf16Length c) '_') = l.map keyChar := by
  rw [List.flatMap_congr fun c hc => CaseMap.lower_ascii c (h c hc), ← List.map_eq_flatMap,
    List.flatMap_map, List.map_eq_flatMap]
  refine List.flatMap_congr fun c hc => ?_
  unfold keyChar
  split
  · rfl
  · rw [utf16Length_toLower (h c hc)]
    rfl

theorem replaceNonAlnum_of_ascii [CaseMap] {s : String} (h : ∀ c ∈ s.toList, c.toNat < 128) :
    replaceNonAlnum (toLowerCase s) = String.ofList (s.toList.map keyChar) := by
  unfold replaceNonAlnum toLowerCase
  rw [String.toList_ofList, flatMap_replaceNonAlnum h]

/-- In lower case and with underscores, a text starts with what its ASCII prefix becomes. -/
theorem prefix_replaceNonAlnum [CaseMap] {s : String} {l : List Char} (hl : l <+: s.toList)
    (h : ∀ c ∈ l, c.toNat < 128) :
    l.map keyChar <+: (replaceNonAlnum (toLowerCase s)).toList := by
  obtain ⟨rest, hs⟩ := hl
  unfold replaceNonAlnum toLowerCase
  rw [String.toList_ofList, String.toList_ofList, ← hs, List.flatMap_append, List.flatMap_append,
    flatMap_replaceNonAlnum h]
  exact List.prefix_append _ _

end Dart
