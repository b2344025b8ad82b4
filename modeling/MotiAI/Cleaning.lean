import MotiAI.Dart.Text
import MotiAI.Dart.RegExp

/-!
# Cleaning an answer

What `fetchQuoteFromAnthropic` and `generateAffirmation` take off the text of an answer: straight
double quotes, an author attribution, a dash at the end, white space around the rest.

`Keeps`: a text without attribution loses only its quotes and the white space around it.
`Complete`: nothing is left to clean. Both depend on the hyphens that have only letters and white
space behind them; the attribution expression takes such a hyphen inside a word, too, and each
expression is applied once.
-/

namespace MotiAI

open Dart Dart.RegExp RegularExpression

/-- `\s`. -/
def spaces : List Char :=
  ['\t', '\n', '\x0b', '\x0c', '\r', ' ', '\u00a0', '\u1680', '\u2000', '\u2001', '\u2002',
    '\u2003', '\u2004', '\u2005', '\u2006', '\u2007', '\u2008', '\u2009', '\u200a', '\u2028',
    '\u2029', '\u202f', '\u205f', '\u3000', '\ufeff']

/-- `A-Za-z`. -/
def letters : List Char :=
  (List.range 26).map (fun n => Char.ofNat (65 + n)) ++
    (List.range 26).map fun n => Char.ofNat (97 + n)

/-- `\s*-\s*[A-Za-z\s]+`. -/
def attribution : RegularExpression Char :=
  many spaces * (char '-' * (many spaces * many1 (letters ++ spaces)))

/-- `\s*-\s*`. -/
def trailingDash : RegularExpression Char := many spaces * (char '-' * many spaces)

def clean (text : String) : String :=
  -- the same character three times
  let cleanText := removeChar '"' (removeChar '"' (removeChar '"' text))
  let cleanText := String.ofList (removeAtEnd attribution cleanText.toList)
  let cleanText := String.ofList (removeAtEnd trailingDash cleanText.toList)
  trim cleanText

/-- `cleanText` of `fetchQuoteFromAnthropic`. -/
def HiveQuoteService.cleanText (text : String) : String := clean text

/-- `cleanText` of `generateAffirmation`. -/
def AffirmationService.cleanText (text : String) : String := clean text

/-! ## Specification -/

/-- The text ends with a hyphen and what `q` describes. -/
def Ending (q : List Char → Prop) (l : List Char) : Prop :=
  ∃ pre post, l = pre ++ '-' :: post ∧ q post

/-- Letters and white space. -/
def Words (l : List Char) : Prop := ∀ c ∈ l, c ∈ letters ++ spaces

instance (l : List Char) : Decidable (Words l) := List.decidableBAll _ l

/-- Letters and white space, but for what `trim` removes behind them. -/
def Loose (l : List Char) : Prop := Words (l.rdropWhile isTrimmed)

/-- White space. -/
def Blank (l : List Char) : Prop := ∀ c ∈ l, c ∈ spaces

instance (l : List Char) : Decidable (Blank l) := List.decidableBAll _ l

/-- Without its double quotes and trimmed, the text has no hyphen behind white space and none at
the end. -/
def Unattributed (text : String) : Prop :=
  (∀ pre c post, (trim (removeChar '"' text)).toList = pre ++ c :: '-' :: post → c ∉ spaces) ∧
    ¬Ending (· = []) (trim (removeChar '"' text)).toList

/-- A text without attribution loses its double quotes and the white space around it. -/
def Keeps (cleaning : String → String) (text : String) : Prop :=
  Unattributed text → cleaning text = trim (removeChar '"' text)

/-- What is cleaned has no double quotes, no white space around it, no hyphen and no attribution at
the end, and stays as it is when it is cleaned again. -/
def Complete (cleaning : String → String) (text : String) : Prop :=
  '"' ∉ (cleaning text).toList ∧ trim (cleaning text) = cleaning text ∧
    ¬Ending Words (cleaning text).toList ∧ cleaning (cleaning text) = cleaning text

/-- At most one attribution or one hyphen is to be taken off, or one hyphen before an
attribution. -/
def TakenOff (l : List Char) : Prop :=
  ¬Ending Loose l ∨
    (∃ pre post, l = pre ++ '-' :: post ∧ Words post ∧ ¬Ending Loose pre) ∨
    ∃ pre mid post, l = pre ++ '-' :: (mid ++ '-' :: post) ∧ Blank mid ∧ post ≠ [] ∧
      Words post ∧ ¬Ending Loose pre

/-! ## The two expressions -/

/-- What the two expressions leave. -/
def withoutEnd (l : List Char) : List Char := removeAtEnd trailingDash (removeAtEnd attribution l)

theorem clean_eq (text : String) :
    clean text = trim (String.ofList (withoutEnd (removeChar '"' text).toList)) := by
  unfold clean withoutEnd removeChar
  simp only [String.toList_ofList, List.filter_filter, Bool.and_self]

theorem isTrimmed_of_mem_spaces : ∀ c ∈ spaces, isTrimmed c = true := by
  have hall : spaces.all isTrimmed = true := by decide
  exact List.all_eq_true.mp hall

theorem Blank.words {l : List Char} (h : Blank l) : Words l :=
  fun c hc => List.mem_append_right letters (h c hc)

theorem Words.loose {l : List Char} (h : Words l) : Loose l :=
  fun c hc => h c ((List.rdropWhile_prefix isTrimmed l).subset hc)

theorem Words.hyphen_notMem {l : List Char} (h : Words l) : '-' ∉ l := by
  intro hl
  exact absurd (h '-' hl) (by decide)

theorem Loose.hyphen_notMem {l : List Char} (h : Loose l) : '-' ∉ l := by
  intro hl
  have hsplit : l.rdropWhile isTrimmed ++ l.rtakeWhile isTrimmed = l :=
    List.rdropWhile_append_rtakeWhile
  rw [← hsplit, List.mem_append] at hl
  rcases hl with hl | hl
  · exact Words.hyphen_notMem h hl
  · exact absurd (List.mem_rtakeWhile_imp hl) (by decide)

theorem rmatch_attribution {x : List Char} :
    (many spaces * many1 (letters ++ spaces)).rmatch x = true ↔ x ≠ [] ∧ Words x := by
  rw [rmatch_mul]
  simp only [rmatch_many, rmatch_many1]
  constructor
  · rintro ⟨a, b, rfl, ha, hb, hw⟩
    refine ⟨List.append_ne_nil_of_right_ne_nil a hb, fun c hc => ?_⟩
    rcases List.mem_append.mp hc with hc | hc
    · exact Blank.words ha c hc
    · exact hw c hc
  · rintro ⟨hne, hw⟩
    exact ⟨[], x, rfl, fun c hc => absurd hc List.not_mem_nil, hne, hw⟩

theorem blank_rdropWhile {l : List Char} (h : Blank (l.rdropWhile (· ∈ spaces))) : Blank l := by
  have hnil : (l.rdropWhile (· ∈ spaces)).rdropWhile (· ∈ spaces) = [] :=
    List.rdropWhile_eq_nil_iff.mpr fun c hc => decide_eq_true (h c hc)
  rw [List.rdropWhile_idempotent, List.rdropWhile_eq_nil_iff] at hnil
  exact fun c hc => of_decide_eq_true (hnil c hc)

section

variable {pre mid post l : List Char}

theorem removeAtEnd_attribution (hne : post ≠ []) (hw : Words post) :
    removeAtEnd attribution (pre ++ '-' :: post) = pre.rdropWhile (· ∈ spaces) := by
  unfold attribution
  rw [removeAtEnd_separator (fun b hb => (rmatch_attribution.mp hb).2.hyphen_notMem)
    hw.hyphen_notMem, if_pos (rmatch_attribution.mpr ⟨hne, hw⟩)]

theorem removeAtEnd_attribution_of_not (hpost : '-' ∉ post) (h : ¬(post ≠ [] ∧ Words post)) :
    removeAtEnd attribution (pre ++ '-' :: post) = pre ++ '-' :: post := by
  unfold attribution
  rw [removeAtEnd_separator (fun b hb => (rmatch_attribution.mp hb).2.hyphen_notMem) hpost,
    if_neg (mt rmatch_attribution.mp h)]

theorem removeAtEnd_trailingDash (h : Blank post) :
    removeAtEnd trailingDash (pre ++ '-' :: post) = pre.rdropWhile (· ∈ spaces) := by
  unfold trailingDash
  rw [removeAtEnd_separator (fun b hb => (Blank.words (rmatch_many.mp hb)).hyphen_notMem)
    h.words.hyphen_notMem, if_pos (rmatch_many.mpr h)]

theorem removeAtEnd_trailingDash_of_not (hpost : '-' ∉ post) (h : ¬Blank post) :
    removeAtEnd trailingDash (pre ++ '-' :: post) = pre ++ '-' :: post := by
  unfold trailingDash
  rw [removeAtEnd_separator (fun b hb => (Blank.words (rmatch_many.mp hb)).hyphen_notMem) hpost,
    if_neg (mt rmatch_many.mp h)]

/-! ## The last hyphen -/

/-- A text without hyphen, or what stands before and behind the last one. -/
theorem last_hyphen (l : List Char) :
    '-' ∉ l ∨ ∃ pre post, l = pre ++ '-' :: post ∧ '-' ∉ post := by
  by_cases h : '-' ∈ l
  · obtain ⟨a, b, hl, ha⟩ := List.eq_append_cons_of_mem (List.mem_reverse.mpr h)
    refine Or.inr ⟨b.reverse, a.reverse, ?_, mt List.mem_reverse.mp ha⟩
    rw [← List.reverse_reverse l, hl, List.reverse_append, List.reverse_cons, List.append_assoc,
      List.singleton_append]
  · exact Or.inl h

theorem ending_iff {q : List Char → Prop} (hq : ∀ x, q x → '-' ∉ x) (hpost : '-' ∉ post) :
    Ending q (pre ++ '-' :: post) ↔ q post := by
  constructor
  · rintro ⟨a, b, h, hb⟩
    rw [(separator_inj hpost (hq b hb) h).2]
    exact hb
  · exact fun h => ⟨pre, post, rfl, h⟩

theorem Ending.hyphen_mem {q : List Char → Prop} (h : Ending q l) : '-' ∈ l := by
  obtain ⟨pre, post, rfl, -⟩ := h
  exact List.mem_append_right pre List.mem_cons_self

theorem Ending.mono {q r : List Char → Prop} (hqr : ∀ x, q x → r x) (h : Ending q l) :
    Ending r l := by
  obtain ⟨pre, post, hl, hpost⟩ := h
  exact ⟨pre, post, hl, hqr post hpost⟩

theorem ending_loose_rdropWhile :
    Ending Loose (l.rdropWhile (· ∈ spaces)) ↔ Ending Loose l := by
  rcases last_hyphen l with h | ⟨pre, post, rfl, hpost⟩
  · have h' : '-' ∉ l.rdropWhile (· ∈ spaces) :=
      fun hmem => h ((List.rdropWhile_prefix _ l).subset hmem)
    exact iff_of_false (mt Ending.hyphen_mem h') (mt Ending.hyphen_mem h)
  · rw [rdropWhile_append_cons (by decide), ending_iff (fun _ => Loose.hyphen_notMem) hpost,
      ending_iff (fun _ => Loose.hyphen_notMem)
        fun hmem => hpost ((List.rdropWhile_prefix _ post).subset hmem)]
    unfold Loose
    rw [rdropWhile_rdropWhile fun c hc => isTrimmed_of_mem_spaces c (of_decide_eq_true hc)]

/-- Trimming brings out the words at the end. -/
theorem ending_words_trim (s : String) :
    Ending Words (trim s).toList ↔ Ending Loose s.toList := by
  rcases last_hyphen s.toList with h | ⟨pre, post, hs, hpost⟩
  · exact iff_of_false (mt Ending.hyphen_mem (mt mem_of_mem_trim h)) (mt Ending.hyphen_mem h)
  · rw [toList_trim, hs, dropWhile_append_cons (by decide), rdropWhile_append_cons (by decide),
      ending_iff (fun _ => Loose.hyphen_notMem) hpost,
      ending_iff (fun _ => Words.hyphen_notMem)
        fun hmem => hpost ((List.rdropWhile_prefix _ post).subset hmem)]
    exact Iff.rfl

/-! ## What is left -/

theorem withoutEnd_of_not_ending (h : ¬Ending Words l) : withoutEnd l = l := by
  unfold withoutEnd
  rcases last_hyphen l with hl | ⟨pre, post, rfl, hpost⟩
  · unfold attribution trailingDash
    rw [removeAtEnd_of_notMem hl, removeAtEnd_of_notMem hl]
  · rw [ending_iff (fun _ => Words.hyphen_notMem) hpost] at h
    rw [removeAtEnd_attribution_of_not hpost fun hw => h hw.2,
      removeAtEnd_trailingDash_of_not hpost fun hb => h hb.words]

theorem withoutEnd_hyphen : withoutEnd (pre ++ ['-']) = pre.rdropWhile (· ∈ spaces) := by
  unfold withoutEnd
  rw [removeAtEnd_attribution_of_not List.not_mem_nil fun h => h.1 rfl,
    removeAtEnd_trailingDash fun c hc => absurd hc List.not_mem_nil]

/-- The expression of the attribution takes the words, that of the dash nothing more. -/
theorem withoutEnd_words (hne : post ≠ []) (hw : Words post) (hpre : ¬Ending Blank pre) :
    withoutEnd (pre ++ '-' :: post) = pre.rdropWhile (· ∈ spaces) := by
  unfold withoutEnd
  rw [removeAtEnd_attribution hne hw]
  rcases last_hyphen pre with h | ⟨a, b, rfl, hb⟩
  · unfold trailingDash
    rw [removeAtEnd_of_notMem fun hmem => h ((List.rdropWhile_prefix _ pre).subset hmem)]
  · rw [ending_iff (fun _ hx => hx.words.hyphen_notMem) hb] at hpre
    rw [rdropWhile_append_cons (by decide), removeAtEnd_trailingDash_of_not
      (fun hmem => hb ((List.rdropWhile_prefix _ b).subset hmem)) (mt blank_rdropWhile hpre)]

theorem withoutEnd_blank (hmid : Blank mid) (hne : post ≠ []) (hw : Words post) :
    withoutEnd (pre ++ '-' :: (mid ++ '-' :: post)) = pre.rdropWhile (· ∈ spaces) := by
  unfold withoutEnd
  have hl : pre ++ '-' :: (mid ++ '-' :: post) = (pre ++ '-' :: mid) ++ '-' :: post := by
    rw [List.append_assoc, List.cons_append]
  have hskip : mid.rdropWhile (· ∈ spaces) = [] :=
    List.rdropWhile_eq_nil_iff.mpr fun c hc => decide_eq_true (hmid c hc)
  rw [hl, removeAtEnd_attribution hne hw, rdropWhile_append_cons (by decide), hskip,
    removeAtEnd_trailingDash fun c hc => absurd hc List.not_mem_nil]

theorem ending_loose_withoutEnd : ¬Ending Loose (withoutEnd l) ↔ TakenOff l := by
  constructor
  · intro h
    by_cases hl : Ending Words l
    · obtain ⟨pre, post, rfl, hpost⟩ := hl
      by_cases hne : post = []
      · rw [hne, withoutEnd_hyphen, ending_loose_rdropWhile] at h
        exact Or.inr (Or.inl ⟨pre, post, rfl, hpost, h⟩)
      · by_cases hpre : Ending Blank pre
        · obtain ⟨a, mid, rfl, hmid⟩ := hpre
          have hl : (a ++ '-' :: mid) ++ '-' :: post = a ++ '-' :: (mid ++ '-' :: post) := by
            rw [List.append_assoc, List.cons_append]
          rw [hl, withoutEnd_blank hmid hne hpost, ending_loose_rdropWhile] at h
          exact Or.inr (Or.inr ⟨a, mid, post, hl, hmid, hne, hpost, h⟩)
        · rw [withoutEnd_words hne hpost hpre, ending_loose_rdropWhile] at h
          exact Or.inr (Or.inl ⟨pre, post, rfl, hpost, h⟩)
    · rw [withoutEnd_of_not_ending hl] at h
      exact Or.inl h
  · rintro (h | ⟨pre, post, rfl, hpost, h⟩ | ⟨pre, mid, post, rfl, hmid, hne, hpost, h⟩)
    · rwa [withoutEnd_of_not_ending (mt (Ending.mono fun _ hx => Words.loose hx) h)]
    · by_cases hne : post = []
      · rwa [hne, withoutEnd_hyphen, ending_loose_rdropWhile]
      · rwa [withoutEnd_words hne hpost (mt (Ending.mono fun _ hx => hx.words.loose) h),
          ending_loose_rdropWhile]
    · rwa [withoutEnd_blank hmid hne hpost, ending_loose_rdropWhile]

theorem withoutEnd_isPrefix : withoutEnd l <+: l :=
  (removeAtEnd_isPrefix trailingDash _).trans (removeAtEnd_isPrefix attribution l)

/-- The last hyphen goes when only words stand behind it. -/
theorem withoutEnd_isPrefix_of_words (h : Words post) : withoutEnd (pre ++ '-' :: post) <+: pre := by
  by_cases hne : post = []
  · rw [hne, withoutEnd_hyphen]
    exact List.rdropWhile_prefix _ pre
  · unfold withoutEnd
    rw [removeAtEnd_attribution hne h]
    exact (removeAtEnd_isPrefix trailingDash _).trans (List.rdropWhile_prefix _ pre)

end

theorem count_hyphen_trim (s : String) : (trim s).toList.count '-' = s.toList.count '-' := by
  rw [toList_trim, count_rdropWhile (by decide), count_dropWhile (by decide)]

/-- **An answer keeps its text exactly if no hyphen has only letters and white space behind it.** -/
theorem clean_eq_trim_iff (text : String) :
    clean text = trim (removeChar '"' text) ↔ ¬Ending Words (removeChar '"' text).toList := by
  rw [clean_eq]
  generalize removeChar '"' text = s
  constructor
  · rintro h ⟨pre, post, hs, hpost⟩
    have hcount := congrArg (fun c : String => c.toList.count '-') h
    simp only [count_hyphen_trim, String.toList_ofList] at hcount
    have hle : (withoutEnd s.toList).count '-' ≤ pre.count '-' := by
      rw [hs]
      exact (withoutEnd_isPrefix_of_words hpost).sublist.count_le '-'
    have hs' : s.toList.count '-' = pre.count '-' + (post.count '-' + 1) := by
      rw [hs, List.count_append, List.count_cons_self]
    omega
  · intro h
    rw [withoutEnd_of_not_ending h, String.ofList_toList]

/-- The cleaning steps keep an answer without attribution exactly if no hyphen in it has only
letters and white space behind it. -/
theorem keeps_iff (text : String) :
    (Keeps HiveQuoteService.cleanText text ∧ Keeps AffirmationService.cleanText text) ↔
      (Unattributed text → ¬Ending Words (removeChar '"' text).toList) := by
  rw [← clean_eq_trim_iff]
  exact and_self_iff

/-- "self-aware" loses its second half. -/
theorem not_keeps_inner_hyphen : ¬Keeps HiveQuoteService.cleanText "I am self-aware" ∧
    ¬Keeps AffirmationService.cleanText "I am self-aware" := by
  have hl : (removeChar '"' "I am self-aware").toList =
      ['I', ' ', 'a', 'm', ' ', 's', 'e', 'l', 'f'] ++ '-' :: ['a', 'w', 'a', 'r', 'e'] := by decide
  have htrim : (trim (removeChar '"' "I am self-aware")).toList =
      ['I', ' ', 'a', 'm', ' ', 's', 'e', 'l', 'f'] ++ '-' :: ['a', 'w', 'a', 'r', 'e'] := by decide
  have hun : Unattributed "I am self-aware" := by
    unfold Unattributed
    rw [htrim]
    refine ⟨fun pre c post h => ?_, ?_⟩
    · have h' : _ ++ '-' :: _ = (pre ++ [c]) ++ '-' :: post :=
        h.trans (List.append_cons pre c ('-' :: post))
      rw [List.append_cons_inj_of_notMem (by decide) (by decide)] at h'
      have hc := congrArg List.getLast? h'.1
      rw [List.getLast?_concat] at hc
      rw [← Option.some.inj hc]
      decide
    · rintro ⟨pre, post, h, rfl⟩
      rw [List.append_cons_inj_of_notMem (by decide) (by decide)] at h
      exact List.cons_ne_nil _ _ h.2.2
  have hcut : clean "I am self-aware" ≠ trim (removeChar '"' "I am self-aware") := by
    rw [Ne, clean_eq_trim_iff, not_not, hl]
    refine ⟨_, _, rfl, ?_⟩
    decide
  exact ⟨fun h => hcut (h hun), fun h => hcut (h hun)⟩

theorem quote_notMem_clean (text : String) : '"' ∉ (clean text).toList := by
  rw [clean_eq]
  intro h
  have h' := mem_of_mem_trim h
  rw [String.toList_ofList] at h'
  have hmem := withoutEnd_isPrefix.subset h'
  unfold removeChar at hmem
  rw [String.toList_ofList, List.mem_filter] at hmem
  exact of_decide_eq_true hmem.2 rfl

theorem trim_clean (text : String) : trim (clean text) = clean text := by
  rw [clean_eq]
  exact trim_trim _

/-- A result is complete as soon as it has no attribution and no hyphen at the end. -/
theorem complete_clean_iff (text : String) :
    Complete clean text ↔ ¬Ending Words (clean text).toList := by
  constructor
  · exact fun h => h.2.2.1
  · intro h
    have htrim := trim_clean text
    have hquote := removeChar_of_notMem (quote_notMem_clean text)
    refine ⟨quote_notMem_clean text, htrim, h, ?_⟩
    rw [(clean_eq_trim_iff (clean text)).mpr (by rwa [hquote]), hquote, htrim]

/-- **The cleaning steps leave nothing to clean exactly if the text has at most one ending to take
off, or a hyphen before the last one.** -/
theorem cleaned_iff (text : String) :
    (Complete HiveQuoteService.cleanText text ∧ Complete AffirmationService.cleanText text) ↔
      TakenOff (removeChar '"' text).toList := by
  have hclean : Complete clean text ↔ TakenOff (removeChar '"' text).toList := by
    rw [complete_clean_iff, clean_eq, ending_words_trim, String.toList_ofList,
      ending_loose_withoutEnd]
  rw [← hclean]
  exact and_self_iff

/-- Of two attributions the first is left. -/
theorem not_complete_two_attributions :
    ¬Complete HiveQuoteService.cleanText "Know yourself - Rumi - Sufi" ∧
      ¬Complete AffirmationService.cleanText "Know yourself - Rumi - Sufi" := by
  have hl : (removeChar '"' "Know yourself - Rumi - Sufi").toList =
      "Know yourself - Rumi ".toList ++ '-' :: " Sufi".toList := by decide
  have hpre : "Know yourself - Rumi ".toList =
      "Know yourself ".toList ++ '-' :: " Rumi ".toList := by decide
  have hleft : ¬Complete clean "Know yourself - Rumi - Sufi" := by
    rw [complete_clean_iff, not_not, clean_eq, ending_words_trim, String.toList_ofList, hl,
      withoutEnd_words (by decide) (by decide), ending_loose_rdropWhile, hpre]
    · refine ⟨_, _, rfl, Words.loose ?_⟩
      decide
    · rw [hpre, ending_iff (fun _ hx => hx.words.hyphen_notMem) (by decide)]
      decide
  exact ⟨hleft, hleft⟩

end MotiAI
