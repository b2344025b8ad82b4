import MotiAI.Audio.Keys
import MotiAI.Audio.Service

/-!
# Audio ids read back

The ids of generated sounds are made by `_generateCacheKey`, and read by two other functions:
`getAIAudioKeysForTradition` looks for the ids that start with those of a tradition, and
`_extractTraditionFromAudioId` takes a tradition out of an id.

1. `separates_iff`: which traditions get ids of another one.
2. `decodes_iff`: which names come back from their ids, and for which names nothing is thrown.
-/

namespace MotiAI

open Dart Hive HiveQuoteService

namespace AIAudio

section

variable [CaseMap]

/-- The name of a tradition in an id: lower case, with `_` for all but letters and digits. -/
def sanitized (name : String) : String := replaceNonAlnum (toLowerCase name)

/-- The ids and sounds of the traditions, each generated as 'U Inspiration' in eleven variations. -/
def generatedEntries (data : String → Fin 11 → String) (traditions : List String) :
    List (String × String) :=
  traditions.flatMap fun tradition => (List.finRange 11).map fun variation =>
    (generateCacheKey (tradition ++ " Inspiration") variation, data tradition variation)

/-- The box after the sounds of these traditions were generated. -/
def preGenerated (data : String → Fin 11 → String) (traditions : List String) : Box String :=
  Box.putAll (generatedEntries data traditions) ∅

/-- The ids found for a tradition are its own, and no one else's. -/
structure Separates (data : String → Fin 11 → String) (traditions : List String)
    (tradition : String) : Prop where
  own : ∀ t ∈ traditions, sanitized t = sanitized tradition → ∀ variation,
    generateCacheKey (t ++ " Inspiration") variation ∈
      getAIAudioKeysForTradition tradition (preGenerated data traditions)
  others : ∀ t ∈ traditions, sanitized t ≠ sanitized tradition → ∀ variation,
    generateCacheKey (t ++ " Inspiration") variation ∉
      getAIAudioKeysForTradition tradition (preGenerated data traditions)

/-- The name of `t` starts with the name of `tradition`, or this is the name of `t` and a beginning of
what follows it in an id. -/
def Extends (t tradition : String) : Prop :=
  (sanitized tradition).toList <+: (sanitized t).toList ∨
    ∃ (variation : Fin 11) (rest : List Char),
      (sanitized tradition).toList = (sanitized t).toList ++ rest ∧
        rest <+: ("_inspiration_" ++ toString (variation.val + 1)).toList

/-! ## The ids of a tradition -/

theorem sanitized_append (s t : String) : sanitized (s ++ t) = sanitized s ++ sanitized t := by
  unfold sanitized
  rw [toLowerCase_append, replaceNonAlnum_append]

theorem sanitized_inspiration : sanitized " Inspiration" = "_inspiration" := by
  unfold sanitized
  rw [toLowerCase_of_ascii (lt_of_isAscii (by decide +kernel))]
  decide +kernel

/-- An id in its parts. -/
theorem generateCacheKey_inspiration (tradition : String) (variation : Fin 11) :
    (generateCacheKey (tradition ++ " Inspiration") variation).toList =
      "ai_audio_".toList ++ ((sanitized tradition).toList ++
        ("_inspiration_" ++ toString (variation.val + 1)).toList) := by
  have hname := sanitized_append tradition " Inspiration"
  rw [sanitized_inspiration] at hname
  unfold generateCacheKey
  rw [show replaceNonAlnum (toLowerCase (tradition ++ " Inspiration")) = _ from hname,
    show "_inspiration_" = "_inspiration" ++ "_" from rfl]
  simp only [String.toList_append, List.append_assoc]

theorem mem_generatedEntries {data : String → Fin 11 → String} {traditions : List String}
    {t : String} (ht : t ∈ traditions) (variation : Fin 11) :
    (generateCacheKey (t ++ " Inspiration") variation, data t variation) ∈
      generatedEntries data traditions :=
  List.mem_flatMap.mpr
    ⟨t, ht, List.mem_map.mpr ⟨variation, List.mem_finRange variation, rfl⟩⟩

/-- **The prefix test** on the ids of a generated tradition. -/
theorem mem_keys_iff {data : String → Fin 11 → String} {traditions : List String}
    {t tradition : String} (ht : t ∈ traditions) (variation : Fin 11) :
    generateCacheKey (t ++ " Inspiration") variation ∈
        getAIAudioKeysForTradition tradition (preGenerated data traditions) ↔
      (sanitized tradition).toList <+: (sanitized t).toList ++
        ("_inspiration_" ++ toString (variation.val + 1)).toList := by
  unfold getAIAudioKeysForTradition
  rw [List.mem_filter, startsWith_iff, generateCacheKey_inspiration, String.toList_append,
    List.prefix_append_right_inj]
  refine and_iff_right (Box.mem_keys.mpr ?_)
  exact Box.exists_getElem?_putAll (mem_generatedEntries ht variation) ∅

theorem extends_iff {t tradition : String} : Extends t tradition ↔ ∃ variation : Fin 11,
    (sanitized tradition).toList <+: (sanitized t).toList ++
      ("_inspiration_" ++ toString (variation.val + 1)).toList := by
  simp only [prefix_append_iff, exists_or]
  exact or_congr_left ⟨fun h => ⟨⟨0, by decide⟩, h⟩, fun ⟨_, h⟩ => h⟩

/-- **Whose sounds are found.** A tradition finds its own ids and no one else's exactly when the name
of no other generated tradition starts with its name, or is continued by it. -/
theorem separates_iff (data : String → Fin 11 → String) (traditions : List String)
    (tradition : String) : Separates data traditions tradition ↔
      ∀ t ∈ traditions, sanitized t ≠ sanitized tradition → ¬ Extends t tradition := by
  constructor
  · intro h t ht hne hext
    obtain ⟨variation, hpre⟩ := extends_iff.mp hext
    exact h.others t ht hne variation ((mem_keys_iff ht variation).mpr hpre)
  · intro h
    refine ⟨fun t ht heq variation => (mem_keys_iff ht variation).mpr ?_,
      fun t ht hne variation hmem => h t ht hne (extends_iff.mpr ⟨variation, ?_⟩)⟩
    · rw [heq]
      exact List.prefix_append _ _
    · exact (mem_keys_iff ht variation).mp hmem

end

/-- 'Indigenous' finds the sounds of 'Indigenous Wisdom'. -/
theorem not_separates_extended :
    ¬ @Separates CaseMap.ascii (fun _ _ => "") ["Indigenous Wisdom"] "Indigenous" := by
  intro h
  have hne : @sanitized CaseMap.ascii "Indigenous Wisdom" ≠ @sanitized CaseMap.ascii "Indigenous" :=
    by decide +kernel
  refine @Separates.others CaseMap.ascii _ _ _ h "Indigenous Wisdom" List.mem_cons_self hne
    ⟨0, by decide⟩ ((@mem_keys_iff CaseMap.ascii _ _ _ _ List.mem_cons_self _).mpr ?_)
  rw [show "Indigenous Wisdom" = "Indigenous" ++ " Wisdom" from rfl,
    @sanitized_append CaseMap.ascii, String.toList_append, List.append_assoc]
  exact List.prefix_append _ _

/-! ## Names -/

/-- A capitalised word of ASCII letters. -/
structure Word where
  first : Char
  rest : List Char
  upper : first.isUpper = true
  alpha : ∀ c ∈ rest, c.isAlpha = true

def Word.text (w : Word) : String := String.ofList (w.first :: w.rest)

/-- Behind its first letter the word has no capital. -/
def Word.Plain (w : Word) : Prop := ∀ c ∈ w.rest, c.isLower = true

/-- Words separated by single spaces. -/
def nameOf (words : List Word) : String := " ".intercalate (words.map Word.text)

/-- What is left of a word when it is read back. -/
def Word.decoded (w : Word) : String := String.ofList (w.first :: w.rest.map Char.toLower)

theorem Word.length_decoded {w : Word} : w.decoded.length = w.text.length := by
  unfold decoded text
  rw [String.length_ofList, String.length_ofList, List.length_cons, List.length_map,
    List.length_cons]

theorem nameOf_singleton (w : Word) : nameOf [w] = w.text := String.intercalate_singleton

theorem nameOf_cons (w w' : Word) (ws : List Word) :
    nameOf (w :: w' :: ws) = w.text ++ " " ++ nameOf (w' :: ws) :=
  String.intercalate_cons_cons

/-- Texts that end at the same place before a space are the same. -/
theorem append_space_inj {a b s t : String} (h : a.length = b.length) :
    a ++ " " ++ s = b ++ " " ++ t ↔ a = b ∧ s = t := by
  constructor
  · intro heq
    rw [← String.toList_inj, String.toList_append, String.toList_append, String.toList_append,
      String.toList_append, List.append_assoc, List.append_assoc] at heq
    obtain ⟨hab, hst⟩ := List.append_inj heq (by rwa [String.length_toList, String.length_toList])
    exact ⟨String.toList_inj.mp hab, String.toList_inj.mp (List.append_cancel_left hst)⟩
  · rintro ⟨rfl, rfl⟩
    rfl

theorem isUpper_isAlpha {c : Char} (h : c.isUpper = true) : c.isAlpha = true := by
  unfold Char.isAlpha
  rw [h]
  rfl

theorem lt_of_isAlpha {c : Char} (h : c.isAlpha = true) : c.toNat < 128 := by
  simp only [Char.isAlpha, Char.isUpper, Char.isLower, Bool.or_eq_true, Bool.and_eq_true,
    decide_eq_true_eq, ge_iff_le, UInt32.le_iff_toNat_le] at h
  unfold Char.toNat
  change 65 ≤ c.val.toNat ∧ c.val.toNat ≤ 90 ∨ 97 ≤ c.val.toNat ∧ c.val.toNat ≤ 122 at h
  omega

/-- What an id makes of a letter, and how it comes back. -/
structure Letter (c : Char) : Prop where
  keyChar : keyChar c = c.toLower
  ascii : c.toLower.toNat < 128
  notUnderscore : c.toLower ≠ '_'
  isLower : c.isLower = true ↔ c.toLower = c
  toUpper : c.isUpper = true → c.toLower.toUpper = c

theorem letter_of_isAlpha {c : Char} (h : c.isAlpha = true) : Letter c := by
  have hall : ∀ n : Fin 128, (Char.ofNat n).isAlpha = true →
      Dart.keyChar (Char.ofNat n) = (Char.ofNat n).toLower ∧ (Char.ofNat n).toLower.toNat < 128 ∧
        (Char.ofNat n).toLower ≠ '_' ∧
        ((Char.ofNat n).isLower = true ↔ (Char.ofNat n).toLower = Char.ofNat n) ∧
        ((Char.ofNat n).isUpper = true → (Char.ofNat n).toLower.toUpper = Char.ofNat n) := by
    decide +kernel
  have hc := hall ⟨c.toNat, lt_of_isAlpha h⟩
  rw [Char.ofNat_toNat] at hc
  obtain ⟨hkey, hascii, hne, hlower, hupper⟩ := hc h
  exact ⟨hkey, hascii, hne, hlower, hupper⟩

theorem Word.isAlpha {w : Word} : ∀ c ∈ w.first :: w.rest, c.isAlpha = true :=
  List.forall_mem_cons.mpr ⟨isUpper_isAlpha w.upper, w.alpha⟩

theorem Word.decoded_eq_iff {w : Word} : w.decoded = w.text ↔ w.Plain := by
  have hfix : w.rest.map Char.toLower = w.rest ↔ ∀ c ∈ w.rest, c.toLower = id c := by
    rw [← List.map_inj_left, List.map_id]
  unfold decoded text Plain
  rw [String.ofList_inj, List.cons.injEq, and_iff_right rfl, hfix]
  exact forall₂_congr fun c hc => (letter_of_isAlpha (w.alpha c hc)).isLower.symm

/-- A word that is read back is no longer name. -/
theorem Word.decoded_eq_nameOf_iff {w : Word} {ws : List Word} :
    w.decoded = nameOf (w :: ws) ↔ ws = [] ∧ w.Plain := by
  cases ws with
  | nil => rw [nameOf_singleton, Word.decoded_eq_iff, and_iff_right rfl]
  | cons w' ws =>
    refine iff_of_false (fun h => ?_) (fun h => absurd h.1 (List.cons_ne_nil _ _))
    have hlength := congrArg String.length h
    rw [nameOf_cons, String.length_append, String.length_append, Word.length_decoded] at hlength
    exact absurd hlength (by rw [show " ".length = 1 from rfl]; omega)

section

variable [CaseMap]

theorem toList_sanitized_text (w : Word) :
    (sanitized w.text).toList = w.first.toLower :: w.rest.map Char.toLower := by
  unfold sanitized Word.text
  rw [replaceNonAlnum_of_ascii, String.toList_ofList, String.toList_ofList]
  · exact List.map_congr_left fun c hc => (letter_of_isAlpha (w.isAlpha c hc)).keyChar
  · rw [String.toList_ofList]
    exact fun c hc => lt_of_isAlpha (w.isAlpha c hc)

theorem notMem_sanitized_text (w : Word) : '_' ∉ (sanitized w.text).toList := by
  rw [toList_sanitized_text, ← List.map_cons (f := Char.toLower)]
  intro hmem
  obtain ⟨c, hc, heq⟩ := List.mem_map.mp hmem
  exact (letter_of_isAlpha (w.isAlpha c hc)).notUnderscore heq

theorem capitalize_sanitized_text (w : Word) : capitalize (sanitized w.text) = some w.decoded := by
  have hletter := letter_of_isAlpha (isUpper_isAlpha w.upper)
  unfold capitalize Word.decoded
  rw [toList_sanitized_text]
  dsimp only
  rw [if_pos (utf16Length_toLower (lt_of_isAlpha (isUpper_isAlpha w.upper))),
    CaseMap.upper_ascii _ hletter.ascii, hletter.toUpper w.upper]
  rfl

theorem sanitized_space : sanitized " " = "_" := by
  unfold sanitized
  rw [toLowerCase_of_ascii (lt_of_isAscii (by decide +kernel))]
  decide +kernel

/-- The words of a name are the parts of its id. -/
theorem split_sanitized_nameOf (w : Word) (ws : List Word) :
    split '_' (sanitized (nameOf (w :: ws))) = (w :: ws).map fun w => sanitized w.text := by
  induction ws generalizing w with
  | nil =>
    rw [nameOf_singleton, split_of_notMem (notMem_sanitized_text w)]
    rfl
  | cons w' ws ih =>
    rw [nameOf_cons, sanitized_append, sanitized_append, sanitized_space,
      show "_" = String.singleton '_' from rfl, split_append_cons, ih,
      split_of_notMem (notMem_sanitized_text w)]
    rfl

omit [CaseMap] in
theorem toList_toString_variation (variation : Fin 11) : ∃ c cs,
    (toString (variation.val + 1)).toList = c :: cs ∧ c.toNat < 128 ∧ c.toUpper = c ∧
      '_' ∉ c :: cs := by
  have hall : ∀ v : Fin 11, (toString (v.val + 1)).toList ≠ [] ∧
      (toString (v.val + 1)).toList.all (fun c => c.toNat < 128 && c.toUpper = c && c ≠ '_') := by
    decide
  obtain ⟨hne, hdigits⟩ := hall variation
  obtain ⟨c, cs, hcs⟩ := List.exists_cons_of_ne_nil hne
  rw [hcs, List.all_eq_true] at hdigits
  simp only [Bool.and_eq_true, decide_eq_true_eq] at hdigits
  obtain ⟨⟨hascii, hupper⟩, -⟩ := hdigits c List.mem_cons_self
  exact ⟨c, cs, hcs, hascii, hupper, fun hmem => (hdigits '_' hmem).2 rfl⟩

theorem capitalize_toString_variation (variation : Fin 11) :
    capitalize (toString (variation.val + 1)) = some (toString (variation.val + 1)) := by
  obtain ⟨c, cs, hcs, hascii, hupper, -⟩ := toList_toString_variation variation
  have hlen : utf16Length c = 1 := if_pos (by omega)
  unfold capitalize
  rw [hcs]
  dsimp only
  rw [if_pos hlen, CaseMap.upper_ascii c hascii, hupper, List.singleton_append, ← hcs,
    String.ofList_toList]

/-! ## Reading an id -/

theorem generateCacheKey_eq (name : String) (variation : Fin 11) :
    generateCacheKey name variation = "ai_audio_" ++
      (sanitized name ++ String.singleton '_' ++ toString (variation.val + 1)) := by
  unfold generateCacheKey sanitized
  rw [show "_" = String.singleton '_' from rfl]
  simp only [String.append_assoc]

/-- The parts of an id. -/
theorem split_generateCacheKey (name : String) (variation : Fin 11) :
    split '_' (replaceFirst "ai_audio_" "" (generateCacheKey name variation)) =
      split '_' (sanitized name) ++ [toString (variation.val + 1)] := by
  obtain ⟨c, cs, hcs, -, -, hno⟩ := toList_toString_variation variation
  have hdigits : '_' ∉ (toString (variation.val + 1)).toList := by
    rw [hcs]
    exact hno
  rw [generateCacheKey_eq, replaceFirst_append (by decide +kernel), String.empty_append,
    split_append_cons, split_of_notMem hdigits]

/-- The first two parts are taken. -/
theorem extract_of_parts {audioId tradition category : String} {rest : List String}
    (h : split '_' (replaceFirst "ai_audio_" "" audioId) = tradition :: category :: rest) :
    Audio.extractTraditionFromAudioId audioId =
      (capitalize tradition).bind fun t => (capitalize category).map fun c => t ++ " " ++ c := by
  unfold Audio.extractTraditionFromAudioId
  rw [h]
  dsimp only
  cases capitalize tradition with
  | none => rfl
  | some t => cases capitalize category <;> rfl

theorem capitalize_ne_none_iff {s : String} : capitalize s ≠ none ↔ s ≠ "" := by
  unfold capitalize
  rw [Ne, Ne, ← String.toList_eq_nil_iff]
  cases s.toList with
  | nil => simp
  | cons c cs => simp

theorem extract_parts_ne_none_iff {tradition category : String} :
    ((capitalize tradition).bind fun t => (capitalize category).map fun c => t ++ " " ++ c) ≠ none ↔
      tradition ≠ "" ∧ category ≠ "" := by
  rw [← capitalize_ne_none_iff, ← capitalize_ne_none_iff (s := category)]
  cases capitalize tradition <;> cases capitalize category <;> simp

/-- An id is read, unless one of its first two parts is empty. -/
theorem extract_ne_none_iff (name : String) (variation : Fin 11) :
    Audio.extractTraditionFromAudioId (generateCacheKey name variation) ≠ none ↔
      ∀ part ∈ (split '_' (sanitized name)).take 2, part ≠ "" := by
  have hdigits : toString (variation.val + 1) ≠ "" := by
    rw [← capitalize_ne_none_iff, capitalize_toString_variation]
    exact Option.some_ne_none _
  obtain ⟨part, parts, hparts⟩ := List.exists_cons_of_ne_nil (split_ne_nil '_' (sanitized name))
  have hread := split_generateCacheKey name variation
  rw [hparts] at hread ⊢
  cases parts with
  | nil =>
    rw [extract_of_parts hread, extract_parts_ne_none_iff, and_iff_left hdigits]
    simp
  | cons part' parts =>
    rw [extract_of_parts hread, extract_parts_ne_none_iff]
    simp

/-! ## Letters and digits -/

/-- The characters an id keeps. -/
def Alnum (c : Char) : Prop := ('a' ≤ c ∧ c ≤ 'z') ∨ ('0' ≤ c ∧ c ≤ '9')

instance : DecidablePred Alnum := fun c =>
  inferInstanceAs (Decidable (('a' ≤ c ∧ c ≤ 'z') ∨ ('0' ≤ c ∧ c ≤ '9')))

/-- Nothing follows, or one separator and then a letter or digit. -/
def Continued : List Char → Prop
  | [] => True
  | [_] => False
  | c :: d :: _ => utf16Length c = 1 ∧ Alnum d

/-- In lower case, the name begins with a letter or digit, and what comes first after its leading
letters and digits is one separator with another letter or digit behind it. -/
def Readable (name : String) : Prop :=
  (toLowerCase name).toList.takeWhile (fun c => Alnum c) ≠ [] ∧
    Continued ((toLowerCase name).toList.dropWhile fun c => Alnum c)

omit [CaseMap] in
theorem Alnum.ne_underscore {c : Char} (h : Alnum c) : c ≠ '_' := by
  rintro rfl
  revert h
  decide

omit [CaseMap] in
/-- The underscores for a character that is not kept. -/
theorem replicate_utf16Length (c : Char) :
    List.replicate (utf16Length c) '_' = '_' :: List.replicate (utf16Length c - 1) '_' := by
  have hpos : 1 ≤ utf16Length c := by
    unfold utf16Length
    split <;> decide
  rw [← List.replicate_succ, Nat.sub_add_cancel hpos]

omit [CaseMap] in
theorem replaceNonAlnum_ofList_append {word : List Char} (hword : ∀ c ∈ word, Alnum c)
    (rest : List Char) : replaceNonAlnum (String.ofList (word ++ rest)) =
      String.ofList word ++ replaceNonAlnum (String.ofList rest) := by
  have hkept : word.flatMap (fun c => if Alnum c then [c]
      else List.replicate (utf16Length c) '_') = word := by
    rw [List.flatMap_congr fun c hc => if_pos (hword c hc)]
    exact List.flatMap_singleton' word
  have hword : replaceNonAlnum (String.ofList word) = String.ofList word := by
    unfold replaceNonAlnum
    rw [String.toList_ofList]
    exact congrArg String.ofList hkept
  rw [String.ofList_append, replaceNonAlnum_append, hword]

omit [CaseMap] in
theorem replaceNonAlnum_ofList_cons {c : Char} (hc : ¬ Alnum c) (rest : List Char) :
    replaceNonAlnum (String.ofList (c :: rest)) = String.singleton '_' ++
      String.ofList (List.replicate (utf16Length c - 1) '_') ++
        replaceNonAlnum (String.ofList rest) := by
  have hhead : replaceNonAlnum (String.ofList [c]) = String.singleton '_' ++
      String.ofList (List.replicate (utf16Length c - 1) '_') := by
    unfold replaceNonAlnum
    rw [String.toList_ofList, List.flatMap_singleton, if_neg, replicate_utf16Length,
      ← List.singleton_append, String.ofList_append]
    · rfl
    · exact hc
  rw [← List.singleton_append, String.ofList_append, replaceNonAlnum_append, hhead]

omit [CaseMap] in
/-- The first part of a text is empty when there is no text or it starts with `_`. -/
theorem exists_split_eq (s : String) : ∃ part parts, split '_' s = part :: parts ∧
    (part ≠ "" ↔ ∃ c cs, s.toList = c :: cs ∧ c ≠ '_') := by
  unfold split
  cases s.toList with
  | nil => exact ⟨"", [], rfl, by simp⟩
  | cons c cs =>
    rw [List.splitOn_cons_eq_if_modifyHead]
    by_cases hc : c = '_'
    · refine ⟨"", (cs.splitOn '_').map String.ofList, ?_, ?_⟩
      · rw [if_pos (beq_iff_eq.mpr hc)]
        rfl
      · simp [hc]
    · obtain ⟨part, parts, hparts⟩ := List.exists_cons_of_ne_nil (List.splitOn_ne_nil '_' cs)
      refine ⟨String.ofList (c :: part), parts.map String.ofList, ?_, ?_⟩
      · rw [if_neg (beq_iff_eq.not.mpr hc), hparts]
        rfl
      · simp [hc]

omit [CaseMap] in
theorem continued_iff (c : Char) (rest : List Char) :
    (∃ d ds, (String.ofList (List.replicate (utf16Length c - 1) '_') ++
      replaceNonAlnum (String.ofList rest)).toList = d :: ds ∧ d ≠ '_') ↔ Continued (c :: rest) := by
  rw [String.toList_append, String.toList_ofList]
  by_cases hlen : utf16Length c = 1
  · rw [hlen]
    cases rest with
    | nil =>
      refine iff_of_false ?_ id
      rintro ⟨d, ds, h, -⟩
      exact List.cons_ne_nil d ds h.symm
    | cons d rest =>
      by_cases hd : Alnum d
      · have hhead : replaceNonAlnum (String.ofList (d :: rest)) =
            String.ofList [d] ++ replaceNonAlnum (String.ofList rest) :=
          replaceNonAlnum_ofList_append (List.forall_mem_singleton.mpr hd) rest
        rw [hhead, String.toList_append, String.toList_ofList]
        exact iff_of_true ⟨d, _, rfl, hd.ne_underscore⟩ ⟨hlen, hd⟩
      · rw [replaceNonAlnum_ofList_cons hd, String.append_assoc, String.toList_append,
          String.toList_singleton]
        refine iff_of_false ?_ fun h => hd h.2
        rintro ⟨e, es, he, hne⟩
        exact hne (List.cons.inj he).1.symm
  · have htwo : utf16Length c - 1 = 1 := by
      unfold utf16Length at hlen ⊢
      split at hlen
      · exact absurd rfl hlen
      · rename_i h
        rw [if_neg h]
    rw [htwo]
    refine iff_of_false ?_ ?_
    · rintro ⟨d, ds, h, hne⟩
      exact hne (List.cons.inj h).1.symm
    · cases rest with
      | nil => exact id
      | cons d rest => exact fun h => hlen h.1

omit [CaseMap] in
/-- The first two parts of a name that starts with the letters and digits `word`. -/
theorem parts_iff {word rest : List Char} (hword : ∀ c ∈ word, Alnum c)
    (hrest : ∀ c ∈ rest.head?, ¬ Alnum c) :
    (∀ part ∈ (split '_' (replaceNonAlnum (String.ofList (word ++ rest)))).take 2, part ≠ "") ↔
      word ≠ [] ∧ Continued rest := by
  have hno : '_' ∉ (String.ofList word).toList := by
    rw [String.toList_ofList]
    exact fun hmem => (hword _ hmem).ne_underscore rfl
  have hempty : String.ofList word ≠ "" ↔ word ≠ [] := by
    rw [Ne, ← String.toList_eq_nil_iff, String.toList_ofList]
  rw [replaceNonAlnum_ofList_append hword]
  cases rest with
  | nil =>
    rw [show replaceNonAlnum (String.ofList []) = "" from rfl, String.append_empty,
      split_of_notMem hno, and_iff_left (show Continued [] from trivial), ← hempty]
    simp
  | cons c rest =>
    obtain ⟨part, parts, hparts, hpart⟩ := exists_split_eq
      (String.ofList (List.replicate (utf16Length c - 1) '_') ++
        replaceNonAlnum (String.ofList rest))
    have hassoc (a b x y : String) : a ++ (b ++ x ++ y) = a ++ b ++ (x ++ y) := by
      simp only [String.append_assoc]
    rw [replaceNonAlnum_ofList_cons (hrest c rfl), hassoc, split_append_cons, split_of_notMem hno, hparts, ← hempty,
      ← continued_iff c rest, ← hpart]
    simp

omit [CaseMap] in
theorem not_of_mem_head?_dropWhile {p : Char → Bool} {l : List Char} {c : Char}
    (h : c ∈ (l.dropWhile p).head?) : p c = false := by
  have hhead := List.head?_dropWhile_not p l
  rw [Option.mem_def.mp h] at hhead
  simpa using hhead

theorem parts_iff_readable (name : String) :
    (∀ part ∈ (split '_' (sanitized name)).take 2, part ≠ "") ↔ Readable name := by
  have hsplit : sanitized name = replaceNonAlnum (String.ofList
      ((toLowerCase name).toList.takeWhile (fun c => Alnum c) ++
        (toLowerCase name).toList.dropWhile fun c => Alnum c)) := by
    rw [List.takeWhile_append_dropWhile, String.ofList_toList]
    rfl
  unfold Readable
  rw [hsplit, parts_iff]
  · intro c hc
    have hkept := List.mem_takeWhile_imp hc
    exact of_decide_eq_true hkept
  · intro c hc
    exact of_decide_eq_false (not_of_mem_head?_dropWhile hc)

/-! ## Two words -/

/-- A name of two words comes back with the capitals behind their first letters made small, and of a
longer name only two words are left. -/
theorem extract_nameOf_iff (w : Word) (ws : List Word) (variation : Fin 11) :
    Audio.extractTraditionFromAudioId (generateCacheKey (nameOf (w :: ws)) variation) =
        some (nameOf (w :: ws)) ↔
      ws.length = 1 ∧ ∀ u ∈ w :: ws, u.Plain := by
  have hread := split_generateCacheKey (nameOf (w :: ws)) variation
  rw [split_sanitized_nameOf] at hread
  cases ws with
  | nil =>
    rw [extract_of_parts hread, capitalize_sanitized_text, capitalize_toString_variation]
    refine iff_of_false (fun h => ?_) (fun h => absurd h.1 (by decide))
    have hlength := congrArg String.length (Option.some.inj h)
    rw [nameOf_singleton, String.length_append, String.length_append, Word.length_decoded] at hlength
    exact absurd hlength (by rw [show " ".length = 1 from rfl]; omega)
  | cons w' ws =>
    rw [extract_of_parts hread, capitalize_sanitized_text, capitalize_sanitized_text, nameOf_cons]
    dsimp only [Option.bind_some, Option.map_some]
    rw [Option.some_inj, append_space_inj Word.length_decoded, Word.decoded_eq_iff,
      Word.decoded_eq_nameOf_iff, List.length_cons, List.forall_mem_cons, List.forall_mem_cons]
    constructor
    · rintro ⟨hw, rfl, hw'⟩
      exact ⟨rfl, hw, hw', fun u hu => absurd hu List.not_mem_nil⟩
    · rintro ⟨hlength, hw, hw', -⟩
      exact ⟨hw, List.eq_nil_of_length_eq_zero (Nat.succ.inj hlength), hw'⟩

/-- **Which names come back.** Exactly the names of two words without further capitals come back from
their ids, and exactly for the readable names nothing is thrown. -/
theorem decodes_iff (w : Word) (ws : List Word) (name : String) (variation : Fin 11) :
    (Audio.extractTraditionFromAudioId (generateCacheKey (nameOf (w :: ws)) variation) =
        some (nameOf (w :: ws)) ↔ ws.length = 1 ∧ ∀ u ∈ w :: ws, u.Plain) ∧
      (Audio.extractTraditionFromAudioId (generateCacheKey name variation) ≠ none ↔
        Readable name) := by
  refine ⟨extract_nameOf_iff w ws variation, ?_⟩
  rw [extract_ne_none_iff, parts_iff_readable]

end

/-- The ids of 'Indigenous Wisdom Inspiration' give 'Indigenous Wisdom', and the ids of the empty name
throw. -/
theorem not_decodes_indigenousWisdom :
    (¬ ∀ (w : Word) (ws : List Word) (variation : Fin 11),
      @Audio.extractTraditionFromAudioId CaseMap.ascii
          (@generateCacheKey CaseMap.ascii (nameOf (w :: ws)) variation) =
        some (nameOf (w :: ws))) ∧
    ¬ ∀ (name : String) (variation : Fin 11),
      @Audio.extractTraditionFromAudioId CaseMap.ascii
        (@generateCacheKey CaseMap.ascii name variation) ≠ none := by
  constructor
  · intro h
    have hname := h ⟨'I', ['n', 'd', 'i', 'g', 'e', 'n', 'o', 'u', 's'], by decide, by simp⟩
      [⟨'W', ['i', 's', 'd', 'o', 'm'], by decide, by simp⟩,
        ⟨'I', ['n', 's', 'p', 'i', 'r', 'a', 't', 'i', 'o', 'n'], by decide, by simp⟩]
      ⟨0, by decide⟩
    revert hname
    decide +kernel
  · intro h
    exact h "" ⟨0, by decide⟩ (by decide +kernel)

end AIAudio

end MotiAI
