import MotiAI.Dart.Json

/-!
# `jsonDecode` inverts `jsonEncode`

`jsonDecode_print`: a plain value whose maps have distinct keys is read back from its text. The
proof follows the recursion of `print`; each reader is shown to take exactly what was printed and
to leave the rest (`scanNumeral_append`, `scanString_printChar`, `parseValue_print`).
-/

namespace Dart

/-! ## Numerals -/

/-- Characters a number may go on with. -/
def isNumeralChar (c : Char) : Bool :=
  c.isDigit || c == '.' || c == 'e' || c == 'E' || c == '-' || c == '+'

/-- What follows a number does not continue it. -/
def Stops (r : List Char) : Prop := ∀ c t, r = c :: t → isNumeralChar c = false

theorem stops_nil : Stops [] := by
  intro c t h
  cases h

theorem stops_cons {c : Char} {t : List Char} (h : isNumeralChar c = false) : Stops (c :: t) := by
  rintro c' t' h'
  cases h'
  exact h

section Scan

variable {rest : List Char}

theorem Stops.isDigit (h : Stops rest) {c : Char} {t : List Char} (hr : rest = c :: t) :
    c.isDigit = false := by
  have := h c t hr
  simp only [isNumeralChar, Bool.or_eq_false_iff] at this
  exact this.1.1.1.1.1

theorem Stops.ne (h : Stops rest) {c d : Char} {t : List Char} (hr : rest = c :: t)
    (hd : isNumeralChar d = true) : c ≠ d := by
  rintro rfl
  rw [h c t hr] at hd
  cases hd

theorem scanDigits_append (h : Stops rest) (cs : List Char) :
    scanDigits (cs ++ rest) = ((scanDigits cs).1, (scanDigits cs).2 ++ rest) := by
  unfold scanDigits
  induction cs with
  | nil =>
    cases hr : rest with
    | nil => rfl
    | cons c t => simp [h.isDigit hr]
  | cons c cs ih =>
    by_cases hc : c.isDigit = true
    · simp only [List.cons_append, List.takeWhile_cons_of_pos hc, List.dropWhile_cons_of_pos hc,
        Prod.mk.injEq] at ih ⊢
      exact ⟨by rw [ih.1], ih.2⟩
    · simp [hc]

theorem scanMinus_append (h : Stops rest) (cs : List Char) :
    scanMinus (cs ++ rest) = ((scanMinus cs).1, (scanMinus cs).2 ++ rest) := by
  cases cs with
  | nil =>
    cases hr : rest with
    | nil => rfl
    | cons c t =>
      have hc : c ≠ '-' := h.ne hr (by decide)
      simp [scanMinus, hc]
  | cons c cs =>
    by_cases hc : c = '-'
    · subst hc
      simp [scanMinus]
    · simp [scanMinus, hc]

theorem scanSign_append (h : Stops rest) (cs : List Char) :
    scanSign (cs ++ rest) = ((scanSign cs).1, (scanSign cs).2 ++ rest) := by
  cases cs with
  | nil =>
    cases hr : rest with
    | nil => rfl
    | cons c t =>
      have hp : c ≠ '+' := h.ne hr (by decide)
      have hm : c ≠ '-' := h.ne hr (by decide)
      simp [scanSign, hp, hm]
  | cons c cs =>
    by_cases hp : c = '+'
    · subst hp
      simp [scanSign]
    · by_cases hm : c = '-'
      · subst hm
        simp [scanSign]
      · simp [scanSign, hp, hm]

theorem scanInt_cons_of_ne {c : Char} (hc : c ≠ '0') (cs : List Char) :
    scanInt (c :: cs) =
      if (scanDigits (c :: cs)).1 = [] then none else some (scanDigits (c :: cs)) := by
  simp [scanInt, hc]

theorem scanFrac_cons_of_ne {c : Char} (hc : c ≠ '.') (cs : List Char) :
    scanFrac (c :: cs) = some ([], c :: cs) := by
  simp [scanFrac, hc]

theorem scanInt_append (h : Stops rest) {cs l r : List Char} (hs : scanInt cs = some (l, r)) :
    scanInt (cs ++ rest) = some (l, r ++ rest) := by
  cases cs with
  | nil => simp [scanInt, scanDigits] at hs
  | cons c cs =>
    by_cases hc : c = '0'
    · subst hc
      simp only [scanInt, Option.some.injEq, Prod.mk.injEq] at hs
      obtain ⟨rfl, rfl⟩ := hs
      simp [scanInt]
    · have hd := scanDigits_append h (c :: cs)
      rw [List.cons_append] at hd ⊢
      rw [scanInt_cons_of_ne hc] at hs ⊢
      rw [hd]
      split at hs
      · cases hs
      · rename_i hne
        rw [if_neg hne, Option.some.inj hs]

theorem scanFrac_append (h : Stops rest) {cs l r : List Char} (hs : scanFrac cs = some (l, r)) :
    scanFrac (cs ++ rest) = some (l, r ++ rest) := by
  cases cs with
  | nil =>
    simp only [scanFrac, Option.some.injEq, Prod.mk.injEq] at hs
    obtain ⟨rfl, rfl⟩ := hs
    cases hr : rest with
    | nil => rfl
    | cons c t =>
      have hc : c ≠ '.' := h.ne hr (by decide)
      simp [scanFrac, hc]
  | cons c cs =>
    by_cases hc : c = '.'
    · subst hc
      simp only [scanFrac, List.cons_append] at hs ⊢
      rw [scanDigits_append h cs]
      split at hs
      · cases hs
      · rename_i hne
        simp only [Option.some.injEq, Prod.mk.injEq] at hs
        obtain ⟨rfl, rfl⟩ := hs
        rw [if_neg hne]
    · rw [scanFrac_cons_of_ne hc, Option.some.injEq, Prod.mk.injEq] at hs
      obtain ⟨rfl, rfl⟩ := hs
      rw [List.cons_append, scanFrac_cons_of_ne hc]

theorem scanExp_append (h : Stops rest) {cs l r : List Char} (hs : scanExp cs = some (l, r)) :
    scanExp (cs ++ rest) = some (l, r ++ rest) := by
  cases cs with
  | nil =>
    simp only [scanExp, Option.some.injEq, Prod.mk.injEq] at hs
    obtain ⟨rfl, rfl⟩ := hs
    cases hr : rest with
    | nil => rfl
    | cons c t =>
      have he : ¬(c = 'e' ∨ c = 'E') := by
        rintro (rfl | rfl)
        · exact h.ne hr (by decide) rfl
        · exact h.ne hr (by decide) rfl
      simp [scanExp, he]
  | cons c cs =>
    simp only [scanExp, List.cons_append] at hs ⊢
    rw [scanSign_append h cs, scanDigits_append h (scanSign cs).2]
    split at hs
    · rename_i hc
      rw [if_pos hc]
      split at hs
      · cases hs
      · rename_i hne
        simp only [Option.some.injEq, Prod.mk.injEq] at hs
        obtain ⟨rfl, rfl⟩ := hs
        rw [if_neg hne]
    · rename_i hc
      simp only [Option.some.injEq, Prod.mk.injEq] at hs
      obtain ⟨rfl, rfl⟩ := hs
      rw [if_neg hc]
      simp

theorem scanNumeral_eq_some {cs l r : List Char} (h : scanNumeral cs = some (l, r)) :
    ∃ i r₁ f r₂ e, scanInt (scanMinus cs).2 = some (i, r₁) ∧ scanFrac r₁ = some (f, r₂) ∧
      scanExp r₂ = some (e, r) ∧ l = (scanMinus cs).1 ++ i ++ f ++ e := by
  simp only [scanNumeral, Option.bind_eq_bind, Option.pure_def] at h
  obtain ⟨⟨i, r₁⟩, hi, h⟩ := Option.bind_eq_some_iff.mp h
  obtain ⟨⟨f, r₂⟩, hf, h⟩ := Option.bind_eq_some_iff.mp h
  obtain ⟨⟨e, r₃⟩, he, h⟩ := Option.bind_eq_some_iff.mp h
  simp only [Option.some.injEq, Prod.mk.injEq] at h
  obtain ⟨rfl, rfl⟩ := h
  exact ⟨i, r₁, f, r₂, e, hi, hf, he, rfl⟩

theorem scanNumeral_append (h : Stops rest) {cs l r : List Char}
    (hs : scanNumeral cs = some (l, r)) : scanNumeral (cs ++ rest) = some (l, r ++ rest) := by
  obtain ⟨i, r₁, f, r₂, e, hi, hf, he, rfl⟩ := scanNumeral_eq_some hs
  simp only [scanNumeral, scanMinus_append h, scanInt_append h hi, scanFrac_append h hf,
    scanExp_append h he, Option.bind_eq_bind, Option.bind_some, Option.pure_def]

end Scan

theorem parseNumeral_append (n : Numeral) {rest : List Char} (h : Stops rest) :
    parseNumeral (n.chars ++ rest) = some (n, rest) := by
  have hs := scanNumeral_append h n.ok
  rw [List.nil_append] at hs
  simp [parseNumeral, hs, n.ok]

/-- A number starts with a minus sign or a digit. -/
theorem Numeral.head (n : Numeral) : ∃ c t, n.chars = c :: t ∧ (c = '-' ∨ c.isDigit = true) := by
  obtain ⟨i, r₁, -, -, -, hi, -⟩ := scanNumeral_eq_some n.ok
  cases hn : n.chars with
  | nil => simp [hn, scanMinus, scanInt, scanDigits] at hi
  | cons c t =>
    refine ⟨c, t, rfl, ?_⟩
    by_cases hm : c = '-'
    · exact Or.inl hm
    · right
      by_contra hd
      have hz : c ≠ '0' := by
        rintro rfl
        exact hd (by decide)
      simp [hn, scanMinus, hm, scanInt, hz, scanDigits, hd] at hi

/-! ## Strings -/

theorem hexValue_hexDigit : ∀ n < 16, hexValue (hexDigit n) = some n := by decide

theorem hex4_control {n : ℕ} (h : n < 32) :
    hex4 '0' '0' (hexDigit (n / 16)) (hexDigit (n % 16)) = some n := by
  have h0 : hexValue '0' = some 0 := by decide
  simp only [hex4, h0, hexValue_hexDigit (n / 16) (by omega), hexValue_hexDigit (n % 16) (by omega),
    Option.bind_eq_bind, Option.bind_some, Option.pure_def, Option.some.injEq]
  omega

/-- One printed character is read back. -/
theorem scanString_printChar (c : Char) (f : ℕ) (rest : List Char) :
    scanString (f + 1) (printChar c ++ rest) =
      (scanString f rest).map fun p => (c :: p.1, p.2) := by
  have hof : ∀ n, c.toNat = n → c = Char.ofNat n := by
    rintro n rfl
    exact (Char.ofNat_toNat c).symm
  unfold printChar
  split_ifs with h1 h2 h3 h4 h5 h6 h7 h8
  · subst h1; simp [scanString, unescape]
  · subst h2; simp [scanString, unescape]
  · rw [hof _ h3]; simp [scanString, unescape]
  · rw [hof _ h4]; simp [scanString, unescape]
  · rw [hof _ h5]; simp [scanString, unescape]
  · rw [hof _ h6]; simp [scanString, unescape]
  · rw [hof _ h7]; simp [scanString, unescape]
  · have h4 := hex4_control h8
    have hlo : ¬(0xD800 ≤ c.toNat ∧ c.toNat < 0xDC00) := by omega
    have hhi : ¬(0xDC00 ≤ c.toNat ∧ c.toNat < 0xE000) := by omega
    simp [scanString, h4, hlo, hhi, Char.ofNat_toNat]
  · simp [scanString, h1, h2, h8]

theorem printChar_ne_nil (c : Char) : printChar c ≠ [] := by
  unfold printChar
  split_ifs <;> simp

theorem scanString_flatMap (cs rest : List Char) :
    ∀ f, (cs.flatMap printChar).length < f →
      scanString f (cs.flatMap printChar ++ '"' :: rest) = some (cs, rest) := by
  induction cs with
  | nil =>
    intro f hf
    obtain ⟨f, rfl⟩ := Nat.exists_eq_add_one_of_ne_zero (by omega : f ≠ 0)
    simp [scanString]
  | cons c cs ih =>
    intro f hf
    obtain ⟨f, rfl⟩ := Nat.exists_eq_add_one_of_ne_zero (by omega : f ≠ 0)
    have hpos := List.length_pos_iff.mpr (printChar_ne_nil c)
    rw [List.flatMap_cons, List.length_append] at hf
    rw [List.flatMap_cons, List.append_assoc, scanString_printChar, ih f (by omega)]
    rfl

/-- The literal of a string, after its opening quote, is read back. -/
theorem parseString_print (s : String) (rest : List Char) :
    parseString (s.toList.flatMap printChar ++ '"' :: rest) = some (s, rest) := by
  unfold parseString
  rw [scanString_flatMap _ _ _ (by simp only [List.length_append]; omega)]
  simp

/-! ## Values -/

theorem setEntry_of_notMem {V : Type} {k : String} {v : V} {es : List (String × V)}
    (h : k ∉ es.map Prod.fst) : setEntry k v es = es ++ [(k, v)] := by
  induction es with
  | nil => rfl
  | cons e es ih =>
    simp only [List.map_cons, List.mem_cons, not_or] at h
    rw [setEntry, if_neg (Ne.symm h.1), ih h.2, List.cons_append]

/-- Assigning distinct keys in turn keeps the entries as they are. -/
theorem ofEntries_of_nodup {V : Type} {es : List (String × V)} (h : (es.map Prod.fst).Nodup) :
    ofEntries es = es := by
  have key : ∀ (es m : List (String × V)), ((m ++ es).map Prod.fst).Nodup →
      es.foldl (fun m e => setEntry e.1 e.2 m) m = m ++ es := by
    intro es
    induction es with
    | nil => intro m _; simp
    | cons e es ih =>
      intro m hm
      have hm' := hm
      rw [List.map_append, List.nodup_append] at hm'
      have he : e.1 ∉ m.map Prod.fst := fun hk =>
        hm'.2.2 e.1 hk e.1 (by simp) rfl
      rw [List.foldl_cons, setEntry_of_notMem he, ih _ (by simpa using hm)]
      simp
  exact key es [] h

theorem skipWs_cons {c : Char} (hc : ¬(c = ' ' ∨ c = '\t' ∨ c = '\n' ∨ c = '\r'))
    (cs : List Char) : skipWs (c :: cs) = c :: cs := by
  unfold skipWs
  rw [List.dropWhile_cons_of_neg (by simpa using hc)]

/-- A character that is neither white space nor a closing bracket. -/
def Opens (c : Char) : Prop := ¬(c = ' ' ∨ c = '\t' ∨ c = '\n' ∨ c = '\r') ∧ c ≠ ']'

theorem opens_of_isDigit {c : Char} (h : c.isDigit = true) : Opens c := by
  refine ⟨?_, ?_⟩
  · rintro (rfl | rfl | rfl | rfl) <;> revert h <;> decide
  · rintro rfl
    revert h
    decide

theorem isDigit_ne {c : Char} (h : c.isDigit = true) :
    c ≠ 'n' ∧ c ≠ 't' ∧ c ≠ 'f' ∧ c ≠ '"' ∧ c ≠ '[' ∧ c ≠ '\x7b' := by
  refine ⟨?_, ?_, ?_, ?_, ?_, ?_⟩ <;> rintro rfl <;> revert h <;> decide

theorem opens_numeral {c : Char} (h : c = '-' ∨ c.isDigit = true) : Opens c := by
  rcases h with rfl | h
  · unfold Opens
    decide
  · exact opens_of_isDigit h

/-- A printed value starts with a character that opens a value. -/
theorem print_head (v : Plain) : ∃ c t, print v = c :: t ∧ Opens c := by
  have lit : ∀ (c : Char) (t : List Char), Opens c → ∃ c' t', c :: t = c' :: t' ∧ Opens c' :=
    fun c t h => ⟨c, t, rfl, h⟩
  match v with
  | .null => exact lit _ _ (by unfold Opens; decide)
  | .bool true => exact lit _ _ (by unfold Opens; decide)
  | .bool false => exact lit _ _ (by unfold Opens; decide)
  | .num n =>
    obtain ⟨c, t, hn, hc⟩ := n.head
    exact ⟨c, t, by rw [print, hn], opens_numeral hc⟩
  | .str s => exact lit _ _ (by unfold Opens; decide)
  | .list [] => exact lit _ _ (by unfold Opens; decide)
  | .list (v :: vs) => exact lit _ _ (by unfold Opens; decide)
  | .map [] => exact lit _ _ (by unfold Opens; decide)
  | .map (e :: es) => exact lit _ _ (by unfold Opens; decide)

theorem skipWs_print (v : Plain) (r : List Char) : skipWs (print v ++ r) = print v ++ r := by
  obtain ⟨c, t, hv, hc⟩ := print_head v
  rw [hv, List.cons_append, skipWs_cons hc.1]

mutual

/-- The number of nested calls that reading a printed value takes. -/
def cost : Plain → ℕ
  | .list (v :: vs) => 1 + cost v + costElems vs
  | .map ((_, v) :: es) => 2 + cost v + costEntries es
  | _ => 1

def costElems : List Plain → ℕ
  | [] => 1
  | v :: vs => 1 + cost v + costElems vs

def costEntries : List (String × Plain) → ℕ
  | [] => 1
  | (_, v) :: es => 2 + cost v + costEntries es

end

theorem length_printString (s : String) : 2 ≤ (printString s).length := by
  simp [printString]

theorem length_print_pos (v : Plain) : 1 ≤ (print v).length := by
  obtain ⟨c, t, hv, -⟩ := print_head v
  rw [hv, List.length_cons]
  omega

mutual

theorem cost_le : ∀ v : Plain, cost v ≤ (print v).length
  | .null => by simp [cost, print]
  | .bool true => by simp [cost, print]
  | .bool false => by simp [cost, print]
  | .num n => by
    have := length_print_pos (.num n)
    simpa only [cost] using this
  | .str s => by
    have := length_printString s
    simp only [cost, print]
    omega
  | .list [] => by simp [cost, print]
  | .list (v :: vs) => by
    have h1 := cost_le v
    have h2 := costElems_le vs
    simp only [cost, print, List.length_cons, List.length_append]
    omega
  | .map [] => by simp [cost, print]
  | .map ((k, v) :: es) => by
    have h1 := cost_le v
    have h2 := costEntries_le es
    simp only [cost, print, List.length_cons, List.length_append]
    omega

theorem costElems_le : ∀ vs : List Plain, costElems vs ≤ (printElems vs).length
  | [] => by simp [costElems, printElems]
  | v :: vs => by
    have h1 := cost_le v
    have h2 := costElems_le vs
    simp only [costElems, printElems, List.length_cons, List.length_append]
    omega

theorem costEntries_le : ∀ es : List (String × Plain), costEntries es ≤ (printEntries es).length
  | [] => by simp [costEntries, printEntries]
  | (k, v) :: es => by
    have h1 := cost_le v
    have h2 := costEntries_le es
    simp only [costEntries, printEntries, List.length_cons, List.length_append]
    omega

end

theorem stops_printElems (vs : List Plain) (r : List Char) : Stops (printElems vs ++ r) := by
  cases vs <;> exact stops_cons (by decide)

theorem stops_printEntries (es : List (String × Plain)) (r : List Char) :
    Stops (printEntries es ++ r) := by
  match es with
  | [] => exact stops_cons (by decide)
  | (k, v) :: es => exact stops_cons (by decide)

/-- One printed entry is read back, given that its value is. -/
theorem parseEntry_print (k : String) {v : Plain} {f : ℕ} {r : List Char}
    (h : parseValue f (print v ++ r) = some (v, r)) :
    parseEntry (f + 1) (printString k ++ ':' :: (print v ++ r)) = some ((k, v), r) := by
  have hq : ∀ t, skipWs ('"' :: t) = '"' :: t := skipWs_cons (by decide)
  have hc : ∀ t, skipWs (':' :: t) = ':' :: t := skipWs_cons (by decide)
  simp only [parseEntry, printString, List.cons_append, List.append_assoc, hq,
    parseString_print, List.nil_append, hc, h, Option.map_some]

mutual

/-- **Reading a printed value.** -/
theorem parseValue_print : ∀ (v : Plain) (f : ℕ) (r : List Char), Plain.Wf v → cost v ≤ f →
    Stops r → parseValue f (print v ++ r) = some (v, r)
  | v, 0, _, _, hf, _ => by
    match v with
    | .null | .bool _ | .num _ | .str _ | .list [] | .map [] => simp [cost] at hf
    | .list (_ :: _) | .map ((_, _) :: _) => simp [cost] at hf
  | .null, f + 1, r, _, _, _ => by
    rw [parseValue, skipWs_print]
    rfl
  | .bool true, f + 1, r, _, _, _ => by
    rw [parseValue, skipWs_print]
    rfl
  | .bool false, f + 1, r, _, _, _ => by
    rw [parseValue, skipWs_print]
    rfl
  | .num n, f + 1, r, _, _, hr => by
    have hn := parseNumeral_append n hr
    obtain ⟨c, t, hct, hc⟩ := n.head
    have hne : c ≠ 'n' ∧ c ≠ 't' ∧ c ≠ 'f' ∧ c ≠ '"' ∧ c ≠ '[' ∧ c ≠ '\x7b' := by
      rcases hc with rfl | hc
      · decide
      · exact isDigit_ne hc
    rw [parseValue, skipWs_print, print]
    rw [hct, List.cons_append] at hn ⊢
    simp [hne, hn]
  | .str s, f + 1, r, _, _, _ => by
    rw [parseValue, skipWs_print]
    simp only [print, printString, List.cons_append, List.append_assoc]
    rw [parseString_print]
    simp
  | .list [], f + 1, r, _, _, _ => by
    rw [parseValue, skipWs_print]
    simp [print, skipWs_cons]
  | .list (v :: vs), f + 1, r, hw, hf, _ => by
    simp only [cost] at hf
    simp only [Plain.Wf, Plain.WfElems] at hw
    have hv := parseValue_print v f (printElems vs ++ r) hw.1 (by omega) (stops_printElems vs r)
    have hvs := parseElems_print vs f r hw.2 (by omega)
    obtain ⟨c, t, hct, hc⟩ := print_head v
    rw [parseValue, skipWs_print]
    simp only [print, List.cons_append, List.append_assoc]
    rw [skipWs_print]
    rw [hct, List.cons_append] at hv ⊢
    simp [hc.2, hv, hvs]
  | .map [], f + 1, r, _, _, _ => by
    rw [parseValue, skipWs_print]
    simp [print, skipWs_cons]
  | .map ((k, v) :: es), f + 1, r, hw, hf, _ => by
    simp only [cost] at hf
    simp only [Plain.Wf, Plain.WfEntries] at hw
    obtain ⟨f, rfl⟩ : ∃ g, f = g + 1 := ⟨f - 1, by omega⟩
    have hv := parseValue_print v f (printEntries es ++ r) hw.2.1 (by omega)
      (stops_printEntries es r)
    have hes := parseEntries_print es (f + 1) r hw.2.2 (by omega)
    have he := parseEntry_print k hv
    rw [parseValue, skipWs_print]
    simp only [print, List.cons_append, List.append_assoc]
    have hq : ∀ t, skipWs (printString k ++ t) =
        '"' :: (k.toList.flatMap printChar ++ '"' :: t) := by
      intro t
      simp [printString, skipWs_cons]
    have hp : ∀ t, printString k ++ t = '"' :: (k.toList.flatMap printChar ++ '"' :: t) := by
      intro t
      simp [printString]
    rw [hq]
    rw [hp] at he
    simp [he, hes, ofEntries_of_nodup hw.1]

theorem parseElems_print : ∀ (vs : List Plain) (f : ℕ) (r : List Char), Plain.WfElems vs →
    costElems vs ≤ f → parseElems f (printElems vs ++ r) = some (vs, r)
  | vs, 0, _, _, hf => by
    cases vs <;> simp [costElems] at hf
  | [], f + 1, r, _, _ => by
    simp [printElems, parseElems, skipWs_cons]
  | v :: vs, f + 1, r, hw, hf => by
    simp only [costElems] at hf
    simp only [Plain.WfElems] at hw
    have hv := parseValue_print v f (printElems vs ++ r) hw.1 (by omega) (stops_printElems vs r)
    have hvs := parseElems_print vs f r hw.2 (by omega)
    simp [printElems, parseElems, skipWs_cons, hv, hvs]

theorem parseEntries_print : ∀ (es : List (String × Plain)) (f : ℕ) (r : List Char),
    Plain.WfEntries es → costEntries es ≤ f →
      parseEntries f (printEntries es ++ r) = some (es, r)
  | es, 0, _, _, hf => by
    match es with
    | [] | (_, _) :: _ => simp [costEntries] at hf
  | [], f + 1, r, _, _ => by
    simp [printEntries, parseEntries, skipWs_cons]
  | (k, v) :: es, f + 1, r, hw, hf => by
    simp only [costEntries] at hf
    simp only [Plain.WfEntries] at hw
    obtain ⟨f, rfl⟩ : ∃ g, f = g + 1 := ⟨f - 1, by omega⟩
    have hv := parseValue_print v f (printEntries es ++ r) hw.1 (by omega)
      (stops_printEntries es r)
    have hes := parseEntries_print es (f + 1) r hw.2 (by omega)
    have he := parseEntry_print k hv
    rw [parseEntries, printEntries]
    simp only [List.cons_append, List.append_assoc]
    rw [skipWs_cons (by decide)]
    simp [he, hes]

end

/-- **`jsonDecode` inverts printing.** -/
theorem jsonDecode_print {v : Plain} (h : v.Wf) :
    jsonDecode (String.ofList (print v)) = some v := by
  have hp := parseValue_print v (2 * (print v).length + 2) [] h
    (by have := cost_le v; omega) stops_nil
  rw [List.append_nil] at hp
  unfold jsonDecode
  rw [String.toList_ofList, hp]
  rfl

namespace Json

variable {ω : Type}

mutual

/-- A plain value has no object to replace. -/
theorem toPlain_ofPlain (toJson : ω → Option Plain) :
    ∀ v : Plain, toPlain toJson (ofPlain v) = some v
  | .null => rfl
  | .bool _ => rfl
  | .num _ => rfl
  | .str _ => rfl
  | .list l => by rw [ofPlain, toPlain, toPlain_ofPlainElems toJson l]; rfl
  | .map m => by rw [ofPlain, toPlain, toPlain_ofPlainEntries toJson m]; rfl

theorem toPlain_ofPlainElems (toJson : ω → Option Plain) :
    ∀ l : List Plain, toPlainElems toJson (ofPlainElems l) = some l
  | [] => rfl
  | v :: vs => by
    rw [ofPlainElems, toPlainElems, toPlain_ofPlain toJson v, toPlain_ofPlainElems toJson vs]
    rfl

theorem toPlain_ofPlainEntries (toJson : ω → Option Plain) :
    ∀ m : List (String × Plain), toPlainEntries toJson (ofPlainEntries m) = some m
  | [] => rfl
  | (k, v) :: es => by
    rw [ofPlainEntries, toPlainEntries, toPlain_ofPlain toJson v,
      toPlain_ofPlainEntries toJson es]
    rfl

end

theorem ofPlainEntries_eq_map :
    ∀ m : List (String × Plain),
      (ofPlainEntries m : List (String × Json ω)) = m.map fun e => (e.1, ofPlain e.2)
  | [] => rfl
  | (k, v) :: es => by rw [ofPlainEntries, ofPlainEntries_eq_map es, List.map_cons]

theorem keys_ofPlainEntries (m : List (String × Plain)) :
    (ofPlainEntries m : List (String × Json ω)).map Prod.fst = m.map Prod.fst := by
  rw [ofPlainEntries_eq_map, List.map_map]
  rfl

theorem entries?_ofPlain {v : Plain} {es : List (String × Json ω)}
    (h : (ofPlain v).entries? = some es) : ∃ m, es = ofPlainEntries m := by
  cases v with
  | map m => exact ⟨m, (Option.some.inj h).symm⟩
  | object o => nomatch o
  | _ => cases h

theorem lookup_ofPlainEntries {key : String} {v : Json ω} {m : List (String × Plain)}
    (h : lookup key (ofPlainEntries m) = some v) : ∃ p, v = ofPlain p := by
  obtain ⟨e, he, rfl⟩ := Option.map_eq_some_iff.mp h
  have hmem := List.mem_of_find?_eq_some he
  rw [ofPlainEntries_eq_map] at hmem
  obtain ⟨e', -, rfl⟩ := List.mem_map.mp hmem
  exact ⟨e'.2, rfl⟩

theorem object_notMem_ofPlainEntries (k : String) (o : ω) (m : List (String × Plain)) :
    (k, Json.object o) ∉ ofPlainEntries m := by
  rw [ofPlainEntries_eq_map]
  intro h
  obtain ⟨⟨k', v⟩, -, heq⟩ := List.mem_map.mp h
  cases v with
  | object o' => nomatch o'
  | _ => simp [ofPlain] at heq

end Json

namespace Plain

theorem wfEntries_map {V : Type} {f : V → Plain} (h : ∀ v, (f v).Wf) :
    ∀ {es : List (String × V)}, WfEntries (es.map fun e => (e.1, f e.2))
  | [] => trivial
  | e :: _ => ⟨h e.2, wfEntries_map h⟩

end Plain

end Dart
