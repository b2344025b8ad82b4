import Mathlib.Data.List.Basic

/-!
# Base64

`base64Encode` and `base64Decode` of `dart:convert`. Decoding accepts both alphabets and a padding
character written `=` or `%3D`, and throws at anything else, bits left over before the padding
included.
-/

namespace Dart

namespace Base64

/-- The value of a digit of the standard or the URL alphabet. -/
def digitValue (c : Char) : Option ℕ :=
  if 'A' ≤ c ∧ c ≤ 'Z' then some (c.toNat - 65)
  else if 'a' ≤ c ∧ c ≤ 'z' then some (c.toNat - 71)
  else if '0' ≤ c ∧ c ≤ '9' then some (c.toNat + 4)
  else if c = '+' ∨ c = '-' then some 62
  else if c = '/' ∨ c = '_' then some 63
  else none

/-- The digit of the standard alphabet with a value below 64. -/
def digit (n : ℕ) : Char :=
  if n < 26 then Char.ofNat (n + 65)
  else if n < 52 then Char.ofNat (n + 71)
  else if n < 62 then Char.ofNat (n - 4)
  else if n = 62 then '+'
  else '/'

/-- Whether a text consists of `n` padding characters. -/
def isPadding : ℕ → List Char → Bool
  | 0, cs => cs.isEmpty
  | n + 1, '=' :: cs => isPadding n cs
  | n + 1, '%' :: '3' :: d :: cs => (d == 'D' || d == 'd') && isPadding n cs
  | _, _ => false

/-- The three bytes of four digit values. -/
def octets (x y z w : ℕ) : List UInt8 :=
  [UInt8.ofNat (x * 4 + y / 16), UInt8.ofNat (y % 16 * 16 + z / 4), UInt8.ofNat (z % 4 * 64 + w)]

def decodeChars : List Char → Option (List UInt8)
  | [] => some []
  | a :: b :: c :: d :: rest =>
    match digitValue a, digitValue b, digitValue c, digitValue d with
    | some x, some y, some z, some w => (decodeChars rest).map (octets x y z w ++ ·)
    | some x, some y, some z, none =>
      if z % 4 = 0 ∧ isPadding 1 (d :: rest) then some ((octets x y z 0).take 2) else none
    | some x, some y, none, _ =>
      if y % 16 = 0 ∧ isPadding 2 (c :: d :: rest) then some ((octets x y 0 0).take 1) else none
    | _, _, _, _ => none
  | _ => none

def encodeBytes : List UInt8 → List Char
  | [] => []
  | [a] => [digit (a.toNat / 4), digit (a.toNat % 4 * 16), '=', '=']
  | [a, b] =>
    [digit (a.toNat / 4), digit (a.toNat % 4 * 16 + b.toNat / 16), digit (b.toNat % 16 * 4), '=']
  | a :: b :: c :: rest =>
    [digit (a.toNat / 4), digit (a.toNat % 4 * 16 + b.toNat / 16),
      digit (b.toNat % 16 * 4 + c.toNat / 64), digit (c.toNat % 64)] ++ encodeBytes rest

/-- A character of an encoded text. -/
def isBase64 (c : Char) : Bool := (digitValue c).isSome || c == '='

theorem digitValue_digit {n : ℕ} (h : n < 64) : digitValue (digit n) = some n := by
  have hall : ∀ m : Fin 64, digitValue (digit m) = some m.val := by decide
  exact hall ⟨n, h⟩

theorem isBase64_digit (n : ℕ) : isBase64 (digit n) = true := by
  by_cases h : n < 64
  · unfold isBase64
    rw [digitValue_digit h]
    rfl
  · unfold digit
    rw [if_neg (by omega), if_neg (by omega), if_neg (by omega), if_neg (by omega)]
    decide

theorem isBase64_encodeBytes (bytes : List UInt8) : ∀ c ∈ encodeBytes bytes, isBase64 c = true := by
  have hpad : isBase64 '=' = true := by decide
  fun_induction encodeBytes bytes with
  | case1 => exact fun c hc => absurd hc List.not_mem_nil
  | case2 a => simp [isBase64_digit, hpad]
  | case3 a b => simp [isBase64_digit, hpad]
  | case4 a b c rest ih => simpa [isBase64_digit] using ih

/-- Three bytes from the values of their four digits. -/
theorem octets_digits (a b c : UInt8) :
    octets (a.toNat / 4) (a.toNat % 4 * 16 + b.toNat / 16) (b.toNat % 16 * 4 + c.toNat / 64)
      (c.toNat % 64) = [a, b, c] := by
  have ha := a.toNat_lt
  have hb := b.toNat_lt
  have hc := c.toNat_lt
  have h₁ : a.toNat / 4 * 4 + (a.toNat % 4 * 16 + b.toNat / 16) / 16 = a.toNat := by omega
  have h₂ : (a.toNat % 4 * 16 + b.toNat / 16) % 16 * 16 +
      (b.toNat % 16 * 4 + c.toNat / 64) / 4 = b.toNat := by omega
  have h₃ : (b.toNat % 16 * 4 + c.toNat / 64) % 4 * 64 + c.toNat % 64 = c.toNat := by omega
  unfold octets
  rw [h₁, h₂, h₃, UInt8.ofNat_toNat, UInt8.ofNat_toNat, UInt8.ofNat_toNat]

/-- **Decoding what was encoded.** -/
theorem decodeChars_encodeBytes (bytes : List UInt8) :
    decodeChars (encodeBytes bytes) = some bytes := by
  have hpad : digitValue '=' = none := by decide
  fun_induction encodeBytes bytes with
  | case1 => rfl
  | case2 a =>
    have ha := a.toNat_lt
    have hzero : a.toNat % 4 * 16 % 16 = 0 := by omega
    have hoctets := octets_digits a 0 0
    simp only [UInt8.toNat_zero, Nat.zero_div, Nat.zero_mod, Nat.zero_mul, Nat.add_zero] at hoctets
    unfold decodeChars
    rw [digitValue_digit (by omega), digitValue_digit (by omega), hpad]
    simp only [hzero, hoctets, isPadding, List.isEmpty_nil, and_self, if_true]
    rfl
  | case3 a b =>
    have ha := a.toNat_lt
    have hb := b.toNat_lt
    have hzero : b.toNat % 16 * 4 % 4 = 0 := by omega
    have hoctets := octets_digits a b 0
    simp only [UInt8.toNat_zero, Nat.zero_div, Nat.zero_mod, Nat.add_zero] at hoctets
    unfold decodeChars
    rw [digitValue_digit (by omega), digitValue_digit (by omega), digitValue_digit (by omega), hpad]
    simp only [hzero, hoctets, isPadding, List.isEmpty_nil, and_self, if_true]
    rfl
  | case4 a b c rest ih =>
    have ha := a.toNat_lt
    have hb := b.toNat_lt
    have hc := c.toNat_lt
    show decodeChars (_ :: _ :: _ :: _ :: encodeBytes rest) = _
    rw [decodeChars, digitValue_digit (by omega), digitValue_digit (by omega),
      digitValue_digit (by omega), digitValue_digit (by omega)]
    simp only [ih, Option.map_some, octets_digits]
    rfl

end Base64

def base64Decode (s : String) : Option (List UInt8) := Base64.decodeChars s.toList

def base64Encode (bytes : List UInt8) : String := String.ofList (Base64.encodeBytes bytes)

theorem base64Decode_base64Encode (bytes : List UInt8) :
    base64Decode (base64Encode bytes) = some bytes := by
  unfold base64Decode base64Encode
  rw [String.toList_ofList, Base64.decodeChars_encodeBytes]

theorem notMem_base64Encode {c : Char} (hc : Base64.isBase64 c = false) (bytes : List UInt8) :
    c ∉ (base64Encode bytes).toList := by
  unfold base64Encode
  rw [String.toList_ofList]
  intro h
  rw [Base64.isBase64_encodeBytes bytes c h] at hc
  cases hc

end Dart
