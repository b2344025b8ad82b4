import Mathlib.Data.List.Basic

/-!
# Codecs

A codec writes a value as symbols of an alphabet and reads it back from the head of whatever follows.
`Fits` are the values it is meant for. One symbol, a pair, and values one after the other are read
back as they were written.
-/

variable {α β γ : Type}

/-- Writing values of `α` as symbols of `γ`, and reading them. -/
structure Codec (α γ : Type) where
  encode : α → List γ
  decode : List γ → Option (α × List γ)
  Fits : α → Prop
  decode_encode : ∀ a rest, Fits a → decode (encode a ++ rest) = some (a, rest)

namespace Codec

/-- The next symbol. -/
def symbol (γ : Type) : Codec γ γ where
  encode c := [c]
  decode
    | [] => none
    | c :: rest => some (c, rest)
  Fits _ := True
  decode_encode _ _ _ := rfl

/-- One value and then another. -/
def pair (c : Codec α γ) (d : Codec β γ) : Codec (α × β) γ where
  encode p := c.encode p.1 ++ d.encode p.2
  decode word := do
    let (a, word) ← c.decode word
    let (b, word) ← d.decode word
    return ((a, b), word)
  Fits p := c.Fits p.1 ∧ d.Fits p.2
  decode_encode p rest h := by
    rw [List.append_assoc, c.decode_encode p.1 _ h.1]
    show ((d.decode (d.encode p.2 ++ rest)).bind fun r => some ((p.1, r.1), r.2)) = _
    rw [d.decode_encode p.2 rest h.2]
    rfl

variable (c : Codec α γ)

/-- Read `n` values one after the other. -/
def decodeMany : ℕ → List γ → Option (List α × List γ)
  | 0, word => some ([], word)
  | n + 1, word => do
    let (a, word) ← c.decode word
    let (as, word) ← decodeMany n word
    return (a :: as, word)

theorem decodeMany_encode (rest : List γ) :
    ∀ {as : List α}, (∀ a ∈ as, c.Fits a) →
      c.decodeMany as.length (as.flatMap c.encode ++ rest) = some (as, rest)
  | [], _ => rfl
  | a :: as, h => by
    have hrest := decodeMany_encode rest fun a' ha' => h a' (List.mem_cons_of_mem a ha')
    rw [List.flatMap_cons, List.append_assoc, List.length_cons, decodeMany,
      c.decode_encode a _ (h a List.mem_cons_self)]
    show ((c.decodeMany as.length (as.flatMap c.encode ++ rest)).bind
      fun r => some (a :: r.1, r.2)) = _
    rw [hrest]
    rfl

end Codec
