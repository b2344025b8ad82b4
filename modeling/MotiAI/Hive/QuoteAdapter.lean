import Mathlib
import MotiAI.Lib.Codec
import MotiAI.Quote

/-!
# The adapter of quotes

How a quote is written to the file of a box: the number of its fields, then each field as its number
and its value. What Hive writes for a value is a parameter, a codec of the values the adapter can
meet. Reading takes the fields in any order and keeps the last value of each number, so a record
reads as a quote exactly when the values under the seven numbers are those of the quote
(`read_record`); what `write` writes is such a record.
-/

namespace Hive

/-- What a reader of Hive returns. -/
inductive Value (ω : Type) where
  | null
  | string (s : String)
  | other (o : ω)

end Hive

namespace MotiAI

open Hive

namespace QuoteAdapter

variable {ω : Type}

/-- `value as String`; `none` says that it throws. -/
def asString : Value ω → Option String
  | .string s => some s
  | _ => none

/-- `value as String?`. -/
def asString? : Value ω → Option (Option String)
  | .null => some none
  | .string s => some (some s)
  | .other _ => none

/-- The entries of the map `fields`, a later one in place of an earlier one with the same number. -/
def fields (entries : List (UInt8 × Value ω)) : UInt8 → Value ω :=
  entries.foldl (fun fields e => Function.update fields e.1 e.2) fun _ => .null

variable (c : Codec (Value ω) UInt8)

/-- A field: its number and its value. -/
def field : Codec (UInt8 × Value ω) UInt8 := (Codec.symbol UInt8).pair c

def read (bytes : List UInt8) : Option (Quote × List UInt8) := do
  let (numOfFields, bytes) ← (Codec.symbol UInt8).decode bytes
  let (entries, bytes) ← (field c).decodeMany numOfFields.toNat bytes
  let fields := fields entries
  let id ← asString (fields 0)
  let text ← asString (fields 1)
  let author ← asString (fields 2)
  let tradition ← asString (fields 3)
  let category ← asString (fields 4)
  let imageUrl ← asString (fields 5)
  let affirmation ← asString? (fields 6)
  return ({ id, text, author, tradition, category, imageUrl, affirmation }, bytes)

def write (obj : Quote) : List UInt8 :=
  [7] ++ [0] ++ c.encode (.string obj.id) ++ [1] ++ c.encode (.string obj.text) ++
    [2] ++ c.encode (.string obj.author) ++ [3] ++ c.encode (.string obj.tradition) ++
    [4] ++ c.encode (.string obj.category) ++ [5] ++ c.encode (.string obj.imageUrl) ++
    [6] ++ c.encode (obj.affirmation.elim .null .string)

/-! ## Records -/

/-- The values of a quote under their numbers. -/
def values (q : Quote) : List (UInt8 × Value ω) :=
  [(0, .string q.id), (1, .string q.text), (2, .string q.author), (3, .string q.tradition),
    (4, .string q.category), (5, .string q.imageUrl), (6, q.affirmation.elim .null .string)]

/-- A record of fields: how many there are, and one after the other. -/
def record (entries : List (UInt8 × Value ω)) : List UInt8 :=
  UInt8.ofNat entries.length :: entries.flatMap (field c).encode

theorem write_eq_record (q : Quote) : write c q = record c (values q) := by
  simp [write, record, values, field, Codec.pair, Codec.symbol]

theorem asString_eq_some_iff {v : Value ω} {s : String} : asString v = some s ↔ v = .string s := by
  cases v <;> simp [asString]

theorem asString?_eq_some_iff {v : Value ω} {s : Option String} :
    asString? v = some s ↔ v = s.elim .null .string := by
  cases v <;> cases s <;> simp [asString?]

/-- A number that does not come again keeps its value. -/
theorem foldl_update_of_not_mem {entries : List (UInt8 × Value ω)} {k : UInt8}
    (h : k ∉ entries.map Prod.fst) (f : UInt8 → Value ω) :
    entries.foldl (fun fields e => Function.update fields e.1 e.2) f k = f k := by
  induction entries generalizing f with
  | nil => rfl
  | cons e entries ih =>
    rw [List.map_cons, List.mem_cons, not_or] at h
    rw [List.foldl_cons, ih h.2, Function.update_of_ne h.1]

theorem fields_of_nodup {entries : List (UInt8 × Value ω)} (hnodup : (entries.map Prod.fst).Nodup)
    {e : UInt8 × Value ω} (he : e ∈ entries) : fields entries e.1 = e.2 := by
  obtain ⟨before, after, rfl⟩ := List.append_of_mem he
  have hafter : e.1 ∉ after.map Prod.fst := by
    rw [List.map_append, List.map_cons] at hnodup
    exact (List.nodup_cons.mp hnodup.of_append_right).1
  rw [fields, List.foldl_append, List.foldl_cons, foldl_update_of_not_mem hafter,
    Function.update_self]

theorem fields_values (q : Quote) {e : UInt8 × Value ω} (he : e ∈ values q) :
    fields (values q) e.1 = e.2 := by
  refine fields_of_nodup ?_ he
  show [(0 : UInt8), 1, 2, 3, 4, 5, 6].Nodup
  decide

/-- Reading a record comes down to its fields. -/
theorem read_record {entries : List (UInt8 × Value ω)} (hlen : entries.length < 256)
    (hfits : ∀ e ∈ entries, c.Fits e.2) {q : Quote} {rest rest' : List UInt8} :
    read c (record c entries ++ rest) = some (q, rest') ↔
      rest' = rest ∧ ∀ e ∈ values q, fields entries e.1 = e.2 := by
  have hentries : (field c).decodeMany (UInt8.ofNat entries.length).toNat
      (entries.flatMap (field c).encode ++ rest) = some (entries, rest) := by
    rw [UInt8.toNat_ofNat', Nat.mod_eq_of_lt hlen]
    exact (field c).decodeMany_encode rest fun e he => ⟨trivial, hfits e he⟩
  have hread : read c (record c entries ++ rest) = some (q, rest') ↔
      ∃ id, asString (fields entries 0) = some id ∧
      ∃ text, asString (fields entries 1) = some text ∧
      ∃ author, asString (fields entries 2) = some author ∧
      ∃ tradition, asString (fields entries 3) = some tradition ∧
      ∃ category, asString (fields entries 4) = some category ∧
      ∃ imageUrl, asString (fields entries 5) = some imageUrl ∧
      ∃ affirmation, asString? (fields entries 6) = some affirmation ∧
        (⟨id, text, author, tradition, category, imageUrl, affirmation⟩, rest) = (q, rest') := by
    simp only [read, record, List.cons_append, Codec.symbol, Option.bind_eq_bind,
      Option.bind_some, hentries, Option.bind_eq_some_iff, Option.pure_def, Option.some.injEq]
  rw [hread]
  simp only [asString_eq_some_iff, asString?_eq_some_iff, Prod.mk.injEq]
  constructor
  · rintro ⟨id, h₀, text, h₁, author, h₂, tradition, h₃, category, h₄, imageUrl, h₅, affirmation, h₆,
      rfl, rfl⟩
    refine ⟨rfl, ?_⟩
    simp only [values, List.forall_mem_cons]
    exact ⟨h₀, h₁, h₂, h₃, h₄, h₅, h₆, fun _ he => nomatch he⟩
  · rintro ⟨rfl, h⟩
    simp only [values, List.forall_mem_cons] at h
    obtain ⟨h₀, h₁, h₂, h₃, h₄, h₅, h₆, -⟩ := h
    exact ⟨_, h₀, _, h₁, _, h₂, _, h₃, _, h₄, _, h₅, _, h₆, rfl, rfl⟩

/-- **Quotes in the file of a box.** A written quote is read back, whatever stands behind it, and a
record of fewer than 256 fields, in any order, reads as that quote exactly when the last value under
each of its numbers is the quote's, where no affirmation may be a field that is missing. -/
theorem reads_back {entries : List (UInt8 × Value ω)} (hlen : entries.length < 256)
    (hfits : ∀ e ∈ entries, c.Fits e.2) {q : Quote} (hq : ∀ e ∈ values q, c.Fits e.2)
    (rest : List UInt8) :
    read c (write c q ++ rest) = some (q, rest) ∧
      ∀ rest', read c (record c entries ++ rest) = some (q, rest') ↔
        rest' = rest ∧ ∀ e ∈ values q, fields entries e.1 = e.2 := by
  refine ⟨?_, fun rest' => read_record c hlen hfits⟩
  rw [write_eq_record]
  exact (read_record c (Nat.lt_of_sub_eq_succ rfl) hq).mpr ⟨rfl, fun _ he => fields_values q he⟩

/-! ## Null and strings -/

/-- A string is its tag, its length in bytes, least significant byte first, and its UTF-8 bytes. -/
def taggedString (s : String) : List UInt8 :=
  let n := s.toByteArray.data.toList.length
  4 :: UInt8.ofNat n :: UInt8.ofNat (n / 256) :: UInt8.ofNat (n / 65536) ::
    UInt8.ofNat (n / 16777216) :: s.toByteArray.data.toList

def untagged : List UInt8 → Option (Value Empty × List UInt8)
  | 0 :: rest => some (.null, rest)
  | 4 :: b₀ :: b₁ :: b₂ :: b₃ :: rest =>
    let n := b₀.toNat + 256 * b₁.toNat + 65536 * b₂.toNat + 16777216 * b₃.toNat
    if n ≤ rest.length then
      (String.fromUTF8? ⟨(rest.take n).toArray⟩).map fun s => (.string s, rest.drop n)
    else none
  | _ => none

theorem untagged_taggedString (s : String) (rest : List UInt8)
    (h : s.toByteArray.data.toList.length < 2 ^ 32) :
    untagged (taggedString s ++ rest) = some (.string s, rest) := by
  have hn : ∀ n < 2 ^ 32, (UInt8.ofNat n).toNat + 256 * (UInt8.ofNat (n / 256)).toNat +
      65536 * (UInt8.ofNat (n / 65536)).toNat + 16777216 * (UInt8.ofNat (n / 16777216)).toNat = n := by
    intro n hn
    simp only [UInt8.toNat_ofNat']
    omega
  have hlen := hn _ h
  have hutf8 : String.fromUTF8? ⟨s.toByteArray.data.toList.toArray⟩ = some s := by
    rw [Array.toArray_toList, String.fromUTF8?, dif_pos s.isValidUTF8]
    rfl
  show (if _ ≤ _ then _ else none) = _
  rw [hlen, if_pos (by simp), List.append_eq, List.take_left, List.drop_left, hutf8]
  rfl

/-- The codec of null and strings. -/
def tagged : Codec (Value Empty) UInt8 where
  encode
    | .null => [0]
    | .string s => taggedString s
    | .other o => nomatch o
  decode := untagged
  Fits
    | .string s => s.toByteArray.data.toList.length < 2 ^ 32
    | _ => True
  decode_encode
    | .null, _, _ => rfl
    | .string s, rest, h => untagged_taggedString s rest h
    | .other o, _, _ => nomatch o

theorem fits_string {s : String} (h : s.toByteArray.data.toList.length < 2 ^ 32) :
    tagged.Fits (.string s) := h

/-- A quote without an affirmation, and a record of six fields in another order. -/
theorem reads_back_sixFields :
    let q : Quote := ⟨"zen_1", "Sit quietly.", "Zen Proverb", "Zen", "peace", "", none⟩
    let entries : List (UInt8 × Value Empty) :=
      [(4, .string "peace"), (0, .string "zen_1"), (1, .string "Sit quietly."),
        (2, .string "Zen Proverb"), (3, .string "Zen"), (5, .string "")]
    read tagged (write tagged q ++ [9]) = some (q, [9]) ∧
      ∀ rest', read tagged (record tagged entries ++ [9]) = some (q, rest') ↔
        rest' = [9] ∧ ∀ e ∈ values q, fields entries e.1 = e.2 := by
  intro q entries
  have hentries : ∀ e ∈ entries, tagged.Fits e.2 := by
    simp only [entries, List.forall_mem_cons]
    exact ⟨fits_string (by decide), fits_string (by decide), fits_string (by decide),
      fits_string (by decide), fits_string (by decide), fits_string (by decide), fun _ h => nomatch h⟩
  have hq : ∀ e ∈ values q, tagged.Fits e.2 := by
    simp only [q, values, List.forall_mem_cons]
    exact ⟨fits_string (by decide), fits_string (by decide), fits_string (by decide),
      fits_string (by decide), fits_string (by decide), fits_string (by decide), trivial, fun _ h => nomatch h⟩
  exact reads_back tagged (by decide) hentries hq [9]

end QuoteAdapter

end MotiAI
