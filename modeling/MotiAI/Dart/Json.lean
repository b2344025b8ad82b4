import Mathlib.Data.List.Nodup

/-!
# JSON values, `jsonEncode` and `jsonDecode`

`Json ω` is a dynamic Dart value: the JSON constructors, and at the leaves objects of some class
`ω`. `Plain` values hold no object. `jsonEncode` replaces an object by what its `toJson()` returns
and fails when the class has none; `jsonDecode` reads plain maps, lists and scalars.

A number is carried by its literal (`Numeral`): nothing here computes with one. Dart maps keep
their keys distinct; `Plain.Wf` says so at every level.
-/

namespace Dart

/-! ## Numerals -/

/-- The longest run of digits and what follows it. -/
def scanDigits (cs : List Char) : List Char × List Char :=
  (cs.takeWhile Char.isDigit, cs.dropWhile Char.isDigit)

/-- The scanners return the characters they take and what follows them. -/
def scanMinus : List Char → List Char × List Char
  | '-' :: r => (['-'], r)
  | cs => ([], cs)

def scanInt : List Char → Option (List Char × List Char)
  | '0' :: r => some (['0'], r)
  | cs => if (scanDigits cs).1 = [] then none else some (scanDigits cs)

def scanFrac : List Char → Option (List Char × List Char)
  | '.' :: r =>
    if (scanDigits r).1 = [] then none else some ('.' :: (scanDigits r).1, (scanDigits r).2)
  | cs => some ([], cs)

def scanSign : List Char → List Char × List Char
  | '+' :: r => (['+'], r)
  | '-' :: r => (['-'], r)
  | cs => ([], cs)

def scanExp : List Char → Option (List Char × List Char)
  | [] => some ([], [])
  | c :: r =>
    if c = 'e' ∨ c = 'E' then
      if (scanDigits (scanSign r).2).1 = [] then none
      else some (c :: (scanSign r).1 ++ (scanDigits (scanSign r).2).1,
        (scanDigits (scanSign r).2).2)
    else some ([], c :: r)

/-- Scan a JSON number. -/
def scanNumeral (cs : List Char) : Option (List Char × List Char) := do
  let (i, r₁) ← scanInt (scanMinus cs).2
  let (f, r₂) ← scanFrac r₁
  let (e, r₃) ← scanExp r₂
  return ((scanMinus cs).1 ++ i ++ f ++ e, r₃)

/-- A number literal. -/
structure Numeral where
  chars : List Char
  ok : scanNumeral chars = some (chars, [])

/-! ## Values -/

/-- A dynamic Dart value with objects of class `ω`. -/
inductive Json (ω : Type) where
  | null
  | bool (b : Bool)
  | num (n : Numeral)
  | str (s : String)
  | list (elems : List (Json ω))
  | map (entries : List (String × Json ω))
  | object (o : ω)

/-- A value made of plain maps, lists and scalars. -/
abbrev Plain := Json Empty

variable {ω : Type}

namespace Json

/-- The test `v is Map`. -/
def isMap : Json ω → Bool
  | .map _ => true
  | _ => false

/-- `v.entries`; only a map has them. -/
def entries? : Json ω → Option (List (String × Json ω))
  | .map es => some es
  | _ => none

/-- `m[key]` on the entries of a map. -/
def lookup (key : String) (es : List (String × Json ω)) : Option (Json ω) :=
  (es.find? fun e => e.1 = key).map Prod.snd

mutual

/-- Replace the objects of a value by what their `toJson()` returns. -/
def toPlain (toJson : ω → Option Plain) : Json ω → Option Plain
  | .null => some .null
  | .bool b => some (.bool b)
  | .num n => some (.num n)
  | .str s => some (.str s)
  | .list l => (toPlainElems toJson l).map .list
  | .map m => (toPlainEntries toJson m).map .map
  | .object o => toJson o

def toPlainElems (toJson : ω → Option Plain) : List (Json ω) → Option (List Plain)
  | [] => some []
  | v :: vs => do
    let p ← toPlain toJson v
    let ps ← toPlainElems toJson vs
    return p :: ps

def toPlainEntries (toJson : ω → Option Plain) :
    List (String × Json ω) → Option (List (String × Plain))
  | [] => some []
  | (k, v) :: es => do
    let p ← toPlain toJson v
    let ps ← toPlainEntries toJson es
    return (k, p) :: ps

end

mutual

/-- A plain value as a dynamic one. -/
def ofPlain : Plain → Json ω
  | .null => .null
  | .bool b => .bool b
  | .num n => .num n
  | .str s => .str s
  | .list l => .list (ofPlainElems l)
  | .map m => .map (ofPlainEntries m)
  | .object o => nomatch o

def ofPlainElems : List Plain → List (Json ω)
  | [] => []
  | v :: vs => ofPlain v :: ofPlainElems vs

def ofPlainEntries : List (String × Plain) → List (String × Json ω)
  | [] => []
  | (k, v) :: es => (k, ofPlain v) :: ofPlainEntries es

end

end Json

namespace Plain

mutual

/-- At every level the keys of a map are distinct. -/
def Wf : Plain → Prop
  | .list l => WfElems l
  | .map m => (m.map Prod.fst).Nodup ∧ WfEntries m
  | _ => True

def WfElems : List Plain → Prop
  | [] => True
  | v :: vs => Wf v ∧ WfElems vs

def WfEntries : List (String × Plain) → Prop
  | [] => True
  | (_, v) :: es => Wf v ∧ WfEntries es

end

end Plain

/-! ## Printing -/

/-- Hexadecimal digits, in lower case. -/
def hexDigit (n : ℕ) : Char := Char.ofNat (if n < 10 then 48 + n else 87 + n)

/-- A character of a string literal: quotes, backslashes and control characters are escaped. -/
def printChar (c : Char) : List Char :=
  if c = '"' then ['\\', '"']
  else if c = '\\' then ['\\', '\\']
  else if c.toNat = 8 then ['\\', 'b']
  else if c.toNat = 9 then ['\\', 't']
  else if c.toNat = 10 then ['\\', 'n']
  else if c.toNat = 12 then ['\\', 'f']
  else if c.toNat = 13 then ['\\', 'r']
  else if c.toNat < 32 then ['\\', 'u', '0', '0', hexDigit (c.toNat / 16), hexDigit (c.toNat % 16)]
  else [c]

def printString (s : String) : List Char := '"' :: (s.toList.flatMap printChar ++ ['"'])

mutual

/-- The text of a plain value, without white space. -/
def print : Plain → List Char
  | .null => ['n', 'u', 'l', 'l']
  | .bool true => ['t', 'r', 'u', 'e']
  | .bool false => ['f', 'a', 'l', 's', 'e']
  | .num n => n.chars
  | .str s => printString s
  | .list [] => ['[', ']']
  | .list (v :: vs) => '[' :: (print v ++ printElems vs)
  | .map [] => ['\x7b', '\x7d']
  | .map ((k, v) :: es) => '\x7b' :: (printString k ++ ':' :: (print v ++ printEntries es))
  | .object o => nomatch o

/-- The elements after the first, and the closing bracket. -/
def printElems : List Plain → List Char
  | [] => [']']
  | v :: vs => ',' :: (print v ++ printElems vs)

/-- The entries after the first, and the closing brace. -/
def printEntries : List (String × Plain) → List Char
  | [] => ['\x7d']
  | (k, v) :: es => ',' :: (printString k ++ ':' :: (print v ++ printEntries es))

end

/-- `jsonEncode`; `none` when it throws for an object without `toJson()`. -/
def jsonEncode (toJson : ω → Option Plain) (v : Json ω) : Option String :=
  (v.toPlain toJson).map fun p => String.ofList (print p)

/-! ## Parsing -/

/-- White space between tokens. -/
def skipWs (cs : List Char) : List Char :=
  cs.dropWhile fun c => c = ' ' ∨ c = '\t' ∨ c = '\n' ∨ c = '\r'

def hexValue (c : Char) : Option ℕ :=
  if '0' ≤ c ∧ c ≤ '9' then some (c.toNat - 48)
  else if 'a' ≤ c ∧ c ≤ 'f' then some (c.toNat - 87)
  else if 'A' ≤ c ∧ c ≤ 'F' then some (c.toNat - 55)
  else none

/-- The code unit named by four hexadecimal digits. -/
def hex4 (a b c d : Char) : Option ℕ := do
  let a ← hexValue a
  let b ← hexValue b
  let c ← hexValue c
  let d ← hexValue d
  return ((a * 16 + b) * 16 + c) * 16 + d

/-- The character of an escape other than `\u`. -/
def unescape (e : Char) : Option Char :=
  if e = '"' then some '"'
  else if e = '\\' then some '\\'
  else if e = '/' then some '/'
  else if e = 'b' then some (Char.ofNat 8)
  else if e = 'f' then some (Char.ofNat 12)
  else if e = 'n' then some '\n'
  else if e = 'r' then some '\r'
  else if e = 't' then some '\t'
  else none

/-- The low surrogate a text goes on with, as an escape. -/
def lowSurrogate : List Char → Option (ℕ × List Char)
  | '\\' :: 'u' :: a :: b :: c :: d :: r =>
    match hex4 a b c d with
    | some u => if 0xDC00 ≤ u ∧ u < 0xE000 then some (u, r) else none
    | none => none
  | _ => none

/-- The characters of a string literal, from after its opening quote. A surrogate pair is one
character; a lone surrogate, which no character stands for, is read as the replacement character. -/
def scanString : ℕ → List Char → Option (List Char × List Char)
  | 0, _ => none
  | _ + 1, [] => none
  | f + 1, c :: r =>
    if c = '"' then some ([], r)
    else if c = '\\' then
      match r with
      | 'u' :: h₁ :: h₂ :: h₃ :: h₄ :: r =>
        match hex4 h₁ h₂ h₃ h₄ with
        | none => none
        | some u =>
          if 0xD800 ≤ u ∧ u < 0xDC00 then
            match lowSurrogate r with
            | some (l, r) => (scanString f r).map fun p =>
                (Char.ofNat (0x10000 + (u - 0xD800) * 0x400 + (l - 0xDC00)) :: p.1, p.2)
            | none => (scanString f r).map fun p => (Char.ofNat 0xFFFD :: p.1, p.2)
          else if 0xDC00 ≤ u ∧ u < 0xE000 then
            (scanString f r).map fun p => (Char.ofNat 0xFFFD :: p.1, p.2)
          else (scanString f r).map fun p => (Char.ofNat u :: p.1, p.2)
      | e :: r =>
        match unescape e with
        | some c => (scanString f r).map fun p => (c :: p.1, p.2)
        | none => none
      | [] => none
    else if c.toNat < 32 then none
    else (scanString f r).map fun p => (c :: p.1, p.2)

def parseString (cs : List Char) : Option (String × List Char) :=
  (scanString (cs.length + 1) cs).map fun p => (String.ofList p.1, p.2)

def parseNumeral (cs : List Char) : Option (Numeral × List Char) :=
  match scanNumeral cs with
  | none => none
  | some (l, r) => if h : scanNumeral l = some (l, []) then some (⟨l, h⟩, r) else none

/-- `m[k] = v` on the entries of a map: a key that is present keeps its place. -/
def setEntry {V : Type} (k : String) (v : V) : List (String × V) → List (String × V)
  | [] => [(k, v)]
  | e :: es => if e.1 = k then (k, v) :: es else e :: setEntry k v es

/-- The map built by assigning the entries in turn. -/
def ofEntries {V : Type} (es : List (String × V)) : List (String × V) :=
  es.foldl (fun m e => setEntry e.1 e.2 m) []

mutual

/-- Read one value; `fuel` bounds the number of values and separators read. -/
def parseValue : ℕ → List Char → Option (Plain × List Char)
  | 0, _ => none
  | f + 1, cs =>
    match skipWs cs with
    | 'n' :: 'u' :: 'l' :: 'l' :: r => some (.null, r)
    | 't' :: 'r' :: 'u' :: 'e' :: r => some (.bool true, r)
    | 'f' :: 'a' :: 'l' :: 's' :: 'e' :: r => some (.bool false, r)
    | '"' :: r => (parseString r).map fun p => (.str p.1, p.2)
    | '[' :: r =>
      match skipWs r with
      | ']' :: r => some (.list [], r)
      | r => (parseValue f r).bind fun p =>
          (parseElems f p.2).map fun q => (.list (p.1 :: q.1), q.2)
    | '\x7b' :: r =>
      match skipWs r with
      | '\x7d' :: r => some (.map [], r)
      | r => (parseEntry f r).bind fun p =>
          (parseEntries f p.2).map fun q => (.map (ofEntries (p.1 :: q.1)), q.2)
    | cs => (parseNumeral cs).map fun p => (.num p.1, p.2)

/-- The elements after the first. -/
def parseElems : ℕ → List Char → Option (List Plain × List Char)
  | 0, _ => none
  | f + 1, cs =>
    match skipWs cs with
    | ']' :: r => some ([], r)
    | ',' :: r => (parseValue f r).bind fun p =>
        (parseElems f p.2).map fun q => (p.1 :: q.1, q.2)
    | _ => none

/-- One `key : value` entry. -/
def parseEntry : ℕ → List Char → Option ((String × Plain) × List Char)
  | 0, _ => none
  | f + 1, cs =>
    match skipWs cs with
    | '"' :: r =>
      match parseString r with
      | none => none
      | some (k, r) =>
        match skipWs r with
        | ':' :: r => (parseValue f r).map fun p => ((k, p.1), p.2)
        | _ => none
    | _ => none

/-- The entries after the first. -/
def parseEntries : ℕ → List Char → Option (List (String × Plain) × List Char)
  | 0, _ => none
  | f + 1, cs =>
    match skipWs cs with
    | '\x7d' :: r => some ([], r)
    | ',' :: r => (parseEntry f r).bind fun p =>
        (parseEntries f p.2).map fun q => (p.1 :: q.1, q.2)
    | _ => none

end

/-- `jsonDecode`; `none` when the text is not JSON. A value takes at most two calls for each
character, so the fuel never runs out. -/
def jsonDecode (text : String) : Option Plain :=
  match parseValue (2 * text.toList.length + 2) text.toList with
  | some (v, r) => if skipWs r = [] then some v else none
  | none => none

end Dart
