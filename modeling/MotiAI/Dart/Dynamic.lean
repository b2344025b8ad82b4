import MotiAI.Dart.Json

/-!
# Decoded JSON as a dynamic value

Indexing, null-aware access and `toString` on what `jsonDecode` returns. `none` says that the
access throws: the value has no such operator, or the index is out of range. The text of a number
depends on how its literal is rounded; it enters as `NumText`.
-/

namespace Dart

/-- `toString` of the number a literal stands for. -/
class NumText where
  text : Numeral → String

/-- Numbers as they are written. -/
@[reducible] def NumText.literal : NumText where
  text n := String.ofList n.chars

namespace Plain

/-- `v[key]` with a string; only a map has it. -/
def atKey (key : String) : Plain → Option Plain
  | .map es => some ((Json.lookup key es).getD .null)
  | _ => none

/-- `v[0]`. A decoded map has no key that is a number. -/
def atZero : Plain → Option Plain
  | .list (v :: _) => some v
  | .map _ => some .null
  | .str s => s.toList.head?.map fun c => .str (String.ofList [c])
  | _ => none

/-- `v?.access`, with the rest of the chain after it. -/
def nullAware (access : Plain → Option Plain) : Plain → Option Plain
  | .null => some .null
  | v => access v

variable [NumText]

mutual

/-- `v.toString()`. -/
def text : Plain → List Char
  | .null => ['n', 'u', 'l', 'l']
  | .bool true => ['t', 'r', 'u', 'e']
  | .bool false => ['f', 'a', 'l', 's', 'e']
  | .num n => (NumText.text n).toList
  | .str s => s.toList
  | .list [] => ['[', ']']
  | .list (v :: vs) => '[' :: (text v ++ textElems vs)
  | .map [] => ['\x7b', '\x7d']
  | .map ((k, v) :: es) => '\x7b' :: (k.toList ++ ':' :: ' ' :: (text v ++ textEntries es))
  | .object o => nomatch o

/-- The elements after the first, and the closing bracket. -/
def textElems : List Plain → List Char
  | [] => [']']
  | v :: vs => ',' :: ' ' :: (text v ++ textElems vs)

/-- The entries after the first, and the closing brace. -/
def textEntries : List (String × Plain) → List Char
  | [] => ['\x7d']
  | (k, v) :: es => ',' :: ' ' :: (k.toList ++ ':' :: ' ' :: (text v ++ textEntries es))

end

end Plain

end Dart
