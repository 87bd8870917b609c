import Chargeback.Json.Basic

/-!
# Written JSON

The text of a JSON value: no blanks, fields in their order, and in strings only
those characters escaped that have to be.

## Main definitions

* `Json.escape`: the written form of one character of a string.
* `Json.write`: the text of a value.
-/

namespace Chargeback

namespace Json

/-- The lower-case hexadecimal digit for `d`, for `d < 16`. -/
def hexDigit (d : Nat) : Char :=
  if d < 10 then Char.ofNat (48 + d) else Char.ofNat (87 + d)

/-- The written form of a character inside a string. Quotes, backslashes and
control characters are escaped, all others stand for themselves. -/
def escape (c : Char) : List Char :=
  if c = '"' then ['\\', '"']
  else if c = '\\' then ['\\', '\\']
  else if c = '\x08' then ['\\', 'b']
  else if c = '\x0c' then ['\\', 'f']
  else if c = '\n' then ['\\', 'n']
  else if c = '\r' then ['\\', 'r']
  else if c = '\t' then ['\\', 't']
  else if c.toNat < 0x20 then
    ['\\', 'u', '0', '0', hexDigit (c.toNat / 16), hexDigit (c.toNat % 16)]
  else [c]

/-- The written form of a string, quotes included. -/
def writeString (s : List Char) : List Char :=
  '"' :: s.flatMap escape ++ ['"']

/-- The written form of a number. -/
def Numeral.write (n : Numeral) : List Char :=
  (if n.negative then ['-'] else []) ++ Decimal.digits n.whole ++
    (match n.fraction with
      | none => []
      | some ds => '.' :: ds) ++
    (match n.exponent with
      | none => []
      | some e => 'e' :: (if e < 0 then ['-'] else []) ++ Decimal.digits e.natAbs)

mutual

/-- The text of a value as a list of characters. -/
def writeChars : Json → List Char
  | .null => "null".toList
  | .bool true => "true".toList
  | .bool false => "false".toList
  | .number n => n.write
  | .string s => writeString s.toList
  | .halfCharacter => writeString ['\uFFFD']
  | .array items => '[' :: writeItems items
  | .object fields => '{' :: writeFields fields

/-- The items of an array with commas between them, and the closing bracket. -/
def writeItems : List Json → List Char
  | [] => [']']
  | [j] => writeChars j ++ [']']
  | j :: rest => writeChars j ++ ',' :: writeItems rest

/-- The fields of an object with commas between them, and the closing brace. -/
def writeFields : List (String × Json) → List Char
  | [] => ['}']
  | [(k, j)] => writeString k.toList ++ ':' :: (writeChars j ++ ['}'])
  | (k, j) :: rest => writeString k.toList ++ ':' :: (writeChars j ++ ',' :: writeFields rest)

end

/-- The text of a value. -/
def write (j : Json) : String := String.ofList (writeChars j)

end Json

end Chargeback
