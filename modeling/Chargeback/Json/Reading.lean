import Chargeback.Json.Basic

/-!
# Reading JSON

A reader for JSON texts. Each reader takes what it wants off the front of the
text and gives the rest. Arrays and objects are read with a bound on the number
of steps; every second step takes a character, so twice the length of the text
suffices and the bound never shows.

## Main definitions

* `Json.parse?`: the value of a text with blanks around it and nothing else.
-/

namespace Chargeback

namespace Json

/-- Blank, tab, line feed and carriage return may stand between tokens. -/
def isSpace (c : Char) : Bool := c = ' ' || c = '\t' || c = '\n' || c = '\r'

/-- Leave out the blanks in front. -/
def skipSpace (s : List Char) : List Char := s.dropWhile isSpace

/-! ## Strings -/

/-- What a hexadecimal digit stands for. -/
def hexValue? (c : Char) : Option Nat :=
  if '0' ≤ c && c ≤ '9' then some (c.toNat - 48)
  else if 'a' ≤ c && c ≤ 'f' then some (c.toNat - 87)
  else if 'A' ≤ c && c ≤ 'F' then some (c.toNat - 55)
  else none

/-- The code that four hexadecimal digits stand for. -/
def hexCode? (a b c d : Char) : Option Nat := do
  some (((16 * (← hexValue? a) + (← hexValue? b)) * 16 + (← hexValue? c)) * 16 + (← hexValue? d))

/-- The character that a one-letter escape stands for. -/
def simpleEscape? (c : Char) : Option Char :=
  if c = '"' || c = '\\' || c = '/' then some c
  else if c = 'b' then some '\x08'
  else if c = 'f' then some '\x0c'
  else if c = 'n' then some '\n'
  else if c = 'r' then some '\r'
  else if c = 't' then some '\t'
  else none

/-- The codes that stand between the opening quote and the closing one, with
what follows. An escaped code may be half of a character. -/
def readCodes : List Char → Option (List Nat × List Char)
  | [] => none
  | '"' :: rest => some ([], rest)
  | '\\' :: 'u' :: a :: b :: c :: d :: rest => do
    let code ← hexCode? a b c d
    let (codes, rest) ← readCodes rest
    some (code :: codes, rest)
  | '\\' :: e :: rest => do
    let c ← simpleEscape? e
    let (codes, rest) ← readCodes rest
    some (c.toNat :: codes, rest)
  | c :: rest =>
    if c.toNat < 0x20 || c = '\\' then none
    else do
      let (codes, rest) ← readCodes rest
      some (c.toNat :: codes, rest)

/-- A code of the first half of a character beyond the 16-bit ones. -/
def isHighHalf (n : Nat) : Bool := 0xD800 ≤ n && n < 0xDC00

/-- A code of the second half of such a character. -/
def isLowHalf (n : Nat) : Bool := 0xDC00 ≤ n && n < 0xE000

/-- The characters that codes stand for; the halves have to come in pairs. -/
def charactersOf : List Nat → Option (List Char)
  | [] => some []
  | n :: rest =>
    if isHighHalf n then
      match rest with
      | m :: rest =>
        if isLowHalf m then
          (charactersOf rest).map (Char.ofNat (0x10000 + (n - 0xD800) * 0x400 + (m - 0xDC00)) :: ·)
        else none
      | [] => none
    else if isLowHalf n then none
    else (charactersOf rest).map (Char.ofNat n :: ·)

/-- Read a string behind its opening quote. -/
def readString (s : List Char) : Option (Json × List Char) := do
  let (codes, rest) ← readCodes s
  match charactersOf codes with
  | some cs => some (.string (String.ofList cs), rest)
  | none => some (.halfCharacter, rest)

/-! ## Numbers -/

/-- Read the digits of a whole part, which has no zero in front of others. -/
def readWhole : List Char → Option (Nat × List Char)
  | '0' :: rest => some (0, rest)
  | s =>
    let (ds, rest) := Decimal.spanDigits s
    if ds.isEmpty then none else some (Decimal.value ds, rest)

/-- Read the digits behind a point, if there is a point. -/
def readFraction : List Char → Option (Option (List Char) × List Char)
  | '.' :: rest =>
    let (ds, rest) := Decimal.spanDigits rest
    if ds.isEmpty then none else some (some ds, rest)
  | s => some (none, s)

/-- Read a power of ten, if there is a mark for one. -/
def readPower : List Char → Option (Option Int × List Char)
  | [] => some (none, [])
  | mark :: rest =>
    if mark = 'e' || mark = 'E' then
      let (negative, rest) := Decimal.takeSign rest
      let (ds, rest) := Decimal.spanDigits rest
      if ds.isEmpty then none
      else some (some (if negative then -(Decimal.value ds : Int) else Decimal.value ds), rest)
    else some (none, mark :: rest)

/-- Take a minus off the front. -/
def takeMinus : List Char → Bool × List Char
  | '-' :: rest => (true, rest)
  | s => (false, s)

/-- Read a number. -/
def readNumber (s : List Char) : Option (Json × List Char) := do
  let (negative, s) := takeMinus s
  let (whole, s) ← readWhole s
  let (fraction, s) ← readFraction s
  let (exponent, s) ← readPower s
  some (.number { negative, whole, fraction, exponent }, s)

/-! ## Values -/

mutual

/-- Read a value, in at most the given number of steps. -/
def readValue : Nat → List Char → Option (Json × List Char)
  | 0, _ => none
  | steps + 1, s =>
    match skipSpace s with
    | 'n' :: 'u' :: 'l' :: 'l' :: rest => some (.null, rest)
    | 't' :: 'r' :: 'u' :: 'e' :: rest => some (.bool true, rest)
    | 'f' :: 'a' :: 'l' :: 's' :: 'e' :: rest => some (.bool false, rest)
    | '"' :: rest => readString rest
    | '[' :: rest =>
      match skipSpace rest with
      | ']' :: rest => some (.array [], rest)
      | rest => (readItems steps rest).map fun r => (.array r.1, r.2)
    | '{' :: rest =>
      match skipSpace rest with
      | '}' :: rest => some (.object [], rest)
      | rest => (readFields steps rest).map fun r => (.object r.1, r.2)
    | s => readNumber s

/-- Read the items of an array that has some, up to its closing bracket. -/
def readItems : Nat → List Char → Option (List Json × List Char)
  | 0, _ => none
  | steps + 1, s =>
    match readValue steps s with
    | none => none
    | some (item, rest) =>
      match skipSpace rest with
      | ',' :: rest => (readItems steps rest).map fun r => (item :: r.1, r.2)
      | ']' :: rest => some ([item], rest)
      | _ => none

/-- Read the fields of an object that has some, up to its closing brace. -/
def readFields : Nat → List Char → Option (List (String × Json) × List Char)
  | 0, _ => none
  | steps + 1, s =>
    match skipSpace s with
    | '"' :: rest =>
      match readString rest with
      | some (.string key, rest) =>
        match skipSpace rest with
        | ':' :: rest =>
          match readValue steps rest with
          | none => none
          | some (item, rest) =>
            match skipSpace rest with
            | ',' :: rest => (readFields steps rest).map fun r => ((key, item) :: r.1, r.2)
            | '}' :: rest => some ([(key, item)], rest)
            | _ => none
        | _ => none
      | _ => none
    | _ => none

end

/-- The value of a text that holds one value and blanks around it. -/
def parse? (text : String) : Option Json :=
  let s := text.toList
  match readValue (2 * s.length + 2) s with
  | some (j, rest) => if (skipSpace rest).isEmpty then some j else none
  | none => none

end Json

end Chargeback
