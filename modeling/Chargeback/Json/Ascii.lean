import Chargeback.Json.Writing

/-!
# JSON in ASCII

The text of a value in which every character beyond ASCII is escaped. Only
strings can hold such characters, so that the text still stands for the same
value. Characters beyond the 16-bit ones are escaped in two halves.

## Main definitions

* `Json.writeAscii`: the text of a value in ASCII.
-/

namespace Chargeback

namespace Json

/-- An escaped code of 16 bits. -/
def escapeCode (n : Nat) : List Char :=
  ['\\', 'u', hexDigit (n / 4096 % 16), hexDigit (n / 256 % 16), hexDigit (n / 16 % 16),
    hexDigit (n % 16)]

/-- A character, escaped if it is beyond ASCII. -/
def asciiChar (c : Char) : List Char :=
  let n := c.toNat
  if n < 0x80 then [c]
  else if n < 0x10000 then escapeCode n
  else
    escapeCode (0xD800 + (n - 0x10000) / 0x400) ++ escapeCode (0xDC00 + (n - 0x10000) % 0x400)

/-- The text of a value in ASCII. -/
def writeAscii (j : Json) : String := String.ofList (j.write.toList.flatMap asciiChar)

end Json

end Chargeback
