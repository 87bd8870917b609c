import Chargeback.Text.Hidden

/-!
# Quoted texts

A text between quotes, as it is shown to people who look for mistakes: quotes
and backslashes are escaped, common control characters have short names, and
characters that do not show by themselves are written as code points.

## Main definitions

* `Text.quote`: a quoted text.
* `Text.quoteAll`: a list of quoted texts between brackets.
-/

namespace Chargeback

namespace Text

/-- The lower-case hexadecimal digits of a number, without zeros in front. -/
def hexDigits (n : Nat) : List Char :=
  if n < 16 then [Nat.digitChar n] else hexDigits (n / 16) ++ [Nat.digitChar (n % 16)]
termination_by n

/-- The written form of a character between quotes. -/
def quoteChar (c : Char) : List Char :=
  if c = '\x00' then ['\\', '0']
  else if c = '\t' then ['\\', 't']
  else if c = '\r' then ['\\', 'r']
  else if c = '\n' then ['\\', 'n']
  else if c = '"' || c = '\\' then ['\\', c]
  else if isHidden c then '\\' :: 'u' :: '{' :: hexDigits c.toNat ++ ['}']
  else [c]

/-- A text between quotes. -/
def quote (s : String) : String :=
  String.ofList ('"' :: s.toList.flatMap quoteChar ++ ['"'])

/-- Quoted texts between brackets. -/
def quoteAll (l : List String) : String :=
  "[" ++ String.intercalate ", " (l.map quote) ++ "]"

end Text

end Chargeback
