import Chargeback.Json.Writing

/-!
# Targets of posts

The address of a subscriber is an absolute address on the web: a scheme, an
authority, a path and perhaps a query. What is sent is the path with the query,
written in ASCII: other characters are escaped by the bytes of their encoding.

## Main definitions

* `Target`: an authority, and the path with the query.
* `Target.parse?`: the target of an address.
-/

namespace Chargeback

/-- Where a request goes: to an authority, with a path and perhaps a query. -/
structure Target where
  authority : String
  path : String
deriving DecidableEq, Repr

namespace Target

/-- The character separates the parts of a path. -/
def isSlash (c : Char) : Bool := c = '/' || c = '\\'

/-- The character ends an authority. -/
def endsAuthority (c : Char) : Bool := isSlash c || c = '?' || c = '#'

/-- An escaped byte. -/
def escapeByte (b : UInt8) : List Char :=
  ['%', (Json.hexDigit (b.toNat / 16)).toUpper, (Json.hexDigit (b.toNat % 16)).toUpper]

/-- A character, escaped if it is one of the given characters, a control or beyond
ASCII. -/
def escape (escaped : List Char) (c : Char) : List Char :=
  if c.toNat < 0x20 || 0x7f ≤ c.toNat || escaped.contains c then
    (String.singleton c).toUTF8.toList.flatMap escapeByte
  else [c]

/-- The characters that are escaped in a path. -/
def escapedInPath : List Char := [' ', '"', '<', '>', '`', '\x7b', '\x7d']

/-- The characters that are escaped in a query; the last one is the apostrophe. -/
def escapedInQuery : List Char := [' ', '"', '<', '>', Char.ofNat 0x27]

/-- Split a path at its slashes. -/
def segments (cs : List Char) : List (List Char) := cs.splitBy (fun _ b => !isSlash b)

/-- The part of a path stands for the place where it is. -/
def isHere (s : String) : Bool := s.toLower = "." || s.toLower = "%2e"

/-- The part of a path stands for the place above it. -/
def isAbove (s : String) : Bool :=
  ["..", ".%2e", "%2e.", "%2e%2e"].contains s.toLower

/-- The parts of a path in which no part stands for another place, in reverse. The
last part stays empty where it stood for one. -/
def resolve (done : List String) : List String → List String
  | [] => done
  | s :: rest =>
    let last := rest.isEmpty
    if isAbove s then resolve (if last then "" :: done.drop 1 else done.drop 1) rest
    else if isHere s then resolve (if last then "" :: done else done) rest
    else resolve (s :: done) rest

/-- The path that the characters between authority and query write. -/
def pathOf (cs : List Char) : String :=
  let parts := (segments cs).map fun s =>
    String.ofList ((s.dropWhile isSlash).flatMap (escape escapedInPath))
  match resolve [] parts with
  | [] => "/"
  | done => String.join (done.reverse.map ("/" ++ ·))

/-- What follows a scheme, if the characters begin with one for posts. -/
def afterScheme? (cs : List Char) : Option (List Char) :=
  let scheme := cs.takeWhile (· ≠ ':')
  if (String.ofList scheme).toLower = "http" && scheme.length < cs.length then
    some (cs.drop (scheme.length + 1))
  else none

/-- The target of an address, if it is absolute. -/
def parse? (address : String) : Option Target := do
  let blank (c : Char) : Bool := c.toNat ≤ 0x20
  let trimmed := (address.toList.dropWhile blank).reverse.dropWhile blank
  let cs := trimmed.reverse.filter fun c => c ≠ '\t' && c ≠ '\n' && c ≠ '\r'
  let rest := (← afterScheme? cs).dropWhile isSlash
  let authority := rest.takeWhile fun c => !endsAuthority c
  if authority.isEmpty then none
  else
    let rest := (rest.drop authority.length).takeWhile (· ≠ '#')
    let path := rest.takeWhile (· ≠ '?')
    let query := (rest.drop path.length).flatMap (escape escapedInQuery)
    some
      { authority := (String.ofList authority).toLower
        path := pathOf path ++ String.ofList query }

end Target

end Chargeback
