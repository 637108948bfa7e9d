/-
Addresses that begin with a scheme.

Such an address is brought into one form. Tabs and line breaks in it do not count, a backslash is
as good as a slash, and any number of slashes may follow the scheme. The host is written in lower
case and in ASCII, a host that is a number in its shortest form, and the path is resolved. What
follows a number sign is left out.

* `Address.splitScheme?` : the scheme of a text;
* `Address.writeHost?` : a host in its one form;
* `Address.resolve` : the address that follows a scheme.
-/
import PageExtract.Address.Basic
import PageExtract.Address.Domain
import PageExtract.Address.Ip
import PageExtract.Address.Path

namespace PageExtract.Address

/-- Whether a scheme goes on with a character. -/
def isSchemeChar (c : Char) : Bool := c.isAlphanum || c == '+' || c == '-' || c == '.'

/-- The scheme that a text begins with, and what follows its colon. -/
def splitScheme? (cs : List Char) : Option (List Char × List Char) :=
  match cs.head?, cs.dropWhile isSchemeChar with
  | some c, ':' :: rest => if c.isAlpha then some (cs.takeWhile isSchemeChar, rest) else none
  | _, _ => none

/-- A host in its one form. -/
def writeHost? (host : List Char) : Option (List Char) :=
  match host with
  | '[' :: cs =>
    if cs.getLast? = some ']' then (Ipv6.parse? cs.dropLast).map Ipv6.text else none
  | _ => do
    let name ← Domain.toAscii? (Utf8.decode (← Percent.bytes? host)).toList
    if Ipv4.endsInNumber name then (Ipv4.parse? name).map Ipv4.text
    else if name.length ≤ maxHostLength then some name
    else none

/-- The host, and what follows from its port on. A colon in brackets belongs to the host. -/
def splitPort (inside : Bool) : List Char → List Char × List Char
  | [] => ([], [])
  | c :: cs =>
    if c = ':' ∧ inside = false then ([], c :: cs)
    else
      let p := splitPort (c == '[' || (inside && c != ']')) cs
      (c :: p.1, p.2)

/-- The port that is written after a host, if it is well formed; there may be none. -/
def readPort? : List Char → Option (Option Nat)
  | _ :: d :: ds =>
    let digits := d :: ds
    if digits.all Char.isDigit && Numeral.natOfDigits digits ≤ 65535 then
      some (some (Numeral.natOfDigits digits))
    else none
  | _ => some none

/-- The path and the query in what follows a host. -/
def readTarget (cs : List Char) : List Char :=
  let meant := cs.takeWhile (· != '#')
  let path := (meant.takeWhile (· != '?')).map fun c => if c = '\\' then '/' else c
  resolvePath (writeTarget path) ++ writeTarget (meant.dropWhile (· != '?'))

/-- A user without the colon of an empty password. -/
def trimUser (user : List Char) : List Char :=
  match Text.cutAt [':'] user with
  | some (name, []) => name
  | _ => user

/-- The address that follows a scheme and its colon. -/
def resolve (scheme : Scheme) (cs : List Char) : Except AddressError Address :=
  let seen := (cs.reverse.dropWhile (· ≤ ' ')).reverse.filter fun c => !isBreak c
  let body := seen.dropWhile fun c => c == '/' || c == '\\'
  let (user, place) :=
    (Text.cutAtLast '@' (body.takeWhile fun c => !endsHost c)).getD
      ([], body.takeWhile fun c => !endsHost c)
  let (host, port) := splitPort false place
  match writeHost? host, readPort? port with
  | some host, some port => do
    let user ← readUser (trimUser user)
    return ⟨scheme, user, String.ofList host, port.map toString,
      String.ofList (readTarget (body.dropWhile fun c => !endsHost c))⟩
  | _, _ => .error .invalid

end PageExtract.Address
