/-
Addresses with blanks in front.

Such an address is taken as it stands: its path is not resolved, and a host that is a number is not
brought into another form. The host ends where the path begins or at a character that no host
holds, and what follows belongs to the path.

* `Address.trimBlanks` : a text without the blanks around it;
* `Address.takeHost` : the host in what follows a scheme;
* `Address.readLiteral` : the address that a text gives as it stands.
-/
import PageExtract.Address.Resolved

namespace PageExtract.Address

/-- Whether a character is a blank around an address. -/
def isAround (c : Char) : Bool := c ≤ ' ' || c == '\u00a0' || c == '\ufeff'

/-- A text without the blanks around it. -/
def trimBlanks (cs : List Char) : List Char :=
  ((cs.dropWhile isAround).reverse.dropWhile isAround).reverse

/-- A text with slashes for backslashes, up to its query. -/
def withSlashes (cs : List Char) : List Char :=
  let front := cs.takeWhile fun c => c != '?' && c != '#'
  front.map (fun c => if c = '\\' then '/' else c) ++ cs.drop front.length

/-- Whether no host holds a character. -/
def isForeign (c : Char) : Bool := strangeChars.contains c || c == ' ' || c == '%' || c == ';'

/-- The port at the end of a host, if there is one, and what is before it. -/
def cutDigits (cs : List Char) : List Char × Option String :=
  match Text.cutAtLast ':' cs with
  | some (host, ds) =>
    if ds.all Char.isDigit then (host, if ds.isEmpty then none else some (String.ofList ds))
    else (cs, none)
  | none => (cs, none)

/-- Whether a host is in brackets. -/
def isBracketed (host : List Char) : Bool := host.head? == some '[' && host.getLast? == some ']'

/-- The name of a host, and what belongs to the path: a name ends at a colon. -/
def takeHost (host rest : List Char) : List Char × List Char :=
  if isBracketed host then
    ((host.drop 1).dropLast, if rest.head? = some '/' then rest else '/' :: rest)
  else
    match host.dropWhile (· != ':') with
    | [] => (host, rest)
    | more => (host.takeWhile (· != ':'), '/' :: more ++ rest)

/-- Whether a name holds a character that it cannot hold. In brackets it can hold a colon. -/
def hasBarred (bracketed : Bool) (name : List Char) : Bool :=
  name.any fun c => c == '\x00' ||
    (Domain.delimiters.contains c && !(bracketed && (c == ':' || c == '[' || c == ']')))

/-- The name of a host in lower case and in ASCII. -/
def readName? (bracketed : Bool) (name : List Char) : Option (List Char) :=
  if name.isEmpty || maxHostLength < name.length || hasBarred bracketed name then none
  else if bracketed || Domain.isAscii name then some (name.map Char.toLower)
  else Domain.toAscii? name

/-- The path and the query in what follows a host. What may stand in them is written as bytes only
if it is a strange character of ASCII. -/
def literalTarget (cs : List Char) : List Char :=
  let escape (c : Char) : List Char :=
    if c == ' ' || isBreak c || strangeChars.contains c then Percent.byteChars (UInt8.ofNat c.toNat)
    else [c]
  let target := (cs.takeWhile (· != '#')).flatMap escape
  if target.isEmpty || target.head? == some '?' then '/' :: target else target

/-- Whether a request can be for a target. -/
def isSendable (target : List Char) : Bool := target.all fun c => ' ' < c && c.toNat ≤ 0xFF

/-- The address in what follows a scheme and two slashes. -/
def readAfterSlashes (scheme : Scheme) (cs : List Char) : Except AddressError Address := do
  let front := cs.takeWhile fun c => !endsHost c
  let seen := front.filter fun c => !isBreak c
  let (user, place) := (Text.cutAtLast '@' seen).getD ([], seen)
  let (host, port) := cutDigits (place.takeWhile fun c => !isForeign c)
  let (name, rest) := takeHost host (place.dropWhile (fun c => !isForeign c) ++ cs.drop front.length)
  let target := literalTarget rest
  let user ← readUser user
  match readName? (isBracketed host) name with
  | some name =>
    if isSendable target then
      return ⟨scheme, user, String.ofList name, port, String.ofList target⟩
    else .error .invalid
  | none => .error .invalid

/-- The address that a text gives as it stands. -/
def readLiteral (cs : List Char) : Except AddressError Address :=
  match splitScheme? (withSlashes (trimBlanks cs)) with
  | some (name, '/' :: '/' :: rest) =>
    match Scheme.ofName? name with
    | some scheme => readAfterSlashes scheme rest
    | none => .error .invalid
  | _ => .error .invalid

/-- The address that a text gives. -/
def ofText (s : String) : Except AddressError Address :=
  match splitScheme? s.toList with
  | some (name, rest) =>
    match Scheme.ofName? name with
    | some scheme => resolve scheme rest
    | none => .error .invalid
  | none => readLiteral s.toList

end PageExtract.Address
