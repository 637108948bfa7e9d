/-
Addresses of servers on the web.

* `Address` : how a server is reached, and what it is asked for;
* `AddressError` : why a text is no address;
* `Address.hostText` : the host and its port, as requests name them;
* `Address.writeTarget` : a path or a query with the characters that it cannot hold written as
  bytes.
-/
import PageExtract.Http.Percent
import PageExtract.Number.Numeral

namespace PageExtract

/-- The schemes of addresses on the web. -/
inductive Scheme where
  | http
  | https
deriving DecidableEq, Repr, Inhabited

/-- The name of a scheme. -/
def Scheme.name : Scheme → String
  | http => "http"
  | https => "https"

/-- The scheme of a name in upper or lower case. -/
def Scheme.ofName? (cs : List Char) : Option Scheme :=
  [http, https].find? fun s => s.name.toList == cs.map Char.toLower

/-- The port that is meant if none is given. -/
def Scheme.port : Scheme → Nat
  | http => 80
  | https => 443

/-- An address. -/
structure Address where
  scheme : Scheme
  /-- A name and a password, with a colon between them. -/
  user : Option String
  host : String
  /-- The digits of the port. -/
  port : Option String
  /-- The path and the query. -/
  target : String
deriving DecidableEq, Repr, Inhabited

/-- Why a text is no address. -/
inductive AddressError where
  /-- It is no absolute address on the web. -/
  | invalid
  /-- Its user is not well formed. -/
  | undecodableUser
deriving DecidableEq, Repr, Inhabited

namespace Address

/-- A host as requests name it. One with two colons has brackets around it. -/
def hostName (a : Address) : String :=
  let cs := a.host.toList
  if 2 ≤ cs.count ':' && cs.head? != some '[' then s!"[{a.host}]" else a.host

/-- The port of an address, unless it is meant anyway. -/
def otherPort? (a : Address) : Option String :=
  a.port.filter fun ds => Numeral.natOfDigits ds.toList != a.scheme.port

/-- The host and its port, as requests name them. -/
def hostText (a : Address) : String :=
  match a.otherPort? with
  | some port => s!"{a.hostName}:{port}"
  | none => a.hostName

/-- The visible characters that a path or a query does not hold as they are. -/
def strangeChars : List Char :=
  ['"', '<', '>', '\\', '^', '\x60', '\x7b', '|', '\x7d', '\'']

/-- Whether a path or a query holds a character as it is. -/
def isTargetChar (c : Char) : Bool := '!' ≤ c && c ≤ '~' && !strangeChars.contains c

/-- A path or a query with the characters that it cannot hold written as bytes. -/
def writeTarget (cs : List Char) : List Char := cs.flatMap (Percent.encodeChar isTargetChar)

/-- The greatest length of a host. -/
def maxHostLength : Nat := 255

/-- Whether a character ends the part of an address that names the host. -/
def endsHost (c : Char) : Bool := c == '/' || c == '\\' || c == '?' || c == '#'

/-- Whether a character is a tab or breaks a line. -/
def isBreak (c : Char) : Bool := c == '\t' || c == '\n' || c == '\r'

/-- A user as it is meant. An empty one is none. -/
def readUser (cs : List Char) : Except AddressError (Option String) :=
  if cs.isEmpty then .ok none
  else match Percent.decode? (String.ofList cs) with
    | some user => .ok (some user)
    | none => .error .undecodableUser

end Address

end PageExtract
