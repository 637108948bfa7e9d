/-
Bytes as text of base 64.

Both alphabets are read, the one with `+` and `/` and the one with `-` and `_`. The first padding
mark ends the text; other marks are passed over, and so is a single digit at the end. Of a code
unit beyond 255 the lower eight bits count.

* `Base64.marks` : the marks of a text;
* `Base64.decode` : the bytes that a text writes;
* `Base64.encode` : the text that writes bytes, with padding.
-/
import PageExtract.Text.Units

namespace PageExtract.Base64

/-- The value of a mark that is a digit. -/
def digit? (n : Nat) : Option Nat :=
  if 'A'.toNat ≤ n ∧ n ≤ 'Z'.toNat then some (n - 'A'.toNat)
  else if 'a'.toNat ≤ n ∧ n ≤ 'z'.toNat then some (n - 'a'.toNat + 26)
  else if '0'.toNat ≤ n ∧ n ≤ '9'.toNat then some (n - '0'.toNat + 52)
  else if n = '+'.toNat ∨ n = '-'.toNat then some 62
  else if n = '/'.toNat ∨ n = '_'.toNat then some 63
  else none

/-- The bytes that digits write, four digits for three bytes. -/
def bytesOf : List Nat → List UInt8
  | a :: b :: c :: d :: more =>
    UInt8.ofNat (4 * a + b / 16) :: UInt8.ofNat (16 * (b % 16) + c / 4) ::
      UInt8.ofNat (64 * (c % 4) + d) :: bytesOf more
  | [a, b, c] => [UInt8.ofNat (4 * a + b / 16), UInt8.ofNat (16 * (b % 16) + c / 4)]
  | [a, b] => [UInt8.ofNat (4 * a + b / 16)]
  | _ => []

/-- The marks of a text, up to the padding. -/
def marks (s : String) : List Nat :=
  ((Text.units s).map (· % 256)).takeWhile (· != '='.toNat)

/-- The bytes that a text writes. -/
def decode (s : String) : List UInt8 := bytesOf ((marks s).filterMap digit?)

/-- The digit of a value. -/
def digit (n : Nat) : Char :=
  if n < 26 then Char.ofNat ('A'.toNat + n)
  else if n < 52 then Char.ofNat ('a'.toNat + (n - 26))
  else if n < 62 then Char.ofNat ('0'.toNat + (n - 52))
  else if n = 62 then '+'
  else '/'

/-- The digits and the padding that write bytes, four for three bytes. -/
def digits : List UInt8 → List Char
  | a :: b :: c :: more =>
    digit (a.toNat / 4) :: digit (16 * (a.toNat % 4) + b.toNat / 16) ::
      digit (4 * (b.toNat % 16) + c.toNat / 64) :: digit (c.toNat % 64) :: digits more
  | [a, b] =>
    [digit (a.toNat / 4), digit (16 * (a.toNat % 4) + b.toNat / 16), digit (4 * (b.toNat % 16)),
      '=']
  | [a] => [digit (a.toNat / 4), digit (16 * (a.toNat % 4)), '=', '=']
  | [] => []

/-- The text that writes bytes. -/
def encode (bytes : List UInt8) : String := String.ofList (digits bytes)

end PageExtract.Base64
