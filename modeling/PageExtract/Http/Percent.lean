/-
Text as part of an address.

Characters that are not kept are written as the bytes of their UTF-8 form, each as a percent sign
and two hexadecimal digits.

* `Percent.encode keep s` : a text with the characters that `keep` does not hold for written so;
* `Percent.decode?` : the text that is meant, unless its bytes spell no characters;
* `Percent.isUnreserved`, `Percent.isFormSafe` : what is kept in a path and in a form.
-/
import PageExtract.Bytes.Utf8

namespace PageExtract.Percent

/-- A hexadecimal digit, in upper case. -/
def hexDigit (n : Nat) : Char :=
  if n < 10 then Char.ofNat ('0'.toNat + n) else Char.ofNat ('A'.toNat + (n - 10))

/-- The value of a hexadecimal digit. -/
def hexValue? (c : Char) : Option Nat :=
  let n := c.toNat
  if '0'.toNat ≤ n ∧ n ≤ '9'.toNat then some (n - '0'.toNat)
  else if 'A'.toNat ≤ n ∧ n ≤ 'F'.toNat then some (n - 'A'.toNat + 10)
  else if 'a'.toNat ≤ n ∧ n ≤ 'f'.toNat then some (n - 'a'.toNat + 10)
  else none

/-- A byte as a percent sign and two digits. -/
def byteChars (b : UInt8) : List Char :=
  ['%', hexDigit (b.toNat / 16), hexDigit (b.toNat % 16)]

/-- A character as it is, if it is kept, else byte by byte. -/
def encodeChar (keep : Char → Bool) (c : Char) : List Char :=
  if keep c then [c] else (Utf8.encodeChar c).flatMap byteChars

/-- A text with its characters as they are, if they are kept, else byte by byte. -/
def encode (keep : Char → Bool) (s : String) : String :=
  String.ofList (s.toList.flatMap (encodeChar keep))

/-- The bytes that are meant. There are none if a percent sign stands before anything but two
digits. -/
def bytes? : List Char → Option (List UInt8)
  | '%' :: high :: low :: cs => do
    let h ← hexValue? high
    let l ← hexValue? low
    return UInt8.ofNat (16 * h + l) :: (← bytes? cs)
  | [] => some []
  | c :: cs => if c = '%' then none else (Utf8.encodeChar c ++ ·) <$> bytes? cs

/-- The text that is meant. -/
def decode? (s : String) : Option String := (bytes? s.toList).bind Utf8.decode?

/-- The characters that are kept in a part of a path. The apostrophe is not one of them. -/
def isUnreserved (c : Char) : Bool :=
  c.isAlphanum || ['-', '_', '.', '!', '~', '*', '(', ')'].contains c

/-- The characters that are kept in a form. -/
def isFormSafe (c : Char) : Bool := c.isAlphanum || ['*', '-', '.', '_'].contains c

end PageExtract.Percent
