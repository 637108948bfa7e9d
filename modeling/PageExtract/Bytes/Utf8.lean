/-
Text as bytes, in UTF-8.

Bytes that spell no character are read as the replacement character: one for each longest run that
could have begun a character.

* `Utf8.encode` : the bytes of a text;
* `Utf8.decode` : the text of some bytes;
* `Utf8.decode?` : the same for bytes all of which spell characters.
-/
import PageExtract.Text.Units

namespace PageExtract.Utf8

/-- The bytes of a character. Half a surrogate pair is written as the replacement character. -/
def encodeChar (c : Char) : List UInt8 :=
  String.utf8EncodeChar (if Text.isHalf c then Text.replacement else c)

/-- The bytes of a text. -/
def encode (s : String) : List UInt8 := (Text.shown s).toList.flatMap String.utf8EncodeChar

/-- The ranges of the bytes that may follow a first byte, in order. No byte follows one that begins
no character or a whole one. -/
def followers (first : Nat) : List (Nat × Nat) :=
  let any := (0x80, 0xBF)
  if first < 0xC2 then []
  else if first < 0xE0 then [any]
  else if first = 0xE0 then [(0xA0, 0xBF), any]
  else if first = 0xED then [(0x80, 0x9F), any]
  else if first < 0xF0 then [any, any]
  else if first = 0xF0 then [(0x90, 0xBF), any, any]
  else if first < 0xF4 then [any, any, any]
  else if first = 0xF4 then [(0x80, 0x8F), any, any]
  else []

/-- The part of a code point that a first byte gives. -/
def leading (first : Nat) : Nat :=
  if first < 0xE0 then first - 0xC0 else if first < 0xF0 then first - 0xE0 else first - 0xF0

/-- Reads the bytes that follow a first one, as far as they are in their ranges: the code point if
all of them are, and the bytes that are left. -/
def follow (value : Nat) : List (Nat × Nat) → List UInt8 → Option Nat × List UInt8
  | [], bs => (some value, bs)
  | _ :: _, [] => (none, [])
  | (low, high) :: ranges, b :: bs =>
    if low ≤ b.toNat ∧ b.toNat ≤ high then follow (64 * value + (b.toNat - 0x80)) ranges bs
    else (none, b :: bs)

theorem length_follow (value : Nat) (ranges : List (Nat × Nat)) (bs : List UInt8) :
    (follow value ranges bs).2.length ≤ bs.length := by
  fun_induction follow value ranges bs <;> grind

/-- The characters of some bytes; `none` stands for bytes that spell no character. -/
def chars : List UInt8 → List (Option Char)
  | [] => []
  | b :: bs =>
    let first := b.toNat
    if first < 0x80 then some (Char.ofNat first) :: chars bs
    else if (followers first).isEmpty then none :: chars bs
    else
      let read := follow (leading first) (followers first) bs
      have := length_follow (leading first) (followers first) bs
      read.1.map Char.ofNat :: chars read.2
termination_by bs => bs.length
decreasing_by
  · simp
  · simp
  · exact Nat.lt_succ_of_le this

/-- The text of some bytes. -/
def decode (bs : List UInt8) : String :=
  Text.ofScalars (String.ofList ((chars bs).map fun c => c.getD Text.replacement))

/-- The text of some bytes all of which spell characters. -/
def decode? (bs : List UInt8) : Option String :=
  ((chars bs).mapM id).map fun cs => Text.ofScalars (String.ofList cs)

end PageExtract.Utf8
