/-
MD5 digests.

A message is padded to blocks of sixteen 32-bit words, least significant byte first. Each block
stirs a state of four words in 64 rounds, and the digest is the final state.

* `Md5.digest bytes` : the sixteen bytes of the digest;
* `Md5.hex s` : the digest of the UTF-8 bytes of a text, in digits of base sixteen;
* `length_pad` : a padded message fills whole blocks.
-/

namespace PageExtract.Md5

/-- The constants added in the rounds: 2³² times the sines of 1, 2, …, 64, without sign. -/
def sines : List UInt32 :=
  [
    0xd76aa478, 0xe8c7b756, 0x242070db, 0xc1bdceee, 0xf57c0faf, 0x4787c62a,
    0xa8304613, 0xfd469501, 0x698098d8, 0x8b44f7af, 0xffff5bb1, 0x895cd7be,
    0x6b901122, 0xfd987193, 0xa679438e, 0x49b40821, 0xf61e2562, 0xc040b340,
    0x265e5a51, 0xe9b6c7aa, 0xd62f105d, 0x02441453, 0xd8a1e681, 0xe7d3fbc8,
    0x21e1cde6, 0xc33707d6, 0xf4d50d87, 0x455a14ed, 0xa9e3e905, 0xfcefa3f8,
    0x676f02d9, 0x8d2a4c8a, 0xfffa3942, 0x8771f681, 0x6d9d6122, 0xfde5380c,
    0xa4beea44, 0x4bdecfa9, 0xf6bb4b60, 0xbebfbc70, 0x289b7ec6, 0xeaa127fa,
    0xd4ef3085, 0x04881d05, 0xd9d4d039, 0xe6db99e5, 0x1fa27cf8, 0xc4ac5665,
    0xf4292244, 0x432aff97, 0xab9423a7, 0xfc93a039, 0x655b59c3, 0x8f0ccc92,
    0xffeff47d, 0x85845dd1, 0x6fa87e4f, 0xfe2ce6e0, 0xa3014314, 0x4e0811a1,
    0xf7537e82, 0xbd3af235, 0x2ad7d2bb, 0xeb86d391
  ]

/-- The amounts of the rotations, for each quarter of the rounds. -/
def shifts : List (List UInt32) :=
  [[7, 12, 17, 22], [5, 9, 14, 20], [4, 11, 16, 23], [6, 10, 15, 21]]

/-- The state that blocks stir. -/
structure State where
  a : UInt32
  b : UInt32
  c : UInt32
  d : UInt32
deriving DecidableEq, Repr, Inhabited

/-- The state before the first block. -/
def State.initial : State := ⟨0x67452301, 0xefcdab89, 0x98badcfe, 0x10325476⟩

/-- The sum of two states, word by word. -/
def State.add (s t : State) : State := ⟨s.a + t.a, s.b + t.b, s.c + t.c, s.d + t.d⟩

/-- Rotates a word to the left. -/
def rotate (x n : UInt32) : UInt32 := (x <<< n) ||| (x >>> (32 - n))

/-- The mixing of three words in a quarter of the rounds. -/
def mix (quarter : Nat) (b c d : UInt32) : UInt32 :=
  match quarter with
  | 0 => (b &&& c) ||| (~~~b &&& d)
  | 1 => (d &&& b) ||| (~~~d &&& c)
  | 2 => b ^^^ c ^^^ d
  | _ => c ^^^ (b ||| ~~~d)

/-- The word of the block that a round takes. -/
def wordIndex (quarter i : Nat) : Nat :=
  match quarter with
  | 0 => i
  | 1 => (5 * i + 1) % 16
  | 2 => (3 * i + 5) % 16
  | _ => 7 * i % 16

/-- One round. -/
def round (block : List UInt32) (s : State) (i : Nat) : State :=
  let quarter := i / 16
  let f := mix quarter s.b s.c s.d + s.a + sines.getD i 0 + block.getD (wordIndex quarter i) 0
  let n := (shifts.getD quarter []).getD (i % 4) 0
  ⟨s.d, s.b + rotate f n, s.b, s.c⟩

/-- Stirs a block into the state. -/
def stir (s : State) (block : List UInt32) : State :=
  s.add ((List.range 64).foldl (round block) s)

/-- The bytes of a number, the least significant one first. -/
def littleEndian : Nat → Nat → List UInt8
  | 0, _ => []
  | size + 1, n => UInt8.ofNat (n % 256) :: littleEndian size (n / 256)

/-- The number of zero bytes between the mark and the length. -/
def zeros (length : Nat) : Nat := (119 - length % 64) % 64

/-- A message with the mark, zeros and the number of its bits. -/
def pad (bytes : List UInt8) : List UInt8 :=
  bytes ++ 0x80 :: List.replicate (zeros bytes.length) 0 ++ littleEndian 8 (8 * bytes.length)

/-- The words of bytes, four bytes each. -/
def words : List UInt8 → List UInt32
  | a :: b :: c :: d :: rest =>
    (a.toUInt32 ||| b.toUInt32 <<< 8 ||| c.toUInt32 <<< 16 ||| d.toUInt32 <<< 24) :: words rest
  | _ => []

/-- Stirs a number of blocks of sixteen words. -/
def stirAll : Nat → State → List UInt32 → State
  | 0, s, _ => s
  | n + 1, s, ws => stirAll n (stir s (ws.take 16)) (ws.drop 16)

/-- The digest of a message. -/
def digest (bytes : List UInt8) : List UInt8 :=
  let ws := words (pad bytes)
  let s := stirAll (ws.length / 16) .initial ws
  [s.a, s.b, s.c, s.d].flatMap fun w => littleEndian 4 w.toNat

/-- A digit of base sixteen. -/
def digit (n : Nat) : Char := if n < 10 then Char.ofNat (48 + n) else Char.ofNat (87 + n)

/-- The digest of a text, in digits of base sixteen. -/
def hex (s : String) : String :=
  String.ofList ((digest s.toUTF8.toList).flatMap fun b => [digit (b.toNat / 16), digit (b.toNat % 16)])

theorem length_littleEndian (size n : Nat) : (littleEndian size n).length = size := by
  induction size generalizing n with
  | zero => rfl
  | succ size ih => simp [littleEndian, ih]

/-- A padded message fills whole blocks of 64 bytes. -/
theorem length_pad (bytes : List UInt8) : (pad bytes).length % 64 = 0 := by
  simp only [pad, zeros, List.length_append, List.length_cons, List.length_replicate,
    length_littleEndian]
  omega

end PageExtract.Md5
