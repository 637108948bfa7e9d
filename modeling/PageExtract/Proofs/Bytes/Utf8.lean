/-
Texts of whole characters are read back from their bytes.

The first byte of a character says how many bytes follow and which values the second of them may
have: no character has a second byte outside this range, so that all bytes of a character are taken
for its own.

* `follow_cons`, `chars_cons` — reading one byte more, and the bytes of one character;
* `followers_two`, `followers_three`, `followers_four` — the ranges of the bytes that follow;
* `chars_utf8EncodeChar` — the bytes of a character are read as the character;
* `decode_encode` — the bytes of a text are read as the text.
-/
import Mathlib.Data.List.Basic
import PageExtract.Bytes.Utf8
import PageExtract.Proofs.Text.Units

namespace PageExtract.Utf8

/-- A byte in its range is read. -/
theorem follow_cons (value : Nat) {low high n : Nat} (hn : n < 256) (hlow : low ≤ n)
    (hhigh : n ≤ high) (ranges : List (Nat × Nat)) (bs : List UInt8) :
    follow value ((low, high) :: ranges) (UInt8.ofNat n :: bs) =
      follow (64 * value + (n - 0x80)) ranges bs := by
  have hbyte : (UInt8.ofNat n).toNat = n := UInt8.toNat_ofNat_of_lt' hn
  rw [follow, hbyte, if_pos ⟨hlow, hhigh⟩]

/-- A character of several bytes is read if those that follow the first are in their ranges. -/
theorem chars_cons {first value : Nat} (hfirst : first < 256) (hlong : ¬ first < 0x80)
    {ranges : List (Nat × Nat)} (hranges : followers first = ranges) (hsome : ranges ≠ [])
    {bs rest : List UInt8} (hfollow : follow (leading first) ranges bs = (some value, rest)) :
    chars (UInt8.ofNat first :: bs) = some (Char.ofNat value) :: chars rest := by
  have hbyte : (UInt8.ofNat first).toNat = first := UInt8.toNat_ofNat_of_lt' hfirst
  have hempty : ranges.isEmpty = false := by simpa using hsome
  rw [chars]
  simp only [hbyte, hranges, hempty]
  rw [if_neg hlong, if_neg Bool.false_ne_true, hfollow]
  rfl

/-- The ranges after the first byte of two. -/
theorem followers_two {first : Nat} (hlow : 0xC2 ≤ first) (hhigh : first < 0xE0) :
    followers first = [(0x80, 0xBF)] := by
  rw [followers]
  rw [if_neg (by omega), if_pos hhigh]

/-- The ranges after the first byte of three. -/
theorem followers_three {first : Nat} (hlow : 0xE0 ≤ first) (hhigh : first < 0xF0) :
    followers first =
      [(if first = 0xE0 then 0xA0 else 0x80, if first = 0xED then 0x9F else 0xBF),
        (0x80, 0xBF)] := by
  rw [followers]
  rw [if_neg (by omega), if_neg (by omega)]
  by_cases hfirst : first = 0xE0
  · rw [if_pos hfirst, if_pos hfirst, if_neg (by omega)]
  · by_cases hlast : first = 0xED
    · rw [if_neg hfirst, if_pos hlast, if_neg hfirst, if_pos hlast]
    · rw [if_neg hfirst, if_neg hlast, if_pos hhigh, if_neg hfirst, if_neg hlast]

/-- The ranges after the first byte of four. -/
theorem followers_four {first : Nat} (hlow : 0xF0 ≤ first) (hhigh : first ≤ 0xF4) :
    followers first =
      [(if first = 0xF0 then 0x90 else 0x80, if first = 0xF4 then 0x8F else 0xBF), (0x80, 0xBF),
        (0x80, 0xBF)] := by
  rw [followers]
  rw [if_neg (by omega), if_neg (by omega), if_neg (by omega), if_neg (by omega),
    if_neg (by omega)]
  by_cases hfirst : first = 0xF0
  · rw [if_pos hfirst, if_pos hfirst, if_neg (by omega)]
  · by_cases hlast : first = 0xF4
    · rw [if_neg hfirst, if_neg (by omega), if_pos hlast, if_neg hfirst, if_pos hlast]
    · rw [if_neg hfirst, if_pos (by omega), if_neg hfirst, if_neg hlast]

section

variable {n : Nat} (rest : List UInt8)

theorem chars_one (hn : n ≤ 0x7F) :
    chars (UInt8.ofNat n :: rest) = some (Char.ofNat n) :: chars rest := by
  have hbyte : (UInt8.ofNat n).toNat = n := UInt8.toNat_ofNat_of_lt' (show n < 256 by omega)
  rw [chars]
  simp only [hbyte]
  rw [if_pos (by omega)]

theorem chars_two (hlow : 0x7F < n) (hhigh : n ≤ 0x7FF) :
    chars (UInt8.ofNat (n / 64 % 32 + 192) :: UInt8.ofNat (n % 64 + 128) :: rest) =
      some (Char.ofNat n) :: chars rest := by
  refine chars_cons (by omega) (by omega) (followers_two (by omega) (by omega))
    (List.cons_ne_nil _ _) ?_
  rw [follow_cons _ (by omega) (by omega) (by omega), follow, leading, if_pos (by omega)]
  refine congrArg (fun m => (some m, rest)) ?_
  omega

theorem chars_three (hlow : 0x7FF < n) (hhigh : n ≤ 0xFFFF)
    (hwhole : n < 0xD800 ∨ 0xDFFF < n) :
    chars (UInt8.ofNat (n / 4096 % 16 + 224) :: UInt8.ofNat (n / 64 % 64 + 128) ::
      UInt8.ofNat (n % 64 + 128) :: rest) = some (Char.ofNat n) :: chars rest := by
  refine chars_cons (by omega) (by omega) (followers_three (by omega) (by omega))
    (List.cons_ne_nil _ _) ?_
  -- The second byte is in the range that leaves out what fewer bytes spell, and half pairs.
  rw [follow_cons _ (by omega) (by split <;> omega) (by split <;> omega),
    follow_cons _ (by omega) (by omega) (by omega), follow, leading, if_neg (by omega),
    if_pos (by omega)]
  refine congrArg (fun m => (some m, rest)) ?_
  omega

theorem chars_four (hlow : 0xFFFF < n) (hhigh : n < 0x110000) :
    chars (UInt8.ofNat (n / 262144 % 8 + 240) :: UInt8.ofNat (n / 4096 % 64 + 128) ::
      UInt8.ofNat (n / 64 % 64 + 128) :: UInt8.ofNat (n % 64 + 128) :: rest) =
        some (Char.ofNat n) :: chars rest := by
  refine chars_cons (by omega) (by omega) (followers_four (by omega) (by omega))
    (List.cons_ne_nil _ _) ?_
  rw [follow_cons _ (by omega) (by split <;> omega) (by split <;> omega),
    follow_cons _ (by omega) (by omega) (by omega),
    follow_cons _ (by omega) (by omega) (by omega), follow, leading, if_neg (by omega),
    if_neg (by omega)]
  refine congrArg (fun m => (some m, rest)) ?_
  omega

/-- The bytes of a character are read as the character, whatever comes after them. -/
theorem chars_utf8EncodeChar (c : Char) :
    chars (String.utf8EncodeChar c ++ rest) = some c :: chars rest := by
  have hchar : c.val.toNat < 0xD800 ∨ (0xDFFF < c.val.toNat ∧ c.val.toNat < 0x110000) :=
    Text.toNat_char c
  have hvalue : Char.ofNat c.val.toNat = c := Char.ofNat_toNat c
  unfold String.utf8EncodeChar
  simp only
  split
  · rename_i hone
    rw [List.singleton_append, chars_one rest hone, hvalue]
  · split
    · rename_i hone htwo
      exact (chars_two rest (by omega) htwo).trans (by rw [hvalue])
    · split
      · rename_i htwo hthree
        exact (chars_three rest (by omega) hthree (by omega)).trans (by rw [hvalue])
      · rename_i hthree
        exact (chars_four rest (by omega) (by omega)).trans (by rw [hvalue])

end

theorem chars_flatMap (cs : List Char) :
    chars (cs.flatMap String.utf8EncodeChar) = cs.map some := by
  induction cs with
  | nil => rw [List.flatMap_nil, chars, List.map_nil]
  | cons c cs ih => rw [List.flatMap_cons, chars_utf8EncodeChar, ih, List.map_cons]

/-- A text of whole characters is read back from its bytes. -/
theorem decode_encode (s : String) : decode (encode (Text.ofScalars s)) = Text.ofScalars s := by
  unfold decode encode
  rw [Text.shown_ofScalars, chars_flatMap, List.map_map]
  have hchars : s.toList.map ((·.getD Text.replacement) ∘ some) = s.toList := List.map_id _
  rw [hchars, String.ofList_toList]

end PageExtract.Utf8
