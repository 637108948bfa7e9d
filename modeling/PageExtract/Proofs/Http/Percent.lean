/-
Texts are read back from their encodings.

* `bytes?_byteChars`, `bytes?_encodeChar` — a byte and a character are read back from what is
  written for them, whatever comes after;
* `mem_encode` — an encoding holds kept characters, percent signs and digits;
* `decode?_encode` — a text of whole characters is read back from its encoding.
-/
import PageExtract.Http.Percent
import PageExtract.Proofs.Bytes.Utf8

namespace PageExtract.Percent

/-- The hexadecimal digits, in upper case. -/
def hexDigits : List Char := "0123456789ABCDEF".toList

theorem hexValue?_hexDigit {n : Nat} (hn : n < 16) : hexValue? (hexDigit n) = some n := by
  have hall : ∀ m < 16, hexValue? (hexDigit m) = some m := by decide
  exact hall n hn

theorem hexDigit_mem {n : Nat} (hn : n < 16) : hexDigit n ∈ hexDigits := by
  have hall : ∀ m < 16, hexDigit m ∈ hexDigits := by decide
  exact hall n hn

/-- A byte is read back from its percent sign and its digits. -/
theorem bytes?_byteChars (b : UInt8) (cs : List Char) :
    bytes? (byteChars b ++ cs) = (bytes? cs).map (b :: ·) := by
  have hb : b.toNat < 256 := b.toNat_lt
  have hhigh : hexValue? (hexDigit (b.toNat / 16)) = some (b.toNat / 16) :=
    hexValue?_hexDigit (by omega)
  have hlow : hexValue? (hexDigit (b.toNat % 16)) = some (b.toNat % 16) :=
    hexValue?_hexDigit (by omega)
  have hbyte : UInt8.ofNat (16 * (b.toNat / 16) + b.toNat % 16) = b := by
    rw [Nat.div_add_mod, UInt8.ofNat_toNat]
  simp only [byteChars, List.cons_append, List.nil_append, bytes?, hhigh, hlow]
  cases bytes? cs with
  | none => rfl
  | some bs => exact congrArg (fun c => some (c :: bs)) hbyte

theorem bytes?_flatMap_byteChars (bs : List UInt8) (cs : List Char) :
    bytes? (bs.flatMap byteChars ++ cs) = (bytes? cs).map (bs ++ ·) := by
  induction bs with
  | nil => exact Option.map_id'.symm
  | cons b bs ih =>
    rw [List.flatMap_cons, List.append_assoc, bytes?_byteChars, ih, Option.map_map]
    rfl

/-- A character other than the percent sign stands for its own bytes. -/
theorem bytes?_cons {c : Char} (hc : c ≠ '%') (cs : List Char) :
    bytes? (c :: cs) = (bytes? cs).map (Utf8.encodeChar c ++ ·) := by
  rw [bytes?.eq_def]
  split
  · rename_i heq
    exact absurd (List.cons.inj heq).1 hc
  · rename_i heq
    cases heq
  · rename_i heq
    obtain ⟨rfl, rfl⟩ := List.cons.inj heq
    rw [if_neg hc]
    rfl

section

variable {keep : Char → Bool}

/-- The bytes of a character are read back, whether or not it is kept. -/
theorem bytes?_encodeChar (hkeep : keep '%' = false) (c : Char) (cs : List Char) :
    bytes? (encodeChar keep c ++ cs) = (bytes? cs).map (Utf8.encodeChar c ++ ·) := by
  unfold encodeChar
  split
  · rename_i hc
    have hne : c ≠ '%' := by
      rintro rfl
      exact absurd hc (by simp [hkeep])
    exact bytes?_cons hne cs
  · exact bytes?_flatMap_byteChars _ cs

theorem bytes?_flatMap_encodeChar (hkeep : keep '%' = false) (cs : List Char) :
    bytes? (cs.flatMap (encodeChar keep)) = some (cs.flatMap Utf8.encodeChar) := by
  induction cs with
  | nil => rfl
  | cons c cs ih => rw [List.flatMap_cons, bytes?_encodeChar hkeep, ih]; rfl

/-- The characters of an encoding are kept ones, percent signs and digits. -/
theorem mem_encode {s : String} {c : Char} (hc : c ∈ (encode keep s).toList) :
    keep c = true ∨ c = '%' ∨ c ∈ hexDigits := by
  rw [encode, String.toList_ofList, List.mem_flatMap] at hc
  obtain ⟨d, -, hc⟩ := hc
  unfold encodeChar at hc
  split at hc
  · rename_i hd
    exact .inl (List.mem_singleton.1 hc ▸ hd)
  · obtain ⟨b, -, hc⟩ := List.mem_flatMap.1 hc
    have hb : b.toNat < 256 := b.toNat_lt
    simp only [byteChars, List.mem_cons, List.not_mem_nil, or_false] at hc
    obtain rfl | rfl | rfl := hc
    · exact .inr (.inl rfl)
    · exact .inr (.inr (hexDigit_mem (by omega)))
    · exact .inr (.inr (hexDigit_mem (by omega)))

/-- A text of whole characters is read back from its encoding. -/
theorem decode?_encode (hkeep : keep '%' = false) {s : String} (hs : s.any Text.isHalf = false) :
    decode? (encode keep s) = some s := by
  rw [Text.any_isHalf] at hs
  have hbytes : s.toList.flatMap Utf8.encodeChar = s.toList.flatMap String.utf8EncodeChar := by
    refine List.flatMap_congr fun c hc => ?_
    rw [Utf8.encodeChar, if_neg (by simpa using List.any_eq_false.1 hs c hc)]
  have hchars : (s.toList.map some).mapM id = some s.toList := by
    rw [List.mapM_map]
    exact (List.mapM_pure (m := Option) (f := id)).trans (congrArg some (List.map_id _))
  rw [decode?, encode, String.toList_ofList, bytes?_flatMap_encodeChar hkeep, Option.bind_some,
    hbytes, Utf8.decode?, Utf8.chars_flatMap, hchars, Option.map_some, String.ofList_toList,
    Text.ofScalars_of_whole hs]

end

end PageExtract.Percent
