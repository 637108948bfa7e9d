/-
Names of hosts in ASCII.

A name is brought to lower case, wide forms become plain ones, and characters that are not seen are
left out. Joiners stand only where scripts need them. A label that is still beyond ASCII is written
in Punycode after `xn--`. A label that is written so from the start has to be what would be written
for the label that it stands for.

* `Domain.plain?` : what a character counts as;
* `Domain.label?` : a label in ASCII;
* `Domain.toAscii?` : a name in ASCII.
-/
import PageExtract.Address.Punycode
import PageExtract.Text.Case
import PageExtract.Text.Split

namespace PageExtract.Domain

/-- Ranges of the characters beyond ASCII that are left out, ascending. -/
def unseenRuns : List (Nat × Nat) := [
    (0xAD, 0xAD), (0x34F, 0x34F), (0x115F, 0x1160), (0x17B4, 0x17B5), (0x180B, 0x180F),
    (0x200B, 0x200B), (0x2060, 0x2064), (0x206A, 0x206F), (0x3164, 0x3164), (0xFE00, 0xFE0F),
    (0xFEFF, 0xFEFF), (0xFFA0, 0xFFA0), (0x1BCA0, 0x1BCA3), (0x1D173, 0x1D17A),
    (0xE0100, 0xE01EF) ]

/-- Ranges of the characters beyond ASCII that no name holds: controls, spaces, marks that stand
after a space, marks that are written with delimiters, and private characters. -/
def barredRuns : List (Nat × Nat) := [
    (0x80, 0xA0), (0xA8, 0xA8), (0xAF, 0xAF), (0xB4, 0xB4), (0xB8, 0xB8), (0x2D8, 0x2DD),
    (0x37A, 0x37A), (0x384, 0x385), (0x600, 0x605), (0x61C, 0x61C), (0x6DD, 0x6DD),
    (0x70F, 0x70F), (0x890, 0x891), (0x8E2, 0x8E2), (0x1680, 0x1680), (0x1FBD, 0x1FBD),
    (0x1FBF, 0x1FC1), (0x1FCD, 0x1FCF), (0x1FDD, 0x1FDF), (0x1FED, 0x1FEE), (0x1FFD, 0x1FFE),
    (0x2000, 0x200A), (0x200E, 0x200F), (0x2017, 0x2017), (0x2024, 0x2026), (0x2028, 0x202F),
    (0x203E, 0x203E), (0x2047, 0x2049), (0x205F, 0x205F), (0x2066, 0x2069), (0x2100, 0x2101),
    (0x2105, 0x2106), (0x2488, 0x249B), (0x2A74, 0x2A74), (0x2FF0, 0x3000), (0x309B, 0x309C),
    (0x31EF, 0x31EF), (0x33C2, 0x33C2), (0x33C7, 0x33C7), (0x33D8, 0x33D8), (0xE000, 0xF8FF),
    (0xFC5E, 0xFC63), (0xFDD0, 0xFDEF), (0xFDFA, 0xFDFB), (0xFE12, 0xFE13), (0xFE16, 0xFE16),
    (0xFE19, 0xFE19), (0xFE30, 0xFE30), (0xFE47, 0xFE4C), (0xFE52, 0xFE52), (0xFE55, 0xFE56),
    (0xFE5F, 0xFE5F), (0xFE64, 0xFE65), (0xFE68, 0xFE68), (0xFE6A, 0xFE6B), (0xFE70, 0xFE70),
    (0xFE72, 0xFE72), (0xFE74, 0xFE74), (0xFE76, 0xFE76), (0xFE78, 0xFE78), (0xFE7A, 0xFE7A),
    (0xFE7C, 0xFE7C), (0xFE7E, 0xFE7E), (0xFFE3, 0xFFE3), (0xFFF9, 0xFFFF), (0x110BD, 0x110BD),
    (0x110CD, 0x110CD), (0x13430, 0x1343F), (0x1F100, 0x1F100), (0xE0001, 0xE007F),
    (0xF0000, 0x10FFFF) ]

/-- Ranges of the marks that take the vowel from a letter, ascending. -/
def vowelKillerRuns : List (Nat × Nat) := [
    (0x94D, 0x94D), (0x9CD, 0x9CD), (0xA4D, 0xA4D), (0xACD, 0xACD), (0xB4D, 0xB4D),
    (0xBCD, 0xBCD), (0xC4D, 0xC4D), (0xCCD, 0xCCD), (0xD3B, 0xD3C), (0xD4D, 0xD4D),
    (0xDCA, 0xDCA), (0xE3A, 0xE3A), (0xEBA, 0xEBA), (0xF84, 0xF84), (0x1039, 0x103A),
    (0x1714, 0x1715), (0x1734, 0x1734), (0x17D2, 0x17D2), (0x1A60, 0x1A60), (0x1B44, 0x1B44),
    (0x1BAA, 0x1BAB), (0x1BF2, 0x1BF3), (0x2D7F, 0x2D7F), (0xA806, 0xA806), (0xA82C, 0xA82C),
    (0xA8C4, 0xA8C4), (0xA953, 0xA953), (0xA9C0, 0xA9C0), (0xAAF6, 0xAAF6), (0xABED, 0xABED),
    (0x10A3F, 0x10A3F), (0x11046, 0x11046), (0x11070, 0x11070), (0x1107F, 0x1107F),
    (0x110B9, 0x110B9), (0x11133, 0x11134), (0x111C0, 0x111C0), (0x11235, 0x11235),
    (0x112EA, 0x112EA), (0x1134D, 0x1134D), (0x113CE, 0x113D0), (0x11442, 0x11442),
    (0x114C2, 0x114C2), (0x115BF, 0x115BF), (0x1163F, 0x1163F), (0x116B6, 0x116B6),
    (0x1172B, 0x1172B), (0x11839, 0x11839), (0x1193D, 0x1193E), (0x119E0, 0x119E0),
    (0x11A34, 0x11A34), (0x11A47, 0x11A47), (0x11A99, 0x11A99), (0x11C3F, 0x11C3F),
    (0x11D44, 0x11D45), (0x11D97, 0x11D97), (0x11F41, 0x11F42), (0x1612F, 0x1612F) ]

/-- Ranges of the letters of joined scripts, ascending. -/
def joinedRuns : List (Nat × Nat) := [
    (0x620, 0x65F), (0x66E, 0x6D3), (0x6D5, 0x6DC), (0x6DF, 0x6EF), (0x6FA, 0x6FF),
    (0x710, 0x74A), (0x74D, 0x77F), (0x7CA, 0x7F3), (0x840, 0x85B), (0x860, 0x86A),
    (0x870, 0x887), (0x889, 0x88E), (0x898, 0x8E1), (0x8E3, 0x8FF), (0x1807, 0x1807),
    (0x1820, 0x1878), (0x1885, 0x18AA), (0xA840, 0xA872), (0x10AC0, 0x10AE6),
    (0x1E900, 0x1E94A) ]

/-- Whether every joiner of a label fits where it stands, after the character `before`: it follows
a mark that takes the vowel from a letter, or else it parts two letters of joined scripts. -/
def joinersFit (before : Char) : List Char → Bool
  | [] => true
  | c :: cs =>
    let after := cs.headD ' '
    let parts := Text.inRanges joinedRuns before.toNat && Text.inRanges joinedRuns after.toNat
    let fits := Text.inRanges vowelKillerRuns before.toNat || (c == '\u200c' && parts)
    ((c != '\u200c' && c != '\u200d') || fits) && joinersFit c cs

/-- What a character counts as in a name, if a name can hold it. -/
def plain? (c : Char) : Option (List Char) :=
  let n := c.toNat
  if n < 0x80 then some [c.toLower]
  else if n = 0x3002 ∨ n = 0xFF61 then some ['.']
  else if 0xFF01 ≤ n ∧ n ≤ 0xFF5E then some [(Char.ofNat (n - 0xFEE0)).toLower]
  else if Text.inRanges unseenRuns n then some []
  else if Text.inRanges barredRuns n then none
  else some (Text.lowerChar c)

/-- Whether all characters are ASCII. -/
def isAscii (cs : List Char) : Bool := cs.all fun c => c.toNat < 0x80

/-- What the label begins with that is written in Punycode. -/
def mark : List Char := "xn--".toList

/-- Whether a label beyond ASCII is in the form that is written in Punycode. -/
def isPlain (label : List Char) : Bool := label.all fun c => plain? c == some [c]

/-- A label in ASCII. One that is written in Punycode has to stand for a label in plain form that
is not ASCII. -/
def label? (label : List Char) : Option (List Char) :=
  if mark.isPrefixOf label then
    match Punycode.decode? (label.drop mark.length) with
    | some meant =>
      if isAscii label && !isAscii meant && isPlain meant && joinersFit ' ' meant then some label
      else none
    | none => none
  else if isAscii label then some label
  else if joinersFit ' ' label then some (mark ++ Punycode.encode label)
  else none

/-- The characters that delimit the parts of an address and that no name holds. -/
def delimiters : List Char :=
  ['#', '/', ':', '<', '>', '?', '@', '[', '\\', ']', '^', '|', '%', ' ']

/-- Whether a name in ASCII can hold a character. -/
def isNameChar (c : Char) : Bool := ' ' < c && c < '\x7f' && !delimiters.contains c

/-- A name in ASCII. -/
def toAscii? (name : List Char) : Option (List Char) := do
  let plain := (← name.mapM plain?).flatten
  let labels ← (Text.splitOn '.' plain).mapM label?
  let ascii := ['.'].intercalate labels
  if !ascii.isEmpty && ascii.all isNameChar then some ascii else none

end PageExtract.Domain
