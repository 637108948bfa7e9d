/-
Upper and lower case of text.

A character is mapped by the tables of `CaseTable`; its upper case may be several characters.
Lower case depends on the neighbours in one place: a capital sigma at the end of a word becomes
a final sigma.

* `upper s`, `lower s` : the two mappings of a text;
* `foldUnit n` : the code unit that stands for `n` when case is ignored in pattern matching;
* `length_lowerChars` : lower case keeps the number of characters, a dotted capital I apart.
-/
import PageExtract.Text.CaseTable
import PageExtract.Text.Ranges

namespace PageExtract.Text

/-- The shift of the first run that contains `n`. -/
def shiftOf (runs : List CaseRun) (n : Nat) : Option Int :=
  (runs.find? fun r => r.first ≤ n && n ≤ r.last && (n - r.first) % r.step == 0).map (·.shift)

/-- The code point `n` moved by the shift of its run, if it has one. -/
def mapped (runs : List CaseRun) (n : Nat) : Nat :=
  match shiftOf runs n with
  | some d => (n + d).toNat
  | none => n

/-- The upper case of one character. -/
def upperChar (c : Char) : List Char :=
  let n := c.toNat
  if n < 0x80 then [c.toUpper]
  else match upperSpecial.lookup n with
    | some ns => ns.map Char.ofNat
    | none => [Char.ofNat (mapped upperRuns n)]

/-- The upper case of a text. -/
def upper (s : String) : String := String.ofList (s.toList.flatMap upperChar)

/-- Whether a character is a letter that has case. -/
def isCased (c : Char) : Bool := inRanges casedRuns c.toNat

/-- Whether a character is skipped when the end of a word is looked for. -/
def isIgnorable (c : Char) : Bool := inRanges ignorableRuns c.toNat

/-- Whether the next character that is not skipped is a letter that has case. -/
def casedFollows (cs : List Char) : Bool :=
  match cs.dropWhile isIgnorable with
  | c :: _ => isCased c
  | [] => false

/-- The lower case of one character that does not depend on its neighbours. -/
def lowerChar (c : Char) : List Char :=
  let n := c.toNat
  if n < 0x80 then [c.toLower]
  else if n == 0x130 then ['i', Char.ofNat 0x307]
  else [Char.ofNat (mapped lowerRuns n)]

/-- The lower case of a run of characters; `inWord` says whether the last character before it
that is not skipped is a letter that has case. -/
def lowerChars (inWord : Bool) : List Char → List Char
  | [] => []
  | c :: cs =>
    if c.toNat < 0x80 && !isIgnorable c then c.toLower :: lowerChars c.isAlpha cs
    else
      let inWord' := if isIgnorable c then inWord else isCased c
      if c == 'Σ' then
        (if inWord && !casedFollows cs then 'ς' else 'σ') :: lowerChars inWord' cs
      else lowerChar c ++ lowerChars inWord' cs

/-- The lower case of a text. -/
def lower (s : String) : String := String.ofList (lowerChars false s.toList)

/-- The code unit that stands for `n` when case is ignored: its upper case, where that is a
single unit and does not turn a unit beyond ASCII into an ASCII one. -/
def foldUnit (n : Nat) : Nat :=
  if n < 0x80 then (Char.ofNat n).toUpper.toNat
  else if (upperSpecial.lookup n).isSome then n
  else
    let m := mapped upperRuns n
    if m < 0x80 || 0x10000 ≤ m then n else m

/-- Lower case keeps the number of characters of a text that has no dotted capital I. -/
theorem length_lowerChars (inWord : Bool) (cs : List Char) (h : ∀ c ∈ cs, c.toNat ≠ 0x130) :
    (lowerChars inWord cs).length = cs.length := by
  induction cs generalizing inWord with
  | nil => rfl
  | cons c cs ih =>
    have hc : c.toNat ≠ 0x130 := h c (by simp)
    have ih' := fun b => ih b fun d hd => h d (by simp [hd])
    have one : (lowerChar c).length = 1 := by
      simp only [lowerChar]; split <;> simp [hc]
    simp only [lowerChars]
    split
    · simp [ih']
    · split <;> simp [ih', one, Nat.add_comm]

end PageExtract.Text
