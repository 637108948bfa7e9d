/-
Numbers as documents show them.

A text counts as a number if its digits stand in groups, with a point or a comma before every group
but the first, perhaps a sign in front and a percent sign at the end. A numeral has no commas, no
percent sign and one point at most, so only some of these texts are read as numbers:

* `ShownNumber`, `ShownNumber.chars` — such texts, part by part;
* `exists_of_isDigitGroups`, `isNumericText_iff` — no other texts count as numbers;
* `ShownNumber.decimal?`, `ShownNumber.value?` — what a numeral among them is read as;
* `ShownNumber.numberOf?_eq` — the others are not read;
* `extract_selected_number` — the numbers to the right of an anchor, as fields and sums read them.
-/
import PageExtract.Proofs.Execution.Outcome
import PageExtract.Proofs.Number.Literal
import PageExtract.Proofs.Text.Trim
import PageExtract.Proofs.Value.Reread

namespace PageExtract

/-! ### Parts of shown numbers -/

/-- Digits, at least one. -/
structure DigitRun where
  chars : List Char
  ne_nil : chars ≠ []
  isDigit : ∀ c ∈ chars, c.isDigit = true

/-- What stands before a group of digits. -/
inductive GroupMark where
  | point
  | comma
deriving DecidableEq, Repr

/-- How a mark is written. -/
def GroupMark.char : GroupMark → Char
  | point => '.'
  | comma => ','

/-- A number as a document shows it. -/
structure ShownNumber where
  /-- The sign in front, if there is one; `true` says that it is a minus. -/
  sign : Option Bool
  whole : DigitRun
  groups : List (GroupMark × DigitRun)
  percent : Bool

namespace ShownNumber

open Numeral

/-- How a sign is written. -/
def signChars : Option Bool → List Char
  | none => []
  | some true => ['-']
  | some false => ['+']

/-- How the groups after the first one, and a percent sign, are written. -/
def groupChars (gs : List (GroupMark × DigitRun)) (percent : Bool) : List Char :=
  gs.flatMap (fun g => g.1.char :: g.2.chars) ++ if percent then ['%'] else []

/-- How a shown number is written. -/
def chars (t : ShownNumber) : List Char :=
  signChars t.sign ++ (t.whole.chars ++ groupChars t.groups t.percent)

@[simp] theorem groupChars_nil (percent : Bool) :
    groupChars [] percent = if percent then ['%'] else [] := rfl

theorem groupChars_cons (mark : GroupMark) (ds : DigitRun) (gs : List (GroupMark × DigitRun))
    (percent : Bool) :
    groupChars ((mark, ds) :: gs) percent = mark.char :: (ds.chars ++ groupChars gs percent) := by
  rw [groupChars, List.flatMap_cons, List.append_assoc, List.cons_append]
  rfl

/-- Neither a digit nor an exponent follows a group of digits. -/
theorem head_groupChars (gs : List (GroupMark × DigitRun)) (percent : Bool) :
    ∀ c ∈ (groupChars gs percent).head?, c.isDigit = false ∧ isExponentMark c = false := by
  cases gs with
  | nil =>
    cases percent with
    | false => simp
    | true =>
      rintro c ⟨⟩
      decide
  | cons g gs =>
    obtain ⟨mark, ds⟩ := g
    rw [groupChars_cons]
    rintro c ⟨⟩
    cases mark <;> exact ⟨rfl, rfl⟩

/-- The sign is split off whatever digits follow it. -/
theorem sign_signChars (s : Option Bool) (ds : DigitRun) (rest : List Char) :
    Numeral.sign (signChars s ++ (ds.chars ++ rest)) = (s == some true, ds.chars ++ rest) := by
  obtain ⟨d, more, hds⟩ := List.exists_cons_of_ne_nil ds.ne_nil
  match s with
  | none =>
    have hd : d.isDigit = true := ds.isDigit d (by simp [hds])
    rw [hds]
    exact sign_digit hd _
  | some true => rfl
  | some false => rfl

theorem exists_signChars (cs : List Char) : ∃ s, cs = signChars s ++ (Numeral.sign cs).2 := by
  unfold Numeral.sign
  split
  · exact ⟨some true, rfl⟩
  · exact ⟨some false, rfl⟩
  · exact ⟨none, rfl⟩

end ShownNumber

/-! ### Texts that count as numbers -/

open ShownNumber

theorem isDigitGroups_digits {ds : List Char} (hds : ∀ c ∈ ds, c.isDigit = true) (inGroup : Bool)
    (rest : List Char) :
    isDigitGroups inGroup (ds ++ rest) = isDigitGroups (inGroup || !ds.isEmpty) rest := by
  induction ds generalizing inGroup with
  | nil => simp
  | cons d ds ih =>
    have hd : d.isDigit = true := hds d List.mem_cons_self
    have hstep : isDigitGroups inGroup (d :: (ds ++ rest)) = isDigitGroups true (ds ++ rest) := by
      rw [isDigitGroups.eq_3 _ _ _ (by rintro rfl; cases hd), if_pos hd]
    rw [List.cons_append, hstep, ih (fun c hc => hds c (List.mem_cons_of_mem d hc))]
    simp

theorem isDigitGroups_groupChars (gs : List (GroupMark × DigitRun)) (percent : Bool) :
    isDigitGroups true (groupChars gs percent) = true := by
  induction gs with
  | nil => cases percent <;> rfl
  | cons g gs ih =>
    obtain ⟨mark, ds⟩ := g
    have hrun : isDigitGroups false (ds.chars ++ groupChars gs percent) = true := by
      rw [isDigitGroups_digits ds.isDigit]
      simpa [List.isEmpty_eq_false_iff.2 ds.ne_nil] using ih
    rw [groupChars_cons]
    cases mark <;> simpa [isDigitGroups, GroupMark.char] using hrun

/-- What is accepted after some digits, or before any, is more digits and then groups. -/
theorem exists_of_isDigitGroups {inGroup : Bool} {cs : List Char}
    (h : isDigitGroups inGroup cs = true) :
    ∃ ds gs percent, (∀ c ∈ ds, c.isDigit = true) ∧ (inGroup = true ∨ ds ≠ []) ∧
      cs = ds ++ groupChars gs percent := by
  fun_induction isDigitGroups inGroup cs with
  | case1 inGroup => exact ⟨[], [], false, by simp, .inl h, rfl⟩
  | case2 inGroup => exact ⟨[], [], true, by simp, .inl h, rfl⟩
  | case3 inGroup c cs _ hc ih =>
    obtain ⟨ds, gs, percent, hds, -, rfl⟩ := ih h
    exact ⟨c :: ds, gs, percent, List.forall_mem_cons.2 ⟨hc, hds⟩, .inr (List.cons_ne_nil _ _), rfl⟩
  | case4 inGroup c cs _ _ hmark ih =>
    obtain ⟨hgroup, hrest⟩ := Bool.and_eq_true_iff.1 h
    obtain ⟨ds, gs, percent, hds, hne, rfl⟩ := ih hrest
    -- After a mark at least one digit must follow, which makes the next group.
    have hne' : ds ≠ [] := hne.resolve_left Bool.false_ne_true
    obtain ⟨mark, rfl⟩ : ∃ mark : GroupMark, c = mark.char := by
      obtain h | h := Bool.or_eq_true_iff.1 hmark
      · exact ⟨.point, beq_iff_eq.1 h⟩
      · exact ⟨.comma, beq_iff_eq.1 h⟩
    exact ⟨[], (mark, ⟨ds, hne', hds⟩) :: gs, percent, by simp, .inl hgroup,
      (groupChars_cons mark ⟨ds, hne', hds⟩ gs percent).symm⟩
  | case5 => cases h

/-- The texts that count as numbers are the shown numbers, blank characters around them aside. -/
theorem isNumericText_iff {s : String} :
    isNumericText s = true ↔ ∃ t : ShownNumber, Text.trimChars s.toList = t.chars := by
  unfold isNumericText
  constructor
  · intro h
    obtain ⟨ds, gs, percent, hds, hne, hrest⟩ := exists_of_isDigitGroups h
    obtain ⟨sgn, hsign⟩ := exists_signChars (Text.trimChars s.toList)
    refine ⟨⟨sgn, ⟨ds, hne.resolve_left Bool.false_ne_true, hds⟩, gs, percent⟩, ?_⟩
    rw [hsign, hrest]
    rfl
  · rintro ⟨t, ht⟩
    rw [ht, chars, sign_signChars, isDigitGroups_digits t.whole.isDigit]
    simpa [List.isEmpty_eq_false_iff.2 t.whole.ne_nil] using
      isDigitGroups_groupChars t.groups t.percent

/-! ### Numerals among them -/

/-- A text is read as a number if nothing is left when a numeral has been cut off behind its sign. -/
theorem Transform.numberOf?_of_scan {s : String} {negative : Bool} {body lexeme rest : List Char}
    (hsign : Numeral.sign (Text.trimChars s.toList) = (negative, body))
    (hscan : Numeral.scan? body = some (lexeme, rest)) :
    numberOf? s = if rest.isEmpty then
      some (if negative then -(Numeral.read body).toFloat else (Numeral.read body).toFloat)
    else none := by
  have hform : Numeral.isSignedNumeral (Text.trimChars s.toList) = rest.isEmpty := by
    unfold Numeral.isSignedNumeral
    rw [hsign, hscan]
    cases rest <;> rfl
  rw [numberOf?, hform, Numeral.toFloat, hsign]

namespace ShownNumber

open Numeral

variable (t : ShownNumber)

/-- The decimal that a shown number writes if it is a numeral: without a percent sign, with one more
group at most, and that after a point. -/
def decimal? : Option Decimal :=
  match t.percent, t.groups with
  | false, [] => some ⟨natOfDigits t.whole.chars, 0⟩
  | false, [(.point, ds)] => some ⟨natOfDigits (t.whole.chars ++ ds.chars), -ds.chars.length⟩
  | _, _ => none

/-- The double nearest to that decimal, with the sign. -/
def value? : Option Float :=
  t.decimal?.map fun d => if t.sign == some true then -d.toFloat else d.toFloat

theorem value?_eq_none_iff :
    t.value? = none ↔
      t.percent = true ∨ (∃ g ∈ t.groups, g.1 = .comma) ∨ 1 < t.groups.length := by
  obtain ⟨s, whole, groups, percent⟩ := t
  rw [value?, Option.map_eq_none_iff]
  match percent, groups with
  | true, _ => simp [decimal?]
  | false, [] => simp [decimal?]
  | false, [(.point, _)] => simp [decimal?]
  | false, [(.comma, _)] => simp [decimal?]
  | false, _ :: _ :: _ => simp [decimal?]

/-- A shown number is read if it is a numeral, and then as the number that it writes. -/
theorem numberOf?_eq {s : String} (hs : Text.trimChars s.toList = t.chars) :
    Transform.numberOf? s = t.value? := by
  obtain ⟨sgn, whole, groups, percent⟩ := t
  have hsign : Numeral.sign (Text.trimChars s.toList) =
      (sgn == some true, whole.chars ++ groupChars groups percent) := by
    rw [hs, chars, sign_signChars]
  have hended : ∀ {c : Char}, c = ',' ∨ c = '%' → ∀ cs, Ended (c :: cs) := by
    rintro c hc cs _ ⟨⟩
    obtain rfl | rfl := hc <;> decide
  -- The first mark decides how much is cut off: a point is, with the digits after it.
  match groups with
  | [] =>
    cases percent with
    | false =>
      rw [groupChars_nil, if_neg Bool.false_ne_true] at hsign
      have hnothing : Ended [] := by simp [Ended]
      have hscan := scan?_whole whole.isDigit whole.ne_nil hnothing
      rw [Transform.numberOf?_of_scan hsign hscan, List.append_nil,
        read_whole whole.isDigit whole.ne_nil]
      rfl
    | true =>
      have hscan := scan?_whole whole.isDigit whole.ne_nil (hended (.inr rfl) [])
      exact Transform.numberOf?_of_scan hsign hscan
  | (.comma, ds) :: gs =>
    rw [groupChars_cons, GroupMark.char] at hsign
    have hscan := scan?_whole whole.isDigit whole.ne_nil
      (hended (.inl rfl) (ds.chars ++ groupChars gs percent))
    rw [Transform.numberOf?_of_scan hsign hscan]
    cases percent <;> rfl
  | (.point, ds) :: gs =>
    rw [groupChars_cons, GroupMark.char] at hsign
    have hscan := scan?_pointed whole.isDigit whole.ne_nil ds.isDigit (head_groupChars gs percent)
    rw [Transform.numberOf?_of_scan hsign hscan]
    cases gs with
    | nil =>
      cases percent with
      | false =>
        rw [groupChars_nil, if_neg Bool.false_ne_true, List.append_nil,
          read_pointed whole.isDigit whole.ne_nil ds.isDigit ds.ne_nil]
        rfl
      | true => rfl
    | cons g gs => cases percent <;> rfl

end ShownNumber

/-! ### Numbers to the right of an anchor -/

theorem Transform.numberOf?_trim (s : String) : numberOf? (Text.trim s) = numberOf? s := by
  rw [numberOf?, numberOf?, Text.trimChars_trim]

namespace Extraction

/-- The blocks to the right of an anchor that count as numbers. -/
def numbersRightOf (input : ExtractionInput) (anchor : Block Float) : List (Block Float) :=
  (rightOf input anchor).filter fun c => isNumericText c.text

variable {e : Extraction} {input : ExtractionInput} {anchor : String} {i : Nat}
  {value : Extracted Float}

/-- A field that takes a number to the right of an anchor finds the text of a block there. -/
theorem exists_of_raw_anchorRight (hsource : Source.parse? e.source = some (.anchorRight anchor i))
    (hvalue : (e.raw input).value = some value) :
    ∃ start b, Members.get? input.anchors anchor = some start ∧
      (numbersRightOf input start)[i]? = some b ∧ value = oneText (Text.trim b.text) := by
  have hfound : fromAnchor input anchor (fun start =>
      (numbersRightOf input start)[i]?.map fun c => Text.trim c.text) = some value := by
    rw [raw, hsource] at hvalue
    exact hvalue
  obtain ⟨text, htext, rfl⟩ := Option.map_eq_some_iff.1 hfound
  obtain ⟨start, hstart, hblock⟩ := Option.bind_eq_some_iff.1 htext
  obtain ⟨b, hb, rfl⟩ := Option.map_eq_some_iff.1 hblock
  exact ⟨start, b, hstart, hb, rfl⟩

/-- With a transform to a number, the value is what the text of the block is read as, or zero. -/
theorem exists_of_extract_anchorRight
    (hsource : Source.parse? e.source = some (.anchorRight anchor i))
    (htransform : e.transform = some .toFloat) (hvalue : (e.extract input).value = some value) :
    ∃ start b, Members.get? input.anchors anchor = some start ∧
      (numbersRightOf input start)[i]? = some b ∧
      value = .one (.num ((Transform.numberOf? b.text).getD 0.0)) := by
  have hmap : (e.raw input).value.map e.transformed = some value := hvalue
  obtain ⟨found, hraw, rfl⟩ := Option.map_eq_some_iff.1 hmap
  obtain ⟨start, b, hstart, hb, rfl⟩ := exists_of_raw_anchorRight hsource hraw
  refine ⟨start, b, hstart, hb, ?_⟩
  rw [← Transform.numberOf?_trim, transformed, htransform]
  rfl

end Extraction

/-- The texts that count as numbers are the shown numbers. The transform to a number and a sum read
such a text as the number that it writes, unless it has a percent sign, a comma or more than one
point: then they do not read it. So a field that takes a number to the right of an anchor, with that
transform, is the number that the selected block shows if the block shows a numeral, and zero if it
does not. -/
theorem extract_selected_number (s : String) (e : Extraction) (input : ExtractionInput)
    (anchor : String) (i : Nat) (value : Extracted Float) :
    (isNumericText s = true ↔ ∃ t : ShownNumber, Text.trimChars s.toList = t.chars) ∧
    (∀ t : ShownNumber, Text.trimChars s.toList = t.chars →
      Transform.numberOf? s = t.value? ∧ Formula.summand? (some (.str s)) = t.value? ∧
      (t.value? = none ↔
        t.percent = true ∨ (∃ g ∈ t.groups, g.1 = .comma) ∨ 1 < t.groups.length)) ∧
    (Source.parse? e.source = some (.anchorRight anchor i) → e.transform = some .toFloat →
      (e.extract input).value = some value →
      ∃ start b, ∃ t : ShownNumber, Members.get? input.anchors anchor = some start ∧
        (Extraction.numbersRightOf input start)[i]? = some b ∧
        Text.trimChars b.text.toList = t.chars ∧ value = .one (.num (t.value?.getD 0.0))) := by
  refine ⟨isNumericText_iff, fun t ht => ⟨t.numberOf?_eq ht, t.numberOf?_eq ht, t.value?_eq_none_iff⟩,
    fun hsource htransform hvalue => ?_⟩
  obtain ⟨start, b, hstart, hb, rfl⟩ :=
    Extraction.exists_of_extract_anchorRight hsource htransform hvalue
  have hnumeric : isNumericText b.text = true :=
    (List.mem_filter.1 (List.mem_of_getElem? hb)).2
  obtain ⟨t, ht⟩ := isNumericText_iff.1 hnumeric
  refine ⟨start, b, t, hstart, hb, ht, ?_⟩
  rw [t.numberOf?_eq ht]

/-- A processor for invoices that takes an amount to the right of their total. -/
def amountSpec : Value Float :=
  .map [("id", .str "invoice"), ("name", .str "Invoice"),
    ("anchors", .list [.map [("name", .str "total"), ("patterns", .list [.str "Total"])]]),
    ("extraction_ops", .list [.map [("field_path", .str "total"),
      ("source", .str "anchor.total.right[0]"), ("transform", .str "to_float")]])]

/-- The field of that processor, with the source of the amount open. -/
def amountField (source : String) : Extraction := ⟨"total", source, some .toFloat⟩

/-- The processor that `amountSpec` holds. -/
def amounts : Processor :=
  { invoice with
    extractions := [amountField "anchor.total.right[0]"]
    calculations := [] }

/-- A page with an amount of more than a thousand, a share and a smaller amount. -/
def amountPage : Layout Float :=
  let shown (id text : String) (x : Float) : Block Float :=
    ⟨id, text, ⟨x, 0.8, x + 0.1, 0.82, 1.0⟩, 99.0, none, false, .number⟩
  onePage [totalBlock, shown "b2" "1,204" 0.3, shown "b3" "45%" 0.45, shown "b4" " -3.50" 0.6]

/-- What is extracted from that page. -/
def amountInput : ExtractionInput := amounts.inputFor amountPage .standard [("total", totalBlock)]

/-- The smaller amount. -/
def smallAmount : ShownNumber :=
  ⟨some true, ⟨['3'], by decide, by simp⟩, [(.point, ⟨['5', '0'], by decide, by simp⟩)], false⟩

/-- The third number on that page is read as the amount that it shows. -/
theorem extract_selected_number_amounts :
    Transform.numberOf? " -3.50" = smallAmount.value? ∧ smallAmount.value? = some (-3.5) ∧
    ∃ start b, ∃ t : ShownNumber, Members.get? amountInput.anchors "total" = some start ∧
      (Extraction.numbersRightOf amountInput start)[2]? = some b ∧
      Text.trimChars b.text.toList = t.chars ∧ t.value?.getD 0.0 = -3.5 := by
  obtain ⟨-, hread, hextract⟩ := extract_selected_number " -3.50"
    (amountField "anchor.total.right[2]") amountInput "total" 2 (.one (.num (-3.5)))
  obtain ⟨start, b, t, hstart, hb, ht, hshown⟩ :=
    hextract (by decide) rfl (by decide +kernel)
  refine ⟨(hread smallAmount (by decide)).1, by decide +kernel, start, b, t, hstart, hb, ht, ?_⟩
  exact (Scalar.num.inj (Extracted.one.inj hshown)).symm

/-- The first number on that page is selected as a number, but neither the field nor a sum reads it.
The result is good, has no warnings and has zero for the amount. -/
theorem execute_misreads_amount :
    Processor.ofInput "" (some amountSpec) = .ok amounts ∧ isNumericText "1,204" = true ∧
    Transform.numberOf? "1,204" = none ∧ Formula.summand? (some (.str "1,204")) = none ∧
    ∃ result, (execute .standard amountPage amounts).value = .ok result ∧
      result.status = .ok ∧ result.warnings = [] ∧
      (Value.map result.data).numbers = [0.0] := by
  have hresult : ((execute .standard amountPage amounts).value.toOption.any fun result =>
      result.status = .ok ∧ result.warnings = [] ∧
        (Value.map result.data).numbers = [0.0]) = true := by
    decide +kernel
  refine ⟨rfl, by decide, by decide, by decide, ?_⟩
  cases hrun : (execute .standard amountPage amounts).value with
  | error error =>
    rw [hrun] at hresult
    cases hresult
  | ok result =>
    rw [hrun] at hresult
    exact ⟨result, rfl, of_decide_eq_true hresult⟩

end PageExtract
