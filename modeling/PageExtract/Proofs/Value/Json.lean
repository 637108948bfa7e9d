/-
JSON text that was written is read back.

Each class of tokens is read back on its own, whatever follows it. A text that is put together from
texts of items or members, with any blank space between the tokens, is then read as the list or the
map of what these texts are read as; so a value is read back from its text, be that written without
spacing or line by line:

* `readUnits_escape`, `readString_quote` — texts between quotation marks;
* `readValue_quote`, `readValue_bracket`, … — which reader a first character leads to;
* `Spells`, `separated` — texts that are read as a value, and several of them in a row;
* `spells_list`, `spells_map` — lists and maps;
* `Value.spells_chars`, `Value.spells_linedChars` — the two ways in which values are written;
* `Value.parse_compact`, `Value.parse_indented` — a value is read from its text.
-/
import Mathlib.Data.List.Forall2
import Mathlib.Tactic.SplitIfs
import PageExtract.Proofs.Text.Units
import PageExtract.Proofs.Value.Proper
import PageExtract.Value.JsonReader

namespace PageExtract

namespace Json

/-! ### Texts -/

theorem basedDigit_hexDigit : ∀ n < 16, Numeral.basedDigit? 16 (hexDigit n) = some n := by
  decide

theorem hex4_hexDigit {a b c d : Nat} (ha : a < 16) (hb : b < 16) (hc : c < 16) (hd : d < 16) :
    hex4? (hexDigit a) (hexDigit b) (hexDigit c) (hexDigit d) =
      some (16 * (16 * (16 * a + b) + c) + d) := by
  simp [hex4?, Numeral.basedNat?, basedDigit_hexDigit, ha, hb, hc, hd]

/-- The escape of a code unit is read as that unit. -/
theorem readUnits_hex {a b c d : Nat} (ha : a < 16) (hb : b < 16) (hc : c < 16) (hd : d < 16)
    (acc : List Nat) (rest : List Char) :
    readUnits? acc ('\\' :: 'u' :: hexDigit a :: hexDigit b :: hexDigit c :: hexDigit d :: rest) =
      readUnits? ((16 * (16 * (16 * a + b) + c) + d) :: acc) rest := by
  rw [readUnits?, hex4_hexDigit ha hb hc hd]

/-- An escape of one letter is read as the character that it stands for. -/
theorem readUnits_short {e c : Char} (he : shortEscape? e = some c) (acc : List Nat)
    (rest : List Char) :
    readUnits? acc ('\\' :: e :: rest) = readUnits? (c.toNat :: acc) rest := by
  rw [readUnits?]
  · rw [he]
  · rintro a b c' d rest' rfl
    cases he

/-- A character that is written as itself is read as its code units. -/
theorem readUnits_plain {c : Char} (hquote : c ≠ '"') (hslash : c ≠ '\\') (hspace : 0x20 ≤ c.toNat)
    (acc : List Nat) (rest : List Char) :
    readUnits? acc (c :: rest) = readUnits? ((Text.charUnits c).reverse ++ acc) rest := by
  have hplain : (decide (c.toNat < 0x20) || c == '\\') = false := by
    simp [hslash, hspace]
  rw [readUnits?]
  · rw [hplain, if_neg Bool.false_ne_true]
  · exact hquote
  · rintro a b c' d rest' rfl
    exact absurd rfl hslash
  · rintro e rest' rfl
    exact absurd rfl hslash

/-- The code unit of a character of the basic plane. -/
theorem charUnits_basic {c : Char} (hc : c.toNat < 0x10000) (acc : List Nat) :
    (Text.charUnits c).reverse ++ acc = c.toNat :: acc := by
  rw [Text.charUnits, if_pos hc]
  rfl

/-- A character between quotation marks is read as its code units. -/
theorem readUnits_escape (c : Char) (acc : List Nat) (rest : List Char) :
    readUnits? acc (escape c ++ rest) = readUnits? ((Text.charUnits c).reverse ++ acc) rest := by
  unfold escape
  split_ifs with hquote hslash hhalf hplain hn hr ht hb hf
  · obtain rfl := beq_iff_eq.1 hquote
    exact readUnits_short rfl acc rest
  · obtain rfl := beq_iff_eq.1 hslash
    exact readUnits_short rfl acc rest
  · -- Half a pair is written by its code unit, which begins with the digit `d`.
    have hrange := (Text.isHalf_iff c).1 hhalf
    have hunits : (Text.charUnits c).reverse ++ acc = (c.toNat - 0x100000) :: acc := by
      rw [Text.charUnits, if_neg (by omega), if_pos hhalf]
      rfl
    have hvalue : 16 * (16 * (16 * 13 + c.toNat / 256 % 16) + c.toNat / 16 % 16) + c.toNat % 16 =
        c.toNat - 0x100000 := by
      omega
    have hcode := readUnits_hex (a := 13) (b := c.toNat / 256 % 16) (c := c.toNat / 16 % 16)
      (d := c.toNat % 16) (by decide) (Nat.mod_lt _ (by decide)) (Nat.mod_lt _ (by decide))
      (Nat.mod_lt _ (by decide)) acc rest
    have hdigit : hexDigit 13 = 'd' := rfl
    rw [hdigit, hvalue] at hcode
    rw [hunits]
    exact hcode
  · exact readUnits_plain (by simpa using hquote) (by simpa using hslash) hplain acc rest
  · obtain rfl := beq_iff_eq.1 hn
    exact readUnits_short rfl acc rest
  · obtain rfl := beq_iff_eq.1 hr
    exact readUnits_short rfl acc rest
  · obtain rfl := beq_iff_eq.1 ht
    exact readUnits_short rfl acc rest
  · have h8 := beq_iff_eq.1 hb
    rw [charUnits_basic (by omega), h8]
    exact readUnits_short (c := Char.ofNat 8) rfl acc rest
  · have h12 := beq_iff_eq.1 hf
    rw [charUnits_basic (by omega), h12]
    exact readUnits_short (c := Char.ofNat 12) rfl acc rest
  · have hvalue : 16 * (16 * (16 * 0 + 0) + c.toNat / 16) + c.toNat % 16 = c.toNat := by omega
    have hcode := readUnits_hex (a := 0) (b := 0) (c := c.toNat / 16) (d := c.toNat % 16)
      (by decide) (by decide) (by omega) (Nat.mod_lt _ (by decide)) acc rest
    have hdigit : hexDigit 0 = '0' := rfl
    rw [hdigit, hvalue] at hcode
    rw [charUnits_basic (by omega)]
    exact hcode

theorem readUnits_escapes (cs : List Char) (acc : List Nat) (rest : List Char) :
    readUnits? acc (cs.flatMap escape ++ rest) =
      readUnits? ((cs.flatMap Text.charUnits).reverse ++ acc) rest := by
  induction cs generalizing acc with
  | nil => rfl
  | cons c cs ih =>
    rw [List.flatMap_cons, List.append_assoc, readUnits_escape, ih, List.flatMap_cons,
      List.reverse_append, List.append_assoc]

/-- A joined text is read back up to its closing quotation mark. -/
theorem readString_quote {s : String} (hs : Text.joined s = s) (rest : List Char) :
    readString? (s.toList.flatMap escape ++ '"' :: rest) = some (s, rest) := by
  have hend : ∀ acc, readUnits? acc ('"' :: rest) = some (acc.reverse, rest) := by
    intro acc
    rw [readUnits?]
  rw [readString?, readUnits_escapes, hend, List.append_nil, List.reverse_reverse]
  exact congrArg (fun t => some (t, rest)) (Text.ofUnits_units hs)

/-! ### White space -/

theorem skip_cons {c : Char} (hc : isSpace c = false) (cs : List Char) : skip (c :: cs) = c :: cs :=
  List.dropWhile_cons_of_neg (by simp [hc])

/-- White space before a token. -/
def Blank (cs : List Char) : Prop := ∀ c ∈ cs, isSpace c = true

theorem blank_nil : Blank [] := List.forall_mem_nil _

theorem blank_space : Blank [' '] := List.forall_mem_singleton.2 rfl

theorem blank_newline (depth : Nat) : Blank (newline depth) := by
  intro c hc
  obtain rfl | hc := List.mem_cons.1 hc
  · rfl
  · rw [List.eq_of_mem_replicate hc]
    rfl

theorem Blank.skip_append {gap : List Char} (hgap : Blank gap) (cs : List Char) :
    skip (gap ++ cs) = skip cs := List.dropWhile_append_of_pos hgap

/-! ### What a first character leads to -/

theorem shorter_of_lt {α : Type} {cs : List Char} {a : α} {rest : List Char}
    (h : rest.length < cs.length) : shorter? cs (a, rest) = some ⟨a, rest, h⟩ := dif_pos h

section

variable {cs tail rest : List Char}

theorem length_lt_of_skip {c : Char} (hcs : skip cs = c :: tail) : tail.length < cs.length := by
  have hle := length_skip_le cs
  rw [hcs, List.length_cons] at hle
  omega

theorem readValue_brackets (hcs : skip cs = '[' :: tail) (htail : skip tail = ']' :: rest) :
    readValue? cs = shorter? cs (.list [], rest) := by
  rw [readValue?]
  split <;> simp_all

theorem readValue_bracket (hcs : skip cs = '[' :: tail) (htail : ∀ r, skip tail ≠ ']' :: r) :
    readValue? cs = (readItems? tail).bind fun r => shorter? cs (.list r.value, r.rest) := by
  rw [readValue?]
  split
  · simp_all
  · rename_i heq
    obtain rfl := (List.cons.inj (heq.symm.trans hcs)).2
    split
    · rename_i hend
      exact absurd hend (htail _)
    · rfl
  · simp_all
  · simp_all

theorem readValue_braces (hcs : skip cs = '\x7b' :: tail) (htail : skip tail = '\x7d' :: rest) :
    readValue? cs = shorter? cs (.map [], rest) := by
  rw [readValue?]
  split <;> simp_all

theorem readValue_brace (hcs : skip cs = '\x7b' :: tail) (htail : ∀ r, skip tail ≠ '\x7d' :: r) :
    readValue? cs = (readMembers? [] tail).bind fun r => shorter? cs (.map r.value, r.rest) := by
  rw [readValue?]
  split
  · simp_all
  · simp_all
  · rename_i heq
    obtain rfl := (List.cons.inj (heq.symm.trans hcs)).2
    split
    · rename_i hend
      exact absurd hend (htail _)
    · rfl
  · simp_all

theorem readValue_other (hquote : ∀ r, skip cs ≠ '"' :: r) (hbracket : ∀ r, skip cs ≠ '[' :: r)
    (hbrace : ∀ r, skip cs ≠ '\x7b' :: r) :
    readValue? cs =
      match readWord? (skip cs) with
      | some p => shorter? cs p
      | none => (readNumber? (skip cs)).bind fun p => (shorter? cs p).map (·.map Value.num) := by
  rw [readValue?]
  split
  · exact absurd ‹_› (hquote _)
  · exact absurd ‹_› (hbracket _)
  · exact absurd ‹_› (hbrace _)
  · cases readWord? (skip cs) <;> rfl

/-- Items up to and including the one that another one follows. -/
theorem readItems_next {v : Value Float} {r : List Char} {h} (hv : readValue? cs = some ⟨v, r, h⟩)
    (hr : skip r = ',' :: tail) :
    readItems? cs = (readItems? tail).bind fun vs => shorter? cs (v :: vs.value, vs.rest) := by
  rw [readItems?, hv]
  simp only [Option.bind_eq_bind, Option.bind_some]
  split
  · rename_i heq
    obtain rfl := (List.cons.inj (heq.symm.trans hr)).2
    rfl
  · simp_all
  · simp_all

theorem readMembers_next {ms : Members (Value Float)} {k : String} {v : Value Float}
    {r r' : List Char} {h h'} (hk : readName? cs = some ⟨k, r', h'⟩)
    (hv : readValue? r' = some ⟨v, r, h⟩) (hr : skip r = ',' :: tail) :
    readMembers? ms cs =
      (readMembers? (Members.set ms k v) tail).bind fun r => shorter? cs (r.value, r.rest) := by
  rw [readMembers?, hk]
  simp only [Option.bind_eq_bind, Option.bind_some, hv]
  split
  · rename_i heq
    obtain rfl := (List.cons.inj (heq.symm.trans hr)).2
    rfl
  · simp_all
  · simp_all

end

/-! ### Spellings -/

/-- A number that is read begins with a digit or a minus. -/
theorem head_of_readNumber {cs : List Char} {p : Float × List Char}
    (h : readNumber? cs = some p) : ∃ c cs', cs = c :: cs' ∧ (c = '-' ∨ c.isDigit = true) := by
  unfold readNumber? at h
  split at h
  · exact ⟨_, _, rfl, .inl rfl⟩
  · cases cs with
    | nil => cases h
    | cons c cs =>
      refine ⟨c, cs, rfl, .inr ?_⟩
      by_contra hc
      have hnone : Numeral.digits (c :: cs) = ([], c :: cs) := by
        simp [Numeral.digits, hc]
      simp [readUnsigned?, hnone] at h

theorem ended_nil : Numeral.Ended [] := nofun

theorem ended_comma (cs : List Char) : Numeral.Ended (',' :: cs) := by
  rintro c ⟨⟩
  decide

/-- White space and a token that is no number end a number. -/
theorem Blank.ended {gap : List Char} (hgap : Blank gap) {c : Char}
    (hc : c.isDigit = false ∧ c ≠ '.' ∧ Numeral.isExponentMark c = false) (cs : List Char) :
    Numeral.Ended (gap ++ c :: cs) := by
  cases gap with
  | nil =>
    rintro c' ⟨⟩
    exact hc
  | cons g gap =>
    rintro c' ⟨⟩
    have hspace := hgap g List.mem_cons_self
    simp only [isSpace, Bool.or_eq_true, beq_iff_eq] at hspace
    obtain ((rfl | rfl) | rfl) | rfl := hspace <;> decide

/-- The first character of a number is none that has another meaning. -/
theorem ne_of_head {c : Char} (hc : c = '-' ∨ c.isDigit = true) {d : Char}
    (hd : d.toNat < 45 ∨ 57 < d.toNat) : c ≠ d := by
  have hrange : 45 ≤ c.toNat ∧ c.toNat ≤ 57 := by
    obtain rfl | hdigit := hc
    · decide
    · simp only [Char.isDigit, ge_iff_le, Bool.and_eq_true, decide_eq_true_eq,
        UInt32.le_iff_toNat_le] at hdigit
      have h0 : 48 ≤ c.toNat := hdigit.1
      have h9 : c.toNat ≤ 57 := hdigit.2
      omega
  rintro rfl
  omega

theorem isSpace_of_head {c : Char} (hc : c = '-' ∨ c.isDigit = true) : isSpace c = false := by
  have hlow : [' ', '\n', '\r', '\t'].all (fun d => d.toNat < 45) = true := by decide
  have hne : ∀ d ∈ [' ', '\n', '\r', '\t'], c ≠ d := fun d hd =>
    ne_of_head hc (.inl (of_decide_eq_true (List.all_eq_true.1 hlow d hd)))
  simpa [isSpace, and_assoc] using hne

/-- A text spells a value: it is read as the value, whatever follows it. It begins with a character
that is neither a space nor a closing bracket. -/
structure Spells (text : List Char) (v : Value Float) : Prop where
  head : ∃ c cs, text = c :: cs ∧ isSpace c = false ∧ c ≠ ']' ∧ c ≠ '\x7d'
  read : ∀ cs rest, Numeral.Ended rest → skip cs = text ++ rest →
    ∃ h, readValue? cs = some ⟨v, rest, h⟩

theorem Spells.skip_append {text : List Char} {v : Value Float} (h : Spells text v)
    (rest : List Char) : skip (text ++ rest) = text ++ rest := by
  obtain ⟨c, cs, rfl, hspace, -⟩ := h.head
  exact skip_cons hspace _

/-- The whole of a text that spells a value is read as that value. -/
theorem Spells.parse {text : List Char} {v : Value Float} (h : Spells text v) :
    Value.parse? (String.ofList text) = some v := by
  have hskip := h.skip_append []
  rw [List.append_nil] at hskip
  have hline : Json.skip (String.ofList text).toList = text ++ [] := by
    rw [String.toList_ofList, hskip, List.append_nil]
  obtain ⟨hlt, hread⟩ := h.read _ [] ended_nil hline
  rw [Value.parse?, hread]
  rfl

/-- Texts in a row, with a comma and a gap between them. -/
def separated (gap : List Char) : List (List Char) → List Char
  | [] => []
  | [text] => text
  | text :: texts => text ++ ',' :: (gap ++ separated gap texts)

theorem separated_cons (gap text : List Char) {texts : List (List Char)} (h : texts ≠ []) :
    separated gap (text :: texts) = text ++ ',' :: (gap ++ separated gap texts) := by
  cases texts with
  | nil => exact absurd rfl h
  | cons t texts => rfl

/-- A text in front of others comes first. -/
theorem head_separated {text : List Char} {c : Char} {cs : List Char} (h : text = c :: cs)
    (gap : List Char) (texts : List (List Char)) :
    ∃ line, separated gap (text :: texts) = c :: line := by
  subst h
  cases texts with
  | nil => exact ⟨_, rfl⟩
  | cons t texts => exact ⟨_, rfl⟩

theorem skip_separated {text : List Char} {v : Value Float} (h : Spells text v) (gap : List Char)
    (texts : List (List Char)) (rest : List Char) :
    skip (separated gap (text :: texts) ++ rest) = separated gap (text :: texts) ++ rest := by
  obtain ⟨c, cs, hhead, hspace, -⟩ := h.head
  obtain ⟨line, hline⟩ := head_separated hhead gap texts
  rw [hline]
  exact skip_cons hspace _

/-! ### Lists -/

section

variable {gap below : List Char} (hgap : Blank gap) (hbelow : Blank below)

include hgap hbelow

/-- Items are read up to and including the closing bracket. -/
theorem readItems_separated {texts : List (List Char)} {vs : List (Value Float)} (hne : vs ≠ [])
    (h : List.Forall₂ Spells texts vs) (cs rest : List Char)
    (hcs : skip cs = separated gap texts ++ (below ++ ']' :: rest)) :
    ∃ h, readItems? cs = some ⟨vs, rest, h⟩ := by
  -- Blanks before an item do not matter, so `cs` is any text that begins with the items after them.
  induction h generalizing cs with
  | nil => exact absurd rfl hne
  | @cons text v texts vs htext htexts ih =>
    cases htexts with
    | nil =>
      obtain ⟨h, hread⟩ := htext.read cs _ (hbelow.ended (by decide) rest) hcs
      have hend : skip (below ++ ']' :: rest) = ']' :: rest := by
        rw [hbelow.skip_append, skip_cons rfl]
      have hlt : rest.length < cs.length := (length_lt_of_skip hend).trans h
      exact ⟨hlt, (readItems_last hread hend).trans (shorter_of_lt hlt)⟩
    | @cons text' v' texts' vs' htext' htexts' =>
      rw [separated_cons gap text (List.cons_ne_nil _ _), List.append_assoc, List.cons_append,
        List.append_assoc] at hcs
      obtain ⟨h, hread⟩ := htext.read cs _ (ended_comma _) hcs
      have hnext := skip_cons (c := ',') rfl
        (gap ++ (separated gap (text' :: texts') ++ (below ++ ']' :: rest)))
      have hskip := (hgap.skip_append _).trans
        (skip_separated htext' gap texts' (below ++ ']' :: rest))
      obtain ⟨h', hrest⟩ := ih (List.cons_ne_nil v' vs') _ hskip
      have hlt : rest.length < cs.length := h'.trans ((length_lt_of_skip hnext).trans h)
      refine ⟨hlt, ?_⟩
      rw [readItems_next hread hnext, hrest]
      exact shorter_of_lt hlt

/-- A list is read from texts of its items. -/
theorem spells_list {texts : List (List Char)} {vs : List (Value Float)}
    (h : List.Forall₂ Spells texts vs) :
    Spells ('[' :: (gap ++ (separated gap texts ++ (below ++ [']'])))) (.list vs) := by
  refine ⟨⟨'[', _, rfl, rfl, by decide, by decide⟩, fun cs rest _ hcs => ?_⟩
  have hline : skip cs = '[' :: (gap ++ (separated gap texts ++ (below ++ ']' :: rest))) := by
    rw [hcs]
    simp
  cases h with
  | nil =>
    have hend : skip (gap ++ (separated gap [] ++ (below ++ ']' :: rest))) = ']' :: rest := by
      rw [hgap.skip_append, separated, List.nil_append, hbelow.skip_append, skip_cons rfl]
    have hlt := (length_lt_of_skip hend).trans (length_lt_of_skip hline)
    exact ⟨hlt, (readValue_brackets hline hend).trans (shorter_of_lt hlt)⟩
  | @cons text v texts vs htext htexts =>
    have htail := (hgap.skip_append _).trans
      (skip_separated htext gap texts (below ++ ']' :: rest))
    obtain ⟨h, hread⟩ := readItems_separated hgap hbelow (List.cons_ne_nil v vs)
      (.cons htext htexts) _ rest htail
    have hlt := h.trans (length_lt_of_skip hline)
    refine ⟨hlt, ?_⟩
    rw [readValue_bracket hline, hread]
    · exact shorter_of_lt hlt
    · intro r hr
      obtain ⟨c, _, hhead, -, hbracket, -⟩ := htext.head
      obtain ⟨line, hfirst⟩ := head_separated hhead gap texts
      rw [htail, hfirst] at hr
      exact hbracket (List.cons.inj hr).1

end

/-! ### Maps -/

/-- The name of a member is read up to and including the colon. -/
theorem readName_quote {k : String} (hk : Text.joined k = k) (cs rest : List Char)
    (hcs : skip cs = quote k ++ ':' :: rest) : ∃ h, readName? cs = some ⟨k, rest, h⟩ := by
  have htext : skip cs = '"' :: (k.toList.flatMap escape ++ '"' :: ':' :: rest) := by
    rw [hcs, quote, hk]
    simp
  have hlt : rest.length < cs.length := by
    have := length_lt_of_skip htext
    simp only [List.length_append, List.length_cons] at this
    omega
  refine ⟨hlt, ?_⟩
  have hcolon := skip_cons (c := ':') rfl rest
  simp only [readName?, htext, readString_quote hk, hcolon]
  exact shorter_of_lt hlt

/-- A text spells a member: a joined name and, after a colon, a text that spells the value. -/
def SpellsMember (text : List Char) (m : String × Value Float) : Prop :=
  ∃ gap value, Blank gap ∧ text = quote m.1 ++ ':' :: (gap ++ value) ∧ Text.joined m.1 = m.1 ∧
    Spells value m.2

theorem SpellsMember.head {text : List Char} {m : String × Value Float} (h : SpellsMember text m) :
    ∃ cs, text = '"' :: cs := by
  obtain ⟨gap, value, -, rfl, -, -⟩ := h
  exact ⟨_, rfl⟩

theorem SpellsMember.skip_separated {text : List Char} {m : String × Value Float}
    (h : SpellsMember text m) (gap : List Char) (texts : List (List Char)) (rest : List Char) :
    skip (separated gap (text :: texts) ++ rest) = separated gap (text :: texts) ++ rest := by
  obtain ⟨cs, hhead⟩ := h.head
  obtain ⟨line, hline⟩ := head_separated hhead gap texts
  rw [hline]
  exact skip_cons rfl _

/-- The name of a member is read, and then its value. -/
theorem SpellsMember.read {text : List Char} {m : String × Value Float} (h : SpellsMember text m)
    {cs rest : List Char} (hrest : Numeral.Ended rest) (hcs : skip cs = text ++ rest) :
    ∃ r h' h'', readName? cs = some ⟨m.1, r, h'⟩ ∧ readValue? r = some ⟨m.2, rest, h''⟩ := by
  obtain ⟨gap, value, hgap, rfl, hname, hvalue⟩ := h
  rw [List.append_assoc, List.cons_append, List.append_assoc] at hcs
  obtain ⟨hlt, hreadName⟩ := readName_quote hname cs _ hcs
  obtain ⟨hlt', hread⟩ := hvalue.read (gap ++ (value ++ rest)) rest hrest (by
    rw [hgap.skip_append, hvalue.skip_append])
  exact ⟨_, hlt, hlt', hreadName, hread⟩

section

variable {gap below : List Char} (hgap : Blank gap) (hbelow : Blank below)

include hgap hbelow

/-- Members are read up to and including the closing brace. -/
theorem readMembers_separated {texts : List (List Char)} {ms : Members (Value Float)}
    (hne : ms ≠ []) (h : List.Forall₂ SpellsMember texts ms) (acc : Members (Value Float))
    (cs rest : List Char)
    (hcs : skip cs = separated gap texts ++ (below ++ '\x7d' :: rest)) :
    ∃ h, readMembers? acc cs = some ⟨Members.merge acc ms, rest, h⟩ := by
  induction h generalizing acc cs with
  | nil => exact absurd rfl hne
  | @cons text m texts ms htext htexts ih =>
    cases htexts with
    | nil =>
      obtain ⟨r, hname, hvalue, hreadName, hread⟩ := htext.read (hbelow.ended (by decide) rest) hcs
      have hend : skip (below ++ '\x7d' :: rest) = '\x7d' :: rest := by
        rw [hbelow.skip_append, skip_cons rfl]
      have hlt : rest.length < cs.length := ((length_lt_of_skip hend).trans hvalue).trans hname
      exact ⟨hlt, (readMembers_last hreadName hread hend).trans (shorter_of_lt hlt)⟩
    | @cons text' m' texts' ms' htext' htexts' =>
      rw [separated_cons gap text (List.cons_ne_nil _ _), List.append_assoc, List.cons_append,
        List.append_assoc] at hcs
      obtain ⟨r, hname, hvalue, hreadName, hread⟩ := htext.read (ended_comma _) hcs
      have hnext := skip_cons (c := ',') rfl
        (gap ++ (separated gap (text' :: texts') ++ (below ++ '\x7d' :: rest)))
      have hskip := (hgap.skip_append _).trans
        (htext'.skip_separated gap texts' (below ++ '\x7d' :: rest))
      obtain ⟨h', hrest⟩ := ih (List.cons_ne_nil m' ms') (Members.set acc m.1 m.2) _ hskip
      have hlt : rest.length < cs.length :=
        h'.trans (((length_lt_of_skip hnext).trans hvalue).trans hname)
      refine ⟨hlt, ?_⟩
      rw [readMembers_next hreadName hread hnext, hrest]
      exact shorter_of_lt hlt

/-- A map is read from texts of its members, if these are in order. -/
theorem spells_map {texts : List (List Char)} {ms : Members (Value Float)}
    (h : List.Forall₂ SpellsMember texts ms) (hordered : Members.Ordered ms) :
    Spells ('\x7b' :: (gap ++ (separated gap texts ++ (below ++ ['\x7d'])))) (.map ms) := by
  refine ⟨⟨'\x7b', _, rfl, rfl, by decide, by decide⟩, fun cs rest _ hcs => ?_⟩
  have hline : skip cs = '\x7b' :: (gap ++ (separated gap texts ++ (below ++ '\x7d' :: rest))) := by
    rw [hcs]
    simp
  have hmerge : Members.merge [] ms = ms := Members.merge_of_ordered hordered
  cases h with
  | nil =>
    have hend : skip (gap ++ (separated gap [] ++ (below ++ '\x7d' :: rest))) = '\x7d' :: rest := by
      rw [hgap.skip_append, separated, List.nil_append, hbelow.skip_append, skip_cons rfl]
    have hlt := (length_lt_of_skip hend).trans (length_lt_of_skip hline)
    exact ⟨hlt, (readValue_braces hline hend).trans (shorter_of_lt hlt)⟩
  | @cons text m texts ms htext htexts =>
    have htail := (hgap.skip_append _).trans
      (htext.skip_separated gap texts (below ++ '\x7d' :: rest))
    obtain ⟨h, hread⟩ := readMembers_separated hgap hbelow (List.cons_ne_nil m ms)
      (.cons htext htexts) [] _ rest htail
    have hlt := h.trans (length_lt_of_skip hline)
    refine ⟨hlt, ?_⟩
    rw [readValue_brace hline, hread, hmerge]
    · exact shorter_of_lt hlt
    · intro r hr
      obtain ⟨_, hhead⟩ := htext.head
      obtain ⟨line, hfirst⟩ := head_separated hhead gap texts
      rw [htail, hfirst] at hr
      exact absurd (List.cons.inj hr).1 (by decide)

end

/-! ### Scalars -/

/-- A word is read as a value. -/
theorem readValue_word {cs rest : List Char} {v : Value Float}
    (hcs : readWord? (skip cs) = some (v, rest)) : ∃ h, readValue? cs = some ⟨v, rest, h⟩ := by
  have hother : ∀ c r, c ≠ 't' → c ≠ 'f' → c ≠ 'n' → skip cs ≠ c :: r := by
    intro c r ht hf hn heq
    rw [heq] at hcs
    unfold readWord? at hcs
    split at hcs <;> simp_all
  have hlt : rest.length < cs.length := by
    have hle := length_skip_le cs
    unfold readWord? at hcs
    split at hcs
    · rename_i heq
      cases hcs
      simp only [heq, List.length_cons] at hle
      omega
    · rename_i heq
      cases hcs
      simp only [heq, List.length_cons] at hle
      omega
    · rename_i heq
      cases hcs
      simp only [heq, List.length_cons] at hle
      omega
    · cases hcs
  refine ⟨hlt, ?_⟩
  rw [readValue_other (fun r => hother _ r (by decide) (by decide) (by decide))
    (fun r => hother _ r (by decide) (by decide) (by decide))
    (fun r => hother _ r (by decide) (by decide) (by decide)), hcs]
  exact shorter_of_lt hlt

/-- A number is read as a value. -/
theorem readValue_number {cs rest : List Char} {n : Float}
    (hcs : readNumber? (skip cs) = some (n, rest)) (hrest : rest.length < (skip cs).length) :
    ∃ h, readValue? cs = some ⟨.num n, rest, h⟩ := by
  have hlt := hrest.trans_le (length_skip_le cs)
  obtain ⟨c, line, hline, hc⟩ := head_of_readNumber hcs
  have hother : ∀ d r, d.toNat < 45 ∨ 57 < d.toNat → skip cs ≠ d :: r := by
    intro d r hd heq
    exact ne_of_head hc hd (List.cons.inj (hline.symm.trans heq)).1
  have hword : readWord? (skip cs) = none := by
    unfold readWord?
    split
    · rename_i heq
      exact absurd heq (hother _ _ (.inr (by decide)))
    · rename_i heq
      exact absurd heq (hother _ _ (.inr (by decide)))
    · rename_i heq
      exact absurd heq (hother _ _ (.inr (by decide)))
    · rfl
  refine ⟨hlt, ?_⟩
  rw [readValue_other (fun r => hother _ r (.inl (by decide)))
    (fun r => hother _ r (.inr (by decide))) (fun r => hother _ r (.inr (by decide))), hword]
  simp only [hcs, Option.bind_some, shorter_of_lt hlt]
  rfl

theorem spells_word {text : List Char} {v : Value Float}
    (hread : ∀ rest, readWord? (text ++ rest) = some (v, rest))
    (hhead : ∃ c cs, text = c :: cs ∧ isSpace c = false ∧ c ≠ ']' ∧ c ≠ '\x7d') :
    Spells text v := by
  refine ⟨hhead, fun cs rest _ hcs => ?_⟩
  exact readValue_word (by rw [hcs]; exact hread rest)

theorem spells_number {n : Float} (hn : Double.Plain n) : Spells (number n) (.num n) := by
  have hself := Double.readNumber_text hn ended_nil
  obtain ⟨c, line, hnumber, hc⟩ := head_of_readNumber hself
  rw [List.append_nil] at hnumber
  refine ⟨⟨c, line, hnumber, isSpace_of_head hc, ne_of_head hc (.inr (by decide)),
    ne_of_head hc (.inr (by decide))⟩, fun cs rest hrest hcs => ?_⟩
  have hread := Double.readNumber_text hn hrest
  rw [← hcs] at hread
  refine readValue_number hread ?_
  rw [hcs, hnumber, List.length_append, List.length_cons]
  omega

theorem spells_quote {s : String} (hs : Text.joined s = s) : Spells (quote s) (.str s) := by
  refine ⟨⟨'"', _, rfl, rfl, by decide, by decide⟩, fun cs rest _ hcs => ?_⟩
  have hline : skip cs = '"' :: (s.toList.flatMap escape ++ '"' :: rest) := by
    rw [hcs, quote, hs]
    simp
  have hlt : rest.length < cs.length := by
    have := length_lt_of_skip hline
    simp only [List.length_append, List.length_cons] at this
    omega
  refine ⟨hlt, ?_⟩
  rw [readValue_quote hline, readString_quote hs, Option.bind_some, shorter_of_lt hlt]
  rfl

/-! ### Values -/

theorem itemChars_eq (vs : List (Value Float)) :
    itemChars vs = separated [] (vs.map Value.chars) := by
  induction vs with
  | nil => rfl
  | cons v vs ih =>
    cases vs with
    | nil => rfl
    | cons w vs => exact congrArg (v.chars ++ ',' :: ·) ih

theorem memberChars_eq (ms : Members (Value Float)) :
    memberChars ms = separated [] (ms.map fun m => quote m.1 ++ ':' :: ([] ++ m.2.chars)) := by
  induction ms with
  | nil => rfl
  | cons m ms ih =>
    cases ms with
    | nil => rfl
    | cons w ms => exact congrArg (quote m.1 ++ ':' :: m.2.chars ++ ',' :: ·) ih

theorem linedItems_eq (depth : Nat) (vs : List (Value Float)) :
    linedItems depth vs = separated (newline depth) (vs.map (Value.linedChars depth)) := by
  induction vs with
  | nil => rfl
  | cons v vs ih =>
    cases vs with
    | nil => rfl
    | cons w vs =>
      have hlines : linedItems depth (v :: w :: vs) =
          v.linedChars depth ++ ',' :: newline depth ++ linedItems depth (w :: vs) := rfl
      rw [hlines, ih, List.append_assoc]
      rfl

theorem linedMembers_eq (depth : Nat) (ms : Members (Value Float)) :
    linedMembers depth ms = separated (newline depth)
      (ms.map fun m => quote m.1 ++ ':' :: ([' '] ++ m.2.linedChars depth)) := by
  induction ms with
  | nil => rfl
  | cons m ms ih =>
    cases ms with
    | nil => rfl
    | cons w ms =>
      have hlines : linedMembers depth (m :: w :: ms) = quote m.1 ++ ':' :: ' ' ::
          m.2.linedChars depth ++ ',' :: newline depth ++ linedMembers depth (w :: ms) := rfl
      rw [hlines, ih, List.append_assoc]
      rfl

end Json

namespace Value

open Json

theorem spells_bool (b : Bool) : Spells (if b then "true" else "false").toList (.bool b) := by
  cases b with
  | true => exact spells_word (fun rest => rfl) ⟨'t', _, rfl, rfl, by decide, by decide⟩
  | false => exact spells_word (fun rest => rfl) ⟨'f', _, rfl, rfl, by decide, by decide⟩

theorem spells_null : Spells "null".toList .null :=
  spells_word (fun rest => rfl) ⟨'n', _, rfl, rfl, by decide, by decide⟩

theorem spells_mapped {α : Type} {R : List Char → α → Prop} {text : α → List Char} {xs : List α}
    (h : ∀ x ∈ xs, R (text x) x) : List.Forall₂ R (xs.map text) xs :=
  List.forall₂_map_left_iff.2 (List.forall₂_same.2 h)

/-- A value that data can have is spelled without spacing. -/
theorem spells_chars {v : Value Float} (hv : v.IsPlain) : Spells v.chars v := by
  induction hv with
  | null => exact spells_null
  | bool b => exact spells_bool b
  | num hn => exact spells_number hn
  | str hs => exact spells_quote hs
  | list hvs ih =>
    rw [chars, itemChars_eq]
    exact spells_list blank_nil blank_nil (spells_mapped ih)
  | map hordered hnames hvalues ih =>
    rw [chars, memberChars_eq]
    exact spells_map blank_nil blank_nil
      (spells_mapped fun m hm => ⟨_, _, blank_nil, rfl, hnames m hm, ih m hm⟩) hordered

/-- A value that data can have is spelled with one item or member a line. -/
theorem spells_linedChars {v : Value Float} (hv : v.IsPlain) (depth : Nat) :
    Spells (v.linedChars depth) v := by
  induction hv generalizing depth with
  | null => exact spells_null
  | bool b => exact spells_bool b
  | num hn => exact spells_number hn
  | str hs => exact spells_quote hs
  | @list vs hvs ih =>
    have hitems := spells_list (blank_newline (depth + 1)) (blank_newline depth)
      (spells_mapped fun v hv => ih v hv (depth + 1))
    cases vs with
    | nil => exact spells_list blank_nil blank_nil .nil
    | cons v vs =>
      rw [linedChars, linedItems_eq]
      simpa using hitems
  | @map ms hordered hnames hvalues ih =>
    have hmembers := spells_map (blank_newline (depth + 1)) (blank_newline depth)
      (spells_mapped fun m hm => ⟨_, _, blank_space, rfl, hnames m hm, ih m hm (depth + 1)⟩)
      hordered
    cases ms with
    | nil => exact spells_map blank_nil blank_nil .nil hordered
    | cons m ms =>
      rw [linedChars, linedMembers_eq]
      simpa using hmembers

/-- A value that data can have, with plain numbers, is read from its text without spacing. -/
theorem parse_compact {v : Value Float} (hv : v.IsPlain) : parse? v.compact = some v :=
  (spells_chars hv).parse

/-- The same for its text with one item or member a line. -/
theorem parse_indented {v : Value Float} (hv : v.IsPlain) : parse? v.indented = some v :=
  (spells_linedChars hv 0).parse

end Value

end PageExtract
