/-
Texts made of pieces.

A text of an expression is made of words, marks, numerals, quoted texts and spaces. It is cut into
one token for each piece that is not a space if every piece ends where the next one begins:

* `Piece` — the pieces, with their characters and their signs;
* `Piece.Ends`, `Piece.Apart` — pieces that are cut off from what follows them;
* `Token.cuts_pieces` — pieces that are apart are cut into their tokens;
* `Piece.Stops`, `Piece.apart_mark`, … — what may stand before what.
-/
import PageExtract.Proofs.Expr.Spelled
import PageExtract.Proofs.Number.Literal

namespace PageExtract

/-! ### Pieces -/

/-- What a text is made of. -/
inductive Piece where
  | space
  | word (name : String)
  | mark (operator : String)
  | numeral (digits : String)
  | quoted (content : String)

namespace Piece

/-- A character between quotation marks. A backslash stands before a quotation mark and before
another backslash. -/
def escape (c : Char) : List Char := if c == '"' || c == '\\' then ['\\', c] else [c]

/-- The characters of a piece. -/
def chars : Piece → List Char
  | space => [' ']
  | word s => s.toList
  | mark s => s.toList
  | numeral s => s.toList
  | quoted s => '"' :: (s.toList.flatMap escape ++ ['"'])

/-- The token that a piece is, if it is one. -/
def sign? : Piece → Option (TokenKind × String)
  | space => none
  | word s => some (.ident, s)
  | mark s => some (.op, s)
  | numeral s => some (.num, s)
  | quoted s => some (.str, s)

/-- The characters of some pieces. -/
def spelling (ps : List Piece) : List Char := ps.flatMap chars

/-- The tokens of some pieces. -/
def signs (ps : List Piece) : List (TokenKind × String) := ps.filterMap sign?

section

variable (s : String) (ps qs : List Piece)

@[simp] theorem signs_append : signs (ps ++ qs) = signs ps ++ signs qs :=
  List.filterMap_append

@[simp] theorem signs_space : signs (space :: ps) = signs ps := rfl

@[simp] theorem signs_word : signs (word s :: ps) = (.ident, s) :: signs ps := rfl

@[simp] theorem signs_mark : signs (mark s :: ps) = (.op, s) :: signs ps := rfl

end

end Piece

/-! ### Cutting pieces apart -/

/-- What has to follow a piece so that it is cut off. -/
def Piece.Ends : Piece → List Char → Prop
  | space, _ => True
  | word s, cs => isName s = true ∧ ∀ c ∈ cs.head?, isNameChar c = false
  | mark s, cs =>
    operatorAt? (s.toList ++ cs) = some s ∧ (s = "." → ∀ c ∈ cs.head?, c.isDigit = false)
  | numeral s, cs => (∃ q, Numeral.Writes s.toList q) ∧ Numeral.Ended cs
  | quoted s, _ => Text.joined s = s

/-- Whether each of some pieces is cut off from those after it. -/
def Piece.Apart : List Piece → Prop
  | [] => True
  | p :: ps => p.Ends (spelling ps) ∧ Apart ps

namespace Token

variable {total : Nat} {last : TokenKind} {cs : List Char} {signs : List (TokenKind × String)}

theorem cuts_space (h : Cuts total last cs signs) : Cuts total last (' ' :: cs) signs := by
  obtain ⟨ts, hts, hsigns⟩ := h
  refine ⟨ts, ?_, hsigns⟩
  rw [Token.scan.eq_def]
  exact hts

/-- The first character of an operator begins no other token. -/
theorem head_operator {o : String} (ho : o ∈ operators) :
    ∃ c more, o.toList = c :: more ∧ Text.isBlank c = false ∧ isQuote c = false ∧
      c.isDigit = false ∧ isNameStart c = false ∧ (c = '.' → o = ".") := by
  have hall : operators.all (fun o => o.toList.head?.elim false fun c =>
      !Text.isBlank c && !isQuote c && !c.isDigit && !isNameStart c &&
        (c != '.' || o == ".")) = true := by decide
  have hchecked := List.all_eq_true.1 hall o ho
  cases hlist : o.toList with
  | nil =>
    rw [hlist] at hchecked
    cases hchecked
  | cons c more =>
    rw [hlist] at hchecked
    simp only [List.head?_cons, Option.elim_some, Bool.and_eq_true, Bool.not_eq_true',
      Bool.or_eq_true, bne_iff_ne, ne_eq, beq_iff_eq] at hchecked
    obtain ⟨⟨⟨⟨hblank, hquote⟩, hdigit⟩, hstart⟩, hpoint⟩ := hchecked
    exact ⟨c, more, rfl, hblank, hquote, hdigit, hstart, fun h => hpoint.resolve_left (· h)⟩

/-- An operator is cut off if it is the first one that stands there. -/
theorem cuts_mark {o : String} (ho : operatorAt? (o.toList ++ cs) = some o)
    (hpoint : o = "." → ∀ c ∈ cs.head?, c.isDigit = false) (h : Cuts total .op cs signs) :
    Cuts total last (o.toList ++ cs) ((.op, o) :: signs) := by
  obtain ⟨ts, hts, hsigns⟩ := h
  obtain ⟨c, more, hlist, hblank, hquote, hdigit, hstart, honly⟩ :=
    head_operator (List.mem_of_find?_eq_some ho)
  have hlength : (more ++ cs).drop (o.length - 1) = cs := by
    have : o.length - 1 = more.length := by
      rw [← String.length_toList, hlist, List.length_cons, Nat.add_sub_cancel]
    rw [this, List.drop_left]
  have hscan : Numeral.scan? (c :: (more ++ cs)) = none := by
    refine Numeral.scan?_eq_none hdigit fun hc => ?_
    have hone : c :: more = ['.'] := hlist.symm.trans (congrArg String.toList (honly hc))
    rw [(List.cons.inj hone).2]
    exact hpoint (honly hc)
  rw [hlist, List.cons_append] at ho ⊢
  refine ⟨⟨.op, o, total - Text.width16 (c :: (more ++ cs))⟩ :: ts, ?_, ?_⟩
  · rw [Token.scan.eq_def]
    simp only
    rw [if_neg (by simp [hblank]), if_neg (by simp [hquote])]
    split
    · rename_i hnumeral
      rw [hscan, ite_self] at hnumeral
      cases hnumeral
    · rw [if_neg (by simp [hstart]), ho]
      simp only
      rw [hlength, hts]
      rfl
  · rw [List.map_cons, hsigns]
    rfl

theorem cuts_numeral {s : String} {q : ℚ} (hs : Numeral.Writes s.toList q)
    (hend : Numeral.Ended cs) (h : Cuts total .num cs signs) :
    Cuts total last (s.toList ++ cs) ((.num, s) :: signs) := by
  obtain ⟨ts, hts, hsigns⟩ := h
  have hscan := hs.scan? hend
  obtain ⟨c, more, hlist, hdigit⟩ := hs.head
  have hblank : Text.isBlank c = false := by
    simp only [Char.isDigit, ge_iff_le, Bool.and_eq_true, decide_eq_true_eq,
      UInt32.le_iff_toNat_le] at hdigit
    simp only [Text.isBlank, Char.toNat]
    simp at hdigit ⊢
    omega
  have hne : c ≠ '\'' ∧ c ≠ '"' ∧ c ≠ '.' := by
    refine ⟨?_, ?_, ?_⟩ <;>
    · rintro rfl
      cases hdigit
  have hquote : isQuote c = false := by simp [isQuote, hne.1, hne.2.1]
  have hpoint : (c == '.' && decide (last = .ident)) = false := by simp [hne.2.2]
  rw [hlist, List.cons_append] at hscan ⊢
  refine ⟨⟨.num, s, total - Text.width16 (c :: (more ++ cs))⟩ :: ts, ?_, ?_⟩
  · rw [Token.scan.eq_def]
    simp only
    rw [if_neg (by simp [hblank]), if_neg (by simp [hquote])]
    split
    · rename_i lexeme rest hnumeral
      rw [hpoint, if_neg Bool.false_ne_true, hscan] at hnumeral
      cases hnumeral
      rw [hts, ← hlist, String.ofList_toList]
      rfl
    · rename_i hnumeral
      rw [hpoint, if_neg Bool.false_ne_true, hscan] at hnumeral
      cases hnumeral
  · rw [List.map_cons, hsigns]
    rfl

/-- A quoted text is read up to its closing quotation mark, without the escapes. -/
theorem readQuoted_escape (acc cs rest : List Char) :
    readQuoted '"' acc (cs.flatMap Piece.escape ++ '"' :: rest) =
      some (Text.joined (String.ofList (acc.reverse ++ cs)), rest) := by
  -- The characters before are kept last first, so that the induction is for all of them.
  induction cs generalizing acc with
  | nil =>
    rw [List.append_nil]
    rfl
  | cons c cs ih =>
    have hstep := ih (c :: acc)
    rw [List.reverse_cons, List.append_assoc, List.singleton_append] at hstep
    rw [List.flatMap_cons, List.append_assoc, Piece.escape]
    split
    · rename_i hescaped
      have hunescape : unescape c = c := by
        simp only [Bool.or_eq_true, beq_iff_eq] at hescaped
        obtain rfl | rfl := hescaped <;> rfl
      rw [List.cons_append, List.singleton_append, readQuoted, hunescape, hstep]
    · rename_i hplain
      simp only [Bool.or_eq_true, beq_iff_eq, not_or] at hplain
      rw [List.singleton_append, readQuoted.eq_def]
      split
      · rename_i heq
        cases heq
      · rename_i heq
        exact absurd (List.cons.inj heq).1 hplain.2
      · rename_i heq
        cases heq
        rw [if_neg (by simpa using hplain.1), hstep]

theorem cuts_quoted {s : String} (hs : Text.joined s = s) (h : Cuts total .str cs signs) :
    Cuts total last ('"' :: (s.toList.flatMap Piece.escape ++ ['"']) ++ cs)
      ((.str, s) :: signs) := by
  obtain ⟨ts, hts, hsigns⟩ := h
  have hread := readQuoted_escape [] s.toList cs
  rw [List.reverse_nil, List.nil_append, String.ofList_toList, hs] at hread
  rw [List.cons_append, List.append_assoc, List.singleton_append]
  refine ⟨⟨.str, s, total - Text.width16 ('"' :: (s.toList.flatMap Piece.escape ++ '"' :: cs))⟩ ::
    ts, ?_, ?_⟩
  · rw [Token.scan.eq_def]
    simp only
    rw [if_neg (by decide), if_pos (by decide)]
    split
    · rename_i s' rest hquoted
      rw [hread] at hquoted
      cases hquoted
      rw [hts]
      rfl
    · rename_i hquoted
      rw [hread] at hquoted
      cases hquoted
  · rw [List.map_cons, hsigns]
    rfl

/-- Pieces that are apart are cut into their tokens. -/
theorem cuts_pieces {ps : List Piece} (h : Piece.Apart ps) :
    Cuts total last (Piece.spelling ps) (Piece.signs ps) := by
  induction ps generalizing last with
  | nil => exact cuts_nil
  | cons p ps ih =>
    obtain ⟨hp, hps⟩ := h
    cases p with
    | space => exact cuts_space (ih hps)
    | word s => exact cuts_name hp.1 hp.2 (ih hps)
    | mark s => exact cuts_mark hp.1 hp.2 (ih hps)
    | numeral s =>
      obtain ⟨⟨q, hq⟩, hend⟩ := hp
      exact cuts_numeral hq hend (ih hps)
    | quoted s => exact cuts_quoted hp (ih hps)

end Token

/-! ### What may stand before what -/

namespace Piece

/-- Whether characters end or go on with one that may follow an operand. -/
def Stops (cs : List Char) : Prop :=
  ∀ c ∈ cs.head?, c ∈ [' ', ')', ']', '\x7d', ',', ':']

theorem Stops.classes {cs : List Char} (h : Stops cs) :
    ∀ c ∈ cs.head?, isNameChar c = false ∧ c.isDigit = false ∧ c ≠ '.' ∧
      Numeral.isExponentMark c = false := by
  intro c hc
  have hmem := h c hc
  simp only [List.mem_cons, List.not_mem_nil, or_false] at hmem
  rcases hmem with rfl | rfl | rfl | rfl | rfl | rfl <;> decide

theorem stops_space (ps : List Piece) : Stops (spelling (space :: ps)) := by
  rintro c ⟨⟩
  decide

theorem stops_mark {o : String} (ho : o ∈ [")", "]", "\x7d", ",", ":"]) (ps : List Piece) :
    Stops (spelling (mark o :: ps)) := by
  simp only [List.mem_cons, List.not_mem_nil, or_false] at ho
  rcases ho with rfl | rfl | rfl | rfl | rfl <;>
  · rintro c ⟨⟩
    decide

variable {ps : List Piece}

theorem apart_space (h : Apart ps) : Apart (space :: ps) := ⟨trivial, h⟩

theorem apart_word {s : String} (hs : isName s = true)
    (hnext : ∀ c ∈ (spelling ps).head?, isNameChar c = false) (h : Apart ps) :
    Apart (word s :: ps) := ⟨⟨hs, hnext⟩, h⟩

/-- A word before a space. -/
theorem apart_word_space {s : String} (hs : isName s = true) (h : Apart ps) :
    Apart (word s :: space :: ps) := by
  refine apart_word hs ?_ (apart_space h)
  rintro c ⟨⟩
  rfl

/-- A mark that begins no other one. -/
theorem apart_mark {o : String} (ho : o ∈ ["(", ")", "[", "]", "\x7b", "\x7d", ",", ":", "-"])
    (h : Apart ps) : Apart (mark o :: ps) := by
  simp only [List.mem_cons, List.not_mem_nil, or_false] at ho
  rcases ho with rfl | rfl | rfl | rfl | rfl | rfl | rfl | rfl | rfl <;>
    exact ⟨⟨rfl, fun h => nomatch h⟩, h⟩

/-- An operator before a space. -/
theorem apart_mark_space {o : String}
    (ho : o ∈ ["+", "-", "*", "/", "%", "==", "!=", "<", "<=", ">", ">="]) (h : Apart ps) :
    Apart (mark o :: space :: ps) := by
  simp only [List.mem_cons, List.not_mem_nil, or_false] at ho
  rcases ho with rfl | rfl | rfl | rfl | rfl | rfl | rfl | rfl | rfl | rfl | rfl <;>
    exact ⟨⟨rfl, fun h => nomatch h⟩, apart_space h⟩

/-- A point and the name after it. -/
theorem apart_member {s : String} (hs : isName s = true)
    (hnext : ∀ c ∈ (spelling ps).head?, isNameChar c = false) (h : Apart ps) :
    Apart (mark "." :: word s :: ps) := by
  refine ⟨⟨rfl, fun _ c hc => ?_⟩, apart_word hs hnext h⟩
  obtain ⟨d, hhead, hstart⟩ := Segment.head?_text (s := ⟨s, false⟩) hs (spelling ps)
  cases hhead.symm.trans hc
  exact not_isDigit_of_isNameStart hstart

end Piece

end PageExtract
