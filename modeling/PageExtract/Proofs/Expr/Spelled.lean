/-
How paths are cut into tokens and read.

The reader of tokens cuts the spelling of a path into its names, points and brackets, whatever
stands before it, if what follows does not go on with the last name. From these tokens the reader of
formulas gets the path back.

* `Token.sign`, `Token.Cuts` — tokens wherever they stand, and the tokens that characters are cut
  into;
* `Path.signs`, `Token.cuts_path` — the tokens of a path;
* `Formula.parsePath_signs` — a path is read back from its tokens;
* `Formula.parse_sum` — a sum over a path is read back from its spelling.
-/
import PageExtract.Proofs.Expr.Names

namespace PageExtract

/-- What a token says, wherever it stands. -/
def Token.sign (t : Token) : TokenKind × String := (t.kind, t.text)

/-- Whether characters are cut into tokens that say something. -/
def Token.Cuts (total : Nat) (last : TokenKind) (cs : List Char)
    (signs : List (TokenKind × String)) : Prop :=
  ∃ ts, Token.scan total last cs = .ok ts ∧ ts.map Token.sign = signs

/-! ### Single tokens -/

/-- A name begins neither with a quotation mark nor like a numeral. -/
theorem not_isQuote_of_isNameStart {c : Char} (h : isNameStart c = true) : isQuote c = false := by
  cases hc : isQuote c with
  | false => rfl
  | true =>
    simp only [isQuote, Bool.or_eq_true, beq_iff_eq] at hc
    rcases hc with rfl | rfl <;> cases h

theorem not_isDigit_of_isNameStart {c : Char} (h : isNameStart c = true) : c.isDigit = false := by
  cases hc : c.isDigit with
  | false => rfl
  | true =>
    unfold isNameStart Char.isAlpha Char.isUpper Char.isLower at h
    simp only [Char.isDigit, Bool.or_eq_true, Bool.and_eq_true, decide_eq_true_eq,
      beq_iff_eq] at h hc
    rcases h with (h | h) | rfl
    · exact absurd (UInt32.le_trans h.1 hc.2) (by decide)
    · exact absurd (UInt32.le_trans h.1 hc.2) (by decide)
    · exact absurd hc.2 (by decide)

/-- Without a digit in front, perhaps after a point, there is no numeral. -/
theorem Numeral.scan?_eq_none {c : Char} {cs : List Char} (hc : c.isDigit = false)
    (hpoint : c = '.' → ∀ d ∈ cs.head?, d.isDigit = false) : Numeral.scan? (c :: cs) = none := by
  have hdigits : Numeral.digits (c :: cs) = ([], c :: cs) := by
    simp [Numeral.digits, hc]
  unfold Numeral.scan?
  rw [hdigits]
  simp only
  split
  · rename_i rest' _ hrest
    obtain ⟨rfl, rfl⟩ := List.cons.inj hrest
    have hnone : (Numeral.digits cs).1 = [] := by
      cases cs with
      | nil => rfl
      | cons d cs => simp [Numeral.digits, hpoint rfl d rfl]
    rw [hnone]
    rfl
  · rfl
  · rename_i hne
    exact (hne rfl).elim
  · rename_i hne _ _
    exact (hne rfl).elim

namespace Token

variable {total : Nat} {last : TokenKind} {cs : List Char} {signs : List (TokenKind × String)}

theorem cuts_nil : Cuts total last [] [] := by
  refine ⟨[], ?_, rfl⟩
  rw [Token.scan]

/-- A name is cut off if what follows does not go on with it. -/
theorem cuts_name {s : String} (hs : isName s = true)
    (hend : ∀ c ∈ cs.head?, isNameChar c = false) (h : Cuts total .ident cs signs) :
    Cuts total last (s.toList ++ cs) ((.ident, s) :: signs) := by
  obtain ⟨ts, hts, hsigns⟩ := h
  cases hlist : s.toList with
  | nil =>
    rw [isName, hlist] at hs
    cases hs
  | cons c rest =>
    rw [isName, hlist, isNameChars, Bool.and_eq_true, List.all_eq_true] at hs
    obtain ⟨hstart, hrest⟩ := hs
    have hpoint : c ≠ '.' := by
      rintro rfl
      cases hstart
    have hscan : Numeral.scan? (c :: (rest ++ cs)) = none :=
      Numeral.scan?_eq_none (not_isDigit_of_isNameStart hstart) fun h => (hpoint h).elim
    refine ⟨⟨.ident, s, total - Text.width16 (c :: (rest ++ cs))⟩ :: ts, ?_, ?_⟩
    · rw [List.cons_append, Token.scan.eq_def]
      simp only
      rw [if_neg (by simp [not_isBlank_of_isNameChar (isNameChar_of_isNameStart hstart)]),
        if_neg (by simp [not_isQuote_of_isNameStart hstart])]
      split
      · rename_i hnumeral
        rw [hscan, ite_self] at hnumeral
        cases hnumeral
      · rw [if_pos hstart, Text.takeWhile_run hrest hend, Text.dropWhile_run hrest hend, hts,
          ← hlist, String.ofList_toList]
        rfl
    · rw [List.map_cons, hsigns]
      rfl

/-- The operators that paths and calls are spelled with are cut off; a point must not begin a
numeral. -/
theorem cuts_operator {c : Char} (hc : c ∈ ['.', '[', ']', '(', ')'])
    (hpoint : c = '.' → ∀ d ∈ cs.head?, d.isDigit = false) (h : Cuts total .op cs signs) :
    Cuts total last (c :: cs) ((.op, c.toString) :: signs) := by
  obtain ⟨ts, hts, hsigns⟩ := h
  have hclass : Text.isBlank c = false ∧ isQuote c = false ∧ c.isDigit = false ∧
      isNameStart c = false ∧ operatorAt? (c :: cs) = some c.toString := by
    simp only [List.mem_cons, List.not_mem_nil, or_false] at hc
    rcases hc with rfl | rfl | rfl | rfl | rfl <;> exact ⟨rfl, rfl, rfl, rfl, rfl⟩
  obtain ⟨hblank, hquote, hdigit, hstart, hoperator⟩ := hclass
  have hscan : Numeral.scan? (c :: cs) = none := Numeral.scan?_eq_none hdigit hpoint
  have hone : c.toString.length - 1 = 0 := by simp
  refine ⟨⟨.op, c.toString, total - Text.width16 (c :: cs)⟩ :: ts, ?_, ?_⟩
  · rw [Token.scan.eq_def]
    simp only
    rw [if_neg (by simp [hblank]), if_neg (by simp [hquote])]
    split
    · rename_i hnumeral
      rw [hscan, ite_self] at hnumeral
      cases hnumeral
    · rw [if_neg (by simp [hstart]), hoperator]
      simp only
      rw [hone, List.drop_zero, hts]
      rfl
  · rw [List.map_cons, hsigns]
    rfl

end Token

/-! ### Paths -/

/-- The tokens that a level is spelled with. -/
def Segment.signs (s : Segment) : List (TokenKind × String) :=
  (.ident, s.name) :: if s.many then [(.op, "["), (.op, "]")] else []

/-- The tokens that a path is spelled with. -/
def Path.signs : Path → List (TokenKind × String)
  | [] => []
  | [s] => s.signs
  | s :: t :: p => s.signs ++ (.op, ".") :: Path.signs (t :: p)

theorem Path.text_singleton (s : Segment) : Path.text [s] = s.text := by
  simp [text]

theorem Path.Named.tail {s t : Segment} {p : Path} (h : Path.Named (s :: t :: p)) :
    Path.Named (t :: p) :=
  ⟨List.cons_ne_nil t p, fun u hu => h.2 u (List.mem_cons_of_mem s hu)⟩

theorem Segment.head?_text {s : Segment} (hs : isName s.name = true) (cs : List Char) :
    ∃ c, (s.text.toList ++ cs).head? = some c ∧ isNameStart c = true := by
  have hname : ∃ c more, s.name.toList = c :: more ∧ isNameStart c = true := by
    cases hlist : s.name.toList with
    | nil =>
      rw [isName, hlist] at hs
      cases hs
    | cons c more =>
      rw [isName, hlist, isNameChars, Bool.and_eq_true] at hs
      exact ⟨c, more, rfl, hs.1⟩
  obtain ⟨c, more, hlist, hstart⟩ := hname
  refine ⟨c, ?_, hstart⟩
  unfold Segment.text
  split <;> simp [hlist]

/-- The text of a path of names begins with the first character of a name. -/
theorem Path.head?_text {p : Path} (hp : p.Named) (cs : List Char) :
    ∃ c, (p.text.toList ++ cs).head? = some c ∧ isNameStart c = true := by
  cases p with
  | nil => exact (hp.1 rfl).elim
  | cons s p =>
    have hs : isName s.name = true := hp.2 s List.mem_cons_self
    cases p with
    | nil =>
      rw [text_singleton]
      exact Segment.head?_text hs cs
    | cons t p =>
      rw [text_cons_cons, String.toList_append, String.toList_append, List.append_assoc,
        List.append_assoc]
      exact Segment.head?_text hs _

namespace Token

variable {total : Nat} {last : TokenKind} {cs : List Char} {signs : List (TokenKind × String)}

theorem cuts_segment {s : Segment} (hs : isName s.name = true)
    (hend : ∀ c ∈ cs.head?, isNameChar c = false) (h : ∀ k, Cuts total k cs signs) :
    Cuts total last (s.text.toList ++ cs) (s.signs ++ signs) := by
  unfold Segment.text Segment.signs
  cases s.many with
  | false => exact cuts_name hs hend (h .ident)
  | true =>
    rw [if_pos rfl, String.toList_append, List.append_assoc]
    refine cuts_name hs (fun c hc => ?_) ?_
    · cases hc
      rfl
    · refine cuts_operator (by decide) (fun h => nomatch h) ?_
      exact cuts_operator (by decide) (fun h => nomatch h) (h .op)

/-- The spelling of a path is cut into its tokens. -/
theorem cuts_path {p : Path} (hp : p.Named) (hend : ∀ c ∈ cs.head?, isNameChar c = false)
    (h : ∀ k, Cuts total k cs signs) :
    Cuts total last (p.text.toList ++ cs) (p.signs ++ signs) := by
  induction p generalizing last with
  | nil => exact (hp.1 rfl).elim
  | cons s p ih =>
    have hs : isName s.name = true := hp.2 s List.mem_cons_self
    cases p with
    | nil =>
      rw [Path.text_singleton]
      exact cuts_segment hs hend h
    | cons t p =>
      rw [Path.text_cons_cons, Path.signs, String.toList_append, String.toList_append,
        List.append_assoc, List.append_assoc, List.append_assoc]
      refine cuts_segment hs (fun c hc => ?_) fun k => ?_
      · cases hc
        rfl
      · refine cuts_operator (by decide) (fun _ d hd => ?_) (ih hp.tail)
        obtain ⟨c, hhead, hstart⟩ := Path.head?_text hp.tail cs
        cases hhead.symm.trans hd
        exact not_isDigit_of_isNameStart hstart

end Token

/-! ### Formulas -/

namespace Token

variable {stop t : Token} {ts : List Token}

theorem isOp_of_sign {o : String} (h : t.sign = (.op, o)) (u : String) :
    t.isOp u = (o == u) := by
  obtain ⟨hkind, htext⟩ := Prod.mk.inj h
  rw [isOp, hkind, htext]
  rfl

theorem isOp_of_sign_ident {s : String} (h : t.sign = (.ident, s)) (u : String) :
    t.isOp u = false := by
  rw [isOp, (Prod.mk.inj h).1]
  rfl

theorem isWord_of_sign {s : String} (h : t.sign = (.ident, s)) (w : String) :
    t.isWord w = (s == w) := by
  obtain ⟨hkind, htext⟩ := Prod.mk.inj h
  rw [isWord, hkind, htext]
  rfl

theorem expectName_of_sign {s : String} (h : t.sign = (.ident, s)) :
    expectName stop (t :: ts) = .ok ⟨t, ts, length_lt_cons t ts⟩ := by
  rw [expectName, if_pos (Prod.mk.inj h).1]

theorem expectOp_of_sign {o : String} (h : t.sign = (.op, o)) :
    expectOp stop o (t :: ts) = .ok ⟨(), ts, length_lt_cons t ts⟩ := by
  rw [expectOp, isOp_of_sign h, beq_self_eq_true, if_pos rfl]

end Token

theorem Path.signs_cons_cons (s t : Segment) (p : Path) :
    Path.signs (s :: t :: p) = s.signs ++ (.op, ".") :: Path.signs (t :: p) := rfl

namespace Formula

variable (stop : Token)

/-- What comes after a name and perhaps the mark. -/
def afterMark (ts : List Token) : List Token := if Token.bracketsNext ts then ts.drop 2 else ts

section

variable {n : Token} {name : String} {many : Bool} {ts rest : List Token}

theorem parsePath_last (hn : n.sign = (.ident, name)) (hmany : Token.bracketsNext ts = many)
    (hrest : afterMark ts = rest) (hpoint : Token.opNext "." rest = false) :
    ∃ r, parsePath stop (n :: ts) = .ok r ∧ r.value = [⟨name, many⟩] ∧ r.rest = rest := by
  subst hmany hrest
  unfold afterMark at hpoint ⊢
  rw [parsePath, Token.expectName_of_sign hn]
  simp only [bind, Except.bind, hpoint, Bool.false_eq_true, if_false]
  exact ⟨_, rfl, by rw [← (Prod.mk.inj hn).2], rfl⟩

theorem parsePath_next (hn : n.sign = (.ident, name)) (hmany : Token.bracketsNext ts = many)
    (hrest : afterMark ts = rest) (hpoint : Token.opNext "." rest = true)
    {more : Reading Token Path (rest.drop 1).length}
    (hmore : parsePath stop (rest.drop 1) = .ok more) :
    ∃ r, parsePath stop (n :: ts) = .ok r ∧ r.value = ⟨name, many⟩ :: more.value ∧
      r.rest = more.rest := by
  subst hmany hrest
  unfold afterMark at hpoint hmore
  rw [parsePath, Token.expectName_of_sign hn]
  simp only [bind, Except.bind, hpoint, if_true, hmore]
  exact ⟨_, rfl, by rw [← (Prod.mk.inj hn).2], rfl⟩

end

/-- The tokens of a level are a name and what makes the mark, if it has one. -/
theorem exists_of_segment_signs {s : Segment} {us : List Token}
    (hus : us.map Token.sign = s.signs) :
    ∃ n vs, us = n :: vs ∧ n.sign = (.ident, s.name) ∧
      ∀ ts, Token.bracketsNext ts = false →
        Token.bracketsNext (vs ++ ts) = s.many ∧ afterMark (vs ++ ts) = ts := by
  obtain ⟨name, many⟩ := s
  unfold Segment.signs at hus
  obtain ⟨n, vs, rfl, hn, hvs⟩ := List.map_eq_cons_iff.1 hus
  refine ⟨n, vs, rfl, hn, fun ts hts => ?_⟩
  unfold afterMark
  cases many with
  | false =>
    obtain rfl : vs = [] := List.map_eq_nil_iff.1 hvs
    exact ⟨hts, by rw [List.nil_append, hts]; rfl⟩
  | true =>
    obtain ⟨lb, vs, rfl, hlb, hvs⟩ := List.map_eq_cons_iff.1 hvs
    obtain ⟨rb, vs, rfl, hrb, hvs⟩ := List.map_eq_cons_iff.1 hvs
    obtain rfl : vs = [] := List.map_eq_nil_iff.1 hvs
    have hbrackets : Token.bracketsNext ([lb, rb] ++ ts) = true := by
      simp [Token.bracketsNext, Token.isOp_of_sign hlb, Token.isOp_of_sign hrb]
    exact ⟨hbrackets, by rw [hbrackets]; rfl⟩

theorem bracketsNext_point {t : Token} (ht : t.sign = (.op, ".")) (ts : List Token) :
    Token.bracketsNext (t :: ts) = false := by
  cases ts with
  | nil => rfl
  | cons u ts => simp [Token.bracketsNext, Token.isOp_of_sign ht]

/-- A path is read back from its tokens if neither a mark nor a point follows. -/
theorem parsePath_signs {p : Path} (hp : p ≠ []) {us ts : List Token}
    (hus : us.map Token.sign = p.signs) (hmark : Token.bracketsNext ts = false)
    (hpoint : Token.opNext "." ts = false) :
    ∃ r, parsePath stop (us ++ ts) = .ok r ∧ r.value = p ∧ r.rest = ts := by
  induction p generalizing us with
  | nil => exact (hp rfl).elim
  | cons s p ih =>
    cases p with
    | nil =>
      obtain ⟨n, vs, rfl, hn, hvs⟩ := exists_of_segment_signs hus
      obtain ⟨hmany, hafter⟩ := hvs ts hmark
      exact parsePath_last stop hn hmany hafter hpoint
    | cons t p =>
      rw [Path.signs_cons_cons] at hus
      obtain ⟨vs, ws, rfl, hvs, hws⟩ := List.map_eq_append_iff.1 hus
      obtain ⟨point, ws, rfl, hpt, hws⟩ := List.map_eq_cons_iff.1 hws
      obtain ⟨n, vs, rfl, hn, hafter⟩ := exists_of_segment_signs hvs
      obtain ⟨hmany, hafter⟩ := hafter (point :: (ws ++ ts)) (bracketsNext_point hpt _)
      have hnext : Token.opNext "." (point :: (ws ++ ts)) = true := by
        simp [Token.opNext, Token.isOp_of_sign hpt]
      obtain ⟨more, hmore, hvalue, hrest⟩ := ih (List.cons_ne_nil t p) hws
      obtain ⟨r, hr, hrvalue, hrrest⟩ := parsePath_next stop hn hmany hafter hnext hmore
      rw [List.append_assoc]
      exact ⟨r, hr, by rw [hrvalue, hvalue], by rw [hrrest, hrest]⟩

theorem parseSumPath_signs {p : Path} (hp : p ≠ []) (hmarked : p.any (·.many) = true)
    {us ts : List Token} (hus : us.map Token.sign = p.signs)
    (hmark : Token.bracketsNext ts = false) (hpoint : Token.opNext "." ts = false) :
    ∃ r, parseSumPath stop (us ++ ts) = .ok r ∧ r.value = p ∧ r.rest = ts := by
  obtain ⟨r, hr, hvalue, hrest⟩ := parsePath_signs stop hp hus hmark hpoint
  refine ⟨r, ?_, hvalue, hrest⟩
  rw [parseSumPath, hr]
  simp only [bind, Except.bind]
  rw [hvalue, if_pos hmarked]
  rfl

/-- A sum is read from its word, its path in parentheses and nothing after it. -/
theorem ofTokens_sum {s o c : Token} (hs : s.sign = (.ident, "sum")) (ho : o.sign = (.op, "("))
    (hc : c.sign = (.op, ")")) {p : Path} (hp : p ≠ []) (hmarked : p.any (·.many) = true)
    {us : List Token} (hus : us.map Token.sign = p.signs) :
    ofTokens stop (s :: o :: (us ++ [c])) = .ok (.sum p) := by
  have hend : Token.opNext "." [c] = false := by simp [Token.opNext, Token.isOp_of_sign hc]
  obtain ⟨⟨value, rest, short⟩, hr, rfl, rfl⟩ := parseSumPath_signs stop hp hmarked hus rfl hend
  have hfactor : ∃ r, parseFactor stop (s :: o :: (us ++ [c])) = .ok r ∧ r.value = .sum value ∧
      r.rest = [] := by
    rw [parseFactor]
    simp only [Token.isOp_of_sign_ident hs, Bool.false_eq_true, if_false]
    rw [if_neg (by rw [(Prod.mk.inj hs).1]; exact nofun),
      if_pos (by rw [Token.isWord_of_sign hs]; rfl), Token.expectOp_of_sign ho]
    simp only [bind, Except.bind, hr, Token.expectOp_of_sign hc]
    exact ⟨_, rfl, rfl, rfl⟩
  -- Nothing follows, so that the sum is all of its term and of its formula.
  obtain ⟨⟨f, rest, short⟩, hf, rfl, rfl⟩ := hfactor
  have hterm : parseTerm stop (s :: o :: (us ++ [c])) = .ok ⟨.sum value, [], short⟩ := by
    rw [parseTerm, hf]
    simp only [bind, Except.bind]
    rw [parseTermTail]
    rfl
  have hexpr : parseExpr stop (s :: o :: (us ++ [c])) = .ok ⟨.sum value, [], short⟩ := by
    rw [parseExpr, hterm]
    simp only [bind, Except.bind]
    rw [parseExprTail]
    rfl
  rw [ofTokens, hexpr]
  rfl

/-- A sum over a path with a mark is read back from its spelling. -/
theorem parse_sum {p : Path} (hp : p.Named) (hmarked : p.any (·.many) = true) :
    parse ("sum(" ++ p.text ++ ")") = .ok (.sum p) := by
  have hcuts : Token.Cuts (Text.length16 ("sum(" ++ p.text ++ ")")) .eof
      ("sum(" ++ p.text ++ ")").toList
      ((.ident, "sum") :: (.op, "(") :: (p.signs ++ [(.op, ")")])) := by
    have hlist : ("sum(" ++ p.text ++ ")").toList =
        "sum".toList ++ '(' :: (p.text.toList ++ [')']) := by
      simp
    rw [hlist]
    refine Token.cuts_name rfl (fun d hd => ?_) ?_
    · cases hd
      rfl
    refine Token.cuts_operator (by decide) (fun h => nomatch h) ?_
    refine Token.cuts_path hp (fun d hd => ?_) fun k => ?_
    · cases hd
      rfl
    · exact Token.cuts_operator (by decide) (fun h => nomatch h) Token.cuts_nil
  obtain ⟨ts, hts, hsigns⟩ := hcuts
  obtain ⟨s, ts, rfl, hs, hsigns⟩ := List.map_eq_cons_iff.1 hsigns
  obtain ⟨o, ts, rfl, ho, hsigns⟩ := List.map_eq_cons_iff.1 hsigns
  obtain ⟨us, ts, rfl, hus, hsigns⟩ := List.map_eq_append_iff.1 hsigns
  obtain ⟨c, ts, rfl, hc, hsigns⟩ := List.map_eq_cons_iff.1 hsigns
  obtain rfl : ts = [] := List.map_eq_nil_iff.1 hsigns
  rw [parse, tokens, hts]
  exact ofTokens_sum _ hs ho hc hp.1 hmarked hus

end Formula

end PageExtract
