/-
Reading the paths of rules.

A rule that consists of a path into the data, or of a call on one, is read from its tokens without
any of the operators in between: every level of the grammar hands the operand on as it is.

* `Path.ops` — the steps of a path: the member of each name, and all items where there is a mark;
* `Rule.parseOps_signs` — these steps are read from the tokens of the path;
* `Rule.parseOr_of_parseTrailed` — an operand that nothing follows is all of the rule;
* `Rule.parse_data`, `Rule.parse_sum_data` — a path into the data, and the sum over one;
* `Path.parse_in_expressions` — the paths of fields are those of rules and formulas.
-/
import PageExtract.Proofs.Expr.Spelled
import PageExtract.Rule.Parser

namespace PageExtract

/-- The steps of a path into the data. -/
def Path.ops (p : Path) : List (PathOp Float) :=
  p.flatMap fun s => .member s.name :: if s.many then [.project] else []

/-- The spelling of a path into the data is cut into its tokens. -/
theorem Token.cuts_data {total : Nat} {last : TokenKind} {cs : List Char}
    {signs : List (TokenKind × String)} {p : Path} (hp : p.Named)
    (hend : ∀ c ∈ cs.head?, isNameChar c = false) (h : ∀ k, Token.Cuts total k cs signs) :
    Token.Cuts total last ("data".toList ++ '.' :: (p.text.toList ++ cs))
      ((.ident, "data") :: (.op, ".") :: (p.signs ++ signs)) := by
  refine Token.cuts_name rfl (fun c hc => ?_) ?_
  · cases hc
    rfl
  refine Token.cuts_operator (by decide) (fun _ d hd => ?_) (Token.cuts_path hp hend h)
  obtain ⟨c, hhead, hstart⟩ := Path.head?_text hp cs
  cases hhead.symm.trans hd
  exact not_isDigit_of_isNameStart hstart

/-- Whether tokens end or go on with a closing parenthesis. -/
def Token.Closes (ts : List Token) : Prop :=
  ts = [] ∨ ∃ t more, ts = t :: more ∧ t.sign = (.op, ")")

theorem Token.isWord_of_sign_op {t : Token} {o : String} (h : t.sign = (.op, o)) (w : String) :
    t.isWord w = false := by
  rw [isWord, (Prod.mk.inj h).1]
  rfl

theorem Token.Closes.opNext {ts : List Token} (h : Token.Closes ts) {o : String} (ho : o ≠ ")") :
    Token.opNext o ts = false := by
  obtain rfl | ⟨t, more, rfl, ht⟩ := h
  · rfl
  · rw [Token.opNext, Token.isOp_of_sign ht]
    exact beq_false_of_ne ho.symm

namespace Rule

variable (stop : Token)

/-! ### The steps of a path -/

theorem parseOps_closes {ts : List Token} (h : Token.Closes ts) :
    parseOps stop ts = .ok ⟨[], ts, Nat.lt_succ_self _⟩ := by
  obtain rfl | ⟨t, more, rfl, ht⟩ := h
  · rw [parseOps]
  · rw [parseOps]
    simp [Token.isOp_of_sign ht]

theorem parseOps_member {point n : Token} {name : String} {ts : List Token}
    (hpt : point.sign = (.op, ".")) (hn : n.sign = (.ident, name))
    (hcall : Token.opNext "(" ts = false) {ops : List (PathOp Float)} {rest : List Token}
    {short : rest.length < ts.length + 1} (hops : parseOps stop ts = .ok ⟨ops, rest, short⟩) :
    ∃ h, parseOps stop (point :: n :: ts) = .ok ⟨.member name :: ops, rest, h⟩ := by
  rw [parseOps, if_pos (by rw [Token.isOp_of_sign hpt]; rfl), Token.expectName_of_sign hn]
  simp only [bind, Except.bind, hcall, Bool.false_eq_true, if_false, hops]
  rw [← (Prod.mk.inj hn).2]
  exact ⟨by simp only [List.length_cons]; omega, rfl⟩

theorem parseOps_project {lb rb : Token} {ts : List Token} (hlb : lb.sign = (.op, "["))
    (hrb : rb.sign = (.op, "]")) {ops : List (PathOp Float)} {rest : List Token}
    {short : rest.length < ts.length + 1} (hops : parseOps stop ts = .ok ⟨ops, rest, short⟩) :
    ∃ h, parseOps stop (lb :: rb :: ts) = .ok ⟨.project :: ops, rest, h⟩ := by
  have hclose : Token.opNext "]" (rb :: ts) = true := by
    rw [Token.opNext, Token.isOp_of_sign hrb]
    rfl
  rw [parseOps, if_neg (by rw [Token.isOp_of_sign hlb]; decide),
    if_pos (by rw [Token.isOp_of_sign hlb]; rfl), if_pos hclose]
  simp only [bind, Except.bind, List.drop, hops]
  exact ⟨by simp only [List.length_cons]; omega, rfl⟩

/-- The steps of a path are read from its tokens, a point before each level. -/
theorem parseOps_signs {p : Path} {us ts : List Token}
    (hus : us.map Token.sign = p.flatMap fun s => (.op, ".") :: s.signs)
    (hts : Token.Closes ts) :
    ∃ h, parseOps stop (us ++ ts) = .ok ⟨p.ops, ts, h⟩ := by
  induction p generalizing us with
  | nil =>
    obtain rfl : us = [] := List.map_eq_nil_iff.1 hus
    exact ⟨_, parseOps_closes stop hts⟩
  | cons s p ih =>
    obtain ⟨name, many⟩ := s
    rw [List.flatMap_cons] at hus
    obtain ⟨vs, ws, rfl, hvs, hws⟩ := List.map_eq_append_iff.1 hus
    obtain ⟨point, vs, rfl, hpt, hvs⟩ := List.map_eq_cons_iff.1 hvs
    obtain ⟨n, vs, rfl, hn, hvs⟩ := List.map_eq_cons_iff.1 hvs
    obtain ⟨_, hops⟩ := ih hws
    rw [List.append_assoc]
    cases many with
    | false =>
      obtain rfl : vs = [] := List.map_eq_nil_iff.1 hvs
      have hcall : Token.opNext "(" (ws ++ ts) = false := by
        cases p with
        | nil =>
          obtain rfl : ws = [] := List.map_eq_nil_iff.1 hws
          exact hts.opNext (by decide)
        | cons t p =>
          obtain ⟨point', ws, rfl, hpt', -⟩ := List.map_eq_cons_iff.1 hws
          exact Token.isOp_of_sign hpt' "("
      exact parseOps_member stop hpt hn hcall hops
    | true =>
      obtain ⟨lb, vs, rfl, hlb, hvs⟩ := List.map_eq_cons_iff.1 hvs
      obtain ⟨rb, vs, rfl, hrb, hvs⟩ := List.map_eq_cons_iff.1 hvs
      obtain rfl : vs = [] := List.map_eq_nil_iff.1 hvs
      obtain ⟨_, hproject⟩ := parseOps_project stop hlb hrb hops
      have hcall : Token.opNext "(" ([lb, rb] ++ (ws ++ ts)) = false := Token.isOp_of_sign hlb "("
      exact parseOps_member stop hpt hn hcall hproject

theorem signs_eq_steps {p : Path} (hp : p ≠ []) :
    (TokenKind.op, ".") :: p.signs = p.flatMap fun s => (.op, ".") :: s.signs := by
  induction p with
  | nil => exact (hp rfl).elim
  | cons s p ih =>
    cases p with
    | nil => simp [Path.signs]
    | cons t p =>
      rw [Path.signs_cons_cons, ih (List.cons_ne_nil t p), List.flatMap_cons]
      rfl

/-! ### Operands that nothing follows -/

section

variable {ts : List Token} (left : Rule Float)

theorem parseTermTail_closes (h : Token.Closes ts) :
    parseTermTail stop left ts = .ok ⟨left, ts, Nat.lt_succ_self _⟩ := by
  obtain rfl | ⟨t, more, rfl, ht⟩ := h
  · rw [parseTermTail]
  · rw [parseTermTail]
    simp [productOp?, Token.isOp_of_sign ht]

theorem parseArithTail_closes (h : Token.Closes ts) :
    parseArithTail stop left ts = .ok ⟨left, ts, Nat.lt_succ_self _⟩ := by
  obtain rfl | ⟨t, more, rfl, ht⟩ := h
  · rw [parseArithTail]
  · rw [parseArithTail]
    simp [sumOp?, Token.isOp_of_sign ht]

theorem parseLinks_closes (h : Token.Closes ts) :
    parseLinks stop ts = .ok ⟨[], ts, Nat.lt_succ_self _⟩ := by
  have hnone : compareOp? ts = none := by
    obtain rfl | ⟨t, more, rfl, ht⟩ := h
    · rfl
    · have hsign : signCompare? t = none := by
        obtain ⟨hkind, htext⟩ := Prod.mk.inj ht
        rw [signCompare?, hkind, htext]
        rfl
      rw [compareOp?, hsign]
      simp [Token.isWord_of_sign_op ht]
  rw [parseLinks]
  simp only [hnone]

theorem parseAndTail_closes (h : Token.Closes ts) :
    parseAndTail stop left ts = .ok ⟨left, ts, Nat.lt_succ_self _⟩ := by
  obtain rfl | ⟨t, more, rfl, ht⟩ := h
  · rw [parseAndTail]
  · rw [parseAndTail]
    simp [Token.isWord_of_sign_op ht]

theorem parseOrTail_closes (h : Token.Closes ts) :
    parseOrTail stop left ts = .ok ⟨left, ts, Nat.lt_succ_self _⟩ := by
  obtain rfl | ⟨t, more, rfl, ht⟩ := h
  · rw [parseOrTail]
  · rw [parseOrTail]
    simp [Token.isWord_of_sign_op ht]

end

/-- An operand that begins with a word and that nothing follows is all of the rule. -/
theorem parseOr_of_parseTrailed {t : Token} {w : String} {ts rest : List Token} {r : Rule Float}
    {short : rest.length < (t :: ts).length} (ht : t.sign = (.ident, w)) (hw : w ≠ "not")
    (hrest : Token.Closes rest) (h : parseTrailed stop (t :: ts) = .ok ⟨r, rest, short⟩) :
    parseOr stop (t :: ts) = .ok ⟨r, rest, short⟩ := by
  have hsigned : parseSigned stop (t :: ts) = .ok ⟨r, rest, short⟩ := by
    rw [parseSigned]
    simp only [Token.isOp_of_sign_ident ht, Bool.false_eq_true, if_false]
    exact h
  have hterm : parseTerm stop (t :: ts) = .ok ⟨r, rest, short⟩ := by
    rw [parseTerm, hsigned]
    simp only [bind, Except.bind, parseTermTail_closes stop r hrest]
    rfl
  have harith : parseArith stop (t :: ts) = .ok ⟨r, rest, short⟩ := by
    rw [parseArith, hterm]
    simp only [bind, Except.bind, parseArithTail_closes stop r hrest]
    rfl
  have hcomparison : parseComparison stop (t :: ts) = .ok ⟨r, rest, short⟩ := by
    rw [parseComparison, harith]
    simp only [bind, Except.bind, parseLinks_closes stop hrest]
    rfl
  have hnot : parseNot stop (t :: ts) = .ok ⟨r, rest, short⟩ := by
    rw [parseNot, if_neg (by rw [Token.isWord_of_sign ht, beq_iff_eq]; exact hw)]
    exact hcomparison
  have hand : parseAnd stop (t :: ts) = .ok ⟨r, rest, short⟩ := by
    rw [parseAnd, hnot]
    simp only [bind, Except.bind, parseAndTail_closes stop r hrest]
    rfl
  rw [parseOr, hand]
  simp only [bind, Except.bind, parseOrTail_closes stop r hrest]
  rfl

/-! ### Paths into the data -/

/-- The data and the steps of a path make up a rule. -/
theorem parseOr_data {p : Path} (hp : p ≠ []) {d : Token} (hd : d.sign = (.ident, "data"))
    {us ts ws : List Token} (hus : us.map Token.sign = (.op, ".") :: p.signs)
    (hts : Token.Closes ts) (hws : ws = d :: (us ++ ts)) :
    ∃ h, parseOr stop ws = .ok ⟨.path .root p.ops, ts, h⟩ := by
  subst hws
  rw [signs_eq_steps hp] at hus
  obtain ⟨_, hops⟩ := parseOps_signs stop hus hts
  have hprimary : parsePrimary stop (d :: (us ++ ts)) =
      .ok ⟨.root, us ++ ts, length_lt_cons _ _⟩ := by
    obtain ⟨kind, text, pos⟩ := d
    cases hd
    rw [parsePrimary]
    rfl
  have hsome : p.ops.isEmpty = false := by
    cases p with
    | nil => exact (hp rfl).elim
    | cons s p => rfl
  have htrailed : ∃ h, parseTrailed stop (d :: (us ++ ts)) = .ok ⟨.path .root p.ops, ts, h⟩ := by
    rw [parseTrailed, hprimary]
    simp only [bind, Except.bind, hops, hsome, Bool.false_eq_true, if_false]
    refine ⟨?_, rfl⟩
    simp only [List.length_cons, List.length_append]
    omega
  obtain ⟨h, htrailed⟩ := htrailed
  exact ⟨h, parseOr_of_parseTrailed stop hd (by decide) hts htrailed⟩

/-- A path into the data is read back from its spelling. -/
theorem parse_data {p : Path} (hp : p.Named) :
    parse ("data." ++ p.text) = .ok (.path .root p.ops) := by
  have hcuts : Token.Cuts (Text.length16 ("data." ++ p.text)) .eof ("data." ++ p.text).toList
      ((.ident, "data") :: (.op, ".") :: p.signs) := by
    have hlist : ("data." ++ p.text).toList = "data".toList ++ '.' :: p.text.toList := by simp
    have hend : ∀ c ∈ ([] : List Char).head?, isNameChar c = false := by simp
    rw [hlist, ← List.append_nil p.text.toList, ← List.append_nil p.signs]
    exact Token.cuts_data hp hend fun k => Token.cuts_nil
  obtain ⟨ts, hts, hsigns⟩ := hcuts
  obtain ⟨d, us, rfl, hd, hus⟩ := List.map_eq_cons_iff.1 hsigns
  obtain ⟨_, hparse⟩ :=
    parseOr_data (endToken ("data." ++ p.text)) hp.1 hd hus (.inl rfl) (by rw [List.append_nil])
  rw [parse, tokens, hts]
  simp only [bind, Except.bind, ofTokens, hparse]
  rfl

/-- The sum over a path into the data makes up a rule. -/
theorem parseOr_sum_data {p : Path} (hp : p ≠ []) {s o d c : Token} (hs : s.sign = (.ident, "sum"))
    (ho : o.sign = (.op, "(")) (hd : d.sign = (.ident, "data")) (hc : c.sign = (.op, ")"))
    {us : List Token} (hus : us.map Token.sign = (.op, ".") :: p.signs) :
    ∃ h, parseOr stop (s :: o :: d :: (us ++ [c])) =
      .ok ⟨.call .sum [.path .root p.ops], [], h⟩ := by
  obtain ⟨_, hdata⟩ := parseOr_data stop hp hd hus (.inr ⟨c, [], rfl, hc⟩) rfl
  have hargs : ∃ h, parseMany stop ")" (d :: (us ++ [c])) =
      .ok ⟨[.path .root p.ops], [], h⟩ := by
    have hopen : Token.opNext ")" (d :: (us ++ [c])) = false := Token.isOp_of_sign_ident hd ")"
    have hlast : Token.opNext "," [c] = false := Token.isOp_of_sign hc ","
    rw [parseMany, if_neg (by rw [hopen]; decide)]
    simp only [bind, Except.bind, hdata, hlast, Bool.false_eq_true, if_false,
      Token.expectOp_of_sign hc]
    exact ⟨Nat.zero_lt_succ _, rfl⟩
  obtain ⟨_, hargs⟩ := hargs
  have hprimary : ∃ h, parsePrimary stop (s :: o :: d :: (us ++ [c])) =
      .ok ⟨.call .sum [.path .root p.ops], [], h⟩ := by
    have hcall : Token.opNext "(" (o :: d :: (us ++ [c])) = true := Token.isOp_of_sign ho "("
    obtain ⟨kind, text, pos⟩ := s
    cases hs
    have hword : wordValue? "sum" = none := rfl
    have hdata : ("sum" == "data") = false := rfl
    have hfn : Helper.ofName? "sum" = some .sum := rfl
    rw [parsePrimary]
    simp only [bind, Except.bind, hword, hdata, hcall, hfn, Bool.false_eq_true, if_false, if_true,
      List.drop, hargs]
    exact ⟨Nat.zero_lt_succ _, rfl⟩
  obtain ⟨_, hprimary⟩ := hprimary
  refine ⟨Nat.zero_lt_succ _, parseOr_of_parseTrailed stop hs (by decide) (.inl rfl) ?_⟩
  rw [parseTrailed, hprimary]
  simp only [bind, Except.bind, parseOps_closes stop (.inl rfl)]
  rfl

/-- A sum over a path into the data is read back from its spelling. -/
theorem parse_sum_data {p : Path} (hp : p.Named) :
    parse ("sum(data." ++ p.text ++ ")") = .ok (.call .sum [.path .root p.ops]) := by
  have hcuts : Token.Cuts (Text.length16 ("sum(data." ++ p.text ++ ")")) .eof
      ("sum(data." ++ p.text ++ ")").toList
      ((.ident, "sum") :: (.op, "(") :: (.ident, "data") :: (.op, ".") ::
        (p.signs ++ [(.op, ")")])) := by
    have hlist : ("sum(data." ++ p.text ++ ")").toList =
        "sum".toList ++ '(' :: ("data".toList ++ '.' :: (p.text.toList ++ [')'])) := by
      simp
    rw [hlist]
    refine Token.cuts_name rfl (fun c hc => ?_) ?_
    · cases hc
      rfl
    refine Token.cuts_operator (by decide) (fun h => nomatch h) ?_
    refine Token.cuts_data hp (fun c hc => ?_) fun k => ?_
    · cases hc
      rfl
    · exact Token.cuts_operator (by decide) (fun h => nomatch h) Token.cuts_nil
  obtain ⟨ts, hts, hsigns⟩ := hcuts
  obtain ⟨s, ts, rfl, hs, hsigns⟩ := List.map_eq_cons_iff.1 hsigns
  obtain ⟨o, ts, rfl, ho, hsigns⟩ := List.map_eq_cons_iff.1 hsigns
  obtain ⟨d, ts, rfl, hd, hsigns⟩ := List.map_eq_cons_iff.1 hsigns
  rw [← List.cons_append] at hsigns
  obtain ⟨us, ts, rfl, hus, hsigns⟩ := List.map_eq_append_iff.1 hsigns
  obtain ⟨c, ts, rfl, hc, hsigns⟩ := List.map_eq_cons_iff.1 hsigns
  obtain rfl : ts = [] := List.map_eq_nil_iff.1 hsigns
  obtain ⟨_, hparse⟩ :=
    parseOr_sum_data (endToken ("sum(data." ++ p.text ++ ")")) hp.1 hs ho hd hc hus
  rw [parse, tokens, hts]
  simp only [bind, Except.bind, ofTokens, hparse]
  rfl

end Rule

/-! ### The paths of fields in expressions -/

/-- A text that spells a path spells it in expressions too: after `data.` the members of its names,
in order and each followed by all items where there is a mark, and in a sum, if it has a mark, the
sum over the path. The paths that a formula sums over are, in turn, spelled by texts. -/
theorem Path.parse_in_expressions :
    (∀ text p, Path.parse text = .ok p →
      p.text = text ∧
      Rule.parse ("data." ++ text) = .ok (.path .root (p.flatMap fun s =>
        PathOp.member s.name :: if s.many then [.project] else [])) ∧
      ((∃ s ∈ p, s.many = true) → Formula.parse ("sum(" ++ text ++ ")") = .ok (.sum p))) ∧
    ∀ source f, Formula.parse source = .ok f → ∀ p ∈ f.paths, Path.parse p.text = .ok p := by
  refine ⟨fun text p hp => ?_, fun source f hf p hpaths => ?_⟩
  · have hnamed : p.Named := ⟨Path.ne_nil_of_parse hp, Path.isName_of_parse hp⟩
    have htext : p.text = text := Path.text_of_parse hp
    refine ⟨htext, ?_, fun hmarked => ?_⟩
    · rw [← htext]
      exact Rule.parse_data hnamed
    · rw [← htext]
      exact Formula.parse_sum hnamed (List.any_eq_true.2 hmarked)
  · exact (Formula.named_of_parse hf p hpaths).parse_text

-- The path in.not[].true, all names of which are words of rules.
theorem Path.parse_in_expressions_words :
    ∃ p : Path, p = [⟨"in", false⟩, ⟨"not", true⟩, ⟨"true", false⟩] ∧
      Path.parse "in.not[].true" = .ok p ∧
      Rule.parse "data.in.not[].true" =
        .ok (.path .root [.member "in", .member "not", .project, .member "true"]) ∧
      Formula.parse "sum(in.not[].true)" = .ok (.sum p) ∧
      Path.parse p.text = .ok p := by
  have hp : Path.parse "in.not[].true" =
      .ok [⟨"in", false⟩, ⟨"not", true⟩, ⟨"true", false⟩] := rfl
  obtain ⟨-, hrule, hsum⟩ := Path.parse_in_expressions.1 _ _ hp
  have hformula := hsum ⟨⟨"not", true⟩, by decide, rfl⟩
  exact ⟨_, rfl, hp, hrule, hformula,
    Path.parse_in_expressions.2 _ _ hformula _ List.mem_cons_self⟩

end PageExtract
