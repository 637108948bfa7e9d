/-
The grammar of formulas, and that the reader of formulas accepts exactly what it derives.

    expr   := term (("+" | "-") term)*
    term   := factor (("*" | "/") factor)*
    factor := number | "sum" "(" path ")" | "(" expr ")" | "-" factor
    path   := name ["[" "]"] ("." name ["[" "]"])*

The grammar is given by relations between tokens and trees. An operator has all operands before it
on its level as its left operand.

* `Spells`, `SpellsTerm`, `SpellsFactor`, `SpellsPath` — the tokens that a formula is derived from;
* `Reading.Is` — what a reader answers;
* `spells_of_parseExpr` — what is read is derived from the tokens that were read;
* `parseExpr_of_spells` — what is derived is read, up to a token that does not go on with it;
* `parse_eq_ok_iff_spells` — the formula of a source is the one that its tokens derive.
-/
import PageExtract.Proofs.Expr.Spelled

namespace PageExtract

/-- Whether a reader answers a value and a rest. -/
def Reading.Is {τ α ε : Type} {n : Nat} (x : Except ε (Reading τ α n)) (value : α)
    (rest : List τ) : Prop :=
  ∃ short, x = .ok ⟨value, rest, short⟩

theorem Reading.is_self {τ α ε : Type} {n : Nat} (r : Reading τ α n) :
    Reading.Is (.ok r : Except ε (Reading τ α n)) r.value r.rest :=
  ⟨r.short, rfl⟩

theorem Reading.is_of_eq_ok {τ α ε : Type} {n : Nat} {x : Except ε (Reading τ α n)}
    {r : Reading τ α n} (hx : x = .ok r) : Reading.Is x r.value r.rest :=
  hx ▸ Reading.is_self r

theorem Token.sign_of_isOp {t : Token} {o : String} (h : t.isOp o = true) : t.sign = (.op, o) := by
  simp only [Token.isOp, Bool.and_eq_true, decide_eq_true_eq, beq_iff_eq] at h
  exact Prod.ext h.1 h.2

/-- A token that is one operator is no other. -/
theorem Token.isOp_of_isOp {t : Token} {o : String} (h : t.isOp o = true) (u : String) :
    t.isOp u = (o == u) :=
  Token.isOp_of_sign (Token.sign_of_isOp h) u

/-- The sign of an operation. -/
def FormulaOp.sign : FormulaOp → String
  | add => "+"
  | sub => "-"
  | mul => "*"
  | div => "/"

namespace Formula

/-! ### The grammar -/

/-- The tokens of a level of a path: a name, and perhaps a mark. -/
inductive SpellsSegment : List Token → Segment → Prop
  | one {n : Token} (hn : n.kind = .ident) : SpellsSegment [n] ⟨n.text, false⟩
  | many {n l r : Token} (hn : n.kind = .ident) (hl : l.isOp "[" = true)
      (hr : r.isOp "]" = true) : SpellsSegment [n, l, r] ⟨n.text, true⟩

/-- The tokens of a path: its levels, with points between them. -/
inductive SpellsPath : List Token → Path → Prop
  | last {ts : List Token} {s : Segment} (hs : SpellsSegment ts s) : SpellsPath ts [s]
  | next {ts us : List Token} {o : Token} {s : Segment} {p : Path} (hs : SpellsSegment ts s)
      (ho : o.isOp "." = true) (hp : SpellsPath us p) : SpellsPath (ts ++ o :: us) (s :: p)

mutual

/-- The tokens of a formula: terms with `+` and `-` between them. -/
inductive Spells : List Token → Formula → Prop
  | term {ts : List Token} {f : Formula} (hf : SpellsTerm ts f) : Spells ts f
  | bin {ts us : List Token} {o : Token} {op : FormulaOp} {l r : Formula} (hl : Spells ts l)
      (hop : op = .add ∨ op = .sub) (ho : o.isOp op.sign = true) (hr : SpellsTerm us r) :
      Spells (ts ++ o :: us) (.bin op l r)

/-- The tokens of a term: factors with `*` and `/` between them. -/
inductive SpellsTerm : List Token → Formula → Prop
  | factor {ts : List Token} {f : Formula} (hf : SpellsFactor ts f) : SpellsTerm ts f
  | bin {ts us : List Token} {o : Token} {op : FormulaOp} {l r : Formula} (hl : SpellsTerm ts l)
      (hop : op = .mul ∨ op = .div) (ho : o.isOp op.sign = true) (hr : SpellsFactor us r) :
      SpellsTerm (ts ++ o :: us) (.bin op l r)

/-- The tokens of a factor: a numeral, a sum over a path with a mark, a formula in parentheses or a
negated factor. -/
inductive SpellsFactor : List Token → Formula → Prop
  | num {t : Token} (ht : t.kind = .num) :
      SpellsFactor [t] (.num (Numeral.read t.text.toList).toFloat)
  | sum {s o c : Token} {ts : List Token} {p : Path} (hs : s.isWord "sum" = true)
      (ho : o.isOp "(" = true) (hp : SpellsPath ts p) (hmany : p.any (·.many) = true)
      (hc : c.isOp ")" = true) : SpellsFactor (s :: o :: (ts ++ [c])) (.sum p)
  | paren {o c : Token} {ts : List Token} {f : Formula} (ho : o.isOp "(" = true)
      (hf : Spells ts f) (hc : c.isOp ")" = true) : SpellsFactor (o :: (ts ++ [c])) f
  | neg {o : Token} {ts : List Token} {f : Formula} (ho : o.isOp "-" = true)
      (hf : SpellsFactor ts f) : SpellsFactor (o :: ts) (.neg f)

end

/-! ### Operators -/

/-- Which of two operators a token is. -/
theorem choice_eq_some_iff {α : Type} {t : Token} {a b : String} (hab : a ≠ b) {x y z : α} :
    (if t.isOp a then some x else if t.isOp b then some y else none) = some z ↔
      (t.isOp a = true ∧ x = z) ∨ (t.isOp b = true ∧ y = z) := by
  have hnot : t.isOp a = true → t.isOp b = false := fun ha => by
    rw [Token.isOp_of_isOp ha]
    exact beq_false_of_ne hab
  cases ha : t.isOp a with
  | true => simp [hnot ha]
  | false => simp

theorem sumOp?_eq_some_iff {t : Token} {op : FormulaOp} :
    sumOp? t = some op ↔ (op = .add ∨ op = .sub) ∧ t.isOp op.sign = true := by
  rw [sumOp?, choice_eq_some_iff (by decide)]
  constructor
  · rintro (⟨ho, rfl⟩ | ⟨ho, rfl⟩)
    · exact ⟨.inl rfl, ho⟩
    · exact ⟨.inr rfl, ho⟩
  · rintro ⟨rfl | rfl, ho⟩
    · exact .inl ⟨ho, rfl⟩
    · exact .inr ⟨ho, rfl⟩

theorem productOp?_eq_some_iff {t : Token} {op : FormulaOp} :
    productOp? t = some op ↔ (op = .mul ∨ op = .div) ∧ t.isOp op.sign = true := by
  rw [productOp?, choice_eq_some_iff (by decide)]
  constructor
  · rintro (⟨ho, rfl⟩ | ⟨ho, rfl⟩)
    · exact ⟨.inl rfl, ho⟩
    · exact ⟨.inr rfl, ho⟩
  · rintro ⟨rfl | rfl, ho⟩
    · exact .inl ⟨ho, rfl⟩
    · exact .inr ⟨ho, rfl⟩

/-! ### What is read is derived -/

/-- What is left after one part is cut once more. -/
theorem split_trans {τ : Type} {ts us vs rest last : List τ} (hts : ts = us ++ rest)
    (hrest : rest = vs ++ last) : ts = us ++ vs ++ last := by
  rw [hts, hrest, List.append_assoc]

theorem split_cons {τ : Type} (t : τ) {ts us rest : List τ} (hts : ts = us ++ rest) :
    t :: ts = t :: us ++ rest :=
  congrArg (t :: ·) hts

/-- One more token closes what was read. -/
theorem split_close {τ : Type} {t : τ} {ts us rest last : List τ} (hts : ts = us ++ rest)
    (hrest : rest = t :: last) : ts = us ++ [t] ++ last :=
  split_trans hts hrest

theorem split_of_expectName {stop : Token} {ts : List Token} {r : Reading Token Token ts.length}
    (h : Token.expectName stop ts = .ok r) : ts = r.value :: r.rest ∧ r.value.kind = .ident := by
  cases ts with
  | nil => cases h
  | cons t rest =>
    rw [Token.expectName] at h
    split at h
    · cases h
      exact ⟨rfl, by assumption⟩
    · cases h

theorem split_of_expectOp {stop : Token} {o : String} {ts : List Token}
    {r : Reading Token Unit ts.length} (h : Token.expectOp stop o ts = .ok r) :
    ∃ t, ts = t :: r.rest ∧ t.isOp o = true := by
  cases ts with
  | nil => cases h
  | cons t rest =>
    rw [Token.expectOp] at h
    split at h
    · cases h
      exact ⟨t, rfl, by assumption⟩
    · cases h

/-- A name and what makes the mark after it, if it is there, are a level of a path. -/
theorem spellsSegment_of_name {n : Token} (hn : n.kind = .ident) (ts : List Token) :
    ∃ us, n :: ts = us ++ (if Token.bracketsNext ts then ts.drop 2 else ts) ∧
      SpellsSegment us ⟨n.text, Token.bracketsNext ts⟩ := by
  cases hmark : Token.bracketsNext ts with
  | false => exact ⟨[n], rfl, .one hn⟩
  | true =>
    match ts with
    | [] | [_] => cases hmark
    | l :: r :: rest =>
      rw [Token.bracketsNext, Bool.and_eq_true] at hmark
      exact ⟨[n, l, r], rfl, .many hn hmark.1 hmark.2⟩

/-- The operator that comes next is the first token. -/
theorem exists_of_opNext {o : String} {ts : List Token} (h : Token.opNext o ts = true) :
    ∃ t rest, ts = t :: rest ∧ t.isOp o = true := by
  cases ts with
  | nil => cases h
  | cons t rest => exact ⟨t, rest, rfl, h⟩

theorem spells_of_parsePath {stop : Token} {ts : List Token} {r : Reading Token Path ts.length}
    (h : parsePath stop ts = .ok r) : ∃ us, ts = us ++ r.rest ∧ SpellsPath us r.value := by
  rw [parsePath] at h
  obtain ⟨name, hname, h⟩ := exists_of_bind_eq_ok h
  obtain ⟨hts, hkind⟩ := split_of_expectName hname
  obtain ⟨vs, hvs, hsegment⟩ := spellsSegment_of_name hkind name.rest
  simp only at h
  by_cases hpoint : Token.opNext "."
      (if Token.bracketsNext name.rest then name.rest.drop 2 else name.rest) = true
  · rw [if_pos hpoint] at h
    obtain ⟨more, hmore, h⟩ := exists_of_bind_eq_ok h
    obtain ⟨o, rest, hrest, ho⟩ := exists_of_opNext hpoint
    obtain ⟨us, hus, hpath⟩ := spells_of_parsePath hmore
    cases h
    have hus' : rest = us ++ more.rest := (congrArg (List.drop 1) hrest).symm.trans hus
    exact ⟨vs ++ o :: us, split_trans (hts.trans hvs) (hrest.trans (split_cons o hus')),
      .next hsegment ho hpath⟩
  · rw [if_neg hpoint] at h
    cases h
    exact ⟨vs, hts.trans hvs, .last hsegment⟩
termination_by ts.length
decreasing_by have := name.short; grind

theorem spells_of_parseSumPath {stop : Token} {ts : List Token} {r : Reading Token Path ts.length}
    (h : parseSumPath stop ts = .ok r) :
    ∃ us, ts = us ++ r.rest ∧ SpellsPath us r.value ∧ r.value.any (·.many) = true := by
  obtain ⟨p, hp, h⟩ := exists_of_bind_eq_ok h
  split at h
  · rename_i hmany
    cases h
    obtain ⟨us, hus, hpath⟩ := spells_of_parsePath hp
    exact ⟨us, hus, hpath, hmany⟩
  · cases h

-- The lemmas call each other as the readers do, and end by the same measure. What a tail is read
-- from goes on with the tokens that its left operand is derived from.
mutual

/-- What is read as a formula is derived from the tokens that were read. -/
theorem spells_of_parseExpr {stop : Token} {ts : List Token} {r : Reading Token Formula ts.length}
    (h : parseExpr stop ts = .ok r) : ∃ us, ts = us ++ r.rest ∧ Spells us r.value := by
  rw [parseExpr] at h
  obtain ⟨t, ht, h⟩ := exists_of_bind_eq_ok h
  obtain ⟨e, he, h⟩ := exists_of_bind_eq_ok h
  obtain ⟨us, hus, hterm⟩ := spells_of_parseTerm ht
  obtain ⟨vs, hvs, hexpr⟩ := spells_of_parseExprTail (.term hterm) he
  cases h
  exact ⟨us ++ vs, split_trans hus hvs, hexpr⟩
termination_by 8 * ts.length + 4
decreasing_by
  · omega
  · have := t.short; omega

theorem spells_of_parseExprTail {stop : Token} {left : Formula} {pre ts : List Token}
    {r : Reading Token Formula (ts.length + 1)} (hleft : Spells pre left)
    (h : parseExprTail stop left ts = .ok r) :
    ∃ us, ts = us ++ r.rest ∧ Spells (pre ++ us) r.value := by
  cases ts with
  | nil =>
    rw [parseExprTail] at h
    cases h
    exact ⟨[], rfl, by rwa [List.append_nil]⟩
  | cons o rest =>
    rw [parseExprTail] at h
    split at h
    · cases h
      exact ⟨[], rfl, by rwa [List.append_nil]⟩
    · rename_i op hop
      obtain ⟨hlevel, ho⟩ := sumOp?_eq_some_iff.1 hop
      obtain ⟨t, ht, h⟩ := exists_of_bind_eq_ok h
      obtain ⟨e, he, h⟩ := exists_of_bind_eq_ok h
      obtain ⟨us, hus, hterm⟩ := spells_of_parseTerm ht
      obtain ⟨vs, hvs, hexpr⟩ := spells_of_parseExprTail (.bin hleft hlevel ho hterm) he
      cases h
      exact ⟨o :: (us ++ vs), split_cons o (split_trans hus hvs), by simpa using hexpr⟩
termination_by 8 * ts.length
decreasing_by
  · grind
  · have := t.short; grind

theorem spells_of_parseTerm {stop : Token} {ts : List Token} {r : Reading Token Formula ts.length}
    (h : parseTerm stop ts = .ok r) : ∃ us, ts = us ++ r.rest ∧ SpellsTerm us r.value := by
  rw [parseTerm] at h
  obtain ⟨f, hf, h⟩ := exists_of_bind_eq_ok h
  obtain ⟨t, ht, h⟩ := exists_of_bind_eq_ok h
  obtain ⟨us, hus, hfactor⟩ := spells_of_parseFactor hf
  obtain ⟨vs, hvs, hterm⟩ := spells_of_parseTermTail (.factor hfactor) ht
  cases h
  exact ⟨us ++ vs, split_trans hus hvs, hterm⟩
termination_by 8 * ts.length + 3
decreasing_by
  · omega
  · have := f.short; omega

theorem spells_of_parseTermTail {stop : Token} {left : Formula} {pre ts : List Token}
    {r : Reading Token Formula (ts.length + 1)} (hleft : SpellsTerm pre left)
    (h : parseTermTail stop left ts = .ok r) :
    ∃ us, ts = us ++ r.rest ∧ SpellsTerm (pre ++ us) r.value := by
  cases ts with
  | nil =>
    rw [parseTermTail] at h
    cases h
    exact ⟨[], rfl, by rwa [List.append_nil]⟩
  | cons o rest =>
    rw [parseTermTail] at h
    split at h
    · cases h
      exact ⟨[], rfl, by rwa [List.append_nil]⟩
    · rename_i op hop
      obtain ⟨hlevel, ho⟩ := productOp?_eq_some_iff.1 hop
      obtain ⟨f, hf, h⟩ := exists_of_bind_eq_ok h
      obtain ⟨t, ht, h⟩ := exists_of_bind_eq_ok h
      obtain ⟨us, hus, hfactor⟩ := spells_of_parseFactor hf
      obtain ⟨vs, hvs, hterm⟩ := spells_of_parseTermTail (.bin hleft hlevel ho hfactor) ht
      cases h
      exact ⟨o :: (us ++ vs), split_cons o (split_trans hus hvs), by simpa using hterm⟩
termination_by 8 * ts.length
decreasing_by
  · grind
  · have := f.short; grind

theorem spells_of_parseFactor {stop : Token} {ts : List Token}
    {r : Reading Token Formula ts.length} (h : parseFactor stop ts = .ok r) :
    ∃ us, ts = us ++ r.rest ∧ SpellsFactor us r.value := by
  cases ts with
  | nil =>
    rw [parseFactor] at h
    cases h
  | cons t rest =>
    rw [parseFactor] at h
    split at h
    · rename_i ht
      obtain ⟨f, hf, h⟩ := exists_of_bind_eq_ok h
      obtain ⟨us, hus, hfactor⟩ := spells_of_parseFactor hf
      cases h
      exact ⟨t :: us, split_cons t hus, .neg ht hfactor⟩
    split at h
    · rename_i ht
      obtain ⟨e, he, h⟩ := exists_of_bind_eq_ok h
      obtain ⟨c, hc, h⟩ := exists_of_bind_eq_ok h
      obtain ⟨us, hus, hexpr⟩ := spells_of_parseExpr he
      obtain ⟨d, hd, hclose⟩ := split_of_expectOp hc
      cases h
      exact ⟨t :: (us ++ [d]), split_cons t (split_close hus hd), .paren ht hexpr hclose⟩
    split at h
    · rename_i ht
      cases h
      exact ⟨[t], rfl, .num ht⟩
    split at h
    · rename_i ht
      obtain ⟨o, ho, h⟩ := exists_of_bind_eq_ok h
      obtain ⟨p, hp, h⟩ := exists_of_bind_eq_ok h
      obtain ⟨c, hc, h⟩ := exists_of_bind_eq_ok h
      obtain ⟨b, hb, hopen⟩ := split_of_expectOp ho
      obtain ⟨us, hus, hpath, hmany⟩ := spells_of_parseSumPath hp
      obtain ⟨d, hd, hclose⟩ := split_of_expectOp hc
      cases h
      exact ⟨t :: b :: (us ++ [d]),
        split_cons t (hb.trans (split_cons b (split_close hus hd))),
        .sum ht hopen hpath hmany hclose⟩
    · cases h
termination_by 8 * ts.length + 2
decreasing_by all_goals grind

end

/-! ### What is derived is read -/

theorem signs_of_spellsSegment {ts : List Token} {s : Segment} (h : SpellsSegment ts s) :
    ts.map Token.sign = s.signs := by
  cases h with
  | one hn => rw [Segment.signs, List.map_singleton, Token.sign, hn]; rfl
  | many hn hl hr =>
    rw [Segment.signs, List.map_cons, List.map_cons, List.map_singleton, Token.sign_of_isOp hl,
      Token.sign_of_isOp hr, Token.sign, hn]
    rfl

theorem signs_of_spellsPath {ts : List Token} {p : Path} (h : SpellsPath ts p) :
    ts.map Token.sign = p.signs ∧ p ≠ [] := by
  induction h with
  | last hs => exact ⟨signs_of_spellsSegment hs, List.cons_ne_nil _ _⟩
  | next hs ho _ ih =>
    rename_i p _
    refine ⟨?_, List.cons_ne_nil _ _⟩
    rw [List.map_append, List.map_cons, signs_of_spellsSegment hs, Token.sign_of_isOp ho, ih.1]
    cases p with
    | nil => exact absurd rfl ih.2
    | cons s p => rfl

section

variable {stop : Token} {f g left : Formula} {ts mid last rest : List Token}

/-- Whether the next token, if there is one, is no operator between factors. -/
def EndsTerm (ts : List Token) : Prop := ∀ t ∈ ts.head?, productOp? t = none

/-- Whether the next token, if there is one, is no operator between terms. -/
def EndsExpr (ts : List Token) : Prop := ∀ t ∈ ts.head?, sumOp? t = none

theorem is_parseTermTail_nil (h : EndsTerm rest) :
    Reading.Is (parseTermTail stop left rest) left rest := by
  cases rest with
  | nil => rw [parseTermTail]; exact Reading.is_self _
  | cons t rest => rw [parseTermTail, h t rfl]; exact Reading.is_self _

theorem is_parseExprTail_nil (h : EndsExpr rest) :
    Reading.Is (parseExprTail stop left rest) left rest := by
  cases rest with
  | nil => rw [parseExprTail]; exact Reading.is_self _
  | cons t rest => rw [parseExprTail, h t rfl]; exact Reading.is_self _

theorem is_parseTermTail_cons {o : Token} {op : FormulaOp} (ho : productOp? o = some op)
    (hf : Reading.Is (parseFactor stop ts) f mid)
    (ht : Reading.Is (parseTermTail stop (.bin op left f) mid) g last) :
    Reading.Is (parseTermTail stop left (o :: ts)) g last := by
  obtain ⟨_, hf⟩ := hf
  obtain ⟨_, ht⟩ := ht
  rw [parseTermTail, ho]
  simp only [bind, Except.bind, hf, ht]
  exact ⟨_, rfl⟩

theorem is_parseExprTail_cons {o : Token} {op : FormulaOp} (ho : sumOp? o = some op)
    (hf : Reading.Is (parseTerm stop ts) f mid)
    (ht : Reading.Is (parseExprTail stop (.bin op left f) mid) g last) :
    Reading.Is (parseExprTail stop left (o :: ts)) g last := by
  obtain ⟨_, hf⟩ := hf
  obtain ⟨_, ht⟩ := ht
  rw [parseExprTail, ho]
  simp only [bind, Except.bind, hf, ht]
  exact ⟨_, rfl⟩

theorem is_parseTerm (hf : Reading.Is (parseFactor stop ts) f mid)
    (ht : Reading.Is (parseTermTail stop f mid) g last) :
    Reading.Is (parseTerm stop ts) g last := by
  obtain ⟨_, hf⟩ := hf
  obtain ⟨_, ht⟩ := ht
  rw [parseTerm]
  simp only [bind, Except.bind, hf, ht]
  exact ⟨_, rfl⟩

theorem is_parseExpr (hf : Reading.Is (parseTerm stop ts) f mid)
    (ht : Reading.Is (parseExprTail stop f mid) g last) :
    Reading.Is (parseExpr stop ts) g last := by
  obtain ⟨_, hf⟩ := hf
  obtain ⟨_, ht⟩ := ht
  rw [parseExpr]
  simp only [bind, Except.bind, hf, ht]
  exact ⟨_, rfl⟩

theorem is_parseFactor_neg {o : Token} (ho : o.isOp "-" = true)
    (hf : Reading.Is (parseFactor stop ts) f rest) :
    Reading.Is (parseFactor stop (o :: ts)) (.neg f) rest := by
  obtain ⟨_, hf⟩ := hf
  rw [parseFactor, if_pos ho]
  simp only [bind, Except.bind, hf]
  exact ⟨_, rfl⟩

theorem is_parseFactor_num {t : Token} (ht : t.kind = .num) :
    Reading.Is (parseFactor stop (t :: rest)) (.num (Numeral.read t.text.toList).toFloat) rest := by
  have hop : ∀ o, t.isOp o = false := fun o => by simp [Token.isOp, ht]
  rw [parseFactor, hop, hop, if_neg Bool.false_ne_true, if_neg Bool.false_ne_true, if_pos ht]
  exact Reading.is_self _

theorem is_parseFactor_paren {o c : Token} (ho : o.isOp "(" = true) (hc : c.isOp ")" = true)
    (hf : Reading.Is (parseExpr stop ts) f (c :: rest)) :
    Reading.Is (parseFactor stop (o :: ts)) f rest := by
  obtain ⟨_, hf⟩ := hf
  have hminus : o.isOp "-" = false := by
    rw [Token.isOp_of_isOp ho]
    rfl
  rw [parseFactor, hminus, if_neg Bool.false_ne_true, if_pos ho]
  simp only [bind, Except.bind, hf, Token.expectOp_of_sign (Token.sign_of_isOp hc)]
  exact ⟨_, rfl⟩

theorem is_parseFactor_sum {s o c : Token} {p : Path} (hs : s.isWord "sum" = true)
    (ho : o.isOp "(" = true) (hc : c.isOp ")" = true)
    (hp : Reading.Is (parseSumPath stop ts) p (c :: rest)) :
    Reading.Is (parseFactor stop (s :: o :: ts)) (.sum p) rest := by
  obtain ⟨_, hp⟩ := hp
  have hkind : s.kind = .ident := by
    simp only [Token.isWord, Bool.and_eq_true, decide_eq_true_eq] at hs
    exact hs.1
  have hop : ∀ o, s.isOp o = false := fun o => by simp [Token.isOp, hkind]
  rw [parseFactor, hop, hop, if_neg Bool.false_ne_true, if_neg Bool.false_ne_true,
    if_neg (by rw [hkind]; decide), if_pos hs]
  simp only [bind, Except.bind, Token.expectOp_of_sign (Token.sign_of_isOp ho), hp,
    Token.expectOp_of_sign (Token.sign_of_isOp hc)]
  exact ⟨_, rfl⟩

/-- An operator between terms ends a term. -/
theorem endsTerm_of_sum {o : Token} {op : FormulaOp} (hop : op = .add ∨ op = .sub)
    (ho : o.isOp op.sign = true) (ts : List Token) : EndsTerm (o :: ts) := by
  intro t ht
  cases ht
  rw [productOp?, Token.isOp_of_isOp ho, Token.isOp_of_isOp ho]
  obtain rfl | rfl := hop <;> rfl

/-- A closing parenthesis ends a formula. -/
theorem ends_of_close {c : Token} (hc : c.isOp ")" = true) (ts : List Token) :
    EndsTerm (c :: ts) ∧ EndsExpr (c :: ts) := by
  constructor
  · intro t ht
    cases ht
    rw [productOp?, Token.isOp_of_isOp hc, Token.isOp_of_isOp hc]
    rfl
  · intro t ht
    cases ht
    rw [sumOp?, Token.isOp_of_isOp hc, Token.isOp_of_isOp hc]
    rfl

end

-- The induction is on the derivation. As the readers collect operators from left to right, what is
-- derived is read as the beginning of whatever the tail after it makes of it.
mutual

/-- A formula is read from the tokens that it is derived from, and the operators after it go on
with it. -/
theorem parseExpr_of_spells {stop : Token} {us rest last : List Token} {f g : Formula}
    (hrest : EndsTerm rest) (htail : Reading.Is (parseExprTail stop f rest) g last) :
    Spells us f → Reading.Is (parseExpr stop (us ++ rest)) g last
  | .term hf => is_parseExpr (parseTerm_of_spells (is_parseTermTail_nil hrest) hf) htail
  | .bin hl hop ho hr => by
    rw [List.append_assoc, List.cons_append]
    refine parseExpr_of_spells (endsTerm_of_sum hop ho _) ?_ hl
    exact is_parseExprTail_cons (sumOp?_eq_some_iff.2 ⟨hop, ho⟩)
      (parseTerm_of_spells (is_parseTermTail_nil hrest) hr) htail

theorem parseTerm_of_spells {stop : Token} {us rest last : List Token} {f g : Formula}
    (htail : Reading.Is (parseTermTail stop f rest) g last) :
    SpellsTerm us f → Reading.Is (parseTerm stop (us ++ rest)) g last
  | .factor hf => is_parseTerm (parseFactor_of_spells hf) htail
  | .bin hl hop ho hr => by
    rw [List.append_assoc, List.cons_append]
    refine parseTerm_of_spells ?_ hl
    exact is_parseTermTail_cons (productOp?_eq_some_iff.2 ⟨hop, ho⟩) (parseFactor_of_spells hr)
      htail

theorem parseFactor_of_spells {stop : Token} {us rest : List Token} {f : Formula} :
    SpellsFactor us f → Reading.Is (parseFactor stop (us ++ rest)) f rest
  | .num ht => is_parseFactor_num ht
  | .sum (p := p) (c := c) hs ho hp hmany hc => by
    obtain ⟨hsigns, hne⟩ := signs_of_spellsPath hp
    have hmark : Token.bracketsNext (c :: rest) = false := by
      cases rest <;> simp [Token.bracketsNext, Token.isOp_of_isOp hc]
    have hpoint : Token.opNext "." (c :: rest) = false := by
      simp [Token.opNext, Token.isOp_of_isOp hc]
    obtain ⟨r, hr, hvalue, hrest⟩ := parseSumPath_signs stop hne hmany hsigns hmark hpoint
    have his := Reading.is_of_eq_ok hr
    rw [hvalue, hrest] at his
    rw [List.cons_append, List.cons_append, List.append_assoc, List.singleton_append]
    exact is_parseFactor_sum hs ho hc his
  | .paren (c := c) ho hf hc => by
    have hends := ends_of_close hc rest
    rw [List.cons_append, List.append_assoc, List.singleton_append]
    exact is_parseFactor_paren ho hc
      (parseExpr_of_spells hends.1 (is_parseExprTail_nil hends.2) hf)
  | .neg ho hf => is_parseFactor_neg ho (parseFactor_of_spells hf)

end

/-! ### Formulas -/

/-- The tokens of a source are its tokens without the end, and the end. -/
theorem tokenize_eq_ok_iff {source : String} {ts : List Token} :
    tokenize source = .ok (ts ++ [endToken source]) ↔ tokens source = .ok ts := by
  unfold tokenize
  cases tokens source with
  | error e => exact ⟨nofun, nofun⟩
  | ok us =>
    constructor
    · intro h
      exact congrArg Except.ok (List.append_cancel_right (Except.ok.inj h))
    · intro h
      cases h
      rfl

/-- A source spells a formula exactly if it is cut into tokens that derive the formula. -/
theorem parse_eq_ok_iff {source : String} {f : Formula} :
    parse source = .ok f ↔ ∃ ts, tokens source = .ok ts ∧ Spells ts f := by
  constructor
  · intro h
    obtain ⟨ts, hts, h⟩ := exists_of_bind_eq_ok h
    obtain ⟨e, he, h⟩ := exists_of_bind_eq_ok h
    obtain ⟨us, hus, hexpr⟩ := spells_of_parseExpr he
    split at h
    · rename_i hnil
      cases h
      rw [hnil, List.append_nil] at hus
      exact ⟨ts, hts, hus ▸ hexpr⟩
    · cases h
  · rintro ⟨ts, hts, hexpr⟩
    have hends : EndsTerm [] ∧ EndsExpr [] := by
      constructor <;> rintro t ⟨⟩
    have hparse : Reading.Is (parseExpr (endToken source) (ts ++ [])) f [] :=
      parseExpr_of_spells hends.1 (is_parseExprTail_nil hends.2) hexpr
    rw [List.append_nil] at hparse
    obtain ⟨_, hparse⟩ := hparse
    rw [parse, hts]
    simp only [bind, Except.bind, ofTokens, hparse]
    rfl

/-- A text spells a formula exactly if it is cut into tokens that derive the formula, up to the end
of the text; any other text is refused with an error. -/
theorem parse_eq_ok_iff_spells (source : String) :
    (∀ f, parse source = .ok f ↔
      ∃ ts, tokenize source = .ok (ts ++ [endToken source]) ∧ Spells ts f) ∧
    ((∃ e, parse source = .error e) ↔
      ¬ ∃ f ts, tokenize source = .ok (ts ++ [endToken source]) ∧ Spells ts f) := by
  have hok : ∀ f, parse source = .ok f ↔
      ∃ ts, tokenize source = .ok (ts ++ [endToken source]) ∧ Spells ts f := fun f => by
    simp only [tokenize_eq_ok_iff, parse_eq_ok_iff]
  refine ⟨hok, ?_⟩
  simp only [← hok]
  cases parse source with
  | error e => simp
  | ok f => simp

end Formula

end PageExtract
