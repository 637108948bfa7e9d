/-
What the readers of rules make of the pieces of a rule.

For each kind of rule: if its operands are read from their tokens, then the rule is read from the
tokens of its pieces, on the level of its operator:

* `Rule.joins_logic`, `Rule.joins_arith`, `Rule.Begins.join` — operators between two operands;
* `Rule.Reads.not`, `Rule.Reads.neg` — operators before an operand;
* `Rule.Reads.compare`, `Rule.Reads.path` — chains of comparisons and paths;
* `Rule.reads_list`, `Rule.reads_dict`, `Rule.reads_call` — rules with commas between them;
* `Rule.Holds.group` — operands in parentheses if they need them.
-/
import PageExtract.Proofs.Rule.Levels
import PageExtract.Proofs.Rule.Text

namespace PageExtract

open Piece

namespace Rule

variable {stop : Token}

/-! ### Operators between two operands -/

section

variable {n : Nat} {sign : TokenKind × String} {f : Rule Float → Rule Float → Rule Float}
  {signs signs' : List (TokenKind × String)} {l r : Rule Float}

/-- An operator of a level goes on with what stands before it. -/
def Joins (stop : Token) (n : Nat) (sign : TokenKind × String)
    (f : Rule Float → Rule Float → Rule Float) : Prop :=
  ∀ {t ts l r mid g last}, t.sign = sign → Reading.Is (reader stop (n + 1) ts) r mid →
    Reading.Is (tail stop n (f l r) mid) g last → Reading.Is (tail stop n l (t :: ts)) g last

theorem joins_logic (op : LogicOp) : Joins stop op.level (.ident, op.text) (.logic op) := by
  intro t ts l r mid g last ht hr htail
  obtain ⟨_, hr⟩ := hr
  obtain ⟨_, htail⟩ := htail
  have hword : t.isWord op.text = true := by rw [Token.isWord_of_sign ht, beq_self_eq_true]
  cases op with
  | or =>
    change t.isWord "or" = true at hword
    change parseAnd stop ts = _ at hr
    change parseOrTail stop _ mid = _ at htail
    change Reading.Is (parseOrTail stop l (t :: ts)) g last
    rw [parseOrTail, if_pos hword]
    simp only [bind, Except.bind, hr, htail]
    exact ⟨_, rfl⟩
  | and =>
    change t.isWord "and" = true at hword
    change parseNot stop ts = _ at hr
    change parseAndTail stop _ mid = _ at htail
    change Reading.Is (parseAndTail stop l (t :: ts)) g last
    rw [parseAndTail, if_pos hword]
    simp only [bind, Except.bind, hr, htail]
    exact ⟨_, rfl⟩

theorem sumOp?_of_sign {t : Token} {op : ArithOp} (hop : op.level = 4)
    (ht : t.sign = (.op, op.text)) : sumOp? t = some op := by
  rw [sumOp?, Token.isOp_of_sign ht, Token.isOp_of_sign ht]
  cases op with
  | add | sub => rfl
  | mul | div | mod => cases hop

theorem productOp?_of_sign {t : Token} {op : ArithOp} (hop : op.level = 5)
    (ht : t.sign = (.op, op.text)) : productOp? t = some op := by
  rw [productOp?, Token.isOp_of_sign ht, Token.isOp_of_sign ht, Token.isOp_of_sign ht]
  cases op with
  | add | sub => cases hop
  | mul | div | mod => rfl

theorem joins_arith (op : ArithOp) : Joins stop op.level (.op, op.text) (.arith op) := by
  intro t ts l r mid g last ht hr htail
  obtain ⟨_, hr⟩ := hr
  obtain ⟨_, htail⟩ := htail
  have hlevel : op.level = 4 ∨ op.level = 5 := by cases op <;> decide
  obtain hop | hop := hlevel
  · rw [hop] at hr htail ⊢
    change parseTerm stop ts = _ at hr
    change parseArithTail stop _ mid = _ at htail
    change Reading.Is (parseArithTail stop l (t :: ts)) g last
    rw [parseArithTail, sumOp?_of_sign hop ht]
    simp only [bind, Except.bind, hr, htail]
    exact ⟨_, rfl⟩
  · rw [hop] at hr htail ⊢
    change parseSigned stop ts = _ at hr
    change parseTermTail stop _ mid = _ at htail
    change Reading.Is (parseTermTail stop l (t :: ts)) g last
    rw [parseTermTail, productOp?_of_sign hop ht]
    simp only [bind, Except.bind, hr, htail]
    exact ⟨_, rfl⟩

/-- Two operands with an operator between them that associates to the left. -/
theorem Begins.join (hf : Joins stop n sign f) (hsign : Token.binding sign ≤ n + 1)
    (hl : Begins stop n signs l) (hr : Reads stop (n + 1) signs' r) :
    Begins stop n (signs ++ sign :: signs') (f l r) := by
  intro us rest g last hus hrest htail
  obtain ⟨vs, ws, rfl, hvs, hws⟩ := List.map_eq_append_iff.1 hus
  obtain ⟨t, ws, rfl, ht, hws⟩ := List.map_eq_cons_iff.1 hws
  rw [List.append_assoc, List.cons_append]
  -- The left operand was begun, and the operator goes on with it before `rest` does.
  refine hl vs _ g last hvs (ends_cons (by rwa [ht])) ?_
  exact hf ht (hr ws rest hws hrest) htail

theorem Reads.holds (hn : ¬ AssociatesLeft n) (h : Reads stop n signs r) : Holds stop n signs r :=
  ⟨h, fun hassoc => absurd hassoc hn⟩

/-! ### Operators before an operand -/

theorem Reads.not (h : Reads stop 2 signs r) :
    Reads stop 2 ((.ident, "not") :: signs) (.not r) := by
  intro us rest hus hrest
  obtain ⟨t, us, rfl, ht, hus⟩ := List.map_eq_cons_iff.1 hus
  obtain ⟨_, hr⟩ := h us rest hus hrest
  change Reading.Is (parseNot stop (t :: (us ++ rest))) (.not r) rest
  rw [parseNot, if_pos (by rw [Token.isWord_of_sign ht]; rfl)]
  simp only [bind, Except.bind, show parseNot stop _ = _ from hr]
  exact ⟨_, rfl⟩

theorem Reads.neg (h : Reads stop 6 signs r) : Reads stop 6 ((.op, "-") :: signs) (.neg r) := by
  intro us rest hus hrest
  obtain ⟨t, us, rfl, ht, hus⟩ := List.map_eq_cons_iff.1 hus
  obtain ⟨_, hr⟩ := h us rest hus hrest
  change Reading.Is (parseSigned stop (t :: (us ++ rest))) (.neg r) rest
  rw [parseSigned, if_pos (by rw [Token.isOp_of_sign ht]; rfl)]
  simp only [bind, Except.bind, show parseSigned stop _ = _ from hr]
  exact ⟨_, rfl⟩

/-! ### Parentheses -/

theorem Reads.paren (h : Reads stop 0 signs r) :
    Reads stop 9 ((.op, "(") :: (signs ++ [(.op, ")")])) r := by
  intro us rest hus _
  obtain ⟨o, us, rfl, ho, hus⟩ := List.map_eq_cons_iff.1 hus
  obtain ⟨vs, cs, rfl, hvs, hcs⟩ := List.map_eq_append_iff.1 hus
  obtain ⟨c, cs, rfl, hc, hcs⟩ := List.map_eq_cons_iff.1 hcs
  obtain rfl : cs = [] := List.map_eq_nil_iff.1 hcs
  obtain ⟨_, hr⟩ := h vs (c :: rest) hvs (ends_cons (by rw [hc]; decide))
  obtain ⟨hkind, htext⟩ := Prod.mk.inj ho
  rw [List.cons_append, List.append_assoc, List.singleton_append]
  change Reading.Is (parsePrimary stop (o :: (vs ++ c :: rest))) r rest
  rw [parsePrimary, hkind, htext]
  simp only [beq_self_eq_true, if_true, bind, Except.bind, show parseOr stop _ = _ from hr,
    Token.expectOp_of_sign hc]
  exact ⟨_, rfl⟩

/-- An operand, in parentheses if its operator binds less tightly than it has to. -/
theorem Holds.group {ps : List Piece} {least : Nat} (h : Holds stop n (Piece.signs ps) r)
    (hleast : least ≤ 9) : Holds stop least (Piece.signs (Piece.group least n ps)) r := by
  unfold Piece.group
  split
  · rw [signs_mark, signs_append]
    exact ((h.mono n.zero_le).reads.paren.holds (by simp [AssociatesLeft])).mono hleast
  · rename_i hn
    exact h.mono (Nat.le_of_not_lt hn)

end

/-! ### What stands alone -/

section

variable {s : String} {v : Scalar Float} {sign : TokenKind × String} {r : Rule Float}

theorem reads_single
    (h : ∀ t rest, t.sign = sign → Reading.Is (parsePrimary stop (t :: rest)) r rest) :
    Reads stop 9 [sign] r := by
  intro us rest hus _
  obtain ⟨t, us, rfl, ht, hus⟩ := List.map_eq_cons_iff.1 hus
  obtain rfl : us = [] := List.map_eq_nil_iff.1 hus
  exact h t rest ht

theorem reads_word (hs : wordValue? s = some v) : Reads stop 9 [(.ident, s)] (.lit v) := by
  refine reads_single fun t rest ht => ?_
  obtain ⟨hkind, htext⟩ := Prod.mk.inj ht
  rw [parsePrimary, hkind, htext]
  simp only [hs]
  exact ⟨_, rfl⟩

theorem reads_numeral {x : Float} (hs : (Numeral.read s.toList).toFloat = x) :
    Reads stop 9 [(.num, s)] (.lit (.num x)) := by
  refine reads_single fun t rest ht => ?_
  obtain ⟨hkind, htext⟩ := Prod.mk.inj ht
  rw [parsePrimary, hkind, htext, hs]
  exact ⟨_, rfl⟩

theorem reads_quoted : Reads stop 9 [(.str, s)] (.lit (.str s)) := by
  refine reads_single fun t rest ht => ?_
  obtain ⟨hkind, htext⟩ := Prod.mk.inj ht
  rw [parsePrimary, hkind, htext]
  exact ⟨_, rfl⟩

theorem reads_root : Reads stop 9 [(.ident, "data")] .root := by
  refine reads_single fun t rest ht => ?_
  obtain ⟨hkind, htext⟩ := Prod.mk.inj ht
  rw [parsePrimary, hkind, htext]
  exact ⟨_, rfl⟩

end

/-! ### Rules with commas between them -/

section

variable {close : String} {us ts mid last rest : List Token} {c o : Token} {r k v : Rule Float}
  {rs : List (Rule Float)} {es : List (Rule Float × Rule Float)}

/-- Where a rule is read, nothing is closed. -/
theorem opNext_of_is {m : String} (hm : (.op, m) ∈ closers)
    (h : Reading.Is (parseOr stop ts) r rest) : Token.opNext m ts = false := by
  cases ts with
  | nil => rfl
  | cons t ts =>
    change t.isOp m = false
    rw [Bool.eq_false_iff]
    intro hop
    exact (fails_parseOr (by rwa [Token.sign_of_isOp hop])).not_is r rest h

theorem comma_of_sign_closer (hclose : (.op, close) ∈ closers) (hc : c.sign = (.op, close)) :
    Token.opNext "," (c :: rest) = false := by
  rw [Token.opNext, Token.isOp_of_sign hc]
  exact beq_false_of_ne (by rintro rfl; exact absurd hclose (by decide))

theorem ends_closer (hclose : (.op, close) ∈ closers) (hc : c.sign = (.op, close)) :
    Ends 0 (c :: rest) := by
  refine ends_cons ?_
  rw [← hc] at hclose
  simp only [closers, List.mem_cons, List.not_mem_nil, or_false] at hclose
  rcases hclose with h | h | h <;> rw [h] <;> decide

theorem is_parseMany_nil (hc : c.sign = (.op, close)) :
    Reading.Is (parseMany stop close (c :: rest)) [] rest := by
  have hnext : Token.opNext close (c :: rest) = true := by
    rw [Token.opNext, Token.isOp_of_sign hc, beq_self_eq_true]
  rw [parseMany, if_pos hnext]
  exact ⟨_, rfl⟩

theorem is_parseMany_last (hclose : (.op, close) ∈ closers) (hc : c.sign = (.op, close))
    (hr : Reading.Is (parseOr stop ts) r (c :: rest)) :
    Reading.Is (parseMany stop close ts) [r] rest := by
  have hnext := opNext_of_is hclose hr
  obtain ⟨_, hr⟩ := hr
  rw [parseMany, hnext, if_neg Bool.false_ne_true, hr]
  simp only [bind, Except.bind, comma_of_sign_closer hclose hc, Bool.false_eq_true, if_false,
    Token.expectOp_of_sign hc]
  exact ⟨_, rfl⟩

theorem is_parseMany_cons (hclose : (.op, close) ∈ closers) (hc : c.sign = (.op, ","))
    (hr : Reading.Is (parseOr stop ts) r (c :: mid))
    (hrs : Reading.Is (parseMany stop close mid) rs rest) :
    Reading.Is (parseMany stop close ts) (r :: rs) rest := by
  have hnext := opNext_of_is hclose hr
  have hcomma : Token.opNext "," (c :: mid) = true := Token.isOp_of_sign hc ","
  obtain ⟨_, hr⟩ := hr
  obtain ⟨_, hrs⟩ := hrs
  rw [parseMany, hnext, if_neg Bool.false_ne_true, hr]
  simp only [bind, Except.bind, hcomma, if_true, List.drop, hrs]
  exact ⟨_, rfl⟩

/-- Rules with commas between them are read up to the mark that closes them. -/
theorem readsMany_items (hclose : (.op, close) ∈ closers) {items : List (Rule Float)}
    (hitems : ∀ r ∈ items, Reads stop 0 (signs r.pieces) r)
    (hus : us.map Token.sign = signs (itemPieces close items)) :
    Reading.Is (parseMany stop close (us ++ rest)) items rest := by
  induction items generalizing us with
  | nil =>
    obtain ⟨c, us, rfl, hc, hus⟩ := List.map_eq_cons_iff.1 hus
    obtain rfl : us = [] := List.map_eq_nil_iff.1 hus
    exact is_parseMany_nil hc
  | cons r items ih =>
    obtain ⟨hr, hitems⟩ := List.forall_mem_cons.1 hitems
    cases items with
    | nil =>
      rw [itemPieces, signs_append] at hus
      obtain ⟨vs, cs, rfl, hvs, hcs⟩ := List.map_eq_append_iff.1 hus
      obtain ⟨c, cs, rfl, hc, hcs⟩ := List.map_eq_cons_iff.1 hcs
      obtain rfl : cs = [] := List.map_eq_nil_iff.1 hcs
      rw [List.append_assoc, List.singleton_append]
      exact is_parseMany_last hclose hc (hr vs (c :: rest) hvs (ends_closer hclose hc))
    | cons s items =>
      rw [itemPieces, signs_append, signs_mark, signs_space] at hus
      obtain ⟨vs, ws, rfl, hvs, hws⟩ := List.map_eq_append_iff.1 hus
      obtain ⟨c, ws, rfl, hc, hws⟩ := List.map_eq_cons_iff.1 hws
      rw [List.append_assoc, List.cons_append]
      exact is_parseMany_cons hclose hc (hr vs _ hvs (ends_cons (by rw [hc]; decide)))
        (ih hitems hws)

theorem is_parseEntries_nil (hc : c.sign = (.op, "\x7d")) :
    Reading.Is (parseEntries stop (c :: rest)) [] rest := by
  have hnext : Token.opNext "\x7d" (c :: rest) = true := Token.isOp_of_sign hc "\x7d"
  rw [parseEntries, if_pos hnext]
  exact ⟨_, rfl⟩

theorem is_parseEntries_last (ho : o.sign = (.op, ":")) (hc : c.sign = (.op, "\x7d"))
    (hk : Reading.Is (parseOr stop ts) k (o :: mid))
    (hv : Reading.Is (parseOr stop mid) v (c :: rest)) :
    Reading.Is (parseEntries stop ts) [(k, v)] rest := by
  have hnext := opNext_of_is (m := "\x7d") (by decide) hk
  obtain ⟨_, hk⟩ := hk
  obtain ⟨_, hv⟩ := hv
  rw [parseEntries, hnext, if_neg Bool.false_ne_true, hk]
  simp only [bind, Except.bind, Token.expectOp_of_sign ho, hv,
    comma_of_sign_closer (by decide) hc, Bool.false_eq_true, if_false, Token.expectOp_of_sign hc]
  exact ⟨_, rfl⟩

theorem is_parseEntries_cons (ho : o.sign = (.op, ":")) (hc : c.sign = (.op, ","))
    (hk : Reading.Is (parseOr stop ts) k (o :: mid))
    (hv : Reading.Is (parseOr stop mid) v (c :: last))
    (hes : Reading.Is (parseEntries stop last) es rest) :
    Reading.Is (parseEntries stop ts) ((k, v) :: es) rest := by
  have hnext := opNext_of_is (m := "\x7d") (by decide) hk
  have hcomma : Token.opNext "," (c :: last) = true := Token.isOp_of_sign hc ","
  obtain ⟨_, hk⟩ := hk
  obtain ⟨_, hv⟩ := hv
  obtain ⟨_, hes⟩ := hes
  rw [parseEntries, hnext, if_neg Bool.false_ne_true, hk]
  simp only [bind, Except.bind, Token.expectOp_of_sign ho, hv, hcomma, if_true, List.drop, hes]
  exact ⟨_, rfl⟩

/-- The entries of a map are read up to the brace that closes them. -/
theorem readsEntries {entries : List (Rule Float × Rule Float)}
    (hkeys : ∀ e ∈ entries, Reads stop 0 (signs e.1.pieces) e.1)
    (hvalues : ∀ e ∈ entries, Reads stop 0 (signs e.2.pieces) e.2)
    (hus : us.map Token.sign = signs (entryPieces entries)) :
    Reading.Is (parseEntries stop (us ++ rest)) entries rest := by
  induction entries generalizing us with
  | nil =>
    obtain ⟨c, us, rfl, hc, hus⟩ := List.map_eq_cons_iff.1 hus
    obtain rfl : us = [] := List.map_eq_nil_iff.1 hus
    exact is_parseEntries_nil hc
  | cons e entries ih =>
    obtain ⟨k, v⟩ := e
    obtain ⟨hk, hkeys⟩ := List.forall_mem_cons.1 hkeys
    obtain ⟨hv, hvalues⟩ := List.forall_mem_cons.1 hvalues
    cases entries with
    | nil =>
      rw [entryPieces, signs_append, signs_mark, signs_space, signs_append] at hus
      obtain ⟨vs, ws, rfl, hvs, hws⟩ := List.map_eq_append_iff.1 hus
      obtain ⟨o, ws, rfl, ho, hws⟩ := List.map_eq_cons_iff.1 hws
      obtain ⟨xs, cs, rfl, hxs, hcs⟩ := List.map_eq_append_iff.1 hws
      obtain ⟨c, cs, rfl, hc, hcs⟩ := List.map_eq_cons_iff.1 hcs
      obtain rfl : cs = [] := List.map_eq_nil_iff.1 hcs
      rw [List.append_assoc, List.cons_append, List.append_assoc, List.singleton_append]
      exact is_parseEntries_last ho hc (hk vs _ hvs (ends_cons (by rw [ho]; decide)))
        (hv xs _ hxs (ends_closer (by decide) hc))
    | cons e entries =>
      rw [entryPieces, signs_append, signs_mark, signs_space, signs_append, signs_mark,
        signs_space] at hus
      obtain ⟨vs, ws, rfl, hvs, hws⟩ := List.map_eq_append_iff.1 hus
      obtain ⟨o, ws, rfl, ho, hws⟩ := List.map_eq_cons_iff.1 hws
      obtain ⟨xs, ys, rfl, hxs, hys⟩ := List.map_eq_append_iff.1 hws
      obtain ⟨c, ys, rfl, hc, hys⟩ := List.map_eq_cons_iff.1 hys
      rw [List.append_assoc, List.cons_append, List.append_assoc, List.cons_append]
      exact is_parseEntries_cons ho hc (hk vs _ hvs (ends_cons (by rw [ho]; decide)))
        (hv xs _ hxs (ends_cons (by rw [hc]; decide))) (ih hkeys hvalues hys)

theorem reads_list {items : List (Rule Float)}
    (hitems : ∀ r ∈ items, Reads stop 0 (signs r.pieces) r) :
    Reads stop 9 (signs (Rule.list items).pieces) (.list items) := by
  intro us rest hus _
  rw [Rule.pieces, signs_mark] at hus
  obtain ⟨o, us, rfl, ho, hus⟩ := List.map_eq_cons_iff.1 hus
  obtain ⟨_, hmany⟩ : Reading.Is (parseMany stop "]" (us ++ rest)) items rest :=
    readsMany_items (by decide) hitems hus
  obtain ⟨hkind, htext⟩ := Prod.mk.inj ho
  change Reading.Is (parsePrimary stop (o :: (us ++ rest))) _ rest
  rw [parsePrimary, hkind, htext]
  simp only [bind, Except.bind, hmany]
  exact ⟨_, rfl⟩

theorem reads_dict {entries : List (Rule Float × Rule Float)}
    (hkeys : ∀ e ∈ entries, Reads stop 0 (signs e.1.pieces) e.1)
    (hvalues : ∀ e ∈ entries, Reads stop 0 (signs e.2.pieces) e.2) :
    Reads stop 9 (signs (Rule.dict entries).pieces) (.dict entries) := by
  intro us rest hus _
  rw [Rule.pieces, signs_mark] at hus
  obtain ⟨o, us, rfl, ho, hus⟩ := List.map_eq_cons_iff.1 hus
  obtain ⟨_, hentries⟩ : Reading.Is (parseEntries stop (us ++ rest)) entries rest :=
    readsEntries hkeys hvalues hus
  obtain ⟨hkind, htext⟩ := Prod.mk.inj ho
  change Reading.Is (parsePrimary stop (o :: (us ++ rest))) _ rest
  rw [parsePrimary, hkind, htext]
  simp only [bind, Except.bind, hentries]
  exact ⟨_, rfl⟩

theorem reads_call (fn : Helper) {args : List (Rule Float)}
    (hargs : ∀ r ∈ args, Reads stop 0 (signs r.pieces) r) :
    Reads stop 9 (signs (Rule.call fn args).pieces) (.call fn args) := by
  intro us rest hus _
  rw [Rule.pieces, signs_word, signs_mark] at hus
  obtain ⟨t, us, rfl, ht, hus⟩ := List.map_eq_cons_iff.1 hus
  obtain ⟨o, us, rfl, ho, hus⟩ := List.map_eq_cons_iff.1 hus
  obtain ⟨_, hmany⟩ : Reading.Is (parseMany stop ")" (us ++ rest)) args rest :=
    readsMany_items (by decide) hargs hus
  have hvalue : wordValue? fn.name = none := by cases fn <;> rfl
  have hdata : (fn.name == "data") = false := by cases fn <;> rfl
  have hfn : Helper.ofName? fn.name = some fn := by cases fn <;> rfl
  have hopen : Token.opNext "(" (o :: (us ++ rest)) = true := Token.isOp_of_sign ho "("
  obtain ⟨hkind, htext⟩ := Prod.mk.inj ht
  change Reading.Is (parsePrimary stop (t :: o :: (us ++ rest))) _ rest
  rw [parsePrimary, hkind, htext]
  simp only [hvalue, hdata, hopen, hfn, Bool.false_eq_true, if_false, if_true, List.drop, bind,
    Except.bind, hmany]
  exact ⟨_, rfl⟩

end

/-! ### Paths -/

section

variable {us ts mid rest : List Token}

theorem is_parseOps_index {lb rb : Token} {key : Rule Float} {ops : List (PathOp Float)}
    (hlb : lb.sign = (.op, "[")) (hrb : rb.sign = (.op, "]"))
    (hkey : Reading.Is (parseOr stop ts) key (rb :: mid))
    (hops : Reading.Is (parseOps stop mid) ops rest) :
    Reading.Is (parseOps stop (lb :: ts)) (.index key :: ops) rest := by
  -- The brackets hold a key: they are not those that stand for all items.
  have hnext := opNext_of_is (m := "]") (by decide) hkey
  obtain ⟨_, hkey⟩ := hkey
  obtain ⟨_, hops⟩ := hops
  rw [parseOps, if_neg (by rw [Token.isOp_of_sign hlb]; decide),
    if_pos (by rw [Token.isOp_of_sign hlb]; rfl), hnext, if_neg Bool.false_ne_true, hkey]
  simp only [bind, Except.bind, Token.expectOp_of_sign hrb, hops]
  exact ⟨_, rfl⟩

theorem is_parseOps_get {point name o : Token} {args : List (Rule Float)}
    {ops : List (PathOp Float)} (hpoint : point.sign = (.op, "."))
    (hname : name.sign = (.ident, "get")) (ho : o.sign = (.op, "("))
    (hargs : Reading.Is (parseMany stop ")" ts) args mid)
    (hops : Reading.Is (parseOps stop mid) ops rest) :
    Reading.Is (parseOps stop (point :: name :: o :: ts)) (.get args :: ops) rest := by
  obtain ⟨_, hargs⟩ := hargs
  obtain ⟨_, hops⟩ := hops
  have hopen : Token.opNext "(" (o :: ts) = true := Token.isOp_of_sign ho "("
  rw [parseOps, if_pos (by rw [Token.isOp_of_sign hpoint]; rfl), Token.expectName_of_sign hname]
  simp only [bind, Except.bind, hopen, (Prod.mk.inj hname).2, beq_self_eq_true, if_true, List.drop,
    hargs, hops]
  exact ⟨_, rfl⟩

/-- After the name of a member, a step of a path does not call it. -/
theorem opNext_opPieces {ops : List (PathOp Float)}
    (hus : us.map Token.sign = signs (opPieces ops)) (hrest : Ends 7 rest) :
    Token.opNext "(" (us ++ rest) = false := by
  cases ops with
  | nil =>
    obtain rfl : us = [] := List.map_eq_nil_iff.1 hus
    exact hrest.opNext (by decide)
  | cons op ops =>
    have hhead : ∃ t more, us = t :: more ∧ (t.sign = (.op, ".") ∨ t.sign = (.op, "[")) := by
      cases op <;>
      · obtain ⟨t, more, rfl, ht, -⟩ := List.map_eq_cons_iff.1 hus
        exact ⟨t, more, rfl, by simp [ht]⟩
    obtain ⟨t, more, rfl, ht | ht⟩ := hhead <;> exact Token.isOp_of_sign ht "("

/-- The steps of a path are read. -/
theorem readsOps {ops : List (PathOp Float)}
    (hindex : ∀ key, .index key ∈ ops → Reads stop 0 (signs key.pieces) key)
    (hget : ∀ args, .get args ∈ ops → ∀ r ∈ args, Reads stop 0 (signs r.pieces) r)
    (hus : us.map Token.sign = signs (opPieces ops)) (hrest : Ends 7 rest) :
    Reading.Is (parseOps stop (us ++ rest)) ops rest := by
  induction ops generalizing us with
  | nil =>
    obtain rfl : us = [] := List.map_eq_nil_iff.1 hus
    exact ⟨_, parseOps_ends hrest⟩
  | cons op ops ih =>
    have ih := fun {us} => @ih us (fun key hk => hindex key (List.mem_cons_of_mem _ hk))
      (fun args ha => hget args (List.mem_cons_of_mem _ ha))
    cases op with
    | member name =>
      obtain ⟨point, us, rfl, hpoint, hus⟩ := List.map_eq_cons_iff.1 hus
      obtain ⟨t, us, rfl, ht, hus⟩ := List.map_eq_cons_iff.1 hus
      obtain ⟨_, hops⟩ := ih hus
      exact parseOps_member stop hpoint ht (opNext_opPieces hus hrest) hops
    | index key =>
      rw [opPieces, signs_mark, signs_append, signs_mark] at hus
      obtain ⟨lb, us, rfl, hlb, hus⟩ := List.map_eq_cons_iff.1 hus
      obtain ⟨vs, ws, rfl, hvs, hws⟩ := List.map_eq_append_iff.1 hus
      obtain ⟨rb, ws, rfl, hrb, hws⟩ := List.map_eq_cons_iff.1 hws
      rw [List.cons_append, List.append_assoc, List.cons_append]
      refine is_parseOps_index hlb hrb ?_ (ih hws)
      exact hindex key List.mem_cons_self vs _ hvs (ends_closer (by decide) hrb)
    | project =>
      obtain ⟨lb, us, rfl, hlb, hus⟩ := List.map_eq_cons_iff.1 hus
      obtain ⟨rb, us, rfl, hrb, hus⟩ := List.map_eq_cons_iff.1 hus
      obtain ⟨_, hops⟩ := ih hus
      exact parseOps_project stop hlb hrb hops
    | get args =>
      rw [opPieces, signs_mark, signs_word, signs_mark, signs_append] at hus
      obtain ⟨point, us, rfl, hpoint, hus⟩ := List.map_eq_cons_iff.1 hus
      obtain ⟨t, us, rfl, ht, hus⟩ := List.map_eq_cons_iff.1 hus
      obtain ⟨o, us, rfl, ho, hus⟩ := List.map_eq_cons_iff.1 hus
      obtain ⟨vs, ws, rfl, hvs, hws⟩ := List.map_eq_append_iff.1 hus
      rw [List.cons_append, List.cons_append, List.cons_append, List.append_assoc]
      refine is_parseOps_get hpoint ht ho ?_ (ih hws)
      exact readsMany_items (by decide) (hget args List.mem_cons_self) hvs

theorem Reads.path {base : Rule Float} {ops : List (PathOp Float)}
    {signs' : List (TokenKind × String)} (hbase : Reads stop 9 signs' base) (hne : ops ≠ [])
    (hindex : ∀ key, .index key ∈ ops → Reads stop 0 (signs key.pieces) key)
    (hget : ∀ args, .get args ∈ ops → ∀ r ∈ args, Reads stop 0 (signs r.pieces) r) :
    Reads stop 7 (signs' ++ signs (opPieces ops)) (.path base ops) := by
  intro us rest hus hrest
  obtain ⟨vs, ws, rfl, hvs, hws⟩ := List.map_eq_append_iff.1 hus
  obtain ⟨short, hbase⟩ : Reading.Is (parsePrimary stop (vs ++ (ws ++ rest))) base (ws ++ rest) :=
    hbase vs _ hvs fun t _ => Nat.le_succ_of_le (Token.binding_le t.sign)
  obtain ⟨_, hops⟩ := readsOps hindex hget hws hrest
  have hempty : ops.isEmpty = false := List.isEmpty_eq_false_iff.2 hne
  rw [List.append_assoc]
  change Reading.Is (parseTrailed stop (vs ++ (ws ++ rest))) (.path base ops) rest
  rw [parseTrailed, hbase]
  simp only [bind, Except.bind, hops, hempty, Bool.false_eq_true, if_false]
  exact ⟨_, rfl⟩

end

/-! ### Chains of comparisons -/

section

variable {us ts rest : List Token}

/-- Where an operand of a comparison is read, there is no `not`. -/
theorem wordNext_of_is {r : Rule Float} (h : Reading.Is (parseArith stop ts) r rest) :
    Token.wordNext "not" ts = false := by
  cases ts with
  | nil => rfl
  | cons t ts =>
    change t.isWord "not" = false
    rw [Bool.eq_false_iff]
    intro hword
    refine (fails_parseArith ?_).not_is r rest h
    rw [Token.sign_of_isWord hword]
    exact List.mem_cons_self

theorem signCompare?_of_ident {t : Token} {w : String} (ht : t.sign = (.ident, w)) :
    signCompare? t = none := by
  rw [signCompare?, (Prod.mk.inj ht).1]
  rfl

theorem signCompare?_of_sign {t : Token} {op : CompareOp}
    (hop : op ∈ [CompareOp.eq, .ne, .lt, .le, .gt, .ge]) (ht : t.sign = (.op, op.text)) :
    signCompare? t = some op := by
  obtain ⟨hkind, htext⟩ := Prod.mk.inj ht
  rw [signCompare?, hkind, htext]
  simp only [List.mem_cons, List.not_mem_nil, or_false] at hop
  rcases hop with rfl | rfl | rfl | rfl | rfl | rfl <;> rfl

/-- A comparison is read from its sign or its words. The word `is` alone needs that no `not`
follows. -/
theorem is_compareOp? (op : CompareOp) (hus : us.map Token.sign = signs op.pieces)
    (hnot : Token.wordNext "not" ts = false) :
    ∃ h, compareOp? (us ++ ts) = some ⟨op, ts, h⟩ := by
  cases op with
  | isIn =>
    obtain ⟨t, us, rfl, ht, hus⟩ := List.map_eq_cons_iff.1 hus
    obtain rfl : us = [] := List.map_eq_nil_iff.1 hus
    rw [List.singleton_append, compareOp?, signCompare?_of_ident ht]
    simp only [Token.isWord_of_sign ht]
    exact ⟨length_lt_cons t ts, rfl⟩
  | notIn =>
    obtain ⟨t, us, rfl, ht, hus⟩ := List.map_eq_cons_iff.1 hus
    obtain ⟨u, us, rfl, hu, hus⟩ := List.map_eq_cons_iff.1 hus
    obtain rfl : us = [] := List.map_eq_nil_iff.1 hus
    have hin : Token.wordNext "in" (u :: ts) = true := Token.isWord_of_sign hu "in"
    rw [List.cons_append, List.singleton_append, compareOp?, signCompare?_of_ident ht]
    simp only [Token.isWord_of_sign ht, hin]
    exact ⟨length_drop_lt_cons t (u :: ts), rfl⟩
  | same =>
    obtain ⟨t, us, rfl, ht, hus⟩ := List.map_eq_cons_iff.1 hus
    obtain rfl : us = [] := List.map_eq_nil_iff.1 hus
    rw [List.singleton_append, compareOp?, signCompare?_of_ident ht]
    simp only [Token.isWord_of_sign ht, hnot]
    exact ⟨length_lt_cons t ts, rfl⟩
  | notSame =>
    obtain ⟨t, us, rfl, ht, hus⟩ := List.map_eq_cons_iff.1 hus
    obtain ⟨u, us, rfl, hu, hus⟩ := List.map_eq_cons_iff.1 hus
    obtain rfl : us = [] := List.map_eq_nil_iff.1 hus
    have hword : Token.wordNext "not" (u :: ts) = true := Token.isWord_of_sign hu "not"
    rw [List.cons_append, List.singleton_append, compareOp?, signCompare?_of_ident ht]
    simp only [Token.isWord_of_sign ht, hword]
    exact ⟨length_drop_lt_cons t (u :: ts), rfl⟩
  | eq | ne | lt | le | gt | ge =>
    obtain ⟨t, us, rfl, ht, hus⟩ := List.map_eq_cons_iff.1 hus
    obtain rfl : us = [] := List.map_eq_nil_iff.1 hus
    rw [List.singleton_append, compareOp?, signCompare?_of_sign (by decide) ht]
    exact ⟨length_lt_cons t ts, rfl⟩

/-- A comparison ends the operand before it. -/
theorem ends_compareOp (op : CompareOp) (hus : us.map Token.sign = signs op.pieces) :
    Ends 4 (us ++ ts) := by
  cases op <;>
  · obtain ⟨t, us, rfl, ht, -⟩ := List.map_eq_cons_iff.1 hus
    exact ends_cons (by rw [ht]; decide)

theorem ends_links {links : List (CompareOp × Rule Float)}
    (hus : us.map Token.sign = signs (linkPieces links)) (hrest : Ends 3 rest) :
    Ends 4 (us ++ rest) := by
  cases links with
  | nil =>
    obtain rfl : us = [] := List.map_eq_nil_iff.1 hus
    exact hrest.mono (by decide)
  | cons l links =>
    obtain ⟨op, r⟩ := l
    rw [linkPieces, signs_space, signs_append] at hus
    obtain ⟨vs, ws, rfl, hvs, -⟩ := List.map_eq_append_iff.1 hus
    rw [List.append_assoc]
    exact ends_compareOp op hvs

/-- The links of a chain are read. -/
theorem readsLinks {links : List (CompareOp × Rule Float)}
    (hlinks : ∀ l ∈ links, Reads stop 4 (signs (Piece.group 4 l.2.level l.2.pieces)) l.2)
    (hus : us.map Token.sign = signs (linkPieces links)) (hrest : Ends 3 rest) :
    Reading.Is (parseLinks stop (us ++ rest)) links rest := by
  induction links generalizing us with
  | nil =>
    obtain rfl : us = [] := List.map_eq_nil_iff.1 hus
    exact ⟨_, parseLinks_ends hrest⟩
  | cons l links ih =>
    obtain ⟨op, r⟩ := l
    obtain ⟨hr, hlinks⟩ := List.forall_mem_cons.1 hlinks
    rw [linkPieces, signs_space, signs_append, signs_space, signs_append] at hus
    obtain ⟨vs, ws, rfl, hvs, hws⟩ := List.map_eq_append_iff.1 hus
    obtain ⟨ws, xs, rfl, hws, hxs⟩ := List.map_eq_append_iff.1 hws
    -- No operand on this level begins with `not`, so that `is` is not taken for `is not`.
    have his : Reading.Is (parseArith stop (ws ++ (xs ++ rest))) r (xs ++ rest) :=
      hr ws _ hws (ends_links hxs hrest)
    obtain ⟨_, hop⟩ := is_compareOp? op hvs (wordNext_of_is his)
    obtain ⟨_, hr⟩ := his
    obtain ⟨_, hmore⟩ := ih hlinks hxs
    rw [List.append_assoc, List.append_assoc, parseLinks, hop]
    simp only [bind, Except.bind, hr, hmore]
    exact ⟨_, rfl⟩

theorem Reads.compare {first : Rule Float} {links : List (CompareOp × Rule Float)}
    {signs' : List (TokenKind × String)} (hfirst : Reads stop 4 signs' first) (hne : links ≠ [])
    (hlinks : ∀ l ∈ links, Reads stop 4 (signs (Piece.group 4 l.2.level l.2.pieces)) l.2) :
    Reads stop 3 (signs' ++ signs (linkPieces links)) (.compare first links) := by
  intro us rest hus hrest
  obtain ⟨vs, ws, rfl, hvs, hws⟩ := List.map_eq_append_iff.1 hus
  obtain ⟨short, hfirst⟩ : Reading.Is (parseArith stop (vs ++ (ws ++ rest))) first (ws ++ rest) :=
    hfirst vs _ hvs (ends_links hws hrest)
  obtain ⟨_, hmore⟩ := readsLinks hlinks hws hrest
  have hempty : links.isEmpty = false := List.isEmpty_eq_false_iff.2 hne
  rw [List.append_assoc]
  change Reading.Is (parseComparison stop (vs ++ (ws ++ rest))) (.compare first links) rest
  rw [parseComparison, hfirst]
  simp only [bind, Except.bind, hmore, hempty, Bool.false_eq_true, if_false]
  exact ⟨_, rfl⟩

end

end Rule

end PageExtract
