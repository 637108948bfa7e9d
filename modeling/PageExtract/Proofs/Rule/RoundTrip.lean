/-
Reading a rule that was written.

A text spells a rule with the parentheses its operators need. Its pieces are cut into their tokens,
and every operand is read from its tokens on the level of its operator, so that the rule that was
written is read from the text:

* `Rule.IsWritten.holds` — a rule is read from the tokens of its pieces;
* `Rule.parse_text_of_isWritten` — a rule is read from its text.
-/
import PageExtract.Proofs.Rule.Reads
import PageExtract.Proofs.Text.Units

namespace PageExtract

open Piece

namespace Rule

variable {stop : Token} {r : Rule Float}

/-- What is read on its own level is read where any rule may stand. -/
theorem Holds.zero {n : Nat} {s : List (TokenKind × String)} (h : Holds stop n s r) :
    Reads stop 0 s r := (h.mono n.zero_le).reads

/-- What stands alone is read on the level below that of the data. -/
theorem Reads.alone {s : List (TokenKind × String)} (h : Reads stop 9 s r) : Holds stop 8 s r :=
  (h.holds (by simp [AssociatesLeft])).lower

-- The induction is on how the rule is written. An operator that associates to the left takes its
-- left operand as it was begun and goes on with it, so that `Begins` carries these cases; the other
-- operands have a level of their own, and parentheses where the level is too loose.
/-- A rule is read from the tokens of its pieces, on the level of its operator. -/
theorem IsWritten.holds (h : r.IsWritten) : Holds stop r.level (signs r.pieces) r := by
  induction h with
  | null => exact (reads_word rfl).alone
  | bool b =>
    refine (reads_word ?_).alone
    cases b <;> rfl
  | @num n hn =>
    obtain ⟨d, hd, hvalue⟩ := Double.writes_ofNat hn
    exact (reads_numeral (hd.read.trans hvalue)).alone
  | str hs => exact reads_quoted.alone
  | list _ hitems => exact (reads_list fun r hr => (hitems r hr).zero).alone
  | dict _ _ hkeys hvalues =>
    exact (reads_dict (fun e he => (hkeys e he).zero) fun e he => (hvalues e he).zero).alone
  | root => exact reads_root.holds (n := 9) (by simp [AssociatesLeft])
  | path _ hne _ _ _ hbase hindex hget =>
    rw [Rule.pieces, signs_append]
    have hread := Reads.path (hbase.group le_rfl).reads hne (fun key hk => (hindex key hk).zero)
      fun args ha r hr => (hget args ha r hr).zero
    exact hread.holds (n := 7) (by simp [AssociatesLeft])
  | call fn _ hargs => exact (reads_call fn fun r hr => (hargs r hr).zero).alone
  | not _ hr =>
    rw [Rule.pieces, signs_word, signs_space]
    exact (hr.group (by decide)).reads.not.holds (n := 2) (by simp [AssociatesLeft])
  | neg _ hr =>
    rw [Rule.pieces, signs_mark]
    exact (hr.group (by decide)).reads.neg.holds (n := 6) (by simp [AssociatesLeft])
  | logic op _ _ hl hr =>
    have hlevel : AssociatesLeft op.level ∧ Token.binding (.ident, op.text) ≤ op.level + 1 ∧
        op.level + 1 ≤ 9 := by
      cases op <;> simp [AssociatesLeft, LogicOp.level, LogicOp.text, Token.binding]
    obtain ⟨hassoc, hbinding, hle⟩ := hlevel
    rw [Rule.pieces, signs_append, signs_space, signs_word, signs_space]
    refine Begins.holds hassoc (Begins.join (joins_logic op) hbinding ?_ (hr.group hle).reads)
    exact (hl.group (Nat.le_of_succ_le hle)).begins hassoc
  | arith op _ _ hl hr =>
    have hlevel : AssociatesLeft op.level ∧ Token.binding (.op, op.text) ≤ op.level + 1 ∧
        op.level + 1 ≤ 9 := by
      cases op <;> simp [AssociatesLeft, ArithOp.level, ArithOp.text, Token.binding]
    obtain ⟨hassoc, hbinding, hle⟩ := hlevel
    rw [Rule.pieces, signs_append, signs_space, signs_mark, signs_space]
    refine Begins.holds hassoc (Begins.join (joins_arith op) hbinding ?_ (hr.group hle).reads)
    exact (hl.group (Nat.le_of_succ_le hle)).begins hassoc
  | compare _ hne _ hfirst hlinks =>
    rw [Rule.pieces, signs_append]
    have hread := Reads.compare (hfirst.group (by decide)).reads hne fun l hl =>
      ((hlinks l hl).group (by decide)).reads
    exact hread.holds (n := 3) (by simp [AssociatesLeft])

/-- A rule is read back from its text, with the parentheses its operators need. -/
theorem parse_text_of_isWritten (h : r.IsWritten) : Rule.parse r.text = .ok r := by
  have hapart : Apart r.pieces := by
    have hfits := h.fits [] nofun trivial
    rwa [List.append_nil] at hfits
  obtain ⟨ts, hts, hsigns⟩ :
      Token.Cuts (Text.length16 r.text) .eof (spelling r.pieces) (signs r.pieces) :=
    Token.cuts_pieces hapart
  have hread : Reading.Is (parseOr (endToken r.text) (ts ++ [])) r [] :=
    h.holds.zero ts [] hsigns ends_nil
  rw [List.append_nil] at hread
  obtain ⟨_, hread⟩ := hread
  have htokens : tokens r.text = .ok ts := by
    rw [tokens, Rule.text, String.toList_ofList]
    exact hts
  rw [parse, htokens]
  simp only [bind, Except.bind, ofTokens, hread]
  rfl

-- The rule not (data.a + 7) * -data not in "b\"c" is not null and (data or data).
theorem parse_text_chain :
    ∃ r : Rule Float,
      r = .logic .and
        (.not (.compare
          (.arith .mul
            (.arith .add (.path .root [.member "a"]) (.lit (.num (Float.ofNat 7))))
            (.neg .root))
          [(.notIn, .lit (.str "b\"c")), (.notSame, .lit .null)]))
        (.logic .or .root .root) ∧
      r.IsWritten ∧ Rule.parse r.text = .ok r := by
  have hpath : (Rule.path .root [PathOp.member "a"] : Rule Float).IsWritten := by
    refine .path .root (List.cons_ne_nil _ _) ?_ ?_ ?_
    · rintro name (_ | ⟨_, ⟨⟩⟩)
      rfl
    · rintro key (_ | ⟨_, ⟨⟩⟩)
    · rintro args (_ | ⟨_, ⟨⟩⟩)
  have hchain : ∀ l ∈ [(CompareOp.notIn, Rule.lit (.str "b\"c")), (.notSame, .lit .null)],
      Rule.IsWritten l.2 := by
    rintro l (_ | ⟨_, _ | ⟨_, ⟨⟩⟩⟩)
    · exact .str (Text.joined_of_whole (by decide +kernel))
    · exact .null
  have hwritten := IsWritten.logic .and
    (.not (.compare (.arith .mul (.arith .add hpath (.num (n := 7) (by decide))) (.neg .root))
      (List.cons_ne_nil _ _) hchain))
    (.logic .or .root .root)
  exact ⟨_, rfl, hwritten, parse_text_of_isWritten hwritten⟩

end Rule

end PageExtract
