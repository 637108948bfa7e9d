/-
Rules written as text.

A rule is written with the parentheses that its operators need, given how tightly they bind and that
they associate to the left, and around every base of a path but the data:

* `Rule.level` — how tightly the outermost operator of a rule binds;
* `Rule.pieces`, `Rule.text` — the pieces of a rule and its text;
* `Rule.IsWritten` — the rules that a text can spell;
* `Rule.Fits`, `Rule.IsWritten.fits` — the pieces of a rule are cut apart again.
-/
import PageExtract.Proofs.Expr.Pieces
import PageExtract.Rule.Parser

namespace PageExtract

/-! ### Rules -/

/-- How tightly a connective binds. -/
def LogicOp.level : LogicOp → Nat
  | or => 0
  | and => 1

/-- How tightly an operation binds. -/
def ArithOp.level : ArithOp → Nat
  | add | sub => 4
  | mul | div | mod => 5

/-- How tightly the outermost operator of a rule binds: `or`, `and`, `not`, comparisons, `+ -`,
`* / %`, signs, the steps of a path, and what needs no parentheses anywhere but as the base of a
path, where only the data goes without. -/
def Rule.level {ν : Type} : Rule ν → Nat
  | .logic op _ _ => op.level
  | .not _ => 2
  | .compare _ _ => 3
  | .arith op _ _ => op.level
  | .neg _ => 6
  | .path _ _ => 7
  | .lit _ | .list _ | .dict _ | .call _ _ => 8
  | .root => 9

open Piece

/-- Pieces of an operand, in parentheses if its operator binds less tightly than it has to. -/
def Piece.group (least level : Nat) (ps : List Piece) : List Piece :=
  if level < least then mark "(" :: (ps ++ [mark ")"]) else ps

/-- The words or the sign of a comparison. -/
def CompareOp.pieces : CompareOp → List Piece
  | isIn => [word "in"]
  | notIn => [word "not", space, word "in"]
  | same => [word "is"]
  | notSame => [word "is", space, word "not"]
  | op => [mark op.text]

/-- A literal. -/
def Scalar.piece : Scalar Float → Piece
  | .null => word "null"
  | .bool b => word (if b then "true" else "false")
  | .num x => numeral (Numeric.text x)
  | .str s => quoted s

mutual

/-- The pieces of a rule. -/
def Rule.pieces : Rule Float → List Piece
  | .lit v => [v.piece]
  | .list items => mark "[" :: itemPieces "]" items
  | .dict entries => mark "\x7b" :: entryPieces entries
  | .root => [word "data"]
  | .path base ops => group 9 base.level base.pieces ++ opPieces ops
  | .call fn args => word fn.name :: mark "(" :: itemPieces ")" args
  | .not r => word "not" :: space :: group 2 r.level r.pieces
  | .neg r => mark "-" :: group 6 r.level r.pieces
  | .logic op l r =>
    group op.level l.level l.pieces ++ space :: word op.text :: space ::
      group (op.level + 1) r.level r.pieces
  | .arith op l r =>
    group op.level l.level l.pieces ++ space :: mark op.text :: space ::
      group (op.level + 1) r.level r.pieces
  | .compare first links => group 4 first.level first.pieces ++ linkPieces links

/-- Rules with commas between them, and the mark that closes them. -/
def itemPieces (close : String) : List (Rule Float) → List Piece
  | [] => [mark close]
  | [r] => r.pieces ++ [mark close]
  | r :: s :: rs => r.pieces ++ mark "," :: space :: itemPieces close (s :: rs)

/-- The entries of a map with commas between them, and the brace that closes them. -/
def entryPieces : List (Rule Float × Rule Float) → List Piece
  | [] => [mark "\x7d"]
  | [(k, v)] => k.pieces ++ mark ":" :: space :: (v.pieces ++ [mark "\x7d"])
  | (k, v) :: e :: es =>
    k.pieces ++ mark ":" :: space :: (v.pieces ++ mark "," :: space :: entryPieces (e :: es))

/-- The steps of a path. -/
def opPieces : List (PathOp Float) → List Piece
  | [] => []
  | .member name :: ops => mark "." :: word name :: opPieces ops
  | .index key :: ops => mark "[" :: (key.pieces ++ mark "]" :: opPieces ops)
  | .project :: ops => mark "[" :: mark "]" :: opPieces ops
  | .get args :: ops =>
    mark "." :: word "get" :: mark "(" :: (itemPieces ")" args ++ opPieces ops)

/-- The links of a chain of comparisons. -/
def linkPieces : List (CompareOp × Rule Float) → List Piece
  | [] => []
  | (op, r) :: links =>
    space :: (op.pieces ++ space :: (group 4 r.level r.pieces ++ linkPieces links))

end

/-- The text of a rule. -/
def Rule.text (r : Rule Float) : String := String.ofList (spelling r.pieces)

example :
    Rule.text (.logic .and
      (.not (.compare (.arith .mul (.arith .add (.path (.neg .root) [.member "a", .project]) .root)
        (.neg .root)) [(.notIn, .lit (.str "b\"c")), (.notSame, .list [.lit .null])]))
      (.logic .or .root .root)) =
    "not ((-data).a[] + data) * -data not in \"b\\\"c\" is not [null] and (data or data)" := by
  decide +kernel

/-- The rules that a text can spell: numbers are whole and below 2⁵³, texts are joined, members
have names, paths have steps and chains have links. -/
inductive Rule.IsWritten : Rule Float → Prop
  | null : IsWritten (.lit .null)
  | bool (b : Bool) : IsWritten (.lit (.bool b))
  | num {n : Nat} (hn : n < 2 ^ 53) : IsWritten (.lit (.num (Float.ofNat n)))
  | str {s : String} (hs : Text.joined s = s) : IsWritten (.lit (.str s))
  | list {items : List (Rule Float)} (hitems : ∀ r ∈ items, IsWritten r) :
      IsWritten (.list items)
  | dict {entries : List (Rule Float × Rule Float)} (hkeys : ∀ e ∈ entries, IsWritten e.1)
      (hvalues : ∀ e ∈ entries, IsWritten e.2) : IsWritten (.dict entries)
  | root : IsWritten .root
  | path {base : Rule Float} {ops : List (PathOp Float)} (hbase : IsWritten base)
      (hne : ops ≠ []) (hmember : ∀ name, .member name ∈ ops → isName name = true)
      (hindex : ∀ key, .index key ∈ ops → IsWritten key)
      (hget : ∀ args, .get args ∈ ops → ∀ r ∈ args, IsWritten r) : IsWritten (.path base ops)
  | call (fn : Helper) {args : List (Rule Float)} (hargs : ∀ r ∈ args, IsWritten r) :
      IsWritten (.call fn args)
  | not {r : Rule Float} (hr : IsWritten r) : IsWritten (.not r)
  | neg {r : Rule Float} (hr : IsWritten r) : IsWritten (.neg r)
  | logic (op : LogicOp) {l r : Rule Float} (hl : IsWritten l) (hr : IsWritten r) :
      IsWritten (.logic op l r)
  | arith (op : ArithOp) {l r : Rule Float} (hl : IsWritten l) (hr : IsWritten r) :
      IsWritten (.arith op l r)
  | compare {first : Rule Float} {links : List (CompareOp × Rule Float)}
      (hfirst : IsWritten first) (hne : links ≠ []) (hlinks : ∀ l ∈ links, IsWritten l.2) :
      IsWritten (.compare first links)

/-! ### Pieces that are apart -/

/-- Whether the pieces of a rule are apart before anything that may follow an operand. -/
def Rule.Fits (r : Rule Float) : Prop :=
  ∀ ps, Stops (spelling ps) → Apart ps → Apart (r.pieces ++ ps)

section

variable {ps : List Piece}

theorem Rule.Fits.group {r : Rule Float} (hr : r.Fits) (least : Nat)
    (hstops : Stops (spelling ps)) (h : Apart ps) :
    Apart (Piece.group least r.level r.pieces ++ ps) := by
  unfold Piece.group
  split
  · rw [List.cons_append, List.append_assoc, List.singleton_append]
    exact apart_mark (by decide) (hr _ (stops_mark (by decide) ps) (apart_mark (by decide) h))
  · exact hr ps hstops h

theorem Rule.eq_root_of_level {r : Rule Float} (h : ¬ r.level < 9) : r = .root := by
  cases r with
  | root => rfl
  | logic op => cases op <;> simp [level, LogicOp.level] at h
  | arith op => cases op <;> simp [level, ArithOp.level] at h
  | _ => simp [level] at h

/-- What follows a step of a path does not go on with a name. -/
theorem head_opPieces (ops : List (PathOp Float)) (hstops : Stops (spelling ps)) :
    ∀ c ∈ (spelling (opPieces ops ++ ps)).head?, isNameChar c = false := by
  cases ops with
  | nil => exact fun c hc => (hstops.classes c hc).1
  | cons op ops =>
    cases op <;>
    · rintro c ⟨⟩
      rfl

/-- The base of a path is in parentheses, or the data. -/
theorem Rule.Fits.base {r : Rule Float} (hr : r.Fits) (ops : List (PathOp Float))
    (hstops : Stops (spelling ps)) (h : Apart (opPieces ops ++ ps)) :
    Apart (Piece.group 9 r.level r.pieces ++ (opPieces ops ++ ps)) := by
  unfold Piece.group
  split
  · rw [List.cons_append, List.append_assoc, List.singleton_append]
    exact apart_mark (by decide) (hr _ (stops_mark (by decide) _) (apart_mark (by decide) h))
  · rename_i hlevel
    rw [Rule.eq_root_of_level hlevel]
    exact apart_word rfl (head_opPieces ops hstops) h

theorem apart_itemPieces {close : String} (hclose : close ∈ [")", "]"])
    {items : List (Rule Float)} (hitems : ∀ r ∈ items, r.Fits) (h : Apart ps) :
    Apart (itemPieces close items ++ ps) := by
  have hmark : Apart (mark close :: ps) := by
    refine apart_mark ?_ h
    simp only [List.mem_cons, List.not_mem_nil, or_false] at hclose ⊢
    tauto
  have hstops : Stops (spelling (mark close :: ps)) := by
    refine stops_mark ?_ ps
    simp only [List.mem_cons, List.not_mem_nil, or_false] at hclose ⊢
    tauto
  induction items with
  | nil => exact hmark
  | cons r items ih =>
    obtain ⟨hr, hitems⟩ := List.forall_mem_cons.1 hitems
    cases items with
    | nil =>
      rw [itemPieces, List.append_assoc, List.singleton_append]
      exact hr _ hstops hmark
    | cons s items =>
      rw [itemPieces, List.append_assoc, List.cons_append, List.cons_append]
      refine hr _ (stops_mark (by decide) _) (apart_mark (by decide) (apart_space (ih hitems)))

theorem apart_entryPieces {entries : List (Rule Float × Rule Float)}
    (hkeys : ∀ e ∈ entries, e.1.Fits) (hvalues : ∀ e ∈ entries, e.2.Fits) (h : Apart ps) :
    Apart (entryPieces entries ++ ps) := by
  have hmark : Apart (mark "\x7d" :: ps) := apart_mark (by decide) h
  induction entries with
  | nil => exact hmark
  | cons e entries ih =>
    obtain ⟨k, v⟩ := e
    obtain ⟨hk, hkeys⟩ := List.forall_mem_cons.1 hkeys
    obtain ⟨hv, hvalues⟩ := List.forall_mem_cons.1 hvalues
    cases entries with
    | nil =>
      rw [entryPieces, List.append_assoc, List.cons_append, List.cons_append, List.append_assoc,
        List.singleton_append]
      refine hk _ (stops_mark (by decide) _) (apart_mark (by decide) (apart_space ?_))
      exact hv _ (stops_mark (by decide) _) hmark
    | cons e entries =>
      rw [entryPieces, List.append_assoc, List.cons_append, List.cons_append, List.append_assoc,
        List.cons_append, List.cons_append]
      refine hk _ (stops_mark (by decide) _) (apart_mark (by decide) (apart_space ?_))
      refine hv _ (stops_mark (by decide) _) (apart_mark (by decide) (apart_space ?_))
      exact ih hkeys hvalues

theorem CompareOp.apart_pieces (op : CompareOp) (h : Apart ps) :
    Apart (op.pieces ++ space :: ps) := by
  cases op with
  | isIn | same => exact apart_word_space rfl h
  | notIn | notSame => exact apart_word_space rfl (apart_word_space rfl h)
  | _ => exact apart_mark_space (by decide) h

theorem stops_linkPieces (links : List (CompareOp × Rule Float)) (hstops : Stops (spelling ps)) :
    Stops (spelling (linkPieces links ++ ps)) := by
  cases links with
  | nil => exact hstops
  | cons l links => exact stops_space _

theorem apart_linkPieces {links : List (CompareOp × Rule Float)}
    (hlinks : ∀ l ∈ links, l.2.Fits) (hstops : Stops (spelling ps)) (h : Apart ps) :
    Apart (linkPieces links ++ ps) := by
  induction links with
  | nil => exact h
  | cons l links ih =>
    obtain ⟨op, r⟩ := l
    obtain ⟨hr, hlinks⟩ := List.forall_mem_cons.1 hlinks
    rw [linkPieces, List.cons_append, List.append_assoc, List.cons_append, List.append_assoc]
    exact apart_space (op.apart_pieces (hr.group 4 (stops_linkPieces links hstops) (ih hlinks)))

theorem apart_opPieces {ops : List (PathOp Float)}
    (hmember : ∀ name, .member name ∈ ops → isName name = true)
    (hindex : ∀ key, .index key ∈ ops → key.Fits)
    (hget : ∀ args, .get args ∈ ops → ∀ r ∈ args, r.Fits) (hstops : Stops (spelling ps))
    (h : Apart ps) : Apart (opPieces ops ++ ps) := by
  induction ops with
  | nil => exact h
  | cons op ops ih =>
    have htail := ih (fun name hn => hmember name (List.mem_cons_of_mem _ hn))
      (fun key hk => hindex key (List.mem_cons_of_mem _ hk))
      (fun args ha => hget args (List.mem_cons_of_mem _ ha))
    cases op with
    | member name =>
      exact apart_member (hmember name List.mem_cons_self) (head_opPieces ops hstops) htail
    | index key =>
      rw [opPieces, List.cons_append, List.append_assoc, List.cons_append]
      refine apart_mark (by decide) (hindex key List.mem_cons_self _ (stops_mark (by decide) _) ?_)
      exact apart_mark (by decide) htail
    | project => exact apart_mark (by decide) (apart_mark (by decide) htail)
    | get args =>
      rw [opPieces, List.cons_append, List.cons_append, List.cons_append, List.append_assoc]
      refine apart_member rfl ?_ (apart_mark (by decide) ?_)
      · rintro c ⟨⟩
        rfl
      · exact apart_itemPieces (by decide) (hget args List.mem_cons_self) htail

end

theorem Helper.isName_name (fn : Helper) : isName fn.name = true := by
  cases fn <;> rfl

-- The induction is on how the rule is written, with what follows the rule generalised: the pieces
-- of an operand are apart from the operator after it.
/-- The pieces of a rule are apart. -/
theorem Rule.IsWritten.fits {r : Rule Float} (h : r.IsWritten) : r.Fits := by
  induction h with
  | null => exact fun ps hstops h => apart_word rfl (fun c hc => (hstops.classes c hc).1) h
  | bool b =>
    intro ps hstops h
    refine apart_word ?_ (fun c hc => (hstops.classes c hc).1) h
    cases b <;> rfl
  | num hn =>
    intro ps hstops h
    obtain ⟨d, hd, -⟩ := Double.writes_ofNat hn
    refine ⟨⟨⟨_, hd⟩, fun c hc => ?_⟩, h⟩
    obtain ⟨-, hclass⟩ := hstops.classes c hc
    exact hclass
  | str hs => exact fun ps _ h => ⟨hs, h⟩
  | list _ hitems =>
    exact fun ps _ h => apart_mark (by decide) (apart_itemPieces (by decide) hitems h)
  | dict _ _ hkeys hvalues =>
    exact fun ps _ h => apart_mark (by decide) (apart_entryPieces hkeys hvalues h)
  | root => exact fun ps hstops h => apart_word rfl (fun c hc => (hstops.classes c hc).1) h
  | path _ _ hmember _ _ hbase hindex hget =>
    intro ps hstops h
    rw [Rule.pieces, List.append_assoc]
    exact hbase.base _ hstops (apart_opPieces hmember hindex hget hstops h)
  | call fn _ hargs =>
    intro ps _ h
    refine apart_word fn.isName_name ?_
      (apart_mark (by decide) (apart_itemPieces (by decide) hargs h))
    rintro c ⟨⟩
    rfl
  | not _ hr => exact fun ps hstops h => apart_word_space rfl (hr.group 2 hstops h)
  | neg _ hr => exact fun ps hstops h => apart_mark (by decide) (hr.group 6 hstops h)
  | logic op _ _ hl hr =>
    intro ps hstops h
    rw [Rule.pieces, List.append_assoc]
    refine hl.group _ (stops_space _) (apart_space (apart_word_space ?_ (hr.group _ hstops h)))
    cases op <;> rfl
  | arith op _ _ hl hr =>
    intro ps hstops h
    rw [Rule.pieces, List.append_assoc]
    refine hl.group _ (stops_space _) (apart_space (apart_mark_space ?_ (hr.group _ hstops h)))
    cases op <;> decide
  | compare _ hne _ hfirst hlinks =>
    intro ps hstops h
    rw [Rule.pieces, List.append_assoc]
    exact hfirst.group 4 (stops_linkPieces _ hstops) (apart_linkPieces hlinks hstops h)

end PageExtract
