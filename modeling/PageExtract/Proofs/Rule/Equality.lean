/-
Equality of the values of rules.

Two values are equal if both are numbers, or truth values that count as numbers, and the numbers are
equal, or if they are of one kind and equal part by part. The names of a map are looked up in one
direction only, but as names are distinct and equally many, that is enough:

* `Datum.Regular` — the data without anything that is not a number, with distinct names in maps;
* `Datum.Alike`, `Datum.equals_iff` — what equality asks for, one level at a time;
* `Datum.equals_refl`, `Datum.equals_symm`, `Datum.equals_trans` — an equivalence;
* `Datum.Replaced`, `Datum.Replaced.equals` — replacing a part, at any depth, by an equal one;
* `Datum.Reordered`, `Datum.Reordered.equals` — the same members in another order, at any depth;
* `Datum.contains_congr` — containers do not tell equal items apart;
* `Datum.equals_equivalence` — all of it together.
-/
import Mathlib.Data.List.Perm.Subperm
import Mathlib.Logic.Relation
import PageExtract.Proofs.Number.Order
import PageExtract.Proofs.Value.Members
import PageExtract.Rule.Eval

namespace PageExtract.Datum

/-- A datum without anything that is not a number, in whose maps names are distinct. -/
inductive Regular : Datum Float → Prop
  | null : Regular .null
  | bool (b : Bool) : Regular (.bool b)
  | num {n : Float} (hn : (n == n) = true) : Regular (.num n)
  | str (s : String) : Regular (.str s)
  | list (place : Option Place) {items : List (Datum Float)} (hitems : ∀ d ∈ items, Regular d) :
      Regular (.list place items)
  | map (place : Option Place) {members : Members (Datum Float)}
      (hnames : (Members.names members).Nodup) (hvalues : ∀ m ∈ members, Regular m.2) :
      Regular (.map place members)

/-! ### One level of equality -/

/-- What equality asks for, if `R` says which parts are equal. -/
inductive Alike (R : Datum Float → Datum Float → Prop) : Datum Float → Datum Float → Prop
  | number {a b : Datum Float} {x y : Float} (ha : a.number? = some x) (hb : b.number? = some y)
      (hxy : (x == y) = true) : Alike R a b
  | null : Alike R .null .null
  | str (s : String) : Alike R (.str s) (.str s)
  | list (p q : Option Place) {xs ys : List (Datum Float)} (h : List.Forall₂ R xs ys) :
      Alike R (.list p xs) (.list q ys)
  | map (p q : Option Place) {ms ns : Members (Datum Float)} (hlength : ms.length = ns.length)
      (h : ∀ m ∈ ms, ∃ w, Members.get? ns m.1 = some w ∧ R m.2 w) : Alike R (.map p ms) (.map q ns)

theorem equalItems_iff {xs ys : List (Datum Float)} :
    equalItems xs ys = true ↔ List.Forall₂ (fun x y => x.equals y = true) xs ys := by
  induction xs generalizing ys with
  | nil => cases ys <;> simp [equalItems]
  | cons x xs ih => cases ys <;> simp [equalItems, ih]

theorem equalMembers_iff {ms ns : Members (Datum Float)} :
    equalMembers ms ns = true ↔
      ∀ m ∈ ms, ∃ w, Members.get? ns m.1 = some w ∧ m.2.equals w = true := by
  induction ms with
  | nil => simp [equalMembers]
  | cons m ms ih =>
    obtain ⟨k, v⟩ := m
    rw [equalMembers, Bool.and_eq_true, ih, List.forall_mem_cons]
    refine and_congr_left' ?_
    cases Members.get? ns k <;> simp

/-- A number is equal to the numbers that it equals, and to nothing else. -/
theorem equals_of_number {a b : Datum Float} {x : Float} (ha : a.number? = some x) :
    a.equals b = true ↔ ∃ y, b.number? = some y ∧ (x == y) = true := by
  cases a with
  | num n =>
    cases ha
    rw [equals]
    cases b.number? <;> simp
  | bool t =>
    cases ha
    rw [equals]
    cases b.number? <;> simp
  | _ => cases ha

/-- Data are equal level by level. -/
theorem equals_iff {a b : Datum Float} :
    a.equals b = true ↔ Alike (fun x y => x.equals y = true) a b := by
  constructor
  · intro h
    cases ha : a.number? with
    | some x =>
      obtain ⟨y, hb, hxy⟩ := (equals_of_number ha).1 h
      exact .number ha hb hxy
    | none =>
      cases a with
      | num | bool => cases ha
      | null => cases b <;> first | exact .null | cases h
      | str s =>
        cases b with
        | str t =>
          obtain rfl := beq_iff_eq.1 (show (s == t) = true from h)
          exact .str s
        | _ => cases h
      | list p xs =>
        cases b with
        | list q ys => exact .list p q (equalItems_iff.1 h)
        | _ => cases h
      | map p ms =>
        cases b with
        | map q ns =>
          obtain ⟨hlength, hmembers⟩ := (Bool.and_eq_true _ _).mp h
          exact .map p q (beq_iff_eq.1 hlength) (equalMembers_iff.1 hmembers)
        | _ => cases h
  · intro h
    cases h with
    | number ha hb hxy => exact (equals_of_number ha).2 ⟨_, hb, hxy⟩
    | null => rfl
    | str s => exact beq_self_eq_true s
    | list p q h => exact equalItems_iff.2 h
    | map p q hlength h =>
      rw [equals, Bool.and_eq_true]
      exact ⟨beq_iff_eq.2 hlength, equalMembers_iff.2 h⟩

/-! ### An equivalence -/

/-- A regular datum that counts as a number is equal to itself. -/
theorem Regular.beq_self {d : Datum Float} (hd : d.Regular) {x : Float} (hx : d.number? = some x) :
    (x == x) = true := by
  cases hd with
  | num hn =>
    cases hx
    exact hn
  | bool b => cases b <;> cases hx <;> rfl
  | _ => cases hx

theorem equals_refl {d : Datum Float} (hd : d.Regular) : d.equals d = true := by
  rw [equals_iff]
  induction hd with
  | null => exact .null
  | bool b => exact .number rfl rfl (Regular.beq_self (.bool b) rfl)
  | num hn => exact .number rfl rfl hn
  | str s => exact .str s
  | list p _ ih => exact .list p p (List.forall₂_same.2 fun d hd => equals_iff.2 (ih d hd))
  | map p hnames _ ih =>
    exact .map p p rfl fun m hm => ⟨m.2, Members.get?_of_mem hnames hm, equals_iff.2 (ih m hm)⟩

/-- If distinct names are all found among as many others, these are the same names. -/
theorem names_perm {ms ns : Members (Datum Float)} (hnames : (Members.names ms).Nodup)
    (hlength : ms.length = ns.length) (h : ∀ m ∈ ms, ∃ w, Members.get? ns m.1 = some w) :
    (Members.names ms).Perm (Members.names ns) := by
  have hsubset : Members.names ms ⊆ Members.names ns := by
    intro k hk
    obtain ⟨m, hm, rfl⟩ := List.mem_map.1 hk
    obtain ⟨w, hw⟩ := h m hm
    exact List.mem_map.2 ⟨(m.1, w), Members.mem_of_get hw, rfl⟩
  refine (hnames.subperm hsubset).perm_of_length_le ?_
  rw [Members.names, Members.names, List.length_map, List.length_map, hlength]

theorem equals_symm {a b : Datum Float} (ha : a.Regular) (h : a.equals b = true) :
    b.equals a = true := by
  rw [equals_iff] at h ⊢
  induction ha generalizing b with
  | null =>
    cases h with
    | number ha => cases ha
    | null => exact .null
  | bool t =>
    cases h with
    | number ha hb hxy => exact .number hb ha (by rwa [Double.beq_comm])
  | num hn =>
    cases h with
    | number ha hb hxy => exact .number hb ha (by rwa [Double.beq_comm])
  | str s =>
    cases h with
    | number ha => cases ha
    | str => exact .str s
  | list p _ ih =>
    cases h with
    | number ha => cases ha
    | list p q h =>
      have hboth := (List.forall₂_and_left _ _).2 ⟨fun x hx => @ih x hx, h⟩
      refine .list q p (List.Forall₂.flip (hboth.imp fun x y hxy => ?_))
      exact equals_iff.2 (hxy.1 (equals_iff.1 hxy.2))
  | map p hnames _ ih =>
    cases h with
    | number ha => cases ha
    | @map _ q ms ns hlength h =>
      have hperm := names_perm hnames hlength fun m hm => (h m hm).imp fun _ hw => hw.1
      refine .map q p hlength.symm fun n hn => ?_
      -- The names of the second map are distinct, too, so that its member is the one looked up.
      obtain ⟨m, hm, hname⟩ := List.mem_map.1 (hperm.mem_iff.2 (List.mem_map_of_mem hn))
      obtain ⟨w, hw, hequal⟩ := h m hm
      rw [hname, Members.get?_of_mem (hperm.nodup hnames) hn] at hw
      cases hw
      have hback := ih m hm (equals_iff.1 hequal)
      exact ⟨m.2, hname ▸ Members.get?_of_mem hnames hm, equals_iff.2 hback⟩

theorem forall₂_trans {R : Datum Float → Datum Float → Prop} {xs ys zs : List (Datum Float)}
    (h : ∀ y ∈ ys, ∀ {x z}, R x y → R y z → R x z) (hxy : List.Forall₂ R xs ys)
    (hyz : List.Forall₂ R ys zs) : List.Forall₂ R xs zs := by
  induction hxy generalizing zs with
  | nil => exact hyz
  | cons hfirst _ ih =>
    cases hyz with
    | cons hfirst' hrest =>
      exact .cons (h _ List.mem_cons_self hfirst hfirst')
        (ih (fun y hy => h y (List.mem_cons_of_mem _ hy)) hrest)

theorem equals_trans_number {a b c : Datum Float} {x y : Float} (ha : a.number? = some x)
    (hb : b.number? = some y) (hxy : (x == y) = true) (hbc : b.equals c = true) :
    a.equals c = true := by
  obtain ⟨z, hz, hyz⟩ := (equals_of_number hb).1 hbc
  exact (equals_of_number ha).2 ⟨z, hz, by rwa [← Double.beq_congr hyz]⟩

-- The induction is on the datum in the middle, whose parts both equalities speak of.
theorem equals_trans {a b c : Datum Float} (hb : b.Regular) (hab : a.equals b = true)
    (hbc : b.equals c = true) : a.equals c = true := by
  induction hb generalizing a c with
  | null =>
    cases equals_iff.1 hab with
    | number ha hb => cases hb
    | null => exact hbc
  | bool t =>
    cases equals_iff.1 hab with
    | number ha hb hxy => exact equals_trans_number ha hb hxy hbc
  | num hn =>
    cases equals_iff.1 hab with
    | number ha hb hxy => exact equals_trans_number ha hb hxy hbc
  | str s =>
    cases equals_iff.1 hab with
    | number ha hb => cases hb
    | str => exact hbc
  | list q _ ih =>
    cases equals_iff.1 hab with
    | number ha hb => cases hb
    | list p _ h =>
      cases equals_iff.1 hbc with
      | number hb => cases hb
      | list _ r h' => exact equals_iff.2 (.list p r (forall₂_trans ih h h'))
  | map q _ _ ih =>
    cases equals_iff.1 hab with
    | number ha hb => cases hb
    | map p _ hlength h =>
      cases equals_iff.1 hbc with
      | number hb => cases hb
      | map _ r hlength' h' =>
        refine equals_iff.2 (.map p r (hlength.trans hlength') fun m hm => ?_)
        obtain ⟨v, hv, hequal⟩ := h m hm
        have hmem := Members.mem_of_get hv
        obtain ⟨w, hw, hequal'⟩ := h' _ hmem
        exact ⟨w, hw, ih _ hmem hequal hequal'⟩

/-! ### Parts replaced by equal ones -/

/-- One part of a datum, at any depth, is replaced by one that `R` relates to it. -/
inductive Replaced (R : Datum Float → Datum Float → Prop) : Datum Float → Datum Float → Prop
  | here {v w : Datum Float} (h : R v w) : Replaced R v w
  | item {v w : Datum Float} (p q : Option Place) (before after : List (Datum Float))
      (h : Replaced R v w) :
      Replaced R (.list p (before ++ v :: after)) (.list q (before ++ w :: after))
  | member {v w : Datum Float} (p q : Option Place) (name : String)
      (before after : Members (Datum Float)) (h : Replaced R v w) :
      Replaced R (.map p (before ++ (name, v) :: after)) (.map q (before ++ (name, w) :: after))

section

variable {R : Datum Float → Datum Float → Prop}

theorem names_replaced {before after : Members (Datum Float)} {name : String}
    (v w : Datum Float) : Members.names (before ++ (name, v) :: after) =
      Members.names (before ++ (name, w) :: after) := by
  simp [Members.names]

/-- Replacing a part by an equal one gives an equal datum. -/
theorem Replaced.equals (hR : ∀ {v w}, v.Regular → R v w → v.equals w = true) {a b : Datum Float}
    (ha : a.Regular) (h : Replaced R a b) : a.equals b = true := by
  induction h with
  | here h => exact hR ha h
  | item p q before after _ ih =>
    cases ha with
    | list _ hitems =>
      obtain ⟨hbefore, hrest⟩ := List.forall_mem_append.1 hitems
      obtain ⟨hv, hafter⟩ := List.forall_mem_cons.1 hrest
      refine equals_iff.2 (.list p q (List.rel_append ?_ (.cons (ih hv) ?_)))
      · exact List.forall₂_same.2 fun d hd => equals_refl (hbefore d hd)
      · exact List.forall₂_same.2 fun d hd => equals_refl (hafter d hd)
  | @member v w p q name before after _ ih =>
    cases ha with
    | map _ hnames hvalues =>
      have hpart : ∀ m ∈ before ++ (name, v) :: after,
          ∃ u, (m.1, u) ∈ before ++ (name, w) :: after ∧ m.2.equals u = true := by
        intro m hm
        have hself := equals_refl (hvalues m hm)
        obtain hbefore | hrest := List.mem_append.1 hm
        · exact ⟨m.2, List.mem_append_left _ hbefore, hself⟩
        obtain rfl | hafter := List.mem_cons.1 hrest
        · exact ⟨w, List.mem_append_right _ List.mem_cons_self, ih (hvalues _ hm)⟩
        · exact ⟨m.2, List.mem_append_right _ (List.mem_cons_of_mem _ hafter), hself⟩
      rw [names_replaced v w] at hnames
      refine equals_iff.2 (.map p q (by simp) fun m hm => ?_)
      obtain ⟨u, hu, hequal⟩ := hpart m hm
      exact ⟨u, Members.get?_of_mem hnames hu, hequal⟩

theorem Replaced.regular (hR : ∀ {v w}, v.Regular → R v w → w.Regular) {a b : Datum Float}
    (ha : a.Regular) (h : Replaced R a b) : b.Regular := by
  induction h with
  | here h => exact hR ha h
  | item p q before after _ ih =>
    cases ha with
    | list _ hitems =>
      obtain ⟨hbefore, hrest⟩ := List.forall_mem_append.1 hitems
      obtain ⟨hv, hafter⟩ := List.forall_mem_cons.1 hrest
      exact .list q (List.forall_mem_append.2
        ⟨hbefore, List.forall_mem_cons.2 ⟨ih hv, hafter⟩⟩)
  | @member v w p q name before after _ ih =>
    cases ha with
    | map _ hnames hvalues =>
      obtain ⟨hbefore, hrest⟩ := List.forall_mem_append.1 hvalues
      obtain ⟨hv, hafter⟩ := List.forall_mem_cons.1 hrest
      exact .map q (names_replaced v w ▸ hnames) (List.forall_mem_append.2
        ⟨hbefore, List.forall_mem_cons.2 ⟨ih hv, hafter⟩⟩)

end

/-! ### Members in another order -/

/-- Two maps with the same members, perhaps in another order. -/
inductive Shuffled : Datum Float → Datum Float → Prop
  | intro (p q : Option Place) {ms ns : Members (Datum Float)} (h : ms.Perm ns) :
      Shuffled (.map p ms) (.map q ns)

/-- A datum and what it becomes when the members of any maps within it are put in another order. -/
def Reordered : Datum Float → Datum Float → Prop := Relation.ReflTransGen (Replaced Shuffled)

theorem Shuffled.regular {v w : Datum Float} (hv : v.Regular) (h : Shuffled v w) : w.Regular := by
  cases h with
  | intro p q hperm =>
    cases hv with
    | map _ hnames hvalues =>
      exact .map q ((hperm.map _).nodup hnames) fun m hm => hvalues m (hperm.mem_iff.2 hm)

theorem Shuffled.equals {v w : Datum Float} (hv : v.Regular) (h : Shuffled v w) :
    v.equals w = true := by
  have hw := h.regular hv
  cases h with
  | intro p q hperm =>
    cases hv with
    | map _ _ hvalues =>
      cases hw with
      | map _ hnames _ =>
        refine equals_iff.2 (.map p q hperm.length_eq fun m hm => ?_)
        exact ⟨m.2, Members.get?_of_mem hnames (hperm.mem_iff.1 hm), equals_refl (hvalues m hm)⟩

/-- The order of members does not count, at any depth. -/
theorem Reordered.equals {a b : Datum Float} (ha : a.Regular) (h : Reordered a b) :
    b.Regular ∧ a.equals b = true := by
  induction h with
  | refl => exact ⟨ha, equals_refl ha⟩
  | tail _ hstep ih =>
    obtain ⟨hb, hab⟩ := ih
    exact ⟨hstep.regular Shuffled.regular hb,
      equals_trans hb hab (hstep.equals Shuffled.equals hb)⟩

/-- Equal data may take each other's place on either side. -/
theorem equals_congr {a a' b b' : Datum Float} (ha : a.Regular) (ha' : a'.Regular)
    (hb : b.Regular) (hb' : b'.Regular) (haa' : a.equals a' = true) (hbb' : b.equals b' = true) :
    a.equals b = a'.equals b' := by
  rw [Bool.eq_iff_iff]
  constructor
  · intro hab
    exact equals_trans ha (equals_symm ha haa') (equals_trans hb hab hbb')
  · intro hab
    exact equals_trans ha' haa' (equals_trans hb' hab (equals_symm hb hbb'))

/-! ### Containers -/

/-- No number is a name. -/
theorem contains_number {v : Datum Float} {x : Float} (hv : v.number? = some x) (p : Option Place)
    (ms : Members (Datum Float)) : (Datum.map p ms).contains v = .ok false := by
  cases v <;> first | rfl | cases hv

/-- Whether a list or a map contains an item does not depend on which of two equal items it is. -/
theorem contains_congr {v w : Datum Float} (hv : v.Regular) (hw : w.Regular)
    (hvw : v.equals w = true) {c : Datum Float} (hc : c.kind = .list ∨ c.kind = .map) :
    ∃ found, c.contains v = .ok found ∧ c.contains w = .ok found := by
  cases c with
  | list p xs =>
    have hsame : ∀ x : Datum Float, x.equals v = x.equals w := by
      intro x
      rw [Bool.eq_iff_iff]
      exact ⟨fun h => equals_trans hv h hvw, fun h => equals_trans hw h (equals_symm hv hvw)⟩
    exact ⟨_, rfl, congrArg (fun f => Except.ok (xs.any f)) (funext fun x => (hsame x).symm)⟩
  | map p ms =>
    cases equals_iff.1 hvw with
    | number hv hw => exact ⟨false, contains_number hv p ms, contains_number hw p ms⟩
    | _ => exact ⟨_, rfl, rfl⟩
  | _ => simp [kind] at hc

/-- **Equality is an equivalence that containers respect.** On the data without anything that is
not a number, equality is reflexive, symmetric and transitive. It does not depend on the order of
the members of maps, at any depth. Lists and maps do not tell equal items apart, and a part of a
list or a map, at any depth, may be replaced by an equal one. -/
theorem equals_equivalence :
    (Equivalence fun a b : { d : Datum Float // d.Regular } => a.1.equals b.1 = true) ∧
    (∀ a a' b b' : Datum Float, a.Regular → b.Regular → Reordered a a' → Reordered b b' →
      a.equals b = a'.equals b') ∧
    (∀ v w c : Datum Float, v.Regular → w.Regular → v.equals w = true →
      c.kind = .list ∨ c.kind = .map →
      ∃ found, c.contains v = .ok found ∧ c.contains w = .ok found) ∧
    ∀ a b : Datum Float, a.Regular → Replaced (fun v w => v.equals w = true) a b →
      a.equals b = true := by
  refine ⟨⟨fun a => equals_refl a.2, fun {a} _ h => equals_symm a.2 h,
    fun {_ b _} h h' => equals_trans b.2 h h'⟩, fun a a' b b' ha hb haa' hbb' => ?_,
    fun v w c hv hw hvw hc => contains_congr hv hw hvw hc,
    fun a b ha h => h.equals (fun _ hvw => hvw) ha⟩
  obtain ⟨ha', haa'⟩ := haa'.equals ha
  obtain ⟨hb', hbb'⟩ := hbb'.equals hb
  exact equals_congr ha ha' hb hb' haa' hbb'

-- A list of a truth value below two names, in either order, and the same list with the number one.
theorem equals_equivalence_one :
    ∃ a a' b v w c : Datum Float,
      a = .map none [("won", .list none [.bool true]), ("note", .null)] ∧
      a' = .map none [("note", .null), ("won", .list none [.bool true])] ∧
      b = .map none [("won", .list none [.num 1.0]), ("note", .null)] ∧
      v = .bool true ∧ w = .num 1.0 ∧ c = .list none [.str "1", .num 1.0] ∧
      a.Regular ∧ v.Regular ∧ w.Regular ∧ Reordered a a' ∧ v.equals w = true ∧
      Replaced (fun v w => v.equals w = true) a b ∧
      a.equals a = true ∧ a.equals a = a'.equals a ∧ w.equals v = true ∧ a.equals b = true ∧
      ∃ found, c.contains v = .ok found ∧ c.contains w = .ok found := by
  obtain ⟨⟨hrefl, hsymm, -⟩, horder, hcontains, hreplaced⟩ := equals_equivalence
  have hv : Regular (.bool true) := .bool true
  have hw : Regular (.num 1.0) := .num rfl
  have hlist : Regular (.list none [.bool true]) := .list none (by simpa using hv)
  have ha : Regular (.map none [("won", .list none [.bool true]), ("note", .null)]) :=
    .map none (by decide) (by simpa using ⟨hlist, Regular.null⟩)
  have hvw : (Datum.bool true).equals (.num 1.0) = true := rfl
  have hreordered : Reordered
      (.map none [("won", .list none [.bool true]), ("note", .null)])
      (.map none [("note", .null), ("won", .list none [.bool true])]) :=
    .single (.here (.intro none none (.swap _ _ [])))
  have hpart : Replaced (fun v w => v.equals w = true)
      (.map none [("won", .list none [.bool true]), ("note", .null)])
      (.map none [("won", .list none [.num 1.0]), ("note", .null)]) :=
    .member none none "won" [] _ (.item none none [] [] (.here hvw))
  exact ⟨_, _, _, _, _, _, rfl, rfl, rfl, rfl, rfl, rfl, ha, hv, hw, hreordered, hvw, hpart,
    hrefl ⟨_, ha⟩, horder _ _ _ _ ha ha hreordered .refl, @hsymm ⟨_, hv⟩ ⟨_, hw⟩ hvw,
    hreplaced _ _ ha hpart, hcontains _ _ _ hv hw hvw (.inl rfl)⟩

end PageExtract.Datum
