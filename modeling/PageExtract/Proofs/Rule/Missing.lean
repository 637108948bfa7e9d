/-
Missing fields.

A path of names, positions and projections goes from the data to the values that it reaches. Where
one of these is a map without the next name or a list that is too short for the next position, the
path ends there, and the field that is reported is the path as far as it was followed, with the step
that failed at its end. Where every value has what the next step asks for, no path fails:

* `PathOp.Leads`, `PathOp.Lacks`, `PathOp.Fits` — where a step leads, and the values that it cannot
  be taken from;
* `Rule.Reached`, `Rule.Passable` — the values that steps lead to, and steps that never fail;
* `Rule.Turn`, `Rule.turn` — what the evaluation does at one step;
* `Rule.applyOps_missing`, `Rule.applyOps_ok_iff` — what it does at all of them;
* `Rule.eval_path_missing` — the field that is reported, and when none is.
-/
import PageExtract.Proofs.Rule.Gather

namespace PageExtract

/-! ### Steps -/

namespace PathOp

/-- The name that a step asks a map for. -/
def name? : PathOp Float → Option String
  | .member name => some name
  | .index (.lit (.str name)) => some name
  | _ => none

/-- The position that a step asks a list for. -/
def position? : PathOp Float → Option Nat
  | .index (.lit (.num n)) =>
    match Numeric.exact n with
    | some q => if q.den = 1 ∧ 0 ≤ q.num then some q.num.toNat else none
    | none => none
  | _ => none

theorem eq_of_name? {op : PathOp Float} {name : String} (h : op.name? = some name) :
    op = .member name ∨ op = .index (.lit (.str name)) := by
  unfold name? at h
  split at h
  · cases h
    exact .inl rfl
  · cases h
    exact .inr rfl
  · cases h

theorem eq_of_position? {op : PathOp Float} {i : Nat} (h : op.position? = some i) :
    ∃ n q, op = .index (.lit (.num n)) ∧ Numeric.exact n = some q ∧ q.den = 1 ∧ q.num = i := by
  unfold position? at h
  split at h
  · rename_i n
    split at h
    · rename_i q hq
      split_ifs at h with hwhole
      cases h
      exact ⟨n, q, rfl, hq, hwhole.1, (Int.toNat_of_nonneg hwhole.2).symm⟩
    · cases h
  · cases h

/-- No step asks for a name and for a position. -/
theorem position?_of_name? {op : PathOp Float} {name : String} (h : op.name? = some name) :
    op.position? = none := by
  cases hposition : op.position? with
  | none => rfl
  | some i =>
    obtain ⟨n, q, rfl, -⟩ := eq_of_position? hposition
    cases h

/-- The steps that ask for a name, for a position or for all items. -/
inductive Plain : PathOp Float → Prop
  | name {op : PathOp Float} {name : String} (h : op.name? = some name) : Plain op
  | position {op : PathOp Float} {i : Nat} (h : op.position? = some i) : Plain op
  | project : Plain .project

/-- Where a step leads. -/
inductive Leads : PathOp Float → Value Float → Value Float → Prop
  | name {op : PathOp Float} {name : String} {ms : Members (Value Float)} {v : Value Float}
      (hop : op.name? = some name) (h : Members.get? ms name = some v) : Leads op (.map ms) v
  | position {op : PathOp Float} {i : Nat} {xs : List (Value Float)} {v : Value Float}
      (hop : op.position? = some i) (h : xs[i]? = some v) : Leads op (.list xs) v
  | project {xs : List (Value Float)} {v : Value Float} (h : v ∈ xs) : Leads .project (.list xs) v

/-- A map without the name, or a list too short for the position, that a step asks for. -/
inductive Lacks : PathOp Float → Value Float → Prop
  | name {op : PathOp Float} {name : String} {ms : Members (Value Float)}
      (hop : op.name? = some name) (h : Members.get? ms name = none) : Lacks op (.map ms)
  | position {op : PathOp Float} {i : Nat} {xs : List (Value Float)}
      (hop : op.position? = some i) (h : xs.length ≤ i) : Lacks op (.list xs)

/-- A value of the kind that a step is for. -/
inductive Fits : PathOp Float → Value Float → Prop
  | name {op : PathOp Float} {name : String} (hop : op.name? = some name)
      (ms : Members (Value Float)) : Fits op (.map ms)
  | position {op : PathOp Float} {i : Nat} (hop : op.position? = some i)
      (xs : List (Value Float)) : Fits op (.list xs)
  | project (xs : List (Value Float)) : Fits .project (.list xs)

theorem Leads.fits {op : PathOp Float} {v w : Value Float} (h : op.Leads v w) : op.Fits v := by
  cases h with
  | name hop => exact .name hop _
  | position hop => exact .position hop _
  | project => exact .project _

theorem Leads.not_lacks {op : PathOp Float} {v w : Value Float} (h : op.Leads v w) :
    ¬ op.Lacks v := by
  intro hlacks
  cases h with
  | name hop hget =>
    cases hlacks with
    | name hop' hget' =>
      cases hop.symm.trans hop'
      cases hget.symm.trans hget'
  | position hop hget =>
    cases hlacks with
    | position hop' hshort =>
      cases hop.symm.trans hop'
      cases hget.symm.trans (List.getElem?_eq_none_iff.2 hshort)
  | project =>
    cases hlacks with
    | position hop => cases hop

end PathOp

namespace Datum

theorem getElem?_locateItems (place : Place) (i : Nat) (xs : List (Value Float)) (j : Nat) :
    (locateItems place i xs)[j]? = xs[j]?.map (locate (.index (i + j) :: place)) := by
  induction xs generalizing i j with
  | nil => rfl
  | cons x xs ih =>
    rw [locateItems]
    cases j with
    | zero => rfl
    | succ j =>
      rw [List.getElem?_cons_succ, List.getElem?_cons_succ, ih]
      have hsum : i + 1 + j = i + (j + 1) := by omega
      rw [hsum]

theorem mem_locateItems {place : Place} {xs : List (Value Float)} {d : Datum Float} :
    d ∈ locateItems place 0 xs ↔ ∃ i v, xs[i]? = some v ∧ d = locate (.index i :: place) v := by
  rw [List.mem_iff_getElem?]
  refine exists_congr fun i => ?_
  rw [getElem?_locateItems, Option.map_eq_some_iff, Nat.zero_add]
  exact exists_congr fun v => and_congr_right' eq_comm

end Datum

namespace Rule

open PathOp Datum

/-! ### One step -/

/-- What the evaluation of a path does at a step. -/
inductive Turn (data : Datum Float) (label : String) (place : Place) (ops : List (PathOp Float)) :
    PathOp Float → Value Float → Except RuleError (Datum Float) → Prop
  | lacks {op : PathOp Float} {v : Value Float} (h : op.Lacks v) :
      Turn data label place ops op v (.error (.missingField (label ++ op.label)))
  | unfit {op : PathOp Float} {v : Value Float} {e : RuleError} (h : ¬ op.Fits v)
      (he : ∀ l, e ≠ .missingField l) : Turn data label place ops op v (.error e)
  | leads {op : PathOp Float} {v w : Value Float} (h : op.Leads v w)
      (honly : ∀ u, op.Leads v u → u = w) (place' : Place) :
      Turn data label place ops op v (applyOps data (label ++ op.label) (locate place' w) ops)
  | each (xs : List (Value Float)) :
      Turn data label place ops .project (.list xs)
        (((locateItems place 0 xs).mapM fun x =>
            applyOps data (label ++ (.project : PathOp Float).label) x ops).map fun ys =>
          .fresh (if hasProjection ops then ys.flatMap spread else ys))

section

variable (data : Datum Float) (label : String) (place : Place) (ops : List (PathOp Float))
  {op : PathOp Float}

theorem applyOps_index (key : Scalar Float) (d : Datum Float) :
    applyOps data label d (.index (.lit key) :: ops) =
      (indexed (label ++ PathOp.label (.index (.lit key))) d (ofScalar key)).bind fun w =>
        applyOps data (label ++ PathOp.label (.index (.lit key))) w ops := by
  rw [applyOps, evalOn]
  rfl

/-- A name is looked up in a map, and in nothing else. -/
theorem applyOps_name {name : String} (hop : op.name? = some name) (d : Datum Float) :
    ∃ e : RuleError, (∀ l, e ≠ .missingField l) ∧ applyOps data label d (op :: ops) =
      match d with
      | .map _ ms =>
        match Members.get? ms name with
        | some w => applyOps data (label ++ op.label) w ops
        | none => .error (.missingField (label ++ op.label))
      | _ => .error e := by
  obtain rfl | rfl := eq_of_name? hop
  · refine ⟨.noMember (label ++ (.member name : PathOp Float).label) name d.kind,
      (fun _ h => by cases h), ?_⟩
    cases d with
    | map p ms =>
      rw [applyOps]
      dsimp only
      cases Members.get? ms name <;> rfl
    | _ => rfl
  · refine ⟨.noIndex (label ++ (.index (.lit (.str name)) : PathOp Float).label) d.kind .string,
      (fun _ h => by cases h), ?_⟩
    rw [applyOps_index]
    cases d with
    | map p ms =>
      simp only [indexed, ofScalar]
      cases Members.get? ms name <;> rfl
    | _ => rfl

/-- A position is looked up in a list, and in nothing else. -/
theorem applyOps_position {i : Nat} (hop : op.position? = some i) (d : Datum Float) :
    ∃ e : RuleError, (∀ l, e ≠ .missingField l) ∧ applyOps data label d (op :: ops) =
      match d with
      | .list _ xs =>
        match xs[i]? with
        | some w => applyOps data (label ++ op.label) w ops
        | none => .error (.missingField (label ++ op.label))
      | _ => .error e := by
  obtain ⟨n, q, rfl, hexact, hden, hnum⟩ := eq_of_position? hop
  refine ⟨.noIndex (label ++ PathOp.label (.index (.lit (.num n)))) d.kind .number,
    (fun _ h => by cases h), ?_⟩
  rw [applyOps_index]
  cases d with
  | list p xs =>
    have hitem : itemAt? xs q.num = xs[i]? := by
      have hnatural : ¬ (i : Int) < 0 := by omega
      rw [hnum, itemAt?]
      simp only [if_neg hnatural, Int.toNat_natCast]
    simp only [indexed, ofScalar, hexact, hden, if_true, hitem]
    cases xs[i]? <;> rfl
  | _ => rfl

theorem turn_name {name : String} (hop : op.name? = some name) (v : Value Float) :
    Turn data label place ops op v (applyOps data label (locate place v) (op :: ops)) := by
  obtain ⟨e, he, happly⟩ := applyOps_name data label ops hop (locate place v)
  rw [happly]
  cases v with
  | map ms =>
    simp only [locate, get?_locateMembers]
    cases hget : Members.get? ms name with
    | none => exact .lacks (.name hop hget)
    | some w =>
      refine .leads (.name hop hget) (fun u hu => ?_) _
      cases hu with
      | name hop' hget' =>
        cases hop.symm.trans hop'
        exact Option.some_inj.1 (hget'.symm.trans hget)
  | list xs =>
    refine .unfit (fun h => ?_) he
    cases h with
    | position hop' => cases (position?_of_name? hop).symm.trans hop'
    | project => cases hop
  | _ => exact .unfit (fun h => by cases h) he

theorem turn_position {i : Nat} (hop : op.position? = some i) (v : Value Float) :
    Turn data label place ops op v (applyOps data label (locate place v) (op :: ops)) := by
  obtain ⟨e, he, happly⟩ := applyOps_position data label ops hop (locate place v)
  rw [happly]
  cases v with
  | list xs =>
    simp only [locate, getElem?_locateItems]
    cases hget : xs[i]? with
    | none => exact .lacks (.position hop (List.getElem?_eq_none_iff.1 hget))
    | some w =>
      refine .leads (.position hop hget) (fun u hu => ?_) _
      cases hu with
      | position hop' hget' =>
        cases hop.symm.trans hop'
        exact Option.some_inj.1 (hget'.symm.trans hget)
      | project => cases hop
  | map ms =>
    refine .unfit (fun h => ?_) he
    cases h with
    | name hop' => cases (position?_of_name? hop').symm.trans hop
  | _ => exact .unfit (fun h => by cases h) he

theorem turn_project (v : Value Float) : Turn data label place ops .project v
    (applyOps data label (locate place v) (.project :: ops)) := by
  cases v with
  | list xs =>
    have happly : applyOps data label (locate place (.list xs)) (.project :: ops) =
        ((locateItems place 0 xs).mapM fun x =>
          applyOps data (label ++ (.project : PathOp Float).label) x ops).map fun ys =>
            .fresh (if hasProjection ops then ys.flatMap spread else ys) := by
      rw [locate, applyOps]
      rfl
    rw [happly]
    exact .each xs
  | map ms =>
    refine .unfit (fun h => ?_) fun _ h => by cases h
    cases h with
    | name hop => cases hop
  | _ => exact .unfit (fun h => by cases h) fun _ h => by cases h

/-- What the evaluation of a path does at any step. -/
theorem turn (hop : op.Plain) (v : Value Float) :
    Turn data label place ops op v (applyOps data label (locate place v) (op :: ops)) := by
  cases hop with
  | name hop => exact turn_name data label place ops hop v
  | position hop => exact turn_position data label place ops hop v
  | project => exact turn_project data label place ops v

end

/-! ### All steps -/

section

variable {α β ε : Type} {f : α → Except ε β} {xs : List α}

/-- If a list has no results, one of its items has none for the same reason. -/
theorem exists_of_mapM_error {e : ε} (h : xs.mapM f = .error e) : ∃ x ∈ xs, f x = .error e := by
  induction xs with
  | nil => cases h
  | cons x xs ih =>
    rw [List.mapM_cons] at h
    cases hx : f x with
    | error e' =>
      rw [hx] at h
      cases h
      exact ⟨x, List.mem_cons_self, hx⟩
    | ok y =>
      cases hxs : xs.mapM f with
      | error e' =>
        rw [hx, hxs] at h
        cases h
        obtain ⟨u, hu, hf⟩ := ih hxs
        exact ⟨u, List.mem_cons_of_mem _ hu, hf⟩
      | ok ys =>
        rw [hx, hxs] at h
        cases h

theorem not_exists_ok (e : ε) : ¬ ∃ y, (Except.error e : Except ε β) = .ok y := by
  rintro ⟨y, hy⟩
  cases hy

/-- A list has results if every item has one. -/
theorem exists_mapM_ok_iff : (∃ ys, xs.mapM f = .ok ys) ↔ ∀ x ∈ xs, ∃ y, f x = .ok y := by
  induction xs with
  | nil => exact iff_of_true ⟨[], rfl⟩ (List.forall_mem_nil _)
  | cons x xs ih =>
    rw [List.forall_mem_cons, ← ih, List.mapM_cons]
    cases f x with
    | error e => exact iff_of_false (not_exists_ok e) fun h => not_exists_ok e h.1
    | ok y =>
      cases xs.mapM f with
      | error e => exact iff_of_false (not_exists_ok e) fun h => not_exists_ok e h.2
      | ok ys => exact iff_of_true ⟨_, rfl⟩ ⟨⟨y, rfl⟩, ys, rfl⟩

end

/-- The values that steps lead to. -/
inductive Reached : List (PathOp Float) → Value Float → Value Float → Prop
  | here (v : Value Float) : Reached [] v v
  | step {op : PathOp Float} {ops : List (PathOp Float)} {v w u : Value Float}
      (h : op.Leads v w) (hrest : Reached ops w u) : Reached (op :: ops) v u

/-- Every value that the first steps lead to has what the next step asks for. -/
def Passable (ops : List (PathOp Float)) (v : Value Float) : Prop :=
  ∀ before op after, ops = before ++ op :: after → ∀ u, Reached before v u →
    op.Fits u ∧ ¬ op.Lacks u

theorem passable_nil (v : Value Float) : Passable [] v := by
  intro before op after hops
  cases before <;> cases hops

theorem passable_cons {op : PathOp Float} {ops : List (PathOp Float)} {v : Value Float} :
    Passable (op :: ops) v ↔
      (op.Fits v ∧ ¬ op.Lacks v) ∧ ∀ u, op.Leads v u → Passable ops u := by
  constructor
  · intro h
    refine ⟨h [] op ops rfl v (.here v), fun u hu before op' after hops w hw => ?_⟩
    exact h (op :: before) op' after (by rw [hops, List.cons_append]) w (.step hu hw)
  · rintro ⟨hfirst, hrest⟩ before op' after hops w hw
    cases hw with
    | here =>
      cases hops
      exact hfirst
    | step hu hw =>
      cases hops
      exact hrest _ hu _ op' after rfl w hw

section

variable (data : Datum Float) {ops : List (PathOp Float)}

-- The induction is on the steps, for any label and place: a projection hands the rest of the path
-- on to every item, with the label so far.
/-- The field that is reported is the path as far as a value lacks the next step. -/
theorem applyOps_missing (hplain : ∀ op ∈ ops, op.Plain) {label l : String} {place : Place}
    {v : Value Float} (h : applyOps data label (locate place v) ops = .error (.missingField l)) :
    ∃ before op after u, ops = before ++ op :: after ∧ Reached before v u ∧ op.Lacks u ∧
      l = (before ++ [op]).foldl (fun l op => l ++ op.label) label := by
  induction ops generalizing label place v with
  | nil =>
    rw [applyOps] at h
    cases h
  | cons op ops ih =>
    obtain ⟨hop, hops⟩ := List.forall_mem_cons.1 hplain
    have hturn := turn data label place ops hop v
    rw [h] at hturn
    generalize houtcome : Except.error (RuleError.missingField l) = outcome at hturn
    cases hturn with
    | lacks hlacks =>
      cases houtcome
      exact ⟨[], op, ops, v, rfl, .here v, hlacks, rfl⟩
    | unfit hfits he =>
      cases houtcome
      exact absurd rfl (he l)
    | leads hleads _ place' =>
      obtain ⟨before, op', after, u, rfl, hu, hlacks, hl⟩ := ih hops houtcome.symm
      exact ⟨op :: before, op', after, u, rfl, .step hleads hu, hlacks, hl⟩
    | each xs =>
      -- The first item that fails fails for the reason that is reported.
      cases hitems : (locateItems place 0 xs).mapM fun x =>
          applyOps data (label ++ (.project : PathOp Float).label) x ops with
      | ok ys =>
        rw [hitems] at houtcome
        cases houtcome
      | error e =>
        rw [hitems] at houtcome
        cases houtcome
        obtain ⟨d, hd, hitem⟩ := exists_of_mapM_error hitems
        obtain ⟨i, w, hw, rfl⟩ := mem_locateItems.1 hd
        obtain ⟨before, op', after, u, rfl, hu, hlacks, hl⟩ := ih hops hitem
        have hleads : PathOp.Leads .project (.list xs) w := .project (List.mem_of_getElem? hw)
        exact ⟨.project :: before, op', after, u, rfl, .step hleads hu, hlacks, hl⟩

/-- A path has a value if every value on the way has what the next step asks for. -/
theorem applyOps_ok_iff (hplain : ∀ op ∈ ops, op.Plain) {label : String} {place : Place}
    {v : Value Float} :
    (∃ d, applyOps data label (locate place v) ops = .ok d) ↔ Passable ops v := by
  induction ops generalizing label place v with
  | nil =>
    rw [applyOps]
    exact iff_of_true ⟨_, rfl⟩ (passable_nil v)
  | cons op ops ih =>
    obtain ⟨hop, hops⟩ := List.forall_mem_cons.1 hplain
    have hturn := turn data label place ops hop v
    rw [passable_cons]
    generalize applyOps data label (locate place v) (op :: ops) = outcome at hturn
    cases hturn with
    | lacks hlacks => exact iff_of_false (not_exists_ok _) fun h => h.1.2 hlacks
    | unfit hfits => exact iff_of_false (not_exists_ok _) fun h => hfits h.1.1
    | @leads _ _ w hleads honly place' =>
      rw [ih hops, and_iff_right ⟨hleads.fits, hleads.not_lacks⟩]
      constructor
      · intro hw u hu
        rwa [honly u hu]
      · exact fun h => h w hleads
    | each xs =>
      have hleads : ∀ u, PathOp.Leads .project (.list xs) u ↔ u ∈ xs := by
        intro u
        refine ⟨fun h => ?_, .project⟩
        cases h with
        | position hop => cases hop
        | project h => exact h
      have hlacks : ¬ PathOp.Lacks .project (.list xs) := by
        rintro (_ | hop)
        cases hop
      have hmap : ∀ (f : List (Datum Float) → Datum Float) {m : Except RuleError _},
          (∃ d, m.map f = .ok d) ↔ ∃ ys, m = .ok ys := by
        intro f m
        cases m with
        | error e => exact iff_of_false (not_exists_ok e) (not_exists_ok e)
        | ok ys => exact iff_of_true ⟨_, rfl⟩ ⟨_, rfl⟩
      rw [hmap, exists_mapM_ok_iff, and_iff_right ⟨.project xs, hlacks⟩]
      constructor
      · intro h u hu
        obtain ⟨i, hi⟩ := List.mem_iff_getElem?.1 ((hleads u).1 hu)
        exact (ih hops).1 (h _ (mem_locateItems.2 ⟨i, u, hi, rfl⟩))
      · intro h d hd
        obtain ⟨i, u, hu, rfl⟩ := mem_locateItems.1 hd
        exact (ih hops).2 (h u ((hleads u).2 (List.mem_of_getElem? hu)))

end

/-- **A missing field is named by the path that leads to it.** If a path of names, positions and
projections ends in a missing field, this is the path up to a name or a position, and the steps
before lead to a map without the name or to a list that is too short for the position. A path has a
value if and only if every value that some of its first steps lead to is of the kind that the next
step is for and does not lack what it asks for. -/
theorem eval_path_missing (data : Members (Value Float)) (ops : List (PathOp Float))
    (hplain : ∀ op ∈ ops, op.Plain) :
    (∀ l, (Rule.path .root ops).eval data = .error (.missingField l) →
      ∃ before op after v, ops = before ++ op :: after ∧ l = pathLabel .root (before ++ [op]) ∧
        Reached before (.map data) v ∧ op.Lacks v) ∧
    ((∃ v, (Rule.path .root ops).eval data = .ok v) ↔
      ∀ before op after, ops = before ++ op :: after → ∀ v, Reached before (.map data) v →
        op.Fits v ∧ ¬ op.Lacks v) := by
  rw [eval_path]
  generalize hvalue : applyOps (locate [] (.map data)) "data" (locate [] (.map data)) ops = value
  constructor
  · intro l hl
    cases value with
    | ok d => cases hl
    | error e =>
      cases hl
      obtain ⟨before, op, after, v, hops, hv, hlacks, hlabel⟩ := applyOps_missing _ hplain hvalue
      exact ⟨before, op, after, v, hops, hlabel, hv, hlacks⟩
  · have hpassable : (∃ d, applyOps (locate [] (.map data)) "data" (locate [] (.map data)) ops =
        .ok d) ↔ Passable ops (.map data) := applyOps_ok_iff _ hplain
    rw [hvalue] at hpassable
    refine Iff.trans ?_ hpassable
    cases value with
    | error e => exact iff_of_false (not_exists_ok e) (not_exists_ok e)
    | ok d => exact iff_of_true ⟨_, rfl⟩ ⟨_, rfl⟩

-- The first tag of every player, where the only player has no tags.
theorem eval_path_missing_tags :
    ∃ (data : Members (Value Float)) (ops : List (PathOp Float)) (l : String),
      data = [("players", .list [.map [("name", .str "Ann")]])] ∧
      ops = [.member "players", .project, .member "tags", .index (.lit (.num 0.0))] ∧
      l = "data.players[].tags" ∧ (∀ op ∈ ops, op.Plain) ∧
      (Rule.path .root ops).eval data = .error (.missingField l) ∧
      ∃ before op after v, ops = before ++ op :: after ∧ l = pathLabel .root (before ++ [op]) ∧
        Reached before (.map data) v ∧ op.Lacks v := by
  have hplain : ∀ op ∈ [.member "players", .project, .member "tags", .index (.lit (.num 0.0))],
      PathOp.Plain op := by
    have hzero : PathOp.position? (.index (.lit (.num 0.0))) = some 0 := by decide +kernel
    simp only [List.forall_mem_cons]
    exact ⟨.name rfl, .project, .name rfl, .position hzero, List.forall_mem_nil _⟩
  have herror : (Rule.path .root [.member "players", .project, .member "tags",
      .index (.lit (.num 0.0))]).eval [("players", .list [.map [("name", .str "Ann")]])] =
      .error (.missingField "data.players[].tags") := rfl
  exact ⟨_, _, _, rfl, rfl, rfl, hplain, herror, (eval_path_missing _ _ hplain).1 _ herror⟩

end Rule

end PageExtract
