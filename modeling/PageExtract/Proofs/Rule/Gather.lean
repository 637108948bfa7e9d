/-
Paths in formulas and paths in rules.

A formula collects the values of a path from the tree of records, level by level over all records
at once. A rule follows the same path through the plain data, and goes into every item of a list
where the path has a mark. Where the marks of the path match the tree the two give the same values
in the same order, so that sums over a path agree.

* `Record.Matches` — the marks of a path match a record;
* `Record.scalarsAt` — the scalars that a path leads to;
* `Record.collect_of_matches` — a formula collects these scalars;
* `Rule.applyOps_of_matches` — a rule gathers the same scalars;
* `Rule.eval_eq_collect` — the values of a path agree, and so do the sums over it.
-/
import PageExtract.Proofs.Record.Trail
import PageExtract.Proofs.Record.ReadBack
import PageExtract.Proofs.Rule.Paths
import PageExtract.Proofs.Record.Sums
import PageExtract.Rule.Eval

namespace PageExtract

namespace Record

variable {ν : Type}

/-! ### Marks that match -/

/-- Whether the marks of a path above `leaf` match a record: there is a sequence under a name with
the mark and a map under one without, and likewise in all records on the way; at the end there is a
list if `leaf` has the mark and else a scalar. -/
def Matches (leaf : Segment) : Path → Record ν → Prop
  | [], r =>
    if leaf.many then ∃ vs, Members.get? r leaf.name = some (.list vs)
    else ∃ v, Members.get? r leaf.name = some (.scalar v)
  | seg :: path, r =>
    if seg.many then
      ∃ rs, Members.get? r seg.name = some (.sequence rs) ∧ ∀ r' ∈ rs, Matches leaf path r'
    else ∃ entries, Members.get? r seg.name = some (.map entries) ∧ Matches leaf path entries

/-- The scalars that a path leads to, in the order of the document. -/
def scalarsAt (leaf : Segment) : Path → Record ν → List (Scalar ν)
  | [], r =>
    match Members.get? r leaf.name with
    | some (.scalar v) => [v]
    | some (.list vs) => vs
    | _ => []
  | seg :: path, r => ((children r seg.name).getD []).flatMap (scalarsAt leaf path)

variable {leaf seg : Segment} {path : Path}

/-- One level of a path that matches. -/
theorem Matches.exists_children {r : Record ν} (h : Matches leaf (seg :: path) r) :
    ∃ rs, children r seg.name = some rs ∧ ∀ r' ∈ rs, Matches leaf path r' := by
  unfold Matches at h
  split at h
  · obtain ⟨rs, hget, hrs⟩ := h
    exact ⟨rs, by rw [children, hget], hrs⟩
  · obtain ⟨entries, hget, hentries⟩ := h
    refine ⟨[entries], by rw [children, hget], fun r' hr' => ?_⟩
    rw [List.mem_singleton.1 hr']
    exact hentries

/-- At the end of a path that matches there are values. -/
theorem fieldValues_of_matches {r : Record ν} (h : Matches leaf [] r) :
    fieldValues leaf.name r = (scalarsAt leaf [] r).map some := by
  unfold Matches at h
  unfold fieldValues scalarsAt
  split at h
  · obtain ⟨vs, hget⟩ := h
    rw [hget]
  · obtain ⟨v, hget⟩ := h
    rw [hget]
    rfl

theorem collectFrom_cons {p : Path} (hp : p ≠ []) (seg : Segment) (rs : List (Record ν)) :
    collectFrom (seg :: p) rs =
      match recordsBelow seg.name rs with
      | some rs' => collectFrom p rs'
      | none => ⟨[], some seg.name⟩ := by
  cases p with
  | nil => exact (hp rfl).elim
  | cons t p => rfl

theorem collectFrom_of_matches {rs : List (Record ν)} (h : ∀ r ∈ rs, Matches leaf path r) :
    collectFrom (path ++ [leaf]) rs = ⟨(rs.flatMap (scalarsAt leaf path)).map some, none⟩ := by
  induction path generalizing rs with
  | nil =>
    have hvalues : rs.flatMap (fieldValues leaf.name) =
        (rs.flatMap (scalarsAt leaf [])).map some := by
      rw [List.map_flatMap]
      exact congrArg List.flatten
        (List.map_congr_left fun r hr => fieldValues_of_matches (h r hr))
    exact congrArg (FieldValues.mk · none) hvalues
  | cons seg path ih =>
    have hchildren : ∀ r ∈ rs, ∃ rs', children r seg.name = some rs' :=
      fun r hr => (h r hr).exists_children.imp fun _ hrs => hrs.1
    have hbelow : ∀ r' ∈ rs.flatMap (fun r => (children r seg.name).getD []),
        Matches leaf path r' := by
      intro r' hr'
      obtain ⟨r, hr, hmem⟩ := List.mem_flatMap.1 hr'
      obtain ⟨rs', hrs', hall⟩ := (h r hr).exists_children
      rw [hrs'] at hmem
      exact hall r' hmem
    rw [List.cons_append, collectFrom_cons (by simp), recordsBelow_of_children hchildren]
    simp only
    rw [ih hbelow, List.flatMap_assoc]
    rfl

/-- A formula collects the scalars that a path leads to if its marks match, and misses nothing. -/
theorem collect_of_matches {r : Record ν} (h : Matches leaf path r) :
    r.collect (path ++ [leaf]) = ⟨(scalarsAt leaf path r).map some, none⟩ := by
  have hall : ∀ r' ∈ [r], Matches leaf path r' := by
    intro r' hr'
    rw [List.mem_singleton.1 hr']
    exact h
  rw [collect, collectFrom_of_matches hall, List.flatMap_singleton]

end Record

/-! ### What a rule gathers -/

namespace Datum

variable {ν : Type}

theorem get?_locateMembers (place : Place) (ms : Members (Value ν)) (name : String) :
    Members.get? (locateMembers place ms) name =
      (Members.get? ms name).map (locate (.key name :: place)) := by
  induction ms with
  | nil => rfl
  | cons m ms ih =>
    obtain ⟨key, v⟩ := m
    rw [locateMembers, Members.get?, Members.get?]
    split
    · rename_i hkey
      rw [hkey]
      rfl
    · exact ih

theorem get?_plainMembers (ms : Members (Datum ν)) (name : String) :
    Members.get? (plainMembers ms) name = (Members.get? ms name).map plain := by
  induction ms with
  | nil => rfl
  | cons m ms ih =>
    obtain ⟨key, d⟩ := m
    rw [plainMembers, Members.get?, Members.get?]
    split
    · rfl
    · exact ih

/-- A scalar lies nowhere. -/
theorem locate_scalar (place : Place) (v : Scalar ν) : locate place v.toValue = ofScalar v := by
  cases v <;> rfl

theorem locateItems_scalars (place : Place) (i : Nat) (vs : List (Scalar ν)) :
    locateItems place i (vs.map Scalar.toValue) = vs.map ofScalar := by
  induction vs generalizing i with
  | nil => rfl
  | cons v vs ih =>
    rw [List.map_cons, locateItems, locate_scalar, ih]
    rfl

theorem plain_ofScalar (v : Scalar ν) : (ofScalar v).plain = v.toValue := by
  cases v <;> rfl

theorem plainItems_scalars (vs : List (Scalar ν)) :
    plainItems (vs.map ofScalar) = vs.map Scalar.toValue := by
  induction vs with
  | nil => rfl
  | cons v vs ih =>
    rw [List.map_cons, plainItems, plain_ofScalar, ih]
    rfl

end Datum

/-- Whether a datum is what a path with or without a mark gathers: a list of scalars, or one. -/
def Datum.Gathers {ν : Type} (marked : Bool) (vs : List (Scalar ν)) (d : Datum ν) : Prop :=
  if marked then d = .fresh (vs.map .ofScalar) else ∃ v, vs = [v] ∧ d = .ofScalar v

namespace Rule

open Record Datum

/-- The value of a path into the data. -/
theorem eval_path (data : Members (Value Float)) (ops : List (PathOp Float)) :
    (Rule.path .root ops).eval data =
      (applyOps (locate [] (.map data)) "data" (locate [] (.map data)) ops).map plain := by
  rw [eval, evalOn, evalOn]
  rfl

variable (data : Datum Float) {leaf seg : Segment} {path : Path}

theorem ops_cons (seg : Segment) (path : Path) :
    Path.ops (seg :: path) =
      .member seg.name :: ((if seg.many then [.project] else []) ++ Path.ops path) :=
  List.flatMap_cons

/-- The steps of a path go through all items of a list where the path has a mark. -/
theorem hasProjection_ops (p : Path) : hasProjection p.ops = p.any (·.many) := by
  induction p with
  | nil => rfl
  | cons s p ih =>
    rw [ops_cons, List.any_cons, ← ih]
    cases s.many with
    | false => rfl
    | true => rfl

/-- A step to a member of a record leads to the value of its node. -/
theorem applyOps_member {r : Record Float} {name : String} {n : Node Float}
    (h : Members.get? r name = some n) (label : String) (place : Place) (ops : List (PathOp Float)) :
    ∃ label', applyOps data label (locate place (.map r.toMembers)) (.member name :: ops) =
      applyOps data label' (locate (.key name :: place) n.toValue) ops := by
  have hget : Members.get? (locateMembers place r.toMembers) name =
      some (locate (.key name :: place) n.toValue) := by
    rw [get?_locateMembers, Record.toMembers, get?_entriesToValues, h]
    rfl
  rw [locate, applyOps]
  simp only [hget]
  exact ⟨_, rfl⟩

/-- A step through all items of a list gathers what each of them gives. -/
theorem applyOps_project {label : String} {place : Option Place} {xs ys : List (Datum Float)}
    {ops : List (PathOp Float)}
    (h : xs.mapM (fun x => applyOps data (label ++ (.project : PathOp Float).label) x ops) = .ok ys) :
    applyOps data label (.list place xs) (.project :: ops) =
      .ok (.fresh (if hasProjection ops then ys.flatMap spread else ys)) := by
  rw [applyOps]
  simp only [h]
  rfl

theorem mapM_applyOps_nil (label : String) (xs : List (Datum Float)) :
    xs.mapM (fun x => applyOps data label x []) = .ok xs := by
  induction xs with
  | nil => rfl
  | cons x xs ih =>
    rw [List.mapM_cons, ih, applyOps_nil]
    rfl

/-- If every record of a sequence gives its scalars, all of them together are gathered. -/
theorem mapM_applyOps_records (label : String) (place : Place) {ops : List (PathOp Float)}
    {marked : Bool} {scalars : Record Float → List (Scalar Float)} {rs : List (Record Float)}
    (h : ∀ r ∈ rs, ∀ place, ∃ d, applyOps data label (locate place (.map r.toMembers)) ops = .ok d ∧
      d.Gathers marked (scalars r)) (i : Nat) :
    ∃ ys, (locateItems place i (recordsToValues rs)).mapM (fun x => applyOps data label x ops) =
        .ok ys ∧
      (if marked then ys.flatMap spread else ys) = (rs.flatMap scalars).map ofScalar := by
  induction rs generalizing i with
  | nil =>
    refine ⟨[], rfl, ?_⟩
    cases marked <;> rfl
  | cons r rs ih =>
    obtain ⟨d, hd, hgathers⟩ := h r List.mem_cons_self (.index i :: place)
    obtain ⟨ys, hys, hall⟩ := ih (fun r' hr' => h r' (List.mem_cons_of_mem r hr')) (i + 1)
    refine ⟨d :: ys, ?_, ?_⟩
    · have hhead : applyOps data label (locate (.index i :: place) (.map (entriesToValues r))) ops =
          .ok d := hd
      rw [recordsToValues, locateItems, List.mapM_cons, hhead, hys]
      rfl
    · have hcons : (r :: rs).flatMap scalars = scalars r ++ rs.flatMap scalars :=
        List.flatMap_cons
      rw [hcons, List.map_append, ← hall]
      unfold Gathers at hgathers
      cases marked with
      | true =>
        rw [if_pos rfl] at hgathers
        rw [hgathers]
        rfl
      | false =>
        obtain ⟨v, hv, rfl⟩ := hgathers
        rw [hv]
        rfl

/-- A rule gathers the scalars that a path leads to if its marks match. -/
theorem applyOps_of_matches {r : Record Float} (h : r.Matches leaf path) (label : String)
    (place : Place) :
    ∃ d, applyOps data label (locate place (.map r.toMembers)) (Path.ops (path ++ [leaf])) = .ok d ∧
      d.Gathers ((path ++ [leaf]).any (·.many)) (scalarsAt leaf path r) := by
  induction path generalizing r label place with
  | nil =>
    rw [List.nil_append, ops_cons]
    unfold Matches at h
    unfold scalarsAt
    cases hmany : leaf.many with
    | false =>
      rw [hmany] at h
      obtain ⟨v, hget⟩ := h
      obtain ⟨label', hmember⟩ := applyOps_member data hget label place []
      refine ⟨ofScalar v, ?_, ?_⟩
      · refine hmember.trans ?_
        rw [Node.toValue, locate_scalar, applyOps_nil]
      · rw [hget]
        simp [Gathers, hmany]
    | true =>
      rw [hmany] at h
      obtain ⟨vs, hget⟩ := h
      obtain ⟨label', hmember⟩ := applyOps_member data hget label place [.project]
      refine ⟨.fresh (vs.map ofScalar), ?_, ?_⟩
      · refine hmember.trans ?_
        rw [Node.toValue, locate, locateItems_scalars]
        exact applyOps_project data (mapM_applyOps_nil data _ _)
      · rw [hget]
        simp [Gathers, hmany]
  | cons seg path ih =>
    rw [List.cons_append, ops_cons, List.any_cons]
    unfold Matches at h
    cases hmany : seg.many with
    | false =>
      rw [hmany] at h
      obtain ⟨entries, hget, hentries⟩ := h
      obtain ⟨label', hmember⟩ :=
        applyOps_member data hget label place (Path.ops (path ++ [leaf]))
      obtain ⟨d, hd, hgathers⟩ := ih hentries label' (.key seg.name :: place)
      refine ⟨d, ?_, ?_⟩
      · refine hmember.trans ?_
        rw [Node.toValue]
        exact hd
      · rw [scalarsAt, children, hget]
        simpa using hgathers
    | true =>
      rw [hmany] at h
      obtain ⟨rs, hget, hrs⟩ := h
      obtain ⟨label', hmember⟩ :=
        applyOps_member data hget label place (.project :: Path.ops (path ++ [leaf]))
      obtain ⟨ys, hys, hall⟩ := mapM_applyOps_records data
        (label' ++ (.project : PathOp Float).label) (.key seg.name :: place)
        (fun r' hr' place' => ih (hrs r' hr') _ place') 0
      refine ⟨.fresh ((rs.flatMap (scalarsAt leaf path)).map ofScalar), ?_, ?_⟩
      · refine hmember.trans ?_
        rw [Node.toValue, locate]
        rw [applyOps_project data hys, hasProjection_ops, hall]
      · rw [scalarsAt, children, hget]
        simp [Gathers]

/-! ### The values and the sums -/

/-- A rule that is a path with a mark gives the scalars that the path leads to. -/
theorem evalOn_path {r : Record Float} (h : r.Matches leaf path)
    (hmark : (path ++ [leaf]).any (·.many) = true) :
    evalOn (locate [] (.map r.toMembers)) (.path .root (Path.ops (path ++ [leaf]))) =
      .ok (.fresh ((scalarsAt leaf path r).map ofScalar)) := by
  obtain ⟨d, hd, hgathers⟩ :=
    applyOps_of_matches (locate [] (.map r.toMembers)) h (Rule.root : Rule Float).baseLabel []
  rw [Gathers, hmark, if_pos rfl] at hgathers
  rw [evalOn, evalOn]
  simp only [bind, Except.bind]
  rw [hd, hgathers]

/-- Numbers are added up from the left. -/
theorem sumFrom_nums (start : Float) (xs : List Float) :
    Datum.sumFrom start ((xs.map Scalar.num).map ofScalar) =
      .ok (xs.foldl (fun acc x => acc + x) start) := by
  induction xs generalizing start with
  | nil => rfl
  | cons x xs ih => exact ih (start + x)

/-- **Formulas and rules agree on paths.** If the marks of a path match a tree, and there is at least
one, a rule that is this path into the data gives the values that formulas collect, in the same
order. If these are numbers, the sums over the path agree, and the formula makes no remark. -/
theorem eval_eq_collect {source : String} (hsource : Path.parse source = .ok (path ++ [leaf]))
    (hmark : (path ++ [leaf]).any (·.many) = true) {tree : Record Float}
    (h : tree.Matches leaf path) :
    ∃ rule vs, Rule.parse ("data." ++ source) = .ok rule ∧
      tree.collect (path ++ [leaf]) = ⟨vs.map some, none⟩ ∧
      rule.eval tree.toMembers = .ok (.list (vs.map Scalar.toValue)) ∧
      ∀ xs : List Float, vs = xs.map .num →
        ∃ formula call total, Formula.parse ("sum(" ++ source ++ ")") = .ok formula ∧
          Rule.parse ("sum(data." ++ source ++ ")") = .ok call ∧
          formula.eval tree = (total, []) ∧ call.eval tree.toMembers = .ok (.num total) := by
  have hnamed : Path.Named (path ++ [leaf]) :=
    ⟨Path.ne_nil_of_parse hsource, Path.isName_of_parse hsource⟩
  have hcollect := collect_of_matches h
  have hpath := evalOn_path h hmark
  rw [← Path.text_of_parse hsource]
  refine ⟨_, scalarsAt leaf path tree, parse_data hnamed, hcollect, ?_, fun xs hxs => ?_⟩
  · rw [eval, hpath]
    exact congrArg (Except.ok ∘ Value.list) (plainItems_scalars _)
  · rw [hxs] at hcollect hpath
    refine ⟨_, _, _, Formula.parse_sum hnamed hmark, parse_sum_data hnamed,
      Formula.sumPath_nums hcollect, ?_⟩
    have hcall : evalOn (locate [] (.map tree.toMembers))
        (.call .sum [.path .root (Path.ops (path ++ [leaf]))]) =
        .ok (.num (xs.foldl (fun acc x => acc + x) 0.0)) := by
      rw [evalOn, evalMany, evalMany, hpath]
      simp only [bind, Except.bind, pure, Except.pure, Helper.apply, Datum.listArg, Datum.fresh]
      rw [sumFrom_nums]
    rw [eval, hcall]
    rfl

/-- Two teams, the second of them without players. -/
def scoredTeams : Record Float :=
  [("teams", .sequence
    [[("players", .sequence [[("pts", .scalar (.num 3.0))], [("pts", .scalar (.num 4.0))]])],
      [("players", .sequence [])]])]

/-- The points of the players, in a formula and in a rule. -/
theorem eval_eq_collect_scoredTeams :
    Path.parse "teams[].players[].pts" =
      .ok ([⟨"teams", true⟩, ⟨"players", true⟩] ++ [⟨"pts", false⟩]) ∧
    (∃ rule, Rule.parse ("data." ++ "teams[].players[].pts") = .ok rule ∧
      rule.eval scoredTeams.toMembers = .ok (.list [.num 3.0, .num 4.0])) ∧
    ∃ formula call total,
      Formula.parse ("sum(" ++ "teams[].players[].pts" ++ ")") = .ok formula ∧
      Rule.parse ("sum(data." ++ "teams[].players[].pts" ++ ")") = .ok call ∧
      formula.eval scoredTeams = (total, []) ∧
      call.eval scoredTeams.toMembers = .ok (.num total) := by
  have hsource : Path.parse "teams[].players[].pts" =
      .ok ([⟨"teams", true⟩, ⟨"players", true⟩] ++ [⟨"pts", false⟩]) := by rfl
  have hmatches : scoredTeams.Matches ⟨"pts", false⟩ [⟨"teams", true⟩, ⟨"players", true⟩] := by
    simp [Record.Matches, scoredTeams, Members.get?]
  obtain ⟨rule, vs, hrule, hcollect, heval, hsums⟩ := eval_eq_collect hsource rfl hmatches
  obtain rfl : vs = [.num 3.0, .num 4.0] :=
    List.map_inj_right (fun _ _ h => Option.some_inj.1 h) |>.1
      (congrArg FieldValues.values hcollect).symm
  exact ⟨hsource, ⟨rule, hrule, heval⟩, hsums [3.0, 4.0] rfl⟩

end Rule

end PageExtract
