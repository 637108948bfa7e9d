/-
Safe access.

`get` takes the member of a name or, where there is none, a value to take in its place. It asks for
a map. In a chain of them each link asks the value that the links before it found, which is a member
of the data or such a value, so that only what the last link finds may be anything:

* `Rule.IsLiteral`, `Rule.literal` — literals and their values, which do not depend on the data;
* `Rule.getOp`, `Rule.found` — a link of a chain, and what the links of a chain find;
* `Rule.MapsUpTo` — chains whose links are all asked of maps;
* `Rule.applyOps_get`, `Rule.applyOps_gets` — one link, and all of them;
* `Rule.eval_gets` — the value of a chain, or the link at which it has none.
-/
import PageExtract.Proofs.Rule.Gather

namespace PageExtract

namespace Rule

/-! ### Literals -/

/-- The rules that spell out a value. -/
inductive IsLiteral : Rule Float → Prop
  | lit (v : Scalar Float) : IsLiteral (.lit v)
  | neg (n : Float) : IsLiteral (.neg (.lit (.num n)))
  | list {items : List (Rule Float)} (h : ∀ r ∈ items, IsLiteral r) : IsLiteral (.list items)
  | dict {entries : List (Rule Float × Rule Float)}
      (hnames : ∀ e ∈ entries, ∃ name, e.1 = .lit (.str name))
      (hvalues : ∀ e ∈ entries, IsLiteral e.2) : IsLiteral (.dict entries)

/-- The value of a literal. -/
def literal (r : Rule Float) : Value Float :=
  match r.eval [] with
  | .ok v => v
  | .error _ => .null

theorem evalMany_constant {items : List (Rule Float)}
    (h : ∀ r ∈ items, ∃ d, ∀ data, evalOn data r = .ok d) :
    ∃ ds, ∀ data, evalMany data items = .ok ds := by
  induction items with
  | nil => exact ⟨[], fun data => rfl⟩
  | cons r rs ih =>
    obtain ⟨hr, hrs⟩ := List.forall_mem_cons.1 h
    obtain ⟨d, hd⟩ := hr
    obtain ⟨ds, hds⟩ := ih hrs
    refine ⟨d :: ds, fun data => ?_⟩
    rw [evalMany, hd, hds]
    rfl

theorem evalEntries_constant {entries : List (Rule Float × Rule Float)}
    (hnames : ∀ e ∈ entries, ∃ name, e.1 = .lit (.str name))
    (hvalues : ∀ e ∈ entries, ∃ d, ∀ data, evalOn data e.2 = .ok d) (ms : Members (Datum Float)) :
    ∃ ns, ∀ data, evalEntries data ms entries = .ok ns := by
  induction entries generalizing ms with
  | nil => exact ⟨ms, fun data => rfl⟩
  | cons e es ih =>
    obtain ⟨⟨name, hname⟩, hrest⟩ := List.forall_mem_cons.1 hnames
    obtain ⟨⟨d, hd⟩, hrest'⟩ := List.forall_mem_cons.1 hvalues
    obtain ⟨key, value⟩ := e
    obtain rfl : key = .lit (.str name) := hname
    obtain ⟨ns, hns⟩ := ih hrest hrest' (Members.set ms name d)
    refine ⟨ns, fun data => ?_⟩
    rw [evalEntries, evalOn, ← hns data]
    show (do evalEntries data (Members.set ms name (← evalOn data value)) es) = _
    rw [hd]
    rfl

/-- A literal has one value on all data. -/
theorem IsLiteral.constant {r : Rule Float} (h : r.IsLiteral) :
    ∃ d, (∀ data, evalOn data r = .ok d) ∧ d.plain = literal r := by
  have hconstant : ∃ d, ∀ data, evalOn data r = .ok d := by
    induction h with
    | lit v => exact ⟨.ofScalar v, fun data => rfl⟩
    | neg n => exact ⟨.num (-n), fun data => rfl⟩
    | list _ ih =>
      obtain ⟨ds, hds⟩ := evalMany_constant ih
      refine ⟨.fresh ds, fun data => ?_⟩
      rw [evalOn, hds]
      rfl
    | dict hnames _ ih =>
      obtain ⟨ns, hns⟩ := evalEntries_constant hnames ih []
      refine ⟨.map none ns, fun data => ?_⟩
      rw [evalOn, hns]
      rfl
  obtain ⟨d, hd⟩ := hconstant
  refine ⟨d, hd, ?_⟩
  rw [literal, eval, hd]
  rfl

/-! ### Chains -/

/-- A link of a chain: the member of a name or, where there is none, the value of a rule. -/
def getOp (link : String × Rule Float) : PathOp Float := .get [.lit (.str link.1), link.2]

/-- What a link finds in a map. -/
def fetch : Value Float → String × Rule Float → Value Float
  | .map ms, (name, r) => (Members.get? ms name).getD (literal r)
  | v, _ => v

/-- What the links of a chain find. -/
def found (v : Value Float) (links : List (String × Rule Float)) : Value Float :=
  links.foldl fetch v

/-- Every link is asked of a map. -/
def MapsUpTo (links : List (String × Rule Float)) (v : Value Float) : Prop :=
  ∀ before link after, links = before ++ link :: after → ∃ ms, found v before = .map ms

theorem mapsUpTo_nil (v : Value Float) : MapsUpTo [] v := by
  intro before link after hlinks
  cases before <;> cases hlinks

theorem mapsUpTo_cons {link : String × Rule Float} {links : List (String × Rule Float)}
    {v : Value Float} : MapsUpTo (link :: links) v ↔
      (∃ ms, v = .map ms) ∧ MapsUpTo links (fetch v link) := by
  constructor
  · intro h
    exact ⟨h [] link links rfl, fun before link' after hlinks =>
      h (link :: before) link' after (by rw [hlinks, List.cons_append])⟩
  · rintro ⟨hfirst, hrest⟩ before link' after hlinks
    cases before with
    | nil => exact hfirst
    | cons link'' before =>
      cases hlinks
      exact hrest before link' after rfl

section

variable (data : Datum Float) (label : String) (d : Datum Float)

/-- A link takes the member of its name or the value of its literal from a map. -/
theorem applyOps_get {link : String × Rule Float} (hlink : link.2.IsLiteral)
    {ms : Members (Value Float)} (hd : d.plain = .map ms) (ops : List (PathOp Float)) :
    ∃ d' : Datum Float, d'.plain = fetch d.plain link ∧
      applyOps data label d (getOp link :: ops) =
        applyOps data (label ++ (getOp link).label) d' ops := by
  obtain ⟨name, r⟩ := link
  obtain ⟨w, hw, hplain⟩ := hlink.constant
  cases d with
  | map p ds =>
    refine ⟨(Members.get? ds name).getD w, ?_, ?_⟩
    · rw [Datum.plain, fetch, Datum.get?_plainMembers, ← hplain]
      cases Members.get? ds name <;> rfl
    · rw [getOp, applyOps]
      dsimp only
      rw [evalOn, hw]
      rfl
  | _ => cases hd

/-- Nothing but a map can be asked. -/
theorem applyOps_get_error {link : String × Rule Float} (hd : ∀ ms, d.plain ≠ .map ms)
    (ops : List (PathOp Float)) : applyOps data label d (getOp link :: ops) =
      .error (.getExpectsMap (label ++ (getOp link).label) (Datum.locate [] d.plain).kind) := by
  cases d with
  | map p ds => exact absurd rfl (hd _)
  | _ => rfl

end

/-- A chain finds a value if all of its links are asked of maps, and fails at the first that is
not. -/
theorem applyOps_gets (data : Datum Float) {links : List (String × Rule Float)}
    (hliteral : ∀ link ∈ links, link.2.IsLiteral) (label : String) (d : Datum Float) :
    (MapsUpTo links d.plain ∧ ∃ d', d'.plain = found d.plain links ∧
      applyOps data label d (links.map getOp) = .ok d') ∨
    ∃ before link after, links = before ++ link :: after ∧ MapsUpTo before d.plain ∧
      (∀ ms, found d.plain before ≠ .map ms) ∧ applyOps data label d (links.map getOp) =
        .error (.getExpectsMap
          (((before ++ [link]).map getOp).foldl (fun l op => l ++ op.label) label)
          (Datum.locate [] (found d.plain before)).kind) := by
  induction links generalizing label d with
  | nil => exact .inl ⟨mapsUpTo_nil _, d, rfl, by rw [List.map_nil, applyOps]⟩
  | cons link links ih =>
    obtain ⟨hlink, hlinks⟩ := List.forall_mem_cons.1 hliteral
    rw [List.map_cons]
    -- What the first link finds is what the rest of the chain is asked of.
    by_cases hd : ∃ ms, d.plain = .map ms
    · obtain ⟨ms, hms⟩ := hd
      obtain ⟨w, hw, happly⟩ := applyOps_get data label d hlink hms (links.map getOp)
      rw [happly, mapsUpTo_cons, ← hw]
      obtain ⟨hmaps, d', hd', hrun⟩ | ⟨before, link', after, rfl, hmaps, hfound, hrun⟩ :=
        ih hlinks (label ++ (getOp link).label) w
      · refine .inl ⟨⟨⟨ms, hms⟩, hmaps⟩, d', ?_, hrun⟩
        rw [hd', hw]
        rfl
      · rw [hw] at hmaps hfound hrun
        exact .inr ⟨link :: before, link', after, rfl, mapsUpTo_cons.2 ⟨⟨ms, hms⟩, hmaps⟩,
          hfound, hrun⟩
    · have hd : ∀ ms, d.plain ≠ .map ms := fun ms hms => hd ⟨ms, hms⟩
      exact .inr ⟨[], link, links, rfl, mapsUpTo_nil _, hd, applyOps_get_error data label d hd _⟩

/-- **Safe access is safe on maps.** A chain of `get`s with names and literals has a value if and
only if all of its links are asked of maps, whatever the last link finds, so that a single link
always has one. The value is what they find. Else there is a first link that is not asked of a map,
and the error names the chain up to it and what it is asked of. -/
theorem eval_gets (data : Members (Value Float)) (links : List (String × Rule Float))
    (hliteral : ∀ link ∈ links, link.2.IsLiteral) :
    (∀ link, MapsUpTo [link] (.map data)) ∧
    (MapsUpTo links (.map data) →
      (Rule.path .root (links.map getOp)).eval data = .ok (found (.map data) links)) ∧
    (¬ MapsUpTo links (.map data) → ∃ before link after, links = before ++ link :: after ∧
      MapsUpTo before (.map data) ∧ (∀ ms, found (.map data) before ≠ .map ms) ∧
      (Rule.path .root (links.map getOp)).eval data =
        .error (.getExpectsMap (pathLabel .root ((before ++ [link]).map getOp))
          (Datum.locate [] (found (.map data) before)).kind)) := by
  have hrun := applyOps_gets (.locate [] (.map data)) hliteral "data" (.locate [] (.map data))
  rw [Datum.plain_locate] at hrun
  rw [eval_path]
  refine ⟨fun link => mapsUpTo_cons.2 ⟨⟨data, rfl⟩, mapsUpTo_nil _⟩, ?_⟩
  obtain ⟨hmaps, d, hd, hrun⟩ | ⟨before, link, after, hlinks, hmaps, hfound, hrun⟩ := hrun
  · refine ⟨fun _ => ?_, fun hnot => absurd hmaps hnot⟩
    rw [hrun, ← hd]
    rfl
  · refine ⟨fun hall => ?_, fun _ => ⟨before, link, after, hlinks, hmaps, hfound, ?_⟩⟩
    · obtain ⟨ms, hms⟩ := hall before link after hlinks
      exact absurd hms (hfound ms)
    · rw [hrun]
      rfl

-- The name of a team that is there, but has none.
theorem eval_gets_team :
    ∃ (data : Members (Value Float)) (links : List (String × Rule Float)),
      data = [("team", .map [("coach", .null)])] ∧
      links = [("team", .dict []), ("name", .lit (.str "unknown"))] ∧
      (∀ link ∈ links, link.2.IsLiteral) ∧ MapsUpTo links (.map data) ∧
      (Rule.path .root (links.map getOp)).eval data = .ok (.str "unknown") := by
  have hliteral : ∀ link ∈ [("team", .dict []), ("name", .lit (.str "unknown"))],
      IsLiteral link.2 := by
    simp only [List.forall_mem_cons]
    exact ⟨.dict nofun nofun, .lit _, nofun⟩
  have hmaps : MapsUpTo [("team", .dict []), ("name", .lit (.str "unknown"))]
      (.map [("team", .map [("coach", .null)])]) :=
    mapsUpTo_cons.2 ⟨⟨_, rfl⟩, mapsUpTo_cons.2 ⟨⟨_, rfl⟩, mapsUpTo_nil _⟩⟩
  exact ⟨_, _, rfl, rfl, hliteral, hmaps, (eval_gets _ _ hliteral).2.1 hmaps⟩

/-- A chain fails if one of its links finds a number that the next link is asked of. -/
theorem eval_gets_of_number :
    ∃ (data : Members (Value Float)) (links : List (String × Rule Float)),
      data = [("a", .num 1.0)] ∧ links = [("a", .lit (.num 0.0)), ("b", .lit (.num 0.0))] ∧
      (∀ link ∈ links, link.2.IsLiteral) ∧
      (Rule.path .root (links.map getOp)).eval data =
        .error (.getExpectsMap "data.get(...).get(...)" .number) := by
  refine ⟨_, _, rfl, rfl, ?_, rfl⟩
  simp only [List.forall_mem_cons]
  exact ⟨.lit _, .lit _, nofun⟩

end Rule

end PageExtract
