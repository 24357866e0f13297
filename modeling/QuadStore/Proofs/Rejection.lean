import QuadStore.Proofs.Parts
import QuadStore.Proofs.Visibility

/-!
# Rejection

A pattern is rejected exactly if there is a fault somewhere in it, at whatever depth: in a condition
of a join, in a sort key, in a pattern that an expression asks about. What is not rejected is
evaluated to its end without an error: `Session.Arises.decides` says both of every evaluation
without a deadline, whether it is asked for at once or through a cursor.
-/

namespace QuadStore

/-! ## Faults of parts -/

namespace Part

/-- What is wrong with a part, apart from those below it: a computed variable is in scope in the
pattern that it extends, or a function does not take as many arguments. -/
inductive Faulty : Part → PatternFault → Prop
  | rebound {inner : GraphPattern} {v : Variable} {value : Expression} : v ∈ inner.inScope →
      Faulty (pattern (.extend inner v value)) (.rebound v)
  | arity {f : Function} {arguments : List Expression} :
      ¬ (f.arity.1 ≤ arguments.length ∧ arguments.length ≤ f.arity.2) →
        Faulty (expression (.call f arguments)) (.arity f arguments.length)

/-- The first fault in a part. -/
def fault? : Part → Option PatternFault
  | pattern p => p.fault?
  | expression e => e.fault?

/-- What is wrong with a part, apart from those below it. -/
def own? : Part → Option PatternFault
  | pattern (.extend inner v _) => if inner.inScope.contains v then some (.rebound v) else none
  | expression (.call f arguments) =>
    if f.arity.1 ≤ arguments.length && arguments.length ≤ f.arity.2 then none
    else some (.arity f arguments.length)
  | _ => none

theorem own?_eq_some_iff {part : Part} {fault : PatternFault} :
    part.own? = some fault ↔ part.Faulty fault := by
  constructor
  · intro h
    cases part with
    | pattern p =>
      cases p with
      | extend inner v value =>
        obtain ⟨hscope, hfault⟩ := Option.ite_none_right_eq_some.1 h
        obtain rfl := Option.some.inj hfault
        exact .rebound (List.contains_iff_mem.1 hscope)
      | _ => exact absurd h (Option.some_ne_none _).symm
    | expression e =>
      cases e with
      | call f arguments =>
        obtain ⟨hcount, hfault⟩ := Option.ite_none_left_eq_some.1 h
        obtain rfl := Option.some.inj hfault
        exact .arity (by simpa using hcount)
      | _ => exact absurd h (Option.some_ne_none _).symm
  · intro h
    cases h with
    | rebound hscope => exact if_pos (List.contains_iff_mem.2 hscope)
    | arity hcount => exact if_neg (by simpa using hcount)

theorem findSome?_fault?_cons (part : Part) (rest : List Part) :
    (part :: rest).findSome? fault? = part.fault?.or (rest.findSome? fault?) := by
  rw [List.findSome?_cons]
  cases part.fault? <;> rfl

theorem faultIn?_eq (es : List Expression) :
    Expression.faultIn? es = (es.map expression).findSome? fault? := by
  induction es with
  | nil => simp [Expression.faultIn?]
  | cons e rest ih =>
    rw [Expression.faultIn?, ih, List.map_cons, findSome?_fault?_cons]
    show (e.fault? <|> _) = e.fault?.or _
    cases e.fault? <;> rfl

theorem faultInKeys?_eq (keys : List (Direction × Expression)) :
    Expression.faultInKeys? keys = (keys.map fun key => expression key.2).findSome? fault? := by
  induction keys with
  | nil => simp [Expression.faultInKeys?]
  | cons key rest ih =>
    obtain ⟨direction, e⟩ := key
    rw [Expression.faultInKeys?, ih, List.map_cons, findSome?_fault?_cons]
    show (e.fault? <|> _) = e.fault?.or _
    cases e.fault? <;> rfl

theorem faultInCondition?_eq (condition? : Option Expression) :
    Expression.faultInCondition? condition? =
      (condition?.toList.map expression).findSome? fault? := by
  cases condition? with
  | none => simp [Expression.faultInCondition?]
  | some condition => simp [Expression.faultInCondition?, fault?]

/-- The first fault in a part is its own, or else the first one in the parts below it. -/
theorem fault?_eq (part : Part) :
    part.fault? = part.own?.or (part.children.findSome? fault?) := by
  cases part with
  | pattern p =>
    show p.fault? = _
    cases p with
    | extend inner v value =>
      simp only [GraphPattern.fault?, own?, children, findSome?_fault?_cons, List.findSome?_nil,
        Option.or_none]
      split
      · rfl
      · show (inner.fault? <|> _) = inner.fault?.or _
        cases inner.fault? <;> rfl
    | _ =>
      simp [GraphPattern.fault?, own?, children, findSome?_fault?_cons, faultInKeys?_eq,
        faultInCondition?_eq, fault?]
  | expression e =>
    show e.fault? = _
    cases e with
    | call f arguments =>
      simp only [Expression.fault?, own?, children, faultIn?_eq]
      split <;> rfl
    | _ =>
      simp [Expression.fault?, own?, children, findSome?_fault?_cons, faultIn?_eq, fault?]

/-- The fault of a part is found somewhere in it. -/
theorem exists_faulty {whole : Part} {fault : PatternFault} (h : whole.fault? = some fault) :
    ∃ part, Within part whole ∧ Faulty part fault := by
  rw [fault?_eq, Option.or_eq_some_iff] at h
  rcases h with hown | ⟨-, hbelow⟩
  · exact ⟨whole, .refl, own?_eq_some_iff.1 hown⟩
  · obtain ⟨child, hchild, hfault⟩ := List.exists_of_findSome?_eq_some hbelow
    -- by the size, since the parts below stand in lists of their parents
    have hsmaller := sizeOf_lt_of_mem_children hchild
    obtain ⟨part, hwithin, hfaulty⟩ := exists_faulty hfault
    exact ⟨part, .head hchild hwithin, hfaulty⟩
termination_by sizeOf whole

/-- A part has no fault exactly if nothing is wrong anywhere in it. -/
theorem fault?_eq_none_iff (whole : Part) :
    whole.fault? = none ↔ ∀ part, Within part whole → ∀ fault, ¬ Faulty part fault := by
  constructor
  · intro hnone part hwithin
    -- going down, no part has a fault
    have hpart : part.fault? = none := by
      induction hwithin with
      | refl => exact hnone
      | tail _ hchild ih =>
        rw [fault?_eq, Option.or_eq_none_iff] at ih
        exact List.findSome?_eq_none_iff.1 ih.2 _ hchild
    rw [fault?_eq, Option.or_eq_none_iff] at hpart
    intro fault hfaulty
    rw [own?_eq_some_iff.2 hfaulty] at hpart
    exact Option.some_ne_none _ hpart.1
  · intro hsound
    cases hfault : whole.fault? with
    | none => rfl
    | some fault =>
      obtain ⟨part, hwithin, hfaulty⟩ := exists_faulty hfault
      exact absurd hfaulty (hsound part hwithin fault)

end Part

/-- A pattern with a fault somewhere in it. -/
def GraphPattern.IsMalformed (p : GraphPattern) : Prop :=
  ∃ part fault, Part.Within part (.pattern p) ∧ Part.Faulty part fault

theorem GraphPattern.not_isMalformed_iff (p : GraphPattern) :
    ¬ p.IsMalformed ↔ p.fault? = none := by
  refine Iff.trans ?_ (Part.fault?_eq_none_iff (.pattern p)).symm
  simp only [IsMalformed, not_exists, not_and]
  exact ⟨fun h part hwithin fault => h part fault hwithin, fun h part fault hwithin =>
    h part hwithin fault⟩

theorem GraphPattern.isMalformed_iff (p : GraphPattern) :
    p.IsMalformed ↔ ∃ fault, p.fault? = some fault := by
  rw [← not_iff_not, not_isMalformed_iff, ← Option.not_isSome_iff_eq_none,
    Option.isSome_iff_exists]

namespace Query

variable {p : GraphPattern} {bindings : BindingSet}

theorem ofPattern_eq_error_iff {fault : PatternFault} :
    ofPattern p bindings = .error (.invalidPattern fault) ↔ p.fault? = some fault := by
  unfold ofPattern
  split
  · rename_i first hfirst
    rw [hfirst, Except.error.injEq, EvaluationError.invalidPattern.injEq, Option.some.injEq]
  · rename_i hnone
    exact ⟨nofun, fun hfault => absurd (hnone.symm.trans hfault) nofun⟩

/-- A pattern with a fault has no query. -/
theorem exists_ofPattern_eq_error_iff :
    (∃ fault, ofPattern p bindings = .error (.invalidPattern fault)) ↔ p.IsMalformed := by
  rw [p.isMalformed_iff]
  exact exists_congr fun fault => ofPattern_eq_error_iff

/-- Any other pattern has one. -/
theorem ofPattern_eq_ok (bindings : BindingSet) (h : ¬ p.IsMalformed) :
    ∃ query, ofPattern p bindings = .ok query ∧ query.pattern = p ∧
      query.start = startRow p.columns bindings := by
  unfold ofPattern
  split
  · rename_i fault hfault
    exact absurd (p.isMalformed_iff.2 ⟨fault, hfault⟩) h
  · exact ⟨_, rfl, rfl, rfl⟩

end Query

/-! ## Sessions -/

namespace Session

variable {session : Session} {p : GraphPattern} {bindings : BindingSet} {inferred : Bool}

/-- What an evaluation without a deadline comes to: a pattern is refused or its rows are given up to
the last one. -/
structure Decides (session : Session) (p : GraphPattern) (bindings : BindingSet)
    (inferred : Bool) : Prop where
  /-- A reader's evaluation is refused just if the pattern has a fault, which is named. -/
  refused : ∀ r v limit?, session.view? r = some v →
    ((∃ fault, session.read r (.execute p bindings inferred limit?) =
        .failed (.evaluation (.invalidPattern fault))) ↔ p.IsMalformed) ∧
      ∀ fault, session.read r (.execute p bindings inferred limit?) =
        .failed (.evaluation (.invalidPattern fault)) →
          ∃ part, Part.Within part (.pattern p) ∧ Part.Faulty part fault
  /-- If it is not refused, then there are finitely many rows: each pull of the evaluator ends and
  gives the next one of them, and the pull after the last one ends and gives none. No pull fails. -/
  evaluated : ∀ r v, session.view? r = some v → ¬ p.IsMalformed →
    ∃ rows, p.evaluator.Finishes ⟨v, inferred⟩
        (p.evaluator.start ⟨v, inferred⟩ (Query.startRow p.columns bindings)) rows ∧
      ∀ limit?, session.read r (.execute p bindings inferred limit?) = .rows p.columns
        (limited limit? (rows.map fun row => .ok (Query.project p.columns row)))
  /-- A cursor is refused just if the pattern has a fault. -/
  cursorRefused : ∀ name source snapshot, session.store?.isSome = true →
    session.snapshots.get? source = some snapshot →
      ((∃ fault, (session.step (.openRows name p bindings inferred source)).1 =
        .failed (.evaluation (.invalidPattern fault))) ↔ p.IsMalformed)
  /-- If it is not refused and no deadline is set, then its pulls give finitely many rows, and
  nothing but the end after them. -/
  cursorEvaluated : ∀ name source snapshot s, session.store? = some s → s.options.timeout? = none →
    session.snapshots.get? source = some snapshot → ¬ p.IsMalformed →
      ∃ rows : List BindingSet, ∀ count,
        ((session.step (.openRows name p bindings inferred source)).2.step (.next name count)).1 =
          .pulled (drained (rows.map .row) count)

/-- The pulls of a cursor give what it has to give, whatever the numbers of the snapshots. -/
theorem Arises.next_of_owes (h : session.Arises) {name : String} {items : List Pulled}
    (howes : session.Owes name items) (count : Nat) :
    (session.next name count).1 = .pulled (drained items count) := by
  obtain ⟨s, c, hs, hget, howes⟩ := howes
  have hr : s.Readable := h.readable s (by rw [← store?_eq, hs])
  unfold Session.next withCursor
  rw [hs]
  dsimp only
  rw [hget]
  exact congrArg Answer.pulled (howes.pullMany hr count).1

theorem read_execute {r : Reader} {v : View} (hv : session.view? r = some v)
    (limit? : Option Nat) : session.read r (.execute p bindings inferred limit?) =
      evaluate v p bindings inferred limit? .ahead := by
  rcases session.read_cases r with ⟨hnone, -⟩ | ⟨v', size, ns, hv', hread⟩
  · exact absurd (hnone.symm.trans hv).symm (Option.some_ne_none v)
  · obtain rfl := Option.some.inj (hv.symm.trans hv')
    exact hread _ rfl

/-- An evaluation is refused for the fault for which there is no query. -/
theorem read_execute_eq_failed_iff {r : Reader} {v : View} (hv : session.view? r = some v)
    (limit? : Option Nat) {fault : PatternFault} :
    session.read r (.execute p bindings inferred limit?) =
        .failed (.evaluation (.invalidPattern fault)) ↔
      Query.ofPattern p bindings = .error (.invalidPattern fault) := by
  rw [read_execute hv, evaluate]
  cases Query.ofPattern p bindings with
  | error e =>
    show Answer.failed (.evaluation e) = _ ↔ _
    rw [Answer.failed.injEq, Failure.evaluation.injEq, Except.error.injEq]
  | ok query => exact iff_of_false (fun h => by cases h) (fun h => by cases h)

/-- So it is with a cursor. -/
theorem openRows_eq_failed_iff {name source : String} {snapshot : Snapshot}
    (hopen : session.store?.isSome = true)
    (hsnapshot : session.snapshots.get? source = some snapshot) {fault : PatternFault} :
    (session.openRows name p bindings inferred source).1 =
        .failed (.evaluation (.invalidPattern fault)) ↔
      Query.ofPattern p bindings = .error (.invalidPattern fault) := by
  obtain ⟨s, hs⟩ := Option.isSome_iff_exists.1 hopen
  unfold openRows
  rw [hs]
  dsimp only
  rw [hsnapshot]
  dsimp only
  cases Query.ofPattern p bindings with
  | error e =>
    show Answer.failed (.evaluation e) = _ ↔ _
    rw [Answer.failed.injEq, Failure.evaluation.injEq, Except.error.injEq]
  | ok query => exact iff_of_false (fun h => by cases h) (fun h => by cases h)

/-- The evaluation of a pattern without a fault comes to its end. -/
theorem Arises.finishes (h : session.Arises) {r : Reader} {v : View}
    (hv : session.view? r = some v) (hsound : ¬ p.IsMalformed) :
    ∃ rows, p.evaluator.Finishes ⟨v, inferred⟩
        (p.evaluator.start ⟨v, inferred⟩ (Query.startRow p.columns bindings)) rows ∧
      ∀ limit?, session.read r (.execute p bindings inferred limit?) = .rows p.columns
        (limited limit? (rows.map fun row => .ok (Query.project p.columns row))) := by
  obtain ⟨query, hquery, rfl, hstart⟩ := Query.ofPattern_eq_ok bindings hsound
  refine ⟨_, query.pattern.completes_evaluator ⟨v, inferred⟩ (h.readable_view? hv) _,
    fun limit? => ?_⟩
  rw [read_execute hv, evaluate, hquery]
  show Answer.rows query.columns
    (limited limit? ((query.rows (v.dataset inferred)).map .ok)) = _
  unfold Query.rows
  rw [List.map_map, hstart]
  rfl

/-- A cursor over the rows of a pattern without a fault has just these rows to give. -/
theorem Arises.owes_openRows_of_sound (h : session.Arises) {name source : String}
    {snapshot : Snapshot} {s : Store} (hs : session.store? = some s)
    (htimeout : s.options.timeout? = none)
    (hsnapshot : session.snapshots.get? source = some snapshot) (hsound : ¬ p.IsMalformed) :
    ∃ rows : List BindingSet,
      (session.openRows name p bindings inferred source).2.Owes name (rows.map .row) := by
  obtain ⟨query, hquery, -, -⟩ := Query.ofPattern_eq_ok bindings hsound
  have hr : s.Readable := h.readable s (by rw [← store?_eq, hs])
  have hdeadline : s.options.deadline = .ahead := by
    unfold StoreOptions.deadline
    rw [htimeout]
    rfl
  refine ⟨query.rows ((s.at snapshot.stamp).dataset inferred), ?_⟩
  unfold openRows
  rw [hs]
  dsimp only
  rw [hsnapshot]
  dsimp only
  rw [hquery]
  exact owes_keepCursor hs hr (.share _ .refl)
    (OpenCursor.owes_ofQuery_rows hr snapshot query inferred hdeadline) name

/-- Whatever the session, exactly the patterns with a fault are refused, and the evaluation of any
other one comes to its end without an error. -/
theorem Arises.decides (h : session.Arises) (p : GraphPattern) (bindings : BindingSet)
    (inferred : Bool) : session.Decides p bindings inferred where
  refused r v limit? hv := by
    refine ⟨(exists_congr fun _ => read_execute_eq_failed_iff hv limit?).trans
      Query.exists_ofPattern_eq_error_iff, fun fault hrefused => ?_⟩
    have hquery := (read_execute_eq_failed_iff hv limit?).1 hrefused
    exact @Part.exists_faulty (.pattern p) fault (Query.ofPattern_eq_error_iff.1 hquery)
  evaluated r v hv hsound := h.finishes hv hsound
  cursorRefused name source snapshot hopen hsnapshot :=
    (exists_congr fun _ => openRows_eq_failed_iff hopen hsnapshot).trans
      Query.exists_ofPattern_eq_error_iff
  cursorEvaluated name source snapshot s hs htimeout hsnapshot hsound := by
    obtain ⟨rows, howes⟩ := h.owes_openRows_of_sound hs htimeout hsnapshot hsound
    exact ⟨rows, (h.step (.openRows name p bindings inferred source)).next_of_owes howes⟩

/-- A pattern whose one fault is deep down: a sort key lacks an argument, within a pattern that the
condition of a join asks about. -/
def deeplyFaulty : GraphPattern :=
  .leftJoin twoSteps twoSteps <| some <| .exists <|
    .orderBy twoSteps
      [(.ascending, .call .strLen [.var ⟨"a"⟩]), (.descending, .call .contains [.var ⟨"b"⟩])]

theorem isMalformed_deeplyFaulty : deeplyFaulty.IsMalformed :=
  not_not.1 fun hsound => absurd ((GraphPattern.not_isMalformed_iff _).1 hsound) (by decide)

/-- Within a transaction that has staged an inferred quad, with a value given for a variable. -/
theorem decides_inferring : inferring.Arises ∧
    (¬ twoSteps.IsMalformed ∧ inferring.Decides twoSteps ⟨[⟨"b"⟩], [some (.iri ⟨"s"⟩)]⟩ true) ∧
    deeplyFaulty.IsMalformed ∧
      inferring.Decides deeplyFaulty ⟨[⟨"b"⟩], [some (.iri ⟨"s"⟩)]⟩ true := by
  have harises : inferring.Arises := (Arises.start none {}).after _
  exact ⟨harises, ⟨twoSteps.not_isMalformed_iff.2 (by decide), harises.decides _ _ _⟩,
    isMalformed_deeplyFaulty, harises.decides _ _ _⟩

/-- The fault is the one that the answer names. -/
example : (inferring.read (.writer .transaction) (.execute deeplyFaulty ⟨[], []⟩ true none)) =
    .failed (.evaluation (.invalidPattern (.arity .contains 1))) := by rfl

end Session
end QuadStore
