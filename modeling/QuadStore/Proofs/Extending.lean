import QuadStore.Proofs.Correlation
import QuadStore.Proofs.Evaluators
import QuadStore.Proofs.Readability

/-!
# Rows that extend a row

An evaluation never takes back a value: every row of a pattern has the values of the row that it was
started on, whatever the operators of the pattern are. A left join therefore gives, for each row of
its left side, rows that contain it: `Session.Arises.leftJoin_keeps`.
-/

namespace QuadStore

/-! ## Bindings -/

namespace Row

variable {row r s other : Row} {v : Variable} {d : Datum} {d? : Option Datum} {vs : List Variable}

theorem Extends.refl (row : Row) : row.Extends row := fun _ _ h => h

theorem Extends.trans (hsr : s.Extends r) (hr : r.Extends row) : s.Extends row :=
  fun v d h => hsr v d (hr v d h)

theorem extends_of_bind? (h : row.bind? v d = some r) : r.Extends row :=
  fun _ _ he => get?_of_bind? h he

theorem extends_of_bindAny? (h : row.bindAny? v d? = some r) : r.Extends row := by
  cases d? with
  | none =>
    obtain rfl := Option.some.inj h
    exact .refl _
  | some d => exact extends_of_bind? h

theorem extends_of_extend? (h : row.extend? vs other = some r) : r.Extends row := by
  induction vs generalizing row with
  | nil =>
    obtain rfl := Option.some.inj h
    exact .refl _
  | cons v vs ih =>
    rw [Row.extend?, List.foldlM_cons] at h
    obtain ⟨next, hnext, h⟩ := Option.bind_eq_some_iff.1 h
    exact (ih h).trans (extends_of_bindAny? hnext)

end Row

section Quads

variable {row r : Row}

theorem Position.extends_of_bind? {α : Type} {p : Position α} {t : Term}
    (h : p.bind? row t = some r) : r.Extends row := by
  cases p with
  | given a =>
    obtain rfl := Option.some.inj h
    exact .refl _
  | var v => exact Row.extends_of_bind? h

theorem GraphPosition.extends_of_bind? {p : GraphPosition} {g : GraphName}
    (h : p.bind? row g = some r) : r.Extends row := by
  cases p with
  | var v =>
    obtain ⟨t, -, h⟩ := Option.bind_eq_some_iff.1 h
    exact Row.extends_of_bind? h
  | _ =>
    obtain rfl := Option.some.inj h
    exact .refl _

theorem QuadPattern.extends_of_bind? {p : QuadPattern} {q : Quad} (h : p.bind? row q = some r) :
    r.Extends row := by
  obtain ⟨a, ha, h⟩ := Option.bind_eq_some_iff.1 h
  obtain ⟨b, hb, h⟩ := Option.bind_eq_some_iff.1 h
  obtain ⟨c, hc, h⟩ := Option.bind_eq_some_iff.1 h
  have hab := (Position.extends_of_bind? hb).trans (Position.extends_of_bind? ha)
  have hbc := (Position.extends_of_bind? hc).trans hab
  exact (GraphPosition.extends_of_bind? h).trans hbc

end Quads

/-! ## Patterns -/

/-- The rows of a pattern have all values of the row that they extend. -/
theorem GraphPattern.extends_of_mem_rows (dataset : Dataset) : ∀ (p : GraphPattern) {row r : Row},
    r ∈ p.rows dataset row → r.Extends row
  | .quad pattern, row, r, hr => by
    simp only [rows] at hr
    obtain ⟨q, -, hq⟩ := List.mem_filterMap.1 hr
    exact QuadPattern.extends_of_bind? hq
  | .join left right, row, r, hr => by
    simp only [rows] at hr
    obtain ⟨l, hl, hr⟩ := List.mem_flatMap.1 hr
    exact (right.extends_of_mem_rows dataset hr).trans (left.extends_of_mem_rows dataset hl)
  | .leftJoin left right condition?, row, r, hr => by
    simp only [rows] at hr
    obtain ⟨l, hl, hr⟩ := List.mem_flatMap.1 hr
    have hleft := left.extends_of_mem_rows dataset hl
    -- the row itself, or one that the right side makes of it
    split at hr
    · rwa [List.mem_singleton.1 hr]
    · exact (right.extends_of_mem_rows dataset (List.mem_of_mem_filter hr)).trans hleft
  | .filter condition inner, row, r, hr => by
    simp only [rows] at hr
    exact inner.extends_of_mem_rows dataset (List.mem_of_mem_filter hr)
  | .union left right, row, r, hr => by
    simp only [rows] at hr
    rcases List.mem_append.1 hr with hr | hr
    · exact left.extends_of_mem_rows dataset hr
    · exact right.extends_of_mem_rows dataset hr
  | .extend inner v value, row, r, hr => by
    simp only [rows] at hr
    obtain ⟨l, hl, hr⟩ := List.mem_filterMap.1 hr
    exact (Row.extends_of_bindAny? hr).trans (inner.extends_of_mem_rows dataset hl)
  | .distinct inner, row, r, hr => by
    simp only [rows] at hr
    exact inner.extends_of_mem_rows dataset (Row.mem_of_mem_distinctFrom hr)
  | .orderBy inner keys, row, r, hr => by
    simp only [rows] at hr
    exact inner.extends_of_mem_rows dataset (Row.mem_of_mem_sort hr)
  | .slice inner start length?, row, r, hr => by
    simp only [rows] at hr
    exact inner.extends_of_mem_rows dataset (Row.mem_of_mem_slice hr)
  | .project inner vs, row, r, hr => by
    -- the inner rows see some variables only, but it is the row itself that they are added to
    simp only [rows] at hr
    obtain ⟨l, -, hr⟩ := List.mem_filterMap.1 hr
    exact Row.extends_of_extend? hr

/-! ## Left joins -/

namespace Evaluator

variable {m : Evaluator} {r : Reading}

/-- There is only one list of rows that an evaluator gives. -/
theorem Yields.unique {s : m.State} {xs ys : List Row} (hxs : m.Yields r s xs)
    (hys : m.Yields r s ys) (hr : r.view.store.Readable) : xs = ys := by
  have hdrain := (hxs.drain hr []).symm.trans (hys.drain hr [])
  exact Except.ok.inj hdrain

theorem exists_mem_orSelf (row : Row) (xs : List Row) : ∃ x, x ∈ orSelf row xs := by
  cases xs with
  | nil => exact ⟨row, List.mem_singleton_self row⟩
  | cons x xs => exact ⟨x, List.mem_cons_self⟩

theorem extends_of_mem_orSelf {row x : Row} {xs : List Row} (h : ∀ y ∈ xs, y.Extends row)
    (hx : x ∈ orSelf row xs) : x.Extends row := by
  cases xs with
  | nil =>
    rw [List.mem_singleton.1 hx]
    exact .refl row
  | cons y ys => exact h x hx

/-- As each row is followed up by one row at least, none gets lost. -/
theorem length_le_flatMap_orSelf (f : Row → List Row) (ls : List Row) :
    ls.length ≤ (ls.flatMap fun l => orSelf l (f l)).length := by
  induction ls with
  | nil => exact Nat.zero_le _
  | cons l ls ih =>
    obtain ⟨x, hx⟩ := exists_mem_orSelf l (f l)
    have hpos := List.length_pos_of_mem hx
    rw [List.flatMap_cons, List.length_append, List.length_cons]
    omega

end Evaluator

namespace GraphPattern

/-- What a left join gives for a row of its left side: those extensions by the right side that
satisfy the condition, or the row itself if there are none. -/
def followUp (dataset : Dataset) (condition? : Option Expression) (extensions : Row → List Row)
    (l : Row) : List Row :=
  Evaluator.orSelf l ((extensions l).filter (Expression.allows dataset condition?))

/-- A left join follows up each row of its left side in turn, and no row gets lost. -/
structure KeepsLeft (r : Reading) (left right : GraphPattern) (condition? : Option Expression)
    (row : Row) (ls : List Row) (extensions : Row → List Row) : Prop where
  extended : ∀ l, right.evaluator.Yields r (right.evaluator.start r l) (extensions l)
  yields : (leftJoin left right condition?).evaluator.Yields r
    ((leftJoin left right condition?).evaluator.start r row)
    (ls.flatMap (followUp r.dataset condition? extensions))
  agrees : ∀ l ∈ ls, ∀ x ∈ followUp r.dataset condition? extensions l, x.Extends l
  length : ls.length ≤ (ls.flatMap (followUp r.dataset condition? extensions)).length
  kept : ∀ l ∈ ls, ∃ x ∈ ls.flatMap (followUp r.dataset condition? extensions), x.Extends l

theorem keepsLeft {r : Reading} (hr : r.view.store.Readable) (left right : GraphPattern)
    (condition? : Option Expression) (row : Row) :
    KeepsLeft r left right condition? row (left.rows r.dataset row) (right.rows r.dataset) := by
  have hagrees : ∀ l, ∀ x ∈ followUp r.dataset condition? (right.rows r.dataset) l,
      x.Extends l := by
    intro l x hx
    refine Evaluator.extends_of_mem_orSelf (fun y hy => ?_) hx
    exact right.extends_of_mem_rows r.dataset (List.mem_of_mem_filter hy)
  constructor
  case extended => exact fun l => right.computes_evaluator r hr l
  case yields =>
    have hyields := (leftJoin left right condition?).computes_evaluator r hr row
    simp only [rows] at hyields
    exact hyields
  case agrees => exact fun l _ => hagrees l
  case length => exact Evaluator.length_le_flatMap_orSelf _ _
  case kept =>
    intro l hl
    obtain ⟨x, hx⟩ := Evaluator.exists_mem_orSelf l
      ((right.rows r.dataset l).filter (Expression.allows r.dataset condition?))
    exact ⟨x, List.mem_flatMap.2 ⟨l, hl, hx⟩, hagrees l x hx⟩

end GraphPattern

namespace Session

variable {session : Session}

/-- Whatever the session, the stamp, the row to extend and the two sides: what its left side gives,
a left join follows up row by row, and no row gets lost. -/
theorem Arises.leftJoin_keeps (h : session.Arises) {s : Store} (hs : session.store? = some s)
    (stamp : Nat) (inferred : Bool) (left right : GraphPattern) (condition? : Option Expression)
    (row : Row) {ls : List Row} (hls : left.evaluator.Yields ⟨s.at stamp, inferred⟩
      (left.evaluator.start ⟨s.at stamp, inferred⟩ row) ls) :
    ∃ extensions, GraphPattern.KeepsLeft ⟨s.at stamp, inferred⟩ left right condition? row ls
      extensions := by
  have hreadable : s.Readable := h.readable s (by rw [← store?_eq, hs])
  have hrows := left.computes_evaluator ⟨s.at stamp, inferred⟩ hreadable row
  -- what the left side gives is what its pattern has
  rw [hls.unique hrows hreadable]
  exact ⟨_, GraphPattern.keepsLeft hreadable left right condition? row⟩

/-- A session in which the inference of a second quad is staged. -/
def inferring : Session :=
  (start none {}).2.after [
    .insert ⟨.iri ⟨"s"⟩, ⟨"p"⟩, .iri ⟨"o"⟩, .default⟩,
    .begin .transaction,
    .write .transaction (.insert ⟨.iri ⟨"o"⟩, ⟨"p"⟩, .iri ⟨"s"⟩, .default⟩ false)]

/-- The steps of a way. -/
def oneStep : GraphPattern := .quad ⟨.var ⟨"a"⟩, .given ⟨"p"⟩, .var ⟨"b"⟩, .any⟩

/-- The steps that may follow. -/
def nextStep : GraphPattern := .quad ⟨.var ⟨"b"⟩, .given ⟨"p"⟩, .var ⟨"c"⟩, .any⟩

/-- That the first step ends where the second quad does. -/
def endsAtS : Expression := .binary .sameTerm (.var ⟨"b"⟩) (.iri ⟨"s"⟩)

/-- Within the transaction, the left side has a row for each of the two quads. -/
theorem leftJoin_keeps_inferring : inferring.Arises ∧ ∃ s, inferring.store? = some s ∧
    ∃ ls extensions, ls.length = 2 ∧
      oneStep.evaluator.Yields ⟨s.at Stamp.pending, true⟩
        (oneStep.evaluator.start ⟨s.at Stamp.pending, true⟩ .empty) ls ∧
      GraphPattern.KeepsLeft ⟨s.at Stamp.pending, true⟩ oneStep nextStep (some endsAtS) .empty ls
        extensions := by
  have harises : inferring.Arises := (Arises.start none {}).after _
  have hls := oneStep.computes_evaluator ⟨Store.at _ Stamp.pending, true⟩
    (harises.readable _ rfl) .empty
  obtain ⟨extensions, hkeeps⟩ := harises.leftJoin_keeps rfl Stamp.pending true oneStep nextStep
    (some endsAtS) .empty hls
  exact ⟨harises, _, rfl, _, extensions, rfl, hls, hkeeps⟩

/-- One of the two rows is kept as it is, the other one is extended. -/
example : inferring.store?.map (fun s =>
    ((GraphPattern.leftJoin oneStep nextStep (some endsAtS)).rows
      (Reading.dataset ⟨s.at Stamp.pending, true⟩) .empty).map
        fun row => (row.terms ⟨"a"⟩, row.terms ⟨"b"⟩, row.terms ⟨"c"⟩)) =
    some [(some (.iri ⟨"s"⟩), some (.iri ⟨"o"⟩), none),
      (some (.iri ⟨"o"⟩), some (.iri ⟨"s"⟩), some (.iri ⟨"o"⟩))] := by rfl

end Session
end QuadStore
