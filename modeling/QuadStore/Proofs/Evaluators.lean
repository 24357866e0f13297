import QuadStore.Proofs.Publishing
import QuadStore.Proofs.Pulling

/-!
# Evaluators and the rows of patterns

An evaluator reads bit by bit what `GraphPattern.rows` reads at once. While the store goes on,
readings of one snapshot follow each other; as long as it is kept, they show the same
(`Reading.Later`). `Evaluator.Finishes` says which rows an evaluator gives over any such readings,
each in a pull that ends, and every operation is shown once to give what it is meant to give;
`Evaluator.Yields` says what is computed then.
-/

namespace QuadStore

/-! ## Look-ups that are half way -/

namespace Store

/-- The quads that a look-up has still to give. -/
def owed (s : Store) (scan : Index.Scan) : List Quad :=
  (s.index.found scan).filterMap fun e => (s.dictionary.resolveQuad e.quad).toOption

/-- A look-up is at its end, or it gives a quad first. -/
theorem Readable.owed_cases {s : Store} (h : s.Readable) (scan : Index.Scan) :
    s.index.next? scan = none ∧ s.owed scan = [] ∨
      ∃ e after q, s.index.next? scan = some (e, after) ∧ s.dictionary.resolveQuad e.quad = .ok q ∧
        s.owed scan = q :: s.owed after ∧ after.stamp = scan.stamp := by
  have hfound := s.index.found_eq_next? scan
  cases hnext : s.index.next? scan with
  | none =>
    rw [hnext] at hfound
    left
    unfold owed
    rw [hfound]
    exact ⟨rfl, rfl⟩
  | some found =>
    obtain ⟨e, after⟩ := found
    rw [hnext] at hfound
    have hmem : e ∈ s.index.found scan := by
      rw [hfound]
      exact List.mem_cons_self
    have hentry : e ∈ s.index.entries := by
      obtain ⟨id, -, hid⟩ := List.mem_filterMap.1 (List.mem_filter.1 hmem).1
      exact Index.mem_of_get? hid
    have hstamp : after.stamp = scan.stamp := by
      obtain ⟨found, -, heq⟩ := Option.map_eq_some_iff.1 hnext
      rw [← (Prod.mk.inj heq).2]
    obtain ⟨q, hq⟩ := h.known e hentry
    refine .inr ⟨e, after, q, rfl, hq, ?_, hstamp⟩
    unfold owed
    rw [hfound, List.filterMap_cons_some (by rw [hq]; rfl)]

/-- Whether an entry is visible and which face it has is the same where the snapshot is kept. -/
theorem Keeps.get? {stamp : Nat} {s s' : Store} (h : s.Keeps stamp s') (hr : s.Readable)
    (hr' : s'.Readable) (id : EntryId) :
    ((s'.index.get? id).filter (·.isVisible stamp)).map Entry.face =
      ((s.index.get? id).filter (·.isVisible stamp)).map Entry.face := by
  have hface : ∀ {s : Store}, s.Readable → ∀ face : EntryId × EncodedQuad × Bool,
      ((s.index.get? id).filter (·.isVisible stamp)).map Entry.face = some face ↔
        face ∈ (s.at stamp).visible.map Entry.face ∧ face.1 = id := by
    intro s hr face
    rw [Option.map_eq_some_iff, List.mem_map]
    constructor
    · rintro ⟨e, he, rfl⟩
      obtain ⟨he, hvisible⟩ := Option.filter_eq_some_iff.1 he
      obtain ⟨hmem, hid⟩ := hr.indexed.get?_eq_some_iff.1 he
      exact ⟨⟨e, View.mem_visible.2 ⟨hmem, hvisible⟩, rfl⟩, hid⟩
    · rintro ⟨⟨e, he, rfl⟩, hid⟩
      obtain ⟨hmem, hvisible⟩ := View.mem_visible.1 he
      exact ⟨e, Option.filter_eq_some_iff.2
        ⟨hr.indexed.get?_eq_some_iff.2 ⟨hmem, hid⟩, hvisible⟩, rfl⟩
  refine Option.ext fun face => ?_
  rw [hface hr', hface hr, h.visible]

/-- An entry that is visible where the snapshot is kept has been visible before, and the other way
round. -/
theorem Keeps.get?_cases {stamp : Nat} {s s' : Store} (h : s.Keeps stamp s') (hr : s.Readable)
    (hr' : s'.Readable) (id : EntryId) :
    (s.index.get? id).filter (·.isVisible stamp) = none ∧
        (s'.index.get? id).filter (·.isVisible stamp) = none ∨
      ∃ e e', (s.index.get? id).filter (·.isVisible stamp) = some e ∧
        (s'.index.get? id).filter (·.isVisible stamp) = some e' ∧ e'.quad = e.quad ∧
          e'.explicit = e.explicit := by
  have hface := h.get? hr hr' id
  cases he : (s.index.get? id).filter (·.isVisible stamp) with
  | none =>
    rw [he, Option.map_none, Option.map_eq_none_iff] at hface
    exact .inl ⟨rfl, hface⟩
  | some e =>
    rw [he, Option.map_some, Option.map_eq_some_iff] at hface
    obtain ⟨e', he', hface⟩ := hface
    injection hface with _ hface
    injection hface with hquad hexplicit
    exact .inr ⟨e, e', rfl, he', hquad, hexplicit⟩

/-- The quads that are owed are of entries that are visible at the snapshot of the look-up. -/
theorem owed_eq (s : Store) (scan : Index.Scan) :
    s.owed scan = scan.rest.filterMap fun id =>
      (((s.index.get? id).filter (·.isVisible scan.stamp)).filter scan.accepts).bind fun e =>
        (s.dictionary.resolveQuad e.quad).toOption := by
  unfold Store.owed Index.found
  rw [List.filterMap_filter, List.filterMap_filterMap]
  refine List.filterMap_congr fun id _ => ?_
  cases s.index.get? id with
  | none => rfl
  | some e =>
    by_cases haccepts : scan.accepts e = true
    · have hvisible : e.isVisible scan.stamp = true := by
        have haccepts := haccepts
        unfold Index.Scan.accepts at haccepts
        exact (Bool.and_eq_true_iff.1 haccepts).2
      simp [haccepts, hvisible, Option.filter]
    · by_cases hvisible : e.isVisible scan.stamp = true
      · simp [haccepts, hvisible, Option.filter]
      · simp [haccepts, hvisible, Option.filter]

/-- A look-up that is half way goes on as it would have where its snapshot is kept. -/
theorem Keeps.owed {s s' : Store} {scan : Index.Scan} (h : s.Keeps scan.stamp s')
    (hr : s.Readable) (hr' : s'.Readable) : s'.owed scan = s.owed scan := by
  rw [owed_eq, owed_eq]
  refine List.filterMap_congr fun id _ => ?_
  rcases h.get?_cases hr hr' id with ⟨hnone, hnone'⟩ | ⟨e, e', he, he', hquad, hexplicit⟩
  · rw [hnone, hnone']
    rfl
  · have hvisible := (Option.filter_eq_some_iff.1 he).2
    have hvisible' := (Option.filter_eq_some_iff.1 he').2
    have hsame : scan.accepts e' = scan.accepts e := by
      unfold Index.Scan.accepts
      rw [hquad, hexplicit, hvisible, hvisible']
    have hmem := Index.mem_of_get? (Option.filter_eq_some_iff.1 he).1
    obtain ⟨q, hq⟩ := hr.known e hmem
    rw [he, he', Option.filter_some, Option.filter_some, hsame]
    split
    · rw [Option.bind_some, Option.bind_some, hquad, h.dictionary.resolveQuad hq, hq]
    · rfl

end Store

/-! ## Readings that go on -/

/-- A reading of the same snapshot later on. -/
structure Reading.Later (r r' : Reading) : Prop where
  stamp : r'.view.stamp = r.view.stamp
  inferred : r'.inferred = r.inferred
  keeps : r.view.store.Keeps r.view.stamp r'.view.store
  before : r.view.store.Readable
  after : r'.view.store.Readable

namespace Reading.Later

variable {a b c : Reading}

theorem refl (h : a.view.store.Readable) : a.Later a := ⟨rfl, rfl, .refl _ _, h, h⟩

theorem trans (hab : a.Later b) (hbc : b.Later c) : a.Later c where
  stamp := hbc.stamp.trans hab.stamp
  inferred := hbc.inferred.trans hab.inferred
  keeps := by
    have hkeeps := hbc.keeps
    rw [hab.stamp] at hkeeps
    exact hab.keeps.trans hkeeps
  before := hab.before
  after := hbc.after

/-- The dataset does not change. -/
theorem dataset (h : a.Later b) : b.dataset = a.dataset := by
  have hstatements : b.view.statements = a.view.statements := by
    obtain ⟨⟨store, stamp⟩, inferred⟩ := b
    obtain rfl : stamp = a.view.stamp := h.stamp
    exact h.keeps.statements h.before
  unfold Reading.dataset
  rw [View.dataset_eq .empty h.after, View.dataset_eq .empty h.before, h.inferred]
  unfold View.content
  rw [hstatements]

/-- A look-up that is half way has still to give the same. -/
theorem owed (h : a.Later b) {scan : Index.Scan} (hstamp : scan.stamp = a.view.stamp) :
    b.view.store.owed scan = a.view.store.owed scan := by
  have hkeeps := h.keeps
  rw [← hstamp] at hkeeps
  exact hkeeps.owed h.before h.after

end Reading.Later

namespace Evaluator

/-- From a state, an evaluator gives some rows and then ends, whatever happens to the store in the
meantime while the snapshot is kept. -/
def Yields (m : Evaluator) : Reading → m.State → List Row → Prop
  | r, s, [] => ∀ r', r.Later r' → ∃ s', m.next r' s = (.done, s')
  | r, s, row :: rest => ∀ r', r.Later r' →
    ∃ s', m.next r' s = (.item row, s') ∧ m.Yields r' s' rest

/-- An evaluator gives the rows that a function makes of the dataset and the row to extend. -/
def Computes (m : Evaluator) (rows : Dataset → Row → List Row) : Prop :=
  ∀ r : Reading, r.view.store.Readable → ∀ row, m.Yields r (m.start r row) (rows r.dataset row)

/-- From a state, some pulls give some rows and one more pull gives none, whatever happens to the
store in the meantime while the snapshot is kept; each of these pulls ends without an error. -/
def Finishes (m : Evaluator) : Reading → m.State → List Row → Prop
  | r, s, [] => ∀ r', r.Later r' → ∃ s', m.Pulls r' s none s'
  | r, s, row :: rest => ∀ r', r.Later r' →
    ∃ s', m.Pulls r' s (some row) s' ∧ m.Finishes r' s' rest

/-- An evaluator comes to its end with the rows that a function makes of the dataset and the row to
extend. -/
def Completes (m : Evaluator) (rows : Dataset → Row → List Row) : Prop :=
  ∀ r : Reading, r.view.store.Readable → ∀ row, m.Finishes r (m.start r row) (rows r.dataset row)

variable {m left right : Evaluator} {r : Reading}

/-- What is given in pulls that end is computed. -/
theorem Finishes.yields {s : m.State} {rows : List Row} (h : m.Finishes r s rows) :
    m.Yields r s rows := by
  induction rows generalizing r s with
  | nil =>
    intro r' hlater
    obtain ⟨s', hpull⟩ := h r' hlater
    exact ⟨s', hpull.next_eq⟩
  | cons row rest ih =>
    intro r' hlater
    obtain ⟨s', hpull, hrest⟩ := h r' hlater
    exact ⟨s', hpull.next_eq, ih hrest⟩

theorem Yields.later {s : m.State} {rows : List Row} (h : m.Yields r s rows) {r' : Reading}
    (hr : r.Later r') : m.Yields r' s rows := by
  cases rows with
  | nil => exact fun r'' hr' => h r'' (hr.trans hr')
  | cons row rest => exact fun r'' hr' => h r'' (hr.trans hr')

theorem Finishes.later {s : m.State} {rows : List Row} (h : m.Finishes r s rows) {r' : Reading}
    (hr : r.Later r') : m.Finishes r' s rows := by
  cases rows with
  | nil => exact fun r'' hr' => h r'' (hr.trans hr')
  | cons row rest => exact fun r'' hr' => h r'' (hr.trans hr')

/-- A state from which the first turn of a loop leads to another one gives the same rows. -/
theorem Finishes.of_turn {s : m.State} {rows : List Row}
    (h : ∀ r', r.Later r' → ∃ s', (∀ x? t, m.Pulls r' s' x? t → m.Pulls r' s x? t) ∧
      m.Finishes r' s' rows) : m.Finishes r s rows := by
  cases rows with
  | nil =>
    intro r' hr
    obtain ⟨s', hturn, hs'⟩ := h r' hr
    obtain ⟨t, hpull⟩ := hs' r' (.refl hr.after)
    exact ⟨t, hturn _ _ hpull⟩
  | cons row rest =>
    intro r' hr
    obtain ⟨s', hturn, hs'⟩ := h r' hr
    obtain ⟨t, hpull, hrest⟩ := hs' r' (.refl hr.after)
    exact ⟨t, hturn _ _ hpull, hrest⟩

/-! ## Quads -/

/-- A look-up that is half way gives the rows of the quads that it has still to give. -/
theorem finishes_quad (p : QuadPattern) (row : Row) {scan : Index.Scan}
    (hstamp : scan.stamp = r.view.stamp) {qs : List Quad} (hqs : r.view.store.owed scan = qs) :
    (quad p).Finishes r (some (row, scan)) (qs.filterMap (p.bind? row)) := by
  induction qs generalizing r scan with
  | nil =>
    intro r' hlater
    rcases hlater.after.owed_cases scan with ⟨hnext, -⟩ | ⟨e, after, q, -, -, hcons, -⟩
    · exact ⟨none, .quadEnd hnext⟩
    · rw [hlater.owed hstamp, hqs] at hcons
      exact absurd hcons (List.cons_ne_nil _ _).symm
  | cons q rest ih =>
    -- whenever the index is looked at next, the quad that comes first is found
    have hnext : ∀ r', r.Later r' → ∃ e after, r'.view.store.index.next? scan = some (e, after) ∧
        r'.view.store.dictionary.resolveQuad e.quad = .ok q ∧
        (quad p).Finishes r' (some (row, after)) (rest.filterMap (p.bind? row)) := by
      intro r' hlater
      rcases hlater.after.owed_cases scan with ⟨-, hnil⟩ | ⟨e, after, q', hnext, hq, hcons, hafter⟩
      · rw [hlater.owed hstamp, hqs] at hnil
        exact absurd hnil (List.cons_ne_nil _ _)
      · rw [hlater.owed hstamp, hqs] at hcons
        obtain ⟨rfl, hrest⟩ := List.cons.inj hcons
        have hstamp' : after.stamp = r'.view.stamp := by
          rw [hafter, hstamp, hlater.stamp]
        exact ⟨e, after, hnext, hq, ih hstamp' hrest.symm⟩
    cases hbind : p.bind? row q with
    | some extended =>
      rw [List.filterMap_cons_some hbind]
      intro r' hlater
      obtain ⟨e, after, hnext, hq, hrest⟩ := hnext r' hlater
      exact ⟨some (row, after), .quadItem hnext hq hbind, hrest⟩
    | none =>
      rw [List.filterMap_cons_none hbind]
      refine .of_turn fun r' hlater => ?_
      obtain ⟨e, after, hnext, hq, hrest⟩ := hnext r' hlater
      exact ⟨some (row, after), fun _ _ => .quadSkip hnext hq hbind, hrest⟩

theorem completes_quad (p : QuadPattern) : (quad p).Completes fun d row => p.rows d row := by
  intro r hr row
  show (quad p).Finishes r _ ((View.matching r.view r.inferred (p.shape row)).filterMap _)
  unfold View.matching
  show (quad p).Finishes r ((View.encodeShape? r.view.store.dictionary (p.shape row)).map _) _
  cases View.encodeShape? r.view.store.dictionary (p.shape row) with
  | none => exact fun r' _ => ⟨none, .quadOver⟩
  | some encoded =>
    exact finishes_quad p row rfl rfl

/-! ## Joins -/

/-- What extends the left row before comes first. -/
theorem Finishes.join_right {l : left.State} {rest : List Row}
    (hrest : (join left right).Finishes r ⟨l, none⟩ rest) {s : right.State} {xs : List Row}
    (h : right.Finishes r s xs) : (join left right).Finishes r ⟨l, some s⟩ (xs ++ rest) := by
  induction xs generalizing r s with
  | nil =>
    refine .of_turn fun r' hlater => ?_
    obtain ⟨s', hpull⟩ := h r' hlater
    exact ⟨⟨l, none⟩, fun _ _ => .joinTurn hpull, hrest.later hlater⟩
  | cons row xs ih =>
    intro r' hlater
    obtain ⟨s', hpull, hxs⟩ := h r' hlater
    exact ⟨⟨l, some s'⟩, .joinItem hpull, ih (hrest.later hlater) hxs⟩

/-- A join gives what extends the left rows to come. -/
theorem Finishes.join {rows : Dataset → Row → List Row} (hright : right.Completes rows)
    {l : left.State} {ls : List Row} (h : left.Finishes r l ls) :
    (join left right).Finishes r ⟨l, none⟩ (ls.flatMap (rows r.dataset)) := by
  induction ls generalizing r l with
  | nil =>
    intro r' hlater
    obtain ⟨l', hpull⟩ := h r' hlater
    exact ⟨⟨l', none⟩, .joinEnd hpull⟩
  | cons row ls ih =>
    rw [List.flatMap_cons]
    refine .of_turn fun r' hlater => ?_
    obtain ⟨l', hpull, hls⟩ := h r' hlater
    have hrow := hright r' hlater.after row
    rw [hlater.dataset] at hrow
    have hrest := ih hls
    rw [hlater.dataset] at hrest
    exact ⟨⟨l', some (right.start r' row)⟩, fun _ _ => .joinEnter hpull, hrest.join_right hrow⟩

theorem Completes.join {f g : Dataset → Row → List Row} (hleft : left.Completes f)
    (hright : right.Completes g) :
    (join left right).Completes fun d row => (f d row).flatMap (g d) :=
  fun r hr row => (hleft r hr row).join hright

/-- The extensions of a left row, or the row itself. -/
def orSelf (row : Row) (xs : List Row) : List Row :=
  match xs with
  | [] => [row]
  | extended => extended

/-- What extends the left row before comes first; the row itself is given if nothing does. -/
theorem Finishes.leftJoin_right {l : left.State} {rest : List Row}
    (hrest : (leftJoin left right).Finishes r ⟨l, none, none⟩ rest) {s : right.State}
    {xs : List Row} (h : right.Finishes r s xs) (held? : Option Row) :
    (leftJoin left right).Finishes r ⟨l, some s, held?⟩
      (held?.elim xs (orSelf · xs) ++ rest) := by
  induction xs generalizing r s held? with
  | nil =>
    refine .of_turn fun r' hlater => ?_
    obtain ⟨s', hpull⟩ := h r' hlater
    refine ⟨⟨l, none, held?⟩, fun _ _ => .leftJoinTurn hpull, ?_⟩
    cases held? with
    | none => exact hrest.later hlater
    | some row =>
      intro r'' hlater'
      exact ⟨⟨l, none, none⟩, .leftJoinHeld, hrest.later (hlater.trans hlater')⟩
  | cons row xs ih =>
    have hcons : held?.elim (row :: xs) (orSelf · (row :: xs)) = row :: xs := by
      cases held? <;> rfl
    rw [hcons]
    intro r' hlater
    obtain ⟨s', hpull, hxs⟩ := h r' hlater
    exact ⟨⟨l, some s', none⟩, .leftJoinItem hpull, ih (hrest.later hlater) hxs none⟩

theorem Finishes.leftJoin {rows : Dataset → Row → List Row} (hright : right.Completes rows)
    {l : left.State} {ls : List Row} (h : left.Finishes r l ls) :
    (leftJoin left right).Finishes r ⟨l, none, none⟩
      (ls.flatMap fun row => orSelf row (rows r.dataset row)) := by
  induction ls generalizing r l with
  | nil =>
    intro r' hlater
    obtain ⟨l', hpull⟩ := h r' hlater
    exact ⟨⟨l', none, none⟩, .leftJoinEnd hpull⟩
  | cons row ls ih =>
    rw [List.flatMap_cons]
    refine .of_turn fun r' hlater => ?_
    obtain ⟨l', hpull, hls⟩ := h r' hlater
    have hrow := hright r' hlater.after row
    rw [hlater.dataset] at hrow
    have hrest := ih hls
    rw [hlater.dataset] at hrest
    exact ⟨⟨l', some (right.start r' row), some row⟩, fun _ _ => .leftJoinEnter hpull,
      hrest.leftJoin_right hrow (some row)⟩

theorem Completes.leftJoin {f g : Dataset → Row → List Row} (hleft : left.Completes f)
    (hright : right.Completes g) :
    (leftJoin left right).Completes fun d row => (f d row).flatMap fun l => orSelf l (g d l) :=
  fun r hr row => (hleft r hr row).leftJoin hright

/-! ## Unions -/

theorem Finishes.union_second {s : right.State} {xs : List Row} (h : right.Finishes r s xs) :
    (union left right).Finishes r (.second s) xs := by
  induction xs generalizing r s with
  | nil =>
    intro r' hlater
    obtain ⟨s', hpull⟩ := h r' hlater
    exact ⟨.over, .unionEnd hpull⟩
  | cons row xs ih =>
    intro r' hlater
    obtain ⟨s', hpull, hxs⟩ := h r' hlater
    exact ⟨.second s', .unionSecond hpull, ih hxs⟩

theorem Finishes.union_first {rows : Dataset → Row → List Row} (hright : right.Completes rows)
    (row : Row) {l : left.State} {ls : List Row} (h : left.Finishes r l ls) :
    (union left right).Finishes r (.first l row) (ls ++ rows r.dataset row) := by
  induction ls generalizing r l with
  | nil =>
    refine .of_turn fun r' hlater => ?_
    obtain ⟨l', hpull⟩ := h r' hlater
    have hrow := hright r' hlater.after row
    rw [hlater.dataset] at hrow
    exact ⟨.second (right.start r' row), fun _ _ => .unionTurn hpull, hrow.union_second⟩
  | cons first ls ih =>
    intro r' hlater
    obtain ⟨l', hpull, hls⟩ := h r' hlater
    have hrest := ih hls
    rw [hlater.dataset] at hrest
    exact ⟨.first l' row, .unionFirst hpull, hrest⟩

theorem Completes.union {f g : Dataset → Row → List Row} (hleft : left.Completes f)
    (hright : right.Completes g) :
    (union left right).Completes fun d row => f d row ++ g d row := by
  intro r _ row
  refine .of_turn fun r' hlater => ?_
  have hfirst := (hleft r' hlater.after row).union_first hright row
  rw [hlater.dataset] at hfirst
  exact ⟨.first (left.start r' row) row, fun _ _ => .unionEnter, hfirst⟩

/-! ## Sieves -/

/-- The images of some rows one after the other, with what is remembered of those before. -/
def images {σ : Type} (image : σ → Row → Option Row × σ) : σ → List Row → List Row
  | _, [] => []
  | memory, row :: rest =>
    match image memory row with
    | (some x, memory) => x :: images image memory rest
    | (none, memory) => images image memory rest

section Sieve

variable {σ : Type} {image : Dataset → σ → Row → Option Row × σ}

theorem Finishes.sieve [Inhabited σ] {enter : Row → Row} {begin : Row → σ} {s : m.State}
    {xs : List Row} (h : m.Finishes r s xs) (memory : σ) :
    (m.sieve enter begin image).Finishes r (s, memory) (images (image r.dataset) memory xs) := by
  induction xs generalizing r s memory with
  | nil =>
    intro r' hlater
    obtain ⟨s', hpull⟩ := h r' hlater
    exact ⟨(s', memory), .sieveEnd hpull⟩
  | cons row xs ih =>
    obtain ⟨x?, memory', himage⟩ : ∃ x? memory', image r.dataset memory row = (x?, memory') :=
      ⟨_, _, rfl⟩
    rw [images, himage]
    -- whenever the row is taken from the inner evaluator, it has the same image
    have hnext : ∀ r', r.Later r' → ∃ s', m.Pulls r' s (some row) s' ∧
        image r'.dataset memory row = (x?, memory') ∧
        (m.sieve enter begin image).Finishes r' (s', memory')
          (images (image r.dataset) memory' xs) := by
      intro r' hlater
      obtain ⟨s', hpull, hxs⟩ := h r' hlater
      have hrest := ih hxs memory'
      rw [hlater.dataset] at hrest
      rw [← hlater.dataset] at himage
      exact ⟨s', hpull, himage, hrest⟩
    cases x? with
    | none =>
      refine .of_turn fun r' hlater => ?_
      obtain ⟨s', hpull, himage', hrest⟩ := hnext r' hlater
      exact ⟨(s', memory'), fun _ _ => .sieveSkip hpull himage', hrest⟩
    | some x =>
      intro r' hlater
      obtain ⟨s', hpull, himage', hrest⟩ := hnext r' hlater
      exact ⟨(s', memory'), .sieveItem hpull himage', hrest⟩

theorem Completes.sieve [Inhabited σ] {f : Dataset → Row → List Row} (h : m.Completes f)
    (enter : Row → Row) (begin : Row → σ) (image : Dataset → σ → Row → Option Row × σ)
    {g : Dataset → Row → List Row}
    (hg : ∀ d row, g d row = images (image d) (begin row) (f d (enter row))) :
    (m.sieve enter begin image).Completes g := by
  intro r hr row
  rw [hg]
  exact (h r hr (enter row)).sieve (begin row)

end Sieve

theorem Completes.filterMap {f : Dataset → Row → List Row} (h : m.Completes f)
    (image? : Dataset → Row → Option Row) :
    (m.filterMap image?).Completes fun d row => (f d row).filterMap (image? d) := by
  refine h.sieve _ _ _ fun d row => ?_
  show _ = images _ _ (f d row)
  induction f d row with
  | nil => rfl
  | cons x xs ih =>
    rw [images, List.filterMap_cons]
    cases image? d x with
    | none => exact ih
    | some y => exact congrArg (y :: ·) ih

theorem Completes.filter {f : Dataset → Row → List Row} (h : m.Completes f)
    (keep : Dataset → Row → Bool) :
    (m.filter keep).Completes fun d row => (f d row).filter (keep d) := by
  intro r hr row
  show (m.filterMap _).Finishes r _ ((f r.dataset row).filter (keep r.dataset))
  rw [← List.filterMap_eq_filter]
  exact h.filterMap _ r hr row

theorem Completes.distinct {f : Dataset → Row → List Row} (h : m.Completes f) :
    m.distinct.Completes fun d row => Row.distinct (f d row) := by
  refine h.sieve _ _ _ fun d row => ?_
  show Row.distinctFrom [] (f d row) = images _ [] (f d row)
  generalize ([] : List Row) = seen
  induction f d row generalizing seen with
  | nil => rfl
  | cons x xs ih =>
    rw [images, Row.distinctFrom]
    by_cases hseen : seen.any x.same
    · rw [if_pos hseen, if_pos hseen]
      exact ih seen
    · rw [if_neg hseen, if_neg hseen]
      exact congrArg (x :: ·) (ih (x :: seen))

theorem Completes.project {f : Dataset → Row → List Row} (h : m.Completes f) (vs : List Variable) :
    (m.project vs).Completes fun d row => (f d (row.restrict vs)).filterMap (row.extend? vs) := by
  refine h.sieve _ _ _ fun d row => ?_
  induction f d (row.restrict vs) with
  | nil => rfl
  | cons x xs ih =>
    rw [images, List.filterMap_cons, Option.bind_some]
    cases row.extend? vs x with
    | none => exact ih
    | some y => exact congrArg (y :: ·) ih

/-! ## Orders and slices -/

/-- Draining gives the rows that are to come. -/
theorem Yields.drain {s : m.State} {xs : List Row} (h : m.Yields r s xs)
    (hr : r.view.store.Readable) (rows : List Row) : m.drain r s rows = .ok (rows ++ xs) := by
  induction xs generalizing s rows with
  | nil =>
    obtain ⟨s', hnext⟩ := h r (.refl hr)
    rw [Evaluator.drain, hnext]
    exact congrArg Except.ok (List.append_nil rows).symm
  | cons row xs ih =>
    obtain ⟨s', hnext, hxs⟩ := h r (.refl hr)
    rw [Evaluator.drain, hnext]
    exact (ih hxs (rows ++ [row])).trans (by rw [List.append_assoc]; rfl)

/-- Pulls up to the end give the rows that are to come. -/
theorem Finishes.drains {s : m.State} {xs : List Row} (h : m.Finishes r s xs)
    (hr : r.view.store.Readable) : m.Drains r s xs := by
  induction xs generalizing s with
  | nil =>
    obtain ⟨s', hpull⟩ := h r (.refl hr)
    exact .nil hpull
  | cons row xs ih =>
    obtain ⟨s', hpull, hxs⟩ := h r (.refl hr)
    exact .cons hpull (ih hxs)

theorem finishes_sorted (order : Dataset → List Row → List Row) (rows : List Row) :
    (m.sort order).Finishes r (.sorted rows) rows := by
  induction rows generalizing r with
  | nil => exact fun r' _ => ⟨.sorted [], .sortEnd⟩
  | cons row rows ih => exact fun r' _ => ⟨.sorted rows, .sortItem, ih⟩

theorem Completes.sort {f : Dataset → Row → List Row} (h : m.Completes f)
    (order : Dataset → List Row → List Row) :
    (m.sort order).Completes fun d row => order d (f d row) := by
  intro r hr row
  refine .of_turn fun r' hlater => ⟨.sorted (order r.dataset (f r.dataset row)), ?_,
    finishes_sorted order _⟩
  have hdrains := ((h r hr row).later hlater).drains hlater.after
  rw [← hlater.dataset]
  rw [← hlater.dataset] at hdrains
  exact fun _ _ => .sortEnter hdrains

/-- Leaving out some rows and asking for one more gives the first row after them. -/
theorem Finishes.skips {s : m.State} {xs : List Row} (h : m.Finishes r s xs)
    (hr : r.view.store.Readable) (toSkip : Nat) :
    xs.drop toSkip = [] ∧ (∃ left s', m.Skips r toSkip s none left s') ∨
      ∃ row rest s', xs.drop toSkip = row :: rest ∧ m.Skips r toSkip s (some row) 0 s' ∧
        m.Finishes r s' rest := by
  induction toSkip generalizing s xs with
  | zero =>
    rw [List.drop_zero]
    cases xs with
    | nil =>
      obtain ⟨s', hpull⟩ := h r (.refl hr)
      exact .inl ⟨rfl, 0, s', .last hpull⟩
    | cons row rest =>
      obtain ⟨s', hpull, hrest⟩ := h r (.refl hr)
      exact .inr ⟨row, rest, s', rfl, .last hpull, hrest⟩
  | succ toSkip ih =>
    cases xs with
    | nil =>
      obtain ⟨s', hpull⟩ := h r (.refl hr)
      exact .inl ⟨rfl, toSkip + 1, s', .short hpull⟩
    | cons row rest =>
      obtain ⟨s', hpull, hrest⟩ := h r (.refl hr)
      rcases ih hrest with ⟨hdrop, left, t, hskips⟩ | ⟨x, xs, t, hdrop, hskips, hxs⟩
      · exact .inl ⟨hdrop, left, t, .skip hpull hskips⟩
      · exact .inr ⟨x, xs, t, hdrop, .skip hpull hskips, hxs⟩

/-- A slice is empty, or it begins with the first row that is not left out. -/
theorem slice_of_drop_eq_nil {xs : List Row} {toSkip : Nat} (h : xs.drop toSkip = [])
    (remaining? : Option Nat) : Row.slice toSkip remaining? xs = [] := by
  unfold Row.slice
  rw [h]
  cases remaining? with
  | none => rfl
  | some n => exact List.take_nil

theorem slice_of_drop_eq_cons {xs rest : List Row} {row : Row} {toSkip : Nat}
    (h : xs.drop toSkip = row :: rest) {remaining? : Option Nat} (hmore : remaining? ≠ some 0) :
    Row.slice toSkip remaining? xs = row :: Row.slice 0 (remaining?.map (· - 1)) rest := by
  unfold Row.slice
  rw [h]
  cases remaining? with
  | none => rfl
  | some n =>
    cases n with
    | zero => exact absurd rfl hmore
    | succ n => rfl

/-- Nothing is given beyond the last row allowed. -/
theorem finishes_slice_over (start : Nat) (length? : Option Nat) (s : m.State) (toSkip : Nat) :
    (m.slice start length?).Finishes r ⟨s, toSkip, some 0⟩ [] :=
  fun _ _ => ⟨_, .sliceOver⟩

theorem Finishes.slice {start : Nat} {length? : Option Nat} {s : m.State} {xs : List Row}
    (h : m.Finishes r s xs) (toSkip : Nat) (remaining? : Option Nat) :
    (m.slice start length?).Finishes r ⟨s, toSkip, remaining?⟩
      (Row.slice toSkip remaining? xs) := by
  obtain ⟨rows, hrows⟩ : ∃ rows, rows = Row.slice toSkip remaining? xs := ⟨_, rfl⟩
  rw [← hrows]
  induction rows generalizing r s xs toSkip remaining? with
  | nil =>
    intro r' hlater
    by_cases hmore : remaining? = some 0
    · rw [hmore]
      exact ⟨_, .sliceOver⟩
    · rcases (h.later hlater).skips hlater.after toSkip with
        ⟨-, left, s', hskips⟩ | ⟨row, rest, s', hdrop, -, -⟩
      · exact ⟨⟨s', left, remaining?⟩, .sliceEnd hmore hskips⟩
      · rw [slice_of_drop_eq_cons hdrop hmore] at hrows
        exact absurd hrows (List.cons_ne_nil _ _).symm
  | cons row rows ih =>
    intro r' hlater
    have hmore : remaining? ≠ some 0 := by
      rintro rfl
      exact absurd hrows (List.cons_ne_nil _ _)
    rcases (h.later hlater).skips hlater.after toSkip with
      ⟨hdrop, -⟩ | ⟨row', rest, s', hdrop, hskips, hrest⟩
    · rw [slice_of_drop_eq_nil hdrop] at hrows
      exact absurd hrows (List.cons_ne_nil _ _)
    · rw [slice_of_drop_eq_cons hdrop hmore] at hrows
      obtain ⟨rfl, htail⟩ := List.cons.inj hrows
      refine ⟨⟨if remaining?.map (· - 1) = some 0 then m.closed else s', 0,
        remaining?.map (· - 1)⟩, .sliceItem hmore hskips, ?_⟩
      by_cases hlast : remaining?.map (· - 1) = some 0
      · rw [hlast] at htail ⊢
        obtain rfl : rows = [] := htail
        exact finishes_slice_over start length? _ 0
      · rw [if_neg hlast]
        exact ih hrest 0 _ htail

theorem Completes.slice {f : Dataset → Row → List Row} (h : m.Completes f) (start : Nat)
    (length? : Option Nat) :
    (m.slice start length?).Completes fun d row => Row.slice start length? (f d row) :=
  fun r hr row => (h r hr row).slice start length?

end Evaluator

/-! ## Patterns -/

/-- The evaluator of a pattern gives the rows of the pattern, each in a pull that ends. -/
theorem GraphPattern.completes_evaluator :
    ∀ p : GraphPattern, p.evaluator.Completes fun d row => p.rows d row
  | quad pattern => by
    simp only [evaluator, rows]
    exact Evaluator.completes_quad pattern
  | join left right => by
    simp only [evaluator, rows]
    exact left.completes_evaluator.join right.completes_evaluator
  | leftJoin left right condition? => by
    simp only [evaluator, rows]
    exact left.completes_evaluator.leftJoin (right.completes_evaluator.filter _)
  | filter condition inner => by
    simp only [evaluator, rows]
    exact inner.completes_evaluator.filter _
  | union left right => by
    simp only [evaluator, rows]
    exact left.completes_evaluator.union right.completes_evaluator
  | extend inner v value => by
    simp only [evaluator, rows]
    exact inner.completes_evaluator.filterMap _
  | distinct inner => by
    simp only [evaluator, rows]
    exact inner.completes_evaluator.distinct
  | orderBy inner keys => by
    simp only [evaluator, rows]
    exact inner.completes_evaluator.sort _
  | slice inner start length? => by
    simp only [evaluator, rows]
    exact inner.completes_evaluator.slice start length?
  | project inner vs => by
    simp only [evaluator, rows]
    exact inner.completes_evaluator.project vs

/-- The evaluator of a pattern gives the rows of the pattern. -/
theorem GraphPattern.computes_evaluator (p : GraphPattern) :
    p.evaluator.Computes fun d row => p.rows d row :=
  fun r hr row => (p.completes_evaluator r hr row).yields

end QuadStore
