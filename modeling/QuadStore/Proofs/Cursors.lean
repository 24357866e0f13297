import QuadStore.Proofs.Evaluators
import QuadStore.Proofs.Pins

/-!
# What open cursors have still to give

A cursor has still to give the items that it would give if it were drained at once
(`OpenCursor.Owes`). A pull takes the first of them. While the snapshot of the cursor is kept,
nothing else changes them.
-/

namespace QuadStore

/-! ## Look-ups -/

namespace Store

variable {s s' : Store} {stamp : Nat} {inferred : Bool}

/-- The quads that some look-ups have still to give: one that is half way, then those of some
shapes. -/
def owedBy (s : Store) (stamp : Nat) (inferred : Bool) (scan? : Option Index.Scan)
    (shapes : List EncodedShape) : List Quad :=
  scan?.elim [] s.owed ++ shapes.flatMap fun shape => s.owed (s.index.scan shape stamp inferred)

/-- Whether or not a look-up is half way, it is at its end or gives a quad first. -/
theorem Readable.first_cases (h : s.Readable) {scan? : Option Index.Scan}
    (hstamp : ∀ scan, scan? = some scan → scan.stamp = stamp) :
    scan?.bind s.index.next? = none ∧ scan?.elim [] s.owed = [] ∨
      ∃ e after q, scan?.bind s.index.next? = some (e, after) ∧
        s.dictionary.resolveQuad e.quad = .ok q ∧
        scan?.elim [] s.owed = q :: s.owed after ∧ after.stamp = stamp := by
  cases scan? with
  | none => exact .inl ⟨rfl, rfl⟩
  | some scan =>
    rcases h.owed_cases scan with hend | ⟨e, after, q, hnext, hq, howed, hafter⟩
    · exact .inl hend
    · exact .inr ⟨e, after, q, hnext, hq, howed, hafter.trans (hstamp scan rfl)⟩

/-- Some look-ups are at their end, or they give a quad first. -/
theorem Readable.advance_cases (h : s.Readable) (inferred : Bool) {scan? : Option Index.Scan}
    (hstamp : ∀ scan, scan? = some scan → scan.stamp = stamp) (shapes : List EncodedShape) :
    QuadCursor.advance s.index stamp inferred scan? shapes = none ∧
        s.owedBy stamp inferred scan? shapes = [] ∨
      ∃ e after rest q,
        QuadCursor.advance s.index stamp inferred scan? shapes = some (e, after, rest) ∧
        s.dictionary.resolveQuad e.quad = .ok q ∧
        s.owedBy stamp inferred scan? shapes = q :: s.owedBy stamp inferred (some after) rest ∧
        after.stamp = stamp := by
  induction shapes generalizing scan? with
  | nil =>
    unfold QuadCursor.advance owedBy
    rcases h.first_cases hstamp with ⟨hnext, howed⟩ | ⟨e, after, q, hnext, hq, howed, hafter⟩
    · left
      rw [hnext, howed]
      exact ⟨rfl, rfl⟩
    · refine .inr ⟨e, after, [], q, ?_, hq, ?_, hafter⟩
      · rw [hnext]
        rfl
      · rw [howed]
        rfl
  | cons shape rest ih =>
    rcases h.first_cases hstamp with ⟨hnext, howed⟩ | ⟨e, after, q, hnext, hq, howed, hafter⟩
    · -- the next look-up begins
      have hadvance : QuadCursor.advance s.index stamp inferred scan? (shape :: rest) =
          QuadCursor.advance s.index stamp inferred
            (some (s.index.scan shape stamp inferred)) rest := by
        rw [QuadCursor.advance, hnext]
      have howedBy : s.owedBy stamp inferred scan? (shape :: rest) =
          s.owedBy stamp inferred (some (s.index.scan shape stamp inferred)) rest := by
        unfold owedBy
        rw [howed]
        rfl
      rw [hadvance, howedBy]
      refine ih fun scan hscan => ?_
      rw [← Option.some.inj hscan]
      rfl
    · refine .inr ⟨e, after, shape :: rest, q, ?_, hq, ?_, hafter⟩
      · rw [QuadCursor.advance, hnext]
      · unfold owedBy
        rw [howed]
        rfl

/-- A look-up finds the same quads where its snapshot is kept. -/
theorem Keeps.owed_scan (h : s.Keeps stamp s') (hr : s.Readable) (hr' : s'.Readable)
    (shape : EncodedShape) :
    s'.owed (s'.index.scan shape stamp inferred) = s.owed (s.index.scan shape stamp inferred) := by
  -- what is found, and what it is resolved to, depends on the visible faces alone
  have howed : ∀ s : Store, s.Readable → s.owed (s.index.scan shape stamp inferred) =
      (((s.at stamp).visible.map Entry.face).filter fun face =>
        (inferred || face.2.2) && shape.covers face.2.1).filterMap fun face =>
          (s.dictionary.resolveQuad face.2.1).toOption := by
    intro s hr
    have hsearch := View.search_eq (v := s.at stamp) hr shape inferred
    show ((s.index.search shape stamp inferred).filterMap _) = _
    rw [List.filter_map, List.filterMap_map]
    exact congrArg _ hsearch
  rw [howed s' hr', howed s hr, h.visible]
  refine List.filterMap_congr ?_
  intro face hface
  obtain ⟨e, he, rfl⟩ := List.mem_map.1 (List.mem_filter.1 hface).1
  obtain ⟨q, hq⟩ := hr.known e (View.mem_visible.1 he).1
  show (s'.dictionary.resolveQuad e.quad).toOption = (s.dictionary.resolveQuad e.quad).toOption
  rw [h.dictionary.resolveQuad hq, hq]

theorem Keeps.owedBy (h : s.Keeps stamp s') (hr : s.Readable) (hr' : s'.Readable)
    {scan? : Option Index.Scan} (hstamp : ∀ scan, scan? = some scan → scan.stamp = stamp)
    (shapes : List EncodedShape) :
    s'.owedBy stamp inferred scan? shapes = s.owedBy stamp inferred scan? shapes := by
  have hscan : scan?.elim [] s'.owed = scan?.elim [] s.owed := by
    cases scan? with
    | none => rfl
    | some scan =>
      obtain rfl := hstamp scan rfl
      exact h.owed hr hr'
  have hshapes : shapes.flatMap (fun shape => s'.owed (s'.index.scan shape stamp inferred)) =
      shapes.flatMap fun shape => s.owed (s.index.scan shape stamp inferred) :=
    List.flatMap_congr fun shape _ => h.owed_scan hr hr' shape
  unfold Store.owedBy
  rw [hscan, hshapes]

end Store
/-! ## Cursors over quads -/

namespace QuadCursor

/-- The quads that a cursor has still to give. -/
def owed (c : QuadCursor) (s : Store) : List Quad := s.owedBy c.stamp c.inferred c.scan? c.shapes

/-- A cursor looks things up at its snapshot, and only while it holds its pin. -/
structure Proper (c : QuadCursor) : Prop where
  stamp : ∀ scan, c.scan? = some scan → scan.stamp = c.stamp
  atEnd : c.pin? = none → c.scan? = none ∧ c.shapes = []

theorem proper_close (c : QuadCursor) (s : Store) : (c.close s).1.Proper where
  stamp := fun _ h => absurd h (Option.some_ne_none _).symm
  atEnd := fun _ => ⟨rfl, rfl⟩

theorem proper_ofQuery (d : Dictionary) (snapshot : Snapshot) (q : QuadQuery) (inferred : Bool) :
    (ofQuery d snapshot q inferred).Proper where
  stamp := fun _ h => absurd h (Option.some_ne_none _).symm
  atEnd := fun h => absurd h (Option.some_ne_none _)

/-- A pull gives the first quad that is still to be given. -/
theorem Proper.next {c : QuadCursor} (h : c.Proper) {s : Store} (hr : s.Readable) :
    Session.pulledQuad (c.next s).1 = ((c.owed s).map Pulled.quad).headD .ended ∧
      (c.next s).2.1.Proper ∧ (c.next s).2.1.owed (c.next s).2.2 = (c.owed s).tail := by
  unfold QuadCursor.next owed
  rcases hr.advance_cases c.inferred h.stamp c.shapes with
    ⟨hadvance, howed⟩ | ⟨e, after, rest, q, hadvance, hq, howed, hafter⟩
  · rw [hadvance, howed]
    exact ⟨rfl, c.proper_close s, rfl⟩
  · rw [hadvance, howed]
    dsimp only
    rw [hq]
    refine ⟨rfl, ⟨?_, ?_⟩, rfl⟩
    · intro scan hscan
      rw [← Option.some.inj hscan]
      exact hafter
    · intro hpin
      -- without its pin, the cursor would have been at its end
      obtain ⟨hscan, hshapes⟩ := h.atEnd hpin
      rw [hscan, hshapes] at hadvance
      exact absurd hadvance (Option.some_ne_none _).symm

theorem Proper.keeps {c : QuadCursor} (h : c.Proper) {s s' : Store} (hr : s.Readable)
    (hr' : s'.Readable) (hkeeps : c.pin? ≠ none → s.Keeps c.stamp s') : c.owed s' = c.owed s := by
  by_cases hpin : c.pin? = none
  · obtain ⟨hscan, hshapes⟩ := h.atEnd hpin
    unfold owed
    rw [hscan, hshapes]
    rfl
  · exact (hkeeps hpin).owedBy hr hr' h.stamp c.shapes

/-- A cursor that has been opened has to give what the look-up gives. -/
theorem quads_eq_owed {s : Store} (hr : s.Readable) (snapshot : Snapshot) (q : QuadQuery)
    (inferred : Bool) : (s.at snapshot.stamp).quads q inferred =
      .ok ((ofQuery s.dictionary snapshot q inferred).owed s) := by
  unfold View.quads
  rw [View.mapM_resolveQuad hr fun e he => View.mem_entries hr he]
  congr 1
  show _ = [] ++ (View.shapes s.dictionary q).flatMap fun shape =>
    (s.index.search shape snapshot.stamp inferred).filterMap _
  rw [List.nil_append, ← List.filterMap_flatMap, List.map_filterMap]
  refine List.filterMap_congr fun e _ => ?_
  show ((s.dictionary.resolveQuad e.quad).toOption.map _).map _ = _
  rw [Option.map_map]
  exact congrFun Option.map_id _

end QuadCursor

/-! ## Cursors over rows -/

namespace RowCursor

/-- The rows that a cursor has still to give. -/
def Owes (s : Store) (c : RowCursor) (rows : List Row) : Prop :=
  match c.state? with
  | none => rows = []
  | some state => c.query.pattern.evaluator.Yields (reading s c.stamp c.inferred) state rows

/-- What a pull of a row gives. -/
def item (c : RowCursor) (row : Row) : Pulled := .row (Query.project c.query.columns row)

/-- A pull gives the first row that is still to be given. -/
theorem Owes.next {s : Store} {c : RowCursor} {rows : List Row} (h : c.Owes s rows)
    (hr : s.Readable) (hdeadline : c.deadline = .ahead) :
    Session.pulledRow (c.next s).1 = (rows.map c.item).headD .ended ∧
      (c.next s).2.Owes s rows.tail ∧ (c.next s).2.deadline = .ahead ∧
      (c.next s).2.item = c.item := by
  obtain ⟨query, stamp, inferred, deadline, state?, pin⟩ := c
  obtain rfl : deadline = .ahead := hdeadline
  cases state? with
  | none =>
    obtain rfl : rows = [] := h
    exact ⟨rfl, rfl, rfl, rfl⟩
  | some state =>
    have hyields : query.pattern.evaluator.Yields (reading s stamp inferred) state rows := h
    unfold RowCursor.next
    cases rows with
    | nil =>
      obtain ⟨state', hnext⟩ := hyields _ (.refl hr)
      dsimp only
      rw [hnext]
      exact ⟨rfl, rfl, rfl, rfl⟩
    | cons row rest =>
      obtain ⟨state', hnext, hrest⟩ := hyields _ (.refl hr)
      dsimp only
      rw [hnext]
      exact ⟨rfl, hrest, rfl, rfl⟩

theorem Owes.keeps {s s' : Store} {c : RowCursor} {rows : List Row} (h : c.Owes s rows)
    (hr : s.Readable) (hr' : s'.Readable) (hkeeps : s.Keeps c.stamp s') : c.Owes s' rows := by
  unfold Owes at h ⊢
  split
  · rename_i hstate
    rw [hstate] at h
    exact h
  · rename_i state hstate
    rw [hstate] at h
    exact h.later ⟨rfl, rfl, hkeeps, hr, hr'⟩

end RowCursor

/-! ## Pulls -/

/-- What some pulls give where some items are left: the first of them, and nothing at their end. -/
def drained (items : List Pulled) (n : Nat) : List Pulled :=
  items.take n ++ List.replicate (n - items.length) .ended

theorem drained_zero (items : List Pulled) : drained items 0 = [] := by simp [drained]

theorem drained_succ (items : List Pulled) (n : Nat) :
    drained items (n + 1) = items.headD .ended :: drained items.tail n := by
  cases items with
  | nil => simp [drained, List.replicate_succ]
  | cons item rest => simp [drained]

theorem drained_add (items : List Pulled) (m n : Nat) :
    drained items (m + n) = drained items m ++ drained (items.drop m) n := by
  induction m generalizing items with
  | zero => rw [Nat.zero_add, drained_zero, List.nil_append, List.drop_zero]
  | succ m ih =>
    rw [Nat.succ_add, drained_succ, drained_succ, ih, List.cons_append, List.drop_tail]

namespace OpenCursor

/-- The items that a cursor has still to give. The deadline of an evaluation has not passed. -/
def Owes (s : Store) : OpenCursor → List Pulled → Prop
  | quads c, items => c.Proper ∧ items = (c.owed s).map .quad
  | rows c, items => c.deadline = .ahead ∧ ∃ rows, c.Owes s rows ∧ items = rows.map c.item

variable {s s' : Store} {c : OpenCursor} {items : List Pulled}

theorem Owes.pull (h : c.Owes s items) (hr : s.Readable) :
    (Session.pull s c).1 = items.headD .ended ∧
      (Session.pull s c).2.1.Owes (Session.pull s c).2.2 items.tail := by
  cases c with
  | quads c =>
    obtain ⟨hc, rfl⟩ := h
    obtain ⟨hitem, hproper, howed⟩ := hc.next hr
    refine ⟨hitem, hproper, ?_⟩
    show ((c.owed s).map Pulled.quad).tail = ((c.next s).2.1.owed (c.next s).2.2).map .quad
    rw [howed, List.map_tail]
  | rows c =>
    obtain ⟨hdeadline, rows, hrows, rfl⟩ := h
    obtain ⟨hitem, hnext, hdeadline', hitems⟩ := hrows.next hr hdeadline
    refine ⟨hitem, hdeadline', rows.tail, hnext, ?_⟩
    show (rows.map c.item).tail = rows.tail.map (c.next s).2.item
    rw [hitems, List.map_tail]

/-- A cursor has still to give the same where its snapshot is kept. -/
theorem Owes.keeps (h : c.Owes s items) (hr : s.Readable) (hr' : s'.Readable)
    (hkeeps : ∀ reader, c.reader? = some reader → s.Keeps reader.2 s') : c.Owes s' items := by
  cases c with
  | quads c =>
    obtain ⟨hc, rfl⟩ := h
    refine ⟨hc, ?_⟩
    rw [hc.keeps hr hr' fun hpin => ?_]
    obtain ⟨pin, hpin⟩ := Option.ne_none_iff_exists'.1 hpin
    exact hkeeps (pin, c.stamp) (congrArg (Option.map (·, c.stamp)) hpin)
  | rows c =>
    obtain ⟨hdeadline, rows, hrows, rfl⟩ := h
    exact ⟨hdeadline, rows, hrows.keeps hr hr' (hkeeps _ rfl), rfl⟩

theorem Owes.pullMany (h : c.Owes s items) (hr : s.Readable) (n : Nat) :
    (Session.pullMany s c n).1 = drained items n ∧
      (Session.pullMany s c n).2.1.Owes (Session.pullMany s c n).2.2 (items.drop n) := by
  induction n generalizing s c items with
  | zero => exact ⟨(drained_zero items).symm, h⟩
  | succ n ih =>
    obtain ⟨hitem, hrest⟩ := h.pull hr
    obtain ⟨hitems, hrest'⟩ := ih hrest ((Session.repins_pull s c).readable hr)
    rw [List.drop_tail] at hrest'
    refine ⟨?_, hrest'⟩
    rw [drained_succ, ← hitem, ← hitems]
    rfl

/-- A cursor over the quads of a look-up has to give them. -/
theorem owes_ofQuery {s : Store} (hr : s.Readable) (snapshot : Snapshot) (q : QuadQuery)
    (inferred : Bool) {qs : List Quad} (hqs : (s.at snapshot.stamp).quads q inferred = .ok qs) :
    (quads (.ofQuery s.dictionary snapshot q inferred)).Owes s (qs.map .quad) := by
  rw [QuadCursor.quads_eq_owed hr] at hqs
  rw [← Except.ok.inj hqs]
  exact ⟨QuadCursor.proper_ofQuery _ _ _ _, rfl⟩

/-- A cursor over the rows of a query has to give them. -/
theorem owes_ofQuery_rows {s : Store} (hr : s.Readable) (snapshot : Snapshot) (query : Query)
    (inferred : Bool) (hdeadline : s.options.deadline = .ahead) :
    (rows (.ofQuery s snapshot query inferred)).Owes s
      ((query.rows ((s.at snapshot.stamp).dataset inferred)).map .row) := by
  refine ⟨hdeadline, _, query.pattern.computes_evaluator _ hr query.start, ?_⟩
  unfold Query.rows
  rw [List.map_map]
  rfl

end OpenCursor
end QuadStore
